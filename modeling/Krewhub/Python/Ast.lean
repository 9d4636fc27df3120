import Mathlib.Data.List.Basic
import Mathlib.Tactic.Common

/-!
# The syntax tree of graph code

The tree `ast.parse(code, mode="exec")` hands to the validator: one constructor for each class of the
`ast` module of Python 3.12, with the fields of the class in the order of `_fields`, which is the
order `ast.iter_child_nodes` walks them in. Python's `ast.AST` does not separate statements from
expressions, so neither does `Ast`; every tree the parser builds is one, and what is proved of all of
them is proved of those. Operators, constants' values and type comments carry no node the validator
or the name resolution looks at and are left out.
-/

namespace Krewhub

/-- `expr_context`: how a name, an attribute or a subscript is used. -/
inductive ExprContext where
  | load
  | store
  | del
  deriving DecidableEq, Repr

mutual

/-- A node together with its `lineno` attribute, absent on `Module`, `arguments`, `comprehension`,
`withitem` and `match_case`. -/
inductive Ast where
  | mk (lineno : Option Nat) (node : Node)

/-- The classes of the `ast` module: statements first, then expressions, then the parts of both. -/
inductive Node where
  | module (body : List Ast)
  | functionDef (name : String) (args : Ast) (body decoratorList : List Ast) (returns : Option Ast)
      (typeParams : List Ast)
  | asyncFunctionDef (name : String) (args : Ast) (body decoratorList : List Ast)
      (returns : Option Ast) (typeParams : List Ast)
  | classDef (name : String) (bases keywords body decoratorList typeParams : List Ast)
  | returnStmt (value : Option Ast)
  | delete (targets : List Ast)
  | assign (targets : List Ast) (value : Ast)
  | typeAlias (name : Ast) (typeParams : List Ast) (value : Ast)
  | augAssign (target value : Ast)
  | annAssign (target annot : Ast) (value : Option Ast) (simple : Bool)
  | forStmt (target iter : Ast) (body orelse : List Ast)
  | asyncFor (target iter : Ast) (body orelse : List Ast)
  | whileStmt (test : Ast) (body orelse : List Ast)
  | ifStmt (test : Ast) (body orelse : List Ast)
  | withStmt (items body : List Ast)
  | asyncWith (items body : List Ast)
  | matchStmt (subject : Ast) (cases : List Ast)
  | raiseStmt (exc cause : Option Ast)
  | tryStmt (body handlers orelse finalbody : List Ast)
  | tryStar (body handlers orelse finalbody : List Ast)
  | assert (test : Ast) (msg : Option Ast)
  | importStmt (names : List Ast)
  | importFrom (names : List Ast)
  | global (names : List String)
  | nonlocal (names : List String)
  | exprStmt (value : Ast)
  | pass
  | breakStmt
  | continueStmt
  | boolOp (values : List Ast)
  | namedExpr (target value : Ast)
  | binOp (left right : Ast)
  | unaryOp (operand : Ast)
  | lambda (args body : Ast)
  | ifExp (test body orelse : Ast)
  | dict (keys : List (Option Ast)) (values : List Ast)
  | set (elts : List Ast)
  | listComp (elt : Ast) (generators : List Ast)
  | setComp (elt : Ast) (generators : List Ast)
  | dictComp (key value : Ast) (generators : List Ast)
  | generatorExp (elt : Ast) (generators : List Ast)
  | await (value : Ast)
  | yield (value : Option Ast)
  | yieldFrom (value : Ast)
  | compare (left : Ast) (comparators : List Ast)
  | call (func : Ast) (args keywords : List Ast)
  | formattedValue (value : Ast) (formatSpec : Option Ast)
  | joinedStr (values : List Ast)
  | constant
  | attributeRef (value : Ast) (attr : String) (ctx : ExprContext)
  | subscript (value slice : Ast) (ctx : ExprContext)
  | starred (value : Ast) (ctx : ExprContext)
  | name (id : String) (ctx : ExprContext)
  | list (elts : List Ast) (ctx : ExprContext)
  | tuple (elts : List Ast) (ctx : ExprContext)
  | slice (lower upper step : Option Ast)
  | comprehension (target iter : Ast) (ifs : List Ast)
  | exceptHandler (type : Option Ast) (name : Option String) (body : List Ast)
  | arguments (posonlyargs args : List Ast) (vararg : Option Ast) (kwonlyargs : List Ast)
      (kwDefaults : List (Option Ast)) (kwarg : Option Ast) (defaults : List Ast)
  | arg (arg : String) (annot : Option Ast)
  | keyword (arg : Option String) (value : Ast)
  | alias (name : String) (asname : Option String)
  | withitem (contextExpr : Ast) (optionalVars : Option Ast)
  | matchCase (pattern : Ast) (guard : Option Ast) (body : List Ast)
  | matchValue (value : Ast)
  | matchSingleton
  | matchSequence (patterns : List Ast)
  | matchMapping (keys patterns : List Ast) (rest : Option String)
  | matchClass (cls : Ast) (patterns : List Ast) (kwdAttrs : List String) (kwdPatterns : List Ast)
  | matchStar (name : Option String)
  | matchAs (pattern : Option Ast) (name : Option String)
  | matchOr (patterns : List Ast)
  | typeVar (name : String) (bound : Option Ast)
  | paramSpec (name : String)
  | typeVarTuple (name : String)

end

namespace Ast

def lineno : Ast → Option Nat
  | .mk line _ => line

def node : Ast → Node
  | .mk _ n => n

/-- `type(node).__name__`. -/
def className (a : Ast) : String :=
  match a.node with
  | .module .. => "Module"
  | .functionDef .. => "FunctionDef"
  | .asyncFunctionDef .. => "AsyncFunctionDef"
  | .classDef .. => "ClassDef"
  | .returnStmt .. => "Return"
  | .delete .. => "Delete"
  | .assign .. => "Assign"
  | .typeAlias .. => "TypeAlias"
  | .augAssign .. => "AugAssign"
  | .annAssign .. => "AnnAssign"
  | .forStmt .. => "For"
  | .asyncFor .. => "AsyncFor"
  | .whileStmt .. => "While"
  | .ifStmt .. => "If"
  | .withStmt .. => "With"
  | .asyncWith .. => "AsyncWith"
  | .matchStmt .. => "Match"
  | .raiseStmt .. => "Raise"
  | .tryStmt .. => "Try"
  | .tryStar .. => "TryStar"
  | .assert .. => "Assert"
  | .importStmt .. => "Import"
  | .importFrom .. => "ImportFrom"
  | .global .. => "Global"
  | .nonlocal .. => "Nonlocal"
  | .exprStmt .. => "Expr"
  | .pass => "Pass"
  | .breakStmt => "Break"
  | .continueStmt => "Continue"
  | .boolOp .. => "BoolOp"
  | .namedExpr .. => "NamedExpr"
  | .binOp .. => "BinOp"
  | .unaryOp .. => "UnaryOp"
  | .lambda .. => "Lambda"
  | .ifExp .. => "IfExp"
  | .dict .. => "Dict"
  | .set .. => "Set"
  | .listComp .. => "ListComp"
  | .setComp .. => "SetComp"
  | .dictComp .. => "DictComp"
  | .generatorExp .. => "GeneratorExp"
  | .await .. => "Await"
  | .yield .. => "Yield"
  | .yieldFrom .. => "YieldFrom"
  | .compare .. => "Compare"
  | .call .. => "Call"
  | .formattedValue .. => "FormattedValue"
  | .joinedStr .. => "JoinedStr"
  | .constant => "Constant"
  | .attributeRef .. => "Attribute"
  | .subscript .. => "Subscript"
  | .starred .. => "Starred"
  | .name .. => "Name"
  | .list .. => "List"
  | .tuple .. => "Tuple"
  | .slice .. => "Slice"
  | .comprehension .. => "comprehension"
  | .exceptHandler .. => "ExceptHandler"
  | .arguments .. => "arguments"
  | .arg .. => "arg"
  | .keyword .. => "keyword"
  | .alias .. => "alias"
  | .withitem .. => "withitem"
  | .matchCase .. => "match_case"
  | .matchValue .. => "MatchValue"
  | .matchSingleton => "MatchSingleton"
  | .matchSequence .. => "MatchSequence"
  | .matchMapping .. => "MatchMapping"
  | .matchClass .. => "MatchClass"
  | .matchStar .. => "MatchStar"
  | .matchAs .. => "MatchAs"
  | .matchOr .. => "MatchOr"
  | .typeVar .. => "TypeVar"
  | .paramSpec .. => "ParamSpec"
  | .typeVarTuple .. => "TypeVarTuple"

/-- `ast.iter_child_nodes`: the nodes directly below a node, field by field. -/
def children (a : Ast) : List Ast :=
  match a.node with
  | .module body => body
  | .functionDef _ args body decos returns tparams =>
      args :: body ++ decos ++ returns.toList ++ tparams
  | .asyncFunctionDef _ args body decos returns tparams =>
      args :: body ++ decos ++ returns.toList ++ tparams
  | .classDef _ bases keywords body decos tparams => bases ++ keywords ++ body ++ decos ++ tparams
  | .returnStmt value => value.toList
  | .delete targets => targets
  | .assign targets value => targets ++ [value]
  | .typeAlias name tparams value => name :: tparams ++ [value]
  | .augAssign target value => [target, value]
  | .annAssign target annot value _ => target :: annot :: value.toList
  | .forStmt target iter body orelse => target :: iter :: body ++ orelse
  | .asyncFor target iter body orelse => target :: iter :: body ++ orelse
  | .whileStmt test body orelse => test :: body ++ orelse
  | .ifStmt test body orelse => test :: body ++ orelse
  | .withStmt items body => items ++ body
  | .asyncWith items body => items ++ body
  | .matchStmt subject cases => subject :: cases
  | .raiseStmt exc cause => exc.toList ++ cause.toList
  | .tryStmt body handlers orelse finalbody => body ++ handlers ++ orelse ++ finalbody
  | .tryStar body handlers orelse finalbody => body ++ handlers ++ orelse ++ finalbody
  | .assert test msg => test :: msg.toList
  | .importStmt names => names
  | .importFrom names => names
  | .exprStmt value => [value]
  | .boolOp values => values
  | .namedExpr target value => [target, value]
  | .binOp left right => [left, right]
  | .unaryOp operand => [operand]
  | .lambda args body => [args, body]
  | .ifExp test body orelse => [test, body, orelse]
  | .dict keys values => keys.flatMap Option.toList ++ values
  | .set elts => elts
  | .listComp elt generators => elt :: generators
  | .setComp elt generators => elt :: generators
  | .dictComp key value generators => key :: value :: generators
  | .generatorExp elt generators => elt :: generators
  | .await value => [value]
  | .yield value => value.toList
  | .yieldFrom value => [value]
  | .compare left comparators => left :: comparators
  | .call func args keywords => func :: args ++ keywords
  | .formattedValue value formatSpec => value :: formatSpec.toList
  | .joinedStr values => values
  | .attributeRef value _ _ => [value]
  | .subscript value slice _ => [value, slice]
  | .starred value _ => [value]
  | .list elts _ => elts
  | .tuple elts _ => elts
  | .slice lower upper step => lower.toList ++ upper.toList ++ step.toList
  | .comprehension target iter ifs => target :: iter :: ifs
  | .exceptHandler type _ body => type.toList ++ body
  | .arguments posonly args vararg kwonly kwDefaults kwarg defaults =>
      posonly ++ args ++ vararg.toList ++ kwonly ++ kwDefaults.flatMap Option.toList ++
        kwarg.toList ++ defaults
  | .arg _ annot => annot.toList
  | .keyword _ value => [value]
  | .withitem contextExpr optionalVars => contextExpr :: optionalVars.toList
  | .matchCase pattern guard body => pattern :: guard.toList ++ body
  | .matchValue value => [value]
  | .matchSequence patterns => patterns
  | .matchMapping keys patterns _ => keys ++ patterns
  | .matchClass cls patterns _ kwdPatterns => cls :: patterns ++ kwdPatterns
  | .matchAs pattern _ => pattern.toList
  | .matchOr patterns => patterns
  | .typeVar _ bound => bound.toList
  | .global _ | .nonlocal _ | .pass | .breakStmt | .continueStmt | .constant | .name _ _
  | .alias _ _ | .matchSingleton | .matchStar _ | .paramSpec _ | .typeVarTuple _ => []

private theorem sizeOf_lt_of_mem_toList {a : Ast} {o : Option Ast} (h : a ∈ o.toList) :
    sizeOf a < sizeOf o := by
  rw [Option.mem_toList] at h
  rw [h]
  simp

private theorem sizeOf_lt_of_mem_flatMap {a : Ast} {l : List (Option Ast)}
    (h : a ∈ l.flatMap Option.toList) : sizeOf a < sizeOf l := by
  obtain ⟨o, ho, ha⟩ := List.mem_flatMap.mp h
  exact Nat.lt_trans (sizeOf_lt_of_mem_toList ha) (List.sizeOf_lt_of_mem ho)

theorem sizeOf_lt_of_mem_children {a c : Ast} (h : c ∈ a.children) : sizeOf c < sizeOf a := by
  obtain ⟨line, n⟩ := a
  have hlist : ∀ l : List Ast, c ∈ l → sizeOf c < sizeOf l := fun l => List.sizeOf_lt_of_mem
  have hoption : ∀ o : Option Ast, c ∈ o.toList → sizeOf c < sizeOf o :=
    fun o => sizeOf_lt_of_mem_toList
  have hnested : ∀ l : List (Option Ast), c ∈ l.flatMap Option.toList → sizeOf c < sizeOf l :=
    fun l => sizeOf_lt_of_mem_flatMap
  have hnode : sizeOf c < sizeOf n := by
    cases n <;> simp only [children, node, List.mem_cons, List.mem_append, List.not_mem_nil,
      or_false, List.append_assoc, List.cons_append] at h <;> grind
  simp only [Ast.mk.sizeOf_spec]
  omega

/-- What holds of a node whenever it holds of its children holds of every tree. -/
theorem childInduction {P : Ast → Prop} (h : ∀ a, (∀ c ∈ a.children, P c) → P a) (a : Ast) : P a :=
  h a fun c _ => childInduction h c
termination_by sizeOf a
decreasing_by exact sizeOf_lt_of_mem_children ‹_›

/-- `ast.walk`: the node and everything below it. -/
def nodes (a : Ast) : List Ast :=
  a :: a.children.attach.flatMap fun c => nodes c.1
termination_by sizeOf a
decreasing_by exact sizeOf_lt_of_mem_children c.2

theorem mem_nodes {a m : Ast} : m ∈ a.nodes ↔ m = a ∨ ∃ c ∈ a.children, m ∈ c.nodes := by
  rw [nodes]
  simp only [List.mem_cons, List.mem_flatMap, List.mem_attach, true_and, Subtype.exists,
    exists_prop]

theorem self_mem_nodes (a : Ast) : a ∈ a.nodes := mem_nodes.mpr (.inl rfl)

theorem nodes_subset_of_mem_children {a c : Ast} (h : c ∈ a.children) : c.nodes ⊆ a.nodes :=
  fun _ hm => mem_nodes.mpr (.inr ⟨c, h, hm⟩)

theorem nodes_trans {a m k : Ast} (hm : m ∈ a.nodes) (hk : k ∈ m.nodes) : k ∈ a.nodes := by
  induction a using childInduction with
  | h a ih =>
    rcases mem_nodes.mp hm with rfl | ⟨c, hc, hmc⟩
    · exact hk
    · exact nodes_subset_of_mem_children hc (ih c hc hmc)

end Ast

end Krewhub
