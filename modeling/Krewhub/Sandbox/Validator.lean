import Krewhub.Python.Ast

/-!
# The graph-code validator

`validate_graph_code` walks the tree of the code with `_Validator`, an `ast.NodeVisitor` that records
a violation for every construct outside its allowlist, and raises when one was recorded. The visitor
carries one flat set of the names the code defines; `visit_*` methods replace the generic traversal
for their class, so a child such a method does not visit is never looked at.
-/

namespace Krewhub

/-! ### Allowlists -/

/-- `INJECTED_NAMES`: what `sandbox.py` puts into the exec namespace. -/
def injectedNames : List String :=
  ["GraphBuilder", "StepContext", "reduce_list_append", "dispatch_cycle", "OrchestratorState",
    "OrchestratorDeps"]

def allowedBuiltins : List String :=
  ["str", "int", "float", "bool", "bytes", "list", "dict", "tuple", "set", "frozenset", "None",
    "True", "False", "len", "range", "enumerate", "zip", "min", "max", "sum", "any", "all",
    "sorted", "reversed", "abs", "round", "isinstance"]

def bannedNames : List String :=
  ["__import__", "__builtins__", "__loader__", "__spec__", "__file__", "__name__", "__package__",
    "__doc__", "__class__", "__dict__", "__mro__", "__bases__", "__subclasses__", "__globals__",
    "__code__", "__closure__", "__init_subclass__", "__getattribute__", "__getattr__",
    "__setattr__", "__delattr__", "__module__", "__qualname__", "eval", "exec", "compile", "open",
    "input", "breakpoint", "help", "getattr", "setattr", "delattr", "globals", "locals", "vars",
    "dir", "id", "type", "object", "super", "memoryview", "bytearray", "exit", "quit"]

/-- The conventional locals `visit_Name` accepts besides what the code defines. -/
def conventionalLocals : List String := ["g", "graph", "ctx"]

/-- `DISALLOWED_NODES`. -/
def Ast.isDisallowed (a : Ast) : Bool :=
  match a.node with
  | .importStmt .. | .importFrom .. | .classDef .. | .global .. | .nonlocal .. | .withStmt ..
  | .asyncWith .. | .tryStmt .. | .tryStar .. | .raiseStmt .. | .lambda .. | .delete .. | .yield ..
  | .yieldFrom .. | .matchStmt .. => true
  | _ => false

/-- `str.startswith`. -/
def startsWith (s p : String) : Bool := p.toList.isPrefixOf s.toList

/-- The test of `_check_name`. -/
def isBannedIdentifier (name : String) : Bool := name ∈ bannedNames || startsWith name "__"

/-- The two tests of `visit_Attribute`. -/
def isBannedAttribute (attr : String) : Bool := startsWith attr "_" || attr ∈ bannedNames

/-- `repr` of an identifier: an identifier holds neither a quote nor a backslash. -/
def pyRepr (name : String) : String := "'" ++ name ++ "'"

/-! ### The visitor -/

/-- The attributes of a `_Validator`. -/
structure Validator where
  violations : List String := []
  firstLine : Option Nat := none
  definedNames : List String := []
  stepFuncs : List String := []
  deriving DecidableEq, Repr

namespace Validator

def flag (v : Validator) (a : Ast) (msg : String) : Validator :=
  let pre := match a.lineno with
    | some line => s!"line {line}: "
    | none => ""
  { v with
    violations := v.violations ++ [pre ++ msg]
    firstLine := v.firstLine <|> a.lineno }

def checkName (v : Validator) (a : Ast) (name : String) : Validator :=
  if isBannedIdentifier name then v.flag a s!"banned identifier {pyRepr name}" else v

/-- `self._defined_names.add(name)`. -/
def define (v : Validator) (name : String) : Validator :=
  { v with definedNames := name :: v.definedNames }

/-- `self._step_funcs.add(name)`. -/
def addStepFunc (v : Validator) (name : String) : Validator :=
  { v with stepFuncs := name :: v.stepFuncs }

/-- The first pass of `visit_Module` over one statement. -/
def collect (v : Validator) (stmt : Ast) : Validator :=
  match stmt.node with
  | .functionDef name .. => (v.addStepFunc name).define name
  | .asyncFunctionDef name .. => (v.addStepFunc name).define name
  | .assign targets _ =>
      targets.foldl (fun v tgt => match tgt.node with
        | .name id _ => v.define id
        | _ => v) v
  | .annAssign target _ _ _ =>
      match target.node with
      | .name id _ => v.define id
      | _ => v
  | _ => v

/-- Whether a decorator is exactly `@g.step`. -/
def isStepDecorator (deco : Ast) : Bool :=
  match deco.node with
  | .attributeRef value attr _ =>
      attr == "step" && match value.node with
        | .name id _ => id == "g"
        | _ => false
  | _ => false

/-- One decorator of `visit_AsyncFunctionDef`. -/
def checkDecorator (v : Validator) (deco : Ast) : Validator :=
  if isStepDecorator deco then v
  else v.flag deco "only @g.step decorator is allowed on step functions"

/-- The names `visit_Name` lets through in Load position. -/
def allowsLoad (v : Validator) (name : String) : Bool :=
  name ∈ injectedNames || name ∈ allowedBuiltins || name ∈ v.definedNames || name ∈ v.stepFuncs ||
    name ∈ conventionalLocals

/-- The reference check of `visit_Name`. -/
def checkLoad (v : Validator) (a : Ast) (name : String) : Validator :=
  if v.allowsLoad name then v else v.flag a s!"reference to unknown name {pyRepr name}"

def visitName (v : Validator) (a : Ast) (name : String) (ctx : ExprContext) : Validator :=
  match ctx with
  | .load => (v.checkName a name).checkLoad a name
  | _ => v.checkName a name

/-- One target of `visit_Assign`. -/
def assignTarget (v : Validator) (tgt : Ast) : Validator :=
  match tgt.node with
  | .name id _ => (v.define id).checkName tgt id
  | _ => v.flag tgt "only simple `name = expr` assignments allowed at module level"

/-- The target of `visit_AnnAssign`: only a plain name is looked at. -/
def annTarget (v : Validator) (target : Ast) : Validator :=
  match target.node with
  | .name id _ => (v.define id).checkName target id
  | _ => v

/-- `visit_Attribute` before it descends. -/
def visitAttribute (v : Validator) (a : Ast) (attr : String) : Validator :=
  if startsWith attr "_" then v.flag a s!"access to private/dunder attribute {pyRepr attr}"
  else if attr ∈ bannedNames then v.flag a s!"access to banned attribute {pyRepr attr}"
  else v

/-- What the `visit_*` method of the node's class does before it visits any child. -/
def enter (v : Validator) (a : Ast) : Validator :=
  match a.node with
  | .module body => body.foldl collect v
  | .functionDef name .. =>
      v.flag a s!"step function {pyRepr name} must be `async def`, not `def`"
  | .asyncFunctionDef name _ _ decos _ _ => decos.foldl checkDecorator (v.checkName a name)
  | .name id ctx => v.visitName a id ctx
  | .attributeRef _ attr _ => v.visitAttribute a attr
  | .assign targets _ => targets.foldl assignTarget v
  | .annAssign target _ _ _ => v.annTarget target
  | _ => v

end Validator

/-- The children the `visit_*` method of the node's class then visits, in order. `visit_Call` only
calls `generic_visit`, as every class without a method of its own does. -/
def Ast.descends (a : Ast) : List Ast :=
  match a.node with
  | .module body => body
  | .functionDef .. => []
  | .attributeRef value attr _ => if isBannedAttribute attr then [] else [value]
  | .assign _ value => [value]
  | .annAssign _ annot value _ => annot :: value.toList
  | .subscript value slice _ => [value, slice]
  | .joinedStr values => values
  | .formattedValue value formatSpec => value :: formatSpec.toList
  | _ => a.children

theorem Ast.descends_subset (a : Ast) : a.descends ⊆ a.children := by
  intro c hc
  unfold descends at hc
  split at hc
  all_goals simp_all [children]

namespace Validator

def visit (a : Ast) (v : Validator) : Validator :=
  if a.isDisallowed then v.flag a s!"disallowed construct {a.className}"
  else a.descends.attach.foldl (fun v c => visit c.1 v) (v.enter a)
termination_by sizeOf a
decreasing_by exact Ast.sizeOf_lt_of_mem_children (a.descends_subset c.2)

theorem visit_of_isDisallowed {a : Ast} (h : a.isDisallowed = true) (v : Validator) :
    visit a v = v.flag a s!"disallowed construct {a.className}" := by
  rw [visit, if_pos h]

theorem visit_eq {a : Ast} (h : a.isDisallowed = false) (v : Validator) :
    visit a v = a.descends.foldl (fun v c => visit c v) (v.enter a) := by
  rw [visit, if_neg (by simp [h]),
    List.foldl_attach (l := a.descends) (f := fun v c => visit c v)]

end Validator

/-! ### `validate_graph_code` -/

/-- `GraphValidationError(violations, line=...)`. -/
structure GraphValidationError where
  violations : List String
  line : Option Nat
  deriving DecidableEq, Repr

/-- A `SyntaxError` of `ast.parse`. -/
structure SyntaxError where
  msg : String
  lineno : Option Nat

/-- Whether the module assigns a `graph` variable at its top level. -/
def hasGraphAssign (body : List Ast) : Bool :=
  body.any fun stmt => match stmt.node with
    | .assign targets _ => targets.any fun t => match t.node with
        | .name id _ => id == "graph"
        | _ => false
    | _ => false

/-- `tree.body`. -/
def moduleBody (tree : Ast) : List Ast :=
  match tree.node with
  | .module body => body
  | _ => []

/-- The violations recorded for a parsed module, those of the structural requirement last. -/
def treeViolations (tree : Ast) : List String :=
  (Validator.visit tree {}).violations ++
    if hasGraphAssign (moduleBody tree) then []
    else ["module must assign a `graph` variable (e.g. `graph = g.build()`)"]

/-- `validate_graph_code`, from what `ast.parse` made of the code. -/
def validateGraphCode (parsed : Except SyntaxError Ast) : Except GraphValidationError Unit :=
  match parsed with
  | .error exc => .error ⟨[s!"syntax error: {exc.msg}"], exc.lineno⟩
  | .ok tree =>
      if (treeViolations tree).isEmpty then .ok ()
      else .error ⟨treeViolations tree, (Validator.visit tree {}).firstLine⟩

/-- The tree is accepted: no violation was recorded. -/
def Accepts (tree : Ast) : Prop := validateGraphCode (.ok tree) = .ok ()

instance (tree : Ast) : Decidable (Accepts tree) :=
  decidable_of_iff ((treeViolations tree).isEmpty = true) (by
    simp only [Accepts, validateGraphCode]
    split <;> simp_all)

theorem Accepts.visit_violations {tree : Ast} (h : Accepts tree) :
    (Validator.visit tree {}).violations = [] := by
  simp only [Accepts, validateGraphCode] at h
  split at h
  · rename_i hempty
    exact (List.append_eq_nil_iff.mp (List.isEmpty_iff.mp hempty)).1
  · cases h

end Krewhub
