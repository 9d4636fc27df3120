import Krewhub.Python.Ast

/-!
# Name resolution while Python code runs

Which binding a name resolves to depends on the order things are evaluated in and on the scope the
name stands in, and on nothing else of Python's semantics. The machine below keeps exactly that: it
evaluates code in CPython's order with the values left out, so that a test may go either way, a loop
may take any number of turns and a function body may be entered at any time after its definition was
executed. Names of a function or of a comprehension are resolved by the symbol table and never leave
that scope: reading one finds a binding of the code itself or raises. Every other name is looked up
in the module namespace first and outside the code, in what it was given and in the builtins, second.

`with`, `try`, `del`, `match`, class definitions, imports and `global` and `nonlocal` declarations are
not executed: the machine is stuck on them.
-/

namespace Krewhub

namespace Ast

/-! ### The symbol table -/

/-- The name the node itself binds in the block it stands in; the targets of a comprehension are its
own. -/
def bindsHere (inComp : Bool) (a : Ast) : List String :=
  match a.node with
  | .name _ .load => []
  | .name id _ => if inComp then [] else [id]
  | .functionDef name .. | .asyncFunctionDef name .. | .classDef name .. => [name]
  | _ => []

/-- The children that stand in the node's block, each with whether a comprehension is around it: not
the body of a function, and not the lone target of a parenthesised annotation. -/
def blockParts (inComp : Bool) (a : Ast) : List (Bool × Ast) :=
  match a.node with
  | .functionDef _ args _ decos returns _ | .asyncFunctionDef _ args _ decos returns _ =>
      (decos ++ args :: returns.toList).map (inComp, ·)
  | .classDef _ bases keywords _ decos _ => (bases ++ keywords ++ decos).map (inComp, ·)
  | .lambda args _ => [(inComp, args)]
  | .typeAlias name _ _ => [(inComp, name)]
  | .namedExpr target value => [(false, target), (inComp, value)]
  | .annAssign target annot none false =>
      match target.node with
      | .name .. => [(inComp, annot)]
      | _ => [(inComp, target), (inComp, annot)]
  | .listComp .. | .setComp .. | .dictComp .. | .generatorExp .. => a.children.map (true, ·)
  | _ => a.children.map (inComp, ·)

theorem mem_children_of_mem_blockParts {inComp : Bool} {a : Ast} {p : Bool × Ast}
    (h : p ∈ a.blockParts inComp) : p.2 ∈ a.children := by
  unfold blockParts at h
  split at h
  case h_7 => split at h <;> grind [children]
  all_goals grind [children]

/-- The names bound in the block `a` stands in. -/
def binds (inComp : Bool) (a : Ast) : List String :=
  a.bindsHere inComp ++ (a.blockParts inComp).attach.flatMap fun p => binds p.1.1 p.1.2
termination_by sizeOf a
decreasing_by exact sizeOf_lt_of_mem_children (mem_children_of_mem_blockParts p.2)

/-- The parameters of an `arguments` node, in the order of `_fields`. -/
def parameters (args : Ast) : List Ast :=
  match args.node with
  | .arguments posonly args vararg kwonly _ kwarg _ =>
      posonly ++ args ++ vararg.toList ++ kwonly ++ kwarg.toList
  | _ => []

def paramName (param : Ast) : List String :=
  match param.node with
  | .arg name _ => [name]
  | _ => []

/-- The local names of a function. -/
def functionLocals (args : Ast) (body : List Ast) : List String :=
  args.parameters.flatMap paramName ++ body.flatMap (binds false)

/-- The local names of a comprehension: what its targets store. -/
def comprehensionLocals (generators : List Ast) : List String :=
  generators.flatMap fun gen => match gen.node with
    | .comprehension target _ _ => target.binds false
    | _ => []

def typeParamName (tparam : Ast) : List String :=
  match tparam.node with
  | .typeVar name _ | .paramSpec name | .typeVarTuple name => [name]
  | _ => []

/-- The default values, in the order they are evaluated in. -/
def defaultValues (args : Ast) : List Ast :=
  match args.node with
  | .arguments _ _ _ _ kwDefaults _ defaults => defaults ++ kwDefaults.flatMap Option.toList
  | _ => []

/-- The parameters in the order their annotations are evaluated in. -/
def annotatedParameters (args : Ast) : List Ast :=
  match args.node with
  | .arguments posonly args vararg kwonly _ kwarg _ =>
      args ++ posonly ++ vararg.toList ++ kwonly ++ kwarg.toList
  | _ => []

end Ast

/-! ### Code -/

/-- Where a name is read from: a Load position; a Load position inside the target of an annotated
assignment that is not a name; or the target of an augmented assignment. -/
inductive Site where
  | plain
  | annTarget
  | augTarget
  deriving DecidableEq, Repr

/-- The local names of the function and comprehension scopes around a piece of code, innermost
first. -/
abbrev Scopes := List (List String)

/-- What is left to evaluate. `leave n` ends the `n` innermost `breakable` parts, `halt` the whole
body. -/
inductive Code where
  | skip
  | halt
  | stuck
  | read (id : String) (site : Site)
  | readLocal (id : String) (site : Site)
  | bind (id : String)
  | seq (c d : Code)
  | choice (c d : Code)
  | loop (c : Code)
  | breakable (c : Code)
  | leave (n : Nat)
  | defer (c : Code)
  | eval (scopes : Scopes) (site : Site) (a : Ast)

namespace Code

def seqs : List Code → Code
  | [] => skip
  | c :: cs => seq c (seqs cs)

def evals (scopes : Scopes) (site : Site) (l : List Ast) : Code := seqs (l.map (eval scopes site))

def load (scopes : Scopes) (site : Site) (id : String) : Code :=
  if id ∈ scopes.flatten then readLocal id site else read id site

def store (scopes : Scopes) (id : String) : Code :=
  if id ∈ scopes.flatten then skip else bind id

/-- Operands of which each but the first is evaluated or not, and the rest with it. -/
def shortCircuit (scopes : Scopes) (site : Site) : List Ast → Code
  | [] => skip
  | a :: l => seq (eval scopes site a) (choice skip (shortCircuit scopes site l))

def guarded (scopes : Scopes) (site : Site) (body : Code) : List Ast → Code
  | [] => body
  | test :: tests => seq (eval scopes site test) (choice skip (guarded scopes site body tests))

/-- The clauses of a comprehension from the second on, around what its element evaluates to. -/
def clauses (scopes : Scopes) (site : Site) (elt : Code) : List Ast → Code
  | [] => elt
  | gen :: gens => match gen.node with
    | .comprehension target iter ifs =>
        seq (eval scopes site iter) (loop (seq (eval scopes site target)
          (guarded scopes site (clauses scopes site elt gens) ifs)))
    | _ => stuck

/-- A comprehension: its first iterable is evaluated outside its scope, what `enter` makes of the
rest happens inside. -/
def comprehension (scopes : Scopes) (site : Site) (enter : Code → Code) (elts gens : List Ast) :
    Code :=
  match gens with
  | [] => stuck
  | gen :: gens' => match gen.node with
    | .comprehension target iter ifs =>
        let inner := Ast.comprehensionLocals gens :: scopes
        seq (eval scopes site iter) (enter (loop (seq (eval inner site target)
          (guarded inner site (clauses inner site (evals inner site elts) gens') ifs))))
    | _ => stuck

/-- A function definition: decorators, default values, type parameters and annotations now, the body
at every call. -/
def define (scopes : Scopes) (site : Site) (name : String) (args : Ast) (body decos : List Ast)
    (returns : Option Ast) (tparams : List Ast) : Code :=
  let inner := tparams.flatMap Ast.typeParamName :: scopes
  seqs [evals scopes site decos, evals scopes site args.defaultValues, evals inner site tparams,
    evals inner site (args.annotatedParameters ++ returns.toList),
    defer (evals (Ast.functionLocals args body :: inner) site body), store scopes name]

/-- An annotated assignment. A target that is not a name is evaluated whether or not there is a value
to store; the annotation only at module level. -/
def annotated (scopes : Scopes) (site : Site) (target annot : Ast) (value : Option Ast) : Code :=
  let target := match target.node with
    | .name .. => if value.isSome then eval scopes site target else skip
    | _ => eval scopes .annTarget target
  seqs [evals scopes site value.toList, target,
    if scopes.isEmpty then eval scopes site annot else skip]

/-- An augmented assignment to a name reads the name before the value is evaluated. -/
def augmented (scopes : Scopes) (site : Site) (target value : Ast) : Code :=
  match target.node with
  | .name id _ => seqs [load scopes .augTarget id, eval scopes site value, store scopes id]
  | _ => seq (eval scopes site target) (eval scopes site value)

end Code

open Code in
/-- One node in CPython's order of evaluation. -/
def plan (scopes : Scopes) (site : Site) (a : Ast) : Code :=
  match a.node with
  | .module body => evals scopes site body
  | .functionDef name args body decos returns tparams
  | .asyncFunctionDef name args body decos returns tparams =>
      define scopes site name args body decos returns tparams
  | .returnStmt value => seq (evals scopes site value.toList) halt
  | .assign targets value => seq (eval scopes site value) (evals scopes site targets)
  | .typeAlias name tparams value =>
      let inner := tparams.flatMap Ast.typeParamName :: scopes
      seqs [evals inner site tparams, defer (eval inner site value), eval scopes site name]
  | .augAssign target value => augmented scopes site target value
  | .annAssign target annot value _ => annotated scopes site target annot value
  | .forStmt target iter body orelse | .asyncFor target iter body orelse =>
      seq (eval scopes site iter) (breakable (seq
        (loop (seq (eval scopes site target) (breakable (evals scopes site body))))
        (evals scopes site orelse)))
  | .whileStmt test body orelse =>
      breakable (seqs [loop (seq (eval scopes site test) (breakable (evals scopes site body))),
        eval scopes site test, evals scopes site orelse])
  | .ifStmt test body orelse =>
      seq (eval scopes site test) (choice (evals scopes site body) (evals scopes site orelse))
  | .raiseStmt exc cause => seq (evals scopes site (exc.toList ++ cause.toList)) halt
  | .assert test msg =>
      seq (eval scopes site test) (choice skip (seq (evals scopes site msg.toList) halt))
  | .exprStmt value => eval scopes site value
  | .pass | .constant => skip
  | .breakStmt => leave 2
  | .continueStmt => leave 1
  | .boolOp values => shortCircuit scopes site values
  | .namedExpr target value => seq (eval scopes site value) (eval scopes site target)
  | .lambda args body =>
      seq (evals scopes site args.defaultValues)
        (defer (eval (Ast.functionLocals args [body] :: scopes) site body))
  | .ifExp test body orelse =>
      seq (eval scopes site test) (choice (eval scopes site body) (eval scopes site orelse))
  | .dict keys values =>
      evals scopes site ((keys.zip values).flatMap fun kv => kv.1.toList ++ [kv.2])
  | .listComp elt generators | .setComp elt generators =>
      comprehension scopes site id [elt] generators
  | .dictComp key value generators => comprehension scopes site id [key, value] generators
  | .generatorExp elt generators => comprehension scopes site defer [elt] generators
  | .compare left comparators =>
      seq (eval scopes site left) (shortCircuit scopes site comparators)
  | .name id .load => load scopes site id
  | .name id .store => store scopes id
  | .typeVar _ bound => defer (evals scopes site bound.toList)
  | .binOp .. | .unaryOp .. | .set .. | .await .. | .yield .. | .yieldFrom .. | .call ..
  | .formattedValue .. | .joinedStr .. | .attributeRef .. | .subscript .. | .starred .. | .list ..
  | .tuple .. | .slice .. | .arg .. | .keyword .. | .paramSpec .. | .typeVarTuple .. =>
      evals scopes site a.children
  | _ => stuck

/-! ### Running -/

/-- Where a name was found: in a function or comprehension scope around it, in the module namespace
after the code bound it there, or in neither. -/
inductive Place where
  | enclosing
  | module
  | outside
  deriving DecidableEq, Repr

/-- A name read while the code runs. -/
structure Lookup where
  id : String
  site : Site
  place : Place
  deriving DecidableEq, Repr

/-- A piece of code on a thread's stack, or the end of a `breakable` part. -/
inductive Item where
  | run (c : Code)
  | mark

abbrev Thread := List Item

/-- Drops everything up to the end of the `n`th `breakable` part. -/
def Thread.leave : Nat → Thread → Thread
  | 0, t => t
  | _ + 1, [] => []
  | n + 1, .mark :: t => Thread.leave n t
  | n + 1, .run _ :: t => Thread.leave (n + 1) t

/-- What a thread's step does outside the thread. -/
inductive Effect where
  | silent
  | lookup (l : Lookup)
  | bind (id : String)
  | defer (c : Code)

def Effect.lookups : Effect → List Lookup
  | .lookup l => [l]
  | _ => []

/-- A step of a thread when the code has bound the names of `own` at module level and the names
`known` says are found outside of it. A read that finds nothing raises, which ends the thread. -/
inductive Thread.Step (known : String → Prop) (own : List String) :
    Thread → Effect → Thread → Prop
  | skip {t : Thread} : Thread.Step known own (.run .skip :: t) .silent t
  | mark {t : Thread} : Thread.Step known own (.mark :: t) .silent t
  | halt {t : Thread} : Thread.Step known own (.run .halt :: t) .silent []
  | readModule {id : String} {site : Site} {t : Thread} (hown : id ∈ own) :
      Thread.Step known own (.run (.read id site) :: t) (.lookup ⟨id, site, .module⟩) t
  | readOutside {id : String} {site : Site} {t : Thread} (hown : id ∉ own) (hknown : known id) :
      Thread.Step known own (.run (.read id site) :: t) (.lookup ⟨id, site, .outside⟩) t
  | nameError {id : String} {site : Site} {t : Thread} (hown : id ∉ own) (hknown : ¬ known id) :
      Thread.Step known own (.run (.read id site) :: t) (.lookup ⟨id, site, .outside⟩) []
  | readLocal {id : String} {site : Site} {t : Thread} :
      Thread.Step known own (.run (.readLocal id site) :: t) (.lookup ⟨id, site, .enclosing⟩) t
  | unboundLocal {id : String} {site : Site} {t : Thread} :
      Thread.Step known own (.run (.readLocal id site) :: t) (.lookup ⟨id, site, .enclosing⟩) []
  | bind {id : String} {t : Thread} :
      Thread.Step known own (.run (.bind id) :: t) (.bind id) t
  | seq {c d : Code} {t : Thread} :
      Thread.Step known own (.run (.seq c d) :: t) .silent (.run c :: .run d :: t)
  | choiceLeft {c d : Code} {t : Thread} :
      Thread.Step known own (.run (.choice c d) :: t) .silent (.run c :: t)
  | choiceRight {c d : Code} {t : Thread} :
      Thread.Step known own (.run (.choice c d) :: t) .silent (.run d :: t)
  | loopDone {c : Code} {t : Thread} : Thread.Step known own (.run (.loop c) :: t) .silent t
  | loopTurn {c : Code} {t : Thread} :
      Thread.Step known own (.run (.loop c) :: t) .silent (.run c :: .run (.loop c) :: t)
  | breakable {c : Code} {t : Thread} :
      Thread.Step known own (.run (.breakable c) :: t) .silent (.run c :: .mark :: t)
  | leave {n : Nat} {t : Thread} :
      Thread.Step known own (.run (.leave n) :: t) .silent (Thread.leave n t)
  | defer {c : Code} {t : Thread} : Thread.Step known own (.run (.defer c) :: t) (.defer c) t
  | eval {scopes : Scopes} {site : Site} {a : Ast} {t : Thread} :
      Thread.Step known own (.run (.eval scopes site a) :: t) .silent
        (.run (plan scopes site a) :: t)

/-- The names bound at module level, the bodies definitions left behind and the threads: the module's
own and one for each body entered. -/
structure Machine where
  own : List String
  deferred : List Code
  threads : List Thread

namespace Machine

/-- The module before its first statement. -/
def load (tree : Ast) : Machine := ⟨[], [], [[.run (.eval [] .plain tree)]]⟩

def apply (m : Machine) : Effect → Machine
  | .silent | .lookup _ => m
  | .bind id => { m with own := id :: m.own }
  | .defer c => { m with deferred := c :: m.deferred }

/-- One thread takes a step, or a deferred body is entered; `ls` are the names read. -/
inductive Step (known : String → Prop) : Machine → List Lookup → Machine → Prop
  | enter {m : Machine} {c : Code} (hc : c ∈ m.deferred) :
      Step known m [] { m with threads := [.run c] :: m.threads }
  | thread {m : Machine} {before after : List Thread} {t t' : Thread} {eff : Effect}
      (hthreads : m.threads = before ++ t :: after) (hstep : Thread.Step known m.own t eff t') :
      Step known m eff.lookups { m.apply eff with threads := before ++ t' :: after }

/-- Any number of steps and all the names they read. -/
inductive Runs (known : String → Prop) : Machine → List Lookup → Machine → Prop
  | refl (m : Machine) : Runs known m [] m
  | tail {m m' m'' : Machine} {ls ls' : List Lookup} (hruns : Runs known m ls m')
      (hstep : Step known m' ls' m'') : Runs known m (ls ++ ls') m''

/-- A step of the only thread. -/
theorem Step.solo {known : String → Prop} {own : List String} {deferred : List Code}
    {t t' : Thread} {eff : Effect} (hstep : Thread.Step known own t eff t') :
    Step known ⟨own, deferred, [t]⟩ eff.lookups
      { apply ⟨own, deferred, [t]⟩ eff with threads := [t'] } :=
  @Step.thread known ⟨own, deferred, [t]⟩ [] [] t t' eff rfl hstep

theorem Runs.silent {known : String → Prop} {m : Machine} {ls : List Lookup} {own : List String}
    {deferred : List Code} {t t' : Thread} (hruns : Runs known m ls ⟨own, deferred, [t]⟩)
    (hstep : Thread.Step known own t .silent t') : Runs known m ls ⟨own, deferred, [t']⟩ := by
  rw [← List.append_nil ls]
  exact hruns.tail (.solo hstep)

end Machine

/-! ### What is read during a run -/

/-- Every read that is left in the code satisfies `R`, every node left to evaluate `E`. -/
def Code.Holds (R : String → Site → Prop) (E : Site → Ast → Prop) : Code → Prop
  | .read id site => R id site
  | .eval _ site a => E site a
  | .seq c d | .choice c d => c.Holds R E ∧ d.Holds R E
  | .loop c | .breakable c | .defer c => c.Holds R E
  | .skip | .halt | .stuck | .readLocal .. | .bind _ | .leave _ => True

/-- The children of a node with the site they are evaluated at. -/
def Ast.siteChildren (site : Site) (a : Ast) : List (Site × Ast) :=
  match a.node with
  | .annAssign target annot value _ =>
      let tsite := match target.node with
        | .name .. => site
        | _ => .annTarget
      (tsite, target) :: (annot :: value.toList).map (site, ·)
  | _ => a.children.map (site, ·)

/-- `E` passes from a node to what is evaluated of it, and gives `R` where a name is read. -/
structure Reads (R : String → Site → Prop) (E : Site → Ast → Prop) : Prop where
  name : ∀ {site line id}, E site (.mk line (.name id .load)) → R id site
  augTarget : ∀ {site line tline id ctx value},
    E site (.mk line (.augAssign (.mk tline (.name id ctx)) value)) → R id .augTarget
  child : ∀ {site a p}, E site a → p ∈ a.siteChildren site → E p.1 p.2

section Holds

variable {R : String → Site → Prop} {E : Site → Ast → Prop} {scopes : Scopes} {site : Site}

/-- What is not the target of an annotated assignment is evaluated at the node's own site. -/
theorem Reads.ofChildren (h : Reads R E) {a : Ast} (ha : E site a)
    (hkind : a.siteChildren site = a.children.map (site, ·)) : ∀ c ∈ a.children, E site c := by
  intro c hc
  exact h.child ha (hkind ▸ List.mem_map_of_mem hc)

namespace Code

@[simp]
theorem holds_seqs {l : List Code} : (seqs l).Holds R E ↔ ∀ c ∈ l, c.Holds R E := by
  induction l with
  | nil => simp [seqs, Holds]
  | cons c l ih => simp [seqs, Holds, ih]

@[simp]
theorem holds_evals {l : List Ast} : (evals scopes site l).Holds R E ↔ ∀ a ∈ l, E site a := by
  simp [evals, Holds]

theorem holds_load {id : String} (hid : R id site) : (load scopes site id).Holds R E := by
  unfold load
  split
  · trivial
  · exact hid

@[simp]
theorem holds_store {id : String} : (store scopes id).Holds R E := by
  unfold store
  split <;> trivial

theorem holds_shortCircuit {l : List Ast} (hl : ∀ a ∈ l, E site a) :
    (shortCircuit scopes site l).Holds R E := by
  induction l with
  | nil => trivial
  | cons a l ih =>
    rw [List.forall_mem_cons] at hl
    exact ⟨hl.1, trivial, ih hl.2⟩

theorem holds_guarded {body : Code} {tests : List Ast} (hbody : body.Holds R E)
    (htests : ∀ a ∈ tests, E site a) : (guarded scopes site body tests).Holds R E := by
  induction tests with
  | nil => exact hbody
  | cons test tests ih =>
    rw [List.forall_mem_cons] at htests
    exact ⟨htests.1, trivial, ih htests.2⟩

theorem holds_clauses (h : Reads R E) {elt : Code} {gens : List Ast} (helt : elt.Holds R E)
    (hgens : ∀ gen ∈ gens, E site gen) : (clauses scopes site elt gens).Holds R E := by
  induction gens with
  | nil => exact helt
  | cons gen gens ih =>
    rw [List.forall_mem_cons] at hgens
    have hinner := ih hgens.2
    obtain ⟨line, node⟩ := gen
    cases node
    case comprehension target iter ifs =>
      have hparts := h.ofChildren hgens.1 rfl
      simp only [Ast.children, Ast.node, List.forall_mem_cons] at hparts
      exact ⟨hparts.2.1, hparts.1, holds_guarded hinner hparts.2.2⟩
    all_goals trivial

theorem holds_comprehension (h : Reads R E) {enter : Code → Code} {elts gens : List Ast}
    (henter : ∀ c : Code, c.Holds R E → (enter c).Holds R E) (helts : ∀ a ∈ elts, E site a)
    (hgens : ∀ gen ∈ gens, E site gen) : (comprehension scopes site enter elts gens).Holds R E := by
  cases gens with
  | nil => trivial
  | cons gen gens =>
    have hrest := (List.forall_mem_cons.mp hgens).2
    obtain ⟨line, node⟩ := gen
    cases node
    case comprehension target iter ifs =>
      have hparts := h.ofChildren (hgens _ List.mem_cons_self) rfl
      simp only [Ast.children, Ast.node, List.forall_mem_cons] at hparts
      refine ⟨hparts.2.1, henter _ ⟨hparts.1, holds_guarded ?_ hparts.2.2⟩⟩
      exact holds_clauses h (holds_evals.mpr helts) hrest
    all_goals trivial

theorem holds_defaultValues (h : Reads R E) {args : Ast} (hargs : E site args) :
    ∀ a ∈ args.defaultValues, E site a := by
  obtain ⟨line, node⟩ := args
  cases node
  case arguments =>
    have hparts := h.ofChildren hargs rfl
    intro a ha
    refine hparts a ?_
    simp only [Ast.defaultValues, Ast.children, Ast.node, List.mem_append] at ha ⊢
    tauto
  all_goals simp [Ast.defaultValues, Ast.node]

theorem holds_annotatedParameters (h : Reads R E) {args : Ast} (hargs : E site args) :
    ∀ a ∈ args.annotatedParameters, E site a := by
  obtain ⟨line, node⟩ := args
  cases node
  case arguments =>
    have hparts := h.ofChildren hargs rfl
    intro a ha
    refine hparts a ?_
    simp only [Ast.annotatedParameters, Ast.children, Ast.node, List.mem_append] at ha ⊢
    tauto
  all_goals simp [Ast.annotatedParameters, Ast.node]

theorem holds_define (h : Reads R E) {name : String} {args : Ast} {body decos : List Ast}
    {returns : Option Ast} {tparams : List Ast}
    (hparts : ∀ c ∈ args :: body ++ decos ++ returns.toList ++ tparams, E site c) :
    (define scopes site name args body decos returns tparams).Holds R E := by
  have hargs := hparts args (by simp)
  have hdefaults := holds_defaultValues h hargs
  have hannotated := holds_annotatedParameters h hargs
  simp only [define, holds_seqs, List.forall_mem_cons, holds_evals, holds_store, Holds,
    List.forall_mem_append]
  refine ⟨?_, hdefaults, ?_, ⟨hannotated, ?_⟩, ?_, trivial, by simp⟩
  all_goals exact fun a ha => hparts a (by simp_all)

end Code

theorem Reads.annotated (h : Reads R E) {line : Option Nat} {target annot : Ast} {value : Option Ast}
    {simple : Bool} (ha : E site (.mk line (.annAssign target annot value simple))) :
    (Code.annotated scopes site target annot value).Holds R E := by
  have hannot := h.child ha (p := (site, annot)) (by simp [Ast.siteChildren, Ast.node])
  have hvalue : ∀ c ∈ value.toList, E site c := fun c hc =>
    h.child ha (p := (site, c)) (by simp_all [Ast.siteChildren, Ast.node])
  have htarget := h.child ha List.mem_cons_self
  simp only [Code.annotated, Code.holds_seqs, List.forall_mem_cons, Code.holds_evals]
  refine ⟨hvalue, ?_, ?_, by simp⟩
  · split at htarget
    · split
      · exact htarget
      · trivial
    · exact htarget
  · split
    · exact hannot
    · trivial

theorem Reads.augmented (h : Reads R E) {line : Option Nat} {target value : Ast}
    (ha : E site (.mk line (.augAssign target value))) :
    (Code.augmented scopes site target value).Holds R E := by
  have hparts := h.ofChildren ha rfl
  simp only [Ast.children, Ast.node, List.forall_mem_cons] at hparts
  obtain ⟨tline, tnode⟩ := target
  cases tnode
  case name id ctx =>
    simp only [Code.augmented, Ast.node, Code.holds_seqs, List.forall_mem_cons, Code.holds_store]
    exact ⟨Code.holds_load (h.augTarget ha), hparts.2.1, trivial, by simp⟩
  all_goals exact ⟨hparts.1, hparts.2.1⟩

/-- What `E` gives for a node it gives for everything the node's evaluation consists of. -/
theorem Reads.plan (h : Reads R E) {a : Ast} (ha : E site a) :
    (Krewhub.plan scopes site a).Holds R E := by
  obtain ⟨line, node⟩ := a
  cases node
  case name id ctx =>
    cases ctx with
    | load => exact Code.holds_load (h.name ha)
    | store => exact Code.holds_store
    | del => trivial
  case annAssign => exact h.annotated ha
  case augAssign => exact h.augmented ha
  case functionDef => exact Code.holds_define h (h.ofChildren ha rfl)
  case asyncFunctionDef => exact Code.holds_define h (h.ofChildren ha rfl)
  all_goals
    have hparts := h.ofChildren ha rfl
    simp only [Ast.children, Ast.node, List.forall_mem_cons, List.forall_mem_append] at hparts
  case listComp => exact Code.holds_comprehension h (fun _ => id) (by simp_all) hparts.2
  case setComp => exact Code.holds_comprehension h (fun _ => id) (by simp_all) hparts.2
  case dictComp => exact Code.holds_comprehension h (fun _ => id) (by simp_all) hparts.2.2
  case generatorExp => exact Code.holds_comprehension h (fun _ => id) (by simp_all) hparts.2
  case boolOp => exact Code.holds_shortCircuit hparts
  case compare => exact ⟨hparts.1, Code.holds_shortCircuit hparts.2⟩
  case lambda args body =>
    exact ⟨Code.holds_evals.mpr (Code.holds_defaultValues h hparts.1), hparts.2.1⟩
  case dict keys values =>
    refine Code.holds_evals.mpr fun c hc => ?_
    obtain ⟨⟨key, value⟩, hkv, hc⟩ := List.mem_flatMap.mp hc
    obtain ⟨hkey, hvalue⟩ := List.of_mem_zip hkv
    rcases List.mem_append.mp hc with hc | hc
    · exact hparts.1 c (List.mem_flatMap.mpr ⟨key, hkey, hc⟩)
    · exact List.mem_singleton.mp hc ▸ hparts.2 value hvalue
  all_goals
    simp only [Krewhub.plan, Ast.node, Code.Holds, Code.holds_evals, Code.holds_seqs,
      List.forall_mem_cons, List.forall_mem_append, Ast.children]
  all_goals
    tauto

/-! ### Invariants of a run -/

def Item.Holds (R : String → Site → Prop) (E : Site → Ast → Prop) : Item → Prop
  | .run c => c.Holds R E
  | .mark => True

/-- Everything left to run, on a thread or deferred, reads only what `R` allows. -/
structure Machine.Holds (R : String → Site → Prop) (E : Site → Ast → Prop) (m : Machine) : Prop where
  deferred : ∀ c ∈ m.deferred, c.Holds R E
  threads : ∀ t ∈ m.threads, ∀ i ∈ t, i.Holds R E

theorem Thread.leave_subset (n : Nat) (t : Thread) : Thread.leave n t ⊆ t := by
  induction t generalizing n with
  | nil => cases n <;> simp [Thread.leave]
  | cons i t ih =>
    cases n with
    | zero => exact List.Subset.refl _
    | succ n => cases i <;> exact List.subset_cons_of_subset _ (ih _)

/-- The effect of a step reads, and leaves deferred, only what `R` allows. -/
def Effect.Holds (R : String → Site → Prop) (E : Site → Ast → Prop) : Effect → Prop
  | .lookup l => l.place ≠ .enclosing → R l.id l.site
  | .defer c => c.Holds R E
  | .silent | .bind _ => True

variable {known : String → Prop}

theorem Thread.Step.holds (h : Reads R E) {own : List String} {t t' : Thread} {eff : Effect}
    (hstep : Thread.Step known own t eff t') (ht : ∀ i ∈ t, i.Holds R E) :
    eff.Holds R E ∧ ∀ i ∈ t', i.Holds R E := by
  cases hstep
  case leave n rest =>
    exact ⟨trivial, fun i hi => ht i (List.mem_cons_of_mem _ (Thread.leave_subset n rest hi))⟩
  case eval =>
    rw [List.forall_mem_cons] at ht ⊢
    exact ⟨trivial, h.plan ht.1, ht.2⟩
  all_goals
    simp only [List.forall_mem_cons, Item.Holds, Code.Holds, Effect.Holds] at ht ⊢
    tauto

theorem Machine.Step.holds (h : Reads R E) {m m' : Machine} {ls : List Lookup}
    (hstep : Machine.Step known m ls m') (hm : m.Holds R E) :
    (∀ l ∈ ls, l.place ≠ .enclosing → R l.id l.site) ∧ m'.Holds R E := by
  cases hstep with
  | enter hc =>
    refine ⟨by simp, hm.deferred, fun t ht => ?_⟩
    rcases List.mem_cons.mp ht with rfl | ht
    · simpa [Item.Holds] using hm.deferred _ hc
    · exact hm.threads t ht
  | @thread before after t t' eff hthreads hthread =>
    have hmem : t ∈ m.threads := by simp [hthreads]
    obtain ⟨heff, ht'⟩ := hthread.holds h (hm.threads t hmem)
    refine ⟨?_, ?_, fun u hu => ?_⟩
    · cases eff <;> simp_all [Effect.Holds, Effect.lookups]
    · have hdeferred := hm.deferred
      cases eff <;> simp_all [Effect.Holds, Machine.apply]
    · have hother : u ∈ before ++ after → ∀ i ∈ u, i.Holds R E := fun hu =>
        hm.threads u (by simp_all; tauto)
      simp only [List.mem_append, List.mem_cons] at hu hother
      rcases hu with hu | rfl | hu
      · exact hother (.inl hu)
      · exact ht'
      · exact hother (.inr hu)

theorem Machine.Runs.holds (h : Reads R E) {m m' : Machine} {ls : List Lookup}
    (hruns : Machine.Runs known m ls m') (hm : m.Holds R E) :
    (∀ l ∈ ls, l.place ≠ .enclosing → R l.id l.site) ∧ m'.Holds R E := by
  induction hruns with
  | refl => exact ⟨by simp, hm⟩
  | tail _ hstep ih =>
    obtain ⟨hread, hm'⟩ := ih
    obtain ⟨hstepRead, hm''⟩ := hstep.holds h hm'
    refine ⟨fun l hl => ?_, hm''⟩
    rcases List.mem_append.mp hl with hl | hl
    · exact hread l hl
    · exact hstepRead l hl

/-- Every name a run of the module reads outside function scopes satisfies `R`. -/
theorem Machine.Runs.reads (h : Reads R E) {tree : Ast} (htree : E .plain tree) {m : Machine}
    {ls : List Lookup} (hruns : Machine.Runs known (Machine.load tree) ls m) :
    ∀ l ∈ ls, l.place ≠ .enclosing → R l.id l.site := by
  refine (hruns.holds h ⟨by simp [Machine.load], ?_⟩).1
  simpa [Machine.load, Item.Holds, Code.Holds] using htree

end Holds

end Krewhub
