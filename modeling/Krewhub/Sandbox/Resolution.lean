import Krewhub.Python.Machine
import Krewhub.Sandbox.Vetted

/-!
# What the names of accepted code resolve to

`execute_graph_code` runs accepted code in a namespace with the injected names and the full builtins
module, so the validator's reference check is all that keeps a builtin outside the allowlist away
from it. The check lets every name through that the code assigns somewhere, whatever the scope and
the order; a name that is looked up where none of those assignments reaches falls through to the
builtins.
-/

namespace Krewhub

/-- `dir(builtins)`. -/
def builtinNames : List String :=
  ["ArithmeticError", "AssertionError", "AttributeError", "BaseException", "BaseExceptionGroup",
    "BlockingIOError", "BrokenPipeError", "BufferError", "BytesWarning", "ChildProcessError",
    "ConnectionAbortedError", "ConnectionError", "ConnectionRefusedError",
    "ConnectionResetError", "DeprecationWarning", "EOFError", "Ellipsis", "EncodingWarning",
    "EnvironmentError", "Exception", "ExceptionGroup", "False", "FileExistsError",
    "FileNotFoundError", "FloatingPointError", "FutureWarning", "GeneratorExit", "IOError",
    "ImportError", "ImportWarning", "IndentationError", "IndexError", "InterruptedError",
    "IsADirectoryError", "KeyError", "KeyboardInterrupt", "LookupError", "MemoryError",
    "ModuleNotFoundError", "NameError", "None", "NotADirectoryError", "NotImplemented",
    "NotImplementedError", "OSError", "OverflowError", "PendingDeprecationWarning",
    "PermissionError", "ProcessLookupError", "RecursionError", "ReferenceError",
    "ResourceWarning", "RuntimeError", "RuntimeWarning", "StopAsyncIteration", "StopIteration",
    "SyntaxError", "SyntaxWarning", "SystemError", "SystemExit", "TabError", "TimeoutError",
    "True", "TypeError", "UnboundLocalError", "UnicodeDecodeError", "UnicodeEncodeError",
    "UnicodeError", "UnicodeTranslateError", "UnicodeWarning", "UserWarning", "ValueError",
    "Warning", "ZeroDivisionError", "__build_class__", "__debug__", "__doc__", "__import__",
    "__loader__", "__name__", "__package__", "__spec__", "abs", "aiter", "all", "anext", "any",
    "ascii", "bin", "bool", "breakpoint", "bytearray", "bytes", "callable", "chr",
    "classmethod", "compile", "complex", "copyright", "credits", "delattr", "dict", "dir",
    "divmod", "enumerate", "eval", "exec", "exit", "filter", "float", "format", "frozenset",
    "getattr", "globals", "hasattr", "hash", "help", "hex", "id", "input", "int", "isinstance",
    "issubclass", "iter", "len", "license", "list", "locals", "map", "max", "memoryview", "min",
    "next", "object", "oct", "open", "ord", "pow", "print", "property", "quit", "range", "repr",
    "reversed", "round", "set", "setattr", "slice", "sorted", "staticmethod", "str", "sum",
    "super", "tuple", "type", "vars", "zip"]
/-- The names outside the code that `_build_namespace` gives a binding: the keys of its dict and,
through `__builtins__`, the builtins module. -/
def execNames : List String := "__builtins__" :: injectedNames ++ builtinNames

/-- A name the exec namespace binds and the allowlists do not hold. -/
def isUnvetted (id : String) : Bool :=
  id ∈ execNames && !(id ∈ injectedNames) && !(id ∈ allowedBuiltins)

/-- The name resolved to a binding of the code itself, to an allowed name or to an error. -/
def Lookup.Sound (l : Lookup) : Prop := l.place = .outside → isUnvetted l.id = false

/-- The name was looked up where no binding of the code reaches, although the code assigns it
somewhere or the visitor does not check the site for references. -/
def Lookup.Slips (tree : Ast) (l : Lookup) : Prop :=
  l.place = .outside ∧ isUnvetted l.id = true ∧ (l.site ≠ .plain ∨ l.id ∈ tree.assignedNames)

theorem LoadAllowed.mem_of_isUnvetted {defined : List String} {id : String}
    (h : LoadAllowed defined id) (hid : isUnvetted id = true) : id ∈ defined := by
  simp only [isUnvetted, Bool.and_eq_true, Bool.not_eq_true', decide_eq_true_eq,
    decide_eq_false_iff_not] at hid
  obtain ⟨⟨hexec, hinjected⟩, hallowed⟩ := hid
  rcases h with h | h | h | h
  · exact absurd h hinjected
  · exact absurd h hallowed
  · have hlocals : ∀ local' ∈ conventionalLocals, local' ∉ execNames := by decide
    exact absurd hexec (hlocals id h)
  · exact h

/-! ### The sites the validator has looked at -/

theorem Vetted.loadAllowed {defined : List String} {line : Option Nat} {id : String}
    (h : Vetted defined (.mk line (.name id .load))) : LoadAllowed defined id := by
  cases h with
  | name _ hload => exact hload rfl
  | ordinary hkind _ _ => cases hkind

theorem Vetted.name_of_mem {defined : List String} {line : Option Nat} {id : String}
    {ctx : ExprContext} (hbanned : isBannedIdentifier id = false) (hid : id ∈ defined) :
    Vetted defined (.mk line (.name id ctx)) :=
  .name hbanned fun _ => .inr (.inr (.inr hid))

/-- What is evaluated of a vetted node at a plain site is vetted. -/
theorem Vetted.siteChildren {defined : List String} {a : Ast} (h : Vetted defined a)
    {p : Site × Ast} (hp : p ∈ a.siteChildren .plain) (hsite : p.1 = .plain) :
    Vetted defined p.2 := by
  cases h with
  | module hbody =>
    obtain ⟨c, hc, rfl⟩ := List.mem_map.mp hp
    exact hbody c hc
  | asyncFunctionDef _ hchildren =>
    obtain ⟨c, hc, rfl⟩ := List.mem_map.mp hp
    exact hchildren c hc
  | name =>
    obtain ⟨c, hc, rfl⟩ := List.mem_map.mp hp
    simp [Ast.children, Ast.node] at hc
  | attributeRef _ hvalue =>
    obtain ⟨c, hc, rfl⟩ := List.mem_map.mp hp
    obtain rfl := List.mem_singleton.mp hc
    exact hvalue
  | assign htargets hvalue =>
    obtain ⟨c, hc, rfl⟩ := List.mem_map.mp hp
    rcases List.mem_append.mp hc with hc | hc
    · obtain ⟨line, id, ctx, rfl, hbanned, hid⟩ := htargets c hc
      exact .name_of_mem hbanned hid
    · obtain rfl := List.mem_singleton.mp hc
      exact hvalue
  | @annAssign line target annot value simple htarget hannot hvalue =>
    rcases List.mem_cons.mp hp with rfl | hp
    · obtain ⟨tline, tnode⟩ := target
      cases tnode
      case name id ctx =>
        obtain ⟨hbanned, hid⟩ := htarget tline id ctx rfl
        exact .name_of_mem hbanned hid
      all_goals cases hsite
    · obtain ⟨c, hc, rfl⟩ := List.mem_map.mp hp
      rcases List.mem_cons.mp hc with rfl | hc
      · exact hannot
      · exact hvalue c hc
  | ordinary hkind _ hchildren =>
    obtain ⟨line, node⟩ := a
    cases node
    case annAssign => cases hkind
    all_goals
      obtain ⟨c, hc, rfl⟩ := List.mem_map.mp hp
      exact hchildren c hc

/-- The sites the visitor does not look at stay apart from the plain ones. -/
theorem siteChildren_plain {site : Site} {a : Ast} {p : Site × Ast} (hp : p ∈ a.siteChildren site)
    (hsite : p.1 = .plain) : site = .plain := by
  obtain ⟨line, node⟩ := a
  cases node
  case annAssign target annot value simple =>
    rcases List.mem_cons.mp hp with rfl | hp
    · obtain ⟨tline, tnode⟩ := target
      cases tnode
      case name => exact hsite
      all_goals cases hsite
    · obtain ⟨c, hc, rfl⟩ := List.mem_map.mp hp
      exact hsite
  all_goals
    obtain ⟨c, hc, rfl⟩ := List.mem_map.mp hp
    exact hsite

theorem reads_vetted (defined : List String) :
    Reads (fun id site => site = .plain → LoadAllowed defined id)
      (fun site a => site = .plain → Vetted defined a) where
  name := fun h hsite => (h hsite).loadAllowed
  augTarget := fun _ hsite => by cases hsite
  child := fun h hp hsite => by
    obtain rfl := siteChildren_plain hp hsite
    exact (h rfl).siteChildren hp hsite

/-- `target = value` followed by `graph = None`. -/
def assigning (target value : String) : Ast :=
  .mk none (.module [
    .mk (some 1) (.assign [.mk (some 1) (.name target .store)] (.mk (some 1) (.name value .load))),
    .mk (some 2) (.assign [.mk (some 2) (.name "graph" .store)] (.mk (some 2) .constant))])

/-- The value of the first assignment is looked up before anything is bound. -/
theorem runs_assigning {known : String → Prop} {target value : String} (hknown : known value) :
    ∃ m, Machine.Runs known (Machine.load (assigning target value)) [⟨value, .plain, .outside⟩]
      m := by
  have hload : Machine.Runs known _ [] _ := .refl (Machine.load (assigning target value))
  have hstatement := (((hload.silent .eval).silent .seq).silent .eval).silent .seq
  have hread := hstatement.silent .eval
  exact ⟨_, hread.tail (.solo (.readOutside List.not_mem_nil hknown))⟩

end Krewhub
