import Mathlib.Data.List.Basic
import Mathlib.Data.Rat.Defs
import Mathlib.Data.List.Infix

/-!
# JSON values in Python

What `json.loads` makes of a text, and what the code does with such values: `==`, under which a boolean is
the number it stands for, `in`, iteration and `.get`, which raise where the value is of the wrong kind; and
the text `json.dumps` makes of a value.
-/

namespace Krewhub

/-- A value of a JSON text; a dict in the order of its entries, a finite float as the number it is. -/
inductive Json where
  | null
  | bool (b : Bool)
  | int (n : Int)
  | float (q : Rat)
  | inf (negative : Bool)
  | str (s : String)
  | list (xs : List Json)
  | dict (entries : List (String × Json))

/-- An exception of the interpreter or of the code; of a `ValueError` the text is kept. -/
inductive PyError where
  | valueError (msg : String)
  | typeError
  | attributeError
  deriving DecidableEq, Repr

/-! ### Sequences that may raise -/

theorem bind_eq_ok {ε α β : Type} {x : Except ε α} {f : α → Except ε β} {b : β} :
    x >>= f = .ok b ↔ ∃ a, x = .ok a ∧ f a = .ok b := by
  cases x with
  | error e =>
    refine ⟨fun h => ?_, ?_⟩
    · cases h
    · rintro ⟨a, ha, _⟩
      cases ha
  | ok a => exact ⟨fun h => ⟨a, rfl, h⟩, fun ⟨a', ha', h⟩ => Except.ok.inj ha' ▸ h⟩

theorem forM_eq_ok {ε α : Type} {f : α → Except ε Unit} {xs : List α} :
    xs.forM f = .ok () ↔ ∀ x ∈ xs, f x = .ok () := by
  induction xs with
  | nil => exact ⟨fun _ _ h => absurd h List.not_mem_nil, fun _ => rfl⟩
  | cons x xs ih =>
    change (f x >>= fun _ => xs.forM f) = _ ↔ _
    rw [bind_eq_ok]
    constructor
    · rintro ⟨⟨⟩, hx, hxs⟩
      exact List.forall_mem_cons.mpr ⟨hx, ih.mp hxs⟩
    · intro h
      exact ⟨(), (List.forall_mem_cons.mp h).1, ih.mpr (List.forall_mem_cons.mp h).2⟩

theorem bind_eq_error {ε α β : Type} {x : Except ε α} {f : α → Except ε β} {e : ε} :
    x >>= f = .error e ↔ x = .error e ∨ ∃ a, x = .ok a ∧ f a = .error e := by
  cases x with
  | error e' =>
    refine ⟨fun h => .inl (congrArg _ (Except.error.inj h)), ?_⟩
    rintro (h | ⟨a, ha, _⟩)
    · exact congrArg _ (Except.error.inj h)
    · cases ha
  | ok a =>
    refine ⟨fun h => .inr ⟨a, rfl, h⟩, ?_⟩
    rintro (h | ⟨a', ha', h⟩)
    · cases h
    · exact Except.ok.inj ha' ▸ h

namespace Json

/-- `type(value).__name__`. -/
def typeName : Json → String
  | null => "NoneType"
  | bool _ => "bool"
  | int _ => "int"
  | float _ | inf _ => "float"
  | str _ => "str"
  | list _ => "list"
  | dict _ => "dict"

/-- `str | dict | None`. -/
def isContent : Json → Bool
  | null | str _ | dict _ => true
  | _ => false

/-- `bool(value)`. -/
def truthy : Json → Bool
  | null => false
  | bool b => b
  | int n => n != 0
  | float q => q != 0
  | inf _ => true
  | str s => s != ""
  | list xs => !xs.isEmpty
  | dict entries => !entries.isEmpty

/-- The number a value is; with `bools`, also the one a boolean stands for. -/
def number? (bools : Bool) : Json → Option Rat
  | bool b => if bools then some (if b then 1 else 0) else none
  | int n => some n
  | float q => some q
  | _ => none

/-- Both are numbers, and the same. -/
def numberEq (bools : Bool) (a b : Json) : Bool :=
  match number? bools a, number? bools b with
  | some q, some q' => q == q'
  | _, _ => false

mutual

/-- Equality of values, with booleans as numbers (`==`) or apart from them. -/
def eq (bools : Bool) : Json → Json → Bool
  | null, null => true
  | str s, str s' => s == s'
  | inf negative, inf negative' => negative == negative'
  | list xs, list xs' => eqList bools xs xs'
  | dict entries, dict entries' =>
    entries.length == entries'.length && eqEntries bools entries entries'
  | bool b, bool b' => b == b'
  | bool b, other => numberEq bools (bool b) other
  | int n, other => numberEq bools (int n) other
  | float q, other => numberEq bools (float q) other
  | _, _ => false

def eqList (bools : Bool) : List Json → List Json → Bool
  | [], [] => true
  | x :: xs, x' :: xs' => eq bools x x' && eqList bools xs xs'
  | _, _ => false

/-- Every entry has an equal one among the others. -/
def eqEntries (bools : Bool) : List (String × Json) → List (String × Json) → Bool
  | [], _ => true
  | (key, value) :: entries, others =>
    (match others.lookup key with
      | some value' => eq bools value value'
      | none => false) && eqEntries bools entries others

end

theorem number?_mono {a : Json} {q : Rat} (h : number? false a = some q) : number? true a = some q := by
  cases a <;> first | exact h | cases h

theorem numberEq_mono {a b : Json} (h : numberEq false a b = true) : numberEq true a b = true := by
  unfold numberEq at h ⊢
  cases ha : number? false a with
  | none =>
    rw [ha] at h
    cases h
  | some q =>
    cases hb : number? false b with
    | none =>
      rw [ha, hb] at h
      cases h
    | some q' =>
      rw [ha, hb] at h
      rw [number?_mono ha, number?_mono hb]
      exact h

mutual

/-- Values that are equal with booleans apart are equal. -/
theorem eq_mono : ∀ {a b : Json}, eq false a b = true → eq true a b = true
  | .null, b, h => by cases b <;> first | rfl | cases h
  | .str s, b, h => by cases b <;> first | exact h | cases h
  | .inf negative, b, h => by cases b <;> first | exact h | cases h
  | .bool b, b', h => by
    cases b'
    case bool => exact h
    all_goals simp [eq, numberEq, number?] at h
  | .int n, b', h => numberEq_mono h
  | .float q, b', h => numberEq_mono h
  | .list xs, b, h => by
    cases b
    case list xs' => exact eqList_mono h
    all_goals cases h
  | .dict entries, b, h => by
    cases b
    case dict entries' =>
      rw [eq, Bool.and_eq_true] at h ⊢
      exact ⟨h.1, eqEntries_mono h.2⟩
    all_goals cases h

theorem eqList_mono : ∀ {xs xs' : List Json}, eqList false xs xs' = true → eqList true xs xs' = true
  | [], xs', h => by cases xs' <;> first | rfl | cases h
  | x :: xs, xs', h => by
    cases xs' with
    | nil => cases h
    | cons x' xs' =>
      rw [eqList, Bool.and_eq_true] at h ⊢
      exact ⟨eq_mono h.1, eqList_mono h.2⟩

theorem eqEntries_mono : ∀ {entries others : List (String × Json)},
    eqEntries false entries others = true → eqEntries true entries others = true
  | [], _, _ => rfl
  | (key, value) :: entries, others, h => by
    rw [eqEntries, Bool.and_eq_true] at h ⊢
    refine ⟨?_, eqEntries_mono h.2⟩
    cases hlookup : others.lookup key with
    | none =>
      rw [hlookup] at h
      cases h.1
    | some value' =>
      rw [hlookup] at h
      exact eq_mono h.1

end

@[simp] theorem eq_str {bools : Bool} {value : Json} {s : String} :
    eq bools value (str s) = true ↔ value = str s := by
  cases value <;> simp [eq, numberEq, number?]

@[simp] theorem str_eq {bools : Bool} {value : Json} {s : String} :
    eq bools (str s) value = true ↔ value = str s := by
  cases value
  case str t => simpa [eq] using eq_comm
  all_goals simp [eq]

/-! ### Operations that may raise -/

/-- What `for` and a comprehension go through. -/
def iterate : Json → Except PyError (List Json)
  | list xs => .ok xs
  | dict entries => .ok (entries.map fun (key, _) => str key)
  | str s => .ok (s.toList.map fun c => str (String.singleton c))
  | _ => .error .typeError

/-- `hash(value)` raises nothing. -/
def hashable : Json → Bool
  | list _ | dict _ => false
  | _ => true

/-- `value in container`. -/
def isIn (value : Json) : Json → Except PyError Bool
  | list xs => .ok (xs.any (eq true value))
  | dict entries =>
    if value.hashable then .ok (entries.any fun (key, _) => eq true value (str key))
    else .error .typeError
  | str s =>
    match value with
    | str t => .ok (decide (t.toList <:+: s.toList))
    | _ => .error .typeError
  | _ => .error .typeError

/-- `value.get(key)`, with `None` where the key is missing. -/
def get (value : Json) (key : String) : Except PyError Json :=
  match value with
  | dict entries => .ok ((entries.lookup key).getD null)
  | _ => .error .attributeError

/-- `value or default`. -/
def orElse (value : Json) (default : Json) : Json := if value.truthy then value else default

mutual

/-- No dict in it has a key twice, as none has that `json.loads` makes. -/
def distinct : Json → Bool
  | list xs => distinctList xs
  | dict entries => decide (entries.map Prod.fst).Nodup && distinctEntries entries
  | _ => true

def distinctList : List Json → Bool
  | [] => true
  | x :: xs => distinct x && distinctList xs

def distinctEntries : List (String × Json) → Bool
  | [] => true
  | (_, value) :: entries => distinct value && distinctEntries entries

end

/-! ### `json.dumps` -/

section Dumps

def hexDigit (n : Nat) : Char := "0123456789abcdef".toList.getD n '0'

/-- `\uXXXX`. -/
def unicodeEscape (n : Nat) : List Char :=
  ['\\', 'u', hexDigit (n / 4096 % 16), hexDigit (n / 256 % 16), hexDigit (n / 16 % 16), hexDigit (n % 16)]

/-- A character of a string, with `ensure_ascii`; one beyond the basic plane is a pair of surrogates. -/
def escapeChar (c : Char) : List Char :=
  match c.toNat with
  | 0x22 => ['\\', c]
  | 0x5c => ['\\', c]
  | 0x08 => ['\\', 'b']
  | 0x0c => ['\\', 'f']
  | 0x0a => ['\\', 'n']
  | 0x0d => ['\\', 'r']
  | 0x09 => ['\\', 't']
  | n =>
    if 0x20 ≤ n ∧ n ≤ 0x7e then [c]
    else if n < 0x10000 then unicodeEscape n
    else
      unicodeEscape (0xd800 + (n - 0x10000) / 1024) ++ unicodeEscape (0xdc00 + (n - 0x10000) % 1024)

def dumpsText (s : String) : String :=
  String.ofList (Char.ofNat 0x22 :: s.toList.flatMap escapeChar ++ [Char.ofNat 0x22])

variable (reprFloat : Rat → String)

mutual

def dumps : Json → String
  | null => "null"
  | bool b => if b then "true" else "false"
  | int n => toString n
  | float q => reprFloat q
  | inf negative => if negative then "-Infinity" else "Infinity"
  | str s => dumpsText s
  | list xs => "[" ++ String.intercalate ", " (dumpsList xs) ++ "]"
  | dict entries => "\x7b" ++ String.intercalate ", " (dumpsEntries entries) ++ "\x7d"

def dumpsList : List Json → List String
  | [] => []
  | x :: xs => dumps x :: dumpsList xs

def dumpsEntries : List (String × Json) → List String
  | [] => []
  | (key, value) :: entries => (dumpsText key ++ ": " ++ dumps value) :: dumpsEntries entries

end

theorem escapeChar_ne_nil (c : Char) : escapeChar c ≠ [] := by
  unfold escapeChar
  split <;> try simp
  split
  · simp
  · split <;> simp [unicodeEscape]

/-- The text of a string is longer than the string by its quotes at least. -/
theorem length_lt_length_dumpsText (s : String) : s.toList.length < (dumpsText s).toList.length := by
  have hescaped : ∀ cs : List Char, cs.length ≤ (cs.flatMap escapeChar).length := by
    intro cs
    induction cs with
    | nil => exact Nat.le_refl _
    | cons c cs ih =>
      have hc : 0 < (escapeChar c).length := List.length_pos_of_ne_nil (escapeChar_ne_nil c)
      rw [List.flatMap_cons, List.length_append, List.length_cons]
      omega
  have hbody := hescaped s.toList
  rw [dumpsText, String.toList_ofList, List.length_append, List.length_cons]
  omega

theorem dumpsText_ne (s : String) : dumpsText s ≠ s := by
  intro h
  have hlength := length_lt_length_dumpsText s
  rw [h] at hlength
  exact Nat.lt_irrefl _ hlength

end Dumps

end Json

end Krewhub
