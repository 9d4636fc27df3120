import Krewhub.Python.Value

/-!
# `json.loads`

The scanner of the `json` module on a text that has no surrogates of its own. It goes from left to right, so
that the first thing that is wrong decides: an integer with more digits than the interpreter converts is a
`ValueError`, nesting too deep a `RecursionError`, all else a `JSONDecodeError`.
-/

namespace Krewhub

namespace Loads

/-- What has been scanned of a text, and the rest of it, which is shorter. -/
abbrev Scan (text : List Char) (α : Type) := Except PyExc (α × {rest : List Char // rest.length < text.length})

def isSpace (c : Char) : Bool := c == ' ' || c == '\t' || c == '\n' || c == '\r'

def hexValue (c : Char) : Option Nat :=
  if c.isDigit then some (c.toNat - '0'.toNat)
  else if 'a' ≤ c ∧ c ≤ 'f' then some (c.toNat - 'a'.toNat + 10)
  else if 'A' ≤ c ∧ c ≤ 'F' then some (c.toNat - 'A'.toNat + 10)
  else none

/-- The code point that a `\u` escape stands for. -/
def unicodeEscape (a b c d : Char) : Option CodePoint := do
  let n := (← hexValue a) * 4096 + (← hexValue b) * 256 + (← hexValue c) * 16 + (← hexValue d)
  if 0xd800 ≤ n ∧ n < 0xe000 then return .surrogate (Fin.ofNat _ (n - 0xd800))
  return .scalar (Char.ofNat n)

def escape : Char → Option Char
  | '"' => some '"'
  | '\\' => some '\\'
  | '/' => some '/'
  | 'b' => some (Char.ofNat 0x08)
  | 'f' => some (Char.ofNat 0x0c)
  | 'n' => some '\n'
  | 'r' => some '\r'
  | 't' => some '\t'
  | _ => none

/-- A high surrogate and the low one after it are one character. -/
def joinSurrogates : PyStr → PyStr
  | .surrogate hi :: .surrogate lo :: s =>
    if hi.val < 0x400 ∧ 0x400 ≤ lo.val then
      .scalar (Char.ofNat (0x10000 + hi.val * 0x400 + (lo.val - 0x400))) :: joinSurrogates s
    else .surrogate hi :: joinSurrogates (.surrogate lo :: s)
  | c :: s => c :: joinSurrogates s
  | [] => []

/-- A part of a text has been scanned. -/
def Scan.within {text text' : List Char} {α β : Type} (h : text.length ≤ text'.length) (f : α → β) :
    Scan text α → Scan text' β
  | .error e => .error e
  | .ok (a, rest) => .ok (f a, ⟨rest.val, Nat.lt_of_lt_of_le rest.property h⟩)

/-- The rest of a string, after its first quote. -/
def scanString : (text : List Char) → Scan text PyStr
  | [] => .error .jsonDecodeError
  | '"' :: text => .ok ([], ⟨text, Nat.lt_succ_self _⟩)
  | '\\' :: 'u' :: a :: b :: c :: d :: text =>
    match unicodeEscape a b c d with
    | none => .error .jsonDecodeError
    | some point => (scanString text).within (by simp only [List.length_cons]; omega) (point :: ·)
  | '\\' :: e :: text =>
    match escape e with
    | none => .error .jsonDecodeError
    | some c => (scanString text).within (by simp only [List.length_cons]; omega) (.scalar c :: ·)
  | c :: text =>
    if c.toNat < 0x20 then .error .jsonDecodeError
    else (scanString text).within (Nat.le_succ _) (.scalar c :: ·)

/-! ### Numbers and words -/

/-- How many digits a text begins with. -/
def digits (text : List Char) : Nat := (text.takeWhile Char.isDigit).length

/-- The length of the integer a text begins with, without a sign. -/
def intLength : List Char → Nat
  | '0' :: _ => 1
  | text => digits text

def fractionLength : List Char → Nat
  | '.' :: text => if digits text = 0 then 0 else digits text + 1
  | _ => 0

def exponentLength : List Char → Nat
  | e :: text =>
    if e = 'e' ∨ e = 'E' then
      let sign := if text.head? = some '+' ∨ text.head? = some '-' then 1 else 0
      if digits (text.drop sign) = 0 then 0 else digits (text.drop sign) + sign + 1
    else 0
  | [] => 0

def natOfDigits (ds : List Char) : Nat := ds.foldl (fun n c => n * 10 + (c.toNat - '0'.toNat)) 0

/-- `sys.get_int_max_str_digits()`. -/
def maxStrDigits : Nat := 4300

theorem digits_le (text : List Char) : digits text ≤ text.length :=
  (List.takeWhile_prefix _).length_le

theorem intLength_le (text : List Char) : intLength text ≤ text.length := by
  unfold intLength
  split
  · simp
  · exact digits_le _

/-- The number a text begins with. -/
def scanNumber (B : Builtins) (text : List Char) : Scan text PyValue :=
  let sign := if text.head? = some '-' then 1 else 0
  let whole := intLength (text.drop sign)
  if h : whole = 0 then .error .jsonDecodeError
  else
    let fraction := fractionLength (text.drop (sign + whole))
    let exponent := exponentLength (text.drop (sign + whole + fraction))
    let rest : {rest : List Char // rest.length < text.length} :=
      ⟨text.drop (sign + whole + fraction + exponent), by
        have hle := intLength_le (text.drop sign)
        rw [List.length_drop] at hle ⊢
        omega⟩
    if fraction + exponent = 0 then
      if maxStrDigits < whole then .error .valueError
      else
        let n := natOfDigits ((text.drop sign).take whole)
        .ok (.int (if sign = 0 then n else -n), rest)
    else .ok (.float (B.float (text.take (sign + whole + fraction + exponent))), rest)

/-- The words that are values, with what they are; the floats by their bits. -/
def words : List (String × PyValue) :=
  [("null", .none), ("true", .bool true), ("false", .bool false), ("NaN", .float 0x7ff8000000000000),
    ("Infinity", .float 0x7ff0000000000000), ("-Infinity", .float 0xfff0000000000000)]

/-- The word a text begins with, or a number. -/
def scanWord (B : Builtins) (text : List Char) : Scan text PyValue :=
  match words.find? (fun word => word.1.toList.isPrefixOf text) with
  | some (word, value) =>
    if h : text.length - word.length < text.length then .ok (value, ⟨text.drop word.length, by simpa using h⟩)
    else .error .jsonDecodeError
  | none => scanNumber B text

/-! ### Objects and arrays -/

def skipSpace (text : List Char) : List Char := text.dropWhile isSpace

theorem skipSpace_le (text : List Char) : (skipSpace text).length ≤ text.length :=
  (List.dropWhile_suffix _).length_le

theorem lt_of_skipSpace {text rest : List Char} {c : Char} (h : skipSpace text = c :: rest) :
    rest.length < text.length := by
  have hle := skipSpace_le text
  rw [h, List.length_cons] at hle
  exact hle

/-- `entries[key] = value`. -/
def setItem (entries : List (PyStr × PyValue)) (key : PyStr) (value : PyValue) : List (PyStr × PyValue) :=
  if entries.any (·.1 == key) then entries.map fun e => if e.1 == key then (key, value) else e
  else entries ++ [(key, value)]

mutual

/-- `scan_once`. -/
def scanOnce (B : Builtins) (depth : Nat) (text : List Char) : Scan text PyValue :=
  match text with
  | '"' :: rest => (scanString rest).within (Nat.le_succ _) fun s => .str (joinSurrogates s)
  | '\x7b' :: rest =>
    match depth with
    | 0 => .error .recursionError
    | depth + 1 =>
      match h : skipSpace rest with
      | '\x7d' :: rest' => .ok (.dict [], ⟨rest', Nat.lt_succ_of_lt (lt_of_skipSpace h)⟩)
      | rest' => (scanMembers B depth [] rest').within
          (by rw [← h, List.length_cons]; exact Nat.le_succ_of_le (skipSpace_le rest)) .dict
  | '[' :: rest =>
    match depth with
    | 0 => .error .recursionError
    | depth + 1 =>
      match h : skipSpace rest with
      | ']' :: rest' => .ok (.list [], ⟨rest', Nat.lt_succ_of_lt (lt_of_skipSpace h)⟩)
      | rest' => (scanElements B depth [] rest').within
          (by rw [← h, List.length_cons]; exact Nat.le_succ_of_le (skipSpace_le rest)) .list
  | text => scanWord B text
termination_by 2 * text.length
decreasing_by
  all_goals
    have hle := skipSpace_le rest
    rw [← h, List.length_cons]
    omega

/-- The members of an object from a key on. -/
def scanMembers (B : Builtins) (depth : Nat) (entries : List (PyStr × PyValue)) (text : List Char) :
    Scan text (List (PyStr × PyValue)) :=
  match text with
  | '"' :: rest =>
    match scanString rest with
    | .error e => .error e
    | .ok (key, ⟨afterKey, hkey⟩) =>
      match hcolon : skipSpace afterKey with
      | ':' :: beforeValue =>
        match scanOnce B depth (skipSpace beforeValue) with
        | .error e => .error e
        | .ok (value, ⟨afterValue, hvalue⟩) =>
          match hnext : skipSpace afterValue with
          | ',' :: more =>
            have hmore : (skipSpace more).length < rest.length := by
              have h1 := lt_of_skipSpace hcolon
              have h2 := skipSpace_le beforeValue
              have h3 := lt_of_skipSpace hnext
              have h4 := skipSpace_le more
              omega
            (scanMembers B depth (setItem entries (joinSurrogates key) value) (skipSpace more)).within
              (Nat.le_succ_of_le (Nat.le_of_lt hmore)) id
          | '\x7d' :: rest' =>
            .ok (setItem entries (joinSurrogates key) value, ⟨rest', by
              have h1 := lt_of_skipSpace hcolon
              have h2 := skipSpace_le beforeValue
              have h3 := lt_of_skipSpace hnext
              rw [List.length_cons]
              omega⟩)
          | _ => .error .jsonDecodeError
      | _ => .error .jsonDecodeError
  | _ => .error .jsonDecodeError
termination_by 2 * text.length
decreasing_by
  · have h1 := lt_of_skipSpace hcolon
    have h2 := skipSpace_le beforeValue
    rw [List.length_cons]
    omega
  · rw [List.length_cons]
    omega

/-- The elements of an array from one on. -/
def scanElements (B : Builtins) (depth : Nat) (xs : List PyValue) (text : List Char) :
    Scan text (List PyValue) :=
  match scanOnce B depth text with
  | .error e => .error e
  | .ok (value, ⟨afterValue, hvalue⟩) =>
    match hnext : skipSpace afterValue with
    | ',' :: more =>
      have hmore : (skipSpace more).length < text.length := by
        have h1 := lt_of_skipSpace hnext
        have h2 := skipSpace_le more
        omega
      (scanElements B depth (xs ++ [value]) (skipSpace more)).within (Nat.le_of_lt hmore) id
    | ']' :: rest' => .ok (xs ++ [value], ⟨rest', Nat.lt_trans (lt_of_skipSpace hnext) hvalue⟩)
    | _ => .error .jsonDecodeError
termination_by 2 * text.length + 1
decreasing_by
  · omega
  · omega

end

end Loads

/-- `json.loads`. -/
def loads (B : Builtins) (text : List Char) : Except PyExc PyValue :=
  if text.head? = some (Char.ofNat 0xfeff) then .error .jsonDecodeError
  else
    match Loads.scanOnce B B.depth (Loads.skipSpace text) with
    | .error e => .error e
    | .ok (value, rest) => if Loads.skipSpace rest.val = [] then .ok value else .error .jsonDecodeError

end Krewhub
