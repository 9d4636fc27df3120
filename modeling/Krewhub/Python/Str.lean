import Krewhub.Base.Utf8

/-!
# Strings with surrogates

A Python string may hold surrogates by themselves, which no encoding of a text does. `str.encode` raises on
them, or puts a question mark in their place.
-/

namespace Krewhub

/-- A code point; the surrogates are counted from U+D800. -/
inductive CodePoint where
  | scalar (c : Char)
  | surrogate (n : Fin 0x800)
  deriving DecidableEq, Repr

/-- A Python string. -/
abbrev PyStr := List CodePoint

namespace PyStr

/-- A string without surrogates. -/
def ofChars (s : List Char) : PyStr := s.map .scalar

def ofString (s : String) : PyStr := ofChars s.toList

/-- The text of a string, with a question mark for every surrogate. -/
def questioned (s : PyStr) : List Char :=
  s.map fun
    | .scalar c => c
    | .surrogate _ => '?'

/-- `s.encode("utf-8")`, or nothing where it raises. -/
def encode (s : PyStr) : Option (List UInt8) :=
  if s.any (· matches .surrogate _) then none else some (Utf8.encode (questioned s))

/-- `s.encode("ascii")` as characters, or nothing where it raises. -/
def ascii (s : PyStr) : Option (List Char) :=
  if s.all (fun | .scalar c => c.toNat < 128 | .surrogate _ => false) then some (questioned s) else none

/-- `s.encode("utf-8", errors="replace")`. -/
def encodeReplace (s : PyStr) : List UInt8 := Utf8.encode (questioned s)

/-- `bs.decode("utf-8")`, or nothing where it raises. -/
def decode (bs : List UInt8) : Option PyStr := (Utf8.decode bs).map ofChars

/-- `bs.decode("utf-8", errors="replace")`. -/
def decodeReplace (bs : List UInt8) : PyStr := ofChars (Utf8.decodeReplace bs)

@[simp] theorem questioned_ofChars (s : List Char) : questioned (ofChars s) = s := by
  rw [questioned, ofChars, List.map_map]
  exact List.map_id s

@[simp] theorem questioned_append (s t : PyStr) : questioned (s ++ t) = questioned s ++ questioned t :=
  List.map_append

@[simp] theorem encodeReplace_nil : encodeReplace [] = [] := rfl

@[simp] theorem encodeReplace_append (s t : PyStr) :
    encodeReplace (s ++ t) = encodeReplace s ++ encodeReplace t := by
  rw [encodeReplace, questioned_append, Utf8.encode_append]
  rfl

@[simp] theorem encodeReplace_ofChars (s : List Char) : encodeReplace (ofChars s) = Utf8.encode s := by
  rw [encodeReplace, questioned_ofChars]

theorem encode_ofChars (s : List Char) : encode (ofChars s) = some (Utf8.encode s) := by
  rw [encode, if_neg (by simp [ofChars]), questioned_ofChars]

theorem ascii_ofChars {s : List Char} (h : ∀ c ∈ s, c.toNat < 128) : ascii (ofChars s) = some s := by
  rw [ascii, if_pos, questioned_ofChars]
  rw [ofChars, List.all_map, List.all_eq_true]
  exact fun c hc => decide_eq_true (h c hc)

theorem ofChars_injective : Function.Injective ofChars :=
  List.map_injective_iff.mpr fun _ _ h => CodePoint.scalar.inj h

@[simp] theorem ofString_inj {s t : String} : ofString s = ofString t ↔ s = t :=
  ofChars_injective.eq_iff.trans String.toList_inj

end PyStr

end Krewhub
