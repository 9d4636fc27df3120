import Krewhub.Base.Passages

/-!
# Strings

`str.strip`, `str.rstrip`, `str.lower` and `str.title` as far as the code uses them.
-/

namespace Krewhub.Text

/-- `str.isspace` of one character. -/
def isSpace (c : Char) : Bool :=
  c.toNat ∈ [0x09, 0x0a, 0x0b, 0x0c, 0x0d, 0x1c, 0x1d, 0x1e, 0x1f, 0x20, 0x85, 0xa0, 0x1680, 0x2000,
    0x2001, 0x2002, 0x2003, 0x2004, 0x2005, 0x2006, 0x2007, 0x2008, 0x2009, 0x200a, 0x2028, 0x2029,
    0x202f, 0x205f, 0x3000]

@[irreducible]
def rstrip (s : String) : String := String.ofList (s.toList.reverse.dropWhile isSpace).reverse

@[irreducible]
def strip (s : String) : String := rstrip (String.ofList (s.toList.dropWhile isSpace))

/-- `str.lower` on ASCII letters; no other character lowers to an ASCII letter of the words the
results are compared with. -/
@[irreducible]
def lower (s : String) : String := String.ofList (s.toList.map Char.toLower)

def titleFrom (inWord : Bool) : List Char → List Char
  | [] => []
  | c :: cs =>
    (if c.isAlpha then if inWord then c.toLower else c.toUpper else c) :: titleFrom c.isAlpha cs

/-- `str.title` on ASCII letters. -/
@[irreducible]
def title (s : String) : String := String.ofList (titleFrom false s.toList)

theorem toList_rstrip (s : String) : (rstrip s).toList = s.toList.rdropWhile isSpace := by
  rw [rstrip, String.toList_ofList, List.rdropWhile]

theorem toList_strip (s : String) :
    (strip s).toList = (s.toList.dropWhile isSpace).rdropWhile isSpace := by
  rw [strip, toList_rstrip, String.toList_ofList]

theorem trimmed_toList_strip (s : String) : Trimmed isSpace (strip s).toList := by
  rw [toList_strip]
  exact trimmed_strip s.toList

/-- A text has what is left of it when it is stripped. -/
theorem isInfix_strip (s : String) : (strip s).toList <:+: s.toList := by
  rw [toList_strip]
  exact (List.rdropWhile_prefix isSpace _).isInfix.trans (List.dropWhile_suffix _).isInfix

/-- What is appended to a text is in it when the whole is stripped, less the space around it. -/
theorem isInfix_strip_of_append (s block : String) :
    (strip block).toList <:+: (strip (s ++ block)).toList := by
  have hpassage : Passages [(strip block).toList] (s ++ block).toList := by
    rw [passages_singleton, String.toList_append]
    exact (isInfix_strip block).trans (List.suffix_append _ _).isInfix
  have htrimmed : ∀ b ∈ [(strip block).toList], Trimmed isSpace b := by
    intro b hb
    rw [List.mem_singleton.mp hb]
    exact trimmed_toList_strip block
  rw [toList_strip (s ++ block), ← passages_singleton]
  exact (hpassage.dropWhile htrimmed).rdropWhile htrimmed

end Krewhub.Text
