import Krewhub.Base.Redaction
import Krewhub.Python.Text

/-!
# Expressions of the `re` module

The classes and literals that the patterns of the code are made of. What `\w` is beyond ASCII the Unicode
tables say, and they are a parameter; a space is no word whatever they say. Where case is ignored a letter
stands for the ones that fold to it, four of which are not ASCII.
-/

namespace Krewhub.Re

open Text (isSpace)

/-- A class of characters by its ranges. -/
def cls (ranges : List (Char × Char)) (c : Char) : Bool :=
  ranges.any fun r => r.1.toNat ≤ c.toNat && c.toNat ≤ r.2.toNat

/-- `\w`. -/
def isWord (wide : Char → Bool) (c : Char) : Bool :=
  if c.toNat < 128 then cls [('a', 'z'), ('A', 'Z'), ('0', '9'), ('_', '_')] c else wide c && !isSpace c

/-- The letter a character stands for where case is ignored. -/
def fold (c : Char) : Char :=
  if c.toNat = 0x130 ∨ c.toNat = 0x131 then 'i'
  else if c.toNat = 0x17f then 's'
  else if c.toNat = 0x212a then 'k'
  else c.toLower

/-- A class where case is ignored. -/
def clsI (ranges : List (Char × Char)) (c : Char) : Bool :=
  cls ranges c || cls ranges (fold c) || cls ranges (fold c).toUpper

/-- A literal, character by character. -/
def lit : List Char → Regex Char
  | [] => .empty
  | c :: s => .seq (.one (· == c)) (lit s)

/-- A literal in small letters where case is ignored. -/
def litI : List Char → Regex Char
  | [] => .empty
  | c :: s => .seq (.one (fold · == c)) (litI s)

/-- `\s*`. -/
def spaces : Regex Char := .many isSpace 0 none

/-- `\S+`. -/
def value : Regex Char := .many (fun c => !isSpace c) 1 none

/-- `r?`. -/
def optional (r : Regex Char) : Regex Char := .alt r .empty

theorem isWord_of_isSpace {wide : Char → Bool} {c : Char} (h : isSpace c = true) : isWord wide c = false := by
  rw [isWord]
  split
  · rename_i hlow
    simp only [isSpace, List.mem_cons, List.not_mem_nil, or_false, decide_eq_true_eq] at h
    simp only [cls, List.any_cons, List.any_nil, Bool.or_false, Bool.or_eq_false_iff, Bool.and_eq_false_iff,
      decide_eq_false_iff_not, Char.reduceToNat]
    omega
  · rw [h, Bool.not_true, Bool.and_false]

theorem cls_mono {ranges ranges' : List (Char × Char)} (h : ∀ r ∈ ranges, r ∈ ranges') {c : Char}
    (hc : cls ranges c = true) : cls ranges' c = true := by
  obtain ⟨r, hr, hbetween⟩ := List.any_eq_true.mp hc
  exact List.any_eq_true.mpr ⟨r, h r hr, hbetween⟩

theorem clsI_of_cls {ranges : List (Char × Char)} {c : Char} (h : cls ranges c = true) :
    clsI ranges c = true := by
  rw [clsI, h, Bool.true_or, Bool.true_or]

theorem clsI_of_fold {ranges : List (Char × Char)} {c : Char} (h : cls ranges (fold c) = true) :
    clsI ranges c = true := by
  rw [clsI, h, Bool.or_true, Bool.true_or]

theorem clsI_mono {ranges ranges' : List (Char × Char)} (h : ∀ r ∈ ranges, r ∈ ranges') {c : Char}
    (hc : clsI ranges c = true) : clsI ranges' c = true := by
  rw [clsI, Bool.or_eq_true, Bool.or_eq_true] at hc ⊢
  exact hc.imp (fun hc => hc.imp (cls_mono h) (cls_mono h)) (cls_mono h)

theorem value_accepts {v : List Char} (h : value.Accepts v) : IsValue isSpace v := by
  obtain ⟨hall, hlow, -⟩ := h
  cases v with
  | nil => cases hlow
  | cons c v => exact ⟨c, rfl, by simpa using hall c List.mem_cons_self⟩

theorem value_accepts_singleton {c : Char} (h : isSpace c = false) : value.Accepts [c] :=
  ⟨List.forall_mem_singleton.mpr (by simp [h]), Nat.le_refl 1, nofun⟩

end Krewhub.Re
