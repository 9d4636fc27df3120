import Mathlib.Data.List.Infix
import Mathlib.Data.List.Basic
import Mathlib.Tactic.Common

/-!
# `LIKE`

The patterns of SQLite: `%` stands for any text, `_` for any one character, and a letter of ASCII for itself in
either case. A text that matches a pattern is another spelling of it, and the texts that match a pattern and `%`
behind it are those that begin with a spelling of it.
-/

namespace Krewhub.Like

/-- `text LIKE pattern`. -/
def like : List Char → List Char → Bool
  | [], s => s.isEmpty
  | p :: ps, s =>
    if p = '%' then s.tails.any (like ps)
    else
      match s with
      | [] => false
      | c :: s => (p == '_' || p.toLower == c.toLower) && like ps s

/-- The spellings of a pattern. -/
inductive Spells : List Char → List Char → Prop where
  | nil : Spells [] []
  | text {ps t : List Char} (u : List Char) (h : Spells ps t) : Spells ('%' :: ps) (u ++ t)
  | one {ps t : List Char} (c : Char) (h : Spells ps t) : Spells ('_' :: ps) (c :: t)
  | letter {ps t : List Char} {p c : Char} (hp : p ≠ '%') (hc : p.toLower = c.toLower) (h : Spells ps t) :
    Spells (p :: ps) (c :: t)

section Equations

variable {p c : Char} {ps s : List Char}

theorem like_percent : like ('%' :: ps) s = s.tails.any (like ps) := by
  cases s <;> exact if_pos rfl

theorem like_cons_nil (hp : p ≠ '%') : like (p :: ps) [] = false := if_neg hp

theorem like_cons_cons (hp : p ≠ '%') :
    like (p :: ps) (c :: s) = ((p == '_' || p.toLower == c.toLower) && like ps s) := if_neg hp

end Equations

variable {p s t : List Char}

theorem spells_of_like (h : like p s = true) : Spells p s := by
  induction p generalizing s with
  | nil =>
    rw [like, List.isEmpty_iff] at h
    rw [h]
    exact .nil
  | cons c p ih =>
    by_cases hc : c = '%'
    · rw [hc, like_percent] at h
      obtain ⟨t, ht, hlike⟩ := List.any_eq_true.mp h
      obtain ⟨u, rfl⟩ := (List.mem_tails ..).mp ht
      rw [hc]
      exact .text u (ih hlike)
    · cases s with
      | nil =>
        rw [like_cons_nil hc] at h
        cases h
      | cons d s =>
        rw [like_cons_cons hc, Bool.and_eq_true, Bool.or_eq_true, beq_iff_eq, beq_iff_eq] at h
        rcases h with ⟨rfl | hd, hlike⟩
        · exact .one d (ih hlike)
        · exact .letter hc hd (ih hlike)

theorem Spells.like (h : Spells p s) : like p s = true := by
  induction h with
  | nil => rfl
  | @text ps t u h ih =>
    rw [like_percent, List.any_eq_true]
    exact ⟨t, (List.mem_tails ..).mpr (List.suffix_append u t), ih⟩
  | one c h ih =>
    rw [like_cons_cons (by decide), ih]
    rfl
  | letter hp hc h ih =>
    rw [like_cons_cons hp, ih]
    simp [hc]

theorem like_iff : like p s = true ↔ Spells p s := ⟨spells_of_like, Spells.like⟩

/-- A text is a spelling of itself. -/
theorem Spells.refl (p : List Char) : Spells p p := by
  induction p with
  | nil => exact .nil
  | cons c p ih =>
    by_cases hc : c = '%'
    · rw [hc]
      exact .text ['%'] ih
    · exact .letter hc rfl ih

theorem spells_percent : Spells ['%'] s := by
  rw [← List.append_nil s]
  exact .text s .nil

/-- What matches a pattern and `%` behind it begins with a spelling of the pattern. -/
theorem spells_append_percent_iff : Spells (p ++ ['%']) s ↔ ∃ t, Spells p t ∧ t <+: s := by
  constructor
  · intro h
    induction p generalizing s with
    | nil => exact ⟨[], .nil, List.nil_prefix⟩
    | cons c p ih =>
      cases h with
      | text u h =>
        obtain ⟨t, ht, hprefix⟩ := ih h
        exact ⟨u ++ t, .text u ht, (List.prefix_append_right_inj u).mpr hprefix⟩
      | one d h =>
        obtain ⟨t, ht, hprefix⟩ := ih h
        exact ⟨d :: t, .one d ht, (List.prefix_cons_inj d).mpr hprefix⟩
      | letter hp hc h =>
        obtain ⟨t, ht, hprefix⟩ := ih h
        exact ⟨_ :: t, .letter hp hc ht, (List.prefix_cons_inj _).mpr hprefix⟩
  · rintro ⟨t, ht, u, rfl⟩
    induction ht with
    | nil => exact spells_percent
    | text v h ih =>
      rw [List.append_assoc]
      exact .text v ih
    | one c h ih => exact .one c ih
    | letter hp hc h ih => exact .letter hp hc ih

end Krewhub.Like
