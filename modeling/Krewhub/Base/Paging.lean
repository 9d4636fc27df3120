import Mathlib.Data.List.Basic
import Mathlib.Data.List.Pairwise
import Mathlib.Tactic.Common

/-!
# Paging through a growing list

A client reads a list page by page and asks each time for what comes after the last entry it has seen. On a
list whose keys increase, what it has yet to see shrinks by the page it is given, and an entry that is
appended is one it has yet to see.
-/

namespace Krewhub

namespace Paging

variable {α : Type} (key : α → Nat)

/-- What comes after the cursor. -/
def after (cursor : Option Nat) (l : List α) : List α := l.filter fun a => cursor.all (· < key a)

/-- The cursor of a client that has been given a page. -/
def next (cursor : Option Nat) (page : List α) : Option Nat := page.getLast?.map key <|> cursor

variable {key} {cursor : Option Nat} {l : List α} {n : Nat}

theorem after_sublist (cursor : Option Nat) (l : List α) : (after key cursor l).Sublist l :=
  List.filter_sublist

theorem after_append_singleton {a : α} (h : ∀ k ∈ cursor, k < key a) :
    after key cursor (l ++ [a]) = after key cursor l ++ [a] := by
  have ha : cursor.all (· < key a) = true := by
    cases cursor with
    | none => rfl
    | some k => simpa using h
  simp only [after, List.filter_append, List.filter_cons, ha, if_true, List.filter_nil]

theorem next_append (cursor : Option Nat) (page page' : List α) :
    next key cursor (page ++ page') = next key (next key cursor page) page' := by
  cases hlast : page'.getLast? with
  | none =>
    rw [List.getLast?_eq_none_iff] at hlast
    subst hlast
    simp [next]
  | some a => simp [next, List.getLast?_append, hlast]

/-- The last entry has the largest key. -/
theorem key_le_getLast {a last : α} (hl : l.Pairwise fun a b => key a < key b)
    (hlast : l.getLast? = some last) (ha : a ∈ l) : key a ≤ key last := by
  obtain ⟨init, rfl⟩ := List.getLast?_eq_some_iff.mp hlast
  rcases List.mem_append.mp ha with ha | ha
  · exact Nat.le_of_lt ((List.pairwise_append.mp hl).2.2 a ha last (List.mem_singleton_self last))
  · exact Nat.le_of_eq (congrArg key (List.mem_singleton.mp ha))

/-- A page takes away from what comes after the cursor as much as it holds. -/
theorem after_next_take (hn : 0 < n) (hl : l.Pairwise fun a b => key a < key b) :
    after key (next key cursor ((after key cursor l).take n)) l = (after key cursor l).drop n := by
  cases hlast : ((after key cursor l).take n).getLast? with
  | none =>
    have hnil : after key cursor l = [] := by
      rw [List.getLast?_eq_none_iff, List.take_eq_nil_iff] at hlast
      rcases hlast with rfl | hnil
      · omega
      · exact hnil
    rw [hnil]
    simp [next, hnil]
  | some last =>
    have hpairwise : ((after key cursor l).take n ++ (after key cursor l).drop n).Pairwise
        fun a b => key a < key b := by
      rw [List.take_append_drop]
      exact hl.sublist (after_sublist cursor l)
    rw [List.pairwise_append] at hpairwise
    obtain ⟨hpage, -, hacross⟩ := hpairwise
    have hmem : last ∈ (after key cursor l).take n := List.mem_of_getLast? hlast
    have hle : ∀ a ∈ (after key cursor l).take n, key a ≤ key last :=
      fun a ha => key_le_getLast hpage hlast ha
    have hcursor : ∀ a, key last < key a → cursor.all (· < key a) = true := by
      intro a ha
      have hseen : cursor.all (· < key last) = true :=
        (List.mem_filter.mp (List.mem_of_mem_take hmem)).2
      cases cursor with
      | none => rfl
      | some k =>
        rw [Option.all_some, decide_eq_true_eq] at hseen ⊢
        omega
    have hrest : after key (next key cursor ((after key cursor l).take n)) l =
        (after key cursor l).filter fun a => decide (key last < key a) := by
      rw [next, hlast, after, after, List.filter_filter]
      refine List.filter_congr fun a _ => ?_
      show decide (key last < key a) = (decide (key last < key a) && cursor.all (· < key a))
      by_cases ha : key last < key a
      · rw [hcursor a ha, Bool.and_true]
      · simp [ha]
    rw [hrest, ← List.take_append_drop n (after key cursor l), List.filter_append,
      List.take_append_drop]
    have hnone : ((after key cursor l).take n).filter (fun a => decide (key last < key a)) = [] := by
      rw [List.filter_eq_nil_iff]
      intro a ha
      have := hle a ha
      simp only [decide_eq_true_eq]
      omega
    have hall : ((after key cursor l).drop n).filter (fun a => decide (key last < key a)) =
        (after key cursor l).drop n := by
      rw [List.filter_eq_self]
      intro a ha
      exact decide_eq_true (hacross last hmem a ha)
    rw [hnone, hall, List.nil_append]

end Paging

end Krewhub
