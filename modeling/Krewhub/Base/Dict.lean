import Mathlib.Data.List.Basic

/-!
# Dictionaries in insertion order

The entries of a dictionary in the order their keys were first set. A value is found with `List.lookup`;
setting a key writes over the value it has, and `setNew` leaves a key that is there alone.
-/

namespace Krewhub

variable {α β : Type} [DecidableEq α]

/-- The entries of a dictionary, in insertion order. -/
abbrev Dict (α β : Type) := List (α × β)

namespace Dict

variable {d : Dict α β} {k x : α} {v : β}

/-- `d[k] = v`. -/
def set (k : α) (v : β) : Dict α β → Dict α β
  | [] => [(k, v)]
  | e :: d => if e.1 = k then (k, v) :: d else e :: set k v d

/-- `if k not in d: d[k] = v`. -/
def setNew (d : Dict α β) (k : α) (v : β) : Dict α β :=
  if k ∈ d.map (·.1) then d else d.set k v

theorem lookup_cons_eq (e : α × β) : List.lookup x (e :: d) = if x = e.1 then some e.2 else d.lookup x := by
  obtain ⟨y, w⟩ := e
  rw [List.lookup_cons]
  by_cases h : x = y
  · rw [if_pos h, beq_iff_eq.mpr h]
  · rw [if_neg h, beq_eq_false_iff_ne.mpr h]

theorem lookup_set : (d.set k v).lookup x = if x = k then some v else d.lookup x := by
  induction d with
  | nil => exact lookup_cons_eq (k, v)
  | cons e d ih =>
    rw [set]
    by_cases he : e.1 = k
    · rw [if_pos he, lookup_cons_eq, lookup_cons_eq, he]
      by_cases hx : x = k
      · rw [if_pos hx, if_pos hx]
      · simp only [if_neg hx]
    · rw [if_neg he, lookup_cons_eq, lookup_cons_eq, ih]
      by_cases hx : x = e.1
      · rw [if_pos hx, if_pos hx, if_neg (hx ▸ he)]
      · rw [if_neg hx, if_neg hx]

/-- What is found under a key that many entries are set for was set by one of them. -/
theorem of_lookup_foldl_set {γ : Type} {f : γ → α} {g : γ → β} {l : List γ}
    (h : (l.foldl (fun d c => d.set (f c) (g c)) d).lookup x = some v) :
    (∃ c ∈ l, f c = x ∧ g c = v) ∨ d.lookup x = some v := by
  induction l generalizing d with
  | nil => exact .inr h
  | cons c l ih =>
    rcases ih h with ⟨c', hc', hset⟩ | hfirst
    · exact .inl ⟨c', List.mem_cons_of_mem _ hc', hset⟩
    · rw [lookup_set] at hfirst
      split at hfirst
      · rename_i hx
        exact .inl ⟨c, List.mem_cons_self, hx.symm, Option.some.inj hfirst⟩
      · exact .inr hfirst

theorem lookup_isSome_iff : (d.lookup x).isSome = true ↔ x ∈ d.map (·.1) := by
  induction d with
  | nil => simp
  | cons e d ih =>
    rw [lookup_cons_eq, List.map_cons, List.mem_cons, ← ih]
    by_cases h : x = e.1 <;> simp [h]

theorem lookup_setNew :
    (d.setNew k v).lookup x = (d.lookup x).or (if x = k then some v else none) := by
  rw [setNew]
  by_cases hk : k ∈ d.map (·.1)
  · rw [if_pos hk]
    obtain ⟨w, hw⟩ := Option.isSome_iff_exists.mp (lookup_isSome_iff.mpr hk)
    by_cases hx : x = k
    · rw [hx, hw, Option.some_or]
    · rw [if_neg hx, Option.or_none]
  · rw [if_neg hk, lookup_set]
    by_cases hx : x = k
    · have hnone : d.lookup k = none := by
        rw [← Option.not_isSome_iff_eq_none, lookup_isSome_iff]
        exact hk
      rw [hx, hnone, Option.none_or]
    · rw [if_neg hx, if_neg hx, Option.or_none]

/-- One value under several new keys. -/
theorem lookup_foldl_setNew (ks : List α) :
    (ks.foldl (fun d k => d.setNew k v) d).lookup x = (d.lookup x).or (if x ∈ ks then some v else none) := by
  induction ks generalizing d with
  | nil => exact Option.or_none.symm
  | cons k ks ih =>
    rw [List.foldl_cons, ih, lookup_setNew, Option.or_assoc]
    by_cases hx : x = k <;> simp [hx]

end Dict

end Krewhub
