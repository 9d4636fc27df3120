import Mathlib.Data.List.Basic
import Mathlib.Data.List.Nodup
import Mathlib.Tactic.Common

/-!
# Tables with a primary key

The rows of a table in the order they were inserted in, no two of them with the same key. The
operations are those of the SQL statements on one row by its key; each keeps the keys distinct.
-/

namespace Krewhub

theorem mem_of_lookup {α β : Type} [BEq α] [LawfulBEq α] {l : List (α × β)} {a : α} {b : β}
    (h : l.lookup a = some b) : (a, b) ∈ l := by
  obtain ⟨before, rest, rfl, _⟩ := List.lookup_eq_some_iff.mp h
  simp

/-- Rows that have a primary key. -/
class Keyed (α : Type) where
  key : α → String

export Keyed (key)

/-- The rows of a table, in insertion order. -/
structure Table (α : Type) [Keyed α] where
  rows : List α
  nodup : (rows.map key).Nodup

namespace Table

variable {α : Type} [Keyed α] {t : Table α} {k : String} {r : α}

instance : EmptyCollection (Table α) := ⟨⟨[], List.nodup_nil⟩⟩

instance : Membership α (Table α) := ⟨fun t r => r ∈ t.rows⟩

theorem mem_def : r ∈ t ↔ r ∈ t.rows := Iff.rfl

theorem eq_of_rows {t' : Table α} (h : t.rows = t'.rows) : t = t' := by
  obtain ⟨rows, _⟩ := t
  obtain rfl : rows = t'.rows := h
  rfl

theorem rows_injective : Function.Injective (Table.rows : Table α → List α) := fun _ _ h => eq_of_rows h

/-- `SELECT … WHERE id = ?`. -/
def get (t : Table α) (k : String) : Option α := t.rows.find? fun r => key r == k

theorem key_eq_of_get (h : t.get k = some r) : key r = k := by
  simpa using List.find?_some h

theorem mem_of_get (h : t.get k = some r) : r ∈ t := List.mem_of_find?_eq_some h

theorem get_eq_some_iff : t.get k = some r ↔ r ∈ t ∧ key r = k := by
  refine ⟨fun h => ⟨mem_of_get h, key_eq_of_get h⟩, ?_⟩
  rintro ⟨hr, rfl⟩
  obtain ⟨rows, hnodup⟩ := t
  induction rows with
  | nil => cases hr
  | cons x rows ih =>
    rw [List.map_cons, List.nodup_cons] at hnodup
    rcases List.mem_cons.mp hr with rfl | hr
    · simp [get]
    · have hne : key x ≠ key r := fun heq => hnodup.1 (heq ▸ List.mem_map_of_mem hr)
      have hrest := ih hnodup.2 hr
      simpa [get, hne] using hrest

theorem get_eq_none_iff : t.get k = none ↔ ∀ r ∈ t, key r ≠ k := by
  simp [get, List.find?_eq_none, mem_def]

/-- Rows of one table with one key are one row. -/
theorem eq_of_key_eq {r' : α} (hr : r ∈ t) (hr' : r' ∈ t) (h : key r = key r') : r = r' := by
  have hget := get_eq_some_iff.mpr ⟨hr, h⟩
  rw [get_eq_some_iff.mpr ⟨hr', rfl⟩] at hget
  exact (Option.some.inj hget).symm

/-! ### Insertion -/

/-- `INSERT`; a row whose key is taken is refused. -/
def insert (t : Table α) (r : α) : Table α :=
  if h : (t.get (key r)).isSome then t
  else
    { rows := t.rows ++ [r]
      nodup := by
        rw [Option.not_isSome_iff_eq_none, get_eq_none_iff] at h
        rw [List.map_append, List.map_singleton, List.nodup_append]
        refine ⟨t.nodup, List.nodup_singleton _, ?_⟩
        intro a ha b hb hab
        obtain ⟨x, hx, rfl⟩ := List.mem_map.mp ha
        exact h x hx (hab.trans (List.mem_singleton.mp hb)) }

theorem insert_of_isSome (h : (t.get (key r)).isSome) : t.insert r = t := dif_pos h

theorem rows_insert (h : t.get (key r) = none) : (t.insert r).rows = t.rows ++ [r] := by
  rw [insert, dif_neg (by simp [h])]

theorem length_insert (h : t.get (key r) = none) : (t.insert r).rows.length = t.rows.length + 1 := by
  rw [rows_insert h, List.length_append, List.length_singleton]

theorem mem_insert {r' : α} (h : t.get (key r) = none) : r' ∈ t.insert r ↔ r' ∈ t ∨ r' = r := by
  rw [mem_def, rows_insert h, List.mem_append, List.mem_singleton, mem_def]

theorem get_insert_self (h : t.get (key r) = none) : (t.insert r).get (key r) = some r :=
  get_eq_some_iff.mpr ⟨(mem_insert h).mpr (.inr rfl), rfl⟩

theorem get_insert_of_ne (h : k ≠ key r) : (t.insert r).get k = t.get k := by
  by_cases hr : (t.get (key r)).isSome
  · rw [insert_of_isSome hr]
  · rw [Option.not_isSome_iff_eq_none] at hr
    rw [get, rows_insert hr, List.find?_append, get]
    have hlast : [r].find? (fun r => key r == k) = none := by simp [h.symm]
    rw [hlast, Option.or_none]

/-- An insertion leaves the rows that were there. -/
theorem get_insert_of_get (h : t.get k = some r) (r' : α) : (t.insert r').get k = some r := by
  by_cases hr : (t.get (key r')).isSome
  · rw [insert_of_isSome hr, h]
  · rw [get_insert_of_ne, h]
    rintro rfl
    exact hr (by rw [h]; rfl)

/-! ### Update -/

/-- `UPDATE … WHERE id = ?`; `f` must not touch the key. -/
def amend (t : Table α) (k : String) (f : α → α) (hf : ∀ r, key (f r) = key r) : Table α where
  rows := t.rows.map fun r => if key r = k then f r else r
  nodup := by
    have hkeys : (key ∘ fun r => if key r = k then f r else r) = (key : α → String) := by
      funext r
      simp only [Function.comp]
      split
      · exact hf r
      · rfl
    rw [List.map_map, hkeys]
    exact t.nodup

section Amend

variable {f : α → α} (hf : ∀ r, key (f r) = key r)

theorem mem_amend : r ∈ t.amend k f hf ↔ ∃ r' ∈ t, r = if key r' = k then f r' else r' := by
  simp only [mem_def, amend, List.mem_map, eq_comm]

/-- An update changes nothing where it writes what is there. -/
theorem amend_eq_self_iff : t.amend k f hf = t ↔ ∀ r ∈ t, key r = k → f r = r := by
  constructor
  · intro h r hr hkey
    have hmem : f r ∈ t.amend k f hf := (mem_amend hf).mpr ⟨r, hr, by rw [if_pos hkey]⟩
    rw [h] at hmem
    exact eq_of_key_eq hmem hr (hf r)
  · intro h
    apply eq_of_rows
    refine (List.map_congr_left fun r hr => ?_).trans (List.map_id _)
    split
    · rename_i hkey
      exact h r hr hkey
    · rfl

theorem get_amend (k' : String) :
    (t.amend k f hf).get k' = if k' = k then (t.get k').map f else t.get k' := by
  cases hget : t.get k' with
  | none =>
    rw [Option.map_none, ite_self, get_eq_none_iff]
    rw [get_eq_none_iff] at hget
    intro r hr
    obtain ⟨r', hr', rfl⟩ := (mem_amend hf).mp hr
    split
    · rw [hf]; exact hget r' hr'
    · exact hget r' hr'
  | some r =>
    obtain ⟨hr, rfl⟩ := get_eq_some_iff.mp hget
    by_cases hk : key r = k
    · rw [if_pos hk, Option.map_some, get_eq_some_iff]
      exact ⟨(mem_amend hf).mpr ⟨r, hr, by rw [if_pos hk]⟩, hf r⟩
    · rw [if_neg hk, get_eq_some_iff]
      exact ⟨(mem_amend hf).mpr ⟨r, hr, by rw [if_neg hk]⟩, rfl⟩

theorem get_amend_self : (t.amend k f hf).get k = (t.get k).map f := by
  rw [get_amend, if_pos rfl]

theorem get_amend_of_ne {k' : String} (h : k' ≠ k) : (t.amend k f hf).get k' = t.get k' := by
  rw [get_amend, if_neg h]

end Amend

/-! ### Deletion -/

/-- `DELETE … WHERE id = ?`. -/
def erase (t : Table α) (k : String) : Table α where
  rows := t.rows.filter fun r => key r ≠ k
  nodup := t.nodup.sublist (List.filter_sublist.map key)

theorem mem_erase : r ∈ t.erase k ↔ r ∈ t ∧ key r ≠ k := by
  simp [mem_def, erase]

theorem get_erase_self : (t.erase k).get k = none :=
  get_eq_none_iff.mpr fun _ hr => (mem_erase.mp hr).2

theorem get_erase_of_ne {k' : String} (h : k' ≠ k) : (t.erase k).get k' = t.get k' := by
  cases hget : t.get k' with
  | none =>
    rw [get_eq_none_iff] at hget ⊢
    exact fun r hr => hget r (mem_erase.mp hr).1
  | some r =>
    obtain ⟨hr, rfl⟩ := get_eq_some_iff.mp hget
    exact get_eq_some_iff.mpr ⟨mem_erase.mpr ⟨hr, h⟩, rfl⟩

/-- `DELETE … WHERE …` of the rows that `keep` does not hold of. -/
def filter (t : Table α) (keep : α → Bool) : Table α where
  rows := t.rows.filter keep
  nodup := t.nodup.sublist (List.filter_sublist.map key)

theorem mem_filter {keep : α → Bool} : r ∈ t.filter keep ↔ r ∈ t ∧ keep r = true := by
  simp [mem_def, filter]

/-- `UPDATE` of every row; `f` must not touch the key. -/
def map (t : Table α) (f : α → α) (hf : ∀ r, key (f r) = key r) : Table α where
  rows := t.rows.map f
  nodup := by
    have hkeys : (key ∘ f) = (key : α → String) := funext hf
    rw [List.map_map, hkeys]
    exact t.nodup

theorem get_map {f : α → α} (hf : ∀ r, key (f r) = key r) : (t.map f hf).get k = (t.get k).map f := by
  have hkeys : (fun r => key r == k) ∘ f = fun r => key r == k := funext fun r => by simp [hf]
  rw [get, map, List.find?_map, hkeys]
  rfl

end Table

end Krewhub
