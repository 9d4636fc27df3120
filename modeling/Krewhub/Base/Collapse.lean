import Mathlib.Data.List.Basic
import Mathlib.Tactic.Common

/-!
# Collapsing a graph

Some nodes of a graph are inner nodes. A walk from a node follows the edges through inner nodes, each of
which it expands once, and collects the other nodes it comes to. It recurses once for every inner node on its
way, so a limit on the depth of the recursion is met only where there are as many inner nodes. What a walk
collects are the nodes an edge leads to when the inner nodes are taken out.
-/

namespace Krewhub

namespace Collapse

variable {α : Type} [DecidableEq α]

/-- The inner nodes that were expanded, and the other nodes in the order they were met. -/
structure Walked (α : Type) where
  visited : List α := []
  results : List α := []

section Walk

variable (succs : α → List α) (inner : α → Bool)

def follow (recurse : α → Walked α → Option (Walked α)) : List α → Walked α → Option (Walked α)
  | [], st => some st
  | x :: xs, st =>
    if inner x then (recurse x st).bind (follow recurse xs)
    else follow recurse xs { st with results := st.results ++ [x] }

/-- Expanding an inner node, to the given depth. -/
def walk : Nat → α → Walked α → Option (Walked α)
  | 0, _, _ => none
  | limit + 1, x, st =>
    if x ∈ st.visited then some st
    else follow inner (walk limit) (succs x) { st with visited := x :: st.visited }

/-- The nodes met from a node on. -/
def destinations (limit : Nat) (x : α) : Option (List α) :=
  (follow inner (walk succs inner limit) (succs x) {}).map (·.results)

/-- A path from one node to another whose intermediate nodes are all inner ones. -/
inductive Leads : α → α → Prop where
  | direct {x y : α} (hedge : y ∈ succs x) : Leads x y
  | through {x w y : α} (hedge : w ∈ succs x) (hinner : inner w = true) (hrest : Leads w y) : Leads x y

end Walk

variable {succs : α → List α} {inner : α → Bool} {recurse : α → Walked α → Option (Walked α)}
  {limit : Nat} {x y : α} {xs : List α} {st st' : Walked α}

omit [DecidableEq α] in
theorem Leads.tail (h : Leads succs inner x y) (hinner : inner y = true) {z : α} (hedge : z ∈ succs y) :
    Leads succs inner x z := by
  induction h with
  | direct hfirst => exact .through hfirst hinner (.direct hedge)
  | through hfirst hw _ ih => exact .through hfirst hw (ih hinner hedge)

/-! ### What is collected is led to -/

omit [DecidableEq α] in
theorem follow_sound {s : α}
    (hrecurse : ∀ x st st', inner x = true → Leads succs inner s x → recurse x st = some st' →
      ∀ z ∈ st'.results, z ∈ st.results ∨ inner z = false ∧ Leads succs inner s z)
    (hxs : ∀ x ∈ xs, Leads succs inner s x) (h : follow inner recurse xs st = some st') :
    ∀ z ∈ st'.results, z ∈ st.results ∨ inner z = false ∧ Leads succs inner s z := by
  induction xs generalizing st with
  | nil =>
    cases h
    exact fun z hz => .inl hz
  | cons x xs ih =>
    obtain ⟨hx, hxs⟩ := List.forall_mem_cons.mp hxs
    rw [follow] at h
    cases hinner : inner x with
    | true =>
      rw [hinner, if_pos rfl] at h
      obtain ⟨st₁, hfirst, hrest⟩ := Option.bind_eq_some_iff.mp h
      intro z hz
      rcases ih hxs hrest z hz with hold | hnew
      · exact hrecurse x st st₁ hinner hx hfirst z hold
      · exact .inr hnew
    | false =>
      rw [hinner, if_neg Bool.false_ne_true] at h
      intro z hz
      rcases ih hxs h z hz with hold | hnew
      · rcases List.mem_append.mp hold with hold | hz
        · exact .inl hold
        · rw [List.mem_singleton.mp hz]
          exact .inr ⟨hinner, hx⟩
      · exact .inr hnew

theorem walk_sound {s : α} (hinner : inner x = true) (hx : Leads succs inner s x)
    (h : walk succs inner limit x st = some st') :
    ∀ z ∈ st'.results, z ∈ st.results ∨ inner z = false ∧ Leads succs inner s z := by
  induction limit generalizing x st st' with
  | zero => cases h
  | succ limit ih =>
    rw [walk] at h
    split at h
    · cases h
      exact fun z hz => .inl hz
    · have hsound := follow_sound (fun x st st' hinner hx h => ih hinner hx h)
        (fun y hy => hx.tail hinner hy) h
      exact hsound

/-! ### What is led to is collected -/

/-- Nothing more is to be done about a node. -/
def Handled (inner : α → Bool) (st : Walked α) (x : α) : Prop :=
  if inner x then x ∈ st.visited else x ∈ st.results

/-- A part of a walk: nothing that was found is lost, the nodes it was to follow are handled, and so is
whatever comes after an inner node it has expanded. -/
structure Walks (succs : α → List α) (inner : α → Bool) (xs : List α) (st st' : Walked α) : Prop where
  visited : ∀ z ∈ st.visited, z ∈ st'.visited
  results : ∀ z ∈ st.results, z ∈ st'.results
  handled : ∀ x ∈ xs, Handled inner st' x
  closed : ∀ z ∈ st'.visited, z ∉ st.visited → ∀ y ∈ succs z, Handled inner st' y

omit [DecidableEq α] in
theorem Walks.refl : Walks succs inner [] st st :=
  ⟨fun _ hz => hz, fun _ hz => hz, nofun, fun _ hz hnew => absurd hz hnew⟩

omit [DecidableEq α] in
theorem Walks.mono (h : Walks succs inner xs st st') (hx : Handled inner st x) : Handled inner st' x := by
  unfold Handled at *
  cases hinner : inner x with
  | true =>
    rw [hinner, if_pos rfl] at hx
    exact h.visited x hx
  | false =>
    rw [hinner, if_neg Bool.false_ne_true] at hx
    exact h.results x hx

omit [DecidableEq α] in
theorem Walks.trans {st₁ : Walked α} (hfirst : Walks succs inner [x] st st₁)
    (hrest : Walks succs inner xs st₁ st') : Walks succs inner (x :: xs) st st' where
  visited z hz := hrest.visited z (hfirst.visited z hz)
  results z hz := hrest.results z (hfirst.results z hz)
  handled := List.forall_mem_cons.mpr
    ⟨hrest.mono (hfirst.handled x (List.mem_singleton_self x)), hrest.handled⟩
  closed z hz hnew y hy := by
    by_cases hold : z ∈ st₁.visited
    · exact hrest.mono (hfirst.closed z hold hnew y hy)
    · exact hrest.closed z hz hold y hy

omit [DecidableEq α] in
theorem walks_follow
    (hrecurse : ∀ x st st', inner x = true → recurse x st = some st' → Walks succs inner [x] st st')
    (h : follow inner recurse xs st = some st') : Walks succs inner xs st st' := by
  induction xs generalizing st with
  | nil =>
    cases h
    exact .refl
  | cons x xs ih =>
    rw [follow] at h
    cases hinner : inner x with
    | true =>
      rw [hinner, if_pos rfl] at h
      obtain ⟨st₁, hfirst, hrest⟩ := Option.bind_eq_some_iff.mp h
      exact (hrecurse x st st₁ hinner hfirst).trans (ih hrest)
    | false =>
      rw [hinner, if_neg Bool.false_ne_true] at h
      have hfirst : Walks succs inner [x] st { st with results := st.results ++ [x] } := by
        refine ⟨fun _ hz => hz, fun z hz => List.mem_append_left _ hz, fun y hy => ?_,
          fun _ hz hnew => absurd hz hnew⟩
        rw [List.mem_singleton.mp hy, Handled, hinner, if_neg Bool.false_ne_true]
        exact List.mem_append_right _ (List.mem_singleton_self x)
      exact hfirst.trans (ih h)

theorem walks_walk (hinner : inner x = true) (h : walk succs inner limit x st = some st') :
    Walks succs inner [x] st st' := by
  induction limit generalizing x st st' with
  | zero => cases h
  | succ limit ih =>
    rw [walk] at h
    split at h
    · rename_i hvisited
      cases h
      refine ⟨fun _ hz => hz, fun _ hz => hz, fun y hy => ?_, fun _ hz hnew => absurd hz hnew⟩
      rw [List.mem_singleton.mp hy, Handled, hinner, if_pos rfl]
      exact hvisited
    · have hwalks := walks_follow (fun x st st' hinner h => ih hinner h) h
      refine ⟨fun z hz => hwalks.visited z (List.mem_cons_of_mem _ hz), hwalks.results, fun y hy => ?_,
        fun z hz hnew y hy => ?_⟩
      · rw [List.mem_singleton.mp hy, Handled, hinner, if_pos rfl]
        exact hwalks.visited x List.mem_cons_self
      · by_cases hzx : z = x
        · rw [hzx] at hy
          exact hwalks.handled y hy
        · exact hwalks.closed z hz (by simp [hzx, hnew]) y hy

/-- A walk that ends has collected the nodes its start leads to. -/
theorem mem_destinations_iff {ds : List α} (h : destinations succs inner limit x = some ds) :
    y ∈ ds ↔ inner y = false ∧ Leads succs inner x y := by
  obtain ⟨st', hfollow, rfl⟩ := Option.map_eq_some_iff.mp h
  have hwalks := walks_follow (fun x st st' hinner h => walks_walk hinner h) hfollow
  have hclosed : ∀ z ∈ st'.visited, ∀ y ∈ succs z, Handled inner st' y :=
    fun z hz => hwalks.closed z hz List.not_mem_nil
  constructor
  · intro hy
    have hsound := follow_sound (fun x st st' hinner hx h => walk_sound hinner hx h)
      (fun z hz => Leads.direct hz) hfollow y hy
    exact hsound.resolve_left List.not_mem_nil
  · rintro ⟨hy, hleads⟩
    have hhandled := hwalks.handled
    clear hfollow hwalks h
    induction hleads with
    | direct hedge => simpa [Handled, hy] using hhandled _ hedge
    | through hedge hinner _ ih =>
      have hvisited := hhandled _ hedge
      rw [Handled, hinner, if_pos rfl] at hvisited
      exact ih hy (hclosed _ hvisited)

/-! ### The depth of the recursion -/

/-- How many of the inner nodes are yet to be expanded. -/
def unvisited (inners : List α) (st : Walked α) : Nat := (inners.filter (· ∉ st.visited)).length

theorem unvisited_le {inners : List α} (h : ∀ z ∈ st.visited, z ∈ st'.visited) :
    unvisited inners st' ≤ unvisited inners st := by
  refine (List.monotone_filter_right inners fun z hz => ?_).length_le
  simp only [decide_eq_true_eq] at hz ⊢
  exact fun hold => hz (h z hold)

theorem unvisited_cons_lt {inners : List α} (hx : x ∈ inners) (hnew : x ∉ st.visited) :
    unvisited inners { st with visited := x :: st.visited } < unvisited inners st := by
  refine Nat.lt_of_le_of_ne (unvisited_le fun z hz => List.mem_cons_of_mem _ hz) fun heq => ?_
  have hsub : inners.filter (· ∉ x :: st.visited) = inners.filter (· ∉ st.visited) := by
    refine List.Sublist.eq_of_length (List.monotone_filter_right inners fun z hz => ?_) heq
    simp only [List.mem_cons, not_or, decide_eq_true_eq] at hz ⊢
    exact hz.2
  have hmem : x ∈ inners.filter (· ∉ st.visited) := by simp [hx, hnew]
  rw [← hsub] at hmem
  simp at hmem

theorem isSome_follow {inners : List α} (hinners : ∀ z ∈ xs, inner z = true → z ∈ inners)
    (hrecurse : ∀ x st, inner x = true → x ∈ inners → unvisited inners st < limit →
      ∃ st', recurse x st = some st' ∧ ∀ z ∈ st.visited, z ∈ st'.visited)
    (h : unvisited inners st < limit) : ∃ st', follow inner recurse xs st = some st' ∧
      ∀ z ∈ st.visited, z ∈ st'.visited := by
  induction xs generalizing st with
  | nil => exact ⟨st, rfl, fun _ hz => hz⟩
  | cons x xs ih =>
    obtain ⟨hx, hxs⟩ := List.forall_mem_cons.mp hinners
    rw [follow]
    cases hinner : inner x with
    | true =>
      obtain ⟨st₁, hfirst, hmono⟩ := hrecurse x st hinner (hx hinner) h
      obtain ⟨st', hrest, hmono'⟩ := ih hxs (Nat.lt_of_le_of_lt (unvisited_le hmono) h)
      refine ⟨st', ?_, fun z hz => hmono' z (hmono z hz)⟩
      rw [if_pos rfl, hfirst]
      exact hrest
    | false =>
      rw [if_neg Bool.false_ne_true]
      exact ih hxs h

theorem isSome_walk {inners : List α} (hinners : ∀ x, ∀ z ∈ succs x, inner z = true → z ∈ inners)
    (hx : x ∈ inners) (h : unvisited inners st < limit) :
    ∃ st', walk succs inner limit x st = some st' ∧ ∀ z ∈ st.visited, z ∈ st'.visited := by
  induction limit generalizing x st with
  | zero => cases h
  | succ limit ih =>
    rw [walk]
    split
    · exact ⟨st, rfl, fun _ hz => hz⟩
    · rename_i hnew
      obtain ⟨st', hfollow, hmono⟩ := isSome_follow (hinners x) (fun y st _ hy hlt => ih hy hlt)
        (Nat.lt_of_lt_of_le (unvisited_cons_lt hx hnew) (Nat.le_of_lt_succ h))
      exact ⟨st', hfollow, fun z hz => hmono z (List.mem_cons_of_mem _ hz)⟩

/-- The limit is met only where there are as many inner nodes. -/
theorem exists_destinations {inners : List α} (hinners : ∀ x, ∀ z ∈ succs x, inner z = true → z ∈ inners)
    (h : inners.length < limit) (x : α) : ∃ ds, destinations succs inner limit x = some ds := by
  have hlt : unvisited inners {} < limit := Nat.lt_of_le_of_lt (List.length_filter_le _ _) h
  obtain ⟨st', hfollow, -⟩ := isSome_follow (hinners x) (fun y st _ hy hlt => isSome_walk hinners hy hlt) hlt
  exact ⟨st'.results, by rw [destinations, hfollow]; rfl⟩

end Collapse

end Krewhub
