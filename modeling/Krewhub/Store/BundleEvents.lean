import Krewhub.Store.Repositories
import Mathlib.Data.List.Pairwise

/-!
# The events of a bundle

`list_by_bundle` orders the events of all tasks of a bundle by `sequence`, which each task counts for itself
and bundle-level events do not have. What it returns is in the order of time, and a limit keeps the latest
events, for a bundle in which no event has a smaller sequence than an earlier one.
-/

namespace Krewhub

def EventRepo.listByBundle (bundleId : String) (limit : Option Nat) : Sql (List Event) :=
  match limit with
  | none => .select fun db => (db.events.rows.filter (·.bundleId == some bundleId)).mergeSort fun a b =>
      decide (a.sequence < b.sequence ∨ a.sequence = b.sequence ∧ a.createdAt ≤ b.createdAt)
  | some n => do
    let rows ← .select fun db =>
      ((db.events.rows.filter (·.bundleId == some bundleId)).mergeSort fun a b =>
        decide (b.sequence < a.sequence ∨ b.sequence = a.sequence ∧ b.createdAt ≤ a.createdAt)).take n
    return rows.reverse

def Db.bundleEvents (db : Db) (bundleId : String) : List Event :=
  db.events.rows.filter (·.bundleId == some bundleId)

/-- Events in the order of time. -/
def Chronological (events : List Event) : Prop := events.Pairwise fun a b => a.createdAt ≤ b.createdAt

/-- The `n` latest of the events, or all of them where there are fewer, in the order of time. -/
structure IsWindow (n : Nat) (events window : List Event) : Prop where
  chronological : Chronological window
  length : window.length = min n events.length
  latest : ∃ omitted, (window ++ omitted).Perm events ∧
    ∀ e ∈ window, ∀ earlier ∈ omitted, earlier.createdAt ≤ e.createdAt

/-- An event with a smaller sequence is not the later one. -/
def InTapeOrder (events : List Event) : Prop :=
  ∀ a ∈ events, ∀ b ∈ events, a.sequence < b.sequence → a.createdAt ≤ b.createdAt

section Sorted

variable {events : List Event}

private def tapeLe (a b : Event) : Bool :=
  decide (a.sequence < b.sequence ∨ a.sequence = b.sequence ∧ a.createdAt ≤ b.createdAt)

private theorem tapeLe_trans (a b c : Event) (hab : tapeLe a b = true) (hbc : tapeLe b c = true) :
    tapeLe a c = true := by
  simp only [tapeLe, decide_eq_true_eq] at *
  omega

private theorem tapeLe_total (a b : Event) : (tapeLe a b || tapeLe b a) = true := by
  simp only [tapeLe, Bool.or_eq_true, decide_eq_true_eq]
  omega

theorem InTapeOrder.createdAt_le (h : InTapeOrder events) {a b : Event} (ha : a ∈ events) (hb : b ∈ events)
    (hle : tapeLe a b = true) : a.createdAt ≤ b.createdAt := by
  simp only [tapeLe, decide_eq_true_eq] at hle
  rcases hle with hlt | ⟨-, hle⟩
  · exact h a ha b hb hlt
  · exact hle

/-- Where sorting by sequence gives the order of time, no event with a smaller sequence is the later one. -/
theorem inTapeOrder_of_chronological (h : Chronological (events.mergeSort tapeLe)) : InTapeOrder events := by
  let Orderly := fun a b : Event => a.sequence < b.sequence → a.createdAt ≤ b.createdAt
  have hforth : (events.mergeSort tapeLe).Pairwise Orderly := by
    refine List.Pairwise.imp ?_ h
    intro a b hle _
    exact hle
  have hback : (events.mergeSort tapeLe).Pairwise (flip Orderly) := by
    refine (List.pairwise_mergeSort tapeLe_trans tapeLe_total events).imp fun {a b} hle hlt => ?_
    simp only [tapeLe, decide_eq_true_eq] at hle
    omega
  intro a ha b hb
  exact List.Pairwise.forall_of_forall_of_flip (fun a _ _ => Nat.le_refl _) hforth hback
    (List.mem_mergeSort.mpr ha) (List.mem_mergeSort.mpr hb)

theorem InTapeOrder.chronological (h : InTapeOrder events) : Chronological (events.mergeSort tapeLe) := by
  refine List.Pairwise.imp_of_mem (fun ha hb hle => ?_)
    (List.pairwise_mergeSort tapeLe_trans tapeLe_total events)
  exact h.createdAt_le (List.mem_mergeSort.mp ha) (List.mem_mergeSort.mp hb) hle

theorem InTapeOrder.isWindow (h : InTapeOrder events) (n : Nat) :
    IsWindow n events ((events.mergeSort fun a b => tapeLe b a).take n).reverse := by
  have hsorted : (events.mergeSort fun a b => tapeLe b a).Pairwise fun a b => b.createdAt ≤ a.createdAt := by
    refine List.Pairwise.imp_of_mem (fun ha hb hle => ?_)
      (List.pairwise_mergeSort (fun a b c hab hbc => tapeLe_trans c b a hbc hab)
        (fun a b => tapeLe_total b a) events)
    exact h.createdAt_le (List.mem_mergeSort.mp hb) (List.mem_mergeSort.mp ha) hle
  refine ⟨?_, by simp, (events.mergeSort fun a b => tapeLe b a).drop n, ?_, ?_⟩
  · exact List.pairwise_reverse.mpr (hsorted.sublist (List.take_sublist _ _))
  · refine ((List.reverse_perm _).append_right _).trans ?_
    rw [List.take_append_drop]
    exact List.mergeSort_perm _ _
  · intro e he earlier hearlier
    rw [← List.take_append_drop n (events.mergeSort _)] at hsorted
    exact (List.pairwise_append.mp hsorted).2.2 e (List.mem_reverse.mp he) earlier hearlier

end Sorted

/-! ### The call -/

theorem run_listByBundle_none (db : Db) (bundleId : String) :
    (EventRepo.listByBundle bundleId none).run Op.exec db =
      (.ok ((db.bundleEvents bundleId).mergeSort tapeLe), db) := rfl

theorem run_listByBundle_some (db : Db) (bundleId : String) (n : Nat) :
    (EventRepo.listByBundle bundleId (some n)).run Op.exec db =
      (.ok (((db.bundleEvents bundleId).mergeSort fun a b => tapeLe b a).take n).reverse, db) := rfl

/-- What is asked of `list_by_bundle`: all events in the order of time, and for a limit the latest. -/
def ListsInTime (db : Db) (bundleId : String) : Prop :=
  (∃ events, (EventRepo.listByBundle bundleId none).run Op.exec db = (.ok events, db) ∧
    events.Perm (db.bundleEvents bundleId) ∧ Chronological events) ∧
  ∀ n, ∃ window, (EventRepo.listByBundle bundleId (some n)).run Op.exec db = (.ok window, db) ∧
    IsWindow n (db.bundleEvents bundleId) window

theorem ListsInTime.inTapeOrder {db : Db} {bundleId : String} (h : ListsInTime db bundleId) :
    InTapeOrder (db.bundleEvents bundleId) := by
  obtain ⟨⟨events, hrun, -, hchronological⟩, -⟩ := h
  rw [run_listByBundle_none] at hrun
  cases hrun
  exact inTapeOrder_of_chronological hchronological

/-- `list_by_bundle` answers by time exactly where an event with a smaller sequence is never the later
one. -/
theorem list_by_bundle_in_time_iff (db : Db) (bundleId : String) :
    ListsInTime db bundleId ↔ InTapeOrder (db.bundleEvents bundleId) := by
  refine ⟨ListsInTime.inTapeOrder, fun h => ⟨?_, fun n => ?_⟩⟩
  · exact ⟨_, run_listByBundle_none db bundleId, List.mergeSort_perm _ _, h.chronological⟩
  · exact ⟨_, run_listByBundle_some db bundleId n, h.isWindow n⟩

section Interleaved

private def tick (id taskId : String) (sequence createdAt : Nat) : Event :=
  { id, bundleId := some "b", taskId := some taskId, type := .milestone, actorId := "a",
    actorType := .agent, body := "", sequence, createdAt }

/-- Two events of one task, then the first of another. -/
private def interleaved : Db where
  bundles := ⟨[{ id := "b" }], by decide⟩
  tasks := ⟨[{ id := "t", bundleId := "b" }, { id := "u", bundleId := "b" }], by decide⟩
  events := ⟨[tick "e1" "t" 1 1, tick "e2" "t" 2 2, tick "e3" "u" 1 3], by decide⟩

theorem latest_event_left_out :
    (EventRepo.listByBundle "b" (some 1)).run Op.exec interleaved = (.ok [tick "e2" "t" 2 2], interleaved) ∧
    tick "e3" "u" 1 3 ∈ interleaved.bundleEvents "b" ∧ ¬ ListsInTime interleaved "b" := by
  refine ⟨?_, by decide, fun h => ?_⟩
  · rw [run_listByBundle_some]
    have hevents : interleaved.bundleEvents "b" = [tick "e1" "t" 1 1, tick "e2" "t" 2 2, tick "e3" "u" 1 3] := by
      decide
    rw [hevents]
    simp [List.mergeSort, tapeLe, tick]
  · exact absurd (h.inTapeOrder (tick "e3" "u" 1 3) (by decide) (tick "e2" "t" 2 2) (by decide)) (by decide)

end Interleaved

end Krewhub
