import Krewhub.Base.Interleave
import Krewhub.Graph.Runner

/-!
# Reservations

`GraphRunnerController`: a pass of `reconcile` lists the runnable bundles and creates a task for each of
them that is not in flight. The reservation of a bundle is given back twice, by the task when it ends and
by the callback the event loop calls some time after that, and between the two a pass may reserve the bundle
again; and what a pass has listed may have changed when it goes through the list. Where neither happens
there is one task at most for every bundle, and none without a reservation.
-/

namespace Krewhub

/-- The controller and what it works on: the bundles in flight, the tasks that are created, live, or at an
end with their callback still to come, each with its bundle, and what the passes have listed. -/
structure RunnerLoop where
  db : Db
  shared : Nat → OrchestratorState
  grace : Nat := 10
  inFlight : List String := []
  created : Nat := 0
  live : List (Nat × String) := []
  ended : List (Nat × String) := []
  listed : List (Nat × List Bundle) := []

/-- The turns of the controller: what `reconcile` does before, at and after its `await`, the start of a
task, what its run awaits, its `finally`, and its callback. -/
inductive LoopOp where
  | enter
  | list (pass : Nat)
  | spawn (pass : Nat)
  | start (k : Nat)
  | body (k : Nat) (op : RunnerOp)
  | finish (k : Nat)
  | callback (k : Nat)

/-- What `list_runnable` returns. -/
def runnableBundles (db : Db) : List Bundle :=
  match (BundleRepo.listRunnable.run Op.exec db).1 with
  | .ok candidates => candidates
  | .error _ => []

/-- The bundle would be listed now. -/
def Runnable (db : Db) (bundleId : String) : Prop :=
  (db.bundles.get bundleId).any BundleRepo.isRunnable = true

instance (db : Db) (bundleId : String) : Decidable (Runnable db bundleId) :=
  inferInstanceAs (Decidable (_ = true))

/-- The candidates the loop of `reconcile` takes, one after the other. -/
def takeCandidates (maxConcurrent : Nat) : List String → List Bundle → List String
  | _, [] => []
  | inFlight, bundle :: candidates =>
    if bundle.id ∈ inFlight then takeCandidates maxConcurrent inFlight candidates
    else if maxConcurrent ≤ inFlight.length then []
    else bundle.id :: takeCandidates maxConcurrent (bundle.id :: inFlight) candidates

namespace RunnerLoop

/-- The candidates a pass holds. -/
def candidates (s : RunnerLoop) (pass : Nat) : List Bundle := (s.listed.lookup pass).getD []

/-- `_spawn_runner`. -/
def spawnRunner (s : RunnerLoop) (bundleId : String) : RunnerLoop :=
  { s with
    inFlight := bundleId :: s.inFlight
    created := s.created + 1
    live := s.live ++ [(s.created, bundleId)] }

def exec (maxConcurrent : Nat) (op : LoopOp) (s : RunnerLoop) : RunnerLoop :=
  match op with
  | .enter => { s with grace := s.grace - 1 }
  | .list pass => { s with listed := (pass, runnableBundles s.db) :: s.listed }
  | .spawn pass =>
    (takeCandidates maxConcurrent s.inFlight (s.candidates pass)).foldl spawnRunner
      { s with listed := s.listed.filter (·.1 ≠ pass) }
  | .start _ => s
  | .body k op =>
    let after := op.exec ⟨s.db, s.shared k⟩
    { s with db := after.db, shared := Function.update s.shared k after.shared }
  | .finish k =>
    match s.live.lookup k with
    | none => s
    | some bundleId =>
      { s with
        inFlight := s.inFlight.filter (· ≠ bundleId)
        live := s.live.filter (·.1 ≠ k)
        ended := (k, bundleId) :: s.ended }
  | .callback k =>
    match s.ended.lookup k with
    | none => s
    | some bundleId =>
      { s with
        inFlight := s.inFlight.filter (· ≠ bundleId)
        ended := s.ended.filter (·.1 ≠ k) }

end RunnerLoop

/-! ### The coroutines -/

/-- A coroutine of the event loop. -/
abbrev Looped (α : Type) := Coro RunnerLoop LoopOp Exn α

/-- One pass of `reconcile`. -/
def reconcileRunners (maxConcurrent pass : Nat) : Looped Unit := do
  let goes ← .perform .enter fun s => s.grace == 0 && decide (s.inFlight.length < maxConcurrent)
  if goes then
    .perform (.list pass) fun _ => ()
    .perform (.spawn pass) fun _ => ()

/-- The task with this number: the run of its bundle and the `finally` after it. -/
def runnerTask (run : GraphRun) (k : Nat) (d : Draws) : Looped Unit := do
  match ← .perform (.start k) fun s => s.live.lookup k with
  | none => return ()
  | some bundleId =>
    let _ ← ((runOneBundle run bundleId d).within (fun s => ⟨s.db, s.shared k⟩) (.body k)).attempt
    .perform (.finish k) fun _ => ()

/-- The coroutines beside the controller: its passes, its tasks, their callbacks, and the others, each with
the run whose shared state it sees. -/
inductive LoopThread where
  | pass (n : Nat)
  | task (k : Nat)
  | callback (k : Nat)
  | beside (j : Nat)
  deriving DecidableEq, Repr

/-- The pool of the event loop; a task or a callback that comes to its turn before it is there does
nothing. -/
def loopPool (maxConcurrent : Nat) (runs : Nat → GraphRun) (d : Nat → Draws)
    (others : Nat → Nat × Runtime Unit) (s : RunnerLoop) : Pool LoopThread RunnerLoop LoopOp Exn Unit :=
  .init (fun
    | .pass n => reconcileRunners maxConcurrent n
    | .task k => runnerTask (runs k) k (d k)
    | .callback k => .perform (.callback k) fun _ => ()
    | .beside j => (Runner.other (others j).2).within (fun s => ⟨s.db, s.shared (others j).1⟩)
        (.body (others j).1)) s

/-! ### Undisturbed schedules -/

/-- A bundle that a pass has listed stays runnable or in flight until the pass goes through its list, and no
task is created for a bundle whose callback is still to come. -/
def Undisturbed (maxConcurrent : Nat) (s : RunnerLoop) (_ : LoopThread) : LoopOp → Prop
  | .body k op => ∀ l ∈ s.listed, ∀ b ∈ l.2, b.id ∉ s.inFlight → Runnable s.db b.id →
      Runnable (op.exec ⟨s.db, s.shared k⟩).db b.id
  | .finish k => ∀ bundleId ∈ s.live.lookup k, ∀ l ∈ s.listed, ∀ b ∈ l.2, b.id = bundleId →
      Runnable s.db bundleId
  | .spawn pass => ∀ bundleId ∈ takeCandidates maxConcurrent s.inFlight (s.candidates pass),
      bundleId ∉ s.ended.map (·.2)
  | _ => True

instance (maxConcurrent : Nat) (s : RunnerLoop) (i : LoopThread) :
    DecidablePred (Undisturbed maxConcurrent s i) := by
  intro op
  unfold Undisturbed
  split <;> infer_instance

/-- A task is created only for a bundle that is runnable then. -/
def SpawnsRunnable (maxConcurrent : Nat) (s : RunnerLoop) (_ : LoopThread) : LoopOp → Prop
  | .spawn pass => ∀ bundleId ∈ takeCandidates maxConcurrent s.inFlight (s.candidates pass),
      Runnable s.db bundleId
  | _ => True

instance (maxConcurrent : Nat) (s : RunnerLoop) (i : LoopThread) :
    DecidablePred (SpawnsRunnable maxConcurrent s i) := by
  intro op
  unfold SpawnsRunnable
  split <;> infer_instance

/-! ### The reservations -/

/-- The bundles in flight are those of the live tasks, each has one, and what a pass holds is runnable or in
flight. -/
structure Reserved (maxConcurrent : Nat) (s : RunnerLoop) : Prop where
  capacity : s.inFlight.length ≤ maxConcurrent
  numbers : (s.live.map (·.1)).Nodup
  created : ∀ e ∈ s.live, e.1 < s.created
  bundles : (s.live.map (·.2)).Nodup
  flight : ∀ bundleId, bundleId ∈ s.inFlight ↔ bundleId ∈ s.live.map (·.2)
  ended : ∀ e ∈ s.ended, e.2 ∉ s.inFlight
  held : ∀ l ∈ s.listed, ∀ b ∈ l.2, b.id ∈ s.inFlight ∨ Runnable s.db b.id

theorem mem_runnableBundles {db : Db} {b : Bundle} (h : b ∈ runnableBundles db) : Runnable db b.id := by
  rw [runnableBundles, BundleRepo.listRunnable, Sql.run_select] at h
  rw [List.mem_mergeSort, List.mem_filter] at h
  have hget : db.bundles.get b.id = some b := Table.get_eq_some_iff.mpr ⟨h.1, rfl⟩
  rw [Runnable, hget, Option.any_some]
  exact h.2

theorem mem_candidates {s : RunnerLoop} {pass : Nat} {b : Bundle} (h : b ∈ s.candidates pass) :
    ∃ l ∈ s.listed, b ∈ l.2 := by
  rw [RunnerLoop.candidates] at h
  cases hlookup : s.listed.lookup pass with
  | none =>
    rw [hlookup] at h
    cases h
  | some l =>
    rw [hlookup] at h
    exact ⟨(pass, l), mem_of_lookup hlookup, h⟩

/-- The candidates that get a task are among those that are listed, are not in flight, differ, and fit. -/
theorem takeCandidates_spec {maxConcurrent : Nat} {inFlight : List String} {candidates : List Bundle}
    (hroom : inFlight.length ≤ maxConcurrent) :
    (∀ bundleId ∈ takeCandidates maxConcurrent inFlight candidates,
      bundleId ∉ inFlight ∧ ∃ b ∈ candidates, b.id = bundleId) ∧
    (takeCandidates maxConcurrent inFlight candidates).Nodup ∧
    inFlight.length + (takeCandidates maxConcurrent inFlight candidates).length ≤ maxConcurrent := by
  induction candidates generalizing inFlight with
  | nil => exact ⟨nofun, List.nodup_nil, hroom⟩
  | cons b candidates ih =>
    rw [takeCandidates]
    split
    · obtain ⟨hmem, hnodup, hlength⟩ := ih hroom
      refine ⟨fun bundleId h => ⟨(hmem bundleId h).1, ?_⟩, hnodup, hlength⟩
      obtain ⟨b', hb', hid⟩ := (hmem bundleId h).2
      exact ⟨b', .tail _ hb', hid⟩
    · rename_i hfree
      split
      · exact ⟨nofun, List.nodup_nil, hroom⟩
      · rename_i hfull
        have hroom' : (b.id :: inFlight).length ≤ maxConcurrent := by
          rw [List.length_cons]
          omega
        obtain ⟨hmem, hnodup, hlength⟩ := ih hroom'
        refine ⟨fun bundleId h => ?_, ?_, ?_⟩
        · rcases List.mem_cons.mp h with rfl | h
          · exact ⟨hfree, b, .head _, rfl⟩
          · obtain ⟨hnew, b', hb', hid⟩ := hmem bundleId h
            exact ⟨fun hold => hnew (.tail _ hold), b', .tail _ hb', hid⟩
        · exact List.nodup_cons.mpr ⟨fun h => (hmem b.id h).1 (.head _), hnodup⟩
        · rw [List.length_cons] at hlength ⊢
          omega

namespace Reserved

variable {maxConcurrent : Nat} {s : RunnerLoop}

/-- One more task, for a bundle that is not in flight and has no callback to come. -/
theorem spawnRunner {bundleId : String} (h : Reserved maxConcurrent s) (hfree : bundleId ∉ s.inFlight)
    (hended : bundleId ∉ s.ended.map (·.2)) (hroom : s.inFlight.length < maxConcurrent) :
    Reserved maxConcurrent (s.spawnRunner bundleId) where
  capacity := hroom
  numbers := by
    show ((s.live ++ [(s.created, bundleId)]).map (·.1)).Nodup
    rw [List.map_append, List.nodup_append]
    refine ⟨h.numbers, List.nodup_singleton _, fun n hn n' hn' => ?_⟩
    obtain ⟨e, he, rfl⟩ := List.mem_map.mp hn
    obtain rfl := List.mem_singleton.mp hn'
    exact Nat.ne_of_lt (h.created e he)
  created e he := by
    show e.1 < s.created + 1
    rcases List.mem_append.mp he with he | he
    · exact Nat.lt_succ_of_lt (h.created e he)
    · rw [List.mem_singleton.mp he]
      exact Nat.lt_succ_self _
  bundles := by
    show ((s.live ++ [(s.created, bundleId)]).map (·.2)).Nodup
    rw [List.map_append, List.nodup_append]
    refine ⟨h.bundles, List.nodup_singleton _, fun b hb b' hb' => ?_⟩
    obtain rfl := List.mem_singleton.mp hb'
    rintro rfl
    exact hfree ((h.flight _).mpr hb)
  flight b := by
    show b ∈ bundleId :: s.inFlight ↔ b ∈ (s.live ++ [(s.created, bundleId)]).map (·.2)
    rw [List.map_append, List.mem_append, List.mem_cons, h.flight, or_comm]
    simp
  ended e he := by
    show e.2 ∉ bundleId :: s.inFlight
    rw [List.mem_cons, not_or]
    exact ⟨fun heq => hended (heq ▸ List.mem_map_of_mem he), h.ended e he⟩
  held l hl b hb := (h.held l hl b hb).imp (.tail _) id

theorem spawnAll {bundleIds : List String} (h : Reserved maxConcurrent s) (hnodup : bundleIds.Nodup)
    (hfree : ∀ b ∈ bundleIds, b ∉ s.inFlight) (hended : ∀ b ∈ bundleIds, b ∉ s.ended.map (·.2))
    (hroom : s.inFlight.length + bundleIds.length ≤ maxConcurrent) :
    Reserved maxConcurrent (bundleIds.foldl RunnerLoop.spawnRunner s) := by
  induction bundleIds generalizing s with
  | nil => exact h
  | cons bundleId bundleIds ih =>
    rw [List.nodup_cons] at hnodup
    rw [List.length_cons] at hroom
    have hnext := h.spawnRunner (hfree bundleId (.head _)) (hended bundleId (.head _)) (by omega)
    refine ih hnext hnodup.2 (fun b hb => ?_) (fun b hb => hended b (.tail _ hb)) ?_
    · show b ∉ bundleId :: s.inFlight
      rw [List.mem_cons, not_or]
      exact ⟨fun heq => hnodup.1 (heq ▸ hb), hfree b (.tail _ hb)⟩
    · show (bundleId :: s.inFlight).length + bundleIds.length ≤ maxConcurrent
      rw [List.length_cons]
      omega

/-- The other live tasks have other numbers, and other bundles. -/
theorem number_ne_iff {k : Nat} {bundleId : String} (h : Reserved maxConcurrent s)
    (hlive : (k, bundleId) ∈ s.live) {e : Nat × String} (he : e ∈ s.live) : e.1 ≠ k ↔ e.2 ≠ bundleId := by
  refine not_congr ⟨fun hk => ?_, fun hb => ?_⟩
  · rw [List.inj_on_of_nodup_map h.numbers he hlive hk]
  · rw [List.inj_on_of_nodup_map h.bundles he hlive hb]

theorem finish {k : Nat} {bundleId : String} (h : Reserved maxConcurrent s)
    (hlive : s.live.lookup k = some bundleId)
    (hheld : ∀ l ∈ s.listed, ∀ b ∈ l.2, b.id = bundleId → Runnable s.db bundleId) :
    Reserved maxConcurrent (RunnerLoop.exec maxConcurrent (.finish k) s) := by
  have hmem := mem_of_lookup hlive
  have hexec : RunnerLoop.exec maxConcurrent (.finish k) s =
      { s with
        inFlight := s.inFlight.filter (· ≠ bundleId)
        live := s.live.filter (·.1 ≠ k)
        ended := (k, bundleId) :: s.ended } := by
    rw [RunnerLoop.exec, hlive]
  have hsub : (s.live.filter (·.1 ≠ k)).Sublist s.live := List.filter_sublist
  rw [hexec]
  refine ⟨?_, ?_, fun e he => h.created e (hsub.subset he), ?_, fun b => ?_, fun e he => ?_,
    fun l hl b hb => ?_⟩
  · exact Nat.le_trans (List.length_filter_le _ _) h.capacity
  · exact h.numbers.sublist (hsub.map _)
  · exact h.bundles.sublist (hsub.map _)
  · dsimp only
    rw [List.mem_filter, h.flight, List.mem_map, List.mem_map, decide_eq_true_iff]
    refine ⟨?_, ?_⟩
    · rintro ⟨⟨e, he, rfl⟩, hne⟩
      exact ⟨e, List.mem_filter.mpr ⟨he, decide_eq_true ((h.number_ne_iff hmem he).mpr hne)⟩, rfl⟩
    · rintro ⟨e, he, rfl⟩
      obtain ⟨he, hne⟩ := List.mem_filter.mp he
      exact ⟨⟨e, he, rfl⟩, (h.number_ne_iff hmem he).mp (of_decide_eq_true hne)⟩
  · dsimp only
    rw [List.mem_filter, decide_eq_true_iff]
    rcases List.mem_cons.mp he with rfl | he
    · exact fun hflight => hflight.2 rfl
    · exact fun hflight => h.ended e he hflight.1
  · dsimp only
    rw [List.mem_filter, decide_eq_true_iff]
    by_cases hb' : b.id = bundleId
    · exact .inr (hb' ▸ hheld l hl b hb hb')
    · exact (h.held l hl b hb).imp (fun hflight => ⟨hflight, hb'⟩) id

theorem callback {k : Nat} (h : Reserved maxConcurrent s) :
    Reserved maxConcurrent (RunnerLoop.exec maxConcurrent (.callback k) s) := by
  cases hended : s.ended.lookup k with
  | none =>
    have hexec : RunnerLoop.exec maxConcurrent (.callback k) s = s := by rw [RunnerLoop.exec, hended]
    rwa [hexec]
  | some bundleId =>
    have hfree : bundleId ∉ s.inFlight := h.ended _ (mem_of_lookup hended)
    have hsame : s.inFlight.filter (· ≠ bundleId) = s.inFlight := by
      rw [List.filter_eq_self]
      exact fun b hb => decide_eq_true fun heq => hfree (heq ▸ hb)
    have hexec : RunnerLoop.exec maxConcurrent (.callback k) s =
        { s with ended := s.ended.filter (·.1 ≠ k) } := by
      rw [RunnerLoop.exec, hended]
      dsimp only
      rw [hsame]
    rw [hexec]
    exact ⟨h.capacity, h.numbers, h.created, h.bundles, h.flight,
      fun e he => h.ended e (List.mem_of_mem_filter he), h.held⟩

theorem exec {i : LoopThread} {op : LoopOp} (h : Reserved maxConcurrent s)
    (hop : Undisturbed maxConcurrent s i op) : Reserved maxConcurrent (RunnerLoop.exec maxConcurrent op s) := by
  cases op with
  | enter => exact ⟨h.capacity, h.numbers, h.created, h.bundles, h.flight, h.ended, h.held⟩
  | list pass =>
    refine ⟨h.capacity, h.numbers, h.created, h.bundles, h.flight, h.ended, fun l hl b hb => ?_⟩
    rcases List.mem_cons.mp hl with rfl | hl
    · exact .inr (mem_runnableBundles hb)
    · exact h.held l hl b hb
  | spawn pass =>
    obtain ⟨hmem, hnodup, hlength⟩ := @takeCandidates_spec _ _ (s.candidates pass) h.capacity
    have hpass : Reserved maxConcurrent { s with listed := s.listed.filter (·.1 ≠ pass) } :=
      ⟨h.capacity, h.numbers, h.created, h.bundles, h.flight, h.ended,
        fun l hl => h.held l (List.mem_of_mem_filter hl)⟩
    exact hpass.spawnAll hnodup (fun b hb => (hmem b hb).1) hop hlength
  | start => exact h
  | body k op =>
    refine ⟨h.capacity, h.numbers, h.created, h.bundles, h.flight, h.ended, fun l hl b hb => ?_⟩
    by_cases hflight : b.id ∈ s.inFlight
    · exact .inl hflight
    · exact .inr (hop l hl b hb hflight ((h.held l hl b hb).resolve_left hflight))
  | finish k =>
    cases hlive : s.live.lookup k with
    | none =>
      have hexec : RunnerLoop.exec maxConcurrent (.finish k) s = s := by rw [RunnerLoop.exec, hlive]
      rwa [hexec]
    | some bundleId => exact h.finish hlive (hop bundleId hlive)
  | callback k => exact h.callback

theorem spawnsRunnable {i : LoopThread} {op : LoopOp} (h : Reserved maxConcurrent s) :
    SpawnsRunnable maxConcurrent s i op := by
  cases op
  case spawn pass =>
    intro bundleId hmem
    obtain ⟨hfree, b, hb, rfl⟩ := (takeCandidates_spec h.capacity).1 bundleId hmem
    obtain ⟨l, hl, hb⟩ := mem_candidates hb
    exact (h.held l hl b hb).resolve_left hfree
  all_goals trivial

theorem length_live (h : Reserved maxConcurrent s) : s.live.length ≤ maxConcurrent := by
  have hle : (s.live.map (·.2)).length ≤ s.inFlight.length :=
    h.bundles.length_le_of_subset fun b hb => (h.flight b).mpr hb
  rw [List.length_map] at hle
  exact Nat.le_trans hle h.capacity

end Reserved

/-! ### Every schedule -/

/-- A controller that has created no task yet. -/
def RunnerLoop.initial (db : Db) (shared : Nat → OrchestratorState) (grace : Nat) : RunnerLoop :=
  { db := db, shared := shared, grace := grace }

def loopProtocol : Protocol LoopThread RunnerLoop LoopOp Unit Unit where
  start := ()
  allowed _ _ _ := True
  advance _ _ _ := ()
  final _ _ _ := True

/-- Whatever the order of the turns: where the passes are undisturbed, every bundle has one live task at
most, no more than `max_concurrent` are live, the bundle of each is in flight, and each was runnable when
its task was created. -/
theorem reservations_hold (maxConcurrent : Nat) (runs : Nat → GraphRun) (d : Nat → Draws)
    (others : Nat → Nat × Runtime Unit) (db : Db) (shared : Nat → OrchestratorState) (grace : Nat)
    (schedule : List LoopThread)
    (hundisturbed : Pool.Along (RunnerLoop.exec maxConcurrent) id (Undisturbed maxConcurrent)
      (loopPool maxConcurrent runs d others (.initial db shared grace)) (schedule.map .run)) :
    let reached := ((loopPool maxConcurrent runs d others (.initial db shared grace)).run
      (RunnerLoop.exec maxConcurrent) id (schedule.map .run)).state
    (reached.live.map (·.2)).Nodup ∧ reached.live.length ≤ maxConcurrent ∧
      (∀ e ∈ reached.live, e.2 ∈ reached.inFlight) ∧
      Pool.Along (RunnerLoop.exec maxConcurrent) id (SpawnsRunnable maxConcurrent)
        (loopPool maxConcurrent runs d others (.initial db shared grace)) (schedule.map .run) := by
  intro reached
  have hstart : Reserved maxConcurrent (.initial db shared grace) :=
    ⟨Nat.zero_le _, List.nodup_nil, nofun, List.nodup_nil, fun b => Iff.rfl, nofun, nofun⟩
  have hobeys : Pool.Obeys loopProtocol
      (loopPool maxConcurrent runs d others (.initial db shared grace)) fun _ => () :=
    Pool.obeys_init (fun _ => .of_every_free (Coro.every_true _) (fun _ _ _ => trivial)
      fun _ _ => trivial) _
  obtain ⟨⟨_, -, hreached⟩, halong⟩ := Pool.inv_along (I := fun s _ => Reserved maxConcurrent s)
    (K := fun _ => True) (fun s q i op h _ hop => h.exec hop) (fun s q h _ => ⟨q, h, fun _ _ => rfl⟩)
    hobeys hstart hundisturbed (Pool.crashesMeet_of_forall (fun _ => trivial) _)
  exact ⟨hreached.bundles, hreached.length_live,
    fun e he => (hreached.flight _).mpr (List.mem_map_of_mem he),
    halong.mono fun s i op ⟨_, h, _⟩ => h.spawnsRunnable⟩

/-! ### One bundle -/

/-- The bundle has no cookbook, so its run is over soon. -/
def runnableDb : Db where
  bundles := (∅ : Table Bundle).insert { id := "bun_1", graphCode := some "graph = builder.build()" }

/-- A user reopens the bundle, and another closes it. -/
def bundleUsers : Nat → Nat × Runtime Unit
  | 0 => (0, .sql (discard (BundleRepo.reopenForRerun "bun_1")))
  | _ => (0, .sql (discard (BundleRepo.updateStatus "bun_1" .closed none none none none none)))

def oneBundleLoop : RunnerLoop := .initial runnableDb (fun _ => { bundleId := "bun_1" }) 0

def oneBundlePool : Pool LoopThread RunnerLoop LoopOp Exn Unit :=
  loopPool 2 (fun _ => {}) (fun k => pathDraws (Char.ofNat (97 + k))) bundleUsers oneBundleLoop

def afterLoop (schedule : List LoopThread) : RunnerLoop :=
  (oneBundlePool.run (RunnerLoop.exec 2) id (schedule.map .run)).state

/-- The bundle runs, its task ends and is called back, and it is reopened and runs again. -/
def runTwice : List LoopThread :=
  List.replicate 3 (.pass 0) ++ List.replicate 14 (.task 0) ++ [.callback 0] ++
    List.replicate 3 (.beside 0) ++ List.replicate 3 (.pass 1) ++ List.replicate 4 (.task 1)

theorem reservations_hold_twice :
    ((afterLoop runTwice).live.map (·.2)).Nodup ∧ (afterLoop runTwice).live.length ≤ 2 ∧
      (∀ e ∈ (afterLoop runTwice).live, e.2 ∈ (afterLoop runTwice).inFlight) ∧
      Pool.Along (RunnerLoop.exec 2) id (SpawnsRunnable 2) oneBundlePool (runTwice.map .run) :=
  reservations_hold 2 (fun _ => {}) (fun k => pathDraws (Char.ofNat (97 + k))) bundleUsers runnableDb
    (fun _ => { bundleId := "bun_1" }) 0 runTwice (by decide +kernel)

/-- The bundle is reopened while it runs, and a pass that has listed it goes on between the end of its task
and the callback. -/
def reservedBetween : List LoopThread :=
  List.replicate 3 (.pass 0) ++ List.replicate 8 (.task 0) ++ List.replicate 3 (.beside 0) ++
    List.replicate 2 (.pass 1) ++ List.replicate 6 (.task 0) ++ [.pass 1, .callback 0]

/-- The bundle is closed between the listing and the loop of a pass. -/
def closedBetween : List LoopThread :=
  List.replicate 2 (.pass 0) ++ List.replicate 3 (.beside 1) ++ [.pass 0]

theorem reservations_disturbed :
    ((afterLoop reservedBetween).live = [(1, "bun_1")] ∧ (afterLoop reservedBetween).inFlight = []) ∧
    (afterLoop (reservedBetween ++ List.replicate 3 (.pass 2))).live = [(1, "bun_1"), (2, "bun_1")] ∧
    (afterLoop closedBetween).live = [(0, "bun_1")] ∧
      ¬ Pool.Along (RunnerLoop.exec 2) id (SpawnsRunnable 2) oneBundlePool (closedBetween.map .run) := by
  decide +kernel

end Krewhub
