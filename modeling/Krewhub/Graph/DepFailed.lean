import Krewhub.Base.Interleave
import Krewhub.Graph.Cycle
import Krewhub.Routes.Tasks

/-!
# Downstream failures

What a downstream step reads of its upstream is the row, and the row is blocked between any two attempts
of the upstream's cycle, and open again after the last. Where the downstream finds the row refused only
once the last attempt has ended, and has found it so by the time the row is reopened, the downstream fails
on the upstream exactly when the cycle of the upstream fails.
-/

namespace Krewhub

/-- The run, the last attempt each call has recorded, and the dependency each call has found refused. -/
structure Outcomes where
  run : RunState
  last : Nat → Option AttemptRecord := fun _ => none
  refused : Nat → Option String := fun _ => none

namespace Outcomes

def refusedBy (s : RunState) (acceptWhen : TaskStatus) (depId : String) : Bool :=
  (s.db.tasks.get depId).any (refuses acceptWhen)

def exec (op : RunOp) (s : Outcomes) : Outcomes where
  run := op.exec s.run
  last := match op with
    | .note call (.attempt _ _ attempt) => Function.update s.last call (some attempt)
    | _ => s.last
  refused := match op with
    | .poll call acceptWhen depId =>
      if refusedBy s.run acceptWhen depId then Function.update s.refused call (some depId)
      else s.refused
    | _ => s.refused

end Outcomes

/-- The steps of a graph and the other coroutines, side by side; none has begun. -/
def cyclePool (deps : OrchestratorDeps) (threads : Nat → RunThread) (s : RunState) :
    Pool Nat Outcomes RunOp Exn (Option CycleEnd) :=
  .init (fun call => ((threads call).program deps call).on Outcomes.run) { run := s }

/-- The last attempt has ended blocked or cancelled. -/
def EndedBlocked (last : Option AttemptRecord) : Prop :=
  ∃ attempt ∈ last, attempt.status = "blocked" ∨ attempt.status = "cancelled"

/-- It was the last attempt there is. -/
def Spent (step : StepCall) (last : Option AttemptRecord) : Prop :=
  ∃ attempt ∈ last, (attempt.status = "blocked" ∨ attempt.status = "cancelled") ∧
    step.maxIterations ≤ attempt.iteration

instance (last : Option AttemptRecord) : Decidable (EndedBlocked last) :=
  inferInstanceAs (Decidable (∃ attempt ∈ last, _))

instance (step : StepCall) (last : Option AttemptRecord) : Decidable (Spent step last) :=
  inferInstanceAs (Decidable (∃ attempt ∈ last, _))

/-- The downstream finds the row of the upstream refused only when the attempts of the upstream are used
up, and has found it so when the upstream reopens the row after the last of them. -/
def MeetsLast (deps : OrchestratorDeps) (step : StepCall) (up down : Nat) (s : Outcomes) (call : Nat) :
    RunOp → Prop
  | .poll _ acceptWhen depId =>
    call = down → depId = step.taskId deps → Outcomes.refusedBy s.run acceptWhen depId = true →
      Spent step (s.last up)
  | .sql (.updateTask _ (.reopenForRerun _) _ _) =>
    call = up → Spent step (s.last up) → s.refused down = some (step.taskId deps)
  | _ => True

instance (deps : OrchestratorDeps) (step : StepCall) (up down : Nat) (s : Outcomes) (call : Nat) :
    DecidablePred (MeetsLast deps step up down s call) := by
  intro op
  unfold MeetsLast
  split <;> infer_instance

/-- The cycle ends with `dep_failed` for the task. -/
def FailsOn (taskId : String) (result : CycleEnd) : Prop :=
  ∃ status reason, result = .error (.depFailed taskId status reason)

/-! ### The turns of a cycle -/

/-- How far a cycle has come: its last attempt, whether it has reopened the row since, and the dependency
it has found refused. -/
structure CycleTurn where
  last : Option AttemptRecord := none
  reopened : Bool := false
  refused : Option String := none

namespace CycleTurn

variable (call : Nat) (step : StepCall)

def allowed (q : CycleTurn) : RunOp → Prop
  | .sql _ => True
  | .poll call' _ _ => call' = call ∧ q.last = none ∧ q.refused = none
  | .post call' .. => call' = call
  | .note call' u => call' = call ∧ ∀ nodeId taskId attempt, u = .attempt nodeId taskId attempt →
      q.refused = none ∧ ¬ Spent step q.last

def advance (q : CycleTurn) (op : RunOp) (s : RunState) : CycleTurn :=
  match op with
  | .sql (.updateTask _ (.reopenForRerun _) _ _) => { q with reopened := true }
  | .poll _ acceptWhen depId =>
    if Outcomes.refusedBy s acceptWhen depId then { q with refused := some depId } else q
  | .note _ (.attempt _ _ attempt) => { q with last := some attempt, reopened := false }
  | _ => q

/-- What the end of a cycle says about how far it has come. -/
def final (q : CycleTurn) : CycleEnd → Prop
  | .ok _ => q.refused = none ∧ ¬ Spent step q.last
  | .error failure => (∀ taskId, q.refused = some taskId ↔ FailsOn taskId (.error failure)) ∧
      (EndedBlocked q.last → Spent step q.last ∧ q.reopened = true)

/-- The cycle goes on with this many attempts. -/
structure Ready (left : Nat) (q : CycleTurn) : Prop where
  refused : q.refused = none
  spent : 0 < left → ¬ Spent step q.last
  reopened : left = 0 → EndedBlocked q.last → Spent step q.last ∧ q.reopened = true

variable {call step}

/-! ### The cycle follows its turns -/

section Follows

variable {deps : OrchestratorDeps} {q : CycleTurn} {α : Type}

/-- A statement that reopens no task. -/
def Plain (op : Op) : Prop :=
  match op with
  | .updateTask _ (.reopenForRerun _) _ _ => False
  | _ => True

theorem plainOps_plain : PlainOps Plain := ⟨trivial, trivial, trivial⟩

theorem advance_of_plain {op : Op} (hop : Plain op) (q : CycleTurn) (s : RunState) :
    q.advance (.sql op) s = q := by
  unfold advance
  split
  · rename_i heq
    rw [RunOp.sql.inj heq] at hop
    cases hop
  all_goals first | rfl | (rename_i heq; cases heq)

theorem follows_sql {c : Sql α} (hc : c.Every Plain) (q : CycleTurn) :
    (Runtime.sql c).Follows (allowed call step) advance (fun q' _ => q' = q) q :=
  .of_every (Runtime.every_sql (P := fun op => ∃ op', Plain op' ∧ op = .sql op') hc
      fun op hop => ⟨op, hop, rfl⟩)
    (fun _ ⟨_, _, hop⟩ => hop ▸ trivial) (fun _ ⟨_, hplain, hop⟩ s => hop ▸ advance_of_plain hplain q s)
    fun _ => rfl

theorem follows_waitForTaskTerminal (taskId : String) (reads : Nat) (q : CycleTurn) :
    (waitForTaskTerminal taskId reads).Follows (allowed call step) advance (fun q' _ => q' = q) q := by
  induction reads with
  | zero => rfl
  | succ reads ih =>
    refine (follows_sql (TaskRepo.every_get plainOps_plain _) q).bind fun q' found hq => ?_
    subst hq
    cases found with
    | none => trivial
    | some task => exact .ite (fun _ => rfl) fun _ => ih

theorem follows_awaitAgent (tried : List String) (polls : Nat) (q : CycleTurn) :
    (awaitAgent deps step tried polls).Follows (allowed call step) advance (fun q' _ => q' = q) q := by
  induction polls with
  | zero => exact ⟨trivial, fun _ => rfl⟩
  | succ polls ih =>
    refine .perform_bind trivial fun s => ?_
    cases pickWithDiversity step.lower _ step.taskKind tried s.shared.bundleDispatchedAgents with
    | none => exact ih
    | some chosen => rfl

theorem follows_reopen {taskId : String} {seen : Option Task} {d : Draws} {f : Option Task → Runtime CycleEnd}
    (hf : ∀ task, (f task).Follows (allowed call step) advance (final step) { q with reopened := true }) :
    (Runtime.sql (TaskRepo.reopenForRerun taskId seen d) >>= f).Follows (allowed call step) advance
      (final step) q := by
  have hrest : (Runtime.sql (do Sql.commit; TaskRepo.get taskId)).Follows (allowed call step) advance
      (fun q' _ => q' = { q with reopened := true }) { q with reopened := true } :=
    follows_sql (.bind (Sql.every_commit plainOps_plain) fun _ =>
      TaskRepo.every_get plainOps_plain _) _
  have hreopen : (Runtime.sql (TaskRepo.reopenForRerun taskId seen d)).Follows (allowed call step) advance
      (fun q' _ => q' = { q with reopened := true }) q := ⟨trivial, fun _ => hrest⟩
  refine hreopen.bind fun q' task hq => ?_
  rw [hq]
  exact hf task

/-- An attempt is recorded, while no dependency has been found refused and the last is not the last of
all. -/
theorem follows_appendAttempt {taskId : String} {attempt : AttemptRecord} {f : Unit → Runtime CycleEnd}
    (hrefused : q.refused = none) (hspent : ¬ Spent step q.last)
    (hf : (f ()).Follows (allowed call step) advance (final step)
      { q with last := some attempt, reopened := false }) :
    (appendAttempt call step taskId attempt >>= f).Follows (allowed call step) advance (final step) q :=
  .perform_bind ⟨rfl, fun _ _ _ _ => ⟨hrefused, hspent⟩⟩ fun _ => hf

theorem not_endedBlocked {attempt : AttemptRecord} (h : attempt.status ≠ "blocked")
    (h' : attempt.status ≠ "cancelled") : ¬ EndedBlocked (some attempt) := by
  rintro ⟨attempt', hattempt, hstatus⟩
  obtain rfl := Option.some.inj hattempt
  rcases hstatus with hstatus | hstatus
  · exact h hstatus
  · exact h' hstatus

theorem endedBlocked_of_spent {last : Option AttemptRecord} (h : Spent step last) : EndedBlocked last := by
  obtain ⟨attempt, hattempt, hstatus, -⟩ := h
  exact ⟨attempt, hattempt, hstatus⟩

theorem iteration_of_spent {attempt : AttemptRecord} (h : Spent step (some attempt)) :
    step.maxIterations ≤ attempt.iteration := by
  obtain ⟨attempt', hattempt, -, hle⟩ := h
  rwa [← Option.some.inj hattempt] at hle

/-- The row has been reopened after an attempt, the last one if none is left. -/
theorem ready_of_reopened {left : Nat} {attempt : AttemptRecord} (hrefused : q.refused = none)
    (hcount : 0 < left ∧ attempt.iteration < step.maxIterations ∨
      left = 0 ∧ step.maxIterations ≤ attempt.iteration) :
    Ready step left { q with last := some attempt, reopened := true } := by
  refine ⟨hrefused, fun hleft h => ?_, fun hleft h => ⟨?_, rfl⟩⟩
  · have := iteration_of_spent h
    omega
  · obtain ⟨attempt', hattempt, hstatus⟩ := h
    refine ⟨attempt', hattempt, hstatus, ?_⟩
    obtain rfl := Option.some.inj hattempt
    omega

theorem follows_recordFailure {taskId : String} {failure : CycleFailure}
    (h : final step q (.error failure)) :
    (recordFailure call step taskId failure).Follows (allowed call step) advance (final step) q :=
  .perform_bind ⟨rfl, fun _ _ _ hu => by cases hu⟩ fun _ => h

/-- A failure that is not about a dependency. -/
theorem final_error {failure : CycleFailure} (hrefused : q.refused = none)
    (hfailure : ∀ taskId, ¬ FailsOn taskId (.error failure))
    (hended : EndedBlocked q.last → Spent step q.last ∧ q.reopened = true) :
    final step q (.error failure) := by
  refine ⟨fun taskId => ⟨fun h => ?_, fun h => absurd h (hfailure taskId)⟩, hended⟩
  rw [hrefused] at h
  cases h

theorem not_failsOn {failure : CycleFailure}
    (h : ∀ taskId status reason, failure ≠ .depFailed taskId status reason) (taskId : String) :
    ¬ FailsOn taskId (.error failure) := by
  rintro ⟨status, reason, heq⟩
  exact h taskId status reason (Except.error.inj heq)

theorem follows_succeed {taskId agentId shownId summary : String} (hrefused : q.refused = none)
    (hspent : ¬ Spent step q.last) :
    (succeed call step taskId agentId shownId summary).Follows (allowed call step) advance (final step)
      q := by
  refine .perform_bind ⟨rfl, fun _ _ _ hu => by cases hu⟩ fun _ => ?_
  have hcollect : (collectFactsAndCodeRefs call step taskId).Follows (allowed call step) advance
      (fun q' _ => q' = q) q := by
    refine (follows_sql (Sql.every_select plainOps_plain _) q).bind fun q' events hq => ?_
    subst hq
    exact ⟨⟨rfl, fun _ _ _ hu => by cases hu⟩, fun _ => rfl⟩
  refine hcollect.bind fun q' _ hq => ?_
  subst hq
  exact ⟨hrefused, hspent⟩

/-- The attempts that are left, counted up to the last. -/
theorem follows_runAttempts {d : Draws} {task : Task} {left attempt : Nat} {tried : List String}
    {lastSummary : String} (hready : Ready step left q) (hcount : attempt + left = step.maxIterations + 1) :
    (runAttempts call deps step d task left attempt tried lastSummary).Follows (allowed call step) advance
      (final step) q := by
  induction left generalizing q attempt tried lastSummary with
  | zero =>
    exact follows_recordFailure (final_error hready.refused (not_failsOn fun _ _ _ => nofun)
      (hready.reopened rfl))
  | succ left ih =>
    have hspent := hready.spent (Nat.succ_pos left)
    have hfailed : ∀ agentId status summary, status ≠ "blocked" → status ≠ "cancelled" →
        Ready step left
          { q with last := some ⟨attempt, agentId, status, summary⟩, reopened := false } := by
      intro agentId status summary hblocked hcancelled
      have hended : ¬ EndedBlocked (some ⟨attempt, agentId, status, summary⟩) :=
        not_endedBlocked hblocked hcancelled
      exact ⟨hready.refused, fun _ h => hended (endedBlocked_of_spent h), fun _ h => absurd h hended⟩
    refine (follows_awaitAgent _ _ q).bind fun q' chosen hq => ?_
    subst hq
    cases chosen with
    | none =>
      refine follows_appendAttempt hready.refused hspent (follows_recordFailure ?_)
      exact final_error hready.refused (not_failsOn fun _ _ _ => nofun) fun h =>
        absurd h (not_endedBlocked (by simp) (by simp))
    | some chosen =>
      refine .perform_bind ⟨rfl, fun _ _ _ hu => by cases hu⟩ fun _ => .perform_bind rfl fun _ => ?_
      refine .ite (fun _ => ?_) fun _ => ?_
      · exact follows_appendAttempt hready.refused hspent
          (ih (hfailed _ _ _ (by simp) (by simp)) (by omega))
      · have hclaim : (markClaimed task chosen ((d.sub left).sub 1)).Follows (allowed call step) advance
            (fun q'' _ => q'' = q') q' :=
          follows_sql (.bind (TaskRepo.every_update plainOps_plain trivial) fun _ =>
            TaskService.every_recordUpdated plainOps_plain _) q'
        refine hclaim.bind fun q'' _ hq => ?_
        subst hq
        refine (follows_waitForTaskTerminal _ _ q'').bind fun q''' found hq => ?_
        subst hq
        cases found with
        | none =>
          exact follows_appendAttempt hready.refused hspent
            (ih (hfailed _ _ _ (by simp) (by simp)) (by omega))
        | some found =>
          refine .ite (fun _ => ?_) fun _ => ?_
          · refine follows_appendAttempt hready.refused hspent (follows_succeed hready.refused ?_)
            exact fun h => not_endedBlocked (by simp) (by simp) (endedBlocked_of_spent h)
          · refine follows_appendAttempt hready.refused hspent (follows_reopen fun _ => ih ?_ (by omega))
            exact ready_of_reopened hready.refused (by dsimp only; omega)

theorem follows_attemptTask {d : Draws} {task : Task} {lastSummary : String}
    (hready : Ready step step.maxIterations q) :
    (attemptTask call deps step d task lastSummary).Follows (allowed call step) advance (final step) q := by
  have hreads : ∀ depIds : List String, (depIds.forM fun _ => Sql.select fun _ => ()).Every Plain := by
    intro depIds
    induction depIds with
    | nil => trivial
    | cons depId depIds ih => exact .bind (Sql.every_select plainOps_plain _) fun _ => ih
  refine (follows_sql (hreads _) q).bind fun q' _ hq => ?_
  subst hq
  exact follows_runAttempts hready (by omega)

/-- A cycle that has recorded no attempt and found no dependency refused. -/
def Fresh (q : CycleTurn) : Prop := q.last = none ∧ q.refused = none

theorem Fresh.not_ended (h : q.Fresh) : ¬ EndedBlocked q.last := by
  rintro ⟨attempt, hattempt, -⟩
  rw [h.1] at hattempt
  cases hattempt

theorem Fresh.not_spent (h : q.Fresh) (step : StepCall) : ¬ Spent step q.last := fun hspent =>
  h.not_ended (endedBlocked_of_spent hspent)

theorem Fresh.ready (h : q.Fresh) (left : Nat) : Ready step left q :=
  ⟨h.2, fun _ => h.not_spent step, fun _ hended => absurd hended h.not_ended⟩

theorem follows_runTask {d : Draws} {task : Task} (hfresh : q.Fresh) :
    (runTask call deps step d task).Follows (allowed call step) advance (final step) q := by
  refine .ite (fun _ => ?_) fun _ => follows_attemptTask (hfresh.ready _)
  have hspent : ¬ Spent step q.last := hfresh.not_spent step
  refine (follows_waitForTaskTerminal _ _ q).bind fun q' found hq => ?_
  subst hq
  cases found with
  | none =>
    refine follows_appendAttempt hfresh.2 hspent (follows_attemptTask ⟨hfresh.2, fun _ h => ?_, fun _ h => ?_⟩)
    · exact not_endedBlocked (by simp) (by simp) (endedBlocked_of_spent h)
    · exact absurd h (not_endedBlocked (by simp) (by simp))
  | some found =>
    refine .ite (fun _ => ?_) fun _ => ?_
    · refine follows_appendAttempt hfresh.2 hspent (follows_succeed hfresh.2 ?_)
      exact fun h => not_endedBlocked (by simp) (by simp) (endedBlocked_of_spent h)
    · refine follows_appendAttempt hfresh.2 hspent (follows_reopen fun _ => follows_attemptTask ?_)
      exact ready_of_reopened hfresh.2 (by dsimp only; omega)

/-- The rounds end with a dependency that has been found refused, or with none. -/
def afterPolling (q : CycleTurn) : Except DependencyError Unit → Prop
  | .error (.failed depId _ _) => q.last = none ∧ q.refused = some depId
  | _ => q.Fresh

theorem follows_pollDependencies {acceptWhen : TaskStatus} (reads : Nat) {depId : String}
    {rest nextRound : List String} (hfresh : q.Fresh) :
    (pollDependencies call acceptWhen reads depId rest nextRound).Follows (allowed call step) advance
      afterPolling q := by
  induction reads generalizing depId rest nextRound with
  | zero => exact hfresh
  | succ reads ih =>
    refine .perform_bind ⟨rfl, hfresh.1, hfresh.2⟩ fun s => ?_
    have hadvance : q.advance (.poll call acceptWhen depId) s =
        if Outcomes.refusedBy s acceptWhen depId then { q with refused := some depId } else q := rfl
    rw [hadvance, Outcomes.refusedBy]
    cases s.db.tasks.get depId with
    | none => exact hfresh
    | some dep =>
      rw [Option.any_some]
      by_cases hrefuses : refuses acceptWhen dep = true
      · rw [if_pos hrefuses]
        show Coro.Follows _ _ _ _ (if refuses acceptWhen dep = true then _ else _)
        rw [if_pos hrefuses]
        exact ⟨hfresh.1, rfl⟩
      · rw [if_neg hrefuses]
        show Coro.Follows _ _ _ _ (if refuses acceptWhen dep = true then _ else _)
        rw [if_neg hrefuses]
        dsimp only
        split
        · exact ih
        · exact ih
        · exact hfresh

theorem follows_dispatchCycle (call : Nat) (deps : OrchestratorDeps) (step : StepCall) (d : Draws) :
    (dispatchCycle call deps step d).Follows (allowed call step) advance (final step) {} := by
  have hfresh : ({} : CycleTurn).Fresh := ⟨rfl, rfl⟩
  have hspent : ¬ Spent step ({} : CycleTurn).last := hfresh.not_spent step
  have hnever : ∀ q : CycleTurn, q.Fresh → EndedBlocked q.last → Spent step q.last ∧ q.reopened = true :=
    fun q hq hended => absurd hended hq.not_ended
  refine .ite (fun _ => ?_) fun _ => ?_
  · exact follows_recordFailure (final_error rfl (not_failsOn fun _ _ _ => nofun) (hnever _ hfresh))
  refine (follows_sql (TaskRepo.every_get plainOps_plain _) _).bind fun q found hq => ?_
  subst hq
  cases found with
  | none =>
    exact follows_recordFailure (final_error rfl (not_failsOn fun _ _ _ => nofun) (hnever _ hfresh))
  | some task =>
    refine .ite (fun _ => follows_succeed rfl hspent) fun _ => ?_
    refine .ite (fun _ => follows_runTask hfresh) fun _ => ?_
    have hwait : (waitForDependencies call task.dependsOnTaskIds step.acceptWhen
        ((d.sub 0).polls [])).Follows (allowed call step) advance afterPolling {} := by
      unfold waitForDependencies
      split
      · exact hfresh
      · exact follows_pollDependencies _ hfresh
    refine hwait.bind fun q waited hq => ?_
    cases waited with
    | error e =>
      cases e with
      | timeout =>
        exact follows_recordFailure
          (final_error hq.2 (not_failsOn fun _ _ _ => nofun) (hnever q hq))
      | missing depId =>
        exact follows_recordFailure
          (final_error hq.2 (not_failsOn fun _ _ _ => nofun) (hnever q hq))
      | failed depId status reason =>
        obtain ⟨hlast, hrefused⟩ := hq
        refine follows_recordFailure ⟨fun taskId => ?_, fun hended => ?_⟩
        · rw [hrefused]
          refine ⟨fun h => ⟨status, reason, by rw [Option.some.inj h]⟩, ?_⟩
          rintro ⟨status', reason', heq⟩
          have hfailure := Except.error.inj heq
          rw [CycleFailure.depFailed.injEq] at hfailure
          rw [hfailure.1]
        · obtain ⟨attempt, hattempt, -⟩ := hended
          rw [hlast] at hattempt
          cases hattempt
    | ok _ =>
      refine (follows_sql (TaskRepo.every_get plainOps_plain _) q).bind fun q' refreshed hq' => ?_
      subst hq'
      exact .ite (fun _ => follows_succeed hq.2 (Fresh.not_spent hq step)) fun _ => follows_runTask hq

end Follows

end CycleTurn

/-! ### The run -/

/-- A cycle keeps to its turns; the other coroutines run statements. -/
def RunThread.allowed (call : Nat) : RunThread → CycleTurn → RunOp → Prop
  | .cycle step _ => CycleTurn.allowed call step
  | .other _ => fun _ op => ∃ op', op = .sql op'

def RunThread.final : RunThread → CycleTurn → Option CycleEnd → Prop
  | .cycle step _, q, result => ∃ r, result = some r ∧ CycleTurn.final step q r
  | .other _, _, _ => True

def cycleProtocol (threads : Nat → RunThread) :
    Protocol Nat Outcomes RunOp (Option CycleEnd) CycleTurn where
  start := {}
  allowed call := (threads call).allowed call
  advance q op s := q.advance op s.run
  final call := (threads call).final

theorem follows_thread (deps : OrchestratorDeps) (threads : Nat → RunThread) (call : Nat) :
    (((threads call).program deps call).on Outcomes.run).Follows ((cycleProtocol threads).allowed call)
      (cycleProtocol threads).advance ((cycleProtocol threads).final call) {} := by
  show Coro.Follows ((threads call).allowed call) (fun q op (s : Outcomes) => q.advance op s.run)
    (threads call).final _ _
  refine Coro.Follows.on ?_ Outcomes.run
  cases threads call with
  | cycle step d =>
    exact (CycleTurn.follows_dispatchCycle call deps step d).bind fun q r hr => ⟨r, rfl, hr⟩
  | other program =>
    have hprogram : (Runtime.sql program).Every fun op => ∃ op', op = .sql op' :=
      Runtime.every_sql (Coro.every_true program) fun op _ => ⟨op, rfl⟩
    have hruns : (Runtime.sql program).Follows (fun _ op => ∃ op', op = .sql op')
        CycleTurn.advance (fun _ _ => True) {} :=
      .of_every_free hprogram (fun _ _ h => h) fun _ _ => trivial
    exact hruns.bind fun _ _ _ => trivial

section Meets

variable {deps : OrchestratorDeps} {threads : Nat → RunThread} {step downStep : StepCall} {d d' : Draws}
  {up down : Nat} {s : Outcomes} {q : Nat → CycleTurn}

/-- The downstream has found the upstream refused only after its last attempt, and by the time the row is
reopened after that. -/
structure TurnsHold (deps : OrchestratorDeps) (step : StepCall) (up down : Nat) (s : Outcomes)
    (q : Nat → CycleTurn) : Prop where
  last : ∀ call, s.last call = (q call).last
  refused : ∀ call, s.refused call = (q call).refused
  met : (q down).refused = some (step.taskId deps) → Spent step (q up).last
  seen : (q up).reopened = true → Spent step (q up).last → (q down).refused = some (step.taskId deps)

/-- A turn that is not an attempt of the upstream and not a poll of the downstream. -/
theorem TurnsHold.of_same {s' : Outcomes} {q' : Nat → CycleTurn} (h : TurnsHold deps step up down s q)
    (hlast : ∀ call, s'.last call = (q' call).last) (hrefused : ∀ call, s'.refused call = (q' call).refused)
    (hup : (q' up).last = (q up).last) (hdown : (q' down).refused = (q down).refused)
    (hreopened : (q' up).reopened = true → Spent step (q up).last →
      (q up).reopened = true ∨ (q down).refused = some (step.taskId deps)) :
    TurnsHold deps step up down s' q' := by
  refine ⟨hlast, hrefused, fun hmet => ?_, fun hopen hspent => ?_⟩
  · rw [hup]
    exact h.met (hdown ▸ hmet)
  · rw [hup] at hspent
    rw [hdown]
    rcases hreopened hopen hspent with hopen | hseen
    · exact h.seen hopen hspent
    · exact hseen

theorem component_update {β : Type} (f : CycleTurn → β) {i : Nat} {x : CycleTurn} (hx : f x = f (q i))
    (j : Nat) : f (Function.update q i x j) = f (q j) := by
  by_cases hj : j = i
  · rw [hj, Function.update_self, hx]
  · rw [Function.update_of_ne hj]

theorem TurnsHold.sql {i : Nat} {op : Op} (h : TurnsHold deps step up down s q)
    (hmeets : MeetsLast deps step up down s i (.sql op)) :
    TurnsHold deps step up down (Outcomes.exec (.sql op) s)
      (Function.update q i ((q i).advance (.sql op) s.run)) := by
  by_cases hplain : CycleTurn.Plain op
  · rw [CycleTurn.advance_of_plain hplain, Function.update_eq_self]
    exact h.of_same h.last h.refused rfl rfl fun hopen _ => .inl hopen
  · cases op
    case updateTask id u expected seen =>
      cases u
      case reopenForRerun now =>
        have hlast : ((q i).advance (.sql (.updateTask id (.reopenForRerun now) expected seen))
          s.run).last = (q i).last := rfl
        have hrefused : ((q i).advance (.sql (.updateTask id (.reopenForRerun now) expected seen))
          s.run).refused = (q i).refused := rfl
        refine h.of_same (fun call => ?_) (fun call => ?_) (component_update CycleTurn.last hlast up)
          (component_update CycleTurn.refused hrefused down) fun hopen hspent => ?_
        · exact (h.last call).trans (component_update CycleTurn.last hlast call).symm
        · exact (h.refused call).trans (component_update CycleTurn.refused hrefused call).symm
        · by_cases hi : i = up
          · rw [← h.last] at hspent
            rw [← h.refused]
            exact .inr (hmeets hi hspent)
          · rw [Function.update_of_ne (Ne.symm hi)] at hopen
            exact .inl hopen
      all_goals exact absurd trivial hplain
    all_goals exact absurd trivial hplain

theorem TurnsHold.poll {i : Nat} {acceptWhen : TaskStatus} {depId : String}
    (h : TurnsHold deps step up down s q) (hrefused : (q i).refused = none)
    (hmeets : MeetsLast deps step up down s i (.poll i acceptWhen depId)) :
    TurnsHold deps step up down (Outcomes.exec (.poll i acceptWhen depId) s)
      (Function.update q i ((q i).advance (.poll i acceptWhen depId) s.run)) := by
  by_cases hfound : Outcomes.refusedBy s.run acceptWhen depId = true
  · have hadvance : (q i).advance (.poll i acceptWhen depId) s.run = { q i with refused := some depId } :=
      if_pos hfound
    have hexec : (Outcomes.exec (.poll i acceptWhen depId) s).refused =
      Function.update s.refused i (some depId) := if_pos hfound
    rw [hadvance]
    have hlast : ∀ call, s.last call =
        (Function.update q i { q i with refused := some depId } call).last := fun call =>
      (h.last call).trans
        (component_update CycleTurn.last (x := { q i with refused := some depId }) rfl call).symm
    have hsame : ∀ call, (Outcomes.exec (.poll i acceptWhen depId) s).refused call =
        (Function.update q i { q i with refused := some depId } call).refused := by
      intro call
      rw [hexec]
      by_cases hcall : call = i
      · rw [hcall, Function.update_self, Function.update_self]
      · rw [Function.update_of_ne hcall, Function.update_of_ne hcall, h.refused]
    have hopen : (Function.update q i { q i with refused := some depId } up).reopened =
      (q up).reopened :=
      component_update CycleTurn.reopened (x := { q i with refused := some depId }) rfl up
    have hup : (Function.update q i { q i with refused := some depId } up).last = (q up).last :=
      component_update CycleTurn.last (x := { q i with refused := some depId }) rfl up
    by_cases hi : i = down
    · subst hi
      refine ⟨hlast, hsame, fun hmet => ?_, fun hreopened hspent => ?_⟩
      · rw [Function.update_self] at hmet
        rw [hup, ← h.last]
        exact hmeets rfl (Option.some.inj hmet) hfound
      · rw [hopen] at hreopened
        rw [hup] at hspent
        have hseen := h.seen hreopened hspent
        rw [hrefused] at hseen
        cases hseen
    · refine h.of_same hlast hsame hup ?_ fun hreopened _ => .inl (hopen ▸ hreopened)
      rw [Function.update_of_ne (Ne.symm hi)]
  · have hadvance : (q i).advance (.poll i acceptWhen depId) s.run = q i := if_neg hfound
    have hexec : (Outcomes.exec (.poll i acceptWhen depId) s).refused = s.refused := if_neg hfound
    rw [hadvance, Function.update_eq_self]
    refine h.of_same h.last (fun call => ?_) rfl rfl fun hopen _ => .inl hopen
    rw [hexec]
    exact h.refused call

theorem TurnsHold.attempt {i : Nat} {nodeId taskId : String} {attempt : AttemptRecord}
    (h : TurnsHold deps step up down s q) (hspent : i = up → ¬ Spent step (q up).last) :
    TurnsHold deps step up down (Outcomes.exec (.note i (.attempt nodeId taskId attempt)) s)
      (Function.update q i ((q i).advance (.note i (.attempt nodeId taskId attempt)) s.run)) := by
  have hadvance : (q i).advance (.note i (.attempt nodeId taskId attempt)) s.run =
    { q i with last := some attempt, reopened := false } := rfl
  rw [hadvance]
  have hlast : ∀ call, Function.update s.last i (some attempt) call = (Function.update q i
      { q i with last := some attempt, reopened := false } call).last := by
    intro call
    by_cases hcall : call = i
    · rw [hcall, Function.update_self, Function.update_self]
    · rw [Function.update_of_ne hcall, Function.update_of_ne hcall, h.last]
  have hsame : ∀ call, (Function.update q i
      { q i with last := some attempt, reopened := false } call).refused = (q call).refused :=
    component_update CycleTurn.refused rfl
  by_cases hi : i = up
  · subst hi
    refine ⟨hlast, fun call => (h.refused call).trans (hsame call).symm, fun hmet => ?_,
      fun hopen _ => ?_⟩
    · rw [hsame] at hmet
      exact absurd (h.met hmet) (hspent rfl)
    · rw [Function.update_self] at hopen
      cases hopen
  · have hup : Function.update q i { q i with last := some attempt, reopened := false } up = q up :=
      Function.update_of_ne (Ne.symm hi) _ _
    refine h.of_same hlast (fun call => (h.refused call).trans (hsame call).symm) ?_ (hsame down)
      fun hopen _ => ?_
    · rw [hup]
    · rw [hup] at hopen
      exact .inl hopen

theorem TurnsHold.of_op {i : Nat} {op : RunOp} (h : TurnsHold deps step up down s q)
    (hup : threads up = .cycle step d) (hallowed : (threads i).allowed i (q i) op)
    (hmeets : MeetsLast deps step up down s i op) :
    TurnsHold deps step up down (Outcomes.exec op s)
      (Function.update q i ((q i).advance op s.run)) := by
  have hidle : ∀ {s'}, s'.last = s.last → s'.refused = s.refused →
      TurnsHold deps step up down s' (Function.update q i (q i)) := by
    intro s' hlast hrefused
    rw [Function.update_eq_self]
    refine h.of_same (fun call => ?_) (fun call => ?_) rfl rfl fun hopen _ => .inl hopen
    · rw [hlast, h.last]
    · rw [hrefused, h.refused]
  cases hthread : threads i with
  | other program =>
    rw [hthread] at hallowed
    obtain ⟨op', rfl⟩ := hallowed
    exact h.sql hmeets
  | cycle ownStep d'' =>
    rw [hthread] at hallowed
    cases op with
    | sql op => exact h.sql hmeets
    | poll call acceptWhen depId =>
      obtain ⟨rfl, -, hrefused⟩ := hallowed
      exact h.poll hrefused hmeets
    | post => exact hidle rfl rfl
    | note call u =>
      obtain ⟨rfl, hattempt⟩ := hallowed
      cases u
      case attempt nodeId taskId attempt =>
        refine h.attempt fun hi => ?_
        rw [hi, hup] at hthread
        obtain ⟨rfl, -⟩ := RunThread.cycle.inj hthread
        rw [← hi]
        exact (hattempt _ _ _ rfl).2
      all_goals exact hidle rfl rfl

/-- Whatever the agents do and the order of the steps: where the downstream finds the upstream refused only
after its last attempt, and has found it so by the time the row is reopened, it fails on the upstream exactly
when the upstream's cycle fails on a blocked or cancelled attempt. -/
theorem failsOn_iff (run : RunState) (schedule : List Nat) {r r' : CycleEnd}
    (hup : threads up = .cycle step d) (hdown : threads down = .cycle downStep d')
    (hmeets : Pool.Along Outcomes.exec id (MeetsLast deps step up down) (cyclePool deps threads run)
      (schedule.map .run))
    (hreturned : ((cyclePool deps threads run).run Outcomes.exec id (schedule.map .run)).returned down
      (some r))
    (hreturned' : ((cyclePool deps threads run).run Outcomes.exec id (schedule.map .run)).returned up
      (some r')) :
    FailsOn (step.taskId deps) r ↔ (∃ failure, r' = .error failure) ∧
      EndedBlocked (((cyclePool deps threads run).run Outcomes.exec id (schedule.map .run)).state.last
        up) := by
  have hstart : Pool.Obeys (cycleProtocol threads) (cyclePool deps threads run) fun _ => {} :=
    Pool.obeys_init (follows_thread deps threads) _
  obtain ⟨q, hobeys, h⟩ := Pool.inv_run_id (I := TurnsHold deps step up down)
    (fun s q i op hI hallowed hG => hI.of_op hup hallowed hG) hstart
    ⟨fun _ => rfl, fun _ => rfl, fun h => (by cases h), fun h => (by cases h)⟩ hmeets
  have hend : CycleTurn.final downStep (q down) r := by
    have hfinal := (hobeys down).2 _ hreturned
    rw [show (cycleProtocol threads).final down = (threads down).final from rfl, hdown] at hfinal
    obtain ⟨r₀, hr, hfinal⟩ := hfinal
    rwa [Option.some.inj hr]
  have hend' : CycleTurn.final step (q up) r' := by
    have hfinal := (hobeys up).2 _ hreturned'
    rw [show (cycleProtocol threads).final up = (threads up).final from rfl, hup] at hfinal
    obtain ⟨r₀, hr, hfinal⟩ := hfinal
    rwa [Option.some.inj hr]
  rw [h.last]
  refine ⟨fun hfails => ?_, fun hended => ?_⟩
  · obtain ⟨status, reason, rfl⟩ := id hfails
    have hspent := h.met ((hend.1 _).mpr hfails)
    cases r' with
    | ok agentId => exact absurd hspent hend'.2
    | error failure => exact ⟨⟨failure, rfl⟩, CycleTurn.endedBlocked_of_spent hspent⟩
  · obtain ⟨⟨failure, rfl⟩, hblocked⟩ := hended
    obtain ⟨hspent, hopen⟩ := hend'.2 hblocked
    have hrefused := h.seen hopen hspent
    cases r with
    | ok agentId =>
      rw [hend.1] at hrefused
      cases hrefused
    | error failure' => exact (hend.1 _).mp hrefused

end Meets

/-! ### Two steps, one after the other -/

/-- How a cycle has ended, if it has. -/
def endOf (p : Pool Nat Outcomes RunOp Exn (Option CycleEnd)) (call : Nat) : Option CycleEnd :=
  match p.thread call with
  | some (.done result) => result
  | _ => none

theorem returned_of_endOf {p : Pool Nat Outcomes RunOp Exn (Option CycleEnd)} {call : Nat} {r : CycleEnd}
    (h : endOf p call = some r) : p.returned call (some r) := by
  rw [endOf] at h
  split at h
  · rename_i result hthread
    rw [h] at hthread
    exact hthread
  · cases h

def chainDb : Db where
  bundles := (∅ : Table Bundle).insert { id := "bun_1", cookbookId := some "cb_1" }
  tasks := ((∅ : Table Task).insert { id := "task_1", bundleId := "bun_1" }).insert
    { id := "task_2", bundleId := "bun_1", dependsOnTaskIds := ["task_1"] }
  agents := [{ agentId := "agent_1", cookbookId := "cb_1", status := .online,
               endpointUrl := some "http://agent_1" }]

def chainDeps : OrchestratorDeps where
  taskIdMap := [("first", "task_1"), ("second", "task_2")]
  cookbookId := "cb_1"

def chainStep (maxIterations : Nat) : StepCall := { nodeId := "first", maxIterations := maxIterations }

/-- The two steps, and an agent that blocks the first task, and then has it done. -/
def chainThreads (maxIterations : Nat) : Nat → RunThread
  | 0 => .cycle (chainStep maxIterations) { pathDraws 'a' with polls := fun _ => 3 }
  | 1 => .cycle { nodeId := "second" } { pathDraws 'b' with polls := fun _ => 3 }
  | 2 => .other (discard (TaskService.markBlocked "task_1" "stuck" (pathDraws 'c')))
  | _ => .other (discard (TaskService.markDone "task_1" (pathDraws 'd')))

def afterChain (maxIterations : Nat) (schedule : List Nat) :
    Pool Nat Outcomes RunOp Exn (Option CycleEnd) :=
  (cyclePool chainDeps (chainThreads maxIterations) ⟨chainDb, { bundleId := "bun_1" }⟩).run Outcomes.exec id
    (schedule.map .run)

/-- The first step is claimed, and the agent blocks it. -/
def firstBlocked : List Nat := List.replicate 8 0 ++ List.replicate 7 2

/-- The second step polls once the only attempt at the first is recorded, before the row is reopened. -/
def polledAfterLast : List Nat :=
  firstBlocked ++ List.replicate 3 0 ++ List.replicate 6 1 ++ List.replicate 6 0

theorem failsOn_after_last :
    FailsOn "task_1" (.error (.depFailed "task_1" .blocked "stuck")) ↔
      (∃ failure, (.error (.exhausted 1 "stuck") : CycleEnd) = .error failure) ∧
        EndedBlocked ((afterChain 1 polledAfterLast).state.last 0) := by
  have hmeets : Pool.Along Outcomes.exec id (MeetsLast chainDeps (chainStep 1) 0 1)
      (cyclePool chainDeps (chainThreads 1) ⟨chainDb, { bundleId := "bun_1" }⟩)
      (polledAfterLast.map .run) := by
    decide +kernel
  have hdown : endOf (afterChain 1 polledAfterLast) 1 =
      some (.error (.depFailed "task_1" .blocked "stuck")) := by
    decide +kernel
  have hup : endOf (afterChain 1 polledAfterLast) 0 = some (.error (.exhausted 1 "stuck")) := by
    decide +kernel
  exact failsOn_iff _ polledAfterLast rfl rfl hmeets (returned_of_endOf hdown)
    (returned_of_endOf hup)

/-- The second step polls between the two attempts at the first, the second of which succeeds. -/
def polledBetween : List Nat :=
  firstBlocked ++ List.replicate 6 1 ++ List.replicate 10 0 ++ List.replicate 7 3 ++ List.replicate 12 0

/-- The second step polls only after the row has been reopened. -/
def polledLate : List Nat := firstBlocked ++ List.replicate 8 0 ++ List.replicate 8 1

theorem downstream_unfaithful :
    (endOf (afterChain 2 polledBetween) 1 = some (.error (.depFailed "task_1" .blocked "stuck")) ∧
      endOf (afterChain 2 polledBetween) 0 = some (.ok "agent_1")) ∧
    (endOf (afterChain 1 polledLate) 0 = some (.error (.exhausted 1 "stuck")) ∧
      EndedBlocked ((afterChain 1 polledLate).state.last 0) ∧
      endOf (afterChain 1 polledLate) 1 = some (.error (.depTimeout "300.0" 1))) := by
  decide +kernel

end Krewhub
