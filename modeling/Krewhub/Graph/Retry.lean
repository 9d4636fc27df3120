import Krewhub.Graph.Cycle
import Krewhub.Base.Interleave
import Mathlib.Data.Option.Basic

/-!
# The bookkeeping of the retry loop

A call of `dispatch_cycle` whose node no other call works on, while the database changes around it as it
pleases. Its requests are numbered from one on and stop at the limit, it comes back to an agent only when the
pool has no other, and every request is recorded once under its number. A call that fails leaves one more
record, of the failure, under the number of the last attempt.
-/

namespace Krewhub

/-- Others change the database and leave the state of the run alone. -/
def Alone (s s' : RunState) : Prop := s'.shared = s.shared

theorem alone_refl (s : RunState) : Alone s s := rfl

/-- What a call has done so far: the gateways it has listed last, its requests with their numbers, the
records it has appended, and the outcome it has recorded. -/
structure CycleBooks where
  pool : List AgentPresence := []
  sent : List (Nat × String) := []
  appended : List AttemptRecord := []
  outcome : Option Bool := none

/-- The record is of a request, neither of a run that was adopted nor of a failure. -/
def AttemptRecord.ofRequest (record : AttemptRecord) : Bool :=
  record.iteration != 0 && !(["no_agent", "exhausted", "no_task", "missing_task"].contains record.status)

/-- The node a change of the shared state is about. -/
def StateUpdate.node? : StateUpdate → Option String
  | dispatched _ => none
  | attempt nodeId _ _ | success nodeId _ _ | failure nodeId _ _ | collect nodeId _ _ => some nodeId

namespace CycleBooks

variable (call : Nat) (deps : OrchestratorDeps) (step : StepCall)

def advance (q : CycleBooks) (op : RunOp) (s : RunState) : CycleBooks :=
  match op with
  | .sql .select =>
    { q with
      pool := (s.db.agents.filter (·.cookbookId == deps.cookbookId)).filter TaskDispatchController.isGateway }
  | .post _ agentId _ attempt _ => { q with sent := q.sent ++ [(attempt, agentId)] }
  | .note _ (.attempt _ _ attempt) => { q with appended := q.appended ++ [attempt] }
  | .note _ (.success ..) => { q with outcome := some true }
  | .note _ (.failure _ _ failure) =>
    { q with
      appended := q.appended ++ if 0 < failure.iteration then [failure.record] else []
      outcome := some false }
  | _ => q

/-- What the call has done after some of its steps. -/
def after (steps : List (RunOp × RunState)) : CycleBooks := Coro.after (advance deps) {} steps

def tried (q : CycleBooks) : List String := q.sent.map (·.2)

/-- The agent is in the pool, and one that was tried before only where all of the pool were. -/
def Picks (q : CycleBooks) (agentId : String) : Prop :=
  (∃ agent ∈ q.pool, agent.agentId = agentId) ∧
    (agentId ∈ q.tried → ∀ agent ∈ q.pool, agent.agentId ∈ q.tried)

/-- Every request has its record. -/
def Recorded (q : CycleBooks) : Prop :=
  (q.appended.filter AttemptRecord.ofRequest).map (fun record => (record.iteration, record.agentId)) = q.sent

def allowed (q : CycleBooks) : RunOp → Prop
  | .post _ agentId _ attempt _ =>
    attempt = q.sent.length + 1 ∧ attempt ≤ step.maxIterations ∧ q.Picks agentId
  | .note _ u => ∀ nodeId, u.node? = some nodeId → nodeId = step.nodeId
  | _ => True

/-- What the end of a call says about what it has done. -/
def final (q : CycleBooks) (result : CycleEnd) : Prop :=
  q.Recorded ∧ q.outcome = some result.isOk

/-- The same but for what has been listed. -/
structure Keeps (q q' : CycleBooks) : Prop where
  sent : q'.sent = q.sent
  appended : q'.appended = q.appended
  outcome : q'.outcome = q.outcome

theorem Keeps.refl (q : CycleBooks) : Keeps q q := ⟨rfl, rfl, rfl⟩

/-! ### The pick -/

section Pick

variable {lower : String → String} {agents : List AgentPresence} {taskKind : String}
  {cycleTried bundleUsed : List String} {chosen : AgentPresence}

/-- The agent that is picked is a gateway of the pool; one that was tried is picked only where all gateways
of the pool were. -/
theorem of_pickWithDiversity
    (h : pickWithDiversity lower agents taskKind cycleTried bundleUsed = some chosen) :
    chosen ∈ agents ∧ TaskDispatchController.isGateway chosen = true ∧
      (chosen.agentId ∈ cycleTried → ∀ agent ∈ agents, TaskDispatchController.isGateway agent = true →
        agent.agentId ∈ cycleTried) := by
  rw [pickWithDiversity] at h
  rcases (Option.orElse_eq_some _ _ _).mp h with hfirst | ⟨-, hlater⟩
  · obtain ⟨hmem, hgateway, hnew⟩ := of_pickAgentForKind hfirst
    exact ⟨hmem, hgateway, fun htried => absurd (List.mem_append_left _ htried) hnew⟩
  · rcases (Option.orElse_eq_some _ _ _).mp hlater with hsecond | ⟨hnone, hthird⟩
    · obtain ⟨hmem, hgateway, hnew⟩ := of_pickAgentForKind hsecond
      exact ⟨hmem, hgateway, fun htried => absurd htried hnew⟩
    · obtain ⟨hmem, hgateway, -⟩ := of_pickAgentForKind hthird
      exact ⟨hmem, hgateway, fun _ => pickAgentForKind_eq_none_iff.mp hnone⟩

end Pick

/-! ### The cycle follows its books -/

section Follows

variable {call deps step} {q : CycleBooks}

/-- What the loop knows before an attempt with this number: the requests so far and who has been tried. -/
structure Ready (step : StepCall) (left attempt : Nat) (tried : List String) (q : CycleBooks) : Prop where
  recorded : q.Recorded
  number : attempt = q.sent.length + 1
  count : attempt + left = step.maxIterations + 1
  same : ∀ agentId, agentId ∈ tried ↔ agentId ∈ q.tried

theorem follows_sql {α : Type} (c : Sql α) :
    (Runtime.sql c).Follows (allowed step) (advance deps) (fun q' _ => Keeps q q') q := by
  refine .of_every_inv (J := fun q' => Keeps q q')
    (Runtime.every_sql (P := fun op => ∃ op', op = .sql op') c.every_true fun op _ => ⟨op, rfl⟩)
    (fun q' op _ hop => ?_) (fun q' op s hq hop => ?_) (Keeps.refl q)
  · obtain ⟨op', rfl⟩ := hop
    trivial
  · obtain ⟨op', rfl⟩ := hop
    cases op' <;> exact ⟨hq.sent, hq.appended, hq.outcome⟩

theorem follows_waitForTaskTerminal (taskId : String) (reads : Nat) :
    (waitForTaskTerminal taskId reads).Follows (allowed step) (advance deps) (fun q' _ => Keeps q q') q := by
  induction reads generalizing q with
  | zero => exact Keeps.refl q
  | succ reads ih =>
    refine (follows_sql _).bind fun q' found hq => ?_
    cases found with
    | none => trivial
    | some task =>
      refine .ite (fun _ => hq) fun _ => ih.mono fun q'' _ hq' => ?_
      exact ⟨hq'.sent.trans hq.sent, hq'.appended.trans hq.appended, hq'.outcome.trans hq.outcome⟩

/-- What is picked from the pool that has been listed. -/
theorem picks_listed {tried : List String} (htried : ∀ agentId, agentId ∈ tried ↔ agentId ∈ q.tried)
    {s : RunState} {chosen : AgentPresence}
    (h : pickWithDiversity step.lower (s.db.agents.filter (·.cookbookId == deps.cookbookId)) step.taskKind
      tried s.shared.bundleDispatchedAgents = some chosen) :
    (advance deps q (.sql .select) s).Picks chosen.agentId := by
  obtain ⟨hmem, hgateway, hall⟩ := of_pickWithDiversity h
  refine ⟨⟨chosen, List.mem_filter.mpr ⟨hmem, hgateway⟩, rfl⟩, fun hbefore agent hagent => ?_⟩
  obtain ⟨hmem', hgateway'⟩ := List.mem_filter.mp hagent
  exact (htried _).mp (hall ((htried _).mpr hbefore) agent hmem' hgateway')

theorem follows_awaitAgent {tried : List String} (htried : ∀ agentId, agentId ∈ tried ↔ agentId ∈ q.tried)
    (polls : Nat) :
    (awaitAgent deps step tried polls).Follows (allowed step) (advance deps)
      (fun q' found => Keeps q q' ∧ ∀ chosen, found = some chosen → q'.Picks chosen.agentId) q := by
  induction polls generalizing q with
  | zero => exact ⟨trivial, fun s => ⟨⟨rfl, rfl, rfl⟩, fun chosen h => picks_listed htried h⟩⟩
  | succ polls ih =>
    refine .perform_bind trivial fun s => ?_
    cases hpick : pickWithDiversity step.lower _ step.taskKind tried s.shared.bundleDispatchedAgents with
    | none => exact (@ih (advance deps q (.sql .select) s) htried).mono fun q' _ h =>
      ⟨⟨h.1.sent, h.1.appended, h.1.outcome⟩, h.2⟩
    | some chosen =>
      refine ⟨⟨rfl, rfl, rfl⟩, fun chosen' h => ?_⟩
      cases h
      exact picks_listed htried hpick

theorem Recorded.of_keeps {q' : CycleBooks} (h : q.Recorded) (hq : Keeps q q') : q'.Recorded := by
  rw [Recorded, hq.appended, hq.sent]
  exact h

/-- A record of no request changes nothing of what is recorded. -/
theorem recorded_append_other (h : q.Recorded) {record : AttemptRecord} (hother : record.ofRequest = false) :
    ({ q with appended := q.appended ++ [record] } : CycleBooks).Recorded := by
  rw [Recorded, List.filter_append, List.filter_cons, hother]
  simp only [Bool.false_eq_true, if_false, List.filter_nil, List.append_nil]
  exact h

/-- One more request, with its record. -/
structure Sends (q q' : CycleBooks) (agentId : String) (record : AttemptRecord) : Prop where
  sent : q'.sent = q.sent ++ [(record.iteration, agentId)]
  appended : q'.appended = q.appended ++ [record]
  agent : record.agentId = agentId
  ofRequest : record.ofRequest = true

/-- The request is out, and not recorded yet. -/
structure Posted (q q' : CycleBooks) (attempt : Nat) (agentId : String) : Prop where
  sent : q'.sent = q.sent ++ [(attempt, agentId)]
  appended : q'.appended = q.appended

theorem Posted.sends {q' : CycleBooks} {attempt : Nat} {agentId : String} (h : Posted q q' attempt agentId)
    (status summary : String) (hof : (AttemptRecord.mk attempt agentId status summary).ofRequest = true) :
    Sends q { q' with appended := q'.appended ++ [⟨attempt, agentId, status, summary⟩] } agentId
      ⟨attempt, agentId, status, summary⟩ :=
  ⟨h.sent, congrArg (· ++ [_]) h.appended, rfl, hof⟩

theorem Posted.trans {q' q'' : CycleBooks} {attempt : Nat} {agentId : String}
    (h : Posted q q' attempt agentId) (hq : Keeps q' q'') : Posted q q'' attempt agentId :=
  ⟨hq.sent.trans h.sent, hq.appended.trans h.appended⟩

theorem Sends.trans {q' q'' : CycleBooks} {agentId : String} {record : AttemptRecord}
    (h : Sends q q' agentId record) (hq : Keeps q' q'') : Sends q q'' agentId record :=
  ⟨hq.sent.trans h.sent, hq.appended.trans h.appended, h.agent, h.ofRequest⟩

theorem Sends.recorded {q' : CycleBooks} {agentId : String} {record : AttemptRecord}
    (h : Sends q q' agentId record) (hq : q.Recorded) : q'.Recorded := by
  rw [Recorded, h.appended, h.sent, List.filter_append, List.map_append, hq]
  simp [h.ofRequest, h.agent]

theorem Sends.ready {q' : CycleBooks} {agentId : String} {record : AttemptRecord} {left attempt : Nat}
    {tried : List String} (h : Sends q q' agentId record) (hattempt : record.iteration = attempt)
    (hq : Ready step (left + 1) attempt tried q) :
    Ready step left (attempt + 1) (tried.insert agentId) q' where
  recorded := h.recorded hq.recorded
  number := by rw [h.sent, List.length_append, List.length_singleton, hq.number]
  count := by
    have hcount := hq.count
    omega
  same other := by
    rw [List.mem_insert_iff, hq.same, CycleBooks.tried, CycleBooks.tried, h.sent, List.map_append,
      List.mem_append, List.map_singleton, List.mem_singleton]
    exact or_comm

theorem follows_recordFailure (taskId : String) (failure : CycleFailure)
    (hother : 0 < failure.iteration → failure.record.ofRequest = false) (h : q.Recorded) :
    (recordFailure call step taskId failure).Follows (allowed step) (advance deps) final q := by
  refine .perform_bind (fun nodeId hnode => (Option.some.inj hnode).symm) fun s => ⟨?_, rfl⟩
  by_cases hnumbered : 0 < failure.iteration
  · simp only [advance, if_pos hnumbered]
    exact recorded_append_other h (hother hnumbered)
  · simp only [advance, if_neg hnumbered, List.append_nil]
    exact h

theorem follows_succeed (taskId agentId shownId summary : String) (h : q.Recorded) :
    (succeed call step taskId agentId shownId summary).Follows (allowed step) (advance deps) final q := by
  refine .perform_bind (fun nodeId hnode => (Option.some.inj hnode).symm) fun s => ?_
  have hcollect : (collectFactsAndCodeRefs call step taskId).Follows (allowed step) (advance deps)
      (fun q' _ => Keeps (advance deps q (.note call (.success step.nodeId taskId summary)) s) q')
      (advance deps q (.note call (.success step.nodeId taskId summary)) s) := by
    refine (follows_sql _).bind fun q' events hq => ?_
    exact ⟨fun nodeId hnode => (Option.some.inj hnode).symm, fun _ => ⟨hq.sent, hq.appended, hq.outcome⟩⟩
  refine hcollect.bind fun q' _ hq => ⟨?_, hq.outcome⟩
  rw [Recorded, hq.appended, hq.sent]
  exact h

theorem ofRequest_of {attempt : Nat} {agentId status summary : String} (hattempt : 0 < attempt)
    (hstatus : ["no_agent", "exhausted", "no_task", "missing_task"].contains status = false) :
    (AttemptRecord.mk attempt agentId status summary).ofRequest = true := by
  have hne : attempt ≠ 0 := by omega
  simp only [AttemptRecord.ofRequest, hstatus, Bool.not_false, Bool.and_true, bne_iff_ne]
  exact hne

theorem ofRequest_of_status {attempt : Nat} {agentId summary : String} (hattempt : 0 < attempt)
    (status : TaskStatus) : (AttemptRecord.mk attempt agentId status.text summary).ofRequest = true := by
  cases status <;> exact ofRequest_of hattempt (by decide)

/-- A record is appended, and the cycle goes on. -/
theorem follows_appendAttempt {taskId : String} {attempt : AttemptRecord} {f : Unit → Runtime CycleEnd}
    (hf : (f ()).Follows (allowed step) (advance deps) final
      { q with appended := q.appended ++ [attempt] }) :
    (appendAttempt call step taskId attempt >>= f).Follows (allowed step) (advance deps) final q :=
  .perform_bind (fun _ hnode => (Option.some.inj hnode).symm) fun _ => hf

theorem follows_exhausted (taskId lastSummary : String) (h : q.Recorded) :
    (recordFailure call step taskId (.exhausted step.maxIterations lastSummary)).Follows (allowed step)
      (advance deps) final q :=
  follows_recordFailure _ _
    (fun _ => by simp [CycleFailure.record, CycleFailure.status, AttemptRecord.ofRequest]) h

/-- What is left of the loop, from the attempt with this number on. -/
theorem follows_runAttempts (d : Draws) (task : Task) (left attempt : Nat) (tried : List String)
    (lastSummary : String) (h : Ready step left attempt tried q) :
    (runAttempts call deps step d task left attempt tried lastSummary).Follows (allowed step)
      (advance deps) final q := by
  induction left generalizing q attempt tried lastSummary with
  | zero => exact follows_exhausted _ _ h.recorded
  | succ left ih =>
    refine (follows_awaitAgent h.same _).bind fun q' found hq => ?_
    obtain ⟨hq, hpicks⟩ := hq
    cases found with
    | none =>
      refine follows_appendAttempt (follows_exhausted _ _ ?_)
      exact recorded_append_other (h.recorded.of_keeps hq) (by simp [AttemptRecord.ofRequest])
    | some chosen =>
      refine .perform_bind (fun _ hnode => by cases hnode) fun _ => ?_
      have hcount := h.count
      have hpost : attempt = q'.sent.length + 1 ∧ attempt ≤ step.maxIterations ∧ q'.Picks chosen.agentId :=
        ⟨by rw [hq.sent]; exact h.number, by omega, hpicks chosen rfl⟩
      have hpos : 0 < attempt := by omega
      have hposted : Posted q { q' with sent := q'.sent ++ [(attempt, chosen.agentId)] } attempt
          chosen.agentId := ⟨congrArg (· ++ [_]) hq.sent, hq.appended⟩
      refine .perform_bind hpost fun _ => .ite (fun _ => follows_appendAttempt ?_) fun _ => ?_
      · exact ih _ _ _ ((hposted.sends "rejected" _ (ofRequest_of hpos (by decide))).ready rfl h)
      · refine (follows_sql _).bind fun q1 _ hq1 => ?_
        refine (follows_waitForTaskTerminal _ _).bind fun q2 ended hq2 => ?_
        replace hposted := (hposted.trans hq1).trans hq2
        cases ended with
        | none =>
          refine follows_appendAttempt (ih _ _ _ ?_)
          exact (hposted.sends "timeout" _ (ofRequest_of hpos (by decide))).ready rfl h
        | some ended =>
          refine .ite (fun _ => follows_appendAttempt ?_) fun _ => follows_appendAttempt ?_
          · refine follows_succeed _ _ _ _ ?_
            exact (hposted.sends "done" _ (ofRequest_of hpos (by decide))).recorded h.recorded
          · refine (follows_sql _).bind fun q3 _ hq3 => ih _ _ _ ?_
            exact ((hposted.sends ended.status.text _ (ofRequest_of_status hpos _)).trans hq3).ready rfl h

/-- Nothing has been sent. -/
structure Fresh (q : CycleBooks) : Prop where
  recorded : q.Recorded
  sent : q.sent = []

theorem Fresh.of_keeps {q' : CycleBooks} (h : Fresh q) (hq : Keeps q q') : Fresh q' :=
  ⟨h.recorded.of_keeps hq, hq.sent.trans h.sent⟩

/-- The record of a run that was adopted. -/
theorem Fresh.append {agentId status summary : String} (h : Fresh q) :
    Fresh { q with appended := q.appended ++ [⟨0, agentId, status, summary⟩] } :=
  ⟨recorded_append_other h.recorded rfl, h.sent⟩

theorem follows_attemptTask (d : Draws) (task : Task) (lastSummary : String) (h : Fresh q) :
    (attemptTask call deps step d task lastSummary).Follows (allowed step) (advance deps) final q := by
  refine (follows_sql _).bind fun q' _ hq => follows_runAttempts _ _ _ _ _ _ ?_
  have h' := h.of_keeps hq
  exact ⟨h'.recorded, by rw [h'.sent]; rfl, Nat.add_comm .., fun agentId => by rw [tried, h'.sent]; rfl⟩

theorem follows_runTask (d : Draws) (task : Task) (h : Fresh q) :
    (runTask call deps step d task).Follows (allowed step) (advance deps) final q := by
  refine .ite (fun _ => ?_) fun _ => follows_attemptTask _ _ _ h
  refine (follows_waitForTaskTerminal _ _).bind fun q' ended hq => ?_
  have h' := h.of_keeps hq
  cases ended with
  | none => exact follows_appendAttempt (follows_attemptTask _ _ _ h'.append)
  | some ended =>
    refine .ite (fun _ => ?_) fun _ => ?_
    · exact follows_appendAttempt (follows_succeed _ _ _ _ h'.append.recorded)
    · refine follows_appendAttempt ((follows_sql _).bind fun q'' _ hq' => ?_)
      exact follows_attemptTask _ _ _ (h'.append.of_keeps hq')

theorem follows_pollDependencies (acceptWhen : TaskStatus) (reads : Nat) (depId : String)
    (rest nextRound : List String) :
    (pollDependencies call acceptWhen reads depId rest nextRound).Follows (allowed step) (advance deps)
      (fun q' _ => q' = q) q := by
  induction reads generalizing depId rest nextRound with
  | zero => rfl
  | succ reads ih =>
    refine .perform_bind trivial fun s => ?_
    cases s.db.tasks.get depId with
    | none => rfl
    | some dep =>
      refine .ite (fun _ => rfl) fun _ => ?_
      dsimp only
      split
      · exact ih _ _ _
      · exact ih _ _ _
      · rfl

theorem follows_waitForDependencies (depTaskIds : List String) (acceptWhen : TaskStatus) (reads : Nat) :
    (waitForDependencies call depTaskIds acceptWhen reads).Follows (allowed step) (advance deps)
      (fun q' _ => q' = q) q := by
  unfold waitForDependencies
  split
  · rfl
  · exact follows_pollDependencies _ _ _ _ _

theorem follows_dispatchCycle (d : Draws) (h : Fresh q) :
    (dispatchCycle call deps step d).Follows (allowed step) (advance deps) final q := by
  have hfail : ∀ taskId failure, (0 < failure.iteration → failure.record.ofRequest = false) →
      ∀ q', Fresh q' → (recordFailure call step taskId failure).Follows (allowed step) (advance deps) final q' :=
    fun taskId failure hother q' h' => follows_recordFailure taskId failure hother h'.recorded
  have hdep : ∀ failure : CycleFailure, failure.iteration = 0 →
      0 < failure.iteration → failure.record.ofRequest = false := by
    intro failure hzero hpos
    rw [hzero] at hpos
    cases hpos
  refine .ite (fun _ => hfail _ _ (fun _ => rfl) _ h) fun _ => ?_
  refine (follows_sql _).bind fun q1 found hq1 => ?_
  have h1 := h.of_keeps hq1
  cases found with
  | none => exact hfail _ _ (fun _ => rfl) _ h1
  | some task =>
    refine .ite (fun _ => follows_succeed _ _ _ _ h1.recorded) fun _ => ?_
    refine .ite (fun _ => follows_runTask _ _ h1) fun _ => ?_
    refine (follows_waitForDependencies _ _ _).bind fun q2 waited hq2 => ?_
    subst hq2
    cases waited with
    | error e => cases e <;> exact hfail _ _ (hdep _ rfl) _ h1
    | ok _ =>
      refine (follows_sql _).bind fun q3 refreshed hq3 => ?_
      have h3 := h1.of_keeps hq3
      exact .ite (fun _ => follows_succeed _ _ _ _ h3.recorded) fun _ => follows_runTask _ _ h3

end Follows

/-! ### The shared record -/

section Shared

variable {deps step} {results : List (String × TaskNodeResult)} {nodeId : String} {fresh : TaskNodeResult}
  {f : TaskNodeResult → TaskNodeResult}

theorem lookup_amend :
    (OrchestratorState.amend nodeId fresh f results).lookup nodeId =
      some (f ((results.lookup nodeId).getD fresh)) := by
  induction results with
  | nil => simp [OrchestratorState.amend]
  | cons entry results ih =>
    obtain ⟨nodeId', result⟩ := entry
    by_cases hsame : nodeId' = nodeId
    · subst hsame
      simp [OrchestratorState.amend]
    · have hne : (nodeId == nodeId') = false := by simpa using fun heq => hsame heq.symm
      simp [OrchestratorState.amend, hsame, List.lookup_cons, hne, ih]

theorem lookup_collect (facts codeRefs : List String) :
    (results.map fun (nodeId', result) =>
      if nodeId' = nodeId then
        (nodeId', { result with
          facts := result.facts ++ facts, codeRefs := result.codeRefs ++ codeRefs })
      else (nodeId', result)).lookup nodeId =
      (results.lookup nodeId).map fun result =>
        { result with facts := result.facts ++ facts, codeRefs := result.codeRefs ++ codeRefs } := by
  induction results with
  | nil => rfl
  | cons entry results ih =>
    obtain ⟨nodeId', result⟩ := entry
    by_cases hsame : nodeId' = nodeId
    · subst hsame
      simp
    · have hne : (nodeId == nodeId') = false := by simpa using fun heq => hsame heq.symm
      simp [hsame, List.lookup_cons, hne, ih]

/-- The attempts of the node's record. -/
def attemptsOf (nodeId : String) (s : RunState) : List AttemptRecord :=
  ((s.shared.taskResults.lookup nodeId).map (·.attempts)).getD []

/-- The record of the node: the attempts it began with and those the call has appended, and the outcome. -/
structure InRecord (nodeId : String) (base : List AttemptRecord) (q : CycleBooks) (s : RunState) : Prop where
  attempts : attemptsOf nodeId s = base ++ q.appended
  outcome : ∀ success, q.outcome = some success →
    ∃ record, s.shared.taskResults.lookup nodeId = some record ∧ record.success = success

theorem attemptsOf_getD {s : RunState} (hfresh : fresh.attempts = []) :
    ((s.shared.taskResults.lookup nodeId).getD fresh).attempts = attemptsOf nodeId s := by
  rw [attemptsOf]
  cases s.shared.taskResults.lookup nodeId with
  | none => exact hfresh
  | some record => rfl

/-- The record has been changed, or made. -/
theorem inRecord_amend {base added : List AttemptRecord} {q q' : CycleBooks} {s s' : RunState}
    (h : InRecord nodeId base q s)
    (hrecord : s'.shared.taskResults = OrchestratorState.amend nodeId fresh f s.shared.taskResults)
    (hfresh : fresh.attempts = []) (hattempts : ∀ record, (f record).attempts = record.attempts ++ added)
    (happended : q'.appended = q.appended ++ added)
    (houtcome : ∀ success, q'.outcome = some success → q.outcome = some success ∧
      (∀ record, (f record).success = record.success) ∨ ∀ record, (f record).success = success) :
    InRecord nodeId base q' s' := by
  have hlookup : s'.shared.taskResults.lookup nodeId =
      some (f ((s.shared.taskResults.lookup nodeId).getD fresh)) := by rw [hrecord, lookup_amend]
  refine ⟨?_, fun success hsuccess => ⟨_, hlookup, ?_⟩⟩
  · rw [attemptsOf, hlookup, Option.map_some, Option.getD_some, hattempts, attemptsOf_getD hfresh, h.attempts,
      happended, List.append_assoc]
  · rcases houtcome success hsuccess with ⟨hbefore, hkeeps⟩ | hsets
    · obtain ⟨record, hrecord, hsame⟩ := h.outcome success hbefore
      rw [hkeeps, hrecord]
      exact hsame
    · exact hsets _

theorem inRecord_advance {base : List AttemptRecord} {q : CycleBooks} {op : RunOp} {s : RunState}
    (hop : allowed step q op) (h : InRecord step.nodeId base q s) :
    InRecord step.nodeId base (advance deps q op s) (op.exec s) := by
  cases op with
  | sql op => cases op <;> exact ⟨h.attempts, h.outcome⟩
  | poll | post => exact ⟨h.attempts, h.outcome⟩
  | note call u =>
    cases u with
    | dispatched agentId => exact ⟨h.attempts, h.outcome⟩
    | attempt nodeId taskId record =>
      obtain rfl := hop nodeId rfl
      exact inRecord_amend h rfl rfl (fun _ => rfl) rfl fun _ hsuccess => .inl ⟨hsuccess, fun _ => rfl⟩
    | success nodeId taskId summary =>
      obtain rfl := hop nodeId rfl
      exact inRecord_amend h rfl rfl (fun _ => (List.append_nil _).symm) (List.append_nil _).symm
        fun _ hsuccess => .inr fun _ => Option.some.inj hsuccess
    | failure nodeId taskId failure =>
      obtain rfl := hop nodeId rfl
      exact inRecord_amend h rfl rfl (fun _ => rfl) rfl fun _ hsuccess => .inr fun _ => Option.some.inj hsuccess
    | collect nodeId facts codeRefs =>
      obtain rfl := hop nodeId rfl
      have hlookup : (RunOp.exec (.note call (.collect step.nodeId facts codeRefs)) s).shared.taskResults.lookup
          step.nodeId = (s.shared.taskResults.lookup step.nodeId).map fun result =>
            { result with facts := result.facts ++ facts, codeRefs := result.codeRefs ++ codeRefs } :=
        lookup_collect facts codeRefs
      refine ⟨?_, fun success hsuccess => ?_⟩
      · rw [attemptsOf, hlookup, Option.map_map]
        exact h.attempts
      · obtain ⟨record, hrecord, hsame⟩ := h.outcome success hsuccess
        rw [hlookup, hrecord]
        exact ⟨_, rfl, hsame⟩

end Shared

end CycleBooks

/-! ### The exceptions of a cycle -/

/-- What `wait_for_task_terminal` raises when the row of the task is gone. -/
def Disappeared (e : Exn) : Prop := ∃ taskId : String, e = .valueError s!"task {taskId} disappeared during polling"

section Throws

variable {call : Nat} {deps : OrchestratorDeps} {step : StepCall}

theorem throws_sql_get (taskId : String) : (Runtime.sql (TaskRepo.get taskId)).Throws Disappeared :=
  .within (Coro.throws_perform _ _)

theorem throws_sql_reopen (taskId : String) (seen : Option Task) (d : Draws) :
    (Runtime.sql (TaskRepo.reopenForRerun taskId seen d)).Throws Disappeared :=
  .within (.bind (Coro.throws_perform _ _) fun _ => .bind Sql.throws_commit fun _ => Coro.throws_perform _ _)

theorem throws_waitForTaskTerminal (taskId : String) (reads : Nat) :
    (waitForTaskTerminal taskId reads).Throws Disappeared := by
  induction reads with
  | zero => trivial
  | succ reads ih =>
    refine .bind (throws_sql_get _) fun found => ?_
    cases found with
    | none => exact ⟨taskId, rfl⟩
    | some task => exact .ite (fun _ => trivial) fun _ => ih

theorem throws_note (u : StateUpdate) : (Runtime.note call u).Throws Disappeared := Coro.throws_perform _ _

theorem throws_recordFailure (taskId : String) (failure : CycleFailure) :
    (recordFailure call step taskId failure).Throws Disappeared :=
  .bind (throws_note _) fun _ => trivial

theorem throws_succeed (taskId agentId shownId summary : String) :
    (succeed call step taskId agentId shownId summary).Throws Disappeared :=
  .bind (throws_note _) fun _ => .bind (.bind (.within (Coro.throws_perform _ _)) fun _ => throws_note _)
    fun _ => trivial

theorem throws_awaitAgent (tried : List String) (polls : Nat) :
    (awaitAgent deps step tried polls).Throws Disappeared := by
  induction polls with
  | zero => exact Coro.throws_perform _ _
  | succ polls ih =>
    refine .bind (Coro.throws_perform _ _) fun found => ?_
    cases found with
    | none => exact ih
    | some chosen => trivial

theorem throws_runAttempts (d : Draws) (task : Task) (left attempt : Nat) (tried : List String)
    (lastSummary : String) :
    (runAttempts call deps step d task left attempt tried lastSummary).Throws Disappeared := by
  induction left generalizing attempt tried lastSummary with
  | zero => exact throws_recordFailure _ _
  | succ left ih =>
    refine .bind (throws_awaitAgent _ _) fun found => ?_
    cases found with
    | none => exact .bind (throws_note _) fun _ => throws_recordFailure _ _
    | some chosen =>
      refine .bind (throws_note _) fun _ => .bind (Coro.throws_perform _ _) fun _ => .ite (fun _ => ?_) fun _ => ?_
      · exact .bind (throws_note _) fun _ => ih _ _ _
      · refine .bind (.within (.bind (TaskRepo.throws_update _ _ _ _) fun _ =>
          TaskService.throws_recordUpdated _)) fun _ => ?_
        refine .bind (throws_waitForTaskTerminal _ _) fun ended => ?_
        cases ended with
        | none => exact .bind (throws_note _) fun _ => ih _ _ _
        | some ended =>
          refine .ite (fun _ => .bind (throws_note _) fun _ => throws_succeed _ _ _ _) fun _ => ?_
          exact .bind (throws_note _) fun _ => .bind (throws_sql_reopen _ _ _) fun _ => ih _ _ _

theorem throws_attemptTask (d : Draws) (task : Task) (lastSummary : String) :
    (attemptTask call deps step d task lastSummary).Throws Disappeared := by
  have hreads : ∀ depIds : List String, Coro.Throws Disappeared (depIds.forM fun _ => Sql.select fun _ => ()) := by
    intro depIds
    induction depIds with
    | nil => trivial
    | cons depId depIds ih => exact .bind (Coro.throws_perform _ _) fun _ => ih
  exact .bind (.within (hreads _)) fun _ => throws_runAttempts _ _ _ _ _ _

theorem throws_runTask (d : Draws) (task : Task) :
    (runTask call deps step d task).Throws Disappeared := by
  refine .ite (fun _ => ?_) fun _ => throws_attemptTask _ _ _
  refine .bind (throws_waitForTaskTerminal _ _) fun ended => ?_
  cases ended with
  | none => exact .bind (throws_note _) fun _ => throws_attemptTask _ _ _
  | some ended =>
    refine .ite (fun _ => .bind (throws_note _) fun _ => throws_succeed _ _ _ _) fun _ => ?_
    exact .bind (throws_note _) fun _ => .bind (throws_sql_reopen _ _ _) fun _ => throws_attemptTask _ _ _

theorem throws_pollDependencies (acceptWhen : TaskStatus) (reads : Nat) (depId : String)
    (rest nextRound : List String) :
    (pollDependencies call acceptWhen reads depId rest nextRound).Throws Disappeared := by
  induction reads generalizing depId rest nextRound with
  | zero => trivial
  | succ reads ih =>
    refine .bind (Coro.throws_perform _ _) fun dep => ?_
    cases dep with
    | none => trivial
    | some dep =>
      refine .ite (fun _ => trivial) fun _ => ?_
      dsimp only
      split
      · exact ih _ _ _
      · exact ih _ _ _
      · trivial

theorem throws_waitForDependencies (depTaskIds : List String) (acceptWhen : TaskStatus) (reads : Nat) :
    (waitForDependencies call depTaskIds acceptWhen reads).Throws Disappeared := by
  unfold waitForDependencies
  split
  · trivial
  · exact throws_pollDependencies _ _ _ _ _

theorem throws_dispatchCycle (d : Draws) : (dispatchCycle call deps step d).Throws Disappeared := by
  refine .ite (fun _ => throws_recordFailure _ _) fun _ => .bind (throws_sql_get _) fun found => ?_
  cases found with
  | none => exact throws_recordFailure _ _
  | some task =>
    refine .ite (fun _ => throws_succeed _ _ _ _) fun _ => .ite (fun _ => throws_runTask _ _) fun _ => ?_
    refine .bind (throws_waitForDependencies _ _ _) fun waited => ?_
    cases waited with
    | error e => cases e <;> exact throws_recordFailure _ _
    | ok _ =>
      exact .bind (throws_sql_get _) fun _ => .ite (fun _ => throws_succeed _ _ _ _) fun _ => throws_runTask _ _

end Throws

/-! ### The books of a call -/

/-- A string begins with another. -/
def Begins (text start : String) : Prop := start.toList <+: text.toList

/-- The books of a call are in order: at most `max_iterations` requests, numbered upwards; no agent twice while
the pool has another; one record for each request, under its number, beside those of an adopted run and of the
failure; and a result that says what the record of the node says. -/
structure BooksInOrder (deps : OrchestratorDeps) (step : StepCall) (s : RunState)
    (steps : List (RunOp × RunState)) (r : Except Exn CycleEnd) (t : RunState) : Prop where
  sent_le : (CycleBooks.after deps steps).sent.length ≤ step.maxIterations
  increasing : ((CycleBooks.after deps steps).sent.map (·.1)).Pairwise (· < ·)
  picks : ∀ before later call agentId taskId attempt accepted at_,
    steps = before ++ (.post call agentId taskId attempt accepted, at_) :: later →
      (CycleBooks.after deps before).Picks agentId
  recorded : ∀ result, r = .ok result → (CycleBooks.after deps steps).Recorded
  record : ∀ result, r = .ok result → ∃ record,
    t.shared.taskResults.lookup step.nodeId = some record ∧
      record.attempts =
        CycleBooks.attemptsOf step.nodeId s ++ (CycleBooks.after deps steps).appended ∧
      (Begins result.text "done:" ↔ record.success = true) ∧
      (record.success = false → Begins result.text "error:")
  raises : ∀ e, r = .error e → Disappeared e

theorem begins_done_ok (agentId : String) : Begins (CycleEnd.text (.ok agentId)) "done:" :=
  ⟨' ' :: agentId.toList, by simp [CycleEnd.text, toString]⟩

theorem begins_error_error (failure : CycleFailure) : Begins (CycleEnd.text (.error failure)) "error:" :=
  ⟨' ' :: failure.summary.toList, by simp [CycleEnd.text, toString]⟩

theorem not_begins_done_error (failure : CycleFailure) : ¬ Begins (CycleEnd.text (.error failure)) "done:" := by
  rintro ⟨rest, hrest⟩
  simp [CycleEnd.text, toString] at hrest

namespace CycleBooks

/-- The requests are numbered from one on, up to the limit. -/
structure Numbered (step : StepCall) (q : CycleBooks) : Prop where
  numbers : q.sent.map (·.1) = List.range' 1 q.sent.length
  le : q.sent.length ≤ step.maxIterations

theorem numbered_advance {deps : OrchestratorDeps} {step : StepCall} {q : CycleBooks} {op : RunOp}
    {s : RunState} (hop : allowed step q op) (h : Numbered step q) : Numbered step (advance deps q op s) := by
  cases op with
  | sql op => cases op <;> exact ⟨h.numbers, h.le⟩
  | poll => exact ⟨h.numbers, h.le⟩
  | note call u => cases u <;> exact ⟨h.numbers, h.le⟩
  | post call agentId taskId attempt accepted =>
    obtain ⟨rfl, hle, -⟩ := hop
    refine ⟨?_, ?_⟩
    · show (q.sent ++ [_]).map _ = List.range' 1 (q.sent ++ [_]).length
      rw [List.map_append, h.numbers, List.length_append, List.length_singleton, List.range'_concat]
      simp [Nat.add_comm]
    · show (q.sent ++ [_]).length ≤ _
      rw [List.length_append, List.length_singleton]
      exact hle

end CycleBooks

/-- For every call and every run of it beside which nobody else works on the state of the run. -/
theorem booksInOrder_of_runs (call : Nat) (deps : OrchestratorDeps) (step : StepCall) (d : Draws)
    {s t : RunState} {steps : List (RunOp × RunState)} {r : Except Exn CycleEnd}
    (h : (dispatchCycle call deps step d).Runs RunOp.exec Alone s steps r t) :
    BooksInOrder deps step s steps r t := by
  have hfollows : (dispatchCycle call deps step d).Follows (CycleBooks.allowed step)
      (CycleBooks.advance deps) CycleBooks.final {} := CycleBooks.follows_dispatchCycle d ⟨rfl, rfl⟩
  have hnumbered := hfollows.inv_of_runs (J := fun q _ => CycleBooks.Numbered step q) h
    (fun _ _ _ _ hq => hq) (fun _ _ _ hop hq => CycleBooks.numbered_advance hop hq) ⟨rfl, Nat.zero_le _⟩
  have hrecord := hfollows.inv_of_runs
    (J := CycleBooks.InRecord step.nodeId (CycleBooks.attemptsOf step.nodeId s)) h
    (fun q s1 s2 henv hq => ⟨?_, ?_⟩) (fun _ _ _ hop hq => CycleBooks.inRecord_advance hop hq)
    ⟨(List.append_nil _).symm, fun _ hnone => by cases hnone⟩
  · refine ⟨hnumbered.le, ?_, ?_, fun result hr => (hfollows.final_of_runs h hr).1, ?_, ?_⟩
    · rw [CycleBooks.after, hnumbered.numbers]
      exact List.pairwise_lt_range'
    · intro before later call' agentId taskId attempt accepted at_ hsplit
      exact (hfollows.allowed_of_runs h hsplit).2.2
    · intro result hr
      obtain ⟨record, hlookup, hsuccess⟩ := hrecord.outcome _ (hfollows.final_of_runs h hr).2
      refine ⟨record, hlookup, ?_, ?_, ?_⟩
      · have hattempts := hrecord.attempts
        rw [CycleBooks.attemptsOf, hlookup] at hattempts
        exact hattempts
      · cases result with
        | ok agentId => exact iff_of_true (begins_done_ok agentId) hsuccess
        | error failure => exact iff_of_false (not_begins_done_error failure) (by rw [hsuccess]; exact Bool.false_ne_true)
      · cases result with
        | ok agentId =>
          intro hfalse
          rw [hsuccess] at hfalse
          cases hfalse
        | error failure => exact fun _ => begins_error_error failure
    · exact fun e hr => (throws_dispatchCycle d).of_runs h hr
  · rw [CycleBooks.attemptsOf, henv]
    exact hq.attempts
  · rw [henv]
    exact hq.outcome

/-! ### A call that is refused -/

/-- One agent, and one task for the node. -/
def retryState : RunState where
  db := { tasks := ⟨[{ id := "task_1", bundleId := "bun_1" }], List.nodup_singleton _⟩
          agents := [{ agentId := "coder@me", cookbookId := "cb_1", endpointUrl := some "http://coder"
                       status := .online }] }
  shared := { bundleId := "bun_1" }

def retryDeps : OrchestratorDeps := { taskIdMap := [("build", "task_1")], cookbookId := "cb_1" }

def retryStep : StepCall := { nodeId := "build", maxIterations := 1 }

/-- A call with one attempt, which the gateway rejects. -/
def rejectedCall : Runtime CycleEnd :=
  dispatchCycle 0 retryDeps retryStep { pathDraws 'a' with accepted := fun _ => false }

theorem rejectedCall_runs : rejectedCall.Runs RunOp.exec Alone retryState
    (rejectedCall.trace RunOp.exec retryState) (rejectedCall.run RunOp.exec retryState).1
    (rejectedCall.run RunOp.exec retryState).2 := Coro.runs_trace alone_refl _ _

theorem booksInOrder_of_rejected : BooksInOrder retryDeps retryStep retryState
    (rejectedCall.trace RunOp.exec retryState) (rejectedCall.run RunOp.exec retryState).1
    (rejectedCall.run RunOp.exec retryState).2 :=
  booksInOrder_of_runs 0 retryDeps retryStep _ rejectedCall_runs

/-- The call sends one request and leaves two records under its number: the rejection and the failure. -/
theorem rejected_call_records_twice :
    ¬ ∀ steps r t, rejectedCall.Runs RunOp.exec Alone retryState steps r t →
      ∀ request ∈ (CycleBooks.after retryDeps steps).sent,
        ((CycleBooks.after retryDeps steps).appended.filter (·.iteration == request.1)).length = 1 := by
  intro h
  have hsent : (CycleBooks.after retryDeps (rejectedCall.trace RunOp.exec retryState)).sent =
      [(1, "coder@me")] := by decide +kernel
  have hlength : ((CycleBooks.after retryDeps (rejectedCall.trace RunOp.exec retryState)).appended.filter
      (·.iteration == 1)).length = 2 := by decide +kernel
  have hone := h _ _ _ rejectedCall_runs (1, "coder@me") (by rw [hsent]; exact List.mem_singleton_self _)
  rw [hlength] at hone
  cases hone

end Krewhub
