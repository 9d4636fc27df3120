import Mathlib.Data.Nat.Basic
import Krewhub.Controllers.Dispatch
import Krewhub.Graph.Polling

/-!
# The dispatch cycle

`dispatch_cycle`: wait for the dependencies, adopt a run of the task that is under way, then send the task
to one gateway after the other until an agent has done it or the attempts are used up. The prompts are
left out, and with them what is read only to write them.
-/

namespace Krewhub

/-- What the code of a graph step says about it, and `str.lower`. -/
structure StepCall where
  nodeId : String
  taskKind : String := ""
  maxIterations : Nat := 3
  acceptWhen : TaskStatus := .done
  lower : String → String := String.toLower

/-! ### Choosing an agent -/

/-- The place of an agent in the ranking of `pick_agent_for_kind`. -/
def rankKey (lower : String → String) (taskKind : String) (agent : AgentPresence) : Nat × Nat × String :=
  (if agent.capabilities.any fun cap => lower cap = lower taskKind then 0 else 1,
    if agent.status = .online then 0 else 1, agent.agentId)

/-- One place comes before another. -/
def rankBefore (a b : Nat × Nat × String) : Bool :=
  decide (a.1 < b.1) || a.1 == b.1 &&
    (decide (a.2.1 < b.2.1) || a.2.1 == b.2.1 && decide (a.2.2 < b.2.2))

def pickAgentForKind (lower : String → String) (agents : List AgentPresence) (taskKind : String)
    (exclude : List String) : Option AgentPresence :=
  (agents.filter fun agent =>
    TaskDispatchController.isGateway agent && !exclude.contains agent.agentId).foldl
    (fun best agent => match best with
      | none => some agent
      | some other =>
        if rankBefore (rankKey lower taskKind agent) (rankKey lower taskKind other) then some agent
        else some other) none

def pickWithDiversity (lower : String → String) (agents : List AgentPresence) (taskKind : String)
    (cycleTried bundleUsed : List String) : Option AgentPresence :=
  pickAgentForKind lower agents taskKind (cycleTried ++ bundleUsed) <|>
    pickAgentForKind lower agents taskKind cycleTried <|> pickAgentForKind lower agents taskKind []

/-- The better of the best so far and one more. -/
def keepBest {α : Type} (before : α → α → Bool) (best : Option α) (a : α) : Option α :=
  match best with
  | none => some a
  | some other => if before a other then some a else some other

section KeepBest

variable {α : Type} {before : α → α → Bool} {l : List α} {best : Option α} {a : α}

theorem foldl_keepBest_cons (x : α) :
    ∃ y, (x :: l).foldl (keepBest before) best = l.foldl (keepBest before) (some y) ∧
      (y = x ∨ best = some y) := by
  cases best with
  | none => exact ⟨x, rfl, .inl rfl⟩
  | some other =>
    by_cases hbefore : before x other = true
    · exact ⟨x, by simp [keepBest, hbefore], .inl rfl⟩
    · exact ⟨other, by simp [keepBest, hbefore], .inr rfl⟩

theorem mem_of_foldl_keepBest (h : l.foldl (keepBest before) best = some a) : a ∈ l ∨ best = some a := by
  induction l generalizing best with
  | nil => exact .inr h
  | cons x l ih =>
    obtain ⟨y, heq, hy⟩ := foldl_keepBest_cons x
    rw [heq] at h
    rcases ih h with hmem | hsome
    · exact .inl (List.mem_cons_of_mem _ hmem)
    · cases hsome
      rcases hy with rfl | hbest
      · exact .inl List.mem_cons_self
      · exact .inr hbest

theorem foldl_keepBest_eq_none_iff :
    l.foldl (keepBest before) best = none ↔ l = [] ∧ best = none := by
  induction l generalizing best with
  | nil => simp
  | cons x l ih =>
    obtain ⟨y, heq, -⟩ := foldl_keepBest_cons x
    rw [heq, ih]
    simp

/-- What is kept is best by every measure the order looks at first. -/
theorem foldl_keepBest_le {β : Type} [Preorder β] (rank : α → β)
    (hbefore : ∀ x y, before x y = true → rank x ≤ rank y)
    (hnot : ∀ x y, before x y = false → rank y ≤ rank x) (h : l.foldl (keepBest before) best = some a) :
    (∀ x ∈ l, rank a ≤ rank x) ∧ ∀ x, best = some x → rank a ≤ rank x := by
  induction l generalizing best with
  | nil =>
    refine ⟨fun x hx => absurd hx List.not_mem_nil, fun x hx => ?_⟩
    rw [List.foldl_nil, hx] at h
    exact Option.some.inj h ▸ le_refl _
  | cons x l ih =>
    rw [List.foldl_cons] at h
    obtain ⟨hrest, hkept⟩ := ih h
    cases best with
    | none => exact ⟨List.forall_mem_cons.mpr ⟨hkept x rfl, hrest⟩, fun y hy => by cases hy⟩
    | some other =>
      by_cases hx : before x other = true
      · have hle := hkept x (by simp [keepBest, hx])
        refine ⟨List.forall_mem_cons.mpr ⟨hle, hrest⟩, fun y hy => ?_⟩
        cases hy
        exact le_trans hle (hbefore _ _ hx)
      · have hle := hkept other (by simp [keepBest, hx])
        refine ⟨List.forall_mem_cons.mpr ⟨le_trans hle (hnot _ _ (by simpa using hx)), hrest⟩,
          fun y hy => ?_⟩
        cases hy
        exact hle

end KeepBest

section Picked

variable {lower : String → String} {agents : List AgentPresence} {taskKind : String}
  {exclude : List String} {agent : AgentPresence}

theorem pickAgentForKind_eq :
    pickAgentForKind lower agents taskKind exclude =
      (agents.filter fun agent =>
        TaskDispatchController.isGateway agent && !exclude.contains agent.agentId).foldl
        (keepBest fun a b => rankBefore (rankKey lower taskKind a) (rankKey lower taskKind b)) none := by
  unfold pickAgentForKind
  congr
  funext best agent
  cases best <;> rfl

/-- The agent that is picked is in the pool, a gateway, and not one of those to leave out. -/
theorem of_pickAgentForKind (h : pickAgentForKind lower agents taskKind exclude = some agent) :
    agent ∈ agents ∧ TaskDispatchController.isGateway agent = true ∧ agent.agentId ∉ exclude := by
  rw [pickAgentForKind_eq] at h
  rcases mem_of_foldl_keepBest h with hmem | hnone
  · simpa [List.mem_filter] using hmem
  · cases hnone

theorem pickAgentForKind_eq_none_iff :
    pickAgentForKind lower agents taskKind exclude = none ↔
      ∀ agent ∈ agents, TaskDispatchController.isGateway agent = true → agent.agentId ∈ exclude := by
  rw [pickAgentForKind_eq, foldl_keepBest_eq_none_iff, List.filter_eq_nil_iff]
  simp

/-- An agent with the capability is preferred to one without it. -/
theorem capable_of_pickAgentForKind (h : pickAgentForKind lower agents taskKind exclude = some agent)
    {other : AgentPresence} (hmem : other ∈ agents)
    (hgateway : TaskDispatchController.isGateway other = true) (hexclude : other.agentId ∉ exclude)
    (hcap : other.capabilities.any (fun cap => lower cap = lower taskKind) = true) :
    agent.capabilities.any (fun cap => lower cap = lower taskKind) = true := by
  rw [pickAgentForKind_eq] at h
  have hle := (foldl_keepBest_le (fun a => (rankKey lower taskKind a).1) (fun x y hxy => ?_)
    (fun x y hxy => ?_) h).1 other ?_
  · by_contra hno
    simp only [rankKey, if_pos hcap, if_neg hno] at hle
    omega
  · simp only [rankBefore, Bool.or_eq_true, Bool.and_eq_true, decide_eq_true_eq, beq_iff_eq] at hxy
    omega
  · simp only [rankBefore, Bool.or_eq_false_iff, decide_eq_false_iff_not] at hxy
    omega
  · simpa [List.mem_filter] using ⟨hmem, hgateway, hexclude⟩

end Picked

/-! ### The cycle -/

section Cycle

variable (call : Nat) (deps : OrchestratorDeps) (step : StepCall) (d : Draws)

/-- `deps.task_id_map.get(node_id, "")`. -/
def StepCall.taskId : String := (deps.taskIdMap.lookup step.nodeId).getD ""

/-- The agents that are listed, and the one that is picked. -/
def pickListed (tried : List String) : Runtime (Option AgentPresence) :=
  .perform (.sql .select) fun s =>
    pickWithDiversity step.lower (s.db.agents.filter (·.cookbookId == deps.cookbookId)) step.taskKind tried
      s.shared.bundleDispatchedAgents

/-- The agent of an attempt; where there is none the cycle looks again, for 60 seconds. -/
def awaitAgent (tried : List String) : Nat → Runtime (Option AgentPresence)
  | 0 => pickListed deps step tried
  | polls + 1 => do
    match ← pickListed deps step tried with
    | none => awaitAgent tried polls
    | some chosen => return some chosen

def recordFailure (taskId : String) (failure : CycleFailure) : Runtime CycleEnd := do
  Runtime.note call (.failure step.nodeId taskId failure)
  return .error failure

def appendAttempt (taskId : String) (attempt : AttemptRecord) : Runtime Unit :=
  Runtime.note call (.attempt step.nodeId taskId attempt)

def collectFactsAndCodeRefs (taskId : String) : Runtime Unit := do
  let events ← Runtime.sql (EventRepo.listByTask taskId)
  Runtime.note call (.collect step.nodeId (events.flatMap (·.facts)) (events.flatMap (·.codeRefs)))

/-- `_record_success` and the return after it. -/
def succeed (taskId agentId shownId summary : String) : Runtime CycleEnd := do
  Runtime.note call (.success step.nodeId taskId summary)
  collectFactsAndCodeRefs call step taskId
  return .ok (orElseText (some agentId) shownId)

def markClaimed (seen : Task) (agent : AgentPresence) (d : Draws) : Runtime Unit :=
  Runtime.sql do
    let updated ← TaskRepo.update seen.id (TaskDispatchController.claimPatch agent.agentId d.clock) none
      (some seen) (d.sub 0)
    TaskService.recordUpdated updated

def dispatchToGateway (agent : AgentPresence) (task : Task) (attempt : Nat) (d : Draws) : Runtime Bool :=
  .perform (.post call agent.agentId task.id attempt (d.accepted [])) fun _ => d.accepted []

/-- `final.blocked_reason or f"status={final.status}"`. -/
def Task.endReason (final : Task) : String :=
  orElseText final.blockedReason s!"status={final.status.text}"

/-- The attempts that are left, from the one with this number on. -/
def runAttempts (task : Task) : Nat → Nat → List String → String → Runtime CycleEnd
  | 0, _, _, lastSummary =>
    recordFailure call step task.id (.exhausted step.maxIterations lastSummary)
  | left + 1, attempt, tried, lastSummary => do
    let d := d.sub left
    match ← awaitAgent deps step tried deps.gatewayPolls with
    | none =>
      appendAttempt call step task.id ⟨attempt, "", "no_agent", "no eligible gateway in pool"⟩
      recordFailure call step task.id (.exhausted step.maxIterations "no eligible gateway")
    | some chosen =>
      let agentId := chosen.agentId
      Runtime.note call (.dispatched agentId)
      if !(← dispatchToGateway call chosen task attempt (d.sub 0)) then
        appendAttempt call step task.id
          ⟨attempt, agentId, "rejected", s!"gateway {agentId} rejected dispatch"⟩
        runAttempts task left (attempt + 1) (tried.insert agentId) s!"gateway {agentId} rejected"
      else
        markClaimed task chosen (d.sub 1)
        match ← waitForTaskTerminal task.id ((d.sub 2).polls []) with
        | none =>
          appendAttempt call step task.id
            ⟨attempt, agentId, "timeout", s!"timed out after {deps.taskTimeout}s"⟩
          runAttempts task left (attempt + 1) (tried.insert agentId) s!"timeout on {agentId}"
        | some final =>
          if final.status = step.acceptWhen then
            appendAttempt call step task.id
              ⟨attempt, agentId, "done", s!"{agentId} completed in attempt {attempt}"⟩
            succeed call step task.id agentId ""
              s!"completed by {agentId} in {attempt} attempt(s)"
          else
            appendAttempt call step task.id
              ⟨attempt, agentId, final.status.text, final.endReason⟩
            let _ ← Runtime.sql (TaskRepo.reopenForRerun task.id (some final) (d.sub 3))
            runAttempts task left (attempt + 1) (tried.insert agentId) final.endReason

/-- `_assemble_upstream_context` and the attempts. -/
def attemptTask (task : Task) (lastSummary : String) : Runtime CycleEnd := do
  Runtime.sql (task.dependsOnTaskIds.forM fun _ => Sql.select fun _ => ())
  runAttempts call deps step d task step.maxIterations 1 [] lastSummary

/-- The rest of the cycle once the dependencies are there: a run that is under way is waited for. -/
def runTask (task : Task) : Runtime CycleEnd := do
  if task.status = .claimed ∨ task.status = .working then
    let owningAgent := task.claimedByAgentId.getD ""
    let owner := orElseText (some owningAgent) "existing run"
    let adopted := orElseText (some owningAgent) "unknown"
    match ← waitForTaskTerminal task.id ((d.sub 0).polls []) with
    | none =>
      appendAttempt call step task.id ⟨0, owningAgent, "timeout",
        s!"already in-flight on entry; timed out after {deps.taskTimeout}s waiting for terminal"⟩
      attemptTask call deps step (d.sub 1) task
        s!"timeout waiting for {owner}"
    | some final =>
      if final.status = step.acceptWhen then
        appendAttempt call step task.id ⟨0, owningAgent, "done",
          s!"task was already in-flight on entry; {owner} completed it"⟩
        succeed call step task.id owningAgent "adopted" s!"adopted existing run by {adopted}"
      else
        appendAttempt call step task.id ⟨0, owningAgent, final.status.text,
          s!"in-flight on entry, ended with {final.endReason}"⟩
        let _ ← Runtime.sql (TaskRepo.reopenForRerun task.id (some final) (d.sub 2))
        attemptTask call deps step (d.sub 1) task final.endReason
  else attemptTask call deps step (d.sub 1) task ""

def dispatchCycle : Runtime CycleEnd := do
  let taskId := step.taskId deps
  if taskId = "" then recordFailure call step "" (.noTask step.nodeId)
  else match ← Runtime.sql (TaskRepo.get taskId) with
    | none => recordFailure call step taskId (.missingTask taskId)
    | some task =>
      if task.status = step.acceptWhen then
        succeed call step taskId (task.claimedByAgentId.getD "") "cached" "already complete"
      else if task.dependsOnTaskIds.isEmpty then runTask call deps step (d.sub 1) task
      else match ← waitForDependencies call task.dependsOnTaskIds step.acceptWhen ((d.sub 0).polls []) with
        | .error .timeout =>
          recordFailure call step taskId (.depTimeout deps.taskTimeout task.dependsOnTaskIds.length)
        | .error (.failed depId status reason) =>
          recordFailure call step taskId (.depFailed depId status reason)
        | .error (.missing depId) => recordFailure call step taskId (.depMissing depId)
        | .ok () =>
          let refreshed ← Runtime.sql (TaskRepo.get taskId)
          let task := refreshed.getD task
          if refreshed.isSome && task.status = step.acceptWhen then
            succeed call step taskId (task.claimedByAgentId.getD "") "cached"
              "already complete (won race with sibling fire)"
          else runTask call deps step (d.sub 1) task

end Cycle

/-! ### What a cycle writes -/

/-- What a cycle does: read, ask gateways, change the shared state, mark its task claimed, and reopen it. -/
structure CycleOps (P : RunOp → Prop) : Prop where
  plain : ∀ op, op.IsPlain → P (.sql op)
  poll : ∀ call acceptWhen depTaskId, P (.poll call acceptWhen depTaskId)
  post : ∀ call agentId taskId attempt accepted, P (.post call agentId taskId attempt accepted)
  note : ∀ call u, P (.note call u)
  claim : ∀ agentId (seen : Task) now now', P (.sql (.updateTask seen.id
    (.patch (TaskDispatchController.claimPatch agentId now) now') none (some seen)))
  reopen : ∀ taskId (seen : Task) now,
    P (.sql (.updateTask taskId (.reopenForRerun now) none (some seen)))

section Every

variable {P : RunOp → Prop} (hP : CycleOps P) (call : Nat) (deps : OrchestratorDeps) (step : StepCall)
include hP

theorem every_plain {α : Type} {c : Sql α} (hc : c.Every Op.IsPlain) : (Runtime.sql c).Every P :=
  Runtime.every_sql hc hP.plain

theorem every_get (taskId : String) : (Runtime.sql (TaskRepo.get taskId)).Every P :=
  every_plain hP (TaskRepo.every_get plainOps_isPlain taskId)

theorem every_note (u : StateUpdate) : (Runtime.note call u).Every P :=
  (Coro.every_perform _ _).mpr (hP.note call u)

theorem every_pollDependencies (acceptWhen : TaskStatus) (reads : Nat) (depId : String)
    (rest nextRound : List String) :
    (pollDependencies call acceptWhen reads depId rest nextRound).Every P := by
  induction reads generalizing depId rest nextRound with
  | zero => trivial
  | succ reads ih =>
    refine .bind ((Coro.every_perform _ _).mpr (hP.poll _ _ _)) fun dep => ?_
    cases dep with
    | none => trivial
    | some dep =>
      refine .ite (fun _ => by trivial) fun _ => ?_
      dsimp only
      split
      · exact ih _ _ _
      · exact ih _ _ _
      · trivial

theorem every_waitForDependencies (depTaskIds : List String) (acceptWhen : TaskStatus) (reads : Nat) :
    (waitForDependencies call depTaskIds acceptWhen reads).Every P := by
  unfold waitForDependencies
  split
  · trivial
  · exact every_pollDependencies hP _ _ _ _ _ _

theorem every_awaitAgent (tried : List String) (polls : Nat) :
    (awaitAgent deps step tried polls).Every P := by
  induction polls with
  | zero => exact (Coro.every_perform _ _).mpr (hP.plain _ (.inl rfl))
  | succ polls ih =>
    refine .bind ((Coro.every_perform _ _).mpr (hP.plain _ (.inl rfl))) fun chosen => ?_
    cases chosen with
    | none => exact ih
    | some _ => trivial

theorem every_recordFailure (taskId : String) (failure : CycleFailure) :
    (recordFailure call step taskId failure).Every P :=
  .bind (every_note hP call _) fun _ => trivial

theorem every_succeed (taskId agentId shownId summary : String) :
    (succeed call step taskId agentId shownId summary).Every P := by
  refine .bind (every_note hP call _) fun _ => .bind ?_ fun _ => trivial
  exact .bind (every_plain hP (Sql.every_select plainOps_isPlain _)) fun _ => every_note hP call _

theorem CycleOps.plainOps : PlainOps fun op => P (.sql op) :=
  ⟨hP.plain _ (.inl rfl), hP.plain _ (.inr (.inl rfl)), hP.plain _ (.inr (.inr rfl))⟩

omit hP in
theorem every_sql_self {α : Type} {c : Sql α} (hc : c.Every fun op => P (.sql op)) :
    (Runtime.sql c).Every P := Runtime.every_sql hc fun _ hop => hop

theorem every_markClaimed (seen : Task) (agent : AgentPresence) (d : Draws) :
    (markClaimed seen agent d).Every P :=
  every_sql_self (.bind (TaskRepo.every_update hP.plainOps (hP.claim _ _ _ _)) fun _ =>
    TaskService.every_recordUpdated hP.plainOps _)

theorem every_reopenForRerun (taskId : String) (seen : Task) (d : Draws) :
    (Runtime.sql (TaskRepo.reopenForRerun taskId (some seen) d)).Every P :=
  every_sql_self (TaskRepo.every_reopenForRerun hP.plainOps (hP.reopen _ _ _))

theorem every_runAttempts (d : Draws) (task : Task) (left attempt : Nat) (tried : List String)
    (lastSummary : String) :
    (runAttempts call deps step d task left attempt tried lastSummary).Every P := by
  induction left generalizing attempt tried lastSummary with
  | zero => exact every_recordFailure hP call step _ _
  | succ left ih =>
    have happend := fun attempt => every_note hP call (.attempt step.nodeId task.id attempt)
    refine .bind (every_awaitAgent hP deps step _ _) fun chosen => ?_
    cases chosen with
    | none => exact .bind (happend _) fun _ => every_recordFailure hP call step _ _
    | some chosen =>
      refine .bind (every_note hP call _) fun _ => ?_
      refine .bind ((Coro.every_perform _ _).mpr (hP.post _ _ _ _ _)) fun accepted => ?_
      refine .ite (fun _ => .bind (happend _) fun _ => ih _ _ _) fun _ => ?_
      refine .bind (every_markClaimed hP _ _ _) fun _ => ?_
      refine .bind (every_waitForTaskTerminal hP.plain _ _) fun final => ?_
      cases final with
      | none => exact .bind (happend _) fun _ => ih _ _ _
      | some final =>
        refine .ite (fun _ => .bind (happend _) fun _ => every_succeed hP call step _ _ _ _) fun _ => ?_
        exact .bind (happend _) fun _ => .bind (every_reopenForRerun hP _ _ _) fun _ => ih _ _ _

theorem every_attemptTask (d : Draws) (task : Task) (lastSummary : String) :
    (attemptTask call deps step d task lastSummary).Every P := by
  have hreads : ∀ depIds : List String,
      (depIds.forM fun _ => Sql.select fun _ => ()).Every Op.IsPlain := by
    intro depIds
    induction depIds with
    | nil => trivial
    | cons depId depIds ih => exact .bind (Sql.every_select plainOps_isPlain _) fun _ => ih
  exact .bind (every_plain hP (hreads _)) fun _ => every_runAttempts hP call deps step _ _ _ _ _ _

theorem every_runTask (d : Draws) (task : Task) : (runTask call deps step d task).Every P := by
  have hattempt := every_attemptTask hP call deps step (d.sub 1) task
  have happend := fun attempt => every_note hP call (.attempt step.nodeId task.id attempt)
  refine .ite (fun _ => ?_) fun _ => hattempt _
  refine .bind (every_waitForTaskTerminal hP.plain _ _) fun final => ?_
  cases final with
  | none => exact .bind (happend _) fun _ => hattempt _
  | some final =>
    refine .ite (fun _ => .bind (happend _) fun _ => every_succeed hP call step _ _ _ _) fun _ => ?_
    exact .bind (happend _) fun _ => .bind (every_reopenForRerun hP _ _ _) fun _ => hattempt _

theorem every_dispatchCycle (d : Draws) : (dispatchCycle call deps step d).Every P := by
  have hfail := every_recordFailure hP call step
  refine .ite (fun _ => hfail _ _) fun _ => .bind (every_get hP _) fun found => ?_
  cases found with
  | none => exact hfail _ _
  | some task =>
    refine .ite (fun _ => every_succeed hP call step _ _ _ _) fun _ => ?_
    refine .ite (fun _ => every_runTask hP call deps step _ _) fun _ => ?_
    refine .bind (every_waitForDependencies hP call _ _ _) fun waited => ?_
    cases waited with
    | error e => cases e <;> exact hfail _ _
    | ok _ =>
      refine .bind (every_get hP _) fun refreshed => ?_
      exact .ite (fun _ => every_succeed hP call step _ _ _ _) fun _ =>
        every_runTask hP call deps step _ _

end Every

/-! ### Threads -/

/-- A coroutine beside a graph run: the body of a step, or any other of the server. -/
inductive RunThread where
  | cycle (step : StepCall) (d : Draws)
  | other (program : Sql Unit)

/-- What the coroutine with this number does, and what its cycle ends with. -/
def RunThread.program (deps : OrchestratorDeps) (call : Nat) : RunThread → Runtime (Option CycleEnd)
  | .cycle step d => do
    let result ← dispatchCycle call deps step d
    return some result
  | .other program => do
    Runtime.sql program
    return none

end Krewhub
