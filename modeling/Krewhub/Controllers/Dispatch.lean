import Krewhub.Services.TaskService

/-!
# The dispatch and presence controllers

`TaskDispatchController` pushes open tasks to gateways and marks them claimed, `PresenceController`
releases the tasks of agents that have gone quiet. Both work from lists they have read before, and
write the rows without a version.
-/

namespace Krewhub

namespace TaskDispatchController

/-- The agents a task can be sent to. -/
def isGateway (agent : AgentPresence) : Bool :=
  (agent.status == .online || agent.status == .busy) && orElseText agent.endpointUrl "" != ""

/-- `_send_to_gateway`; whether the gateway accepts is its own affair. -/
def sendToGateway (agent : AgentPresence) (task : Task) (d : Draws) : Sql Bool :=
  .perform (.post agent.agentId task.id) fun _ => d.accepted []

def tryDispatch (task : Task) (capacity : List (String × Int)) (d : Draws) :
    List AgentPresence → Sql (Option String)
  | [] => return none
  | agent :: agents => do
    if (capacity.lookup agent.agentId).isNone then tryDispatch task capacity d agents
    else if ← sendToGateway agent task (d.sub agents.length) then return some agent.agentId
    else tryDispatch task capacity d agents

/-- What every gateway can still take. -/
def capacityOf (cookbookId : String) : List AgentPresence → Sql (List (String × Int))
  | [] => return []
  | agent :: agents => do
    let active ← TaskRepo.listActiveByAgent (some cookbookId) agent.agentId
    let pending ← TaskRepo.listAssignedUnclaimedByAgent cookbookId agent.agentId
    let remaining := agent.maxConcurrentTasks - active.length - pending.length
    let rest ← capacityOf cookbookId agents
    return if 0 < remaining then (agent.agentId, remaining) :: rest else rest

/-- One less for the agent, and none of it when nothing is left. -/
def spend (agentId : String) (capacity : List (String × Int)) : List (String × Int) :=
  (capacity.map fun e => if e.1 = agentId then (e.1, e.2 - 1) else e).filter (0 < ·.2)

def depsSatisfied (depIds : List String) : Sql Bool := TaskService.depsDone depIds

/-- The row of a task a gateway has accepted. -/
def claimPatch (agentId : String) (now : Nat) : TaskPatch where
  status := some .claimed
  assignedAgentId := some agentId
  claimedByAgentId := some agentId
  claimedAt := some now

def dispatchTasks (gateways : List AgentPresence) (d : Draws) :
    List Task → List (String × Int) → Sql Unit
  | [], _ => return
  | task :: tasks, capacity => do
    if capacity.isEmpty then return
    if !(← depsSatisfied task.dependsOnTaskIds) then dispatchTasks gateways d tasks capacity
    else
      let d' := d.sub tasks.length
      match ← tryDispatch task capacity (d'.sub 0) gateways with
      | none => dispatchTasks gateways d tasks capacity
      | some agentId =>
        let updated ← TaskRepo.update task.id (claimPatch agentId d'.clock) none (some task) (d'.sub 1)
        TaskService.recordUpdated updated
        dispatchTasks gateways d tasks (spend agentId capacity)

def dispatchForCookbook (cookbookId : String) (gateways : List AgentPresence) (d : Draws) :
    Sql Unit := do
  let openTasks ← TaskRepo.listOpenByCookbook cookbookId
  let unassigned := openTasks.filter (·.assignedAgentId.isNone)
  if unassigned.isEmpty then return
  let capacity ← capacityOf cookbookId gateways
  if capacity.isEmpty then return
  dispatchTasks gateways d unassigned capacity

def dispatchCookbooks (d : Draws) : List String → Sql Unit
  | [] => return
  | cookbookId :: cookbookIds => do
    let agents ← AgentRepo.listByCookbook cookbookId
    let gateways := agents.filter isGateway
    if gateways.isEmpty then dispatchCookbooks d cookbookIds
    else
      dispatchForCookbook cookbookId gateways (d.sub cookbookIds.length)
      dispatchCookbooks d cookbookIds

/-- The cookbooks with an agent that is up and has an endpoint. -/
def liveCookbooks (db : Db) : List String :=
  ((db.agents.filter fun a => (a.status == .online || a.status == .busy) &&
    a.endpointUrl.isSome).map (·.cookbookId)).dedup

def reconcile (d : Draws) : Sql Unit := do
  let cookbookIds ← Sql.select liveCookbooks
  if cookbookIds.isEmpty then
    let _ ← Sql.select fun db => db.agents.filter (·.status ≠ .offline)
    return
  dispatchCookbooks d cookbookIds

/-- What a pass does: post a task to a gateway, and claim one it has listed as open and unassigned. -/
structure DispatchOps (P : Op → Prop) : Prop extends PlainOps P where
  post : ∀ agentId taskId, P (.post agentId taskId)
  claim : ∀ agentId (seen : Task) now now', seen.status = .open_ → seen.assignedAgentId = none →
    seen.graphNodeId = none →
    P (.updateTask seen.id (.patch (claimPatch agentId now) now') none (some seen))

section Every

variable {P : Op → Prop}

theorem every_tryDispatch (hpost : ∀ agentId taskId, P (.post agentId taskId)) (task : Task)
    (capacity : List (String × Int)) (d : Draws) (agents : List AgentPresence) :
    (tryDispatch task capacity d agents).Every P := by
  induction agents with
  | nil => trivial
  | cons agent agents ih =>
    refine .ite (fun _ => ih) fun _ => ?_
    refine .bind ((Coro.every_perform _ _).mpr (hpost _ _)) fun accepted => ?_
    exact .ite (fun _ => by trivial) fun _ => ih

/-- Asking the gateways leaves the database as it is. -/
theorem run_tryDispatch_state (task : Task) (capacity : List (String × Int)) (d : Draws)
    (agents : List AgentPresence) (db : Db) :
    ((tryDispatch task capacity d agents).run Op.exec db).2 = db :=
  (every_tryDispatch (P := fun op => ∀ db, op.exec db = db) (fun _ _ _ => rfl) task capacity d
    agents).run_same (f := id) (fun _ hop db => hop db) db

theorem every_capacityOf (hP : PlainOps P) (cookbookId : String) (agents : List AgentPresence) :
    (capacityOf cookbookId agents).Every P := by
  induction agents with
  | nil => trivial
  | cons agent agents ih =>
    refine .bind (Sql.every_select hP _) fun _ => ?_
    exact .bind (Sql.every_select hP _) fun _ => .bind ih fun _ => trivial

variable (hP : DispatchOps P)
include hP

theorem every_dispatchTasks (gateways : List AgentPresence) (d : Draws) {tasks : List Task}
    (htasks : ∀ task ∈ tasks, task.status = .open_ ∧ task.assignedAgentId = none ∧
      task.graphNodeId = none) (capacity : List (String × Int)) :
    (dispatchTasks gateways d tasks capacity).Every P := by
  induction tasks generalizing capacity with
  | nil => trivial
  | cons task tasks ih =>
    have hrest : ∀ capacity, (dispatchTasks gateways d tasks capacity).Every P :=
      ih fun task' hmem => htasks task' (List.mem_cons_of_mem _ hmem)
    obtain ⟨hopen, hassigned, hgraph⟩ := htasks task List.mem_cons_self
    refine .ite (fun _ => by trivial) fun _ => ?_
    refine .bind (TaskService.every_depsDone hP.toPlainOps _) fun ready => ?_
    refine .ite (fun _ => hrest _) fun _ => ?_
    refine .bind (every_tryDispatch hP.post _ _ _ _) fun chosen => ?_
    cases chosen with
    | none => exact hrest _
    | some agentId =>
      refine .bind (TaskRepo.every_update hP.toPlainOps
        (hP.claim _ _ _ _ hopen hassigned hgraph)) fun updated => ?_
      exact .bind (TaskService.every_recordUpdated hP.toPlainOps _) fun _ => hrest _

theorem every_dispatchForCookbook (cookbookId : String) (gateways : List AgentPresence)
    (d : Draws) : (dispatchForCookbook cookbookId gateways d).Every P := by
  refine Sql.every_select_bind hP.toPlainOps fun db => .ite (fun _ => by trivial) fun _ => ?_
  refine .bind (every_capacityOf hP.toPlainOps _ _) fun capacity => .ite (fun _ => by trivial) fun _ => ?_
  apply every_dispatchTasks hP
  intro task htask
  simp only [List.mem_filter, Bool.and_eq_true, beq_iff_eq, Option.isNone_iff_eq_none] at htask
  exact ⟨htask.1.2.1.2, htask.2, htask.1.2.2⟩

theorem every_dispatchCookbooks (d : Draws) (cookbookIds : List String) :
    (dispatchCookbooks d cookbookIds).Every P := by
  induction cookbookIds with
  | nil => trivial
  | cons cookbookId cookbookIds ih =>
    refine .bind (Sql.every_select hP.toPlainOps _) fun agents => .ite (fun _ => ih) fun _ => ?_
    exact .bind (every_dispatchForCookbook hP _ _ _) fun _ => ih

theorem every_reconcile (d : Draws) : (reconcile d).Every P := by
  refine .bind (Sql.every_select hP.toPlainOps _) fun cookbookIds => .ite (fun _ => ?_) fun _ => ?_
  · exact .bind (Sql.every_select hP.toPlainOps _) fun _ => by trivial
  · exact every_dispatchCookbooks hP _ _

end Every

end TaskDispatchController

namespace PresenceController

def releaseTasks (d : Draws) : List Task → Sql Unit
  | [] => return
  | task :: tasks => do
    let reopened ← TaskRepo.reopenForRerun task.id (some task) (d.sub tasks.length)
    TaskService.recordUpdated reopened
    releaseTasks d tasks

/-- The loop over the stale agents, each a pair of its id and its cookbook. -/
def releaseAgents (d : Draws) : List (String × String) → Sql Unit
  | [] => return
  | (agentId, cookbookId) :: agents => do
    let updatedAgent ← AgentRepo.get agentId cookbookId
    if updatedAgent.isSome then Sql.record
    let activeTasks ← TaskRepo.listActiveByAgent (some cookbookId) agentId
    releaseTasks ((d.sub agents.length).sub 0) activeTasks
    let orphaned ← TaskRepo.listAssignedUnclaimedByAgent cookbookId agentId
    releaseTasks ((d.sub agents.length).sub 1) orphaned
    releaseAgents d agents

/-- `reconcile`; agents that have not been heard of for longer than the timeout are stale. -/
def reconcile (heartbeatTimeout : Nat) (d : Draws) : Sql Unit := do
  let cutoff := d.clock - heartbeatTimeout
  let staleAgents ← Sql.select fun db =>
    (db.agents.filter fun a => decide (a.lastHeartbeatAt < cutoff ∧ a.status ≠ .offline)).map
      fun a => (a.agentId, a.cookbookId)
  if staleAgents.isEmpty then return
  let _ ← AgentRepo.markOfflineStale cutoff
  releaseAgents d staleAgents

/-- What a pass does: mark agents offline, and reopen tasks it has listed as open, claimed or
working. -/
structure PresenceOps (P : Op → Prop) : Prop extends PlainOps P where
  offline : ∀ cutoff, P (.markOfflineStale cutoff)
  release : ∀ (seen : Task) now, seen.status ∈ [TaskStatus.open_, .claimed, .working] →
    P (.updateTask seen.id (.reopenForRerun now) none (some seen))

section Every

variable {P : Op → Prop} (hP : PresenceOps P)
include hP

theorem every_releaseTasks (d : Draws) {tasks : List Task}
    (htasks : ∀ task ∈ tasks, task.status ∈ [TaskStatus.open_, .claimed, .working]) :
    (releaseTasks d tasks).Every P := by
  induction tasks with
  | nil => trivial
  | cons task tasks ih =>
    refine .bind (TaskRepo.every_reopenForRerun hP.toPlainOps
      (hP.release _ _ (htasks task List.mem_cons_self))) fun _ => ?_
    refine .bind (TaskService.every_recordUpdated hP.toPlainOps _) fun _ => ?_
    exact ih fun task' hmem => htasks task' (List.mem_cons_of_mem _ hmem)

theorem every_releaseAgents (d : Draws) (agents : List (String × String)) :
    (releaseAgents d agents).Every P := by
  induction agents with
  | nil => trivial
  | cons agent agents ih =>
    refine .bind (Sql.every_select hP.toPlainOps _) fun updatedAgent => ?_
    have hrest : Coro.Every P (do
        let activeTasks ← TaskRepo.listActiveByAgent (some agent.2) agent.1
        releaseTasks ((d.sub agents.length).sub 0) activeTasks
        let orphaned ← TaskRepo.listAssignedUnclaimedByAgent agent.2 agent.1
        releaseTasks ((d.sub agents.length).sub 1) orphaned
        releaseAgents d agents) := by
      refine Sql.every_select_bind hP.toPlainOps fun db => ?_
      refine .bind (every_releaseTasks hP _ fun task htask => ?_) fun _ => ?_
      · simp only [List.mem_filter, Bool.and_eq_true, Bool.or_eq_true, beq_iff_eq] at htask
        simp only [List.mem_cons, List.not_mem_nil, or_false]
        exact .inr htask.2.2
      · refine Sql.every_select_bind hP.toPlainOps fun db => ?_
        refine .bind (every_releaseTasks hP _ fun task htask => ?_) fun _ => ih
        simp only [List.mem_filter, Bool.and_eq_true, beq_iff_eq] at htask
        simp only [List.mem_cons, List.not_mem_nil, or_false]
        exact .inl htask.2.1.2
    exact .ite (fun _ => .bind (Sql.every_record hP.toPlainOps) fun _ => hrest) fun _ => hrest

theorem every_reconcile (heartbeatTimeout : Nat) (d : Draws) :
    (reconcile heartbeatTimeout d).Every P := by
  refine .bind (Sql.every_select hP.toPlainOps _) fun agents => .ite (fun _ => by trivial) fun _ => ?_
  refine .bind (.bind ((Coro.every_perform _ _).mpr (hP.offline _)) fun _ =>
    .bind (Sql.every_commit hP.toPlainOps) fun _ => by trivial) fun _ => ?_
  exact every_releaseAgents hP _ _

end Every

end PresenceController

end Krewhub
