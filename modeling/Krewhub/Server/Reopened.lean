import Krewhub.Server

/-!
# Reopened tasks

Three statements put a task back to `open`: `reopen_for_rerun`, the `UPDATE` of a followup, and that of an
operator's answer. The dispatcher looks for open tasks that are assigned to nobody, and counts against an
agent the tasks it has claimed and the open ones assigned to it, so a reopened task goes to an agent again
when the columns of its last run are cleared. Only `reopen_for_rerun` clears all five of them.
-/

namespace Krewhub

/-- Nothing is left of a run of the task. -/
structure Task.IsBlank (t : Task) : Prop where
  claimedByAgentId : t.claimedByAgentId = none
  claimedAt : t.claimedAt = none
  assignedAgentId : t.assignedAgentId = none
  completedAt : t.completedAt = none
  blockedReason : t.blockedReason = none

instance Task.decidableIsBlank (t : Task) : Decidable t.IsBlank :=
  decidable_of_iff (t.claimedByAgentId = none ∧ t.claimedAt = none ∧ t.assignedAgentId = none ∧
      t.completedAt = none ∧ t.blockedReason = none)
    ⟨fun ⟨h₁, h₂, h₃, h₄, h₅⟩ => ⟨h₁, h₂, h₃, h₄, h₅⟩,
      fun h => ⟨h.1, h.2, h.3, h.4, h.5⟩⟩

/-- A statement that sets a status to `open` leaves the row blank. -/
def LeavesBlank (s : RunState) (_ : Nat) : RunOp → Prop
  | .sql (.updateTask id u expected seen) => u.status? = some .open_ →
      ∀ t ∈ (Op.exec (.updateTask id u expected seen) s.db).tasks.get id, t.IsBlank
  | .sql (.insertTask t) => t.status = .open_ → t.IsBlank
  | _ => True

/-- An answer meets a row that has not been completed, a followup one that nobody has claimed, that is
assigned to nobody and has no reason left. -/
def ReopensClean (s : RunState) (_ : Nat) : RunOp → Prop
  | .sql (.updateTask id (.patch p _) _ _) => p.status = some .open_ →
      ∀ t ∈ s.db.tasks.get id, t.completedAt = none
  | .sql (.updateTask id .followupReopen _ _) => ∀ t ∈ s.db.tasks.get id,
      t.claimedAt = none ∧ t.assignedAgentId = none ∧ t.blockedReason = none
  | _ => True

instance LeavesBlank.decidable (s : RunState) (i : Nat) : DecidablePred (LeavesBlank s i) := by
  rintro ((_ | _) | _) <;> unfold LeavesBlank <;> dsimp only <;> infer_instance

theorem forall_get_updateTask {db : Db} {id : String} {u : TaskUpdate} {seen : Option Task}
    {Q : Task → Prop} :
    (∀ t ∈ (Op.exec (.updateTask id u none seen) db).tasks.get id, Q t) ↔
      ∀ t ∈ db.tasks.get id, Q (u.apply t) := by
  rw [Op.get_exec_updateTask, if_pos rfl]
  cases db.tasks.get id with
  | none => simp
  | some t => simp [Db.matchesVersion]

theorem isBlank_reopenForRerun (now : Nat) (t : Task) :
    ((TaskUpdate.reopenForRerun now).apply t).IsBlank := ⟨rfl, rfl, rfl, rfl, rfl⟩

theorem isBlank_followupReopen_iff (t : Task) :
    (TaskUpdate.followupReopen.apply t).IsBlank ↔
      t.claimedAt = none ∧ t.assignedAgentId = none ∧ t.blockedReason = none :=
  ⟨fun h => ⟨h.claimedAt, h.assignedAgentId, h.blockedReason⟩,
    fun ⟨hclaimed, hassigned, hreason⟩ => ⟨rfl, hclaimed, hassigned, rfl, hreason⟩⟩

theorem isBlank_answer_iff (description : String) (now : Nat) (t : Task) :
    ((TaskUpdate.patch
      { status := some .open_, description := some description, clearClaim := true,
        clearBlockedReason := true } now).apply t).IsBlank ↔ t.completedAt = none :=
  ⟨fun h => h.completedAt, fun h => ⟨rfl, rfl, rfl, h, rfl⟩⟩

theorem leavesBlank_iff_of_update {s : RunState} {i : Nat} {id : String} {u : TaskUpdate}
    {seen : Option Task} (hupdate : ServerUpdate u) :
    LeavesBlank s i (.sql (.updateTask id u none seen)) ↔
      ReopensClean s i (.sql (.updateTask id u none seen)) := by
  rw [LeavesBlank, forall_get_updateTask]
  cases hupdate
  case reopen now => exact ⟨fun _ => trivial, fun _ _ t _ => isBlank_reopenForRerun now t⟩
  case followup => simp only [TaskUpdate.status?, ReopensClean, isBlank_followupReopen_iff, forall_const]
  case answer => simp only [TaskUpdate.status?, ReopensClean, isBlank_answer_iff, forall_const]
  case callback req at_ now =>
    have hstatus : (req.patch at_).status ≠ some .open_ := by
      rw [TaskCallbackRequest.patch]
      cases req.success <;> simp
    exact ⟨fun _ h => absurd h hstatus, fun _ h => absurd h hstatus⟩
  all_goals simp [ReopensClean, TaskUpdate.status?, TaskDispatchController.claimPatch,
    OrchController.parkPatch]

theorem leavesBlank_iff {s : RunState} {i : Nat} {op : RunOp} (hop : ServerRunOp op) :
    LeavesBlank s i op ↔ ReopensClean s i op := by
  cases op with
  | poll | post | note => exact Iff.rfl
  | sql op =>
    cases hop
    case update id u seen hupdate => exact leavesBlank_iff_of_update hupdate
    case insert => exact ⟨fun _ => trivial, fun _ _ => ⟨rfl, rfl, rfl, rfl, rfl⟩⟩
    case delete => exact Iff.rfl
    case free hfree =>
      cases op
      case insertTask => cases hfree
      case updateTask => cases hfree
      all_goals exact Iff.rfl

/-! ### Dispatch -/

/-- The next pass of the dispatcher finds the task, and it takes no agent's capacity. -/
structure Redispatchable (db : Db) (t : Task) : Prop where
  candidate : t.graphNodeId = none → ∀ cookbookId, TaskRepo.inCookbook db cookbookId t = true →
    ∃ openTasks, (TaskRepo.listOpenByCookbook cookbookId).run Op.exec db = (.ok openTasks, db) ∧
      t ∈ openTasks.filter (·.assignedAgentId.isNone)
  ready : (∀ depId ∈ t.dependsOnTaskIds, db.statusOf depId = some .done) →
    (TaskDispatchController.depsSatisfied t.dependsOnTaskIds).run Op.exec db = (.ok true, db)
  uncounted : ∀ cookbookId agentId, ∃ active pending,
    (TaskRepo.listActiveByAgent (some cookbookId) agentId).run Op.exec db = (.ok active, db) ∧
    (TaskRepo.listAssignedUnclaimedByAgent cookbookId agentId).run Op.exec db = (.ok pending, db) ∧
      t ∉ active ∧ t ∉ pending

theorem redispatchable_of_isBlank {db : Db} {t : Task} (ht : t ∈ db.tasks) (hopen : t.status = .open_)
    (hblank : t.IsBlank) : Redispatchable db t where
  candidate hgraph cookbookId hcookbook := by
    refine ⟨_, Sql.run_select _ db, ?_⟩
    simp only [List.mem_filter, Bool.and_eq_true, beq_iff_eq, Option.isNone_iff_eq_none]
    exact ⟨⟨ht, ⟨hcookbook, hopen⟩, hgraph⟩, hblank.assignedAgentId⟩
  ready hdone := by
    rw [TaskDispatchController.depsSatisfied, TaskService.run_depsDone, decide_eq_true hdone]
  uncounted cookbookId agentId := by
    refine ⟨_, _, Sql.run_select _ db, Sql.run_select _ db, ?_, ?_⟩
    · simp [hblank.claimedByAgentId]
    · simp [hblank.assignedAgentId]

/-- Whatever the coroutines of the server and the order of their steps: every statement that sets a status
to `open` leaves the row blank exactly when every answer meets a row that has not been completed and every
followup one without a claim time, an assignment or a reason; and an open task whose row is blank is
dispatched again. -/
theorem reopened_blank_iff (calls : Nat → ServerCall) (s : RunState) (schedule : List Nat) :
    (Pool.Along RunOp.exec id LeavesBlank (serverPool calls s) (schedule.map .run) ↔
      Pool.Along RunOp.exec id ReopensClean (serverPool calls s) (schedule.map .run)) ∧
    ∀ db : Db, ∀ t ∈ db.tasks, t.status = .open_ → t.IsBlank → Redispatchable db t := by
  refine ⟨?_, fun _ _ ht hopen hblank => redispatchable_of_isBlank ht hopen hblank⟩
  have hiff : ∀ s i op, ServerRunOp op → (LeavesBlank s i op ↔ ReopensClean s i op) :=
    fun _ _ _ hop => leavesBlank_iff hop
  exact Pool.along_congr hiff (each_serverPool calls s)

/-! ### A followup -/

/-- A task an agent has done after the dispatcher had assigned it. -/
def deliveredDb : Db where
  bundles := (∅ : Table Bundle).insert { id := "bun_1", cookbookId := some "cb_1" }
  tasks := (∅ : Table Task).insert
    { id := "task_1", bundleId := "bun_1", status := .done, claimedByAgentId := some "agent_1",
      claimedAt := some 1, assignedAgentId := some "agent_1", completedAt := some 2 }

def followupPool : Pool Nat RunState RunOp Exn Unit :=
  serverPool (fun _ => .request 0 (.followup "task_1" "again") { accountId := legacyAccountId }
    (pathDraws 'a')) ⟨deliveredDb, { bundleId := "bun_1" }⟩

/-- The followup opens the task, and leaves it with the agent it was assigned to: it is no candidate, and
counted as pending. -/
theorem followup_keeps_assignment :
    ¬ Pool.Along RunOp.exec id LeavesBlank followupPool ((List.replicate 8 0).map .run) ∧
    (followupPool.run RunOp.exec id ((List.replicate 8 0).map .run)).hasReturned 0 = true ∧
    ∃ t ∈ (followupPool.run RunOp.exec id ((List.replicate 8 0).map .run)).state.db.tasks.get "task_1",
      t.status = .open_ ∧
        ¬ Redispatchable (followupPool.run RunOp.exec id ((List.replicate 8 0).map .run)).state.db t := by
  have hrow : ∃ t ∈ (followupPool.run RunOp.exec id
      ((List.replicate 8 0).map .run)).state.db.tasks.get "task_1",
      t.status = .open_ ∧ t.assignedAgentId = some "agent_1" ∧ t.graphNodeId = none ∧
        TaskRepo.inCookbook (followupPool.run RunOp.exec id
          ((List.replicate 8 0).map .run)).state.db "cb_1" t = true := by
    decide +kernel
  refine ⟨by decide +kernel, by decide +kernel, ?_⟩
  obtain ⟨t, ht, hopen, hassigned, hgraph, hcookbook⟩ := hrow
  refine ⟨t, ht, hopen, fun h => ?_⟩
  obtain ⟨openTasks, -, hmem⟩ := h.candidate hgraph "cb_1" hcookbook
  rw [List.mem_filter, hassigned] at hmem
  exact absurd hmem.2 (by decide)

end Krewhub
