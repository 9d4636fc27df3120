import Krewhub.Services.TaskService

/-!
# The orchestration controller

`OrchController` supervises the tasks that carry a brief: a finished one is accepted, left to the
brain or handed to a human, one whose runtime is dead is reopened, or parked once that has been done
too often. What it has decided is kept in `orch_json`, which it always writes as a whole.

Both its loops call `reconcileTaskId`; the clock and the rows are read anew in each call.
-/

namespace Krewhub

/-- The settings of the controller. -/
structure OrchConfig where
  livenessTimeout : Nat := 60
  maxRespawns : Nat := 3
  deriving DecidableEq, Repr

/-- The brief makes a task one of the controller's. -/
def Task.isManaged (task : Task) : Bool := task.brief.isSome

/-- `task.orch or {}`. -/
def Task.marks (task : Task) : OrchMarks := task.orch.getD {}

@[simp]
theorem Task.marks_orch (task : Task) (marks : OrchMarks) :
    ((TaskUpdate.orch marks).apply task).marks = marks := rfl

@[simp]
theorem Task.status_orch (task : Task) (marks : OrchMarks) :
    ((TaskUpdate.orch marks).apply task).status = task.status := rfl

/-- The task is retired, escalated or left to the brain. -/
def OrchMarks.isSettled (marks : OrchMarks) : Bool :=
  marks.acceptedAt.isSome || marks.halted || marks.awaitingBrain

namespace OrchController

def orchActor : String := "orch"

def emit (task : Task) (type : EventType) (body payload : String) (d : Draws) : Sql Unit :=
  TaskService.narrate orchActor task type body { rest := payload } d

def writeOrch (task : Task) (marks : OrchMarks) : Sql Unit := do
  .perform (.updateTask task.id (.orch marks) none (some task)) fun _ => ()
  Sql.commit

def brainAttached (task : Task) : Bool := task.marks.managedByAgent.any (· != "")

def handleDone (task : Task) (orch : OrchMarks) (d : Draws) : Sql Unit :=
  if task.report.any Report.isValid then
    if brainAttached task then
      if orch.awaitingBrain then return
      else do
        writeOrch task { orch with awaitingBrain := true }
        emit task .log
          "orch: Report valid; deferring acceptance to the attached orch-agent (safety-net standing down)"
          "awaiting_brain" (d.sub 0)
    else do
      writeOrch task { orch with acceptedAt := some d.clock }
      let prs := (task.report.map (·.prs)).getD []
      let note := if prs.isEmpty then "" else s!" ({prs.length} PR(s))"
      emit task .milestone s!"orch: Report accepted — worker retired{note}" "accepted" (d.sub 0)
  else if orch.reportInvalid then return
  else do
    writeOrch task { orch with reportInvalid := true }
    emit task .needsHuman
      "orch: task completed without a valid Report (missing or schema-invalid) — needs human acceptance"
      "report_invalid" (d.sub 0)

/-- Whether a runtime has been seen within the timeout. -/
def isAlive (cfg : OrchConfig) (now : Nat) (runtime : Option AgentRuntime) : Bool :=
  runtime.any fun r => r.status != .offline && decide (now ≤ r.lastSeenAt + cfg.livenessTimeout)

def parkPatch (cfg : OrchConfig) (orch : OrchMarks) : TaskPatch where
  status := some .blocked
  blockedReason := some
    s!"orch: respawn limit reached ({orch.respawns}/{cfg.maxRespawns}) — needs root-cause review"

/-- A task whose worker has died too often is parked. -/
def park (cfg : OrchConfig) (task : Task) (orch : OrchMarks) (d : Draws) : Sql Unit := do
  writeOrch task { orch with halted := true }
  let updated ← TaskRepo.update task.id (parkPatch cfg orch) none (some task) (d.sub 0)
  TaskService.recordUpdated updated
  emit task .blocker
    s!"orch: worker died {orch.respawns + 1}x; respawn limit ({cfg.maxRespawns}) reached — parked for root-cause review"
    "respawn_limit" (d.sub 1)

/-- The task is reopened for its brief to be dispatched again. -/
def respawn (cfg : OrchConfig) (task : Task) (orch : OrchMarks) (runtimeId : String) (d : Draws) :
    Sql Unit := do
  writeOrch task { orch with respawns := orch.respawns + 1, lastRespawnAt := some d.clock }
  let reopened ← TaskRepo.reopenForRerun task.id (some task) (d.sub 0)
  TaskService.recordUpdated reopened
  emit task .log
    s!"orch: liveness lost on runtime {runtimeId}; respawned with Brief replay (attempt {orch.respawns + 1}/{cfg.maxRespawns})"
    "respawn" (d.sub 1)

def checkLiveness (cfg : OrchConfig) (task : Task) (orch : OrchMarks) (d : Draws) : Sql Unit :=
  match task.assignedRuntimeId with
  | none => return
  | some runtimeId => do
    let runtime ← Sql.select (·.runtimes.get runtimeId)
    if isAlive cfg d.clock runtime then return
    else if cfg.maxRespawns ≤ orch.respawns then park cfg task orch d
    else respawn cfg task orch runtimeId d

def reconcileTaskId (cfg : OrchConfig) (taskId : String) (d : Draws) : Sql Unit := do
  match ← TaskRepo.get taskId with
  | none => return
  | some task =>
    if !task.isManaged || task.marks.isSettled then return
    else if task.status = .done then handleDone task task.marks d
    else if task.status = .claimed ∨ task.status = .working then checkLiveness cfg task task.marks d
    else return

def reconcileTasks (cfg : OrchConfig) (d : Draws) : List String → Sql Unit
  | [] => return
  | taskId :: taskIds => do
    reconcileTaskId cfg taskId (d.sub taskIds.length)
    reconcileTasks cfg d taskIds

/-- The tasks a pass looks at. -/
def managedTasks (db : Db) : List String :=
  (db.tasks.rows.filter fun t => t.isManaged && t.status != .cancelled).map (·.id)

def reconcile (cfg : OrchConfig) (d : Draws) : Sql Unit := do
  let taskIds ← Sql.select managedTasks
  reconcileTasks cfg d taskIds

/-- What the controller writes: marks, a parked row, a reopened row, and events. -/
structure OrchOps (P : Op → Prop) : Prop extends PlainOps P where
  events : ∀ taskId, TaskService.EventOps P taskId
  marks : ∀ taskId marks seen, P (.updateTask taskId (.orch marks) none seen)
  park : ∀ taskId cfg orch now seen, P (.updateTask taskId (.patch (parkPatch cfg orch) now) none seen)
  reopen : ∀ taskId now seen, P (.updateTask taskId (.reopenForRerun now) none seen)

section Every

variable {P : Op → Prop} (hP : OrchOps P) (cfg : OrchConfig) (task : Task) (orch : OrchMarks)
  (d : Draws)
include hP

theorem every_emit (type : EventType) (body payload : String) :
    (emit task type body payload d).Every P :=
  TaskService.every_narrate hP.toPlainOps (hP.events _) _ _ _ _ _

theorem every_writeOrch : (writeOrch task orch).Every P :=
  .bind ((Coro.every_perform _ _).mpr (hP.marks _ _ _)) fun _ => Sql.every_commit hP.toPlainOps

theorem every_handleDone : (handleDone task orch d).Every P := by
  have hmark := fun orch type body payload d =>
    (Coro.Every.bind (every_writeOrch hP task orch) fun _ => every_emit hP task d type body payload)
  refine .ite (fun _ => .ite (fun _ => .ite (fun _ => trivial) fun _ => ?_) fun _ => ?_)
    fun _ => .ite (fun _ => trivial) fun _ => ?_
  · exact hmark _ _ _ _ _
  · exact hmark _ _ _ _ _
  · exact hmark _ _ _ _ _

theorem every_checkLiveness : (checkLiveness cfg task orch d).Every P := by
  have hplain := hP.toPlainOps
  unfold checkLiveness
  split
  · trivial
  · refine .bind (Sql.every_select hplain _) fun _ => .ite (fun _ => by trivial) fun _ => ?_
    refine .ite (fun _ => ?_) fun _ => ?_
    · refine .bind (every_writeOrch hP task _) fun _ => ?_
      refine .bind (TaskRepo.every_update hplain (hP.park _ _ _ _ _)) fun _ => ?_
      exact .bind (TaskService.every_recordUpdated hplain _) fun _ => every_emit hP task _ _ _ _
    · refine .bind (every_writeOrch hP task _) fun _ => ?_
      refine .bind (.bind ((Coro.every_perform _ _).mpr (hP.reopen _ _ _)) fun _ =>
        .bind (Sql.every_commit hplain) fun _ => TaskRepo.every_get hplain _) fun _ => ?_
      exact .bind (TaskService.every_recordUpdated hplain _) fun _ => every_emit hP task _ _ _ _

theorem every_reconcileTaskId (taskId : String) : (reconcileTaskId cfg taskId d).Every P := by
  refine .bind (TaskRepo.every_get hP.toPlainOps taskId) fun found => ?_
  cases found with
  | none => trivial
  | some task =>
    refine .ite (fun _ => by trivial) fun _ => ?_
    refine .ite (fun _ => every_handleDone hP _ _ _) fun _ => ?_
    exact .ite (fun _ => every_checkLiveness hP _ _ _ _) fun _ => trivial

theorem every_reconcile : (reconcile cfg d).Every P := by
  have htasks : ∀ taskIds, (reconcileTasks cfg d taskIds).Every P := by
    intro taskIds
    induction taskIds with
    | nil => trivial
    | cons taskId taskIds ih => exact .bind (every_reconcileTaskId hP _ _ _) fun _ => ih
  exact .bind (Sql.every_select hP.toPlainOps _) fun _ => htasks _

end Every

/-! ### What a reconcile makes of a task -/

/-- The status and the marks of a task after `_reconcile_task_id`. -/
def settle (cfg : OrchConfig) (now : Nat) (runtime : Option AgentRuntime) (task : Task) :
    TaskStatus × OrchMarks :=
  let orch := task.marks
  if !task.isManaged || orch.isSettled then (task.status, orch)
  else if task.status = .done then
    (.done,
      if task.report.any Report.isValid then
        if brainAttached task then { orch with awaitingBrain := true }
        else { orch with acceptedAt := some now }
      else { orch with reportInvalid := true })
  else if task.status = .claimed ∨ task.status = .working then
    if task.assignedRuntimeId.isNone || isAlive cfg now runtime then (task.status, orch)
    else if cfg.maxRespawns ≤ orch.respawns then (.blocked, { orch with halted := true })
    else (.open_, { orch with respawns := orch.respawns + 1, lastRespawnAt := some now })
  else (task.status, orch)

theorem settle_of_isSettled {cfg : OrchConfig} {now : Nat} {runtime : Option AgentRuntime}
    {task : Task} (h : task.marks.isSettled = true) :
    settle cfg now runtime task = (task.status, task.marks) := by
  rw [settle, if_pos (by rw [h, Bool.or_true])]

/-- The runtime a task is assigned to. -/
def runtimeOf (db : Db) (task : Task) : Option AgentRuntime :=
  task.assignedRuntimeId.bind db.runtimes.get

/-- The runtime of a running task is dead, and no mark keeps the controller from it. -/
structure LivenessLost (cfg : OrchConfig) (db : Db) (task : Task) (now : Nat) : Prop where
  managed : task.isManaged = true
  unsettled : task.marks.isSettled = false
  running : task.status = .claimed ∨ task.status = .working
  assigned : task.assignedRuntimeId.isSome = true
  dead : isAlive cfg now (runtimeOf db task) = false

section Settle

variable {cfg : OrchConfig} {now : Nat} {db : Db} {task : Task}

theorem not_done_of_running (h : task.status = .claimed ∨ task.status = .working) :
    task.status ≠ .done := by
  rcases h with h | h <;> rw [h] <;> decide

theorem not_blocked_of_running (h : task.status = .claimed ∨ task.status = .working) :
    task.status ≠ .blocked := by
  rcases h with h | h <;> rw [h] <;> decide

theorem settle_of_done {runtime : Option AgentRuntime} (hmanaged : task.isManaged = true)
    (hsettled : task.marks.isSettled = false) (hdone : task.status = .done) :
    settle cfg now runtime task = (.done,
      if task.report.any Report.isValid then
        if brainAttached task then { task.marks with awaitingBrain := true }
        else { task.marks with acceptedAt := some now }
      else { task.marks with reportInvalid := true }) := by
  simp [settle, hmanaged, hsettled, hdone]

/-- A running task of the old claim flow, or with a live runtime. -/
theorem settle_of_running (hstatus : task.status = .claimed ∨ task.status = .working)
    (halive : task.assignedRuntimeId = none ∨ isAlive cfg now (runtimeOf db task) = true) :
    settle cfg now (runtimeOf db task) task = (task.status, task.marks) := by
  have hdone := not_done_of_running hstatus
  rcases halive with h | h <;> simp [settle, hdone, hstatus, h]

theorem settle_of_livenessLost (h : LivenessLost cfg db task now) :
    settle cfg now (runtimeOf db task) task =
      if cfg.maxRespawns ≤ task.marks.respawns then (.blocked, { task.marks with halted := true })
      else (.open_, { task.marks with
        respawns := task.marks.respawns + 1, lastRespawnAt := some now }) := by
  simp [settle, h.managed, h.unsettled, not_done_of_running h.running, h.running, h.dead,
    Option.isSome_iff_ne_none.mp h.assigned]

end Settle

/-- One task has been reconciled, and the other rows are as they were. -/
structure Reconciled (cfg : OrchConfig) (now : Nat) (task : Task) (db db' : Db) : Prop where
  row : ∃ task', db'.tasks.get task.id = some task' ∧
    (task'.status, task'.marks) = settle cfg now (runtimeOf db task) task ∧
    task'.brief = task.brief ∧ task'.report = task.report ∧
      task'.assignedRuntimeId = task.assignedRuntimeId
  others : ∀ id, id ≠ task.id → db'.tasks.get id = db.tasks.get id
  runtimes : db'.runtimes = db.runtimes

theorem run_reopenForRerun (taskId : String) (seen : Option Task) (d : Draws) (db : Db) :
    (TaskRepo.reopenForRerun taskId seen d).run Op.exec db =
      (.ok ((Op.exec (.updateTask taskId (.reopenForRerun d.clock) none seen) db).tasks.get taskId),
        Op.exec (.updateTask taskId (.reopenForRerun d.clock) none seen) db) := rfl

theorem run_writeOrch (task : Task) (marks : OrchMarks) (db : Db) :
    (writeOrch task marks).run Op.exec db =
      (.ok (), Op.exec (.updateTask task.id (.orch marks) none (some task)) db) := rfl

section Spec

variable {cfg : OrchConfig} {task : Task} {db : Db} (htask : db.tasks.get task.id = some task)
  (d : Draws)
include htask

/-- Marks are written, and an event is posted. -/
theorem run_mark {marks : OrchMarks} (hclaimed : task.status ≠ .claimed) (type : EventType)
    (body payload : String) :
    ∃ db', (do writeOrch task marks; emit task type body payload d).run Op.exec db = (.ok (), db') ∧
      db'.tasks.get task.id = some ((TaskUpdate.orch marks).apply task) ∧
      (∀ id, id ≠ task.id → db'.tasks.get id = db.tasks.get id) ∧ db'.runtimes = db.runtimes := by
  have hrow : (Op.exec (.updateTask task.id (.orch marks) none (some task)) db).tasks.get task.id =
      some ((TaskUpdate.orch marks).apply task) := Op.get_updateTask_self htask
  have hnot : (Op.exec (.updateTask task.id (.orch marks) none (some task)) db).statusOf task.id ≠
      some .claimed := by
    rw [Db.statusOf, hrow]
    intro heq
    exact hclaimed (Option.some.inj heq)
  obtain ⟨db', hrun, htasks, hruntimes⟩ := TaskService.run_narrate d hnot orchActor type body { rest := payload }
  refine ⟨db', ?_, ?_, fun id hid => ?_, hruntimes⟩
  · rw [Coro.run_bind_ok Op.exec (run_writeOrch task marks db), emit, hrun]
  · rw [htasks, hrow]
  · rw [htasks, Op.get_updateTask_of_ne hid]

/-- Marks are written, then the row, and an event is posted. -/
theorem run_transition {marks : OrchMarks} {u : TaskUpdate} {status : TaskStatus}
    (hstatus : u.status? = some status) (hclaimed : status ≠ .claimed) {step : Sql (Option Task)}
    (hstep : ∀ db, step.run Op.exec db =
      (.ok ((Op.exec (.updateTask task.id u none (some task)) db).tasks.get task.id),
        Op.exec (.updateTask task.id u none (some task)) db))
    (type : EventType) (body payload : String) :
    ∃ db', (do
        writeOrch task marks
        let updated ← step
        TaskService.recordUpdated updated
        emit task type body payload d).run Op.exec db = (.ok (), db') ∧
      db'.tasks.get task.id = some (u.apply ((TaskUpdate.orch marks).apply task)) ∧
      (∀ id, id ≠ task.id → db'.tasks.get id = db.tasks.get id) ∧ db'.runtimes = db.runtimes := by
  have hfirst : (Op.exec (.updateTask task.id (.orch marks) none (some task)) db).tasks.get task.id =
      some ((TaskUpdate.orch marks).apply task) := Op.get_updateTask_self htask
  have hrow : (Op.exec (.updateTask task.id u none (some task))
      (Op.exec (.updateTask task.id (.orch marks) none (some task)) db)).tasks.get task.id =
        some (u.apply ((TaskUpdate.orch marks).apply task)) := Op.get_updateTask_self hfirst
  have hnot : (Op.exec (.updateTask task.id u none (some task))
      (Op.exec (.updateTask task.id (.orch marks) none (some task)) db)).statusOf task.id ≠
        some .claimed := by
    rw [Op.statusOf_updateTask_self hfirst, hstatus]
    intro heq
    exact hclaimed (Option.some.inj heq)
  obtain ⟨db', hrun, htasks, hruntimes⟩ := TaskService.run_narrate d hnot orchActor type body { rest := payload }
  refine ⟨db', ?_, ?_, fun id hid => ?_, hruntimes⟩
  · rw [Coro.run_bind_ok Op.exec (run_writeOrch task marks db), Coro.run_bind_ok Op.exec (hstep _),
      Coro.run_bind_ok Op.exec (TaskService.run_recordUpdated _ _), emit, hrun]
  · rw [htasks, hrow]
  · rw [htasks, Op.get_updateTask_of_ne hid, Op.get_updateTask_of_ne hid]

omit d in
theorem reconciled_refl {now : Nat}
    (h : settle cfg now (runtimeOf db task) task = (task.status, task.marks)) :
    Reconciled cfg now task db db :=
  ⟨⟨task, htask, h.symm, rfl, rfl, rfl⟩, fun _ _ => rfl, rfl⟩

theorem run_handleDone (hmanaged : task.isManaged = true) (hsettled : task.marks.isSettled = false)
    (hdone : task.status = .done) :
    ∃ db', (handleDone task task.marks d).run Op.exec db = (.ok (), db') ∧
      Reconciled cfg d.clock task db db' := by
  have hclaimed : task.status ≠ .claimed := by
    rw [hdone]
    decide
  have hawaiting : task.marks.awaitingBrain = false := by
    simp only [OrchMarks.isSettled, Bool.or_eq_false_iff] at hsettled
    exact hsettled.2
  have hsettle : settle cfg d.clock (runtimeOf db task) task = _ :=
    settle_of_done hmanaged hsettled hdone
  by_cases hreport : task.report.any Report.isValid = true
  · rw [if_pos hreport] at hsettle
    by_cases hbrain : brainAttached task = true
    · rw [if_pos hbrain, ← hdone] at hsettle
      rw [handleDone, if_pos hreport, if_pos hbrain, if_neg (by rw [hawaiting]; decide)]
      obtain ⟨db', hrun, hrow, hothers, hruntimes⟩ := run_mark htask (d.sub 0) hclaimed .log _ _
      exact ⟨db', hrun, ⟨_, hrow, hsettle.symm, rfl, rfl, rfl⟩, hothers, hruntimes⟩
    · rw [if_neg hbrain, ← hdone] at hsettle
      rw [handleDone, if_pos hreport, if_neg hbrain]
      obtain ⟨db', hrun, hrow, hothers, hruntimes⟩ :=
        run_mark htask (d.sub 0) hclaimed .milestone _ _
      exact ⟨db', hrun, ⟨_, hrow, hsettle.symm, rfl, rfl, rfl⟩, hothers, hruntimes⟩
  · rw [if_neg hreport, ← hdone] at hsettle
    by_cases hinvalid : task.marks.reportInvalid = true
    · rw [handleDone, if_neg hreport, if_pos hinvalid]
      have hsame : { task.marks with reportInvalid := true } = task.marks := by
        rw [← hinvalid]
      rw [hsame] at hsettle
      exact ⟨db, rfl, reconciled_refl htask hsettle⟩
    · rw [handleDone, if_neg hreport, if_neg hinvalid]
      obtain ⟨db', hrun, hrow, hothers, hruntimes⟩ :=
        run_mark htask (d.sub 0) hclaimed .needsHuman _ _
      exact ⟨db', hrun, ⟨_, hrow, hsettle.symm, rfl, rfl, rfl⟩, hothers, hruntimes⟩

theorem run_checkLiveness (hmanaged : task.isManaged = true)
    (hsettled : task.marks.isSettled = false)
    (hstatus : task.status = .claimed ∨ task.status = .working) :
    ∃ db', (checkLiveness cfg task task.marks d).run Op.exec db = (.ok (), db') ∧
      Reconciled cfg d.clock task db db' := by
  cases hassigned : task.assignedRuntimeId with
  | none =>
    rw [checkLiveness, hassigned]
    exact ⟨db, rfl, reconciled_refl htask (settle_of_running hstatus (.inl hassigned))⟩
  | some runtimeId =>
    have hruntime : runtimeOf db task = db.runtimes.get runtimeId := by rw [runtimeOf, hassigned]; rfl
    rw [checkLiveness, hassigned]
    dsimp only
    rw [Coro.run_bind_ok Op.exec (Sql.run_select _ db), ← hruntime]
    by_cases halive : isAlive cfg d.clock (runtimeOf db task) = true
    · rw [if_pos halive]
      exact ⟨db, rfl, reconciled_refl htask (settle_of_running hstatus (.inr halive))⟩
    · rw [if_neg halive]
      have hlost : LivenessLost cfg db task d.clock :=
        ⟨hmanaged, hsettled, hstatus, by rw [hassigned]; rfl, Bool.not_eq_true _ ▸ halive⟩
      have hsettle := settle_of_livenessLost hlost
      by_cases hlimit : cfg.maxRespawns ≤ task.marks.respawns
      · rw [if_pos hlimit] at hsettle
        rw [if_pos hlimit, park]
        have hstep : ∀ db, (TaskRepo.update task.id (parkPatch cfg task.marks) none (some task)
            (d.sub 0)).run Op.exec db = _ := TaskRepo.run_update rfl
        obtain ⟨db', hrun, hrow, hothers, hruntimes⟩ := run_transition htask (d.sub 1) rfl
          (by decide : TaskStatus.blocked ≠ .claimed) hstep .blocker _ _
        exact ⟨db', hrun, ⟨_, hrow, hsettle.symm, rfl, rfl, rfl⟩, hothers, hruntimes⟩
      · rw [if_neg hlimit] at hsettle
        rw [if_neg hlimit, respawn]
        have hstep := run_reopenForRerun task.id (some task) (d.sub 0)
        obtain ⟨db', hrun, hrow, hothers, hruntimes⟩ := run_transition htask (d.sub 1) rfl
          (by decide : TaskStatus.open_ ≠ .claimed) hstep .log _ _
        exact ⟨db', hrun, ⟨_, hrow, hsettle.symm, rfl, rfl, rfl⟩, hothers, hruntimes⟩

/-- It always returns, and settles the task. -/
theorem run_reconcileTaskId (cfg : OrchConfig) :
    ∃ db', (reconcileTaskId cfg task.id d).run Op.exec db = (.ok (), db') ∧
      Reconciled cfg d.clock task db db' := by
  rw [reconcileTaskId, TaskRepo.run_get_bind, htask]
  dsimp only
  by_cases hskip : (!task.isManaged || task.marks.isSettled) = true
  · rw [if_pos hskip]
    refine ⟨db, rfl, reconciled_refl htask ?_⟩
    simp only [settle, if_pos hskip]
  · rw [if_neg hskip]
    simp only [Bool.or_eq_true, Bool.not_eq_true', not_or, Bool.not_eq_false,
      Bool.not_eq_true] at hskip
    obtain ⟨hmanaged, hsettled⟩ := hskip
    by_cases hdone : task.status = .done
    · rw [if_pos hdone]
      exact run_handleDone htask d hmanaged hsettled hdone
    · rw [if_neg hdone]
      by_cases hstatus : task.status = .claimed ∨ task.status = .working
      · rw [if_pos hstatus]
        exact run_checkLiveness htask d hmanaged hsettled hstatus
      · rw [if_neg hstatus]
        refine ⟨db, rfl, reconciled_refl htask ?_⟩
        simp [settle, hdone, hstatus]

end Spec

theorem run_reconcileTaskId_of_none {taskId : String} {db : Db} (h : db.tasks.get taskId = none)
    (cfg : OrchConfig) (d : Draws) :
    (reconcileTaskId cfg taskId d).run Op.exec db = (.ok (), db) := by
  rw [reconcileTaskId, TaskRepo.run_get_bind, h]
  rfl

/-! ### A pass -/

/-- The row of a task is what a reconcile at some moment of the pass has made of it. -/
def SettledIn (cfg : OrchConfig) (d : Draws) (db : Db) (task : Task) (db' : Db) : Prop :=
  ∃ path task', db'.tasks.get task.id = some task' ∧
    (task'.status, task'.marks) = settle cfg (d.now path) (runtimeOf db task) task ∧
    task'.brief = task.brief

theorem runtimeOf_congr {db db' : Db} (h : db'.runtimes = db.runtimes) (task : Task) :
    runtimeOf db' task = runtimeOf db task := by
  rw [runtimeOf, runtimeOf, h]

theorem Reconciled.settledIn {cfg : OrchConfig} {d : Draws} {i : Nat} {task : Task} {db db' : Db}
    (h : Reconciled cfg (d.sub i).clock task db db') : SettledIn cfg d db task db' := by
  obtain ⟨task', hrow, hsettle, hbrief, _⟩ := h.row
  exact ⟨[i], task', hrow, hsettle, hbrief⟩

/-- A pass settles every task it looks at, and leaves the others alone. -/
theorem run_reconcileTasks (cfg : OrchConfig) (d : Draws) {taskIds : List String}
    (hnodup : taskIds.Nodup) (db : Db) :
    ∃ db', (reconcileTasks cfg d taskIds).run Op.exec db = (.ok (), db') ∧
      db'.runtimes = db.runtimes ∧
      (∀ id, id ∉ taskIds → db'.tasks.get id = db.tasks.get id) ∧
      ∀ task, task.id ∈ taskIds → db.tasks.get task.id = some task →
        SettledIn cfg d db task db' := by
  induction taskIds generalizing db with
  | nil => exact ⟨db, rfl, rfl, fun _ _ => rfl, fun _ hmem => absurd hmem List.not_mem_nil⟩
  | cons taskId taskIds ih =>
    rw [List.nodup_cons] at hnodup
    have hfirst : ∃ db₁, (reconcileTaskId cfg taskId (d.sub taskIds.length)).run Op.exec db =
        (.ok (), db₁) ∧ db₁.runtimes = db.runtimes ∧
        (∀ id, id ≠ taskId → db₁.tasks.get id = db.tasks.get id) ∧
        ∀ task, task.id = taskId → db.tasks.get task.id = some task →
          SettledIn cfg d db task db₁ := by
      cases htask : db.tasks.get taskId with
      | none =>
        refine ⟨db, run_reconcileTaskId_of_none htask cfg _, rfl, fun _ _ => rfl, ?_⟩
        rintro task rfl hget
        rw [htask] at hget
        cases hget
      | some task =>
        obtain rfl : task.id = taskId := Table.key_eq_of_get htask
        obtain ⟨db₁, hrun, hreconciled⟩ :=
          run_reconcileTaskId htask (d.sub taskIds.length) cfg
        refine ⟨db₁, hrun, hreconciled.runtimes, hreconciled.others, fun task' hid hget => ?_⟩
        rw [hid, htask] at hget
        obtain rfl := Option.some.inj hget
        exact hreconciled.settledIn
    obtain ⟨db₁, hrun₁, hruntimes₁, hothers₁, hself₁⟩ := hfirst
    obtain ⟨db₂, hrun₂, hruntimes₂, hothers₂, hself₂⟩ := ih hnodup.2 db₁
    refine ⟨db₂, ?_, hruntimes₂.trans hruntimes₁, fun id hid => ?_, fun task hmem hget => ?_⟩
    · rw [reconcileTasks, Coro.run_bind_ok Op.exec hrun₁, hrun₂]
    · rw [List.mem_cons, not_or] at hid
      rw [hothers₂ id hid.2, hothers₁ id hid.1]
    · rcases List.mem_cons.mp hmem with hid | hmem
      · obtain ⟨path, task', hrow, hsettle⟩ := hself₁ task hid hget
        refine ⟨path, task', ?_, hsettle⟩
        rw [hothers₂ task.id (hid ▸ hnodup.1), hrow]
      · have hne : task.id ≠ taskId := fun heq => hnodup.1 (heq ▸ hmem)
        obtain ⟨path, task', hrow, hsettle⟩ := hself₂ task hmem (by rw [hothers₁ _ hne, hget])
        rw [runtimeOf_congr hruntimes₁] at hsettle
        exact ⟨path, task', hrow, hsettle⟩

theorem nodup_managedTasks (db : Db) : (managedTasks db).Nodup :=
  db.tasks.nodup.sublist (List.filter_sublist.map _)

theorem mem_managedTasks {db : Db} {task : Task} (htask : db.tasks.get task.id = some task)
    (hmanaged : task.isManaged = true) (hstatus : task.status ≠ .cancelled) :
    task.id ∈ managedTasks db := by
  refine List.mem_map.mpr ⟨task, List.mem_filter.mpr ⟨Table.mem_of_get htask, ?_⟩, rfl⟩
  simp [hmanaged, hstatus]

end OrchController

/-! ### A deserted task -/

/-- A managed task whose worker has died for the first time. -/
def desertedTask : Task where
  id := "task_1"
  bundleId := "bun_1"
  status := .working
  brief := some {}
  assignedRuntimeId := some "rt_1"

def desertedDb : Db where
  bundles := (∅ : Table Bundle).insert { id := "bun_1" }
  tasks := (∅ : Table Task).insert desertedTask

end Krewhub
