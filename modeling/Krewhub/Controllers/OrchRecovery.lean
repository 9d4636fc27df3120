import Krewhub.Controllers.Orch
import Krewhub.Store.Durable

/-!
# A crash inside a reconcile

The process stops after some number of operations of `_reconcile_task_id` and is started again, and
the task is reconciled anew from what is on the disk. A decision that is one write is found made or not
made. Parking and respawning are two writes with a commit after each; a crash between the two commits
leaves the marker without the row, and the next reconcile does not read the marker as unfinished work.
-/

namespace Krewhub

/-- The marks without their times. -/
def OrchMarks.undated (marks : OrchMarks) : OrchMarks :=
  { marks with
    acceptedAt := marks.acceptedAt.map fun _ => 0
    lastRespawnAt := marks.lastRespawnAt.map fun _ => 0 }

namespace OrchController

/-- A status, and which marks are set. -/
def undate (decision : TaskStatus × OrchMarks) : TaskStatus × OrchMarks :=
  (decision.1, decision.2.undated)

/-- The status, the marker set and the respawn count of a task. -/
def outcome (db : Db) (taskId : String) : Option (TaskStatus × OrchMarks) :=
  (db.tasks.get taskId).map fun t => undate (t.status, t.marks)

/-- A crash after `k` operations of a reconcile, a restart, and another reconcile of the task. -/
def afterCrash (cfg : OrchConfig) (taskId : String) (d d' : Draws) (k : Nat) (db : Db) : Db :=
  ((reconcileTaskId cfg taskId d').run Op.exec
    (Durable.steps k (reconcileTaskId cfg taskId d) ⟨db, db⟩).recover.live).2

/-! ### Deciding again -/

section Decide

variable {cfg : OrchConfig} {now now' : Nat} {runtime : Option AgentRuntime} {task task' : Task}

/-- The time only matters for whether the runtime is alive. -/
theorem undate_settle_congr (halive : isAlive cfg now' runtime = isAlive cfg now runtime) :
    undate (settle cfg now' runtime task) = undate (settle cfg now runtime task) := by
  simp only [settle, halive]
  split_ifs <;> rfl

/-- The decision looks at five columns of the row. -/
theorem settle_congr (hstatus : task'.status = task.status) (hmarks : task'.marks = task.marks)
    (hbrief : task'.brief = task.brief) (hreport : task'.report = task.report)
    (hassigned : task'.assignedRuntimeId = task.assignedRuntimeId) :
    settle cfg now runtime task' = settle cfg now runtime task := by
  have hmanaged : task'.isManaged = task.isManaged := by rw [Task.isManaged, hbrief, Task.isManaged]
  have hbrain : brainAttached task' = brainAttached task := by
    rw [brainAttached, hmarks, brainAttached]
  rw [settle, settle, hmanaged, hbrain, hstatus, hmarks, hreport, hassigned]

/-- A task that has been settled is left as it is. -/
theorem undate_settle_again (hsettle : (task'.status, task'.marks) = settle cfg now runtime task)
    (hbrief : task'.brief = task.brief) (hreport : task'.report = task.report)
    (hassigned : task'.assignedRuntimeId = task.assignedRuntimeId)
    (halive : isAlive cfg now' runtime = isAlive cfg now runtime) :
    undate (settle cfg now' runtime task') = undate (settle cfg now runtime task) := by
  have hmanaged : task'.isManaged = task.isManaged := by rw [Task.isManaged, hbrief, Task.isManaged]
  by_cases hskip : (!task.isManaged || task.marks.isSettled) = true
  · have hsame : settle cfg now runtime task = (task.status, task.marks) := by
      rw [settle, if_pos hskip]
    rw [hsame] at hsettle ⊢
    obtain ⟨hstatus, hmarks⟩ := Prod.mk.inj hsettle
    rw [settle, hmanaged, hstatus, hmarks, if_pos hskip]
  · rw [← hsettle]
    simp only [settle, if_neg hskip] at hsettle
    simp only [Bool.or_eq_true, Bool.not_eq_true', not_or, Bool.not_eq_false,
      Bool.not_eq_true] at hskip
    obtain ⟨hmanagedTask, hunsettled⟩ := hskip
    split_ifs at hsettle with hdone hvalid hbrain hrunning halive' hlimit
    all_goals obtain ⟨hstatus, hmarks⟩ := Prod.mk.inj hsettle
    · rw [settle_of_isSettled (by simp [hmarks, OrchMarks.isSettled])]
    · rw [settle_of_isSettled (by simp [hmarks, OrchMarks.isSettled])]
    · rw [← hreport] at hvalid
      simp [settle, hmanaged, hmanagedTask, hstatus, hvalid, hmarks]
    · rw [← hassigned, ← halive] at halive'
      rw [← hstatus] at hdone hrunning
      rw [settle, if_neg (by simp [hmanaged, hmanagedTask, hmarks, hunsettled]), if_neg hdone,
        if_pos hrunning, if_pos halive']
    · rw [settle_of_isSettled (by simp [hmarks, OrchMarks.isSettled])]
    · rw [settle, if_neg (by simp [hmanaged, hmanagedTask, hmarks]; exact hunsettled),
        if_neg (by rw [hstatus]; decide), if_neg (by rw [hstatus]; decide)]
    · rw [← hstatus] at hdone hrunning
      rw [settle, if_neg (by simp [hmanaged, hmanagedTask, hmarks, hunsettled]), if_neg hdone,
        if_neg hrunning]

/-- With the marks of a lost liveness and without the status, the next decision is another one. -/
theorem undate_settle_half {db : Db} (hlost : LivenessLost cfg db task now)
    (halive : isAlive cfg now' (runtimeOf db task) = isAlive cfg now (runtimeOf db task))
    (hmarks : task'.marks = (settle cfg now (runtimeOf db task) task).2)
    (hstatus : task'.status = task.status) (hbrief : task'.brief = task.brief)
    (hassigned : task'.assignedRuntimeId = task.assignedRuntimeId) :
    undate (settle cfg now' (runtimeOf db task) task') ≠
      undate (settle cfg now (runtimeOf db task) task) := by
  have hblocked := not_blocked_of_running hlost.running
  rw [settle_of_livenessLost hlost] at hmarks ⊢
  by_cases hlimit : cfg.maxRespawns ≤ task.marks.respawns
  · rw [if_pos hlimit] at hmarks ⊢
    rw [settle_of_isSettled (by simp [hmarks, OrchMarks.isSettled])]
    intro heq
    rw [undate, undate, hstatus] at heq
    exact hblocked (Prod.mk.inj heq).1
  · rw [if_neg hlimit] at hmarks ⊢
    have hruntime : runtimeOf db task = runtimeOf db task' := by
      rw [runtimeOf, runtimeOf, hassigned]
    have hagain : LivenessLost cfg db task' now' := by
      constructor
      · rw [Task.isManaged, hbrief, ← hlost.managed]
        rfl
      · rw [hmarks, ← hlost.unsettled]
        rfl
      · rw [hstatus]
        exact hlost.running
      · rw [hassigned]
        exact hlost.assigned
      · rw [← hruntime, halive, hlost.dead]
    rw [hruntime, settle_of_livenessLost hagain]
    intro heq
    split at heq
    · cases (Prod.mk.inj heq).1
    · have hrespawns := congrArg OrchMarks.respawns (Prod.mk.inj heq).2
      rw [hmarks] at hrespawns
      simp [OrchMarks.undated] at hrespawns

end Decide

/-! ### The disk after so many operations -/

section Disk

variable {task : Task} {db : Db}

/-- Operations that leave the rows alone leave those on the disk alone. -/
theorem sameRows_steps {α : Type} {c : Sql α} (hc : c.Performs Op.exec RowSafe db) (k : Nat) :
    SameRows db (Durable.steps k c ⟨db, db⟩).disk := by
  have hkeep : ∀ op, RowSafe op → ∀ s : Durable, SameRows db s.live ∧ SameRows db s.disk →
      SameRows db (Durable.exec op s).live ∧ SameRows db (Durable.exec op s).disk := by
    intro op hop s hs
    refine ⟨trans_of SameRows hs.1 (hop s.live), ?_⟩
    cases op
    case commit => exact hs.1
    all_goals exact hs.2
  exact (Durable.steps_inv hkeep k hc ⟨refl_of SameRows db, refl_of SameRows db⟩).2

/-- Marks are on the disk from the second operation on. -/
theorem disk_mark (htask : db.tasks.get task.id = some task) (hclaimed : task.status ≠ .claimed)
    (marks : OrchMarks) (type : EventType) (body payload : String) (d : Draws) (k : Nat) :
    let disk := (Durable.steps k
      (do writeOrch task marks; emit task type body payload d) ⟨db, db⟩).disk
    SameRows db disk ∨
      SameRows (Op.exec (.updateTask task.id (.orch marks) none (some task)) db) disk := by
  match k with
  | 0 => exact .inl (refl_of SameRows db)
  | 1 => exact .inl (refl_of SameRows db)
  | k + 2 =>
    right
    have hnot : (Op.exec (.updateTask task.id (.orch marks) none (some task)) db).statusOf task.id ≠
        some .claimed := by
      rw [Op.statusOf_updateTask_self htask]
      intro heq
      exact hclaimed (Option.some.inj heq)
    exact sameRows_steps (TaskService.performs_narrate d hnot orchActor type body { rest := payload }) k

/-- The row of the task with a status and marks of its own; the runtimes are as they were. -/
structure HasRow (db : Db) (task : Task) (disk : Db) (decision : TaskStatus × OrchMarks) : Prop where
  runtimes : disk.runtimes = db.runtimes
  row : ∃ row, disk.tasks.get task.id = some row ∧ (row.status, row.marks) = decision ∧
    row.brief = task.brief ∧ row.report = task.report ∧
    row.assignedRuntimeId = task.assignedRuntimeId

theorem hasRow_of_sameRows {disk : Db} (htask : db.tasks.get task.id = some task)
    (h : SameRows db disk) : HasRow db task disk (task.status, task.marks) where
  runtimes := h.2
  row := ⟨task, by rw [h.1, htask], rfl, rfl, rfl, rfl⟩

theorem hasRow_of_marked {disk : Db} {marks : OrchMarks} (htask : db.tasks.get task.id = some task)
    (h : SameRows (Op.exec (.updateTask task.id (.orch marks) none (some task)) db) disk) :
    HasRow db task disk (task.status, marks) where
  runtimes := h.2
  row := ⟨(TaskUpdate.orch marks).apply task, by rw [h.1, Op.get_updateTask_self htask],
    rfl, rfl, rfl, rfl⟩

/-- The marks are on the disk from the second operation on, the row from the fourth on. -/
theorem disk_transition (htask : db.tasks.get task.id = some task) (marks : OrchMarks)
    (u : TaskUpdate) {status : TaskStatus} (hstatus : u.status? = some status)
    (hclaimed : status ≠ .claimed)
    (hspare : ∀ t, (u.apply t).marks = t.marks ∧ (u.apply t).brief = t.brief ∧
      (u.apply t).report = t.report ∧ (u.apply t).assignedRuntimeId = t.assignedRuntimeId)
    {step : Sql (Option Task)}
    (hstep : step = .await (.updateTask task.id u none (some task)) fun _ =>
      .await .commit fun _ => .await .select fun db => .done (db.tasks.get task.id))
    (type : EventType) (body payload : String) (d : Draws) (k : Nat) :
    let disk := (Durable.steps k (do
      writeOrch task marks
      let updated ← step
      TaskService.recordUpdated updated
      emit task type body payload d) ⟨db, db⟩).disk
    k < 2 ∧ HasRow db task disk (task.status, task.marks) ∨
      (k = 2 ∨ k = 3) ∧ HasRow db task disk (task.status, marks) ∨
      4 ≤ k ∧ HasRow db task disk (status, marks) := by
  subst hstep
  match k with
  | 0 => exact .inl ⟨by decide, hasRow_of_sameRows htask (refl_of SameRows db)⟩
  | 1 => exact .inl ⟨by decide, hasRow_of_sameRows htask (refl_of SameRows db)⟩
  | 2 => exact .inr (.inl ⟨.inl rfl, hasRow_of_marked htask (refl_of SameRows _)⟩)
  | 3 => exact .inr (.inl ⟨.inr rfl, hasRow_of_marked htask (refl_of SameRows _)⟩)
  | k + 4 =>
    refine .inr (.inr ⟨Nat.le_add_left 4 k, ?_⟩)
    have hmarked : (Op.exec (.updateTask task.id (.orch marks) none (some task)) db).tasks.get
        task.id = some ((TaskUpdate.orch marks).apply task) := Op.get_updateTask_self htask
    have hnot : (Op.exec (.updateTask task.id u none (some task))
        (Op.exec (.updateTask task.id (.orch marks) none (some task)) db)).statusOf task.id ≠
          some .claimed := by
      rw [Op.statusOf_updateTask_self hmarked, hstatus]
      intro heq
      exact hclaimed (Option.some.inj heq)
    have hrest : (do
        let updated ← TaskRepo.get task.id
        TaskService.recordUpdated updated
        emit task type body payload d).Performs Op.exec RowSafe
          (Op.exec (.updateTask task.id u none (some task))
            (Op.exec (.updateTask task.id (.orch marks) none (some task)) db)) := by
      refine Coro.Performs.bind ((TaskRepo.every_get plainOps_rowSafe _).performs _)
        fun updated db' hrun => ?_
      rw [TaskRepo.get, Sql.run_select] at hrun
      cases hrun
      refine Coro.Performs.bind ((TaskService.every_recordUpdated plainOps_rowSafe _).performs _)
        fun _ db' hrun => ?_
      rw [TaskService.run_recordUpdated] at hrun
      cases hrun
      exact TaskService.performs_narrate d hnot orchActor type body { rest := payload }
    have hsame := sameRows_steps hrest k
    obtain ⟨hmarks, hbrief, hreport, hassigned⟩ := hspare ((TaskUpdate.orch marks).apply task)
    have hrow := (congrArg (·.get task.id) hsame.1).trans (Op.get_updateTask_self hmarked)
    refine ⟨hsame.2, _, hrow, ?_, hbrief, hreport, hassigned⟩
    rw [TaskUpdate.apply_status, hstatus, hmarks]
    rfl

theorem steps_return {α : Type} (a : α) (k : Nat) (s : Durable) :
    Durable.steps k (pure a : Sql α) s = s := by
  cases k <;> rfl

theorem steps_select_bind {α β : Type} (read : Db → α) (f : α → Sql β) (k : Nat) (s : Durable) :
    Durable.steps (k + 1) (Sql.select read >>= f) s = Durable.steps k (f (read s.live)) s := rfl

section Branches

variable {cfg : OrchConfig} (htask : db.tasks.get task.id = some task) (d : Draws)
include htask

theorem disk_handleDone (hmanaged : task.isManaged = true) (hsettled : task.marks.isSettled = false)
    (hdone : task.status = .done) (k : Nat) :
    let disk := (Durable.steps k (handleDone task task.marks d) ⟨db, db⟩).disk
    HasRow db task disk (task.status, task.marks) ∨
      HasRow db task disk (settle cfg d.clock (runtimeOf db task) task) := by
  have hclaimed : task.status ≠ .claimed := by
    rw [hdone]
    decide
  have hawaiting : task.marks.awaitingBrain = false := by
    simp only [OrchMarks.isSettled, Bool.or_eq_false_iff] at hsettled
    exact hsettled.2
  have hmark := fun marks type body payload d =>
    (disk_mark htask hclaimed marks type body payload d k).imp (hasRow_of_sameRows htask)
      (hasRow_of_marked htask)
  rw [settle_of_done hmanaged hsettled hdone, handleDone]
  by_cases hreport : task.report.any Report.isValid = true
  · rw [if_pos hreport, if_pos hreport]
    by_cases hbrain : brainAttached task = true
    · rw [if_pos hbrain, if_pos hbrain, if_neg (by rw [hawaiting]; decide), ← hdone]
      exact hmark _ _ _ _ _
    · rw [if_neg hbrain, if_neg hbrain, ← hdone]
      exact hmark _ _ _ _ _
  · rw [if_neg hreport, if_neg hreport]
    by_cases hinvalid : task.marks.reportInvalid = true
    · rw [if_pos hinvalid, steps_return]
      exact .inl (hasRow_of_sameRows htask (refl_of SameRows db))
    · rw [if_neg hinvalid, ← hdone]
      exact hmark _ _ _ _ _

omit htask in
/-- With the runtime alive nothing is written. -/
theorem disk_checkLiveness_of_alive (halive : task.assignedRuntimeId = none ∨
      isAlive cfg d.clock (runtimeOf db task) = true) (k : Nat) :
    (Durable.steps k (checkLiveness cfg task task.marks d) ⟨db, db⟩).disk = db := by
  cases hassigned : task.assignedRuntimeId with
  | none => rw [checkLiveness, hassigned, steps_return]
  | some runtimeId =>
    rw [hassigned, runtimeOf, hassigned] at halive
    rw [checkLiveness, hassigned]
    rcases halive with h | h
    · cases h
    · cases k with
      | zero => rfl
      | succ k =>
        show (Durable.steps k (if isAlive cfg d.clock (db.runtimes.get runtimeId) = true then _ else _)
          ⟨db, db⟩).disk = db
        rw [if_pos (show isAlive cfg d.clock (db.runtimes.get runtimeId) = true from h), steps_return]

theorem disk_checkLiveness_of_lost (hlost : LivenessLost cfg db task d.clock) (k : Nat) :
    let disk := (Durable.steps k (checkLiveness cfg task task.marks d) ⟨db, db⟩).disk
    let decision := settle cfg d.clock (runtimeOf db task) task
    k < 3 ∧ HasRow db task disk (task.status, task.marks) ∨
      (k = 3 ∨ k = 4) ∧ HasRow db task disk (task.status, decision.2) ∨
      5 ≤ k ∧ HasRow db task disk decision := by
  obtain ⟨runtimeId, hassigned⟩ := Option.isSome_iff_exists.mp hlost.assigned
  have hdead : isAlive cfg d.clock (db.runtimes.get runtimeId) = false := by
    have h := hlost.dead
    rwa [runtimeOf, hassigned] at h
  cases k with
  | zero => exact .inl ⟨by decide, hasRow_of_sameRows htask (refl_of SameRows db)⟩
  | succ k =>
    have hselect : Durable.steps (k + 1) (checkLiveness cfg task task.marks d) ⟨db, db⟩ =
        Durable.steps k (if cfg.maxRespawns ≤ task.marks.respawns then park cfg task task.marks d
          else respawn cfg task task.marks runtimeId d) ⟨db, db⟩ := by
      rw [checkLiveness, hassigned]
      show Durable.steps k (if isAlive cfg d.clock (db.runtimes.get runtimeId) = true then _ else _)
        ⟨db, db⟩ = _
      rw [hdead, if_neg (by decide)]
    rw [hselect, settle_of_livenessLost hlost]
    have hshift : ∀ {p q r : Prop}, k < 2 ∧ p ∨ (k = 2 ∨ k = 3) ∧ q ∨ 4 ≤ k ∧ r →
        k + 1 < 3 ∧ p ∨ (k + 1 = 3 ∨ k + 1 = 4) ∧ q ∨ 5 ≤ k + 1 ∧ r := by
      rintro p q r (⟨hk, h⟩ | ⟨hk, h⟩ | ⟨hk, h⟩)
      · exact .inl ⟨by omega, h⟩
      · exact .inr (.inl ⟨by omega, h⟩)
      · exact .inr (.inr ⟨by omega, h⟩)
    by_cases hlimit : cfg.maxRespawns ≤ task.marks.respawns
    · rw [if_pos hlimit, if_pos hlimit, park]
      exact hshift (disk_transition htask _ (.patch (parkPatch cfg task.marks) (d.sub 0).clock) rfl
        (by decide) (fun _ => ⟨rfl, rfl, rfl, rfl⟩) rfl _ _ _ _ k)
    · rw [if_neg hlimit, if_neg hlimit, respawn]
      exact hshift (disk_transition htask _ (.reopenForRerun (d.sub 0).clock) rfl
        (by decide) (fun _ => ⟨rfl, rfl, rfl, rfl⟩) rfl _ _ _ _ k)

/-- After `k` operations of a reconcile the row on the disk is as it was or settled, but for the two
operations in which a lost liveness has only been marked. -/
theorem disk_reconcileTaskId (cfg : OrchConfig) (d : Draws) (k : Nat) :
    let disk := (Durable.steps k (reconcileTaskId cfg task.id d) ⟨db, db⟩).disk
    let decision := settle cfg d.clock (runtimeOf db task) task
    LivenessLost cfg db task d.clock ∧ (k = 4 ∨ k = 5) ∧ HasRow db task disk (task.status, decision.2) ∨
      ¬ (LivenessLost cfg db task d.clock ∧ (k = 4 ∨ k = 5)) ∧
        (HasRow db task disk (task.status, task.marks) ∨ HasRow db task disk decision) := by
  have hbefore := hasRow_of_sameRows htask (refl_of SameRows db)
  cases k with
  | zero => exact .inr ⟨by omega, .inl hbefore⟩
  | succ k =>
    have hget : Durable.steps (k + 1) (reconcileTaskId cfg task.id d) ⟨db, db⟩ =
        Durable.steps k (if !task.isManaged || task.marks.isSettled then return
          else if task.status = .done then handleDone task task.marks d
          else if task.status = .claimed ∨ task.status = .working then
            checkLiveness cfg task task.marks d
          else return) ⟨db, db⟩ := by
      rw [reconcileTaskId, TaskRepo.get, steps_select_bind, htask]
    rw [hget]
    by_cases hskip : (!task.isManaged || task.marks.isSettled) = true
    · rw [if_pos hskip, steps_return]
      refine .inr ⟨fun hlost => ?_, .inl hbefore⟩
      simp [hlost.1.managed, hlost.1.unsettled] at hskip
    · rw [if_neg hskip]
      simp only [Bool.or_eq_true, Bool.not_eq_true', not_or, Bool.not_eq_false,
        Bool.not_eq_true] at hskip
      obtain ⟨hmanaged, hsettled⟩ := hskip
      by_cases hdone : task.status = .done
      · rw [if_pos hdone]
        exact .inr ⟨fun hlost => not_done_of_running hlost.1.running hdone,
          disk_handleDone htask d hmanaged hsettled hdone k⟩
      · rw [if_neg hdone]
        by_cases hrunning : task.status = .claimed ∨ task.status = .working
        · rw [if_pos hrunning]
          by_cases hlost : LivenessLost cfg db task d.clock
          · rcases disk_checkLiveness_of_lost htask d hlost k with ⟨hk, hrow⟩ | ⟨hk, hrow⟩ | ⟨hk, hrow⟩
            · exact .inr ⟨by omega, .inl hrow⟩
            · exact .inl ⟨hlost, by omega, hrow⟩
            · exact .inr ⟨by omega, .inr hrow⟩
          · have halive : task.assignedRuntimeId = none ∨
                isAlive cfg d.clock (runtimeOf db task) = true := by
              by_contra hdead
              simp only [not_or, Bool.not_eq_true] at hdead
              exact hlost ⟨hmanaged, hsettled, hrunning, Option.isSome_iff_ne_none.mpr hdead.1, hdead.2⟩
            rw [disk_checkLiveness_of_alive d halive]
            exact .inr ⟨fun h => hlost h.1, .inl hbefore⟩
        · rw [if_neg hrunning, steps_return]
          exact .inr ⟨fun hlost => hrunning hlost.1.running, .inl hbefore⟩

end Branches

end Disk

/-! ### Convergence -/

section Recover

variable (cfg : OrchConfig) (d : Draws) {task : Task} {db disk : Db}

/-- A reconcile leaves the decision about the row it finds. -/
theorem outcome_reconcile {row : Task} (hrow : db.tasks.get row.id = some row) :
    outcome ((reconcileTaskId cfg row.id d).run Op.exec db).2 row.id =
      some (undate (settle cfg d.clock (runtimeOf db row) row)) := by
  obtain ⟨db', hrun, hreconciled⟩ := run_reconcileTaskId hrow d cfg
  obtain ⟨row', hget, hsettle, _⟩ := hreconciled.row
  rw [hrun, outcome, hget, Option.map_some, hsettle]

/-- From a row of the task the next reconcile decides as from the row itself. -/
theorem HasRow.outcome {decision : TaskStatus × OrchMarks} (h : HasRow db task disk decision) :
    ∃ row : Task, (row.status, row.marks) = decision ∧ row.brief = task.brief ∧
      row.report = task.report ∧ row.assignedRuntimeId = task.assignedRuntimeId ∧
      OrchController.outcome ((reconcileTaskId cfg task.id d).run Op.exec disk).2 task.id =
        some (undate (settle cfg d.clock (runtimeOf db task) row)) := by
  obtain ⟨row, hget, hdecision, hbrief, hreport, hassigned⟩ := h.row
  have hid : row.id = task.id := Table.key_eq_of_get hget
  refine ⟨row, hdecision, hbrief, hreport, hassigned, ?_⟩
  rw [← hid] at hget ⊢
  rw [outcome_reconcile cfg d hget, runtimeOf, runtimeOf, hassigned, h.runtimes]

end Recover

end OrchController

open OrchController in
/-- A reconcile that is cut short after any number of operations and done again with the same inputs
reaches what it would have reached, unless the crash falls between the two writes of a lost liveness. -/
theorem recovery_converges_iff {cfg : OrchConfig} {db : Db} {task : Task} {d d' : Draws} {k : Nat}
    (htask : db.tasks.get task.id = some task)
    (hinputs : isAlive cfg d'.clock (runtimeOf db task) = isAlive cfg d.clock (runtimeOf db task)) :
    outcome (afterCrash cfg task.id d d' k db) task.id =
        outcome ((reconcileTaskId cfg task.id d).run Op.exec db).2 task.id ↔
      ¬ (LivenessLost cfg db task d.clock ∧ (k = 4 ∨ k = 5)) := by
  rw [outcome_reconcile cfg d htask]
  rcases disk_reconcileTaskId htask cfg d k with ⟨hlost, hk, hrow⟩ | ⟨hnot, hrow⟩
  · obtain ⟨row, hdecision, hbrief, _, hassigned, houtcome⟩ := hrow.outcome cfg d'
    obtain ⟨hstatus, hmarks⟩ := Prod.mk.inj hdecision
    refine iff_of_false (fun heq => ?_) fun h => h ⟨hlost, hk⟩
    have hrest := houtcome.symm.trans heq
    exact undate_settle_half hlost hinputs hmarks hstatus hbrief hassigned (Option.some.inj hrest)
  · refine iff_of_true ?_ hnot
    rcases hrow with hrow | hrow
    · obtain ⟨row, hdecision, hbrief, hreport, hassigned, houtcome⟩ := hrow.outcome cfg d'
      obtain ⟨hstatus, hmarks⟩ := Prod.mk.inj hdecision
      refine houtcome.trans (congrArg some ?_)
      rw [settle_congr hstatus hmarks hbrief hreport hassigned]
      exact undate_settle_congr hinputs
    · obtain ⟨row, hdecision, hbrief, hreport, hassigned, houtcome⟩ := hrow.outcome cfg d'
      refine houtcome.trans (congrArg some ?_)
      exact undate_settle_again hdecision hbrief hreport hassigned hinputs

/-! ### A crash between the marker and the row -/

open OrchController in
theorem recovery_converges_iff_first_write :
    outcome (afterCrash {} "task_1" (pathDraws 'a') (pathDraws 'b') 3 desertedDb) "task_1" =
        outcome ((reconcileTaskId {} "task_1" (pathDraws 'a')).run Op.exec desertedDb).2 "task_1" ↔
      ¬ (LivenessLost {} desertedDb desertedTask (pathDraws 'a').clock ∧ ((3 : Nat) = 4 ∨ (3 : Nat) = 5)) :=
  recovery_converges_iff (show desertedDb.tasks.get desertedTask.id = some desertedTask by decide +kernel)
    (by decide +kernel)

open OrchController in
/-- The crash after the commit of the marks: the uninterrupted reconcile respawns the task once, the
one after the restart counts a second respawn. -/
theorem crash_counts_respawn_twice :
    outcome (afterCrash {} "task_1" (pathDraws 'a') (pathDraws 'b') 4 desertedDb) "task_1" =
        some (.open_, { respawns := 2, lastRespawnAt := some 0 }) ∧
      outcome ((reconcileTaskId {} "task_1" (pathDraws 'a')).run Op.exec desertedDb).2 "task_1" =
        some (.open_, { respawns := 1, lastRespawnAt := some 0 }) := by
  decide +kernel

end Krewhub
