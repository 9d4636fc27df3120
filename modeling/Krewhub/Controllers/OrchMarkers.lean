import Krewhub.Base.Serial
import Krewhub.Controllers.Dispatch
import Krewhub.Controllers.Orch
import Krewhub.Routes.Tasks

/-!
# The markers of the orchestration controller

`orch_json` says of a task that it has been accepted, left to the brain or halted, and a task marked so
is passed over by every later reconcile. The endpoints that reopen or redirect a task leave the column
as it is: after a followup on an accepted task the marker speaks of a run that is over, and nobody
supervises the one that follows.
-/

namespace Krewhub

/-- A managed task that has been accepted or left to the brain. -/
def Task.isRetired (task : Task) : Bool :=
  task.isManaged && (task.marks.acceptedAt.isSome || task.marks.awaitingBrain)

/-- A managed task that has been parked for good. -/
def Task.isHalted (task : Task) : Bool := task.isManaged && task.marks.halted

/-- The markers of the task speak of the status it has. -/
def Task.MarkersCurrent (task : Task) : Prop :=
  (task.isRetired = true → task.status = .done) ∧ (task.isHalted = true → task.status = .blocked)

instance (task : Task) : Decidable task.MarkersCurrent :=
  inferInstanceAs (Decidable (_ ∧ _))

def MarkersCurrent (db : Db) : Prop := ∀ task ∈ db.tasks.rows, task.MarkersCurrent

instance (db : Db) : Decidable (MarkersCurrent db) :=
  inferInstanceAs (Decidable (∀ task ∈ db.tasks.rows, task.MarkersCurrent))

/-- The task is claimed or working, and its runtime is dead at every moment of the pass. -/
structure Deserted (cfg : OrchConfig) (db : Db) (task : Task) (d : Draws) : Prop where
  row : db.tasks.get task.id = some task
  managed : task.isManaged = true
  running : task.status = .claimed ∨ task.status = .working
  assigned : task.assignedRuntimeId.isSome = true
  dead : ∀ path, OrchController.isAlive cfg (d.now path) (OrchController.runtimeOf db task) = false

/-- The next reconcile respawns every deserted task, or parks it. -/
def Supervised (cfg : OrchConfig) (db : Db) : Prop :=
  ∀ task d, Deserted cfg db task d →
    ∃ task', ((OrchController.reconcile cfg d).run Op.exec db).2.tasks.get task.id = some task' ∧
      (task'.status = .open_ ∧ task'.marks.respawns = task.marks.respawns + 1 ∨
        task'.status = .blocked ∧ task'.marks.halted = true)

/-! ### Calls -/

/-- A pass of one of the controllers, or a request. -/
inductive OrchCall where
  | reconcile (d : Draws)
  | taskChanged (taskId : String) (d : Draws)
  | release (heartbeatTimeout : Nat) (d : Draws)
  | dispatch (d : Draws)
  | claim (taskId agentId : String) (caller : CallerContext) (d : Draws)
  | followup (taskId prompt : String) (caller : CallerContext) (d : Draws)
  | hitlAnswer (taskId answer : String) (caller : CallerContext) (d : Draws)
  | status (taskId status : String) (blockedReason : Option String) (caller : CallerContext)
      (d : Draws)
  | completion (taskId : String) (req : CompletionRequest) (caller : CallerContext)

namespace OrchCall

def handle (cfg : OrchConfig) : OrchCall → Sql Unit
  | .reconcile d => OrchController.reconcile cfg d
  | .taskChanged taskId d => OrchController.reconcileTaskId cfg taskId d
  | .release heartbeatTimeout d => PresenceController.reconcile heartbeatTimeout d
  | .dispatch d => TaskDispatchController.reconcile d
  | .claim taskId agentId caller d => discard (claimTask taskId agentId caller d)
  | .followup taskId prompt caller d => discard (appendTaskFollowup taskId prompt caller d)
  | .hitlAnswer taskId answer caller d => discard (postTaskHitlAnswer taskId answer caller d)
  | .status taskId value reason caller d => discard (updateTaskStatus taskId value reason caller d)
  | .completion taskId req caller => discard (postTaskCompletion taskId req caller)

/-- The database after the call has completed. -/
def apply (cfg : OrchConfig) (call : OrchCall) (db : Db) : Db :=
  ((call.handle cfg).run Op.exec db).2

/-- A request that moves a task away from what its markers say: a followup on a retired one, an answer
to a halted one, a status other than that of its marker. -/
def Redirects (db : Db) : OrchCall → Prop
  | .followup taskId prompt caller _ =>
    Text.strip prompt ≠ "" ∧ ∃ task ∈ db.tasks.get taskId, MayMutate db caller task ∧
      (db.bundles.get task.bundleId).isSome = true ∧ task.status = .done ∧ task.isRetired = true
  | .hitlAnswer taskId answer caller _ =>
    Text.strip answer ≠ "" ∧ ∃ task ∈ db.tasks.get taskId, MayMutate db caller task ∧
      task.status = .blocked ∧ task.isHalted = true
  | .status taskId value _ caller _ =>
    ∃ task ∈ db.tasks.get taskId, MayMutate db caller task ∧
      (value = "done" ∧ task.isHalted = true ∨ value = "blocked" ∧ task.isRetired = true)
  | _ => False

end OrchCall

/-! ### Steps that keep the markers current -/

def KeepsMarkers (db db' : Db) : Prop := MarkersCurrent db → MarkersCurrent db'

instance : IsPreorder Db KeepsMarkers where
  refl _ h := h
  trans _ _ _ hab hbc h := hbc (hab h)

theorem MarkersCurrent.of_get {db : Db} (h : MarkersCurrent db) {taskId : String} {task : Task}
    (htask : db.tasks.get taskId = some task) : task.MarkersCurrent :=
  h task (Table.mem_of_get htask)

/-- An update of a row that keeps its markers current, where they are. -/
theorem keepsMarkers_updateTask {db : Db} {taskId : String} {task : Task} {u : TaskUpdate}
    {seen : Option Task} (htask : db.tasks.get taskId = some task)
    (hcurrent : task.MarkersCurrent → (u.apply task).MarkersCurrent) :
    KeepsMarkers db (Op.exec (.updateTask taskId u none seen) db) := by
  intro h t ht
  obtain ⟨t', ht', rfl⟩ := Op.mem_exec_updateTask.mp ht
  by_cases hid : t'.id = taskId
  · have hget : db.tasks.get taskId = some t' := Table.get_eq_some_iff.mpr ⟨ht', hid⟩
    rw [htask] at hget
    obtain rfl := Option.some.inj hget
    rw [if_pos hid]
    exact hcurrent (h task ht')
  · rw [if_neg hid]
    exact h t' ht'

theorem keepsMarkers_of_sameRows {db db' : Db} (h : SameRows db db') :
    KeepsMarkers db db' := by
  intro hcurrent
  rw [MarkersCurrent, h.1]
  exact hcurrent

/-- Whatever the database, the operation keeps the markers current. -/
def MarkerSafe (op : Op) : Prop := ∀ db, KeepsMarkers db (op.exec db)

theorem MarkerSafe.of_tasks {op : Op} (h : ∀ db, (op.exec db).tasks = db.tasks) : MarkerSafe op := by
  intro db hcurrent
  rw [MarkersCurrent, h]
  exact hcurrent

theorem plainOps_markerSafe : PlainOps MarkerSafe :=
  ⟨.of_tasks fun _ => rfl, .of_tasks fun _ => rfl, .of_tasks fun _ => rfl⟩

theorem markerSafe_insertEvent (event : Event) : MarkerSafe (.insertEvent event) :=
  fun db => keepsMarkers_of_sameRows (rowSafe_insertEvent event none db)

theorem keepsMarkers_of_every {α : Type} {c : Sql α} (h : c.Every MarkerSafe) (db : Db) :
    Sql.Keeps KeepsMarkers c db :=
  h.keeps (fun _ hop => hop) db

/-- The update writes neither the brief nor the markers. -/
def TaskUpdate.SparesMarks (u : TaskUpdate) : Prop :=
  ∀ t, (u.apply t).isManaged = t.isManaged ∧ (u.apply t).marks = t.marks

section Spares

variable {u : TaskUpdate} {task : Task}

theorem TaskUpdate.SparesMarks.isRetired (hu : u.SparesMarks) :
    (u.apply task).isRetired = task.isRetired := by
  rw [Task.isRetired, (hu task).1, (hu task).2, Task.isRetired]

theorem TaskUpdate.SparesMarks.isHalted (hu : u.SparesMarks) :
    (u.apply task).isHalted = task.isHalted := by
  rw [Task.isHalted, (hu task).1, (hu task).2, Task.isHalted]

/-- The new status is the one of every marker that is set. -/
theorem markersCurrent_apply (hu : u.SparesMarks)
    (hretired : task.isRetired = true → (u.apply task).status = .done)
    (hhalted : task.isHalted = true → (u.apply task).status = .blocked) :
    (u.apply task).MarkersCurrent := by
  refine ⟨fun h => ?_, fun h => ?_⟩
  · rw [hu.isRetired] at h
    exact hretired h
  · rw [hu.isHalted] at h
    exact hhalted h

/-- A task that is neither done nor blocked has no marker to contradict. -/
theorem markersCurrent_apply_of_active (hu : u.SparesMarks) (h : task.MarkersCurrent)
    (hdone : task.status ≠ .done) (hblocked : task.status ≠ .blocked) :
    (u.apply task).MarkersCurrent :=
  markersCurrent_apply hu (fun hretired => absurd (h.1 hretired) hdone)
    fun hhalted => absurd (h.2 hhalted) hblocked

end Spares

/-! ### The controllers -/

section Release

open PresenceController

/-- The rows of a list are those of the table, one each. -/
structure Listed (db : Db) (tasks : List Task) : Prop where
  nodup : (tasks.map (·.id)).Nodup
  rows : ∀ task ∈ tasks, db.tasks.get task.id = some task

theorem listed_filter (db : Db) (p : Task → Bool) : Listed db (db.tasks.rows.filter p) where
  nodup := db.tasks.nodup.sublist (List.filter_sublist.map _)
  rows _ htask := Table.get_eq_some_iff.mpr ⟨(List.mem_filter.mp htask).1, rfl⟩

theorem Listed.filter {db : Db} {tasks : List Task} (h : Listed db tasks) (p : Task → Bool) :
    Listed db (tasks.filter p) where
  nodup := h.nodup.sublist (List.filter_sublist.map _)
  rows task htask := h.rows task (List.mem_filter.mp htask).1

theorem Listed.tail {db : Db} {task : Task} {tasks : List Task} (h : Listed db (task :: tasks)) :
    Listed db tasks where
  nodup := (List.nodup_cons.mp h.nodup).2
  rows task' htask' := h.rows task' (List.mem_cons_of_mem _ htask')

/-- An update of the first leaves the others as they are listed. -/
theorem Listed.updateTask {db : Db} {task : Task} {tasks : List Task} {u : TaskUpdate}
    {seen : Option Task} (h : Listed db (task :: tasks)) :
    Listed (Op.exec (.updateTask task.id u none seen) db) tasks where
  nodup := h.tail.nodup
  rows task' htask' := by
    have hne : task'.id ≠ task.id := by
      intro heq
      have hmem : task'.id ∈ tasks.map (·.id) := List.mem_map_of_mem htask'
      rw [heq] at hmem
      exact (List.nodup_cons.mp h.nodup).1 hmem
    rw [Op.get_updateTask_of_ne hne]
    exact h.tail.rows task' htask'

theorem keepsMarkers_releaseTasks (d : Draws) {tasks : List Task} {db : Db}
    (hlisted : Listed db tasks)
    (hstatus : ∀ task ∈ tasks, task.status ≠ .done ∧ task.status ≠ .blocked) :
    Sql.Keeps KeepsMarkers (releaseTasks d tasks) db := by
  induction tasks generalizing db with
  | nil => exact refl_of KeepsMarkers db
  | cons task tasks ih =>
    obtain ⟨hdone, hblocked⟩ := hstatus task List.mem_cons_self
    have hupdate : KeepsMarkers db
        (Op.exec (.updateTask task.id (.reopenForRerun (d.sub tasks.length).clock) none (some task))
          db) :=
      keepsMarkers_updateTask (hlisted.rows task List.mem_cons_self) fun h =>
        markersCurrent_apply_of_active (fun _ => ⟨rfl, rfl⟩) h hdone hblocked
    refine Coro.Keeps.bind hupdate fun reopened db' hrun => ?_
    rw [OrchController.run_reopenForRerun] at hrun
    cases hrun
    refine Sql.keeps_bind_plain (TaskService.every_recordUpdated plainOps_isPlain _) fun _ => ?_
    exact ih hlisted.updateTask fun task' htask' => hstatus task' (List.mem_cons_of_mem _ htask')

theorem keepsMarkers_releaseAgents (d : Draws) (agents : List (String × String)) (db : Db) :
    Sql.Keeps KeepsMarkers (releaseAgents d agents) db := by
  induction agents generalizing db with
  | nil => exact refl_of KeepsMarkers db
  | cons agent agents ih =>
    refine Sql.keeps_select ?_
    have hrest : Sql.Keeps KeepsMarkers (do
        let activeTasks ← TaskRepo.listActiveByAgent (some agent.2) agent.1
        releaseTasks ((d.sub agents.length).sub 0) activeTasks
        let orphaned ← TaskRepo.listAssignedUnclaimedByAgent agent.2 agent.1
        releaseTasks ((d.sub agents.length).sub 1) orphaned
        releaseAgents d agents) db := by
      refine Sql.keeps_select (Coro.Keeps.bind ?_ fun _ db₁ _ => ?_)
      · refine keepsMarkers_releaseTasks _ (listed_filter db _) fun task htask => ?_
        simp only [List.mem_filter, Bool.and_eq_true, Bool.or_eq_true, beq_iff_eq] at htask
        rcases htask.2.2 with h | h <;> simp [h]
      · refine Sql.keeps_select (Coro.Keeps.bind ?_ fun _ db₂ _ => ih db₂)
        refine keepsMarkers_releaseTasks _ (listed_filter db₁ _) fun task htask => ?_
        simp only [List.mem_filter, Bool.and_eq_true, beq_iff_eq] at htask
        simp [htask.2.1.2]
    exact Coro.Keeps.ite
      (fun _ => Sql.keeps_bind_plain (Sql.every_record plainOps_isPlain) fun _ => hrest) fun _ => hrest

theorem keepsMarkers_release (heartbeatTimeout : Nat) (d : Draws) (db : Db) :
    Sql.Keeps KeepsMarkers (PresenceController.reconcile heartbeatTimeout d) db := by
  refine Sql.keeps_select (Coro.Keeps.ite (fun _ => refl_of KeepsMarkers db) fun _ => ?_)
  refine Coro.Keeps.bind (keepsMarkers_of_every ?_ db) fun _ db' _ =>
    keepsMarkers_releaseAgents d _ db'
  refine .bind ((Coro.every_perform _ _).mpr (.of_tasks fun _ => rfl)) fun _ => ?_
  exact .bind (Sql.every_commit plainOps_markerSafe) fun _ => by trivial

end Release

section Dispatch

open TaskDispatchController

theorem keepsMarkers_dispatchTasks (gateways : List AgentPresence) (d : Draws) {tasks : List Task}
    {db : Db} (hlisted : Listed db tasks) (hopen : ∀ task ∈ tasks, task.status = .open_)
    (capacity : List (String × Int)) :
    Sql.Keeps KeepsMarkers (dispatchTasks gateways d tasks capacity) db := by
  induction tasks generalizing db capacity with
  | nil => exact refl_of KeepsMarkers db
  | cons task tasks ih =>
    have hrest := fun task' htask' => hopen task' (List.mem_cons_of_mem task htask')
    have hskip := fun capacity => ih hlisted.tail hrest capacity
    refine Coro.Keeps.ite (fun _ => refl_of KeepsMarkers db) fun _ => ?_
    refine Sql.keeps_bind_plain (TaskService.every_depsDone plainOps_isPlain _) fun ready => ?_
    refine Coro.Keeps.ite (fun _ => hskip _) fun _ => ?_
    have hasked := run_tryDispatch_state task capacity ((d.sub tasks.length).sub 0) gateways db
    refine Coro.Keeps.bind (by rw [Coro.Keeps, hasked]; exact refl_of KeepsMarkers db)
      fun chosen db' hrun => ?_
    rw [hrun] at hasked
    obtain rfl : db' = db := hasked
    cases chosen with
    | none => exact hskip _
    | some agentId =>
      have htask := hlisted.rows task List.mem_cons_self
      have hstatus := hopen task List.mem_cons_self
      refine Coro.Keeps.bind (TaskRepo.keeps_update (keepsMarkers_updateTask htask fun h => ?_))
        fun updated db₁ hrun₁ => ?_
      · refine markersCurrent_apply_of_active (fun _ => ⟨rfl, rfl⟩) h ?_ ?_ <;> simp [hstatus]
      · rw [TaskRepo.run_update (by rfl)] at hrun₁
        cases hrun₁
        refine Sql.keeps_bind_plain (TaskService.every_recordUpdated plainOps_isPlain _) fun _ => ?_
        exact ih hlisted.updateTask hrest _

theorem keepsMarkers_dispatchForCookbook (cookbookId : String) (gateways : List AgentPresence)
    (d : Draws) (db : Db) :
    Sql.Keeps KeepsMarkers (dispatchForCookbook cookbookId gateways d) db := by
  refine Sql.keeps_select (Coro.Keeps.ite (fun _ => refl_of KeepsMarkers db) fun _ => ?_)
  refine Sql.keeps_bind_plain (every_capacityOf plainOps_isPlain _ _) fun capacity => ?_
  refine Coro.Keeps.ite (fun _ => refl_of KeepsMarkers db) fun _ => ?_
  refine keepsMarkers_dispatchTasks gateways d ((listed_filter db _).filter _)
    (fun task htask => ?_) capacity
  simp only [List.mem_filter, Bool.and_eq_true, beq_iff_eq] at htask
  exact htask.1.2.1.2

theorem keepsMarkers_dispatch (d : Draws) (db : Db) :
    Sql.Keeps KeepsMarkers (TaskDispatchController.reconcile d) db := by
  have hcookbooks : ∀ cookbookIds db,
      Sql.Keeps KeepsMarkers (dispatchCookbooks d cookbookIds) db := by
    intro cookbookIds
    induction cookbookIds with
    | nil => exact refl_of KeepsMarkers
    | cons cookbookId cookbookIds ih =>
      intro db
      refine Sql.keeps_select (Coro.Keeps.ite (fun _ => ih db) fun _ => ?_)
      exact Coro.Keeps.bind (keepsMarkers_dispatchForCookbook _ _ _ db) fun _ db' _ => ih db'
  refine Sql.keeps_select (Coro.Keeps.ite (fun _ => ?_) fun _ => hcookbooks _ db)
  exact Sql.keeps_select (refl_of KeepsMarkers db)

end Dispatch

/-! ### The supervisor -/

section Settle

open OrchController

theorem settle_current (cfg : OrchConfig) (now : Nat) (runtime : Option AgentRuntime) {task : Task}
    (hmanaged : task.isManaged = true) (h : task.MarkersCurrent) :
    let (status, marks) := settle cfg now runtime task
    ((marks.acceptedAt.isSome || marks.awaitingBrain) = true → status = .done) ∧
      (marks.halted = true → status = .blocked) := by
  by_cases hsettled : task.marks.isSettled = true
  · rw [settle_of_isSettled hsettled]
    rw [Task.MarkersCurrent, Task.isRetired, Task.isHalted, hmanaged, Bool.true_and,
      Bool.true_and] at h
    exact h
  · rw [Bool.not_eq_true] at hsettled
    have hfree := hsettled
    simp only [OrchMarks.isSettled, Bool.or_eq_false_iff] at hfree
    obtain ⟨⟨haccepted, hhalted⟩, hawaiting⟩ := hfree
    simp only [settle, hmanaged, hsettled]
    split_ifs <;> simp [haccepted, hhalted, hawaiting]

/-- What a reconcile makes of a task is current. -/
theorem markersCurrent_of_settle {cfg : OrchConfig} {now : Nat} {runtime : Option AgentRuntime}
    {task task' : Task} (hsettle : (task'.status, task'.marks) = settle cfg now runtime task)
    (hbrief : task'.brief = task.brief) (h : task.MarkersCurrent) : task'.MarkersCurrent := by
  have hmanaged : task'.isManaged = task.isManaged := by rw [Task.isManaged, hbrief, Task.isManaged]
  cases hcase : task.isManaged with
  | false =>
    rw [hcase] at hmanaged
    refine ⟨fun hretired => ?_, fun hhalted => ?_⟩
    · simp [Task.isRetired, hmanaged] at hretired
    · simp [Task.isHalted, hmanaged] at hhalted
  | true =>
    have hcurrent := settle_current cfg now runtime hcase h
    rw [← hsettle] at hcurrent
    refine ⟨fun hretired => hcurrent.1 ?_, fun hhalted => hcurrent.2 ?_⟩
    · exact (Bool.and_eq_true _ _ ▸ hretired).2
    · exact (Bool.and_eq_true _ _ ▸ hhalted).2

theorem keepsMarkers_reconcileTaskId (cfg : OrchConfig) (taskId : String) (d : Draws) (db : Db) :
    Sql.Keeps KeepsMarkers (reconcileTaskId cfg taskId d) db := by
  cases htask : db.tasks.get taskId with
  | none =>
    rw [Sql.Keeps, Coro.Keeps, run_reconcileTaskId_of_none htask]
    exact refl_of KeepsMarkers db
  | some task =>
    obtain rfl : task.id = taskId := Table.key_eq_of_get htask
    obtain ⟨db', hrun, hreconciled⟩ := run_reconcileTaskId htask d cfg
    rw [Sql.Keeps, Coro.Keeps, hrun]
    intro hcurrent t ht
    have hget : db'.tasks.get t.id = some t := Table.get_eq_some_iff.mpr ⟨ht, rfl⟩
    by_cases hid : t.id = task.id
    · obtain ⟨task', hrow, hsettle, hbrief, _⟩ := hreconciled.row
      rw [hid, hrow] at hget
      obtain rfl := Option.some.inj hget
      exact markersCurrent_of_settle hsettle hbrief (hcurrent.of_get htask)
    · rw [hreconciled.others t.id hid] at hget
      exact hcurrent.of_get hget

theorem keepsMarkers_reconcile (cfg : OrchConfig) (d : Draws) (db : Db) :
    Sql.Keeps KeepsMarkers (OrchController.reconcile cfg d) db := by
  have htasks : ∀ taskIds db, Sql.Keeps KeepsMarkers (reconcileTasks cfg d taskIds) db := by
    intro taskIds
    induction taskIds with
    | nil => exact refl_of KeepsMarkers
    | cons taskId taskIds ih =>
      intro db
      exact Coro.Keeps.bind (keepsMarkers_reconcileTaskId cfg taskId _ db) fun _ db' _ => ih db'
  exact Sql.keeps_select (htasks _ db)

/-- A deserted task has no marker that would keep the controller from it, and is settled. -/
theorem settle_of_deserted {cfg : OrchConfig} {db : Db} {task : Task} {d : Draws}
    (hdeserted : Deserted cfg db task d) (hcurrent : MarkersCurrent db) (path : List Nat) :
    settle cfg (d.now path) (runtimeOf db task) task =
      if cfg.maxRespawns ≤ task.marks.respawns then (.blocked, { task.marks with halted := true })
      else (.open_, { task.marks with
        respawns := task.marks.respawns + 1, lastRespawnAt := some (d.now path) }) := by
  have hrow := hcurrent.of_get hdeserted.row
  have hretired : task.isRetired = false := by
    by_contra h
    exact not_done_of_running hdeserted.running (hrow.1 (Bool.not_eq_false _ ▸ h))
  have hhalted : task.isHalted = false := by
    by_contra h
    exact not_blocked_of_running hdeserted.running (hrow.2 (Bool.not_eq_false _ ▸ h))
  simp only [Task.isRetired, Task.isHalted, hdeserted.managed, Bool.true_and,
    Bool.or_eq_false_iff] at hretired hhalted
  have hsettled : task.marks.isSettled = false := by
    simp [OrchMarks.isSettled, hretired, hhalted]
  exact settle_of_livenessLost
    ⟨hdeserted.managed, hsettled, hdeserted.running, hdeserted.assigned, hdeserted.dead path⟩

/-- Where the markers are current the controller supervises every task. -/
theorem supervised_of_markersCurrent {cfg : OrchConfig} {db : Db} (hcurrent : MarkersCurrent db) :
    Supervised cfg db := by
  intro task d hdeserted
  have hcancelled : task.status ≠ .cancelled := by
    rcases hdeserted.running with h | h <;> rw [h] <;> decide
  obtain ⟨db', hrun, _, _, hsettled⟩ := run_reconcileTasks cfg d (nodup_managedTasks db) db
  obtain ⟨path, task', hrow, hsettle, _⟩ :=
    hsettled task (mem_managedTasks hdeserted.row hdeserted.managed hcancelled) hdeserted.row
  rw [settle_of_deserted hdeserted hcurrent] at hsettle
  refine ⟨task', ?_, ?_⟩
  · rw [OrchController.reconcile, Coro.run_bind_ok Op.exec (Sql.run_select _ db), hrun]
    exact hrow
  · split at hsettle
    · right
      obtain ⟨hstatus, hmarks⟩ := Prod.mk.inj hsettle
      rw [hstatus, hmarks]
      exact ⟨rfl, rfl⟩
    · left
      obtain ⟨hstatus, hmarks⟩ := Prod.mk.inj hsettle
      rw [hstatus, hmarks]
      exact ⟨rfl, rfl⟩

end Settle

/-! ### The requests -/

theorem keepsMarkers_completion (taskId : String) (req : CompletionRequest) (caller : CallerContext)
    (db : Db) : Sql.Keeps KeepsMarkers (postTaskCompletion taskId req caller) db := by
  refine keeps_taskOr404 fun task htask => keeps_authorize fun _ => ?_
  have hupdate : KeepsMarkers db (Op.exec (.updateTask taskId
      (.completion req.sessionId req.workDir req.artifacts req.report) none none) db) :=
    keepsMarkers_updateTask htask fun h => markersCurrent_apply (fun _ => ⟨rfl, rfl⟩) h.1 h.2
  refine Coro.Keeps.bind hupdate fun _ db' _ => keepsMarkers_of_every ?_ db'
  refine .bind (Sql.every_commit plainOps_markerSafe) fun _ => ?_
  refine .bind (TaskRepo.every_get plainOps_markerSafe _) fun updated => ?_
  cases updated <;> trivial

theorem keepsMarkers_claim (taskId agentId : String) (caller : CallerContext) (d : Draws) (db : Db) :
    Sql.Keeps KeepsMarkers (claimTask taskId agentId caller d) db := by
  refine keeps_taskOr404 fun task htask => keeps_authorize fun _ => ?_
  refine Sql.keeps_bind_plain (every_bundleOr404 plainOps_isPlain _) fun bundle => ?_
  have hclaim : Sql.Keeps KeepsMarkers
      (TaskService.claimTask taskId agentId bundle.cookbookId (d.sub 0)) db := by
    refine TaskRepo.keeps_get ?_
    rw [htask]
    refine Coro.Keeps.ite (fun _ => refl_of KeepsMarkers db) fun hopen => ?_
    rw [ne_eq, not_not] at hopen
    refine Sql.keeps_select (Coro.Keeps.ite (fun _ => refl_of KeepsMarkers db) fun _ => ?_)
    refine Sql.keeps_bind_plain (TaskService.every_depsDone plainOps_isPlain _) fun ready => ?_
    refine Coro.Keeps.ite (fun _ => refl_of KeepsMarkers db) fun _ => ?_
    refine Sql.keeps_bind_plain (TaskService.every_cookbookIdForBundle plainOps_isPlain _)
      fun _ => ?_
    refine Coro.Keeps.bind (TaskRepo.keeps_update (keepsMarkers_updateTask htask fun h => ?_))
      fun updated db' _ => keepsMarkers_of_every ?_ db'
    · refine markersCurrent_apply_of_active (fun _ => ⟨rfl, rfl⟩) h ?_ ?_ <;> simp [hopen]
    · refine .bind (EventRepo.every_create plainOps_markerSafe (markerSafe_insertEvent _))
        fun _ => ?_
      exact .bind (TaskService.every_recordUpdated plainOps_markerSafe _) fun _ => by trivial
  refine Coro.Keeps.bind hclaim fun claimed db' _ => ?_
  cases claimed with
  | none => exact refl_of KeepsMarkers db'
  | some updated =>
    refine Coro.Keeps.ite (fun _ => ?_) fun _ => refl_of KeepsMarkers db'
    cases bundle.sandboxId <;> exact refl_of KeepsMarkers db'

theorem keepsMarkers_status {taskId value : String} {reason : Option String}
    {caller : CallerContext} {d : Draws} {db : Db}
    (h : ¬ OrchCall.Redirects db (.status taskId value reason caller d)) :
    Sql.Keeps KeepsMarkers (updateTaskStatus taskId value reason caller d) db := by
  refine keeps_taskOr404 fun task htask => keeps_authorize fun hmay => ?_
  cases hvalue : TaskStatus.ofText value with
  | none => exact refl_of KeepsMarkers db
  | some status =>
    have htext := TaskStatus.text_of_ofText hvalue
    have htail := fun updated => keepsMarkers_of_every (every_taskFound updated)
    have hwrite : ∀ (patch : TaskPatch) (d : Draws), (∀ now, task.MarkersCurrent →
          ((TaskUpdate.patch patch now).apply task).MarkersCurrent) →
        Sql.Keeps KeepsMarkers (do
          let updated ← TaskRepo.update taskId patch none (some task) d
          TaskService.publishUpdated updated
          return updated : Sql (Option Task)) db := by
      intro patch d hpatch
      refine Coro.Keeps.bind (TaskRepo.keeps_update (keepsMarkers_updateTask htask (hpatch _)))
        fun updated db' _ => keepsMarkers_of_every ?_ db'
      exact .bind (TaskService.every_publishUpdated plainOps_markerSafe updated) fun _ => by trivial
    refine Coro.Keeps.ite (fun hdone => ?_) fun _ => Coro.Keeps.ite (fun hblocked => ?_) fun _ => ?_
    · refine Coro.Keeps.bind (TaskRepo.keeps_get ?_) fun _ db' _ => htail _ db'
      rw [htask]
      refine hwrite _ _ fun _ _ => markersCurrent_apply (fun _ => ⟨rfl, rfl⟩) (fun _ => rfl) ?_
      intro hhalted
      rw [hdone] at htext
      exact absurd ⟨task, htask, hmay, .inl ⟨htext.symm, hhalted⟩⟩ h
    · refine Coro.Keeps.bind (TaskRepo.keeps_get ?_) fun _ db' _ => htail _ db'
      rw [htask]
      refine hwrite _ _ fun _ _ => markersCurrent_apply (fun _ => ⟨rfl, rfl⟩) ?_ fun _ => rfl
      intro hretired
      rw [hblocked] at htext
      exact absurd ⟨task, htask, hmay, .inr ⟨htext.symm, hretired⟩⟩ h
    · exact refl_of KeepsMarkers db

theorem keepsMarkers_followup {taskId prompt : String} {caller : CallerContext} {d : Draws} {db : Db}
    (h : ¬ OrchCall.Redirects db (.followup taskId prompt caller d)) :
    Sql.Keeps KeepsMarkers (appendTaskFollowup taskId prompt caller d) db := by
  refine Coro.Keeps.ite (fun _ => refl_of KeepsMarkers db) fun hprompt => TaskRepo.keeps_get ?_
  cases htask : db.tasks.get taskId with
  | none => exact refl_of KeepsMarkers db
  | some task =>
    refine keeps_authorize fun hmay => Sql.keeps_select ?_
    cases hbundle : db.bundles.get task.bundleId with
    | none => exact refl_of KeepsMarkers db
    | some bundle =>
      refine Sql.keeps_bind_plain (EventRepo.every_nextSequence plainOps_isPlain _) fun _ => ?_
      have hinsert : ∀ event ok,
          Sql.Keeps SameRows (Sql.checked (.insertEvent event) ok "events") db :=
        fun event ok => (Sql.every_checked (rowSafe_insertEvent event none) ok _).keeps
          (fun _ hop => hop) db
      refine Coro.Keeps.bind ((hinsert _ _).mono fun _ _ => keepsMarkers_of_sameRows)
        fun _ db' hrun => ?_
      · have hrows := Coro.Keeps.of_run hrun (hinsert _ _)
        have htask' : db'.tasks.get taskId = some task := by rw [hrows.1, htask]
        refine Coro.Keeps.ite (fun hdone => ?_) fun _ => refl_of KeepsMarkers db'
        have hupdate : KeepsMarkers db'
            (Op.exec (.updateTask taskId .followupReopen none (some task)) db') := by
          refine keepsMarkers_updateTask htask' fun hcurrent =>
            markersCurrent_apply (fun _ => ⟨rfl, rfl⟩) (fun hretired => ?_) fun hhalted => ?_
          · exact absurd ⟨hprompt, task, htask, hmay, by rw [hbundle]; rfl, hdone, hretired⟩ h
          · have hblocked := hcurrent.2 hhalted
            rw [hdone] at hblocked
            cases hblocked
        exact Coro.Keeps.bind hupdate fun _ db'' _ => refl_of KeepsMarkers db''

theorem keepsMarkers_hitlAnswer {taskId answer : String} {caller : CallerContext} {d : Draws}
    {db : Db} (h : ¬ OrchCall.Redirects db (.hitlAnswer taskId answer caller d)) :
    Sql.Keeps KeepsMarkers (postTaskHitlAnswer taskId answer caller d) db := by
  refine Coro.Keeps.ite (fun _ => refl_of KeepsMarkers db) fun hanswer => ?_
  refine keeps_taskOr404 fun task htask => keeps_authorize fun hmay => ?_
  refine Coro.Keeps.ite (fun _ => refl_of KeepsMarkers db) fun hblocked => ?_
  rw [ne_eq, not_not] at hblocked
  refine Sql.keeps_bind_plain (TaskService.every_cookbookIdForBundle plainOps_isPlain _)
    fun _ => ?_
  have htail : ∀ (description : String) (record : Bool) (d : Draws) (db : Db),
      db.tasks.get taskId = some task → Sql.Keeps KeepsMarkers (do
        let updated ← TaskRepo.update taskId
          { status := some .open_, description := some description, clearClaim := true,
            clearBlockedReason := true } none (some task) d
        if updated.isSome && record then Sql.record
        return updated : Sql (Option Task)) db := by
    intro description record d db htask'
    refine Coro.Keeps.bind (TaskRepo.keeps_update (keepsMarkers_updateTask htask' fun hcurrent =>
      markersCurrent_apply (fun _ => ⟨rfl, rfl⟩) (fun hretired => ?_) fun hhalted => ?_))
      fun _ db' _ => ?_
    · have hdone := hcurrent.1 hretired
      rw [hblocked] at hdone
      cases hdone
    · exact absurd ⟨hanswer, task, htask, hmay, hblocked, hhalted⟩ h
    · exact Coro.Keeps.ite (fun _ => refl_of KeepsMarkers db') fun _ => refl_of KeepsMarkers db'
  refine Coro.Keeps.ite (fun _ => ?_) fun _ => htail _ _ _ db htask
  have hpost : ∀ spec d, Sql.Keeps SameRows
      (TaskService.postEvent taskId spec none d) db :=
    fun spec d =>
    TaskService.sameRows_postEvent d (by simp [Db.statusOf, htask, hblocked]) spec
  refine Coro.Keeps.bind ((hpost _ _).mono fun _ _ => keepsMarkers_of_sameRows) fun _ db' hrun => ?_
  have hrows := Coro.Keeps.of_run hrun (hpost _ _)
  exact htail _ _ _ db' (by rw [hrows.1, htask])

/-! ### Runs -/

/-- A call that redirects no task keeps the markers current. -/
theorem keepsMarkers_apply {cfg : OrchConfig} {db : Db} {call : OrchCall}
    (h : ¬ call.Redirects db) : KeepsMarkers db (call.apply cfg db) := by
  cases call with
  | reconcile d => exact keepsMarkers_reconcile cfg d db
  | taskChanged taskId d => exact keepsMarkers_reconcileTaskId cfg taskId d db
  | release heartbeatTimeout d => exact keepsMarkers_release heartbeatTimeout d db
  | dispatch d => exact keepsMarkers_dispatch d db
  | claim taskId agentId caller d =>
    rw [OrchCall.apply, OrchCall.handle, run_discard]
    exact keepsMarkers_claim taskId agentId caller d db
  | followup taskId prompt caller d =>
    rw [OrchCall.apply, OrchCall.handle, run_discard]
    exact keepsMarkers_followup h
  | hitlAnswer taskId answer caller d =>
    rw [OrchCall.apply, OrchCall.handle, run_discard]
    exact keepsMarkers_hitlAnswer h
  | status taskId value reason caller d =>
    rw [OrchCall.apply, OrchCall.handle, run_discard]
    exact keepsMarkers_status h
  | completion taskId req caller =>
    rw [OrchCall.apply, OrchCall.handle, run_discard]
    exact keepsMarkers_completion taskId req caller db

/-- In every run none of whose calls redirects a task, the markers of every state are current, and
from every state the next reconcile respawns or parks what is deserted. -/
theorem markersCurrent_of_no_redirects {cfg : OrchConfig} {db : Db} {calls : List OrchCall}
    (hstart : MarkersCurrent db)
    (hcalls : Serial.Each (OrchCall.apply cfg) (fun db call => ¬ call.Redirects db) db calls) :
    ∀ reached, reached <+: calls →
      MarkersCurrent (Serial.after (OrchCall.apply cfg) db reached) ∧
        Supervised cfg (Serial.after (OrchCall.apply cfg) db reached) := by
  intro reached hreached
  have hstep : ∀ db call, ¬ OrchCall.Redirects db call → MarkersCurrent db →
      MarkersCurrent (OrchCall.apply cfg call db) := fun _ _ h => keepsMarkers_apply h
  have hcurrent := hcalls.always hstep hstart hreached
  exact ⟨hcurrent, supervised_of_markersCurrent hcurrent⟩

/-! ### A followup on an accepted task -/

/-- A managed task that is done with a valid report, its bundle, and a gateway; the runtime the task
was assigned to is gone. -/
def reportedDb : Db where
  bundles := (∅ : Table Bundle).insert
    { id := "bun_1", cookbookId := some "cb_1", ownerAccountId := some "acc_1" }
  tasks := (∅ : Table Task).insert
    { id := "task_1", bundleId := "bun_1", status := .done, brief := some {},
      report := some { status := some "success" }, assignedRuntimeId := some "rt_1" }
  agents :=
    [{ agentId := "agent_1", cookbookId := "cb_1", endpointUrl := some "http://gateway"
       status := .online }]

/-- The owner asks for more on the task. -/
def askForMore : OrchCall :=
  .followup "task_1" "one more thing" { accountId := "acc_1", authMethod := "bearer_jwt" }
    (pathDraws 'f')

/-- The task is accepted, reopened and claimed again. -/
def acceptedThenReopened : List OrchCall :=
  [.reconcile (pathDraws 'a'), askForMore, .dispatch (pathDraws 'b')]

theorem markersCurrent_of_no_redirects_accepted :
    MarkersCurrent (Serial.after (OrchCall.apply {}) reportedDb [.reconcile (pathDraws 'a')]) ∧
      Supervised {} (Serial.after (OrchCall.apply {}) reportedDb [.reconcile (pathDraws 'a')]) :=
  markersCurrent_of_no_redirects (by decide +kernel)
    (show Serial.Each _ _ _ [.reconcile (pathDraws 'a'), .dispatch (pathDraws 'b')] from
      ⟨fun h => h, fun h => h, trivial⟩) _ ⟨_, rfl⟩

/-- The accepted task is open after the followup, and when it has been claimed again by a dead runtime
the next reconcile passes it over. -/
theorem followup_outlives_marker :
    MarkersCurrent reportedDb ∧
      ¬ MarkersCurrent
        (Serial.after (OrchCall.apply {}) reportedDb [.reconcile (pathDraws 'a'), askForMore]) ∧
      ¬ Supervised {} (Serial.after (OrchCall.apply {}) reportedDb acceptedThenReopened) := by
  refine ⟨by decide +kernel, by decide +kernel, fun hsupervised => ?_⟩
  let db := Serial.after (OrchCall.apply {}) reportedDb acceptedThenReopened
  obtain ⟨task, htask⟩ : ∃ task, db.tasks.get "task_1" = some task :=
    Option.isSome_iff_exists.mp (by decide +kernel)
  have hid : task.id = "task_1" := Table.key_eq_of_get htask
  have hrow : (db.tasks.get "task_1").all (fun t => t.isManaged && t.status == .claimed &&
      t.assignedRuntimeId.isSome) = true := by
    decide +kernel
  simp only [htask, Option.all_some, Bool.and_eq_true, beq_iff_eq] at hrow
  have hgone : db.runtimes.rows = [] := by decide +kernel
  have hdead : ∀ now, OrchController.isAlive {} now (OrchController.runtimeOf db task) = false := by
    intro now
    cases hassigned : task.assignedRuntimeId <;>
      simp [OrchController.runtimeOf, OrchController.isAlive, hassigned, Table.get, hgone]
  obtain ⟨task', hnext, hsettled⟩ := hsupervised task (pathDraws 'c')
    ⟨by rw [hid, htask], hrow.1.1, .inl hrow.1.2, hrow.2, fun path => hdead _⟩
  have hclaimed : ((OrchController.reconcile {} (pathDraws 'c')).run Op.exec db).2.statusOf "task_1" =
      some .claimed := by
    decide +kernel
  rw [Db.statusOf, ← hid, hnext, Option.map_some, Option.some.injEq] at hclaimed
  rw [hclaimed] at hsettled
  rcases hsettled with ⟨hopen, _⟩ | ⟨hblocked, _⟩
  · cases hopen
  · cases hblocked

end Krewhub
