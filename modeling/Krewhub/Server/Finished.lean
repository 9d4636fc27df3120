import Krewhub.Server

/-!
# Finished tasks

A task is finished when it is done, or cancelled outside of a graph. No statement on the tasks asks for the
status it replaces, so a finished task is opened, claimed or parked again whenever a coroutine writes a status
it has decided on before the task was finished. Two writers do not look at all: the status endpoint, and the
cycles of a graph run, which only look for the status they wait for.

Everything else that writes a status has read that the task is neither done nor cancelled, or in a followup
that it is done.
-/

namespace Krewhub

/-- Done, or cancelled without the node of a graph that may run it again. -/
def Task.IsFinished (t : Task) : Prop := t.status = .done ∨ t.status = .cancelled ∧ t.graphNodeId = none

instance : DecidablePred Task.IsFinished := fun t =>
  inferInstanceAs (Decidable (t.status = .done ∨ t.status = .cancelled ∧ t.graphNodeId = none))

/-- The statement is that of a followup on the task. -/
def Op.IsFollowup (taskId : String) : Op → Prop
  | .updateTask id .followupReopen _ _ => id = taskId
  | _ => False

instance (taskId : String) : DecidablePred (Op.IsFollowup taskId) := by
  intro op
  unfold Op.IsFollowup
  split <;> infer_instance

/-- A finished task keeps its status, unless it is done and there is a followup on it. -/
def KeepsFinished (s : RunState) (_ : Nat) : RunOp → Prop
  | .sql op => ∀ t ∈ s.db.tasks.rows, t.IsFinished → ∀ t' ∈ (op.exec s.db).tasks.get t.id,
      t'.status = t.status ∨ t.status = .done ∧ op.IsFollowup t.id
  | _ => True

instance KeepsFinished.decidable (s : RunState) (i : Nat) : DecidablePred (KeepsFinished s i) := by
  rintro (_ | _) <;> unfold KeepsFinished <;> dsimp only <;> infer_instance

/-- What `mark_done` and `mark_blocked` write. -/
inductive TaskUpdate.IsReport : TaskUpdate → Prop where
  | done (at_ now : Nat) : IsReport (.patch
      { status := some .done, completedAt := some at_, clearBlockedReason := true } now)
  | blocked (reason : String) (now : Nat) :
      IsReport (.patch { status := some .blocked, blockedReason := some reason } now)

def ServerCall.isCycle : ServerCall → Bool
  | .cycle .. => true
  | _ => false

/-- A status is written to a task that is not finished, or has this status already, or was finished when it
was read; the last not by the writers that do not look. -/
def MeetsUnfinished (calls : Nat → ServerCall) (s : RunState) (i : Nat) : RunOp → Prop
  | .sql (.updateTask id u _ seen) => ∀ status ∈ u.status?, ∀ t ∈ s.db.tasks.get id, t.IsFinished →
      t.status = status ∨ (calls i).isCycle = false ∧ ¬ u.IsReport ∧ ∃ read ∈ seen, read.status = t.status
  | _ => True

/-- The statement asks for no version of the row. -/
def Op.IsUnversioned : Op → Prop
  | .updateTask _ _ expected _ => expected = none
  | _ => True

/-! ### What the writers have read -/

/-- The statuses of a task that may still go on. -/
def Task.IsUnfinished (t : Task) : Prop := t.status ∉ [TaskStatus.done, .cancelled]

/-- The update writes no status, or is a report, or was decided on from a row that is not finished; a
followup on one that is done. -/
def TaskUpdate.ChecksStatus (u : TaskUpdate) (seen : Option Task) : Prop :=
  (u = .followupReopen ∧ ∃ read ∈ seen, read.status = .done) ∨
    u ≠ .followupReopen ∧ (u.status? = none ∨ u.IsReport ∨ ∃ read ∈ seen, read.IsUnfinished)

/-- No statement asks for a version of the row, and every one that writes a status checks it. -/
def ChecksStatus : Op → Prop
  | .updateTask _ u expected seen => expected = none ∧ u.ChecksStatus seen
  | _ => True

namespace ChecksStatus

theorem of_free {id : String} {u : TaskUpdate} {seen : Option Task} (h : u.status? = none) :
    ChecksStatus (.updateTask id u none seen) := by
  refine ⟨rfl, .inr ⟨fun heq => ?_, .inl h⟩⟩
  rw [heq] at h
  cases h

theorem report {id : String} {u : TaskUpdate} {seen : Option Task} (h : u.IsReport) :
    ChecksStatus (.updateTask id u none seen) :=
  ⟨rfl, .inr ⟨fun heq => (by cases heq ▸ h), .inr (.inl h)⟩⟩

theorem patch {id : String} {p : TaskPatch} {now : Nat} {seen : Task} (hseen : seen.IsUnfinished) :
    ChecksStatus (.updateTask id (.patch p now) none (some seen)) :=
  ⟨rfl, .inr ⟨(nofun), .inr (.inr ⟨seen, rfl, hseen⟩)⟩⟩

theorem reopen {id : String} {now : Nat} {seen : Task} (hseen : seen.IsUnfinished) :
    ChecksStatus (.updateTask id (.reopenForRerun now) none (some seen)) :=
  ⟨rfl, .inr ⟨(nofun), .inr (.inr ⟨seen, rfl, hseen⟩)⟩⟩

theorem unfinished_of_mem {t : Task} {statuses : List TaskStatus} (h : t.status ∈ statuses)
    (hstatuses : ∀ status ∈ statuses, status ∉ [TaskStatus.done, .cancelled]) : t.IsUnfinished :=
  hstatuses _ h

theorem unfinished_of_eq {t : Task} {status : TaskStatus} (h : t.status = status)
    (hstatus : status ∉ [TaskStatus.done, .cancelled]) : t.IsUnfinished := by
  rwa [Task.IsUnfinished, h]

theorem plainOps : PlainOps ChecksStatus := ⟨trivial, trivial, trivial⟩

theorem eventOps (taskId : String) : TaskService.EventOps ChecksStatus taskId where
  stamp _ := of_free rfl
  work _ _ h := patch (unfinished_of_eq h (by decide))
  event _ := trivial

theorem requestOps : RequestOps ChecksStatus where
  toPlainOps := plainOps
  revoke _ _ := trivial
  cancel _ _ h _ := patch (unfinished_of_mem h (by decide))
  unblock _ _ _ _ := of_free rfl
  events := eventOps
  park _ _ _ h := patch (fun hmem => h (by simp only [List.mem_cons] at hmem ⊢; tauto))
  finish _ _ _ _ := report (.done _ _)
  block _ _ _ _ := report (.blocked _ _)
  claim _ _ _ _ _ h := patch (unfinished_of_eq h (by decide))
  completion _ _ _ _ _ := of_free rfl
  followup _ seen h := ⟨rfl, .inl ⟨rfl, seen, rfl, h⟩⟩
  answer _ _ _ _ _ h := patch (unfinished_of_eq h (by decide))
  edit _ _ _ _ _ := of_free rfl
  review _ := trivial
  verdict _ _ _ _ _ _ h := patch (unfinished_of_eq h (by decide))

theorem linkOps : LinkReconcileController.LinkOps ChecksStatus where
  toPlainOps := plainOps
  fire _ _ := trivial
  inject link seen block := by
    rw [LinkReconcileController.injection]
    split
    · split <;> exact of_free rfl
    · exact of_free rfl
  report _ _ := trivial
  events := eventOps

theorem dispatchOps : TaskDispatchController.DispatchOps ChecksStatus where
  toPlainOps := plainOps
  post _ _ := trivial
  claim _ _ _ _ h _ _ := patch (unfinished_of_eq h (by decide))

theorem presenceOps : PresenceController.PresenceOps ChecksStatus where
  toPlainOps := plainOps
  offline _ := trivial
  release _ _ h := reopen (unfinished_of_mem h (by decide))

theorem taskCreationOps : TaskCreationOps ChecksStatus where
  toPlainOps := plainOps
  create _ _ _ _ _ _ := trivial
  brief _ _ := of_free rfl
  assign _ _ _ := of_free rfl

theorem linkCreationOps : LinkCreationOps ChecksStatus where
  toPlainOps := plainOps
  create _ _ _ _ _ _ := trivial
  brief _ _ := of_free rfl
  depend _ _ _ := of_free rfl
  link _ _ _ := trivial
  provenance _ _ := of_free rfl

/-! The orchestration controller reopens and parks only what it has found claimed or working. -/

section Orch

variable (cfg : OrchConfig) (task : Task) (orch : OrchMarks) (d : Draws)

theorem every_writeOrch : (OrchController.writeOrch task orch).Every ChecksStatus :=
  .bind ((Coro.every_perform _ _).mpr (of_free rfl)) fun _ => Sql.every_commit plainOps

theorem every_emit (type : EventType) (body payload : String) :
    (OrchController.emit task type body payload d).Every ChecksStatus :=
  TaskService.every_narrate plainOps (eventOps _) _ _ _ _ _

theorem every_handleDone : (OrchController.handleDone task orch d).Every ChecksStatus := by
  have hmark := fun orch type body payload d =>
    (Coro.Every.bind (every_writeOrch task orch) fun _ => every_emit task d type body payload)
  refine .ite (fun _ => .ite (fun _ => .ite (fun _ => trivial) fun _ => ?_) fun _ => ?_)
    fun _ => .ite (fun _ => trivial) fun _ => ?_
  · exact hmark _ _ _ _ _
  · exact hmark _ _ _ _ _
  · exact hmark _ _ _ _ _

theorem every_checkLiveness (hrunning : task.IsUnfinished) :
    (OrchController.checkLiveness cfg task orch d).Every ChecksStatus := by
  unfold OrchController.checkLiveness
  split
  · trivial
  · refine .bind (Sql.every_select plainOps _) fun _ => .ite (fun _ => by trivial) fun _ => ?_
    refine .ite (fun _ => ?_) fun _ => ?_
    · refine .bind (every_writeOrch task _) fun _ => ?_
      refine .bind (TaskRepo.every_update plainOps (patch hrunning)) fun _ => ?_
      exact .bind (TaskService.every_recordUpdated plainOps _) fun _ => every_emit task _ _ _ _
    · refine .bind (every_writeOrch task _) fun _ => ?_
      refine .bind (TaskRepo.every_reopenForRerun plainOps (reopen hrunning)) fun _ => ?_
      exact .bind (TaskService.every_recordUpdated plainOps _) fun _ => every_emit task _ _ _ _

theorem every_reconcileTaskId (taskId : String) :
    (OrchController.reconcileTaskId cfg taskId d).Every ChecksStatus := by
  refine .bind (TaskRepo.every_get plainOps taskId) fun found => ?_
  cases found with
  | none => trivial
  | some task =>
    refine .ite (fun _ => by trivial) fun _ => .ite (fun _ => every_handleDone _ _ _) fun _ => ?_
    refine .ite (fun hrunning => every_checkLiveness _ _ _ _ ?_) fun _ => trivial
    rcases hrunning with h | h
    · exact unfinished_of_eq h (by decide)
    · exact unfinished_of_eq h (by decide)

theorem every_orchReconcile : (OrchController.reconcile cfg d).Every ChecksStatus := by
  have htasks : ∀ taskIds, (OrchController.reconcileTasks cfg d taskIds).Every ChecksStatus := by
    intro taskIds
    induction taskIds with
    | nil => trivial
    | cons taskId taskIds ih => exact .bind (every_reconcileTaskId _ _ _) fun _ => ih
  exact .bind (Sql.every_select plainOps _) fun _ => htasks _

end Orch

end ChecksStatus

/-- A coroutine checks the status before it writes one, unless it is a cycle, which makes no followups. -/
def StatementOf (call : ServerCall) : RunOp → Prop
  | .sql op => if call.isCycle then (∀ id, ¬ op.IsFollowup id) ∧ op.IsUnversioned else ChecksStatus op
  | _ => True

theorem cycleOps_statement {call : ServerCall} (hcall : call.isCycle = true) : CycleOps (StatementOf call) where
  plain op hop := by
    rw [StatementOf, if_pos hcall]
    rcases hop with rfl | rfl | rfl <;> exact ⟨fun _ => id, trivial⟩
  poll _ _ _ := trivial
  post _ _ _ _ _ := trivial
  note _ _ := trivial
  claim _ _ _ _ := by
    rw [StatementOf, if_pos hcall]
    exact ⟨fun _ => id, rfl⟩
  reopen _ _ _ := by
    rw [StatementOf, if_pos hcall]
    exact ⟨fun _ => id, rfl⟩

theorem every_program_statement (n : Nat) (call : ServerCall) : (call.program n).Every (StatementOf call) := by
  have hplain := ChecksStatus.plainOps
  have hevent : ∀ event, ChecksStatus (.insertEvent event) := fun _ => trivial
  have hsql : call.isCycle = false → ∀ c : Sql Unit, c.Every ChecksStatus →
      (Runtime.sql c).Every (StatementOf call) := by
    intro hcall c hc
    refine Runtime.every_sql hc fun op hop => ?_
    rw [StatementOf, hcall]
    exact hop
  cases call <;> rw [ServerCall.program]
  case cycle deps step d => exact .bind (every_dispatchCycle (cycleOps_statement rfl) n deps step d) fun _ => trivial
  all_goals refine hsql rfl _ ?_
  case request => exact TaskRequest.every_handle ChecksStatus.requestOps _ _ _ _
  case remove =>
    exact every_discard (every_removeTask ChecksStatus.requestOps.toCascadeOps (fun _ => trivial) _ _ _ _)
  case callback =>
    refine every_discard (every_taskCallback hplain (fun seen _ _ hseen => ?_) hevent)
    rcases hseen with h | h
    · exact .patch (ChecksStatus.unfinished_of_eq h (by decide))
    · exact .patch (ChecksStatus.unfinished_of_eq h (by decide))
  case hook => exact every_discard (every_ingestHook hplain hevent)
  case progress => exact every_postTaskProgress hplain (.of_free rfl)
  case projection => exact every_projectInvocation hplain hevent
  case addTask => exact every_discard (every_addTaskToBundle ChecksStatus.taskCreationOps _ _ _ _ _)
  case createLink => exact every_discard (every_createLink ChecksStatus.linkCreationOps _ _ _ _)
  case revokeLink =>
    exact every_discard (every_revokeLink hplain (fun _ => trivial) fun _ _ _ => .of_free rfl)
  case links => exact LinkReconcileController.every_reconcile _ ChecksStatus.linkOps
  case orch => exact ChecksStatus.every_orchReconcile _ _
  case taskChanged => exact ChecksStatus.every_reconcileTaskId _ _ _
  case dispatch => exact TaskDispatchController.every_reconcile ChecksStatus.dispatchOps _
  case presence => exact PresenceController.every_reconcile ChecksStatus.presenceOps _ _
  case retention =>
    refine every_discard (.bind ((Coro.every_perform _ _).mpr trivial) fun _ => ?_)
    exact .bind (Sql.every_commit hplain) fun _ => trivial

/-! ### One statement -/

theorem status_apply_of_some {u : TaskUpdate} {status : TaskStatus} (h : u.status? = some status) (t : Task) :
    (u.apply t).status = status := by
  rw [TaskUpdate.apply_status, h, Option.getD_some]

theorem isFollowup_updateTask_iff {id taskId : String} {u : TaskUpdate} {expected : Option Nat}
    {seen : Option Task} : Op.IsFollowup taskId (.updateTask id u expected seen) ↔
      u = .followupReopen ∧ id = taskId := by
  cases u <;> simp [Op.IsFollowup]

/-- A statement that updates no row keeps what is finished. -/
theorem keepsFinished_of_same {s : RunState} {i : Nat} {op : Op}
    (h : ∀ t ∈ s.db.tasks, ∀ t' ∈ (op.exec s.db).tasks.get t.id, t' = t) : KeepsFinished s i (.sql op) :=
  fun t ht _ t' ht' => .inl (by rw [h t ht t' ht'])

theorem get_of_mem {db : Db} {t : Task} (ht : t ∈ db.tasks) : db.tasks.get t.id = some t :=
  Table.get_eq_some_iff.mpr ⟨ht, rfl⟩

theorem keepsFinished_of_tasks {s : RunState} {i : Nat} {op : Op} (h : (op.exec s.db).tasks = s.db.tasks) :
    KeepsFinished s i (.sql op) := by
  refine keepsFinished_of_same fun t ht t' ht' => ?_
  rw [h, get_of_mem ht, Option.mem_some_iff] at ht'
  exact ht'.symm

theorem keepsFinished_updateTask_iff {s : RunState} {i : Nat} {id : String} {u : TaskUpdate} {seen : Option Task} :
    KeepsFinished s i (.sql (.updateTask id u none seen)) ↔ ∀ t ∈ s.db.tasks.get id, t.IsFinished →
      (u.apply t).status = t.status ∨ t.status = .done ∧ u = .followupReopen := by
  constructor
  · intro h t ht hfinished
    obtain ⟨hmem, hid⟩ := Table.get_eq_some_iff.mp ht
    obtain rfl : t.id = id := hid
    have hkeeps := h t hmem hfinished (u.apply t) (Op.get_updateTask_self ht)
    rwa [isFollowup_updateTask_iff, and_iff_left rfl] at hkeeps
  · intro h t ht hfinished t' ht'
    have hget := get_of_mem ht
    by_cases hid : t.id = id
    · subst hid
      rw [Op.get_updateTask_self hget, Option.mem_some_iff] at ht'
      rw [← ht', isFollowup_updateTask_iff, and_iff_left rfl]
      exact h t hget hfinished
    · rw [Op.get_updateTask_of_ne hid, hget, Option.mem_some_iff] at ht'
      exact .inl (by rw [ht'])

theorem keepsFinished_update_iff {calls : Nat → ServerCall} {s : RunState} {i : Nat} {id : String}
    {u : TaskUpdate} {seen : Option Task} (hop : StatementOf (calls i) (.sql (.updateTask id u none seen))) :
    KeepsFinished s i (.sql (.updateTask id u none seen)) ↔
      MeetsUnfinished calls s i (.sql (.updateTask id u none seen)) := by
  rw [keepsFinished_updateTask_iff]
  constructor
  · intro h status hstatus t ht hfinished
    rcases h t ht hfinished with hsame | ⟨hdone, rfl⟩
    · rw [status_apply_of_some hstatus] at hsame
      exact .inl hsame.symm
    · rw [StatementOf] at hop
      split at hop
      · exact absurd (isFollowup_updateTask_iff.mpr ⟨rfl, rfl⟩) (hop.1 id)
      · rename_i hcall
        obtain ⟨-, ⟨-, read, hread, hreadDone⟩ | ⟨hne, -⟩⟩ := hop
        · refine .inr ⟨by simpa using hcall, fun hreport => ?_, read, hread, hreadDone.trans hdone.symm⟩
          cases hreport
        · exact absurd rfl hne
  · intro h t ht hfinished
    cases hstatus : u.status? with
    | none => exact .inl (by rw [TaskUpdate.apply_status, hstatus, Option.getD_none])
    | some status =>
      rcases h status hstatus t ht hfinished with hsame | ⟨hcall, hreport, read, hread, hsame⟩
      · exact .inl (by rw [status_apply_of_some hstatus, hsame])
      · rw [StatementOf, hcall] at hop
        obtain ⟨-, ⟨rfl, read', hread', hdone⟩ | ⟨-, hfree | hreports | ⟨read', hread', hunfinished⟩⟩⟩ := hop
        · obtain rfl := Option.mem_unique hread hread'
          exact .inr ⟨hsame.symm.trans hdone, rfl⟩
        · rw [hstatus] at hfree
          cases hfree
        · exact absurd hreports hreport
        · obtain rfl := Option.mem_unique hread hread'
          rw [Task.IsUnfinished, hsame] at hunfinished
          rcases hfinished with hdone | ⟨hcancelled, -⟩
          · simp [hdone] at hunfinished
          · simp [hcancelled] at hunfinished

theorem keepsFinished_iff {calls : Nat → ServerCall} {s : RunState} {i : Nat} {op : RunOp}
    (hop : StatementOf (calls i) op) : KeepsFinished s i op ↔ MeetsUnfinished calls s i op := by
  cases op with
  | poll | post | note => exact Iff.rfl
  | sql op =>
    cases op
    case updateTask id u expected seen =>
      obtain rfl : expected = none := by
        rw [StatementOf] at hop
        split at hop
        · exact hop.2
        · exact hop.1
      exact keepsFinished_update_iff hop
    case insertTask row =>
      refine iff_of_true (keepsFinished_of_same fun t ht t' ht' => ?_) trivial
      rw [Op.exec] at ht'
      split at ht'
      · rw [Table.get_insert_of_get (get_of_mem ht), Option.mem_some_iff] at ht'
        exact ht'.symm
      · rw [get_of_mem ht, Option.mem_some_iff] at ht'
        exact ht'.symm
    case deleteTask id =>
      refine iff_of_true (keepsFinished_of_same fun t ht t' ht' => ?_) trivial
      obtain ⟨hmem, hid⟩ := Table.get_eq_some_iff.mp ht'
      exact Table.eq_of_key_eq (Table.mem_erase.mp hmem).1 ht hid
    case insertBundle | updateBundle => exact iff_of_true (keepsFinished_of_tasks rfl) trivial
    all_goals
      refine iff_of_true (keepsFinished_of_tasks (Op.IsTaskFree.exec ?_ s.db).1) trivial
      trivial

/-- Whatever the coroutines of the server and the order of their steps: every finished task keeps its status
but for the followups on those that are done exactly when every statement that writes a status meets one that
is not finished. -/
theorem finished_stays_iff (calls : Nat → ServerCall) (s : RunState) (schedule : List Nat) :
    Pool.Along RunOp.exec id KeepsFinished (serverPool calls s) (schedule.map .run) ↔
      Pool.Along RunOp.exec id (MeetsUnfinished calls) (serverPool calls s) (schedule.map .run) :=
  Pool.along_congr (fun _ _ _ hop => keepsFinished_iff hop)
    (Pool.each_init (fun n => every_program_statement n (calls n)) s)

/-! ### A task done between the dispatch and its claim -/

section Overtaken

private def oneOpenTask : Db where
  bundles := (∅ : Table Bundle).insert { id := "bun_1", cookbookId := some "cb_1" }
  tasks := (∅ : Table Task).insert { id := "task_1", bundleId := "bun_1" }
  agents :=
    [{ agentId := "agent_1", cookbookId := "cb_1", endpointUrl := some "agent_1:8080", status := .online }]

/-- A pass of the dispatcher, and the agent's report that the task is done. -/
private def overtakenPool : Pool Nat RunState RunOp Exn Unit :=
  serverPool (fun n => match n with
    | 0 => .dispatch (pathDraws 'a')
    | _ => .request 0 (.status "task_1" "done" none) { accountId := legacyAccountId } (pathDraws 'b'))
    ⟨oneOpenTask, { bundleId := "bun_1" }⟩

/-- The gateway has accepted the task and its agent has done it when the dispatcher claims it. -/
theorem claim_reopens_done_task :
    (overtakenPool.run RunOp.exec id ((List.replicate 6 0 ++ List.replicate 8 1).map .run)).hasReturned 1 = true ∧
    (overtakenPool.run RunOp.exec id
      ((List.replicate 6 0 ++ List.replicate 8 1).map .run)).state.db.statusOf "task_1" = some .done ∧
    (overtakenPool.run RunOp.exec id
      ((List.replicate 6 0 ++ List.replicate 8 1 ++ [0]).map .run)).state.db.statusOf "task_1" = some .claimed ∧
    ¬ Pool.Along RunOp.exec id KeepsFinished overtakenPool
      ((List.replicate 6 0 ++ List.replicate 8 1 ++ [0]).map .run) := by
  decide +kernel

end Overtaken

end Krewhub
