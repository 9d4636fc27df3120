import Krewhub.Base.Stages
import Krewhub.Server

/-!
# Whoever writes has been let in

The endpoints on tasks and links ask who the caller is, and then write. Between the one and the other everything
else that the server does goes on, and what the answer has been taken from may no longer be so. What remains is
that the question has been asked, of the right rows: a call that comes to a statement that writes, or ends, has had
turns of its own at which it found the task, and then at which the caller might change that task.
-/

namespace Krewhub

/-- The callers that every check lets through. -/
def CallerContext.IsService (caller : CallerContext) : Prop :=
  caller.accountId = legacyAccountId ∨ caller.authMethod = "api_key"

instance (caller : CallerContext) : Decidable caller.IsService :=
  inferInstanceAs (Decidable (_ ∨ _))

/-- `authorize_task_mutation` on a task as it has been found. -/
def taskAuthority (taskId : String) (caller : CallerContext) : Stages Db Op :=
  .cons (fun _ db => (db.tasks.get taskId).isSome = true) fun db =>
    if caller.IsService then .nil
    else .one fun _ db' => ∃ task ∈ db.tasks.get taskId, MayMutate db' caller task

/-- `require_bundle_owner` on the bundle of a row as it has been found. -/
def ownerAuthority (bundleOf : Db → Option String) (caller : CallerContext) : Stages Db Op :=
  .cons (fun _ db => (bundleOf db).isSome = true) fun db =>
    .one fun _ db' => ∃ bundleId ∈ bundleOf db, OwnsBundle db' caller bundleId

/-- The statement writes. -/
def Op.IsWrite : Op → Prop
  | .select | .commit | .aside => False
  | _ => True

/-! ### The checks -/

section Checks

variable {W : Op → Prop} {α : Type} {caller : CallerContext}

theorem staged_isAssignedRuntime_bind (hselect : ¬ W .select) {task : Task} {E : Op → Db → Prop} {R : α → Prop}
    (hE : ∀ op db, AssignedRuntime db caller task → E op db) {f : Bool → Sql α}
    (hf : (f false).Staged W R (.one E)) : (isAssignedRuntime caller task >>= f).Staged W R (.one E) := by
  rw [isAssignedRuntime]
  cases hruntime : task.assignedRuntimeId with
  | none => exact hf
  | some id =>
    refine ⟨hselect, fun db => ?_⟩
    by_cases hassigned : AssignedRuntime db caller task
    · exact .inl ⟨hE _ _ hassigned, Coro.staged_nil _⟩
    · refine .inr ?_
      have hnot : (db.runtimes.get id).any (·.accountId == caller.accountId) = false := by
        rw [Bool.eq_false_iff]
        intro hany
        obtain ⟨row, hrow, haccount⟩ := (Option.any_eq_true _ _).mp hany
        exact hassigned ⟨id, hruntime, row, hrow, beq_iff_eq.mp haccount⟩
      change (f ((db.runtimes.get id).any (·.accountId == caller.accountId))).Staged W R (.one E)
      rwa [hnot]

theorem staged_authorizeTaskMutation (hselect : ¬ W .select) {task : Task} (hservice : ¬ caller.IsService)
    {E : Op → Db → Prop} (hE : ∀ op db, MayMutate db caller task → E op db) :
    (authorizeTaskMutation caller task).Staged W (fun _ => True) (.one E) := by
  rw [authorizeTaskMutation]
  refine .ite (fun h => absurd h hservice) fun _ => ?_
  refine staged_isAssignedRuntime_bind hselect (fun op db h => hE op db (.inr (.inr (.inl h)))) ?_
  refine .perform_bind hselect fun db => ?_
  cases hbundle : db.bundles.get task.bundleId with
  | none => exact .inr (Coro.staged_raise _)
  | some bundle =>
    have howner : bundle.owner = caller.accountId → E .select db := fun h =>
      hE _ db (.inr (.inr (.inr ⟨bundle, hbundle, h⟩)))
    dsimp only
    rw [Bundle.owner] at howner
    cases hid : bundle.ownerAccountId with
    | none =>
      rw [hid] at howner
      by_cases hcreated : bundle.createdBy = caller.accountId
      · exact .inl ⟨howner hcreated, Coro.staged_nil _⟩
      · refine .inr ?_
        dsimp only
        rw [if_neg hcreated]
        exact Coro.staged_raise _
    | some owner =>
      rw [hid] at howner
      by_cases hother : owner = caller.accountId
      · exact .inl ⟨howner hother, Coro.staged_nil _⟩
      · refine .inr ?_
        dsimp only
        rw [if_pos hother]
        exact Coro.staged_raise _

theorem staged_requireBundleOwner (hselect : ¬ W .select) {bundleId : String} {E : Op → Db → Prop}
    (hE : ∀ op db, OwnsBundle db caller bundleId → E op db) :
    (requireBundleOwner bundleId caller).Staged W (fun _ => True) (.one E) := by
  refine .perform_bind hselect fun db => ?_
  cases hbundle : db.bundles.get bundleId with
  | none => exact .inr (Coro.staged_raise _)
  | some bundle =>
    dsimp only
    by_cases howns : OwnsBundle db caller bundleId
    · exact .inl ⟨hE _ db howns, Coro.staged_nil _⟩
    · have hnot : ¬ (caller.accountId = legacyAccountId ∨ bundle.owner = caller.accountId) := fun h =>
        howns ⟨bundle, hbundle, h⟩
      obtain ⟨hlegacy, howner⟩ := not_or.mp hnot
      refine .inr ?_
      rw [if_neg hlegacy]
      rw [Bundle.owner] at howner
      cases hid : bundle.ownerAccountId with
      | none =>
        rw [hid] at howner
        exact .ite (fun h => absurd h howner) fun _ => Coro.staged_raise _
      | some owner =>
        rw [hid] at howner
        exact .ite (fun _ => Coro.staged_raise _) fun h => absurd (not_not.mp h) howner

/-- What stands behind the task and the check of its caller. -/
theorem staged_taskAuthority (hselect : ¬ W .select) {taskId : String} {found : Option Task → Sql α}
    {f : Task → Unit → Sql α} {R : α → Prop} (hnone : ∃ e, found none = .raise e)
    (hsome : ∀ task, found (some task) = authorizeTaskMutation caller task >>= f task) :
    (TaskRepo.get taskId >>= found).Staged W R (taskAuthority taskId caller) := by
  refine ⟨hselect, fun db => ?_⟩
  change ((db.tasks.get taskId).isSome = true ∧ _) ∨ (found (db.tasks.get taskId)).Staged W R _
  cases htask : db.tasks.get taskId with
  | none =>
    obtain ⟨e, he⟩ := hnone
    exact .inr (by rw [he]; exact Coro.staged_raise e)
  | some task =>
    refine .inl ⟨rfl, ?_⟩
    change (found (db.tasks.get taskId)).Staged W R _
    dsimp only
    rw [htask, hsome]
    by_cases hservice : caller.IsService
    · rw [if_pos hservice]
      exact Coro.staged_nil _
    · rw [if_neg hservice]
      exact (staged_authorizeTaskMutation hselect hservice fun _ _ h => ⟨task, rfl, h⟩).then

/-- What stands behind a row and the check of the owner of its bundle. -/
theorem staged_ownerAuthority (hselect : ¬ W .select) {ρ : Type} {get : Db → Option ρ} {bundleId : ρ → String}
    {found : Option ρ → Sql α} {f : ρ → Bundle → Sql α} {R : α → Prop} (hnone : ∃ e, found none = .raise e)
    (hsome : ∀ r, found (some r) = requireBundleOwner (bundleId r) caller >>= f r) :
    (Sql.select get >>= found).Staged W R (ownerAuthority (fun db => (get db).map bundleId) caller) := by
  refine ⟨hselect, fun db => ?_⟩
  change (((get db).map bundleId).isSome = true ∧ _) ∨ (found (get db)).Staged W R _
  cases hrow : get db with
  | none =>
    obtain ⟨e, he⟩ := hnone
    exact .inr (by rw [he]; exact Coro.staged_raise e)
  | some r =>
    refine .inl ⟨rfl, ?_⟩
    change (found (get db)).Staged W R _
    dsimp only
    rw [hrow, hsome]
    exact (staged_requireBundleOwner hselect fun _ _ h => ⟨_, rfl, h⟩).then

theorem staged_taskOr404 (hselect : ¬ W .select) {taskId : String} {f : Task → Unit → Sql α} {R : α → Prop} :
    (taskOr404 taskId >>= fun task => authorizeTaskMutation caller task >>= f task).Staged W R
      (taskAuthority taskId caller) := by
  rw [taskOr404, Coro.bind_assoc]
  exact staged_taskAuthority hselect ⟨_, rfl⟩ fun _ => rfl

end Checks

/-! ### The endpoints -/

/-- The task that a request names. -/
def TaskRequest.taskId : TaskRequest → String
  | .events taskId _ | .eventsBatch taskId .. | .status taskId .. | .claim taskId _ | .completion taskId _
  | .cancel taskId | .followup taskId _ | .hitlAnswer taskId _ | .edit taskId .. | .review taskId _ => taskId

/-- What a request has to have gone through. -/
def TaskRequest.authority (caller : CallerContext) : TaskRequest → Stages Db Op
  | .review taskId _ => ownerAuthority (fun db => (db.tasks.get taskId).map (·.bundleId)) caller
  | req => taskAuthority req.taskId caller

namespace ServerCall

/-- What a call has to have gone through, where it has a caller. -/
def authority : ServerCall → Option (Stages Db Op)
  | request _ req caller _ => some (req.authority caller)
  | remove _ taskId caller _ | progress taskId _ caller => some (taskAuthority taskId caller)
  | addTask bundleId _ _ caller _ => some (.one fun _ db => OwnsBundle db caller bundleId)
  | createLink fromTaskId _ caller _ =>
    some (ownerAuthority (fun db => (db.tasks.get fromTaskId).map (·.bundleId)) caller)
  | revokeLink linkId caller _ => some (ownerAuthority (fun db => (db.links.get linkId).map (·.bundleId)) caller)
  | _ => none

end ServerCall

section Endpoints

variable {W : Op → Prop} (hselect : ¬ W .select)
include hselect

theorem staged_handle {depth : Nat} {caller : CallerContext} {d : Draws} (req : TaskRequest) :
    (req.handle depth caller d).Staged W (fun _ => True) (req.authority caller) := by
  have hraise : ∀ {α : Type} (e : Exn) (stages : Stages Db Op),
      (Coro.raise e : Sql α).Staged W (fun _ => True) stages := fun e _ => Coro.staged_raise e
  cases req <;> rw [TaskRequest.handle] <;> refine Coro.Staged.then ?_
  case events => exact staged_taskOr404 hselect
  case eventsBatch => exact staged_taskOr404 hselect
  case status => exact staged_taskOr404 hselect
  case claim => exact staged_taskOr404 hselect
  case completion => exact staged_taskOr404 hselect
  case cancel => exact staged_taskOr404 hselect
  case edit => exact staged_taskOr404 hselect
  case followup => exact .ite (fun _ => hraise _ _) fun _ => staged_taskAuthority hselect ⟨_, rfl⟩ fun _ => rfl
  case hitlAnswer => exact .ite (fun _ => hraise _ _) fun _ => staged_taskOr404 hselect
  case review =>
    refine .ite (fun _ => hraise _ _) fun _ => ?_
    rw [taskOr404, Coro.bind_assoc]
    exact staged_ownerAuthority hselect ⟨_, rfl⟩ fun _ => rfl

theorem staged_createLink {fromTaskId : String} {req : CreateLinkRequest} {caller : CallerContext} {d : Draws} :
    (createLink fromTaskId req caller d).Staged W (fun _ => True)
      (ownerAuthority (fun db => (db.tasks.get fromTaskId).map (·.bundleId)) caller) := by
  refine .ite (fun _ => Coro.staged_raise _) fun _ => .ite (fun _ => Coro.staged_raise _) fun _ => ?_
  refine .ite (fun _ => Coro.staged_raise _) fun _ => .ite (fun _ => Coro.staged_raise _) fun _ => ?_
  exact staged_ownerAuthority hselect ⟨_, rfl⟩ fun _ => rfl

/-- A call ends and writes only once it has gone through what it has to. -/
theorem ServerCall.staged_program {call : ServerCall} {stages : Stages Db Op} (h : call.authority = some stages)
    {W' : RunOp → Prop} (hW : ∀ op, W' (.sql op) → W op) (n : Nat) :
    (call.program n).Staged W' (fun _ => True) (stages.within RunState.db .sql) := by
  have hwithin : ∀ {c : Sql Unit}, c.Staged W (fun _ => True) stages →
      (Runtime.sql c).Staged W' (fun _ => True) (stages.within RunState.db .sql) := fun hc => hc.within hW
  cases call <;> cases h <;> rw [program]
  case request => exact hwithin (staged_handle hselect _)
  case remove => exact hwithin (staged_taskOr404 hselect).then
  case progress => exact hwithin (staged_taskOr404 hselect)
  case addTask => exact hwithin (.then (.then (staged_requireBundleOwner hselect fun _ _ h => h)))
  case createLink => exact hwithin (staged_createLink hselect).then
  case revokeLink => exact hwithin (.then (staged_ownerAuthority hselect ⟨_, rfl⟩ fun _ => rfl))

end Endpoints

/-! ### The row -/

/-- The task whose row the statement writes. -/
def Op.changedTask : Op → Option String
  | .insertTask task => some task.id
  | .updateTask id .. | .deleteTask id => some id
  | _ => none

/-- The statement writes the row of no other task. -/
def OwnRow (taskId : String) (op : Op) : Prop := ∀ id ∈ op.changedTask, id = taskId

theorem Op.get_exec_of_changedTask {op : Op} {id : String} (h : op.changedTask ≠ some id) (db : Db) :
    (op.exec db).tasks.get id = db.tasks.get id := by
  have hne : ∀ id', op.changedTask = some id' → id ≠ id' := by
    rintro id' hid' rfl
    exact h hid'
  cases op with
  | insertTask task =>
    rw [Op.exec]
    split
    · exact Table.get_insert_of_ne (hne _ rfl)
    · rfl
  | updateTask id' u expected seen =>
    rw [Op.exec]
    dsimp only
    rw [Table.get_amend_of_ne _ (hne _ rfl)]
  | deleteTask id' => exact Table.get_erase_of_ne (hne _ rfl)
  | insertEvent event reported =>
    rw [Op.exec]
    split <;> rfl
  | _ => rfl

/-- The task that a call names, where it writes the row of no other. -/
def ServerCall.ownTask : ServerCall → Option String
  | .request _ (.cancel _) _ _ => none
  | .request _ req _ _ => some req.taskId
  | .progress taskId _ _ => some taskId
  | _ => none

section OwnRow

variable {taskId : String}

theorem ownRow_update {u : TaskUpdate} {expected : Option Nat} {seen : Option Task} :
    OwnRow taskId (.updateTask taskId u expected seen) := fun _ h => (Option.some.inj h).symm

theorem plainOps_ownRow : PlainOps (OwnRow taskId) :=
  ⟨fun _ h => (by cases h), fun _ h => (by cases h), fun _ h => by cases h⟩

theorem eventOps_ownRow : TaskService.EventOps (OwnRow taskId) taskId where
  stamp _ := ownRow_update
  work _ _ _ := ownRow_update
  event _ _ h := by cases h

theorem every_authorized_ownRow {α : Type} {caller : CallerContext} {f : Task → Unit → Sql α}
    (h : ∀ task : Task, task.id = taskId → (f task ()).Every (OwnRow taskId)) :
    (taskOr404 taskId >>= fun task => authorizeTaskMutation caller task >>= f task).Every (OwnRow taskId) := by
  rw [taskOr404, Coro.bind_assoc]
  refine ⟨plainOps_ownRow.select, fun db => ?_⟩
  change Coro.Every _ (Coro.bind (.done (db.tasks.get taskId)) _)
  dsimp only [Coro.bind]
  cases htask : db.tasks.get taskId with
  | none => trivial
  | some task =>
    change (authorizeTaskMutation caller task >>= f task).Every _
    exact .bind (every_authorizeTaskMutation plainOps_ownRow _ _) fun _ => h task (Table.key_eq_of_get htask)

theorem every_park_ownRow {task : Task} (hid : task.id = taskId) (eventTypes : List String) (d : Draws) :
    (parkForReviewIfNeeded task eventTypes d).Every (OwnRow taskId) := by
  subst hid
  exact every_parkForReviewIfNeeded plainOps_ownRow _ _ fun _ _ => ownRow_update

/-- No request but a cancellation writes the row of another task than it names. -/
theorem every_handle_ownRow {depth : Nat} {caller : CallerContext} {d : Draws} {req : TaskRequest}
    (h : ∀ taskId, req ≠ .cancel taskId) : (req.handle depth caller d).Every (OwnRow req.taskId) := by
  have hplain : ∀ {taskId}, PlainOps (OwnRow taskId) := plainOps_ownRow
  cases req with
  | cancel taskId => exact absurd rfl (h taskId)
  | events taskId req =>
    refine every_discard (every_authorized_ownRow fun task hid => ?_)
    refine .bind (every_bundleOr404 hplain _) fun _ => ?_
    refine .bind (TaskService.every_parsed _) fun _ => .bind (TaskService.every_parsed _) fun _ => ?_
    refine .bind (TaskService.every_enumMember _ _) fun _ => .bind (TaskService.every_enumMember _ _) fun _ => ?_
    refine .bind (every_sessionMismatchAs409 (TaskService.every_postEvent hplain eventOps_ownRow _ _ _)) fun _ => ?_
    exact .bind (every_park_ownRow hid _ _) fun _ => trivial
  | eventsBatch taskId events token =>
    refine every_discard (every_authorized_ownRow fun task hid => .bind (every_bundleOr404 hplain _) fun _ => ?_)
    refine .bind (every_sessionMismatchAs409 (TaskService.every_postEventsBatch hplain eventOps_ownRow _ _ _))
      fun _ => ?_
    exact .bind (every_park_ownRow hid _ _) fun _ => trivial
  | status taskId value reason =>
    refine every_discard (every_authorized_ownRow fun task _ => .bind (TaskService.every_enumMember _ _) fun _ => ?_)
    refine .ite (fun _ => ?_) fun _ => .ite (fun _ => ?_) fun _ => trivial
    · exact .bind (TaskService.every_markDone hplain (fun _ _ _ => ownRow_update) _) every_taskFound
    · exact .bind (TaskService.every_markBlocked hplain (fun _ _ => ownRow_update) _) every_taskFound
  | claim taskId agentId =>
    refine every_discard (every_authorized_ownRow fun task _ => .bind (every_bundleOr404 hplain _) fun bundle => ?_)
    refine .bind (TaskService.every_claimTask hplain (fun _ _ _ _ _ => ownRow_update) (eventOps_ownRow).event
      _ _ _) fun claimed => ?_
    cases claimed with
    | none => trivial
    | some updated =>
      refine .ite (fun _ => ?_) fun _ => trivial
      cases bundle.sandboxId <;> trivial
  | completion taskId req =>
    refine every_discard (every_authorized_ownRow fun task _ => ?_)
    refine .bind ((Coro.every_perform _ _).mpr ownRow_update) fun _ => .bind (Sql.every_commit hplain) fun _ => ?_
    refine .bind (TaskRepo.every_get hplain _) fun updated => ?_
    cases updated <;> trivial
  | followup taskId prompt =>
    refine every_discard (.ite (fun _ => trivial) fun _ => .bind (TaskRepo.every_get hplain _) fun found => ?_)
    cases found with
    | none => trivial
    | some task =>
      refine .bind (every_authorizeTaskMutation hplain _ _) fun _ => .bind (BundleRepo.every_get hplain _) ?_
      rintro (_ | bundle)
      · trivial
      · refine .bind (EventRepo.every_nextSequence hplain _) fun _ => ?_
        refine .bind (Sql.every_checked (eventOps_ownRow.event _) _ _) fun _ => ?_
        have htail : Coro.Every (OwnRow taskId) (do Sql.commit; TaskRepo.get taskId) :=
          .bind (Sql.every_commit hplain) fun _ => TaskRepo.every_get hplain _
        exact .ite (fun _ => .bind ((Coro.every_perform _ _).mpr ownRow_update) fun _ => htail) fun _ => htail
  | hitlAnswer taskId answer =>
    refine every_discard (.ite (fun _ => trivial) fun _ => every_authorized_ownRow fun task _ => ?_)
    refine .ite (fun _ => trivial) fun _ => .bind (TaskService.every_cookbookIdForBundle hplain _) fun _ => ?_
    have htail : ∀ (patch : TaskPatch) (record : Bool) (d : Draws), Coro.Every (OwnRow taskId) (do
        let updated ← TaskRepo.update taskId patch none (some task) d
        if updated.isSome && record then Sql.record
        return updated) := by
      intro patch record d
      refine .bind (TaskRepo.every_update hplain ownRow_update) fun _ => ?_
      exact .ite (fun _ => .bind (Sql.every_record hplain) fun _ => trivial) fun _ => trivial
    refine .ite (fun _ => ?_) fun _ => htail _ _ _
    exact .bind (TaskService.every_postEvent hplain eventOps_ownRow _ _ _) fun _ => htail _ _ _
  | edit taskId title description deps =>
    refine every_discard (every_authorized_ownRow fun task _ => ?_)
    refine .bind (TaskService.every_editTask hplain (fun _ => ownRow_update) _) fun updated => ?_
    cases updated <;> trivial
  | review taskId req =>
    refine every_discard (.ite (fun _ => trivial) fun _ => .bind (every_taskOr404 hplain _) fun task => ?_)
    refine .bind (every_requireBundleOwner hplain _ _) fun _ => .ite (fun _ => trivial) fun _ => ?_
    refine .bind (Sql.every_checked (fun _ h => by cases h) _ _) fun _ => ?_
    refine .bind (TaskRepo.every_update hplain ownRow_update) fun _ => .bind (Sql.every_commit hplain) fun _ => ?_
    exact .bind (TaskService.every_recordUpdated hplain _) fun _ => trivial

end OwnRow

/-- The operation writes the row of no task but the one that the call names. -/
def ServerCall.Keeps (call : ServerCall) : RunOp → Prop
  | .sql op => ∀ taskId ∈ call.ownTask, OwnRow taskId op
  | _ => True

theorem ServerCall.every_keeps (n : Nat) (call : ServerCall) : (call.program n).Every call.Keeps := by
  by_cases hown : ∃ taskId, call.ownTask = some taskId
  · obtain ⟨taskId, hown⟩ := hown
    have hsql : ∀ c : Sql Unit, c.Every (OwnRow taskId) → (Runtime.sql c).Every call.Keeps := by
      refine fun c hc => Runtime.every_sql hc fun op hop taskId' htaskId' => ?_
      obtain rfl := Option.some.inj (hown.symm.trans htaskId')
      exact hop
    cases call with
    | request depth req caller d =>
      have hcancel : ∀ taskId', req ≠ .cancel taskId' := by
        rintro taskId' rfl
        cases hown
      have hname : req.taskId = taskId := by
        cases req with
        | cancel taskId' => cases hown
        | _ => exact Option.some.inj hown
      rw [program]
      exact hsql _ (hname ▸ every_handle_ownRow hcancel)
    | progress taskId' json caller =>
      obtain rfl := Option.some.inj hown
      exact hsql _ (every_postTaskProgress plainOps_ownRow ownRow_update)
    | _ => cases hown
  · refine (Coro.every_true _).mono fun op _ => ?_
    cases op with
    | sql op => exact fun taskId htaskId => absurd ⟨taskId, htaskId⟩ hown
    | _ => trivial

/-! ### Runs -/

section Runs

variable (calls : Nat → ServerCall) (recover : RunState → RunState) (pool : Pool Nat RunState RunOp Exn Unit)

/-- The call has gone through what it has to, if it has a caller. -/
def LetIn (n : Nat) (turns : List (Turn Nat)) : Prop :=
  ∀ stages ∈ (calls n).authority, pool.Came RunOp.exec recover n (stages.within RunState.db .sql) turns

variable {calls recover pool} {turns : List (Turn Nat)}

theorem exists_op_of_changed {turn : Turn Nat} {taskId : String} (hturn : turn ≠ .crash)
    (h : (pool.take RunOp.exec recover turn).state.db.tasks.get taskId ≠ pool.state.db.tasks.get taskId) :
    ∃ n op next, turn = .run n ∧ pool.awaits n (.sql op) next ∧ op.changedTask = some taskId := by
  cases turn with
  | crash => exact absurd rfl hturn
  | cancel n => exact absurd rfl h
  | run n =>
    by_cases hawaits : ∃ op next, pool.awaits n op next
    · obtain ⟨op, next, hawaits⟩ := hawaits
      rw [Pool.take_run hawaits] at h
      cases op with
      | sql op =>
        refine ⟨n, op, next, rfl, hawaits, ?_⟩
        by_contra hother
        exact h (Op.get_exec_of_changedTask hother _)
      | poll call status taskId => exact absurd rfl h
      | post call agentId taskId attempt accepted => exact absurd rfl h
      | note call u => exact absurd rfl h
    · push Not at hawaits
      rw [Pool.take_run_of_not_awaits hawaits] at h
      exact absurd rfl h

theorem Op.isWrite_of_changedTask {op : Op} {taskId : String} (h : op.changedTask = some taskId) : op.IsWrite := by
  cases op <;> trivial

end Runs

end Krewhub
