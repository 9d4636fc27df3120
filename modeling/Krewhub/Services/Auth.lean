import Krewhub.Store.Repositories

/-!
# Who may do what

The access predicates of `auth.py`: `require_bundle_owner` and `authorize_task_mutation`. Both only
read, so each comes with the predicate on the database that decides it.
-/

namespace Krewhub

structure CallerContext where
  accountId : String
  principalType : String := "human"
  authMethod : String := "api_key"
  deriving DecidableEq, Repr

def legacyAccountId : String := "acc_legacy_apikey"

/-- The owner of a bundle: `owner_account_id`, or `created_by` where it was never filled in. -/
def Bundle.owner (b : Bundle) : String := b.ownerAccountId.getD b.createdBy

def requireBundleOwner (bundleId : String) (caller : CallerContext) : Sql Bundle := do
  match ← BundleRepo.get bundleId with
  | none => .raise (.http 404 "Bundle not found")
  | some bundle =>
    if caller.accountId = legacyAccountId then return bundle
    else match bundle.ownerAccountId with
      | none =>
        if bundle.createdBy = caller.accountId then return bundle
        else .raise (.http 403 "Not your bundle")
      | some owner =>
        if owner ≠ caller.accountId then .raise (.http 403 "Not your bundle") else return bundle

def isAssignedRuntime (caller : CallerContext) (task : Task) : Sql Bool :=
  match task.assignedRuntimeId with
  | none => return false
  | some runtimeId => do
    let row ← Sql.select (·.runtimes.get runtimeId)
    return row.any (·.accountId == caller.accountId)

def authorizeTaskMutation (caller : CallerContext) (task : Task) : Sql Unit := do
  if caller.accountId = legacyAccountId ∨ caller.authMethod = "api_key" then return
  if ← isAssignedRuntime caller task then return
  match ← BundleRepo.get task.bundleId with
  | none => .raise (.http 403 "Not authorized for this task")
  | some bundle =>
    match bundle.ownerAccountId with
    | none =>
      if bundle.createdBy = caller.accountId then return
      else .raise (.http 403 "Not authorized for this task")
    | some owner =>
      if owner ≠ caller.accountId then .raise (.http 403 "Not authorized for this task") else return

/-! ### The predicates -/

/-- Whether `require_bundle_owner` lets the caller through. -/
def OwnsBundle (db : Db) (caller : CallerContext) (bundleId : String) : Prop :=
  ∃ b ∈ db.bundles.get bundleId, caller.accountId = legacyAccountId ∨ b.owner = caller.accountId

/-- Case 2 of `authorize_task_mutation`: the caller's account has the runtime assigned to the task. -/
def AssignedRuntime (db : Db) (caller : CallerContext) (task : Task) : Prop :=
  ∃ id ∈ task.assignedRuntimeId, ∃ r ∈ db.runtimes.get id, r.accountId = caller.accountId

/-- Whether `authorize_task_mutation` lets the caller through. -/
def MayMutate (db : Db) (caller : CallerContext) (task : Task) : Prop :=
  caller.accountId = legacyAccountId ∨ caller.authMethod = "api_key" ∨
    AssignedRuntime db caller task ∨ ∃ b ∈ db.bundles.get task.bundleId, b.owner = caller.accountId

instance (db : Db) (caller : CallerContext) (bundleId : String) :
    Decidable (OwnsBundle db caller bundleId) :=
  inferInstanceAs (Decidable (∃ b ∈ db.bundles.get bundleId, _))

instance (db : Db) (caller : CallerContext) (task : Task) :
    Decidable (AssignedRuntime db caller task) :=
  inferInstanceAs (Decidable (∃ id ∈ task.assignedRuntimeId, ∃ r ∈ db.runtimes.get id, _))

instance (db : Db) (caller : CallerContext) (task : Task) : Decidable (MayMutate db caller task) :=
  inferInstanceAs (Decidable (_ ∨ _ ∨ _ ∨ ∃ b ∈ db.bundles.get task.bundleId, _))

/-! ### The checks decide the predicates -/

theorem run_requireBundleOwner (db : Db) (caller : CallerContext) (bundleId : String) :
    ∃ r : Except Exn Bundle, (requireBundleOwner bundleId caller).run Op.exec db = (r, db) ∧
      (r.isOk = true ↔ OwnsBundle db caller bundleId) := by
  unfold requireBundleOwner BundleRepo.get OwnsBundle Bundle.owner
  rw [Coro.run_bind_ok Op.exec (Sql.run_select _ db)]
  cases hb : db.bundles.get bundleId with
  | none => exact ⟨_, rfl, by simp [Except.isOk, Except.toBool]⟩
  | some b =>
    by_cases hlegacy : caller.accountId = legacyAccountId
    · simp [hlegacy, Except.isOk, Except.toBool]
    · cases howner : b.ownerAccountId with
      | none =>
        by_cases hcreated : b.createdBy = caller.accountId <;>
          simp [hlegacy, howner, hcreated, Except.isOk, Except.toBool]
      | some owner =>
        by_cases heq : owner = caller.accountId <;>
          simp [hlegacy, howner, heq, Except.isOk, Except.toBool]

/-- The bundle the check returns is the row it has read. -/
theorem get_of_requireBundleOwner {db db' : Db} {caller : CallerContext} {bundleId : String}
    {bundle : Bundle} (h : (requireBundleOwner bundleId caller).run Op.exec db = (.ok bundle, db')) :
    db.bundles.get bundleId = some bundle := by
  rw [requireBundleOwner, BundleRepo.get, Coro.run_bind_ok Op.exec (Sql.run_select _ db)] at h
  cases hb : db.bundles.get bundleId with
  | none =>
    rw [hb] at h
    cases h
  | some b =>
    rw [hb] at h
    dsimp only at h
    repeat' split at h
    all_goals cases h
    all_goals rfl

theorem run_isAssignedRuntime (db : Db) (caller : CallerContext) (task : Task) :
    ∃ b : Bool, (isAssignedRuntime caller task).run Op.exec db = (.ok b, db) ∧
      (b = true ↔ AssignedRuntime db caller task) := by
  unfold isAssignedRuntime AssignedRuntime
  cases hid : task.assignedRuntimeId with
  | none => exact ⟨false, rfl, by simp⟩
  | some id =>
    refine ⟨_, Coro.run_bind_ok Op.exec (Sql.run_select _ db), ?_⟩
    cases hr : db.runtimes.get id <;> simp [hr]

theorem run_authorizeTaskMutation (db : Db) (caller : CallerContext) (task : Task) :
    ∃ r : Except Exn Unit, (authorizeTaskMutation caller task).run Op.exec db = (r, db) ∧
      (r.isOk = true ↔ MayMutate db caller task) := by
  unfold authorizeTaskMutation MayMutate Bundle.owner
  by_cases hapi : caller.accountId = legacyAccountId ∨ caller.authMethod = "api_key"
  · rw [if_pos hapi]
    exact ⟨.ok (), rfl, by simp only [Except.isOk, Except.toBool, true_iff]; tauto⟩
  · obtain ⟨hlegacy, hmethod⟩ := not_or.mp hapi
    obtain ⟨b, hrun, hruntime⟩ := run_isAssignedRuntime db caller task
    rw [if_neg hapi, Coro.run_bind_ok Op.exec hrun, ← hruntime]
    cases b with
    | true => exact ⟨.ok (), rfl, by simp [Except.isOk, Except.toBool]⟩
    | false =>
      simp only [Bool.false_eq_true, if_false, hlegacy, hmethod, false_or]
      rw [BundleRepo.get, Coro.run_bind_ok Op.exec (Sql.run_select _ db)]
      cases db.bundles.get task.bundleId with
      | none => exact ⟨_, rfl, by simp [Except.isOk, Except.toBool]⟩
      | some b =>
        cases howner : b.ownerAccountId with
        | none =>
          by_cases hcreated : b.createdBy = caller.accountId <;>
            simp [howner, hcreated, Except.isOk, Except.toBool]
        | some owner =>
          by_cases heq : owner = caller.accountId <;>
            simp [howner, heq, Except.isOk, Except.toBool]

section Keeps

variable {R : Db → Db → Prop} [IsPreorder Db R] {β : Type} {caller : CallerContext} {db : Db}

/-- What follows the check runs only for a caller it lets through. -/
theorem keeps_authorize {task : Task} {f : Unit → Sql β}
    (h : MayMutate db caller task → Sql.Keeps R (f ()) db) :
    Sql.Keeps R (authorizeTaskMutation caller task >>= f) db := by
  obtain ⟨r, hrun, hr⟩ := run_authorizeTaskMutation db caller task
  cases r with
  | error e =>
    rw [Sql.Keeps, Coro.Keeps, Coro.run_bind_error Op.exec hrun]
    exact refl_of R db
  | ok _ =>
    rw [Sql.Keeps, Coro.Keeps, Coro.run_bind_ok Op.exec hrun]
    exact h (hr.mp rfl)

theorem keeps_requireBundleOwner {bundleId : String} {f : Bundle → Sql β}
    (h : OwnsBundle db caller bundleId → ∀ bundle, db.bundles.get bundleId = some bundle →
      Sql.Keeps R (f bundle) db) :
    Sql.Keeps R (requireBundleOwner bundleId caller >>= f) db := by
  obtain ⟨r, hrun, hr⟩ := run_requireBundleOwner db caller bundleId
  cases r with
  | error e =>
    rw [Sql.Keeps, Coro.Keeps, Coro.run_bind_error Op.exec hrun]
    exact refl_of R db
  | ok bundle =>
    rw [Sql.Keeps, Coro.Keeps, Coro.run_bind_ok Op.exec hrun]
    exact h (hr.mp rfl) bundle (get_of_requireBundleOwner hrun)

end Keeps

/-! ### The checks only read -/

section Every

variable {P : Op → Prop} (hP : PlainOps P)
include hP

theorem every_requireBundleOwner (bundleId : String) (caller : CallerContext) :
    (requireBundleOwner bundleId caller).Every P := by
  refine .bind (BundleRepo.every_get hP bundleId) fun found => ?_
  cases found with
  | none => trivial
  | some bundle =>
    dsimp only
    repeat' split
    all_goals trivial

theorem every_authorizeTaskMutation (caller : CallerContext) (task : Task) :
    (authorizeTaskMutation caller task).Every P := by
  unfold authorizeTaskMutation
  split
  · trivial
  · refine .bind ?_ fun assigned => ?_
    · unfold isAssignedRuntime
      cases task.assignedRuntimeId with
      | none => trivial
      | some id => exact .bind (Sql.every_select hP _) fun _ => trivial
    · split
      · trivial
      · refine .bind (BundleRepo.every_get hP task.bundleId) fun found => ?_
        cases found with
        | none => trivial
        | some bundle =>
          dsimp only
          repeat' split
          all_goals trivial

end Every

end Krewhub
