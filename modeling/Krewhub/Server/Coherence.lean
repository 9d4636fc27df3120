import Krewhub.Server

/-!
# Coherent rows

`completed_at` says when a task was done and `blocked_reason` why it is blocked, so the one belongs to the
status `done` and the other to `blocked`. Each operation writes the status with an `UPDATE` of its own, in
which a column that is not named stays as it is. The rows stay coherent as long as no such statement meets
a column it would have had to clear.
-/

namespace Krewhub

/-- The task has a completion time exactly when it is done, and a reason only when it is blocked. -/
structure Task.IsCoherent (t : Task) : Prop where
  completed : t.completedAt.isSome = true ↔ t.status = .done
  reason : t.blockedReason.isSome = true → t.status = .blocked

theorem Task.isCoherent_iff (t : Task) : t.IsCoherent ↔
    (t.completedAt.isSome = true ↔ t.status = .done) ∧
      (t.blockedReason.isSome = true → t.status = .blocked) :=
  ⟨fun h => ⟨h.completed, h.reason⟩, fun ⟨hcompleted, hreason⟩ => ⟨hcompleted, hreason⟩⟩

instance Task.decidableIsCoherent (t : Task) : Decidable t.IsCoherent :=
  decidable_of_iff _ t.isCoherent_iff.symm

def Coherent (s : RunState) : Prop := ∀ t ∈ s.db.tasks, t.IsCoherent

instance Coherent.decidable : DecidablePred Coherent := fun s =>
  inferInstanceAs (Decidable (∀ t ∈ s.db.tasks.rows, t.IsCoherent))

namespace TaskUpdate

/-- The statement clears `completed_at`. -/
def clearsCompletion : TaskUpdate → Bool
  | .reopenForRerun _ | .followupReopen => true
  | _ => false

/-- The statement clears `blocked_reason`. -/
def clearsReason : TaskUpdate → Bool
  | .patch p _ => p.clearBlockedReason
  | .reopenForRerun _ => true
  | _ => false

/-- Where the statement writes a status other than `done`, the row has no completion time or is cleared of
it; where it writes one other than `blocked`, the same of the reason. -/
def MeetsClean (u : TaskUpdate) (t : Task) : Prop :=
  ∀ status ∈ u.status?,
    (status ≠ .done → u.clearsCompletion = false → t.completedAt = none) ∧
      (status ≠ .blocked → u.clearsReason = false → t.blockedReason = none)

instance (u : TaskUpdate) (t : Task) : Decidable (u.MeetsClean t) :=
  inferInstanceAs (Decidable (∀ status ∈ u.status?, _))

end TaskUpdate

/-- Every statement that writes a status meets a row without what it would leave behind. -/
def MeetsCleanRows (s : RunState) (_ : Nat) : RunOp → Prop
  | .sql (.updateTask id u _ _) => ∀ t ∈ s.db.tasks.get id, u.MeetsClean t
  | _ => True

instance MeetsCleanRows.decidable (s : RunState) (i : Nat) : DecidablePred (MeetsCleanRows s i) := by
  intro op
  unfold MeetsCleanRows
  split <;> infer_instance

/-! ### One statement -/

theorem isCoherent_of_free {u : TaskUpdate} {t : Task} (ht : t.IsCoherent) (hstatus : u.status? = none)
    (hcompleted : (u.apply t).completedAt = t.completedAt)
    (hreason : (u.apply t).blockedReason = t.blockedReason) :
    (u.apply t).IsCoherent ↔ u.MeetsClean t := by
  have hkeep : (u.apply t).status = t.status := by rw [TaskUpdate.apply_status, hstatus, Option.getD_none]
  refine ⟨fun _ status hmem => ?_, fun _ => ?_⟩
  · rw [hstatus] at hmem
    cases hmem
  · rw [Task.isCoherent_iff, hkeep, hcompleted, hreason]
    exact t.isCoherent_iff.mp ht

/-- A coherent row is left coherent exactly where the statement meets a clean one. -/
theorem isCoherent_apply_iff {u : TaskUpdate} (hupdate : ServerUpdate u) {t : Task}
    (ht : t.IsCoherent) : (u.apply t).IsCoherent ↔ u.MeetsClean t := by
  cases hupdate
  case edit => exact isCoherent_of_free ht rfl rfl rfl
  case stamp => exact isCoherent_of_free ht rfl rfl rfl
  case completion => exact isCoherent_of_free ht rfl rfl rfl
  case orch => exact isCoherent_of_free ht rfl rfl rfl
  case brief => exact isCoherent_of_free ht rfl rfl rfl
  case injectBrief => exact isCoherent_of_free ht rfl rfl rfl
  case injectDescription => exact isCoherent_of_free ht rfl rfl rfl
  case createdByTask => exact isCoherent_of_free ht rfl rfl rfl
  case assignment => exact isCoherent_of_free ht rfl rfl rfl
  case progress => exact isCoherent_of_free ht rfl rfl rfl
  case callback req at_ now =>
    cases hsuccess : req.success <;>
      simp [Task.isCoherent_iff, TaskUpdate.MeetsClean, TaskUpdate.apply, TaskPatch.apply,
        TaskUpdate.status?, TaskUpdate.clearsCompletion, TaskUpdate.clearsReason,
        TaskCallbackRequest.patch, hsuccess]
  all_goals
    simp [Task.isCoherent_iff, TaskUpdate.MeetsClean, TaskUpdate.apply, TaskPatch.apply,
      TaskUpdate.status?, TaskUpdate.clearsCompletion, TaskUpdate.clearsReason,
      TaskDispatchController.claimPatch, OrchController.parkPatch]

theorem coherent_update_iff {s : RunState} {i : Nat} {id : String} {u : TaskUpdate}
    {seen : Option Task} (hupdate : ServerUpdate u) (hs : Coherent s) :
    MeetsCleanRows s i (.sql (.updateTask id u none seen)) ↔
      Coherent (RunOp.exec (.sql (.updateTask id u none seen)) s) := by
  refine ⟨fun hclean t ht => ?_, fun hafter t ht => ?_⟩
  · obtain ⟨t', ht', rfl⟩ := (@Op.mem_exec_updateTask s.db id u seen t).mp ht
    by_cases hid : t'.id = id
    · rw [if_pos hid, isCoherent_apply_iff hupdate (hs t' ht')]
      exact hclean t' (Table.get_eq_some_iff.mpr ⟨ht', hid⟩)
    · rw [if_neg hid]
      exact hs t' ht'
  · obtain ⟨ht, hid⟩ := Table.get_eq_some_iff.mp ht
    have hmem : u.apply t ∈ (Op.exec (.updateTask id u none seen) s.db).tasks :=
      (@Op.mem_exec_updateTask s.db id u seen (u.apply t)).mpr ⟨t, ht, (if_pos hid).symm⟩
    exact (isCoherent_apply_iff hupdate (hs t ht)).mp (hafter _ hmem)

theorem coherent_insertTask {s : RunState} {t : Task} (hs : Coherent s)
    (hcompleted : t.completedAt.isSome = true ↔ t.status = .done)
    (hreason : t.blockedReason.isSome = true → t.status = .blocked) :
    Coherent (RunOp.exec (.sql (.insertTask t)) s) := by
  intro t' ht'
  have hmem : t' ∈ ((Op.insertTask t).exec s.db).tasks := ht'
  rw [Op.exec] at hmem
  split at hmem
  · rename_i haccepts
    rw [Db.acceptsTask, Bool.and_eq_true, Option.isNone_iff_eq_none] at haccepts
    rcases (Table.mem_insert haccepts.1).mp hmem with hmem | rfl
    · exact hs t' hmem
    · exact ⟨hcompleted, hreason⟩
  · exact hs t' hmem

/-- A statement of the server keeps the rows coherent exactly where it meets clean ones. -/
theorem coherent_exec_iff {s : RunState} {i : Nat} {op : RunOp} (hop : ServerRunOp op)
    (hs : Coherent s) : MeetsCleanRows s i op ↔ Coherent (op.exec s) := by
  cases op with
  | poll | post | note => exact ⟨fun _ => hs, fun _ => trivial⟩
  | sql op =>
    cases hop
    case update id u seen hupdate => exact coherent_update_iff hupdate hs
    case insert =>
      exact ⟨fun _ => coherent_insertTask hs (by simp) (by simp), fun _ => trivial⟩
    case delete id => exact ⟨fun _ t ht => hs t (Table.mem_erase.mp ht).1, fun _ => trivial⟩
    case free hfree =>
      have hsame : Coherent (RunOp.exec (.sql op) s) := by
        intro t ht
        rw [RunOp.exec, (hfree.exec s.db).1] at ht
        exact hs t ht
      refine ⟨fun _ => hsame, fun _ => ?_⟩
      cases op
      case updateTask => cases hfree
      all_goals trivial

/-- Whatever the coroutines of the server and the order of their steps: the rows of the tasks are coherent
in every state they come by exactly when every statement that writes a status meets a row without what it
would leave behind. -/
theorem coherent_iff (calls : Nat → ServerCall) (s : RunState) (hs : Coherent s) (schedule : List Nat) :
    (∀ k, Coherent ((serverPool calls s).run RunOp.exec id ((schedule.take k).map .run)).state) ↔
      Pool.Along RunOp.exec id MeetsCleanRows (serverPool calls s) (schedule.map .run) := by
  have hstep : ∀ s i op, ServerRunOp op → True → Coherent s →
      (MeetsCleanRows s i op ↔ Coherent (op.exec s)) := fun _ _ _ hop _ hs => coherent_exec_iff hop hs
  exact (Pool.along_iff_forall (fun s i op hop hF hs => (hstep s i op hop hF hs).mp) hstep
    (each_serverPool calls s) hs hs (Pool.along_true _)).symm

/-! ### A finished task that is blocked -/

/-- A working task and a blocked one. -/
def inProgressDb : Db where
  bundles := (∅ : Table Bundle).insert { id := "bun_1", cookbookId := some "cb_1" }
  tasks := ((∅ : Table Task).insert
    { id := "task_1", bundleId := "bun_1", status := .working, claimedByAgentId := some "agent_1" }).insert
    { id := "task_2", bundleId := "bun_1", status := .blocked, blockedReason := some "stuck" }

/-- The first task is done, and then blocked; a review is asked for of the second one. -/
def statusCalls (n : Nat) : ServerCall :=
  let operator : CallerContext := { accountId := legacyAccountId }
  match n with
  | 0 => .request 0 (.status "task_1" "done" none) operator (pathDraws 'a')
  | 1 => .request 0 (.status "task_1" "blocked" (some "late")) operator (pathDraws 'b')
  | _ => .request 0 (.events "task_2" { type := "needs_review", actorId := "agent_2" }) operator
      (pathDraws 'c')

def statusPool : Pool Nat RunState RunOp Exn Unit :=
  serverPool statusCalls ⟨inProgressDb, { bundleId := "bun_1" }⟩

/-- Until it is blocked all is well. -/
theorem coherent_until_blocked :
    (∀ k, Coherent (statusPool.run RunOp.exec id
      (((List.replicate 7 0).take k).map .run)).state) ∧
    (statusPool.run RunOp.exec id ((List.replicate 7 0).map .run)).state.db.statusOf "task_1" =
      some .done :=
  ⟨(coherent_iff statusCalls ⟨inProgressDb, { bundleId := "bun_1" }⟩ (by decide +kernel)
    (List.replicate 7 0)).mpr (by decide +kernel), by decide +kernel⟩

/-- Each request runs by itself: the blocked task keeps its completion time, the one that waits for its
review the reason it was blocked for. -/
theorem leftovers_of_status :
    Coherent ⟨inProgressDb, { bundleId := "bun_1" }⟩ ∧
    ((statusPool.run RunOp.exec id
        ((List.replicate 7 0 ++ List.replicate 7 1).map .run)).state.db.tasks.get "task_1").map
      (fun t => (t.status, t.completedAt.isSome)) = some (.blocked, true) ∧
    ((statusPool.run RunOp.exec id ((List.replicate 18 2).map .run)).state.db.tasks.get "task_2").map
      (fun t => (t.status, t.blockedReason)) = some (.blockedOnReview, some "stuck") ∧
    ¬ Coherent (statusPool.run RunOp.exec id
      ((List.replicate 7 0 ++ List.replicate 7 1).map .run)).state ∧
    ¬ Coherent (statusPool.run RunOp.exec id ((List.replicate 18 2).map .run)).state := by
  decide +kernel

end Krewhub
