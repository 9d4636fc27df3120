import Krewhub.Routes.Tasks
import Krewhub.Services.BundleService

/-!
# The bundle endpoints

The endpoints of `bundles.py` that create tasks. The role a caller has on a cookbook, the sandbox the
provider hands out and what the sandbox makes of graph code are given with the request.
-/

namespace Krewhub

/-- `CreateCookbookBundleRequest`. -/
structure CreateBundleRequest where
  prompt : String
  tasks : List CreateTaskInput := []
  autoplan : Bool := false
  deriving DecidableEq, Repr

/-- `UPDATE tasks SET brief_json = ?` for the inputs that carry one. -/
def writeBriefs : List (CreateTaskInput × Task) → Sql Unit
  | [] => return
  | (input, created) :: rest => do
    if let some brief := input.brief then
      .perform (.updateTask created.id (.brief brief) none none) fun _ => ()
    writeBriefs rest

/-- The runtime of the account that was last seen online. -/
def onlineRuntime (db : Db) (accountId : String) : Option String :=
  ((db.runtimes.rows.filter fun r => r.accountId == accountId && r.status == .online).mergeSort
    fun r r' => decide (r'.lastSeenAt ≤ r.lastSeenAt)).head?.map (·.id)

/-- `create_bundle_under_cookbook`; `role` is what `_require_role` does, `sandboxId` what
`create_for_bundle` returns, if it does. -/
def createBundleUnderCookbook (cookbookId : String) (req : CreateBundleRequest)
    (role : Except Exn Unit) (sandboxId : Option String) (caller : CallerContext) (d : Draws) :
    Sql (Bundle × List Task) := do
  match role with
  | .error e => .raise e
  | .ok () =>
    let (bundle, tasks) ← BundleService.createBundle cookbookId req.prompt caller.accountId req.tasks
      req.autoplan (d.sub 0)
    .perform (.updateBundle bundle.id (.owner caller.accountId) none) fun _ => ()
    writeBriefs (req.tasks.zip tasks)
    let runtimeId ← Sql.select (onlineRuntime · caller.accountId)
    match runtimeId with
    | none => pure ()
    | some id => .perform (.updateBundle bundle.id (.defaultRuntime id) none) fun _ => ()
    Sql.commit
    match sandboxId with
    | none => pure ()
    | some id => BundleRepo.setSandbox bundle.id id
    let returned : Bundle :=
      { bundle with
        ownerAccountId := some caller.accountId
        defaultAgentRuntimeId := runtimeId
        sandboxId := sandboxId }
    return (returned, tasks)

def attachBundleGraph (sandbox : GraphSandbox) (bundleId code createdBy : String)
    (caller : CallerContext) (d : Draws) : Sql (Bundle × List Task) := do
  let _ ← requireBundleOwner bundleId caller
  (BundleService.attachGraphArtifact sandbox bundleId code createdBy d).tryCatch fun e => match e with
    | .graphArtifact status detail => some (httpError status detail)
    | _ => none

structure AddTaskRequest where
  title : String
  description : Option String := none
  dependsOnTaskIds : List String := []
  brief : Option Brief := none
  deriving DecidableEq, Repr

/-- `add_task_to_bundle`; `provisioned` is the sandbox `create_for_task` returns, if it does. -/
def addTaskToBundle (bundleId : String) (req : AddTaskRequest) (provisioned : Option String)
    (caller : CallerContext) (d : Draws) : Sql Task := do
  let bundle ← requireBundleOwner bundleId caller
  if caller.authMethod ≠ "api_key" ∧ bundle.defaultAgentRuntimeId = none then
    httpError 400 "no_paired_agent"
  let task ← TaskService.addTask bundleId req.title req.description req.dependsOnTaskIds d
  match req.brief with
  | none => pure ()
  | some brief =>
    .perform (.updateTask task.id (.brief brief) none none) fun _ => ()
    Sql.commit
  if caller.authMethod = "api_key" ∨ bundle.defaultAgentRuntimeId = none then return task
  let sandboxId := bundle.sandboxId <|> provisioned
  .perform (.updateTask task.id (.assignment bundle.defaultAgentRuntimeId sandboxId) none none)
    fun _ => ()
  Sql.commit
  return { task with assignedRuntimeId := bundle.defaultAgentRuntimeId, sandboxId := sandboxId }

/-- What `add_task_to_bundle` does: a new task, its brief, its runtime. -/
structure TaskCreationOps (P : Op → Prop) : Prop extends PlainOps P where
  create : ∀ id bundleId title description deps now, P (.insertTask
    { id, bundleId, title, description, status := .open_, dependsOnTaskIds := deps,
      updatedAt := some now })
  brief : ∀ taskId brief, P (.updateTask taskId (.brief brief) none none)
  assign : ∀ taskId runtimeId sandboxId,
    P (.updateTask taskId (.assignment runtimeId sandboxId) none none)

theorem every_addTaskToBundle {P : Op → Prop} (hP : TaskCreationOps P) (bundleId : String)
    (req : AddTaskRequest) (provisioned : Option String) (caller : CallerContext) (d : Draws) :
    (addTaskToBundle bundleId req provisioned caller d).Every P := by
  have hplain := hP.toPlainOps
  refine .bind (every_requireBundleOwner hplain _ _) fun bundle => .ite (fun _ => by trivial) fun _ => ?_
  refine .bind (TaskService.every_addTask hplain fun _ => hP.create _ _ _ _ _ _) fun task => ?_
  have htail : ∀ _ : Unit, Coro.Every P (do
      if caller.authMethod = "api_key" ∨ bundle.defaultAgentRuntimeId = none then return task
      .perform (.updateTask task.id (.assignment bundle.defaultAgentRuntimeId
        (bundle.sandboxId <|> provisioned)) none none) fun _ => ()
      Sql.commit
      return { task with
        assignedRuntimeId := bundle.defaultAgentRuntimeId
        sandboxId := bundle.sandboxId <|> provisioned } : Sql Task) := by
    intro _
    refine .ite (fun _ => by trivial) fun _ => ?_
    refine .bind ((Coro.every_perform _ _).mpr (hP.assign _ _ _)) fun _ => ?_
    exact .bind (Sql.every_commit hplain) fun _ => trivial
  cases req.brief with
  | none => exact htail ()
  | some brief =>
    exact .bind ((Coro.every_perform _ _).mpr (hP.brief _ _)) fun _ =>
      .bind (Sql.every_commit hplain) htail

end Krewhub
