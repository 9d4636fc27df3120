import Krewhub.Routes.Tasks

/-!
# Callbacks, hooks and progress

The endpoints beside the task routes that write task rows or put events onto a task tape: the callback of
a gateway, the ingestion of hook events, the progress of a running task and the projection of an answer
to an invocation. The texts they render are taken as given.
-/

namespace Krewhub

/-! ### The callback of a gateway -/

structure TaskCallbackRequest where
  taskId : String
  agentId : String
  success : Bool
  summary : String := ""
  fullOutput : String := ""
  blockedReason : Option String := none
  facts : List String := []
  codeRefs : List String := []
  deriving DecidableEq, Repr

namespace TaskCallbackRequest

/-- What the callback writes into the row. -/
def patch (req : TaskCallbackRequest) (now : Nat) : TaskPatch where
  status := some (if req.success then .done else .blocked)
  completedAt := if req.success then some now else none
  blockedReason := if req.success then none else req.blockedReason

def eventBody (req : TaskCallbackRequest) : String :=
  orElseText (some req.fullOutput) (orElseText (some req.summary)
    (if req.success then "Task completed successfully"
    else "Task blocked: " ++ orElseText req.blockedReason "unknown"))

end TaskCallbackRequest

def taskCallback (req : TaskCallbackRequest) (d : Draws) : Sql (Option Task × Event) := do
  match ← TaskRepo.get req.taskId with
  | none => httpError 404 "Task not found"
  | some task =>
    if task.status ≠ .claimed ∧ task.status ≠ .working then
      httpError 400 s!"Task {req.taskId} is not in progress (status={task.status.text})"
    let updated ← TaskRepo.update req.taskId (req.patch d.clock) none (some task) (d.sub 0)
    let cookbookId ← TaskService.cookbookIdForBundle task.bundleId
    let event : Event :=
      { id := (d.sub 1).hexId "evt_" 8
        cookbookId := cookbookId
        bundleId := some task.bundleId
        taskId := some req.taskId
        type := .milestone
        actorId := req.agentId
        actorType := .agent
        body := req.eventBody
        facts := req.facts
        codeRefs := req.codeRefs
        createdAt := d.clock }
    EventRepo.create event
    TaskService.recordUpdated updated
    return (updated, event)

/-! ### Hooks -/

/-- `_HOOK_NAME_TO_TYPE`, with its default. -/
def hookType (name : String) : EventType :=
  if name = "SessionStart" then .sessionStart
  else if name = "Stop" ∨ name = "SessionEnd" then .sessionEnd
  else if name = "UserPromptSubmit" then .prompt
  else .toolUse

/-- `HookIngestRequest`, with the summary that becomes the body. -/
structure HookIngestRequest where
  hookEventName : String
  taskId : Option String := none
  bundleId : Option String := none
  cookbookId : Option String := none
  agentId : String := "spawned-agent"
  body : String := ""
  deriving DecidableEq, Repr

/-- The bundle and the cookbook of a hook event, those of its task where it does not name them. -/
def hookScope (req : HookIngestRequest) : Sql (Option String × Option String) := do
  let taskId := orElseText req.taskId ""
  let hasBundle := orElseText req.bundleId "" ≠ ""
  let hasCookbook := orElseText req.cookbookId "" ≠ ""
  if taskId = "" ∨ hasBundle ∧ hasCookbook then return (req.bundleId, req.cookbookId)
  match ← TaskRepo.get taskId with
  | none => return (req.bundleId, req.cookbookId)
  | some task =>
    let bundleId := if hasBundle then req.bundleId else some task.bundleId
    if hasCookbook then return (bundleId, req.cookbookId)
    match ← BundleRepo.get task.bundleId with
    | none => return (bundleId, req.cookbookId)
    | some bundle => return (bundleId, bundle.cookbookId)

def ingestHook (req : HookIngestRequest) (d : Draws) : Sql Event := do
  let (bundleId, cookbookId) ← hookScope req
  if orElseText cookbookId "" = "" then
    httpError 400 "Cannot resolve cookbook_id (provide cookbook_id, bundle_id, or task_id)"
  let event : Event :=
    { id := d.hexId "evt_" 8
      cookbookId := cookbookId
      bundleId := bundleId
      taskId := req.taskId
      type := hookType req.hookEventName
      actorId := req.agentId
      actorType := .hook
      body := BundleRepo.truncate 240 req.body
      createdAt := d.clock }
  EventRepo.create event
  Sql.record
  return event

/-! ### Progress and projections -/

/-- `post_task_progress`; `json` is the progress with its percentage filled in. -/
def postTaskProgress (taskId json : String) (caller : CallerContext) : Sql Unit := do
  let task ← taskOr404 taskId
  authorizeTaskMutation caller task
  .perform (.updateTask taskId (.progress json) none none) fun _ => ()
  Sql.commit
  let updated ← TaskRepo.get taskId
  TaskService.recordUpdated updated

/-- An event that projects the answer to this invocation. -/
def projects (taskId invocationId : String) (e : Event) : Bool :=
  e.taskId == some taskId && e.type == .agentReply && e.actorType == .human &&
    (e.payload.map (·.rest)) == some s!"delegate_answer {invocationId}"

/-- `_project_invocation_to_task_tape`; `body` is the rendered envelope. -/
def projectInvocation (taskId invocationId body actorId : String) (d : Draws) : Sql Unit := do
  if ← Sql.select fun db => db.events.rows.any (projects taskId invocationId) then return
  match ← Sql.select fun db =>
      (db.tasks.get taskId).bind fun t => (db.bundles.get t.bundleId).map fun b => (t.bundleId, b.cookbookId)
    with
  | none => return
  | some (bundleId, cookbookId) =>
    if Text.strip body = "" then return
    let sequence ← EventRepo.nextSequence (some taskId)
    let event : Event :=
      { id := d.hexId "evt_" 12
        cookbookId := cookbookId
        bundleId := some bundleId
        taskId := some taskId
        type := .agentReply
        actorId := orElseText (some actorId) "system"
        actorType := .human
        body := body
        payload := some { text := some body, rest := s!"delegate_answer {invocationId}" }
        sequence := sequence
        visibility := "user"
        createdAt := d.clock }
    Sql.checked (.insertEvent event) (·.acceptsEvent event) "events"
    Sql.commit

/-! ### What these endpoints write -/

section Every

variable {P : Op → Prop} (hP : PlainOps P)
include hP

theorem every_taskCallback {req : TaskCallbackRequest} {d : Draws}
    (hpatch : ∀ (seen : Task) now now', seen.status = .claimed ∨ seen.status = .working →
      P (.updateTask req.taskId (.patch (req.patch now) now') none (some seen)))
    (hevent : ∀ event, P (.insertEvent event)) : (taskCallback req d).Every P := by
  refine .bind (TaskRepo.every_get hP _) fun found => ?_
  cases found with
  | none => trivial
  | some task =>
    refine .ite (fun _ => by trivial) fun hstatus => ?_
    have hactive : task.status = .claimed ∨ task.status = .working := by
      rw [not_and_or, not_not, not_not] at hstatus
      exact hstatus
    refine .bind (TaskRepo.every_update hP (hpatch _ _ _ hactive)) fun updated => ?_
    refine .bind (TaskService.every_cookbookIdForBundle hP _) fun _ => ?_
    refine .bind (EventRepo.every_create hP (hevent _)) fun _ => ?_
    exact .bind (TaskService.every_recordUpdated hP _) fun _ => trivial

theorem every_hookScope (req : HookIngestRequest) : (hookScope req).Every P := by
  refine .ite (fun _ => trivial) fun _ => .bind (TaskRepo.every_get hP _) fun found => ?_
  cases found with
  | none => trivial
  | some task =>
    refine .ite (fun _ => trivial) fun _ => .bind (BundleRepo.every_get hP _) fun found => ?_
    cases found <;> trivial

theorem every_ingestHook {req : HookIngestRequest} {d : Draws}
    (hevent : ∀ event, P (.insertEvent event)) : (ingestHook req d).Every P := by
  refine .bind (every_hookScope hP _) fun scope => .ite (fun _ => by trivial) fun _ => ?_
  refine .bind (EventRepo.every_create hP (hevent _)) fun _ => ?_
  exact .bind (Sql.every_record hP) fun _ => trivial

theorem every_postTaskProgress {taskId json : String} {caller : CallerContext}
    (hprogress : P (.updateTask taskId (.progress json) none none)) :
    (postTaskProgress taskId json caller).Every P := by
  refine .bind (every_taskOr404 hP _) fun task => ?_
  refine .bind (every_authorizeTaskMutation hP _ _) fun _ => ?_
  refine .bind ((Coro.every_perform _ _).mpr hprogress) fun _ => .bind (Sql.every_commit hP) fun _ => ?_
  exact .bind (TaskRepo.every_get hP _) fun _ => TaskService.every_recordUpdated hP _

theorem every_projectInvocation {taskId invocationId body actorId : String} {d : Draws}
    (hevent : ∀ event, P (.insertEvent event)) :
    (projectInvocation taskId invocationId body actorId d).Every P := by
  refine .bind (Sql.every_select hP _) fun _ => .ite (fun _ => by trivial) fun _ => ?_
  refine .bind (Sql.every_select hP _) fun scope => ?_
  cases scope with
  | none => trivial
  | some scope =>
    refine .ite (fun _ => by trivial) fun _ => .bind (EventRepo.every_nextSequence hP _) fun _ => ?_
    exact .bind (Sql.every_checked (hevent _) _ _) fun _ => Sql.every_commit hP

end Every

end Krewhub
