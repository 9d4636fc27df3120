import Krewhub.Python.Text
import Krewhub.Services.Auth
import Krewhub.Services.Cascade

/-!
# The task endpoints

The endpoints of `routes/tasks.py` that write the task row. `TaskRequest` is one request to any of
them and `TaskRequest.handle` what the endpoint does with it.
-/

namespace Krewhub

/-- `raise HTTPException(status_code, detail)`. -/
def httpError {α : Type} (status : Nat) (detail : String) : Sql α := .raise (.http status detail)

/-- `TaskRepo.get`, or 404. -/
def taskOr404 (taskId : String) : Sql Task := do
  match ← TaskRepo.get taskId with
  | none => httpError 404 "Task not found"
  | some task => return task

/-- `BundleRepo.get`, or 404. -/
def bundleOr404 (bundleId : String) : Sql Bundle := do
  match ← BundleRepo.get bundleId with
  | none => httpError 404 "Bundle not found"
  | some bundle => return bundle

/-- `except SessionTokenMismatch: raise HTTPException(409, …)`. -/
def sessionMismatchAs409 {α : Type} (c : Sql α) : Sql α :=
  c.tryCatch fun e => match e with
    | .sessionTokenMismatch _ => some (httpError 409 "Session token mismatch")
    | _ => none

def parkForReviewIfNeeded (task : Task) (eventTypes : List String) (d : Draws) : Sql Unit :=
  if "needs_review" ∉ eventTypes then return
  else if task.status ∈ [.done, .cancelled, .blockedOnReview] then return
  else do
    let updated ← TaskRepo.update task.id { status := some .blockedOnReview } none (some task)
      (d.sub 0)
    TaskService.recordUpdated updated

structure PostEventRequest extends BatchEventItem where
  sessionToken : Option String := none
  deriving DecidableEq, Repr

def postTaskEvent (taskId : String) (req : PostEventRequest) (caller : CallerContext) (d : Draws) :
    Sql Event := do
  let task ← taskOr404 taskId
  authorizeTaskMutation caller task
  let _ ← bundleOr404 task.bundleId
  let facts ← parsed req.facts
  let codeRefs ← parsed req.codeRefs
  let type ← enumMember (EventType.ofText req.type) req.type
  let actorType ← enumMember (ActorType.ofText req.actorType) req.actorType
  let event ← sessionMismatchAs409 <| TaskService.postEvent taskId
    { type := type
      actorId := req.actorId
      actorType := actorType
      body := req.body
      payload := req.payload
      facts := facts
      codeRefs := codeRefs
      visibility := req.visibility } req.sessionToken (d.sub 0)
  parkForReviewIfNeeded task [req.type] (d.sub 1)
  return event

def postTaskEventsBatch (taskId : String) (events : List BatchEventItem)
    (sessionToken : Option String) (caller : CallerContext) (d : Draws) : Sql (List Event) := do
  let task ← taskOr404 taskId
  authorizeTaskMutation caller task
  let _ ← bundleOr404 task.bundleId
  let created ← sessionMismatchAs409 <|
    TaskService.postEventsBatch taskId events sessionToken (d.sub 0)
  parkForReviewIfNeeded task (events.map (·.type)) (d.sub 1)
  return created

def updateTaskStatus (taskId status : String) (blockedReason : Option String)
    (caller : CallerContext) (d : Draws) : Sql Task := do
  let task ← taskOr404 taskId
  authorizeTaskMutation caller task
  let status ← enumMember (TaskStatus.ofText status) status
  let updated ←
    if status = .done then TaskService.markDone taskId (d.sub 0)
    else if status = .blocked then
      TaskService.markBlocked taskId (orElseText blockedReason "Blocked") (d.sub 0)
    else httpError 400 s!"Cannot set status to {status.text}"
  match updated with
  | none => httpError 404 "Task not found"
  | some task => return task

/-- `claim_task`, with the sandbox of the bundle where the task has none. -/
def claimTask (taskId agentId : String) (caller : CallerContext) (d : Draws) : Sql Task := do
  let task ← taskOr404 taskId
  authorizeTaskMutation caller task
  let bundle ← bundleOr404 task.bundleId
  match ← TaskService.claimTask taskId agentId bundle.cookbookId (d.sub 0) with
  | none => httpError 400 "Cannot claim task. Check status and dependencies."
  | some updated =>
    if orElseText updated.sandboxId "" = "" then
      match bundle.sandboxId with
      | none => return updated
      | some sandboxId =>
        return if sandboxId = "" then updated else { updated with sandboxId := some sandboxId }
    else return updated

/-- `PostTaskCompletionRequest`. -/
structure CompletionRequest where
  sessionId : Option String := none
  workDir : Option String := none
  artifacts : String := "\x7b\x7d"
  report : Option Report := none
  deriving DecidableEq, Repr

def postTaskCompletion (taskId : String) (req : CompletionRequest) (caller : CallerContext) :
    Sql Task := do
  let task ← taskOr404 taskId
  authorizeTaskMutation caller task
  .perform (.updateTask taskId (.completion req.sessionId req.workDir req.artifacts req.report)
    none none) fun _ => ()
  Sql.commit
  match ← TaskRepo.get taskId with
  | none => httpError 500 "Task disappeared after update"
  | some updated => return updated

def cancelTask (depth : Nat) (taskId : String) (caller : CallerContext) (d : Draws) :
    Sql (Task × CascadeSummary) := do
  let task ← taskOr404 taskId
  authorizeTaskMutation caller task
  match ← TaskService.cancelTask taskId (d.sub 0) with
  | none => httpError 400 s!"Cannot cancel task in status '{task.status.text}'"
  | some updated =>
    let (cascade, _) ← cascadeOnTaskTermination depth taskId [] (d.sub 1)
    return (updated, cascade)

def appendTaskFollowup (taskId prompt : String) (caller : CallerContext) (d : Draws) :
    Sql (Option Task) := do
  let prompt := Text.strip prompt
  if prompt = "" then httpError 400 "empty_prompt"
  match ← TaskRepo.get taskId with
  | none => httpError 404 "task_not_found"
  | some task =>
    authorizeTaskMutation caller task
    match ← BundleRepo.get task.bundleId with
    | none => httpError 404 "bundle_not_found"
    | some bundle =>
      let sequence ← EventRepo.nextSequence (some taskId)
      let event : Event :=
        { id := d.hexId "evt_" 12
          cookbookId := bundle.cookbookId
          bundleId := some task.bundleId
          taskId := some taskId
          type := .agentReply
          actorId := caller.accountId
          actorType := .human
          body := prompt
          payload := some { text := some prompt, rest := "human_followup" }
          sequence := sequence
          visibility := "user"
          createdAt := d.clock }
      Sql.checked (.insertEvent event) (·.acceptsEvent event) "events"
      if task.status = .done then
        .perform (.updateTask taskId .followupReopen none (some task)) fun _ => ()
      Sql.commit
      TaskRepo.get taskId

/-- The description a blocked task is reopened with. -/
def answeredDescription (task : Task) (accountId answer : String) : String :=
  let block := s!"\n[OPERATOR ({accountId}) ANSWER]\n{answer}"
  match task.description with
  | none => block
  | some text => if text = "" then block else s!"{Text.rstrip text}\n{block}"

def postTaskHitlAnswer (taskId answer : String) (caller : CallerContext) (d : Draws) :
    Sql (Option Task) := do
  let answer := Text.strip answer
  if answer = "" then httpError 400 "empty_answer"
  let task ← taskOr404 taskId
  authorizeTaskMutation caller task
  if task.status ≠ .blocked then httpError 400 s!"task is {task.status.text}, not blocked"
  let cookbookId ← TaskService.cookbookIdForBundle task.bundleId
  let hasCookbook := orElseText cookbookId "" ≠ ""
  if hasCookbook then
    let _ ← TaskService.postEvent taskId
      { type := .prompt, actorId := caller.accountId, actorType := .human, body := answer,
        payload := some { rest := "hitl answer" } } none (d.sub 0)
  let updated ← TaskRepo.update taskId
    { status := some .open_
      description := some (answeredDescription task caller.accountId answer)
      clearClaim := true
      clearBlockedReason := true } none (some task) (d.sub 1)
  if updated.isSome && hasCookbook then Sql.record
  return updated

def editTask (taskId : String) (title description : Option String)
    (dependsOnTaskIds : Option (List String)) (caller : CallerContext) (d : Draws) : Sql Task := do
  let task ← taskOr404 taskId
  authorizeTaskMutation caller task
  match ← TaskService.editTask taskId title description dependsOnTaskIds (d.sub 0) with
  | none => httpError 404 "Task not found"
  | some updated => return updated

def removeTask (depth : Nat) (taskId : String) (caller : CallerContext) (d : Draws) :
    Sql CascadeSummary := do
  let task ← taskOr404 taskId
  authorizeTaskMutation caller task
  if !(← TaskService.removeTask taskId) then
    httpError 400 "Cannot remove task (not found or not open)"
  let (cascade, _) ← cascadeOnTaskTermination depth taskId [] (d.sub 0)
  return cascade

structure TaskReviewRequest where
  action : String
  reason : Option String := none
  diffSummary : Option String := none
  deriving DecidableEq, Repr

/-- The description a rejected task goes on with; `none` leaves it as it is. -/
def rejectedDescription (task : Task) (req : TaskReviewRequest) (action accountId : String) :
    Option String :=
  let reason := orElseText req.reason ""
  if action = "reject" ∧ reason ≠ "" then
    some (Text.strip (Text.rstrip (task.description.getD "") ++
      s!"\n\n[REVIEW REJECTED by {accountId}]\n{reason}"))
  else none

def reviewTask (taskId : String) (req : TaskReviewRequest) (caller : CallerContext) (d : Draws) :
    Sql (Option Task) := do
  let action := Text.lower (Text.strip req.action)
  if action ∉ ["approve", "reject"] then httpError 400 "action must be 'approve' or 'reject'"
  let task ← taskOr404 taskId
  let _ ← requireBundleOwner task.bundleId caller
  if task.status ≠ .blockedOnReview then
    httpError 400 s!"task is {task.status.text}, not blocked_on_review"
  let review : TaskReview :=
    { id := d.hexId "rev_" 12
      taskId := taskId
      action := action
      reason := req.reason
      diffSummary := req.diffSummary
      decidedBy := caller.accountId
      decidedAt := d.clock }
  Sql.checked (.insertReview review) (fun db => (db.reviews.get review.id).isNone) "task_reviews"
  let updated ← TaskRepo.update taskId
    { status := some .working
      description := rejectedDescription task req action caller.accountId } none (some task)
    (d.sub 0)
  Sql.commit
  TaskService.recordUpdated updated
  return updated

/-! ### Requests -/

inductive TaskRequest where
  | events (taskId : String) (req : PostEventRequest)
  | eventsBatch (taskId : String) (events : List BatchEventItem) (sessionToken : Option String)
  | status (taskId status : String) (blockedReason : Option String)
  | claim (taskId agentId : String)
  | completion (taskId : String) (req : CompletionRequest)
  | cancel (taskId : String)
  | followup (taskId prompt : String)
  | hitlAnswer (taskId answer : String)
  | edit (taskId : String) (title description : Option String)
      (dependsOnTaskIds : Option (List String))
  | review (taskId : String) (req : TaskReviewRequest)
  deriving DecidableEq, Repr

/-- One request of a caller; `depth` is the recursion the interpreter allows. -/
def TaskRequest.handle (depth : Nat) (req : TaskRequest) (caller : CallerContext) (d : Draws) :
    Sql Unit :=
  match req with
  | .events taskId req => discard (postTaskEvent taskId req caller d)
  | .eventsBatch taskId items token => discard (postTaskEventsBatch taskId items token caller d)
  | .status taskId value reason => discard (updateTaskStatus taskId value reason caller d)
  | .claim taskId agentId => discard (claimTask taskId agentId caller d)
  | .completion taskId req => discard (postTaskCompletion taskId req caller)
  | .cancel taskId => discard (cancelTask depth taskId caller d)
  | .followup taskId prompt => discard (appendTaskFollowup taskId prompt caller d)
  | .hitlAnswer taskId answer => discard (postTaskHitlAnswer taskId answer caller d)
  | .edit taskId title description deps =>
      discard (editTask taskId title description deps caller d)
  | .review taskId req => discard (reviewTask taskId req caller d)

theorem run_taskOr404_bind {α : Type} {taskId : String} {task : Task} {db : Db}
    (htask : db.tasks.get taskId = some task) (f : Task → Sql α) :
    (taskOr404 taskId >>= f).run Op.exec db = (f task).run Op.exec db := by
  rw [taskOr404, Coro.bind_assoc, TaskRepo.run_get_bind, htask]
  rfl

theorem keeps_taskOr404 {R : Db → Db → Prop} [IsPreorder Db R] {α : Type} {taskId : String}
    {f : Task → Sql α} {db : Db}
    (h : ∀ task, db.tasks.get taskId = some task → Sql.Keeps R (f task) db) :
    Sql.Keeps R (taskOr404 taskId >>= f) db := by
  rw [taskOr404, Coro.bind_assoc]
  refine TaskRepo.keeps_get ?_
  cases htask : db.tasks.get taskId with
  | none => exact refl_of R db
  | some task => exact h task htask

theorem run_discard {α : Type} (c : Sql α) (db : Db) :
    ((discard c).run Op.exec db).2 = (c.run Op.exec db).2 := by
  show ((c >>= fun _ => pure ()).run Op.exec db).2 = _
  rw [Coro.run_bind]
  rcases c.run Op.exec db with ⟨e | a, db'⟩ <;> rfl

theorem run_discard_of_error {α : Type} {c : Sql α} {e : Exn} {db db' : Db}
    (h : c.run Op.exec db = (.error e, db')) :
    ((discard c).run Op.exec db).1 = .error e := by
  show ((c >>= fun _ => pure ()).run Op.exec db).1 = _
  rw [Coro.run_bind_error Op.exec h]

/-! ### What the endpoints write -/

/-- What the endpoints do that leave the prompt of a task alone: the events, the cascade, and the
updates of the rows, each with the status the endpoint has found. -/
structure WorkOps (P : Op → Prop) : Prop extends CascadeOps P where
  events : ∀ taskId, TaskService.EventOps P taskId
  park : ∀ taskId (seen : Task) now, seen.status ∉ [TaskStatus.done, .cancelled, .blockedOnReview] →
    P (.updateTask taskId (.patch { status := some .blockedOnReview } now) none (some seen))
  finish : ∀ taskId (seen : Task) now now', P (.updateTask taskId (.patch
    { status := some .done, completedAt := some now, clearBlockedReason := true } now') none
    (some seen))
  block : ∀ taskId (seen : Task) reason now, P (.updateTask taskId (.patch
    { status := some .blocked, blockedReason := some reason } now) none (some seen))
  claim : ∀ taskId agentId (seen : Task) now now', seen.status = .open_ → P (.updateTask taskId (.patch
    { status := some .claimed, claimedByAgentId := some agentId, claimedAt := some now } now')
    none (some seen))
  completion : ∀ taskId sessionId workDir artifacts report, P (.updateTask taskId
    (.completion sessionId workDir artifacts report) none none)
  followup : ∀ taskId (seen : Task), seen.status = .done →
    P (.updateTask taskId .followupReopen none (some seen))

/-- What a request to a task endpoint does. -/
structure RequestOps (P : Op → Prop) : Prop extends WorkOps P where
  answer : ∀ taskId (seen : Task) accountId answer now, seen.status = .blocked →
    P (.updateTask taskId (.patch
      { status := some .open_, description := some (answeredDescription seen accountId answer),
        clearClaim := true, clearBlockedReason := true } now) none (some seen))
  edit : ∀ taskId title description deps now, P (.updateTask taskId (.patch
    { title := title, description := description, dependsOnTaskIds := deps } now) none none)
  review : ∀ review, P (.insertReview review)
  verdict : ∀ taskId (seen : Task) req action accountId now, seen.status = .blockedOnReview →
    P (.updateTask taskId (.patch
      { status := some .working, description := rejectedDescription seen req action accountId } now)
      none (some seen))

/-- A property of every update of a task that its revocations, events and reviews have too. -/
theorem RequestOps.of_updates {P : Op → Prop} (hplain : PlainOps P)
    (hupdate : ∀ id u seen, P (.updateTask id u none seen)) (hrevoke : ∀ id now, P (.revokeLink id now))
    (hevent : ∀ event, P (.insertEvent event)) (hreview : ∀ review, P (.insertReview review)) :
    RequestOps P where
  toPlainOps := hplain
  revoke := hrevoke
  cancel _ _ _ _ := hupdate _ _ _
  unblock _ _ _ _ := hupdate _ _ _
  events _ := ⟨fun _ => hupdate _ _ _, fun _ _ _ => hupdate _ _ _, hevent⟩
  park _ _ _ _ := hupdate _ _ _
  finish _ _ _ _ := hupdate _ _ _
  block _ _ _ _ := hupdate _ _ _
  claim _ _ _ _ _ _ := hupdate _ _ _
  completion _ _ _ _ _ := hupdate _ _ _
  followup _ _ _ := hupdate _ _ _
  answer _ _ _ _ _ _ := hupdate _ _ _
  edit _ _ _ _ _ := hupdate _ _ _
  review := hreview
  verdict _ _ _ _ _ _ _ := hupdate _ _ _

section Every

variable {P : Op → Prop}

section Plain

variable (hP : PlainOps P)
include hP

theorem every_taskOr404 (taskId : String) : (taskOr404 taskId).Every P := by
  refine .bind (TaskRepo.every_get hP taskId) fun found => ?_
  cases found <;> trivial

omit hP in
theorem every_taskFound (updated : Option Task) :
    Coro.Every P (match updated with
      | none => httpError 404 "Task not found"
      | some task => pure task : Sql Task) := by
  cases updated <;> trivial

theorem every_bundleOr404 (bundleId : String) : (bundleOr404 bundleId).Every P := by
  refine .bind (BundleRepo.every_get hP bundleId) fun found => ?_
  cases found <;> trivial

omit hP in
theorem every_sessionMismatchAs409 {α : Type} {c : Sql α} (hc : c.Every P) :
    (sessionMismatchAs409 c).Every P := by
  refine hc.tryCatch fun e c' hc' => ?_
  cases e
  case sessionTokenMismatch =>
    rw [← Option.some.inj hc']
    trivial
  all_goals cases hc'

theorem every_parkForReviewIfNeeded {task : Task} (eventTypes : List String) (d : Draws)
    (hpark : ∀ now, task.status ∉ [TaskStatus.done, .cancelled, .blockedOnReview] →
      P (.updateTask task.id (.patch { status := some .blockedOnReview } now) none (some task))) : (parkForReviewIfNeeded task eventTypes d).Every P := by
  unfold parkForReviewIfNeeded
  split
  · trivial
  · split
    · trivial
    · rename_i hstatus
      refine .bind (TaskRepo.every_update hP (hpark _ hstatus)) fun _ => ?_
      exact TaskService.every_recordUpdated hP _

end Plain

section Work

variable (hP : WorkOps P)
include hP

theorem every_postTaskEvent (taskId : String) (req : PostEventRequest) (caller : CallerContext)
    (d : Draws) : (postTaskEvent taskId req caller d).Every P := by
  have hplain := hP.toPlainOps
  refine .bind (every_taskOr404 hplain _) fun task => ?_
  refine .bind (every_authorizeTaskMutation hplain _ _) fun _ => ?_
  refine .bind (every_bundleOr404 hplain _) fun _ => ?_
  refine .bind (TaskService.every_parsed _) fun _ => .bind (TaskService.every_parsed _) fun _ => ?_
  refine .bind (TaskService.every_enumMember _ _) fun _ => ?_
  refine .bind (TaskService.every_enumMember _ _) fun _ => ?_
  refine .bind (every_sessionMismatchAs409 (TaskService.every_postEvent hplain (hP.events _) _ _ _))
    fun _ => ?_
  exact .bind (every_parkForReviewIfNeeded hplain _ _ fun now => hP.park _ _ now)
    fun _ => trivial

theorem every_postTaskEventsBatch (taskId : String) (events : List BatchEventItem)
    (sessionToken : Option String) (caller : CallerContext) (d : Draws) :
    (postTaskEventsBatch taskId events sessionToken caller d).Every P := by
  have hplain := hP.toPlainOps
  refine .bind (every_taskOr404 hplain _) fun task => ?_
  refine .bind (every_authorizeTaskMutation hplain _ _) fun _ => ?_
  refine .bind (every_bundleOr404 hplain _) fun _ => ?_
  refine .bind (every_sessionMismatchAs409
    (TaskService.every_postEventsBatch hplain (hP.events _) _ _ _)) fun _ => ?_
  exact .bind (every_parkForReviewIfNeeded hplain _ _ fun now => hP.park _ _ now)
    fun _ => trivial

theorem every_updateTaskStatus (taskId value : String) (blockedReason : Option String)
    (caller : CallerContext) (d : Draws) :
    (updateTaskStatus taskId value blockedReason caller d).Every P := by
  have hplain := hP.toPlainOps
  refine .bind (every_taskOr404 hplain _) fun task => ?_
  refine .bind (every_authorizeTaskMutation hplain _ _) fun _ => ?_
  refine .bind (TaskService.every_enumMember _ _) fun status => ?_
  dsimp only
  split
  · exact .bind (TaskService.every_markDone hplain (fun _ _ _ => hP.finish _ _ _ _) _) every_taskFound
  · split
    · exact .bind (TaskService.every_markBlocked hplain (fun _ _ => hP.block _ _ _ _) _) every_taskFound
    · trivial

theorem every_claimTask (taskId agentId : String) (caller : CallerContext) (d : Draws) :
    (claimTask taskId agentId caller d).Every P := by
  have hplain := hP.toPlainOps
  refine .bind (every_taskOr404 hplain _) fun task => ?_
  refine .bind (every_authorizeTaskMutation hplain _ _) fun _ => ?_
  refine .bind (every_bundleOr404 hplain _) fun bundle => ?_
  refine .bind (TaskService.every_claimTask hplain (hP.claim _) (hP.events taskId).event _ _ _)
    fun claimed => ?_
  cases claimed with
  | none => trivial
  | some updated =>
    dsimp only
    split
    · cases bundle.sandboxId <;> trivial
    · trivial

theorem every_postTaskCompletion (taskId : String) (req : CompletionRequest)
    (caller : CallerContext) : (postTaskCompletion taskId req caller).Every P := by
  have hplain := hP.toPlainOps
  refine .bind (every_taskOr404 hplain _) fun task => ?_
  refine .bind (every_authorizeTaskMutation hplain _ _) fun _ => ?_
  refine .bind ((Coro.every_perform _ _).mpr (hP.completion _ _ _ _ _)) fun _ => ?_
  refine .bind (Sql.every_commit hplain) fun _ => ?_
  refine .bind (TaskRepo.every_get hplain _) fun updated => ?_
  cases updated <;> trivial

theorem every_cancelTask (depth : Nat) (taskId : String) (caller : CallerContext) (d : Draws) :
    (cancelTask depth taskId caller d).Every P := by
  have hplain := hP.toPlainOps
  refine .bind (every_taskOr404 hplain _) fun task => ?_
  refine .bind (every_authorizeTaskMutation hplain _ _) fun _ => ?_
  refine .bind (TaskService.every_cancelTask hplain (hP.cancel _) _) fun updated => ?_
  cases updated with
  | none => trivial
  | some _ => exact .bind (every_cascade hP.toCascadeOps _ _ _ _) fun _ => trivial

theorem every_appendTaskFollowup (taskId prompt : String) (caller : CallerContext) (d : Draws) :
    (appendTaskFollowup taskId prompt caller d).Every P := by
  have hplain := hP.toPlainOps
  refine .ite (fun _ => trivial) fun _ => ?_
  refine .bind (TaskRepo.every_get hplain _) fun found => ?_
  cases found with
  | none => trivial
  | some task =>
    refine .bind (every_authorizeTaskMutation hplain _ _) fun _ => ?_
    refine .bind (BundleRepo.every_get hplain _) fun found => ?_
    cases found with
    | none => trivial
    | some bundle =>
      refine .bind (EventRepo.every_nextSequence hplain _) fun _ => ?_
      refine .bind (Sql.every_checked ((hP.events taskId).event _) _ _) fun _ => ?_
      have htail : Coro.Every P (do Sql.commit; TaskRepo.get taskId) :=
        .bind (Sql.every_commit hplain) fun _ => TaskRepo.every_get hplain _
      refine .ite (fun hdone => ?_) fun _ => htail
      exact .bind ((Coro.every_perform _ _).mpr (hP.followup _ _ hdone)) fun _ => htail

theorem every_postTaskHitlAnswer {taskId : String}
    (hanswer : ∀ (seen : Task) accountId answer now, seen.status = .blocked →
      P (.updateTask taskId (.patch
        { status := some .open_, description := some (answeredDescription seen accountId answer),
          clearClaim := true, clearBlockedReason := true } now) none (some seen)))
    (answer : String) (caller : CallerContext) (d : Draws) :
    (postTaskHitlAnswer taskId answer caller d).Every P := by
  have hplain := hP.toPlainOps
  refine .ite (fun _ => trivial) fun _ => ?_
  refine .bind (every_taskOr404 hplain _) fun task => ?_
  refine .bind (every_authorizeTaskMutation hplain _ _) fun _ => ?_
  refine .ite (fun _ => trivial) fun hblocked => ?_
  rw [ne_eq, not_not] at hblocked
  refine .bind (TaskService.every_cookbookIdForBundle hplain _) fun _ => ?_
  have htail : ∀ (answer : String) (record : Bool) (d : Draws), Coro.Every P (do
      let updated ← TaskRepo.update taskId
        { status := some .open_,
          description := some (answeredDescription task caller.accountId answer),
          clearClaim := true, clearBlockedReason := true } none (some task) d
      if updated.isSome && record then Sql.record
      return updated) := by
    intro answer record d
    refine .bind (TaskRepo.every_update hplain (hanswer _ _ _ _ hblocked)) fun _ => ?_
    exact .ite (fun _ => .bind (Sql.every_record hplain) fun _ => trivial) fun _ => trivial
  refine .ite (fun _ => ?_) fun _ => htail _ _ _
  exact .bind (TaskService.every_postEvent hplain (hP.events _) _ _ _) fun _ => htail _ _ _

theorem every_editTask {taskId : String} {title description : Option String}
    {dependsOnTaskIds : Option (List String)}
    (hedit : ∀ now, P (.updateTask taskId (.patch
      { title := title, description := description, dependsOnTaskIds := dependsOnTaskIds } now) none
      none)) (caller : CallerContext) (d : Draws) :
    (editTask taskId title description dependsOnTaskIds caller d).Every P := by
  have hplain := hP.toPlainOps
  refine .bind (every_taskOr404 hplain _) fun task => ?_
  refine .bind (every_authorizeTaskMutation hplain _ _) fun _ => ?_
  refine .bind (TaskService.every_editTask hplain hedit _) fun updated => ?_
  cases updated <;> trivial

theorem every_reviewTask {taskId : String} {req : TaskReviewRequest} {caller : CallerContext}
    (hreview : ∀ review, P (.insertReview review))
    (hverdict : ∀ (seen : Task) now, seen.status = .blockedOnReview →
      P (.updateTask taskId (.patch
        { status := some .working
          description := rejectedDescription seen req (Text.lower (Text.strip req.action))
            caller.accountId } now) none (some seen)))
    (d : Draws) : (reviewTask taskId req caller d).Every P := by
  have hplain := hP.toPlainOps
  refine .ite (fun _ => trivial) fun _ => ?_
  refine .bind (every_taskOr404 hplain _) fun task => ?_
  refine .bind (every_requireBundleOwner hplain _ _) fun _ => ?_
  refine .ite (fun _ => trivial) fun hparked => ?_
  rw [ne_eq, not_not] at hparked
  refine .bind (Sql.every_checked (hreview _) _ _) fun _ => ?_
  refine .bind (TaskRepo.every_update hplain (hverdict _ _ hparked)) fun _ => ?_
  refine .bind (Sql.every_commit hplain) fun _ => ?_
  exact .bind (TaskService.every_recordUpdated hplain _) fun _ => trivial

end Work

theorem every_discard {α : Type} {c : Sql α} (hc : c.Every P) : (discard c).Every P :=
  hc.bind fun _ => trivial

theorem TaskRequest.every_handle (hP : RequestOps P) (depth : Nat) (req : TaskRequest) (caller : CallerContext)
    (d : Draws) : (req.handle depth caller d).Every P := by
  cases req <;> rw [handle] <;> refine every_discard ?_
  case events => exact every_postTaskEvent hP.toWorkOps _ _ _ _
  case eventsBatch => exact every_postTaskEventsBatch hP.toWorkOps _ _ _ _ _
  case status => exact every_updateTaskStatus hP.toWorkOps _ _ _ _ _
  case claim => exact every_claimTask hP.toWorkOps _ _ _ _
  case completion => exact every_postTaskCompletion hP.toWorkOps _ _ _
  case cancel => exact every_cancelTask hP.toWorkOps _ _ _ _
  case followup => exact every_appendTaskFollowup hP.toWorkOps _ _ _ _
  case hitlAnswer => exact every_postTaskHitlAnswer hP.toWorkOps (hP.answer _) _ _ _
  case edit => exact every_editTask hP.toWorkOps (hP.edit _ _ _ _) _ _
  case review => exact every_reviewTask hP.toWorkOps hP.review (fun _ _ => hP.verdict _ _ _ _ _ _) _

end Every

end Krewhub
