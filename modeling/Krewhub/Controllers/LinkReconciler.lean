import Krewhub.Python.Text
import Krewhub.Services.TaskService

/-!
# The link reconciler

`LinkReconcileController` carries output along links. A tick lists the links that are neither fired nor
revoked; the output of a finished upstream goes into the prompt of the downstream of a pipe, the report
of a finished downstream onto the tape of the upstream of any other link. `fired_at` is written by a
statement of its own after that.
-/

namespace Krewhub

namespace LinkReconcileController

def orchActor : String := "orch"

/-- `key: a, b, …`, left out when there is nothing to list. -/
def renderField (key : String) (vals : List String) : Option String :=
  if vals.isEmpty then none else some (key ++ ": " ++ ", ".intercalate vals)

/-- A report, compactly rendered. -/
def renderReport (report : Report) : String :=
  "\n".intercalate (("status: " ++ report.status.getD "?") :: [renderField "prs" report.prs,
    renderField "artifacts" report.artifacts, renderField "blockers" report.blockers,
    renderField "decisions_needed" report.decisionsNeeded].filterMap id)

/-- The newest `agent_reply` of a task. -/
def newestReply (db : Db) (taskId : String) : Option Event :=
  (db.events.rows.filter fun e => e.taskId == some taskId && e.type == .agentReply).foldl
    (fun newest e => if newest.all (·.sequence < e.sequence) then some e else newest) none

/-- The text of a reply, or its body; `none` when both are blank. -/
def replyText (reply : Event) : Option String :=
  let text := (reply.payload.bind (·.text)).getD ""
  let body := if Text.strip text = "" then reply.body else text
  if body = "" then none else some body

def upstreamOutput (task : Task) (payloadMap : PayloadMap) : Sql (Option String) :=
  if payloadMap.source.getD "report" = "report" ∧ task.report.isSome then
    return task.report.map renderReport
  else do
    let reply ← Sql.select (newestReply · task.id)
    return reply.bind replyText

def markLinkFired (link : Link) (d : Draws) : Sql Unit := do
  .perform (.fireLink link d.clock) fun _ => ()
  Sql.commit

/-- What a pipe appends to the prompt of its downstream. -/
def pipeBlock (upstream : Task) (link : Link) (content : Option String) : String :=
  s!"[UPSTREAM OUTPUT · {upstream.id} via link {link.id}]\n" ++
    content.getD s!"(upstream task {upstream.id} completed with no rendered output)"

/-- The description with a block appended. -/
def appendedDescription (description : Option String) (block : String) : String :=
  Text.strip (Text.rstrip (description.getD "") ++ "\n\n" ++ block)

/-- The brief with a block appended to its context. -/
def appendedBrief (brief : Brief) (block : String) : Brief :=
  { brief with context := some (Text.strip (brief.context.getD "" ++ "\n\n" ++ block)) }

/-- The statement that appends a block to the brief context or the description. -/
def injection (link : Link) (downstream : Task) (block : String) : TaskUpdate :=
  match downstream.brief with
  | some brief =>
    if link.payloadMap.target = some "brief_context" then .injectBrief link (appendedBrief brief block)
    else .injectDescription link (appendedDescription downstream.description block)
  | none => .injectDescription link (appendedDescription downstream.description block)

/-- The upstream has finished, and been accepted if it carries a brief. -/
def isDelivered (task : Task) : Bool :=
  task.status == .done && (task.brief.isNone || (task.orch.getD {}).acceptedAt.isSome)

/-- `_maybe_fire_pipe` once the upstream has finished. -/
def firePipe (link : Link) (upstream : Task) (d : Draws) : Sql Unit := do
  match ← TaskRepo.get link.toTaskId with
  | none => markLinkFired link d
  | some downstream =>
    if downstream.status = .done ∨ downstream.status = .cancelled then markLinkFired link d
    else
      let content ← upstreamOutput upstream link.payloadMap
      .perform (.updateTask downstream.id
        (injection link downstream (pipeBlock upstream link content)) none (some downstream)) fun _ => ()
      markLinkFired link d
      match ← TaskRepo.get downstream.id with
      | none => return
      | some fresh =>
        Sql.record
        TaskService.narrate orchActor fresh .log
          s!"orch: pipe {link.id} fired — output of {upstream.id} injected into this task's prompt"
          { linkId := some link.id, rest := "pipe_fired" } (d.sub 0)

def maybeFirePipe (link : Link) (d : Draws) : Sql Unit := do
  match ← TaskRepo.get link.fromTaskId with
  | none => return
  | some upstream => if isDelivered upstream then firePipe link upstream d else return

/-- The event that puts the report of a finished task onto the tape of another. -/
def reportEvent (link : Link) (child parent : Task) (cookbookId : Option String) (sequence : Nat)
    (content : Option String) (d : Draws) : Event where
  id := d.hexId "evt_" 12
  cookbookId := cookbookId
  bundleId := some parent.bundleId
  taskId := some parent.id
  type := .agentReply
  actorId := orchActor
  actorType := .human
  body := s!"[SUBAGENT REPORT · {child.id} via link {link.id}]\n" ++
    content.getD s!"(subagent task {child.id} completed with no rendered output)"
  payload := some { linkId := some link.id, rest := "subagent_report" }
  sequence := sequence
  visibility := "user"
  createdAt := d.clock

/-- `_maybe_flow_report` once the downstream has finished. -/
def flowReport (link : Link) (child : Task) (d : Draws) : Sql Unit := do
  match ← TaskRepo.get link.fromTaskId with
  | none => markLinkFired link d
  | some parent =>
    if parent.status = .cancelled then markLinkFired link d
    else
      let content ← upstreamOutput child link.payloadMap
      let cookbookId ← Sql.select fun db =>
        ((db.tasks.get parent.id).bind fun t => db.bundles.get t.bundleId).bind (·.cookbookId)
      let sequence ← EventRepo.nextSequence (some parent.id)
      let event := reportEvent link child parent cookbookId sequence content d
      Sql.checked (.insertEvent event (some link)) (·.acceptsEvent event) "events"
      markLinkFired link d
      let fresh ← TaskRepo.get parent.id
      TaskService.recordUpdated fresh

def maybeFlowReport (link : Link) (d : Draws) : Sql Unit := do
  match ← TaskRepo.get link.toTaskId with
  | none => markLinkFired link d
  | some child => if isDelivered child then flowReport link child d else return

/-- One link of a tick; an exception is logged and otherwise ignored. -/
def reconcileLink (link : Link) (d : Draws) : Sql Unit :=
  Coro.tryCatch (if link.kind = "pipe" then maybeFirePipe link d else maybeFlowReport link d)
    fun _ => some (pure ())

def reconcileLinks (d : Draws) : List Link → Sql Unit
  | [] => return
  | link :: links => do
    reconcileLink link (d.sub links.length)
    reconcileLinks d links

/-- The links that are neither fired nor revoked. -/
def pendingLinks (db : Db) : List Link :=
  db.links.rows.filter fun l => l.firedAt.isNone && l.revokedAt.isNone

def reconcile (d : Draws) : Sql Unit := do
  let links ← Sql.select pendingLinks
  reconcileLinks d links

/-! ### What a tick writes -/

section Every

variable {P : Op → Prop} (link : Link) (d : Draws) (hP : PlainOps P)
include hP

theorem every_upstreamOutput (task : Task) (payloadMap : PayloadMap) :
    (upstreamOutput task payloadMap).Every P :=
  .ite (fun _ => trivial) fun _ => .bind (Sql.every_select hP _) fun _ => trivial

theorem every_markLinkFired (hfire : ∀ now, P (.fireLink link now)) :
    (markLinkFired link d).Every P :=
  .bind ((Coro.every_perform _ _).mpr (hfire _)) fun _ => Sql.every_commit hP

theorem every_maybeFlowReport (hfire : ∀ now, P (.fireLink link now))
    (hevent : ∀ event, P (.insertEvent event (some link))) : (maybeFlowReport link d).Every P := by
  have hmark := every_markLinkFired link d hP hfire
  refine .bind (TaskRepo.every_get hP _) fun child => ?_
  cases child with
  | none => exact hmark
  | some child =>
    refine .ite (fun _ => ?_) fun _ => trivial
    refine .bind (TaskRepo.every_get hP _) fun parent => ?_
    cases parent with
    | none => exact hmark
    | some parent =>
      refine .ite (fun _ => hmark) fun _ => ?_
      refine .bind (every_upstreamOutput hP _ _) fun _ => ?_
      refine .bind (Sql.every_select hP _) fun _ => ?_
      refine .bind (EventRepo.every_nextSequence hP _) fun _ => ?_
      refine .bind (Sql.every_checked (hevent _) _ _) fun _ => .bind hmark fun _ => ?_
      exact .bind (TaskRepo.every_get hP _) fun _ => TaskService.every_recordUpdated hP _

/-- What comes after a pipe has fired. -/
theorem every_narrateFired (hevents : ∀ taskId, TaskService.EventOps P taskId) (upstream : Task) (taskId : String) :
    (do
      match ← TaskRepo.get taskId with
      | none => return
      | some fresh =>
        Sql.record
        TaskService.narrate orchActor fresh .log
          s!"orch: pipe {link.id} fired — output of {upstream.id} injected into this task's prompt"
          { linkId := some link.id, rest := "pipe_fired" } (d.sub 0) : Sql Unit).Every P := by
  refine .bind (TaskRepo.every_get hP _) fun fresh => ?_
  cases fresh with
  | none => trivial
  | some fresh =>
    exact .bind (Sql.every_record hP) fun _ => TaskService.every_narrate hP (hevents _) _ _ _ _ _

theorem every_maybeFirePipe (hfire : ∀ now, P (.fireLink link now))
    (hinject : ∀ (seen : Task) block,
      P (.updateTask seen.id (injection link seen block) none (some seen)))
    (hevents : ∀ taskId, TaskService.EventOps P taskId) : (maybeFirePipe link d).Every P := by
  have hmark := every_markLinkFired link d hP hfire
  refine .bind (TaskRepo.every_get hP _) fun upstream => ?_
  cases upstream with
  | none => trivial
  | some upstream =>
    refine .ite (fun _ => ?_) fun _ => trivial
    refine .bind (TaskRepo.every_get hP _) fun downstream => ?_
    cases downstream with
    | none => exact hmark
    | some downstream =>
      refine .ite (fun _ => hmark) fun _ => .bind (every_upstreamOutput hP _ _) fun _ => ?_
      refine .bind ((Coro.every_perform _ _).mpr (hinject _ _)) fun _ => .bind hmark fun _ => ?_
      exact every_narrateFired link d hP hevents upstream _

/-- What a tick does: inject the payload of a link, report, narrate and mark. -/
structure LinkOps (P : Op → Prop) : Prop extends PlainOps P where
  fire : ∀ link now, P (.fireLink link now)
  inject : ∀ link (seen : Task) block,
    P (.updateTask seen.id (injection link seen block) none (some seen))
  report : ∀ event link, P (.insertEvent event (some link))
  events : ∀ taskId, TaskService.EventOps P taskId

omit hP in
theorem every_reconcileLink (hops : LinkOps P) : (reconcileLink link d).Every P := by
  have hplain := hops.toPlainOps
  refine .tryCatch (.ite (fun _ => ?_) fun _ => ?_) fun e c' hc' => ?_
  · exact every_maybeFirePipe link d hplain (hops.fire _) (hops.inject _) hops.events
  · exact every_maybeFlowReport link d hplain (hops.fire _) fun event => hops.report event link
  · cases hc'
    trivial

omit link hP in
theorem every_reconcileLinks (hops : LinkOps P) (links : List Link) :
    (reconcileLinks d links).Every P := by
  induction links with
  | nil => trivial
  | cons link links ih => exact .bind (every_reconcileLink link _ hops) fun _ => ih

omit link hP in
theorem every_reconcile (hops : LinkOps P) : (reconcile d).Every P :=
  .bind (Sql.every_select hops.toPlainOps _) fun _ => every_reconcileLinks d hops _

end Every

end LinkReconcileController

/-- A pipe from a finished task to a blocked one. -/
def stagingPipe : Link where
  id := "link_1"
  bundleId := "bun_1"
  fromTaskId := "task_a"
  toTaskId := "task_b"
  kind := "pipe"

def pipedTask (status : TaskStatus) : Task where
  id := "task_b"
  bundleId := "bun_1"
  status := status
  description := some "Deploy."
  dependsOnTaskIds := ["task_a"]

def pipedDb (downstream : TaskStatus) : Db where
  bundles := (∅ : Table Bundle).insert { id := "bun_1" }
  tasks := ((∅ : Table Task).insert
    { id := "task_a", bundleId := "bun_1", status := .done,
      report := some { status := some "ok" } }).insert (pipedTask downstream)
  links := (∅ : Table Link).insert stagingPipe

end Krewhub
