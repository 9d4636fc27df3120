import Krewhub.Base.Interleave
import Krewhub.Controllers.LinkReconciler
import Krewhub.Controllers.Orch
import Krewhub.Graph.Cycle
import Krewhub.Routes.Bundles
import Krewhub.Routes.Callbacks
import Krewhub.Routes.Links

/-!
# The server

The coroutines that write the tasks of a bundle and their events once the bundle is there: the requests
to the endpoints, the passes of the controllers, and the cycles of a graph run. `ServerOp` lists the
statements they may run, with what each writes into a row; every coroutine runs no others.
-/

namespace Krewhub

/-- One request, one pass of a controller, or one cycle of a graph run. -/
inductive ServerCall where
  | request (depth : Nat) (req : TaskRequest) (caller : CallerContext) (d : Draws)
  | remove (depth : Nat) (taskId : String) (caller : CallerContext) (d : Draws)
  | callback (req : TaskCallbackRequest) (d : Draws)
  | hook (req : HookIngestRequest) (d : Draws)
  | progress (taskId json : String) (caller : CallerContext)
  | projection (taskId invocationId body actorId : String) (d : Draws)
  | addTask (bundleId : String) (req : AddTaskRequest) (provisioned : Option String)
      (caller : CallerContext) (d : Draws)
  | createLink (fromTaskId : String) (req : CreateLinkRequest) (caller : CallerContext) (d : Draws)
  | revokeLink (linkId : String) (caller : CallerContext) (d : Draws)
  | links (d : Draws)
  | orch (cfg : OrchConfig) (d : Draws)
  | taskChanged (cfg : OrchConfig) (taskId : String) (d : Draws)
  | dispatch (d : Draws)
  | presence (heartbeatTimeout : Nat) (d : Draws)
  | cycle (deps : OrchestratorDeps) (step : StepCall) (d : Draws)
  | retention (now : Nat)

namespace ServerCall

/-- What the coroutine with this number does. -/
def program (n : Nat) : ServerCall → Runtime Unit
  | request depth req caller d => Runtime.sql (req.handle depth caller d)
  | remove depth taskId caller d => Runtime.sql (discard (removeTask depth taskId caller d))
  | callback req d => Runtime.sql (discard (taskCallback req d))
  | hook req d => Runtime.sql (discard (ingestHook req d))
  | progress taskId json caller => Runtime.sql (postTaskProgress taskId json caller)
  | projection taskId invocationId body actorId d =>
    Runtime.sql (projectInvocation taskId invocationId body actorId d)
  | addTask bundleId req provisioned caller d =>
    Runtime.sql (discard (addTaskToBundle bundleId req provisioned caller d))
  | createLink fromTaskId req caller d =>
    Runtime.sql (discard (Krewhub.createLink fromTaskId req caller d))
  | revokeLink linkId caller d => Runtime.sql (discard (Krewhub.revokeLink linkId caller d))
  | links d => Runtime.sql (LinkReconcileController.reconcile d)
  | orch cfg d => Runtime.sql (OrchController.reconcile cfg d)
  | taskChanged cfg taskId d => Runtime.sql (OrchController.reconcileTaskId cfg taskId d)
  | dispatch d => Runtime.sql (TaskDispatchController.reconcile d)
  | presence timeout d => Runtime.sql (PresenceController.reconcile timeout d)
  | cycle deps step d => discard (dispatchCycle n deps step d)
  | retention now => Runtime.sql (discard (EventRepo.deleteExpired now))

end ServerCall

/-! ### The statements -/

/-- The `UPDATE tasks` statements of the server. -/
inductive ServerUpdate : TaskUpdate → Prop where
  | work (now : Nat) : ServerUpdate (.patch { status := some .working } now)
  | park (now : Nat) : ServerUpdate (.patch { status := some .blockedOnReview } now)
  | finish (at_ now : Nat) : ServerUpdate (.patch
      { status := some .done, completedAt := some at_, clearBlockedReason := true } now)
  | block (reason : String) (now : Nat) :
      ServerUpdate (.patch { status := some .blocked, blockedReason := some reason } now)
  | claim (agentId : String) (at_ now : Nat) : ServerUpdate (.patch
      { status := some .claimed, claimedByAgentId := some agentId, claimedAt := some at_ } now)
  | dispatch (agentId : String) (at_ now : Nat) :
      ServerUpdate (.patch (TaskDispatchController.claimPatch agentId at_) now)
  | cancel (now : Nat) :
      ServerUpdate (.patch { status := some .cancelled, clearBlockedReason := true } now)
  | answer (description : String) (now : Nat) : ServerUpdate (.patch
      { status := some .open_, description := some description, clearClaim := true,
        clearBlockedReason := true } now)
  | verdict (description : Option String) (now : Nat) :
      ServerUpdate (.patch { status := some .working, description := description } now)
  | callback (req : TaskCallbackRequest) (at_ now : Nat) : ServerUpdate (.patch (req.patch at_) now)
  | halt (cfg : OrchConfig) (orch : OrchMarks) (now : Nat) :
      ServerUpdate (.patch (OrchController.parkPatch cfg orch) now)
  | reopen (now : Nat) : ServerUpdate (.reopenForRerun now)
  | followup : ServerUpdate .followupReopen
  | edit (title description : Option String) (deps : Option (List String)) (now : Nat) :
      ServerUpdate (.patch
        { title := title, description := description, dependsOnTaskIds := deps } now)
  | stamp (token : String) : ServerUpdate (.stampSessionToken token)
  | completion (sessionId workDir : Option String) (artifacts : String) (report : Option Report) :
      ServerUpdate (.completion sessionId workDir artifacts report)
  | orch (marks : OrchMarks) : ServerUpdate (.orch marks)
  | brief (json : Brief) : ServerUpdate (.brief json)
  | injectBrief (link : Link) (json : Brief) : ServerUpdate (.injectBrief link json)
  | injectDescription (link : Link) (description : String) :
      ServerUpdate (.injectDescription link description)
  | createdByTask (taskId : String) : ServerUpdate (.createdByTask taskId)
  | assignment (runtimeId sandboxId : Option String) : ServerUpdate (.assignment runtimeId sandboxId)
  | progress (json : String) : ServerUpdate (.progress json)

/-- The statement is on neither the tasks nor the bundles. -/
def Op.IsTaskFree : Op → Prop
  | .insertTask _ | .updateTask .. | .deleteTask _ | .insertBundle _ | .updateBundle .. => False
  | _ => True

theorem Op.IsTaskFree.exec {op : Op} (h : op.IsTaskFree) (db : Db) :
    (op.exec db).tasks = db.tasks ∧ (op.exec db).bundles = db.bundles := by
  cases op
  case insertTask => cases h
  case updateTask => cases h
  case deleteTask => cases h
  case insertBundle => cases h
  case updateBundle => cases h
  case insertEvent event reported =>
    rw [Op.exec]
    split <;> exact ⟨rfl, rfl⟩
  all_goals exact ⟨rfl, rfl⟩

/-- The statements of the server. -/
inductive ServerOp : Op → Prop where
  | update (id : String) {u : TaskUpdate} (seen : Option Task) (hupdate : ServerUpdate u) :
      ServerOp (.updateTask id u none seen)
  | insert (id bundleId title : String) (description : Option String) (deps : List String) (now : Nat) :
      ServerOp (.insertTask
        { id, bundleId, title, description, status := .open_, dependsOnTaskIds := deps,
          updatedAt := some now })
  | delete (id : String) : ServerOp (.deleteTask id)
  | free {op : Op} (hfree : op.IsTaskFree) : ServerOp op

/-- The operation is a statement of the server, or none at all. -/
def ServerRunOp : RunOp → Prop
  | .sql op => ServerOp op
  | _ => True

namespace ServerOp

theorem event (event : Event) (reported : Option Link) : ServerOp (.insertEvent event reported) :=
  .free trivial

theorem plainOps : PlainOps ServerOp :=
  ⟨.free trivial, .free trivial, .free trivial⟩

theorem eventOps (taskId : String) : TaskService.EventOps ServerOp taskId where
  stamp token := .update _ _ (.stamp token)
  work _ now _ := .update _ _ (.work now)
  event e := event e none

theorem requestOps : RequestOps ServerOp where
  toPlainOps := plainOps
  revoke _ _ := .free trivial
  cancel _ _ _ _ := .update _ _ (.cancel _)
  unblock _ _ _ _ := .update _ _ (.edit none none _ _)
  events := eventOps
  park _ _ _ _ := .update _ _ (.park _)
  finish _ _ _ _ := .update _ _ (.finish _ _)
  block _ _ _ _ := .update _ _ (.block _ _)
  claim _ _ _ _ _ _ := .update _ _ (.claim _ _ _)
  completion _ _ _ _ _ := .update _ _ (.completion _ _ _ _)
  followup _ _ _ := .update _ _ .followup
  answer _ _ _ _ _ _ := .update _ _ (.answer _ _)
  edit _ _ _ _ _ := .update _ _ (.edit _ _ _ _)
  review _ := .free trivial
  verdict _ _ _ _ _ _ _ := .update _ _ (.verdict _ _)

theorem orchOps : OrchController.OrchOps ServerOp where
  toPlainOps := plainOps
  events := eventOps
  marks _ _ _ := .update _ _ (.orch _)
  park _ _ _ _ _ := .update _ _ (.halt _ _ _)
  reopen _ _ _ := .update _ _ (.reopen _)

theorem injection (link : Link) (seen : Task) (block : String) :
    ServerOp (.updateTask seen.id (LinkReconcileController.injection link seen block) none
      (some seen)) := by
  refine .update _ _ ?_
  rw [LinkReconcileController.injection]
  split
  · split
    · exact .injectBrief _ _
    · exact .injectDescription _ _
  · exact .injectDescription _ _

theorem linkOps : LinkReconcileController.LinkOps ServerOp where
  toPlainOps := plainOps
  fire _ _ := .free trivial
  inject := injection
  report e link := event e (some link)
  events := eventOps

theorem dispatchOps : TaskDispatchController.DispatchOps ServerOp where
  toPlainOps := plainOps
  post _ _ := .free trivial
  claim _ _ _ _ _ _ _ := .update _ _ (.dispatch _ _ _)

theorem presenceOps : PresenceController.PresenceOps ServerOp where
  toPlainOps := plainOps
  offline _ := .free trivial
  release _ _ _ := .update _ _ (.reopen _)

theorem taskCreationOps : TaskCreationOps ServerOp where
  toPlainOps := plainOps
  create := .insert
  brief _ json := .update _ _ (.brief json)
  assign _ _ _ := .update _ _ (.assignment _ _)

theorem linkCreationOps : LinkCreationOps ServerOp where
  toPlainOps := plainOps
  create := .insert
  brief _ json := .update _ _ (.brief json)
  depend _ _ _ := .update _ _ (.edit none none _ _)
  link _ _ _ := .free trivial
  provenance _ _ := .update _ _ (.createdByTask _)

theorem cycleOps : CycleOps ServerRunOp where
  plain op hop := by
    rcases hop with rfl | rfl | rfl <;> exact ServerOp.free trivial
  poll _ _ _ := trivial
  post _ _ _ _ _ := trivial
  note _ _ := trivial
  claim _ _ _ _ := ServerOp.update _ _ (.dispatch _ _ _)
  reopen _ _ _ := ServerOp.update _ _ (.reopen _)

end ServerOp

theorem every_removeTask {P : Op → Prop} (hP : CascadeOps P) (hdelete : ∀ id, P (.deleteTask id))
    (depth : Nat) (taskId : String) (caller : CallerContext) (d : Draws) :
    (removeTask depth taskId caller d).Every P := by
  have hplain := hP.toPlainOps
  refine .bind (every_taskOr404 hplain _) fun task => ?_
  refine .bind (every_authorizeTaskMutation hplain _ _) fun _ => ?_
  refine .bind (TaskService.every_removeTask hplain (hdelete _)) fun removed => ?_
  exact .ite (fun _ => by trivial) fun _ => .bind (every_cascade hP _ _ _ _) fun _ => trivial

/-- Whatever it reads, a coroutine of the server runs only statements of the server. -/
theorem ServerCall.every_program (n : Nat) (call : ServerCall) :
    (call.program n).Every ServerRunOp := by
  have hsql : ∀ c : Sql Unit, c.Every ServerOp → (Runtime.sql c).Every ServerRunOp :=
    fun c hc => Runtime.every_sql hc fun _ hop => hop
  have hplain := ServerOp.plainOps
  have hevent := fun event => ServerOp.event event none
  cases call <;> rw [program]
  case cycle deps step d =>
    exact .bind (every_dispatchCycle ServerOp.cycleOps n deps step d) fun _ => trivial
  all_goals refine hsql _ ?_
  case request => exact TaskRequest.every_handle ServerOp.requestOps _ _ _ _
  case remove =>
    exact every_discard (every_removeTask ServerOp.requestOps.toCascadeOps .delete _ _ _ _)
  case callback =>
    exact every_discard (every_taskCallback hplain (fun _ _ _ _ => .update _ _ (.callback _ _ _)) hevent)
  case hook => exact every_discard (every_ingestHook hplain hevent)
  case progress => exact every_postTaskProgress hplain (.update _ _ (.progress _))
  case projection => exact every_projectInvocation hplain hevent
  case addTask => exact every_discard (every_addTaskToBundle ServerOp.taskCreationOps _ _ _ _ _)
  case createLink => exact every_discard (every_createLink ServerOp.linkCreationOps _ _ _ _)
  case revokeLink =>
    exact every_discard (every_revokeLink hplain (fun _ => .free trivial)
      fun _ _ _ => .update _ _ (.edit none none _ _))
  case links => exact LinkReconcileController.every_reconcile _ ServerOp.linkOps
  case orch => exact OrchController.every_reconcile ServerOp.orchOps _ _
  case taskChanged => exact OrchController.every_reconcileTaskId ServerOp.orchOps _ _ _
  case dispatch => exact TaskDispatchController.every_reconcile ServerOp.dispatchOps _
  case presence => exact PresenceController.every_reconcile ServerOp.presenceOps _ _
  case retention =>
    refine every_discard (.bind ((Coro.every_perform _ _).mpr (.free trivial)) fun _ => ?_)
    exact .bind (Sql.every_commit hplain) fun _ => trivial

/-! ### The server -/

/-- Coroutines of the server side by side; none has begun. -/
def serverPool (calls : Nat → ServerCall) (s : RunState) : Pool Nat RunState RunOp Exn Unit :=
  .init (fun n => (calls n).program n) s

theorem each_serverPool (calls : Nat → ServerCall) (s : RunState) :
    Pool.Each (fun _ => ServerRunOp) (serverPool calls s) :=
  Pool.each_init (fun n => (calls n).every_program n) s

end Krewhub
