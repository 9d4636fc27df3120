import Krewhub.Base.Serial
import Krewhub.Routes.Tasks

/-!
# The review gate

A worker's `needs_review` event parks its task at `blocked_on_review`, and the bundle owner's verdict
is to be the only way on. Every endpoint but one keeps to that: `PATCH /tasks/{id}/status` asks no more
than `authorize_task_mutation` and looks at no status, so whoever may mutate the task, its own worker
included, can mark it done or blocked past the review.
-/

namespace Krewhub

/-- One request of one caller. -/
structure Call where
  caller : CallerContext
  request : TaskRequest
  draws : Draws

/-- The database after the request has completed. -/
def Call.apply (depth : Nat) (call : Call) (db : Db) : Db :=
  ((call.request.handle depth call.caller call.draws).run Op.exec db).2

/-- A task that leaves `blocked_on_review` leaves it by the verdict of the bundle owner. -/
def KeepsGate (depth : Nat) (db : Db) (call : Call) : Prop :=
  ∀ taskId, db.statusOf taskId = some .blockedOnReview →
    (call.apply depth db).statusOf taskId ≠ some .blockedOnReview →
      (∃ req, call.request = .review taskId req) ∧
        ∃ task ∈ db.tasks.get taskId, OwnsBundle db call.caller task.bundleId

/-- Only the runtime assigned to the task: case 2 of `authorize_task_mutation` and no other. -/
def RuntimeOnly (db : Db) (caller : CallerContext) (task : Task) : Prop :=
  AssignedRuntime db caller task ∧ caller.authMethod ≠ "api_key" ∧
    ¬ OwnsBundle db caller task.bundleId

/-- No calls of a caller who is only the runtime of a task take it out of `blocked_on_review`. -/
def WorkersHeld (depth : Nat) (db : Db) (calls : List Call) : Prop :=
  ∀ before own after, calls = before ++ own ++ after →
    ∀ caller task, (∀ call ∈ own, call.caller = caller) →
      task ∈ (Serial.after (Call.apply depth) db before).tasks.get task.id →
      RuntimeOnly (Serial.after (Call.apply depth) db before) caller task →
      task.status = .blockedOnReview →
        (Serial.after (Call.apply depth) db (before ++ own)).statusOf task.id =
          some .blockedOnReview

/-- `PATCH /tasks/{id}/status` with a status it accepts, on a task at the gate, by a caller it lets
through. -/
def Bypasses (db : Db) (call : Call) : Prop :=
  ∃ taskId value reason, call.request = .status taskId value reason ∧
    (value = "done" ∨ value = "blocked") ∧
    ∃ task ∈ db.tasks.get taskId, task.status = .blockedOnReview ∧ MayMutate db call.caller task

/-! ### Steps that keep tasks at the gate -/

/-- Every task at the gate stays there. -/
def KeepsReview (db db' : Db) : Prop :=
  ∀ taskId, db.statusOf taskId = some .blockedOnReview →
    db'.statusOf taskId = some .blockedOnReview

instance : IsPreorder Db KeepsReview where
  refl _ _ h := h
  trans _ _ _ hab hbc taskId h := hbc taskId (hab taskId h)

/-- Whatever the database, the operation keeps tasks at the gate. -/
def ReviewSafe (op : Op) : Prop := ∀ db, KeepsReview db (op.exec db)

theorem ReviewSafe.of_statusFree {op : Op} (h : op.IsStatusFree) : ReviewSafe op :=
  fun db taskId hreview => (h.statusOf db taskId).trans hreview

theorem ReviewSafe.update {taskId : String} {u : TaskUpdate} {expected : Option Nat}
    {seen : Option Task} (h : u.status? = none) :
    ReviewSafe (.updateTask taskId u expected seen) := .of_statusFree h

theorem plainOps_reviewSafe : PlainOps ReviewSafe :=
  ⟨.of_statusFree trivial, .of_statusFree trivial, .of_statusFree trivial⟩

theorem reviewSafe_insertEvent (event : Event) : ReviewSafe (.insertEvent event) :=
  .of_statusFree trivial

theorem keepsReview_of_every {α : Type} {c : Sql α} (h : c.Every ReviewSafe) (db : Db) :
    Sql.Keeps KeepsReview c db :=
  h.keeps (fun _ hop => hop) db

/-- An update of a task that is not at the gate. -/
theorem keepsReview_updateTask {db : Db} {taskId : String} {u : TaskUpdate}
    {expected : Option Nat} {seen : Option Task}
    (h : db.statusOf taskId ≠ some .blockedOnReview) :
    KeepsReview db (Op.exec (.updateTask taskId u expected seen) db) := by
  intro id hid
  rw [Op.statusOf_updateTask_of_ne, hid]
  rintro rfl
  exact h hid

theorem statusOf_of_get {db : Db} {taskId : String} {task : Task}
    (h : db.tasks.get taskId = some task) : db.statusOf taskId = some task.status := by
  rw [Db.statusOf, h, Option.map_some]

/-! ### The services -/

theorem keepsReview_startWorking {db : Db} {taskId : String} {task : Task}
    {cookbookId : Option String} {actorId : String} {actorType : Sql ActorType} {d : Draws}
    (hactor : actorType.Every ReviewSafe) (hstatus : db.statusOf taskId = some task.status) :
    Sql.Keeps KeepsReview (TaskService.startWorking taskId task cookbookId actorId actorType d) db := by
  unfold TaskService.startWorking
  split
  · exact refl_of KeepsReview db
  · rename_i hclaimed
    rw [ne_eq, not_not] at hclaimed
    refine Coro.Keeps.bind (TaskRepo.keeps_update (keepsReview_updateTask ?_))
      fun updated db' _ => ?_
    · rw [hstatus, hclaimed]
      decide
    · refine keepsReview_of_every ?_ db'
      split
      · refine .bind (Sql.every_record plainOps_reviewSafe) fun _ => .bind hactor fun _ => ?_
        refine .bind ?_ fun _ => Sql.every_record plainOps_reviewSafe
        exact EventRepo.every_create plainOps_reviewSafe (reviewSafe_insertEvent _)
      · trivial

theorem keepsReview_checkAndStampSessionToken (db : Db) (taskId : String)
    (sessionToken : Option String) :
    Sql.Keeps KeepsReview (TaskService.checkAndStampSessionToken taskId sessionToken) db :=
  keepsReview_of_every (TaskService.every_checkAndStampSessionToken plainOps_reviewSafe
    (fun _ => .update rfl) sessionToken) db

theorem keepsReview_postEvent (db : Db) (taskId : String) (spec : EventSpec)
    (sessionToken : Option String) (d : Draws) :
    Sql.Keeps KeepsReview (TaskService.postEvent taskId spec sessionToken d) db := by
  refine Coro.Keeps.bind (keepsReview_checkAndStampSessionToken db _ _) fun _ db₁ _ => ?_
  refine TaskRepo.keeps_get ?_
  cases htask : db₁.tasks.get taskId with
  | none => exact refl_of KeepsReview db₁
  | some task =>
    refine Sql.keeps_bind_plain (TaskService.every_cookbookIdForBundle plainOps_isPlain _)
      fun _ => ?_
    refine Coro.Keeps.bind (keepsReview_startWorking (by trivial) (statusOf_of_get htask))
      fun _ db₂ _ => ?_
    refine keepsReview_of_every (.bind (EventRepo.every_nextSequence plainOps_reviewSafe _)
      fun _ => ?_) db₂
    refine .bind (EventRepo.every_create plainOps_reviewSafe (reviewSafe_insertEvent _))
      fun _ => ?_
    exact .bind (Sql.every_record plainOps_reviewSafe) fun _ => trivial

theorem keepsReview_postEventsBatch (db : Db) (taskId : String) (events : List BatchEventItem)
    (sessionToken : Option String) (d : Draws) :
    Sql.Keeps KeepsReview (TaskService.postEventsBatch taskId events sessionToken d) db := by
  cases events with
  | nil => exact refl_of KeepsReview db
  | cons first events =>
    refine Coro.Keeps.bind (keepsReview_checkAndStampSessionToken db _ _) fun _ db₁ _ => ?_
    refine TaskRepo.keeps_get ?_
    cases htask : db₁.tasks.get taskId with
    | none => exact refl_of KeepsReview db₁
    | some task =>
      refine Sql.keeps_bind_plain (TaskService.every_cookbookIdForBundle plainOps_isPlain _)
        fun _ => ?_
      refine Coro.Keeps.bind (keepsReview_startWorking (TaskService.every_enumMember _ _)
        (statusOf_of_get htask)) fun _ db₂ _ => ?_
      exact keepsReview_of_every (TaskService.every_appendEvents plainOps_reviewSafe
        reviewSafe_insertEvent _ _ _ _ _) db₂

/-- A cancellation looks at the status right before it writes. -/
theorem keepsReview_cancelTask (db : Db) (taskId : String) (d : Draws) :
    Sql.Keeps KeepsReview (TaskService.cancelTask taskId d) db := by
  refine TaskRepo.keeps_get ?_
  cases htask : db.tasks.get taskId with
  | none => exact refl_of KeepsReview db
  | some task =>
    dsimp only
    split
    · exact refl_of KeepsReview db
    · rename_i hstatus
      refine Coro.Keeps.bind (TaskRepo.keeps_update (keepsReview_updateTask ?_))
        fun updated db' _ => ?_
      · rw [statusOf_of_get htask]
        intro hreview
        simp [Option.some.inj hreview] at hstatus
      · refine keepsReview_of_every (.bind ?_ fun _ => by trivial) db'
        exact TaskService.every_publishUpdated plainOps_reviewSafe updated

theorem keepsReview_claimTask (db : Db) (taskId agentId : String) (cookbookId : Option String)
    (d : Draws) :
    Sql.Keeps KeepsReview (TaskService.claimTask taskId agentId cookbookId d) db := by
  refine TaskRepo.keeps_get ?_
  cases htask : db.tasks.get taskId with
  | none => exact refl_of KeepsReview db
  | some task =>
    dsimp only
    split
    · exact refl_of KeepsReview db
    · rename_i hopen
      rw [ne_eq, not_not] at hopen
      refine Sql.keeps_bind_plain (Sql.every_select plainOps_isPlain _) fun active => ?_
      split
      · exact refl_of KeepsReview db
      · refine Sql.keeps_bind_plain (TaskService.every_depsDone plainOps_isPlain _) fun ready => ?_
        split
        · exact refl_of KeepsReview db
        · refine Sql.keeps_bind_plain (TaskService.every_cookbookIdForBundle plainOps_isPlain _)
            fun _ => ?_
          refine Coro.Keeps.bind (TaskRepo.keeps_update (keepsReview_updateTask ?_))
            fun updated db' _ => ?_
          · rw [statusOf_of_get htask, hopen]
            decide
          · refine keepsReview_of_every (.bind (EventRepo.every_create plainOps_reviewSafe
              (reviewSafe_insertEvent _)) fun _ => ?_) db'
            exact .bind (TaskService.every_recordUpdated plainOps_reviewSafe _) fun _ => by trivial

/-! ### The cascade -/

theorem cascadeKeeps_keepsReview : CascadeKeeps KeepsReview where
  revoke id now db := (show ReviewSafe (.revokeLink id now) from .of_statusFree trivial) db
  cancel taskId d db := keepsReview_cancelTask db taskId d
  unblock _ _ _ db _ := (ReviewSafe.update rfl) db

theorem keepsReview_cascade (depth : Nat) (db : Db) (taskId : String) (seen : List String)
    (d : Draws) : Sql.Keeps KeepsReview (cascadeOnTaskTermination depth taskId seen d) db :=
  keeps_cascade cascadeKeeps_keepsReview depth taskId seen d db

/-! ### The endpoints -/

theorem keepsReview_sessionMismatchAs409 {α : Type} {c : Sql α} {db : Db}
    (h : Sql.Keeps KeepsReview c db) : Sql.Keeps KeepsReview (sessionMismatchAs409 c) db := by
  refine Coro.Keeps.tryCatch h fun e c' hc' db' => ?_
  cases e <;> cases hc'
  exact refl_of KeepsReview db'

theorem keepsReview_park (db : Db) (task : Task) (eventTypes : List String) (d : Draws) :
    Sql.Keeps KeepsReview (parkForReviewIfNeeded task eventTypes d) db := by
  refine keepsReview_of_every (every_parkForReviewIfNeeded plainOps_reviewSafe _ _ ?_) db
  intro now _ db id hid
  rcases Op.statusOf_updateTask with heq | ⟨_, status, hstatus, heq⟩
  · rw [heq, hid]
  · rw [heq, ← hstatus]
    rfl

theorem keepsReview_postTaskEvent (db : Db) (taskId : String) (req : PostEventRequest)
    (caller : CallerContext) (d : Draws) :
    Sql.Keeps KeepsReview (postTaskEvent taskId req caller d) db := by
  refine keeps_taskOr404 fun task _ => keeps_authorize fun _ => ?_
  refine Sql.keeps_bind_plain (every_bundleOr404 plainOps_isPlain _) fun _ => ?_
  refine Sql.keeps_bind_plain (TaskService.every_parsed _) fun _ => ?_
  refine Sql.keeps_bind_plain (TaskService.every_parsed _) fun _ => ?_
  refine Sql.keeps_bind_plain (TaskService.every_enumMember _ _) fun _ => ?_
  refine Sql.keeps_bind_plain (TaskService.every_enumMember _ _) fun _ => ?_
  refine Coro.Keeps.bind (keepsReview_sessionMismatchAs409 (keepsReview_postEvent db _ _ _ _))
    fun _ db₁ _ => ?_
  exact Coro.Keeps.bind (keepsReview_park db₁ _ _ _) fun _ db₂ _ => refl_of KeepsReview db₂

theorem keepsReview_postTaskEventsBatch (db : Db) (taskId : String) (events : List BatchEventItem)
    (sessionToken : Option String) (caller : CallerContext) (d : Draws) :
    Sql.Keeps KeepsReview (postTaskEventsBatch taskId events sessionToken caller d) db := by
  refine keeps_taskOr404 fun task _ => keeps_authorize fun _ => ?_
  refine Sql.keeps_bind_plain (every_bundleOr404 plainOps_isPlain _) fun _ => ?_
  refine Coro.Keeps.bind (keepsReview_sessionMismatchAs409
    (keepsReview_postEventsBatch db _ _ _ _)) fun _ db₁ _ => ?_
  exact Coro.Keeps.bind (keepsReview_park db₁ _ _ _) fun _ db₂ _ => refl_of KeepsReview db₂

theorem keepsReview_markDone {db : Db} {taskId : String} (d : Draws)
    (h : db.statusOf taskId ≠ some .blockedOnReview) :
    Sql.Keeps KeepsReview (TaskService.markDone taskId d) db := by
  refine TaskRepo.keeps_get ?_
  cases db.tasks.get taskId with
  | none => exact refl_of KeepsReview db
  | some task =>
    refine Coro.Keeps.bind (TaskRepo.keeps_update (keepsReview_updateTask h))
      fun updated db' _ => ?_
    exact keepsReview_of_every (.bind (TaskService.every_publishUpdated plainOps_reviewSafe updated)
      fun _ => by trivial) db'

theorem keepsReview_markBlocked {db : Db} {taskId : String} (reason : String) (d : Draws)
    (h : db.statusOf taskId ≠ some .blockedOnReview) :
    Sql.Keeps KeepsReview (TaskService.markBlocked taskId reason d) db := by
  refine TaskRepo.keeps_get ?_
  cases db.tasks.get taskId with
  | none => exact refl_of KeepsReview db
  | some task =>
    refine Coro.Keeps.bind (TaskRepo.keeps_update (keepsReview_updateTask h))
      fun updated db' _ => ?_
    exact keepsReview_of_every (.bind (TaskService.every_publishUpdated plainOps_reviewSafe updated)
      fun _ => by trivial) db'

/-- The status endpoint, off the gate. -/
theorem keepsReview_updateTaskStatus {db : Db} {taskId value : String} {reason : Option String}
    {caller : CallerContext} {d : Draws}
    (h : value = "done" ∨ value = "blocked" → ∀ task, db.tasks.get taskId = some task →
      MayMutate db caller task → task.status ≠ .blockedOnReview) :
    Sql.Keeps KeepsReview (updateTaskStatus taskId value reason caller d) db := by
  refine keeps_taskOr404 fun task htask => keeps_authorize fun hmay => ?_
  cases hvalue : TaskStatus.ofText value with
  | none => exact refl_of KeepsReview db
  | some status =>
    have htext := TaskStatus.text_of_ofText hvalue
    have hoff : status = .done ∨ status = .blocked →
        db.statusOf taskId ≠ some .blockedOnReview := by
      intro hstatus hreview
      rw [statusOf_of_get htask] at hreview
      refine h ?_ task htask hmay (Option.some.inj hreview)
      rcases hstatus with rfl | rfl
      · exact .inl htext.symm
      · exact .inr htext.symm
    have htail := fun updated => keepsReview_of_every (every_taskFound updated)
    refine Coro.Keeps.ite (fun hdone => ?_) fun _ => Coro.Keeps.ite (fun hblocked => ?_) fun _ => ?_
    · exact Coro.Keeps.bind (keepsReview_markDone _ (hoff (.inl hdone))) fun _ db' _ => htail _ db'
    · exact Coro.Keeps.bind (keepsReview_markBlocked _ _ (hoff (.inr hblocked)))
        fun _ db' _ => htail _ db'
    · exact refl_of KeepsReview db

theorem keepsReview_claimTask_endpoint (db : Db) (taskId agentId : String)
    (caller : CallerContext) (d : Draws) :
    Sql.Keeps KeepsReview (claimTask taskId agentId caller d) db := by
  refine keeps_taskOr404 fun task _ => keeps_authorize fun _ => ?_
  refine Sql.keeps_bind_plain (every_bundleOr404 plainOps_isPlain _) fun bundle => ?_
  refine Coro.Keeps.bind (keepsReview_claimTask db _ _ _ _) fun claimed db' _ => ?_
  cases claimed with
  | none => exact refl_of KeepsReview db'
  | some updated =>
    refine Coro.Keeps.ite (fun _ => ?_) fun _ => refl_of KeepsReview db'
    cases bundle.sandboxId <;> exact refl_of KeepsReview db'

theorem keepsReview_postTaskCompletion (db : Db) (taskId : String) (req : CompletionRequest)
    (caller : CallerContext) :
    Sql.Keeps KeepsReview (postTaskCompletion taskId req caller) db := by
  refine keeps_taskOr404 fun task _ => keeps_authorize fun _ => ?_
  refine keepsReview_of_every (.bind ((Coro.every_perform _ _).mpr
    (.update (by rfl))) fun _ => ?_) db
  refine .bind (Sql.every_commit plainOps_reviewSafe) fun _ => ?_
  refine .bind (TaskRepo.every_get plainOps_reviewSafe _) fun updated => ?_
  cases updated <;> trivial

theorem keepsReview_cancelTask_endpoint (depth : Nat) (db : Db) (taskId : String)
    (caller : CallerContext) (d : Draws) :
    Sql.Keeps KeepsReview (cancelTask depth taskId caller d) db := by
  refine keeps_taskOr404 fun task _ => keeps_authorize fun _ => ?_
  refine Coro.Keeps.bind (keepsReview_cancelTask db _ _) fun updated db₁ _ => ?_
  cases updated with
  | none => exact refl_of KeepsReview db₁
  | some _ =>
      exact Coro.Keeps.bind (keepsReview_cascade _ db₁ _ _ _) fun _ db₂ _ => refl_of KeepsReview db₂

/-- A coroutine that writes no status leaves every status as it was. -/
theorem statusOf_of_run {α : Type} {c : Sql α} {r : Except Exn α} {db db' : Db}
    (h : c.Every Op.IsStatusFree) (hrun : c.run Op.exec db = (r, db')) (taskId : String) :
    db'.statusOf taskId = db.statusOf taskId := by
  have hsame := h.run_same (f := (·.statusOf taskId)) (fun _ hop s => hop.statusOf s taskId) db
  rwa [hrun] at hsame

theorem keepsReview_appendTaskFollowup (db : Db) (taskId prompt : String) (caller : CallerContext)
    (d : Draws) : Sql.Keeps KeepsReview (appendTaskFollowup taskId prompt caller d) db := by
  refine Coro.Keeps.ite (fun _ => refl_of KeepsReview db) fun _ => TaskRepo.keeps_get ?_
  cases htask : db.tasks.get taskId with
  | none => exact refl_of KeepsReview db
  | some task =>
    refine keeps_authorize fun _ => ?_
    refine Sql.keeps_bind_plain (BundleRepo.every_get plainOps_isPlain _) fun found => ?_
    cases found with
    | none => exact refl_of KeepsReview db
    | some bundle =>
      refine Sql.keeps_bind_plain (EventRepo.every_nextSequence plainOps_isPlain _) fun _ => ?_
      refine Coro.Keeps.bind (keepsReview_of_every
        (Sql.every_checked (reviewSafe_insertEvent _) _ _) db) fun _ db' hrun => ?_
      have hstatus : db'.statusOf taskId = some task.status := by
        rw [← statusOf_of_get htask]
        exact statusOf_of_run (Sql.every_checked (by trivial) _ _) hrun taskId
      have htail : ∀ db,
          Sql.Keeps KeepsReview (do Sql.commit; TaskRepo.get taskId : Sql (Option Task)) db :=
        fun db => refl_of KeepsReview db
      refine Coro.Keeps.ite (fun hdone => ?_) fun _ => htail db'
      have hupdate : KeepsReview db'
          (Op.exec (.updateTask taskId .followupReopen none (some task)) db') :=
        keepsReview_updateTask (by rw [hstatus, hdone]; decide)
      exact Coro.Keeps.bind hupdate fun _ db'' _ => htail db''

/-- A task that is off the gate is not put on it by the operation. -/
def ParksNot (taskId : String) (op : Op) : Prop :=
  ∀ db, db.statusOf taskId ≠ some .blockedOnReview →
    (op.exec db).statusOf taskId ≠ some .blockedOnReview

theorem ParksNot.of_statusFree {taskId : String} {op : Op} (h : op.IsStatusFree) :
    ParksNot taskId op := fun db hoff => by rwa [h.statusOf]

theorem keepsReview_postTaskHitlAnswer (db : Db) (taskId answer : String) (caller : CallerContext)
    (d : Draws) : Sql.Keeps KeepsReview (postTaskHitlAnswer taskId answer caller d) db := by
  refine Coro.Keeps.ite (fun _ => refl_of KeepsReview db) fun _ => ?_
  refine keeps_taskOr404 fun task htask => keeps_authorize fun _ => ?_
  refine Coro.Keeps.ite (fun _ => refl_of KeepsReview db) fun hblocked => ?_
  rw [ne_eq, not_not] at hblocked
  refine Sql.keeps_bind_plain (TaskService.every_cookbookIdForBundle plainOps_isPlain _)
    fun _ => ?_
  have htail : ∀ (description : String) (record : Bool) (d : Draws) (db : Db),
      db.statusOf taskId ≠ some .blockedOnReview → Sql.Keeps KeepsReview (do
        let updated ← TaskRepo.update taskId
          { status := some .open_, description := some description, clearClaim := true,
            clearBlockedReason := true } none (some task) d
        if updated.isSome && record then Sql.record
        return updated : Sql (Option Task)) db := by
    intro description record d db hoff
    refine Coro.Keeps.bind (TaskRepo.keeps_update (keepsReview_updateTask hoff)) fun _ db' _ => ?_
    exact Coro.Keeps.ite (fun _ => refl_of KeepsReview db') fun _ => refl_of KeepsReview db'
  have hoff : db.statusOf taskId ≠ some .blockedOnReview := by
    rw [statusOf_of_get htask, hblocked]
    decide
  refine Coro.Keeps.ite (fun _ => ?_) fun _ => htail _ _ _ db hoff
  refine Coro.Keeps.bind (keepsReview_postEvent db _ _ _ _) fun _ db' hrun => htail _ _ _ db' ?_
  have hops : TaskService.EventOps (ParksNot taskId) taskId := by
    refine ⟨fun _ => .of_statusFree (show _ = none from rfl), fun _ now _ db hoff => ?_,
      fun _ => .of_statusFree trivial⟩
    rcases Op.statusOf_updateTask with heq | ⟨_, status, hstatus, heq⟩
    · rwa [heq]
    · rw [heq, ← hstatus]
      simp [TaskUpdate.status?]
  have hplain : PlainOps (ParksNot taskId) :=
    ⟨.of_statusFree trivial, .of_statusFree trivial, .of_statusFree trivial⟩
  have hpost := (TaskService.every_postEvent hplain hops
    { type := .prompt, actorId := caller.accountId, actorType := .human, body := Text.strip answer,
      payload := some { rest := "hitl answer" } } none (d.sub 0)).run_inv
    (I := fun db => db.statusOf taskId ≠ some .blockedOnReview) (fun _ hop s => hop s) hoff
  rw [hrun] at hpost
  exact hpost

theorem keepsReview_editTask (db : Db) (taskId : String) (title description : Option String)
    (dependsOnTaskIds : Option (List String)) (caller : CallerContext) (d : Draws) :
    Sql.Keeps KeepsReview (editTask taskId title description dependsOnTaskIds caller d) db := by
  refine keeps_taskOr404 fun task _ => keeps_authorize fun _ => ?_
  refine keepsReview_of_every (.bind (TaskService.every_editTask plainOps_reviewSafe
    (fun _ => .update rfl) _) fun updated => ?_) db
  cases updated <;> trivial

/-! ### The verdict -/

/-- The operation leaves the status of the task alone. -/
def SparesTask (taskId : String) (op : Op) : Prop :=
  ∀ db, (op.exec db).statusOf taskId = db.statusOf taskId

theorem plainOps_sparesTask (taskId : String) : PlainOps (SparesTask taskId) :=
  ⟨fun _ => rfl, fun _ => rfl, fun _ => rfl⟩

theorem statusOf_of_sparesTask {α : Type} {c : Sql α} {taskId : String}
    (h : c.Every (SparesTask taskId)) (db : Db) :
    (c.run Op.exec db).2.statusOf taskId = db.statusOf taskId :=
  h.run_same (f := (·.statusOf taskId)) (fun _ hop s => hop s) db

/-- A verdict changes the status of its own task only. -/
theorem statusOf_reviewTask_of_ne {taskId id : String} (hne : id ≠ taskId)
    (req : TaskReviewRequest) (caller : CallerContext) (d : Draws) (db : Db) :
    ((reviewTask taskId req caller d).run Op.exec db).2.statusOf id = db.statusOf id := by
  have hplain := plainOps_sparesTask id
  refine statusOf_of_sparesTask (.ite (fun _ => by trivial) fun _ => ?_) db
  refine .bind (every_taskOr404 hplain _) fun task => ?_
  refine .bind (every_requireBundleOwner hplain _ _) fun _ => ?_
  refine .ite (fun _ => trivial) fun _ => ?_
  refine .bind (Sql.every_checked (fun _ => rfl) _ _) fun _ => ?_
  refine .bind (TaskRepo.every_update hplain fun _ => Op.statusOf_updateTask_of_ne hne) fun _ => ?_
  refine .bind (Sql.every_commit hplain) fun _ => ?_
  exact .bind (TaskService.every_recordUpdated hplain _) fun _ => by trivial

/-- A caller who does not own the bundle gives no verdict. -/
theorem keepsReview_reviewTask_of_not_owner {taskId : String} {caller : CallerContext} {db : Db}
    (howner : ∀ task, db.tasks.get taskId = some task → ¬ OwnsBundle db caller task.bundleId)
    (req : TaskReviewRequest) (d : Draws) :
    Sql.Keeps KeepsReview (reviewTask taskId req caller d) db := by
  refine Coro.Keeps.ite (fun _ => refl_of KeepsReview db) fun _ => ?_
  refine keeps_taskOr404 fun task htask => ?_
  exact keeps_requireBundleOwner fun howns _ _ => absurd howns (howner task htask)

theorem keepsGate_review {depth : Nat} {db : Db} {caller : CallerContext} {taskId : String}
    {req : TaskReviewRequest} {d : Draws} : KeepsGate depth db ⟨caller, .review taskId req, d⟩ := by
  intro id hid hleft
  have happly : Call.apply depth ⟨caller, .review taskId req, d⟩ db =
      ((reviewTask taskId req caller d).run Op.exec db).2 := by
    rw [Call.apply, TaskRequest.handle, run_discard]
  rw [happly] at hleft
  by_cases hne : id = taskId
  · subst hne
    refine ⟨⟨req, rfl⟩, ?_⟩
    by_contra hnone
    refine hleft (keepsReview_reviewTask_of_not_owner (fun task htask howns => ?_) req d id hid)
    exact hnone ⟨task, htask, howns⟩
  · rw [statusOf_reviewTask_of_ne hne] at hleft
    exact absurd hid hleft

/-! ### Every call -/

/-- An endpoint that keeps tasks at the gate keeps the gate. -/
theorem keepsGate_of_keepsReview {depth : Nat} {db : Db} {call : Call} {α : Type} {c : Sql α}
    (hhandle : call.request.handle depth call.caller call.draws = discard c)
    (h : Sql.Keeps KeepsReview c db) : KeepsGate depth db call := by
  intro taskId hid hleft
  rw [Call.apply, hhandle, run_discard] at hleft
  exact absurd (h taskId hid) hleft

/-- A call that is no bypass keeps the gate. -/
theorem keepsGate_of_not_bypasses {depth : Nat} {db : Db} {call : Call}
    (h : ¬ Bypasses db call) : KeepsGate depth db call := by
  obtain ⟨caller, request, d⟩ := call
  cases request with
  | review taskId req => exact keepsGate_review
  | status taskId value reason =>
    refine keepsGate_of_keepsReview rfl
      (keepsReview_updateTaskStatus fun hvalue task htask hmay hreview => h ?_)
    exact ⟨taskId, value, reason, rfl, hvalue, task, htask, hreview, hmay⟩
  | events taskId req =>
    exact keepsGate_of_keepsReview rfl (keepsReview_postTaskEvent db _ _ _ _)
  | eventsBatch taskId events token =>
    exact keepsGate_of_keepsReview rfl (keepsReview_postTaskEventsBatch db _ _ _ _ _)
  | claim taskId agentId =>
    exact keepsGate_of_keepsReview rfl (keepsReview_claimTask_endpoint db _ _ _ _)
  | completion taskId req =>
    exact keepsGate_of_keepsReview rfl (keepsReview_postTaskCompletion db _ _ _)
  | cancel taskId =>
    exact keepsGate_of_keepsReview rfl (keepsReview_cancelTask_endpoint depth db _ _ _)
  | followup taskId prompt =>
    exact keepsGate_of_keepsReview rfl (keepsReview_appendTaskFollowup db _ _ _ _)
  | hitlAnswer taskId answer =>
    exact keepsGate_of_keepsReview rfl (keepsReview_postTaskHitlAnswer db _ _ _ _)
  | edit taskId title description deps =>
    exact keepsGate_of_keepsReview rfl (keepsReview_editTask db _ _ _ _ _ _)

/-! ### A bypass -/

/-- An update that writes its status, and what only reads after it. -/
theorem statusOf_update_bind {α : Type} {db : Db} {taskId : String} {task : Task}
    {patch : TaskPatch} {status : TaskStatus} {seen : Option Task} {d : Draws}
    {f : Option Task → Sql α} (htask : db.tasks.get taskId = some task)
    (hstatus : patch.status = some status) (hpatch : patch.isEmpty = false)
    (hf : ∀ updated, (f updated).Every Op.IsPlain) :
    ((TaskRepo.update taskId patch none seen d >>= f).run Op.exec db).2.statusOf taskId =
      some status := by
  rw [run_bind_state_of_plain _ hf, TaskRepo.run_update hpatch]
  show (Op.exec _ db).statusOf taskId = some status
  rw [Op.statusOf_updateTask_self htask, TaskUpdate.status?, hstatus, Option.getD_some]

theorem every_publishUpdated_return (updated : Option Task) :
    (do TaskService.publishUpdated updated; return updated : Sql (Option Task)).Every
      Op.IsPlain :=
  .bind (TaskService.every_publishUpdated plainOps_isPlain _) fun _ => trivial

theorem statusOf_markDone {db : Db} {taskId : String} {task : Task}
    (htask : db.tasks.get taskId = some task) (d : Draws) :
    ((TaskService.markDone taskId d).run Op.exec db).2.statusOf taskId = some .done := by
  rw [TaskService.markDone, TaskRepo.run_get_bind, htask]
  exact statusOf_update_bind htask rfl rfl every_publishUpdated_return

theorem statusOf_markBlocked {db : Db} {taskId : String} {task : Task}
    (htask : db.tasks.get taskId = some task) (reason : String) (d : Draws) :
    ((TaskService.markBlocked taskId reason d).run Op.exec db).2.statusOf taskId =
      some .blocked := by
  rw [TaskService.markBlocked, TaskRepo.run_get_bind, htask]
  exact statusOf_update_bind htask rfl rfl every_publishUpdated_return

theorem run_authorizeTaskMutation_of_mayMutate {db : Db} {caller : CallerContext} {task : Task}
    (h : MayMutate db caller task) :
    (authorizeTaskMutation caller task).run Op.exec db = (.ok (), db) := by
  obtain ⟨r, hrun, hr⟩ := run_authorizeTaskMutation db caller task
  cases r with
  | ok _ => exact hrun
  | error e => cases hr.mpr h

/-- Whoever may mutate a task can mark it done or blocked, whatever its status. -/
theorem statusOf_updateTaskStatus {db : Db} {taskId value : String} {task : Task}
    {caller : CallerContext} (htask : db.tasks.get taskId = some task)
    (hmay : MayMutate db caller task) (hvalue : value = "done" ∨ value = "blocked")
    (reason : Option String) (d : Draws) :
    ((updateTaskStatus taskId value reason caller d).run Op.exec db).2.statusOf taskId =
      TaskStatus.ofText value := by
  rw [updateTaskStatus, run_taskOr404_bind htask,
    Coro.run_bind_ok Op.exec (run_authorizeTaskMutation_of_mayMutate hmay)]
  rcases hvalue with rfl | rfl
  · refine (congrArg (Db.statusOf · taskId) (run_bind_state_of_plain
      (TaskService.markDone taskId (d.sub 0)) every_taskFound db)).trans ?_
    rw [statusOf_markDone htask]
    decide
  · refine (congrArg (Db.statusOf · taskId) (run_bind_state_of_plain
      (TaskService.markBlocked taskId (orElseText reason "Blocked") (d.sub 0)) every_taskFound db)).trans ?_
    rw [statusOf_markBlocked htask]
    decide

/-- A bypass takes its task off the gate. -/
theorem not_keepsGate_of_bypasses {depth : Nat} {db : Db} {call : Call} (h : Bypasses db call) :
    ¬ KeepsGate depth db call := by
  obtain ⟨caller, request, d⟩ := call
  obtain ⟨taskId, value, reason, hrequest, hvalue, task, htask, hreview, hmay⟩ := h
  obtain rfl : request = .status taskId value reason := hrequest
  have hoff : (Call.apply depth ⟨caller, .status taskId value reason, d⟩ db).statusOf taskId ≠
      some .blockedOnReview := by
    rw [Call.apply, TaskRequest.handle, run_discard, statusOf_updateTaskStatus htask hmay hvalue]
    rcases hvalue with rfl | rfl <;> decide
  intro hkeeps
  obtain ⟨⟨req, hreq⟩, _⟩ := hkeeps taskId (by rw [statusOf_of_get htask, hreview]) hoff
  cases hreq

theorem keepsGate_iff_not_bypasses {depth : Nat} {db : Db} {call : Call} :
    KeepsGate depth db call ↔ ¬ Bypasses db call :=
  ⟨fun hkeeps hbypass => not_keepsGate_of_bypasses hbypass hkeeps, keepsGate_of_not_bypasses⟩

/-! ### Ownership over a run -/

/-- The operation leaves the bundles alone, and every task in its bundle. -/
def KeepsBundles (op : Op) : Prop :=
  ∀ db, (op.exec db).bundles = db.bundles ∧
    ∀ taskId, ((op.exec db).tasks.get taskId).map (·.bundleId) =
      (db.tasks.get taskId).map (·.bundleId)

theorem keepsBundles_updateTask {taskId : String} {u : TaskUpdate} {expected : Option Nat}
    {seen : Option Task} : KeepsBundles (.updateTask taskId u expected seen) := by
  refine fun db => ⟨rfl, fun id => ?_⟩
  rw [Op.get_exec_updateTask]
  split
  · rw [Option.map_map]
    congr 1
    funext t
    simp only [Function.comp]
    split
    · rw [TaskUpdate.apply_bundleId]
    · rfl
  · rfl

theorem requestOps_keepsBundles : RequestOps KeepsBundles := by
  refine .of_updates ⟨fun _ => ⟨rfl, fun _ => rfl⟩, fun _ => ⟨rfl, fun _ => rfl⟩,
    fun _ => ⟨rfl, fun _ => rfl⟩⟩ (fun _ _ _ => keepsBundles_updateTask)
    (fun _ _ _ => ⟨rfl, fun _ => rfl⟩) (fun event db => ?_) fun _ _ => ⟨rfl, fun _ => rfl⟩
  rw [Op.exec]
  split <;> exact ⟨rfl, fun _ => rfl⟩

theorem Call.bundles_apply (depth : Nat) (call : Call) (db : Db) :
    (call.apply depth db).bundles = db.bundles :=
  (TaskRequest.every_handle requestOps_keepsBundles _ _ _ _).run_same (f := Db.bundles)
    (fun _ hop db => (hop db).1) db

theorem Call.bundleId_apply (depth : Nat) (call : Call) (db : Db) (taskId : String) :
    ((call.apply depth db).tasks.get taskId).map (·.bundleId) =
      (db.tasks.get taskId).map (·.bundleId) :=
  (TaskRequest.every_handle requestOps_keepsBundles _ _ _ _).run_same
    (f := fun db => (db.tasks.get taskId).map (·.bundleId)) (fun _ hop db => (hop db).2 taskId) db

/-! ### Runs -/

/-- Where every call keeps the gate, the calls of one who owns no part in the verdict leave a task
at it. -/
theorem held_of_keepsGate {depth : Nat} {db : Db} {caller : CallerContext} {own : List Call}
    {taskId bundleId : String} (hkeeps : Serial.Each (Call.apply depth) (KeepsGate depth) db own)
    (hown : ∀ call ∈ own, call.caller = caller)
    (htask : (db.tasks.get taskId).map (·.bundleId) = some bundleId)
    (hforeign : ¬ OwnsBundle db caller bundleId)
    (hreview : db.statusOf taskId = some .blockedOnReview) :
    (Serial.after (Call.apply depth) db own).statusOf taskId = some .blockedOnReview := by
  induction own generalizing db with
  | nil => exact hreview
  | cons call own ih =>
    have hcaller := hown call List.mem_cons_self
    refine ih hkeeps.2 (fun call hcall => hown call (List.mem_cons_of_mem _ hcall)) ?_ ?_ ?_
    · rw [Call.bundleId_apply, htask]
    · rwa [OwnsBundle, Call.bundles_apply]
    · by_contra hleft
      obtain ⟨_, task, hget, howns⟩ := hkeeps.1 taskId hreview hleft
      have hbundle : task.bundleId = bundleId := by
        rw [hget] at htask
        exact Option.some.inj htask
      rw [hcaller, hbundle] at howns
      exact hforeign howns

theorem workersHeld_of_keepsGate {depth : Nat} {db : Db} {calls : List Call}
    (hkeeps : Serial.Each (Call.apply depth) (KeepsGate depth) db calls) :
    WorkersHeld depth db calls := by
  rintro before own after rfl caller task hown htask hruntime hreview
  rw [Serial.each_append, Serial.each_append] at hkeeps
  rw [Serial.after_append]
  refine held_of_keepsGate hkeeps.1.2 hown ?_ hruntime.2.2 ?_
  · rw [htask, Option.map_some]
  · rw [statusOf_of_get htask, hreview]

/-- In every run of requests to the task endpoints, tasks leave `blocked_on_review` by the owner's
verdict only, and no worker moves its own task past it, exactly when no request of the run asks the
status endpoint to mark a task at the gate as done or blocked. -/
theorem reviewGate_iff (depth : Nat) (db : Db) (calls : List Call) :
    Serial.Each (Call.apply depth) (KeepsGate depth) db calls ∧ WorkersHeld depth db calls ↔
      Serial.Each (Call.apply depth) (fun db call => ¬ Bypasses db call) db calls := by
  have hcalls : Serial.Each (Call.apply depth) (KeepsGate depth) db calls ↔
      Serial.Each (Call.apply depth) (fun db call => ¬ Bypasses db call) db calls :=
    Serial.each_congr fun _ _ => keepsGate_iff_not_bypasses
  exact ⟨fun h => hcalls.mp h.1,
    fun h => ⟨hcalls.mpr h, workersHeld_of_keepsGate (hcalls.mpr h)⟩⟩

/-- A task at the gate, its bundle and the runtime of the worker. -/
def parkedDb : Db where
  bundles := (∅ : Table Bundle).insert { id := "bun_1", ownerAccountId := some "acc_owner" }
  tasks := (∅ : Table Task).insert
    { id := "task_1", bundleId := "bun_1", status := .blockedOnReview, assignedRuntimeId := some "rt_1" }
  runtimes := (∅ : Table AgentRuntime).insert { id := "rt_1", accountId := "acc_worker" }

/-- The worker's call: `PATCH /tasks/task_1/status` with `done`. -/
def selfApproval : Call where
  caller := { accountId := "acc_worker", authMethod := "bearer_jwt" }
  request := .status "task_1" "done" none
  draws := { uuid := fun _ => "", now := fun _ => 0 }

/-- The worker's own call takes the task past its review. -/
theorem selfApproval_passes_gate :
    ¬ KeepsGate 1000 parkedDb selfApproval ∧ ¬ WorkersHeld 1000 parkedDb [selfApproval] := by
  have hdone : (Serial.after (Call.apply 1000) parkedDb [selfApproval]).statusOf "task_1" =
      some .done := by
    decide +kernel
  refine ⟨fun hkeeps => ?_, fun hheld => ?_⟩
  · obtain ⟨⟨req, hreq⟩, _⟩ := hkeeps "task_1" (by decide +kernel) (by
      rw [show selfApproval.apply 1000 parkedDb =
        Serial.after (Call.apply 1000) parkedDb [selfApproval] from rfl, hdone]
      decide)
    cases hreq
  · have h := hheld [] [selfApproval] [] rfl selfApproval.caller
      { id := "task_1", bundleId := "bun_1", status := .blockedOnReview,
        assignedRuntimeId := some "rt_1" } (by simp) (by decide +kernel) ?_ rfl
    · rw [List.nil_append, hdone] at h
      cases h
    · exact ⟨by decide +kernel, by decide, by decide +kernel⟩

end Krewhub
