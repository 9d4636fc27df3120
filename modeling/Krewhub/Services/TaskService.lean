import Krewhub.Store.Repositories

/-!
# The task service

`TaskService`, method by method. Bodies and payloads of events are taken as redaction leaves them;
`facts` and `code_refs` as the texts of the parsed references, `none` where parsing them raises.
-/

namespace Krewhub

/-- The types of `_USER_VISIBLE_TYPES`. -/
def userVisibleTypes : List String :=
  ["prompt", "plan", "task_claimed", "milestone", "fact_added", "code_pushed", "bundle_closed",
    "bundle_reopened"]

def classifyVisibility (eventType : String) : String :=
  if eventType ∈ userVisibleTypes then "user" else "system"

/-- What the callers of `post_event` pass it. -/
structure EventSpec where
  type : EventType
  actorId : String
  actorType : ActorType
  body : String
  payload : Option EventPayload := none
  facts : List String := []
  codeRefs : List String := []
  visibility : Option String := none
  deriving DecidableEq, Repr

/-- One dict of `post_events_batch`. -/
structure BatchEventItem where
  type : String
  actorId : String
  actorType : String := "agent"
  body : String := ""
  payload : Option EventPayload := none
  facts : Option (List String) := some []
  codeRefs : Option (List String) := some []
  visibility : Option String := none
  deriving DecidableEq, Repr

/-- `a or b` on strings that may be absent. -/
def orElseText (a : Option String) (b : String) : String :=
  match a with
  | none => b
  | some s => if s = "" then b else s

/-- `Enum(value)`: the member, or `ValueError`. -/
def enumMember {α : Type} (member : Option α) (value : String) : Sql α :=
  match member with
  | none => .raise (.valueError value)
  | some a => return a

/-- A parsed list, or the `ValidationError` of its parsing. -/
def parsed (l : Option (List String)) : Sql (List String) :=
  match l with
  | none => .raise (.valueError "reference")
  | some l => return l

namespace TaskService

def checkAndStampSessionToken (taskId : String) (sessionToken : Option String) : Sql Unit :=
  match sessionToken with
  | none => return
  | some token => do
    if token = "" then return
    match ← TaskRepo.get taskId with
    | none => return
    | some task => match task.sessionToken with
      | none => TaskRepo.setSessionToken taskId token
      | some stamped =>
        if stamped = token then return else .raise (.sessionTokenMismatch taskId)

def cookbookIdForBundle (bundleId : String) : Sql (Option String) := do
  return (← BundleRepo.get bundleId).bind (·.cookbookId)

/-- The loop of `claim_task` over the dependencies: all of them are done. -/
def depsDone : List String → Sql Bool
  | [] => return true
  | depId :: deps => do
    match ← TaskRepo.get depId with
    | none => return false
    | some dep => if dep.status ≠ .done then return false else depsDone deps

/-- Records a changed row, if the update found one. -/
def recordUpdated (updated : Option Task) : Sql Unit :=
  if updated.isSome then Sql.record else return

def claimTask (taskId agentId : String) (cookbookId : Option String) (d : Draws) :
    Sql (Option Task) := do
  match ← TaskRepo.get taskId with
  | none => return none
  | some task =>
    if task.status ≠ .open_ then return none
    let active ← TaskRepo.listActiveByAgent cookbookId agentId
    if !active.isEmpty then return none
    if !(← depsDone task.dependsOnTaskIds) then return none
    let cookbookId ← cookbookIdForBundle task.bundleId
    let updated ← TaskRepo.update taskId
      { status := some .claimed, claimedByAgentId := some agentId, claimedAt := some d.clock }
      none (some task) (d.sub 0)
    EventRepo.create
      { id := (d.sub 1).hexId "evt_" 8
        cookbookId := cookbookId
        bundleId := some task.bundleId
        taskId := some taskId
        type := .taskClaimed
        actorId := agentId
        actorType := .agent
        body := s!"Task '{task.title}' claimed."
        createdAt := d.clock }
    recordUpdated updated
    return updated

/-- The first part of `post_event` and `post_events_batch`: the first event of a claimed task makes
it a working one. -/
def startWorking (taskId : String) (task : Task) (cookbookId : Option String) (actorId : String)
    (actorType : Sql ActorType) (d : Draws) : Sql Unit :=
  if task.status ≠ .claimed then return
  else do
    let updated ← TaskRepo.update taskId { status := some .working } none (some task) (d.sub 0)
    if updated.isSome then
      Sql.record
      let actorType ← actorType
      EventRepo.create
        { id := (d.sub 1).hexId "evt_" 8
          cookbookId := cookbookId
          bundleId := some task.bundleId
          taskId := some taskId
          type := .taskWorking
          actorId := actorId
          actorType := actorType
          body := s!"Task '{task.title}' is now working."
          visibility := classifyVisibility "task_working"
          createdAt := (d.sub 1).clock }
      Sql.record

def postEvent (taskId : String) (spec : EventSpec) (sessionToken : Option String) (d : Draws) :
    Sql Event := do
  checkAndStampSessionToken taskId sessionToken
  match ← TaskRepo.get taskId with
  | none => .raise (.valueError s!"Task {taskId} not found")
  | some task =>
    let cookbookId ← cookbookIdForBundle task.bundleId
    startWorking taskId task cookbookId spec.actorId (pure spec.actorType) (d.sub 0)
    let sequence ← EventRepo.nextSequence (some taskId)
    let event : Event :=
      { id := (d.sub 1).hexId "evt_" 8
        cookbookId := cookbookId
        bundleId := some task.bundleId
        taskId := some taskId
        type := spec.type
        actorId := spec.actorId
        actorType := spec.actorType
        body := spec.body
        payload := spec.payload
        sequence := sequence
        facts := spec.facts
        codeRefs := spec.codeRefs
        visibility := orElseText spec.visibility (classifyVisibility spec.type.text)
        createdAt := (d.sub 1).clock }
    EventRepo.create event
    Sql.record
    return event

/-- The loop of `post_events_batch`. -/
def appendEvents (taskId : String) (task : Task) (cookbookId : Option String) (d : Draws) :
    List BatchEventItem → Sql (List Event)
  | [] => return []
  | spec :: events => do
    let sequence ← EventRepo.nextSequence (some taskId)
    let type ← enumMember (EventType.ofText spec.type) spec.type
    let actorType ← enumMember (ActorType.ofText spec.actorType) spec.actorType
    let facts ← parsed spec.facts
    let codeRefs ← parsed spec.codeRefs
    let event : Event :=
      { id := (d.sub events.length).hexId "evt_" 8
        cookbookId := cookbookId
        bundleId := some task.bundleId
        taskId := some taskId
        type := type
        actorId := spec.actorId
        actorType := actorType
        body := spec.body
        payload := spec.payload
        sequence := sequence
        facts := facts
        codeRefs := codeRefs
        visibility := orElseText spec.visibility (classifyVisibility spec.type)
        createdAt := (d.sub events.length).clock }
    EventRepo.create event
    Sql.record
    return event :: (← appendEvents taskId task cookbookId d events)

def postEventsBatch (taskId : String) (events : List BatchEventItem)
    (sessionToken : Option String) (d : Draws) : Sql (List Event) :=
  match events with
  | [] => return []
  | first :: _ => do
    checkAndStampSessionToken taskId sessionToken
    match ← TaskRepo.get taskId with
    | none => .raise (.valueError s!"Task {taskId} not found")
    | some task =>
      let cookbookId ← cookbookIdForBundle task.bundleId
      startWorking taskId task cookbookId first.actorId
        (enumMember (ActorType.ofText first.actorType) first.actorType) (d.sub 0)
      appendEvents taskId task cookbookId (d.sub 1) events

/-- `_publish_task_update` of the row an update returned. -/
def publishUpdated (updated : Option Task) : Sql Unit :=
  match updated with
  | none => return
  | some task => do
    if (← BundleRepo.get task.bundleId).isSome then Sql.record

def markDone (taskId : String) (d : Draws) : Sql (Option Task) := do
  match ← TaskRepo.get taskId with
  | none => return none
  | some task =>
    let updated ← TaskRepo.update taskId
      { status := some .done, completedAt := some d.clock, clearBlockedReason := true }
      none (some task) (d.sub 0)
    publishUpdated updated
    return updated

def markBlocked (taskId reason : String) (d : Draws) : Sql (Option Task) := do
  match ← TaskRepo.get taskId with
  | none => return none
  | some task =>
    let updated ← TaskRepo.update taskId
      { status := some .blocked, blockedReason := some reason } none (some task) (d.sub 0)
    publishUpdated updated
    return updated

def cancelTask (taskId : String) (d : Draws) : Sql (Option Task) := do
  match ← TaskRepo.get taskId with
  | none => return none
  | some task =>
    if task.status ∉ [.open_, .claimed, .working] then return none
    let updated ← TaskRepo.update taskId
      { status := some .cancelled, clearBlockedReason := true } none (some task) (d.sub 0)
    publishUpdated updated
    return updated

def addTask (bundleId title : String) (description : Option String)
    (dependsOnTaskIds : List String) (d : Draws) : Sql Task := do
  let created ← TaskRepo.create
    { id := d.hexId "task_" 8
      bundleId := bundleId
      title := title
      description := description
      status := .open_
      dependsOnTaskIds := dependsOnTaskIds } (d.sub 0)
  if (← BundleRepo.get bundleId).isSome then Sql.record
  return created

def editTask (taskId : String) (title description : Option String)
    (dependsOnTaskIds : Option (List String)) (d : Draws) : Sql (Option Task) := do
  let updated ← TaskRepo.update taskId
    { title := title, description := description, dependsOnTaskIds := dependsOnTaskIds }
    none none (d.sub 0)
  publishUpdated updated
  return updated

def removeTask (taskId : String) : Sql Bool := do
  match ← TaskRepo.get taskId with
  | none => return false
  | some task =>
    if task.status ≠ .open_ then return false
    let deleted ← TaskRepo.delete taskId
    if deleted then
      let _ ← BundleRepo.get task.bundleId
      Sql.record
    return deleted

/-- What `add_task` returns is the row it has inserted. -/
theorem run_addTask_of_ok {bundleId title : String} {description : Option String}
    {deps : List String} {d : Draws} {created : Task} {db db' : Db}
    (h : (addTask bundleId title description deps d).run Op.exec db = (.ok created, db')) :
    created.id = d.hexId "task_" 8 ∧ created.bundleId = bundleId ∧
      db.tasks.get created.id = none ∧ db'.tasks.get created.id = some created := by
  rw [addTask, Coro.run_bind] at h
  split at h
  · rename_i row db₁ hcreate
    obtain ⟨hrow, haccepts, hstate⟩ := TaskRepo.run_create_of_ok hcreate
    have hfree : db.tasks.get (key row) = none := by
      rw [Db.acceptsTask, Bool.and_eq_true, Option.isNone_iff_eq_none] at haccepts
      exact haccepts.1
    have hget : db₁.tasks.get row.id = some row := by
      rw [hstate, Op.exec, if_pos haccepts]
      exact Table.get_insert_self hfree
    rw [BundleRepo.get, Coro.run_bind_ok Op.exec (Sql.run_select _ db₁)] at h
    have hsame : created = row ∧ db' = db₁ := by
      cases hbundle : (db₁.bundles.get bundleId).isSome <;> rw [hbundle] at h <;> cases h <;>
        exact ⟨rfl, rfl⟩
    obtain ⟨rfl, rfl⟩ := hsame
    rw [hrow] at hget hfree ⊢
    exact ⟨rfl, rfl, hfree, hget⟩
  · cases h

/-- `remove_task` leaves everything, or deletes the task. -/
theorem run_removeTask (taskId : String) (db : Db) :
    (removeTask taskId).run Op.exec db = (.ok false, db) ∨
      (removeTask taskId).run Op.exec db = (.ok true, Op.exec (.deleteTask taskId) db) := by
  rw [removeTask, TaskRepo.run_get_bind]
  cases htask : db.tasks.get taskId with
  | none => exact .inl rfl
  | some task =>
    dsimp only
    split
    · exact .inl rfl
    · have hdelete : (TaskRepo.delete taskId).run Op.exec db =
          (.ok true, Op.exec (.deleteTask taskId) db) := by
        show (Except.ok (db.tasks.get taskId).isSome, _) = _
        rw [htask]
        rfl
      rw [Coro.run_bind_ok Op.exec hdelete]
      exact .inr rfl

/-- The loop over the dependencies decides whether all of them are done. -/
theorem run_depsDone (deps : List String) (db : Db) :
    (depsDone deps).run Op.exec db =
      (.ok (decide (∀ depId ∈ deps, db.statusOf depId = some .done)), db) := by
  induction deps with
  | nil => rfl
  | cons depId deps ih =>
    have hcons : decide (∀ id ∈ depId :: deps, db.statusOf id = some .done) =
        (decide (db.statusOf depId = some .done) && decide (∀ id ∈ deps, db.statusOf id = some .done)) := by
      rw [← Bool.decide_and, decide_eq_decide]
      exact List.forall_mem_cons
    rw [depsDone, TaskRepo.run_get_bind, hcons]
    cases hdep : db.tasks.get depId with
    | none => simp [Db.statusOf, hdep]
    | some dep =>
      have hstatus : db.statusOf depId = some dep.status := by
        rw [Db.statusOf, hdep, Option.map_some]
      by_cases hdone : dep.status = .done
      · simpa [hdone, hstatus] using ih
      · simp [hdone, hstatus]

theorem run_recordUpdated (updated : Option Task) (db : Db) :
    (recordUpdated updated).run Op.exec db = (.ok (), db) := by
  unfold recordUpdated
  split <;> rfl

theorem run_publishUpdated (updated : Option Task) (db : Db) :
    (publishUpdated updated).run Op.exec db = (.ok (), db) := by
  cases updated with
  | none => rfl
  | some task =>
    show (if (db.bundles.get task.bundleId).isSome = true then Sql.record
      else pure ()).run Op.exec db = _
    split <;> rfl

/-- The statement `cancel_task` ends a task with. -/
def cancelOp (taskId : String) (seen : Task) (d : Draws) : Op :=
  .updateTask taskId (.patch { status := some .cancelled, clearBlockedReason := true }
    (d.sub 0).clock) none (some seen)

theorem run_cancelTask_of_get {taskId : String} {task : Task} {db : Db}
    (htask : db.tasks.get taskId = some task)
    (hstatus : task.status ∈ [TaskStatus.open_, .claimed, .working]) (d : Draws) :
    (cancelTask taskId d).run Op.exec db =
      (.ok (((cancelOp taskId task d).exec db).tasks.get taskId),
        (cancelOp taskId task d).exec db) := by
  rw [cancelTask, TaskRepo.run_get_bind, htask]
  dsimp only
  rw [if_neg (not_not_intro hstatus), Coro.run_bind_ok Op.exec (TaskRepo.run_update (by decide) db),
    Coro.run_bind_ok Op.exec (run_publishUpdated _ _)]
  rfl

/-- A cancellation does nothing or ends with its one statement. -/
theorem of_run_cancelTask {taskId : String} {d : Draws} {db db' : Db} {updated : Option Task}
    (h : (cancelTask taskId d).run Op.exec db = (.ok updated, db')) :
    db' = db ∨ ∃ task, db' = (cancelOp taskId task d).exec db := by
  cases htask : db.tasks.get taskId with
  | none =>
    rw [cancelTask, TaskRepo.run_get_bind, htask] at h
    cases h
    exact .inl rfl
  | some task =>
    by_cases haccepted : task.status ∈ [TaskStatus.open_, .claimed, .working]
    · rw [run_cancelTask_of_get htask haccepted] at h
      cases h
      exact .inr ⟨task, rfl⟩
    · rw [cancelTask, TaskRepo.run_get_bind, htask] at h
      dsimp only at h
      rw [if_pos haccepted] at h
      cases h
      exact .inl rfl

/-! ### What the methods raise -/

section Throws

variable {E : Exn → Prop}

theorem throws_recordUpdated (updated : Option Task) : (recordUpdated updated).Throws E :=
  .ite (fun _ => Sql.throws_record) fun _ => trivial

theorem throws_publishUpdated (updated : Option Task) : (publishUpdated updated).Throws E := by
  cases updated with
  | none => trivial
  | some task =>
    exact .bind (Coro.throws_perform _ _) fun _ => .ite (fun _ => Sql.throws_record) fun _ => trivial

theorem throws_cookbookIdForBundle (bundleId : String) : (cookbookIdForBundle bundleId).Throws E :=
  .bind (Coro.throws_perform _ _) fun _ => trivial

theorem throws_enumMember {α : Type} (hvalue : ∀ message, E (.valueError message)) (member : Option α)
    (value : String) : (enumMember member value).Throws E := by
  cases member with
  | none => exact hvalue value
  | some a => trivial

theorem throws_parsed (hvalue : ∀ message, E (.valueError message)) (l : Option (List String)) :
    (parsed l).Throws E := by
  cases l with
  | none => exact hvalue _
  | some l => trivial

theorem throws_nextSequence (taskId : Option String) : (EventRepo.nextSequence taskId).Throws E := by
  cases taskId with
  | none => trivial
  | some id => exact Coro.throws_perform _ _

theorem throws_startWorking (hevents : E (.integrityError "events")) (taskId : String) (task : Task)
    (cookbookId : Option String) (actorId : String) {actorType : Sql ActorType}
    (hactor : actorType.Throws E) (d : Draws) :
    (startWorking taskId task cookbookId actorId actorType d).Throws E := by
  refine .ite (fun _ => by trivial) fun _ => ?_
  refine .bind (TaskRepo.throws_update _ _ _ _) fun _ => .ite (fun _ => ?_) fun _ => by trivial
  refine .bind Sql.throws_record fun _ => .bind hactor fun _ => ?_
  exact .bind (EventRepo.throws_create hevents _) fun _ => Sql.throws_record

theorem throws_appendEvents (hevents : E (.integrityError "events"))
    (hvalue : ∀ message, E (.valueError message)) (taskId : String) (task : Task)
    (cookbookId : Option String) (d : Draws) (events : List BatchEventItem) :
    (appendEvents taskId task cookbookId d events).Throws E := by
  induction events with
  | nil => trivial
  | cons spec events ih =>
    refine .bind (throws_nextSequence _) fun _ => ?_
    refine .bind (throws_enumMember hvalue _ _) fun _ => .bind (throws_enumMember hvalue _ _) fun _ => ?_
    refine .bind (throws_parsed hvalue _) fun _ => .bind (throws_parsed hvalue _) fun _ => ?_
    refine .bind (EventRepo.throws_create hevents _) fun _ => ?_
    exact .bind Sql.throws_record fun _ => .bind ih fun _ => trivial

theorem throws_cancelTask (taskId : String) (d : Draws) : (cancelTask taskId d).Throws E := by
  refine .bind (Coro.throws_perform _ _) fun found => ?_
  cases found with
  | none => trivial
  | some task =>
    refine .ite (fun _ => by trivial) fun _ => ?_
    exact .bind (TaskRepo.throws_update _ _ _ _) fun _ =>
      .bind (throws_publishUpdated _) fun _ => trivial

end Throws

/-! ### What the methods write -/

section Every

variable {P : Op → Prop} (hP : PlainOps P)
include hP

theorem every_cookbookIdForBundle (bundleId : String) : (cookbookIdForBundle bundleId).Every P :=
  .bind (BundleRepo.every_get hP bundleId) fun _ => trivial

theorem every_recordUpdated (updated : Option Task) : (recordUpdated updated).Every P := by
  unfold recordUpdated
  split
  · exact Sql.every_record hP
  · trivial

theorem every_publishUpdated (updated : Option Task) : (publishUpdated updated).Every P := by
  cases updated with
  | none => trivial
  | some task =>
    refine .bind (BundleRepo.every_get hP task.bundleId) fun _ => ?_
    split
    · exact Sql.every_record hP
    · trivial

theorem every_depsDone (deps : List String) : (depsDone deps).Every P := by
  induction deps with
  | nil => trivial
  | cons depId deps ih =>
    refine .bind (TaskRepo.every_get hP depId) fun dep => ?_
    cases dep with
    | none => trivial
    | some dep =>
      dsimp only
      split
      · trivial
      · exact ih

theorem every_checkAndStampSessionToken {taskId : String}
    (hstamp : ∀ token, P (.updateTask taskId (.stampSessionToken token) none none))
    (sessionToken : Option String) :
    (checkAndStampSessionToken taskId sessionToken).Every P := by
  cases sessionToken with
  | none => trivial
  | some token =>
    unfold checkAndStampSessionToken
    dsimp only
    split
    · trivial
    · refine .bind (TaskRepo.every_get hP taskId) fun task => ?_
      cases task with
      | none => trivial
      | some task =>
        dsimp only
        split
        · exact TaskRepo.every_setSessionToken hP (hstamp token)
        · split <;> trivial

theorem every_claimTask {taskId : String}
    (hclaim : ∀ agentId (seen : Task) now now', seen.status = .open_ → P (.updateTask taskId (.patch
      { status := some .claimed, claimedByAgentId := some agentId, claimedAt := some now } now')
      none (some seen)))
    (hevent : ∀ event, P (.insertEvent event)) (agentId : String) (cookbookId : Option String)
    (d : Draws) : (claimTask taskId agentId cookbookId d).Every P := by
  refine .bind (TaskRepo.every_get hP taskId) fun found => ?_
  cases found with
  | none => trivial
  | some task =>
    dsimp only
    split
    · trivial
    · rename_i hopen
      rw [ne_eq, not_not] at hopen
      refine .bind (Sql.every_select hP _) fun active => ?_
      split
      · trivial
      · refine .bind (every_depsDone hP _) fun done => ?_
        split
        · trivial
        · refine .bind (every_cookbookIdForBundle hP _) fun _ => ?_
          refine .bind (TaskRepo.every_update hP (hclaim _ _ _ _ hopen)) fun _ => ?_
          refine .bind (EventRepo.every_create hP (hevent _)) fun _ => ?_
          exact .bind (every_recordUpdated hP _) fun _ => trivial

theorem every_startWorking {taskId : String} {task : Task}
    (hwork : ∀ (seen : Task) now, seen.status = .claimed →
      P (.updateTask taskId (.patch { status := some .working } now) none (some seen)))
    (hevent : ∀ event, P (.insertEvent event)) (cookbookId : Option String) (actorId : String)
    {actorType : Sql ActorType} (hactor : actorType.Every P) (d : Draws) :
    (startWorking taskId task cookbookId actorId actorType d).Every P := by
  unfold startWorking
  split
  · trivial
  · rename_i hclaimed
    rw [ne_eq, not_not] at hclaimed
    refine .bind (TaskRepo.every_update hP (hwork _ _ hclaimed)) fun updated => ?_
    split
    · refine .bind (Sql.every_record hP) fun _ => .bind hactor fun _ => ?_
      exact .bind (EventRepo.every_create hP (hevent _)) fun _ => Sql.every_record hP
    · trivial

omit hP in
theorem every_enumMember {α : Type} (member : Option α) (value : String) :
    (enumMember member value).Every P := by
  cases member <;> trivial

omit hP in
theorem every_parsed (l : Option (List String)) : (parsed l).Every P := by
  cases l <;> trivial

/-- What `post_event` and `post_events_batch` do to a task: stamp its session token, and start it
working when they have found it claimed. -/
structure EventOps (P : Op → Prop) (taskId : String) : Prop where
  stamp : ∀ token, P (.updateTask taskId (.stampSessionToken token) none none)
  work : ∀ (seen : Task) now, seen.status = .claimed →
    P (.updateTask taskId (.patch { status := some .working } now) none (some seen))
  event : ∀ event, P (.insertEvent event)

theorem every_postEvent {taskId : String} (hops : EventOps P taskId) (spec : EventSpec)
    (sessionToken : Option String) (d : Draws) :
    (postEvent taskId spec sessionToken d).Every P := by
  refine .bind (every_checkAndStampSessionToken hP hops.stamp _) fun _ => ?_
  refine .bind (TaskRepo.every_get hP taskId) fun found => ?_
  cases found with
  | none => trivial
  | some task =>
    refine .bind (every_cookbookIdForBundle hP _) fun _ => ?_
    refine .bind (every_startWorking hP hops.work hops.event _ _ (by trivial) _) fun _ => ?_
    refine .bind (EventRepo.every_nextSequence hP _) fun _ => ?_
    refine .bind (EventRepo.every_create hP (hops.event _)) fun _ => ?_
    exact .bind (Sql.every_record hP) fun _ => trivial

theorem every_appendEvents (hevent : ∀ event, P (.insertEvent event)) (taskId : String)
    (task : Task) (cookbookId : Option String) (d : Draws) (events : List BatchEventItem) :
    (appendEvents taskId task cookbookId d events).Every P := by
  induction events with
  | nil => trivial
  | cons spec events ih =>
    refine .bind (EventRepo.every_nextSequence hP _) fun _ => ?_
    refine .bind (every_enumMember _ _) fun _ => .bind (every_enumMember _ _) fun _ => ?_
    refine .bind (every_parsed _) fun _ => .bind (every_parsed _) fun _ => ?_
    refine .bind (EventRepo.every_create hP (hevent _)) fun _ => ?_
    exact .bind (Sql.every_record hP) fun _ => .bind ih fun _ => trivial

theorem every_postEventsBatch {taskId : String} (hops : EventOps P taskId)
    (events : List BatchEventItem) (sessionToken : Option String) (d : Draws) :
    (postEventsBatch taskId events sessionToken d).Every P := by
  cases events with
  | nil => trivial
  | cons first events =>
    refine .bind (every_checkAndStampSessionToken hP hops.stamp _) fun _ => ?_
    refine .bind (TaskRepo.every_get hP taskId) fun found => ?_
    cases found with
    | none => trivial
    | some task =>
      refine .bind (every_cookbookIdForBundle hP _) fun _ => ?_
      refine .bind (every_startWorking hP hops.work hops.event _ _ (every_enumMember _ _) _)
        fun _ => ?_
      exact every_appendEvents hP hops.event _ _ _ _ _

theorem every_markDone {taskId : String}
    (hdone : ∀ (seen : Task) now now', P (.updateTask taskId (.patch
      { status := some .done, completedAt := some now, clearBlockedReason := true } now') none
      (some seen))) (d : Draws) : (markDone taskId d).Every P := by
  refine .bind (TaskRepo.every_get hP taskId) fun found => ?_
  cases found with
  | none => trivial
  | some task =>
    refine .bind (TaskRepo.every_update hP (hdone _ _ _)) fun _ => ?_
    exact .bind (every_publishUpdated hP _) fun _ => trivial

theorem every_markBlocked {taskId reason : String}
    (hblocked : ∀ (seen : Task) now, P (.updateTask taskId (.patch
      { status := some .blocked, blockedReason := some reason } now) none (some seen)))
    (d : Draws) : (markBlocked taskId reason d).Every P := by
  refine .bind (TaskRepo.every_get hP taskId) fun found => ?_
  cases found with
  | none => trivial
  | some task =>
    refine .bind (TaskRepo.every_update hP (hblocked _ _)) fun _ => ?_
    exact .bind (every_publishUpdated hP _) fun _ => trivial

theorem every_cancelTask {taskId : String}
    (hcancel : ∀ seen : Task, seen.status ∈ [TaskStatus.open_, .claimed, .working] → ∀ now,
      P (.updateTask taskId (.patch
        { status := some .cancelled, clearBlockedReason := true } now) none (some seen)))
    (d : Draws) : (cancelTask taskId d).Every P := by
  refine .bind (TaskRepo.every_get hP taskId) fun found => ?_
  cases found with
  | none => trivial
  | some task =>
    dsimp only
    split
    · trivial
    · rename_i hstatus
      rw [not_not] at hstatus
      refine .bind (TaskRepo.every_update hP (hcancel _ hstatus _)) fun _ => ?_
      exact .bind (every_publishUpdated hP _) fun _ => trivial

theorem every_addTask {bundleId title : String} {description : Option String}
    {dependsOnTaskIds : List String} {d : Draws}
    (htask : ∀ now, P (.insertTask
      { id := d.hexId "task_" 8, bundleId, title, description, status := .open_, dependsOnTaskIds,
        updatedAt := some now })) :
    (addTask bundleId title description dependsOnTaskIds d).Every P := by
  refine .bind (TaskRepo.every_create hP (htask _)) fun created => ?_
  refine .bind (BundleRepo.every_get hP bundleId) fun _ => ?_
  split
  · exact .bind (Sql.every_record hP) fun _ => trivial
  · trivial

theorem every_editTask {taskId : String} {title description : Option String}
    {dependsOnTaskIds : Option (List String)}
    (hedit : ∀ now, P (.updateTask taskId (.patch { title, description, dependsOnTaskIds } now) none
      none)) (d : Draws) : (editTask taskId title description dependsOnTaskIds d).Every P :=
  .bind (TaskRepo.every_update hP (hedit _)) fun _ =>
    .bind (every_publishUpdated hP _) fun _ => trivial

theorem every_removeTask {taskId : String} (hdelete : P (.deleteTask taskId)) :
    (removeTask taskId).Every P := by
  refine .bind (TaskRepo.every_get hP taskId) fun found => ?_
  cases found with
  | none => trivial
  | some task =>
    dsimp only
    split
    · trivial
    · refine .bind (TaskRepo.every_delete hP hdelete) fun deleted => ?_
      split
      · refine .bind (BundleRepo.every_get hP _) fun _ => ?_
        exact .bind (Sql.every_record hP) fun _ => trivial
      · trivial

end Every

/-- An event of a controller; a failure to post it is logged and otherwise ignored. -/
def narrate (actorId : String) (task : Task) (type : EventType) (body : String)
    (payload : EventPayload) (d : Draws) : Sql Unit :=
  Coro.tryCatch (do
    let _ ← postEvent task.id
      { type := type, actorId := actorId, actorType := .system, body := body,
        payload := some payload } none d) fun _ => some (pure ())

theorem every_narrate {P : Op → Prop} (hP : PlainOps P) {task : Task}
    (hops : EventOps P task.id) (actorId : String) (type : EventType) (body : String)
    (payload : EventPayload) (d : Draws) : (narrate actorId task type body payload d).Every P := by
  refine .tryCatch (.bind (every_postEvent hP hops _ _ _) fun _ => trivial) fun e c' hc' => ?_
  cases hc'
  trivial

end TaskService

/-! ### Events leave the rows alone -/

/-- The tasks and the runtimes are as they were. -/
def SameRows (db db' : Db) : Prop := db'.tasks = db.tasks ∧ db'.runtimes = db.runtimes

instance : IsPreorder Db SameRows where
  refl _ := ⟨rfl, rfl⟩
  trans _ _ _ hab hbc := ⟨hbc.1.trans hab.1, hbc.2.trans hab.2⟩

/-- Whatever the database, the operation leaves these rows alone. -/
def RowSafe (op : Op) : Prop := ∀ db, SameRows db (op.exec db)

theorem plainOps_rowSafe : PlainOps RowSafe :=
  ⟨fun db => refl_of SameRows db, fun db => refl_of SameRows db, fun db => refl_of SameRows db⟩

theorem rowSafe_insertEvent (event : Event) (reported : Option Link) :
    RowSafe (.insertEvent event reported) := by
  intro db
  rw [Op.exec]
  split <;> exact ⟨rfl, rfl⟩

namespace TaskService

section Narrate

variable {db : Db} {taskId : String} (d : Draws)

/-- An event of a task that is not claimed changes no row. -/
theorem performs_postEvent (hstatus : db.statusOf taskId ≠ some .claimed) (spec : EventSpec) :
    (postEvent taskId spec none d).Performs Op.exec RowSafe db := by
  have hplain := plainOps_rowSafe
  refine ⟨hplain.select, ?_⟩
  show (match db.tasks.get taskId with | none => _ | some task => _ : Sql Event).Performs _ _ db
  cases htask : db.tasks.get taskId with
  | none => trivial
  | some task =>
    have hclaimed : task.status ≠ .claimed := by
      intro heq
      rw [Db.statusOf, htask, Option.map_some, heq] at hstatus
      exact hstatus rfl
    refine Coro.Every.performs (.bind (every_cookbookIdForBundle hplain _) fun _ => ?_) db
    rw [startWorking, if_pos hclaimed]
    refine .bind (by trivial) fun _ => .bind (EventRepo.every_nextSequence hplain _) fun _ => ?_
    refine .bind (EventRepo.every_create hplain (rowSafe_insertEvent _ _)) fun _ => ?_
    exact .bind (Sql.every_record hplain) fun _ => trivial

theorem sameRows_postEvent (hstatus : db.statusOf taskId ≠ some .claimed) (spec : EventSpec) :
    Sql.Keeps SameRows (postEvent taskId spec none d) db :=
  (performs_postEvent d hstatus spec).keeps fun _ hop => hop

theorem performs_narrate {task : Task} (hstatus : db.statusOf task.id ≠ some .claimed)
    (actorId : String) (type : EventType) (body : String) (payload : EventPayload) :
    (narrate actorId task type body payload d).Performs Op.exec RowSafe db := by
  refine .tryCatch ((performs_postEvent d hstatus _).bind fun _ _ _ => trivial) fun e c' hc' => ?_
  cases hc'
  trivial

/-- It always returns. -/
theorem run_narrate {task : Task} (hstatus : db.statusOf task.id ≠ some .claimed)
    (actorId : String) (type : EventType) (body : String) (payload : EventPayload) :
    ∃ db', (narrate actorId task type body payload d).run Op.exec db = (.ok (), db') ∧
      SameRows db db' := by
  refine ⟨_, Prod.ext ?_ rfl,
    (performs_narrate d hstatus actorId type body payload).keeps fun _ hop => hop⟩
  rw [narrate, Coro.run_tryCatch]
  split
  · rfl
  · rfl

end Narrate

end TaskService

end Krewhub
