import Krewhub.Services.TaskService

/-!
# Batches of events

`post_events_batch` takes dictionaries, reads one key after the other, and commits each event before it looks at
the next dictionary. A batch it turns down half way leaves its first half on the tape, and the task working.
-/

namespace Krewhub

/-- A dictionary passed to `post_events_batch`, `none` for a key that is missing; `validates` says whether the
model takes what there is under the keys that are not looked at here. -/
structure EventDict where
  type : Option String := none
  actorId : Option String := none
  actorType : Option String := none
  body : String := ""
  payload : Option EventPayload := none
  facts : Option (List String) := some []
  codeRefs : Option (List String) := some []
  visibility : Option String := none
  validates : Bool := true
  deriving DecidableEq, Repr

/-- `model_dump` of an item of the request. -/
def EventDict.ofItem (item : BatchEventItem) : EventDict where
  type := some item.type
  actorId := some item.actorId
  actorType := some item.actorType
  body := item.body
  payload := item.payload
  facts := item.facts
  codeRefs := item.codeRefs
  visibility := item.visibility

/-- `d[key]`. -/
def requiredKey (value : Option String) (name : String) : Sql String :=
  match value with
  | none => .raise (.keyError name)
  | some s => return s

/-- What the model says of the other keys. -/
def validated (validates : Bool) : Sql Unit :=
  if validates then return else .raise (.valueError "Event")

namespace TaskService

def actorTypeOf (spec : EventDict) : Sql ActorType :=
  let value := spec.actorType.getD "agent"
  enumMember (ActorType.ofText value) value

/-- The event made of one dictionary. -/
def eventOf (taskId : String) (task : Task) (cookbookId : Option String) (sequence : Nat) (d : Draws)
    (spec : EventDict) : Sql Event := do
  let evtType ← requiredKey spec.type "type"
  let type ← enumMember (EventType.ofText evtType) evtType
  let actorId ← requiredKey spec.actorId "actor_id"
  let actorType ← actorTypeOf spec
  let facts ← parsed spec.facts
  let codeRefs ← parsed spec.codeRefs
  validated spec.validates
  return {
    id := d.hexId "evt_" 8
    cookbookId := cookbookId
    bundleId := some task.bundleId
    taskId := some taskId
    type := type
    actorId := actorId
    actorType := actorType
    body := spec.body
    payload := spec.payload
    sequence := sequence
    facts := facts
    codeRefs := codeRefs
    visibility := orElseText spec.visibility (classifyVisibility evtType)
    createdAt := d.clock }

/-- The loop of `post_events_batch`. -/
def appendEventDicts (taskId : String) (task : Task) (cookbookId : Option String) (d : Draws) :
    List EventDict → Sql (List Event)
  | [] => return []
  | spec :: events => do
    let sequence ← EventRepo.nextSequence (some taskId)
    let event ← eventOf taskId task cookbookId sequence (d.sub events.length) spec
    EventRepo.create event
    Sql.record
    return event :: (← appendEventDicts taskId task cookbookId d events)

/-- `post_events_batch` on any dictionaries. -/
def postEventDicts (taskId : String) (events : List EventDict) (sessionToken : Option String) (d : Draws) :
    Sql (List Event) :=
  match events with
  | [] => return []
  | first :: _ => do
    checkAndStampSessionToken taskId sessionToken
    match ← TaskRepo.get taskId with
    | none => .raise (.valueError s!"Task {taskId} not found")
    | some task =>
      let cookbookId ← cookbookIdForBundle task.bundleId
      startWorking taskId task cookbookId (first.actorId.getD "")
        (do
          let _ ← requiredKey first.actorId "actor_id"
          actorTypeOf first)
        (d.sub 0)
      appendEventDicts taskId task cookbookId (d.sub 1) events

theorem appendEventDicts_ofItem (taskId : String) (task : Task) (cookbookId : Option String) (d : Draws)
    (items : List BatchEventItem) :
    appendEventDicts taskId task cookbookId d (items.map .ofItem) =
      appendEvents taskId task cookbookId d items := by
  induction items with
  | nil => rfl
  | cons item items ih =>
    rw [List.map_cons, appendEventDicts, ih, List.length_map]
    simp only [eventOf, Coro.bind_assoc]
    rfl

/-- On what the endpoint passes, the method is the one of the endpoint. -/
theorem postEventDicts_ofItem (taskId : String) (items : List BatchEventItem) (sessionToken : Option String)
    (d : Draws) :
    postEventDicts taskId (items.map .ofItem) sessionToken d = postEventsBatch taskId items sessionToken d := by
  cases items with
  | nil => rfl
  | cons item items =>
    simp only [postEventsBatch, ← appendEventDicts_ofItem]
    rfl

end TaskService

/-! ### Well-formed dictionaries -/

namespace EventDict

/-- Every key that is looked up is there, and what is under it can be parsed. -/
structure WellFormed (spec : EventDict) : Prop where
  type : (spec.type.bind EventType.ofText).isSome
  actorId : spec.actorId.isSome
  actorType : (ActorType.ofText (spec.actorType.getD "agent")).isSome
  facts : spec.facts.isSome
  codeRefs : spec.codeRefs.isSome
  validates : spec.validates = true

/-- The event holds what the dictionary does. -/
structure Describes (spec : EventDict) (event : Event) : Prop where
  type : spec.type.bind EventType.ofText = some event.type
  actorId : spec.actorId = some event.actorId
  actorType : ActorType.ofText (spec.actorType.getD "agent") = some event.actorType
  body : spec.body = event.body
  payload : spec.payload = event.payload
  facts : spec.facts = some event.facts
  codeRefs : spec.codeRefs = some event.codeRefs

end EventDict

/-- The ids drawn for the events of a batch. -/
def batchIds (d : Draws) : List EventDict → List String
  | [] => []
  | _ :: events => (d.sub events.length).hexId "evt_" 8 :: batchIds d events

/-- The rows a batch is to insert can be inserted: the bundle is there, and the ids are new and distinct. -/
structure Insertable (db : Db) (bundleId : String) (ids : List String) : Prop where
  bundle : ids ≠ [] → (db.bundles.get bundleId).isSome
  fresh : ∀ id ∈ ids, db.events.get id = none
  nodup : ids.Nodup

/-- The dictionaries make events, and these can be inserted under the ids that were drawn for them. -/
structure Storable (db : Db) (bundleId : String) (specs : List EventDict) (ids : List String) : Prop where
  wellFormed : ∀ spec ∈ specs, spec.WellFormed
  insertable : Insertable db bundleId ids

section Loop

open TaskService

variable {taskId : String} {task : Task} {cookbookId : Option String} {d : Draws} {spec : EventDict}
  {events : List EventDict} {db : Db}

/-- A dictionary makes an event exactly where it is well formed. -/
theorem eventOf_cases (taskId : String) (task : Task) (cookbookId : Option String) (sequence : Nat) (d : Draws)
    (spec : EventDict) :
    (spec.WellFormed ∧ ∃ event : Event, eventOf taskId task cookbookId sequence d spec = .done event ∧
      spec.Describes event ∧ event.id = d.hexId "evt_" 8 ∧ event.bundleId = some task.bundleId) ∨
    ¬ spec.WellFormed ∧ ∃ e, eventOf taskId task cookbookId sequence d spec = .raise e := by
  obtain ⟨type, actorId, actorType, body, payload, facts, codeRefs, visibility, validates⟩ := spec
  cases type with
  | none => exact .inr ⟨fun h => by simpa using h.type, _, rfl⟩
  | some evtType =>
  cases htype : EventType.ofText evtType with
  | none =>
    refine .inr ⟨fun h => by simpa [htype] using h.type, .valueError evtType, ?_⟩
    change (enumMember (EventType.ofText evtType) evtType >>= _) = _
    rw [htype]
    rfl
  | some member =>
  have heq : ∀ spec : EventDict, spec.type = some evtType → eventOf taskId task cookbookId sequence d spec = (do
      let actorId ← requiredKey spec.actorId "actor_id"
      let actorType ← actorTypeOf spec
      let facts ← parsed spec.facts
      let codeRefs ← parsed spec.codeRefs
      validated spec.validates
      return {
        id := d.hexId "evt_" 8, cookbookId := cookbookId, bundleId := some task.bundleId, taskId := some taskId,
        type := member, actorId := actorId, actorType := actorType, body := spec.body, payload := spec.payload,
        sequence := sequence, facts := facts, codeRefs := codeRefs,
        visibility := orElseText spec.visibility (classifyVisibility evtType), createdAt := d.clock }) := by
    intro spec hspec
    rw [eventOf, hspec]
    change (enumMember (EventType.ofText evtType) evtType >>= _) = _
    rw [htype]
    rfl
  cases actorId with
  | none => exact .inr ⟨fun h => by simpa using h.actorId, .keyError "actor_id", heq _ rfl⟩
  | some actorId =>
  cases hactor : ActorType.ofText (actorType.getD "agent") with
  | none =>
    refine .inr ⟨fun h => by simpa [hactor] using h.actorType, .valueError (actorType.getD "agent"), ?_⟩
    rw [heq _ rfl]
    change (enumMember (ActorType.ofText (actorType.getD "agent")) _ >>= _) = _
    rw [hactor]
    rfl
  | some actorMember =>
  have heq' : ∀ facts codeRefs validates,
      eventOf taskId task cookbookId sequence d
        ⟨some evtType, some actorId, actorType, body, payload, facts, codeRefs, visibility, validates⟩ = (do
      let facts ← parsed facts
      let codeRefs ← parsed codeRefs
      validated validates
      return {
        id := d.hexId "evt_" 8, cookbookId := cookbookId, bundleId := some task.bundleId, taskId := some taskId,
        type := member, actorId := actorId, actorType := actorMember, body := body, payload := payload,
        sequence := sequence, facts := facts, codeRefs := codeRefs,
        visibility := orElseText visibility (classifyVisibility evtType), createdAt := d.clock }) := by
    intro facts codeRefs validates
    rw [heq _ rfl]
    change (enumMember (ActorType.ofText (actorType.getD "agent")) _ >>= _) = _
    rw [hactor]
    rfl
  rw [heq']
  cases facts with
  | none => exact .inr ⟨fun h => by simpa using h.facts, _, rfl⟩
  | some facts =>
  cases codeRefs with
  | none => exact .inr ⟨fun h => by simpa using h.codeRefs, _, rfl⟩
  | some codeRefs =>
  cases validates with
  | false => exact .inr ⟨fun h => by simpa using h.validates, _, rfl⟩
  | true =>
    exact .inl ⟨⟨by simp [htype], rfl, by simp [hactor], rfl, rfl, rfl⟩, _, rfl,
      ⟨htype, rfl, hactor, rfl, rfl, rfl, rfl⟩, rfl, rfl⟩

/-- An event is inserted, or refused and nothing written. -/
theorem run_create_cases (event : Event) (db : Db) :
    (db.acceptsEvent event = true ∧ (EventRepo.create event).run Op.exec db =
      (.ok (), { db with events := db.events.insert event })) ∨
    (db.acceptsEvent event = false ∧
      (EventRepo.create event).run Op.exec db = (.error (.integrityError "events"), db)) := by
  cases haccepts : db.acceptsEvent event with
  | true =>
    refine .inl ⟨rfl, ?_⟩
    simp [EventRepo.create, Sql.checked, Coro.run_bind, Op.exec, haccepts]
  | false =>
    refine .inr ⟨rfl, ?_⟩
    simp [EventRepo.create, Sql.checked, Coro.run_bind, Op.exec, haccepts]

theorem acceptsEvent_iff {event : Event} {bundleId : String} (hbundle : event.bundleId = some bundleId) :
    db.acceptsEvent event = true ↔ Insertable db bundleId [event.id] := by
  rw [Db.acceptsEvent, hbundle]
  constructor
  · intro h
    simp only [Option.all_some, Bool.and_eq_true, Option.isNone_iff_eq_none] at h
    exact ⟨fun _ => h.2, by simpa using h.1, List.nodup_singleton _⟩
  · rintro ⟨hthere, hfresh, -⟩
    simpa using ⟨hfresh event.id (List.mem_singleton_self _), hthere (by simp)⟩

/-- After the first event the others have to be told from it as well. -/
theorem insertable_cons_iff {event : Event} {bundleId : String} {ids : List String}
    (hfirst : Insertable db bundleId [event.id]) :
    Insertable db bundleId (event.id :: ids) ↔
      Insertable { db with events := db.events.insert event } bundleId ids := by
  have hfree : db.events.get event.id = none := hfirst.fresh event.id (List.mem_singleton_self _)
  have hget : ∀ id, (db.events.insert event).get id = none ↔ id ≠ event.id ∧ db.events.get id = none := by
    intro id
    by_cases hid : id = event.id
    · subst hid
      simp [show (db.events.insert event).get event.id = some event from Table.get_insert_self hfree]
    · simp [hid, show (db.events.insert event).get id = db.events.get id from Table.get_insert_of_ne hid]
  have hbundle : (db.bundles.get bundleId).isSome := hfirst.bundle (by simp)
  constructor
  · rintro ⟨-, hfresh, hnodup⟩
    obtain ⟨hnew, hnodup⟩ := List.nodup_cons.mp hnodup
    refine ⟨fun _ => hbundle, fun id hid => (hget id).mpr ⟨?_, hfresh id (List.mem_cons_of_mem _ hid)⟩, hnodup⟩
    rintro rfl
    exact hnew hid
  · rintro ⟨-, hfresh, hnodup⟩
    refine ⟨fun _ => hbundle, List.forall_mem_cons.mpr ⟨hfree, fun id hid => ((hget id).mp (hfresh id hid)).2⟩,
      List.nodup_cons.mpr ⟨fun hmem => ((hget event.id).mp (hfresh event.id hmem)).1 rfl, hnodup⟩⟩

theorem Insertable.head {bundleId id : String} {ids : List String} (h : Insertable db bundleId (id :: ids)) :
    Insertable db bundleId [id] :=
  ⟨fun _ => h.bundle (by simp), by simpa using h.fresh id List.mem_cons_self, List.nodup_singleton _⟩

/-- What the loop writes: nothing but events, one for each dictionary that it gets through. It gets through all
of them exactly where all can be stored, and through the first where that can. -/
theorem run_appendEventDicts (taskId : String) (task : Task) (cookbookId : Option String) (d : Draws)
    (events : List EventDict) (db : Db) :
    ∃ r stored db', (appendEventDicts taskId task cookbookId d events).run Op.exec db = (r, db') ∧
      db'.tasks = db.tasks ∧ db'.events.rows = db.events.rows ++ stored ∧
      (r = .ok stored ∧ List.Forall₂ EventDict.Describes events stored ∧
          Storable db task.bundleId events (batchIds d events) ∨
        (∃ e, r = .error e) ∧ ¬ Storable db task.bundleId events (batchIds d events) ∧
          (stored = [] ↔ ¬ Storable db task.bundleId (events.take 1) ((batchIds d events).take 1))) := by
  induction events generalizing db with
  | nil =>
    exact ⟨_, [], db, rfl, rfl, (List.append_nil _).symm,
      .inl ⟨rfl, .nil, nofun, ⟨fun h => absurd rfl h, nofun, List.nodup_nil⟩⟩⟩
  | cons spec events ih =>
    rw [appendEventDicts, EventRepo.nextSequence, Coro.run_bind_ok Op.exec (Sql.run_select _ db)]
    rcases eventOf_cases taskId task cookbookId _ (d.sub events.length) spec with
      ⟨hwell, event, heq, hdescribes, hid, hbundle⟩ | ⟨hill, e, heq⟩
    · rw [heq]
      have hids : batchIds d (spec :: events) = event.id :: batchIds d events := by rw [hid]; rfl
      rw [hids]
      rcases run_create_cases event db with ⟨haccepts, hcreate⟩ | ⟨hrefuses, hcreate⟩
      · have hfirst := (acceptsEvent_iff hbundle).mp haccepts
        obtain ⟨r, stored, db', hrest, htasks, hrows, hcase⟩ :=
          ih { db with events := db.events.insert event }
        have hstored : db'.events.rows = db.events.rows ++ event :: stored := by
          rw [hrows]
          change (db.events.insert event).rows ++ stored = _
          rw [Table.rows_insert (hfirst.fresh event.id (List.mem_singleton_self _)), List.append_assoc,
            List.singleton_append]
        have hall : Storable db task.bundleId (spec :: events) (event.id :: batchIds d events) ↔
            Storable { db with events := db.events.insert event } task.bundleId events (batchIds d events) := by
          constructor
          · exact fun h => ⟨fun spec hspec => h.wellFormed spec (List.mem_cons_of_mem _ hspec),
              (insertable_cons_iff hfirst).mp h.insertable⟩
          · exact fun h => ⟨List.forall_mem_cons.mpr ⟨hwell, h.wellFormed⟩,
              (insertable_cons_iff hfirst).mpr h.insertable⟩
        have hrun : ((.done event : Sql Event) >>= fun event => do
            EventRepo.create event
            Sql.record
            return event :: (← appendEventDicts taskId task cookbookId d events)).run Op.exec db =
              ((do return event :: (← appendEventDicts taskId task cookbookId d events) : Sql (List Event))).run
                Op.exec { db with events := db.events.insert event } := by
          change (EventRepo.create event >>= _).run Op.exec db = _
          rw [Coro.run_bind_ok Op.exec hcreate]
          rfl
        rw [hrun]
        rcases hcase with ⟨rfl, hdescribed, hstorable⟩ | ⟨⟨e, rfl⟩, hnot, -⟩
        · rw [Coro.run_bind_ok Op.exec hrest]
          exact ⟨_, event :: stored, db', rfl, htasks, hstored,
            .inl ⟨rfl, .cons hdescribes hdescribed, hall.mpr hstorable⟩⟩
        · rw [Coro.run_bind_error Op.exec hrest]
          refine ⟨_, event :: stored, db', rfl, htasks, hstored, .inr ⟨⟨e, rfl⟩, mt hall.mp hnot, ?_⟩⟩
          refine ⟨fun hnil => absurd hnil (List.cons_ne_nil _ _), fun hhead => absurd ?_ hhead⟩
          exact ⟨by simpa using hwell, hfirst⟩
      · have hfirst : ¬ Insertable db task.bundleId [event.id] := by
          rw [← acceptsEvent_iff hbundle, hrefuses]
          exact Bool.false_ne_true
        refine ⟨.error (.integrityError "events"), [], db, ?_, rfl, (List.append_nil _).symm,
          .inr ⟨⟨_, rfl⟩, fun h => hfirst h.insertable.head, ?_⟩⟩
        · change (EventRepo.create event >>= _).run Op.exec db = _
          rw [Coro.run_bind_error Op.exec hcreate]
        · exact ⟨fun _ h => hfirst h.insertable, fun _ => rfl⟩
    · rw [heq]
      refine ⟨_, [], db, rfl, rfl, (List.append_nil _).symm, .inr ⟨⟨e, rfl⟩, ?_, ?_⟩⟩
      · exact fun h => hill (h.wellFormed spec List.mem_cons_self)
      · exact ⟨fun _ h => hill (h.wellFormed spec (by simp)), fun _ => rfl⟩

end Loop

/-! ### Before the loop -/

/-- The call carries another session token than the task. -/
def TokenRefused (db : Db) (taskId : String) (sessionToken : Option String) : Prop :=
  ∃ task ∈ db.tasks.get taskId, ∃ stamped ∈ task.sessionToken, ∃ token ∈ sessionToken,
    token ≠ "" ∧ stamped ≠ token

/-- The rows of two states that a batch depends on are the same; the task may carry another token. -/
structure SameBatch (taskId : String) (db db' : Db) : Prop where
  events : db'.events = db.events
  bundles : db'.bundles = db.bundles
  task : (db'.tasks.get taskId).map (fun t => (t.status, t.bundleId)) =
    (db.tasks.get taskId).map fun t => (t.status, t.bundleId)

section Start

open TaskService

variable {taskId : String} {task : Task} {cookbookId : Option String} {d : Draws} {first : EventDict}
  {sessionToken : Option String} {db db' : Db} {bundleId : String} {ids : List String}

theorem Insertable.congr (hevents : db'.events = db.events) (hbundles : db'.bundles = db.bundles) :
    Insertable db' bundleId ids ↔ Insertable db bundleId ids := by
  constructor
  · exact fun h => ⟨fun hne => hbundles ▸ h.bundle hne, fun id hid => hevents ▸ h.fresh id hid, h.nodup⟩
  · exact fun h => ⟨fun hne => hbundles ▸ h.bundle hne, fun id hid => hevents ▸ h.fresh id hid, h.nodup⟩

theorem Storable.congr {specs : List EventDict} (hevents : db'.events = db.events)
    (hbundles : db'.bundles = db.bundles) : Storable db' bundleId specs ids ↔ Storable db bundleId specs ids :=
  ⟨fun h => ⟨h.wellFormed, (Insertable.congr hevents hbundles).mp h.insertable⟩,
    fun h => ⟨h.wellFormed, (Insertable.congr hevents hbundles).mpr h.insertable⟩⟩

theorem SameBatch.refl : SameBatch taskId db db := ⟨rfl, rfl, rfl⟩

theorem run_checkAndStampSessionToken_cases (taskId : String) (sessionToken : Option String) (db : Db) :
    (TokenRefused db taskId sessionToken ∧
      ∃ e, (checkAndStampSessionToken taskId sessionToken).run Op.exec db = (.error e, db)) ∨
    ¬ TokenRefused db taskId sessionToken ∧
      ∃ db', (checkAndStampSessionToken taskId sessionToken).run Op.exec db = (.ok (), db') ∧
        SameBatch taskId db db' := by
  unfold checkAndStampSessionToken
  cases sessionToken with
  | none => exact .inr ⟨by simp [TokenRefused], db, rfl, .refl⟩
  | some token =>
    dsimp only
    by_cases hempty : token = ""
    · rw [if_pos hempty]
      exact .inr ⟨by simp [TokenRefused, hempty], db, rfl, .refl⟩
    rw [if_neg hempty, TaskRepo.run_get_bind]
    cases htask : db.tasks.get taskId with
    | none => exact .inr ⟨by simp [TokenRefused, htask], db, rfl, .refl⟩
    | some task =>
      dsimp only
      cases hstamped : task.sessionToken with
      | none =>
        refine .inr ⟨by simp [TokenRefused, htask, hstamped], _, rfl, rfl, rfl, ?_⟩
        change ((Op.exec (.updateTask taskId (.stampSessionToken token) none none) db).tasks.get taskId).map _ = _
        rw [Op.get_exec_updateTask, if_pos rfl, htask]
        rfl
      | some stamped =>
        dsimp only
        by_cases hsame : stamped = token
        · rw [if_pos hsame]
          exact .inr ⟨by simp [TokenRefused, htask, hstamped, hsame], db, rfl, .refl⟩
        · rw [if_neg hsame]
          exact .inl ⟨⟨task, htask, stamped, hstamped, token, rfl, hempty, hsame⟩, _, rfl⟩

/-- The actor of the first dictionary, as the working event takes it. -/
theorem actorOf_cases (first : EventDict) :
    (∃ actor, (do
        let _ ← requiredKey first.actorId "actor_id"
        actorTypeOf first : Sql ActorType) = .done actor) ∨
    ¬ first.WellFormed ∧ ∃ e, (do
        let _ ← requiredKey first.actorId "actor_id"
        actorTypeOf first : Sql ActorType) = .raise e := by
  cases hactor : first.actorId with
  | none => exact .inr ⟨fun h => by simpa [hactor] using h.actorId, _, rfl⟩
  | some actorId =>
    change (∃ actor, enumMember (ActorType.ofText (first.actorType.getD "agent")) _ = _) ∨
      ¬ first.WellFormed ∧ ∃ e, enumMember (ActorType.ofText (first.actorType.getD "agent")) _ = _
    cases hmember : ActorType.ofText (first.actorType.getD "agent") with
    | none => exact .inr ⟨fun h => by simpa [hmember] using h.actorType, _, rfl⟩
    | some actor => exact .inl ⟨actor, rfl⟩

/-- The first event of a claimed task: the task is working, whatever comes of the event that says so. -/
theorem run_startWorking_claimed (htask : db.tasks.get taskId = some task) (hclaimed : task.status = .claimed) :
    ∃ r db', (startWorking taskId task cookbookId (first.actorId.getD "") (do
        let _ ← requiredKey first.actorId "actor_id"
        actorTypeOf first) d).run Op.exec db = (r, db') ∧
      db'.statusOf taskId = some .working ∧
      ((∃ working : Event, r = .ok () ∧ working.type = .taskWorking ∧ working.id = (d.sub 1).hexId "evt_" 8 ∧
          Insertable db task.bundleId [working.id] ∧ db'.events = db.events.insert working ∧
          db'.bundles = db.bundles) ∨
        (∃ e, r = .error e) ∧
          ¬ (first.WellFormed ∧ Insertable db task.bundleId [(d.sub 1).hexId "evt_" 8])) := by
  let update : Op := .updateTask taskId (.patch { status := some .working } (d.sub 0).clock) none (some task)
  have hget : (Op.exec update db).tasks.get taskId =
      some ((TaskUpdate.patch { status := some .working } (d.sub 0).clock).apply task) := by
    rw [Op.get_exec_updateTask, if_pos rfl, htask]
    rfl
  have hstatus : (Op.exec update db).statusOf taskId = some .working := by
    rw [Db.statusOf, hget]
    rfl
  have hinsertable : ∀ ids, Insertable (Op.exec update db) task.bundleId ids ↔ Insertable db task.bundleId ids :=
    fun ids => Insertable.congr rfl rfl
  rw [startWorking, if_neg (not_not.mpr hclaimed), Coro.run_bind_ok Op.exec (TaskRepo.run_update rfl db),
    hget, if_pos Option.isSome_some, Coro.run_bind_ok Op.exec (Sql.run_record _)]
  rcases actorOf_cases first with ⟨actor, hactor⟩ | ⟨hill, e, hactor⟩
  · rw [hactor]
    let working : Event :=
      { id := (d.sub 1).hexId "evt_" 8, cookbookId := cookbookId, bundleId := some task.bundleId,
        taskId := some taskId, type := .taskWorking, actorId := first.actorId.getD "", actorType := actor,
        body := s!"Task '{task.title}' is now working.", visibility := classifyVisibility "task_working",
        createdAt := (d.sub 1).clock }
    have hbind : ∀ f : ActorType → Sql Unit, ((.done actor : Sql ActorType) >>= f) = f actor := fun _ => rfl
    have haccepts : (Op.exec update db).acceptsEvent working = true ↔
        Insertable (Op.exec update db) task.bundleId [working.id] := acceptsEvent_iff rfl
    rw [hbind]
    rcases run_create_cases working (Op.exec update db) with ⟨hyes, hcreate⟩ | ⟨hno, hcreate⟩
    · refine ⟨_, _, Coro.run_bind_ok Op.exec hcreate, hstatus, .inl ⟨working, rfl, rfl, rfl, ?_, rfl, rfl⟩⟩
      exact (hinsertable _).mp (haccepts.mp hyes)
    · refine ⟨_, _, Coro.run_bind_error Op.exec hcreate, hstatus, .inr ⟨⟨_, rfl⟩, fun h => ?_⟩⟩
      have hyes := haccepts.mpr ((hinsertable _).mpr h.2)
      rw [hno] at hyes
      cases hyes
  · rw [hactor]
    exact ⟨_, _, rfl, hstatus, .inr ⟨⟨e, rfl⟩, fun h => hill h.1⟩⟩

end Start

/-! ### All or nothing -/

/-- What is asked of a batch: where the call raises, nothing was stored and the task has the status it had; where
it returns, its events are stored in order, after the one that says that the task is working. -/
structure AllOrNothing (taskId : String) (specs : List EventDict) (db : Db) (out : Except Exn (List Event) × Db) :
    Prop where
  raised : ∀ e, out.1 = .error e →
    out.2.events.rows = db.events.rows ∧ out.2.statusOf taskId = db.statusOf taskId
  returned : ∀ created, out.1 = .ok created → List.Forall₂ EventDict.Describes specs created ∧
    ∃ working, out.2.events.rows = db.events.rows ++ working ++ created ∧ ∀ e ∈ working, e.type = .taskWorking

section Outcome

variable {taskId : String} {specs : List EventDict} {db db' : Db}

theorem allOrNothing_error_iff {e : Exn} : AllOrNothing taskId specs db (.error e, db') ↔
    db'.events.rows = db.events.rows ∧ db'.statusOf taskId = db.statusOf taskId := by
  constructor
  · exact fun h => h.raised e rfl
  · intro h
    refine ⟨fun _ _ => h, fun created hcreated => ?_⟩
    cases hcreated

theorem allOrNothing_ok_iff {created : List Event} : AllOrNothing taskId specs db (.ok created, db') ↔
    List.Forall₂ EventDict.Describes specs created ∧ ∃ working,
      db'.events.rows = db.events.rows ++ working ++ created ∧ ∀ e ∈ working, e.type = .taskWorking := by
  constructor
  · exact fun h => h.returned created rfl
  · intro h
    refine ⟨fun e he => ?_, fun created' hcreated => ?_⟩
    · cases he
    · cases hcreated
      exact h

theorem AllOrNothing.congr {db₀ : Db} {out : Except Exn (List Event) × Db} (hevents : db.events = db₀.events)
    (hstatus : db.statusOf taskId = db₀.statusOf taskId) :
    AllOrNothing taskId specs db out ↔ AllOrNothing taskId specs db₀ out := by
  constructor
  · exact fun h => ⟨fun e he => hevents ▸ hstatus ▸ h.raised e he, fun c hc => hevents ▸ h.returned c hc⟩
  · exact fun h => ⟨fun e he => hevents ▸ hstatus ▸ h.raised e he, fun c hc => hevents ▸ h.returned c hc⟩

end Outcome

/-- The ids drawn for a call, with that of the event that says that the task is working. -/
def drawnIds (d : Draws) (task : Task) (specs : List EventDict) : List String :=
  if task.status = .claimed then ((d.sub 0).sub 1).hexId "evt_" 8 :: batchIds (d.sub 1) specs
  else batchIds (d.sub 1) specs

section Task

open TaskService

variable {taskId : String} {task : Task} {first : EventDict} {specs : List EventDict} {d : Draws} {db : Db}

/-- What `post_events_batch` does once it has its task. -/
def postToTask (taskId : String) (task : Task) (cookbookId : Option String) (d : Draws) (first : EventDict)
    (specs : List EventDict) : Sql (List Event) := do
  startWorking taskId task cookbookId (first.actorId.getD "")
    (do
      let _ ← requiredKey first.actorId "actor_id"
      actorTypeOf first)
    (d.sub 0)
  appendEventDicts taskId task cookbookId (d.sub 1) (first :: specs)

/-- The status of a claimed task has changed before a dictionary is read. -/
theorem allOrNothing_claimed_iff (htask : db.tasks.get taskId = some task) (hclaimed : task.status = .claimed)
    (cookbookId : Option String) :
    AllOrNothing taskId (first :: specs) db ((postToTask taskId task cookbookId d first specs).run Op.exec db) ↔
      Storable db task.bundleId (first :: specs) (drawnIds d task (first :: specs)) := by
  have hstatus : db.statusOf taskId = some .claimed := by
    rw [Db.statusOf, htask, Option.map_some, hclaimed]
  rw [postToTask, drawnIds, if_pos hclaimed]
  obtain ⟨r, db₁, hstart, hworking, ⟨working, rfl, htype, hid, hfirst, hevents, hbundles⟩ | ⟨⟨e, rfl⟩, hnot⟩⟩ :=
    run_startWorking_claimed htask hclaimed
  · rw [Coro.run_bind_ok Op.exec hstart, ← hid]
    have hstorable : Storable db task.bundleId (first :: specs)
        (working.id :: batchIds (d.sub 1) (first :: specs)) ↔
        Storable db₁ task.bundleId (first :: specs) (batchIds (d.sub 1) (first :: specs)) := by
      have hcongr : Insertable db₁ task.bundleId (batchIds (d.sub 1) (first :: specs)) ↔
          Insertable { db with events := db.events.insert working } task.bundleId
            (batchIds (d.sub 1) (first :: specs)) := Insertable.congr hevents hbundles
      have hcons := (insertable_cons_iff hfirst).trans hcongr.symm
      exact ⟨fun h => ⟨h.wellFormed, hcons.mp h.insertable⟩, fun h => ⟨h.wellFormed, hcons.mpr h.insertable⟩⟩
    have hrows : db₁.events.rows = db.events.rows ++ [working] := by
      rw [hevents, Table.rows_insert (hfirst.fresh working.id (List.mem_singleton_self _))]
    rw [hstorable]
    obtain ⟨r, stored, db₂, hrun, htasks, hstored, ⟨rfl, hdescribed, hall⟩ | ⟨⟨e, rfl⟩, hnot, -⟩⟩ :=
      run_appendEventDicts taskId task cookbookId (d.sub 1) (first :: specs) db₁
    · rw [hrun, allOrNothing_ok_iff]
      refine ⟨fun _ => hall, fun _ => ⟨hdescribed, [working], by rw [hstored, hrows], fun e he => ?_⟩⟩
      rw [List.mem_singleton.mp he, htype]
    · rw [hrun, allOrNothing_error_iff]
      refine ⟨fun h => ?_, fun h => absurd h hnot⟩
      have hsame : db₂.statusOf taskId = db₁.statusOf taskId := by rw [Db.statusOf, Db.statusOf, htasks]
      rw [hsame, hworking, hstatus] at h
      cases h.2
  · rw [Coro.run_bind_error Op.exec hstart, allOrNothing_error_iff, hworking, hstatus]
    refine ⟨fun h => ?_, fun h => absurd ⟨h.wellFormed first List.mem_cons_self, h.insertable.head⟩ hnot⟩
    cases h.2

/-- A task that is not claimed keeps its status; what is stored of a batch that is turned down is what came
before the dictionary that could not be stored. -/
theorem allOrNothing_open_iff (hclaimed : task.status ≠ .claimed) (cookbookId : Option String) :
    AllOrNothing taskId (first :: specs) db ((postToTask taskId task cookbookId d first specs).run Op.exec db) ↔
      Storable db task.bundleId (first :: specs) (batchIds (d.sub 1) (first :: specs)) ∨
        ¬ Storable db task.bundleId [first] ((batchIds (d.sub 1) (first :: specs)).take 1) := by
  have hstart : (startWorking taskId task cookbookId (first.actorId.getD "") (do
      let _ ← requiredKey first.actorId "actor_id"
      actorTypeOf first) (d.sub 0)).run Op.exec db = (.ok (), db) := by
    rw [startWorking, if_pos hclaimed]
    rfl
  rw [postToTask, Coro.run_bind_ok Op.exec hstart]
  obtain ⟨r, stored, db₁, hrun, htasks, hstored, ⟨rfl, hdescribed, hall⟩ | ⟨⟨e, rfl⟩, hnot, hhead⟩⟩ :=
    run_appendEventDicts taskId task cookbookId (d.sub 1) (first :: specs) db
  · rw [hrun, allOrNothing_ok_iff]
    exact ⟨fun _ => .inl hall, fun _ => ⟨hdescribed, [], by rw [hstored, List.append_nil],
      fun e he => absurd he List.not_mem_nil⟩⟩
  · rw [hrun, allOrNothing_error_iff, hstored]
    have hsame : db₁.statusOf taskId = db.statusOf taskId := by rw [Db.statusOf, Db.statusOf, htasks]
    rw [List.append_right_eq_self, hhead]
    exact ⟨fun h => .inr h.1, fun h => ⟨h.resolve_left hnot, hsame⟩⟩

end Task

/-- The batch is empty, the task is not there or refuses the token, the whole batch can be stored, or its first
dictionary cannot and the task is not claimed. -/
def StoresWhole (db : Db) (taskId : String) (specs : List EventDict) (sessionToken : Option String) (d : Draws) :
    Prop :=
  specs = [] ∨ TokenRefused db taskId sessionToken ∨ ∀ task ∈ db.tasks.get taskId,
    Storable db task.bundleId specs (drawnIds d task specs) ∨
    task.status ≠ .claimed ∧ ¬ Storable db task.bundleId (specs.take 1) ((batchIds (d.sub 1) specs).take 1)

section HalfBatch

private def claimedTask : Db where
  bundles := ⟨[{ id := "bun_1" }], by decide⟩
  tasks := ⟨[{ id := "t", bundleId := "bun_1", status := .claimed }], by decide⟩

private def halfBatch : List EventDict :=
  [{ type := some "milestone", actorId := some "a" }, { type := some "nonsense", actorId := some "a" }]

end HalfBatch

end Krewhub
