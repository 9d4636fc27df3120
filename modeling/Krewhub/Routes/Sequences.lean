import Krewhub.Base.Interleave
import Krewhub.Controllers.LinkReconciler
import Krewhub.Routes.Callbacks

/-!
# Sequences

`next_sequence` reads the highest sequence on the tape of a task, and the writer inserts its event with the
next one. The writers that do not ask for a sequence leave the column at its default, which is zero. Of the
others each asks right before it inserts: what it has been told is what its last operation has met.
-/

namespace Krewhub

/-- The events of a task, in the order they were inserted in. -/
def tapeOf (db : Db) (taskId : String) : List Event :=
  db.events.rows.filter (·.taskId == some taskId)

/-- What `next_sequence` reads. -/
def nextSequenceOf (db : Db) (taskId : String) : Nat :=
  ((tapeOf db taskId).map (·.sequence)).foldl max 0 + 1

theorem nextSequence_eq (taskId : String) :
    EventRepo.nextSequence (some taskId) = Sql.select (nextSequenceOf · taskId) := by
  rw [EventRepo.nextSequence]
  congr 1
  funext db
  rw [nextSequenceOf, tapeOf]
  congr 2
  rw [← List.filterMap_eq_map, ← List.filterMap_eq_filter, List.filterMap_filterMap]
  congr 1
  funext e
  by_cases he : e.taskId = some taskId <;> simp [he, Option.guard]

theorem le_foldl_max (l : List Nat) (a : Nat) : a ≤ l.foldl max a ∧ ∀ n ∈ l, n ≤ l.foldl max a := by
  induction l generalizing a with
  | nil => simp
  | cons b l ih =>
    obtain ⟨hstart, hrest⟩ := ih (max a b)
    refine ⟨by simp only [List.foldl_cons]; omega, fun n hn => ?_⟩
    rcases List.mem_cons.mp hn with rfl | hn
    · simp only [List.foldl_cons]
      omega
    · exact hrest n hn

theorem sequence_lt_nextSequenceOf {db : Db} {taskId : String} {e : Event} (he : e ∈ tapeOf db taskId) :
    e.sequence < nextSequenceOf db taskId := by
  have hle := (le_foldl_max ((tapeOf db taskId).map (·.sequence)) 0).2 e.sequence
    (List.mem_map_of_mem he)
  rw [nextSequenceOf]
  omega

theorem nextSequenceOf_pos (db : Db) (taskId : String) : 0 < nextSequenceOf db taskId :=
  Nat.succ_pos _

/-- An event carries no sequence, or the one that was next when the last operation ran; and no task goes
away. -/
def Allocated (last : Option Db) : Op → Prop
  | .insertEvent e _ => ∀ taskId ∈ e.taskId,
      e.sequence = 0 ∨ ∃ db ∈ last, e.sequence = nextSequenceOf db taskId
  | .deleteTask _ => False
  | _ => True

/-- The coroutine puts onto a tape only events without a sequence, and events it has asked a sequence for
right before. -/
def Allocates {α : Type} (c : Sql α) : Prop :=
  ∀ last, c.Follows Allocated (fun _ _ db => some db) (fun _ _ => True) last

/-- Whatever has run before, the operation may come next. -/
def SkipsSequence (op : Op) : Prop := ∀ last, Allocated last op

theorem plainOps_skipsSequence : PlainOps SkipsSequence :=
  ⟨fun _ => trivial, fun _ => trivial, fun _ => trivial⟩

theorem skipsSequence_insertEvent {e : Event} (h : e.sequence = 0) (reported : Option Link) :
    SkipsSequence (.insertEvent e reported) := fun _ _ _ => .inl h

theorem skipsSequence_updateTask (id : String) (u : TaskUpdate) (expected : Option Nat)
    (seen : Option Task) : SkipsSequence (.updateTask id u expected seen) := fun _ => trivial

namespace Allocates

variable {α β : Type}

theorem done (a : α) : Allocates (.done a) := fun _ => trivial

theorem raise (e : Exn) : Allocates (.raise e : Sql α) := fun _ => trivial

theorem of_every {c : Sql α} (hc : c.Every SkipsSequence) : Allocates c := fun _ =>
  .of_every_free hc (fun last _ hop => hop last) fun _ _ => trivial

theorem bind {c : Sql α} {f : α → Sql β} (hc : Allocates c) (hf : ∀ a, Allocates (f a)) :
    Allocates (c >>= f) := fun last => (hc last).bind fun last' a _ => hf a last'

theorem ite {p : Prop} [Decidable p] {c d : Sql α} (hc : p → Allocates c) (hd : ¬ p → Allocates d) :
    Allocates (if p then c else d) := fun last => .ite (fun hp => hc hp last) fun hp => hd hp last

theorem select_bind {read : Db → α} {f : α → Sql β} (hf : ∀ db, Allocates (f (read db))) :
    Allocates (Sql.select read >>= f) := fun _ => .perform_bind trivial fun db => hf db _

theorem tryCatch {c : Sql α} {handler : Exn → Option (Sql α)} (hc : Allocates c)
    (hhandler : ∀ e, ∀ c' ∈ handler e, Allocates c') : Allocates (c.tryCatch handler) := by
  have htry : ∀ (c : Sql α) last,
      c.Follows Allocated (fun _ _ db => some db) (fun _ _ => True) last →
      (c.tryCatch handler).Follows Allocated (fun _ _ db => some db) (fun _ _ => True) last := by
    intro c
    induction c with
    | done a => exact fun _ _ => trivial
    | raise e =>
      intro last _
      unfold Coro.tryCatch
      cases hcase : handler e with
      | none => trivial
      | some c' => exact hhandler e c' hcase last
    | await op next ih => exact fun _ h => ⟨h.1, fun db => ih db _ (h.2 db)⟩
  exact fun last => htry c last (hc last)

/-- A sequence is asked for, and the event is inserted next. -/
theorem next_insert {taskId : String} {event : Nat → Event} (htask : ∀ n, (event n).taskId = some taskId)
    (hsequence : ∀ n, (event n).sequence = n) {reported : Option Link} {ok : Nat → Db → Bool}
    {f : Nat → Sql α} (hf : ∀ n, Allocates (f n)) :
    Allocates (do
      let n ← EventRepo.nextSequence (some taskId)
      Sql.checked (.insertEvent (event n) reported) (ok n) "events"
      f n) := by
  rw [nextSequence_eq]
  refine fun last => .perform_bind trivial fun db => ⟨?_, fun db' => ?_⟩
  · intro taskId' htaskId
    rw [htask, Option.mem_some_iff] at htaskId
    exact .inr ⟨db, rfl, by rw [hsequence, htaskId]⟩
  · show Coro.Follows _ _ _ _ ((if _ then (.done () : Sql Unit) else .raise _) >>= _)
    cases ok (nextSequenceOf db taskId) db' with
    | true => exact hf _ _
    | false => trivial

theorem next_create {taskId : String} {event : Nat → Event} (htask : ∀ n, (event n).taskId = some taskId)
    (hsequence : ∀ n, (event n).sequence = n) {f : Nat → Sql α} (hf : ∀ n, Allocates (f n)) :
    Allocates (do
      let n ← EventRepo.nextSequence (some taskId)
      EventRepo.create (event n)
      f n) := by
  have hrest : ∀ n, Allocates (do Sql.record; Sql.commit; f n) := fun n =>
    .bind (.of_every (Sql.every_record plainOps_skipsSequence)) fun _ =>
      .bind (.of_every (Sql.every_commit plainOps_skipsSequence)) fun _ => hf n
  have hinsert : Allocates (do
      let n ← EventRepo.nextSequence (some taskId)
      Sql.checked (.insertEvent (event n)) (·.acceptsEvent (event n)) "events"
      Sql.record
      Sql.commit
      f n) := next_insert htask hsequence hrest
  simpa only [EventRepo.create, Coro.bind_assoc] using hinsert

end Allocates

/-! ### The writers -/

section Writers

open Allocates

theorem allocates_create {event : Event} (h : event.sequence = 0) : Allocates (EventRepo.create event) :=
  of_every (EventRepo.every_create plainOps_skipsSequence (skipsSequence_insertEvent h none))

theorem allocates_record : Allocates Sql.record := of_every (Sql.every_record plainOps_skipsSequence)

theorem allocates_cookbookIdForBundle (bundleId : String) :
    Allocates (TaskService.cookbookIdForBundle bundleId) :=
  of_every (TaskService.every_cookbookIdForBundle plainOps_skipsSequence bundleId)

theorem allocates_recordUpdated (updated : Option Task) :
    Allocates (TaskService.recordUpdated updated) :=
  of_every (TaskService.every_recordUpdated plainOps_skipsSequence updated)

theorem allocates_update (taskId : String) (patch : TaskPatch) (seen : Option Task) (d : Draws) :
    Allocates (TaskRepo.update taskId patch none seen d) :=
  of_every (TaskRepo.every_update plainOps_skipsSequence (skipsSequence_updateTask _ _ _ _))

theorem allocates_claimTask (taskId agentId : String) (cookbookId : Option String) (d : Draws) :
    Allocates (TaskService.claimTask taskId agentId cookbookId d) := by
  refine select_bind fun db => ?_
  cases db.tasks.get taskId with
  | none => exact .done _
  | some task =>
    refine .ite (fun _ => .done _) fun _ => select_bind fun db => .ite (fun _ => .done _) fun _ => ?_
    refine .bind (of_every (TaskService.every_depsDone plainOps_skipsSequence _)) fun ready => ?_
    refine .ite (fun _ => .done _) fun _ => .bind (allocates_cookbookIdForBundle _) fun _ => ?_
    refine .bind (allocates_update _ _ _ _) fun updated => .bind (allocates_create rfl) fun _ => ?_
    exact .bind (allocates_recordUpdated _) fun _ => .done _

theorem allocates_startWorking (taskId : String) (task : Task) (cookbookId : Option String)
    (actorId : String) {actorType : Sql ActorType} (hactor : Allocates actorType) (d : Draws) :
    Allocates (TaskService.startWorking taskId task cookbookId actorId actorType d) := by
  refine .ite (fun _ => .done _) fun _ => .bind (allocates_update _ _ _ _) fun updated => ?_
  refine .ite (fun _ => ?_) fun _ => .done _
  refine .bind allocates_record fun _ => .bind hactor fun _ => ?_
  exact .bind (allocates_create rfl) fun _ => allocates_record

theorem allocates_checkAndStampSessionToken (taskId : String) (sessionToken : Option String) :
    Allocates (TaskService.checkAndStampSessionToken taskId sessionToken) :=
  of_every (TaskService.every_checkAndStampSessionToken plainOps_skipsSequence
    (fun _ => skipsSequence_updateTask _ _ _ _) sessionToken)

theorem allocates_postEvent (taskId : String) (spec : EventSpec) (sessionToken : Option String)
    (d : Draws) : Allocates (TaskService.postEvent taskId spec sessionToken d) := by
  refine .bind (allocates_checkAndStampSessionToken _ _) fun _ => select_bind fun db => ?_
  cases db.tasks.get taskId with
  | none => exact .raise _
  | some task =>
    refine .bind (allocates_cookbookIdForBundle _) fun _ => ?_
    refine .bind (allocates_startWorking _ _ _ _ (.done _) _) fun _ => ?_
    exact next_create (fun _ => rfl) (fun _ => rfl) fun _ => .bind allocates_record fun _ => .done _

theorem allocates_enumMember {α : Type} (member : Option α) (value : String) :
    Allocates (enumMember member value) := by
  cases member with
  | none => exact .raise _
  | some a => exact .done a

theorem allocates_appendEvents (taskId : String) (task : Task) (cookbookId : Option String) (d : Draws)
    (events : List BatchEventItem) :
    Allocates (TaskService.appendEvents taskId task cookbookId d events) := by
  induction events with
  | nil => exact .done _
  | cons spec events ih =>
    have hraise : ∀ e : Exn, Allocates (do
        let _ ← EventRepo.nextSequence (some taskId)
        (.raise e : Sql (List Event))) := fun e =>
      .bind (of_every (EventRepo.every_nextSequence plainOps_skipsSequence _)) fun _ => .raise e
    rw [TaskService.appendEvents]
    cases EventType.ofText spec.type with
    | none => exact hraise _
    | some type =>
      cases ActorType.ofText spec.actorType with
      | none => exact hraise _
      | some actorType =>
        cases spec.facts with
        | none => exact hraise _
        | some facts =>
          cases spec.codeRefs with
          | none => exact hraise _
          | some codeRefs =>
            exact next_create (fun _ => rfl) (fun _ => rfl) fun _ =>
              .bind allocates_record fun _ => .bind ih fun _ => .done _

theorem allocates_postEventsBatch (taskId : String) (events : List BatchEventItem)
    (sessionToken : Option String) (d : Draws) :
    Allocates (TaskService.postEventsBatch taskId events sessionToken d) := by
  cases events with
  | nil => exact .done _
  | cons first events =>
    refine .bind (allocates_checkAndStampSessionToken _ _) fun _ => select_bind fun db => ?_
    cases db.tasks.get taskId with
    | none => exact .raise _
    | some task =>
      refine .bind (allocates_cookbookIdForBundle _) fun _ => ?_
      refine .bind (allocates_startWorking _ _ _ _ (allocates_enumMember _ _) _) fun _ => ?_
      exact allocates_appendEvents _ _ _ _ _

theorem allocates_taskCallback (req : TaskCallbackRequest) (d : Draws) :
    Allocates (taskCallback req d) := by
  refine select_bind fun db => ?_
  cases db.tasks.get req.taskId with
  | none => exact .raise _
  | some task =>
    refine .ite (fun _ => .raise _) fun _ => .bind (allocates_update _ _ _ _) fun updated => ?_
    refine .bind (allocates_cookbookIdForBundle _) fun _ => .bind (allocates_create rfl) fun _ => ?_
    exact .bind (allocates_recordUpdated _) fun _ => .done _

theorem allocates_ingestHook (req : HookIngestRequest) (d : Draws) : Allocates (ingestHook req d) := by
  refine .bind (of_every (every_hookScope plainOps_skipsSequence req)) fun scope => ?_
  refine .ite (fun _ => .raise _) fun _ => .bind (allocates_create rfl) fun _ => ?_
  exact .bind allocates_record fun _ => .done _

theorem allocates_appendTaskFollowup (taskId prompt : String) (caller : CallerContext) (d : Draws) :
    Allocates (appendTaskFollowup taskId prompt caller d) := by
  have hend : Allocates (do Sql.commit; TaskRepo.get taskId) :=
    of_every (.bind (Sql.every_commit plainOps_skipsSequence) fun _ =>
      TaskRepo.every_get plainOps_skipsSequence _)
  refine .ite (fun _ => .raise _) fun _ => select_bind fun db => ?_
  cases db.tasks.get taskId with
  | none => exact .raise _
  | some task =>
    refine .bind (of_every (every_authorizeTaskMutation plainOps_skipsSequence _ _)) fun _ => ?_
    refine select_bind fun db => ?_
    cases db.bundles.get task.bundleId with
    | none => exact .raise _
    | some bundle =>
      refine next_insert (fun _ => rfl) (fun _ => rfl) fun _ => .ite (fun _ => ?_) fun _ => hend
      exact .bind (of_every ((Coro.every_perform _ _).mpr (skipsSequence_updateTask _ _ _ _)))
        fun _ => hend

theorem allocates_projectInvocation (taskId invocationId body actorId : String) (d : Draws) :
    Allocates (projectInvocation taskId invocationId body actorId d) := by
  refine select_bind fun db => .ite (fun _ => .done _) fun _ => select_bind fun db => ?_
  dsimp only
  split
  · exact .done _
  · refine .ite (fun _ => .done _) fun _ => ?_
    exact next_insert (fun _ => rfl) (fun _ => rfl) fun _ =>
      of_every (Sql.every_commit plainOps_skipsSequence)

theorem allocates_maybeFlowReport (link : Link) (d : Draws) :
    Allocates (LinkReconcileController.maybeFlowReport link d) := by
  have hmark : Allocates (LinkReconcileController.markLinkFired link d) :=
    of_every (LinkReconcileController.every_markLinkFired link d plainOps_skipsSequence
      fun _ _ => trivial)
  refine select_bind fun db => ?_
  cases db.tasks.get link.toTaskId with
  | none => exact hmark
  | some child =>
    refine .ite (fun _ => select_bind fun db => ?_) fun _ => .done _
    cases db.tasks.get link.fromTaskId with
    | none => exact hmark
    | some parent =>
      refine .ite (fun _ => hmark) fun _ => ?_
      refine .bind (of_every (LinkReconcileController.every_upstreamOutput plainOps_skipsSequence _ _))
        fun _ => select_bind fun db => ?_
      exact next_insert (fun _ => rfl) (fun _ => rfl) fun _ =>
        .bind hmark fun _ => select_bind fun db => allocates_recordUpdated _

end Writers

end Krewhub
