import Krewhub.Base.Paging
import Krewhub.Routes.Sequences
import Mathlib.Data.List.Sort

/-!
# The event feed

Writers put events onto the tape of a task, retention deletes what has expired, and a client reads the tape
page by page, with the last sequence it has seen. Where every writer asks for a sequence, nothing touches
the tape between that and its insertion, and the newest event is never deleted, the sequences increase for
good, and the client reads every event exactly once as long as nothing is deleted before it has read it.
-/

namespace Krewhub

/-- The cursor of a client that has received these events. -/
def seenUpTo (received : List Event) : Option Nat := Paging.next Event.sequence none received

/-- The page of `get_task_events`. -/
def eventsPage (db : Db) (taskId : String) (limit : Int) (sinceSeq : Option Nat) : List Event :=
  ((Paging.after Event.sequence sinceSeq (tapeOf db taskId)).insertionSort fun a b =>
    a.sequence ≤ b.sequence).take (max 1 (min limit 1000)).toNat

/-- What puts events onto a tape, or takes them off. -/
inductive TapeWriter where
  | post (taskId : String) (spec : EventSpec) (sessionToken : Option String) (d : Draws)
  | batch (taskId : String) (events : List BatchEventItem) (sessionToken : Option String) (d : Draws)
  | claim (taskId agentId : String) (cookbookId : Option String) (d : Draws)
  | callback (req : TaskCallbackRequest) (d : Draws)
  | hook (req : HookIngestRequest) (d : Draws)
  | followup (taskId prompt : String) (caller : CallerContext) (d : Draws)
  | projection (taskId invocationId body actorId : String) (d : Draws)
  | report (link : Link) (d : Draws)
  | expire (bundleId : String) (expiresAt : Nat)
  | delete (now : Nat)

namespace TapeWriter

def program : TapeWriter → Sql Unit
  | post taskId spec token d => discard (TaskService.postEvent taskId spec token d)
  | batch taskId events token d => discard (TaskService.postEventsBatch taskId events token d)
  | claim taskId agentId cookbookId d => discard (TaskService.claimTask taskId agentId cookbookId d)
  | callback req d => discard (taskCallback req d)
  | hook req d => discard (ingestHook req d)
  | followup taskId prompt caller d => discard (appendTaskFollowup taskId prompt caller d)
  | projection taskId invocationId body actorId d => projectInvocation taskId invocationId body actorId d
  | report link d => LinkReconcileController.maybeFlowReport link d
  | expire bundleId expiresAt => EventRepo.setExpiryForBundle bundleId expiresAt
  | delete now => discard (EventRepo.deleteExpired now)

theorem allocates_program (w : TapeWriter) : Allocates w.program := by
  have hdiscard : ∀ {α : Type} {c : Sql α}, Allocates c → Allocates (discard c) :=
    fun hc => .bind hc fun _ => .done _
  cases w
  case post => exact hdiscard (allocates_postEvent _ _ _ _)
  case batch => exact hdiscard (allocates_postEventsBatch _ _ _ _)
  case claim => exact hdiscard (allocates_claimTask _ _ _ _)
  case callback => exact hdiscard (allocates_taskCallback _ _)
  case hook => exact hdiscard (allocates_ingestHook _ _)
  case followup => exact hdiscard (allocates_appendTaskFollowup _ _ _ _)
  case projection => exact allocates_projectInvocation _ _ _ _ _
  case report => exact allocates_maybeFlowReport _ _
  case expire => exact .of_every ⟨fun _ => trivial, fun _ => Sql.every_commit plainOps_skipsSequence⟩
  case delete =>
    refine hdiscard (.of_every (.bind ((Coro.every_perform _ _).mpr fun _ => trivial) fun _ => ?_))
    exact .bind (Sql.every_commit plainOps_skipsSequence) fun _ => trivial

end TapeWriter

/-- The database; what each coroutine's last statement has met; the id and the sequence of every event that
has been put onto the tape of one task; what each client has received. -/
structure FeedState where
  db : Db
  met : Nat → Option Db := fun _ => none
  written : List (String × Nat)
  received : Nat → List Event := fun _ => []

/-- A statement of the coroutine with this number, or one of the two `SELECT`s of a client's request. -/
inductive FeedOp where
  | sql (n : Nat) (op : Op)
  | find (n : Nat)
  | page (n : Nat) (limit : Int) (sinceSeq : Option Nat)

/-- The id and the sequence of an event. -/
def Event.stamp (e : Event) : String × Nat := (e.id, e.sequence)

namespace FeedState

/-- What an operation puts onto the tape. -/
def puts (taskId : String) (db : Db) : Op → List (String × Nat)
  | .insertEvent e _ => if db.acceptsEvent e ∧ e.taskId = some taskId then [e.stamp] else []
  | _ => []

def exec (taskId : String) (op : FeedOp) (s : FeedState) : FeedState :=
  match op with
  | .sql n op =>
    { s with
      db := op.exec s.db
      met := Function.update s.met n (some s.db)
      written := s.written ++ puts taskId s.db op }
  | .find _ => s
  | .page n limit sinceSeq =>
    { s with
      received := Function.update s.received n
        (s.received n ++ eventsPage s.db taskId limit sinceSeq) }

/-- A database with the tape as it is. -/
def of (taskId : String) (db : Db) : FeedState where
  db := db
  written := (tapeOf db taskId).map Event.stamp

end FeedState

section Feed

variable (taskId : String)

def getTaskEvents (n : Nat) (limit : Int) (sinceSeq : Option Nat) :
    Coro FeedState FeedOp Exn (List Event) := do
  if ← .perform (.find n) fun s => (s.db.tasks.get taskId).isNone then
    .raise (.http 404 "Task not found")
  .perform (.page n limit sinceSeq) fun s => eventsPage s.db taskId limit sinceSeq

/-- A client that asks for one page after the other. -/
def followTape (n : Nat) (limit : Int) : Nat → Option Nat → Coro FeedState FeedOp Exn (List Event)
  | 0, _ => return []
  | polls + 1, sinceSeq => do
    let page ← getTaskEvents taskId n limit sinceSeq
    let rest ← followTape n limit polls (Paging.next Event.sequence sinceSeq page)
    return page ++ rest

/-- A writer, or a client. -/
inductive FeedCall where
  | write (w : TapeWriter)
  | read (limit : Int) (polls : Nat)

def FeedCall.program (n : Nat) : FeedCall → Coro FeedState FeedOp Exn (List Event)
  | write w => do
    w.program.within FeedState.db (.sql n)
    return []
  | read limit polls => followTape taskId n limit polls none

variable (calls : Nat → FeedCall)

/-- Writers and clients side by side; none has begun. -/
def feedPool (db : Db) : Pool Nat FeedState FeedOp Exn (List Event) :=
  .init (fun n => (calls n).program taskId n) (.of taskId db)

/-- An event that is put onto the tape carries a sequence, and nothing has been put onto the tape since the
writer asked for it; an event that is deleted is not the newest one. -/
def Orderly (s : FeedState) (n : Nat) : FeedOp → Prop
  | .sql _ (.insertEvent e _) => s.db.acceptsEvent e = true → e.taskId = some taskId →
      e.sequence ≠ 0 ∧ ∀ db ∈ s.met n, ∀ e' ∈ tapeOf s.db taskId,
        e'.stamp ∈ (tapeOf db taskId).map Event.stamp
  | .sql _ (.deleteExpired now) => ∀ e ∈ tapeOf s.db taskId, e.isExpired now = true →
      ∃ e' ∈ tapeOf s.db taskId, e'.isExpired now = false ∧ e.sequence < e'.sequence
  | _ => True

/-- An event that is deleted has been received. -/
def DeletesRead (reader : Nat) (s : FeedState) (_ : Nat) : FeedOp → Prop
  | .sql _ (.deleteExpired now) => ∀ e ∈ tapeOf s.db taskId, e.isExpired now = true →
      e.stamp ∈ (s.received reader).map Event.stamp
  | _ => True

/-! ### The turns of a writer and of a client -/

/-- What the last statement has met, and what has been received. -/
structure FeedTurn where
  met : Option Db := none
  received : List Event := []

def FeedAllowed (n : Nat) (q : FeedTurn) : FeedOp → Prop
  | .sql m op => m = n ∧ Allocated q.met op
  | .find m => m = n
  | .page m _ sinceSeq => m = n ∧ sinceSeq = seenUpTo q.received

def feedAdvance (q : FeedTurn) (op : FeedOp) (s : FeedState) : FeedTurn :=
  match op with
  | .sql .. => { q with met := some s.db }
  | .find _ => q
  | .page _ limit sinceSeq => { q with received := q.received ++ eventsPage s.db taskId limit sinceSeq }

def feedProtocol : Protocol Nat FeedState FeedOp (List Event) FeedTurn where
  start := {}
  allowed := FeedAllowed
  advance := feedAdvance taskId
  final _ q received := received = q.received

variable {taskId calls}

theorem follows_followTape (n : Nat) (limit : Int) (polls : Nat) (q : FeedTurn) :
    (followTape taskId n limit polls (seenUpTo q.received)).Follows (FeedAllowed n) (feedAdvance taskId)
      (fun q' rest => q'.received = q.received ++ rest) q := by
  induction polls generalizing q with
  | zero => exact (List.append_nil _).symm
  | succ polls ih =>
    rw [followTape, getTaskEvents, Coro.bind_assoc]
    refine .perform_bind rfl fun s => ?_
    by_cases htask : (s.db.tasks.get taskId).isNone = true
    · rw [if_pos htask]
      trivial
    · rw [if_neg htask]
      refine .perform_bind ⟨rfl, rfl⟩ fun s => ?_
      have hnext : seenUpTo (q.received ++ eventsPage s.db taskId limit (seenUpTo q.received)) =
          Paging.next Event.sequence (seenUpTo q.received)
            (eventsPage s.db taskId limit (seenUpTo q.received)) := Paging.next_append _ _ _
      rw [← hnext]
      refine (ih { q with received := q.received ++ eventsPage s.db taskId limit _ }).bind
        fun q' rest hrest => ?_
      show q'.received = q.received ++ (eventsPage s.db taskId limit _ ++ rest)
      rw [← List.append_assoc]
      exact hrest

theorem follows_program (n : Nat) (call : FeedCall) :
    (call.program taskId n).Follows (FeedAllowed n) (feedAdvance taskId)
      ((feedProtocol taskId).final n) (feedProtocol taskId).start := by
  cases call with
  | read limit polls => exact (follows_followTape n limit polls {}).mono fun q a h => h.symm
  | write w =>
    have hwrite : (w.program.within FeedState.db (.sql n)).Follows (FeedAllowed n) (feedAdvance taskId)
        (fun q _ => q.received = []) {} :=
      Coro.Follows.within (fun met => FeedTurn.mk met []) (w.allocates_program none)
        (fun _ _ h => ⟨rfl, h⟩) (fun _ _ _ => rfl) fun _ _ _ => rfl
    exact hwrite.bind fun q _ h => h.symm

/-! ### The tape -/

variable {db db' : Db} {op : Op}

theorem tapeOf_insertEvent (e : Event) (reported : Option Link) :
    tapeOf (Op.exec (.insertEvent e reported) db) taskId =
      tapeOf db taskId ++ if db.acceptsEvent e ∧ e.taskId = some taskId then [e] else [] := by
  by_cases haccepts : db.acceptsEvent e = true
  · have hnone : db.events.get (key e) = none := by
      rw [Db.acceptsEvent, Bool.and_eq_true, Option.isNone_iff_eq_none] at haccepts
      exact haccepts.1
    rw [Op.exec, if_pos haccepts, tapeOf, tapeOf, Table.rows_insert hnone, List.filter_append]
    by_cases htask : e.taskId = some taskId <;> simp [haccepts, htask]
  · rw [Op.exec, if_neg haccepts, if_neg fun h => haccepts h.1, List.append_nil]

theorem tapeOf_insertTask (t : Task) :
    tapeOf (Op.exec (.insertTask t) db) taskId = tapeOf db taskId := by
  rw [Op.exec]
  split <;> rfl

theorem tapeOf_setExpiry (bundleId : String) (expiresAt : Nat) :
    tapeOf (Op.exec (.setExpiry bundleId expiresAt) db) taskId =
      (tapeOf db taskId).map (Event.expire bundleId expiresAt) := by
  have hsame : ((fun e : Event => e.taskId == some taskId) ∘ Event.expire bundleId expiresAt) =
      fun e => e.taskId == some taskId := by
    funext e
    simp only [Function.comp, Event.expire]
    split <;> rfl
  show (List.map _ _).filter _ = _
  rw [List.filter_map, hsame, tapeOf]

theorem tapeOf_deleteExpired (now : Nat) :
    tapeOf (Op.exec (.deleteExpired now) db) taskId =
      (tapeOf db taskId).filter fun e => !e.isExpired now := by
  show (List.filter _ _).filter _ = _
  rw [tapeOf, List.filter_comm]

theorem stamp_expire (bundleId : String) (expiresAt : Nat) (e : Event) :
    (e.expire bundleId expiresAt).stamp = e.stamp := by
  rw [Event.expire]
  split <;> rfl

/-- Where every event is followed by one with at least its sequence, the next sequence is no smaller. -/
theorem nextSequenceOf_mono
    (h : ∀ e ∈ tapeOf db taskId, ∃ e' ∈ tapeOf db' taskId, e.sequence ≤ e'.sequence) :
    nextSequenceOf db taskId ≤ nextSequenceOf db' taskId := by
  have hfold : ∀ (l : List Nat) (a m : Nat), a ≤ m → (∀ n ∈ l, n ≤ m) → l.foldl max a ≤ m := by
    intro l
    induction l with
    | nil => exact fun a m ha _ => ha
    | cons b l ih =>
      intro a m ha hl
      refine ih _ m ?_ fun n hn => hl n (List.mem_cons_of_mem _ hn)
      have := hl b (List.mem_cons_self ..)
      omega
  rw [nextSequenceOf, nextSequenceOf]
  refine Nat.succ_le_succ (hfold _ _ _ (Nat.zero_le _) fun n hn => ?_)
  obtain ⟨e, he, rfl⟩ := List.mem_map.mp hn
  obtain ⟨e', he', hle⟩ := h e he
  exact hle.trans ((le_foldl_max _ 0).2 _ (List.mem_map_of_mem he'))

/-- An operation leaves of the tape what it was or less, and puts at its end what it puts there. -/
theorem kept_exec (db : Db) (op : Op) :
    ((tapeOf (op.exec db) taskId).map Event.stamp).Sublist
      ((tapeOf db taskId).map Event.stamp ++ FeedState.puts taskId db op) := by
  cases op
  case insertEvent e reported =>
    rw [tapeOf_insertEvent, List.map_append, FeedState.puts]
    split <;> simp
  case insertTask t =>
    rw [tapeOf_insertTask]
    exact List.sublist_append_left _ _
  case setExpiry bundleId expiresAt =>
    have hsame : Event.stamp ∘ Event.expire bundleId expiresAt = Event.stamp :=
      funext (stamp_expire bundleId expiresAt)
    rw [tapeOf_setExpiry, List.map_map, hsame]
    exact List.sublist_append_left _ _
  case deleteExpired now =>
    rw [tapeOf_deleteExpired]
    exact (List.filter_sublist.map _).trans (List.sublist_append_left _ _)
  all_goals exact List.sublist_append_left _ _

section Orderly

variable {s : FeedState} {n : Nat} {last : Option Db} (hallowed : Allocated last op)
  (hlast : s.met n = last) (horderly : Orderly taskId s n (.sql n op))
include hallowed hlast horderly

/-- What an orderly operation puts onto the tape carries a sequence that is new. -/
theorem next_le_of_puts {w : String × Nat} (hw : w ∈ FeedState.puts taskId s.db op) :
    nextSequenceOf s.db taskId ≤ w.2 := by
  cases op
  case insertEvent e reported =>
    rw [FeedState.puts] at hw
    split at hw
    · rename_i hputs
      obtain rfl := List.mem_singleton.mp hw
      obtain ⟨hne, hmet⟩ := horderly hputs.1 hputs.2
      rcases hallowed taskId hputs.2 with hzero | ⟨db, hdb, hsequence⟩
      · exact absurd hzero hne
      · show nextSequenceOf s.db taskId ≤ e.sequence
        rw [hsequence]
        refine nextSequenceOf_mono fun e' he' => ?_
        obtain ⟨e'', he'', hstamp⟩ := List.mem_map.mp (hmet db (hlast ▸ hdb) e' he')
        exact ⟨e'', he'', Nat.le_of_eq (congrArg Prod.snd hstamp).symm⟩
    · cases hw
  all_goals cases hw

omit hallowed hlast in
/-- An orderly operation does not take the next sequence back. -/
theorem nextSequenceOf_le_exec :
    nextSequenceOf s.db taskId ≤ nextSequenceOf (op.exec s.db) taskId := by
  refine nextSequenceOf_mono fun e he => ?_
  cases op
  case insertEvent e' reported =>
    rw [tapeOf_insertEvent]
    exact ⟨e, List.mem_append_left _ he, le_rfl⟩
  case insertTask t =>
    rw [tapeOf_insertTask]
    exact ⟨e, he, le_rfl⟩
  case setExpiry bundleId expiresAt =>
    rw [tapeOf_setExpiry]
    refine ⟨_, List.mem_map_of_mem he, Nat.le_of_eq ?_⟩
    exact (congrArg Prod.snd (stamp_expire bundleId expiresAt e)).symm
  case deleteExpired now =>
    rw [tapeOf_deleteExpired]
    cases hexpired : e.isExpired now with
    | false => exact ⟨e, List.mem_filter.mpr ⟨he, by rw [hexpired]; rfl⟩, le_rfl⟩
    | true =>
      obtain ⟨e', he', hlive, hlt⟩ := horderly e he hexpired
      exact ⟨e', List.mem_filter.mpr ⟨he', by rw [hlive]; rfl⟩, hlt.le⟩
  all_goals exact ⟨e, he, le_rfl⟩

end Orderly

/-- What has been put onto the tape carries increasing sequences, and the tape has kept some of it. -/
structure FeedHolds (taskId : String) (s : FeedState) (q : Nat → FeedTurn) : Prop where
  met : ∀ n, s.met n = (q n).met
  received : ∀ n, s.received n = (q n).received
  task : (s.db.tasks.get taskId).isSome
  kept : ((tapeOf s.db taskId).map Event.stamp).Sublist s.written
  positive : ∀ w ∈ s.written, 0 < w.2
  increasing : s.written.Pairwise fun w w' => w.2 < w'.2
  below : ∀ w ∈ s.written, w.2 < nextSequenceOf s.db taskId

theorem isSome_get_exec {last : Option Db} (hallowed : Allocated last op)
    (htask : (db.tasks.get taskId).isSome) : ((op.exec db).tasks.get taskId).isSome := by
  obtain ⟨task, htask⟩ := Option.isSome_iff_exists.mp htask
  cases op
  case insertTask t =>
    rw [Op.exec]
    split
    · exact Option.isSome_iff_exists.mpr ⟨task, Table.get_insert_of_get htask t⟩
    · rw [htask]
      rfl
  case updateTask id u expected seen =>
    rw [Op.get_exec_updateTask, htask]
    split <;> rfl
  case deleteTask => cases hallowed
  case insertEvent e reported =>
    rw [Op.exec]
    split <;> exact Option.isSome_iff_exists.mpr ⟨task, htask⟩
  all_goals exact Option.isSome_iff_exists.mpr ⟨task, htask⟩

variable {s : FeedState} {q : Nat → FeedTurn} {n : Nat} {reader : Nat}

theorem FeedHolds.sequence_increasing (h : FeedHolds taskId s q) :
    (tapeOf s.db taskId).Pairwise fun e e' => e.sequence < e'.sequence := by
  have hstamps := h.increasing.sublist h.kept
  rwa [List.pairwise_map] at hstamps

theorem puts_eq_singleton {w : String × Nat} (hw : w ∈ FeedState.puts taskId db op) :
    FeedState.puts taskId db op = [w] ∧
      ∃ e ∈ tapeOf (op.exec db) taskId, e.stamp = w := by
  cases op
  case insertEvent e reported =>
    rw [FeedState.puts] at hw ⊢
    split at hw
    · rename_i hputs
      obtain rfl := List.mem_singleton.mp hw
      refine ⟨if_pos hputs, e, ?_, rfl⟩
      rw [tapeOf_insertEvent, if_pos hputs]
      exact List.mem_append_right _ (List.mem_singleton_self e)
    · cases hw
  all_goals cases hw

theorem FeedHolds.sql (h : FeedHolds taskId s q) (hallowed : Allocated (q n).met op)
    (horderly : Orderly taskId s n (.sql n op)) :
    FeedHolds taskId (FeedState.exec taskId (.sql n op) s)
      (Function.update q n (feedAdvance taskId (q n) (.sql n op) s)) where
  met m := by
    show Function.update s.met n (some s.db) m = _
    by_cases hm : m = n
    · rw [hm, Function.update_self, Function.update_self]
      rfl
    · rw [Function.update_of_ne hm, Function.update_of_ne hm, h.met]
  received m := by
    show s.received m = _
    by_cases hm : m = n
    · rw [hm, Function.update_self, h.received]
      rfl
    · rw [Function.update_of_ne hm, h.received]
  task := isSome_get_exec hallowed h.task
  kept := (kept_exec s.db op).trans (h.kept.append_right _)
  positive w hw := by
    rcases List.mem_append.mp hw with hw | hw
    · exact h.positive w hw
    · exact (nextSequenceOf_pos _ _).trans_le (next_le_of_puts hallowed (h.met n) horderly hw)
  increasing := by
    refine List.pairwise_append.mpr ⟨h.increasing, ?_, fun w hw w' hw' => ?_⟩
    · cases hputs : FeedState.puts taskId s.db op with
      | nil => exact .nil
      | cons w rest =>
        have hw : w ∈ FeedState.puts taskId s.db op := by
          rw [hputs]
          exact List.mem_cons_self ..
        rw [← hputs, (puts_eq_singleton hw).1]
        exact List.pairwise_singleton _ _
    · exact (h.below w hw).trans_le (next_le_of_puts hallowed (h.met n) horderly hw')
  below w hw := by
    rcases List.mem_append.mp hw with hw | hw
    · exact (h.below w hw).trans_le (nextSequenceOf_le_exec horderly)
    · obtain ⟨-, e, he, rfl⟩ := puts_eq_singleton hw
      exact sequence_lt_nextSequenceOf he

theorem FeedHolds.step {i : Nat} {op : FeedOp} (h : FeedHolds taskId s q)
    (hallowed : FeedAllowed i (q i) op) (horderly : Orderly taskId s i op) :
    FeedHolds taskId (FeedState.exec taskId op s)
      (Function.update q i (feedAdvance taskId (q i) op s)) := by
  cases op with
  | sql m op =>
    obtain ⟨rfl, hop⟩ := hallowed
    exact h.sql hop horderly
  | find m =>
    rwa [show feedAdvance taskId (q i) (.find m) s = q i from rfl, Function.update_eq_self]
  | page m limit sinceSeq =>
    obtain ⟨rfl, -⟩ := hallowed
    refine ⟨fun k => ?_, fun k => ?_, h.task, h.kept, h.positive, h.increasing, h.below⟩
    · show s.met k = _
      by_cases hk : k = m
      · rw [hk, Function.update_self, h.met]
        rfl
      · rw [Function.update_of_ne hk, h.met]
    · show Function.update s.received m _ k = _
      by_cases hk : k = m
      · rw [hk, Function.update_self, Function.update_self, h.received]
        rfl
      · rw [Function.update_of_ne hk, Function.update_of_ne hk, h.received]

/-! ### What a client has received -/

/-- What has been put onto the tape is what the client has received, and then what comes after its
cursor. -/
def ReadsAll (taskId : String) (reader : Nat) (s : FeedState) : Prop :=
  s.written = (s.received reader).map Event.stamp ++
    (Paging.after Event.sequence (seenUpTo (s.received reader)) (tapeOf s.db taskId)).map Event.stamp

theorem readsAll_of (reader : Nat) : ReadsAll taskId reader (.of taskId db) := by
  show _ = (List.map _ []) ++ ((tapeOf db taskId).filter fun _ => true).map _
  rw [List.filter_true]
  rfl

theorem mem_seenUpTo {received : List Event} {k : Nat} :
    k ∈ seenUpTo received ↔ ∃ e, received.getLast? = some e ∧ e.sequence = k := by
  simp [seenUpTo, Paging.next]

/-- What has been received is not after the cursor. -/
theorem le_seenUpTo {received : List Event} {e : Event}
    (hpairwise : received.Pairwise fun e e' => e.sequence < e'.sequence)
    (he : e.stamp ∈ received.map Event.stamp) : ∃ k ∈ seenUpTo received, e.sequence ≤ k := by
  obtain ⟨e', he', hstamp⟩ := List.mem_map.mp he
  have hsequence : e'.sequence = e.sequence := congrArg Prod.snd hstamp
  cases hlast : received.getLast? with
  | none =>
    rw [List.getLast?_eq_none_iff] at hlast
    rw [hlast] at he'
    cases he'
  | some last =>
    refine ⟨last.sequence, mem_seenUpTo.mpr ⟨last, hlast, rfl⟩, ?_⟩
    rw [← hsequence]
    exact Paging.key_le_getLast hpairwise hlast he'

/-- On a tape whose sequences increase, a page is the first part of what comes after the cursor. -/
theorem eventsPage_eq (hincreasing : (tapeOf db taskId).Pairwise fun e e' => e.sequence < e'.sequence)
    (limit : Int) (sinceSeq : Option Nat) :
    eventsPage db taskId limit sinceSeq =
      (Paging.after Event.sequence sinceSeq (tapeOf db taskId)).take (max 1 (min limit 1000)).toNat := by
  rw [eventsPage, List.Pairwise.insertionSort_eq]
  exact (hincreasing.sublist (Paging.after_sublist _ _)).imp fun hlt => Nat.le_of_lt hlt

theorem cap_pos (limit : Int) : 0 < (max 1 (min limit 1000)).toNat := by omega

theorem ReadsAll.page (h : ReadsAll taskId reader s) (hholds : FeedHolds taskId s q) (m : Nat)
    (limit : Int) {sinceSeq : Option Nat} (hsince : m = reader → sinceSeq = seenUpTo (s.received reader)) :
    ReadsAll taskId reader (FeedState.exec taskId (.page m limit sinceSeq) s) := by
  show s.written = (Function.update s.received m _ reader).map _ ++
    (Paging.after _ (seenUpTo (Function.update s.received m _ reader)) (tapeOf s.db taskId)).map _
  by_cases hm : reader = m
  · subst hm
    have hnext : ∀ page, seenUpTo (s.received reader ++ page) =
        Paging.next Event.sequence (seenUpTo (s.received reader)) page :=
      fun page => Paging.next_append _ _ _
    rw [Function.update_self, hsince rfl, eventsPage_eq hholds.sequence_increasing, hnext,
      Paging.after_next_take (cap_pos limit) hholds.sequence_increasing, List.map_append,
      List.append_assoc, ← List.map_append, List.take_append_drop]
    exact h
  · rw [Function.update_of_ne hm]
    exact h

theorem ReadsAll.sql (h : ReadsAll taskId reader s) (hholds : FeedHolds taskId s q)
    (hallowed : Allocated (q n).met op) (horderly : Orderly taskId s n (.sql n op))
    (hread : DeletesRead taskId reader s n (.sql n op)) :
    ReadsAll taskId reader (FeedState.exec taskId (.sql n op) s) := by
  have hfirst : (s.received reader).Pairwise fun e e' => e.sequence < e'.sequence := by
    have hall := hholds.increasing
    rw [show s.written = _ from h] at hall
    have hstamps := (List.pairwise_append.mp hall).1
    rwa [List.pairwise_map] at hstamps
  show s.written ++ FeedState.puts taskId s.db op = (s.received reader).map _ ++
    (Paging.after _ (seenUpTo (s.received reader)) (tapeOf (op.exec s.db) taskId)).map _
  have hsame : FeedState.puts taskId s.db op = [] →
      (Paging.after Event.sequence (seenUpTo (s.received reader))
        (tapeOf (op.exec s.db) taskId)).map Event.stamp =
      (Paging.after Event.sequence (seenUpTo (s.received reader)) (tapeOf s.db taskId)).map
        Event.stamp →
      s.written ++ FeedState.puts taskId s.db op = (s.received reader).map Event.stamp ++
        (Paging.after Event.sequence (seenUpTo (s.received reader))
          (tapeOf (op.exec s.db) taskId)).map Event.stamp := by
    intro hputs htape
    rw [hputs, htape, List.append_nil]
    exact h
  cases op
  case insertEvent e reported =>
    by_cases hputs : s.db.acceptsEvent e ∧ e.taskId = some taskId
    · have hnew : e.stamp ∈ FeedState.puts taskId s.db (.insertEvent e reported) := by
        rw [FeedState.puts, if_pos hputs]
        exact List.mem_singleton_self _
      have hcursor : ∀ k ∈ seenUpTo (s.received reader), k < e.sequence := by
        intro k hk
        obtain ⟨last, hlast, rfl⟩ := mem_seenUpTo.mp hk
        have hwritten : last.stamp ∈ s.written := by
          rw [show s.written = _ from h]
          exact List.mem_append_left _ (List.mem_map_of_mem (List.mem_of_getLast? hlast))
        exact (hholds.below _ hwritten).trans_le
          (next_le_of_puts hallowed (hholds.met n) horderly hnew)
      rw [FeedState.puts, tapeOf_insertEvent, if_pos hputs, if_pos hputs,
        Paging.after_append_singleton hcursor, List.map_append, ← List.append_assoc,
        ← show s.written = _ from h]
      rfl
    · refine hsame (if_neg hputs) ?_
      rw [tapeOf_insertEvent, if_neg hputs, List.append_nil]
  case insertTask t => exact hsame rfl (by rw [tapeOf_insertTask])
  case setExpiry bundleId expiresAt =>
    refine hsame rfl ?_
    have hstamp : Event.stamp ∘ Event.expire bundleId expiresAt = Event.stamp :=
      funext (stamp_expire bundleId expiresAt)
    rw [tapeOf_setExpiry, Paging.after, List.filter_map, List.map_map, hstamp, Paging.after]
    congr 2
    funext e
    exact congrArg (fun k => (seenUpTo (s.received reader)).all (· < k))
      (congrArg Prod.snd (stamp_expire bundleId expiresAt e))
  case deleteExpired now =>
    refine hsame rfl (congrArg _ ?_)
    rw [tapeOf_deleteExpired, Paging.after, List.filter_filter]
    refine List.filter_congr fun e he => ?_
    cases hexpired : e.isExpired now with
    | false => simp
    | true =>
      obtain ⟨k, hk, hle⟩ := le_seenUpTo hfirst (hread e he hexpired)
      rw [Option.mem_def.mp hk]
      simp only [Option.all_some, decide_eq_false (Nat.not_lt.mpr hle), Bool.false_and]
  all_goals exact hsame rfl rfl

theorem ReadsAll.step {i : Nat} {op : FeedOp} (h : ReadsAll taskId reader s)
    (hholds : FeedHolds taskId s q) (hallowed : FeedAllowed i (q i) op)
    (horderly : Orderly taskId s i op) (hread : DeletesRead taskId reader s i op) :
    ReadsAll taskId reader (FeedState.exec taskId op s) := by
  cases op with
  | sql m op =>
    obtain ⟨rfl, hop⟩ := hallowed
    exact h.sql hholds hop horderly hread
  | find m => exact h
  | page m limit sinceSeq =>
    obtain ⟨rfl, rfl⟩ := hallowed
    refine h.page hholds m limit fun hm => ?_
    rw [← hm, hholds.received]

/-- A client that nothing runs beside is given what comes after its cursor, one page after the other. -/
theorem run_followTape (limit : Int) (polls : Nat) {cursor : Option Nat}
    (htask : (s.db.tasks.get taskId).isSome)
    (hincreasing : (tapeOf s.db taskId).Pairwise fun e e' => e.sequence < e'.sequence) :
    ∃ s', (followTape taskId n limit polls cursor).run (FeedState.exec taskId) s =
      (.ok ((Paging.after Event.sequence cursor (tapeOf s.db taskId)).take
        (polls * (max 1 (min limit 1000)).toNat)), s') := by
  induction polls generalizing s cursor with
  | zero =>
    refine ⟨s, ?_⟩
    rw [Nat.zero_mul, List.take_zero]
    rfl
  | succ polls ih =>
    have hfound : ¬ (s.db.tasks.get taskId).isNone = true := by
      intro hnone
      rw [Option.isNone_iff_eq_none.mp hnone] at htask
      cases htask
    obtain ⟨s', hrest⟩ := @ih (FeedState.exec taskId (.page n limit cursor) s)
      (Paging.next Event.sequence cursor (eventsPage s.db taskId limit cursor)) htask hincreasing
    have hpage : (getTaskEvents taskId n limit cursor).run (FeedState.exec taskId) s =
        (.ok (eventsPage s.db taskId limit cursor), FeedState.exec taskId (.page n limit cursor) s) := by
      rw [getTaskEvents, Coro.run_bind_ok _ (Coro.run_perform _ _ _ _), if_neg hfound]
      rfl
    refine ⟨s', ?_⟩
    rw [followTape, Coro.run_bind_ok _ hpage, Coro.run_bind_ok _ hrest,
      Nat.add_comm polls 1, Nat.add_mul, Nat.one_mul, List.take_add, eventsPage_eq hincreasing]
    show (Except.ok (_ ++ (Paging.after _ (Paging.next _ _ _) (tapeOf s.db taskId)).take _), s') = _
    rw [Paging.after_next_take (cap_pos limit) hincreasing]

end Feed

/-! ### The feed -/

/-- What the feed has come to after a schedule. -/
def feedAfter (taskId : String) (calls : Nat → FeedCall) (db : Db) (schedule : List Nat) :
    Pool Nat FeedState FeedOp Exn (List Event) :=
  (feedPool taskId calls db).run (FeedState.exec taskId) id (schedule.map .run)

instance Orderly.decidable (taskId : String) (s : FeedState) (n : Nat) :
    DecidablePred (Orderly taskId s n)
  | .sql _ (.insertEvent e _) => inferInstanceAs (Decidable (s.db.acceptsEvent e = true →
      e.taskId = some taskId → e.sequence ≠ 0 ∧ ∀ db ∈ s.met n, ∀ e' ∈ tapeOf s.db taskId,
        e'.stamp ∈ (tapeOf db taskId).map Event.stamp))
  | .sql _ (.deleteExpired now) => inferInstanceAs (Decidable (∀ e ∈ tapeOf s.db taskId,
      e.isExpired now = true →
        ∃ e' ∈ tapeOf s.db taskId, e'.isExpired now = false ∧ e.sequence < e'.sequence))
  | .sql _ (.select) | .sql _ (.commit) | .sql _ (.aside) | .sql _ (.insertTask _)
  | .sql _ (.updateTask ..) | .sql _ (.deleteTask _) | .sql _ (.insertBundle _)
  | .sql _ (.updateBundle ..) | .sql _ (.insertReview _) | .sql _ (.insertLink _)
  | .sql _ (.revokeLink ..) | .sql _ (.fireLink ..) | .sql _ (.post ..) | .sql _ (.markOfflineStale _)
  | .sql _ (.setExpiry ..) | .find _ | .page .. => .isTrue trivial

instance DeletesRead.decidable (taskId : String) (reader : Nat) (s : FeedState) (n : Nat) :
    DecidablePred (DeletesRead taskId reader s n)
  | .sql _ (.deleteExpired now) => inferInstanceAs (Decidable (∀ e ∈ tapeOf s.db taskId,
      e.isExpired now = true → e.stamp ∈ (s.received reader).map Event.stamp))
  | .sql _ (.insertEvent ..)
  | .sql _ (.select) | .sql _ (.commit) | .sql _ (.aside) | .sql _ (.insertTask _)
  | .sql _ (.updateTask ..) | .sql _ (.deleteTask _) | .sql _ (.insertBundle _)
  | .sql _ (.updateBundle ..) | .sql _ (.insertReview _) | .sql _ (.insertLink _)
  | .sql _ (.revokeLink ..) | .sql _ (.fireLink ..) | .sql _ (.post ..) | .sql _ (.markOfflineStale _)
  | .sql _ (.setExpiry ..) | .find _ | .page .. => .isTrue trivial

/-- Whatever the writers and the clients and the order of their steps, as long as every event that is put
onto the tape carries a sequence, nothing is put onto it between a writer's request for a sequence and its
insertion, and the newest event is never deleted: the sequences are positive and increase. A client before
whom nothing is deleted has returned what it has received, and one that goes on from its last sequence has
received every event exactly once. -/
theorem feed_loses_nothing (taskId : String) (calls : Nat → FeedCall) (db : Db) (schedule : List Nat)
    (htask : (db.tasks.get taskId).isSome) (hpositive : ∀ e ∈ tapeOf db taskId, 0 < e.sequence)
    (hincreasing : (tapeOf db taskId).Pairwise fun e e' => e.sequence < e'.sequence)
    (horderly : Pool.Along (FeedState.exec taskId) id (Orderly taskId) (feedPool taskId calls db)
      (schedule.map .run)) :
    let p := feedAfter taskId calls db schedule
    (∀ w ∈ p.state.written, 0 < w.2) ∧ (p.state.written.Pairwise fun w w' => w.2 < w'.2) ∧
    ∀ n, Pool.Along (FeedState.exec taskId) id (DeletesRead taskId n) (feedPool taskId calls db)
        (schedule.map .run) →
      (∀ events, p.returned n events → events = p.state.received n) ∧
      ∀ limit polls, (tapeOf p.state.db taskId).length ≤ polls → ∃ rest s',
        (followTape taskId n limit polls (seenUpTo (p.state.received n))).run (FeedState.exec taskId)
          p.state = (.ok rest, s') ∧
        (p.state.received n ++ rest).map Event.stamp = p.state.written := by
  have hstart : FeedHolds taskId (feedPool taskId calls db).state fun _ => (feedProtocol taskId).start := by
    refine ⟨fun _ => rfl, fun _ => rfl, htask, List.Sublist.refl _, fun w hw => ?_, ?_, fun w hw => ?_⟩
    · obtain ⟨e, he, rfl⟩ := List.mem_map.mp hw
      exact hpositive e he
    · exact List.pairwise_map.mpr hincreasing
    · obtain ⟨e, he, rfl⟩ := List.mem_map.mp hw
      exact sequence_lt_nextSequenceOf he
  have hobeys : Pool.Obeys (feedProtocol taskId) (feedPool taskId calls db)
      fun _ => (feedProtocol taskId).start :=
    Pool.obeys_init (fun n => follows_program n (calls n)) _
  obtain ⟨q, -, hholds⟩ := Pool.inv_run_id (P := feedProtocol taskId) (I := FeedHolds taskId)
    (fun s q i op hI hallowed hG => hI.step hallowed hG) hobeys hstart horderly
  refine ⟨hholds.positive, hholds.increasing, fun n hdeletes => ?_⟩
  obtain ⟨q, hobeys', hholds, hreads⟩ := Pool.inv_run_id (P := feedProtocol taskId)
    (I := fun s q => FeedHolds taskId s q ∧ ReadsAll taskId n s)
    (fun s q i op hI hallowed hG =>
      ⟨hI.1.step hallowed hG.1, hI.2.step hI.1 hallowed hG.1 hG.2⟩) hobeys ⟨hstart, readsAll_of n⟩ (horderly.and hdeletes)
  refine ⟨fun events hreturned => ?_, fun limit polls hpolls => ?_⟩
  · rw [show (feedAfter taskId calls db schedule).state.received n = _ from hholds.received n]
    exact (hobeys' n).2 _ hreturned
  · obtain ⟨s', hrun⟩ := run_followTape (n := n) limit polls hholds.task hholds.sequence_increasing
    refine ⟨_, s', hrun, ?_⟩
    rw [List.take_of_length_le, List.map_append]
    · exact hreads.symm
    · have hle : (Paging.after Event.sequence _ _).length ≤ _ := (Paging.after_sublist
        (seenUpTo ((feedAfter taskId calls db schedule).state.received n))
        (tapeOf (feedAfter taskId calls db schedule).state.db taskId)).length_le
      exact (hle.trans hpolls).trans (Nat.le_mul_of_pos_right _ (cap_pos limit))

/-! ### Two posts and a claim -/

/-- An open task whose tape is empty. -/
def feedDb : Db where
  bundles := (∅ : Table Bundle).insert { id := "bun_1", cookbookId := some "cb_1" }
  tasks := (∅ : Table Task).insert { id := "task_1", bundleId := "bun_1" }

/-- Two milestones are posted, the task is claimed, and a client reads the tape. -/
def feedCalls (n : Nat) : FeedCall :=
  let milestone : EventSpec :=
    { type := .milestone, actorId := "agent_1", actorType := .agent, body := "half way" }
  match n with
  | 0 => .write (.post "task_1" milestone none (pathDraws 'a'))
  | 1 => .write (.post "task_1" milestone none (pathDraws 'b'))
  | 2 => .write (.claim "task_1" "agent_1" (some "cb_1") (pathDraws 'c'))
  | _ => .read 400 2

/-- One post after the other, and the client in between. -/
def feedInTurn : List Nat := List.replicate 8 0 ++ [3, 3] ++ List.replicate 8 1

theorem feed_loses_nothing_in_turn :
    let p := feedAfter "task_1" feedCalls feedDb feedInTurn
    p.state.written.map Prod.snd = [1, 2] ∧ (p.state.received 3).length = 1 ∧
      ∃ rest s', (followTape "task_1" 3 400 2 (seenUpTo (p.state.received 3))).run
        (FeedState.exec "task_1") p.state = (.ok rest, s') ∧
        (p.state.received 3 ++ rest).map Event.stamp = p.state.written :=
  ⟨by decide +kernel, by decide +kernel,
    ((feed_loses_nothing "task_1" feedCalls feedDb feedInTurn (by decide) (by decide) (by decide)
      (by decide +kernel)).2.2 3 (by decide +kernel)).2 400 2 (by decide +kernel)⟩

/-- The event of a claim comes before what the client has seen, and two posts that overlap share a
sequence; neither is received. -/
theorem claim_is_not_fed :
    let p := feedAfter "task_1" feedCalls feedDb
      (List.replicate 8 0 ++ [3, 3] ++ List.replicate 12 2 ++ [3, 3])
    let p' := feedAfter "task_1" feedCalls feedDb
      (List.replicate 3 0 ++ List.replicate 3 1 ++ List.replicate 5 0 ++ [3, 3] ++ List.replicate 5 1 ++
        [3, 3])
    p.state.written.map Prod.snd = [1, 0] ∧ p.hasReturned 3 = true ∧
      (p.state.received 3).map Event.stamp = p.state.written.take 1 ∧
    p'.state.written.map Prod.snd = [1, 1] ∧ p'.hasReturned 3 = true ∧
      (p'.state.received 3).map Event.stamp = p'.state.written.take 1 := by
  decide +kernel

end Krewhub
