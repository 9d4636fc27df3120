import Krewhub.Base.Interleave
import Krewhub.Invocations.Tape

/-!
# Invocation streams

A stream of `GET /invocations/{id}/stream` subscribes to the events of all invocations, reads the backlog
of its tape and sends it, and then what its queue receives of the tape and what is not behind the number
it has sent last. A writer appends to a tape and notifies the subscribers, with a record in the watch log
between the two. Any number of writers and streams may run beside one another.
-/

namespace Krewhub

/-- The table of events, and of every stream its subscription, its queue, the backlog it has read and
what it has sent to its client; `pending` lists the events that have not been notified yet. -/
structure TapeState (ι : Type) where
  table : TapeTable
  subscribed : ι → Bool
  queues : ι → List TapeEvent
  backlog : ι → Option (List TapeEvent)
  sent : ι → List TapeEvent
  pending : List TapeEvent

/-- What the coroutines await, and what they do between two awaits; the statements of the watch log are
an `aside`. -/
inductive TapeOp (ι : Type) where
  | append (draft : TapeDraft)
  | aside
  | notify (event : TapeEvent)
  | subscribe (i : ι)
  | select (i : ι) (tapeId : String) (after : Option Int)
  | send (i : ι) (event : TapeEvent)
  | next (i : ι)
  | unsubscribe (i : ι)

variable {ι : Type} [DecidableEq ι]

namespace TapeState

/-- The table as it is, with everything in it notified and nobody subscribed. -/
def opened (table : TapeTable) : TapeState ι where
  table := table
  subscribed _ := false
  queues _ := []
  backlog _ := none
  sent _ := []
  pending := []

/-- The queue of a subscriber holds 256 events. -/
def isFull (s : TapeState ι) (i : ι) : Bool := decide (256 ≤ (s.queues i).length)

end TapeState

/-- What a step makes of the state; every subscriber asks for the events of all invocations, and is
dropped when its queue is full. -/
def TapeOp.exec (op : TapeOp ι) (s : TapeState ι) : TapeState ι :=
  match op with
  | .append draft =>
      { s with
        table := s.table.append draft
        pending := s.pending ++ [s.table.nextEvent draft] }
  | .aside => s
  | .notify event =>
      { s with
        queues := fun i =>
          if s.subscribed i && !s.isFull i then s.queues i ++ [event] else s.queues i
        subscribed := fun i => s.subscribed i && !s.isFull i
        pending := s.pending.filter (· != event) }
  | .subscribe i => { s with subscribed := Function.update s.subscribed i true }
  | .select i tapeId after =>
      { s with backlog := Function.update s.backlog i (some (s.table.listForTape tapeId after)) }
  | .send i event => { s with sent := Function.update s.sent i (s.sent i ++ [event]) }
  | .next i => { s with queues := Function.update s.queues i (s.queues i).tail }
  | .unsubscribe i => { s with subscribed := Function.update s.subscribed i false }

/-- A coroutine that writes or streams tapes. -/
abbrev Taping (ι α : Type) := Coro (TapeState ι) (TapeOp ι) Empty α

/-- `_TapeWriter.append`: the event, the record of it in the watch log, and its notification. -/
def tapeAppend (draft : TapeDraft) : Taping ι Unit := do
  let ev ← .perform (.append draft) fun s => s.table.nextEvent draft
  .perform .aside fun _ => ()
  .perform (.notify ev) fun _ => ()

/-- A writer, one event after another. -/
def writeTape : List TapeDraft → Taping ι Unit
  | [] => return
  | draft :: drafts => do
    tapeAppend draft
    writeTape drafts

/-- The loop of `stream_events` over the backlog; `none` when it has sent a `done`. -/
def sendBacklog (i : ι) : List TapeEvent → Int → Taping ι (Option Int)
  | [], lastId => return some lastId
  | ev :: events, _ => do
    .perform (.send i ev) fun _ => ()
    if ev.kind = .done then return none else sendBacklog i events ev.id

/-- The loop of `stream_events` over its queue; an empty one is the timeout. -/
def forwardLive (i : ι) (tapeId : String) : Nat → Int → Taping ι Unit
  | 0, _ => return
  | n + 1, lastId => do
    match ← .perform (.next i) fun s => (s.queues i).head? with
    | none => return
    | some ev =>
      if ev.tapeId ≠ tapeId then forwardLive i tapeId n lastId
      else if (ev.id : Int) ≤ lastId then forwardLive i tapeId n lastId
      else
        .perform (.send i ev) fun _ => ()
        if ev.kind = .done then return else forwardLive i tapeId n ev.id

/-- `stream_events`; the client disconnects when the queue has been asked `asked` times. -/
def streamEvents (i : ι) (tapeId : String) (after : Option Int) (asked : Nat) : Taping ι Unit := do
  .perform (.subscribe i) fun _ => ()
  let backlog ← .perform (.select i tapeId after) fun s => s.table.listForTape tapeId after
  match ← sendBacklog i backlog (-1) with
  | none => pure ()
  | some lastId => forwardLive i tapeId asked lastId
  .perform (.unsubscribe i) fun _ => ()

inductive TapeCall where
  | writer (drafts : List TapeDraft)
  | stream (tapeId : String) (after : Option Int) (asked : Nat)

def TapeCall.program (i : ι) : TapeCall → Taping ι Unit
  | .writer drafts => writeTape drafts
  | .stream tapeId after asked => streamEvents i tapeId after asked

/-- The tape a stream is about, and where it starts. -/
def TapeCall.source : TapeCall → Option (String × Option Int)
  | .writer _ => none
  | .stream tapeId after _ => some (tapeId, after)

/-! ### What a stream should send -/

/-- The events up to and including the first `done`. -/
def upToDone : List TapeEvent → List TapeEvent
  | [] => []
  | e :: l => if e.kind = .done then [e] else e :: upToDone l

theorem upToDone_of_not_done {l : List TapeEvent} (h : ∀ e ∈ l, e.kind ≠ .done) :
    upToDone l = l := by
  induction l with
  | nil => rfl
  | cons e l ih =>
    rw [upToDone, if_neg (h e List.mem_cons_self), ih fun e' he' => h e' (List.mem_cons_of_mem _ he')]

theorem upToDone_append_of_not_done {l : List TapeEvent} (h : ∀ e ∈ l, e.kind ≠ .done)
    (m : List TapeEvent) : upToDone (l ++ m) = l ++ upToDone m := by
  induction l with
  | nil => rfl
  | cons e l ih =>
    rw [List.cons_append, upToDone, if_neg (h e List.mem_cons_self),
      ih fun e' he' => h e' (List.mem_cons_of_mem _ he'), List.cons_append]

theorem upToDone_append_of_done {l : List TapeEvent} (h : ∃ e ∈ l, e.kind = .done)
    (m : List TapeEvent) : upToDone (l ++ m) = upToDone l := by
  induction l with
  | nil => simp at h
  | cons e l ih =>
    rw [List.cons_append, upToDone, upToDone]
    split
    · rfl
    · rename_i hkind
      obtain ⟨e', he', hdone⟩ := h
      rcases List.mem_cons.mp he' with rfl | he'
      · exact absurd hdone hkind
      · rw [ih ⟨e', he', hdone⟩]

theorem upToDone_prefix {l m : List TapeEvent} (h : l <+: m) : upToDone l <+: upToDone m := by
  obtain ⟨rest, rfl⟩ := h
  by_cases hdone : ∃ e ∈ l, e.kind = .done
  · rewrite [upToDone_append_of_done hdone]
    exact List.prefix_refl _
  · push Not at hdone
    rw [upToDone_append_of_not_done hdone, upToDone_of_not_done hdone]
    exact List.prefix_append _ _

/-- The number a stream has sent last. -/
def lastId (events : List TapeEvent) : Int := (events.getLast?.map fun e => (e.id : Int)).getD (-1)

theorem lastId_lt {l : List TapeEvent} {e : TapeEvent} (h : ∀ e' ∈ l, e'.id < e.id) :
    lastId l < e.id := by
  rw [lastId]
  cases hlast : l.getLast? with
  | none =>
    rw [Option.map_none, Option.getD_none]
    omega
  | some e' =>
    have hlt := h e' (List.mem_of_getLast? hlast)
    rw [Option.map_some, Option.getD_some]
    omega

theorem le_lastId {l : List TapeEvent} (hsorted : l.Pairwise (·.id < ·.id)) {e : TapeEvent}
    (he : e ∈ l) : (e.id : Int) ≤ lastId l := by
  induction l using List.reverseRecOn with
  | nil => cases he
  | append_singleton l e' ih =>
    obtain ⟨_, _, hbefore⟩ := List.pairwise_append.mp hsorted
    have hlast : lastId (l ++ [e']) = e'.id := by simp [lastId]
    rw [hlast]
    rcases List.mem_append.mp he with he | he
    · have hlt := hbefore e he e' (List.mem_singleton_self _)
      omega
    · exact Int.le_of_eq (by rw [List.mem_singleton.mp he])

theorem lastId_le_of_subset {l m : List TapeEvent} (hsorted : m.Pairwise (·.id < ·.id))
    (hsub : l ⊆ m) : lastId l ≤ lastId m := by
  rw [lastId]
  cases hlast : l.getLast? with
  | none =>
    rw [Option.map_none, Option.getD_none, lastId]
    cases m.getLast? with
    | none => simp
    | some e =>
      rw [Option.map_some, Option.getD_some]
      omega
  | some e =>
    rw [Option.map_some, Option.getD_some]
    exact le_lastId hsorted (hsub (List.mem_of_getLast? hlast))

/-- When a stream reads an empty backlog, its queue holds nothing of its tape; whenever an event is
notified, the queues of the subscribers have room, and of its tape a stream that has read its backlog
has found something there if the event is not after its start, and otherwise every earlier event that
is still to be notified. -/
def TapeState.InStep (calls : ι → TapeCall) (s : TapeState ι) : TapeOp ι → Prop
  | .select i tapeId after => s.table.listForTape tapeId after = [] →
      ∀ e ∈ s.queues i, e.tapeId ≠ tapeId
  | .notify event => ∀ i, s.subscribed i = true → s.isFull i = false ∧
      ∀ source ∈ (calls i).source, event.tapeId = source.1 → ∀ backlog ∈ s.backlog i,
        if event.isWanted source.1 source.2 then
          ∀ e ∈ s.pending, e.isWanted source.1 source.2 = true → e.id < event.id → e ∈ backlog
        else backlog ≠ []
  | _ => True

/-! ### How far a call has come -/

inductive TapePhase where
  | idle
  | appended (event : TapeEvent)
  | opened
  | live (tapeId : String) (rest : List TapeEvent) (last : Int)
  | over

namespace TapePhase

/-- What a stream does with the head of its queue. -/
def taken (tapeId : String) (last : Int) : List TapeEvent → List TapeEvent
  | [] => []
  | e :: _ => if e.tapeId = tapeId ∧ last < e.id then [e] else []

def advance (phase : TapePhase) (op : TapeOp ι) (s : TapeState ι) : TapePhase :=
  match op with
  | .append draft => .appended (s.table.nextEvent draft)
  | .notify _ => .idle
  | .subscribe _ => .opened
  | .select _ tapeId after => .live tapeId (s.table.listForTape tapeId after) (-1)
  | .send _ event =>
    match phase with
    | .live tapeId rest _ => if event.kind = .done then .over else .live tapeId rest.tail event.id
    | phase => phase
  | .next i =>
    match phase with
    | .live tapeId _ last => .live tapeId (taken tapeId last (s.queues i)) last
    | phase => phase
  | .aside => phase
  | .unsubscribe _ => .over

/-- What the call of thread `i` may do next. -/
def Allowed (calls : ι → TapeCall) (i : ι) (phase : TapePhase) : TapeOp ι → Prop
  | .append _ => phase = .idle ∧ (calls i).source = none
  | .aside => True
  | .notify event => phase = .appended event ∧ (calls i).source = none
  | .subscribe j => j = i ∧ phase = .idle ∧ (calls i).source.isSome = true
  | .select j tapeId after => j = i ∧ phase = .opened ∧ (calls i).source = some (tapeId, after)
  | .send j event => j = i ∧ ∃ tapeId rest last, phase = .live tapeId (event :: rest) last
  | .next j => j = i ∧ ∃ tapeId last, phase = .live tapeId [] last
  | .unsubscribe j => j = i ∧ (calls i).source.isSome = true

end TapePhase

/-- A writer appends and notifies; a stream subscribes, reads its backlog and sends. -/
def tapeProtocol (calls : ι → TapeCall) : Protocol ι (TapeState ι) (TapeOp ι) Unit TapePhase where
  start := .idle
  allowed := TapePhase.Allowed calls
  advance := TapePhase.advance
  final _ _ _ := True

section Follows

variable {calls : ι → TapeCall} {i : ι}

omit [DecidableEq ι] in
theorem follows_writeTape (hwriter : (calls i).source = none) (drafts : List TapeDraft) :
    (writeTape drafts).Follows (TapePhase.Allowed calls i) TapePhase.advance (fun _ _ => True)
      .idle := by
  induction drafts with
  | nil => trivial
  | cons draft drafts ih =>
    exact ⟨⟨rfl, hwriter⟩, fun _ => ⟨trivial, fun _ => ⟨⟨rfl, hwriter⟩, fun _ => ih⟩⟩⟩

omit [DecidableEq ι] in
theorem follows_sendBacklog (tapeId : String) (events : List TapeEvent) (last : Int) :
    (sendBacklog i events last).Follows (TapePhase.Allowed calls i) TapePhase.advance
      (fun phase r => ∀ last, r = some last → phase = .live tapeId [] last)
      (.live tapeId events last) := by
  induction events generalizing last with
  | nil =>
    intro last' hlast
    rw [Option.some.inj hlast]
  | cons ev events ih =>
    refine .perform_bind ⟨rfl, _, _, _, rfl⟩ fun s => .ite (fun _ => ?_) fun hdone => ?_
    · exact fun _ hlast => by cases hlast
    · simp only [TapePhase.advance, if_neg hdone, List.tail_cons]
      exact ih ev.id

omit [DecidableEq ι] in
theorem follows_forwardLive (tapeId : String) (asked : Nat) (last : Int) :
    (forwardLive i tapeId asked last).Follows (TapePhase.Allowed calls i) TapePhase.advance
      (fun _ _ => True) (.live tapeId [] last) := by
  induction asked generalizing last with
  | zero => trivial
  | succ asked ih =>
    refine .perform_bind ⟨rfl, _, _, rfl⟩ fun s => ?_
    simp only [TapePhase.advance]
    cases hqueue : s.queues i with
    | nil => trivial
    | cons ev rest =>
      simp only [List.head?_cons, TapePhase.taken]
      refine .ite (fun htape => ?_) fun htape => .ite (fun hlast => ?_) fun hlast => ?_
      · rw [if_neg fun h => htape h.1]
        exact ih last
      · rw [if_neg fun h => absurd h.2 (by omega)]
        exact ih last
      · rw [not_not] at htape
        rw [if_pos ⟨htape, by omega⟩]
        refine .perform_bind ⟨rfl, _, _, _, rfl⟩ fun s' => .ite (fun _ => trivial) fun hdone => ?_
        simp only [TapePhase.advance, if_neg hdone, List.tail_cons]
        exact ih ev.id

omit [DecidableEq ι] in
theorem follows_tapeCall :
    ((calls i).program i).Follows (TapePhase.Allowed calls i) TapePhase.advance (fun _ _ => True)
      .idle := by
  cases hcall : calls i with
  | writer drafts => exact follows_writeTape (by rw [hcall]; rfl) drafts
  | stream tapeId after asked =>
    have hsource : (calls i).source = some (tapeId, after) := by rw [hcall]; rfl
    have hstream : (calls i).source.isSome = true := by rw [hsource]; rfl
    have hend : ∀ phase : TapePhase, (.perform (.unsubscribe i) fun _ => () : Taping ι Unit).Follows
        (TapePhase.Allowed calls i) TapePhase.advance (fun _ _ => True) phase :=
      fun _ => ⟨⟨rfl, hstream⟩, fun _ => trivial⟩
    refine ⟨⟨rfl, rfl, hstream⟩, fun s => ⟨⟨rfl, rfl, hsource⟩, fun s => ?_⟩⟩
    refine (follows_sendBacklog tapeId _ _).bind fun phase r hr => ?_
    cases r with
    | none => exact hend phase
    | some last =>
      rw [hr last rfl]
      exact (follows_forwardLive tapeId asked last).bind fun phase _ _ => hend phase

end Follows

/-! ### What holds of a stream -/

/-- What waits in the queue of a stream for it to send. -/
def TapeState.fresh (s : TapeState ι) (i : ι) (tapeId : String) (backlog : List TapeEvent) :
    List TapeEvent :=
  (s.queues i).filter fun e => e.tapeId == tapeId && decide (lastId backlog < e.id)

/-- Once the backlog has been read, the tape is what has been sent, what is left of the backlog, what
waits in the queue, and what is still to be notified, in this order. -/
structure LiveHolds (tapeId : String) (after : Option Int) (s : TapeState ι) (i : ι)
    (rest : List TapeEvent) (last : Int) (backlog coming : List TapeEvent) : Prop where
  subscribed : s.subscribed i = true
  running : ∀ e ∈ s.sent i, e.kind ≠ .done
  sentLast : last = lastId (s.sent i)
  read : s.backlog i = some backlog
  begun : backlog <+: s.sent i ++ rest
  split : s.table.listForTape tapeId after =
    s.sent i ++ rest ++ s.fresh i tapeId backlog ++ coming
  coming : ∀ e ∈ coming, e ∈ s.pending
  late : ∀ e ∈ s.pending, e ∈ s.sent i ++ rest ++ s.fresh i tapeId backlog →
    (e.id : Int) ≤ lastId backlog

/-- What holds of a stream of a tape. -/
structure TapeStreamHolds (tapeId : String) (after : Option Int) (s : TapeState ι) (i : ι)
    (phase : TapePhase) : Prop where
  sent : s.sent i <+: s.table.listForTape tapeId after
  stops : upToDone (s.sent i) = s.sent i
  idle : phase = .idle → s.subscribed i = false ∧ s.backlog i = none ∧ s.sent i = [] ∧ s.queues i = []
  opened : phase = .opened → s.backlog i = none ∧ s.sent i = [] ∧ s.subscribed i = true ∧
    ∀ e ∈ s.queues i, e ∈ s.table.events
  live : ∀ tapeId' rest last, phase = .live tapeId' rest last →
    tapeId' = tapeId ∧ ∃ backlog coming, LiveHolds tapeId after s i rest last backlog coming

/-- What holds of the table and the calls after every step. -/
structure TapeInv (calls : ι → TapeCall) (s : TapeState ι) (phase : ι → TapePhase) : Prop where
  listed : ∀ e ∈ s.pending, e ∈ s.table.events
  inFlight : ∀ i e, phase i = .appended e → e ∈ s.pending
  apart : ∀ i j e, phase i = .appended e → phase j = .appended e → i = j
  streams : ∀ i source, (calls i).source = some source →
    TapeStreamHolds source.1 source.2 s i (phase i)

section Live

variable {tapeId : String} {after : Option Int} {s : TapeState ι} {i : ι} {rest : List TapeEvent}
  {last : Int} {backlog coming : List TapeEvent}

omit [DecidableEq ι] in
theorem mem_fresh {e : TapeEvent} : e ∈ s.fresh i tapeId backlog ↔
    e ∈ s.queues i ∧ e.tapeId = tapeId ∧ lastId backlog < e.id := by
  simp [TapeState.fresh]

omit [DecidableEq ι] in
theorem LiveHolds.sorted (h : LiveHolds tapeId after s i rest last backlog coming) :
    (s.sent i ++ rest ++ s.fresh i tapeId backlog ++ coming).Pairwise (·.id < ·.id) := by
  rw [← h.split]
  exact s.table.pairwise_listForTape tapeId after

omit [DecidableEq ι] in
/-- What is to come is after everything that has been read. -/
theorem LiveHolds.coming_late (h : LiveHolds tapeId after s i rest last backlog coming)
    {e : TapeEvent} (he : e ∈ coming) : lastId backlog < e.id := by
  refine lastId_lt fun e' he' => ?_
  obtain ⟨_, _, hbefore⟩ := List.pairwise_append.mp h.sorted
  exact hbefore e' (List.mem_append_left _ (h.begun.subset he')) e he

theorem LiveHolds.append (h : LiveHolds tapeId after s i rest last backlog coming)
    (draft : TapeDraft) :
    ∃ coming', LiveHolds tapeId after ((TapeOp.append draft).exec s) i rest last backlog coming' := by
  refine ⟨coming ++ [s.table.nextEvent draft].filter (·.isWanted tapeId after), h.subscribed,
    h.running, h.sentLast, h.read, h.begun, ?_, ?_, ?_⟩
  · have hsplit := s.table.listForTape_append draft tapeId after
    rw [h.split, List.append_assoc] at hsplit
    exact hsplit
  · intro e he
    rcases List.mem_append.mp he with he | he
    · exact List.mem_append_left _ (h.coming e he)
    · exact List.mem_append_right _ (List.mem_filter.mp he).1
  · intro e he hmem
    rcases List.mem_append.mp he with he | he
    · exact h.late e he hmem
    · have htable : e ∈ s.table.listForTape tapeId after := by
        rw [h.split]
        exact List.mem_append_left _ hmem
      rw [List.mem_singleton.mp he] at htable
      exact absurd (TapeTable.mem_listForTape.mp htable).1 (s.table.nextEvent_not_mem draft)

/-- A subscriber has room: what is notified goes to the end of its queue. -/
theorem fresh_notify (hsub : s.subscribed i = true) (hroom : s.isFull i = false) (event : TapeEvent) :
    ((TapeOp.notify event).exec s).fresh i tapeId backlog = s.fresh i tapeId backlog ++
      [event].filter fun e => e.tapeId == tapeId && decide (lastId backlog < e.id) := by
  simp [TapeState.fresh, TapeOp.exec, hsub, hroom, List.filter_append]

omit [DecidableEq ι] in
/-- An event that waits to be sent is wanted. -/
theorem LiveHolds.wanted (h : LiveHolds tapeId after s i rest last backlog coming) {event : TapeEvent}
    (htape : event.tapeId = tapeId) (hfresh : lastId backlog < event.id)
    (hfound : event.isWanted tapeId after = false → backlog ≠ []) :
    event.isWanted tapeId after = true := by
  cases hwanted : event.isWanted tapeId after with
  | true => rfl
  | false =>
    obtain ⟨e, he⟩ := List.exists_mem_of_ne_nil _ (hfound hwanted)
    have hmem : e ∈ s.table.listForTape tapeId after := by
      rw [h.split]
      exact List.mem_append_left _ (List.mem_append_left _ (h.begun.subset he))
    have hbacklog : backlog.Pairwise (·.id < ·.id) :=
      (List.pairwise_append.mp (List.pairwise_append.mp h.sorted).1).1.sublist h.begun.sublist
    have hle := le_lastId hbacklog he
    obtain ⟨_, hafter⟩ := TapeEvent.isWanted_eq_true.mp (TapeTable.mem_listForTape.mp hmem).2
    rw [← hwanted, TapeEvent.isWanted_eq_true]
    refine ⟨htape, fun n hn => ?_⟩
    have hlt := hafter n hn
    omega

/-- What is notified next of a tape goes to the end of what its stream will send, unless it was in the
backlog. -/
theorem LiveHolds.notify (h : LiveHolds tapeId after s i rest last backlog coming)
    {event : TapeEvent} (hlisted : event ∈ s.table.events) (hpending : event ∈ s.pending)
    (hroom : s.isFull i = false)
    (hstep : event.tapeId = tapeId → if event.isWanted tapeId after then
      ∀ e ∈ s.pending, e.isWanted tapeId after = true → e.id < event.id → e ∈ backlog
      else backlog ≠ []) :
    ∃ coming', LiveHolds tapeId after ((TapeOp.notify event).exec s) i rest last backlog coming' := by
  have hsub' : ((TapeOp.notify event).exec s).subscribed i = true := by
    simp [TapeOp.exec, h.subscribed, hroom]
  by_cases hfresh : event.tapeId = tapeId ∧ lastId backlog < event.id
  · obtain ⟨htape, hlate⟩ := hfresh
    have hcase := hstep htape
    have hwanted : event.isWanted tapeId after = true :=
      h.wanted htape hlate fun hnot => by simpa [hnot] using hcase
    rw [if_pos hwanted] at hcase
    have hmem : event ∈ s.table.listForTape tapeId after :=
      TapeTable.mem_listForTape.mpr ⟨hlisted, hwanted⟩
    rw [h.split] at hmem
    have hcoming : event ∈ coming := by
      rcases List.mem_append.mp hmem with hmem | hmem
      · have hle := h.late event hpending hmem
        omega
      · exact hmem
    obtain ⟨before, later, rfl⟩ := List.append_of_mem hcoming
    obtain ⟨_, hsorted, hbefore⟩ := List.pairwise_append.mp h.sorted
    obtain ⟨_, hsortedLater, hbeforeEvent⟩ := List.pairwise_append.mp hsorted
    -- whatever comes before it has been read with the backlog, and is not still to come
    have hnil : before = [] := by
      refine List.eq_nil_iff_forall_not_mem.mpr fun e he => ?_
      have hin : e ∈ before ++ event :: later := List.mem_append_left _ he
      have hlt : e.id < event.id := hbeforeEvent e he event List.mem_cons_self
      have hwantedE : e.isWanted tapeId after = true := by
        have hmemE : e ∈ s.table.listForTape tapeId after := by
          rw [h.split]
          exact List.mem_append_right _ hin
        exact (TapeTable.mem_listForTape.mp hmemE).2
      have hbacklog := hcase e (h.coming e hin) hwantedE hlt
      have hself := hbefore e (List.mem_append_left _ (h.begun.subset hbacklog)) e hin
      omega
    subst hnil
    have hfresh' : ((TapeOp.notify event).exec s).fresh i tapeId backlog =
        s.fresh i tapeId backlog ++ [event] := by
      rw [fresh_notify h.subscribed hroom]
      simp [htape, hlate]
    have hne : ∀ e ∈ later, e ≠ event := by
      rintro e he rfl
      exact Nat.lt_irrefl _ (List.rel_of_pairwise_cons hsortedLater he)
    refine ⟨later, hsub', h.running, h.sentLast, h.read, h.begun, ?_, fun e he => ?_,
      fun e he hmem => ?_⟩
    · rw [hfresh']
      simpa [TapeOp.exec] using h.split
    · have hkept := h.coming e (List.mem_cons_of_mem _ he)
      simp [TapeOp.exec, hkept, hne e he]
    · obtain ⟨hkept, hother⟩ : e ∈ s.pending ∧ e ≠ event := by simpa [TapeOp.exec] using he
      rw [hfresh', ← List.append_assoc] at hmem
      rcases List.mem_append.mp hmem with hmem | hmem
      · exact h.late e hkept hmem
      · exact absurd (List.mem_singleton.mp hmem) hother
  · have hfresh' : ((TapeOp.notify event).exec s).fresh i tapeId backlog =
        s.fresh i tapeId backlog := by
      rw [fresh_notify h.subscribed hroom]
      simpa using hfresh
    refine ⟨coming, hsub', h.running, h.sentLast, h.read, h.begun, ?_, fun e he => ?_,
      fun e he hmem => ?_⟩
    · rw [hfresh']
      exact h.split
    · have hother : e ≠ event := by
        rintro rfl
        refine hfresh ⟨?_, h.coming_late he⟩
        have hmem : e ∈ s.table.listForTape tapeId after := by
          rw [h.split]
          exact List.mem_append_right _ he
        exact (TapeEvent.isWanted_eq_true.mp (TapeTable.mem_listForTape.mp hmem).2).1
      simp [TapeOp.exec, h.coming e he, hother]
    · rw [hfresh'] at hmem
      exact h.late e (List.mem_filter.mp he).1 hmem

/-- The head of the queue is dropped, or taken out to be sent. -/
theorem LiveHolds.next (h : LiveHolds tapeId after s i [] last backlog coming) :
    LiveHolds tapeId after ((TapeOp.next i).exec s) i (TapePhase.taken tapeId last (s.queues i)) last
      backlog coming := by
  have hqueue : ((TapeOp.next i).exec s).queues i = (s.queues i).tail := Function.update_self _ _ _
  have hsplit : TapePhase.taken tapeId last (s.queues i) ++
      ((TapeOp.next i).exec s).fresh i tapeId backlog = s.fresh i tapeId backlog := by
    rw [TapeState.fresh, hqueue, TapeState.fresh]
    cases hcase : s.queues i with
    | nil => rfl
    | cons e queue =>
      have hiff : e.tapeId = tapeId ∧ last < e.id ↔ e.tapeId = tapeId ∧ lastId backlog < e.id := by
        refine and_congr_right fun htape => ⟨fun hlt => ?_, fun hlt => ?_⟩
        · have hsub : backlog ⊆ s.sent i := by simpa using h.begun.subset
          have hsent : (s.sent i).Pairwise (·.id < ·.id) := by
            simpa using (List.pairwise_append.mp (List.pairwise_append.mp h.sorted).1).1
          have hle := lastId_le_of_subset hsent hsub
          rw [h.sentLast] at hlt
          omega
        · have hfresh : e ∈ s.fresh i tapeId backlog :=
            mem_fresh.mpr ⟨by rw [hcase]; exact List.mem_cons_self, htape, hlt⟩
          rw [h.sentLast]
          refine lastId_lt fun e' he' => ?_
          obtain ⟨_, _, hbefore⟩ :=
            List.pairwise_append.mp (List.pairwise_append.mp h.sorted).1
          exact hbefore e' (by simpa using he') e hfresh
      rw [TapePhase.taken, List.tail_cons, List.filter_cons]
      by_cases htaken : e.tapeId = tapeId ∧ last < e.id
      · rw [if_pos htaken, if_pos (by simpa using hiff.mp htaken)]
        rfl
      · rw [if_neg htaken, if_neg (by simpa using fun h₁ h₂ => htaken (hiff.mpr ⟨h₁, h₂⟩))]
        rfl
  have hhanded : s.sent i ++ TapePhase.taken tapeId last (s.queues i) ++
      ((TapeOp.next i).exec s).fresh i tapeId backlog =
        s.sent i ++ [] ++ s.fresh i tapeId backlog := by
    rw [List.append_assoc, hsplit, List.append_nil]
  refine ⟨h.subscribed, h.running, h.sentLast, h.read, ?_, ?_, h.coming, fun e he hmem => ?_⟩
  · exact (by simpa using h.begun : backlog <+: s.sent i).trans (List.prefix_append _ _)
  · exact h.split.trans (congrArg (· ++ coming) hhanded.symm)
  · exact h.late e he (by rw [← hhanded]; exact hmem)

/-- Sending an event that does not end the tape. -/
theorem LiveHolds.send {event : TapeEvent}
    (h : LiveHolds tapeId after s i (event :: rest) last backlog coming) (hkind : event.kind ≠ .done) :
    LiveHolds tapeId after ((TapeOp.send i event).exec s) i rest event.id backlog coming := by
  have hsent : ((TapeOp.send i event).exec s).sent i = s.sent i ++ [event] :=
    Function.update_self _ _ _
  have hhanded : s.sent i ++ [event] ++ rest = s.sent i ++ event :: rest := by simp
  refine ⟨h.subscribed, ?_, ?_, h.read, ?_, ?_, h.coming, ?_⟩
  · rw [hsent]
    intro e he
    rcases List.mem_append.mp he with he | he
    · exact h.running e he
    · rwa [List.mem_singleton.mp he]
  · rw [hsent]
    simp [lastId]
  · rw [hsent, hhanded]
    exact h.begun
  · rw [hsent, hhanded]
    exact h.split
  · rw [hsent, hhanded]
    exact h.late

omit [DecidableEq ι] in
/-- A step of another stream. -/
theorem LiveHolds.frame {s' : TapeState ι}
    (h : LiveHolds tapeId after s i rest last backlog coming) (htable : s'.table = s.table)
    (hpending : s'.pending = s.pending) (hsubscribed : s'.subscribed i = s.subscribed i)
    (hqueue : s'.queues i = s.queues i) (hbacklog : s'.backlog i = s.backlog i)
    (hsent : s'.sent i = s.sent i) : LiveHolds tapeId after s' i rest last backlog coming := by
  have hfresh : s'.fresh i tapeId backlog = s.fresh i tapeId backlog := by
    rw [TapeState.fresh, hqueue, TapeState.fresh]
  constructor
  · rw [hsubscribed]
    exact h.subscribed
  · rw [hsent]
    exact h.running
  · rw [hsent]
    exact h.sentLast
  · rw [hbacklog]
    exact h.read
  · rw [hsent]
    exact h.begun
  · rw [htable, hsent, hfresh]
    exact h.split
  · rw [hpending]
    exact h.coming
  · rw [hpending, hsent, hfresh]
    exact h.late

end Live

section Stream

variable {tapeId : String} {after : Option Int} {s : TapeState ι} {i : ι} {phase : TapePhase}

theorem TapeStreamHolds.append (h : TapeStreamHolds tapeId after s i phase) (draft : TapeDraft) :
    TapeStreamHolds tapeId after ((TapeOp.append draft).exec s) i phase where
  sent := by
    have hlist := s.table.listForTape_append draft tapeId after
    exact h.sent.trans ⟨_, hlist.symm⟩
  stops := h.stops
  idle := h.idle
  opened hphase := by
    obtain ⟨hbacklog, hsent, hsub, hqueue⟩ := h.opened hphase
    exact ⟨hbacklog, hsent, hsub, fun e he => TapeTable.mem_append.mpr (.inl (hqueue e he))⟩
  live tapeId' rest last hphase := by
    obtain ⟨rfl, backlog, coming, hlive⟩ := h.live tapeId' rest last hphase
    exact ⟨rfl, backlog, hlive.append draft⟩

theorem TapeStreamHolds.notify (h : TapeStreamHolds tapeId after s i phase) {event : TapeEvent}
    (hlisted : event ∈ s.table.events) (hpending : event ∈ s.pending)
    (hstep : s.subscribed i = true → s.isFull i = false ∧
      (event.tapeId = tapeId → ∀ backlog ∈ s.backlog i,
        if event.isWanted tapeId after then
          ∀ e ∈ s.pending, e.isWanted tapeId after = true → e.id < event.id → e ∈ backlog
        else backlog ≠ [])) :
    TapeStreamHolds tapeId after ((TapeOp.notify event).exec s) i phase where
  sent := h.sent
  stops := h.stops
  idle hphase := by
    obtain ⟨hsub, hbacklog, hsent, hqueue⟩ := h.idle hphase
    simp [TapeOp.exec, hsub, hbacklog, hsent, hqueue]
  opened hphase := by
    obtain ⟨hbacklog, hsent, hsub, hqueue⟩ := h.opened hphase
    obtain ⟨hroom, _⟩ := hstep hsub
    refine ⟨hbacklog, hsent, by simp [TapeOp.exec, hsub, hroom], fun e he => ?_⟩
    have hmem : e ∈ s.queues i ∨ e = event := by simpa [TapeOp.exec, hsub, hroom] using he
    rcases hmem with hmem | rfl
    · exact hqueue e hmem
    · exact hlisted
  live tapeId' rest last hphase := by
    obtain ⟨rfl, backlog, coming, hlive⟩ := h.live tapeId' rest last hphase
    obtain ⟨hroom, hcase⟩ := hstep hlive.subscribed
    exact ⟨rfl, backlog, hlive.notify hlisted hpending hroom fun htape =>
      hcase htape backlog hlive.read⟩

theorem TapeStreamHolds.subscribe (h : TapeStreamHolds tapeId after s i .idle) :
    TapeStreamHolds tapeId after ((TapeOp.subscribe i).exec s) i .opened where
  sent := h.sent
  stops := h.stops
  idle hphase := by cases hphase
  opened _ := by
    obtain ⟨_, hbacklog, hsent, hqueue⟩ := h.idle rfl
    refine ⟨hbacklog, hsent, Function.update_self _ _ _, fun e he => ?_⟩
    rw [show ((TapeOp.subscribe i).exec s).queues i = [] from hqueue] at he
    cases he
  live tapeId' rest last hphase := by cases hphase

/-- The backlog is all of the tape, and nothing in the queue is after it. -/
theorem TapeStreamHolds.select (h : TapeStreamHolds tapeId after s i .opened)
    (hstep : s.table.listForTape tapeId after = [] → ∀ e ∈ s.queues i, e.tapeId ≠ tapeId) :
    TapeStreamHolds tapeId after ((TapeOp.select i tapeId after).exec s) i
      (.live tapeId (s.table.listForTape tapeId after) (-1)) where
  sent := h.sent
  stops := h.stops
  idle hphase := by cases hphase
  opened hphase := by cases hphase
  live tapeId' rest last hphase := by
    obtain ⟨rfl, rfl, rfl⟩ := TapePhase.live.inj hphase
    obtain ⟨_, hsent, hsub, hqueue⟩ := h.opened rfl
    have hsent' : ((TapeOp.select i tapeId after).exec s).sent i = [] := hsent
    have hsorted := s.table.pairwise_listForTape tapeId after
    have hfresh : ((TapeOp.select i tapeId after).exec s).fresh i tapeId
        (s.table.listForTape tapeId after) = [] := by
      refine List.eq_nil_iff_forall_not_mem.mpr fun e he => ?_
      obtain ⟨he, htape, hlate⟩ := mem_fresh.mp he
      obtain ⟨e', he'⟩ := List.exists_mem_of_ne_nil _ fun hnil => hstep hnil e he htape
      have hle' := le_lastId hsorted he'
      obtain ⟨_, hafter⟩ := TapeEvent.isWanted_eq_true.mp (TapeTable.mem_listForTape.mp he').2
      have hwanted : e.isWanted tapeId after = true := by
        refine TapeEvent.isWanted_eq_true.mpr ⟨htape, fun n hn => ?_⟩
        have hlt := hafter n hn
        omega
      have hle := le_lastId hsorted (TapeTable.mem_listForTape.mpr ⟨hqueue e he, hwanted⟩)
      omega
    refine ⟨rfl, s.table.listForTape tapeId after, [], hsub, ?_, ?_, Function.update_self _ _ _, ?_,
      ?_, by simp, fun e _ hmem => ?_⟩
    · rw [hsent']
      simp
    · rw [hsent']
      rfl
    · rewrite [hsent', List.nil_append]
      exact List.prefix_refl _
    · rw [hsent', hfresh]
      simp [TapeOp.exec]
    · rw [hsent', hfresh] at hmem
      exact le_lastId hsorted (by simpa using hmem)

theorem TapeStreamHolds.send {event : TapeEvent} {rest : List TapeEvent} {last : Int}
    (h : TapeStreamHolds tapeId after s i (.live tapeId (event :: rest) last)) :
    TapeStreamHolds tapeId after ((TapeOp.send i event).exec s) i
      (if event.kind = .done then .over else .live tapeId rest event.id) := by
  obtain ⟨_, backlog, coming, hlive⟩ := h.live tapeId (event :: rest) last rfl
  have hsent : ((TapeOp.send i event).exec s).sent i = s.sent i ++ [event] :=
    Function.update_self _ _ _
  refine ⟨?_, ?_, fun hphase => ?_, fun hphase => ?_, fun tapeId' rest' last' hphase => ?_⟩
  · rw [hsent]
    refine ⟨rest ++ s.fresh i tapeId backlog ++ coming, ?_⟩
    show _ = s.table.listForTape tapeId after
    rw [hlive.split]
    simp
  · rw [hsent, upToDone_append_of_not_done hlive.running, upToDone]
    split <;> rfl
  · split at hphase <;> cases hphase
  · split at hphase <;> cases hphase
  · split at hphase
    · cases hphase
    · rename_i hkind
      obtain ⟨rfl, rfl, rfl⟩ := TapePhase.live.inj hphase
      exact ⟨rfl, backlog, coming, hlive.send hkind⟩

theorem TapeStreamHolds.next {last : Int} (h : TapeStreamHolds tapeId after s i (.live tapeId [] last)) :
    TapeStreamHolds tapeId after ((TapeOp.next i).exec s) i
      (.live tapeId (TapePhase.taken tapeId last (s.queues i)) last) where
  sent := h.sent
  stops := h.stops
  idle hphase := by cases hphase
  opened hphase := by cases hphase
  live tapeId' rest last' hphase := by
    obtain ⟨rfl, rfl, rfl⟩ := TapePhase.live.inj hphase
    obtain ⟨_, backlog, coming, hlive⟩ := h.live tapeId [] last rfl
    exact ⟨rfl, backlog, coming, hlive.next⟩

theorem TapeStreamHolds.unsubscribe (h : TapeStreamHolds tapeId after s i phase) :
    TapeStreamHolds tapeId after ((TapeOp.unsubscribe i).exec s) i .over where
  sent := h.sent
  stops := h.stops
  idle hphase := by cases hphase
  opened hphase := by cases hphase
  live tapeId' rest last hphase := by cases hphase

omit [DecidableEq ι] in
theorem TapeStreamHolds.frame {s' : TapeState ι} (h : TapeStreamHolds tapeId after s i phase)
    (htable : s'.table = s.table) (hpending : s'.pending = s.pending)
    (hsubscribed : s'.subscribed i = s.subscribed i) (hqueue : s'.queues i = s.queues i)
    (hbacklog : s'.backlog i = s.backlog i) (hsent : s'.sent i = s.sent i) :
    TapeStreamHolds tapeId after s' i phase where
  sent := by
    rw [htable, hsent]
    exact h.sent
  stops := by
    rw [hsent]
    exact h.stops
  idle := by
    rw [hsubscribed, hbacklog, hsent, hqueue]
    exact h.idle
  opened := by
    rw [hsubscribed, hbacklog, hsent, hqueue, htable]
    exact h.opened
  live tapeId' rest last hphase := by
    obtain ⟨htape, backlog, coming, hlive⟩ := h.live tapeId' rest last hphase
    exact ⟨htape, backlog, coming, hlive.frame htable hpending hsubscribed hqueue hbacklog hsent⟩

end Stream

section Inv

variable {calls : ι → TapeCall} {s : TapeState ι} {phase : ι → TapePhase} {i : ι}

/-- A step of a stream: the table stays, and the other streams are left alone. -/
theorem TapeInv.own {s' : TapeState ι} {phase' : TapePhase} (h : TapeInv calls s phase)
    (htable : s'.table = s.table) (hpending : s'.pending = s.pending)
    (hphase : ∀ e, phase' = .appended e → phase i = .appended e)
    (hothers : ∀ j, j ≠ i → s'.subscribed j = s.subscribed j ∧ s'.queues j = s.queues j ∧
      s'.backlog j = s.backlog j ∧ s'.sent j = s.sent j)
    (hself : ∀ source, (calls i).source = some source →
      TapeStreamHolds source.1 source.2 s' i phase') :
    TapeInv calls s' (Function.update phase i phase') := by
  have hback : ∀ j e, Function.update phase i phase' j = .appended e → phase j = .appended e := by
    intro j e hj
    by_cases hji : j = i
    · subst hji
      rw [Function.update_self] at hj
      exact hphase e hj
    · rwa [Function.update_of_ne hji] at hj
  refine ⟨fun e he => ?_, fun j e hj => ?_, fun j k e hj hk => ?_, fun j source hsource => ?_⟩
  · rw [hpending] at he
    rw [htable]
    exact h.listed e he
  · rw [hpending]
    exact h.inFlight j e (hback j e hj)
  · exact h.apart j k e (hback j e hj) (hback k e hk)
  · by_cases hji : j = i
    · subst hji
      rw [Function.update_self]
      exact hself source hsource
    · rw [Function.update_of_ne hji]
      obtain ⟨hsubscribed, hqueue, hbacklog, hsent⟩ := hothers j hji
      exact (h.streams j source hsource).frame htable hpending hsubscribed hqueue hbacklog hsent

omit [DecidableEq ι] in
theorem ne_of_source {j : ι} {source : String × Option Int} (hwriter : (calls i).source = none)
    (hsource : (calls j).source = some source) : j ≠ i := by
  rintro rfl
  rw [hwriter] at hsource
  cases hsource

theorem TapeInv.append (h : TapeInv calls s phase) (hwriter : (calls i).source = none)
    (draft : TapeDraft) :
    TapeInv calls ((TapeOp.append draft).exec s)
      (Function.update phase i (.appended (s.table.nextEvent draft))) := by
  have hold : ∀ j, phase j ≠ .appended (s.table.nextEvent draft) := fun j hj =>
    s.table.nextEvent_not_mem draft (h.listed _ (h.inFlight j _ hj))
  refine ⟨fun e he => ?_, fun j e hj => ?_, fun j k e hj hk => ?_, fun j source hsource => ?_⟩
  · rcases List.mem_append.mp he with he | he
    · exact TapeTable.mem_append.mpr (.inl (h.listed e he))
    · exact TapeTable.mem_append.mpr (.inr (List.mem_singleton.mp he))
  · by_cases hji : j = i
    · rw [hji, Function.update_self] at hj
      rw [← TapePhase.appended.inj hj]
      exact List.mem_append_right _ (List.mem_singleton_self _)
    · rw [Function.update_of_ne hji] at hj
      exact List.mem_append_left _ (h.inFlight j e hj)
  · by_cases hji : j = i <;> by_cases hki : k = i
    · rw [hji, hki]
    · rw [hji, Function.update_self] at hj
      rw [Function.update_of_ne hki, ← TapePhase.appended.inj hj] at hk
      exact absurd hk (hold k)
    · rw [hki, Function.update_self] at hk
      rw [Function.update_of_ne hji, ← TapePhase.appended.inj hk] at hj
      exact absurd hj (hold j)
    · rw [Function.update_of_ne hji] at hj
      rw [Function.update_of_ne hki] at hk
      exact h.apart j k e hj hk
  · rw [Function.update_of_ne (ne_of_source hwriter hsource)]
    exact (h.streams j source hsource).append draft

theorem TapeInv.notify (h : TapeInv calls s phase) (hwriter : (calls i).source = none)
    {event : TapeEvent} (hevent : phase i = .appended event)
    (hstep : s.InStep calls (.notify event)) :
    TapeInv calls ((TapeOp.notify event).exec s) (Function.update phase i .idle) := by
  have hpending := h.inFlight i event hevent
  have hback : ∀ j e, Function.update phase i .idle j = .appended e → j ≠ i ∧ phase j = .appended e := by
    intro j e hj
    by_cases hji : j = i
    · rw [hji, Function.update_self] at hj
      cases hj
    · exact ⟨hji, by rwa [Function.update_of_ne hji] at hj⟩
  refine ⟨fun e he => ?_, fun j e hj => ?_, fun j k e hj hk => ?_, fun j source hsource => ?_⟩
  · exact h.listed e (List.mem_filter.mp he).1
  · obtain ⟨hji, hj⟩ := hback j e hj
    have hne : e ≠ event := by
      rintro rfl
      exact hji (h.apart j i e hj hevent)
    simp [TapeOp.exec, h.inFlight j e hj, hne]
  · exact h.apart j k e (hback j e hj).2 (hback k e hk).2
  · rw [Function.update_of_ne (ne_of_source hwriter hsource)]
    refine (h.streams j source hsource).notify (h.listed event hpending) hpending fun hsub => ?_
    obtain ⟨hroom, hcase⟩ := hstep j hsub
    exact ⟨hroom, hcase source hsource⟩

theorem TapeInv.step {op : TapeOp ι} (h : TapeInv calls s phase)
    (hallowed : TapePhase.Allowed calls i (phase i) op) (hstep : s.InStep calls op) :
    TapeInv calls (op.exec s) (Function.update phase i ((phase i).advance op s)) := by
  have hne : ∀ {α : Type} (f : ι → α) (a : α) (j : ι), j ≠ i → Function.update f i a j = f j :=
    fun f a j hj => Function.update_of_ne hj a f
  cases op with
  | append draft => exact h.append hallowed.2 draft
  | aside =>
    rw [TapePhase.advance, Function.update_eq_self]
    exact h
  | notify event => exact h.notify hallowed.2 hallowed.1 hstep
  | subscribe j =>
    obtain ⟨rfl, hphase, _⟩ := hallowed
    refine h.own rfl rfl (fun e he => by cases he) (fun k hk => ⟨hne _ _ k hk, rfl, rfl, rfl⟩) ?_
    intro source hsource
    have hholds := h.streams j source hsource
    rw [hphase] at hholds
    exact hholds.subscribe
  | select j tapeId after =>
    obtain ⟨rfl, hphase, hsource⟩ := hallowed
    refine h.own rfl rfl (fun e he => by cases he) (fun k hk => ⟨rfl, rfl, hne _ _ k hk, rfl⟩) ?_
    intro source hsource'
    obtain rfl := Option.some.inj (hsource.symm.trans hsource')
    have hholds := h.streams j _ hsource
    rw [hphase] at hholds
    exact hholds.select hstep
  | send j event =>
    obtain ⟨rfl, tapeId, rest, last, hphase⟩ := hallowed
    rw [hphase]
    refine h.own rfl rfl (fun e he => ?_) (fun k hk => ⟨rfl, rfl, rfl, hne _ _ k hk⟩) ?_
    · rw [TapePhase.advance] at he
      split at he <;> cases he
    · intro source hsource
      have hholds := h.streams j source hsource
      rw [hphase] at hholds
      obtain ⟨rfl, _⟩ := hholds.live tapeId (event :: rest) last rfl
      exact hholds.send
  | next j =>
    obtain ⟨rfl, tapeId, last, hphase⟩ := hallowed
    rw [hphase]
    refine h.own rfl rfl (fun e he => by cases he) (fun k hk => ⟨rfl, hne _ _ k hk, rfl, rfl⟩) ?_
    intro source hsource
    have hholds := h.streams j source hsource
    rw [hphase] at hholds
    obtain ⟨rfl, _⟩ := hholds.live tapeId [] last rfl
    exact hholds.next
  | unsubscribe j =>
    obtain ⟨rfl, _⟩ := hallowed
    refine h.own rfl rfl (fun e he => by cases he) (fun k hk => ⟨hne _ _ k hk, rfl, rfl, rfl⟩) ?_
    exact fun source hsource => (h.streams j source hsource).unsubscribe

omit [DecidableEq ι] in
theorem tapeInv_start (calls : ι → TapeCall) (table : TapeTable) :
    TapeInv calls (TapeState.opened table) fun _ => .idle where
  listed e he := by cases he
  inFlight i e he := by cases he
  apart i j e he := by cases he
  streams i source _ := by
    refine ⟨List.nil_prefix, rfl, fun _ => ⟨rfl, rfl, rfl, rfl⟩, fun h => (by cases h), ?_⟩
    intro tapeId rest last h
    cases h

end Inv

/-! ### Every schedule -/

/-- The calls, none of which has begun, on a table everything in which has been notified. -/
def tapePool (calls : ι → TapeCall) (table : TapeTable) :
    Pool ι (TapeState ι) (TapeOp ι) Empty Unit :=
  Pool.init (fun i => (calls i).program i) (TapeState.opened table)

/-- In every schedule of writers and streams that are in step, what a stream has sent is a first part of
the events of its tape after its start, up to the first `done`; it is all of them when it has sent a
`done`, and when it waits for an empty queue with nothing left to be notified. -/
theorem streams_tape {calls : ι → TapeCall} {table : TapeTable} {schedule : List ι}
    (hstep : Pool.Along TapeOp.exec id (fun s _ op => s.InStep calls op) (tapePool calls table)
      (schedule.map .run))
    {i : ι} {tapeId : String} {after : Option Int} (hsource : (calls i).source = some (tapeId, after)) :
    let reached := (tapePool calls table).run TapeOp.exec id (schedule.map .run)
    let sent := reached.state.sent i
    let events := upToDone (reached.state.table.listForTape tapeId after)
    sent <+: events ∧
      ((∃ e ∈ sent, e.kind = .done) → sent = events) ∧
      (reached.nextOp i = some (.next i) → reached.state.queues i = [] →
        reached.state.pending = [] → sent = events) := by
  intro reached sent events
  have hobeys : Pool.Obeys (tapeProtocol calls) (tapePool calls table) fun _ => .idle :=
    Pool.obeys_init (fun _ => follows_tapeCall) _
  have hrun : ∃ phase, Pool.Obeys (tapeProtocol calls) reached phase ∧
      TapeInv calls reached.state phase :=
    Pool.inv_run_id (I := TapeInv calls) (fun _ _ _ _ h hallowed hstep => h.step hallowed hstep)
      hobeys (tapeInv_start calls table) hstep
  obtain ⟨phase, hobeys', hinv⟩ := hrun
  have hholds := hinv.streams i _ hsource
  have hsent : upToDone sent = sent := hholds.stops
  refine ⟨?_, fun hdone => ?_, fun hnext hqueue hpending => ?_⟩
  · have hprefix := upToDone_prefix hholds.sent
    rwa [hsent] at hprefix
  · obtain ⟨rest, hrest⟩ := hholds.sent
    show sent = upToDone _
    rw [← hrest, upToDone_append_of_done hdone, hsent]
  · obtain ⟨next, hawaits⟩ := Pool.exists_awaits hnext
    obtain ⟨_, tapeId', last, hphase⟩ := ((hobeys' i).2 _ hawaits).1
    obtain ⟨rfl, backlog, coming, hlive⟩ := hholds.live tapeId' [] last hphase
    have hfresh : reached.state.fresh i tapeId' backlog = [] := by
      rw [TapeState.fresh, hqueue, List.filter_nil]
    have hcoming : coming = [] := by
      refine List.eq_nil_iff_forall_not_mem.mpr fun e he => ?_
      have hmem := hlive.coming e he
      rw [hpending] at hmem
      cases hmem
    have hall : reached.state.table.listForTape tapeId' after = sent := by
      rw [hlive.split, hfresh, hcoming, List.append_nil, List.append_nil, List.append_nil]
    show sent = upToDone _
    rw [hall, hsent]

/-! ### A start beyond the end of the tape -/

instance TapeState.decidableInStep {n : Nat} (calls : Fin n → TapeCall) (s : TapeState (Fin n)) (op : TapeOp (Fin n)) :
    Decidable (s.InStep calls op) :=
  match op with
  | .select i tapeId after => inferInstanceAs (Decidable (s.table.listForTape tapeId after = [] →
      ∀ e ∈ s.queues i, e.tapeId ≠ tapeId))
  | .notify event => inferInstanceAs (Decidable (∀ i, s.subscribed i = true → s.isFull i = false ∧
      ∀ source ∈ (calls i).source, event.tapeId = source.1 → ∀ backlog ∈ s.backlog i,
        if event.isWanted source.1 source.2 then
          ∀ e ∈ s.pending, e.isWanted source.1 source.2 = true → e.id < event.id → e ∈ backlog
        else backlog ≠ []))
  | .append _ | .aside | .subscribe _ | .send .. | .next _ | .unsubscribe _ => .isTrue trivial

/-- A tape that has been started. -/
def startedTape : TapeTable := TapeTable.empty.append { tapeId := "tape_1", kind := .started }

/-- A stream of the tape, and two writers on it. -/
def streamAndWriters (after : Option Int) (i : Fin 3) : TapeCall :=
  if i = 0 then .stream "tape_1" after 2
  else .writer [{ tapeId := "tape_1", kind := if i = 1 then .output else .done }]

/-- The stream subscribes, both writers append, and the stream reads its backlog before the second
notification. -/
theorem streams_tape_in_turn :
    let reached := (tapePool (streamAndWriters none) startedTape).run TapeOp.exec id
      (([0, 1, 1, 2, 0, 1, 2, 2, 0, 0, 0, 0] : List (Fin 3)).map .run)
    let sent := reached.state.sent 0
    let events := upToDone (reached.state.table.listForTape "tape_1" none)
    sent <+: events ∧
      ((∃ e ∈ sent, e.kind = .done) → sent = events) ∧
      (reached.nextOp 0 = some (.next 0) → reached.state.queues 0 = [] →
        reached.state.pending = [] → sent = events) :=
  streams_tape (by decide +kernel) rfl

/-- The stream and the writers after a schedule. -/
def streamRun (after : Option Int) (schedule : List (Fin 3)) :
    Pool (Fin 3) (TapeState (Fin 3)) (TapeOp (Fin 3)) Empty Unit :=
  (tapePool (streamAndWriters after) startedTape).run TapeOp.exec id (schedule.map .run)

/-- A stream after event 5 of a tape with one event is sent the next one, number 1; and a stream that
is live when two events are notified in the opposite order is sent the later and never the earlier. -/
theorem stream_sends_before_start_and_drops :
    (((streamRun (some 5) [0, 0, 1, 1, 1, 0, 0]).state.sent 0).map (·.id) = [1] ∧
      (streamRun (some 5) [0, 0, 1, 1, 1, 0, 0]).state.table.listForTape "tape_1" (some 5) = []) ∧
    (((streamRun none [0, 0, 0, 1, 1, 2, 2, 2, 1, 0, 0]).state.sent 0).map (·.id) = [0, 2] ∧
      (upToDone ((streamRun none [0, 0, 0, 1, 1, 2, 2, 2, 1, 0, 0]).state.table.listForTape
        "tape_1" none)).map (·.id) = [0, 1, 2]) := by
  decide +kernel

end Krewhub
