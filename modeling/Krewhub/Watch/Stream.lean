import Krewhub.Base.Interleave
import Krewhub.Watch.Service

/-!
# Watch streams

A stream of `GET /watch` reads the log from `since` on, subscribes, sends what it has read and then what
its queue receives; `record` inserts into the log, commits and notifies the subscribers. Each of these is
a step of its own, and any number of records and streams may run beside one another.

A number is pending from its insertion to its notification. As long as no stream subscribes between the
two halves of what it should see, and no number is notified before a smaller one, what a stream has sent
has no gaps.
-/

namespace Krewhub

/-- The watch service, and of every stream its subscription, its queue and what it has sent to its
client; `pending` lists the numbers that have not been notified yet. -/
structure WatchState (ι : Type) where
  log : WatchLog
  subscribers : ι → Option WatchOptions
  queues : ι → List WatchEvent
  sent : ι → List WatchEvent
  pending : List Nat

/-- What the coroutines await, and what they do between two awaits. A subscription comes with what has
been replayed before it. -/
inductive WatchOp (ι : Type) where
  | append (m : Mutation)
  | commit
  | notify (event : WatchEvent)
  | select (opts : WatchOptions)
  | subscribe (i : ι) (opts : WatchOptions) (replayed : List WatchEvent)
  | send (i : ι) (event : WatchEvent)
  | next (i : ι)
  | unsubscribe (i : ι)

/-- `asyncio.Queue(maxsize=256)`. -/
def queueSize : Nat := 256

variable {ι : Type} [DecidableEq ι]

namespace WatchState

/-- The log as it is, with everything in it notified and nobody subscribed. -/
def opened (log : WatchLog) : WatchState ι where
  log := log
  subscribers _ := none
  queues _ := []
  sent _ := []
  pending := []

/-- The subscription asks for the event. -/
def asksFor (s : WatchState ι) (event : WatchEvent) (i : ι) : Bool :=
  (s.subscribers i).any (·.matchesEvent event)

def isFull (s : WatchState ι) (i : ι) : Bool := decide (queueSize ≤ (s.queues i).length)

end WatchState

/-- What a step makes of the service; `notify` is `_notify`, which drops the subscribers whose queue is
full. -/
def WatchOp.exec (op : WatchOp ι) (s : WatchState ι) : WatchState ι :=
  match op with
  | .append m =>
      { s with log := s.log.append m, pending := s.pending ++ [(s.log.nextEntry m).seq] }
  | .commit | .select _ => s
  | .notify event =>
      { s with
        queues := fun i =>
          if s.asksFor event i && !s.isFull i then s.queues i ++ [event] else s.queues i
        subscribers := fun i => if s.asksFor event i && s.isFull i then none else s.subscribers i
        pending := s.pending.filter (· != event.seq) }
  | .subscribe i opts _ => { s with subscribers := Function.update s.subscribers i (some opts) }
  | .send i event => { s with sent := Function.update s.sent i (s.sent i ++ [event]) }
  | .next i =>
    match s.queues i with
    | [] => s
    | event :: rest =>
      { s with
        queues := Function.update s.queues i rest
        sent := Function.update s.sent i (s.sent i ++ [event]) }
  | .unsubscribe i => { s with subscribers := Function.update s.subscribers i none }

/-- A coroutine of the watch service. -/
abbrev Watch (ι α : Type) := Coro (WatchState ι) (WatchOp ι) Empty α

namespace WatchService

def record (m : Mutation) : Watch ι Unit := do
  let entry ← .perform (.append m) fun s => s.log.nextEntry m
  .perform .commit fun _ => ()
  .perform (.notify entry.toEvent) fun _ => ()

/-- The replay phase of `event_generator`. -/
def sendReplayed (i : ι) : List WatchEvent → Watch ι Unit
  | [] => return
  | event :: events => do
    .perform (.send i event) fun _ => ()
    sendReplayed i events

/-- The live phase of `event_generator`, which asks its queue until the client is gone; a queue that
stays empty is a ping. -/
def sendLive (i : ι) : Nat → Watch ι Unit
  | 0 => return
  | n + 1 => do
    .perform (.next i) fun _ => ()
    sendLive i n

/-- `watch_stream`; the client disconnects when its queue has been asked `asked` times. -/
def watchStream (i : ι) (opts : WatchOptions) (asked : Nat) : Watch ι Unit := do
  let replayed ← .perform (.select opts) fun s => replay opts s.log
  .perform (.subscribe i opts replayed) fun _ => ()
  sendReplayed i replayed
  sendLive i asked
  .perform (.unsubscribe i) fun _ => ()

end WatchService

/-- A call of the watch service. -/
inductive WatchCall where
  | record (m : Mutation)
  | stream (opts : WatchOptions) (asked : Nat)
  deriving DecidableEq, Repr

def WatchCall.program (i : ι) : WatchCall → Watch ι Unit
  | .record m => WatchService.record m
  | .stream opts asked => WatchService.watchStream i opts asked

/-- The options of a stream. -/
def WatchCall.options : WatchCall → Option WatchOptions
  | .record _ => none
  | .stream opts _ => some opts

/-! ### What a stream should send -/

/-- The events come in the order of their numbers, none of them twice, and up to each of them there is
everything the log holds after `since` that the options ask for. -/
structure GapFree (opts : WatchOptions) (log : WatchLog) (sent : List WatchEvent) : Prop where
  increasing : sent.Pairwise (·.seq < ·.seq)
  complete : ∀ event ∈ sent, ∀ e ∈ log.after opts.since, opts.matchesEvent e.toEvent = true →
    e.seq ≤ event.seq → e.toEvent ∈ sent

instance (opts : WatchOptions) (log : WatchLog) (sent : List WatchEvent) :
    Decidable (GapFree opts log sent) :=
  decidable_of_iff (sent.Pairwise (·.seq < ·.seq) ∧ ∀ event ∈ sent, ∀ e ∈ log.after opts.since,
    opts.matchesEvent e.toEvent = true → e.seq ≤ event.seq → e.toEvent ∈ sent)
    ⟨fun h => ⟨h.1, h.2⟩, fun h => ⟨h.increasing, h.complete⟩⟩

/-- Of what the options ask for, the events hold what has been notified, and what is pending comes after
them. -/
def WatchState.Abreast (s : WatchState ι) (opts : WatchOptions) (events : List WatchEvent) : Prop :=
  ∀ e ∈ s.log.entries, opts.matchesEvent e.toEvent = true →
    if e.seq ∈ s.pending then ∀ event ∈ events, event.seq < e.seq
    else opts.since < e.seq → e.toEvent ∈ events

/-- When a stream subscribes, what it asks for has been both replayed and notified, or neither, and then
it comes after everything replayed; when an event is notified, no smaller number that one of its
subscribers asks for is pending. -/
def WatchState.InStep (s : WatchState ι) : WatchOp ι → Prop
  | .subscribe _ opts replayed => s.Abreast opts replayed
  | .notify event => ∀ i, s.asksFor event i = true → ∀ e ∈ s.log.entries,
      s.asksFor e.toEvent i = true → e.seq < event.seq → e.seq ∉ s.pending
  | _ => True

omit [DecidableEq ι] in
theorem WatchState.Abreast.gapFree {s : WatchState ι} {opts : WatchOptions}
    {events : List WatchEvent} (h : s.Abreast opts events) (hsorted : events.Pairwise (·.seq < ·.seq)) :
    GapFree opts s.log events := by
  refine ⟨hsorted, fun event hevent e he hmatch hle => ?_⟩
  obtain ⟨hmem, hsince⟩ := WatchLog.mem_after.mp he
  have hcase := h e hmem hmatch
  by_cases hpending : e.seq ∈ s.pending
  · rw [if_pos hpending] at hcase
    have hlt := hcase event hevent
    omega
  · rw [if_neg hpending] at hcase
    exact hcase hsince

/-- What has been sent is a first part of what has been handed over. -/
theorem GapFree.of_append {opts : WatchOptions} {log : WatchLog} {sent rest : List WatchEvent}
    (h : GapFree opts log (sent ++ rest)) : GapFree opts log sent := by
  obtain ⟨hsent, _, hbefore⟩ := List.pairwise_append.mp h.increasing
  refine ⟨hsent, fun event hevent e he hmatch hle => ?_⟩
  rcases List.mem_append.mp
    (h.complete event (List.mem_append_left _ hevent) e he hmatch hle) with hmem | hmem
  · exact hmem
  · have hlt : event.seq < e.seq := hbefore event hevent _ hmem
    omega

/-! ### How far a call has come -/

inductive WatchPhase where
  | idle
  | appended (e : WatchEntry)
  | selected (replayed : List WatchEvent)
  | sending (rest : List WatchEvent)
  | over

namespace WatchPhase

/-- What has been replayed and not been sent yet. -/
def rest : WatchPhase → List WatchEvent
  | .sending rest => rest
  | _ => []

/-- The stream has not subscribed yet. -/
def Unopened (phase : WatchPhase) : Prop := phase = .idle ∨ ∃ replayed, phase = .selected replayed

def advance (phase : WatchPhase) (op : WatchOp ι) (s : WatchState ι) : WatchPhase :=
  match op with
  | .append m => .appended (s.log.nextEntry m)
  | .select opts => .selected (replay opts s.log)
  | .subscribe _ _ replayed => .sending replayed
  | .send .. => .sending phase.rest.tail
  | .commit | .next _ => phase
  | .notify _ | .unsubscribe _ => .over

/-- What the call of thread `i` may do next. -/
def Allowed (calls : ι → WatchCall) (i : ι) (phase : WatchPhase) : WatchOp ι → Prop
  | .append _ => phase = .idle ∧ (calls i).options = none
  | .commit => True
  | .notify event => (calls i).options = none ∧ ∃ e, phase = .appended e ∧ event = e.toEvent
  | .select opts => phase = .idle ∧ (calls i).options = some opts
  | .subscribe j opts replayed =>
      j = i ∧ phase = .selected replayed ∧ (calls i).options = some opts
  | .send j event => j = i ∧ ∃ rest, phase = .sending (event :: rest)
  | .next j | .unsubscribe j => j = i ∧ phase = .sending []

end WatchPhase

/-- A record inserts, commits and notifies; a stream replays, subscribes and sends. -/
def watchProtocol (calls : ι → WatchCall) : Protocol ι (WatchState ι) (WatchOp ι) Unit WatchPhase where
  start := .idle
  allowed := WatchPhase.Allowed calls
  advance := WatchPhase.advance
  final _ _ _ := True

section Follows

variable {calls : ι → WatchCall} {i : ι}

omit [DecidableEq ι] in
theorem follows_sendReplayed (events : List WatchEvent) :
    (WatchService.sendReplayed i events).Follows (WatchPhase.Allowed calls i) WatchPhase.advance
      (fun phase _ => phase = .sending []) (.sending events) := by
  induction events with
  | nil => rfl
  | cons event events ih => exact ⟨⟨rfl, events, rfl⟩, fun _ => ih⟩

omit [DecidableEq ι] in
theorem follows_sendLive (asked : Nat) :
    (WatchService.sendLive i asked).Follows (WatchPhase.Allowed calls i) WatchPhase.advance
      (fun phase _ => phase = .sending []) (.sending []) := by
  induction asked with
  | zero => rfl
  | succ asked ih => exact ⟨⟨rfl, rfl⟩, fun _ => ih⟩

omit [DecidableEq ι] in
theorem follows_watchCall :
    ((calls i).program i).Follows (WatchPhase.Allowed calls i) WatchPhase.advance (fun _ _ => True)
      .idle := by
  cases hcall : calls i with
  | record m =>
    have hoptions : (calls i).options = none := by rw [hcall]; rfl
    exact ⟨⟨rfl, hoptions⟩, fun _ => ⟨trivial, fun _ => ⟨⟨hoptions, _, rfl, rfl⟩, fun _ => trivial⟩⟩⟩
  | stream opts asked =>
    have hoptions : (calls i).options = some opts := by rw [hcall]; rfl
    refine ⟨⟨rfl, hoptions⟩, fun s => ⟨⟨rfl, rfl, hoptions⟩, fun _ => ?_⟩⟩
    refine (follows_sendReplayed _).bind fun phase _ hphase => ?_
    obtain rfl := hphase
    refine (follows_sendLive asked).bind fun phase _ hphase => ?_
    obtain rfl := hphase
    exact ⟨⟨rfl, rfl⟩, fun _ => trivial⟩

end Follows

/-! ### Every step -/

section Step

variable {s : WatchState ι} {opts : WatchOptions} {events : List WatchEvent}

theorem WatchState.Abreast.append (h : s.Abreast opts events)
    (hbounded : ∀ event ∈ events, event.seq ≤ s.log.last) (m : Mutation) :
    WatchState.Abreast ((WatchOp.append m).exec s) opts events := by
  intro e he hmatch
  rcases WatchLog.mem_append.mp he with he | rfl
  · have hle := s.log.bounded e he
    have hpending : e.seq ∈ s.pending ++ [(s.log.nextEntry m).seq] ↔ e.seq ∈ s.pending := by
      simp only [List.mem_append, List.mem_singleton, WatchLog.nextEntry, or_iff_left_iff_imp]
      omega
    simpa only [WatchOp.exec, hpending] using h e he hmatch
  · rw [if_pos (by simp [WatchOp.exec])]
    intro event hevent
    exact Nat.lt_succ_of_le (hbounded event hevent)

omit [DecidableEq ι] in
theorem GapFree.append {log : WatchLog} (h : GapFree opts log events)
    (hbounded : ∀ event ∈ events, event.seq ≤ log.last) (m : Mutation) :
    GapFree opts (log.append m) events := by
  refine ⟨h.increasing, fun event hevent e he hmatch hle => ?_⟩
  obtain ⟨hmem, hsince⟩ := WatchLog.mem_after.mp he
  rcases WatchLog.mem_append.mp hmem with hmem | rfl
  · exact h.complete event hevent e (WatchLog.mem_after.mpr ⟨hmem, hsince⟩) hmatch hle
  · have hlast := hbounded event hevent
    simp only [WatchLog.nextEntry] at hle
    omega

/-- A subscriber that does not ask for an event is not behind when it is notified. -/
theorem WatchState.Abreast.notify_other {e₀ : WatchEntry} (h : s.Abreast opts events)
    (he₀ : e₀ ∈ s.log.entries) (hother : opts.matchesEvent e₀.toEvent = false) :
    WatchState.Abreast ((WatchOp.notify e₀.toEvent).exec s) opts events := by
  intro e he hmatch
  have hne : e.seq ≠ e₀.seq := by
    intro heq
    rw [s.log.eq_of_seq_eq he he₀ heq, hother] at hmatch
    cases hmatch
  simpa [WatchOp.exec, hne] using h e he hmatch

/-- A subscriber that asks for it gets it after everything else. -/
theorem WatchState.Abreast.notify {e₀ : WatchEntry} (h : s.Abreast opts events)
    (hfirst : ∀ e ∈ s.log.entries, opts.matchesEvent e.toEvent = true → e.seq < e₀.seq →
      e.seq ∉ s.pending) (he₀ : e₀ ∈ s.log.entries) :
    WatchState.Abreast ((WatchOp.notify e₀.toEvent).exec s) opts (events ++ [e₀.toEvent]) := by
  intro e he hmatch
  have hcase := h e he hmatch
  by_cases hsame : e.seq = e₀.seq
  · rw [s.log.eq_of_seq_eq he he₀ hsame]
    simp [WatchOp.exec]
  · have hiff : e.seq ∈ ((WatchOp.notify e₀.toEvent).exec s).pending ↔ e.seq ∈ s.pending := by
      simp [WatchOp.exec, hsame]
    by_cases hmem : e.seq ∈ s.pending
    · rw [if_pos hmem] at hcase
      rw [if_pos (hiff.mpr hmem)]
      have hlt : e₀.seq < e.seq := by
        by_contra hle
        exact hfirst e he hmatch (by omega) hmem
      intro event hevent
      rcases List.mem_append.mp hevent with hevent | hevent
      · exact hcase event hevent
      · rw [List.mem_singleton.mp hevent]
        exact hlt
    · rw [if_neg hmem] at hcase
      rw [if_neg fun hmem' => hmem (hiff.mp hmem')]
      exact fun hsince => List.mem_append_left _ (hcase hsince)

end Step

/-- What has been handed over for stream `i`: sent, replayed and not sent yet, or in its queue. -/
def WatchState.handed (s : WatchState ι) (i : ι) (phase : WatchPhase) : List WatchEvent :=
  s.sent i ++ phase.rest ++ s.queues i

/-- What holds of a stream with these options. -/
structure StreamHolds (opts : WatchOptions) (s : WatchState ι) (i : ι) (phase : WatchPhase) :
    Prop where
  gapFree : GapFree opts s.log (s.handed i phase)
  bounded : ∀ event ∈ s.handed i phase, event.seq ≤ s.log.last
  abreast : ∀ opts' ∈ s.subscribers i, opts' = opts ∧ s.Abreast opts (s.handed i phase)
  unopened : phase.Unopened → s.subscribers i = none ∧ s.sent i = [] ∧ s.queues i = []
  replayed : ∀ replayed, phase = .selected replayed → replayed.Pairwise (·.seq < ·.seq) ∧
    ∀ event ∈ replayed, event.seq ≤ s.log.last

/-- What holds of the service and its calls after every step. -/
structure WatchInv (calls : ι → WatchCall) (s : WatchState ι) (phase : ι → WatchPhase) : Prop where
  inFlight : ∀ i e, phase i = .appended e → e ∈ s.log.entries ∧ e.seq ∈ s.pending
  apart : ∀ i j e e', phase i = .appended e → phase j = .appended e' → e.seq = e'.seq → i = j
  streams : ∀ i opts, (calls i).options = some opts → StreamHolds opts s i (phase i)

section Step

variable {opts : WatchOptions} {s : WatchState ι} {i : ι} {phase : WatchPhase}

theorem StreamHolds.append (h : StreamHolds opts s i phase) (m : Mutation) :
    StreamHolds opts ((WatchOp.append m).exec s) i phase where
  gapFree := h.gapFree.append h.bounded m
  bounded event hevent := Nat.le_succ_of_le (h.bounded event hevent)
  abreast opts' hopts' := by
    obtain ⟨heq, habreast⟩ := h.abreast opts' hopts'
    exact ⟨heq, habreast.append h.bounded m⟩
  unopened := h.unopened
  replayed replayed hphase := by
    obtain ⟨hsorted, hbounded⟩ := h.replayed replayed hphase
    exact ⟨hsorted, fun event hevent => Nat.le_succ_of_le (hbounded event hevent)⟩

omit [DecidableEq ι] in
/-- A step that hands over nothing more. -/
theorem StreamHolds.of_handed {s' : WatchState ι} {phase' : WatchPhase}
    (h : StreamHolds opts s i phase) (hlog : s'.log = s.log)
    (hhanded : s'.handed i phase' = s.handed i phase)
    (habreast : ∀ opts' ∈ s'.subscribers i, opts' = opts ∧ s'.Abreast opts (s.handed i phase))
    (hunopened : phase'.Unopened → s'.subscribers i = none ∧ s'.sent i = [] ∧ s'.queues i = [])
    (hreplayed : ∀ replayed, phase' = .selected replayed → replayed.Pairwise (·.seq < ·.seq) ∧
      ∀ event ∈ replayed, event.seq ≤ s.log.last) : StreamHolds opts s' i phase' where
  gapFree := by
    rw [hlog, hhanded]
    exact h.gapFree
  bounded := by
    rw [hlog, hhanded]
    exact h.bounded
  abreast := by rwa [hhanded]
  unopened := hunopened
  replayed := by rwa [hlog]

omit [DecidableEq ι] in
/-- A step of another stream. -/
theorem StreamHolds.frame {s' : WatchState ι} (h : StreamHolds opts s i phase)
    (hlog : s'.log = s.log) (hpending : s'.pending = s.pending)
    (hsubscribers : s'.subscribers i = s.subscribers i) (hsent : s'.sent i = s.sent i)
    (hqueue : s'.queues i = s.queues i) : StreamHolds opts s' i phase := by
  refine h.of_handed hlog (by rw [WatchState.handed, hsent, hqueue, WatchState.handed])
    (fun opts' hopts' => ?_) (fun hphase => ?_) h.replayed
  · rw [hsubscribers] at hopts'
    obtain ⟨heq, habreast⟩ := h.abreast opts' hopts'
    exact ⟨heq, by rwa [WatchState.Abreast, hlog, hpending]⟩
  · rw [hsubscribers, hsent, hqueue]
    exact h.unopened hphase

/-- A notification goes to the end of what the stream has been handed, or passes it by. -/
theorem StreamHolds.notify (h : StreamHolds opts s i phase) {e₀ : WatchEntry}
    (he₀ : e₀ ∈ s.log.entries) (hpending : e₀.seq ∈ s.pending)
    (hfirst : s.InStep (.notify e₀.toEvent)) :
    StreamHolds opts ((WatchOp.notify e₀.toEvent).exec s) i phase := by
  cases hsub : s.subscribers i with
  | none =>
    have hasks : s.asksFor e₀.toEvent i = false := by rw [WatchState.asksFor, hsub]; rfl
    refine h.of_handed rfl (by simp [WatchState.handed, WatchOp.exec, hasks]) (fun _ hopts' => ?_)
      (fun hphase => ?_) h.replayed
    · simp [WatchOp.exec, hasks, hsub] at hopts'
    · simpa [WatchOp.exec, hasks] using h.unopened hphase
  | some opts' =>
    obtain ⟨rfl, habreast⟩ := h.abreast opts' hsub
    have hasks : ∀ event, s.asksFor event i = opts'.matchesEvent event := fun event => by
      rw [WatchState.asksFor, hsub]
      rfl
    have hopen : ¬ phase.Unopened := by
      intro hphase
      rw [(h.unopened hphase).1] at hsub
      cases hsub
    by_cases hpass : opts'.matchesEvent e₀.toEvent = false ∨ s.isFull i = true
    · refine h.of_handed rfl ?_ (fun opts hopts => ?_) (fun hphase => absurd hphase hopen) h.replayed
      · rcases hpass with hpass | hpass <;> simp [WatchState.handed, WatchOp.exec, hasks, hpass]
      · rcases hpass with hmatch | hfull
        · have heq : opts' = opts := by simpa [WatchOp.exec, hasks, hmatch, hsub] using hopts
          exact ⟨heq.symm, habreast.notify_other he₀ hmatch⟩
        · have hmatch : opts'.matchesEvent e₀.toEvent = false ∧ opts' = opts := by
            simpa [WatchOp.exec, hasks, hfull, hsub] using hopts
          exact ⟨hmatch.2.symm, habreast.notify_other he₀ hmatch.1⟩
    · rw [not_or, Bool.not_eq_false, Bool.not_eq_true] at hpass
      obtain ⟨hmatch, hroom⟩ := hpass
      have hhanded : ((WatchOp.notify e₀.toEvent).exec s).handed i phase =
          s.handed i phase ++ [e₀.toEvent] := by
        simp [WatchState.handed, WatchOp.exec, hasks, hmatch, hroom]
      have hlater : ∀ event ∈ s.handed i phase, event.seq < e₀.seq := by
        have hcase := habreast e₀ he₀ hmatch
        rwa [if_pos hpending] at hcase
      have habreast' : ((WatchOp.notify e₀.toEvent).exec s).Abreast opts'
          (s.handed i phase ++ [e₀.toEvent]) := by
        refine habreast.notify (fun e he hmatch' hlt => ?_) he₀
        exact hfirst i (by rw [hasks, hmatch]) e he (by rw [hasks, hmatch']) hlt
      have hsorted : (s.handed i phase ++ [e₀.toEvent]).Pairwise (·.seq < ·.seq) := by
        refine List.pairwise_append.mpr ⟨h.gapFree.increasing, List.pairwise_singleton _ _, ?_⟩
        intro event hevent event' hevent'
        rw [List.mem_singleton.mp hevent']
        exact hlater event hevent
      refine ⟨?_, ?_, fun opts hopts => ?_, fun hphase => absurd hphase hopen, h.replayed⟩
      · rw [hhanded]
        exact habreast'.gapFree hsorted
      · rw [hhanded]
        intro event hevent
        rcases List.mem_append.mp hevent with hevent | hevent
        · exact h.bounded event hevent
        · rw [List.mem_singleton.mp hevent]
          exact s.log.bounded e₀ he₀
      · have heq : opts' = opts := by simpa [WatchOp.exec, hasks, hmatch, hroom, hsub] using hopts
        rw [hhanded]
        exact ⟨heq.symm, habreast'⟩

omit [DecidableEq ι] in
theorem StreamHolds.select (h : StreamHolds opts s i .idle) :
    StreamHolds opts s i (.selected (replay opts s.log)) := by
  refine h.of_handed rfl rfl h.abreast (fun _ => h.unopened (.inl rfl)) fun replayed hphase => ?_
  obtain rfl := WatchPhase.selected.inj hphase
  refine ⟨List.pairwise_map.mpr (s.log.pairwise_listSince _ _), fun event hevent => ?_⟩
  obtain ⟨e, he, rfl⟩ := List.mem_map.mp hevent
  exact s.log.bounded e (WatchLog.mem_of_mem_listSince he)

theorem StreamHolds.subscribe {replayed : List WatchEvent}
    (h : StreamHolds opts s i (.selected replayed)) (habreast : s.Abreast opts replayed) :
    StreamHolds opts ((WatchOp.subscribe i opts replayed).exec s) i (.sending replayed) := by
  obtain ⟨hsorted, hbounded⟩ := h.replayed replayed rfl
  obtain ⟨_, hsent, hqueue⟩ := h.unopened (.inr ⟨replayed, rfl⟩)
  have hhanded : ((WatchOp.subscribe i opts replayed).exec s).handed i (.sending replayed) =
      replayed := by
    simp [WatchState.handed, WatchOp.exec, WatchPhase.rest, hsent, hqueue]
  refine ⟨?_, ?_, fun opts' hopts' => ?_, by simp [WatchPhase.Unopened], by simp⟩
  · rw [hhanded]
    exact habreast.gapFree hsorted
  · rw [hhanded]
    exact hbounded
  · have heq : opts = opts' := by simpa [WatchOp.exec] using hopts'
    rw [hhanded]
    exact ⟨heq.symm, habreast⟩

theorem StreamHolds.send {event : WatchEvent} {rest : List WatchEvent}
    (h : StreamHolds opts s i (.sending (event :: rest))) :
    StreamHolds opts ((WatchOp.send i event).exec s) i (.sending rest) :=
  h.of_handed rfl (by simp [WatchState.handed, WatchOp.exec, WatchPhase.rest]) h.abreast
    (by simp [WatchPhase.Unopened]) (by simp)

theorem StreamHolds.next (h : StreamHolds opts s i (.sending [])) :
    StreamHolds opts ((WatchOp.next i).exec s) i (.sending []) := by
  rw [WatchOp.exec]
  split
  · exact h
  · rename_i event rest hqueue
    exact h.of_handed rfl (by simp [WatchState.handed, WatchPhase.rest, hqueue]) h.abreast
      (by simp [WatchPhase.Unopened]) (by simp)

theorem StreamHolds.unsubscribe (h : StreamHolds opts s i (.sending [])) :
    StreamHolds opts ((WatchOp.unsubscribe i).exec s) i .over :=
  h.of_handed rfl rfl (by simp [WatchOp.exec]) (by simp [WatchPhase.Unopened]) (by simp)

end Step

section Inv

variable {calls : ι → WatchCall} {s : WatchState ι} {phase : ι → WatchPhase} {i : ι}

/-- A step of a stream: the log stays, and the other streams are left alone. -/
theorem WatchInv.own {s' : WatchState ι} {phase' : WatchPhase} (h : WatchInv calls s phase)
    (hlog : s'.log = s.log) (hpending : s'.pending = s.pending)
    (hphase : ∀ e, phase' = .appended e → phase i = .appended e)
    (hothers : ∀ j, j ≠ i → s'.subscribers j = s.subscribers j ∧ s'.sent j = s.sent j ∧
      s'.queues j = s.queues j)
    (hself : ∀ opts, (calls i).options = some opts → StreamHolds opts s' i phase') :
    WatchInv calls s' (Function.update phase i phase') := by
  have hback : ∀ j e, Function.update phase i phase' j = .appended e → phase j = .appended e := by
    intro j e hj
    by_cases hji : j = i
    · subst hji
      rw [Function.update_self] at hj
      exact hphase e hj
    · rwa [Function.update_of_ne hji] at hj
  refine ⟨fun j e hj => ?_, fun j k e e' hj hk => ?_, fun j opts hopts => ?_⟩
  · rw [hlog, hpending]
    exact h.inFlight j e (hback j e hj)
  · exact h.apart j k e e' (hback j e hj) (hback k e' hk)
  · by_cases hji : j = i
    · subst hji
      rw [Function.update_self]
      exact hself opts hopts
    · rw [Function.update_of_ne hji]
      obtain ⟨hsubscribers, hsent, hqueue⟩ := hothers j hji
      exact (h.streams j opts hopts).frame hlog hpending hsubscribers hsent hqueue

theorem WatchInv.append (h : WatchInv calls s phase) (hidle : (calls i).options = none)
    (m : Mutation) :
    WatchInv calls ((WatchOp.append m).exec s)
      (Function.update phase i (.appended (s.log.nextEntry m))) := by
  have hold : ∀ j e, phase j = .appended e → e.seq < (s.log.nextEntry m).seq := fun j e hj =>
    Nat.lt_succ_of_le (s.log.bounded e (h.inFlight j e hj).1)
  refine ⟨fun j e hj => ?_, fun j k e e' hj hk heq => ?_, fun j opts hopts => ?_⟩
  · by_cases hji : j = i
    · subst hji
      rw [Function.update_self] at hj
      rw [← WatchPhase.appended.inj hj]
      exact ⟨WatchLog.mem_append.mpr (.inr rfl), by simp [WatchOp.exec]⟩
    · rw [Function.update_of_ne hji] at hj
      obtain ⟨hmem, hpending⟩ := h.inFlight j e hj
      exact ⟨WatchLog.mem_append.mpr (.inl hmem), List.mem_append_left _ hpending⟩
  · by_cases hji : j = i <;> by_cases hki : k = i
    · rw [hji, hki]
    · rw [hji, Function.update_self] at hj
      rw [Function.update_of_ne hki] at hk
      have hlt := hold k e' hk
      rw [← WatchPhase.appended.inj hj] at heq
      omega
    · rw [hki, Function.update_self] at hk
      rw [Function.update_of_ne hji] at hj
      have hlt := hold j e hj
      rw [← WatchPhase.appended.inj hk] at heq
      omega
    · rw [Function.update_of_ne hji] at hj
      rw [Function.update_of_ne hki] at hk
      exact h.apart j k e e' hj hk heq
  · have hji : j ≠ i := by
      rintro rfl
      rw [hidle] at hopts
      cases hopts
    rw [Function.update_of_ne hji]
    exact (h.streams j opts hopts).append m

theorem WatchInv.notify (h : WatchInv calls s phase) (hidle : (calls i).options = none)
    {e₀ : WatchEntry} (he₀ : phase i = .appended e₀) (hfirst : s.InStep (.notify e₀.toEvent)) :
    WatchInv calls ((WatchOp.notify e₀.toEvent).exec s) (Function.update phase i .over) := by
  obtain ⟨hmem₀, hpending₀⟩ := h.inFlight i e₀ he₀
  have hback : ∀ j e, Function.update phase i .over j = .appended e → j ≠ i ∧ phase j = .appended e := by
    intro j e hj
    by_cases hji : j = i
    · rw [hji, Function.update_self] at hj
      cases hj
    · exact ⟨hji, by rwa [Function.update_of_ne hji] at hj⟩
  refine ⟨fun j e hj => ?_, fun j k e e' hj hk => ?_, fun j opts hopts => ?_⟩
  · obtain ⟨hji, hj⟩ := hback j e hj
    obtain ⟨hmem, hpending⟩ := h.inFlight j e hj
    have hne : e.seq ≠ e₀.seq := fun heq => hji (h.apart j i e e₀ hj he₀ heq)
    exact ⟨hmem, by simp [WatchOp.exec, hpending, hne]⟩
  · exact h.apart j k e e' (hback j e hj).2 (hback k e' hk).2
  · have hji : j ≠ i := by
      rintro rfl
      rw [hidle] at hopts
      cases hopts
    rw [Function.update_of_ne hji]
    exact (h.streams j opts hopts).notify hmem₀ hpending₀ hfirst

theorem WatchInv.step {op : WatchOp ι} (h : WatchInv calls s phase)
    (hallowed : WatchPhase.Allowed calls i (phase i) op) (hstep : s.InStep op) :
    WatchInv calls (op.exec s) (Function.update phase i ((phase i).advance op s)) := by
  cases op with
  | append m => exact h.append hallowed.2 m
  | commit => rwa [WatchPhase.advance, Function.update_eq_self]
  | notify event =>
    obtain ⟨hidle, e₀, he₀, rfl⟩ := hallowed
    exact h.notify hidle he₀ hstep
  | select opts =>
    obtain ⟨hphase, hopts⟩ := hallowed
    refine h.own rfl rfl (fun e he => by cases he) (fun _ _ => ⟨rfl, rfl, rfl⟩) fun opts' hopts' => ?_
    obtain rfl := Option.some.inj (hopts.symm.trans hopts')
    have hholds := h.streams i opts hopts
    rw [hphase] at hholds
    exact hholds.select
  | subscribe j opts replayed =>
    obtain ⟨rfl, hphase, hopts⟩ := hallowed
    refine h.own rfl rfl (fun e he => by cases he)
      (fun k hk => ⟨Function.update_of_ne hk _ _, rfl, rfl⟩) fun opts' hopts' => ?_
    obtain rfl := Option.some.inj (hopts.symm.trans hopts')
    have hholds := h.streams j opts hopts
    rw [hphase] at hholds
    exact hholds.subscribe hstep
  | send j event =>
    obtain ⟨rfl, rest, hphase⟩ := hallowed
    rw [hphase]
    refine h.own rfl rfl (fun e he => by cases he)
      (fun k hk => ⟨rfl, Function.update_of_ne hk _ _, rfl⟩) fun opts hopts => ?_
    have hholds := h.streams j opts hopts
    rw [hphase] at hholds
    exact hholds.send
  | next j =>
    obtain ⟨rfl, hphase⟩ := hallowed
    rw [hphase]
    refine h.own (by rw [WatchOp.exec]; split <;> rfl) (by rw [WatchOp.exec]; split <;> rfl)
      (fun e he => by cases he) (fun k hk => ?_) fun opts hopts => ?_
    · rw [WatchOp.exec]
      split
      · exact ⟨rfl, rfl, rfl⟩
      · exact ⟨rfl, Function.update_of_ne hk _ _, Function.update_of_ne hk _ _⟩
    · have hholds := h.streams j opts hopts
      rw [hphase] at hholds
      exact hholds.next
  | unsubscribe j =>
    obtain ⟨rfl, hphase⟩ := hallowed
    refine h.own rfl rfl (fun e he => by cases he)
      (fun k hk => ⟨Function.update_of_ne hk _ _, rfl, rfl⟩) fun opts hopts => ?_
    have hholds := h.streams j opts hopts
    rw [hphase] at hholds
    exact hholds.unsubscribe

omit [DecidableEq ι] in
theorem watchInv_start (calls : ι → WatchCall) (log : WatchLog) :
    WatchInv calls (WatchState.opened log) fun _ => .idle where
  inFlight i e h := by cases h
  apart i j e e' h := by cases h
  streams i opts hopts := by
    refine ⟨⟨.nil, by simp [WatchState.handed, WatchState.opened, WatchPhase.rest]⟩, ?_, ?_,
      fun _ => ⟨rfl, rfl, rfl⟩, by simp⟩
    · simp [WatchState.handed, WatchState.opened, WatchPhase.rest]
    · simp [WatchState.opened]

end Inv

/-! ### Every schedule -/

/-- The calls, none of which has begun, on a log everything in which has been notified. -/
def watchPool (calls : ι → WatchCall) (log : WatchLog) :
    Pool ι (WatchState ι) (WatchOp ι) Empty Unit :=
  Pool.init (fun i => (calls i).program i) (WatchState.opened log)

instance WatchState.decidableInStep {n : Nat} (s : WatchState (Fin n)) (op : WatchOp (Fin n)) : Decidable (s.InStep op) :=
  match op with
  | .subscribe _ opts replayed => inferInstanceAs (Decidable
      (∀ e ∈ s.log.entries, opts.matchesEvent e.toEvent = true →
        if e.seq ∈ s.pending then ∀ event ∈ replayed, event.seq < e.seq
        else opts.since < e.seq → e.toEvent ∈ replayed))
  | .notify event => inferInstanceAs (Decidable
      (∀ i, s.asksFor event i = true → ∀ e ∈ s.log.entries,
        s.asksFor e.toEvent i = true → e.seq < event.seq → e.seq ∉ s.pending))
  | .append _ | .commit | .select _ | .send .. | .next _ | .unsubscribe _ => .isTrue trivial

/-- A stream of everything, and two tasks that are created. -/
def streamAndRecords (i : Fin 3) : WatchCall :=
  if i = 0 then .stream {} 2
  else .record { resourceType := "task", resourceId := if i = 1 then "task_1" else "task_2",
                 eventType := .added }

/-- The first task is created after the replay and before the subscription, the second after both. -/
def recordedBetween : List (Fin 3) := [0, 1, 1, 1, 0, 2, 2, 2, 0]

end Krewhub
