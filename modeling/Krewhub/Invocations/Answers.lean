import Krewhub.Invocations.Service

/-!
# Answers on the task tape

`post_result` hands an operator's result to the service and then puts it onto the tape of the task that
delegated, whatever the service has made of it: the run may find that it does not fit the schema, may have
taken the result of another request, or may have been cancelled before. Where a result is delivered only
while the slot is empty, the Hand waits and the result fits, the answer on the task tape is the one that is
stored with the invocation.
-/

namespace Krewhub

/-- The answer to an invocation on the tape of a task. -/
structure DelegateAnswer where
  invocationId : String
  action : Action
  body : String
  actorId : String
  sequence : Nat
  deriving DecidableEq

/-- The invocation, and of the events of the task the answers and the last number; `found` says that the task
and its bundle have rows. -/
structure AnswerState where
  invocation : InvocationState
  answers : List DelegateAnswer := []
  lastSequence : Nat := 0
  found : Bool := true

/-- A step of the service, or a statement of the projection. -/
inductive AnswerOp where
  | service (op : InvocationOp)
  | probe
  | scope
  | sequence
  | insert (answer : DelegateAnswer)
  | commit

def AnswerOp.exec (op : AnswerOp) (s : AnswerState) : AnswerState :=
  match op with
  | .service op => { s with invocation := op.exec s.invocation }
  | .insert answer =>
      { s with
        answers := s.answers ++ [answer]
        lastSequence := max s.lastSequence answer.sequence }
  | .probe | .scope | .sequence | .commit => s

abbrev Answering (α : Type) := Coro AnswerState AnswerOp Exn α

/-- A coroutine of the service. -/
def Answering.service {α : Type} (c : Invoking α) : Answering α := c.within AnswerState.invocation .service

section Route

variable (objectText : String → String)

/-- `_envelope_body`; `objectText` is what an object shows, its `text`, `message`, `answer` or `response`, or
its JSON. -/
def envelopeBody (envelope : ResultEnvelope) : String :=
  match envelope.action, envelope.content with
  | .accept, some (.text s) => s
  | .accept, some (.object json) => objectText json
  | .accept, none => ""
  | action, _ =>
    let reason := match envelope.reason with
      | some reason => if reason = "" then action.text else reason
      | none => action.text
    "[" ++ action.text ++ "] " ++ reason

/-- The answer an envelope is rendered as. -/
def DelegateAnswer.renders (req : Delegation) (envelope : ResultEnvelope) (answer : DelegateAnswer) : Prop :=
  answer.invocationId = req.id ∧ answer.action = envelope.action ∧
    answer.body = envelopeBody objectText envelope

/-- `_project_invocation_to_task_tape`. -/
def projectToTaskTape (req : Delegation) (envelope : ResultEnvelope) : Answering Unit := do
  if ← .perform .probe fun s => s.answers.any (·.invocationId == req.id) then return
  let found ← .perform .scope (·.found)
  if !found then return
  if Text.strip (envelopeBody objectText envelope) = "" then return
  let sequence ← .perform .sequence (·.lastSequence + 1)
  .perform (.insert
    { invocationId := req.id
      action := envelope.action
      body := envelopeBody objectText envelope
      actorId := if req.createdBy = "" then "system" else req.createdBy
      sequence := sequence }) fun _ => ()
  .perform .commit fun _ => ()

/-- `post_result`, of an invocation with a `task_id`; an exception of the projection is logged. -/
def postResult (req : Delegation) (envelope : ResultEnvelope) : Answering Unit := do
  let known ← .perform (.service .select) (·.invocation.row.isSome)
  let _ ← Answering.service (InvocationService.submitResult req envelope)
  if known && envelope.action != .pending then
    (projectToTaskTape objectText req envelope).tryCatch fun _ => some (.done ())

/-- A request on the invocation. -/
inductive AnswerCall where
  | post (envelope : ResultEnvelope)
  | cancel (reason : String)

/-- The run of the invocation, and the requests. -/
def answerProgram (req : Delegation) (calls : Nat → AnswerCall) : Option Nat → Answering Unit
  | none => .service (InvocationService.create req)
  | some n =>
    match calls n with
    | .post envelope => postResult objectText req envelope
    | .cancel reason => .service (InvocationService.cancel reason)

def answerPool (req : Delegation) (calls : Nat → AnswerCall) (start : AnswerState) :
    Pool (Option Nat) AnswerState AnswerOp Exn Unit :=
  .init (answerProgram objectText req calls) start

/-- One answer at most is on the task tape, and it is the result that is stored with the invocation, once one
is. -/
structure Authoritative (req : Delegation) (s : AnswerState) : Prop where
  once : (s.answers.filter (·.invocationId == req.id)).length ≤ 1
  stored : ∀ answer ∈ s.answers, answer.invocationId = req.id → ∀ row ∈ s.invocation.row,
    ∀ result ∈ row.result, answer.renders objectText req result

end Route

/-- A result is delivered while the slot is empty and the Hand, which has something to ask, has not come to its
end, and it fits the schema. -/
def DeliveredInTime (req : Delegation) (s : AnswerState) (_ : Option Nat) : AnswerOp → Prop
  | .service (.deliver result) => req.input.asks = true ∧ s.invocation.external = none ∧
      s.invocation.settled = false ∧ result.conform req.missing = result
  | _ => True

instance (req : Delegation) (s : AnswerState) (i : Option Nat) :
    DecidablePred (DeliveredInTime req s i) := fun op => by
  unfold DeliveredInTime
  split <;> infer_instance

/-! ### How far a coroutine has come -/

/-- The run has last seen this in the slot, with the Hand at its end or not, or has its result; a request has
delivered nothing, has delivered its envelope, or has put it onto the task tape. -/
inductive AnswerTurn where
  | start
  | hand (seen : Option ResultEnvelope) (ended : Bool)
  | finished (result : ResultEnvelope)
  | waiting
  | delivered
  | answered

namespace AnswerTurn

/-- The steps of the run; where the Hand has something to ask it is at its end before `done`. -/
def runs (req : Delegation) : AnswerTurn → InvocationOp → Prop
  | .start, .insertRow => True
  | .hand seen ended, .append draft =>
    if draft.kind = .done then
      (req.input.asks = true → ended = true) ∧
        ∃ natural : ResultEnvelope, draft.result = some ((seen.getD natural).conform req.missing)
    else ended = false
  | .hand _ ended, .select | .hand _ ended, .aside | .hand _ ended, .setRunning
  | .hand _ ended, .register | .hand _ ended, .poll | .hand _ ended, .timeout => ended = false
  | .finished result, .setTerminal status result' => result' = result ∧ status = actionToStatus result.action
  | .finished _, .append draft => draft.kind = .handoff
  | .finished _, .aside | .finished _, .drop => True
  | _, _ => False

/-- The steps of a request with this envelope, if it has one. -/
def requests (objectText : String → String) (req : Delegation) (envelope : Option ResultEnvelope)
    (q : AnswerTurn) : AnswerOp → Prop
  | .service .select | .service .aside | .service (.append _) | .service (.fire _) => True
  | .service (.deliver result) => q = .waiting ∧ envelope = some result
  | .service _ => False
  | .probe | .scope | .sequence | .commit => True
  | .insert answer => q = .delivered ∧ ∃ result ∈ envelope, answer.renders objectText req result

def envelopeOf : AnswerCall → Option ResultEnvelope
  | .post envelope => some envelope
  | .cancel _ => none

def allowed (objectText : String → String) (req : Delegation) (calls : Nat → AnswerCall) :
    Option Nat → AnswerTurn → AnswerOp → Prop
  | none, q, .service op => q.runs req op
  | none, _, _ => False
  | some n, q, op => q.requests objectText req (envelopeOf (calls n)) op

def afterService (q : AnswerTurn) (op : InvocationOp) (s : InvocationState) : AnswerTurn :=
  match q, op with
  | .start, .insertRow => .hand s.external false
  | .start, _ => .waiting
  | .hand _ ended, .append draft =>
    match draft.kind, draft.result with
    | .done, some result => .finished result
    | _, _ => .hand s.external ended
  | .hand _ ended, .poll => .hand s.external (ended || s.cancelled.isSome || s.external.isSome)
  | .hand _ _, .timeout => .hand s.external true
  | .hand _ ended, _ => .hand s.external ended
  | .waiting, .deliver _ => .delivered
  | q, _ => q

def advance (q : AnswerTurn) (op : AnswerOp) (s : AnswerState) : AnswerTurn :=
  match op with
  | .service op => q.afterService op s.invocation
  | .insert _ => .answered
  | _ => q

def protocol (objectText : String → String) (req : Delegation) (calls : Nat → AnswerCall) :
    Protocol (Option Nat) AnswerState AnswerOp Unit AnswerTurn where
  start := .start
  allowed := allowed objectText req calls
  advance := advance
  final _ _ _ := True

variable {objectText : String → String} {req : Delegation} {calls : Nat → AnswerCall}

/-- The Hand may be at its end: it has been asked and has ended, or had nothing to ask. -/
def AtEnd (req : Delegation) (ended : Bool) : Prop := req.input.asks = true → ended = true

/-- What the Hand ends with: what was last seen in the slot is in the typestate. -/
def handFinal (req : Delegation) (q : AnswerTurn) (_ : Option ResultEnvelope) : Prop :=
  ∃ seen ended, q = .hand seen ended ∧ AtEnd req ended

/-- The steps of the Hand before its end. -/
def hands (q : AnswerTurn) (op : InvocationOp) : Prop :=
  (∃ seen, q = .hand seen false) ∧ match op with
    | .select | .aside | .poll | .timeout => True
    | .append draft => draft.kind = .elicit
    | _ => False

theorem runs_done {seen : Option ResultEnvelope} {ended : Bool} {draft : TapeDraft}
    {natural : ResultEnvelope} (hkind : draft.kind = .done) (hend : AtEnd req ended)
    (hresult : draft.result = some ((seen.getD natural).conform req.missing)) :
    runs req (.hand seen ended) (.append draft) := by
  rw [runs, if_pos hkind]
  exact ⟨hend, natural, hresult⟩

theorem runs_append {seen : Option ResultEnvelope} {draft : TapeDraft} (hkind : draft.kind ≠ .done) :
    runs req (.hand seen false) (.append draft) := by
  rw [runs, if_neg hkind]

theorem runs_of_hands {q : AnswerTurn} {op : InvocationOp} (h : hands q op) : q.runs req op := by
  obtain ⟨⟨seen, rfl⟩, hop⟩ := h
  cases op
  case append draft =>
    have hkind : draft.kind = .elicit := hop
    exact runs_append (by rw [hkind]; decide)
  case select => exact rfl
  case aside => exact rfl
  case poll => exact rfl
  case timeout => exact rfl
  all_goals cases hop

/-- At each of its steps the Hand sees what is in the slot. -/
theorem afterService_of_hands {seen : Option ResultEnvelope} {op : InvocationOp} (s : InvocationState)
    (h : hands (.hand seen false) op) :
    ∃ ended, afterService (.hand seen false) op s = .hand s.external ended := by
  obtain ⟨-, hop⟩ := h
  cases op
  case append draft =>
    refine ⟨false, ?_⟩
    rw [afterService]
    split
    next h _ =>
      rw [show draft.kind = .elicit from hop] at h
      cases h
    next => rfl
  case select => exact ⟨_, rfl⟩
  case aside => exact ⟨_, rfl⟩
  case poll => exact ⟨_, rfl⟩
  case timeout => exact ⟨_, rfl⟩
  all_goals cases hop

theorem follows_wait (polls : Nat) (seen : Option ResultEnvelope) :
    (HumanHand.wait polls).Follows hands afterService (handFinal req) (.hand seen false) := by
  induction polls generalizing seen with
  | zero => exact ⟨⟨⟨_, rfl⟩, trivial⟩, fun s => ⟨_, _, rfl, fun _ => rfl⟩⟩
  | succ polls ih =>
    refine .perform_bind ⟨⟨_, rfl⟩, trivial⟩ fun s => ?_
    rw [afterService, Bool.false_or]
    cases hcancelled : s.cancelled with
    | some reason => exact ⟨_, _, rfl, fun _ => rfl⟩
    | none =>
      cases hexternal : s.external with
      | some result => exact ⟨_, _, rfl, fun _ => rfl⟩
      | none => exact ih none

theorem follows_execute (seen : Option ResultEnvelope) :
    (HumanHand.execute none req).Follows hands afterService (handFinal req) (.hand seen false) := by
  rw [HumanHand.execute, if_neg (by decide)]
  refine .ite (fun hasks => ?_) fun _ => ?_
  · refine ⟨_, _, rfl, fun h => ?_⟩
    rw [h] at hasks
    cases hasks
  · have hstep : ∀ seen, hands (.hand seen false) .aside := fun seen => ⟨⟨_, rfl⟩, trivial⟩
    refine .perform_bind ⟨⟨_, rfl⟩, rfl⟩ fun s => .perform_bind (hstep _) fun s' => ?_
    refine .ite (fun _ => ?_) fun _ => follows_wait _ _
    exact .perform_bind ⟨⟨_, rfl⟩, trivial⟩ fun _ => .perform_bind (hstep _) fun _ => follows_wait _ _

/-- What the deadline leaves of the Hand, with what was in the slot when it last looked. -/
theorem follows_waitFor {c : Invoking (Option ResultEnvelope)} {awaits : Nat}
    {seen : Option ResultEnvelope} {ended : Bool}
    (hc : c.Follows hands afterService (handFinal req) (.hand seen ended)) :
    (waitFor (·.external) awaits c seen).Follows (runs req) afterService
      (fun q r => ∃ ended, q = .hand r.2 ended ∧ AtEnd req ended) (.hand seen ended) := by
  induction c generalizing awaits seen ended with
  | done a =>
    obtain ⟨seen', ended', heq, hend⟩ := hc
    obtain ⟨rfl, rfl⟩ := AnswerTurn.hand.inj heq
    unfold waitFor
    exact ⟨_, rfl, hend⟩
  | raise e => unfold waitFor; trivial
  | await op next ih =>
    obtain ⟨hop, hnext⟩ := hc
    obtain ⟨⟨seen', heq⟩, -⟩ := id hop
    obtain ⟨rfl, rfl⟩ := AnswerTurn.hand.inj heq
    cases awaits with
    | zero => exact ⟨rfl, fun s => ⟨_, rfl, fun _ => rfl⟩⟩
    | succ awaits =>
      refine ⟨runs_of_hands hop, fun s => ?_⟩
      obtain ⟨ended, hafter⟩ := afterService_of_hands s hop
      have hstep := hnext s
      rw [hafter] at hstep ⊢
      exact ih s hstep

theorem follows_finalize {seen : Option ResultEnvelope} {ended : Bool} {natural : ResultEnvelope}
    (hend : AtEnd req ended) :
    (InvocationService.finalize req ((seen.getD natural).conform req.missing)).Follows (runs req)
      afterService (fun _ _ => True) (.hand seen ended) := by
  refine .perform_bind (runs_done rfl hend rfl) fun _ => .perform_bind trivial fun _ => ?_
  refine .perform_bind ⟨rfl, rfl⟩ fun _ => .perform_bind trivial fun _ => ?_
  cases req.parentTapeId with
  | none => exact ⟨trivial, fun _ => trivial⟩
  | some parentTapeId =>
    refine .perform_bind rfl fun _ => .perform_bind trivial fun _ => ?_
    exact ⟨trivial, fun _ => trivial⟩

theorem follows_run (seen : Option ResultEnvelope) :
    (InvocationService.run req).Follows (runs req) afterService (fun _ _ => True) (.hand seen false) := by
  refine .perform_bind (runs_append nofun) fun s => .perform_bind rfl fun s' => ?_
  refine (follows_waitFor (follows_execute _)).bind fun q r hr => ?_
  obtain ⟨returned, submitted⟩ := r
  obtain ⟨ended, rfl, hend⟩ := hr
  exact follows_finalize hend

theorem follows_create :
    (InvocationService.create req).Follows (runs req) afterService (fun _ _ => True) .start := by
  have hrun : ∀ seen, Coro.Follows (runs req) afterService (fun _ _ => True) (.hand seen false) (do
      .perform .setRunning fun _ => ()
      .perform .register fun _ => ()
      InvocationService.run req : Invoking Unit) := fun seen =>
    .perform_bind rfl fun _ => .perform_bind rfl fun _ => follows_run _
  refine .perform_bind trivial fun _ => .perform_bind rfl fun _ => .ite (fun _ => ?_) fun _ => hrun _
  exact .perform_bind rfl fun _ => .perform_bind rfl fun _ => hrun _

/-- The steps of `submit_result`. -/
def submits (envelope : ResultEnvelope) (q : AnswerTurn) : InvocationOp → Prop
  | .select | .aside | .append _ => True
  | .deliver result => q = .waiting ∧ result = envelope
  | _ => False

/-- A submission that returns has been delivered. -/
theorem follows_submitResult (envelope : ResultEnvelope) :
    (InvocationService.submitResult req envelope).Follows (submits envelope) afterService
      (fun q _ => q = .delivered) .waiting := by
  refine .perform_bind trivial fun s => ?_
  obtain ⟨row, active⟩ := (s.row, s.active)
  cases row with
  | none => trivial
  | some row =>
    refine .ite (fun _ => trivial) fun _ => .ite (fun _ => trivial) fun _ => ?_
    refine .perform_bind trivial fun _ => .perform_bind trivial fun _ => ?_
    have hend := follows_lastEvent (A := submits envelope) (V := afterService) (F := fun q _ => q = .delivered) req
      trivial (fun _ => rfl) fun _ => rfl
    refine .perform_bind ⟨rfl, rfl⟩ fun s => .ite (fun _ => ?_) fun _ => hend
    exact .perform_bind trivial fun _ => hend

theorem follows_projectToTaskTape (envelope : ResultEnvelope) :
    (projectToTaskTape objectText req envelope).Follows (requests objectText req (some envelope)) advance
      (fun _ _ => True) .delivered := by
  refine .perform_bind trivial fun _ => .ite (fun _ => trivial) fun _ => .perform_bind trivial fun _ => ?_
  refine .ite (fun _ => trivial) fun _ => .ite (fun _ => trivial) fun _ => .perform_bind trivial fun _ => ?_
  refine .perform_bind ⟨rfl, envelope, rfl, rfl, rfl, rfl⟩ fun _ => ?_
  exact ⟨trivial, fun _ => trivial⟩

theorem follows_postResult (envelope : ResultEnvelope) :
    (postResult objectText req envelope).Follows (requests objectText req (some envelope)) advance
      (fun _ _ => True) .start := by
  refine .perform_bind trivial fun s => ?_
  have hsubmit : (Answering.service (InvocationService.submitResult req envelope)).Follows
      (requests objectText req (some envelope)) advance (fun q _ => q = .delivered) .waiting := by
    refine (follows_submitResult envelope).within id ?_ (fun _ _ _ => rfl) fun _ _ h => h
    intro q op h
    cases op <;> first | exact trivial | exact ⟨h.1, congrArg some h.2.symm⟩ | cases h
  refine hsubmit.bind ?_
  rintro q _ rfl
  refine .ite (fun _ => ?_) fun _ => trivial
  exact .tryCatch (follows_projectToTaskTape envelope) fun _ _ => trivial

theorem follows_answerProgram (i : Option Nat) :
    (answerProgram objectText req calls i).Follows ((protocol objectText req calls).allowed i)
      (protocol objectText req calls).advance ((protocol objectText req calls).final i)
      (protocol objectText req calls).start := by
  cases i with
  | none => exact follows_create.within id (fun _ _ h => h) (fun _ _ _ => rfl) fun _ _ _ => trivial
  | some n =>
    show (answerProgram objectText req calls (some n)).Follows
      (requests objectText req (envelopeOf (calls n))) advance (fun _ _ => True) .start
    rw [answerProgram]
    cases calls n with
    | post envelope => exact follows_postResult envelope
    | cancel reason => exact ⟨trivial, fun _ => trivial⟩

end AnswerTurn

/-! ### Where the invocation and the task tape stand -/

section Invariant

variable {objectText : String → String} {req : Delegation} {calls : Nat → AnswerCall} {s : AnswerState}
  {q : Option Nat → AnswerTurn} {t : InvocationState}

/-- What the run has seen in the slot is what is there, for good once the Hand is at its end; and a result in
the row comes from it. -/
def AnswerTurn.RunHolds (req : Delegation) (t : InvocationState) : AnswerTurn → Prop
  | .start => t.row = none ∧ t.settled = false
  | .hand seen ended => (∀ r ∈ t.row, r.result = none) ∧ t.settled = ended ∧
      (seen = none ∨ t.external = seen) ∧ (ended = true → t.external = seen)
  | .finished result => AnswerTurn.AtEnd req t.settled ∧
      (∃ natural : ResultEnvelope, result = (t.external.getD natural).conform req.missing) ∧
        ∀ r ∈ t.row, ∀ result' ∈ r.result, result' = result
  | _ => False

/-- The answers to the invocation on the task tape. -/
def AnswerState.mine (req : Delegation) (s : AnswerState) : List DelegateAnswer :=
  s.answers.filter (·.invocationId == req.id)

/-- A request that has delivered nothing. -/
def AnswerTurn.isIdle : AnswerTurn → Bool
  | .start | .waiting => true
  | _ => false

/-- What is in the slot was delivered by one request, and at most that one has put an answer onto the task
tape. -/
structure SlotHolds (objectText : String → String) (req : Delegation) (calls : Nat → AnswerCall)
    (s : AnswerState) (q : Option Nat → AnswerTurn) : Prop where
  empty : s.invocation.external = none → s.mine req = [] ∧ ∀ n, (q (some n)).isIdle = true
  full : ∀ e ∈ s.invocation.external, req.input.asks = true ∧ e.conform req.missing = e ∧
    ∃ n, AnswerTurn.envelopeOf (calls n) = some e ∧ (∀ m, m ≠ n → (q (some m)).isIdle = true) ∧
      ((q (some n) = .delivered ∧ s.mine req = []) ∨
        (q (some n) = .answered ∧ ∃ answer, s.mine req = [answer] ∧ answer.renders objectText req e))

structure AnswerHolds (objectText : String → String) (req : Delegation) (calls : Nat → AnswerCall)
    (s : AnswerState) (q : Option Nat → AnswerTurn) : Prop where
  run : (q none).RunHolds req s.invocation
  slot : SlotHolds objectText req calls s q

theorem AnswerTurn.RunHolds.step {q : AnswerTurn} {op : InvocationOp} (h : q.RunHolds req t)
    (hasks : t.external.isSome → req.input.asks = true) (hop : q.runs req op) :
    (q.afterService op t).RunHolds req (op.exec t) := by
  cases q
  case start =>
    cases op
    case insertRow => exact ⟨fun r hr => Option.some.inj hr ▸ rfl, h.2, .inr rfl, nofun⟩
    all_goals cases hop
  case hand seen ended =>
    obtain ⟨hrow, hsettled, hseen, hended⟩ := h
    have hlooked : ∀ ended', t.settled = ended' →
        (AnswerTurn.hand t.external ended').RunHolds req t := fun ended' h' =>
      ⟨hrow, h', .inr rfl, fun _ => rfl⟩
    cases op
    case append draft =>
      rw [runs] at hop
      rw [afterService]
      split at hop
      next hkind =>
        obtain ⟨hend, natural, hresult⟩ := hop
        have hsame : t.external = seen := by
          by_cases hask : req.input.asks = true
          · exact hended (hend hask)
          · have hnone : t.external = none := by
              rw [← Option.not_isSome_iff_eq_none]
              exact fun hsome => hask (hasks hsome)
            rcases hseen with rfl | hseen
            · exact hnone
            · exact hseen
        rw [hkind, hresult]
        refine ⟨fun hask => hsettled.trans (hend hask), ⟨natural, ?_⟩, fun r hr result' hresult' => ?_⟩
        · rw [show (InvocationOp.exec (.append draft) t).external = t.external from rfl, hsame]
        · rw [hrow r hr] at hresult'
          cases hresult'
      next hkind =>
        split
        next h _ => exact absurd h hkind
        next => exact hlooked ended hsettled
    case poll =>
      refine ⟨hrow, ?_, .inr rfl, fun _ => rfl⟩
      rw [← hsettled]
      rfl
    case timeout => exact ⟨hrow, rfl, .inr rfl, fun _ => rfl⟩
    case setRunning =>
      refine ⟨fun r hr => ?_, hsettled, .inr rfl, fun _ => rfl⟩
      obtain ⟨r', hr', rfl⟩ := Option.map_eq_some_iff.mp hr
      split <;> exact hrow r' hr'
    case select => exact hlooked ended hsettled
    case aside => exact hlooked ended hsettled
    case register => exact hlooked ended hsettled
    all_goals cases hop
  case finished result =>
    obtain ⟨hend, hresult, hrow⟩ := h
    cases op
    case setTerminal status result' =>
      obtain ⟨rfl, -⟩ := hop
      refine ⟨hend, hresult, fun r hr result'' hr'' => ?_⟩
      obtain ⟨r', hr', rfl⟩ := Option.map_eq_some_iff.mp hr
      split at hr''
      · exact hrow r' hr' result'' hr''
      · exact (Option.some.inj hr'').symm
    case append draft => exact ⟨hend, hresult, hrow⟩
    case aside => exact ⟨hend, hresult, hrow⟩
    case drop => exact ⟨hend, hresult, hrow⟩
    all_goals cases hop
  all_goals cases h

/-- What a request does to the invocation, short of a delivery, the run does not see. -/
theorem AnswerTurn.RunHolds.congr {q : AnswerTurn} {t' : InvocationState} (h : q.RunHolds req t)
    (hrow : t'.row = t.row) (hsettled : t'.settled = t.settled) (hexternal : t'.external = t.external) :
    q.RunHolds req t' := by
  cases q
  case start => exact ⟨hrow.trans h.1, hsettled.trans h.2⟩
  case hand seen ended =>
    unfold RunHolds
    rw [hrow, hsettled, hexternal]
    exact h
  case finished result =>
    unfold RunHolds
    rw [hrow, hsettled, hexternal]
    exact h
  all_goals cases h

/-- A delivery in time comes before the run looks for the last time. -/
theorem AnswerTurn.RunHolds.deliver {q : AnswerTurn} {result : ResultEnvelope} (h : q.RunHolds req t)
    (hasks : req.input.asks = true) (hempty : t.external = none) (hopen : t.settled = false) :
    q.RunHolds req (InvocationOp.exec (.deliver result) t) := by
  cases q
  case start => exact h
  case hand seen ended =>
    obtain ⟨hrow, hsettled, hseen, hended⟩ := h
    obtain rfl : ended = false := hsettled.symm.trans hopen
    have hnone : seen = none := by
      rcases hseen with hseen | hseen
      · exact hseen
      · exact hseen.symm.trans hempty
    exact ⟨hrow, hsettled, .inl hnone, nofun⟩
  case finished final =>
    rw [h.1 hasks] at hopen
    cases hopen
  all_goals cases h

theorem external_exec {op : InvocationOp} (h : ∀ result, op ≠ .deliver result) :
    (op.exec t).external = t.external := by
  cases op
  case deliver result => exact absurd rfl (h result)
  case fire reason =>
    rw [InvocationOp.exec]
    split <;> rfl
  all_goals rfl

theorem SlotHolds.congr {s' : AnswerState} {q' : Option Nat → AnswerTurn}
    (h : SlotHolds objectText req calls s q) (hexternal : s'.invocation.external = s.invocation.external)
    (hanswers : s'.mine req = s.mine req)
    (hturns : ∀ n, ((q (some n)).isIdle = true → (q' (some n)).isIdle = true) ∧
      (q (some n) = .delivered → q' (some n) = .delivered) ∧
        (q (some n) = .answered → q' (some n) = .answered)) :
    SlotHolds objectText req calls s' q' := by
  refine ⟨fun hnone => ?_, fun e he => ?_⟩
  · obtain ⟨hmine, hidle⟩ := h.empty (hexternal.symm.trans hnone)
    exact ⟨hanswers.trans hmine, fun n => (hturns n).1 (hidle n)⟩
  · obtain ⟨hasks, hfits, n, hcall, hothers, howner⟩ := h.full e (hexternal ▸ he)
    refine ⟨hasks, hfits, n, hcall, fun m hm => (hturns m).1 (hothers m hm), ?_⟩
    rw [hanswers]
    exact howner.imp (fun ⟨hq, hmine⟩ => ⟨(hturns n).2.1 hq, hmine⟩)
      fun ⟨hq, hmine⟩ => ⟨(hturns n).2.2 hq, hmine⟩

/-- A request that takes a step of the service and delivers nothing. -/
theorem keeps_afterService {q' : AnswerTurn} {op : InvocationOp} (hinsert : op ≠ .insertRow)
    (hdeliver : ∀ result, op ≠ .deliver result) :
    (q'.isIdle = true → (q'.afterService op t).isIdle = true) ∧
      (q' = .delivered → q'.afterService op t = .delivered) ∧
        (q' = .answered → q'.afterService op t = .answered) := by
  refine ⟨fun h => ?_, ?_, ?_⟩
  · cases q'
    case start =>
      cases op
      case insertRow => exact absurd rfl hinsert
      all_goals rfl
    case waiting =>
      cases op
      case deliver result => exact absurd rfl (hdeliver result)
      all_goals rfl
    all_goals cases h
  · rintro rfl
    rfl
  · rintro rfl
    rfl

theorem AnswerHolds.step {i : Option Nat} {op : AnswerOp} (h : AnswerHolds objectText req calls s q)
    (hop : AnswerTurn.allowed objectText req calls i (q i) op) (htime : DeliveredInTime req s i op) :
    AnswerHolds objectText req calls (op.exec s) (Function.update q i ((q i).advance op s)) := by
  have hasks : s.invocation.external.isSome → req.input.asks = true := fun hsome => by
    obtain ⟨e, he⟩ := Option.isSome_iff_exists.mp hsome
    exact (h.slot.full e he).1
  cases i with
  | none =>
    cases op with
    | service op =>
      have hdeliver : ∀ result, op ≠ .deliver result := by
        rintro result rfl
        cases hq : q none <;> rw [hq] at hop <;> cases hop
      refine ⟨?_, h.slot.congr (external_exec hdeliver) rfl fun n => ?_⟩
      · rw [Function.update_self]
        exact h.run.step hasks hop
      · rw [Function.update_of_ne (Option.some_ne_none n)]
        exact ⟨id, id, id⟩
    | _ => cases hop
  | some n =>
    have hrun : ∀ q', Function.update q (some n) q' none = q none := fun q' =>
      Function.update_of_ne (Option.some_ne_none n).symm _ _
    cases op with
    | service op =>
      by_cases hdeliver : ∃ result, op = .deliver result
      · obtain ⟨result, rfl⟩ := hdeliver
        obtain ⟨hwaiting, hcall⟩ := hop
        obtain ⟨hask, hempty, hopen, hfits⟩ := htime
        obtain ⟨hmine, hidle⟩ := h.slot.empty hempty
        have hexternal : (AnswerOp.exec (.service (.deliver result)) s).invocation.external = some result := by
          show (s.invocation.external <|> some result) = some result
          rw [hempty]
          rfl
        refine ⟨?_, fun hnone => ?_, fun e he => ?_⟩
        · rw [hrun]
          exact h.run.deliver hask hempty hopen
        · rw [hexternal] at hnone
          cases hnone
        · rw [hexternal] at he
          obtain rfl := Option.some.inj he
          refine ⟨hask, hfits, n, hcall, fun m hm => ?_, .inl ⟨?_, hmine⟩⟩
          · rw [Function.update_of_ne fun h => hm (Option.some.inj h)]
            exact hidle m
          · rw [Function.update_self, hwaiting]
            rfl
      · have hnot : ∀ result, op ≠ .deliver result := fun result heq => hdeliver ⟨result, heq⟩
        have hinsert : op ≠ .insertRow := by
          rintro rfl
          cases hop
        refine ⟨?_, h.slot.congr (external_exec hnot) rfl fun m => ?_⟩
        · rw [hrun]
          refine h.run.congr ?_ ?_ (external_exec hnot)
          · cases op
            case fire reason =>
              rw [AnswerOp.exec, InvocationOp.exec]
              split <;> rfl
            all_goals first | rfl | cases hop
          · cases op
            case fire reason =>
              rw [AnswerOp.exec, InvocationOp.exec]
              split <;> rfl
            all_goals first | rfl | cases hop
        · by_cases hm : m = n
          · subst hm
            rw [Function.update_self]
            exact keeps_afterService hinsert hnot
          · rw [Function.update_of_ne fun h => hm (Option.some.inj h)]
            exact ⟨id, id, id⟩
    | insert answer =>
      obtain ⟨hdelivered, result, hcall, hid, hrenders⟩ := hop
      refine ⟨by rw [hrun]; exact h.run, fun hnone => ?_, fun e he => ?_⟩
      · obtain ⟨-, hidle⟩ := h.slot.empty hnone
        have hn := hidle n
        rw [hdelivered] at hn
        cases hn
      · obtain ⟨hask, hfits, k, hk, hothers, howner⟩ := h.slot.full e he
        obtain rfl : n = k := by
          by_contra hne
          have hn := hothers n hne
          rw [hdelivered] at hn
          cases hn
        obtain rfl : result = e := Option.some.inj ((Option.mem_def.mp hcall).symm.trans hk)
        have hmine : s.mine req = [] := by
          rcases howner with ⟨-, hmine⟩ | ⟨hanswered, -⟩
          · exact hmine
          · rw [hdelivered] at hanswered
            cases hanswered
        refine ⟨hask, hfits, n, hk, fun m hm => ?_, .inr ⟨?_, answer, ?_, hid, hrenders⟩⟩
        · rw [Function.update_of_ne fun h => hm (Option.some.inj h)]
          exact hothers m hm
        · rw [Function.update_self]
          rfl
        · show (s.answers ++ [answer]).filter _ = _
          rw [List.filter_append, show s.answers.filter _ = [] from hmine, List.nil_append, List.filter_singleton,
            hid, beq_self_eq_true]
          rfl
    | _ =>
      rw [show (q (some n)).advance _ s = q (some n) from rfl, Function.update_eq_self]
      exact ⟨h.run, h.slot⟩

theorem AnswerHolds.authoritative (h : AnswerHolds objectText req calls s q) :
    Authoritative objectText req s := by
  cases hexternal : s.invocation.external with
  | none =>
    obtain ⟨hmine, -⟩ := h.slot.empty hexternal
    refine ⟨?_, fun answer hanswer hid => ?_⟩
    · rw [show s.answers.filter _ = [] from hmine]
      exact Nat.zero_le 1
    · have hmem : answer ∈ s.mine req := List.mem_filter.mpr ⟨hanswer, beq_iff_eq.mpr hid⟩
      rw [hmine] at hmem
      cases hmem
  | some e =>
    obtain ⟨-, hfits, n, -, -, howner⟩ := h.slot.full e hexternal
    rcases howner with ⟨-, hmine⟩ | ⟨-, answer, hmine, hrenders⟩
    · refine ⟨?_, fun answer hanswer hid => ?_⟩
      · rw [show s.answers.filter _ = [] from hmine]
        exact Nat.zero_le 1
      · have hmem : answer ∈ s.mine req := List.mem_filter.mpr ⟨hanswer, beq_iff_eq.mpr hid⟩
        rw [hmine] at hmem
        cases hmem
    · refine ⟨?_, fun answer' hanswer hid row hrow result hresult => ?_⟩
      · rw [show s.answers.filter _ = [answer] from hmine]
        exact Nat.le_refl 1
      · have hmem : answer' ∈ s.mine req := List.mem_filter.mpr ⟨hanswer, beq_iff_eq.mpr hid⟩
        rw [hmine, List.mem_singleton] at hmem
        subst hmem
        have hsame : result = e := by
          have hrun := h.run
          cases hq : q none <;> rw [hq] at hrun
          case start =>
            rw [hrun.1] at hrow
            cases hrow
          case hand seen ended =>
            rw [hrun.1 row hrow] at hresult
            cases hresult
          case finished final =>
            obtain ⟨-, ⟨natural, hfinal⟩, hstored⟩ := hrun
            rw [hstored row hrow result hresult, hfinal, hexternal, Option.getD_some, hfits]
          all_goals cases hrun
        rw [hsame]
        exact hrenders

end Invariant

/-- Whatever the requests and the order of the steps: where each result is delivered in time, the task tape has
one answer to the invocation at most, and it is the result that is stored with it. -/
theorem authoritative_of_deliveredInTime (objectText : String → String) (req : Delegation)
    (calls : Nat → AnswerCall) (start : AnswerState) (schedule : List (Option Nat))
    (hrow : start.invocation.row = none) (hexternal : start.invocation.external = none)
    (hsettled : start.invocation.settled = false) (hmine : start.mine req = [])
    (htime : Pool.Along AnswerOp.exec id (DeliveredInTime req) (answerPool objectText req calls start)
      (schedule.map .run)) :
    Authoritative objectText req
      ((answerPool objectText req calls start).run AnswerOp.exec id (schedule.map .run)).state := by
  have hempty : ∀ e ∈ start.invocation.external, False := fun e he => by
    rw [hexternal] at he
    cases he
  obtain ⟨q, -, hholds⟩ := Pool.inv_run_id (P := AnswerTurn.protocol objectText req calls)
    (I := AnswerHolds objectText req calls) (fun s q i op hI hallowed hG => hI.step hallowed hG)
    (Pool.obeys_init AnswerTurn.follows_answerProgram start)
    ⟨⟨hrow, hsettled⟩, fun _ => ⟨hmine, fun _ => rfl⟩, fun e he => (hempty e he).elim⟩ htime
  exact hholds.authoritative

/-! ### An answer that does not fit -/

/-- A question of a task to the operator, with a schema that asks for an object with an environment. -/
def deployQuestion : Delegation where
  id := "inv_1"
  tapeId := "tape_1"
  input := .text "Deploy?"
  missing := some fun json => if json = "\x7b\x7d" then some "missing required field 'env'" else none
  createdBy := "acc_1"
  deadline := 100

/-- The operator's answer, an object. -/
def deployAnswer (json : String) : ResultEnvelope where
  action := .accept
  content := some (.object json)
  reasoned := accept_reasoned

/-- The run up to the wait of the Hand, the submission up to its delivery, the rest of the run, and the
projection. -/
def deploySchedule : List (Option Nat) :=
  List.replicate 8 none ++ List.replicate 5 (some 0) ++ List.replicate 6 none ++ List.replicate 8 (some 0)

/-- The state after the schedule. -/
def deployAfter (json : String) : AnswerState :=
  ((answerPool id deployQuestion (fun _ => .post (deployAnswer json))
    { invocation := { table := .empty } }).run AnswerOp.exec id (deploySchedule.map .run)).state

theorem authoritative_deployed :
    let s := deployAfter "\x7b'env': 'prod'\x7d"
    s.answers.map (·.action) = [.accept] ∧ s.invocation.row.map (·.status) = some .completed ∧
      Authoritative id deployQuestion s :=
  ⟨by decide +kernel, by decide +kernel, authoritative_of_deliveredInTime id deployQuestion _ _ deploySchedule
    rfl rfl rfl rfl (by decide +kernel)⟩

/-- The task is told that the operator accepted, and the invocation is stored as an error. -/
theorem answer_not_stored :
    let s := deployAfter "\x7b\x7d"
    s.answers.map (·.action) = [.accept] ∧ s.invocation.row.map (·.status) = some .errored ∧
      ¬ Authoritative id deployQuestion s := by
  intro s
  have hanswers : s.answers.map (·.action) = [.accept] := by decide +kernel
  have hrow : s.invocation.row.any (fun r => r.result.any (·.action == .error)) = true := by decide +kernel
  have hids : s.answers.all (·.invocationId == "inv_1") = true := by decide +kernel
  refine ⟨hanswers, by decide +kernel, fun h => ?_⟩
  obtain ⟨row, hrow, hany⟩ := (Option.any_eq_true _ _).mp hrow
  obtain ⟨result, hresult, haction⟩ := (Option.any_eq_true _ _).mp hany
  obtain ⟨answer, hanswer, hkind⟩ : ∃ answer ∈ s.answers, answer.action = .accept := by
    have hmem : Action.accept ∈ s.answers.map (·.action) := by rw [hanswers]; exact List.mem_singleton_self _
    exact List.mem_map.mp hmem
  obtain ⟨-, hsame, -⟩ := h.stored answer hanswer (eq_of_beq (List.all_eq_true.mp hids answer hanswer)) row hrow
    result hresult
  rw [hkind, eq_of_beq haction] at hsame
  cases hsame

end Krewhub
