import Krewhub.Base.Interleave
import Krewhub.Invocations.Tape
import Krewhub.Python.Text
import Krewhub.Services.TaskService

/-!
# Invocations of the human Hand

`create` inserts the row, marks it running and starts a run in the background. The run writes `started`, lets
the Hand ask the operator and wait, and writes `done` with the result. An operator submits a result, which
first puts a `decision` onto the tape and then fills the slot the Hand waits on, or cancels; the deadline
cuts the Hand off wherever it is.
-/

namespace Krewhub

inductive InvocationStatus where
  | pending
  | running
  | completed
  | cancelled
  | errored
  deriving DecidableEq, Repr

namespace InvocationStatus

def text : InvocationStatus → String
  | .pending => "pending"
  | .running => "running"
  | .completed => "completed"
  | .cancelled => "cancelled"
  | .errored => "errored"

/-- `status in ("completed", "cancelled", "errored")`. -/
def isTerminal : InvocationStatus → Bool
  | .pending | .running => false
  | .completed | .cancelled | .errored => true

end InvocationStatus

def actionToStatus : Action → InvocationStatus
  | .accept | .decline => .completed
  | .cancel => .cancelled
  | .error | .pending => .errored

/-- What changes in a row of `invocations`. -/
structure InvocationRow where
  status : InvocationStatus := .pending
  result : Option ResultEnvelope := none
  deriving DecidableEq

/-- `str | dict`, of an object the fields the Hand reads as texts. -/
inductive HumanInput where
  | text (s : String)
  | object (message op host reason : Option String)

namespace HumanInput

/-- `_parse_human_input`. -/
def message : HumanInput → String
  | .text s => Text.strip s
  | .object message .. => Text.strip (message.getD "")

/-- `_parse_structured_op`; the one known operation is `auth_required`. -/
def isStructured : HumanInput → Bool
  | .text _ => false
  | .object _ op .. => op == some "auth_required"

/-- `_synthesize_message`. -/
def synthesized : HumanInput → String
  | .text _ => "Operator action requested"
  | .object _ _ host reason =>
    let base := Text.strip ("Authentication needed for " ++ host.getD "")
    if reason.getD "" ≠ "" then base ++ " — " ++ reason.getD ""
    else if base ≠ "" then base else "Authentication needed"

/-- The Hand has something to ask. -/
def asks (input : HumanInput) : Bool := input.isStructured || input.message != ""

end HumanInput

/-- An invocation of the human Hand; `missing` is what `validate_content` finds wrong with an object when the
request has a schema, `deadline` how many awaits of the Hand pass before the deadline. -/
structure Delegation where
  id : String
  tapeId : String
  input : HumanInput
  missing : Option (String → Option String) := none
  parentTapeId : Option String := none
  parentForkPoint : Option Int := none
  createdBy : String := ""
  deadline : Nat

namespace ResultEnvelope

/-- A failure with its reason. -/
def failed (action : Action) (reason : String) (h : reason ≠ "") : ResultEnvelope where
  action := action
  reason := some reason
  reasoned _ := by simpa using h

/-- What the Hand returns when it has been cancelled: `reason or "operator_cancelled"`. -/
def dismissed (reason : String) : ResultEnvelope :=
  if h : reason ≠ "" then failed .cancel reason h else failed .cancel "operator_cancelled" (by decide)

theorem schema_mismatch_ne (missing : String) : "schema_mismatch: " ++ missing ≠ "" := by
  intro h
  have hlist := congrArg String.toList h
  rw [String.toList_append] at hlist
  exact absurd (List.append_eq_nil_iff.mp hlist).1 (by decide)

/-- What `_run` makes of a result whose content is not what the request asks for. -/
def conform (missing : Option (String → Option String)) (result : ResultEnvelope) : ResultEnvelope :=
  if result.action = .accept then
    match missing, result.content with
    | some missing, some (.object json) =>
      match missing json with
      | some text => failed .error ("schema_mismatch: " ++ text) (schema_mismatch_ne text)
      | none => result
    | some _, some (.text _) => failed .error "schema_mismatch: expected object content" (by decide)
    | _, _ => result
  else result

end ResultEnvelope

/-! ### Statements -/

/-- The row, the tapes, and what lives in the process: the `_CancelToken`, the future `external_result`,
whether the run is registered, and whether the Hand has come to its end. -/
structure InvocationState where
  row : Option InvocationRow := none
  table : TapeTable
  cancelled : Option String := none
  external : Option ResultEnvelope := none
  active : Bool := false
  settled : Bool := false

/-- What the coroutines await, with what they do before the next await. -/
inductive InvocationOp where
  | select
  | aside
  | insertRow
  | setRunning
  | register
  | append (draft : TapeDraft)
  | poll
  | timeout
  | deliver (result : ResultEnvelope)
  | fire (reason : String)
  | setTerminal (status : InvocationStatus) (result : ResultEnvelope)
  | drop

/-- What a step makes of the state. -/
def InvocationOp.exec (op : InvocationOp) (s : InvocationState) : InvocationState :=
  match op with
  | .select | .aside => s
  | .insertRow => { s with row := some {} }
  | .setRunning =>
      { s with row := s.row.map fun r => if r.status = .pending then { r with status := .running } else r }
  | .register => { s with active := true }
  | .append draft => { s with table := s.table.append draft }
  | .poll => { s with settled := s.settled || s.cancelled.isSome || s.external.isSome }
  | .timeout => { s with settled := true }
  | .deliver result => { s with external := s.external <|> some result }
  | .fire reason =>
      if s.active = true ∧ s.row.any (fun r => !r.status.isTerminal) = true then
        { s with cancelled := s.cancelled <|> some reason }
      else s
  | .setTerminal status result =>
      { s with
        row := s.row.map fun r =>
          if r.status.isTerminal then r else { status := status, result := some result } }
  | .drop => { s with active := false }

/-- A coroutine of the invocation. -/
abbrev Invoking (α : Type) := Coro InvocationState InvocationOp Exn α

/-- `_TapeWriter.append`: the event, the record of it in the watch log, and what is read after that. -/
def writeEvent {α : Type} (draft : TapeDraft) (read : InvocationState → α) : Invoking α := do
  .perform (.append draft) fun _ => ()
  .perform .aside read

/-! ### The Hand -/

namespace HumanHand

/-- `_ExternalAwareCancel.wait`, and what the Hand makes of it; `none` when the deadline comes while it
waits. -/
def wait : Nat → Invoking (Option ResultEnvelope)
  | 0 => .perform .timeout fun _ => none
  | polls + 1 => do
    match ← .perform .poll fun s => (s.cancelled, s.external) with
    | (some reason, _) => return some (.dismissed reason)
    | (none, some _) => return some (.failed .cancel "operator_submission_pending_capture" (by decide))
    | (none, none) => wait polls

/-- What the Hand puts onto the tape. -/
def elicit (req : Delegation) : TapeDraft :=
  let message := if req.input.message = "" then req.input.synthesized else req.input.message
  { tapeId := req.tapeId
    kind := .elicit
    actorType := .human
    actorId := "operator"
    body := String.ofList (message.toList.take 200)
    payload := message }

def execute (targetId : Option String) (req : Delegation) : Invoking (Option ResultEnvelope) := do
  if targetId.isSome then
    return some (.failed .error "bad_target: human accepts no id" (by decide))
  if !req.input.asks then
    return some (.failed .error
      "empty_message: HumanHand input must contain a non-empty message or structured op" (by decide))
  writeEvent (elicit req) fun _ => ()
  if req.input.isStructured then
    .perform .select fun _ => ()
    .perform .aside fun _ => ()
  wait req.deadline

end HumanHand

/-! ### The service -/

/-- `asyncio.wait_for`: the coroutine is cut off at one of its awaits when it has come by as many as there
are before the deadline. With what it returns, what was there to be read after its last await. -/
def waitFor {β α : Type} (look : InvocationState → β) :
    Nat → Invoking α → β → Invoking (Option α × β)
  | _, .done a, b => .done (some a, b)
  | _, .raise e, _ => .raise e
  | 0, .await _ _, _ => .await .timeout fun s => .done (none, look s)
  | awaits + 1, .await op next, _ => .await op fun s => waitFor look awaits (next s) (look s)

namespace InvocationService

def finalize (req : Delegation) (result : ResultEnvelope) : Invoking Unit := do
  writeEvent
    { tapeId := req.tapeId
      kind := .done
      actorId := "krewhub"
      body := "done · " ++ result.action.text
      result := some result } fun _ => ()
  .perform (.setTerminal (actionToStatus result.action) result) fun _ => ()
  .perform .aside fun _ => ()
  match req.parentTapeId with
  | none => .perform .drop fun _ => ()
  | some parentTapeId =>
    writeEvent
      { tapeId := parentTapeId
        kind := .handoff
        actorId := "krewhub"
        body := "handoff ← human"
        payload := req.tapeId
        result := some result } fun _ => ()
    .perform .drop fun _ => ()

def run (req : Delegation) : Invoking Unit := do
  let submitted ← writeEvent
    { tapeId := req.tapeId
      kind := .started
      actorId := "krewhub"
      body := "started → human"
      payload := "human" } (·.external)
  let (returned, submitted) ←
    waitFor (·.external) req.deadline (HumanHand.execute none req) submitted
  let result := submitted.getD
    ((returned.getD none).getD (.failed .cancel "deadline_exceeded" (by decide)))
  finalize req (result.conform req.missing)

/-- `create`, from the insertion of the row on, and the run it starts. -/
def create (req : Delegation) : Invoking Unit := do
  .perform .insertRow fun _ => ()
  .perform .aside fun _ => ()
  if req.parentTapeId.isSome && req.parentForkPoint.isSome then
    .perform .aside fun _ => ()
    .perform .aside fun _ => ()
  .perform .setRunning fun _ => ()
  .perform .register fun _ => ()
  run req

def submitResult (req : Delegation) (result : ResultEnvelope) : Invoking TapeEvent := do
  match ← .perform .select fun s => (s.row, s.active) with
  | (none, _) => .raise (.keyError req.id)
  | (some row, active) =>
    if row.status.isTerminal then
      .raise (.http 409
        ("invocation " ++ req.id ++ " already terminal (" ++ row.status.text ++ ")"))
    if !active then
      .raise (.http 409 ("invocation " ++ req.id ++ " has no active runner"))
    writeEvent
      { tapeId := req.tapeId
        kind := .decision
        actorType := .human
        actorId := req.createdBy
        body := "decision · " ++ result.action.text
        result := some result } fun _ => ()
    let active ← .perform (.deliver result) fun s => s.active
    if active then
      .perform .aside fun _ => ()
    .perform .select fun _ => ()
    match ← .perform .select fun s => (s.table.listForTape req.tapeId none).getLast? with
    | none => .raise (.valueError "list index out of range")
    | some event => return event

/-- `cancel`, with what it does once it has read the row. -/
def cancel (reason : String) : Invoking Unit :=
  .perform (.fire reason) fun _ => ()

end InvocationService

/-- The last event of the tape is read in a typestate that reading does not change. -/
theorem follows_lastEvent {Q : Type} {A : Q → InvocationOp → Prop} {V : Q → InvocationOp → InvocationState → Q}
    {F : Q → TapeEvent → Prop} {q : Q} (req : Delegation) (hselect : A q .select) (hkeep : ∀ s, V q .select s = q)
    (hfinal : ∀ event, F q event) :
    Coro.Follows A V F q (do
      .perform .select fun _ => ()
      match ← .perform .select fun s => (s.table.listForTape req.tapeId none).getLast? with
      | none => .raise (.valueError "list index out of range")
      | some event => return event : Invoking TapeEvent) := by
  refine .perform_bind hselect fun s₀ => ?_
  rw [hkeep s₀]
  refine .perform_bind hselect fun s => ?_
  rw [hkeep s]
  cases (s.table.listForTape req.tapeId none).getLast? with
  | none => trivial
  | some event => exact hfinal event

/-- A request on the invocation, or a handoff of one that it is the parent of. -/
inductive InvocationCall where
  | submit (result : ResultEnvelope)
  | cancel (reason : String)
  | child (tapeId : String) (result : ResultEnvelope)

def InvocationCall.program (req : Delegation) : InvocationCall → Invoking Unit
  | .submit result => do
    let _ ← InvocationService.submitResult req result
    return
  | .cancel reason => InvocationService.cancel reason
  | .child tapeId result =>
    writeEvent
      { tapeId := req.tapeId
        kind := .handoff
        actorId := "krewhub"
        body := "handoff ← human"
        payload := tapeId
        result := some result } fun _ => ()

end Krewhub
