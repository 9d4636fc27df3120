import Krewhub.Base.Interleave
import Krewhub.Invocations.Schema
import Krewhub.Store.Schema

/-!
# The mailbox of an agent

A message to an agent is a row of `a2a_invocations`. Its waiter is the handler of `message/send`, which the
answer wakes, or the agent Hand, which polls the row. An answer, a cancellation and the timeout of the waiter
close the row, each where it is still open; whether its own statement has closed it, a waiter does not look.
-/

namespace Krewhub

/-! ### Rows -/

inductive A2AStatus where
  | pending
  | processing
  | completed
  | failed
  | timeout
  deriving DecidableEq, Repr

/-- `status IN ('pending', 'processing')`. -/
def A2AStatus.isOpen : A2AStatus → Bool
  | .pending | .processing => true
  | .completed | .failed | .timeout => false

/-- A row of `a2a_invocations`; of its result, the value whose text it is. -/
structure A2ARow where
  id : String
  owner : String
  agentName : String
  method : String
  params : Json
  status : A2AStatus := .pending
  result : Option Json := none
  error : Option String := none

instance : Keyed A2ARow := ⟨A2ARow.id⟩

namespace A2ARow

variable (r : A2ARow)

def answer (status : A2AStatus) (result : Option Json) (error : Option String) : A2ARow :=
  if r.status.isOpen then { r with status := status, result := result, error := error } else r

def cancel : A2ARow :=
  if r.status.isOpen then { r with status := .failed, error := some "Canceled by caller" } else r

def expire : A2ARow := if r.status = .pending then { r with status := .timeout } else r

variable {r}

theorem id_answer {status : A2AStatus} {result : Option Json} {error : Option String} :
    (r.answer status result error).id = r.id := by
  unfold answer
  split <;> rfl

theorem id_cancel : r.cancel.id = r.id := by
  unfold cancel
  split <;> rfl

theorem id_expire : r.expire.id = r.id := by
  unfold expire
  split <;> rfl

end A2ARow

/-! ### Statements -/

/-- The tables, what has been announced, `_pending_events` with whether the event of the waiter is set, whether
the timer of its wait has gone off, its `CancelToken`, and the clock of the loop. -/
structure A2AStore where
  rows : Table A2ARow := ∅
  cards : List (String × String) := []
  presence : List AgentPresence := []
  announced : List String := []
  events : String → Option Bool := fun _ => none
  timer : Bool := false
  cancelled : Option String := none
  now : Nat := 0

/-- What the coroutines await, with what they do before the next await; `fetch` is where one goes on with a row
it has selected before, and the Hand may be cut off at any of its own. -/
inductive A2AOp where
  | select
  | fetch
  | insert (row : A2ARow)
  | commit
  | recordResource (id : String)
  | register (id : String)
  | wait (id : String)
  | sleep
  | markTimeout (id : String)
  | respond (id : String) (status : A2AStatus) (result : Option Json) (error : Option String)
  | setEvent (id : String)
  | cancel (id : String)
  | cutOff (op : A2AOp)
  | fireTimer
  | fireCancel (reason : String)
  | elapse (seconds : Nat)

namespace A2AStore

variable (s : A2AStore)

/-- The event is set, and the timer has not gone off before the waiter goes on. -/
def isWoken (id : String) : Bool := s.events id == some true && !s.timer

def isOpen (id : String) : Bool := (s.rows.get id).any (·.status.isOpen)

def exec : A2AOp → A2AStore → A2AStore
  | .select, s | .fetch, s | .commit, s | .sleep, s => s
  | .insert row, s => { s with rows := s.rows.insert row }
  | .recordResource id, s => { s with announced := s.announced ++ [id] }
  | .register id, s => { s with events := Function.update s.events id (some false) }
  | .wait id, s => { s with events := Function.update s.events id none }
  | .markTimeout id, s => { s with rows := s.rows.amend id A2ARow.expire fun _ => A2ARow.id_expire }
  | .respond id status result error, s =>
    { s with rows := s.rows.amend id (·.answer status result error) fun _ => A2ARow.id_answer }
  | .setEvent id, s => { s with events := Function.update s.events id ((s.events id).map fun _ => true) }
  | .cancel id, s => { s with rows := s.rows.amend id A2ARow.cancel fun _ => A2ARow.id_cancel }
  | .cutOff op, s => exec op s
  | .fireTimer, s => { s with timer := true }
  | .fireCancel reason, s => { s with cancelled := s.cancelled.or (some reason) }
  | .elapse seconds, s => { s with now := s.now + seconds }

end A2AStore

inductive A2AError where
  | http (status : Nat) (detail : String)
  | integrityError
  | attributeError
  | interfaceError
  | pollsOn
  deriving DecidableEq, Repr

/-- What the routes and the Hand answer. -/
inductive A2AReply where
  | completed (text : Json)
  | failed (text : String)
  | submitted
  | canceled
  | rpcError (code : Int) (message : String)
  | recorded
  | envelope (result : Envelope)

abbrev A2A (α : Type) := Coro A2AStore A2AOp A2AError α

/-- `INSERT`. -/
def insertInvocation (row : A2ARow) : A2A Unit := do
  let taken ← .perform (.insert row) fun s => (s.rows.get row.id).isSome
  if taken then .raise .integrityError
  Coro.perform .commit fun _ => ()

/-- `mark_timeout`, without its row count, which no one reads. -/
def markTimeout (id : String) : A2A Unit := do
  Coro.perform (.markTimeout id) fun _ => ()
  Coro.perform .commit fun _ => ()

/-! ### `message/send` -/

/-- `agent_id LIKE pattern`. -/
def sqlLike : List Char → List Char → Bool
  | [], s => s.isEmpty
  | '%' :: p, s => s.tails.any fun rest => sqlLike p rest
  | c :: p, s =>
    match s with
    | [] => false
    | d :: s => (c == '_' || c.toLower == d.toLower) && sqlLike p s

/-- A call of `message/send`, with the id of its row and the object `params.configuration`. -/
structure SendCall where
  id : String
  owner : String
  agent : String
  params : List (String × Json)
  configuration : List (String × Json) := []

def SendCall.returnsImmediately (call : SendCall) : Bool :=
  ((call.configuration.lookup "returnImmediately").map Json.truthy).getD false

def SendCall.row (call : SendCall) : A2ARow where
  id := call.id
  owner := call.owner
  agentName := call.agent
  method := "message/send"
  params := .dict call.params

section Texts

variable (dumps column : Json → String)

/-- The text of the artifact; a result that is no object has no `get`. -/
def artifactText : Option Json → Except A2AError Json
  | none => .ok (.str (dumps (.dict [])))
  | some (.dict entries) => .ok ((entries.lookup "text").getD (.str (dumps (.dict entries))))
  | some _ => .error .attributeError

/-- What a waiter that was woken answers. -/
def sendReply (row : Option A2ARow) : Except A2AError A2AReply :=
  match row with
  | none => .ok (.failed "Agent failed")
  | some r =>
    if r.status = .completed then (artifactText dumps r.result).map .completed
    else
      let error := r.error.getD ""
      .ok (.failed (if error = "" then "Agent failed" else error))

/-- `_handle_message_send`. -/
def handleMessageSend (call : SendCall) : A2A A2AReply := do
  let known ← .perform .select (·.cards.contains (call.owner, call.agent))
  if !known then return .rpcError (-32000) ("Agent " ++ call.owner ++ "/" ++ call.agent ++ " not found")
  let online ← .perform .select (·.presence.any fun a =>
    sqlLike (call.agent.toList ++ ['@', '%']) a.agentId.toList && a.status != .offline)
  if !online then return .rpcError (-32000) ("Agent " ++ call.owner ++ "/" ++ call.agent ++ " is offline")
  insertInvocation call.row
  Coro.perform (.recordResource call.id) fun _ => ()
  if call.returnsImmediately then return .submitted
  Coro.perform (.register call.id) fun _ => ()
  let woken ← .perform (.wait call.id) (·.isWoken call.id)
  if !woken then
    markTimeout call.id
    return .failed "Agent did not respond within timeout"
  match sendReply dumps (← .perform .select (·.rows.get call.id)) with
  | .ok reply => return reply
  | .error e => .raise e

/-! ### `tasks/cancel` and `/a2a/respond` -/

/-- `_handle_tasks_cancel`. -/
def handleTasksCancel (id : String) : A2A A2AReply := do
  if id = "" then return .rpcError (-32602) "Missing task id"
  Coro.perform (.cancel id) fun _ => ()
  Coro.perform .commit fun _ => ()
  return .canceled

/-- What a value is bound as in a TEXT column. -/
def bindText : Json → Except A2AError (Option String)
  | .null => .ok none
  | .str s => .ok (some s)
  | .list _ | .dict _ => .error .interfaceError
  | value => .ok (some (column value))

/-- What an answer writes; it completes the row or fails it. -/
structure Answer where
  id : String
  status : A2AStatus
  result : Option Json
  error : Option String
  closes : status = .completed ∨ status = .failed

/-- `"completed" if error is None else "failed"`. -/
def answerStatus : Json → A2AStatus
  | .null => .completed
  | _ => .failed

theorem answerStatus_closes (error : Json) : answerStatus error = .completed ∨ answerStatus error = .failed := by
  cases error
  case null => exact .inl rfl
  all_goals exact .inr rfl

/-- What `/a2a/respond` takes from the body. -/
def readAnswer (body : Json) : Except A2AError Answer := do
  let .ok invocationId := body.get "invocation_id" | .error .attributeError
  let .ok taskId := body.get "task_id" | .error .attributeError
  let .ok result := body.get "result" | .error .attributeError
  let .ok error := body.get "error" | .error .attributeError
  let id := invocationId.orElse taskId
  if !id.truthy then .error (.http 400 "Missing invocation_id")
  return {
    id := (← bindText column id).getD ""
    status := answerStatus error
    result := if result.truthy then some result else none
    error := ← bindText column error
    closes := answerStatus_closes error }

def respondInvocation (body : Json) : A2A A2AReply :=
  match readAnswer column body with
  | .error e => .raise e
  | .ok answer => do
    let closes ← .perform (.respond answer.id answer.status answer.result answer.error) (·.isOpen answer.id)
    Coro.perform .commit fun _ => ()
    if !closes then .raise (.http 404 "Invocation not found or already completed")
    Coro.perform (.setEvent answer.id) fun _ => ()
    return .recorded

/-! ### The agent Hand -/

/-- A call of the Hand, with the id of its row. -/
structure HandCall where
  id : String
  targetId : Option String
  input : Json
  schema : Option Json := none
  deadlineS : Nat
  defaultOwner : String := "krew"

/-- `_parse_target_id`. -/
def parseAgentTarget (targetId defaultOwner : String) : String × String :=
  match targetId.toList.span (· != '@') with
  | (name, _ :: owner) =>
    (if name.isEmpty then targetId else String.ofList name,
      if owner.isEmpty then defaultOwner else String.ofList owner)
  | (_, []) => (targetId, defaultOwner)

def HandCall.row (call : HandCall) (targetId : String) : A2ARow where
  id := call.id
  owner := (parseAgentTarget targetId call.defaultOwner).2
  agentName := (parseAgentTarget targetId call.defaultOwner).1
  method := "delegate"
  params := .dict (("input", call.input) :: (call.schema.map fun schema => ("schema", schema)).toList)

/-- `reason or default`. -/
def Envelope.failedOr (action : Action) (reason default : String) (h : (default != "") = true) : Envelope :=
  if hreason : (reason != "") = true then .failed action reason hreason else .failed action default h

/-- What a row that is closed is to the Hand. -/
def handResult (r : A2ARow) : Option Envelope :=
  match r.status with
  | .completed =>
    some { action := .accept, content := .str ((r.result.map dumps).getD ""), reasoned := accept_reasoned }
  | .failed => some (.failedOr .error (r.error.getD "") "a2a_failed" (by decide))
  | .timeout => some (.failed .cancel "a2a_timeout" (by decide))
  | .pending | .processing => none

theorem rowLost_ne (id : String) : ("a2a_row_lost: " ++ id != "") = true := by
  rw [bne_iff_ne, ne_eq, String.append_eq_empty_iff]
  exact fun h => absurd h.1 (by decide)

/-- The poll loop; how many polls there are before the Hand comes to an end is not up to the code. -/
def pollInvocation (id : String) (deadline : Nat) : Nat → A2A A2AReply
  | 0 => .raise .pollsOn
  | polls + 1 => do
    let row ← .perform .select (·.rows.get id)
    let (cancelled, now) ← .perform .fetch fun s => (s.cancelled, s.now)
    match row with
    | none => return .envelope (.failed .error ("a2a_row_lost: " ++ id) (rowLost_ne id))
    | some r =>
      match handResult dumps r with
      | some result => return .envelope result
      | none =>
        match cancelled with
        | some reason =>
          markTimeout id
          return .envelope (.failedOr .cancel reason "operator_cancelled" operatorCancelled_ne)
        | none =>
          if deadline < now then
            markTimeout id
            return .envelope (.failed .cancel "a2a_deadline_exceeded" (by decide))
          else
            Coro.perform .sleep fun _ => ()
            pollInvocation id deadline polls

/-- `AgentHand.execute`. -/
def agentHandExecute (polls : Nat) (call : HandCall) : A2A A2AReply :=
  match call.targetId with
  | none | some "" => return .envelope (.failed .error
      "target_id_missing: AgentHand requires a target_id (e.g. 'claude@krew')" (by decide))
  | some targetId => do
    match ← (insertInvocation (call.row targetId)).attempt with
    | .error _ => return .envelope (.failed .error
        "a2a_create_failed: UNIQUE constraint failed: a2a_invocations.id" (by decide))
    | .ok () =>
      let now ← .perform .fetch (·.now)
      pollInvocation dumps call.id (now + call.deadlineS) polls

end Texts

/-- The coroutine, cut off at one of its awaits if it gets there. -/
def cutOffAt : Nat → A2A A2AReply → A2A A2AReply
  | 0, .await op _ => .await (.cutOff op) fun _ => .done (.envelope HandEnd.timeout.result)
  | n + 1, .await op next => .await op fun s => cutOffAt n (next s)
  | _, c => c

end Krewhub
