import Krewhub.Base.Interleave
import Krewhub.Invocations.Create
import Krewhub.Python.Text
import Krewhub.Store.Schema

/-!
# Relaying a credential

A request takes a pending elicit into `injecting` for the time of a lease, hands the token to the sandbox of the
task, and sets the elicit to `resolved`. Where it gives up before that, the sweeper makes the elicit pending
again once the lease has run out. The row says until when it is reserved, and not by whom.
-/

namespace Krewhub

/-! ### Rows -/

inductive ElicitStatus where
  | pending
  | injecting
  | resolved
  | expired
  deriving DecidableEq, Repr

/-- A row of `elicits`; of its payload, what `json.loads` makes of it. -/
structure ElicitRow where
  id : String
  invocationId : String
  op : String
  payload : Option Json
  status : ElicitStatus := .pending
  resolvedAt : Option Int := none
  injectingUntil : Option Int := none

instance : Keyed ElicitRow := ⟨ElicitRow.id⟩

/-- The file a token is written to. -/
structure OneshotEnv where
  host : String
  ttlS : Nat
  accessToken : String
  deriving DecidableEq, Repr

/-- The tables the relay reads and writes, the sandboxes by their id, the files that have been written, and
`datetime('now')`. -/
structure RelayStore where
  now : Int := 0
  tasks : Table Task := ∅
  bundles : Table Bundle := ∅
  invocations : List Invocation := []
  sandboxes : List (String × String) := []
  elicits : Table ElicitRow := ∅
  envFiles : List (String × OneshotEnv) := []

/-- How a write to a sandbox ends; one that does not end well may have reached it. -/
inductive WriteOutcome where
  | written
  | timedOut (arrived : Bool)
  | failed (arrived : Bool)
  deriving DecidableEq, Repr

def WriteOutcome.arrives : WriteOutcome → Bool
  | .written => true
  | .timedOut arrived | .failed arrived => arrived

inductive RelayOp where
  | select
  | commit
  | reserve (invocationId elicitId : String) (leaseS : Nat)
  | finalize (invocationId elicitId : String)
  | sweepExpiredLeases
  | writeFile (sandbox : String) (env : OneshotEnv) (outcome : WriteOutcome)
  | elapse (s : Nat)

/-! ### Statements -/

namespace ElicitRow

variable (r : ElicitRow)

def reserve (invocationId : String) (expiry : Int) : ElicitRow :=
  if r.invocationId = invocationId ∧ r.status = .pending then
    { r with status := .injecting, injectingUntil := some expiry } else r

def finalize (invocationId : String) (now : Int) : ElicitRow :=
  if r.invocationId = invocationId ∧ r.status = .injecting then
    { r with status := .resolved, resolvedAt := some now, injectingUntil := none } else r

def hasExpired (now : Int) : Bool := r.status == .injecting && r.injectingUntil.any (· < now)

def sweep (now : Int) : ElicitRow :=
  if r.hasExpired now then { r with status := .pending, injectingUntil := none } else r

variable {r}

theorem id_reserve {invocationId : String} {expiry : Int} : (r.reserve invocationId expiry).id = r.id := by
  unfold reserve
  split <;> rfl

theorem id_finalize {invocationId : String} {now : Int} : (r.finalize invocationId now).id = r.id := by
  unfold finalize
  split <;> rfl

theorem id_sweep {now : Int} : (r.sweep now).id = r.id := by
  unfold sweep
  split <;> rfl

end ElicitRow

namespace RelayStore

variable (s : RelayStore)

/-- The row of an invocation in a status. -/
def hasElicit (invocationId elicitId : String) (status : ElicitStatus) : Bool :=
  (s.elicits.get elicitId).any fun r => r.invocationId == invocationId && r.status == status

def getPending (invocationId elicitId : String) : Option ElicitRow :=
  (s.elicits.get elicitId).filter fun r => r.invocationId == invocationId && r.status == .pending

def exec (op : RelayOp) (s : RelayStore) : RelayStore :=
  match op with
  | .select | .commit => s
  | .reserve invocationId elicitId leaseS =>
    { s with
      elicits := s.elicits.amend elicitId (·.reserve invocationId (s.now + leaseS)) fun _ => ElicitRow.id_reserve }
  | .finalize invocationId elicitId =>
    { s with
      elicits := s.elicits.amend elicitId (·.finalize invocationId s.now) fun _ => ElicitRow.id_finalize }
  | .sweepExpiredLeases => { s with elicits := s.elicits.map (·.sweep s.now) fun _ => ElicitRow.id_sweep }
  | .writeFile sandbox env outcome =>
    if outcome.arrives then { s with envFiles := s.envFiles ++ [(sandbox, env)] } else s
  | .elapse seconds => { s with now := s.now + seconds }

end RelayStore

/-! ### The repository -/

inductive RelayError where
  | http (status : Nat) (detail : String)
  | runtimeError (msg : String)
  | attributeError
  | timeoutError
  | e2bError
  deriving DecidableEq, Repr

abbrev Relay (α : Type) := Coro RelayStore RelayOp RelayError α

namespace ElicitRepo

/-- True iff this caller won the reservation. -/
def reserve (invocationId elicitId : String) (leaseS : Nat) : Relay Bool := do
  let won ← .perform (.reserve invocationId elicitId leaseS) (·.hasElicit invocationId elicitId .pending)
  Coro.perform .commit fun _ => ()
  return won

def finalize (invocationId elicitId : String) : Relay Bool := do
  let done ← .perform (.finalize invocationId elicitId) (·.hasElicit invocationId elicitId .injecting)
  Coro.perform .commit fun _ => ()
  return done

def sweepExpiredLeases : Relay Nat := do
  let n ← .perform .sweepExpiredLeases fun s => (s.elicits.rows.filter (·.hasExpired s.now)).length
  Coro.perform .commit fun _ => ()
  return n

end ElicitRepo

/-! ### The route -/

structure RelayRequest where
  invocationId : String
  elicitId : String
  provider : String
  host : String
  accessToken : String
  ttlS : Nat := 300
  hinvocationId : 1 ≤ invocationId.length
  helicitId : 1 ≤ elicitId.length
  hprovider : 1 ≤ provider.length ∧ provider.length ≤ 64
  hhost : 1 ≤ host.length ∧ host.length ≤ 255
  haccessToken : 8 ≤ accessToken.length ∧ accessToken.length ≤ 8192
  httlS : 1 ≤ ttlS ∧ ttlS ≤ 3600

/-- A call of the route, with `relay_lease_s` and how its write to the sandbox will end. -/
structure RelayCall where
  taskId : String
  req : RelayRequest
  accountId : String
  authMethod : String
  leaseS : Nat := 60
  outcome : WriteOutcome

/-- `_host_matches`. -/
def hostMatches (expected actual : String) : Bool :=
  let e := Text.lower expected
  let a := Text.lower actual
  if e = a then true
  else if ['*', '.'].isPrefixOf e.toList then (e.toList.drop 1).isSuffixOf a.toList
  else [e, a].all (["api.github.com", "github.com", "codeload.github.com"].contains ·)

def requireCookieSession (call : RelayCall) : Relay Unit :=
  if call.authMethod = "api_key" then .raise (.http 401 "cookie-session required") else return

def getBundle (task : Task) : Relay (Option Bundle) :=
  if task.bundleId = "" then return none else .perform .select (·.bundles.get task.bundleId)

/-- The task is one of the caller's. -/
def checkOwner (call : RelayCall) : Relay Unit := do
  let some task ← .perform .select (·.tasks.get call.taskId) | .raise (.http 404 "task not found")
  let bundle ← getBundle task
  let some owner := bundle.bind (·.ownerAccountId) | .raise (.http 403 "bundle has no owner")
  if owner ≠ call.accountId then .raise (.http 403 "not your task")

def checkInvocation (call : RelayCall) : Relay Unit := do
  let inv ← .perform .select (·.invocations.find? (·.id == call.req.invocationId))
  if (inv.bind (·.taskId)) ≠ some call.taskId then .raise (.http 404 "invocation not on this task")

section Provider

variable (pyRepr : Json → String)

/-- The payload of the elicit names the provider and the host of the request. -/
def checkPayload (payload : Json) (req : RelayRequest) : Except RelayError Unit := do
  let .ok provider := payload.get "provider" | .error .attributeError
  if !provider.truthy then .error (.http 409 "elicit missing provider")
  if !provider.eq true (.str req.provider) then
    .error (.http 409 ("provider mismatch: elicit expected " ++ pyRepr provider))
  let .ok host := payload.get "host" | .error .attributeError
  if host.truthy then
    let .str expected := host | .error .attributeError
    if !hostMatches expected req.host then
      .error (.http 409 ("host mismatch: elicit expected " ++ pyRepr host))

def checkElicit (req : RelayRequest) : Relay Unit := do
  let some pending ← .perform .select (·.getPending req.invocationId req.elicitId)
    | .raise (.http 404 "no matching pending elicit")
  if pending.op ≠ "auth_required" then .raise (.http 404 "no matching pending elicit")
  match checkPayload pyRepr (pending.payload.getD (.dict [])) req with
  | .ok () => return
  | .error e => .raise e

/-- The e2b sandbox of the task. -/
def resolveSandbox (call : RelayCall) : Relay (Option String) := do
  let sandboxId ← .perform .select fun s => (s.tasks.get call.taskId).bind (·.sandboxId)
  match sandboxId with
  | none | some "" => return none
  | some id => .perform .select (·.sandboxes.lookup id)

/-- `SandboxHand.inject_env_one_shot`. -/
def injectEnvOneShot (call : RelayCall) : Relay Unit := do
  let sandbox ← resolveSandbox call
  let some e2bSandboxId := sandbox
    | .raise (.runtimeError ("inject_env_one_shot: no sandbox attached to task " ++ call.taskId))
  Coro.perform (.writeFile e2bSandboxId
    { host := call.req.host, ttlS := call.req.ttlS, accessToken := call.req.accessToken } call.outcome)
    fun _ => ()
  match call.outcome with
  | .written => return
  | .timedOut _ => .raise .timeoutError
  | .failed _ => .raise .e2bError

def onInjectError : RelayError → Option (Relay Unit)
  | .timeoutError => some (.raise (.http 504 "sandbox inject timed out"))
  | _ => none

def relayCredential (call : RelayCall) : Relay Unit := do
  requireCookieSession call
  checkOwner call
  checkInvocation call
  checkElicit pyRepr call.req
  let reserved ← ElicitRepo.reserve call.req.invocationId call.req.elicitId call.leaseS
  if !reserved then .raise (.http 404 "elicit already in flight")
  (injectEnvOneShot call).tryCatch onInjectError
  let _ ← ElicitRepo.finalize call.req.invocationId call.req.elicitId

end Provider

end Krewhub
