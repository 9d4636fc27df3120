import Krewhub.Base.Interleave
import Krewhub.Services.Auth
import Krewhub.Watch.Log

/-!
# Agents and their presence

An agent has a row in `agent_presence` for each cookbook it serves. It registers, and then sends heartbeats; the
presence controller marks the ones it has not heard of for some time as offline. A status that changes goes into
the watch log, which clients replay; a heartbeat that changes none is only notified to those that listen.

A heartbeat decides by what it has read before it wrote the row, and every call records the row as it has read it
back. Other calls may run between any two of its statements.
-/

namespace Krewhub

namespace Presence

/-- A row of `agent_presence`, with the name it is displayed under. -/
structure Agent extends AgentPresence where
  displayName : String := ""
  deriving DecidableEq, Repr

/-- The primary key. -/
def Agent.key (agent : Agent) : String × String := (agent.agentId, agent.cookbookId)

/-- A row of `watch_log` about an agent. -/
structure AgentEvent where
  resourceId : String
  eventType : WatchEventType
  object : Agent
  deriving DecidableEq, Repr

/-- The tables, of the watch log only what is about agents. -/
structure PresenceDb where
  cookbooks : List String
  agents : List Agent
  log : List AgentEvent := []
  deriving DecidableEq, Repr

/-- `SELECT * FROM agent_presence WHERE agent_id = ? AND cookbook_id = ?`. -/
def find (agents : List Agent) (key : String × String) : Option Agent := agents.find? (·.key == key)

/-! ### Statements -/

/-- `INSERT … ON CONFLICT(agent_id, cookbook_id) DO UPDATE`. -/
def upsertAgent (presence : Agent) (agents : List Agent) : List Agent :=
  if (find agents presence.key).isSome then
    agents.map fun row =>
      if row.key = presence.key then
        { presence with resourceVersion := row.resourceVersion + 1, ownerUsername := row.ownerUsername }
      else row
  else agents ++ [{ presence with resourceVersion := 1, ownerUsername := none }]

/-- Not heard of since the cutoff, and not marked yet. -/
def Stale (cutoff : Nat) (row : Agent) : Prop := row.lastHeartbeatAt < cutoff ∧ row.status ≠ .offline

instance (cutoff : Nat) (row : Agent) : Decidable (Stale cutoff row) := inferInstanceAs (Decidable (_ ∧ _))

def markOffline (row : Agent) : Agent :=
  { row with status := .offline, currentTaskId := none, resourceVersion := row.resourceVersion + 1 }

/-- The statements. An upsert comes with the status that its caller is going to compare the row's with, if it is
going to, and the statement that marks agents with those that its caller has listed; neither is part of the SQL. -/
inductive PresenceOp where
  | select
  | get (key : String × String)
  | upsert (presence : Agent) (compared : Option (Option AgentStatus))
  | setOwner (key : String × String) (owner : String)
  | markOfflineStale (cutoff : Nat) (listed : List (String × String))
  | append (event : AgentEvent)
  | commit
  | elsewhere

def PresenceOp.exec : PresenceOp → PresenceDb → PresenceDb
  | .upsert presence _, db => { db with agents := upsertAgent presence db.agents }
  | .setOwner key owner, db =>
    { db with agents := db.agents.map fun row => if row.key = key then { row with ownerUsername := some owner } else row }
  | .markOfflineStale cutoff _, db =>
    { db with agents := db.agents.map fun row => if Stale cutoff row then markOffline row else row }
  | .append event, db => { db with log := db.log ++ [event] }
  | .select, db | .get _, db | .commit, db | .elsewhere, db => db

abbrev Presencing (α : Type) := Coro PresenceDb PresenceOp Exn α

/-! ### Repositories and the watch service -/

/-- `AgentRepo.get`. -/
def get (key : String × String) : Presencing (Option Agent) := .perform (.get key) fun db => find db.agents key

/-- `AgentRepo.upsert_presence`. -/
def upsertPresence (presence : Agent) (compared : Option (Option AgentStatus)) : Presencing Agent := do
  .perform (.upsert presence compared) fun _ => ()
  .perform .commit fun _ => ()
  let row ← get presence.key
  return row.getD presence

/-- `AgentRepo.mark_offline_stale`. -/
def markOfflineStale (cutoff : Nat) (listed : List (String × String)) : Presencing Unit := do
  .perform (.markOfflineStale cutoff listed) fun _ => ()
  .perform .commit fun _ => ()

/-- `WatchService.record_resource` of an agent. -/
def recordResource (agentId : String) (eventType : WatchEventType) (agent : Agent) : Presencing Unit := do
  .perform (.append { resourceId := agentId, eventType := eventType, object := agent }) fun _ => ()
  .perform .commit fun _ => ()

/-- `WatchService.notify_ephemeral`: it looks up the last number of the log and writes nothing. -/
def notifyEphemeral : Presencing Unit := .perform .select fun _ => ()

/-- `CookbookRepo.get`, and the answer where there is none. -/
def requireCookbook (cookbookId : String) : Presencing Unit := do
  if ← .perform .select fun db => db.cookbooks.contains cookbookId then return
  else .raise (.http 404 "Cookbook not found")

/-! ### Callers -/

structure AgentCaller extends CallerContext where
  username : Option String := none
  deriving DecidableEq, Repr

/-- `_agent_owner_identity`: `caller.username or caller.account_id`. -/
def AgentCaller.ownerIdentity (caller : AgentCaller) : String :=
  (caller.username.filter (· ≠ "")).getD caller.accountId

/-- `authorize_agent_mutation`. -/
def authorizeAgentMutation (caller : AgentCaller) (presence : Option Agent) : Presencing Unit :=
  if caller.accountId = legacyAccountId ∨ caller.authMethod = "api_key" then return
  else match presence.bind (·.ownerUsername) with
    | none => return
    | some owner =>
      if owner = caller.ownerIdentity then return else .raise (.http 403 "Not your agent")

/-! ### Requests -/

structure RegisterAgentRequest where
  agentId : String
  cookbookId : String
  displayName : String
  capabilities : List String := []
  maxConcurrentTasks : Int := 1
  endpointUrl : Option String := none
  deriving DecidableEq, Repr

structure HeartbeatRequest extends RegisterAgentRequest where
  currentTaskId : Option String := none
  deriving DecidableEq, Repr

/-- What a call does on other tables: how many statements, and whether the last of them raises. -/
structure Aside where
  statements : Nat := 0
  raises : Option Exn := none
  deriving DecidableEq, Repr

def Aside.run (aside : Aside) : Presencing Unit :=
  go aside.statements
where
  go : Nat → Presencing Unit
    | 0 => match aside.raises with
      | some e => .raise e
      | none => return
    | n + 1 => do
      .perform .elsewhere fun _ => ()
      go n

def HeartbeatRequest.status (req : HeartbeatRequest) : AgentStatus :=
  if req.currentTaskId.any (· ≠ "") then .busy else .online

def RegisterAgentRequest.presence (req : RegisterAgentRequest) (now : Nat) : Agent where
  agentId := req.agentId
  cookbookId := req.cookbookId
  displayName := req.displayName
  capabilities := req.capabilities
  maxConcurrentTasks := req.maxConcurrentTasks
  endpointUrl := req.endpointUrl
  status := .online
  lastHeartbeatAt := now

def HeartbeatRequest.presence (req : HeartbeatRequest) (now : Nat) : Agent :=
  { req.toRegisterAgentRequest.presence now with status := req.status, currentTaskId := req.currentTaskId }

/-- `register_agent`; the card and the wallet of the agent come after the record. -/
def registerAgent (req : RegisterAgentRequest) (caller : AgentCaller) (now : Nat) (card : Aside) :
    Presencing Agent := do
  requireCookbook req.cookbookId
  let existing ← get (req.agentId, req.cookbookId)
  authorizeAgentMutation caller existing
  let updated ← upsertPresence (req.presence now) none
  .perform (.setOwner (req.agentId, req.cookbookId) caller.ownerIdentity) fun _ => ()
  .perform .commit fun _ => ()
  recordResource req.agentId .added updated
  card.run
  return updated

/-- A transition is recorded; what changes no status is notified only. -/
def publishHeartbeat (agentId : String) (prevStatus : Option AgentStatus) (updated : Agent) : Presencing Unit :=
  if prevStatus ≠ some updated.status then recordResource agentId .modified updated
  else notifyEphemeral

/-- `heartbeat`. -/
def heartbeat (req : HeartbeatRequest) (caller : AgentCaller) (now : Nat) : Presencing Agent := do
  requireCookbook req.cookbookId
  let existing ← get (req.agentId, req.cookbookId)
  authorizeAgentMutation caller existing
  let prevStatus := existing.map (·.status)
  let updated ← upsertPresence (req.presence now) (some prevStatus)
  publishHeartbeat req.agentId prevStatus updated
  return updated

/-! ### The presence controller -/

def recordReleased (agentId : String) : Option Agent → Presencing Unit
  | some updatedAgent => recordResource agentId .modified updatedAgent
  | none => return

/-- The loop over the agents that were stale; their tasks are in other tables. -/
def releaseAgents (release : String × String → Aside) : List (String × String) → Presencing Unit
  | [] => return
  | key :: keys => do
    let updatedAgent ← get key
    recordReleased key.1 updatedAgent
    (release key).run
    releaseAgents release keys

/-- `PresenceController.reconcile`. -/
def reconcile (heartbeatTimeout now : Nat) (release : String × String → Aside) : Presencing Unit := do
  let cutoff := now - heartbeatTimeout
  let staleAgents ← .perform .select fun db => (db.agents.filter fun row => decide (Stale cutoff row)).map (·.key)
  if staleAgents.isEmpty then return
  markOfflineStale cutoff staleAgents
  releaseAgents release staleAgents

/-- One request, or one pass of the controller. -/
inductive PresenceCall where
  | register (req : RegisterAgentRequest) (caller : AgentCaller) (now : Nat) (card : Aside)
  | heartbeat (req : HeartbeatRequest) (caller : AgentCaller) (now : Nat)
  | sweep (heartbeatTimeout now : Nat) (release : String × String → Aside)

/-- What runs; a request that raises is answered with the error. -/
def PresenceCall.program : PresenceCall → Presencing Unit
  | .register req caller now card => do
    let _ ← (registerAgent req caller now card).attempt
    return
  | .heartbeat req caller now => do
    let _ ← (Presence.heartbeat req caller now).attempt
    return
  | .sweep heartbeatTimeout now release => reconcile heartbeatTimeout now release

end Presence

end Krewhub
