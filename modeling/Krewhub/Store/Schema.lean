import Krewhub.Base.Table

/-!
# Rows

The rows of the tables the task and bundle operations read and write, with the columns these
operations use; a nullable column is an `Option`, a JSON column the operations do not look into is
its text. Timestamps are numbers, later ones larger.
-/

namespace Krewhub

inductive BundleStatus where
  | open_
  | closed
  deriving DecidableEq, Repr

inductive TaskStatus where
  | open_
  | claimed
  | working
  | done
  | blocked
  | cancelled
  | blockedOnReview
  deriving DecidableEq, Repr

/-- The text of a status in a message. -/
def TaskStatus.text : TaskStatus → String
  | .open_ => "open"
  | .claimed => "claimed"
  | .working => "working"
  | .done => "done"
  | .blocked => "blocked"
  | .cancelled => "cancelled"
  | .blockedOnReview => "blocked_on_review"

/-- `TaskStatus(value)`. -/
def TaskStatus.ofText (s : String) : Option TaskStatus :=
  [.open_, .claimed, .working, .done, .blocked, .cancelled, .blockedOnReview].find? (·.text == s)

theorem TaskStatus.text_of_ofText {s : String} {status : TaskStatus} (h : ofText s = some status) :
    status.text = s := by
  simpa using List.find?_some h

inductive EventType where
  | prompt
  | plan
  | taskClaimed
  | taskWorking
  | milestone
  | factAdded
  | codePushed
  | bundleClosed
  | bundleReopened
  | sessionStart
  | sessionEnd
  | toolUse
  | toolResult
  | agentReply
  | thinking
  | progress
  | blocker
  | needsReview
  | needsHuman
  | log
  deriving DecidableEq, Repr

namespace EventType

def text : EventType → String
  | prompt => "prompt"
  | plan => "plan"
  | taskClaimed => "task_claimed"
  | taskWorking => "task_working"
  | milestone => "milestone"
  | factAdded => "fact_added"
  | codePushed => "code_pushed"
  | bundleClosed => "bundle_closed"
  | bundleReopened => "bundle_reopened"
  | sessionStart => "session_start"
  | sessionEnd => "session_end"
  | toolUse => "tool_use"
  | toolResult => "tool_result"
  | agentReply => "agent_reply"
  | thinking => "thinking"
  | progress => "progress"
  | blocker => "blocker"
  | needsReview => "needs_review"
  | needsHuman => "needs_human"
  | log => "log"

/-- `EventType(value)`. -/
def ofText (s : String) : Option EventType :=
  [prompt, plan, taskClaimed, taskWorking, milestone, factAdded, codePushed, bundleClosed,
    bundleReopened, sessionStart, sessionEnd, toolUse, toolResult, agentReply, thinking, progress,
    blocker, needsReview, needsHuman, log].find? (·.text == s)

end EventType

inductive ActorType where
  | human
  | agent
  | system
  | hook
  deriving DecidableEq, Repr

def ActorType.text : ActorType → String
  | .human => "human"
  | .agent => "agent"
  | .system => "system"
  | .hook => "hook"

/-- `ActorType(value)`. -/
def ActorType.ofText (s : String) : Option ActorType :=
  [.human, .agent, .system, .hook].find? (·.text == s)

inductive AgentStatus where
  | online
  | offline
  | busy
  deriving DecidableEq, Repr

/-- A row of `bundles`. -/
structure Bundle where
  id : String
  cookbookId : Option String := none
  prompt : String := ""
  status : BundleStatus := .open_
  createdBy : String := ""
  createdAt : Nat := 0
  claimedAt : Option Nat := none
  cookedAt : Option Nat := none
  digestedAt : Option Nat := none
  blockedReason : Option String := none
  graphTerminalAt : Option Nat := none
  graphCode : Option String := none
  graphMermaid : Option String := none
  resourceVersion : Nat := 1
  ownerAccountId : Option String := none
  defaultAgentRuntimeId : Option String := none
  sandboxId : Option String := none
  deriving DecidableEq, Repr

instance : Keyed Bundle := ⟨Bundle.id⟩

/-- The keys of `tasks.orch_json` the orchestration controller looks at. -/
structure OrchMarks where
  respawns : Nat := 0
  lastRespawnAt : Option Nat := none
  acceptedAt : Option Nat := none
  reportInvalid : Bool := false
  halted : Bool := false
  awaitingBrain : Bool := false
  managedByAgent : Option String := none
  deriving DecidableEq, Repr

/-- `tasks.brief_json`: the key the link pipeline writes, and the text of the others. -/
structure Brief where
  context : Option String := none
  rest : String := ""
  deriving DecidableEq, Repr

/-- `tasks.report_json`. -/
structure Report where
  status : Option String := none
  artifacts : List String := []
  prs : List String := []
  blockers : List String := []
  decisionsNeeded : List String := []
  deriving DecidableEq, Repr

/-- `Report.model_validate` of a stored report: the one field without a default is there. -/
def Report.isValid (report : Report) : Bool := report.status.isSome

/-- A row of `tasks`. -/
structure Task where
  id : String
  bundleId : String
  title : String := ""
  description : Option String := none
  status : TaskStatus := .open_
  dependsOnTaskIds : List String := []
  assignedAgentId : Option String := none
  claimedByAgentId : Option String := none
  claimedAt : Option Nat := none
  completedAt : Option Nat := none
  blockedReason : Option String := none
  graphNodeId : Option String := none
  resourceVersion : Nat := 1
  generation : Nat := 1
  sessionId : Option String := none
  workDir : Option String := none
  artifacts : String := "\x7b\x7d"
  report : Option Report := none
  sessionToken : Option String := none
  assignedRuntimeId : Option String := none
  sandboxId : Option String := none
  brief : Option Brief := none
  orch : Option OrchMarks := none
  createdByTask : Option String := none
  updatedAt : Option Nat := none
  progress : Option String := none
  deriving DecidableEq, Repr

instance : Keyed Task := ⟨Task.id⟩

/-- `events.payload`: the keys the link pipeline reads and writes, and the text of the others. -/
structure EventPayload where
  text : Option String := none
  linkId : Option String := none
  rest : String := ""
  deriving DecidableEq, Repr

/-- A row of `events`. -/
structure Event where
  id : String
  cookbookId : Option String := none
  bundleId : Option String := none
  taskId : Option String := none
  type : EventType
  actorId : String
  actorType : ActorType
  body : String
  payload : Option EventPayload := none
  sequence : Nat := 0
  facts : List String := []
  codeRefs : List String := []
  visibility : String := "system"
  createdAt : Nat
  expiresAt : Option Nat := none
  deriving DecidableEq, Repr

instance : Keyed Event := ⟨Event.id⟩

/-- A row of `task_reviews`. -/
structure TaskReview where
  id : String
  taskId : String
  action : String
  reason : Option String
  diffSummary : Option String
  decidedBy : String
  decidedAt : Nat
  deriving DecidableEq, Repr

instance : Keyed TaskReview := ⟨TaskReview.id⟩

/-- `task_links.payload_map`: its two keys, and its text. -/
structure PayloadMap where
  source : Option String := none
  target : Option String := none
  text : String := "\x7b\x7d"
  deriving DecidableEq, Repr

/-- A row of `task_links`. -/
structure Link where
  id : String
  bundleId : String
  fromTaskId : String
  toTaskId : String
  kind : String
  payloadMap : PayloadMap := {}
  createdByAccount : String := ""
  createdByTask : Option String := none
  createdAt : Nat := 0
  firedAt : Option Nat := none
  revokedAt : Option Nat := none
  deriving DecidableEq, Repr

instance : Keyed Link := ⟨Link.id⟩

/-- A row of `agent_runtimes`. -/
structure AgentRuntime where
  id : String
  accountId : String
  status : AgentStatus := .online
  lastSeenAt : Nat := 0
  deriving DecidableEq, Repr

instance : Keyed AgentRuntime := ⟨AgentRuntime.id⟩

/-- A row of `agent_presence`. -/
structure AgentPresence where
  agentId : String
  cookbookId : String
  capabilities : List String := []
  maxConcurrentTasks : Int := 1
  endpointUrl : Option String := none
  status : AgentStatus := .offline
  lastHeartbeatAt : Nat := 0
  currentTaskId : Option String := none
  resourceVersion : Nat := 1
  ownerUsername : Option String := none
  deriving DecidableEq, Repr

end Krewhub
