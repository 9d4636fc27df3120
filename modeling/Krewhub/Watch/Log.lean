import Mathlib.Data.List.Nodup
import Mathlib.Tactic.Common

/-!
# The watch log

Every mutation of a resource goes into the table `watch_log`. Its rows are kept in the order of their
numbers, which are given out by the database and never used again. The channel of an event is derived
from its row.
-/

namespace Krewhub

inductive WatchEventType where
  | added
  | modified
  | deleted
  deriving DecidableEq, Repr

/-- `event_type.lower()`. -/
def WatchEventType.lower : WatchEventType → String
  | .added => "added"
  | .modified => "modified"
  | .deleted => "deleted"

/-- The keys of a payload that a channel is derived from, and the text of the others. -/
structure WatchPayload where
  status : Option String := none
  type : Option String := none
  channelHint : Option String := none
  rest : String := ""
  deriving DecidableEq, Repr

/-- What `record` is called with. -/
structure Mutation where
  resourceType : String
  resourceId : String
  eventType : WatchEventType
  resourceVersion : Nat := 1
  payload : WatchPayload := {}
  cookbookId : Option String := none
  deriving DecidableEq, Repr

/-- A row of `watch_log`. -/
structure WatchEntry extends Mutation where
  seq : Nat
  deriving DecidableEq, Repr

/-- `WatchEvent`, an entry with its channel. -/
structure WatchEvent extends WatchEntry where
  channel : String
  deriving DecidableEq, Repr

/-! ### Channels -/

def taskStatusToChannel : List (String × String) :=
  [("claimed", "task:claimed"), ("working", "task:working"), ("done", "task:completed"),
    ("blocked", "task:failed"), ("cancelled", "task:cancelled")]

def bundleStatusToChannel : List (String × String) :=
  [("closed", "bundle:closed"), ("open", "bundle:reopened")]

def eventTypeToChannel : List (String × String) :=
  [("tool_use", "task:message"), ("tool_result", "task:message"), ("thinking", "task:message"),
    ("agent_reply", "task:message"), ("milestone", "task:message"), ("fact_added", "task:message"),
    ("code_pushed", "task:message"), ("session_start", "task:session_start"),
    ("session_end", "task:session_end"), ("bundle_closed", "bundle:closed"),
    ("bundle_reopened", "bundle:reopened"), ("prompt", "bundle:prompt"), ("plan", "bundle:plan"),
    ("task_claimed", "task:claimed"), ("task_working", "task:working")]

def agentStatusToChannel : List (String × String) :=
  [("online", "agent:online"), ("offline", "agent:offline"), ("busy", "agent:busy")]

def deriveChannel (resourceType : String) (eventType : WatchEventType) (obj : WatchPayload) :
    String :=
  let fallback := resourceType ++ ":" ++ eventType.lower
  if resourceType = "task" then
    if eventType = .added then "task:added"
    else if obj.channelHint = some "task:progress" then "task:progress"
    else (obj.status.bind (taskStatusToChannel.lookup ·)).getD fallback
  else if resourceType = "bundle" then
    if eventType = .added then "bundle:added"
    else (obj.status.bind (bundleStatusToChannel.lookup ·)).getD fallback
  else if resourceType = "event" then
    (obj.type.bind (eventTypeToChannel.lookup ·)).getD fallback
  else if resourceType = "agent" then
    if eventType = .added then "agent:added"
    else (obj.status.bind (agentStatusToChannel.lookup ·)).getD fallback
  else fallback

/-- `entry_to_watch_event`. -/
def WatchEntry.toEvent (e : WatchEntry) : WatchEvent :=
  { e with channel := deriveChannel e.resourceType e.eventType e.payload }

@[simp]
theorem WatchEntry.toEvent_seq (e : WatchEntry) : e.toEvent.seq = e.seq := rfl

@[simp]
theorem WatchEntry.toEvent_resourceType (e : WatchEntry) :
    e.toEvent.resourceType = e.resourceType := rfl

theorem WatchEntry.toEvent_inj {e e' : WatchEntry} : e.toEvent = e'.toEvent ↔ e = e' :=
  ⟨fun h => congrArg WatchEvent.toWatchEntry h, fun h => congrArg _ h⟩

/-! ### The table -/

/-- `watch_log`; `last` is the largest number it has given out. -/
structure WatchLog where
  entries : List WatchEntry := []
  last : Nat := 0
  sorted : entries.Pairwise (·.seq < ·.seq)
  bounded : ∀ e ∈ entries, e.seq ≤ last

namespace WatchLog

def empty : WatchLog where
  sorted := .nil
  bounded _ h := absurd h List.not_mem_nil

/-- The row `append` adds. -/
def nextEntry (log : WatchLog) (m : Mutation) : WatchEntry := { m with seq := log.last + 1 }

/-- The `INSERT` of `append`. -/
def append (log : WatchLog) (m : Mutation) : WatchLog where
  entries := log.entries ++ [log.nextEntry m]
  last := log.last + 1
  sorted := by
    rw [List.pairwise_append]
    refine ⟨log.sorted, List.pairwise_singleton _ _, fun e he e' he' => ?_⟩
    rw [List.mem_singleton.mp he']
    exact Nat.lt_succ_of_le (log.bounded e he)
  bounded e he := by
    rcases List.mem_append.mp he with he | he
    · exact Nat.le_succ_of_le (log.bounded e he)
    · rw [List.mem_singleton.mp he]
      exact Nat.le_refl _

/-- The entries after a number. -/
def after (log : WatchLog) (since : Int) : List WatchEntry :=
  log.entries.filter fun e => decide (since < e.seq)

/-- `list_since`, with its limit. -/
def listSince (log : WatchLog) (since : Int) (resourceType : Option String)
    (limit : Nat := 500) : List WatchEntry :=
  ((log.after since).filter fun e => resourceType.all (e.resourceType == ·)).take limit

theorem eq_of_seq_eq (log : WatchLog) {e e' : WatchEntry} (he : e ∈ log.entries)
    (he' : e' ∈ log.entries) (h : e.seq = e'.seq) : e = e' := by
  have hnodup : (log.entries.map (·.seq)).Nodup :=
    List.pairwise_map.mpr (log.sorted.imp fun hlt => Nat.ne_of_lt hlt)
  exact List.inj_on_of_nodup_map hnodup he he' h

theorem mem_append {log : WatchLog} {m : Mutation} {e : WatchEntry} :
    e ∈ (log.append m).entries ↔ e ∈ log.entries ∨ e = log.nextEntry m := by
  rw [append, List.mem_append, List.mem_singleton]

theorem mem_after {log : WatchLog} {since : Int} {e : WatchEntry} :
    e ∈ log.after since ↔ e ∈ log.entries ∧ since < e.seq := by
  rw [after, List.mem_filter, decide_eq_true_eq]

theorem pairwise_listSince (log : WatchLog) (since : Int) (resourceType : Option String) :
    (log.listSince since resourceType).Pairwise (·.seq < ·.seq) :=
  ((log.sorted.filter _).filter _).sublist (List.take_sublist _ _)

theorem mem_of_mem_listSince {log : WatchLog} {since : Int} {resourceType : Option String}
    {e : WatchEntry} (h : e ∈ log.listSince since resourceType) : e ∈ log.entries :=
  List.mem_of_mem_filter (List.mem_of_mem_filter (List.mem_of_mem_take h))

end WatchLog

end Krewhub
