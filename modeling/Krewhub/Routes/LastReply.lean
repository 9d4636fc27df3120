import Krewhub.Controllers.LinkReconciler
import Krewhub.Routes.Tasks
import Mathlib.Data.List.MinMax

/-!
# The last reply of a task

Two readers tell what the agent of a task has answered: `_upstream_output`, by the sequence of the events, and
`get_task_last_reply`, by the time of their creation. Both take any `agent_reply`, and the turns of a human and
the reports of other tasks are stored under that type as well.

Their texts are the agent's where one reply of the agent is the last in both orders.
-/

namespace Krewhub

open Coro LinkReconcileController

/-- What `get_task_last_reply` returns. -/
structure LastReply where
  taskId : String
  kind : String := "none"
  html : String := ""
  createdAt : Option Nat := none
  deriving DecidableEq, Repr

/-- The walk over the rows, the newest first. -/
def walkReplies (chosen : LastReply) : List Event → LastReply
  | [] => chosen
  | e :: rows =>
    match replyText e with
    | none => walkReplies chosen rows
    | some text =>
      if e.type = .agentReply then { chosen with kind := "agent_reply", html := text, createdAt := some e.createdAt }
      else if e.type = .milestone ∧ chosen.kind = "none" then
        walkReplies { chosen with kind := "milestone", html := text, createdAt := some e.createdAt } rows
      else walkReplies chosen rows

def getTaskLastReply (taskId : String) : Sql LastReply := do
  let _ ← taskOr404 taskId
  let rows ← .select fun db =>
    (db.events.rows.filter fun e =>
      e.taskId == some taskId && (e.type == .agentReply || e.type == .milestone)).mergeSort
        fun a b => decide (b.createdAt ≤ a.createdAt)
  return walkReplies { taskId := taskId } rows

/-- The text that is returned as a reply. -/
def LastReply.reply (answer : LastReply) : Option String :=
  if answer.kind = "agent_reply" then some answer.html else none

/-! ### What the two readers choose -/

/-- The replies of a task, whoever they are from. -/
def replies (db : Db) (taskId : String) : List Event :=
  db.events.rows.filter fun e => e.taskId == some taskId && e.type == .agentReply

/-- The newest reply of the agent of a task. -/
def newestAgentReply (db : Db) (taskId : String) : Option Event :=
  ((replies db taskId).filter (·.actorType == .agent)).argmax (·.createdAt)

theorem newestReply_eq_argmax (db : Db) (taskId : String) :
    newestReply db taskId = (replies db taskId).argmax (·.sequence) := by
  rw [newestReply, List.argmax]
  congr 1
  funext newest e
  cases newest with
  | none => simp [List.argAux]
  | some e' => simp [List.argAux]

/-- The first of the rows, the newest of which come first, that has a property is the newest that has it. -/
theorem find?_mergeSort_eq_argmax {α : Type} [DecidableEq α] (key : α → Nat) (p : α → Bool) (l : List α) :
    (l.mergeSort fun a b => decide (key b ≤ key a)).find? p = (l.filter p).argmax key := by
  have htrans : ∀ a b c : α, decide (key b ≤ key a) = true → decide (key c ≤ key b) = true →
      decide (key c ≤ key a) = true := by
    intro a b c hab hbc
    simp only [decide_eq_true_eq] at *
    omega
  have htotal : ∀ a b : α, (decide (key b ≤ key a) || decide (key a ≤ key b)) = true := by
    intro a b
    simp only [Bool.or_eq_true, decide_eq_true_eq]
    omega
  induction l with
  | nil => simp
  | cons a l ih =>
    obtain ⟨newer, older, hcons, hl, hnewer⟩ := List.mergeSort_cons htrans htotal a l
    rw [hcons, List.find?_append, List.find?_cons]
    rw [hl, List.find?_append] at ih
    cases hp : p a with
    | false =>
      rw [List.filter_cons_of_neg (by simp [hp]), ← ih]
    | true =>
      rw [List.filter_cons_of_pos hp, List.argmax_cons, ← ih]
      cases hfind : newer.find? p with
      | some c =>
        have hlt := hnewer c (List.mem_of_find?_eq_some hfind)
        simp only [Bool.not_eq_true', decide_eq_false_iff_not, not_le] at hlt
        simp [hlt]
      | none =>
        cases hrest : older.find? p with
        | none => simp
        | some c =>
          have hsorted := List.pairwise_mergeSort htrans htotal (a :: l)
          rw [hcons] at hsorted
          have hle := (List.pairwise_cons.mp (List.pairwise_append.mp hsorted).2.1).1 c
            (List.mem_of_find?_eq_some hrest)
          rw [decide_eq_true_eq] at hle
          simp [Nat.not_lt.mpr hle]

/-- What the walk returns as a reply is the first one with a text. -/
theorem reply_walkReplies {chosen : LastReply} (hkind : chosen.kind ≠ "agent_reply") (rows : List Event) :
    (walkReplies chosen rows).reply =
      (rows.find? fun e => e.type == .agentReply && (replyText e).isSome).bind replyText := by
  induction rows generalizing chosen with
  | nil => simp [walkReplies, LastReply.reply, hkind]
  | cons e rows ih =>
    rw [walkReplies, List.find?_cons]
    cases htext : replyText e with
    | none => simp [ih hkind]
    | some text =>
      by_cases hreply : e.type = .agentReply
      · simp [hreply, LastReply.reply, htext]
      · have hother : (e.type == .agentReply) = false := by simpa using hreply
        rw [hother, Bool.false_and]
        dsimp only
        rw [if_neg hreply]
        split
        · exact ih (by simp)
        · exact ih hkind

theorem run_upstreamOutput (task : Task) {payloadMap : PayloadMap} (hsource : payloadMap.source = some "last_reply")
    (db : Db) : (upstreamOutput task payloadMap).run Op.exec db =
      (.ok (((replies db task.id).argmax (·.sequence)).bind replyText), db) := by
  rw [upstreamOutput, if_neg (by simp [hsource]), ← newestReply_eq_argmax]
  rfl

theorem run_getTaskLastReply {task : Task} {db : Db} (htask : db.tasks.get task.id = some task) :
    ∃ answer, (getTaskLastReply task.id).run Op.exec db = (.ok answer, db) ∧
      answer.reply =
        (((replies db task.id).filter (replyText · |>.isSome)).argmax (·.createdAt)).bind replyText := by
  refine ⟨_, run_taskOr404_bind htask _, ?_⟩
  rw [reply_walkReplies (by simp), find?_mergeSort_eq_argmax, List.filter_filter, replies, List.filter_filter]
  congr 2
  apply List.filter_congr
  intro e _
  cases e.type == .agentReply <;> simp [Bool.and_comm]

/-! ### The agent's reply -/

/-- Both readers return the text of the newest reply of the agent. -/
structure ReadsAgent (db : Db) (task : Task) : Prop where
  upstream : ∀ payloadMap : PayloadMap, payloadMap.source = some "last_reply" →
    (upstreamOutput task payloadMap).run Op.exec db = (.ok ((newestAgentReply db task.id).bind replyText), db)
  lastReply : ∃ answer, (getTaskLastReply task.id).run Op.exec db = (.ok answer, db) ∧
    answer.reply = (newestAgentReply db task.id).bind replyText

/-- No reply has a text, or one reply of the agent has, and is the last by sequence and the last by time, of
those with a text as of those of the agent. -/
def AgentSpeaksLast (db : Db) (taskId : String) : Prop :=
  (∀ e ∈ replies db taskId, replyText e = none) ∨
    ∃ e, (replyText e).isSome ∧ (replies db taskId).argmax (·.sequence) = some e ∧
      ((replies db taskId).filter (replyText · |>.isSome)).argmax (·.createdAt) = some e ∧
      newestAgentReply db taskId = some e

/-- Two replies with the same text are the same. -/
def TextsDiffer (db : Db) (taskId : String) : Prop :=
  ∀ e ∈ replies db taskId, ∀ e' ∈ replies db taskId, (replyText e).isSome → replyText e = replyText e' → e = e'

section Readers

variable {db : Db} {task : Task}

theorem readsAgent_iff (htask : db.tasks.get task.id = some task) :
    ReadsAgent db task ↔
      ((replies db task.id).argmax (·.sequence)).bind replyText = (newestAgentReply db task.id).bind replyText ∧
      (((replies db task.id).filter (replyText · |>.isSome)).argmax (·.createdAt)).bind replyText =
        (newestAgentReply db task.id).bind replyText := by
  obtain ⟨answer, hrun, hreply⟩ := run_getTaskLastReply htask
  constructor
  · rintro ⟨hupstream, answer', hrun', hreply'⟩
    rw [hrun] at hrun'
    cases hrun'
    have hsome := hupstream { source := some "last_reply" } rfl
    rw [run_upstreamOutput task rfl] at hsome
    exact ⟨Except.ok.inj (Prod.mk.inj hsome).1, hreply ▸ hreply'⟩
  · rintro ⟨hupstream, hlast⟩
    refine ⟨fun payloadMap hsource => ?_, answer, hrun, hreply.trans hlast⟩
    rw [run_upstreamOutput task hsource, hupstream]

theorem mem_replies_of_newestAgentReply {taskId : String} {e : Event} (h : newestAgentReply db taskId = some e) :
    e ∈ replies db taskId := List.mem_of_mem_filter (List.argmax_mem h)

theorem AgentSpeaksLast.readsAgent (htask : db.tasks.get task.id = some task) (h : AgentSpeaksLast db task.id) :
    ReadsAgent db task := by
  rw [readsAgent_iff htask]
  rcases h with hnone | ⟨e, -, hsequence, htime, hnewest⟩
  · have hbind : ∀ chosen : Option Event, (∀ e ∈ chosen, e ∈ replies db task.id) →
        chosen.bind replyText = none := by
      intro chosen hmem
      cases chosen with
      | none => rfl
      | some e => exact hnone e (hmem e rfl)
    rw [hbind _ fun e he => List.argmax_mem he, hbind _ fun e he => List.mem_of_mem_filter (List.argmax_mem he),
      hbind _ fun e he => mem_replies_of_newestAgentReply he]
    exact ⟨rfl, rfl⟩
  · rw [hsequence, htime, hnewest]
    exact ⟨rfl, rfl⟩

theorem ReadsAgent.agentSpeaksLast (htask : db.tasks.get task.id = some task) (h : ReadsAgent db task)
    (hdiffer : TextsDiffer db task.id) : AgentSpeaksLast db task.id := by
  obtain ⟨hupstream, hlast⟩ := (readsAgent_iff htask).mp h
  cases htime : ((replies db task.id).filter (replyText · |>.isSome)).argmax (·.createdAt) with
  | none =>
    rw [List.argmax_eq_none, List.filter_eq_nil_iff] at htime
    exact .inl fun e he => Option.not_isSome_iff_eq_none.mp (htime e he)
  | some e =>
    obtain ⟨he, hsome⟩ := List.mem_filter.mp (List.argmax_mem htime)
    rw [htime, Option.bind_some] at hlast
    have hsame : ∀ chosen : Option Event, (∀ e' ∈ chosen, e' ∈ replies db task.id) →
        chosen.bind replyText = replyText e → chosen = some e := by
      intro chosen hmem htext
      cases chosen with
      | none =>
        rw [← htext] at hsome
        cases hsome
      | some e' => rw [hdiffer e he e' (hmem e' rfl) hsome htext.symm]
    refine .inr ⟨e, hsome, ?_, htime, ?_⟩
    · exact hsame _ (fun e' he' => List.argmax_mem he') (hupstream.trans hlast.symm)
    · exact hsame _ (fun e' he' => mem_replies_of_newestAgentReply he') hlast.symm

end Readers

section Tapes

private def reply (id : String) (actorType : ActorType) (body : String) (time : Nat) : Event :=
  { id, taskId := some "a", type := .agentReply, actorId := "acc_1", actorType, body, sequence := time
    createdAt := time }

private def finished : Task := { id := "a", bundleId := "bun_1", status := .done }

private def answeredTape : Db where
  tasks := ⟨[finished], by simp⟩
  events := ⟨[reply "evt_1" .human "do it" 1, reply "evt_2" .agent "done" 2], by decide⟩

private def followedUpTape : Db where
  tasks := ⟨[finished], by simp⟩
  events := ⟨[reply "evt_1" .agent "done" 1, reply "evt_2" .human "do it again" 2], by decide⟩

end Tapes

end Krewhub
