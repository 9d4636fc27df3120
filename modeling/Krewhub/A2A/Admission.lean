import Krewhub.A2A.Mailbox
import Krewhub.Base.Like

/-!
# Who a message is accepted for

Before it takes a message in, the handler of `message/send` looks for the card of the agent, which is found by
owner and name, and for a presence row that is not offline. The second is found by a pattern that begins with
the name. It asks for no owner, and a `_` or `%` of the name stands for other characters.

So a message is accepted for an agent that is offline, or has no row at all, exactly when its card is there
and somebody else is not offline whose id begins with a spelling of the name and an `@`.
-/

namespace Krewhub

open Like (Spells)

theorem sqlLike_eq_like (p s : List Char) : sqlLike p s = Like.like p s := by
  induction p generalizing s with
  | nil => rfl
  | cons c p ih =>
    by_cases hc : c = '%'
    · rw [hc, Like.like_percent, sqlLike]
      congr
      ext rest
      rw [ih]
    · cases s with
      | nil => rw [Like.like_cons_nil hc, sqlLike.eq_3 c p hc]
      | cons d s => rw [Like.like_cons_cons hc, sqlLike.eq_4 c p d s hc, ih]

/-! ### Addresses -/

/-- `agent.owner_username or agent.agent_id.split("@")[-1]` and `agent.agent_id.split("@")[0]`, to which a
task is sent. -/
def AgentPresence.address (agent : AgentPresence) : String × String :=
  let parts := (agent.agentId.toList.splitOn '@').map String.ofList
  let owner := agent.ownerUsername.getD ""
  (if owner = "" then parts.getLast?.getD "" else owner, parts.head?.getD "")

/-- The row of the agent that is addressed by owner and name. -/
def AgentPresence.IsOf (agent : AgentPresence) (owner name : String) : Prop :=
  agent.agentId = name ++ "@" ++ owner

/-- A task for the agent is sent to the owner and name that its id is made of. -/
theorem AgentPresence.IsOf.address {agent : AgentPresence} {owner name : String} (h : agent.IsOf owner name)
    (hname : '@' ∉ name.toList) (howner : '@' ∉ owner.toList)
    (husername : agent.ownerUsername = none ∨ agent.ownerUsername = some owner) :
    agent.address = (owner, name) := by
  have hparts : (agent.agentId.toList.splitOn '@').map String.ofList = [name, owner] := by
    have hat : "@".toList = ['@'] := by decide
    rw [h, String.toList_append, String.toList_append, hat, List.append_assoc, List.singleton_append,
      List.splitOn_append_cons_self, List.splitOn_eq_singleton hname, List.splitOn_eq_singleton howner]
    simp
  rw [AgentPresence.address, hparts]
  rcases husername with hnone | hsome
  · simp [hnone]
  · by_cases howner' : owner = "" <;> simp [hsome, howner']

/-! ### Admission -/

section Admission

variable (dumps : Json → String)

/-- The handler takes the message in. -/
def AcceptsMessage (call : SendCall) (s : A2AStore) : Prop :=
  A2AOp.insert call.row ∈ (handleMessageSend dumps call).ops A2AStore.exec s

/-- The addressed agent is not offline. -/
def IsUp (call : SendCall) (s : A2AStore) : Prop :=
  ∃ agent ∈ s.presence, agent.IsOf call.owner call.agent ∧ agent.status ≠ .offline

/-- An id that begins with a spelling of the name and an `@`. -/
def LooksLike (name agentId : String) : Prop :=
  ∃ spelling, Spells (name.toList ++ ['@']) spelling ∧ spelling <+: agentId.toList

/-- The card of the agent is there, the agent itself is offline or has no row, and somebody is not offline who
looks like it. -/
def Impersonated (call : SendCall) (s : A2AStore) : Prop :=
  (call.owner, call.agent) ∈ s.cards ∧ ¬ IsUp call s ∧
    ∃ agent ∈ s.presence, agent.status ≠ .offline ∧ LooksLike call.agent agent.agentId

variable {dumps} {call : SendCall} {s : A2AStore}

theorem sqlLike_pattern_iff {name agentId : String} :
    sqlLike (name.toList ++ ['@', '%']) agentId.toList = true ↔ LooksLike name agentId := by
  have hsplit : name.toList ++ ['@', '%'] = name.toList ++ ['@'] ++ ['%'] := by simp
  rw [sqlLike_eq_like, hsplit, Like.like_iff]
  exact Like.spells_append_percent_iff

/-- An agent's own id looks like it. -/
theorem AgentPresence.IsOf.looksLike {agent : AgentPresence} {owner name : String} (h : agent.IsOf owner name) :
    LooksLike name agent.agentId := by
  refine ⟨name.toList ++ ['@'], Spells.refl _, owner.toList, ?_⟩
  have hat : "@".toList = ['@'] := by decide
  rw [h, String.toList_append, String.toList_append, hat]

theorem acceptsMessage_iff :
    AcceptsMessage dumps call s ↔ (call.owner, call.agent) ∈ s.cards ∧
      ∃ agent ∈ s.presence, agent.status ≠ .offline ∧ LooksLike call.agent agent.agentId := by
  have honline : (s.presence.any fun a =>
      sqlLike (call.agent.toList ++ ['@', '%']) a.agentId.toList && a.status != .offline) = true ↔
      ∃ agent ∈ s.presence, agent.status ≠ .offline ∧ LooksLike call.agent agent.agentId := by
    simp only [List.any_eq_true, Bool.and_eq_true, bne_iff_ne, sqlLike_pattern_iff, and_comm]
  rw [← honline, ← List.contains_iff_mem, AcceptsMessage, handleMessageSend]
  rw [Coro.ops_bind_ok (Coro.run_perform A2AStore.exec A2AOp.select _ s)]
  cases hknown : s.cards.contains (call.owner, call.agent) with
  | false => simp [Coro.perform, Coro.ops]
  | true =>
    have hsame : A2AStore.exec A2AOp.select s = s := rfl
    rw [if_neg (by decide), Coro.ops_bind_ok (Coro.run_perform A2AStore.exec A2AOp.select _ _), hsame]
    cases s.presence.any fun a =>
        sqlLike (call.agent.toList ++ ['@', '%']) a.agentId.toList && a.status != .offline with
    | false => simp [Coro.perform, Coro.ops]
    | true => simp [Coro.perform, Coro.ops, insertInvocation]

/-- **Admission looks at the addressed agent exactly when nobody stands in for it.** For every set of cards and
presence rows and every call. -/
theorem admission_iff (dumps : Json → String) (call : SendCall) (s : A2AStore) :
    (AcceptsMessage dumps call s → IsUp call s) ↔ ¬ Impersonated call s := by
  rw [acceptsMessage_iff, Impersonated]
  constructor
  · rintro h ⟨hcard, hdown, hothers⟩
    exact hdown (h ⟨hcard, hothers⟩)
  · rintro h ⟨hcard, hothers⟩
    by_contra hdown
    exact h ⟨hcard, hdown, hothers⟩

/-- An agent of Bob's that has the name of one of Alice's. -/
def bobsCoder : AgentPresence where
  agentId := "coder@bob"
  cookbookId := "cb_2"
  status := .online
  ownerUsername := some "bob"

/-- Of the two agents of one name only Bob's is online. -/
def sameName : A2AStore where
  cards := [("alice", "coder"), ("bob", "coder")]
  presence := [{ agentId := "coder@alice", cookbookId := "cb_1", ownerUsername := some "alice" }, bobsCoder]

def toAlice : SendCall where
  id := "task_1"
  owner := "alice"
  agent := "coder"
  params := []

/-- A message to the agent that is offline is accepted. -/
theorem sameName_accepts : AcceptsMessage (fun _ => "") toAlice sameName ∧ ¬ IsUp toAlice sameName := by
  constructor
  · have hbob : bobsCoder.IsOf "bob" "coder" := by
      rw [AgentPresence.IsOf]
      decide
    exact acceptsMessage_iff.mpr
      ⟨by decide, bobsCoder, List.mem_cons_of_mem _ List.mem_cons_self, by decide, hbob.looksLike⟩
  · rintro ⟨agent, hagent, hof, hup⟩
    rcases List.mem_cons.mp hagent with rfl | hagent
    · exact hup rfl
    · rw [List.mem_singleton.mp hagent, AgentPresence.IsOf] at hof
      exact absurd hof (by decide)

end Admission

end Krewhub
