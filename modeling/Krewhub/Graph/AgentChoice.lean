import Krewhub.Graph.Cycle
import Mathlib.Data.Option.Basic
import Mathlib.Data.Prod.Lex
import Mathlib.Data.String.Basic

/-!
# The choice of an agent

`pick_agent_for_kind` sorts the gateways that are left by capability, status and id and takes the first of
them; `_pick_with_diversity` asks it for one tier after the other. Which agent that is depends on the pool
as a set: it is the one agent of the tier that no other is better than.
-/

namespace Krewhub

/-- An agent `pick_agent_for_kind` may choose. -/
def Eligible (agents : List AgentPresence) (exclude : List String) (agent : AgentPresence) : Prop :=
  agent ∈ agents ∧ TaskDispatchController.isGateway agent = true ∧ agent.agentId ∉ exclude

def Capable (lower : String → String) (taskKind : String) (agent : AgentPresence) : Prop :=
  ∃ cap ∈ agent.capabilities, lower cap = lower taskKind

/-- An agent with the capability is better than one without; of two that are alike in that, the one that is
online; of two that are alike in that also, the one with the smaller id. -/
def Better (lower : String → String) (taskKind : String) (a b : AgentPresence) : Prop :=
  Capable lower taskKind a ∧ ¬ Capable lower taskKind b ∨
    (Capable lower taskKind a ↔ Capable lower taskKind b) ∧
      (a.status = .online ∧ b.status ≠ .online ∨
        (a.status = .online ↔ b.status = .online) ∧ a.agentId < b.agentId)

/-- The agent may be chosen, and none that may be chosen is better. -/
structure BestOf (lower : String → String) (taskKind : String) (agents : List AgentPresence)
    (exclude : List String) (chosen : AgentPresence) : Prop where
  eligible : Eligible agents exclude chosen
  best : ∀ other, Eligible agents exclude other → ¬ Better lower taskKind other chosen

/-- The tiers of `_pick_with_diversity`, by what each leaves out. -/
inductive Tier (agents : List AgentPresence) (cycleTried bundleUsed : List String) : List String → Prop where
  | fresh : Tier agents cycleTried bundleUsed (cycleTried ++ bundleUsed)
  | untried (hfresh : ∀ agent, ¬ Eligible agents (cycleTried ++ bundleUsed) agent) :
      Tier agents cycleTried bundleUsed cycleTried
  | any (hfresh : ∀ agent, ¬ Eligible agents (cycleTried ++ bundleUsed) agent)
      (huntried : ∀ agent, ¬ Eligible agents cycleTried agent) : Tier agents cycleTried bundleUsed []

/-! ### The ranking is an order -/

section Ranking

variable {lower : String → String} {taskKind : String} {a b : AgentPresence}

/-- The place of an agent, in the order of tuples. -/
def place (lower : String → String) (taskKind : String) (agent : AgentPresence) : ℕ ×ₗ ℕ ×ₗ String :=
  let key := rankKey lower taskKind agent
  toLex (key.1, toLex key.2)

theorem rankBefore_eq_true_iff :
    rankBefore (rankKey lower taskKind a) (rankKey lower taskKind b) = true ↔
      place lower taskKind a < place lower taskKind b := by
  simp only [rankBefore, place, Prod.Lex.toLex_lt_toLex, Bool.or_eq_true, Bool.and_eq_true,
    decide_eq_true_eq, beq_iff_eq]

theorem rankBefore_eq_false_iff :
    rankBefore (rankKey lower taskKind a) (rankKey lower taskKind b) = false ↔
      place lower taskKind b ≤ place lower taskKind a := by
  rw [← not_lt, ← rankBefore_eq_true_iff, Bool.not_eq_true]

theorem capable_iff :
    Capable lower taskKind a ↔
      a.capabilities.any (fun cap => lower cap = lower taskKind) = true := by
  simp [Capable]

theorem place_lt_iff : place lower taskKind a < place lower taskKind b ↔ Better lower taskKind a b := by
  rw [← rankBefore_eq_true_iff]
  simp only [Better, capable_iff, rankBefore, rankKey, Bool.or_eq_true, Bool.and_eq_true,
    decide_eq_true_eq, beq_iff_eq]
  by_cases hcapA : a.capabilities.any (fun cap => lower cap = lower taskKind) = true <;>
  by_cases hcapB : b.capabilities.any (fun cap => lower cap = lower taskKind) = true <;>
  by_cases honA : a.status = .online <;> by_cases honB : b.status = .online <;>
  simp [hcapA, hcapB, honA, honB]

/-- Two agents of which neither is better have one id. -/
theorem agentId_eq_of_not_better (hab : ¬ Better lower taskKind a b) (hba : ¬ Better lower taskKind b a) :
    a.agentId = b.agentId := by
  rw [← place_lt_iff, not_lt] at hab hba
  have heq := le_antisymm hba hab
  simp only [place, rankKey, toLex_inj, Prod.mk.injEq] at heq
  exact heq.2.2

end Ranking

/-! ### One call -/

section Choice

variable {lower : String → String} {taskKind : String} {agents agents' : List AgentPresence}
  {exclude cycleTried bundleUsed tier : List String} {chosen other : AgentPresence}

theorem BestOf.of_pick (h : pickAgentForKind lower agents taskKind exclude = some chosen) :
    BestOf lower taskKind agents exclude chosen := by
  refine ⟨of_pickAgentForKind h, fun other hother => ?_⟩
  rw [pickAgentForKind_eq] at h
  rw [← place_lt_iff, not_lt]
  have hle := (foldl_keepBest_le (place lower taskKind) (fun x y hxy => ?_) (fun x y hxy => ?_) h).1
  · apply hle
    obtain ⟨hmem, hgateway, hexclude⟩ := hother
    simpa [List.mem_filter] using ⟨hmem, hgateway, hexclude⟩
  · exact le_of_lt (rankBefore_eq_true_iff.mp hxy)
  · exact rankBefore_eq_false_iff.mp hxy

theorem pickAgentForKind_eq_none_iff_eligible :
    pickAgentForKind lower agents taskKind exclude = none ↔ ∀ agent, ¬ Eligible agents exclude agent := by
  rw [pickAgentForKind_eq_none_iff]
  constructor
  · intro h agent heligible
    exact heligible.2.2 (h agent heligible.1 heligible.2.1)
  · intro h agent hmem hgateway
    by_contra hexclude
    exact h agent ⟨hmem, hgateway, hexclude⟩

/-- Where ids are distinct, at most one agent is best. -/
theorem BestOf.unique (hids : (agents.map (·.agentId)).Nodup)
    (hchosen : BestOf lower taskKind agents exclude chosen)
    (hother : BestOf lower taskKind agents exclude other) : other = chosen :=
  List.inj_on_of_nodup_map hids hother.eligible.1 hchosen.eligible.1
    (agentId_eq_of_not_better (hchosen.best other hother.eligible) (hother.best chosen hchosen.eligible))

theorem pickAgentForKind_eq_some_iff (hids : (agents.map (·.agentId)).Nodup) :
    pickAgentForKind lower agents taskKind exclude = some chosen ↔
      BestOf lower taskKind agents exclude chosen := by
  refine ⟨BestOf.of_pick, fun hbest => ?_⟩
  cases hpick : pickAgentForKind lower agents taskKind exclude with
  | none => exact absurd hbest.eligible (pickAgentForKind_eq_none_iff_eligible.mp hpick chosen)
  | some other => rw [hbest.unique hids (BestOf.of_pick hpick)]

/-- The pool counts as a set. -/
theorem pickAgentForKind_congr (hids : (agents.map (·.agentId)).Nodup)
    (hids' : (agents'.map (·.agentId)).Nodup) (hmem : ∀ agent, agent ∈ agents' ↔ agent ∈ agents) :
    pickAgentForKind lower agents' taskKind exclude = pickAgentForKind lower agents taskKind exclude := by
  have heligible : ∀ agent, Eligible agents' exclude agent ↔ Eligible agents exclude agent := by
    intro agent
    rw [Eligible, Eligible, hmem agent]
  apply Option.ext
  intro chosen
  rw [pickAgentForKind_eq_some_iff hids, pickAgentForKind_eq_some_iff hids']
  constructor
  · intro hbest
    exact ⟨(heligible chosen).mp hbest.eligible, fun other hother => hbest.best other ((heligible other).mpr hother)⟩
  · intro hbest
    exact ⟨(heligible chosen).mpr hbest.eligible, fun other hother => hbest.best other ((heligible other).mp hother)⟩

/-! ### The tiers -/

/-- The call takes the best agent of the first tier that has any. -/
theorem pickWithDiversity_eq_some_iff (hids : (agents.map (·.agentId)).Nodup) :
    pickWithDiversity lower agents taskKind cycleTried bundleUsed = some chosen ↔
      ∃ tier, Tier agents cycleTried bundleUsed tier ∧ BestOf lower taskKind agents tier chosen := by
  rw [pickWithDiversity]
  simp only [Option.orElse_eq_some, pickAgentForKind_eq_some_iff hids,
    pickAgentForKind_eq_none_iff_eligible]
  constructor
  · rintro (hbest | ⟨hfresh, hbest | ⟨huntried, hbest⟩⟩)
    · exact ⟨_, .fresh, hbest⟩
    · exact ⟨_, .untried hfresh, hbest⟩
    · exact ⟨_, .any hfresh huntried, hbest⟩
  · rintro ⟨tier, htier, hbest⟩
    cases htier with
    | fresh => exact .inl hbest
    | untried hfresh => exact .inr ⟨hfresh, .inl hbest⟩
    | any hfresh huntried => exact .inr ⟨hfresh, .inr ⟨huntried, hbest⟩⟩

theorem Eligible.of_excludes (hsub : ∀ id ∈ tier, id ∈ exclude) {agent : AgentPresence}
    (h : Eligible agents exclude agent) : Eligible agents tier agent :=
  ⟨h.1, h.2.1, fun hmem => h.2.2 (hsub _ hmem)⟩

theorem pickWithDiversity_eq_none_iff :
    pickWithDiversity lower agents taskKind cycleTried bundleUsed = none ↔
      ∀ agent, ¬ Eligible agents [] agent := by
  rw [pickWithDiversity]
  simp only [Option.orElse_eq_none, pickAgentForKind_eq_none_iff_eligible]
  constructor
  · exact fun h => h.2.2
  · intro h
    exact ⟨fun agent hagent => h agent (hagent.of_excludes (by simp)),
      fun agent hagent => h agent (hagent.of_excludes (by simp)), h⟩

/-- Both choices are the same for every order of the pool. An agent is chosen wherever one may be, out of the
first tier that has one, and no other of its tier is better. -/
theorem agent_choice_perm (hids : (agents.map (·.agentId)).Nodup) (hperm : agents'.Perm agents) :
    pickAgentForKind lower agents' taskKind exclude = pickAgentForKind lower agents taskKind exclude ∧
    pickWithDiversity lower agents' taskKind cycleTried bundleUsed =
      pickWithDiversity lower agents taskKind cycleTried bundleUsed ∧
    (pickAgentForKind lower agents taskKind exclude = none ↔ ∀ agent, ¬ Eligible agents exclude agent) ∧
    (∀ chosen, pickAgentForKind lower agents taskKind exclude = some chosen ↔
      BestOf lower taskKind agents exclude chosen) ∧
    (pickWithDiversity lower agents taskKind cycleTried bundleUsed = none ↔
      ∀ agent, ¬ Eligible agents [] agent) ∧
    ∀ chosen, pickWithDiversity lower agents taskKind cycleTried bundleUsed = some chosen ↔
      ∃ tier, Tier agents cycleTried bundleUsed tier ∧ BestOf lower taskKind agents tier chosen := by
  have hids' : (agents'.map (·.agentId)).Nodup := (hperm.map _).nodup_iff.mpr hids
  have hcongr : ∀ exclude, pickAgentForKind lower agents' taskKind exclude =
      pickAgentForKind lower agents taskKind exclude :=
    fun exclude => pickAgentForKind_congr hids hids' fun agent => hperm.mem_iff
  refine ⟨hcongr exclude, ?_, pickAgentForKind_eq_none_iff_eligible,
    fun chosen => pickAgentForKind_eq_some_iff hids, pickWithDiversity_eq_none_iff,
    fun chosen => pickWithDiversity_eq_some_iff hids⟩
  simp only [pickWithDiversity, hcongr]

end Choice

section Pool

private def coder : AgentPresence :=
  { agentId := "b", cookbookId := "c", capabilities := ["Coder"], endpointUrl := some "http://b",
    status := .busy }

private def helper : AgentPresence :=
  { agentId := "a", cookbookId := "c", endpointUrl := some "http://a", status := .online }

theorem coder_chosen_either_way :
    pickAgentForKind String.toLower [helper, coder] "coder" [] =
      pickAgentForKind String.toLower [coder, helper] "coder" [] ∧
    pickWithDiversity String.toLower [helper, coder] "coder" [] ["b"] =
      pickWithDiversity String.toLower [coder, helper] "coder" [] ["b"] :=
  have hchoice := @agent_choice_perm String.toLower "coder" [coder, helper] [helper, coder] [] [] ["b"]
    (by decide) (List.Perm.swap coder helper [])
  ⟨hchoice.1, hchoice.2.1⟩

end Pool

end Krewhub
