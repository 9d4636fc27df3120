import Krewhub.Base.Interleave

/-!
# What a coroutine has come by

A coroutine that does certain things only once it has come by certain others: an operation of the one kind, or a
result of the one kind, comes only after operations of its own that were performed in the right order and met
the right states. Which operations and which states these are is told by stages; a later stage may go by the state
that an earlier one has met.

A pool keeps this over every schedule. Whatever such a coroutine does in it, there are earlier turns of its own,
one for each stage, at which the state was as the stage says. A coroutine that has begun does not outlive a crash,
so the turns from its first to its last are free of crashes.
-/

namespace Krewhub

/-- Operations in their order, each with the states it may meet, and with what follows for a state. -/
inductive Stages (σ Op : Type) where
  | nil
  | cons (E : Op → σ → Prop) (rest : σ → Stages σ Op)

namespace Stages

variable {σ Op τ Op' : Type}

/-- One operation. -/
def one (E : Op → σ → Prop) : Stages σ Op := .cons E fun _ => .nil

/-- The stages for a coroutine that is a part of one on a larger state. -/
def within (view : τ → σ) (label : Op → Op') : Stages σ Op → Stages τ Op'
  | .nil => .nil
  | .cons E rest => .cons (fun op' t => ∃ op, op' = label op ∧ E op (view t)) fun t => (rest (view t)).within view label

end Stages

namespace Coro

variable {σ Op ε α β : Type}

/-- Nothing with `W` is performed, and nothing with `R` is returned, before operations have gone through the stages
in their order. -/
def Staged (W : Op → Prop) (R : α → Prop) : Stages σ Op → Coro σ Op ε α → Prop
  | .nil, _ => True
  | .cons _ _, .done a => ¬ R a
  | .cons _ _, .raise _ => True
  | .cons E rest, .await op next =>
    ¬ W op ∧ ∀ s, (E op s ∧ (next s).Staged W R (rest s)) ∨ (next s).Staged W R (.cons E rest)

section Staged

variable {W : Op → Prop} {R : β → Prop} {E : Op → σ → Prop} {rest : σ → Stages σ Op} {stages : Stages σ Op}

@[simp]
theorem staged_nil (c : Coro σ Op ε β) : c.Staged W R .nil := by cases c <;> trivial

@[simp]
theorem staged_raise (e : ε) : (.raise e : Coro σ Op ε β).Staged W R stages := by cases stages <;> trivial

theorem staged_done {b : β} (h : ¬ R b) : (.done b : Coro σ Op ε β).Staged W R stages := by
  cases stages with
  | nil => trivial
  | cons E rest => exact h

theorem Staged.ite {p : Prop} [Decidable p] {c d : Coro σ Op ε β} (hc : p → c.Staged W R stages)
    (hd : ¬ p → d.Staged W R stages) : (if p then c else d).Staged W R stages := by
  by_cases hp : p
  · rw [if_pos hp]
    exact hc hp
  · rw [if_neg hp]
    exact hd hp

/-- An operation, and what follows for what is read off the state it meets. -/
theorem Staged.perform_bind {op : Op} {read : σ → α} {f : α → Coro σ Op ε β} (hop : ¬ W op)
    (hf : ∀ s, (E op s ∧ (f (read s)).Staged W R (rest s)) ∨ (f (read s)).Staged W R (.cons E rest)) :
    (perform op read >>= f).Staged W R (.cons E rest) := ⟨hop, hf⟩

/-- A part that goes through no stage. -/
theorem Staged.every_bind {c : Coro σ Op ε α} {f : α → Coro σ Op ε β} (hc : c.Every fun op => ¬ W op)
    (hf : ∀ a, (f a).Staged W R stages) : (c >>= f).Staged W R stages := by
  induction c with
  | done a => exact hf a
  | raise e => exact staged_raise e
  | await op next ih =>
    cases stages with
    | nil => exact staged_nil _
    | cons E rest => exact ⟨hc.1, fun s => .inr (ih s (hc.2 s))⟩

/-- What comes after a part that does not return before the stages. -/
theorem Staged.then {c : Coro σ Op ε α} {f : α → Coro σ Op ε β} (hc : c.Staged W (fun _ => True) stages) :
    (c >>= f).Staged W R stages := by
  induction c generalizing stages with
  | done a =>
    cases stages with
    | nil => exact staged_nil _
    | cons E rest => exact absurd trivial hc
  | raise e => exact staged_raise e
  | await op next ih =>
    cases stages with
    | nil => exact staged_nil _
    | cons E rest =>
      refine ⟨hc.1, fun s => ?_⟩
      rcases hc.2 s with ⟨hE, hnext⟩ | hnext
      · exact .inl ⟨hE, ih s hnext⟩
      · exact .inr (ih s hnext)

/-- Where nothing of the kind is done at all. -/
theorem Staged.of_every {c : Coro σ Op ε β} (hc : c.Every fun op => ¬ W op) (hR : ∀ b, ¬ R b) :
    c.Staged W R stages := by
  induction c with
  | done b => exact staged_done (hR b)
  | raise e => exact staged_raise e
  | await op next ih =>
    cases stages with
    | nil => exact staged_nil _
    | cons E rest => exact ⟨hc.1, fun s => .inr (ih s (hc.2 s))⟩

/-- What is made of the result at the end. -/
theorem Staged.map {f : α → β} {c : Coro σ Op ε α} (hc : c.Staged W (fun a => R (f a)) stages) :
    (c >>= fun a => .done (f a)).Staged W R stages := by
  induction c generalizing stages with
  | done a =>
    cases stages with
    | nil => exact staged_nil _
    | cons E rest => exact hc
  | raise e => exact staged_raise e
  | await op next ih =>
    cases stages with
    | nil => exact staged_nil _
    | cons E rest =>
      refine ⟨hc.1, fun s => ?_⟩
      rcases hc.2 s with ⟨hE, hnext⟩ | hnext
      · exact .inl ⟨hE, ih s hnext⟩
      · exact .inr (ih s hnext)

theorem Staged.within {τ Op' : Type} {view : τ → σ} {label : Op → Op'} {W' : Op' → Prop} {c : Coro σ Op ε β}
    (hc : c.Staged W R stages) (hW : ∀ op, W' (label op) → W op) :
    (c.within view label).Staged W' R (stages.within view label) := by
  induction c generalizing stages with
  | done b =>
    cases stages with
    | nil => exact staged_nil _
    | cons E rest => exact hc
  | raise e => exact staged_raise e
  | await op next ih =>
    cases stages with
    | nil => exact staged_nil _
    | cons E rest =>
      refine ⟨fun hop => hc.1 (hW op hop), fun t => ?_⟩
      rcases hc.2 (view t) with ⟨hE, hnext⟩ | hnext
      · exact .inl ⟨⟨op, rfl, hE⟩, ih _ hnext⟩
      · exact .inr (ih _ hnext)

end Staged

end Coro

namespace Pool

variable {ι σ Op ε α : Type} [DecidableEq ι] (exec : Op → σ → σ) (recover : σ → σ)

/-- The coroutine has taken turns of its own, one for each stage and in their order, at which it was at an
operation and the state was as the stage says. -/
def Came (p : Pool ι σ Op ε α) (i : ι) : Stages σ Op → List (Turn ι) → Prop
  | .nil, _ => True
  | .cons E rest, turns => ∃ before after, turns = before ++ .run i :: after ∧
    (∃ op ∈ (p.run exec recover before).nextOp i, E op (p.run exec recover before).state) ∧
    Came (p.run exec recover (before ++ [.run i])) i (rest (p.run exec recover before).state) after

variable {exec recover} {p : Pool ι σ Op ε α} {i : ι} {W : Op → Prop} {R : α → Prop} {stages : Stages σ Op}

/-- What a coroutine has returned, if it has. -/
def result (p : Pool ι σ Op ε α) (i : ι) : Option α :=
  match p.thread i with
  | some (.done a) => some a
  | _ => none

omit [DecidableEq ι] in
theorem returned_iff {a : α} : p.returned i a ↔ p.result i = some a := by
  rw [returned, result]
  rcases p.thread i with _ | _ | _ | _ <;> simp

instance [DecidableEq α] (a : α) : Decidable (p.returned i a) := decidable_of_iff _ returned_iff.symm

theorem run_cons (turn : Turn ι) (turns : List (Turn ι)) :
    p.run exec recover (turn :: turns) = (p.take exec recover turn).run exec recover turns := rfl

theorem run_snoc (turns : List (Turn ι)) (turn : Turn ι) :
    p.run exec recover (turns ++ [turn]) = (p.run exec recover turns).take exec recover turn := by
  rw [run_append]
  rfl

/-- What is left of a coroutine after a turn is what was left of it, unless it was its own. -/
theorem mem_thread_take {turn : Turn ι} {c : Coro σ Op ε α} (h : c ∈ (p.take exec recover turn).thread i) :
    c ∈ p.thread i ∨ turn = .run i ∧ ∃ op next, p.awaits i op next ∧ c = next p.state := by
  cases turn with
  | run j =>
    by_cases hawaits : ∃ op next, p.awaits j op next
    · obtain ⟨op, next, hawaits⟩ := hawaits
      rw [take_run hawaits] at h
      dsimp only at h
      by_cases hj : i = j
      · subst hj
        rw [Function.update_self] at h
        exact .inr ⟨rfl, op, next, hawaits, (Option.some.inj h).symm⟩
      · rw [Function.update_of_ne hj] at h
        exact .inl h
    · push Not at hawaits
      rw [take_run_of_not_awaits hawaits] at h
      exact .inl h
  | cancel j =>
    dsimp only [take] at h
    by_cases hj : i = j
    · subst hj
      rw [Function.update_self] at h
      cases h
    · rw [Function.update_of_ne hj] at h
      exact .inl h
  | crash =>
    obtain ⟨c', hc', hsurvive⟩ := Option.bind_eq_some_iff.mp h
    rw [(mem_of_mem_survive hsurvive).1]
    exact .inl hc'

theorem Came.cons {turn : Turn ι} {turns : List (Turn ι)}
    (h : (p.take exec recover turn).Came exec recover i stages turns) :
    p.Came exec recover i stages (turn :: turns) := by
  cases stages with
  | nil => trivial
  | cons E rest =>
    obtain ⟨before, after, hturns, hstage, hlater⟩ := h
    exact ⟨turn :: before, after, by rw [hturns, List.cons_append], hstage, hlater⟩

/-- **A coroutine has come by its stages, or what is left of it has yet to.** -/
theorem came_or_staged (turns : List (Turn ι)) (h : ∀ c ∈ p.thread i, c.Staged W R stages) :
    p.Came exec recover i stages turns ∨
      ∃ E rest, ∀ c ∈ (p.run exec recover turns).thread i, c.Staged W R (.cons E rest) := by
  induction turns generalizing p stages with
  | nil =>
    cases stages with
    | nil => exact .inl trivial
    | cons E rest => exact .inr ⟨E, rest, h⟩
  | cons turn turns ih =>
    cases stages with
    | nil => exact .inl trivial
    | cons E rest =>
      by_cases hown : ∃ op next, turn = .run i ∧ p.awaits i op next
      · obtain ⟨op, next, rfl, hawaits⟩ := hown
        have hthread : ∀ c ∈ (p.take exec recover (.run i)).thread i, c = next p.state := by
          intro c hc
          rw [take_run hawaits] at hc
          dsimp only at hc
          rw [Function.update_self] at hc
          exact (Option.some.inj hc).symm
        rcases (h _ hawaits).2 p.state with ⟨hE, hnext⟩ | hnext
        · have hlater : ∀ c ∈ (p.take exec recover (.run i)).thread i, c.Staged W R (rest p.state) := by
            intro c hc
            rw [hthread c hc]
            exact hnext
          rcases ih hlater with hcame | hstaged
          · exact .inl ⟨[], turns, rfl, ⟨op, hawaits.nextOp, hE⟩, hcame⟩
          · exact .inr hstaged
        · have hstill : ∀ c ∈ (p.take exec recover (.run i)).thread i, c.Staged W R (.cons E rest) := by
            intro c hc
            rw [hthread c hc]
            exact hnext
          rcases ih hstill with hcame | hstaged
          · exact .inl hcame.cons
          · exact .inr hstaged
      · have hkept : ∀ c ∈ (p.take exec recover turn).thread i, c ∈ p.thread i := by
          intro c hc
          rcases mem_thread_take hc with hc | ⟨rfl, op, next, hawaits, -⟩
          · exact hc
          · exact absurd ⟨op, next, rfl, hawaits⟩ hown
        rcases ih (fun c hc => h c (hkept c hc)) with hcame | hstaged
        · exact .inl hcame.cons
        · exact .inr hstaged

/-- Whoever is at an operation of the kind has come by the stages. -/
theorem came_of_awaits {turns : List (Turn ι)} {op : Op} {next : σ → Coro σ Op ε α}
    (h : ∀ c ∈ p.thread i, c.Staged W R stages) (hawaits : (p.run exec recover turns).awaits i op next)
    (hop : W op) : p.Came exec recover i stages turns := by
  rcases came_or_staged turns h with hcame | ⟨E, rest, hstaged⟩
  · exact hcame
  · exact absurd hop (hstaged _ hawaits).1

/-- Whoever has returned a result of the kind has come by the stages. -/
theorem came_of_returned {turns : List (Turn ι)} {a : α} (h : ∀ c ∈ p.thread i, c.Staged W R stages)
    (hreturned : (p.run exec recover turns).returned i a) (ha : R a) : p.Came exec recover i stages turns := by
  rcases came_or_staged turns h with hcame | ⟨E, rest, hstaged⟩
  · exact hcame
  · exact absurd ha (hstaged _ hreturned)

/-! ### Turns without a crash -/

theorem begun_take {turn : Turn ι} (h : p.begun i = true) : (p.take exec recover turn).begun i = true := by
  cases turn with
  | run j =>
    by_cases hawaits : ∃ op next, p.awaits j op next
    · obtain ⟨op, next, hawaits⟩ := hawaits
      rw [take_run hawaits]
      by_cases hj : i = j
      · subst hj
        exact Function.update_self ..
      · exact (Function.update_of_ne hj ..).trans h
    · push Not at hawaits
      rwa [take_run_of_not_awaits hawaits]
  | cancel j =>
    by_cases hj : i = j
    · subst hj
      exact Function.update_self ..
    · exact (Function.update_of_ne hj ..).trans h
  | crash => exact h

theorem begun_run {turns : List (Turn ι)} (h : p.begun i = true) : (p.run exec recover turns).begun i = true := by
  induction turns generalizing p with
  | nil => exact h
  | cons turn turns ih => exact ih (begun_take h)

/-- A coroutine that has not begun is as it was. -/
theorem thread_run_of_not_begun {turns : List (Turn ι)} (h : (p.run exec recover turns).begun i = false) :
    (p.run exec recover turns).thread i = p.thread i := by
  induction turns generalizing p with
  | nil => rfl
  | cons turn turns ih =>
    rw [run_cons, ih h]
    have hnot : (p.take exec recover turn).begun i = false := by
      cases hbegun : (p.take exec recover turn).begun i with
      | false => rfl
      | true => rw [run_cons, begun_run hbegun] at h; cases h
    cases turn with
    | run j =>
      by_cases hawaits : ∃ op next, p.awaits j op next
      · obtain ⟨op, next, hawaits⟩ := hawaits
        rw [take_run hawaits] at hnot ⊢
        dsimp only at hnot ⊢
        by_cases hj : i = j
        · subst hj
          rw [Function.update_self] at hnot
          cases hnot
        · exact Function.update_of_ne hj ..
      · push Not at hawaits
        rw [take_run_of_not_awaits hawaits]
    | cancel j =>
      dsimp only [take] at hnot ⊢
      by_cases hj : i = j
      · subst hj
        rw [Function.update_self] at hnot
        cases hnot
      · exact Function.update_of_ne hj ..
    | crash =>
      change (p.thread i).bind (survive (p.begun i)) = p.thread i
      rw [show p.begun i = false from hnot]
      cases hthread : p.thread i with
      | none => rfl
      | some c => cases c <;> rfl

theorem begun_of_nextOp {op : Op} (h : op ∈ p.nextOp i) : (p.take exec recover (.run i)).begun i = true := by
  obtain ⟨next, hawaits⟩ := exists_awaits h
  rw [take_run hawaits]
  exact Function.update_self ..

/-- What has ended does not go on. -/
theorem not_awaits_run {turns : List (Turn ι)} (h : ∀ op next, ¬ p.awaits i op next) (op : Op)
    (next : σ → Coro σ Op ε α) : ¬ (p.run exec recover turns).awaits i op next := by
  induction turns generalizing p with
  | nil => exact h op next
  | cons turn turns ih =>
    refine ih fun op next hawaits => ?_
    rcases mem_thread_take hawaits with hthread | ⟨-, op, next, hawaits, -⟩
    · exact h _ _ hthread
    · exact h _ _ hawaits

/-- Whoever has begun and is still at an operation has seen no crash. -/
theorem not_crash_of_awaits {turns : List (Turn ι)} {op : Op} {next : σ → Coro σ Op ε α}
    (hbegun : p.begun i = true) (h : (p.run exec recover turns).awaits i op next) : .crash ∉ turns := by
  induction turns generalizing p with
  | nil => exact List.not_mem_nil
  | cons turn turns ih =>
    rw [List.mem_cons, not_or]
    refine ⟨?_, ih (begun_take hbegun) h⟩
    rintro rfl
    refine not_awaits_run (p := p.take exec recover .crash) (fun op next hawaits => ?_) op next h
    have hleft : (p.thread i).bind (survive (p.begun i)) = some (.await op next) := hawaits
    obtain ⟨c, hc, hsurvive⟩ := Option.bind_eq_some_iff.mp hleft
    rw [hbegun] at hsurvive
    obtain ⟨rfl, hleft⟩ := mem_of_mem_survive hsurvive
    rcases hleft with hleft | hleft
    · cases hleft
    · exact hleft _ _ rfl

/-- Between two of its operations a coroutine sees no crash. -/
theorem not_crash_of_nextOp {turns : List (Turn ι)} {op op' : Op} (h : op ∈ p.nextOp i)
    (h' : op' ∈ (p.run exec recover (.run i :: turns)).nextOp i) : .crash ∉ (.run i :: turns : List (Turn ι)) := by
  rw [List.mem_cons, not_or]
  obtain ⟨next, hawaits⟩ := exists_awaits h'
  exact ⟨fun h => (by cases h), not_crash_of_awaits (begun_of_nextOp h) hawaits⟩

theorem state_take_run {op : Op} (h : op ∈ p.nextOp i) : (p.take exec recover (.run i)).state = exec op p.state := by
  obtain ⟨next, hawaits⟩ := exists_awaits h
  rw [take_run hawaits]

/-- Between crashes every operation's effect adds up. -/
theorem rel_run_of_not_crash {P : ι → Op → Prop} {G : σ → ι → Op → Prop} {R : σ → σ → Prop} (hrefl : ∀ s, R s s)
    (htrans : ∀ s t u, R s t → R t u → R s u) (hop : ∀ i op s, P i op → G s i op → R s (exec op s))
    {turns : List (Turn ι)} (heach : Each P p) (hG : Along exec recover G p turns) (hturns : .crash ∉ turns) :
    R p.state (p.run exec recover turns).state := by
  induction turns generalizing p with
  | nil => exact hrefl _
  | cons turn turns ih =>
    rw [List.mem_cons, not_or] at hturns
    cases turn with
    | run i =>
      refine htrans _ _ _ ?_ (ih (heach.take _) hG.2 hturns.2)
      by_cases hawaits : ∃ op next, p.awaits i op next
      · obtain ⟨op, next, hawaits⟩ := hawaits
        rw [take_run hawaits]
        exact hop i op p.state (heach i _ hawaits).1 (hG.1 op hawaits.nextOp)
      · push Not at hawaits
        rw [take_run_of_not_awaits hawaits]
        exact hrefl _
    | cancel i => exact ih (heach.take _) hG hturns.2
    | crash => exact absurd rfl hturns.1

end Pool

end Krewhub
