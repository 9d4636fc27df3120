import Krewhub.Base.Stages

/-!
# Calls that take effect at one turn

A call of several operations that does what it does at one of them. What the others do to the state in between is
relied on to keep to a relation, and what is seen of the state changes at no other operation of the call; from
then on it is settled what the call answers, if it answers. Where something changes and the call answers, an
operation has come after that which makes the change last.

In a pool of such calls whatever is seen of the state changes only as one of the calls says, and every call that
has answered has taken effect at exactly one of its turns. So what is seen is what one call after the other would
have made of it, in the order of these turns.
-/

namespace Krewhub

/-- What the operations do, what the others are relied on for, what an operation is promised of the state it meets,
what is seen of a state, and which operations make it last. -/
structure Effects (σ Op A : Type) where
  exec : Op → σ → σ
  env : σ → σ → Prop
  met : σ → Op → Prop
  view : σ → A
  lasts : Op → Prop

/-- The operation changes nothing that is seen. -/
def Effects.Quiet {σ Op A : Type} (E : Effects σ Op A) (op : Op) (s : σ) : Prop := E.view (E.exec op s) = E.view s

namespace Coro

variable {σ Op ε α β A : Type} (E : Effects σ Op A)

/-- Nothing changes any more, and only an answer with `Q` is given; if something has yet to be made to last, only
after that. -/
def Settled (Q : α → Prop) : Coro σ Op ε α → Bool → σ → Prop
  | .done a, owed, _ => owed = false ∧ Q a
  | .raise _, _, _ => True
  | .await op next, owed, s => ∀ s', E.env s s' → E.met s' op → E.Quiet op s' ∧
    ((next s').Settled Q owed (E.exec op s') ∨ E.lasts op ∧ (next s').Settled Q false (E.exec op s'))

/-- One operation has the effect `D`, and the answer is as `T` says for what was seen before and after it; all others
change nothing. -/
def Atomic (D : A → A → Prop) (T : A → A → α → Prop) : Coro σ Op ε α → σ → Prop
  | .done _, _ => False
  | .raise _, _ => True
  | .await op next, s => ∀ s', E.env s s' → E.met s' op →
    E.Quiet op s' ∧ (next s').Atomic D T (E.exec op s') ∨
      ∃ owed, (owed = true ∧ D (E.view s') (E.view (E.exec op s')) ∨ owed = false ∧ E.Quiet op s') ∧
        (next s').Settled E (T (E.view s') (E.view (E.exec op s'))) owed (E.exec op s')

section Atomic

variable {E} {Q : α → Prop} {D : A → A → Prop} {T : A → A → α → Prop} {c : Coro σ Op ε α} {owed : Bool} {s t : σ}

theorem Settled.after (htrans : ∀ s t u, E.env s t → E.env t u → E.env s u) (h : c.Settled E Q owed s)
    (henv : E.env s t) : c.Settled E Q owed t := by
  cases c with
  | done a => exact h
  | raise e => trivial
  | await op next => exact fun s' henv' => h s' (htrans _ _ _ henv henv')

theorem Atomic.after (htrans : ∀ s t u, E.env s t → E.env t u → E.env s u) (h : c.Atomic E D T s)
    (henv : E.env s t) : c.Atomic E D T t := by
  cases c with
  | done a => exact h
  | raise e => trivial
  | await op next => exact fun s' henv' => h s' (htrans _ _ _ henv henv')

/-- An operation, and what follows for what is read off the state it meets. -/
theorem Atomic.perform_bind {op : Op} {read : σ → β} {f : β → Coro σ Op ε α}
    (h : ∀ s', E.env s s' → E.met s' op →
      E.Quiet op s' ∧ (f (read s')).Atomic E D T (E.exec op s') ∨
        ∃ owed, (owed = true ∧ D (E.view s') (E.view (E.exec op s')) ∨ owed = false ∧ E.Quiet op s') ∧
          (f (read s')).Settled E (T (E.view s') (E.view (E.exec op s'))) owed (E.exec op s')) :
    (perform op read >>= f).Atomic E D T s := h

/-- What is made of the answer at the end. -/
theorem Settled.map {f : α → β} {Q' : β → Prop} (h : c.Settled E Q owed s) (hQ : ∀ a, Q a → Q' (f a)) :
    (c >>= fun a => .done (f a)).Settled E Q' owed s := by
  induction c generalizing owed s with
  | done a => exact ⟨h.1, hQ a h.2⟩
  | raise e => trivial
  | await op next ih =>
    intro s' henv hmet
    obtain ⟨hquiet, hnext⟩ := h s' henv hmet
    exact ⟨hquiet, hnext.imp (ih s') fun hlast => ⟨hlast.1, ih s' hlast.2⟩⟩

theorem Atomic.map {f : α → β} {T' : A → A → β → Prop} (h : c.Atomic E D T s)
    (hT : ∀ v v' a, T v v' a → T' v v' (f a)) : (c >>= fun a => .done (f a)).Atomic E D T' s := by
  induction c generalizing s with
  | done a => exact h
  | raise e => trivial
  | await op next ih =>
    intro s' henv hmet
    rcases h s' henv hmet with ⟨hquiet, hnext⟩ | ⟨owed, heffect, hnext⟩
    · exact .inl ⟨hquiet, ih s' hnext⟩
    · exact .inr ⟨owed, heffect, hnext.map fun a => hT _ _ a⟩

end Atomic

end Coro

namespace Pool

variable {ι σ Op ε α A : Type} [DecidableEq ι]

/-- What the operations of a pool are relied on for. -/
structure Relies (E : Effects σ Op A) (recover : σ → σ) (I : σ → Prop) (P : ι → Op → Prop) : Prop where
  refl : ∀ s, I s → E.env s s
  trans : ∀ s t u, E.env s t → E.env t u → E.env s u
  step : ∀ i op s, P i op → I s → E.met s op → E.env s (E.exec op s) ∧ I (E.exec op s)
  recover : ∀ s, I s → I (recover s)

section Defs

variable (E : Effects σ Op A) (recover : σ → σ)

/-- The next turn of the coroutine changes nothing that is seen. -/
def QuietAfter (p : Pool ι σ Op ε α) (i : ι) (turns : List (Turn ι)) : Prop :=
  E.view (p.run E.exec recover (turns ++ [.run i])).state = E.view (p.run E.exec recover turns).state

/-- The coroutine has had its effect at one turn of its own and at no other, and where that changed what is seen, has
since made it last. -/
def TookEffect (p : Pool ι σ Op ε α) (i : ι) (T : A → A → Prop) (turns : List (Turn ι)) : Prop :=
  ∃ before after, turns = before ++ .run i :: after ∧
    T (E.view (p.run E.exec recover before).state) (E.view (p.run E.exec recover (before ++ [.run i])).state) ∧
    (∀ before' after', turns = before' ++ .run i :: after' → before' ≠ before → p.QuietAfter E recover i before') ∧
    (p.QuietAfter E recover i before ∨ ∃ mid later, after = mid ++ .run i :: later ∧ .crash ∉ mid ∧
      ∃ op ∈ (p.run E.exec recover (before ++ .run i :: mid)).nextOp i, E.lasts op)

end Defs

theorem TookEffect.imp {E : Effects σ Op A} {recover : σ → σ} {p : Pool ι σ Op ε α} {i : ι} {T T' : A → A → Prop}
    {turns : List (Turn ι)} (h : p.TookEffect E recover i T turns) (hT : ∀ v v', T v v' → T' v v') :
    p.TookEffect E recover i T' turns := by
  obtain ⟨before, after, hturns, heffect, hrest⟩ := h
  exact ⟨before, after, hturns, hT _ _ heffect, hrest⟩

variable {E : Effects σ Op A} {recover : σ → σ} {I : σ → Prop} {P : ι → Op → Prop} {p : Pool ι σ Op ε α} {i : ι}
  {D : A → A → Prop} {T : A → A → α → Prop} {Q : α → Prop} {owed : Bool} {turn : Turn ι} {turns : List (Turn ι)}

/-! ### One turn -/

section Turn

variable (hrelies : Relies E recover I P) (heach : Each P p) (hI : I p.state)
  (hmet : Along E.exec recover (fun s _ op => E.met s op) p [turn])
include hrelies heach hI hmet

theorem inv_take : I (p.take E.exec recover turn).state := by
  cases turn with
  | run j =>
    by_cases hawaits : ∃ op next, p.awaits j op next
    · obtain ⟨op, next, hawaits⟩ := hawaits
      rw [take_run hawaits]
      exact (hrelies.step j op _ (heach j _ hawaits).1 hI (hmet.1 op hawaits.nextOp)).2
    · push Not at hawaits
      rwa [take_run_of_not_awaits hawaits]
  | cancel j => exact hI
  | crash => exact hrelies.recover _ hI

theorem env_take (hturn : turn ≠ .crash) : E.env p.state (p.take E.exec recover turn).state := by
  cases turn with
  | run j =>
    by_cases hawaits : ∃ op next, p.awaits j op next
    · obtain ⟨op, next, hawaits⟩ := hawaits
      rw [take_run hawaits]
      exact (hrelies.step j op _ (heach j _ hawaits).1 hI (hmet.1 op hawaits.nextOp)).1
    · push Not at hawaits
      rw [take_run_of_not_awaits hawaits]
      exact hrelies.refl _ hI
  | cancel j => exact hrelies.refl _ hI
  | crash => exact absurd rfl hturn

/-- A turn of a coroutine that has had its effect. -/
theorem settled_take (hbegun : p.begun i = true) (h : ∀ c ∈ p.thread i, c.Settled E Q owed p.state) :
    (turn = .run i → p.QuietAfter E recover i []) ∧
      ∃ owed', (∀ c ∈ (p.take E.exec recover turn).thread i,
        c.Settled E Q owed' (p.take E.exec recover turn).state) ∧
        (owed' = owed ∨ turn = .run i ∧ ∃ op ∈ p.nextOp i, E.lasts op) := by
  by_cases hown : ∃ op next, turn = .run i ∧ p.awaits i op next
  · obtain ⟨op, next, rfl, hawaits⟩ := hown
    have hstate : (p.take E.exec recover (.run i)).state = E.exec op p.state := state_take_run hawaits.nextOp
    have hthread : ∀ c ∈ (p.take E.exec recover (.run i)).thread i, c = next p.state := by
      intro c hc
      rw [take_run hawaits] at hc
      dsimp only at hc
      rw [Function.update_self] at hc
      exact (Option.some.inj hc).symm
    obtain ⟨hquiet, hnext⟩ := h _ hawaits p.state (hrelies.refl _ hI) (hmet.1 op hawaits.nextOp)
    refine ⟨fun _ => ?_, ?_⟩
    · change E.view (p.take E.exec recover (.run i)).state = E.view p.state
      rw [hstate]
      exact hquiet
    · rcases hnext with hnext | ⟨hlasts, hnext⟩
      · refine ⟨owed, fun c hc => ?_, .inl rfl⟩
        rw [hthread c hc, hstate]
        exact hnext
      · refine ⟨false, fun c hc => ?_, .inr ⟨rfl, op, hawaits.nextOp, hlasts⟩⟩
        rw [hthread c hc, hstate]
        exact hnext
  · have hkept : ∀ c ∈ (p.take E.exec recover turn).thread i, c ∈ p.thread i := by
      intro c hc
      rcases mem_thread_take hc with hc | ⟨rfl, op, next, hawaits, -⟩
      · exact hc
      · exact absurd ⟨op, next, rfl, hawaits⟩ hown
    refine ⟨?_, owed, fun c hc => ?_, .inl rfl⟩
    · rintro rfl
      have hsame : p.take E.exec recover (.run i) = p :=
        take_run_of_not_awaits fun op next hawaits => hown ⟨op, next, rfl, hawaits⟩
      change E.view (p.take E.exec recover (.run i)).state = E.view p.state
      rw [hsame]
    · by_cases hcrash : turn = .crash
      · subst hcrash
        obtain ⟨c', hc', hsurvive⟩ := Option.bind_eq_some_iff.mp hc
        rw [hbegun] at hsurvive
        obtain ⟨rfl, hleft⟩ := mem_of_mem_survive hsurvive
        have hsettled := h c hc'
        cases c with
        | done a => exact hsettled
        | raise e => trivial
        | await op next => exact (hleft.elim (fun h => by cases h) fun h => absurd rfl (h op next))
      · exact (h c (hkept c hc)).after hrelies.trans (env_take hrelies heach hI hmet hcrash)

/-- The coroutine has yet to take effect, from wherever it is, or may begin anywhere. -/
def Pending (E : Effects σ Op A) (I : σ → Prop) (D : A → A → Prop) (T : A → A → α → Prop) (p : Pool ι σ Op ε α)
    (i : ι) : Prop :=
  ∀ c ∈ p.thread i, c.Atomic E D T p.state ∧ (p.begun i = false → ∀ s, I s → c.Atomic E D T s)

/-- A turn of a coroutine that has yet to take effect. -/
theorem pending_take (h : p.Pending E I D T i) :
    (turn = .run i → p.QuietAfter E recover i []) ∧ (p.take E.exec recover turn).Pending E I D T i ∨
      turn = .run i ∧ (p.take E.exec recover turn).begun i = true ∧
        ∃ owed, (owed = true ∧ D (E.view p.state) (E.view (p.take E.exec recover turn).state) ∨
          owed = false ∧ p.QuietAfter E recover i []) ∧
          ∀ c ∈ (p.take E.exec recover turn).thread i,
            c.Settled E (T (E.view p.state) (E.view (p.take E.exec recover turn).state)) owed
              (p.take E.exec recover turn).state := by
  by_cases hown : ∃ op next, turn = .run i ∧ p.awaits i op next
  · obtain ⟨op, next, rfl, hawaits⟩ := hown
    have hstate : (p.take E.exec recover (.run i)).state = E.exec op p.state := state_take_run hawaits.nextOp
    have hbegun : (p.take E.exec recover (.run i)).begun i = true := begun_of_nextOp hawaits.nextOp
    have hthread : ∀ c ∈ (p.take E.exec recover (.run i)).thread i, c = next p.state := by
      intro c hc
      rw [take_run hawaits] at hc
      dsimp only at hc
      rw [Function.update_self] at hc
      exact (Option.some.inj hc).symm
    have hquiet : E.Quiet op p.state → p.QuietAfter E recover i [] := by
      intro hquiet
      change E.view (p.take E.exec recover (.run i)).state = E.view p.state
      rw [hstate]
      exact hquiet
    rcases (h _ hawaits).1 p.state (hrelies.refl _ hI) (hmet.1 op hawaits.nextOp) with
      ⟨hsame, hnext⟩ | ⟨owed, heffect, hnext⟩
    · refine .inl ⟨fun _ => hquiet hsame, fun c hc => ?_⟩
      rw [hthread c hc, hstate, hbegun]
      exact ⟨hnext, fun h => by cases h⟩
    · refine .inr ⟨rfl, hbegun, owed, ?_, fun c hc => ?_⟩
      · rw [hstate]
        exact heffect.imp_right fun hsame => ⟨hsame.1, hquiet hsame.2⟩
      · rw [hthread c hc, hstate]
        exact hnext
  · have hkept : ∀ c ∈ (p.take E.exec recover turn).thread i, c ∈ p.thread i := by
      intro c hc
      rcases mem_thread_take hc with hc | ⟨rfl, op, next, hawaits, -⟩
      · exact hc
      · exact absurd ⟨op, next, rfl, hawaits⟩ hown
    refine .inl ⟨?_, fun c hc => ?_⟩
    · rintro rfl
      have hsame : p.take E.exec recover (.run i) = p :=
        take_run_of_not_awaits fun op next hawaits => hown ⟨op, next, rfl, hawaits⟩
      change E.view (p.take E.exec recover (.run i)).state = E.view p.state
      rw [hsame]
    · obtain ⟨hatomic, hanywhere⟩ := h c (hkept c hc)
      have hbegun : (p.take E.exec recover turn).begun i = false → p.begun i = false := by
        intro hnot
        cases hbegun : p.begun i with
        | false => rfl
        | true => rw [begun_take hbegun] at hnot; cases hnot
      refine ⟨?_, fun hnot => hanywhere (hbegun hnot)⟩
      by_cases hcrash : turn = .crash
      · subst hcrash
        obtain ⟨c', hc', hsurvive⟩ := Option.bind_eq_some_iff.mp hc
        obtain ⟨rfl, hleft⟩ := mem_of_mem_survive hsurvive
        rcases hleft with hnot | hended
        · exact hanywhere hnot _ (inv_take hrelies heach hI hmet)
        · cases c with
          | done a => exact hatomic
          | raise e => trivial
          | await op next => exact absurd rfl (hended op next)
      · exact hatomic.after hrelies.trans (env_take hrelies heach hI hmet hcrash)

end Turn

/-! ### Runs -/

theorem along_cons {exec : Op → σ → σ} {G : σ → ι → Op → Prop} {turn : Turn ι} :
    Along exec recover G p (turn :: turns) ↔
      Along exec recover G p [turn] ∧ Along exec recover G (p.take exec recover turn) turns := by
  rw [← List.singleton_append, along_append]
  rfl

section Run

variable (hrelies : Relies E recover I P) (heach : Each P p) (hI : I p.state)
  (hmet : Along E.exec recover (fun s _ op => E.met s op) p turns)
include hrelies heach hI hmet

/-- Nothing changes any more at the turns of a coroutine that has had its effect. -/
theorem settled_run (hbegun : p.begun i = true) (h : ∀ c ∈ p.thread i, c.Settled E Q owed p.state) :
    (∀ before after, turns = before ++ .run i :: after → p.QuietAfter E recover i before) ∧
      ∃ owed', (∀ c ∈ (p.run E.exec recover turns).thread i,
        c.Settled E Q owed' (p.run E.exec recover turns).state) ∧
        (owed' = owed ∨ ∃ mid later, turns = mid ++ .run i :: later ∧
          ∃ op ∈ (p.run E.exec recover mid).nextOp i, E.lasts op) := by
  induction turns generalizing p owed with
  | nil => exact ⟨fun before after h => absurd h.symm (List.append_ne_nil_of_right_ne_nil _ (List.cons_ne_nil _ _)),
      owed, h, .inl rfl⟩
  | cons turn turns ih =>
    have hsplit := along_cons.mp hmet
    obtain ⟨hquiet, owed', hthread, howed⟩ := settled_take hrelies heach hI hsplit.1 hbegun h
    obtain ⟨hquiets, owed'', hend, howed'⟩ :=
      ih (heach.take _) (inv_take hrelies heach hI hsplit.1) hsplit.2 (begun_take hbegun) hthread
    refine ⟨fun before after hturns => ?_, owed'', hend, ?_⟩
    · cases before with
      | nil => exact hquiet (List.cons.inj hturns).1
      | cons first before =>
        obtain ⟨rfl, hrest⟩ := List.cons.inj hturns
        exact hquiets before after hrest
    · rcases howed' with rfl | ⟨mid, later, hturns, hlasts⟩
      · rcases howed with rfl | ⟨rfl, hlasts⟩
        · exact .inl rfl
        · exact .inr ⟨[], turns, rfl, hlasts⟩
      · exact .inr ⟨turn :: mid, later, by rw [hturns, List.cons_append], hlasts⟩

/-- **Either nothing has changed at the turns of the coroutine, or it has had its effect at one of them and what it
answers is settled.** -/
theorem pending_or_settled (h : p.Pending E I D T i) :
    (∀ before after, turns = before ++ .run i :: after → p.QuietAfter E recover i before) ∧
        (p.run E.exec recover turns).Pending E I D T i ∨
      ∃ before after owed, turns = before ++ .run i :: after ∧
        (p.run E.exec recover (before ++ [.run i])).begun i = true ∧
        (∀ before' after', turns = before' ++ .run i :: after' → before' ≠ before →
          p.QuietAfter E recover i before') ∧
        (D (E.view (p.run E.exec recover before).state) (E.view (p.run E.exec recover (before ++ [.run i])).state) ∨
          p.QuietAfter E recover i before) ∧
        (∀ c ∈ (p.run E.exec recover turns).thread i,
          c.Settled E (T (E.view (p.run E.exec recover before).state)
            (E.view (p.run E.exec recover (before ++ [.run i])).state)) owed (p.run E.exec recover turns).state) ∧
        (owed = false → p.QuietAfter E recover i before ∨ ∃ mid later, after = mid ++ .run i :: later ∧
          ∃ op ∈ (p.run E.exec recover (before ++ .run i :: mid)).nextOp i, E.lasts op) := by
  induction turns generalizing p with
  | nil => exact .inl ⟨fun before after h =>
      absurd h.symm (List.append_ne_nil_of_right_ne_nil _ (List.cons_ne_nil _ _)), h⟩
  | cons turn turns ih =>
    have hsplit := along_cons.mp hmet
    have hinv := inv_take hrelies heach hI hsplit.1
    rcases pending_take hrelies heach hI hsplit.1 h with ⟨hquiet, hpending⟩ | ⟨rfl, hbegun, owed, heffect, hthread⟩
    · rcases ih (heach.take _) hinv hsplit.2 hpending with
        ⟨hquiets, hend⟩ | ⟨before, after, owed, hturns, hbegun, hquiets, heffect, hend, howed⟩
      · refine .inl ⟨fun before after hturns => ?_, hend⟩
        cases before with
        | nil => exact hquiet (List.cons.inj hturns).1
        | cons first before =>
          obtain ⟨rfl, hrest⟩ := List.cons.inj hturns
          exact hquiets before after hrest
      · refine .inr ⟨turn :: before, after, owed, by rw [hturns, List.cons_append], hbegun, ?_, heffect, hend, howed⟩
        intro before' after' hturns' hne
        cases before' with
        | nil => exact hquiet (List.cons.inj hturns').1
        | cons first before' =>
          obtain ⟨rfl, hrest⟩ := List.cons.inj hturns'
          exact hquiets before' after' hrest fun heq => hne (by rw [heq])
    · obtain ⟨hquiets, owed', hend, howed⟩ :=
        settled_run hrelies (heach.take _) hinv hsplit.2 hbegun hthread
      refine .inr ⟨[], turns, owed', rfl, hbegun, ?_, heffect.imp And.right And.right, hend, fun hfalse => ?_⟩
      · intro before' after' hturns' hne
        cases before' with
        | nil => exact absurd rfl hne
        | cons first before' =>
          obtain ⟨rfl, hrest⟩ := List.cons.inj hturns'
          exact hquiets before' after' hrest
      · rcases howed with rfl | hlasts
        · rcases heffect with ⟨htrue, -⟩ | ⟨-, hquiet⟩
          · rw [hfalse] at htrue
            cases htrue
          · exact .inl hquiet
        · exact .inr hlasts

theorem inv_of_relies : I (p.run E.exec recover turns).state := by
  induction turns generalizing p with
  | nil => exact hI
  | cons turn turns ih =>
    have hsplit := along_cons.mp hmet
    exact ih (heach.take _) (inv_take hrelies heach hI hsplit.1) hsplit.2

end Run

section Linear

variable {prog : ι → Coro σ Op ε α} {D : ι → A → A → Prop} {T : ι → A → A → α → Prop} {s : σ}

omit [DecidableEq ι] in
theorem pending_init (hatomic : ∀ t, I t → (prog i).Atomic E (D i) (T i) t) (hI : I s) :
    (init prog s).Pending E I (D i) (T i) i := by
  intro c hc
  rw [← Option.some.inj hc]
  exact ⟨hatomic s hI, fun _ => hatomic⟩

/-- **What is seen changes only at a turn of a call, and as that call says.** -/
theorem changed_by_effect (hrelies : Relies E recover I P) (hevery : ∀ i, (prog i).Every (P i))
    (hcalls : ∀ i, (∀ t, I t → (prog i).Atomic E (D i) (T i) t) ∨ ∀ op t, P i op → E.Quiet op t) (hI : I s)
    (hmet : Along E.exec recover (fun s _ op => E.met s op) (init prog s) turns) {before after : List (Turn ι)}
    (hturns : turns = before ++ turn :: after) (hturn : turn ≠ .crash) :
    E.view ((init prog s).run E.exec recover (before ++ [turn])).state =
        E.view ((init prog s).run E.exec recover before).state ∨
      ∃ i, turn = .run i ∧ D i (E.view ((init prog s).run E.exec recover before).state)
        (E.view ((init prog s).run E.exec recover (before ++ [turn])).state) := by
  subst hturns
  have heach : Each P (init prog s) := each_init hevery s
  cases turn with
  | crash => exact absurd rfl hturn
  | cancel i =>
    rw [run_snoc]
    exact .inl rfl
  | run i =>
    rcases hcalls i with hatomic | hquiet
    · rw [List.append_cons] at hmet
      have hupto := (along_append.mp hmet).1
      rcases pending_or_settled hrelies heach hI hupto (pending_init hatomic hI) with
        ⟨hquiets, -⟩ | ⟨before', after', owed, -, -, hquiets, heffect, -, -⟩
      · exact .inl (hquiets before [] rfl)
      · by_cases hbefore : before = before'
        · subst hbefore
          rcases heffect with heffect | hquiet
          · exact .inr ⟨i, rfl, heffect⟩
          · exact .inl hquiet
        · exact .inl (hquiets before [] rfl hbefore)
    · left
      rw [run_snoc]
      by_cases hawaits : ∃ op next, ((init prog s).run E.exec recover before).awaits i op next
      · obtain ⟨op, next, hawaits⟩ := hawaits
        rw [take_run hawaits]
        exact hquiet op _ (heach.run before i _ hawaits).1
      · push Not at hawaits
        rw [take_run_of_not_awaits hawaits]

/-- **A call that has answered has taken effect at exactly one of its turns.** -/
theorem tookEffect_of_returned (hrelies : Relies E recover I P) (hevery : ∀ i, (prog i).Every (P i))
    (hatomic : ∀ t, I t → (prog i).Atomic E (D i) (T i) t) (hI : I s)
    (hmet : Along E.exec recover (fun s _ op => E.met s op) (init prog s) turns) {a : α}
    (hreturned : ((init prog s).run E.exec recover turns).returned i a) :
    (init prog s).TookEffect E recover i (fun v v' => T i v v' a) turns := by
  rcases pending_or_settled hrelies (each_init hevery s) hI hmet (pending_init hatomic hI) with
    ⟨-, hpending⟩ | ⟨before, after, owed, hturns, hbegun, hquiets, -, hthread, howed⟩
  · exact (hpending _ hreturned).1.elim
  · obtain ⟨hfalse, hT⟩ := hthread _ hreturned
    refine ⟨before, after, hturns, hT, hquiets, (howed hfalse).imp_right ?_⟩
    rintro ⟨mid, later, hafter, op, hop, hlasts⟩
    obtain ⟨next, hawaits⟩ := exists_awaits hop
    refine ⟨mid, later, hafter, ?_, op, hop, hlasts⟩
    rw [List.append_cons, run_append] at hawaits
    exact not_crash_of_awaits hbegun hawaits

end Linear

end Pool

end Krewhub
