import Krewhub.Base.Interleave

/-!
# A coroutine among others

What a coroutine shows at its operations and leaves at its end, where the others may change the state before
each of them. The others keep to a relation, an operation may ask something of the state it meets, and what it
then shows there is what the coroutine is for. A pool keeps an invariant of the state and of what is left of each
coroutine, where every turn keeps it.
-/

namespace Krewhub

namespace Coro

variable {σ τ Op Op' ε α β : Type}

section Among

variable (view : τ → σ) (exec : Op → τ → τ) (env : τ → τ → Prop) (met shows : τ → Op → Prop)

/-- From the state on, whatever the others do to it in between: an operation that meets what it asks for shows
what it has to, and where the coroutine returns, `post` holds. -/
def Among (post : α → τ → Prop) : Coro σ Op ε α → τ → Prop
  | .done a, t => ∀ t', env t t' → post a t'
  | .raise _, _ => True
  | .await op next, t =>
    ∀ t', env t t' → met t' op → shows t' op ∧ (next (view t')).Among post (exec op t')

variable {view exec env met shows} {post : β → τ → Prop} {t : τ}

/-- What the others do comes before whatever is left of the coroutine. -/
theorem Among.after [IsPreorder τ env] {c : Coro σ Op ε β} {t' : τ}
    (h : c.Among view exec env met shows post t) (henv : env t t') :
    c.Among view exec env met shows post t' := by
  cases c with
  | done a => exact fun t'' henv' => h t'' (trans_of env henv henv')
  | raise e => trivial
  | await op next => exact fun t'' henv' => h t'' (trans_of env henv henv')

theorem Among.bind [IsPreorder τ env] {mid : α → τ → Prop} {c : Coro σ Op ε α} {f : α → Coro σ Op ε β}
    (hc : c.Among view exec env met shows mid t)
    (hf : ∀ a t', mid a t' → (f a).Among view exec env met shows post t') :
    (c >>= f).Among view exec env met shows post t := by
  induction c generalizing t with
  | done a => exact hf a t (hc t (refl_of env t))
  | raise e => trivial
  | await op next ih =>
    intro t' henv hmet
    obtain ⟨hshows, hnext⟩ := hc t' henv hmet
    exact ⟨hshows, ih (view t') hnext⟩

theorem Among.ite {p : Prop} [Decidable p] {c d : Coro σ Op ε β}
    (hc : p → c.Among view exec env met shows post t) (hd : ¬ p → d.Among view exec env met shows post t) :
    (if p then c else d).Among view exec env met shows post t := by
  by_cases hp : p
  · rw [if_pos hp]
    exact hc hp
  · rw [if_neg hp]
    exact hd hp

/-- One operation, where the others keep what is known of the state. -/
theorem Among.perform_bind {I : τ → Prop} {op : Op} {read : σ → α} {f : α → Coro σ Op ε β}
    (hI : ∀ t', env t t' → I t')
    (hop : ∀ t', I t' → met t' op → shows t' op ∧
      (f (read (view t'))).Among view exec env met shows post (exec op t')) :
    (perform op read >>= f).Among view exec env met shows post t :=
  fun t' henv hmet => hop t' (hI t' henv) hmet

/-- Operations that keep what is known of the state. -/
theorem Among.of_every {P : Op → Prop} {I : τ → Prop} {c : Coro σ Op ε β} (hc : c.Every P)
    (henv : ∀ t t', env t t' → I t → I t')
    (hop : ∀ op t, P op → I t → met t op → shows t op ∧ I (exec op t)) (hI : I t) :
    c.Among view exec env met shows (fun _ => I) t := by
  induction c generalizing t with
  | done a => exact fun t' hturn => henv t t' hturn hI
  | raise e => trivial
  | await op next ih =>
    intro t' hturn hmet
    obtain ⟨hshows, hkept⟩ := hop op t' hc.1 (henv t t' hturn hI) hmet
    exact ⟨hshows, ih (view t') (hc.2 _) hkept⟩

/-- A coroutine within a larger one. -/
theorem Among.within {label : Op → Op'} {exec' : Op' → τ → τ} {met' shows' : τ → Op' → Prop} {c : Coro σ Op ε β}
    (h : c.Among view (fun op => exec' (label op)) env (fun t op => met' t (label op))
      (fun t op => shows' t (label op)) post t) :
    (c.within view label).Among id exec' env met' shows' post t := by
  induction c generalizing t with
  | done a => exact h
  | raise e => trivial
  | await op next ih =>
    intro t' henv hmet
    obtain ⟨hshows, hnext⟩ := h t' henv hmet
    exact ⟨hshows, ih (view t') hnext⟩

end Among

end Coro

namespace Pool

variable {ι σ Op ε α : Type} [DecidableEq ι] {exec : Op → σ → σ} {recover : σ → σ} {p : Pool ι σ Op ε α}
  {G : σ → ι → Op → Prop} {K : σ → Prop}

/-- An invariant of the state and of what is left of the coroutines. It is kept where a coroutine goes away. -/
theorem inv_threads {I : σ → (ι → Option (Coro σ Op ε α)) → Prop}
    (hdrop : ∀ s thread thread', (∀ i, ∀ c ∈ thread' i, c ∈ thread i) → I s thread → I s thread')
    (hop : ∀ s thread i op next, I s thread → thread i = some (.await op next) → G s i op →
      I (exec op s) (Function.update thread i (some (next s))))
    (hcrash : ∀ s thread, I s thread → K s → I (recover s) thread) {turns : List (Turn ι)}
    (hI : I p.state p.thread) (hG : Along exec recover G p turns) (hK : CrashesMeet exec recover K p turns) :
    I (p.run exec recover turns).state (p.run exec recover turns).thread := by
  induction turns generalizing p with
  | nil => exact hI
  | cons turn turns ih =>
    cases turn with
    | run i =>
      refine ih ?_ hG.2 hK
      by_cases hawaits : ∃ op next, p.awaits i op next
      · obtain ⟨op, next, hawaits⟩ := hawaits
        rw [take_run hawaits]
        exact hop p.state p.thread i op next hI hawaits (hG.1 op hawaits.nextOp)
      · push Not at hawaits
        rwa [take_run_of_not_awaits hawaits]
    | cancel i =>
      refine ih (hdrop _ _ _ (fun j c hc => ?_) hI) hG hK
      dsimp only [take] at hc
      by_cases hj : j = i
      · subst hj
        rw [Function.update_self] at hc
        cases hc
      · rwa [Function.update_of_ne hj] at hc
    | crash =>
      refine ih (hcrash _ _ (hdrop _ _ _ (fun j c hc => ?_) hI) hK.1) hG hK.2
      obtain ⟨c', hc', hsurvive⟩ := Option.bind_eq_some_iff.mp hc
      rw [(mem_of_mem_survive hsurvive).1]
      exact hc'

end Pool

end Krewhub
