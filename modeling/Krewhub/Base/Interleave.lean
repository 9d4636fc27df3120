import Krewhub.Base.Coro
import Mathlib.Algebra.GroupWithZero.Nat

/-!
# Pools of coroutines

Coroutines on one state, of which any may take the next step. A schedule says whose turn it is; a turn
may also cancel a coroutine, or crash the process, which ends every coroutine that has begun and has
not returned and leaves of the state what `recover` keeps. A coroutine that has not begun yet is one
that starts later, so a schedule decides that as well.

Two rules carry properties over every schedule: `rel_run` for relations every operation respects, and
`inv_run` for invariants that need to know how far each coroutine has come. How far it has come is a
typestate: a protocol says which operations a coroutine may perform in which state, and a program
follows it.
-/

namespace Krewhub

/-! ### Typestates -/

/-- Which operations come next in a typestate, what they make of it, and what has been reached at the
end; `i` is the coroutine that follows the protocol. -/
structure Protocol (ι σ Op α Q : Type) where
  start : Q
  allowed : ι → Q → Op → Prop
  advance : Q → Op → σ → Q
  final : ι → Q → α → Prop

namespace Coro

variable {σ Op ε α β Q : Type}

/-- The coroutine keeps to a protocol from a typestate on, whatever it reads. -/
def Follows (allowed : Q → Op → Prop) (advance : Q → Op → σ → Q) (final : Q → α → Prop) (q : Q) :
    Coro σ Op ε α → Prop
  | .done a => final q a
  | .raise _ => True
  | .await op next =>
    allowed q op ∧ ∀ s, (next s).Follows allowed advance final (advance q op s)

section Follows

variable {allowed : Q → Op → Prop} {advance : Q → Op → σ → Q} {final : Q → β → Prop} {q : Q}

theorem Follows.bind {mid : Q → α → Prop} {c : Coro σ Op ε α} {f : α → Coro σ Op ε β}
    (hc : c.Follows allowed advance mid q)
    (hf : ∀ q' a, mid q' a → (f a).Follows allowed advance final q') :
    (c >>= f).Follows allowed advance final q := by
  induction c generalizing q with
  | done a => exact hf q a hc
  | raise e => trivial
  | await op next ih => exact ⟨hc.1, fun s => ih s (hc.2 s)⟩

theorem Follows.perform_bind {op : Op} {read : σ → α} {f : α → Coro σ Op ε β} (hop : allowed q op)
    (hf : ∀ s, (f (read s)).Follows allowed advance final (advance q op s)) :
    (perform op read >>= f).Follows allowed advance final q := ⟨hop, hf⟩

theorem Follows.ite {p : Prop} [Decidable p] {c d : Coro σ Op ε β}
    (hc : p → c.Follows allowed advance final q) (hd : ¬ p → d.Follows allowed advance final q) :
    (if p then c else d).Follows allowed advance final q := by
  by_cases hp : p
  · rw [if_pos hp]
    exact hc hp
  · rw [if_neg hp]
    exact hd hp

theorem Follows.mono {final' : Q → β → Prop} {c : Coro σ Op ε β}
    (hc : c.Follows allowed advance final q) (h : ∀ q' b, final q' b → final' q' b) :
    c.Follows allowed advance final' q := by
  induction c generalizing q with
  | done a => exact h q a hc
  | raise e => trivial
  | await op next ih => exact ⟨hc.1, fun s => ih s (hc.2 s)⟩

/-- Operations that are allowed in a typestate and keep it. -/
theorem Follows.of_every {P : Op → Prop} {c : Coro σ Op ε β} (hc : c.Every P)
    (hallowed : ∀ op, P op → allowed q op) (hkeep : ∀ op, P op → ∀ s, advance q op s = q)
    (hfinal : ∀ b, final q b) : c.Follows allowed advance final q := by
  induction c with
  | done a => exact hfinal a
  | raise e => trivial
  | await op next ih =>
    refine ⟨hallowed op hc.1, fun s => ?_⟩
    rw [hkeep op hc.1 s]
    exact ih s (hc.2 s)

/-- Operations that are allowed where a property of the typestate holds and keep the property. -/
theorem Follows.of_every_inv {P : Op → Prop} {J : Q → Prop} {c : Coro σ Op ε β} (hc : c.Every P)
    (hallowed : ∀ q op, J q → P op → allowed q op) (hkeep : ∀ q op s, J q → P op → J (advance q op s))
    (hJ : J q) : c.Follows allowed advance (fun q' _ => J q') q := by
  induction c generalizing q with
  | done a => exact hJ
  | raise e => trivial
  | await op next ih => exact ⟨hallowed q op hJ hc.1, fun s => ih s (hc.2 s) (hkeep q op s hJ hc.1)⟩

/-- Operations that are allowed in every typestate. -/
theorem Follows.of_every_free {P : Op → Prop} {c : Coro σ Op ε β} (hc : c.Every P)
    (hallowed : ∀ q op, P op → allowed q op) (hfinal : ∀ q b, final q b) :
    c.Follows allowed advance final q := by
  induction c generalizing q with
  | done a => exact hfinal q a
  | raise e => trivial
  | await op next ih => exact ⟨hallowed q op hc.1, fun s => ih s (hc.2 s)⟩

/-- Operations that keep the typestate, with the exceptions the coroutine may end with. -/
theorem Follows.attempt_of_every {P : Op → Prop} {E : ε → Prop} {c : Coro σ Op ε α}
    (hc : c.Every P) (hthrows : c.Throws E) (hallowed : ∀ op, P op → allowed q op)
    (hkeep : ∀ op, P op → ∀ s, advance q op s = q) :
    c.attempt.Follows allowed advance (fun q' r => q' = q ∧ ∀ e, r = .error e → E e) q := by
  induction c with
  | done a => exact ⟨rfl, fun e he => by cases he⟩
  | raise e =>
    refine ⟨rfl, fun e' he => ?_⟩
    cases he
    exact hthrows
  | await op next ih =>
    refine ⟨hallowed op hc.1, fun s => ?_⟩
    rw [hkeep op hc.1 s]
    exact ih s (hc.2 s) (hthrows s)

/-- A coroutine that is followed to its end, exceptions included, is followed to what it returns. -/
theorem Follows.of_attempt {final : Q → Except ε α → Prop} {c : Coro σ Op ε α}
    (hc : c.attempt.Follows allowed advance final q) :
    c.Follows allowed advance (fun q a => final q (.ok a)) q := by
  induction c generalizing q with
  | done a => exact hc
  | raise e => trivial
  | await op next ih => exact ⟨hc.1, fun s => ih s (hc.2 s)⟩

/-- A sequence follows the protocol when its first part does, to where its second part goes on or the
exception it ends with may. -/
theorem Follows.attempt_bind {M : Q → Except ε α → Prop} {final : Q → Except ε β → Prop}
    {c : Coro σ Op ε α} {f : α → Coro σ Op ε β} (hc : c.attempt.Follows allowed advance M q)
    (hok : ∀ q' a, M q' (.ok a) → (f a).attempt.Follows allowed advance final q')
    (herror : ∀ q' e, M q' (.error e) → final q' (.error e)) :
    (c >>= f).attempt.Follows allowed advance final q := by
  rw [Coro.attempt_bind]
  refine hc.bind fun q' r hr => ?_
  cases r with
  | ok a => exact hok q' a hr
  | error e => exact herror q' e hr

theorem Follows.attempt_perform_bind {final : Q → Except ε β → Prop} {op : Op} {read : σ → α}
    {f : α → Coro σ Op ε β} (hop : allowed q op)
    (hf : ∀ s, (f (read s)).attempt.Follows allowed advance final (advance q op s)) :
    (perform op read >>= f).attempt.Follows allowed advance final q := ⟨hop, hf⟩

/-- A sequence whose first part is caught goes on with whatever that ends with. -/
theorem Follows.attempt_bind_attempt {M : Q → Except ε α → Prop} {final : Q → Except ε β → Prop}
    {c : Coro σ Op ε α} {f : Except ε α → Coro σ Op ε β} (hc : c.attempt.Follows allowed advance M q)
    (hf : ∀ q' r, M q' r → (f r).attempt.Follows allowed advance final q') :
    (c.attempt >>= f).attempt.Follows allowed advance final q := by
  induction c generalizing q with
  | done a => exact hf q (.ok a) hc
  | raise e => exact hf q (.error e) hc
  | await op next ih => exact ⟨hc.1, fun s => ih s (hc.2 s)⟩

theorem Follows.attempt_ite {final : Q → Except ε α → Prop} {p : Prop} [Decidable p]
    {c d : Coro σ Op ε α} (hc : p → c.attempt.Follows allowed advance final q)
    (hd : ¬ p → d.attempt.Follows allowed advance final q) :
    (if p then c else d).attempt.Follows allowed advance final q := by
  rw [apply_ite Coro.attempt]
  exact .ite hc hd

theorem Follows.attempt_tryCatch {mid final : Q → Except ε α → Prop} {c : Coro σ Op ε α}
    {handler : ε → Option (Coro σ Op ε α)} (hc : c.attempt.Follows allowed advance mid q)
    (hok : ∀ q' a, mid q' (.ok a) → final q' (.ok a))
    (herror : ∀ q' e, mid q' (.error e) →
      ((handler e).getD (.raise e)).attempt.Follows allowed advance final q') :
    (c.tryCatch handler).attempt.Follows allowed advance final q := by
  rw [Coro.attempt_tryCatch]
  refine hc.bind fun q' r hr => ?_
  cases r with
  | ok a => exact hok q' a hr
  | error e => exact herror q' e hr

/-- A handler that follows the protocol from wherever the exception was raised. -/
theorem Follows.tryCatch {c : Coro σ Op ε β} {handler : ε → Option (Coro σ Op ε β)}
    (hc : c.Follows allowed advance final q)
    (hhandler : ∀ e q', ((handler e).getD (.raise e)).Follows allowed advance final q') :
    (c.tryCatch handler).Follows allowed advance final q := by
  induction c generalizing q with
  | done a => exact hc
  | raise e => exact hhandler e q
  | await op next ih => exact ⟨hc.1, fun s => ih s (hc.2 s)⟩

theorem Follows.on {τ : Type} {c : Coro σ Op ε β} (hc : c.Follows allowed advance final q)
    (view : τ → σ) :
    (c.on view).Follows allowed (fun q op t => advance q op (view t)) final q := by
  induction c generalizing q with
  | done a => exact hc
  | raise e => trivial
  | await op next ih => exact ⟨hc.1, fun t => ih (view t) (hc.2 (view t))⟩

/-- A coroutine within a larger one: its typestates, operations and results have counterparts there. -/
theorem Follows.within {τ Op' Q' : Type} {view : τ → σ} {label : Op → Op'} {allowed' : Q' → Op' → Prop}
    {advance' : Q' → Op' → τ → Q'} {final' : Q' → β → Prop} (embed : Q → Q') {c : Coro σ Op ε β}
    (hc : c.Follows allowed advance final q)
    (hallowed : ∀ q op, allowed q op → allowed' (embed q) (label op))
    (hadvance : ∀ q op t, advance' (embed q) (label op) t = embed (advance q op (view t)))
    (hfinal : ∀ q b, final q b → final' (embed q) b) :
    (c.within view label).Follows allowed' advance' final' (embed q) := by
  induction c generalizing q with
  | done a => exact hfinal q a hc
  | raise e => trivial
  | await op next ih =>
    refine ⟨hallowed q op hc.1, fun t => ?_⟩
    rw [hadvance]
    exact ih (view t) (hc.2 (view t))

/-! ### Runs among others -/

/-- A run of the coroutine while others change the state between its operations: what it performs, each with
the state it meets, what it ends with, and the state it leaves. -/
inductive Runs (exec : Op → σ → σ) (env : σ → σ → Prop) :
    Coro σ Op ε α → σ → List (Op × σ) → Except ε α → σ → Prop where
  | done (a : α) (s : σ) : Runs exec env (.done a) s [] (.ok a) s
  | raise (e : ε) (s : σ) : Runs exec env (.raise e) s [] (.error e) s
  | await {op : Op} {next : σ → Coro σ Op ε α} {s s' t : σ} {steps : List (Op × σ)} {r : Except ε α}
      (henv : env s s') (hrest : Runs exec env (next s') (exec op s') steps r t) :
      Runs exec env (.await op next) s ((op, s') :: steps) r t

/-- The typestate after some steps. -/
def after (advance : Q → Op → σ → Q) (q : Q) (steps : List (Op × σ)) : Q :=
  steps.foldl (fun q step => advance q step.1 step.2) q

section Runs

variable {exec : Op → σ → σ} {env : σ → σ → Prop} {c : Coro σ Op ε β} {s t : σ} {steps : List (Op × σ)}
  {r : Except ε β}

/-- With nobody beside it a coroutine runs to what `run` computes. -/
theorem runs_trace (henv : ∀ s, env s s) (c : Coro σ Op ε β) (s : σ) :
    c.Runs exec env s (c.trace exec s) (c.run exec s).1 (c.run exec s).2 := by
  induction c generalizing s with
  | done a => exact .done a s
  | raise e => exact .raise e s
  | await op next ih => exact .await (henv s) (ih s (exec op s))

/-- In a run every operation is allowed where it is performed. -/
theorem Follows.allowed_of_runs (hc : c.Follows allowed advance final q) (h : c.Runs exec env s steps r t)
    {before later : List (Op × σ)} {step : Op × σ} (hsplit : steps = before ++ step :: later) :
    allowed (after advance q before) step.1 := by
  induction h generalizing q before with
  | done | raise => cases before <;> cases hsplit
  | await henv hrest ih =>
    cases before with
    | nil =>
      obtain ⟨rfl, rfl⟩ := List.cons.inj hsplit
      exact hc.1
    | cons first before =>
      obtain ⟨rfl, hrest⟩ := List.cons.inj hsplit
      exact ih (hc.2 _) hrest

theorem Follows.final_of_runs (hc : c.Follows allowed advance final q) (h : c.Runs exec env s steps r t)
    {b : β} (hr : r = .ok b) : final (after advance q steps) b := by
  induction h generalizing q with
  | done a s =>
    obtain rfl := Except.ok.inj hr
    exact hc
  | raise => cases hr
  | await henv hrest ih => exact ih (hc.2 _) hr

/-- What the others keep and every allowed operation keeps holds at the end of a run. -/
theorem Follows.inv_of_runs {J : Q → σ → Prop} (hc : c.Follows allowed advance final q)
    (h : c.Runs exec env s steps r t) (henv : ∀ q s s', env s s' → J q s → J q s')
    (hstep : ∀ q op s, allowed q op → J q s → J (advance q op s) (exec op s)) (hJ : J q s) :
    J (after advance q steps) t := by
  induction h generalizing q with
  | done | raise => exact hJ
  | await hturn hrest ih => exact ih (hc.2 _) (hstep _ _ _ hc.1 (henv _ _ _ hturn hJ))

/-- The same steps, with the exception as a result. -/
theorem Runs.attempt (h : c.Runs exec env s steps r t) : c.attempt.Runs exec env s steps (.ok r) t := by
  induction h with
  | done a s => exact .done _ s
  | raise e s => exact .done _ s
  | await henv hrest ih => exact .await henv ih

theorem Throws.of_runs {E : ε → Prop} (hc : c.Throws E) (h : c.Runs exec env s steps r t) {e : ε}
    (hr : r = .error e) : E e := by
  induction h with
  | done => cases hr
  | raise e' =>
    obtain rfl := Except.error.inj hr
    exact hc
  | await henv hrest ih => exact ih (hc _) hr

end Runs

end Follows

end Coro

/-! ### Schedules -/

/-- The numerals that name one of three threads. -/
instance neZeroThree : NeZero 3 := ⟨by decide⟩

/-- One turn of a schedule. -/
inductive Turn (ι : Type) where
  | run (i : ι)
  | cancel (i : ι)
  | crash
  deriving DecidableEq, Repr

/-- The shared state and, of every coroutine, whether it has begun and what is left of it; nothing
is left of one that has been cancelled. -/
structure Pool (ι σ Op ε α : Type) where
  state : σ
  thread : ι → Option (Coro σ Op ε α)
  begun : ι → Bool

namespace Pool

variable {ι σ Op ε α : Type}

/-- No coroutine has begun. -/
def init (prog : ι → Coro σ Op ε α) (s : σ) : Pool ι σ Op ε α where
  state := s
  thread i := some (prog i)
  begun _ := false

/-- The coroutine is at an operation. -/
def awaits (p : Pool ι σ Op ε α) (i : ι) (op : Op) (next : σ → Coro σ Op ε α) : Prop :=
  p.thread i = some (.await op next)

/-- The operation the coroutine is at. -/
def nextOp (p : Pool ι σ Op ε α) (i : ι) : Option Op :=
  match p.thread i with
  | some (.await op _) => some op
  | _ => none

theorem awaits.nextOp {p : Pool ι σ Op ε α} {i : ι} {op : Op} {next : σ → Coro σ Op ε α}
    (h : p.awaits i op next) : p.nextOp i = some op := by
  rw [Pool.nextOp, show p.thread i = _ from h]

theorem exists_awaits {p : Pool ι σ Op ε α} {i : ι} {op : Op} (h : op ∈ p.nextOp i) :
    ∃ next, p.awaits i op next := by
  rw [nextOp] at h
  split at h
  · rename_i op' next hthread
    obtain rfl := Option.some.inj h
    exact ⟨next, hthread⟩
  · cases h

/-- The coroutine has returned. -/
def returned (p : Pool ι σ Op ε α) (i : ι) (a : α) : Prop := p.thread i = some (.done a)

/-- What a crash leaves of a coroutine. -/
def survive (begun : Bool) (c : Coro σ Op ε α) : Option (Coro σ Op ε α) :=
  match c with
  | .await op next => if begun then none else some (.await op next)
  | c => some c

def hasReturned (p : Pool ι σ Op ε α) (i : ι) : Bool :=
  match p.thread i with
  | some (.done _) => true
  | _ => false

theorem exists_returned {p : Pool ι σ Op ε α} {i : ι} (h : p.hasReturned i = true) :
    ∃ a, p.returned i a := by
  rw [hasReturned] at h
  split at h
  · rename_i a hthread
    exact ⟨a, hthread⟩
  · cases h

variable [DecidableEq ι] (exec : Op → σ → σ) (recover : σ → σ)

def take (p : Pool ι σ Op ε α) : Turn ι → Pool ι σ Op ε α
  | .run i =>
    match p.thread i with
    | some (.await op next) =>
      { state := exec op p.state
        thread := Function.update p.thread i (some (next p.state))
        begun := Function.update p.begun i true }
    | _ => p
  | .cancel i =>
    { p with
      thread := Function.update p.thread i none
      begun := Function.update p.begun i true }
  | .crash =>
    { p with
      state := recover p.state
      thread := fun i => (p.thread i).bind (survive (p.begun i)) }

/-- The pool after a schedule. -/
def run (p : Pool ι σ Op ε α) (turns : List (Turn ι)) : Pool ι σ Op ε α :=
  turns.foldl (take exec recover) p

/-- Every operation of the schedule satisfies `G` in the state it meets. -/
def Along (G : σ → ι → Op → Prop) (p : Pool ι σ Op ε α) : List (Turn ι) → Prop
  | [] => True
  | .run i :: turns =>
    (∀ op ∈ p.nextOp i, G p.state i op) ∧ Along G (p.take exec recover (.run i)) turns
  | .cancel i :: turns => Along G (p.take exec recover (.cancel i)) turns
  | .crash :: turns => Along G (p.take exec recover .crash) turns

def decidableAlong (G : σ → ι → Op → Prop) [∀ s i, DecidablePred (G s i)] :
    (p : Pool ι σ Op ε α) → (turns : List (Turn ι)) → Decidable (Along exec recover G p turns)
  | _, [] => .isTrue trivial
  | p, .run i :: turns =>
    @instDecidableAnd _ _ (inferInstanceAs (Decidable (∀ op ∈ p.nextOp i, G p.state i op)))
      (decidableAlong G (p.take exec recover (.run i)) turns)
  | p, .cancel i :: turns => decidableAlong G (p.take exec recover (.cancel i)) turns
  | p, .crash :: turns => decidableAlong G (p.take exec recover .crash) turns

instance (G : σ → ι → Op → Prop) [∀ s i, DecidablePred (G s i)] (p : Pool ι σ Op ε α)
    (turns : List (Turn ι)) : Decidable (Along exec recover G p turns) :=
  decidableAlong exec recover G p turns

/-- Every crash of the schedule meets a state with `K`. -/
def CrashesMeet (K : σ → Prop) (p : Pool ι σ Op ε α) : List (Turn ι) → Prop
  | [] => True
  | .crash :: turns => K p.state ∧ CrashesMeet K (p.take exec recover .crash) turns
  | .run i :: turns => CrashesMeet K (p.take exec recover (.run i)) turns
  | .cancel i :: turns => CrashesMeet K (p.take exec recover (.cancel i)) turns

def decidableCrashesMeet (K : σ → Prop) [DecidablePred K] :
    (p : Pool ι σ Op ε α) → (turns : List (Turn ι)) → Decidable (CrashesMeet exec recover K p turns)
  | _, [] => .isTrue trivial
  | p, .crash :: turns =>
    @instDecidableAnd _ _ (inferInstanceAs (Decidable (K p.state)))
      (decidableCrashesMeet K (p.take exec recover .crash) turns)
  | p, .run i :: turns => decidableCrashesMeet K (p.take exec recover (.run i)) turns
  | p, .cancel i :: turns => decidableCrashesMeet K (p.take exec recover (.cancel i)) turns

instance (K : σ → Prop) [DecidablePred K] (p : Pool ι σ Op ε α) (turns : List (Turn ι)) :
    Decidable (CrashesMeet exec recover K p turns) :=
  decidableCrashesMeet exec recover K p turns

variable {exec recover} {p : Pool ι σ Op ε α} {G : σ → ι → Op → Prop}

theorem Along.and {G' : σ → ι → Op → Prop} {turns : List (Turn ι)}
    (h : Along exec recover G p turns) (h' : Along exec recover G' p turns) :
    Along exec recover (fun s i op => G s i op ∧ G' s i op) p turns := by
  induction turns generalizing p with
  | nil => trivial
  | cons turn turns ih =>
    cases turn with
    | run i => exact ⟨fun op hop => ⟨h.1 op hop, h'.1 op hop⟩, ih h.2 h'.2⟩
    | cancel i => exact ih h h'
    | crash => exact ih h h'

theorem Along.mono {G' : σ → ι → Op → Prop} {turns : List (Turn ι)} (h : Along exec recover G p turns)
    (hG : ∀ s i op, G s i op → G' s i op) : Along exec recover G' p turns := by
  induction turns generalizing p with
  | nil => trivial
  | cons turn turns ih =>
    cases turn with
    | run i => exact ⟨fun op hop => hG _ _ _ (h.1 op hop), ih h.2⟩
    | cancel i => exact ih h
    | crash => exact ih h

theorem run_append (turns turns' : List (Turn ι)) :
    p.run exec recover (turns ++ turns') = (p.run exec recover turns).run exec recover turns' :=
  List.foldl_append

/-- What holds along a schedule holds along its beginning, and along the rest from there. -/
theorem along_append {turns turns' : List (Turn ι)} :
    Along exec recover G p (turns ++ turns') ↔
      Along exec recover G p turns ∧ Along exec recover G (p.run exec recover turns) turns' := by
  induction turns generalizing p with
  | nil => simp [Along, run]
  | cons turn turns ih =>
    cases turn with
    | run i => exact (and_congr_right fun _ => ih).trans and_assoc.symm
    | cancel i => exact ih
    | crash => exact ih

theorem crashesMeet_of_forall {K : σ → Prop} (h : ∀ s, K s) (turns : List (Turn ι)) :
    CrashesMeet exec recover K p turns := by
  induction turns generalizing p with
  | nil => trivial
  | cons turn turns ih =>
    cases turn with
    | run i => exact ih
    | cancel i => exact ih
    | crash => exact ⟨h _, ih⟩

theorem take_run {i : ι} {op : Op} {next : σ → Coro σ Op ε α} (h : p.awaits i op next) :
    p.take exec recover (.run i) =
      { state := exec op p.state
        thread := Function.update p.thread i (some (next p.state))
        begun := Function.update p.begun i true } := by
  rw [take, show p.thread i = _ from h]

theorem take_run_of_not_awaits {i : ι} (h : ∀ op next, ¬ p.awaits i op next) :
    p.take exec recover (.run i) = p := by
  rw [take]
  split
  · rename_i op next heq
    exact absurd heq (h op next)
  · rfl

/-! ### Relations over every schedule -/

/-- What is left of each coroutine performs only operations that satisfy `P`. -/
def Each (P : ι → Op → Prop) (p : Pool ι σ Op ε α) : Prop :=
  ∀ i, ∀ c ∈ p.thread i, c.Every (P i)

omit [DecidableEq ι] in
theorem each_init {P : ι → Op → Prop} {prog : ι → Coro σ Op ε α} (h : ∀ i, (prog i).Every (P i))
    (s : σ) : Each P (init prog s) := by
  intro i c hc
  rw [← Option.some.inj hc]
  exact h i

omit [DecidableEq ι] in
theorem mem_of_mem_survive {begun : Bool} {c c' : Coro σ Op ε α} (h : c' ∈ survive begun c) :
    c' = c ∧ (begun = false ∨ ∀ op next, c ≠ .await op next) := by
  cases c with
  | done a => exact ⟨(Option.some.inj h).symm, .inr fun _ _ h => by cases h⟩
  | raise e => exact ⟨(Option.some.inj h).symm, .inr fun _ _ h => by cases h⟩
  | await op next =>
    cases begun with
    | true => cases h
    | false => exact ⟨(Option.some.inj h).symm, .inl rfl⟩

theorem Each.take {P : ι → Op → Prop} (h : Each P p) (turn : Turn ι) :
    Each P (p.take exec recover turn) := by
  cases turn with
  | run i =>
    by_cases hawaits : ∃ op next, p.awaits i op next
    · obtain ⟨op, next, hawaits⟩ := hawaits
      rw [take_run hawaits]
      intro j c hc
      dsimp only at hc
      by_cases hj : j = i
      · subst hj
        rw [Function.update_self] at hc
        rw [← Option.some.inj hc]
        exact (h j _ hawaits).2 p.state
      · rw [Function.update_of_ne hj] at hc
        exact h j c hc
    · push Not at hawaits
      rwa [take_run_of_not_awaits hawaits]
  | cancel i =>
    intro j c hc
    dsimp only [Pool.take] at hc
    by_cases hj : j = i
    · subst hj
      rw [Function.update_self] at hc
      cases hc
    · rw [Function.update_of_ne hj] at hc
      exact h j c hc
  | crash =>
    intro j c hc
    obtain ⟨c', hc', hsurvive⟩ := Option.bind_eq_some_iff.mp hc
    rw [(mem_of_mem_survive hsurvive).1]
    exact h j c' hc'

theorem Each.run {P : ι → Op → Prop} (h : Each P p) (turns : List (Turn ι)) :
    Each P (p.run exec recover turns) := by
  induction turns generalizing p with
  | nil => exact h
  | cons turn turns ih => exact ih (h.take turn)

/-- A preorder that every operation of the schedule respects, and that a crash respects, relates the
states before and after it. -/
theorem rel_run {P : ι → Op → Prop} {R : σ → σ → Prop} (hrefl : ∀ s, R s s)
    (htrans : ∀ s t u, R s t → R t u → R s u)
    (hop : ∀ i op s, P i op → G s i op → R s (exec op s)) (hcrash : ∀ s, R s (recover s))
    {turns : List (Turn ι)} (heach : Each P p) (hG : Along exec recover G p turns) :
    R p.state (p.run exec recover turns).state := by
  induction turns generalizing p with
  | nil => exact hrefl _
  | cons turn turns ih =>
    cases turn with
    | run i =>
      refine htrans _ _ _ ?_ (ih (heach.take _) hG.2)
      by_cases hawaits : ∃ op next, p.awaits i op next
      · obtain ⟨op, next, hawaits⟩ := hawaits
        rw [take_run hawaits]
        exact hop i op p.state (heach i _ hawaits).1 (hG.1 op hawaits.nextOp)
      · push Not at hawaits
        rw [take_run_of_not_awaits hawaits]
        exact hrefl _
    | cancel i => exact ih (heach.take _) hG
    | crash => exact htrans _ _ _ (hcrash _) (ih (heach.take _) hG)

/-- What the operations of a schedule satisfy may be put in other words. -/
theorem along_congr {P : ι → Op → Prop} {G' : σ → ι → Op → Prop}
    (h : ∀ s i op, P i op → (G s i op ↔ G' s i op)) {turns : List (Turn ι)} (heach : Each P p) :
    Along exec recover G p turns ↔ Along exec recover G' p turns := by
  induction turns generalizing p with
  | nil => exact Iff.rfl
  | cons turn turns ih =>
    cases turn with
    | run i =>
      refine and_congr (forall_congr' fun op => forall_congr' fun hop => ?_) (ih (heach.take _))
      obtain ⟨next, hnext⟩ := exists_awaits hop
      exact h p.state i op (heach i _ hnext).1
    | cancel i => exact ih (heach.take _)
    | crash => exact ih (heach.take _)

theorem along_true (turns : List (Turn ι)) : Along exec recover (fun _ _ _ => True) p turns := by
  induction turns generalizing p with
  | nil => trivial
  | cons turn turns ih =>
    cases turn with
    | run i => exact ⟨fun _ _ => trivial, ih⟩
    | cancel i => exact ih
    | crash => exact ih

/-- Where `G` says exactly when the state an operation leaves satisfies `K`, it holds along a schedule
exactly when `K` holds of every state the schedule comes by; the operations may be asked for more, and
`J` is what they keep where `G` holds of them. -/
theorem along_iff_forall {P : ι → Op → Prop} {F : σ → ι → Op → Prop} {J K : σ → Prop}
    (hJ : ∀ s i op, P i op → F s i op → J s → G s i op → J (exec op s))
    (hK : ∀ s i op, P i op → F s i op → J s → (G s i op ↔ K (exec op s))) {schedule : List ι}
    (heach : Each P p) (hJp : J p.state) (hKp : K p.state)
    (hF : Along exec recover F p (schedule.map .run)) :
    Along exec recover G p (schedule.map .run) ↔
      ∀ k, K (p.run exec recover ((schedule.take k).map .run)).state := by
  induction schedule generalizing p with
  | nil => simpa [Along, run] using hKp
  | cons i schedule ih =>
    by_cases hawaits : ∃ op next, p.awaits i op next
    · obtain ⟨op, next, hawaits⟩ := hawaits
      have hop : P i op := (heach i _ hawaits).1
      have hasked : F p.state i op := hF.1 op hawaits.nextOp
      have hstate : (p.take exec recover (.run i)).state = exec op p.state := by rw [take_run hawaits]
      have hiff : (∀ op ∈ p.nextOp i, G p.state i op) ↔ K (p.take exec recover (.run i)).state := by
        rw [hawaits.nextOp, hstate]
        simp only [Option.mem_some_iff, forall_eq']
        exact hK p.state i op hop hasked hJp
      have hrest : G p.state i op → (Along exec recover G (p.take exec recover (.run i))
          (schedule.map .run) ↔ ∀ k, K ((p.take exec recover (.run i)).run exec recover
            ((schedule.take k).map .run)).state) := by
        intro hG
        refine ih (heach.take _) ?_ ?_ hF.2
        · rw [hstate]
          exact hJ p.state i op hop hasked hJp hG
        · rw [hstate]
          exact (hK p.state i op hop hasked hJp).mp hG
      refine ⟨fun halong k => ?_, fun hall => ?_⟩
      · cases k with
        | zero => exact hKp
        | succ k => exact (hrest (halong.1 op hawaits.nextOp)).mp halong.2 k
      · have hfirst := hiff.mpr (hall 1)
        exact ⟨hfirst, (hrest (hfirst op hawaits.nextOp)).mpr fun k => hall (k + 1)⟩
    · push Not at hawaits
      have hsame : p.take exec recover (.run i) = p := take_run_of_not_awaits hawaits
      have hrest := ih (p := p.take exec recover (.run i)) (heach.take _) (by rwa [hsame])
        (by rwa [hsame]) hF.2
      refine ⟨fun halong k => ?_, fun hall => ⟨fun op hop => ?_, hrest.mpr fun k => hall (k + 1)⟩⟩
      · cases k with
        | zero => exact hKp
        | succ k => exact hrest.mp halong.2 k
      · obtain ⟨next, hnext⟩ := exists_awaits hop
        exact absurd hnext (hawaits op next)

/-- Where `G` says exactly which operations keep `J`, and `J` is lost for good once it is lost, it holds
after a schedule exactly when `G` does along it. -/
theorem along_iff_end {P : ι → Op → Prop} {F : σ → ι → Op → Prop} {J L : σ → Prop}
    (hkept : ∀ s i op, P i op → F s i op → J s → G s i op → J (exec op s))
    (hlost : ∀ s i op, P i op → F s i op → J s → ¬ G s i op → L (exec op s))
    (hstays : ∀ s i op, P i op → F s i op → L s → L (exec op s)) (hnot : ∀ s, L s → ¬ J s)
    {schedule : List ι} (heach : Each P p) (hJ : J p.state)
    (hF : Along exec id F p (schedule.map .run)) :
    Along exec id G p (schedule.map .run) ↔ J (p.run exec id (schedule.map .run)).state := by
  induction schedule generalizing p with
  | nil => exact ⟨fun _ => hJ, fun _ => trivial⟩
  | cons i schedule ih =>
    by_cases hawaits : ∃ op next, p.awaits i op next
    · obtain ⟨op, next, hawaits⟩ := hawaits
      have hop : P i op := (heach i _ hawaits).1
      have hasked : F p.state i op := hF.1 op hawaits.nextOp
      have hstate : (p.take exec id (.run i)).state = exec op p.state := by rw [take_run hawaits]
      by_cases hG : G p.state i op
      · have hrest := ih (p := p.take exec id (.run i)) (heach.take _)
          (by rw [hstate]; exact hkept _ i op hop hasked hJ hG) hF.2
        refine ⟨fun halong => hrest.mp halong.2, fun hend => ⟨fun op' hop' => ?_, hrest.mpr hend⟩⟩
        rw [hawaits.nextOp] at hop'
        obtain rfl := Option.some.inj hop'
        exact hG
      · refine ⟨fun halong => absurd (halong.1 op hawaits.nextOp) hG, fun hend => ?_⟩
        have hgone : L (p.take exec id (.run i)).state := by
          rw [hstate]
          exact hlost _ i op hop hasked hJ hG
        have hstill := rel_run (R := fun s t => L s → L t) (fun _ h => h)
          (fun _ _ _ h h' hs => h' (h hs)) (fun i op s hop hasked => hstays s i op hop hasked)
          (fun _ h => h) (heach.take _) hF.2 hgone
        exact absurd hend (hnot _ hstill)
    · push Not at hawaits
      have hsame : p.take exec id (.run i) = p := take_run_of_not_awaits hawaits
      have hrest := ih (p := p.take exec id (.run i)) (heach.take _) (by rwa [hsame]) hF.2
      refine ⟨fun halong => hrest.mp halong.2, fun hend => ⟨fun op hop => ?_, hrest.mpr hend⟩⟩
      obtain ⟨next, hnext⟩ := exists_awaits hop
      exact absurd hnext (hawaits op next)

/-! ### Invariants over every schedule -/

section Protocol

variable {Q : Type} {P : Protocol ι σ Op α Q}

/-- Every coroutine follows the protocol from its typestate on. -/
def Obeys (P : Protocol ι σ Op α Q) (p : Pool ι σ Op ε α) (q : ι → Q) : Prop :=
  ∀ i, (p.begun i = false → q i = P.start) ∧
    ∀ c ∈ p.thread i, c.Follows (P.allowed i) P.advance (P.final i) (q i)

omit [DecidableEq ι] in
theorem obeys_init {prog : ι → Coro σ Op ε α}
    (h : ∀ i, (prog i).Follows (P.allowed i) P.advance (P.final i) P.start) (s : σ) :
    Obeys P (init prog s) fun _ => P.start := by
  refine fun i => ⟨fun _ => rfl, fun c hc => ?_⟩
  rw [← Option.some.inj hc]
  exact h i

theorem Obeys.run {q : ι → Q} (h : Obeys P p q) {i : ι} {op : Op} {next : σ → Coro σ Op ε α}
    (hawaits : p.awaits i op next) :
    P.allowed i (q i) op ∧
      Obeys P (p.take exec recover (.run i))
        (Function.update q i (P.advance (q i) op p.state)) := by
  obtain ⟨hallowed, hnext⟩ := (h i).2 _ hawaits
  refine ⟨hallowed, ?_⟩
  rw [take_run hawaits]
  intro j
  dsimp only
  by_cases hj : j = i
  · subst hj
    rw [Function.update_self, Function.update_self, Function.update_self]
    refine ⟨fun hbegun => (by cases hbegun), fun c hc => ?_⟩
    rw [← Option.some.inj hc]
    exact hnext p.state
  · rw [Function.update_of_ne hj, Function.update_of_ne hj, Function.update_of_ne hj]
    exact h j

theorem Obeys.cancel {q : ι → Q} (h : Obeys P p q) (i : ι) :
    Obeys P (p.take exec recover (.cancel i)) q := by
  intro j
  dsimp only [take]
  by_cases hj : j = i
  · subst hj
    rw [Function.update_self, Function.update_self]
    exact ⟨fun hbegun => (by cases hbegun), fun c hc => by cases hc⟩
  · rw [Function.update_of_ne hj, Function.update_of_ne hj]
    exact h j

/-- After a crash the typestates may change where nothing is left to run. -/
theorem Obeys.crash {q q' : ι → Q} (h : Obeys P p q)
    (hkeep : ∀ i, (q i = P.start ∨ ∃ a, P.final i (q i) a) → q' i = q i) :
    Obeys P (p.take exec recover .crash) q' := by
  refine fun i => ⟨fun hbegun => ?_, fun c hc => ?_⟩
  · have hstart := (h i).1 hbegun
    rw [hkeep i (.inl hstart), hstart]
  · obtain ⟨c', hc', hsurvive⟩ := Option.bind_eq_some_iff.mp hc
    obtain ⟨rfl, hleft⟩ := mem_of_mem_survive hsurvive
    have hfollows := (h i).2 _ hc'
    rcases hleft with hbegun | hended
    · rw [hkeep i (.inl ((h i).1 hbegun))]
      exact hfollows
    · cases c with
      | done a =>
        rw [hkeep i (.inr ⟨a, hfollows⟩)]
        exact hfollows
      | raise e => trivial
      | await op next => exact absurd rfl (hended op next)

/-- An invariant of the state and the typestates that every allowed operation keeps, and that a crash
keeps up to the typestates of the coroutines it ends, holds after every schedule, and where every
operation of it is met; the operations may be asked for more than the protocol says, and the crashes for
a state to meet. -/
theorem inv_along {I : σ → (ι → Q) → Prop} {K : σ → Prop}
    (hop : ∀ s q i op, I s q → P.allowed i (q i) op → G s i op →
      I (exec op s) (Function.update q i (P.advance (q i) op s)))
    (hcrash : ∀ s q, I s q → K s → ∃ q', I (recover s) q' ∧
      ∀ i, (q i = P.start ∨ ∃ a, P.final i (q i) a) → q' i = q i)
    {turns : List (Turn ι)} {q : ι → Q} (hobeys : Obeys P p q) (hI : I p.state q)
    (hG : Along exec recover G p turns) (hK : CrashesMeet exec recover K p turns) :
    (∃ q', Obeys P (p.run exec recover turns) q' ∧ I (p.run exec recover turns).state q') ∧
      Along exec recover (fun s i op => ∃ q, I s q ∧ P.allowed i (q i) op ∧ G s i op) p turns := by
  induction turns generalizing p q with
  | nil => exact ⟨⟨q, hobeys, hI⟩, trivial⟩
  | cons turn turns ih =>
    cases turn with
    | run i =>
      by_cases hawaits : ∃ op next, p.awaits i op next
      · obtain ⟨op, next, hawaits⟩ := hawaits
        have hstep : P.allowed i (q i) op ∧ Obeys P (p.take exec recover (.run i))
            (Function.update q i (P.advance (q i) op p.state)) := hobeys.run hawaits
        obtain ⟨hallowed, hobeys'⟩ := hstep
        have hmeets : G p.state i op := hG.1 op hawaits.nextOp
        have hstate : (p.take exec recover (.run i)).state = exec op p.state := by
          rw [take_run hawaits]
        obtain ⟨hend, halong⟩ :=
          ih hobeys' (by rw [hstate]; exact hop _ _ i op hI hallowed hmeets) hG.2 hK
        refine ⟨hend, fun op' hop' => ?_, halong⟩
        rw [hawaits.nextOp] at hop'
        obtain rfl := Option.some.inj hop'
        exact ⟨q, hI, hallowed, hmeets⟩
      · push Not at hawaits
        have hsame : p.take exec recover (.run i) = p := take_run_of_not_awaits hawaits
        have hrest : Along exec recover G (p.take exec recover (.run i)) turns := hG.2
        have hcrashes : CrashesMeet exec recover K (p.take exec recover (.run i)) turns := hK
        have hobeys' : Obeys P (p.take exec recover (.run i)) q := by rwa [hsame]
        obtain ⟨hend, halong⟩ := ih hobeys' (by rwa [hsame]) hrest hcrashes
        refine ⟨hend, fun op hop' => ?_, halong⟩
        obtain ⟨next, hnext⟩ := exists_awaits hop'
        exact absurd hnext (hawaits op next)
    | cancel i => exact ih (hobeys.cancel i) hI hG hK
    | crash =>
      obtain ⟨q', hI', hkeep⟩ := hcrash _ _ hI hK.1
      exact ih (hobeys.crash hkeep) hI' hG hK.2

theorem inv_run_of_crashesMeet {I : σ → (ι → Q) → Prop} {K : σ → Prop}
    (hop : ∀ s q i op, I s q → P.allowed i (q i) op → G s i op →
      I (exec op s) (Function.update q i (P.advance (q i) op s)))
    (hcrash : ∀ s q, I s q → K s → ∃ q', I (recover s) q' ∧
      ∀ i, (q i = P.start ∨ ∃ a, P.final i (q i) a) → q' i = q i)
    {turns : List (Turn ι)} {q : ι → Q} (hobeys : Obeys P p q) (hI : I p.state q)
    (hG : Along exec recover G p turns) (hK : CrashesMeet exec recover K p turns) :
    ∃ q', Obeys P (p.run exec recover turns) q' ∧ I (p.run exec recover turns).state q' :=
  (inv_along hop hcrash hobeys hI hG hK).1

/-- The same where a crash may meet any state. -/
theorem inv_run {I : σ → (ι → Q) → Prop}
    (hop : ∀ s q i op, I s q → P.allowed i (q i) op → G s i op →
      I (exec op s) (Function.update q i (P.advance (q i) op s)))
    (hcrash : ∀ s q, I s q → ∃ q', I (recover s) q' ∧
      ∀ i, (q i = P.start ∨ ∃ a, P.final i (q i) a) → q' i = q i)
    {turns : List (Turn ι)} {q : ι → Q} (hobeys : Obeys P p q) (hI : I p.state q)
    (hG : Along exec recover G p turns) :
    ∃ q', Obeys P (p.run exec recover turns) q' ∧ I (p.run exec recover turns).state q' :=
  inv_run_of_crashesMeet (K := fun _ => True) hop (fun s q h _ => hcrash s q h) hobeys hI hG
    (crashesMeet_of_forall (fun _ => trivial) turns)

/-- The same where a crash leaves the state as it is. -/
theorem inv_run_id {I : σ → (ι → Q) → Prop}
    (hop : ∀ s q i op, I s q → P.allowed i (q i) op → G s i op →
      I (exec op s) (Function.update q i (P.advance (q i) op s)))
    {turns : List (Turn ι)} {q : ι → Q} (hobeys : Obeys P p q) (hI : I p.state q)
    (hG : Along exec id G p turns) :
    ∃ q', Obeys P (p.run exec id turns) q' ∧ I (p.run exec id turns).state q' :=
  inv_run hop (fun _ q h => ⟨q, h, fun _ _ => rfl⟩) hobeys hI hG

end Protocol

end Pool

end Krewhub
