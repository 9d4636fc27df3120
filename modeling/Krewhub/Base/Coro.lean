import Mathlib.Tactic.Common
import Mathlib.Order.Defs.Unbundled

/-!
# Coroutines over a shared state

A coroutine runs alone between two awaits and is suspended at each of them. What it awaits is one
operation on the shared state: it takes effect at once, and what the coroutine goes on with may
depend on the state the operation met. The same coroutine can be run to completion on a state of its
own, or as one of a pool of threads of which any may take the next step.

Operations are labels with a separate interpretation `exec`, so that a property of a program can be
a property of the operations it performs, checked once on its text.
-/

namespace Krewhub

/-- A computation with results in `α`, exceptions in `ε` and operations `Op` on a state `σ`. -/
inductive Coro (σ Op ε α : Type) where
  | done (a : α)
  | raise (e : ε)
  | await (op : Op) (next : σ → Coro σ Op ε α)

namespace Coro

variable {σ Op ε α β γ : Type}

protected def bind : Coro σ Op ε α → (α → Coro σ Op ε β) → Coro σ Op ε β
  | .done a, f => f a
  | .raise e, _ => .raise e
  | .await op next, f => .await op fun s => (next s).bind f

instance : Monad (Coro σ Op ε) where
  pure := .done
  bind := Coro.bind

@[simp]
theorem pure_eq (a : α) : (pure a : Coro σ Op ε α) = .done a := rfl

@[simp]
theorem done_bind (a : α) (f : α → Coro σ Op ε β) : (.done a : Coro σ Op ε α) >>= f = f a := rfl

@[simp]
theorem raise_bind (e : ε) (f : α → Coro σ Op ε β) : (.raise e : Coro σ Op ε α) >>= f = .raise e :=
  rfl

@[simp]
theorem await_bind (op : Op) (next : σ → Coro σ Op ε α) (f : α → Coro σ Op ε β) :
    (.await op next : Coro σ Op ε α) >>= f = .await op fun s => next s >>= f := rfl

theorem bind_assoc (c : Coro σ Op ε α) (f : α → Coro σ Op ε β) (g : β → Coro σ Op ε γ) :
    c >>= f >>= g = c >>= fun a => f a >>= g := by
  induction c with
  | done a => rfl
  | raise e => rfl
  | await op next ih =>
    simp only [await_bind]
    congr 1
    funext s
    exact ih s

theorem bind_done (c : Coro σ Op ε α) : c >>= Coro.done = c := by
  induction c with
  | done a => rfl
  | raise e => rfl
  | await op next ih =>
    simp only [await_bind]
    congr 1
    funext s
    exact ih s

instance : LawfulMonad (Coro σ Op ε) :=
  LawfulMonad.mk' _ (fun c => bind_done c) (fun a f => done_bind a f) bind_assoc

/-- One operation, and what is read off the state it met. -/
def perform (op : Op) (read : σ → α) : Coro σ Op ε α := .await op fun s => .done (read s)

/-- `try … except`: `handler` says what an exception of `c` becomes, `none` that it passes. -/
def tryCatch (c : Coro σ Op ε α) (handler : ε → Option (Coro σ Op ε α)) : Coro σ Op ε α :=
  match c with
  | .done a => .done a
  | .raise e => (handler e).getD (.raise e)
  | .await op next => .await op fun s => (next s).tryCatch handler

/-- The coroutine with what it ends with as its result. -/
def attempt : Coro σ Op ε α → Coro σ Op ε (Except ε α)
  | .done a => .done (.ok a)
  | .raise e => .done (.error e)
  | .await op next => .await op fun s => (next s).attempt

/-- An exception ends a sequence. -/
theorem attempt_bind (c : Coro σ Op ε α) (f : α → Coro σ Op ε β) :
    (c >>= f).attempt = c.attempt >>= fun r => match r with
      | .ok a => (f a).attempt
      | .error e => .done (.error e) := by
  induction c with
  | done a => rfl
  | raise e => rfl
  | await op next ih =>
    simp only [await_bind, attempt]
    congr 1
    funext s
    exact ih s

theorem attempt_tryCatch (c : Coro σ Op ε α) (handler : ε → Option (Coro σ Op ε α)) :
    (c.tryCatch handler).attempt = c.attempt >>= fun r => match r with
      | .ok a => .done (.ok a)
      | .error e => ((handler e).getD (.raise e)).attempt := by
  induction c with
  | done a => rfl
  | raise e => rfl
  | await op next ih =>
    simp only [await_bind, attempt, tryCatch]
    congr 1
    funext s
    exact ih s

/-- The coroutine on a larger state, of which it sees a part. -/
def on {τ : Type} (view : τ → σ) : Coro σ Op ε α → Coro τ Op ε α
  | .done a => .done a
  | .raise e => .raise e
  | .await op next => .await op fun t => (next (view t)).on view

/-- The coroutine as a part of one on a larger state that has more operations. -/
def within {τ Op' : Type} (view : τ → σ) (label : Op → Op') : Coro σ Op ε α → Coro τ Op' ε α
  | .done a => .done a
  | .raise e => .raise e
  | .await op next => .await (label op) fun t => (next (view t)).within view label

/-! ### Running to completion -/

section Run

variable (exec : Op → σ → σ)

/-- The result of a coroutine nothing else runs beside, and the state it leaves. -/
def run : Coro σ Op ε α → σ → Except ε α × σ
  | .done a, s => (.ok a, s)
  | .raise e, s => (.error e, s)
  | .await op next, s => (next s).run (exec op s)

/-- The state after the first `k` operations of the run. -/
def stateAfter : Nat → Coro σ Op ε α → σ → σ
  | k + 1, .await op next, s => stateAfter k (next s) (exec op s)
  | _, _, s => s

@[simp]
theorem stateAfter_done (k : Nat) (a : α) (s : σ) :
    stateAfter exec k (.done a : Coro σ Op ε α) s = s := by
  cases k <;> rfl

@[simp]
theorem stateAfter_await (k : Nat) (op : Op) (next : σ → Coro σ Op ε α) (s : σ) :
    stateAfter exec (k + 1) (.await op next) s = stateAfter exec k (next s) (exec op s) := rfl

@[simp]
theorem run_done (a : α) (s : σ) : (.done a : Coro σ Op ε α).run exec s = (.ok a, s) := rfl

@[simp]
theorem run_raise (e : ε) (s : σ) : (.raise e : Coro σ Op ε α).run exec s = (.error e, s) := rfl

@[simp]
theorem run_await (op : Op) (next : σ → Coro σ Op ε α) (s : σ) :
    (.await op next : Coro σ Op ε α).run exec s = (next s).run exec (exec op s) := rfl

@[simp]
theorem run_perform (op : Op) (read : σ → α) (s : σ) :
    (perform op read : Coro σ Op ε α).run exec s = (.ok (read s), exec op s) := rfl

theorem run_bind (c : Coro σ Op ε α) (f : α → Coro σ Op ε β) (s : σ) :
    (c >>= f).run exec s =
      match c.run exec s with
      | (.ok a, s') => (f a).run exec s'
      | (.error e, s') => (.error e, s') := by
  induction c generalizing s with
  | done a => rfl
  | raise e => rfl
  | await op next ih => exact ih s (exec op s)

/-- When `c` ends normally the rest runs on the state it leaves. -/
theorem run_bind_ok {c : Coro σ Op ε α} {f : α → Coro σ Op ε β} {s s' : σ} {a : α}
    (h : c.run exec s = (.ok a, s')) : (c >>= f).run exec s = (f a).run exec s' := by
  rw [run_bind, h]

theorem run_bind_error {c : Coro σ Op ε α} {f : α → Coro σ Op ε β} {s s' : σ} {e : ε}
    (h : c.run exec s = (.error e, s')) : (c >>= f).run exec s = (.error e, s') := by
  rw [run_bind, h]

/-- What ends normally has ended its first part normally. -/
theorem exists_of_run_bind {c : Coro σ Op ε α} {f : α → Coro σ Op ε β} {s s' : σ} {b : β}
    (h : (c >>= f).run exec s = (.ok b, s')) :
    ∃ a s₁, c.run exec s = (.ok a, s₁) ∧ (f a).run exec s₁ = (.ok b, s') := by
  rw [run_bind] at h
  split at h
  · rename_i a s₁ hfirst
    exact ⟨a, s₁, hfirst, h⟩
  · cases h

theorem run_attempt (c : Coro σ Op ε α) (s : σ) :
    c.attempt.run exec s = (.ok (c.run exec s).1, (c.run exec s).2) := by
  induction c generalizing s with
  | done a => rfl
  | raise e => rfl
  | await op next ih => exact ih s (exec op s)

theorem run_tryCatch (c : Coro σ Op ε α) (handler : ε → Option (Coro σ Op ε α)) (s : σ) :
    (c.tryCatch handler).run exec s =
      match c.run exec s with
      | (.ok a, s') => (.ok a, s')
      | (.error e, s') => ((handler e).getD (.raise e)).run exec s' := by
  induction c generalizing s with
  | done a => rfl
  | raise e => rfl
  | await op next ih => exact ih s (exec op s)

end Run

/-! ### The operations of a coroutine -/

/-- Every operation the coroutine performs, whatever it reads, satisfies `P`. -/
def Every (P : Op → Prop) : Coro σ Op ε α → Prop
  | .done _ => True
  | .raise _ => True
  | .await op next => P op ∧ ∀ s, (next s).Every P

section Every

variable {P Q : Op → Prop}

@[simp]
theorem every_done (a : α) : (.done a : Coro σ Op ε α).Every P := trivial

@[simp]
theorem every_raise (e : ε) : (.raise e : Coro σ Op ε α).Every P := trivial

@[simp]
theorem every_perform (op : Op) (read : σ → α) :
    (perform op read : Coro σ Op ε α).Every P ↔ P op := by
  simp [perform, Every]

theorem Every.bind {c : Coro σ Op ε α} {f : α → Coro σ Op ε β} (hc : c.Every P)
    (hf : ∀ a, (f a).Every P) : (c >>= f).Every P := by
  induction c with
  | done a => exact hf a
  | raise e => trivial
  | await op next ih => exact ⟨hc.1, fun s => ih s (hc.2 s)⟩

theorem Every.of_bind {c : Coro σ Op ε α} {f : α → Coro σ Op ε β} (h : (c >>= f).Every P) :
    c.Every P := by
  induction c with
  | done a => trivial
  | raise e => trivial
  | await op next ih => exact ⟨h.1, fun s => ih s (h.2 s)⟩

theorem Every.ite {p : Prop} [Decidable p] {c d : Coro σ Op ε α} (hc : p → c.Every P)
    (hd : ¬ p → d.Every P) : (if p then c else d).Every P := by
  by_cases hp : p
  · rw [if_pos hp]
    exact hc hp
  · rw [if_neg hp]
    exact hd hp

theorem Every.mono {c : Coro σ Op ε α} (hc : c.Every P) (hPQ : ∀ op, P op → Q op) :
    c.Every Q := by
  induction c with
  | done a => trivial
  | raise e => trivial
  | await op next ih => exact ⟨hPQ op hc.1, fun s => ih s (hc.2 s)⟩

theorem Every.tryCatch {c : Coro σ Op ε α} {handler : ε → Option (Coro σ Op ε α)}
    (hc : c.Every P) (hhandler : ∀ e, ∀ c' ∈ handler e, c'.Every P) :
    (c.tryCatch handler).Every P := by
  induction c with
  | done a => trivial
  | raise e =>
    unfold Coro.tryCatch
    cases hcase : handler e with
    | none => trivial
    | some c' => exact hhandler e c' hcase
  | await op next ih => exact ⟨hc.1, fun s => ih s (hc.2 s)⟩

theorem Every.of_tryCatch {c : Coro σ Op ε α} {handler : ε → Option (Coro σ Op ε α)}
    (h : (c.tryCatch handler).Every P) : c.Every P := by
  induction c with
  | done a => trivial
  | raise e => trivial
  | await op next ih => exact ⟨h.1, fun s => ih s (h.2 s)⟩

theorem Every.attempt {c : Coro σ Op ε α} (hc : c.Every P) : c.attempt.Every P := by
  induction c with
  | done a => trivial
  | raise e => trivial
  | await op next ih => exact ⟨hc.1, fun s => ih s (hc.2 s)⟩

theorem Every.on {τ : Type} {c : Coro σ Op ε α} (hc : c.Every P) (view : τ → σ) :
    (c.on view).Every P := by
  induction c with
  | done a => trivial
  | raise e => trivial
  | await op next ih => exact ⟨hc.1, fun t => ih (view t) (hc.2 (view t))⟩

theorem Every.within {τ Op' : Type} {P' : Op' → Prop} {c : Coro σ Op ε α} (hc : c.Every P)
    {view : τ → σ} {label : Op → Op'} (hP : ∀ op, P op → P' (label op)) :
    (c.within view label).Every P' := by
  induction c with
  | done a => trivial
  | raise e => trivial
  | await op next ih => exact ⟨hP op hc.1, fun t => ih (view t) (hc.2 (view t))⟩

/-- An invariant every operation of the coroutine keeps holds after it. -/
theorem Every.run_inv {exec : Op → σ → σ} {I : σ → Prop} {c : Coro σ Op ε α} (hc : c.Every P)
    (hP : ∀ op, P op → ∀ s, I s → I (exec op s)) {s : σ} (hs : I s) : I (c.run exec s).2 := by
  induction c generalizing s with
  | done a => exact hs
  | raise e => exact hs
  | await op next ih => exact ih s (hc.2 s) (hP op hc.1 s hs)

theorem every_true (c : Coro σ Op ε α) : c.Every fun _ => True := by
  induction c with
  | done a => trivial
  | raise e => trivial
  | await op next ih => exact ⟨trivial, ih⟩

/-- What no operation of the coroutine changes is the same after it. -/
theorem Every.run_same {exec : Op → σ → σ} {f : σ → β} {c : Coro σ Op ε α} (hc : c.Every P)
    (hP : ∀ op, P op → ∀ s, f (exec op s) = f s) (s : σ) : f (c.run exec s).2 = f s :=
  hc.run_inv (I := fun t => f t = f s) (fun op hop t ht => (hP op hop t).trans ht) rfl

end Every

/-! ### The operations of a run -/

/-- Every operation the coroutine performs when it runs alone from `s` satisfies `P`. -/
def Performs (exec : Op → σ → σ) (P : Op → Prop) : Coro σ Op ε α → σ → Prop
  | .done _, _ => True
  | .raise _, _ => True
  | .await op next, s => P op ∧ (next s).Performs exec P (exec op s)

section Performs

variable {exec : Op → σ → σ} {P : Op → Prop} {s : σ}

theorem Every.performs {c : Coro σ Op ε α} (hc : c.Every P) (s : σ) : c.Performs exec P s := by
  induction c generalizing s with
  | done a => trivial
  | raise e => trivial
  | await op next ih => exact ⟨hc.1, ih s (hc.2 s) (exec op s)⟩

theorem Performs.bind {c : Coro σ Op ε α} {f : α → Coro σ Op ε β} (hc : c.Performs exec P s)
    (hf : ∀ a s', c.run exec s = (.ok a, s') → (f a).Performs exec P s') :
    (c >>= f).Performs exec P s := by
  induction c generalizing s with
  | done a => exact hf a s rfl
  | raise e => trivial
  | await op next ih => exact ⟨hc.1, ih s hc.2 hf⟩

theorem Performs.tryCatch {c : Coro σ Op ε α} {handler : ε → Option (Coro σ Op ε α)}
    (hc : c.Performs exec P s) (hhandler : ∀ e, ∀ c' ∈ handler e, c'.Every P) :
    (c.tryCatch handler).Performs exec P s := by
  induction c generalizing s with
  | done a => trivial
  | raise e =>
    unfold Coro.tryCatch
    cases hcase : handler e with
    | none => trivial
    | some c' => exact (hhandler e c' hcase).performs s
  | await op next ih => exact ⟨hc.1, ih s hc.2⟩

end Performs

/-! ### The trace of a run -/

section Trace

variable (exec : Op → σ → σ)

/-- The operations of the run, in order. -/
def ops : Coro σ Op ε α → σ → List Op
  | .done _, _ => []
  | .raise _, _ => []
  | .await op next, s => op :: (next s).ops (exec op s)

/-- The operations of the run, each with the state it meets. -/
def trace : Coro σ Op ε α → σ → List (Op × σ)
  | .done _, _ => []
  | .raise _, _ => []
  | .await op next, s => (op, s) :: (next s).trace (exec op s)

variable {exec}

theorem ops_bind (c : Coro σ Op ε α) (f : α → Coro σ Op ε β) (s : σ) :
    (c >>= f).ops exec s = c.ops exec s ++
      match c.run exec s with
      | (.ok a, s') => (f a).ops exec s'
      | (.error _, _) => [] := by
  induction c generalizing s with
  | done a => rfl
  | raise e => rfl
  | await op next ih => exact congrArg (op :: ·) (ih s (exec op s))

theorem ops_bind_ok {c : Coro σ Op ε α} {f : α → Coro σ Op ε β} {s s' : σ} {a : α}
    (h : c.run exec s = (.ok a, s')) : (c >>= f).ops exec s = c.ops exec s ++ (f a).ops exec s' := by
  rw [ops_bind, h]

theorem Every.of_mem_ops {P : Op → Prop} {c : Coro σ Op ε α} (hc : c.Every P) {s : σ} {op : Op}
    (hop : op ∈ c.ops exec s) : P op := by
  induction c generalizing s with
  | done a => cases hop
  | raise e => cases hop
  | await op' next ih =>
    rcases List.mem_cons.mp hop with rfl | hop
    · exact hc.1
    · exact ih s (hc.2 s) hop

/-- A part of a run is a part of its trace. -/
theorem stateAfter_eq_foldl (k : Nat) (c : Coro σ Op ε α) (s : σ) :
    c.stateAfter exec k s = ((c.ops exec s).take k).foldl (fun s op => exec op s) s := by
  induction c generalizing k s with
  | done a => rw [stateAfter_done, ops, List.take_nil, List.foldl_nil]
  | raise e =>
    rw [ops, List.take_nil, List.foldl_nil]
    cases k <;> rfl
  | await op next ih =>
    cases k with
    | zero => rfl
    | succ k => exact ih s k (exec op s)

end Trace

/-! ### The exceptions of a coroutine -/

/-- Every exception the coroutine may end with satisfies `E`. -/
def Throws (E : ε → Prop) : Coro σ Op ε α → Prop
  | .done _ => True
  | .raise e => E e
  | .await _ next => ∀ s, (next s).Throws E

section Throws

variable {E : ε → Prop}

theorem throws_perform (op : Op) (read : σ → α) :
    (perform op read : Coro σ Op ε α).Throws E := fun _ => trivial

theorem Throws.bind {c : Coro σ Op ε α} {f : α → Coro σ Op ε β} (hc : c.Throws E)
    (hf : ∀ a, (f a).Throws E) : (c >>= f).Throws E := by
  induction c with
  | done a => exact hf a
  | raise e => exact hc
  | await op next ih => exact fun s => ih s (hc s)

theorem Throws.ite {p : Prop} [Decidable p] {c d : Coro σ Op ε α} (hc : p → c.Throws E)
    (hd : ¬ p → d.Throws E) : (if p then c else d).Throws E := by
  by_cases hp : p
  · rw [if_pos hp]
    exact hc hp
  · rw [if_neg hp]
    exact hd hp

/-- What the handler goes on with throws. -/
theorem Throws.tryCatch {c : Coro σ Op ε α} {handler : ε → Option (Coro σ Op ε α)}
    (hhandler : ∀ e, ((handler e).getD (.raise e)).Throws E) : (c.tryCatch handler).Throws E := by
  induction c with
  | done a => trivial
  | raise e => exact hhandler e
  | await op next ih => exact ih

theorem Throws.within {τ Op' : Type} {view : τ → σ} {label : Op → Op'} {c : Coro σ Op ε α}
    (hc : c.Throws E) : (c.within view label).Throws E := by
  induction c with
  | done a => trivial
  | raise e => exact hc
  | await op next ih => exact fun t => ih (view t) (hc (view t))

theorem Throws.of_run {exec : Op → σ → σ} {c : Coro σ Op ε α} (hc : c.Throws E) {s s' : σ} {e : ε}
    (h : c.run exec s = (.error e, s')) : E e := by
  induction c generalizing s with
  | done a => cases h
  | raise e =>
    cases h
    exact hc
  | await op next ih => exact ih s (hc s) h

end Throws

/-! ### What a run keeps -/

/-- The state after the run is related to the one before. -/
def Keeps (exec : Op → σ → σ) (R : σ → σ → Prop) (c : Coro σ Op ε α) (s : σ) : Prop :=
  R s (c.run exec s).2

section Keeps

variable {exec : Op → σ → σ} {R : σ → σ → Prop} [IsPreorder σ R] {s : σ}

theorem keeps_done (a : α) : (.done a : Coro σ Op ε α).Keeps exec R s := refl_of R s

theorem keeps_raise (e : ε) : (.raise e : Coro σ Op ε α).Keeps exec R s := refl_of R s

omit [IsPreorder σ R] in
theorem Keeps.of_run {c : Coro σ Op ε α} {r : Except ε α} {s' : σ} (hrun : c.run exec s = (r, s'))
    (hc : c.Keeps exec R s) : R s s' := by
  rwa [Keeps, hrun] at hc

/-- A sequence keeps what both its parts keep, the second on the state the first leaves. -/
theorem Keeps.bind {c : Coro σ Op ε α} {f : α → Coro σ Op ε β} (hc : c.Keeps exec R s)
    (hf : ∀ a s', c.run exec s = (.ok a, s') → (f a).Keeps exec R s') :
    (c >>= f).Keeps exec R s := by
  rw [Keeps, run_bind]
  rcases hrun : c.run exec s with ⟨e | a, s'⟩
  · rw [Keeps, hrun] at hc
    exact hc
  · rw [Keeps, hrun] at hc
    exact trans_of R hc (hf a s' hrun)

omit [IsPreorder σ R] in
theorem Keeps.mono {R' : σ → σ → Prop} {c : Coro σ Op ε α} (hc : c.Keeps exec R s)
    (h : ∀ s s', R s s' → R' s s') : c.Keeps exec R' s := h _ _ hc

omit [IsPreorder σ R] in
theorem Keeps.ite {p : Prop} [Decidable p] {c d : Coro σ Op ε α} (hc : p → c.Keeps exec R s)
    (hd : ¬ p → d.Keeps exec R s) : (if p then c else d).Keeps exec R s := by
  by_cases hp : p
  · rw [if_pos hp]
    exact hc hp
  · rw [if_neg hp]
    exact hd hp

theorem Keeps.tryCatch {c : Coro σ Op ε α} {handler : ε → Option (Coro σ Op ε α)}
    (hc : c.Keeps exec R s) (hhandler : ∀ e, ∀ c' ∈ handler e, ∀ s', c'.Keeps exec R s') :
    (c.tryCatch handler).Keeps exec R s := by
  rw [Keeps, run_tryCatch]
  rcases hrun : c.run exec s with ⟨e | a, s'⟩
  · rw [Keeps, hrun] at hc
    show R s (((handler e).getD (.raise e)).run exec s').2
    cases hcase : handler e with
    | none => exact hc
    | some c' => exact trans_of R hc (hhandler e c' hcase s')
  · rw [Keeps, hrun] at hc
    exact hc

/-- A relation every operation of the run respects. -/
theorem Performs.keeps {P : Op → Prop} {c : Coro σ Op ε α} (hc : c.Performs exec P s)
    (hP : ∀ op, P op → ∀ s, R s (exec op s)) : c.Keeps exec R s := by
  induction c generalizing s with
  | done a => exact keeps_done a
  | raise e => exact keeps_raise e
  | await op next ih => exact trans_of R (hP op hc.1 s) (ih s hc.2)

/-- A relation every operation of the coroutine respects. -/
theorem Every.keeps {P : Op → Prop} {c : Coro σ Op ε α} (hc : c.Every P)
    (hP : ∀ op, P op → ∀ s, R s (exec op s)) (s : σ) : c.Keeps exec R s :=
  (hc.performs s).keeps hP

end Keeps

end Coro

end Krewhub
