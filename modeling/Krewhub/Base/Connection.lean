import Mathlib.Logic.Function.Basic
import Mathlib.Tactic.Common

/-!
# Coroutines on one connection

Coroutines that await statements of one shared connection, some of them inside of named locks. A statement is
put into the queue of the connection, which executes one at a time in the order they were put in, and its
result is there for the coroutine when that goes on. A coroutine may be cancelled at any point: it leaves its
locks, and the statement it has submitted is executed all the same.
-/

namespace Krewhub

/-- A computation that awaits statements, and enters and leaves locks. -/
inductive Async (Stmt Res ε α : Type) where
  | done (a : α)
  | raise (e : ε)
  | execute (stmt : Stmt) (next : Res → Async Stmt Res ε α)
  | acquire (lock : String) (next : Async Stmt Res ε α)
  | release (lock : String) (next : Async Stmt Res ε α)

namespace Async

variable {Stmt Res ε α β : Type}

protected def bind : Async Stmt Res ε α → (α → Async Stmt Res ε β) → Async Stmt Res ε β
  | .done a, f => f a
  | .raise e, _ => .raise e
  | .execute stmt next, f => .execute stmt fun r => (next r).bind f
  | .acquire lock next, f => .acquire lock (next.bind f)
  | .release lock next, f => .release lock (next.bind f)

instance : Monad (Async Stmt Res ε) where
  pure := .done
  bind := Async.bind

/-- A statement whose result may be an exception. -/
def await {ρ : Type} (stmt : Stmt) : Async Stmt (Except ε ρ) ε ρ :=
  .execute stmt fun
    | .ok r => .done r
    | .error e => .raise e

/-- `async with lock`; an exception of the body leaves the lock where it is raised. -/
def within (lock : String) (body : Async Stmt Res ε α) : Async Stmt Res ε α :=
  .acquire lock (body >>= fun a => .release lock (.done a))

def isOver : Async Stmt Res ε α → Bool
  | .done _ | .raise _ => true
  | _ => false

def raises : Async Stmt Res ε α → Bool
  | .raise _ => true
  | _ => false

end Async

/-- What is left of a coroutine: it is about to take a step, or awaits a statement. -/
inductive Job (Stmt Res ε α : Type) where
  | ready (rest : Async Stmt Res ε α)
  | waiting (stmt : Stmt) (next : Res → Async Stmt Res ε α)
  | cancelled

/-- The rows, the statements that are submitted, the results that have not been taken, who is inside of which
lock, and the coroutines. -/
structure Connection (ι σ Stmt Res ε α : Type) where
  table : σ
  queue : List (ι × Stmt) := []
  answer : ι → Option Res := fun _ => none
  holder : String → Option ι := fun _ => none
  job : ι → Job Stmt Res ε α

/-- A coroutine takes a step or is cancelled, or the connection executes a statement. -/
inductive ConnectionTurn (ι : Type) where
  | run (i : ι)
  | cancel (i : ι)
  | serve
  deriving DecidableEq, Repr

namespace Connection

variable {ι σ Stmt Res ε α : Type} [DecidableEq ι] (exec : Stmt → σ → σ × Res)

/-- The locks without those of one coroutine. -/
def freed (i : ι) (holder : String → Option ι) (lock : String) : Option ι :=
  if holder lock = some i then none else holder lock

/-- A coroutine that goes on with the result it has waited for. -/
def resume (c : Connection ι σ Stmt Res ε α) (i : ι) (rest : Async Stmt Res ε α) :
    Connection ι σ Stmt Res ε α :=
  { c with
    answer := Function.update c.answer i none
    holder := if rest.raises then freed i c.holder else c.holder
    job := Function.update c.job i (.ready rest) }

/-- A step of a coroutine; none where it waits for a result or a lock that is not there. -/
def step (c : Connection ι σ Stmt Res ε α) (i : ι) : Connection ι σ Stmt Res ε α :=
  match c.job i with
  | .ready (.execute stmt next) =>
    { c with
      queue := c.queue ++ [(i, stmt)]
      answer := Function.update c.answer i none
      job := Function.update c.job i (.waiting stmt next) }
  | .ready (.acquire lock next) =>
    if c.holder lock = none then
      { c with
        holder := Function.update c.holder lock (some i)
        job := Function.update c.job i (.ready next) }
    else c
  | .ready (.release lock next) =>
    { c with
      holder := Function.update c.holder lock none
      job := Function.update c.job i (.ready next) }
  | .waiting _ next =>
    match c.answer i with
    | some r => c.resume i (next r)
    | none => c
  | _ => c

/-- The coroutine is cancelled, unless it is over. -/
def cancel (c : Connection ι σ Stmt Res ε α) (i : ι) : Connection ι σ Stmt Res ε α :=
  match c.job i with
  | .ready (.done _) | .ready (.raise _) | .cancelled => c
  | _ => { c with
    holder := freed i c.holder
    job := Function.update c.job i .cancelled }

/-- The connection executes the first statement of the queue. -/
def serve (c : Connection ι σ Stmt Res ε α) : Connection ι σ Stmt Res ε α :=
  match c.queue with
  | [] => c
  | (i, stmt) :: queue =>
    { c with
      table := (exec stmt c.table).1
      queue := queue
      answer := Function.update c.answer i (some (exec stmt c.table).2) }

def take (c : Connection ι σ Stmt Res ε α) : ConnectionTurn ι → Connection ι σ Stmt Res ε α
  | .run i => c.step i
  | .cancel i => c.cancel i
  | .serve => c.serve exec

/-- The connection after a schedule. -/
def run (c : Connection ι σ Stmt Res ε α) (turns : List (ConnectionTurn ι)) :
    Connection ι σ Stmt Res ε α := turns.foldl (take exec) c

variable {exec}

/-- What every turn keeps holds after every schedule. -/
theorem inv_run {I : Connection ι σ Stmt Res ε α → Prop} (h : ∀ c turn, I c → I (c.take exec turn))
    {c : Connection ι σ Stmt Res ε α} (hc : I c) (turns : List (ConnectionTurn ι)) :
    I (c.run exec turns) := by
  induction turns generalizing c with
  | nil => exact hc
  | cons turn turns ih => exact ih (h c turn hc)

section Steps

variable {c : Connection ι σ Stmt Res ε α} {i : ι}

theorem step_execute {stmt : Stmt} {next : Res → Async Stmt Res ε α}
    (h : c.job i = .ready (.execute stmt next)) :
    c.step i = { c with
      queue := c.queue ++ [(i, stmt)]
      answer := Function.update c.answer i none
      job := Function.update c.job i (.waiting stmt next) } := by
  rw [step, h]

theorem step_acquire {lock : String} {next : Async Stmt Res ε α} (h : c.job i = .ready (.acquire lock next)) :
    c.step i = if c.holder lock = none then
      { c with
        holder := Function.update c.holder lock (some i)
        job := Function.update c.job i (.ready next) } else c := by
  rw [step, h]

theorem step_release {lock : String} {next : Async Stmt Res ε α} (h : c.job i = .ready (.release lock next)) :
    c.step i = { c with
      holder := Function.update c.holder lock none
      job := Function.update c.job i (.ready next) } := by
  rw [step, h]

theorem step_waiting {stmt : Stmt} {next : Res → Async Stmt Res ε α} (h : c.job i = .waiting stmt next) :
    c.step i = (c.answer i).elim c fun r => c.resume i (next r) := by
  rw [step, h]
  cases c.answer i <;> rfl

theorem serve_cons {stmt : Stmt} {queue : List (ι × Stmt)} (h : c.queue = (i, stmt) :: queue) :
    c.serve exec = { c with
      table := (exec stmt c.table).1
      queue := queue
      answer := Function.update c.answer i (some (exec stmt c.table).2) } := by
  rw [serve, h]

theorem step_done {a : α} (h : c.job i = .ready (.done a)) : c.step i = c := by rw [step, h]

/-- A coroutine that is not over leaves its locks. -/
theorem cancel_eq (c : Connection ι σ Stmt Res ε α) (i : ι) :
    c.cancel i = c ∨ c.cancel i =
      { c with holder := freed i c.holder, job := Function.update c.job i .cancelled } := by
  unfold cancel
  split
  · exact .inl rfl
  · exact .inl rfl
  · exact .inl rfl
  · exact .inr rfl

theorem step_cancelled (h : c.job i = .cancelled) : c.step i = c := by rw [step, h]

end Steps

/-! ### Statements and their coroutines -/

/-- What a coroutine has submitted. -/
def submitted (queue : List (ι × Stmt)) (i : ι) : List (ι × Stmt) := queue.filter (·.1 == i)

/-- A coroutine that waits has its statement in the queue, or its result; one that does not has none there. -/
def Paired (c : Connection ι σ Stmt Res ε α) (i : ι) : Prop :=
  match c.job i with
  | .ready _ => submitted c.queue i = []
  | .waiting stmt _ => (c.answer i = none ∧ submitted c.queue i = [(i, stmt)]) ∨
      ((c.answer i).isSome ∧ submitted c.queue i = [])
  | .cancelled => True

variable {c : Connection ι σ Stmt Res ε α} {i j : ι} {stmt : Stmt} {queue : List (ι × Stmt)}

theorem submitted_concat_self : submitted (queue ++ [(i, stmt)]) i = submitted queue i ++ [(i, stmt)] := by
  simp [submitted]

theorem submitted_concat_ne (h : j ≠ i) : submitted (queue ++ [(j, stmt)]) i = submitted queue i := by
  simp [submitted, h]

theorem submitted_cons_self : submitted ((i, stmt) :: queue) i = (i, stmt) :: submitted queue i := by
  simp [submitted]

theorem submitted_cons_ne (h : j ≠ i) : submitted ((j, stmt) :: queue) i = submitted queue i := by
  simp [submitted, h]

/-- A step changes what it says of the coroutine that takes it. -/
theorem paired_of_job_eq {c' : Connection ι σ Stmt Res ε α} (h : Paired c i) (hjob : c'.job i = c.job i)
    (hanswer : c'.answer i = c.answer i) (hqueue : submitted c'.queue i = submitted c.queue i) :
    Paired c' i := by
  unfold Paired
  rw [hjob, hanswer, hqueue]
  exact h

theorem paired_step (h : ∀ i, Paired c i) (i j : ι) : Paired (c.step i) j := by
  have hi := h i
  unfold Paired at hi
  unfold step
  split
  next stmt next hjob =>
    rw [hjob] at hi
    by_cases hj : j = i
    · subst hj
      unfold Paired
      dsimp only
      rw [Function.update_self, Function.update_self]
      exact .inl ⟨rfl, by rw [submitted_concat_self, hi, List.nil_append]⟩
    · exact paired_of_job_eq (h j) (Function.update_of_ne hj _ _) (Function.update_of_ne hj _ _)
        (submitted_concat_ne (Ne.symm hj))
  next lock next hjob =>
    rw [hjob] at hi
    split
    · by_cases hj : j = i
      · subst hj
        unfold Paired
        dsimp only
        rw [Function.update_self]
        exact hi
      · exact paired_of_job_eq (h j) (Function.update_of_ne hj _ _) rfl rfl
    · exact h j
  next lock next hjob =>
    rw [hjob] at hi
    by_cases hj : j = i
    · subst hj
      unfold Paired
      dsimp only
      rw [Function.update_self]
      exact hi
    · exact paired_of_job_eq (h j) (Function.update_of_ne hj _ _) rfl rfl
  next stmt next hjob =>
    rw [hjob] at hi
    split
    next r hr =>
      by_cases hj : j = i
      · subst hj
        have hnone : submitted c.queue j = [] := by
          rcases hi with ⟨hnone, -⟩ | ⟨-, hnone⟩
          · rw [hr] at hnone
            cases hnone
          · exact hnone
        unfold Paired resume
        dsimp only
        rw [Function.update_self]
        exact hnone
      · exact paired_of_job_eq (h j) (Function.update_of_ne hj _ _) (Function.update_of_ne hj _ _) rfl
    next => exact h j
  next => exact h j

theorem paired_cancel (h : ∀ i, Paired c i) (i j : ι) : Paired (c.cancel i) j := by
  rcases cancel_eq c i with heq | heq <;> rw [heq]
  · exact h j
  · by_cases hj : j = i
    · subst hj
      unfold Paired
      dsimp only
      rw [Function.update_self]
      trivial
    · exact paired_of_job_eq (h j) (Function.update_of_ne hj _ _) rfl rfl

theorem paired_serve (h : ∀ i, Paired c i) (j : ι) : Paired (c.serve exec) j := by
  have hj := h j
  unfold serve
  split
  next => exact hj
  next i stmt queue hqueue =>
    by_cases hij : i = j
    · subst hij
      unfold Paired at hj ⊢
      rw [hqueue, submitted_cons_self] at hj
      dsimp only
      rw [Function.update_self]
      split at hj
      next => cases hj
      next =>
        rcases hj with ⟨-, hj⟩ | ⟨-, hj⟩
        · exact .inr ⟨rfl, (List.cons.inj hj).2⟩
        · cases hj
      next => trivial
    · refine paired_of_job_eq hj rfl (Function.update_of_ne (Ne.symm hij) _ _) ?_
      rw [hqueue, submitted_cons_ne hij]

theorem paired_take (h : ∀ i, Paired c i) (turn : ConnectionTurn ι) (j : ι) : Paired (c.take exec turn) j := by
  cases turn with
  | run i => exact paired_step h i j
  | cancel i => exact paired_cancel h i j
  | serve => exact paired_serve h j

end Connection

end Krewhub
