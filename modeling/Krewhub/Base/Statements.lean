import Krewhub.Base.Interleave

/-!
# Statements that may fail

A coroutine that executes statements on one connection, each of which may fail: one that is not possible in the
tables as they are, and one chosen beforehand. A statement that fails leaves the tables as they are, and raises
in the coroutine, whose earlier statements stay in the transaction that is open on the connection. Any commit on
the connection, whoever asks for it, puts them on the disk.
-/

namespace Krewhub

/-- What the statements do to the tables, where they can, and which of them commits. -/
structure Statements (T Op : Type) where
  apply : Op → T → T
  possible : Op → T → Bool
  isCommit : Op → Bool

/-- The tables, and how many statements go through before one fails if one is to fail. -/
structure Faulty (T : Type) where
  tables : T
  left : Option Nat := none

/-- What is raised by a statement that fails. -/
structure StatementError where
  deriving DecidableEq, Repr

namespace Statements

variable {T Op α β : Type} (lang : Statements T Op)

def fails (op : Op) (s : Faulty T) : Bool := s.left == some 0 || !lang.possible op s.tables

def exec (op : Op) (s : Faulty T) : Faulty T :=
  if lang.fails op s then s else { tables := lang.apply op s.tables, left := s.left.map (· - 1) }

/-- `await db.execute`, and what is fetched from it. -/
def execute (op : Op) (read : T → α) : Coro (Faulty T) Op StatementError α := do
  match ← Coro.perform op fun s => if lang.fails op s then none else some (read s.tables) with
  | some a => return a
  | none => .raise {}

/-- One statement after the other. -/
def executeAll : List Op → Coro (Faulty T) Op StatementError Unit
  | [] => pure ()
  | op :: ops => do
    lang.execute op fun _ => ()
    executeAll ops

/-- The statements go through, one after the other. -/
inductive Through : Faulty T → List Op → Faulty T → Prop where
  | nil (s : Faulty T) : Through s [] s
  | cons {s t : Faulty T} {op : Op} {ops : List Op} (hok : lang.fails op s = false)
    (hrest : Through (lang.exec op s) ops t) : Through s (op :: ops) t

variable {lang} {s t : Faulty T} {op : Op} {ops ops' : List Op}

theorem exec_of_fails (h : lang.fails op s = true) : lang.exec op s = s := if_pos h

theorem tables_exec (h : lang.fails op s = false) : (lang.exec op s).tables = lang.apply op s.tables := by
  rw [exec, h]
  rfl

theorem possible_of_not_fails (h : lang.fails op s = false) : lang.possible op s.tables = true := by
  rw [fails, Bool.or_eq_false_iff, Bool.not_eq_false'] at h
  exact h.2

theorem Through.tables_eq (h : lang.Through s ops t) :
    t.tables = ops.foldl (fun tables op => lang.apply op tables) s.tables := by
  induction h with
  | nil s => rfl
  | cons hok hrest ih => rw [ih, tables_exec hok, List.foldl_cons]

/-- What every statement of the list keeps is kept by all of them. -/
theorem Through.inv {I : T → Prop} (h : lang.Through s ops t)
    (hstep : ∀ op ∈ ops, ∀ tables, lang.possible op tables = true → I tables → I (lang.apply op tables))
    (hs : I s.tables) : I t.tables := by
  induction h with
  | nil s => exact hs
  | cons hok hrest ih =>
    refine ih (fun op hop => hstep op (List.mem_cons_of_mem _ hop)) ?_
    rw [tables_exec hok]
    exact hstep _ List.mem_cons_self _ (possible_of_not_fails hok) hs

theorem executeAll_append (ops ops' : List Op) :
    lang.executeAll (ops ++ ops') = lang.executeAll ops >>= fun _ => lang.executeAll ops' := by
  induction ops with
  | nil => rfl
  | cons op ops ih => rw [List.cons_append, executeAll, executeAll, ih, bind_assoc]

/-! ### Runs -/

theorem run_execute (read : T → α) :
    (lang.execute op read).run lang.exec s =
      if lang.fails op s then (.error {}, s) else (.ok (read s.tables), lang.exec op s) := by
  rw [execute, Coro.run_bind_ok lang.exec (Coro.run_perform lang.exec op _ s)]
  cases hfails : lang.fails op s with
  | true =>
    rw [exec_of_fails hfails]
    rfl
  | false => rfl

theorem ops_execute (read : T → α) : (lang.execute op read).ops lang.exec s = [op] := by
  rw [execute, Coro.ops_bind_ok (Coro.run_perform lang.exec op _ s)]
  cases lang.fails op s <;> rfl

variable {read : T → α} {f : α → Coro (Faulty T) Op StatementError β}

/-- A statement that fails ends a sequence. -/
theorem bind_of_fails (h : lang.fails op s = true) :
    (lang.execute op read >>= f).run lang.exec s = (.error {}, s) ∧
      (lang.execute op read >>= f).ops lang.exec s = [op] := by
  rw [Coro.run_bind, Coro.ops_bind, run_execute, ops_execute, h]
  exact ⟨rfl, rfl⟩

theorem bind_of_not_fails (h : lang.fails op s = false) :
    (lang.execute op read >>= f).run lang.exec s = (f (read s.tables)).run lang.exec (lang.exec op s) ∧
      (lang.execute op read >>= f).ops lang.exec s =
        op :: (f (read s.tables)).ops lang.exec (lang.exec op s) := by
  rw [Coro.run_bind, Coro.ops_bind, run_execute, ops_execute, h]
  exact ⟨rfl, rfl⟩

/-- A sequence raises where what follows its first statement does. -/
theorem raises_of_rest
    (h : lang.fails op s = false → ((f (read s.tables)).run lang.exec (lang.exec op s)).1 = .error {}) :
    ((lang.execute op read >>= f).run lang.exec s).1 = .error {} := by
  cases hfails : lang.fails op s with
  | true => rw [(bind_of_fails hfails).1]
  | false =>
    rw [(bind_of_not_fails hfails).1]
    exact h hfails

/-- A list of statements goes through, or as far as one that fails. -/
theorem run_executeAll (ops : List Op) (s : Faulty T) :
    (∃ t, (lang.executeAll ops).run lang.exec s = (.ok (), t) ∧ (lang.executeAll ops).ops lang.exec s = ops ∧
        lang.Through s ops t) ∨
      ∃ k t, k < ops.length ∧ (lang.executeAll ops).run lang.exec s = (.error {}, t) ∧
        ((lang.executeAll ops).ops lang.exec s).length = k + 1 ∧ lang.Through s (ops.take k) t := by
  induction ops generalizing s with
  | nil => exact .inl ⟨s, rfl, rfl, .nil s⟩
  | cons op ops ih =>
    rw [executeAll]
    cases hfails : lang.fails op s with
    | true =>
      obtain ⟨hrun, hops⟩ := bind_of_fails hfails
      exact .inr ⟨0, s, Nat.succ_pos _, hrun, congrArg List.length hops, .nil s⟩
    | false =>
      obtain ⟨hrun, hops⟩ := bind_of_not_fails hfails
      rw [hrun, hops]
      rcases ih (lang.exec op s) with ⟨t, hok, hall, hthrough⟩ | ⟨k, t, hk, herror, hlength, hthrough⟩
      · exact .inl ⟨t, hok, congrArg (op :: ·) hall, .cons hfails hthrough⟩
      · exact .inr ⟨k + 1, t, Nat.succ_lt_succ hk, herror, congrArg Nat.succ hlength, .cons hfails hthrough⟩

end Statements

/-! ### The connection -/

namespace Coro

variable {σ τ Op ε α : Type} {exec : Op → σ → σ} {exec' : Op → τ → τ} {env : τ → τ → Prop} {view : τ → σ}

/-- Where others leave alone what a coroutine sees, it runs as it does by itself. -/
theorem Runs.of_on {c : Coro σ Op ε α} {s t : τ} {steps : List (Op × τ)} {r : Except ε α}
    (h : (c.on view).Runs exec' env s steps r t) (hexec : ∀ op s, view (exec' op s) = exec op (view s))
    (henv : ∀ s s', env s s' → view s' = view s) :
    c.run exec (view s) = (r, view t) ∧ c.ops exec (view s) = steps.map (·.1) := by
  induction c generalizing s steps with
  | done a =>
    cases h
    exact ⟨rfl, rfl⟩
  | raise e =>
    cases h
    exact ⟨rfl, rfl⟩
  | await op next ih =>
    cases h with
    | await hturn hrest =>
      obtain ⟨hrun, hops⟩ := ih _ hrest
      rw [hexec, henv _ _ hturn] at hrun hops
      exact ⟨hrun, congrArg (op :: ·) hops⟩

end Coro

/-- The tables as the connection shows them, and as they were at the last commit. -/
structure OnDisk (T : Type) where
  live : Faulty T
  disk : T

namespace OnDisk

variable {T Op : Type} (lang : Statements T Op)

/-- A commit, by anyone. -/
def commit (c : OnDisk T) : OnDisk T := { c with disk := c.live.tables }

def exec (op : Op) (c : OnDisk T) : OnDisk T where
  live := lang.exec op c.live
  disk := if lang.isCommit op && !lang.fails op c.live then c.live.tables else c.disk

/-- Others on the connection may commit at any time. -/
def Others (c c' : OnDisk T) : Prop := c' = c ∨ c' = c.commit

variable {lang} {c c' : OnDisk T}

theorem Others.refl (c : OnDisk T) : Others c c := .inl rfl

theorem Others.live_eq (h : Others c c') : c'.live = c.live := by
  rcases h with rfl | rfl <;> rfl

/-- After a failure and the next commit the tables are on the disk as the failed coroutine left them. -/
theorem of_runs {ε α : Type} {coro : Coro (Faulty T) Op ε α} {steps : List (Op × OnDisk T)} {r : Except ε α}
    (h : (coro.on live).Runs (exec lang) Others c steps r c') :
    coro.run lang.exec c.live = (r, c'.live) ∧ (coro.ops lang.exec c.live).length = steps.length := by
  have hexec : ∀ op c, (exec lang op c).live = lang.exec op c.live := fun _ _ => rfl
  obtain ⟨hrun, hops⟩ := h.of_on hexec fun _ _ => Others.live_eq
  exact ⟨hrun, by rw [hops, List.length_map]⟩

end OnDisk

end Krewhub
