import Krewhub.Base.Connection
import Krewhub.Invocations.Tape
import Krewhub.Store.Database

/-!
# Dense numbers

`InvocationEventRepo.append` reads the next number of a tape, inserts the event and commits, inside of the lock
of the tape. All of it goes over the one connection of the process, and an append may be cut off at any of its
awaits. The events of every tape have the numbers from 0 on, each once and in the order they were inserted in.
-/

namespace Krewhub

/-! ### Statements -/

/-- A statement of `append`; `fetchone` takes the row the cursor is at. -/
inductive TapeStmt where
  | selectNext (tapeId : String)
  | fetchone (n : Nat)
  | insert (event : TapeEvent)
  | commit

/-- `COALESCE(MAX(id), -1) + 1`. -/
def nextTapeId (rows : List TapeEvent) (tapeId : String) : Nat :=
  ((rows.filter (·.tapeId == tapeId)).map (·.id + 1)).foldl max 0

/-- What a statement makes of the rows, and what it gives; `(tape_id, id)` is the primary key. -/
def TapeStmt.exec (stmt : TapeStmt) (rows : List TapeEvent) : List TapeEvent × Except Exn Nat :=
  match stmt with
  | .selectNext tapeId => (rows, .ok (nextTapeId rows tapeId))
  | .fetchone n => (rows, .ok n)
  | .insert event =>
    if rows.any (fun e => e.tapeId == event.tapeId && e.id == event.id) then
      (rows, .error (.integrityError "invocation_events"))
    else (rows ++ [event], .ok 0)
  | .commit => (rows, .ok 0)

abbrev Appending (α : Type) := Async TapeStmt (Except Exn Nat) Exn α

namespace InvocationEventRepo

def append (draft : TapeDraft) : Appending TapeEvent :=
  .within draft.tapeId do
    let cursor ← .await (.selectNext draft.tapeId)
    let nextId ← .await (.fetchone cursor)
    let event : TapeEvent := { draft with id := nextId }
    let _ ← .await (.insert event)
    let _ ← .await .commit
    return event

/-! ### Its steps -/

variable (draft : TapeDraft) (n : Nat)

def leave : Except Exn Nat → Appending TapeEvent
  | .ok _ => .release draft.tapeId (.done { draft with id := n })
  | .error e => .raise e

def commit : Except Exn Nat → Appending TapeEvent
  | .ok _ => .execute .commit (leave draft n)
  | .error e => .raise e

def insert : Except Exn Nat → Appending TapeEvent
  | .ok n => .execute (.insert { draft with id := n }) (commit draft n)
  | .error e => .raise e

def fetch : Except Exn Nat → Appending TapeEvent
  | .ok n => .execute (.fetchone n) (insert draft)
  | .error e => .raise e

def select : Appending TapeEvent := .execute (.selectNext draft.tapeId) (fetch draft)

theorem append_eq : append draft = .acquire draft.tapeId (select draft) := by
  have hexecute : ∀ (stmt : TapeStmt) (f g : Except Exn Nat → Appending TapeEvent), (∀ r, f r = g r) →
      (.execute stmt f : Appending TapeEvent) = .execute stmt g := fun stmt f g h => by rw [funext h]
  refine congrArg (Async.acquire draft.tapeId) (hexecute _ _ _ fun r => ?_)
  cases r with
  | error e => rfl
  | ok n =>
    refine hexecute _ _ _ fun r => ?_
    cases r with
    | error e => rfl
    | ok n =>
      refine hexecute _ _ _ fun r => ?_
      cases r with
      | error e => rfl
      | ok _ =>
        refine hexecute _ _ _ fun r => ?_
        cases r <;> rfl

end InvocationEventRepo

/-! ### Dense rows -/

/-- The events of a tape. -/
def onTape (rows : List TapeEvent) (tapeId : String) : List TapeEvent := rows.filter (·.tapeId == tapeId)

/-- The events of every tape have the numbers from 0 on, in the order they were inserted in. -/
def Dense (rows : List TapeEvent) : Prop :=
  ∀ tapeId, (onTape rows tapeId).map (·.id) = List.range (onTape rows tapeId).length

variable {rows : List TapeEvent} {event : TapeEvent} {tapeId : String}

theorem foldl_max_range (n : Nat) : ((List.range n).map (· + 1)).foldl max 0 = n := by
  induction n with
  | zero => rfl
  | succ n ih => rw [List.range_succ, List.map_append, List.foldl_append, ih]; simp

theorem nextTapeId_of_dense (h : Dense rows) : nextTapeId rows tapeId = (onTape rows tapeId).length := by
  have hmap : (onTape rows tapeId).map (·.id + 1) =
      (List.range (onTape rows tapeId).length).map (· + 1) := by
    rw [← h tapeId, List.map_map]
    rfl
  rw [nextTapeId, show rows.filter (·.tapeId == tapeId) = onTape rows tapeId from rfl, hmap, foldl_max_range]

theorem onTape_concat_self : onTape (rows ++ [event]) event.tapeId = onTape rows event.tapeId ++ [event] := by
  simp [onTape]

theorem onTape_concat_ne (h : event.tapeId ≠ tapeId) : onTape (rows ++ [event]) tapeId = onTape rows tapeId := by
  simp [onTape, h]

/-- An event with the next number is inserted, and leaves the rows dense. -/
theorem exec_insert_of_dense (h : Dense rows) (hid : event.id = (onTape rows event.tapeId).length) :
    TapeStmt.exec (.insert event) rows = (rows ++ [event], .ok 0) ∧ Dense (rows ++ [event]) := by
  constructor
  · refine if_neg fun hconflict => ?_
    obtain ⟨e, he, heq⟩ := List.any_eq_true.mp hconflict
    rw [Bool.and_eq_true, beq_iff_eq, beq_iff_eq] at heq
    have hmem : e.id ∈ (onTape rows event.tapeId).map (·.id) :=
      List.mem_map_of_mem (List.mem_filter.mpr ⟨he, beq_iff_eq.mpr heq.1⟩)
    rw [h event.tapeId, List.mem_range, heq.2, hid] at hmem
    exact absurd hmem (Nat.lt_irrefl _)
  · intro tapeId
    by_cases htape : event.tapeId = tapeId
    · subst htape
      rw [onTape_concat_self, List.map_append, h, List.length_append, List.length_singleton, List.range_succ,
        List.map_singleton, hid]
    · rw [onTape_concat_ne htape]
      exact h tapeId

/-! ### Statements that wait -/

/-- The inserts of the queue have the numbers that are next when their turn comes. -/
def Numbered (rows : List TapeEvent) : List (Nat × TapeStmt) → Prop
  | [] => True
  | (_, .insert event) :: queue => event.id = (onTape rows event.tapeId).length ∧ Numbered (rows ++ [event]) queue
  | _ :: queue => Numbered rows queue

/-- No insert on the tape waits. -/
def Clear (queue : List (Nat × TapeStmt)) (tapeId : String) : Prop :=
  ∀ i event, (i, .insert event) ∈ queue → event.tapeId ≠ tapeId

/-- The statement inserts nothing on the tape. -/
def TapeStmt.Spares (stmt : TapeStmt) (tapeId : String) : Prop :=
  ∀ event, stmt = .insert event → event.tapeId ≠ tapeId

/-- No insert on the tape waits behind the statement of the coroutine. -/
def ClearAfter (queue : List (Nat × TapeStmt)) (i : Nat) (tapeId : String) : Prop :=
  ∀ before after stmt, queue = before ++ (i, stmt) :: after → Clear after tapeId

section Queue

variable {queue : List (Nat × TapeStmt)} {i j : Nat} {stmt : TapeStmt}

theorem numbered_concat (h : Numbered rows queue) (hstmt : ∀ event, stmt ≠ .insert event) :
    Numbered rows (queue ++ [(i, stmt)]) := by
  induction queue generalizing rows with
  | nil =>
    cases stmt
    case insert event => exact absurd rfl (hstmt event)
    all_goals trivial
  | cons head queue ih =>
    obtain ⟨k, stmt'⟩ := head
    cases stmt'
    case insert event => exact ⟨h.1, ih h.2⟩
    all_goals exact ih h

/-- An insert with the number that is next now, behind none on its tape. -/
theorem numbered_concat_insert (h : Numbered rows queue) (hclear : Clear queue event.tapeId)
    (hid : event.id = (onTape rows event.tapeId).length) : Numbered rows (queue ++ [(i, .insert event)]) := by
  induction queue generalizing rows with
  | nil => exact ⟨hid, trivial⟩
  | cons head queue ih =>
    obtain ⟨k, stmt'⟩ := head
    have hrest : Clear queue event.tapeId := fun i' event' hmem => hclear i' event' (List.mem_cons_of_mem _ hmem)
    cases stmt'
    case insert event' =>
      refine ⟨h.1, ih h.2 hrest ?_⟩
      rw [onTape_concat_ne (hclear k event' List.mem_cons_self)]
      exact hid
    all_goals exact ih h hrest hid

theorem onTape_exec (h : stmt.Spares tapeId) : onTape (stmt.exec rows).1 tapeId = onTape rows tapeId := by
  cases stmt with
  | insert event =>
    unfold TapeStmt.exec
    dsimp only
    split
    · rfl
    · exact onTape_concat_ne (h event rfl)
  | selectNext | fetchone | commit => rfl

/-- The first statement of the queue is executed. -/
theorem exec_head (h : Dense rows) (hnumbered : Numbered rows ((i, stmt) :: queue)) :
    Dense (stmt.exec rows).1 ∧ Numbered (stmt.exec rows).1 queue := by
  cases stmt with
  | insert event =>
    obtain ⟨hexec, hdense⟩ := exec_insert_of_dense h hnumbered.1
    rw [hexec]
    exact ⟨hdense, hnumbered.2⟩
  | selectNext | fetchone | commit => exact ⟨h, hnumbered⟩

theorem clear_concat (h : Clear queue tapeId) (hstmt : stmt.Spares tapeId) :
    Clear (queue ++ [(i, stmt)]) tapeId := by
  intro k event hmem
  rcases List.mem_append.mp hmem with hmem | hmem
  · exact h k event hmem
  · exact hstmt event (Prod.mk.inj (List.mem_singleton.mp hmem)).2.symm

theorem clearAfter_concat (h : ClearAfter queue j tapeId) (hne : i ≠ j) (hstmt : stmt.Spares tapeId) :
    ClearAfter (queue ++ [(i, stmt)]) j tapeId := by
  intro before after stmt' heq
  rcases List.eq_nil_or_concat after with rfl | ⟨after', last, rfl⟩
  · exact fun _ _ hmem => absurd hmem List.not_mem_nil
  · rw [List.concat_eq_append, ← List.cons_append, ← List.append_assoc] at heq
    obtain ⟨hqueue, hlast⟩ := List.append_inj' heq rfl
    rw [List.concat_eq_append, ← List.singleton_inj.mp hlast]
    exact clear_concat (h before after' stmt' hqueue) hstmt

/-- Nothing waits behind the last statement. -/
theorem clearAfter_concat_self (h : Connection.submitted queue i = []) :
    ClearAfter (queue ++ [(i, stmt)]) i tapeId := by
  intro before after stmt' heq
  rcases List.eq_nil_or_concat after with rfl | ⟨after', last, rfl⟩
  · exact fun _ _ hmem => absurd hmem List.not_mem_nil
  · rw [List.concat_eq_append, ← List.cons_append, ← List.append_assoc] at heq
    obtain ⟨hqueue, -⟩ := List.append_inj' heq rfl
    have hmem : (i, stmt') ∈ Connection.submitted queue i := by
      rw [hqueue]
      exact List.mem_filter.mpr ⟨by simp, beq_self_eq_true i⟩
    rw [h] at hmem
    cases hmem

end Queue

/-! ### How far an append has come -/

/-- Outside of the lock; inside, with nothing asked; with the next number asked for; knowing it; with the event
submitted. -/
inductive AppendPhase where
  | outside
  | entered
  | selecting
  | knows (n : Nat)
  | leaving

open InvocationEventRepo in
inductive InPhase (draft : TapeDraft) :
    Job TapeStmt (Except Exn Nat) Exn TapeEvent → AppendPhase → Prop
  | start : InPhase draft (.ready (append draft)) .outside
  | entered : InPhase draft (.ready (select draft)) .entered
  | selecting : InPhase draft (.waiting (.selectNext draft.tapeId) (fetch draft)) .selecting
  | selected (n : Nat) : InPhase draft (.ready (fetch draft (.ok n))) (.knows n)
  | fetching (n : Nat) : InPhase draft (.waiting (.fetchone n) (insert draft)) (.knows n)
  | fetched (n : Nat) : InPhase draft (.ready (insert draft (.ok n))) (.knows n)
  | inserting (n : Nat) : InPhase draft (.waiting (.insert { draft with id := n }) (commit draft n)) .leaving
  | inserted (n m : Nat) : InPhase draft (.ready (commit draft n (.ok m))) .leaving
  | committing (n : Nat) : InPhase draft (.waiting .commit (leave draft n)) .leaving
  | committed (n m : Nat) : InPhase draft (.ready (leave draft n (.ok m))) .leaving
  | returned (event : TapeEvent) : InPhase draft (.ready (.done event)) .outside
  | cancelled : InPhase draft .cancelled .outside

/-- The appends on their connection. -/
abbrev TapeConnection := Connection Nat (List TapeEvent) TapeStmt (Except Exn Nat) Exn TapeEvent

/-- What an append in this phase relies on: it is in the lock of its tape, and the number it knows, or is about to
be given, is the next one. -/
def PhaseHolds (c : TapeConnection) (i : Nat) (tapeId : String) : AppendPhase → Prop
  | .outside => True
  | .entered => c.holder tapeId = some i
  | .selecting => c.holder tapeId = some i ∧ (c.answer i = none → ClearAfter c.queue i tapeId) ∧
      ∀ r, c.answer i = some r → r = .ok (onTape c.table tapeId).length ∧ Clear c.queue tapeId
  | .knows n => c.holder tapeId = some i ∧ n = (onTape c.table tapeId).length ∧ Clear c.queue tapeId ∧
      ∀ r, c.answer i = some r → r = .ok n
  | .leaving => c.holder tapeId = some i ∧ ∀ r, c.answer i = some r → ∃ m, r = .ok m

/-- The rows are dense, and every append is where it may be. -/
structure AppendHolds (drafts : Nat → TapeDraft) (c : TapeConnection) : Prop where
  dense : Dense c.table
  numbered : Numbered c.table c.queue
  paired : ∀ i, c.Paired i
  phase : ∀ i, ∃ phase, InPhase (drafts i) (c.job i) phase ∧ PhaseHolds c i (drafts i).tapeId phase

section Steps

variable {drafts : Nat → TapeDraft} {c c' : TapeConnection} {i j : Nat} {phase : AppendPhase}

/-- What an append relies on stands while the others leave its lock, its result and the inserts on its tape
alone. -/
theorem PhaseHolds.frame (h : PhaseHolds c i tapeId phase)
    (hholder : c.holder tapeId = some i → c'.holder tapeId = some i) (hanswer : c'.answer i = c.answer i)
    (htable : Clear c.queue tapeId → onTape c'.table tapeId = onTape c.table tapeId)
    (hclear : c.holder tapeId = some i → Clear c.queue tapeId → Clear c'.queue tapeId)
    (hafter : c.holder tapeId = some i → ClearAfter c.queue i tapeId → ClearAfter c'.queue i tapeId) :
    PhaseHolds c' i tapeId phase := by
  cases phase with
  | outside => trivial
  | entered => exact hholder h
  | selecting =>
    obtain ⟨hlock, hnone, hsome⟩ := h
    refine ⟨hholder hlock, fun h => hafter hlock (hnone (hanswer ▸ h)), fun r hr => ?_⟩
    obtain ⟨hvalue, hq⟩ := hsome r (hanswer ▸ hr)
    exact ⟨by rw [htable hq]; exact hvalue, hclear hlock hq⟩
  | knows n =>
    obtain ⟨hlock, hn, hq, hsome⟩ := h
    exact ⟨hholder hlock, by rw [htable hq]; exact hn, hclear hlock hq, fun r hr => hsome r (hanswer ▸ hr)⟩
  | leaving =>
    obtain ⟨hlock, hsome⟩ := h
    exact ⟨hholder hlock, fun r hr => hsome r (hanswer ▸ hr)⟩

/-- Where each of the others stands, with what has come of one. -/
theorem AppendHolds.of_step (h : AppendHolds drafts c) (hdense : Dense c'.table)
    (hnumbered : Numbered c'.table c'.queue) (hpaired : ∀ j, c'.Paired j)
    (hjob : ∀ j, j ≠ i → c'.job j = c.job j)
    (hothers : ∀ j phase, j ≠ i → PhaseHolds c j (drafts j).tapeId phase →
      PhaseHolds c' j (drafts j).tapeId phase)
    (hself : ∃ phase, InPhase (drafts i) (c'.job i) phase ∧ PhaseHolds c' i (drafts i).tapeId phase) :
    AppendHolds drafts c' := by
  refine ⟨hdense, hnumbered, hpaired, fun j => ?_⟩
  by_cases hj : j = i
  · exact hj ▸ hself
  · obtain ⟨phase, hin, hholds⟩ := h.phase j
    exact ⟨phase, by rw [hjob j hj]; exact hin, hothers j phase hj hholds⟩

/-- A statement is submitted. -/
theorem AppendHolds.submit (h : AppendHolds drafts c) {stmt : TapeStmt}
    {next : Except Exn Nat → Appending TapeEvent} (hjob : c.job i = .ready (.execute stmt next))
    (hnumbered : Numbered c.table (c.queue ++ [(i, stmt)]))
    (hspares : ∀ j, j ≠ i → c.holder (drafts j).tapeId = some j → stmt.Spares (drafts j).tapeId)
    (hself : ∃ phase, InPhase (drafts i) (.waiting stmt next) phase ∧
      PhaseHolds (c.step i) i (drafts i).tapeId phase) : AppendHolds drafts (c.step i) := by
  have hstep := Connection.step_execute hjob
  have hpaired := Connection.paired_step h.paired i
  rw [hstep] at hself hpaired ⊢
  refine h.of_step h.dense hnumbered hpaired (fun j hj => Function.update_of_ne hj _ _)
    (fun j phase hj hholds => hholds.frame id (Function.update_of_ne hj _ _) (fun _ => rfl)
      (fun hlock hclear => clear_concat hclear (hspares j hj hlock))
      fun hlock hafter => clearAfter_concat hafter (Ne.symm hj) (hspares j hj hlock)) ?_
  obtain ⟨phase, hin, hholds⟩ := hself
  refine ⟨phase, ?_, hholds⟩
  dsimp only
  rw [Function.update_self]
  exact hin

/-- An append goes on with a result that is none of an exception. -/
theorem AppendHolds.resume (h : AppendHolds drafts c) {stmt : TapeStmt} {r : Except Exn Nat}
    {next : Except Exn Nat → Appending TapeEvent} (hjob : c.job i = .waiting stmt next)
    (hanswer : c.answer i = some r) (hraises : (next r).raises = false)
    (hself : ∃ phase, InPhase (drafts i) (.ready (next r)) phase ∧
      PhaseHolds { c with answer := Function.update c.answer i none } i (drafts i).tapeId phase) :
    AppendHolds drafts (c.step i) := by
  have hpaired := Connection.paired_step h.paired i
  have hstep : c.step i = { c with
      answer := Function.update c.answer i none
      job := Function.update c.job i (.ready (next r)) } := by
    rw [Connection.step_waiting hjob, hanswer, Option.elim_some, Connection.resume, hraises]
    rfl
  rw [hstep] at hpaired ⊢
  refine h.of_step h.dense h.numbered hpaired (fun j hj => Function.update_of_ne hj _ _)
    (fun j phase hj hholds => hholds.frame id (Function.update_of_ne hj _ _) (fun _ => rfl) (fun _ => id)
      fun _ => id) ?_
  obtain ⟨phase, hin, hholds⟩ := hself
  refine ⟨phase, ?_, hholds.frame id rfl (fun _ => rfl) (fun _ => id) fun _ => id⟩
  dsimp only
  rw [Function.update_self]
  exact hin

theorem AppendHolds.cancel (h : AppendHolds drafts c) (i : Nat) : AppendHolds drafts (c.cancel i) := by
  have hpaired := Connection.paired_cancel h.paired i
  rcases Connection.cancel_eq c i with heq | heq <;> rw [heq] at hpaired ⊢
  · exact h
  · refine h.of_step h.dense h.numbered hpaired (fun j hj => Function.update_of_ne hj _ _)
      (fun j phase hj hholds => hholds.frame (fun hlock => ?_) rfl (fun _ => rfl) (fun _ => id) fun _ => id)
      ⟨.outside, ?_, trivial⟩
    · show Connection.freed i c.holder (drafts j).tapeId = some j
      rw [Connection.freed, if_neg fun h => hj (Option.some.inj (hlock.symm.trans h))]
      exact hlock
    · dsimp only
      rw [Function.update_self]
      exact .cancelled

theorem TapeStmt.spares_of_ne {stmt : TapeStmt} (h : ∀ event, stmt ≠ .insert event) (tapeId : String) :
    stmt.Spares tapeId := fun event heq => absurd heq (h event)

/-- A statement that is no insert is submitted. -/
theorem AppendHolds.ask (h : AppendHolds drafts c) {stmt : TapeStmt}
    {next : Except Exn Nat → Appending TapeEvent} (hjob : c.job i = .ready (.execute stmt next))
    (hstmt : ∀ event, stmt ≠ .insert event)
    (hself : ∃ phase, InPhase (drafts i) (.waiting stmt next) phase ∧
      PhaseHolds (c.step i) i (drafts i).tapeId phase) : AppendHolds drafts (c.step i) :=
  h.submit hjob (numbered_concat h.numbered hstmt) (fun _ _ _ => stmt.spares_of_ne hstmt _) hself

/-- No two are inside of one lock. -/
theorem tapeId_ne_of_holder {t t' : String} (hi : c.holder t = some i) (hj : c.holder t' = some j) (hne : j ≠ i) :
    t' ≠ t := by
  rintro rfl
  exact hne (Option.some.inj (hj.symm.trans hi))

theorem AppendHolds.enter (h : AppendHolds drafts c)
    (hjob : c.job i = .ready (InvocationEventRepo.append (drafts i))) : AppendHolds drafts (c.step i) := by
  rw [InvocationEventRepo.append_eq] at hjob
  have hpaired := Connection.paired_step h.paired i
  rw [Connection.step_acquire hjob] at hpaired ⊢
  by_cases hfree : c.holder (drafts i).tapeId = none
  · rw [if_pos hfree] at hpaired ⊢
    refine h.of_step h.dense h.numbered hpaired (fun j hj => Function.update_of_ne hj _ _)
      (fun j phase hj hholds => hholds.frame (fun hlock => ?_) rfl (fun _ => rfl) (fun _ => id) fun _ => id)
      ⟨.entered, ?_, Function.update_self ..⟩
    · have hne : (drafts j).tapeId ≠ (drafts i).tapeId := by
        intro heq
        rw [heq, hfree] at hlock
        cases hlock
      exact (Function.update_of_ne hne _ _).trans hlock
    · dsimp only
      rw [Function.update_self]
      exact .entered
  · rw [if_neg hfree]
    exact h

theorem AppendHolds.exit (h : AppendHolds drafts c) {event : TapeEvent}
    (hjob : c.job i = .ready (.release (drafts i).tapeId (.done event)))
    (hlock : c.holder (drafts i).tapeId = some i) : AppendHolds drafts (c.step i) := by
  have hpaired := Connection.paired_step h.paired i
  rw [Connection.step_release hjob] at hpaired ⊢
  refine h.of_step h.dense h.numbered hpaired (fun j hj => Function.update_of_ne hj _ _)
    (fun j phase hj hholds => hholds.frame (fun hlock' => ?_) rfl (fun _ => rfl) (fun _ => id) fun _ => id)
    ⟨.outside, ?_, trivial⟩
  · exact (Function.update_of_ne (tapeId_ne_of_holder hlock hlock' hj) _ _).trans hlock'
  · dsimp only
    rw [Function.update_self]
    exact .returned event

/-- There is no result of a statement that has just been submitted, or whose result has been taken. -/
theorem untaken_ne {answer : Nat → Option (Except Exn Nat)} {r : Except Exn Nat} :
    Function.update answer i none i ≠ some r := by
  rw [Function.update_self]
  nofun

theorem AppendHolds.step (h : AppendHolds drafts c) (i : Nat) : AppendHolds drafts (c.step i) := by
  obtain ⟨phase, hin, hholds⟩ := h.phase i
  have hstays : ∀ stmt next, c.job i = .waiting stmt next → c.answer i = none →
      AppendHolds drafts (c.step i) := by
    intro stmt next hjob hanswer
    rw [Connection.step_waiting hjob, hanswer]
    exact h
  have hpaired := h.paired i
  unfold Connection.Paired at hpaired
  generalize hjob : c.job i = job at hin
  cases hin with
  | start => exact h.enter hjob
  | entered =>
    rw [hjob] at hpaired
    have hexecute : c.job i = .ready (.execute (.selectNext (drafts i).tapeId)
      (InvocationEventRepo.fetch (drafts i))) := hjob
    refine h.ask hexecute (fun _ => TapeStmt.noConfusion) ⟨.selecting, .selecting, ?_⟩
    rw [Connection.step_execute hexecute]
    refine ⟨hholds, fun _ => clearAfter_concat_self hpaired, fun r hr => ?_⟩
    exact absurd hr untaken_ne
  | selecting =>
    cases hanswer : c.answer i with
    | none => exact hstays _ _ hjob hanswer
    | some r =>
      obtain ⟨hlock, -, hsome⟩ := hholds
      obtain ⟨rfl, hclear⟩ := hsome r hanswer
      refine h.resume hjob hanswer rfl ⟨.knows _, .selected _, hlock, rfl, hclear, fun r hr => ?_⟩
      exact absurd hr untaken_ne
  | selected n =>
    obtain ⟨hlock, hn, hclear, -⟩ := hholds
    have hexecute : c.job i = .ready (.execute (.fetchone n) (InvocationEventRepo.insert (drafts i))) := hjob
    refine h.ask hexecute (fun _ => TapeStmt.noConfusion) ⟨.knows n, .fetching n, ?_⟩
    rw [Connection.step_execute hexecute]
    refine ⟨hlock, hn, clear_concat hclear (TapeStmt.spares_of_ne (fun _ => TapeStmt.noConfusion) _), fun r hr => ?_⟩
    exact absurd hr untaken_ne
  | fetching n =>
    cases hanswer : c.answer i with
    | none => exact hstays _ _ hjob hanswer
    | some r =>
      obtain ⟨hlock, hn, hclear, hsome⟩ := hholds
      obtain rfl := hsome r hanswer
      refine h.resume hjob hanswer rfl ⟨.knows n, .fetched n, hlock, hn, hclear, fun r hr => ?_⟩
      exact absurd hr untaken_ne
  | fetched n =>
    obtain ⟨hlock, hn, hclear, -⟩ := hholds
    have hexecute : c.job i = .ready (.execute (.insert { drafts i with id := n })
      (InvocationEventRepo.commit (drafts i) n)) := hjob
    refine h.submit hexecute (numbered_concat_insert h.numbered hclear hn) (fun j hj hlock' => ?_)
      ⟨.leaving, .inserting n, ?_⟩
    · rintro event heq
      rw [← TapeStmt.insert.inj heq]
      exact (tapeId_ne_of_holder hlock hlock' hj).symm
    · rw [Connection.step_execute hexecute]
      refine ⟨hlock, fun r hr => ?_⟩
      exact absurd hr untaken_ne
  | inserting n =>
    cases hanswer : c.answer i with
    | none => exact hstays _ _ hjob hanswer
    | some r =>
      obtain ⟨hlock, hsome⟩ := hholds
      obtain ⟨m, rfl⟩ := hsome r hanswer
      refine h.resume hjob hanswer rfl ⟨.leaving, .inserted n m, hlock, fun r hr => ?_⟩
      exact absurd hr untaken_ne
  | inserted n m =>
    have hexecute : c.job i = .ready (.execute .commit (InvocationEventRepo.leave (drafts i) n)) := hjob
    refine h.ask hexecute (fun _ => TapeStmt.noConfusion) ⟨.leaving, .committing n, ?_⟩
    rw [Connection.step_execute hexecute]
    refine ⟨hholds.1, fun r hr => ?_⟩
    exact absurd hr untaken_ne
  | committing n =>
    cases hanswer : c.answer i with
    | none => exact hstays _ _ hjob hanswer
    | some r =>
      obtain ⟨hlock, hsome⟩ := hholds
      obtain ⟨m, rfl⟩ := hsome r hanswer
      refine h.resume hjob hanswer rfl ⟨.leaving, .committed n m, hlock, fun r hr => ?_⟩
      exact absurd hr untaken_ne
  | committed n m => exact h.exit hjob hholds.1
  | returned event =>
    rw [Connection.step_done hjob]
    exact h
  | cancelled =>
    rw [Connection.step_cancelled hjob]
    exact h

/-- The connection executes the statement of an append that waits for it. -/
theorem PhaseHolds.serve {stmt : TapeStmt} {queue : List (Nat × TapeStmt)} {job}
    (hdense : Dense c.table) (hnumbered : Numbered c.table ((i, stmt) :: queue))
    (hqueue : c.queue = (i, stmt) :: queue) (hpaired : Connection.Paired c i) (hjob : c.job i = job)
    {draft : TapeDraft} (hin : InPhase draft job phase) (h : PhaseHolds c i draft.tapeId phase) :
    PhaseHolds (c.serve TapeStmt.exec) i draft.tapeId phase := by
  have hserve : c.serve TapeStmt.exec = _ := Connection.serve_cons hqueue
  have hanswer : (c.serve TapeStmt.exec).answer i = some (stmt.exec c.table).2 := by
    rw [hserve]
    exact Function.update_self ..
  unfold Connection.Paired at hpaired
  rw [hqueue, Connection.submitted_cons_self, hjob] at hpaired
  have hwaits : ∀ stmt' next, job = .waiting stmt' next → c.answer i = none ∧ stmt = stmt' := by
    rintro stmt' next rfl
    rcases hpaired with ⟨hnone, heq⟩ | ⟨-, heq⟩
    · exact ⟨hnone, (Prod.mk.inj (List.cons.inj heq).1).2⟩
    · cases heq
  have hr : ∀ {r}, (c.serve TapeStmt.exec).answer i = some r → r = (stmt.exec c.table).2 := fun h =>
    (Option.some.inj (hanswer.symm.trans h)).symm
  cases hin with
  | start | entered | selected | fetched | inserted | committed | returned => cases hpaired
  | cancelled => trivial
  | selecting =>
    obtain ⟨hnone, rfl⟩ := hwaits _ _ rfl
    obtain ⟨hlock, hafter, -⟩ := h
    refine ⟨?_, fun h => ?_, fun r h => ?_⟩
    · rw [hserve]
      exact hlock
    · rw [hanswer] at h
      cases h
    · rw [hr h, hserve]
      exact ⟨congrArg Except.ok (nextTapeId_of_dense hdense), hafter hnone [] queue _ hqueue⟩
  | fetching n =>
    obtain ⟨hnone, rfl⟩ := hwaits _ _ rfl
    obtain ⟨hlock, hn, hclear, -⟩ := h
    refine ⟨by rw [hserve]; exact hlock, by rw [hserve]; exact hn, ?_, fun r h => hr h⟩
    rw [hserve]
    exact fun k event hmem => hclear k event (hqueue ▸ List.mem_cons_of_mem _ hmem)
  | inserting n =>
    obtain ⟨hnone, rfl⟩ := hwaits _ _ rfl
    refine ⟨by rw [hserve]; exact h.1, fun r h => ⟨0, ?_⟩⟩
    rw [hr h, (exec_insert_of_dense hdense hnumbered.1).1]
  | committing n =>
    obtain ⟨hnone, rfl⟩ := hwaits _ _ rfl
    exact ⟨by rw [hserve]; exact h.1, fun r h => ⟨0, hr h⟩⟩

theorem AppendHolds.serve (h : AppendHolds drafts c) : AppendHolds drafts (c.serve TapeStmt.exec) := by
  have hpaired := @Connection.paired_serve _ _ _ _ _ _ _ TapeStmt.exec _ h.paired
  cases hqueue : c.queue with
  | nil =>
    rw [Connection.serve, hqueue]
    exact h
  | cons head queue =>
    obtain ⟨k, stmt⟩ := head
    have hserve : c.serve TapeStmt.exec = _ := Connection.serve_cons hqueue
    have hnumbered := h.numbered
    rw [hqueue] at hnumbered
    obtain ⟨phase, hin, hholds⟩ := h.phase k
    have hself := hholds.serve h.dense hnumbered hqueue (h.paired k) rfl hin
    obtain ⟨hdense', hnumbered'⟩ := exec_head h.dense hnumbered
    rw [hserve] at hpaired hself ⊢
    refine h.of_step hdense' hnumbered' hpaired (fun _ _ => rfl) (fun j phase hj hholds => ?_)
      ⟨phase, hin, hself⟩
    refine hholds.frame id (Function.update_of_ne hj _ _) (fun hclear => ?_) (fun _ hclear => ?_) fun _ hafter => ?_
    · refine onTape_exec fun event heq => hclear k event ?_
      rw [hqueue, heq]
      exact List.mem_cons_self
    · exact fun i event hmem => hclear i event (hqueue ▸ List.mem_cons_of_mem _ hmem)
    · intro before after stmt' heq
      refine hafter ((k, stmt) :: before) after stmt' ?_
      rw [hqueue, List.cons_append, ← heq]

theorem AppendHolds.take (h : AppendHolds drafts c) (turn : ConnectionTurn Nat) :
    AppendHolds drafts (c.take TapeStmt.exec turn) := by
  cases turn with
  | run i => exact h.step i
  | cancel i => exact h.cancel i
  | serve => exact h.serve

end Steps

/-! ### Every run of appends -/

/-- Appends that are about to be called. -/
def TapeConnection.start (rows : List TapeEvent) (drafts : Nat → TapeDraft) : TapeConnection where
  table := rows
  job i := .ready (InvocationEventRepo.append (drafts i))

theorem AppendHolds.start {drafts : Nat → TapeDraft} (h : Dense rows) :
    AppendHolds drafts (TapeConnection.start rows drafts) where
  dense := h
  numbered := trivial
  paired _ := rfl
  phase _ := ⟨.outside, .start, trivial⟩

theorem InPhase.ne_raise {draft : TapeDraft} {job : Job TapeStmt (Except Exn Nat) Exn TapeEvent}
    {phase : AppendPhase} (h : InPhase draft job phase) (e : Exn) : job ≠ .ready (.raise e) := by
  cases h with
  | start =>
    rw [InvocationEventRepo.append_eq]
    nofun
  | entered | selected | fetched | inserted | committed => nofun
  | selecting | fetching | inserting | committing | returned | cancelled => nofun

/-- The numbers of every tape, the insert whose turn it is, and the appends that have come to an end. -/
structure TapeConnection.Sound (c : TapeConnection) : Prop where
  dense : Dense c.table
  accepts : ∀ i event queue, c.queue = (i, .insert event) :: queue →
    TapeStmt.exec (.insert event) c.table = (c.table ++ [event], .ok 0)
  returns : ∀ i e, c.job i ≠ .ready (.raise e)

/-- However appends run, and wherever they are cancelled: the events of every tape have the numbers from 0 on in
the order they were inserted in, no insert violates the primary key, and no append raises. -/
theorem appends_dense {drafts : Nat → TapeDraft} (hrows : Dense rows) (turns : List (ConnectionTurn Nat)) :
    TapeConnection.Sound ((TapeConnection.start rows drafts).run TapeStmt.exec turns) := by
  have h : AppendHolds drafts ((TapeConnection.start rows drafts).run TapeStmt.exec turns) :=
    Connection.inv_run (fun _ turn h => h.take turn) (AppendHolds.start hrows) turns
  refine ⟨h.dense, fun i event queue hqueue => ?_, fun i e => ?_⟩
  · have hnumbered := h.numbered
    rw [hqueue] at hnumbered
    exact (exec_insert_of_dense h.dense hnumbered.1).1
  · obtain ⟨phase, hin, -⟩ := h.phase i
    exact hin.ne_raise e

/-- The first of two appends is cancelled while its insert waits; the second one takes the number after. -/
def appendCancelled : TapeConnection :=
  (TapeConnection.start [] fun _ => { tapeId := "t", kind := .milestone }).run TapeStmt.exec
    [.run 0, .run 0, .serve, .run 0, .run 0, .serve, .run 0, .run 0, .cancel 0, .run 1, .run 1, .serve, .serve,
      .run 1, .run 1, .serve, .run 1, .run 1, .serve]

theorem appends_dense_cancelled :
    appendCancelled.table.map (·.id) = [0, 1] ∧ TapeConnection.Sound appendCancelled :=
  ⟨by decide +kernel, @appends_dense [] _ (fun _ => rfl) _⟩

end Krewhub
