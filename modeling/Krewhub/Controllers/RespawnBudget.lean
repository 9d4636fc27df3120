import Mathlib.Data.Finset.Card
import Krewhub.Base.Interleave
import Krewhub.Controllers.Dispatch
import Krewhub.Controllers.Orch
import Krewhub.Routes.Tasks

/-!
# The respawn budget

The periodic loop of the orchestration controller and its watch-driven fast path reconcile the same
tasks beside one another. Each reads a row, counts a respawn in the marks it has read, writes them back
as a whole and reopens the row. Where no marks are written over a count that is newer than the one they
were read with, every reopening is counted and the limit holds; two reconciles that read the same count
both reopen the task and count it once.
-/

namespace Krewhub

/-- The database, and per task how often the controller has counted a respawn and reopened the row. -/
structure Ledger where
  db : Db
  counted : String → Nat
  reopened : String → Nat

/-- One more for the task. -/
def bump (taskId : String) (f : String → Nat) : String → Nat :=
  Function.update f taskId (f taskId + 1)

namespace Ledger

def exec (op : Op) (s : Ledger) : Ledger where
  db := op.exec s.db
  counted := match op with
    | .updateTask taskId (.orch marks) _ (some seen) =>
      if marks.respawns = seen.marks.respawns + 1 then bump taskId s.counted else s.counted
    | _ => s.counted
  reopened := match op with
    | .updateTask taskId (.reopenForRerun _) _ _ => bump taskId s.reopened
    | _ => s.reopened

/-- The respawns a task carries. -/
def respawnsOf (db : Db) (taskId : String) : Option Nat :=
  (db.tasks.get taskId).map (·.marks.respawns)

/-- The respawns of the past have been counted and reopened. -/
def start (db : Db) : Ledger where
  db := db
  counted taskId := (respawnsOf db taskId).getD 0
  reopened taskId := (respawnsOf db taskId).getD 0

end Ledger

/-- A loop of the controller, a dispatch pass, or a request. -/
inductive OrchThread where
  | reconcile (d : Draws)
  | taskChanged (taskId : String) (d : Draws)
  | dispatch (d : Draws)
  | request (depth : Nat) (req : TaskRequest) (caller : CallerContext) (d : Draws)

namespace OrchThread

def program (cfg : OrchConfig) : OrchThread → Sql Unit
  | .reconcile d => OrchController.reconcile cfg d
  | .taskChanged taskId d => OrchController.reconcileTaskId cfg taskId d
  | .dispatch d => TaskDispatchController.reconcile d
  | .request depth req caller d => req.handle depth caller d

end OrchThread

/-- The threads side by side; none has begun. -/
def orchPool {ι : Type} (cfg : OrchConfig) (threads : ι → OrchThread) (db : Db) :
    Pool ι Ledger Op Exn Unit :=
  .init (fun i => ((threads i).program cfg).on Ledger.db) (.start db)

/-- The task an operation writes marks of, and the respawn count these marks were read with. -/
def countRead : Op → Option (String × Nat)
  | .updateTask taskId (.orch _) _ (some seen) => some (taskId, seen.marks.respawns)
  | _ => none

/-- Marks are written over the respawn count they were read with. -/
def CountsFresh {ι : Type} (s : Ledger) (_ : ι) (op : Op) : Prop :=
  ∀ read ∈ countRead op, ∀ respawns ∈ Ledger.respawnsOf s.db read.1, respawns = read.2

instance {ι : Type} (s : Ledger) (i : ι) (op : Op) : Decidable (CountsFresh s i op) :=
  inferInstanceAs (Decidable (∀ read ∈ countRead op, ∀ respawns ∈ _, respawns = read.2))

/-- Every thread that has begun has returned. -/
def Pool.Quiet {ι : Type} (p : Pool ι Ledger Op Exn Unit) : Prop :=
  ∀ i, p.begun i = true → p.hasReturned i = true

/-! ### What the threads write -/

/-- The operation writes no marks, reopens no task for the controller, and adds and takes away none. -/
def Bystander : Op → Prop
  | .insertTask _ | .deleteTask _ => False
  | .updateTask _ u _ _ =>
    match u with
    | .orch _ | .reopenForRerun _ => False
    | _ => True
  | _ => True

theorem plainOps_bystander : PlainOps Bystander := ⟨trivial, trivial, trivial⟩

theorem eventOps_bystander (taskId : String) : TaskService.EventOps Bystander taskId :=
  ⟨fun _ => trivial, fun _ _ _ => trivial, fun _ => trivial⟩

theorem dispatchOps_bystander : TaskDispatchController.DispatchOps Bystander where
  toPlainOps := plainOps_bystander
  post _ _ := trivial
  claim _ _ _ _ _ _ _ := trivial

theorem requestOps_bystander : RequestOps Bystander where
  toPlainOps := plainOps_bystander
  revoke _ _ := trivial
  cancel _ _ _ _ := trivial
  unblock _ _ _ _ := trivial
  events := eventOps_bystander
  park _ _ _ _ := trivial
  finish _ _ _ _ := trivial
  block _ _ _ _ := trivial
  claim _ _ _ _ _ _ := trivial
  completion _ _ _ _ _ := trivial
  followup _ _ _ := trivial
  answer _ _ _ _ _ _ := trivial
  edit _ _ _ _ _ := trivial
  review _ := trivial
  verdict _ _ _ _ _ _ _ := trivial

theorem respawnsOf_of_bystander {op : Op} (hop : Bystander op) (db : Db) (taskId : String) :
    Ledger.respawnsOf (op.exec db) taskId = Ledger.respawnsOf db taskId := by
  cases op
  case insertTask => cases hop
  case deleteTask => cases hop
  case updateTask id u expected seen =>
    rw [Ledger.respawnsOf, Op.get_exec_updateTask, Ledger.respawnsOf]
    split
    · rw [Option.map_map]
      congr 1
      funext t
      have hmarks : (u.apply t).marks = t.marks := by
        cases u <;> first | rfl | cases hop
      simp only [Function.comp]
      split
      · rw [hmarks]
      · rfl
    · rfl
  case insertEvent event reported =>
    rw [Ledger.respawnsOf, (rowSafe_insertEvent event reported db).1, Ledger.respawnsOf]
  all_goals rfl

/-! ### One respawn of the controller -/

/-- Marks that count as many respawns as were read, or one more below the limit. -/
def MarksWritten (cfg : OrchConfig) (op : Op) : Prop :=
  ∃ taskId marks seen, op = .updateTask taskId (.orch marks) none (some seen) ∧
    (marks.respawns = seen.marks.respawns ∨
      marks.respawns = seen.marks.respawns + 1 ∧ seen.marks.respawns < cfg.maxRespawns)

/-- What a thread may do: with no respawn counted anything but reopening, with one counted only
commit it and reopen its task. -/
def respawnAllowed (cfg : OrchConfig) (q : Option String) (op : Op) : Prop :=
  match q with
  | none => Bystander op ∨ MarksWritten cfg op
  | some taskId => op = .commit ∨ ∃ now seen, op = .updateTask taskId (.reopenForRerun now) none seen

/-- The task whose respawn has been counted and whose row has not been reopened. -/
def respawnAdvance (q : Option String) (op : Op) (_ : Db) : Option String :=
  match op with
  | .updateTask taskId (.orch marks) _ (some seen) =>
    if marks.respawns = seen.marks.respawns + 1 then some taskId else none
  | .updateTask _ (.reopenForRerun _) _ _ => none
  | _ => q

/-- The protocol of a thread. -/
def respawnProtocol (cfg : OrchConfig) (ι : Type) :
    Protocol ι Ledger Op Unit (Option String) where
  start := none
  allowed _ := respawnAllowed cfg
  advance q op s := respawnAdvance q op s.db
  final _ q _ := q = none

theorem respawnAdvance_of_bystander {op : Op} (hop : Bystander op) (q : Option String) (db : Db) :
    respawnAdvance q op db = q := by
  cases op
  case updateTask id u expected seen => cases u <;> first | rfl | cases hop
  all_goals rfl

/-- A coroutine between respawns, and its end. -/
abbrev Respawns (cfg : OrchConfig) (q : Option String) (c : Sql Unit) : Prop :=
  c.Follows (respawnAllowed cfg) respawnAdvance (fun q _ => q = none) q

theorem respawns_of_every {cfg : OrchConfig} {c : Sql Unit} (hc : c.Every Bystander) :
    Respawns cfg none c :=
  .of_every hc (fun _ hop => .inl hop) (fun _ hop s => respawnAdvance_of_bystander hop none s)
    fun _ => rfl

section Follows

open OrchController

variable {cfg : OrchConfig} (task : Task) (d : Draws)

theorem every_emit_bystander (type : EventType) (body payload : String) :
    (emit task type body payload d).Every Bystander :=
  TaskService.every_narrate plainOps_bystander (eventOps_bystander _) _ _ _ _ _

/-- Marks that count no respawn. -/
theorem respawns_mark {marks : OrchMarks} (hmarks : marks.respawns = task.marks.respawns)
    {c : Sql Unit} (hc : Respawns cfg none c) :
    Respawns cfg none (do writeOrch task marks; c) := by
  refine ⟨.inr ⟨_, _, _, rfl, .inl hmarks⟩, fun s => ?_⟩
  have hadvance : respawnAdvance none (.updateTask task.id (.orch marks) none (some task)) s =
      none := if_neg (by omega)
  rw [hadvance]
  exact ⟨.inl trivial, fun _ => hc⟩

theorem respawns_handleDone : Respawns cfg none (handleDone task task.marks d) := by
  have hemit := fun type body payload d =>
    (respawns_of_every (every_emit_bystander task d type body payload) : Respawns cfg none _)
  unfold handleDone
  split
  · split
    · split
      · rfl
      · exact respawns_mark task (by rfl) (hemit _ _ _ _)
    · exact respawns_mark task (by rfl) (hemit _ _ _ _)
  · split
    · rfl
    · exact respawns_mark task (by rfl) (hemit _ _ _ _)

/-- Parking counts no respawn. -/
theorem respawns_park : Respawns cfg none (park cfg task task.marks d) := by
  refine respawns_mark task (by rfl) (respawns_of_every ?_)
  refine .bind (TaskRepo.every_update plainOps_bystander (by trivial)) fun _ => ?_
  exact .bind (TaskService.every_recordUpdated plainOps_bystander _) fun _ =>
    every_emit_bystander task _ _ _ _

/-- A respawn is counted below the limit, and the task reopened next. -/
theorem respawns_respawn (hlimit : task.marks.respawns < cfg.maxRespawns) (runtimeId : String) :
    Respawns cfg none (respawn cfg task task.marks runtimeId d) := by
  refine ⟨.inr ⟨_, _, _, rfl, .inr ⟨rfl, hlimit⟩⟩, fun s => ?_⟩
  have hadvance : ∀ marks : OrchMarks, marks.respawns = task.marks.respawns + 1 →
      respawnAdvance none (.updateTask task.id (.orch marks) none (some task)) s =
        some task.id := fun _ h => if_pos h
  rw [hadvance _ rfl]
  refine ⟨.inl rfl, fun _ => ⟨.inr ⟨_, _, rfl⟩, fun db => respawns_of_every ?_⟩⟩
  show Coro.Every Bystander (do
    Sql.commit
    let reopened ← TaskRepo.get task.id
    TaskService.recordUpdated reopened
    emit task .log _ _ _)
  refine .bind (Sql.every_commit plainOps_bystander) fun _ => ?_
  refine .bind (TaskRepo.every_get plainOps_bystander _) fun _ => ?_
  exact .bind (TaskService.every_recordUpdated plainOps_bystander _) fun _ =>
    every_emit_bystander task _ _ _ _

theorem respawns_checkLiveness : Respawns cfg none (checkLiveness cfg task task.marks d) := by
  cases hassigned : task.assignedRuntimeId with
  | none =>
    rw [checkLiveness, hassigned]
    rfl
  | some runtimeId =>
    rw [checkLiveness, hassigned]
    refine ⟨.inl trivial, fun db => ?_⟩
    show Respawns cfg none (if isAlive cfg d.clock (db.runtimes.get runtimeId) = true then _ else _)
    split
    · rfl
    · split
      · exact respawns_park task d
      · exact respawns_respawn task d (by omega) runtimeId

theorem respawns_reconcileTaskId (cfg : OrchConfig) (taskId : String) (d : Draws) :
    Respawns cfg none (reconcileTaskId cfg taskId d) := by
  refine ⟨.inl trivial, fun db => ?_⟩
  dsimp only [Coro.bind]
  cases db.tasks.get taskId with
  | none => rfl
  | some task =>
    dsimp only
    split
    · rfl
    · split
      · exact respawns_handleDone task d
      · split
        · exact respawns_checkLiveness task d
        · rfl

theorem respawns_reconcile (cfg : OrchConfig) (d : Draws) :
    Respawns cfg none (OrchController.reconcile cfg d) := by
  have htasks : ∀ taskIds, Respawns cfg none (reconcileTasks cfg d taskIds) := by
    intro taskIds
    induction taskIds with
    | nil => rfl
    | cons taskId taskIds ih =>
      refine .bind (respawns_reconcileTaskId cfg taskId _) fun q _ hq => ?_
      rw [hq]
      exact ih
  exact ⟨.inl trivial, fun db => htasks _⟩

end Follows

theorem OrchThread.respawns_program (cfg : OrchConfig) (thread : OrchThread) :
    Respawns cfg none (thread.program cfg) := by
  cases thread with
  | reconcile d => exact respawns_reconcile cfg d
  | taskChanged taskId d => exact respawns_reconcileTaskId cfg taskId d
  | dispatch d =>
    exact respawns_of_every (TaskDispatchController.every_reconcile dispatchOps_bystander d)
  | request depth req caller d =>
    exact respawns_of_every (TaskRequest.every_handle requestOps_bystander depth req caller d)

/-! ### The balance -/

/-- A task carries the respawns that have been counted, and every one of them has been carried out or
is owed by one of the threads. -/
structure Balanced {ι : Type} (cfg : OrchConfig) (s : Ledger) (q : ι → Option String) : Prop where
  count : ∀ taskId, ∀ respawns ∈ Ledger.respawnsOf s.db taskId,
    respawns = s.counted taskId ∧ respawns ≤ cfg.maxRespawns
  owed : ∀ taskId, ∃ threads : Finset ι, (∀ i, i ∈ threads ↔ q i = some taskId) ∧
    s.reopened taskId + threads.card = s.counted taskId

theorem bump_self (taskId : String) (f : String → Nat) : bump taskId f taskId = f taskId + 1 :=
  Function.update_self ..

theorem bump_of_ne {taskId id : String} (h : id ≠ taskId) (f : String → Nat) :
    bump taskId f id = f id := Function.update_of_ne h ..

theorem respawnsOf_orch (taskId id : String) (marks : OrchMarks) (seen : Option Task) (db : Db) :
    Ledger.respawnsOf (Op.exec (.updateTask taskId (.orch marks) none seen) db) id =
      if id = taskId then (Ledger.respawnsOf db id).map fun _ => marks.respawns
      else Ledger.respawnsOf db id := by
  rw [Ledger.respawnsOf, Op.get_exec_updateTask, Ledger.respawnsOf]
  split
  · rw [Option.map_map, Option.map_map]
    rfl
  · rfl

theorem respawnsOf_reopenForRerun (taskId id : String) (now : Nat) (seen : Option Task) (db : Db) :
    Ledger.respawnsOf (Op.exec (.updateTask taskId (.reopenForRerun now) none seen) db) id =
      Ledger.respawnsOf db id := by
  rw [Ledger.respawnsOf, Op.get_exec_updateTask, Ledger.respawnsOf]
  split
  · rw [Option.map_map]
    rfl
  · rfl

section Balance

variable {ι : Type} [DecidableEq ι] {cfg : OrchConfig} {s : Ledger} {q : ι → Option String} {i : ι}

/-- A thread that owes nothing comes to owe a respawn of the task. -/
theorem exists_owing_insert {taskId : String} {threads : Finset ι} (hq : q i = none)
    (hthreads : ∀ j, j ∈ threads ↔ q j = some taskId) :
    (∀ j, j ∈ insert i threads ↔ Function.update q i (some taskId) j = some taskId) ∧
      (insert i threads).card = threads.card + 1 := by
  have hnot : i ∉ threads := by rw [hthreads, hq]; simp
  refine ⟨fun j => ?_, Finset.card_insert_of_notMem hnot⟩
  rw [Finset.mem_insert, Function.update_apply]
  by_cases hj : j = i <;> simp [hj, hthreads]

/-- The thread that owes the respawn has carried it out. -/
theorem exists_owing_erase {taskId : String} {threads : Finset ι} (hq : q i = some taskId)
    (hthreads : ∀ j, j ∈ threads ↔ q j = some taskId) :
    (∀ j, j ∈ threads.erase i ↔ Function.update q i none j = some taskId) ∧
      (threads.erase i).card + 1 = threads.card := by
  have hmem : i ∈ threads := (hthreads i).mpr hq
  refine ⟨fun j => ?_, Finset.card_erase_add_one hmem⟩
  rw [Finset.mem_erase, Function.update_apply]
  by_cases hj : j = i <;> simp [hj, hthreads]

/-- What a thread owes of another task. -/
theorem owing_of_ne {taskId : String} {owed : Option String} {threads : Finset ι}
    (hq : q i ≠ some taskId) (howed : owed ≠ some taskId)
    (hthreads : ∀ j, j ∈ threads ↔ q j = some taskId) (j : ι) :
    j ∈ threads ↔ Function.update q i owed j = some taskId := by
  rw [hthreads, Function.update_apply]
  by_cases hj : j = i <;> simp [hj, hq, howed]

omit [DecidableEq ι] in
theorem Balanced.bystander {op : Op} (h : Balanced cfg s q) (hop : Bystander op) :
    Balanced cfg (Ledger.exec op s) q := by
  have hcounted : (Ledger.exec op s).counted = s.counted := by
    cases op
    case updateTask id u expected seen => cases u <;> first | rfl | cases hop
    all_goals rfl
  have hreopened : (Ledger.exec op s).reopened = s.reopened := by
    cases op
    case updateTask id u expected seen => cases u <;> first | rfl | cases hop
    all_goals rfl
  constructor
  · intro taskId respawns hrespawns
    rw [hcounted]
    exact h.count taskId respawns (respawnsOf_of_bystander hop s.db taskId ▸ hrespawns)
  · intro taskId
    rw [hcounted, hreopened]
    exact h.owed taskId

omit [DecidableEq ι] in
/-- Marks that count no respawn, written over the count they were read with. -/
theorem Balanced.mark {taskId : String} {marks : OrchMarks} {seen : Task} (h : Balanced cfg s q)
    (hmarks : marks.respawns = seen.marks.respawns)
    (hfresh : CountsFresh s i (.updateTask taskId (.orch marks) none (some seen))) :
    Balanced cfg (Ledger.exec (.updateTask taskId (.orch marks) none (some seen)) s) q := by
  have hcounted : (Ledger.exec (.updateTask taskId (.orch marks) none (some seen)) s).counted =
      s.counted := if_neg (by omega)
  constructor
  · intro id respawns hrespawns
    rw [hcounted]
    rw [Ledger.exec, respawnsOf_orch] at hrespawns
    by_cases hid : id = taskId
    · subst hid
      rw [if_pos rfl, Option.mem_def, Option.map_eq_some_iff] at hrespawns
      obtain ⟨old, hold, rfl⟩ := hrespawns
      have hread : old = seen.marks.respawns := hfresh _ rfl old hold
      rw [hmarks, ← hread]
      exact h.count id old hold
    · rw [if_neg hid] at hrespawns
      exact h.count id respawns hrespawns
  · intro id
    rw [hcounted]
    exact h.owed id

/-- Marks that count a respawn below the limit, written over the count they were read with. -/
theorem Balanced.count_respawn {taskId : String} {marks : OrchMarks} {seen : Task}
    (h : Balanced cfg s q) (hq : q i = none)
    (hmarks : marks.respawns = seen.marks.respawns + 1)
    (hlimit : seen.marks.respawns < cfg.maxRespawns)
    (hfresh : CountsFresh s i (.updateTask taskId (.orch marks) none (some seen))) :
    Balanced cfg (Ledger.exec (.updateTask taskId (.orch marks) none (some seen)) s)
      (Function.update q i (some taskId)) := by
  have hcounted : (Ledger.exec (.updateTask taskId (.orch marks) none (some seen)) s).counted =
      bump taskId s.counted := if_pos hmarks
  constructor
  · intro id respawns hrespawns
    rw [hcounted]
    rw [Ledger.exec, respawnsOf_orch] at hrespawns
    by_cases hid : id = taskId
    · subst hid
      rw [if_pos rfl, Option.mem_def, Option.map_eq_some_iff] at hrespawns
      obtain ⟨old, hold, rfl⟩ := hrespawns
      have hread : old = seen.marks.respawns := hfresh _ rfl old hold
      have hcount := (h.count id old hold).1
      rw [bump_self]
      omega
    · rw [if_neg hid] at hrespawns
      rw [bump_of_ne hid]
      exact h.count id respawns hrespawns
  · intro id
    obtain ⟨threads, hthreads, hsum⟩ := h.owed id
    rw [hcounted]
    show ∃ threads : Finset ι, _ ∧ s.reopened id + threads.card = _
    by_cases hid : id = taskId
    · subst hid
      obtain ⟨hinsert, hcard⟩ := exists_owing_insert hq hthreads
      refine ⟨_, hinsert, ?_⟩
      rw [bump_self]
      omega
    · have hne : some taskId ≠ some id := fun heq => hid (Option.some.inj heq).symm
      refine ⟨threads, owing_of_ne (by simp [hq]) hne hthreads, ?_⟩
      rw [bump_of_ne hid]
      exact hsum

theorem Balanced.reopen {taskId : String} {now : Nat} {seen : Option Task} (h : Balanced cfg s q)
    (hq : q i = some taskId) :
    Balanced cfg (Ledger.exec (.updateTask taskId (.reopenForRerun now) none seen) s)
      (Function.update q i none) := by
  constructor
  · intro id respawns hrespawns
    rw [Ledger.exec, respawnsOf_reopenForRerun] at hrespawns
    exact h.count id respawns hrespawns
  · intro id
    obtain ⟨threads, hthreads, hsum⟩ := h.owed id
    show ∃ threads : Finset ι, _ ∧ bump taskId s.reopened id + threads.card = s.counted id
    by_cases hid : id = taskId
    · subst hid
      obtain ⟨herase, hcard⟩ := exists_owing_erase hq hthreads
      refine ⟨_, herase, ?_⟩
      rw [bump_self]
      omega
    · refine ⟨threads, owing_of_ne ?_ (by simp) hthreads, ?_⟩
      · rw [hq]
        exact fun heq => hid (Option.some.inj heq).symm
      · rw [bump_of_ne hid]
        exact hsum

/-- Every step of a thread keeps the balance, where it writes its marks over the count it has read. -/
theorem Balanced.step {op : Op} (h : Balanced cfg s q) (hallowed : respawnAllowed cfg (q i) op)
    (hfresh : CountsFresh s i op) :
    Balanced cfg (Ledger.exec op s) (Function.update q i (respawnAdvance (q i) op s.db)) := by
  cases hq : q i with
  | none =>
    rw [hq] at hallowed
    rcases hallowed with hop | ⟨taskId, marks, seen, rfl, hmarks | ⟨hmarks, hlimit⟩⟩
    · rw [respawnAdvance_of_bystander hop, ← hq, Function.update_eq_self]
      exact h.bystander hop
    · have hadvance : respawnAdvance none (.updateTask taskId (.orch marks) none (some seen)) s.db =
          none := if_neg (by omega)
      rw [hadvance, ← hq, Function.update_eq_self]
      exact h.mark hmarks hfresh
    · have hadvance : respawnAdvance none (.updateTask taskId (.orch marks) none (some seen)) s.db =
          some taskId := if_pos hmarks
      rw [hadvance]
      exact h.count_respawn hq hmarks hlimit hfresh
  | some taskId =>
    rw [hq] at hallowed
    rcases hallowed with rfl | ⟨now, seen, rfl⟩
    · have hcommit : Bystander .commit := trivial
      rw [respawnAdvance_of_bystander hcommit, ← hq, Function.update_eq_self]
      exact h.bystander hcommit
    · exact h.reopen hq

end Balance

/-! ### Schedules -/

section Schedules

variable {ι : Type} [DecidableEq ι] {cfg : OrchConfig}

omit [DecidableEq ι] in
theorem balanced_start {db : Db}
    (hlimit : ∀ task ∈ db.tasks.rows, task.marks.respawns ≤ cfg.maxRespawns) :
    Balanced cfg (.start db) fun _ : ι => none := by
  constructor
  · intro taskId respawns hrespawns
    have hget : Ledger.respawnsOf db taskId = some respawns := hrespawns
    constructor
    · show respawns = (Ledger.respawnsOf db taskId).getD 0
      rw [hget, Option.getD_some]
    · obtain ⟨task, htask, rfl⟩ := Option.map_eq_some_iff.mp hget
      exact hlimit task (Table.mem_of_get htask)
  · intro taskId
    exact ⟨∅, by simp, rfl⟩

omit [DecidableEq ι] in
/-- When nothing is under way no thread owes a respawn. -/
theorem owes_nothing_of_quiet {p : Pool ι Ledger Op Exn Unit} {q : ι → Option String}
    (hobeys : p.Obeys (respawnProtocol cfg ι) q) (hquiet : p.Quiet) (i : ι) : q i = none := by
  cases hbegun : p.begun i with
  | false => exact (hobeys i).1 hbegun
  | true =>
    obtain ⟨a, hreturned⟩ := Pool.exists_returned (hquiet i hbegun)
    exact (hobeys i).2 _ hreturned

/-- In every schedule of the loops, dispatches and requests in which the controller writes its marks
over the respawn count it has read, a task carries every respawn that has been counted, at most as many
as the limit; it has been reopened no more often, and exactly as often when nothing is under way. -/
theorem respawns_budgeted {threads : ι → OrchThread} {db : Db} {schedule : List ι}
    (hlimit : ∀ task ∈ db.tasks.rows, task.marks.respawns ≤ cfg.maxRespawns)
    (hfresh : Pool.Along Ledger.exec id CountsFresh (orchPool cfg threads db)
      (schedule.map .run)) :
    let reached := (orchPool cfg threads db).run Ledger.exec id (schedule.map .run)
    ∀ taskId, ∀ respawns ∈ Ledger.respawnsOf reached.state.db taskId,
      respawns = reached.state.counted taskId ∧ respawns ≤ cfg.maxRespawns ∧
        reached.state.reopened taskId ≤ respawns ∧
        (reached.Quiet → reached.state.reopened taskId = respawns) := by
  intro reached taskId respawns hrespawns
  have hobeys : Pool.Obeys (respawnProtocol cfg ι) (orchPool cfg threads db) fun _ => none :=
    Pool.obeys_init (fun i => ((threads i).respawns_program cfg).on Ledger.db) _
  have hrun : ∃ q, Pool.Obeys (respawnProtocol cfg ι) reached q ∧ Balanced cfg reached.state q :=
    Pool.inv_run_id (fun _ _ _ _ h hallowed hstep => h.step hallowed hstep) hobeys
      (balanced_start hlimit) hfresh
  obtain ⟨q, hobeys', hbalanced⟩ := hrun
  obtain ⟨hcount, hmax⟩ := hbalanced.count taskId respawns hrespawns
  obtain ⟨owing, howing, hsum⟩ := hbalanced.owed taskId
  refine ⟨hcount, hmax, by omega, fun hquiet => ?_⟩
  have hnone : owing = ∅ := by
    refine Finset.eq_empty_of_forall_notMem fun i hi => ?_
    have howes := (howing i).mp hi
    rw [owes_nothing_of_quiet hobeys' hquiet i] at howes
    cases howes
  rw [hnone, Finset.card_empty] at hsum
  omega

end Schedules

/-! ### Two reconciles of one task -/

/-- The periodic loop, and the fast path for the same task. -/
def bothLoops (i : Nat) : OrchThread :=
  if i = 0 then .reconcile (pathDraws 'a') else .taskChanged "task_1" (pathDraws 'b')

/-- Both read the row before either writes. -/
def bothRead : List Nat :=
  [0, 0, 0, 1, 1] ++ List.replicate 20 0 ++ List.replicate 20 1

theorem respawns_budgeted_in_turn :
    let reached := (orchPool {} bothLoops desertedDb).run Ledger.exec id
      ((List.replicate 25 0 ++ List.replicate 25 1).map .run)
    ∀ taskId, ∀ respawns ∈ Ledger.respawnsOf reached.state.db taskId,
      respawns = reached.state.counted taskId ∧ respawns ≤ 3 ∧
        reached.state.reopened taskId ≤ respawns ∧
        (reached.Quiet → reached.state.reopened taskId = respawns) :=
  respawns_budgeted (by decide +kernel) (by decide +kernel)

/-- Both loops reopen the task, and it carries one respawn. -/
theorem both_loops_reopen_once_counted :
    let reached := (orchPool {} bothLoops desertedDb).run Ledger.exec id (bothRead.map .run)
    (reached.hasReturned 0 && reached.hasReturned 1) = true ∧
      reached.state.reopened "task_1" = 2 ∧
        Ledger.respawnsOf reached.state.db "task_1" = some 1 := by
  decide +kernel

end Krewhub
