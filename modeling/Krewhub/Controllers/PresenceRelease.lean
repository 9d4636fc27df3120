import Krewhub.Base.Among
import Krewhub.Controllers.DispatchPass
import Krewhub.Routes.Tasks

/-!
# What a pass over the presence releases

A pass lists the agents whose heartbeat is stale, marks them offline in one statement, and then reopens their
tasks one after the other. The mark is what the next pass goes by: an agent that is offline is not listed again.
So a pass that is cut off between its mark and its last reopening leaves tasks with an agent that nobody
releases any more, and an agent that is heard of between the listing and the mark loses its tasks although it is
not marked.

Where none of this happens, and no task is handed to an agent that is offline or changes hands between its listing
and its reopening, a pass leaves no task with an agent that is offline and reopens only what the agents it has
marked still hold.
-/

namespace Krewhub

namespace PresenceController

open TaskDispatchController (isActive isPending)

/-! ### The pass and what runs beside it -/

/-- An agent in a cookbook. -/
abbrev AgentKey := String × String

/-- The agents that the statements of a pass take for stale. -/
def staleKeys (cutoff : Nat) (agents : List AgentPresence) : List AgentKey :=
  (agents.filter fun a => decide (a.lastHeartbeatAt < cutoff ∧ a.status ≠ .offline)).map
    fun a => (a.agentId, a.cookbookId)

/-- `AgentRepo.upsert_presence`. -/
def upsertAgent (presence : AgentPresence) (agents : List AgentPresence) : List AgentPresence :=
  if agents.any fun a => a.agentId == presence.agentId && a.cookbookId == presence.cookbookId then
    agents.map fun a =>
      if a.agentId = presence.agentId ∧ a.cookbookId = presence.cookbookId then
        { presence with resourceVersion := a.resourceVersion + 1, ownerUsername := a.ownerUsername }
      else a
  else agents ++ [{ presence with resourceVersion := 1, ownerUsername := none }]

/-- The agent has claimed the task and not finished it, or it is assigned to the agent and unclaimed. -/
def holds (db : Db) (key : AgentKey) (task : Task) : Bool :=
  isActive db key.2 key.1 task || isPending db key.2 key.1 task

/-- A task that a pass has reopened, and whether an agent that the pass had marked was holding it. -/
structure Reopening where
  taskId : String
  held : Bool
  deriving DecidableEq, Repr

/-- The tables as the connection shows them and as they are on the disk; how often the server has been restarted;
the tables as the pass has last read them, and the agents it has marked; the tasks that passes have reopened, and
the tables whenever a pass was over. -/
structure SweptDb where
  live : Db
  disk : Db
  epoch : Nat := 0
  read : Db
  marked : List AgentKey := []
  reopened : List Reopening := []
  ended : List Db := []

/-- A statement of a pass, its sleep until the next one, and what runs beside it: a statement of another
coroutine, or the `INSERT … ON CONFLICT DO UPDATE` of a heartbeat. -/
inductive SweepOp where
  | pass (op : Op)
  | sleep
  | beside (op : Op)
  | upsert (presence : AgentPresence)

/-- The reopening, where the statement is one and there is a task. -/
def reopenings (db : Db) (marked : List AgentKey) : Op → List Reopening
  | .updateTask taskId (.reopenForRerun _) _ _ =>
    ((db.tasks.get taskId).map fun task => ⟨taskId, marked.any fun key => holds db key task⟩).toList
  | _ => []

namespace SweptDb

def exec : SweepOp → SweptDb → SweptDb
  | .pass op, s =>
    { s with
      live := op.exec s.live
      disk := match op with
        | .commit => s.live
        | _ => s.disk
      read := match op with
        | .select => s.live
        | _ => s.read
      marked := match op with
        | .markOfflineStale cutoff => staleKeys cutoff s.live.agents
        | _ => s.marked
      reopened := s.reopened ++ reopenings s.live s.marked op }
  | .sleep, s => { s with marked := [], ended := s.ended ++ [s.live] }
  | .beside op, s =>
    { s with
      live := op.exec s.live
      disk := match op with
        | .commit => s.live
        | _ => s.disk }
  | .upsert presence, s => { s with live := { s.live with agents := upsertAgent presence s.live.agents } }

/-- A restart after a crash. -/
def recover (s : SweptDb) : SweptDb :=
  { s with live := s.disk, read := s.disk, marked := [], epoch := s.epoch + 1 }

def start (db : Db) : SweptDb := { live := db, disk := db, read := db }

end SweptDb

/-- The passes of one process, with a sleep after each. -/
def sweepLoop (heartbeatTimeout : Nat) : List Draws → Coro SweptDb SweepOp Exn Unit
  | [] => return
  | d :: passes => do
    (reconcile heartbeatTimeout d).within SweptDb.live .pass
    .perform .sleep fun _ => ()
    sweepLoop heartbeatTimeout passes

/-- What another coroutine does: only a pass marks agents, and whoever is heard of is not offline. -/
def SweepOp.IsBeside : SweepOp → Prop
  | .pass _ | .sleep => False
  | .beside op => ∀ cutoff, op ≠ .markOfflineStale cutoff
  | .upsert presence => presence.status ≠ .offline

/-- A coroutine of the server other than the presence controller. -/
structure Bystander where
  program : Coro SweptDb SweepOp Exn Unit
  isBeside : program.Every SweepOp.IsBeside

def IsUnmarking (op : Op) : Prop := ∀ cutoff, op ≠ .markOfflineStale cutoff

theorem requestOps_isUnmarking : RequestOps IsUnmarking := by
  refine .of_updates ⟨?_, ?_, ?_⟩ (fun _ _ _ => ?_) (fun _ _ => ?_) (fun _ => ?_) fun _ => ?_ <;>
    exact fun _ h => (by cases h)

namespace Bystander

/-- Any statements but those that mark agents. -/
def ofSql (c : Sql Unit) (hc : c.Every IsUnmarking) : Bystander :=
  ⟨c.within SweptDb.live .beside, hc.within fun _ hop => hop⟩

/-- A request to a task endpoint: a claim, a completion, a callback. -/
def request (depth : Nat) (req : TaskRequest) (caller : CallerContext) (d : Draws) : Bystander :=
  ofSql (req.handle depth caller d) (TaskRequest.every_handle requestOps_isUnmarking depth req caller d)

/-- A heartbeat: the row is written and committed. -/
def heartbeat (presence : AgentPresence) (h : presence.status ≠ .offline) : Bystander where
  program := do
    .perform (.upsert presence) fun _ => ()
    .perform (.beside .commit) fun _ => ()
  isBeside := ⟨h, fun _ => ⟨fun _ h => (by cases h), fun _ => trivial⟩⟩

end Bystander

/-- The loops of the presence controller, one for each process, and the other coroutines. -/
def sweepPool {κ : Type} (heartbeatTimeout : Nat) (loops : Nat → List Draws) (others : κ → Bystander) (db : Db) :
    Pool (Nat ⊕ κ) SweptDb SweepOp Exn Unit :=
  .init (fun i => match i with
    | .inl n => sweepLoop heartbeatTimeout (loops n)
    | .inr k => (others k).program) (.start db)

/-! ### What the schedule has to meet -/

def offlineKeys (db : Db) : List AgentKey :=
  (db.agents.filter (·.status == .offline)).map fun a => (a.agentId, a.cookbookId)

/-- No agent that is offline holds a task. -/
def Released (db : Db) : Prop := ∀ key ∈ offlineKeys db, ∀ task ∈ db.tasks.rows, holds db key task = false

/-- Who has claimed the task, or whom it is assigned to while nobody has. -/
def holder (task : Task) : Option String :=
  if task.status = .claimed ∨ task.status = .working then task.claimedByAgentId
  else if task.status = .open_ ∧ task.claimedByAgentId = none then task.assignedAgentId
  else none

/-- The server runs one loop of the controller, a new one after each restart. -/
def OwnLoop {κ : Type} (s : SweptDb) (i : Nat ⊕ κ) (_ : SweepOp) : Prop :=
  match i with
  | .inl n => n = s.epoch
  | .inr _ => True

/-- Nothing that runs beside a pass hands a task to an agent that is offline or lets it claim one. -/
def HandsNothing (s : SweptDb) : SweepOp → Prop
  | .beside op => ∀ key ∈ offlineKeys s.live, ∀ task ∈ (op.exec s.live).tasks.rows,
    (isActive (op.exec s.live) key.2 key.1 task = true →
      ∃ t ∈ s.live.tasks.rows, t.id = task.id ∧ isActive s.live key.2 key.1 t = true) ∧
    (isPending (op.exec s.live) key.2 key.1 task = true →
      ∃ t ∈ s.live.tasks.rows, t.id = task.id ∧ holds s.live key t = true)
  | _ => True

/-- A pass marks the agents it has listed. -/
def MarksListed (s : SweptDb) : SweepOp → Prop
  | .pass (.markOfflineStale cutoff) => staleKeys cutoff s.live.agents = staleKeys cutoff s.read.agents
  | _ => True

/-- A task that a pass reopens is still with the agent it was listed for. -/
def FindsHolder (s : SweptDb) : SweepOp → Prop
  | .pass (.updateTask taskId (.reopenForRerun _) _ (some seen)) =>
    ∀ task ∈ s.live.tasks.get taskId, task.bundleId = seen.bundleId ∧ holder task = holder seen
  | _ => True

/-! ### Tasks and who holds them -/

def HasCookbook (db : Db) (bundleId cookbookId : String) : Prop :=
  (db.bundles.get bundleId).any (fun b => b.cookbookId == some cookbookId) = true

def ActiveTask (db : Db) (key : AgentKey) (taskId : String) : Prop :=
  ∃ task ∈ db.tasks, task.id = taskId ∧ isActive db key.2 key.1 task = true

def PendingTask (db : Db) (key : AgentKey) (taskId : String) : Prop :=
  ∃ task ∈ db.tasks, task.id = taskId ∧ isPending db key.2 key.1 task = true

/-- The tasks that agents who are offline hold are among these: the active ones in `P`, the pending ones in `Q`. -/
def Owes (db : Db) (P Q : AgentKey → String → Prop) : Prop :=
  ∀ key ∈ offlineKeys db, ∀ taskId, (ActiveTask db key taskId → P key taskId) ∧
    (PendingTask db key taskId → Q key taskId)

section Holding

variable {db : Db} {key : AgentKey} {task : Task} {P Q P' Q' : AgentKey → String → Prop}

theorem holds_eq_true_iff :
    holds db key task = true ↔ HasCookbook db task.bundleId key.2 ∧ holder task = some key.1 := by
  rw [holds, isActive, isPending, Bool.or_eq_true, Bool.and_eq_true, Bool.and_eq_true, Bool.and_eq_true,
    Bool.and_eq_true, Bool.and_eq_true, Bool.or_eq_true, beq_iff_eq, beq_iff_eq, beq_iff_eq, beq_iff_eq,
    beq_iff_eq, Option.isNone_iff_eq_none, holder, HasCookbook, TaskRepo.inCookbook]
  by_cases hactive : task.status = .claimed ∨ task.status = .working
  · rw [if_pos hactive]
    have hopen : task.status ≠ .open_ := by rcases hactive with h | h <;> rw [h] <;> decide
    tauto
  · rw [if_neg hactive]
    by_cases hpending : task.status = .open_ ∧ task.claimedByAgentId = none
    · rw [if_pos hpending]
      tauto
    · rw [if_neg hpending]
      simp only [reduceCtorEq, and_false, iff_false]
      tauto

theorem holder_of_isActive (h : isActive db key.2 key.1 task = true) :
    HasCookbook db task.bundleId key.2 ∧ holder task = some key.1 :=
  holds_eq_true_iff.mp (Bool.or_eq_true_iff.mpr (.inl h))

theorem holder_of_isPending (h : isPending db key.2 key.1 task = true) :
    HasCookbook db task.bundleId key.2 ∧ holder task = some key.1 :=
  holds_eq_true_iff.mp (Bool.or_eq_true_iff.mpr (.inr h))

theorem released_iff : Released db ↔ Owes db (fun _ _ => False) fun _ _ => False := by
  constructor
  · intro h key hkey taskId
    constructor
    · rintro ⟨task, htask, -, hactive⟩
      have hnot := h key hkey task htask
      rw [holds, hactive] at hnot
      cases hnot
    · rintro ⟨task, htask, -, hpending⟩
      have hnot := h key hkey task htask
      rw [holds, hpending, Bool.or_true] at hnot
      cases hnot
  · intro h key hkey task htask
    rw [Bool.eq_false_iff]
    intro hholds
    rcases Bool.or_eq_true_iff.mp hholds with hactive | hpending
    · exact (h key hkey task.id).1 ⟨task, htask, rfl, hactive⟩
    · exact (h key hkey task.id).2 ⟨task, htask, rfl, hpending⟩

theorem Owes.mono (h : Owes db P Q) (hP : ∀ key taskId, P key taskId → P' key taskId)
    (hQ : ∀ key taskId, Q key taskId → Q' key taskId) : Owes db P' Q' :=
  fun key hkey taskId => ⟨fun hactive => hP key taskId ((h key hkey taskId).1 hactive),
    fun hpending => hQ key taskId ((h key hkey taskId).2 hpending)⟩

end Holding

/-! ### What runs beside a pass -/

/-- What the others make of the tables: nobody turns offline, and nobody who is offline gets a task. -/
structure Beside (s s' : SweptDb) : Prop where
  read : s'.read = s.read
  marked : s'.marked = s.marked
  offline : ∀ key ∈ offlineKeys s'.live, key ∈ offlineKeys s.live
  active : ∀ key ∈ offlineKeys s'.live, ∀ taskId, ActiveTask s'.live key taskId → ActiveTask s.live key taskId
  pending : ∀ key ∈ offlineKeys s'.live, ∀ taskId, PendingTask s'.live key taskId →
    ActiveTask s.live key taskId ∨ PendingTask s.live key taskId
  cookbook : ∀ bundleId cookbookId, HasCookbook s.live bundleId cookbookId → HasCookbook s'.live bundleId cookbookId

instance : IsPreorder SweptDb Beside where
  refl s := ⟨rfl, rfl, fun _ h => h, fun _ _ _ h => h, fun _ _ _ h => .inr h, fun _ _ h => h⟩
  trans s s' s'' h h' := by
    refine ⟨h'.read.trans h.read, h'.marked.trans h.marked, fun key hkey => h.offline key (h'.offline key hkey),
      fun key hkey taskId hactive => ?_, fun key hkey taskId hpending => ?_,
      fun bundleId cookbookId hbundle => h'.cookbook bundleId cookbookId (h.cookbook bundleId cookbookId hbundle)⟩
    · exact h.active key (h'.offline key hkey) taskId (h'.active key hkey taskId hactive)
    · have hkey' := h'.offline key hkey
      rcases h'.pending key hkey taskId hpending with hactive | hpending
      · exact .inl (h.active key hkey' taskId hactive)
      · exact h.pending key hkey' taskId hpending

section Others

variable {s s' : SweptDb} {P Q : AgentKey → String → Prop}

theorem Owes.beside (h : Owes s.live P Q) (hPQ : ∀ key taskId, P key taskId → Q key taskId) (hbeside : Beside s s') :
    Owes s'.live P Q := by
  intro key hkey taskId
  have howes := h key (hbeside.offline key hkey) taskId
  refine ⟨fun hactive => howes.1 (hbeside.active key hkey taskId hactive), fun hpending => ?_⟩
  rcases hbeside.pending key hkey taskId hpending with hactive | hpending
  · exact hPQ key taskId (howes.1 hactive)
  · exact howes.2 hpending

theorem agents_exec {op : Op} (h : IsUnmarking op) (db : Db) : (op.exec db).agents = db.agents := by
  cases op
  case insertTask => rw [Op.exec]; split <;> rfl
  case insertEvent => rw [Op.exec]; split <;> rfl
  case markOfflineStale cutoff => exact absurd rfl (h cutoff)
  all_goals rfl

/-- A bundle stays in its cookbook. -/
theorem hasCookbook_exec {db : Db} {bundleId cookbookId : String} (op : Op) (h : HasCookbook db bundleId cookbookId) :
    HasCookbook (op.exec db) bundleId cookbookId := by
  obtain ⟨b, hb, hcookbook⟩ := (Option.any_eq_true _ _).mp h
  cases op
  case insertBundle b' =>
    rw [HasCookbook, Op.exec, Table.get_insert_of_get hb]
    exact hcookbook
  case updateBundle id u expected =>
    have hget := Table.get_amend (t := db.bundles) (k := id)
      (f := fun b => if Db.matchesVersion expected b.resourceVersion then u.apply b else b)
      (fun b => by split <;> simp) bundleId
    rw [HasCookbook, Op.exec, hget, hb]
    split
    · rw [Option.map_some, Option.any_some]
      split
      · cases u <;> exact hcookbook
      · exact hcookbook
    · exact hcookbook
  case insertTask => rw [HasCookbook, Op.exec]; split <;> exact h
  case insertEvent => rw [HasCookbook, Op.exec]; split <;> exact h
  all_goals exact h

theorem mem_offlineKeys {db : Db} {key : AgentKey} :
    key ∈ offlineKeys db ↔ ∃ a ∈ db.agents, a.status = .offline ∧ (a.agentId, a.cookbookId) = key := by
  simp only [offlineKeys, List.mem_map, List.mem_filter, beq_iff_eq, and_assoc]

/-- Whoever is heard of is not offline, and the others stay what they are. -/
theorem offlineKeys_upsert {db : Db} {presence : AgentPresence} (h : presence.status ≠ .offline) {key : AgentKey}
    (hkey : key ∈ offlineKeys { db with agents := upsertAgent presence db.agents }) : key ∈ offlineKeys db := by
  obtain ⟨a, ha, hstatus, rfl⟩ := mem_offlineKeys.mp hkey
  rw [mem_offlineKeys]
  dsimp only at ha
  rw [upsertAgent] at ha
  split at ha
  · obtain ⟨b, hb, rfl⟩ := List.mem_map.mp ha
    split at hstatus
    · exact absurd hstatus h
    · rename_i hne
      exact ⟨b, hb, hstatus, by rw [if_neg hne]⟩
  · rcases List.mem_append.mp ha with ha | ha
    · exact ⟨a, ha, hstatus, rfl⟩
    · rw [List.mem_singleton.mp ha] at hstatus
      exact absurd hstatus h

/-- One step of another coroutine. -/
theorem beside_exec {op : SweepOp} (hop : op.IsBeside) (hhands : HandsNothing s op) : Beside s (s.exec op) := by
  cases op with
  | pass op => exact hop.elim
  | sleep => exact hop.elim
  | beside op =>
    have hagents : offlineKeys (op.exec s.live) = offlineKeys s.live := by
      rw [offlineKeys, agents_exec hop, offlineKeys]
    refine ⟨rfl, rfl, fun key hkey => hagents ▸ hkey, ?_, ?_, fun _ _ h => hasCookbook_exec op h⟩
    · rintro key hkey taskId ⟨task, htask, rfl, hactive⟩
      exact (hhands key (hagents ▸ hkey) task htask).1 hactive
    · rintro key hkey taskId ⟨task, htask, rfl, hpending⟩
      obtain ⟨t, ht, hid, hholds⟩ := (hhands key (hagents ▸ hkey) task htask).2 hpending
      rcases Bool.or_eq_true_iff.mp hholds with hactive | hpending
      · exact .inl ⟨t, ht, hid, hactive⟩
      · exact .inr ⟨t, ht, hid, hpending⟩
  | upsert presence =>
    exact ⟨rfl, rfl, fun key hkey => offlineKeys_upsert hop hkey, fun _ _ _ h => h, fun _ _ _ h => .inr h,
      fun _ _ h => h⟩

end Others

/-! ### One statement of a pass -/

/-- What a pass asks of the state its statement meets. -/
def Meets (s : SweptDb) (op : SweepOp) : Prop := MarksListed s op ∧ FindsHolder s op

/-- What a pass shows: it reopens what the agents it has marked hold, and is over once nothing is left to release. -/
def Shows (s : SweptDb) : SweepOp → Prop
  | .pass op => ∀ r ∈ reopenings s.live s.marked op, r.held = true
  | .sleep => Released s.live
  | _ => True

/-- The pass has marked these agents, and of what agents who are offline hold these tasks are left to release; the
tasks that are listed are the first of the agents'. -/
structure Due (P Q : AgentKey → String → Prop) (keys : List AgentKey) (listed : List (AgentKey × Task))
    (s : SweptDb) : Prop where
  owes : Owes s.live P Q
  marked : ∀ key ∈ keys, key ∈ s.marked
  listed : ∀ entry ∈ listed, entry.1 ∈ s.marked ∧ holder entry.2 = some entry.1.1 ∧
    HasCookbook s.live entry.2.bundleId entry.1.2

section Pass

variable {s s' : SweptDb} {P Q : AgentKey → String → Prop} {keys : List AgentKey} {key : AgentKey} {task : Task}
  {listed : List (AgentKey × Task)}

theorem Due.beside (h : Due P Q keys listed s) (hPQ : ∀ key taskId, P key taskId → Q key taskId)
    (hbeside : Beside s s') : Due P Q keys listed s' where
  owes := h.owes.beside hPQ hbeside
  marked key hkey := hbeside.marked ▸ h.marked key hkey
  listed entry hentry := by
    obtain ⟨hmarked, hholder, hcookbook⟩ := h.listed entry hentry
    exact ⟨hbeside.marked ▸ hmarked, hholder, hbeside.cookbook _ _ hcookbook⟩

theorem Due.plain (h : Due P Q keys listed s) {op : Op} (hop : op.IsPlain) :
    Due P Q keys listed (s.exec (.pass op)) := by
  rcases hop with rfl | rfl | rfl <;> exact ⟨h.owes, h.marked, h.listed⟩

theorem shows_plain {op : Op} (hop : op.IsPlain) : Shows s (.pass op) := by
  rcases hop with rfl | rfl | rfl <;> exact fun r hr => absurd hr List.not_mem_nil

/-- A task that is reopened is with nobody. -/
theorem not_holds_reopened (db : Db) (key : AgentKey) (task : Task) (now : Nat) :
    isActive db key.2 key.1 (TaskUpdate.apply (.reopenForRerun now) task) = false ∧
      isPending db key.2 key.1 (TaskUpdate.apply (.reopenForRerun now) task) = false := by
  constructor
  · rw [isActive, TaskUpdate.apply]
    simp
  · rw [isPending, TaskUpdate.apply]
    simp

theorem Owes.reopen {db : Db} (h : Owes db P Q) (taskId : String) (now : Nat) (seen : Option Task) :
    Owes (Op.exec (.updateTask taskId (.reopenForRerun now) none seen) db)
      (fun key id => P key id ∧ id ≠ taskId) fun key id => Q key id ∧ id ≠ taskId := by
  intro key hkey id
  constructor
  · rintro ⟨task, htask, rfl, hactive⟩
    obtain ⟨t, ht, heq⟩ := Op.mem_exec_updateTask.mp htask
    split at heq
    · rw [heq] at hactive
      exact absurd hactive (Bool.eq_false_iff.mp (not_holds_reopened _ key t now).1)
    · rename_i hne
      subst heq
      exact ⟨(h key hkey task.id).1 ⟨task, ht, rfl, hactive⟩, hne⟩
  · rintro ⟨task, htask, rfl, hpending⟩
    obtain ⟨t, ht, heq⟩ := Op.mem_exec_updateTask.mp htask
    split at heq
    · rw [heq] at hpending
      exact absurd hpending (Bool.eq_false_iff.mp (not_holds_reopened _ key t now).2)
    · rename_i hne
      subst heq
      exact ⟨(h key hkey task.id).2 ⟨task, ht, rfl, hpending⟩, hne⟩

theorem Due.reopen (h : Due P Q keys ((key, task) :: listed) s) (now : Nat) :
    Due (fun key id => P key id ∧ id ≠ task.id) (fun key id => Q key id ∧ id ≠ task.id) keys listed
      (s.exec (.pass (.updateTask task.id (.reopenForRerun now) none (some task)))) :=
  ⟨h.owes.reopen task.id now (some task), h.marked, fun entry hentry =>
    h.listed entry (List.mem_cons_of_mem _ hentry)⟩

/-- A task that is found with the agent it was listed for is still one of an agent that the pass has marked. -/
theorem Due.shows (h : Due P Q keys ((key, task) :: listed) s) {now : Nat}
    (hfinds : FindsHolder s (.pass (.updateTask task.id (.reopenForRerun now) none (some task)))) :
    Shows s (.pass (.updateTask task.id (.reopenForRerun now) none (some task))) := by
  intro r hr
  obtain ⟨hmarked, hholder, hcookbook⟩ := h.listed _ List.mem_cons_self
  obtain ⟨t, ht, rfl⟩ := Option.map_eq_some_iff.mp (Option.mem_toList.mp hr)
  obtain ⟨hbundle, hsame⟩ := hfinds t ht
  refine List.any_eq_true.mpr ⟨key, hmarked, holds_eq_true_iff.mpr ⟨?_, hsame.trans hholder⟩⟩
  rw [hbundle]
  exact hcookbook

theorem offlineKeys_mark {db : Db} {cutoff : Nat}
    (hkey : key ∈ offlineKeys (Op.exec (.markOfflineStale cutoff) db)) :
    key ∈ offlineKeys db ∨ key ∈ staleKeys cutoff db.agents := by
  obtain ⟨a, ha, hstatus, rfl⟩ := mem_offlineKeys.mp hkey
  obtain ⟨b, hb, rfl⟩ := List.mem_map.mp ha
  split at hstatus
  · rename_i hstale
    right
    rw [if_pos hstale]
    exact List.mem_map.mpr ⟨b, List.mem_filter.mpr ⟨hb, decide_eq_true hstale⟩, rfl⟩
  · rename_i hnot
    left
    rw [if_neg hnot]
    exact mem_offlineKeys.mpr ⟨b, hb, hstatus, rfl⟩

/-- Once the agents are marked, what is left to release is theirs. -/
theorem due_mark {cutoff : Nat} (hreleased : Released s.live) :
    Due (fun key _ => key ∈ staleKeys cutoff s.live.agents) (fun key _ => key ∈ staleKeys cutoff s.live.agents)
      (staleKeys cutoff s.live.agents) [] (s.exec (.pass (.markOfflineStale cutoff))) := by
  refine ⟨fun key hkey taskId => ?_, fun key hkey => hkey, fun entry hentry => absurd hentry List.not_mem_nil⟩
  rcases offlineKeys_mark hkey with hkey | hkey
  · have howes := released_iff.mp hreleased key hkey taskId
    exact ⟨fun hactive => (howes.1 hactive).elim, fun hpending => (howes.2 hpending).elim⟩
  · exact ⟨fun _ => hkey, fun _ => hkey⟩

end Pass

/-! ### A pass -/

/-- A part of a pass, whatever runs beside it. -/
def InPass {α : Type} (post : α → SweptDb → Prop) (c : Sql α) (s : SweptDb) : Prop :=
  c.Among SweptDb.live (fun op => SweptDb.exec (.pass op)) Beside (fun s op => Meets s (.pass op))
    (fun s op => Shows s (.pass op)) post s

section Programs

variable {s : SweptDb} {key : AgentKey} {keys : List AgentKey}

theorem Due.mono {P Q P' Q' : AgentKey → String → Prop} {keys' : List AgentKey} {listed : List (AgentKey × Task)}
    (h : Due P Q keys listed s) (hP : ∀ k id, P k id → P' k id) (hQ : ∀ k id, Q k id → Q' k id)
    (hkeys : ∀ k ∈ keys', k ∈ keys) : Due P' Q' keys' listed s :=
  ⟨h.owes.mono hP hQ, fun k hk => h.marked k (hkeys k hk), h.listed⟩

theorem inPass_plain {α : Type} {P Q : AgentKey → String → Prop} {listed : List (AgentKey × Task)} {c : Sql α}
    (hc : c.Every Op.IsPlain) (hPQ : ∀ k id, P k id → Q k id) (h : Due P Q keys listed s) :
    InPass (fun _ => Due P Q keys listed) c s :=
  Coro.Among.of_every hc (fun _ _ hbeside h => h.beside hPQ hbeside)
    (fun _ _ hop h _ => ⟨shows_plain hop, h.plain hop⟩) h

/-- The reopenings of what is listed for an agent. -/
theorem inPass_releaseTasks (d : Draws) {tasks : List Task} {P Q : List String → AgentKey → String → Prop}
    (hPQ : ∀ ids k id, P ids k id → Q ids k id)
    (hP : ∀ taskId ids k id, P (taskId :: ids) k id → id ≠ taskId → P ids k id)
    (hQ : ∀ taskId ids k id, Q (taskId :: ids) k id → id ≠ taskId → Q ids k id)
    (h : Due (P (tasks.map (·.id))) (Q (tasks.map (·.id))) keys (tasks.map fun task => (key, task)) s) :
    InPass (fun _ => Due (P []) (Q []) keys []) (releaseTasks d tasks) s := by
  induction tasks generalizing s with
  | nil => exact fun s' hbeside => h.beside (hPQ []) hbeside
  | cons task tasks ih =>
    have hreopen : InPass (fun _ => Due (P (tasks.map (·.id))) (Q (tasks.map (·.id))) keys
        (tasks.map fun task => (key, task)))
        (TaskRepo.reopenForRerun task.id (some task) (d.sub tasks.length)) s := by
      refine Coro.Among.perform_bind (fun s' hbeside => h.beside (hPQ _) hbeside) fun s' h' hmeets => ?_
      refine ⟨h'.shows hmeets.2, inPass_plain (.bind (Sql.every_commit plainOps_isPlain) fun _ =>
        TaskRepo.every_get plainOps_isPlain task.id) (hPQ _) ?_⟩
      exact (h'.reopen _).mono (fun k id hid => hP task.id _ k id hid.1 hid.2)
        (fun k id hid => hQ task.id _ k id hid.1 hid.2) fun _ hk => hk
    refine Coro.Among.bind hreopen fun reopened s' h' => ?_
    refine Coro.Among.bind (inPass_plain (TaskService.every_recordUpdated plainOps_isPlain reopened) (hPQ _) h')
      fun _ s'' h'' => ?_
    exact ih h''

/-- The active tasks of the next agent are listed. -/
theorem Due.list_active (h : Due (fun k _ => k ∈ key :: keys) (fun k _ => k ∈ key :: keys) (key :: keys) [] s)
    {tasks : List Task} (htasks : tasks = s.live.tasks.rows.filter (isActive s.live key.2 key.1)) :
    Due (fun k id => k ∈ keys ∨ k = key ∧ id ∈ tasks.map (·.id)) (fun k _ => k ∈ keys ∨ k = key) (key :: keys)
      (tasks.map fun task => (key, task)) s := by
  refine ⟨fun k hk id => ⟨?_, fun hpending => ?_⟩, h.marked, fun entry hentry => ?_⟩
  · rintro ⟨task, htask, rfl, hactive⟩
    rcases List.mem_cons.mp ((h.owes k hk task.id).1 ⟨task, htask, rfl, hactive⟩) with rfl | hk
    · exact .inr ⟨rfl, List.mem_map.mpr ⟨task, htasks ▸ List.mem_filter.mpr ⟨htask, hactive⟩, rfl⟩⟩
    · exact .inl hk
  · exact (List.mem_cons.mp ((h.owes k hk id).2 hpending)).symm
  · obtain ⟨task, htask, rfl⟩ := List.mem_map.mp hentry
    obtain ⟨hcookbook, hholder⟩ := holder_of_isActive (List.mem_filter.mp (htasks ▸ htask)).2
    exact ⟨h.marked key List.mem_cons_self, hholder, hcookbook⟩

/-- What is assigned to the agent and unclaimed is listed. -/
theorem Due.list_pending
    (h : Due (fun k id => k ∈ keys ∨ k = key ∧ id ∈ ([] : List String)) (fun k _ => k ∈ keys ∨ k = key)
      (key :: keys) [] s)
    {tasks : List Task} (htasks : tasks = s.live.tasks.rows.filter (isPending s.live key.2 key.1)) :
    Due (fun k _ => k ∈ keys) (fun k id => k ∈ keys ∨ k = key ∧ id ∈ tasks.map (·.id)) (key :: keys)
      (tasks.map fun task => (key, task)) s := by
  refine ⟨fun k hk id => ⟨fun hactive => ?_, ?_⟩, h.marked, fun entry hentry => ?_⟩
  · rcases (h.owes k hk id).1 hactive with hk | ⟨-, hid⟩
    · exact hk
    · cases hid
  · rintro ⟨task, htask, rfl, hpending⟩
    rcases (h.owes k hk task.id).2 ⟨task, htask, rfl, hpending⟩ with hk | rfl
    · exact .inl hk
    · exact .inr ⟨rfl, List.mem_map.mpr ⟨task, htasks ▸ List.mem_filter.mpr ⟨htask, hpending⟩, rfl⟩⟩
  · obtain ⟨task, htask, rfl⟩ := List.mem_map.mp hentry
    obtain ⟨hcookbook, hholder⟩ := holder_of_isPending (List.mem_filter.mp (htasks ▸ htask)).2
    exact ⟨h.marked key List.mem_cons_self, hholder, hcookbook⟩

theorem inPass_releaseAgents (d : Draws) (h : Due (fun k _ => k ∈ keys) (fun k _ => k ∈ keys) keys [] s) :
    InPass (fun _ s => Released s.live) (releaseAgents d keys) s := by
  induction keys generalizing s with
  | nil =>
    intro s' hbeside
    have howes := h.owes.beside (fun _ _ hk => hk) hbeside
    exact released_iff.mpr (howes.mono (fun _ _ hk => by cases hk) fun _ _ hk => by cases hk)
  | cons key keys ih =>
    have hrest : ∀ {s : SweptDb}, Due (fun k _ => k ∈ key :: keys) (fun k _ => k ∈ key :: keys) (key :: keys) [] s →
        InPass (fun _ s => Released s.live) (do
          let activeTasks ← TaskRepo.listActiveByAgent (some key.2) key.1
          releaseTasks ((d.sub keys.length).sub 0) activeTasks
          let orphaned ← TaskRepo.listAssignedUnclaimedByAgent key.2 key.1
          releaseTasks ((d.sub keys.length).sub 1) orphaned
          releaseAgents d keys) s := by
      intro s h
      refine Coro.Among.perform_bind (fun s' hbeside => h.beside (fun _ _ hk => hk) hbeside) fun s' h' _ =>
        ⟨shows_plain plainOps_isPlain.select, ?_⟩
      have hactive := (h'.list_active rfl).plain plainOps_isPlain.select
      refine Coro.Among.bind (inPass_releaseTasks _ (P := fun ids k id => k ∈ keys ∨ k = key ∧ id ∈ ids)
        (Q := fun _ k _ => k ∈ keys ∨ k = key) (fun _ _ _ hk => hk.imp id And.left) ?_ (fun _ _ _ _ hk _ => hk)
        hactive) fun _ s₁ h₁ => ?_
      · rintro taskId ids k id (hk | ⟨rfl, hid⟩) hne
        · exact .inl hk
        · exact .inr ⟨rfl, (List.mem_cons.mp hid).resolve_left hne⟩
      refine Coro.Among.perform_bind (fun s' hbeside => h₁.beside (fun _ _ hk => hk.imp id And.left) hbeside)
        fun s₂ h₂ _ => ⟨shows_plain plainOps_isPlain.select, ?_⟩
      have hpending := (h₂.list_pending rfl).plain plainOps_isPlain.select
      refine Coro.Among.bind (inPass_releaseTasks _ (P := fun _ k _ => k ∈ keys)
        (Q := fun ids k id => k ∈ keys ∨ k = key ∧ id ∈ ids) (fun _ _ _ hk => .inl hk) (fun _ _ _ _ hk _ => hk) ?_
        hpending) fun _ s₃ h₃ => ?_
      · rintro taskId ids k id (hk | ⟨rfl, hid⟩) hne
        · exact .inl hk
        · exact .inr ⟨rfl, (List.mem_cons.mp hid).resolve_left hne⟩
      refine ih (h₃.mono (fun _ _ hk => hk) (fun k id hk => ?_) fun k hk => List.mem_cons_of_mem _ hk)
      rcases hk with hk | ⟨-, hid⟩
      · exact hk
      · cases hid
    refine Coro.Among.bind (inPass_plain (Sql.every_select plainOps_isPlain _) (fun _ _ hk => hk) h)
      fun updatedAgent s' h' => .ite (fun _ => ?_) fun _ => hrest h'
    exact Coro.Among.bind (inPass_plain (Sql.every_record plainOps_isPlain) (fun _ _ hk => hk) h') fun _ s'' h'' =>
      hrest h''

theorem Released.beside {s s' : SweptDb} (h : Released s.live) (hbeside : Beside s s') : Released s'.live :=
  released_iff.mpr ((released_iff.mp h).beside (fun _ _ hfalse => hfalse) hbeside)

/-- **A pass that finds nothing to release with agents who are offline leaves nothing.** -/
theorem inPass_reconcile (heartbeatTimeout : Nat) (d : Draws) (h : Released s.live) :
    InPass (fun _ s => Released s.live) (reconcile heartbeatTimeout d) s := by
  refine Coro.Among.perform_bind (fun s' hbeside => h.beside hbeside) fun s₀ h₀ _ =>
    ⟨shows_plain plainOps_isPlain.select, .ite (fun _ s' hbeside => Released.beside (s := s₀.exec (.pass .select)) h₀ hbeside)
      fun _ => ?_⟩
  have hmark : InPass (fun _ => Due (fun k _ => k ∈ staleKeys (d.clock - heartbeatTimeout) s₀.live.agents)
      (fun k _ => k ∈ staleKeys (d.clock - heartbeatTimeout) s₀.live.agents)
      (staleKeys (d.clock - heartbeatTimeout) s₀.live.agents) [])
      (AgentRepo.markOfflineStale (d.clock - heartbeatTimeout)) (s₀.exec (.pass .select)) := by
    refine Coro.Among.perform_bind (I := fun s => Released s.live ∧ s.read = s₀.live)
      (fun s' hbeside => ⟨Released.beside (s := s₀.exec (.pass .select)) h₀ hbeside, hbeside.read⟩)
      fun s₁ h₁ hmeets => ⟨fun r hr => absurd hr List.not_mem_nil, ?_⟩
    have hlisted : staleKeys (d.clock - heartbeatTimeout) s₁.live.agents =
        staleKeys (d.clock - heartbeatTimeout) s₀.live.agents := h₁.2 ▸ hmeets.1
    refine inPass_plain (.bind (Sql.every_commit plainOps_isPlain) fun _ => by trivial) (fun _ _ hk => hk) ?_
    rw [← hlisted]
    exact due_mark h₁.1
  exact Coro.Among.bind hmark fun _ s' h' => inPass_releaseAgents d h'

theorem among_sweepLoop (heartbeatTimeout : Nat) (passes : List Draws) (h : Released s.live) :
    (sweepLoop heartbeatTimeout passes).Among id SweptDb.exec Beside Meets Shows (fun _ _ => True) s := by
  induction passes generalizing s with
  | nil => exact fun _ _ => trivial
  | cons d passes ih =>
    refine Coro.Among.bind (Coro.Among.within (inPass_reconcile heartbeatTimeout d h)) fun _ s' h' => ?_
    exact Coro.Among.perform_bind (fun s'' hbeside => h'.beside hbeside) fun s'' h'' _ => ⟨h'', ih h''⟩

end Programs

/-! ### Schedules -/

/-- The loop of the process and those to come, the other coroutines, and what passes have done. -/
structure SweepHolds {κ : Type} (heartbeatTimeout : Nat) (loops : Nat → List Draws) (s : SweptDb)
    (thread : Nat ⊕ κ → Option (Coro SweptDb SweepOp Exn Unit)) : Prop where
  loop : ∀ c ∈ thread (.inl s.epoch), c.Among id SweptDb.exec Beside Meets Shows (fun _ _ => True) s
  later : ∀ n, s.epoch < n → ∀ c ∈ thread (.inl n), c = sweepLoop heartbeatTimeout (loops n)
  others : ∀ k, ∀ c ∈ thread (.inr k), c.Every SweepOp.IsBeside
  ended : ∀ db ∈ s.ended, Released db
  reopened : ∀ r ∈ s.reopened, r.held = true

section Schedules

variable {κ : Type} [DecidableEq κ] {heartbeatTimeout : Nat} {loops : Nat → List Draws} {others : κ → Bystander}
  {db : Db} {s : SweptDb} {thread : Nat ⊕ κ → Option (Coro SweptDb SweepOp Exn Unit)} {op : SweepOp}
  {next : SweptDb → Coro SweptDb SweepOp Exn Unit}

theorem epoch_exec (op : SweepOp) (s : SweptDb) : (s.exec op).epoch = s.epoch := by
  cases op <;> rfl

/-- What passes have done after a statement that shows what it has to. -/
theorem exec_shows (h : Shows s op) (hover : ∀ db ∈ s.ended, Released db) (hreopened : ∀ r ∈ s.reopened, r.held = true) :
    (∀ db ∈ (s.exec op).ended, Released db) ∧ ∀ r ∈ (s.exec op).reopened, r.held = true := by
  cases op with
  | pass op =>
    refine ⟨hover, fun r hr => ?_⟩
    rcases List.mem_append.mp hr with hr | hr
    · exact hreopened r hr
    · exact h r hr
  | sleep =>
    refine ⟨fun db hdb => ?_, hreopened⟩
    rcases List.mem_append.mp hdb with hdb | hdb
    · exact hover db hdb
    · rw [List.mem_singleton.mp hdb]
      exact h
  | beside op => exact ⟨hover, hreopened⟩
  | upsert presence => exact ⟨hover, hreopened⟩

theorem SweepHolds.step_loop (h : SweepHolds heartbeatTimeout loops s thread) {n : Nat}
    (hawaits : thread (.inl n) = some (.await op next)) (hloop : n = s.epoch) (hmeets : Meets s op) :
    SweepHolds heartbeatTimeout loops (s.exec op) (Function.update thread (.inl n) (some (next s))) := by
  have hamong := h.loop (.await op next) (hloop ▸ hawaits)
  obtain ⟨hshows, hnext⟩ := hamong s (refl_of Beside s) hmeets
  obtain ⟨hover, hreopened⟩ := exec_shows hshows h.ended h.reopened
  refine ⟨fun c hc => ?_, fun m hm c hc => ?_, fun k c hc => ?_, hover, hreopened⟩
  · rw [epoch_exec, hloop, Function.update_self] at hc
    obtain rfl := Option.some.inj hc
    exact hnext
  · rw [epoch_exec] at hm
    rw [Function.update_of_ne (fun heq => by cases heq; omega)] at hc
    exact h.later m hm c hc
  · rw [Function.update_of_ne (by rintro ⟨⟩)] at hc
    exact h.others k c hc

theorem SweepHolds.step_other (h : SweepHolds heartbeatTimeout loops s thread) {k : κ}
    (hawaits : thread (.inr k) = some (.await op next)) (hhands : HandsNothing s op) :
    SweepHolds heartbeatTimeout loops (s.exec op) (Function.update thread (.inr k) (some (next s))) := by
  obtain ⟨hbeside, hnext⟩ := h.others k _ hawaits
  have hshows : Shows s op := by
    cases op with
    | pass op => exact hbeside.elim
    | sleep => exact hbeside.elim
    | beside op => trivial
    | upsert presence => trivial
  obtain ⟨hover, hreopened⟩ := exec_shows hshows h.ended h.reopened
  refine ⟨fun c hc => ?_, fun m hm c hc => ?_, fun j c hc => ?_, hover, hreopened⟩
  · rw [epoch_exec, Function.update_of_ne (by rintro ⟨⟩)] at hc
    exact (h.loop c hc).after (beside_exec hbeside hhands)
  · rw [epoch_exec] at hm
    rw [Function.update_of_ne (by rintro ⟨⟩)] at hc
    exact h.later m hm c hc
  · by_cases hjk : j = k
    · subst hjk
      rw [Function.update_self] at hc
      obtain rfl := Option.some.inj hc
      exact hnext s
    · rw [Function.update_of_ne (fun heq => hjk (Sum.inr.inj heq))] at hc
      exact h.others j c hc

omit [DecidableEq κ] in
/-- A restart, where the disk has no task with an agent that is offline. -/
theorem SweepHolds.recover (h : SweepHolds heartbeatTimeout loops s thread) (hdisk : Released s.disk) :
    SweepHolds heartbeatTimeout loops s.recover thread where
  loop c hc := by
    rw [h.later _ (Nat.lt_succ_self _) c hc]
    exact among_sweepLoop heartbeatTimeout (loops (s.epoch + 1)) (s := s.recover) hdisk
  later n hn := h.later n (Nat.lt_of_succ_lt hn)
  others := h.others
  ended := h.ended
  reopened := h.reopened

/-- **Whatever runs beside the passes, and wherever they are cut off: once a pass is over no task is with an agent
that is offline, and a pass reopens only what an agent it has marked still holds, where it all starts so, a crash
finds it so on the disk, nothing hands a task to an agent that is offline, a pass marks the agents it has listed,
and finds the tasks it reopens with the agents it has listed them for.** -/
theorem release_crash_safe {turns : List (Turn (Nat ⊕ κ))} (hstart : Released db)
    (hloops : Pool.Along SweptDb.exec SweptDb.recover OwnLoop (sweepPool heartbeatTimeout loops others db) turns)
    (hhands : Pool.Along SweptDb.exec SweptDb.recover (fun s _ => HandsNothing s)
      (sweepPool heartbeatTimeout loops others db) turns)
    (hlisted : Pool.Along SweptDb.exec SweptDb.recover (fun s _ => MarksListed s)
      (sweepPool heartbeatTimeout loops others db) turns)
    (hfinds : Pool.Along SweptDb.exec SweptDb.recover (fun s _ => FindsHolder s)
      (sweepPool heartbeatTimeout loops others db) turns)
    (hcrashes : Pool.CrashesMeet SweptDb.exec SweptDb.recover (fun s => Released s.disk)
      (sweepPool heartbeatTimeout loops others db) turns) :
    let reached := (sweepPool heartbeatTimeout loops others db).run SweptDb.exec SweptDb.recover turns
    (∀ db' ∈ reached.state.ended, Released db') ∧ ∀ r ∈ reached.state.reopened, r.held = true := by
  intro reached
  have hbegin : SweepHolds heartbeatTimeout loops (SweptDb.start db)
      (sweepPool heartbeatTimeout loops others db).thread := by
    refine ⟨fun c hc => ?_, fun n _ c hc => ?_, fun k c hc => ?_, fun db' hdb' => ?_, fun r hr => ?_⟩
    · obtain rfl := Option.some.inj hc
      exact among_sweepLoop heartbeatTimeout (loops 0) (s := SweptDb.start db) hstart
    · exact (Option.some.inj hc).symm
    · obtain rfl := Option.some.inj hc
      exact (others k).isBeside
    · cases hdb'
    · cases hr
  have hend := Pool.inv_threads (I := SweepHolds heartbeatTimeout loops)
    (fun s thread thread' hdrop h => ⟨fun c hc => h.loop c (hdrop _ c hc), fun n hn c hc => h.later n hn c (hdrop _ c hc),
      fun k c hc => h.others k c (hdrop _ c hc), h.ended, h.reopened⟩)
    (fun s thread i op next h hawaits hmet => by
      obtain ⟨⟨hown, hhands⟩, hlisted, hfinds⟩ := hmet
      cases i with
      | inl n => exact h.step_loop hawaits hown ⟨hlisted, hfinds⟩
      | inr k => exact h.step_other hawaits hhands)
    (fun s thread h hdisk => h.recover hdisk) hbegin ((hloops.and hhands).and (hlisted.and hfinds)) hcrashes
  exact ⟨hend.ended, hend.reopened⟩

end Schedules

/-! ### A crash and a heartbeat in the middle of a pass -/

instance : DecidablePred Released := fun db =>
  inferInstanceAs (Decidable (∀ key ∈ offlineKeys db, ∀ task ∈ db.tasks.rows, holds db key task = false))

instance {κ : Type} (s : SweptDb) (i : Nat ⊕ κ) : DecidablePred (OwnLoop s i) := by
  rcases i with _ | _ <;> unfold OwnLoop <;> dsimp only <;> infer_instance

instance (s : SweptDb) : DecidablePred (HandsNothing s) := by
  rintro (_ | _ | _ | _) <;> unfold HandsNothing <;> dsimp only <;> infer_instance

instance (s : SweptDb) : DecidablePred (MarksListed s) := by
  rintro ((_ | _) | _ | _ | _) <;> unfold MarksListed <;> dsimp only <;> infer_instance

instance (s : SweptDb) : DecidablePred (FindsHolder s) := by
  rintro ((_ | _ | _ | _ | ⟨_, _ | _, _, _ | _⟩ | _) | _ | _ | _) <;>
    unfold FindsHolder <;> dsimp only <;> infer_instance

def coder : AgentPresence where
  agentId := "coder"
  cookbookId := "cb_1"
  status := .busy

def workingTask : Task where
  id := "task_1"
  bundleId := "bun_1"
  status := .working
  assignedAgentId := some "coder"
  claimedByAgentId := some "coder"

def assignedTask : Task where
  id := "task_2"
  bundleId := "bun_1"
  assignedAgentId := some "coder"

def busyDb : Db where
  bundles := (∅ : Table Bundle).insert { id := "bun_1", cookbookId := some "cb_1" }
  tasks := ((∅ : Table Task).insert workingTask).insert assignedTask
  agents := [coder]

/-- A pass forty seconds after the last heartbeat. -/
def lateSweep (_ : Nat) : List Draws := [{ pathDraws 'a' with now := fun _ => 40 }]

/-- A heartbeat of the reviewer; of the coder; and a completion of the first task. -/
def beatOrComplete : Option Bool → Bystander
  | none => .heartbeat { agentId := "reviewer", cookbookId := "cb_1", status := .online, lastHeartbeatAt := 39 }
    (by decide)
  | some true => .heartbeat { coder with lastHeartbeatAt := 39 } (by decide)
  | some false => .request 0 (.status "task_1" "done" none) { accountId := legacyAccountId } (pathDraws 'b')

def latePool : Pool (Nat ⊕ Option Bool) SweptDb SweepOp Exn Unit := sweepPool 30 lateSweep beatOrComplete busyDb

def afterTurns (turns : List (Turn (Nat ⊕ Option Bool))) : SweptDb :=
  (latePool.run SweptDb.exec SweptDb.recover turns).state

/-- A pass, a heartbeat of the reviewer in the middle of it, and a restart once it is through. -/
theorem release_crash_safe_restarted :
    let turns := List.replicate 6 (.run (.inl 0)) ++ List.replicate 2 (.run (.inr none)) ++
      List.replicate 13 (.run (.inl 0)) ++ .crash :: List.replicate 2 (.run (.inl 1))
    let reached := (latePool.run SweptDb.exec SweptDb.recover turns)
    (∀ db ∈ reached.state.ended, Released db) ∧ ∀ r ∈ reached.state.reopened, r.held = true :=
  release_crash_safe (by decide +kernel) (by decide +kernel) (by decide +kernel) (by decide +kernel)
    (by decide +kernel) (by decide +kernel)

/-- The server goes down once the agent is marked. -/
def cutOff : List (Turn (Nat ⊕ Option Bool)) :=
  List.replicate 3 (.run (.inl 0)) ++ .crash :: List.replicate 2 (.run (.inl 1))

/-- The agent is heard of once it is listed. -/
def heardOf : List (Turn (Nat ⊕ Option Bool)) :=
  .run (.inl 0) :: List.replicate 2 (.run (.inr (some true))) ++ List.replicate 19 (.run (.inl 0))

/-- The first task is finished once it is listed. -/
def finishedMeanwhile : List (Turn (Nat ⊕ Option Bool)) :=
  List.replicate 7 (.run (.inl 0)) ++ List.replicate 20 (.run (.inr (some false))) ++
    List.replicate 12 (.run (.inl 0))

theorem release_not_crash_safe :
    (¬ ∀ db ∈ (afterTurns cutOff).ended, Released db) ∧
      (afterTurns heardOf).reopened = [⟨"task_1", false⟩, ⟨"task_2", false⟩] ∧
      (afterTurns finishedMeanwhile).reopened = [⟨"task_1", false⟩, ⟨"task_2", true⟩] := by
  decide +kernel

end PresenceController

end Krewhub
