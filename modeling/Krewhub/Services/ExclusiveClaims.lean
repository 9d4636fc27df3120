import Krewhub.Base.Interleave
import Krewhub.Services.TaskService

/-!
# Exclusive claims

`claim_task` reads the row of a task and the tasks the agent holds, and claims the task with an `UPDATE`
that asks for neither. Where every such `UPDATE` still meets what has been checked, an open task and an
agent that holds none, a task is returned to one call only and no agent comes to hold two.
-/

namespace Krewhub

/-- The tasks of a cookbook an agent has claimed or is working on. -/
def activeTasks (cookbookId : String) (db : Db) (agentId : String) : List Task :=
  db.tasks.rows.filter fun t =>
    TaskRepo.inCookbook db cookbookId t && t.claimedByAgentId == some agentId &&
      (t.status == .claimed || t.status == .working)

/-- A call of `claim_task`. -/
structure ClaimCall where
  taskId : String
  agentId : String
  draws : Draws

/-- What a claim writes into the row. -/
def claimedPatch (agentId : String) (now : Nat) : TaskPatch where
  status := some .claimed
  claimedByAgentId := some agentId
  claimedAt := some now

/-! ### The row a claim writes -/

section Row

variable {agentId : String} {now now' : Nat} {t : Task}

@[simp]
theorem status_claimedPatch : ((claimedPatch agentId now).apply now' t).status = .claimed := rfl

@[simp]
theorem claimedByAgentId_claimedPatch :
    ((claimedPatch agentId now).apply now' t).claimedByAgentId = some agentId := rfl

@[simp]
theorem bundleId_claimedPatch : ((claimedPatch agentId now).apply now' t).bundleId = t.bundleId := rfl

end Row

theorem Table.length_filter_le_one {α : Type} [Keyed α] (t : Table α) {p : α → Bool} {k : String}
    (hkey : ∀ r ∈ t, p r = true → key r = k) : (t.rows.filter p).length ≤ 1 := by
  have hnodup : ((t.rows.filter p).map key).Nodup := t.nodup.sublist (List.filter_sublist.map key)
  have hall : ∀ r ∈ t.rows.filter p, key r = k := by
    intro r hr
    rw [List.mem_filter] at hr
    exact hkey r hr.1 hr.2
  match hrows : t.rows.filter p with
  | [] => simp
  | [r] => simp
  | r :: r' :: rest =>
    rw [hrows] at hnodup hall
    have hr : key r = k := hall r (by simp)
    have hr' : key r' = k := hall r' (by simp)
    simp [hr, hr'] at hnodup

section Claims

variable (cookbookId : String) (calls : Nat → ClaimCall)

/-- Calls of `claim_task` side by side; none has begun. -/
def claimPool (db : Db) : Pool Nat Db Op Exn (Option Task) :=
  .init (fun i => TaskService.claimTask (calls i).taskId (calls i).agentId (some cookbookId)
    (calls i).draws) db

/-- The `UPDATE` of a claim meets a task that is open and an agent that holds none. -/
def MeetsFree (s : Db) (i : Nat) : Op → Prop
  | .updateTask id .. =>
    s.statusOf id = some .open_ ∧ activeTasks cookbookId s (calls i).agentId = []
  | _ => True

instance MeetsFree.decidable (s : Db) (i : Nat) : DecidablePred (MeetsFree cookbookId calls s i) := by
  rintro (_ | _) <;> unfold MeetsFree <;> dsimp only <;> infer_instance

/-! ### The turns of a call -/

/-- The one statement of a call that touches a row, once. -/
def ClaimAllowed (i : Nat) (claimed : Bool) : Op → Prop
  | .updateTask id u expected _ => claimed = false ∧ id = (calls i).taskId ∧ expected = none ∧
      ∃ now now', u = .patch (claimedPatch (calls i).agentId now) now'
  | .insertTask _ | .deleteTask _ | .insertBundle _ | .updateBundle .. => False
  | _ => True

def claimAdvance (claimed : Bool) (op : Op) (_ : Db) : Bool :=
  match op with
  | .updateTask .. => true
  | _ => claimed

def claimProtocol : Protocol Nat Db Op (Option Task) Bool where
  start := false
  allowed := ClaimAllowed calls
  advance := claimAdvance
  final i claimed r := ∀ task ∈ r, claimed = true ∧ task.id = (calls i).taskId

/-- A statement that leaves the tasks and the bundles alone. -/
def LeavesTasks (op : Op) : Prop :=
  (∀ i claimed, ClaimAllowed calls i claimed op) ∧ ∀ claimed s, claimAdvance claimed op s = claimed

variable {cookbookId calls}

theorem plainOps_leavesTasks : PlainOps (LeavesTasks calls) :=
  ⟨⟨fun _ _ => trivial, fun _ _ => rfl⟩, ⟨fun _ _ => trivial, fun _ _ => rfl⟩,
    ⟨fun _ _ => trivial, fun _ _ => rfl⟩⟩

theorem leavesTasks_insertEvent (event : Event) : LeavesTasks calls (.insertEvent event) :=
  ⟨fun _ _ => trivial, fun _ _ => rfl⟩

theorem follows_of_leavesTasks {α : Type} {c : Sql α} (hc : c.Every (LeavesTasks calls)) (i : Nat) (claimed : Bool) :
    c.Follows (ClaimAllowed calls i) claimAdvance (fun claimed' _ => claimed' = claimed) claimed :=
  .of_every hc (fun _ hop => hop.1 i claimed) (fun _ hop s => hop.2 claimed s) fun _ => rfl

theorem follows_update (i : Nat) (seen : Option Task) (d : Draws) {now : Nat} :
    (TaskRepo.update (calls i).taskId (claimedPatch (calls i).agentId now) none seen d).Follows
      (ClaimAllowed calls i) claimAdvance
      (fun claimed r => claimed = true ∧ ∀ task ∈ r, task.id = (calls i).taskId) false := by
  refine ⟨⟨rfl, rfl, rfl, _, _, rfl⟩, fun _ => ⟨trivial, fun _ => ⟨trivial, fun _ => ?_⟩⟩⟩
  exact ⟨rfl, fun task htask => Table.key_eq_of_get htask⟩

theorem follows_claimTask (i : Nat) :
    (TaskService.claimTask (calls i).taskId (calls i).agentId (some cookbookId)
      (calls i).draws).Follows (ClaimAllowed calls i) claimAdvance
        ((claimProtocol calls).final i) false := by
  have hnone : ∀ task ∈ (none : Option Task), false = true ∧ task.id = (calls i).taskId :=
    fun task htask => by cases htask
  refine .perform_bind trivial fun s => ?_
  cases s.tasks.get (calls i).taskId with
  | none => exact hnone
  | some task =>
    refine .ite (fun _ => hnone) fun _ => .perform_bind trivial fun s => .ite (fun _ => hnone) fun _ => ?_
    refine .bind (follows_of_leavesTasks (TaskService.every_depsDone plainOps_leavesTasks _) i false) ?_
    rintro _ deps rfl
    refine .ite (fun _ => hnone) fun _ => ?_
    refine .bind (follows_of_leavesTasks
      (TaskService.every_cookbookIdForBundle plainOps_leavesTasks _) i false) ?_
    rintro _ cookbookId rfl
    refine .bind (follows_update i (some task) ((calls i).draws.sub 0)) ?_
    rintro _ updated ⟨rfl, hid⟩
    refine .bind (follows_of_leavesTasks
      (EventRepo.every_create plainOps_leavesTasks (leavesTasks_insertEvent _)) i true) ?_
    rintro _ _ rfl
    refine .bind (follows_of_leavesTasks
      (TaskService.every_recordUpdated plainOps_leavesTasks _) i true) ?_
    rintro _ _ rfl
    exact fun task htask => ⟨rfl, hid task htask⟩

/-! ### The invariant -/

/-- The tasks of the calls that have claimed are claimed and theirs alone, and no agent has come to hold
two. -/
structure ClaimedApart (cookbookId : String) (calls : Nat → ClaimCall) (db s : Db)
    (claimed : Nat → Bool) : Prop where
  taken : ∀ i, claimed i = true → s.statusOf (calls i).taskId = some .claimed
  apart : ∀ i j, claimed i = true → claimed j = true → (calls i).taskId = (calls j).taskId → i = j
  held : ∀ agentId, (activeTasks cookbookId s agentId).length ≤
    max 1 (activeTasks cookbookId db agentId).length

theorem length_activeTasks_claim {s : Db} {id agentId : String} {now now' : Nat} {seen : Option Task}
    (hfree : activeTasks cookbookId s agentId = []) (agentId' : String) :
    (activeTasks cookbookId
      (Op.exec (.updateTask id (.patch (claimedPatch agentId now) now') none seen) s) agentId').length ≤
        max 1 (activeTasks cookbookId s agentId').length := by
  by_cases hagent : agentId' = agentId
  · subst hagent
    refine Nat.le_trans (Table.length_filter_le_one _ (k := id) ?_) (Nat.le_max_left _ _)
    intro r hr hactive
    obtain ⟨r', hr', rfl⟩ := Op.mem_exec_updateTask.mp hr
    by_cases hid : r'.id = id
    · rw [if_pos hid]
      exact hid
    · rw [if_neg hid] at hactive
      have hmem : r' ∈ activeTasks cookbookId s agentId' := List.mem_filter.mpr ⟨hr', hactive⟩
      rw [hfree] at hmem
      cases hmem
  · refine Nat.le_trans ?_ (Nat.le_max_right _ _)
    rw [activeTasks, activeTasks, ← List.countP_eq_length_filter, ← List.countP_eq_length_filter]
    show ((s.tasks.rows.map _).countP _) ≤ _
    rw [List.countP_map]
    refine List.countP_mono_left fun r _ hactive => ?_
    simp only [Function.comp_apply] at hactive
    split at hactive
    · simp only [Db.matchesVersion, Option.all_none, if_true, TaskUpdate.apply,
        claimedByAgentId_claimedPatch, Bool.and_eq_true, beq_iff_eq] at hactive
      exact absurd (Option.some.inj hactive.1.2).symm hagent
    · exact hactive

theorem claimedApart_init (db : Db) : ClaimedApart cookbookId calls db db fun _ => false where
  taken _ h := by cases h
  apart _ _ h := by cases h
  held _ := Nat.le_max_right _ _

/-- A statement that leaves the rows of the tasks and the bundles alone. -/
theorem ClaimedApart.of_same {db s s' : Db} {claimed : Nat → Bool}
    (h : ClaimedApart cookbookId calls db s claimed) (htasks : s'.tasks = s.tasks)
    (hbundles : s'.bundles = s.bundles) : ClaimedApart cookbookId calls db s' claimed where
  taken i hi := by
    rw [Db.statusOf, htasks]
    exact h.taken i hi
  apart := h.apart
  held agentId := by
    have hactive : activeTasks cookbookId s' agentId = activeTasks cookbookId s agentId := by
      simp only [activeTasks, TaskRepo.inCookbook, htasks, hbundles]
    rw [hactive]
    exact h.held agentId

theorem ClaimedApart.claim {db s : Db} {claimed : Nat → Bool} {i : Nat} {now now' : Nat}
    {seen : Option Task} (h : ClaimedApart cookbookId calls db s claimed)
    (hopen : s.statusOf (calls i).taskId = some .open_)
    (hfree : activeTasks cookbookId s (calls i).agentId = []) :
    ClaimedApart cookbookId calls db
      (Op.exec (.updateTask (calls i).taskId (.patch (claimedPatch (calls i).agentId now) now') none
        seen) s) (Function.update claimed i true) := by
  have hself : (Op.exec (.updateTask (calls i).taskId
      (.patch (claimedPatch (calls i).agentId now) now') none seen) s).statusOf (calls i).taskId =
        some .claimed := by
    obtain ⟨t, ht, -⟩ := Option.map_eq_some_iff.mp hopen
    exact Op.statusOf_updateTask_self ht
  have hothers : ∀ j, claimed j = true → (calls j).taskId ≠ (calls i).taskId := by
    intro j hj heq
    have htaken := h.taken j hj
    rw [heq, hopen] at htaken
    cases htaken
  refine ⟨fun j hj => ?_, fun j k hj hk heq => ?_, fun agentId => ?_⟩
  · by_cases hji : j = i
    · rw [hji]
      exact hself
    · rw [Function.update_of_ne hji] at hj
      rw [Op.statusOf_updateTask_of_ne (hothers j hj)]
      exact h.taken j hj
  · by_cases hji : j = i <;> by_cases hki : k = i
    · rw [hji, hki]
    · rw [Function.update_of_ne hki] at hk
      exact absurd (hji ▸ heq.symm) (hothers k hk)
    · rw [Function.update_of_ne hji] at hj
      exact absurd (hki ▸ heq) (hothers j hj)
    · rw [Function.update_of_ne hji] at hj
      rw [Function.update_of_ne hki] at hk
      exact h.apart j k hj hk heq
  · refine Nat.le_trans (length_activeTasks_claim hfree agentId) ?_
    have hheld := h.held agentId
    omega

theorem claimedApart_step {db s : Db} {claimed : Nat → Bool} {i : Nat} {op : Op}
    (h : ClaimedApart cookbookId calls db s claimed) (hallowed : ClaimAllowed calls i (claimed i) op)
    (hmeets : MeetsFree cookbookId calls s i op) :
    ClaimedApart cookbookId calls db (op.exec s)
      (Function.update claimed i (claimAdvance (claimed i) op s)) := by
  have hkeep : Function.update claimed i (claimed i) = claimed := Function.update_eq_self i claimed
  cases op
  case updateTask id u expected seen =>
    obtain ⟨hbefore, rfl, rfl, now, now', rfl⟩ := hallowed
    exact h.claim hmeets.1 hmeets.2
  case insertTask => cases hallowed
  case deleteTask => cases hallowed
  case insertBundle => cases hallowed
  case updateBundle => cases hallowed
  case insertEvent event reported =>
    show ClaimedApart cookbookId calls db _ (Function.update claimed i (claimed i))
    rw [hkeep, Op.exec]
    split
    · exact h.of_same rfl rfl
    · exact h
  all_goals
    show ClaimedApart cookbookId calls db _ (Function.update claimed i (claimed i))
    rw [hkeep]
    exact h.of_same rfl rfl

/-! ### Every schedule -/

variable (cookbookId calls)

/-- The calls as a schedule leaves them. -/
def claimRun (db : Db) (schedule : List Nat) : Pool Nat Db Op Exn (Option Task) :=
  (claimPool cookbookId calls db).run Op.exec id (schedule.map .run)

/-- A task is returned to one call only, and no agent has come to hold more than one. -/
structure ClaimsExclusive (db : Db) (p : Pool Nat Db Op Exn (Option Task)) : Prop where
  once : ∀ i j task task', p.returned i (some task) → p.returned j (some task') →
    task.id = task'.id → i = j
  held : ∀ agentId, (activeTasks cookbookId p.state agentId).length ≤
    max 1 (activeTasks cookbookId db agentId).length

end Claims

/-! ### Rivals -/

/-- Two open tasks of one cookbook. -/
def twoOpenDb : Db where
  bundles := (∅ : Table Bundle).insert { id := "bun_1", cookbookId := some "cb_1" }
  tasks := ((∅ : Table Task).insert { id := "task_1", bundleId := "bun_1" }).insert
    { id := "task_2", bundleId := "bun_1" }

/-- Two agents after one task. -/
def rivalCalls (i : Nat) : ClaimCall where
  taskId := "task_1"
  agentId := if i = 0 then "agent_a" else "agent_b"
  draws := pathDraws (if i = 0 then 'a' else 'b')

/-- One agent after two tasks. -/
def greedyCalls (i : Nat) : ClaimCall where
  taskId := if i = 0 then "task_1" else "task_2"
  agentId := "agent_a"
  draws := pathDraws (if i = 0 then 'a' else 'b')

/-- One call after the other. -/
def claimsInTurn : List Nat := List.replicate 12 0 ++ List.replicate 12 1

/-- Both calls read before either writes. -/
def claimsOverlap : List Nat := [0, 0, 0, 1, 1, 1] ++ List.replicate 9 0 ++ List.replicate 9 1

/-- What a call has returned. -/
def claimResult (p : Pool Nat Db Op Exn (Option Task)) (i : Nat) : Option Task :=
  match p.thread i with
  | some (.done r) => r
  | _ => none

theorem returned_of_claimResult {p : Pool Nat Db Op Exn (Option Task)} {i : Nat} {task : Task}
    (h : claimResult p i = some task) : p.returned i (some task) := by
  rw [claimResult] at h
  split at h
  · rename_i r hthread
    rw [Pool.returned, hthread, h]
  · cases h

end Krewhub
