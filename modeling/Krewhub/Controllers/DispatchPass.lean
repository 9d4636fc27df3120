import Krewhub.Controllers.Dispatch
import Mathlib.Data.List.Count

/-!
# One pass of the task dispatcher

`_dispatch_for_cookbook` with nobody beside it: what an agent can take is counted once, and spent as tasks
are accepted. The trace of a pass is one turn for each task, and in a turn the gateways with capacity are
asked one after the other up to the first that accepts, for which the task is then claimed.
-/

namespace Krewhub

/-- The rows a query returns. -/
def rowsOf (query : Sql (List Task)) (db : Db) : List Task :=
  match (query.run Op.exec db).1 with
  | .ok rows => rows
  | .error _ => []

/-- The active and the assigned-unclaimed tasks of an agent. -/
def load (db : Db) (cookbookId agentId : String) : Nat :=
  (rowsOf (TaskRepo.listActiveByAgent (some cookbookId) agentId) db).length +
    (rowsOf (TaskRepo.listAssignedUnclaimedByAgent cookbookId agentId) db).length

/-- The agent a task is sent to by the operation. -/
def Op.sentTo (taskId : String) : Op → Option String
  | .post agentId id => if id = taskId then some agentId else none
  | _ => none

/-- The task the operation claims, and for which agent. -/
def Op.claimed : Op → Option (String × String)
  | .updateTask id (.patch p _) _ _ =>
    if p.status = some .claimed then p.claimedByAgentId.map (id, ·) else none
  | _ => none

namespace TaskDispatchController

/-- How many come after the first occurrence. -/
def countAfter (x : String) : List String → Nat
  | [] => 0
  | y :: l => if y = x then l.length else countAfter x l

/-- The answer of a gateway to one task. -/
def gatewayAnswer (gateways : List AgentPresence) (d : Draws) (agentId : String) : Bool :=
  (d.sub (countAfter agentId (gateways.map (·.agentId)))).accepted []

/-- The answer of a gateway to each of the tasks of a pass. -/
def passAnswer (gateways : List AgentPresence) (d : Draws) (tasks : List Task) (taskId agentId : String) :
    Bool :=
  gatewayAnswer gateways ((d.sub (countAfter taskId (tasks.map (·.id)))).sub 0) agentId

/-! ### The load of an agent -/

theorem length_filter_map_le {α : Type} (g : α → α) {p q r : α → Bool}
    (h : ∀ x, p (g x) = true → q x = true ∨ r x = true) (l : List α) :
    ((l.map g).filter p).length ≤ (l.filter q).length + (l.filter r).length := by
  induction l with
  | nil => exact Nat.zero_le _
  | cons x l ih =>
    have hx := h x
    simp only [List.map_cons, List.filter_cons]
    split <;> split <;> split <;> simp_all <;> omega

theorem length_filter_key_le (t : Table Task) (id : String) :
    (t.rows.filter fun r => decide (key r = id)).length ≤ 1 := by
  have hcount := List.nodup_iff_count_le_one.mp t.nodup id
  rw [List.count_eq_countP, List.countP_map] at hcount
  rw [← List.countP_eq_length_filter]
  exact hcount

/-- `list_active_by_agent` selects the row. -/
def isActive (db : Db) (cookbookId agentId : String) (t : Task) : Bool :=
  TaskRepo.inCookbook db cookbookId t && t.claimedByAgentId == some agentId &&
    (t.status == .claimed || t.status == .working)

/-- `list_assigned_unclaimed_by_agent` selects the row. -/
def isPending (db : Db) (cookbookId agentId : String) (t : Task) : Bool :=
  TaskRepo.inCookbook db cookbookId t && t.assignedAgentId == some agentId && t.status == .open_ &&
    t.claimedByAgentId.isNone

theorem load_eq (db : Db) (cookbookId agentId : String) :
    load db cookbookId agentId = (db.tasks.rows.filter (isActive db cookbookId agentId)).length +
      (db.tasks.rows.filter (isPending db cookbookId agentId)).length := rfl

theorem run_rowsOf_active (db : Db) (cookbookId agentId : String) :
    (TaskRepo.listActiveByAgent (some cookbookId) agentId).run Op.exec db =
      (.ok (rowsOf (TaskRepo.listActiveByAgent (some cookbookId) agentId) db), db) := rfl

theorem run_rowsOf_pending (db : Db) (cookbookId agentId : String) :
    (TaskRepo.listAssignedUnclaimedByAgent cookbookId agentId).run Op.exec db =
      (.ok (rowsOf (TaskRepo.listAssignedUnclaimedByAgent cookbookId agentId) db), db) := rfl

/-- A claim adds one to the load of its agent, and nothing to that of another. -/
theorem load_exec_claim (db : Db) (cookbookId agentId id other : String) (now now' : Nat)
    (seen : Option Task) :
    load (Op.exec (.updateTask id (.patch (claimPatch other now) now') none seen) db) cookbookId agentId ≤
      load db cookbookId agentId + if other = agentId then 1 else 0 := by
  have hpending := length_filter_map_le
    (fun r => if key r = id then (claimPatch other now).apply now' r else r)
    (p := isPending db cookbookId agentId) (q := isPending db cookbookId agentId) (r := fun _ => false)
    (fun r hr => by
      by_cases hid : key r = id
      · simp [hid, isPending, claimPatch, TaskPatch.apply] at hr
      · exact .inl (by simpa [hid] using hr)) db.tasks.rows
  have hactive := length_filter_map_le
    (fun r => if key r = id then (claimPatch other now).apply now' r else r)
    (p := isActive db cookbookId agentId) (q := isActive db cookbookId agentId)
    (r := fun r => decide (other = agentId ∧ key r = id))
    (fun r hr => by
      by_cases hid : key r = id
      · simp only [hid, if_true, isActive, claimPatch, TaskPatch.apply, Bool.and_eq_true, beq_iff_eq] at hr
        exact .inr (by simpa [hid] using hr.1.2)
      · exact .inl (by simpa [hid] using hr)) db.tasks.rows
  have hone : (db.tasks.rows.filter fun r => decide (other = agentId ∧ key r = id)).length ≤
      if other = agentId then 1 else 0 := by
    by_cases hsame : other = agentId
    · simpa [hsame] using length_filter_key_le db.tasks id
    · simp [hsame]
  have hnone : (db.tasks.rows.filter fun _ => false).length = 0 := by simp
  rw [load_eq, load_eq]
  exact Nat.le_trans (Nat.add_le_add hactive hpending) (by omega)

/-! ### The turn of a task -/

/-- The gateways that are asked: those with capacity, in order, none after one that accepts. -/
structure Asked (gateways : List AgentPresence) (capacity : List (String × Int)) (d : Draws)
    (asked : List String) : Prop where
  gateway : ∀ agentId ∈ asked, agentId ∈ gateways.map (·.agentId)
  capable : ∀ agentId ∈ asked, (capacity.lookup agentId).isSome = true
  rejected : ∀ agentId ∈ asked.dropLast, gatewayAnswer gateways d agentId = false

/-- The one that accepts: only the last that is asked can. -/
def accepting (gateways : List AgentPresence) (d : Draws) (asked : List String) : Option String :=
  asked.getLast?.filter (gatewayAnswer gateways d)

theorem mem_of_accepting {gateways : List AgentPresence} {d : Draws} {asked : List String} {agentId : String}
    (h : accepting gateways d asked = some agentId) : agentId ∈ asked :=
  List.mem_of_getLast? (Option.filter_eq_some_iff.mp h).1

section Turn

variable {task : Task} {tasks : List Task} {gateways agents : List AgentPresence} {agent : AgentPresence}
  {capacity : List (String × Int)} {d : Draws} {asked : List String} {db : Db}

theorem gatewayAnswer_cons_self :
    gatewayAnswer (agent :: agents) d agent.agentId = (d.sub agents.length).accepted [] := by
  simp [gatewayAnswer, countAfter]

theorem gatewayAnswer_cons_of_mem (hnew : agent.agentId ∉ agents.map (·.agentId)) {agentId : String}
    (hmem : agentId ∈ agents.map (·.agentId)) :
    gatewayAnswer (agent :: agents) d agentId = gatewayAnswer agents d agentId := by
  have hne : agent.agentId ≠ agentId := fun heq => hnew (heq ▸ hmem)
  simp [gatewayAnswer, countAfter, hne]

theorem accepting_cons (hnew : agent.agentId ∉ agents.map (·.agentId))
    (hasked : Asked agents capacity d asked) :
    accepting (agent :: agents) d asked = accepting agents d asked := by
  rw [accepting, accepting]
  cases hlast : asked.getLast? with
  | none => rfl
  | some last =>
    rw [Option.filter_some, Option.filter_some,
      gatewayAnswer_cons_of_mem hnew (hasked.gateway last (List.mem_of_getLast? hlast))]

theorem exists_asked (task : Task) (capacity : List (String × Int)) (d : Draws) (db : Db)
    (hnodup : (agents.map (·.agentId)).Nodup) :
    ∃ asked, Asked agents capacity d asked ∧
      (tryDispatch task capacity d agents).ops Op.exec db = asked.map (.post · task.id) ∧
      (tryDispatch task capacity d agents).run Op.exec db = (.ok (accepting agents d asked), db) := by
  induction agents with
  | nil =>
    refine ⟨[], ⟨?_, ?_, ?_⟩, rfl, rfl⟩ <;>
    · intro agentId hmem
      cases hmem
  | cons agent agents ih =>
    obtain ⟨hnew, hnodup⟩ := List.nodup_cons.mp hnodup
    obtain ⟨asked, hasked, hops, hrun⟩ := ih hnodup
    have hrest : ∀ agentId ∈ asked.dropLast, gatewayAnswer (agent :: agents) d agentId = false := by
      intro agentId hmem
      rw [gatewayAnswer_cons_of_mem hnew (hasked.gateway _ (List.dropLast_subset _ hmem))]
      exact hasked.rejected _ hmem
    by_cases hcap : (capacity.lookup agent.agentId).isNone = true
    · rw [tryDispatch, if_pos hcap]
      refine ⟨asked, ⟨fun a ha => List.mem_cons_of_mem _ (hasked.gateway a ha), hasked.capable, hrest⟩,
        hops, ?_⟩
      rw [accepting_cons hnew hasked]
      exact hrun
    · rw [tryDispatch, if_neg hcap]
      have hcapable : (capacity.lookup agent.agentId).isSome = true := by simpa using hcap
      by_cases haccepted : (d.sub agents.length).accepted [] = true
      · refine ⟨[agent.agentId], ⟨?_, ?_, ?_⟩, ?_, ?_⟩
        · simp
        · simpa using hcapable
        · simp
        · simp [sendToGateway, Coro.perform, Coro.ops, haccepted]
        · simp [sendToGateway, Coro.perform, haccepted, accepting, gatewayAnswer_cons_self, Op.exec,
            Option.filter_some]
      · refine ⟨agent.agentId :: asked, ⟨?_, ?_, ?_⟩, ?_, ?_⟩
        · exact List.forall_mem_cons.mpr
            ⟨List.mem_cons_self, fun a ha => List.mem_cons_of_mem _ (hasked.gateway a ha)⟩
        · exact List.forall_mem_cons.mpr ⟨hcapable, hasked.capable⟩
        · intro agentId hmem
          cases asked with
          | nil => cases hmem
          | cons first asked =>
            rcases List.mem_cons.mp hmem with rfl | hmem
            · rw [gatewayAnswer_cons_self]
              simpa using haccepted
            · exact hrest _ hmem
        · simpa [sendToGateway, Coro.perform, Coro.ops, haccepted, Op.exec] using hops
        · have hlast : accepting (agent :: agents) d (agent.agentId :: asked) =
              accepting agents d asked := by
            rw [← accepting_cons hnew hasked]
            cases asked with
            | nil => simp [accepting, gatewayAnswer_cons_self, haccepted, Option.filter_some]
            | cons first asked => simp [accepting]
          rw [hlast]
          simpa [sendToGateway, Coro.perform, haccepted, Op.exec] using hrun

/-- The claim of a task. -/
def claimOp (task : Task) (agentId : String) (now now' : Nat) : Op :=
  .updateTask task.id (.patch (claimPatch agentId now) now') none (some task)

theorem exists_ops_claim {α : Type} (task : Task) (agentId : String) (now : Nat) (d : Draws) (rest : Sql α)
    (db : Db) :
    ∃ settle : List Op, (∀ op ∈ settle, op.IsPlain) ∧
      (do
        let updated ← TaskRepo.update task.id (claimPatch agentId now) none (some task) d
        TaskService.recordUpdated updated
        rest).ops Op.exec db =
        claimOp task agentId now d.clock :: settle ++
          rest.ops Op.exec (Op.exec (claimOp task agentId now d.clock) db) := by
  have hpatch : (claimPatch agentId now).isEmpty = false := by
    simp [TaskPatch.isEmpty, claimPatch]
  have hrun : (TaskRepo.update task.id (claimPatch agentId now) none (some task) d).run Op.exec db = _ :=
    TaskRepo.run_update hpatch db
  have hops : (TaskRepo.update task.id (claimPatch agentId now) none (some task) d).ops Op.exec db =
      [claimOp task agentId now d.clock, .commit, .select] := by
    rw [TaskRepo.update, hpatch]
    rfl
  have hplain := fun updated => TaskService.every_recordUpdated plainOps_isPlain updated
  rw [Coro.ops_bind_ok hrun, Coro.ops_bind_ok (TaskService.run_recordUpdated _ _), hops]
  refine ⟨.commit :: .select :: _, ?_, rfl⟩
  refine List.forall_mem_cons.mpr ⟨.inr (.inl rfl), List.forall_mem_cons.mpr ⟨.inl rfl, ?_⟩⟩
  exact fun op hop => (hplain _).of_mem_ops hop

theorem sentTo_of_isPlain {op : Op} (h : op.IsPlain) (taskId : String) : op.sentTo taskId = none := by
  rcases h with rfl | rfl | rfl <;> rfl

theorem claimed_of_isPlain {op : Op} (h : op.IsPlain) : op.claimed = none := by
  rcases h with rfl | rfl | rfl <;> rfl

theorem filterMap_sentTo_of_plain {ops : List Op} (h : ∀ op ∈ ops, op.IsPlain) (taskId : String) :
    ops.filterMap (Op.sentTo taskId) = [] :=
  List.filterMap_eq_nil_iff.mpr fun op hop => sentTo_of_isPlain (h op hop) taskId

theorem filterMap_claimed_of_plain {ops : List Op} (h : ∀ op ∈ ops, op.IsPlain) :
    ops.filterMap Op.claimed = [] :=
  List.filterMap_eq_nil_iff.mpr fun op hop => claimed_of_isPlain (h op hop)

theorem filterMap_sentTo_posts (asked : List String) (id taskId : String) :
    (asked.map (Op.post · id)).filterMap (Op.sentTo taskId) = if id = taskId then asked else [] := by
  rw [List.filterMap_map]
  by_cases hid : id = taskId
  · rw [if_pos hid]
    refine (List.filterMap_congr fun agentId _ => ?_).trans List.filterMap_some
    exact if_pos hid
  · rw [if_neg hid]
    exact List.filterMap_eq_nil_iff.mpr fun agentId _ => if_neg hid

theorem filterMap_claimed_posts (asked : List String) (id : String) :
    (asked.map (Op.post · id)).filterMap Op.claimed = [] := by
  rw [List.filterMap_map]
  exact List.filterMap_eq_nil_iff.mpr fun _ _ => rfl

/-- What the pass does for one task, with what it has asked: what it performs, and the capacity and the
database after it. -/
structure Turn (gateways : List AgentPresence) (task : Task) (d : Draws) (capacity : List (String × Int))
    (db : Db) (asked : List String) (ops : List Op) (capacity' : List (String × Int)) (db' : Db) :
    Prop where
  order : Asked gateways capacity d asked
  sent : ∀ taskId, ops.filterMap (Op.sentTo taskId) = if task.id = taskId then asked else []
  claimed : ops.filterMap Op.claimed = (accepting gateways d asked).toList.map (task.id, ·)
  left : capacity' = (accepting gateways d asked).elim capacity (spend · capacity)
  ready : (accepting gateways d asked).isSome = true →
    ∀ depId ∈ task.dependsOnTaskIds, db.statusOf depId = some .done
  done : ∀ id, db'.statusOf id = some .done → db.statusOf id = some .done

/-- Nobody has accepted. -/
theorem turn_passed {reads : List Op} (hreads : ∀ op ∈ reads, op.IsPlain)
    (hasked : Asked gateways capacity d asked) (hnone : accepting gateways d asked = none) :
    Turn gateways task d capacity db asked (reads ++ asked.map (.post · task.id)) capacity db where
  order := hasked
  sent taskId := by
    rw [List.filterMap_append, filterMap_sentTo_of_plain hreads, filterMap_sentTo_posts, List.nil_append]
  claimed := by
    rw [List.filterMap_append, filterMap_claimed_of_plain hreads, filterMap_claimed_posts, hnone]
    rfl
  left := by
    rw [hnone]
    rfl
  ready h := by
    rw [hnone] at h
    cases h
  done _ h := h

/-- A gateway has accepted. -/
theorem turn_claimed {reads settle : List Op} {agentId : String} (now now' : Nat)
    (hreads : ∀ op ∈ reads, op.IsPlain) (hsettle : ∀ op ∈ settle, op.IsPlain)
    (hready : ∀ depId ∈ task.dependsOnTaskIds, db.statusOf depId = some .done)
    (hasked : Asked gateways capacity d asked) (hsome : accepting gateways d asked = some agentId) :
    Turn gateways task d capacity db asked
      (reads ++ asked.map (.post · task.id) ++ claimOp task agentId now now' :: settle)
      (spend agentId capacity) (Op.exec (claimOp task agentId now now') db) where
  order := hasked
  sent taskId := by
    rw [List.filterMap_append, List.filterMap_append, List.filterMap_cons,
      filterMap_sentTo_of_plain hreads, filterMap_sentTo_of_plain hsettle, filterMap_sentTo_posts]
    simp [claimOp, Op.sentTo]
  claimed := by
    rw [List.filterMap_append, List.filterMap_append, List.filterMap_cons,
      filterMap_claimed_of_plain hreads, filterMap_claimed_of_plain hsettle, filterMap_claimed_posts, hsome]
    rfl
  left := by
    rw [hsome]
    rfl
  ready _ := hready
  done id h := by
    rcases Op.statusOf_updateTask with hsame | ⟨-, status, hstatus, hnow⟩
    · exact hsame.symm.trans h
    · cases hstatus
      cases h.symm.trans hnow

theorem exists_turn (tasks : List Task) (task : Task) (d : Draws) (db : Db)
    (hnodup : (gateways.map (·.agentId)).Nodup) (hcap : capacity.isEmpty = false) :
    ∃ asked ops capacity' db',
      Turn gateways task ((d.sub tasks.length).sub 0) capacity db asked ops capacity' db' ∧
      (dispatchTasks gateways d (task :: tasks) capacity).ops Op.exec db =
        ops ++ (dispatchTasks gateways d tasks capacity').ops Op.exec db' := by
  have hreads : ∀ op ∈ (depsSatisfied task.dependsOnTaskIds).ops Op.exec db, op.IsPlain :=
    fun op hop => (TaskService.every_depsDone plainOps_isPlain _).of_mem_ops hop
  obtain ⟨ready, hready⟩ : ∃ ready, ready = decide (∀ depId ∈ task.dependsOnTaskIds,
      db.statusOf depId = some .done) := ⟨_, rfl⟩
  have hrun : (depsSatisfied task.dependsOnTaskIds).run Op.exec db = (.ok ready, db) :=
    hready ▸ TaskService.run_depsDone task.dependsOnTaskIds db
  rw [dispatchTasks, hcap]
  simp only [Bool.false_eq_true, if_false]
  rw [Coro.ops_bind_ok hrun]
  cases ready with
  | false =>
    have hnobody : Asked gateways capacity ((d.sub tasks.length).sub 0) [] := by
      constructor <;>
      · intro agentId hmem
        cases hmem
    refine ⟨_, _, _, _, turn_passed hreads hnobody rfl, ?_⟩
    simp
  | true =>
    obtain ⟨asked, hasked, hops, hrun'⟩ := exists_asked task capacity ((d.sub tasks.length).sub 0) db hnodup
    simp only [Bool.not_true, Bool.false_eq_true, if_false]
    rw [Coro.ops_bind_ok hrun', hops]
    cases haccepting : accepting gateways ((d.sub tasks.length).sub 0) asked with
    | none =>
      refine ⟨_, _, _, _, turn_passed hreads hasked haccepting, ?_⟩
      rw [List.append_assoc]
    | some agentId =>
      obtain ⟨settle, hsettle, hclaim⟩ := exists_ops_claim task agentId (d.sub tasks.length).clock
        ((d.sub tasks.length).sub 1) (dispatchTasks gateways d tasks (spend agentId capacity)) db
      refine ⟨_, _, _, _, turn_claimed (d.sub tasks.length).clock ((d.sub tasks.length).sub 1).clock hreads
        hsettle (of_decide_eq_true hready.symm) hasked haccepting, ?_⟩
      dsimp only
      rw [hclaim]
      simp only [List.append_assoc, List.cons_append]

end Turn

/-! ### What is left of the capacity -/

/-- What an agent can still take. -/
def remaining (capacity : List (String × Int)) (agentId : String) : Int :=
  (capacity.lookup agentId).getD 0

/-- The agents are listed once, and each can take something. -/
structure IsCapacity (capacity : List (String × Int)) : Prop where
  nodup : (capacity.map (·.1)).Nodup
  pos : ∀ e ∈ capacity, 0 < e.2

section Capacity

variable {capacity : List (String × Int)} {agentId : String}

theorem spend_of_notMem (hcap : IsCapacity capacity) (h : agentId ∉ capacity.map (·.1)) :
    spend agentId capacity = capacity := by
  have hmap : (capacity.map fun e => if e.1 = agentId then (e.1, e.2 - 1) else e) = capacity := by
    refine (List.map_congr_left fun e he => ?_).trans (List.map_id capacity)
    refine if_neg fun heq => h ?_
    rw [← heq]
    exact List.mem_map_of_mem he
  rw [spend, hmap, List.filter_eq_self]
  exact fun e he => by simpa using hcap.pos e he

theorem IsCapacity.tail {e : String × Int} (hcap : IsCapacity (e :: capacity)) : IsCapacity capacity :=
  ⟨(List.nodup_cons.mp hcap.nodup).2, fun e' he' => hcap.pos e' (List.mem_cons_of_mem _ he')⟩

theorem isCapacity_spend (agentId : String) (hcap : IsCapacity capacity) : IsCapacity (spend agentId capacity) where
  nodup := by
    have hkeys : (capacity.map fun e => if e.1 = agentId then (e.1, e.2 - 1) else e).map (·.1) =
        capacity.map (·.1) := by
      rw [List.map_map]
      refine List.map_congr_left fun e _ => ?_
      simp only [Function.comp]
      split <;> rfl
    have hsub := (List.filter_sublist (p := fun e : String × Int => decide (0 < e.2))
      (l := capacity.map fun e => if e.1 = agentId then (e.1, e.2 - 1) else e)).map (·.1)
    rw [hkeys] at hsub
    exact hsub.nodup hcap.nodup
  pos e he := by simpa using (List.mem_filter.mp he).2

theorem remaining_nonneg (hcap : IsCapacity capacity) : 0 ≤ remaining capacity agentId := by
  rw [remaining]
  cases hlookup : capacity.lookup agentId with
  | none => exact Int.le_refl 0
  | some n => exact Int.le_of_lt (hcap.pos _ (mem_of_lookup hlookup))

/-- An accepted task takes one off what its agent can take, and nothing off what another can. -/
theorem remaining_spend (other : String) (hcap : IsCapacity capacity) (hsome : (capacity.lookup agentId).isSome = true) :
    remaining (spend agentId capacity) other + (if agentId = other then 1 else 0) ≤
      remaining capacity other := by
  induction capacity with
  | nil => cases hsome
  | cons e capacity ih =>
    obtain ⟨hnew, -⟩ := List.nodup_cons.mp hcap.nodup
    obtain ⟨key, n⟩ := e
    have hpos : 0 < n := hcap.pos _ List.mem_cons_self
    by_cases hkey : key = agentId
    · subst hkey
      have hspend : spend key ((key, n) :: capacity) =
          if 0 < n - 1 then (key, n - 1) :: capacity else capacity := by
        have htail := spend_of_notMem hcap.tail hnew
        rw [spend] at htail ⊢
        rw [List.map_cons, List.filter_cons, htail]
        simp
      have hnone : capacity.lookup key = none := by
        rw [List.lookup_eq_none_iff]
        intro e he
        rw [bne_iff_ne]
        exact fun heq => hnew (List.mem_map.mpr ⟨e, he, heq.symm⟩)
      rw [hspend]
      by_cases hother : key = other
      · subst hother
        split <;> simp [remaining, hnone] <;> omega
      · have hne : (other == key) = false := by simpa using fun heq => hother heq.symm
        split <;> simp [remaining, List.lookup_cons, hne]
    · have hne : (agentId == key) = false := by simpa using fun heq => hkey heq.symm
      have hspend : spend agentId ((key, n) :: capacity) = (key, n) :: spend agentId capacity := by
        rw [spend, List.map_cons, if_neg hkey, List.filter_cons, if_pos (by simpa using hpos)]
        rfl
      rw [List.lookup_cons, hne] at hsome
      have ih := ih hcap.tail hsome
      rw [hspend]
      by_cases hother : other = key
      · subst hother
        have hnot : ¬ agentId = other := fun heq => hkey heq.symm
        simp [remaining, hnot]
      · have hother' : (other == key) = false := by simpa using hother
        simpa [remaining, List.lookup_cons, hother'] using ih

/-- What `_dispatch_for_cookbook` counts: the gateways that can take something, with what they can take. -/
theorem exists_run_capacityOf (cookbookId : String) (gateways : List AgentPresence) (db : Db)
    (hnodup : (gateways.map (·.agentId)).Nodup) :
    ∃ capacity, (capacityOf cookbookId gateways).run Op.exec db = (.ok capacity, db) ∧
      IsCapacity capacity ∧ (∀ e ∈ capacity, ∃ agent ∈ gateways, agent.agentId = e.1 ∧
        e.2 = agent.maxConcurrentTasks - load db cookbookId e.1) := by
  induction gateways with
  | nil => exact ⟨[], rfl, ⟨List.nodup_nil, fun e he => by cases he⟩, fun e he => by cases he⟩
  | cons agent gateways ih =>
    obtain ⟨hnew, hnodup⟩ := List.nodup_cons.mp hnodup
    obtain ⟨capacity, hrun, hcap, hcounted⟩ := ih hnodup
    have hrest : ∀ e ∈ capacity, ∃ agent' ∈ agent :: gateways, agent'.agentId = e.1 ∧
        e.2 = agent'.maxConcurrentTasks - load db cookbookId e.1 := by
      intro e he
      obtain ⟨agent', hmem, hrest⟩ := hcounted e he
      exact ⟨agent', List.mem_cons_of_mem _ hmem, hrest⟩
    have hcount : (agent.maxConcurrentTasks - (rowsOf (TaskRepo.listActiveByAgent (some cookbookId)
        agent.agentId) db).length - (rowsOf (TaskRepo.listAssignedUnclaimedByAgent cookbookId
          agent.agentId) db).length : Int) = agent.maxConcurrentTasks - load db cookbookId agent.agentId := by
      rw [load]
      omega
    have hcons : (capacityOf cookbookId (agent :: gateways)).run Op.exec db =
        (.ok (if 0 < (agent.maxConcurrentTasks - load db cookbookId agent.agentId : Int) then
          (agent.agentId, (agent.maxConcurrentTasks - load db cookbookId agent.agentId : Int)) :: capacity
          else capacity), db) := by
      rw [← hcount, capacityOf, Coro.run_bind_ok Op.exec (run_rowsOf_active db cookbookId agent.agentId),
        Coro.run_bind_ok Op.exec (run_rowsOf_pending db cookbookId agent.agentId)]
      dsimp only
      rw [Coro.run_bind_ok Op.exec hrun]
      rfl
    by_cases hpos : 0 < (agent.maxConcurrentTasks - load db cookbookId agent.agentId : Int)
    · rw [if_pos hpos] at hcons
      refine ⟨_, hcons, ⟨?_, List.forall_mem_cons.mpr ⟨hpos, hcap.pos⟩⟩, List.forall_mem_cons.mpr
        ⟨⟨agent, List.mem_cons_self, rfl, rfl⟩, hrest⟩⟩
      rw [List.map_cons, List.nodup_cons]
      refine ⟨fun hmem => hnew ?_, hcap.nodup⟩
      obtain ⟨e, he, heq⟩ := List.mem_map.mp hmem
      obtain ⟨agent', hmem', hid, -⟩ := hcounted e he
      exact List.mem_map.mpr ⟨agent', hmem', hid.trans heq⟩
    · rw [if_neg hpos] at hcons
      exact ⟨_, hcons, hcap, hrest⟩

end Capacity

/-! ### What the turns add up to -/

section Turns

variable {task : Task} {tasks : List Task} {gateways : List AgentPresence} {capacity : List (String × Int)}
  {d : Draws} {db : Db}

/-- Claims take from the capacity what they add to the load. -/
theorem countP_claimed_le (hnodup : (gateways.map (·.agentId)).Nodup) (hcap : IsCapacity capacity)
    (agentId : String) :
    ((((dispatchTasks gateways d tasks capacity).ops Op.exec db).filterMap Op.claimed).countP
      (·.2 == agentId) : Int) ≤ remaining capacity agentId := by
  induction tasks generalizing capacity db with
  | nil => exact remaining_nonneg hcap
  | cons task tasks ih =>
    cases hempty : capacity.isEmpty with
    | true =>
      rw [dispatchTasks, hempty]
      exact remaining_nonneg hcap
    | false =>
      obtain ⟨asked, ops, capacity', db', hturn, hops⟩ := exists_turn tasks task d db hnodup hempty
      rw [hops, List.filterMap_append, List.countP_append, hturn.claimed]
      have hleft := hturn.left
      cases haccepting : accepting gateways ((d.sub tasks.length).sub 0) asked with
      | none =>
        rw [haccepting] at hleft
        subst hleft
        simpa using ih hcap
      | some chosen =>
        rw [haccepting] at hleft
        subst hleft
        have hsome := hturn.order.capable chosen (mem_of_accepting haccepting)
        have hspend := remaining_spend agentId hcap hsome
        have hrest := @ih _ db' (isCapacity_spend chosen hcap)
        simp only [Option.toList_some, List.map_cons, List.map_nil, List.countP_cons, List.countP_nil,
          beq_iff_eq]
        dsimp only [Option.elim] at hrest ⊢
        split at hspend <;> simp_all <;> omega

/-- What is claimed is one of the tasks, and its dependencies are done. -/
theorem ready_of_claimed (hnodup : (gateways.map (·.agentId)).Nodup) {claim : String × String}
    (h : claim ∈ ((dispatchTasks gateways d tasks capacity).ops Op.exec db).filterMap Op.claimed) :
    ∃ task ∈ tasks, task.id = claim.1 ∧ ∀ depId ∈ task.dependsOnTaskIds, db.statusOf depId = some .done := by
  induction tasks generalizing capacity db with
  | nil => cases h
  | cons task tasks ih =>
    cases hempty : capacity.isEmpty with
    | true =>
      rw [dispatchTasks, hempty] at h
      cases h
    | false =>
      obtain ⟨asked, ops, capacity', db', hturn, hops⟩ := exists_turn tasks task d db hnodup hempty
      rw [hops, List.filterMap_append, hturn.claimed] at h
      rcases List.mem_append.mp h with hnow | hlater
      · obtain ⟨chosen, hchosen, rfl⟩ := List.mem_map.mp hnow
        have hsome := Option.isSome_of_mem (Option.mem_toList.mp hchosen)
        exact ⟨task, List.mem_cons_self, rfl, hturn.ready hsome⟩
      · obtain ⟨task', hmem, hid, hready⟩ := ih hlater
        exact ⟨task', List.mem_cons_of_mem _ hmem, hid, fun depId hdep => hturn.done _ (hready depId hdep)⟩

/-- A task that is not among them is neither sent nor claimed. -/
theorem nothing_of_notMem (hnodup : (gateways.map (·.agentId)).Nodup) {taskId : String}
    (hnew : taskId ∉ tasks.map (·.id)) :
    ((dispatchTasks gateways d tasks capacity).ops Op.exec db).filterMap (Op.sentTo taskId) = [] ∧
      (((dispatchTasks gateways d tasks capacity).ops Op.exec db).filterMap Op.claimed).filter
        (·.1 == taskId) = [] := by
  induction tasks generalizing capacity db with
  | nil => exact ⟨rfl, rfl⟩
  | cons task tasks ih =>
    rw [List.map_cons, List.mem_cons, not_or] at hnew
    cases hempty : capacity.isEmpty with
    | true =>
      rw [dispatchTasks, hempty]
      exact ⟨rfl, rfl⟩
    | false =>
      obtain ⟨asked, ops, capacity', db', hturn, hops⟩ := exists_turn tasks task d db hnodup hempty
      obtain ⟨hsent, hclaims⟩ := @ih capacity' db' hnew.2
      have hne : (task.id == taskId) = false := by simpa using fun heq => hnew.1 heq.symm
      rw [hops, List.filterMap_append, List.filterMap_append, List.filter_append, hsent, hclaims,
        hturn.sent, hturn.claimed]
      refine ⟨by rw [if_neg (by simpa using hne), List.nil_append], ?_⟩
      cases accepting gateways ((d.sub tasks.length).sub 0) asked <;> simp [hne]

/-- Every task is sent to gateways up to the first that accepts, and claimed for that one. -/
structure SettledByFirst (answer : String → Bool) (sent : List String) (claims : List (String × String))
    (taskId : String) : Prop where
  rejected : ∀ agentId ∈ sent.dropLast, answer agentId = false
  claimed : (claims.filter (·.1 == taskId)).map (·.2) = (sent.getLast?.filter answer).toList

theorem settledByFirst (hnodup : (gateways.map (·.agentId)).Nodup) (htasks : (tasks.map (·.id)).Nodup)
    (taskId : String) :
    SettledByFirst (passAnswer gateways d tasks taskId)
      (((dispatchTasks gateways d tasks capacity).ops Op.exec db).filterMap (Op.sentTo taskId))
      (((dispatchTasks gateways d tasks capacity).ops Op.exec db).filterMap Op.claimed) taskId := by
  induction tasks generalizing capacity db with
  | nil => exact ⟨fun agentId hmem => absurd hmem List.not_mem_nil, rfl⟩
  | cons task tasks ih =>
    obtain ⟨hnew, htasks⟩ := List.nodup_cons.mp htasks
    cases hempty : capacity.isEmpty with
    | true =>
      rw [dispatchTasks, hempty]
      exact ⟨fun agentId hmem => absurd hmem List.not_mem_nil, rfl⟩
    | false =>
      obtain ⟨asked, ops, capacity', db', hturn, hops⟩ := exists_turn tasks task d db hnodup hempty
      rw [hops, List.filterMap_append, List.filterMap_append, hturn.sent, hturn.claimed]
      by_cases hid : task.id = taskId
      · subst hid
        obtain ⟨hsent, hclaims⟩ := @nothing_of_notMem tasks gateways capacity' d db' hnodup _ hnew
        have hanswer : passAnswer gateways d (task :: tasks) task.id =
            gatewayAnswer gateways ((d.sub tasks.length).sub 0) := by
          funext agentId
          simp [passAnswer, countAfter]
        rw [if_pos rfl, hsent, List.append_nil, hanswer]
        refine ⟨hturn.order.rejected, ?_⟩
        rw [List.filter_append, hclaims, List.append_nil, ← accepting]
        cases accepting gateways ((d.sub tasks.length).sub 0) asked <;> simp
      · have hanswer : passAnswer gateways d (task :: tasks) taskId = passAnswer gateways d tasks taskId := by
          funext agentId
          simp [passAnswer, countAfter, hid]
        obtain ⟨hrejected, hclaimed⟩ := @ih capacity' db' htasks
        rw [if_neg hid, List.nil_append, hanswer]
        refine ⟨hrejected, ?_⟩
        rw [List.filter_append, ← hclaimed]
        cases accepting gateways ((d.sub tasks.length).sub 0) asked <;> simp [hid]

end Turns

/-! ### The pass -/

/-- What an operation of a pass is: plain, a request, or a claim. -/
def IsPassOp (op : Op) : Prop :=
  op.IsPlain ∨ (∃ agentId taskId, op = .post agentId taskId) ∨
    ∃ task agentId now now', op = claimOp task agentId now now'

theorem dispatchOps_isPassOp : DispatchOps IsPassOp where
  select := .inl (.inl rfl)
  commit := .inl (.inr (.inl rfl))
  aside := .inl (.inr (.inr rfl))
  post agentId taskId := .inr (.inl ⟨agentId, taskId, rfl⟩)
  claim agentId seen now now' _ _ _ := .inr (.inr ⟨seen, agentId, now, now', rfl⟩)

/-- Operations of a pass raise the load by what they claim. -/
theorem load_foldl_le {ops : List Op} (hops : ∀ op ∈ ops, IsPassOp op) (db : Db)
    (cookbookId agentId : String) :
    load (ops.foldl (fun s op => Op.exec op s) db) cookbookId agentId ≤
      load db cookbookId agentId + (ops.filterMap Op.claimed).countP (·.2 == agentId) := by
  induction ops generalizing db with
  | nil => exact Nat.le_refl _
  | cons op ops ih =>
    have hrest := ih (fun op' hop' => hops op' (List.mem_cons_of_mem _ hop')) (Op.exec op db)
    rw [List.foldl_cons]
    rcases hops op List.mem_cons_self with hplain | ⟨other, taskId, rfl⟩ | ⟨task, other, now, now', rfl⟩
    · rw [List.filterMap_cons, claimed_of_isPlain hplain]
      rw [hplain.exec] at hrest ⊢
      exact hrest
    · exact hrest
    · have hclaim := load_exec_claim db cookbookId agentId task.id other now now' (some task)
      have hclaimed : (claimOp task other now now').claimed = some (task.id, other) := rfl
      rw [List.filterMap_cons, hclaimed]
      simp only [List.countP_cons, beq_iff_eq]
      rw [claimOp] at hrest ⊢
      omega

/-- The open tasks a pass goes through. -/
def unassigned (db : Db) (cookbookId : String) : List Task :=
  (rowsOf (TaskRepo.listOpenByCookbook cookbookId) db).filter (·.assignedAgentId.isNone)

/-- The trace of a pass is that of its turns, after some reads. -/
theorem exists_ops_dispatchForCookbook (cookbookId : String) (gateways : List AgentPresence) (d : Draws)
    (db : Db) (hnodup : (gateways.map (·.agentId)).Nodup) :
    ∃ reads capacity, (∀ op ∈ reads, op.IsPlain) ∧ IsCapacity capacity ∧
      (∀ e ∈ capacity, ∃ agent ∈ gateways, agent.agentId = e.1 ∧
        e.2 = agent.maxConcurrentTasks - load db cookbookId e.1) ∧
      (dispatchForCookbook cookbookId gateways d).ops Op.exec db =
        reads ++ (dispatchTasks gateways d (unassigned db cookbookId) capacity).ops Op.exec db := by
  obtain ⟨capacity, hrun, hcap, hcounted⟩ := exists_run_capacityOf cookbookId gateways db hnodup
  have hlist : (TaskRepo.listOpenByCookbook cookbookId).run Op.exec db =
      (.ok (rowsOf (TaskRepo.listOpenByCookbook cookbookId) db), db) := rfl
  have hselect : (TaskRepo.listOpenByCookbook cookbookId).ops Op.exec db = [.select] := rfl
  have hreads : ∀ op ∈ (capacityOf cookbookId gateways).ops Op.exec db, op.IsPlain :=
    fun op hop => (every_capacityOf plainOps_isPlain cookbookId gateways).of_mem_ops hop
  rw [dispatchForCookbook, Coro.ops_bind_ok hlist, hselect]
  dsimp only
  rw [← unassigned]
  by_cases hnone : (unassigned db cookbookId).isEmpty = true
  · refine ⟨[.select], capacity, by simp [Op.IsPlain], hcap, hcounted, ?_⟩
    rw [if_pos hnone, List.isEmpty_iff.mp hnone]
    rfl
  · rw [if_neg hnone, Coro.ops_bind_ok hrun]
    refine ⟨.select :: (capacityOf cookbookId gateways).ops Op.exec db, capacity,
      List.forall_mem_cons.mpr ⟨.inl rfl, hreads⟩, hcap, hcounted, ?_⟩
    by_cases hempty : capacity.isEmpty = true
    · rw [if_pos hempty]
      cases htasks : unassigned db cookbookId with
      | nil => simp [dispatchTasks]
      | cons task tasks => simp [dispatchTasks, hempty, Coro.ops]
    · rw [if_neg hempty]
      rfl

end TaskDispatchController

/-- The database with the primary key of `agent_presence`. -/
structure AgentDb extends Db where
  nodup : (agents.map fun a => (a.agentId, a.cookbookId)).Nodup

namespace AgentDb

open TaskDispatchController

variable (db : AgentDb) (cookbookId : String) (d : Draws)

/-- The gateways `reconcile` passes on. -/
def gateways : List AgentPresence := (db.agents.filter (·.cookbookId == cookbookId)).filter isGateway

/-- The operations of a pass. -/
def passOps : List Op := (dispatchForCookbook cookbookId (db.gateways cookbookId) d).ops Op.exec db.toDb

/-- The database after `k` operations of a pass. -/
def afterOps (k : Nat) : Db :=
  (dispatchForCookbook cookbookId (db.gateways cookbookId) d).stateAfter Op.exec k db.toDb

/-- A pass keeps the load of every agent of the cookbook within its limit, or what it was; it writes nothing
but claims, of tasks that were open, unassigned, not of a graph and ready; and it sends each task up to the
first gateway that accepts and claims it for that one. -/
structure PassMeets : Prop where
  load_le : ∀ k, ∀ agent ∈ db.agents, agent.cookbookId = cookbookId →
    (load (db.afterOps cookbookId d k) cookbookId agent.agentId : Int) ≤
      max (load db.toDb cookbookId agent.agentId : Int) agent.maxConcurrentTasks
  writes : ∀ op ∈ db.passOps cookbookId d, (∀ s : Db, op.exec s = s) ∨ op.claimed.isSome = true
  claims : ∀ claim ∈ (db.passOps cookbookId d).filterMap Op.claimed,
    ∃ task, db.tasks.get claim.1 = some task ∧ task.status = .open_ ∧ task.assignedAgentId = none ∧
      task.graphNodeId = none ∧ ∀ depId ∈ task.dependsOnTaskIds, db.statusOf depId = some .done
  settles : ∀ taskId, SettledByFirst
    (passAnswer (db.gateways cookbookId) d (unassigned db.toDb cookbookId) taskId)
    ((db.passOps cookbookId d).filterMap (Op.sentTo taskId))
    ((db.passOps cookbookId d).filterMap Op.claimed) taskId

theorem mem_gateways {agent : AgentPresence} :
    agent ∈ db.gateways cookbookId ↔
      (agent ∈ db.agents ∧ agent.cookbookId = cookbookId) ∧ isGateway agent = true := by
  rw [gateways, List.mem_filter, List.mem_filter, beq_iff_eq]

theorem eq_of_agentId {db : AgentDb} {a b : AgentPresence} (ha : a ∈ db.agents) (hb : b ∈ db.agents)
    (hid : a.agentId = b.agentId) (hcookbook : a.cookbookId = b.cookbookId) : a = b :=
  List.inj_on_of_nodup_map db.nodup ha hb (Prod.ext hid hcookbook)

theorem nodup_gateways : ((db.gateways cookbookId).map (·.agentId)).Nodup := by
  refine List.Nodup.map_on (fun a ha b hb hid => ?_) ((db.nodup.of_map _).filter _ |>.filter _)
  obtain ⟨⟨ha, hacookbook⟩, -⟩ := (db.mem_gateways cookbookId).mp ha
  obtain ⟨⟨hb, hbcookbook⟩, -⟩ := (db.mem_gateways cookbookId).mp hb
  exact eq_of_agentId ha hb hid (hacookbook.trans hbcookbook.symm)

theorem mem_unassigned {task : Task} :
    task ∈ unassigned db.toDb cookbookId ↔ task ∈ db.tasks ∧
      TaskRepo.inCookbook db.toDb cookbookId task = true ∧ task.status = .open_ ∧
      task.graphNodeId = none ∧ task.assignedAgentId = none := by
  show task ∈ (db.tasks.rows.filter _).filter _ ↔ _
  simp only [List.mem_filter, Bool.and_eq_true, beq_iff_eq, Option.isNone_iff_eq_none, Table.mem_def,
    and_assoc]

end AgentDb

end Krewhub
