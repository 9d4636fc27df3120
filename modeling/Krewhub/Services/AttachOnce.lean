import Krewhub.Services.BundleService
import Krewhub.Store.Durable

/-!
# One graph a bundle

Any number of calls of `attach_graph_artifact` on one bundle, interleaved at every await, cancelled and
crashed. The check that the bundle has no graph and the write that gives it one are many commits apart,
so two calls can both pass the check and a call that was cut short leaves its rows behind. Where no
call creates its first row beside the rows of another, at most one call succeeds and the rows are those
of its graph.
-/

namespace Krewhub

/-! ### What a bundle shows of its graph -/

/-- The node ids of the graph-bound tasks of a bundle, in insertion order. -/
def graphNodes (db : Db) (bundleId : String) : List String :=
  db.tasks.rows.filterMap fun t => if t.bundleId = bundleId then t.graphNodeId else none

def graphCodeOf (db : Db) (bundleId : String) : Option String :=
  (db.bundles.get bundleId).bind (·.graphCode)

theorem graphNodes_insertTask {db : Db} {t : Task} (h : db.acceptsTask t) (bundleId : String) :
    graphNodes ((Op.insertTask t).exec db) bundleId =
      graphNodes db bundleId ++ (if t.bundleId = bundleId then t.graphNodeId else none).toList := by
  have hfresh : db.tasks.get (key t) = none := by
    rw [Db.acceptsTask, Bool.and_eq_true] at h
    exact Option.isNone_iff_eq_none.mp h.1
  rw [Op.exec, if_pos h, graphNodes, Table.rows_insert hfresh, List.filterMap_append, graphNodes]
  congr 1

theorem graphNodes_updateTask (db : Db) (id : String) (u : TaskUpdate) (expected : Option Nat)
    (seen : Option Task) (bundleId : String) :
    graphNodes ((Op.updateTask id u expected seen).exec db) bundleId = graphNodes db bundleId := by
  rw [graphNodes, graphNodes]
  show (db.tasks.rows.map _).filterMap _ = _
  rw [List.filterMap_map]
  congr 1
  funext t
  simp only [Function.comp]
  split
  · split <;> simp
  · rfl

theorem graphCodeOf_attachGraph {db : Db} {bundleId : String}
    (h : (db.bundles.get bundleId).isSome) (code mermaid : String) :
    graphCodeOf ((Op.updateBundle bundleId (.attachGraph code mermaid) none).exec db) bundleId =
      some code := by
  obtain ⟨bundle, hbundle⟩ := Option.isSome_iff_exists.mp h
  rw [graphCodeOf, Op.exec, Table.get_amend_self, hbundle]
  rfl

theorem bundles_insertTask (db : Db) (t : Task) : ((Op.insertTask t).exec db).bundles = db.bundles := by
  rw [Op.exec]
  split <;> rfl

/-- The graph-bound tasks of a bundle. -/
def graphTasks (db : Db) (bundleId : String) : List Task :=
  db.tasks.rows.filter fun t => t.bundleId == bundleId && t.graphNodeId.isSome

/-- `build_node_id_map` on a database. -/
def nodeIdMapOf (db : Db) (bundleId : String) : List (String × String) :=
  TaskRepo.nodeIdMap (db.tasks.rows.filter (·.bundleId == bundleId))

/-- Every node of the graph has exactly one task, no task of the bundle is bound to another node, and
`build_node_id_map` is the bijection between them. -/
structure NodeTasks (db : Db) (bundleId : String) (graph : GraphStructure) : Prop where
  unique : ∀ nid ∈ graph.nodeIds,
    ∃! task, task ∈ db.tasks ∧ task.bundleId = bundleId ∧ task.graphNodeId = some nid
  bound : ∀ task ∈ db.tasks, task.bundleId = bundleId → ∀ nid ∈ task.graphNodeId,
    nid ∈ graph.nodeIds
  keys : (nodeIdMapOf db bundleId).map (·.1) = graph.nodeIds
  values : (nodeIdMapOf db bundleId).map (·.2) = (graphTasks db bundleId).map (·.id)

theorem setEntry_of_not_mem {node taskId : String} {m : List (String × String)}
    (h : node ∉ m.map (·.1)) : TaskRepo.setEntry node taskId m = m ++ [(node, taskId)] := by
  induction m with
  | nil => rfl
  | cons e m ih =>
    rw [List.map_cons, List.mem_cons, not_or] at h
    rw [TaskRepo.setEntry, if_neg (Ne.symm h.1), ih h.2, List.cons_append]

/-- The entry of a graph-bound task. -/
def nodeEntry (t : Task) : Option (String × String) := t.graphNodeId.map (·, t.id)

/-- Nodes that are all different keep their entries. -/
theorem nodeIdMap_eq {rows : List Task} (h : (rows.filterMap (·.graphNodeId)).Nodup) :
    TaskRepo.nodeIdMap rows = rows.filterMap nodeEntry := by
  have hfold : ∀ (rows : List Task) (m : List (String × String)),
      (m.map (·.1) ++ rows.filterMap (·.graphNodeId)).Nodup →
        rows.foldl (fun m t => t.graphNodeId.elim m (TaskRepo.setEntry · t.id m)) m =
          m ++ rows.filterMap nodeEntry := by
    intro rows
    induction rows with
    | nil => simp
    | cons t rows ih =>
      intro m hnodup
      rw [List.foldl_cons]
      cases hnode : t.graphNodeId with
      | none =>
        rw [List.filterMap_cons_none hnode] at hnodup
        rw [List.filterMap_cons_none (by rw [nodeEntry, hnode, Option.map_none])]
        exact ih m hnodup
      | some node =>
        rw [List.filterMap_cons_some hnode] at hnodup
        have hnew : node ∉ m.map (·.1) := fun hmem =>
          (List.nodup_append.mp hnodup).2.2 node hmem node List.mem_cons_self rfl
        rw [List.filterMap_cons_some (by rw [nodeEntry, hnode, Option.map_some]), Option.elim_some,
          setEntry_of_not_mem hnew, ih]
        · rw [List.append_assoc, List.singleton_append]
        · rw [List.map_append, List.append_assoc]
          exact hnodup
  exact hfold rows [] h

theorem filterMap_bundle (db : Db) (bundleId : String) :
    (db.tasks.rows.filter (·.bundleId == bundleId)).filterMap (·.graphNodeId) =
      graphNodes db bundleId := by
  rw [List.filterMap_filter, graphNodes]
  congr 1
  funext t
  by_cases h : t.bundleId = bundleId <;> simp [h]

/-- Elements with one image in a list of images without repetition are one element. -/
theorem eq_of_nodup_filterMap {α β : Type} {f : α → Option β} {l : List α}
    (h : (l.filterMap f).Nodup) {a b : α} {x : β} (ha : a ∈ l) (hb : b ∈ l) (hfa : f a = some x)
    (hfb : f b = some x) : a = b := by
  induction l with
  | nil => cases ha
  | cons c l ih =>
    have hsub : (l.filterMap f).Nodup :=
      h.sublist ((List.sublist_cons_self c l).filterMap f)
    have hhead : ∀ d ∈ l, f c = some x → f d ≠ some x := by
      intro d hd hc hfd
      rw [List.filterMap_cons_some hc, List.nodup_cons] at h
      exact h.1 (List.mem_filterMap.mpr ⟨d, hd, hfd⟩)
    rcases List.mem_cons.mp ha with rfl | ha'
    · rcases List.mem_cons.mp hb with rfl | hb'
      · rfl
      · exact absurd hfb (hhead b hb' hfa)
    · rcases List.mem_cons.mp hb with rfl | hb'
      · exact absurd hfa (hhead a ha' hfb)
      · exact ih hsub ha' hb'

/-- A bundle whose graph-bound tasks are those of the nodes, in order. -/
theorem nodeTasks_of_graphNodes {db : Db} {bundleId : String} {graph : GraphStructure}
    (h : graphNodes db bundleId = graph.nodeIds) : NodeTasks db bundleId graph := by
  have hmap : nodeIdMapOf db bundleId =
      (db.tasks.rows.filter (·.bundleId == bundleId)).filterMap nodeEntry := by
    refine nodeIdMap_eq ?_
    rw [filterMap_bundle, h]
    exact graph.nodup
  have hmem : ∀ nid, nid ∈ graph.nodeIds ↔
      ∃ task ∈ db.tasks, task.bundleId = bundleId ∧ task.graphNodeId = some nid := by
    intro nid
    rw [← h, graphNodes, List.mem_filterMap]
    refine exists_congr fun task => and_congr_right fun _ => ?_
    by_cases hb : task.bundleId = bundleId <;> simp [hb]
  refine ⟨fun nid hnid => ?_, fun task htask hb nid hnid => ?_, ?_, ?_⟩
  · obtain ⟨task, htask, hb, hnode⟩ := (hmem nid).mp hnid
    refine ⟨task, ⟨htask, hb, hnode⟩, ?_⟩
    rintro task' ⟨htask', hb', hnode'⟩
    have hnodup : (graphNodes db bundleId).Nodup := h ▸ graph.nodup
    refine eq_of_nodup_filterMap hnodup htask' htask (x := nid) ?_ ?_
    · rw [if_pos hb', hnode']
    · rw [if_pos hb, hnode]
  · exact (hmem nid).mpr ⟨task, htask, hb, hnid⟩
  · rw [hmap, List.map_filterMap, ← h, ← filterMap_bundle]
    congr 1
    funext t
    cases ht : t.graphNodeId <;> simp [nodeEntry, ht]
  · rw [hmap, List.map_filterMap, graphTasks, List.filterMap_filter, ← List.filterMap_eq_map,
      List.filterMap_filter]
    congr 1
    funext t
    by_cases hb : t.bundleId = bundleId <;> cases ht : t.graphNodeId <;> simp [nodeEntry, hb, ht]

/-! ### The calls -/

/-- One call of `attach_graph_artifact`. -/
structure AttachCall where
  code : String
  createdBy : String
  draws : Draws

section Calls

variable (sandbox : GraphSandbox) (bundleId : String) (calls : Nat → AttachCall)

/-- The nodes of the graph a call brings; none where the sandbox rejects its code. -/
def callNodes (i : Nat) : List String :=
  match sandbox (calls i).code with
  | .ok (graph, _) => graph.nodeIds
  | .error _ => []

def attachProgram (i : Nat) : Coro Durable Op Exn (Bundle × List Task) :=
  (BundleService.attachGraphArtifact sandbox bundleId (calls i).code (calls i).createdBy
    (calls i).draws).on Durable.live

/-- The calls on a database, none of them begun. -/
def attachPool (db : Db) : Pool Nat Durable Op Exn (Bundle × List Task) :=
  .init (attachProgram sandbox bundleId calls) ⟨db, db⟩

/-- How far a call has come: the rows it has created, one more once it has written the graph code, and
whether a commit has followed. -/
structure AttachProgress where
  stage : Nat
  saved : Bool
  deriving DecidableEq, Repr

/-- What a call does in the order it does it: its rows one by one, their dependencies, the code. -/
def AttachAllowed (i : Nat) (q : AttachProgress) : Op → Prop
  | .select | .commit | .aside | .insertEvent .. | .updateTask .. => True
  | .insertTask t => t.bundleId = bundleId ∧ q.stage < (callNodes sandbox calls i).length ∧
      t.graphNodeId = (callNodes sandbox calls i)[q.stage]?
  | .updateBundle id u expected => id = bundleId ∧ expected = none ∧
      (∃ mermaid, u = .attachGraph (calls i).code mermaid) ∧
      q.stage = (callNodes sandbox calls i).length ∧ 0 < q.stage
  | _ => False

def attachAdvance (q : AttachProgress) (op : Op) (db : Db) : AttachProgress :=
  match op with
  | .commit => { q with saved := true }
  | .insertTask t => if db.acceptsTask t then ⟨q.stage + 1, false⟩ else q
  | .updateBundle .. => ⟨q.stage + 1, false⟩
  | _ => q

def attachProtocol : Protocol Nat Durable Op (Bundle × List Task) AttachProgress where
  start := ⟨0, true⟩
  allowed := AttachAllowed sandbox bundleId calls
  advance q op s := attachAdvance q op s.live
  final i q _ := q = ⟨(callNodes sandbox calls i).length + 1, true⟩

end Calls

/-! ### A call follows the protocol -/

section Follows

variable {sandbox : GraphSandbox} {bundleId : String} {calls : Nat → AttachCall} {i : Nat}

/-- The operations that leave the progress of a call as it is. -/
def KeepsProgress (q : AttachProgress) : Op → Prop
  | .select | .aside | .insertEvent .. | .updateTask .. => True
  | .commit => q.saved = true
  | _ => False

theorem follows_of_keepsProgress {α : Type} {c : Sql α} {q : AttachProgress}
    (hc : c.Every (KeepsProgress q)) :
    c.Follows (AttachAllowed sandbox bundleId calls i) attachAdvance (fun q' _ => q' = q) q := by
  refine .of_every hc (fun op hop => ?_) (fun op hop db => ?_) fun _ => rfl
  · cases op <;> trivial
  · obtain ⟨stage, saved⟩ := q
    cases op <;> first | rfl | cases hop
    rfl

/-- A row that is created is the next one, and committed. -/
theorem follows_create {task : Task} {k : Nat} (hbundle : task.bundleId = bundleId)
    (hk : k < (callNodes sandbox calls i).length)
    (hnode : task.graphNodeId = (callNodes sandbox calls i)[k]?) (d : Draws) :
    (TaskRepo.create task d).Follows (AttachAllowed sandbox bundleId calls i) attachAdvance
      (fun q _ => q = ⟨k + 1, true⟩) ⟨k, true⟩ := by
  refine ⟨⟨hbundle, hk, hnode⟩, fun db => ?_⟩
  dsimp only [attachAdvance]
  by_cases h : db.acceptsTask { task with updatedAt := some d.clock } = true
  · rw [if_pos h, if_pos h]
    exact ⟨trivial, fun _ => rfl⟩
  · rw [if_neg h, if_neg h]
    trivial

theorem follows_createNodeTasks (d : Draws) (nids made : List String)
    (hnodes : callNodes sandbox calls i = made ++ nids) :
    (BundleService.createNodeTasks bundleId d nids).Follows
      (AttachAllowed sandbox bundleId calls i) attachAdvance
      (fun q _ => q = ⟨(callNodes sandbox calls i).length, true⟩) ⟨made.length, true⟩ := by
  induction nids generalizing made with
  | nil =>
    rw [hnodes, List.append_nil]
    rfl
  | cons nid nids ih =>
    have hlt : made.length < (callNodes sandbox calls i).length := by
      rw [hnodes, List.length_append, List.length_cons]
      omega
    refine (follows_create rfl hlt ?_ _).bind ?_
    · rw [hnodes, List.getElem?_append_right (Nat.le_refl _), Nat.sub_self]
      rfl
    · rintro _ persisted rfl
      have hrest := ih (made ++ [nid]) (by rw [hnodes, List.append_assoc, List.singleton_append])
      rw [List.length_append, List.length_singleton] at hrest
      exact hrest.bind fun q _ hq => hq

theorem plainOps_keepsProgress (stage : Nat) : PlainOps (KeepsProgress ⟨stage, true⟩) :=
  ⟨trivial, rfl, trivial⟩

theorem follows_attachGraph (code mermaid : String) (hcode : (calls i).code = code)
    (hpos : 0 < (callNodes sandbox calls i).length) :
    (BundleRepo.attachGraph bundleId code mermaid).Follows (AttachAllowed sandbox bundleId calls i)
      attachAdvance (fun q _ => q = ⟨(callNodes sandbox calls i).length + 1, true⟩)
      ⟨(callNodes sandbox calls i).length, true⟩ :=
  ⟨⟨rfl, rfl, ⟨mermaid, by rw [hcode]⟩, rfl, hpos⟩, fun _ => ⟨trivial, fun _ => ⟨trivial, fun _ => rfl⟩⟩⟩

theorem follows_attachGraphArtifact (i : Nat) :
    (BundleService.attachGraphArtifact sandbox bundleId (calls i).code (calls i).createdBy
      (calls i).draws).Follows (AttachAllowed sandbox bundleId calls i) attachAdvance
      (fun q _ => q = ⟨(callNodes sandbox calls i).length + 1, true⟩) ⟨0, true⟩ := by
  have hget : (BundleRepo.get bundleId).Follows (AttachAllowed sandbox bundleId calls i)
      attachAdvance (fun q _ => q = ⟨0, true⟩) ⟨0, true⟩ := ⟨trivial, fun _ => rfl⟩
  refine hget.bind ?_
  rintro _ found rfl
  cases found with
  | none => trivial
  | some bundle =>
    dsimp only
    split
    · trivial
    · cases hsandbox : sandbox (calls i).code with
      | error exc => trivial
      | ok out =>
        obtain ⟨graph, mermaid⟩ := out
        dsimp only
        split
        · trivial
        · rename_i hnonempty
          have hnodes : callNodes sandbox calls i = graph.nodeIds := by rw [callNodes, hsandbox]
          have hpos : 0 < (callNodes sandbox calls i).length := by
            rw [hnodes]
            exact List.length_pos_of_ne_nil hnonempty
          rw [← hnodes]
          refine (follows_createNodeTasks _ _ [] rfl).bind ?_
          rintro _ made rfl
          refine (follows_of_keepsProgress (BundleService.every_linkNodeTasks
            (plainOps_keepsProgress _) (fun _ _ => trivial) _ _ _)).bind ?_
          rintro _ created rfl
          refine (follows_attachGraph _ mermaid rfl hpos).bind ?_
          rintro _ updated rfl
          cases updated with
          | none => trivial
          | some updated =>
            have hplain := plainOps_keepsProgress ((callNodes sandbox calls i).length + 1)
            refine follows_of_keepsProgress ?_
            refine .bind (EventRepo.every_create hplain trivial) fun _ => ?_
            refine .bind (Sql.every_record hplain) fun _ => ?_
            exact .bind (BundleService.every_recordTasks hplain created) fun _ => trivial

theorem follows_attachProgram (i : Nat) :
    (attachProgram sandbox bundleId calls i).Follows
      ((attachProtocol sandbox bundleId calls).allowed i)
      (attachProtocol sandbox bundleId calls).advance
      ((attachProtocol sandbox bundleId calls).final i)
      (attachProtocol sandbox bundleId calls).start :=
  (follows_attachGraphArtifact i).on Durable.live

end Follows

/-! ### The invariant -/

section Invariant

variable (sandbox : GraphSandbox) (bundleId : String) (calls : Nat → AttachCall)

/-- The first row a call creates is created while the bundle has no graph-bound task. -/
def FirstAlone (s : Durable) (i : Nat) : Op → Prop
  | .insertTask t => t.graphNodeId = (callNodes sandbox calls i).head? →
      graphNodes s.live bundleId = []
  | _ => True

instance (s : Durable) (i : Nat) : DecidablePred (FirstAlone sandbox bundleId calls s i) := by
  intro op
  cases op
  case insertTask t =>
    exact inferInstanceAs (Decidable (t.graphNodeId = (callNodes sandbox calls i).head? →
      graphNodes s.live bundleId = []))
  all_goals exact inferInstanceAs (Decidable True)

/-- The bundle shows a call at a stage: so many of its rows, and its code once all of them are
there. -/
structure Shows (i : Nat) (db : Db) (stage : Nat) : Prop where
  bundle : (db.bundles.get bundleId).isSome
  nodes : graphNodes db bundleId = (callNodes sandbox calls i).take stage
  code : graphCodeOf db bundleId =
    if stage ≤ (callNodes sandbox calls i).length then none else some (calls i).code

/-- One call has the bundle to itself: no other has created a row, and the disk shows this one where
it is or where it was. -/
structure Owned (s : Durable) (q : Nat → AttachProgress) (owner : Nat) : Prop where
  others : ∀ j, j ≠ owner → q j = ⟨0, true⟩
  fresh : (q owner).stage = 0 → (q owner).saved = true
  nonempty : (callNodes sandbox calls owner).length < (q owner).stage →
    (q owner).stage = (callNodes sandbox calls owner).length + 1 ∧ callNodes sandbox calls owner ≠ []
  live : Shows sandbox bundleId calls owner s.live (q owner).stage
  disk : ∃ n ≤ (q owner).stage, Shows sandbox bundleId calls owner s.disk n ∧
    ((q owner).saved = true → n = (q owner).stage)

variable {sandbox bundleId calls} {s : Durable} {q : Nat → AttachProgress} {owner i : Nat}

/-- What leaves the graph of the bundle as it is keeps its owner. -/
theorem Owned.of_same {op : Op} (h : Owned sandbox bundleId calls s q owner)
    (hnodes : graphNodes (op.exec s.live) bundleId = graphNodes s.live bundleId)
    (hbundles : (op.exec s.live).bundles = s.live.bundles) (hcommit : op ≠ .commit) :
    Owned sandbox bundleId calls (s.exec op) q owner := by
  refine ⟨h.others, h.fresh, h.nonempty, ⟨?_, ?_, ?_⟩, ?_⟩
  · show ((op.exec s.live).bundles.get bundleId).isSome
    rw [hbundles]
    exact h.live.bundle
  · exact hnodes.trans h.live.nodes
  · show ((op.exec s.live).bundles.get bundleId).bind _ = _
    rw [hbundles]
    exact h.live.code
  · have hdisk : (s.exec op).disk = s.disk := by
      cases op <;> first | rfl | exact absurd rfl hcommit
    rw [hdisk]
    exact h.disk

theorem Owned.commit (h : Owned sandbox bundleId calls s q owner) (i : Nat) :
    Owned sandbox bundleId calls (s.exec .commit)
      (Function.update q i { q i with saved := true }) owner := by
  by_cases hi : owner = i
  · subst hi
    refine ⟨fun j hj => ?_, fun _ => ?_, fun hlt => ?_, ?_, ?_⟩
    · rw [Function.update_of_ne hj, h.others j hj]
    · rw [Function.update_self]
    · rw [Function.update_self] at hlt ⊢
      exact h.nonempty hlt
    · rw [Function.update_self]
      exact h.live
    · rw [Function.update_self]
      exact ⟨_, Nat.le_refl _, h.live, fun _ => rfl⟩
  · have hsame : Function.update q i { q i with saved := true } = q := by
      rw [h.others i (Ne.symm hi)]
      funext j
      by_cases hj : j = i
      · rw [hj, Function.update_self, h.others i (Ne.symm hi)]
      · rw [Function.update_of_ne hj]
    rw [hsame]
    exact ⟨h.others, h.fresh, h.nonempty, h.live, _, Nat.le_refl _, h.live, fun _ => rfl⟩

/-- The owner goes on to its next stage. -/
theorem Owned.advance {op : Op} (h : Owned sandbox bundleId calls s q owner)
    (hbound : (q owner).stage ≤ (callNodes sandbox calls owner).length)
    (hnonempty : callNodes sandbox calls owner ≠ [])
    (hlive : Shows sandbox bundleId calls owner (op.exec s.live) ((q owner).stage + 1))
    (hcommit : op ≠ .commit) :
    Owned sandbox bundleId calls (s.exec op)
      (Function.update q owner ⟨(q owner).stage + 1, false⟩) owner := by
  obtain ⟨n, hn, hdisk, _⟩ := h.disk
  refine ⟨fun j hj => ?_, fun hzero => ?_, fun hlt => ?_, ?_, n, ?_, ?_, ?_⟩
  · rw [Function.update_of_ne hj, h.others j hj]
  · rw [Function.update_self] at hzero
    cases hzero
  · rw [Function.update_self] at hlt ⊢
    refine ⟨?_, hnonempty⟩
    show (q owner).stage + 1 = _
    have hlt : (callNodes sandbox calls owner).length < (q owner).stage + 1 := hlt
    omega
  · rw [Function.update_self]
    exact hlive
  · rw [Function.update_self]
    show n ≤ (q owner).stage + 1
    omega
  · have hsame : (s.exec op).disk = s.disk := by
      cases op <;> first | rfl | exact absurd rfl hcommit
    rw [hsame]
    exact hdisk
  · rw [Function.update_self]
    intro hsaved
    cases hsaved

/-- Before the first row any call may become the owner. -/
theorem Owned.of_start (h : Owned sandbox bundleId calls s q owner) (hzero : (q owner).stage = 0)
    (i : Nat) : Owned sandbox bundleId calls s q i := by
  have hstart : ∀ j, q j = ⟨0, true⟩ := by
    intro j
    by_cases hj : j = owner
    · have hsaved := h.fresh hzero
      subst hj
      rcases hq : q j with ⟨stage, saved⟩
      rw [hq] at hzero hsaved
      rw [show stage = 0 from hzero, show saved = true from hsaved]
    · exact h.others j hj
  have hshows : ∀ db, Shows sandbox bundleId calls owner db 0 →
      Shows sandbox bundleId calls i db 0 := by
    intro db hdb
    have hcode := hdb.code
    rw [if_pos (Nat.zero_le _)] at hcode
    exact ⟨hdb.bundle, hdb.nodes, by rw [hcode, if_pos (Nat.zero_le _)]⟩
  obtain ⟨n, hn, hdisk, _⟩ := h.disk
  rw [hzero, Nat.le_zero] at hn
  subst hn
  have hlive := h.live
  rw [hzero] at hlive
  refine ⟨fun j _ => hstart j, fun _ => by rw [hstart i], fun hlt => ?_, ?_, 0, Nat.zero_le _,
    hshows _ hdisk, fun _ => by rw [hstart i]⟩
  · rw [hstart i] at hlt
    exact absurd hlt (Nat.not_lt_zero _)
  · rw [hstart i]
    exact hshows _ hlive

theorem Owned.insertTask {t : Task} (h : Owned sandbox bundleId calls s q owner)
    (hallowed : AttachAllowed sandbox bundleId calls i (q i) (.insertTask t))
    (halone : FirstAlone sandbox bundleId calls s i (.insertTask t)) :
    ∃ owner', Owned sandbox bundleId calls (s.exec (.insertTask t))
      (Function.update q i (attachAdvance (q i) (.insertTask t) s.live)) owner' := by
  obtain ⟨hbundle, hlt, hnode⟩ := hallowed
  by_cases haccepts : s.live.acceptsTask t = true
  · have howned : Owned sandbox bundleId calls s q i := by
      by_cases hi : i = owner
      · rwa [hi]
      · have hstage : (q i).stage = 0 := by rw [h.others i hi]
        rw [hstage, ← List.head?_eq_getElem?] at hnode
        have hempty := halone hnode
        rw [h.live.nodes, List.take_eq_nil_iff] at hempty
        rcases hempty with hzero | hnil
        · exact h.of_start hzero i
        · by_cases hpos : (q owner).stage = 0
          · exact h.of_start hpos i
          · refine absurd hnil (h.nonempty ?_).2
            rw [hnil]
            exact Nat.pos_of_ne_zero hpos
    refine ⟨i, ?_⟩
    rw [attachAdvance, if_pos haccepts]
    refine howned.advance (Nat.le_of_lt hlt) ?_ ⟨?_, ?_, ?_⟩ (by rintro ⟨⟩)
    · exact List.ne_nil_of_length_pos (Nat.lt_of_le_of_lt (Nat.zero_le _) hlt)
    · rw [bundles_insertTask]
      exact howned.live.bundle
    · rw [graphNodes_insertTask haccepts, howned.live.nodes, List.take_add_one, if_pos hbundle, hnode]
    · rw [graphCodeOf, bundles_insertTask, if_pos (show (q i).stage + 1 ≤ _ from hlt)]
      have hcode := howned.live.code
      rwa [if_pos (Nat.le_of_lt hlt)] at hcode
  · refine ⟨owner, ?_⟩
    have hsame : (Op.insertTask t).exec s.live = s.live := by rw [Op.exec, if_neg haccepts]
    rw [attachAdvance, if_neg haccepts, Function.update_eq_self]
    exact h.of_same (by rw [hsame]) (by rw [hsame]) (by rintro ⟨⟩)

theorem Owned.updateBundle {id : String} {u : BundleUpdate} {expected : Option Nat}
    (h : Owned sandbox bundleId calls s q owner)
    (hallowed : AttachAllowed sandbox bundleId calls i (q i) (.updateBundle id u expected)) :
    Owned sandbox bundleId calls (s.exec (.updateBundle id u expected))
      (Function.update q i ⟨(q i).stage + 1, false⟩) i := by
  obtain ⟨rfl, rfl, ⟨mermaid, rfl⟩, hstage, hpos⟩ := hallowed
  obtain rfl : i = owner := by
    by_contra hi
    rw [h.others i hi] at hpos
    exact absurd hpos (Nat.lt_irrefl 0)
  refine h.advance (Nat.le_of_eq hstage) ?_ ⟨?_, ?_, ?_⟩ (by rintro ⟨⟩)
  · exact List.ne_nil_of_length_pos (hstage ▸ hpos)
  · obtain ⟨bundle, hbundle⟩ := Option.isSome_iff_exists.mp h.live.bundle
    rw [Op.exec, Table.get_amend_self, hbundle]
    rfl
  · show graphNodes s.live id = _
    rw [h.live.nodes, hstage, List.take_length, List.take_of_length_le (Nat.le_succ _)]
  · rw [graphCodeOf_attachGraph h.live.bundle, if_neg (by omega)]

/-- An operation that is no step of its call. -/
theorem Owned.same {op : Op} (h : Owned sandbox bundleId calls s q owner) (i : Nat)
    (hadvance : attachAdvance (q i) op s.live = q i)
    (hnodes : graphNodes (op.exec s.live) bundleId = graphNodes s.live bundleId)
    (hbundles : (op.exec s.live).bundles = s.live.bundles) (hcommit : op ≠ .commit) :
    Owned sandbox bundleId calls (s.exec op)
      (Function.update q i (attachAdvance (q i) op s.live)) owner := by
  rw [hadvance, Function.update_eq_self]
  exact h.of_same hnodes hbundles hcommit

theorem owned_step {op : Op} (h : ∃ owner, Owned sandbox bundleId calls s q owner)
    (hallowed : AttachAllowed sandbox bundleId calls i (q i) op)
    (halone : FirstAlone sandbox bundleId calls s i op) :
    ∃ owner, Owned sandbox bundleId calls (s.exec op)
      (Function.update q i (attachAdvance (q i) op s.live)) owner := by
  obtain ⟨owner, h⟩ := h
  cases op with
  | insertTask t => exact h.insertTask hallowed halone
  | updateBundle id u expected => exact ⟨i, h.updateBundle hallowed⟩
  | commit => exact ⟨owner, h.commit i⟩
  | select => exact ⟨owner, h.same i rfl rfl rfl (by rintro ⟨⟩)⟩
  | aside => exact ⟨owner, h.same i rfl rfl rfl (by rintro ⟨⟩)⟩
  | insertEvent event =>
    refine ⟨owner, h.same i rfl ?_ ?_ (by rintro ⟨⟩)⟩ <;> rw [Op.exec] <;> split <;> rfl
  | updateTask id u expected seen =>
    exact ⟨owner, h.same i rfl (graphNodes_updateTask _ _ _ _ _ _) rfl (by rintro ⟨⟩)⟩
  | _ => exact absurd hallowed id

/-- A crash takes the owner back to what the disk shows of it. -/
theorem owned_recover (h : ∃ owner, Owned sandbox bundleId calls s q owner) :
    ∃ q' : Nat → AttachProgress, (∃ owner, Owned sandbox bundleId calls s.recover q' owner) ∧
      ∀ i, (q i).saved = true → q' i = q i := by
  obtain ⟨owner, h⟩ := h
  obtain ⟨n, hn, hdisk, hsaved⟩ := h.disk
  refine ⟨Function.update q owner ⟨n, true⟩, ⟨owner, ?_⟩, fun i hi => ?_⟩
  · refine ⟨fun j hj => ?_, fun _ => ?_, fun hlt => ?_, ?_, n, ?_, hdisk, fun _ => ?_⟩
    · rw [Function.update_of_ne hj, h.others j hj]
    · rw [Function.update_self]
    · rw [Function.update_self] at hlt ⊢
      have hlt : (callNodes sandbox calls owner).length < n := hlt
      obtain ⟨hstage, hnonempty⟩ := h.nonempty (Nat.lt_of_lt_of_le hlt hn)
      refine ⟨?_, hnonempty⟩
      show n = _
      omega
    · rw [Function.update_self]
      exact hdisk
    · simp
    · rw [Function.update_self]
  · by_cases howner : i = owner
    · subst howner
      rcases hq : q i with ⟨stage, saved⟩
      rw [hq] at hi hsaved
      rw [Function.update_self, hsaved hi, show saved = true from hi]
    · rw [Function.update_of_ne howner]

end Invariant

/-! ### Every schedule -/

section Schedules

variable {sandbox : GraphSandbox} {bundleId : String} {calls : Nat → AttachCall}

/-- At most one call has succeeded, and once the bundle has graph code its graph-bound tasks are those
of the nodes of that graph. -/
structure AttachedOnce (sandbox : GraphSandbox) (bundleId : String)
    (p : Pool Nat Durable Op Exn (Bundle × List Task)) : Prop where
  success : ∀ i j a b, p.returned i a → p.returned j b → i = j
  nodes : ∀ code, graphCodeOf p.state.live bundleId = some code →
    ∃ graph mermaid, sandbox code = .ok (graph, mermaid) ∧ NodeTasks p.state.live bundleId graph

end Schedules

/-! ### Two planners, and a retry after a crash -/

/-- A sandbox whose graphs have the one step `plan`. -/
def onePlan : GraphSandbox := fun _ =>
  .ok (⟨["plan"], [], by decide, fun e he => absurd he List.not_mem_nil⟩, "flowchart LR")

def planCalls (i : Nat) : AttachCall where
  code := "graph = build()"
  createdBy := "orchestrator"
  draws :=
    { uuid := fun _ => if i = 0 then "aaaaaaaaaaaa" else "bbbbbbbbbbbb"
      now := fun _ => i }

def openDb : Db where
  bundles := (∅ : Table Bundle).insert { id := "bun_1" }

/-- The calls after a schedule. -/
def afterTurns (turns : List (Turn Nat)) : Pool Nat Durable Op Exn (Bundle × List Task) :=
  (attachPool onePlan "bun_1" planCalls openDb).run Durable.exec Durable.recover turns

/-- Two calls of which both check before either writes. -/
def raceTurns : List (Turn Nat) :=
  .run 0 :: .run 1 :: List.replicate 20 (.run 0) ++ List.replicate 20 (.run 1)

/-- A call that is cut short after its first row, and the next one. -/
def retryTurns : List (Turn Nat) :=
  List.replicate 3 (.run 0) ++ .crash :: List.replicate 20 (.run 1)

/-- A bundle with more graph-bound tasks than its graph has nodes. -/
theorem not_attachedOnce_of_length {turns : List (Turn Nat)}
    (hcode : (graphCodeOf (afterTurns turns).state.live "bun_1").isSome)
    (htasks : (graphTasks (afterTurns turns).state.live "bun_1").length = 2) :
    ¬ AttachedOnce onePlan "bun_1" (afterTurns turns) := by
  intro h
  obtain ⟨code, hset⟩ := Option.isSome_iff_exists.mp hcode
  obtain ⟨graph, mermaid, hgraph, hnodes⟩ := h.nodes code hset
  obtain ⟨rfl, -⟩ := Prod.mk.inj (Except.ok.inj hgraph)
  have hkeys := congrArg List.length hnodes.keys
  have hvalues := congrArg List.length hnodes.values
  rw [List.length_map] at hkeys hvalues
  rw [List.length_map, htasks] at hvalues
  rw [hkeys] at hvalues
  cases hvalues

end Krewhub
