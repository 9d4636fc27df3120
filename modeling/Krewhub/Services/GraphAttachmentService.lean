import Krewhub.Base.Digraph
import Krewhub.Services.BundleService

/-!
# The other graph attachment

`GraphAttachmentService.attach_graph_artifact` is the method of `BundleService` with one step more: it
turns down a graph whose edges have a cycle, which would gate the tasks on it forever. The endpoint
calls the method without the step. The two agree on everything but the graphs it is there for.
-/

namespace Krewhub

namespace GraphAttachmentService

/-- The adjacency map `_edges_have_cycle` searches: a key for every node, and every edge at its
source. -/
def adjacencyOf (nodeIds : List String) (edges : List (String × String)) : Adjacency String :=
  edges.foldl (fun adj e => (adj.addEdge e.1 e.2).addNode e.2) (nodeIds.map (·, []))

def edgesHaveCycle (nodeIds : List String) (edges : List (String × String)) : Bool :=
  (adjacencyOf nodeIds edges).hasCycle

def attachGraphArtifact (sandbox : GraphSandbox) (bundleId code createdBy : String) (d : Draws) :
    Sql (Bundle × List Task) := do
  match ← BundleRepo.get bundleId with
  | none => .raise (.graphArtifact 404 s!"bundle {bundleId} not found")
  | some bundle =>
    if bundle.graphCode.isSome then
      .raise (.graphArtifact 409 s!"bundle {bundleId} already has graph_code attached")
    else match sandbox code with
    | .error exc => .raise (.graphArtifact 422 s!"graph code rejected: {exc}")
    | .ok (graph, mermaid) =>
      if graph.nodeIds = [] then
        .raise (.graphArtifact 422 "graph contains no executable steps")
      else if edgesHaveCycle graph.nodeIds graph.edges then
        .raise (.graphArtifact 422 "graph contains a dependency cycle (depends_on would loop)")
      else do
        let made ← BundleService.createNodeTasks bundleId (d.sub 0) graph.nodeIds
        let created ← BundleService.linkNodeTasks graph made (d.sub 1) graph.nodeIds
          (made.map (·.2))
        match ← BundleRepo.attachGraph bundleId code mermaid with
        | none => .raise (.graphArtifact 404 s!"bundle {bundleId} disappeared mid-attach")
        | some updated =>
          EventRepo.create
            { id := (d.sub 2).hexId "evt_" 8
              bundleId := some bundleId
              type := .plan
              actorId := createdBy
              actorType := .agent
              body := s!"Graph attached: {graph.nodeIds.length} steps, {graph.edges.length} edges"
              payload := some { rest := mermaid }
              createdAt := d.clock }
          Sql.record
          BundleService.recordTasks created
          return (updated, created)

/-! ### The guard -/

theorem edge_foldl {edges : List (String × String)} {x y : String} (adj : Adjacency String) :
    (edges.foldl (fun adj e => (adj.addEdge e.1 e.2).addNode e.2) adj).Edge x y ↔
      adj.Edge x y ∨ (x, y) ∈ edges := by
  induction edges generalizing adj with
  | nil => simp
  | cons e edges ih =>
    rw [List.foldl_cons, ih, Adjacency.edge_addNode, Adjacency.edge_addEdge, List.mem_cons,
      or_assoc, Prod.ext_iff]

theorem edge_adjacencyOf {nodeIds : List String} {edges : List (String × String)} {x y : String} :
    (adjacencyOf nodeIds edges).Edge x y ↔ (x, y) ∈ edges := by
  have hnodes : ¬ Adjacency.Edge (nodeIds.map fun nid => (nid, ([] : List String))) x y := by
    induction nodeIds with
    | nil => exact List.not_mem_nil
    | cons nid nodeIds ih =>
      rw [List.map_cons, Adjacency.edge_cons]
      split
      · exact List.not_mem_nil
      · exact ih
  rw [adjacencyOf, edge_foldl, or_iff_right hnodes]

/-- `_edges_have_cycle` decides whether the edges have a directed cycle. -/
theorem edgesHaveCycle_iff {nodeIds : List String} {edges : List (String × String)} :
    edgesHaveCycle nodeIds edges = true ↔ ¬ Acyclic fun x y => (x, y) ∈ edges := by
  have hedge : (adjacencyOf nodeIds edges).Edge = fun x y => (x, y) ∈ edges := by
    funext x y
    exact propext edge_adjacencyOf
  rw [edgesHaveCycle, Adjacency.hasCycle_eq_true_iff, hedge]

/-! ### Agreement -/

/-- Where the guard lets the graph through the two methods are one coroutine. -/
theorem attachGraphArtifact_eq {sandbox : GraphSandbox} {code : String}
    (hguard : ∀ graph mermaid, sandbox code = .ok (graph, mermaid) →
      edgesHaveCycle graph.nodeIds graph.edges = false) (bundleId createdBy : String) (d : Draws) :
    attachGraphArtifact sandbox bundleId code createdBy d =
      BundleService.attachGraphArtifact sandbox bundleId code createdBy d := by
  rw [attachGraphArtifact, BundleService.attachGraphArtifact]
  congr 1
  funext found
  cases found with
  | none => rfl
  | some bundle =>
    dsimp only
    cases hsandbox : sandbox code with
    | error exc => rfl
    | ok out =>
      obtain ⟨graph, mermaid⟩ := out
      dsimp only
      rw [hguard graph mermaid hsandbox]
      rfl

/-- Every exception has another status code than the rejection of a graph. -/
def NotRejection (e : Exn) : Prop := e.statusCode ≠ 422

theorem throws_createNodeTasks (bundleId : String) (d : Draws) (nids : List String) :
    (BundleService.createNodeTasks bundleId d nids).Throws NotRejection := by
  induction nids with
  | nil => trivial
  | cons nid nids ih =>
    exact .bind (TaskRepo.throws_create (by decide : (500 : Nat) ≠ 422) _ _) fun _ => .bind ih fun _ => trivial

theorem throws_taskIdsOf (made : List (String × Task)) (srcs : List String) :
    (BundleService.taskIdsOf made srcs).Throws NotRejection := by
  induction srcs with
  | nil => trivial
  | cons src srcs ih =>
    rw [BundleService.taskIdsOf]
    cases made.lookup src with
    | none => exact (by decide : (500 : Nat) ≠ 422)
    | some task => exact .bind ih fun _ => trivial

theorem throws_linkNodeTasks (graph : GraphStructure) (made : List (String × Task)) (d : Draws)
    (nids : List String) (created : List Task) :
    (BundleService.linkNodeTasks graph made d nids created).Throws NotRejection := by
  induction nids generalizing created with
  | nil => trivial
  | cons nid nids ih =>
    refine .bind (throws_taskIdsOf made _) fun depIds => .ite (fun _ => ih created) fun _ => ?_
    cases made.lookup nid with
    | none => exact (by decide : (500 : Nat) ≠ 422)
    | some task =>
      refine .bind (TaskRepo.throws_update _ _ _ _) fun updated => ?_
      cases updated with
      | none => exact ih created
      | some updated => exact ih _

theorem throws_recordTasks (created : List Task) :
    (BundleService.recordTasks created).Throws NotRejection := by
  induction created with
  | nil => trivial
  | cons task created ih => exact .bind Sql.throws_record fun _ => ih

/-- The two attachments end alike: both turned down with one status code, or both accepted with the same
row of the bundle and the same rows of its tasks, dependencies included. -/
def Agree (bundleId : String) (out out' : Except Exn (Bundle × List Task) × Db) : Prop :=
  match out.1, out'.1 with
  | .ok _, .ok _ =>
      out.2.bundles.get bundleId = out'.2.bundles.get bundleId ∧
        out.2.tasks.rows.filter (·.bundleId == bundleId) =
          out'.2.tasks.rows.filter (·.bundleId == bundleId)
  | .error e, .error e' => e.statusCode = e'.statusCode
  | _, _ => False

theorem Agree.refl (bundleId : String) (out : Except Exn (Bundle × List Task) × Db) :
    Agree bundleId out out := by
  obtain ⟨_ | _, _⟩ := out
  · rfl
  · exact ⟨rfl, rfl⟩

/-- The call gets as far as a graph whose edges have a directed cycle. -/
def ReachesCycle (sandbox : GraphSandbox) (bundleId code : String) (db : Db) : Prop :=
  ∃ bundle ∈ db.bundles.get bundleId, bundle.graphCode = none ∧
    ∃ graph mermaid, sandbox code = .ok (graph, mermaid) ∧
      ¬ Acyclic fun x y => (x, y) ∈ graph.edges

theorem nodeIds_ne_nil {graph : GraphStructure}
    (h : ¬ Acyclic fun x y => (x, y) ∈ graph.edges) : graph.nodeIds ≠ [] := by
  intro hnil
  refine h (acyclic_of_rank (fun _ => 0) fun x y hxy => ?_)
  have hmem := (graph.edge_mem _ hxy).1
  rw [hnil] at hmem
  cases hmem

theorem run_eq_of_not_reachesCycle {sandbox : GraphSandbox} {bundleId code : String} {db : Db}
    (h : ¬ ReachesCycle sandbox bundleId code db) (createdBy : String) (d : Draws) :
    (attachGraphArtifact sandbox bundleId code createdBy d).run Op.exec db =
      (BundleService.attachGraphArtifact sandbox bundleId code createdBy d).run Op.exec db := by
  by_cases hguard : ∀ graph mermaid, sandbox code = .ok (graph, mermaid) →
      edgesHaveCycle graph.nodeIds graph.edges = false
  · rw [attachGraphArtifact_eq hguard]
  · push Not at hguard
    obtain ⟨graph, mermaid, hsandbox, hcycle⟩ := hguard
    rw [ne_eq, Bool.not_eq_false, edgesHaveCycle_iff] at hcycle
    rw [attachGraphArtifact, BundleService.attachGraphArtifact, BundleRepo.get,
      Coro.run_bind_ok Op.exec (Sql.run_select _ db), Coro.run_bind_ok Op.exec (Sql.run_select _ db)]
    cases hbundle : db.bundles.get bundleId with
    | none => rfl
    | some bundle =>
      cases hcode : bundle.graphCode with
      | none => exact absurd ⟨bundle, hbundle, hcode, graph, mermaid, hsandbox, hcycle⟩ h
      | some _ => simp only [hcode, Option.isSome_some, if_true]

/-- The guard rejects the graph before anything is written. -/
theorem rejected_of_reachesCycle {sandbox : GraphSandbox} {bundleId code : String} {db : Db}
    (h : ReachesCycle sandbox bundleId code db) (createdBy : String) (d : Draws) :
    (attachGraphArtifact sandbox bundleId code createdBy d).run Op.exec db =
      (.error (.graphArtifact 422 "graph contains a dependency cycle (depends_on would loop)"),
        db) := by
  obtain ⟨bundle, hbundle, hcode, graph, mermaid, hsandbox, hcycle⟩ := h
  rw [Option.mem_def] at hbundle
  have hnodes : graph.nodeIds ≠ [] := nodeIds_ne_nil hcycle
  have hguard : edgesHaveCycle graph.nodeIds graph.edges = true := edgesHaveCycle_iff.mpr hcycle
  rw [attachGraphArtifact, BundleRepo.get, Coro.run_bind_ok Op.exec (Sql.run_select _ db)]
  simp [hbundle, hcode, hsandbox, hnodes, hguard]

theorem not_agree_of_reachesCycle {sandbox : GraphSandbox} {bundleId code : String} {db : Db}
    (h : ReachesCycle sandbox bundleId code db) (createdBy : String) (d : Draws) :
    ¬ Agree bundleId
      ((BundleService.attachGraphArtifact sandbox bundleId code createdBy d).run Op.exec db)
      ((attachGraphArtifact sandbox bundleId code createdBy d).run Op.exec db) := by
  rw [rejected_of_reachesCycle h]
  obtain ⟨bundle, hbundle, hcode, graph, mermaid, hsandbox, hcycle⟩ := h
  rw [Option.mem_def] at hbundle
  have hnodes : graph.nodeIds ≠ [] := nodeIds_ne_nil hcycle
  have hthrows : ∀ e db', (BundleService.attachGraphArtifact sandbox bundleId code createdBy d).run
      Op.exec db = (.error e, db') → NotRejection e := by
    intro e db' hrun
    rw [BundleService.attachGraphArtifact, BundleRepo.get,
      Coro.run_bind_ok Op.exec (Sql.run_select _ db)] at hrun
    simp only [hbundle, hcode, hsandbox, hnodes, Option.isSome_none, Bool.false_eq_true,
      if_false] at hrun
    refine Coro.Throws.of_run ?_ hrun
    refine .bind (throws_createNodeTasks _ _ _) fun made => ?_
    refine .bind (throws_linkNodeTasks _ _ _ _ _) fun created => ?_
    refine .bind (.bind (Coro.throws_perform _ _) fun _ => .bind Sql.throws_commit fun _ =>
      Coro.throws_perform _ _) fun updated => ?_
    cases updated with
    | none => exact (by decide : (404 : Nat) ≠ 422)
    | some updated =>
      refine .bind (EventRepo.throws_create (by decide : (500 : Nat) ≠ 422) _) fun _ => ?_
      exact .bind Sql.throws_record fun _ => .bind (throws_recordTasks created) fun _ => trivial
  rcases hrun : (BundleService.attachGraphArtifact sandbox bundleId code createdBy d).run Op.exec db
    with ⟨e | _, db'⟩
  · exact hthrows e db' hrun
  · exact id

/-- From every database and for every code and actor, the two attachments end alike exactly when the
call does not get as far as a graph with a cycle. Both draw the same new ids. -/
theorem attach_agree_iff (sandbox : GraphSandbox) (bundleId code createdBy : String) (d : Draws)
    (db : Db) :
    Agree bundleId
        ((BundleService.attachGraphArtifact sandbox bundleId code createdBy d).run Op.exec db)
        ((attachGraphArtifact sandbox bundleId code createdBy d).run Op.exec db) ↔
      ¬ ReachesCycle sandbox bundleId code db := by
  refine ⟨fun hagree hcycle => not_agree_of_reachesCycle hcycle createdBy d hagree, fun h => ?_⟩
  rw [run_eq_of_not_reachesCycle h]
  exact Agree.refl _ _

/-- A sandbox whose graphs have two steps that lead to each other. -/
def loopSandbox : GraphSandbox := fun _ =>
  .ok (⟨["draft", "revise"], [("draft", "revise"), ("revise", "draft")], by decide, by decide⟩,
    "flowchart LR")

def emptyBundleDb : Db where
  bundles := (∅ : Table Bundle).insert { id := "bun_1" }

theorem loop_reachesCycle : ReachesCycle loopSandbox "bun_1" "graph = build()" emptyBundleDb := by
  refine ⟨{ id := "bun_1" }, by decide, rfl, _, _, rfl, fun hacyclic => hacyclic "draft" ?_⟩
  exact .head (by decide : ("draft", "revise") ∈ _) (.single (by decide : ("revise", "draft") ∈ _))

/-- The endpoint's method accepts the loop that the method with the guard rejects. -/
theorem loop_accepted_and_rejected :
    ((BundleService.attachGraphArtifact loopSandbox "bun_1" "graph = build()" "orchestrator"
        (pathDraws 'x')).run Op.exec emptyBundleDb).1.isOk = true ∧
      ¬ Agree "bun_1"
        ((BundleService.attachGraphArtifact loopSandbox "bun_1" "graph = build()" "orchestrator"
          (pathDraws 'x')).run Op.exec emptyBundleDb)
        ((attachGraphArtifact loopSandbox "bun_1" "graph = build()" "orchestrator"
          (pathDraws 'x')).run Op.exec emptyBundleDb) :=
  ⟨by decide +kernel, not_agree_of_reachesCycle loop_reachesCycle _ _⟩

end GraphAttachmentService

end Krewhub
