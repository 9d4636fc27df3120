import Krewhub.Base.Collapse
import Krewhub.Base.Table

/-!
# Extracting the structure of a graph

`extract_graph_structure` takes the user steps out of a built graph and joins two of them where a path leads
from one to the other through scaffolding only. The steps are gone through in the order in which Python
iterates over a set.
-/

namespace Krewhub

/-- An item of a path; only a destination marker has a `destination_id`. -/
structure PathItem where
  destinationId : Option String := none
  deriving DecidableEq, Repr

structure GraphPath where
  items : List PathItem := []
  deriving DecidableEq, Repr

/-- A node with its key in `graph.nodes` and `type(node).__name__`. -/
structure GraphNode where
  name : String
  typeName : String := "Step"
  deriving DecidableEq, Repr

instance : Keyed GraphNode := ⟨GraphNode.name⟩

/-- What `extract_graph_structure` reads of a graph: `nodes` and `edges_by_source`, where they are
dictionaries. -/
structure BuiltGraph where
  nodes : Option (Table GraphNode)
  edgesBySource : Option (List (String × List GraphPath))

def internalNodeNames : List String := ["__start__", "__end__"]

def internalNodeTypes : List String := ["StartNode", "EndNode", "Fork", "Join"]

def isInternal (node : GraphNode) : Bool :=
  internalNodeNames.contains node.name || internalNodeTypes.contains node.typeName

def destinationOfPath (path : GraphPath) : Option String :=
  path.items.reverse.findSome? (·.destinationId)

/-- An order in which a set is iterated over. -/
structure SetOrder where
  order : List String → List String
  perm : ∀ l, (order l).Perm l

namespace BuiltGraph

/-- `graph.nodes.get(name)`. -/
def nodeAt (g : BuiltGraph) (name : String) : Option GraphNode := g.nodes.bind (·.get name)

/-- `edges_by_source.get(name, []) or []`. -/
def pathsFrom (g : BuiltGraph) (name : String) : List GraphPath :=
  (g.edgesBySource.bind (·.lookup name)).getD []

/-- The loop over the paths that leave a node. -/
def follow (g : BuiltGraph) (recurse : String → Collapse.Walked String → Option (Collapse.Walked String)) :
    List GraphPath → Collapse.Walked String → Option (Collapse.Walked String)
  | [], st => some st
  | path :: paths, st =>
    match destinationOfPath path with
    | none => follow g recurse paths st
    | some destId =>
      match g.nodeAt destId with
      | none => follow g recurse paths st
      | some destNode =>
        if isInternal destNode then (recurse destId st).bind (follow g recurse paths)
        else follow g recurse paths { st with results := st.results ++ [destId] }

/-- `walk`, in an interpreter that lets it call itself to the given depth. -/
def walk (g : BuiltGraph) : Nat → String → Collapse.Walked String → Option (Collapse.Walked String)
  | 0, _, _ => none
  | limit + 1, current, st =>
    if current ∈ st.visited then some st
    else g.follow (g.walk limit) (g.pathsFrom current) { st with visited := current :: st.visited }

def resolveUserDestinations (limit : Nat) (g : BuiltGraph) (sourceId : String) : Option (List String) :=
  (g.follow (g.walk limit) (g.pathsFrom sourceId) {}).map (·.results)

/-- The edges of one source. -/
def addEdges (userNodes : List String) (src : String) (edges : List (String × String)) (dsts : List String) :
    List (String × String) :=
  dsts.foldl (fun edges dst =>
    if dst ∈ userNodes ∧ (src, dst) ∉ edges then edges ++ [(src, dst)] else edges) edges

def extractEdgesFrom (limit : Nat) (g : BuiltGraph) (userNodes : List String) :
    List String → List (String × String) → Option (List (String × String))
  | [], edges => some edges
  | src :: srcs, edges => do
    let dsts ← g.resolveUserDestinations limit src
    extractEdgesFrom limit g userNodes srcs (addEdges userNodes src edges dsts)

/-- `_extract_edges`, on a set in the order it is iterated over. -/
def extractEdges (limit : Nat) (g : BuiltGraph) (userNodes : List String) :
    Option (List (String × String)) :=
  if g.edgesBySource.isNone then some []
  else g.extractEdgesFrom limit userNodes userNodes []

def userSteps (nodes : Table GraphNode) : List String :=
  (nodes.rows.filter (!isInternal ·)).map (·.name)

def extractGraphStructure (limit : Nat) (sets : SetOrder) (g : BuiltGraph) :
    Option (List String × List (String × String)) :=
  match g.nodes with
  | none => some ([], [])
  | some nodes => do
    let edges ← g.extractEdges limit (sets.order (userSteps nodes))
    return (userSteps nodes, edges)

/-! ### The collapsed graph -/

def UserStep (g : BuiltGraph) (name : String) : Prop := ∃ node ∈ g.nodeAt name, isInternal node = false

def isScaffold (g : BuiltGraph) (name : String) : Bool := (g.nodeAt name).any isInternal

/-- The node a path ends in. -/
def destination (g : BuiltGraph) (path : GraphPath) : Option String :=
  (destinationOfPath path).filter fun dest => (g.nodeAt dest).isSome

/-- The nodes the paths out of a node end in. -/
def succs (g : BuiltGraph) (name : String) : List String := (g.pathsFrom name).filterMap g.destination

/-- A path leads from one node to the other, over scaffolding only. -/
def LeadsTo (g : BuiltGraph) (u v : String) : Prop := Collapse.Leads g.succs g.isScaffold u v

/-- The scaffolding of the graph. -/
def scaffolding (g : BuiltGraph) : List String :=
  (g.nodes.elim [] fun nodes => nodes.rows.filter isInternal).map (·.name)

section Walk

variable {g : BuiltGraph} {limit : Nat} {u v : String}

theorem follow_eq (recurse : String → Collapse.Walked String → Option (Collapse.Walked String))
    (paths : List GraphPath) (st : Collapse.Walked String) :
    g.follow recurse paths st = Collapse.follow g.isScaffold recurse (paths.filterMap g.destination) st := by
  induction paths generalizing st with
  | nil => rfl
  | cons path paths ih =>
    rw [follow]
    cases hdest : destinationOfPath path with
    | none =>
      rw [List.filterMap_cons_none (by rw [destination, hdest]; rfl)]
      exact ih st
    | some dest =>
      cases hnode : g.nodeAt dest with
      | none =>
        rw [List.filterMap_cons_none (by rw [destination, hdest]; simp [hnode])]
        simpa [hnode] using ih st
      | some node =>
        have hpath : g.destination path = some dest := by
          rw [destination, hdest]
          simp [hnode]
        rw [List.filterMap_cons_some hpath, Collapse.follow]
        have hscaffold : g.isScaffold dest = isInternal node := by rw [isScaffold, hnode, Option.any_some]
        simp only [hnode, hscaffold, ih, show g.follow recurse paths = _ from funext ih]

theorem walk_eq (limit : Nat) : g.walk limit = Collapse.walk g.succs g.isScaffold limit := by
  induction limit with
  | zero => rfl
  | succ limit ih =>
    funext current st
    rw [walk, Collapse.walk, ih, follow_eq]
    rfl

theorem resolveUserDestinations_eq :
    g.resolveUserDestinations limit u = Collapse.destinations g.succs g.isScaffold limit u := by
  rw [resolveUserDestinations, Collapse.destinations, walk_eq, follow_eq]
  rfl

end Walk

/-! ### The user steps and their edges -/

section Extract

variable {g : BuiltGraph} {limit : Nat} {userNodes srcs : List String} {edges edges' : List (String × String)}
  {src u v : String}

theorem mem_userSteps_iff {nodes : Table GraphNode} (h : g.nodes = some nodes) {name : String} :
    name ∈ userSteps nodes ↔ g.UserStep name := by
  simp only [userSteps, List.mem_map, List.mem_filter, UserStep, nodeAt, h, Option.bind_some, Option.mem_def,
    Table.get_eq_some_iff, Bool.not_eq_true']
  constructor
  · rintro ⟨node, ⟨hmem, hstep⟩, rfl⟩
    exact ⟨node, ⟨hmem, rfl⟩, hstep⟩
  · rintro ⟨node, ⟨hmem, rfl⟩, hstep⟩
    exact ⟨node, ⟨hmem, hstep⟩, rfl⟩

theorem nodup_userSteps (nodes : Table GraphNode) : (userSteps nodes).Nodup :=
  nodes.nodup.sublist (List.filter_sublist.map _)

theorem isScaffold_eq_false (h : g.UserStep u) : g.isScaffold u = false := by
  obtain ⟨node, hnode, hstep⟩ := h
  rw [isScaffold, Option.mem_def.mp hnode, Option.any_some, hstep]

/-- The steps reached from a step are those it leads to. -/
theorem mem_resolveUserDestinations_iff {dsts : List String}
    (h : g.resolveUserDestinations limit u = some dsts) (hv : g.UserStep v) : v ∈ dsts ↔ g.LeadsTo u v := by
  rw [resolveUserDestinations_eq] at h
  rw [Collapse.mem_destinations_iff h]
  simp [LeadsTo, isScaffold_eq_false hv]

theorem nodup_addEdges {dsts : List String} (h : edges.Nodup) : (addEdges userNodes src edges dsts).Nodup := by
  induction dsts generalizing edges with
  | nil => exact h
  | cons dst dsts ih =>
    apply ih
    dsimp only
    split
    · rename_i hnew
      refine List.nodup_append.mpr ⟨h, List.nodup_singleton _, ?_⟩
      rintro e he e' he' rfl
      exact hnew.2 (List.mem_singleton.mp he' ▸ he)
    · exact h

theorem mem_addEdges {dsts : List String} {e : String × String} :
    e ∈ addEdges userNodes src edges dsts ↔ e ∈ edges ∨ e.1 = src ∧ e.2 ∈ userNodes ∧ e.2 ∈ dsts := by
  induction dsts generalizing edges with
  | nil => simp [addEdges]
  | cons dst dsts ih =>
    rw [addEdges, List.foldl_cons]
    refine ih.trans ?_
    obtain ⟨u, v⟩ := e
    by_cases hnew : dst ∈ userNodes ∧ (src, dst) ∉ edges
    · rw [if_pos hnew]
      grind
    · rw [if_neg hnew]
      grind

theorem extractEdgesFrom_spec (h : g.extractEdgesFrom limit userNodes srcs edges = some edges')
    (huser : ∀ v ∈ userNodes, g.UserStep v) (hnodup : edges.Nodup) :
    edges'.Nodup ∧ ∀ u v, (u, v) ∈ edges' ↔ (u, v) ∈ edges ∨ u ∈ srcs ∧ v ∈ userNodes ∧ g.LeadsTo u v := by
  induction srcs generalizing edges with
  | nil =>
    cases h
    exact ⟨hnodup, by simp⟩
  | cons src srcs ih =>
    rw [extractEdgesFrom] at h
    obtain ⟨dsts, hdsts, hrest⟩ := Option.bind_eq_some_iff.mp h
    obtain ⟨hnodup', hmem⟩ := ih hrest (nodup_addEdges hnodup)
    refine ⟨hnodup', fun u v => ?_⟩
    rw [hmem u v, mem_addEdges]
    have hleads : v ∈ userNodes → (v ∈ dsts ↔ g.LeadsTo src v) := fun hv =>
      mem_resolveUserDestinations_iff hdsts (huser v hv)
    grind

theorem mem_scaffolding (h : g.isScaffold u = true) : u ∈ g.scaffolding := by
  rw [isScaffold] at h
  cases hnode : g.nodeAt u with
  | none =>
    rw [hnode] at h
    cases h
  | some node =>
    rw [hnode, Option.any_some] at h
    obtain ⟨nodes, hnodes, hget⟩ := Option.bind_eq_some_iff.mp hnode
    obtain ⟨hmem, rfl⟩ := Table.get_eq_some_iff.mp hget
    rw [scaffolding, hnodes, Option.elim_some]
    exact List.mem_map.mpr ⟨node, List.mem_filter.mpr ⟨hmem, h⟩, rfl⟩

/-- The walk calls itself to the limit only where there is as much scaffolding. -/
theorem exists_extractEdgesFrom (h : g.scaffolding.length < limit) (userNodes srcs : List String)
    (edges : List (String × String)) : ∃ edges', g.extractEdgesFrom limit userNodes srcs edges = some edges' := by
  induction srcs generalizing edges with
  | nil => exact ⟨edges, rfl⟩
  | cons src srcs ih =>
    obtain ⟨dsts, hdsts⟩ := Collapse.exists_destinations (fun x z _ hz => mem_scaffolding hz) h src
    rw [← resolveUserDestinations_eq] at hdsts
    obtain ⟨edges', hrest⟩ := ih (addEdges userNodes src edges dsts)
    exact ⟨edges', by rw [extractEdgesFrom, hdsts]; exact hrest⟩

theorem leadsTo_of_no_edges (h : g.edgesBySource = none) : ¬ g.LeadsTo u v := by
  have hsuccs : ∀ u, g.succs u = [] := by
    intro u
    rw [succs, pathsFrom, h]
    rfl
  rintro (hedge | ⟨hedge, -, -⟩) <;> simp [hsuccs] at hedge

theorem extractEdges_spec (h : g.extractEdges limit userNodes = some edges)
    (huser : ∀ v ∈ userNodes, g.UserStep v) :
    edges.Nodup ∧ ∀ u v, (u, v) ∈ edges ↔ u ∈ userNodes ∧ v ∈ userNodes ∧ g.LeadsTo u v := by
  rw [extractEdges] at h
  split at h
  · rename_i hnone
    cases h
    rw [Option.isNone_iff_eq_none] at hnone
    exact ⟨List.nodup_nil, fun u v => by simp [leadsTo_of_no_edges hnone]⟩
  · obtain ⟨hnodup, hmem⟩ := extractEdgesFrom_spec h huser List.nodup_nil
    exact ⟨hnodup, fun u v => by rw [hmem u v]; simp⟩

/-- What is extracted, where the recursion does not run into its limit. -/
theorem of_extractGraphStructure {sets : SetOrder} {nodeIds : List String}
    (h : g.extractGraphStructure limit sets = some (nodeIds, edges)) :
    nodeIds.Nodup ∧ (∀ name, name ∈ nodeIds ↔ g.UserStep name) ∧ edges.Nodup ∧
      (∀ u v, (u, v) ∈ edges ↔ g.UserStep u ∧ g.UserStep v ∧ g.LeadsTo u v) ∧
      ∀ e ∈ edges, e.1 ∈ nodeIds ∧ e.2 ∈ nodeIds := by
  rw [extractGraphStructure] at h
  cases hnodes : g.nodes with
  | none =>
    rw [hnodes] at h
    cases h
    have hno : ∀ name, ¬ g.UserStep name := by
      rintro name ⟨node, hnode, -⟩
      rw [nodeAt, hnodes] at hnode
      cases hnode
    simp [hno]
  | some nodes =>
    rw [hnodes] at h
    obtain ⟨found, hedges, hreturn⟩ := Option.bind_eq_some_iff.mp h
    cases hreturn
    have hperm := sets.perm (userSteps nodes)
    have huser : ∀ v ∈ sets.order (userSteps nodes), g.UserStep v :=
      fun v hv => (mem_userSteps_iff hnodes).mp (hperm.mem_iff.mp hv)
    obtain ⟨hnodup, hmem⟩ := extractEdges_spec hedges huser
    have hiff : ∀ u v, (u, v) ∈ edges ↔ g.UserStep u ∧ g.UserStep v ∧ g.LeadsTo u v := by
      intro u v
      rw [hmem, hperm.mem_iff, hperm.mem_iff, mem_userSteps_iff hnodes, mem_userSteps_iff hnodes]
    refine ⟨nodup_userSteps nodes, fun name => mem_userSteps_iff hnodes, hnodup, hiff, ?_⟩
    rintro ⟨u, v⟩ he
    obtain ⟨hu, hv, -⟩ := (hiff u v).mp he
    exact ⟨(mem_userSteps_iff hnodes).mpr hu, (mem_userSteps_iff hnodes).mpr hv⟩

theorem limit_le_of_extractGraphStructure {sets : SetOrder} (h : g.extractGraphStructure limit sets = none) :
    limit ≤ g.scaffolding.length := by
  by_contra hlt
  rw [Nat.not_le] at hlt
  rw [extractGraphStructure] at h
  split at h
  · cases h
  · rename_i nodes _
    obtain ⟨edges, hedges⟩ := exists_extractEdgesFrom hlt (sets.order (userSteps nodes))
      (sets.order (userSteps nodes)) []
    rw [extractEdges, hedges] at h
    split at h <;> cases h

end Extract

end BuiltGraph

end Krewhub
