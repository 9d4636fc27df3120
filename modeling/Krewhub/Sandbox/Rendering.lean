import Krewhub.Sandbox.Renderer
import Krewhub.Services.BundleService

/-!
# Rendering a graph

`render_graph` and the dependencies `attach_graph_artifact` takes from the edges. The sources of the edges come
in the order of a Python set, which differs from one process to the next, and so does the list of edges, unless
all edges leave one step.
-/

namespace Krewhub

structure RenderedGraph where
  mermaid : String
  nodeCount : Nat
  edgeCount : Nat
  deriving DecidableEq, Repr

def validDirections : List String := ["TD", "TB", "BT", "LR", "RL"]

def humanize (nodeId : String) : String :=
  Text.title (String.ofList ((spaceUppers nodeId.toList).map fun c => if c = '_' then ' ' else c))

/-- `re.sub(r"[^a-zA-Z0-9_]", "_", node_id)`. -/
def safeId (nodeId : String) : String :=
  String.ofList (nodeId.toList.map fun c => if c.isAlphanum || c == '_' then c else '_')

def escapeMermaid (text : String) : String :=
  String.ofList (text.toList.flatMap fun c =>
    if c = '\\' then ['\\', '\\'] else if c = '"' then ['\\', '"'] else [c])

/-- The lines of the flowchart after the first. -/
def mermaidLines (nodeIds : List String) (edges : List (String × String)) : List String :=
  let incoming (nid : String) := (edges.filter (·.2 == nid)).map (·.1)
  let outgoing (nid : String) := (edges.filter (·.1 == nid)).map (·.2)
  let roots := nodeIds.filter fun nid => (incoming nid).isEmpty
  let leaves := nodeIds.filter fun nid => (outgoing nid).isEmpty
  (nodeIds.map fun nid => "    " ++ safeId nid ++ "[\"" ++ escapeMermaid (humanize nid) ++ "\"]") ++
  (edges.map fun e => "    " ++ safeId e.1 ++ " --> " ++ safeId e.2) ++
  (if roots.isEmpty then [] else
    ["    classDef root fill:#e8f5e9,stroke:#4caf50,stroke-width:2px",
      "    class " ++ ",".intercalate (roots.map safeId) ++ " root"]) ++
  (if leaves.isEmpty then [] else
    ["    classDef leaf fill:#e3f2fd,stroke:#2196f3,stroke-width:2px",
      "    class " ++ ",".intercalate (leaves.map safeId) ++ " leaf"])

/-- A set that a step comes first in. -/
def SetOrder.first (u : String) : SetOrder where
  order l := if u ∈ l then u :: l.erase u else l
  perm l := by
    split
    · rename_i hu
      exact (List.perm_cons_erase hu).symm
    · rfl

namespace BuiltGraph

def renderGraph (limit : Nat) (sets : SetOrder) (g : BuiltGraph) (direction : String) :
    Except Exn RenderedGraph :=
  if direction ∉ validDirections then
    .error (.valueError ("invalid direction " ++ pyRepr direction ++
      "; must be one of ['BT', 'LR', 'RL', 'TB', 'TD']"))
  else match g.extractGraphStructure limit sets with
    | none => .error .recursionError
    | some (nodeIds, edges) =>
      if nodeIds.isEmpty then .ok ⟨"flowchart " ++ direction, 0, 0⟩
      else .ok ⟨"\n".intercalate (("flowchart " ++ direction) :: mermaidLines nodeIds edges), nodeIds.length,
        edges.length⟩

/-- The structure that is extracted, as the bundle service takes it. -/
def graphStructure (limit : Nat) (sets : SetOrder) (g : BuiltGraph) : Option GraphStructure :=
  match h : g.extractGraphStructure limit sets with
  | none => none
  | some extracted =>
    some ⟨extracted.1, extracted.2, (of_extractGraphStructure h).1, (of_extractGraphStructure h).2.2.2.2⟩

/-- What comes of a graph is the same for any two orders of the sets: the steps and their edges, the steps that
each step depends on, and the text. -/
def Reproducible (limit : Nat) (g : BuiltGraph) : Prop :=
  ∀ sets sets' : SetOrder,
    g.extractGraphStructure limit sets = g.extractGraphStructure limit sets' ∧
    (∀ nid, (g.graphStructure limit sets).map (·.incoming nid) =
      (g.graphStructure limit sets').map (·.incoming nid)) ∧
    ∀ direction, g.renderGraph limit sets direction = g.renderGraph limit sets' direction

/-- The user steps from which a path leads to a user step are one at most. -/
def OneSource (g : BuiltGraph) : Prop :=
  ∀ u v u' v', g.UserStep u → g.UserStep v → g.LeadsTo u v →
    g.UserStep u' → g.UserStep v' → g.LeadsTo u' v' → u = u'

/-! ### The edges are those of the steps, one step after the other -/

section Blocks

variable {g : BuiltGraph} {limit : Nat} {userNodes userNodes' srcs : List String} {src : String}
  {edges edges' : List (String × String)} {dsts : List String}

theorem addEdges_append (h : ∀ e ∈ edges, e.1 ≠ src) (own : List (String × String)) :
    addEdges userNodes src (edges ++ own) dsts = edges ++ addEdges userNodes src own dsts := by
  induction dsts generalizing own with
  | nil => rfl
  | cons dst dsts ih =>
    have hnot : (src, dst) ∉ edges := fun hmem => h _ hmem rfl
    rw [addEdges, addEdges, List.foldl_cons, List.foldl_cons]
    by_cases hnew : dst ∈ userNodes ∧ (src, dst) ∉ own
    · rw [if_pos ⟨hnew.1, by simp [hnot, hnew.2]⟩, if_pos hnew, List.append_assoc]
      exact ih _
    · rw [if_neg (by simpa [hnot] using hnew), if_neg hnew]
      exact ih _

/-- The edges out of one step. -/
def block (limit : Nat) (g : BuiltGraph) (userNodes : List String) (src : String) : List (String × String) :=
  addEdges userNodes src [] ((g.resolveUserDestinations limit src).getD [])

theorem source_of_mem_block {e : String × String} (h : e ∈ g.block limit userNodes src) : e.1 = src := by
  rw [block, mem_addEdges] at h
  exact (h.resolve_left List.not_mem_nil).1

theorem block_congr (h : ∀ v, v ∈ userNodes' ↔ v ∈ userNodes) :
    g.block limit userNodes' src = g.block limit userNodes src := by
  simp only [block, addEdges, h]

/-- The edges of all steps are those of each, in the order of the set. -/
theorem extractEdgesFrom_eq (hnodup : srcs.Nodup) (hnew : ∀ e ∈ edges, e.1 ∉ srcs)
    (h : g.extractEdgesFrom limit userNodes srcs edges = some edges') :
    edges' = edges ++ srcs.flatMap (g.block limit userNodes) := by
  induction srcs generalizing edges with
  | nil =>
    cases h
    simp
  | cons src srcs ih =>
    rw [extractEdgesFrom] at h
    obtain ⟨dsts, hdsts, hrest⟩ := Option.bind_eq_some_iff.mp h
    obtain ⟨hsrc, hnodup⟩ := List.nodup_cons.mp hnodup
    have hadd : addEdges userNodes src edges dsts = edges ++ g.block limit userNodes src := by
      rw [block, hdsts, Option.getD_some, ← addEdges_append (fun e he heq => hnew e he ?_) [], List.append_nil]
      rw [heq]
      exact List.mem_cons_self
    rw [hadd] at hrest
    rw [ih hnodup (fun e he => ?_) hrest, List.flatMap_cons, List.append_assoc]
    rcases List.mem_append.mp he with he | he
    · exact fun hmem => hnew e he (List.mem_cons_of_mem _ hmem)
    · rw [source_of_mem_block he]
      exact hsrc

theorem flatMap_eq_of_unique {α β : Type} {f : α → List β} {l : List α} {a : α} (ha : a ∈ l) (hnodup : l.Nodup)
    (hothers : ∀ x ∈ l, x ≠ a → f x = []) : l.flatMap f = f a := by
  obtain ⟨before, rest, rfl⟩ := List.append_of_mem ha
  rw [List.nodup_middle, List.nodup_cons, List.mem_append, not_or] at hnodup
  have hbefore : before.flatMap f = [] := List.flatMap_eq_nil_iff.mpr fun x hx =>
    hothers x (List.mem_append_left _ hx) fun heq => hnodup.1.1 (heq ▸ hx)
  have hrest : rest.flatMap f = [] := List.flatMap_eq_nil_iff.mpr fun x hx =>
    hothers x (List.mem_append_right _ (List.mem_cons_of_mem _ hx)) fun heq => hnodup.1.2 (heq ▸ hx)
  rw [List.flatMap_append, List.flatMap_cons, hbefore, hrest, List.nil_append, List.append_nil]

/-- Where at most one step has edges, the order of the steps does not matter. -/
theorem flatMap_block_perm {srcs' : List String} (hperm : srcs'.Perm srcs) (hnodup : srcs.Nodup)
    (hone : ∀ u ∈ srcs, ∀ u' ∈ srcs, g.block limit userNodes u ≠ [] → g.block limit userNodes u' ≠ [] → u = u') :
    srcs'.flatMap (g.block limit userNodes) = srcs.flatMap (g.block limit userNodes) := by
  by_cases hsome : ∃ u ∈ srcs, g.block limit userNodes u ≠ []
  · obtain ⟨u, hu, hblock⟩ := hsome
    have hothers : ∀ x ∈ srcs, x ≠ u → g.block limit userNodes x = [] := by
      intro x hx hne
      by_contra hx'
      exact hne (hone x hx u hu hx' hblock)
    rw [flatMap_eq_of_unique hu hnodup hothers, flatMap_eq_of_unique (hperm.mem_iff.mpr hu)
      (hperm.nodup_iff.mpr hnodup) fun x hx => hothers x (hperm.mem_iff.mp hx)]
  · have hall : ∀ u ∈ srcs, g.block limit userNodes u = [] := by
      intro u hu
      by_contra hblock
      exact hsome ⟨u, hu, hblock⟩
    rw [List.flatMap_eq_nil_iff.mpr hall,
      List.flatMap_eq_nil_iff.mpr fun u hu => hall u (hperm.mem_iff.mp hu)]

end Blocks

/-! ### Two runs -/

section Runs

variable {g : BuiltGraph} {limit : Nat} {nodes : Table GraphNode} {sets sets' : SetOrder}

theorem extractEdges_eq (userNodes : List String) :
    g.extractEdges limit userNodes = g.extractEdgesFrom limit userNodes userNodes [] := by
  rw [extractEdges]
  cases hedges : g.edgesBySource with
  | some paths => rfl
  | none =>
    have hresolve : ∀ src, g.resolveUserDestinations limit src = some [] := by
      intro src
      rw [resolveUserDestinations, pathsFrom, hedges]
      rfl
    have hnil : ∀ srcs, g.extractEdgesFrom limit userNodes srcs [] = some [] := by
      intro srcs
      induction srcs with
      | nil => rfl
      | cons src srcs ih =>
        rw [extractEdgesFrom, hresolve]
        exact ih
    rw [hnil]
    rfl

/-- The edges of a run are those of the steps, in the order of its sets. -/
theorem extractGraphStructure_eq (hdepth : g.scaffolding.length < limit) (hnodes : g.nodes = some nodes)
    (sets : SetOrder) :
    g.extractGraphStructure limit sets = some (userSteps nodes,
      (sets.order (userSteps nodes)).flatMap (g.block limit (userSteps nodes))) := by
  have hperm := sets.perm (userSteps nodes)
  obtain ⟨edges, hedges⟩ := exists_extractEdgesFrom hdepth (sets.order (userSteps nodes))
    (sets.order (userSteps nodes)) []
  have heq := extractEdgesFrom_eq (hperm.nodup_iff.mpr (nodup_userSteps nodes)) (by simp) hedges
  have hblocks : g.block limit (sets.order (userSteps nodes)) = g.block limit (userSteps nodes) :=
    funext fun src => block_congr fun v => hperm.mem_iff
  rw [List.nil_append, hblocks] at heq
  rw [extractGraphStructure, hnodes]
  dsimp only
  rw [extractEdges_eq, hedges, heq]
  rfl

theorem block_ne_nil_iff (hdepth : g.scaffolding.length < limit) (hnodes : g.nodes = some nodes) {u : String} :
    g.block limit (userSteps nodes) u ≠ [] ↔ ∃ v, g.UserStep v ∧ g.LeadsTo u v := by
  obtain ⟨dsts, hdsts⟩ := Collapse.exists_destinations (fun x z _ hz => mem_scaffolding hz) hdepth u
  rw [← resolveUserDestinations_eq] at hdsts
  have hmem : ∀ v, (u, v) ∈ g.block limit (userSteps nodes) u ↔ g.UserStep v ∧ g.LeadsTo u v := by
    intro v
    rw [block, hdsts, Option.getD_some, mem_addEdges, mem_userSteps_iff hnodes]
    constructor
    · rintro (hnone | ⟨-, hv, hdst⟩)
      · cases hnone
      · exact ⟨hv, (mem_resolveUserDestinations_iff hdsts hv).mp hdst⟩
    · rintro ⟨hv, hleads⟩
      exact .inr ⟨rfl, hv, (mem_resolveUserDestinations_iff hdsts hv).mpr hleads⟩
  constructor
  · intro hblock
    obtain ⟨⟨src, v⟩, he⟩ := List.exists_mem_of_ne_nil _ hblock
    obtain rfl : src = u := source_of_mem_block he
    exact ⟨v, (hmem v).mp he⟩
  · rintro ⟨v, hv⟩
    exact List.ne_nil_of_mem ((hmem v).mpr hv)

theorem map_graphStructure (sets : SetOrder) (nid : String) :
    (g.graphStructure limit sets).map (·.incoming nid) =
      (g.extractGraphStructure limit sets).map fun extracted =>
        (extracted.2.filter (·.2 == nid)).map (·.1) := by
  unfold graphStructure
  split
  · rename_i h
    simp [h]
  · rename_i h
    simp [h, GraphStructure.incoming]

/-- All that comes of a graph comes of its structure. -/
theorem reproducible_iff : g.Reproducible limit ↔
    ∀ sets sets' : SetOrder, g.extractGraphStructure limit sets = g.extractGraphStructure limit sets' := by
  refine ⟨fun h sets sets' => (h sets sets').1, fun h sets sets' => ⟨h sets sets', fun nid => ?_, fun direction => ?_⟩⟩
  · rw [map_graphStructure, map_graphStructure, h sets sets']
  · rw [renderGraph, renderGraph, h sets sets']

end Runs

/-- Two runs over one graph give the same whatever the orders of their sets, exactly where the edges of the graph
leave one step. -/
theorem rendering_reproducible_iff {g : BuiltGraph} {limit : Nat} (hdepth : g.scaffolding.length < limit) :
    g.Reproducible limit ↔ g.OneSource := by
  rw [reproducible_iff]
  constructor
  · intro h u v u' v' hu hv huv hu' hv' huv'
    obtain ⟨node, hnode, -⟩ := id hu
    obtain ⟨nodes, hnodes, -⟩ := Option.bind_eq_some_iff.mp hnode
    have hfirst : ∀ w, g.UserStep w → (∃ x, g.UserStep x ∧ g.LeadsTo w x) →
        ∃ e rest, g.extractGraphStructure limit (.first w) = some (userSteps nodes, e :: rest) ∧ e.1 = w := by
      intro w hw hleads
      obtain ⟨e, own, hblock⟩ := List.exists_cons_of_ne_nil ((block_ne_nil_iff hdepth hnodes).mpr hleads)
      refine ⟨e, own ++ ((userSteps nodes).erase w).flatMap (g.block limit (userSteps nodes)), ?_, ?_⟩
      · rw [extractGraphStructure_eq hdepth hnodes, SetOrder.first]
        dsimp only
        rw [if_pos ((mem_userSteps_iff hnodes).mpr hw), List.flatMap_cons, hblock, List.cons_append]
      · apply source_of_mem_block
        rw [hblock]
        exact List.mem_cons_self
    obtain ⟨e, rest, hextract, rfl⟩ := hfirst u hu ⟨v, hv, huv⟩
    obtain ⟨e', rest', hextract', rfl⟩ := hfirst u' hu' ⟨v', hv', huv'⟩
    rw [h (.first e.1) (.first e'.1), hextract'] at hextract
    simp only [Option.some.injEq, Prod.mk.injEq, List.cons.injEq] at hextract
    rw [hextract.2.1]
  · intro hone sets sets'
    cases hnodes : g.nodes with
    | none => rw [extractGraphStructure, extractGraphStructure, hnodes]
    | some nodes =>
      have hsame : ∀ sets : SetOrder, (sets.order (userSteps nodes)).flatMap (g.block limit (userSteps nodes)) =
          (userSteps nodes).flatMap (g.block limit (userSteps nodes)) := by
        intro sets
        refine flatMap_block_perm (sets.perm _) (nodup_userSteps nodes) fun u hu u' hu' hblock hblock' => ?_
        obtain ⟨v, hv, huv⟩ := (block_ne_nil_iff hdepth hnodes).mp hblock
        obtain ⟨v', hv', huv'⟩ := (block_ne_nil_iff hdepth hnodes).mp hblock'
        exact hone u v u' v' ((mem_userSteps_iff hnodes).mp hu) hv huv ((mem_userSteps_iff hnodes).mp hu') hv' huv'
      rw [extractGraphStructure_eq hdepth hnodes, extractGraphStructure_eq hdepth hnodes, hsame sets, hsame sets']

section Fork

private def edgeTo (dest : String) : GraphPath := ⟨[{}, { destinationId := some dest }]⟩

/-- A step before two others, behind a fork. -/
private def forked : BuiltGraph where
  nodes := some ⟨[⟨"__start__", "StartNode"⟩, ⟨"a", "Step"⟩, ⟨"fork", "Fork"⟩, ⟨"b", "Step"⟩, ⟨"c", "Step"⟩],
    by decide⟩
  edgesBySource := some [("__start__", [edgeTo "a"]), ("a", [edgeTo "fork"]), ("fork", [edgeTo "b", edgeTo "c"])]

theorem forked_reproducible : forked.Reproducible 1000 := by
  have hextract : forked.extractGraphStructure 1000 ⟨id, fun _ => .rfl⟩ =
      some (["a", "b", "c"], [("a", "b"), ("a", "c")]) := by decide +kernel
  obtain ⟨-, -, -, hedges, -⟩ := of_extractGraphStructure hextract
  refine (rendering_reproducible_iff (by decide)).mpr fun u v u' v' hu hv huv hu' hv' huv' => ?_
  have he := (hedges u v).mpr ⟨hu, hv, huv⟩
  have he' := (hedges u' v').mpr ⟨hu', hv', huv'⟩
  simp only [List.mem_cons, Prod.mk.injEq, List.not_mem_nil, or_false] at he he'
  rcases he with ⟨rfl, -⟩ | ⟨rfl, -⟩ <;> rcases he' with ⟨rfl, -⟩ | ⟨rfl, -⟩ <;> rfl

/-- Two steps before another. -/
private def joined : BuiltGraph where
  nodes := some ⟨[⟨"a", "Step"⟩, ⟨"b", "Step"⟩, ⟨"c", "Step"⟩], by decide⟩
  edgesBySource := some [("a", [edgeTo "c"]), ("b", [edgeTo "c"])]

theorem joined_edges_differ :
    (joined.extractGraphStructure 1000 ⟨id, fun _ => .rfl⟩).map (·.2) = some [("a", "c"), ("b", "c")] ∧
    (joined.extractGraphStructure 1000 ⟨List.reverse, List.reverse_perm⟩).map (·.2) =
      some [("b", "c"), ("a", "c")] ∧ ¬ joined.Reproducible 1000 := by
  refine ⟨by decide, by decide, fun h => ?_⟩
  have hsame := (h ⟨id, fun _ => .rfl⟩ ⟨List.reverse, List.reverse_perm⟩).1
  exact absurd hsame (by decide)

end Fork

end BuiltGraph

end Krewhub
