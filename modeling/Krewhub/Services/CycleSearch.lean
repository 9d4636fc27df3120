import Krewhub.Services.GraphAttachmentService

/-!
# The loop of `_edges_have_cycle`

The three-colour search as the code runs it, one turn of its loops after the other: a dictionary of
colours, a stack of nodes that are grey, each with an iterator over its successors that goes on where it
was left, and the roots that have not been looked at. A key that is missing raises.

A run of the turns is the walk of the search from all roots, with black and grey told by the dictionary
where the walk tells them by two lists. So it ends, without an exception, and with what the search decides.
-/

namespace Krewhub

namespace GraphAttachmentService

inductive Colour where
  | white
  | grey
  | black
  deriving DecidableEq, Repr

/-- `adj` when its loops are through. -/
def adjacency (nodeIds : List String) (edges : List (String × String)) : Adjacency String :=
  edges.foldl (fun adj e => (adj.addEdge e.1 e.2).addNode e.2)
    (nodeIds.foldl (fun adj nid => adj.addNode nid) [])

/-- The local variables; the top of the stack comes first, and an iterator is what it has yet to give. -/
structure Search where
  colour : String → Option Colour
  stack : List (String × List String)
  roots : List String

/-- How a turn ends. -/
inductive Turned where
  | again (s : Search)
  | returned (cyclic : Bool)
  | keyError (nid : String)

/-- `colour = {nid: WHITE for nid in adj}`, and the roots `list(adj)`. -/
def Search.start (adj : Adjacency String) : Search where
  colour nid := (adj.lookup nid).map fun _ => .white
  stack := []
  roots := adj.map (·.1)

/-- `colour[nid] = GREY`, and the node is pushed with an iterator over `adj[nid]`. -/
def Search.push (adj : Adjacency String) (s : Search) (nid : String) : Turned :=
  match adj.lookup nid with
  | none => .keyError nid
  | some succs => .again
      { s with colour := Function.update s.colour nid (some .grey), stack := (nid, succs) :: s.stack }

/-- One turn: of the outer loop while the stack is empty, else of the loop over the iterator on its top. -/
def Search.turn (adj : Adjacency String) (s : Search) : Turned :=
  match s.stack, s.roots with
  | [], [] => .returned false
  | [], root :: roots =>
    match s.colour root with
    | none => .keyError root
    | some .white => Search.push adj { s with roots } root
    | some _ => .again { s with roots }
  | (node, []) :: stack, _ =>
    .again { s with colour := Function.update s.colour node (some .black), stack }
  | (node, nxt :: it) :: stack, _ =>
    match s.colour nxt with
    | none => .keyError nxt
    | some .grey => .returned true
    | some .white => Search.push adj { s with stack := (node, it) :: stack } nxt
    | some .black => .again { s with stack := (node, it) :: stack }

/-- What comes of so many turns: nothing yet, a result, or the key that was missing. -/
def Search.run (adj : Adjacency String) : Nat → Search → Option (Except String Bool)
  | 0, _ => none
  | n + 1, s =>
    match s.turn adj with
    | .again s => s.run adj n
    | .returned cyclic => some (.ok cyclic)
    | .keyError nid => some (.error nid)

/-- `_edges_have_cycle` for so many turns. -/
def edgesHaveCycleFor (turns : Nat) (nodeIds : List String) (edges : List (String × String)) :
    Option (Except String Bool) :=
  (Search.start (adjacency nodeIds edges)).run (adjacency nodeIds edges) turns

/-! ### The adjacency map -/

theorem edge_adjacency {nodeIds : List String} {edges : List (String × String)} {x y : String} :
    (adjacency nodeIds edges).Edge x y ↔ (x, y) ∈ edges := by
  have hnodes : ∀ adj : Adjacency String,
      (nodeIds.foldl (fun adj nid => adj.addNode nid) adj).Edge x y ↔ adj.Edge x y := by
    induction nodeIds with
    | nil => exact fun adj => Iff.rfl
    | cons nid nodeIds ih => exact fun adj => (ih _).trans Adjacency.edge_addNode
  rw [adjacency, edge_foldl, hnodes, or_iff_right]
  exact List.not_mem_nil

theorem closed_adjacency (nodeIds : List String) (edges : List (String × String)) :
    (adjacency nodeIds edges).Closed := by
  have hedges : ∀ adj : Adjacency String, adj.Closed →
      Adjacency.Closed (edges.foldl (fun adj e => (adj.addEdge e.1 e.2).addNode e.2) adj) := by
    induction edges with
    | nil => exact fun adj h => h
    | cons e edges ih => exact fun adj h => ih _ h.addEdge
  have hnodes : ∀ adj : Adjacency String, adj.Closed →
      Adjacency.Closed (nodeIds.foldl (fun adj nid => adj.addNode nid) adj) := by
    induction nodeIds with
    | nil => exact fun adj h => h
    | cons nid nodeIds ih =>
      intro adj h
      apply ih
      intro x y hxy
      rw [Adjacency.edge_addNode] at hxy
      exact Adjacency.mem_keys_addNode.mpr (.inr (h x y hxy))
  apply hedges
  apply hnodes
  intro x y hxy
  exact absurd hxy List.not_mem_nil

/-! ### Turns and the walk -/

section Walk

variable {adj : Adjacency String} {colour : String → Option Colour} {black : List String}
  {stack : List (String × List String)} {roots : List String} {node nxt : String} {it : List String}

/-- Enough turns end with the result. -/
def Search.Ends (adj : Adjacency String) (s : Search) (cyclic : Bool) : Prop :=
  ∃ turns, s.run adj turns = some (.ok cyclic)

theorem Search.ends_of_turn {s s' : Search} {cyclic : Bool} (hturn : s.turn adj = .again s')
    (h : s'.Ends adj cyclic) : s.Ends adj cyclic := by
  obtain ⟨turns, hrun⟩ := h
  refine ⟨turns + 1, ?_⟩
  rw [Search.run, hturn]
  exact hrun

theorem Search.ends_of_returned {s : Search} {cyclic : Bool} (hturn : s.turn adj = .returned cyclic) :
    s.Ends adj cyclic := by
  refine ⟨1, ?_⟩
  rw [Search.run, hturn]

/-- More turns than enough change nothing. -/
theorem Search.run_of_le {s : Search} {out : Except String Bool} {turns turns' : Nat}
    (hle : turns ≤ turns') (h : s.run adj turns = some out) : s.run adj turns' = some out := by
  induction turns generalizing s turns' with
  | zero => cases h
  | succ n ih =>
    obtain ⟨m, rfl⟩ : ∃ m, turns' = m + 1 := ⟨turns' - 1, by omega⟩
    rw [Search.run] at h ⊢
    cases hturn : s.turn adj with
    | again s' =>
      rw [hturn] at h
      exact ih (by omega) h
    | returned cyclic =>
      rw [hturn] at h
      exact h
    | keyError nid =>
      rw [hturn] at h
      exact h

/-- The dictionary says of every node what the two lists of the walk say. -/
structure Marks (adj : Adjacency String) (colour : String → Option Colour) (black : List String)
    (stack : List (String × List String)) : Prop where
  colour_eq : ∀ nid, colour nid =
    if nid ∈ stack.map (·.1) then some .grey
    else if nid ∈ black then some .black
    else (adj.lookup nid).map fun _ => .white
  nodup : (stack.map (·.1) ++ black).Nodup
  keys : ∀ e ∈ stack, ∀ nid ∈ e.2, nid ∈ adj.map (·.1)

theorem Marks.start : Marks adj (Search.start adj).colour [] [] :=
  ⟨fun _ => rfl, List.nodup_nil, fun _ he => absurd he List.not_mem_nil⟩

theorem Marks.skip (h : Marks adj colour black ((node, nxt :: it) :: stack)) :
    Marks adj colour black ((node, it) :: stack) where
  colour_eq := h.colour_eq
  nodup := h.nodup
  keys := by
    refine List.forall_mem_cons.mpr ⟨fun nid hnid => ?_, fun e he => h.keys e (List.mem_cons_of_mem _ he)⟩
    exact h.keys _ List.mem_cons_self nid (List.mem_cons_of_mem _ hnid)

theorem Marks.pop (h : Marks adj colour black ((node, []) :: stack)) :
    Marks adj (Function.update colour node (some .black)) (node :: black) stack where
  colour_eq nid := by
    have hnot : node ∉ stack.map (·.1) := fun hmem =>
      (List.nodup_cons.mp h.nodup).1 (List.mem_append_left _ hmem)
    by_cases hnid : nid = node
    · rw [hnid, Function.update_self, if_neg hnot, if_pos List.mem_cons_self]
    · rw [Function.update_of_ne hnid, h.colour_eq]
      simp only [List.map_cons, List.mem_cons, hnid, false_or]
  nodup := (List.perm_middle.nodup_iff).mpr h.nodup
  keys e he := h.keys e (List.mem_cons_of_mem _ he)

theorem Marks.push (hclosed : adj.Closed) (h : Marks adj colour black stack)
    (hgrey : nxt ∉ stack.map (·.1)) (hblack : nxt ∉ black) :
    Marks adj (Function.update colour nxt (some .grey)) black ((nxt, adj.succs nxt) :: stack) where
  colour_eq nid := by
    by_cases hnid : nid = nxt
    · rw [hnid, Function.update_self, List.map_cons, if_pos List.mem_cons_self]
    · rw [Function.update_of_ne hnid, h.colour_eq]
      simp only [List.map_cons, List.mem_cons, hnid, false_or]
  nodup := List.nodup_cons.mpr ⟨fun hmem => (List.mem_append.mp hmem).elim hgrey hblack, h.nodup⟩
  keys := List.forall_mem_cons.mpr ⟨fun nid hnid => hclosed nxt nid hnid, h.keys⟩

theorem Search.push_eq {s : Search} (hkey : nxt ∈ adj.map (·.1)) :
    s.push adj nxt = .again
      { s with
        colour := Function.update s.colour nxt (some .grey)
        stack := (nxt, adj.succs nxt) :: s.stack } := by
  rw [Search.push, Adjacency.lookup_eq_some_of_mem_keys hkey]

theorem Marks.white (h : Marks adj colour black stack) (hkey : nxt ∈ adj.map (·.1))
    (hgrey : nxt ∉ stack.map (·.1)) (hblack : nxt ∉ black) : colour nxt = some .white := by
  rw [h.colour_eq, if_neg hgrey, if_neg hblack, Adjacency.lookup_eq_some_of_mem_keys hkey]
  rfl

/-- Turns from a stack: they end on a cycle, or the stack empties with what the walk leaves black. -/
theorem ends_of_walk (hclosed : adj.Closed) (h : Marks adj colour black stack) :
    (adj.walk black stack = none → Search.Ends adj ⟨colour, stack, roots⟩ true) ∧
      ∀ black', adj.walk black stack = some black' →
        ∃ colour', Marks adj colour' black' [] ∧ ∀ cyclic,
          Search.Ends adj ⟨colour', [], roots⟩ cyclic → Search.Ends adj ⟨colour, stack, roots⟩ cyclic := by
  fun_induction Adjacency.walk adj black stack generalizing colour with
  | case1 black =>
    refine ⟨fun hnone => (by cases hnone), fun black' hblack => ?_⟩
    obtain rfl := Option.some.inj hblack
    exact ⟨colour, h, fun _ hends => hends⟩
  | case2 black node stack ih =>
    obtain ⟨hcycle, hsettled⟩ := ih h.pop
    refine ⟨fun hnone => Search.ends_of_turn rfl (hcycle hnone), fun black' hblack => ?_⟩
    obtain ⟨colour', hmarks, hends⟩ := hsettled black' hblack
    exact ⟨colour', hmarks, fun cyclic hc => Search.ends_of_turn rfl (hends cyclic hc)⟩
  | case3 black node nxt it stack hgrey =>
    refine ⟨fun _ => Search.ends_of_returned ?_, fun black' hblack => by cases hblack⟩
    have hcolour : colour nxt = some .grey := by
      rw [h.colour_eq, if_pos]
      simpa using hgrey
    simp only [Search.turn, hcolour]
  | case4 black node nxt it stack hgrey hblack ih =>
    have hcolour : colour nxt = some .black := by
      rw [h.colour_eq, if_neg, if_pos hblack]
      simpa using hgrey
    have hturn : Search.turn adj ⟨colour, (node, nxt :: it) :: stack, roots⟩ =
        .again ⟨colour, (node, it) :: stack, roots⟩ := by
      simp only [Search.turn, hcolour]
    obtain ⟨hcycle, hsettled⟩ := ih h.skip
    refine ⟨fun hnone => Search.ends_of_turn hturn (hcycle hnone), fun black' hwalk => ?_⟩
    obtain ⟨colour', hmarks, hends⟩ := hsettled black' hwalk
    exact ⟨colour', hmarks, fun cyclic hc => Search.ends_of_turn hturn (hends cyclic hc)⟩
  | case5 black node nxt it stack hgrey hblack ih =>
    have hnot : nxt ∉ ((node, it) :: stack).map (·.1) := by simpa using hgrey
    have hkey : nxt ∈ adj.map (·.1) := h.keys _ List.mem_cons_self nxt List.mem_cons_self
    have hturn : Search.turn adj ⟨colour, (node, nxt :: it) :: stack, roots⟩ =
        .again ⟨Function.update colour nxt (some .grey), (nxt, adj.succs nxt) :: (node, it) :: stack, roots⟩ := by
      simp only [Search.turn, h.skip.white hkey hnot hblack]
      exact Search.push_eq hkey
    obtain ⟨hcycle, hsettled⟩ := ih (h.skip.push hclosed hnot hblack)
    refine ⟨fun hnone => Search.ends_of_turn hturn (hcycle hnone), fun black' hwalk => ?_⟩
    obtain ⟨colour', hmarks, hends⟩ := hsettled black' hwalk
    exact ⟨colour', hmarks, fun cyclic hc => Search.ends_of_turn hturn (hends cyclic hc)⟩

/-- Turns from the roots come to what the walks from them find. -/
theorem ends_of_walkAll (hclosed : adj.Closed) (h : Marks adj colour black [])
    (hroots : ∀ root ∈ roots, root ∈ adj.map (·.1)) :
    Search.Ends adj ⟨colour, [], roots⟩ (adj.walkAll black roots) := by
  induction roots generalizing colour black with
  | nil => exact Search.ends_of_returned rfl
  | cons root roots ih =>
    obtain ⟨hroot, hrest⟩ := List.forall_mem_cons.mp hroots
    rw [Adjacency.walkAll]
    by_cases hblack : root ∈ black
    · have hcolour : colour root = some .black := by
        rw [h.colour_eq, List.map_nil, if_neg List.not_mem_nil, if_pos hblack]
      have hturn : Search.turn adj ⟨colour, [], root :: roots⟩ = .again ⟨colour, [], roots⟩ := by
        simp only [Search.turn, hcolour]
      rw [if_pos hblack]
      exact Search.ends_of_turn hturn (ih h hrest)
    · have hturn : Search.turn adj ⟨colour, [], root :: roots⟩ =
          .again ⟨Function.update colour root (some .grey), [(root, adj.succs root)], roots⟩ := by
        simp only [Search.turn, h.white hroot List.not_mem_nil hblack]
        exact Search.push_eq hroot
      rw [if_neg hblack]
      refine Search.ends_of_turn hturn ?_
      obtain ⟨hcycle, hsettled⟩ := ends_of_walk hclosed (h.push hclosed List.not_mem_nil hblack)
      cases hwalk : adj.walk black [(root, adj.succs root)] with
      | none => exact hcycle hwalk
      | some black' =>
        obtain ⟨colour', hmarks, hends⟩ := hsettled black' hwalk
        exact hends _ (ih hmarks hrest)

/-- The loops end with what the three-colour search decides. -/
theorem ends_start (hclosed : adj.Closed) : (Search.start adj).Ends adj adj.hasCycle :=
  ends_of_walkAll hclosed Marks.start fun _ hroot => hroot

end Walk

/-! ### What is returned -/

/-- The loops return what `edgesHaveCycle` does. -/
theorem edgesHaveCycleFor_eq (nodeIds : List String) (edges : List (String × String)) :
    ∃ turns, edgesHaveCycleFor turns nodeIds edges = some (.ok (edgesHaveCycle nodeIds edges)) := by
  obtain ⟨turns, hrun⟩ := ends_start (closed_adjacency nodeIds edges)
  refine ⟨turns, ?_⟩
  have hdecides : (adjacency nodeIds edges).hasCycle = edgesHaveCycle nodeIds edges := by
    rw [Bool.eq_iff_iff, edgesHaveCycle_iff, Adjacency.hasCycle_eq_true_iff]
    have hedge : (adjacency nodeIds edges).Edge = fun x y => (x, y) ∈ edges := by
      ext x y
      exact edge_adjacency
    rw [hedge]
  rw [← hdecides]
  exact hrun

/-- **`_edges_have_cycle` returns whether there is a cycle.** For every list of nodes and of edges some
number of turns is enough, no key is missing on the way, and what is returned is `True` exactly when the
edges lead from some node back to it. -/
theorem edgesHaveCycleFor_exact (nodeIds : List String) (edges : List (String × String)) :
    ∃ enough cyclic, (∀ turns, enough ≤ turns →
      edgesHaveCycleFor turns nodeIds edges = some (.ok cyclic)) ∧
      (cyclic = true ↔ ∃ x, Relation.TransGen (fun x y => (x, y) ∈ edges) x x) := by
  obtain ⟨enough, hrun⟩ := edgesHaveCycleFor_eq nodeIds edges
  refine ⟨enough, edgesHaveCycle nodeIds edges, fun turns hle => Search.run_of_le hle hrun, ?_⟩
  rw [edgesHaveCycle_iff, Acyclic, not_forall_not]

example : edgesHaveCycleFor 9 ["draft"] [("draft", "review"), ("review", "draft")] = some (.ok true) := rfl

end GraphAttachmentService

end Krewhub
