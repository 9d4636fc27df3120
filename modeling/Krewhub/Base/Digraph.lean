import Mathlib.Algebra.GroupWithZero.Nat
import Mathlib.Data.List.Basic
import Mathlib.Logic.Relation
import Mathlib.Tactic.Common

/-!
# Directed graphs

Acyclic relations and what keeps them so, and the search a stack and a set of visited nodes make of a
finite adjacency map. The search answers whether its target is reachable, so it decides the side
condition under which a relation stays acyclic when the edges out of one node are replaced.
-/

namespace Krewhub

open Relation

variable {α : Type}

/-! ### Acyclic relations -/

def Acyclic (r : α → α → Prop) : Prop := ∀ x, ¬ TransGen r x x

theorem Acyclic.mono {r r' : α → α → Prop} (hr : Acyclic r) (h : ∀ x y, r' x y → r x y) :
    Acyclic r' := fun x hx => hr x (TransGen.mono h x x hx)

/-- A relation whose edges all go to a smaller rank is acyclic. -/
theorem acyclic_of_rank {r : α → α → Prop} (rank : α → Nat) (h : ∀ x y, r x y → rank y < rank x) :
    Acyclic r := by
  have hlt : ∀ x y, TransGen r x y → rank y < rank x := by
    intro x y hxy
    induction hxy with
    | single hstep => exact h _ _ hstep
    | tail _ hstep ih => exact Nat.lt_trans (h _ _ hstep) ih
  intro x hx
  exact Nat.lt_irrefl _ (hlt x x hx)

/-- What reaches `a` reaches it without going on from it. -/
theorem reach_avoiding {r : α → α → Prop} {x a : α} (h : ReflTransGen r x a) :
    ReflTransGen (fun u v => u ≠ a ∧ r u v) x a := by
  induction h using ReflTransGen.head_induction_on with
  | refl => exact .refl
  | head hstep _ ih =>
    rename_i u _ _
    by_cases hu : u = a
    · rw [hu]
    · exact ih.head ⟨hu, hstep⟩

/-- A path either stays within `r` or goes through an edge out of `a`. -/
theorem transGen_or_through {r r' : α → α → Prop} {a : α} (h : ∀ x y, r' x y → x = a ∨ r x y)
    {x z : α} (hxz : TransGen r' x z) :
    TransGen r x z ∨ ReflTransGen r' x a ∧ ∃ y, r' a y ∧ ReflTransGen r' y z := by
  induction hxz with
  | single hstep =>
    rcases h _ _ hstep with rfl | hr
    · exact .inr ⟨.refl, _, hstep, .refl⟩
    · exact .inl (.single hr)
  | tail hpath hstep ih =>
    rcases ih with hr | ⟨hxa, y, hay, hyz⟩
    · rcases h _ _ hstep with rfl | hr'
      · exact .inr ⟨hpath.to_reflTransGen, _, hstep, .refl⟩
      · exact .inl (hr.tail hr')
    · exact .inr ⟨hxa, y, hay, hyz.tail hstep⟩

/-- Replacing the edges out of `a` keeps a relation acyclic when none of the new ones leads back. -/
theorem Acyclic.replace {r r' : α → α → Prop} {a : α} (hr : Acyclic r)
    (h : ∀ x y, r' x y → x = a ∨ r x y)
    (hback : ∀ y, r' a y → r a y ∨ ¬ ReflTransGen r y a) : Acyclic r' := by
  intro x hx
  rcases transGen_or_through h hx with hcycle | ⟨hxa, y, hay, hyx⟩
  · exact hr x hcycle
  · have hya : ReflTransGen r y a := by
      refine ReflTransGen.mono (fun u v huv => ?_) _ _ (reach_avoiding (hyx.trans hxa))
      exact (h u v huv.2).resolve_left huv.1
    rcases hback y hay with hold | hnew
    · exact hr a (.head' hold hya)
    · exact hnew hya

/-- The image of a relation under a map that takes edges to edges of an acyclic one. -/
theorem Acyclic.comap {β : Type} {r : β → β → Prop} {n : α → α → Prop} (hr : Acyclic r)
    (f : α → β) (h : ∀ x y, n x y → r (f x) (f y)) : Acyclic n :=
  fun x hx => hr (f x) (hx.lift f h)

/-- Two acyclic relations together, the edges of the second leading to where none of the first
starts. -/
theorem Acyclic.union {r n : α → α → Prop} (hr : Acyclic r) (hn : Acyclic n)
    (h : ∀ x y z, n x y → ¬ r y z) : Acyclic fun x y => r x y ∨ n x y := by
  have hsplit : ∀ x z, TransGen (fun x y => r x y ∨ n x y) x z →
      TransGen r x z ∨ ∃ w, ReflTransGen r x w ∧ TransGen n w z := by
    intro x z hxz
    induction hxz with
    | single hstep =>
      rcases hstep with hr' | hn'
      · exact .inl (.single hr')
      · exact .inr ⟨x, .refl, .single hn'⟩
    | tail _ hstep ih =>
      rcases ih with hxb | ⟨w, hxw, hwb⟩ <;> rcases hstep with hr' | hn'
      · exact .inl (hxb.tail hr')
      · exact .inr ⟨_, hxb.to_reflTransGen, .single hn'⟩
      · obtain ⟨u, _, hub⟩ := TransGen.tail'_iff.mp hwb
        exact absurd hr' (h u _ _ hub)
      · exact .inr ⟨w, hxw, hwb.tail hn'⟩
  intro x hx
  rcases hsplit x x hx with hcycle | ⟨w, hxw, hwx⟩
  · exact hr x hcycle
  · obtain ⟨u, _, hux⟩ := TransGen.tail'_iff.mp hwx
    rcases ReflTransGen.cases_head hxw with rfl | ⟨y, hxy, _⟩
    · exact hn x hwx
    · exact h u x y hux hxy

/-! ### Search -/

/-- The successors of every node that has any. -/
abbrev Adjacency (α : Type) := List (α × List α)

namespace Adjacency

variable [DecidableEq α] {adj : Adjacency α} {target : α}

/-- `adj.get(x, [])`. -/
def succs (adj : Adjacency α) (x : α) : List α := (adj.lookup x).getD []

def Edge (adj : Adjacency α) (x y : α) : Prop := y ∈ adj.succs x

/-- The nodes with successors that have not been visited. -/
def unseen (adj : Adjacency α) (seen : List α) : Nat := (adj.filter (·.1 ∉ seen)).length

theorem unseen_congr {seen seen' : List α} (h : ∀ x, x ∈ seen ↔ x ∈ seen') :
    adj.unseen seen = adj.unseen seen' := by
  simp only [unseen, h]

theorem unseen_cons_le (adj : Adjacency α) (x : α) (seen : List α) :
    adj.unseen (x :: seen) ≤ adj.unseen seen := by
  refine List.Sublist.length_le (List.monotone_filter_right adj fun e he => ?_)
  simp only [List.mem_cons, not_or, decide_eq_true_eq] at he ⊢
  exact he.2

theorem unseen_cons_lt {x : α} {seen : List α} (hx : x ∉ seen) (hkey : ∃ e ∈ adj, e.1 = x) :
    adj.unseen (x :: seen) < adj.unseen seen := by
  obtain ⟨e, he, rfl⟩ := hkey
  refine Nat.lt_of_le_of_ne (unseen_cons_le adj _ _) fun heq => ?_
  have hsub : adj.filter (·.1 ∉ e.1 :: seen) = adj.filter (·.1 ∉ seen) := by
    refine List.Sublist.eq_of_length (List.monotone_filter_right adj fun e' he' => ?_) heq
    simp only [List.mem_cons, not_or, decide_eq_true_eq] at he' ⊢
    exact he'.2
  have hmem : e ∈ adj.filter (·.1 ∉ seen) := by simp [he, hx]
  rw [← hsub] at hmem
  simp at hmem

theorem succs_eq_nil {x : α} (h : ¬ ∃ e ∈ adj, e.1 = x) : adj.succs x = [] := by
  have hlookup : adj.lookup x = none := by
    rw [List.lookup_eq_none_iff]
    intro e he
    simp only [bne_iff_ne, ne_eq]
    rintro rfl
    exact h ⟨e, he, rfl⟩
  rw [succs, hlookup, Option.getD_none]

/-- Whether a walk from the stack, the last pushed first, meets the target. -/
def search (adj : Adjacency α) (target : α) (seen : List α) : List α → Bool
  | [] => false
  | cur :: stack =>
    if cur = target then true
    else if cur ∈ seen then search adj target seen stack
    else search adj target (cur :: seen) ((adj.succs cur).reverse ++ stack)
termination_by stack => (adj.unseen seen, stack.length)
decreasing_by
  · exact Prod.Lex.right _ (by simp)
  · rename_i hseen
    by_cases hkey : ∃ e ∈ adj, e.1 = cur
    · exact Prod.Lex.left _ _ (unseen_cons_lt hseen hkey)
    · rw [succs_eq_nil hkey]
      rcases Nat.lt_or_eq_of_le (unseen_cons_le adj cur seen) with hlt | heq
      · exact Prod.Lex.left _ _ hlt
      · rw [heq]
        exact Prod.Lex.right _ (by simp)

/-- What the search finds is reachable from the stack. -/
theorem reach_of_search {seen stack : List α} (h : adj.search target seen stack = true) :
    ∃ x ∈ stack, ReflTransGen adj.Edge x target := by
  fun_induction search adj target seen stack with
  | case1 => cases h
  | case2 => exact ⟨_, List.mem_cons_self, .refl⟩
  | case3 seen cur stack _ _ ih =>
    obtain ⟨x, hx, hreach⟩ := ih h
    exact ⟨x, List.mem_cons_of_mem _ hx, hreach⟩
  | case4 seen cur stack _ _ ih =>
    obtain ⟨x, hx, hreach⟩ := ih h
    rcases List.mem_append.mp hx with hsucc | hstack
    · exact ⟨cur, List.mem_cons_self, hreach.head (List.mem_reverse.mp hsucc)⟩
    · exact ⟨x, List.mem_cons_of_mem _ hstack, hreach⟩

/-- The invariant of the search: the target has not been visited, and every visited node has its
successors visited or on the stack. Where the search fails, nothing visited or on the stack reaches
the target. -/
theorem not_reach_of_search {seen stack : List α} (h : adj.search target seen stack = false)
    (htarget : target ∉ seen)
    (hclosed : ∀ x ∈ seen, ∀ y, adj.Edge x y → y ∈ seen ∨ y ∈ stack) :
    ∀ x, x ∈ seen ∨ x ∈ stack → ¬ ReflTransGen adj.Edge x target := by
  fun_induction search adj target seen stack with
  | case1 seen =>
    intro x hx hreach
    have hx : x ∈ seen := hx.resolve_right List.not_mem_nil
    have hend : target ∈ seen := by
      induction hreach using ReflTransGen.head_induction_on with
      | refl => exact hx
      | head hstep _ ih => exact ih (hclosed _ hx _ hstep) ((hclosed _ hx _ hstep).resolve_right List.not_mem_nil)
    exact htarget hend
  | case2 => cases h
  | case3 seen cur stack _ hseen ih =>
    refine fun x hx => ih h htarget (fun x hx y hxy => ?_) x ?_
    · rcases hclosed x hx y hxy with hy | hy
      · exact .inl hy
      · rcases List.mem_cons.mp hy with rfl | hy
        · exact .inl hseen
        · exact .inr hy
    · rcases hx with hx | hx
      · exact .inl hx
      · rcases List.mem_cons.mp hx with rfl | hx
        · exact .inl hseen
        · exact .inr hx
  | case4 seen cur stack hne _ ih =>
    refine fun x hx => ih h ?_ (fun x hx y hxy => ?_) x ?_
    · rw [List.mem_cons, not_or]
      exact ⟨fun heq => hne heq.symm, htarget⟩
    · rcases List.mem_cons.mp hx with rfl | hx
      · exact .inr (List.mem_append_left _ (List.mem_reverse.mpr hxy))
      · rcases hclosed x hx y hxy with hy | hy
        · exact .inl (List.mem_cons_of_mem _ hy)
        · rcases List.mem_cons.mp hy with rfl | hy
          · exact .inl List.mem_cons_self
          · exact .inr (List.mem_append_right _ hy)
    · rcases hx with hx | hx
      · exact .inl (List.mem_cons_of_mem _ hx)
      · rcases List.mem_cons.mp hx with rfl | hx
        · exact .inl List.mem_cons_self
        · exact .inr (List.mem_append_right _ hx)

/-- The search from one node decides whether it reaches the target. -/
theorem search_eq_true_iff {source : α} :
    adj.search target [] [source] = true ↔ ReflTransGen adj.Edge source target := by
  constructor
  · intro h
    obtain ⟨x, hx, hreach⟩ := reach_of_search h
    rwa [List.mem_singleton.mp hx] at hreach
  · intro hreach
    by_contra h
    rw [Bool.not_eq_true] at h
    exact not_reach_of_search h List.not_mem_nil (fun x hx => absurd hx List.not_mem_nil) source
      (.inr List.mem_cons_self) hreach

/-! ### Edges one by one -/

/-- `adj.setdefault(src, []).append(dst)`. -/
def addEdge (src dst : α) : Adjacency α → Adjacency α
  | [] => [(src, [dst])]
  | e :: adj => if e.1 = src then (e.1, e.2 ++ [dst]) :: adj else e :: addEdge src dst adj

/-- `adj.setdefault(x, [])`. -/
def addNode (x : α) (adj : Adjacency α) : Adjacency α :=
  if x ∈ adj.map (·.1) then adj else adj ++ [(x, [])]

theorem edge_cons {e : α × List α} {x y : α} :
    Edge (e :: adj) x y ↔ if x = e.1 then y ∈ e.2 else adj.Edge x y := by
  obtain ⟨k, l⟩ := e
  rw [Edge, succs, List.lookup_cons]
  by_cases h : x = k
  · rw [if_pos h, beq_iff_eq.mpr h]
    rfl
  · rw [if_neg h, beq_eq_false_iff_ne.mpr h]
    rfl

theorem edge_addEdge {src dst x y : α} :
    (adj.addEdge src dst).Edge x y ↔ adj.Edge x y ∨ x = src ∧ y = dst := by
  induction adj with
  | nil =>
    rw [addEdge, edge_cons]
    by_cases h : x = src <;> simp [h, Edge, succs]
  | cons e adj ih =>
    rw [addEdge]
    by_cases he : e.1 = src
    · rw [if_pos he, edge_cons, edge_cons]
      by_cases h : x = e.1
      · simp [h, he]
      · simp [h, he ▸ h]
    · rw [if_neg he, edge_cons, edge_cons, ih]
      by_cases h : x = e.1
      · simp [h, he]
      · simp [h]

theorem edge_addNode {z x y : α} : (adj.addNode z).Edge x y ↔ adj.Edge x y := by
  rw [addNode]
  split
  · rfl
  · rename_i hnew
    induction adj with
    | nil =>
      rw [List.nil_append, edge_cons]
      by_cases h : x = z <;> simp [h, Edge, succs]
    | cons e adj ih =>
      rw [List.map_cons, List.mem_cons, not_or] at hnew
      rw [List.cons_append, edge_cons, edge_cons, ih hnew.2]

theorem mem_keys_addEdge {src dst x : α} :
    x ∈ (adj.addEdge src dst).map (·.1) ↔ x = src ∨ x ∈ adj.map (·.1) := by
  induction adj with
  | nil => simp [addEdge]
  | cons e adj ih =>
    rw [addEdge]
    split
    · rename_i he
      simp [← he]
    · rw [List.map_cons, List.map_cons, List.mem_cons, List.mem_cons, ih, or_left_comm]

theorem mem_keys_addNode {z x : α} :
    x ∈ (adj.addNode z).map (·.1) ↔ x = z ∨ x ∈ adj.map (·.1) := by
  rw [addNode]
  split
  · rename_i hz
    refine ⟨Or.inr, fun h => ?_⟩
    rcases h with rfl | hx
    · exact hz
    · exact hx
  · simp [or_comm]

/-- Every successor has a key of its own. -/
def Closed (adj : Adjacency α) : Prop := ∀ x y, adj.Edge x y → y ∈ adj.map (·.1)

theorem Closed.addEdge {src dst : α} (h : adj.Closed) : ((adj.addEdge src dst).addNode dst).Closed := by
  intro x y hxy
  rw [edge_addNode, edge_addEdge] at hxy
  rw [mem_keys_addNode, mem_keys_addEdge]
  rcases hxy with hold | ⟨_, rfl⟩
  · exact .inr (.inr (h x y hold))
  · exact .inl rfl

theorem lookup_eq_some_of_mem_keys {x : α} (h : x ∈ adj.map (·.1)) : adj.lookup x = some (adj.succs x) := by
  induction adj with
  | nil => cases h
  | cons e adj ih =>
    obtain ⟨k, l⟩ := e
    rw [succs, List.lookup_cons]
    by_cases hx : x = k
    · rw [beq_iff_eq.mpr hx]
      rfl
    · rw [beq_eq_false_iff_ne.mpr hx]
      rw [List.map_cons, List.mem_cons, or_iff_right hx] at h
      exact ih h

/-! ### Three colours -/

/-- The walk of a three-colour search from one root. The grey nodes are those on the stack, each with
the successors it has yet to look at. `none` when an edge leads back to a grey node, else the nodes
that are black in the end. -/
def walk (adj : Adjacency α) (black : List α) : List (α × List α) → Option (List α)
  | [] => some black
  | (node, []) :: stack => walk adj (node :: black) stack
  | (node, next :: rest) :: stack =>
    if next = node ∨ next ∈ stack.map (·.1) then none
    else if next ∈ black then walk adj black ((node, rest) :: stack)
    else walk adj black ((next, adj.succs next) :: (node, rest) :: stack)
termination_by stack =>
  (adj.unseen (stack.map (·.1) ++ black), (stack.map fun e => 2 * e.2.length + 1).sum)
decreasing_by
  · refine Prod.Lex.right' _ (Nat.le_of_eq (unseen_congr fun x => ?_)) (by simp)
    simp only [List.map_cons, List.cons_append, List.mem_append, List.mem_cons]
    tauto
  · refine Prod.Lex.right' _ (Nat.le_refl _) (by simp)
  · rename_i hgrey hblack
    have hnew : next ∉ ((node, rest) :: stack).map (·.1) ++ black := by
      simp only [List.map_cons, List.cons_append, List.mem_cons, List.mem_append]
      tauto
    by_cases hkey : ∃ e ∈ adj, e.1 = next
    · exact Prod.Lex.left _ _ (unseen_cons_lt hnew hkey)
    · rw [succs_eq_nil hkey]
      refine Prod.Lex.right' _ (unseen_cons_le adj next _) (by simp; omega)

/-- Every node of the list has its successors further down. -/
def Settled (adj : Adjacency α) : List α → Prop
  | [] => True
  | x :: l => (∀ y, adj.Edge x y → y ∈ l) ∧ Settled adj l

theorem Settled.closed {l : List α} (h : adj.Settled l) {x y : α} (hx : x ∈ l)
    (hxy : adj.Edge x y) : y ∈ l := by
  induction l with
  | nil => cases hx
  | cons a l ih =>
    rcases List.mem_cons.mp hx with rfl | hx
    · exact List.mem_cons_of_mem _ (h.1 y hxy)
    · exact List.mem_cons_of_mem _ (ih h.2 hx)

/-- No node of a settled list is on a cycle. -/
theorem Settled.not_cycle {l : List α} (h : adj.Settled l) {x : α} (hx : x ∈ l) :
    ¬ TransGen adj.Edge x x := by
  induction l with
  | nil => cases hx
  | cons a l ih =>
    by_cases hmem : x ∈ l
    · exact ih h.2 hmem
    · obtain rfl := (List.mem_cons.mp hx).resolve_right hmem
      intro hcycle
      obtain ⟨y, hxy, hyx⟩ := TransGen.head'_iff.mp hcycle
      have hback : ∀ z, ReflTransGen adj.Edge y z → z ∈ l := by
        intro z hyz
        induction hyz with
        | refl => exact h.1 y hxy
        | tail _ hstep ih => exact h.2.closed ih hstep
      exact hmem (hback x hyx)

/-- The stack is a path of grey nodes, each reached from the one below it. Of its successors those
that are not black are still to be looked at, or on the stack right above. -/
def Trail (adj : Adjacency α) (black : List α) : Option α → List (α × List α) → Prop
  | _, [] => True
  | above, (node, rest) :: stack =>
    (∀ y ∈ above, adj.Edge node y) ∧ (∀ y ∈ rest, adj.Edge node y) ∧
      (∀ y, adj.Edge node y → y ∈ black ∨ y ∈ rest ∨ y ∈ above) ∧ Trail adj black (some node) stack

theorem Trail.mono {black black' : List α} (hsub : ∀ x ∈ black, x ∈ black') {above : Option α}
    {stack : List (α × List α)} (h : adj.Trail black above stack) : adj.Trail black' above stack := by
  induction stack generalizing above with
  | nil => trivial
  | cons e stack ih =>
    obtain ⟨habove, hrest, hseen, htrail⟩ := h
    exact ⟨habove, hrest, fun y hy => (hseen y hy).imp_left (hsub y), ih htrail⟩

/-- The node above has turned black. -/
theorem Trail.settle {black : List α} {node : α} {stack : List (α × List α)}
    (h : adj.Trail black (some node) stack) : adj.Trail (node :: black) none stack := by
  cases stack with
  | nil => trivial
  | cons e stack =>
    obtain ⟨_, hrest, hseen, htrail⟩ := h
    refine ⟨fun y hy => absurd hy (Option.not_mem_none y), hrest, fun y hy => ?_,
      htrail.mono fun x hx => List.mem_cons_of_mem _ hx⟩
    rcases hseen y hy with hblack | hlater | habove
    · exact .inl (List.mem_cons_of_mem _ hblack)
    · exact .inr (.inl hlater)
    · obtain rfl := Option.some.inj habove
      exact .inl List.mem_cons_self

/-- The next node is black already. -/
theorem Trail.skip {black : List α} {above : Option α} {node next : α} {rest : List α} {stack : List (α × List α)}
    (h : adj.Trail black above ((node, next :: rest) :: stack)) (hblack : next ∈ black) :
    adj.Trail black above ((node, rest) :: stack) := by
  obtain ⟨habove, hrest, hseen, htrail⟩ := h
  refine ⟨habove, fun y hy => hrest y (List.mem_cons_of_mem _ hy), fun y hy => ?_, htrail⟩
  rcases hseen y hy with hold | hlater | hup
  · exact .inl hold
  · rcases List.mem_cons.mp hlater with rfl | hlater
    · exact .inl hblack
    · exact .inr (.inl hlater)
  · exact .inr (.inr hup)

/-- The next node is entered. -/
theorem Trail.push {black : List α} {node next : α} {rest : List α} {stack : List (α × List α)}
    (h : adj.Trail black none ((node, next :: rest) :: stack)) :
    adj.Trail black none ((next, adj.succs next) :: (node, rest) :: stack) := by
  obtain ⟨_, hrest, hseen, htrail⟩ := h
  refine ⟨fun y hy => absurd hy (Option.not_mem_none y), fun y hy => hy, fun y hy => .inr (.inl hy), ?_, ?_, ?_, htrail⟩
  · intro y hy
    obtain rfl := Option.some.inj hy
    exact hrest _ List.mem_cons_self
  · exact fun y hy => hrest y (List.mem_cons_of_mem _ hy)
  · intro y hy
    rcases hseen y hy with hold | hlater | hup
    · exact .inl hold
    · rcases List.mem_cons.mp hlater with rfl | hlater
      · exact .inr (.inr rfl)
      · exact .inr (.inl hlater)
    · cases hup

/-- Grey nodes reach the node above them. -/
theorem Trail.reach {black : List α} {above : α} {stack : List (α × List α)}
    (h : adj.Trail black (some above) stack) {x : α} (hx : x ∈ stack.map (·.1)) :
    TransGen adj.Edge x above := by
  induction stack generalizing above with
  | nil => cases hx
  | cons e stack ih =>
    obtain ⟨habove, _, _, htrail⟩ := h
    rcases List.mem_cons.mp hx with rfl | hx
    · exact .single (habove above rfl)
    · exact (ih htrail hx).tail (habove above rfl)

/-- A walk ends on a cycle or with its nodes settled. -/
theorem walk_spec {black : List α} {stack : List (α × List α)} (hsettled : adj.Settled black)
    (htrail : adj.Trail black none stack) :
    (adj.walk black stack = none ∧ ∃ x, TransGen adj.Edge x x) ∨
      ∃ black', adj.walk black stack = some black' ∧ adj.Settled black' ∧
        (∀ x ∈ black, x ∈ black') ∧ ∀ e ∈ stack, e.1 ∈ black' := by
  fun_induction walk adj black stack with
  | case1 black => exact .inr ⟨black, rfl, hsettled, fun x hx => hx, fun e he => by cases he⟩
  | case2 black node stack ih =>
    obtain ⟨_, _, hseen, htrail⟩ := htrail
    have hnode : ∀ y, adj.Edge node y → y ∈ black := by
      intro y hy
      rcases hseen y hy with hblack | hlater | habove
      · exact hblack
      · cases hlater
      · cases habove
    rcases ih ⟨hnode, hsettled⟩ htrail.settle with hcycle | ⟨black', hwalk, hsettled', hsub, hstack⟩
    · exact .inl hcycle
    · refine .inr ⟨black', hwalk, hsettled', fun x hx => hsub x (List.mem_cons_of_mem _ hx),
        fun e he => ?_⟩
      rcases List.mem_cons.mp he with rfl | he
      · exact hsub _ List.mem_cons_self
      · exact hstack e he
  | case3 black node next rest stack hgrey =>
    obtain ⟨_, hrest, _, htrail⟩ := htrail
    have hedge := hrest next List.mem_cons_self
    refine .inl ⟨rfl, next, ?_⟩
    rcases hgrey with rfl | hgrey
    · exact .single hedge
    · exact (htrail.reach hgrey).tail hedge
  | case4 black node next rest stack _ hblack ih =>
    rcases ih hsettled (htrail.skip hblack) with hcycle | ⟨black', hwalk, hsettled', hsub, hstack⟩
    · exact .inl hcycle
    · refine .inr ⟨black', hwalk, hsettled', hsub, fun e he => ?_⟩
      rcases List.mem_cons.mp he with rfl | he
      · exact hstack (node, rest) List.mem_cons_self
      · exact hstack e (List.mem_cons_of_mem _ he)
  | case5 black node next rest stack _ _ ih =>
    rcases ih hsettled htrail.push with hcycle | ⟨black', hwalk, hsettled', hsub, hstack⟩
    · exact .inl hcycle
    · refine .inr ⟨black', hwalk, hsettled', hsub, fun e he => ?_⟩
      rcases List.mem_cons.mp he with rfl | he
      · exact hstack (node, rest) (List.mem_cons_of_mem _ List.mem_cons_self)
      · exact hstack e (List.mem_cons_of_mem _ (List.mem_cons_of_mem _ he))

/-- The walks from all roots; a root that is black already is skipped. -/
def walkAll (adj : Adjacency α) (black : List α) : List α → Bool
  | [] => false
  | root :: roots =>
    if root ∈ black then walkAll adj black roots
    else match adj.walk black [(root, adj.succs root)] with
      | none => true
      | some black => walkAll adj black roots

/-- Whether the three-colour search finds a cycle. -/
def hasCycle (adj : Adjacency α) : Bool := adj.walkAll [] (adj.map (·.1))

theorem walkAll_spec {black roots : List α} (hsettled : adj.Settled black) :
    (adj.walkAll black roots = true ∧ ∃ x, TransGen adj.Edge x x) ∨
      adj.walkAll black roots = false ∧ ∃ black', adj.Settled black' ∧ (∀ x ∈ black, x ∈ black') ∧
        ∀ x ∈ roots, x ∈ black' := by
  induction roots generalizing black with
  | nil => exact .inr ⟨rfl, black, hsettled, fun x hx => hx, fun x hx => by cases hx⟩
  | cons root roots ih =>
    rw [walkAll]
    by_cases hblack : root ∈ black
    · rw [if_pos hblack]
      rcases ih hsettled with hcycle | ⟨hnone, black', hsettled', hsub, hroots⟩
      · exact .inl hcycle
      · refine .inr ⟨hnone, black', hsettled', hsub, fun x hx => ?_⟩
        rcases List.mem_cons.mp hx with rfl | hx
        · exact hsub x hblack
        · exact hroots x hx
    · rw [if_neg hblack]
      have hstart : adj.Trail black none [(root, adj.succs root)] :=
        ⟨fun y hy => absurd hy (Option.not_mem_none y), fun y hy => hy, fun y hy => .inr (.inl hy), trivial⟩
      rcases walk_spec hsettled hstart with ⟨hwalk, hcycle⟩ | ⟨black₁, hwalk, hsettled₁, hsub₁, hroot⟩
      · rw [hwalk]
        exact .inl ⟨rfl, hcycle⟩
      · rw [hwalk]
        rcases ih hsettled₁ with hcycle | ⟨hnone, black', hsettled', hsub, hroots⟩
        · exact .inl hcycle
        · refine .inr ⟨hnone, black', hsettled', fun x hx => hsub x (hsub₁ x hx), fun x hx => ?_⟩
          rcases List.mem_cons.mp hx with rfl | hx
          · exact hsub _ (hroot _ List.mem_cons_self)
          · exact hroots x hx

/-- The three-colour search decides whether the graph has a cycle. -/
theorem hasCycle_eq_true_iff : adj.hasCycle = true ↔ ¬ Acyclic adj.Edge := by
  have hnil : adj.Settled [] := trivial
  rcases (walkAll_spec hnil : (adj.walkAll [] (adj.map (·.1)) = true ∧ _) ∨ _) with
    ⟨htrue, x, hcycle⟩ | ⟨hfalse, black, hsettled, _, hroots⟩
  · exact iff_of_true htrue fun hacyclic => hacyclic x hcycle
  · refine iff_of_false (by rw [hasCycle, hfalse]; decide) fun hnot => hnot fun x hcycle => ?_
    obtain ⟨y, hxy, _⟩ := TransGen.head'_iff.mp hcycle
    refine hsettled.not_cycle (hroots x ?_) hcycle
    by_contra hkey
    rw [Edge, succs_eq_nil fun ⟨e, he, heq⟩ => hkey (heq ▸ List.mem_map_of_mem he)] at hxy
    cases hxy

end Adjacency

end Krewhub
