import Mathlib.Data.List.Lex
import Mathlib.Data.List.Permutation
import Mathlib.Data.List.Sublists
import Mathlib.Data.Set.Card
import Mathlib.Data.Set.Finite.Lemmas
import Mathlib.Tactic.Common

/-!
# First routes

A search goes down the edges of a graph in their order. When it enters a node it takes up the edges there
that no node has met yet, turns to them one after the other, and goes into the end of an edge it follows
unless it has been there. The routes it makes are the first ones, in the order of the positions of their
edges, and the position of a turn after the route to its node says when the turn comes.

No search is run here. Which nodes one has entered and which edges its nodes have met before a given turn are
relations on the graph, and the lemmas say how they change from one turn to the next. An edge with two ends
may be met by both, when a turn at the one comes late enough for the other to have been entered before it.
-/

namespace Krewhub

/-! ### Sequences of positions in their order -/

theorem le_append_right (p s : List ℕ) : p ≤ p ++ s := by
  induction p with
  | nil =>
    cases s with
    | nil => exact le_rfl
    | cons a s => exact (List.nil_lt_cons a s).le
  | cons a p ih => exact List.cons_le_cons a ih

theorem append_lt_append {p q : List ℕ} (h : p < q) (hpre : ¬ p <+: q) (s s' : List ℕ) :
    p ++ s < q ++ s' := by
  induction p generalizing q with
  | nil => exact absurd List.nil_prefix hpre
  | cons a p ih =>
    cases q with
    | nil => exact absurd h (List.not_lt_nil _)
    | cons b q =>
      rw [List.cons_append, List.cons_append, List.cons_lt_cons_iff]
      rw [List.cons_prefix_cons, not_and] at hpre
      rcases List.cons_lt_cons_iff.mp h with hlt | ⟨rfl, hlt⟩
      · exact .inl hlt
      · exact .inr ⟨rfl, ih hlt (hpre rfl)⟩

theorem lt_append_singleton (p : List ℕ) (i : ℕ) : p < p ++ [i] := by
  have h : p ++ [] < p ++ [i] := List.append_left_lt (List.nil_lt_cons i [])
  rwa [List.append_nil] at h

variable {p k : List ℕ} {i n : ℕ}

theorem lt_append_zero_iff : k < p ++ [0] ↔ k ≤ p := by
  rw [← not_lt]
  induction p generalizing k with
  | nil =>
    cases k with
    | nil => simp
    | cons a k => simp [List.cons_lt_cons_iff]
  | cons b p ih =>
    cases k with
    | nil => simp
    | cons a k =>
      have htrichotomy := lt_trichotomy a b
      rw [List.cons_append, List.cons_lt_cons_iff, List.cons_lt_cons_iff, ih]
      grind

theorem lt_append_succ_iff : k < p ++ [i + 1] ↔ k < p ++ [i] ∨ p ++ [i] <+: k := by
  induction p generalizing k with
  | nil =>
    cases k with
    | nil => simp
    | cons a k =>
      simp [List.cons_lt_cons_iff]
      omega
  | cons b p ih =>
    cases k with
    | nil => simp
    | cons a k =>
      simp only [List.cons_append, List.cons_lt_cons_iff, List.cons_prefix_cons, ih]
      grind

theorem lt_append_of_forall_lt (h : ∀ j ∈ k, j < n) : k < p ++ [n] ↔ k < p ∨ p <+: k := by
  induction p generalizing k with
  | nil =>
    cases k with
    | nil => simp
    | cons a k => simp [List.cons_lt_cons_iff, h]
  | cons b p ih =>
    cases k with
    | nil => simp
    | cons a k =>
      have hk : ∀ j ∈ k, j < n := fun j hj => h j (List.mem_cons_of_mem a hj)
      simp only [List.cons_append, List.cons_lt_cons_iff, List.cons_prefix_cons, ih hk]
      grind

/-! ### Graphs and routes -/

/-- A graph whose edges come in an order and are followed or not. -/
structure OrderedGraph (V E : Type) where
  edges : List E
  nodup : edges.Nodup
  src : E → V
  dst : E → V
  follows : E → Prop

namespace OrderedGraph

variable {V E : Type} (g : OrderedGraph V E) (root : V)

def Touches (x : V) (e : E) : Prop := g.src e = x ∨ g.dst e = x

/-- The positions of the edges followed from the root, the nodes entered by them and the last of those. No
node is entered twice. -/
inductive Route : List ℕ → List V → V → Prop
  | start : Route [] [root] root
  | follow {p : List ℕ} {entered : List V} {i : ℕ} {e : E} : Route p entered (g.src e) →
      g.edges[i]? = some e → g.follows e → g.dst e ∉ entered →
      Route (p ++ [i]) (g.dst e :: entered) (g.dst e)

/-- The first of the routes that lead to a node. -/
def FirstRoute (p : List ℕ) (x : V) : Prop :=
  (∃ entered, g.Route root p entered x) ∧ ∀ q entered, g.Route root q entered x → p ≤ q

/-- The node, once it is entered, turns to the edge, which it has taken up because no turn of an end of the
edge came before. -/
def MeetsAt (k : List ℕ) (x : V) (e : E) : Prop :=
  ∃ p i, k = p ++ [i] ∧ g.FirstRoute root p x ∧ g.edges[i]? = some e ∧ g.Touches x e ∧
    ∀ y r, g.Touches y e → g.FirstRoute root r y → p < r ++ [i]

def Meets (x : V) (e : E) : Prop := ∃ k, g.MeetsAt root k x e

variable {g root} {p q r k : List ℕ} {entered entered' : List V} {x y z : V} {i : ℕ} {e e' : E}

theorem Route.mem_entered (h : g.Route root p entered x) : x ∈ entered := by
  cases h <;> exact List.mem_cons_self

theorem Route.unique (h : g.Route root p entered x) (h' : g.Route root p entered' y) :
    entered = entered' ∧ x = y := by
  induction h generalizing entered' y with
  | start =>
    generalize hp : ([] : List ℕ) = p at h'
    cases h' with
    | start => exact ⟨rfl, rfl⟩
    | follow => simp at hp
  | @follow p₀ entered₀ i₀ e₀ hroute hedge hfollows hnew ih =>
    generalize hp : p₀ ++ [i₀] = p at h'
    cases h' with
    | start => simp at hp
    | follow hroute' hedge' =>
      obtain ⟨rfl, rfl⟩ := List.append_singleton_inj.mp hp
      obtain rfl := Option.some.inj (hedge.symm.trans hedge')
      obtain ⟨rfl, -⟩ := ih hroute'
      exact ⟨rfl, rfl⟩

theorem Route.of_mem (h : g.Route root p entered x) (hy : y ∈ entered) :
    ∃ q entered', g.Route root q entered' y ∧ q <+: p := by
  induction h with
  | start =>
    rw [List.mem_singleton.mp hy]
    exact ⟨_, _, .start, List.prefix_rfl⟩
  | follow hroute hedge hfollows hnew ih =>
    rcases List.mem_cons.mp hy with rfl | hy
    · exact ⟨_, _, .follow hroute hedge hfollows hnew, List.prefix_rfl⟩
    · obtain ⟨q, entered', hq, hpre⟩ := ih hy
      exact ⟨q, entered', hq, hpre.trans (List.prefix_append _ _)⟩

/-- The last edge of a route that has one. -/
theorem Route.of_snoc (h : g.Route root (p ++ [i]) entered x) :
    ∃ e before, g.edges[i]? = some e ∧ g.follows e ∧ g.Route root p before (g.src e) ∧ g.dst e = x ∧
      x ∉ before ∧ entered = x :: before := by
  generalize hp : p ++ [i] = p' at h
  cases h with
  | start => simp at hp
  | follow hroute hedge hfollows hnew =>
    obtain ⟨rfl, rfl⟩ := List.append_singleton_inj.mp hp
    exact ⟨_, _, hedge, hfollows, hroute, rfl, hnew, rfl⟩

theorem Route.of_append {s : List ℕ} (h : g.Route root (p ++ s) entered x) :
    ∃ before y, g.Route root p before y := by
  induction s using List.reverseRecOn generalizing entered x with
  | nil => exact ⟨_, _, by simpa using h⟩
  | append_singleton s i ih =>
    rw [← List.append_assoc] at h
    obtain ⟨e, before, -, -, hroute, -⟩ := h.of_snoc
    exact ih hroute

/-- A longer route has entered the end of a shorter one. -/
theorem Route.mem_of_append {s : List ℕ} (h : g.Route root p entered x)
    (h' : g.Route root (p ++ s) entered' y) : x ∈ entered' := by
  induction s using List.reverseRecOn generalizing entered' y with
  | nil =>
    rw [List.append_nil] at h'
    obtain ⟨rfl, rfl⟩ := h.unique h'
    exact h.mem_entered
  | append_singleton s i ih =>
    rw [← List.append_assoc] at h'
    obtain ⟨e, before, -, -, hroute, -, -, rfl⟩ := h'.of_snoc
    exact List.mem_cons_of_mem _ (ih hroute)

/-- It does not come back to it. -/
theorem Route.eq_nil_of_append {s : List ℕ} (h : g.Route root p entered x)
    (h' : g.Route root (p ++ s) entered' x) : s = [] := by
  cases s using List.reverseRecOn with
  | nil => rfl
  | append_singleton s i =>
    rw [← List.append_assoc] at h'
    obtain ⟨e, before, -, -, hroute, -, hnew, -⟩ := h'.of_snoc
    exact absurd (h.mem_of_append hroute) hnew

theorem Route.lt_length (h : g.Route root p entered x) : ∀ i ∈ p, i < g.edges.length := by
  induction h with
  | start => simp
  | follow hroute hedge hfollows hnew ih =>
    intro j hj
    rcases List.mem_append.mp hj with hj | hj
    · exact ih j hj
    · rw [List.mem_singleton.mp hj]
      exact (List.getElem?_eq_some_iff.mp hedge).1

/-- A route has entered where its edges lead. -/
theorem Route.dst_mem (h : g.Route root p entered x) (hi : i ∈ p) (he : g.edges[i]? = some e) :
    g.dst e ∈ entered := by
  induction h with
  | start => cases hi
  | follow hroute hedge hfollows hnew ih =>
    rcases List.mem_append.mp hi with hi | hi
    · exact List.mem_cons_of_mem _ (ih hi)
    · rw [List.mem_singleton.mp hi, hedge] at he
      rw [Option.some.inj he]
      exact List.mem_cons_self

theorem Route.nodup (h : g.Route root p entered x) : p.Nodup := by
  induction h with
  | start => exact List.nodup_nil
  | follow hroute hedge hfollows hnew ih =>
    refine ih.append (List.nodup_singleton _) ?_
    rw [List.disjoint_singleton]
    intro hi
    exact hnew (hroute.dst_mem hi hedge)

/-- A node that a route leads to has a first one. -/
theorem Route.exists_first (h : g.Route root p entered x) : ∃ q, g.FirstRoute root q x ∧ q ≤ p := by
  have hfinite : {q | ∃ entered, g.Route root q entered x}.Finite := by
    refine (List.finite_toSet ((List.range g.edges.length).sublists.flatMap List.permutations)).subset ?_
    rintro q ⟨entered, hq⟩
    obtain ⟨l, hperm, hsub⟩ := (List.subperm_of_subset hq.nodup fun i hi =>
      List.mem_range.mpr (hq.lt_length i hi) : q.Subperm (List.range g.edges.length))
    exact List.mem_flatMap.mpr ⟨l, List.mem_sublists.mpr hsub, List.mem_permutations.mpr hperm.symm⟩
  obtain ⟨q, ⟨entered', hq⟩, hle⟩ := Set.exists_min_image _ id hfinite ⟨p, entered, h⟩
  exact ⟨q, ⟨⟨entered', hq⟩, fun r entered hr => hle r ⟨entered, hr⟩⟩, hle p ⟨entered, h⟩⟩

/-! ### First routes -/

theorem FirstRoute.unique (h : g.FirstRoute root p x) (h' : g.FirstRoute root q x) : p = q := by
  obtain ⟨⟨entered, hp⟩, hle⟩ := h
  obtain ⟨⟨entered', hq⟩, hle'⟩ := h'
  exact le_antisymm (hle q entered' hq) (hle' p entered hp)

theorem FirstRoute.node_unique (h : g.FirstRoute root p x) (h' : g.FirstRoute root p y) : x = y := by
  obtain ⟨⟨entered, hx⟩, -⟩ := h
  obtain ⟨⟨entered', hy⟩, -⟩ := h'
  exact (hx.unique hy).2

theorem firstRoute_nil : g.FirstRoute root [] root :=
  ⟨⟨[root], .start⟩, fun q _ _ => le_append_right [] q⟩

/-- A first route goes on from a first route. -/
theorem FirstRoute.of_snoc (h : g.FirstRoute root (p ++ [i]) y) :
    ∃ e, g.edges[i]? = some e ∧ g.follows e ∧ g.FirstRoute root p (g.src e) ∧ g.dst e = y := by
  obtain ⟨⟨entered, hroute⟩, hfirst⟩ := h
  obtain ⟨e, before, hedge, hfollows, hbefore, rfl, hnew, rfl⟩ := hroute.of_snoc
  refine ⟨e, hedge, hfollows, ⟨⟨before, hbefore⟩, fun q entered' hq => ?_⟩, rfl⟩
  by_contra hlt
  rw [not_le] at hlt
  -- a smaller route to the source either has entered the end itself or goes on to it
  by_cases hmem : g.dst e ∈ entered'
  · obtain ⟨q', entered'', hq', s, rfl⟩ := hq.of_mem hmem
    have hle : p ++ [i] ≤ q' := hfirst q' entered'' hq'
    exact absurd hlt ((le_append_right p [i]).trans (hle.trans (le_append_right q' s))).not_gt
  · have hle : p ++ [i] ≤ q ++ [i] := hfirst _ _ (hq.follow hedge hfollows hmem)
    refine absurd (append_lt_append hlt ?_ [i] [i]) hle.not_gt
    -- a route that passes through the source does not come to it again
    rintro ⟨s, rfl⟩
    rw [hq.eq_nil_of_append hbefore, List.append_nil] at hlt
    exact lt_irrefl q hlt

theorem FirstRoute.of_append {s : List ℕ} (h : g.FirstRoute root (p ++ s) y) :
    ∃ x, g.FirstRoute root p x := by
  induction s using List.reverseRecOn generalizing y with
  | nil => exact ⟨y, by simpa using h⟩
  | append_singleton s i ih =>
    rw [← List.append_assoc] at h
    obtain ⟨e, -, -, hfirst, -⟩ := h.of_snoc
    exact ih hfirst

theorem FirstRoute.lt_length (h : g.FirstRoute root p x) : ∀ i ∈ p, i < g.edges.length := by
  obtain ⟨⟨entered, hp⟩, -⟩ := h
  exact hp.lt_length

/-- An edge that is followed leads to a node no later than it is turned to. -/
theorem FirstRoute.exists_le (h : g.FirstRoute root p (g.src e)) (hedge : g.edges[i]? = some e)
    (hfollows : g.follows e) : ∃ r, g.FirstRoute root r (g.dst e) ∧ r ≤ p ++ [i] := by
  obtain ⟨⟨entered, hp⟩, -⟩ := h
  by_cases hmem : g.dst e ∈ entered
  · obtain ⟨q, entered', hq, s, rfl⟩ := hp.of_mem hmem
    obtain ⟨r, hr, hle⟩ := hq.exists_first
    refine ⟨r, hr, hle.trans ?_⟩
    rw [List.append_assoc]
    exact le_append_right q _
  · exact (hp.follow hedge hfollows hmem).exists_first

/-! ### Turns -/

theorem MeetsAt.touches (h : g.MeetsAt root k x e) : g.Touches x e := by
  obtain ⟨p, i, -, -, -, htouches, -⟩ := h
  exact htouches

theorem MeetsAt.lt_length (h : g.MeetsAt root k x e) : ∀ i ∈ k, i < g.edges.length := by
  obtain ⟨p, i, rfl, hfirst, hedge, -, -⟩ := h
  intro j hj
  rcases List.mem_append.mp hj with hj | hj
  · exact hfirst.lt_length j hj
  · rw [List.mem_singleton.mp hj]
    exact (List.getElem?_eq_some_iff.mp hedge).1

theorem position_unique {j : ℕ} (hi : g.edges[i]? = some e) (hj : g.edges[j]? = some e) : i = j :=
  (List.getElem?_inj (List.getElem?_eq_some_iff.mp hi).1 g.nodup).mp (hi.trans hj.symm)

/-- An edge has two ends. -/
theorem Touches.eq_of_ne (hx : g.Touches x e) (hy : g.Touches y e) (hz : g.Touches z e) (hxy : x ≠ y)
    (hzy : z ≠ y) : z = x := by
  rcases hx with rfl | rfl <;> rcases hy with rfl | rfl <;> rcases hz with rfl | rfl <;>
    first | rfl | contradiction

theorem MeetsAt.unique (h : g.MeetsAt root k x e) (h' : g.MeetsAt root r x e) : k = r := by
  obtain ⟨p, i, rfl, hfirst, hedge, -, -⟩ := h
  obtain ⟨q, j, rfl, hfirst', hedge', -, -⟩ := h'
  rw [hfirst.unique hfirst', position_unique hedge hedge']

/-- No two edges are met at the same turn. -/
theorem MeetsAt.turn_unique (h : g.MeetsAt root k x e) (h' : g.MeetsAt root k y e') : x = y ∧ e = e' := by
  obtain ⟨p, i, rfl, hfirst, hedge, -, -⟩ := h
  obtain ⟨q, j, heq, hfirst', hedge', -, -⟩ := h'
  obtain ⟨rfl, rfl⟩ := List.append_singleton_inj.mp heq
  exact ⟨hfirst.node_unique hfirst', Option.some.inj (hedge.symm.trans hedge')⟩

/-- The edges a node meets are those that none of the nodes entered before has met by then. -/
theorem meets_iff_not_met (hfirst : g.FirstRoute root p x) (hedge : g.edges[i]? = some e)
    (htouches : g.Touches x e) :
    g.MeetsAt root (p ++ [i]) x e ↔ ¬ ∃ y k, g.MeetsAt root k y e ∧ k < p ++ [0] := by
  simp only [lt_append_zero_iff]
  constructor
  · rintro ⟨q, j, heq, hfirst', hedge', -, hbefore⟩ ⟨y, k, ⟨r, l, rfl, hr, hl, hy, -⟩, hle⟩
    obtain ⟨rfl, rfl⟩ := List.append_singleton_inj.mp heq
    obtain rfl := position_unique hedge hl
    exact absurd hle (hbefore y r hy hr).not_ge
  · intro hnot
    refine ⟨p, i, rfl, hfirst, hedge, htouches, fun y r hy hr => ?_⟩
    by_contra hlt
    have hle : r ++ [i] ≤ p := not_lt.mp hlt
    refine hnot ⟨y, r ++ [i], ⟨r, i, rfl, hr, hedge, hy, fun z q hz hq => ?_⟩, hle⟩
    by_cases hzy : z = y
    · subst hzy
      rw [hq.unique hr]
      exact lt_append_singleton r i
    · have hxy : x ≠ y := by
        rintro rfl
        rw [hr.unique hfirst] at hle
        exact absurd (lt_append_singleton p i) hle.not_gt
      obtain rfl : z = x := htouches.eq_of_ne hy hz hxy hzy
      rw [hq.unique hfirst]
      exact ((lt_append_singleton r i).trans_le hle).trans (lt_append_singleton p i)

/-! ### What a search has done before a turn -/

/-- The search has entered the node before a turn. -/
def EnteredBefore (g : OrderedGraph V E) (root : V) (t : List ℕ) (x : V) : Prop :=
  ∃ r, g.FirstRoute root r x ∧ r < t

/-- The node has met the edge before a turn. -/
def MetBefore (g : OrderedGraph V E) (root : V) (t : List ℕ) (x : V) (e : E) : Prop :=
  ∃ k, g.MeetsAt root k x e ∧ k < t

theorem not_enteredBefore_self (h : g.FirstRoute root p x) : ¬ g.EnteredBefore root p x := by
  rintro ⟨r, hr, hlt⟩
  rw [hr.unique h] at hlt
  exact lt_irrefl p hlt

/-- With the first route to a node the node is entered. -/
theorem enteredBefore_zero_iff (h : g.FirstRoute root p x) :
    g.EnteredBefore root (p ++ [0]) y ↔ y = x ∨ g.EnteredBefore root p y := by
  simp only [EnteredBefore, lt_append_zero_iff]
  constructor
  · rintro ⟨r, hr, hle⟩
    rcases hle.eq_or_lt with rfl | hlt
    · exact .inl (hr.node_unique h)
    · exact .inr ⟨r, hr, hlt⟩
  · rintro (rfl | ⟨r, hr, hlt⟩)
    · exact ⟨p, h, le_rfl⟩
    · exact ⟨r, hr, hlt.le⟩

/-- A search begins at its root. -/
theorem enteredBefore_root_iff : g.EnteredBefore root [0] x ↔ x = root := by
  have hstart : g.EnteredBefore root ([] ++ [0]) x ↔ x = root ∨ g.EnteredBefore root [] x :=
    enteredBefore_zero_iff firstRoute_nil
  rw [List.nil_append] at hstart
  rw [hstart, or_iff_left_iff_imp]
  rintro ⟨r, -, hlt⟩
  exact absurd hlt (List.not_lt_nil r)

theorem metBefore_zero_iff : g.MetBefore root (p ++ [0]) y e' ↔
    g.MeetsAt root p y e' ∨ g.MetBefore root p y e' := by
  simp only [MetBefore, lt_append_zero_iff]
  constructor
  · rintro ⟨k, hk, hle⟩
    rcases hle.eq_or_lt with rfl | hlt
    · exact .inl hk
    · exact .inr ⟨k, hk, hlt⟩
  · rintro (hk | ⟨k, hk, hlt⟩)
    · exact ⟨p, hk, le_rfl⟩
    · exact ⟨k, hk, hlt.le⟩

/-- Where a first route goes on, the edge is met. -/
theorem FirstRoute.meetsAt (h : g.FirstRoute root (p ++ [i]) z) : ∃ e, g.edges[i]? = some e ∧ g.follows e ∧
    g.dst e = z ∧ g.FirstRoute root p (g.src e) ∧ g.MeetsAt root (p ++ [i]) (g.src e) e := by
  obtain ⟨e, hedge, hfollows, hsrc, rfl⟩ := h.of_snoc
  refine ⟨e, hedge, hfollows, rfl, hsrc, p, i, rfl, hsrc, hedge, .inl rfl, ?_⟩
  rintro y r (rfl | rfl) hr
  · rw [hr.unique hsrc]
    exact lt_append_singleton p i
  · rw [hr.unique h]
    exact (lt_append_singleton p i).trans (lt_append_singleton _ i)

theorem not_firstRoute_of_not_meetsAt (hedge : g.edges[i]? = some e) (hfirst : g.FirstRoute root p x)
    (h : ¬ g.MeetsAt root (p ++ [i]) x e) (z : V) : ¬ g.FirstRoute root (p ++ [i]) z := by
  intro hz
  obtain ⟨e', hedge', -, -, hsrc, hmeets⟩ := hz.meetsAt
  obtain rfl := Option.some.inj (hedge.symm.trans hedge')
  rw [hsrc.node_unique hfirst] at hmeets
  exact h hmeets

/-- An edge that is followed leads to a node entered before, or to one that is entered now. -/
theorem FirstRoute.of_follows (h : g.FirstRoute root p (g.src e)) (hedge : g.edges[i]? = some e)
    (hfollows : g.follows e) (hnew : ¬ g.EnteredBefore root (p ++ [i]) (g.dst e)) :
    g.FirstRoute root (p ++ [i]) (g.dst e) := by
  obtain ⟨r, hr, hle⟩ := h.exists_le hedge hfollows
  rcases hle.eq_or_lt with rfl | hlt
  · exact hr
  · exact absurd ⟨r, hr, hlt⟩ hnew

theorem enteredBefore_succ_of_none (hnone : ∀ z, ¬ g.FirstRoute root (p ++ [i]) z) :
    g.EnteredBefore root (p ++ [i + 1]) y ↔ g.EnteredBefore root (p ++ [i]) y := by
  simp only [EnteredBefore, lt_append_succ_iff]
  constructor
  · rintro ⟨r, hr, hlt | ⟨s, rfl⟩⟩
    · exact ⟨r, hr, hlt⟩
    · obtain ⟨z, hz⟩ := hr.of_append
      exact absurd hz (hnone z)
  · rintro ⟨r, hr, hlt⟩
    exact ⟨r, hr, .inl hlt⟩

/-- Where no first route goes on, the turn takes no longer than the meeting itself. -/
theorem metBefore_succ_of_none (hnone : ∀ z, ¬ g.FirstRoute root (p ++ [i]) z) :
    g.MetBefore root (p ++ [i + 1]) y e' ↔ g.MetBefore root (p ++ [i] ++ [0]) y e' := by
  simp only [MetBefore, lt_append_succ_iff, lt_append_zero_iff]
  constructor
  · rintro ⟨k, hk, hlt | ⟨s, rfl⟩⟩
    · exact ⟨k, hk, hlt.le⟩
    · cases s using List.reverseRecOn with
      | nil => exact ⟨_, hk, by rw [List.append_nil]⟩
      | append_singleton s j =>
        obtain ⟨q, l, heq, hfirst, -⟩ := hk
        rw [← List.append_assoc] at heq
        obtain ⟨rfl, -⟩ := List.append_singleton_inj.mp heq
        obtain ⟨z, hz⟩ := hfirst.of_append
        exact absurd hz (hnone z)
  · rintro ⟨k, hk, hle⟩
    rcases hle.eq_or_lt with rfl | hlt
    · exact ⟨_, hk, .inr List.prefix_rfl⟩
    · exact ⟨k, hk, .inl hlt⟩

/-- A turn at which the edge is not met leaves everything as it is. -/
theorem metBefore_succ_of_not_meetsAt (hedge : g.edges[i]? = some e) (hfirst : g.FirstRoute root p x)
    (h : ¬ g.MeetsAt root (p ++ [i]) x e) :
    g.MetBefore root (p ++ [i + 1]) y e' ↔ g.MetBefore root (p ++ [i]) y e' := by
  rw [metBefore_succ_of_none (not_firstRoute_of_not_meetsAt hedge hfirst h), metBefore_zero_iff,
    or_iff_right_iff_imp]
  rintro ⟨q, j, heq, hfirst', hedge', htouches, hbefore⟩
  obtain ⟨rfl, rfl⟩ := List.append_singleton_inj.mp heq
  obtain rfl := Option.some.inj (hedge.symm.trans hedge')
  rw [hfirst'.node_unique hfirst] at htouches
  exact absurd ⟨p, i, rfl, hfirst, hedge, htouches, hbefore⟩ h

/-- All turns of the node at the end of a route are over with the turn that entered it. -/
theorem enteredBefore_length_iff :
    g.EnteredBefore root (p ++ [i] ++ [g.edges.length]) y ↔ g.EnteredBefore root (p ++ [i + 1]) y := by
  refine exists_congr fun r => and_congr_right fun hr => ?_
  rw [lt_append_of_forall_lt hr.lt_length, lt_append_succ_iff]

theorem metBefore_length_iff :
    g.MetBefore root (p ++ [i] ++ [g.edges.length]) y e' ↔ g.MetBefore root (p ++ [i + 1]) y e' := by
  refine exists_congr fun k => and_congr_right fun hk => ?_
  rw [lt_append_of_forall_lt hk.lt_length, lt_append_succ_iff]

theorem metBefore_end_iff : g.MetBefore root [g.edges.length] x e ↔ g.Meets root x e := by
  refine exists_congr fun k => and_iff_left_of_imp fun hk => ?_
  rw [← List.nil_append [_], lt_append_of_forall_lt hk.lt_length]
  exact .inr List.nil_prefix

theorem not_meetsAt_nil : ¬ g.MeetsAt root [] x e := by
  rintro ⟨p, i, heq, -⟩
  simp at heq

theorem not_metBefore_zero : ¬ g.MetBefore root [0] x e := by
  rintro ⟨k, hk, hlt⟩
  rw [← List.nil_append [0], lt_append_zero_iff] at hlt
  rw [le_antisymm hlt (le_append_right [] k)] at hk
  exact not_meetsAt_nil hk

theorem metBefore_turn_iff (h : g.MeetsAt root k x e) :
    g.MetBefore root (k ++ [0]) y e' ↔ (y = x ∧ e' = e) ∨ g.MetBefore root k y e' := by
  rw [metBefore_zero_iff]
  refine or_congr_left ⟨fun hy => ?_, ?_⟩
  · obtain ⟨rfl, rfl⟩ := h.turn_unique hy
    exact ⟨rfl, rfl⟩
  · rintro ⟨rfl, rfl⟩
    exact h

/-! ### How often -/

/-- How often a node has met an edge before a turn. -/
noncomputable def metCount (g : OrderedGraph V E) (root : V) (t : List ℕ) : ℕ :=
  {a : V × E | g.MetBefore root t a.1 a.2}.ncard

theorem finite_met (g : OrderedGraph V E) (root : V) : {a : V × E | g.Meets root a.1 a.2}.Finite := by
  refine (List.finite_toSet (g.edges.flatMap fun e => [(g.src e, e), (g.dst e, e)])).subset ?_
  rintro ⟨x, e⟩ ⟨k, p, i, -, -, hedge, htouches, -⟩
  refine List.mem_flatMap.mpr ⟨e, List.mem_of_getElem? hedge, ?_⟩
  have hend : g.src e = x ∨ g.dst e = x := htouches
  rcases hend with rfl | rfl <;> simp

theorem metCount_congr {t t' : List ℕ}
    (h : ∀ x e, g.MetBefore root t x e ↔ g.MetBefore root t' x e) :
    g.metCount root t = g.metCount root t' := by
  simp only [metCount, h]

theorem metCount_zero : g.metCount root [0] = 0 := by
  simp [metCount, not_metBefore_zero]

/-- A turn at which an edge is met adds one. -/
theorem metCount_turn (h : g.MeetsAt root k x e) :
    g.metCount root (k ++ [0]) = g.metCount root k + 1 := by
  have hset : {a : V × E | g.MetBefore root (k ++ [0]) a.1 a.2} =
      insert (x, e) {a : V × E | g.MetBefore root k a.1 a.2} := by
    ext ⟨y, e'⟩
    rw [Set.mem_ofPred_eq, metBefore_turn_iff h, Set.mem_insert_iff, Set.mem_ofPred_eq, Prod.mk.injEq]
  have hnew : (x, e) ∉ {a : V × E | g.MetBefore root k a.1 a.2} := by
    rintro ⟨k', hk', hlt⟩
    rw [hk'.unique h] at hlt
    exact lt_irrefl k hlt
  have hfinite : {a : V × E | g.MetBefore root k a.1 a.2}.Finite :=
    (finite_met g root).subset fun a ⟨k', hk', _⟩ => ⟨k', hk'⟩
  rw [metCount, metCount, hset, Set.ncard_insert_of_notMem hnew hfinite]

/-- No more edges are met than there are meetings, and as many where each is met by one node. -/
theorem metCount_end_eq_iff : g.metCount root [g.edges.length] = {e | ∃ x, g.Meets root x e}.ncard ↔
    ∀ e x y, g.Meets root x e → g.Meets root y e → x = y := by
  have himage : {e | ∃ x, g.Meets root x e} = Prod.snd '' {a : V × E | g.Meets root a.1 a.2} := by
    ext e
    simp
  simp only [metCount, metBefore_end_iff]
  rw [himage, eq_comm, Set.ncard_image_iff (finite_met g root)]
  constructor
  · intro hinj e x y hx hy
    have heq : (x, e) = (y, e) := hinj hx hy rfl
    exact congrArg Prod.fst heq
  · rintro honce ⟨x, e⟩ hx ⟨y, e'⟩ hy rfl
    rw [honce e x y hx hy]

end OrderedGraph

end Krewhub
