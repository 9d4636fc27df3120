import Krewhub.Sandbox.Vetted

/-!
# Which nodes an accepted tree can hold

The trust model of the sandbox is that no disallowed construct, no banned name and no private
attribute is anywhere in accepted code. Every `visit_*` method keeps to it but one:
`visit_AnnAssign` looks at its target only when it is a plain name, so what stands inside the target
of `value.attr: T = e` or `value[i]: T = e` is never visited.
-/

namespace Krewhub

namespace Ast

/-- Not a disallowed construct, not a banned name, not a private or banned attribute. -/
def isClean (a : Ast) : Bool :=
  !a.isDisallowed && match a.node with
    | .name id _ => !isBannedIdentifier id
    | .attributeRef _ attr _ => !isBannedAttribute attr
    | _ => true

/-- The target of an annotated assignment that is not a plain name. -/
def looseTarget (a : Ast) : Option Ast :=
  match a.node with
  | .annAssign target _ _ _ =>
      match target.node with
      | .name .. => none
      | _ => some target
  | _ => none

theorem looseTarget_mem_children {a t : Ast} (h : t ∈ a.looseTarget) : t ∈ a.children := by
  obtain ⟨line, node⟩ := a
  simp only [looseTarget, Ast.node] at h
  split at h
  · split at h <;> simp_all [children, Ast.node]
  · cases h

end Ast

/-- The trust model: every node of the tree is clean. -/
def TreeClean (a : Ast) : Prop := ∀ m ∈ a.nodes, m.isClean = true

/-- The attribute and subscript targets of the annotated assignments are clean. -/
def AnnTargetsClean (a : Ast) : Prop := ∀ m ∈ a.nodes, ∀ t ∈ m.looseTarget, TreeClean t

instance (a : Ast) : Decidable (TreeClean a) := by unfold TreeClean; infer_instance

instance (a : Ast) : Decidable (AnnTargetsClean a) := by unfold AnnTargetsClean; infer_instance

theorem treeClean_iff {a : Ast} :
    TreeClean a ↔ a.isClean = true ∧ ∀ c ∈ a.children, TreeClean c := by
  constructor
  · intro h
    exact ⟨h a a.self_mem_nodes, fun c hc m hm => h m (Ast.nodes_subset_of_mem_children hc hm)⟩
  · rintro ⟨hself, hchildren⟩ m hm
    rcases Ast.mem_nodes.mp hm with rfl | ⟨c, hc, hmc⟩
    · exact hself
    · exact hchildren c hc m hmc

theorem AnnTargetsClean.child {a c : Ast} (h : AnnTargetsClean a) (hc : c ∈ a.children) :
    AnnTargetsClean c :=
  fun m hm => h m (Ast.nodes_subset_of_mem_children hc hm)

theorem TreeClean.annTargetsClean {a : Ast} (h : TreeClean a) : AnnTargetsClean a := by
  intro m hm t ht k hk
  have htm : k ∈ m.nodes := Ast.nodes_subset_of_mem_children (Ast.looseTarget_mem_children ht) hk
  exact h k (Ast.nodes_trans hm htm)

theorem treeClean_name {line : Option Nat} {id : String} {ctx : ExprContext}
    (h : isBannedIdentifier id = false) : TreeClean (.mk line (.name id ctx)) := by
  rw [treeClean_iff]
  exact ⟨by simp [Ast.isClean, Ast.isDisallowed, Ast.node, h], by simp [Ast.children, Ast.node]⟩

/-- A vetted tree is clean once the targets the visitor skips are. -/
theorem Vetted.treeClean {defined : List String} {a : Ast} (h : Vetted defined a)
    (hann : AnnTargetsClean a) : TreeClean a := by
  induction h with
  | @module line body _ ih =>
    rw [treeClean_iff]
    exact ⟨rfl, fun c hc => ih c hc (hann.child hc)⟩
  | asyncFunctionDef _ _ ih =>
    rw [treeClean_iff]
    exact ⟨rfl, fun c hc => ih c hc (hann.child hc)⟩
  | name hid _ => exact treeClean_name hid
  | @attributeRef line value attr ctx hattr _ ih =>
    have hmem : value ∈ (Ast.mk line (.attributeRef value attr ctx)).children := by
      simp [Ast.children, Ast.node]
    rw [treeClean_iff]
    refine ⟨by simp [Ast.isClean, Ast.isDisallowed, Ast.node, hattr], fun c hc => ?_⟩
    obtain rfl : c = value := by simpa [Ast.children, Ast.node] using hc
    exact ih (hann.child hmem)
  | @assign line targets value htargets _ ih =>
    have hmem : value ∈ (Ast.mk line (.assign targets value)).children := by
      simp [Ast.children, Ast.node]
    rw [treeClean_iff]
    refine ⟨rfl, fun c hc => ?_⟩
    rcases List.mem_append.mp hc with hc | hc
    · obtain ⟨tline, id, ctx, rfl, hid, _⟩ := htargets c hc
      exact treeClean_name hid
    · obtain rfl := List.mem_singleton.mp hc
      exact ih (hann.child hmem)
  | @annAssign line target annot value simple htarget _ _ ihannot ihvalue =>
    rw [treeClean_iff]
    refine ⟨rfl, fun c hc => ?_⟩
    have hclean := hann.child hc
    rcases List.mem_cons.mp hc with rfl | hc
    · obtain ⟨tline, tnode⟩ := c
      by_cases hname : ∃ id ctx, tnode = .name id ctx
      · obtain ⟨id, ctx, rfl⟩ := hname
        exact treeClean_name (htarget tline id ctx rfl).1
      · have hloose : Ast.mk tline tnode ∈
            (Ast.mk line (.annAssign (.mk tline tnode) annot value simple)).looseTarget := by
          cases tnode <;> simp_all [Ast.looseTarget, Ast.node]
        exact hann _ (Ast.self_mem_nodes _) _ hloose
    · rcases List.mem_cons.mp hc with rfl | hc
      · exact ihannot hclean
      · exact ihvalue c hc hclean
  | @ordinary a hkind hallowed _ ih =>
    rw [treeClean_iff]
    refine ⟨?_, fun c hc => ih c hc (hann.child hc)⟩
    obtain ⟨line, node⟩ := a
    cases node <;> simp_all [Ast.isOrdinary, Ast.isClean, Ast.node]

/-- Accepted code is clean exactly when the targets `visit_AnnAssign` skips are. -/
theorem accepts_treeClean_iff {tree : Ast} (h : Accepts tree) :
    TreeClean tree ↔ AnnTargetsClean tree := by
  exact ⟨TreeClean.annTargetsClean, h.vetted.treeClean⟩

/-- `graph = None` followed by the annotated assignment `ctx.<attr>: int = None`. -/
def annotatedAttribute (attr : String) : Ast :=
  .mk none (.module [
    .mk (some 1) (.assign [.mk (some 1) (.name "graph" .store)] (.mk (some 1) .constant)),
    .mk (some 2) (.annAssign
      (.mk (some 2) (.attributeRef (.mk (some 2) (.name "ctx" .load)) attr .store))
      (.mk (some 2) (.name "int" .load)) (some (.mk (some 2) .constant)) false)])

theorem accepts_treeClean_iff_label :
    TreeClean (annotatedAttribute "label") ↔ AnnTargetsClean (annotatedAttribute "label") :=
  accepts_treeClean_iff (by decide +kernel)

/-- `ctx.__class__: int = None` passes the validator. -/
theorem accepts_dunder_class :
    Accepts (annotatedAttribute "__class__") ∧ ¬ TreeClean (annotatedAttribute "__class__") := by
  decide +kernel

end Krewhub
