import Krewhub.Sandbox.Validator

/-!
# What an accepted tree looks like

`Vetted defined` is the validator read as a rule system instead of a traversal: each rule says what
was looked at at one class of node, and `defined` bounds the names the flat set of defined names ever
held, which are the names the code assigns. `Accepts.vetted` is the only fact about the traversal the
rest of the development uses; where a rule leaves a child out, the traversal never looked at it.
-/

namespace Krewhub

/-- The node's class has no `visit_*` method that leaves a child out or checks anything. -/
def Ast.isOrdinary (a : Ast) : Bool :=
  match a.node with
  | .module .. | .functionDef .. | .asyncFunctionDef .. | .name .. | .attributeRef .. | .assign ..
  | .annAssign .. => false
  | _ => true

/-- The names a Load is let through with when the code defines the names of `defined`. -/
def LoadAllowed (defined : List String) (id : String) : Prop :=
  id ∈ injectedNames ∨ id ∈ allowedBuiltins ∨ id ∈ conventionalLocals ∨ id ∈ defined

inductive Vetted (defined : List String) : Ast → Prop
  | module {line : Option Nat} {body : List Ast} (hbody : ∀ s ∈ body, Vetted defined s) :
      Vetted defined (.mk line (.module body))
  | asyncFunctionDef {line : Option Nat} {name : String} {args : Ast} {body decos : List Ast}
      {returns : Option Ast} {tparams : List Ast} (hname : isBannedIdentifier name = false)
      (hchildren : ∀ c ∈ (Ast.mk line
        (.asyncFunctionDef name args body decos returns tparams)).children, Vetted defined c) :
      Vetted defined (.mk line (.asyncFunctionDef name args body decos returns tparams))
  | name {line : Option Nat} {id : String} {ctx : ExprContext}
      (hid : isBannedIdentifier id = false) (hload : ctx = .load → LoadAllowed defined id) :
      Vetted defined (.mk line (.name id ctx))
  | attributeRef {line : Option Nat} {value : Ast} {attr : String} {ctx : ExprContext}
      (hattr : isBannedAttribute attr = false) (hvalue : Vetted defined value) :
      Vetted defined (.mk line (.attributeRef value attr ctx))
  | assign {line : Option Nat} {targets : List Ast} {value : Ast}
      (htargets : ∀ t ∈ targets, ∃ tline id ctx, t = .mk tline (.name id ctx) ∧
        isBannedIdentifier id = false ∧ id ∈ defined)
      (hvalue : Vetted defined value) : Vetted defined (.mk line (.assign targets value))
  | annAssign {line : Option Nat} {target annot : Ast} {value : Option Ast} {simple : Bool}
      (htarget : ∀ tline id ctx, target = .mk tline (.name id ctx) →
        isBannedIdentifier id = false ∧ id ∈ defined)
      (hannot : Vetted defined annot) (hvalue : ∀ c ∈ value.toList, Vetted defined c) :
      Vetted defined (.mk line (.annAssign target annot value simple))
  | ordinary {a : Ast} (hkind : a.isOrdinary = true) (hallowed : a.isDisallowed = false)
      (hchildren : ∀ c ∈ a.children, Vetted defined c) : Vetted defined a

namespace Validator

/-! ### The traversal only adds -/

/-- `w` is `v` after more of the traversal. -/
structure Extends (v w : Validator) : Prop where
  violations : v.violations <+: w.violations
  definedNames : v.definedNames ⊆ w.definedNames
  stepFuncs : v.stepFuncs ⊆ w.stepFuncs

theorem Extends.refl (v : Validator) : Extends v v :=
  ⟨List.prefix_rfl, List.Subset.refl _, List.Subset.refl _⟩

theorem Extends.trans {u v w : Validator} (huv : Extends u v) (hvw : Extends v w) : Extends u w :=
  ⟨huv.violations.trans hvw.violations, List.Subset.trans huv.definedNames hvw.definedNames,
    List.Subset.trans huv.stepFuncs hvw.stepFuncs⟩

theorem extends_flag (v : Validator) (a : Ast) (msg : String) : Extends v (v.flag a msg) :=
  ⟨List.prefix_append _ _, List.Subset.refl _, List.Subset.refl _⟩

theorem extends_define (v : Validator) (name : String) : Extends v (v.define name) :=
  ⟨List.prefix_rfl, List.subset_cons_self _ _, List.Subset.refl _⟩

theorem extends_addStepFunc (v : Validator) (name : String) : Extends v (v.addStepFunc name) :=
  ⟨List.prefix_rfl, List.Subset.refl _, List.subset_cons_self _ _⟩

theorem extends_checkName (v : Validator) (a : Ast) (name : String) :
    Extends v (v.checkName a name) := by
  unfold checkName
  split
  · exact extends_flag _ _ _
  · exact .refl v

theorem extends_foldl {α : Type} {f : Validator → α → Validator} {l : List α}
    (hf : ∀ v, ∀ x ∈ l, Extends v (f v x)) (v : Validator) : Extends v (l.foldl f v) := by
  induction l generalizing v with
  | nil => exact .refl v
  | cons x l ih =>
    exact (hf v x List.mem_cons_self).trans
      (ih (fun v y hy => hf v y (List.mem_cons_of_mem _ hy)) (f v x))

theorem extends_collect (v : Validator) (stmt : Ast) : Extends v (v.collect stmt) := by
  unfold collect
  split
  · exact (extends_addStepFunc _ _).trans (extends_define _ _)
  · exact (extends_addStepFunc _ _).trans (extends_define _ _)
  · refine extends_foldl (fun v tgt _ => ?_) v
    split
    · exact extends_define _ _
    · exact .refl v
  · split
    · exact extends_define _ _
    · exact .refl v
  · exact .refl v

theorem extends_checkDecorator (v : Validator) (deco : Ast) :
    Extends v (v.checkDecorator deco) := by
  unfold checkDecorator
  split
  · exact .refl v
  · exact extends_flag _ _ _

theorem extends_checkLoad (v : Validator) (a : Ast) (name : String) :
    Extends v (v.checkLoad a name) := by
  unfold checkLoad
  split
  · exact .refl v
  · exact extends_flag _ _ _

theorem extends_visitName (v : Validator) (a : Ast) (name : String) (ctx : ExprContext) :
    Extends v (v.visitName a name ctx) := by
  have hcheck := extends_checkName v a name
  cases ctx with
  | load => exact hcheck.trans (extends_checkLoad _ _ _)
  | store => exact hcheck
  | del => exact hcheck

theorem extends_assignTarget (v : Validator) (tgt : Ast) : Extends v (v.assignTarget tgt) := by
  unfold assignTarget
  split
  · exact (extends_define _ _).trans (extends_checkName _ _ _)
  · exact extends_flag _ _ _

theorem extends_annTarget (v : Validator) (target : Ast) : Extends v (v.annTarget target) := by
  unfold annTarget
  split
  · exact (extends_define _ _).trans (extends_checkName _ _ _)
  · exact .refl v

theorem extends_visitAttribute (v : Validator) (a : Ast) (attr : String) :
    Extends v (v.visitAttribute a attr) := by
  unfold visitAttribute
  split
  · exact extends_flag _ _ _
  · split
    · exact extends_flag _ _ _
    · exact .refl v

theorem extends_enter (v : Validator) (a : Ast) : Extends v (v.enter a) := by
  unfold enter
  split
  · exact extends_foldl (fun v s _ => extends_collect v s) v
  · exact extends_flag _ _ _
  · exact (extends_checkName _ _ _).trans
      (extends_foldl (fun v d _ => extends_checkDecorator v d) _)
  · exact extends_visitName _ _ _ _
  · exact extends_visitAttribute _ _ _
  · exact extends_foldl (fun v t _ => extends_assignTarget v t) v
  · exact extends_annTarget _ _
  · exact .refl v

theorem extends_visit (a : Ast) (v : Validator) : Extends v (visit a v) := by
  induction a using Ast.childInduction generalizing v with
  | h a ih =>
    cases hdis : a.isDisallowed with
    | true =>
      rw [visit_of_isDisallowed hdis]
      exact extends_flag _ _ _
    | false =>
      rw [visit_eq hdis]
      exact (extends_enter v a).trans
        (extends_foldl (fun w c hc => ih c (a.descends_subset hc) w) _)

/-! ### What a traversal without violations has checked -/

/-- The traversal recorded nothing and defined names of `defined` only. -/
structure Settled (defined : List String) (v : Validator) : Prop where
  violations : v.violations = []
  definedNames : v.definedNames ⊆ defined
  stepFuncs : v.stepFuncs ⊆ defined

variable {defined : List String} {v w : Validator}

theorem Settled.of_extends (hw : Settled defined w) (h : Extends v w) : Settled defined v :=
  ⟨List.prefix_nil.mp (hw.violations ▸ h.violations), List.Subset.trans h.definedNames hw.definedNames,
    List.Subset.trans h.stepFuncs hw.stepFuncs⟩

theorem not_settled_flag (a : Ast) (msg : String) : ¬ Settled defined (v.flag a msg) := by
  intro h
  simpa [flag] using h.violations

/-- Every step of a settled fold was settled. -/
theorem Settled.of_foldl {α : Type} {f : Validator → α → Validator} {l : List α}
    (hf : ∀ v, ∀ x ∈ l, Extends v (f v x)) (h : Settled defined (l.foldl f v)) :
    ∀ x ∈ l, ∃ u, Settled defined (f u x) := by
  induction l generalizing v with
  | nil => simp
  | cons x l ih =>
    have hrest : ∀ v, ∀ y ∈ l, Extends v (f v y) := fun v y hy =>
      hf v y (List.mem_cons_of_mem _ hy)
    intro y hy
    rcases List.mem_cons.mp hy with rfl | hy
    · exact ⟨v, h.of_extends (extends_foldl hrest _)⟩
    · exact ih hrest h y hy

theorem Settled.checkName {a : Ast} {name : String} (h : Settled defined (v.checkName a name)) :
    isBannedIdentifier name = false := by
  unfold Validator.checkName at h
  split at h
  · exact absurd h (not_settled_flag _ _)
  · simp_all

theorem Settled.checkLoad {a : Ast} {name : String} (h : Settled defined (v.checkLoad a name)) :
    LoadAllowed defined name := by
  have hv : Settled defined v := h.of_extends (extends_checkLoad _ _ _)
  unfold Validator.checkLoad at h
  split at h
  · rename_i hallows
    simp only [allowsLoad, Bool.or_eq_true, decide_eq_true_eq] at hallows
    rcases hallows with (((h1 | h1) | h1) | h1) | h1
    · exact .inl h1
    · exact .inr (.inl h1)
    · exact .inr (.inr (.inr (hv.definedNames h1)))
    · exact .inr (.inr (.inr (hv.stepFuncs h1)))
    · exact .inr (.inr (.inl h1))
  · exact absurd h (not_settled_flag _ _)

theorem Settled.visitName {a : Ast} {name : String} {ctx : ExprContext}
    (h : Settled defined (v.visitName a name ctx)) :
    isBannedIdentifier name = false ∧ (ctx = .load → LoadAllowed defined name) := by
  cases ctx with
  | load =>
    have hname := h.of_extends (extends_checkLoad _ _ _)
    exact ⟨hname.checkName, fun _ => Settled.checkLoad h⟩
  | store => exact ⟨Settled.checkName h, nofun⟩
  | del => exact ⟨Settled.checkName h, nofun⟩

theorem Settled.visitAttribute {a : Ast} {attr : String}
    (h : Settled defined (v.visitAttribute a attr)) : isBannedAttribute attr = false := by
  unfold Validator.visitAttribute at h
  split at h
  · exact absurd h (not_settled_flag _ _)
  · split at h
    · exact absurd h (not_settled_flag _ _)
    · simp_all [isBannedAttribute]

theorem Settled.define_checkName {a : Ast} {name : String}
    (h : Settled defined ((v.define name).checkName a name)) :
    isBannedIdentifier name = false ∧ name ∈ defined := by
  have hdefine := h.of_extends (extends_checkName _ _ _)
  exact ⟨h.checkName, hdefine.definedNames List.mem_cons_self⟩

theorem Settled.assignTarget {tgt : Ast} (h : Settled defined (v.assignTarget tgt)) :
    ∃ line id ctx, tgt = .mk line (.name id ctx) ∧ isBannedIdentifier id = false ∧
      id ∈ defined := by
  obtain ⟨line, node⟩ := tgt
  unfold Validator.assignTarget at h
  split at h
  · rename_i id ctx heq
    obtain rfl : node = .name id ctx := heq
    exact ⟨line, id, ctx, rfl, h.define_checkName⟩
  · exact absurd h (not_settled_flag _ _)

theorem Settled.annTarget {line : Option Nat} {id : String} {ctx : ExprContext}
    (h : Settled defined (v.annTarget (.mk line (.name id ctx)))) :
    isBannedIdentifier id = false ∧ id ∈ defined :=
  Settled.define_checkName h

theorem Settled.asyncFunctionDef {a : Ast} {name : String} {decos : List Ast}
    (h : Settled defined (decos.foldl checkDecorator (v.checkName a name))) :
    isBannedIdentifier name = false :=
  Settled.checkName (h.of_extends (extends_foldl (fun w d _ => extends_checkDecorator w d) _))

end Validator

theorem Ast.mem_descends_of_isOrdinary {a c : Ast} (h : a.isOrdinary = true)
    (hc : c ∈ a.children) : c ∈ a.descends := by
  obtain ⟨line, node⟩ := a
  cases node <;> simp_all [isOrdinary, descends, children, Ast.node]

/-- A node whose own checks settled and whose visited children are vetted is vetted. -/
theorem Vetted.of_settled_enter {defined : List String} {v : Validator} {a : Ast}
    (hdis : a.isDisallowed = false) (henter : v.enter a |>.Settled defined)
    (hdescends : ∀ c ∈ a.descends, Vetted defined c) : Vetted defined a := by
  by_cases hord : a.isOrdinary = true
  · exact .ordinary hord hdis fun c hc => hdescends c (Ast.mem_descends_of_isOrdinary hord hc)
  · obtain ⟨line, node⟩ := a
    cases node
    case module body => exact .module hdescends
    case functionDef => exact absurd henter (Validator.not_settled_flag _ _)
    case asyncFunctionDef => exact .asyncFunctionDef henter.asyncFunctionDef hdescends
    case name => exact .name henter.visitName.1 henter.visitName.2
    case attributeRef value attr ctx =>
      have hattr := henter.visitAttribute
      exact .attributeRef hattr (hdescends value (by simp [Ast.descends, Ast.node, hattr]))
    case assign targets value =>
      refine .assign (fun t ht => ?_) (hdescends value (by simp [Ast.descends, Ast.node]))
      obtain ⟨u, hu⟩ := henter.of_foldl (fun w t _ => Validator.extends_assignTarget w t) t ht
      exact hu.assignTarget
    case annAssign target annot value simple =>
      refine .annAssign (fun tline id ctx htarget => ?_)
        (hdescends annot (by simp [Ast.descends, Ast.node]))
        (fun c hc => hdescends c (by simp_all [Ast.descends, Ast.node]))
      subst htarget
      exact henter.annTarget
    all_goals exact absurd rfl hord

/-- What the traversal accepts is vetted. -/
theorem vetted_of_settled {defined : List String} {v : Validator} {a : Ast}
    (h : (Validator.visit a v).Settled defined) : Vetted defined a := by
  induction a using Ast.childInduction generalizing v with
  | h a ih =>
    cases hdis : a.isDisallowed with
    | true =>
      rw [Validator.visit_of_isDisallowed hdis] at h
      exact absurd h (Validator.not_settled_flag _ _)
    | false =>
      rw [Validator.visit_eq hdis] at h
      refine .of_settled_enter hdis
        (h.of_extends (Validator.extends_foldl (fun w c _ => Validator.extends_visit c w) _))
        fun c hc => ?_
      obtain ⟨u, hu⟩ := h.of_foldl (fun w c _ => Validator.extends_visit c w) c hc
      exact ih c (a.descends_subset hc) hu

/-! ### The flat set of defined names -/

namespace Ast

def nameOf (a : Ast) : List String :=
  match a.node with
  | .name id _ => [id]
  | _ => []

/-- The functions defined by a statement at the top of a module. -/
def functionName (stmt : Ast) : List String :=
  match stmt.node with
  | .functionDef name .. | .asyncFunctionDef name .. => [name]
  | _ => []

/-- The names the validator takes as defined by a node. -/
def assignedHere (a : Ast) : List String :=
  match a.node with
  | .module body => body.flatMap functionName
  | .assign targets _ => targets.flatMap nameOf
  | .annAssign target _ _ _ => target.nameOf
  | _ => []

/-- The names the code assigns anywhere, in whatever scope, and the functions of its top level. -/
def assignedNames (a : Ast) : List String := a.nodes.flatMap assignedHere

theorem assignedHere_subset {a m : Ast} (h : m ∈ a.nodes) : m.assignedHere ⊆ a.assignedNames :=
  fun _ hid => List.mem_flatMap.mpr ⟨m, h, hid⟩

theorem assignedNames_subset_of_mem_children {a c : Ast} (h : c ∈ a.children) :
    c.assignedNames ⊆ a.assignedNames := by
  intro id hid
  obtain ⟨m, hm, hid⟩ := List.mem_flatMap.mp hid
  exact assignedHere_subset (nodes_subset_of_mem_children h hm) hid

end Ast

namespace Validator

/-- The visitor has taken names of `names` only as defined. -/
structure Within (names : List String) (v : Validator) : Prop where
  definedNames : v.definedNames ⊆ names
  stepFuncs : v.stepFuncs ⊆ names

variable {names : List String}

theorem Within.flag (h : Within names v) (a : Ast) (msg : String) : Within names (v.flag a msg) :=
  ⟨h.definedNames, h.stepFuncs⟩

theorem Within.define (h : Within names v) {name : String} (hname : name ∈ names) :
    Within names (v.define name) :=
  ⟨List.cons_subset.mpr ⟨hname, h.definedNames⟩, h.stepFuncs⟩

theorem Within.addStepFunc (h : Within names v) {name : String} (hname : name ∈ names) :
    Within names (v.addStepFunc name) :=
  ⟨h.definedNames, List.cons_subset.mpr ⟨hname, h.stepFuncs⟩⟩

theorem Within.checkName (h : Within names v) (a : Ast) (name : String) :
    Within names (v.checkName a name) := by
  unfold Validator.checkName
  split
  · exact h.flag _ _
  · exact h

theorem Within.foldl {α : Type} {f : Validator → α → Validator} {l : List α}
    (hf : ∀ v, ∀ x ∈ l, Within names v → Within names (f v x)) (h : Within names v) :
    Within names (l.foldl f v) := by
  induction l generalizing v with
  | nil => exact h
  | cons x l ih =>
    exact ih (fun v y hy => hf v y (List.mem_cons_of_mem _ hy)) (hf v x List.mem_cons_self h)

theorem Within.collect (h : Within names v) {stmt : Ast} (hfun : stmt.functionName ⊆ names)
    (hstmt : stmt.assignedHere ⊆ names) : Within names (v.collect stmt) := by
  unfold Validator.collect
  split
  · rename_i name _ _ _ _ _ heq
    have hname : name ∈ names := hfun (by simp [Ast.functionName, heq])
    exact (h.addStepFunc hname).define hname
  · rename_i name _ _ _ _ _ heq
    have hname : name ∈ names := hfun (by simp [Ast.functionName, heq])
    exact (h.addStepFunc hname).define hname
  · rename_i targets _ heq
    refine h.foldl fun w tgt htgt hw => ?_
    split
    · rename_i id _ hid
      refine hw.define (hstmt ?_)
      simp only [Ast.assignedHere, heq, List.mem_flatMap]
      exact ⟨tgt, htgt, by simp [Ast.nameOf, hid]⟩
    · exact hw
  · rename_i heq
    split
    · rename_i hid
      exact h.define (hstmt (by simp [Ast.assignedHere, heq, Ast.nameOf, hid]))
    · exact h
  · exact h

theorem Within.enter (h : Within names v) {a : Ast} (ha : a.assignedNames ⊆ names) :
    Within names (v.enter a) := by
  have hhere : a.assignedHere ⊆ names := List.Subset.trans (Ast.assignedHere_subset a.self_mem_nodes) ha
  unfold Validator.enter
  split
  · rename_i body heq
    refine h.foldl fun w stmt hstmt hw => ?_
    have hchild : stmt ∈ a.children := by simpa [Ast.children, heq] using hstmt
    refine hw.collect (fun id hid => hhere ?_) ?_
    · simp only [Ast.assignedHere, heq, List.mem_flatMap]
      exact ⟨stmt, hstmt, hid⟩
    · exact List.Subset.trans (Ast.assignedHere_subset
        (Ast.nodes_subset_of_mem_children hchild stmt.self_mem_nodes)) ha
  · exact h.flag _ _
  · refine (h.checkName _ _).foldl fun w deco _ hw => ?_
    unfold checkDecorator
    split
    · exact hw
    · exact hw.flag _ _
  · rename_i id ctx _
    cases ctx with
    | load =>
      simp only [visitName, checkLoad]
      split
      · exact h.checkName _ _
      · exact (h.checkName _ _).flag _ _
    | store => exact h.checkName _ _
    | del => exact h.checkName _ _
  · unfold visitAttribute
    split
    · exact h.flag _ _
    · split
      · exact h.flag _ _
      · exact h
  · rename_i targets _ heq
    refine h.foldl fun w tgt htgt hw => ?_
    unfold assignTarget
    split
    · rename_i id _ hid
      refine (hw.define (hhere ?_)).checkName _ _
      simp only [Ast.assignedHere, heq, List.mem_flatMap]
      exact ⟨tgt, htgt, by simp [Ast.nameOf, hid]⟩
    · exact hw.flag _ _
  · rename_i heq
    unfold annTarget
    split
    · rename_i hid
      exact (h.define (hhere (by simp [Ast.assignedHere, heq, Ast.nameOf, hid]))).checkName _ _
    · exact h
  · exact h

theorem Within.visit {a : Ast} (h : Within names v) (ha : a.assignedNames ⊆ names) :
    Within names (Validator.visit a v) := by
  induction a using Ast.childInduction generalizing v with
  | h a ih =>
    cases hdis : a.isDisallowed with
    | true =>
      rw [visit_of_isDisallowed hdis]
      exact h.flag _ _
    | false =>
      rw [visit_eq hdis]
      refine (h.enter ha).foldl fun w c hc hw => ?_
      have hchild := a.descends_subset hc
      exact ih c hchild hw (List.Subset.trans (Ast.assignedNames_subset_of_mem_children hchild) ha)

end Validator

/-- An accepted tree is vetted against the names it assigns. -/
theorem Accepts.vetted {tree : Ast} (h : Accepts tree) : Vetted tree.assignedNames tree := by
  have hwithin : (Validator.visit tree {}).Within tree.assignedNames :=
    Validator.Within.visit ⟨List.nil_subset _, List.nil_subset _⟩ (List.Subset.refl _)
  exact vetted_of_settled ⟨h.visit_violations, hwithin.definedNames, hwithin.stepFuncs⟩

end Krewhub
