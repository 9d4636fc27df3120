import Krewhub.Base.FirstRoutes
import Krewhub.Routes.CascadeClosure
import Krewhub.Routes.DanglingDeps
import Krewhub.Routes.LinkRoundTrip

/-!
# What a cascade reports

The summary of a cascade is added up along the recursion. The tasks it says were cancelled are those that
were, each once, because a cancelled task is never cancelled again. The other two parts count turns: a link
is counted by each of its two tasks that has read it before the other revoked it, and a task is listed as
unblocked by every upstream whose pipe to it is met.

When a task comes to read its links is a matter of the first routes by which the cascade reaches the tasks,
so both conditions are about the links and the statuses before the cascade.
-/

namespace Krewhub

open Coro OrderedGraph

/-! ### Reports along the recursion -/

/-- What holds between the databases before and after and the summary of each part of a cascade. -/
structure CascadeAccounts (R : Db → Db → CascadeSummary → Prop) : Prop where
  refl : ∀ db, R db db {}
  trans : ∀ {db db₁ db₂ s s'}, R db db₁ s → R db₁ db₂ s' → R db db₂ (s.add s')
  revoke : ∀ id now db, R db (Op.exec (.revokeLink id now) db) { linksRevoked := 1 }
  cancel : ∀ {taskId d db updated db'},
    (TaskService.cancelTask taskId d).run Op.exec db = (.ok (some updated), db') →
      R db db' { childrenCancelled := [taskId] }
  free : ∀ {child : Task} {upstream now db}, db.tasks.get child.id = some child →
    upstream ∈ child.dependsOnTaskIds →
      R db (Op.exec (.updateTask child.id (.patch
        { dependsOnTaskIds := some (child.dependsOnTaskIds.filter (· ≠ upstream)) } now) none none) db)
        { depsUnblocked := [child.id] }

/-- A cascade whose runs that end keep the account. -/
def Cascade.Accounts (recurse : Cascade) (R : Db → Db → CascadeSummary → Prop) : Prop :=
  ∀ taskId seen d db out db', (recurse taskId seen d).run Op.exec db = (.ok out, db') → R db db' out.1

section Accounts

variable {R : Db → Db → CascadeSummary → Prop} (hR : CascadeAccounts R) {recurse : Cascade} {taskId : String}
  {link : Link} {seen : List String} {d : Draws} {db db' : Db} {out : CascadeSummary × List String}
include hR

theorem accounts_cascadeChild (hrecurse : recurse.Accounts R) {child : Task}
    (hchild : db.tasks.get child.id = some child)
    (h : (cascadeChild recurse taskId link child seen d).run Op.exec db = (.ok out, db')) :
    R db db' out.1 := by
  rw [cascadeChild] at h
  split at h
  · split at h
    · cases h
      exact hR.refl db
    obtain ⟨updated, db₁, hcancel, h⟩ := exists_of_run_bind Op.exec h
    cases updated with
    | none =>
      rcases run_cancelTask child.id (d.sub 0) db with ⟨_, hrun⟩ | ⟨_, _, hrun, _⟩
      · rw [hrun] at hcancel
        cases hcancel
        cases h
        exact hR.refl db
      · rw [hrun] at hcancel
        cases hcancel
    | some updated =>
      obtain ⟨sub, db₂, hsub, h⟩ := exists_of_run_bind Op.exec h
      cases h
      exact hR.trans (hR.cancel hcancel) (hrecurse _ _ _ _ _ _ hsub)
  · split at h
    · rename_i hpipe
      rw [run_bind_ok Op.exec (TaskRepo.run_update rfl db), Op.get_updateTask_self hchild] at h
      cases h
      exact hR.free hchild hpipe.2
    · cases h
      exact hR.refl db

theorem accounts_cascadeLink (hrecurse : recurse.Accounts R) {now : Nat}
    (h : (cascadeLink recurse taskId now link seen d).run Op.exec db = (.ok out, db')) :
    R db db' out.1 := by
  rw [cascadeLink, Coro.perform, Coro.await_bind, Coro.run_await, Coro.done_bind] at h
  have hrevoke := hR.revoke link.id now db
  split at h
  · cases h
    exact hrevoke
  rw [TaskRepo.run_get_bind] at h
  cases hchild : (Op.exec (.revokeLink link.id now) db).tasks.get link.toTaskId with
  | none =>
    rw [hchild] at h
    cases h
    exact hrevoke
  | some child =>
    rw [hchild] at h
    obtain ⟨head, db₁, hhead, h⟩ := exists_of_run_bind Op.exec h
    have hid : child.id = link.toTaskId := Table.key_eq_of_get hchild
    rw [← hid] at hchild
    cases h
    exact hR.trans hrevoke (accounts_cascadeChild hR hrecurse hchild hhead)

theorem accounts_cascadeLinks (hrecurse : recurse.Accounts R) {now : Nat} {links : List Link}
    (h : (cascadeLinks recurse taskId now d links seen).run Op.exec db = (.ok out, db')) :
    R db db' out.1 := by
  induction links generalizing seen db out with
  | nil =>
    cases h
    exact hR.refl db'
  | cons link links ih =>
    obtain ⟨head, db₁, hhead, h⟩ := exists_of_run_bind Op.exec h
    obtain ⟨rest, db₂, hrest, h⟩ := exists_of_run_bind Op.exec h
    cases h
    exact hR.trans (accounts_cascadeLink hR hrecurse hhead) (ih hrest)

theorem accounts_cascade (depth : Nat) : (cascadeOnTaskTermination depth).Accounts R := by
  induction depth with
  | zero =>
    intro taskId seen d db out db' h
    cases h
  | succ depth ih =>
    intro taskId seen d db out db' h
    rw [cascadeOnTaskTermination] at h
    dsimp only at h
    split at h
    · cases h
      exact hR.refl db
    rw [run_bind_ok Op.exec (Sql.run_select _ db)] at h
    obtain ⟨out', db₁, hloop, h⟩ := exists_of_run_bind Op.exec h
    cases h
    exact accounts_cascadeLinks hR ih hloop

end Accounts

/-! ### Cancelled tasks and dropped dependencies -/

/-- The tasks that were cancelled, in a list without repetition. -/
structure CancelsReported (db db' : Db) (cancelled : List String) : Prop where
  nodup : cancelled.Nodup
  mem : ∀ x ∈ cancelled, Cancellable db x ∧ db'.statusOf x = some .cancelled
  same : ∀ x, x ∉ cancelled → db'.statusOf x = db.statusOf x

theorem CancelsReported.of_same {db db' : Db} (h : ∀ x, db'.statusOf x = db.statusOf x) :
    CancelsReported db db' [] := ⟨List.nodup_nil, fun _ hx => (List.not_mem_nil hx).elim, fun x _ => h x⟩

theorem not_cancellable_of_cancelled {db : Db} {x : String} (h : db.statusOf x = some .cancelled) :
    ¬ Cancellable db x := not_cancellable_of_statusOf h (by decide)

theorem CancelsReported.trans {db db₁ db₂ : Db} {first second : List String}
    (h : CancelsReported db db₁ first) (h' : CancelsReported db₁ db₂ second) :
    CancelsReported db db₂ (first ++ second) where
  nodup := by
    refine h.nodup.append h'.nodup fun x hfirst hsecond => ?_
    exact not_cancellable_of_cancelled (h.mem x hfirst).2 (h'.mem x hsecond).1
  mem x hx := by
    by_cases hfirst : x ∈ first
    · have hsecond : x ∉ second := fun hsecond =>
        not_cancellable_of_cancelled (h.mem x hfirst).2 (h'.mem x hsecond).1
      rw [h'.same x hsecond]
      exact h.mem x hfirst
    · have hsecond : x ∈ second := (List.mem_append.mp hx).resolve_left hfirst
      rw [← cancellable_congr (h.same x hfirst)]
      exact h'.mem x hsecond
  same x hx := by
    rw [List.mem_append, not_or] at hx
    rw [h'.same x hx.2, h.same x hx.1]

theorem CancelsReported.mem_iff {db db' : Db} {cancelled : List String} (h : CancelsReported db db' cancelled)
    (x : String) : x ∈ cancelled ↔ db.statusOf x ≠ some .cancelled ∧ db'.statusOf x = some .cancelled := by
  constructor
  · intro hx
    obtain ⟨hcancellable, hcancelled⟩ := h.mem x hx
    exact ⟨fun hbefore => not_cancellable_of_cancelled hbefore hcancellable, hcancelled⟩
  · rintro ⟨hbefore, hafter⟩
    by_contra hx
    rw [h.same x hx] at hafter
    exact hbefore hafter

theorem statusOf_setDeps (db : Db) (id : String) (deps : List String) (now : Nat) (x : String) :
    (Op.exec (.updateTask id (.patch { dependsOnTaskIds := some deps } now) none none) db).statusOf x =
      db.statusOf x := by
  apply Op.IsStatusFree.statusOf
  rfl

theorem cascadeAccounts_cancels :
    CascadeAccounts fun db db' s => CancelsReported db db' s.childrenCancelled where
  refl _ := .of_same fun _ => rfl
  trans := .trans
  revoke id now db := .of_same ((show Op.IsStatusFree (.revokeLink id now) from trivial).statusOf db)
  cancel := by
    intro taskId d db updated db' h
    rcases run_cancelTask taskId d db with ⟨_, hrun⟩ | ⟨_, _, hrun, hcancellable, hself, hother, _⟩
    · rw [hrun] at h
      cases h
    · rw [hrun] at h
      cases h
      refine ⟨List.nodup_singleton _, ?_, ?_⟩
      · intro x hx
        rw [List.mem_singleton.mp hx]
        exact ⟨hcancellable, hself⟩
      · exact fun x hx => hother x (List.ne_of_not_mem_cons hx)
  free _ _ := .of_same (statusOf_setDeps _ _ _ _)

/-- A task depends on another. -/
def DependsAt (db : Db) (x upstream : String) : Prop := ∃ deps ∈ depsAt db x, upstream ∈ deps

/-- The pairs of an upstream and a task it was taken out of, in a list without repetition. -/
structure DropsReported (db db' : Db) (freed : List (String × String)) : Prop where
  nodup : freed.Nodup
  shrinks : ∀ x upstream, DependsAt db' x upstream → DependsAt db x upstream
  mem_iff : ∀ x upstream, (upstream, x) ∈ freed ↔ DependsAt db x upstream ∧ ¬ DependsAt db' x upstream
  same : ∀ x, x ∉ freed.map Prod.snd → depsAt db' x = depsAt db x

theorem dependsAt_congr {db db' : Db} {x upstream : String} (h : depsAt db' x = depsAt db x) :
    DependsAt db' x upstream ↔ DependsAt db x upstream := by
  rw [DependsAt, h, DependsAt]

theorem DropsReported.of_same {db db' : Db} (h : ∀ x, depsAt db' x = depsAt db x) :
    DropsReported db db' [] where
  nodup := List.nodup_nil
  shrinks x upstream := (dependsAt_congr (h x)).mp
  mem_iff x upstream := by simp [dependsAt_congr (h x)]
  same x _ := h x

theorem DropsReported.trans {db db₁ db₂ : Db} {first second : List (String × String)}
    (h : DropsReported db db₁ first) (h' : DropsReported db₁ db₂ second) :
    DropsReported db db₂ (first ++ second) where
  nodup := by
    refine h.nodup.append h'.nodup ?_
    rintro ⟨upstream, x⟩ hfirst hsecond
    exact ((h.mem_iff x upstream).mp hfirst).2 ((h'.mem_iff x upstream).mp hsecond).1
  shrinks x upstream hdep := h.shrinks x upstream (h'.shrinks x upstream hdep)
  mem_iff x upstream := by
    have hfirst := h.shrinks x upstream
    have hsecond := h'.shrinks x upstream
    rw [List.mem_append, h.mem_iff, h'.mem_iff]
    tauto
  same x hx := by
    rw [List.map_append, List.mem_append, not_or] at hx
    rw [h'.same x hx.2, h.same x hx.1]

theorem DropsReported.mem_map_iff {db db' : Db} {freed : List (String × String)}
    (h : DropsReported db db' freed) (x : String) : x ∈ freed.map Prod.snd ↔ depsAt db' x ≠ depsAt db x := by
  constructor
  · intro hx hsame
    obtain ⟨⟨upstream, y⟩, hmem, rfl⟩ := List.mem_map.mp hx
    obtain ⟨hbefore, hafter⟩ := (h.mem_iff _ upstream).mp hmem
    exact hafter ((dependsAt_congr hsame).mpr hbefore)
  · intro hchanged
    by_contra hx
    exact hchanged (h.same x hx)

theorem depsAt_updateTask_of_none {db : Db} {id : String} {u : TaskUpdate} {seen : Option Task}
    (hu : u.dependencies? = none) (x : String) :
    depsAt (Op.exec (.updateTask id u none seen) db) x = depsAt db x := by
  rw [depsAt, depsAt]
  by_cases hid : x = id
  · subst hid
    cases ht : db.tasks.get x with
    | none => rw [Op.get_exec_updateTask, if_pos rfl, ht, Option.map_none]
    | some t => simp [Op.get_updateTask_self ht, TaskUpdate.apply_dependsOnTaskIds, hu]
  · rw [Op.get_updateTask_of_ne hid]

theorem depsAt_cancelTask {taskId : String} {d : Draws} {db db' : Db} {updated : Option Task}
    (h : (TaskService.cancelTask taskId d).run Op.exec db = (.ok updated, db')) (x : String) :
    depsAt db' x = depsAt db x := by
  rcases TaskService.of_run_cancelTask h with rfl | ⟨task, rfl⟩
  · rfl
  · exact depsAt_updateTask_of_none rfl x

/-- Taking an upstream out of the dependencies of a task. -/
theorem dependsAt_setDeps {db : Db} {child : Task} (hchild : db.tasks.get child.id = some child)
    (upstream : String) (now : Nat) (x y : String) :
    DependsAt (Op.exec (.updateTask child.id (.patch
      { dependsOnTaskIds := some (child.dependsOnTaskIds.filter (· ≠ upstream)) } now) none none) db) x y ↔
      DependsAt db x y ∧ ¬ (y = upstream ∧ child.id = x) := by
  by_cases hid : x = child.id
  · subst hid
    rw [DependsAt, DependsAt, depsAt_setDeps (by rw [hchild]; rfl), depsAt, hchild]
    simp
  · have hsame : depsAt (Op.exec (.updateTask child.id (.patch
        { dependsOnTaskIds := some (child.dependsOnTaskIds.filter (· ≠ upstream)) } now) none none) db) x =
        depsAt db x := by rw [depsAt, Op.get_updateTask_of_ne hid, depsAt]
    rw [dependsAt_congr hsame]
    simp [Ne.symm hid]

theorem cascadeAccounts_drops : CascadeAccounts fun db db' s =>
    ∃ freed, s.depsUnblocked = freed.map Prod.snd ∧ DropsReported db db' freed where
  refl _ := ⟨[], rfl, .of_same fun _ => rfl⟩
  trans := by
    rintro db db₁ db₂ s s' ⟨first, hfirst, h⟩ ⟨second, hsecond, h'⟩
    exact ⟨first ++ second, by rw [CascadeSummary.add, hfirst, hsecond, List.map_append], h.trans h'⟩
  revoke _ _ _ := ⟨[], rfl, .of_same fun _ => rfl⟩
  cancel h := ⟨[], rfl, .of_same (depsAt_cancelTask h)⟩
  free := by
    intro child upstream now db hchild hmem
    have hdep : DependsAt db child.id upstream := ⟨_, by rw [depsAt, hchild]; rfl, hmem⟩
    refine ⟨[(upstream, child.id)], rfl, List.nodup_singleton _, ?_, ?_, ?_⟩
    · intro x y h
      exact ((dependsAt_setDeps hchild upstream now x y).mp h).1
    · intro x y
      rw [dependsAt_setDeps hchild, List.mem_singleton, Prod.mk.injEq, not_and, not_not]
      constructor
      · rintro ⟨rfl, rfl⟩
        exact ⟨hdep, fun _ => ⟨rfl, rfl⟩⟩
      · rintro ⟨h, himp⟩
        obtain ⟨rfl, rfl⟩ := himp h
        exact ⟨rfl, rfl⟩
    · intro x hx
      have hne : x ≠ child.id := fun heq => hx (by simp [heq])
      rw [depsAt, Op.get_updateTask_of_ne hne, depsAt]

/-! ### The links a cascade goes over -/

/-- The unrevoked links in the order of their rows. -/
def activeLinks (db : Db) : List Link := db.links.rows.filter (·.revokedAt.isNone)

theorem nodup_activeLinks (db : Db) : (activeLinks db).Nodup := (List.Nodup.of_map _ db.links.nodup).filter _

theorem mem_activeLinks {db : Db} {l : Link} : l ∈ activeLinks db ↔ l ∈ db.links ∧ l.revokedAt = none := by
  rw [activeLinks, List.mem_filter, Option.isNone_iff_eq_none]
  rfl

/-- A link is gone down when it drives its downstream and `cancel_task` accepts that one. -/
def drivenGraph (db : Db) : OrderedGraph String Link where
  edges := activeLinks db
  nodup := nodup_activeLinks db
  src := (·.fromTaskId)
  dst := (·.toTaskId)
  follows l := drivesChild l.fromTaskId l = true ∧ Cancellable db l.toTaskId

theorem activeLinksOf_eq (db : Db) (taskId : String) :
    activeLinksOf db taskId =
      (activeLinks db).filter fun l => l.fromTaskId == taskId || l.toTaskId == taskId := by
  rw [activeLinksOf, activeLinks, List.filter_filter]

theorem activeLinks_revokeLink (db : Db) (id : String) (now : Nat) :
    activeLinks (Op.exec (.revokeLink id now) db) = (activeLinks db).filter (·.id ≠ id) := by
  have hrows : (Op.exec (.revokeLink id now) db).links.rows =
      db.links.rows.map fun l => if l.id = id then l.revoke now else l := rfl
  rw [activeLinks, activeLinks, hrows]
  induction db.links.rows with
  | nil => rfl
  | cons l rows ih =>
    rw [List.map_cons, List.filter_cons, ih, List.filter_cons]
    by_cases hid : l.id = id
    · cases l.revokedAt <;> simp [hid, Link.revoke]
    · cases hrevoked : l.revokedAt <;> simp [hid, hrevoked]

open Classical in
/-- What a cascade from the root has done before a turn. -/
structure Swept (db₀ : Db) (root : String) (t : List ℕ) (db : Db) (seen : List String) : Prop where
  seen_iff : ∀ x, x ∈ seen ↔ (drivenGraph db₀).EnteredBefore root t x
  active : activeLinks db = (activeLinks db₀).filter fun l => ¬ ∃ x, (drivenGraph db₀).MetBefore root t x l
  settled : ∀ x ∈ seen, x ≠ root → ¬ Cancellable db x
  changed : ∀ x, x ∉ seen → db.statusOf x = db₀.statusOf x
  deps : ∀ x y, DependsAt db x y ↔
    DependsAt db₀ x y ∧ ¬ ∃ l, (drivenGraph db₀).MetBefore root t y l ∧ PipesTo y l x

section Sweep

variable {db₀ db db' db₁ : Db} {root x : String} {t p : List ℕ} {i : ℕ} {l : Link} {seen : List String}

theorem Swept.congr {t' : List ℕ} (h : Swept db₀ root t db seen)
    (hentered : ∀ x, (drivenGraph db₀).EnteredBefore root t' x ↔ (drivenGraph db₀).EnteredBefore root t x)
    (hmet : ∀ x l, (drivenGraph db₀).MetBefore root t' x l ↔ (drivenGraph db₀).MetBefore root t x l) :
    Swept db₀ root t' db seen := by
  obtain ⟨hseen, hactive, hsettled, hchanged, hdeps⟩ := h
  refine ⟨?_, ?_, hsettled, hchanged, ?_⟩
  · simpa only [hentered] using hseen
  · rw [hactive]
    refine List.filter_congr fun l _ => decide_eq_decide.mpr ?_
    simp only [hmet]
  · simpa only [hmet] using hdeps

/-- A first route goes on through the link exactly when its downstream is now cancelled and gone into. -/
theorem Swept.leads_iff (h : Swept db₀ root (p ++ [i]) db seen)
    (hfirst : (drivenGraph db₀).FirstRoute root p x) (hl : (activeLinks db₀)[i]? = some l) {z : String} :
    (drivenGraph db₀).FirstRoute root (p ++ [i]) z ↔
      z = l.toTaskId ∧ l.fromTaskId = x ∧ drivesChild x l = true ∧ Cancellable db z ∧ z ∉ seen := by
  constructor
  · intro hz
    obtain ⟨l', hl', ⟨hdrives, hcancellable⟩, hto, hfrom, -⟩ := hz.meetsAt
    obtain rfl : l = l' := Option.some.inj (hl.symm.trans hl')
    have hx : l.fromTaskId = x := hfrom.node_unique hfirst
    have hnew : z ∉ seen := fun hmem =>
      not_enteredBefore_self hz ((h.seen_iff z).mp hmem)
    have hto : l.toTaskId = z := hto
    rw [hx] at hdrives
    rw [hto] at hcancellable
    exact ⟨hto.symm, hx, hdrives, (cancellable_congr (h.changed z hnew)).mpr hcancellable, hnew⟩
  · rintro ⟨rfl, rfl, hdrives, hcancellable, hnew⟩
    refine hfirst.of_follows hl ⟨hdrives, ?_⟩ fun hentered => hnew ((h.seen_iff _).mpr hentered)
    exact (cancellable_congr (h.changed _ hnew)).mp hcancellable

theorem Swept.root_mem (h : Swept db₀ root (p ++ [i]) db seen) : root ∈ seen :=
  (h.seen_iff root).mpr ⟨[], firstRoute_nil, (le_append_right [] p).trans_lt (lt_append_singleton p i)⟩

/-- The turn of a link: it is revoked, and a dependency of its downstream goes with it if it is a pipe. -/
theorem Swept.turn {t' : List ℕ} {seen' : List String} {now : Nat} (h : Swept db₀ root t db seen)
    (hl : l ∈ activeLinks db₀)
    (hmet : ∀ y l', (drivenGraph db₀).MetBefore root t' y l' ↔
      (y = x ∧ l' = l) ∨ (drivenGraph db₀).MetBefore root t y l')
    (hlinks : db'.links = (Op.exec (.revokeLink l.id now) db).links)
    (hseen : ∀ y, y ∈ seen' ↔ (drivenGraph db₀).EnteredBefore root t' y)
    (hsettled : ∀ y ∈ seen', y ≠ root → ¬ Cancellable db' y)
    (hchanged : ∀ y, y ∉ seen' → db'.statusOf y = db₀.statusOf y)
    (hdeps : ∀ y z, DependsAt db' y z ↔ DependsAt db y z ∧ ¬ (z = x ∧ PipesTo x l y)) :
    Swept db₀ root t' db' seen' := by
  classical
  refine ⟨hseen, ?_, hsettled, hchanged, fun y z => ?_⟩
  · have hrevoked : activeLinks db' = (activeLinks db).filter (·.id ≠ l.id) := by
      rw [← activeLinks_revokeLink, activeLinks, hlinks, activeLinks]
    rw [hrevoked, h.active, List.filter_filter]
    refine List.filter_congr fun l' hl' => ?_
    have hid : l'.id = l.id ↔ l' = l :=
      ⟨Table.eq_of_key_eq (mem_activeLinks.mp hl').1 (mem_activeLinks.mp hl).1, congrArg _⟩
    have hmeeting : (∃ y, (drivenGraph db₀).MetBefore root t' y l') ↔
        l' = l ∨ ∃ y, (drivenGraph db₀).MetBefore root t y l' := by
      simp only [hmet, exists_or, exists_eq_left]
    rw [← Bool.decide_and]
    refine decide_eq_decide.mpr ?_
    rw [hmeeting, not_or, ne_eq, hid]
  · have hpipes : (∃ l', (drivenGraph db₀).MetBefore root t' z l' ∧ PipesTo z l' y) ↔
        (z = x ∧ PipesTo x l y) ∨ ∃ l', (drivenGraph db₀).MetBefore root t z l' ∧ PipesTo z l' y := by
      simp only [hmet, or_and_right, exists_or]
      refine or_congr_left ⟨?_, ?_⟩
      · rintro ⟨l', ⟨rfl, rfl⟩, hpipe⟩
        exact ⟨rfl, hpipe⟩
      · rintro ⟨rfl, hpipe⟩
        exact ⟨l, ⟨rfl, rfl⟩, hpipe⟩
    rw [hdeps, h.deps, hpipes, not_or, and_assoc, and_comm (a := ¬ (z = x ∧ _))]

/-- A turn whose link is not gone down. -/
theorem Swept.idle {now : Nat} (h : Swept db₀ root (p ++ [i]) db seen) (hl : l ∈ activeLinks db₀)
    (hmeets : (drivenGraph db₀).MeetsAt root (p ++ [i]) x l)
    (hnone : ∀ z, ¬ (drivenGraph db₀).FirstRoute root (p ++ [i]) z)
    (hlinks : db'.links = (Op.exec (.revokeLink l.id now) db).links)
    (hstatus : ∀ y, y ≠ root → db'.statusOf y = db.statusOf y)
    (hdeps : ∀ y z, DependsAt db' y z ↔ DependsAt db y z ∧ ¬ (z = x ∧ PipesTo x l y)) :
    Swept db₀ root (p ++ [i + 1]) db' seen := by
  refine h.turn hl (fun y l' => ?_) hlinks (fun y => ?_) (fun y hy hne => ?_) (fun y hy => ?_) hdeps
  · rw [metBefore_succ_of_none hnone, metBefore_turn_iff hmeets]
  · rw [enteredBefore_succ_of_none hnone, h.seen_iff]
  · rw [cancellable_congr (hstatus y hne)]
    exact h.settled y hy hne
  · rw [hstatus y fun heq => hy (heq ▸ h.root_mem), h.changed y hy]

theorem metCount_idle (hmeets : (drivenGraph db₀).MeetsAt root (p ++ [i]) x l)
    (hnone : ∀ z, ¬ (drivenGraph db₀).FirstRoute root (p ++ [i]) z) :
    (drivenGraph db₀).metCount root (p ++ [i + 1]) = (drivenGraph db₀).metCount root (p ++ [i]) + 1 := by
  rw [metCount_congr fun _ _ => metBefore_succ_of_none hnone,
    metCount_turn hmeets]

/-- A cascade sweeps the tasks under the one it is called for, and nothing when that one has been seen. -/
structure Sweeps (db₀ : Db) (root : String) (recurse : Cascade) : Prop where
  skips : ∀ {taskId seen d db out db'}, taskId ∈ seen →
    (recurse taskId seen d).run Op.exec db = (.ok out, db') → out = ({}, seen) ∧ db' = db
  sweeps : ∀ {p taskId seen d db out db'}, (drivenGraph db₀).FirstRoute root p taskId → taskId ∉ seen →
    Swept db₀ root (p ++ [0]) db (taskId :: seen) →
    (recurse taskId seen d).run Op.exec db = (.ok out, db') →
      Swept db₀ root (p ++ [(activeLinks db₀).length]) db' out.2 ∧
      (drivenGraph db₀).metCount root (p ++ [(activeLinks db₀).length]) =
        (drivenGraph db₀).metCount root (p ++ [0]) + out.1.linksRevoked

variable {recurse : Cascade} {d : Draws} {out : CascadeSummary × List String} {now : Nat}

/-- The turn of a link that drives a task, which is cancelled and gone into. -/
theorem swept_enter (hspec : Sweeps db₀ root recurse) (h : Swept db₀ root (p ++ [i]) db seen)
    (hfirst : (drivenGraph db₀).FirstRoute root p x) (hl : (activeLinks db₀)[i]? = some l)
    (hmeets : (drivenGraph db₀).MeetsAt root (p ++ [i]) x l) (hfrom : l.fromTaskId = x)
    (hdrives : drivesChild x l = true) (hcancellable : Cancellable db l.toTaskId)
    (hlinks : db₁.links = (Op.exec (.revokeLink l.id now) db).links)
    (hcancelled : db₁.statusOf l.toTaskId = some .cancelled)
    (hother : ∀ y, y ≠ l.toTaskId → db₁.statusOf y = db.statusOf y)
    (hdeps : ∀ y, depsAt db₁ y = depsAt db y)
    (hrun : (recurse l.toTaskId seen d).run Op.exec db₁ = (.ok out, db')) :
    Swept db₀ root (p ++ [i + 1]) db' out.2 ∧ (drivenGraph db₀).metCount root (p ++ [i + 1]) =
      (drivenGraph db₀).metCount root (p ++ [i]) + 1 + out.1.linksRevoked := by
  have hmem : l ∈ activeLinks db₀ := List.mem_of_getElem? hl
  have hkept : ∀ y z, DependsAt db₁ y z ↔ DependsAt db y z ∧ ¬ (z = x ∧ PipesTo x l y) := by
    intro y z
    have hpipe : ¬ PipesTo x l y := by
      rintro ⟨hkind, -⟩
      rw [drivesChild_of_pipe hkind] at hdrives
      cases hdrives
    rw [dependsAt_congr (hdeps y)]
    simp [hpipe]
  by_cases hseen : l.toTaskId ∈ seen
  · -- only the root can be cancelled once it has been seen
    have hroot : l.toTaskId = root := by
      by_contra hne
      exact h.settled _ hseen hne hcancellable
    have hnone : ∀ z, ¬ (drivenGraph db₀).FirstRoute root (p ++ [i]) z := by
      intro z hz
      obtain ⟨rfl, -, -, -, hnew⟩ := (h.leads_iff hfirst hl).mp hz
      exact hnew hseen
    obtain ⟨rfl, rfl⟩ := hspec.skips hseen hrun
    refine ⟨h.idle hmem hmeets hnone hlinks (fun y hy => hother y ?_) hkept, metCount_idle hmeets hnone⟩
    rwa [hroot]
  · have hnext : (drivenGraph db₀).FirstRoute root (p ++ [i]) l.toTaskId :=
      (h.leads_iff hfirst hl).mpr ⟨rfl, hfrom, hdrives, hcancellable, hseen⟩
    have hentered : Swept db₀ root (p ++ [i] ++ [0]) db₁ (l.toTaskId :: seen) := by
      refine h.turn hmem (fun y l' => metBefore_turn_iff hmeets) hlinks (fun y => ?_)
        (fun y hy hne => ?_) (fun y hy => ?_) hkept
      · rw [enteredBefore_zero_iff hnext, List.mem_cons, h.seen_iff]
      · by_cases hy' : y = l.toTaskId
        · rw [hy']
          exact not_cancellable_of_cancelled hcancelled
        · rw [cancellable_congr (hother y hy')]
          exact h.settled y (List.mem_of_ne_of_mem hy' hy) hne
      · rw [hother y (List.ne_of_not_mem_cons hy), h.changed y (List.not_mem_of_not_mem_cons hy)]
    obtain ⟨hswept, hcount⟩ := hspec.sweeps hnext hseen hentered hrun
    refine ⟨hswept.congr (fun y => enteredBefore_length_iff.symm)
      (fun y l' => metBefore_length_iff.symm), ?_⟩
    rw [← metCount_turn hmeets, ← hcount]
    exact metCount_congr fun y l' => metBefore_length_iff.symm

/-- The turn of a link by the task it comes from. -/
theorem swept_cascadeChild (hspec : Sweeps db₀ root recurse) (h : Swept db₀ root (p ++ [i]) db seen)
    (hfirst : (drivenGraph db₀).FirstRoute root p x) (hl : (activeLinks db₀)[i]? = some l)
    (hmeets : (drivenGraph db₀).MeetsAt root (p ++ [i]) x l) (hfrom : l.fromTaskId = x) {child : Task}
    (hchild : db.tasks.get child.id = some child) (hid : child.id = l.toTaskId)
    (hrun : (cascadeChild recurse x l child seen d).run Op.exec (Op.exec (.revokeLink l.id now) db) =
      (.ok out, db')) :
    Swept db₀ root (p ++ [i + 1]) db' out.2 ∧ (drivenGraph db₀).metCount root (p ++ [i + 1]) =
      (drivenGraph db₀).metCount root (p ++ [i]) + 1 + out.1.linksRevoked := by
  have hmem : l ∈ activeLinks db₀ := List.mem_of_getElem? hl
  have hstatus : db.statusOf child.id = some child.status := by
    rw [Db.statusOf, hchild]
    rfl
  -- where the downstream cannot be cancelled or is not driven, no route goes on
  have hnone : ¬ (drivesChild x l = true ∧ Cancellable db child.id) →
      ∀ z, ¬ (drivenGraph db₀).FirstRoute root (p ++ [i]) z := by
    intro hnot z hz
    obtain ⟨rfl, -, hdrives, hcancellable, -⟩ := (h.leads_iff hfirst hl).mp hz
    rw [hid] at hnot
    exact hnot ⟨hdrives, hcancellable⟩
  have hpasses : ¬ (drivesChild x l = true ∧ Cancellable db child.id) →
      (∀ y z, ¬ (DependsAt db y z ∧ z = x ∧ PipesTo x l y)) →
      Swept db₀ root (p ++ [i + 1]) (Op.exec (.revokeLink l.id now) db) seen ∧
        (drivenGraph db₀).metCount root (p ++ [i + 1]) = (drivenGraph db₀).metCount root (p ++ [i]) + 1 := by
    intro hnot hpipe
    refine ⟨h.idle hmem hmeets (hnone hnot) rfl (fun _ _ => rfl) fun y z => ?_,
      metCount_idle hmeets (hnone hnot)⟩
    exact ⟨fun hdep => ⟨hdep, fun hgone => hpipe y z ⟨hdep, hgone⟩⟩, And.left⟩
  have hnopipe : drivesChild x l = true → ∀ y z, ¬ (DependsAt db y z ∧ z = x ∧ PipesTo x l y) := by
    rintro hdrives y z ⟨-, -, hkind, -⟩
    rw [drivesChild_of_pipe hkind] at hdrives
    cases hdrives
  rw [cascadeChild] at hrun
  by_cases hdrives : drivesChild x l = true
  · rw [if_pos hdrives] at hrun
    split at hrun
    · rename_i hfinished
      cases hrun
      refine hpasses (fun hboth => ?_) (hnopipe hdrives)
      refine not_cancellable_of_statusOf hstatus ?_ hboth.2
      rcases hfinished with heq | heq <;> rw [heq] <;> decide
    · rcases run_cancelTask child.id (d.sub 0) (Op.exec (.revokeLink l.id now) db) with
        ⟨hnot, hcancel⟩ | ⟨updated, db₁, hcancel, hcancellable, hcancelled, hother, hlinks⟩
      · rw [run_bind_ok Op.exec hcancel] at hrun
        cases hrun
        exact hpasses (fun hboth => hnot hboth.2) (hnopipe hdrives)
      · rw [run_bind_ok Op.exec hcancel] at hrun
        obtain ⟨sub, db₂, hsub, hrun⟩ := exists_of_run_bind Op.exec hrun
        cases hrun
        have hdeps : ∀ y, depsAt db₁ y = depsAt db y := fun y => depsAt_cancelTask hcancel y
        rw [hid] at hcancellable hcancelled hother hsub
        obtain ⟨hswept, hcount⟩ := swept_enter hspec h hfirst hl hmeets hfrom hdrives hcancellable hlinks
          hcancelled hother hdeps hsub
        refine ⟨hswept, ?_⟩
        rw [hcount]
        simp [CascadeSummary.add]
  · rw [if_neg hdrives] at hrun
    have hnot : ¬ (drivesChild x l = true ∧ Cancellable db child.id) := fun hboth => hdrives hboth.1
    split at hrun
    · rename_i hpipe
      have hchild' : (Op.exec (.revokeLink l.id now) db).tasks.get child.id = some child := hchild
      rw [run_bind_ok Op.exec (TaskRepo.run_update rfl _), Op.get_updateTask_self hchild'] at hrun
      cases hrun
      refine ⟨h.idle hmem hmeets (hnone hnot) rfl (fun y _ => ?_) fun y z => ?_,
        metCount_idle hmeets (hnone hnot)⟩
      · exact statusOf_setDeps (Op.exec (.revokeLink l.id now) db) child.id _ (d.sub 0).clock y
      · refine (dependsAt_setDeps hchild' x (d.sub 0).clock y z).trans ?_
        simp only [PipesTo, hpipe.1, hfrom, hid, true_and]
        rfl
    · rename_i hpipe
      cases hrun
      refine hpasses hnot ?_
      rintro y z ⟨⟨deps, hdeps, hz⟩, rfl, hkind, -, rfl⟩
      rw [depsAt, ← hid, hchild, Option.map_some, Option.mem_some_iff] at hdeps
      exact hpipe ⟨hkind, hdeps ▸ hz⟩

theorem swept_cascadeLink (hspec : Sweeps db₀ root recurse) (h : Swept db₀ root (p ++ [i]) db seen)
    (hfirst : (drivenGraph db₀).FirstRoute root p x) (hl : (activeLinks db₀)[i]? = some l)
    (hmeets : (drivenGraph db₀).MeetsAt root (p ++ [i]) x l)
    (hrun : (cascadeLink recurse x now l seen d).run Op.exec db = (.ok out, db')) :
    Swept db₀ root (p ++ [i + 1]) db' out.2 ∧ (drivenGraph db₀).metCount root (p ++ [i + 1]) =
      (drivenGraph db₀).metCount root (p ++ [i]) + out.1.linksRevoked := by
  have hidle : l.fromTaskId ≠ x ∨ db.tasks.get l.toTaskId = none →
      Swept db₀ root (p ++ [i + 1]) (Op.exec (.revokeLink l.id now) db) seen ∧
        (drivenGraph db₀).metCount root (p ++ [i + 1]) = (drivenGraph db₀).metCount root (p ++ [i]) + 1 := by
    intro hidle
    have hnone : ∀ z, ¬ (drivenGraph db₀).FirstRoute root (p ++ [i]) z := by
      intro z hz
      obtain ⟨rfl, hfrom, -, ⟨status, hstatus, -⟩, -⟩ := (h.leads_iff hfirst hl).mp hz
      rcases hidle with hne | hget
      · exact hne hfrom
      · rw [Db.statusOf, hget] at hstatus
        cases hstatus
    refine ⟨h.idle (List.mem_of_getElem? hl) hmeets hnone rfl (fun _ _ => rfl) fun y z => ?_,
      metCount_idle hmeets hnone⟩
    refine ⟨fun hdep => ⟨hdep, ?_⟩, And.left⟩
    rintro ⟨rfl, -, hfrom, rfl⟩
    rcases hidle with hne | hget
    · exact hne hfrom
    · obtain ⟨deps, hdeps, -⟩ : DependsAt db l.toTaskId z := hdep
      rw [depsAt, hget] at hdeps
      cases hdeps
  rw [cascadeLink, Coro.perform, Coro.await_bind, Coro.run_await, Coro.done_bind] at hrun
  by_cases hfrom : l.fromTaskId = x
  · rw [if_neg (not_not_intro hfrom), TaskRepo.run_get_bind] at hrun
    cases hchild : (Op.exec (.revokeLink l.id now) db).tasks.get l.toTaskId with
    | none =>
      rw [hchild] at hrun
      cases hrun
      exact hidle (.inr hchild)
    | some child =>
      rw [hchild] at hrun
      obtain ⟨head, db₁, hhead, hrun⟩ := exists_of_run_bind Op.exec hrun
      cases hrun
      have hid : child.id = l.toTaskId := Table.key_eq_of_get hchild
      rw [← hid] at hchild
      obtain ⟨hswept, hcount⟩ := swept_cascadeChild hspec h hfirst hl hmeets hfrom hchild hid hhead
      refine ⟨hswept, ?_⟩
      rw [hcount]
      simp [CascadeSummary.add, Nat.add_assoc]
  · rw [if_pos hfrom] at hrun
    cases hrun
    exact hidle (.inl hfrom)

/-- The links a task has read are those it meets, so that the loop over them goes through the turns of the
task. By induction on the links that are left in the table. -/
theorem swept_cascadeLinks (hspec : Sweeps db₀ root recurse) (hfirst : (drivenGraph db₀).FirstRoute root p x)
    {taken : Link → Bool} (links gone : List Link) (hlinks : activeLinks db₀ = gone ++ links)
    (htaken : ∀ i l, (activeLinks db₀)[i]? = some l →
      (taken l = true ↔ (drivenGraph db₀).MeetsAt root (p ++ [i]) x l))
    (h : Swept db₀ root (p ++ [gone.length]) db seen)
    (hrun : (cascadeLinks recurse x now d (links.filter taken) seen).run Op.exec db = (.ok out, db')) :
    Swept db₀ root (p ++ [(activeLinks db₀).length]) db' out.2 ∧
      (drivenGraph db₀).metCount root (p ++ [(activeLinks db₀).length]) =
        (drivenGraph db₀).metCount root (p ++ [gone.length]) + out.1.linksRevoked := by
  induction links generalizing gone seen db out with
  | nil =>
    cases hrun
    rw [List.append_nil] at hlinks
    rw [hlinks]
    exact ⟨h, rfl⟩
  | cons l links ih =>
    have hl : (activeLinks db₀)[gone.length]? = some l := by
      rw [hlinks, List.getElem?_append_right le_rfl, Nat.sub_self]
      rfl
    have hrest : activeLinks db₀ = (gone ++ [l]) ++ links := by rw [hlinks, List.append_assoc]; rfl
    have hlength : (gone ++ [l]).length = gone.length + 1 := List.length_append
    by_cases hmeets : (drivenGraph db₀).MeetsAt root (p ++ [gone.length]) x l
    · rw [List.filter_cons_of_pos ((htaken _ l hl).mpr hmeets)] at hrun
      obtain ⟨head, db₁, hhead, hrun⟩ := exists_of_run_bind Op.exec hrun
      obtain ⟨rest, db₂, hloop, hrun⟩ := exists_of_run_bind Op.exec hrun
      cases hrun
      obtain ⟨hswept, hcount⟩ := swept_cascadeLink hspec h hfirst hl hmeets hhead
      obtain ⟨hswept', hcount'⟩ := ih (gone ++ [l]) hrest (by rwa [hlength]) hloop
      refine ⟨hswept', ?_⟩
      rw [hcount', hlength, hcount, CascadeSummary.add, Nat.add_assoc]
    · have hnone := not_firstRoute_of_not_meetsAt hl hfirst hmeets
      have hmet : ∀ y l', (drivenGraph db₀).MetBefore root (p ++ [gone.length + 1]) y l' ↔
          (drivenGraph db₀).MetBefore root (p ++ [gone.length]) y l' := fun y l' =>
        metBefore_succ_of_not_meetsAt hl hfirst hmeets
      rw [List.filter_cons_of_neg fun htrue => hmeets ((htaken _ l hl).mp htrue)] at hrun
      obtain ⟨hswept, hcount⟩ := ih (gone ++ [l]) hrest (by
        rw [hlength]
        exact h.congr (fun y => enteredBefore_succ_of_none hnone) hmet) hrun
      refine ⟨hswept, ?_⟩
      rw [hcount, hlength, metCount_congr hmet]

/-- By induction on the depth: a task takes up the links that none of the tasks seen before has revoked. -/
theorem sweeps_cascade (db₀ : Db) (root : String) (depth : Nat) :
    Sweeps db₀ root (cascadeOnTaskTermination depth) := by
  classical
  induction depth with
  | zero =>
    constructor
    · intro taskId seen d db out db' _ h
      cases h
    · intro p taskId seen d db out db' _ _ _ h
      cases h
  | succ depth ih =>
    constructor
    · intro taskId seen d db out db' hseen h
      rw [cascadeOnTaskTermination] at h
      dsimp only at h
      rw [if_pos hseen] at h
      cases h
      exact ⟨rfl, rfl⟩
    · intro p taskId seen d db out db' hfirst hnew hswept h
      rw [cascadeOnTaskTermination] at h
      dsimp only at h
      rw [if_neg hnew, run_bind_ok Op.exec (Sql.run_select _ db)] at h
      obtain ⟨out', db₁, hloop, h⟩ := exists_of_run_bind Op.exec h
      cases h
      rw [activeLinksOf_eq, hswept.active, List.filter_filter] at hloop
      refine swept_cascadeLinks ih hfirst _ [] rfl (fun i l hl => ?_) hswept hloop
      rw [Bool.and_eq_true, Bool.or_eq_true, beq_iff_eq, beq_iff_eq, decide_eq_true_eq]
      constructor
      · rintro ⟨htouches, hnotMet⟩
        refine (meets_iff_not_met hfirst hl htouches).mpr ?_
        rintro ⟨y, k, hmet⟩
        exact hnotMet ⟨y, k, hmet⟩
      · intro hmeets
        have htouches : (drivenGraph db₀).Touches taskId l := hmeets.touches
        refine ⟨htouches, ?_⟩
        rintro ⟨y, k, hmet⟩
        exact (meets_iff_not_met hfirst hl htouches).mp hmeets ⟨y, k, hmet⟩

theorem swept_initial (db : Db) (root : String) : Swept db root [0] db [root] := by
  classical
  have hmet : ∀ x l, ¬ (drivenGraph db).MetBefore root [0] x l := fun x l => not_metBefore_zero
  refine ⟨fun x => ?_, ?_, fun x hx hne => ?_, fun x _ => rfl, fun x y => ?_⟩
  · rw [enteredBefore_root_iff, List.mem_singleton]
  · exact (List.filter_eq_self.mpr fun l _ => by simp [hmet]).symm
  · exact absurd (List.mem_singleton.mp hx) hne
  · simp [hmet]

end Sweep

/-! ### The summary -/

section Summary

variable {depth : Nat} {taskId : String} {d : Draws} {db db' : Db} {summary : CascadeSummary}
  {seen : List String} {root : String}

/-- The links that were active before and are revoked after. -/
def revokedLinks (db db' : Db) : List Link :=
  (activeLinks db).filter fun l => (db'.links.get l.id).any (·.revokedAt.isSome)

/-- The summary says what was done between the two databases: how many links were revoked, which tasks were
cancelled and which had dependencies taken out, each once. -/
structure Reports (db db' : Db) (summary : CascadeSummary) : Prop where
  linksRevoked : summary.linksRevoked = (revokedLinks db db').length
  childrenCancelled_nodup : summary.childrenCancelled.Nodup
  mem_childrenCancelled : ∀ x, x ∈ summary.childrenCancelled ↔
    db.statusOf x ≠ some .cancelled ∧ db'.statusOf x = some .cancelled
  depsUnblocked_nodup : summary.depsUnblocked.Nodup
  mem_depsUnblocked : ∀ x, x ∈ summary.depsUnblocked ↔ depsAt db' x ≠ depsAt db x

/-- No link is met by both of its tasks. -/
def MetOnce (db : Db) (root : String) : Prop :=
  ∀ l x y, (drivenGraph db).Meets root x l → (drivenGraph db).Meets root y l → x = y

/-- The cascade takes the upstream out of the dependencies of the task. -/
def Frees (db : Db) (root upstream x : String) : Prop :=
  DependsAt db x upstream ∧ ∃ l, (drivenGraph db).Meets root upstream l ∧ PipesTo upstream l x

/-- No task is freed from two others. -/
def FreedOnce (db : Db) (root : String) : Prop :=
  ∀ x upstream upstream', Frees db root upstream x → Frees db root upstream' x → upstream = upstream'

theorem swept_cascade
    (h : (cascadeOnTaskTermination depth taskId [] d).run Op.exec db = (.ok (summary, seen), db')) :
    Swept db taskId [(activeLinks db).length] db' seen ∧
      summary.linksRevoked = (drivenGraph db).metCount taskId [(activeLinks db).length] := by
  obtain ⟨hswept, hcount⟩ := (sweeps_cascade db taskId depth).sweeps firstRoute_nil
    List.not_mem_nil (swept_initial db taskId) h
  rw [List.nil_append, List.nil_append, metCount_zero, Nat.zero_add] at hcount
  exact ⟨hswept, hcount.symm⟩

/-- No row of a link goes away. -/
theorem cascadeAccounts_rows : CascadeAccounts fun db db' _ =>
    ∀ id, (db.links.get id).isSome → (db'.links.get id).isSome where
  refl _ _ hid := hid
  trans h h' id hid := h' id (h id hid)
  revoke id now db linkId hid := by
    rw [Op.get_exec_revokeLink]
    split
    · rwa [Option.isSome_map]
    · exact hid
  cancel := by
    intro taskId d db updated db' h id hid
    rcases run_cancelTask taskId d db with ⟨_, hrun⟩ | ⟨_, _, hrun, _, _, _, hlinks⟩
    · rw [hrun] at h
      cases h
    · rw [hrun] at h
      cases h
      rwa [hlinks]
  free _ _ _ hid := hid

theorem mem_activeLinks_swept {l : Link} (h : Swept db taskId [(activeLinks db).length] db' seen) :
    l ∈ activeLinks db' ↔ l ∈ activeLinks db ∧ ¬ ∃ x, (drivenGraph db).Meets taskId x l := by
  have hend : ∀ x, (drivenGraph db).MetBefore taskId [(activeLinks db).length] x l ↔
      (drivenGraph db).Meets taskId x l := fun x => metBefore_end_iff
  classical
  rw [h.active, List.mem_filter, decide_eq_true_eq]
  simp only [hend]

/-- The links that are revoked are those that are met. -/
theorem mem_revokedLinks (h : Swept db taskId [(activeLinks db).length] db' seen)
    (hrows : ∀ id, (db.links.get id).isSome → (db'.links.get id).isSome) {l : Link} :
    l ∈ revokedLinks db db' ↔ ∃ x, (drivenGraph db).Meets taskId x l := by
  rw [revokedLinks, List.mem_filter]
  constructor
  · rintro ⟨hl, hrevoked⟩
    by_contra hnot
    have hactive : l ∈ activeLinks db' := (mem_activeLinks_swept h).mpr ⟨hl, hnot⟩
    obtain ⟨hmem, hnone⟩ := mem_activeLinks.mp hactive
    have hget : db'.links.get l.id = some l := Table.get_eq_some_iff.mpr ⟨hmem, rfl⟩
    rw [hget, Option.any_some, hnone] at hrevoked
    cases hrevoked
  · rintro ⟨x, k, hmeets⟩
    have hl : l ∈ activeLinks db := by
      obtain ⟨p, i, -, -, hedge, -⟩ := hmeets
      exact List.mem_of_getElem? hedge
    refine ⟨hl, ?_⟩
    have hmem := (mem_activeLinks.mp hl).1
    have hget : db.links.get l.id = some l := Table.get_eq_some_iff.mpr ⟨hmem, rfl⟩
    obtain ⟨l', hl'⟩ := Option.isSome_iff_exists.mp (hrows l.id (by rw [hget]; rfl))
    rw [hl', Option.any_some, Option.isSome_iff_ne_none]
    intro hnone
    obtain ⟨hmem', hid⟩ := Table.get_eq_some_iff.mp hl'
    obtain ⟨hactive, hnot⟩ := (mem_activeLinks_swept h).mp (mem_activeLinks.mpr ⟨hmem', hnone⟩)
    rw [Table.eq_of_key_eq (mem_activeLinks.mp hactive).1 hmem hid] at hnot
    exact hnot ⟨x, k, hmeets⟩

/-- The links are counted right exactly when no link is met twice. -/
theorem linksRevoked_iff
    (h : (cascadeOnTaskTermination depth taskId [] d).run Op.exec db = (.ok (summary, seen), db')) :
    summary.linksRevoked = (revokedLinks db db').length ↔ MetOnce db taskId := by
  classical
  obtain ⟨hswept, hcount⟩ := swept_cascade h
  have hrows := accounts_cascade cascadeAccounts_rows depth _ _ _ _ _ _ h
  have hset : {l | ∃ x, (drivenGraph db).Meets taskId x l} = ((revokedLinks db db').toFinset : Set Link) := by
    ext l
    rw [Set.mem_ofPred_eq, Finset.mem_coe, List.mem_toFinset, mem_revokedLinks hswept hrows]
  have hlength : (revokedLinks db db').length = {l | ∃ x, (drivenGraph db).Meets taskId x l}.ncard := by
    have hnodup : (revokedLinks db db').Nodup := (nodup_activeLinks db).filter _
    rw [hset, Set.ncard_coe_finset, List.toFinset_card_of_nodup hnodup]
  rw [hcount, hlength]
  exact metCount_end_eq_iff

theorem frees_iff (h : Swept db taskId [(activeLinks db).length] db' seen) {upstream x : String} :
    Frees db taskId upstream x ↔ DependsAt db x upstream ∧ ¬ DependsAt db' x upstream := by
  have hend : ∀ l, (drivenGraph db).MetBefore taskId [(activeLinks db).length] upstream l ↔
      (drivenGraph db).Meets taskId upstream l := fun l => metBefore_end_iff
  rw [Frees, h.deps, not_and, not_not]
  simp only [hend]
  exact ⟨fun ⟨hdep, hpipe⟩ => ⟨hdep, fun _ => hpipe⟩, fun ⟨hdep, hpipe⟩ => ⟨hdep, hpipe hdep⟩⟩

end Summary

section Board

private def cascaded (db : Db) : Except Exn (CascadeSummary × List String) × Db :=
  (cascadeOnTaskTermination 1000 "task_a" [] (pathDraws 'x')).run Op.exec db

private theorem run_chain : ∃ summary seen db', cascaded (driveChain .open_) = (.ok (summary, seen), db') ∧
    summary = { linksRevoked := 2, childrenCancelled := ["task_b", "task_c"] } ∧
    (revokedLinks (driveChain .open_) db').length = 2 := ⟨_, _, _, rfl, by decide +kernel, by decide +kernel⟩

/-- A task that drives two others, the first of which drives the second. -/
private def triangle : Db where
  bundles := ⟨[{ id := "bun_1", createdBy := "acc_1" }], List.nodup_singleton "bun_1"⟩
  tasks := ⟨[{ id := "task_a", bundleId := "bun_1" }, { id := "task_b", bundleId := "bun_1" },
    { id := "task_c", bundleId := "bun_1" }], chainIds_nodup⟩
  links :=
    ⟨[{ id := "lnk_1", bundleId := "bun_1", fromTaskId := "task_a", toTaskId := "task_b", kind := "drives" },
      { id := "lnk_2", bundleId := "bun_1", fromTaskId := "task_a", toTaskId := "task_c", kind := "drives" },
      { id := "lnk_3", bundleId := "bun_1", fromTaskId := "task_b", toTaskId := "task_c", kind := "drives" }],
      by decide⟩

end Board

end Krewhub
