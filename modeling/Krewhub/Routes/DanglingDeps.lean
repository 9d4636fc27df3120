import Krewhub.Routes.Acyclicity

/-!
# Dependencies on a removed task

The cascade of a removed task takes the dependency on it out of a task below only when it comes to an active
pipe link. A dependency that a bundle, an edit or a graph has written without such a link stays, on a row
that is gone.

The recursion into the tasks it cancels never comes back to the removed one, which has been seen, so these
links are all that counts.
-/

namespace Krewhub

open Coro

/-! ### Dependencies on one task -/

/-- What depends on a task afterwards is what did before, except for what was released. -/
def Releases (upstream : String) (released : String → Prop) (db db' : Db) : Prop :=
  ∀ bundleId x, DependsOn db' bundleId x upstream ↔ DependsOn db bundleId x upstream ∧ ¬ released x

namespace Releases

variable {upstream : String} {released released' : String → Prop} {db db' db'' : Db}

theorem trans (h : Releases upstream released db db') (h' : Releases upstream released' db' db'') :
    Releases upstream (fun x => released x ∨ released' x) db db'' := by
  intro bundleId x
  rw [h' bundleId x, h bundleId x, not_or, and_assoc]

theorem congr (h : Releases upstream released db db') (hiff : ∀ x, released x ↔ released' x) :
    Releases upstream released' db db' := by
  intro bundleId x
  rw [h bundleId x, hiff x]

theorem of_tasks_eq (h : db'.tasks = db.tasks) : Releases upstream (fun _ => False) db db' := by
  intro bundleId x
  rw [not_false_eq_true, and_true, DependsOn, DependsOn, h]

theorem refl (db : Db) : Releases upstream (fun _ => False) db db := of_tasks_eq rfl

end Releases

theorem dependsOn_iff_get {db : Db} {bundleId x y : String} :
    DependsOn db bundleId x y ↔
      ∃ t, db.tasks.get x = some t ∧ t.bundleId = bundleId ∧ y ∈ t.dependsOnTaskIds := by
  constructor
  · rintro ⟨t, ht, hbundle, hid, hy⟩
    exact ⟨t, Table.get_eq_some_iff.mpr ⟨ht, hid⟩, hbundle, hy⟩
  · rintro ⟨t, ht, rfl, hy⟩
    exact dependsOn_of_get ht hy

theorem dependsOn_exec_updateTask_of_ne {db : Db} {id bundleId x y : String} {u : TaskUpdate}
    {expected : Option Nat} {seen : Option Task} (hne : x ≠ id) :
    DependsOn (Op.exec (.updateTask id u expected seen) db) bundleId x y ↔ DependsOn db bundleId x y := by
  rw [dependsOn_iff_get, dependsOn_iff_get, Op.get_exec_updateTask, if_neg hne]

/-- An update that writes no dependencies leaves all edges as they are. -/
theorem dependsOn_exec_updateTask_of_none {db : Db} {id bundleId x y : String} {u : TaskUpdate}
    {seen : Option Task} (hu : u.dependencies? = none) :
    DependsOn (Op.exec (.updateTask id u none seen) db) bundleId x y ↔ DependsOn db bundleId x y := by
  by_cases hid : x = id
  · subst hid
    rw [dependsOn_iff_get, dependsOn_iff_get]
    cases ht : db.tasks.get x with
    | none =>
      rw [Op.get_exec_updateTask, if_pos rfl, ht]
      rfl
    | some t =>
      rw [Op.get_updateTask_self ht]
      simp [TaskUpdate.apply_dependsOnTaskIds, hu]
  · exact dependsOn_exec_updateTask_of_ne hid

section Cascade

variable {recurse : Cascade} {upstream taskId : String} {seen : List String} {d : Draws} {db db' : Db}
  {out : CascadeSummary × List String}

theorem releases_cancelTask {updated : Option Task}
    (h : (TaskService.cancelTask taskId d).run Op.exec db = (.ok updated, db')) :
    Releases upstream (fun _ => False) db db' := by
  rcases TaskService.of_run_cancelTask h with rfl | ⟨task, rfl⟩
  · exact .refl db'
  · intro bundleId x
    rw [not_false_eq_true, and_true, TaskService.cancelOp]
    exact dependsOn_exec_updateTask_of_none rfl

/-- Taking one task out of the dependencies of another. -/
theorem releases_filter {child : Task} (hchild : db.tasks.get child.id = some child) (now : Nat) :
    Releases upstream (fun x => taskId = upstream ∧ child.id = x) db
      (Op.exec (.updateTask child.id (.patch
        { dependsOnTaskIds := some (child.dependsOnTaskIds.filter (· ≠ taskId)) } now) none none) db) := by
  intro bundleId x
  by_cases hid : x = child.id
  · subst hid
    rw [dependsOn_iff_get, dependsOn_iff_get, Op.get_updateTask_self hchild, hchild]
    have hdeps : ∀ deps : List String,
        (TaskUpdate.patch { dependsOnTaskIds := some deps } now).dependencies? = some deps := fun _ => rfl
    simp [TaskUpdate.apply_dependsOnTaskIds, hdeps, and_assoc, @eq_comm _ upstream taskId]
  · have hne : child.id ≠ x := fun heq => hid heq.symm
    rw [dependsOn_exec_updateTask_of_ne hid]
    simp [hne]

/-- The link is a pipe that leads from one task to the other. -/
def PipesTo (upstream : String) (link : Link) (x : String) : Prop :=
  link.kind = "pipe" ∧ link.fromTaskId = upstream ∧ link.toTaskId = x

theorem drivesChild_of_pipe {link : Link} (h : link.kind = "pipe") : drivesChild taskId link = false := by
  simp [drivesChild, h]

/-- Once a task has been seen, a cascade releases nothing from it. -/
def PassesOver (upstream : String) (recurse : Cascade) : Prop :=
  ∀ taskId seen d db out db', upstream ∈ seen → (recurse taskId seen d).run Op.exec db = (.ok out, db') →
    Releases upstream (fun _ => False) db db' ∧ upstream ∈ out.2

theorem releases_cascadeChild (hrecurse : PassesOver upstream recurse) (hseen : upstream ∈ seen) {link : Link}
    {child : Task} (hchild : db.tasks.get child.id = some child)
    (h : (cascadeChild recurse taskId link child seen d).run Op.exec db = (.ok out, db')) :
    Releases upstream (fun x => taskId = upstream ∧ link.kind = "pipe" ∧ child.id = x) db db' ∧
      upstream ∈ out.2 := by
  rw [cascadeChild] at h
  by_cases hdrives : drivesChild taskId link = true
  · have hkind : link.kind ≠ "pipe" := by
      intro hkind
      rw [drivesChild_of_pipe hkind] at hdrives
      cases hdrives
    have hnone : ∀ x, False ↔ taskId = upstream ∧ link.kind = "pipe" ∧ child.id = x := fun x =>
      ⟨False.elim, fun hx => hkind hx.2.1⟩
    rw [if_pos hdrives] at h
    split at h
    · cases h
      exact ⟨(Releases.refl db).congr hnone, hseen⟩
    obtain ⟨updated, db₁, hcancel, h⟩ := exists_of_run_bind Op.exec h
    have hfirst : Releases upstream (fun _ => False) db db₁ := releases_cancelTask hcancel
    cases updated with
    | none =>
      cases h
      exact ⟨hfirst.congr hnone, hseen⟩
    | some task =>
      obtain ⟨sub, db₂, hsub, h⟩ := exists_of_run_bind Op.exec h
      obtain ⟨hrest, hmem⟩ := hrecurse _ _ _ _ _ _ hseen hsub
      cases h
      exact ⟨(hfirst.trans hrest).congr fun x => by rw [or_self, hnone], hmem⟩
  · rw [if_neg hdrives] at h
    split at h
    · rename_i hpipe
      rw [run_bind_ok Op.exec (TaskRepo.run_update rfl db)] at h
      have hfilter : Releases upstream (fun x => taskId = upstream ∧ child.id = x) db _ :=
        releases_filter hchild (d.sub 0).clock
      have hiff : ∀ x, (taskId = upstream ∧ child.id = x) ↔
          taskId = upstream ∧ link.kind = "pipe" ∧ child.id = x := fun x => by simp [hpipe.1]
      split at h <;> cases h <;> exact ⟨hfilter.congr hiff, hseen⟩
    · rename_i hnot
      cases h
      refine ⟨fun bundleId x => ?_, hseen⟩
      constructor
      · intro hdep
        refine ⟨hdep, ?_⟩
        rintro ⟨rfl, hkind, rfl⟩
        obtain ⟨t, ht, -, hmem⟩ := dependsOn_iff_get.mp hdep
        rw [hchild] at ht
        cases ht
        exact hnot ⟨hkind, hmem⟩
      · exact And.left

theorem releases_cascadeLink (hrecurse : PassesOver upstream recurse) (hseen : upstream ∈ seen) {link : Link}
    {now : Nat} (h : (cascadeLink recurse taskId now link seen d).run Op.exec db = (.ok out, db')) :
    Releases upstream (fun x => taskId = upstream ∧ PipesTo taskId link x) db db' ∧ upstream ∈ out.2 := by
  have hrevoke : Releases upstream (fun _ => False) db (Op.exec (.revokeLink link.id now) db) := .of_tasks_eq rfl
  rw [cascadeLink, Coro.perform, Coro.await_bind, Coro.run_await, Coro.done_bind] at h
  by_cases hfrom : link.fromTaskId = taskId
  · rw [if_neg (not_not_intro hfrom), TaskRepo.run_get_bind] at h
    cases hchild : (Op.exec (.revokeLink link.id now) db).tasks.get link.toTaskId with
    | none =>
      rw [hchild] at h
      cases h
      refine ⟨fun bundleId x => ?_, hseen⟩
      rw [hrevoke bundleId x, not_false_eq_true, and_true]
      constructor
      · intro hdep
        refine ⟨hdep, ?_⟩
        rintro ⟨-, -, -, rfl⟩
        obtain ⟨t, ht, -⟩ := dependsOn_iff_get.mp hdep
        cases hchild.symm.trans ht
      · exact And.left
    | some child =>
      rw [hchild] at h
      obtain ⟨head, db₁, hhead, h⟩ := exists_of_run_bind Op.exec h
      have hid : child.id = link.toTaskId := Table.key_eq_of_get hchild
      rw [← hid] at hchild
      obtain ⟨hreleases, hmem⟩ := releases_cascadeChild hrecurse hseen hchild hhead
      cases h
      exact ⟨(hrevoke.trans hreleases).congr fun x => by simp [PipesTo, hfrom, hid], hmem⟩
  · rw [if_pos hfrom] at h
    cases h
    exact ⟨hrevoke.congr fun x => by simp [PipesTo, hfrom], hseen⟩

theorem releases_cascadeLinks (hrecurse : PassesOver upstream recurse) (hseen : upstream ∈ seen) {now : Nat}
    {links : List Link} (h : (cascadeLinks recurse taskId now d links seen).run Op.exec db = (.ok out, db')) :
    Releases upstream (fun x => taskId = upstream ∧ ∃ l ∈ links, PipesTo taskId l x) db db' ∧
      upstream ∈ out.2 := by
  induction links generalizing seen db out with
  | nil =>
    cases h
    refine ⟨fun bundleId x => ?_, hseen⟩
    simp
  | cons link links ih =>
    obtain ⟨head, db₁, hhead, h⟩ := exists_of_run_bind Op.exec h
    obtain ⟨rest, db₂, hrest, h⟩ := exists_of_run_bind Op.exec h
    cases h
    obtain ⟨hfirst, hmem⟩ := releases_cascadeLink hrecurse hseen hhead
    obtain ⟨hsecond, hmem⟩ := ih hmem hrest
    exact ⟨(hfirst.trans hsecond).congr fun x => by simp [and_or_left], hmem⟩

/-- By induction on the depth: the cascade of another task releases nothing from this one. -/
theorem passesOver_cascade (upstream : String) (depth : Nat) :
    PassesOver upstream (cascadeOnTaskTermination depth) := by
  induction depth with
  | zero =>
    intro taskId seen d db out db' _ h
    cases h
  | succ depth ih =>
    intro taskId seen d db out db' hseen h
    rw [cascadeOnTaskTermination] at h
    dsimp only at h
    by_cases hmem : taskId ∈ seen
    · rw [if_pos hmem] at h
      cases h
      exact ⟨.refl db, hseen⟩
    · have hne : taskId ≠ upstream := fun heq => hmem (heq ▸ hseen)
      rw [if_neg hmem, run_bind_ok Op.exec (Sql.run_select _ db)] at h
      obtain ⟨out', db₁, hloop, h⟩ := exists_of_run_bind Op.exec h
      obtain ⟨hreleases, hgrown⟩ := releases_cascadeLinks ih (List.mem_cons_of_mem _ hseen) hloop
      cases h
      exact ⟨hreleases.congr fun x => by simp [hne], hgrown⟩

/-- The cascade of a task releases from it what its active pipes lead to, and nothing else. -/
theorem releases_cascade {depth : Nat}
    (h : (cascadeOnTaskTermination depth taskId [] d).run Op.exec db = (.ok out, db')) :
    Releases taskId (fun x => ∃ l ∈ activeLinksOf db taskId, PipesTo taskId l x) db db' := by
  cases depth with
  | zero => cases h
  | succ depth =>
    rw [cascadeOnTaskTermination] at h
    dsimp only at h
    rw [if_neg List.not_mem_nil, run_bind_ok Op.exec (Sql.run_select _ db)] at h
    obtain ⟨out', db₁, hloop, h⟩ := exists_of_run_bind Op.exec h
    obtain ⟨hreleases, -⟩ := releases_cascadeLinks (passesOver_cascade taskId depth) List.mem_cons_self hloop
    cases h
    exact hreleases.congr fun x => by simp

end Cascade

/-! ### Removing a task -/

section Removal

variable {depth : Nat} {taskId : String} {caller : CallerContext} {d : Draws} {db db' : Db}
  {summary : CascadeSummary}

/-- A removal that succeeds is the cascade from the task, once its row is gone. -/
theorem of_removeTask (h : (removeTask depth taskId caller d).run Op.exec db = (.ok summary, db')) :
    ∃ seen, (cascadeOnTaskTermination depth taskId [] (d.sub 0)).run Op.exec
      (Op.exec (.deleteTask taskId) db) = (.ok (summary, seen), db') := by
  rw [removeTask] at h
  obtain ⟨task, db₁, hfound, h⟩ := exists_of_run_bind Op.exec h
  obtain ⟨r, hr⟩ := exists_run_of_plain (every_taskOr404 plainOps_isPlain taskId) db
  rw [hr] at hfound
  cases hfound
  obtain ⟨⟨⟩, db₁, hallowed, h⟩ := exists_of_run_bind Op.exec h
  obtain ⟨r, hr⟩ := exists_run_of_plain (every_authorizeTaskMutation plainOps_isPlain caller task) db
  rw [hr] at hallowed
  cases hallowed
  rcases TaskService.run_removeTask taskId db with hremove | hremove
  · rw [run_bind_ok Op.exec hremove] at h
    cases h
  · rw [run_bind_ok Op.exec hremove] at h
    simp only [Bool.not_true, Bool.false_eq_true, if_false] at h
    obtain ⟨out, db₂, hcascade, h⟩ := exists_of_run_bind Op.exec h
    cases h
    exact ⟨out.2, hcascade⟩

theorem dependsOn_exec_deleteTask {bundleId x y : String} :
    DependsOn (Op.exec (.deleteTask taskId) db) bundleId x y ↔ DependsOn db bundleId x y ∧ x ≠ taskId := by
  constructor
  · rintro ⟨t, ht, hbundle, rfl, hy⟩
    obtain ⟨ht, hne⟩ := Table.mem_erase.mp ht
    exact ⟨⟨t, ht, hbundle, rfl, hy⟩, hne⟩
  · rintro ⟨⟨t, ht, hbundle, rfl, hy⟩, hne⟩
    exact ⟨t, Table.mem_erase.mpr ⟨ht, hne⟩, hbundle, rfl, hy⟩

/-- An active pipe link leads from one task to the other. -/
def ActivePipe (db : Db) (x y : String) : Prop :=
  ∃ l ∈ db.links, l.revokedAt = none ∧ PipesTo x l y

theorem exists_activeLinksOf_iff {x y : String} :
    (∃ l ∈ activeLinksOf db x, PipesTo x l y) ↔ ActivePipe db x y := by
  constructor
  · rintro ⟨l, hl, hpipes⟩
    obtain ⟨hmem, hactive⟩ := List.mem_filter.mp hl
    rw [Bool.and_eq_true, Option.isNone_iff_eq_none] at hactive
    exact ⟨l, hmem, hactive.2, hpipes⟩
  · rintro ⟨l, hl, hactive, hpipes⟩
    refine ⟨l, List.mem_filter.mpr ⟨hl, ?_⟩, hpipes⟩
    simp [hactive, hpipes.2.1]

/-- What depends on a removed task afterwards. -/
theorem dependsOn_removeTask (h : (removeTask depth taskId caller d).run Op.exec db = (.ok summary, db'))
    {bundleId x : String} : DependsOn db' bundleId x taskId ↔
      DependsOn db bundleId x taskId ∧ x ≠ taskId ∧ ¬ ActivePipe db taskId x := by
  obtain ⟨seen, hcascade⟩ := of_removeTask h
  rw [(releases_cascade hcascade).congr (fun x => exists_activeLinksOf_iff) bundleId x,
    dependsOn_exec_deleteTask, and_assoc]
  rfl

/-- A removal that succeeds leaves no dependency on the task exactly where an active pipe link led from it
to every other task that depends on it. -/
theorem no_dangling_dependency_iff
    (h : (removeTask depth taskId caller d).run Op.exec db = (.ok summary, db')) (bundleId : String) :
    (∀ x, ¬ DependsOn db' bundleId x taskId) ↔
      ∀ x, x ≠ taskId → DependsOn db bundleId x taskId → ActivePipe db taskId x := by
  apply forall_congr'
  intro x
  rw [dependsOn_removeTask h, not_and, not_and, not_not]
  exact ⟨fun hall hne hdep => hall hdep hne, fun hall hdep hne => hall hne hdep⟩

end Removal

section Board

/-- Two tasks, the second of which depends on the first, and the links between them. -/
private def pair (links : Table Link) : Db where
  bundles := ⟨[{ id := "bun_1", createdBy := "acc_1" }], List.nodup_singleton "bun_1"⟩
  tasks := ⟨[{ id := "a", bundleId := "bun_1" },
    { id := "b", bundleId := "bun_1", dependsOnTaskIds := ["a"] }], by simp [Keyed.key]⟩
  links := links

private def piped : Table Link :=
  ⟨[{ id := "lnk_1", bundleId := "bun_1", fromTaskId := "a", toTaskId := "b", kind := "pipe" }], by decide⟩

private def removed (db : Db) : Except Exn CascadeSummary × Db :=
  (removeTask 1000 "a" { accountId := "acc_1" } (pathDraws 'x')).run Op.exec db

/-- A dependency with its pipe goes with the task. -/
theorem piped_dependency_goes : ∃ summary db', removed (pair piped) = (.ok summary, db') ∧
    ∀ x, ¬ DependsOn db' "bun_1" x "a" := by
  have hrun : ∃ summary db', removed (pair piped) = (.ok summary, db') := ⟨_, _, rfl⟩
  obtain ⟨summary, db', hrun⟩ := hrun
  refine ⟨summary, db', hrun, (no_dangling_dependency_iff hrun "bun_1").mpr ?_⟩
  rintro x hne ⟨t, ht, -, rfl, hmem⟩
  have hrows : t ∈ (pair piped).tasks.rows := ht
  simp only [pair, List.mem_cons, List.not_mem_nil, or_false] at hrows
  rcases hrows with rfl | rfl
  · exact absurd rfl hne
  · exact ⟨_, List.mem_cons_self, rfl, rfl, rfl, rfl⟩

/-- A dependency without one stays, on a task that is gone. -/
theorem unpiped_dependency_dangles : ∃ summary db', removed (pair ∅) = (.ok summary, db') ∧
    (∀ x y, DependsOn (pair ∅) "bun_1" x y → ((pair ∅).tasks.get y).isSome) ∧
    DependsOn db' "bun_1" "b" "a" ∧ db'.tasks.get "a" = none := by
  refine ⟨_, _, rfl, ?_, ⟨_, List.mem_cons_self, rfl, rfl, List.mem_cons_self⟩, rfl⟩
  rintro x y ⟨t, ht, -, -, hmem⟩
  have hrows : t ∈ (pair ∅).tasks.rows := ht
  simp only [pair, List.mem_cons, List.not_mem_nil, or_false] at hrows
  rcases hrows with rfl | rfl
  · cases hmem
  · rw [List.mem_singleton.mp hmem]
    rfl

end Board

end Krewhub
