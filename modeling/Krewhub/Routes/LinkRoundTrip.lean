import Krewhub.Routes.Acyclicity

/-!
# A pipe link and back

Creating a pipe link adds a dependency where there is none, revoking it takes the dependency away, and
nothing in between remembers which of the two the creation found. What a creation and a revocation leave of
the dependencies of the downstream are those on other tasks.
-/

namespace Krewhub

open Coro

/-- The dependencies of a task that is there. -/
def depsAt (db : Db) (taskId : String) : Option (List String) :=
  (db.tasks.get taskId).map (·.dependsOnTaskIds)

section Setting

variable {db : Db} {taskId : String} {deps : List String} {d : Draws}

theorem depsAt_setDeps (h : (db.tasks.get taskId).isSome) (now : Nat) :
    depsAt (Op.exec (.updateTask taskId (.patch { dependsOnTaskIds := some deps } now) none none) db) taskId =
      some deps := by
  obtain ⟨t, ht⟩ := Option.isSome_iff_exists.mp h
  rw [depsAt, Op.get_exec_updateTask, if_pos rfl, ht]
  rfl

/-- Setting the dependencies of a task, with what is recorded of it. -/
theorem run_setDeps (db : Db) (taskId : String) (deps : List String) (d : Draws) :
    (do
      let updated ← TaskRepo.update taskId { dependsOnTaskIds := some deps } none none d
      TaskService.recordUpdated updated : Sql Unit).run Op.exec db =
      (.ok (), Op.exec (.updateTask taskId (.patch { dependsOnTaskIds := some deps } d.clock) none none) db) := by
  rw [run_bind_ok Op.exec (TaskRepo.run_update rfl db), TaskService.recordUpdated]
  split <;> rfl

end Setting

/-! ### Creating -/

section Create

variable {fromTask : Task} {fromTaskId toTaskId kind : String} {req : CreateLinkRequest}
  {caller : CallerContext} {d : Draws} {db db' : Db} {out : Option Link × Option Task}

theorem of_createLink (h : (createLink fromTaskId req caller d).run Op.exec db = (.ok out, db')) :
    req.toTaskId.isNone ≠ req.newTask.isNone ∧ ∃ fromTask toTaskId db₁,
      db.tasks.get fromTaskId = some fromTask ∧
      (linkTarget fromTask req (d.sub 0)).run Op.exec db = (.ok toTaskId, db₁) ∧
      (insertLink fromTask toTaskId (linkKind req) req caller (d.sub 1)).run Op.exec db₁ = (.ok out, db') := by
  rw [createLink] at h
  dsimp only at h
  split at h
  · cases h
  split at h
  · cases h
  rename_i hexactly
  split at h
  · cases h
  split at h
  · cases h
  rw [TaskRepo.run_get_bind] at h
  cases hfrom : db.tasks.get fromTaskId with
  | none =>
    rw [hfrom] at h
    cases h
  | some fromTask =>
    rw [hfrom] at h
    obtain ⟨bundle, db₁, howner, h⟩ := exists_of_run_bind Op.exec h
    obtain ⟨r, hrun, -⟩ := run_requireBundleOwner db caller fromTask.bundleId
    rw [hrun] at howner
    cases howner
    obtain ⟨toTaskId, db₁, htarget, h⟩ := exists_of_run_bind Op.exec h
    exact ⟨hexactly, fromTask, toTaskId, db₁, rfl, htarget, h⟩

/-- A link is stored where there is no active one like it. -/
theorem of_insertLink
    (h : (insertLink fromTask toTaskId kind req caller d).run Op.exec db = (.ok out, db')) :
    activeEdges db fromTask.id toTaskId kind = [] ∧ ∃ link : Link, link.fromTaskId = fromTask.id ∧
      link.toTaskId = toTaskId ∧ link.kind = kind ∧ link.revokedAt = none ∧
      (storeLink fromTask toTaskId kind req d link).run Op.exec db = (.ok out, db') := by
  rw [insertLink, run_bind_ok Op.exec (Sql.run_select _ db)] at h
  dsimp only at h
  by_cases hedges : (!(activeEdges db fromTask.id toTaskId kind).isEmpty) = true
  · rw [if_pos hedges] at h
    cases h
  rw [if_neg hedges] at h
  refine ⟨by simpa using hedges, ?_⟩
  by_cases hnew : req.newTask.isNone = true
  · rw [if_pos hnew, run_bind_ok Op.exec (Sql.run_select _ db)] at h
    cases hcycle : wouldCycle db fromTask.bundleId fromTask.id toTaskId with
    | true =>
      rw [hcycle] at h
      cases h
    | false =>
      rw [hcycle, if_neg Bool.false_ne_true, run_bind_ok Op.exec (Sql.run_select _ db)] at h
      cases hlinks : wouldCycleLinks db fromTask.bundleId fromTask.id toTaskId with
      | true =>
        rw [hlinks] at h
        cases h
      | false =>
        rw [hlinks] at h
        exact ⟨_, rfl, rfl, rfl, rfl, h⟩
  · rw [if_neg hnew] at h
    exact ⟨_, rfl, rfl, rfl, rfl, h⟩

theorem run_impliedDependency {fromTaskId : String} {toTask : Task}
    (hto : db.tasks.get toTaskId = some toTask) (d : Draws) :
    ∃ db₁, (impliedDependency fromTaskId toTaskId d).run Op.exec db = (.ok (), db₁) ∧
      db₁.links = db.links ∧
      depsAt db₁ toTaskId = some (if fromTaskId ∈ toTask.dependsOnTaskIds then toTask.dependsOnTaskIds
        else toTask.dependsOnTaskIds ++ [fromTaskId]) := by
  rw [impliedDependency, TaskRepo.run_get_bind, hto]
  dsimp only
  by_cases hmem : fromTaskId ∈ toTask.dependsOnTaskIds
  · rw [if_pos hmem, if_pos hmem]
    exact ⟨db, rfl, rfl, by rw [depsAt, hto]; rfl⟩
  · rw [if_neg hmem, if_neg hmem]
    exact ⟨_, run_setDeps db toTaskId _ d, rfl, depsAt_setDeps (by rw [hto]; rfl) _⟩

/-- A downstream that exists is taken as it is. -/
theorem of_linkTarget_existing {target : String} (hnew : req.newTask = none) (hto : req.toTaskId = some toTaskId)
    (h : (linkTarget fromTask req d).run Op.exec db = (.ok target, db')) : target = toTaskId ∧ db' = db := by
  rw [linkTarget, hnew, hto] at h
  dsimp only [existingToTask, Option.getD_some] at h
  split at h
  · cases h
  rw [TaskRepo.run_get_bind] at h
  split at h
  · cases h
  split at h
  · cases h
  · cases h
    exact ⟨rfl, rfl⟩

/-- What is stored with a pipe link between two tasks that are there. -/
theorem of_storeLink {toTask : Task} {link : Link} (hnew : req.newTask = none)
    (hto : db.tasks.get toTaskId = some toTask)
    (h : (storeLink fromTask toTaskId "pipe" req d link).run Op.exec db = (.ok out, db')) :
    out.1 = some link ∧ db.links.get link.id = none ∧ db'.links = db.links.insert link ∧
      depsAt db' toTaskId = some (if fromTask.id ∈ toTask.dependsOnTaskIds then toTask.dependsOnTaskIds
        else toTask.dependsOnTaskIds ++ [fromTask.id]) := by
  obtain ⟨db₁, hrun, hlinks, hdeps⟩ := run_impliedDependency hto (d.sub 0)
  rw [storeLink] at h
  dsimp only at h
  rw [if_pos rfl, run_bind_ok Op.exec hrun, hnew] at h
  obtain ⟨⟨⟩, db₂, hinsert, h⟩ := exists_of_run_bind Op.exec h
  obtain ⟨hfree, rfl⟩ := Sql.of_run_checked hinsert
  rw [hlinks, Option.isNone_iff_eq_none] at hfree
  have hinserted : (Op.exec (.insertLink link) db₁).links = db.links.insert link := by
    rw [← hlinks]
    rfl
  cases h
  refine ⟨?_, hfree, hinserted, hdeps⟩
  change (Op.exec (.insertLink link) db₁).links.get link.id = some link
  rw [hinserted]
  exact Table.get_insert_self hfree

end Create

/-! ### Revoking -/

section Revoke

variable {link : Link} {toTask : Task} {caller : CallerContext} {d : Draws} {db db' : Db}
  {answer : Option Link × Bool}

/-- The last pipe takes its dependency with it. -/
theorem run_unwindDependency (hto : db.tasks.get link.toTaskId = some toTask)
    (hlast : (activeEdges db link.fromTaskId link.toTaskId "pipe").filter (·.id ≠ link.id) = []) (d : Draws) :
    ∃ db₁, (unwindDependency link d).run Op.exec db = (.ok (), db₁) ∧
      depsAt db₁ link.toTaskId = some (toTask.dependsOnTaskIds.filter (· ≠ link.fromTaskId)) := by
  rw [unwindDependency, run_bind_ok Op.exec (Sql.run_select _ db), hlast, if_neg (by simp), TaskRepo.run_get_bind, hto]
  dsimp only
  by_cases hmem : link.fromTaskId ∈ toTask.dependsOnTaskIds
  · rw [if_neg (not_not.mpr hmem)]
    exact ⟨_, run_setDeps db link.toTaskId _ d, depsAt_setDeps (by rw [hto]; rfl) _⟩
  · rw [if_pos hmem]
    refine ⟨db, rfl, ?_⟩
    rw [depsAt, hto, List.filter_eq_self.mpr]
    · rfl
    · intro other hother
      simp only [ne_eq, decide_eq_true_eq]
      rintro rfl
      exact hmem hother

/-- Revoking a link leaves the other edges as they were. -/
theorem activeEdges_exec_revokeLink {fromTaskId toTaskId kind : String} (now : Nat)
    (h : (activeEdges db fromTaskId toTaskId kind).filter (·.id ≠ link.id) = []) :
    (activeEdges (Op.exec (.revokeLink link.id now) db) fromTaskId toTaskId kind).filter
      (·.id ≠ link.id) = [] := by
  rw [List.filter_eq_nil_iff] at h ⊢
  intro l hl hne
  obtain ⟨hmem, hedge⟩ := List.mem_filter.mp hl
  obtain ⟨l', hl', rfl⟩ := Op.mem_exec_revokeLink.mp hmem
  by_cases hid : l'.id = link.id
  · rw [if_pos hid] at hne
    simp [Link.revoke, hid] at hne
  · rw [if_neg hid] at hedge hne
    exact h l' (List.mem_filter.mpr ⟨hl', hedge⟩) hne

theorem of_revokeLink (hlink : db.links.get link.id = some link) (hkind : link.kind = "pipe")
    (hactive : link.revokedAt = none)
    (h : (revokeLink link.id caller d).run Op.exec db = (.ok answer, db')) :
    ∃ db₁, (unwindDependency link (d.sub 0)).run Op.exec (Op.exec (.revokeLink link.id d.clock) db) =
      (.ok (), db₁) ∧ db'.tasks = db₁.tasks := by
  rw [revokeLink, run_bind_ok Op.exec (Sql.run_select _ db), hlink] at h
  obtain ⟨bundle, db₁, howner, h⟩ := exists_of_run_bind Op.exec h
  obtain ⟨r, hrun, -⟩ := run_requireBundleOwner db caller link.bundleId
  rw [hrun] at howner
  cases howner
  dsimp only at h
  rw [hactive, if_neg (by simp), run_bind_ok Op.exec (run_perform _ _ _ _), if_pos hkind] at h
  obtain ⟨⟨⟩, db₁, hunwind, h⟩ := exists_of_run_bind Op.exec h
  cases h
  exact ⟨db₁, hunwind, rfl⟩

end Revoke

/-! ### There and back -/

section RoundTrip

variable {fromTaskId toTaskId : String} {req : CreateLinkRequest} {caller caller' : CallerContext}
  {d d' : Draws} {db db₁ db₂ : Db} {link : Link} {fresh : Option Task} {answer : Option Link × Bool}
  {toTask : Task}

/-- A pipe that was created is the only active one between its two tasks. -/
theorem of_createLink_pipe (hkind : linkKind req = "pipe") (hto : req.toTaskId = some toTaskId)
    (htask : db.tasks.get toTaskId = some toTask)
    (h : (createLink fromTaskId req caller d).run Op.exec db = (.ok (some link, fresh), db₁)) :
    db₁.links.get link.id = some link ∧ link.kind = "pipe" ∧ link.revokedAt = none ∧
      link.fromTaskId = fromTaskId ∧ link.toTaskId = toTaskId ∧
      (activeEdges db₁ fromTaskId toTaskId "pipe").filter (·.id ≠ link.id) = [] ∧
      depsAt db₁ toTaskId = some (if fromTaskId ∈ toTask.dependsOnTaskIds then toTask.dependsOnTaskIds
        else toTask.dependsOnTaskIds ++ [fromTaskId]) := by
  obtain ⟨hexactly, fromTask, target, db', hfrom, htarget, hinsert⟩ := of_createLink h
  obtain rfl : fromTask.id = fromTaskId := Table.key_eq_of_get hfrom
  have hnew : req.newTask = none := by
    rw [hto] at hexactly
    cases hnew : req.newTask with
    | none => rfl
    | some input => simp [hnew] at hexactly
  obtain ⟨rfl, rfl⟩ := of_linkTarget_existing hnew hto htarget
  rw [hkind] at hinsert
  obtain ⟨hnone, stored, hfromId, htoId, hpipe, hactive, hstore⟩ := of_insertLink hinsert
  obtain ⟨hout, hfree, hlinks, hdeps⟩ := of_storeLink hnew htask hstore
  obtain rfl : link = stored := Option.some.inj hout
  refine ⟨by rw [hlinks]; exact Table.get_insert_self hfree, hpipe, hactive, hfromId, htoId, ?_, hdeps⟩
  rw [activeEdges] at hnone
  rw [activeEdges, hlinks, Table.rows_insert hfree, List.filter_append, hnone, List.nil_append,
    List.filter_filter]
  simp

/-- What a pipe link and its revocation leave are the dependencies on other tasks. -/
theorem depsAt_create_revoke (hkind : linkKind req = "pipe") (hto : req.toTaskId = some toTaskId)
    (htask : db.tasks.get toTaskId = some toTask)
    (hcreate : (createLink fromTaskId req caller d).run Op.exec db = (.ok (some link, fresh), db₁))
    (hrevoke : (revokeLink link.id caller' d').run Op.exec db₁ = (.ok answer, db₂)) :
    depsAt db₂ toTaskId = some (toTask.dependsOnTaskIds.filter (· ≠ fromTaskId)) := by
  obtain ⟨hlink, hpipe, hactive, rfl, rfl, hlast, hdeps⟩ := of_createLink_pipe hkind hto htask hcreate
  obtain ⟨between, hbetween, hbetweenDeps⟩ := Option.map_eq_some_iff.mp hdeps
  obtain ⟨db', hunwind, htasks⟩ := of_revokeLink hlink hpipe hactive hrevoke
  have hthere : (Op.exec (.revokeLink link.id d'.clock) db₁).tasks.get link.toTaskId = some between :=
    hbetween
  obtain ⟨db'', hrun, hafter⟩ := run_unwindDependency hthere
    (activeEdges_exec_revokeLink d'.clock hlast) (d'.sub 0)
  rw [hunwind] at hrun
  cases hrun
  have hsame : depsAt db₂ link.toTaskId = depsAt db' link.toTaskId := by rw [depsAt, depsAt, htasks]
  rw [hsame, hafter, hbetweenDeps]
  split
  · rfl
  · simp [List.filter_append]

/-- Creating a pipe link to a task and revoking it leaves the dependencies of the task as they were exactly
where the task did not depend on the upstream before. -/
theorem create_revoke_pipe_keeps_deps_iff (hkind : linkKind req = "pipe")
    (hto : req.toTaskId = some toTaskId) (htask : db.tasks.get toTaskId = some toTask)
    (hcreate : (createLink fromTaskId req caller d).run Op.exec db = (.ok (some link, fresh), db₁))
    (hrevoke : (revokeLink link.id caller' d').run Op.exec db₁ = (.ok answer, db₂)) :
    depsAt db₂ toTaskId = some toTask.dependsOnTaskIds ↔ fromTaskId ∉ toTask.dependsOnTaskIds := by
  rw [depsAt_create_revoke hkind hto htask hcreate hrevoke, Option.some.injEq, List.filter_eq_self]
  constructor
  · intro hall hmem
    simpa using hall fromTaskId hmem
  · intro hmem other hother
    simp only [ne_eq, decide_eq_true_eq]
    rintro rfl
    exact hmem hother

end RoundTrip

section Board

private def owner : CallerContext := { accountId := "acc_1" }

private def board (deps : List String) : Db where
  bundles := ⟨[{ id := "bun_1", createdBy := "acc_1" }], List.nodup_singleton "bun_1"⟩
  tasks := ⟨[{ id := "a", bundleId := "bun_1" }, { id := "b", bundleId := "bun_1", dependsOnTaskIds := deps }],
    by simp [Keyed.key]⟩

private def pipeTo : CreateLinkRequest := { toTaskId := some "b", kind := "pipe" }

private theorem wouldCycle_board (deps : List String) : wouldCycle (board deps) "bun_1" "a" "b" = false := by
  have hdeps : depsOf (board deps) "bun_1" = [("a", []), ("b", deps)] := rfl
  rw [wouldCycle, hdeps]
  simp [Adjacency.search, Adjacency.succs]

private theorem wouldCycleLinks_board (deps : List String) :
    wouldCycleLinks (board deps) "bun_1" "a" "b" = false := by
  have hlinks : linksOf (board deps) "bun_1" = [] := rfl
  rw [wouldCycleLinks, hlinks]
  simp [Adjacency.search, Adjacency.succs]

private theorem run_createLink_board (deps : List String) :
    (createLink "a" pipeTo owner (pathDraws 'x')).run Op.exec (board deps) =
      (insertLink { id := "a", bundleId := "bun_1" } "b" "pipe" pipeTo owner ((pathDraws 'x').sub 1)).run
        Op.exec (board deps) := by
  have hkind : linkKind pipeTo = "pipe" := by decide +kernel
  rw [createLink, hkind]
  rfl

private def pipeLink : Link :=
  { id := "lnk_xb", bundleId := "bun_1", fromTaskId := "a", toTaskId := "b", kind := "pipe",
    createdByAccount := "acc_1", createdAt := 1 }

/-- Nothing stands against the link. -/
private theorem run_pipe (deps : List String) :
    (createLink "a" pipeTo owner (pathDraws 'x')).run Op.exec (board deps) =
      (storeLink { id := "a", bundleId := "bun_1" } "b" "pipe" pipeTo ((pathDraws 'x').sub 1) pipeLink).run
        Op.exec (board deps) := by
  have hnone : activeEdges (board deps) "a" "b" "pipe" = [] := rfl
  have hnew : pipeTo.newTask.isNone = true := rfl
  rw [run_createLink_board, insertLink, run_bind_ok Op.exec (Sql.run_select _ _)]
  dsimp only
  rw [hnone, if_neg (by decide), if_pos hnew, run_bind_ok Op.exec (Sql.run_select _ _),
    wouldCycle_board, if_neg Bool.false_ne_true, run_bind_ok Op.exec (Sql.run_select _ _),
    wouldCycleLinks_board]
  rfl

/-- A task that does not depend on the upstream is as it was after the round trip. -/
theorem create_revoke_pipe_keeps_no_deps : ∃ fresh db₁ answer db₂,
    (createLink "a" pipeTo owner (pathDraws 'x')).run Op.exec (board []) = (.ok (some pipeLink, fresh), db₁) ∧
    (revokeLink pipeLink.id owner (pathDraws 'y')).run Op.exec db₁ = (.ok answer, db₂) ∧
    depsAt db₂ "b" = some [] := by
  have hruns : ∃ fresh db₁ answer db₂,
      (createLink "a" pipeTo owner (pathDraws 'x')).run Op.exec (board []) = (.ok (some pipeLink, fresh), db₁) ∧
      (revokeLink pipeLink.id owner (pathDraws 'y')).run Op.exec db₁ = (.ok answer, db₂) :=
    ⟨_, _, _, _, (run_pipe []).trans rfl, rfl⟩
  obtain ⟨fresh, db₁, answer, db₂, hcreate, hrevoke⟩ := hruns
  refine ⟨fresh, db₁, answer, db₂, hcreate, hrevoke, ?_⟩
  exact (create_revoke_pipe_keeps_deps_iff (by decide +kernel) rfl rfl hcreate hrevoke).mpr List.not_mem_nil

theorem own_dependency_lost : ∃ fresh db₁ answer db₂,
    (createLink "a" pipeTo owner (pathDraws 'x')).run Op.exec (board ["a"]) =
      (.ok (some pipeLink, fresh), db₁) ∧
    (revokeLink pipeLink.id owner (pathDraws 'y')).run Op.exec db₁ = (.ok answer, db₂) ∧
    depsAt (board ["a"]) "b" = some ["a"] ∧ depsAt db₂ "b" = some [] :=
  ⟨_, _, _, _, (run_pipe ["a"]).trans rfl, rfl, rfl, rfl⟩

end Board

end Krewhub
