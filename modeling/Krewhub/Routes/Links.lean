import Krewhub.Base.Digraph
import Krewhub.Routes.Tasks

/-!
# The link endpoints

`create_link` and `revoke_link` of `links.py`, with the two searches of the cycle guard. A pipe link
also makes its downstream depend on its upstream, and revoking the last one takes the dependency back.
-/

namespace Krewhub

def validKinds : List String := ["drives", "pipe", "subagent"]

def validSources : List String := ["report", "last_reply"]

def validTargets : List String := ["followup", "brief_context"]

/-! ### The cycle guard -/

/-- The dependencies of the tasks of a bundle. -/
def depsOf (db : Db) (bundleId : String) : Adjacency String :=
  (db.tasks.rows.filter (·.bundleId == bundleId)).map fun t => (t.id, t.dependsOnTaskIds)

/-- The active links of a bundle. -/
def linksOf (db : Db) (bundleId : String) : Adjacency String :=
  (db.links.rows.filter fun l => l.bundleId == bundleId && l.revokedAt.isNone).foldl
    (fun adj l => adj.addEdge l.fromTaskId l.toTaskId) []

/-- Whether a dependency of `toId` on `fromId` would close a cycle. -/
def wouldCycle (db : Db) (bundleId fromId toId : String) : Bool :=
  (depsOf db bundleId).search toId [] [fromId]

/-- Whether a link from `fromId` to `toId` would close a cycle of links. -/
def wouldCycleLinks (db : Db) (bundleId fromId toId : String) : Bool :=
  (linksOf db bundleId).search fromId [] [toId]

/-! ### The endpoints -/

structure NewLinkedTaskInput where
  title : String
  description : Option String := none
  brief : Option Brief := none
  deriving DecidableEq, Repr

structure CreateLinkRequest where
  toTaskId : Option String := none
  newTask : Option NewLinkedTaskInput := none
  kind : String := "drives"
  payloadMap : PayloadMap := {}
  deriving DecidableEq, Repr

/-- `(req.kind or "drives").strip().lower()`. -/
def linkKind (req : CreateLinkRequest) : String :=
  Text.lower (Text.strip (if req.kind = "" then "drives" else req.kind))

/-- A to-task that exists already, in the bundle of the from-task and not itself. -/
def existingToTask (fromTask : Task) (toTaskId : String) : Sql String :=
  if toTaskId = fromTask.id then httpError 400 "cannot link a task to itself"
  else do
    match ← TaskRepo.get toTaskId with
    | none => httpError 404 "to task not found"
    | some toTask =>
      if toTask.bundleId ≠ fromTask.bundleId then
        httpError 400 "links cannot cross bundles (v1)"
      else return toTaskId

/-- The downstream of the new link: created on the spot, or one that exists. -/
def linkTarget (fromTask : Task) (req : CreateLinkRequest) (d : Draws) : Sql String :=
  match req.newTask with
  | some input => do
    let created ← TaskService.addTask fromTask.bundleId input.title input.description [] d
    match input.brief with
    | none => return created.id
    | some brief => do
      .perform (.updateTask created.id (.brief brief) none none) fun _ => ()
      return created.id
  | none => existingToTask fromTask (req.toTaskId.getD "")

/-- A pipe implies a dependency. -/
def impliedDependency (fromTaskId toTaskId : String) (d : Draws) : Sql Unit := do
  match ← TaskRepo.get toTaskId with
  | none => httpError 404 "to task not found"
  | some toTask =>
    if fromTaskId ∈ toTask.dependsOnTaskIds then return
    else do
      let updated ← TaskRepo.update toTaskId
        { dependsOnTaskIds := some (toTask.dependsOnTaskIds ++ [fromTaskId]) } none none d
      TaskService.recordUpdated updated

/-- The active links of one direction and kind. -/
def activeEdges (db : Db) (fromTaskId toTaskId kind : String) : List Link :=
  db.links.rows.filter fun l =>
    l.fromTaskId == fromTaskId && l.toTaskId == toTaskId && l.kind == kind && l.revokedAt.isNone

/-- `create_link` from the duplicate check on. -/
def insertLink (fromTask : Task) (toTaskId kind : String) (req : CreateLinkRequest)
    (caller : CallerContext) (d : Draws) : Sql (Option Link × Option Task) := do
  if ← Sql.select fun db => !(activeEdges db fromTask.id toTaskId kind).isEmpty then
    httpError 409 "link already exists"
  if req.newTask.isNone then
    let cyclic ← Sql.select (wouldCycle · fromTask.bundleId fromTask.id toTaskId)
    let cyclicLinks ← if cyclic then pure true
      else Sql.select (wouldCycleLinks · fromTask.bundleId fromTask.id toTaskId)
    if cyclic || cyclicLinks then httpError 400 "link would create a dependency cycle"
  if kind = "pipe" then impliedDependency fromTask.id toTaskId (d.sub 0)
  let link : Link :=
    { id := d.hexId "lnk_" 12
      bundleId := fromTask.bundleId
      fromTaskId := fromTask.id
      toTaskId := toTaskId
      kind := kind
      payloadMap := req.payloadMap
      createdByAccount := caller.accountId
      createdByTask := if req.newTask.isSome then some fromTask.id else none
      createdAt := d.clock }
  Sql.checked (.insertLink link) (fun db => (db.links.get link.id).isNone) "task_links"
  if req.newTask.isSome then
    .perform (.updateTask toTaskId (.createdByTask fromTask.id) none none) fun _ => ()
  Sql.commit
  let row ← Sql.select (·.links.get link.id)
  let freshTo ← TaskRepo.get toTaskId
  return (row, freshTo)

def createLink (fromTaskId : String) (req : CreateLinkRequest) (caller : CallerContext) (d : Draws) :
    Sql (Option Link × Option Task) := do
  let kind := linkKind req
  if kind ∉ validKinds then
    httpError 400 "kind must be 'drives' (or legacy 'pipe'|'subagent')"
  if req.toTaskId.isNone = req.newTask.isNone then
    httpError 400 "exactly one of to_task_id or new_task is required"
  if ∃ source ∈ req.payloadMap.source, source ∉ validSources then
    httpError 400 "payload_map.source must be report|last_reply"
  if ∃ target ∈ req.payloadMap.target, target ∉ validTargets then
    httpError 400 "payload_map.target must be followup|brief_context"
  match ← TaskRepo.get fromTaskId with
  | none => httpError 404 "from task not found"
  | some fromTask =>
    let _ ← requireBundleOwner fromTask.bundleId caller
    let toTaskId ← linkTarget fromTask req (d.sub 0)
    insertLink fromTask toTaskId kind req caller (d.sub 1)

/-- The dependency a pipe implied is taken back with the last active pipe. -/
def unwindDependency (link : Link) (d : Draws) : Sql Unit := do
  let others ← Sql.select fun db =>
    ((activeEdges db link.fromTaskId link.toTaskId "pipe").filter (·.id ≠ link.id)).length
  if others ≠ 0 then return
  match ← TaskRepo.get link.toTaskId with
  | none => return
  | some toTask =>
    if link.fromTaskId ∉ toTask.dependsOnTaskIds then return
    else do
      let updated ← TaskRepo.update link.toTaskId
        { dependsOnTaskIds := some (toTask.dependsOnTaskIds.filter (· ≠ link.fromTaskId)) } none none d
      TaskService.recordUpdated updated

/-- `revoke_link`: the link and whether it was revoked already. -/
def revokeLink (linkId : String) (caller : CallerContext) (d : Draws) : Sql (Option Link × Bool) := do
  match ← Sql.select (·.links.get linkId) with
  | none => httpError 404 "link not found"
  | some link =>
    let _ ← requireBundleOwner link.bundleId caller
    if link.revokedAt.isSome then return (some link, true)
    .perform (.revokeLink linkId d.clock) fun _ => ()
    if link.kind = "pipe" then unwindDependency link (d.sub 0)
    Sql.commit
    let row ← Sql.select (·.links.get linkId)
    return (row, false)

/-! ### What the endpoints keep -/

/-- `create_link` from the implied dependency on. -/
def storeLink (fromTask : Task) (toTaskId kind : String) (req : CreateLinkRequest) (d : Draws)
    (link : Link) : Sql (Option Link × Option Task) := do
  if kind = "pipe" then impliedDependency fromTask.id toTaskId (d.sub 0)
  Sql.checked (.insertLink link) (fun db => (db.links.get link.id).isNone) "task_links"
  if req.newTask.isSome then
    .perform (.updateTask toTaskId (.createdByTask fromTask.id) none none) fun _ => ()
  Sql.commit
  let row ← Sql.select (·.links.get link.id)
  let freshTo ← TaskRepo.get toTaskId
  return (row, freshTo)

section Keeps

variable {R : Db → Db → Prop} [IsPreorder Db R] {fromTask : Task} {toTaskId kind : String}
  {req : CreateLinkRequest} {caller : CallerContext} {d : Draws} {db : Db}

/-- A link is stored once both guards let it through, or without them when its downstream is new. -/
theorem keeps_insertLink
    (h : (req.newTask = none → wouldCycle db fromTask.bundleId fromTask.id toTaskId = false ∧
        wouldCycleLinks db fromTask.bundleId fromTask.id toTaskId = false) →
      ∀ link : Link, link.bundleId = fromTask.bundleId → link.fromTaskId = fromTask.id →
        link.toTaskId = toTaskId → Sql.Keeps R (storeLink fromTask toTaskId kind req d link) db) :
    Sql.Keeps R (insertLink fromTask toTaskId kind req caller d) db := by
  refine Sql.keeps_select (Coro.Keeps.ite (fun _ => refl_of R db) fun _ => ?_)
  refine Coro.Keeps.ite (fun hnone => ?_) fun hsome => ?_
  · apply Sql.keeps_select
    cases hdeps : wouldCycle db fromTask.bundleId fromTask.id toTaskId with
    | true => exact refl_of R db
    | false =>
      apply Sql.keeps_select
      cases hlinks : wouldCycleLinks db fromTask.bundleId fromTask.id toTaskId with
      | true => exact refl_of R db
      | false => exact h (fun _ => ⟨hdeps, hlinks⟩) _ rfl rfl rfl
  · rw [Option.isNone_iff_eq_none] at hsome
    exact h (fun hnone => absurd hnone hsome) _ rfl rfl rfl

theorem keeps_createLink {fromTaskId : String}
    (h : ∀ fromTask, db.tasks.get fromTaskId = some fromTask →
      OwnsBundle db caller fromTask.bundleId → Sql.Keeps R (do
        let toTaskId ← linkTarget fromTask req (d.sub 0)
        insertLink fromTask toTaskId (linkKind req) req caller (d.sub 1)) db) :
    Sql.Keeps R (createLink fromTaskId req caller d) db := by
  refine Coro.Keeps.ite (fun _ => refl_of R db) fun _ => ?_
  refine Coro.Keeps.ite (fun _ => refl_of R db) fun _ => ?_
  refine Coro.Keeps.ite (fun _ => refl_of R db) fun _ => ?_
  refine Coro.Keeps.ite (fun _ => refl_of R db) fun _ => TaskRepo.keeps_get ?_
  cases hfrom : db.tasks.get fromTaskId with
  | none => exact refl_of R db
  | some fromTask => exact keeps_requireBundleOwner fun howns _ _ => h fromTask hfrom howns

end Keeps

/-! ### What the endpoints write -/

section Every

variable {P : Op → Prop} (hP : PlainOps P)
include hP

theorem every_linkTarget {fromTask : Task} {req : CreateLinkRequest} {d : Draws}
    (htask : ∀ title description now, P (.insertTask
      { id := d.hexId "task_" 8, bundleId := fromTask.bundleId, title, description,
        status := .open_, dependsOnTaskIds := [], updatedAt := some now }))
    (hbrief : ∀ id brief, P (.updateTask id (.brief brief) none none)) :
    (linkTarget fromTask req d).Every P := by
  unfold linkTarget
  cases req.newTask with
  | some input =>
    refine .bind (TaskService.every_addTask hP fun now => htask _ _ now) fun created => ?_
    cases input.brief with
    | none => trivial
    | some brief =>
      exact .bind ((Coro.every_perform _ _).mpr (hbrief _ _)) fun _ => by trivial
  | none =>
    refine .ite (fun _ => by trivial) fun _ => ?_
    refine .bind (TaskRepo.every_get hP _) fun found => ?_
    cases found with
    | none => trivial
    | some toTask => exact .ite (fun _ => by trivial) fun _ => by trivial

theorem every_impliedDependency {fromTaskId toTaskId : String} {d : Draws}
    (hupdate : ∀ deps now, P (.updateTask toTaskId
      (.patch { dependsOnTaskIds := some deps } now) none none)) :
    (impliedDependency fromTaskId toTaskId d).Every P := by
  refine .bind (TaskRepo.every_get hP _) fun found => ?_
  cases found with
  | none => trivial
  | some toTask =>
    refine .ite (fun _ => by trivial) fun _ => ?_
    exact .bind (TaskRepo.every_update hP (hupdate _ _)) fun _ =>
      TaskService.every_recordUpdated hP _

/-- What follows the implied dependency: the link, and the provenance of a new downstream. -/
theorem every_storeLink_tail {fromTask : Task} {toTaskId : String} {link : Link}
    (hlink : P (.insertLink link))
    (hstamp : P (.updateTask toTaskId (.createdByTask fromTask.id) none none)) (stamp : Bool) :
    (do
      Sql.checked (.insertLink link) (fun db => (db.links.get link.id).isNone) "task_links"
      if stamp then
        .perform (.updateTask toTaskId (.createdByTask fromTask.id) none none) fun _ => ()
      Sql.commit
      let row ← Sql.select (·.links.get link.id)
      let freshTo ← TaskRepo.get toTaskId
      return (row, freshTo) : Sql (Option Link × Option Task)).Every P := by
  have hread : (do
      Sql.commit
      let row ← Sql.select (·.links.get link.id)
      let freshTo ← TaskRepo.get toTaskId
      return (row, freshTo) : Sql (Option Link × Option Task)).Every P :=
    .bind (Sql.every_commit hP) fun _ => .bind (Sql.every_select hP _) fun _ =>
      .bind (TaskRepo.every_get hP _) fun _ => trivial
  refine .bind (Sql.every_checked hlink _ _) fun _ => .ite (fun _ => ?_) fun _ => hread
  exact .bind ((Coro.every_perform _ _).mpr hstamp) fun _ => hread

theorem every_storeLink {fromTask : Task} {toTaskId kind : String} {req : CreateLinkRequest}
    {d : Draws} {link : Link}
    (hupdate : ∀ deps now, P (.updateTask toTaskId
      (.patch { dependsOnTaskIds := some deps } now) none none))
    (hlink : P (.insertLink link))
    (hstamp : P (.updateTask toTaskId (.createdByTask fromTask.id) none none)) :
    (storeLink fromTask toTaskId kind req d link).Every P := by
  have htail := every_storeLink_tail hP hlink hstamp req.newTask.isSome
  exact .ite (fun _ => .bind (every_impliedDependency hP hupdate) fun _ => htail) fun _ => htail

theorem every_unwindDependency {link : Link} {d : Draws}
    (hupdate : ∀ deps now, P (.updateTask link.toTaskId
      (.patch { dependsOnTaskIds := some deps } now) none none)) :
    (unwindDependency link d).Every P := by
  refine .bind (Sql.every_select hP _) fun others => .ite (fun _ => by trivial) fun _ => ?_
  refine .bind (TaskRepo.every_get hP _) fun found => ?_
  cases found with
  | none => trivial
  | some toTask =>
    refine .ite (fun _ => by trivial) fun _ => ?_
    exact .bind (TaskRepo.every_update hP (hupdate _ _)) fun _ =>
      TaskService.every_recordUpdated hP _

theorem every_revokeLink {linkId : String} {caller : CallerContext} {d : Draws}
    (hrevoke : ∀ now, P (.revokeLink linkId now))
    (hupdate : ∀ taskId deps now, P (.updateTask taskId
      (.patch { dependsOnTaskIds := some deps } now) none none)) :
    (revokeLink linkId caller d).Every P := by
  refine .bind (Sql.every_select hP _) fun found => ?_
  cases found with
  | none => trivial
  | some link =>
    refine .bind (every_requireBundleOwner hP _ _) fun _ => .ite (fun _ => by trivial) fun _ => ?_
    have htail : (do
        Sql.commit
        let row ← Sql.select (·.links.get linkId)
        return (row, false) : Sql (Option Link × Bool)).Every P :=
      .bind (Sql.every_commit hP) fun _ => .bind (Sql.every_select hP _) fun _ => trivial
    refine .bind ((Coro.every_perform _ _).mpr (hrevoke _)) fun _ => .ite (fun _ => ?_) fun _ => htail
    exact .bind (every_unwindDependency hP (hupdate _)) fun _ => htail

end Every

/-- What `create_link` does: a new downstream, the dependency a pipe implies, the link. -/
structure LinkCreationOps (P : Op → Prop) : Prop extends PlainOps P where
  create : ∀ id bundleId title description deps now, P (.insertTask
    { id, bundleId, title, description, status := .open_, dependsOnTaskIds := deps,
      updatedAt := some now })
  brief : ∀ taskId brief, P (.updateTask taskId (.brief brief) none none)
  depend : ∀ taskId deps now,
    P (.updateTask taskId (.patch { dependsOnTaskIds := some deps } now) none none)
  link : ∀ link : Link, link.firedAt = none → link.revokedAt = none → P (.insertLink link)
  provenance : ∀ taskId fromTaskId, P (.updateTask taskId (.createdByTask fromTaskId) none none)

theorem every_createLink {P : Op → Prop} (hP : LinkCreationOps P) (fromTaskId : String)
    (req : CreateLinkRequest) (caller : CallerContext) (d : Draws) :
    (createLink fromTaskId req caller d).Every P := by
  have hplain := hP.toPlainOps
  refine .ite (fun _ => by trivial) fun _ => .ite (fun _ => by trivial) fun _ => ?_
  refine .ite (fun _ => by trivial) fun _ => .ite (fun _ => by trivial) fun _ => ?_
  refine .bind (TaskRepo.every_get hplain _) fun found => ?_
  cases found with
  | none => trivial
  | some fromTask =>
    refine .bind (every_requireBundleOwner hplain _ _) fun _ => ?_
    refine .bind (every_linkTarget hplain (fun _ _ _ => hP.create _ _ _ _ _ _) hP.brief) fun toTaskId => ?_
    have hstore : ∀ link : Link, link.firedAt = none → link.revokedAt = none →
        (storeLink fromTask toTaskId (linkKind req) req (d.sub 1) link).Every P :=
      fun link hfired hrevoked => every_storeLink hplain (hP.depend _) (hP.link _ hfired hrevoked)
        (hP.provenance _ _)
    refine .bind (Sql.every_select hplain _) fun _ => .ite (fun _ => by trivial) fun _ => ?_
    refine .ite (fun _ => ?_) fun _ => hstore _ rfl rfl
    refine .bind (Sql.every_select hplain _) fun cyclic => ?_
    cases cyclic with
    | true => trivial
    | false =>
      refine .bind (Sql.every_select hplain _) fun cyclicLinks => ?_
      exact .ite (fun _ => by trivial) fun _ => hstore _ rfl rfl

/-- The downstream is a task of the bundle of the upstream, a new one with the id drawn for it. -/
theorem get_of_linkTarget {fromTask : Task} {req : CreateLinkRequest} {d : Draws} {db db' : Db}
    {toTaskId : String}
    (h : (linkTarget fromTask req d).run Op.exec db = (.ok toTaskId, db')) :
    (∃ toTask, db'.tasks.get toTaskId = some toTask ∧ toTask.bundleId = fromTask.bundleId) ∧
      (req.newTask.isSome → toTaskId = d.hexId "task_" 8 ∧ db.tasks.get toTaskId = none) := by
  rw [linkTarget] at h
  cases hnew : req.newTask with
  | some input =>
    rw [hnew] at h
    dsimp only at h
    rw [Coro.run_bind] at h
    split at h
    · rename_i created db₁ hadd
      obtain ⟨hid, hbundle, hfree, hget⟩ := TaskService.run_addTask_of_ok hadd
      cases hbrief : input.brief with
      | none =>
        rw [hbrief] at h
        cases h
        exact ⟨⟨created, hget, hbundle⟩, fun _ => ⟨hid, hfree⟩⟩
      | some brief =>
        rw [hbrief] at h
        cases h
        refine ⟨⟨(TaskUpdate.brief brief).apply created, ?_, ?_⟩, fun _ => ⟨hid, hfree⟩⟩
        · rw [Op.get_exec_updateTask, if_pos rfl, hget]
          rfl
        · rw [TaskUpdate.apply_bundleId, hbundle]
    · cases h
  | none =>
    rw [hnew] at h
    dsimp only [existingToTask] at h
    split at h
    · cases h
    · rw [TaskRepo.run_get_bind] at h
      cases hto : db.tasks.get (req.toTaskId.getD "") with
      | none =>
        rw [hto] at h
        cases h
      | some toTask =>
        rw [hto] at h
        dsimp only at h
        split at h
        · cases h
        · rename_i hbundle
          cases h
          rw [ne_eq, not_not] at hbundle
          exact ⟨⟨toTask, hto, hbundle⟩, fun hsome => by cases hsome⟩

end Krewhub
