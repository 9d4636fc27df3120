import Krewhub.Base.Serial
import Krewhub.Routes.Bundles
import Krewhub.Routes.Links

/-!
# Acyclic dependencies

A task is dispatched once all it depends on is done, so tasks that depend on each other in a circle
are never dispatched. `create_link` refuses a pipe that would close one. The other writers of
dependencies do not look: `add_task` and `edit_task` store what the caller sends, `create_bundle` lets
it choose the ids as well, and `attach_graph_artifact` takes any edges the graph has.

`BoardCall.Guarded` asks the check of `create_link` of all of them, and runs of guarded calls keep the
dependencies of every bundle acyclic.
-/

namespace Krewhub

open Relation

/-! ### The dependency graph -/

/-- The task `x` of the bundle depends on `y`. -/
def DependsOn (db : Db) (bundleId x y : String) : Prop :=
  ∃ t ∈ db.tasks, t.bundleId = bundleId ∧ t.id = x ∧ y ∈ t.dependsOnTaskIds

/-- The dependency graph of every bundle is acyclic. -/
def DepsAcyclic (db : Db) : Prop := ∀ bundleId, Acyclic (DependsOn db bundleId)

theorem dependsOn_of_get {db : Db} {t : Task} {x y : String} (h : db.tasks.get x = some t)
    (hy : y ∈ t.dependsOnTaskIds) : DependsOn db t.bundleId x y :=
  ⟨t, Table.mem_of_get h, rfl, Table.key_eq_of_get h, hy⟩

theorem edge_depsOf_iff {db : Db} {bundleId x y : String} :
    (depsOf db bundleId).Edge x y ↔ DependsOn db bundleId x y := by
  have hmem : ∀ deps, (x, deps) ∈ depsOf db bundleId ↔
      ∃ t ∈ db.tasks, t.bundleId = bundleId ∧ t.id = x ∧ t.dependsOnTaskIds = deps := by
    intro deps
    simp only [depsOf, List.mem_map, List.mem_filter, beq_iff_eq, Prod.mk.injEq, and_assoc]
    rfl
  rw [Adjacency.Edge, Adjacency.succs]
  constructor
  · intro h
    cases hlookup : (depsOf db bundleId).lookup x with
    | none =>
      rw [hlookup] at h
      cases h
    | some deps =>
      rw [hlookup, Option.getD_some] at h
      obtain ⟨before, rest, heq, _⟩ := List.lookup_eq_some_iff.mp hlookup
      obtain ⟨t, ht, hbundle, hid, rfl⟩ := (hmem deps).mp (by simp [heq])
      exact ⟨t, ht, hbundle, hid, h⟩
  · rintro ⟨t, ht, hbundle, hid, hy⟩
    cases hlookup : (depsOf db bundleId).lookup x with
    | none =>
      have hnone := List.lookup_eq_none_iff.mp hlookup _ ((hmem _).mpr ⟨t, ht, hbundle, hid, rfl⟩)
      simp at hnone
    | some deps =>
      obtain ⟨before, rest, heq, _⟩ := List.lookup_eq_some_iff.mp hlookup
      obtain ⟨t', ht', _, hid', rfl⟩ := (hmem deps).mp (by simp [heq])
      rwa [Option.getD_some, Table.eq_of_key_eq ht' ht (hid'.trans hid.symm)]

/-- The check of `create_link` is reachability along the dependencies of the bundle. -/
theorem wouldCycle_iff {db : Db} {bundleId fromId toId : String} :
    wouldCycle db bundleId fromId toId = true ↔
      ReflTransGen (DependsOn db bundleId) fromId toId := by
  have hedge : (depsOf db bundleId).Edge = DependsOn db bundleId := by
    funext x y
    exact propext edge_depsOf_iff
  rw [wouldCycle, Adjacency.search_eq_true_iff, hedge]

/-! ### Statements that add no edge -/

/-- No task depends on more than it did. -/
def DropsEdges (db db' : Db) : Prop :=
  ∀ bundleId x y, DependsOn db' bundleId x y → DependsOn db bundleId x y

instance : IsPreorder Db DropsEdges where
  refl _ _ _ _ h := h
  trans _ _ _ hab hbc _ _ _ h := hab _ _ _ (hbc _ _ _ h)

/-- A circle of dependencies is there only if one was there before. -/
def KeepsAcyclic (db db' : Db) : Prop := DepsAcyclic db → DepsAcyclic db'

instance : IsPreorder Db KeepsAcyclic where
  refl _ h := h
  trans _ _ _ hab hbc h := hbc (hab h)

theorem DropsEdges.keepsAcyclic {db db' : Db} (h : DropsEdges db db') : KeepsAcyclic db db' :=
  fun hacyclic bundleId => (hacyclic bundleId).mono (h bundleId)

theorem keepsAcyclic_of_drops {α : Type} {c : Sql α} {db : Db} (h : Sql.Keeps DropsEdges c db) :
    Sql.Keeps KeepsAcyclic c db := h.mono fun _ _ => DropsEdges.keepsAcyclic

theorem dropsEdges_of_tasks_eq {db db' : Db} (h : db'.tasks = db.tasks) : DropsEdges db db' := by
  rintro bundleId x y ⟨t, ht, hedge⟩
  exact ⟨t, h ▸ ht, hedge⟩

/-- The edges after an update are the ones out of other tasks, and those the update leaves or writes. -/
theorem dependsOn_updateTask {db : Db} {id bundleId x y : String} {u : TaskUpdate}
    {seen : Option Task}
    (h : DependsOn (Op.exec (.updateTask id u none seen) db) bundleId x y) :
    DependsOn db bundleId x y ∧ x ≠ id ∨
      ∃ t, db.tasks.get id = some t ∧ t.bundleId = bundleId ∧ x = id ∧
        y ∈ u.dependencies?.getD t.dependsOnTaskIds := by
  obtain ⟨t', ht', hbundle, rfl, hy⟩ := h
  obtain ⟨t, ht, rfl⟩ := Op.mem_exec_updateTask.mp ht'
  by_cases hid : t.id = id
  · rw [if_pos hid, TaskUpdate.apply_bundleId] at hbundle
    rw [if_pos hid, TaskUpdate.apply_dependsOnTaskIds] at hy
    rw [if_pos hid, TaskUpdate.apply_id]
    exact .inr ⟨t, Table.get_eq_some_iff.mpr ⟨ht, hid⟩, hbundle, hid, hy⟩
  · rw [if_neg hid] at hbundle hy ⊢
    exact .inl ⟨⟨t, ht, hbundle, rfl, hy⟩, hid⟩

/-- An update that writes no dependency the task does not have. -/
theorem dropsEdges_updateTask {db : Db} {id : String} {u : TaskUpdate} {seen : Option Task}
    (h : ∀ t, db.tasks.get id = some t → ∀ y ∈ u.dependencies?.getD t.dependsOnTaskIds,
      y ∈ t.dependsOnTaskIds) : DropsEdges db (Op.exec (.updateTask id u none seen) db) := by
  intro bundleId x y hxy
  rcases dependsOn_updateTask hxy with ⟨hold, _⟩ | ⟨t, ht, rfl, rfl, hy⟩
  · exact hold
  · exact dependsOn_of_get ht (h t ht y hy)

theorem dependsOn_insertTask {db : Db} {t : Task} {bundleId x y : String}
    (h : DependsOn (Op.exec (.insertTask t) db) bundleId x y) :
    DependsOn db bundleId x y ∨ t.bundleId = bundleId ∧ x = t.id ∧ y ∈ t.dependsOnTaskIds := by
  obtain ⟨t', ht', hbundle, rfl, hy⟩ := h
  rw [Op.exec] at ht'
  cases haccepts : db.acceptsTask t with
  | false =>
    rw [haccepts] at ht'
    exact .inl ⟨t', ht', hbundle, rfl, hy⟩
  | true =>
    rw [haccepts] at ht'
    have hfree : db.tasks.get (key t) = none := by
      rw [Db.acceptsTask, Bool.and_eq_true, Option.isNone_iff_eq_none] at haccepts
      exact haccepts.1
    rcases (Table.mem_insert hfree).mp ht' with hold | rfl
    · exact .inl ⟨t', hold, hbundle, rfl, hy⟩
    · exact .inr ⟨hbundle, rfl, hy⟩

/-- The operation adds no edge, whatever the database. -/
def EdgeFree (op : Op) : Prop := ∀ db, DropsEdges db (op.exec db)

theorem EdgeFree.update {id : String} {u : TaskUpdate} {seen : Option Task}
    (h : u.dependencies? = none) : EdgeFree (.updateTask id u none seen) := by
  intro db
  refine dropsEdges_updateTask fun t _ y hy => ?_
  rwa [h, Option.getD_none] at hy

theorem EdgeFree.insert {t : Task} (h : t.dependsOnTaskIds = []) : EdgeFree (.insertTask t) := by
  intro db bundleId x y hxy
  rcases dependsOn_insertTask hxy with hold | ⟨_, _, hy⟩
  · exact hold
  · rw [h] at hy
    cases hy

theorem EdgeFree.delete {id : String} : EdgeFree (.deleteTask id) := by
  rintro db bundleId x y ⟨t, ht, hedge⟩
  exact ⟨t, (Table.mem_erase.mp ht).1, hedge⟩

theorem EdgeFree.insertEvent {event : Event} : EdgeFree (.insertEvent event) := by
  intro db
  rw [Op.exec]
  split <;> exact dropsEdges_of_tasks_eq rfl

theorem plainOps_edgeFree : PlainOps EdgeFree :=
  ⟨fun _ => dropsEdges_of_tasks_eq rfl, fun _ => dropsEdges_of_tasks_eq rfl,
    fun _ => dropsEdges_of_tasks_eq rfl⟩

theorem EdgeFree.of_tasks_eq {op : Op} (h : ∀ db, (op.exec db).tasks = db.tasks) : EdgeFree op :=
  fun db => dropsEdges_of_tasks_eq (h db)

theorem keeps_of_edgeFree {α : Type} {c : Sql α} (h : c.Every EdgeFree) (db : Db) :
    Sql.Keeps DropsEdges c db := h.keeps (fun _ hop => hop) db

/-! ### Statements that add edges -/

/-- Dependencies that do not lead back to the task may be written to it. -/
theorem keepsAcyclic_updateTask {db : Db} {id : String} {u : TaskUpdate} {seen : Option Task}
    (h : ∀ t, db.tasks.get id = some t → ∀ y ∈ u.dependencies?.getD t.dependsOnTaskIds,
      y ∈ t.dependsOnTaskIds ∨ ¬ ReflTransGen (DependsOn db t.bundleId) y id) :
    KeepsAcyclic db (Op.exec (.updateTask id u none seen) db) := by
  intro hacyclic bundleId
  refine (hacyclic bundleId).replace (a := id) (fun x y hxy => ?_) fun y hy => ?_
  · rcases dependsOn_updateTask hxy with ⟨hold, _⟩ | ⟨_, _, _, rfl, _⟩
    · exact .inr hold
    · exact .inl rfl
  · rcases dependsOn_updateTask hy with ⟨_, hne⟩ | ⟨t, ht, rfl, _, hy⟩
    · exact absurd rfl hne
    · exact (h t ht y hy).imp_left (dependsOn_of_get ht)

/-- So may they to a task that is created with them. -/
theorem keepsAcyclic_insertTask {db : Db} {t : Task}
    (h : ∀ y ∈ t.dependsOnTaskIds, ¬ ReflTransGen (DependsOn db t.bundleId) y t.id) :
    KeepsAcyclic db (Op.exec (.insertTask t) db) := by
  intro hacyclic bundleId
  refine (hacyclic bundleId).replace (a := t.id) (fun x y hxy => ?_) fun y hy => ?_
  · rcases dependsOn_insertTask hxy with hold | ⟨_, rfl, _⟩
    · exact .inr hold
    · exact .inl rfl
  · rcases dependsOn_insertTask hy with hold | ⟨rfl, _, hy⟩
    · exact .inl hold
    · exact .inr (h y hy)

/-! ### Requests -/

inductive BoardRequest where
  | createBundle (cookbookId : String) (req : CreateBundleRequest) (role : Except Exn Unit)
      (sandboxId : Option String)
  | addTask (bundleId : String) (req : AddTaskRequest) (provisioned : Option String)
  | edit (taskId : String) (title description : Option String)
      (dependsOnTaskIds : Option (List String))
  | link (fromTaskId : String) (req : CreateLinkRequest)
  | revoke (linkId : String)
  | attachGraph (sandbox : GraphSandbox) (bundleId code createdBy : String)
  | cancel (taskId : String)
  | remove (taskId : String)

/-- One request of a caller; `depth` is the recursion the interpreter allows. -/
def BoardRequest.handle (depth : Nat) (req : BoardRequest) (caller : CallerContext) (d : Draws) :
    Sql Unit :=
  match req with
  | .createBundle cookbookId req role sandboxId =>
      discard (createBundleUnderCookbook cookbookId req role sandboxId caller d)
  | .addTask bundleId req provisioned => discard (addTaskToBundle bundleId req provisioned caller d)
  | .edit taskId title description deps =>
      discard (editTask taskId title description deps caller d)
  | .link fromTaskId req => discard (createLink fromTaskId req caller d)
  | .revoke linkId => discard (revokeLink linkId caller d)
  | .attachGraph sandbox bundleId code createdBy =>
      discard (attachBundleGraph sandbox bundleId code createdBy caller d)
  | .cancel taskId => discard (cancelTask depth taskId caller d)
  | .remove taskId => discard (removeTask depth taskId caller d)

structure BoardCall where
  caller : CallerContext
  request : BoardRequest
  draws : Draws

/-- The database after the request has completed. -/
def BoardCall.apply (depth : Nat) (call : BoardCall) (db : Db) : Db :=
  ((call.request.handle depth call.caller call.draws).run Op.exec db).2

/-! ### The guard -/

/-- Whether a task that depends on `deps` is on a circle. -/
def ClosesCycle (db : Db) (bundleId taskId : String) (deps : List String) : Prop :=
  ∃ dep ∈ deps, wouldCycle db bundleId dep taskId = true

/-- The rows that are inserted of a list, up to the first whose id is taken. -/
def insertable (taken : List String) : List Task → List Task
  | [] => []
  | t :: ts => if t.id ∈ taken then [] else t :: insertable (t.id :: taken) ts

/-- The rows `create_bundle` inserts its tasks as. -/
def inputRows (bundleId : String) (d : Draws) : List CreateTaskInput → List Task
  | [] => []
  | t :: ts =>
    { BundleService.inputTask bundleId (d.sub ts.length) t with
      updatedAt := some ((d.sub ts.length).sub 0).clock } :: inputRows bundleId d ts

/-- The dependencies among rows that are to be inserted. -/
def RowDependsOn (rows : List Task) (x y : String) : Prop :=
  ∃ t ∈ rows, t.id = x ∧ y ∈ t.dependsOnTaskIds

/-- The check of `create_link` before any request that writes dependencies: what it stores closes no
circle. A request the endpoint turns down stores nothing. -/
def BoardCall.Guarded (db : Db) (call : BoardCall) : Prop :=
  let d := call.draws
  match call.request with
  | .createBundle _ req role _ =>
      let bundleId := (d.sub 0).hexId "bun_" 8
      role = .ok () → db.bundles.get bundleId = none → Acyclic (RowDependsOn
        (insertable (db.tasks.rows.map (·.id)) (inputRows bundleId ((d.sub 0).sub 0) req.tasks)))
  | .addTask bundleId req _ =>
      ∀ bundle ∈ db.bundles.get bundleId, OwnsBundle db call.caller bundleId →
        (call.caller.authMethod = "api_key" ∨ bundle.defaultAgentRuntimeId ≠ none) →
          ¬ ClosesCycle db bundleId (d.hexId "task_" 8) req.dependsOnTaskIds
  | .edit taskId _ _ deps =>
      ∀ task ∈ db.tasks.get taskId, MayMutate db call.caller task →
        ¬ ClosesCycle db task.bundleId taskId (deps.getD [])
  | .link fromTaskId req =>
      req.newTask.isSome → linkKind req = "pipe" →
        ∀ task ∈ db.tasks.get fromTaskId, OwnsBundle db call.caller task.bundleId →
          ¬ ClosesCycle db task.bundleId ((d.sub 0).hexId "task_" 8) [fromTaskId]
  | .attachGraph sandbox bundleId code _ =>
      ∀ bundle ∈ db.bundles.get bundleId, OwnsBundle db call.caller bundleId →
        bundle.graphCode = none → ∀ graph mermaid, sandbox code = .ok (graph, mermaid) →
          Acyclic fun nid src => (src, nid) ∈ graph.edges
  | .revoke _ | .cancel _ | .remove _ => True

theorem not_reach_of_not_closesCycle {db : Db} {bundleId taskId y : String} {deps : List String}
    (h : ¬ ClosesCycle db bundleId taskId deps) (hy : y ∈ deps) :
    ¬ ReflTransGen (DependsOn db bundleId) y taskId :=
  fun hreach => h ⟨y, hy, wouldCycle_iff.mpr hreach⟩

/-! ### Editing and adding a task -/

theorem keepsAcyclic_editTask {db : Db} {taskId : String} {deps : Option (List String)}
    {caller : CallerContext}
    (hguard : ∀ task ∈ db.tasks.get taskId, MayMutate db caller task →
      ¬ ClosesCycle db task.bundleId taskId (deps.getD []))
    (title description : Option String) (d : Draws) :
    Sql.Keeps KeepsAcyclic (editTask taskId title description deps caller d) db := by
  refine keeps_taskOr404 fun task htask => keeps_authorize fun hmay => ?_
  refine Sql.keeps_bind_last (Sql.keeps_bind_last (TaskRepo.keeps_update ?_) fun updated => ?_)
    fun updated => ?_
  · refine keepsAcyclic_updateTask fun t ht y hy => ?_
    rw [htask] at ht
    obtain rfl := Option.some.inj ht
    cases deps with
    | none => exact .inl hy
    | some deps => exact .inr (not_reach_of_not_closesCycle (hguard task htask hmay) hy)
  · exact .bind (TaskService.every_publishUpdated plainOps_isPlain _) fun _ => trivial
  · cases updated <;> trivial

theorem keepsAcyclic_addTask {db : Db} {bundleId : String} {deps : List String} {d : Draws}
    (h : ¬ ClosesCycle db bundleId (d.hexId "task_" 8) deps) (title : String)
    (description : Option String) :
    Sql.Keeps KeepsAcyclic (TaskService.addTask bundleId title description deps d) db := by
  refine Sql.keeps_bind_last (TaskRepo.keeps_create ?_) fun created => ?_
  · exact keepsAcyclic_insertTask fun y hy => not_reach_of_not_closesCycle h hy
  · refine .bind (BundleRepo.every_get plainOps_isPlain bundleId) fun bundle => ?_
    exact .ite (fun _ => .bind (Sql.every_record plainOps_isPlain) fun _ => by trivial)
      fun _ => by trivial

theorem keepsAcyclic_addTaskToBundle {db : Db} {bundleId : String} {req : AddTaskRequest}
    {caller : CallerContext} {d : Draws}
    (hguard : ∀ bundle ∈ db.bundles.get bundleId, OwnsBundle db caller bundleId →
      (caller.authMethod = "api_key" ∨ bundle.defaultAgentRuntimeId ≠ none) →
        ¬ ClosesCycle db bundleId (d.hexId "task_" 8) req.dependsOnTaskIds)
    (provisioned : Option String) :
    Sql.Keeps KeepsAcyclic (addTaskToBundle bundleId req provisioned caller d) db := by
  refine keeps_requireBundleOwner fun howns bundle hbundle => ?_
  refine Coro.Keeps.ite (fun _ => refl_of KeepsAcyclic db) fun hagent => ?_
  rw [not_and_or, ne_eq, not_not] at hagent
  refine Coro.Keeps.bind (keepsAcyclic_addTask (hguard bundle hbundle howns hagent) _ _)
    fun task db' _ => keepsAcyclic_of_drops (keeps_of_edgeFree ?_ db')
  have htail : ∀ runtimeId sandboxId (stored : Task), (do
      .perform (.updateTask task.id (.assignment runtimeId sandboxId) none none) fun _ => ()
      Sql.commit
      return stored : Sql Task).Every EdgeFree := fun _ _ _ =>
    .bind ((Coro.every_perform _ _).mpr (.update rfl)) fun _ =>
      .bind (Sql.every_commit plainOps_edgeFree) fun _ => trivial
  cases req.brief with
  | none => exact .ite (fun _ => by trivial) fun _ => htail _ _ _
  | some brief =>
    refine .bind ((Coro.every_perform _ _).mpr (.update rfl)) fun _ => ?_
    refine .bind (Sql.every_commit plainOps_edgeFree) fun _ => ?_
    exact .ite (fun _ => by trivial) fun _ => htail _ _ _

/-! ### Links -/

theorem keepsAcyclic_impliedDependency {db : Db} {fromTaskId toTaskId : String} {toTask : Task}
    (hto : db.tasks.get toTaskId = some toTask)
    (hguard : ¬ ReflTransGen (DependsOn db toTask.bundleId) fromTaskId toTaskId) (d : Draws) :
    Sql.Keeps KeepsAcyclic (impliedDependency fromTaskId toTaskId d) db := by
  refine TaskRepo.keeps_get ?_
  rw [hto]
  refine Coro.Keeps.ite (fun _ => refl_of KeepsAcyclic db) fun _ => ?_
  refine Sql.keeps_bind_last (TaskRepo.keeps_update ?_) fun updated =>
    TaskService.every_recordUpdated plainOps_isPlain _
  refine keepsAcyclic_updateTask fun t ht y hy => ?_
  rw [hto] at ht
  obtain rfl := Option.some.inj ht
  rcases List.mem_append.mp hy with hold | hnew
  · exact .inl hold
  · rw [List.mem_singleton.mp hnew]
    exact .inr hguard

theorem keepsAcyclic_insertLink {db : Db} {fromTask toTask : Task} {toTaskId kind : String}
    {req : CreateLinkRequest} (hto : db.tasks.get toTaskId = some toTask)
    (hbundle : toTask.bundleId = fromTask.bundleId)
    (hguard : req.newTask.isSome → kind = "pipe" →
      ¬ ReflTransGen (DependsOn db fromTask.bundleId) fromTask.id toTaskId)
    (caller : CallerContext) (d : Draws) :
    Sql.Keeps KeepsAcyclic (insertLink fromTask toTaskId kind req caller d) db := by
  refine keeps_insertLink fun hpassed link _ _ _ => ?_
  have htail := every_storeLink_tail plainOps_edgeFree (.of_tasks_eq fun _ => rfl : EdgeFree (.insertLink link))
    (.update rfl : EdgeFree (.updateTask toTaskId (.createdByTask fromTask.id) none none))
    req.newTask.isSome
  refine Coro.Keeps.ite (fun hkind => ?_) fun _ =>
    keepsAcyclic_of_drops (keeps_of_edgeFree htail db)
  refine Coro.Keeps.bind (keepsAcyclic_impliedDependency hto ?_ _) fun _ db' _ =>
    keepsAcyclic_of_drops (keeps_of_edgeFree htail db')
  rw [hbundle]
  cases hnew : req.newTask with
  | none =>
    intro hreach
    have hcycle := (hpassed hnew).1
    rw [wouldCycle_iff.mpr hreach] at hcycle
    cases hcycle
  | some input => exact hguard (by rw [hnew]; rfl) hkind

theorem keepsAcyclic_createLink {db : Db} {fromTaskId : String} {req : CreateLinkRequest}
    {caller : CallerContext} {d : Draws}
    (hguard : req.newTask.isSome → linkKind req = "pipe" →
      ∀ task ∈ db.tasks.get fromTaskId, OwnsBundle db caller task.bundleId →
        ¬ ClosesCycle db task.bundleId ((d.sub 0).hexId "task_" 8) [fromTaskId]) :
    Sql.Keeps KeepsAcyclic (createLink fromTaskId req caller d) db := by
  refine keeps_createLink fun fromTask hfrom howns => ?_
  have hid : fromTask.id = fromTaskId := Table.key_eq_of_get hfrom
  have hdrops : Sql.Keeps DropsEdges (linkTarget fromTask req (d.sub 0)) db := keeps_of_edgeFree
    (every_linkTarget plainOps_edgeFree (fun _ _ _ => .insert rfl) fun _ _ => .update rfl) db
  refine Coro.Keeps.bind (keepsAcyclic_of_drops hdrops) fun toTaskId db' hrun => ?_
  obtain ⟨⟨toTask, hto, hbundle⟩, hnew⟩ := get_of_linkTarget hrun
  refine keepsAcyclic_insertLink hto hbundle (fun hsome hkind hreach => ?_) caller (d.sub 1)
  refine not_reach_of_not_closesCycle (hguard hsome hkind fromTask hfrom howns)
    (List.mem_singleton_self _) ?_
  rw [Sql.Keeps, Coro.Keeps, hrun] at hdrops
  rw [hid, (hnew hsome).1] at hreach
  exact ReflTransGen.mono (hdrops fromTask.bundleId) _ _ hreach

theorem dropsEdges_unwindDependency (db : Db) (link : Link) (d : Draws) :
    Sql.Keeps DropsEdges (unwindDependency link d) db := by
  refine Sql.keeps_select (Coro.Keeps.ite (fun _ => refl_of DropsEdges db) fun _ => ?_)
  refine TaskRepo.keeps_get ?_
  cases hto : db.tasks.get link.toTaskId with
  | none => exact refl_of DropsEdges db
  | some toTask =>
    refine Coro.Keeps.ite (fun _ => refl_of DropsEdges db) fun _ => ?_
    refine Sql.keeps_bind_last (TaskRepo.keeps_update (dropsEdges_updateTask fun t ht y hy => ?_))
      fun updated => TaskService.every_recordUpdated plainOps_isPlain _
    rw [hto] at ht
    obtain rfl := Option.some.inj ht
    exact List.mem_of_mem_filter hy

theorem dropsEdges_revokeLink (db : Db) (linkId : String) (caller : CallerContext) (d : Draws) :
    Sql.Keeps DropsEdges (revokeLink linkId caller d) db := by
  refine Sql.keeps_select ?_
  cases db.links.get linkId with
  | none => exact refl_of DropsEdges db
  | some link =>
    refine keeps_requireBundleOwner fun _ _ _ => ?_
    refine Coro.Keeps.ite (fun _ => refl_of DropsEdges db) fun _ => ?_
    have htail : (do
        Sql.commit
        let row ← Sql.select (·.links.get linkId)
        return (row, false) : Sql (Option Link × Bool)).Every Op.IsPlain :=
      .bind (Sql.every_commit plainOps_isPlain) fun _ =>
        .bind (Sql.every_select plainOps_isPlain _) fun _ => trivial
    refine Coro.Keeps.bind (dropsEdges_of_tasks_eq rfl) fun _ db' _ => ?_
    refine Coro.Keeps.ite (fun _ => ?_) fun _ => Sql.keeps_of_plain htail
    exact Sql.keeps_bind_last (dropsEdges_unwindDependency db' link _) fun _ => htail

/-! ### Cancelling and removing -/

theorem cascadeKeeps_dropsEdges : CascadeKeeps DropsEdges where
  revoke _ _ _ := dropsEdges_of_tasks_eq rfl
  cancel taskId d db := by
    exact keeps_of_edgeFree
      (TaskService.every_cancelTask plainOps_edgeFree (fun _ _ _ => .update rfl) d) db
  unblock child upstream now db hchild := by
    refine dropsEdges_updateTask fun t ht y hy => ?_
    rw [hchild] at ht
    obtain rfl := Option.some.inj ht
    exact List.mem_of_mem_filter hy

theorem dropsEdges_cancelTask (depth : Nat) (db : Db) (taskId : String) (caller : CallerContext)
    (d : Draws) : Sql.Keeps DropsEdges (cancelTask depth taskId caller d) db := by
  refine keeps_taskOr404 fun task _ => keeps_authorize fun _ => ?_
  refine Coro.Keeps.bind (cascadeKeeps_dropsEdges.cancel _ _ db) fun updated db' _ => ?_
  cases updated with
  | none => exact refl_of DropsEdges db'
  | some _ =>
    exact Sql.keeps_bind_last (keeps_cascade cascadeKeeps_dropsEdges depth taskId [] _ db')
      fun _ => trivial

theorem dropsEdges_removeTask (depth : Nat) (db : Db) (taskId : String) (caller : CallerContext)
    (d : Draws) : Sql.Keeps DropsEdges (removeTask depth taskId caller d) db := by
  refine keeps_taskOr404 fun task _ => keeps_authorize fun _ => ?_
  refine Coro.Keeps.bind (keeps_of_edgeFree (TaskService.every_removeTask plainOps_edgeFree
    .delete) db) fun removed db' _ => ?_
  refine Coro.Keeps.ite (fun _ => refl_of DropsEdges db') fun _ => ?_
  exact Sql.keeps_bind_last (keeps_cascade cascadeKeeps_dropsEdges depth taskId [] _ db')
    fun _ => trivial

/-! ### Attaching a graph -/

/-- The rows made for the nodes have new ids, no two of them the same. -/
theorem ids_of_createNodeTasks {bundleId : String} {d : Draws} {nids : List String}
    {made : List (String × Task)} {db db' : Db}
    (h : (BundleService.createNodeTasks bundleId d nids).run Op.exec db = (.ok made, db')) :
    (made.map (·.2.id)).Nodup ∧ ∀ e ∈ made, db.tasks.get e.2.id = none := by
  induction nids generalizing made db with
  | nil =>
    cases h
    exact ⟨List.nodup_nil, fun e he => by cases he⟩
  | cons nid nids ih =>
    rw [BundleService.createNodeTasks, Coro.run_bind] at h
    split at h
    · rename_i persisted db₁ hcreate
      obtain ⟨_, haccepts, hstate⟩ := TaskRepo.run_create_of_ok hcreate
      have hfree : db.tasks.get (key persisted) = none := by
        rw [Db.acceptsTask, Bool.and_eq_true, Option.isNone_iff_eq_none] at haccepts
        exact haccepts.1
      have htasks : db₁.tasks = db.tasks.insert persisted := by
        rw [hstate, Op.exec, if_pos haccepts]
      rw [Coro.run_bind] at h
      split at h
      · rename_i rest db₂ hrest
        cases h
        obtain ⟨hnodup, hnew⟩ := ih hrest
        refine ⟨?_, fun e he => ?_⟩
        · rw [List.map_cons, List.nodup_cons]
          refine ⟨fun hmem => ?_, hnodup⟩
          obtain ⟨e, he, heq⟩ := List.mem_map.mp hmem
          have hnone := hnew e he
          rw [htasks, heq] at hnone
          have hself := Table.get_insert_self hfree
          rw [show key persisted = persisted.id from rfl, hnone] at hself
          cases hself
        · rcases List.mem_cons.mp he with rfl | he
          · exact hfree
          · cases hold : db.tasks.get e.2.id with
            | none => rfl
            | some t =>
              have hnone := hnew e he
              rw [htasks, Table.get_insert_of_get hold] at hnone
              cases hnone
      · cases h
    · cases h

section Attach

variable {graph : GraphStructure} {made : List (String × Task)}

/-- The dependencies that are written along the edges of the graph. -/
def NodeDependsOn (graph : GraphStructure) (made : List (String × Task)) (x y : String) : Prop :=
  ∃ nid, ∃ t ∈ made.lookup nid, t.id = x ∧ BundleService.DepsOfNode graph made nid y

/-- The node a task was made for. -/
def nodeOf (made : List (String × Task)) (taskId : String) : String :=
  ((made.find? (·.2.id == taskId)).map (·.1)).getD ""

theorem nodeOf_id (hnodup : (made.map (·.2.id)).Nodup) {nid : String} {t : Task}
    (h : made.lookup nid = some t) : nodeOf made t.id = nid := by
  have hmem := mem_of_lookup h
  cases hfind : made.find? (·.2.id == t.id) with
  | none =>
    have hnone := List.find?_eq_none.mp hfind _ hmem
    simp at hnone
  | some e =>
    have he : e.2.id = t.id := by simpa using List.find?_some hfind
    have heq : e = (nid, t) :=
      List.inj_on_of_nodup_map hnodup (List.mem_of_find?_eq_some hfind) hmem he
    rw [nodeOf, hfind, heq]
    rfl

theorem acyclic_nodeDependsOn (hnodup : (made.map (·.2.id)).Nodup)
    (hgraph : Acyclic fun nid src => (src, nid) ∈ graph.edges) :
    Acyclic (NodeDependsOn graph made) := by
  refine hgraph.comap (nodeOf made) ?_
  rintro x y ⟨nid, t, ht, rfl, src, hsrc, t', ht', rfl⟩
  rw [nodeOf_id hnodup ht, nodeOf_id hnodup ht']
  exact GraphStructure.mem_incoming.mp hsrc

/-- The dependencies are those of the bundle before, or along the edges of the graph. -/
def WithinGraph (graph : GraphStructure) (made : List (String × Task)) (db db' : Db) : Prop :=
  ∀ bundleId x y, DependsOn db' bundleId x y → DependsOn db bundleId x y ∨ NodeDependsOn graph made x y

theorem withinGraph_linkNodeTasks (db : Db) (d : Draws) (nids : List String)
    (created : List Task) :
    WithinGraph graph made db
      ((BundleService.linkNodeTasks graph made d nids created).run Op.exec db).2 := by
  have hplain : PlainOps fun op => ∀ s, WithinGraph graph made db s →
      WithinGraph graph made db (op.exec s) := ⟨fun _ h => h, fun _ h => h, fun _ h => h⟩
  refine (BundleService.every_linkNodeTasks hplain ?_ d nids created).run_inv
    (fun op hop s hs => hop s hs) fun _ _ _ h => .inl h
  intro nid task deps now hmade hdeps s hs bundleId x y hxy
  rcases dependsOn_updateTask hxy with ⟨hold, _⟩ | ⟨t, _, _, rfl, hy⟩
  · exact hs bundleId x y hold
  · exact .inr ⟨nid, task, hmade, rfl, hdeps y hy⟩

/-- Tasks of an acyclic graph that no other task can reach go into any bundle. -/
theorem keepsAcyclic_linkNodeTasks {db : Db} (hnodup : (made.map (·.2.id)).Nodup)
    (hgraph : Acyclic fun nid src => (src, nid) ∈ graph.edges)
    (hfresh : ∀ e ∈ made, ∀ bundleId y, ¬ DependsOn db bundleId e.2.id y) (d : Draws)
    (nids : List String) (created : List Task) :
    Sql.Keeps KeepsAcyclic (BundleService.linkNodeTasks graph made d nids created) db := by
  intro hacyclic bundleId
  refine Acyclic.mono ((hacyclic bundleId).union (acyclic_nodeDependsOn hnodup hgraph) ?_)
    (withinGraph_linkNodeTasks db d nids created bundleId)
  rintro x y z ⟨_, _, _, _, src, _, t', ht', rfl⟩ hyz
  exact hfresh _ (mem_of_lookup ht') bundleId z hyz

theorem keepsAcyclic_attachBundleGraph {db : Db} {sandbox : GraphSandbox} {bundleId code : String}
    {caller : CallerContext}
    (hguard : ∀ bundle ∈ db.bundles.get bundleId, OwnsBundle db caller bundleId →
      bundle.graphCode = none → ∀ graph mermaid, sandbox code = .ok (graph, mermaid) →
        Acyclic fun nid src => (src, nid) ∈ graph.edges) (createdBy : String) (d : Draws) :
    Sql.Keeps KeepsAcyclic (attachBundleGraph sandbox bundleId code createdBy caller d) db := by
  refine keeps_requireBundleOwner fun howns bundle hbundle => ?_
  refine Coro.Keeps.tryCatch ?_ fun e c' hc' db' => ?_
  · rw [BundleService.attachGraphArtifact]
    refine Sql.keeps_select ?_
    rw [hbundle]
    refine Coro.Keeps.ite (fun _ => refl_of KeepsAcyclic db) fun hcode => ?_
    rw [Option.not_isSome_iff_eq_none] at hcode
    cases hsandbox : sandbox code with
    | error exc => exact refl_of KeepsAcyclic db
    | ok out =>
      obtain ⟨graph, mermaid⟩ := out
      refine Coro.Keeps.ite (fun _ => refl_of KeepsAcyclic db) fun _ => ?_
      have hdrops : Sql.Keeps DropsEdges
          (BundleService.createNodeTasks bundleId (d.sub 0) graph.nodeIds) db :=
        keeps_of_edgeFree (BundleService.every_createNodeTasks plainOps_edgeFree
          (fun _ _ _ => .insert rfl) _ _) db
      refine Coro.Keeps.bind (keepsAcyclic_of_drops hdrops) fun made db₁ hmade => ?_
      rw [Sql.Keeps, Coro.Keeps, hmade] at hdrops
      obtain ⟨hnodup, hnew⟩ := ids_of_createNodeTasks hmade
      refine Coro.Keeps.bind (keepsAcyclic_linkNodeTasks hnodup
        (hguard bundle hbundle howns hcode graph mermaid hsandbox) ?_ _ _ _)
        fun created db₂ _ => keepsAcyclic_of_drops (keeps_of_edgeFree ?_ db₂)
      · intro e he bundleId' y hy
        obtain ⟨t, ht, _, hid, _⟩ := hdrops _ _ _ hy
        have hget := Table.get_eq_some_iff.mpr ⟨ht, hid⟩
        rw [hnew e he] at hget
        cases hget
      · refine .bind (BundleRepo.every_updateRow plainOps_edgeFree (.of_tasks_eq fun _ => rfl))
          fun updated => ?_
        cases updated with
        | none => trivial
        | some updated =>
          refine .bind (EventRepo.every_create plainOps_edgeFree .insertEvent) fun _ => ?_
          refine .bind (Sql.every_record plainOps_edgeFree) fun _ => ?_
          exact .bind (BundleService.every_recordTasks plainOps_edgeFree created) fun _ => by trivial
  · cases e <;> cases hc'
    exact refl_of KeepsAcyclic db'

end Attach

/-! ### Creating a bundle -/

theorem mem_of_mem_insertable {taken : List String} {rows : List Task} {t : Task}
    (h : t ∈ insertable taken rows) : t ∈ rows := by
  induction rows generalizing taken with
  | nil => cases h
  | cons row rows ih =>
    rw [insertable] at h
    split at h
    · cases h
    · rcases List.mem_cons.mp h with rfl | h
      · exact List.mem_cons_self
      · exact List.mem_cons_of_mem _ (ih h)

theorem bundleId_of_mem_inputRows {bundleId : String} {d : Draws} {inputs : List CreateTaskInput}
    {t : Task} (h : t ∈ inputRows bundleId d inputs) : t.bundleId = bundleId := by
  induction inputs with
  | nil => cases h
  | cons input inputs ih =>
    rcases List.mem_cons.mp h with rfl | h
    · rfl
    · exact ih h

/-- Whether it ends well or at a taken id, `create_bundle` has inserted the rows up to there. -/
theorem mem_createTasks {bundleId : String} {d : Draws} {inputs : List CreateTaskInput} {db : Db}
    {taken : List String} (htaken : ∀ id, id ∈ taken ↔ ∃ t ∈ db.tasks, t.id = id) {t : Task}
    (h : t ∈ ((BundleService.createTasks bundleId d inputs).run Op.exec db).2.tasks) :
    t ∈ db.tasks ∨ t ∈ insertable taken (inputRows bundleId d inputs) := by
  induction inputs generalizing db taken with
  | nil => exact .inl h
  | cons input inputs ih =>
    rw [BundleService.createTasks, Coro.run_bind] at h
    split at h
    · rename_i row db₁ hcreate
      obtain ⟨hrow, haccepts, hstate⟩ := TaskRepo.run_create_of_ok hcreate
      have hfree : db.tasks.get (key row) = none := by
        rw [Db.acceptsTask, Bool.and_eq_true, Option.isNone_iff_eq_none] at haccepts
        exact haccepts.1
      have htasks : db₁.tasks = db.tasks.insert row := by rw [hstate, Op.exec, if_pos haccepts]
      have hmem : ∀ t', t' ∈ db₁.tasks ↔ t' ∈ db.tasks ∨ t' = row := by
        intro t'
        rw [htasks, Table.mem_insert hfree]
      have hnew : row.id ∉ taken := by
        intro hid
        obtain ⟨t', ht', heq⟩ := (htaken _).mp hid
        exact Table.get_eq_none_iff.mp hfree t' ht' heq
      rw [run_bind_state_of_plain _ (fun _ => by trivial)] at h
      have htaken₁ : ∀ id, id ∈ row.id :: taken ↔ ∃ t' ∈ db₁.tasks, t'.id = id := by
        intro id
        rw [List.mem_cons, htaken]
        constructor
        · rintro (rfl | ⟨t', ht', rfl⟩)
          · exact ⟨row, (hmem row).mpr (.inr rfl), rfl⟩
          · exact ⟨t', (hmem t').mpr (.inl ht'), rfl⟩
        · rintro ⟨t', ht', rfl⟩
          rcases (hmem t').mp ht' with hold | rfl
          · exact .inr ⟨t', hold, rfl⟩
          · exact .inl rfl
      rw [inputRows, insertable, ← hrow, if_neg hnew]
      rcases ih htaken₁ h with hold | hlater
      · rcases (hmem t).mp hold with hold | rfl
        · exact .inl hold
        · exact .inr List.mem_cons_self
      · exact .inr (List.mem_cons_of_mem _ hlater)
    · rename_i e db₁ hcreate
      rw [TaskRepo.run_create_of_error hcreate] at h
      exact .inl h

/-- Tasks of an acyclic list go into a bundle that has none. -/
theorem keepsAcyclic_createTasks {bundleId : String} {d : Draws} {inputs : List CreateTaskInput}
    {db : Db} (hempty : ∀ t ∈ db.tasks, t.bundleId ≠ bundleId)
    (hguard : Acyclic (RowDependsOn
      (insertable (db.tasks.rows.map (·.id)) (inputRows bundleId d inputs)))) :
    Sql.Keeps KeepsAcyclic (BundleService.createTasks bundleId d inputs) db := by
  have htaken : ∀ id, id ∈ db.tasks.rows.map (·.id) ↔ ∃ t ∈ db.tasks, t.id = id := by
    intro id
    rw [List.mem_map]
    rfl
  intro hacyclic bundleId'
  by_cases hid : bundleId' = bundleId
  · refine hguard.mono ?_
    rintro x y ⟨t, ht, hbundle, hedge⟩
    rcases mem_createTasks htaken ht with hold | hnew
    · exact absurd (hbundle.trans hid) (hempty t hold)
    · exact ⟨t, hnew, hedge⟩
  · refine (hacyclic bundleId').mono ?_
    rintro x y ⟨t, ht, hbundle, hedge⟩
    rcases mem_createTasks htaken ht with hold | hnew
    · exact ⟨t, hold, hbundle, hedge⟩
    · have hbundle' := bundleId_of_mem_inputRows (mem_of_mem_insertable hnew)
      exact absurd (hbundle.symm.trans hbundle') hid

/-- Every task is in a bundle there is. -/
def TasksInBundles (db : Db) : Prop := ∀ t ∈ db.tasks, (db.bundles.get t.bundleId).isSome

theorem tasksInBundles_exec (op : Op) (db : Db) (h : TasksInBundles db) :
    TasksInBundles (op.exec db) := by
  cases op with
  | insertTask t =>
    rw [Op.exec]
    cases haccepts : db.acceptsTask t with
    | false => exact h
    | true =>
      rw [Db.acceptsTask, Bool.and_eq_true, Option.isNone_iff_eq_none] at haccepts
      intro t' ht'
      rcases (Table.mem_insert haccepts.1).mp ht' with hold | rfl
      · exact h t' hold
      · exact haccepts.2
  | updateTask id u expected seen =>
    intro t' ht'
    obtain ⟨t, ht, rfl⟩ := (Table.mem_amend fun t => by split <;> simp).mp ht'
    have hsame : (if key t = id then
        if Db.matchesVersion expected t.resourceVersion then u.apply t else t else t).bundleId =
          t.bundleId := by
      repeat' split
      all_goals simp
    rw [hsame]
    exact h t ht
  | deleteTask id => exact fun t ht => h t (Table.mem_erase.mp ht).1
  | insertBundle b =>
    intro t ht
    obtain ⟨bundle, hbundle⟩ := Option.isSome_iff_exists.mp (h t ht)
    show ((db.bundles.insert b).get t.bundleId).isSome
    rw [Table.get_insert_of_get hbundle]
    rfl
  | updateBundle id u expected =>
    intro t ht
    dsimp only [Op.exec]
    rw [Table.get_amend]
    split
    · rw [Option.isSome_map]
      exact h t ht
    · exact h t ht
  | insertEvent e =>
    rw [Op.exec]
    split <;> exact h
  | _ => exact h

theorem every_writeBriefs (pairs : List (CreateTaskInput × Task)) :
    (writeBriefs pairs).Every EdgeFree := by
  induction pairs with
  | nil => trivial
  | cons pair pairs ih =>
    obtain ⟨input, created⟩ := pair
    rw [writeBriefs]
    cases input.brief with
    | none => exact ih
    | some brief => exact .bind ((Coro.every_perform _ _).mpr (.update rfl)) fun _ => ih

theorem keepsAcyclic_createBundle {db : Db} (hbundles : TasksInBundles db)
    {cookbookId prompt createdBy : String} {tasks : List CreateTaskInput} {autoplan : Bool}
    {d : Draws}
    (hguard : db.bundles.get (d.hexId "bun_" 8) = none → Acyclic (RowDependsOn
      (insertable (db.tasks.rows.map (·.id)) (inputRows (d.hexId "bun_" 8) (d.sub 0) tasks)))) :
    Sql.Keeps KeepsAcyclic
      (BundleService.createBundle cookbookId prompt createdBy tasks autoplan d) db := by
  have hcreate : ∀ (bundle : Bundle) db, Sql.Keeps KeepsAcyclic (BundleRepo.create bundle) db :=
    fun bundle db => keepsAcyclic_of_drops (keeps_of_edgeFree
      (BundleRepo.every_create plainOps_edgeFree (.of_tasks_eq fun _ => rfl)) db)
  refine Coro.Keeps.bind (hcreate _ db) fun bundle db₁ hrun => ?_
  obtain ⟨rfl, hfree, rfl⟩ := BundleRepo.run_create_of_ok hrun
  have hempty : ∀ t ∈ db.tasks, t.bundleId ≠ d.hexId "bun_" 8 := by
    rintro t ht heq
    have hsome := hbundles t ht
    rw [heq, show db.bundles.get (d.hexId "bun_" 8) = none from hfree] at hsome
    cases hsome
  have hmade : ∀ bundle : Bundle, Sql.Keeps KeepsAcyclic
      (BundleService.createTasks (d.hexId "bun_" 8) (d.sub 0) tasks)
      (Op.exec (.insertBundle bundle) db) := fun bundle =>
    keepsAcyclic_createTasks (show ∀ t ∈ (Op.exec (.insertBundle bundle) db).tasks, _ from hempty)
      (hguard hfree)
  have hlast : ∀ (prompted planned : Event) (created : List Task) (r : Bundle × List Task), (do
      EventRepo.create prompted
      EventRepo.create planned
      Sql.record
      BundleService.recordTasks created
      return r : Sql (Bundle × List Task)).Every EdgeFree := fun _ _ created _ =>
    .bind (EventRepo.every_create plainOps_edgeFree .insertEvent) fun _ =>
      .bind (EventRepo.every_create plainOps_edgeFree .insertEvent) fun _ =>
        .bind (Sql.every_record plainOps_edgeFree) fun _ =>
          .bind (BundleService.every_recordTasks plainOps_edgeFree created) fun _ => trivial
  refine Coro.Keeps.ite (fun _ => ?_) fun _ => ?_
  · refine Sql.keeps_bind_plain ((Coro.every_perform _ _).mpr plainOps_isPlain.aside) fun _ => ?_
    exact Coro.Keeps.bind (hmade _) fun created db₂ _ =>
      keepsAcyclic_of_drops (keeps_of_edgeFree (hlast _ _ _ _) db₂)
  · exact Coro.Keeps.bind (hmade _) fun created db₂ _ =>
      keepsAcyclic_of_drops (keeps_of_edgeFree (hlast _ _ _ _) db₂)

/-- The end of the creation of a bundle. -/
theorem edgeFree_settleSandbox (bundleId : String) (sandboxId : Option String) (r : Bundle × List Task) :
    (do
      Sql.commit
      match sandboxId with
      | none => pure ()
      | some id => BundleRepo.setSandbox bundleId id
      return r : Sql (Bundle × List Task)).Every EdgeFree := by
  refine .bind (Sql.every_commit plainOps_edgeFree) fun _ => ?_
  cases sandboxId with
  | none => trivial
  | some id =>
    exact .bind (BundleRepo.every_setSandbox plainOps_edgeFree (.of_tasks_eq fun _ => rfl)) fun _ => trivial

theorem keepsAcyclic_createBundleUnderCookbook {db : Db} (hbundles : TasksInBundles db)
    {req : CreateBundleRequest} {role : Except Exn Unit} {d : Draws}
    (hguard : role = .ok () → db.bundles.get ((d.sub 0).hexId "bun_" 8) = none →
      Acyclic (RowDependsOn (insertable (db.tasks.rows.map (·.id))
        (inputRows ((d.sub 0).hexId "bun_" 8) ((d.sub 0).sub 0) req.tasks))))
    (cookbookId : String) (sandboxId : Option String) (caller : CallerContext) :
    Sql.Keeps KeepsAcyclic (createBundleUnderCookbook cookbookId req role sandboxId caller d) db := by
  cases role with
  | error e => exact refl_of KeepsAcyclic db
  | ok _ =>
    refine Coro.Keeps.bind (keepsAcyclic_createBundle hbundles (hguard rfl)) fun made db₁ _ => ?_
    have hupdate : ∀ u, Coro.Every EdgeFree
        (.perform (.updateBundle made.1.id u none) fun _ => () : Sql Unit) := fun _ =>
      (Coro.every_perform _ _).mpr (.of_tasks_eq fun _ => rfl)
    refine keepsAcyclic_of_drops (keeps_of_edgeFree (.bind (hupdate _) fun _ => ?_) db₁)
    refine .bind (every_writeBriefs _) fun _ => ?_
    refine .bind (Sql.every_select plainOps_edgeFree _) fun runtimeId => ?_
    cases runtimeId with
    | none => exact edgeFree_settleSandbox _ _ _
    | some id => exact .bind (hupdate _) fun _ => edgeFree_settleSandbox _ _ _

/-! ### Runs -/

/-- A guarded call closes no circle. -/
theorem keepsAcyclic_apply {depth : Nat} {db : Db} {call : BoardCall}
    (hbundles : TasksInBundles db) (hguard : call.Guarded db) :
    KeepsAcyclic db (call.apply depth db) := by
  obtain ⟨caller, request, d⟩ := call
  cases request <;> rw [BoardCall.apply, BoardRequest.handle, run_discard]
  case createBundle cookbookId req role sandboxId =>
    exact keepsAcyclic_createBundleUnderCookbook hbundles hguard _ _ _
  case addTask bundleId req provisioned => exact keepsAcyclic_addTaskToBundle hguard _
  case edit taskId title description deps => exact keepsAcyclic_editTask hguard _ _ _
  case link fromTaskId req => exact keepsAcyclic_createLink hguard
  case revoke linkId => exact (dropsEdges_revokeLink db linkId caller d).keepsAcyclic
  case attachGraph sandbox bundleId code createdBy =>
    exact keepsAcyclic_attachBundleGraph hguard createdBy d
  case cancel taskId => exact (dropsEdges_cancelTask depth db taskId caller d).keepsAcyclic
  case remove taskId => exact (dropsEdges_removeTask depth db taskId caller d).keepsAcyclic

theorem tasksInBundles_apply (depth : Nat) (call : BoardCall) {db : Db} (h : TasksInBundles db) :
    TasksInBundles (call.apply depth db) :=
  (Coro.every_true _).run_inv (fun op _ db => tasksInBundles_exec op db) h

/-- In every run of guarded requests the dependencies of every bundle are acyclic, after each of
them. -/
theorem depsAcyclic_of_guarded (depth : Nat) (db : Db) (calls : List BoardCall)
    (hacyclic : DepsAcyclic db) (hbundles : TasksInBundles db)
    (hguard : Serial.Each (BoardCall.apply depth) BoardCall.Guarded db calls) :
    ∀ made, made <+: calls → DepsAcyclic (Serial.after (BoardCall.apply depth) db made) :=
  fun _ hmade => (hguard.always (I := fun db => DepsAcyclic db ∧ TasksInBundles db)
    (fun _ call hcall h => ⟨keepsAcyclic_apply h.2 hcall h.1, tasksInBundles_apply depth call h.2⟩)
    ⟨hacyclic, hbundles⟩ hmade).1

/-! ### An edit that closes a circle -/

/-- `create_bundle` with two tasks, the second after the first. -/
def twoTasks : BoardCall where
  caller := { accountId := "acc_1" }
  request := .createBundle "ckb_1"
    { prompt := "ship it"
      tasks := [{ taskId := some "task_a", title := "A" },
        { taskId := some "task_b", title := "B", dependsOnTaskIds := ["task_a"] }] }
    (.ok ()) none
  draws := pathDraws 'x'

/-- `edit_task`: the first task after the second as well. -/
def circularEdit : BoardCall where
  caller := { accountId := "acc_1" }
  request := .edit "task_a" none none (some ["task_b"])
  draws := pathDraws 'y'

theorem depsAcyclic_empty : DepsAcyclic {} := by
  intro bundleId
  refine acyclic_of_rank (fun _ => 0) fun x y hxy => ?_
  obtain ⟨t, ht, _⟩ := hxy
  cases ht

theorem depsAcyclic_of_guarded_twoTasks :
    DepsAcyclic (Serial.after (BoardCall.apply 1000) {} [twoTasks]) := by
  refine depsAcyclic_of_guarded 1000 {} [twoTasks] depsAcyclic_empty (fun t ht => by cases ht)
    ⟨fun _ _ => ?_, trivial⟩ _ List.prefix_rfl
  refine acyclic_of_rank (fun x => if x = "task_b" then 1 else 0) ?_
  rintro x y ⟨t, ht, rfl, hy⟩
  have hrows := mem_of_mem_insertable ht
  simp only [inputRows, List.mem_cons, List.not_mem_nil, or_false] at hrows
  rcases hrows with rfl | rfl
  · cases hy
  · obtain rfl := List.mem_singleton.mp hy
    decide

theorem dependsOn_of_row {db : Db} {x y bundleId : String}
    (h : (db.tasks.get x).map (fun t => (t.bundleId, t.dependsOnTaskIds)) = some (bundleId, [y])) :
    DependsOn db bundleId x y := by
  obtain ⟨t, ht, hrow⟩ := Option.map_eq_some_iff.mp h
  obtain ⟨rfl, hdeps⟩ := Prod.mk.inj hrow
  exact dependsOn_of_get ht (by rw [hdeps]; exact List.mem_singleton_self y)

/-- A bundle of two tasks that depend on each other, made by two requests to an empty database. -/
theorem circularEdit_closes_circle :
    ¬ DepsAcyclic (Serial.after (BoardCall.apply 1000) {} [twoTasks, circularEdit]) := by
  intro hacyclic
  have hforth : DependsOn (Serial.after (BoardCall.apply 1000) {} [twoTasks, circularEdit])
      "bun_xa" "task_a" "task_b" := dependsOn_of_row (by decide +kernel)
  have hback : DependsOn (Serial.after (BoardCall.apply 1000) {} [twoTasks, circularEdit])
      "bun_xa" "task_b" "task_a" := dependsOn_of_row (by decide +kernel)
  exact hacyclic "bun_xa" "task_a" (.head hforth (.single hback))

end Krewhub
