import Krewhub.Python.Text
import Krewhub.Sandbox.Validator
import Krewhub.Services.TaskService

/-!
# The bundle service

`BundleService.create_bundle` and `attach_graph_artifact`. What the sandbox makes of a piece of graph
code is given: a rejection, or the structure of the graph and its mermaid text.
-/

namespace Krewhub

/-- What `extract_graph_structure` returns: the user steps, which are the keys of a dictionary, and
the edges between them. -/
structure GraphStructure where
  nodeIds : List String
  edges : List (String × String)
  nodup : nodeIds.Nodup
  edge_mem : ∀ e ∈ edges, e.1 ∈ nodeIds ∧ e.2 ∈ nodeIds

/-- `execute_graph_code`, `extract_graph_structure` and `render_graph` of one piece of code. -/
abbrev GraphSandbox := String → Except String (GraphStructure × String)

namespace GraphStructure

/-- `incoming[nid]`. -/
def incoming (g : GraphStructure) (nid : String) : List String :=
  (g.edges.filter (·.2 == nid)).map (·.1)

theorem mem_incoming {g : GraphStructure} {src nid : String} :
    src ∈ g.incoming nid ↔ (src, nid) ∈ g.edges := by
  simp [incoming]

end GraphStructure

/-- `re.sub(r"(?<!^)(?=[A-Z])", " ", s)`. -/
def spaceUppers : List Char → List Char
  | [] => []
  | c :: cs => c :: cs.flatMap fun c => if c.isUpper then [' ', c] else [c]

def humanizeNode (nodeId : String) : String :=
  Text.title (String.ofList ((spaceUppers nodeId.toList).map fun c => if c = '_' then ' ' else c))

/-- The dicts `create_bundle` gets its tasks as. -/
structure CreateTaskInput where
  taskId : Option String := none
  title : String
  description : Option String := none
  dependsOnTaskIds : List String := []
  brief : Option Brief := none
  deriving DecidableEq, Repr

namespace BundleService

/-! ### Creating a bundle -/

/-- The row of one input: its own id, where it gives one, else a new one. -/
def inputTask (bundleId : String) (d : Draws) (t : CreateTaskInput) : Task where
  id := orElseText t.taskId (d.hexId "task_" 8)
  bundleId := bundleId
  title := t.title
  description := t.description
  status := .open_
  dependsOnTaskIds := t.dependsOnTaskIds

def createTasks (bundleId : String) (d : Draws) : List CreateTaskInput → Sql (List Task)
  | [] => return []
  | t :: ts => do
    let created ← TaskRepo.create (inputTask bundleId (d.sub ts.length) t)
      ((d.sub ts.length).sub 0)
    return created :: (← createTasks bundleId d ts)

/-- The body of the PLAN event of a new bundle. -/
def planBody (created : List Task) (autoplan : Bool) : String :=
  if !created.isEmpty then s!"Created bundle with {created.length} tasks."
  else if autoplan then "Created empty bundle; awaiting planner dispatch."
  else "Created empty bundle; add tasks when ready."

/-- `record_resource` of every task. -/
def recordTasks : List Task → Sql Unit
  | [] => return
  | _ :: ts => do
    Sql.record
    recordTasks ts

def createBundle (cookbookId prompt createdBy : String) (tasks : List CreateTaskInput)
    (autoplan : Bool) (d : Draws) : Sql (Bundle × List Task) := do
  let bundle ← BundleRepo.create
    { id := d.hexId "bun_" 8
      cookbookId := some cookbookId
      prompt := prompt
      status := .open_
      createdBy := createdBy
      createdAt := d.clock }
  if autoplan then .perform .aside fun _ => ()
  let created ← createTasks bundle.id (d.sub 0) tasks
  EventRepo.create
    { id := (d.sub 1).hexId "evt_" 8
      cookbookId := some cookbookId
      bundleId := some bundle.id
      type := .prompt
      actorId := createdBy
      actorType := .human
      body := prompt
      createdAt := d.clock }
  EventRepo.create
    { id := (d.sub 2).hexId "evt_" 8
      cookbookId := some cookbookId
      bundleId := some bundle.id
      type := .plan
      actorId := "system"
      actorType := .system
      body := planBody created autoplan
      createdAt := d.clock }
  Sql.record
  recordTasks created
  return (bundle, created)

/-! ### Attaching a graph -/

/-- The row of one graph node. -/
def nodeTask (bundleId : String) (d : Draws) (nid : String) : Task where
  id := d.hexId "task_" 8
  bundleId := bundleId
  title := humanizeNode nid
  description := some s!"Graph step {pyRepr nid}"
  status := .open_
  graphNodeId := some nid

/-- Step 4: one task for every node, with no dependencies yet. -/
def createNodeTasks (bundleId : String) (d : Draws) : List String → Sql (List (String × Task))
  | [] => return []
  | nid :: nids => do
    let persisted ← TaskRepo.create (nodeTask bundleId (d.sub nids.length) nid)
      ((d.sub nids.length).sub 0)
    return (nid, persisted) :: (← createNodeTasks bundleId d nids)

/-- `[node_to_task_id[src] for src in srcs]`. -/
def taskIdsOf (made : List (String × Task)) : List String → Sql (List String)
  | [] => return []
  | src :: srcs =>
    match made.lookup src with
    | none => .raise (.keyError src)
    | some task => do return task.id :: (← taskIdsOf made srcs)

/-- `created_tasks` with one of its rows replaced. -/
def replaceTask (updated : Task) (created : List Task) : List Task :=
  created.map fun t => if t.id = updated.id then updated else t

/-- Step 5: the dependencies of every node, along its incoming edges. -/
def linkNodeTasks (graph : GraphStructure) (made : List (String × Task)) (d : Draws) :
    List String → List Task → Sql (List Task)
  | [], created => return created
  | nid :: nids, created => do
    let depIds ← taskIdsOf made (graph.incoming nid)
    if depIds = [] then linkNodeTasks graph made d nids created
    else
      match made.lookup nid with
      | none => .raise (.keyError nid)
      | some task =>
        match ← TaskRepo.update task.id { dependsOnTaskIds := some depIds } none none
            (d.sub nids.length) with
        | none => linkNodeTasks graph made d nids created
        | some updated => linkNodeTasks graph made d nids (replaceTask updated created)

def attachGraphArtifact (sandbox : GraphSandbox) (bundleId code createdBy : String) (d : Draws) :
    Sql (Bundle × List Task) := do
  match ← BundleRepo.get bundleId with
  | none => .raise (.graphArtifact 404 s!"bundle {bundleId} not found")
  | some bundle =>
    if bundle.graphCode.isSome then
      .raise (.graphArtifact 409 s!"bundle {bundleId} already has graph_code attached")
    else match sandbox code with
    | .error exc => .raise (.graphArtifact 422 s!"graph code rejected: {exc}")
    | .ok (graph, mermaid) =>
      if graph.nodeIds = [] then
        .raise (.graphArtifact 422 "graph contains no executable steps")
      else do
        let made ← createNodeTasks bundleId (d.sub 0) graph.nodeIds
        let created ← linkNodeTasks graph made (d.sub 1) graph.nodeIds (made.map (·.2))
        match ← BundleRepo.attachGraph bundleId code mermaid with
        | none => .raise (.graphArtifact 404 s!"bundle {bundleId} disappeared mid-attach")
        | some updated =>
          EventRepo.create
            { id := (d.sub 2).hexId "evt_" 8
              bundleId := some bundleId
              type := .plan
              actorId := createdBy
              actorType := .agent
              body := s!"Graph attached: {graph.nodeIds.length} steps, {graph.edges.length} edges"
              payload := some { rest := mermaid }
              createdAt := d.clock }
          Sql.record
          recordTasks created
          return (updated, created)

/-! ### What the methods write -/

/-- The dependencies of a node are the tasks made for the steps its edges come from. -/
def DepsOfNode (graph : GraphStructure) (made : List (String × Task)) (nid y : String) : Prop :=
  ∃ src ∈ graph.incoming nid, ∃ t ∈ made.lookup src, t.id = y

theorem taskIdsOf_cases (made : List (String × Task)) (srcs : List String) :
    (∃ ids, taskIdsOf made srcs = .done ids ∧ ∀ y ∈ ids, ∃ src ∈ srcs, ∃ t ∈ made.lookup src, t.id = y) ∨
      ∃ e, taskIdsOf made srcs = .raise e := by
  induction srcs with
  | nil => exact .inl ⟨[], rfl, fun y hy => by cases hy⟩
  | cons src srcs ih =>
    rw [taskIdsOf]
    cases hmade : made.lookup src with
    | none => exact .inr ⟨_, rfl⟩
    | some task =>
      rcases ih with ⟨ids, hids, hall⟩ | ⟨e, he⟩
      · refine .inl ⟨task.id :: ids, by rw [hids]; rfl, fun y hy => ?_⟩
        rcases List.mem_cons.mp hy with rfl | hy
        · exact ⟨src, List.mem_cons_self, task, hmade, rfl⟩
        · obtain ⟨src', hsrc', h⟩ := hall y hy
          exact ⟨src', List.mem_cons_of_mem _ hsrc', h⟩
      · exact .inr ⟨e, by rw [he]; rfl⟩

section Every

variable {P : Op → Prop} (hP : PlainOps P)
include hP

theorem every_recordTasks (created : List Task) : (recordTasks created).Every P := by
  induction created with
  | nil => trivial
  | cons task created ih => exact .bind (Sql.every_record hP) fun _ => ih

theorem every_createNodeTasks {bundleId : String}
    (htask : ∀ nid d now, P (.insertTask { nodeTask bundleId d nid with updatedAt := some now }))
    (d : Draws) (nids : List String) : (createNodeTasks bundleId d nids).Every P := by
  induction nids with
  | nil => trivial
  | cons nid nids ih =>
    exact .bind (TaskRepo.every_create hP (htask _ _ _)) fun _ => .bind ih fun _ => trivial

theorem every_linkNodeTasks {graph : GraphStructure} {made : List (String × Task)}
    (hupdate : ∀ {nid task deps now}, made.lookup nid = some task →
      (∀ y ∈ deps, DepsOfNode graph made nid y) →
        P (.updateTask task.id (.patch { dependsOnTaskIds := some deps } now) none none))
    (d : Draws) (nids : List String) (created : List Task) :
    (linkNodeTasks graph made d nids created).Every P := by
  induction nids generalizing created with
  | nil => trivial
  | cons nid nids ih =>
    rw [linkNodeTasks]
    rcases taskIdsOf_cases made (graph.incoming nid) with ⟨depIds, hids, hall⟩ | ⟨e, he⟩
    · rw [hids, Coro.done_bind]
      refine .ite (fun _ => ih created) fun _ => ?_
      cases hmade : made.lookup nid with
      | none => trivial
      | some task =>
        refine .bind (TaskRepo.every_update hP (hupdate hmade hall)) fun updated => ?_
        cases updated with
        | none => exact ih created
        | some updated => exact ih _
    · rw [he]
      trivial

end Every

end BundleService

end Krewhub
