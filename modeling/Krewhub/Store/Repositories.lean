import Krewhub.Store.Database

/-!
# Repositories

`TaskRepo`, `BundleRepo`, `EventRepo` and `AgentRepo`, a coroutine for every method the operations
call. `update` takes the row its caller has looked at, which it hands on to the statement.
-/

namespace Krewhub

open Sql

namespace TaskRepo

def create (task : Task) (d : Draws) : Sql Task := do
  let row := { task with updatedAt := some d.clock }
  checked (.insertTask row) (·.acceptsTask row) "tasks"
  commit
  return row

def get (taskId : String) : Sql (Option Task) := select (·.tasks.get taskId)

def listByBundle (bundleId : String) : Sql (List Task) :=
  select fun db => db.tasks.rows.filter (·.bundleId == bundleId)

/-- `JOIN bundles b ON t.bundle_id = b.id WHERE b.cookbook_id = ?`. -/
def inCookbook (db : Db) (cookbookId : String) (t : Task) : Bool :=
  (db.bundles.get t.bundleId).any fun b => b.cookbookId == some cookbookId

def listOpenByCookbook (cookbookId : String) : Sql (List Task) :=
  select fun db => db.tasks.rows.filter fun t =>
    inCookbook db cookbookId t && t.status == .open_ && t.graphNodeId.isNone

def listActiveByAgent (cookbookId : Option String) (agentId : String) : Sql (List Task) :=
  select fun db => db.tasks.rows.filter fun t =>
    cookbookId.all (inCookbook db · t) && t.claimedByAgentId == some agentId &&
      (t.status == .claimed || t.status == .working)

def listAssignedUnclaimedByAgent (cookbookId agentId : String) : Sql (List Task) :=
  select fun db => db.tasks.rows.filter fun t =>
    inCookbook db cookbookId t && t.assignedAgentId == some agentId && t.status == .open_ &&
      t.claimedByAgentId.isNone

def update (taskId : String) (patch : TaskPatch) (expectedVersion : Option Nat)
    (seen : Option Task) (d : Draws) : Sql (Option Task) :=
  if patch.isEmpty then get taskId
  else do
    let hit ← .perform (.updateTask taskId (.patch patch d.clock) expectedVersion seen) fun db =>
      (db.tasks.get taskId).any fun t => Db.matchesVersion expectedVersion t.resourceVersion
    commit
    if expectedVersion.isSome && !hit then
      let existing ← get taskId
      if existing.isSome then .raise (.staleResource "task" taskId) else return none
    else get taskId

def delete (taskId : String) : Sql Bool := do
  let found ← .perform (.deleteTask taskId) fun db => (db.tasks.get taskId).isSome
  commit
  return found

def reopenForRerun (taskId : String) (seen : Option Task) (d : Draws) :
    Sql (Option Task) := do
  .perform (.updateTask taskId (.reopenForRerun d.clock) none seen) fun _ => ()
  commit
  get taskId

def setSessionToken (taskId token : String) : Sql Unit := do
  .perform (.updateTask taskId (.stampSessionToken token) none none) fun _ => ()
  commit

/-- `d[node] = task_id` on a dict in insertion order. -/
def setEntry (node taskId : String) : List (String × String) → List (String × String)
  | [] => [(node, taskId)]
  | e :: m => if e.1 = node then (node, taskId) :: m else e :: setEntry node taskId m

/-- The rows of `build_node_id_map`'s query as a dict. -/
def nodeIdMap (rows : List Task) : List (String × String) :=
  rows.foldl (fun m t => t.graphNodeId.elim m (setEntry · t.id m)) []

def buildNodeIdMap (bundleId : String) : Sql (List (String × String)) :=
  select fun db => nodeIdMap (db.tasks.rows.filter (·.bundleId == bundleId))

theorem run_get_bind {α : Type} (taskId : String) (f : Option Task → Sql α) (db : Db) :
    (get taskId >>= f).run Op.exec db = (f (db.tasks.get taskId)).run Op.exec db := rfl

/-- Reading a task first: what follows knows its row. -/
theorem keeps_get {R : Db → Db → Prop} {α : Type} {taskId : String} {f : Option Task → Sql α}
    {db : Db} (h : Sql.Keeps R (f (db.tasks.get taskId)) db) :
    Sql.Keeps R (get taskId >>= f) db := h

theorem run_update {taskId : String} {patch : TaskPatch} {seen : Option Task} {d : Draws}
    (hpatch : patch.isEmpty = false) (db : Db) :
    (update taskId patch none seen d).run Op.exec db =
      (.ok ((Op.exec (.updateTask taskId (.patch patch d.clock) none seen) db).tasks.get taskId),
        Op.exec (.updateTask taskId (.patch patch d.clock) none seen) db) := by
  rw [update, hpatch]
  rfl

theorem keeps_update {R : Db → Db → Prop} [IsPreorder Db R] {taskId : String} {patch : TaskPatch}
    {seen : Option Task} {d : Draws} {db : Db}
    (h : R db (Op.exec (.updateTask taskId (.patch patch d.clock) none seen) db)) :
    Sql.Keeps R (update taskId patch none seen d) db := by
  cases hpatch : patch.isEmpty with
  | true =>
    rw [update, hpatch]
    exact refl_of R db
  | false =>
    rw [Sql.Keeps, Coro.Keeps, run_update hpatch]
    exact h

/-- What `create` returns is the row it has inserted. -/
theorem run_create_of_ok {task created : Task} {d : Draws} {db db' : Db}
    (h : (create task d).run Op.exec db = (.ok created, db')) :
    created = { task with updatedAt := some d.clock } ∧ db.acceptsTask created = true ∧
      db' = Op.exec (.insertTask created) db := by
  rw [create, checked, Coro.await_bind, Coro.run_await] at h
  cases haccepts : db.acceptsTask { task with updatedAt := some d.clock } with
  | false =>
    rw [haccepts] at h
    cases h
  | true =>
    rw [haccepts] at h
    cases h
    exact ⟨rfl, haccepts, rfl⟩

theorem run_create_of_error {task : Task} {d : Draws} {db db' : Db} {e : Exn}
    (h : (create task d).run Op.exec db = (.error e, db')) : db' = db := by
  rw [create, checked, Coro.await_bind, Coro.run_await] at h
  cases haccepts : db.acceptsTask { task with updatedAt := some d.clock } with
  | true =>
    rw [haccepts] at h
    cases h
  | false =>
    rw [haccepts] at h
    cases h
    rw [Op.exec, haccepts]
    rfl

theorem keeps_create {R : Db → Db → Prop} [IsPreorder Db R] {task : Task} {d : Draws} {db : Db}
    (h : R db (Op.exec (.insertTask { task with updatedAt := some d.clock }) db)) :
    Sql.Keeps R (create task d) db := by
  rw [Sql.Keeps, Coro.Keeps, create, checked, Coro.await_bind, Coro.run_await]
  cases db.acceptsTask { task with updatedAt := some d.clock } with
  | false => exact h
  | true => exact h

section Throws

variable {E : Exn → Prop}

theorem throws_create (h : E (.integrityError "tasks")) (task : Task) (d : Draws) :
    (create task d).Throws E :=
  .bind (throws_checked _ _ h) fun _ => .bind throws_commit fun _ => trivial

theorem throws_update (taskId : String) (patch : TaskPatch) (seen : Option Task)
    (d : Draws) : (update taskId patch none seen d).Throws E :=
  .ite (fun _ => Coro.throws_perform _ _) fun _ => .bind (Coro.throws_perform _ _) fun _ =>
    .bind throws_commit fun _ => Coro.throws_perform _ _

end Throws

section Every

variable {P : Op → Prop} (hP : PlainOps P)
include hP

theorem every_get (taskId : String) : (get taskId).Every P := every_select hP _

theorem every_create {task : Task} {d : Draws}
    (htask : P (.insertTask { task with updatedAt := some d.clock })) : (create task d).Every P :=
  .bind (every_checked htask _ _) fun _ => .bind (every_commit hP) fun _ => trivial

theorem every_update {taskId : String} {patch : TaskPatch} {expectedVersion : Option Nat}
    {seen : Option Task} {d : Draws}
    (hop : P (.updateTask taskId (.patch patch d.clock) expectedVersion seen)) :
    (update taskId patch expectedVersion seen d).Every P := by
  unfold update
  split
  · exact every_get hP taskId
  · refine .bind ((Coro.every_perform _ _).mpr hop) fun _ => .bind (every_commit hP) fun _ => ?_
    split
    · refine .bind (every_get hP taskId) fun _ => ?_
      split <;> trivial
    · exact every_get hP taskId

theorem every_delete {taskId : String} (hop : P (.deleteTask taskId)) :
    (delete taskId).Every P :=
  .bind ((Coro.every_perform _ _).mpr hop) fun _ => .bind (every_commit hP) fun _ => trivial

theorem every_reopenForRerun {taskId : String} {seen : Option Task} {d : Draws}
    (hop : P (.updateTask taskId (.reopenForRerun d.clock) none seen)) :
    (reopenForRerun taskId seen d).Every P :=
  .bind ((Coro.every_perform _ _).mpr hop) fun _ =>
    .bind (every_commit hP) fun _ => every_get hP taskId

theorem every_setSessionToken {taskId token : String}
    (hop : P (.updateTask taskId (.stampSessionToken token) none none)) :
    (setSessionToken taskId token).Every P :=
  .bind ((Coro.every_perform _ _).mpr hop) fun _ => every_commit hP

end Every

end TaskRepo

namespace BundleRepo

def create (bundle : Bundle) : Sql Bundle := do
  checked (.insertBundle bundle) (fun db => (db.bundles.get bundle.id).isNone) "bundles"
  commit
  return bundle

def get (bundleId : String) : Sql (Option Bundle) := select (·.bundles.get bundleId)

/-- One `UPDATE bundles … WHERE id = ?` and the row after it. -/
def updateRow (bundleId : String) (u : BundleUpdate) : Sql (Option Bundle) := do
  .perform (.updateBundle bundleId u none) fun _ => ()
  commit
  get bundleId

def setSandbox (bundleId sandboxId : String) : Sql Unit := do
  .perform (.updateBundle bundleId (.setSandbox sandboxId) none) fun _ => ()
  commit

def updateStatus (bundleId : String) (status : BundleStatus)
    (claimedAt cookedAt digestedAt : Option Nat) (blockedReason : Option String)
    (expectedVersion : Option Nat) : Sql (Option Bundle) := do
  let u := BundleUpdate.status status claimedAt cookedAt digestedAt blockedReason
  let hit ← .perform (.updateBundle bundleId u expectedVersion) fun db =>
    (db.bundles.get bundleId).any fun b => Db.matchesVersion expectedVersion b.resourceVersion
  commit
  if expectedVersion.isSome && !hit then
    let existing ← get bundleId
    if existing.isSome then .raise (.staleResource "bundle" bundleId) else return none
  else get bundleId

/-- `s[:n]`. -/
def truncate (n : Nat) (s : String) : String := String.ofList (s.toList.take n)

def markGraphTerminal (bundleId : String) (success : Bool) (reason : Option String) (d : Draws) :
    Sql (Option Bundle) :=
  if success then updateRow bundleId (.graphSuccess d.clock)
  else
    let text := match reason with
      | some r => if r = "" then "graph run failed" else r
      | none => "graph run failed"
    updateRow bundleId (.graphFailure (truncate 500 text))

def reopenForRerun (bundleId : String) : Sql (Option Bundle) := updateRow bundleId .reopenForRerun

def attachGraph (bundleId graphCode graphMermaid : String) : Sql (Option Bundle) :=
  updateRow bundleId (.attachGraph graphCode graphMermaid)

/-- The `WHERE` clause of `list_runnable`. -/
def isRunnable (b : Bundle) : Bool :=
  b.graphCode.isSome && b.status == .open_ && b.graphTerminalAt.isNone && b.blockedReason.isNone

def listRunnable : Sql (List Bundle) :=
  select fun db => (db.bundles.rows.filter isRunnable).mergeSort fun a b =>
    decide (a.createdAt ≤ b.createdAt)

theorem run_create_of_ok {bundle created : Bundle} {db db' : Db}
    (h : (create bundle).run Op.exec db = (.ok created, db')) :
    created = bundle ∧ db.bundles.get bundle.id = none ∧ db' = Op.exec (.insertBundle bundle) db := by
  rw [create, checked, Coro.await_bind, Coro.run_await] at h
  cases hfree : db.bundles.get bundle.id with
  | some _ =>
    rw [hfree] at h
    cases h
  | none =>
    rw [hfree] at h
    cases h
    exact ⟨rfl, rfl, rfl⟩

section Every

variable {P : Op → Prop} (hP : PlainOps P)
include hP

theorem every_create {bundle : Bundle} (hop : P (.insertBundle bundle)) :
    (create bundle).Every P :=
  .bind (every_checked hop _ _) fun _ => .bind (every_commit hP) fun _ => trivial

theorem every_get (bundleId : String) : (get bundleId).Every P := every_select hP _

theorem every_updateRow {bundleId : String} {u : BundleUpdate}
    (hop : P (.updateBundle bundleId u none)) : (updateRow bundleId u).Every P :=
  .bind ((Coro.every_perform _ _).mpr hop) fun _ =>
    .bind (every_commit hP) fun _ => every_get hP bundleId

theorem every_setSandbox {bundleId sandboxId : String}
    (hop : P (.updateBundle bundleId (.setSandbox sandboxId) none)) :
    (setSandbox bundleId sandboxId).Every P :=
  .bind ((Coro.every_perform _ _).mpr hop) fun _ => every_commit hP

end Every

end BundleRepo

namespace EventRepo

def nextSequence (taskId : Option String) : Sql Nat :=
  match taskId with
  | none => return 0
  | some id => select fun db =>
      (db.events.rows.filterMap fun e => if e.taskId = some id then some e.sequence else none).foldl
        max 0 + 1

/-- `create`: the event, its tape entry and the commits of both. -/
def create (event : Event) : Sql Unit := do
  checked (.insertEvent event) (·.acceptsEvent event) "events"
  record
  commit

def listByTask (taskId : String) : Sql (List Event) :=
  select fun db => (db.events.rows.filter (·.taskId == some taskId)).mergeSort fun a b =>
    decide (a.sequence < b.sequence ∨ a.sequence = b.sequence ∧ a.createdAt ≤ b.createdAt)

def deleteExpired (now : Nat) : Sql Nat := do
  let deleted ← .perform (.deleteExpired now) fun db => (db.events.rows.filter (·.isExpired now)).length
  commit
  return deleted

def setExpiryForBundle (bundleId : String) (expiresAt : Nat) : Sql Unit := do
  .perform (.setExpiry bundleId expiresAt) fun _ => ()
  commit

section Every

variable {P : Op → Prop} (hP : PlainOps P)
include hP

omit hP in
theorem throws_create {E : Exn → Prop} (h : E (.integrityError "events")) (event : Event) :
    (create event).Throws E :=
  .bind (throws_checked _ _ h) fun _ => .bind throws_record fun _ => throws_commit

theorem every_nextSequence (taskId : Option String) : (nextSequence taskId).Every P := by
  cases taskId with
  | none => trivial
  | some id => exact every_select hP _

theorem every_create {event : Event} (hevent : P (.insertEvent event)) : (create event).Every P :=
  .bind (every_checked hevent _ _) fun _ => .bind (every_record hP) fun _ => every_commit hP

end Every

end EventRepo

namespace AgentRepo

def listByCookbook (cookbookId : String) : Sql (List AgentPresence) :=
  select fun db => db.agents.filter (·.cookbookId == cookbookId)

def get (agentId cookbookId : String) : Sql (Option AgentPresence) :=
  select fun db => db.agents.find? fun a => a.agentId == agentId && a.cookbookId == cookbookId

def markOfflineStale (cutoff : Nat) : Sql Nat := do
  let marked ← .perform (.markOfflineStale cutoff) fun db =>
    (db.agents.filter fun a => decide (a.lastHeartbeatAt < cutoff ∧ a.status ≠ .offline)).length
  commit
  return marked

end AgentRepo

end Krewhub
