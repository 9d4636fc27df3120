import Krewhub.Base.Coro
import Krewhub.Store.Schema

/-!
# The database and its statements

All coroutines share one connection. `Op` has a constructor for every kind of statement they await on
it, `Op.exec` is what the statement does; a statement on a table outside the model (the watch log,
the tapes) is an `aside`. A write that a constraint refuses changes nothing and raises.
-/

namespace Krewhub

structure Db where
  bundles : Table Bundle := ∅
  tasks : Table Task := ∅
  events : Table Event := ∅
  reviews : Table TaskReview := ∅
  links : Table Link := ∅
  runtimes : Table AgentRuntime := ∅
  agents : List AgentPresence := []

/-- What ends a coroutine early: an `HTTPException` with its status and detail, or one of the other
exceptions of the code. -/
inductive Exn where
  | http (status : Nat) (detail : String)
  | integrityError (table : String)
  | staleResource (kind id : String)
  | sessionTokenMismatch (taskId : String)
  | recursionError
  | valueError (msg : String)
  | keyError (key : String)
  | graphArtifact (status : Nat) (detail : String)
  deriving DecidableEq, Repr

/-- The status code of the answer: the one an exception carries, or that of an unhandled one. -/
def Exn.statusCode : Exn → Nat
  | .http status _ | .graphArtifact status _ => status
  | _ => 500

/-! ### Statements on `tasks` -/

/-- The columns `TaskRepo.update` is asked to set. -/
structure TaskPatch where
  title : Option String := none
  description : Option String := none
  status : Option TaskStatus := none
  assignedAgentId : Option String := none
  claimedByAgentId : Option String := none
  claimedAt : Option Nat := none
  completedAt : Option Nat := none
  blockedReason : Option String := none
  clearBlockedReason : Bool := false
  clearClaim : Bool := false
  dependsOnTaskIds : Option (List String) := none
  deriving DecidableEq, Repr

namespace TaskPatch

/-- `len(parts) == 1`: nothing but the version would change. -/
def isEmpty (p : TaskPatch) : Bool := decide (p = {})

def specChanged (p : TaskPatch) : Bool :=
  p.title.isSome || p.description.isSome || p.dependsOnTaskIds.isSome || p.assignedAgentId.isSome

def apply (p : TaskPatch) (now : Nat) (t : Task) : Task :=
  { t with
    title := p.title.getD t.title
    description := p.description <|> t.description
    status := p.status.getD t.status
    assignedAgentId :=
      if p.clearClaim then none else p.assignedAgentId <|> t.assignedAgentId
    claimedByAgentId :=
      p.claimedByAgentId <|> if p.clearClaim then none else t.claimedByAgentId
    claimedAt := p.claimedAt <|> if p.clearClaim then none else t.claimedAt
    completedAt := p.completedAt <|> t.completedAt
    blockedReason :=
      if p.clearBlockedReason then none else p.blockedReason <|> t.blockedReason
    dependsOnTaskIds := p.dependsOnTaskIds.getD t.dependsOnTaskIds
    resourceVersion := t.resourceVersion + 1
    generation := if p.specChanged then t.generation + 1 else t.generation
    updatedAt := some now }

end TaskPatch

/-- The `UPDATE tasks` statements. What the link pipeline injects comes with the row of its link as it
was listed; the statement itself does not send it. -/
inductive TaskUpdate where
  | patch (p : TaskPatch) (now : Nat)
  | reopenForRerun (now : Nat)
  | followupReopen
  | stampSessionToken (token : String)
  | completion (sessionId workDir : Option String) (artifacts : String) (report : Option Report)
  | orch (marks : OrchMarks)
  | brief (json : Brief)
  | injectBrief (link : Link) (json : Brief)
  | injectDescription (link : Link) (description : String)
  | createdByTask (taskId : String)
  | assignment (runtimeId sandboxId : Option String)
  | progress (json : String)
  deriving DecidableEq, Repr

namespace TaskUpdate

def apply (u : TaskUpdate) (t : Task) : Task :=
  match u with
  | .patch p now => p.apply now t
  | .reopenForRerun now =>
      { t with
        status := .open_
        assignedAgentId := none
        claimedByAgentId := none
        claimedAt := none
        completedAt := none
        blockedReason := none
        resourceVersion := t.resourceVersion + 1
        updatedAt := some now }
  | .followupReopen =>
      { t with
        status := .open_
        claimedByAgentId := none
        completedAt := none
        resourceVersion := t.resourceVersion + 1
        generation := t.generation + 1 }
  | .stampSessionToken token => { t with sessionToken := t.sessionToken <|> some token }
  | .completion sessionId workDir artifacts report =>
      { t with
        sessionId := sessionId
        workDir := workDir
        artifacts := artifacts
        report := report <|> t.report }
  | .orch marks => { t with orch := some marks, resourceVersion := t.resourceVersion + 1 }
  | .brief json => { t with brief := some json }
  | .injectBrief _ json => { t with brief := some json, resourceVersion := t.resourceVersion + 1 }
  | .injectDescription _ description =>
      { t with description := some description, resourceVersion := t.resourceVersion + 1 }
  | .createdByTask taskId => { t with createdByTask := some taskId }
  | .assignment runtimeId sandboxId =>
      { t with assignedRuntimeId := runtimeId, sandboxId := sandboxId }
  | .progress json => { t with progress := some json }

/-- The status the statement writes, if it writes one. -/
def status? : TaskUpdate → Option TaskStatus
  | .patch p _ => p.status
  | .reopenForRerun _ | .followupReopen => some .open_
  | .stampSessionToken _ | .completion .. | .orch _ | .brief _ | .injectBrief ..
  | .injectDescription .. | .createdByTask _ | .assignment .. | .progress _ => none

/-- The dependencies the statement writes, if it writes them. -/
def dependencies? : TaskUpdate → Option (List String)
  | .patch p _ => p.dependsOnTaskIds
  | _ => none

/-- The description the statement writes, if it writes one. -/
def description? : TaskUpdate → Option String
  | .patch p _ => p.description
  | .injectDescription _ description => some description
  | _ => none

@[simp]
theorem key_apply (u : TaskUpdate) (t : Task) : key (u.apply t) = key t := by
  cases u <;> rfl

@[simp]
theorem apply_id (u : TaskUpdate) (t : Task) : (u.apply t).id = t.id := by
  cases u <;> rfl

@[simp]
theorem apply_bundleId (u : TaskUpdate) (t : Task) : (u.apply t).bundleId = t.bundleId := by
  cases u <;> rfl

@[simp]
theorem apply_graphNodeId (u : TaskUpdate) (t : Task) :
    (u.apply t).graphNodeId = t.graphNodeId := by
  cases u <;> rfl

theorem apply_status (u : TaskUpdate) (t : Task) :
    (u.apply t).status = u.status?.getD t.status := by
  cases u <;> rfl

theorem apply_description (u : TaskUpdate) (t : Task) :
    (u.apply t).description = (u.description? <|> t.description) := by
  cases u <;> rfl

theorem apply_dependsOnTaskIds (u : TaskUpdate) (t : Task) :
    (u.apply t).dependsOnTaskIds = u.dependencies?.getD t.dependsOnTaskIds := by
  cases u <;> rfl

end TaskUpdate

/-! ### Statements on `bundles` -/

/-- The `UPDATE bundles` statements. -/
inductive BundleUpdate where
  | setSandbox (sandboxId : String)
  | status (s : BundleStatus) (claimedAt cookedAt digestedAt : Option Nat)
      (blockedReason : Option String)
  | graphSuccess (now : Nat)
  | graphFailure (reason : String)
  | reopenForRerun
  | attachGraph (code mermaid : String)
  | owner (accountId : String)
  | defaultRuntime (runtimeId : String)
  deriving DecidableEq, Repr

namespace BundleUpdate

def apply (u : BundleUpdate) (b : Bundle) : Bundle :=
  let bumped := { b with resourceVersion := b.resourceVersion + 1 }
  match u with
  | .setSandbox sandboxId => { bumped with sandboxId := some sandboxId }
  | .status s claimedAt cookedAt digestedAt blockedReason =>
      { bumped with
        status := s
        claimedAt := claimedAt <|> b.claimedAt
        cookedAt := cookedAt <|> b.cookedAt
        digestedAt := digestedAt <|> b.digestedAt
        blockedReason := blockedReason <|> b.blockedReason }
  | .graphSuccess now => { bumped with graphTerminalAt := b.graphTerminalAt <|> some now }
  | .graphFailure reason => { bumped with blockedReason := some reason }
  | .reopenForRerun =>
      { bumped with status := .open_, blockedReason := none, graphTerminalAt := none }
  | .attachGraph code mermaid =>
      { bumped with graphCode := some code, graphMermaid := some mermaid }
  | .owner accountId => { b with ownerAccountId := some accountId }
  | .defaultRuntime runtimeId => { b with defaultAgentRuntimeId := some runtimeId }

@[simp]
theorem key_apply (u : BundleUpdate) (b : Bundle) : key (u.apply b) = key b := by
  cases u <;> rfl

end BundleUpdate

/-- `UPDATE task_links SET revoked_at = ?`. -/
def Link.revoke (now : Nat) (l : Link) : Link := { l with revokedAt := some now }

/-- `UPDATE task_links SET fired_at = ?`. -/
def Link.fire (now : Nat) (l : Link) : Link := { l with firedAt := some now }

/-! ### Statements -/

/-- A statement a coroutine awaits. `seen` on an update of a task is the row the coroutine has looked
at before it decided on the update, `reported` on an event and the row of a link that is marked are the
link as it was listed; the statement itself does not send them. -/
inductive Op where
  | select
  | commit
  | aside
  | insertTask (t : Task)
  | updateTask (id : String) (u : TaskUpdate) (expectedVersion : Option Nat)
      (seen : Option Task)
  | deleteTask (id : String)
  | insertBundle (b : Bundle)
  | updateBundle (id : String) (u : BundleUpdate) (expectedVersion : Option Nat)
  | insertEvent (e : Event) (reported : Option Link := none)
  | insertReview (r : TaskReview)
  | insertLink (l : Link)
  | revokeLink (id : String) (now : Nat)
  | fireLink (link : Link) (now : Nat)
  | post (agentId taskId : String)
  | markOfflineStale (cutoff : Nat)
  | setExpiry (bundleId : String) (expiresAt : Nat)
  | deleteExpired (now : Nat)

/-- `set_expiry_for_bundle` on one event. -/
def Event.expire (bundleId : String) (expiresAt : Nat) (e : Event) : Event :=
  if e.bundleId = some bundleId ∧ e.expiresAt = none then { e with expiresAt := some expiresAt } else e

/-- `expires_at IS NOT NULL AND expires_at <= ?`. -/
def Event.isExpired (now : Nat) (e : Event) : Bool := e.expiresAt.any (· ≤ now)

namespace Db

/-- The constraints of an `INSERT INTO tasks`. -/
def acceptsTask (db : Db) (t : Task) : Bool :=
  (db.tasks.get t.id).isNone && (db.bundles.get t.bundleId).isSome

def acceptsEvent (db : Db) (e : Event) : Bool :=
  (db.events.get e.id).isNone && e.bundleId.all fun b => (db.bundles.get b).isSome

/-- `WHERE id = ? AND resource_version = ?`. -/
def matchesVersion (expectedVersion : Option Nat) (version : Nat) : Bool :=
  expectedVersion.all (· == version)

end Db

namespace Op

def exec (op : Op) (db : Db) : Db :=
  match op with
  | .select | .commit | .aside | .post .. => db
  | .insertTask t => if db.acceptsTask t then { db with tasks := db.tasks.insert t } else db
  | .updateTask id u expected _ =>
      { db with
        tasks := db.tasks.amend id
          (fun t => if Db.matchesVersion expected t.resourceVersion then u.apply t else t)
          (fun t => by split <;> simp) }
  | .deleteTask id => { db with tasks := db.tasks.erase id }
  | .insertBundle b => { db with bundles := db.bundles.insert b }
  | .updateBundle id u expected =>
      { db with
        bundles := db.bundles.amend id
          (fun b => if Db.matchesVersion expected b.resourceVersion then u.apply b else b)
          (fun b => by split <;> simp) }
  | .insertEvent e _ => if db.acceptsEvent e then { db with events := db.events.insert e } else db
  | .insertReview r => { db with reviews := db.reviews.insert r }
  | .insertLink l => { db with links := db.links.insert l }
  | .revokeLink id now =>
      { db with links := db.links.amend id (Link.revoke now) (fun _ => rfl) }
  | .fireLink link now =>
      { db with links := db.links.amend link.id (Link.fire now) (fun _ => rfl) }
  | .markOfflineStale cutoff =>
      { db with
        agents := db.agents.map fun a =>
          if a.lastHeartbeatAt < cutoff ∧ a.status ≠ .offline then
            { a with
              status := .offline
              currentTaskId := none
              resourceVersion := a.resourceVersion + 1 }
          else a }
  | .setExpiry bundleId expiresAt =>
      { db with
        events := db.events.map (Event.expire bundleId expiresAt)
          (fun e => by unfold Event.expire; split <;> rfl) }
  | .deleteExpired now => { db with events := db.events.filter fun e => !e.isExpired now }

end Op

/-! ### The status column -/

/-- The status of a task. -/
def Db.statusOf (db : Db) (taskId : String) : Option TaskStatus :=
  (db.tasks.get taskId).map (·.status)

/-- The statement writes no status, and adds and takes away no task. -/
def Op.IsStatusFree : Op → Prop
  | .insertTask _ | .deleteTask _ => False
  | .updateTask _ u _ _ => u.status? = none
  | _ => True

namespace Op

variable {db : Db} {id taskId : String} {u : TaskUpdate} {expected : Option Nat}
  {seen : Option Task}

theorem get_exec_updateTask :
    (exec (.updateTask id u expected seen) db).tasks.get taskId =
      if taskId = id then (db.tasks.get taskId).map fun t =>
        if Db.matchesVersion expected t.resourceVersion then u.apply t else t
      else db.tasks.get taskId :=
  Table.get_amend (fun t => by split <;> simp) taskId

/-- An update without an expected version finds its row. -/
theorem get_updateTask_self {t : Task} (h : db.tasks.get id = some t) :
    (exec (.updateTask id u none seen) db).tasks.get id = some (u.apply t) := by
  rw [get_exec_updateTask, if_pos rfl, h]
  rfl

theorem get_updateTask_of_ne (h : taskId ≠ id) :
    (exec (.updateTask id u expected seen) db).tasks.get taskId = db.tasks.get taskId := by
  rw [get_exec_updateTask, if_neg h]

theorem mem_exec_updateTask {t : Task} :
    t ∈ (exec (.updateTask id u none seen) db).tasks ↔
      ∃ t' ∈ db.tasks, t = if t'.id = id then u.apply t' else t' :=
  Table.mem_amend fun t => by split <;> simp

theorem mem_exec_revokeLink {now : Nat} {l : Link} :
    l ∈ (exec (.revokeLink id now) db).links ↔
      ∃ l' ∈ db.links, l = if l'.id = id then l'.revoke now else l' :=
  Table.mem_amend (f := Link.revoke now) fun _ => rfl

theorem get_exec_revokeLink {now : Nat} {linkId : String} :
    (exec (.revokeLink id now) db).links.get linkId =
      if linkId = id then (db.links.get linkId).map (Link.revoke now) else db.links.get linkId :=
  Table.get_amend (f := Link.revoke now) (fun _ => rfl) linkId

theorem get_exec_fireLink {link : Link} {now : Nat} {linkId : String} :
    (exec (.fireLink link now) db).links.get linkId =
      if linkId = link.id then (db.links.get linkId).map (Link.fire now) else db.links.get linkId :=
  Table.get_amend (f := Link.fire now) (fun _ => rfl) linkId

theorem statusOf_updateTask_of_ne (h : taskId ≠ id) :
    (exec (.updateTask id u expected seen) db).statusOf taskId = db.statusOf taskId := by
  rw [Db.statusOf, get_updateTask_of_ne h, Db.statusOf]

/-- An update leaves a status alone or writes its own. -/
theorem statusOf_updateTask :
    (exec (.updateTask id u expected seen) db).statusOf taskId = db.statusOf taskId ∨
      taskId = id ∧ ∃ status ∈ u.status?,
        (exec (.updateTask id u expected seen) db).statusOf taskId = some status := by
  by_cases hid : taskId = id
  · subst hid
    rw [Db.statusOf, get_exec_updateTask, if_pos rfl, Db.statusOf]
    cases db.tasks.get taskId with
    | none => exact .inl rfl
    | some t =>
      rw [Option.map_some, Option.map_some, Option.map_some]
      split
      · cases hstatus : u.status? with
        | none => exact .inl (by rw [TaskUpdate.apply_status, hstatus, Option.getD_none])
        | some status =>
          exact .inr ⟨rfl, status, rfl, by rw [TaskUpdate.apply_status, hstatus, Option.getD_some]⟩
      · exact .inl rfl
  · exact .inl (statusOf_updateTask_of_ne hid)

theorem statusOf_updateTask_self {t : Task} (h : db.tasks.get id = some t) :
    (exec (.updateTask id u none seen) db).statusOf id = some (u.status?.getD t.status) := by
  rw [Db.statusOf, get_updateTask_self h, Option.map_some, TaskUpdate.apply_status]

theorem IsStatusFree.statusOf {op : Op} (h : op.IsStatusFree) (db : Db) (taskId : String) :
    (op.exec db).statusOf taskId = db.statusOf taskId := by
  cases op
  case insertTask => cases h
  case deleteTask => cases h
  case updateTask id u expected seen =>
    rcases statusOf_updateTask with heq | ⟨_, status, hstatus, _⟩
    · exact heq
    · rw [show u.status? = none from h] at hstatus
      cases hstatus
  case insertEvent e =>
    rw [exec]
    split <;> rfl
  all_goals rfl

end Op

/-- A coroutine of the server: what it awaits are database statements. -/
abbrev Sql (α : Type) := Coro Db Op Exn α

namespace Sql

/-- A `SELECT`. -/
def select {α : Type} (read : Db → α) : Sql α := .perform .select read

def commit : Sql Unit := .perform .commit fun _ => ()

/-- `WatchService.record`: an `INSERT` into the watch log and a commit. -/
def record : Sql Unit := do
  .perform .aside fun _ => ()
  commit

/-- A statement that fails when `ok` does not hold of the state it meets. -/
def checked (op : Op) (ok : Db → Bool) (table : String) : Sql Unit :=
  .await op fun db => if ok db then .done () else .raise (.integrityError table)

end Sql

namespace Sql

@[simp]
theorem run_select {α : Type} (read : Db → α) (db : Db) :
    (select read).run Op.exec db = (.ok (read db), db) := rfl

@[simp]
theorem run_commit (db : Db) : commit.run Op.exec db = (.ok (), db) := rfl

theorem of_run_checked {op : Op} {ok : Db → Bool} {table : String} {db db' : Db}
    (h : (checked op ok table).run Op.exec db = (.ok (), db')) : ok db = true ∧ db' = op.exec db := by
  unfold checked at h
  cases hok : ok db with
  | true =>
    simp only [Coro.run_await, hok, if_true, Coro.run_done, Prod.mk.injEq] at h
    exact ⟨rfl, h.2.symm⟩
  | false => simp [hok] at h

@[simp]
theorem run_record (db : Db) : record.run Op.exec db = (.ok (), db) := rfl

end Sql

/-- `P` holds of the operations that leave the model's tables alone. -/
structure PlainOps (P : Op → Prop) : Prop where
  select : P .select
  commit : P .commit
  aside : P .aside

namespace Sql

variable {P : Op → Prop}

theorem every_select (hP : PlainOps P) {α : Type} (read : Db → α) :
    (select read).Every P := by
  simpa [select] using hP.select

/-- After a `SELECT` only what it can read matters. -/
theorem every_select_bind (hP : PlainOps P) {α β : Type} {read : Db → α} {f : α → Sql β}
    (hf : ∀ db, (f (read db)).Every P) : (select read >>= f).Every P :=
  ⟨hP.select, hf⟩

theorem every_commit (hP : PlainOps P) : commit.Every P := by
  simpa [commit] using hP.commit

theorem every_record (hP : PlainOps P) : record.Every P :=
  .bind ((Coro.every_perform _ _).mpr hP.aside) fun _ => every_commit hP

theorem every_checked {op : Op} (hop : P op) (ok : Db → Bool) (table : String) :
    (checked op ok table).Every P := by
  refine ⟨hop, fun db => ?_⟩
  cases h : ok db <;> simp [h]

end Sql

namespace Sql

variable {E : Exn → Prop}

theorem throws_commit : commit.Throws E := Coro.throws_perform _ _

theorem throws_record : record.Throws E := .bind (Coro.throws_perform _ _) fun _ => throws_commit

theorem throws_checked (op : Op) (ok : Db → Bool) {table : String} (h : E (.integrityError table)) :
    (checked op ok table).Throws E := fun _ => .ite (fun _ => trivial) fun _ => h

end Sql

/-- The operation leaves the model's tables alone. -/
def Op.IsPlain (op : Op) : Prop := op = .select ∨ op = .commit ∨ op = .aside

theorem plainOps_isPlain : PlainOps Op.IsPlain := ⟨.inl rfl, .inr (.inl rfl), .inr (.inr rfl)⟩

theorem Op.IsPlain.exec {op : Op} (h : op.IsPlain) (db : Db) : op.exec db = db := by
  rcases h with rfl | rfl | rfl <;> rfl

/-- A coroutine of plain operations leaves the database as it is. -/
theorem run_state_of_plain {α : Type} {c : Sql α} (h : c.Every Op.IsPlain) (db : Db) :
    (c.run Op.exec db).2 = db :=
  h.run_same (f := id) (fun _ hop s => hop.exec s) db

theorem exists_run_of_plain {α : Type} {c : Sql α} (h : c.Every Op.IsPlain) (db : Db) :
    ∃ r, c.run Op.exec db = (r, db) :=
  ⟨_, Prod.ext rfl (run_state_of_plain h db)⟩

theorem run_bind_state_of_plain {α β : Type} (c : Sql α) {f : α → Sql β}
    (hf : ∀ a, (f a).Every Op.IsPlain) (db : Db) :
    ((c >>= f).run Op.exec db).2 = (c.run Op.exec db).2 := by
  rw [Coro.run_bind]
  rcases c.run Op.exec db with ⟨e | a, db'⟩
  · rfl
  · exact run_state_of_plain (hf a) db'

/-- The database after the run is related to the one before. -/
abbrev Sql.Keeps {α : Type} (R : Db → Db → Prop) (c : Sql α) (db : Db) : Prop :=
  Coro.Keeps Op.exec R c db

section Keeps

variable {R : Db → Db → Prop} [IsPreorder Db R] {α β : Type} {c : Sql α} {f : α → Sql β} {db : Db}

theorem Sql.keeps_of_plain (hc : c.Every Op.IsPlain) : Sql.Keeps R c db := by
  rw [Sql.Keeps, Coro.Keeps, run_state_of_plain hc]
  exact refl_of R db

omit [IsPreorder Db R] in
theorem Sql.keeps_select {read : Db → α} {f : α → Sql β} (h : Sql.Keeps R (f (read db)) db) :
    Sql.Keeps R (Sql.select read >>= f) db := h

/-- What only reads may come first. -/
theorem Sql.keeps_bind_plain (hc : c.Every Op.IsPlain) (hf : ∀ a, Sql.Keeps R (f a) db) :
    Sql.Keeps R (c >>= f) db := by
  refine Coro.Keeps.bind (Sql.keeps_of_plain hc) fun a db' hrun => ?_
  have hstate := run_state_of_plain hc db
  rw [hrun] at hstate
  rw [show db' = db from hstate]
  exact hf a

/-- What only reads may come last. -/
theorem Sql.keeps_bind_last (hc : Sql.Keeps R c db) (hf : ∀ a, (f a).Every Op.IsPlain) :
    Sql.Keeps R (c >>= f) db :=
  Coro.Keeps.bind hc fun a _ _ => Sql.keeps_of_plain (hf a)

end Keeps

/-- What one call takes from outside: random identifiers (`uuid4().hex`), the clock, the answers of the
gateways, and how often a row can be polled before a timeout; every nested call has its own. -/
structure Draws where
  uuid : List Nat → String
  now : List Nat → Nat
  accepted : List Nat → Bool := fun _ => true
  polls : List Nat → Nat := fun _ => 0

namespace Draws

def sub (d : Draws) (i : Nat) : Draws :=
  ⟨fun path => d.uuid (i :: path), fun path => d.now (i :: path),
    fun path => d.accepted (i :: path), fun path => d.polls (i :: path)⟩

/-- A prefix and the first digits of `uuid4().hex`. -/
def hexId (d : Draws) (pre : String) (digits : Nat) : String :=
  pre ++ String.ofList ((d.uuid []).toList.take digits)

def clock (d : Draws) : Nat := d.now []

end Draws

/-- Draws whose identifiers tell the nested calls apart. -/
def pathDraws (tag : Char) : Draws where
  uuid path := String.ofList (tag :: path.map fun i => Char.ofNat (97 + i))
  now path := path.length

end Krewhub
