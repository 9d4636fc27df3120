import Krewhub.Base.Interleave
import Krewhub.Python.Json
import Krewhub.Store.Repositories

/-!
# Sandboxes of bundles

A bundle runs its tasks in one sandbox at a time: a virtual machine of the orchestrator, a row of `sandboxes`
that names it, and the `sandbox_id` of the bundle that points to the row. `SandboxService` keeps the three
together. When a sandbox has died it is terminated, another one is provisioned, and the pointer is moved; the
pointer is also what a call looks at to find that another has moved it already.
-/

namespace Krewhub

/-! ### Rows -/

inductive SandboxStatus where
  | provisioning
  | ready
  | running
  | terminated
  | error
  deriving DecidableEq, Repr

/-- A row of `sandboxes`. -/
structure Sandbox where
  id : String
  taskId : Option String := none
  bundleId : Option String := none
  ownerAccountId : String := ""
  e2bSandboxId : String
  template : String := "base"
  status : SandboxStatus
  createdAt : Nat
  updatedAt : Nat
  terminatedAt : Option Nat := none
  lastEventAt : Option Nat := none
  deriving DecidableEq, Repr

instance : Keyed Sandbox := ⟨Sandbox.id⟩

/-- `UPDATE sandboxes SET status = ?`; a `terminated_at` that is set stays unless there is a new one. -/
def Sandbox.setStatus (status : SandboxStatus) (now : Nat) (sb : Sandbox) : Sandbox :=
  { sb with
    status := status
    updatedAt := now
    terminatedAt := if status = .terminated then some now else sb.terminatedAt }

def Sandbox.touch (now : Nat) (sb : Sandbox) : Sandbox :=
  { sb with lastEventAt := some now, updatedAt := now }

@[simp]
theorem Sandbox.key_setStatus (status : SandboxStatus) (now : Nat) (sb : Sandbox) :
    key (sb.setStatus status now) = key sb := rfl

@[simp]
theorem Sandbox.key_touch (now : Nat) (sb : Sandbox) : key (sb.touch now) = key sb := rfl

def Sandbox.isLive (sb : Sandbox) : Bool :=
  sb.status == .ready || sb.status == .running || sb.status == .provisioning

/-- The `WHERE` clause of `list_idle_or_expired`. -/
def Sandbox.isIdleOrExpired (idleCutoff maxAgeCutoff : Nat) (sb : Sandbox) : Bool :=
  sb.isLive && (sb.lastEventAt.any (· < idleCutoff) || decide (sb.createdAt < maxAgeCutoff))

/-- The row that `ORDER BY created_at DESC LIMIT 1` leaves. -/
def latest (rows : List Sandbox) : Option Sandbox :=
  rows.foldl
    (fun best sb => if best.all fun b => b.createdAt < sb.createdAt then some sb else best) none

/-! ### Statements and requests -/

/-- The operations of the Hand, of the data of a write its length. -/
inductive HandOp where
  | exec (command : String)
  | write (path : String) (bytes : Nat)
  | read (path : String)
  | list (path : String) (depth : Nat)
  deriving DecidableEq, Repr

inductive EnvdErrorKind where
  | valueError
  | fileNotFound
  | other
  deriving DecidableEq, Repr

/-- What a request to a machine comes to: what it has delivered, the reason it was cancelled for, or the
exception with its text. -/
inductive EnvdAnswer where
  | delivered (entries : List (String × Json))
  | cancelled (reason : String)
  | raised (kind : EnvdErrorKind) (text : String)

def EnvdAnswer.isDelivered : EnvdAnswer → Bool
  | .delivered _ => true
  | _ => false

/-- The orchestrator and the machines: what it answers the requests for a machine, what the deletion of a
machine raises, what the machines answer, each in the order of the requests; the machines it has provisioned
and deleted, when a machine has done what it was asked, and when it is to be reaped. -/
structure Orchestrator where
  answers : Nat → Except Exn String
  refuses : String → Option Exn := fun _ => none
  envd : Nat → EnvdAnswer := fun _ => .delivered []
  asked : Nat := 0
  handled : Nat := 0
  created : List String := []
  deleted : List String := []
  served : List (String × Nat) := []
  endAt : List (String × Nat) := []

structure SandboxWorld where
  db : Db := {}
  sandboxes : Table Sandbox := ∅
  orchestrator : Orchestrator

/-- What a coroutine awaits; `fence` is the `SELECT` that `reprovision_for_bundle` reads its bundle with. -/
inductive SandboxOp where
  | sql (op : Op)
  | fence (bundleId : String)
  | getSandbox (sandboxId : String)
  | templateOf (bundleId : String)
  | listIdleOrExpired (idleCutoff maxAgeCutoff : Nat)
  | insertSandbox (sb : Sandbox)
  | updateStatus (sandboxId : String) (status : SandboxStatus) (now : Nat)
  | markEvent (sandboxId : String) (now : Nat)
  | createSandbox (template : String)
  | terminate (e2bSandboxId : String)
  | envd (e2bSandboxId : String) (op : HandOp) (now : Nat)
  | setTimeout (e2bSandboxId : String) (endAt : Nat)

def Orchestrator.create (o : Orchestrator) : Orchestrator :=
  { o with
    asked := o.asked + 1
    created := o.created ++ (o.answers o.asked).toOption.toList }

def Orchestrator.delete (e2bSandboxId : String) (o : Orchestrator) : Orchestrator :=
  if (o.refuses e2bSandboxId).isSome then o else { o with deleted := o.deleted ++ [e2bSandboxId] }

def Orchestrator.handle (e2bSandboxId : String) (now : Nat) (o : Orchestrator) : Orchestrator :=
  { o with
    handled := o.handled + 1
    served := if (o.envd o.handled).isDelivered then (e2bSandboxId, now) :: o.served else o.served }

def SandboxOp.exec (op : SandboxOp) (w : SandboxWorld) : SandboxWorld :=
  match op with
  | .sql op => { w with db := op.exec w.db }
  | .fence _ | .getSandbox _ | .templateOf _ | .listIdleOrExpired .. => w
  | .insertSandbox sb => { w with sandboxes := w.sandboxes.insert sb }
  | .updateStatus id status now =>
      { w with
        sandboxes := w.sandboxes.amend id (Sandbox.setStatus status now) (Sandbox.key_setStatus status now) }
  | .markEvent id now =>
      { w with sandboxes := w.sandboxes.amend id (Sandbox.touch now) (Sandbox.key_touch now) }
  | .createSandbox _ => { w with orchestrator := w.orchestrator.create }
  | .terminate e2bSandboxId => { w with orchestrator := w.orchestrator.delete e2bSandboxId }
  | .envd e2bSandboxId _ now => { w with orchestrator := w.orchestrator.handle e2bSandboxId now }
  | .setTimeout e2bSandboxId endAt =>
      { w with
        orchestrator := { w.orchestrator with endAt := (e2bSandboxId, endAt) :: w.orchestrator.endAt } }

/-- A coroutine on the rows and the orchestrator. -/
abbrev Sandboxing (α : Type) := Coro SandboxWorld SandboxOp Exn α

/-- A coroutine on the other tables. -/
def Sql.beside {α : Type} (c : Sql α) : Sandboxing α := c.within SandboxWorld.db .sql

namespace SandboxRepo

def get (sandboxId : String) : Sandboxing (Option Sandbox) :=
  .perform (.getSandbox sandboxId) (·.sandboxes.get sandboxId)

def create (sb : Sandbox) : Sandboxing Unit := do
  .await (.insertSandbox sb) fun w =>
    if (w.sandboxes.get sb.id).isSome then .raise (.integrityError "sandboxes") else .done ()
  Sql.commit.beside

def updateStatus (sandboxId : String) (status : SandboxStatus) (now : Nat) : Sandboxing Unit := do
  .perform (.updateStatus sandboxId status now) fun _ => ()
  Sql.commit.beside

def markEvent (sandboxId : String) (now : Nat) : Sandboxing Unit := do
  .perform (.markEvent sandboxId now) fun _ => ()
  Sql.commit.beside

def listIdleOrExpired (idleSeconds maxAgeSeconds now : Nat) : Sandboxing (List Sandbox) :=
  .perform (.listIdleOrExpired (now - idleSeconds) (now - maxAgeSeconds)) fun w =>
    w.sandboxes.rows.filter (Sandbox.isIdleOrExpired (now - idleSeconds) (now - maxAgeSeconds))

end SandboxRepo

namespace E2bClient

def createSandbox (template : String) : Sandboxing String :=
  .await (.createSandbox template) fun w =>
    match w.orchestrator.answers w.orchestrator.asked with
    | .ok e2bId => .done e2bId
    | .error e => .raise e

def terminate (e2bSandboxId : String) : Sandboxing Unit :=
  .await (.terminate e2bSandboxId) fun w =>
    match w.orchestrator.refuses e2bSandboxId with
    | none => .done ()
    | some e => .raise e

/-- A request to the machine. -/
def envd (e2bSandboxId : String) (op : HandOp) (now : Nat) : Sandboxing EnvdAnswer :=
  .perform (.envd e2bSandboxId op now) fun w => w.orchestrator.envd w.orchestrator.handled

def setTimeout (e2bSandboxId : String) (endAt : Nat) : Sandboxing Unit :=
  .perform (.setTimeout e2bSandboxId endAt) fun _ => ()

end E2bClient

/-! ### The service -/

/-- What a call draws: the digits of its uuid and the times it reads. -/
structure SandboxDraws where
  hex : String
  terminatedAt : Nat
  createdAt : Nat

def SandboxDraws.sandboxId (d : SandboxDraws) : String := "sbx_" ++ d.hex

/-- A truth value in Python: `None` and the empty string are false. -/
def truthyText (s : Option String) : Option String := s.filter (· ≠ "")

namespace SandboxService

/-- The row of a machine that has just been provisioned. -/
def newSandbox (taskId : String) (bundleId : Option String) (owner template e2bId : String)
    (d : SandboxDraws) : Sandbox where
  id := d.sandboxId
  taskId := some taskId
  bundleId := bundleId
  ownerAccountId := owner
  e2bSandboxId := e2bId
  template := template
  status := .ready
  createdAt := d.createdAt
  updatedAt := d.createdAt
  lastEventAt := some d.createdAt

def provision (template : String) (row : String → Sandbox) : Sandboxing Sandbox := do
  let e2bId ← E2bClient.createSandbox template
  SandboxRepo.create (row e2bId)
  return row e2bId

def createForTask (taskId owner template : String) (d : SandboxDraws) : Sandboxing Sandbox :=
  provision template fun e2bId => newSandbox taskId none owner template e2bId d

/-- The id of the bundle stands for the task as well. -/
def createForBundle (bundleId owner template : String) (d : SandboxDraws) : Sandboxing Sandbox :=
  provision template fun e2bId => newSandbox bundleId (some bundleId) owner template e2bId d

def terminate (sandboxId : String) (now : Nat) : Sandboxing Unit := do
  match ← SandboxRepo.get sandboxId with
  | none => return ()
  | some sandbox =>
    if sandbox.status = .terminated then return ()
    else
      (E2bClient.terminate sandbox.e2bSandboxId).tryCatch fun _ => some (return ())
      SandboxRepo.updateStatus sandboxId .terminated now

def markEvent (sandboxId : String) (now : Nat) : Sandboxing Unit := SandboxRepo.markEvent sandboxId now

def templateForBundle (bundleId : String) : Sandboxing (Option String) :=
  .perform (.templateOf bundleId) fun w =>
    (latest (w.sandboxes.rows.filter (·.bundleId == some bundleId))).map (·.template)

/-- The replacement another call has made since the caller looked, if it is ready. -/
def existingReplacement (dead : Option String) (bundle : Bundle) : Sandboxing (Option Sandbox) :=
  match dead, bundle.sandboxId with
  | some dead, some current =>
    if current ≠ dead then do
      let row ← SandboxRepo.get current
      return row.filter (·.status = .ready)
    else return none
  | _, _ => return none

/-- What follows the fence: the dead sandbox is terminated, and another takes its place. -/
def replace (bundleId : String) (bundle : Bundle) (dead : Option String) (d : SandboxDraws) :
    Sandboxing Sandbox := do
  match truthyText dead <|> bundle.sandboxId with
  | some toTerminate => (terminate toTerminate d.terminatedAt).tryCatch fun _ => some (return ())
  | none => pure ()
  let template ← templateForBundle bundleId
  let fresh ← createForBundle bundleId (bundle.ownerAccountId.getD "")
    ((truthyText template).getD "base") d
  (BundleRepo.setSandbox bundleId fresh.id).beside
  return fresh

def reprovisionForBundle (bundleId : String) (dead : Option String) (d : SandboxDraws) :
    Sandboxing Sandbox := do
  match ← (.perform (.fence bundleId) (·.db.bundles.get bundleId) : Sandboxing (Option Bundle)) with
  | none => .raise (.valueError ("reprovision: bundle " ++ bundleId ++ " not found"))
  | some bundle =>
    match ← existingReplacement dead bundle with
    | some current => return current
    | none => replace bundleId bundle dead d

/-- The sandbox the bundle points to, if it is ready. -/
def readySandbox (bundle : Bundle) : Sandboxing (Option Sandbox) :=
  match truthyText bundle.sandboxId with
  | some sandboxId => do
    let row ← SandboxRepo.get sandboxId
    return row.filter (·.status = .ready)
  | none => return none

def ensureSandboxForBundle (bundleId : String) (d : SandboxDraws) : Sandboxing Sandbox := do
  match ← (BundleRepo.get bundleId).beside with
  | none => .raise (.valueError ("ensure: bundle " ++ bundleId ++ " not found"))
  | some bundle =>
    match ← readySandbox bundle with
    | some sandbox => return sandbox
    | none => reprovisionForBundle bundleId bundle.sandboxId d

end SandboxService

end Krewhub
