import Krewhub.Base.Interleave
import Krewhub.Invocations.Schema

/-!
# Creating an invocation

`create` looks whether its parent tape already has an invocation with the idempotency key, and inserts a row
if there is none. The table has a unique index on the two, but a call that loses the race does not read again:
the exception of its insertion ends it. Where no call looks between the lookup of another that finds nothing
and its insertion, all calls return the invocation of the first, and it is the only one.
-/

namespace Krewhub

/-! ### The request and the row -/

/-- `InvocationRequest`, without what only the route reads. -/
structure InvocationRequest where
  target : String
  input : Json
  schema : Option Json := none
  deadlineS : Nat := 300
  label : Option String := none
  parentTapeId : Option String := none
  parentForkPoint : Option Int := none
  idempotencyKey : Option String := none
  taskId : Option String := none

/-- A row of `invocations`. -/
structure Invocation where
  id : String
  targetType : String
  targetId : Option String
  input : Json
  schema : Option Json
  deadlineS : Nat
  label : Option String
  parentTapeId : Option String
  parentForkPoint : Option Int
  idempotencyKey : Option String
  tapeId : String
  taskId : Option String
  status : InvocationStatus := .pending
  result : Option Envelope := none
  createdAt : Nat
  startedAt : Option Nat := none
  completedAt : Option Nat := none
  createdBy : String

section Target

variable (pyRepr : Json → String)

/-- `target.partition(":")`, with `None` for an empty id. -/
def splitTarget (target : String) : String × Option String :=
  match target.toList.span (· != ':') with
  | (type, _ :: id) => (String.ofList type, if id.isEmpty then none else some (String.ofList id))
  | (type, []) => (String.ofList type, none)

def parseTarget (target : String) (allowedTypes : List String) :
    Except PyError (String × Option String) := do
  if target = "" then .error (.valueError "target must be a non-empty string")
  let (type, id) := splitTarget target
  if type ∉ allowedTypes then
    .error (.valueError ("unknown target type: " ++ pyRepr (.str type)))
  if type = "human" then
    if id.isSome then .error (.valueError "human accepts no id")
    return ("human", none)
  if id.isNone then .error (.valueError (type ++ " requires an id"))
  return (type, id)

end Target

/-! ### Statements -/

/-- The tables `create` writes, and the ids `self._runs` has been given a run for. -/
structure InvocationStore where
  rows : List Invocation := []
  forks : List (String × String × Int) := []
  runs : List String := []

namespace InvocationStore

/-- `find_by_idempotency_key`. -/
def find (s : InvocationStore) (parentTapeId idempotencyKey : String) : Option Invocation :=
  s.rows.find? fun r => r.parentTapeId == some parentTapeId && r.idempotencyKey == some idempotencyKey

/-- The row breaks the primary key, or one of the unique indexes; `NULL` is equal to nothing. -/
def conflicts (s : InvocationStore) (inv : Invocation) : Bool :=
  s.rows.any fun r => r.id == inv.id || r.tapeId == inv.tapeId ||
    (inv.idempotencyKey.isSome && r.idempotencyKey == inv.idempotencyKey &&
      (inv.parentTapeId.isSome && r.parentTapeId == inv.parentTapeId))

end InvocationStore

/-- What a call awaits; `schedule` is the start of the run, after the last of its awaits. -/
inductive CreateOp where
  | find (parentTapeId idempotencyKey : String)
  | insert (inv : Invocation)
  | commit
  | registerFork (childTapeId parentTapeId : String) (forkPoint : Int)
  | setRunning (id : String) (startedAt : Nat)
  | schedule (id : String)

def CreateOp.exec (op : CreateOp) (s : InvocationStore) : InvocationStore :=
  match op with
  | .find .. | .commit => s
  | .insert inv => if s.conflicts inv then s else { s with rows := s.rows ++ [inv] }
  | .registerFork child parent forkPoint =>
      if s.forks.any (·.1 == child) then s else { s with forks := s.forks ++ [(child, parent, forkPoint)] }
  | .setRunning id startedAt =>
      { s with
        rows := s.rows.map fun r =>
          if r.id = id ∧ r.status = .pending then { r with status := .running, startedAt := some startedAt }
          else r }
  | .schedule id => { s with runs := s.runs ++ [id] }

inductive CreateError where
  | python (e : PyError)
  | integrityError (table : String)

/-- A coroutine on the store. -/
abbrev Creating (α : Type) := Coro InvocationStore CreateOp CreateError α

/-! ### The call -/

/-- One call: its request, who makes it, the ids it draws and the time it reads. -/
structure CreateCall where
  req : InvocationRequest
  callerAccountId : String
  id : String
  tapeId : String
  now : Nat

namespace InvocationService

section Create

variable (pyRepr : Json → String) (hands : List String)

/-- What is checked before anything is awaited. -/
def checkRequest (req : InvocationRequest) : Except PyError (String × Option String) := do
  let target ← parseTarget pyRepr req.target (hands ++ ["human", "sandbox", "agent"])
  if let some schema := req.schema then
    validateRequestSchema pyRepr schema
  return target

/-- The idempotency check; an empty tape id or key counts as none. -/
def findExisting (req : InvocationRequest) : Creating (Option Invocation) :=
  match req.parentTapeId, req.idempotencyKey with
  | some parent, some key =>
    if parent ≠ "" ∧ key ≠ "" then .perform (.find parent key) (·.find parent key) else return none
  | _, _ => return none

/-- The row a call inserts. -/
def newInvocation (c : CreateCall) (target : String × Option String) : Invocation where
  id := c.id
  targetType := target.1
  targetId := target.2
  input := c.req.input
  schema := c.req.schema
  deadlineS := c.req.deadlineS
  label := c.req.label
  parentTapeId := c.req.parentTapeId
  parentForkPoint := c.req.parentForkPoint
  idempotencyKey := c.req.idempotencyKey
  tapeId := c.tapeId
  taskId := c.req.taskId
  createdAt := c.now
  createdBy := c.callerAccountId

/-- `register_fork`, for a child invocation. -/
def registerFork (inv : Invocation) : Creating Unit :=
  match inv.parentTapeId, inv.parentForkPoint with
  | some parent, some forkPoint => do
    .perform (.registerFork inv.tapeId parent forkPoint) fun _ => ()
    .perform .commit fun _ => ()
  | _, _ => return ()

/-- What is done once the row is inserted. -/
def startRun (inv : Invocation) (now : Nat) : Creating Invocation := do
  .perform .commit fun _ => ()
  registerFork inv
  .perform (.setRunning inv.id now) fun _ => ()
  .perform .commit fun _ => ()
  .perform (.schedule inv.id) fun _ => ()
  return { inv with status := .running, startedAt := some now }

/-- The row, the fork, `running`, and the run. -/
def allocate (inv : Invocation) (now : Nat) : Creating Invocation := do
  if ← .perform (.insert inv) (·.conflicts inv) then .raise (.integrityError "invocations")
  else startRun inv now

/-- `create`, from the request on. -/
def createRequest (c : CreateCall) : Creating Invocation :=
  match checkRequest pyRepr hands c.req with
  | .error e => .raise (.python e)
  | .ok target => do
    match ← findExisting c.req with
    | some existing => return existing
    | none => allocate (newInvocation c target) c.now

end Create

end InvocationService

end Krewhub
