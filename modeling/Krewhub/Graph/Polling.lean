import Krewhub.Graph.State

/-!
# Polling

A cycle reads the row of its own task until it is terminal, and those of its dependencies until all are
accepted. How many reads fit into the timeout is not up to the code; the bound says how many do.
-/

namespace Krewhub

/-- `_TERMINAL_STATUSES`. -/
def TaskStatus.isTerminal : TaskStatus → Bool
  | .done | .blocked | .cancelled => true
  | _ => false

/-- `wait_for_task_terminal`, without a result where it has timed out. -/
def waitForTaskTerminal (taskId : String) : Nat → Runtime (Option Task)
  | 0 => return none
  | reads + 1 => do
    match ← Runtime.sql (TaskRepo.get taskId) with
    | none => .raise (.valueError s!"task {taskId} disappeared during polling")
    | some task =>
      if task.status.isTerminal then return some task else waitForTaskTerminal taskId reads

/-- The exceptions of `wait_for_dependencies`. -/
inductive DependencyError where
  | timeout
  | failed (depTaskId : String) (status : TaskStatus) (reason : String)
  | missing (depTaskId : String)
  deriving DecidableEq, Repr

/-- The row of a dependency is terminal and not accepted. -/
def refuses (acceptWhen : TaskStatus) (dep : Task) : Bool :=
  dep.status != acceptWhen && dep.status.isTerminal

/-- The rounds of `wait_for_dependencies`: what is left of this one, and what the next one begins
with. -/
def pollDependencies (call : Nat) (acceptWhen : TaskStatus) :
    Nat → String → List String → List String → Runtime (Except DependencyError Unit)
  | 0, _, _, _ => return .error .timeout
  | reads + 1, depId, rest, nextRound => do
    match ← .perform (.poll call acceptWhen depId) fun s => s.db.tasks.get depId with
    | none => return .error (.missing depId)
    | some dep =>
      if refuses acceptWhen dep then
        return .error (.failed depId dep.status (dep.blockedReason.getD ""))
      let nextRound := if dep.status = acceptWhen then nextRound else nextRound ++ [depId]
      match rest, nextRound with
      | depId :: rest, nextRound => pollDependencies call acceptWhen reads depId rest nextRound
      | [], depId :: nextRound => pollDependencies call acceptWhen reads depId nextRound []
      | [], [] => return .ok ()

def waitForDependencies (call : Nat) (depTaskIds : List String) (acceptWhen : TaskStatus)
    (reads : Nat) : Runtime (Except DependencyError Unit) :=
  match depTaskIds.filter (· ≠ "") with
  | [] => return .ok ()
  | depId :: rest => pollDependencies call acceptWhen reads depId rest []

section Every

variable {P : RunOp → Prop}

theorem every_waitForTaskTerminal (hP : ∀ op, op.IsPlain → P (.sql op)) (taskId : String) (reads : Nat) :
    (waitForTaskTerminal taskId reads).Every P := by
  induction reads with
  | zero => trivial
  | succ reads ih =>
    refine .bind (Runtime.every_sql (TaskRepo.every_get plainOps_isPlain taskId) hP) fun task => ?_
    cases task with
    | none => trivial
    | some task => exact .ite (fun _ => by trivial) fun _ => ih

end Every

end Krewhub
