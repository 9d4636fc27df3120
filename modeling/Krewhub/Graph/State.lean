import Krewhub.Store.Repositories

/-!
# The state of a graph run

Every step of a graph calls `dispatch_cycle`, and the calls of one run share the results of the nodes and
the set of agents that have been used, which live in the process and not in the database. A change of
these is an operation of its own, which is finer than what the event loop interleaves. Some operations
say which call they belong to; the code has no number for it.
-/

namespace Krewhub

structure AttemptRecord where
  iteration : Nat
  agentId : String
  status : String
  summary : String
  deriving DecidableEq, Repr

structure TaskNodeResult where
  nodeId : String
  taskId : String
  success : Bool
  summary : String
  attempts : List AttemptRecord := []
  facts : List String := []
  codeRefs : List String := []
  deriving DecidableEq, Repr

/-- Why a cycle ends with an error. -/
inductive CycleFailure where
  | noTask (nodeId : String)
  | missingTask (taskId : String)
  | depTimeout (timeout : String) (deps : Nat)
  | depFailed (depTaskId : String) (status : TaskStatus) (reason : String)
  | depMissing (depTaskId : String)
  | exhausted (maxIterations : Nat) (lastSummary : String)
  deriving DecidableEq, Repr

namespace CycleFailure

def status : CycleFailure → String
  | noTask _ => "no_task"
  | missingTask _ => "missing_task"
  | depTimeout .. => "dep_timeout"
  | depFailed .. => "dep_failed"
  | depMissing _ => "dep_missing"
  | exhausted .. => "exhausted"

def iteration : CycleFailure → Nat
  | noTask _ | missingTask _ => 1
  | depTimeout .. | depFailed .. | depMissing _ => 0
  | exhausted maxIterations _ => maxIterations

def summary : CycleFailure → String
  | noTask nodeId => "no task_id mapped for node '" ++ nodeId ++ "'"
  | missingTask taskId => s!"task {taskId} not found in db"
  | depTimeout timeout deps =>
    s!"timed out after {timeout}s waiting for {deps} upstream dependency(ies)"
  | depFailed depTaskId status reason =>
    s!"upstream failure: dependency {depTaskId} ended with {status.text}: " ++
      if reason = "" then "no reason" else reason
  | depMissing depTaskId => s!"dependency lookup failed: dependency {depTaskId} not found in db"
  | exhausted maxIterations lastSummary =>
    s!"exhausted {maxIterations} attempt(s); last: {lastSummary}"

/-- The record `_record_failure` appends. -/
def record (failure : CycleFailure) : AttemptRecord where
  iteration := failure.iteration
  agentId := ""
  status := failure.status
  summary := failure.summary

end CycleFailure

/-- What a cycle ends with: the agent that has done the task, or the failure. -/
abbrev CycleEnd := Except CycleFailure String

/-- The string the graph step is given. -/
def CycleEnd.text : CycleEnd → String
  | .ok agentId => s!"done: {agentId}"
  | .error failure => s!"error: {failure.summary}"

structure OrchestratorState where
  bundleId : String
  taskResults : List (String × TaskNodeResult) := []
  bundleDispatchedAgents : List String := []
  deriving DecidableEq, Repr

/-- What a cycle does to the shared state. -/
inductive StateUpdate where
  | dispatched (agentId : String)
  | attempt (nodeId taskId : String) (attempt : AttemptRecord)
  | success (nodeId taskId summary : String)
  | failure (nodeId taskId : String) (failure : CycleFailure)
  | collect (nodeId : String) (facts codeRefs : List String)
  deriving DecidableEq, Repr

namespace OrchestratorState

/-- `task_results[node_id]`, after it has been set to `fresh` where it was missing. -/
def amend (nodeId : String) (fresh : TaskNodeResult) (f : TaskNodeResult → TaskNodeResult) :
    List (String × TaskNodeResult) → List (String × TaskNodeResult)
  | [] => [(nodeId, f fresh)]
  | (nodeId', result) :: results =>
    if nodeId' = nodeId then (nodeId, f result) :: results
    else (nodeId', result) :: amend nodeId fresh f results

/-- `_append_attempt`, `_record_success`, `_record_failure` and the others. -/
def update (state : OrchestratorState) : StateUpdate → OrchestratorState
  | .dispatched agentId =>
    { state with bundleDispatchedAgents := state.bundleDispatchedAgents.insert agentId }
  | .attempt nodeId taskId attempt =>
    { state with
      taskResults := amend nodeId ⟨nodeId, taskId, false, "", [], [], []⟩
        (fun result => { result with attempts := result.attempts ++ [attempt] }) state.taskResults }
  | .success nodeId taskId summary =>
    { state with
      taskResults := amend nodeId ⟨nodeId, taskId, true, summary, [], [], []⟩
        (fun result => { result with success := true, summary := summary }) state.taskResults }
  | .failure nodeId taskId failure =>
    { state with
      taskResults := amend nodeId ⟨nodeId, taskId, false, failure.summary, [], [], []⟩
        (fun result =>
          { result with
            success := false
            summary := failure.summary
            attempts := result.attempts ++
              if 0 < failure.iteration then [failure.record] else [] }) state.taskResults }
  | .collect nodeId facts codeRefs =>
    { state with
      taskResults := state.taskResults.map fun (nodeId', result) =>
        if nodeId' = nodeId then
          (nodeId', { result with
            facts := result.facts ++ facts, codeRefs := result.codeRefs ++ codeRefs })
        else (nodeId', result) }

end OrchestratorState

/-- The database and the shared state of the run. -/
structure RunState where
  db : Db
  shared : OrchestratorState

/-- What a coroutine awaits while a graph runs: a statement, the `SELECT` of a dependency, the request to
a gateway with its number and its answer, a change of the shared state. -/
inductive RunOp where
  | sql (op : Op)
  | poll (call : Nat) (acceptWhen : TaskStatus) (depTaskId : String)
  | post (call : Nat) (agentId taskId : String) (attempt : Nat) (accepted : Bool)
  | note (call : Nat) (u : StateUpdate)

def RunOp.exec (op : RunOp) (s : RunState) : RunState :=
  match op with
  | .sql op => { s with db := op.exec s.db }
  | .poll .. | .post .. => s
  | .note _ u => { s with shared := s.shared.update u }

/-- A coroutine of the server while a graph runs. -/
abbrev Runtime (α : Type) := Coro RunState RunOp Exn α

namespace Runtime

/-- A coroutine on the database. -/
def sql {α : Type} (c : Sql α) : Runtime α := c.within RunState.db .sql

def note (call : Nat) (u : StateUpdate) : Runtime Unit := .perform (.note call u) fun _ => ()

theorem every_sql {P : RunOp → Prop} {P' : Op → Prop} {α : Type} {c : Sql α} (hc : c.Every P')
    (hP : ∀ op, P' op → P (.sql op)) : (sql c).Every P := hc.within hP

end Runtime

/-- `OrchestratorDeps`; the text of `task_timeout`, and how often `poll_interval` fits into the 60 seconds
a cycle waits for a gateway. -/
structure OrchestratorDeps where
  taskIdMap : List (String × String)
  cookbookId : String
  taskTimeout : String := "300.0"
  gatewayPolls : Nat := 30
  deriving DecidableEq, Repr

end Krewhub
