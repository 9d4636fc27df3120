import Krewhub.Graph.Cycle

/-!
# The run of a bundle

`_run_one_bundle`: the graph code of the bundle is executed, the tasks of its nodes are looked up, the graph
is iterated, and the bundle gets the marker of its outcome. The calls of `dispatch_cycle` are coroutines of
their own, which the iteration starts and waits for; of the iteration itself only its awaits are left, and
how it ends. What the prompts are made of is left out.
-/

namespace Krewhub

/-- What `execute_graph_code` may raise: one of its own exceptions, with its text, or another. -/
inductive GraphError where
  | rejected (text : String)
  | other (e : Exn)
  deriving DecidableEq, Repr

/-- What one run takes from outside: what becomes of the graph code, what `repo_spec` raises where it is
not a dict, how many nodes the iteration yields and what it raises, and `str` of an exception. -/
structure GraphRun where
  execute : String → Except GraphError Unit := fun _ => .ok ()
  specError : Option Exn := none
  nodes : Nat := 0
  iterError : Option Exn := none
  text : Exn → String := fun _ => ""

/-- What is awaited while a bundle runs: a statement of the run, the next node of the graph, the `SELECT`
of the tasks before the verdict, and what the other coroutines await. -/
inductive RunnerOp where
  | own (op : Op)
  | next
  | reread
  | other (op : RunOp)

def RunnerOp.exec (op : RunnerOp) (s : RunState) : RunState :=
  match op with
  | .own op => { s with db := op.exec s.db }
  | .next | .reread => s
  | .other op => op.exec s

/-- A coroutine of the run of a bundle. -/
abbrev Runner (α : Type) := Coro RunState RunnerOp Exn α

namespace Runner

/-- A coroutine on the database. -/
def own {α : Type} (c : Sql α) : Runner α := c.within RunState.db .own

/-- A coroutine beside the run. -/
def other {α : Type} (c : Runtime α) : Runner α := c.within id .other

/-- `async for _node in run`, and the results there are when it ends. -/
def iterate : Nat → Runner (List (String × TaskNodeResult))
  | 0 => .perform .next (·.shared.taskResults)
  | nodes + 1 => do
    .perform .next fun _ => ()
    iterate nodes

end Runner

section Run

variable (run : GraphRun) (bundleId : String) (d : Draws)

/-- The milestone event; what it raises is caught. -/
def recordMilestone (bundle : Bundle) (evtBody : String) (success : Bool) : Sql Unit :=
  (EventRepo.create
    { id := d.hexId "evt_" 8
      cookbookId := bundle.cookbookId
      bundleId := some bundleId
      type := .milestone
      actorId := "graph-runner"
      actorType := .system
      body := evtBody
      payload := some
        { rest := if success then "\x7b\"graph_success\": true\x7d" else "\x7b\"graph_success\": false\x7d" }
      createdAt := d.clock }).tryCatch fun _ => some (return ())

def emitGraphMilestone (body : String) (success : Bool) : Runner Unit := do
  match ← Runner.own (BundleRepo.get bundleId) with
  | none => return ()
  | some bundle =>
    let evtBody := BundleRepo.truncate 500 body
    Runner.own (recordMilestone bundleId d bundle evtBody success)
    let _ ← Runner.own (BundleRepo.markGraphTerminal bundleId success (some evtBody) (d.sub 0))
    Runner.own Sql.record

/-- `bool(results) and all(r.success …)`. -/
def allSucceeded (results : List (String × TaskNodeResult)) : Bool :=
  !results.isEmpty && results.all (·.2.success)

/-- The failures of the results, or that there are none. -/
def failureReason (results : List (String × TaskNodeResult)) : String :=
  let failures := (results.filter (!·.2.success)).map fun (_, r) => s!"{r.nodeId}: {r.summary}"
  if failures.isEmpty then "no task results recorded" else "; ".intercalate failures

/-- The tasks that are not terminal, of which the milestone names five. -/
def nonTerminalText (nonTerminal : List Task) : String :=
  let ids := ", ".intercalate ((nonTerminal.take 5).map fun t => s!"{t.id}={t.status.text}")
  s!"graph finished but {nonTerminal.length} task(s) non-terminal: {ids}"

/-- The tasks of the bundle, read again once all nodes have succeeded. -/
def rereadTasks : Runner (List Task) :=
  .perform .reread fun s => s.db.tasks.rows.filter (·.bundleId == bundleId)

/-- The results are aggregated, and the bundle gets its marker. -/
def finalizeBundle (results : List (String × TaskNodeResult)) : Runner Unit := do
  if allSucceeded results then
    let bundleTasks ← rereadTasks bundleId
    let nonTerminal := bundleTasks.filter (!·.status.isTerminal)
    if nonTerminal.isEmpty then
      emitGraphMilestone bundleId d s!"Graph completed: {results.length} nodes succeeded" true
    else emitGraphMilestone bundleId d (nonTerminalText nonTerminal) false
  else emitGraphMilestone bundleId d (failureReason results) false

def executeBundle : Runner Unit := do
  match ← Runner.own (BundleRepo.get bundleId) with
  | none => return ()
  | some bundle =>
    match bundle.graphCode with
    | none => return ()
    | some graphCode =>
      if bundle.cookbookId.isNone then
        emitGraphMilestone bundleId d "bundle has no cookbook_id" false
      else match run.execute graphCode with
        | .error (.other e) => .raise e
        | .error (.rejected text) =>
          emitGraphMilestone bundleId d s!"graph compile failed: {text}" false
        | .ok () =>
          let taskIdMap ← Runner.own (TaskRepo.buildNodeIdMap bundleId)
          if taskIdMap.isEmpty then
            emitGraphMilestone bundleId d
              "no graph-bound tasks found for bundle (graph_node_id is NULL on all rows)" false
          else match run.specError with
            | some e => .raise e
            | none =>
              let results ← Runner.iterate run.nodes
              match run.iterError with
              | some e => emitGraphMilestone bundleId d s!"graph.iter failed: {run.text e}" false
              | none => finalizeBundle bundleId d results

/-- `_run_one_bundle` up to its `finally`. -/
def runOneBundle : Runner Unit :=
  (executeBundle run bundleId (d.sub 0)).tryCatch fun e =>
    some (emitGraphMilestone bundleId (d.sub 1) s!"runner crash: {run.text e}" false)

end Run

/-! ### The exceptions of a run -/

section Throws

variable {run : GraphRun} {bundleId : String} {d : Draws} {E : Exn → Prop}

theorem throws_own {α : Type} {c : Sql α} (hc : c.Throws E) : (Runner.own c).Throws E := by
  induction c with
  | done a => trivial
  | raise e => exact hc
  | await op next ih => exact fun s => ih s.db (hc s.db)

theorem throws_recordMilestone {bundle : Bundle} {evtBody : String} {success : Bool} :
    (recordMilestone bundleId d bundle evtBody success).Throws E :=
  .tryCatch fun _ => trivial

theorem throws_emitGraphMilestone {body : String} {success : Bool} :
    (emitGraphMilestone bundleId d body success).Throws E := by
  have hrow : ∀ u, (BundleRepo.updateRow bundleId u).Throws E := fun u _ _ _ => trivial
  refine .bind (throws_own (Coro.throws_perform _ _)) fun bundle => ?_
  cases bundle with
  | none => trivial
  | some bundle =>
    refine .bind (throws_own throws_recordMilestone) fun _ => .bind (throws_own ?_) fun _ =>
      throws_own Sql.throws_record
    exact .ite (fun _ => hrow _) fun _ => hrow _

/-- What a run raises it catches, and the milestone of it raises nothing. -/
theorem throws_runOneBundle : (runOneBundle run bundleId d).Throws fun _ => False :=
  .tryCatch fun _ => throws_emitGraphMilestone

end Throws

end Krewhub
