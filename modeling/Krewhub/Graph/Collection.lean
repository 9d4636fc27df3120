import Krewhub.Graph.Retry
import Mathlib.Logic.Function.Iterate

/-!
# Facts collected once

Every call of a node that ends in success records it and appends what all events of the task carry to the
record, which the calls of the node share. A node fires once for each of its predecessors, so the record of a
fan-in holds everything as often as it has fired, and the summary is that of the last call.

Where the success of a node is recorded once, and its events carry the same from then on, the record holds what
they carry, and what a downstream agent is told of the node stays as it is.
-/

namespace Krewhub

/-! ### The upstream context -/

/-- What the context is put together from beside the records: the section of a task whose fork of the tape has
an anchor, and the keys that are read of a fact and of a code reference. -/
structure ContextReaders where
  anchored : String → Option String := fun _ => none
  claim : String → String := id
  paths : String → String := id

/-- The section of an upstream without an anchor. -/
def upstreamSection (read : ContextReaders) (nodeId taskId : String) (result : TaskNodeResult) : String :=
  let claims := ((result.facts.take 10).map read.claim).filter (· ≠ "")
  s!"### {nodeId} ({taskId}): {result.summary}\n" ++
    (if result.facts = [] then "" else "**Facts:**\n" ++ String.join (claims.map fun claim => s!"- {claim}\n")) ++
    (if result.codeRefs = [] then "" else
      "**Code changes:**\n" ++ String.join ((result.codeRefs.take 5).map fun ref => s!"- {read.paths ref}\n"))

/-- `tid_to_nid`: the last entry of the map with the task. -/
def OrchestratorDeps.nodeOf (deps : OrchestratorDeps) (taskId : String) : String :=
  ((deps.taskIdMap.reverse.find? (·.2 == taskId)).map (·.1)).getD taskId

/-- What is said of one upstream task. -/
def upstreamPart (read : ContextReaders) (deps : OrchestratorDeps) (shared : OrchestratorState)
    (taskId : String) : Option String :=
  read.anchored taskId <|>
    (shared.taskResults.lookup (deps.nodeOf taskId)).map (upstreamSection read (deps.nodeOf taskId) taskId)

def assembleUpstreamContext (read : ContextReaders) (deps : OrchestratorDeps) (shared : OrchestratorState)
    (upstreamTaskIds : List String) : String :=
  match upstreamTaskIds.filterMap (upstreamPart read deps shared) with
  | [] => ""
  | sections => "## Prior work from upstream tasks\n\n" ++ "\n".intercalate sections

/-! ### What is collected -/

/-- The task of a node. -/
def OrchestratorDeps.taskOf (deps : OrchestratorDeps) (nodeId : String) : String :=
  (deps.taskIdMap.lookup nodeId).getD ""

/-- The events of a task as `list_by_task` returns them. -/
def taskEvents (db : Db) (taskId : String) : List Event :=
  (db.events.rows.filter (·.taskId == some taskId)).mergeSort fun a b =>
    decide (a.sequence < b.sequence ∨ a.sequence = b.sequence ∧ a.createdAt ≤ b.createdAt)

/-- The facts and the code references the events of a task carry. -/
def carried (db : Db) (taskId : String) : List String × List String :=
  ((taskEvents db taskId).flatMap (·.facts), (taskEvents db taskId).flatMap (·.codeRefs))

/-- The facts and the code references on the record of a node. -/
def collectedOf (nodeId : String) (shared : OrchestratorState) : List String × List String :=
  match shared.taskResults.lookup nodeId with
  | none => ([], [])
  | some result => (result.facts, result.codeRefs)

/-- The record of the node says that it has succeeded. -/
def Succeeded (nodeId : String) (shared : OrchestratorState) : Prop :=
  ∃ result ∈ shared.taskResults.lookup nodeId, result.success = true

instance (nodeId : String) (shared : OrchestratorState) : Decidable (Succeeded nodeId shared) :=
  inferInstanceAs (Decidable (∃ result ∈ shared.taskResults.lookup nodeId, _))

/-- Once a node has succeeded no outcome of it is recorded any more, and no statement changes what the events
of its task carry. -/
def RecordsOnce (deps : OrchestratorDeps) (s : RunState) (_ : Nat) : RunOp → Prop
  | .note _ (.success nodeId ..) | .note _ (.failure nodeId ..) => ¬ Succeeded nodeId s.shared
  | .sql op => ∀ entry ∈ s.shared.taskResults, entry.2.success = true →
      carried (op.exec s.db) (deps.taskOf entry.1) = carried s.db (deps.taskOf entry.1)
  | _ => True

instance (deps : OrchestratorDeps) (s : RunState) (i : Nat) : DecidablePred (RecordsOnce deps s i) := by
  intro op
  unfold RecordsOnce
  split <;> infer_instance

/-- The record of the node holds what the events of its task carry. -/
def Collected (deps : OrchestratorDeps) (nodeId : String) (s : RunState) : Prop :=
  (s.shared.taskResults.lookup nodeId).isSome ∧ collectedOf nodeId s.shared = carried s.db (deps.taskOf nodeId)

/-- The calls of a run and the other coroutines of the server, side by side. -/
def runPool (deps : OrchestratorDeps) (threads : Nat → RunThread) (s : RunState) :
    Pool Nat RunState RunOp Exn (Option CycleEnd) :=
  .init (fun call => (threads call).program deps call) s

/-! ### The turns of a call -/

/-- How far a call has come to its end: its success is recorded, the events are read, and what they carry has
been collected. -/
inductive Collecting where
  | idle
  | succeeded (taskId : String)
  | read (taskId : String) (carried : List String × List String)
  | collected
  deriving DecidableEq

namespace Collecting

def allowed (deps : OrchestratorDeps) (step : StepCall) (q : Collecting) : RunOp → Prop
  | .note _ (.success nodeId taskId _) => q = .idle ∧ nodeId = step.nodeId ∧ taskId = deps.taskOf nodeId
  | .note _ (.collect nodeId facts codeRefs) =>
    nodeId = step.nodeId ∧ q = .read (deps.taskOf nodeId) (facts, codeRefs)
  | _ => True

def advance (q : Collecting) (op : RunOp) (s : RunState) : Collecting :=
  match op, q with
  | .note _ (.success _ taskId _), _ => .succeeded taskId
  | .sql .select, .succeeded taskId => .read taskId (carried s.db taskId)
  | .note _ (.collect ..), _ => .collected
  | _, _ => q

def final (q : Collecting) : CycleEnd → Prop
  | .ok _ => q = .collected
  | .error _ => True

section Follows

variable {call : Nat} {deps : OrchestratorDeps} {step : StepCall} {α : Type}

theorem follows_sql (c : Sql α) :
    (Runtime.sql c).Follows (allowed deps step) advance (fun q _ => q = .idle) .idle := by
  refine .of_every (P := fun op => ∃ op', op = .sql op') (Runtime.every_sql c.every_true fun op _ => ⟨op, rfl⟩)
    ?_ ?_ fun _ => rfl
  · rintro op ⟨op', rfl⟩
    trivial
  · rintro op ⟨op', rfl⟩ s
    cases op' <;> rfl

/-- The row that is read is that of the task. -/
theorem follows_get (taskId : String) :
    (Runtime.sql (TaskRepo.get taskId)).Follows (allowed deps step) advance
      (fun q found => q = .idle ∧ ∀ task ∈ found, task.id = taskId) .idle :=
  ⟨trivial, fun _ => ⟨rfl, fun _ htask => Table.key_eq_of_get htask⟩⟩

theorem follows_waitForTaskTerminal (taskId : String) (reads : Nat) :
    (waitForTaskTerminal taskId reads).Follows (allowed deps step) advance (fun q _ => q = .idle) .idle := by
  induction reads with
  | zero => rfl
  | succ reads ih =>
    refine (follows_sql _).bind fun q found hq => ?_
    subst hq
    cases found with
    | none => trivial
    | some task => exact .ite (fun _ => rfl) fun _ => ih

theorem follows_awaitAgent (tried : List String) (polls : Nat) :
    (awaitAgent deps step tried polls).Follows (allowed deps step) advance (fun q _ => q = .idle) .idle := by
  induction polls with
  | zero => exact ⟨trivial, fun _ => rfl⟩
  | succ polls ih =>
    refine .perform_bind trivial fun s => ?_
    cases pickWithDiversity step.lower _ step.taskKind tried s.shared.bundleDispatchedAgents with
    | none => exact ih
    | some chosen => rfl

theorem follows_recordFailure (taskId : String) (failure : CycleFailure) :
    (recordFailure call step taskId failure).Follows (allowed deps step) advance final .idle :=
  .perform_bind trivial fun _ => trivial

theorem follows_appendAttempt {taskId : String} {attempt : AttemptRecord} {f : Unit → Runtime CycleEnd}
    (hf : (f ()).Follows (allowed deps step) advance final .idle) :
    (appendAttempt call step taskId attempt >>= f).Follows (allowed deps step) advance final .idle :=
  .perform_bind trivial fun _ => hf

/-- What is collected is what the events have carried when they were read. -/
theorem follows_succeed {taskId : String} (htask : taskId = step.taskId deps) (agentId shownId summary : String) :
    (succeed call step taskId agentId shownId summary).Follows (allowed deps step) advance final .idle := by
  subst htask
  refine .perform_bind ⟨rfl, rfl, rfl⟩ fun _ => ?_
  have hcollect : (collectFactsAndCodeRefs call step (step.taskId deps)).Follows (allowed deps step) advance
      (fun q _ => q = .collected) (.succeeded (step.taskId deps)) :=
    ⟨trivial, fun _ => ⟨⟨rfl, rfl⟩, fun _ => rfl⟩⟩
  exact hcollect.bind fun q _ hq => hq

theorem follows_runAttempts (d : Draws) {task : Task} (htask : task.id = step.taskId deps) (left attempt : Nat)
    (tried : List String) (lastSummary : String) :
    (runAttempts call deps step d task left attempt tried lastSummary).Follows (allowed deps step) advance final
      .idle := by
  induction left generalizing attempt tried lastSummary with
  | zero => exact follows_recordFailure _ _
  | succ left ih =>
    refine (follows_awaitAgent _ _).bind fun q chosen hq => ?_
    subst hq
    cases chosen with
    | none => exact follows_appendAttempt (follows_recordFailure _ _)
    | some chosen =>
      refine .perform_bind trivial fun _ => .perform_bind trivial fun _ => ?_
      refine .ite (fun _ => follows_appendAttempt (ih _ _ _)) fun _ => ?_
      refine (follows_sql _).bind fun q _ hq => ?_
      subst hq
      refine (follows_waitForTaskTerminal _ _).bind fun q found hq => ?_
      subst hq
      cases found with
      | none => exact follows_appendAttempt (ih _ _ _)
      | some found =>
        refine .ite (fun _ => follows_appendAttempt (follows_succeed htask _ _ _)) fun _ => ?_
        refine follows_appendAttempt ((follows_sql _).bind fun q _ hq => ?_)
        subst hq
        exact ih _ _ _

theorem follows_attemptTask (d : Draws) {task : Task} (htask : task.id = step.taskId deps)
    (lastSummary : String) :
    (attemptTask call deps step d task lastSummary).Follows (allowed deps step) advance final .idle := by
  refine (follows_sql _).bind fun q _ hq => ?_
  subst hq
  exact follows_runAttempts d htask _ _ _ _

theorem follows_runTask (d : Draws) {task : Task} (htask : task.id = step.taskId deps) :
    (runTask call deps step d task).Follows (allowed deps step) advance final .idle := by
  refine .ite (fun _ => ?_) fun _ => follows_attemptTask _ htask _
  refine (follows_waitForTaskTerminal _ _).bind fun q found hq => ?_
  subst hq
  cases found with
  | none => exact follows_appendAttempt (follows_attemptTask _ htask _)
  | some found =>
    refine .ite (fun _ => follows_appendAttempt (follows_succeed htask _ _ _)) fun _ => ?_
    refine follows_appendAttempt ((follows_sql _).bind fun q _ hq => ?_)
    subst hq
    exact follows_attemptTask _ htask _

theorem follows_pollDependencies (acceptWhen : TaskStatus) (reads : Nat) (depId : String)
    (rest nextRound : List String) :
    (pollDependencies call acceptWhen reads depId rest nextRound).Follows (allowed deps step) advance
      (fun q _ => q = .idle) .idle := by
  induction reads generalizing depId rest nextRound with
  | zero => rfl
  | succ reads ih =>
    refine .perform_bind trivial fun s => ?_
    cases s.db.tasks.get depId with
    | none => rfl
    | some dep =>
      refine .ite (fun _ => rfl) fun _ => ?_
      dsimp only
      split
      · exact ih _ _ _
      · exact ih _ _ _
      · rfl

theorem follows_waitForDependencies (depTaskIds : List String) (acceptWhen : TaskStatus) (reads : Nat) :
    (waitForDependencies call depTaskIds acceptWhen reads).Follows (allowed deps step) advance
      (fun q _ => q = .idle) .idle := by
  unfold waitForDependencies
  split
  · rfl
  · exact follows_pollDependencies _ _ _ _ _

theorem follows_dispatchCycle (d : Draws) :
    (dispatchCycle call deps step d).Follows (allowed deps step) advance final .idle := by
  refine .ite (fun _ => follows_recordFailure _ _) fun _ => ?_
  refine (follows_get _).bind fun q found hq => ?_
  obtain ⟨rfl, hid⟩ := hq
  cases found with
  | none => exact follows_recordFailure _ _
  | some task =>
    refine .ite (fun _ => follows_succeed rfl _ _ _) fun _ => ?_
    refine .ite (fun _ => follows_runTask _ (hid task rfl)) fun _ => ?_
    refine (follows_waitForDependencies _ _ _).bind fun q waited hq => ?_
    subst hq
    cases waited with
    | error e => cases e <;> exact follows_recordFailure _ _
    | ok _ =>
      refine (follows_get _).bind fun q refreshed hq => ?_
      obtain ⟨rfl, hid'⟩ := hq
      refine .ite (fun _ => follows_succeed rfl _ _ _) fun _ => follows_runTask _ ?_
      cases refreshed with
      | none => exact hid task rfl
      | some refreshed => exact hid' refreshed rfl

end Follows

end Collecting

/-! ### The record of a node -/

section Record

variable {nodeId : String} {results : List (String × TaskNodeResult)} {shared : OrchestratorState}

theorem lookup_amend_of_ne {nodeId' : String} {fresh : TaskNodeResult} {f : TaskNodeResult → TaskNodeResult}
    (hne : nodeId ≠ nodeId') :
    (OrchestratorState.amend nodeId' fresh f results).lookup nodeId = results.lookup nodeId := by
  have hbeq : (nodeId == nodeId') = false := by simpa using hne
  induction results with
  | nil => simp [OrchestratorState.amend, List.lookup_cons, hbeq]
  | cons entry results ih =>
    obtain ⟨nodeId'', result⟩ := entry
    by_cases hsame : nodeId'' = nodeId'
    · subst hsame
      simp [OrchestratorState.amend, List.lookup_cons, hbeq]
    · simp [OrchestratorState.amend, hsame, List.lookup_cons, ih]

theorem lookup_collect_of_ne {nodeId' : String} {facts codeRefs : List String} (hne : nodeId ≠ nodeId') :
    (shared.update (.collect nodeId' facts codeRefs)).taskResults.lookup nodeId =
      shared.taskResults.lookup nodeId := by
  have hbeq : (nodeId == nodeId') = false := by simpa using hne
  rw [OrchestratorState.update]
  induction shared.taskResults with
  | nil => rfl
  | cons entry results ih =>
    obtain ⟨nodeId'', result⟩ := entry
    by_cases hsame : nodeId'' = nodeId'
    · subst hsame
      simp [List.lookup_cons, hbeq, ih]
    · simp [hsame, List.lookup_cons, ih]

/-- A change of the record of another node. -/
theorem lookup_update_of_ne {u : StateUpdate} (hne : u.node? ≠ some nodeId) :
    (shared.update u).taskResults.lookup nodeId = shared.taskResults.lookup nodeId := by
  cases u with
  | dispatched agentId => rfl
  | collect nodeId' facts codeRefs => exact lookup_collect_of_ne fun heq => hne (congrArg some heq.symm)
  | attempt nodeId' | success nodeId' | failure nodeId' =>
    exact lookup_amend_of_ne fun heq => hne (congrArg some heq.symm)

theorem collectedOf_congr {shared' : OrchestratorState}
    (h : shared'.taskResults.lookup nodeId = shared.taskResults.lookup nodeId) :
    collectedOf nodeId shared' = collectedOf nodeId shared := by rw [collectedOf, collectedOf, h]

theorem succeeded_congr {shared' : OrchestratorState}
    (h : shared'.taskResults.lookup nodeId = shared.taskResults.lookup nodeId) :
    Succeeded nodeId shared' ↔ Succeeded nodeId shared := by rw [Succeeded, Succeeded, h]

theorem collectedOf_of_lookup {result : TaskNodeResult} (h : shared.taskResults.lookup nodeId = some result) :
    collectedOf nodeId shared = (result.facts, result.codeRefs) := by rw [collectedOf, h]

theorem succeeded_of_lookup {result : TaskNodeResult} (h : shared.taskResults.lookup nodeId = some result) :
    Succeeded nodeId shared ↔ result.success = true := by
  rw [Succeeded, h]
  simp

/-- A record that is made anew has nothing collected, so a change that collects nothing leaves what there
is. -/
theorem collectedOf_amend {fresh : TaskNodeResult} {f : TaskNodeResult → TaskNodeResult}
    {shared' : OrchestratorState}
    (hrecord : shared'.taskResults = OrchestratorState.amend nodeId fresh f shared.taskResults)
    (hfresh : (fresh.facts, fresh.codeRefs) = ([], []))
    (hf : ∀ result, ((f result).facts, (f result).codeRefs) = (result.facts, result.codeRefs)) :
    collectedOf nodeId shared' = collectedOf nodeId shared := by
  have hlookup : shared'.taskResults.lookup nodeId =
      some (f ((shared.taskResults.lookup nodeId).getD fresh)) := by rw [hrecord, CycleBooks.lookup_amend]
  rw [collectedOf_of_lookup hlookup, hf, collectedOf]
  cases shared.taskResults.lookup nodeId with
  | none => exact hfresh
  | some result => rfl

theorem collectedOf_update {u : StateUpdate} (hu : ∀ facts codeRefs, u ≠ .collect nodeId facts codeRefs) :
    collectedOf nodeId (shared.update u) = collectedOf nodeId shared := by
  by_cases hnode : u.node? = some nodeId
  · cases u with
    | dispatched agentId => rfl
    | collect nodeId' facts codeRefs =>
      obtain rfl := Option.some.inj hnode
      exact absurd rfl (hu facts codeRefs)
    | attempt nodeId' | success nodeId' | failure nodeId' =>
      obtain rfl := Option.some.inj hnode
      exact collectedOf_amend rfl rfl fun _ => rfl
  · exact collectedOf_congr (lookup_update_of_ne hnode)

theorem lookup_update_collect (facts codeRefs : List String) :
    (shared.update (.collect nodeId facts codeRefs)).taskResults.lookup nodeId =
      (shared.taskResults.lookup nodeId).map fun result =>
        { result with facts := result.facts ++ facts, codeRefs := result.codeRefs ++ codeRefs } :=
  CycleBooks.lookup_collect facts codeRefs

/-- Whether the node has succeeded changes only when an outcome of it is recorded. -/
theorem succeeded_update {u : StateUpdate} (hsuccess : ∀ taskId summary, u ≠ .success nodeId taskId summary)
    (hfailure : ∀ taskId failure, u ≠ .failure nodeId taskId failure) :
    Succeeded nodeId (shared.update u) ↔ Succeeded nodeId shared := by
  by_cases hnode : u.node? = some nodeId
  · cases u with
    | dispatched agentId => exact Iff.rfl
    | success nodeId' taskId summary =>
      obtain rfl := Option.some.inj hnode
      exact absurd rfl (hsuccess taskId summary)
    | failure nodeId' taskId failure =>
      obtain rfl := Option.some.inj hnode
      exact absurd rfl (hfailure taskId failure)
    | collect nodeId' facts codeRefs =>
      obtain rfl := Option.some.inj hnode
      rw [Succeeded, Succeeded, lookup_update_collect]
      cases shared.taskResults.lookup nodeId' <;> simp
    | attempt nodeId' taskId attempt =>
      obtain rfl := Option.some.inj hnode
      have hlookup : (shared.update (.attempt nodeId' taskId attempt)).taskResults.lookup nodeId' =
          some _ := CycleBooks.lookup_amend
      rw [succeeded_of_lookup hlookup, Succeeded]
      cases shared.taskResults.lookup nodeId' <;> simp
  · exact succeeded_congr (lookup_update_of_ne hnode)

theorem succeeded_update_success (taskId summary : String) :
    Succeeded nodeId (shared.update (.success nodeId taskId summary)) := by
  have hlookup : (shared.update (.success nodeId taskId summary)).taskResults.lookup nodeId = some _ :=
    CycleBooks.lookup_amend
  rw [succeeded_of_lookup hlookup]

theorem not_succeeded_update_failure (taskId : String) (failure : CycleFailure) :
    ¬ Succeeded nodeId (shared.update (.failure nodeId taskId failure)) := by
  have hlookup : (shared.update (.failure nodeId taskId failure)).taskResults.lookup nodeId = some _ :=
    CycleBooks.lookup_amend
  rw [succeeded_of_lookup hlookup]
  simp

end Record

/-! ### The run -/

section Run

variable {deps : OrchestratorDeps} {threads : Nat → RunThread} {nodeId : String} {s : RunState}
  {q : Nat → Collecting}

def RunThread.collects (deps : OrchestratorDeps) : RunThread → Collecting → RunOp → Prop
  | .cycle step _ => Collecting.allowed deps step
  | .other _ => fun _ op => ∃ op', op = .sql op'

def RunThread.hasCollected : RunThread → Collecting → Option CycleEnd → Prop
  | .cycle _ _, q, result => ∃ r, result = some r ∧ q.final r
  | .other _, _, _ => True

def collectingProtocol (deps : OrchestratorDeps) (threads : Nat → RunThread) :
    Protocol Nat RunState RunOp (Option CycleEnd) Collecting where
  start := .idle
  allowed call := (threads call).collects deps
  advance := Collecting.advance
  final call := (threads call).hasCollected

theorem collects_thread (deps : OrchestratorDeps) (threads : Nat → RunThread) (call : Nat) :
    ((threads call).program deps call).Follows ((collectingProtocol deps threads).allowed call)
      (collectingProtocol deps threads).advance ((collectingProtocol deps threads).final call) .idle := by
  show Coro.Follows ((threads call).collects deps) Collecting.advance (threads call).hasCollected _ _
  cases threads call with
  | cycle step d => exact (Collecting.follows_dispatchCycle d).bind fun q r hr => ⟨r, rfl, hr⟩
  | other program =>
    have hprogram : (Runtime.sql program).Every fun op => ∃ op', op = .sql op' :=
      Runtime.every_sql (Coro.every_true program) fun op _ => ⟨op, rfl⟩
    have hruns : (Runtime.sql program).Follows (fun _ op => ∃ op', op = .sql op')
        Collecting.advance (fun _ _ => True) .idle :=
      .of_every_free hprogram (fun _ _ h => h) fun _ _ => trivial
    exact hruns.bind fun _ _ _ => trivial

/-- The coroutine is a call of the node. -/
def CallsNode (threads : Nat → RunThread) (nodeId : String) (call : Nat) : Prop :=
  ∃ step d, threads call = .cycle step d ∧ step.nodeId = nodeId

/-- What the record of a node holds while the call that has succeeded comes to its end. -/
def Collecting.Holds (deps : OrchestratorDeps) (nodeId : String) (s : RunState) : Collecting → Prop
  | .idle => False
  | .succeeded taskId => taskId = deps.taskOf nodeId ∧ collectedOf nodeId s.shared = ([], [])
  | .read taskId found =>
    taskId = deps.taskOf nodeId ∧ found = carried s.db taskId ∧ collectedOf nodeId s.shared = ([], [])
  | .collected => collectedOf nodeId s.shared = carried s.db (deps.taskOf nodeId)

/-- Nothing is collected before the node has succeeded, and one call collects for it then. -/
structure CollectsOnce (deps : OrchestratorDeps) (threads : Nat → RunThread) (nodeId : String) (s : RunState)
    (q : Nat → Collecting) : Prop where
  before : ¬ Succeeded nodeId s.shared →
    collectedOf nodeId s.shared = ([], []) ∧ ∀ i, CallsNode threads nodeId i → q i = .idle
  after : Succeeded nodeId s.shared → ∃ i, CallsNode threads nodeId i ∧ (q i).Holds deps nodeId s ∧
    ∀ j, CallsNode threads nodeId j → j ≠ i → q j = .idle

theorem Collecting.Holds.sql {op : Op} {c : Collecting} (h : c.Holds deps nodeId s)
    (hsame : carried (op.exec s.db) (deps.taskOf nodeId) = carried s.db (deps.taskOf nodeId)) :
    c.Holds deps nodeId ((RunOp.sql op).exec s) ∧
      (c.advance (.sql op) s).Holds deps nodeId ((RunOp.sql op).exec s) := by
  cases c with
  | idle => cases h
  | succeeded taskId =>
    refine ⟨h, ?_⟩
    cases op
    case select => exact ⟨h.1, rfl, h.2⟩
    all_goals exact h
  | read taskId found =>
    obtain ⟨rfl, hfound, hnone⟩ := h
    have hread : Holds deps nodeId ((RunOp.sql op).exec s) (.read (deps.taskOf nodeId) found) :=
      ⟨rfl, hfound.trans hsame.symm, hnone⟩
    refine ⟨hread, ?_⟩
    cases op <;> exact hread
  | collected =>
    have hcollected : Holds deps nodeId ((RunOp.sql op).exec s) .collected := Eq.trans h hsame.symm
    refine ⟨hcollected, ?_⟩
    cases op <;> exact hcollected

namespace CollectsOnce

variable {i : Nat}

theorem sql {op : Op} (h : CollectsOnce deps threads nodeId s q)
    (hsame : Succeeded nodeId s.shared →
      carried (op.exec s.db) (deps.taskOf nodeId) = carried s.db (deps.taskOf nodeId)) :
    CollectsOnce deps threads nodeId ((RunOp.sql op).exec s)
      (Function.update q i ((q i).advance (.sql op) s)) := by
  have hidle : ∀ j, q j = .idle → Function.update q i ((q i).advance (.sql op) s) j = .idle := by
    intro j hj
    by_cases hji : j = i
    · subst hji
      rw [Function.update_self, hj]
      cases op <;> rfl
    · rwa [Function.update_of_ne hji]
  refine ⟨fun hnot => ?_, fun hsucceeded => ?_⟩
  · obtain ⟨hnone, hall⟩ := h.before hnot
    exact ⟨hnone, fun j hj => hidle j (hall j hj)⟩
  · obtain ⟨i₀, hcalls, hholds, hothers⟩ := h.after hsucceeded
    refine ⟨i₀, hcalls, ?_, fun j hj hne => hidle j (hothers j hj hne)⟩
    obtain ⟨hstill, hnext⟩ := hholds.sql (hsame hsucceeded)
    by_cases hi : i₀ = i
    · subst hi
      rwa [Function.update_self]
    · rwa [Function.update_of_ne hi]

/-- A change that leaves of the node what it has collected and whether it has succeeded. -/
theorem of_same {s' : RunState} {q' : Nat → Collecting} (h : CollectsOnce deps threads nodeId s q)
    (hdb : s'.db = s.db) (hcollected : collectedOf nodeId s'.shared = collectedOf nodeId s.shared)
    (hsucceeded : Succeeded nodeId s'.shared ↔ Succeeded nodeId s.shared)
    (hq : ∀ j, CallsNode threads nodeId j → q' j = q j) : CollectsOnce deps threads nodeId s' q' := by
  refine ⟨fun hnot => ?_, fun hafter => ?_⟩
  · obtain ⟨hnone, hall⟩ := h.before (mt hsucceeded.mpr hnot)
    exact ⟨hcollected.trans hnone, fun j hj => (hq j hj).trans (hall j hj)⟩
  · obtain ⟨i₀, hcalls, hholds, hothers⟩ := h.after (hsucceeded.mp hafter)
    refine ⟨i₀, hcalls, ?_, fun j hj hne => (hq j hj).trans (hothers j hj hne)⟩
    rw [hq i₀ hcalls]
    cases hi : q i₀ with
    | idle =>
      rw [hi] at hholds
      exact hholds
    | succeeded taskId =>
      rw [hi] at hholds
      exact ⟨hholds.1, hcollected.trans hholds.2⟩
    | read taskId found =>
      rw [hi] at hholds
      exact ⟨hholds.1, by rw [hdb]; exact hholds.2.1, hcollected.trans hholds.2.2⟩
    | collected =>
      rw [hi] at hholds
      exact hcollected.trans (Eq.trans hholds (by rw [hdb]))

theorem succeeded_of_not_idle (h : CollectsOnce deps threads nodeId s q) (hcalls : CallsNode threads nodeId i)
    (hi : q i ≠ .idle) : Succeeded nodeId s.shared := by
  by_contra hnot
  exact hi ((h.before hnot).2 i hcalls)

theorem note {call : Nat} {u : StateUpdate} {step : StepCall} {d : Draws} (h : CollectsOnce deps threads nodeId s q)
    (hthread : threads i = .cycle step d) (hallowed : (q i).allowed deps step (.note call u))
    (honce : RecordsOnce deps s i (.note call u)) :
    CollectsOnce deps threads nodeId ((RunOp.note call u).exec s)
      (Function.update q i ((q i).advance (.note call u) s)) := by
  have hother : step.nodeId ≠ nodeId → ∀ j, CallsNode threads nodeId j →
      Function.update q i ((q i).advance (.note call u) s) j = q j := by
    rintro hne j ⟨step', d', hj, rfl⟩
    refine Function.update_of_ne ?_ _ _
    rintro rfl
    rw [hthread] at hj
    exact hne (congrArg StepCall.nodeId (RunThread.cycle.inj hj).1)
  have hcalls : step.nodeId = nodeId → CallsNode threads nodeId i := fun heq => ⟨step, d, hthread, heq⟩
  cases u with
  | dispatched agentId =>
    refine h.of_same rfl rfl Iff.rfl fun j _ => ?_
    exact congrFun (Function.update_eq_self i q) j
  | attempt nodeId' taskId attempt =>
    refine h.of_same rfl (collectedOf_update fun _ _ => nofun)
      (succeeded_update (fun _ _ => nofun) fun _ _ => nofun) fun j _ => ?_
    exact congrFun (Function.update_eq_self i q) j
  | failure nodeId' taskId failure =>
    have hq : Function.update q i ((q i).advance (.note call (.failure nodeId' taskId failure)) s) = q :=
      Function.update_eq_self i q
    rw [hq]
    by_cases hnode : nodeId' = nodeId
    · subst hnode
      obtain ⟨hnone, hall⟩ := h.before honce
      have hsame : collectedOf nodeId' (s.shared.update (.failure nodeId' taskId failure)) =
          collectedOf nodeId' s.shared := collectedOf_update fun _ _ => nofun
      exact ⟨fun _ => ⟨hsame.trans hnone, hall⟩,
        fun hsucceeded => absurd hsucceeded (not_succeeded_update_failure taskId failure)⟩
    · have hlookup : (s.shared.update (.failure nodeId' taskId failure)).taskResults.lookup nodeId =
          s.shared.taskResults.lookup nodeId := lookup_update_of_ne fun heq => hnode (Option.some.inj heq)
      exact h.of_same rfl (collectedOf_congr hlookup) (succeeded_congr hlookup) fun _ _ => rfl
  | success nodeId' taskId summary =>
    obtain ⟨hidle, rfl, rfl⟩ := hallowed
    by_cases hnode : step.nodeId = nodeId
    · subst hnode
      obtain ⟨hnone, hall⟩ := h.before honce
      have hsame : collectedOf step.nodeId (s.shared.update (.success step.nodeId
          (deps.taskOf step.nodeId) summary)) = collectedOf step.nodeId s.shared :=
        collectedOf_update fun _ _ => nofun
      refine ⟨fun hnot => absurd (succeeded_update_success _ _) hnot, fun _ => ⟨i, hcalls rfl, ?_, ?_⟩⟩
      · rw [Function.update_self]
        exact ⟨rfl, hsame.trans hnone⟩
      · intro j hj hne
        rw [Function.update_of_ne hne]
        exact hall j hj
    · have hlookup : (s.shared.update (.success step.nodeId (deps.taskOf step.nodeId)
          summary)).taskResults.lookup nodeId = s.shared.taskResults.lookup nodeId :=
        lookup_update_of_ne fun heq => hnode (Option.some.inj heq)
      exact h.of_same rfl (collectedOf_congr hlookup) (succeeded_congr hlookup) (hother hnode)
  | collect nodeId' facts codeRefs =>
    obtain ⟨rfl, hread⟩ := hallowed
    by_cases hnode : step.nodeId = nodeId
    · subst hnode
      have hbusy : q i ≠ .idle := by
        rw [hread]
        exact nofun
      have hsucceeded := h.succeeded_of_not_idle (hcalls rfl) hbusy
      obtain ⟨i₀, -, hholds, hothers⟩ := h.after hsucceeded
      obtain rfl : i = i₀ := by
        by_contra hne
        exact hbusy (hothers i (hcalls rfl) hne)
      rw [hread] at hholds
      obtain ⟨-, hfound, hnone⟩ := hholds
      obtain ⟨result, hlookup, hsuccess⟩ := hsucceeded
      rw [collectedOf_of_lookup hlookup] at hnone
      obtain ⟨hfacts, hrefs⟩ := Prod.mk.inj hnone
      have hlookup' : (s.shared.update (.collect step.nodeId facts codeRefs)).taskResults.lookup step.nodeId =
          some { result with facts := result.facts ++ facts, codeRefs := result.codeRefs ++ codeRefs } := by
        rw [lookup_update_collect, hlookup]
        rfl
      refine ⟨fun hnot => absurd ((succeeded_of_lookup hlookup').mpr hsuccess) hnot,
        fun _ => ⟨i, hcalls rfl, ?_, ?_⟩⟩
      · rw [Function.update_self]
        show collectedOf step.nodeId (s.shared.update (.collect step.nodeId facts codeRefs)) =
          carried s.db (deps.taskOf step.nodeId)
        rw [collectedOf_of_lookup hlookup', hfacts, hrefs, List.nil_append, List.nil_append]
        exact hfound
      · intro j hj hne
        rw [Function.update_of_ne hne]
        exact hothers j hj hne
    · have hlookup : (s.shared.update (.collect step.nodeId facts codeRefs)).taskResults.lookup nodeId =
          s.shared.taskResults.lookup nodeId := lookup_update_of_ne fun heq => hnode (Option.some.inj heq)
      exact h.of_same rfl (collectedOf_congr hlookup) (succeeded_congr hlookup) (hother hnode)

theorem exec {op : RunOp} (h : CollectsOnce deps threads nodeId s q)
    (hallowed : (threads i).collects deps (q i) op) (honce : RecordsOnce deps s i op) :
    CollectsOnce deps threads nodeId (op.exec s) (Function.update q i ((q i).advance op s)) := by
  cases op with
  | sql op =>
    refine h.sql fun hsucceeded => ?_
    obtain ⟨result, hlookup, hsuccess⟩ := hsucceeded
    exact honce (nodeId, result) (mem_of_lookup hlookup) hsuccess
  | poll call acceptWhen depTaskId =>
    refine h.of_same rfl rfl Iff.rfl fun j _ => ?_
    exact congrFun (Function.update_eq_self i q) j
  | post call agentId taskId attempt accepted =>
    refine h.of_same rfl rfl Iff.rfl fun j _ => ?_
    exact congrFun (Function.update_eq_self i q) j
  | note call u =>
    cases hthread : threads i with
    | other program =>
      rw [hthread] at hallowed
      obtain ⟨op', hop⟩ := hallowed
      cases hop
    | cycle step d =>
      rw [hthread] at hallowed
      exact h.note hthread hallowed honce

end CollectsOnce

/-- The summary of a node and what it has collected. -/
def toldOf (nodeId : String) (shared : OrchestratorState) : Option (String × List String × List String) :=
  (shared.taskResults.lookup nodeId).map fun result => (result.summary, result.facts, result.codeRefs)

theorem toldOf_congr {shared shared' : OrchestratorState}
    (h : shared'.taskResults.lookup nodeId = shared.taskResults.lookup nodeId) :
    toldOf nodeId shared' = toldOf nodeId shared := by rw [toldOf, toldOf, h]

/-- An attempt changes nothing that is told of a node with a record. -/
theorem toldOf_update_attempt {shared : OrchestratorState} {taskId : String} {attempt : AttemptRecord}
    (hsucceeded : Succeeded nodeId shared) :
    toldOf nodeId (shared.update (.attempt nodeId taskId attempt)) = toldOf nodeId shared := by
  obtain ⟨result, hlookup, -⟩ := hsucceeded
  have hlookup' : (shared.update (.attempt nodeId taskId attempt)).taskResults.lookup nodeId = some _ :=
    CycleBooks.lookup_amend
  rw [toldOf, toldOf, hlookup', hlookup]
  rfl

/-- A call of the node has come to its end, and this is what is told of the node. -/
structure Settled (deps : OrchestratorDeps) (threads : Nat → RunThread) (nodeId : String)
    (told : Option (String × List String × List String)) (s : RunState) (q : Nat → Collecting) : Prop where
  once : CollectsOnce deps threads nodeId s q
  succeeded : Succeeded nodeId s.shared
  told : toldOf nodeId s.shared = told
  ended : ∃ i, CallsNode threads nodeId i ∧ q i = .collected

namespace Settled

variable {told : Option (String × List String × List String)} {i : Nat}

theorem not_read (h : Settled deps threads nodeId told s q) {taskId : String} {found : List String × List String}
    (hcalls : CallsNode threads nodeId i) : q i ≠ .read taskId found := by
  intro hread
  obtain ⟨j, hj, hcollected⟩ := h.ended
  obtain ⟨i₀, -, -, hothers⟩ := h.once.after h.succeeded
  have hi : i = i₀ := by
    by_contra hne
    rw [hothers i hcalls hne] at hread
    cases hread
  have hj : j = i₀ := by
    by_contra hne
    rw [hothers j hj hne] at hcollected
    cases hcollected
  rw [hi, ← hj, hcollected] at hread
  cases hread

/-- The call stays at its end. -/
theorem still_ended {op : RunOp} (h : Settled deps threads nodeId told s q)
    (hallowed : (threads i).collects deps (q i) op) :
    ∃ j, CallsNode threads nodeId j ∧ Function.update q i ((q i).advance op s) j = .collected := by
  obtain ⟨j, hj, hcollected⟩ := h.ended
  refine ⟨j, hj, ?_⟩
  by_cases hji : j = i
  · subst hji
    obtain ⟨step, d, hthread, -⟩ := hj
    rw [hthread, hcollected] at hallowed
    rw [Function.update_self, hcollected]
    cases op with
    | sql op => cases op <;> rfl
    | poll | post => rfl
    | note call u =>
      cases u with
      | success => cases hallowed.1
      | dispatched | attempt | failure | collect => rfl
  · rwa [Function.update_of_ne hji]

theorem exec {op : RunOp} (h : Settled deps threads nodeId told s q)
    (hallowed : (threads i).collects deps (q i) op) (honce : RecordsOnce deps s i op) :
    Settled deps threads nodeId told (op.exec s) (Function.update q i ((q i).advance op s)) := by
  have hnext := h.once.exec hallowed honce
  have hended := h.still_ended hallowed
  cases op with
  | sql op => exact ⟨hnext, h.succeeded, h.told, hended⟩
  | poll | post => exact ⟨hnext, h.succeeded, h.told, hended⟩
  | note call u =>
    have hsame : u.node? ≠ some nodeId →
        Settled deps threads nodeId told ((RunOp.note call u).exec s)
          (Function.update q i ((q i).advance (.note call u) s)) := by
      intro hnode
      have hlookup : (s.shared.update u).taskResults.lookup nodeId = s.shared.taskResults.lookup nodeId :=
        lookup_update_of_ne hnode
      exact ⟨hnext, (succeeded_congr hlookup).mpr h.succeeded, (toldOf_congr hlookup).trans h.told, hended⟩
    by_cases hnode : u.node? = some nodeId
    · cases u with
      | dispatched agentId => exact hsame nofun
      | attempt nodeId' taskId attempt =>
        obtain rfl := Option.some.inj hnode
        have hsucceeded : Succeeded nodeId' (s.shared.update (.attempt nodeId' taskId attempt)) ↔
            Succeeded nodeId' s.shared := succeeded_update (fun _ _ => nofun) fun _ _ => nofun
        exact ⟨hnext, hsucceeded.mpr h.succeeded, (toldOf_update_attempt h.succeeded).trans h.told, hended⟩
      | success nodeId' | failure nodeId' =>
        obtain rfl := Option.some.inj hnode
        exact absurd h.succeeded honce
      | collect nodeId' facts codeRefs =>
        obtain rfl := Option.some.inj hnode
        cases hthread : threads i with
        | other program =>
          rw [hthread] at hallowed
          obtain ⟨op', hop⟩ := hallowed
          cases hop
        | cycle step d =>
          rw [hthread] at hallowed
          obtain ⟨rfl, hread⟩ := hallowed
          exact absurd hread (h.not_read ⟨step, d, hthread, rfl⟩)
    · exact hsame hnode

end Settled

/-- What is said of an upstream is made of what is told of its node. -/
theorem upstreamPart_congr {shared shared' : OrchestratorState} {taskId : String}
    (h : toldOf (deps.nodeOf taskId) shared' = toldOf (deps.nodeOf taskId) shared) (read : ContextReaders) :
    upstreamPart read deps shared' taskId = upstreamPart read deps shared taskId := by
  have hsection : ∀ results : List (String × TaskNodeResult), ∀ node,
      (results.lookup node).map (upstreamSection read node taskId) =
        ((results.lookup node).map fun result => (result.summary, result.facts, result.codeRefs)).map fun told =>
          upstreamSection read node taskId ⟨"", "", true, told.1, [], told.2.1, told.2.2⟩ := by
    intro results node
    rw [Option.map_map]
    rfl
  rw [toldOf, toldOf] at h
  rw [upstreamPart, upstreamPart, hsection, hsection, h]

/-- A call of the node has ended in success. -/
def EndsInSuccess (threads : Nat → RunThread) (nodeId : String)
    (p : Pool Nat RunState RunOp Exn (Option CycleEnd)) : Prop :=
  ∃ call agentId, CallsNode threads nodeId call ∧ p.returned call (some (.ok agentId))

theorem collected_of_endsInSuccess {p : Pool Nat RunState RunOp Exn (Option CycleEnd)}
    (hobeys : Pool.Obeys (collectingProtocol deps threads) p q)
    (h : CollectsOnce deps threads nodeId p.state q) (hends : EndsInSuccess threads nodeId p) :
    Settled deps threads nodeId (toldOf nodeId p.state.shared) p.state q ∧ Collected deps nodeId p.state := by
  obtain ⟨call, agentId, hcalls, hreturned⟩ := hends
  have hcollected : q call = .collected := by
    obtain ⟨step, d, hthread, -⟩ := hcalls
    have hfinal := (hobeys call).2 _ hreturned
    rw [show (collectingProtocol deps threads).final call = (threads call).hasCollected from rfl, hthread] at hfinal
    obtain ⟨r, hr, hfinal⟩ := hfinal
    cases Option.some.inj hr
    exact hfinal
  have hbusy : q call ≠ .idle := by
    rw [hcollected]
    exact nofun
  have hsucceeded := h.succeeded_of_not_idle hcalls hbusy
  obtain ⟨i₀, -, hholds, hothers⟩ := h.after hsucceeded
  obtain rfl : call = i₀ := by
    by_contra hne
    exact hbusy (hothers call hcalls hne)
  rw [hcollected] at hholds
  refine ⟨⟨h, hsucceeded, rfl, call, hcalls, hcollected⟩, ?_, hholds⟩
  obtain ⟨result, hlookup, -⟩ := hsucceeded
  exact Option.isSome_iff_exists.mpr ⟨result, hlookup⟩

/-- Whatever the order of the steps: where the success of a node is recorded once and its events carry the same
from then on, the record of every node that has succeeded holds what its events carry, and the context that is
put together of such nodes is the same at every later time. -/
theorem facts_collected_once (deps : OrchestratorDeps) (threads : Nat → RunThread) (db : Db) (bundleId : String)
    (first later : List Nat)
    (honce : Pool.Along RunOp.exec id (RecordsOnce deps) (runPool deps threads ⟨db, { bundleId := bundleId }⟩)
      ((first ++ later).map .run)) :
    let reached := fun schedule : List Nat => (runPool deps threads ⟨db, { bundleId := bundleId }⟩).run RunOp.exec id
      (schedule.map .run)
    (∀ nodeId, EndsInSuccess threads nodeId (reached first) → Collected deps nodeId (reached first).state) ∧
    ∀ read upstreamTaskIds,
      (∀ taskId ∈ upstreamTaskIds, EndsInSuccess threads (deps.nodeOf taskId) (reached first)) →
        assembleUpstreamContext read deps (reached (first ++ later)).state.shared upstreamTaskIds =
          assembleUpstreamContext read deps (reached first).state.shared upstreamTaskIds := by
  intro reached
  have hstart : Pool.Obeys (collectingProtocol deps threads)
      (runPool deps threads ⟨db, { bundleId := bundleId }⟩) fun _ => .idle :=
    Pool.obeys_init (collects_thread deps threads) _
  rw [List.map_append, Pool.along_append] at honce
  have hreached : ∀ nodeId, EndsInSuccess threads nodeId (reached first) →
      Collected deps nodeId (reached first).state ∧
        toldOf nodeId (reached (first ++ later)).state.shared = toldOf nodeId (reached first).state.shared := by
    intro nodeId hends
    obtain ⟨q, hobeys, h⟩ := Pool.inv_run_id (I := CollectsOnce deps threads nodeId)
      (fun s q i op hI hallowed hG => hI.exec hallowed hG) hstart
      ⟨fun _ => ⟨rfl, fun _ _ => rfl⟩, fun hsucceeded => by
        obtain ⟨result, hlookup, -⟩ := hsucceeded
        cases hlookup⟩ honce.1
    obtain ⟨hsettled, hcollected⟩ := collected_of_endsInSuccess hobeys h hends
    obtain ⟨q', -, hend⟩ := Pool.inv_run_id
      (I := Settled deps threads nodeId (toldOf nodeId (reached first).state.shared))
      (fun s q i op hI hallowed hG => hI.exec hallowed hG) hobeys hsettled honce.2
    refine ⟨hcollected, ?_⟩
    have htold := hend.told
    rwa [← Pool.run_append, ← List.map_append] at htold
  refine ⟨fun nodeId hends => (hreached nodeId hends).1, fun read upstreamTaskIds hall => ?_⟩
  have hparts : upstreamTaskIds.filterMap (upstreamPart read deps (reached (first ++ later)).state.shared) =
      upstreamTaskIds.filterMap (upstreamPart read deps (reached first).state.shared) := by
    apply List.filterMap_congr
    intro taskId htask
    exact upstreamPart_congr (hreached _ (hall taskId htask)).2 read
  rw [assembleUpstreamContext, assembleUpstreamContext, hparts]

end Run

/-! ### A node that fires again -/

section Again

variable {deps : OrchestratorDeps} {step : StepCall} {s : RunState} {task : Task} {call : Nat}

/-- What a call leaves that finds its task done. -/
def foundDone (deps : OrchestratorDeps) (step : StepCall) (s : RunState) : RunState :=
  let found := carried s.db (step.taskId deps)
  { s with
    shared := (s.shared.update (.success step.nodeId (step.taskId deps) "already complete")).update
      (.collect step.nodeId found.1 found.2) }

theorem run_dispatchCycle_of_done (htask : s.db.tasks.get (step.taskId deps) = some task)
    (hmapped : step.taskId deps ≠ "") (hdone : task.status = step.acceptWhen) (d : Draws) :
    (dispatchCycle call deps step d).run RunOp.exec s =
      (.ok (.ok (orElseText (some (task.claimedByAgentId.getD "")) "cached")), foundDone deps step s) := by
  have hget : (Runtime.sql (TaskRepo.get (step.taskId deps))).run RunOp.exec s = (.ok (some task), s) := by
    rw [← htask]
    rfl
  rw [dispatchCycle]
  dsimp only
  rw [if_neg hmapped, Coro.run_bind_ok RunOp.exec hget]
  dsimp only
  rw [if_pos hdone]
  rfl

theorem collectedOf_foundDone :
    collectedOf step.nodeId (foundDone deps step s).shared =
      ((collectedOf step.nodeId s.shared).1 ++ (carried s.db (step.taskId deps)).1,
        (collectedOf step.nodeId s.shared).2 ++ (carried s.db (step.taskId deps)).2) := by
  have hlookup : (s.shared.update (.success step.nodeId (step.taskId deps) "already complete")).taskResults.lookup
      step.nodeId = some _ := CycleBooks.lookup_amend
  have hsame : collectedOf step.nodeId (s.shared.update (.success step.nodeId (step.taskId deps)
      "already complete")) = collectedOf step.nodeId s.shared := collectedOf_update fun _ _ => nofun
  rw [← hsame, collectedOf_of_lookup hlookup, collectedOf, foundDone, lookup_update_collect, hlookup]
  rfl

/-- Every call that finds the task done adds all its events carry once more. -/
theorem collectedOf_foundDone_iterate (n : Nat) :
    collectedOf step.nodeId ((foundDone deps step)^[n] s).shared =
      ((collectedOf step.nodeId s.shared).1 ++ (List.replicate n (carried s.db (step.taskId deps)).1).flatten,
        (collectedOf step.nodeId s.shared).2 ++ (List.replicate n (carried s.db (step.taskId deps)).2).flatten) := by
  induction n generalizing s with
  | zero => simp
  | succ n ih =>
    have hdb : (foundDone deps step s).db = s.db := rfl
    rw [Function.iterate_succ_apply, ih, collectedOf_foundDone, hdb, List.replicate_succ, List.replicate_succ,
      List.flatten_cons, List.flatten_cons, List.append_assoc, List.append_assoc]

end Again

section Fact

/-- A task that is done, with one fact on its tape. -/
private def factState : RunState where
  db := { tasks := (∅ : Table Task).insert { id := "task_1", bundleId := "bun_1", status := .done }
          events := (∅ : Table Event).insert
            { id := "evt_1", taskId := some "task_1", type := .log, actorId := "coder@me", actorType := .agent
              body := "found", sequence := 1, facts := ["the sky is blue"], createdAt := 1 } }
  shared := { bundleId := "bun_1" }

private def factDeps : OrchestratorDeps := { taskIdMap := [("look", "task_1")], cookbookId := "cb_1" }

private def lookStep : StepCall := { nodeId := "look" }

private theorem carried_factState : carried factState.db "task_1" = (["the sky is blue"], []) := by
  have hevents : taskEvents factState.db "task_1" = factState.db.events.rows := List.mergeSort_singleton _
  rw [carried, hevents]
  rfl

/-- Two calls of the node, as for two predecessors. -/
private def lookTwice : Nat → RunThread := fun call =>
  .cycle lookStep (pathDraws (if call = 0 then 'a' else 'b'))

/-- No event comes or goes. -/
private def QuietTape (s : RunState) (_ : Nat) : RunOp → Prop
  | .note _ (.success nodeId ..) | .note _ (.failure nodeId ..) => ¬ Succeeded nodeId s.shared
  | .sql op => (op.exec s.db).events.rows = s.db.events.rows
  | _ => True

private instance (s : RunState) (i : Nat) : DecidablePred (QuietTape s i) := by
  intro op
  unfold QuietTape
  split <;> infer_instance

private theorem QuietTape.recordsOnce {s : RunState} {i : Nat} {op : RunOp} (h : QuietTape s i op) :
    RecordsOnce factDeps s i op := by
  cases op with
  | sql op =>
    intro entry _ _
    rw [carried, taskEvents, show (op.exec s.db).events.rows = _ from h]
    rfl
  | poll | post => trivial
  | note call u => cases u <;> exact h

/-- The first call has ended, and the second has begun. -/
theorem fact_collected_once :
    let reached := fun schedule : List Nat => (runPool factDeps lookTwice factState).run RunOp.exec id
      (schedule.map .run)
    Collected factDeps "look" (reached [0, 0, 0, 0]).state ∧
      assembleUpstreamContext {} factDeps (reached [0, 0, 0, 0, 1]).state.shared ["task_1"] =
        assembleUpstreamContext {} factDeps (reached [0, 0, 0, 0]).state.shared ["task_1"] := by
  intro reached
  have hquiet : Pool.Along RunOp.exec id QuietTape (runPool factDeps lookTwice factState)
      (([0, 0, 0, 0] ++ [1]).map .run) := by
    decide +kernel
  have hends : EndsInSuccess lookTwice "look" (reached [0, 0, 0, 0]) := ⟨0, "cached", ⟨_, _, rfl, rfl⟩, rfl⟩
  obtain ⟨hcollected, hsame⟩ := facts_collected_once factDeps lookTwice factState.db "bun_1" [0, 0, 0, 0] [1]
    (hquiet.mono fun _ _ _ => QuietTape.recordsOnce)
  refine ⟨hcollected "look" hends, hsame {} ["task_1"] fun taskId htask => ?_⟩
  rw [List.mem_singleton.mp htask]
  exact hends

/-- The state when the node has fired as often. -/
private def firedTimes : Nat → RunState
  | 0 => factState
  | n + 1 =>
    { firedTimes n with
      shared := ((firedTimes n).shared.update (.success "look" "task_1" "already complete")).update
        (.collect "look" ["the sky is blue"] []) }

private theorem run_look (call : Nat) (d : Draws) (n : Nat) :
    (dispatchCycle call factDeps lookStep d).run RunOp.exec (firedTimes n) =
      (.ok (.ok "cached"), firedTimes (n + 1)) := by
  have hdb : (firedTimes n).db = factState.db := by
    induction n with
    | zero => rfl
    | succ n ih => exact ih
  have hcarried : carried (firedTimes n).db (lookStep.taskId factDeps) = (["the sky is blue"], []) := by
    rw [hdb]
    exact carried_factState
  have htask : (firedTimes n).db.tasks.get (lookStep.taskId factDeps) =
      some { id := "task_1", bundleId := "bun_1", status := .done } := by
    rw [hdb]
    rfl
  rw [run_dispatchCycle_of_done htask (by decide) rfl, foundDone, hcarried]
  rfl

/-- The second call adds the fact again, and the context says so. -/
theorem fact_collected_twice :
    let once := (dispatchCycle 0 factDeps lookStep (pathDraws 'a')).run RunOp.exec factState
    let twice := (dispatchCycle 1 factDeps lookStep (pathDraws 'b')).run RunOp.exec once.2
    once.1 = .ok (.ok "cached") ∧ twice.1 = .ok (.ok "cached") ∧
      carried twice.2.db "task_1" = (["the sky is blue"], []) ∧
      collectedOf "look" twice.2.shared = (["the sky is blue", "the sky is blue"], []) ∧
      assembleUpstreamContext {} factDeps twice.2.shared ["task_1"] ≠
        assembleUpstreamContext {} factDeps once.2.shared ["task_1"] := by
  intro once twice
  have honce : once = (.ok (.ok "cached"), firedTimes 1) := run_look 0 _ 0
  have htwice : twice = (.ok (.ok "cached"), firedTimes 2) := by
    show (dispatchCycle 1 factDeps lookStep (pathDraws 'b')).run RunOp.exec once.2 = _
    rw [honce]
    exact run_look 1 _ 1
  rw [htwice, honce]
  refine ⟨rfl, rfl, carried_factState, rfl, ?_⟩
  decide +kernel

end Fact

end Krewhub
