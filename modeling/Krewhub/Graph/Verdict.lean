import Krewhub.Base.Interleave
import Krewhub.Graph.Runner

/-!
# The verdict on a bundle

A run that finds the code of its bundle ends with a marker on it, whatever happens, and only
`reopen_for_rerun` takes a marker off. The marker is that of a success only where some node has a result,
every node that has one has succeeded, and every task of the bundle was terminal when the run has read them
again; done they need not be.
-/

namespace Krewhub

/-- The state beside a run, the results it has found at the end of the iteration, the database it has read
the tasks from, and whether it has stamped the bundle. -/
structure RunnerLog where
  run : RunState
  results : List (String × TaskNodeResult) := []
  reread : Option Db := none
  stamped : Bool := false

/-- The marker of a run, which says whether it was a success. -/
def BundleUpdate.marker? : BundleUpdate → Option Bool
  | .graphSuccess _ => some true
  | .graphFailure _ => some false
  | _ => none

namespace RunnerOp

/-- The marker the run puts on a bundle. -/
def marker? : RunnerOp → Option Bool
  | .own (.updateBundle _ u _) => u.marker?
  | _ => none

end RunnerOp

def RunnerLog.exec (op : RunnerOp) (s : RunnerLog) : RunnerLog where
  run := op.exec s.run
  results := match op with
    | .next => s.run.shared.taskResults
    | _ => s.results
  reread := match op with
    | .reread => some s.run.db
    | _ => s.reread
  stamped := s.stamped || op.marker?.isSome

/-- The run of a bundle, and any other coroutines beside it; none has begun. -/
def runnerPool (run : GraphRun) (bundleId : String) (d : Draws) (others : Nat → Runtime Unit)
    (s : RunState) : Pool (Option Nat) RunnerLog RunnerOp Exn Unit :=
  .init (fun
    | none => (runOneBundle run bundleId d).on RunnerLog.run
    | some i => (Runner.other (others i)).on RunnerLog.run) { run := s }

/-! ### The turns of a run -/

/-- The bundle is there, with its code. -/
def Coded (bundleId : String) (db : Db) : Prop := ∃ b ∈ db.bundles.get bundleId, b.graphCode.isSome

/-- The bundle has a terminal marker. -/
def Marked (bundleId : String) (db : Db) : Prop :=
  ∃ b ∈ db.bundles.get bundleId, b.graphTerminalAt.isSome ∨ b.blockedReason.isSome

instance (bundleId : String) (db : Db) : Decidable (Coded bundleId db) :=
  inferInstanceAs (Decidable (∃ b ∈ db.bundles.get bundleId, _))

instance (bundleId : String) (db : Db) : Decidable (Marked bundleId db) :=
  inferInstanceAs (Decidable (∃ b ∈ db.bundles.get bundleId, _))

/-- What the run has found so far, whether it has stamped the bundle, and whether it has missed the bundle
or its code. -/
structure RunnerTurn where
  results : List (String × TaskNodeResult) := []
  reread : Option Db := none
  stamped : Bool := false
  missed : Bool := false

/-- All nodes that have a result have succeeded, and every task of the bundle was terminal when the run has
read them again. -/
def Deserved (bundleId : String) (results : List (String × TaskNodeResult)) (reread : Option Db) : Prop :=
  allSucceeded results = true ∧
    ∃ db ∈ reread, ∀ task ∈ db.tasks, task.bundleId = bundleId → task.status.isTerminal = true

namespace RunnerTurn

variable (bundleId : String)

/-- The statements of a run that are not its marker. -/
def Unmarked : Op → Prop
  | .select | .commit | .aside | .insertEvent .. => True
  | _ => False

def allowed (q : RunnerTurn) : RunnerOp → Prop
  | .own op => Unmarked op ∨ ∃ u success, op = .updateBundle bundleId u none ∧
      u.marker? = some success ∧ (success = true → Deserved bundleId q.results q.reread)
  | .next | .reread => True
  | .other _ => False

def advance (q : RunnerTurn) (op : RunnerOp) (s : RunState) : RunnerTurn where
  results := match op with
    | .next => s.shared.taskResults
    | _ => q.results
  reread := match op with
    | .reread => some s.db
    | _ => q.reread
  stamped := q.stamped || op.marker?.isSome
  missed := q.missed || !decide (Coded bundleId s.db)

/-- The run has ended with a marker, or has missed the bundle. -/
def Ended (q : RunnerTurn) : Prop := q.stamped = true ∨ q.missed = true

variable {bundleId} {q : RunnerTurn}

theorem Ended.advance (h : q.Ended) (op : RunnerOp) (s : RunState) : (q.advance bundleId op s).Ended := by
  rcases h with h | h
  · refine .inl ?_
    show (q.stamped || _) = true
    rw [h, Bool.true_or]
  · refine .inr ?_
    show (q.missed || _) = true
    rw [h, Bool.true_or]

section Follows

variable {α : Type} {run : GraphRun} {d : Draws}

theorem Unmarked.marker?_own {op : Op} (h : Unmarked op) : (RunnerOp.own op).marker? = none := by
  cases op
  case updateBundle => cases h
  all_goals rfl

theorem plainOps_unmarked : PlainOps Unmarked := ⟨trivial, trivial, trivial⟩

/-- Statements of the run that are no marker, and what they keep. -/
theorem follows_own {c : Sql α} (hc : c.Every Unmarked) {I : RunnerTurn → Prop} (hI : I q)
    (hkeep : ∀ q op s, Unmarked op → I q → I (q.advance bundleId (.own op) s)) :
    (Runner.own c).Follows (allowed bundleId) (advance bundleId) (fun q' _ => I q') q := by
  induction c generalizing q with
  | done a => exact hI
  | raise e => trivial
  | await op next ih =>
    exact ⟨.inl hc.1, fun s => ih s.db (hc.2 s.db) (hkeep q op s hc.1 hI)⟩

theorem follows_markGraphTerminal {success : Bool} {reason : Option String}
    (hdeserved : success = true → Deserved bundleId q.results q.reread) :
    (Runner.own (BundleRepo.markGraphTerminal bundleId success reason d)).Follows (allowed bundleId)
      (advance bundleId) (fun q' _ => q'.Ended) q := by
  have hrow : ∀ u : BundleUpdate, u.marker? = some success →
      (Runner.own (BundleRepo.updateRow bundleId u)).Follows (allowed bundleId) (advance bundleId)
        (fun q' _ => q'.Ended) q := by
    intro u hu
    refine ⟨.inr ⟨u, success, rfl, hu, hdeserved⟩, fun s => ?_⟩
    have hstamped : (q.advance bundleId (.own (.updateBundle bundleId u none)) s).Ended := by
      refine .inl ?_
      show (q.stamped || u.marker?.isSome) = true
      rw [hu, Option.isSome_some, Bool.or_true]
    exact follows_own (.bind (Sql.every_commit plainOps_unmarked) fun _ =>
      BundleRepo.every_get plainOps_unmarked _) hstamped fun _ _ _ _ h => h.advance _ _
  unfold BundleRepo.markGraphTerminal
  cases success with
  | true => exact hrow _ rfl
  | false => exact hrow _ rfl

theorem every_recordMilestone {bundle : Bundle} {evtBody : String} {success : Bool} :
    (recordMilestone bundleId d bundle evtBody success).Every Unmarked := by
  refine .tryCatch (EventRepo.every_create plainOps_unmarked trivial) fun e c hc => ?_
  rw [← Option.some.inj hc]
  trivial

/-- A milestone ends a run. -/
theorem follows_emitGraphMilestone {body : String} {success : Bool}
    (hdeserved : success = true → Deserved bundleId q.results q.reread) :
    (emitGraphMilestone bundleId d body success).Follows (allowed bundleId) (advance bundleId)
      (fun q' _ => q'.Ended) q := by
  refine ⟨.inl trivial, fun s => ?_⟩
  dsimp only [Coro.within, Coro.bind]
  cases hbundle : s.db.bundles.get bundleId with
  | none =>
    refine .inr ?_
    show (q.missed || !decide (Coded bundleId s.db)) = true
    have hcoded : ¬ Coded bundleId s.db := by
      rintro ⟨b, hb, _⟩
      rw [hbundle] at hb
      cases hb
    rw [decide_eq_false hcoded, Bool.not_false, Bool.or_true]
  | some bundle =>
    have hrecord : (Runner.own (recordMilestone bundleId d bundle (BundleRepo.truncate 500 body)
        success)).Follows (allowed bundleId) (advance bundleId)
        (fun q' _ => success = true → Deserved bundleId q'.results q'.reread)
        (q.advance bundleId (.own .select) s) :=
      follows_own every_recordMilestone hdeserved fun _ _ _ _ h => h
    refine hrecord.bind fun q' _ hq' => ?_
    refine (follows_markGraphTerminal hq').bind fun q'' _ hq'' => ?_
    exact follows_own (Sql.every_record plainOps_unmarked) hq'' fun _ _ _ _ h => h.advance _ _

theorem follows_failureMilestone {body : String} :
    (emitGraphMilestone bundleId d body false).Follows (allowed bundleId) (advance bundleId)
      (fun q' _ => q'.Ended) q :=
  follows_emitGraphMilestone fun h => absurd h Bool.false_ne_true

/-- A run that has read the tasks again. -/
theorem follows_finalizeBundle {results : List (String × TaskNodeResult)} (hresults : q.results = results) :
    (finalizeBundle bundleId d results).Follows (allowed bundleId) (advance bundleId)
      (fun q' _ => q'.Ended) q := by
  unfold finalizeBundle
  split
  · rename_i hall
    refine ⟨trivial, fun s => ?_⟩
    refine .ite (fun hterminal => follows_emitGraphMilestone fun _ => ?_) fun _ =>
      follows_failureMilestone
    refine ⟨?_, s.db, rfl, fun task htask hbundle => ?_⟩
    · exact (congrArg allSucceeded hresults).trans hall
    · rw [List.isEmpty_iff, List.filter_eq_nil_iff] at hterminal
      have hmem : task ∈ s.db.tasks.rows.filter (·.bundleId == bundleId) :=
        List.mem_filter.mpr ⟨htask, by rw [hbundle, beq_self_eq_true]⟩
      simpa using hterminal task hmem
  · exact follows_failureMilestone

theorem follows_iterate {f : List (String × TaskNodeResult) → Runner Unit}
    (hf : ∀ q' : RunnerTurn, (f q'.results).Follows (allowed bundleId) (advance bundleId)
      (fun q'' _ => q''.Ended) q') (nodes : Nat) :
    (Runner.iterate nodes >>= f).Follows (allowed bundleId) (advance bundleId) (fun q' _ => q'.Ended)
      q := by
  induction nodes generalizing q with
  | zero => exact ⟨trivial, fun s => hf (q.advance bundleId .next s)⟩
  | succ nodes ih => exact ⟨trivial, fun s => ih⟩

theorem follows_executeBundle :
    (executeBundle run bundleId d).Follows (allowed bundleId) (advance bundleId) (fun q' _ => q'.Ended)
      q := by
  have hmissed : ∀ s : RunState, ¬ Coded bundleId s.db → (q.advance bundleId (.own .select) s).Ended := by
    intro s hcoded
    refine .inr ?_
    show (q.missed || !decide (Coded bundleId s.db)) = true
    rw [decide_eq_false hcoded, Bool.not_false, Bool.or_true]
  refine ⟨.inl trivial, fun s => ?_⟩
  dsimp only [Coro.within, Coro.bind]
  cases hbundle : s.db.bundles.get bundleId with
  | none =>
    refine hmissed s ?_
    rintro ⟨b, hb, _⟩
    rw [hbundle] at hb
    cases hb
  | some bundle =>
    dsimp only
    cases hcode : bundle.graphCode with
    | none =>
      refine hmissed s ?_
      rintro ⟨b, hb, hb'⟩
      rw [hbundle] at hb
      obtain rfl := Option.some.inj hb
      rw [hcode] at hb'
      cases hb'
    | some graphCode =>
      refine .ite (fun _ => follows_failureMilestone) fun _ => ?_
      cases run.execute graphCode with
      | error e =>
        cases e with
        | other e => trivial
        | rejected text => exact follows_failureMilestone
      | ok _ =>
        refine ⟨.inl trivial, fun s' => ?_⟩
        refine .ite (fun _ => follows_failureMilestone) fun _ => ?_
        cases run.specError with
        | some e => trivial
        | none =>
          refine follows_iterate (fun q' => ?_) run.nodes
          cases run.iterError with
          | some e => exact follows_failureMilestone
          | none => exact follows_finalizeBundle rfl

theorem follows_runOneBundle :
    (runOneBundle run bundleId d).Follows (allowed bundleId) (advance bundleId) (fun q' _ => q'.Ended) q :=
  follows_executeBundle.tryCatch fun _ _ => follows_failureMilestone

end Follows

end RunnerTurn

/-! ### Markers -/

/-- A bundle stays, and only an update of it changes it. -/
theorem Op.get_bundle_exec {db : Db} {bundleId : String} {b : Bundle} (h : db.bundles.get bundleId = some b)
    (op : Op) :
    (op.exec db).bundles.get bundleId = some b ∨ ∃ u expected,
      op = .updateBundle bundleId u expected ∧ (op.exec db).bundles.get bundleId = some (u.apply b) := by
  cases op
  case insertBundle b' => exact .inl (Table.get_insert_of_get h b')
  case updateBundle id u expected =>
    have hget : (Op.exec (.updateBundle id u expected) db).bundles.get bundleId =
        if bundleId = id then (db.bundles.get bundleId).map fun b =>
          if Db.matchesVersion expected b.resourceVersion then u.apply b else b
        else db.bundles.get bundleId :=
      Table.get_amend (fun b => by split <;> simp) bundleId
    by_cases hid : bundleId = id
    · subst hid
      rw [hget, if_pos rfl, h, Option.map_some]
      split
      · exact .inr ⟨u, expected, rfl, rfl⟩
      · exact .inl rfl
    · rw [hget, if_neg hid]
      exact .inl h
  case insertTask t =>
    rw [Op.exec]
    split <;> exact .inl h
  case insertEvent e reported =>
    rw [Op.exec]
    split <;> exact .inl h
  all_goals exact .inl h

theorem BundleUpdate.graphCode_isSome_apply {b : Bundle} (h : b.graphCode.isSome) (u : BundleUpdate) :
    (u.apply b).graphCode.isSome := by
  cases u <;> first | exact h | rfl

/-- Only `reopen_for_rerun` takes a marker off. -/
theorem BundleUpdate.marked_apply {b : Bundle} (h : b.graphTerminalAt.isSome ∨ b.blockedReason.isSome)
    {u : BundleUpdate} (hu : u ≠ .reopenForRerun) :
    (u.apply b).graphTerminalAt.isSome ∨ (u.apply b).blockedReason.isSome := by
  cases u
  case reopenForRerun => exact absurd rfl hu
  case status s claimedAt cookedAt digestedAt blockedReason =>
    refine h.imp id fun hblocked => ?_
    show (blockedReason <|> b.blockedReason).isSome
    cases blockedReason with
    | none => exact hblocked
    | some reason => rfl
  case graphSuccess now =>
    refine .inl ?_
    show (b.graphTerminalAt <|> some now).isSome
    cases b.graphTerminalAt <;> rfl
  case graphFailure reason => exact .inr rfl
  all_goals exact h

theorem BundleUpdate.marked_of_marker {u : BundleUpdate} {success : Bool} (hu : u.marker? = some success)
    (b : Bundle) : (u.apply b).graphTerminalAt.isSome ∨ (u.apply b).blockedReason.isSome := by
  cases u
  case graphSuccess now =>
    refine .inl ?_
    show (b.graphTerminalAt <|> some now).isSome
    cases b.graphTerminalAt <;> rfl
  case graphFailure reason => exact .inr rfl
  all_goals cases hu

section Markers

variable {bundleId : String} {db : Db}

theorem Coded.exec (h : Coded bundleId db) (op : Op) : Coded bundleId (op.exec db) := by
  obtain ⟨b, hb, hcode⟩ := h
  rcases Op.get_bundle_exec hb op with hsame | ⟨u, expected, -, happly⟩
  · exact ⟨b, hsame, hcode⟩
  · exact ⟨u.apply b, happly, u.graphCode_isSome_apply hcode⟩

theorem Marked.exec (h : Marked bundleId db) {op : Op}
    (hop : ∀ expected, op ≠ .updateBundle bundleId .reopenForRerun expected) :
    Marked bundleId (op.exec db) := by
  obtain ⟨b, hb, hmarked⟩ := h
  rcases Op.get_bundle_exec hb op with hsame | ⟨u, expected, rfl, happly⟩
  · exact ⟨b, hsame, hmarked⟩
  · refine ⟨u.apply b, happly, BundleUpdate.marked_apply hmarked ?_⟩
    rintro rfl
    exact hop expected rfl

theorem marked_of_marker {u : BundleUpdate} {success : Bool} (h : Coded bundleId db)
    (hu : u.marker? = some success) : Marked bundleId (Op.exec (.updateBundle bundleId u none) db) := by
  obtain ⟨b, hb, -⟩ := h
  refine ⟨u.apply b, ?_, BundleUpdate.marked_of_marker hu b⟩
  have hget : (Op.exec (.updateBundle bundleId u none) db).bundles.get bundleId =
      (db.bundles.get bundleId).map fun b =>
        if Db.matchesVersion none b.resourceVersion then u.apply b else b :=
    Table.get_amend_self fun b => by split <;> simp
  rw [hget, hb]
  rfl

/-- A bundle with a marker is not listed. -/
theorem Marked.not_listed (h : Marked bundleId db) {listed : List Bundle} {db' : Db}
    (hrun : BundleRepo.listRunnable.run Op.exec db = (.ok listed, db')) :
    ∀ b ∈ listed, b.id ≠ bundleId := by
  rintro b hb rfl
  rw [BundleRepo.listRunnable, Sql.run_select] at hrun
  cases hrun
  obtain ⟨b', hb', hmarked⟩ := h
  rw [List.mem_mergeSort, List.mem_filter] at hb
  obtain rfl : b = b' := Table.eq_of_key_eq hb.1 (Table.mem_of_get hb')
    (Table.key_eq_of_get hb').symm
  have hrunnable := hb.2
  rw [BundleRepo.isRunnable] at hrunnable
  simp only [Bool.and_eq_true, Option.isNone_iff_eq_none] at hrunnable
  rw [hrunnable.1.2, hrunnable.2] at hmarked
  simp at hmarked

end Markers

/-! ### Every run -/

def runnerProtocol (bundleId : String) : Protocol (Option Nat) RunnerLog RunnerOp Unit RunnerTurn where
  start := {}
  allowed
    | none => RunnerTurn.allowed bundleId
    | some _ => fun _ op => ∃ op', op = .other op'
  advance q op s := q.advance bundleId op s.run
  final
    | none => fun q _ => q.Ended
    | some _ => fun _ _ => True

section Runs

variable {bundleId : String} {s : RunnerLog} {q : Option Nat → RunnerTurn} {i : Option Nat} {op : RunnerOp}

theorem obeys_runnerPool (run : GraphRun) (bundleId : String) (d : Draws) (others : Nat → Runtime Unit)
    (st : RunState) :
    Pool.Obeys (runnerProtocol bundleId) (runnerPool run bundleId d others st) fun _ => {} := by
  refine Pool.obeys_init (fun i => ?_) _
  cases i with
  | none => exact RunnerTurn.follows_runOneBundle.on RunnerLog.run
  | some i =>
    have hothers : (Runner.other (others i)).Every fun op => ∃ op', op = .other op' :=
      (Coro.every_true (others i)).within fun op _ => ⟨op, rfl⟩
    exact Coro.Follows.of_every_free (hothers.on RunnerLog.run) (fun _ _ h => h) fun _ _ => trivial

/-- The log is what the run has come to know. -/
structure Logged (s : RunnerLog) (q : RunnerTurn) : Prop where
  results : s.results = q.results
  reread : s.reread = q.reread
  stamped : s.stamped = q.stamped

theorem Logged.exec (h : Logged s (q none))
    (hallowed : (runnerProtocol bundleId).allowed i (q i) op) :
    Logged (RunnerLog.exec op s)
      (Function.update q i ((q i).advance bundleId op s.run) none) := by
  cases i with
  | none =>
    rw [Function.update_self]
    refine ⟨?_, ?_, ?_⟩
    · cases op
      case next => rfl
      all_goals exact h.results
    · cases op
      case reread => rfl
      all_goals exact h.reread
    · exact congrArg (· || op.marker?.isSome) h.stamped
  | some i =>
    obtain ⟨op, rfl⟩ := hallowed
    rw [Function.update_of_ne (by simp)]
    exact ⟨h.results, h.reread, (Bool.or_false _).trans h.stamped⟩

/-- Whatever the calls of `dispatch_cycle`, the endpoints and the other coroutines do, and whenever: a run
stamps its bundle as successful only where every node that has a result has succeeded, one has, and every
task of the bundle is done, blocked or cancelled when it reads them again. -/
theorem success_deserved (run : GraphRun) (bundleId : String) (d : Draws) (others : Nat → Runtime Unit)
    (st : RunState) (schedule : List (Option Nat)) :
    Pool.Along RunnerLog.exec id
      (fun s _ op => op.marker? = some true → Deserved bundleId s.results s.reread)
      (runnerPool run bundleId d others st) (schedule.map .run) := by
  have hstep : ∀ (s : RunnerLog) (q : Option Nat → RunnerTurn) i op, Logged s (q none) →
      (runnerProtocol bundleId).allowed i (q i) op → True →
      Logged (RunnerLog.exec op s)
        (Function.update q i ((q i).advance bundleId op s.run) none) :=
    fun s q i op hlog hallowed _ => hlog.exec hallowed
  obtain ⟨_, halong⟩ := Pool.inv_along (K := fun _ => True) hstep
    (fun s q h _ => ⟨q, h, fun _ _ => rfl⟩) (obeys_runnerPool run bundleId d others st) ⟨rfl, rfl, rfl⟩
    (Pool.along_true (schedule.map .run)) (Pool.crashesMeet_of_forall (fun _ => trivial) _)
  refine halong.mono fun s i op ⟨q, hlog, hallowed, _⟩ hmarker => ?_
  rw [hlog.results, hlog.reread]
  cases i with
  | some i =>
    obtain ⟨op, rfl⟩ := hallowed
    cases hmarker
  | none =>
    cases op
    case own op =>
      rcases hallowed with hplain | ⟨u, success, rfl, hu, hdeserved⟩
      · rw [hplain.marker?_own] at hmarker
        cases hmarker
      · exact hdeserved (Option.some.inj (hu.symm.trans hmarker))
    all_goals cases hmarker

/-- No other coroutine reopens the bundle once the run has stamped it. -/
def NotReopened (bundleId : String) (s : RunnerLog) (_ : Option Nat) : RunnerOp → Prop
  | .other (.sql (.updateBundle id .reopenForRerun _)) => id = bundleId → s.stamped = false
  | _ => True

instance (bundleId : String) (s : RunnerLog) (i : Option Nat) :
    DecidablePred (NotReopened bundleId s i) := by
  intro op
  unfold NotReopened
  split <;> infer_instance

/-- The bundle keeps its code, and the marker the run has put on it. -/
structure Stamped (bundleId : String) (s : RunnerLog) (q : RunnerTurn) : Prop where
  logged : Logged s q
  coded : Coded bundleId s.run.db
  missed : q.missed = false
  marked : s.stamped = true → Marked bundleId s.run.db

theorem db_exec (op : RunnerOp) (st : RunState) :
    (op.exec st).db = st.db ∨
      ∃ op', (op = .own op' ∨ op = .other (.sql op')) ∧ (op.exec st).db = op'.exec st.db := by
  cases op
  case own op => exact .inr ⟨op, .inl rfl, rfl⟩
  case other op =>
    cases op
    case sql op => exact .inr ⟨op, .inr rfl, rfl⟩
    all_goals exact .inl rfl
  all_goals exact .inl rfl

theorem Stamped.exec (h : Stamped bundleId s (q none))
    (hallowed : (runnerProtocol bundleId).allowed i (q i) op) (hreopen : NotReopened bundleId s i op) :
    Stamped bundleId (RunnerLog.exec op s)
      (Function.update q i ((q i).advance bundleId op s.run) none) := by
  have hcoded : Coded bundleId (op.exec s.run).db := by
    rcases db_exec op s.run with hsame | ⟨op', -, hdb⟩
    · exact hsame ▸ h.coded
    · exact hdb ▸ h.coded.exec op'
  refine ⟨h.logged.exec hallowed, hcoded, ?_, fun hstamped => ?_⟩
  · cases i with
    | none =>
      rw [Function.update_self]
      show ((q none).missed || !decide (Coded bundleId s.run.db)) = false
      rw [h.missed, decide_eq_true h.coded]
      rfl
    | some i =>
      rw [Function.update_of_ne (by simp)]
      exact h.missed
  · cases i with
    | none =>
      cases op
      case own op =>
        rcases hallowed with hplain | ⟨u, success, rfl, hu, -⟩
        · have hbefore : (s.stamped || (RunnerOp.own op).marker?.isSome) = true := hstamped
          rw [hplain.marker?_own, Option.isSome_none, Bool.or_false] at hbefore
          refine (h.marked hbefore).exec fun expected hop => ?_
          rw [hop] at hplain
          cases hplain
        · exact marked_of_marker h.coded hu
      case other => cases hallowed
      all_goals exact h.marked ((Bool.or_false _).symm.trans hstamped)
    | some i =>
      obtain ⟨op, rfl⟩ := hallowed
      have hmarked := h.marked ((Bool.or_false _).symm.trans hstamped)
      cases op
      case sql op =>
        refine hmarked.exec fun expected hop => ?_
        subst hop
        have hfresh := hreopen rfl
        rw [show s.stamped = true from (Bool.or_false _).symm.trans hstamped] at hfresh
        cases hfresh
      all_goals exact hmarked

end Runs

/-! ### A bundle of two steps -/

def twoStepDb : Db where
  bundles := (∅ : Table Bundle).insert
    { id := "bun_1", cookbookId := some "cb_1", graphCode := some "graph = builder.build()" }
  tasks := ((∅ : Table Task).insert
    { id := "task_1", bundleId := "bun_1", graphNodeId := some "first" }).insert
      { id := "task_2", bundleId := "bun_1", graphNodeId := some "second" }
  agents := [{ agentId := "agent_1", cookbookId := "cb_1", status := .online,
               endpointUrl := some "http://agent_1" }]

def twoStepDeps : OrchestratorDeps where
  taskIdMap := [("first", "task_1"), ("second", "task_2")]
  cookbookId := "cb_1"

/-- The cycle of the first step, an agent that does its task, and a user who cancels the other, to which
the graph does not come. -/
def besideTwoSteps : Nat → Runtime Unit
  | 0 => discard (dispatchCycle 0 twoStepDeps { nodeId := "first" }
      { pathDraws 'a' with polls := fun _ => 3 })
  | 1 => .sql (discard (TaskService.markDone "task_1" (pathDraws 'b')))
  | _ => .sql (discard (TaskService.cancelTask "task_2" (pathDraws 'c')))

def twoStepPool : Pool (Option Nat) RunnerLog RunnerOp Exn Unit :=
  runnerPool {} "bun_1" (pathDraws 'd') besideTwoSteps ⟨twoStepDb, { bundleId := "bun_1" }⟩

def secondCancelled : List (Option Nat) :=
  List.replicate 2 none ++ List.replicate 8 (some 0) ++ List.replicate 7 (some 1) ++
    List.replicate 6 (some 0) ++ List.replicate 9 (some 2) ++ List.replicate 14 none

/-- Every task that is bound to a node is done when a run that calls its bundle a success has read it. -/
def NodesDone (s : RunnerLog) (_ : Option Nat) (op : RunnerOp) : Prop :=
  op.marker? = some true → ∃ db ∈ s.reread, ∀ task ∈ db.tasks.rows,
    task.bundleId = "bun_1" → task.graphNodeId.isSome → task.status = .done

instance (s : RunnerLog) (i : Option Nat) (op : RunnerOp) : Decidable (NodesDone s i op) :=
  inferInstanceAs (Decidable (op.marker? = some true → _))

theorem success_beside_cancelled :
    ¬ Pool.Along RunnerLog.exec id NodesDone twoStepPool (secondCancelled.map .run) ∧
      ((twoStepPool.run RunnerLog.exec id (secondCancelled.map .run)).state.run.db.bundles.get
        "bun_1").any (·.graphTerminalAt.isSome) = true := by
  decide +kernel

/-- A bundle without a graph, to which one is attached after its run. -/
def plainDb : Db where
  bundles := (∅ : Table Bundle).insert { id := "bun_1", cookbookId := some "cb_1" }

def attachedLater : Pool (Option Nat) RunnerLog RunnerOp Exn Unit :=
  (runnerPool {} "bun_1" (pathDraws 'a')
    (fun _ => .sql (discard (BundleRepo.attachGraph "bun_1" "graph = builder.build()" "graph TD")))
    ⟨plainDb, { bundleId := "bun_1" }⟩).run RunnerLog.exec id
      ([none, some 0, some 0, some 0].map .run)

end Krewhub
