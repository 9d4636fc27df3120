import Krewhub.Invocations.Service

/-!
# The shape of an invocation tape

The events an invocation puts onto its own tape are `started`, `elicit`, at most one `decision` and one
`done`, and the result in `done` is the one in the row. That holds in every run in which a decision comes
onto the tape while the Hand waits and there is none yet, and in which the Hand does not end without the
result of a decision that is on the tape.
-/

namespace Krewhub

/-- An event of the life of an invocation. -/
def EventKind.isLifecycle : EventKind → Bool
  | .started | .elicit | .decision | .done => true
  | _ => false

/-- The life of an invocation as its tape has it. -/
def InvocationState.lifecycle (req : Delegation) (s : InvocationState) :
    List (EventKind × Option ResultEnvelope) :=
  ((s.table.listForTape req.tapeId none).filter (·.kind.isLifecycle)).map fun e => (e.kind, e.result)

/-- The tape has an event of this kind. -/
def InvocationState.has (req : Delegation) (s : InvocationState) (kind : EventKind) : Prop :=
  kind ∈ (s.lifecycle req).map Prod.fst

instance InvocationState.decidableHas (req : Delegation) (s : InvocationState) (kind : EventKind) :
    Decidable (s.has req kind) := inferInstanceAs (Decidable (kind ∈ _))

/-- A decision comes onto the tape after the `elicit`, while the Hand waits and there is no other, and with
a final action; the Hand is not cut off before it has asked, and neither the deadline nor a cancellation
ends it after a decision is on the tape and before its result is delivered. -/
def InTurn (req : Delegation) (s : InvocationState) (_ : Option Nat) : InvocationOp → Prop
  | .append draft => draft.tapeId = req.tapeId → draft.kind = .decision →
      s.has req .elicit ∧ ¬ s.has req .decision ∧ s.settled = false ∧
        ∀ result ∈ draft.result, result.action ≠ .pending
  | .poll => s.cancelled.isSome → s.has req .decision → s.external.isSome
  | .timeout => s.has req .elicit ∧ (s.has req .decision → s.external.isSome)
  | _ => True

/-! ### How far a coroutine has come -/

/-- The run has still to start, has put `started` onto the tape, waits for the operator, has the Hand's end
behind it with what was submitted, has put `done` onto the tape, or has written it into the row; a request
has put its decision onto the tape. -/
inductive InvocationTurn where
  | start
  | created
  | running
  | opened
  | asking
  | settled (submitted : Option ResultEnvelope)
  | finished (result : ResultEnvelope)
  | closed (result : ResultEnvelope)
  | decided (result : ResultEnvelope)

namespace InvocationTurn

/-- What the run may put onto a tape. -/
def drafts (req : Delegation) : InvocationTurn → TapeDraft → Prop
  | .running, draft => draft.tapeId = req.tapeId ∧ draft.kind = .started ∧ draft.result = none
  | .opened, draft => draft.tapeId = req.tapeId ∧ draft.kind = .elicit ∧ draft.result = none
  | .settled submitted, draft => draft.tapeId = req.tapeId ∧ draft.kind = .done ∧
      ∃ natural : ResultEnvelope, natural.action = .cancel ∧
        draft.result = some ((submitted.getD natural).conform req.missing)
  | .closed _, draft => draft.kind = .handoff
  | _, _ => False

/-- The steps of the run. -/
def runs (req : Delegation) (q : InvocationTurn) : InvocationOp → Prop
  | .select | .aside | .register | .drop => True
  | .insertRow => q = .start
  | .setRunning => q = .created
  | .append draft => q.drafts req draft
  | .poll => q = .asking
  | .timeout => q = .opened ∨ q = .asking
  | .setTerminal status result => q = .finished result ∧ status = actionToStatus result.action
  | .deliver _ | .fire _ => False

/-- The steps of a request. -/
def requests (req : Delegation) (q : InvocationTurn) : InvocationOp → Prop
  | .select | .aside | .fire _ => True
  | .append draft => draft.kind = .handoff ∨
      draft.tapeId = req.tapeId ∧ draft.kind = .decision ∧ q = .start ∧ draft.result.isSome
  | .deliver result => q = .decided result
  | _ => False

def allowed (req : Delegation) : Option Nat → InvocationTurn → InvocationOp → Prop
  | none => runs req
  | some _ => requests req

def advance (q : InvocationTurn) (op : InvocationOp) (s : InvocationState) : InvocationTurn :=
  match op with
  | .insertRow => .created
  | .setRunning => .running
  | .append draft =>
    match draft.kind, draft.result with
    | .started, _ => .opened
    | .elicit, _ => .asking
    | .done, some result => .finished result
    | .decision, some result => .decided result
    | _, _ => q
  | .poll => if s.cancelled.isSome || s.external.isSome then .settled s.external else q
  | .timeout => .settled s.external
  | .setTerminal _ result => .closed result
  | .deliver _ => .start
  | _ => q

def protocol (req : Delegation) : Protocol (Option Nat) InvocationState InvocationOp Unit InvocationTurn where
  start := .start
  allowed := allowed req
  advance := advance
  final i q _ := i = none → ∃ result, q = .closed result

variable {req : Delegation}

/-- An await of the Hand. -/
def hands (req : Delegation) (q : InvocationTurn) (op : InvocationOp) : Prop :=
  (q = .opened ∨ q = .asking) ∧ q.runs req op

theorem external_of_advance {q : InvocationTurn} {op : InvocationOp} {s : InvocationState}
    {submitted : Option ResultEnvelope} (hq : q = .opened ∨ q = .asking)
    (h : q.advance op s = .settled submitted) : submitted = s.external := by
  have hne : q ≠ .settled submitted := by rcases hq with rfl | rfl <;> simp
  cases op
  case append draft =>
    rw [advance] at h
    split at h <;> first | exact absurd h hne | cases h
  case poll =>
    rw [advance] at h
    split at h
    · exact (InvocationTurn.settled.inj h).symm
    · exact absurd h hne
  case timeout => exact (InvocationTurn.settled.inj h).symm
  all_goals first | exact absurd h hne | cases h

/-- The Hand ends with what was submitted at its last await, and of itself only with a cancellation. -/
theorem follows_waitFor {c : Invoking (Option ResultEnvelope)} {awaits : Nat}
    {submitted : Option ResultEnvelope} {q : InvocationTurn}
    (hc : c.Follows (hands req) advance
      (fun q' a => ∃ x, q' = .settled x ∧ ∀ result ∈ a, result.action = .cancel) q)
    (hsubmitted : ∀ x, q = .settled x → x = submitted) :
    (waitFor (·.external) awaits c submitted).Follows (runs req) advance
      (fun q' r => q' = .settled r.2 ∧ ∀ a ∈ r.1, ∀ result ∈ a, result.action = .cancel) q := by
  induction c generalizing awaits submitted q with
  | done a =>
    obtain ⟨x, rfl, hcancel⟩ := hc
    unfold waitFor
    refine ⟨by rw [hsubmitted x rfl], fun a' ha' => ?_⟩
    rw [← Option.some.inj ha']
    exact hcancel
  | raise e => unfold waitFor; trivial
  | await op next ih =>
    obtain ⟨⟨hq, hop⟩, hnext⟩ := hc
    cases awaits with
    | zero => exact ⟨hq, fun s => ⟨rfl, fun a ha => by cases ha⟩⟩
    | succ awaits => exact ⟨hop, fun s => ih s (hnext s) fun x hx => external_of_advance hq hx⟩

theorem follows_wait (polls : Nat) :
    (HumanHand.wait polls).Follows (hands req) advance
      (fun q' a => ∃ x, q' = .settled x ∧ ∀ result ∈ a, result.action = .cancel) .asking := by
  induction polls with
  | zero => exact ⟨⟨.inr rfl, .inr rfl⟩, fun s => ⟨_, rfl, fun result h => by cases h⟩⟩
  | succ polls ih =>
    refine .perform_bind ⟨.inr rfl, rfl⟩ fun s => ?_
    rw [advance]
    cases hcancelled : s.cancelled with
    | some reason =>
      refine ⟨_, if_pos rfl, fun result hresult => ?_⟩
      rw [← Option.some.inj hresult, ResultEnvelope.dismissed]
      split <;> rfl
    | none =>
      cases hexternal : s.external with
      | some result =>
        refine ⟨_, if_pos rfl, fun result hresult => ?_⟩
        rw [← Option.some.inj hresult]
        rfl
      | none => exact ih

theorem follows_execute (hasks : req.input.asks = true) :
    (HumanHand.execute none req).Follows (hands req) advance
      (fun q' a => ∃ x, q' = .settled x ∧ ∀ result ∈ a, result.action = .cancel) .opened := by
  rw [HumanHand.execute, if_neg (by decide), hasks]
  refine .perform_bind ⟨.inl rfl, rfl, rfl, rfl⟩ fun _ => ?_
  refine .perform_bind ⟨.inr rfl, trivial⟩ fun _ => .ite (fun _ => ?_) fun _ => follows_wait _
  refine .perform_bind ⟨.inr rfl, trivial⟩ fun _ => ?_
  exact .perform_bind ⟨.inr rfl, trivial⟩ fun _ => follows_wait _

theorem follows_finalize {submitted : Option ResultEnvelope} {natural : ResultEnvelope}
    (hnatural : natural.action = .cancel) :
    (InvocationService.finalize req ((submitted.getD natural).conform req.missing)).Follows (runs req)
      advance (fun q _ => ∃ result, q = .closed result) (.settled submitted) := by
  refine .perform_bind ⟨rfl, rfl, natural, hnatural, rfl⟩ fun _ => ?_
  refine .perform_bind trivial fun _ => .perform_bind ⟨rfl, rfl⟩ fun _ => .perform_bind trivial fun _ => ?_
  cases req.parentTapeId with
  | none => exact ⟨trivial, fun _ => ⟨_, rfl⟩⟩
  | some parentTapeId =>
    refine .perform_bind rfl fun _ => .perform_bind trivial fun _ => ?_
    exact ⟨trivial, fun _ => ⟨_, rfl⟩⟩

theorem follows_run (hasks : req.input.asks = true) :
    (InvocationService.run req).Follows (runs req) advance (fun q _ => ∃ result, q = .closed result)
      .running := by
  refine .perform_bind ⟨rfl, rfl, rfl⟩ fun _ => .perform_bind trivial fun s => ?_
  refine (follows_waitFor (follows_execute hasks) fun x hx => by cases hx).bind fun q r hr => ?_
  obtain ⟨returned, submitted⟩ := r
  obtain ⟨rfl, hcancel⟩ := hr
  refine follows_finalize ?_
  cases returned with
  | none => rfl
  | some a =>
    cases a with
    | none => rfl
    | some result => exact hcancel _ rfl result rfl

theorem follows_create (hasks : req.input.asks = true) :
    (InvocationService.create req).Follows (runs req) advance (fun q _ => ∃ result, q = .closed result)
      .start := by
  have hrun : Coro.Follows (runs req) advance (fun q _ => ∃ result, q = .closed result) .created (do
      .perform .setRunning fun _ => ()
      .perform .register fun _ => ()
      InvocationService.run req : Invoking Unit) :=
    .perform_bind rfl fun _ => .perform_bind trivial fun _ => follows_run hasks
  refine .perform_bind rfl fun _ => .perform_bind trivial fun _ => .ite (fun _ => ?_) fun _ => hrun
  exact .perform_bind trivial fun _ => .perform_bind trivial fun _ => hrun

theorem follows_program (n : Nat) (call : InvocationCall) :
    (call.program req).Follows (requests req) advance ((protocol req).final (some n)) .start := by
  have hfinal : ∀ q u, (protocol req).final (some n) q u := fun _ _ h => by cases h
  cases call with
  | cancel reason => exact ⟨trivial, fun _ => hfinal _ _⟩
  | child tapeId result => exact ⟨.inl rfl, fun _ => ⟨trivial, fun _ => hfinal _ _⟩⟩
  | submit result =>
    have hsubmit : (InvocationService.submitResult req result).Follows (requests req) advance
        (fun _ _ => True) .start := by
      refine .perform_bind trivial fun s => ?_
      obtain ⟨row, active⟩ := (s.row, s.active)
      cases row with
      | none => trivial
      | some row =>
        refine .ite (fun _ => trivial) fun _ => .ite (fun _ => trivial) fun _ => ?_
        refine .perform_bind (.inr ⟨rfl, rfl, rfl, rfl⟩) fun _ => .perform_bind trivial fun _ => ?_
        have hend := follows_lastEvent (A := requests req) (V := advance) (F := fun _ _ => True) (q := .start) req
          trivial (fun _ => rfl) fun _ => trivial
        refine .perform_bind rfl fun s => .ite (fun _ => ?_) fun _ => hend
        exact .perform_bind trivial fun _ => hend
    exact hsubmit.bind fun q _ _ => hfinal q ()

end InvocationTurn

/-! ### Where an invocation stands -/

/-- What an invocation has come to: the life of its tape, its row, the slot of the submitted result and
whether the Hand has come to its end. -/
structure Standing where
  lifecycle : List (EventKind × Option ResultEnvelope) := []
  row : Option InvocationRow := none
  external : Option ResultEnvelope := none
  settled : Bool := false

def InvocationState.standing (req : Delegation) (s : InvocationState) : Standing :=
  ⟨s.lifecycle req, s.row, s.external, s.settled⟩

/-- The Hand has asked, and perhaps the operator has decided. -/
def asked (decision : Option ResultEnvelope) : List (EventKind × Option ResultEnvelope) :=
  [(.started, none), (.elicit, none)] ++ (decision.map fun result => (.decision, some result)).toList

/-- The decision that the result of the invocation comes from; without one the Hand has been cancelled. -/
def Comes (req : Delegation) (submitted : Option ResultEnvelope) (result : ResultEnvelope) : Prop :=
  (∀ decision ∈ submitted, decision.action ≠ .pending) ∧
    ∃ natural : ResultEnvelope, natural.action = .cancel ∧
      result = (submitted.getD natural).conform req.missing

/-- Where the invocation stands when its run has come this far. -/
def InvocationTurn.Holds (req : Delegation) : InvocationTurn → Standing → Prop
  | .start, t => t = {}
  | .created, t => t = { row := some {} }
  | .running, t => t = { row := some { status := .running } }
  | .opened, t => t = { lifecycle := [(.started, none)], row := some { status := .running } }
  | .asking, t => ∃ decision external, (external = none ∨ external = decision) ∧
      (∀ result ∈ decision, result.action ≠ .pending) ∧
      t = { lifecycle := asked decision, row := some { status := .running }, external := external }
  | .settled submitted, t => (∀ decision ∈ submitted, decision.action ≠ .pending) ∧
      t = ⟨asked submitted, some { status := .running }, submitted, true⟩
  | .finished result, t => ∃ submitted, Comes req submitted result ∧
      t = ⟨asked submitted ++ [(.done, some result)], some { status := .running }, submitted, true⟩
  | .closed result, t => ∃ submitted, Comes req submitted result ∧
      t = ⟨asked submitted ++ [(.done, some result)],
        some ⟨actionToStatus result.action, some result⟩, submitted, true⟩
  | .decided _, _ => False

variable {req : Delegation} {s : InvocationState} {draft : TapeDraft} {q : InvocationTurn}
  {op : InvocationOp}

theorem lifecycle_append :
    (InvocationOp.exec (.append draft) s).lifecycle req = s.lifecycle req ++
      if draft.tapeId = req.tapeId ∧ draft.kind.isLifecycle = true then [(draft.kind, draft.result)]
      else [] := by
  have hnew : (([s.table.nextEvent draft].filter (·.isWanted req.tapeId none)).filter
        (·.kind.isLifecycle)).map (fun e => (e.kind, e.result)) =
      if draft.tapeId = req.tapeId ∧ draft.kind.isLifecycle = true then [(draft.kind, draft.result)]
      else [] := by
    by_cases htape : draft.tapeId = req.tapeId <;> by_cases hkind : draft.kind.isLifecycle = true <;>
      simp [TapeEvent.isWanted, TapeTable.nextEvent, htape, hkind]
  rw [InvocationState.lifecycle, InvocationOp.exec, TapeTable.listForTape_append, List.filter_append,
    List.map_append, hnew, InvocationState.lifecycle]

theorem standing_append :
    (InvocationOp.exec (.append draft) s).standing req =
      { s.standing req with
        lifecycle := s.lifecycle req ++
          if draft.tapeId = req.tapeId ∧ draft.kind.isLifecycle = true then [(draft.kind, draft.result)]
          else [] } := by
  rw [← lifecycle_append]
  rfl

theorem mem_asked {decision : Option ResultEnvelope} {result : ResultEnvelope} :
    (.decision, some result) ∈ asked decision ↔ decision = some result := by
  cases decision <;> simp [asked, eq_comm]

theorem mem_kinds_asked (decision : Option ResultEnvelope) :
    EventKind.decision ∈ (asked decision).map Prod.fst ↔ decision.isSome := by
  cases decision <;> simp [asked]

theorem has_iff (kind : EventKind) :
    s.has req kind ↔ kind ∈ (s.standing req).lifecycle.map Prod.fst := Iff.rfl

/-- When the Hand comes to its end, what has been submitted is the decision on the tape. -/
theorem settled_of_asking {decision external : Option ResultEnvelope}
    (hexternal : external = none ∨ external = decision)
    (hfinal : ∀ result ∈ decision, result.action ≠ .pending)
    (hstanding : s.standing req =
      { lifecycle := asked decision, row := some { status := .running }, external := external })
    (hdelivered : s.has req .decision → s.external.isSome) :
    (InvocationTurn.settled s.external).Holds req { s.standing req with settled := true } := by
  have hslot : s.external = external := congrArg Standing.external hstanding
  have hsame : external = decision := by
    rw [has_iff, hstanding, mem_kinds_asked, hslot] at hdelivered
    rcases hexternal with rfl | rfl
    · cases decision with
      | none => rfl
      | some result => exact absurd (hdelivered rfl) (by decide)
    · rfl
  subst hsame
  rw [hslot, hstanding]
  exact ⟨hfinal, rfl⟩

/-- The run goes on from where the invocation stands. -/
theorem InvocationTurn.Holds.run (h : q.Holds req (s.standing req)) (hop : q.runs req op)
    (hturn : InTurn req s none op) : (q.advance op s).Holds req ((op.exec s).standing req) := by
  cases op
  case insertRow =>
    obtain rfl : q = .start := hop
    have hstanding : s.standing req = {} := h
    show { s.standing req with row := some {} } = _
    rw [hstanding]
  case setRunning =>
    obtain rfl : q = .created := hop
    have hstanding : s.standing req = { row := some {} } := h
    have hrow : s.row = some {} := congrArg Standing.row hstanding
    have hexec : (InvocationOp.setRunning.exec s).standing req = { s.standing req with
      row := s.row.map fun r => if r.status = .pending then { r with status := .running } else r } := rfl
    rw [hexec, hstanding, hrow]
    rfl
  case append draft =>
    obtain ⟨tapeId, kind, actorType, actorId, body, result, payload⟩ := draft
    rw [standing_append]
    cases q
    case running =>
      obtain ⟨rfl, rfl, rfl⟩ := hop
      have hstanding : s.standing req = { row := some { status := .running } } := h
      rw [if_pos ⟨rfl, rfl⟩, show s.lifecycle req = _ from congrArg Standing.lifecycle hstanding, hstanding]
      rfl
    case opened =>
      obtain ⟨rfl, rfl, rfl⟩ := hop
      have hstanding : s.standing req =
        { lifecycle := [(.started, none)], row := some { status := .running } } := h
      rw [if_pos ⟨rfl, rfl⟩, show s.lifecycle req = _ from congrArg Standing.lifecycle hstanding, hstanding]
      exact ⟨none, none, .inl rfl, fun _ hresult => (by cases hresult), rfl⟩
    case settled submitted =>
      obtain ⟨rfl, rfl, natural, hnatural, rfl⟩ := hop
      obtain ⟨hfinal, hstanding⟩ := h
      rw [if_pos ⟨rfl, rfl⟩, show s.lifecycle req = _ from congrArg Standing.lifecycle hstanding, hstanding]
      exact ⟨submitted, ⟨hfinal, natural, hnatural, rfl⟩, rfl⟩
    case closed result =>
      obtain rfl : kind = .handoff := hop
      rw [if_neg fun h => Bool.false_ne_true h.2, List.append_nil]
      exact h
    all_goals cases hop
  case poll =>
    obtain rfl : q = .asking := hop
    obtain ⟨decision, external, hexternal, hfinal, hstanding⟩ := h
    have hsettled : s.settled = false := congrArg Standing.settled hstanding
    show (advance .asking .poll s).Holds req { s.standing req with settled := s.settled || _ || _ }
    rw [advance, hsettled, Bool.false_or]
    by_cases hended : (s.cancelled.isSome || s.external.isSome) = true
    · rw [if_pos hended, hended]
      refine settled_of_asking hexternal hfinal hstanding fun hdecision => ?_
      rcases Bool.or_eq_true_iff.mp hended with hcancelled | hsubmitted
      · exact hturn hcancelled hdecision
      · exact hsubmitted
    · rw [if_neg hended, Bool.eq_false_iff.mpr hended, hstanding]
      exact ⟨decision, external, hexternal, hfinal, rfl⟩
  case timeout =>
    obtain ⟨helicit, hdelivered⟩ := hturn
    rcases hop with rfl | rfl
    · have hstanding : s.standing req =
        { lifecycle := [(.started, none)], row := some { status := .running } } := h
      rw [has_iff, hstanding] at helicit
      exact absurd helicit (by decide)
    · obtain ⟨decision, external, hexternal, hfinal, hstanding⟩ := h
      exact settled_of_asking hexternal hfinal hstanding hdelivered
  case setTerminal status result =>
    obtain ⟨rfl, rfl⟩ := hop
    obtain ⟨submitted, hcomes, hstanding⟩ := h
    have hrow : s.row = some { status := .running } := congrArg Standing.row hstanding
    have hexec : (InvocationOp.exec (.setTerminal (actionToStatus result.action) result) s).standing req =
      { s.standing req with
        row := s.row.map fun r =>
          if r.status.isTerminal then r else ⟨actionToStatus result.action, some result⟩ } := rfl
    rw [hexec, hstanding, hrow]
    exact ⟨submitted, hcomes, rfl⟩
  case deliver => cases hop
  case fire => cases hop
  all_goals exact h

/-- A decision on the tape is the one that the run knows of. -/
theorem InvocationTurn.Holds.deliver {result : ResultEnvelope} (h : q.Holds req (s.standing req))
    (hdecision : (.decision, some result) ∈ s.lifecycle req) :
    q.Holds req ((InvocationOp.exec (.deliver result) s).standing req) := by
  have hexec : (InvocationOp.exec (.deliver result) s).standing req =
    { s.standing req with external := s.external <|> some result } := rfl
  have hmem : (.decision, some result) ∈ (s.standing req).lifecycle := hdecision
  have hended : ∀ submitted rest row, EventKind.decision ∉ rest.map Prod.fst →
      s.standing req = ⟨asked submitted ++ rest, row, submitted, true⟩ →
      (InvocationOp.exec (.deliver result) s).standing req = s.standing req := by
    intro submitted rest row hrest hstanding
    have hslot : s.external = submitted := congrArg Standing.external hstanding
    rw [hstanding] at hmem
    have hsubmitted : submitted = some result := by
      rcases List.mem_append.mp hmem with hmem | hmem
      · exact mem_asked.mp hmem
      · exact absurd (List.mem_map_of_mem hmem) hrest
    rw [hexec, hslot, hstanding, hsubmitted]
    rfl
  cases q
  case asking =>
    obtain ⟨decision, external, hexternal, hfinal, hstanding⟩ := h
    have hslot : s.external = external := congrArg Standing.external hstanding
    rw [hstanding] at hmem
    obtain rfl := mem_asked.mp hmem
    rw [hexec, hslot, hstanding]
    refine ⟨some result, some result, .inr rfl, hfinal, ?_⟩
    rcases hexternal with rfl | rfl <;> rfl
  case settled submitted =>
    rwa [hended submitted [] _ (by simp) (by rw [h.2, List.append_nil])]
  case finished final =>
    obtain ⟨submitted, -, hstanding⟩ := id h
    rwa [hended submitted _ _ (by simp) hstanding]
  case closed final =>
    obtain ⟨submitted, -, hstanding⟩ := id h
    rwa [hended submitted _ _ (by simp) hstanding]
  case decided => cases h
  all_goals
    rw [show s.standing req = _ from h] at hmem
    simp at hmem

/-- A request leaves the run where it is, or puts a decision onto the tape or into the slot. -/
theorem InvocationTurn.Holds.request {i : Option Nat} {q' : InvocationTurn}
    (h : q.Holds req (s.standing req)) (hop : q'.requests req op)
    (hdecided : ∀ result, q' = .decided result → (.decision, some result) ∈ s.lifecycle req)
    (hturn : InTurn req s i op) : q.Holds req ((op.exec s).standing req) := by
  cases op
  case select => exact h
  case aside => exact h
  case fire reason =>
    rw [InvocationOp.exec]
    split <;> exact h
  case deliver result => exact h.deliver (hdecided result hop)
  case append draft =>
    obtain ⟨tapeId, kind, actorType, actorId, body, result, payload⟩ := draft
    rw [standing_append]
    rcases hop with rfl | ⟨rfl, rfl, -, hresult⟩
    · rw [if_neg fun h => Bool.false_ne_true h.2, List.append_nil]
      exact h
    · obtain ⟨result, rfl⟩ := Option.isSome_iff_exists.mp hresult
      obtain ⟨helicit, hdecision, hsettled, hfinal⟩ := hturn rfl rfl
      rw [has_iff] at helicit hdecision
      have hopen : (s.standing req).settled = false := hsettled
      rw [if_pos ⟨rfl, rfl⟩, show s.lifecycle req = (s.standing req).lifecycle from rfl]
      cases q
      case asking =>
        obtain ⟨decision, external, hexternal, -, hstanding⟩ := h
        rw [hstanding, mem_kinds_asked, Option.not_isSome_iff_eq_none] at hdecision
        subst hdecision
        rw [hstanding]
        refine ⟨some result, external, ?_, hfinal, rfl⟩
        rcases hexternal with rfl | rfl <;> exact .inl rfl
      case settled submitted =>
        rw [h.2] at hopen
        cases hopen
      case finished final =>
        obtain ⟨submitted, -, hstanding⟩ := h
        rw [hstanding] at hopen
        cases hopen
      case closed final =>
        obtain ⟨submitted, -, hstanding⟩ := h
        rw [hstanding] at hopen
        cases hopen
      case decided => cases h
      all_goals
        rw [show s.standing req = _ from h] at helicit
        simp at helicit
  all_goals cases hop

/-! ### The shape -/

/-- The tape is in shape as far as it has come, `done` has the result of the decision, if there is one, with a
final action, and a result in the row is that of `done`, under the status that goes with it. -/
structure InShape (req : Delegation) (lifecycle : List (EventKind × Option ResultEnvelope))
    (row : Option InvocationRow) : Prop where
  order : lifecycle.map Prod.fst <+: [.started, .elicit, .done] ∨
    lifecycle.map Prod.fst <+: [.started, .elicit, .decision, .done]
  done : ∀ result, (.done, result) ∈ lifecycle → ∃ final, result = some final ∧
    final.action ≠ .pending ∧
    ∀ decision, (.decision, some decision) ∈ lifecycle → final = decision.conform req.missing
  row : ∀ r ∈ row, ∀ result ∈ r.result,
    (.done, some result) ∈ lifecycle ∧ r.status = actionToStatus result.action

theorem ResultEnvelope.action_conform (missing : Option (String → Option String))
    (result : ResultEnvelope) :
    (result.conform missing).action = result.action ∨ (result.conform missing).action = .error := by
  unfold conform
  split
  · split
    · split
      · exact .inr rfl
      · exact .inl rfl
    · exact .inr rfl
    · exact .inl rfl
  · exact .inl rfl

theorem Comes.action_ne {submitted : Option ResultEnvelope} {result : ResultEnvelope}
    (h : Comes req submitted result) : result.action ≠ .pending := by
  obtain ⟨hfinal, natural, hnatural, rfl⟩ := h
  have hsource : (submitted.getD natural).action ≠ .pending := by
    cases submitted with
    | none =>
      rw [Option.getD_none, hnatural]
      decide
    | some decision => exact hfinal decision rfl
  rcases ResultEnvelope.action_conform req.missing (submitted.getD natural) with haction | haction
  · rwa [haction]
  · rw [haction]
    decide

theorem inShape_of_waiting {decision : Option ResultEnvelope} :
    InShape req (asked decision) (some { status := .running }) where
  order := by cases decision <;> simp [asked]
  done result hdone := by cases decision <;> simp [asked] at hdone
  row r hr result hresult := by
    obtain rfl := Option.some.inj hr
    cases hresult

theorem inShape_of_done {submitted : Option ResultEnvelope} {result : ResultEnvelope}
    {row : Option InvocationRow} (hcomes : Comes req submitted result)
    (hrow : row = some { status := .running } ∨
      row = some ⟨actionToStatus result.action, some result⟩) :
    InShape req (asked submitted ++ [(.done, some result)]) row where
  order := by cases submitted <;> simp [asked]
  done result' hdone := by
    have hsame : result' = some result := by cases submitted <;> simpa [asked] using hdone
    refine ⟨result, hsame, hcomes.action_ne, fun decision hdecision => ?_⟩
    have hsubmitted : submitted = some decision := by
      cases submitted <;> simp [asked] at hdecision ⊢
      exact hdecision.symm
    obtain ⟨-, natural, -, hresult⟩ := hcomes
    rw [hresult, hsubmitted, Option.getD_some]
  row r hr result' hresult' := by
    rcases hrow with rfl | rfl
    · obtain rfl := Option.some.inj hr
      cases hresult'
    · obtain rfl := Option.some.inj hr
      obtain rfl := Option.some.inj hresult'
      exact ⟨by simp, rfl⟩

theorem InvocationTurn.Holds.inShape (h : q.Holds req (s.standing req)) :
    InShape req (s.lifecycle req) s.row := by
  have hgoal : ∀ t : Standing, s.standing req = t → InShape req t.lifecycle t.row →
      InShape req (s.lifecycle req) s.row := by
    rintro t rfl hshape
    exact hshape
  have hbare : ∀ row : Option InvocationRow, (∀ r ∈ row, r.result = none) → InShape req [] row := by
    refine fun row hrow => ⟨.inl List.nil_prefix, fun result hdone => ?_, fun r hr result hresult => ?_⟩
    · cases hdone
    · rw [hrow r hr] at hresult
      cases hresult
  cases q
  case start => exact hgoal _ h (hbare none fun r hr => by cases hr)
  case created =>
    refine hgoal _ h (hbare _ fun r hr => ?_)
    rw [← Option.some.inj hr]
  case running =>
    refine hgoal _ h (hbare _ fun r hr => ?_)
    rw [← Option.some.inj hr]
  case opened =>
    refine hgoal _ h ⟨.inl ⟨_, rfl⟩, fun result hdone => by simp at hdone, fun r hr result hresult => ?_⟩
    obtain rfl := Option.some.inj hr
    cases hresult
  case asking =>
    obtain ⟨decision, external, -, -, hstanding⟩ := h
    exact hgoal _ hstanding inShape_of_waiting
  case settled submitted => exact hgoal _ h.2 inShape_of_waiting
  case finished result =>
    obtain ⟨submitted, hcomes, hstanding⟩ := h
    exact hgoal _ hstanding (inShape_of_done hcomes (.inl rfl))
  case closed result =>
    obtain ⟨submitted, hcomes, hstanding⟩ := h
    exact hgoal _ hstanding (inShape_of_done hcomes (.inr rfl))
  case decided => cases h

/-! ### Every run -/

theorem lifecycle_isPrefix_exec (op : InvocationOp) (s : InvocationState) :
    s.lifecycle req <+: (op.exec s).lifecycle req := by
  cases op
  case append draft =>
    rw [lifecycle_append]
    exact List.prefix_append _ _
  case fire reason =>
    rw [InvocationOp.exec]
    split <;> exact List.prefix_rfl
  all_goals exact List.prefix_rfl

theorem decided_of_advance {result : ResultEnvelope} (hop : q.requests req op)
    (hadvance : q.advance op s = .decided result) :
    q = .decided result ∨ (.decision, some result) ∈ (op.exec s).lifecycle req := by
  cases op
  case append draft =>
    rw [lifecycle_append]
    obtain ⟨tapeId, kind, actorType, actorId, body, draftResult, payload⟩ := draft
    rcases hop with rfl | ⟨rfl, rfl, -, hresult⟩
    · exact .inl hadvance
    · obtain ⟨result', rfl⟩ := Option.isSome_iff_exists.mp hresult
      obtain rfl := InvocationTurn.decided.inj hadvance
      rw [if_pos ⟨rfl, rfl⟩]
      exact .inr (List.mem_append_right _ (List.mem_singleton_self _))
  case select => exact .inl hadvance
  case aside => exact .inl hadvance
  case fire => exact .inl hadvance
  case deliver => cases hadvance
  all_goals cases hop

/-- The run is where the invocation stands, and the decisions of the requests are on the tape. -/
structure InvocationHolds (req : Delegation) (s : InvocationState) (q : Option Nat → InvocationTurn) :
    Prop where
  run : (q none).Holds req (s.standing req)
  decided : ∀ n result, q (some n) = .decided result → (.decision, some result) ∈ s.lifecycle req

theorem InvocationHolds.step {q : Option Nat → InvocationTurn} {i : Option Nat}
    (h : InvocationHolds req s q) (hop : InvocationTurn.allowed req i (q i) op)
    (hturn : InTurn req s i op) :
    InvocationHolds req (op.exec s) (Function.update q i ((q i).advance op s)) := by
  have hkept : ∀ n result, q (some n) = .decided result →
      (.decision, some result) ∈ (op.exec s).lifecycle req := fun n result hn =>
    (lifecycle_isPrefix_exec op s).subset (h.decided n result hn)
  cases i with
  | none =>
    refine ⟨?_, fun n result hn => hkept n result ?_⟩
    · rw [Function.update_self]
      exact h.run.run hop hturn
    · rwa [Function.update_of_ne (Option.some_ne_none n)] at hn
  | some m =>
    refine ⟨?_, fun n result hn => ?_⟩
    · rw [Function.update_of_ne (Option.some_ne_none m).symm]
      exact h.run.request hop (h.decided m) hturn
    · by_cases hm : n = m
      · subst hm
        rw [Function.update_self] at hn
        rcases decided_of_advance hop hn with hn | hn
        · exact hkept n result hn
        · exact hn
      · rw [Function.update_of_ne fun h => hm (Option.some.inj h)] at hn
        exact hkept n result hn

/-- What the coroutine with this name does: the creation and the run, or a request. -/
def invocationProgram (req : Delegation) (calls : Nat → InvocationCall) : Option Nat → Invoking Unit
  | none => InvocationService.create req
  | some n => (calls n).program req

/-- The run of the invocation and the requests side by side; none has begun. -/
def invocationPool (req : Delegation) (calls : Nat → InvocationCall) (table : TapeTable) :
    Pool (Option Nat) InvocationState InvocationOp Exn Unit :=
  .init (invocationProgram req calls) { table := table }

/-- What the invocation has come to after a schedule. -/
def invocationAfter (req : Delegation) (calls : Nat → InvocationCall) (table : TapeTable)
    (schedule : List (Option Nat)) : Pool (Option Nat) InvocationState InvocationOp Exn Unit :=
  (invocationPool req calls table).run InvocationOp.exec id (schedule.map .run)

instance InTurn.decidable (req : Delegation) (s : InvocationState) (i : Option Nat) :
    DecidablePred (InTurn req s i)
  | .append draft => inferInstanceAs (Decidable (draft.tapeId = req.tapeId → draft.kind = .decision →
      s.has req .elicit ∧ ¬ s.has req .decision ∧ s.settled = false ∧
        ∀ result ∈ draft.result, result.action ≠ .pending))
  | .poll => inferInstanceAs (Decidable (s.cancelled.isSome → s.has req .decision → s.external.isSome))
  | .timeout => inferInstanceAs (Decidable (s.has req .elicit ∧
      (s.has req .decision → s.external.isSome)))
  | .select | .aside | .insertRow | .setRunning | .register | .deliver _ | .fire _ | .setTerminal ..
  | .drop => .isTrue trivial

/-- The operator is asked for a colour. -/
def colour : Delegation where
  id := "inv_1"
  tapeId := "tape_1"
  input := .object (some "Which colour?") none none none
  missing := some fun json => if json = "blue" then none else some "unknown colour"
  createdBy := "acc_1"
  deadline := 20

/-- A colour comes in, a cancellation, another colour, and an answer that is none. -/
def colourCalls : Nat → InvocationCall
  | 0 => .submit { action := .accept, content := some (.object "blue"), reasoned := accept_reasoned }
  | 1 => .cancel "operator_cancelled"
  | 2 => .submit { action := .accept, content := some (.object "mauve"), reasoned := accept_reasoned }
  | _ => .submit { action := .pending }

/-- The Hand asks, the operator answers, and the run goes on. -/
def answered : List (Option Nat) :=
  List.replicate 8 none ++ List.replicate 4 (some 0) ++ List.replicate 7 none

end Krewhub
