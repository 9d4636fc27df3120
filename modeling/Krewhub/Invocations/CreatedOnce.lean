import Krewhub.Invocations.Create

/-!
# One invocation a key

Any number of calls of `create` with one parent tape and one idempotency key, interleaved at every await. Of
the calls whose lookup has found nothing, `looking` are those that have yet to insert their row: a lookup
beside one of them finds nothing either, and the insertion that comes second raises.
-/

namespace Krewhub

/-! ### The calls -/

/-- The store, and the calls that have found nothing and have yet to insert. -/
structure CreateRace where
  store : InvocationStore := {}
  looking : List Nat := []

/-- A step of a call. -/
def CreateRace.exec (op : Nat × CreateOp) (s : CreateRace) : CreateRace where
  store := op.2.exec s.store
  looking :=
    match op.2 with
    | .find parent key => if (s.store.find parent key).isNone then op.1 :: s.looking else s.looking
    | .insert _ => s.looking.erase op.1
    | _ => s.looking

section Calls

variable (pyRepr : Json → String) (hands : List String) (calls : Nat → CreateCall)

/-- A call, with what it ends with as its result. -/
def createProgram (i : Nat) : Coro CreateRace (Nat × CreateOp) CreateError (Except CreateError Invocation) :=
  (InvocationService.createRequest pyRepr hands (calls i)).attempt.within CreateRace.store (i, ·)

def createPool (start : InvocationStore) :
    Pool Nat CreateRace (Nat × CreateOp) CreateError (Except CreateError Invocation) :=
  .init (createProgram pyRepr hands calls) { store := start }

end Calls

/-- A call looks while no other is between a lookup that found nothing and its insertion. -/
def LooksAlone (s : CreateRace) (_ : Nat) (op : Nat × CreateOp) : Prop :=
  match op.2 with
  | .find .. => s.looking = []
  | _ => True

instance (s : CreateRace) (i : Nat) : DecidablePred (LooksAlone s i) := fun op => by
  unfold LooksAlone
  split <;> infer_instance

/-- The rows with the key. -/
def InvocationStore.keyed (s : InvocationStore) (parent key : String) : List Invocation :=
  s.rows.filter fun r => r.parentTapeId == some parent && r.idempotencyKey == some key

/-! ### How far a call has come -/

/-- The call has still to look, has found nothing, has found a row, has inserted its own, was refused, or has
started its run. -/
inductive CreateTurn where
  | start
  | missed
  | found (inv : Invocation)
  | stored
  | failed
  | scheduled

namespace CreateTurn

def allowed (c : CreateCall) (parent key : String) (q : CreateTurn) : CreateOp → Prop
  | .find parent' key' => q = .start ∧ parent' = parent ∧ key' = key
  | .insert inv => q = .missed ∧ inv.id = c.id ∧ inv.tapeId = c.tapeId ∧
      inv.parentTapeId = some parent ∧ inv.idempotencyKey = some key
  | .commit | .registerFork .. => True
  | .setRunning .. => q = .stored
  | .schedule id => q = .stored ∧ id = c.id

def advance (q : CreateTurn) (op : CreateOp) (s : InvocationStore) : CreateTurn :=
  match op with
  | .find parent key => (s.find parent key).elim .missed .found
  | .insert inv => if s.conflicts inv then .failed else .stored
  | .schedule _ => .scheduled
  | _ => q

/-- What a call ends with. -/
def final (c : CreateCall) (q : CreateTurn) : Except CreateError Invocation → Prop
  | .ok inv => q = .found inv ∨ q = .scheduled ∧ inv.id = c.id ∧ inv.tapeId = c.tapeId
  | .error _ => q = .failed

end CreateTurn

def createProtocol (calls : Nat → CreateCall) (parent key : String) :
    Protocol Nat CreateRace (Nat × CreateOp) (Except CreateError Invocation) CreateTurn where
  start := .start
  allowed i q op := op.1 = i ∧ q.allowed (calls i) parent key op.2
  advance q op s := q.advance op.2 s.store
  final i q r := q.final (calls i) r

section Follows

variable {pyRepr : Json → String} {hands : List String} {c : CreateCall} {parent key : String}

theorem follows_findExisting (hparent : c.req.parentTapeId = some parent)
    (hkey : c.req.idempotencyKey = some key) (hne : parent ≠ "" ∧ key ≠ "") :
    (InvocationService.findExisting c.req).attempt.Follows (CreateTurn.allowed c parent key)
      CreateTurn.advance (fun q r => ∃ found, r = .ok found ∧ q = found.elim .missed .found) .start := by
  rw [InvocationService.findExisting, hparent, hkey]
  dsimp only
  rw [if_pos hne]
  exact ⟨⟨rfl, rfl, rfl⟩, fun s => ⟨_, rfl, rfl⟩⟩

theorem follows_startRun {inv : Invocation} {now : Nat} (hid : inv.id = c.id)
    (htape : inv.tapeId = c.tapeId) :
    (InvocationService.startRun inv now).attempt.Follows (CreateTurn.allowed c parent key)
      CreateTurn.advance (CreateTurn.final c) .stored := by
  have hfork : (InvocationService.registerFork inv).attempt.Follows (CreateTurn.allowed c parent key)
      CreateTurn.advance (fun q r => r = .ok () ∧ q = .stored) .stored := by
    rw [InvocationService.registerFork]
    split
    · exact ⟨trivial, fun _ => ⟨trivial, fun _ => ⟨rfl, rfl⟩⟩⟩
    · exact ⟨rfl, rfl⟩
  refine ⟨trivial, fun _ => ?_⟩
  dsimp only [Coro.bind]
  refine .attempt_bind hfork ?_ ?_
  · rintro _ _ ⟨-, rfl⟩
    exact ⟨rfl, fun _ => ⟨trivial, fun _ => ⟨⟨rfl, hid⟩, fun _ => .inr ⟨rfl, hid, htape⟩⟩⟩⟩
  · rintro _ _ ⟨h, -⟩
    cases h

/-- A call that has found nothing inserts its row, and starts the run unless it is refused. -/
theorem follows_allocate {inv : Invocation} {now : Nat} (hid : inv.id = c.id) (htape : inv.tapeId = c.tapeId)
    (hparent : inv.parentTapeId = some parent) (hkey : inv.idempotencyKey = some key) :
    (InvocationService.allocate inv now).attempt.Follows (CreateTurn.allowed c parent key)
      CreateTurn.advance (CreateTurn.final c) .missed := by
  refine ⟨⟨rfl, hid, htape, hparent, hkey⟩, fun s => ?_⟩
  cases hconflicts : s.conflicts inv with
  | true =>
    rw [CreateTurn.advance, hconflicts, if_pos rfl]
    dsimp only [Coro.bind]
    rw [hconflicts, if_pos rfl]
    exact rfl
  | false =>
    rw [CreateTurn.advance, hconflicts, if_neg Bool.false_ne_true]
    dsimp only [Coro.bind]
    rw [hconflicts, if_neg Bool.false_ne_true]
    exact follows_startRun hid htape

theorem follows_createRequest {target : String × Option String}
    (hchecked : InvocationService.checkRequest pyRepr hands c.req = .ok target)
    (hparent : c.req.parentTapeId = some parent) (hkey : c.req.idempotencyKey = some key)
    (hne : parent ≠ "" ∧ key ≠ "") :
    (InvocationService.createRequest pyRepr hands c).attempt.Follows (CreateTurn.allowed c parent key)
      CreateTurn.advance (CreateTurn.final c) .start := by
  rw [InvocationService.createRequest, hchecked]
  refine .attempt_bind (follows_findExisting hparent hkey hne) ?_ ?_
  · rintro q found ⟨_, h, rfl⟩
    obtain rfl := Except.ok.inj h
    cases found with
    | none => exact follows_allocate rfl rfl hparent hkey
    | some existing => exact .inl rfl
  · rintro q e ⟨_, h, -⟩
    cases h

end Follows

theorem follows_createProgram {pyRepr : Json → String} {hands : List String} {calls : Nat → CreateCall}
    {parent key : String} {i : Nat} {target : String × Option String}
    (hchecked : InvocationService.checkRequest pyRepr hands (calls i).req = .ok target)
    (hparent : (calls i).req.parentTapeId = some parent)
    (hkey : (calls i).req.idempotencyKey = some key) (hne : parent ≠ "" ∧ key ≠ "") :
    (createProgram pyRepr hands calls i).Follows ((createProtocol calls parent key).allowed i)
      (createProtocol calls parent key).advance ((createProtocol calls parent key).final i)
      (createProtocol calls parent key).start :=
  (follows_createRequest hchecked hparent hkey hne).within id (fun _ _ h => ⟨rfl, h⟩) (fun _ _ _ => rfl)
    fun _ _ h => h

/-! ### The invariant -/

section Invariant

variable {calls : Nat → CreateCall} {parent key : String} {start : InvocationStore} {s : CreateRace}
  {q : Nat → CreateTurn} {i o : Nat} {op : Nat × CreateOp}

theorem find_eq_head? (s : InvocationStore) (parent key : String) :
    s.find parent key = (s.keyed parent key).head? := (List.head?_filter ..).symm

/-- No call has inserted a row, and one at most is about to. -/
structure CreateBefore (start : InvocationStore) (s : CreateRace) (q : Nat → CreateTurn) : Prop where
  rows : s.store.rows = start.rows
  runs : s.store.runs = start.runs
  turns : (s.looking = [] ∧ ∀ i, q i = .start) ∨
    ∃ i, s.looking = [i] ∧ q i = .missed ∧ ∀ j, j ≠ i → q j = .start

/-- It is the invocation of the call. -/
def CreateCall.Owns (c : CreateCall) (inv : Invocation) : Prop := inv.id = c.id ∧ inv.tapeId = c.tapeId

/-- The row of call `o` is the one with the key, and no other call inserts. -/
structure CreateAfter (calls : Nat → CreateCall) (parent key : String) (start : InvocationStore)
    (s : CreateRace) (q : Nat → CreateTurn) (o : Nat) : Prop where
  looking : s.looking = []
  row : ∃ r, s.store.keyed parent key = [r] ∧ (calls o).Owns r
  owner : (q o = .stored ∧ s.store.runs = start.runs) ∨
    (q o = .scheduled ∧ s.store.runs = start.runs ++ [(calls o).id])
  others : ∀ i, i ≠ o → q i = .start ∨ ∃ r, q i = .found r ∧ (calls o).Owns r

/-- The first insertion is accepted: neither the ids nor the key are in the table. -/
theorem not_conflicts {inv : Invocation} (hrows : s.store.rows = start.rows)
    (hnone : start.keyed parent key = [])
    (hfresh : ∀ r ∈ start.rows, r.id ≠ (calls i).id ∧ r.tapeId ≠ (calls i).tapeId)
    (howns : (calls i).Owns inv) (hparent : inv.parentTapeId = some parent)
    (hkey : inv.idempotencyKey = some key) : s.store.conflicts inv = false := by
  rw [InvocationStore.conflicts, hrows, List.any_eq_false]
  intro r hr hconflict
  obtain ⟨hid, htape⟩ := hfresh r hr
  have hunkeyed := List.filter_eq_nil_iff.mp hnone r hr
  rw [howns.1, howns.2, hparent, hkey, beq_false_of_ne hid, beq_false_of_ne htape] at hconflict
  simp only [Bool.false_or, Option.isSome_some, Bool.true_and] at hconflict
  rw [Bool.and_comm] at hconflict
  exact hunkeyed hconflict

theorem keyed_append {inv : Invocation} (hnone : s.store.keyed parent key = [])
    (hparent : inv.parentTapeId = some parent) (hkey : inv.idempotencyKey = some key) :
    InvocationStore.keyed { s.store with rows := s.store.rows ++ [inv] } parent key = [inv] := by
  rw [InvocationStore.keyed] at hnone ⊢
  rw [List.filter_append, hnone, List.nil_append, List.filter_singleton, hparent, hkey]
  simp

/-- Marking a row as running leaves its ids and its key. -/
theorem keyed_setRunning {r : Invocation} (h : s.store.keyed parent key = [r]) (id : String) (now : Nat) :
    ∃ r', ((CreateOp.setRunning id now).exec s.store).keyed parent key = [r'] ∧ r'.id = r.id ∧
      r'.tapeId = r.tapeId := by
  rw [InvocationStore.keyed] at h
  refine ⟨if r.id = id ∧ r.status = .pending then { r with status := .running, startedAt := some now } else r,
    ?_, ?_, ?_⟩
  · rw [CreateOp.exec, InvocationStore.keyed, List.filter_map]
    have hsame : ((fun r : Invocation => r.parentTapeId == some parent && r.idempotencyKey == some key) ∘
        fun r : Invocation => if r.id = id ∧ r.status = .pending then
          { r with status := .running, startedAt := some now } else r) =
        fun r : Invocation => r.parentTapeId == some parent && r.idempotencyKey == some key := by
      funext r
      dsimp only [Function.comp]
      split <;> rfl
    rw [hsame, h]
    rfl
  · split <;> rfl
  · split <;> rfl

theorem CreateBefore.turn (h : CreateBefore start s q) (i : Nat) : q i = .start ∨ q i = .missed := by
  rcases h.turns with ⟨-, hall⟩ | ⟨j, -, hj, hothers⟩
  · exact .inl (hall i)
  · by_cases hij : i = j
    · exact .inr (hij ▸ hj)
    · exact .inl (hothers i hij)

theorem createBefore_step (hnone : start.keyed parent key = [])
    (hfresh : ∀ r ∈ start.rows, r.id ≠ (calls i).id ∧ r.tapeId ≠ (calls i).tapeId)
    (h : CreateBefore start s q) (hallowed : (createProtocol calls parent key).allowed i (q i) op)
    (halone : LooksAlone s i op) :
    CreateBefore start (s.exec op) (Function.update q i ((createProtocol calls parent key).advance (q i) op s)) ∨
      CreateAfter calls parent key start (s.exec op)
        (Function.update q i ((createProtocol calls parent key).advance (q i) op s)) i := by
  have hkeyed : s.store.keyed parent key = [] := by rw [InvocationStore.keyed, h.rows]; exact hnone
  obtain ⟨caller, op⟩ := op
  obtain ⟨rfl : caller = i, hop⟩ := hallowed
  cases op with
  | find parent' key' =>
    obtain ⟨hstart, rfl, rfl⟩ := hop
    have hlooking : s.looking = [] := halone
    have hfind : s.store.find parent' key' = none := by rw [find_eq_head?, hkeyed]; rfl
    refine .inl ⟨h.rows, h.runs, .inr ⟨caller, ?_, ?_, fun j hj => ?_⟩⟩
    · simp [CreateRace.exec, hfind, hlooking]
    · simp [createProtocol, CreateTurn.advance, hfind]
    · rw [Function.update_of_ne hj]
      rcases h.turns with ⟨-, hall⟩ | ⟨k, hk, -, -⟩
      · exact hall j
      · rw [hlooking] at hk
        cases hk
  | insert inv =>
    obtain ⟨hmissed, hid, htape, hparent, hkey⟩ := hop
    obtain ⟨hlooking, hothers⟩ : s.looking = [caller] ∧ ∀ j, j ≠ caller → q j = .start := by
      rcases h.turns with ⟨-, hall⟩ | ⟨k, hlooking, -, hothers⟩
      · rw [hall caller] at hmissed
        cases hmissed
      · obtain rfl : caller = k := by
          by_contra hne
          rw [hothers caller hne] at hmissed
          cases hmissed
        exact ⟨hlooking, hothers⟩
    have hconflicts : s.store.conflicts inv = false :=
      not_conflicts h.rows hnone hfresh ⟨hid, htape⟩ hparent hkey
    refine .inr ⟨?_, ⟨inv, ?_, hid, htape⟩, .inl ⟨?_, ?_⟩, fun j hj => .inl ?_⟩
    · simp [CreateRace.exec, hlooking]
    · simp only [CreateRace.exec, CreateOp.exec, hconflicts, Bool.false_eq_true, if_false]
      exact keyed_append hkeyed hparent hkey
    · simp [createProtocol, CreateTurn.advance, hconflicts]
    · simp only [CreateRace.exec, CreateOp.exec, hconflicts, Bool.false_eq_true, if_false]
      exact h.runs
    · rw [Function.update_of_ne hj]
      exact hothers j hj
  | commit =>
    refine .inl ?_
    rw [show (createProtocol calls parent key).advance (q caller) (caller, .commit) s = q caller from rfl,
      Function.update_eq_self]
    exact ⟨h.rows, h.runs, h.turns⟩
  | registerFork child parent' forkPoint =>
    refine .inl ?_
    rw [show (createProtocol calls parent key).advance (q caller)
      (caller, .registerFork child parent' forkPoint) s = q caller from rfl, Function.update_eq_self]
    refine ⟨?_, ?_, h.turns⟩
    · rw [← h.rows]
      dsimp only [CreateRace.exec, CreateOp.exec]
      split <;> rfl
    · rw [← h.runs]
      dsimp only [CreateRace.exec, CreateOp.exec]
      split <;> rfl
  | setRunning id now =>
    have hstored : q caller = .stored := hop
    rcases h.turn caller with hturn | hturn <;> rw [hstored] at hturn <;> cases hturn
  | schedule id =>
    have hstored : q caller = .stored := hop.1
    rcases h.turn caller with hturn | hturn <;> rw [hstored] at hturn <;> cases hturn

/-- No call is about to insert, or was refused. -/
theorem CreateAfter.turn (h : CreateAfter calls parent key start s q o) (i : Nat) :
    (i = o ∧ (q i = .stored ∨ q i = .scheduled)) ∨ q i = .start ∨
      ∃ r, q i = .found r ∧ (calls o).Owns r := by
  by_cases hi : i = o
  · subst hi
    exact .inl ⟨rfl, h.owner.imp And.left And.left⟩
  · exact .inr (h.others i hi)

theorem CreateAfter.ne_missed (h : CreateAfter calls parent key start s q o) (i : Nat) :
    q i ≠ .missed := by
  intro hi
  rcases h.turn i with ⟨-, hturn | hturn⟩ | hturn | ⟨r, hturn, -⟩ <;> rw [hi] at hturn <;> cases hturn

theorem CreateAfter.eq_of_stored (h : CreateAfter calls parent key start s q o) (hi : q i = .stored) :
    i = o ∧ s.store.runs = start.runs := by
  rcases h.turn i with ⟨rfl, -⟩ | hturn | ⟨r, hturn, -⟩
  · rcases h.owner with ⟨-, hruns⟩ | ⟨howner, -⟩
    · exact ⟨rfl, hruns⟩
    · rw [hi] at howner
      cases howner
  · rw [hi] at hturn
    cases hturn
  · rw [hi] at hturn
    cases hturn

/-- What a call ends with is the invocation of the call that has inserted, and that call ends with its run
started. -/
theorem CreateAfter.ended (h : CreateAfter calls parent key start s q o) {r : Except CreateError Invocation}
    (hr : (q i).final (calls i) r) :
    (∃ inv, r = .ok inv ∧ (calls o).Owns inv) ∧ (i = o → s.store.runs = start.runs ++ [(calls o).id]) := by
  cases r with
  | error e =>
    have hfailed : q i = .failed := hr
    rcases h.turn i with ⟨-, hturn | hturn⟩ | hturn | ⟨r, hturn, -⟩ <;> rw [hfailed] at hturn <;> cases hturn
  | ok inv =>
    rcases hr with hfound | ⟨hscheduled, howns⟩
    · rcases h.turn i with ⟨-, hturn | hturn⟩ | hturn | ⟨r, hturn, howns⟩
      · rw [hfound] at hturn
        cases hturn
      · rw [hfound] at hturn
        cases hturn
      · rw [hfound] at hturn
        cases hturn
      · rw [hfound] at hturn
        obtain rfl := CreateTurn.found.inj hturn
        refine ⟨⟨inv, rfl, howns⟩, fun hio => ?_⟩
        subst hio
        rcases h.owner with ⟨howner, -⟩ | ⟨howner, -⟩ <;> rw [hfound] at howner <;> cases howner
    · rcases h.turn i with ⟨rfl, -⟩ | hturn | ⟨r, hturn, -⟩
      · refine ⟨⟨inv, rfl, howns⟩, fun _ => ?_⟩
        rcases h.owner with ⟨howner, -⟩ | ⟨-, hruns⟩
        · rw [hscheduled] at howner
          cases howner
        · exact hruns
      · rw [hscheduled] at hturn
        cases hturn
      · rw [hscheduled] at hturn
        cases hturn

theorem CreateBefore.not_ended (h : CreateBefore start s q) {r : Except CreateError Invocation}
    (hr : (q i).final (calls i) r) : False := by
  rcases h.turn i with hturn | hturn <;> rw [hturn] at hr
  · cases r with
    | error e => cases hr
    | ok inv => rcases hr with hr | ⟨hr, -⟩ <;> cases hr
  · cases r with
    | error e => cases hr
    | ok inv => rcases hr with hr | ⟨hr, -⟩ <;> cases hr

theorem createAfter_step (h : CreateAfter calls parent key start s q o)
    (hallowed : (createProtocol calls parent key).allowed i (q i) op) :
    CreateAfter calls parent key start (s.exec op)
      (Function.update q i ((createProtocol calls parent key).advance (q i) op s)) o := by
  obtain ⟨caller, op⟩ := op
  obtain ⟨rfl : caller = i, hop⟩ := hallowed
  obtain ⟨r, hrow, howns⟩ := h.row
  cases op with
  | find parent' key' =>
    obtain ⟨hstart, rfl, rfl⟩ := hop
    have hfind : s.store.find parent' key' = some r := by rw [find_eq_head?, hrow]; rfl
    have hne : caller ≠ o := by
      rintro rfl
      rcases h.owner with ⟨howner, -⟩ | ⟨howner, -⟩ <;> rw [hstart] at howner <;> cases howner
    refine ⟨?_, h.row, ?_, fun j hj => ?_⟩
    · simp [CreateRace.exec, hfind, h.looking]
    · rw [Function.update_of_ne (Ne.symm hne)]
      exact h.owner
    · by_cases hjc : j = caller
      · subst hjc
        refine .inr ⟨r, ?_, howns⟩
        simp [createProtocol, CreateTurn.advance, hfind]
      · rw [Function.update_of_ne hjc]
        exact h.others j hj
  | insert inv => exact absurd hop.1 (h.ne_missed caller)
  | commit =>
    rw [show (createProtocol calls parent key).advance (q caller) (caller, .commit) s = q caller from rfl,
      Function.update_eq_self]
    exact ⟨h.looking, h.row, h.owner, h.others⟩
  | registerFork child parent' forkPoint =>
    rw [show (createProtocol calls parent key).advance (q caller)
      (caller, .registerFork child parent' forkPoint) s = q caller from rfl, Function.update_eq_self]
    have hstore : (CreateRace.exec (caller, .registerFork child parent' forkPoint) s).store.rows =
        s.store.rows ∧ (CreateRace.exec (caller, .registerFork child parent' forkPoint) s).store.runs =
          s.store.runs := by
      dsimp only [CreateRace.exec, CreateOp.exec]
      split <;> exact ⟨rfl, rfl⟩
    refine ⟨h.looking, ⟨r, ?_, howns⟩, ?_, h.others⟩
    · rw [InvocationStore.keyed, hstore.1]
      exact hrow
    · rw [hstore.2]
      exact h.owner
  | setRunning id now =>
    obtain ⟨r', hrow', hid, htape⟩ := keyed_setRunning hrow id now
    rw [show (createProtocol calls parent key).advance (q caller) (caller, .setRunning id now) s = q caller
      from rfl, Function.update_eq_self]
    exact ⟨h.looking, ⟨r', hrow', hid.trans howns.1, htape.trans howns.2⟩, h.owner, h.others⟩
  | schedule id =>
    obtain ⟨hstored, rfl⟩ := hop
    obtain ⟨rfl, hruns⟩ := h.eq_of_stored hstored
    refine ⟨h.looking, h.row, .inr ⟨?_, ?_⟩, fun j hj => ?_⟩
    · rw [Function.update_self]
      rfl
    · simp only [CreateRace.exec, CreateOp.exec, hruns]
    · rw [Function.update_of_ne hj]
      exact h.others j hj

end Invariant

/-! ### Every interleaving -/

/-- Every call that has ended has returned the one invocation with the key, and once all that have begun have
ended, one run has been started, and it is that of the invocation. -/
structure CreatedOnce (parent key : String) (start : InvocationStore)
    (p : Pool Nat CreateRace (Nat × CreateOp) CreateError (Except CreateError Invocation)) : Prop where
  returns : ∀ i r, p.returned i r → ∃ inv row, r = .ok inv ∧ p.state.store.keyed parent key = [row] ∧
    inv.id = row.id ∧ inv.tapeId = row.tapeId
  ends : (∃ i, p.begun i = true) → (∀ i, p.begun i = true → p.hasReturned i = true) →
    ∃ row, p.state.store.keyed parent key = [row] ∧ p.state.store.runs = start.runs ++ [row.id]

/-- Whatever the schedule of the calls: where each looks while no other is between a lookup that found nothing
and its insertion, there is one invocation with the key and one run, and every call returns it. -/
theorem createdOnce_of_looksAlone {pyRepr : Json → String} {hands : List String} {calls : Nat → CreateCall}
    {parent key : String} {start : InvocationStore} (hne : parent ≠ "" ∧ key ≠ "")
    (hparent : ∀ i, (calls i).req.parentTapeId = some parent)
    (hkey : ∀ i, (calls i).req.idempotencyKey = some key)
    (hchecked : ∀ i, ∃ target, InvocationService.checkRequest pyRepr hands (calls i).req = .ok target)
    (hnone : start.keyed parent key = [])
    (hfresh : ∀ i, ∀ r ∈ start.rows, r.id ≠ (calls i).id ∧ r.tapeId ≠ (calls i).tapeId)
    (schedule : List Nat)
    (halone : Pool.Along CreateRace.exec id LooksAlone (createPool pyRepr hands calls start)
      (schedule.map .run)) :
    CreatedOnce parent key start
      ((createPool pyRepr hands calls start).run CreateRace.exec id (schedule.map .run)) := by
  obtain ⟨q, hobeys, hinv⟩ := Pool.inv_run_id
    (I := fun s q => CreateBefore start s q ∨ ∃ o, CreateAfter calls parent key start s q o)
    (p := createPool pyRepr hands calls start)
    (fun s q i op hI hallowed halone => by
      rcases hI with hI | ⟨o, hI⟩
      · exact (createBefore_step hnone (hfresh i) hI hallowed halone).imp id fun h => ⟨i, h⟩
      · exact .inr ⟨o, createAfter_step hI hallowed⟩)
    (Pool.obeys_init (P := createProtocol calls parent key) (fun i => by
      obtain ⟨target, htarget⟩ := hchecked i
      exact follows_createProgram htarget (hparent i) (hkey i) hne) { store := start })
    (.inl ⟨rfl, rfl, .inl ⟨rfl, fun _ => rfl⟩⟩) halone
  generalize (createPool pyRepr hands calls start).run CreateRace.exec id (schedule.map .run) = p at *
  have hended : ∀ i r, p.returned i r → (q i).final (calls i) r := fun i r hr => (hobeys i).2 _ hr
  rcases hinv with hbefore | ⟨o, hafter⟩
  · refine ⟨fun i r hr => (hbefore.not_ended (hended i r hr)).elim, fun ⟨i, hi⟩ hall => ?_⟩
    obtain ⟨r, hr⟩ := Pool.exists_returned (hall i hi)
    exact (hbefore.not_ended (hended i r hr)).elim
  · obtain ⟨row, hrow, howns⟩ := hafter.row
    refine ⟨fun i r hr => ?_, fun _ hall => ⟨row, hrow, ?_⟩⟩
    · obtain ⟨⟨inv, rfl, hinv⟩, -⟩ := hafter.ended (hended i r hr)
      exact ⟨inv, row, rfl, hrow, hinv.1.trans howns.1.symm, hinv.2.trans howns.2.symm⟩
    · have hbegun : p.begun o = true := by
        by_contra hnot
        have hstart : q o = .start := (hobeys o).1 (Bool.not_eq_true _ ▸ hnot)
        rcases hafter.owner with ⟨howner, -⟩ | ⟨howner, -⟩ <;> rw [hstart] at howner <;> cases howner
      obtain ⟨r, hr⟩ := Pool.exists_returned (hall o hbegun)
      rw [(hafter.ended (hended o r hr)).2 rfl, howns.1]

/-- A request that a client sends again. -/
def retryRequest : InvocationRequest where
  target := "human"
  input := .str "deploy?"
  parentTapeId := some "tape_p"
  idempotencyKey := some "key_42"

theorem checkRequest_retryRequest :
    InvocationService.checkRequest (fun _ => "") [] retryRequest = .ok ("human", none) := by
  decide +kernel

def retries (i : Nat) : CreateCall where
  req := retryRequest
  callerAccountId := "acc_1"
  id := if i = 0 then "inv_a" else "inv_b"
  tapeId := if i = 0 then "tape_a" else "tape_b"
  now := i

/-- The calls after a schedule. -/
def retriesAfter (schedule : List Nat) :
    Pool Nat CreateRace (Nat × CreateOp) CreateError (Except CreateError Invocation) :=
  (createPool (fun _ => "") [] retries {}).run CreateRace.exec id (schedule.map .run)

theorem createdOnce_of_looksAlone_retried :
    CreatedOnce "tape_p" "key_42" {} (retriesAfter [0, 0, 1, 0, 0, 0, 0]) :=
  createdOnce_of_looksAlone (by decide) (fun _ => rfl) (fun _ => rfl)
    (fun _ => ⟨_, checkRequest_retryRequest⟩) rfl (fun _ _ h => absurd h List.not_mem_nil) _
    (by decide +kernel)

/-- Two calls look before either inserts, and the second raises. -/
theorem retry_refused :
    (retriesAfter [0, 1, 0, 1]).returned 1 (.error (.integrityError "invocations")) ∧
      ¬ CreatedOnce "tape_p" "key_42" {} (retriesAfter [0, 1, 0, 1]) := by
  have hrefused : (retriesAfter [0, 1, 0, 1]).returned 1 (.error (.integrityError "invocations")) := rfl
  refine ⟨hrefused, fun h => ?_⟩
  obtain ⟨inv, row, heq, -⟩ := h.returns 1 _ hrefused
  cases heq

end Krewhub
