import Krewhub.Sandboxes.Service

/-!
# One replacement of a dead sandbox

Any number of calls of `ensure_sandbox_for_bundle` and `reprovision_for_bundle` for one bundle whose sandbox has
died, interleaved at every await. The fence of a call is the read of the pointer: a call that finds the dead
sandbox there goes on to replace it, and moves the pointer only after it has terminated, asked and inserted.
Calls that read the pointer in between find the same, and each of them provisions a sandbox of its own.
-/

namespace Krewhub

/-! ### The calls -/

inductive RecoveryKind where
  | ensure
  | reprovision
  deriving DecidableEq, Repr

/-- A call and what it draws. -/
structure RecoveryCall where
  kind : RecoveryKind
  draws : SandboxDraws

/-- The rows, and the calls that have found the dead sandbox at the fence and have yet to move the pointer. -/
structure RecoveryRace where
  world : SandboxWorld
  recovering : List Nat := []

namespace SandboxWorld

/-- The `sandbox_id` of a bundle. -/
def pointer (w : SandboxWorld) (bundleId : String) : Option String :=
  (w.db.bundles.get bundleId).bind (·.sandboxId)

end SandboxWorld

section Calls

variable (bundleId dead : String) (calls : Nat → RecoveryCall)

/-- A step of a call. -/
def RecoveryRace.exec (op : Nat × SandboxOp) (s : RecoveryRace) : RecoveryRace where
  world := op.2.exec s.world
  recovering :=
    match op.2 with
    | .fence id => if s.world.pointer id = some dead then op.1 :: s.recovering else s.recovering
    | .sql (.updateBundle ..) => s.recovering.erase op.1
    | _ => s.recovering

/-- A call, with what it ends with as its result. -/
def recoveryProgram (i : Nat) : Coro RecoveryRace (Nat × SandboxOp) Exn (Except Exn Sandbox) :=
  match (calls i).kind with
  | .ensure =>
    (SandboxService.ensureSandboxForBundle bundleId (calls i).draws).attempt.within RecoveryRace.world
      (i, ·)
  | .reprovision =>
    (SandboxService.reprovisionForBundle bundleId (some dead) (calls i).draws).attempt.within
      RecoveryRace.world (i, ·)

def recoveryPool (start : SandboxWorld) :
    Pool Nat RecoveryRace (Nat × SandboxOp) Exn (Except Exn Sandbox) :=
  .init (recoveryProgram bundleId dead calls) { world := start }

end Calls

/-- A call that finds the dead sandbox at its fence finds it while no other is replacing it; one that looks at
the row of the dead sandbox before its fence does not find it ready; and the orchestrator has a machine for a
call that asks. -/
def RecoversAlone (dead : String) (s : RecoveryRace) (i : Nat) (op : Nat × SandboxOp) : Prop :=
  match op.2 with
  | .fence id => s.world.pointer id = some dead → s.recovering = []
  | .getSandbox id => id = dead → i ∉ s.recovering →
      (s.world.sandboxes.get id).all (·.status ≠ .ready) = true
  | .createSandbox _ => (s.world.orchestrator.answers s.world.orchestrator.asked).isOk = true
  | _ => True

instance (dead : String) (s : RecoveryRace) (i : Nat) : DecidablePred (RecoversAlone dead s i) :=
  fun op => by
    unfold RecoversAlone
    split <;> infer_instance

/-! ### How far a call has come -/

/-- The call has seen nothing but the dead sandbox, has seen the pointer elsewhere, has read the ready row it
points to; or it replaces the sandbox: it has found the dead one at its fence, has terminated it, has been given
a machine, has inserted the row, has moved the pointer. A call that has met what no schedule has it meet is
`lost`. -/
inductive RecoveryTurn where
  | start
  | found (id : String)
  | row (sb : Sandbox)
  | owner
  | cleared
  | provisioned (e2bId : String)
  | inserted (sb : Sandbox)
  | swapped (sb : Sandbox)
  | lost

namespace RecoveryTurn

section Protocol

variable (bundleId dead : String) (d : SandboxDraws)

/-- The row of a machine that a call inserts. -/
def IsFresh (e2bId : String) (sb : Sandbox) : Prop :=
  sb.id = d.sandboxId ∧ sb.bundleId = some bundleId ∧ sb.e2bSandboxId = e2bId ∧ sb.status = .ready

/-- The steps of a call that meets what it should. -/
inductive Step : RecoveryTurn → SandboxOp → Prop where
  | plain (q : RecoveryTurn) {op : Op} (h : op.IsPlain) : Step q (.sql op)
  | fence : Step .start (.fence bundleId)
  | look : Step .start (.getSandbox dead)
  | lookElsewhere (id : String) : Step (.found id) (.getSandbox id)
  | lookDead : Step .owner (.getSandbox dead)
  | terminate (e2bId : String) : Step .owner (.terminate e2bId)
  | clear (now : Nat) : Step .owner (.updateStatus dead .terminated now)
  | template (id : String) : Step .cleared (.templateOf id)
  | provision (template : String) : Step .cleared (.createSandbox template)
  | insert {e2bId : String} {sb : Sandbox} (h : IsFresh bundleId d e2bId sb) :
      Step (.provisioned e2bId) (.insertSandbox sb)
  | swap (sb : Sandbox) :
      Step (.inserted sb) (.sql (.updateBundle bundleId (.setSandbox sb.id) none))

def allowed (q : RecoveryTurn) (op : SandboxOp) : Prop := q = .lost ∨ Step bundleId dead d q op

/-- The typestate of a call that has read the pointer. -/
def atPointer (pointer : Option String) (onDead : RecoveryTurn) : RecoveryTurn :=
  pointer.elim .lost fun id => if id = dead then onDead else if id = "" then .lost else .found id

def advance (q : RecoveryTurn) (op : SandboxOp) (w : SandboxWorld) : RecoveryTurn :=
  match q, op with
  | .lost, _ => .lost
  | .start, .sql .select => atPointer dead (w.pointer bundleId) .start
  | .start, .fence id => atPointer dead (w.pointer id) .owner
  | .start, .getSandbox id =>
      if (w.sandboxes.get id).all (·.status ≠ .ready) then .start else .lost
  | .found id, .getSandbox _ =>
      match w.sandboxes.get id with
      | some sb => if sb.status = .ready then .row sb else .lost
      | none => .lost
  | .owner, .getSandbox id =>
      if (w.sandboxes.get id).all (·.status = .terminated) then .cleared else .owner
  | .owner, .updateStatus .. => .cleared
  | .cleared, .createSandbox _ =>
      match w.orchestrator.answers w.orchestrator.asked with
      | .ok e2bId => .provisioned e2bId
      | .error _ => .lost
  | .provisioned _, .insertSandbox sb => if (w.sandboxes.get sb.id).isSome then .lost else .inserted sb
  | .inserted sb, .sql (.updateBundle ..) => .swapped sb
  | q, _ => q

/-- What a call ends with. -/
def final (q : RecoveryTurn) (r : Except Exn Sandbox) : Prop :=
  q = .lost ∨ ∃ sb, r = .ok sb ∧ (q = .row sb ∨ q = .swapped sb)

end Protocol

end RecoveryTurn

def recoveryProtocol (bundleId dead : String) (calls : Nat → RecoveryCall) :
    Protocol Nat RecoveryRace (Nat × SandboxOp) (Except Exn Sandbox) RecoveryTurn where
  start := .start
  allowed i q op := op.1 = i ∧ q.allowed bundleId dead (calls i).draws op.2
  advance q op s := q.advance bundleId dead op.2 s.world
  final _ q r := q.final r

section Follows

variable {bundleId dead : String} {d : SandboxDraws} {ε : Type}

/-- What a call may do, and what becomes of it. -/
abbrev RecoversTo (bundleId dead : String) (d : SandboxDraws) {α : Type} (c : Sandboxing α) (q : RecoveryTurn)
    (final : RecoveryTurn → Except Exn α → Prop) : Prop :=
  c.attempt.Follows (RecoveryTurn.allowed bundleId dead d) (RecoveryTurn.advance bundleId dead) final q

theorem recoversTo_lost {α : Type} {final : RecoveryTurn → Except Exn α → Prop}
    (hfinal : ∀ r, final .lost r) (c : Sandboxing α) : RecoversTo bundleId dead d c .lost final := by
  induction c with
  | done a => exact hfinal (.ok a)
  | raise e => exact hfinal (.error e)
  | await op next ih => exact ⟨.inl rfl, fun w => ih w⟩

theorem plain_commit : Op.IsPlain .commit := .inr (.inl rfl)

theorem plain_select : Op.IsPlain .select := .inl rfl

theorem recoversTo_get {id : String} {q : RecoveryTurn}
    (hallowed : q.allowed bundleId dead d (.getSandbox id)) :
    RecoversTo bundleId dead d (SandboxRepo.get id) q fun q' r =>
      ∃ w : SandboxWorld, r = .ok (w.sandboxes.get id) ∧
        q' = q.advance bundleId dead (.getSandbox id) w :=
  ⟨hallowed, fun w => ⟨w, rfl, rfl⟩⟩

theorem recoversTo_updateStatus (now : Nat) :
    RecoversTo bundleId dead d (SandboxRepo.updateStatus dead .terminated now) .owner
      fun q r => r = .ok () ∧ q = .cleared :=
  ⟨.inr (.clear now), fun _ => ⟨.inr (.plain _ plain_commit), fun _ => ⟨rfl, rfl⟩⟩⟩

/-- The dead sandbox is terminated, whatever the orchestrator says to it. -/
theorem recoversTo_terminate (now : Nat) :
    RecoversTo bundleId dead d (SandboxService.terminate dead now) .owner
      fun q r => r = .ok () ∧ q = .cleared := by
  refine .attempt_bind (recoversTo_get (.inr .lookDead)) ?_ ?_
  · rintro _ _ ⟨w, hrow, rfl⟩
    obtain rfl := Except.ok.inj hrow
    rw [RecoveryTurn.advance]
    cases w.sandboxes.get dead with
    | none => exact ⟨rfl, rfl⟩
    | some sb =>
      dsimp only [Option.all]
      by_cases hstatus : sb.status = .terminated
      · rw [if_pos hstatus, if_pos (decide_eq_true hstatus)]
        exact ⟨rfl, rfl⟩
      · rw [if_neg hstatus, if_neg (by simpa using hstatus)]
        refine ⟨.inr (.terminate _), fun w => ?_⟩
        dsimp only [Coro.tryCatch, Coro.bind]
        cases w.orchestrator.refuses sb.e2bSandboxId with
        | none => exact recoversTo_updateStatus now
        | some e => exact recoversTo_updateStatus now
  · rintro _ _ ⟨w, h, -⟩
    cases h

/-- A machine that the orchestrator has given gets its row. -/
theorem recoversTo_createForBundle (owner template : String) :
    RecoversTo bundleId dead d (SandboxService.createForBundle bundleId owner template d) .cleared
      fun q r => q = .lost ∨ ∃ sb, r = .ok sb ∧ q = .inserted sb := by
  refine ⟨.inr (.provision _), fun w => ?_⟩
  rw [RecoveryTurn.advance]
  cases hanswer : w.orchestrator.answers w.orchestrator.asked with
  | error e =>
    dsimp only [Coro.bind]
    rw [hanswer]
    exact .inl rfl
  | ok e2bId =>
    dsimp only [Coro.bind]
    rw [hanswer]
    refine ⟨.inr (.insert ⟨rfl, rfl, rfl, rfl⟩), fun w => ?_⟩
    rw [RecoveryTurn.advance]
    cases hrow : w.sandboxes.get
        (SandboxService.newSandbox bundleId (some bundleId) owner template e2bId d).id with
    | some _ =>
      rw [Option.isSome_some, if_pos rfl]
      dsimp only [Coro.bind]
      rw [hrow, Option.isSome_some, if_pos rfl]
      exact .inl rfl
    | none =>
      rw [Option.isSome_none, if_neg Bool.false_ne_true]
      dsimp only [Coro.bind]
      rw [hrow, Option.isSome_none, if_neg Bool.false_ne_true]
      exact ⟨.inr (.plain _ plain_commit), fun _ => .inr ⟨_, rfl, rfl⟩⟩

/-- Behind the fence the dead sandbox is replaced. -/
theorem recoversTo_replace {bundle : Bundle} (hbundle : bundle.sandboxId = some dead) :
    RecoversTo bundleId dead d (SandboxService.replace bundleId bundle (some dead) d) .owner
      RecoveryTurn.final := by
  have htarget : (truthyText (some dead) <|> bundle.sandboxId) = some dead := by
    rw [hbundle, truthyText, Option.filter_some]
    split <;> rfl
  rw [SandboxService.replace, htarget]
  refine .attempt_bind (M := fun q r => r = .ok () ∧ q = .cleared)
    (.attempt_tryCatch (recoversTo_terminate d.terminatedAt) (fun _ _ h => h) ?_) ?_ ?_
  · rintro _ _ ⟨h, -⟩
    cases h
  · rintro _ _ ⟨-, rfl⟩
    refine ⟨.inr (.template _), fun w => ?_⟩
    dsimp only [Coro.bind]
    refine .attempt_bind (recoversTo_createForBundle _ _) ?_ ?_
    · rintro q fresh (rfl | ⟨sb, hsb, rfl⟩)
      · exact recoversTo_lost (fun _ => .inl rfl) _
      · obtain rfl := Except.ok.inj hsb
        exact ⟨.inr (.swap fresh), fun _ =>
          ⟨.inr (.plain _ plain_commit), fun _ => .inr ⟨fresh, rfl, .inr rfl⟩⟩⟩
    · rintro q e (rfl | ⟨sb, hsb, -⟩)
      · exact .inl rfl
      · cases hsb
  · rintro _ _ ⟨h, -⟩
    cases h

/-- The row a pointer elsewhere points to, if it is ready. -/
theorem recoversTo_ready (id : String) :
    RecoversTo bundleId dead d
      (do let row ← SandboxRepo.get id; return row.filter (·.status = .ready)) (.found id)
      fun q r => q = .lost ∨ ∃ sb, r = .ok (some sb) ∧ q = .row sb := by
  refine ⟨.inr (.lookElsewhere id), fun w => ?_⟩
  dsimp only [RecoveryTurn.advance, Coro.bind]
  cases w.sandboxes.get id with
  | none => exact .inl rfl
  | some sb =>
    dsimp only
    by_cases hready : sb.status = .ready
    · rw [if_pos hready, Option.filter_some, if_pos (decide_eq_true hready)]
      exact .inr ⟨sb, rfl, rfl⟩
    · rw [if_neg hready]
      exact .inl rfl

/-- A call that finds a ready row returns it. -/
theorem recoversTo_orElse {id : String} {c : Sandboxing (Option Sandbox)} {rest : Sandboxing Sandbox}
    (hc : c = do let row ← SandboxRepo.get id; return row.filter (·.status = .ready)) :
    RecoversTo bundleId dead d
      (c >>= fun found => match found with
        | some sb => return sb
        | none => rest) (.found id) RecoveryTurn.final := by
  subst hc
  refine .attempt_bind (recoversTo_ready id) ?_ ?_
  · rintro q found (rfl | ⟨sb, hsb, rfl⟩)
    · exact recoversTo_lost (fun _ => .inl rfl) _
    · obtain rfl := Except.ok.inj hsb
      exact .inr ⟨sb, rfl, .inl rfl⟩
  · rintro q e (rfl | ⟨sb, hsb, -⟩)
    · exact .inl rfl
    · cases hsb

theorem recoversTo_reprovision :
    RecoversTo bundleId dead d (SandboxService.reprovisionForBundle bundleId (some dead) d) .start
      RecoveryTurn.final := by
  refine ⟨.inr .fence, fun w => ?_⟩
  dsimp only [RecoveryTurn.advance, Coro.bind, RecoveryTurn.atPointer, SandboxWorld.pointer]
  cases hrow : w.db.bundles.get bundleId with
  | none => exact recoversTo_lost (fun _ => .inl rfl) _
  | some bundle =>
    dsimp only [Option.bind]
    cases hpointer : bundle.sandboxId with
    | none => exact recoversTo_lost (fun _ => .inl rfl) _
    | some current =>
      dsimp only [Option.elim]
      by_cases hdead : current = dead
      · subst hdead
        rw [if_pos rfl]
        dsimp only [SandboxService.existingReplacement]
        rw [hpointer]
        dsimp only
        rw [if_neg (not_not_intro rfl)]
        exact recoversTo_replace hpointer
      · rw [if_neg hdead]
        by_cases hempty : current = ""
        · rw [if_pos hempty]
          exact recoversTo_lost (fun _ => .inl rfl) _
        · rw [if_neg hempty]
          refine recoversTo_orElse ?_
          dsimp only [SandboxService.existingReplacement]
          rw [hpointer]
          dsimp only
          rw [if_pos hdead]

theorem recoversTo_ensure :
    RecoversTo bundleId dead d (SandboxService.ensureSandboxForBundle bundleId d) .start
      RecoveryTurn.final := by
  refine ⟨.inr (.plain _ plain_select), fun w => ?_⟩
  dsimp only [RecoveryTurn.advance, Coro.bind, Coro.within, RecoveryTurn.atPointer,
    SandboxWorld.pointer]
  cases hrow : w.db.bundles.get bundleId with
  | none => exact recoversTo_lost (fun _ => .inl rfl) _
  | some bundle =>
    dsimp only [Option.bind]
    cases hpointer : bundle.sandboxId with
    | none => exact recoversTo_lost (fun _ => .inl rfl) _
    | some current =>
      dsimp only [Option.elim]
      by_cases hdead : current = dead
      · subst hdead
        rw [if_pos rfl]
        dsimp only [SandboxService.readySandbox]
        rw [hpointer]
        by_cases hempty : current = ""
        · subst hempty
          exact recoversTo_reprovision
        · rw [truthyText, Option.filter_some, if_pos (decide_eq_true hempty)]
          refine ⟨.inr .look, fun w => ?_⟩
          dsimp only [RecoveryTurn.advance, Coro.bind]
          cases w.sandboxes.get current with
          | none => exact recoversTo_reprovision
          | some sb =>
            by_cases hready : sb.status = .ready
            · rw [Option.all_some, if_neg (by simpa using hready)]
              exact recoversTo_lost (fun _ => .inl rfl) _
            · rw [Option.all_some, if_pos (by simpa using hready), Option.filter_some,
                if_neg (by simpa using hready)]
              exact recoversTo_reprovision
      · rw [if_neg hdead]
        by_cases hempty : current = ""
        · rw [if_pos hempty]
          exact recoversTo_lost (fun _ => .inl rfl) _
        · rw [if_neg hempty]
          refine recoversTo_orElse ?_
          dsimp only [SandboxService.readySandbox]
          rw [hpointer, truthyText, Option.filter_some, if_pos (decide_eq_true hempty)]

end Follows

theorem follows_recoveryProgram {bundleId dead : String} {calls : Nat → RecoveryCall} (i : Nat) :
    (recoveryProgram bundleId dead calls i).Follows ((recoveryProtocol bundleId dead calls).allowed i)
      (recoveryProtocol bundleId dead calls).advance ((recoveryProtocol bundleId dead calls).final i)
      (recoveryProtocol bundleId dead calls).start := by
  rw [recoveryProgram]
  cases (calls i).kind with
  | ensure =>
    exact (recoversTo_ensure).within id (fun _ _ h => ⟨rfl, h⟩) (fun _ _ _ => rfl) fun _ _ h => h
  | reprovision =>
    exact (recoversTo_reprovision).within id (fun _ _ h => ⟨rfl, h⟩) (fun _ _ _ => rfl) fun _ _ h => h

/-! ### The invariant -/

namespace RecoveryTurn

/-- The machine the call has been given. -/
def machine : RecoveryTurn → Option String
  | .provisioned e2bId => some e2bId
  | .inserted sb | .swapped sb => some sb.e2bSandboxId
  | _ => none

/-- The row the call has inserted. -/
def fresh : RecoveryTurn → Option Sandbox
  | .inserted sb | .swapped sb => some sb
  | _ => none

/-- The call has seen to it that the dead sandbox is terminated. -/
def hasCleared : RecoveryTurn → Bool
  | .cleared | .provisioned _ | .inserted _ | .swapped _ => true
  | _ => false

end RecoveryTurn

section Invariant

variable {bundleId dead : String} {calls : Nat → RecoveryCall} {start : SandboxWorld} {s : RecoveryRace}
  {q : Nat → RecoveryTurn} {i o : Nat} {sb : Sandbox} {op : Nat × SandboxOp} {turn : RecoveryTurn}

/-- What the call that replaces the sandbox has made of the rows and the machines; nobody else has touched
them. -/
structure RecoveryProgress (dead : String) (start w : SandboxWorld) (turn : RecoveryTurn) : Prop where
  created : w.orchestrator.created = start.orchestrator.created ++ turn.machine.toList
  rows : ∀ id, id ≠ dead →
    w.sandboxes.get id = (turn.fresh.filter (·.id = id) <|> start.sandboxes.get id)
  deadRow : ∀ r, w.sandboxes.get dead = some r →
    (start.sandboxes.get dead).isSome ∧ (turn.hasCleared = true → r.status = .terminated)

/-- No call replaces the sandbox. -/
structure RecoveryWaiting (bundleId dead : String) (start : SandboxWorld) (s : RecoveryRace)
    (q : Nat → RecoveryTurn) : Prop where
  pointer : s.world.pointer bundleId = some dead
  idle : s.recovering = []
  turns : ∀ i, q i = .start
  progress : RecoveryProgress dead start s.world .start

/-- Call `o` replaces the sandbox. -/
structure RecoveryUnderWay (bundleId dead : String) (calls : Nat → RecoveryCall) (start : SandboxWorld)
    (s : RecoveryRace) (q : Nat → RecoveryTurn) (o : Nat) : Prop where
  pointer : s.world.pointer bundleId = some dead
  alone : s.recovering = [o]
  owner : q o = .owner ∨ q o = .cleared ∨ (∃ e2bId, q o = .provisioned e2bId) ∨
    ∃ sb, q o = .inserted sb ∧ RecoveryTurn.IsFresh bundleId (calls o).draws sb.e2bSandboxId sb
  others : ∀ i, i ≠ o → q i = .start
  progress : RecoveryProgress dead start s.world (q o)

/-- Call `o` has moved the pointer to its row. -/
structure RecoveryOver (bundleId dead : String) (calls : Nat → RecoveryCall) (start : SandboxWorld)
    (s : RecoveryRace) (q : Nat → RecoveryTurn) (o : Nat) (sb : Sandbox) : Prop where
  pointer : s.world.pointer bundleId = some sb.id
  idle : s.recovering = []
  fresh : RecoveryTurn.IsFresh bundleId (calls o).draws sb.e2bSandboxId sb
  owner : q o = .swapped sb
  others : ∀ i, i ≠ o → q i = .start ∨ q i = .found sb.id ∨ q i = .row sb
  progress : RecoveryProgress dead start s.world (.swapped sb)

theorem sandboxId_ne_empty (d : SandboxDraws) : d.sandboxId ≠ "" := by
  intro h
  have hlength := congrArg String.length h
  rw [SandboxDraws.sandboxId, String.length_append] at hlength
  exact absurd hlength (by simp)

theorem exec_plain {op : Op} (h : op.IsPlain) (caller : Nat) :
    s.exec dead (caller, .sql op) = s := by
  rcases h with rfl | rfl | rfl <;> rfl

theorem advance_plain {op : Op} (h : op.IsPlain) (hturn : turn ≠ .start) (w : SandboxWorld) :
    turn.advance bundleId dead (.sql op) w = turn := by
  rcases h with rfl | rfl | rfl <;> cases turn <;> first | rfl | exact absurd rfl hturn

/-- A call before its fence learns nothing while the pointer is where it was. -/
theorem start_stays {op : SandboxOp} {d : SandboxDraws} (hpointer : s.world.pointer bundleId = some dead)
    (hidle : i ∉ s.recovering) (hstep : RecoveryTurn.Step bundleId dead d .start op)
    (halone : RecoversAlone dead s i (i, op)) (hfence : op ≠ .fence bundleId) :
    s.exec dead (i, op) = s ∧ RecoveryTurn.advance bundleId dead .start op s.world = .start := by
  cases hstep with
  | plain _ hplain =>
    refine ⟨exec_plain hplain i, ?_⟩
    rcases hplain with rfl | rfl | rfl
    · rw [RecoveryTurn.advance, RecoveryTurn.atPointer, hpointer]
      exact if_pos rfl
    · rfl
    · rfl
  | fence => exact absurd rfl hfence
  | look => exact ⟨rfl, if_pos (halone rfl hidle)⟩

theorem pointer_setSandbox {w : SandboxWorld} (hpointer : w.pointer bundleId = some dead) (id : String) :
    (SandboxOp.exec (.sql (.updateBundle bundleId (.setSandbox id) none)) w).pointer bundleId = some id := by
  obtain ⟨bundle, hbundle, -⟩ := Option.bind_eq_some_iff.mp hpointer
  rw [SandboxWorld.pointer, SandboxOp.exec]
  dsimp only [Op.exec]
  rw [Table.get_amend_self, hbundle]
  rfl

/-- The steps of the call that replaces the sandbox, on the rows and the machines. -/
theorem RecoveryProgress.step {op : SandboxOp} {d : SandboxDraws} {w : SandboxWorld}
    (hprogress : RecoveryProgress dead start w turn)
    (hfree : start.sandboxes.get d.sandboxId = none ∧ d.sandboxId ≠ dead)
    (hanswers : ∀ template, op = .createSandbox template →
      (w.orchestrator.answers w.orchestrator.asked).isOk = true)
    (hstep : RecoveryTurn.Step bundleId dead d turn op) (hstart : turn ≠ .start)
    (hfound : ∀ id, turn ≠ .found id) :
    RecoveryProgress dead start (op.exec w) (turn.advance bundleId dead op w) := by
  cases hstep with
  | plain _ hplain =>
    rw [advance_plain hplain hstart]
    rcases hplain with rfl | rfl | rfl <;> exact hprogress
  | fence => exact absurd rfl hstart
  | look => exact absurd rfl hstart
  | lookElsewhere id => exact absurd rfl (hfound id)
  | lookDead =>
    rw [RecoveryTurn.advance]
    by_cases hall : (w.sandboxes.get dead).all (·.status = .terminated) = true
    · rw [if_pos hall]
      refine ⟨hprogress.created, hprogress.rows, fun r hr => ⟨(hprogress.deadRow r hr).1, fun _ => ?_⟩⟩
      rw [show w.sandboxes.get dead = some r from hr] at hall
      simpa using hall
    · rw [if_neg hall]
      exact hprogress
  | terminate e2bId =>
    refine ⟨?_, hprogress.rows, hprogress.deadRow⟩
    rw [SandboxOp.exec, Orchestrator.delete]
    split
    · exact hprogress.created
    · exact hprogress.created
  | clear now =>
    refine ⟨hprogress.created, fun id hid => ?_, fun r hr => ?_⟩
    · rw [SandboxOp.exec]
      dsimp only
      rw [Table.get_amend_of_ne _ hid]
      exact hprogress.rows id hid
    · rw [SandboxOp.exec] at hr
      dsimp only at hr
      rw [Table.get_amend_self, Option.map_eq_some_iff] at hr
      obtain ⟨r₀, hr₀, rfl⟩ := hr
      exact ⟨(hprogress.deadRow r₀ hr₀).1, fun _ => rfl⟩
  | template id => exact hprogress
  | provision template =>
    obtain ⟨e2bId, hanswer⟩ : ∃ e2bId, w.orchestrator.answers w.orchestrator.asked = .ok e2bId := by
      have hok := hanswers template rfl
      cases hanswer : w.orchestrator.answers w.orchestrator.asked with
      | ok e2bId => exact ⟨e2bId, rfl⟩
      | error e =>
        rw [hanswer] at hok
        cases hok
    rw [RecoveryTurn.advance, hanswer]
    refine ⟨?_, hprogress.rows, hprogress.deadRow⟩
    rw [SandboxOp.exec, Orchestrator.create, hanswer]
    dsimp only
    rw [hprogress.created]
    exact congrArg (· ++ [e2bId]) (List.append_nil _)
  | @insert e2bId sb hfresh =>
    obtain ⟨hid, -, he2bId, -⟩ := hfresh
    have hne : sb.id ≠ dead := hid ▸ hfree.2
    have hnone : w.sandboxes.get sb.id = none := by
      rw [hprogress.rows sb.id hne, hid]
      exact hfree.1
    rw [RecoveryTurn.advance, hnone, Option.isSome_none, if_neg Bool.false_ne_true]
    refine ⟨?_, fun id hid' => ?_, fun r hr => ?_⟩
    · rw [RecoveryTurn.machine, he2bId]
      exact hprogress.created
    · rw [SandboxOp.exec]
      dsimp only [RecoveryTurn.fresh]
      by_cases hsame : sb.id = id
      · subst hsame
        rw [Option.filter_some, if_pos (decide_eq_true rfl)]
        exact Table.get_insert_self hnone
      · rw [Option.filter_some, if_neg (by simpa using hsame),
          Table.get_insert_of_ne (fun h => hsame h.symm)]
        exact hprogress.rows id hid'
    · rw [SandboxOp.exec] at hr
      dsimp only at hr
      rw [Table.get_insert_of_ne (fun h => hne h.symm)] at hr
      exact ⟨(hprogress.deadRow r hr).1, fun _ => (hprogress.deadRow r hr).2 rfl⟩
  | swap sb => exact ⟨hprogress.created, hprogress.rows, hprogress.deadRow⟩

theorem RecoveryWaiting.step {op : SandboxOp} {d : SandboxDraws}
    (h : RecoveryWaiting bundleId dead start s q) (hstep : RecoveryTurn.Step bundleId dead d (q i) op)
    (halone : RecoversAlone dead s i (i, op)) :
    RecoveryWaiting bundleId dead start (s.exec dead (i, op))
        (Function.update q i ((q i).advance bundleId dead op s.world)) ∨
      RecoveryUnderWay bundleId dead calls start (s.exec dead (i, op))
        (Function.update q i ((q i).advance bundleId dead op s.world)) i := by
  have hstart : q i = .start := h.turns i
  rw [hstart] at hstep ⊢
  by_cases hfence : op = .fence bundleId
  · subst hfence
    have howner : RecoveryTurn.advance bundleId dead .start (.fence bundleId) s.world = .owner := by
      rw [RecoveryTurn.advance, RecoveryTurn.atPointer, h.pointer]
      exact if_pos rfl
    rw [howner]
    refine .inr ⟨h.pointer, ?_, .inl (Function.update_self ..), fun j hj => ?_, ?_⟩
    · rw [RecoveryRace.exec]
      dsimp only
      rw [if_pos h.pointer, h.idle]
    · rw [Function.update_of_ne hj]
      exact h.turns j
    · rw [Function.update_self]
      exact ⟨h.progress.created, h.progress.rows, h.progress.deadRow⟩
  · obtain ⟨hsame, hturn⟩ := start_stays h.pointer (by rw [h.idle]; exact List.not_mem_nil) hstep halone
      hfence
    rw [hsame, hturn, ← hstart, Function.update_eq_self]
    exact .inl h

theorem RecoveryUnderWay.moved {s' : RecoveryRace} (h : RecoveryUnderWay bundleId dead calls start s q o)
    (hpointer : s'.world.pointer bundleId = s.world.pointer bundleId) (halone : s'.recovering = s.recovering)
    (howner : turn = .owner ∨ turn = .cleared ∨ (∃ e2bId, turn = .provisioned e2bId) ∨
      ∃ sb, turn = .inserted sb ∧ RecoveryTurn.IsFresh bundleId (calls o).draws sb.e2bSandboxId sb)
    (hprogress : RecoveryProgress dead start s'.world turn) :
    RecoveryUnderWay bundleId dead calls start s' (Function.update q o turn) o := by
  refine ⟨hpointer.trans h.pointer, halone.trans h.alone, ?_, fun j hj => ?_, ?_⟩
  · rw [Function.update_self]
    exact howner
  · rw [Function.update_of_ne hj]
    exact h.others j hj
  · rw [Function.update_self]
    exact hprogress

/-- The steps of the call that replaces the sandbox; the last of them moves the pointer. -/
theorem RecoveryUnderWay.owner_step {op : SandboxOp}
    (hfree : start.sandboxes.get (calls o).draws.sandboxId = none ∧ (calls o).draws.sandboxId ≠ dead)
    (h : RecoveryUnderWay bundleId dead calls start s q o) (hturn : q o = turn)
    (hstep : RecoveryTurn.Step bundleId dead (calls o).draws turn op)
    (halone : RecoversAlone dead s o (o, op)) :
    RecoveryUnderWay bundleId dead calls start (s.exec dead (o, op))
        (Function.update q o (turn.advance bundleId dead op s.world)) o ∨
      ∃ sb, RecoveryOver bundleId dead calls start (s.exec dead (o, op))
        (Function.update q o (turn.advance bundleId dead op s.world)) o sb := by
  have howner := h.owner
  rw [hturn] at howner
  have hstart : turn ≠ .start := by
    rcases howner with rfl | rfl | ⟨_, rfl⟩ | ⟨_, rfl, -⟩ <;> intro h <;> cases h
  have hfound : ∀ id, turn ≠ .found id := by
    intro id
    rcases howner with rfl | rfl | ⟨_, rfl⟩ | ⟨_, rfl, -⟩ <;> intro h <;> cases h
  have hanswers : ∀ template, op = .createSandbox template →
      (s.world.orchestrator.answers s.world.orchestrator.asked).isOk = true := by
    rintro template rfl
    exact halone
  have hbefore : RecoveryProgress dead start s.world turn := hturn ▸ h.progress
  have hprogress : RecoveryProgress dead start (s.exec dead (o, op)).world
      (turn.advance bundleId dead op s.world) :=
    hbefore.step hfree hanswers hstep hstart hfound
  cases hstep with
  | plain _ hplain =>
    rw [exec_plain hplain, advance_plain hplain hstart, ← hturn, Function.update_eq_self]
    exact .inl h
  | fence => exact absurd rfl hstart
  | look => exact absurd rfl hstart
  | lookElsewhere id => exact absurd rfl (hfound id)
  | lookDead =>
    refine .inl (h.moved rfl rfl ?_ hprogress)
    rw [RecoveryTurn.advance]
    split
    · exact .inr (.inl rfl)
    · exact .inl rfl
  | terminate e2bId => exact .inl (h.moved rfl rfl (.inl rfl) hprogress)
  | clear now => exact .inl (h.moved rfl rfl (.inr (.inl rfl)) hprogress)
  | template id => exact .inl (h.moved rfl rfl (.inr (.inl rfl)) hprogress)
  | provision template =>
    refine .inl (h.moved rfl rfl ?_ hprogress)
    have hok := hanswers template rfl
    rw [RecoveryTurn.advance]
    cases hanswer : s.world.orchestrator.answers s.world.orchestrator.asked with
    | ok e2bId => exact .inr (.inr (.inl ⟨e2bId, rfl⟩))
    | error e =>
      rw [hanswer] at hok
      cases hok
  | @insert e2bId sb hfresh =>
    refine .inl (h.moved rfl rfl (.inr (.inr (.inr ⟨sb, ?_, ?_⟩))) hprogress)
    · have hnone : s.world.sandboxes.get sb.id = none := by
        rw [hbefore.rows sb.id (hfresh.1 ▸ hfree.2), hfresh.1]
        exact hfree.1
      rw [RecoveryTurn.advance, hnone, Option.isSome_none, if_neg Bool.false_ne_true]
    · rw [hfresh.2.2.1]
      exact hfresh
  | swap sb =>
    have hfresh : RecoveryTurn.IsFresh bundleId (calls o).draws sb.e2bSandboxId sb := by
      rcases howner with h | h | ⟨_, h⟩ | ⟨sb', h, hfresh⟩
      · cases h
      · cases h
      · cases h
      · obtain rfl := RecoveryTurn.inserted.inj h
        exact hfresh
    refine .inr ⟨sb, pointer_setSandbox h.pointer sb.id, ?_, hfresh, Function.update_self .., fun j hj => ?_,
      hprogress⟩
    · rw [RecoveryRace.exec]
      dsimp only
      rw [h.alone, List.erase_cons_head]
    · rw [Function.update_of_ne hj]
      exact .inl (h.others j hj)

theorem RecoveryUnderWay.step {op : SandboxOp}
    (hfree : start.sandboxes.get (calls i).draws.sandboxId = none ∧ (calls i).draws.sandboxId ≠ dead)
    (h : RecoveryUnderWay bundleId dead calls start s q o)
    (hstep : RecoveryTurn.Step bundleId dead (calls i).draws (q i) op)
    (halone : RecoversAlone dead s i (i, op)) :
    RecoveryUnderWay bundleId dead calls start (s.exec dead (i, op))
        (Function.update q i ((q i).advance bundleId dead op s.world)) o ∨
      ∃ sb, RecoveryOver bundleId dead calls start (s.exec dead (i, op))
        (Function.update q i ((q i).advance bundleId dead op s.world)) o sb := by
  by_cases hio : i = o
  · subst hio
    exact h.owner_step hfree rfl hstep halone
  · have hstart : q i = .start := h.others i hio
    rw [hstart] at hstep ⊢
    have hidle : i ∉ s.recovering := by
      rw [h.alone, List.mem_singleton]
      exact hio
    have hfence : op ≠ .fence bundleId := by
      rintro rfl
      have hnone : s.recovering = [] := halone h.pointer
      rw [h.alone] at hnone
      cases hnone
    obtain ⟨hsame, hturn⟩ := start_stays h.pointer hidle hstep halone hfence
    rw [hsame, hturn, ← hstart, Function.update_eq_self]
    exact .inl h

theorem RecoveryOver.row (h : RecoveryOver bundleId dead calls start s q o sb) (hid : sb.id ≠ dead) :
    s.world.sandboxes.get sb.id = some sb := by
  rw [h.progress.rows sb.id hid, RecoveryTurn.fresh, Option.filter_some, if_pos (decide_eq_true rfl)]
  rfl

/-- Once the pointer has moved, every call finds it where it is and returns the row it points to. -/
theorem RecoveryOver.step {op : SandboxOp}
    (hne : (calls o).draws.sandboxId ≠ dead) (h : RecoveryOver bundleId dead calls start s q o sb)
    (hstep : RecoveryTurn.Step bundleId dead (calls i).draws (q i) op) :
    RecoveryOver bundleId dead calls start (s.exec dead (i, op))
      (Function.update q i ((q i).advance bundleId dead op s.world)) o sb := by
  have hid : sb.id ≠ dead := h.fresh.1 ▸ hne
  have hrow := h.row hid
  have hpointer : RecoveryTurn.atPointer dead (s.world.pointer bundleId) .start = .found sb.id ∧
      RecoveryTurn.atPointer dead (s.world.pointer bundleId) .owner = .found sb.id := by
    rw [h.pointer, RecoveryTurn.atPointer, RecoveryTurn.atPointer, Option.elim, Option.elim, if_neg hid,
      if_neg hid, if_neg (h.fresh.1 ▸ sandboxId_ne_empty _)]
    exact ⟨rfl, rfl⟩
  have hmoved : ∀ turn, s.exec dead (i, op) = s → i ≠ o →
      (turn = .start ∨ turn = .found sb.id ∨ turn = .row sb) →
      RecoveryOver bundleId dead calls start (s.exec dead (i, op)) (Function.update q i turn) o sb := by
    intro turn hsame hio hturn
    rw [hsame]
    refine ⟨h.pointer, h.idle, h.fresh, ?_, fun j hj => ?_, h.progress⟩
    · rw [Function.update_of_ne (Ne.symm hio)]
      exact h.owner
    · by_cases hji : j = i
      · subst hji
        rw [Function.update_self]
        exact hturn
      · rw [Function.update_of_ne hji]
        exact h.others j hj
  by_cases hio : i = o
  · subst hio
    rw [h.owner] at hstep ⊢
    cases hstep with
    | plain _ hplain =>
      rw [exec_plain hplain, advance_plain hplain (by intro h; cases h), ← h.owner, Function.update_eq_self]
      exact h
  · rcases h.others i hio with hturn | hturn | hturn
    · rw [hturn] at hstep ⊢
      cases hstep with
      | plain _ hplain =>
        refine hmoved _ (exec_plain hplain i) hio ?_
        rcases hplain with rfl | rfl | rfl
        · exact .inr (.inl hpointer.1)
        · exact .inl rfl
        · exact .inl rfl
      | fence =>
        refine hmoved _ ?_ hio (.inr (.inl hpointer.2))
        rw [RecoveryRace.exec]
        dsimp only [SandboxOp.exec]
        rw [if_neg (by rw [h.pointer]; exact fun heq => hid (Option.some.inj heq))]
      | look =>
        refine hmoved _ rfl hio (.inl ?_)
        refine if_pos ?_
        cases hdead : s.world.sandboxes.get dead with
        | none => rfl
        | some r =>
          have hterminated : r.status = .terminated := (h.progress.deadRow r hdead).2 rfl
          rw [Option.all_some, hterminated]
          rfl
    · rw [hturn] at hstep ⊢
      cases hstep with
      | plain _ hplain =>
        exact hmoved _ (exec_plain hplain i) hio
          (.inr (.inl (advance_plain hplain (by intro h; cases h) _)))
      | lookElsewhere =>
        refine hmoved _ rfl hio (.inr (.inr ?_))
        rw [RecoveryTurn.advance, hrow]
        exact if_pos h.fresh.2.2.2
    · rw [hturn] at hstep ⊢
      cases hstep with
      | plain _ hplain =>
        exact hmoved _ (exec_plain hplain i) hio
          (.inr (.inr (advance_plain hplain (by intro h; cases h) _)))

/-- How far the calls have come together. -/
def RecoveryInv (bundleId dead : String) (calls : Nat → RecoveryCall) (start : SandboxWorld)
    (s : RecoveryRace) (q : Nat → RecoveryTurn) : Prop :=
  RecoveryWaiting bundleId dead start s q ∨
    (∃ o, RecoveryUnderWay bundleId dead calls start s q o) ∨
    ∃ o sb, RecoveryOver bundleId dead calls start s q o sb

theorem RecoveryInv.ne_lost (h : RecoveryInv bundleId dead calls start s q) (i : Nat) : q i ≠ .lost := by
  intro hlost
  rcases h with h | ⟨o, h⟩ | ⟨o, sb, h⟩
  · rw [h.turns i] at hlost
    cases hlost
  · by_cases hio : i = o
    · subst hio
      rcases h.owner with h | h | ⟨_, h⟩ | ⟨_, h, -⟩ <;> rw [hlost] at h <;> cases h
    · rw [h.others i hio] at hlost
      cases hlost
  · by_cases hio : i = o
    · rw [hio, h.owner] at hlost
      cases hlost
    · rcases h.others i hio with h | h | h <;> rw [hlost] at h <;> cases h

theorem RecoveryInv.step
    (hfree : ∀ i, start.sandboxes.get (calls i).draws.sandboxId = none ∧ (calls i).draws.sandboxId ≠ dead)
    (h : RecoveryInv bundleId dead calls start s q)
    (hallowed : (recoveryProtocol bundleId dead calls).allowed i (q i) op)
    (halone : RecoversAlone dead s i op) :
    RecoveryInv bundleId dead calls start (s.exec dead op)
      (Function.update q i ((recoveryProtocol bundleId dead calls).advance (q i) op s)) := by
  obtain ⟨caller, op⟩ := op
  obtain ⟨rfl : caller = i, hop⟩ := hallowed
  have hstep := hop.resolve_left (h.ne_lost caller)
  rcases h with h | ⟨o, h⟩ | ⟨o, sb, h⟩
  · exact (h.step hstep halone).imp id fun h => .inl ⟨caller, h⟩
  · exact .inr ((h.step (hfree caller) hstep halone).imp (⟨o, ·⟩) fun ⟨sb, h⟩ => ⟨o, sb, h⟩)
  · exact .inr (.inr ⟨o, sb, h.step (hfree o).2 hstep⟩)

/-- A call has ended only when the pointer has been moved, with the row it was moved to. -/
theorem RecoveryInv.ended (h : RecoveryInv bundleId dead calls start s q) {r : Except Exn Sandbox}
    (hr : (q i).final r) : ∃ o sb, r = .ok sb ∧ RecoveryOver bundleId dead calls start s q o sb := by
  obtain ⟨sb, rfl, hturn⟩ := hr.resolve_left (h.ne_lost i)
  rcases h with h | ⟨o, h⟩ | ⟨o, sb', h⟩
  · rcases hturn with hturn | hturn <;> rw [h.turns i] at hturn <;> cases hturn
  · by_cases hio : i = o
    · subst hio
      rcases h.owner with h | h | ⟨_, h⟩ | ⟨_, h, -⟩ <;> rw [h] at hturn <;>
        rcases hturn with hturn | hturn <;> cases hturn
    · rcases hturn with hturn | hturn <;> rw [h.others i hio] at hturn <;> cases hturn
  · refine ⟨o, sb', ?_, h⟩
    by_cases hio : i = o
    · subst hio
      rcases hturn with hturn | hturn <;> rw [h.owner] at hturn <;> cases hturn
      rfl
    · rcases h.others i hio with hother | hother | hother <;> rw [hother] at hturn <;>
        rcases hturn with hturn | hturn <;> cases hturn
      rfl

theorem RecoveryInv.created_length (h : RecoveryInv bundleId dead calls start s q) :
    s.world.orchestrator.created.length ≤ start.orchestrator.created.length + 1 := by
  have hprogress : ∃ turn, RecoveryProgress dead start s.world turn := by
    rcases h with h | ⟨o, h⟩ | ⟨o, sb, h⟩
    · exact ⟨_, h.progress⟩
    · exact ⟨_, h.progress⟩
    · exact ⟨_, h.progress⟩
  obtain ⟨turn, hprogress⟩ := hprogress
  rw [hprogress.created, List.length_append]
  cases turn.machine with
  | none => exact Nat.le_succ _
  | some e2bId => exact Nat.le_refl _

end Invariant

/-! ### Every interleaving -/

/-- One machine has been provisioned; `fresh` is its row, which is ready and the only new one; the bundle points
to it, and every other row of the bundle that is not terminated was there before, and is not the dead one. -/
structure Replaced (bundleId dead : String) (start w : SandboxWorld) (fresh : Sandbox) : Prop where
  created : w.orchestrator.created = start.orchestrator.created ++ [fresh.e2bSandboxId]
  row : fresh ∈ w.sandboxes ∧ fresh.bundleId = some bundleId ∧ fresh.status = .ready
  rows : ∀ r ∈ w.sandboxes, r = fresh ∨ ∃ r₀ ∈ start.sandboxes, r₀.id = r.id
  pointer : w.pointer bundleId = some fresh.id
  left : ∀ r ∈ w.sandboxes, r.bundleId = some bundleId → r.status ≠ .terminated →
    r = fresh ∨ r ∈ start.sandboxes ∧ r.id ≠ dead

/-- No more than one machine has been provisioned, and every call that has ended has returned the one row that
replaces the dead sandbox. -/
structure ReplacedOnce (bundleId dead : String) (start : SandboxWorld)
    (p : Pool Nat RecoveryRace (Nat × SandboxOp) Exn (Except Exn Sandbox)) : Prop where
  atMostOne : p.state.world.orchestrator.created.length ≤ start.orchestrator.created.length + 1
  returns : ∀ i r, p.returned i r →
    ∃ fresh, r = .ok fresh ∧ Replaced bundleId dead start p.state.world fresh

theorem replaced_of_over {bundleId dead : String} {calls : Nat → RecoveryCall} {start : SandboxWorld}
    {s : RecoveryRace} {q : Nat → RecoveryTurn} {o : Nat} {sb : Sandbox}
    (hne : (calls o).draws.sandboxId ≠ dead) (h : RecoveryOver bundleId dead calls start s q o sb) :
    Replaced bundleId dead start s.world sb := by
  have hid : sb.id ≠ dead := h.fresh.1 ▸ hne
  have hrow := h.row hid
  have hother : ∀ r ∈ s.world.sandboxes, r.id ≠ sb.id → r.id ≠ dead → r ∈ start.sandboxes := by
    intro r hr hrid hrdead
    have hget := Table.get_eq_some_iff.mpr ⟨hr, rfl⟩
    rw [show key r = r.id from rfl, h.progress.rows r.id hrdead, RecoveryTurn.fresh, Option.filter_some,
      if_neg (by simpa using Ne.symm hrid)] at hget
    exact Table.mem_of_get hget
  refine ⟨h.progress.created, ⟨Table.mem_of_get hrow, h.fresh.2.1, h.fresh.2.2.2⟩, fun r hr => ?_, h.pointer,
    fun r hr _ hstatus => ?_⟩
  · by_cases hrid : r.id = sb.id
    · exact .inl (Table.eq_of_key_eq hr (Table.mem_of_get hrow) hrid)
    · by_cases hrdead : r.id = dead
      · have hget : s.world.sandboxes.get dead = some r := Table.get_eq_some_iff.mpr ⟨hr, hrdead⟩
        obtain ⟨r₀, hr₀⟩ := Option.isSome_iff_exists.mp (h.progress.deadRow r hget).1
        exact .inr ⟨r₀, Table.mem_of_get hr₀, (Table.key_eq_of_get hr₀).trans hrdead.symm⟩
      · exact .inr ⟨r, hother r hr hrid hrdead, rfl⟩
  · by_cases hrid : r.id = sb.id
    · exact .inl (Table.eq_of_key_eq hr (Table.mem_of_get hrow) hrid)
    · by_cases hrdead : r.id = dead
      · have hget : s.world.sandboxes.get dead = some r := Table.get_eq_some_iff.mpr ⟨hr, hrdead⟩
        exact absurd ((h.progress.deadRow r hget).2 rfl) hstatus
      · exact .inr ⟨hother r hr hrid hrdead, hrdead⟩

/-- Whatever the schedule of the calls: where each that finds the dead sandbox at its fence finds it while no
other is replacing it, no call takes the dead sandbox for a ready one, and the orchestrator has a machine, the
dead sandbox is replaced once and every call returns the replacement. -/
theorem replacedOnce_of_recoversAlone {bundleId dead : String} {calls : Nat → RecoveryCall}
    {start : SandboxWorld} (hpointer : start.pointer bundleId = some dead)
    (hfree : ∀ i, start.sandboxes.get (calls i).draws.sandboxId = none ∧ (calls i).draws.sandboxId ≠ dead)
    (schedule : List Nat)
    (halone : Pool.Along (RecoveryRace.exec dead) id (RecoversAlone dead)
      (recoveryPool bundleId dead calls start) (schedule.map .run)) :
    ReplacedOnce bundleId dead start
      ((recoveryPool bundleId dead calls start).run (RecoveryRace.exec dead) id (schedule.map .run)) := by
  have hprogress : RecoveryProgress dead start start .start := by
    refine ⟨(List.append_nil _).symm, fun id _ => rfl, fun r hr => ⟨?_, fun h => by cases h⟩⟩
    rw [hr]
    rfl
  obtain ⟨q, hobeys, hinv⟩ := Pool.inv_run_id (I := RecoveryInv bundleId dead calls start)
    (p := recoveryPool bundleId dead calls start) (fun s q i op h => h.step hfree)
    (Pool.obeys_init (P := recoveryProtocol bundleId dead calls) follows_recoveryProgram { world := start })
    (.inl ⟨hpointer, rfl, fun _ => rfl, hprogress⟩) halone
  refine ⟨hinv.created_length, fun i r hr => ?_⟩
  obtain ⟨o, sb, rfl, hover⟩ := hinv.ended ((hobeys i).2 _ hr)
  exact ⟨sb, rfl, replaced_of_over (hfree o).2 hover⟩

/-- A bundle whose sandbox has died without its row saying so. -/
def deadWorld : SandboxWorld where
  db :=
    { bundles :=
        { rows := [{ id := "b1", ownerAccountId := some "alice", sandboxId := some "sbx_dead" }]
          nodup := by decide } }
  sandboxes :=
    { rows :=
        [{ id := "sbx_dead", bundleId := some "b1", e2bSandboxId := "e2b_dead", status := .ready
           createdAt := 0, updatedAt := 0 }]
      nodup := by decide }
  orchestrator := { answers := fun n => .ok (if n = 0 then "e2b_0" else "e2b_1") }

/-- Two recoveries and a request for the sandbox of the bundle. -/
def recoveries (i : Nat) : RecoveryCall where
  kind := if i = 2 then .ensure else .reprovision
  draws := { hex := if i = 0 then "a" else if i = 1 then "b" else "c", terminatedAt := 1, createdAt := 2 }

/-- The calls after a schedule. -/
def recoveriesAfter (schedule : List Nat) :
    Pool Nat RecoveryRace (Nat × SandboxOp) Exn (Except Exn Sandbox) :=
  (recoveryPool "b1" "sbx_dead" recoveries deadWorld).run (RecoveryRace.exec "sbx_dead") id
    (schedule.map .run)

theorem recoveries_free (i : Nat) : deadWorld.sandboxes.get (recoveries i).draws.sandboxId = none ∧
    (recoveries i).draws.sandboxId ≠ "sbx_dead" := by
  have hid : (recoveries i).draws.sandboxId = "sbx_a" ∨ (recoveries i).draws.sandboxId = "sbx_b" ∨
      (recoveries i).draws.sandboxId = "sbx_c" := by
    rw [SandboxDraws.sandboxId, recoveries]
    dsimp only
    split
    · exact .inl (by decide)
    · split
      · exact .inr (.inl (by decide))
      · exact .inr (.inr (by decide))
  rcases hid with h | h | h <;> rw [h] <;> decide +kernel

theorem replacedOnce_of_recoversAlone_recovered :
    ReplacedOnce "b1" "sbx_dead" deadWorld
      (recoveriesAfter [0, 0, 0, 0, 0, 0, 0, 0, 0, 0, 0, 1, 2, 1, 2]) :=
  replacedOnce_of_recoversAlone rfl recoveries_free _ (by decide +kernel)

/-- Two calls read the pointer before either moves it, and both provision a sandbox. -/
theorem recovered_twice :
    (recoveriesAfter [0, 1, 0, 0, 0, 0, 0, 0, 0, 0, 0, 0, 1, 1, 1, 1, 1, 1, 1]).state.world.orchestrator.created =
        ["e2b_0", "e2b_1"] ∧
      ¬ ReplacedOnce "b1" "sbx_dead" deadWorld
        (recoveriesAfter [0, 1, 0, 0, 0, 0, 0, 0, 0, 0, 0, 0, 1, 1, 1, 1, 1, 1, 1]) := by
  have hcreated : (recoveriesAfter [0, 1, 0, 0, 0, 0, 0, 0, 0, 0, 0, 0, 1, 1, 1, 1, 1, 1,
      1]).state.world.orchestrator.created = ["e2b_0", "e2b_1"] := by decide +kernel
  refine ⟨hcreated, fun h => ?_⟩
  have hlength := h.atMostOne
  rw [hcreated] at hlength
  exact absurd hlength (by decide)

end Krewhub
