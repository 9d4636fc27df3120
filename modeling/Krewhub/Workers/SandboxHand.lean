import Krewhub.Sandboxes.Sweeper
import Krewhub.Workers.FileOps

/-!
# The calls of the Hand

A sandbox has two ids: that of its row, which a target is, and that of its machine, which the client of the
orchestrator wants. `execute` looks the second up and hands it on; after a recovery the operation is tried again
on the machine that has taken the place of the dead one. The Hand runs here as a coroutine that awaits the rows,
the service, the client and the end of a command, and what each answers is up to the world.

Of all its calls one is made on another id: a command that has been cancelled is killed on the target.
-/

namespace Krewhub

/-! ### What the Hand awaits -/

/-- An exception, as far as the Hand tells one from another. -/
inductive HandExc where
  | raised (kind : EnvdErrorKind) (text : PyStr)
  | deadSandboxExec (reason : PyStr)

/-- `str(exc)`. -/
def HandExc.text : HandExc → PyStr
  | raised _ text => text
  | deadSandboxExec reason => reason

/-- A method of the client with its arguments, the id of the sandbox apart. -/
inductive E2bCall where
  | execCommand (command : PyStr) (cwd : Option PyStr) (env : Option (List (PyStr × PyValue))) (timeout : Int)
  | writeFile (path : PyStr) (data : List UInt8)
  | readFile (path : PyStr)
  | listDir (path : PyStr) (depth : Int)
  | killProcess
  | setTimeout (seconds : Nat)

/-- What the Hand awaits; `finish` is the wait for the end of a command or for its cancellation. -/
inductive HandAwait where
  | call (e2bSandboxId : String) (method : E2bCall)
  | getSandbox (sandboxId : String)
  | getEnvs (ownerAccountId : String)
  | finish
  | reprovision (bundleId deadSandboxId : String)
  | milestone (old fresh : Sandbox)

/-- What the world answers at an await, each field to those that ask for it: the row, the credentials, the
replacement of a sandbox; what a call on the client raises, if anything, or else returns; what there has been of
a command by the end of the wait, and whether and why it is cancelled then. -/
structure HandWorld where
  row : Except PyStr (Option Sandbox)
  envs : Except PyStr (List (PyStr × PyValue))
  fresh : Except PyStr Sandbox
  raises : Option HandExc
  data : List UInt8
  entries : PyValue
  chunks : List PyValue
  polls : Nat → Bool
  streamRaises : Option PyExc
  cancelled : Bool
  cancelReason : Option PyStr

abbrev Handing (α : Type) := Coro HandWorld HandAwait HandExc α

/-- `ResultEnvelope`, as the Hand fills it. -/
inductive HandEnvelope where
  | accept (content : PyValue)
  | cancel (reason : PyStr)
  | error (reason : PyStr)

/-- What `execute` is called with. -/
structure HandRequest where
  targetId : Option String
  input : PyValue
  deadline : Int

/-- A Hand as it has been constructed: which of its optional parts it has, and which of the optional methods its
client. -/
structure ConfiguredHand where
  db : Bool
  sandboxService : Bool
  credentialsService : Bool
  killProcess : Bool
  setTimeout : Bool

/-- A method of the client on a sandbox. -/
def callE2b {α : Type} (e2bSandboxId : String) (method : E2bCall) (returns : HandWorld → α) : Handing α :=
  .await (.call e2bSandboxId method) fun w =>
    match w.raises with
    | none => .done (returns w)
    | some exc => .raise exc

/-! ### The Hand -/

/-- `needle in text`. -/
def PyStr.has (text : PyStr) (needle : String) : Bool := decide (PyStr.ofString needle <:+: text)

/-- `dict(d)` after `update(e)`. -/
def updated (d e : List (PyStr × PyValue)) : List (PyStr × PyValue) :=
  e.foldl
    (fun d entry =>
      if d.any (·.1 == entry.1) then d.map fun old => if old.1 == entry.1 then entry else old
      else d ++ [entry])
    d

namespace HandEnvelope

/-- What an exception of a read or a list becomes. -/
def ofFileError (exc : HandExc) : HandEnvelope :=
  match exc with
  | .raised .fileNotFound text => .error (PyStr.ofString "path_not_found: " ++ text)
  | exc => .error (PyStr.ofString "e2b_filesystem_failed: " ++ exc.text)

/-- What an exception of a write becomes. -/
def ofWriteError (exc : HandExc) : HandEnvelope :=
  match exc with
  | .raised .valueError text =>
      if text.has "path_too_large" then .error text else .error (PyStr.ofString "e2b_filesystem_failed: " ++ text)
  | exc => ofFileError exc

/-- What has been found out about a command that has not been cancelled, if it is a failure. -/
def ofInfraError (infraError : PyStr) : HandEnvelope :=
  if infraError.has "no matching operation" || infraError.has "404" then
    .error (PyStr.ofString ("e2b_exec_not_wired: the krewhub→envd exec path is not configured in this deployment. " ++
      "Underlying: ") ++ infraError)
  else .error infraError

end HandEnvelope

namespace ConfiguredHand

variable (B : Builtins) (texts : ErrorTexts) (h : ConfiguredHand)

/-- `_looks_like_dead_sandbox`. -/
def looksLikeDeadSandbox (text : PyStr) : Bool := deadSandboxMarkers.any (B.lower text).has

/-- `_merge_credentials_into_env`. -/
def mergeCredentialsIntoEnv (ownerAccountId : Option String) (brainEnv : Option (List (PyStr × PyValue))) :
    Handing (Option (List (PyStr × PyValue))) :=
  match ownerAccountId with
  | none => return brainEnv
  | some owner =>
    if h.credentialsService then
      .perform (.getEnvs owner) fun w =>
        match w.envs with
        | .error _ => brainEnv
        | .ok stored =>
          if stored.isEmpty && (brainEnv.getD []).isEmpty then none else some (updated stored (brainEnv.getD []))
    else return brainEnv

/-- `_lookup_sandbox`. -/
def lookupSandbox (targetId : String) : Handing (Option Sandbox) :=
  if h.db && SandboxHand.isSandboxId targetId then
    .perform (.getSandbox targetId) fun w =>
      match w.row with
      | .ok row => row
      | .error _ => none
  else return none

/-- `_with_recovery`. -/
def withRecovery {α : Type} (targetId e2bSandboxId : String) (op : String → Handing α) : Handing α := do
  match ← (op e2bSandboxId).attempt with
  | .ok a => return a
  | .error exc =>
    if looksLikeDeadSandbox B exc.text && h.sandboxService && h.db then
      match ← h.lookupSandbox targetId with
      | none => .raise exc
      | some row =>
        match truthyText row.bundleId with
        | none => .raise exc
        | some bundleId =>
          match ← Coro.perform (.reprovision bundleId row.id) HandWorld.fresh with
          | .error _ => .raise exc
          | .ok fresh =>
            .perform (.milestone row fresh) fun _ => ()
            op fresh.e2bSandboxId
    else .raise exc

/-- `_heartbeat`. -/
def heartbeat (e2bSandboxId : String) : Handing Unit :=
  if h.setTimeout then do
    let _ ← (callE2b e2bSandboxId (.setTimeout 3600) fun _ => ()).attempt
  else return ()

/-- `_execute_write`. -/
def executeWrite (targetId e2bSandboxId : String) (path : PyStr) (data : List UInt8) : Handing HandEnvelope := do
  match ← (h.withRecovery B targetId e2bSandboxId fun eid =>
      callE2b eid (.writeFile path data) fun _ => eid).attempt with
  | .error exc => return .ofWriteError exc
  | .ok used =>
    h.heartbeat used
    return .accept (pyDict [("path", .str path), ("bytes_written", .int data.length)])

/-- `_execute_read`; the id beside the data is what is captured. -/
def executeRead (targetId e2bSandboxId : String) (path : PyStr) : Handing HandEnvelope := do
  match ← (h.withRecovery B targetId e2bSandboxId fun eid =>
      callE2b eid (.readFile path) fun w => (w.data, eid)).attempt with
  | .error exc => return .ofFileError exc
  | .ok (data, used) =>
    h.heartbeat used
    let (text, encoding) := classifyBytes data
    return .accept (pyDict [("path", .str path), ("data", .str text), ("encoding", .str (PyStr.ofString encoding))])

/-- `_execute_list`. -/
def executeList (targetId e2bSandboxId : String) (path : PyStr) (depth : Int) : Handing HandEnvelope := do
  match ← (h.withRecovery B targetId e2bSandboxId fun eid =>
      callE2b eid (.listDir path depth) fun w => (w.entries, eid)).attempt with
  | .error exc => return .ofFileError exc
  | .ok (entries, used) =>
    h.heartbeat used
    return .accept (pyDict [("path", .str path), ("entries", entries)])

/-- What is answered when a command has come to its end. -/
def finished (e2bSandboxId : String) (c : Consumed) : Handing HandEnvelope :=
  match c.infraError, c.exitCode with
  | some infraError, _ => return .ofInfraError infraError
  | none, none => return .error (PyStr.ofString "no_exit_code: e2b stream ended without exit code")
  | none, some exitCode => do
    h.heartbeat e2bSandboxId
    return .accept (pyDict [("exit_code", .int exitCode), ("stdout_tail", .str c.stdout.value),
      ("stderr_tail", .str c.stderr.value), ("artifacts", .list []), ("diff_summary", .none)])

/-- `_do_exec_attempt`. -/
def doExecAttempt (targetId e2bSandboxId : String) (command : PyStr) (cwd : Option PyStr)
    (env : Option (List (PyStr × PyValue))) (deadline : Int) : Handing HandEnvelope := do
  match ← (callE2b e2bSandboxId (.execCommand command cwd env deadline) fun _ => ()).attempt with
  | .error exc => return .error (PyStr.ofString "e2b_exec_failed: " ++ exc.text)
  | .ok () =>
    let w ← Coro.perform .finish id
    if w.cancelled then
      if h.killProcess then
        let _ ← (callE2b targetId .killProcess fun _ => ()).attempt
      return .cancel ((w.cancelReason.filter fun reason => !reason.isEmpty).getD (PyStr.ofString "operator_cancelled"))
    else h.finished e2bSandboxId (Consumed.consume B texts w.polls w.streamRaises {} 0 w.chunks)

/-- The `_attempt` of `_execute_exec`. -/
def attempt (targetId e2bSandboxId : String) (command : PyStr) (cwd : Option PyStr)
    (env : Option (List (PyStr × PyValue))) (deadline : Int) : Handing HandEnvelope := do
  match ← h.doExecAttempt B texts targetId e2bSandboxId command cwd env deadline with
  | .error reason =>
    if !reason.isEmpty && looksLikeDeadSandbox B reason then .raise (.deadSandboxExec reason)
    else return .error reason
  | result => return result

/-- `_execute_exec`. -/
def executeExec (targetId e2bSandboxId : String) (command : PyStr) (cwd : Option PyStr)
    (env : Option (List (PyStr × PyValue))) (deadline : Int) : Handing HandEnvelope :=
  (h.withRecovery B targetId e2bSandboxId fun eid =>
    h.attempt B texts targetId eid command cwd env deadline).tryCatch fun
      | .deadSandboxExec reason => some (return .error reason)
      | _ => none

/-- The operation on a sandbox that has been looked up. -/
def operate (targetId e2bSandboxId : String) (ownerAccountId : Option String) (r : HandRequest) :
    Handing HandEnvelope :=
  match parseOp B texts r.input with
  | .error exc => .raise (.raised (if exc.isValueError then .valueError else .other) (texts.exception exc))
  | .ok (.error reason) => return .error reason
  | .ok (.ok (.write path data)) => h.executeWrite B targetId e2bSandboxId path data
  | .ok (.ok (.read path)) => h.executeRead B targetId e2bSandboxId path
  | .ok (.ok (.list path depth)) => h.executeList B targetId e2bSandboxId path depth
  | .ok (.ok (.exec command cwd env)) => do
    let merged ← h.mergeCredentialsIntoEnv ownerAccountId env
    h.executeExec B texts targetId e2bSandboxId command cwd merged r.deadline

/-- `execute`. -/
def execute (r : HandRequest) : Handing HandEnvelope :=
  match truthyText r.targetId with
  | none => return .error (PyStr.ofString "sandbox_id_missing: SandboxHand requires a target_id")
  | some targetId =>
    if h.db && SandboxHand.isSandboxId targetId then do
      match ← Coro.perform (.getSandbox targetId) HandWorld.row with
      | .error text => return .error (PyStr.ofString "sandbox_lookup_failed: " ++ text)
      | .ok none => return .error (PyStr.ofString ("sandbox_not_found: " ++ targetId))
      | .ok (some row) => h.operate B texts targetId row.e2bSandboxId (some row.ownerAccountId) r
    else h.operate B texts targetId targetId none r

end ConfiguredHand

/-! ### The sandbox an operation runs on -/

/-- The id of the machine an operation runs on, as soon as it is known: that of the row of the target, then that of
the sandbox that has replaced it. -/
def runsOn (on : Option String) : HandAwait → HandWorld → Option String
  | .getSandbox _, w =>
    match on, w.row with
    | none, .ok (some row) => some row.e2bSandboxId
    | on, _ => on
  | .reprovision .., w =>
    match w.fresh with
    | .ok fresh => some fresh.e2bSandboxId
    | .error _ => on
  | _, _ => on

/-- A target that is not looked up is the id of a machine itself. -/
def ConfiguredHand.startsOn (h : ConfiguredHand) (targetId : Option String) : Option String :=
  if h.db && targetId.any SandboxHand.isSandboxId then none else targetId

/-- Every call is made on the machine the operation runs on. -/
def AddressesMachine (start : Option String) (steps : List (HandAwait × HandWorld)) : Prop :=
  ∀ before eid method w later, steps = before ++ (.call eid method, w) :: later →
    Coro.after runsOn start before = some eid

/-- Where a command is found to be cancelled, and can be killed, the machine it runs on has the id of the target. -/
def CancelledOnTarget (h : ConfiguredHand) (targetId start : Option String) (steps : List (HandAwait × HandWorld)) :
    Prop :=
  ∀ before w later, steps = before ++ (.finish, w) :: later → w.cancelled → h.killProcess →
    Coro.after runsOn start before = targetId

/-! ### The order of the calls -/

/-- How far an operation has come: the machine it runs on, and whether a command is to be killed next. -/
structure HandPhase where
  on : Option String
  killDue : Bool

namespace HandPhase

def advance (h : ConfiguredHand) (q : HandPhase) (op : HandAwait) (w : HandWorld) : HandPhase where
  on := runsOn q.on op w
  killDue :=
    match op with
    | .finish => w.cancelled && h.killProcess
    | _ => false

def allowed (targetId : String) (q : HandPhase) (op : HandAwait) : Prop :=
  match op with
  | .call eid .killProcess => q.killDue ∧ eid = targetId
  | .call eid _ => q.killDue = false ∧ q.on = some eid
  | _ => q.killDue = false

/-- An operation that runs on a machine, with no command to be killed. -/
def running (e2bSandboxId : String) : HandPhase := ⟨some e2bSandboxId, false⟩

end HandPhase

section Follows

open HandPhase

variable {B : Builtins} {texts : ErrorTexts} {h : ConfiguredHand} {targetId eid : String} {α : Type}

/-- The coroutine calls in order, and ends on the machine it began on. -/
def ConfiguredHand.Stays (h : ConfiguredHand) (targetId eid : String) (ends : Except HandExc α → Prop)
    (c : Handing α) : Prop :=
  c.attempt.Follows (allowed targetId) (advance h) (fun q r => q = running eid ∧ ends r) (running eid)

theorem stays_callE2b {method : E2bCall} {returns : HandWorld → α} {ends : Except HandExc α → Prop}
    (hmethod : method ≠ .killProcess) (hok : ∀ w, ends (.ok (returns w))) (herror : ∀ exc, ends (.error exc)) :
    h.Stays targetId eid ends (callE2b eid method returns) := by
  refine ⟨?_, fun w => ?_⟩
  · cases method with
    | killProcess => exact absurd rfl hmethod
    | _ => exact ⟨rfl, rfl⟩
  · dsimp only
    split
    · exact ⟨rfl, hok w⟩
    · exact ⟨rfl, herror _⟩

theorem stays_heartbeat : h.Stays targetId eid (fun _ => True) (h.heartbeat eid) := by
  refine .attempt_ite (fun _ => ?_) fun _ => ⟨rfl, trivial⟩
  have hcall : h.Stays targetId eid (fun _ => True) (callE2b eid (.setTimeout 3600) fun _ => ()) :=
    stays_callE2b nofun (fun _ => trivial) fun _ => trivial
  exact .attempt_bind_attempt hcall fun q _ hq => ⟨hq.1, trivial⟩

/-- The target is looked up once more, and the operation stays where it is. -/
theorem stays_lookupSandbox : h.Stays targetId eid (fun _ => True) (h.lookupSandbox targetId) := by
  refine .attempt_ite (fun _ => ⟨rfl, fun w => ?_⟩) fun _ => ⟨rfl, trivial⟩
  exact ⟨rfl, trivial⟩

/-- The coroutine calls in order, and is left by no command that is to be killed; where it returns, what it returns
is right for the machine it has come to. -/
def ConfiguredHand.Ends (h : ConfiguredHand) (targetId eid : String) (right : α → String → Prop)
    (c : Handing α) : Prop :=
  c.attempt.Follows (allowed targetId) (advance h)
    (fun q r => q.killDue = false ∧ ∀ a, r = .ok a → ∃ used, q = running used ∧ right a used) (running eid)

theorem ConfiguredHand.Stays.ends {right : α → String → Prop} {c : Handing α}
    (hc : h.Stays targetId eid (fun r => ∀ a, r = .ok a → right a eid) c) : h.Ends targetId eid right c := by
  refine Coro.Follows.mono hc fun q r hq => ?_
  obtain ⟨rfl, hright⟩ := hq
  exact ⟨rfl, fun a hr => ⟨eid, rfl, hright a hr⟩⟩

theorem ends_raise {right : α → String → Prop} {q : HandPhase} (exc : HandExc) (hq : q.killDue = false) :
    (Coro.raise exc : Handing α).attempt.Follows (allowed targetId) (advance h)
      (fun q r => q.killDue = false ∧ ∀ a, r = .ok a → ∃ used, q = running used ∧ right a used) q :=
  ⟨hq, nofun⟩

/-- An operation that has died is tried on the machine of the sandbox that has replaced its own. -/
theorem ends_withRecovery {right : α → String → Prop} {op : String → Handing α}
    (hop : ∀ eid, h.Stays targetId eid (fun r => ∀ a, r = .ok a → right a eid) (op eid)) :
    h.Ends targetId eid right (h.withRecovery B targetId eid op) := by
  refine .attempt_bind_attempt (hop eid) fun q r hq => ?_
  obtain ⟨rfl, hright⟩ := hq
  cases r with
  | ok a => exact ⟨rfl, fun a' ha => ⟨eid, rfl, hright a' ha⟩⟩
  | error exc =>
    refine .attempt_ite (fun _ => ?_) fun _ => ends_raise exc rfl
    refine .attempt_bind stays_lookupSandbox (fun q row hq => ?_) fun q e hq => ?_
    · obtain ⟨rfl, -⟩ := hq
      cases row with
      | none => exact ends_raise exc rfl
      | some row =>
        dsimp only
        split
        · exact ends_raise exc rfl
        · refine .attempt_perform_bind rfl fun w => ?_
          cases hfresh : w.fresh with
          | error _ => exact ends_raise exc rfl
          | ok fresh =>
            refine .attempt_perform_bind rfl fun w' => ?_
            have hphase : ∀ bundleId, advance h (running eid) (.reprovision bundleId row.id) w =
                running fresh.e2bSandboxId := by
              intro bundleId
              simp only [advance, runsOn, hfresh, running]
            rw [hphase]
            exact (hop fresh.e2bSandboxId).ends
    · obtain ⟨rfl, -⟩ := hq
      exact ⟨rfl, nofun⟩

/-- The coroutine calls in order, and leaves no command to be killed. -/
def ConfiguredHand.Settles (h : ConfiguredHand) (targetId : String) (q : HandPhase) (c : Handing α) : Prop :=
  c.attempt.Follows (allowed targetId) (advance h) (fun q _ => q.killDue = false) q

/-- What comes after an operation that has not failed. -/
theorem settles_heartbeat {f : Handing α} (hf : h.Settles targetId (running eid) f) :
    h.Settles targetId (running eid) (h.heartbeat eid >>= fun _ => f) := by
  refine .attempt_bind stays_heartbeat (fun q _ hq => ?_) fun q _ hq => ?_
  · obtain ⟨rfl, -⟩ := hq
    exact hf
  · obtain ⟨rfl, -⟩ := hq
    rfl

theorem settles_executeWrite (path : PyStr) (data : List UInt8) :
    h.Settles targetId (running eid) (h.executeWrite B targetId eid path data) := by
  have hops : ∀ eid, h.Stays targetId eid (fun r => ∀ used, r = .ok used → used = eid)
      (callE2b eid (.writeFile path data) fun _ => eid) :=
    fun eid => stays_callE2b nofun (fun _ used hr => (Except.ok.inj hr).symm) fun _ => nofun
  refine .attempt_bind_attempt (ends_withRecovery hops) fun q r hq => ?_
  cases r with
  | error exc => exact hq.1
  | ok used =>
    obtain ⟨used', rfl, rfl⟩ := hq.2 used rfl
    exact settles_heartbeat rfl

theorem settles_executeRead (path : PyStr) :
    h.Settles targetId (running eid) (h.executeRead B targetId eid path) := by
  have hops : ∀ eid, h.Stays targetId eid (fun r => ∀ read, r = .ok read → read.2 = eid)
      (callE2b eid (.readFile path) fun w => (w.data, eid)) :=
    fun eid => stays_callE2b nofun (fun _ read hr => (Except.ok.inj hr) ▸ rfl) fun _ => nofun
  refine .attempt_bind_attempt (ends_withRecovery hops) fun q r hq => ?_
  cases r with
  | error exc => exact hq.1
  | ok read =>
    obtain ⟨used, rfl, rfl⟩ := hq.2 read rfl
    exact settles_heartbeat rfl

theorem settles_executeList (path : PyStr) (depth : Int) :
    h.Settles targetId (running eid) (h.executeList B targetId eid path depth) := by
  have hops : ∀ eid, h.Stays targetId eid (fun r => ∀ listed, r = .ok listed → listed.2 = eid)
      (callE2b eid (.listDir path depth) fun w => (w.entries, eid)) :=
    fun eid => stays_callE2b nofun (fun _ listed hr => (Except.ok.inj hr) ▸ rfl) fun _ => nofun
  refine .attempt_bind_attempt (ends_withRecovery hops) fun q r hq => ?_
  cases r with
  | error exc => exact hq.1
  | ok listed =>
    obtain ⟨used, rfl, rfl⟩ := hq.2 listed rfl
    exact settles_heartbeat rfl

theorem stays_finished (c : Consumed) : h.Stays targetId eid (fun _ => True) (h.finished eid c) := by
  rw [ConfiguredHand.finished]
  split
  · exact ⟨rfl, trivial⟩
  · exact ⟨rfl, trivial⟩
  · exact .attempt_bind stays_heartbeat (fun q _ hq => ⟨hq.1, trivial⟩) fun q _ hq => ⟨hq.1, trivial⟩

theorem advance_finish (w : HandWorld) :
    advance h (running eid) .finish w = ⟨some eid, w.cancelled && h.killProcess⟩ := rfl

theorem follows_kill :
    (callE2b targetId .killProcess fun _ => ()).attempt.Follows (allowed targetId) (advance h)
      (fun q _ => q = running eid) ⟨some eid, true⟩ := by
  refine ⟨⟨rfl, rfl⟩, fun w => ?_⟩
  dsimp only
  split <;> rfl

/-- A command that is found to be cancelled is killed next, if it can be. -/
theorem stays_doExecAttempt (command : PyStr) (cwd : Option PyStr) (env : Option (List (PyStr × PyValue)))
    (deadline : Int) :
    h.Stays targetId eid (fun _ => True) (h.doExecAttempt B texts targetId eid command cwd env deadline) := by
  have hexec : h.Stays targetId eid (fun _ => True)
      (callE2b eid (.execCommand command cwd env deadline) fun _ => ()) :=
    stays_callE2b nofun (fun _ => trivial) fun _ => trivial
  refine .attempt_bind_attempt hexec fun q r hq => ?_
  obtain ⟨rfl, -⟩ := hq
  cases r with
  | error exc => exact ⟨rfl, trivial⟩
  | ok _ =>
    refine .attempt_perform_bind rfl fun w => ?_
    refine .attempt_ite (fun hcancelled => ?_) fun hcancelled => ?_
    · rw [id_eq] at hcancelled
      by_cases hkill : h.killProcess
      · rw [if_pos hkill, advance_finish, hcancelled, hkill]
        exact .attempt_bind_attempt follows_kill fun q _ hq => ⟨hq, trivial⟩
      · rw [if_neg hkill, advance_finish, Bool.eq_false_iff.mpr hkill, Bool.and_false]
        exact ⟨rfl, trivial⟩
    · rw [id_eq] at hcancelled
      rw [advance_finish, Bool.eq_false_iff.mpr hcancelled, Bool.false_and]
      exact stays_finished _

theorem stays_attempt (command : PyStr) (cwd : Option PyStr) (env : Option (List (PyStr × PyValue))) (deadline : Int) :
    h.Stays targetId eid (fun _ => True) (h.attempt B texts targetId eid command cwd env deadline) := by
  refine .attempt_bind (stays_doExecAttempt command cwd env deadline) (fun q envelope hq => ?_) fun q _ hq => hq
  obtain ⟨rfl, -⟩ := hq
  cases envelope with
  | accept _ => exact ⟨rfl, trivial⟩
  | cancel _ => exact ⟨rfl, trivial⟩
  | error reason => exact .attempt_ite (fun _ => ⟨rfl, trivial⟩) fun _ => ⟨rfl, trivial⟩

theorem settles_executeExec (command : PyStr) (cwd : Option PyStr) (env : Option (List (PyStr × PyValue)))
    (deadline : Int) :
    h.Settles targetId (running eid) (h.executeExec B texts targetId eid command cwd env deadline) := by
  have hattempts : ∀ eid, h.Stays targetId eid (fun r => ∀ a, r = .ok a → True)
      (h.attempt B texts targetId eid command cwd env deadline) :=
    fun eid => Coro.Follows.mono (stays_attempt command cwd env deadline) fun q r hq => ⟨hq.1, fun _ _ => trivial⟩
  refine .attempt_tryCatch (ends_withRecovery hattempts) (fun q a hq => hq.1) fun q exc hq => ?_
  cases exc with
  | deadSandboxExec reason => exact hq.1
  | raised kind text => exact hq.1

theorem settles_operate (owner : Option String) (r : HandRequest) :
    h.Settles targetId (running eid) (h.operate B texts targetId eid owner r) := by
  rw [ConfiguredHand.operate]
  split
  · rfl
  · rfl
  · exact settles_executeWrite _ _
  · exact settles_executeRead _
  · exact settles_executeList _ _
  · rename_i command cwd env hparse
    have hmerge : h.Stays targetId eid (fun _ => True) (h.mergeCredentialsIntoEnv owner env) := by
      cases owner with
      | none => exact ⟨rfl, trivial⟩
      | some owner => exact .attempt_ite (fun _ => ⟨rfl, fun _ => ⟨rfl, trivial⟩⟩) fun _ => ⟨rfl, trivial⟩
    refine .attempt_bind hmerge (fun q merged hq => ?_) fun q _ hq => ?_
    · obtain ⟨rfl, -⟩ := hq
      exact settles_executeExec _ _ _ _
    · obtain ⟨rfl, -⟩ := hq
      rfl

theorem execute_of_none {r : HandRequest} (htarget : truthyText r.targetId = none) :
    h.execute B texts r =
      return .error (PyStr.ofString "sandbox_id_missing: SandboxHand requires a target_id") := by
  rw [ConfiguredHand.execute, htarget]

/-- The target is looked up, if it is the id of a row, before anything is called. -/
theorem settles_execute {r : HandRequest} (htarget : truthyText r.targetId = some targetId) :
    h.Settles targetId ⟨h.startsOn (some targetId), false⟩ (h.execute B texts r) := by
  rw [ConfiguredHand.execute, htarget, ConfiguredHand.startsOn, Option.any_some]
  dsimp only
  by_cases hlookup : (h.db && SandboxHand.isSandboxId targetId) = true
  · rw [if_pos hlookup, if_pos hlookup]
    refine .attempt_perform_bind rfl fun w => ?_
    cases hrow : w.row with
    | error _ => rfl
    | ok row =>
      cases row with
      | none => rfl
      | some row =>
        have hphase : advance h ⟨none, false⟩ (.getSandbox targetId) w = running row.e2bSandboxId := by
          simp only [advance, runsOn, hrow, running]
        rw [hphase]
        exact settles_operate _ r
  · rw [if_neg hlookup, if_neg hlookup]
    exact settles_operate none r

end Follows

/-! ### Every call on the machine -/

section Steps

open HandPhase

variable {h : ConfiguredHand} {targetId : String} {start : Option String} {steps : List (HandAwait × HandWorld)}

theorem on_after (q : HandPhase) (steps : List (HandAwait × HandWorld)) :
    (Coro.after (advance h) q steps).on = Coro.after runsOn q.on steps := by
  induction steps generalizing q with
  | nil => rfl
  | cons step steps ih => exact ih (advance h q step.1 step.2)

theorem after_eq_of_keep {on : Option String} {steps : List (HandAwait × HandWorld)}
    (hkeep : ∀ step ∈ steps, runsOn on step.1 step.2 = on) : Coro.after runsOn on steps = on := by
  induction steps with
  | nil => rfl
  | cons step steps ih =>
    rw [Coro.after, List.foldl_cons, hkeep step List.mem_cons_self]
    exact ih fun step' hstep' => hkeep step' (List.mem_cons_of_mem _ hstep')

theorem after_concat {Q : Type} (advance : Q → HandAwait → HandWorld → Q) (q : Q)
    (before : List (HandAwait × HandWorld)) (step : HandAwait × HandWorld) :
    Coro.after advance q (before ++ [step]) = advance (Coro.after advance q before) step.1 step.2 := by
  rw [Coro.after, List.foldl_concat]
  rfl

/-- A command is to be killed when the last thing that has been awaited was its end, and it was cancelled. -/
theorem killDue_after {before : List (HandAwait × HandWorld)}
    (hdue : (Coro.after (advance h) ⟨start, false⟩ before).killDue = true) :
    ∃ before' w, before = before' ++ [(.finish, w)] ∧ w.cancelled ∧ h.killProcess := by
  rcases List.eq_nil_or_concat before with rfl | ⟨before', ⟨op, w⟩, rfl⟩
  · cases hdue
  · rw [List.concat_eq_append, after_concat] at hdue
    cases op with
    | finish => exact ⟨before', w, List.concat_eq_append, Bool.and_eq_true_iff.mp hdue⟩
    | _ => cases hdue

theorem eq_kill_of_allowed {q : HandPhase} {op : HandAwait} (hallowed : allowed targetId q op)
    (hdue : q.killDue = true) : op = .call targetId .killProcess := by
  have hother : q.killDue ≠ false := Bool.ne_false_iff.mpr hdue
  cases op with
  | call eid method =>
    cases method with
    | killProcess => rw [hallowed.2]
    | _ => exact absurd hallowed.1 hother
  | _ => exact absurd hallowed hother

/-- Steps that follow the order of the calls, at the end of which no command is to be killed. -/
structure ConfiguredHand.InOrder (h : ConfiguredHand) (targetId : String) (start : Option String)
    (steps : List (HandAwait × HandWorld)) : Prop where
  allowed : ∀ before step later, steps = before ++ step :: later →
    HandPhase.allowed targetId (Coro.after (advance h) ⟨start, false⟩ before) step.1
  settled : (Coro.after (advance h) ⟨start, false⟩ steps).killDue = false

theorem ConfiguredHand.InOrder.cancelledOnTarget (hsteps : h.InOrder targetId start steps)
    (haddresses : AddressesMachine start steps) : CancelledOnTarget h (some targetId) start steps := by
  intro before w later hsplit hcancelled hkill
  have hdue : (Coro.after (advance h) ⟨start, false⟩ (before ++ [(.finish, w)])).killDue = true := by
    rw [after_concat]
    exact Bool.and_eq_true_iff.mpr ⟨hcancelled, hkill⟩
  cases later with
  | nil =>
    rw [← hsplit, hsteps.settled] at hdue
    cases hdue
  | cons next later =>
    have hnext : steps = (before ++ [(.finish, w)]) ++ next :: later := by
      rw [hsplit, List.append_assoc]
      rfl
    have hallowed := hsteps.allowed _ _ _ hnext
    obtain ⟨op, w'⟩ := next
    obtain rfl : op = .call targetId .killProcess := eq_kill_of_allowed hallowed hdue
    have hon := haddresses _ _ _ _ _ hnext
    rwa [after_concat] at hon

theorem ConfiguredHand.InOrder.addressesMachine (hsteps : h.InOrder targetId start steps)
    (hcancelled : CancelledOnTarget h (some targetId) start steps) : AddressesMachine start steps := by
  intro before eid method w later hsplit
  have hallowed := hsteps.allowed _ _ _ hsplit
  by_cases hkill : method = .killProcess
  · subst hkill
    obtain ⟨hdue, rfl⟩ := hallowed
    obtain ⟨before', w', rfl, hfired, hcan⟩ := killDue_after hdue
    have hfinish : steps = before' ++ (.finish, w') :: (.call eid .killProcess, w) :: later := by
      rw [hsplit, List.append_assoc]
      rfl
    rw [after_concat]
    exact hcancelled before' w' _ hfinish hfired hcan
  · have hon : (Coro.after (advance h) ⟨start, false⟩ before).on = some eid := by
      cases method with
      | killProcess => exact absurd rfl hkill
      | _ => exact hallowed.2
    rwa [on_after] at hon

theorem inOrder_of_settles {c : Handing HandEnvelope} (hc : h.Settles targetId ⟨start, false⟩ c)
    {result : Except HandExc HandEnvelope} {w w' : HandWorld}
    (hrun : c.Runs (fun _ w => w) (fun _ _ => True) w steps result w') : h.InOrder targetId start steps where
  allowed _ _ _ hsplit := Coro.Follows.allowed_of_runs hc hrun.attempt hsplit
  settled := Coro.Follows.final_of_runs hc hrun.attempt rfl

end Steps

/-- What a run has awaited, each with the world it has found: between two awaits anything may happen. -/
def ConfiguredHand.Awaits (B : Builtins) (texts : ErrorTexts) (h : ConfiguredHand) (r : HandRequest)
    (steps : List (HandAwait × HandWorld)) : Prop :=
  ∃ result w w', (h.execute B texts r).Runs (fun _ w => w) (fun _ _ => True) w steps result w'

/-- **The calls of an operation are made on the machine it runs on, through every recovery, exactly when no command
is cancelled that could be killed and runs on a machine with another id than that of the target.** -/
theorem calls_on_machine_iff (B : Builtins) (texts : ErrorTexts) (h : ConfiguredHand) (r : HandRequest)
    {steps : List (HandAwait × HandWorld)} (hsteps : h.Awaits B texts r steps) :
    AddressesMachine (h.startsOn r.targetId) steps ↔
      CancelledOnTarget h r.targetId (h.startsOn r.targetId) steps := by
  obtain ⟨result, w, w', hrun⟩ := hsteps
  cases htarget : truthyText r.targetId with
  | none =>
    rw [execute_of_none htarget] at hrun
    cases hrun
    exact ⟨fun _ before _ _ hsplit => absurd hsplit.symm (List.append_ne_nil_of_right_ne_nil before nofun),
      fun _ before _ _ _ _ hsplit => absurd hsplit.symm (List.append_ne_nil_of_right_ne_nil before nofun)⟩
  | some targetId =>
    obtain ⟨hid, -⟩ := Option.filter_eq_some_iff.mp htarget
    rw [hid]
    have hinOrder := inOrder_of_settles (settles_execute htarget) hrun
    exact ⟨hinOrder.cancelledOnTarget, hinOrder.addressesMachine⟩

/-! ### A command that goes on -/

/-- A world in which the row of the target is there, and every command is cancelled. -/
def cancellingWorld : HandWorld where
  row := .ok (some { id := "sbx_1", e2bSandboxId := "i7k2", status := .ready, createdAt := 0, updatedAt := 0 })
  envs := .ok []
  fresh := .error []
  raises := none
  data := []
  entries := .list []
  chunks := []
  polls _ := true
  streamRaises := none
  cancelled := true
  cancelReason := none

/-- A Hand with all its parts but the credentials. -/
def plainHand : ConfiguredHand := ⟨true, true, false, true, true⟩

def sleepOn (targetId : String) : HandRequest := ⟨some targetId, .str (PyStr.ofString "sleep 60"), 300⟩

def plainTexts : ErrorTexts := ⟨fun _ => [], fun _ => []⟩

theorem awaits_trace (r : HandRequest) (w : HandWorld) :
    plainHand.Awaits .plain plainTexts r ((plainHand.execute .plain plainTexts r).trace (fun _ w => w) w) :=
  ⟨_, _, _, Coro.runs_trace (fun _ => trivial) _ _⟩

def sleepSteps (targetId e2bSandboxId : String) : List (HandAwait × HandWorld) :=
  [(.call e2bSandboxId (.execCommand (PyStr.ofString "sleep 60") none none 300), cancellingWorld),
    (.finish, cancellingWorld), (.call targetId .killProcess, cancellingWorld)]

/-- A target that is the id of the machine itself. -/
theorem calls_on_machine_direct : AddressesMachine (some "i7k2") (sleepSteps "i7k2" "i7k2") := by
  refine (calls_on_machine_iff .plain plainTexts plainHand (sleepOn "i7k2")
    (awaits_trace (sleepOn "i7k2") cancellingWorld)).mpr ?_
  have hkeep : ∀ step ∈ sleepSteps "i7k2" "i7k2", runsOn (some "i7k2") step.1 step.2 = some "i7k2" := by
    simp [sleepSteps, runsOn]
  intro before w later hsplit _ _
  refine after_eq_of_keep fun step hstep => hkeep step ?_
  have hmem : step ∈ before ++ (.finish, w) :: later := List.mem_append_left _ hstep
  rw [← hsplit] at hmem
  exact hmem

/-- The command that has been started on the machine `i7k2` is killed on `sbx_1`. -/
theorem cancel_kills_on_target :
    ¬ ∀ (B : Builtins) (texts : ErrorTexts) (h : ConfiguredHand) (r : HandRequest)
      (steps : List (HandAwait × HandWorld)), h.Awaits B texts r steps →
      AddressesMachine (h.startsOn r.targetId) steps := by
  intro haddresses
  have hkilled := haddresses _ _ _ _ _ (awaits_trace (sleepOn "sbx_1") cancellingWorld)
    ((.getSandbox "sbx_1", cancellingWorld) :: (sleepSteps "sbx_1" "i7k2").take 2) "sbx_1" .killProcess
    cancellingWorld [] rfl
  have hid : some "i7k2" = some "sbx_1" := hkilled
  exact absurd hid (by decide)

end Krewhub
