import Krewhub.Python.Text
import Krewhub.Sandboxes.Service

/-!
# The Hand and the sweeper

An operation of the Hand that has succeeded moves the time at which the orchestrator is to reap the machine. The
sweeper does not ask the orchestrator: it looks at the `last_event_at` of the row, which is written when the row
is inserted and by `mark_event`, and nobody calls `mark_event`. What spares a sandbox is therefore its age.
-/

namespace Krewhub

/-! ### The Hand -/

/-- The result of an operation. -/
inductive HandResult where
  | accept (content : Json)
  | cancel (reason : String)
  | error (reason : String)

namespace HandOp

def content (op : HandOp) (entries : List (String × Json)) : Json :=
  match op with
  | .exec _ => .dict entries
  | .write path bytes => .dict [("path", .str path), ("bytes_written", .int bytes)]
  | .read path | .list path _ => .dict (("path", .str path) :: entries)

/-- `needle in text`. -/
def textContains (needle text : String) : Bool := decide (needle.toList <:+: text.toList)

/-- The reason of an operation that has raised. -/
def failure (op : HandOp) (kind : EnvdErrorKind) (text : String) : String :=
  match op, kind with
  | .exec _, _ => text
  | .write .., .valueError =>
      if textContains "path_too_large" text then text else "e2b_filesystem_failed: " ++ text
  | _, .fileNotFound => "path_not_found: " ++ text
  | _, _ => "e2b_filesystem_failed: " ++ text

def result (op : HandOp) : EnvdAnswer → HandResult
  | .delivered entries => .accept (op.content entries)
  | .cancelled reason => .cancel reason
  | .raised kind text => .error (op.failure kind text)

end HandOp

def deadSandboxMarkers : List String :=
  ["sandbox was not found", "sandbox_not_found", "\"code\":502", "code:502", "502 bad gateway"]

def looksLikeDeadSandbox (text : String) : Bool :=
  deadSandboxMarkers.any (HandOp.textContains · (Text.lower text))

/-- An operation on a target, what a recovery draws, when the machine is asked, and when it is asked again. -/
structure SandboxCall where
  targetId : String
  op : HandOp
  draws : SandboxDraws
  now : Nat
  retriedAt : Nat

namespace SandboxHand

def isSandboxId (targetId : String) : Bool := "sbx_".toList.isPrefixOf targetId.toList

def lookupSandbox (targetId : String) : Sandboxing (Option Sandbox) :=
  if isSandboxId targetId then SandboxRepo.get targetId else return none

/-- The sandbox that takes the place of a dead one, if there is a recipe for it. -/
def recover (targetId : String) (d : SandboxDraws) : Sandboxing (Option Sandbox) := do
  match ← lookupSandbox targetId with
  | none => return none
  | some row =>
    match truthyText row.bundleId with
    | none => return none
    | some bundleId =>
      match ← (SandboxService.reprovisionForBundle bundleId (some row.id) d).attempt with
      | .ok fresh => return some fresh
      | .error _ => return none

/-- The machine that was asked last, when, and what it has answered. -/
def withRecovery (c : SandboxCall) (e2bSandboxId : String) : Sandboxing (String × Nat × EnvdAnswer) := do
  match ← E2bClient.envd e2bSandboxId c.op c.now with
  | .raised kind text =>
    if looksLikeDeadSandbox text then
      match ← recover c.targetId c.draws with
      | some fresh =>
        let answer ← E2bClient.envd fresh.e2bSandboxId c.op c.retriedAt
        return (fresh.e2bSandboxId, c.retriedAt, answer)
      | none => return (e2bSandboxId, c.now, .raised kind text)
    else return (e2bSandboxId, c.now, .raised kind text)
  | answer => return (e2bSandboxId, c.now, answer)

/-- A request that fails is passed over. -/
def heartbeat (e2bSandboxId : String) (now : Nat) : Sandboxing Unit :=
  (E2bClient.setTimeout e2bSandboxId (now + 3600)).tryCatch fun _ => some (return ())

def operate (c : SandboxCall) (e2bSandboxId : String) : Sandboxing HandResult := do
  let (used, now, answer) ← withRecovery c e2bSandboxId
  if answer.isDelivered then heartbeat used now
  return c.op.result answer

def execute (c : SandboxCall) : Sandboxing HandResult := do
  if c.targetId = "" then return .error "sandbox_id_missing: SandboxHand requires a target_id"
  else if isSandboxId c.targetId then
    match ← SandboxRepo.get c.targetId with
    | none => return .error ("sandbox_not_found: " ++ c.targetId)
    | some row => operate c row.e2bSandboxId
  else operate c c.targetId

end SandboxHand

/-! ### The sweeper -/

structure SandboxSweeper where
  idleSeconds : Nat
  maxAgeSeconds : Nat

namespace SandboxSweeper

/-- The loop of `tick`: how many sandboxes it has terminated. -/
def sweep (now : Nat) : List Sandbox → Sandboxing Nat
  | [] => return 0
  | sb :: stale => do
    let ended ← (SandboxService.terminate sb.id now).attempt
    let rest ← sweep now stale
    return if ended.isOk then rest + 1 else rest

def tick (c : SandboxSweeper) (now : Nat) : Sandboxing Nat := do
  let stale ← SandboxRepo.listIdleOrExpired c.idleSeconds c.maxAgeSeconds now
  sweep now stale

end SandboxSweeper

/-! ### Histories -/

/-- What happens to the sandboxes: a task or a bundle is given one, a call asks for the one of its bundle, the
Hand operates on one, the sweeper makes a pass. -/
inductive SandboxEvent where
  | createForTask (taskId owner template : String) (d : SandboxDraws)
  | createForBundle (bundleId owner template : String) (d : SandboxDraws)
  | ensure (bundleId : String) (d : SandboxDraws)
  | operate (c : SandboxCall)
  | tick (now : Nat)

section Histories

variable (c : SandboxSweeper)

def SandboxEvent.run (w : SandboxWorld) : SandboxEvent → SandboxWorld
  | .createForTask taskId owner template d =>
      ((SandboxService.createForTask taskId owner template d).run SandboxOp.exec w).2
  | .createForBundle bundleId owner template d =>
      ((SandboxService.createForBundle bundleId owner template d).run SandboxOp.exec w).2
  | .ensure bundleId d => ((SandboxService.ensureSandboxForBundle bundleId d).run SandboxOp.exec w).2
  | .operate call => ((SandboxHand.execute call).run SandboxOp.exec w).2
  | .tick now => ((c.tick now).run SandboxOp.exec w).2

end Histories

/-! ### The time of the last event -/

/-- The operation does not record an event of a sandbox that is there already. -/
def SandboxOp.RecordsNone : SandboxOp → Prop
  | .insertSandbox sb => sb.lastEventAt = some sb.createdAt
  | .markEvent .. => False
  | _ => True

/-- No event of a sandbox has been recorded since it was created. -/
def SandboxWorld.Unmarked (w : SandboxWorld) : Prop :=
  ∀ sb ∈ w.sandboxes, sb.lastEventAt = some sb.createdAt

theorem SandboxOp.RecordsNone.exec {op : SandboxOp} (hop : op.RecordsNone) {w : SandboxWorld}
    (h : w.Unmarked) : (op.exec w).Unmarked := by
  cases op with
  | insertSandbox new =>
    intro sb hsb
    by_cases htaken : (w.sandboxes.get (key new)).isSome
    · rw [SandboxOp.exec] at hsb
      dsimp only at hsb
      rw [Table.insert_of_isSome htaken] at hsb
      exact h sb hsb
    · rcases (Table.mem_insert (Option.not_isSome_iff_eq_none.mp htaken)).mp hsb with hsb | rfl
      · exact h sb hsb
      · exact hop
  | updateStatus id status now =>
    intro sb hsb
    obtain ⟨sb₀, hsb₀, rfl⟩ := (Table.mem_amend (Sandbox.key_setStatus status now)).mp hsb
    split
    · exact h sb₀ hsb₀
    · exact h sb₀ hsb₀
  | markEvent id now => exact hop.elim
  | _ => exact h

section RecordsNone

theorem records_beside {α : Type} (c : Sql α) : c.beside.Every SandboxOp.RecordsNone :=
  (Coro.every_true c).within fun _ _ => trivial

theorem records_get (id : String) : (SandboxRepo.get id).Every SandboxOp.RecordsNone :=
  ⟨trivial, fun _ => trivial⟩

theorem records_provision {template : String} {row : String → Sandbox}
    (hrow : ∀ e2bId, (row e2bId).lastEventAt = some (row e2bId).createdAt) :
    (SandboxService.provision template row).Every SandboxOp.RecordsNone := by
  refine .bind ⟨trivial, fun w => ?_⟩ fun e2bId => .bind (.bind ⟨hrow e2bId, fun w => ?_⟩ fun _ =>
    records_beside _) fun _ => trivial
  · dsimp only
    split <;> trivial
  · exact .ite (fun _ => trivial) fun _ => trivial

theorem records_terminate (id : String) (now : Nat) :
    (SandboxService.terminate id now).Every SandboxOp.RecordsNone := by
  refine .bind (records_get id) fun row => ?_
  cases row with
  | none => trivial
  | some sb =>
    refine .ite (fun _ => trivial) fun _ => .bind (.tryCatch ⟨trivial, fun w => ?_⟩ ?_) fun _ =>
      .bind ⟨trivial, fun _ => trivial⟩ fun _ => records_beside _
    · dsimp only
      split <;> trivial
    · intro e c hc
      obtain rfl := Option.some.inj hc
      trivial

theorem records_existingReplacement (dead : Option String) (bundle : Bundle) :
    (SandboxService.existingReplacement dead bundle).Every SandboxOp.RecordsNone := by
  dsimp only [SandboxService.existingReplacement]
  split
  · exact .ite (fun _ => .bind (records_get _) fun _ => trivial) fun _ => trivial
  · trivial

theorem records_template (bundleId : String) :
    (SandboxService.templateForBundle bundleId).Every SandboxOp.RecordsNone :=
  ⟨trivial, fun _ => trivial⟩

theorem records_replace (bundleId : String) (bundle : Bundle) (dead : Option String) (d : SandboxDraws) :
    (SandboxService.replace bundleId bundle dead d).Every SandboxOp.RecordsNone := by
  have hfresh : ∀ owner template,
      (SandboxService.createForBundle bundleId owner template d).Every SandboxOp.RecordsNone :=
    fun _ _ => records_provision fun _ => rfl
  rw [SandboxService.replace]
  split
  · refine .bind (.tryCatch (records_terminate _ _) ?_) fun _ => .bind (records_template _) fun _ =>
      .bind (hfresh _ _) fun _ => .bind (records_beside _) fun _ => trivial
    intro e c hc
    obtain rfl := Option.some.inj hc
    trivial
  · exact .bind (records_template _) fun _ => .bind (hfresh _ _) fun _ => .bind (records_beside _) fun _ =>
      trivial

theorem records_reprovision (bundleId : String) (dead : Option String) (d : SandboxDraws) :
    (SandboxService.reprovisionForBundle bundleId dead d).Every SandboxOp.RecordsNone := by
  refine .bind ⟨trivial, fun _ => trivial⟩ fun bundle => ?_
  cases bundle with
  | none => trivial
  | some bundle =>
    refine .bind (records_existingReplacement dead bundle) fun found => ?_
    cases found with
    | some _ => trivial
    | none => exact records_replace bundleId bundle dead d

theorem records_ensure (bundleId : String) (d : SandboxDraws) :
    (SandboxService.ensureSandboxForBundle bundleId d).Every SandboxOp.RecordsNone := by
  refine .bind (records_beside _) fun bundle => ?_
  cases bundle with
  | none => trivial
  | some bundle =>
    refine .bind ?_ fun found => ?_
    · rw [SandboxService.readySandbox]
      split
      · exact .bind (records_get _) fun _ => trivial
      · trivial
    · cases found with
      | some _ => trivial
      | none => exact records_reprovision _ _ _

theorem records_recover (targetId : String) (d : SandboxDraws) :
    (SandboxHand.recover targetId d).Every SandboxOp.RecordsNone := by
  refine .bind (.ite (fun _ => records_get _) fun _ => trivial) fun row => ?_
  cases row with
  | none => trivial
  | some row =>
    dsimp only
    split
    · trivial
    · refine .bind (records_reprovision _ _ _).attempt fun fresh => ?_
      cases fresh with
      | ok _ => trivial
      | error _ => trivial

theorem records_envd (e2bId : String) (op : HandOp) (now : Nat) :
    (E2bClient.envd e2bId op now).Every SandboxOp.RecordsNone := ⟨trivial, fun _ => trivial⟩

theorem records_heartbeat (e2bId : String) (now : Nat) :
    (SandboxHand.heartbeat e2bId now).Every SandboxOp.RecordsNone := ⟨trivial, fun _ => trivial⟩

theorem records_withRecovery (c : SandboxCall) (e2bId : String) :
    (SandboxHand.withRecovery c e2bId).Every SandboxOp.RecordsNone := by
  refine .bind (records_envd _ _ _) fun answer => ?_
  cases answer with
  | delivered _ => trivial
  | cancelled _ => trivial
  | raised kind text =>
    refine .ite (fun _ => .bind (records_recover _ _) fun fresh => ?_) fun _ => trivial
    cases fresh with
    | none => trivial
    | some _ => exact .bind (records_envd _ _ _) fun _ => trivial

theorem records_operate (c : SandboxCall) (e2bId : String) :
    (SandboxHand.operate c e2bId).Every SandboxOp.RecordsNone := by
  refine .bind (records_withRecovery c e2bId) fun used => ?_
  dsimp only
  split
  · exact .bind (records_heartbeat _ _) fun _ => trivial
  · trivial

theorem records_execute (c : SandboxCall) : (SandboxHand.execute c).Every SandboxOp.RecordsNone := by
  refine .ite (fun _ => trivial) fun _ => .ite (fun _ => .bind (records_get _) fun row => ?_)
    fun _ => records_operate _ _
  cases row with
  | none => trivial
  | some row => exact records_operate _ _

theorem records_tick (c : SandboxSweeper) (now : Nat) : (c.tick now).Every SandboxOp.RecordsNone := by
  refine .bind ⟨trivial, fun _ => trivial⟩ fun stale => ?_
  induction stale with
  | nil => trivial
  | cons sb stale ih =>
    exact .bind (records_terminate _ _).attempt fun _ => .bind ih fun _ => trivial

end RecordsNone

/-- Nothing that happens to a sandbox moves the time of its last event. -/
theorem unmarked_run {c : SandboxSweeper} {w : SandboxWorld} (h : w.Unmarked) (e : SandboxEvent) :
    (e.run c w).Unmarked := by
  cases e with
  | createForTask taskId owner template d =>
    exact (records_provision fun _ => rfl).run_inv (fun _ hop _ => hop.exec) h
  | createForBundle bundleId owner template d =>
    exact (records_provision fun _ => rfl).run_inv (fun _ hop _ => hop.exec) h
  | ensure bundleId d => exact (records_ensure bundleId d).run_inv (fun _ hop _ => hop.exec) h
  | operate call => exact (records_execute call).run_inv (fun _ hop _ => hop.exec) h
  | tick now => exact (records_tick c now).run_inv (fun _ hop _ => hop.exec) h

/-! ### A pass of the sweeper -/

/-- The row of a sandbox that is to be terminated. -/
def Sandbox.ended (now : Nat) (sb : Sandbox) : Sandbox :=
  if sb.status = .terminated then sb else sb.setStatus .terminated now

section Tick

variable {c : SandboxSweeper} {w : SandboxWorld} {now : Nat} {id k : String}

theorem ended_ended (sb : Sandbox) : (sb.ended now).ended now = sb.ended now := by
  by_cases h : sb.status = .terminated
  · rw [Sandbox.ended, if_pos]
    rw [Sandbox.ended, if_pos h]
    exact h
  · rw [Sandbox.ended, if_pos]
    rw [Sandbox.ended, if_neg h]
    rfl

theorem run_updateStatus (status : SandboxStatus) :
    (SandboxRepo.updateStatus id status now).run SandboxOp.exec w =
      (.ok (), SandboxOp.exec (.updateStatus id status now) w) := rfl

theorem get_update :
    (SandboxOp.exec (.updateStatus id .terminated now) w).sandboxes.get k =
      if k = id then (w.sandboxes.get k).map (Sandbox.setStatus .terminated now)
      else w.sandboxes.get k :=
  Table.get_amend (Sandbox.key_setStatus .terminated now) k

/-- Whatever the orchestrator says, the row is terminated afterwards. -/
theorem get_terminate :
    ((SandboxService.terminate id now).run SandboxOp.exec w).2.sandboxes.get k =
      if k = id then (w.sandboxes.get k).map (Sandbox.ended now) else w.sandboxes.get k := by
  have hget : (SandboxRepo.get id).run SandboxOp.exec w = (.ok (w.sandboxes.get id), w) := rfl
  rw [SandboxService.terminate, Coro.run_bind_ok _ hget]
  cases hrow : w.sandboxes.get id with
  | none =>
    by_cases hk : k = id
    · rw [if_pos hk, hk, hrow]
      exact hrow
    · rw [if_neg hk]
      rfl
  | some sb =>
    dsimp only
    by_cases hstatus : sb.status = .terminated
    · rw [if_pos hstatus]
      by_cases hk : k = id
      · rw [if_pos hk, hk, hrow, Option.map_some, Sandbox.ended, if_pos hstatus]
        exact hrow
      · rw [if_neg hk]
        rfl
    · have hasked : ((E2bClient.terminate sb.e2bSandboxId).tryCatch fun _ => some (return ())).run
          SandboxOp.exec w = (.ok (), SandboxOp.exec (.terminate sb.e2bSandboxId) w) := by
        dsimp only [E2bClient.terminate, Coro.tryCatch, Coro.run_await]
        cases w.orchestrator.refuses sb.e2bSandboxId with
        | none => rfl
        | some e => rfl
      rw [if_neg hstatus, Coro.run_bind_ok _ hasked, run_updateStatus, get_update]
      by_cases hk : k = id
      · subst hk
        rw [if_pos rfl, if_pos rfl]
        have hsame : (SandboxOp.exec (.terminate sb.e2bSandboxId) w).sandboxes.get k = some sb := hrow
        rw [hsame, hrow, Option.map_some, Option.map_some, Sandbox.ended, if_neg hstatus]
      · rw [if_neg hk, if_neg hk]
        rfl

/-- A pass terminates the sandboxes it was given and no other. -/
theorem get_sweep (stale : List Sandbox) :
    ((SandboxSweeper.sweep now stale).run SandboxOp.exec w).2.sandboxes.get k =
      if k ∈ stale.map (·.id) then (w.sandboxes.get k).map (Sandbox.ended now) else w.sandboxes.get k := by
  induction stale generalizing w with
  | nil => rfl
  | cons sb stale ih =>
    have hrun : ((SandboxSweeper.sweep now (sb :: stale)).run SandboxOp.exec w).2 =
        ((SandboxSweeper.sweep now stale).run SandboxOp.exec
          ((SandboxService.terminate sb.id now).run SandboxOp.exec w).2).2 := by
      rw [SandboxSweeper.sweep, Coro.run_bind, Coro.run_attempt]
      dsimp only
      rw [Coro.run_bind]
      split
      · rename_i heq
        rw [heq]
        rfl
      · rename_i heq
        rw [heq]
    rw [hrun, ih, get_terminate, List.map_cons]
    by_cases hsb : k = sb.id
    · rw [if_pos hsb, if_pos (List.mem_cons.mpr (.inl hsb)), Option.map_map]
      split
      · congr 1
        funext r
        exact ended_ended r
      · rfl
    · rw [if_neg hsb]
      by_cases hstale : k ∈ stale.map (·.id)
      · rw [if_pos hstale, if_pos (List.mem_cons_of_mem _ hstale)]
      · rw [if_neg hstale, if_neg (by
          rw [List.mem_cons]
          exact not_or_intro hsb hstale)]

/-- A pass terminates the rows it selects. -/
theorem get_tick :
    ((c.tick now).run SandboxOp.exec w).2.sandboxes.get k =
      (w.sandboxes.get k).map fun sb =>
        if sb.isIdleOrExpired (now - c.idleSeconds) (now - c.maxAgeSeconds) then sb.ended now else sb := by
  have hlist : (SandboxRepo.listIdleOrExpired c.idleSeconds c.maxAgeSeconds now).run SandboxOp.exec w =
      (.ok (w.sandboxes.rows.filter
        (Sandbox.isIdleOrExpired (now - c.idleSeconds) (now - c.maxAgeSeconds))), w) := rfl
  rw [SandboxSweeper.tick, Coro.run_bind_ok _ hlist, get_sweep]
  cases hrow : w.sandboxes.get k with
  | none => rw [Option.map_none, Option.map_none, ite_self]
  | some sb =>
    have hid : sb.id = k := Table.key_eq_of_get hrow
    have hlisted : k ∈ (w.sandboxes.rows.filter (Sandbox.isIdleOrExpired (now - c.idleSeconds)
        (now - c.maxAgeSeconds))).map (·.id) ↔
        sb.isIdleOrExpired (now - c.idleSeconds) (now - c.maxAgeSeconds) = true := by
      rw [List.mem_map]
      refine ⟨?_, fun h => ⟨sb, List.mem_filter.mpr ⟨Table.mem_of_get hrow, h⟩, hid⟩⟩
      rintro ⟨r, hr, hrk⟩
      obtain ⟨hmem, hidle⟩ := List.mem_filter.mp hr
      rwa [← Table.eq_of_key_eq hmem (Table.mem_of_get hrow) (hrk.trans hid.symm)]
    rw [Option.map_some, Option.map_some]
    by_cases hidle : sb.isIdleOrExpired (now - c.idleSeconds) (now - c.maxAgeSeconds) = true
    · rw [if_pos hidle, if_pos (hlisted.mpr hidle)]
    · rw [if_neg hidle, if_neg (fun h => hidle (hlisted.mp h))]

end Tick

/-! ### Active sandboxes -/

/-- The sandbox is younger than `max_age_seconds`, or just that old. -/
def Sandbox.IsYoung (c : SandboxSweeper) (now : Nat) (sb : Sandbox) : Prop :=
  now ≤ sb.createdAt + c.maxAgeSeconds

/-- Some operation on the machine of the sandbox has succeeded within the last `idle_seconds`. -/
def SandboxWorld.IsActive (c : SandboxSweeper) (now : Nat) (w : SandboxWorld) (sb : Sandbox) : Prop :=
  ∃ at' ≤ now, (sb.e2bSandboxId, at') ∈ w.orchestrator.served ∧ now ≤ at' + c.idleSeconds

/-- The pass at `now` terminates the sandbox. -/
def SandboxSweeper.Ends (c : SandboxSweeper) (now : Nat) (w : SandboxWorld) (sb : Sandbox) : Prop :=
  sb ∈ w.sandboxes ∧ sb.status ≠ .terminated ∧
    ∃ sb' ∈ ((c.tick now).run SandboxOp.exec w).2.sandboxes, sb'.id = sb.id ∧ sb'.status = .terminated

/-- The pass at `now` terminates no active sandbox that is young. -/
def SandboxSweeper.SparesActive (c : SandboxSweeper) (w : SandboxWorld) (now : Nat) : Prop :=
  ∀ sb, c.Ends now w sb → ¬ (sb.IsYoung c now ∧ w.IsActive c now sb)

/-- No active sandbox that is young is older than `idle_seconds`. -/
def SandboxSweeper.MeetsNewOnly (c : SandboxSweeper) (w : SandboxWorld) (now : Nat) : Prop :=
  ∀ sb ∈ w.sandboxes, sb.isLive = true → sb.IsYoung c now → w.IsActive c now sb →
    now ≤ sb.createdAt + c.idleSeconds

/-- `P` holds of every pass of a history and the sandboxes it meets. -/
def EveryTick (P : SandboxWorld → Nat → Prop) (c : SandboxSweeper) (w : SandboxWorld) :
    List SandboxEvent → Prop
  | [] => True
  | e :: events => (∀ now, e = .tick now → P w now) ∧ EveryTick P c (e.run c w) events

section Active

variable {c : SandboxSweeper} {w : SandboxWorld} {now : Nat} {sb : Sandbox}

theorem ne_terminated_of_isLive (h : sb.isLive = true) : sb.status ≠ .terminated := by
  intro hstatus
  rw [Sandbox.isLive, hstatus] at h
  cases h

/-- The sandboxes a pass terminates are the ones it selects. -/
theorem ends_iff (hsb : sb ∈ w.sandboxes) : c.Ends now w sb ↔
    sb.isIdleOrExpired (now - c.idleSeconds) (now - c.maxAgeSeconds) = true := by
  have hget : w.sandboxes.get sb.id = some sb := Table.get_eq_some_iff.mpr ⟨hsb, rfl⟩
  refine ⟨?_, fun hidle => ?_⟩
  · rintro ⟨-, hstatus, sb', hsb', hid, hterminated⟩
    have hget' := Table.get_eq_some_iff.mpr ⟨hsb', rfl⟩
    rw [show key sb' = sb.id from hid, get_tick, hget, Option.map_some] at hget'
    by_contra hidle
    rw [if_neg hidle] at hget'
    obtain rfl := Option.some.inj hget'
    exact hstatus hterminated
  · have hlive : sb.isLive = true := (Bool.and_eq_true_iff.mp hidle).1
    have hstatus := ne_terminated_of_isLive hlive
    refine ⟨hsb, hstatus, sb.setStatus .terminated now, Table.mem_of_get (k := sb.id) ?_, rfl, rfl⟩
    rw [get_tick, hget, Option.map_some, if_pos hidle, Sandbox.ended, if_neg hstatus]

/-- A young sandbox is selected when the time since it was created is more than `idle_seconds`. -/
theorem isIdleOrExpired_iff (hmarked : sb.lastEventAt = some sb.createdAt) (hyoung : sb.IsYoung c now) :
    sb.isIdleOrExpired (now - c.idleSeconds) (now - c.maxAgeSeconds) = true ↔
      sb.isLive = true ∧ sb.createdAt + c.idleSeconds < now := by
  have hage : ¬ sb.createdAt < now - c.maxAgeSeconds := by
    rw [Sandbox.IsYoung] at hyoung
    omega
  rw [Sandbox.isIdleOrExpired, hmarked, Option.any_some, decide_eq_false hage, Bool.or_false,
    Bool.and_eq_true_iff, decide_eq_true_iff]
  refine and_congr_right fun _ => ?_
  omega

theorem sparesActive_iff_meetsNewOnly (hw : w.Unmarked) :
    c.SparesActive w now ↔ c.MeetsNewOnly w now := by
  refine ⟨fun hspares sb hsb hlive hyoung hactive => ?_, fun hmeets sb hends ⟨hyoung, hactive⟩ => ?_⟩
  · by_contra hold
    refine hspares sb ((ends_iff hsb).mpr ?_) ⟨hyoung, hactive⟩
    exact (isIdleOrExpired_iff (hw sb hsb) hyoung).mpr ⟨hlive, Nat.lt_of_not_le hold⟩
  · have hselected := (ends_iff hends.1).mp hends
    obtain ⟨hlive, hold⟩ := (isIdleOrExpired_iff (hw sb hends.1) hyoung).mp hselected
    exact absurd (hmeets sb hends.1 hlive hyoung hactive) (Nat.not_le_of_lt hold)

theorem everyTick_congr {P Q : SandboxWorld → Nat → Prop} (hPQ : ∀ w, w.Unmarked → ∀ now, P w now ↔ Q w now)
    (hw : w.Unmarked) (events : List SandboxEvent) :
    EveryTick P c w events ↔ EveryTick Q c w events := by
  induction events generalizing w with
  | nil => exact Iff.rfl
  | cons e events ih =>
    exact and_congr (forall_congr' fun now => imp_congr_right fun _ => hPQ w hw now)
      (ih (unmarked_run hw e))

end Active

/-- The sweeper spares the active sandboxes of a history exactly when every pass meets them while they are no
older than `idle_seconds`. -/
theorem sparesActive_iff (c : SandboxSweeper) (db : Db) (orchestrator : Orchestrator)
    (events : List SandboxEvent) :
    EveryTick c.SparesActive c { db := db, orchestrator := orchestrator } events ↔
      EveryTick c.MeetsNewOnly c { db := db, orchestrator := orchestrator } events :=
  everyTick_congr (fun _ hw _ => sparesActive_iff_meetsNewOnly hw)
    (fun _ hsb => absurd hsb List.not_mem_nil) events

/-- A sandbox that has run a command ten seconds before the pass, eleven minutes after it was created. -/
def busyHistory : List SandboxEvent :=
  [.createForBundle "b1" "alice" "base" { hex := "a", terminatedAt := 0, createdAt := 0 },
    .operate
      { targetId := "sbx_a", op := .exec "make", draws := { hex := "b", terminatedAt := 650, createdAt := 650 }
        now := 650, retriedAt := 650 },
    .tick 660]

/-- The orchestrator and the sandboxes when the pass begins. -/
def busyWorld : SandboxWorld :=
  (busyHistory.take 2).foldl (SandboxEvent.run ⟨600, 3600⟩)
    { orchestrator := { answers := fun _ => .ok "e2b_a" } }

/-- The row of the sandbox says nothing of the command, and the pass terminates it. -/
theorem busy_sandbox_swept :
    ¬ EveryTick (SandboxSweeper.SparesActive ⟨600, 3600⟩) ⟨600, 3600⟩
      { orchestrator := { answers := fun _ => .ok "e2b_a" } } busyHistory := by
  intro h
  have hspares : SandboxSweeper.SparesActive ⟨600, 3600⟩ busyWorld 660 := h.2.2.1 660 rfl
  have hrow : busyWorld.sandboxes.get "sbx_a" = some (SandboxService.newSandbox "b1" (some "b1") "alice" "base"
      "e2b_a" { hex := "a", terminatedAt := 0, createdAt := 0 }) := by decide +kernel
  have hafter : ((SandboxSweeper.tick ⟨600, 3600⟩ 660).run SandboxOp.exec busyWorld).2.sandboxes.get "sbx_a" =
      some ((SandboxService.newSandbox "b1" (some "b1") "alice" "base" "e2b_a"
        { hex := "a", terminatedAt := 0, createdAt := 0 }).setStatus .terminated 660) := by decide +kernel
  have hserved : busyWorld.orchestrator.served = [("e2b_a", 650)] := by decide +kernel
  have hyoung : 660 ≤ 0 + 3600 := by decide
  refine hspares _ ⟨Table.mem_of_get hrow, by decide, _, Table.mem_of_get hafter, rfl, rfl⟩ ⟨hyoung, 650,
    by decide, ?_, by decide⟩
  rw [hserved]
  exact List.mem_singleton.mpr rfl

end Krewhub
