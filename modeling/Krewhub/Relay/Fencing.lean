import Krewhub.Relay.Elicits

/-!
# Fencing of elicits

Relay requests, sweeps and the passing of time, in any order and with any delay. `finalize` asks whether the
elicit is `injecting`, and not whose reservation that is: a request whose lease the sweeper has taken back
resolves the elicit of the request that has reserved it since. It ends no reservation but its own as long as
it finds no such request.
-/

namespace Krewhub

/-! ### Who holds the elicit -/

/-- A `finalize` that has changed the elicit: whose it was, who held the reservation, and whether its request had
handed over its token. -/
structure Resolution where
  request : Nat
  holder : Option Nat
  injected : Bool
  deriving DecidableEq, Repr

/-- The tables, the request whose reservation is current, the one that has reserved the elicit last, and those
whose token has reached a sandbox. -/
structure Fencing where
  store : RelayStore
  holder : Option Nat := none
  winner : Option Nat := none
  injected : List Nat := []
  resolutions : List Resolution := []

namespace RelayOp

variable (invocationId elicitId : String) (op : RelayOp) (s : RelayStore)

/-- The operation reserves the elicit. -/
def wins : Bool :=
  match op with
  | .reserve inv el _ => inv == invocationId && el == elicitId && s.hasElicit inv el .pending
  | _ => false

/-- The operation changes the elicit to resolved. -/
def resolves : Bool :=
  match op with
  | .finalize inv el => inv == invocationId && el == elicitId && s.hasElicit inv el .injecting
  | _ => false

def injects : Bool :=
  match op with
  | .writeFile _ _ outcome => outcome.arrives
  | _ => false

end RelayOp

section Elicit

variable (invocationId elicitId : String)

/-- A step of a request, of the sweeper or of the clock. -/
def Fencing.exec (op : Nat × RelayOp) (s : Fencing) : Fencing where
  store := s.store.exec op.2
  holder :=
    if op.2.wins invocationId elicitId s.store then some op.1
    else if (s.store.exec op.2).hasElicit invocationId elicitId .injecting then s.holder else none
  winner := if op.2.wins invocationId elicitId s.store then some op.1 else s.winner
  injected := if op.2.injects then op.1 :: s.injected else s.injected
  resolutions :=
    if op.2.resolves invocationId elicitId s.store then
      s.resolutions ++ [{ request := op.1, holder := s.holder, injected := s.injected.contains op.1 }]
    else s.resolutions

/-- A `finalize` that finds the elicit injecting is of the request that has reserved it last. -/
def Unovertaken (s : Fencing) (i : Nat) (op : Nat × RelayOp) : Prop :=
  op.2.resolves invocationId elicitId s.store = true → s.winner = some i

instance (s : Fencing) (i : Nat) : DecidablePred (Unovertaken invocationId elicitId s i) :=
  fun _ => inferInstanceAs (Decidable (_ → _))

/-- Every `finalize` that has changed the elicit has ended the reservation of its own request, after the token of
that had been handed over; and nothing else has resolved it. -/
structure Fenced (start : RelayStore) (s : Fencing) : Prop where
  own : ∀ r ∈ s.resolutions, r.holder = some r.request ∧ r.injected = true
  resolved : s.store.hasElicit invocationId elicitId .resolved = true →
    start.hasElicit invocationId elicitId .resolved = true ∨ s.resolutions ≠ []

end Elicit

/-! ### Statements and the status -/

section Exec

variable {invocationId elicitId : String} {s : RelayStore} {op : RelayOp} {status : ElicitStatus}
  {r r' : ElicitRow}

theorem hasElicit_iff : s.hasElicit invocationId elicitId status = true ↔
    ∃ r, s.elicits.get elicitId = some r ∧ r.invocationId = invocationId ∧ r.status = status := by
  rw [RelayStore.hasElicit, Option.any_eq_true]
  simp

/-- What a statement makes of the row of the elicit. -/
inductive RowStep (elicitId : String) (s : RelayStore) (r : ElicitRow) : RelayOp → ElicitRow → Prop
  | same (op : RelayOp) : RowStep elicitId s r op r
  | reserved (leaseS : Nat) (hstatus : r.status = .pending) :
    RowStep elicitId s r (.reserve r.invocationId elicitId leaseS)
      { r with status := .injecting, injectingUntil := some (s.now + leaseS) }
  | finalized (hstatus : r.status = .injecting) :
    RowStep elicitId s r (.finalize r.invocationId elicitId)
      { r with status := .resolved, resolvedAt := some s.now, injectingUntil := none }
  | swept : RowStep elicitId s r .sweepExpiredLeases { r with status := .pending, injectingUntil := none }

theorem rowStep_exec (h : (s.exec op).elicits.get elicitId = some r') :
    ∃ r, s.elicits.get elicitId = some r ∧ RowStep elicitId s r op r' := by
  cases op with
  | select => exact ⟨r', h, .same _⟩
  | commit => exact ⟨r', h, .same _⟩
  | elapse seconds => exact ⟨r', h, .same _⟩
  | writeFile sandbox env outcome =>
    rw [RelayStore.exec] at h
    split at h <;> exact ⟨r', h, .same _⟩
  | reserve inv el leaseS =>
    by_cases hel : elicitId = el
    · subst hel
      rw [RelayStore.exec, Table.get_amend_self] at h
      obtain ⟨r, hr, rfl⟩ := Option.map_eq_some_iff.mp h
      refine ⟨r, hr, ?_⟩
      unfold ElicitRow.reserve
      split
      next hrow =>
        obtain ⟨rfl, hstatus⟩ := hrow
        exact .reserved leaseS hstatus
      next => exact .same _
    · rw [RelayStore.exec, Table.get_amend_of_ne _ hel] at h
      exact ⟨r', h, .same _⟩
  | finalize inv el =>
    by_cases hel : elicitId = el
    · subst hel
      rw [RelayStore.exec, Table.get_amend_self] at h
      obtain ⟨r, hr, rfl⟩ := Option.map_eq_some_iff.mp h
      refine ⟨r, hr, ?_⟩
      unfold ElicitRow.finalize
      split
      next hrow =>
        obtain ⟨rfl, hstatus⟩ := hrow
        exact .finalized hstatus
      next => exact .same _
    · rw [RelayStore.exec, Table.get_amend_of_ne _ hel] at h
      exact ⟨r', h, .same _⟩
  | sweepExpiredLeases =>
    rw [RelayStore.exec, Table.get_map] at h
    obtain ⟨r, hr, rfl⟩ := Option.map_eq_some_iff.mp h
    refine ⟨r, hr, ?_⟩
    unfold ElicitRow.sweep
    split
    · exact .swept
    · exact .same _

/-- An elicit is injecting because it was, or has just been reserved. -/
theorem injecting_of_exec (h : (s.exec op).hasElicit invocationId elicitId .injecting = true) :
    op.wins invocationId elicitId s = true ∨ s.hasElicit invocationId elicitId .injecting = true := by
  obtain ⟨r', hget, hinv, hstatus⟩ := hasElicit_iff.mp h
  obtain ⟨r, hr, hstep⟩ := rowStep_exec hget
  cases hstep with
  | same => exact .inr (hasElicit_iff.mpr ⟨r', hr, hinv, hstatus⟩)
  | reserved leaseS hpending =>
    obtain rfl : r.invocationId = invocationId := hinv
    refine .inl ?_
    rw [RelayOp.wins, hasElicit_iff.mpr ⟨r, hr, rfl, hpending⟩]
    simp
  | finalized => cases hstatus
  | swept => cases hstatus

/-- Only `finalize` resolves an elicit. -/
theorem resolved_of_exec (h : (s.exec op).hasElicit invocationId elicitId .resolved = true) :
    op.resolves invocationId elicitId s = true ∨ s.hasElicit invocationId elicitId .resolved = true := by
  obtain ⟨r', hget, hinv, hstatus⟩ := hasElicit_iff.mp h
  obtain ⟨r, hr, hstep⟩ := rowStep_exec hget
  cases hstep with
  | same => exact .inr (hasElicit_iff.mpr ⟨r', hr, hinv, hstatus⟩)
  | reserved => cases hstatus
  | finalized hinjecting =>
    obtain rfl : r.invocationId = invocationId := hinv
    refine .inl ?_
    rw [RelayOp.resolves, hasElicit_iff.mpr ⟨r, hr, rfl, hinjecting⟩]
    simp
  | swept => cases hstatus

end Exec

/-! ### How far a request has come -/

/-- A request finalizes once its token is in the sandbox. -/
def RelayOp.allowedIf (injected : Bool) : RelayOp → Prop
  | .finalize .. => injected = true
  | _ => True

def RelayOp.advance (injected : Bool) (op : RelayOp) (_ : RelayStore) : Bool :=
  match op with
  | .writeFile _ _ outcome => outcome == .written
  | _ => injected

/-- The operation neither hands over a token nor resolves an elicit. -/
def RelayOp.isPlain : RelayOp → Prop
  | .writeFile .. | .finalize .. => False
  | _ => True

section Requests

variable {pyRepr : Json → String} {call : RelayCall}

theorem every_getBundle (task : Task) : (getBundle task).Every RelayOp.isPlain :=
  .ite (fun _ => Coro.every_done _) fun _ => (Coro.every_perform _ _).mpr trivial

theorem every_checkOwner : (checkOwner call).Every RelayOp.isPlain := by
  refine .bind ((Coro.every_perform _ _).mpr trivial) fun task => ?_
  cases task with
  | none => trivial
  | some task =>
    refine .bind (every_getBundle task) fun bundle => ?_
    split
    · exact .ite (fun _ => Coro.every_raise _) fun _ => Coro.every_done _
    · exact Coro.every_raise _

theorem every_checkInvocation : (checkInvocation call).Every RelayOp.isPlain := by
  refine .bind ((Coro.every_perform _ _).mpr trivial) fun inv => ?_
  split
  · exact Coro.every_raise _
  · exact Coro.every_done _

theorem every_checkElicit : (checkElicit pyRepr call.req).Every RelayOp.isPlain := by
  refine .bind ((Coro.every_perform _ _).mpr trivial) fun pending => ?_
  cases pending with
  | none => trivial
  | some pending =>
    dsimp only
    split
    · trivial
    · split
      · exact Coro.every_done _
      · exact Coro.every_raise _

theorem every_resolveSandbox : (resolveSandbox call).Every RelayOp.isPlain := by
  refine .bind ((Coro.every_perform _ _).mpr trivial) fun sandboxId => ?_
  split
  · exact Coro.every_done _
  · exact Coro.every_done _
  · exact (Coro.every_perform _ _).mpr trivial

theorem every_reserve (invocationId elicitId : String) (leaseS : Nat) :
    (ElicitRepo.reserve invocationId elicitId leaseS).Every RelayOp.isPlain :=
  .bind ((Coro.every_perform _ _).mpr trivial) fun _ => .bind ((Coro.every_perform _ _).mpr trivial) fun _ =>
    Coro.every_done _

theorem every_sweepExpiredLeases : ElicitRepo.sweepExpiredLeases.Every RelayOp.isPlain :=
  .bind ((Coro.every_perform _ _).mpr trivial) fun _ => .bind ((Coro.every_perform _ _).mpr trivial) fun _ =>
    Coro.every_done _


theorem follows_of_isPlain {α : Type} {c : Relay α} (hc : c.Every RelayOp.isPlain) (injected : Bool) :
    c.Follows RelayOp.allowedIf RelayOp.advance (fun q _ => q = injected) injected :=
  .of_every hc (fun op hop => by cases op <;> trivial) (fun op hop s => by cases op <;> first | rfl | cases hop)
    fun _ => rfl

theorem follows_injectEnvOneShot : (injectEnvOneShot call).Follows RelayOp.allowedIf RelayOp.advance
    (fun q _ => q = true) false := by
  refine .bind (follows_of_isPlain every_resolveSandbox false) ?_
  rintro _ sandbox rfl
  cases sandbox with
  | none => trivial
  | some e2bSandboxId =>
    refine ⟨trivial, fun s => ?_⟩
    dsimp only
    cases call.outcome with
    | written => exact rfl
    | timedOut arrived => trivial
    | failed arrived => trivial

theorem follows_relayCredential : (relayCredential pyRepr call).Follows RelayOp.allowedIf RelayOp.advance
    (fun _ _ => True) false := by
  have hcookie : (requireCookieSession call).Every RelayOp.isPlain :=
    .ite (fun _ => Coro.every_raise _) fun _ => Coro.every_done _
  refine .bind (follows_of_isPlain hcookie false) ?_
  rintro _ _ rfl
  refine .bind (follows_of_isPlain every_checkOwner false) ?_
  rintro _ _ rfl
  refine .bind (follows_of_isPlain every_checkInvocation false) ?_
  rintro _ _ rfl
  refine .bind (follows_of_isPlain every_checkElicit false) ?_
  rintro _ _ rfl
  refine .bind (follows_of_isPlain (every_reserve _ _ _) false) ?_
  rintro _ reserved rfl
  cases reserved with
  | false => trivial
  | true =>
    refine .bind (.tryCatch follows_injectEnvOneShot fun e q => ?_) ?_
    · cases e <;> trivial
    · rintro _ _ rfl
      exact ⟨rfl, fun _ => ⟨trivial, fun _ => trivial⟩⟩

end Requests

/-! ### Requests, sweeps and the clock -/

/-- What runs beside each other: requests, iterations of the sweep loop, and the passing of time. -/
inductive RelayParty where
  | request (call : RelayCall)
  | sweeper
  | clock (seconds : Nat)

section Parties

variable (pyRepr : Json → String) (invocationId elicitId : String) (parties : Nat → RelayParty)

def RelayParty.program : RelayParty → Relay Unit
  | .request call => relayCredential pyRepr call
  | .sweeper => do let _ ← ElicitRepo.sweepExpiredLeases
  | .clock seconds => .perform (.elapse seconds) fun _ => ()

def fencingProgram (i : Nat) : Coro Fencing (Nat × RelayOp) RelayError Unit :=
  ((parties i).program pyRepr).within Fencing.store (i, ·)

def fencingPool (start : RelayStore) : Pool Nat Fencing (Nat × RelayOp) RelayError Unit :=
  .init (fencingProgram pyRepr parties) { store := start }

end Parties

def fencingProtocol : Protocol Nat Fencing (Nat × RelayOp) Unit Bool where
  start := false
  allowed i q op := op.1 = i ∧ op.2.allowedIf q
  advance q op s := op.2.advance q s.store
  final _ _ _ := True

section Runs

variable {pyRepr : Json → String} {invocationId elicitId : String} {parties : Nat → RelayParty}
  {start : RelayStore} {s : Fencing} {i : Nat} {op : Nat × RelayOp}

theorem follows_relayParty (party : RelayParty) : (party.program pyRepr).Follows RelayOp.allowedIf
    RelayOp.advance (fun _ _ => True) false := by
  cases party with
  | request call => exact follows_relayCredential
  | sweeper =>
    exact (follows_of_isPlain every_sweepExpiredLeases false).bind fun _ _ _ => trivial
  | clock seconds => exact ⟨trivial, fun _ => trivial⟩

theorem follows_fencingProgram : (fencingProgram pyRepr parties i).Follows (fencingProtocol.allowed i)
    fencingProtocol.advance (fencingProtocol.final i) fencingProtocol.start :=
  (follows_relayParty (parties i)).within id (fun _ _ h => ⟨rfl, h⟩) (fun _ _ _ => rfl) fun _ _ _ => trivial

theorem each_fencingPool : Pool.Each (fun i op => op.1 = i) (fencingPool pyRepr parties start) :=
  Pool.each_init (P := fun i (op : Nat × RelayOp) => op.1 = i)
    (fun i => (Coro.every_true ((parties i).program pyRepr)).within fun _ _ => rfl) _

/-- While the elicit is injecting, the request that has reserved it last holds it, and so far every reservation
was ended by its own request. -/
structure HeldByWinner (invocationId elicitId : String) (s : Fencing) : Prop where
  held : s.store.hasElicit invocationId elicitId .injecting = true → s.holder = s.winner
  own : ∀ r ∈ s.resolutions, r.holder = some r.request

theorem held_exec (h : s.store.hasElicit invocationId elicitId .injecting = true → s.holder = s.winner)
    (hstays : (s.store.exec op.2).hasElicit invocationId elicitId .injecting = true) :
    (s.exec invocationId elicitId op).holder = (s.exec invocationId elicitId op).winner := by
  unfold Fencing.exec
  dsimp only
  cases hwins : op.2.wins invocationId elicitId s.store with
  | true => rfl
  | false =>
    rw [if_pos hstays, if_neg Bool.false_ne_true, if_neg Bool.false_ne_true]
    refine h ((injecting_of_exec hstays).resolve_left ?_)
    rw [hwins]
    exact Bool.false_ne_true

/-- A `finalize` that finds the elicit injecting ends the reservation of its own request exactly when no other
has reserved it since. -/
theorem unovertaken_iff (hi : op.1 = i) (h : HeldByWinner invocationId elicitId s) :
    Unovertaken invocationId elicitId s i op ↔
      ∀ r ∈ (s.exec invocationId elicitId op).resolutions, r.holder = some r.request := by
  subst hi
  unfold Unovertaken Fencing.exec
  dsimp only
  cases hresolves : op.2.resolves invocationId elicitId s.store with
  | false => exact ⟨fun _ => h.own, fun _ h => absurd h Bool.false_ne_true⟩
  | true =>
    have hinjecting : s.store.hasElicit invocationId elicitId .injecting = true := by
      unfold RelayOp.resolves at hresolves
      split at hresolves
      · simp only [Bool.and_eq_true, beq_iff_eq] at hresolves
        obtain ⟨⟨rfl, rfl⟩, hinjecting⟩ := hresolves
        exact hinjecting
      · cases hresolves
    rw [if_pos rfl, ← h.held hinjecting]
    refine ⟨fun hheld r hr => ?_, fun hall _ => hall _ (List.mem_append_right _ List.mem_cons_self)⟩
    rcases List.mem_append.mp hr with hr | hr
    · exact h.own r hr
    · rw [List.mem_singleton.mp hr]
      exact hheld rfl

/-- A request that may finalize has handed over its token, and so has every one that did. -/
structure Handed (invocationId elicitId : String) (start : RelayStore) (s : Fencing) (q : Nat → Bool) :
    Prop where
  handed : ∀ i, q i = true → i ∈ s.injected
  injected : ∀ r ∈ s.resolutions, r.injected = true
  resolved : s.store.hasElicit invocationId elicitId .resolved = true →
    start.hasElicit invocationId elicitId .resolved = true ∨ s.resolutions ≠ []

theorem handed_exec {q : Nat → Bool} (h : Handed invocationId elicitId start s q)
    (hallowed : fencingProtocol.allowed i (q i) op) :
    Handed invocationId elicitId start (s.exec invocationId elicitId op)
      (Function.update q i (fencingProtocol.advance (q i) op s)) := by
  obtain ⟨caller, op⟩ := op
  obtain ⟨rfl : caller = i, hop⟩ := hallowed
  refine ⟨fun j hj => ?_, fun r hr => ?_, fun hresolved => ?_⟩
  · unfold Fencing.exec
    dsimp only
    by_cases hjc : j = caller
    · subst hjc
      rw [Function.update_self] at hj
      cases op with
      | writeFile sandbox env outcome =>
        obtain rfl : outcome = .written := eq_of_beq hj
        exact List.mem_cons_self
      | select | commit | reserve | finalize | sweepExpiredLeases | elapse => exact h.handed j hj
    · rw [Function.update_of_ne hjc] at hj
      split
      · exact List.mem_cons_of_mem _ (h.handed j hj)
      · exact h.handed j hj
  · unfold Fencing.exec at hr
    dsimp only at hr
    split at hr
    next hresolves =>
      rcases List.mem_append.mp hr with hr | hr
      · exact h.injected r hr
      · rw [List.mem_singleton.mp hr]
        refine List.contains_iff_mem.mpr (h.handed caller ?_)
        cases op with
        | finalize => exact hop
        | select | commit | reserve | writeFile | sweepExpiredLeases | elapse => cases hresolves
    next => exact h.injected r hr
  · unfold Fencing.exec
    dsimp only
    rcases resolved_of_exec hresolved with hresolves | hbefore
    · rw [if_pos hresolves]
      exact .inr (List.append_ne_nil_of_right_ne_nil _ (List.cons_ne_nil _ _))
    · refine (h.resolved hbefore).imp_right fun hne => ?_
      split
      · exact List.append_ne_nil_of_left_ne_nil hne _
      · exact hne

end Runs

/-! ### A lease that is taken back -/

def relayCall : RelayCall where
  taskId := "t_1"
  req := {
    invocationId := "inv_1"
    elicitId := "el_1"
    provider := "github"
    host := "api.github.com"
    accessToken := "ghs_token"
    hinvocationId := by decide
    helicitId := by decide
    hprovider := by decide
    hhost := by decide
    haccessToken := by decide
    httlS := by decide }
  accountId := "acc_1"
  authMethod := "passkey"
  outcome := .written

def relayStart : RelayStore where
  tasks := ⟨[{ id := "t_1", bundleId := "b_1", sandboxId := some "sbx_1" }], List.nodup_singleton _⟩
  bundles := ⟨[{ id := "b_1", ownerAccountId := some "acc_1" }], List.nodup_singleton _⟩
  invocations := [{
    id := "inv_1", targetType := "human", targetId := none, input := .null, schema := none, deadlineS := 60,
    label := none, parentTapeId := none, parentForkPoint := none, idempotencyKey := none, tapeId := "tape_1",
    taskId := some "t_1", createdAt := 0, createdBy := "acc_1" }]
  sandboxes := [("sbx_1", "e2b_1")]
  elicits := ⟨[{
    id := "el_1", invocationId := "inv_1", op := "auth_required",
    payload := some (.dict [("provider", .str "github"), ("host", .str "api.github.com")]) }],
    List.nodup_singleton _⟩

/-- Two requests, a sweep, and a minute and a second. -/
def relayParties : Nat → RelayParty
  | 0 => .clock 61
  | 1 => .sweeper
  | _ => .request relayCall

/-- The first request hands over its token and is slow to finalize; its lease runs out and is swept, and the
second request reserves the elicit. -/
def overtaken : List Nat := List.replicate 9 2 ++ [0, 1] ++ List.replicate 6 3 ++ [2]

end Krewhub
