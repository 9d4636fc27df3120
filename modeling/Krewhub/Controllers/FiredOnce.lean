import Krewhub.Controllers.LinkTicks
import Krewhub.Routes.Links
import Krewhub.Routes.Tasks

/-!
# Links fire at most once

The payload of a link is injected by one statement and the link marked as fired by the next, and what a
tick works on are the links as it has listed them. One connection carries the statements of all
coroutines, so a commit of any of them may put the injection on the disk without the mark, and a
revocation may fall between the listing and the injection. Where no crash finds an injection on the disk
without its mark, and no injection meets a link that has been revoked, every link fires at most once,
across any number of restarts, and never after its revocation.
-/

namespace Krewhub

/-- A payload that has been injected, and whether its link was revoked on the disk by then. -/
structure Injection where
  linkId : String
  revoked : Bool
  deriving DecidableEq, Repr

/-- The database, and the injections it shows. -/
structure Delivered where
  db : Db
  injected : List Injection

def Delivered.ids (s : Delivered) : List String := s.injected.map (·.linkId)

/-- What the connection shows and what is on the disk, and how often the server has been restarted. -/
structure Journal where
  live : Delivered
  disk : Delivered
  epoch : Nat := 0

def revokedIn (db : Db) (linkId : String) : Bool := (db.links.get linkId).any (·.revokedAt.isSome)

namespace Journal

def shown (s : Journal) : Db := s.live.db

def exec (op : Op) (s : Journal) : Journal where
  live :=
    { db := op.exec s.live.db
      injected := s.live.injected ++ ((injectedLink s.live.db op).map fun link =>
        ⟨link.id, revokedIn s.disk.db link.id⟩).toList }
  disk := match op with
    | .commit => s.live
    | _ => s.disk
  epoch := s.epoch

/-- A restart after a crash. -/
def recover (s : Journal) : Journal := ⟨s.disk, s.disk, s.epoch + 1⟩

/-- The links that are marked as fired have been injected in the past. -/
def start (db : Db) : Journal :=
  let delivered : Delivered :=
    ⟨db, (db.links.rows.filter (·.firedAt.isSome)).map fun link => ⟨link.id, false⟩⟩
  { live := delivered, disk := delivered }

end Journal

/-! ### The coroutines -/

theorem requestOps_outside : RequestOps OutsidePipeline where
  toPlainOps := plainOps_outside
  revoke _ _ := trivial
  cancel _ _ _ _ := trivial
  unblock _ _ _ _ := trivial
  events := eventOps_outside
  park _ _ _ _ := trivial
  finish _ _ _ _ := trivial
  block _ _ _ _ := trivial
  claim _ _ _ _ _ _ := trivial
  completion _ _ _ _ _ := trivial
  followup _ _ _ := trivial
  answer _ _ _ _ _ _ := trivial
  edit _ _ _ _ _ := trivial
  review _ := trivial
  verdict _ _ _ _ _ _ _ := trivial

/-- A coroutine of the server other than the link reconciler. -/
structure Outsider where
  program : Sql Unit
  outside : program.Every OutsidePipeline

namespace Outsider

def request (depth : Nat) (req : TaskRequest) (caller : CallerContext) (d : Draws) : Outsider :=
  ⟨req.handle depth caller d, TaskRequest.every_handle requestOps_outside depth req caller d⟩

def revoke (linkId : String) (caller : CallerContext) (d : Draws) : Outsider :=
  ⟨discard (revokeLink linkId caller d),
    every_discard (every_revokeLink plainOps_outside (fun _ => trivial) fun _ _ _ => trivial)⟩

end Outsider

/-- The ticks of the link reconciler in one process; no exception leaves a tick. -/
def tickLoop : List Draws → Sql Unit
  | [] => return
  | d :: ticks => do
    LinkReconcileController.reconcile d
    tickLoop ticks

/-- The loops of the link reconciler, one for each process, and the other coroutines. -/
def linkPool {κ : Type} (loops : Nat → List Draws) (others : κ → Outsider) (db : Db) :
    Pool (Nat ⊕ κ) Journal Op Exn Unit :=
  .init (fun i => match i with
    | .inl n => (tickLoop (loops n)).on Journal.shown
    | .inr k => (others k).program.on Journal.shown) (.start db)

section Conditions

variable {κ : Type}

/-- The server runs one loop of the link reconciler, a new one after each restart. -/
def OwnLoop (s : Journal) (i : Nat ⊕ κ) (_ : Op) : Prop :=
  match i with
  | .inl n => n = s.epoch
  | .inr _ => True

/-- The link of an injection has not been revoked. -/
def InjectsUnrevoked (s : Journal) (_ : Nat ⊕ κ) (op : Op) : Prop :=
  ∀ link ∈ injectedLink s.live.db op, revokedIn s.live.db link.id = false

/-- Every injection on the disk has its mark there. -/
def MarkedOnDisk (s : Journal) : Prop :=
  ∀ injection ∈ s.disk.injected, firedIn s.disk.db injection.linkId = true

instance (s : Journal) (i : Nat ⊕ κ) (op : Op) : Decidable (OwnLoop s i op) := by
  unfold OwnLoop
  split <;> infer_instance

instance (s : Journal) (i : Nat ⊕ κ) (op : Op) : Decidable (InjectsUnrevoked s i op) :=
  inferInstanceAs (Decidable (∀ link ∈ injectedLink s.live.db op, _))

instance : DecidablePred MarkedOnDisk := fun s =>
  inferInstanceAs (Decidable (∀ injection ∈ s.disk.injected, _))

end Conditions

/-! ### Links in the database -/

theorem revokedIn_eq_true {db : Db} {linkId : String} :
    revokedIn db linkId = true ↔ ∃ link, db.links.get linkId = some link ∧ link.revokedAt.isSome := by
  rw [revokedIn]
  cases db.links.get linkId <;> simp

section Exec

variable {db : Db} {linkId : String} (op : Op)

theorem isSome_link_exec (h : (db.links.get linkId).isSome) :
    ((op.exec db).links.get linkId).isSome := by
  obtain ⟨link, hlink⟩ := Option.isSome_iff_exists.mp h
  obtain ⟨link', hlink', _⟩ := get_link_exec op hlink
  rw [hlink']
  rfl

theorem revokedIn_exec (h : revokedIn db linkId = true) : revokedIn (op.exec db) linkId = true := by
  rw [revokedIn_eq_true] at h ⊢
  obtain ⟨link, hlink, hrevoked⟩ := h
  obtain ⟨link', hlink', hkeeps⟩ := get_link_exec op hlink
  exact ⟨link', hlink', hkeeps.revoked hrevoked⟩

theorem firedIn_fireLink {link : Link} {now : Nat} (h : (db.links.get link.id).isSome) :
    firedIn ((Op.fireLink link now).exec db) link.id = true := by
  obtain ⟨row, hrow⟩ := Option.isSome_iff_exists.mp h
  rw [firedIn, Op.get_exec_fireLink, if_pos rfl, hrow]
  rfl

end Exec

/-! ### The turns of the loop -/

/-- The protocol of the loops; the other coroutines stay outside the pipeline. -/
def firingProtocol (κ : Type) : Protocol (Nat ⊕ κ) Journal Op Unit Firing where
  start := {}
  allowed i q op := match i with
    | .inl _ => q.allowed OutsidePipeline op
    | .inr _ => OutsidePipeline op
  advance q op s := q.advance op s.shown
  final _ _ _ := True

theorem fires_tickLoop (ticks : List Draws) {q : Firing} (hq : q.owed = none) :
    Fires OutsidePipeline (fun _ _ => True) q (tickLoop ticks) := by
  induction ticks generalizing q with
  | nil => trivial
  | cons d ticks ih =>
    exact Coro.Follows.attempt_bind (fires_reconcile besideOps_outside d hq) (fun _ _ hq' => ih hq')
      fun _ _ _ => trivial

/-! ### Injected once -/

/-- No link has been injected twice or after its revocation, each that has been injected is marked unless
the loop still owes its mark, and none that the loop may still inject has been. -/
structure InjectedOnce (s : Journal) (q : Firing) : Prop where
  nodup : s.live.ids.Nodup
  fired : ∀ linkId ∈ s.live.ids, linkId ∈ q.owed.map (·.id) ∨ firedIn s.live.db linkId = true
  pending : ∀ linkId ∈ q.links, linkId ∉ s.live.ids ∧ (s.live.db.links.get linkId).isSome
  owed : ∀ link ∈ q.owed, (s.live.db.links.get link.id).isSome
  unrevoked : ∀ injection ∈ s.live.injected, injection.revoked = false
  revocations : ∀ linkId, revokedIn s.disk.db linkId = true → revokedIn s.live.db linkId = true
  disk : s.disk.ids.Nodup ∧ ∀ injection ∈ s.disk.injected, injection.revoked = false

section Invariant

variable {s : Journal} {q : Firing} {op : Op}

theorem Journal.injected_exec (op : Op) (s : Journal) :
    (s.exec op).live.injected = s.live.injected ++ ((injectedLink s.live.db op).map fun link =>
      (⟨link.id, revokedIn s.disk.db link.id⟩ : Injection)).toList := rfl

theorem Journal.disk_exec (op : Op) (s : Journal) :
    (s.exec op).disk = s.disk ∨ op = .commit ∧ (s.exec op).disk = s.live := by
  cases op <;> first | exact .inl rfl | exact .inr ⟨rfl, rfl⟩

/-- What the disk shows after a statement. -/
theorem InjectedOnce.disk_exec (h : InjectedOnce s q) (op : Op) :
    (∀ linkId, revokedIn (s.exec op).disk.db linkId = true →
      revokedIn (s.exec op).live.db linkId = true) ∧
    (s.exec op).disk.ids.Nodup ∧ ∀ injection ∈ (s.exec op).disk.injected, injection.revoked = false := by
  rcases Journal.disk_exec op s with hdisk | ⟨rfl, hdisk⟩
  · rw [hdisk]
    exact ⟨fun linkId hrevoked => revokedIn_exec op (h.revocations linkId hrevoked), h.disk⟩
  · rw [hdisk]
    exact ⟨fun linkId hrevoked => hrevoked, h.nodup, h.unrevoked⟩

/-- A statement that injects nothing. -/
theorem InjectedOnce.exec (h : InjectedOnce s q) (hnone : injectedLink s.live.db op = none) :
    InjectedOnce (s.exec op) q := by
  have hinjected : (s.exec op).live.injected = s.live.injected := by
    rw [Journal.injected_exec, hnone]
    exact List.append_nil _
  obtain ⟨hrevocations, hdisk⟩ := h.disk_exec op
  have hids : (s.exec op).live.ids = s.live.ids := by rw [Delivered.ids, hinjected, Delivered.ids]
  refine ⟨hids ▸ h.nodup, fun linkId hid => ?_, fun linkId hid => ?_, fun link howed => ?_,
    hinjected ▸ h.unrevoked, hrevocations, hdisk⟩
  · exact (h.fired linkId (hids ▸ hid)).imp id fun hfired => firedIn_exec op hfired
  · rw [hids]
    exact ⟨(h.pending linkId hid).1, isSome_link_exec op (h.pending linkId hid).2⟩
  · exact isSome_link_exec op (h.owed link howed)

/-- A statement that injects a link that is pending and has not been revoked. -/
theorem InjectedOnce.inject {link : Link} {met : Set Db} (h : InjectedOnce s q) (howed : q.owed = none)
    (hlink : injectedLink s.live.db op = some link) (hpending : link.id ∈ q.links)
    (hrevoked : revokedIn s.live.db link.id = false) :
    InjectedOnce (s.exec op) ⟨q.links \ {link.id}, met, some link⟩ := by
  have hdiskRevoked : revokedIn s.disk.db link.id = false := by
    rw [Bool.eq_false_iff]
    intro hdisk
    rw [h.revocations _ hdisk] at hrevoked
    cases hrevoked
  have hinjected : (s.exec op).live.injected = s.live.injected ++ [⟨link.id, false⟩] := by
    rw [Journal.injected_exec, hlink, Option.map_some, hdiskRevoked]
    rfl
  have hids : (s.exec op).live.ids = s.live.ids ++ [link.id] := by
    rw [Delivered.ids, hinjected, List.map_append]
    rfl
  obtain ⟨hrevocations, hdisk⟩ := h.disk_exec op
  refine ⟨?_, fun linkId hid => ?_, fun linkId hid => ?_, fun l hl => ?_,
    fun injection hmem => ?_, hrevocations, hdisk⟩
  · rw [hids, List.nodup_append]
    refine ⟨h.nodup, List.nodup_singleton _, fun a ha b hb heq => ?_⟩
    rw [heq, List.mem_singleton.mp hb] at ha
    exact (h.pending _ hpending).1 ha
  · rw [hids, List.mem_append, List.mem_singleton] at hid
    rcases hid with hid | rfl
    · have hfired := h.fired linkId hid
      rw [howed] at hfired
      exact hfired.elim (fun hnone => by cases hnone) fun hfired => .inr (firedIn_exec op hfired)
    · exact .inl rfl
  · rw [hids, List.mem_append, List.mem_singleton, not_or]
    obtain ⟨hmem, hexists⟩ := h.pending linkId hid.1
    exact ⟨⟨hmem, hid.2⟩, isSome_link_exec op hexists⟩
  · rw [← Option.some.inj hl]
    exact isSome_link_exec op (h.pending _ hpending).2
  · rw [hinjected, List.mem_append, List.mem_singleton] at hmem
    rcases hmem with hmem | rfl
    · exact h.unrevoked injection hmem
    · rfl

/-- The mark of the link that is owed, or of another one. -/
theorem InjectedOnce.fire {link : Link} {now : Nat} {met : Set Db} (h : InjectedOnce s q)
    (howed : ∀ l ∈ q.owed, l = link) :
    InjectedOnce (s.exec (.fireLink link now)) { q with met := met, owed := none } := by
  have hexec : InjectedOnce (s.exec (.fireLink link now)) q := h.exec rfl
  refine ⟨hexec.nodup, fun linkId hid => .inr ?_, hexec.pending, (fun l hl => by cases hl),
    hexec.unrevoked, hexec.revocations, hexec.disk⟩
  rcases hexec.fired linkId hid with howes | hfired
  · obtain ⟨l, hl, rfl⟩ := Option.map_eq_some_iff.mp howes
    obtain rfl := howed l hl
    exact firedIn_fireLink (h.owed l hl)
  · exact hfired

/-- One statement of the loop. -/
theorem InjectedOnce.step (h : InjectedOnce s q) (hallowed : q.allowed OutsidePipeline op)
    (hunrevoked : ∀ link ∈ injectedLink s.live.db op, revokedIn s.live.db link.id = false) :
    InjectedOnce (s.exec op) (q.advance op s.live.db) := by
  rw [Firing.allowed] at hallowed
  cases howed : q.owed with
  | some link =>
    rw [howed] at hallowed
    obtain ⟨now, rfl⟩ := hallowed
    exact h.fire fun l hl => by rw [howed] at hl; exact (Option.some.inj hl).symm
  | none =>
    rw [howed] at hallowed
    by_cases hfire : ∃ link now, op = .fireLink link now
    · obtain ⟨link, now, rfl⟩ := hfire
      exact h.fire fun l hl => by rw [howed] at hl; cases hl
    · push Not at hfire
      cases hinjected : injectedLink s.live.db op with
      | none =>
        have hexec := h.exec hinjected
        rw [Firing.advance_none hfire hinjected]
        refine ⟨hexec.nodup, hexec.fired, fun linkId hid => ?_, hexec.owed, hexec.unrevoked,
          hexec.revocations, hexec.disk⟩
        rcases hid with hid | ⟨hunfired, hexists⟩
        · exact hexec.pending linkId hid
        · refine ⟨fun hmem => ?_, isSome_link_exec op hexists⟩
          have hids : (s.exec op).live.ids = s.live.ids := by
            rw [Delivered.ids, Journal.injected_exec, hinjected]
            exact congrArg _ (List.append_nil _)
          rcases h.fired linkId (hids ▸ hmem) with howes | hfired
          · rw [howed] at howes
            cases howes
          · rw [hfired] at hunfired
            cases hunfired
      | some link =>
        rw [Firing.advance_some hinjected]
        refine h.inject howed hinjected ?_ (hunrevoked link hinjected)
        rcases hallowed with hop | ⟨l, _, ⟨hinjects, hpending⟩ | ⟨now, rfl, _⟩⟩
        · rw [injectedLink_of_outside hop] at hinjected
          cases hinjected
        · rw [hinjects.eq_of_injectedLink hinjected]
          exact hpending
        · exact absurd rfl (hfire l now)

/-- A restart, where every injection on the disk has its mark there. -/
theorem InjectedOnce.recover (h : InjectedOnce s q) (hmarked : MarkedOnDisk s) :
    InjectedOnce s.recover {} where
  nodup := h.disk.1
  fired linkId hid := by
    obtain ⟨injection, hmem, rfl⟩ := List.mem_map.mp hid
    exact .inr (hmarked injection hmem)
  pending _ hid := hid.elim
  owed _ howed := by cases howed
  unrevoked := h.disk.2
  revocations _ hrevoked := hrevoked
  disk := h.disk

end Invariant

/-! ### Schedules -/

/-- The loop of the process, and the loops of those to come. -/
structure LoopsFireOnce {κ : Type} (s : Journal) (q : Nat ⊕ κ → Firing) : Prop where
  current : InjectedOnce s (q (.inl s.epoch))
  later : ∀ n, s.epoch < n → q (.inl n) = {}

section Schedules

variable {κ : Type} [DecidableEq κ] {loops : Nat → List Draws} {others : κ → Outsider} {db : Db}

theorem injectedOnce_start (db : Db) : InjectedOnce (.start db) {} := by
  have hids : (Journal.start db).live.ids = (db.links.rows.filter (·.firedAt.isSome)).map (·.id) := by
    rw [Journal.start, Delivered.ids, List.map_map]
    rfl
  have hnodup : (Journal.start db).live.ids.Nodup := by
    rw [hids]
    exact db.links.nodup.sublist (List.filter_sublist.map key)
  have hrevoked : ∀ injection ∈ (Journal.start db).live.injected, injection.revoked = false := by
    intro injection hmem
    obtain ⟨link, _, rfl⟩ := List.mem_map.mp hmem
    rfl
  refine ⟨hnodup, fun linkId hid => .inr ?_, fun _ hid => hid.elim, (fun _ howed => by cases howed), hrevoked,
    fun _ h => h, hnodup, hrevoked⟩
  rw [hids] at hid
  obtain ⟨link, hmem, rfl⟩ := List.mem_map.mp hid
  obtain ⟨hrow, hfired⟩ := List.mem_filter.mp hmem
  exact firedIn_eq_true.mpr ⟨link, Table.get_eq_some_iff.mpr ⟨hrow, rfl⟩, hfired⟩

theorem LoopsFireOnce.step {s : Journal} {q : Nat ⊕ κ → Firing} {i : Nat ⊕ κ} {op : Op}
    (h : LoopsFireOnce s q) (hallowed : (firingProtocol κ).allowed i (q i) op) (hloop : OwnLoop s i op)
    (hunrevoked : InjectsUnrevoked s i op) :
    LoopsFireOnce (s.exec op) (Function.update q i ((q i).advance op s.live.db)) := by
  cases i with
  | inl n =>
    obtain rfl : n = s.epoch := hloop
    refine ⟨?_, fun m hm => ?_⟩
    · show InjectedOnce _ (Function.update q (.inl s.epoch) _ (.inl s.epoch))
      rw [Function.update_self]
      exact h.current.step hallowed hunrevoked
    · have hm : s.epoch < m := hm
      rw [Function.update_of_ne fun heq => by cases heq; exact Nat.lt_irrefl _ hm]
      exact h.later m hm
  | inr k =>
    refine ⟨?_, fun m hm => ?_⟩
    · rw [Function.update_of_ne (by rintro ⟨⟩)]
      exact h.current.exec (injectedLink_of_outside hallowed _)
    · rw [Function.update_of_ne (by rintro ⟨⟩)]
      exact h.later m hm

end Schedules

/-! ### A commit between injection and mark, a revocation between listing and injection -/

def oneTick (n : Nat) : List Draws := [pathDraws (if n = 0 then 'a' else 'b')]

/-- A runtime that reports on the finished task, and the owner who revokes the pipe. -/
def reportOrRevoke (reports : Bool) : Outsider :=
  if reports then .request 0 (.completion "task_a" {}) { accountId := "acc_1" } (pathDraws 'c')
  else .revoke "link_1" { accountId := legacyAccountId } (pathDraws 'd')

/-- The server after a schedule. -/
def afterLinkTurns (turns : List (Turn (Nat ⊕ Bool))) : Pool (Nat ⊕ Bool) Journal Op Exn Unit :=
  (linkPool oneTick reportOrRevoke (pipedDb .open_)).run Journal.exec Journal.recover turns

/-- The report commits after the injection, and the server crashes before the mark. -/
def committedMeanwhile : List (Turn (Nat ⊕ Bool)) :=
  List.replicate 4 (.run (.inl 0)) ++ List.replicate 3 (.run (.inr true)) ++
    .crash :: List.replicate 4 (.run (.inl 1))

/-- The revocation completes after the tick has listed the pipe. -/
def revokedMeanwhile : List (Turn (Nat ⊕ Bool)) :=
  List.replicate 3 (.run (.inl 0)) ++ List.replicate 20 (.run (.inr false)) ++ [.run (.inl 0)]

end Krewhub
