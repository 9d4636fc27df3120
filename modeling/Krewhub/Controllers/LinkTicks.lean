import Mathlib.Data.Set.Insert
import Krewhub.Base.Interleave
import Krewhub.Controllers.LinkReconciler

/-!
# The protocol of a tick

What a tick of the link reconciler may do next, whatever it reads: inject the payload of a link it has
listed and has not injected since, mark the link it has injected, or mark one that needs no payload. The
databases the tick has met are part of how far it has come.
-/

namespace Krewhub

/-- The task is gone, done or cancelled. -/
def Db.isOver (db : Db) (taskId : String) : Bool :=
  (db.tasks.get taskId).all fun task => task.status == .done || task.status == .cancelled

def firedIn (db : Db) (linkId : String) : Bool := (db.links.get linkId).any (·.firedAt.isSome)

/-- The link whose payload the operation injects. -/
def injectedLink (db : Db) : Op → Option Link
  | .updateTask id (.injectBrief link _) _ _ => if (db.tasks.get id).isSome then some link else none
  | .updateTask id (.injectDescription link _) _ _ =>
    if (db.tasks.get id).isSome then some link else none
  | .insertEvent event reported => if db.acceptsEvent event then reported else none
  | _ => none

/-- The operation is none of the link reconciler's: it injects no payload and marks no link as fired. -/
def OutsidePipeline : Op → Prop
  | .updateTask _ u _ _ =>
    match u with
    | .injectBrief .. | .injectDescription .. => False
    | _ => True
  | .insertEvent _ reported => reported = none
  | .fireLink .. => False
  | _ => True

theorem injectedLink_of_outside {op : Op} (hop : OutsidePipeline op) (db : Db) :
    injectedLink db op = none := by
  cases op
  case updateTask id u expected seen => cases u <;> first | rfl | cases hop
  case insertEvent event reported =>
    rw [injectedLink, show reported = none from hop, ite_self]
  all_goals rfl

/-- What a tick does beside the pipeline. -/
structure BesideOps (P : Op → Prop) : Prop extends PlainOps P where
  events : ∀ taskId, TaskService.EventOps P taskId
  outside : ∀ op, P op → OutsidePipeline op

theorem plainOps_outside : PlainOps OutsidePipeline := ⟨trivial, trivial, trivial⟩

theorem eventOps_outside (taskId : String) : TaskService.EventOps OutsidePipeline taskId :=
  ⟨fun _ => trivial, fun _ _ _ => trivial, fun _ => rfl⟩

theorem besideOps_outside : BesideOps OutsidePipeline where
  toPlainOps := plainOps_outside
  events := eventOps_outside
  outside _ hop := hop

/-- The statement injects the payload of the link: the block of a pipe into its downstream, the report
of any other link as an event. -/
inductive InjectsLink (link : Link) : Op → Prop where
  | pipe (upstream downstream : Task) (content : Option String) (hkind : link.kind = "pipe")
      (hfrom : link.fromTaskId = upstream.id) (hto : link.toTaskId = downstream.id) :
      InjectsLink link (.updateTask downstream.id (LinkReconcileController.injection link downstream
        (LinkReconcileController.pipeBlock upstream link content)) none (some downstream))
  | report (event : Event) (hkind : link.kind ≠ "pipe") : InjectsLink link (.insertEvent event (some link))

theorem injectedLink_injection (db : Db) (id : String) (link : Link) (downstream : Task)
    (block : String) :
    injectedLink db (.updateTask id (LinkReconcileController.injection link downstream block) none
      (some downstream)) = if (db.tasks.get id).isSome then some link else none := by
  unfold LinkReconcileController.injection
  split
  · split <;> rfl
  · rfl

theorem InjectsLink.eq_of_injectedLink {link injected : Link} {op : Op} {db : Db}
    (h : InjectsLink link op) (hinjected : injectedLink db op = some injected) : injected = link := by
  cases h with
  | pipe upstream downstream content hkind hfrom hto =>
    rw [injectedLink_injection] at hinjected
    split at hinjected
    · exact (Option.some.inj hinjected).symm
    · cases hinjected
  | report event hkind =>
    rw [injectedLink] at hinjected
    split at hinjected
    · exact (Option.some.inj hinjected).symm
    · cases hinjected

/-! ### Links in the database -/

/-- What a link is and what it connects. -/
def Link.ends (link : Link) : String × String × String := (link.kind, link.fromTaskId, link.toTaskId)

/-- A later state of the row of a link. -/
structure Link.Keeps (link link' : Link) : Prop where
  ends : link'.ends = link.ends
  fired : link.firedAt.isSome → link'.firedAt.isSome
  revoked : link.revokedAt.isSome → link'.revokedAt.isSome

theorem Link.Keeps.refl (link : Link) : link.Keeps link := ⟨rfl, fun h => h, fun h => h⟩

theorem get_link_exec (op : Op) {db : Db} {linkId : String} {link : Link}
    (h : db.links.get linkId = some link) :
    ∃ link', (op.exec db).links.get linkId = some link' ∧ link.Keeps link' := by
  cases op
  case insertTask t =>
    rw [Op.exec]
    split <;> exact ⟨link, h, .refl link⟩
  case insertEvent event reported =>
    rw [Op.exec]
    split <;> exact ⟨link, h, .refl link⟩
  case insertLink l => exact ⟨link, Table.get_insert_of_get h l, .refl link⟩
  case revokeLink id now =>
    rw [Op.get_exec_revokeLink, h]
    split
    · exact ⟨_, rfl, rfl, fun hfired => hfired, fun _ => rfl⟩
    · exact ⟨_, rfl, .refl link⟩
  case fireLink l now =>
    rw [Op.get_exec_fireLink, h]
    split
    · exact ⟨_, rfl, rfl, fun _ => rfl, fun hrevoked => hrevoked⟩
    · exact ⟨_, rfl, .refl link⟩
  all_goals exact ⟨link, h, .refl link⟩

theorem firedIn_eq_true {db : Db} {linkId : String} :
    firedIn db linkId = true ↔ ∃ link, db.links.get linkId = some link ∧ link.firedAt.isSome := by
  rw [firedIn]
  cases db.links.get linkId <;> simp

theorem firedIn_exec {db : Db} {linkId : String} (op : Op) (h : firedIn db linkId = true) :
    firedIn (op.exec db) linkId = true := by
  rw [firedIn_eq_true] at h ⊢
  obtain ⟨link, hlink, hfired⟩ := h
  obtain ⟨link', hlink', hkeeps⟩ := get_link_exec op hlink
  exact ⟨link', hlink', hkeeps.fired hfired⟩

/-- The mark of a link that is there after a statement was there before, or is what the statement has
written. -/
theorem get_fired_exec {op : Op} {db : Db} {linkId : String} {link' : Link}
    (h : (op.exec db).links.get linkId = some link') (hfired : link'.firedAt.isSome) :
    (∃ link, db.links.get linkId = some link ∧ link'.ends = link.ends ∧
      (link.firedAt.isSome ∨ ∃ l now, op = .fireLink l now ∧ l.id = linkId)) ∨
      op = .insertLink link' := by
  cases op
  case insertTask t =>
    rw [Op.exec] at h
    split at h <;> exact .inl ⟨link', h, rfl, .inl hfired⟩
  case insertEvent event reported =>
    rw [Op.exec] at h
    split at h <;> exact .inl ⟨link', h, rfl, .inl hfired⟩
  case insertLink l =>
    cases hlink : db.links.get linkId with
    | some link =>
      rw [Op.exec, Table.get_insert_of_get hlink] at h
      obtain rfl := Option.some.inj h
      exact .inl ⟨link, rfl, rfl, .inl hfired⟩
    | none =>
      refine .inr ?_
      by_cases hid : linkId = l.id
      · subst hid
        have hself : (db.links.insert l).get l.id = some l := Table.get_insert_self hlink
        rw [← Option.some.inj (hself.symm.trans h)]
      · have hother : (db.links.insert l).get linkId = db.links.get linkId :=
          Table.get_insert_of_ne hid
        rw [hlink] at hother
        cases hother.symm.trans h
  case revokeLink id now =>
    rw [Op.get_exec_revokeLink] at h
    split at h
    · obtain ⟨link, hlink, rfl⟩ := Option.map_eq_some_iff.mp h
      exact .inl ⟨link, hlink, rfl, .inl hfired⟩
    · exact .inl ⟨link', h, rfl, .inl hfired⟩
  case fireLink l now =>
    rw [Op.get_exec_fireLink] at h
    split at h
    · rename_i hid
      obtain ⟨link, hlink, rfl⟩ := Option.map_eq_some_iff.mp h
      exact .inl ⟨link, hlink, rfl, .inr ⟨l, now, rfl, hid.symm⟩⟩
    · exact .inl ⟨link', h, rfl, .inl hfired⟩
  all_goals exact .inl ⟨link', h, rfl, .inl hfired⟩

/-! ### How far a tick has come -/

/-- The links it may still inject, the databases it has met, and the link it has injected and not yet
marked. -/
structure Firing where
  links : Set String := ∅
  met : Set Db := ∅
  owed : Option Link := none

namespace Firing

def allowed (P : Op → Prop) (q : Firing) (op : Op) : Prop :=
  match q.owed with
  | some link => ∃ now, op = .fireLink link now
  | none => P op ∨
      ∃ link : Link, (∃ db ∈ q.met, link ∈ db.links) ∧
        (InjectsLink link op ∧ link.id ∈ q.links ∨
          ∃ now, op = .fireLink link now ∧
            (link.kind = "pipe" → ∃ db ∈ q.met, db.isOver link.toTaskId = true))

/-- A statement may list the links that are pending. -/
def advance (q : Firing) (op : Op) (db : Db) : Firing :=
  match op with
  | .fireLink .. => { q with met := insert db q.met, owed := none }
  | op =>
    match injectedLink db op with
    | some link => ⟨q.links \ {link.id}, insert db q.met, some link⟩
    | none =>
      { q with
        links := q.links ∪ {linkId | firedIn db linkId = false ∧ (db.links.get linkId).isSome}
        met := insert db q.met }

theorem advance_none {q : Firing} {op : Op} {db : Db} (hop : ∀ link now, op ≠ .fireLink link now)
    (hnone : injectedLink db op = none) :
    q.advance op db =
      { q with
        links := q.links ∪ {linkId | firedIn db linkId = false ∧ (db.links.get linkId).isSome}
        met := insert db q.met } := by
  cases op
  case fireLink link now => exact absurd rfl (hop link now)
  all_goals (rw [advance, hnone]; exact hop)

theorem advance_some {q : Firing} {op : Op} {db : Db} {link : Link}
    (hsome : injectedLink db op = some link) :
    q.advance op db = ⟨q.links \ {link.id}, insert db q.met, some link⟩ := by
  cases op
  case updateTask => rw [advance, hsome]; rintro _ _ ⟨⟩
  case insertEvent => rw [advance, hsome]; rintro _ _ ⟨⟩
  all_goals cases hsome

theorem met_advance (q : Firing) (op : Op) (db : Db) : (q.advance op db).met = insert db q.met := by
  by_cases hop : ∃ link now, op = .fireLink link now
  · obtain ⟨link, now, rfl⟩ := hop
    rfl
  · push Not at hop
    cases hinjected : injectedLink db op with
    | none => rw [advance_none hop hinjected]
    | some link => rw [advance_some hinjected]

/-- Nothing is owed, these links at least may still be injected, and these databases have been met. -/
structure Clear (links : Set String) (met : Set Db) (q : Firing) : Prop where
  owed : q.owed = none
  links : links ⊆ q.links
  met : met ⊆ q.met

theorem Clear.mono {links links' : Set String} {met met' : Set Db} {q : Firing}
    (h : q.Clear links met) (hlinks : links' ⊆ links) (hmet : met' ⊆ met) : q.Clear links' met' :=
  ⟨h.owed, hlinks.trans h.links, hmet.trans h.met⟩

end Firing

/-- A part of a tick. -/
abbrev Fires {α : Type} (P : Op → Prop) (final : Firing → Except Exn α → Prop) (q : Firing)
    (c : Sql α) : Prop :=
  c.attempt.Follows (Firing.allowed P) Firing.advance final q

section Follows

open LinkReconcileController

variable {P : Op → Prop} (hP : BesideOps P) {α β : Type} {q : Firing} {links : Set String}
  {met : Set Db}
include hP

theorem Firing.Clear.beside (hq : q.Clear links met) {op : Op} (hop : P op) (db : Db) :
    (q.advance op db).Clear links (insert db met) := by
  have hfire : ∀ link now, op ≠ .fireLink link now := by
    rintro link now rfl
    exact hP.outside _ hop
  rw [Firing.advance_none hfire (injectedLink_of_outside (hP.outside op hop) db)]
  exact ⟨hq.owed, hq.links.trans Set.subset_union_left, Set.insert_subset_insert hq.met⟩

omit hP in
theorem Firing.Clear.allowed_beside (hq : q.Clear links met) {op : Op} (hop : P op) :
    q.allowed P op := by
  rw [Firing.allowed, hq.owed]
  exact .inl hop

theorem fires_of_every {c : Sql α} (hc : c.Every P) (hq : q.Clear links met) :
    Fires P (fun q _ => q.Clear links met) q c := by
  induction c generalizing q with
  | done a => exact hq
  | raise e => exact hq
  | await op next ih =>
    refine ⟨hq.allowed_beside hc.1, fun db => ih db (hc.2 db) ?_⟩
    exact (hq.beside hP hc.1 db).mono (fun _ h => h) (Set.subset_insert _ _)

/-- What stays beside the pipeline may come first. -/
theorem Fires.beside_bind {final : Firing → Except Exn β → Prop} {c : Sql α} {f : α → Sql β}
    (hc : c.Every P) (hq : q.Clear links met)
    (hf : ∀ a q', q'.Clear links met → Fires P final q' (f a))
    (herror : ∀ e q', q'.Clear links met → final q' (.error e)) : Fires P final q (c >>= f) :=
  Coro.Follows.attempt_bind (fires_of_every hP hc hq) (fun q' a hq' => hf a q' hq')
    fun q' e hq' => herror e q' hq'

/-- After a `SELECT` the database it has met is known. -/
theorem Fires.select_bind {final : Firing → Except Exn β → Prop} {read : Db → α} {f : α → Sql β}
    (hq : q.Clear links met)
    (hf : ∀ db q', q'.Clear links (insert db met) → Fires P final q' (f (read db))) :
    Fires P final q (Sql.select read >>= f) :=
  ⟨hq.allowed_beside hP.select, fun db => hf db _ (hq.beside hP hP.select db)⟩

/-- A link that needs no payload is marked. -/
theorem fires_fire {link : Link} {now : Nat} {f : Db → Sql α} (hq : q.Clear links met)
    (hlisted : ∃ db ∈ met, link ∈ db.links)
    (hover : link.kind = "pipe" → ∃ db ∈ met, db.isOver link.toTaskId = true)
    (hf : ∀ db, (f db).Every P) :
    Fires P (fun q _ => q.Clear links met) q (.await (.fireLink link now) f) := by
  refine ⟨?_, fun db => fires_of_every hP (hf db) ⟨rfl, hq.links, ?_⟩⟩
  · rw [Firing.allowed, hq.owed]
    obtain ⟨db, hdb, hlink⟩ := hlisted
    refine .inr ⟨link, ⟨db, hq.met hdb, hlink⟩, .inr ⟨now, rfl, fun hkind => ?_⟩⟩
    obtain ⟨db', hdb', hover⟩ := hover hkind
    exact ⟨db', hq.met hdb', hover⟩
  · exact hq.met.trans (Set.subset_insert _ _)

/-- The link that has been injected is marked. -/
theorem fires_fire_owed {link : Link} {now : Nat} {f : Db → Sql α} (howed : q.owed = some link)
    (hlinks : links ⊆ q.links) (hmet : met ⊆ q.met) (hf : ∀ db, (f db).Every P) :
    Fires P (fun q _ => q.Clear links met) q (.await (.fireLink link now) f) := by
  refine ⟨?_, fun db => fires_of_every hP (hf db) ⟨rfl, hlinks, ?_⟩⟩
  · rw [Firing.allowed, howed]
    exact ⟨now, rfl⟩
  · exact hmet.trans (Set.subset_insert _ _)

omit hP in
/-- A link is injected, if the statement takes effect. -/
theorem Fires.inject {final : Firing → Except Exn α → Prop} {op : Op} {f : Db → Sql α} {link : Link}
    (hq : q.Clear links met) (hop : InjectsLink link op) (hlisted : ∃ db ∈ met, link ∈ db.links)
    (hlink : link.id ∈ links)
    (hsome : ∀ db q', injectedLink db op = some link → q'.owed = some link →
      links \ {link.id} ⊆ q'.links → met ⊆ q'.met → Fires P final q' (f db))
    (hnone : ∀ db q', injectedLink db op = none → q'.Clear links (insert db met) →
      Fires P final q' (f db)) :
    Fires P final q (.await op f) := by
  have hfire : ∀ l now, op ≠ .fireLink l now := by
    rintro l now rfl
    cases hop
  refine ⟨?_, fun db => ?_⟩
  · rw [Firing.allowed, hq.owed]
    obtain ⟨db, hdb, hmem⟩ := hlisted
    exact .inr ⟨link, ⟨db, hq.met hdb, hmem⟩, .inl ⟨hop, hq.links hlink⟩⟩
  · cases hinjected : injectedLink db op with
    | none =>
      refine hnone db _ hinjected ?_
      rw [Firing.advance_none hfire hinjected]
      exact ⟨hq.owed, hq.links.trans Set.subset_union_left, Set.insert_subset_insert hq.met⟩
    | some injected =>
      obtain rfl := hop.eq_of_injectedLink hinjected
      refine hsome db _ hinjected ?_ ?_ ?_ <;> rw [Firing.advance_some hinjected]
      · exact fun linkId hid => ⟨hq.links hid.1, hid.2⟩
      · exact hq.met.trans (Set.subset_insert _ _)

section Link

variable {link : Link} (d : Draws)

/-- One link of a tick; the others may still be injected afterwards. -/
theorem fires_firePipe {upstream : Task} (hq : q.Clear links met)
    (hlisted : ∃ db ∈ met, link ∈ db.links) (hlink : link.id ∈ links) (hkind : link.kind = "pipe")
    (hfrom : link.fromTaskId = upstream.id) :
    Fires P (fun q _ => q.Clear (links \ {link.id}) met) q (firePipe link upstream d) := by
  have hplain := hP.toPlainOps
  have hless : links \ {link.id} ⊆ links := fun _ hid => hid.1
  refine Fires.select_bind hP hq fun db q₁ hq₁ => ?_
  have hlisted₁ : ∃ db' ∈ insert db met, link ∈ db'.links := by
    obtain ⟨db', hdb', hmem⟩ := hlisted
    exact ⟨db', Set.mem_insert_of_mem _ hdb', hmem⟩
  have hmet : met ⊆ insert db met := Set.subset_insert _ _
  have hmark : db.isOver link.toTaskId = true →
      Fires P (fun q _ => q.Clear (links \ {link.id}) met) q₁ (markLinkFired link d) := by
    intro hover
    refine (fires_fire hP hq₁ hlisted₁ (fun _ => ⟨db, Set.mem_insert _ _, hover⟩) fun _ =>
      Sql.every_commit hplain).mono fun q' _ hq' => hq'.mono hless hmet
  cases hdownstream : db.tasks.get link.toTaskId with
  | none => exact hmark (by rw [Db.isOver, hdownstream]; rfl)
  | some downstream =>
    have hto : link.toTaskId = downstream.id := (Table.key_eq_of_get hdownstream).symm
    refine .attempt_ite (fun hstatus => hmark ?_) fun _ => ?_
    · rw [Db.isOver, hdownstream]
      rcases hstatus with hstatus | hstatus <;> rw [Option.all_some, hstatus] <;> rfl
    · refine Fires.beside_bind hP (every_upstreamOutput hplain _ _) hq₁ (fun content q₂ hq₂ => ?_)
        fun e q₂ hq₂ => hq₂.mono hless hmet
      have htail := (Sql.every_commit hplain).bind fun _ =>
        every_narrateFired link d hplain hP.events upstream downstream.id
      refine Fires.inject hq₂ (.pipe upstream downstream content hkind hfrom hto) hlisted₁ hlink
        (fun db' q₃ _ howed hlinks hmet₃ => ?_) fun db' q₃ hnone hq₃ => ?_
      · exact fires_fire_owed hP howed hlinks (hmet.trans hmet₃) fun _ => htail
      · have hgone : db'.isOver link.toTaskId = true := by
          rw [injectedLink_injection] at hnone
          split at hnone
          · cases hnone
          · rename_i hmissing
            rw [Db.isOver, hto, Option.not_isSome_iff_eq_none.mp hmissing]
            rfl
        have hmet₃ : met ⊆ insert db' (insert db met) := hmet.trans (Set.subset_insert _ _)
        refine (fires_fire hP (hq₃.mono (fun _ h => h) (fun _ h => h)) ?_
          (fun _ => ⟨db', Set.mem_insert _ _, hgone⟩) fun _ => htail).mono
            fun q' _ hq' => hq'.mono hless hmet₃
        obtain ⟨db₁, hdb₁, hmem⟩ := hlisted₁
        exact ⟨db₁, Set.mem_insert_of_mem _ hdb₁, hmem⟩

theorem fires_flowReport (child : Task) (hq : q.Clear links met)
    (hlisted : ∃ db ∈ met, link ∈ db.links) (hlink : link.id ∈ links) (hkind : link.kind ≠ "pipe") :
    Fires P (fun q _ => q.Clear (links \ {link.id}) met) q (flowReport link child d) := by
  have hplain := hP.toPlainOps
  have hless : links \ {link.id} ⊆ links := fun _ hid => hid.1
  have hmark : ∀ q', q'.Clear links met → ∀ f : Db → Sql Unit, (∀ db, (f db).Every P) →
      Fires P (fun q _ => q.Clear (links \ {link.id}) met) q' (.await (.fireLink link d.clock) f) :=
    fun q' hq' f hf => (fires_fire hP hq' hlisted (fun h => absurd h hkind) hf).mono
      fun q'' _ hq'' => hq''.mono hless fun _ h => h
  have herror : ∀ (_ : Exn) (q' : Firing), q'.Clear links met → q'.Clear (links \ {link.id}) met :=
    fun _ q' hq' => hq'.mono hless fun _ h => h
  refine Fires.beside_bind hP (TaskRepo.every_get hplain _) hq (fun parent q₁ hq₁ => ?_) herror
  cases parent with
  | none => exact hmark q₁ hq₁ _ fun _ => Sql.every_commit hplain
  | some parent =>
    refine .attempt_ite (fun _ => hmark q₁ hq₁ _ fun _ => Sql.every_commit hplain) fun _ => ?_
    refine Fires.beside_bind hP (every_upstreamOutput hplain _ _) hq₁ (fun content q₂ hq₂ => ?_) herror
    refine Fires.beside_bind hP (Sql.every_select hplain _) hq₂ (fun cookbookId q₃ hq₃ => ?_) herror
    refine Fires.beside_bind hP (EventRepo.every_nextSequence hplain _) hq₃ (fun sequence q₄ hq₄ => ?_)
      herror
    have htail : Coro.Every P (do
        Sql.commit
        let fresh ← TaskRepo.get parent.id
        TaskService.recordUpdated fresh) :=
      .bind (Sql.every_commit hplain) fun _ => .bind (TaskRepo.every_get hplain _) fun _ =>
        TaskService.every_recordUpdated hplain _
    refine Fires.inject hq₄ (.report _ hkind) hlisted hlink (fun db q₅ hsome howed hlinks hmet => ?_)
      fun db q₅ hnone hq₅ => ?_
    · rw [injectedLink] at hsome
      split at hsome
      · rename_i haccepts
        dsimp only
        rw [if_pos haccepts]
        exact fires_fire_owed hP howed hlinks hmet fun _ => htail
      · cases hsome
    · rw [injectedLink] at hnone
      split at hnone
      · cases hnone
      · rename_i haccepts
        dsimp only
        rw [if_neg haccepts]
        exact hq₅.mono hless (Set.subset_insert _ _)

theorem fires_reconcileLink (hq : q.Clear links met) (hlisted : ∃ db ∈ met, link ∈ db.links)
    (hlink : link.id ∈ links) :
    Fires P (fun q _ => q.Clear (links \ {link.id}) met) q (reconcileLink link d) := by
  have hplain := hP.toPlainOps
  have hless : links \ {link.id} ⊆ links := fun _ hid => hid.1
  have hfires : Fires P (fun q _ => q.Clear (links \ {link.id}) met) q
      (if link.kind = "pipe" then maybeFirePipe link d else maybeFlowReport link d) := by
    refine .attempt_ite (fun hkind => ?_) fun hkind => ?_
    · refine Fires.select_bind hP hq fun db q₁ hq₁ => ?_
      have hq₁' : q₁.Clear links met := hq₁.mono (fun _ h => h) (Set.subset_insert _ _)
      cases hupstream : db.tasks.get link.fromTaskId with
      | none => exact hq₁'.mono hless fun _ h => h
      | some upstream =>
        exact .attempt_ite (fun _ => fires_firePipe hP d hq₁' hlisted hlink hkind
          (Table.key_eq_of_get hupstream).symm) fun _ => hq₁'.mono hless fun _ h => h
    · refine Fires.beside_bind hP (TaskRepo.every_get hplain _) hq (fun child q₁ hq₁ => ?_)
        fun _ q₁ hq₁ => hq₁.mono hless fun _ h => h
      cases child with
      | none =>
        exact (fires_fire hP hq₁ hlisted (fun h => absurd h hkind) fun _ => Sql.every_commit hplain).mono
          fun q' _ hq' => hq'.mono hless fun _ h => h
      | some child =>
        exact .attempt_ite (fun _ => fires_flowReport hP d child hq₁ hlisted hlink hkind)
          fun _ => hq₁.mono hless fun _ h => h
  exact Coro.Follows.attempt_tryCatch hfires (fun _ _ h => h) fun _ _ h => h

end Link

variable (d : Draws)

theorem fires_reconcileLinks {pending : List Link} (hq : q.Clear links met)
    (hnodup : (pending.map (·.id)).Nodup) (hpending : ∀ link ∈ pending, link.id ∈ links)
    (hlisted : ∀ link ∈ pending, ∃ db ∈ met, link ∈ db.links) :
    Fires P (fun q _ => q.Clear ∅ met) q (reconcileLinks d pending) := by
  induction pending generalizing q links with
  | nil => exact hq.mono (Set.empty_subset _) fun _ h => h
  | cons link pending ih =>
    rw [List.map_cons, List.nodup_cons] at hnodup
    refine Coro.Follows.attempt_bind (fires_reconcileLink hP _ hq (hlisted link (List.mem_cons_self ..))
      (hpending link (List.mem_cons_self ..))) (fun q' _ hq' => ?_)
      fun q' _ hq' => hq'.mono (Set.empty_subset _) fun _ h => h
    refine ih hq' hnodup.2 (fun l hl => ⟨hpending l (List.mem_cons_of_mem _ hl), fun heq => ?_⟩)
      fun l hl => hlisted l (List.mem_cons_of_mem _ hl)
    exact hnodup.1 (List.mem_map.mpr ⟨l, hl, heq⟩)

omit hP in
/-- The links a tick lists are in the database and not marked as fired. -/
theorem mem_pendingLinks {db : Db} {link : Link} (h : link ∈ pendingLinks db) :
    link ∈ db.links ∧ firedIn db link.id = false ∧ (db.links.get link.id).isSome := by
  obtain ⟨hmem, hpending⟩ := List.mem_filter.mp h
  rw [Bool.and_eq_true, Option.isNone_iff_eq_none] at hpending
  have hget : db.links.get link.id = some link := Table.get_eq_some_iff.mpr ⟨hmem, rfl⟩
  rw [firedIn, hget]
  exact ⟨hmem, by rw [Option.any_some, hpending.1]; rfl, rfl⟩

theorem fires_reconcile (hq : q.owed = none) :
    Fires P (fun q _ => q.owed = none) q (reconcile d) := by
  have hclear : q.Clear ∅ ∅ := ⟨hq, Set.empty_subset _, Set.empty_subset _⟩
  refine ⟨hclear.allowed_beside hP.select, fun db => ?_⟩
  have hlisting : (q.advance .select db).Clear
      {linkId | firedIn db linkId = false ∧ (db.links.get linkId).isSome} {db} := by
    rw [Firing.advance_none (by rintro _ _ ⟨⟩) rfl]
    exact ⟨hq, Set.subset_union_right, fun db' hdb' => .inl hdb'⟩
  refine (fires_reconcileLinks hP d hlisting (db.links.nodup.sublist (List.filter_sublist.map key))
    (fun link hlink => (mem_pendingLinks hlink).2) fun link hlink =>
      ⟨db, rfl, (mem_pendingLinks hlink).1⟩).mono fun q' _ hq' => hq'.owed

end Follows

end Krewhub
