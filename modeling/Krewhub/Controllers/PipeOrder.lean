import Krewhub.Controllers.Dispatch
import Krewhub.Controllers.LinkTicks
import Krewhub.Controllers.Orch
import Krewhub.Routes.Links
import Krewhub.Routes.Tasks

/-!
# Payloads come before the start

A pipe gates its downstream by an implied dependency, which is met as soon as the upstream is done; the
output of the upstream is injected by a tick of the link reconciler some time after that. Where a task is
dispatched and claimed only once the pipes its finished dependencies lead along have been marked, and was
not over at any time before they were, the payload of each of them is in its prompt by then.
-/

namespace Krewhub

/-- A text that has been written into the prompt of a task for a link. -/
structure Delivery where
  linkId : String
  taskId : String
  text : String
  deriving DecidableEq, Repr

/-- The text carries the output of the upstream of the link. -/
def Delivery.Carries (delivery : Delivery) (link : Link) : Prop :=
  delivery.linkId = link.id ∧ delivery.taskId = link.toTaskId ∧
    ∃ upstream content, link.fromTaskId = upstream.id ∧
      (Text.strip (LinkReconcileController.pipeBlock upstream link content)).toList <:+:
        delivery.text.toList

/-- The description or the context of the brief that an injection writes. -/
def deliveryOf (db : Db) : Op → Option Delivery
  | .updateTask id (.injectBrief link brief) _ _ =>
    if (db.tasks.get id).isSome then some ⟨link.id, id, brief.context.getD ""⟩ else none
  | .updateTask id (.injectDescription link description) _ _ =>
    if (db.tasks.get id).isSome then some ⟨link.id, id, description⟩ else none
  | _ => none

/-- The database, what has been written into the prompts, which tasks have been over before which link
was marked, and which have been done. -/
structure Prompts where
  db : Db
  delivered : List Delivery := []
  ended : String → String → Bool
  done : String → Bool

namespace Prompts

def overUnmarked (db : Db) (taskId linkId : String) : Bool := db.isOver taskId && !firedIn db linkId

def isDone (db : Db) (taskId : String) : Bool := (db.tasks.get taskId).any (·.status == .done)

def exec (op : Op) (s : Prompts) : Prompts where
  db := op.exec s.db
  delivered := s.delivered ++ (deliveryOf s.db op).toList
  ended taskId linkId := s.ended taskId linkId || overUnmarked (op.exec s.db) taskId linkId
  done taskId := s.done taskId || isDone (op.exec s.db) taskId

def start (db : Db) : Prompts where
  db := db
  ended := overUnmarked db
  done := isDone db

end Prompts

/-! ### The coroutines -/

/-- The operation injects nothing, marks no link, and adds no task and no link that is marked. -/
def BesidePipes (op : Op) : Prop :=
  OutsidePipeline op ∧ match op with
    | .insertTask _ => False
    | .insertLink link => link.firedAt = none
    | _ => True

theorem plainOps_besidePipes : PlainOps BesidePipes :=
  ⟨⟨trivial, trivial⟩, ⟨trivial, trivial⟩, ⟨trivial, trivial⟩⟩

theorem eventOps_besidePipes (taskId : String) : TaskService.EventOps BesidePipes taskId :=
  ⟨fun _ => ⟨trivial, trivial⟩, fun _ _ _ => ⟨trivial, trivial⟩, fun _ => ⟨rfl, trivial⟩⟩

theorem besideOps_besidePipes : BesideOps BesidePipes where
  toPlainOps := plainOps_besidePipes
  events := eventOps_besidePipes
  outside _ hop := hop.1

theorem orchOps_besidePipes : OrchController.OrchOps BesidePipes where
  toPlainOps := plainOps_besidePipes
  events := eventOps_besidePipes
  marks _ _ _ := ⟨trivial, trivial⟩
  park _ _ _ _ _ := ⟨trivial, trivial⟩
  reopen _ _ _ := ⟨trivial, trivial⟩

theorem dispatchOps_besidePipes : TaskDispatchController.DispatchOps BesidePipes where
  toPlainOps := plainOps_besidePipes
  post _ _ := ⟨trivial, trivial⟩
  claim _ _ _ _ _ _ _ := ⟨trivial, trivial⟩

theorem requestOps_besidePipes : RequestOps BesidePipes where
  toPlainOps := plainOps_besidePipes
  revoke _ _ := ⟨trivial, trivial⟩
  cancel _ _ _ _ := ⟨trivial, trivial⟩
  unblock _ _ _ _ := ⟨trivial, trivial⟩
  events := eventOps_besidePipes
  park _ _ _ _ := ⟨trivial, trivial⟩
  finish _ _ _ _ := ⟨trivial, trivial⟩
  block _ _ _ _ := ⟨trivial, trivial⟩
  claim _ _ _ _ _ _ := ⟨trivial, trivial⟩
  completion _ _ _ _ _ := ⟨trivial, trivial⟩
  followup _ _ _ := ⟨trivial, trivial⟩
  answer _ _ _ _ _ _ := ⟨trivial, trivial⟩
  edit _ _ _ _ _ := ⟨trivial, trivial⟩
  review _ := ⟨trivial, trivial⟩
  verdict _ _ _ _ _ _ _ := ⟨trivial, trivial⟩

/-- A tick of the link reconciler, a tick of the orchestration controller or its fast path, a dispatch
pass, a request to a task endpoint, or the revocation of a link. -/
inductive PipeThread where
  | tick (d : Draws)
  | orch (cfg : OrchConfig) (d : Draws)
  | taskChanged (cfg : OrchConfig) (taskId : String) (d : Draws)
  | dispatch (d : Draws)
  | request (depth : Nat) (req : TaskRequest) (caller : CallerContext) (d : Draws)
  | revoke (linkId : String) (caller : CallerContext) (d : Draws)

namespace PipeThread

def program : PipeThread → Sql Unit
  | .tick d => LinkReconcileController.reconcile d
  | .orch cfg d => OrchController.reconcile cfg d
  | .taskChanged cfg taskId d => OrchController.reconcileTaskId cfg taskId d
  | .dispatch d => TaskDispatchController.reconcile d
  | .request depth req caller d => req.handle depth caller d
  | .revoke linkId caller d => discard (revokeLink linkId caller d)

theorem fires_program (thread : PipeThread) :
    Fires BesidePipes (fun _ _ => True) {} thread.program := by
  have hclear : Firing.Clear ∅ ∅ {} := ⟨rfl, Set.empty_subset _, Set.empty_subset _⟩
  have hbeside : ∀ {c : Sql Unit}, c.Every BesidePipes → Fires BesidePipes (fun _ _ => True) {} c :=
    fun hc => (fires_of_every besideOps_besidePipes hc hclear).mono fun _ _ _ => trivial
  cases thread with
  | tick d => exact (fires_reconcile besideOps_besidePipes d rfl).mono fun _ _ _ => trivial
  | orch cfg d => exact hbeside (OrchController.every_reconcile orchOps_besidePipes cfg d)
  | taskChanged cfg taskId d =>
    exact hbeside (OrchController.every_reconcileTaskId orchOps_besidePipes cfg d taskId)
  | dispatch d => exact hbeside (TaskDispatchController.every_reconcile dispatchOps_besidePipes d)
  | request depth req caller d =>
    exact hbeside (TaskRequest.every_handle requestOps_besidePipes depth req caller d)
  | revoke linkId caller d =>
    exact hbeside (every_discard (every_revokeLink plainOps_besidePipes (fun _ => ⟨trivial, trivial⟩)
      fun _ _ _ => ⟨trivial, trivial⟩))

end PipeThread

/-- The threads side by side; none has begun. -/
def pipePool {ι : Type} (threads : ι → PipeThread) (db : Db) : Pool ι Prompts Op Exn Unit :=
  .init (fun i => (threads i).program.on Prompts.db) (.start db)

/-- The task an operation dispatches or claims. -/
def startedTask : Op → Option String
  | .post _ taskId => some taskId
  | .updateTask id (.patch p _) _ _ => if p.status = some .claimed then some id else none
  | _ => none

/-- An active pipe into the task from a dependency of it that has been done. -/
def Gates (s : Prompts) (link : Link) (taskId : String) : Prop :=
  link.kind = "pipe" ∧ link.revokedAt = none ∧ link.toTaskId = taskId ∧
    (∃ downstream ∈ s.db.tasks.get taskId, link.fromTaskId ∈ downstream.dependsOnTaskIds) ∧
    s.done link.fromTaskId = true

instance (s : Prompts) (link : Link) (taskId : String) : Decidable (Gates s link taskId) :=
  inferInstanceAs (Decidable (_ ∧ _ ∧ _ ∧ (∃ downstream ∈ s.db.tasks.get taskId, _) ∧ _))

section Conditions

variable {ι : Type}

/-- The pipes of a task that is dispatched or claimed have been marked, and it was not over before. -/
def StartsFired (s : Prompts) (_ : ι) (op : Op) : Prop :=
  ∀ taskId ∈ startedTask op, ∀ link ∈ s.db.links.rows, Gates s link taskId →
    link.firedAt.isSome ∧ s.ended taskId link.id = false

/-- The payload of every pipe into a task that is dispatched or claimed has been written into its prompt,
if the pipe had not been marked at the start already. -/
def PayloadAboard (db : Db) (s : Prompts) (_ : ι) (op : Op) : Prop :=
  ∀ taskId ∈ startedTask op, ∀ link ∈ s.db.links.rows, Gates s link taskId →
    firedIn db link.id = true ∨ ∃ delivery ∈ s.delivered, delivery.Carries link

instance (s : Prompts) (i : ι) (op : Op) : Decidable (StartsFired s i op) :=
  inferInstanceAs (Decidable (∀ taskId ∈ startedTask op, ∀ link ∈ s.db.links.rows, _))

end Conditions

/-! ### What a delivery carries -/

theorem Delivery.Carries.of_ends {delivery : Delivery} {link row : Link} (h : delivery.Carries link)
    (hid : row.id = link.id) (hends : row.ends = link.ends) : delivery.Carries row := by
  obtain ⟨hlinkId, htaskId, upstream, content, hfrom, hinfix⟩ := h
  rw [Link.ends, Link.ends, Prod.mk.injEq, Prod.mk.injEq] at hends
  obtain ⟨_, hfrom', hto'⟩ := hends
  have hblock : LinkReconcileController.pipeBlock upstream row content =
      LinkReconcileController.pipeBlock upstream link content := by
    unfold LinkReconcileController.pipeBlock
    rw [hid]
  exact ⟨hlinkId.trans hid.symm, htaskId.trans hto'.symm, upstream, content, hfrom'.trans hfrom,
    hblock ▸ hinfix⟩

open LinkReconcileController in
/-- The text an injection writes has the block in it. -/
theorem deliveryOf_injection {db : Db} {link : Link} {downstream : Task} (block : String)
    (hrow : (db.tasks.get downstream.id).isSome) :
    ∃ text, deliveryOf db (.updateTask downstream.id (injection link downstream block) none
        (some downstream)) = some ⟨link.id, downstream.id, text⟩ ∧
      (Text.strip block).toList <:+: text.toList := by
  have hdescription : (Text.strip block).toList <:+:
      (appendedDescription downstream.description block).toList :=
    Text.isInfix_strip_of_append _ block
  unfold injection
  split
  · rename_i brief _
    split
    · refine ⟨(appendedBrief brief block).context.getD "", if_pos hrow, ?_⟩
      exact Text.isInfix_strip_of_append (brief.context.getD "" ++ "\n\n") block
    · exact ⟨_, if_pos hrow, hdescription⟩
  · exact ⟨_, if_pos hrow, hdescription⟩

/-- The statement that injects the payload of a pipe delivers it. -/
theorem carries_of_injectsLink {db : Db} {link injected : Link} {op : Op} (h : InjectsLink link op)
    (hkind : link.kind = "pipe") (hinjected : injectedLink db op = some injected) :
    ∃ delivery, deliveryOf db op = some delivery ∧ delivery.Carries link := by
  cases h with
  | report event hreport => exact absurd hkind hreport
  | pipe upstream downstream content _ hfrom hto =>
    rw [injectedLink_injection] at hinjected
    split at hinjected
    · rename_i hrow
      obtain ⟨text, hdelivery, hinfix⟩ := deliveryOf_injection _ hrow
      exact ⟨_, hdelivery, rfl, hto.symm, upstream, content, hfrom, hinfix⟩
    · cases hinjected

/-! ### Marked pipes are accounted for -/

/-- What a database a coroutine has met still says about the present one. -/
structure Earlier (db : Db) (s : Prompts) : Prop where
  ended : ∀ taskId linkId, db.isOver taskId = true →
    s.ended taskId linkId = true ∨ firedIn s.db linkId = true
  links : ∀ link ∈ db.links, ∃ row, s.db.links.get link.id = some row ∧ row.ends = link.ends

/-- The payload of every pipe that has been marked since the start has been delivered, or its downstream
was over before; and so has the payload of one that a tick still has to mark. -/
structure Accounted {ι : Type} (db : Db) (s : Prompts) (q : ι → Firing) : Prop where
  fired : ∀ linkId, ∀ link ∈ s.db.links.get linkId, link.kind = "pipe" → link.firedAt.isSome →
    firedIn db linkId = true ∨ s.ended link.toTaskId linkId = true ∨
      ∃ delivery ∈ s.delivered, delivery.Carries link
  owed : ∀ i, ∀ link ∈ (q i).owed, (∃ db ∈ (q i).met, link ∈ db.links) ∧
    (link.kind = "pipe" → ∃ delivery ∈ s.delivered, delivery.Carries link)
  met : ∀ i, ∀ db ∈ (q i).met, Earlier db s
  ended : ∀ taskId linkId, s.db.isOver taskId = true →
    s.ended taskId linkId = true ∨ firedIn s.db linkId = true

theorem over_or_marked {db : Db} {taskId linkId : String} (h : db.isOver taskId = true) (b : Bool) :
    (b || Prompts.overUnmarked db taskId linkId) = true ∨ firedIn db linkId = true := by
  rw [Prompts.overUnmarked, h]
  cases firedIn db linkId <;> simp

section Step

variable {ι : Type} [DecidableEq ι] {db : Db} {s : Prompts} {q : ι → Firing} {i : ι} {op : Op}

omit [DecidableEq ι] in
theorem over_exec {taskId linkId : String} (h : s.ended taskId linkId = true) :
    (s.exec op).ended taskId linkId = true := by
  show (s.ended taskId linkId || _) = true
  rw [h, Bool.true_or]

omit [DecidableEq ι] in
theorem delivered_exec {link : Link} (h : ∃ delivery ∈ s.delivered, delivery.Carries link) :
    ∃ delivery ∈ (s.exec op).delivered, delivery.Carries link := by
  obtain ⟨delivery, hmem, hcarries⟩ := h
  exact ⟨delivery, List.mem_append_left _ hmem, hcarries⟩

omit [DecidableEq ι] in
theorem Earlier.exec {db : Db} (h : Earlier db s) : Earlier db (s.exec op) := by
  refine ⟨fun taskId linkId hover => (h.ended taskId linkId hover).imp over_exec (firedIn_exec op),
    fun link hlink => ?_⟩
  obtain ⟨row, hrow, hends⟩ := h.links link hlink
  obtain ⟨row', hrow', hkeeps⟩ := get_link_exec op hrow
  exact ⟨row', hrow', hkeeps.ends.trans hends⟩

omit [DecidableEq ι] in
/-- The database a statement meets. -/
theorem Accounted.earlier_exec (h : Accounted db s q) : Earlier s.db (s.exec op) := by
  have hself : Earlier s.db s :=
    ⟨h.ended, fun link hlink => ⟨link, Table.get_eq_some_iff.mpr ⟨hlink, rfl⟩, rfl⟩⟩
  exact hself.exec

omit [DecidableEq ι] in
/-- The mark that a statement writes on a pipe without one. -/
theorem Accounted.mark {l row : Link} {now : Nat} (h : Accounted db s q)
    (hallowed : (q i).allowed BesidePipes (.fireLink l now)) (hrow : s.db.links.get l.id = some row)
    (hkind : row.kind = "pipe") (hunfired : ¬ row.firedAt.isSome) :
    s.ended row.toTaskId l.id = true ∨ ∃ delivery ∈ s.delivered, delivery.Carries row := by
  have hends : ∀ link : Link, link.id = l.id → (∃ db ∈ (q i).met, link ∈ db.links) →
      row.ends = link.ends := by
    rintro link hid ⟨db', hdb', hlink⟩
    obtain ⟨row', hrow', hends⟩ := (h.met i db' hdb').links link hlink
    rw [hid, hrow] at hrow'
    rwa [Option.some.inj hrow']
  have hrowId : row.id = l.id := Table.key_eq_of_get hrow
  rw [Firing.allowed] at hallowed
  cases howed : (q i).owed with
  | some link =>
    rw [howed] at hallowed
    obtain ⟨now', heq⟩ := hallowed
    obtain ⟨rfl, -⟩ := Op.fireLink.inj heq
    obtain ⟨hlisted, hcarries⟩ := h.owed i l howed
    have hsame := hends l rfl hlisted
    have hpipe : l.kind = "pipe" := (congrArg Prod.fst hsame).symm.trans hkind
    obtain ⟨delivery, hmem, hdelivery⟩ := hcarries hpipe
    exact .inr ⟨delivery, hmem, hdelivery.of_ends hrowId hsame⟩
  | none =>
    rw [howed] at hallowed
    rcases hallowed with hop | ⟨link, hlisted, ⟨hinjects, _⟩ | ⟨now', heq, hover⟩⟩
    · exact hop.1.elim
    · cases hinjects
    · obtain ⟨rfl, -⟩ := Op.fireLink.inj heq
      have hsame := hends l rfl hlisted
      obtain ⟨db', hdb', hgone⟩ := hover ((congrArg Prod.fst hsame).symm.trans hkind)
      rw [show row.toTaskId = l.toTaskId from congrArg (·.2.2) hsame]
      refine ((h.met i db' hdb').ended _ l.id hgone).imp id fun hfired => absurd hfired ?_
      rwa [firedIn, hrow]

/-- One statement of a thread. -/
theorem Accounted.step (h : Accounted db s q) (hallowed : (q i).allowed BesidePipes op) :
    Accounted db (s.exec op) (Function.update q i ((q i).advance op s.db)) := by
  refine ⟨fun linkId link' hlink' hkind hfired => ?_, fun j link howed => ?_, fun j db' hdb' => ?_,
    fun taskId linkId hover => ?_⟩
  · rcases get_fired_exec hlink' hfired with ⟨link, hlink, hends, hold⟩ | rfl
    · have hid : link'.id = link.id :=
        (Table.key_eq_of_get hlink').trans (Table.key_eq_of_get hlink).symm
      have hpipe : link.kind = "pipe" := (congrArg Prod.fst hends).symm.trans hkind
      have hto : link'.toTaskId = link.toTaskId := congrArg (·.2.2) hends
      have hnow : firedIn db linkId = true ∨ s.ended link.toTaskId linkId = true ∨
          ∃ delivery ∈ s.delivered, delivery.Carries link := by
        by_cases hmarked : link.firedAt.isSome
        · exact h.fired linkId link hlink hpipe hmarked
        · obtain ⟨l, now, rfl, rfl⟩ := hold.resolve_left hmarked
          exact .inr (h.mark hallowed hlink hpipe hmarked)
      rw [hto]
      refine hnow.imp id (Or.imp over_exec fun hdelivered => ?_)
      obtain ⟨delivery, hmem, hcarries⟩ := hdelivered
      exact ⟨delivery, List.mem_append_left _ hmem, hcarries.of_ends hid hends⟩
    · rw [Firing.allowed] at hallowed
      split at hallowed
      · obtain ⟨now, heq⟩ := hallowed
        cases heq
      · rcases hallowed with ⟨_, hunfired⟩ | ⟨link, _, ⟨hinjects, _⟩ | ⟨now, heq, _⟩⟩
        · rw [show link'.firedAt = none from hunfired] at hfired
          cases hfired
        · cases hinjects
        · cases heq
  · by_cases hj : j = i
    · subst hj
      rw [Function.update_self] at howed ⊢
      rw [Firing.met_advance]
      have hkeep : (∃ db ∈ (q j).met, link ∈ db.links) ∧
          (link.kind = "pipe" → ∃ delivery ∈ s.delivered, delivery.Carries link) →
          (∃ db ∈ insert s.db (q j).met, link ∈ db.links) ∧
            (link.kind = "pipe" → ∃ delivery ∈ (s.exec op).delivered, delivery.Carries link) := by
        rintro ⟨⟨db', hdb', hlink⟩, hcarries⟩
        exact ⟨⟨db', Set.mem_insert_of_mem _ hdb', hlink⟩, fun hkind => delivered_exec (hcarries hkind)⟩
      by_cases hfire : ∃ l now, op = .fireLink l now
      · obtain ⟨l, now, rfl⟩ := hfire
        cases howed
      · push Not at hfire
        cases hinjected : injectedLink s.db op with
        | none =>
          rw [Firing.advance_none hfire hinjected] at howed
          exact hkeep (h.owed j link howed)
        | some injected =>
          rw [Firing.advance_some hinjected] at howed
          obtain rfl := Option.some.inj howed
          rw [Firing.allowed] at hallowed
          split at hallowed
          · obtain ⟨now, rfl⟩ := hallowed
            exact absurd rfl (hfire _ now)
          · rcases hallowed with hop | ⟨l, ⟨db', hdb', hlink⟩, ⟨hinjects, _⟩ | ⟨now, rfl, _⟩⟩
            · rw [injectedLink_of_outside hop.1] at hinjected
              cases hinjected
            · obtain rfl := hinjects.eq_of_injectedLink hinjected
              refine ⟨⟨db', Set.mem_insert_of_mem _ hdb', hlink⟩, fun hkind => ?_⟩
              obtain ⟨delivery, hdelivery, hcarries⟩ := carries_of_injectsLink hinjects hkind hinjected
              refine ⟨delivery, List.mem_append_right _ ?_, hcarries⟩
              rw [hdelivery]
              exact List.mem_singleton_self _
            · exact absurd rfl (hfire l now)
    · rw [Function.update_of_ne hj] at howed ⊢
      exact ⟨(h.owed j link howed).1, fun hkind => delivered_exec ((h.owed j link howed).2 hkind)⟩
  · by_cases hj : j = i
    · subst hj
      rw [Function.update_self, Firing.met_advance] at hdb'
      rcases hdb' with rfl | hdb'
      · exact h.earlier_exec
      · exact (h.met j db' hdb').exec
    · rw [Function.update_of_ne hj] at hdb'
      exact (h.met j db' hdb').exec
  · exact over_or_marked hover (s.ended taskId linkId)

end Step

/-! ### Schedules -/

/-- The protocol of a tick; what stays beside the pipes is free. -/
def pipeProtocol (ι : Type) : Protocol ι Prompts Op Unit Firing where
  start := {}
  allowed _ q op := q.allowed BesidePipes op
  advance q op s := q.advance op s.db
  final _ _ _ := True

section Schedules

variable {ι : Type} [DecidableEq ι] {threads : ι → PipeThread} {db : Db} {schedule : List ι}

omit [DecidableEq ι] in
theorem obeys_pipePool :
    Pool.Obeys (pipeProtocol ι) (pipePool threads db) fun _ => {} :=
  Pool.obeys_init (fun i => (threads i).fires_program.of_attempt.on Prompts.db) _

omit [DecidableEq ι] in
theorem accounted_start (db : Db) : Accounted db (.start db) fun _ : ι => {} where
  fired linkId link hlink _ hfired := by
    refine .inl ?_
    rw [firedIn, show db.links.get linkId = some link from hlink]
    exact hfired
  owed _ _ howed := by cases howed
  met _ _ hmet := hmet.elim
  ended taskId linkId hover := over_or_marked hover false

omit [DecidableEq ι] in
theorem Accounted.aboard {s : Prompts} {q : ι → Firing} {i : ι} {op : Op} (h : Accounted db s q)
    (hstarts : StartsFired s i op) : PayloadAboard db s i op := by
  intro taskId htask link hlink hgates
  obtain ⟨hfired, hfresh⟩ := hstarts taskId htask link hlink hgates
  have hget : s.db.links.get link.id = some link := Table.get_eq_some_iff.mpr ⟨hlink, rfl⟩
  rcases h.fired link.id link hget hgates.1 hfired with hstart | hover | hdelivered
  · exact .inl hstart
  · rw [hgates.2.2.1, hfresh] at hover
    cases hover
  · exact .inr hdelivered

end Schedules

/-! ### Claimed before the tick -/

/-- The upstream of the pipe is still being worked on. -/
def workingDb : Db where
  bundles := (pipedDb .open_).bundles
  tasks := (pipedDb .open_).tasks.insert { id := "task_a", bundleId := "bun_1", status := .working }
  links := (pipedDb .open_).links

/-- The upstream is reported as done, a tick fires the pipe, and an agent claims the downstream. -/
def finishFireClaim (i : Fin 3) : PipeThread :=
  let operator : CallerContext := { accountId := legacyAccountId }
  match i with
  | 0 => .request 0 (.status "task_a" "done" none) operator (pathDraws 'a')
  | 1 => .tick (pathDraws 'b')
  | 2 => .request 0 (.claim "task_b" "agent_1") operator (pathDraws 'c')

def afterPipeTurns (schedule : List (Fin 3)) : Pool (Fin 3) Prompts Op Exn Unit :=
  (pipePool finishFireClaim workingDb).run Prompts.exec id (schedule.map .run)

/-- The agent claims the downstream after the tick. -/
def claimedInTurn : List (Fin 3) := List.replicate 8 0 ++ List.replicate 18 1 ++ List.replicate 15 2

/-- The agent claims the downstream before a tick has come. -/
def claimedEarly : List (Fin 3) := List.replicate 8 0 ++ List.replicate 15 2

/-- Every task that is dispatched or claimed needs no payload, or something has been delivered. -/
def SomeDelivered (s : Prompts) (_ : Fin 3) (op : Op) : Prop :=
  ∀ taskId ∈ startedTask op, ∀ link ∈ s.db.links.rows, Gates s link taskId →
    firedIn workingDb link.id = true ∨ s.delivered ≠ []

instance (s : Prompts) (i : Fin 3) (op : Op) : Decidable (SomeDelivered s i op) :=
  inferInstanceAs (Decidable (∀ taskId ∈ startedTask op, ∀ link ∈ s.db.links.rows, _))

theorem PayloadAboard.someDelivered {s : Prompts} {i : Fin 3} {op : Op}
    (h : PayloadAboard workingDb s i op) : SomeDelivered s i op := by
  intro taskId htask link hlink hgates
  refine (h taskId htask link hlink hgates).imp id ?_
  rintro ⟨delivery, hmem, _⟩
  exact List.ne_nil_of_mem hmem

end Krewhub
