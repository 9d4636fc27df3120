import Krewhub.Controllers.LinkReconciler
import Krewhub.Controllers.Orch

/-!
# Narration

The events of the controllers go through `post_event`, which starts a task working that it finds
claimed, whoever the actor is.
-/

namespace Krewhub

/-- Where a task stands, and whose it is. -/
def Task.standing (t : Task) : TaskStatus × Option String × Option Nat × Option String :=
  (t.status, t.claimedByAgentId, t.claimedAt, t.blockedReason)

/-- Whatever state the operation meets, every task stands as before. -/
def KeepsStanding (op : Op) : Prop :=
  ∀ db taskId, ((op.exec db).tasks.get taskId).map Task.standing =
    (db.tasks.get taskId).map Task.standing

/-- The operation starts a task working only on behalf of the agent whose claim has been seen. -/
def StartsFor (actorId : String) (op : Op) : Prop :=
  ∀ id u expected seen, op = .updateTask id u expected (some seen) → u.status? = some .working →
    seen.claimedByAgentId = some actorId

theorem plainOps_keepsStanding : PlainOps KeepsStanding :=
  ⟨fun _ _ => rfl, fun _ _ => rfl, fun _ _ => rfl⟩

theorem keepsStanding_insertEvent (event : Event) : KeepsStanding (.insertEvent event) := by
  intro db taskId
  rw [Op.exec]
  split <;> rfl

theorem plainOps_startsFor (actorId : String) : PlainOps (StartsFor actorId) := by
  constructor <;> intro id u expected seen h <;> cases h

theorem startsFor_insertEvent (actorId : String) (event : Event) :
    StartsFor actorId (.insertEvent event) := by
  intro id u expected seen h
  cases h

/-- The statement with which `post_event` starts a claimed task working. -/
def workOp (taskId : String) (task : Task) (now : Nat) : Op :=
  .updateTask taskId (.patch { status := some .working } now) none (some task)

theorem not_keepsStanding_workOp {db : Db} {taskId : String} {task : Task}
    (htask : db.tasks.get taskId = some task) (hclaimed : task.status = .claimed) (now : Nat) :
    ¬ KeepsStanding (workOp taskId task now) := by
  intro h
  have hsame := h db taskId
  rw [workOp, Op.get_updateTask_self htask, htask, Option.map_some, Option.map_some,
    Option.some.injEq] at hsame
  have hstatus : TaskStatus.working = task.status := congrArg Prod.fst hsame
  rw [hclaimed] at hstatus
  cases hstatus

theorem startsFor_workOp_iff {actorId taskId : String} {task : Task} {now : Nat} :
    StartsFor actorId (workOp taskId task now) ↔ task.claimedByAgentId = some actorId := by
  refine ⟨fun h => h _ _ _ task rfl rfl, fun h id u expected seen hop _ => ?_⟩
  rw [workOp, Op.updateTask.injEq] at hop
  rw [← Option.some.inj hop.2.2.2]
  exact h

namespace TaskService

section Every

variable {P : Op → Prop} (hP : PlainOps P) (hevent : ∀ event, P (.insertEvent event))
include hP hevent

theorem every_startWorking_iff {taskId : String} {task : Task} {cookbookId : Option String}
    {actorId : String} {actorType : Sql ActorType} (hactor : actorType.Every P) {d : Draws} :
    (startWorking taskId task cookbookId actorId actorType d).Every P ↔
      (task.status = .claimed → P (workOp taskId task (d.sub 0).clock)) := by
  by_cases hclaimed : task.status = .claimed
  · rw [startWorking, if_neg (not_not_intro hclaimed)]
    refine ⟨fun h _ => h.1, fun h => ?_⟩
    refine .bind (TaskRepo.every_update hP (h hclaimed)) fun updated => .ite (fun _ => ?_) fun _ => trivial
    refine .bind (Sql.every_record hP) fun _ => .bind hactor fun _ => ?_
    exact .bind (EventRepo.every_create hP (hevent _)) fun _ => Sql.every_record hP
  · rw [startWorking, if_pos hclaimed]
    exact ⟨fun _ h => absurd h hclaimed, fun _ => trivial⟩

/-- The part of `post_event` after the check of the token reads the row, and then does to the task what
`startWorking` does. -/
theorem every_postEvent_iff (taskId : String) (spec : EventSpec) (d : Draws) :
    ∃ next, postEvent taskId spec none d = .await .select next ∧
      ∀ db, (next db).Every P ↔ ∀ task ∈ db.tasks.get taskId, task.status = .claimed →
        P (workOp taskId task ((d.sub 0).sub 0).clock) := by
  refine ⟨_, rfl, fun db => ?_⟩
  dsimp only [Coro.bind]
  cases db.tasks.get taskId with
  | none => exact ⟨fun _ _ h => (by cases h), fun _ => trivial⟩
  | some task =>
    have hactor : (pure spec.actorType : Sql ActorType).Every P := trivial
    refine ⟨fun h task' htask' hclaimed => ?_, fun h => ?_⟩
    · rw [← Option.some.inj htask'] at hclaimed ⊢
      have hstart : (startWorking taskId task ((db.bundles.get task.bundleId).bind (·.cookbookId))
          spec.actorId (pure spec.actorType) (d.sub 0) >>= _).Every P := h.2 db
      exact (every_startWorking_iff hP hevent hactor).mp hstart.of_bind hclaimed
    · refine .bind (every_cookbookIdForBundle hP _) fun cookbookId => ?_
      refine .bind ((every_startWorking_iff hP hevent hactor).mpr (h task rfl)) fun _ => ?_
      refine .bind (EventRepo.every_nextSequence hP _) fun _ => ?_
      refine .bind (EventRepo.every_create hP (hevent _)) fun _ => ?_
      exact .bind (Sql.every_record hP) fun _ => trivial

/-- The same of `post_events_batch`. -/
theorem every_postEventsBatch_iff (taskId : String) (first : BatchEventItem)
    (events : List BatchEventItem) (d : Draws) :
    ∃ next, postEventsBatch taskId (first :: events) none d = .await .select next ∧
      ∀ db, (next db).Every P ↔ ∀ task ∈ db.tasks.get taskId, task.status = .claimed →
        P (workOp taskId task ((d.sub 0).sub 0).clock) := by
  refine ⟨_, rfl, fun db => ?_⟩
  dsimp only [Coro.bind]
  cases db.tasks.get taskId with
  | none => exact ⟨fun _ _ h => (by cases h), fun _ => trivial⟩
  | some task =>
    have hactor : (enumMember (ActorType.ofText first.actorType) first.actorType).Every P :=
      every_enumMember _ _
    refine ⟨fun h task' htask' hclaimed => ?_, fun h => ?_⟩
    · rw [← Option.some.inj htask'] at hclaimed ⊢
      have hstart : (startWorking taskId task ((db.bundles.get task.bundleId).bind (·.cookbookId))
          first.actorId (enumMember (ActorType.ofText first.actorType) first.actorType) (d.sub 0) >>=
            _).Every P := h.2 db
      exact (every_startWorking_iff hP hevent hactor).mp hstart.of_bind hclaimed
    · refine .bind (every_cookbookIdForBundle hP _) fun cookbookId => ?_
      refine .bind ((every_startWorking_iff hP hevent hactor).mpr (h task rfl)) fun _ => ?_
      exact every_appendEvents hP hevent _ _ _ _ _

/-- What a controller does to a task it narrates is what `post_event` does. -/
theorem every_narrate_iff (actorId : String) (task : Task) (type : EventType) (body : String)
    (payload : EventPayload) (d : Draws) :
    ∃ next, narrate actorId task type body payload d = .await .select next ∧
      ∀ db, (next db).Every P ↔ ∀ row ∈ db.tasks.get task.id, row.status = .claimed →
        P (workOp task.id row ((d.sub 0).sub 0).clock) := by
  obtain ⟨next, hpost, hnext⟩ := every_postEvent_iff hP hevent task.id
    { type := type, actorId := actorId, actorType := .system, body := body,
      payload := some payload } d
  rw [narrate, hpost]
  refine ⟨_, rfl, fun db => ?_⟩
  rw [← hnext db]
  refine ⟨fun h => h.of_tryCatch.of_bind, fun h => .tryCatch (h.bind fun _ => trivial) ?_⟩
  rintro e c' hc'
  rw [← Option.some.inj hc']
  trivial

end Every

end TaskService

/-- A task its agent has just claimed, and has not begun to work on. -/
def freshlyClaimedDb : Db where
  bundles := (∅ : Table Bundle).insert { id := "bun_1" }
  tasks := (∅ : Table Task).insert
    { id := "task_1", bundleId := "bun_1", status := .claimed, claimedByAgentId := some "agent_1" }

end Krewhub
