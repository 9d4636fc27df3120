import Krewhub.Server
import Krewhub.Services.OneSession

/-!
# Handing a task over

Five operations reopen a task so that another worker can take it. None of their statements clears
`session_token`, and a token is stamped only where there is none, so the first token ever stamped on a task
stays there. The worker a task is handed over to is therefore heard exactly when no token has been stamped
in the whole history of the task; then its own token is, and the worker before it is shut out.
-/

namespace Krewhub

/-! ### What a call is refused for -/

/-- The call is refused for the token it carries, which the routes answer with 409. -/
def EventCall.Refused (taskId : String) (call : EventCall) (db : Db) : Prop :=
  ((call.program taskId).run Op.exec db).1 = .error (.sessionTokenMismatch taskId)

theorem AfterCheck.rowToken {taskId : String} {op : Op} (h : AfterCheck taskId op) (db : Db) :
    (op.exec db).rowToken taskId = db.rowToken taskId := by
  cases op
  case updateTask id u expected seen =>
    obtain ⟨rfl, rfl, hstamp⟩ := h
    rw [Op.rowToken_updateTask, hstamp]
    cases db.rowToken id with
    | none => rfl
    | some row => cases row <;> rfl
  case insertTask => cases h
  case deleteTask => cases h
  case insertEvent event reported =>
    rw [Op.exec]
    split <;> rfl
  all_goals rfl

section Calls

variable {taskId token : String} {call : EventCall} {db : Db}

theorem EventCall.sessionToken_of_token (htoken : call.token = some token) :
    call.sessionToken = some token ∧ token ≠ "" := by
  obtain ⟨hsent, hne⟩ := Option.filter_eq_some_iff.mp htoken
  exact ⟨hsent, of_decide_eq_true hne⟩

/-- On a row without a token the call stamps its own and is not refused. -/
theorem EventCall.run_of_unstamped (htoken : call.token = some token) (hposts : call.posts = true)
    (hrow : db.rowToken taskId = some none) :
    ¬ call.Refused taskId db ∧
      ((call.program taskId).run Op.exec db).2.rowToken taskId = some (some token) := by
  obtain ⟨hsent, hne⟩ := sessionToken_of_token htoken
  obtain ⟨rest, hprogram, hrest⟩ : ChecksFirst taskId _ (call.program taskId) := checksFirst hposts
  obtain ⟨task, htask, hunstamped⟩ := Option.map_eq_some_iff.mp hrow
  let stamped := Op.exec (.updateTask taskId (.stampSessionToken token) none none) db
  have hcheck : (TaskService.checkAndStampSessionToken taskId call.sessionToken).run Op.exec db =
      (.ok (), stamped) := by
    rw [hsent, TaskService.checkAndStampSessionToken, if_neg hne, TaskRepo.run_get_bind,
      htask]
    dsimp only
    rw [hunstamped]
    rfl
  have hstamped : stamped.tasks.get taskId = some ((TaskUpdate.stampSessionToken token).apply task) :=
    Op.get_updateTask_self htask
  have hrun : (call.program taskId).run Op.exec db =
      (rest ((TaskUpdate.stampSessionToken token).apply task)).run Op.exec stamped := by
    rw [hprogram, Coro.run_bind_ok Op.exec hcheck, TaskRepo.run_get_bind, hstamped]
  refine ⟨fun hrefused => ?_, ?_⟩
  · rw [Refused, hrun] at hrefused
    exact (hrest _).2.of_run (Prod.ext hrefused rfl) rfl
  · rw [hrun, (hrest _).1.run_same (f := fun db => db.rowToken taskId) (fun _ hop => hop.rowToken)]
    rw [Db.rowToken, hstamped, Option.map_some, TaskUpdate.sessionToken_apply, hunstamped]
    rfl

/-- On a row with another token the call is refused. -/
theorem EventCall.refused_of_stamped {stamped : String} (htoken : call.token = some token)
    (hposts : call.posts = true) (hrow : db.rowToken taskId = some (some stamped))
    (hother : stamped ≠ token) : call.Refused taskId db := by
  obtain ⟨hsent, hne⟩ := sessionToken_of_token htoken
  obtain ⟨rest, hprogram, -⟩ : ChecksFirst taskId _ (call.program taskId) := checksFirst hposts
  obtain ⟨task, htask, hstamped⟩ := Option.map_eq_some_iff.mp hrow
  have hcheck : (TaskService.checkAndStampSessionToken taskId call.sessionToken).run Op.exec db =
      (.error (.sessionTokenMismatch taskId), db) := by
    rw [hsent, TaskService.checkAndStampSessionToken, if_neg hne, TaskRepo.run_get_bind,
      htask]
    dsimp only
    rw [hstamped]
    dsimp only
    rw [if_neg hother]
    rfl
  rw [Refused, hprogram, Coro.run_bind_error Op.exec hcheck]

end Calls

/-! ### The token in a run of the server -/

/-- The token the operation stamps on the task. -/
def RunOp.stampOn (taskId : String) : RunOp → Option String
  | .sql (.updateTask id u _ _) => if id = taskId then u.stamp? else none
  | _ => none

def RunOp.deletes (taskId : String) : RunOp → Bool
  | .sql (.deleteTask id) => id = taskId
  | _ => false

/-- The operation sets the status of the task to `open`. -/
def RunOp.reopens (taskId : String) : RunOp → Bool
  | .sql (.updateTask id u _ _) => id = taskId && u.status? = some .open_
  | _ => false

/-- The operation claims the task for a worker, or marks it as dispatched to one. -/
def RunOp.handsOver (taskId : String) : RunOp → Bool
  | .sql (.updateTask id u _ _) => id = taskId && u.status? = some .claimed
  | _ => false

section Runs

variable (taskId : String)

/-- The task is not deleted. -/
def KeepsTask (_ : RunState) (_ : Nat) (op : RunOp) : Prop := op.deletes taskId = false

/-- No token is stamped on the task. -/
def StampsNone (_ : RunState) (_ : Nat) (op : RunOp) : Prop := op.stampOn taskId = none

instance KeepsTask.decidable (s : RunState) (i : Nat) : DecidablePred (KeepsTask taskId s i) :=
  fun op => inferInstanceAs (Decidable (op.deletes taskId = false))

/-- The task is neither deleted nor reopened. -/
def KeepsRun (_ : RunState) (_ : Nat) (op : RunOp) : Prop :=
  op.deletes taskId = false ∧ op.reopens taskId = false

variable {taskId}

/-- No statement of the server takes a token away. -/
theorem rowToken_exec {s : RunState} {op : RunOp} {row : Option String} (hop : ServerRunOp op)
    (hkeeps : op.deletes taskId = false) (hrow : s.db.rowToken taskId = some row) :
    (op.exec s).db.rowToken taskId = some (row <|> op.stampOn taskId) := by
  have hsame : (row <|> none) = row := by cases row <;> rfl
  cases op with
  | poll | post | note => exact hrow.trans (congrArg some hsame.symm)
  | sql op =>
    cases hop
    case update id u seen hupdate =>
      rw [RunOp.stampOn]
      by_cases hid : id = taskId
      · subst hid
        rw [if_pos rfl]
        show (Op.exec (.updateTask id u none seen) s.db).rowToken id = _
        rw [Op.rowToken_updateTask, hrow]
        rfl
      · rw [if_neg hid, hsame]
        show (Op.exec (.updateTask id u none seen) s.db).rowToken taskId = _
        rw [Db.rowToken, Op.get_updateTask_of_ne (Ne.symm hid)]
        exact hrow
    case insert id bundleId title description deps now =>
      obtain ⟨task, htask, hrow'⟩ := Option.map_eq_some_iff.mp hrow
      show (Op.exec _ s.db).rowToken taskId = some (row <|> none)
      rw [hsame, Op.exec]
      split
      · rw [Db.rowToken, Table.get_insert_of_get htask, Option.map_some, hrow']
      · exact hrow
    case delete id =>
      have hid : taskId ≠ id := fun heq => of_decide_eq_false hkeeps heq.symm
      show (Op.exec (.deleteTask id) s.db).rowToken taskId = some (row <|> none)
      rw [hsame, Db.rowToken, Op.exec, Table.get_erase_of_ne hid]
      exact hrow
    case free hfree =>
      have hstamp : (RunOp.sql op).stampOn taskId = none := by
        cases op
        case updateTask => cases hfree
        all_goals rfl
      show (op.exec s.db).rowToken taskId = _
      rw [hstamp, hsame, Db.rowToken, (hfree.exec s.db).1]
      exact hrow

/-- What has been stamped stays. -/
theorem stamped_run {token : String} {p : Pool Nat RunState RunOp Exn Unit} {turns : List (Turn Nat)}
    (heach : Pool.Each (fun _ => ServerRunOp) p)
    (hkeeps : Pool.Along RunOp.exec id (KeepsTask taskId) p turns)
    (hrow : p.state.db.rowToken taskId = some (some token)) :
    (p.run RunOp.exec id turns).state.db.rowToken taskId = some (some token) := by
  have hstep : ∀ (i : Nat) (op : RunOp) (s : RunState), ServerRunOp op → KeepsTask taskId s i op →
      s.db.rowToken taskId = some (some token) →
      (RunOp.exec op s).db.rowToken taskId = some (some token) :=
    fun _ _ _ hop hkeeps hrow => rowToken_exec hop hkeeps hrow
  exact Pool.rel_run (R := fun (s t : RunState) => s.db.rowToken taskId = some (some token) →
    t.db.rowToken taskId = some (some token)) (fun _ h => h) (fun _ _ _ h h' hs => h' (h hs)) hstep
    (fun _ h => h) heach hkeeps hrow

/-- The task stays. -/
theorem exists_rowToken_run {p : Pool Nat RunState RunOp Exn Unit} {turns : List (Turn Nat)}
    (heach : Pool.Each (fun _ => ServerRunOp) p)
    (hkeeps : Pool.Along RunOp.exec id (KeepsTask taskId) p turns)
    (hrow : ∃ row, p.state.db.rowToken taskId = some row) :
    ∃ row, (p.run RunOp.exec id turns).state.db.rowToken taskId = some row := by
  have hstep : ∀ (i : Nat) (op : RunOp) (s : RunState), ServerRunOp op → KeepsTask taskId s i op →
      (∃ row, s.db.rowToken taskId = some row) →
      ∃ row, (RunOp.exec op s).db.rowToken taskId = some row :=
    fun _ _ _ hop hkeeps ⟨_, hrow⟩ => ⟨_, rowToken_exec hop hkeeps hrow⟩
  exact Pool.rel_run (R := fun (s t : RunState) => (∃ row, s.db.rowToken taskId = some row) →
    ∃ row, t.db.rowToken taskId = some row) (fun _ h => h) (fun _ _ _ h h' hs => h' (h hs)) hstep
    (fun _ h => h) heach hkeeps hrow

/-- A task has no token at the end of a history exactly when none has been stamped. -/
theorem unstamped_run_iff {p : Pool Nat RunState RunOp Exn Unit} {schedule : List Nat}
    (heach : Pool.Each (fun _ => ServerRunOp) p)
    (hkeeps : Pool.Along RunOp.exec id (KeepsTask taskId) p (schedule.map .run))
    (hrow : p.state.db.rowToken taskId = some none) :
    Pool.Along RunOp.exec id (StampsNone taskId) p (schedule.map .run) ↔
      (p.run RunOp.exec id (schedule.map .run)).state.db.rowToken taskId = some none := by
  refine Pool.along_iff_end (P := fun _ => ServerRunOp) (F := KeepsTask taskId)
    (J := fun s => s.db.rowToken taskId = some none)
    (L := fun s => ∃ token, s.db.rowToken taskId = some (some token)) ?_ ?_ ?_ ?_ heach hrow hkeeps
  · intro s i op hop hkeeps hrow hstamps
    rw [rowToken_exec hop hkeeps hrow, show op.stampOn taskId = none from hstamps]
    rfl
  · intro s i op hop hkeeps hrow hstamps
    obtain ⟨token, htoken⟩ := Option.ne_none_iff_exists'.mp hstamps
    exact ⟨token, by rw [rowToken_exec hop hkeeps hrow, htoken]; rfl⟩
  · rintro s i op hop hkeeps ⟨token, hrow⟩
    exact ⟨token, rowToken_exec hop hkeeps hrow⟩
  · rintro s ⟨token, hrow⟩ hunstamped
    rw [hrow] at hunstamped
    cases hunstamped

end Runs

/-! ### Handovers -/

/-- A history of a task in which it is reopened and later handed over to a worker, and the first event of
that worker; the token of the event is not on the row, and not the one of the worker before. -/
structure Handover where
  calls : Nat → ServerCall
  start : RunState
  taskId : String
  before : List Nat
  reopener : Nat
  between : List Nat
  claimer : Nat
  rest : List Nat
  first : EventCall
  token : String
  previous : String
  created : start.db.rowToken taskId = some none
  kept : Pool.Along RunOp.exec id (KeepsTask taskId) (serverPool calls start)
    ((before ++ reopener :: between ++ claimer :: rest).map .run)
  reopens : (((serverPool calls start).run RunOp.exec id (before.map .run)).nextOp reopener).any
    (·.reopens taskId) = true
  handsOver : (((serverPool calls start).run RunOp.exec id
    ((before ++ reopener :: between).map .run)).nextOp claimer).any (·.handsOver taskId) = true
  carries : first.token = some token
  posts : first.posts = true
  fresh : ((serverPool calls start).run RunOp.exec id
    ((before ++ reopener :: between ++ claimer :: rest).map .run)).state.db.rowToken taskId ≠
      some (some token)
  replaced : previous ≠ token

namespace Handover

variable (h : Handover)

def history : List Nat := h.before ++ h.reopener :: h.between ++ h.claimer :: h.rest

/-- The server when the event arrives. -/
def reached : Pool Nat RunState RunOp Exn Unit :=
  (serverPool h.calls h.start).run RunOp.exec id (h.history.map .run)

/-- The server after the event. -/
def reported : Pool Nat RunState RunOp Exn Unit :=
  { h.reached with
    state := { h.reached.state with
      db := ((h.first.program h.taskId).run Op.exec h.reached.state.db).2 } }

/-- The new worker is heard, and until the task is reopened again the one before is not. -/
structure Heard : Prop where
  accepted : ¬ h.first.Refused h.taskId h.reached.state.db
  evicted : ∀ later : List Nat,
    Pool.Along RunOp.exec id (KeepsRun h.taskId) h.reported (later.map .run) →
    ∀ call : EventCall, call.token = some h.previous → call.posts = true →
      call.Refused h.taskId (h.reported.run RunOp.exec id (later.map .run)).state.db

theorem each_reached : Pool.Each (fun _ => ServerRunOp) h.reached :=
  (each_serverPool h.calls h.start).run _

/-- Whatever the history, the worker a task has been handed over to is heard exactly when no token has
been stamped on the task before. -/
theorem heard_iff :
    h.Heard ↔ Pool.Along RunOp.exec id (StampsNone h.taskId) (serverPool h.calls h.start)
      (h.history.map .run) := by
  have hiff := unstamped_run_iff (each_serverPool h.calls h.start) h.kept h.created
  refine Iff.trans ?_ hiff.symm
  show h.Heard ↔ h.reached.state.db.rowToken h.taskId = some none
  constructor
  · intro hheard
    obtain ⟨row, hrow⟩ : ∃ row, h.reached.state.db.rowToken h.taskId = some row :=
      exists_rowToken_run (each_serverPool h.calls h.start) h.kept ⟨_, h.created⟩
    cases row with
    | none => exact hrow
    | some stamped =>
      have hother : stamped ≠ h.token := fun heq => h.fresh (by rw [← heq]; exact hrow)
      exact absurd (EventCall.refused_of_stamped h.carries h.posts hrow hother) hheard.accepted
  · intro hrow
    obtain ⟨haccepted, hstamped⟩ := EventCall.run_of_unstamped h.carries h.posts hrow
    refine ⟨haccepted, fun later hlater call htoken hposts => ?_⟩
    have heach : Pool.Each (fun _ => ServerRunOp) h.reported := h.each_reached
    have hrow' := stamped_run heach (hlater.mono fun _ _ _ hop => hop.1) hstamped
    exact EventCall.refused_of_stamped htoken hposts hrow' h.replaced.symm

end Handover

/-! ### A task that is released and claimed again -/

/-- An open task of a cookbook with one agent, which has not been heard of since the start. -/
def oneAgentDb : Db where
  bundles := (∅ : Table Bundle).insert { id := "bun_1", cookbookId := some "cb_1" }
  tasks := (∅ : Table Task).insert { id := "task_1", bundleId := "bun_1" }
  agents := [{ agentId := "agent_1", cookbookId := "cb_1", status := .online }]

/-- One agent claims the task and reports with a token, the presence controller releases the task, and
another agent claims it. -/
def relayedCalls : Nat → ServerCall
  | 0 => .request 0 (.claim "task_1" "agent_1") { accountId := legacyAccountId } (pathDraws 'a')
  | 1 => .request 0 (.events "task_1"
      { type := "milestone", actorId := "agent_1", sessionToken := some "tok-A" })
      { accountId := legacyAccountId } (pathDraws 'b')
  | 2 => .presence 0 { pathDraws 'c' with now := fun _ => 100 }
  | _ => .request 0 (.claim "task_1" "agent_2") { accountId := legacyAccountId } (pathDraws 'd')

def releasedHandover : Handover where
  calls := relayedCalls
  start := ⟨oneAgentDb, { bundleId := "bun_1" }⟩
  taskId := "task_1"
  before := List.replicate 14 0 ++ List.replicate 25 1 ++ List.replicate 7 2
  reopener := 2
  between := List.replicate 5 2 ++ List.replicate 5 3
  claimer := 3
  rest := List.replicate 8 3
  first := .event { type := .milestone, actorId := "agent_2", actorType := .agent, body := "progress" }
    (some "tok-B") (pathDraws 'e')
  token := "tok-B"
  previous := "tok-A"
  created := by decide +kernel
  kept := by decide +kernel
  reopens := by decide +kernel
  handsOver := by decide +kernel
  carries := by decide +kernel
  posts := rfl
  fresh := by decide +kernel
  replaced := by decide

/-- The second agent holds the task, and its first event is refused. -/
theorem replacement_refused : ¬ releasedHandover.Heard := by
  intro hheard
  have hrow : releasedHandover.reached.state.db.rowToken "task_1" = some (some "tok-A") := by
    decide +kernel
  exact hheard.accepted (EventCall.refused_of_stamped releasedHandover.carries rfl hrow (by decide))

end Krewhub
