import Krewhub.Base.Interleave
import Krewhub.Services.TaskService

/-!
# One session a run

The first event of a task that carries a session token stamps it on the row, and events with another
token are refused. A call reads the row, decides, and stamps in a later statement whose outcome it does
not look at. Where every stamp meets a row that no other token has been stamped on, all calls that are
accepted carry the token of the row; two calls that both read the row before either has stamped it are
both accepted.
-/

namespace Krewhub

/-! ### The token column -/

/-- The session token of a task that is there. -/
def Db.rowToken (db : Db) (taskId : String) : Option (Option String) :=
  (db.tasks.get taskId).map (·.sessionToken)

/-- The token the statement stamps where there is none. -/
def TaskUpdate.stamp? : TaskUpdate → Option String
  | .stampSessionToken token => some token
  | _ => none

theorem TaskUpdate.sessionToken_apply (u : TaskUpdate) (t : Task) :
    (u.apply t).sessionToken = (t.sessionToken <|> u.stamp?) := by
  have hnone : t.sessionToken = (t.sessionToken <|> none) := by cases t.sessionToken <;> rfl
  cases u with
  | stampSessionToken token => rfl
  | _ => exact hnone

theorem Op.rowToken_updateTask {db : Db} {taskId : String} {u : TaskUpdate} {seen : Option Task} :
    (Op.exec (.updateTask taskId u none seen) db).rowToken taskId =
      (db.rowToken taskId).map (· <|> u.stamp?) := by
  rw [Db.rowToken, Op.get_exec_updateTask, if_pos rfl, Db.rowToken, Option.map_map, Option.map_map]
  congr 1
  funext t
  exact TaskUpdate.sessionToken_apply u t

/-! ### The calls -/

/-- A call of `post_event` or of `post_events_batch`. -/
inductive EventCall where
  | event (spec : EventSpec) (sessionToken : Option String) (d : Draws)
  | batch (events : List BatchEventItem) (sessionToken : Option String) (d : Draws)

namespace EventCall

def program (taskId : String) : EventCall → Sql (List Event)
  | event spec sessionToken d => do
    let posted ← TaskService.postEvent taskId spec sessionToken d
    return [posted]
  | batch events sessionToken d => TaskService.postEventsBatch taskId events sessionToken d

/-- The token as it is sent. -/
def sessionToken : EventCall → Option String
  | event _ sessionToken _ | batch _ sessionToken _ => sessionToken

/-- The token a call carries; an empty one counts as none. -/
def token (call : EventCall) : Option String := call.sessionToken.filter (· ≠ "")

/-- The call has an event to post. -/
def posts : EventCall → Bool
  | event .. => true
  | batch events .. => !events.isEmpty

end EventCall

/-- The statements of a call once its token has been checked. -/
def AfterCheck (taskId : String) : Op → Prop
  | .updateTask id u expected _ => id = taskId ∧ expected = none ∧ u.stamp? = none
  | .insertTask _ | .deleteTask _ => False
  | _ => True

theorem plainOps_afterCheck {taskId : String} : PlainOps (AfterCheck taskId) :=
  ⟨trivial, trivial, trivial⟩

/-- The coroutine checks the token, reads the task and goes on; what comes then stamps no token and refuses
none. -/
def ChecksFirst {α : Type} (taskId : String) (sessionToken : Option String) (c : Sql α) : Prop :=
  ∃ rest : Task → Sql α,
    c = (do
      TaskService.checkAndStampSessionToken taskId sessionToken
      match ← TaskRepo.get taskId with
      | none => .raise (.valueError s!"Task {taskId} not found")
      | some task => rest task) ∧
    ∀ task, (rest task).Every (AfterCheck taskId) ∧
      (rest task).Throws (· ≠ .sessionTokenMismatch taskId)

section ChecksFirst

variable {α β : Type} {taskId : String} {sessionToken : Option String}

theorem ChecksFirst.map {c : Sql α} (hc : ChecksFirst taskId sessionToken c) (f : α → β) :
    ChecksFirst taskId sessionToken (c >>= fun a => pure (f a)) := by
  obtain ⟨rest, rfl, hrest⟩ := hc
  refine ⟨fun task => rest task >>= fun a => pure (f a), ?_, fun task => ?_⟩
  · rw [Coro.bind_assoc]
    refine congrArg _ (funext fun _ => (Coro.bind_assoc _ _ _).trans (congrArg _ (funext fun found => ?_)))
    cases found with
    | none => rfl
    | some task => rfl
  · exact ⟨.bind (hrest task).1 fun _ => trivial, .bind (hrest task).2 fun _ => trivial⟩

theorem checksFirst_postEvent (spec : EventSpec) (d : Draws) :
    ChecksFirst taskId sessionToken (TaskService.postEvent taskId spec sessionToken d) := by
  have hplain : PlainOps (AfterCheck taskId) := plainOps_afterCheck
  have hevents : Exn.integrityError "events" ≠ .sessionTokenMismatch taskId := by simp
  refine ⟨_, rfl, fun task => ⟨?_, ?_⟩⟩
  · refine .bind (TaskService.every_cookbookIdForBundle hplain _) fun _ => ?_
    refine .bind (TaskService.every_startWorking hplain (fun _ _ _ => ⟨rfl, rfl, rfl⟩)
      (fun _ => trivial) _ _ (by trivial) _) fun _ => ?_
    refine .bind (EventRepo.every_nextSequence hplain _) fun _ => ?_
    refine .bind (EventRepo.every_create hplain trivial) fun _ => ?_
    exact .bind (Sql.every_record hplain) fun _ => trivial
  · refine .bind (TaskService.throws_cookbookIdForBundle _) fun _ => ?_
    refine .bind (TaskService.throws_startWorking hevents _ _ _ _ (by trivial) _) fun _ => ?_
    refine .bind (TaskService.throws_nextSequence _) fun _ => ?_
    exact .bind (EventRepo.throws_create hevents _) fun _ => .bind Sql.throws_record fun _ => trivial

theorem checksFirst_postEventsBatch (first : BatchEventItem) (events : List BatchEventItem) (d : Draws) :
    ChecksFirst taskId sessionToken
      (TaskService.postEventsBatch taskId (first :: events) sessionToken d) := by
  have hplain : PlainOps (AfterCheck taskId) := plainOps_afterCheck
  have hevents : Exn.integrityError "events" ≠ .sessionTokenMismatch taskId := by simp
  have hvalue : ∀ message, Exn.valueError message ≠ .sessionTokenMismatch taskId := by simp
  refine ⟨_, rfl, fun task => ⟨?_, ?_⟩⟩
  · refine .bind (TaskService.every_cookbookIdForBundle hplain _) fun _ => ?_
    refine .bind (TaskService.every_startWorking hplain (fun _ _ _ => ⟨rfl, rfl, rfl⟩)
      (fun _ => trivial) _ _ (TaskService.every_enumMember _ _) _) fun _ => ?_
    exact TaskService.every_appendEvents hplain (fun _ => trivial) _ _ _ _ _
  · refine .bind (TaskService.throws_cookbookIdForBundle _) fun _ => ?_
    refine .bind (TaskService.throws_startWorking hevents _ _ _ _
      (TaskService.throws_enumMember hvalue _ _) _) fun _ => ?_
    exact TaskService.throws_appendEvents hevents hvalue _ _ _ _ _

end ChecksFirst

/-- A call with an event to post. -/
theorem EventCall.checksFirst {taskId : String} {call : EventCall} (hposts : call.posts = true) :
    ChecksFirst taskId call.sessionToken (call.program taskId) := by
  cases call with
  | event spec sessionToken d => exact (checksFirst_postEvent spec d).map fun posted => [posted]
  | batch events sessionToken d =>
    cases events with
    | nil => cases hposts
    | cons first events => exact checksFirst_postEventsBatch first events d

/-- What a call has found out about the token of the row: nothing, what it has read, what it has stamped
since; `lost` is a row that has come to be after a call has found none. -/
inductive TokenView where
  | unread
  | read (row : Option (Option String))
  | stamped (token : String)
  | lost

namespace TokenView

/-- What has been found out is so; of a row without a token only that it is there. -/
def Agrees (row : Option (Option String)) : TokenView → Prop
  | unread => True
  | read none => row = none
  | read (some none) => row ≠ none
  | read (some (some token)) | stamped token => row = some (some token)
  | lost => False

/-- Stamps leave what has been found out as it is. -/
theorem Agrees.stamp {row : Option (Option String)} {q : TokenView} (h : q.Agrees row)
    (stamp? : Option String) : q.Agrees (row.map (· <|> stamp?)) := by
  cases q with
  | unread => trivial
  | read found =>
    rcases found with - | - | token
    · exact Option.map_eq_none_iff.mpr h
    · exact fun hnone => h (Option.map_eq_none_iff.mp hnone)
    · rw [show row = some (some token) from h]
      rfl
  | stamped token =>
    rw [show row = some (some token) from h]
    rfl
  | lost => exact h

/-- A call with this token may go on. -/
def Passed (token : Option String) (q : TokenView) : Prop :=
  ∀ carried ∈ token, q = read (some (some carried)) ∨ q = stamped carried ∨ q = lost

theorem passed_none (q : TokenView) : q.Passed none := fun _ h => by cases h

end TokenView

section Calls

variable (taskId : String)

/-- A stamp is of the call's own token, after the row has been read without one; the task is touched by
no other statement but updates, and none is added or taken away. -/
def SessionAllowed (token : Option String) (q : TokenView) : Op → Prop
  | .updateTask id u expected _ => id = taskId ∧ expected = none ∧
      ∀ stamp ∈ u.stamp?, q = .read (some none) ∧ token = some stamp
  | .insertTask _ | .deleteTask _ => False
  | _ => True

def sessionAdvance (q : TokenView) (op : Op) (s : Db) : TokenView :=
  match op with
  | .updateTask _ u .. => u.stamp?.elim q .stamped
  | .select => match q with
    | .unread => .read (s.rowToken taskId)
    | .read none => if (s.rowToken taskId).isSome then .lost else .read none
    | q => q
  | _ => q

variable (calls : Nat → EventCall)

def sessionProtocol : Protocol Nat Db Op (List Event) TokenView where
  start := .unread
  allowed i := SessionAllowed taskId (calls i).token
  advance := sessionAdvance taskId
  final i q _ := q.Passed (calls i).token

variable {taskId calls}

theorem AfterCheck.allowed {token : Option String} {q : TokenView} {op : Op} (h : AfterCheck taskId op) :
    SessionAllowed taskId token q op := by
  cases op
  case updateTask id u expected seen =>
    obtain ⟨hid, hexpected, hstamp⟩ := h
    refine ⟨hid, hexpected, fun stamp hmem => ?_⟩
    rw [hstamp] at hmem
    cases hmem
  case insertTask => cases h
  case deleteTask => cases h
  all_goals trivial

theorem TokenView.Passed.advance {token : Option String} {q : TokenView} {op : Op} (s : Db)
    (h : q.Passed token) (hop : AfterCheck taskId op) : (sessionAdvance taskId q op s).Passed token := by
  cases op
  case updateTask id u expected seen =>
    rw [sessionAdvance, hop.2.2]
    exact h
  case select =>
    intro carried hcarried
    rcases h carried hcarried with rfl | rfl | rfl
    · exact .inl rfl
    · exact .inr (.inl rfl)
    · exact .inr (.inr rfl)
  all_goals exact h

/-! ### The turns of a call -/

section Follows

variable {token : Option String} {q : TokenView}

theorem follows_afterCheck {α : Type} {c : Sql α} (hc : c.Every (AfterCheck taskId))
    (hq : q.Passed token) :
    c.Follows (SessionAllowed taskId token) (sessionAdvance taskId) (fun q _ => q.Passed token) q :=
  .of_every_inv hc (fun _ _ _ hop => hop.allowed) (fun _ _ s hpassed hop => hpassed.advance s hop) hq

/-- The check ends with a row that is not there, or lets the call pass. -/
theorem follows_checkAndStamp (sessionToken : Option String) :
    (TaskService.checkAndStampSessionToken taskId sessionToken).Follows
      (SessionAllowed taskId (sessionToken.filter (· ≠ ""))) (sessionAdvance taskId)
      (fun q _ => q = .read none ∨ q.Passed (sessionToken.filter (· ≠ ""))) .unread := by
  cases sessionToken with
  | none => exact .inr (TokenView.passed_none _)
  | some token =>
    rw [TaskService.checkAndStampSessionToken]
    refine .ite (fun hempty => .inr ?_) fun hne => .perform_bind trivial fun s => ?_
    · subst hempty
      exact TokenView.passed_none _
    · have htoken : (some token).filter (· ≠ "") = some token := by simp [hne]
      rw [htoken, sessionAdvance, Db.rowToken]
      cases s.tasks.get taskId with
      | none => exact .inl rfl
      | some task =>
        dsimp only [Option.map_some]
        cases task.sessionToken with
        | none =>
          refine .perform_bind ⟨rfl, rfl, fun stamp hstamp => ⟨rfl, hstamp⟩⟩ fun _ => ?_
          exact ⟨trivial, fun _ => .inr fun carried hcarried => .inr (.inl (by
            rw [← Option.some.inj hcarried]
            rfl))⟩
        | some stamped =>
          refine .ite (fun hsame => .inr fun carried hcarried => .inl ?_) fun _ => trivial
          rw [hsame, ← Option.some.inj hcarried]

/-- After the check the task is read again; a row that was not there is there only where it has come to
be since. -/
theorem follows_task {α : Type} (hq : q = .read none ∨ q.Passed token) {f : Task → Sql α}
    (hf : ∀ task, (f task).Every (AfterCheck taskId)) (message : String) :
    (TaskRepo.get taskId >>= fun found => match found with
      | none => .raise (.valueError message)
      | some task => f task : Sql α).Follows (SessionAllowed taskId token) (sessionAdvance taskId)
        (fun q _ => q.Passed token) q := by
  refine .perform_bind trivial fun s => ?_
  cases htask : s.tasks.get taskId with
  | none => trivial
  | some task =>
    refine follows_afterCheck (hf task) ?_
    rcases hq with rfl | hpassed
    · rw [sessionAdvance, Db.rowToken, htask]
      exact fun _ _ => .inr (.inr rfl)
    · exact hpassed.advance s trivial

end Follows

theorem follows_eventCall {call : EventCall} (hposts : call.token.isSome = true → call.posts = true) :
    (call.program taskId).Follows (SessionAllowed taskId call.token) (sessionAdvance taskId)
      (fun q _ => q.Passed call.token) .unread := by
  cases hhas : call.posts with
  | true =>
    obtain ⟨rest, hprogram, hrest⟩ : ChecksFirst taskId _ (call.program taskId) := EventCall.checksFirst hhas
    rw [hprogram]
    exact .bind (follows_checkAndStamp _) fun q _ hq => follows_task hq (fun task => (hrest task).1) _
  | false =>
    cases call with
    | event => cases hhas
    | batch events sessionToken d =>
      cases events with
      | nil =>
        intro carried hcarried
        rw [show (EventCall.batch [] sessionToken d).token = some carried from hcarried] at hposts
        cases hposts rfl
      | cons => cases hhas

/-! ### The invariant -/

variable (taskId calls)

/-- A stamp meets a row that no other token has been stamped on. -/
def MeetsOwnToken (s : Db) (_ : Nat) : Op → Prop
  | .updateTask id u .. => ∀ stamp ∈ u.stamp?, ∀ stamped ∈ (s.rowToken id).join, stamped = stamp
  | _ => True

instance MeetsOwnToken.decidable (s : Db) (i : Nat) : DecidablePred (MeetsOwnToken s i) := by
  rintro (_ | _) <;> unfold MeetsOwnToken <;> dsimp only <;> infer_instance

def TokensAgree (s : Db) (q : Nat → TokenView) : Prop := ∀ i, (q i).Agrees (s.rowToken taskId)

variable {taskId calls}

theorem TokensAgree.of_same {s s' : Db} {q : Nat → TokenView} (h : TokensAgree taskId s q)
    (htasks : s'.tasks = s.tasks) : TokensAgree taskId s' q := by
  intro i
  rw [Db.rowToken, htasks]
  exact h i

theorem TokensAgree.set {s : Db} {q : Nat → TokenView} (h : TokensAgree taskId s q) {i : Nat}
    {view : TokenView} (hview : view.Agrees (s.rowToken taskId)) :
    TokensAgree taskId s (Function.update q i view) := by
  intro j
  by_cases hj : j = i
  · rw [hj, Function.update_self]
    exact hview
  · rw [Function.update_of_ne hj]
    exact h j

theorem agrees_select {row : Option (Option String)} {q : TokenView} (h : q.Agrees row) {s : Db}
    (hrow : s.rowToken taskId = row) : (sessionAdvance taskId q .select s).Agrees row := by
  cases q with
  | unread =>
    rw [sessionAdvance, hrow]
    rcases row with - | - | token
    · exact rfl
    · exact fun hnone => by cases hnone
    · exact rfl
  | read found =>
    cases found with
    | none =>
      rw [sessionAdvance, hrow, show row = none from h]
      exact rfl
    | some found => exact h
  | stamped token => exact h
  | lost => exact h

theorem tokensAgree_step {s : Db} {q : Nat → TokenView} {i : Nat} {op : Op}
    (h : TokensAgree taskId s q) (hallowed : SessionAllowed taskId (calls i).token (q i) op)
    (hmeets : MeetsOwnToken s i op) :
    TokensAgree taskId (op.exec s) (Function.update q i (sessionAdvance taskId (q i) op s)) := by
  have hkeep : Function.update q i (q i) = q := Function.update_eq_self i q
  cases op
  case updateTask id u expected seen =>
    obtain ⟨rfl, rfl, hown⟩ := hallowed
    have hafter : TokensAgree id (Op.exec (.updateTask id u none seen) s) q := by
      intro j
      rw [Op.rowToken_updateTask]
      exact (h j).stamp _
    refine hafter.set ?_
    rw [sessionAdvance]
    cases hstamp : u.stamp? with
    | none => exact hafter i
    | some stamp =>
      have hthere : s.rowToken id ≠ none := by
        have hread := h i
        rw [(hown stamp hstamp).1] at hread
        exact hread
      obtain ⟨row, hrow⟩ := Option.ne_none_iff_exists'.mp hthere
      show (Op.exec (.updateTask id u none seen) s).rowToken id = some (some stamp)
      rw [Op.rowToken_updateTask, hrow, hstamp]
      cases row with
      | none => rfl
      | some stamped =>
        have hsame : stamped = stamp := hmeets stamp hstamp stamped (by rw [hrow]; rfl)
        rw [hsame]
        rfl
  case insertTask => cases hallowed
  case deleteTask => cases hallowed
  case select =>
    exact h.set (agrees_select (h i) rfl)
  case insertEvent event reported =>
    show TokensAgree taskId _ (Function.update q i (q i))
    rw [hkeep, Op.exec]
    split
    · exact h.of_same rfl
    · exact h
  all_goals
    show TokensAgree taskId _ (Function.update q i (q i))
    rw [hkeep]
    exact h.of_same rfl

/-! ### Every schedule -/

variable (taskId calls)

/-- The calls side by side; none has begun. -/
def sessionPool (db : Db) : Pool Nat Db Op Exn (List Event) :=
  .init (fun i => (calls i).program taskId) db

/-- The calls as a schedule leaves them. -/
def sessionRun (db : Db) (turns : List (Turn Nat)) : Pool Nat Db Op Exn (List Event) :=
  (sessionPool taskId calls db).run Op.exec id turns

/-- Every call that is accepted and carries a token carries the one stamped on the row. -/
def OneSession (p : Pool Nat Db Op Exn (List Event)) : Prop :=
  ∀ i events, p.returned i events → ∀ token ∈ (calls i).token,
    p.state.rowToken taskId = some (some token)

/-- Whatever the schedule, there is one session where every stamp meets a row that no other token has been
stamped on, and no batch that carries a token is empty. -/
theorem oneSession_of_meetsOwnToken (db : Db) (turns : List (Turn Nat))
    (hposts : ∀ i, (calls i).token.isSome = true → (calls i).posts = true)
    (hmeets : Pool.Along Op.exec id MeetsOwnToken (sessionPool taskId calls db) turns) :
    OneSession taskId calls (sessionRun taskId calls db turns) := by
  obtain ⟨q, hobeys, h⟩ := Pool.inv_run_id (P := sessionProtocol taskId calls)
    (I := TokensAgree taskId) (fun s q i op h hallowed hmeets => tokensAgree_step h hallowed hmeets)
    (Pool.obeys_init (fun i => follows_eventCall (hposts i)) db) (fun _ => trivial) hmeets
  intro i events hreturned token htoken
  have hview := h i
  rcases (hobeys i).2 _ hreturned token htoken with heq | heq | heq
  · rw [heq] at hview
    exact hview
  · rw [heq] at hview
    exact hview
  · rw [heq] at hview
    cases hview

end Calls

/-! ### Two workers -/

/-- A claimed task whose token is still open. -/
def claimedTaskDb : Db where
  bundles := (∅ : Table Bundle).insert { id := "bun_1", cookbookId := some "cb_1" }
  tasks := (∅ : Table Task).insert
    { id := "task_1", bundleId := "bun_1", status := .claimed, claimedByAgentId := some "agent_1" }

/-- Two workers report on the task, each with its own token. -/
def twoWorkers (i : Nat) : EventCall :=
  .event { type := .milestone, actorId := "agent_1", actorType := .agent, body := "progress" }
    (some (if i = 0 then "tok-A" else "tok-B")) (pathDraws (if i = 0 then 'a' else 'b'))

/-- One worker after the other. -/
def reportsInTurn : List (Turn Nat) := (List.replicate 24 0 ++ List.replicate 24 1).map .run

/-- Both read the row before either stamps it. -/
def reportsOverlap : List (Turn Nat) := ([0, 1] ++ List.replicate 24 0 ++ List.replicate 24 1).map .run

theorem oneSession_in_turn :
    OneSession "task_1" twoWorkers (sessionRun "task_1" twoWorkers claimedTaskDb reportsInTurn) ∧
      (sessionRun "task_1" twoWorkers claimedTaskDb reportsInTurn).hasReturned 0 = true ∧
      (sessionRun "task_1" twoWorkers claimedTaskDb reportsInTurn).hasReturned 1 = false :=
  ⟨oneSession_of_meetsOwnToken "task_1" twoWorkers claimedTaskDb reportsInTurn (fun _ _ => rfl)
    (by decide +kernel), by decide +kernel, by decide +kernel⟩

/-- Both workers are accepted, and the row carries the token of the first. -/
theorem two_sessions_accepted :
    ¬ OneSession "task_1" twoWorkers (sessionRun "task_1" twoWorkers claimedTaskDb reportsOverlap) := by
  intro h
  have hreturned : (sessionRun "task_1" twoWorkers claimedTaskDb reportsOverlap).hasReturned 1 = true := by
    decide +kernel
  obtain ⟨events, hevents⟩ := Pool.exists_returned hreturned
  have hstamped := h 1 events hevents "tok-B" rfl
  revert hstamped
  decide +kernel

end Krewhub
