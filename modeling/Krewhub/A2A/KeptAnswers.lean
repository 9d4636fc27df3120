import Krewhub.A2A.Mailbox

/-!
# Kept answers

One waiter, and answers, cancellations, timers and the clock beside it. An answer that is recorded before the
handler of `message/send` has registered its event, or between the last poll of the Hand and its
`mark_timeout`, or after the Hand was cut off, is not what the waiter reports. As long as a waiter gives up only
where there is no answer, and the Hand is not answered once it was cut off, an answer is what is reported.
-/

namespace Krewhub

/-! ### The waiter and what runs beside it -/

/-- The handler of `message/send`, or the Hand, with the await its deadline comes at. -/
inductive A2AWaiter where
  | send (call : SendCall)
  | hand (call : HandCall) (polls : Nat) (deadline : Option Nat)

namespace A2AWaiter

def id : A2AWaiter → String
  | .send call => call.id
  | .hand call .. => call.id

/-- The handler of `message/send` takes an object, or nothing. -/
def accepts (waiter : A2AWaiter) (result : Option Json) : Bool :=
  match waiter, result with
  | .hand .., _ | .send _, none | .send _, some (.dict _) => true
  | .send _, some _ => false

end A2AWaiter

inductive A2AParty where
  | respond (body : Json)
  | tasksCancel (id : String)
  | timer
  | cancel (reason : String)
  | clock (seconds : Nat)

/-- The store, and whether the Hand was cut off. -/
structure Exchange where
  store : A2AStore
  cut : Bool := false

def A2AOp.isCutOff : A2AOp → Bool
  | .cutOff _ => true
  | _ => false

def Exchange.exec (op : A2AOp) (s : Exchange) : Exchange where
  store := s.store.exec op
  cut := s.cut || op.isCutOff

section Programs

variable (dumps column : Json → String)

def A2AWaiter.program : A2AWaiter → A2A A2AReply
  | .send call => handleMessageSend dumps call
  | .hand call polls none => agentHandExecute dumps polls call
  | .hand call polls (some n) => cutOffAt n (agentHandExecute dumps polls call)

def A2AParty.program : A2AParty → A2A A2AReply
  | .respond body => respondInvocation column body
  | .tasksCancel id => handleTasksCancel id
  | .timer => .perform .fireTimer fun _ => .recorded
  | .cancel reason => .perform (.fireCancel reason) fun _ => .recorded
  | .clock seconds => .perform (.elapse seconds) fun _ => .recorded

variable (waiter : A2AWaiter) (parties : Nat → A2AParty)

def exchangeProgram : Nat → A2A A2AReply
  | 0 => waiter.program dumps
  | i + 1 => (parties i).program column

/-- What each ends with is its result. -/
def exchangePool (start : A2AStore) : Pool Nat Exchange A2AOp A2AError (Except A2AError A2AReply) :=
  .init (fun i => (exchangeProgram dumps column waiter parties i).attempt.within Exchange.store id)
    { store := start }

end Programs

/-! ### Reports -/

/-- A handler that was asked to return at once, and a Hand that is still polling, report neither. -/
def Unreported : Except A2AError A2AReply → Prop
  | .ok .submitted | .error .pollsOn => True
  | _ => False

/-- The waiter reports the answer. -/
def A2AWaiter.Delivers (dumps : Json → String) (waiter : A2AWaiter) (row : A2ARow)
    (r : Except A2AError A2AReply) : Prop :=
  match waiter with
  | .send _ => ∃ text, artifactText dumps row.result = .ok text ∧ r = .ok (.completed text)
  | .hand .. => ∃ result, r = .ok (.envelope result) ∧ result.action = .accept ∧
      result.content = .str ((row.result.map dumps).getD "")

/-- The waiter reports a failure, or that it has cancelled. -/
def ReportsFailure : Except A2AError A2AReply → Prop
  | .ok (.failed _) | .ok (.rpcError ..) => True
  | .ok (.envelope result) => result.action = .error ∨ result.action = .cancel
  | .error e => e ≠ .pollsOn
  | _ => False

/-- An answer that is recorded is what the waiter reports, and where it reports a failure none is recorded. -/
structure AnswerKept (dumps : Json → String) (waiter : A2AWaiter)
    (p : Pool Nat Exchange A2AOp A2AError (Except A2AError A2AReply)) : Prop where
  delivered : ∀ row, p.state.store.rows.get waiter.id = some row → row.status = .completed →
    ∀ r, p.returned 0 r → Unreported r ∨ waiter.Delivers dumps row r
  unanswered : ∀ r, p.returned 0 r → ReportsFailure r →
    ∀ row, p.state.store.rows.get waiter.id = some row → row.status ≠ .completed

def A2AStore.isCompleted (s : A2AStore) (id : String) : Bool := (s.rows.get id).any (·.status == .completed)

/-- The waiter gives up where there is no answer, and no answer is recorded after the Hand was cut off; the
handler of `message/send` is given an object, or nothing. -/
def GivesUpUnanswered (waiter : A2AWaiter) (s : Exchange) (_ : Nat) (op : A2AOp) : Prop :=
  match op with
  | .markTimeout id => id = waiter.id → s.store.isCompleted waiter.id = false
  | .cutOff _ => s.store.isCompleted waiter.id = false
  | .respond id status result _ => id = waiter.id → status = .completed → s.store.isOpen id = true →
      s.cut = false ∧ waiter.accepts result = true
  | _ => True

instance (waiter : A2AWaiter) (s : Exchange) (i : Nat) : DecidablePred (GivesUpUnanswered waiter s i) :=
  fun op => by
    unfold GivesUpUnanswered
    split <;> infer_instance

/-! ### Statements and the row -/

/-- What a statement makes of the row with the id. -/
def A2AOp.change (id : String) : A2AOp → A2ARow → A2ARow
  | .respond id' status result error, r => if id = id' then r.answer status result error else r
  | .cancel id', r => if id = id' then r.cancel else r
  | .markTimeout id', r => if id = id' then r.expire else r
  | .cutOff op, r => op.change id r
  | _, r => r

section Change

variable {s : A2AStore} {id : String} {r row : A2ARow} {op : A2AOp}

theorem get_exec_of_some (h : s.rows.get id = some r) :
    (s.exec op).rows.get id = some (op.change id r) := by
  induction op with
  | insert row => exact Table.get_insert_of_get h row
  | markTimeout id' | respond id' | cancel id' =>
    unfold A2AStore.exec A2AOp.change
    dsimp only
    rw [Table.get_amend, h]
    split <;> rfl
  | cutOff op ih => exact ih
  | select | fetch | commit | recordResource | register | wait | sleep | setEvent | fireTimer | fireCancel
    | elapse => exact h

theorem answer_of_closed {status : A2AStatus} {result : Option Json} {error : Option String}
    (h : r.status.isOpen = false) : r.answer status result error = r := by
  rw [A2ARow.answer, h, if_neg Bool.false_ne_true]

theorem cancel_of_closed (h : r.status.isOpen = false) : r.cancel = r := by
  rw [A2ARow.cancel, h, if_neg Bool.false_ne_true]

theorem expire_of_closed (h : r.status.isOpen = false) : r.expire = r := by
  refine if_neg fun hpending => ?_
  rw [hpending] at h
  cases h

/-- A row that is closed stays as it is. -/
theorem change_of_closed (h : r.status.isOpen = false) : op.change id r = r := by
  induction op with
  | respond =>
    unfold A2AOp.change
    rw [answer_of_closed h, ite_self]
  | cancel =>
    unfold A2AOp.change
    rw [cancel_of_closed h, ite_self]
  | markTimeout =>
    unfold A2AOp.change
    rw [expire_of_closed h, ite_self]
  | cutOff op ih => exact ih
  | select | fetch | insert | commit | recordResource | register | wait | sleep | setEvent | fireTimer
    | fireCancel | elapse => rfl

theorem get_exec_of_closed (h : s.rows.get id = some r) (hclosed : r.status.isOpen = false) :
    (s.exec op).rows.get id = some r := by
  rw [get_exec_of_some h, change_of_closed hclosed]

end Change

/-! ### How far the waiter has come -/

/-- The waiter has no row yet, waits, was woken, has read a row that is closed, has given up, or has read what is
never there; an answer has closed a row. -/
inductive ExchangeTurn where
  | start
  | opened
  | woken
  | answered (row : A2ARow)
  | gaveUp
  | lost
  | updated (id : String)

namespace A2AOp

/-- What a waiter awaits. -/
def ofWaiter (id : String) : A2AOp → Prop
  | .select | .fetch | .commit | .sleep | .recordResource _ => True
  | .insert row => row.id = id ∧ row.status = .pending
  | .register id' | .wait id' | .markTimeout id' => id' = id
  | .cutOff op => op.ofWaiter id
  | _ => False

/-- What the others await. -/
def ofOther (q : ExchangeTurn) : A2AOp → Prop
  | .commit | .cancel _ | .fireTimer | .fireCancel _ | .elapse _ => True
  | .respond _ status _ _ => status = .completed ∨ status = .failed
  | .setEvent id => q = .updated id
  | _ => False

end A2AOp

namespace ExchangeTurn

variable (id : String)

def read (q : ExchangeTurn) (row : Option A2ARow) : ExchangeTurn :=
  match q, row with
  | .opened, some r => if r.status.isOpen then .opened else .answered r
  | .woken, some r => if r.status.isOpen then .lost else .answered r
  | .opened, none | .woken, none => .lost
  | q, _ => q

def advance (q : ExchangeTurn) (op : A2AOp) (s : A2AStore) : ExchangeTurn :=
  match op with
  | .insert row => if (s.rows.get row.id).isSome then q else .opened
  | .select => q.read (s.rows.get id)
  | .wait id' => if s.isWoken id' then .woken else q
  | .markTimeout _ | .cutOff _ => .gaveUp
  | .respond id' .. => if s.isOpen id' then .updated id' else q
  | _ => q

end ExchangeTurn

/-- What the waiter ends with when it has read a closed row. -/
def A2AWaiter.Replies (dumps : Json → String) (waiter : A2AWaiter) (row : A2ARow)
    (r : Except A2AError A2AReply) : Prop :=
  match waiter with
  | .send _ => r = (sendReply dumps (some row))
  | .hand .. => ∃ result, handResult dumps row = some result ∧ r = .ok (.envelope result)

/-- What the waiter may end with. -/
def A2AWaiter.Ends (dumps : Json → String) (waiter : A2AWaiter) (q : ExchangeTurn)
    (r : Except A2AError A2AReply) : Prop :=
  match q with
  | .start | .gaveUp | .lost => True
  | .opened => Unreported r
  | .answered row => waiter.Replies dumps row r
  | .woken | .updated _ => False

section Follows

variable {dumps column : Json → String} {call : SendCall} {hand : HandCall} {polls : Nat} {deadline : Option Nat}

/-- The coroutine of a waiter, with the point it has come to. -/
abbrev WaiterFollows {α : Type} (id : String) (q : ExchangeTurn) (c : A2A α)
    (final : ExchangeTurn → Except A2AError α → Prop) : Prop :=
  c.attempt.Follows (fun _ op => op.ofWaiter id) (ExchangeTurn.advance id) final q

theorem follows_insertInvocation {id : String} {row : A2ARow} (hid : row.id = id)
    (hpending : row.status = .pending) :
    WaiterFollows id .start (insertInvocation row) fun q r =>
      (r = .error .integrityError ∧ q = .start) ∨ (r = .ok () ∧ q = .opened) := by
  refine ⟨⟨hid, hpending⟩, fun s => ?_⟩
  rw [ExchangeTurn.advance]
  cases htaken : (s.rows.get row.id).isSome with
  | true =>
    rw [if_pos rfl]
    dsimp only [Coro.bind]
    rw [htaken]
    exact .inl ⟨rfl, rfl⟩
  | false =>
    rw [if_neg Bool.false_ne_true]
    dsimp only [Coro.bind]
    rw [htaken]
    exact ⟨trivial, fun _ => .inr ⟨rfl, rfl⟩⟩

theorem follows_markTimeout (id : String) (q : ExchangeTurn) :
    WaiterFollows id q (markTimeout id) fun q _ => q = .gaveUp :=
  ⟨rfl, fun _ => ⟨trivial, fun _ => rfl⟩⟩

/-- What follows from the row a waiter that was woken reads. -/
theorem follows_sendReply (r : A2ARow) :
    WaiterFollows call.id (ExchangeTurn.woken.read (some r))
      (match sendReply dumps (some r) with
        | .ok reply => return reply
        | .error e => .raise e) ((A2AWaiter.send call).Ends dumps) := by
  unfold ExchangeTurn.read
  dsimp only
  split
  · cases sendReply dumps (some r) <;> trivial
  · have hends : (A2AWaiter.send call).Ends dumps (.answered r) (sendReply dumps (some r)) := rfl
    cases hreply : sendReply dumps (some r) <;> rw [hreply] at hends <;> exact hends

theorem follows_handleMessageSend : WaiterFollows call.id .start (handleMessageSend dumps call)
    ((A2AWaiter.send call).Ends dumps) := by
  refine ⟨trivial, fun s => ?_⟩
  dsimp only [Coro.bind]
  cases s.cards.contains (call.owner, call.agent) with
  | false => trivial
  | true =>
    refine ⟨trivial, fun s => ?_⟩
    dsimp only [Coro.bind]
    split
    · trivial
    · refine .attempt_bind (follows_insertInvocation rfl rfl) ?_ ?_
      · rintro _ _ (⟨h, -⟩ | ⟨-, rfl⟩)
        · cases h
        refine ⟨trivial, fun _ => ?_⟩
        dsimp only [Coro.bind]
        split
        · trivial
        · refine ⟨rfl, fun _ => ⟨rfl, fun s => ?_⟩⟩
          dsimp only [Coro.bind, ExchangeTurn.advance]
          cases s.isWoken call.id with
          | false =>
            refine .attempt_bind (follows_markTimeout call.id _) ?_ ?_
            · rintro _ _ rfl
              trivial
            · rintro _ _ rfl
              trivial
          | true =>
            refine ⟨trivial, fun s => ?_⟩
            dsimp only [Coro.bind, ExchangeTurn.advance]
            rw [if_pos rfl]
            cases s.rows.get call.id with
            | none => trivial
            | some r => exact follows_sendReply r
      · rintro _ e (⟨-, rfl⟩ | ⟨h, -⟩)
        · trivial
        · cases h

theorem handResult_of_open {r : A2ARow} (h : r.status.isOpen = true) : handResult dumps r = none := by
  unfold handResult
  cases hstatus : r.status with
  | pending | processing => rfl
  | completed | failed | timeout =>
    rw [hstatus] at h
    cases h

theorem handResult_of_closed (dumps : Json → String) {r : A2ARow} (h : r.status.isOpen = false) :
    ∃ result, handResult dumps r = some result := by
  unfold handResult
  cases hstatus : r.status with
  | pending | processing =>
    rw [hstatus] at h
    cases h
  | completed | failed | timeout => exact ⟨_, rfl⟩

theorem follows_pollInvocation (now n : Nat) :
    WaiterFollows hand.id .opened (pollInvocation dumps hand.id now n)
      ((A2AWaiter.hand hand polls deadline).Ends dumps) := by
  have hgaveUp : ∀ result, WaiterFollows hand.id .opened (do
      markTimeout hand.id
      return .envelope result) ((A2AWaiter.hand hand polls deadline).Ends dumps) := by
    refine fun result => .attempt_bind (follows_markTimeout hand.id _) ?_ ?_
    · rintro _ _ rfl
      trivial
    · rintro _ _ rfl
      trivial
  induction n with
  | zero => trivial
  | succ n ih =>
    refine ⟨trivial, fun s => ⟨trivial, fun s' => ?_⟩⟩
    dsimp only [Coro.bind, ExchangeTurn.advance]
    cases s.rows.get hand.id with
    | none => trivial
    | some r =>
      dsimp only [ExchangeTurn.read]
      cases hopen : r.status.isOpen with
      | false =>
        obtain ⟨result, hresult⟩ := handResult_of_closed dumps hopen
        rw [if_neg Bool.false_ne_true, hresult]
        exact ⟨result, hresult, rfl⟩
      | true =>
        rw [if_pos rfl, handResult_of_open hopen]
        dsimp only
        split
        · exact hgaveUp _
        · split
          · exact hgaveUp _
          · exact ⟨trivial, fun _ => ih⟩

theorem follows_agentHandExecute : WaiterFollows hand.id .start (agentHandExecute dumps polls hand)
    ((A2AWaiter.hand hand polls deadline).Ends dumps) := by
  unfold agentHandExecute
  split
  · trivial
  · trivial
  · refine .attempt_bind_attempt (follows_insertInvocation rfl rfl) ?_
    rintro _ _ (⟨rfl, rfl⟩ | ⟨rfl, rfl⟩)
    · trivial
    · exact ⟨trivial, fun s => follows_pollInvocation _ _⟩

/-- A waiter that is cut off reports that. -/
theorem follows_cutOffAt {waiter : A2AWaiter} {id : String} {c : A2A A2AReply} {q : ExchangeTurn}
    (hc : WaiterFollows id q c (waiter.Ends dumps)) (n : Nat) :
    WaiterFollows id q (cutOffAt n c) (waiter.Ends dumps) := by
  induction n generalizing c q with
  | zero =>
    cases c with
    | await op next => exact ⟨hc.1, fun _ => trivial⟩
    | done _ | raise _ => exact hc
  | succ n ih =>
    cases c with
    | await op next => exact ⟨hc.1, fun s => ih (hc.2 s)⟩
    | done _ | raise _ => exact hc

theorem follows_waiter (waiter : A2AWaiter) :
    WaiterFollows waiter.id .start (waiter.program dumps) (waiter.Ends dumps) := by
  cases waiter with
  | send call => exact follows_handleMessageSend
  | hand hand polls deadline =>
    cases deadline with
    | none => exact follows_agentHandExecute
    | some n => exact follows_cutOffAt follows_agentHandExecute n

theorem follows_respondInvocation (id : String) (body : Json) :
    (respondInvocation column body).attempt.Follows A2AOp.ofOther (ExchangeTurn.advance id) (fun _ _ => True)
      .start := by
  unfold respondInvocation
  cases hread : readAnswer column body with
  | error e => trivial
  | ok answer =>
    refine ⟨answer.closes, fun s => ⟨trivial, fun _ => ?_⟩⟩
    dsimp only [Coro.bind, ExchangeTurn.advance]
    by_cases hopen : s.isOpen answer.id = true
    · rw [if_pos hopen, if_neg (by rw [hopen]; exact Bool.false_ne_true)]
      exact ⟨rfl, fun _ => trivial⟩
    · rw [if_neg hopen, if_pos (by rw [Bool.eq_false_iff.mpr hopen]; rfl)]
      trivial

theorem follows_party (id : String) (party : A2AParty) :
    (party.program column).attempt.Follows A2AOp.ofOther (ExchangeTurn.advance id) (fun _ _ => True) .start := by
  cases party with
  | respond body => exact follows_respondInvocation id body
  | tasksCancel id' =>
    unfold A2AParty.program handleTasksCancel
    dsimp only
    split
    · trivial
    · exact ⟨trivial, fun _ => ⟨trivial, fun _ => trivial⟩⟩
  | timer | cancel | clock => exact ⟨trivial, fun _ => trivial⟩

end Follows

/-! ### The invariant -/

/-- The row has been answered. -/
def A2AStore.IsAnswered (s : A2AStore) (id : String) : Prop :=
  ∃ r, s.rows.get id = some r ∧ (r.status = .completed ∨ r.status = .failed)

/-- Where the waiter has come to. -/
def TurnHolds (id : String) (s : Exchange) : ExchangeTurn → Prop
  | .start => s.store.rows.get id = none
  | .opened => (s.store.rows.get id).isSome = true
  | .woken => s.store.IsAnswered id
  | .answered row => s.store.rows.get id = some row ∧ row.status.isOpen = false
  | .gaveUp => ∀ r, s.store.rows.get id = some r → r.status ≠ .completed ∧ (r.status.isOpen = true → s.cut = true)
  | .lost | .updated _ => False

/-- Who has set the event, or is about to, has answered the row; the row has an answer the waiter takes. -/
structure RowHolds (waiter : A2AWaiter) (s : Exchange) (q : Nat → ExchangeTurn) : Prop where
  event : s.store.events waiter.id = some true → s.store.IsAnswered waiter.id
  updated : ∀ i, q i = .updated waiter.id → s.store.IsAnswered waiter.id
  known : ∀ r, s.store.rows.get waiter.id = some r → r.status ≠ .processing
  shaped : ∀ r, s.store.rows.get waiter.id = some r → r.status = .completed → waiter.accepts r.result = true

section Invariant

variable {waiter : A2AWaiter} {s : Exchange} {q : Nat → ExchangeTurn} {op : A2AOp} {id : String} {r r' : A2ARow}
  {t : A2AStore} {i : Nat}

theorem isOpen_of_answered (h : r.status = .completed ∨ r.status = .failed) : r.status.isOpen = false := by
  rcases h with h | h <;> rw [h] <;> rfl

theorem IsAnswered.exec (h : t.IsAnswered id) (op : A2AOp) : (t.exec op).IsAnswered id := by
  obtain ⟨r, hget, hstatus⟩ := h
  exact ⟨r, get_exec_of_closed hget (isOpen_of_answered hstatus), hstatus⟩

/-- A waiter leaves the row as it is, or expires it. -/
theorem change_ofWaiter (hop : op.ofWaiter id) :
    op.change id r = r ∨ (r.status = .pending ∧ op.change id r = { r with status := .timeout }) := by
  induction op with
  | markTimeout id' =>
    obtain rfl : id' = id := hop
    rw [A2AOp.change, if_pos rfl, A2ARow.expire]
    split
    next hpending => exact .inr ⟨hpending, rfl⟩
    next => exact .inl rfl
  | cutOff op ih => exact ih hop
  | respond | setEvent | cancel | fireTimer | fireCancel | elapse => cases hop
  | select | fetch | insert | commit | recordResource | register | wait | sleep => exact .inl rfl

theorem get_ofWaiter_of_none (hop : op.ofWaiter id) (h : t.rows.get id = none)
    (hget : (t.exec op).rows.get id = some r) : r.status = .pending := by
  induction op with
  | insert row =>
    obtain ⟨rfl, hpending⟩ := hop
    have hinsert : (t.rows.insert row).get row.id = some row := Table.get_insert_self h
    rw [← Option.some.inj (hinsert.symm.trans hget)]
    exact hpending
  | markTimeout id' =>
    obtain rfl : id' = id := hop
    rw [A2AStore.exec, Table.get_amend_self, h] at hget
    cases hget
  | cutOff op ih => exact ih hop hget
  | respond | setEvent | cancel | fireTimer | fireCancel | elapse => cases hop
  | select | fetch | commit | recordResource | register | wait | sleep =>
    rw [show (t.exec _).rows.get id = t.rows.get id from rfl, h] at hget
    cases hget

/-- A row that is there after a step of the waiter is the one that was there, has expired, or is pending. -/
theorem get_ofWaiter (hop : op.ofWaiter id) (hget : (t.exec op).rows.get id = some r') :
    t.rows.get id = some r' ∨ r'.status = .timeout ∨ r'.status = .pending := by
  cases h : t.rows.get id with
  | none => exact .inr (.inr (get_ofWaiter_of_none hop h hget))
  | some r =>
    rw [get_exec_of_some h] at hget
    rcases change_ofWaiter hop with hsame | ⟨-, hexpired⟩
    · rw [hsame] at hget
      exact .inl hget
    · rw [hexpired] at hget
      rw [← Option.some.inj hget]
      exact .inr (.inl rfl)

theorem events_ofWaiter (hop : op.ofWaiter id) (h : (t.exec op).events id = some true) :
    t.events id = some true := by
  induction op with
  | register id' =>
    obtain rfl : id' = id := hop
    have hupdate : Function.update t.events id' (some false) id' = some true := h
    rw [Function.update_self] at hupdate
    cases hupdate
  | wait id' =>
    obtain rfl : id' = id := hop
    have hupdate : Function.update t.events id' none id' = some true := h
    rw [Function.update_self] at hupdate
    cases hupdate
  | cutOff op ih => exact ih hop h
  | respond | setEvent | cancel | fireTimer | fireCancel | elapse => cases hop
  | select | fetch | insert | markTimeout | commit | recordResource | sleep => exact h

theorem advance_ofWaiter (hop : op.ofWaiter id) {turn : ExchangeTurn}
    (h : turn.advance id op t = .updated id) : turn = .updated id := by
  cases op with
  | insert row =>
    rw [ExchangeTurn.advance] at h
    split at h
    · exact h
    · cases h
  | select =>
    rw [ExchangeTurn.advance] at h
    cases turn <;> cases hrow : t.rows.get id <;> rw [hrow] at h
    case opened.some | woken.some =>
      rw [ExchangeTurn.read] at h
      split at h <;> cases h
    all_goals first | exact h | cases h
  | wait id' =>
    rw [ExchangeTurn.advance] at h
    split at h
    · cases h
    · exact h
  | markTimeout | cutOff => cases h
  | respond | setEvent | cancel | fireTimer | fireCancel | elapse => cases hop
  | fetch | commit | recordResource | register | sleep => exact h

theorem rowHolds_waiter (h : RowHolds waiter s q) (hop : op.ofWaiter waiter.id) :
    RowHolds waiter (s.exec op)
      (Function.update q 0 ((q 0).advance waiter.id op s.store)) := by
  refine ⟨fun hevent => IsAnswered.exec (h.event (events_ofWaiter hop hevent)) op, fun i hi => ?_,
    fun r hr => ?_, fun r hr hcompleted => ?_⟩
  · by_cases hi0 : i = 0
    · subst hi0
      rw [Function.update_self] at hi
      exact IsAnswered.exec (h.updated 0 (advance_ofWaiter hop hi)) op
    · rw [Function.update_of_ne hi0] at hi
      exact IsAnswered.exec (h.updated i hi) op
  · rcases get_ofWaiter hop hr with hr | hr | hr
    · exact h.known r hr
    · rw [hr]
      nofun
    · rw [hr]
      nofun
  · rcases get_ofWaiter hop hr with hr | hr | hr
    · exact h.shaped r hr hcompleted
    · rw [hr] at hcompleted
      cases hcompleted
    · rw [hr] at hcompleted
      cases hcompleted

theorem not_completed (h : t.isCompleted id = false) (hr : t.rows.get id = some r) : r.status ≠ .completed := by
  rw [A2AStore.isCompleted, hr, Option.any_some] at h
  intro hcompleted
  rw [hcompleted] at h
  cases h

/-- A waiter that gives up leaves no answer behind. -/
theorem gaveUp_ofWaiter (hrow : ∀ r, t.rows.get id = some r → r.status ≠ .completed) (hop : op.ofWaiter id)
    (hr : (t.exec op).rows.get id = some r) : r.status ≠ .completed := by
  rcases get_ofWaiter hop hr with hr | hr | hr
  · exact hrow r hr
  · rw [hr]
    nofun
  · rw [hr]
    nofun

/-- An expired row is closed; `processing` is set by nothing. -/
theorem isOpen_of_expired (hknown : ∀ r, t.rows.get id = some r → r.status ≠ .processing)
    (hr : (t.exec (.markTimeout id)).rows.get id = some r) : r.status.isOpen = false := by
  cases h : t.rows.get id with
  | none =>
    rw [A2AStore.exec, Table.get_amend_self, h] at hr
    cases hr
  | some r₀ =>
    rw [get_exec_of_some h, A2AOp.change, if_pos rfl] at hr
    rw [← Option.some.inj hr]
    have hprocessing := hknown r₀ h
    unfold A2ARow.expire
    split
    · rfl
    next hpending =>
      cases hstatus : r₀.status with
      | pending => exact absurd hstatus hpending
      | processing => exact absurd hstatus hprocessing
      | completed | failed | timeout => rfl

theorem turnHolds_read {turn : ExchangeTurn} (h : TurnHolds id s turn) :
    TurnHolds id s (turn.read (s.store.rows.get id)) := by
  cases turn with
  | opened =>
    obtain ⟨r, hr⟩ := Option.isSome_iff_exists.mp h
    rw [hr, ExchangeTurn.read]
    split
    · exact h
    next hclosed => exact ⟨hr, Bool.eq_false_iff.mpr hclosed⟩
  | woken =>
    obtain ⟨r, hr, hstatus⟩ := h
    have hclosed := isOpen_of_answered hstatus
    rw [hr, ExchangeTurn.read, hclosed, if_neg Bool.false_ne_true]
    exact ⟨hr, hclosed⟩
  | start | answered | gaveUp => exact h
  | lost | updated => cases h

theorem turnHolds_waiter (h : RowHolds waiter s q) (hturn : TurnHolds waiter.id s (q 0))
    (hop : op.ofWaiter waiter.id) (hgives : GivesUpUnanswered waiter s i op) :
    TurnHolds waiter.id (s.exec op) ((q 0).advance waiter.id op s.store) := by
  have hkeep : op.isCutOff = false → (s.store.exec op).rows.get waiter.id = s.store.rows.get waiter.id →
      ∀ turn, TurnHolds waiter.id s turn → TurnHolds waiter.id (s.exec op) turn := by
    intro hcut hrows turn hturn
    have hsame : (s.exec op).cut = s.cut := by
      rw [Exchange.exec, hcut, Bool.or_false]
    cases turn with
    | start => exact hrows.trans hturn
    | opened => exact (congrArg Option.isSome hrows).trans hturn
    | woken => exact IsAnswered.exec hturn op
    | answered row => exact ⟨hrows.trans hturn.1, hturn.2⟩
    | gaveUp =>
      refine fun r hr => ?_
      obtain ⟨hcompleted, hopen⟩ := hturn r (hrows.symm.trans hr)
      exact ⟨hcompleted, fun h => hsame.trans (hopen h)⟩
    | lost | updated => cases hturn
  cases op with
  | insert row =>
    obtain ⟨hid, hpending⟩ := hop
    rw [ExchangeTurn.advance]
    split
    next htaken =>
      refine hkeep rfl ?_ _ hturn
      rw [A2AStore.exec, Table.insert_of_isSome htaken]
    next hfree =>
      have hget : (s.store.rows.insert row).get row.id = some row :=
        Table.get_insert_self (Option.not_isSome_iff_eq_none.mp hfree)
      rw [hid] at hget
      exact Option.isSome_iff_exists.mpr ⟨row, hget⟩
  | select =>
    exact hkeep rfl rfl _ (turnHolds_read hturn)
  | wait id' =>
    obtain rfl : id' = waiter.id := hop
    rw [ExchangeTurn.advance]
    split
    next hwoken =>
      rw [A2AStore.isWoken, Bool.and_eq_true, beq_iff_eq] at hwoken
      exact IsAnswered.exec (h.event hwoken.1) _
    next => exact hkeep rfl rfl _ hturn
  | markTimeout id' =>
    refine fun r hr => ⟨gaveUp_ofWaiter (fun r => not_completed (hgives hop)) hop hr, fun hopen => ?_⟩
    obtain rfl : id' = waiter.id := hop
    have hclosed := isOpen_of_expired h.known hr
    rw [hclosed] at hopen
    cases hopen
  | cutOff op =>
    have hop' : op.ofWaiter waiter.id := hop
    refine fun r hr => ⟨gaveUp_ofWaiter (fun r => not_completed hgives) hop' hr, fun _ => ?_⟩
    rw [Exchange.exec]
    exact Bool.or_true _
  | respond | setEvent | cancel | fireTimer | fireCancel | elapse => cases hop
  | fetch | commit | recordResource | register | sleep => exact hkeep rfl rfl _ hturn

theorem exists_of_get_amend {rows : Table A2ARow} {k : String} {f : A2ARow → A2ARow} (hf : ∀ r, key (f r) = key r)
    (h : (rows.amend k f hf).get id = some r') :
    ∃ r, rows.get id = some r ∧ r' = if id = k then f r else r := by
  rw [Table.get_amend] at h
  split at h
  next hid =>
    obtain ⟨r, hr, rfl⟩ := Option.map_eq_some_iff.mp h
    exact ⟨r, hr, (if_pos hid).symm⟩
  next hid => exact ⟨r', h, (if_neg hid).symm⟩

/-- The others leave the row as it is, or close it. -/
theorem get_ofOther {turn : ExchangeTurn} (hop : op.ofOther turn) (hget : (t.exec op).rows.get id = some r') :
    ∃ r, t.rows.get id = some r ∧ (r' = r ∨ r.status.isOpen = true ∧ (r'.status = .failed ∨
      ∃ error, op = .respond id .completed r'.result error ∧ r'.status = .completed)) := by
  cases op with
  | respond id' status result error =>
    obtain ⟨r, hr, rfl⟩ := exists_of_get_amend (fun _ => A2ARow.id_answer) hget
    refine ⟨r, hr, ?_⟩
    split
    next hid =>
      subst hid
      unfold A2ARow.answer
      split
      next hopen =>
        refine .inr ⟨hopen, ?_⟩
        rcases hop with rfl | rfl
        · exact .inr ⟨error, rfl, rfl⟩
        · exact .inl rfl
      next => exact .inl rfl
    next => exact .inl rfl
  | cancel id' =>
    obtain ⟨r, hr, rfl⟩ := exists_of_get_amend (fun _ => A2ARow.id_cancel) hget
    refine ⟨r, hr, ?_⟩
    split
    · unfold A2ARow.cancel
      split
      next hopen => exact .inr ⟨hopen, .inl rfl⟩
      next => exact .inl rfl
    · exact .inl rfl
  | select | fetch | insert | recordResource | register | wait | sleep | markTimeout | cutOff => cases hop
  | commit | setEvent | fireTimer | fireCancel | elapse => exact ⟨r', hget, .inl rfl⟩

theorem events_ofOther {turn : ExchangeTurn} (hop : op.ofOther turn) (h : (t.exec op).events id = some true) :
    t.events id = some true ∨ turn = .updated id := by
  cases op with
  | setEvent id' =>
    obtain rfl : turn = .updated id' := hop
    by_cases hid : id = id'
    · exact .inr (hid ▸ rfl)
    · have hupdate : Function.update t.events id' ((t.events id').map fun _ => true) id = some true := h
      rw [Function.update_of_ne hid] at hupdate
      exact .inl hupdate
  | select | fetch | insert | recordResource | register | wait | sleep | markTimeout | cutOff => cases hop
  | commit | respond | cancel | fireTimer | fireCancel | elapse => exact .inl h

/-- Whoever has closed a row has answered it. -/
theorem updated_ofOther {turn : ExchangeTurn} (hop : op.ofOther turn)
    (h : turn.advance waiter.id op t = .updated id) : turn = .updated id ∨ (t.exec op).IsAnswered id := by
  cases op with
  | respond id' status result error =>
    rw [ExchangeTurn.advance] at h
    split at h
    next hopen =>
      obtain rfl := ExchangeTurn.updated.inj h
      rw [A2AStore.isOpen, Option.any_eq_true] at hopen
      obtain ⟨r, hr, hopen⟩ := hopen
      refine .inr ⟨_, get_exec_of_some hr, ?_⟩
      rw [A2AOp.change, if_pos rfl, A2ARow.answer, if_pos hopen]
      exact hop
    next => exact .inl h
  | select | fetch | insert | recordResource | register | wait | sleep | markTimeout | cutOff => cases hop
  | commit | setEvent | cancel | fireTimer | fireCancel | elapse => exact .inl h

theorem rowHolds_other (h : RowHolds waiter s q) (hop : op.ofOther (q i))
    (hgives : GivesUpUnanswered waiter s i op) :
    RowHolds waiter (s.exec op) (Function.update q i ((q i).advance waiter.id op s.store)) := by
  refine ⟨fun hevent => ?_, fun j hj => ?_, fun r' hr' => ?_, fun r' hr' hcompleted => ?_⟩
  · rcases events_ofOther hop hevent with hevent | hupdated
    · exact IsAnswered.exec (h.event hevent) op
    · exact IsAnswered.exec (h.updated i hupdated) op
  · by_cases hji : j = i
    · subst hji
      rw [Function.update_self] at hj
      rcases updated_ofOther hop hj with hupdated | hanswered
      · exact IsAnswered.exec (h.updated j hupdated) op
      · exact hanswered
    · rw [Function.update_of_ne hji] at hj
      exact IsAnswered.exec (h.updated j hj) op
  · obtain ⟨r, hr, rfl | ⟨-, hfailed | ⟨error, -, hcompleted⟩⟩⟩ := get_ofOther hop hr'
    · exact h.known r' hr
    · rw [hfailed]
      nofun
    · rw [hcompleted]
      nofun
  · obtain ⟨r, hr, rfl | ⟨hopen, hfailed | ⟨error, rfl, -⟩⟩⟩ := get_ofOther hop hr'
    · exact h.shaped r' hr hcompleted
    · rw [hfailed] at hcompleted
      cases hcompleted
    · refine (hgives rfl rfl ?_).2
      rw [A2AStore.isOpen, hr]
      exact hopen

theorem turnHolds_other {turn : ExchangeTurn} (hturn : TurnHolds waiter.id s turn) (hop : op.ofOther (q i))
    (hgives : GivesUpUnanswered waiter s i op) : TurnHolds waiter.id (s.exec op) turn := by
  cases turn with
  | start =>
    refine Option.eq_none_iff_forall_not_mem.mpr fun r' hr' => ?_
    obtain ⟨r, hr, -⟩ := get_ofOther hop hr'
    rw [show s.store.rows.get waiter.id = none from hturn] at hr
    cases hr
  | opened =>
    obtain ⟨r, hr⟩ := Option.isSome_iff_exists.mp hturn
    exact Option.isSome_iff_exists.mpr ⟨_, get_exec_of_some hr⟩
  | woken => exact IsAnswered.exec hturn op
  | answered row => exact ⟨get_exec_of_closed hturn.1 hturn.2, hturn.2⟩
  | gaveUp =>
    refine fun r' hr' => ?_
    obtain ⟨r, hr, rfl | ⟨hopen, hfailed | ⟨error, rfl, -⟩⟩⟩ := get_ofOther hop hr'
    · obtain ⟨hcompleted, hcut⟩ := hturn r' hr
      refine ⟨hcompleted, fun hopen => ?_⟩
      rw [Exchange.exec, hcut hopen, Bool.true_or]
    · rw [hfailed]
      exact ⟨nofun, nofun⟩
    · have hcut : s.cut = false := (hgives rfl rfl (by rw [A2AStore.isOpen, hr]; exact hopen)).1
      rw [(hturn r hr).2 hopen] at hcut
      cases hcut
  | lost | updated => cases hturn

end Invariant

/-! ### Every interleaving -/

def exchangeProtocol (dumps : Json → String) (waiter : A2AWaiter) :
    Protocol Nat Exchange A2AOp (Except A2AError A2AReply) ExchangeTurn where
  start := .start
  allowed
    | 0, _, op => op.ofWaiter waiter.id
    | _ + 1, q, op => op.ofOther q
  advance q op s := q.advance waiter.id op s.store
  final
    | 0, q, r => waiter.Ends dumps q r
    | _ + 1, _, _ => True

section Runs

variable {dumps column : Json → String} {waiter : A2AWaiter} {parties : Nat → A2AParty} {start : A2AStore}
  {s : Exchange} {q : Nat → ExchangeTurn} {row : A2ARow} {r : Except A2AError A2AReply}

theorem follows_exchangeProgram (i : Nat) :
    ((exchangeProgram dumps column waiter parties i).attempt.within Exchange.store id).Follows
      ((exchangeProtocol dumps waiter).allowed i) (exchangeProtocol dumps waiter).advance
      ((exchangeProtocol dumps waiter).final i) .start := by
  cases i with
  | zero => exact (follows_waiter waiter).within id (fun _ _ h => h) (fun _ _ _ => rfl) fun _ _ h => h
  | succ i =>
    exact (follows_party waiter.id (parties i)).within id (fun _ _ h => h) (fun _ _ _ => rfl) fun _ _ h => h

theorem exchange_step (i : Nat) {op : A2AOp} (hturn : TurnHolds waiter.id s (q 0)) (hrow : RowHolds waiter s q)
    (hallowed : (exchangeProtocol dumps waiter).allowed i (q i) op) (hgives : GivesUpUnanswered waiter s i op) :
    TurnHolds waiter.id (s.exec op)
        (Function.update q i ((exchangeProtocol dumps waiter).advance (q i) op s) 0) ∧
      RowHolds waiter (s.exec op)
        (Function.update q i ((exchangeProtocol dumps waiter).advance (q i) op s)) := by
  cases i with
  | zero =>
    rw [Function.update_self]
    exact ⟨turnHolds_waiter hrow hturn hallowed hgives, rowHolds_waiter hrow hallowed⟩
  | succ i =>
    rw [Function.update_of_ne (Nat.succ_ne_zero i).symm]
    exact ⟨turnHolds_other hturn hallowed hgives, rowHolds_other hrow hallowed hgives⟩

/-- A waiter that has read an answer it takes reports it. -/
theorem delivers_of_replies (hcompleted : row.status = .completed) (haccepts : waiter.accepts row.result = true)
    (h : waiter.Replies dumps row r) : waiter.Delivers dumps row r := by
  cases waiter with
  | send call =>
    have htext : ∃ text, artifactText dumps row.result = .ok text := by
      cases hresult : row.result with
      | none => exact ⟨_, rfl⟩
      | some result =>
        rw [hresult] at haccepts
        cases result with
        | dict entries => exact ⟨_, rfl⟩
        | null | bool | int | float | inf | str | list => cases haccepts
    obtain ⟨text, htext⟩ := htext
    have hreply : r = sendReply dumps (some row) := h
    rw [sendReply, if_pos hcompleted, htext] at hreply
    exact ⟨text, htext, hreply⟩
  | hand call polls deadline =>
    obtain ⟨result, hresult, rfl⟩ := h
    rw [handResult, hcompleted] at hresult
    obtain rfl := Option.some.inj hresult
    exact ⟨_, rfl, rfl, rfl⟩

theorem not_reportsFailure_of_delivers (h : waiter.Delivers dumps row r) : ¬ ReportsFailure r := by
  cases waiter with
  | send call =>
    obtain ⟨text, -, rfl⟩ := h
    exact id
  | hand call polls deadline =>
    obtain ⟨result, rfl, haction, -⟩ := h
    rintro (hfails | hfails) <;> rw [haction] at hfails <;> cases hfails

theorem not_reportsFailure_of_unreported (h : Unreported r) : ¬ ReportsFailure r := by
  unfold Unreported at h
  split at h
  · exact id
  · exact fun hne => hne rfl
  · cases h

theorem rowHolds_start (hfresh : start.rows.get waiter.id = none) (hevents : start.events waiter.id = none) :
    RowHolds waiter { store := start } fun _ => .start := by
  refine ⟨fun h => ?_, nofun, fun r h => ?_, fun r h => ?_⟩
  · rw [show (Exchange.mk start false).store.events waiter.id = none from hevents] at h
    cases h
  · rw [show (Exchange.mk start false).store.rows.get waiter.id = none from hfresh] at h
    cases h
  · rw [show (Exchange.mk start false).store.rows.get waiter.id = none from hfresh] at h
    cases h

/-- What the waiter ends with where the row has an answer. -/
theorem delivers_of_ends {turn : ExchangeTurn} (hturn : TurnHolds waiter.id s turn) (hrow : RowHolds waiter s q)
    (hget : s.store.rows.get waiter.id = some row) (hcompleted : row.status = .completed)
    (hends : waiter.Ends dumps turn r) : Unreported r ∨ waiter.Delivers dumps row r := by
  cases turn with
  | start =>
    rw [show s.store.rows.get waiter.id = none from hturn] at hget
    cases hget
  | opened => exact .inl hends
  | answered row' =>
    obtain rfl := Option.some.inj (hturn.1.symm.trans hget)
    exact .inr (delivers_of_replies hcompleted (hrow.shaped row' hget hcompleted) hends)
  | gaveUp => exact absurd hcompleted (hturn row hget).1
  | woken | updated => cases hends
  | lost => cases hturn

/-- Whatever the interleaving of a waiter with answers, cancellations, timers and the clock: where the waiter
gives up only without an answer and no answer comes after the Hand was cut off, an answer that is recorded is
what the waiter reports, and one that reports a failure is never answered. -/
theorem answerKept_of_givesUpUnanswered (hfresh : start.rows.get waiter.id = none)
    (hevents : start.events waiter.id = none) (schedule : List Nat)
    (hgives : Pool.Along Exchange.exec id (GivesUpUnanswered waiter)
      (exchangePool dumps column waiter parties start) (schedule.map .run)) :
    AnswerKept dumps waiter
      ((exchangePool dumps column waiter parties start).run Exchange.exec id (schedule.map .run)) := by
  obtain ⟨q, hobeys, hturn, hrow⟩ := Pool.inv_run_id
    (I := fun s q => TurnHolds waiter.id s (q 0) ∧ RowHolds waiter s q)
    (p := exchangePool dumps column waiter parties start)
    (fun s q i op hI hallowed hgives => exchange_step i hI.1 hI.2 hallowed hgives)
    (Pool.obeys_init (P := exchangeProtocol dumps waiter) follows_exchangeProgram { store := start })
    ⟨hfresh, rowHolds_start hfresh hevents⟩ hgives
  generalize (exchangePool dumps column waiter parties start).run Exchange.exec id (schedule.map .run) = p at *
  have hdelivered : ∀ row, p.state.store.rows.get waiter.id = some row → row.status = .completed →
      ∀ r, p.returned 0 r → Unreported r ∨ waiter.Delivers dumps row r := fun row hget hcompleted r hr =>
    delivers_of_ends hturn hrow hget hcompleted ((hobeys 0).2 _ hr)
  refine ⟨hdelivered, fun r hr hfails row hget hcompleted => ?_⟩
  rcases hdelivered row hget hcompleted r hr with hunreported | hdelivers
  · exact not_reportsFailure_of_unreported hunreported hfails
  · exact not_reportsFailure_of_delivers hdelivers hfails

end Runs

/-! ### An answer that comes early -/

def sendCall : SendCall where
  id := "task_1"
  owner := "krew"
  agent := "claude"
  params := []

def sendStart : A2AStore where
  cards := [("krew", "claude")]
  presence := [{ agentId := "claude@krew", cookbookId := "c_1", status := .online }]

/-- The agent has been told of the message, and answers. -/
def answerParties (_ : Nat) : A2AParty :=
  .respond (.dict [("invocation_id", .str "task_1"), ("result", .dict [("text", .str "42")])])

/-- The answer comes before the waiter has registered its event. -/
def answeredEarly : List Nat := List.replicate 5 0 ++ List.replicate 3 1 ++ List.replicate 4 0

/-- The answer comes while the waiter waits. -/
def answeredWaiting : List Nat := List.replicate 6 0 ++ List.replicate 3 1 ++ List.replicate 2 0

theorem early_answer_lost : ¬ AnswerKept (fun _ => "") (.send sendCall)
    ((exchangePool (fun _ => "") (fun _ => "") (.send sendCall) answerParties sendStart).run Exchange.exec id
      (answeredEarly.map .run)) := by
  intro h
  exact h.unanswered (.ok (.failed "Agent did not respond within timeout")) rfl trivial _ rfl rfl

/-- The send whose answer comes while its waiter waits. -/
def answeredSend : Pool Nat Exchange A2AOp A2AError (Except A2AError A2AReply) :=
  (exchangePool (fun _ => "") (fun _ => "") (.send sendCall) answerParties sendStart).run Exchange.exec id
    (answeredWaiting.map .run)

theorem answerKept_waiting :
    answeredSend.returned 0 (.ok (.completed (.str "42"))) ∧
      AnswerKept (fun _ => "") (.send sendCall) answeredSend :=
  ⟨rfl, answerKept_of_givesUpUnanswered rfl rfl answeredWaiting (by decide +kernel)⟩

end Krewhub
