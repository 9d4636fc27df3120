import Krewhub.A2A.KeptAnswers

/-!
# What the mailbox makes of an answer

An answer is stored as the text of its JSON, and the handler of `message/send` reads that text back with
`json.loads`. The Hand does not: the content of its envelope is the text itself. A string comes out in quotes, and
an object comes out as a string, which a schema that was asked for refuses. Of all the answers the empty string
alone comes through, since for a false value nothing is stored and nothing is read as the empty text.
-/

namespace Krewhub

section RoundTrip

variable (reprFloat : Rat → String) (column pyRepr : Json → String)

/-- The body of a post in which the daemon answers the invocation with `r`, and no error. -/
structure PostsAnswer (body : Json) (id : String) (r : Json) : Prop where
  invocationId : body.get "invocation_id" = .ok (.str id)
  result : body.get "result" = .ok r
  error : body.get "error" = .ok .null

/-- The store when the Hand polls again: the daemon has posted, and other statements have been executed. -/
def storeAtPoll (body : Json) (between : List A2AOp) (s : A2AStore) : A2AStore :=
  between.foldl (fun s op => s.exec op) ((respondInvocation column body).run A2AStore.exec s).2

/-- The Hand polls, and what `_run` makes of its result is an acceptance of `r`. -/
def EndsWith (schema : Option Json) (id : String) (deadline polls : Nat) (s : A2AStore) (r : Json) : Prop :=
  ∃ result ended, ((pollInvocation (Json.dumps reprFloat) id deadline (polls + 1)).run A2AStore.exec s).1 =
      .ok (.envelope result) ∧
    runEnd pyRepr schema (.returned result) none = .ok ended ∧ ended.action = .accept ∧ ended.content = r

/-- No schema was asked for, or the answer is an object that satisfies it. -/
def AskedFor (schema : Option Json) (r : Json) : Prop :=
  schema = none ∨ ∃ entries, schema = some (.dict entries) ∧ isDict r = true ∧ conforms entries r = true

/-- An answer that was asked for is what the invocation ends with. -/
def AnswerSurvives (schema : Option Json) (id : String) (body : Json) (between : List A2AOp)
    (deadline polls : Nat) (s : A2AStore) (r : Json) : Prop :=
  AskedFor schema r →
    EndsWith reprFloat pyRepr schema id deadline polls (storeAtPoll column body between s) r

/-! ### From the post to the poll -/

section Poll

variable {reprFloat column pyRepr} {body r : Json} {id : String} {s : A2AStore} {row : A2ARow}

/-- What the post writes into the row. -/
def storedAnswer (r : Json) (row : A2ARow) : A2ARow :=
  row.answer .completed (if r.truthy then some r else none) none

theorem readAnswer_of_posts (column : Json → String) (hposts : PostsAnswer body id r) (hid : id ≠ "") :
    ∃ answer, readAnswer column body = .ok answer ∧ answer.id = id ∧ answer.status = .completed ∧
      answer.result = (if r.truthy then some r else none) ∧ answer.error = none := by
  obtain ⟨taskId, htask⟩ : ∃ taskId, body.get "task_id" = .ok taskId := by
    cases body with
    | dict entries => exact ⟨_, rfl⟩
    | _ => cases hposts.result
  have htruthy : (Json.str id).truthy = true := bne_iff_ne.mpr hid
  rw [readAnswer, hposts.invocationId, htask, hposts.result, hposts.error]
  dsimp only
  rw [Json.orElse, if_pos htruthy, htruthy]
  exact ⟨_, rfl, rfl, rfl, rfl, rfl⟩

theorem get_respond (hposts : PostsAnswer body id r) (hid : id ≠ "") (hrow : s.rows.get id = some row) :
    ((respondInvocation column body).run A2AStore.exec s).2.rows.get id = some (storedAnswer r row) := by
  obtain ⟨answer, hread, rfl, hstatus, hresult, herror⟩ := readAnswer_of_posts column hposts hid
  have hstored : (s.exec (.respond answer.id answer.status answer.result answer.error)).rows.get answer.id =
      some (storedAnswer r row) := by
    rw [get_exec_of_some hrow, A2AOp.change, if_pos rfl, hstatus, hresult, herror]
    rfl
  rw [respondInvocation, hread]
  dsimp only [Coro.perform, Coro.run_await, Coro.await_bind, Coro.done_bind]
  cases s.isOpen answer.id with
  | true => exact hstored
  | false => exact hstored

theorem get_foldl_of_closed {ops : List A2AOp} (hrow : s.rows.get id = some row)
    (hclosed : row.status.isOpen = false) :
    (ops.foldl (fun s op => s.exec op) s).rows.get id = some row := by
  induction ops generalizing s with
  | nil => exact hrow
  | cons op ops ih => exact ih (get_exec_of_closed hrow hclosed)

/-- The text the Hand returns. -/
def contentText (reprFloat : Rat → String) (r : Json) : String :=
  if r.truthy then Json.dumps reprFloat r else ""

theorem run_poll (hrow : s.rows.get id = some row) {result : Envelope}
    (hresult : handResult (Json.dumps reprFloat) row = some result) (deadline polls : Nat) :
    ((pollInvocation (Json.dumps reprFloat) id deadline (polls + 1)).run A2AStore.exec s).1 =
      .ok (.envelope result) := by
  rw [pollInvocation]
  dsimp only [Coro.perform, Coro.run_await, Coro.await_bind, Coro.done_bind]
  rw [hrow]
  dsimp only
  rw [hresult]
  rfl

theorem handResult_storedAnswer (reprFloat : Rat → String) (r : Json) (hpending : row.status = .pending) :
    ∃ result, handResult (Json.dumps reprFloat) (storedAnswer r row) = some result ∧
      result.action = .accept ∧ result.content = .str (contentText reprFloat r) := by
  have hopen : row.status.isOpen = true := by rw [hpending]; rfl
  rw [storedAnswer, A2ARow.answer, if_pos hopen]
  refine ⟨_, rfl, rfl, ?_⟩
  rw [contentText]
  dsimp only
  split <;> rfl

end Poll

/-! ### Which answers survive -/

section Survivors

variable (reprFloat : Rat → String) (pyRepr : Json → String) {schema : Option Json} {r : Json}

/-- A text is what the invocation ends with when no schema was asked for. -/
theorem settleResult_text {result : Envelope} {text : String} (haction : result.action = .accept)
    (hcontent : result.content = .str text) :
    (∃ ended, settleResult pyRepr schema result = .ok ended ∧ ended.action = .accept ∧ ended.content = r) ↔
      schema = none ∧ .str text = r := by
  unfold settleResult
  cases schema with
  | none =>
    refine ⟨?_, fun h => ⟨result, rfl, haction, hcontent.trans h.2⟩⟩
    rintro ⟨ended, hended, -, rfl⟩
    obtain rfl := Except.ok.inj hended
    exact ⟨rfl, hcontent.symm⟩
  | some schema =>
    dsimp only
    rw [if_pos haction, hcontent]
    refine ⟨?_, fun h => nomatch h.1⟩
    rintro ⟨ended, hended, hended', -⟩
    obtain rfl := Except.ok.inj hended
    cases hended'

theorem str_contentText_eq_iff (hr : (∃ text, r = .str text) ∨ isDict r = true) :
    .str (contentText reprFloat r) = r ↔ r = .str "" := by
  rcases hr with ⟨text, rfl⟩ | hdict
  · rw [Json.str.injEq, Json.str.injEq, contentText]
    by_cases hempty : text = ""
    · rw [hempty]
      exact ⟨fun _ => rfl, fun _ => rfl⟩
    · rw [if_pos (show (Json.str text).truthy = true from bne_iff_ne.mpr hempty)]
      exact ⟨fun h => absurd h (Json.dumpsText_ne text), fun h => absurd h hempty⟩
  · cases r with
    | dict entries => exact ⟨fun h => (by cases h), fun h => (by cases h)⟩
    | _ => cases hdict

end Survivors

/-- The invocation ends with the answer when no schema was asked for and the answer is its own text. -/
theorem endsWith_iff {schema : Option Json} {id : String} {body r : Json} {s : A2AStore} {row : A2ARow}
    (hid : id ≠ "") (hrow : s.rows.get id = some row) (hpending : row.status = .pending)
    (hposts : PostsAnswer body id r) (between : List A2AOp) (deadline polls : Nat) :
    EndsWith reprFloat pyRepr schema id deadline polls (storeAtPoll column body between s) r ↔
      schema = none ∧ .str (contentText reprFloat r) = r := by
  obtain ⟨result, hresult, haction, hcontent⟩ := handResult_storedAnswer reprFloat r hpending
  have hclosed : (storedAnswer r row).status.isOpen = false := by
    rw [storedAnswer, A2ARow.answer, if_pos (by rw [hpending]; rfl)]
    rfl
  have hstored : (storeAtPoll column body between s).rows.get id = some (storedAnswer r row) :=
    get_foldl_of_closed (get_respond hposts hid hrow) hclosed
  have hpoll := run_poll hstored hresult deadline polls
  rw [← settleResult_text pyRepr haction hcontent]
  constructor
  · rintro ⟨result', ended, hpoll', hended, h⟩
    rw [hpoll] at hpoll'
    obtain rfl := A2AReply.envelope.inj (Except.ok.inj hpoll')
    exact ⟨ended, hended, h⟩
  · rintro ⟨ended, hended, h⟩
    exact ⟨result, ended, hpoll, hended, h⟩

/-- Which answers come through: a string or an object that the daemon posts for a pending row is what the
invocation ends with, where it was asked for, exactly when it is the empty string and there is no schema. -/
theorem answerSurvives_iff {schema : Option Json} {id : String} {body r : Json} {s : A2AStore}
    {row : A2ARow} (hid : id ≠ "") (hrow : s.rows.get id = some row) (hpending : row.status = .pending)
    (hposts : PostsAnswer body id r) (hr : (∃ text, r = .str text) ∨ isDict r = true)
    (between : List A2AOp) (deadline polls : Nat) :
    AnswerSurvives reprFloat column pyRepr schema id body between deadline polls s r ↔
      (AskedFor schema r → schema = none ∧ r = .str "") := by
  refine forall_congr' fun _ => ?_
  rw [endsWith_iff reprFloat column pyRepr hid hrow hpending hposts, str_contentText_eq_iff reprFloat hr]

end RoundTrip

/-- The row of a delegation that the daemon has been given. -/
def delegated : A2ARow where
  id := "a2a_1"
  owner := "krew"
  agentName := "claude"
  method := "delegate"
  params := .dict [("input", .str "which colour?")]

def delegatedStore : A2AStore := { rows := { rows := [delegated], nodup := List.nodup_singleton _ } }

def answerOf (r : Json) : Json := .dict [("invocation_id", .str "a2a_1"), ("result", r)]

theorem get_delegated : delegatedStore.rows.get "a2a_1" = some delegated := rfl

theorem answerSurvives_iff_delegated :
    AnswerSurvives (fun _ => "") (fun _ => "") (fun _ => "") none "a2a_1" (answerOf (.str "")) [.elapse 1] 300 5
        delegatedStore (.str "") ↔
      (AskedFor none (.str "") → (none : Option Json) = none ∧ Json.str "" = .str "") :=
  answerSurvives_iff _ _ _ (by decide) get_delegated rfl ⟨rfl, rfl, rfl⟩ (.inl ⟨_, rfl⟩) _ _ _

/-- A schema, and an object that satisfies it. -/
def colourSchema : List (String × Json) :=
  [("type", .str "object"), ("properties", .dict [("colour", .dict [("type", .str "string")])])]

def red : Json := .dict [("colour", .str "red")]

/-- An agent answers with a word, and the invocation ends with the word in quotes; it answers with the object it
was asked for, and the invocation ends with an error. -/
theorem word_comes_out_quoted :
    ¬ AnswerSurvives (fun _ => "") (fun _ => "") (fun _ => "") none "a2a_1" (answerOf (.str "red")) [] 300 5
        delegatedStore (.str "red") ∧
      ¬ AnswerSurvives (fun _ => "") (fun _ => "") (fun _ => "") (some (.dict colourSchema)) "a2a_1"
        (answerOf red) [] 300 5 delegatedStore red := by
  refine ⟨fun h => ?_, fun h => ?_⟩
  · have hended := (endsWith_iff _ _ _ (by decide) get_delegated rfl ⟨rfl, rfl, rfl⟩ [] 300 5).mp
      (h (.inl rfl))
    have hempty := (str_contentText_eq_iff _ (.inl ⟨"red", rfl⟩)).mp hended.2
    exact absurd (Json.str.inj hempty) (by decide)
  · have hasked : AskedFor (some (.dict colourSchema)) red := .inr ⟨colourSchema, rfl, rfl, by decide +kernel⟩
    have hended := (endsWith_iff _ _ _ (by decide) get_delegated rfl ⟨rfl, rfl, rfl⟩ [] 300 5).mp
      (h hasked)
    cases hended.1

end Krewhub
