import Krewhub.Python.Json

/-!
# The clients of the hub

`TaskDispatchController._send_to_gateway` and `dispatch_to_gateway` post a task to the hub and make a boolean
of its answer. The second is written to mirror the first, with a guard at every level of the document that
the first goes through unguarded; the first compares the state with the members of a tuple, the second looks
it up in a set, which hashes it. They agree on an answer, and neither raises, exactly where the document has
a dict at every level they look into and a state that can be hashed.
-/

namespace Krewhub

namespace Json

/-- `value.get(key, default)`. -/
def getWith (value : Json) (key : String) (default : Json) : Except PyError Json :=
  match value with
  | dict entries => .ok ((entries.lookup key).getD default)
  | _ => .error .attributeError

/-- `value in {…}`. -/
def isInSet (value : Json) (members : List Json) : Except PyError Bool :=
  if value.hashable then .ok (members.any (eq true value)) else .error .typeError

/-- `isinstance(value, dict)`, with its entries. -/
def entries? : Json → Option (List (String × Json))
  | dict entries => some entries
  | _ => none

end Json

/-- An answer of the hub: the status code, and what `resp.json()` makes of the body, which raises where
there is nothing. -/
structure HubResponse where
  statusCode : Nat
  body : Option Json

namespace HubResponse

/-- `resp.json()`. -/
def json (resp : HubResponse) : Except PyError Json :=
  match resp.body with
  | none => .error (.valueError "Expecting value")
  | some body => .ok body

end HubResponse

/-- The members of `_ACCEPTED_STATES`. -/
def acceptedStates : List Json := [.str "submitted", .str "working", .str "completed"]

/-- What `_send_to_gateway` makes of an answer. -/
def TaskDispatchController.sendToGatewayAnswer (resp : HubResponse) : Except PyError Bool :=
  if resp.statusCode ≠ 200 then return false
  else do
    let body ← resp.json
    let result ← body.getWith "result" (.dict [])
    let status ← result.getWith "status" (.dict [])
    let state ← status.getWith "state" (.str "")
    if ← state.isIn (.list acceptedStates) then return true
    return (← result.get "id").truthy

/-- What `dispatch_to_gateway` makes of an answer. -/
def dispatchToGatewayAnswer (resp : HubResponse) : Except PyError Bool :=
  if resp.statusCode ≠ 200 then return false
  else match resp.body with
    | none => return false
    | some body => do
      let result := (body.entries?.map fun entries =>
        (entries.lookup "result").getD (.dict [])).getD (.dict [])
      let status := result.entries?.map fun entries => (entries.lookup "status").getD (.dict [])
      let state := ((status.bind Json.entries?).map fun entries =>
        (entries.lookup "state").getD (.str "")).getD (.str "")
      if ← state.isInSet acceptedStates then return true
      return (result.entries?.bind (·.lookup "id")).any Json.truthy

/-! ### Where they agree -/

/-- Both clients return the same boolean. -/
def ClientsAgree (resp : HubResponse) : Prop :=
  ∃ accepted, TaskDispatchController.sendToGatewayAnswer resp = .ok accepted ∧
    dispatchToGatewayAnswer resp = .ok accepted

/-- The dict at a key, an empty one where the key is missing. -/
def Json.dictAt (entries : List (String × Json)) (key : String) : Option (List (String × Json)) :=
  ((entries.lookup key).getD (.dict [])).entries?

/-- The state of a status. -/
def stateOf (status : List (String × Json)) : Json := (status.lookup "state").getD (.str "")

/-- There are dicts at every level the clients look into, and the state can be hashed. -/
def HubResponse.HasShape (resp : HubResponse) : Prop :=
  ∃ body result status, resp.body = some (.dict body) ∧ Json.dictAt body "result" = some result ∧
    Json.dictAt result "status" = some status ∧ (stateOf status).hashable = true

/-- What both make of a document of the shape. -/
def accepts (result status : List (String × Json)) : Bool :=
  acceptedStates.any (Json.eq true (stateOf status)) || (result.lookup "id").any Json.truthy

namespace Json

variable {value : Json} {entries : List (String × Json)}

theorem entries?_eq_some_iff : value.entries? = some entries ↔ value = dict entries := by
  cases value <;> simp [entries?]

theorem dictAt_eq_some_iff {key : String} {inner : List (String × Json)} :
    dictAt entries key = some inner ↔ (entries.lookup key).getD (dict []) = dict inner :=
  entries?_eq_some_iff

theorem getWith_eq_ok_iff {key : String} {default found : Json} :
    value.getWith key default = .ok found ↔
      ∃ entries, value = dict entries ∧ (entries.lookup key).getD default = found := by
  cases value <;> simp [getWith]

theorem truthy_lookup (key : String) :
    ((entries.lookup key).getD null).truthy = (entries.lookup key).any truthy := by
  cases entries.lookup key <;> rfl

end Json

section Shapes

variable {resp : HubResponse} {body result status : List (String × Json)}

/-- On dicts at every level the first client accepts what the document says. -/
theorem sendToGatewayAnswer_of_dicts (hcode : resp.statusCode = 200) (hbody : resp.body = some (.dict body))
    (hresult : Json.dictAt body "result" = some result)
    (hstatus : Json.dictAt result "status" = some status) :
    TaskDispatchController.sendToGatewayAnswer resp = .ok (accepts result status) := by
  rw [Json.dictAt_eq_some_iff] at hresult hstatus
  rw [TaskDispatchController.sendToGatewayAnswer, if_neg (not_not_intro hcode), HubResponse.json, hbody]
  simp only [Json.getWith, bind, Except.bind, hresult, hstatus, Json.isIn, Json.get, Json.truthy_lookup,
    accepts, stateOf]
  cases acceptedStates.any _ <;> rfl

/-- It returns only there. -/
theorem exists_dicts_of_sendToGatewayAnswer {accepted : Bool} (hcode : resp.statusCode = 200)
    (h : TaskDispatchController.sendToGatewayAnswer resp = .ok accepted) :
    ∃ body result status, resp.body = some (.dict body) ∧ Json.dictAt body "result" = some result ∧
      Json.dictAt result "status" = some status := by
  rw [TaskDispatchController.sendToGatewayAnswer, if_neg (not_not_intro hcode)] at h
  obtain ⟨document, hdocument, h⟩ := bind_eq_ok.mp h
  obtain ⟨resultValue, hresult, h⟩ := bind_eq_ok.mp h
  obtain ⟨statusValue, hstatus, h⟩ := bind_eq_ok.mp h
  obtain ⟨state, hstate, -⟩ := bind_eq_ok.mp h
  obtain ⟨body, rfl, hfound⟩ := Json.getWith_eq_ok_iff.mp hresult
  obtain ⟨result, rfl, hfound'⟩ := Json.getWith_eq_ok_iff.mp hstatus
  obtain ⟨status, rfl, -⟩ := Json.getWith_eq_ok_iff.mp hstate
  refine ⟨body, result, status, ?_, Json.dictAt_eq_some_iff.mpr hfound,
    Json.dictAt_eq_some_iff.mpr hfound'⟩
  rw [HubResponse.json] at hdocument
  cases hbody : resp.body with
  | none =>
    rw [hbody] at hdocument
    cases hdocument
  | some document' =>
    rw [hbody] at hdocument
    cases hdocument
    rfl

/-- There the second client does the same, or raises on a state that cannot be hashed. -/
theorem dispatchToGatewayAnswer_of_dicts (hcode : resp.statusCode = 200)
    (hbody : resp.body = some (.dict body)) (hresult : Json.dictAt body "result" = some result)
    (hstatus : Json.dictAt result "status" = some status) :
    dispatchToGatewayAnswer resp =
      if (stateOf status).hashable then .ok (accepts result status) else .error .typeError := by
  rw [Json.dictAt_eq_some_iff] at hresult hstatus
  have hanswer : dispatchToGatewayAnswer resp =
      (do
        if ← (stateOf status).isInSet acceptedStates then return true
        return (result.lookup "id").any Json.truthy) := by
    rw [dispatchToGatewayAnswer, if_neg (not_not_intro hcode), hbody]
    simp only [Json.entries?, Option.map_some, Option.getD_some, Option.bind_some, hresult, hstatus,
      stateOf]
  rw [hanswer, Json.isInSet]
  by_cases hhash : (stateOf status).hashable = true
  · rw [if_pos hhash, if_pos hhash, accepts]
    cases acceptedStates.any (Json.eq true (stateOf status)) <;> rfl
  · rw [if_neg hhash, if_neg hhash]
    rfl

end Shapes

/-- For every answer: both clients return the same boolean exactly when the status code is not 200 or the
document has the shape. -/
theorem clientsAgree_iff (resp : HubResponse) :
    ClientsAgree resp ↔ resp.statusCode ≠ 200 ∨ resp.HasShape := by
  by_cases hcode : resp.statusCode = 200
  · constructor
    · rintro ⟨accepted, hsend, hdispatch⟩
      obtain ⟨body, result, status, hbody, hresult, hstatus⟩ :=
        exists_dicts_of_sendToGatewayAnswer hcode hsend
      refine .inr ⟨body, result, status, hbody, hresult, hstatus, ?_⟩
      rw [dispatchToGatewayAnswer_of_dicts hcode hbody hresult hstatus] at hdispatch
      by_contra hhash
      rw [if_neg hhash] at hdispatch
      cases hdispatch
    · rintro (hother | ⟨body, result, status, hbody, hresult, hstatus, hhash⟩)
      · exact absurd hcode hother
      · refine ⟨_, sendToGatewayAnswer_of_dicts hcode hbody hresult hstatus, ?_⟩
        rw [dispatchToGatewayAnswer_of_dicts hcode hbody hresult hstatus, if_pos hhash]
  · refine ⟨fun _ => .inl hcode, fun _ => ⟨false, ?_, ?_⟩⟩
    · rw [TaskDispatchController.sendToGatewayAnswer, if_pos hcode]
      rfl
    · rw [dispatchToGatewayAnswer, if_pos hcode]
      rfl

/-- Of an answer whose result is `null` the first client raises and the second makes a rejection; on a state
that is a list it is the second that raises. -/
theorem clients_disagree :
    ¬ ClientsAgree ⟨200, some (.dict [("result", .null)])⟩ ∧
    ¬ ClientsAgree ⟨200, some (.dict [("result", .dict [("status", .dict [("state", .list [])])])])⟩ := by
  refine ⟨?_, ?_⟩
  · rintro ⟨accepted, hsend, -⟩
    cases hsend
  · rintro ⟨accepted, -, hdispatch⟩
    cases hdispatch

end Krewhub
