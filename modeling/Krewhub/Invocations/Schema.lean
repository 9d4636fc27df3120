import Krewhub.Invocations.Service
import Krewhub.Python.Json

/-!
# Request schemas

The dialect of the schemas an invocation may ask for, and the check of what it gets. The check indexes,
iterates and tests membership in keys the dialect check has not looked at, and compares with `==`; where the
two disagree a wrong value is let through, or the check itself raises and the run of the invocation dies.
`pyRepr` is `repr`.
-/

namespace Krewhub

section Dialect

variable (pyRepr : Json → String)

/-- `_PRIMITIVE_TYPES`. -/
def primitiveTypes : List String := ["string", "number", "integer", "boolean"]

/-- `name in _PRIMITIVE_TYPES`, which hashes it. -/
def isPrimitive (t : Json) : Except PyError Bool :=
  if t.hashable then .ok (primitiveTypes.any fun name => t.eq true (.str name))
  else .error .typeError

/-- `prop.get(key)` of a dict. -/
def lookupKey (entries : List (String × Json)) (key : String) : Json := (entries.lookup key).getD .null

/-- `f"property {name!r}{problem}"`. -/
def propertyError {α : Type} (name problem : String) : Except PyError α :=
  .error (.valueError ("property " ++ pyRepr (.str name) ++ problem))

/-- `isinstance(branch, dict) and "const" in branch`. -/
def isBranch : Json → Bool
  | .dict entries => (entries.lookup "const").isSome
  | _ => false

/-- The loop over the branches of `oneOf` or `anyOf`. -/
def validateBranches (name problem : String) (branches : Json) : Except PyError Unit := do
  let branches ← branches.iterate
  if branches.all isBranch then return () else propertyError pyRepr name problem

/-- The items of an array, in the order of `_validate_property_schema`. -/
def validateItems (name : String) (items : List (String × Json)) : Except PyError Unit :=
  match items.lookup "anyOf" with
  | some anyOf =>
    validateBranches pyRepr name ": array items.anyOf branches must be \x7bconst, title\x7d" anyOf
  | none => do
    let itemsType := lookupKey items "type"
    if itemsType.eq true (.str "object") then
      propertyError pyRepr name ": array of objects is not supported"
    else if ← isPrimitive itemsType then return ()
    else propertyError pyRepr name ": array items must be a primitive type"

def validatePropertySchema (name : String) (prop : Json) : Except PyError Unit :=
  match prop with
  | .dict entries =>
    match entries.lookup "oneOf" with
    | some oneOf =>
      validateBranches pyRepr name ": oneOf branches must be \x7bconst, title\x7d" oneOf
    | none => do
      let t := lookupKey entries "type"
      if ← isPrimitive t then return ()
      else if t.eq true (.str "array") then
        match lookupKey entries "items" with
        | .dict items => validateItems pyRepr name items
        | _ => propertyError pyRepr name ": array items must be an object schema"
      else if t.eq true (.str "object") then
        propertyError pyRepr name ": nested objects are not supported in this dialect"
      else propertyError pyRepr name (": unsupported type " ++ pyRepr t)
  | _ => propertyError pyRepr name " must be an object schema"

def validateRequestSchema (schema : Json) : Except PyError Unit :=
  match schema with
  | .dict entries =>
    if !(lookupKey entries "type").eq true (.str "object") then
      .error (.valueError "schema root must be an object")
    else match lookupKey entries "properties" with
      | .null => return ()
      | .dict properties => properties.forM fun (name, prop) => validatePropertySchema pyRepr name prop
      | _ => .error (.valueError "schema.properties must be an object")
  | _ => .error (.valueError "schema must be a JSON object")

/-! ### The check of the content -/

/-- `raise ValueError(f"schema_mismatch: …")`. -/
def mismatch {α : Type} (problem : String) : Except PyError α :=
  .error (.valueError ("schema_mismatch: " ++ problem))

/-- `[b.get("const") for b in branches]`. -/
def constsOf (branches : Json) : Except PyError (List Json) := do
  (← branches.iterate).mapM (·.get "const")

/-- The membership test of `oneOf` and `anyOf`. -/
def checkMember (shown : String) (consts : List Json) (value : Json) : Except PyError Unit :=
  if consts.any (value.eq true) then .ok ()
  else mismatch (shown ++ pyRepr value ++ " not in oneOf " ++ pyRepr (.list consts))

/-- A type and what `isinstance` asks of its values; a boolean is no number. -/
def hasPrimitiveType : String → Json → Bool
  | "string", .str _ => true
  | "number", .int _ | "number", .float _ | "number", .inf _ => true
  | "integer", .int _ => true
  | "boolean", .bool _ => true
  | _, _ => false

/-- The primitive types; only that of strings looks at `enum`. -/
def checkPrimitive (entries : List (String × Json)) (type key : String) (value : Json) :
    Except PyError Unit := do
  if !hasPrimitiveType type value then
    mismatch (pyRepr (.str key) ++ " expected " ++ type ++ ", got " ++ value.typeName)
  else if type = "string" then
    match entries.lookup "enum" with
    | none => return ()
    | some enum =>
      if ← value.isIn enum then return ()
      else mismatch (pyRepr (.str key) ++ "=" ++ pyRepr value ++ " not in enum " ++ pyRepr enum)
  else return ()

mutual

/-- `_check_value`; the properties of a schema that is accepted are dicts, and the items of an array. -/
def checkValue (prop : Json) (key : String) (value : Json) : Except PyError Unit :=
  match prop with
  | .dict entries =>
    match entries.lookup "oneOf" with
    | some oneOf => do checkMember pyRepr (pyRepr (.str key) ++ "=") (← constsOf oneOf) value
    | none =>
      match lookupKey entries "type" with
      | .str "array" =>
        match value with
        | .list values => checkItems entries key values
        | _ => mismatch (pyRepr (.str key) ++ " expected array, got " ++ value.typeName)
      | .str type =>
        if type ∈ primitiveTypes then checkPrimitive pyRepr entries type key value
        else mismatch (pyRepr (.str key) ++ " unsupported schema type " ++ pyRepr (.str type))
      | t => mismatch (pyRepr (.str key) ++ " unsupported schema type " ++ pyRepr t)
  | _ => .error .typeError

/-- The values of an array against `prop.get("items") or {}`. -/
def checkItems : List (String × Json) → String → List Json → Except PyError Unit
  | [], key, values => values.forM fun _ =>
      mismatch (pyRepr (.str (key ++ "[]")) ++ " unsupported schema type " ++ pyRepr .null)
  | (name, items) :: entries, key, values =>
    if name = "items" then
      match items with
      | .dict inner =>
        match inner.lookup "anyOf" with
        | some anyOf => do
          let consts ← constsOf anyOf
          values.forM fun v => checkMember pyRepr (pyRepr (.str key) ++ " item ") consts v
        | none => values.forM fun v => checkValue (.dict inner) (key ++ "[]") v
      | _ => .error .typeError
    else checkItems entries key values

end

def validateContent (schema content : Json) : Except PyError Unit :=
  match schema with
  | .dict entries =>
    if !(lookupKey entries "type").eq true (.str "object") then
      mismatch "schema root must be 'object' (rejected upstream)"
    else match content with
      | .dict fields => do
        let required ← ((lookupKey entries "required").orElse (.list [])).iterate
        required.forM fun req => do
          if ← req.isIn content then return ()
          else mismatch ("missing required field " ++ pyRepr req)
        match (lookupKey entries "properties").orElse (.dict []) with
        | .dict properties =>
          fields.forM fun (key, value) =>
            match properties.lookup key with
            | none => return ()
            | some prop => checkValue pyRepr prop key value
        | _ => .error .typeError
      | _ => mismatch ("content must be an object, got " ++ content.typeName)
  | _ => .error .attributeError

/-! ### The end of a run -/

/-- `ResultEnvelope` with the values its content may have, `str | dict | None`. -/
structure Envelope where
  action : Action
  content : Json := .null
  reason : Option String := none
  shaped : content.isContent = true := by rfl
  reasoned : action = .cancel ∨ action = .error → reason.any (· != "") = true := by simp

namespace Envelope

def failed (action : Action) (reason : String) (h : (reason != "") = true) : Envelope where
  action := action
  reason := some reason
  reasoned _ := h

end Envelope

/-- How `hand.execute` ends, within its deadline or not. -/
inductive HandEnd where
  | returned (result : Envelope)
  | timeout
  | cancelled (reason : String)
  | crashed (text : String)

theorem operatorCancelled_ne : ("operator_cancelled" != "") = true := by decide

/-- What `_run` takes from the end of the Hand. -/
def HandEnd.result : HandEnd → Envelope
  | .returned result => result
  | .timeout => .failed .cancel "deadline_exceeded" (by decide)
  | .cancelled reason =>
    if h : (reason != "") = true then .failed .cancel reason h
    else .failed .cancel "operator_cancelled" operatorCancelled_ne
  | .crashed text => .failed .error ("hand_crash: " ++ text) (by
      rw [bne_iff_ne, ne_eq, String.append_eq_empty_iff]
      exact fun h => absurd h.1 (by decide))

/-- The validation of a result in `_run`; a `ValueError` is caught, any other exception ends the task. -/
def settleResult (schema : Option Json) (result : Envelope) : Except PyError Envelope :=
  match schema with
  | none => .ok result
  | some schema =>
    if result.action = .accept then
      match result.content with
      | .null => .ok result
      | .str _ => .ok (.failed .error "schema_mismatch: expected object content" (by decide))
      | content =>
        match validateContent pyRepr schema content with
        | .ok _ => .ok result
        | .error (.valueError msg) =>
          if h : (msg != "") = true then .ok (.failed .error msg h) else .error (.valueError msg)
        | .error e => .error e
    else .ok result

/-- What the invocation ends with: a result that was submitted comes before that of the Hand. -/
def runEnd (schema : Option Json) (hand : HandEnd) (submitted : Option Envelope) :
    Except PyError Envelope :=
  settleResult pyRepr schema (submitted.getD hand.result)

/-- The status of the row once a run that has a result is over: `_finalize` writes that of the result, and a
task that an exception ends leaves the row as it is. -/
def statusAfter (schema : Option Json) (hand : HandEnd) (submitted : Option Envelope) : InvocationStatus :=
  match runEnd pyRepr schema hand submitted with
  | .ok result => actionToStatus result.action
  | .error _ => .running

end Dialect

/-! ### What a schema asks for -/

def isDict : Json → Bool
  | .dict _ => true
  | _ => false

/-- The const of a branch, `None` where it has none. -/
def constOf : Json → Json
  | .dict entries => lookupKey entries "const"
  | _ => .null

/-- One of the branches has the value as its const, booleans apart from numbers. -/
def hasConst (branches value : Json) : Bool :=
  match branches with
  | .list bs => bs.all isDict && bs.any fun b => isBranch b && value.eq false (constOf b)
  | _ => false

/-- The value is in the `enum`, where there is one. -/
def inEnum (entries : List (String × Json)) (value : Json) : Bool :=
  match entries.lookup "enum" with
  | none => true
  | some (.list members) => members.any (value.eq false)
  | some _ => false

def satisfiesPrimitive (entries : List (String × Json)) (t value : Json) : Bool :=
  match t with
  | .str type => hasPrimitiveType type value && inEnum entries value
  | _ => false

/-- An item of an array against the schema of its items. -/
def satisfiesItem (items : List (String × Json)) (value : Json) : Bool :=
  match items.lookup "anyOf", items.lookup "oneOf" with
  | some anyOf, _ => hasConst anyOf value
  | none, some oneOf => hasConst oneOf value
  | none, none => satisfiesPrimitive items (lookupKey items "type") value

/-- A value satisfies the schema of its property. -/
def satisfies (prop value : Json) : Bool :=
  match prop with
  | .dict entries =>
    match entries.lookup "oneOf", lookupKey entries "type", lookupKey entries "items", value with
    | some oneOf, _, _, value => hasConst oneOf value
    | none, .str "array", .dict items, .list values => values.all (satisfiesItem items)
    | none, .str "array", _, _ => false
    | none, t, _, value => satisfiesPrimitive entries t value
  | _ => false

/-- The properties of a schema. -/
def propertiesOf (schema : List (String × Json)) : List (String × Json) :=
  match lookupKey schema "properties" with
  | .dict properties => properties
  | _ => []

/-- The fields the schema requires are there. -/
def hasRequired (schema fields : List (String × Json)) : Bool :=
  match ((lookupKey schema "required").orElse (.list [])).iterate with
  | .ok required =>
    required.all fun
      | .str name => fields.any (·.1 == name)
      | _ => false
  | .error _ => false

/-- The value of a field satisfies the schema of its property, where it has one. -/
def fieldSatisfies (schema : List (String × Json)) (field : String × Json) : Bool :=
  ((propertiesOf schema).lookup field.1).all (satisfies · field.2)

/-- The content satisfies the schema. -/
def conforms (schema : List (String × Json)) : Json → Bool
  | .dict fields => hasRequired schema fields && fields.all (fieldSatisfies schema)
  | _ => false

/-! ### What is let through -/

/-- The value is a const only as a boolean that stands for its number, or the other way round, or as the
`None` of a branch without a const. -/
def mistakenConst (branches value : Json) : Bool :=
  match branches with
  | .list bs =>
    bs.all isDict && bs.any (fun b => value.eq true (constOf b)) && !hasConst branches value
  | _ => false

/-- The value has the type and is not in the `enum`, which is not looked at, or is no list. -/
def mistakenPrimitive (entries : List (String × Json)) (t value : Json) : Bool :=
  match t with
  | .str type => hasPrimitiveType type value && !inEnum entries value &&
      (type != "string" ||
        match entries.lookup "enum", value with
        | some (.dict members), .str s => members.any (·.1 == s)
        | some (.str text), .str s => decide (s.toList <:+: text.toList)
        | _, _ => false)
  | _ => false

def mistakenItem (items : List (String × Json)) (value : Json) : Bool :=
  match items.lookup "anyOf", items.lookup "oneOf" with
  | some anyOf, _ => mistakenConst anyOf value
  | none, some oneOf => mistakenConst oneOf value
  | none, none => mistakenPrimitive items (lookupKey items "type") value

/-- A value that does not satisfy the schema of its property and is taken for one that does. -/
def mistaken (prop value : Json) : Bool :=
  match prop with
  | .dict entries =>
    match entries.lookup "oneOf", lookupKey entries "type", lookupKey entries "items", value with
    | some oneOf, _, _, value => mistakenConst oneOf value
    | none, .str "array", .dict items, .list values =>
      values.all (fun v => satisfiesItem items v || mistakenItem items v) &&
        values.any (mistakenItem items)
    | none, .str "array", _, _ => false
    | none, t, _, value => mistakenPrimitive entries t value
  | _ => false

def fieldMistaken (schema : List (String × Json)) (field : String × Json) : Bool :=
  ((propertiesOf schema).lookup field.1).any (mistaken · field.2)

/-- Content with the fields the schema requires, in which each declared value is taken for one that
satisfies the schema of its property, and some value does not. -/
def deceives (schema : List (String × Json)) : Json → Bool
  | .dict fields => hasRequired schema fields &&
      (fields.all (fun field => fieldSatisfies schema field || fieldMistaken schema field) &&
        fields.any (fieldMistaken schema))
  | _ => false

end Krewhub
