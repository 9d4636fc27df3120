import Krewhub.Invocations.Accepted
import Mathlib.Data.List.Dedup

/-!
# Checks that raise

The dialect check looks neither at `required`, nor at the `enum` of a string, nor at the `oneOf` of the items
of an array. Where these are not what the check of the content takes them for, the check raises a
`TypeError` or an `AttributeError`, which the run does not catch: its task dies, and the invocation stays
`running` for good.
-/

namespace Krewhub

/-! ### Mismatches and crashes -/

/-- It ends, or raises a mismatch. -/
def Graceful {α : Type} (x : Except PyError α) : Prop :=
  ∀ e, x = .error e → ∃ problem, e = .valueError ("schema_mismatch: " ++ problem)

/-- It raises something else than a `ValueError`. -/
def Crashes {α : Type} (x : Except PyError α) : Prop :=
  ∃ e, x = .error e ∧ ∀ msg, e ≠ .valueError msg

section Outcomes

variable {α β : Type}

theorem Graceful.ok (a : α) : Graceful (.ok a) := fun _ h => nomatch h

theorem Graceful.mismatch (problem : String) : Graceful (mismatch problem : Except PyError α) := by
  intro e h
  cases h
  exact ⟨problem, rfl⟩

theorem Graceful.bind {x : Except PyError α} {f : α → Except PyError β} (hx : Graceful x)
    (hf : ∀ a, x = .ok a → Graceful (f a)) : Graceful (x >>= f) := by
  cases x with
  | ok a => exact hf a rfl
  | error e =>
    intro e' h
    exact hx e' (congrArg _ (Except.error.inj h))

theorem Graceful.forM {f : α → Except PyError Unit} {xs : List α} (h : ∀ x ∈ xs, Graceful (f x)) :
    Graceful (xs.forM f) := by
  induction xs with
  | nil => exact .ok ()
  | cons x xs ih =>
    rw [List.forall_mem_cons] at h
    exact h.1.bind fun _ _ => ih h.2

/-- A loop that comes no further than one of its turns. -/
theorem Graceful.forM_until {f : α → Except PyError Unit} {xs ys : List α} {y : α}
    (h : ∀ x ∈ xs, Graceful (f x)) (hy : Graceful (f y)) (hstop : f y ≠ .ok ()) :
    Graceful ((xs ++ y :: ys).forM f) := by
  induction xs with
  | nil => exact hy.bind fun _ hok => absurd hok hstop
  | cons x xs ih =>
    rw [List.forall_mem_cons] at h
    exact h.1.bind fun _ _ => ih h.2

theorem Graceful.not_crashes {x : Except PyError α} (h : Graceful x) : ¬ Crashes x := by
  rintro ⟨e, he, hne⟩
  obtain ⟨problem, rfl⟩ := h e he
  exact hne _ rfl

theorem Crashes.bind {x : Except PyError α} (h : Crashes x) (f : α → Except PyError β) :
    Crashes (x >>= f) := by
  obtain ⟨e, rfl, hne⟩ := h
  exact ⟨e, rfl, hne⟩

theorem Crashes.forM_until {f : α → Except PyError Unit} {xs ys : List α} {y : α}
    (h : ∀ x ∈ xs, f x = .ok ()) (hy : Crashes (f y)) : Crashes ((xs ++ y :: ys).forM f) := by
  induction xs with
  | nil => exact hy.bind _
  | cons x xs ih =>
    rw [List.forall_mem_cons] at h
    change Crashes (f x >>= fun _ => _)
    rw [h.1]
    exact ih h.2

end Outcomes

/-! ### Keys the check can use -/

def isContainer : Json → Bool
  | .list _ | .dict _ | .str _ => true
  | _ => false

def isStr : Json → Bool
  | .str _ => true
  | _ => false

/-- `.get` can be called on each branch. -/
def branchesUsable (branches : Json) : Bool :=
  match branches.iterate with
  | .ok bs => bs.all isDict
  | .error _ => false

/-- The `enum` of a string can be asked for its members. -/
def primitiveUsable (entries : List (String × Json)) (t : Json) : Bool :=
  match t with
  | .str "string" => (entries.lookup "enum").all isContainer
  | _ => true

def itemUsable (items : List (String × Json)) : Bool :=
  match items.lookup "anyOf", items.lookup "oneOf" with
  | some _, _ => true
  | none, some oneOf => branchesUsable oneOf
  | none, none => primitiveUsable items (lookupKey items "type")

def propertyUsable : Json → Bool
  | .dict entries =>
    match entries.lookup "oneOf", lookupKey entries "type", lookupKey entries "items" with
    | some _, _, _ => true
    | none, .str "array", .dict items => itemUsable items
    | none, t, _ => primitiveUsable entries t
  | _ => true

/-- `required` is missing, a list, a dict or a text, and the first of its elements that is no text, if there is
one, can be hashed; if there is none, the properties can be used. -/
def wellKeyed (schema : List (String × Json)) : Bool :=
  match ((lookupKey schema "required").orElse (.list [])).iterate with
  | .error _ => false
  | .ok required =>
    match required.find? (!isStr ·) with
    | some req => req.hashable
    | none => (propertiesOf schema).all fun entry =>
        ((propertiesOf schema).lookup entry.1).all propertyUsable

/-! ### The check of a value -/

section Values

variable {pyRepr : Json → String} {entries items : List (String × Json)} {shown key : String}
  {branches value prop : Json}

theorem graceful_checkMember {consts : List Json} : Graceful (checkMember pyRepr shown consts value) := by
  rw [checkMember]
  split
  · exact .ok ()
  · exact .mismatch _

theorem constsOf_of_usable (h : branchesUsable branches = true) :
    ∃ consts, constsOf branches = .ok consts := by
  rw [branchesUsable] at h
  split at h
  next bs hbs => exact ⟨_, constsOf_eq_ok.mpr ⟨bs, hbs, List.all_eq_true.mp h, rfl⟩⟩
  next => cases h

theorem iterate_error {x : Json} {e : PyError} (h : x.iterate = .error e) : e = .typeError := by
  cases x <;> first | exact (Except.error.inj h).symm | cases h

theorem get_error {x : Json} {e : PyError} {name : String} (h : x.get name = .error e) :
    e = .attributeError := by
  cases x <;> first | exact (Except.error.inj h).symm | cases h

theorem mapM_get_error {bs : List Json} {e : PyError} {name : String}
    (h : bs.mapM (·.get name) = .error e) : e = .attributeError := by
  induction bs with
  | nil => cases h
  | cons b bs ih =>
    rw [List.mapM_cons] at h
    rcases bind_eq_error.mp h with hb | ⟨const, _, h⟩
    · exact get_error hb
    · rcases bind_eq_error.mp h with hbs | ⟨consts, _, h⟩
      · exact ih hbs
      · cases h

/-- Branches that cannot be used raise. -/
theorem crashes_constsOf (h : branchesUsable branches = false) : Crashes (constsOf branches) := by
  cases hconsts : constsOf branches with
  | ok consts =>
    obtain ⟨bs, hbs, hdicts, -⟩ := constsOf_eq_ok.mp hconsts
    rw [branchesUsable, hbs] at h
    dsimp only at h
    rw [List.all_eq_true.mpr hdicts] at h
    cases h
  | error e =>
    refine ⟨e, rfl, ?_⟩
    rw [constsOf] at hconsts
    rcases bind_eq_error.mp hconsts with hbs | ⟨bs, _, hbs⟩
    · rw [iterate_error hbs]
      exact fun _ h => by cases h
    · rw [mapM_get_error hbs]
      exact fun _ h => by cases h

theorem isIn_ok {container : Json} {s : String} (h : isContainer container = true) :
    ∃ found, (Json.str s).isIn container = .ok found := by
  cases container
  case list => exact ⟨_, rfl⟩
  case dict => exact ⟨_, rfl⟩
  case str => exact ⟨_, rfl⟩
  all_goals cases h

theorem graceful_checkPrimitive {type : String} (h : primitiveUsable entries (.str type) = true) :
    Graceful (checkPrimitive pyRepr entries type key value) := by
  unfold checkPrimitive
  cases hkind : hasPrimitiveType type value with
  | false => exact .mismatch _
  | true =>
    rw [if_neg (by simp)]
    split
    next hstring =>
      subst hstring
      obtain ⟨s, rfl⟩ : ∃ s, value = .str s := by
        cases value
        case str s => exact ⟨s, rfl⟩
        all_goals cases hkind
      split
      · exact .ok ()
      next enum henum =>
        rw [primitiveUsable, henum, Option.all_some] at h
        obtain ⟨found, hfound⟩ := isIn_ok (s := s) h
        rw [hfound]
        cases found
        · exact .mismatch _
        · exact .ok ()
    next => exact .ok ()

theorem crashes_checkPrimitive {t : Json} (h : primitiveUsable entries t = false) :
    t = .str "string" ∧ Crashes (checkPrimitive pyRepr entries "string" key (.str "")) := by
  unfold primitiveUsable at h
  split at h
  next =>
    refine ⟨rfl, ?_⟩
    cases henum : entries.lookup "enum" with
    | none =>
      rw [henum] at h
      cases h
    | some enum =>
      rw [henum, Option.all_some] at h
      unfold checkPrimitive
      rw [henum]
      have hin : (Json.str "").isIn enum = .error .typeError := by
        cases enum
        case list => cases h
        case dict => cases h
        case str => cases h
        all_goals rfl
      refine ⟨.typeError, ?_, fun _ => nofun⟩
      simp only [hasPrimitiveType, Bool.not_true, Bool.false_eq_true, if_false, if_true, hin]
      rfl
  next => cases h

theorem graceful_checkConsts (h : AcceptedBranches branches) :
    Graceful (do checkMember pyRepr shown (← constsOf branches) value) := by
  obtain ⟨consts, hconsts⟩ := constsOf_of_accepted h
  rw [hconsts]
  exact graceful_checkMember

theorem graceful_checkItem {type : String} (hanyOf : items.lookup "anyOf" = none)
    (htype : lookupKey items "type" = .str type) (hprimitive : type ∈ primitiveTypes)
    (husable : itemUsable items = true) : Graceful (checkValue pyRepr (.dict items) key value) := by
  unfold itemUsable at husable
  rw [hanyOf] at husable
  cases honeOf : items.lookup "oneOf" with
  | some oneOf =>
    rw [honeOf] at husable
    obtain ⟨consts, hconsts⟩ := constsOf_of_usable husable
    rw [checkValue_oneOf honeOf, hconsts]
    exact graceful_checkMember
  | none =>
    rw [honeOf, htype] at husable
    rw [checkValue_primitive honeOf htype hprimitive]
    exact graceful_checkPrimitive husable

theorem graceful_checkItems {values : List Json} (hitems : lookupKey entries "items" = .dict items)
    (haccepted : AcceptedItems items) (husable : itemUsable items = true) :
    Graceful (checkItems pyRepr entries key values) := by
  rw [checkItems_eq hitems]
  cases haccepted with
  | anyOf hanyOf hbranches =>
    obtain ⟨consts, hconsts⟩ := constsOf_of_accepted hbranches
    rw [hanyOf]
    dsimp only
    rw [hconsts]
    exact .forM fun _ _ => graceful_checkMember
  | primitive hanyOf htype hprimitive =>
    rw [hanyOf]
    exact .forM fun _ _ => graceful_checkItem hanyOf htype hprimitive husable

theorem propertyUsable_primitive {type : String} (honeOf : entries.lookup "oneOf" = none)
    (htype : lookupKey entries "type" = .str type) (hprimitive : type ∈ primitiveTypes) :
    propertyUsable (.dict entries) = primitiveUsable entries (.str type) := by
  unfold propertyUsable
  dsimp only
  rw [honeOf, htype]
  split
  next h => cases h
  next h _ => exact absurd (Json.str.inj h) (ne_array hprimitive)
  next => rfl

theorem propertyUsable_array (honeOf : entries.lookup "oneOf" = none)
    (htype : lookupKey entries "type" = .str "array") (hitems : lookupKey entries "items" = .dict items) :
    propertyUsable (.dict entries) = itemUsable items := by
  unfold propertyUsable
  dsimp only
  rw [honeOf, htype, hitems]
  rfl

theorem graceful_checkValue (haccepted : AcceptedProperty entries)
    (husable : propertyUsable (.dict entries) = true) :
    Graceful (checkValue pyRepr (.dict entries) key value) := by
  cases haccepted with
  | oneOf honeOf hbranches =>
    rw [checkValue_oneOf honeOf]
    exact graceful_checkConsts hbranches
  | primitive honeOf htype hprimitive =>
    rw [propertyUsable_primitive honeOf htype hprimitive] at husable
    rw [checkValue_primitive honeOf htype hprimitive]
    exact graceful_checkPrimitive husable
  | array honeOf htype hitems haccepted =>
    rw [propertyUsable_array honeOf htype hitems] at husable
    cases value
    case list values =>
      rw [checkValue_array honeOf htype]
      exact graceful_checkItems hitems haccepted husable
    all_goals
      unfold checkValue
      rw [honeOf, htype]
      exact .mismatch _

/-- A value that makes the check of an item raise. -/
theorem crashes_checkItem {type : String} (hanyOf : items.lookup "anyOf" = none)
    (htype : lookupKey items "type" = .str type) (hprimitive : type ∈ primitiveTypes)
    (husable : itemUsable items = false) : Crashes (checkValue pyRepr (.dict items) key (.str "")) := by
  unfold itemUsable at husable
  rw [hanyOf] at husable
  cases honeOf : items.lookup "oneOf" with
  | some oneOf =>
    rw [honeOf] at husable
    rw [checkValue_oneOf honeOf]
    exact (crashes_constsOf husable).bind _
  | none =>
    rw [honeOf, htype] at husable
    rw [checkValue_primitive honeOf htype hprimitive]
    obtain ⟨heq, hcrash⟩ := crashes_checkPrimitive husable
    rw [Json.str.inj heq]
    exact hcrash

/-- A property that cannot be used has a value that makes the check raise. -/
theorem exists_crashes_checkValue (haccepted : AcceptedProperty entries)
    (husable : propertyUsable (.dict entries) = false) :
    ∃ value, value.distinct = true ∧ Crashes (checkValue pyRepr (.dict entries) key value) := by
  cases haccepted with
  | oneOf honeOf hbranches =>
    unfold propertyUsable at husable
    dsimp only at husable
    rw [honeOf] at husable
    cases husable
  | primitive honeOf htype hprimitive =>
    rw [propertyUsable_primitive honeOf htype hprimitive] at husable
    refine ⟨.str "", rfl, ?_⟩
    rw [checkValue_primitive honeOf htype hprimitive]
    obtain ⟨heq, hcrash⟩ := crashes_checkPrimitive husable
    rw [Json.str.inj heq]
    exact hcrash
  | array honeOf htype hitems haccepted =>
    rw [propertyUsable_array honeOf htype hitems] at husable
    refine ⟨.list [.str ""], rfl, ?_⟩
    rw [checkValue_array honeOf htype, checkItems_eq hitems]
    cases haccepted with
    | anyOf hanyOf hbranches =>
      unfold itemUsable at husable
      rw [hanyOf] at husable
      cases husable
    | primitive hanyOf htype hprimitive =>
      rw [hanyOf]
      exact (crashes_checkItem hanyOf htype hprimitive husable).bind _

end Values

/-! ### The check of the content -/

section Contents

variable {pyRepr : Json → String} {schema fields : List (String × Json)} {required : List Json}

theorem eq_str_of_isStr {req : Json} (h : isStr req = true) : ∃ name, req = .str name := by
  cases req
  case str name => exact ⟨name, rfl⟩
  all_goals cases h

/-- The check that one required field is there. -/
def checkRequired (pyRepr : Json → String) (fields : List (String × Json)) (req : Json) :
    Except PyError Unit := do
  if ← req.isIn (.dict fields) then return () else mismatch ("missing required field " ++ pyRepr req)

/-- The check of one field. -/
def checkField (pyRepr : Json → String) (schema : List (String × Json)) (field : String × Json) :
    Except PyError Unit :=
  match (propertiesOf schema).lookup field.1 with
  | none => return ()
  | some prop => checkValue pyRepr prop field.1 field.2

theorem validateContent_eq (haccepted : validateRequestSchema pyRepr (.dict schema) = .ok ()) :
    validateContent pyRepr (.dict schema) (.dict fields) = (do
      let required ← ((lookupKey schema "required").orElse (.list [])).iterate
      required.forM (checkRequired pyRepr fields)
      fields.forM (checkField pyRepr schema)) := by
  obtain ⟨htype, hproperties, -⟩ := acceptedSchema haccepted
  unfold validateContent
  dsimp only
  rw [htype, hproperties, if_neg (by simp)]
  rfl

theorem graceful_checkRequired {req : Json} (h : req.hashable = true) :
    Graceful (checkRequired pyRepr fields req) := by
  rw [checkRequired, Json.isIn, if_pos h]
  dsimp only
  cases fields.any fun field => req.eq true (.str field.1) with
  | false => exact .mismatch _
  | true => exact .ok ()

theorem hashable_of_isStr {req : Json} (h : isStr req = true) : req.hashable = true := by
  obtain ⟨name, rfl⟩ := eq_str_of_isStr h
  rfl

theorem checkRequired_ok {name : String} (h : fields.any (·.1 == name) = true) :
    checkRequired pyRepr fields (.str name) = .ok () :=
  ask_eq_ok.mpr (isIn_iff.mpr ⟨name, rfl, h⟩)

theorem checkRequired_ne {req : Json} (h : isStr req = false) :
    checkRequired pyRepr fields req ≠ .ok () := by
  intro hok
  obtain ⟨name, rfl, _⟩ := isIn_iff.mp (ask_eq_ok.mp hok)
  cases h

/-- The texts among some values. -/
def names (required : List Json) : List String :=
  required.filterMap fun
    | .str name => some name
    | _ => none

/-- A dict with these keys. -/
def nulls (keys : List String) : List (String × Json) := keys.dedup.map fun name => (name, .null)

theorem any_nulls {keys : List String} {name : String} (h : name ∈ keys) :
    (nulls keys).any (·.1 == name) = true :=
  List.any_eq_true.mpr ⟨(name, .null), List.mem_map.mpr ⟨name, List.mem_dedup.mpr h, rfl⟩, beq_self_eq_true _⟩

theorem mem_names {req : Json} (hreq : req ∈ required) (h : isStr req = true) :
    ∃ name ∈ names required, req = .str name := by
  obtain ⟨name, rfl⟩ := eq_str_of_isStr h
  exact ⟨name, List.mem_filterMap.mpr ⟨_, hreq, rfl⟩, rfl⟩

theorem map_fst_nulls (keys : List String) : (nulls keys).map Prod.fst = keys.dedup := by
  rw [nulls, List.map_map]
  exact List.map_id _

theorem distinctEntries_nulls (keys : List String) : Json.distinctEntries (nulls keys) = true := by
  rw [nulls]
  induction keys.dedup with
  | nil => rfl
  | cons name names ih => exact ih

theorem distinct_nulls (keys : List String) : (Json.dict (nulls keys)).distinct = true := by
  rw [Json.distinct, map_fst_nulls, distinctEntries_nulls, Bool.and_true]
  exact decide_eq_true (List.nodup_dedup _)

/-- A value of a field, and the other fields a schema requires. -/
theorem distinct_cons {keys : List String} {name : String} {value : Json} (h : value.distinct = true) :
    (Json.dict ((name, value) :: nulls (keys.filter (· != name)))).distinct = true := by
  rw [Json.distinct, List.map_cons, map_fst_nulls, Json.distinctEntries, h, distinctEntries_nulls,
    Bool.true_and, Bool.and_true]
  refine decide_eq_true (List.nodup_cons.mpr ⟨fun hmem => ?_, List.nodup_dedup _⟩)
  obtain ⟨-, hne⟩ := List.mem_filter.mp (List.mem_dedup.mp hmem)
  simp at hne

theorem graceful_validateContent (haccepted : validateRequestSchema pyRepr (.dict schema) = .ok ())
    (hkeyed : wellKeyed schema = true) (content : Json) :
    Graceful (validateContent pyRepr (.dict schema) content) := by
  cases content
  case dict fields =>
    rw [validateContent_eq haccepted]
    unfold wellKeyed at hkeyed
    split at hkeyed
    next => cases hkeyed
    next required hrequired =>
      rw [hrequired]
      change Graceful (required.forM (checkRequired pyRepr fields) >>= _)
      split at hkeyed
      next req hfind =>
        obtain ⟨hreq, xs, ys, rfl, hxs⟩ := List.find?_eq_some_iff_append.mp hfind
        have hstr : ∀ x ∈ xs, isStr x = true := fun x hx => by simpa using hxs x hx
        have hstop : checkRequired pyRepr fields req ≠ .ok () := checkRequired_ne (by simpa using hreq)
        refine .bind (.forM_until (fun x hx => graceful_checkRequired (hashable_of_isStr (hstr x hx)))
          (graceful_checkRequired hkeyed) hstop) fun _ hok => ?_
        exact absurd (forM_eq_ok.mp hok req (by simp)) hstop
      next hfind =>
        have hstr : ∀ req ∈ required, isStr req = true := fun req hreq => by
          simpa using List.find?_eq_none.mp hfind req hreq
        refine .bind (.forM fun req hreq => graceful_checkRequired (hashable_of_isStr (hstr req hreq)))
          fun _ _ => .forM fun field _ => ?_
        rw [checkField]
        cases hprop : (propertiesOf schema).lookup field.1 with
        | none => exact .ok ()
        | some prop =>
          obtain ⟨entries, rfl, hentries⟩ := (acceptedSchema haccepted).2.2 _ (mem_of_lookup hprop)
          have husable := List.all_eq_true.mp hkeyed _ (mem_of_lookup hprop)
          rw [hprop, Option.all_some] at husable
          exact graceful_checkValue hentries husable
  all_goals
    rw [validateContent_other haccepted rfl]
    exact .mismatch _

/-- Where the schema has keys the check cannot use, some content makes it raise. -/
theorem exists_crashes_validateContent
    (haccepted : validateRequestSchema pyRepr (.dict schema) = .ok ()) (hkeyed : wellKeyed schema = false) :
    ∃ content : Json, content.distinct = true ∧ Crashes (validateContent pyRepr (.dict schema) content) := by
  unfold wellKeyed at hkeyed
  split at hkeyed
  next e hrequired =>
    refine ⟨.dict [], rfl, ?_⟩
    rw [validateContent_eq haccepted, hrequired, iterate_error hrequired]
    exact ⟨.typeError, rfl, fun _ => nofun⟩
  next required hrequired =>
    split at hkeyed
    next req hfind =>
      obtain ⟨hreq, xs, ys, rfl, hxs⟩ := List.find?_eq_some_iff_append.mp hfind
      refine ⟨.dict (nulls (names xs)), distinct_nulls _, ?_⟩
      rw [validateContent_eq haccepted, hrequired]
      refine Crashes.bind (.forM_until (fun x hx => ?_) ?_) _
      · obtain ⟨name, hname, rfl⟩ := mem_names hx (by simpa using hxs x hx)
        exact checkRequired_ok (any_nulls hname)
      · rw [checkRequired, Json.isIn, if_neg (by rw [hkeyed]; exact Bool.false_ne_true)]
        exact ⟨.typeError, rfl, fun _ => nofun⟩
    next hfind =>
      have hstr : ∀ req ∈ required, isStr req = true := fun req hreq => by
        simpa using List.find?_eq_none.mp hfind req hreq
      obtain ⟨⟨name, _⟩, _, hname⟩ := List.all_eq_false.mp hkeyed
      dsimp only at hname
      obtain ⟨prop, hprop, husable⟩ : ∃ prop, (propertiesOf schema).lookup name = some prop ∧
          propertyUsable prop = false := by
        cases hprop : (propertiesOf schema).lookup name with
        | none =>
          rw [hprop] at hname
          exact absurd rfl hname
        | some prop =>
          rw [hprop] at hname
          exact ⟨prop, rfl, by simpa using hname⟩
      obtain ⟨entries, rfl, hentries⟩ := (acceptedSchema haccepted).2.2 _ (mem_of_lookup hprop)
      obtain ⟨value, hvalue, hcrash⟩ :
          ∃ value, value.distinct = true ∧ Crashes (checkValue pyRepr (.dict entries) name value) :=
        exists_crashes_checkValue hentries husable
      refine ⟨.dict ((name, value) :: nulls ((names required).filter (· != name))), distinct_cons hvalue, ?_⟩
      generalize hfields : (name, value) :: nulls ((names required).filter (· != name)) = fields
      have hall : required.forM (checkRequired pyRepr fields) = .ok () := by
        refine forM_eq_ok.mpr fun req hreq => ?_
        obtain ⟨other, hother, rfl⟩ := mem_names hreq (hstr req hreq)
        refine checkRequired_ok ?_
        rw [← hfields, List.any_cons]
        by_cases heq : other = name
        · rw [heq, beq_self_eq_true, Bool.true_or]
        · rw [any_nulls (List.mem_filter.mpr ⟨hother, by simpa using heq⟩), Bool.or_true]
      rw [validateContent_eq haccepted, hrequired]
      change Crashes (required.forM _ >>= fun _ => _)
      have hfield : Crashes (checkField pyRepr schema (name, value)) := by
        rw [checkField, hprop]
        exact hcrash
      rw [hall, ← hfields]
      exact hfield.bind _

end Contents

/-! ### The end of a run -/

section Ends

variable {pyRepr : Json → String} {schema : List (String × Json)}

theorem settleResult_of_graceful
    (h : ∀ content, Graceful (validateContent pyRepr (.dict schema) content)) (result : Envelope) :
    ∃ r, settleResult pyRepr (some (.dict schema)) result = .ok r := by
  unfold settleResult
  dsimp only
  split
  · split
    · exact ⟨_, rfl⟩
    · exact ⟨_, rfl⟩
    next content _ _ =>
      split
      · exact ⟨_, rfl⟩
      next msg hmsg =>
        obtain ⟨problem, heq⟩ := h _ _ hmsg
        obtain rfl := PyError.valueError.inj heq
        rw [dif_pos (bne_iff_ne.mpr (ResultEnvelope.schema_mismatch_ne problem))]
        exact ⟨_, rfl⟩
      next e hne he =>
        obtain ⟨problem, rfl⟩ := h _ _ he
        exact absurd rfl (hne _)
  · exact ⟨_, rfl⟩

end Ends

/-- For every schema that is accepted, the check ends or raises a mismatch for whatever content it is given,
and every run that has a result ends with a final status in the row, if and only if the keys of the schema
are ones the check can use. -/
theorem graceful_iff {pyRepr : Json → String} {schema : List (String × Json)}
    (haccepted : validateRequestSchema pyRepr (.dict schema) = .ok ()) :
    ((∀ content : Json, content.distinct = true →
          Graceful (validateContent pyRepr (.dict schema) content)) ∧
        ∀ hand submitted,
          (statusAfter pyRepr (some (.dict schema)) hand submitted).isTerminal = true) ↔
      wellKeyed schema = true := by
  constructor
  · rintro ⟨h, -⟩
    by_contra hkeyed
    obtain ⟨content, hdistinct, hcrash⟩ :=
      exists_crashes_validateContent haccepted (Bool.not_eq_true _ ▸ hkeyed)
    exact (h content hdistinct).not_crashes hcrash
  · intro hkeyed
    have hgraceful := graceful_validateContent haccepted hkeyed
    refine ⟨fun content _ => hgraceful content, fun hand submitted => ?_⟩
    obtain ⟨r, hr⟩ := settleResult_of_graceful hgraceful (submitted.getD hand.result)
    rw [statusAfter, runEnd, hr]
    dsimp only
    cases r.action <;> rfl

/-- A request whose `enum` is `null`. -/
def nullEnumRequest : List (String × Json) :=
  [("type", .str "object"),
    ("properties", .dict [("name", .dict [("type", .str "string"), ("enum", .null)])])]

theorem graceful_countRequest :
    (statusAfter (fun _ => "") (some (.dict countRequest)) (.returned (counted 5)) none).isTerminal = true :=
  ((graceful_iff (countRequest_accepted fun _ => "")).mpr (by decide +kernel)).2 _ _

/-- The check raises a `TypeError`, and the invocation stays `running`. -/
theorem crashes_null_enum :
    validateRequestSchema (fun _ => "") (.dict nullEnumRequest) = .ok () ∧
      validateContent (fun _ => "") (.dict nullEnumRequest) (.dict [("name", .str "a")]) = .error .typeError ∧
        statusAfter (fun _ => "") (some (.dict nullEnumRequest))
          (.returned { action := .accept, content := .dict [("name", .str "a")] }) none = .running :=
  ⟨rfl, rfl, rfl⟩

end Krewhub
