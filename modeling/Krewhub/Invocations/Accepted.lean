import Krewhub.Invocations.Schema

/-!
# What is accepted

An invocation with a schema that ends with `accept` has the fields the schema requires, and values that
satisfy the schemas of their properties, unless the result has no content at all, or one of its values is
let through: `enum` is looked at for strings only, and `in` takes `True` for `1`.
-/

namespace Krewhub

/-! ### The schemas that are accepted -/

section Accepting

variable {pyRepr : Json → String} {name problem : String} {entries items : List (String × Json)}

/-- Branches that are accepted are dicts in a list, or there are none. -/
def AcceptedBranches (branches : Json) : Prop :=
  ∃ bs, branches.iterate = .ok bs ∧ ∀ b ∈ bs, isBranch b = true

inductive AcceptedItems (items : List (String × Json)) : Prop
  | anyOf {branches : Json} (hanyOf : items.lookup "anyOf" = some branches)
      (hbranches : AcceptedBranches branches)
  | primitive {type : String} (hanyOf : items.lookup "anyOf" = none)
      (htype : lookupKey items "type" = .str type) (hprimitive : type ∈ primitiveTypes)

inductive AcceptedProperty (entries : List (String × Json)) : Prop
  | oneOf {branches : Json} (honeOf : entries.lookup "oneOf" = some branches)
      (hbranches : AcceptedBranches branches)
  | primitive {type : String} (honeOf : entries.lookup "oneOf" = none)
      (htype : lookupKey entries "type" = .str type) (hprimitive : type ∈ primitiveTypes)
  | array {items : List (String × Json)} (honeOf : entries.lookup "oneOf" = none)
      (htype : lookupKey entries "type" = .str "array") (hitems : lookupKey entries "items" = .dict items)
      (haccepted : AcceptedItems items)

theorem acceptedBranches {branches : Json}
    (h : validateBranches pyRepr name problem branches = .ok ()) : AcceptedBranches branches := by
  obtain ⟨bs, hbs, h⟩ := bind_eq_ok.mp h
  refine ⟨bs, hbs, List.all_eq_true.mp ?_⟩
  by_contra hall
  rw [if_neg hall] at h
  cases h

theorem primitive_of_isPrimitive {t : Json} (h : isPrimitive t = .ok true) :
    ∃ type ∈ primitiveTypes, t = .str type := by
  rw [isPrimitive] at h
  split at h
  · obtain ⟨type, htype, heq⟩ := List.any_eq_true.mp (Except.ok.inj h)
    exact ⟨type, htype, Json.eq_str.mp heq⟩
  · cases h

theorem acceptedItems (h : validateItems pyRepr name items = .ok ()) : AcceptedItems items := by
  rw [validateItems] at h
  split at h
  next branches hanyOf => exact .anyOf hanyOf (acceptedBranches h)
  next hanyOf =>
    dsimp only at h
    split at h
    · cases h
    · obtain ⟨primitive, hprimitive, h⟩ := bind_eq_ok.mp h
      cases primitive with
      | false => cases h
      | true =>
        obtain ⟨type, htype, heq⟩ := primitive_of_isPrimitive hprimitive
        exact .primitive hanyOf heq htype

theorem acceptedProperty {prop : Json} (h : validatePropertySchema pyRepr name prop = .ok ()) :
    ∃ entries, prop = .dict entries ∧ AcceptedProperty entries := by
  cases prop
  case dict entries =>
    refine ⟨entries, rfl, ?_⟩
    rw [validatePropertySchema] at h
    split at h
    next branches honeOf => exact .oneOf honeOf (acceptedBranches h)
    next honeOf =>
      obtain ⟨primitive, hprimitive, h⟩ := bind_eq_ok.mp h
      cases primitive with
      | true =>
        obtain ⟨type, htype, heq⟩ := primitive_of_isPrimitive hprimitive
        exact .primitive honeOf heq htype
      | false =>
        rw [if_neg (by simp)] at h
        split at h
        next harray =>
          split at h
          next items hitems => exact .array honeOf (Json.eq_str.mp harray) hitems (acceptedItems h)
          next => cases h
        next => split at h <;> cases h
  all_goals cases h

theorem acceptedSchema (h : validateRequestSchema pyRepr (.dict entries) = .ok ()) :
    (lookupKey entries "type").eq true (.str "object") = true ∧
      (lookupKey entries "properties").orElse (.dict []) = .dict (propertiesOf entries) ∧
        ∀ p ∈ propertiesOf entries, ∃ prop, p.2 = .dict prop ∧ AcceptedProperty prop := by
  rw [validateRequestSchema] at h
  split at h
  · cases h
  next htype =>
    refine ⟨by simpa using htype, ?_⟩
    rw [propertiesOf]
    split at h
    next hproperties =>
      rw [hproperties]
      exact ⟨rfl, fun _ h => absurd h List.not_mem_nil⟩
    next properties hproperties =>
      rw [hproperties]
      refine ⟨?_, fun p hp => acceptedProperty (forM_eq_ok.mp h p hp)⟩
      cases properties <;> rfl
    next => cases h

end Accepting

/-! ### The values that are let through -/

section Checking

variable {pyRepr : Json → String} {entries items : List (String × Json)} {shown key : String}
  {branches value : Json}

theorem mapM_const_eq_ok {bs consts : List Json} :
    bs.mapM (·.get "const") = .ok consts ↔ (∀ b ∈ bs, isDict b = true) ∧ consts = bs.map constOf := by
  induction bs generalizing consts with
  | nil =>
    refine ⟨fun h => ⟨fun _ h => absurd h List.not_mem_nil, (Except.ok.inj h).symm⟩, ?_⟩
    rintro ⟨-, rfl⟩
    rfl
  | cons b bs ih =>
    rw [List.mapM_cons, bind_eq_ok, List.forall_mem_cons]
    constructor
    · rintro ⟨const, hb, h⟩
      obtain ⟨rest, hrest, h⟩ := bind_eq_ok.mp h
      obtain ⟨hbs, rfl⟩ := ih.mp hrest
      cases b
      case dict fields =>
        refine ⟨⟨rfl, hbs⟩, ?_⟩
        rw [← Except.ok.inj h, ← Except.ok.inj hb]
        rfl
      all_goals cases hb
    · rintro ⟨⟨hb, hbs⟩, rfl⟩
      cases b
      case dict fields => exact ⟨_, rfl, bind_eq_ok.mpr ⟨_, ih.mpr ⟨hbs, rfl⟩, rfl⟩⟩
      all_goals cases hb

theorem constsOf_eq_ok {consts : List Json} :
    constsOf branches = .ok consts ↔
      ∃ bs, branches.iterate = .ok bs ∧ (∀ b ∈ bs, isDict b = true) ∧ consts = bs.map constOf := by
  rw [constsOf, bind_eq_ok]
  exact exists_congr fun bs => and_congr_right fun _ => mapM_const_eq_ok

theorem isDict_of_isBranch {b : Json} (h : isBranch b = true) : isDict b = true := by
  cases b
  case dict => rfl
  all_goals cases h

theorem constsOf_of_accepted (h : AcceptedBranches branches) : ∃ consts, constsOf branches = .ok consts := by
  obtain ⟨bs, hbs, hall⟩ := h
  exact ⟨_, constsOf_eq_ok.mpr ⟨bs, hbs, fun b hb => isDict_of_isBranch (hall b hb), rfl⟩⟩

theorem checkMember_eq_ok {consts : List Json} :
    checkMember pyRepr shown consts value = .ok () ↔ consts.any (value.eq true) = true := by
  rw [checkMember]
  split
  next h => exact ⟨fun _ => h, fun _ => rfl⟩
  next h =>
    refine ⟨fun h' => ?_, fun h' => absurd h' h⟩
    cases h'

/-- Dicts among which one has the value as its const are in a list. -/
theorem list_of_any {bs : List Json} {p : Json → Bool} (hbs : branches.iterate = .ok bs)
    (hdicts : ∀ b ∈ bs, isDict b = true) (hany : bs.any p = true) : branches = .list bs := by
  obtain ⟨b, hb, _⟩ := List.any_eq_true.mp hany
  have hdict := hdicts b hb
  cases branches
  case list => rw [Except.ok.inj hbs]
  case dict fields =>
    rw [← Except.ok.inj hbs] at hb
    obtain ⟨field, _, rfl⟩ := List.mem_map.mp hb
    cases hdict
  case str s =>
    rw [← Except.ok.inj hbs] at hb
    obtain ⟨c, _, rfl⟩ := List.mem_map.mp hb
    cases hdict
  all_goals cases hbs

/-- A value is taken for one of the consts where it is one, or is mistaken for one. -/
theorem checkMember_iff {consts : List Json} (hconsts : constsOf branches = .ok consts) :
    checkMember pyRepr shown consts value = .ok () ↔
      hasConst branches value = true ∨ mistakenConst branches value = true := by
  obtain ⟨bs, hbs, hdicts, rfl⟩ := constsOf_eq_ok.mp hconsts
  rw [checkMember_eq_ok, List.any_map]
  constructor
  · intro hany
    obtain rfl := list_of_any hbs hdicts hany
    by_cases hconst : hasConst (.list bs) value = true
    · exact .inl hconst
    · refine .inr ?_
      rw [mistakenConst, Bool.and_eq_true, Bool.and_eq_true]
      exact ⟨⟨List.all_eq_true.mpr hdicts, hany⟩, by simpa using hconst⟩
  · rintro (h | h)
    · cases branches
      case list =>
        obtain rfl := Except.ok.inj hbs
        rw [hasConst, Bool.and_eq_true] at h
        obtain ⟨b, hb, heq⟩ := List.any_eq_true.mp h.2
        exact List.any_eq_true.mpr ⟨b, hb, Json.eq_mono (Bool.and_eq_true _ _ ▸ heq).2⟩
      all_goals cases h
    · cases branches
      case list =>
        obtain rfl := Except.ok.inj hbs
        rw [mistakenConst, Bool.and_eq_true, Bool.and_eq_true] at h
        exact h.1.2
      all_goals cases h

theorem checkMember_constsOf_iff :
    (do checkMember pyRepr shown (← constsOf branches) value) = .ok () ↔
      hasConst branches value = true ∨ mistakenConst branches value = true := by
  rw [bind_eq_ok]
  constructor
  · rintro ⟨consts, hconsts, h⟩
    exact (checkMember_iff hconsts).mp h
  · intro h
    have hlist : ∃ bs, branches = .list bs ∧ ∀ b ∈ bs, isDict b = true := by
      cases branches
      case list bs =>
        refine ⟨bs, rfl, List.all_eq_true.mp ?_⟩
        rcases h with h | h
        · rw [hasConst, Bool.and_eq_true] at h
          exact h.1
        · rw [mistakenConst, Bool.and_eq_true, Bool.and_eq_true] at h
          exact h.1.1
      all_goals rcases h with h | h <;> cases h
    obtain ⟨bs, rfl, hdicts⟩ := hlist
    have hconsts : constsOf (.list bs) = .ok (bs.map constOf) :=
      constsOf_eq_ok.mpr ⟨bs, rfl, hdicts, rfl⟩
    exact ⟨_, hconsts, (checkMember_iff hconsts).mpr h⟩

theorem ask_eq_ok {found : Except PyError Bool} {problem : String} :
    (found >>= fun found => if found = true then pure () else mismatch problem) = .ok () ↔
      found = .ok true := by
  rw [bind_eq_ok]
  constructor
  · rintro ⟨b, hb, h⟩
    cases b with
    | true => exact hb
    | false => cases h
  · exact fun h => ⟨true, h, rfl⟩

theorem checkPrimitive_iff {type : String} :
    checkPrimitive pyRepr entries type key value = .ok () ↔
      satisfiesPrimitive entries (.str type) value = true ∨
        mistakenPrimitive entries (.str type) value = true := by
  unfold satisfiesPrimitive mistakenPrimitive checkPrimitive
  cases hkind : hasPrimitiveType type value with
  | false => simp [mismatch, hkind]
  | true =>
    by_cases hstring : type = "string"
    · subst hstring
      obtain ⟨s, rfl⟩ : ∃ s, value = .str s := by
        cases value
        case str s => exact ⟨s, rfl⟩
        all_goals cases hkind
      cases henum : entries.lookup "enum" with
      | none => simp [henum, hkind, inEnum, pure, Except.pure]
      | some enum =>
        simp only [Bool.not_true, Bool.false_eq_true, if_false, if_true, ask_eq_ok]
        cases enum <;> simp [Json.isIn, inEnum, henum, hkind, Json.hashable]
    · cases hin : inEnum entries value <;> simp [hstring, hkind, pure, Except.pure]

theorem ne_array {type : String} (h : type ∈ primitiveTypes) : type ≠ "array" := by
  rintro rfl
  exact absurd h (by decide)

theorem checkValue_oneOf (honeOf : entries.lookup "oneOf" = some branches) :
    checkValue pyRepr (.dict entries) key value =
      (do checkMember pyRepr (pyRepr (.str key) ++ "=") (← constsOf branches) value) := by
  unfold checkValue
  rw [honeOf]

theorem checkValue_primitive {type : String} (honeOf : entries.lookup "oneOf" = none)
    (htype : lookupKey entries "type" = .str type) (hprimitive : type ∈ primitiveTypes) :
    checkValue pyRepr (.dict entries) key value = checkPrimitive pyRepr entries type key value := by
  unfold checkValue
  rw [honeOf, htype]
  dsimp only
  split
  next h => exact absurd (Json.str.inj h) (ne_array hprimitive)
  next h =>
    obtain rfl := Json.str.inj h
    rw [if_pos hprimitive]
  next h => exact absurd rfl (h type)

theorem checkValue_array {values : List Json} (honeOf : entries.lookup "oneOf" = none)
    (htype : lookupKey entries "type" = .str "array") :
    checkValue pyRepr (.dict entries) key (.list values) = checkItems pyRepr entries key values := by
  unfold checkValue
  rw [honeOf, htype]
  rfl

/-- The values of an array are checked against the items its property declares. -/
theorem checkItems_eq {values : List Json} (hitems : lookupKey entries "items" = .dict items) :
    checkItems pyRepr entries key values =
      match items.lookup "anyOf" with
      | some anyOf => do
        let consts ← constsOf anyOf
        values.forM fun v => checkMember pyRepr (pyRepr (.str key) ++ " item ") consts v
      | none => values.forM fun v => checkValue pyRepr (.dict items) (key ++ "[]") v := by
  induction entries with
  | nil => cases hitems
  | cons entry entries ih =>
    obtain ⟨name, prop⟩ := entry
    unfold checkItems
    by_cases hname : name = "items"
    · subst hname
      obtain rfl : prop = .dict items := by simpa [lookupKey] using hitems
      exact if_pos rfl
    · rw [if_neg hname]
      refine ih ?_
      rwa [lookupKey, List.lookup_cons, beq_false_of_ne (Ne.symm hname)] at hitems

/-- An item of an array of strings, numbers or booleans. -/
theorem checkItem_iff {type : String} (hanyOf : items.lookup "anyOf" = none)
    (htype : lookupKey items "type" = .str type) (hprimitive : type ∈ primitiveTypes) :
    checkValue pyRepr (.dict items) key value = .ok () ↔
      satisfiesItem items value = true ∨ mistakenItem items value = true := by
  unfold satisfiesItem mistakenItem
  cases honeOf : items.lookup "oneOf" with
  | some oneOf =>
    rw [checkValue_oneOf honeOf, hanyOf]
    exact checkMember_constsOf_iff
  | none =>
    rw [checkValue_primitive honeOf htype hprimitive, hanyOf, htype]
    exact checkPrimitive_iff

theorem checkItems_iff {values : List Json} (hitems : lookupKey entries "items" = .dict items)
    (haccepted : AcceptedItems items) :
    checkItems pyRepr entries key values = .ok () ↔
      ∀ v ∈ values, satisfiesItem items v = true ∨ mistakenItem items v = true := by
  rw [checkItems_eq hitems]
  cases haccepted with
  | @anyOf branches hanyOf hbranches =>
    obtain ⟨consts, hconsts⟩ := constsOf_of_accepted hbranches
    rw [hanyOf]
    dsimp only
    rw [hconsts]
    refine forM_eq_ok.trans (forall₂_congr fun v _ => ?_)
    unfold satisfiesItem mistakenItem
    rw [checkMember_iff hconsts, hanyOf]
  | primitive hanyOf htype hprimitive =>
    rw [hanyOf]
    exact forM_eq_ok.trans (forall₂_congr fun v _ => checkItem_iff hanyOf htype hprimitive)

theorem satisfies_primitive {type : String} (honeOf : entries.lookup "oneOf" = none)
    (htype : lookupKey entries "type" = .str type) (hprimitive : type ∈ primitiveTypes) :
    satisfies (.dict entries) value = satisfiesPrimitive entries (.str type) value := by
  unfold satisfies
  dsimp only
  rw [honeOf, htype]
  split
  next h => cases h
  next h _ => exact absurd (Json.str.inj h) (ne_array hprimitive)
  next h _ => exact absurd (Json.str.inj h) (ne_array hprimitive)
  next => rfl

theorem mistaken_primitive {type : String} (honeOf : entries.lookup "oneOf" = none)
    (htype : lookupKey entries "type" = .str type) (hprimitive : type ∈ primitiveTypes) :
    mistaken (.dict entries) value = mistakenPrimitive entries (.str type) value := by
  unfold mistaken
  dsimp only
  rw [honeOf, htype]
  split
  next h => cases h
  next h _ => exact absurd (Json.str.inj h) (ne_array hprimitive)
  next h _ => exact absurd (Json.str.inj h) (ne_array hprimitive)
  next => rfl

/-- Values each of which is right or wrong, are all right or there is a wrong one among them. -/
theorem forall_or_iff {α : Type} {right wrong : α → Bool} {xs : List α} :
    (∀ x ∈ xs, right x = true ∨ wrong x = true) ↔
      xs.all right = true ∨ (xs.all (fun x => right x || wrong x) && xs.any wrong) = true := by
  rw [Bool.and_eq_true, List.all_eq_true, List.all_eq_true, List.any_eq_true]
  simp only [Bool.or_eq_true]
  constructor
  · intro h
    by_cases hwrong : ∃ x ∈ xs, wrong x = true
    · exact .inr ⟨h, hwrong⟩
    · exact .inl fun x hx => (h x hx).resolve_right fun hx' => hwrong ⟨x, hx, hx'⟩
  · rintro (h | ⟨h, -⟩)
    · exact fun x hx => .inl (h x hx)
    · exact h

/-- What the check lets through: what satisfies the schema of its property, and what is mistaken. -/
theorem checkValue_iff (haccepted : AcceptedProperty entries) :
    checkValue pyRepr (.dict entries) key value = .ok () ↔
      satisfies (.dict entries) value = true ∨ mistaken (.dict entries) value = true := by
  cases haccepted with
  | oneOf honeOf _ =>
    unfold satisfies mistaken
    dsimp only
    rw [checkValue_oneOf honeOf, honeOf]
    exact checkMember_constsOf_iff
  | primitive honeOf htype hprimitive =>
    rw [checkValue_primitive honeOf htype hprimitive, satisfies_primitive honeOf htype hprimitive,
      mistaken_primitive honeOf htype hprimitive]
    exact checkPrimitive_iff
  | array honeOf htype hitems haccepted =>
    cases value
    case list values =>
      unfold satisfies mistaken
      dsimp only
      rw [checkValue_array honeOf htype, checkItems_iff hitems haccepted, honeOf, htype, hitems]
      exact forall_or_iff
    all_goals
      unfold checkValue satisfies mistaken
      dsimp only
      rw [honeOf, htype, hitems]
      simp [mismatch]

/-! ### Content -/

theorem hasConst_of_mistakenConst (h : mistakenConst branches value = true) :
    hasConst branches value = false := by
  cases branches
  case list =>
    rw [mistakenConst, Bool.and_eq_true] at h
    simpa using h.2
  all_goals cases h

theorem satisfiesPrimitive_of_mistaken {t : Json} (h : mistakenPrimitive entries t value = true) :
    satisfiesPrimitive entries t value = false := by
  unfold mistakenPrimitive at h
  unfold satisfiesPrimitive
  cases t
  case str =>
    dsimp only at h ⊢
    rw [Bool.and_eq_true, Bool.and_eq_true, Bool.not_eq_true'] at h
    rw [h.1.2, Bool.and_false]
  all_goals rfl

theorem satisfiesItem_of_mistaken (h : mistakenItem items value = true) :
    satisfiesItem items value = false := by
  unfold mistakenItem at h
  unfold satisfiesItem
  split at h
  · exact hasConst_of_mistakenConst h
  · exact hasConst_of_mistakenConst h
  · exact satisfiesPrimitive_of_mistaken h

/-- No value is both. -/
theorem satisfies_of_mistaken {prop : Json} (h : mistaken prop value = true) :
    satisfies prop value = false := by
  cases prop
  case dict entries =>
    unfold mistaken at h
    unfold satisfies
    dsimp only at h ⊢
    split at h
    · exact hasConst_of_mistakenConst h
    · rw [Bool.and_eq_true, List.any_eq_true] at h
      obtain ⟨v, hv, hmistaken⟩ := h.2
      refine List.all_eq_false.mpr ⟨v, hv, ?_⟩
      rw [satisfiesItem_of_mistaken hmistaken]
      exact Bool.false_ne_true
    · cases h
    · exact satisfiesPrimitive_of_mistaken h
  all_goals cases h

variable {schema fields : List (String × Json)} {content : Json}

theorem isIn_iff {req : Json} :
    req.isIn (.dict fields) = .ok true ↔ ∃ name, req = .str name ∧ fields.any (·.1 == name) = true := by
  rw [Json.isIn]
  constructor
  · intro h
    split at h
    · obtain ⟨field, hfield, heq⟩ := List.any_eq_true.mp (Except.ok.inj h)
      exact ⟨field.1, Json.eq_str.mp heq, List.any_eq_true.mpr ⟨field, hfield, beq_self_eq_true _⟩⟩
    · cases h
  · rintro ⟨name, rfl, h⟩
    rw [if_pos (show (Json.str name).hashable = true from rfl)]
    obtain ⟨field, hfield, heq⟩ := List.any_eq_true.mp h
    refine congrArg Except.ok (List.any_eq_true.mpr ⟨field, hfield, Json.eq_str.mpr ?_⟩)
    rw [eq_of_beq heq]

theorem hasRequired_iff :
    hasRequired schema fields = true ↔
      ∃ required, ((lookupKey schema "required").orElse (.list [])).iterate = .ok required ∧
        ∀ req ∈ required, req.isIn (.dict fields) = .ok true := by
  unfold hasRequired
  split
  next required hrequired =>
    rw [List.all_eq_true, hrequired]
    constructor
    · intro h
      refine ⟨required, rfl, fun req hreq => isIn_iff.mpr ?_⟩
      have hall := h req hreq
      cases req
      case str name => exact ⟨name, rfl, hall⟩
      all_goals cases hall
    · rintro ⟨_, heq, h⟩ req hreq
      obtain rfl := Except.ok.inj heq
      obtain ⟨name, rfl, hany⟩ := isIn_iff.mp (h req hreq)
      exact hany
  next hrequired =>
    rw [hrequired]
    refine ⟨fun h => ?_, ?_⟩
    · cases h
    · rintro ⟨_, h, _⟩
      cases h

theorem checkField_iff (haccepted : validateRequestSchema pyRepr (.dict schema) = .ok ())
    {field : String × Json} :
    (match (propertiesOf schema).lookup field.1 with
      | none => pure ()
      | some prop => checkValue pyRepr prop field.1 field.2) = Except.ok () ↔
        fieldSatisfies schema field = true ∨ fieldMistaken schema field = true := by
  rw [fieldSatisfies, fieldMistaken]
  cases hprop : (propertiesOf schema).lookup field.1 with
  | none => exact ⟨fun _ => .inl rfl, fun _ => rfl⟩
  | some prop =>
    obtain ⟨entries, rfl, hentries⟩ := (acceptedSchema haccepted).2.2 _ (mem_of_lookup hprop)
    exact checkValue_iff hentries

theorem validateContent_iff (haccepted : validateRequestSchema pyRepr (.dict schema) = .ok ()) :
    validateContent pyRepr (.dict schema) (.dict fields) = .ok () ↔
      hasRequired schema fields = true ∧
        ∀ field ∈ fields, fieldSatisfies schema field = true ∨ fieldMistaken schema field = true := by
  obtain ⟨htype, hproperties, -⟩ := acceptedSchema haccepted
  unfold validateContent
  dsimp only
  rw [htype, hproperties, hasRequired_iff]
  simp only [Bool.not_true, Bool.false_eq_true, if_false]
  rw [bind_eq_ok]
  constructor
  · rintro ⟨required, hrequired, h⟩
    obtain ⟨⟨⟩, hreq, h⟩ := bind_eq_ok.mp h
    exact ⟨⟨required, hrequired, fun req hr => ask_eq_ok.mp (forM_eq_ok.mp hreq req hr)⟩,
      fun field hfield => (checkField_iff haccepted).mp (forM_eq_ok.mp h field hfield)⟩
  · rintro ⟨⟨required, hrequired, hreq⟩, h⟩
    refine ⟨required, hrequired, bind_eq_ok.mpr ⟨(), ?_, ?_⟩⟩
    · exact forM_eq_ok.mpr fun req hr => ask_eq_ok.mpr (hreq req hr)
    · exact forM_eq_ok.mpr fun field hfield => (checkField_iff haccepted).mpr (h field hfield)

/-- Content that is no dict is refused. -/
theorem validateContent_other (haccepted : validateRequestSchema pyRepr (.dict schema) = .ok ())
    (hcontent : isDict content = false) :
    validateContent pyRepr (.dict schema) content =
      mismatch ("content must be an object, got " ++ content.typeName) := by
  unfold validateContent
  dsimp only
  rw [(acceptedSchema haccepted).1, if_neg (by simp)]
  cases content
  case dict => cases hcontent
  all_goals rfl

/-- What passes satisfies the schema, or deceives. -/
theorem conforms_or_deceives (haccepted : validateRequestSchema pyRepr (.dict schema) = .ok ()) :
    validateContent pyRepr (.dict schema) content = .ok () ↔
      conforms schema content = true ∨ deceives schema content = true := by
  cases content
  case dict fields =>
    rw [validateContent_iff haccepted, conforms, deceives, Bool.and_eq_true, Bool.and_eq_true, ← and_or_left]
    exact and_congr_right fun _ => forall_or_iff
  all_goals
    rw [validateContent_other haccepted rfl]
    simp [mismatch, conforms, deceives]

/-- Content that deceives does not satisfy the schema. -/
theorem conforms_of_deceives (h : deceives schema content = true) : conforms schema content = false := by
  cases content
  case dict fields =>
    rw [deceives, Bool.and_eq_true, Bool.and_eq_true] at h
    obtain ⟨field, hfield, hmistaken⟩ := List.any_eq_true.mp h.2.2
    rw [fieldMistaken] at hmistaken
    obtain ⟨prop, hprop, hvalue⟩ := (Option.any_eq_true _ _).mp hmistaken
    refine Bool.and_eq_false_imp.mpr fun _ => List.all_eq_false.mpr ⟨field, hfield, ?_⟩
    rw [fieldSatisfies, hprop, Option.all_some, satisfies_of_mistaken hvalue]
    exact Bool.false_ne_true
  all_goals cases h

end Checking

/-! ### The result of a run -/

section Running

variable {pyRepr : Json → String} {schema : List (String × Json)} {result : Envelope}

/-- A result that is accepted passed the check, or had no content. -/
theorem accepted_of_settleResult {r : Envelope}
    (h : settleResult pyRepr (some (.dict schema)) result = .ok r) (haccept : r.action = .accept) :
    r = result ∧ (result.content = .null ∨
      validateContent pyRepr (.dict schema) result.content = .ok ()) := by
  unfold settleResult at h
  dsimp only at h
  split at h
  · split at h
    next hnull => exact ⟨(Except.ok.inj h).symm, .inl hnull⟩
    next =>
      rw [← Except.ok.inj h] at haccept
      cases haccept
    next content _ _ =>
      split at h
      next hok => exact ⟨(Except.ok.inj h).symm, .inr hok⟩
      next =>
        split at h
        · rw [← Except.ok.inj h] at haccept
          cases haccept
        · cases h
      next => cases h
  next hne =>
    obtain rfl := Except.ok.inj h
    exact absurd haccept hne

theorem settleResult_of_null (h : result.content = .null) :
    settleResult pyRepr (some (.dict schema)) result = .ok result := by
  unfold settleResult
  dsimp only
  rw [h, ite_self]

theorem settleResult_of_ok (haccepted : validateRequestSchema pyRepr (.dict schema) = .ok ())
    (h : validateContent pyRepr (.dict schema) result.content = .ok ()) :
    settleResult pyRepr (some (.dict schema)) result = .ok result := by
  obtain ⟨fields, hfields⟩ : ∃ fields, result.content = .dict fields := by
    cases hcontent : result.content
    case dict fields => exact ⟨fields, rfl⟩
    all_goals
      rw [hcontent, validateContent_other haccepted rfl] at h
      cases h
  unfold settleResult
  rw [hfields] at h ⊢
  dsimp only
  rw [h, ite_self]

end Running

/-- For every schema that is accepted, what an invocation ends with satisfies it whenever it is accepted,
if and only if the result that is taken, where it is accepted, has content, and content that does not
deceive. -/
theorem accepted_conforms_iff {pyRepr : Json → String} {schema : List (String × Json)}
    (haccepted : validateRequestSchema pyRepr (.dict schema) = .ok ()) (hand : HandEnd)
    (submitted : Option Envelope) :
    (∀ r, runEnd pyRepr (some (.dict schema)) hand submitted = .ok r → r.action = .accept →
        conforms schema r.content = true) ↔
      ((submitted.getD hand.result).action = .accept →
        (submitted.getD hand.result).content ≠ .null ∧
          deceives schema (submitted.getD hand.result).content = false) := by
  rw [runEnd]
  generalize submitted.getD hand.result = result
  constructor
  · intro h haccept
    constructor
    · intro hnull
      have hconforms := h result (settleResult_of_null hnull) haccept
      rw [hnull] at hconforms
      cases hconforms
    · rw [← Bool.not_eq_true]
      intro hdeceives
      have hok := (conforms_or_deceives haccepted).mpr (.inr hdeceives)
      have hconforms := h result (settleResult_of_ok haccepted hok) haccept
      rw [conforms_of_deceives hdeceives] at hconforms
      cases hconforms
  · intro h r hr haccept
    obtain ⟨rfl, hcontent⟩ := accepted_of_settleResult hr haccept
    obtain ⟨hne, hdeceives⟩ := h haccept
    refine ((conforms_or_deceives haccepted).mp (hcontent.resolve_left hne)).resolve_right ?_
    rw [hdeceives]
    exact Bool.false_ne_true

/-- A request for a number out of two. -/
def countRequest : List (String × Json) :=
  [("type", .str "object"),
    ("properties", .dict
      [("count", .dict [("type", .str "integer"), ("enum", .list [.int 1, .int 2])])]),
    ("required", .list [.str "count"])]

/-- An answer to it. -/
def counted (n : Int) : Envelope where
  action := .accept
  content := .dict [("count", .int n)]
  reasoned := accept_reasoned

theorem countRequest_accepted (pyRepr : Json → String) :
    validateRequestSchema pyRepr (.dict countRequest) = .ok () := rfl

theorem accepted_conforms_counted :
    conforms countRequest (counted 2).content = true :=
  (accepted_conforms_iff (countRequest_accepted fun _ => "") (.returned (counted 2)) none).mpr
    (fun _ => ⟨fun h => (nomatch h), by decide +kernel⟩) (counted 2) (by rfl) rfl

/-- A number that is not in the `enum` is accepted. -/
theorem accepted_out_of_enum :
    validateRequestSchema (fun _ => "") (.dict countRequest) = .ok () ∧
      runEnd (fun _ => "") (some (.dict countRequest)) (.returned (counted 5)) none = .ok (counted 5) ∧
        (counted 5).action = .accept ∧ conforms countRequest (counted 5).content = false :=
  ⟨rfl, rfl, rfl, by decide +kernel⟩

end Krewhub
