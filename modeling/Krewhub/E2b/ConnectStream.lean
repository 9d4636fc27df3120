import Krewhub.Base.Base64
import Krewhub.Base.Framing
import Krewhub.Python.Loads

/-!
# The response of envd

`_decode_connect_stream` takes the envelopes off a Connect stream and yields a chunk for what they say of a
process. Only a body that is no JSON is passed over: everything else that decoding or indexing raises ends the
generator, and an end-of-stream envelope that is passed over does not end it.
-/

namespace Krewhub

/-- An envelope; the length of the body has been read. -/
structure ConnectEnvelope where
  flags : UInt8
  body : List UInt8
  deriving DecidableEq, Repr

namespace ConnectEnvelope

/-- `flags & 0x02`. -/
def endsStream (e : ConnectEnvelope) : Bool := e.flags.toNat / 2 % 2 == 1

/-- `struct.unpack(">I", …)`. -/
def size (a b c d : UInt8) : Nat := ((a.toNat * 256 + b.toNat) * 256 + c.toNat) * 256 + d.toNat

/-- The first envelope of a buffer, where it is complete. -/
def take : List UInt8 → Option (ConnectEnvelope × List UInt8)
  | flags :: a :: b :: c :: d :: rest =>
    if rest.length < size a b c d then none
    else some (⟨flags, rest.take (size a b c d)⟩, rest.drop (size a b c d))
  | _ => none

theorem take_eq_some_iff {buf rest : List UInt8} {e : ConnectEnvelope} :
    take buf = some (e, rest) ↔ ∃ a b c d, buf = e.flags :: a :: b :: c :: d :: (e.body ++ rest) ∧
      e.body.length = size a b c d := by
  constructor
  · intro h
    unfold take at h
    split at h
    · rename_i flags a b c d rest'
      split at h
      · cases h
      · rename_i hlong
        obtain ⟨rfl, rfl⟩ := Prod.mk.inj (Option.some.inj h)
        refine ⟨a, b, c, d, ?_, ?_⟩
        · rw [List.take_append_drop]
        · rw [List.length_take, Nat.min_eq_left (Nat.le_of_not_lt hlong)]
    · cases h
  · rintro ⟨a, b, c, d, rfl, hlength⟩
    rw [take, if_neg (by rw [List.length_append]; omega), ← hlength, List.take_left, List.drop_left]

end ConnectEnvelope

/-- The envelopes of a stream. -/
def envelopes : Framing UInt8 ConnectEnvelope where
  take := ConnectEnvelope.take
  shorter h := by
    obtain ⟨a, b, c, d, rfl, -⟩ := ConnectEnvelope.take_eq_some_iff.mp h
    simp only [List.length_cons, List.length_append]
    omega
  stable more h := by
    obtain ⟨a, b, c, d, rfl, hlength⟩ := ConnectEnvelope.take_eq_some_iff.mp h
    exact ConnectEnvelope.take_eq_some_iff.mpr ⟨a, b, c, d, by simp, hlength⟩

namespace ConnectEnvelope

/-- `struct.pack(">BI", flags, len(body)) + body`, of a body that is not too long. -/
def pack (e : ConnectEnvelope) : List UInt8 :=
  e.flags :: UInt8.ofNat (e.body.length / 2 ^ 24) :: UInt8.ofNat (e.body.length / 2 ^ 16) ::
    UInt8.ofNat (e.body.length / 2 ^ 8) :: UInt8.ofNat e.body.length :: e.body

/-- What is packed is unpacked. -/
theorem frames_pack {es : List ConnectEnvelope} (h : ∀ e ∈ es, e.body.length < 2 ^ 32) :
    envelopes.frames (es.flatMap pack) = es := by
  induction es with
  | nil => exact Framing.frames_of_none rfl
  | cons e es ih =>
    rw [List.forall_mem_cons] at h
    have htake : envelopes.take ((e :: es).flatMap pack) = some (e, es.flatMap pack) := by
      refine take_eq_some_iff.mpr ⟨_, _, _, _, rfl, ?_⟩
      have hlength := h.1
      simp only [size, UInt8.toNat_ofNat']
      omega
    rw [Framing.frames_of_some htake, ih h.2]

end ConnectEnvelope

/-- A chunk, and any other dict with these keys. -/
def pyDict (entries : List (String × PyValue)) : PyValue :=
  .dict (entries.map fun e => (PyStr.ofString e.1, e.2))

/-- `_b64_decode`, which raises nothing. -/
def b64Decode : PyValue → PyStr
  | .str s =>
    match s.ascii with
    | none => []
    | some cs =>
      match Base64.decode false cs with
      | .ok bs => PyStr.decodeReplace bs
      | .error _ => []
  | .bytes bs =>
    match Base64.decode false (bs.map fun b => Char.ofNat b.toNat) with
    | .ok bs => PyStr.decodeReplace bs
    | .error _ => []
  | _ => []

section Decode

variable (B : Builtins)

/-- `err.get(key, default)` as text. -/
def fieldText (err : PyValue) (key default : String) : Except PyExc PyStr :=
  match err with
  | .dict entries => .ok (((entries.lookup (PyStr.ofString key)).map (PyValue.text B)).getD (PyStr.ofString default))
  | _ => .error .attributeError

def connectErrorString (err : PyValue) : Except PyExc PyStr :=
  match err with
  | .str s => .ok s
  | err => do
    let code ← fieldText B err "code" "unknown"
    let message ← fieldText B err "message" ""
    return code ++ PyStr.ofString ": " ++ message

/-- `json.loads(body.decode("utf-8")) if body else {}`. -/
def decodeBody (body : List UInt8) : Except PyExc PyValue :=
  if body.isEmpty then .ok (.dict [])
  else
    match Utf8.decode body with
    | none => .error .unicodeDecodeError
    | some text => loads B text

def outputChunk (stream : String) (data : PyStr) : PyValue :=
  pyDict [("stream", .str (PyStr.ofString stream)), ("data", .str data)]

def exitChunk (code : PyValue) : PyValue := pyDict [("exit_code", code)]

def errorChunk (message : PyStr) : PyValue := pyDict [("error", .str message)]

/-- The chunks of an end-of-stream envelope. -/
def onEnd (sawExit : Bool) (msg : PyValue) : Except PyExc (List PyValue) := do
  let err ← (msg.orElse (.dict [])).get (PyStr.ofString "error")
  let errors ← if err.truthy then (connectErrorString B err).map fun s => [errorChunk s] else .ok []
  return errors ++ if sawExit then [] else [exitChunk (.int 0)]

/-- The code of an `end` event. -/
def exitCode (code : PyValue) : Except PyExc PyValue :=
  match code with
  | .int _ | .bool _ => .ok code
  | _ =>
    match code.toInt B with
    | .ok n => .ok (.int n)
    | .error e => if e = .typeError ∨ e.isValueError then .ok (.int 0) else .error e

/-- The chunks of a data event. -/
def onData (data : PyValue) : Except PyExc (List PyValue) := do
  if ← data.contains (PyStr.ofString "stdout") then
    return [outputChunk "stdout" (b64Decode (← data.getItem (PyStr.ofString "stdout")))]
  else if ← data.contains (PyStr.ofString "stderr") then
    return [outputChunk "stderr" (b64Decode (← data.getItem (PyStr.ofString "stderr")))]
  else return []

/-- The chunks of any other message, and whether it tells that the process has ended; a `start` or a
`keepalive` event has none. -/
def onMessage (msg : PyValue) : Except PyExc (List PyValue × Bool) := do
  let event := (← (msg.orElse (.dict [])).get (PyStr.ofString "event")).orElse (.dict [])
  if ← event.contains (PyStr.ofString "data") then
    let data := (← event.getItem (PyStr.ofString "data")).orElse (.dict [])
    return (← onData data, false)
  else if ← event.contains (PyStr.ofString "end") then
    let end_ := (← event.getItem (PyStr.ofString "end")).orElse (.dict [])
    let code ← exitCode B ((← end_.get (PyStr.ofString "exit_code")).orElse (.int 0))
    return ([exitChunk code], true)
  else return ([], false)

/-- One envelope; the generator goes on with `saw_exit`, or it returns or raises. -/
def onEnvelope (sawExit : Bool) (e : ConnectEnvelope) : List PyValue × Flow Bool (Option PyExc) :=
  match decodeBody B e.body with
  | .error .jsonDecodeError => ([], .next sawExit)
  | .error exc => ([], .stop (some exc))
  | .ok msg =>
    if e.endsStream then
      match onEnd B sawExit msg with
      | .ok chunks => (chunks, .stop none)
      | .error exc => ([], .stop (some exc))
    else
      match onMessage B msg with
      | .ok (chunks, exited) => (chunks, .next (sawExit || exited))
      | .error exc => ([], .stop (some exc))

/-- How a generator has ended: with an exception, or without. -/
def Flow.exc {S : Type} : Flow S (Option PyExc) → Option PyExc
  | .next _ => none
  | .stop exc => exc

/-- `_decode_connect_stream`: the chunks it yields, and the exception it raises after them, if any. -/
def decodeConnectStream (pieces : List (List UInt8)) : List PyValue × Option PyExc :=
  let run := envelopes.feed (onEnvelope B) false [] pieces
  (run.1, run.2.exc)

end Decode

/-! ### What can be handled -/

/-- `value or {}` is a dict. -/
def PyValue.OrDict (value : PyValue) : Prop := value.truthy = true → ∃ entries, value = .dict entries

/-- `value.get(key)` of a dict; `None` for what is none. -/
def PyValue.field (key : String) : PyValue → PyValue
  | .dict entries => (entries.lookup (PyStr.ofString key)).getD .none
  | _ => .none

def PyValue.hasKey (key : String) : PyValue → Bool
  | .dict entries => entries.any (·.1 == PyStr.ofString key)
  | _ => false

/-- A dict, something falsy, or a list or string that none of the keys is in. -/
def PyValue.Indexable (keys : List String) : PyValue → Prop
  | .dict _ => True
  | .list xs => ∀ key ∈ keys, .str (PyStr.ofString key) ∉ xs
  | .str s => ∀ key ∈ keys, ¬ PyStr.ofString key <:+: s
  | value => value.truthy = false

/-- An infinite float. -/
def PyValue.Infinite (value : PyValue) : Prop := ∃ bits, value = .float bits ∧ bits.toNat % 2 ^ 63 = 2047 * 2 ^ 52

/-- The message of an end-of-stream envelope: an object, where its error is a string or an object. -/
structure EndShape (msg : PyValue) : Prop where
  orDict : msg.OrDict
  error : (msg.field "error").truthy = true →
    (∃ s, msg.field "error" = .str s) ∨ ∃ entries, msg.field "error" = .dict entries

/-- Any other message: an object, and so are its event and what is in the event, as far as they are looked at;
the exit code is not infinite. -/
structure MessageShape (msg : PyValue) : Prop where
  orDict : msg.OrDict
  event : (msg.field "event").Indexable ["data", "end"]
  data : (msg.field "event").hasKey "data" = true →
    ((msg.field "event").field "data").Indexable ["stdout", "stderr"]
  end_ : (msg.field "event").hasKey "data" = false → ((msg.field "event").field "end").OrDict ∧
    ¬ (((msg.field "event").field "end").field "exit_code").Infinite

namespace ConnectEnvelope

variable (B : Builtins)

/-- The body is no JSON. -/
def IsPassedOver (e : ConnectEnvelope) : Prop := decodeBody B e.body = .error .jsonDecodeError

/-- The body is empty, or it is UTF-8, and no JSON or a message of the right shape. -/
def IsTolerated (e : ConnectEnvelope) : Prop :=
  e.body = [] ∨ ∃ text, Utf8.decode e.body = some text ∧
    (loads B text = .error .jsonDecodeError ∨
      ∃ msg, loads B text = .ok msg ∧ if e.endsStream then EndShape msg else MessageShape msg)

end ConnectEnvelope

/-- The documented chunks. -/
inductive Documented : PyValue → Prop where
  | stdout (data : PyStr) : Documented (outputChunk "stdout" data)
  | stderr (data : PyStr) : Documented (outputChunk "stderr" data)
  | exit (n : Int) : Documented (exitChunk (.int n))
  | exitBool (b : Bool) : Documented (exitChunk (.bool b))
  | error (message : PyStr) : Documented (errorChunk message)

section Shape

variable {B : Builtins} {msg value : PyValue} {key key' : String} {α : Type}

@[simp] theorem field_pyDict_cons (key key' : String) (value : PyValue) (entries : List (String × PyValue)) :
    (pyDict ((key', value) :: entries)).field key = if key = key' then value else (pyDict entries).field key := by
  simp only [pyDict, List.map_cons, PyValue.field, List.lookup_cons]
  by_cases h : key = key'
  · rw [if_pos h, h, beq_self_eq_true]
    rfl
  · rw [if_neg h, beq_false_of_ne (mt PyStr.ofString_inj.mp h)]

@[simp] theorem field_pyDict_nil (key : String) : (pyDict []).field key = .none := rfl

@[simp] theorem hasKey_pyDict (key : String) (entries : List (String × PyValue)) :
    (pyDict entries).hasKey key = entries.any (·.1 == key) := by
  simp only [pyDict, PyValue.hasKey, List.any_map]
  refine congrArg entries.any (funext fun e => ?_)
  rw [Bool.eq_iff_iff, Function.comp_apply, beq_iff_eq, beq_iff_eq, PyStr.ofString_inj]

theorem get_of_orDict (h : value.OrDict) :
    (value.orElse (.dict [])).get (PyStr.ofString key) = .ok (value.field key) := by
  rw [PyValue.orElse]
  by_cases htruthy : value.truthy = true
  · obtain ⟨entries, rfl⟩ := h htruthy
    rw [if_pos htruthy]
    rfl
  · rw [if_neg htruthy]
    cases value
    case dict entries =>
      cases entries with
      | nil => rfl
      | cons => exact absurd rfl htruthy
    all_goals rfl

theorem get_of_not_orDict (h : ¬ value.OrDict) :
    (value.orElse (.dict [])).get (PyStr.ofString key) = .error .attributeError := by
  obtain ⟨htruthy, hdict⟩ := Classical.not_imp.mp h
  rw [PyValue.orElse, if_pos htruthy]
  cases value
  case dict entries => exact absurd ⟨entries, rfl⟩ hdict
  all_goals rfl

/-- `value[key]` for the first of two keys that is in the value. -/
def choose (value : PyValue) (key key' : String) (f f' : PyValue → Except PyExc α) (g : Except PyExc α) :
    Except PyExc α := do
  if ← value.contains (PyStr.ofString key) then f (← value.getItem (PyStr.ofString key))
  else if ← value.contains (PyStr.ofString key') then f' (← value.getItem (PyStr.ofString key'))
  else g

variable {f f' : PyValue → Except PyExc α} {g : Except PyExc α}

theorem any_isStr {xs : List PyValue} {s : PyStr} : xs.any (PyValue.isStr s) = true ↔ .str s ∈ xs := by
  rw [List.any_eq_true]
  constructor
  · rintro ⟨x, hx, heq⟩
    cases x
    case str t =>
      rw [PyValue.isStr, beq_iff_eq] at heq
      rwa [← heq]
    all_goals cases heq
  · intro h
    exact ⟨_, h, by simp [PyValue.isStr]⟩

theorem getItem_of_hasKey (h : value.hasKey key = true) :
    value.getItem (PyStr.ofString key) = .ok (value.field key) := by
  cases value
  case dict entries =>
    have hsome : (entries.lookup (PyStr.ofString key)).isSome = true := by
      induction entries with
      | nil => cases h
      | cons e entries ih =>
        rw [PyValue.hasKey, List.any_cons, Bool.or_eq_true] at h
        rw [List.lookup_cons]
        split
        · rfl
        · rename_i hne
          rcases h with h | h
          · rw [BEq.comm, hne] at h
            cases h
          · exact ih h
    obtain ⟨v, hv⟩ := Option.isSome_iff_exists.mp hsome
    rw [PyValue.getItem, hv, PyValue.field, hv]
    rfl
  all_goals cases h

theorem orElse_dict (entries : List (PyStr × PyValue)) :
    (PyValue.dict entries).orElse (.dict []) = .dict entries := by
  cases entries <;> rfl

theorem choose_dict (entries : List (PyStr × PyValue)) :
    choose (.dict entries) key key' f f' g =
      if (PyValue.dict entries).hasKey key then f ((PyValue.dict entries).field key)
      else if (PyValue.dict entries).hasKey key' then f' ((PyValue.dict entries).field key')
      else g := by
  have hcontains : ∀ key, (PyValue.dict entries).contains (PyStr.ofString key) =
      .ok ((PyValue.dict entries).hasKey key) := fun _ => rfl
  rw [choose, hcontains, hcontains]
  cases h : (PyValue.dict entries).hasKey key with
  | true =>
    rw [getItem_of_hasKey h]
    rfl
  | false =>
    cases h' : (PyValue.dict entries).hasKey key' with
    | true =>
      rw [getItem_of_hasKey h']
      rfl
    | false => rfl

/-- Where neither key is in a value that cannot be indexed by one, nothing is looked up. -/
theorem choose_of_contains (h : ∀ k ∈ [key, key'], value.contains (PyStr.ofString k) = .ok false) :
    choose value key key' f f' g = g := by
  rw [choose, h key List.mem_cons_self, h key' (List.mem_cons_of_mem _ List.mem_cons_self)]
  rfl

theorem choose_eq (h : value.Indexable [key, key']) :
    choose (value.orElse (.dict [])) key key' f f' g =
      if value.hasKey key then f (value.field key)
      else if value.hasKey key' then f' (value.field key')
      else g := by
  cases value
  case dict entries =>
    rw [orElse_dict]
    exact choose_dict entries
  case list xs =>
    cases xs with
    | nil => exact choose_dict []
    | cons x xs =>
      refine choose_of_contains fun k hk => ?_
      have hnot := h k hk
      rw [← any_isStr, Bool.not_eq_true] at hnot
      exact congrArg Except.ok hnot
  case str s =>
    cases s with
    | nil => exact choose_dict []
    | cons c s =>
      refine choose_of_contains fun k hk => ?_
      exact congrArg Except.ok (decide_eq_false (h k hk))
  all_goals
    rw [PyValue.orElse, if_neg (by simpa [PyValue.Indexable] using h)]
    exact choose_dict []

/-- Where one of the keys is in a value that cannot be indexed by it, or nothing can be in the value, looking
it up raises. -/
theorem choose_error (hkeys : ∀ k ∈ [key, key'], PyStr.ofString k ≠ []) (h : ¬ value.Indexable [key, key']) :
    choose (value.orElse (.dict [])) key key' f f' g = .error .typeError := by
  have hfound : (∀ k, value.getItem (PyStr.ofString k) = .error .typeError) →
      (∀ k, ∃ b, value.contains (PyStr.ofString k) = .ok b) →
      (∃ k ∈ [key, key'], value.contains (PyStr.ofString k) = .ok true) →
      choose value key key' f f' g = .error .typeError := by
    intro hitem hcontains hkey
    obtain ⟨b, hb⟩ := hcontains key
    cases b with
    | true =>
      rw [choose, hb, hitem]
      rfl
    | false =>
      obtain ⟨k, hk, htrue⟩ := hkey
      rcases List.mem_pair.mp hk with rfl | rfl
      · rw [htrue] at hb
        cases hb
      · rw [choose, hb, htrue, hitem key, hitem k]
        rfl
  cases value
  case dict => exact absurd trivial h
  case list xs =>
    obtain ⟨k, hk, hmem⟩ : ∃ k ∈ [key, key'], .str (PyStr.ofString k) ∈ xs := by
      rw [PyValue.Indexable] at h
      push Not at h
      exact h
    rw [PyValue.orElse, if_pos (by cases xs with | nil => cases hmem | cons => rfl)]
    exact hfound (fun _ => rfl) (fun _ => ⟨_, rfl⟩) ⟨k, hk, congrArg Except.ok (any_isStr.mpr hmem)⟩
  case str s =>
    obtain ⟨k, hk, hinfix⟩ : ∃ k ∈ [key, key'], PyStr.ofString k <:+: s := by
      rw [PyValue.Indexable] at h
      push Not at h
      exact h
    have hs : s ≠ [] := by
      rintro rfl
      exact hkeys k hk (List.infix_nil.mp hinfix)
    rw [PyValue.orElse, if_pos (by simpa [PyValue.truthy] using hs)]
    exact hfound (fun _ => rfl) (fun _ => ⟨_, rfl⟩) ⟨k, hk, congrArg Except.ok (decide_eq_true hinfix)⟩
  all_goals
    rw [PyValue.orElse, if_pos (by simpa [PyValue.Indexable] using h)]
    rfl

end Shape

end Krewhub
