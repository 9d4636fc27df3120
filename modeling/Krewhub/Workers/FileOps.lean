import Krewhub.E2b.Tolerance
import Krewhub.Workers.Consume

/-!
# Operations on a sandbox

`_parse_op` makes an operation of what an agent delegates to a sandbox, and `_classify_bytes` says in which
encoding the bytes of a file are sent back. The two agree: a file that is written from the response to a read
has the bytes that were read.
-/

namespace Krewhub

/-- `_OpExec`, `_OpWrite`, `_OpRead` and `_OpList`. -/
inductive DelegatedOp where
  | exec (command : PyStr) (cwd : Option PyStr) (env : Option (List (PyStr × PyValue)))
  | write (path : PyStr) (data : List UInt8)
  | read (path : PyStr)
  | list (path : PyStr) (depth : Int)

/-- What CPython says of a text that is no base64. -/
def Base64.Malformed.why : Base64.Malformed → String
  | leadingPadding => "Leading padding not allowed"
  | excessData => "Excess data after padding"
  | notBase64 => "Only base64 data is allowed"
  | discontinuousPadding => "Discontinuous padding not allowed"
  | oneMore => "Invalid base64-encoded string: number of data characters cannot be 1 more than a multiple of 4"
  | incorrectPadding => "Incorrect padding"

/-- `base64.b64decode(raw, validate=True)` of the characters of a text. -/
def b64DecodeStrict (cs : List Char) : Except PyExc (List UInt8) :=
  match Base64.decode true cs with
  | .ok bs => .ok bs
  | .error malformed => .error (.binasciiError malformed.why)

section Parse

variable (B : Builtins) (texts : ErrorTexts)

def parseExec (input : PyValue) : Except PyStr DelegatedOp :=
  let command := ((input.field "command").orElse (.str [])).text B
  if command.isEmpty then .error (PyStr.ofString "empty_command: SandboxHand exec requires a non-empty command")
  else
    let cwd := match input.field "cwd" with
      | .none => none
      | cwd => some (cwd.text B)
    let env := match input.field "env" with
      | .dict env => some env
      | _ => none
    .ok (.exec command cwd env)

/-- `path`, where it is a string that is not empty. -/
def pathOf (input : PyValue) : Option PyStr :=
  match input.field "path" with
  | .str path => if path.isEmpty then none else some path
  | _ => none

/-- The bytes of the data in an encoding; the first error is a reason that is returned, the second an exception. -/
def dataBytes (encoding : PyStr) (raw : PyValue) : Except (PyStr ⊕ PyExc) (List UInt8) :=
  if encoding = PyStr.ofString "base64" then
    match raw with
    | .str s =>
      match s.ascii with
      | none => .error (.inr .valueError)
      | some cs => (b64DecodeStrict cs).mapError .inr
    | .bytes bs => (b64DecodeStrict (bs.map fun b => Char.ofNat b.toNat)).mapError .inr
    | _ => .error (.inl (PyStr.ofString "bad_data: base64 'data' must be string"))
  else if encoding = PyStr.ofString "utf-8" then
    match raw with
    | .bytes bs => .ok bs
    | raw =>
      match PyStr.encode (raw.text B) with
      | none => .error (.inr .unicodeEncodeError)
      | some bs => .ok bs
  else
    .error (.inl (PyStr.ofString "bad_encoding: '" ++ encoding ++ PyStr.ofString "' (expected 'utf-8' or 'base64')"))

def parseWrite (input : PyValue) : Except PyStr DelegatedOp :=
  match pathOf input with
  | none => .error (PyStr.ofString "missing_path: write op requires 'path' string")
  | some path =>
    if input.hasKey "data" then
      let encoding := B.lower (((input.field "encoding").orElse (.str (PyStr.ofString "utf-8"))).text B)
      match dataBytes B encoding (input.field "data") with
      | .ok data => .ok (.write path data)
      | .error (.inl reason) => .error reason
      | .error (.inr exc) => .error (PyStr.ofString "bad_data: " ++ texts.exception exc)
    else .error (PyStr.ofString "missing_data: write op requires 'data' field")

def parseRead (input : PyValue) : Except PyStr DelegatedOp :=
  match pathOf input with
  | none => .error (PyStr.ofString "missing_path: read op requires 'path' string")
  | some path => .ok (.read path)

/-- The operation that lists a directory; an infinite depth is not caught. -/
def parseList (input : PyValue) : Except PyExc (Except PyStr DelegatedOp) :=
  match pathOf input with
  | none => .ok (.error (PyStr.ofString "missing_path: list op requires 'path' string"))
  | some path =>
    let depth := if input.hasKey "depth" then input.field "depth" else .int 1
    match depth.toInt B with
    | .ok n => .ok (.ok (.list path (max 1 n)))
    | .error exc => if exc = .typeError ∨ exc.isValueError then .ok (.ok (.list path 1)) else .error exc

/-- `_parse_op`: the operation, or the reason why there is none; or what it raises. -/
def parseOp (input : PyValue) : Except PyExc (Except PyStr DelegatedOp) :=
  match input with
  | .str command => .ok (.ok (.exec command none none))
  | .dict _ =>
    let op := B.lower (((input.field "op").orElse (.str (PyStr.ofString "exec"))).text B)
    if op = PyStr.ofString "exec" then .ok (parseExec B input)
    else if op = PyStr.ofString "write" then .ok (parseWrite B texts input)
    else if op = PyStr.ofString "read" then .ok (parseRead input)
    else if op = PyStr.ofString "list" then parseList B input
    else
      .ok (.error (PyStr.ofString "unknown_op: '" ++ op ++
        PyStr.ofString "' (expected 'exec', 'write', 'read', or 'list')"))
  | _ => .ok (.error (PyStr.ofString "bad_input: input must be a string or object"))

end Parse

/-- `_classify_bytes`. -/
def classifyBytes (data : List UInt8) : PyStr × String :=
  if 0 ∈ data then (PyStr.ofChars (Base64.encode data), "base64")
  else
    match PyStr.decode data with
    | some text => (text, "utf-8")
    | none => (PyStr.ofChars (Base64.encode data), "base64")

/-- The bytes that a text in an encoding stands for, to one who reads it. -/
def decodeData (text : PyStr) (encoding : String) : Option (List UInt8) :=
  if encoding = "base64" then text.ascii.bind fun cs => (Base64.decode true cs).toOption
  else text.encode

/-- A write operation with these fields, and perhaps others. -/
structure WriteInput (path text : PyStr) (encoding : String) (input : PyValue) : Prop where
  isDict : ∃ entries, input = .dict entries
  op : input.field "op" = .str (PyStr.ofString "write")
  path : input.field "path" = .str path
  data : input.field "data" = .str text
  encoding : input.field "encoding" = .str (PyStr.ofString encoding)

section Classify

variable {B : Builtins} {texts : ErrorTexts} {path : PyStr} {data : List UInt8} {input : PyValue}

/-- Bytes are sent as the text whose encoding they are, or in base64. -/
theorem classifyBytes_cases (data : List UInt8) :
    (∃ s, data = Utf8.encode s ∧ classifyBytes data = (PyStr.ofChars s, "utf-8")) ∨
      classifyBytes data = (PyStr.ofChars (Base64.encode data), "base64") := by
  rw [classifyBytes]
  split
  · exact .inr rfl
  · rw [PyStr.decode]
    cases h : Utf8.decode data with
    | none => exact .inr rfl
    | some s => exact .inl ⟨s, Utf8.decode_eq_some_iff.mp h, rfl⟩

theorem encoding_classifyBytes (data : List UInt8) :
    (classifyBytes data).2 = "utf-8" ∨ (classifyBytes data).2 = "base64" := by
  rcases classifyBytes_cases data with ⟨s, -, heq⟩ | heq
  · exact .inl (congrArg Prod.snd heq)
  · exact .inr (congrArg Prod.snd heq)

theorem decodeData_classifyBytes (data : List UInt8) :
    decodeData (classifyBytes data).1 (classifyBytes data).2 = some data := by
  rcases classifyBytes_cases data with ⟨s, rfl, heq⟩ | heq
  · rw [heq]
    exact PyStr.encode_ofChars s
  · rw [heq, decodeData, if_pos rfl, PyStr.ascii_ofChars fun c => Base64.toNat_lt_of_mem_encode,
      Option.bind_some, Base64.decode_encode]
    rfl

theorem dataBytes_classifyBytes (data : List UInt8) :
    dataBytes B (PyStr.ofString (classifyBytes data).2) (.str (classifyBytes data).1) = .ok data := by
  rcases classifyBytes_cases data with ⟨s, rfl, heq⟩ | heq
  · rw [heq, dataBytes, if_neg (by simp), if_pos rfl]
    dsimp only [PyValue.text]
    rw [PyStr.encode_ofChars]
  · rw [heq, dataBytes, if_pos rfl]
    dsimp only
    rw [PyStr.ascii_ofChars fun c => Base64.toNat_lt_of_mem_encode]
    dsimp only
    rw [b64DecodeStrict, Base64.decode_encode]
    rfl

theorem orElse_str {s : String} (hs : s ≠ "") (default : PyValue) :
    (PyValue.str (PyStr.ofString s)).orElse default = .str (PyStr.ofString s) := by
  refine if_pos ?_
  rw [PyValue.truthy, Bool.not_eq_true', List.isEmpty_eq_false_iff]
  intro hnil
  exact hs (PyStr.ofString_inj.mp hnil)

theorem lower_of_lowered {s : String} (hascii : s.toList.all (fun c => c.toNat < 128) = true)
    (hlower : s.toList.map Char.toLower = s.toList) : B.lower (PyStr.ofString s) = PyStr.ofString s := by
  have hchars : ∀ c ∈ s.toList, c.toNat < 128 := fun c hc => of_decide_eq_true (List.all_eq_true.mp hascii c hc)
  rw [B.lower_ascii s hchars, hlower]
  rfl

theorem hasKey_of_field {key : String} (h : input.field key ≠ .none) : input.hasKey key = true := by
  by_contra hkey
  exact h (field_of_not_hasKey (Bool.eq_false_iff.mpr hkey))

theorem parseOp_of_writeInput (hpath : path ≠ [])
    (h : WriteInput path (classifyBytes data).1 (classifyBytes data).2 input) :
    parseOp B texts input = .ok (.ok (.write path data)) := by
  have hop : B.lower (((input.field "op").orElse (.str (PyStr.ofString "exec"))).text B) = PyStr.ofString "write" := by
    rw [h.op, orElse_str (by decide)]
    exact lower_of_lowered (by decide) (by decide)
  have hencoding : B.lower (((input.field "encoding").orElse (.str (PyStr.ofString "utf-8"))).text B) =
      PyStr.ofString (classifyBytes data).2 := by
    rw [h.encoding]
    rcases encoding_classifyBytes data with heq | heq
    · rw [heq, orElse_str (by decide)]
      exact lower_of_lowered (by decide) (by decide)
    · rw [heq, orElse_str (by decide)]
      exact lower_of_lowered (by decide) (by decide)
  have hpathOf : pathOf input = some path := by
    rw [pathOf, h.path]
    exact if_neg (by simpa using hpath)
  have hdata : input.hasKey "data" = true := hasKey_of_field (by rw [h.data]; nofun)
  have hwrite : parseWrite B texts input = .ok (.write path data) := by
    rw [parseWrite, hpathOf]
    dsimp only
    rw [if_pos hdata, hencoding, h.data, dataBytes_classifyBytes]
  obtain ⟨entries, rfl⟩ := h.isDict
  rw [parseOp, hop, if_neg (by simp), if_pos rfl, hwrite]

theorem ne_nil_of_pathOf (h : pathOf input = some path) : path ≠ [] := by
  rw [pathOf] at h
  split at h
  · split at h
    · cases h
    · rename_i hne
      obtain rfl := Option.some.inj h
      simpa using hne
  · cases h

theorem parseExec_ne_write : parseExec B input ≠ .ok (.write path data) := by
  rw [parseExec]
  dsimp only
  split <;> nofun

theorem parseRead_ne_write : parseRead input ≠ .ok (.write path data) := by
  rw [parseRead]
  split <;> nofun

theorem parseList_ne_write : parseList B input ≠ .ok (.ok (.write path data)) := by
  rw [parseList]
  split
  · nofun
  · dsimp only
    split
    · nofun
    · split <;> nofun

/-- A write is accepted by `parseWrite` only. -/
theorem parseWrite_of_parseOp (h : parseOp B texts input = .ok (.ok (.write path data))) :
    parseWrite B texts input = .ok (.write path data) := by
  cases input
  case dict entries =>
    rw [parseOp] at h
    split at h
    · exact absurd (Except.ok.inj h) parseExec_ne_write
    · split at h
      · exact Except.ok.inj h
      · split at h
        · exact absurd (Except.ok.inj h) parseRead_ne_write
        · split at h
          · exact absurd h parseList_ne_write
          · cases h
  all_goals cases h

/-- The path of a write that is accepted is not empty. -/
theorem ne_nil_of_parseOp (h : parseOp B texts input = .ok (.ok (.write path data))) : path ≠ [] := by
  have hwrite := parseWrite_of_parseOp h
  rw [parseWrite] at hwrite
  split at hwrite
  · cases hwrite
  · rename_i path' hpath
    split at hwrite
    · dsimp only at hwrite
      split at hwrite
      · injection hwrite with hwrite
        injection hwrite with hwrite
        exact hwrite ▸ ne_nil_of_pathOf hpath
      · cases hwrite
      · cases hwrite
    · cases hwrite

end Classify

/-- **What is written from the response to a read is what has been read**; and the bytes of a write that is
accepted are read back, to the reader and to who writes them once more. -/
theorem read_then_write (B : Builtins) (texts : ErrorTexts) :
    (∀ (d : List UInt8) (path : PyStr) (input : PyValue), path ≠ [] →
        WriteInput path (classifyBytes d).1 (classifyBytes d).2 input →
        parseOp B texts input = .ok (.ok (.write path d))) ∧
      ∀ (input : PyValue) (path : PyStr) (d : List UInt8), parseOp B texts input = .ok (.ok (.write path d)) →
        decodeData (classifyBytes d).1 (classifyBytes d).2 = some d ∧
          ∀ input', WriteInput path (classifyBytes d).1 (classifyBytes d).2 input' →
            parseOp B texts input' = .ok (.ok (.write path d)) :=
  ⟨fun _ _ _ hpath h => parseOp_of_writeInput hpath h,
    fun _ _ d h => ⟨decodeData_classifyBytes d, fun _ => parseOp_of_writeInput (ne_nil_of_parseOp h)⟩⟩

theorem read_then_write_nul :
    parseOp Builtins.plain ⟨fun _ => [], fun _ => []⟩
        (pyDict [("op", .str (PyStr.ofString "write")), ("path", .str (PyStr.ofString "a")),
          ("data", .str (classifyBytes [0, 0xff]).1), ("encoding", .str (PyStr.ofString (classifyBytes [0, 0xff]).2))]) =
      .ok (.ok (.write (PyStr.ofString "a") [0, 0xff])) :=
  (read_then_write _ _).1 _ _ _ (by decide)
    ⟨⟨_, rfl⟩, by simp, by simp, by simp, by simp⟩

end Krewhub
