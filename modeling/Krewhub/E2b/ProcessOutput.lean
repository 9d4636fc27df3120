import Krewhub.E2b.Tolerance
import Krewhub.Workers.Consume

/-!
# The output of a process

A process writes bytes to two streams, and envd sends them in pieces, cut where it likes. The decoder makes a text
of each piece by itself, so that the texts of a stream add up to what has been written exactly where no cut is
within a character.
-/

namespace Krewhub

inductive OutStream where
  | stdout
  | stderr
  deriving DecidableEq, Repr

def OutStream.name : OutStream → String
  | stdout => "stdout"
  | stderr => "stderr"

/-- What envd tells of a process while it runs. -/
inductive ProcessEvent where
  | start (value : PyValue)
  | keepalive (value : PyValue)
  | data (stream : OutStream) (piece : List UInt8)

namespace ProcessEvent

/-- The message of an event; bytes are sent in base64. -/
def message : ProcessEvent → PyValue
  | start value => pyDict [("event", pyDict [("start", value)])]
  | keepalive value => pyDict [("event", pyDict [("keepalive", value)])]
  | data stream piece =>
    pyDict [("event", pyDict [("data", pyDict [(stream.name, .str (PyStr.ofChars (Base64.encode piece)))])])]

/-- The chunks that are yielded for an event. -/
def chunks : ProcessEvent → List PyValue
  | data stream piece => [outputChunk stream.name (PyStr.decodeReplace piece)]
  | _ => []

end ProcessEvent

/-- The message that the process has ended. -/
def endMessage (entries : List (PyStr × PyValue)) : PyValue := pyDict [("event", pyDict [("end", .dict entries)])]

/-- The envelope carries a message. -/
def ConnectEnvelope.Carries (B : Builtins) (msg : PyValue) (e : ConnectEnvelope) : Prop :=
  e.endsStream = false ∧ decodeBody B e.body = .ok msg

/-- A response of envd: some events, the end of the process, and an end-of-stream envelope without an error. -/
def Response (B : Builtins) (events : List ProcessEvent) (es : List ConnectEnvelope) : Prop :=
  ∃ running entries ended last, es = running ++ [ended, last] ∧
    List.Forall₂ (fun event e => e.Carries B event.message) events running ∧
    ended.Carries B (endMessage entries) ∧ ¬ ((PyValue.dict entries).field "exit_code").Infinite ∧
    last.endsStream = true ∧ decodeBody B last.body = .ok (.dict [])

/-- The pieces of what has been written to a stream. -/
def piecesOf (stream : OutStream) (events : List ProcessEvent) : List (List UInt8) :=
  events.flatMap fun
    | .data stream' piece => if stream' = stream then [piece] else []
    | _ => []

/-- The texts of a stream among some chunks, one after the other. -/
def textOf (stream : OutStream) (chunks : List PyValue) : PyStr :=
  chunks.flatMap fun chunk =>
    match chunk.field "stream", chunk.field "data" with
    | .str name, .str data => if name = PyStr.ofString stream.name then data else []
    | _, _ => []

/-- The texts of a stream among the output events on the tape. -/
def tapeTextOf (stream : OutStream) (outputs : List (PyStr × PyStr)) : PyStr :=
  outputs.flatMap fun output => if output.1 = PyStr.ofString stream.name then output.2 else []

section Decode

variable {B : Builtins} {e : ConnectEnvelope} {es : List ConnectEnvelope} {events : List ProcessEvent}

theorem b64Decode_encode (piece : List UInt8) :
    b64Decode (.str (PyStr.ofChars (Base64.encode piece))) = PyStr.decodeReplace piece := by
  rw [b64Decode, PyStr.ascii_ofChars fun c => Base64.toNat_lt_of_mem_encode]
  dsimp only
  rw [Base64.decode_encode]

theorem choose_pyDict {α : Type} (entries : List (String × PyValue)) (key key' : String)
    (f f' : PyValue → Except PyExc α) (g : Except PyExc α) :
    choose ((pyDict entries).orElse (.dict [])) key key' f f' g =
      if (pyDict entries).hasKey key then f ((pyDict entries).field key)
      else if (pyDict entries).hasKey key' then f' ((pyDict entries).field key')
      else g :=
  choose_eq trivial

theorem onMessage_event (entries : List (String × PyValue)) :
    onMessage B (pyDict [("event", pyDict entries)]) =
      if (pyDict entries).hasKey "data" then onDataEvent ((pyDict entries).field "data")
      else if (pyDict entries).hasKey "end" then onEndEvent B ((pyDict entries).field "end")
      else .ok ([], false) := by
  have horDict : (pyDict [("event", pyDict entries)]).OrDict := fun _ => ⟨_, rfl⟩
  rw [onMessage_eq horDict, field_pyDict_cons, if_pos rfl, choose_pyDict]

theorem onMessage_message (event : ProcessEvent) : onMessage B event.message = .ok (event.chunks, false) := by
  cases event with
  | start value => simp [ProcessEvent.message, onMessage_event, ProcessEvent.chunks]
  | keepalive value => simp [ProcessEvent.message, onMessage_event, ProcessEvent.chunks]
  | data stream piece =>
    have hdata : ∀ value, onData ((pyDict [(stream.name, value)]).orElse (.dict [])) =
        .ok [outputChunk stream.name (b64Decode value)] := by
      intro value
      refine (choose_pyDict [(stream.name, value)] "stdout" "stderr"
        (fun value => .ok [outputChunk "stdout" (b64Decode value)])
        (fun value => .ok [outputChunk "stderr" (b64Decode value)]) (.ok [])).trans ?_
      cases stream <;> simp [OutStream.name]
    rw [ProcessEvent.message, onMessage_event]
    simp only [hasKey_pyDict, List.any_cons, beq_self_eq_true, Bool.true_or, if_true, field_pyDict_cons]
    rw [onDataEvent, hdata, b64Decode_encode]
    rfl

theorem deliver_running {running : List ConnectEnvelope}
    (h : List.Forall₂ (fun event e => e.Carries B event.message) events running) :
    Framing.deliver (onEnvelope B) false running = (events.flatMap ProcessEvent.chunks, .next false) := by
  induction h with
  | nil => rfl
  | cons hcarries _ ih =>
    rw [Framing.deliver, onEnvelope_of_not_ends hcarries.2 (by simp [hcarries.1]), onMessage_message]
    dsimp only [Bool.or_false]
    rw [Bool.or_false, ih, List.flatMap_cons]

theorem decodeConnectStream_response {pieces : List (List UInt8)}
    (h : Response B events (envelopes.frames pieces.flatten)) :
    ∃ code, decodeConnectStream B pieces = (events.flatMap ProcessEvent.chunks ++ [exitChunk code], none) := by
  obtain ⟨running, entries, ended, last, hes, hrunning, hended, hfinite, hends, hlast⟩ := h
  obtain ⟨code, hcode, -⟩ := exitCode_of_not_infinite (B := B) hfinite
  have hmessage : onMessage B (endMessage entries) = .ok ([exitChunk code], true) := by
    rw [endMessage, onMessage_event]
    simp only [hasKey_pyDict, List.any_cons, List.any_nil, field_pyDict_cons, if_true, Bool.or_false,
      beq_eq_decide, String.reduceEq, decide_false, Bool.false_eq_true, if_false]
    have horDict : (PyValue.dict entries).OrDict := fun _ => ⟨_, rfl⟩
    rw [onEndEvent, get_of_orDict horDict]
    dsimp only [bind, Except.bind]
    rw [hcode]
    rfl
  refine ⟨code, ?_⟩
  rw [decodeConnectStream_eq, hes, Framing.deliver_append, deliver_running hrunning]
  dsimp only
  rw [Framing.deliver, onEnvelope_of_not_ends hended.2 (by simp [hended.1]), hmessage]
  dsimp only
  rw [Framing.deliver, onEnvelope_of_ends hlast hends]
  rfl

end Decode

section Texts

variable {stream : OutStream} {B : Builtins} {texts : ErrorTexts} {events : List ProcessEvent}

@[simp] theorem textOf_append (chunks chunks' : List PyValue) :
    textOf stream (chunks ++ chunks') = textOf stream chunks ++ textOf stream chunks' := List.flatMap_append

@[simp] theorem tapeTextOf_append (outputs outputs' : List (PyStr × PyStr)) :
    tapeTextOf stream (outputs ++ outputs') = tapeTextOf stream outputs ++ tapeTextOf stream outputs' :=
  List.flatMap_append

theorem OutStream.name_inj {stream stream' : OutStream} : stream.name = stream'.name ↔ stream = stream' := by
  cases stream <;> cases stream' <;> simp [OutStream.name]

theorem textOf_outputChunk (stream' : OutStream) (data : PyStr) :
    textOf stream [outputChunk stream'.name data] = if stream' = stream then data else [] := by
  simp [textOf, outputChunk, OutStream.name_inj]

theorem textOf_exitChunk (code : PyValue) : textOf stream [exitChunk code] = [] := by
  simp [textOf, exitChunk]

theorem textOf_chunks (stream : OutStream) (events : List ProcessEvent) :
    textOf stream (events.flatMap ProcessEvent.chunks) = (piecesOf stream events).flatMap PyStr.decodeReplace := by
  induction events with
  | nil => rfl
  | cons event events ih =>
    have hcons : piecesOf stream (event :: events) = piecesOf stream [event] ++ piecesOf stream events :=
      (List.flatMap_append : ([event] ++ events).flatMap _ = _)
    rw [List.flatMap_cons, textOf_append, ih, hcons, List.flatMap_append]
    refine congrArg (· ++ _) ?_
    cases event with
    | start => rfl
    | keepalive => rfl
    | data stream' piece =>
      rw [ProcessEvent.chunks, textOf_outputChunk, piecesOf, List.flatMap_singleton]
      dsimp only
      split
      · rw [List.flatMap_singleton]
      · rfl

variable (stream B texts) in
/-- A chunk of output is put on the tape, unless it is empty. -/
theorem chunk_outputChunk (c : Consumed) (stream' : OutStream) (data : PyStr) :
    ∃ c', c.chunk B texts (outputChunk stream'.name data) = .next c' ∧
      tapeTextOf stream c'.outputs = tapeTextOf stream c.outputs ++ textOf stream [outputChunk stream'.name data] := by
  have hstream : (outputChunk stream'.name data).field "stream" = .str (PyStr.ofString stream'.name) := by
    simp [outputChunk]
  have hdata : (outputChunk stream'.name data).field "data" = .str data := by simp [outputChunk]
  have hknown : (PyValue.isStr (PyStr.ofString "stdout") (.str (PyStr.ofString stream'.name)) ||
      PyValue.isStr (PyStr.ofString "stderr") (.str (PyStr.ofString stream'.name))) = true := by
    cases stream' <;> simp [PyValue.isStr, OutStream.name]
  have hnext : c.chunk B texts (outputChunk stream'.name data) =
      if data = [] then .next c else .next (c.output (PyStr.ofString stream'.name) data) := by
    rw [Consumed.chunk, if_neg (by simp [outputChunk]), if_neg (by simp [outputChunk]), hdata, hstream, hknown]
    cases data <;> rfl
  rw [hnext, textOf_outputChunk]
  by_cases hnil : data = []
  · refine ⟨c, if_pos hnil, ?_⟩
    rw [hnil, ite_self, List.append_nil]
  · refine ⟨_, if_neg hnil, ?_⟩
    rw [Consumed.output, tapeTextOf_append]
    refine congrArg _ ?_
    simp [tapeTextOf, OutStream.name_inj]

variable (B texts) in
theorem chunk_exitChunk (c : Consumed) (code : PyValue) :
    ∃ c', c.chunk B texts (exitChunk code) = .stop c' ∧ c'.outputs = c.outputs := by
  have hkey : (exitChunk code).hasKey "exit_code" = true := by simp [exitChunk]
  have hfield : (exitChunk code).field "exit_code" = code := by simp [exitChunk]
  rw [Consumed.chunk, if_pos hkey, hfield]
  cases code.toInt B with
  | ok n => exact ⟨_, rfl, rfl⟩
  | error exc =>
    dsimp only
    split
    · exact ⟨_, rfl, rfl⟩
    · exact ⟨_, rfl, rfl⟩

theorem tapeTextOf_consume (c : Consumed) (n : Nat) (code : PyValue) :
    tapeTextOf stream
        (Consumed.consume B texts (fun _ => false) none c n (events.flatMap ProcessEvent.chunks ++ [exitChunk code])).outputs =
      tapeTextOf stream c.outputs ++ textOf stream (events.flatMap ProcessEvent.chunks) := by
  induction events generalizing c n with
  | nil =>
    obtain ⟨c', heq, houtputs⟩ := chunk_exitChunk B texts c code
    rw [List.flatMap_nil, List.nil_append, Consumed.consume, if_neg Bool.false_ne_true, heq]
    dsimp only
    rw [houtputs]
    exact (List.append_nil _).symm
  | cons event events ih =>
    cases event with
    | start => exact ih c n
    | keepalive => exact ih c n
    | data stream' piece =>
      obtain ⟨c', heq, houtputs⟩ := chunk_outputChunk stream B texts c stream' (PyStr.decodeReplace piece)
      rw [List.flatMap_cons, ProcessEvent.chunks, List.singleton_append, List.cons_append, Consumed.consume,
        if_neg Bool.false_ne_true, heq]
      dsimp only
      rw [ih, houtputs, List.append_assoc, ← textOf_append, List.singleton_append]

end Texts

/-- **The texts of a stream add up to what has been written to it**, as they are yielded and on the tape, exactly
where each piece holds whole characters. -/
theorem output_faithful_iff {B : Builtins} {events : List ProcessEvent} {pieces : List (List UInt8)}
    {stream : OutStream} {s : List Char} (texts : ErrorTexts)
    (hresponse : Response B events (envelopes.frames pieces.flatten))
    (hwritten : (piecesOf stream events).flatten = Utf8.encode s) :
    (textOf stream (decodeConnectStream B pieces).1 = PyStr.ofChars s ↔
        ∀ piece ∈ piecesOf stream events, Utf8.Valid piece) ∧
      (tapeTextOf stream (Consumed.consume B texts (fun _ => false) (decodeConnectStream B pieces).2 {} 0
          (decodeConnectStream B pieces).1).outputs = PyStr.ofChars s ↔
        ∀ piece ∈ piecesOf stream events, Utf8.Valid piece) := by
  obtain ⟨code, heq⟩ := decodeConnectStream_response hresponse
  have htext : textOf stream (events.flatMap ProcessEvent.chunks) = PyStr.ofChars s ↔
      ∀ piece ∈ piecesOf stream events, Utf8.Valid piece := by
    have hdecode : (piecesOf stream events).flatMap PyStr.decodeReplace =
        PyStr.ofChars ((piecesOf stream events).flatMap Utf8.decodeReplace) := List.map_flatMap.symm
    rw [textOf_chunks, ← Utf8.flatMap_decodeReplace_eq_iff hwritten, hdecode, PyStr.ofChars_injective.eq_iff]
  rw [heq, textOf_append, textOf_exitChunk, List.append_nil, tapeTextOf_consume]
  exact ⟨htext, htext⟩

section Samples

/-- An envelope with a data event that has this base64 text. -/
def sampleData (text : String) : ConnectEnvelope :=
  ⟨0, Utf8.encode ("\x7b\"event\":\x7b\"data\":\x7b\"stdout\":\"" ++ text ++ "\"\x7d\x7d\x7d").toList⟩

/-- A response with these data events. -/
def sampleResponse (texts : List String) : List ConnectEnvelope :=
  texts.map sampleData ++
    [⟨0, Utf8.encode "\x7b\"event\":\x7b\"end\":\x7b\"exit_code\":0\x7d\x7d\x7d".toList⟩, ⟨2, []⟩]

/-- The bodies of these data events say what these pieces are. -/
def Samples (cut : List (List UInt8)) (texts : List String) : Prop :=
  List.Forall₂ (fun piece text =>
    decodeBody Builtins.plain (sampleData text).body = .ok (ProcessEvent.message (.data .stdout piece))) cut texts

theorem response_sample {cut : List (List UInt8)} {texts : List String} (hcut : Samples cut texts)
    (hlength : ∀ e ∈ sampleResponse texts, e.body.length < 2 ^ 32) :
    Response Builtins.plain (cut.map (.data .stdout))
      (envelopes.frames [(sampleResponse texts).flatMap ConnectEnvelope.pack].flatten) := by
  rw [List.flatten_singleton, ConnectEnvelope.frames_pack hlength]
  refine ⟨texts.map sampleData, [(PyStr.ofString "exit_code", .int 0)], _, _, rfl, ?_, ⟨rfl, ?_⟩, ?_, rfl, rfl⟩
  · rw [List.forall₂_map_left_iff, List.forall₂_map_right_iff]
    exact hcut.imp fun _ _ hbody => ⟨by simp [sampleData, ConnectEnvelope.endsStream], hbody⟩
  · with_unfolding_all rfl
  · rintro ⟨bits, hbits, -⟩
    simp [PyValue.field] at hbits

theorem samples_whole : Samples [[0xc3, 0xa9]] ["w6k="] := by
  refine .cons ?_ .nil
  with_unfolding_all rfl

theorem samples_cut : Samples [[0xc3], [0xa9]] ["ww==", "qQ=="] := by
  refine .cons ?_ (.cons ?_ .nil)
  · with_unfolding_all rfl
  · with_unfolding_all rfl

end Samples

theorem output_faithful_whole :
    textOf .stdout (decodeConnectStream Builtins.plain [(sampleResponse ["w6k="]).flatMap ConnectEnvelope.pack]).1 =
      PyStr.ofChars ['é'] := by
  have hresponse := response_sample samples_whole (by decide +kernel)
  refine (output_faithful_iff ⟨fun _ => [], fun _ => []⟩ hresponse (by decide +kernel)).1.mpr fun piece hpiece => ?_
  rw [List.mem_singleton.mp hpiece]
  exact ⟨['é'], by decide +kernel⟩

/-- A character of two bytes, sent in two pieces. -/
theorem output_cut_within_character :
    ¬ ∀ (B : Builtins) (events : List ProcessEvent) (pieces : List (List UInt8)) (stream : OutStream) (s : List Char),
      Response B events (envelopes.frames pieces.flatten) → (piecesOf stream events).flatten = Utf8.encode s →
      textOf stream (decodeConnectStream B pieces).1 = PyStr.ofChars s := by
  intro h
  have hresponse := response_sample samples_cut (by decide +kernel)
  have htext := h _ _ _ .stdout ['é'] hresponse (by decide +kernel)
  obtain ⟨code, heq⟩ := decodeConnectStream_response hresponse
  rw [heq, textOf_append, textOf_exitChunk, List.append_nil, textOf_chunks] at htext
  revert htext
  decide +kernel

end Krewhub
