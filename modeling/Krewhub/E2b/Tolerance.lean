import Krewhub.E2b.ConnectStream

/-!
# What ends the decoder early

Which bodies the decoder of envd's response does not survive. An envelope is handled exactly when its body is
empty, no JSON, or of the shape that envd gives it, and what is yielded for it is then one of the documented
chunks; so a response is handled when each of the envelopes that are reached is.
-/

namespace Krewhub

section Messages

variable {B : Builtins} {msg value data code : PyValue}

/-- A data event without output. -/
def PyValue.NoOutput (data : PyValue) : Prop := data.hasKey "stdout" = false ∧ data.hasKey "stderr" = false

theorem onData_of_indexable (h : data.Indexable ["stdout", "stderr"]) :
    ∃ chunks, onData (data.orElse (.dict [])) = .ok chunks ∧ (∀ chunk ∈ chunks, Documented chunk) ∧
      (chunks = [] ↔ data.NoOutput) := by
  have heq : onData (data.orElse (.dict [])) = choose (data.orElse (.dict [])) "stdout" "stderr"
      (fun value => .ok [outputChunk "stdout" (b64Decode value)])
      (fun value => .ok [outputChunk "stderr" (b64Decode value)]) (.ok []) := rfl
  rw [heq, choose_eq h, PyValue.NoOutput]
  cases hout : data.hasKey "stdout" with
  | true => exact ⟨_, rfl, fun chunk hchunk => List.mem_singleton.mp hchunk ▸ .stdout _, by simp⟩
  | false =>
    cases herr : data.hasKey "stderr" with
    | true => exact ⟨_, rfl, fun chunk hchunk => List.mem_singleton.mp hchunk ▸ .stderr _, by simp⟩
    | false => exact ⟨[], rfl, (nofun), by simp⟩

theorem onData_of_not_indexable (h : ¬ data.Indexable ["stdout", "stderr"]) :
    onData (data.orElse (.dict [])) = .error .typeError := by
  have heq : onData (data.orElse (.dict [])) = choose (data.orElse (.dict [])) "stdout" "stderr"
      (fun value => .ok [outputChunk "stdout" (b64Decode value)])
      (fun value => .ok [outputChunk "stderr" (b64Decode value)]) (.ok []) := rfl
  rw [heq]
  exact choose_error (by decide) h

theorem intOfFloat_of_infinite {bits : UInt64} (h : bits.toNat % 2 ^ 63 = 2047 * 2 ^ 52) :
    PyValue.intOfFloat bits = .error .overflowError := by
  have hexponent : bits.toNat / 2 ^ 52 % 2 ^ 11 = 2047 := by omega
  have hfraction : bits.toNat % 2 ^ 52 = 0 := by omega
  simp only [PyValue.intOfFloat, if_pos hexponent, if_pos hfraction]

theorem intOfFloat_cases (bits : UInt64) :
    (∃ n, PyValue.intOfFloat bits = .ok n) ∨ PyValue.intOfFloat bits = .error .valueError ∨
      bits.toNat % 2 ^ 63 = 2047 * 2 ^ 52 := by
  unfold PyValue.intOfFloat
  dsimp only
  split
  · rename_i hexponent
    split
    · rename_i hfraction
      refine .inr (.inr ?_)
      omega
    · exact .inr (.inl rfl)
  · exact .inl ⟨_, rfl⟩

theorem orElse_of_infinite {default : PyValue} (h : value.Infinite) : value.orElse default = value := by
  obtain ⟨bits, rfl, hbits⟩ := h
  refine if_pos ?_
  rw [PyValue.truthy, hbits]
  rfl

theorem exitCode_of_infinite (h : code.Infinite) :
    exitCode B (code.orElse (.int 0)) = .error .overflowError := by
  rw [orElse_of_infinite h]
  obtain ⟨bits, rfl, hbits⟩ := h
  simp only [exitCode, PyValue.toInt, intOfFloat_of_infinite hbits]
  rfl

theorem exitCode_of_not_infinite (h : ¬ code.Infinite) :
    ∃ c, exitCode B (code.orElse (.int 0)) = .ok c ∧ Documented (exitChunk c) := by
  have hdefault : ∃ c, exitCode B (.int 0) = .ok c ∧ Documented (exitChunk c) := ⟨_, rfl, .exit 0⟩
  by_cases htruthy : code.truthy = true
  swap
  · rwa [PyValue.orElse, if_neg htruthy]
  rw [PyValue.orElse, if_pos htruthy]
  cases code
  case none => exact hdefault
  case bool b => exact ⟨_, rfl, .exitBool b⟩
  case int n => exact ⟨_, rfl, .exit n⟩
  case float bits =>
    rcases intOfFloat_cases bits with ⟨n, hn⟩ | hnan | hinfinite
    · refine ⟨.int n, ?_, .exit n⟩
      simp only [exitCode, PyValue.toInt, hn]
    · refine ⟨.int 0, ?_, .exit 0⟩
      simp only [exitCode, PyValue.toInt, hnan]
      rfl
    · exact absurd ⟨bits, rfl, hinfinite⟩ h
  case str s =>
    cases hint : B.int s with
    | none =>
      refine ⟨.int 0, ?_, .exit 0⟩
      simp only [exitCode, PyValue.toInt, hint]
      rfl
    | some n =>
      refine ⟨.int n, ?_, .exit n⟩
      simp only [exitCode, PyValue.toInt, hint]
  case bytes bs =>
    cases hint : B.int (PyStr.decodeReplace bs) with
    | none =>
      refine ⟨.int 0, ?_, .exit 0⟩
      simp only [exitCode, PyValue.toInt, hint]
      rfl
    | some n =>
      refine ⟨.int n, ?_, .exit n⟩
      simp only [exitCode, PyValue.toInt, hint]
  case list => exact ⟨.int 0, rfl, .exit 0⟩
  case dict => exact ⟨.int 0, rfl, .exit 0⟩

/-- What `onMessage` does with an event that has data. -/
def onDataEvent (value : PyValue) : Except PyExc (List PyValue × Bool) := do
  return (← onData (value.orElse (.dict [])), false)

/-- What `onMessage` does with an event that has an end. -/
def onEndEvent (B : Builtins) (value : PyValue) : Except PyExc (List PyValue × Bool) := do
  let code ← exitCode B ((← (value.orElse (.dict [])).get (PyStr.ofString "exit_code")).orElse (.int 0))
  return ([exitChunk code], true)

theorem onMessage_eq (h : msg.OrDict) :
    onMessage B msg =
      choose ((msg.field "event").orElse (.dict [])) "data" "end" onDataEvent (onEndEvent B) (.ok ([], false)) := by
  rw [onMessage, get_of_orDict h]
  rfl

/-- The message tells that the process has ended. -/
def TellsEnd (msg : PyValue) : Prop :=
  (msg.field "event").hasKey "data" = false ∧ (msg.field "event").hasKey "end" = true

/-- The message has neither output nor an end. -/
def SaysNothing (msg : PyValue) : Prop :=
  ((msg.field "event").hasKey "data" = true → ((msg.field "event").field "data").NoOutput) ∧ ¬ TellsEnd msg

theorem onMessage_of_shape (h : MessageShape msg) :
    ∃ chunks exited, onMessage B msg = .ok (chunks, exited) ∧ (∀ chunk ∈ chunks, Documented chunk) ∧
      (chunks = [] ↔ SaysNothing msg) ∧ (exited = true ↔ TellsEnd msg) := by
  rw [onMessage_eq h.orDict, choose_eq h.event, SaysNothing, TellsEnd]
  cases hdata : (msg.field "event").hasKey "data" with
  | true =>
    obtain ⟨chunks, hchunks, hdocumented, hnone⟩ := onData_of_indexable (h.data hdata)
    rw [if_pos rfl, onDataEvent, hchunks]
    exact ⟨chunks, false, rfl, hdocumented, by simpa using hnone, by simp⟩
  | false =>
    cases hend : (msg.field "event").hasKey "end" with
    | true =>
      obtain ⟨horDict, hfinite⟩ := h.end_ hdata
      obtain ⟨c, hc, hdocumented⟩ := exitCode_of_not_infinite (B := B) hfinite
      rw [if_neg Bool.false_ne_true, if_pos rfl, onEndEvent, get_of_orDict horDict]
      dsimp only [bind, Except.bind]
      rw [hc]
      exact ⟨_, true, rfl, fun chunk hchunk => List.mem_singleton.mp hchunk ▸ hdocumented, by simp, by simp⟩
    | false => exact ⟨[], false, rfl, (nofun), by simp, by simp⟩

/-- A key that a dict has not is not looked up. -/
theorem field_of_not_hasKey {key : String} (h : value.hasKey key = false) : value.field key = .none := by
  cases value
  case dict entries =>
    rw [PyValue.field]
    suffices hnone : entries.lookup (PyStr.ofString key) = none by rw [hnone]; rfl
    rw [PyValue.hasKey, List.any_eq_false] at h
    refine List.lookup_eq_none_iff.mpr fun e he => ?_
    rw [bne_iff_ne]
    exact fun heq => h e he (beq_iff_eq.mpr heq.symm)
  all_goals rfl

theorem onMessage_of_not_shape (h : ¬ MessageShape msg) : ∃ exc, onMessage B msg = .error exc := by
  by_cases horDict : msg.OrDict
  swap
  · rw [onMessage, get_of_not_orDict horDict]
    exact ⟨_, rfl⟩
  rw [onMessage_eq horDict]
  by_cases hevent : (msg.field "event").Indexable ["data", "end"]
  swap
  · exact ⟨_, choose_error (by decide) hevent⟩
  rw [choose_eq hevent]
  cases hdata : (msg.field "event").hasKey "data" with
  | true =>
    rw [if_pos rfl, onDataEvent]
    by_cases hindexable : ((msg.field "event").field "data").Indexable ["stdout", "stderr"]
    · have hshape : MessageShape msg :=
        ⟨horDict, hevent, fun _ => hindexable, fun hfalse => Bool.noConfusion (hdata.symm.trans hfalse)⟩
      exact absurd hshape h
    · rw [onData_of_not_indexable hindexable]
      exact ⟨_, rfl⟩
  | false =>
    rw [if_neg Bool.false_ne_true]
    have hend : ¬ (((msg.field "event").field "end").OrDict ∧
        ¬ (((msg.field "event").field "end").field "exit_code").Infinite) :=
      fun hend => h ⟨horDict, hevent, fun htrue => Bool.noConfusion (hdata.symm.trans htrue), fun _ => hend⟩
    cases hkey : (msg.field "event").hasKey "end" with
    | false =>
      rw [field_of_not_hasKey hkey] at hend
      exact absurd ⟨(nofun), fun ⟨bits, hbits, _⟩ => by cases hbits⟩ hend
    | true =>
      rw [if_pos rfl, onEndEvent]
      by_cases horDict' : ((msg.field "event").field "end").OrDict
      · have hinfinite := not_not.mp fun hfinite => hend ⟨horDict', hfinite⟩
        rw [get_of_orDict horDict']
        dsimp only [bind, Except.bind]
        rw [exitCode_of_infinite hinfinite]
        exact ⟨_, rfl⟩
      · rw [get_of_not_orDict horDict']
        exact ⟨_, rfl⟩

theorem connectErrorString_eq {err : PyValue}
    (h : (∃ s, err = .str s) ∨ ∃ entries, err = .dict entries) : ∃ s, connectErrorString B err = .ok s := by
  rcases h with ⟨s, rfl⟩ | ⟨entries, rfl⟩
  · exact ⟨s, rfl⟩
  · exact ⟨_, rfl⟩

theorem connectErrorString_error {err : PyValue}
    (h : ¬ ((∃ s, err = .str s) ∨ ∃ entries, err = .dict entries)) :
    connectErrorString B err = .error .attributeError := by
  cases err
  case str s => exact absurd (.inl ⟨s, rfl⟩) h
  case dict entries => exact absurd (.inr ⟨entries, rfl⟩) h
  all_goals rfl

theorem onEnd_of_shape (h : EndShape msg) (sawExit : Bool) :
    ∃ chunks, onEnd B sawExit msg = .ok chunks ∧ ∀ chunk ∈ chunks, Documented chunk := by
  have hexit : ∀ chunk ∈ if sawExit then [] else [exitChunk (.int 0)], Documented chunk := by
    intro chunk hchunk
    cases sawExit with
    | true => cases hchunk
    | false => exact List.mem_singleton.mp hchunk ▸ .exit 0
  rw [onEnd, get_of_orDict h.orDict]
  dsimp only [bind, Except.bind]
  by_cases htruthy : (msg.field "error").truthy = true
  · obtain ⟨s, hs⟩ := connectErrorString_eq (B := B) (h.error htruthy)
    rw [if_pos htruthy, hs]
    refine ⟨_, rfl, fun chunk hchunk => ?_⟩
    rcases List.mem_append.mp hchunk with hchunk | hchunk
    · exact List.mem_singleton.mp hchunk ▸ .error s
    · exact hexit chunk hchunk
  · rw [if_neg htruthy]
    exact ⟨_, rfl, hexit⟩

theorem onEnd_of_not_shape (h : ¬ EndShape msg) (sawExit : Bool) :
    onEnd B sawExit msg = .error .attributeError := by
  by_cases horDict : msg.OrDict
  swap
  · rw [onEnd, get_of_not_orDict horDict]
    rfl
  have herror : ¬ ((msg.field "error").truthy = true →
      (∃ s, msg.field "error" = .str s) ∨ ∃ entries, msg.field "error" = .dict entries) :=
    fun herror => h ⟨horDict, herror⟩
  obtain ⟨htruthy, hshape⟩ := Classical.not_imp.mp herror
  rw [onEnd, get_of_orDict horDict]
  dsimp only [bind, Except.bind]
  rw [if_pos htruthy, connectErrorString_error hshape]
  rfl

end Messages

/-! ### Envelopes -/

section Envelopes

variable {B : Builtins} {e : ConnectEnvelope} {es : List ConnectEnvelope}

instance : Decidable (e.IsPassedOver B) :=
  match h : decodeBody B e.body with
  | .error exc => decidable_of_iff (exc = .jsonDecodeError) (by simp [ConnectEnvelope.IsPassedOver, h])
  | .ok _ => .isFalse (by simp [ConnectEnvelope.IsPassedOver, h])

theorem decodeBody_nil : decodeBody B [] = .ok (.dict []) := rfl

theorem decodeBody_of_decode {body : List UInt8} {text : List Char} (hbody : body ≠ [])
    (h : Utf8.decode body = some text) : decodeBody B body = loads B text := by
  rw [decodeBody, if_neg (by simpa using hbody), h]

/-- An envelope is tolerated where its body is passed over or says something of the right shape. -/
theorem ConnectEnvelope.isTolerated_iff : e.IsTolerated B ↔
    e.IsPassedOver B ∨
      ∃ msg, decodeBody B e.body = .ok msg ∧ if e.endsStream then EndShape msg else MessageShape msg := by
  by_cases hbody : e.body = []
  · refine iff_of_true (.inl hbody) (.inr ⟨.dict [], by rw [hbody, decodeBody_nil], ?_⟩)
    split
    · exact ⟨(nofun), (nofun)⟩
    · refine ⟨(nofun), rfl, (nofun), fun _ => ⟨(nofun), ?_⟩⟩
      rintro ⟨bits, hbits, -⟩
      cases hbits
  · rw [IsTolerated, or_iff_right hbody, IsPassedOver]
    cases htext : Utf8.decode e.body with
    | none =>
      have hraises : decodeBody B e.body = .error .unicodeDecodeError := by
        rw [decodeBody, if_neg (by simpa using hbody), htext]
      simp [hraises]
    | some text => simp [decodeBody_of_decode hbody htext]

/-- The generator is ended by an envelope. -/
def ConnectEnvelope.Closes (B : Builtins) (e : ConnectEnvelope) : Prop := e.endsStream = true ∧ ¬ e.IsPassedOver B

instance : Decidable (e.Closes B) := inferInstanceAs (Decidable (_ ∧ _))

theorem onEnvelope_of_isPassedOver (h : e.IsPassedOver B) (sawExit : Bool) :
    onEnvelope B sawExit e = ([], .next sawExit) := by
  rw [onEnvelope, h]

theorem onEnvelope_of_error {exc : PyExc} (h : decodeBody B e.body = .error exc) (hexc : exc ≠ .jsonDecodeError)
    (sawExit : Bool) : onEnvelope B sawExit e = ([], .stop (some exc)) := by
  rw [onEnvelope, h]
  cases exc
  case jsonDecodeError => exact absurd rfl hexc
  all_goals rfl

theorem onEnvelope_of_ends {msg : PyValue} (hmsg : decodeBody B e.body = .ok msg) (hends : e.endsStream = true)
    (sawExit : Bool) : onEnvelope B sawExit e =
      match onEnd B sawExit msg with
      | .ok chunks => (chunks, .stop none)
      | .error exc => ([], .stop (some exc)) := by
  rw [onEnvelope, hmsg]
  dsimp only
  exact if_pos hends

theorem onEnvelope_of_not_ends {msg : PyValue} (hmsg : decodeBody B e.body = .ok msg) (hends : e.endsStream ≠ true)
    (sawExit : Bool) : onEnvelope B sawExit e =
      match onMessage B msg with
      | .ok (chunks, exited) => (chunks, .next (sawExit || exited))
      | .error exc => ([], .stop (some exc)) := by
  rw [onEnvelope, hmsg]
  dsimp only
  exact if_neg hends

theorem onEnvelope_of_end {msg : PyValue} (hmsg : decodeBody B e.body = .ok msg) (hends : e.endsStream = true)
    (hshape : EndShape msg) (sawExit : Bool) :
    ∃ chunks, onEnd B sawExit msg = .ok chunks ∧ onEnvelope B sawExit e = (chunks, .stop none) ∧
      ∀ chunk ∈ chunks, Documented chunk := by
  obtain ⟨chunks, hchunks, hdocumented⟩ := onEnd_of_shape (B := B) hshape sawExit
  refine ⟨chunks, hchunks, ?_, hdocumented⟩
  rw [onEnvelope_of_ends hmsg hends, hchunks]

theorem onEnvelope_of_message {msg : PyValue} (hmsg : decodeBody B e.body = .ok msg) (hends : e.endsStream ≠ true)
    (hshape : MessageShape msg) (sawExit : Bool) :
    ∃ chunks exited, onEnvelope B sawExit e = (chunks, .next (sawExit || exited)) ∧
      (∀ chunk ∈ chunks, Documented chunk) ∧ (chunks = [] ↔ SaysNothing msg) ∧
      (exited = true ↔ TellsEnd msg) := by
  obtain ⟨chunks, exited, hchunks, hrest⟩ := onMessage_of_shape (B := B) hshape
  refine ⟨chunks, exited, ?_, hrest⟩
  rw [onEnvelope_of_not_ends hmsg hends, hchunks]

theorem not_isPassedOver {msg : PyValue} (hmsg : decodeBody B e.body = .ok msg) : ¬ e.IsPassedOver B := by
  rw [ConnectEnvelope.IsPassedOver, hmsg]
  nofun

theorem onEnvelope_of_isTolerated (h : e.IsTolerated B) (sawExit : Bool) :
    ∃ chunks flow, onEnvelope B sawExit e = (chunks, flow) ∧ (∀ chunk ∈ chunks, Documented chunk) ∧
      if e.Closes B then flow = .stop none else ∃ sawExit', flow = .next sawExit' := by
  rw [ConnectEnvelope.isTolerated_iff] at h
  rcases h with hpassed | ⟨msg, hmsg, hshape⟩
  · refine ⟨_, _, onEnvelope_of_isPassedOver hpassed sawExit, (nofun), ?_⟩
    rw [if_neg fun hcloses => hcloses.2 hpassed]
    exact ⟨_, rfl⟩
  · by_cases hends : e.endsStream = true
    · rw [if_pos hends] at hshape
      obtain ⟨chunks, -, heq, hdocumented⟩ := onEnvelope_of_end hmsg hends hshape sawExit
      refine ⟨_, _, heq, hdocumented, ?_⟩
      rw [if_pos ⟨hends, not_isPassedOver hmsg⟩]
    · rw [if_neg hends] at hshape
      obtain ⟨chunks, exited, heq, hdocumented, -⟩ := onEnvelope_of_message hmsg hends hshape sawExit
      refine ⟨_, _, heq, hdocumented, ?_⟩
      rw [if_neg fun hcloses => hends hcloses.1]
      exact ⟨_, rfl⟩

theorem onEnvelope_of_not_isTolerated (h : ¬ e.IsTolerated B) (sawExit : Bool) :
    ∃ exc, onEnvelope B sawExit e = ([], .stop (some exc)) := by
  rw [ConnectEnvelope.isTolerated_iff, not_or] at h
  obtain ⟨hnot, hshape⟩ := h
  cases hmsg : decodeBody B e.body with
  | error exc =>
    have hexc : exc ≠ .jsonDecodeError := fun heq => hnot (hmsg.trans (congrArg _ heq))
    exact ⟨exc, onEnvelope_of_error hmsg hexc sawExit⟩
  | ok msg =>
    by_cases hends : e.endsStream = true
    · have hwrong : ¬ EndShape msg := fun hend => hshape ⟨msg, hmsg, by rwa [if_pos hends]⟩
      rw [onEnvelope_of_ends hmsg hends, onEnd_of_not_shape hwrong]
      exact ⟨_, rfl⟩
    · have hwrong : ¬ MessageShape msg := fun hmessage => hshape ⟨msg, hmsg, by rwa [if_neg hends]⟩
      obtain ⟨exc, hexc⟩ := onMessage_of_not_shape (B := B) hwrong
      rw [onEnvelope_of_not_ends hmsg hends, hexc]
      exact ⟨_, rfl⟩

variable (B) in
/-- The envelopes up to the first that ends the stream and is not passed over. -/
def reached : List ConnectEnvelope → List ConnectEnvelope
  | [] => []
  | e :: es => if e.Closes B then [e] else e :: reached es

theorem mem_reached_head : e ∈ reached B (e :: es) := by
  rw [reached]
  split <;> exact List.mem_cons_self

theorem deliver_tolerates_iff (sawExit : Bool) (es : List ConnectEnvelope) :
    ((Framing.deliver (onEnvelope B) sawExit es).2.exc = none ∧
        ∀ chunk ∈ (Framing.deliver (onEnvelope B) sawExit es).1, Documented chunk) ↔
      ∀ e ∈ reached B es, e.IsTolerated B := by
  induction es generalizing sawExit with
  | nil => exact iff_of_true ⟨rfl, (nofun)⟩ (nofun)
  | cons e es ih =>
    by_cases htolerated : e.IsTolerated B
    · obtain ⟨chunks, flow, heq, hdocumented, hflow⟩ := onEnvelope_of_isTolerated htolerated sawExit
      rw [Framing.deliver, heq, reached]
      split at hflow
      · rename_i hcloses
        rw [hflow, if_pos hcloses]
        refine iff_of_true ⟨rfl, hdocumented⟩ fun e' he' => ?_
        rwa [List.mem_singleton.mp he']
      · rename_i hcloses
        obtain ⟨sawExit', rfl⟩ := hflow
        rw [if_neg hcloses, List.forall_mem_cons, and_iff_right htolerated, ← ih sawExit']
        dsimp only
        rw [List.forall_mem_append, and_iff_right hdocumented]
    · obtain ⟨exc, heq⟩ := onEnvelope_of_not_isTolerated htolerated sawExit
      rw [Framing.deliver, heq]
      exact iff_of_false (fun h => by cases h.1) fun h => htolerated (h e mem_reached_head)

end Envelopes

section Stream

variable (B : Builtins) (pieces : List (List UInt8))

/-- **However a response is cut, the decoder handles the envelopes of the whole.** -/
theorem decodeConnectStream_eq : decodeConnectStream B pieces =
    let run := Framing.deliver (onEnvelope B) false (envelopes.frames pieces.flatten)
    (run.1, run.2.exc) := by
  rw [decodeConnectStream, envelopes.feed_eq false (b := []) rfl, List.nil_append]

/-- **The decoder raises nothing, and yields only documented chunks, exactly where each envelope that is
reached is empty, no JSON, or of the shape that envd gives it.** -/
theorem decodeConnectStream_tolerates_iff :
    ((decodeConnectStream B pieces).2 = none ∧ ∀ chunk ∈ (decodeConnectStream B pieces).1, Documented chunk) ↔
      ∀ e ∈ reached B (envelopes.frames pieces.flatten), e.IsTolerated B := by
  rw [decodeConnectStream_eq]
  exact deliver_tolerates_iff false _

end Stream

/-- A body of one byte that is no UTF-8. -/
theorem decodeConnectStream_raises :
    ¬ ∀ (B : Builtins) (pieces : List (List UInt8)), (decodeConnectStream B pieces).2 = none ∧
      ∀ chunk ∈ (decodeConnectStream B pieces).1, Documented chunk := by
  intro h
  have hraises : (decodeConnectStream Builtins.plain [[0, 0, 0, 0, 1, 0xff]]).2 = some .unicodeDecodeError := by
    decide +kernel
  rw [(h Builtins.plain _).1] at hraises
  cases hraises

end Krewhub
