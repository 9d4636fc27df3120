import Krewhub.E2b.Tolerance

/-!
# The end of the stream

The chunks of a response are those of its envelopes up to the first that has the end-of-stream flag. The decoder
looks at the flag only after it has read the body, so that such an envelope with a body that is no JSON is passed
over like any other, and what comes after it is handled too.
-/

namespace Krewhub

/-- The envelopes up to and including the first that ends the stream. -/
def untilEnd : List ConnectEnvelope → List ConnectEnvelope
  | [] => []
  | e :: es => if e.endsStream then [e] else e :: untilEnd es

/-- The envelopes behind it. -/
def afterEnd : List ConnectEnvelope → List ConnectEnvelope
  | [] => []
  | e :: es => if e.endsStream then es else afterEnd es

/-- The chunks of some envelopes, each handled after those before it. -/
def chunksOf (B : Builtins) (sawExit : Bool) : List ConnectEnvelope → List PyValue
  | [] => []
  | e :: es =>
    (onEnvelope B sawExit e).1 ++
      chunksOf B (match (onEnvelope B sawExit e).2 with | .next sawExit' => sawExit' | .stop _ => sawExit) es

namespace ConnectEnvelope

variable (B : Builtins)

/-- The envelope tells that the process has ended. -/
def TellsEnd (e : ConnectEnvelope) : Prop :=
  e.endsStream = false ∧ ∃ msg, decodeBody B e.body = .ok msg ∧ Krewhub.TellsEnd msg

/-- There is nothing to be yielded for the envelope; `exited` is whether the end of the process has been told. -/
def IsMute (exited : Prop) (e : ConnectEnvelope) : Prop :=
  e.IsPassedOver B ∨ ∃ msg, decodeBody B e.body = .ok msg ∧
    if e.endsStream then msg.OrDict ∧ (msg.field "error").truthy = false ∧ exited
    else MessageShape msg ∧ SaysNothing msg

end ConnectEnvelope

/-- Each envelope is tolerated up to the first that ends the stream; and where that one is passed over, there is
nothing to be yielded for those behind it. -/
structure EndsWell (B : Builtins) (exited : Prop) (es : List ConnectEnvelope) : Prop where
  tolerated : ∀ e ∈ untilEnd es, e.IsTolerated B
  mute : (∃ e ∈ untilEnd es, e.endsStream = true ∧ e.IsPassedOver B) →
    ∀ e ∈ reached B (afterEnd es), e.IsMute B (exited ∨ ∃ e ∈ untilEnd es, e.TellsEnd B)

section Mute

variable {B : Builtins} {e : ConnectEnvelope} {sawExit : Bool} {msg : PyValue}

theorem onEnd_eq_nil_iff :
    onEnd B sawExit msg = .ok [] ↔ msg.OrDict ∧ (msg.field "error").truthy = false ∧ sawExit = true := by
  by_cases horDict : msg.OrDict
  swap
  · rw [onEnd, get_of_not_orDict horDict]
    exact iff_of_false (fun h => by cases h) fun h => horDict h.1
  rw [onEnd, get_of_orDict horDict, and_iff_right horDict]
  dsimp only [bind, Except.bind]
  cases htruthy : (msg.field "error").truthy with
  | true =>
    rw [if_pos rfl]
    refine iff_of_false (fun h => ?_) fun h => by cases h.1
    cases herror : connectErrorString B (msg.field "error") <;> rw [herror] at h <;> cases h
  | false => cases sawExit <;> simp [pure, Except.pure]

/-- An envelope is handled without a chunk and without an exception where it is mute, and then nothing is
remembered of it. -/
theorem onEnvelope_eq_nil_iff :
    ((onEnvelope B sawExit e).1 = [] ∧ (onEnvelope B sawExit e).2.exc = none) ↔ e.IsMute B (sawExit = true) := by
  rw [ConnectEnvelope.IsMute]
  by_cases hpassed : e.IsPassedOver B
  · rw [onEnvelope_of_isPassedOver hpassed]
    exact iff_of_true ⟨rfl, rfl⟩ (.inl hpassed)
  rw [or_iff_right hpassed]
  cases hmsg : decodeBody B e.body with
  | error exc =>
    rw [onEnvelope_of_error hmsg fun heq => hpassed (hmsg.trans (congrArg _ heq))]
    exact iff_of_false (fun h => by cases h.2) fun ⟨_, hok, _⟩ => by cases hok
  | ok msg =>
    have hiff : ∀ {P : PyValue → Prop}, (∃ msg', Except.ok (ε := PyExc) msg = .ok msg' ∧ P msg') ↔ P msg :=
      ⟨fun ⟨_, heq, h⟩ => Except.ok.inj heq ▸ h, fun h => ⟨msg, rfl, h⟩⟩
    rw [hiff]
    by_cases hends : e.endsStream = true
    · rw [onEnvelope_of_ends hmsg hends, if_pos hends, ← onEnd_eq_nil_iff (B := B)]
      cases hend : onEnd B sawExit msg with
      | error exc => exact iff_of_false (fun h => by cases h.2) (nofun)
      | ok chunks => simp [Flow.exc]
    · rw [if_neg hends]
      by_cases hshape : MessageShape msg
      · obtain ⟨chunks, exited, heq, -, hnothing, -⟩ := onEnvelope_of_message hmsg hends hshape sawExit
        rw [heq, and_iff_right hshape, ← hnothing]
        exact and_iff_left rfl
      · obtain ⟨exc, hexc⟩ := onMessage_of_not_shape (B := B) hshape
        rw [onEnvelope_of_not_ends hmsg hends, hexc]
        exact iff_of_false (fun h => by cases h.2) fun h => hshape h.1

theorem onEnvelope_of_isMute (h : e.IsMute B (sawExit = true)) :
    onEnvelope B sawExit e = ([], if e.Closes B then .stop none else .next sawExit) := by
  rcases h with hpassed | ⟨msg, hmsg, hmute⟩
  · rw [onEnvelope_of_isPassedOver hpassed, if_neg fun hcloses => hcloses.2 hpassed]
  · by_cases hends : e.endsStream = true
    · rw [if_pos hends, ← onEnd_eq_nil_iff (B := B)] at hmute
      rw [onEnvelope_of_ends hmsg hends, hmute, if_pos ⟨hends, not_isPassedOver hmsg⟩]
    · rw [if_neg hends] at hmute
      obtain ⟨chunks, exited, heq, -, hnothing, hexited⟩ := onEnvelope_of_message hmsg hends hmute.1 sawExit
      have hfalse : exited = false := Bool.eq_false_iff.mpr fun htrue => hmute.2.2 (hexited.mp htrue)
      rw [heq, hnothing.mpr hmute.2, hfalse, Bool.or_false, if_neg fun hcloses => hends hcloses.1]

theorem deliver_mute_iff (es : List ConnectEnvelope) :
    ((Framing.deliver (onEnvelope B) sawExit es).1 = [] ∧
        (Framing.deliver (onEnvelope B) sawExit es).2.exc = none) ↔
      ∀ e ∈ reached B es, e.IsMute B (sawExit = true) := by
  induction es with
  | nil => exact iff_of_true ⟨rfl, rfl⟩ (nofun)
  | cons e es ih =>
    by_cases hmute : e.IsMute B (sawExit = true)
    · rw [Framing.deliver, onEnvelope_of_isMute hmute, reached]
      by_cases hcloses : e.Closes B
      · rw [if_pos hcloses, if_pos hcloses]
        refine iff_of_true ⟨rfl, rfl⟩ fun e' he' => ?_
        rwa [List.mem_singleton.mp he']
      · rw [if_neg hcloses, if_neg hcloses, List.forall_mem_cons, and_iff_right hmute, ← ih]
        rfl
    · refine iff_of_false (fun h => hmute (onEnvelope_eq_nil_iff.mp ?_)) fun h => hmute (h e mem_reached_head)
      rw [Framing.deliver] at h
      revert h
      rcases onEnvelope B sawExit e with ⟨chunks, sawExit' | exc⟩ <;> intro h
      · exact ⟨(List.append_eq_nil_iff.mp h.1).1, rfl⟩
      · exact h

end Mute

section EndsWell

variable {B : Builtins} {e : ConnectEnvelope} {es : List ConnectEnvelope} {exited : Prop}

theorem endsWell_cons_of_ends (hends : e.endsStream = true) : EndsWell B exited (e :: es) ↔
    e.IsTolerated B ∧ (e.IsPassedOver B → ∀ e' ∈ reached B es, e'.IsMute B exited) := by
  have huntil : untilEnd (e :: es) = [e] := if_pos hends
  have hafter : afterEnd (e :: es) = es := if_pos hends
  have htells : (exited ∨ ∃ e' ∈ [e], e'.TellsEnd B) = exited := by
    refine propext (or_iff_left ?_)
    rintro ⟨e', he', hnot, -⟩
    rw [List.mem_singleton.mp he', hends] at hnot
    cases hnot
  constructor
  · rintro ⟨htolerated, hmute⟩
    rw [huntil, hafter, htells] at hmute
    rw [huntil] at htolerated
    exact ⟨htolerated e (List.mem_singleton_self e),
      fun hpassed => hmute ⟨e, List.mem_singleton_self e, hends, hpassed⟩⟩
  · rintro ⟨htolerated, hmute⟩
    refine ⟨fun e' he' => ?_, ?_⟩
    · rw [huntil, List.mem_singleton] at he'
      rwa [he']
    · rw [huntil, hafter, htells]
      rintro ⟨e', he', -, hpassed⟩
      rw [List.mem_singleton] at he'
      exact hmute (he' ▸ hpassed)

theorem endsWell_cons_of_not_ends (hends : e.endsStream ≠ true) : EndsWell B exited (e :: es) ↔
    e.IsTolerated B ∧ EndsWell B (exited ∨ e.TellsEnd B) es := by
  have huntil : untilEnd (e :: es) = e :: untilEnd es := if_neg hends
  have hafter : afterEnd (e :: es) = afterEnd es := if_neg hends
  have hpassed : (∃ e' ∈ e :: untilEnd es, e'.endsStream = true ∧ e'.IsPassedOver B) ↔
      ∃ e' ∈ untilEnd es, e'.endsStream = true ∧ e'.IsPassedOver B := by
    rw [List.exists_mem_cons_iff]
    exact or_iff_right fun h => hends h.1
  have htells : (exited ∨ ∃ e' ∈ e :: untilEnd es, e'.TellsEnd B) =
      ((exited ∨ e.TellsEnd B) ∨ ∃ e' ∈ untilEnd es, e'.TellsEnd B) := by
    rw [List.exists_mem_cons_iff, or_assoc]
  constructor
  · rintro ⟨htolerated, hmute⟩
    rw [huntil] at htolerated hmute
    rw [hafter, hpassed, htells] at hmute
    exact ⟨htolerated e List.mem_cons_self, fun e' he' => htolerated e' (List.mem_cons_of_mem e he'), hmute⟩
  · rintro ⟨htolerated, hrest, hmute⟩
    refine ⟨?_, ?_⟩
    · rw [huntil]
      exact List.forall_mem_cons.mpr ⟨htolerated, hrest⟩
    · rwa [huntil, hafter, hpassed, htells]

/-- A message that is handled is remembered where it tells the end of the process. -/
theorem onEnvelope_of_message_isTolerated (hends : e.endsStream ≠ true) (h : e.IsTolerated B) (sawExit : Bool) :
    ∃ chunks sawExit', onEnvelope B sawExit e = (chunks, .next sawExit') ∧
      (sawExit' = true) = (sawExit = true ∨ e.TellsEnd B) := by
  rcases ConnectEnvelope.isTolerated_iff.mp h with hpassed | ⟨msg, hmsg, hshape⟩
  · refine ⟨_, _, onEnvelope_of_isPassedOver hpassed sawExit, propext (or_iff_left ?_).symm⟩
    rintro ⟨-, msg, hmsg, -⟩
    exact not_isPassedOver hmsg hpassed
  · rw [if_neg hends] at hshape
    obtain ⟨chunks, exited, heq, -, -, hexited⟩ := onEnvelope_of_message hmsg hends hshape sawExit
    refine ⟨_, _, heq, ?_⟩
    rw [Bool.or_eq_true, hexited]
    refine congrArg _ (propext ⟨fun htells => ⟨Bool.eq_false_iff.mpr hends, msg, hmsg, htells⟩, ?_⟩)
    rintro ⟨-, msg', hmsg', htells⟩
    rwa [Except.ok.inj (hmsg.symm.trans hmsg')]

theorem deliver_untilEnd_iff (sawExit : Bool) (es : List ConnectEnvelope) :
    ((Framing.deliver (onEnvelope B) sawExit es).1 = chunksOf B sawExit (untilEnd es) ∧
        (Framing.deliver (onEnvelope B) sawExit es).2.exc = none) ↔
      EndsWell B (sawExit = true) es := by
  induction es generalizing sawExit with
  | nil => exact iff_of_true ⟨rfl, rfl⟩ ⟨(nofun), (nofun)⟩
  | cons e es ih =>
    by_cases htolerated : e.IsTolerated B
    swap
    · obtain ⟨exc, heq⟩ := onEnvelope_of_not_isTolerated htolerated sawExit
      rw [Framing.deliver, heq]
      refine iff_of_false (fun h => by cases h.2) fun h => htolerated (h.tolerated e ?_)
      rw [untilEnd]
      split <;> exact List.mem_cons_self
    by_cases hends : e.endsStream = true
    · rw [endsWell_cons_of_ends hends, and_iff_right htolerated, untilEnd, if_pos hends, Framing.deliver, chunksOf]
      by_cases hpassed : e.IsPassedOver B
      · rw [onEnvelope_of_isPassedOver hpassed, forall_prop_of_true hpassed, ← deliver_mute_iff]
        rfl
      · obtain ⟨msg, hmsg, hshape⟩ := (ConnectEnvelope.isTolerated_iff.mp htolerated).resolve_left hpassed
        rw [if_pos hends] at hshape
        obtain ⟨chunks, -, heq, -⟩ := onEnvelope_of_end hmsg hends hshape sawExit
        rw [heq]
        exact iff_of_true ⟨(List.append_nil _).symm, rfl⟩ fun h => absurd h hpassed
    · obtain ⟨chunks, sawExit', heq, hexited⟩ := onEnvelope_of_message_isTolerated hends htolerated sawExit
      rw [endsWell_cons_of_not_ends hends, and_iff_right htolerated, ← hexited, ← ih, untilEnd, if_neg hends,
        Framing.deliver, chunksOf, heq]
      dsimp only
      rw [List.append_right_inj]

end EndsWell

/-- **However a response is cut, the same is yielded**; and these are the chunks of its envelopes up to the first
that ends the stream, without an exception, exactly where the response ends well. -/
theorem decodeConnectStream_untilEnd_iff (B : Builtins) (pieces : List (List UInt8)) :
    decodeConnectStream B pieces = decodeConnectStream B [pieces.flatten] ∧
      (decodeConnectStream B pieces = (chunksOf B false (untilEnd (envelopes.frames pieces.flatten)), none) ↔
        EndsWell B False (envelopes.frames pieces.flatten)) := by
  refine ⟨?_, ?_⟩
  · rw [decodeConnectStream_eq, decodeConnectStream_eq, List.flatten_singleton]
  · rw [decodeConnectStream_eq, Prod.mk.injEq, deliver_untilEnd_iff, Bool.false_eq_true]

/-- An end-of-stream envelope that is no JSON, and one that is empty. -/
theorem decodeConnectStream_goes_on :
    ¬ ∀ (B : Builtins) (pieces : List (List UInt8)),
      decodeConnectStream B pieces = (chunksOf B false (untilEnd (envelopes.frames pieces.flatten)), none) := by
  intro h
  have hlength := congrArg (fun run => run.1.length) (h Builtins.plain [[2, 0, 0, 0, 1, 0x78], [2, 0, 0, 0, 0]])
  revert hlength
  decide +kernel

end Krewhub
