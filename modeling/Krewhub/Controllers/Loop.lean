import Krewhub.Python.Json
import Mathlib.Order.WithBotTop
import Mathlib.Algebra.Order.Ring.Rat
import Mathlib.Tactic.Linarith

/-!
# The control loop

`BaseController._loop` reconciles for ever; after an error it backs off, twice as long for every further
error in a row, and at most for `max_backoff`. The factor is an integer power of two that Python converts to
a float before it multiplies, and the conversion of `2 ** 1024` raises. The handler that is to keep the loop
alive therefore ends it exactly when 1024 reconciles in a row have raised.
-/

namespace Krewhub

/-! ### Floats -/

/-- A float that is a number or one of the infinities. -/
abbrev Double := WithBot (WithTop ℚ)

/-- `OverflowError: int too large to convert to float`. -/
inductive OverflowError where
  | intTooLarge
  deriving DecidableEq, Repr

/-- What no float reaches. -/
def floatBound : Nat := 2 ^ 1024

/-- The float of a power of two, as a number. -/
def floatOfInt (n : Nat) : Except OverflowError ℚ :=
  if floatBound ≤ n then .error .intTooLarge else .ok n

/-- The product of a float with a power of two that is at least one: exact, or one of the infinities. -/
def mulFloat (x factor : ℚ) : Double :=
  if floatBound ≤ x * factor then ⊤
  else if x * factor ≤ -floatBound then ⊥
  else ((x * factor : ℚ) : WithTop ℚ)

/-! ### The loop -/

inductive ReconcileOutcome where
  | returned
  | raised
  deriving DecidableEq, Repr

structure BaseController where
  interval : ℚ
  maxBackoff : Double

/-- Where the loop is: the errors in a row, and what it has slept for after which outcome. -/
structure LoopState where
  consecutiveErrors : Nat := 0
  delays : List (ReconcileOutcome × Double) := []

namespace BaseController

variable (c : BaseController) (outcomes : Nat → ReconcileOutcome)

def backoff (consecutiveErrors : Nat) : Except OverflowError Double := do
  let factor ← floatOfInt (2 ^ consecutiveErrors)
  return min (mulFloat c.interval factor) c.maxBackoff

/-- One turn of the loop; what the handler raises ends it. -/
def turn (s : LoopState) : ReconcileOutcome → Except OverflowError LoopState
  | .returned =>
    .ok { consecutiveErrors := 0, delays := s.delays ++ [(.returned, ((c.interval : WithTop ℚ) : Double))] }
  | .raised => do
    let consecutiveErrors := s.consecutiveErrors + 1
    let backoff ← c.backoff consecutiveErrors
    return { consecutiveErrors, delays := s.delays ++ [(.raised, backoff)] }

/-- `_loop` for that many turns. -/
def loop : Nat → Except OverflowError LoopState
  | 0 => .ok {}
  | n + 1 => do
    let s ← loop n
    c.turn s (outcomes n)

/-- The loop goes on for ever, and sleeps after no error longer than `max_backoff`. -/
def KeepsRunning : Prop :=
  ∀ n, ∃ s, c.loop outcomes n = .ok s ∧ ∀ d ∈ s.delays, d.1 = .raised → d.2 ≤ c.maxBackoff

/-! ### The handler -/

variable {c outcomes}

theorem exists_backoff {errors : Nat} (h : errors < 1024) :
    ∃ b, c.backoff errors = .ok b ∧ b ≤ c.maxBackoff := by
  have hsmall : 2 ^ errors < floatBound := by
    rw [floatBound, Nat.pow_lt_pow_iff_right Nat.one_lt_two]
    exact h
  refine ⟨min (mulFloat c.interval (2 ^ errors : Nat)) c.maxBackoff, ?_, min_le_right _ _⟩
  rw [backoff, floatOfInt, if_neg (Nat.not_le_of_lt hsmall)]
  rfl

theorem backoff_of_le {errors : Nat} (h : 1024 ≤ errors) : c.backoff errors = .error .intTooLarge := by
  have hlarge : floatBound ≤ 2 ^ errors := by
    rw [floatBound, Nat.pow_le_pow_iff_right Nat.one_lt_two]
    exact h
  rw [backoff, floatOfInt, if_pos hlarge]
  rfl

/-! ### Streaks of errors -/

variable (outcomes) in
/-- How many reconciles in a row have raised after that many turns. -/
def streak : Nat → Nat
  | 0 => 0
  | n + 1 => if outcomes n = .raised then streak n + 1 else 0

theorem le_streak_iff {m n : Nat} :
    m ≤ streak outcomes n ↔ m ≤ n ∧ ∀ i < m, outcomes (n - m + i) = .raised := by
  induction n generalizing m with
  | zero =>
    rw [streak]
    refine ⟨fun h => ⟨h, fun i hi => by omega⟩, fun h => h.1⟩
  | succ n ih =>
    rw [streak]
    cases m with
    | zero => simp
    | succ m =>
      split
      · rename_i hraised
        rw [Nat.succ_le_succ_iff, ih, Nat.succ_le_succ_iff]
        refine and_congr_right fun hle => ?_
        rw [Nat.add_sub_add_right]
        refine ⟨fun h i hi => ?_, fun h i hi => h i (by omega)⟩
        by_cases hlast : i = m
        · rw [hlast, Nat.sub_add_cancel hle]
          exact hraised
        · exact h i (by omega)
      · rename_i hreturned
        refine ⟨fun h => by omega, fun ⟨hle, h⟩ => absurd ?_ hreturned⟩
        have hlast := h m (by omega)
        rwa [show n + 1 - (m + 1) + m = n by omega] at hlast

/-! ### Every sequence of outcomes -/

/-- The loop counts the streak and has slept within the bound. -/
structure Counts (c : BaseController) (outcomes : Nat → ReconcileOutcome) (n : Nat) (s : LoopState) :
    Prop where
  errors : s.consecutiveErrors = streak outcomes n
  bounded : ∀ d ∈ s.delays, d.1 = .raised → d.2 ≤ c.maxBackoff

theorem Counts.turn {n : Nat} {s : LoopState} (h : Counts c outcomes n s)
    (hshort : streak outcomes (n + 1) < 1024) :
    ∃ s', c.turn s (outcomes n) = .ok s' ∧ Counts c outcomes (n + 1) s' := by
  rw [streak] at hshort
  cases houtcome : outcomes n with
  | returned =>
    refine ⟨_, rfl, ?_, fun d hd hraised => ?_⟩
    · rw [streak, houtcome]
      rfl
    · rcases List.mem_append.mp hd with hd | hd
      · exact h.bounded d hd hraised
      · rw [List.mem_singleton.mp hd] at hraised
        cases hraised
  | raised =>
    rw [houtcome, if_pos rfl, ← h.errors] at hshort
    obtain ⟨b, hb, hle⟩ := exists_backoff (c := c) hshort
    refine ⟨{ consecutiveErrors := s.consecutiveErrors + 1, delays := s.delays ++ [(.raised, b)] },
      ?_, ?_, fun d hd hraised => ?_⟩
    · rw [BaseController.turn, hb]
      rfl
    · rw [streak, houtcome, if_pos rfl, ← h.errors]
    · rcases List.mem_append.mp hd with hd | hd
      · exact h.bounded d hd hraised
      · rw [List.mem_singleton.mp hd]
        exact hle

theorem exists_loop_of_short {n : Nat} (hshort : ∀ k ≤ n, streak outcomes k < 1024) :
    ∃ s, c.loop outcomes n = .ok s ∧ Counts c outcomes n s := by
  induction n with
  | zero => exact ⟨{}, rfl, rfl, fun d hd => absurd hd List.not_mem_nil⟩
  | succ n ih =>
    obtain ⟨s, hs, hcounts⟩ := ih fun k hk => hshort k (by omega)
    obtain ⟨s', hs', hcounts'⟩ := hcounts.turn (hshort (n + 1) (Nat.le_refl _))
    exact ⟨s', by rw [loop, hs]; exact hs', hcounts'⟩

theorem streak_of_loop {n : Nat} {s : LoopState} (h : c.loop outcomes n = .ok s) :
    s.consecutiveErrors = streak outcomes n ∧ streak outcomes n < 1024 := by
  induction n generalizing s with
  | zero =>
    rw [loop] at h
    cases h
    exact ⟨rfl, by rw [streak]; omega⟩
  | succ n ih =>
    obtain ⟨s', hs', hturn⟩ := bind_eq_ok.mp h
    obtain ⟨herrors, -⟩ := ih hs'
    rw [streak]
    cases houtcome : outcomes n with
    | returned =>
      rw [houtcome, BaseController.turn] at hturn
      cases hturn
      exact ⟨rfl, by rw [if_neg (by decide)]; omega⟩
    | raised =>
      rw [houtcome] at hturn
      obtain ⟨b, hb, hstate⟩ := bind_eq_ok.mp hturn
      cases hstate
      rw [if_pos rfl, ← herrors]
      refine ⟨rfl, Nat.lt_of_not_le fun hlong => ?_⟩
      rw [backoff_of_le hlong] at hb
      cases hb

variable (c outcomes) in
/-- Whatever the outcomes: the loop goes on for ever, within the bound, exactly when no 1024 reconciles in a
row raise. -/
theorem keepsRunning_iff :
    c.KeepsRunning outcomes ↔ ∀ k, ∃ i < 1024, outcomes (k + i) = .returned := by
  constructor
  · intro h k
    obtain ⟨s, hs, -⟩ := h (k + 1024)
    have hshort := (streak_of_loop hs).2
    by_contra hall
    push Not at hall
    refine absurd (le_streak_iff.mpr ⟨by omega, fun i hi => ?_⟩) (Nat.not_le_of_lt hshort)
    rw [Nat.add_sub_cancel]
    cases houtcome : outcomes (k + i) with
    | returned => exact absurd houtcome (hall i hi)
    | raised => rfl
  · intro h n
    have hshort : ∀ k ≤ n, streak outcomes k < 1024 := by
      intro k _
      by_contra hlong
      obtain ⟨hle, hall⟩ := le_streak_iff.mp (Nat.le_of_not_lt hlong)
      obtain ⟨i, hi, hreturned⟩ := h (k - 1024)
      rw [hall i hi] at hreturned
      cases hreturned
    obtain ⟨s, hs, hcounts⟩ := exists_loop_of_short (c := c) hshort
    exact ⟨s, hs, hcounts.bounded⟩

/-- A controller that fails for good dies of it. -/
theorem dies_of_errors :
    ¬ BaseController.KeepsRunning ⟨2, (30 : ℚ)⟩ fun _ => .raised := by
  intro h
  obtain ⟨s, hs, -⟩ := h 1024
  refine absurd (streak_of_loop hs).2 (Nat.not_lt_of_le (le_streak_iff.mpr ⟨Nat.le_refl _, ?_⟩))
  exact fun _ _ => rfl

end BaseController

end Krewhub
