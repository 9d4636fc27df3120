import Mathlib.Algebra.GroupWithZero.Nat
import Mathlib.Data.List.Basic
import Mathlib.Data.Nat.Basic
import Mathlib.Tactic.Common

/-!
# Times as texts

A `datetime` in UTC, and `isoformat`, which leaves the microseconds out when there are none. The fields have
a fixed width each, and `+`, which comes where the microseconds would, is before the point they begin with.
So the texts are in the order of the times.
-/

namespace Krewhub

/-- A `datetime` in UTC. -/
structure Datetime where
  year : Nat
  month : Nat
  day : Nat
  hour : Nat
  minute : Nat
  second : Nat
  microsecond : Nat
  year_lt : year < 10000 := by decide
  month_lt : month < 13 := by decide
  day_lt : day < 32 := by decide
  hour_lt : hour < 24 := by decide
  minute_lt : minute < 60 := by decide
  second_lt : second < 60 := by decide
  microsecond_lt : microsecond < 1000000 := by decide
  deriving DecidableEq, Repr

namespace Datetime

def digit (n : Nat) : Char := Char.ofNat (48 + n % 10)

/-- So many digits, with zeros in front. -/
def pad : Nat → Nat → List Char
  | 0, _ => []
  | width + 1, n => pad width (n / 10) ++ [digit n]

/-- The microseconds, if there are any. -/
def fraction (microsecond : Nat) : List Char := if microsecond = 0 then [] else '.' :: pad 6 microsecond

def isoformat (t : Datetime) : String :=
  String.ofList (pad 4 t.year ++ '-' :: (pad 2 t.month ++ '-' :: (pad 2 t.day ++ 'T' ::
    (pad 2 t.hour ++ ':' :: (pad 2 t.minute ++ ':' :: (pad 2 t.second ++
      (fraction t.microsecond ++ ['+', '0', '0', ':', '0', '0'])))))))

/-- The fields, from the one that counts most. -/
def fields (t : Datetime) : List Nat := [t.year, t.month, t.day, t.hour, t.minute, t.second, t.microsecond]

/-- One time is before another, as `datetime.__lt__` compares them. -/
instance : LT Datetime := ⟨fun t t' => t.fields < t'.fields⟩

instance (t t' : Datetime) : Decidable (t < t') := inferInstanceAs (Decidable (t.fields < t'.fields))

/-! ### The order of the texts -/

theorem append_lt_append_iff {α : Type} [LT α] [Std.Irrefl (· < · : α → α → Prop)] {u v s t : List α}
    (hlength : u.length = v.length) : u ++ s < v ++ t ↔ u < v ∨ u = v ∧ s < t := by
  induction u generalizing v with
  | nil =>
    obtain rfl := List.length_eq_zero_iff.mp hlength.symm
    simp
  | cons a u ih =>
    cases v with
    | nil => cases hlength
    | cons b v =>
      rw [List.cons_append, List.cons_append, List.cons_lt_cons_iff, List.cons_lt_cons_iff,
        ih (Nat.succ.inj hlength), List.cons.injEq]
      tauto

theorem toNat_digit (n : Nat) : (digit n).toNat = 48 + n % 10 := by
  have hval : ∀ d : Fin 10, (Char.ofNat (48 + d.val)).toNat = 48 + d.val := by decide
  exact hval ⟨n % 10, Nat.mod_lt n (by decide)⟩

theorem digit_lt_digit_iff {a b : Nat} : digit a < digit b ↔ a % 10 < b % 10 := by
  rw [Char.lt_def, UInt32.lt_iff_toNat_lt]
  change (digit a).toNat < (digit b).toNat ↔ _
  rw [toNat_digit, toNat_digit]
  omega

theorem digit_eq_digit_iff {a b : Nat} : digit a = digit b ↔ a % 10 = b % 10 := by
  refine ⟨fun h => ?_, fun h => by rw [digit, digit, h]⟩
  have htoNat := congrArg Char.toNat h
  rw [toNat_digit, toNat_digit] at htoNat
  omega

@[simp] theorem length_pad (width n : Nat) : (pad width n).length = width := by
  induction width generalizing n with
  | zero => rfl
  | succ width ih => rw [pad, List.length_append, ih, List.length_singleton]

/-- Digits of one width compare as the numbers do. -/
theorem pad_compare {width a b : Nat} (ha : a < 10 ^ width) (hb : b < 10 ^ width) :
    (pad width a < pad width b ↔ a < b) ∧ (pad width a = pad width b ↔ a = b) := by
  induction width generalizing a b with
  | zero =>
    rw [Nat.pow_zero, Nat.lt_one_iff] at ha hb
    simp [pad, ha, hb]
  | succ width ih =>
    rw [Nat.pow_succ] at ha hb
    have htens : a / 10 < 10 ^ width := by omega
    have htens' : b / 10 < 10 ^ width := by omega
    obtain ⟨hlt, heq⟩ := ih htens htens'
    rw [pad, pad]
    constructor
    · rw [append_lt_append_iff (by simp), hlt, heq, List.cons_lt_cons_iff, digit_lt_digit_iff]
      simp only [List.not_lt_nil, and_false, or_false]
      omega
    · constructor
      · intro h
        obtain ⟨hleft, hright⟩ := List.append_inj h (by simp)
        have htens := heq.mp hleft
        have hunits := digit_eq_digit_iff.mp (List.cons.inj hright).1
        omega
      · rintro rfl
        rfl

/-- Texts that begin with a field of one width and a separator. -/
theorem field_lt_iff {width a b : Nat} (ha : a < 10 ^ width) (hb : b < 10 ^ width) {c : Char}
    {s t : List Char} : pad width a ++ c :: s < pad width b ++ c :: t ↔ a < b ∨ a = b ∧ s < t := by
  obtain ⟨hlt, heq⟩ := pad_compare ha hb
  rw [append_lt_append_iff (by simp), hlt, heq, List.cons_lt_cons_iff]
  simp

/-- The last field, with what may be left out of the texts. -/
theorem second_lt_iff {sec sec' us us' : Nat} (hsec : sec < 60) (hsec' : sec' < 60) (hus : us < 1000000)
    (hus' : us' < 1000000) {zone : List Char} :
    pad 2 sec ++ (fraction us ++ '+' :: zone) < pad 2 sec' ++ (fraction us' ++ '+' :: zone) ↔
      sec < sec' ∨ sec = sec' ∧ us < us' := by
  obtain ⟨hlt, heq⟩ := pad_compare (by omega : sec < 10 ^ 2) (by omega : sec' < 10 ^ 2)
  rw [append_lt_append_iff (by simp), hlt, heq]
  have hplus : ¬ '.' < '+' := by decide
  have hpoint : '+' < '.' := by decide
  have hsame : ¬ '.' < '.' := by decide
  have hends : fraction us ++ '+' :: zone < fraction us' ++ '+' :: zone ↔ us < us' := by
    rw [fraction, fraction]
    by_cases h : us = 0
    · by_cases h' : us' = 0
      · rw [if_pos h, if_pos h', h, h']
        simp
      · rw [if_pos h, if_neg h', List.nil_append, List.cons_append, List.cons_lt_cons_iff]
        simp only [hpoint, true_or, true_iff]
        omega
    · by_cases h' : us' = 0
      · rw [if_neg h, if_pos h', List.nil_append, List.cons_append, List.cons_lt_cons_iff]
        simp [hplus, h']
      · rw [if_neg h, if_neg h', List.cons_append, List.cons_append, List.cons_lt_cons_iff,
          field_lt_iff (by omega) (by omega)]
        simp only [hsame, List.lt_irrefl, and_false, or_false, true_and, false_or]
  rw [hends]

/-- The texts are in the order of the times. -/
theorem isoformat_lt_isoformat_iff {t t' : Datetime} : t.isoformat < t'.isoformat ↔ t < t' := by
  have hfields : t < t' ↔ t.fields < t'.fields := Iff.rfl
  have hbounds := t.year_lt
  have hbounds' := t'.year_lt
  have hmonth := t.month_lt
  have hmonth' := t'.month_lt
  have hday := t.day_lt
  have hday' := t'.day_lt
  have hhour := t.hour_lt
  have hhour' := t'.hour_lt
  have hminute := t.minute_lt
  have hminute' := t'.minute_lt
  rw [hfields, fields, fields, String.lt_iff, isoformat, isoformat, String.toList_ofList, String.toList_ofList,
    field_lt_iff (by omega) (by omega), field_lt_iff (by omega) (by omega), field_lt_iff (by omega) (by omega),
    field_lt_iff (by omega) (by omega), field_lt_iff (by omega) (by omega),
    second_lt_iff t.second_lt t'.second_lt t.microsecond_lt t'.microsecond_lt]
  simp only [List.cons_lt_cons_iff, List.lt_irrefl, and_false, or_false]

/-- A time that comes no later in the order of the texts is no later. -/
theorem not_lt_of_isoformat_le {t t' : Datetime} (h : t.isoformat ≤ t'.isoformat) : ¬ t' < t :=
  fun hlt => h (isoformat_lt_isoformat_iff.mpr hlt)

example : isoformat { year := 2026, month := 3, day := 9, hour := 7, minute := 5, second := 0, microsecond := 420 } =
    "2026-03-09T07:05:00.000420+00:00" := by decide +kernel

end Datetime

end Krewhub
