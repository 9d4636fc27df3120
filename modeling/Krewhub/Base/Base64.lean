import Mathlib.Data.List.Basic
import Mathlib.Tactic.Common

/-!
# Base64

Encoding by groups of three bytes, and the decoder of `binascii.a2b_base64`, which takes one character at a
time. It stops at the padding that ends a group; what is no digit it passes over, or refuses when it is strict.
-/

namespace Krewhub.Base64

def alphabet : List Char := "ABCDEFGHIJKLMNOPQRSTUVWXYZabcdefghijklmnopqrstuvwxyz0123456789+/".toList

def digit (n : Nat) : Char := alphabet.getD n 'A'

/-- The number a digit stands for. -/
def value (c : Char) : Option Nat := alphabet.findIdx? (· == c)

def encode : List UInt8 → List Char
  | [] => []
  | [a] => [digit (a.toNat / 4), digit (a.toNat % 4 * 16), '=', '=']
  | [a, b] => [digit (a.toNat / 4), digit (a.toNat % 4 * 16 + b.toNat / 16), digit (b.toNat % 16 * 4), '=']
  | a :: b :: c :: bs =>
    digit (a.toNat / 4) :: digit (a.toNat % 4 * 16 + b.toNat / 16) ::
      digit (b.toNat % 16 * 4 + c.toNat / 64) :: digit (c.toNat % 64) :: encode bs

/-- Why a text is refused. -/
inductive Malformed where
  | leadingPadding
  | excessData
  | notBase64
  | discontinuousPadding
  | oneMore
  | incorrectPadding
  deriving DecidableEq, Repr

/-- Where the decoder is in a group, with the bits it has not made a byte of. -/
structure Quad where
  pos : Fin 4 := 0
  left : Nat := 0
  pads : Nat := 0
  padded : Bool := false

/-- A digit; the byte it completes, if any, and what comes after. -/
def Quad.take (q : Quad) (d : Nat) : List UInt8 × Quad :=
  match q.pos with
  | 0 => ([], { q with pos := 1, left := d, pads := 0 })
  | 1 => ([UInt8.ofNat (q.left * 4 + d / 16)], { q with pos := 2, left := d % 16, pads := 0 })
  | 2 => ([UInt8.ofNat (q.left * 16 + d / 4)], { q with pos := 3, left := d % 4, pads := 0 })
  | 3 => ([UInt8.ofNat (q.left * 64 + d)], { q with pos := 0, left := 0, pads := 0 })

def decodeFrom (strict : Bool) (q : Quad) : List Char → Except Malformed (List UInt8)
  | [] =>
    if q.pos = 0 then .ok []
    else if q.pos = 1 then .error .oneMore
    else .error .incorrectPadding
  | c :: cs =>
    if c = '=' then
      if 2 ≤ q.pos then
        if 4 ≤ q.pos.val + (q.pads + 1) then
          if strict && !cs.isEmpty then .error .excessData else .ok []
        else decodeFrom strict { q with pads := q.pads + 1, padded := true } cs
      else decodeFrom strict { q with padded := true } cs
    else
      match value c with
      | none => if strict then .error .notBase64 else decodeFrom strict q cs
      | some d =>
        if strict && q.padded then .error .discontinuousPadding
        else (decodeFrom strict (q.take d).2 cs).map ((q.take d).1 ++ ·)

/-- `binascii.a2b_base64`. -/
def decode (strict : Bool) (cs : List Char) : Except Malformed (List UInt8) :=
  if strict && cs.head? == some '=' then .error .leadingPadding else decodeFrom strict {} cs

/-! ### What is encoded is decoded -/

section RoundTrip

variable {strict : Bool} {q : Quad} {n : Nat}

theorem value_digit (h : n < 64) : value (digit n) = some n := by
  have hall : ∀ n : Fin 64, value (digit n.val) = some n.val := by decide +kernel
  exact hall ⟨n, h⟩

theorem digit_ne (h : n < 64) : digit n ≠ '=' := by
  have hall : ∀ n : Fin 64, digit n.val ≠ '=' := by decide +kernel
  exact hall ⟨n, h⟩

theorem toNat_digit_lt (n : Nat) : (digit n).toNat < 128 := by
  have hall : alphabet.all (fun c => c.toNat < 128) = true := by decide +kernel
  rw [digit, List.getD_eq_getElem?_getD]
  cases h : alphabet[n]? with
  | none => decide
  | some c => exact of_decide_eq_true (List.all_eq_true.mp hall c (List.mem_of_getElem? h))

/-- An encoded text is ASCII. -/
theorem toNat_lt_of_mem_encode {bs : List UInt8} {c : Char} (h : c ∈ encode bs) : c.toNat < 128 := by
  have hpad : '='.toNat < 128 := by decide
  induction bs using encode.induct with
  | case1 => cases h
  | case2 a =>
    simp only [encode, List.mem_cons, List.not_mem_nil, or_false] at h
    rcases h with rfl | rfl | rfl | rfl
    · exact toNat_digit_lt _
    · exact toNat_digit_lt _
    · exact hpad
    · exact hpad
  | case3 a b =>
    simp only [encode, List.mem_cons, List.not_mem_nil, or_false] at h
    rcases h with rfl | rfl | rfl | rfl
    · exact toNat_digit_lt _
    · exact toNat_digit_lt _
    · exact toNat_digit_lt _
    · exact hpad
  | case4 a b c' bs ih =>
    simp only [encode, List.mem_cons] at h
    rcases h with rfl | rfl | rfl | rfl | h
    · exact toNat_digit_lt _
    · exact toNat_digit_lt _
    · exact toNat_digit_lt _
    · exact toNat_digit_lt _
    · exact ih h

theorem decodeFrom_digit (h : n < 64) (hpadded : q.padded = false) (cs : List Char) :
    decodeFrom strict q (digit n :: cs) = (decodeFrom strict (q.take n).2 cs).map ((q.take n).1 ++ ·) := by
  rw [decodeFrom, if_neg (digit_ne h)]
  simp only [value_digit h, hpadded, Bool.and_false, Bool.false_eq_true, if_false]

theorem byte_of_toNat {b : UInt8} (h : n = b.toNat) : UInt8.ofNat n = b := by
  rw [h, UInt8.ofNat_toNat]

theorem decodeFrom_encode (bs : List UInt8) : decodeFrom strict {} (encode bs) = .ok bs := by
  induction bs using encode.induct with
  | case1 => rfl
  | case2 a =>
    have ha := a.toNat_lt
    rw [encode, decodeFrom_digit (by omega) rfl, Quad.take, decodeFrom_digit (by omega) rfl, Quad.take]
    have hbyte : UInt8.ofNat (a.toNat / 4 * 4 + a.toNat % 4 * 16 / 16) = a := byte_of_toNat (by omega)
    rw [hbyte]
    cases strict <;> rfl
  | case3 a b =>
    have ha := a.toNat_lt
    have hb := b.toNat_lt
    rw [encode, decodeFrom_digit (by omega) rfl, Quad.take, decodeFrom_digit (by omega) rfl, Quad.take,
      decodeFrom_digit (by omega) rfl, Quad.take]
    have hfirst : UInt8.ofNat (a.toNat / 4 * 4 + (a.toNat % 4 * 16 + b.toNat / 16) / 16) = a :=
      byte_of_toNat (by omega)
    have hsecond : UInt8.ofNat ((a.toNat % 4 * 16 + b.toNat / 16) % 16 * 16 + b.toNat % 16 * 4 / 4) = b :=
      byte_of_toNat (by omega)
    rw [hfirst, hsecond]
    cases strict <;> rfl
  | case4 a b c bs ih =>
    have ha := a.toNat_lt
    have hb := b.toNat_lt
    have hc := c.toNat_lt
    rw [encode, decodeFrom_digit (by omega) rfl, Quad.take, decodeFrom_digit (by omega) rfl, Quad.take,
      decodeFrom_digit (by omega) rfl, Quad.take, decodeFrom_digit (by omega) rfl, Quad.take]
    have hfirst : UInt8.ofNat (a.toNat / 4 * 4 + (a.toNat % 4 * 16 + b.toNat / 16) / 16) = a :=
      byte_of_toNat (by omega)
    have hsecond : UInt8.ofNat ((a.toNat % 4 * 16 + b.toNat / 16) % 16 * 16 +
        (b.toNat % 16 * 4 + c.toNat / 64) / 4) = b := byte_of_toNat (by omega)
    have hthird : UInt8.ofNat ((b.toNat % 16 * 4 + c.toNat / 64) % 4 * 64 + c.toNat % 64) = c :=
      byte_of_toNat (by omega)
    rw [hfirst, hsecond, hthird]
    rw [show decodeFrom strict ⟨0, 0, 0, false⟩ (encode bs) = .ok bs from ih]
    rfl

theorem head?_encode_ne (bs : List UInt8) : (encode bs).head? ≠ some '=' := by
  have hdigit : ∀ a : UInt8, digit (a.toNat / 4) ≠ '=' := fun a => digit_ne (by have := a.toNat_lt; omega)
  fun_cases encode bs
  · simp
  · simpa using hdigit _
  · simpa using hdigit _
  · simpa using hdigit _

theorem decode_encode (strict : Bool) (bs : List UInt8) : decode strict (encode bs) = .ok bs := by
  rw [decode, if_neg (by simp [head?_encode_ne]), decodeFrom_encode]

end RoundTrip

end Krewhub.Base64
