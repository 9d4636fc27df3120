import Mathlib.Algebra.Order.BigOperators.Group.List
import Mathlib.Algebra.Order.Ring.Nat
import Mathlib.Data.List.DropRight
import Mathlib.Data.List.Induction
import Mathlib.Tactic.Common

/-!
# UTF-8

Encoding is that of the core library. Decoding is a machine that takes one byte at a time and remembers the
bytes of the character it is in. Where a byte cannot go on, the bytes so far are malformed together, and the
byte is taken as the first of a character; what is left at the end is malformed as well. So malformed bytes
are counted as the Unicode standard recommends, and as most decoders do that replace them.
-/

namespace Krewhub.Utf8

def encode (s : List Char) : List UInt8 := s.flatMap String.utf8EncodeChar

/-- `10xxxxxx`, a byte that no character begins with. -/
def isTail (b : UInt8) : Bool := 0x80 ≤ b.toNat && b.toNat ≤ 0xbf

/-- Between characters, or within one: the bytes seen, how many come after the next, and its bounds. -/
inductive State where
  | idle
  | within (seen : List UInt8) (left lo hi : Nat)
  deriving DecidableEq, Repr

/-- The number that the bytes of a character stand for. -/
def assemble : List UInt8 → Nat
  | [a] => a.toNat
  | [a, b] => a.toNat % 32 * 64 + b.toNat % 64
  | [a, b, c] => a.toNat % 16 * 4096 + b.toNat % 64 * 64 + c.toNat % 64
  | [a, b, c, d] => a.toNat % 8 * 262144 + b.toNat % 64 * 4096 + c.toNat % 64 * 64 + d.toNat % 64
  | _ => 0

/-- The bounds of the second byte of a character. -/
def secondLo (a : UInt8) : Nat := if a.toNat = 0xe0 then 0xa0 else if a.toNat = 0xf0 then 0x90 else 0x80

def secondHi (a : UInt8) : Nat := if a.toNat = 0xed then 0x9f else if a.toNat = 0xf4 then 0x8f else 0xbf

/-- The first byte of a character. -/
def first (b : UInt8) : List (Option Char) × State :=
  if b.toNat < 0x80 then ([some (Char.ofNat (assemble [b]))], .idle)
  else if 0xc2 ≤ b.toNat ∧ b.toNat ≤ 0xdf then ([], .within [b] 0 0x80 0xbf)
  else if 0xe0 ≤ b.toNat ∧ b.toNat ≤ 0xef then ([], .within [b] 1 (secondLo b) (secondHi b))
  else if 0xf0 ≤ b.toNat ∧ b.toNat ≤ 0xf4 then ([], .within [b] 2 (secondLo b) (secondHi b))
  else ([none], .idle)

/-- One byte; what comes of it, with `none` for bytes that are malformed, and the state after it. -/
def step (st : State) (b : UInt8) : List (Option Char) × State :=
  match st with
  | .idle => first b
  | .within seen left lo hi =>
    if lo ≤ b.toNat ∧ b.toNat ≤ hi then
      match left with
      | 0 => ([some (Char.ofNat (assemble (seen ++ [b])))], .idle)
      | left + 1 => ([], .within (seen ++ [b]) left 0x80 0xbf)
    else (none :: (first b).1, (first b).2)

def read : State → List UInt8 → List (Option Char)
  | .idle, [] => []
  | .within .., [] => [none]
  | st, b :: bs => (step st b).1 ++ read (step st b).2 bs

/-- U+FFFD. -/
def replacement : Char := Char.ofNat 0xfffd

/-- Decoding that replaces what is malformed. -/
def decodeReplace (bs : List UInt8) : List Char := (read .idle bs).map (·.getD replacement)

/-- Decoding that fails where bytes are malformed. -/
def decode (bs : List UInt8) : Option (List Char) :=
  if none ∈ read .idle bs then none else some (read .idle bs).reduceOption

/-- The bytes of some text. -/
def Valid (bs : List UInt8) : Prop := ∃ s, bs = encode s

@[simp] theorem encode_nil : encode [] = [] := rfl

@[simp] theorem encode_cons (c : Char) (s : List Char) : encode (c :: s) = String.utf8EncodeChar c ++ encode s :=
  List.flatMap_cons

@[simp] theorem encode_append (s t : List Char) : encode (s ++ t) = encode s ++ encode t := List.flatMap_append

@[simp] theorem read_idle_nil : read .idle [] = [] := rfl

theorem read_cons (st : State) (b : UInt8) (bs : List UInt8) :
    read st (b :: bs) = (step st b).1 ++ read (step st b).2 bs := by
  cases st <;> rfl

/-! ### The bytes of a character -/

section Encoded

variable {c : Char} {a b : UInt8} {bs : List UInt8}

theorem second_bounds_iff : secondLo a ≤ b.toNat ∧ b.toNat ≤ secondHi a ↔
    0x80 ≤ b.toNat ∧ b.toNat ≤ 0xbf ∧ (a.toNat = 0xe0 → 0xa0 ≤ b.toNat) ∧ (a.toNat = 0xf0 → 0x90 ≤ b.toNat) ∧
      (a.toNat = 0xed → b.toNat ≤ 0x9f) ∧ (a.toNat = 0xf4 → b.toNat ≤ 0x8f) := by
  unfold secondLo secondHi
  grind

theorem toNat_lt_of_char (c : Char) : c.toNat < 0xd800 ∨ 0xdfff < c.toNat ∧ c.toNat < 0x110000 := c.valid

theorem toNat_ofNat {n : Nat} (h : n < 0xd800 ∨ 0xdfff < n ∧ n < 0x110000) : (Char.ofNat n).toNat = n := by
  rw [Char.ofNat, dif_pos (show n.isValidChar from h)]
  rfl

theorem toNat_byte {n : Nat} (h : n < 256) : (UInt8.ofNat n).toNat = n := by
  rw [UInt8.toNat_ofNat', Nat.mod_eq_of_lt h]

/-- A character as one to four bytes; the first tells how many there are, the others are tails. -/
theorem encodeChar_cases (c : Char) :
    (∃ a, String.utf8EncodeChar c = [a] ∧ c.toNat < 0x80 ∧ a.toNat = c.toNat) ∨
    (∃ a b, String.utf8EncodeChar c = [a, b] ∧ 0x80 ≤ c.toNat ∧ c.toNat < 0x800 ∧
      a.toNat = 0xc0 + c.toNat / 64 ∧ b.toNat = 0x80 + c.toNat % 64) ∨
    (∃ a b d, String.utf8EncodeChar c = [a, b, d] ∧ 0x800 ≤ c.toNat ∧ c.toNat < 0x10000 ∧
      a.toNat = 0xe0 + c.toNat / 4096 ∧ b.toNat = 0x80 + c.toNat / 64 % 64 ∧ d.toNat = 0x80 + c.toNat % 64) ∨
    ∃ a b d e, String.utf8EncodeChar c = [a, b, d, e] ∧ 0x10000 ≤ c.toNat ∧
      a.toNat = 0xf0 + c.toNat / 262144 ∧ b.toNat = 0x80 + c.toNat / 4096 % 64 ∧
      d.toNat = 0x80 + c.toNat / 64 % 64 ∧ e.toNat = 0x80 + c.toNat % 64 := by
  have hc := toNat_lt_of_char c
  have hval : c.val.toNat = c.toNat := rfl
  unfold String.utf8EncodeChar
  simp only [hval]
  by_cases h1 : c.toNat ≤ 0x7f
  · rw [if_pos h1]
    exact .inl ⟨_, rfl, by omega, toNat_byte (by omega)⟩
  rw [if_neg h1]
  by_cases h2 : c.toNat ≤ 0x7ff
  · rw [if_pos h2]
    refine .inr (.inl ⟨_, _, rfl, by omega, by omega, ?_, ?_⟩)
    · rw [toNat_byte (by omega)]
      omega
    · rw [toNat_byte (by omega)]
      omega
  rw [if_neg h2]
  by_cases h3 : c.toNat ≤ 0xffff
  · rw [if_pos h3]
    refine .inr (.inr (.inl ⟨_, _, _, rfl, by omega, by omega, ?_, ?_, ?_⟩))
    · rw [toNat_byte (by omega)]
      omega
    · rw [toNat_byte (by omega)]
      omega
    · rw [toNat_byte (by omega)]
      omega
  rw [if_neg h3]
  refine .inr (.inr (.inr ⟨_, _, _, _, rfl, by omega, ?_, ?_, ?_, ?_⟩))
  · rw [toNat_byte (by omega)]
    omega
  · rw [toNat_byte (by omega)]
    omega
  · rw [toNat_byte (by omega)]
    omega
  · rw [toNat_byte (by omega)]
    omega

theorem isTail_iff : isTail b = true ↔ 0x80 ≤ b.toNat ∧ b.toNat ≤ 0xbf := by
  simp [isTail]

/-- A tail begins no character. -/
theorem first_of_isTail (h : isTail b = true) : first b = ([none], .idle) := by
  rw [isTail_iff] at h
  rw [first, if_neg (by omega), if_neg (by omega), if_neg (by omega), if_neg (by omega)]

theorem step_within {seen : List UInt8} {left lo hi : Nat} (h : lo ≤ b.toNat ∧ b.toNat ≤ hi) :
    step (.within seen (left + 1) lo hi) b = ([], .within (seen ++ [b]) left 0x80 0xbf) := by
  rw [step, if_pos h]

theorem step_last {seen : List UInt8} {lo hi : Nat} (h : lo ≤ b.toNat ∧ b.toNat ≤ hi) :
    step (.within seen 0 lo hi) b = ([some (Char.ofNat (assemble (seen ++ [b])))], .idle) := by
  rw [step, if_pos h]

theorem ofNat_eq {n : Nat} (h : n = c.toNat) : Char.ofNat n = c := by
  rw [h, Char.ofNat_toNat]

/-- The bytes of a character are read as this character. -/
theorem read_encodeChar_append (c : Char) (bs : List UInt8) :
    read .idle (String.utf8EncodeChar c ++ bs) = some c :: read .idle bs := by
  have hc := toNat_lt_of_char c
  rcases encodeChar_cases c with ⟨a, h, hlt, ha⟩ | ⟨a, b, h, hle, hlt, ha, hb⟩ |
    ⟨a, b, d, h, hle, hlt, ha, hb, hd⟩ | ⟨a, b, d, e, h, hle, ha, hb, hd, he⟩
  · have hfirst : step .idle a = ([some c], .idle) := by
      rw [step, first, if_pos (by omega), ofNat_eq (by rw [assemble, ha])]
    rw [h, List.singleton_append, read_cons, hfirst]
    rfl
  · have hfirst : step .idle a = ([], .within [a] 0 0x80 0xbf) := by
      rw [step, first, if_neg (by omega), if_pos (by omega)]
    have hchar : Char.ofNat (assemble ([a] ++ [b])) = c := ofNat_eq (by rw [List.singleton_append, assemble]; omega)
    rw [h, List.cons_append, List.singleton_append, read_cons, hfirst, List.nil_append, read_cons,
      step_last (by omega), hchar]
    rfl
  · have hfirst : step .idle a = ([], .within [a] 1 (secondLo a) (secondHi a)) := by
      rw [step, first, if_neg (by omega), if_neg (by omega), if_pos (by omega)]
    have hsecond : secondLo a ≤ b.toNat ∧ b.toNat ≤ secondHi a := second_bounds_iff.mpr (by omega)
    have hchar : Char.ofNat (assemble ([a] ++ [b] ++ [d])) = c :=
      ofNat_eq (by rw [List.singleton_append, List.cons_append, List.singleton_append, assemble]; omega)
    rw [h, List.cons_append, List.cons_append, List.singleton_append, read_cons, hfirst, List.nil_append,
      read_cons, step_within hsecond, List.nil_append, read_cons, step_last (by omega), hchar]
    rfl
  · have hfirst : step .idle a = ([], .within [a] 2 (secondLo a) (secondHi a)) := by
      rw [step, first, if_neg (by omega), if_neg (by omega), if_neg (by omega), if_pos (by omega)]
    have hsecond : secondLo a ≤ b.toNat ∧ b.toNat ≤ secondHi a := second_bounds_iff.mpr (by omega)
    have hchar : Char.ofNat (assemble ([a] ++ [b] ++ [d] ++ [e])) = c :=
      ofNat_eq (by
        rw [List.singleton_append, List.cons_append, List.singleton_append, List.cons_append, List.cons_append,
          List.singleton_append, assemble]
        omega)
    rw [h, List.cons_append, List.cons_append, List.cons_append, List.singleton_append, read_cons, hfirst,
      List.nil_append, read_cons, step_within hsecond, List.nil_append, read_cons, step_within (by omega),
      List.nil_append, read_cons, step_last (by omega), hchar]
    rfl

theorem read_encode_append (s : List Char) (bs : List UInt8) :
    read .idle (encode s ++ bs) = s.map some ++ read .idle bs := by
  induction s with
  | nil => rfl
  | cons c s ih => rw [encode_cons, List.append_assoc, read_encodeChar_append, ih, List.map_cons, List.cons_append]

theorem read_encode (s : List Char) : read .idle (encode s) = s.map some := by
  have h := read_encode_append s []
  rwa [List.append_nil, read_idle_nil, List.append_nil] at h

/-- Tails between characters are malformed each by itself. -/
theorem read_tails_append {tails : List UInt8} (h : ∀ b ∈ tails, isTail b = true) (bs : List UInt8) :
    read .idle (tails ++ bs) = List.replicate tails.length none ++ read .idle bs := by
  induction tails with
  | nil => rfl
  | cons b tails ih =>
    rw [List.forall_mem_cons] at h
    rw [List.cons_append, read_cons, step, first_of_isTail h.1, ih h.2]
    rfl

end Encoded

/-! ### What is decoded was encoded -/

/-- The bytes within a character, as far as the machine has seen them. -/
inductive State.Ok : State → Prop where
  | idle : State.Ok .idle
  | two {a : UInt8} (ha : 0xc2 ≤ a.toNat ∧ a.toNat ≤ 0xdf) : State.Ok (.within [a] 0 0x80 0xbf)
  | three {a : UInt8} (ha : 0xe0 ≤ a.toNat ∧ a.toNat ≤ 0xef) : State.Ok (.within [a] 1 (secondLo a) (secondHi a))
  | three' {a b : UInt8} (ha : 0xe0 ≤ a.toNat ∧ a.toNat ≤ 0xef)
      (hb : secondLo a ≤ b.toNat ∧ b.toNat ≤ secondHi a) : State.Ok (.within [a, b] 0 0x80 0xbf)
  | four {a : UInt8} (ha : 0xf0 ≤ a.toNat ∧ a.toNat ≤ 0xf4) : State.Ok (.within [a] 2 (secondLo a) (secondHi a))
  | four' {a b : UInt8} (ha : 0xf0 ≤ a.toNat ∧ a.toNat ≤ 0xf4)
      (hb : secondLo a ≤ b.toNat ∧ b.toNat ≤ secondHi a) : State.Ok (.within [a, b] 1 0x80 0xbf)
  | four'' {a b c : UInt8} (ha : 0xf0 ≤ a.toNat ∧ a.toNat ≤ 0xf4)
      (hb : secondLo a ≤ b.toNat ∧ b.toNat ≤ secondHi a) (hc : 0x80 ≤ c.toNat ∧ c.toNat ≤ 0xbf) :
      State.Ok (.within [a, b, c] 0 0x80 0xbf)

def State.seen : State → List UInt8
  | .idle => []
  | .within seen _ _ _ => seen

/-- A byte goes on, or ends a character, or something is malformed. -/
inductive Stepped (st : State) (b : UInt8) : Prop where
  | on {st' : State} (hok : st'.Ok) (hidle : st' ≠ .idle) (hstep : step st b = ([], st'))
      (hseen : st'.seen = st.seen ++ [b])
  | ended {c : Char} (hstep : step st b = ([some c], .idle)) (hchar : String.utf8EncodeChar c = st.seen ++ [b])
  | malformed {st' : State} (hok : st'.Ok) {out : List (Option Char)} (hstep : step st b = (none :: out, st'))

theorem Stepped.ok {st : State} {b : UInt8} (h : Stepped st b) : (step st b).2.Ok := by
  cases h with
  | on hok _ hstep _ => rwa [hstep]
  | ended hstep _ =>
    rw [hstep]
    exact .idle
  | malformed hok hstep => rwa [hstep]

section Sound

variable {st : State} {a b c d : UInt8} {bs : List UInt8}

theorem byte_eq (b c : UInt8) (h : b.toNat = c.toNat) : b = c := UInt8.toNat_inj.mp h

theorem encodeChar_assemble_one (ha : a.toNat < 0x80) :
    String.utf8EncodeChar (Char.ofNat (assemble [a])) = [a] := by
  have hnat : (Char.ofNat (assemble [a])).toNat = a.toNat := toNat_ofNat (by rw [assemble]; omega)
  rcases encodeChar_cases (Char.ofNat (assemble [a])) with ⟨a', h, -, ha'⟩ | ⟨_, _, _, hle, _⟩ |
    ⟨_, _, _, _, hle, _⟩ | ⟨_, _, _, _, _, hle, _⟩
  · rw [h, byte_eq a' a (ha'.trans hnat)]
  all_goals omega

theorem encodeChar_assemble_two (ha : 0xc2 ≤ a.toNat ∧ a.toNat ≤ 0xdf) (hb : 0x80 ≤ b.toNat ∧ b.toNat ≤ 0xbf) :
    String.utf8EncodeChar (Char.ofNat (assemble [a, b])) = [a, b] := by
  have hnat : (Char.ofNat (assemble [a, b])).toNat = a.toNat % 32 * 64 + b.toNat % 64 :=
    toNat_ofNat (by rw [assemble]; omega)
  rcases encodeChar_cases (Char.ofNat (assemble [a, b])) with ⟨_, _, hlt, _⟩ | ⟨a', b', h, -, -, ha', hb'⟩ |
    ⟨_, _, _, _, hle, _⟩ | ⟨_, _, _, _, _, hle, _⟩
  · omega
  · rw [h, byte_eq a' a (by omega), byte_eq b' b (by omega)]
  all_goals omega

theorem encodeChar_assemble_three (ha : 0xe0 ≤ a.toNat ∧ a.toNat ≤ 0xef)
    (hb : secondLo a ≤ b.toNat ∧ b.toNat ≤ secondHi a) (hc : 0x80 ≤ c.toNat ∧ c.toNat ≤ 0xbf) :
    String.utf8EncodeChar (Char.ofNat (assemble [a, b, c])) = [a, b, c] := by
  obtain ⟨hlo, hhi, he0, -, hed, -⟩ := second_bounds_iff.mp hb
  have hnat : (Char.ofNat (assemble [a, b, c])).toNat = a.toNat % 16 * 4096 + b.toNat % 64 * 64 + c.toNat % 64 :=
    toNat_ofNat (by rw [assemble]; omega)
  rcases encodeChar_cases (Char.ofNat (assemble [a, b, c])) with ⟨_, _, hlt, _⟩ | ⟨_, _, _, _, hlt, _⟩ |
    ⟨a', b', c', h, -, -, ha', hb', hc'⟩ | ⟨_, _, _, _, _, hle, _⟩
  · omega
  · omega
  · rw [h, byte_eq a' a (by omega), byte_eq b' b (by omega),
      byte_eq c' c (by omega)]
  · omega

theorem encodeChar_assemble_four (ha : 0xf0 ≤ a.toNat ∧ a.toNat ≤ 0xf4)
    (hb : secondLo a ≤ b.toNat ∧ b.toNat ≤ secondHi a) (hc : 0x80 ≤ c.toNat ∧ c.toNat ≤ 0xbf)
    (hd : 0x80 ≤ d.toNat ∧ d.toNat ≤ 0xbf) :
    String.utf8EncodeChar (Char.ofNat (assemble [a, b, c, d])) = [a, b, c, d] := by
  obtain ⟨hlo, hhi, -, hf0, -, hf4⟩ := second_bounds_iff.mp hb
  have hnat : (Char.ofNat (assemble [a, b, c, d])).toNat =
      a.toNat % 8 * 262144 + b.toNat % 64 * 4096 + c.toNat % 64 * 64 + d.toNat % 64 :=
    toNat_ofNat (by rw [assemble]; omega)
  rcases encodeChar_cases (Char.ofNat (assemble [a, b, c, d])) with ⟨_, _, hlt, _⟩ | ⟨_, _, _, _, hlt, _⟩ |
    ⟨_, _, _, _, _, hlt, _⟩ | ⟨a', b', c', d', h, -, ha', hb', hc', hd'⟩
  · omega
  · omega
  · omega
  · rw [h, byte_eq a' a (by omega), byte_eq b' b (by omega),
      byte_eq c' c (by omega), byte_eq d' d (by omega)]

theorem stepped_first (b : UInt8) : Stepped .idle b := by
  by_cases h1 : b.toNat < 0x80
  · exact .ended (by rw [step, first, if_pos h1]) (encodeChar_assemble_one h1)
  by_cases h2 : 0xc2 ≤ b.toNat ∧ b.toNat ≤ 0xdf
  · exact .on (.two h2) (nofun) (by rw [step, first, if_neg h1, if_pos h2]) rfl
  by_cases h3 : 0xe0 ≤ b.toNat ∧ b.toNat ≤ 0xef
  · exact .on (.three h3) (nofun) (by rw [step, first, if_neg h1, if_neg h2, if_pos h3]) rfl
  by_cases h4 : 0xf0 ≤ b.toNat ∧ b.toNat ≤ 0xf4
  · exact .on (.four h4) (nofun) (by rw [step, first, if_neg h1, if_neg h2, if_neg h3, if_pos h4]) rfl
  · exact .malformed .idle (by rw [step, first, if_neg h1, if_neg h2, if_neg h3, if_neg h4])

theorem stepped_out {seen : List UInt8} {left lo hi : Nat} (h : ¬ (lo ≤ b.toNat ∧ b.toNat ≤ hi)) :
    Stepped (.within seen left lo hi) b := by
  have hstep : step (.within seen left lo hi) b = (none :: (first b).1, (first b).2) := by
    rw [step.eq_def]
    exact if_neg h
  cases stepped_first b with
  | on hok _ hfirst _ => exact .malformed (by rwa [show first b = _ from hfirst]) hstep
  | ended hfirst _ => exact .malformed (by rw [show first b = _ from hfirst]; exact .idle) hstep
  | malformed hok hfirst => exact .malformed (by rwa [show first b = _ from hfirst]) hstep

theorem State.Ok.stepped (h : st.Ok) (b : UInt8) : Stepped st b := by
  cases h with
  | idle => exact stepped_first b
  | two ha =>
    by_cases hb : 0x80 ≤ b.toNat ∧ b.toNat ≤ 0xbf
    · exact .ended (step_last hb) (encodeChar_assemble_two ha hb)
    · exact stepped_out hb
  | @three a ha =>
    by_cases hb : secondLo a ≤ b.toNat ∧ b.toNat ≤ secondHi a
    · exact .on (.three' ha hb) (nofun) (step_within hb) rfl
    · exact stepped_out hb
  | three' ha hsecond =>
    by_cases hb : 0x80 ≤ b.toNat ∧ b.toNat ≤ 0xbf
    · exact .ended (step_last hb) (encodeChar_assemble_three ha hsecond hb)
    · exact stepped_out hb
  | @four a ha =>
    by_cases hb : secondLo a ≤ b.toNat ∧ b.toNat ≤ secondHi a
    · exact .on (.four' ha hb) (nofun) (step_within hb) rfl
    · exact stepped_out hb
  | four' ha hsecond =>
    by_cases hb : 0x80 ≤ b.toNat ∧ b.toNat ≤ 0xbf
    · exact .on (.four'' ha hsecond hb) (nofun) (step_within hb) rfl
    · exact stepped_out hb
  | four'' ha hsecond hthird =>
    by_cases hb : 0x80 ≤ b.toNat ∧ b.toNat ≤ 0xbf
    · exact .ended (step_last hb) (encodeChar_assemble_four ha hsecond hthird hb)
    · exact stepped_out hb

/-- Where nothing is malformed, the bytes are those of the characters. -/
theorem read_sound (hok : st.Ok) (h : none ∉ read st bs) :
    ∃ s, read st bs = s.map some ∧ st.seen ++ bs = encode s := by
  induction bs generalizing st with
  | nil =>
    cases st with
    | idle => exact ⟨[], rfl, rfl⟩
    | within => exact absurd (List.mem_singleton_self _) h
  | cons b bs ih =>
    rw [read_cons] at h ⊢
    cases hok.stepped b with
    | on hok' _ hstep hseen =>
      rw [hstep] at h ⊢
      obtain ⟨s, hread, hbytes⟩ := ih hok' h
      rw [hseen, List.append_assoc] at hbytes
      exact ⟨s, hread, hbytes⟩
    | @ended c hstep hchar =>
      rw [hstep] at h ⊢
      obtain ⟨s, hread, hbytes⟩ := ih .idle fun hmem => h (List.mem_append_right _ hmem)
      refine ⟨c :: s, by rw [hread]; rfl, ?_⟩
      rw [encode_cons, hchar, ← hbytes, List.append_assoc]
      rfl
    | malformed _ hstep =>
      rw [hstep] at h
      exact absurd (List.mem_append_left _ List.mem_cons_self) h

theorem reduceOption_map_some (s : List Char) : (s.map some).reduceOption = s := by
  change (s.map some).filterMap id = s
  rw [List.filterMap_map]
  exact List.filterMap_some

theorem decode_eq_some_iff {s : List Char} : decode bs = some s ↔ bs = encode s := by
  rw [decode]
  constructor
  · intro h
    split at h
    · cases h
    · rename_i hnone
      obtain ⟨s', hread, hbytes⟩ := read_sound .idle hnone
      rw [hread, reduceOption_map_some] at h
      rw [← Option.some.inj h]
      exact hbytes
  · rintro rfl
    rw [read_encode, if_neg (by simp), reduceOption_map_some]

theorem decode_encode (s : List Char) : decode (encode s) = some s := decode_eq_some_iff.mpr rfl

theorem valid_iff : Valid bs ↔ none ∉ read .idle bs := by
  constructor
  · rintro ⟨s, rfl⟩
    simp [read_encode]
  · intro h
    obtain ⟨s, -, hbytes⟩ := read_sound .idle h
    exact ⟨s, hbytes⟩

theorem encode_injective : Function.Injective encode := by
  intro s t h
  have hdecode := decode_encode s
  rw [h, decode_encode] at hdecode
  exact (Option.some.inj hdecode).symm

@[simp] theorem decodeReplace_encode (s : List Char) : decodeReplace (encode s) = s := by
  rw [decodeReplace, read_encode, List.map_map]
  exact List.map_id s

end Sound

/-! ### Cutting -/

/-- How many characters the bytes begin. -/
def heads (bs : List UInt8) : Nat := bs.countP (!isTail ·)

def State.pending : State → Nat
  | .idle => 0
  | .within .. => 1

section Cut

variable {st : State} {b : UInt8} {bs cs : List UInt8} {s : List Char}

@[simp] theorem heads_append (bs cs : List UInt8) : heads (bs ++ cs) = heads bs + heads cs := List.countP_append

theorem heads_cons (b : UInt8) (bs : List UInt8) : heads (b :: bs) = heads bs + if isTail b then 0 else 1 := by
  rw [heads, List.countP_cons]
  cases isTail b <;> rfl

theorem encodeChar_head_tails (c : Char) :
    ∃ a tails, String.utf8EncodeChar c = a :: tails ∧ isTail a = false ∧ (∀ b ∈ tails, isTail b = true) ∧
      tails.length ≤ 3 := by
  have hc := toNat_lt_of_char c
  have htail : ∀ b : UInt8, isTail b = false ↔ ¬ (0x80 ≤ b.toNat ∧ b.toNat ≤ 0xbf) := by
    intro b
    rw [← isTail_iff, Bool.not_eq_true]
  rcases encodeChar_cases c with ⟨a, h, hlt, ha⟩ | ⟨a, b, h, hle, hlt, ha, hb⟩ |
    ⟨a, b, d, h, hle, hlt, ha, hb, hd⟩ | ⟨a, b, d, e, h, hle, ha, hb, hd, he⟩
  · exact ⟨a, [], h, (htail a).mpr (by omega), (nofun), by simp⟩
  · refine ⟨a, [b], h, (htail a).mpr (by omega), fun x hx => ?_, by simp⟩
    rw [List.mem_singleton] at hx
    rw [hx, isTail_iff]
    omega
  · refine ⟨a, [b, d], h, (htail a).mpr (by omega), fun x hx => ?_, by simp⟩
    rw [List.mem_pair] at hx
    rw [isTail_iff]
    rcases hx with rfl | rfl <;> omega
  · refine ⟨a, [b, d, e], h, (htail a).mpr (by omega), fun x hx => ?_, by simp⟩
    rw [List.mem_cons, List.mem_pair] at hx
    rw [isTail_iff]
    rcases hx with rfl | rfl | rfl <;> omega

theorem heads_encode (s : List Char) : heads (encode s) = s.length := by
  induction s with
  | nil => rfl
  | cons c s ih =>
    obtain ⟨a, tails, hchar, ha, htails, -⟩ := encodeChar_head_tails c
    have hnone : heads tails = 0 := List.countP_eq_zero.mpr fun b hb => by simp [htails b hb]
    rw [encode_cons, heads_append, ih, hchar, heads_cons, hnone, ha, List.length_cons]
    simp [Nat.add_comm]

theorem length_le_length_encode (s : List Char) : s.length ≤ (encode s).length := by
  rw [← heads_encode]
  exact List.countP_le_length

/-- Every byte that begins a character, and the character that is pending, comes out as something. -/
theorem length_step (hok : st.Ok) (b : UInt8) :
    st.pending + (if isTail b then 0 else 1) ≤ (step st b).1.length + (step st b).2.pending := by
  have hfirst : (if isTail b then 0 else 1) ≤ (first b).1.length + (first b).2.pending := by
    cases stepped_first b with
    | @on st' _ hidle hstep _ =>
      rw [show first b = _ from hstep]
      cases st' with
      | idle => exact absurd rfl hidle
      | within => split <;> simp [State.pending]
    | ended hstep _ =>
      rw [show first b = _ from hstep]
      split <;> simp
    | malformed _ hstep =>
      rw [show first b = _ from hstep, List.length_cons]
      split <;> omega
  have hwithin : ∀ seen left lo hi, 0x80 ≤ lo → hi ≤ 0xbf → 1 + (if isTail b then 0 else 1) ≤
      (step (.within seen left lo hi) b).1.length + (step (.within seen left lo hi) b).2.pending := by
    intro seen left lo hi hlo hhi
    by_cases hb : lo ≤ b.toNat ∧ b.toNat ≤ hi
    · rw [if_pos (isTail_iff.mpr (by omega))]
      cases left with
      | zero => rw [step_last hb]; simp
      | succ left => rw [step_within hb]; simp [State.pending]
    · rw [step.eq_def]
      simp only [if_neg hb, List.length_cons]
      omega
  have hsecond : ∀ a : UInt8, 0x80 ≤ secondLo a ∧ secondHi a ≤ 0xbf := by
    intro a
    unfold secondLo secondHi
    grind
  cases hok with
  | idle => simpa [State.pending, step] using hfirst
  | two | three' | four' | four'' => exact hwithin _ _ _ _ (by omega) (by omega)
  | @three a | @four a => exact hwithin _ _ _ _ (hsecond a).1 (hsecond a).2

theorem heads_le_length_read (hok : st.Ok) (bs : List UInt8) :
    st.pending + heads bs ≤ (read st bs).length := by
  induction bs generalizing st with
  | nil => cases st <;> simp [read, State.pending, heads]
  | cons b bs ih =>
    have hstep := length_step hok b
    have hrest := ih (hok.stepped b).ok
    rw [read_cons, List.length_append, heads_cons]
    omega

/-- Bytes that begin within a character come out as more than the characters they begin. -/
theorem heads_lt_length_read (hb : isTail b = true) (bs : List UInt8) :
    heads (b :: bs) < (read .idle (b :: bs)).length := by
  have hrest := heads_le_length_read .idle bs
  rw [read_cons, step, first_of_isTail hb, heads_cons, if_pos hb, List.length_append]
  simp only [State.pending, Nat.zero_add, List.length_singleton] at hrest ⊢
  omega

/-- Before a byte that begins a character there are whole characters only. -/
theorem valid_of_append (h : bs ++ b :: cs = encode s) (hb : isTail b = false) :
    Valid bs ∧ Valid (b :: cs) := by
  induction s generalizing bs with
  | nil => simp at h
  | cons c s ih =>
    obtain ⟨a, tails, hchar, -, htails, -⟩ := encodeChar_head_tails c
    cases bs with
    | nil => exact ⟨⟨[], rfl⟩, ⟨c :: s, h⟩⟩
    | cons b' bs =>
      rw [encode_cons, hchar] at h
      obtain ⟨rfl, hrest⟩ := List.cons.inj h
      rcases List.append_eq_append_iff.mp hrest with ⟨mid, htails', hmid⟩ | ⟨mid, hbs, hmid⟩
      · cases mid with
        | nil =>
          rw [List.nil_append] at hmid
          rw [List.append_nil] at htails'
          refine ⟨⟨[c], by simp [hchar, htails']⟩, ⟨s, hmid⟩⟩
        | cons m mid =>
          obtain ⟨rfl, -⟩ := List.cons.inj hmid
          rw [htails b (by rw [htails']; exact List.mem_append_right _ List.mem_cons_self)] at hb
          cases hb
      · obtain ⟨⟨s', hmid'⟩, hcs⟩ := ih hmid.symm
        exact ⟨⟨c :: s', by rw [encode_cons, hchar, ← hmid', hbs, List.cons_append]⟩, hcs⟩

theorem length_decodeReplace (bs : List UInt8) : (decodeReplace bs).length = (read .idle bs).length :=
  List.length_map ..

theorem isTail_eq_false_of_length {p : List UInt8} (h : (decodeReplace p).length ≤ heads p) :
    ∀ b ∈ p.head?, isTail b = false := by
  intro b hb
  cases p with
  | nil => cases hb
  | cons b' p =>
    obtain rfl := Option.some.inj hb
    by_contra htail
    have hlt := heads_lt_length_read (Bool.of_not_eq_false htail) p
    rw [length_decodeReplace] at h
    omega

theorem valid_pieces {pieces : List (List UInt8)} (h : pieces.flatten = encode s)
    (hheads : ∀ p ∈ pieces, ∀ b ∈ p.head?, isTail b = false) : ∀ p ∈ pieces, Valid p := by
  induction pieces generalizing s with
  | nil => simp
  | cons p pieces ih =>
    rw [List.forall_mem_cons] at hheads ⊢
    rw [List.flatten_cons] at h
    cases hrest : pieces.flatten with
    | nil =>
      rw [hrest, List.append_nil] at h
      exact ⟨⟨s, h⟩, ih (s := []) hrest hheads.2⟩
    | cons b rest =>
      have hb : isTail b = false := by
        obtain ⟨p', hp', hhead⟩ : ∃ p' ∈ pieces, b ∈ p'.head? := by
          clear h ih hheads
          induction pieces with
          | nil => cases hrest
          | cons p' pieces ih =>
            cases p' with
            | nil =>
              obtain ⟨p'', hmem, hhead⟩ := ih hrest
              exact ⟨p'', List.mem_cons_of_mem _ hmem, hhead⟩
            | cons b' p' => exact ⟨b' :: p', List.mem_cons_self, congrArg some (List.cons.inj hrest).1⟩
        exact hheads.2 p' hp' b hhead
      rw [hrest] at h
      obtain ⟨hp, ⟨s', hs'⟩⟩ := valid_of_append h hb
      exact ⟨hp, ih (hrest.trans hs') hheads.2⟩

/-- A text is decoded right piece by piece exactly when no cut is within a character. -/
theorem flatMap_decodeReplace_eq_iff {pieces : List (List UInt8)} (h : pieces.flatten = encode s) :
    pieces.flatMap decodeReplace = s ↔ ∀ p ∈ pieces, Valid p := by
  constructor
  · intro htext
    have hpieces : ∀ p ∈ pieces, heads p ≤ (decodeReplace p).length := by
      intro p _
      rw [length_decodeReplace]
      simpa [State.pending] using heads_le_length_read .idle p
    have hlength : (pieces.map fun p => (decodeReplace p).length).sum = (pieces.map heads).sum := by
      have hheads : ∀ ps : List (List UInt8), heads ps.flatten = (ps.map heads).sum := by
        intro ps
        induction ps with
        | nil => rfl
        | cons p ps ih => rw [List.flatten_cons, heads_append, ih, List.map_cons, List.sum_cons]
      rw [← hheads, h, heads_encode, ← htext, List.length_flatMap]
    refine valid_pieces h fun p hp => isTail_eq_false_of_length ?_
    by_contra hlt
    have hsum := List.sum_lt_sum heads (fun p => (decodeReplace p).length) hpieces ⟨p, hp, Nat.lt_of_not_le hlt⟩
    omega
  · intro hvalid
    refine encode_injective ?_
    rw [← h]
    clear h
    induction pieces with
    | nil => rfl
    | cons p pieces ih =>
      rw [List.forall_mem_cons] at hvalid
      obtain ⟨t, rfl⟩ := hvalid.1
      rw [List.flatMap_cons, encode_append, ih hvalid.2, decodeReplace_encode, List.flatten_cons]

/-! ### The last bytes of a text -/

/-- How many bytes at the beginning belong to a character that began before them. -/
def orphans (bs : List UInt8) : Nat := (bs.takeWhile isTail).length

theorem rtake_append_of_le {α : Type} {l l' : List α} {n : Nat} (h : n ≤ l'.length) :
    (l ++ l').rtake n = l'.rtake n := by
  rw [List.rtake, List.rtake, List.length_append, List.drop_append]
  rw [List.drop_eq_nil_of_le (by omega), List.nil_append]
  congr 1
  omega

theorem rtake_append_of_ge {α : Type} {l l' : List α} {n : Nat} (h : l'.length ≤ n) :
    (l ++ l').rtake n = l.rtake (n - l'.length) ++ l' := by
  rw [List.rtake, List.rtake, List.length_append, List.drop_append_of_le_length (by omega)]
  congr 2
  omega

theorem rtake_eq_self {α : Type} {l : List α} {n : Nat} (h : l.length ≤ n) : l.rtake n = l := by
  rw [List.rtake, Nat.sub_eq_zero_of_le h, List.drop_zero]

theorem length_rtake {α : Type} (l : List α) (n : Nat) : (l.rtake n).length = min n l.length := by
  rw [List.rtake, List.length_drop]
  omega

/-- The last bytes of a text: what is left of a character, and whole characters. -/
theorem exists_rtake_encode (n : Nat) (s : List Char) :
    ∃ tails t, (encode s).rtake n = tails ++ encode t ∧ (∀ b ∈ tails, isTail b = true) ∧ tails.length ≤ 3 := by
  induction s with
  | nil => exact ⟨[], [], by simp, (nofun), by simp⟩
  | cons c s ih =>
    obtain ⟨a, tails, hchar, -, htails, hthree⟩ := encodeChar_head_tails c
    by_cases hle : n ≤ (encode s).length
    · rw [encode_cons, rtake_append_of_le hle]
      exact ih
    by_cases hall : (encode (c :: s)).length ≤ n
    · exact ⟨[], c :: s, rtake_eq_self hall, (nofun), by simp⟩
    · rw [encode_cons, hchar] at hall ⊢
      rw [List.length_append, List.length_cons] at hall
      refine ⟨(a :: tails).drop ((a :: tails).length + (encode s).length - n), s, ?_, fun b hb => ?_, ?_⟩
      · rw [List.rtake, List.length_append, List.drop_append_of_le_length (by rw [List.length_cons]; omega)]
      · obtain ⟨k, hk⟩ : ∃ k, (a :: tails).length + (encode s).length - n = k + 1 :=
          ⟨_, (Nat.succ_pred_eq_of_pos (by rw [List.length_cons]; omega)).symm⟩
        rw [hk, List.drop_succ_cons] at hb
        exact htails b (List.mem_of_mem_drop hb)
      · rw [List.length_drop, List.length_cons]
        omega

theorem orphans_tails_append {tails : List UInt8} (h : ∀ b ∈ tails, isTail b = true) (s : List Char) :
    orphans (tails ++ encode s) = tails.length := by
  rw [orphans, List.takeWhile_append_of_pos h, List.length_append]
  cases s with
  | nil => simp
  | cons c s =>
    obtain ⟨a, rest, hchar, ha, -, -⟩ := encodeChar_head_tails c
    simp [hchar, ha]

/-- The last bytes of a text begin within a character only where there are more bytes before them. -/
theorem orphans_rtake_of_length_le {n : Nat} (h : (encode s).length ≤ n) : orphans ((encode s).rtake n) = 0 := by
  rw [rtake_eq_self h]
  exact orphans_tails_append (show ∀ b ∈ [], isTail b = true by simp) s

theorem decodeReplace_tails_append {tails : List UInt8} (h : ∀ b ∈ tails, isTail b = true) (s : List Char) :
    decodeReplace (tails ++ encode s) = List.replicate tails.length replacement ++ s := by
  rw [decodeReplace, read_tails_append h, read_encode, List.map_append, List.map_replicate, List.map_map]
  exact congrArg _ (List.map_id s)

end Cut

end Krewhub.Utf8
