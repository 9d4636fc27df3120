import Krewhub.Python.Str

/-!
# The tail of a stream

`_Tail` keeps the end of what a process has written. It cuts its buffer between the bytes of a character, and
what is left of the character becomes a replacement character for each byte, of three bytes each. The value
is cut once more, so that all but one of these cuts come out as if the buffer had never been cut: where three
bytes are left of a character and nothing has been appended since, the second cut takes the bytes of one
replacement character instead of three bytes to be replaced.
-/

namespace Krewhub

open Utf8 (encode orphans isTail replacement)

/-- `bs[-n:]`. -/
def lastBytes (n : Nat) (bs : List UInt8) : List UInt8 := if n = 0 then bs else bs.rtake n

structure Tail where
  max : Nat
  chunks : List PyStr := []
  totalBytes : Nat := 0

namespace Tail

/-- `append`. -/
def append (t : Tail) (text : PyStr) : Tail :=
  if text.isEmpty then t
  else
    let chunks := t.chunks ++ [text]
    let totalBytes := t.totalBytes + (PyStr.encodeReplace text).length
    if t.max * 4 < totalBytes then
      let tail := lastBytes t.max (PyStr.encodeReplace chunks.flatten)
      { t with chunks := [PyStr.decodeReplace tail], totalBytes := tail.length }
    else { t with chunks := chunks, totalBytes := totalBytes }

/-- `value`. -/
def value (t : Tail) : PyStr :=
  let joined := PyStr.encodeReplace t.chunks.flatten
  if joined.length ≤ t.max then PyStr.decodeReplace joined
  else PyStr.decodeReplace (lastBytes t.max joined)

/-- The tail after some texts. -/
def of (max : Nat) (texts : List PyStr) : Tail := texts.foldl append { max }

/-- The bytes of some texts one after the other. -/
def written (texts : List PyStr) : List UInt8 := PyStr.encodeReplace texts.flatten

/-- Appending the text cuts the buffer. -/
def Cuts (t : Tail) (text : PyStr) : Prop :=
  text ≠ [] ∧ t.max * 4 < t.totalBytes + (PyStr.encodeReplace text).length

instance (t : Tail) (text : PyStr) : Decidable (t.Cuts text) := inferInstanceAs (Decidable (_ ∧ _))

/-- The last text that is not empty cuts the buffer. -/
def EndsCut (max : Nat) (texts : List PyStr) : Prop :=
  ∃ before text after, texts = before ++ text :: after ∧ (∀ t ∈ after, t = []) ∧ (of max before).Cuts text

section Append

variable {n : Nat} {t : Tail} {text : PyStr} {texts : List PyStr}

theorem lastBytes_of_pos (hn : 0 < n) (bs : List UInt8) : lastBytes n bs = bs.rtake n :=
  if_neg (Nat.ne_of_gt hn)

theorem of_concat (n : Nat) (texts : List PyStr) (text : PyStr) : of n (texts ++ [text]) = (of n texts).append text :=
  List.foldl_concat ..

theorem append_nil (t : Tail) : t.append [] = t := rfl

theorem append_of_cuts (hn : 0 < t.max) (h : t.Cuts text) :
    t.append text = ⟨t.max, [PyStr.decodeReplace ((PyStr.encodeReplace (t.chunks ++ [text]).flatten).rtake t.max)],
      ((PyStr.encodeReplace (t.chunks ++ [text]).flatten).rtake t.max).length⟩ := by
  rw [append, if_neg (by simpa using h.1)]
  simp only [if_pos h.2, lastBytes_of_pos hn]

theorem append_of_not_cuts (htext : text ≠ []) (h : ¬ t.Cuts text) :
    t.append text = ⟨t.max, t.chunks ++ [text], t.totalBytes + (PyStr.encodeReplace text).length⟩ := by
  rw [append, if_neg (by simpa using htext)]
  simp only [if_neg fun hlt => h ⟨htext, hlt⟩]

@[simp] theorem max_append (t : Tail) (text : PyStr) : (t.append text).max = t.max := by
  rw [append]
  split
  · rfl
  · dsimp only
    split <;> rfl

@[simp] theorem max_of (n : Nat) (texts : List PyStr) : (of n texts).max = n := by
  induction texts using List.reverseRecOn with
  | nil => rfl
  | append_singleton texts text ih => rw [of_concat, max_append, ih]

theorem written_concat (texts : List PyStr) (text : PyStr) :
    written (texts ++ [text]) = written texts ++ PyStr.encodeReplace text := by
  simp [written]

theorem not_endsCut_nil : ¬ EndsCut n [] := by
  rintro ⟨before, text, after, h, -⟩
  simp at h

theorem endsCut_concat_nil : EndsCut n (texts ++ [[]]) ↔ EndsCut n texts := by
  constructor
  · rintro ⟨before, text, after, h, hafter, hcuts⟩
    cases after using List.reverseRecOn with
    | nil =>
      obtain ⟨rfl, hnil⟩ := List.append_inj' h rfl
      exact absurd (List.singleton_injective hnil).symm hcuts.1
    | append_singleton after last =>
      rw [← List.cons_append, ← List.append_assoc] at h
      obtain ⟨rfl, -⟩ := List.append_inj' h rfl
      exact ⟨before, text, after, rfl, fun t ht => hafter t (List.mem_append_left _ ht), hcuts⟩
  · rintro ⟨before, text, after, rfl, hafter, hcuts⟩
    refine ⟨before, text, after ++ [[]], by simp, fun t ht => ?_, hcuts⟩
    rcases List.mem_append.mp ht with ht | ht
    · exact hafter t ht
    · exact List.mem_singleton.mp ht

theorem endsCut_concat (htext : text ≠ []) : EndsCut n (texts ++ [text]) ↔ (of n texts).Cuts text := by
  constructor
  · rintro ⟨before, text', after, h, hafter, hcuts⟩
    cases after using List.reverseRecOn with
    | nil =>
      obtain ⟨rfl, hlast⟩ := List.append_inj' h rfl
      rwa [List.singleton_injective hlast]
    | append_singleton after last =>
      rw [← List.cons_append, ← List.append_assoc] at h
      obtain ⟨-, hlast⟩ := List.append_inj' h rfl
      rw [List.singleton_injective hlast] at htext
      exact absurd (hafter last (List.mem_append_right _ (List.mem_singleton_self _))) htext
  · intro hcuts
    exact ⟨texts, text, [], rfl, (nofun), hcuts⟩

end Append

/-! ### What the buffer holds -/

/-- Of what has been written, the buffer holds the last characters, after a replacement character for each of
the bytes that were left of one. -/
structure Holds (n : Nat) (texts : List PyStr) (t : Tail) (front tails : List UInt8) (s : List Char) : Prop where
  written_eq : written texts = front ++ (tails ++ encode s)
  isTail_of_mem : ∀ b ∈ tails, isTail b = true
  length_tails : tails.length ≤ 3
  questioned_chunks : PyStr.questioned t.chunks.flatten = List.replicate tails.length replacement ++ s
  total : t.totalBytes = tails.length + (encode s).length
  cut : (front = [] ∧ tails = [] ∧ ¬ EndsCut n texts) ∨ (EndsCut n texts ∧ t.totalBytes = n) ∨
    ¬ EndsCut n texts ∧ n < t.totalBytes

section Holds

variable {n : Nat} {t : Tail} {text : PyStr} {texts : List PyStr} {front tails : List UInt8} {s : List Char}

theorem encodeReplace_pos (htext : text ≠ []) : 0 < (PyStr.encodeReplace text).length := by
  have hlength := Utf8.length_le_length_encode (PyStr.questioned text)
  have hpos : 0 < (PyStr.questioned text).length := by
    rw [PyStr.questioned, List.length_map]
    exact List.length_pos_of_ne_nil htext
  exact Nat.lt_of_lt_of_le hpos hlength

theorem Holds.keep (h : Holds n texts t front tails s) (htext : text ≠ []) (hnot : ¬ EndsCut n (texts ++ [text])) :
    Holds n (texts ++ [text])
      ⟨t.max, t.chunks ++ [text], t.totalBytes + (PyStr.encodeReplace text).length⟩
      front tails (s ++ PyStr.questioned text) where
  written_eq := by
    rw [written_concat, h.written_eq, Utf8.encode_append]
    simp only [List.append_assoc]
    rfl
  isTail_of_mem := h.isTail_of_mem
  length_tails := h.length_tails
  questioned_chunks := by
    rw [List.flatten_append, List.flatten_singleton, PyStr.questioned_append, h.questioned_chunks,
      List.append_assoc]
  total := by
    rw [h.total, Utf8.encode_append, List.length_append]
    exact Nat.add_assoc ..
  cut := by
    have hpos := encodeReplace_pos htext
    rcases h.cut with ⟨hfront, htails, -⟩ | ⟨-, htotal⟩ | ⟨-, htotal⟩
    · exact .inl ⟨hfront, htails, hnot⟩
    · exact .inr (.inr ⟨hnot, by dsimp only; omega⟩)
    · exact .inr (.inr ⟨hnot, by dsimp only; omega⟩)

/-- The bytes that are joined, when the buffer holds these characters. -/
theorem Holds.joined (h : Holds n texts t front tails s) :
    PyStr.encodeReplace t.chunks.flatten = encode (List.replicate tails.length replacement) ++ encode s := by
  rw [PyStr.encodeReplace, h.questioned_chunks, Utf8.encode_append]

theorem Holds.of_cut (hn : 0 < n) (h : Holds n texts t front tails s) (hmax : t.max = n) (hcuts : t.Cuts text)
    (hends : EndsCut n (texts ++ [text])) :
    ∃ front' tails' s', Holds n (texts ++ [text]) (t.append text) front' tails' s' := by
  have hlong : n ≤ (encode (s ++ PyStr.questioned text)).length := by
    have htotal := hcuts.2
    have hthree := h.length_tails
    have htext : (PyStr.encodeReplace text).length = (encode (PyStr.questioned text)).length := rfl
    rw [h.total, hmax, htext] at htotal
    rw [Utf8.encode_append, List.length_append]
    omega
  have hjoined : PyStr.encodeReplace (t.chunks ++ [text]).flatten =
      encode (List.replicate tails.length replacement) ++ encode (s ++ PyStr.questioned text) := by
    rw [List.flatten_append, List.flatten_singleton, PyStr.encodeReplace_append, h.joined, Utf8.encode_append,
      List.append_assoc]
    rfl
  obtain ⟨tails', s', hlast, htails', hthree'⟩ := Utf8.exists_rtake_encode n (s ++ PyStr.questioned text)
  have hlength : (tails' ++ encode s').length = n := by
    rw [← hlast, Utf8.length_rtake, Nat.min_eq_left hlong]
  rw [append_of_cuts (by rwa [hmax]) hcuts, hmax, hjoined, Utf8.rtake_append_of_le hlong, hlast]
  refine ⟨front ++ tails ++ (encode (s ++ PyStr.questioned text)).take
    ((encode (s ++ PyStr.questioned text)).length - n), tails', s', ?_, htails', hthree', ?_, ?_, ?_⟩
  · rw [List.append_assoc, ← hlast, List.rtake, List.take_append_drop, written_concat, h.written_eq,
      Utf8.encode_append]
    simp only [List.append_assoc]
    rfl
  · rw [List.flatten_singleton, PyStr.decodeReplace, PyStr.questioned_ofChars,
      Utf8.decodeReplace_tails_append htails']
  · exact List.length_append
  · exact .inr (.inl ⟨hends, hlength⟩)

theorem exists_holds (hn : 0 < n) (texts : List PyStr) :
    ∃ front tails s, Holds n texts (of n texts) front tails s := by
  induction texts using List.reverseRecOn with
  | nil => exact ⟨[], [], [], rfl, (nofun), by simp, rfl, rfl, .inl ⟨rfl, rfl, not_endsCut_nil⟩⟩
  | append_singleton texts text ih =>
    obtain ⟨front, tails, s, h⟩ := ih
    by_cases htext : text = []
    · subst htext
      refine ⟨front, tails, s, ?_⟩
      rw [of_concat, append_nil]
      refine { h with written_eq := ?_, cut := ?_ }
      · rw [written_concat, PyStr.encodeReplace_nil, List.append_nil, h.written_eq]
      · rw [endsCut_concat_nil]
        exact h.cut
    · by_cases hcuts : (of n texts).Cuts text
      · rw [of_concat]
        exact h.of_cut hn (max_of n texts) hcuts ((endsCut_concat htext).mpr hcuts)
      · rw [of_concat, append_of_not_cuts htext hcuts]
        exact ⟨front, tails, _, h.keep htext (hcuts ∘ (endsCut_concat htext).mp)⟩

end Holds

/-! ### The value -/

section Value

variable {n : Nat} {t : Tail} {texts : List PyStr} {front tails : List UInt8} {s : List Char}

theorem value_eq (hmax : 0 < t.max) :
    t.value = PyStr.decodeReplace ((PyStr.encodeReplace t.chunks.flatten).rtake t.max) := by
  rw [value, lastBytes_of_pos hmax]
  split
  · rename_i hle
    rw [Utf8.rtake_eq_self hle]
  · rfl

/-- What is left of a character in the last bytes, and the characters after it. -/
structure Ends (n : Nat) (bs tails : List UInt8) (s : List Char) : Prop where
  rtake_eq : bs.rtake n = tails ++ encode s
  isTail_of_mem : ∀ b ∈ tails, isTail b = true
  length_tails : tails.length ≤ 3

theorem Ends.orphans_eq {bs : List UInt8} (h : Ends n bs tails s) : orphans (bs.rtake n) = tails.length := by
  rw [h.rtake_eq]
  exact Utf8.orphans_tails_append h.isTail_of_mem s

theorem Ends.decodeReplace {bs : List UInt8} (h : Ends n bs tails s) :
    PyStr.decodeReplace (bs.rtake n) = PyStr.ofChars (List.replicate tails.length replacement ++ s) := by
  rw [h.rtake_eq, PyStr.decodeReplace, Utf8.decodeReplace_tails_append h.isTail_of_mem]

theorem exists_ends_encode (n : Nat) (s : List Char) : ∃ tails t, Ends n (encode s) tails t := by
  obtain ⟨tails, t, heq, htails, hthree⟩ := Utf8.exists_rtake_encode n s
  exact ⟨tails, t, heq, htails, hthree⟩

/-- The last bytes of replacement characters: as many as there are bytes, but one only for three bytes. -/
theorem decodeReplace_rtake_replicate {j k : Nat} (hj : 0 < j) (hjk : j ≤ k) (hk : k ≤ 3) (s : List Char) :
    PyStr.decodeReplace ((encode (List.replicate k replacement)).rtake j ++ encode s) =
      PyStr.ofChars ((if j = 3 then [replacement] else List.replicate j replacement) ++ s) := by
  obtain ⟨k, rfl⟩ : ∃ m, k = m + 1 := ⟨k - 1, by omega⟩
  have hlast : (encode (List.replicate (k + 1) replacement)).rtake j = [0xef, 0xbf, 0xbd].rtake j := by
    rw [List.replicate_succ', Utf8.encode_append]
    refine Utf8.rtake_append_of_le ?_
    change j ≤ 3
    omega
  rw [hlast, PyStr.decodeReplace]
  have hcases : j = 1 ∨ j = 2 ∨ j = 3 := by omega
  rcases hcases with rfl | rfl | rfl
  · rw [if_neg (by decide)]
    exact congrArg PyStr.ofChars
      (Utf8.decodeReplace_tails_append (List.all_eq_true.mp (show [0xbd].all isTail = true by decide)) s)
  · rw [if_neg (by decide)]
    exact congrArg PyStr.ofChars
      (Utf8.decodeReplace_tails_append (List.all_eq_true.mp (show [0xbf, 0xbd].all isTail = true by decide)) s)
  · rw [if_pos rfl]
    exact congrArg PyStr.ofChars (Utf8.decodeReplace_encode (replacement :: s))

/-- The value is that of the last bytes, with a replacement character for each byte that is left of a
character; only one for three, where the buffer has just been cut. -/
theorem exists_value (hn : 0 < n) (texts : List PyStr) :
    ∃ tails s, Ends n (written texts) tails s ∧ (tails ≠ [] → n ≤ (written texts).length) ∧
      (¬ (EndsCut n texts ∧ tails.length = 3) →
        (of n texts).value = PyStr.ofChars (List.replicate tails.length replacement ++ s)) ∧
      (EndsCut n texts ∧ tails.length = 3 → (of n texts).value = PyStr.ofChars (replacement :: s)) := by
  obtain ⟨front, tails, s, h⟩ := exists_holds hn texts
  have hvalue := value_eq (show 0 < (of n texts).max by rwa [max_of])
  rw [max_of, h.joined] at hvalue
  have hshort : ∀ {tails' : List UInt8} {s' : List Char}, Ends n (written texts) tails' s' →
      tails' ≠ [] → n ≤ (written texts).length := by
    intro tails' s' hends hne
    by_contra hlt
    have horphans := hends.orphans_eq
    rw [written, PyStr.encodeReplace, Utf8.orphans_rtake_of_length_le (Nat.le_of_not_le hlt)] at horphans
    exact hne (List.length_eq_zero_iff.mp horphans.symm)
  rcases Nat.lt_or_ge (encode s).length n with hlt | hle
  · have hsplit : ∀ bs, (bs ++ encode s).rtake n = bs.rtake (n - (encode s).length) ++ encode s :=
      fun bs => Utf8.rtake_append_of_ge (Nat.le_of_lt hlt)
    rw [hsplit] at hvalue
    rcases Nat.lt_or_ge (tails.length + (encode s).length) n with hall | hle
    · obtain ⟨rfl, rfl, hnot⟩ : front = [] ∧ tails = [] ∧ ¬ EndsCut n texts := by
        have htotal := h.total
        rcases h.cut with hcut | ⟨-, hcut⟩ | ⟨-, hcut⟩
        · exact hcut
        · omega
        · omega
      refine ⟨[], s, ⟨?_, List.forall_mem_nil _, by simp⟩, (absurd rfl ·), fun _ => ?_,
        fun hends => absurd hends.1 hnot⟩
      · rw [h.written_eq]
        exact Utf8.rtake_eq_self (Nat.le_of_lt hlt)
      · rw [hvalue, List.length_nil, List.replicate_zero, Utf8.encode_nil, List.rtake_nil, List.nil_append]
        exact congrArg PyStr.ofChars (Utf8.decodeReplace_encode s)
    · have hthree := h.length_tails
      have hends : Ends n (written texts) (tails.rtake (n - (encode s).length)) s := by
        refine ⟨?_, fun b hb => h.isTail_of_mem b (List.mem_of_mem_drop hb), ?_⟩
        · rw [h.written_eq, ← List.append_assoc, hsplit, Utf8.rtake_append_of_le (by omega)]
        · rw [Utf8.length_rtake]
          omega
      have hlength : (tails.rtake (n - (encode s).length)).length = n - (encode s).length := by
        rw [Utf8.length_rtake]
        omega
      have hcut : n - (encode s).length = 3 ↔ EndsCut n texts ∧ n - (encode s).length = 3 := by
        refine ⟨fun hj => ⟨?_, hj⟩, And.right⟩
        have htotal := h.total
        rcases h.cut with ⟨-, rfl, -⟩ | ⟨hends, -⟩ | ⟨-, hcut⟩
        · rw [List.length_nil] at hle
          omega
        · exact hends
        · omega
      rw [decodeReplace_rtake_replicate (by omega) (by omega) hthree] at hvalue
      refine ⟨_, s, hends, hshort hends, ?_, ?_⟩
      · rw [hlength, ← hcut]
        intro hj
        rw [hvalue, if_neg hj]
      · rw [hlength, ← hcut]
        intro hj
        rw [hvalue, if_pos hj]
        rfl
  · rw [Utf8.rtake_append_of_le hle] at hvalue
    obtain ⟨tails', s', hends⟩ := exists_ends_encode n s
    have hwritten : Ends n (written texts) tails' s' := by
      refine { hends with rtake_eq := ?_ }
      rw [h.written_eq, ← List.append_assoc, Utf8.rtake_append_of_le hle, hends.rtake_eq]
    refine ⟨tails', s', hwritten, hshort hwritten, fun _ => by rw [hvalue, hends.decodeReplace], ?_⟩
    rintro ⟨hcut, hlength⟩
    have hall : (encode s).length ≤ n := by
      have htotal := h.total
      rcases h.cut with ⟨-, -, hnot⟩ | ⟨-, htotal'⟩ | ⟨hnot, -⟩
      · exact absurd hcut hnot
      · omega
      · exact absurd hcut hnot
    have horphans := hends.orphans_eq
    rw [Utf8.orphans_rtake_of_length_le hall] at horphans
    omega

/-- **The value is the lenient decoding of the last bytes**, unless the text that was appended last has cut the
buffer, and three bytes of a character were left. -/
theorem value_faithful_iff (hn : 0 < n) (texts : List PyStr) :
    (of n texts).value = PyStr.decodeReplace (lastBytes n (written texts)) ↔
      ¬ (EndsCut n texts ∧ orphans (lastBytes n (written texts)) = 3) := by
  obtain ⟨tails, s, hends, -, hvalue, hcut⟩ := exists_value hn texts
  rw [lastBytes_of_pos hn, hends.orphans_eq, hends.decodeReplace]
  constructor
  · intro h hthree
    rw [hcut hthree, hthree.2] at h
    have hlength := congrArg List.length (PyStr.ofChars_injective h)
    simp at hlength
  · exact hvalue

theorem value_faithful_short :
    (of 2 [PyStr.ofString "né", PyStr.ofString "é"]).value =
      PyStr.decodeReplace (lastBytes 2 (written [PyStr.ofString "né", PyStr.ofString "é"])) :=
  (value_faithful_iff (by decide) _).mpr fun h => absurd h.2 (by decide +kernel)

/-- Ten letters and a character of four bytes, of which three are kept. -/
theorem value_loses_replacements :
    (of 3 [PyStr.ofString "aaaaaaaaaa😀"]).value ≠
      PyStr.decodeReplace (lastBytes 3 (written [PyStr.ofString "aaaaaaaaaa😀"])) := by
  decide +kernel

/-- **The value has as many bytes as the tail may have** where the last bytes begin with a character, and where
the buffer has just been cut after the first of four bytes; nowhere else. -/
theorem length_value_le_iff (hn : 0 < n) (texts : List PyStr) :
    (PyStr.encodeReplace (of n texts).value).length ≤ n ↔
      orphans (lastBytes n (written texts)) = 0 ∨
        EndsCut n texts ∧ orphans (lastBytes n (written texts)) = 3 := by
  obtain ⟨tails, s, hends, hlong, hvalue, hcut⟩ := exists_value hn texts
  rw [lastBytes_of_pos hn, hends.orphans_eq]
  have hlength : tails.length + (encode s).length = min n (written texts).length := by
    rw [← List.length_append, ← hends.rtake_eq, Utf8.length_rtake]
  have hreplicate : ∀ k, (encode (List.replicate k replacement)).length = 3 * k := by
    intro k
    induction k with
    | zero => rfl
    | succ k ih =>
      rw [List.replicate_succ, Utf8.encode_cons, List.length_append, ih]
      change 3 + 3 * k = _
      omega
  by_cases hthree : EndsCut n texts ∧ tails.length = 3
  · have hone : (encode (replacement :: s)).length = 3 + (encode s).length := by
      rw [Utf8.encode_cons, List.length_append]
      rfl
    rw [hcut hthree, PyStr.encodeReplace_ofChars, hone]
    refine iff_of_true ?_ (.inr hthree)
    omega
  · rw [hvalue hthree, PyStr.encodeReplace_ofChars, Utf8.encode_append, List.length_append, hreplicate,
      or_iff_left hthree]
    constructor
    · intro h
      by_contra hne
      have hle := hlong fun hnil => hne (by rw [hnil]; rfl)
      omega
    · intro h
      omega

theorem length_value_short :
    (PyStr.encodeReplace (of 2 [PyStr.ofString "né", PyStr.ofString "é"]).value).length ≤ 2 :=
  (length_value_le_iff (by decide) _).mpr (.inl (by decide +kernel))

/-- One byte of two comes out as three. -/
theorem value_exceeds_cap : 1 < (PyStr.encodeReplace (of 1 [PyStr.ofString "é"]).value).length := by
  decide +kernel

end Value

end Tail

end Krewhub
