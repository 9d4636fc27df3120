import Krewhub.Base.Regex

/-!
# Replacing what a pattern finds

A pattern has a label, which is kept, and a secret, for which a marker is written, with a word boundary
demanded in front or behind. Its matches are found from the left, each after the one before, as `re.sub`
finds them; `Rewrites` is the same without the bound on the number of rounds.

A text is clean of a kind of leak when no word of the kind stands in it between the neighbours the kind asks
for. Every leak of the text written stands in the text read as well, at a place where the pattern found
nothing or within a label: `Rewrites.leak`. The markers come between: a word that has neither end of the
marker and a character the marker lacks cannot reach into one, so what is left to ask of the pattern is what
its matches begin and end with, where the marker changes a neighbour.
-/

namespace Krewhub

variable {α : Type}

/-! ### Patterns and what they find -/

/-- The last character of the word, or of what stands before it. -/
def lastOf (prev : Option α) (w : List α) : Option α := w.getLast?.or prev

/-- `\b` between two neighbours. -/
def edge (word : α → Bool) (before after : Option α) : Bool := before.any word != after.any word

/-- A pattern with a boundary in front, if it leads with one, and behind. -/
structure Pattern (α : Type) where
  lead : Bool
  label : Regex α
  gap : Regex α
  secret : Regex α
  trail : Bool

/-- The groups of a match and what it leaves of the text. -/
structure Found (α : Type) where
  label : List α
  gap : List α
  secret : List α
  rest : List α

def Found.text (m : Found α) : List α := m.label ++ m.gap ++ m.secret

/-- A marker that stands for a secret. -/
structure Marker (α : Type) where
  first : α
  middle : List α
  last : α

def Marker.text (mark : Marker α) : List α := mark.first :: (mark.middle ++ [mark.last])

namespace Pattern

variable (p : Pattern α) (word : α → Bool)

def ways (s : List α) : List (Found α) :=
  (p.label.runs s).flatMap fun l =>
    (p.gap.runs l.2).flatMap fun g => (p.secret.runs g.2).map fun v => ⟨l.1, g.1, v.1, v.2⟩

/-- The match at the start of the text, behind a neighbour. -/
def find (prev : Option α) (s : List α) : Option (Found α) :=
  if p.lead && !edge word prev s.head? then none
  else (p.ways s).find? fun m => !p.trail || edge word (lastOf prev m.text) m.rest.head?

def subFrom (mark : Marker α) : Nat → Option α → List α → List α
  | 0, _, s => s
  | _ + 1, _, [] => []
  | n + 1, prev, c :: s =>
    match p.find word prev (c :: s) with
    | some m => m.label ++ mark.text ++ subFrom mark n (lastOf prev m.text) m.rest
    | none => c :: subFrom mark n (some c) s

/-- `pattern.sub`, for a pattern that does not match the empty text. -/
def sub (mark : Marker α) (s : List α) : List α := p.subFrom word mark s.length none s

/-- The groups are a match behind the neighbour. -/
structure At (prev : Option α) (m : Found α) : Prop where
  label : p.label.Accepts m.label
  gap : p.gap.Accepts m.gap
  secret : p.secret.Accepts m.secret
  lead : p.lead = true → edge word prev (m.text ++ m.rest).head? = true
  trail : p.trail = true → edge word (lastOf prev m.text) m.rest.head? = true

/-- The expression a match is a word of. -/
def core : Regex α := .seq p.label (.seq p.gap p.secret)

variable {p word}

theorem At.core {prev : Option α} {m : Found α} (h : p.At word prev m) : p.core.Accepts m.text :=
  ⟨m.label, m.gap ++ m.secret, h.label, ⟨m.gap, m.secret, h.gap, h.secret, rfl⟩, List.append_assoc ..⟩

theorem mem_ways {s : List α} {m : Found α} :
    m ∈ p.ways s ↔ s = m.text ++ m.rest ∧ p.label.Accepts m.label ∧ p.gap.Accepts m.gap ∧
      p.secret.Accepts m.secret := by
  simp only [ways, List.mem_flatMap, List.mem_map]
  constructor
  · rintro ⟨⟨l, s₁⟩, hmem, ⟨g, s₂⟩, hmem', ⟨v, s₃⟩, hmem'', rfl⟩
    obtain ⟨rfl, hl⟩ := Regex.mem_runs.mp hmem
    obtain ⟨hsplit, hg⟩ := Regex.mem_runs.mp hmem'
    obtain ⟨hsplit', hv⟩ := Regex.mem_runs.mp hmem''
    dsimp only at hsplit hsplit'
    refine ⟨?_, hl, hg, hv⟩
    rw [hsplit, hsplit', Found.text, List.append_assoc, List.append_assoc]
  · rintro ⟨rfl, hl, hg, hv⟩
    refine ⟨(m.label, m.gap ++ (m.secret ++ m.rest)), Regex.mem_runs.mpr ⟨?_, hl⟩,
      (m.gap, m.secret ++ m.rest), Regex.mem_runs.mpr ⟨rfl, hg⟩,
      (m.secret, m.rest), Regex.mem_runs.mpr ⟨rfl, hv⟩, rfl⟩
    rw [Found.text, List.append_assoc, List.append_assoc]

theorem at_of_find {prev : Option α} {s : List α} {m : Found α} (h : p.find word prev s = some m) :
    s = m.text ++ m.rest ∧ p.At word prev m := by
  rw [find] at h
  split at h
  · cases h
  · rename_i hlead
    obtain ⟨rfl, hl, hg, hv⟩ := mem_ways.mp (List.mem_of_find?_eq_some h)
    have htrail := List.find?_some h
    refine ⟨rfl, hl, hg, hv, fun hp => ?_, fun hp => ?_⟩
    · simpa [hp] using hlead
    · simpa [hp] using htrail

theorem not_at_of_find {prev : Option α} {s : List α} (h : p.find word prev s = none) (m : Found α)
    (hs : s = m.text ++ m.rest) : ¬p.At word prev m := by
  intro hat
  rw [find] at h
  split at h
  · rename_i hlead
    rw [Bool.and_eq_true, Bool.not_eq_true'] at hlead
    rw [hs, hat.lead hlead.1] at hlead
    cases hlead.2
  · have hnone := List.find?_eq_none.mp h m (mem_ways.mpr ⟨hs, hat.label, hat.gap, hat.secret⟩)
    cases htrail : p.trail with
    | false => simp [htrail] at hnone
    | true => simp [htrail, hat.trail htrail] at hnone

/-- Where nothing is asked behind the match, the secret is matched the first way it can be. -/
theorem secret_of_find {prev : Option α} {s : List α} {m : Found α} (h : p.find word prev s = some m)
    (htrail : p.trail = false) :
    (p.secret.runs (m.secret ++ m.rest)).head? = some (m.secret, m.rest) := by
  rw [find] at h
  split at h
  · cases h
  · have hfirst : ∀ ms : List (Found α), ms.find? (fun _ => true) = ms.head? := by
      intro ms
      cases ms <;> rfl
    have hhead : (p.ways s).head? = some m := by
      rw [← h, htrail, ← hfirst]
      rfl
    obtain ⟨⟨l, s₁⟩, -, hgap⟩ := Regex.head?_flatMap_eq_some hhead
    obtain ⟨⟨g, s₂⟩, -, hsecret⟩ := Regex.head?_flatMap_eq_some hgap
    rw [List.head?_map, Option.map_eq_some_iff] at hsecret
    obtain ⟨⟨v, s₃⟩, hrun, rfl⟩ := hsecret
    have hsplit := (Regex.mem_runs.mp (List.mem_of_mem_head? hrun)).1
    dsimp only at hsplit hrun ⊢
    rw [← hsplit]
    exact hrun

end Pattern

/-! ### The text written -/

/-- What is written for a text behind a neighbour. -/
inductive Rewrites (p : Pattern α) (word : α → Bool) (mark : Marker α) :
    Option α → List α → List α → Prop
  | nil (prev : Option α) : Rewrites p word mark prev [] []
  | copy {prev : Option α} {c : α} {s out : List α} (hnone : p.find word prev (c :: s) = none)
      (h : Rewrites p word mark (some c) s out) : Rewrites p word mark prev (c :: s) (c :: out)
  | replace {prev : Option α} {m : Found α} {out : List α}
      (hfind : p.find word prev (m.text ++ m.rest) = some m)
      (h : Rewrites p word mark (lastOf prev m.text) m.rest out) :
      Rewrites p word mark prev (m.text ++ m.rest) (m.label ++ (mark.text ++ out))

variable {p : Pattern α} {word : α → Bool} {mark : Marker α}

theorem Pattern.rewrites_subFrom (hpos : ∀ w, p.core.Accepts w → w ≠ []) {n : Nat} {prev : Option α}
    {s : List α} (hn : s.length ≤ n) : Rewrites p word mark prev s (p.subFrom word mark n prev s) := by
  induction n generalizing prev s with
  | zero =>
    obtain rfl := List.length_eq_zero_iff.mp (Nat.le_zero.mp hn)
    exact .nil prev
  | succ n ih =>
    cases s with
    | nil => exact .nil prev
    | cons c s =>
      rw [Pattern.subFrom]
      cases hfind : p.find word prev (c :: s) with
      | none =>
        exact .copy hfind (ih (Nat.le_of_succ_le_succ hn))
      | some m =>
        obtain ⟨hsplit, hat⟩ := Pattern.at_of_find hfind
        have hrest : m.rest.length ≤ n := by
          have hlength := congrArg List.length hsplit
          have htext := List.length_pos_iff.mpr (hpos _ hat.core)
          rw [List.length_append, List.length_cons] at hlength
          rw [List.length_cons] at hn
          omega
        rw [hsplit] at hfind ⊢
        dsimp only
        rw [List.append_assoc]
        exact .replace hfind (ih hrest)

/-! ### Leaks -/

/-- A kind of word, with a boundary in front and behind if it asks for one, and what has to follow. -/
structure Leak (α : Type) where
  lead : Bool
  core : Regex α
  trail : Bool
  follow : List α → Prop

/-- The word stands between the neighbours the kind asks for. -/
structure Leak.At (k : Leak α) (word : α → Bool) (prev : Option α) (w b : List α) : Prop where
  core : k.core.Accepts w
  lead : k.lead = true → edge word prev w.head? = true
  trail : k.trail = true → edge word w.getLast? b.head? = true
  follow : k.follow b

/-- A word of the kind stands in the text. -/
def Leak.In (k : Leak α) (word : α → Bool) (s : List α) : Prop :=
  ∃ a w b, s = a ++ w ++ b ∧ k.At word a.getLast? w b

/-- The word has neither end of the marker and a character the marker lacks. -/
structure Marker.Apart (mark : Marker α) (w : List α) : Prop where
  first : mark.first ∉ w
  last : mark.last ∉ w
  foreign : ∃ c ∈ w, c ∉ mark.text

theorem Marker.Apart.ne_nil {w : List α} (h : mark.Apart w) : w ≠ [] := by
  rintro rfl
  obtain ⟨c, hc, -⟩ := h.foreign
  cases hc

/-- A word that follows a label and a marker ends within the label. -/
theorem Marker.Apart.prefix_label {l w b out : List α} (h : mark.first ∉ w)
    (hout : w ++ b = l ++ (mark.text ++ out)) : ∃ l', l = w ++ l' ∧ b = l' ++ (mark.text ++ out) := by
  rcases List.append_eq_append_iff.mp hout with ⟨l', rfl, hb⟩ | ⟨x, rfl, hx⟩
  · exact ⟨l', rfl, hb⟩
  · cases x with
    | nil => exact ⟨[], by simp, hx.symm⟩
    | cons c x =>
      obtain ⟨rfl, -⟩ := List.cons.inj hx
      exact absurd (List.mem_append_right l List.mem_cons_self) h

/-- A word apart from the marker does not reach into one. -/
theorem Marker.Apart.past {w a b out : List α} (h : mark.Apart w) (hout : mark.text ++ out = a ++ w ++ b) :
    ∃ a', a = mark.text ++ a' ∧ out = a' ++ w ++ b := by
  rw [List.append_assoc] at hout
  rcases List.append_eq_append_iff.mp hout with ⟨a', rfl, hrest⟩ | ⟨x, hx, hrest⟩
  · exact ⟨a', rfl, hrest.trans (List.append_assoc ..).symm⟩
  · cases List.eq_nil_or_concat x with
    | inl hnil =>
      subst hnil
      exact ⟨[], by simpa using hx.symm, by simpa using hrest.symm⟩
    | inr hconcat =>
      obtain ⟨y, c, rfl⟩ := hconcat
      have hlast : c = mark.last := by
        have hends := congrArg List.getLast? hx
        simpa [Marker.text, List.getLast?_cons] using hends.symm
      exfalso
      rcases List.append_eq_append_iff.mp hrest with ⟨z, hz, -⟩ | ⟨z, hz, -⟩
      · obtain ⟨d, hd, hforeign⟩ := h.foreign
        apply hforeign
        rw [hx, hz]
        exact List.mem_append_right a (List.mem_append_left z hd)
      · apply h.last
        rw [hz, ← hlast]
        simp

/-- What stands behind a word in the text read and in the text written: the same rewritten, or the rest of a
label and what follows it. -/
inductive Behind (p : Pattern α) (word : α → Bool) (mark : Marker α) :
    Option α → List α → List α → Prop
  | rewrites {prev : Option α} {s out : List α} (h : Rewrites p word mark prev s out) :
      Behind p word mark prev s out
  | label {prev prev₀ : Option α} {m : Found α} {l l' out : List α}
      (hfind : p.find word prev₀ (m.text ++ m.rest) = some m) (hlabel : m.label = l ++ l')
      (hlast : prev = lastOf prev₀ l) (h : Rewrites p word mark (lastOf prev₀ m.text) m.rest out) :
      Behind p word mark prev (l' ++ (m.gap ++ m.secret ++ m.rest)) (l' ++ (mark.text ++ out))

/-- What a pattern must be like for a kind of leak to be no more in the text written than in the text read:
the words of the kind are apart from the marker, no match begins where a word of the kind could end by it, and
what has to follow a word does so in the text read as well. -/
structure Pattern.Spares (p : Pattern α) (word : α → Bool) (mark : Marker α) (k : Leak α) : Prop where
  apart : ∀ w, k.core.Accepts w → mark.Apart w
  start : k.trail = true → ∀ prev m, p.At word prev m → (lastOf prev m.label).any word = true →
    (m.gap ++ m.secret ++ m.rest).head?.any word = false
  follow : ∀ w s out, k.core.Accepts w → Behind p word mark w.getLast? s out → k.follow out → k.follow s

theorem lastOf_append (prev : Option α) (a w : List α) : lastOf prev (a ++ w) = lastOf (lastOf prev a) w := by
  rw [lastOf, lastOf, lastOf, List.getLast?_append, Option.or_assoc]

theorem lastOf_text (prev : Option α) : lastOf prev mark.text = some mark.last := by
  rw [lastOf, Marker.text, List.getLast?_cons, List.getLast?_concat, Option.getD_some, Option.some_or]

theorem lastOf_of_ne_nil {w : List α} (h : w ≠ []) (prev prev' : Option α) : lastOf prev w = lastOf prev' w := by
  rw [lastOf, lastOf, List.getLast?_eq_some_getLast h]
  rfl

/-- Behind a word that the text written begins with. -/
theorem Rewrites.behind {prev : Option α} {s out : List α} (h : Rewrites p word mark prev s out)
    {w b : List α} (hw : mark.first ∉ w) (hout : out = w ++ b) :
    ∃ b', s = w ++ b' ∧ Behind p word mark (lastOf prev w) b' b := by
  induction h generalizing w with
  | nil prev =>
    obtain ⟨rfl, rfl⟩ := List.append_eq_nil_iff.mp hout.symm
    exact ⟨[], rfl, .rewrites (.nil _)⟩
  | @copy prev c s out hnone h ih =>
    cases w with
    | nil =>
      subst hout
      exact ⟨c :: s, rfl, .rewrites (.copy hnone h)⟩
    | cons d w =>
      obtain ⟨rfl, rfl⟩ := List.cons.inj hout
      obtain ⟨b', rfl, hbehind⟩ := ih (fun hmem => hw (List.mem_cons_of_mem _ hmem)) rfl
      refine ⟨b', rfl, ?_⟩
      rw [← List.singleton_append, lastOf_append]
      exact hbehind
  | @replace prev m out hfind h ih =>
    obtain ⟨l', hlabel, rfl⟩ := Marker.Apart.prefix_label hw hout.symm
    refine ⟨l' ++ (m.gap ++ m.secret ++ m.rest), ?_, .label hfind hlabel rfl h⟩
    rw [Found.text, hlabel]
    simp only [List.append_assoc]

/-- In front of the marker stands no leak that did not stand before what it replaces. -/
theorem Pattern.Spares.at_behind {k : Leak α} (h : p.Spares word mark k)
    (hfirst : word mark.first = false) {prev prev' : Option α} {w b b' : List α}
    (hbehind : Behind p word mark (lastOf prev' w) b' b) (hk : k.At word prev w b) : k.At word prev w b' where
  core := hk.core
  lead := hk.lead
  follow := by
    rw [lastOf_of_ne_nil (h.apart w hk.core).ne_nil prev' none, lastOf, Option.or_none] at hbehind
    exact h.follow w _ _ hk.core hbehind hk.follow
  trail htrail := by
    have hedge := hk.trail htrail
    have hne := (h.apart w hk.core).ne_nil
    have hlast : lastOf prev' w = w.getLast? := by
      rw [lastOf, List.getLast?_eq_some_getLast hne]
      rfl
    have hfront : ∀ prev₀ m l (out : List α), p.At word prev₀ m → m.label = l → lastOf prev₀ l = lastOf prev' w →
        edge word w.getLast? (mark.text ++ out).head? = true →
        edge word w.getLast? (m.gap ++ m.secret ++ m.rest).head? = true := by
      intro prev₀ m l out hat hlabel hprev hmark
      have hword : w.getLast?.any word = true := by
        simpa [edge, Marker.text, hfirst] using hmark
      have hnot := h.start htrail prev₀ m hat (by rw [hlabel, hprev, hlast, hword])
      rw [edge, hword, hnot]
      rfl
    generalize hprev : lastOf prev' w = before at hbehind
    cases hbehind with
    | rewrites hrewrites =>
      cases hrewrites with
      | nil => exact hedge
      | copy hnone hrest => exact hedge
      | @replace _ m out hfind hrest =>
        have hat := (Pattern.at_of_find hfind).2
        rw [Found.text, List.append_assoc, List.append_assoc, ← List.append_assoc m.gap]
        cases hlabel : m.label with
        | nil =>
          rw [hlabel] at hedge
          exact hfront _ m [] out hat hlabel (hprev ▸ rfl) hedge
        | cons c l =>
          rw [hlabel] at hedge
          exact hedge
    | @label prev₀ m l l' out hfind hlabel hbefore hrest =>
      have hat := (Pattern.at_of_find hfind).2
      cases l' with
      | nil => exact hfront prev₀ m l out hat (by simpa using hlabel) (hbefore.symm.trans hprev.symm) hedge
      | cons c l' => exact hedge

/-- After its matches the pattern leaves nothing that a kind of leak could begin with, unless the match ends
where no word does. -/
def Pattern.EndsApart (p : Pattern α) (word : α → Bool) (k : Leak α) (s : List α) : Prop :=
  k.lead = true → ∀ prev s' m, s' <:+ s → p.find word prev s' = some m → ∀ w b, m.rest = w ++ b →
    k.core.Accepts w → w.head?.any word = true → (lastOf prev m.text).any word = false

/-- What a leak is behind the marker it is behind the match. -/
theorem Pattern.EndsApart.at_rest {k : Leak α} {prev : Option α} {m : Found α} {w b : List α}
    (h : p.EndsApart word k (m.text ++ m.rest)) (hlast : word mark.last = false)
    (hfind : p.find word prev (m.text ++ m.rest) = some m) (hrest : m.rest = w ++ b)
    (hk : k.At word (some mark.last) w b) : k.At word (lastOf prev m.text) w b := by
  refine ⟨hk.core, fun hlead => ?_, hk.trail, hk.follow⟩
  have hword : w.head?.any word = true := by
    simpa [edge, hlast] using hk.lead hlead
  have hnot := h hlead prev _ m (List.suffix_refl _) hfind w b hrest hk.core hword
  rw [edge, hword, hnot]
  rfl

/-- The word stands in the label of a match, before the marker. -/
def Pattern.InLabel (p : Pattern α) (word : α → Bool) (mark : Marker α) (w b : List α) : Prop :=
  ∃ prev m l l' out, p.find word prev (m.text ++ m.rest) = some m ∧ m.label = l ++ w ++ l' ∧
    Rewrites p word mark (lastOf prev m.text) m.rest out ∧ b = l' ++ (mark.text ++ out)

/-- A leak of the text written is one of the text read, where the pattern found nothing or in a label. -/
theorem Rewrites.leak {k : Leak α} (hspares : p.Spares word mark k) (hfirst : word mark.first = false)
    (hlast : word mark.last = false) {prev : Option α} {s out : List α}
    (h : Rewrites p word mark prev s out) (hends : p.EndsApart word k s) {prev' : Option α}
    (hprev : ∀ w b, s = w ++ b → k.At word prev' w b → k.At word prev w b) {a w b : List α}
    (hout : out = a ++ w ++ b) (hk : k.At word (lastOf prev' a) w b) :
    ∃ a' b', s = a' ++ w ++ b' ∧ k.At word (lastOf prev a') w b' ∧
      (p.find word (lastOf prev a') (w ++ b') = none ∨ p.InLabel word mark w b) := by
  have hapart := hspares.apart w hk.core
  induction h generalizing prev' a with
  | nil prev =>
    have hnil := List.append_eq_nil_iff.mp hout.symm
    exact absurd (List.append_eq_nil_iff.mp hnil.1).2 hapart.ne_nil
  | @copy prev c s out hnone h ih =>
    cases a with
    | nil =>
      obtain ⟨b', hs, hbehind⟩ := (Rewrites.copy hnone h).behind hapart.first hout
      refine ⟨[], b', hs, hprev w b' hs (hspares.at_behind hfirst hbehind hk), .inl ?_⟩
      rw [← hs]
      exact hnone
    | cons d a =>
      obtain ⟨rfl, hrest⟩ := List.cons.inj hout
      rw [← List.singleton_append, lastOf_append] at hk
      obtain ⟨a', b', rfl, hk', hplace⟩ := ih (fun hlead prev s' m hs' => hends hlead prev s' m
        (hs'.trans (List.suffix_cons _ _))) (fun _ _ _ h => h) hrest hk
      refine ⟨c :: a', b', rfl, ?_, ?_⟩
      · rw [← List.singleton_append, lastOf_append]
        exact hk'
      · rw [← List.singleton_append, lastOf_append]
        exact hplace
  | @replace prev m out hfind h ih =>
    have hat := (Pattern.at_of_find hfind).2
    rw [List.append_assoc] at hout
    rcases List.append_eq_append_iff.mp hout with ⟨a₂, rfl, hrest⟩ | ⟨x, hlabel, hrest⟩
    · rw [← List.append_assoc] at hrest
      obtain ⟨a₃, rfl, hpast⟩ := hapart.past hrest
      rw [lastOf_append, lastOf_append, lastOf_text] at hk
      obtain ⟨a', b', hs, hk', hplace⟩ := ih (fun hlead prev s' m' hs' => hends hlead prev s' m'
        (hs'.trans (List.suffix_append _ _))) (fun _ _ hw' => hends.at_rest hlast hfind hw') hpast hk
      refine ⟨m.text ++ a', b', by rw [hs]; simp only [List.append_assoc], ?_⟩
      rw [lastOf_append]
      exact ⟨hk', hplace⟩
    · obtain ⟨l', rfl, hb⟩ := Marker.Apart.prefix_label hapart.first hrest
      have hsplit : m.label = a ++ w ++ l' := hlabel.trans (List.append_assoc ..).symm
      have hs : m.text ++ m.rest = a ++ w ++ (l' ++ (m.gap ++ m.secret ++ m.rest)) := by
        rw [Found.text, hsplit]
        simp only [List.append_assoc]
      have hbehind : Behind p word mark (lastOf (lastOf prev a) w) (l' ++ (m.gap ++ m.secret ++ m.rest)) b := by
        rw [hb]
        exact .label hfind hsplit (lastOf_append prev a w).symm h
      have hk' := hspares.at_behind hfirst hbehind hk
      refine ⟨a, _, hs, ?_, .inr ⟨prev, m, a, l', out, hfind, hsplit, h, hb⟩⟩
      cases a with
      | nil => exact hprev w _ hs hk'
      | cons c a => exact lastOf_of_ne_nil (List.cons_ne_nil c a) prev prev' ▸ hk'

/-! ### Clean texts -/

/-- Wherever a word of the kind stands the pattern has a match, and none stands in a label. -/
structure Pattern.Removes (p : Pattern α) (word : α → Bool) (mark : Marker α) (k : Leak α) : Prop where
  found : ∀ prev w b, k.At word prev w b → ∃ m, w ++ b = m.text ++ m.rest ∧ p.At word prev m
  label : ∀ w b, p.InLabel word mark w b → k.core.Accepts w → ¬k.follow b

theorem lastOf_none (w : List α) : lastOf none w = w.getLast? := Option.or_none

theorem Pattern.rewrites_sub (hpos : ∀ w, p.core.Accepts w → w ≠ []) (s : List α) :
    Rewrites p word mark none s (p.sub word mark s) :=
  p.rewrites_subFrom hpos (Nat.le_refl _)

theorem Leak.not_in_sub {k : Leak α} {s : List α} (hclean : ¬k.In word s) (hspares : p.Spares word mark k)
    (hfirst : word mark.first = false) (hlast : word mark.last = false)
    (hpos : ∀ w, p.core.Accepts w → w ≠ []) (hends : p.EndsApart word k s) :
    ¬k.In word (p.sub word mark s) := by
  rintro ⟨a, w, b, hout, hk⟩
  rw [← lastOf_none] at hk
  obtain ⟨a', b', hs, hk', -⟩ := (Pattern.rewrites_sub hpos s).leak hspares hfirst hlast hends
    (fun _ _ _ h => h) hout hk
  rw [lastOf_none] at hk'
  exact hclean ⟨a', w, b', hs, hk'⟩

/-- What the pattern removes does not stand in the text written. -/
theorem Pattern.Removes.not_in_sub {k : Leak α} {s : List α} (h : p.Removes word mark k)
    (hspares : p.Spares word mark k) (hfirst : word mark.first = false) (hlast : word mark.last = false)
    (hpos : ∀ w, p.core.Accepts w → w ≠ []) (hends : p.EndsApart word k s) :
    ¬k.In word (p.sub word mark s) := by
  rintro ⟨a, w, b, hout, hk⟩
  have hlabel := h.label w b
  have hcore := hk.core
  have hfollow := hk.follow
  rw [← lastOf_none] at hk
  obtain ⟨a', b', -, hk', hnone | hin⟩ := (Pattern.rewrites_sub hpos s).leak hspares hfirst hlast hends
    (fun _ _ _ h => h) hout hk
  · obtain ⟨m, hsplit, hat⟩ := h.found _ w b' hk'
    exact Pattern.not_at_of_find hnone m hsplit hat
  · exact hlabel hin hcore hfollow

/-! ### What follows a label -/

/-- A value: something that is no space. -/
def IsValue (space : α → Bool) (b : List α) : Prop := ∃ c ∈ b.head?, space c = false

theorem IsValue.append {space : α → Bool} {w : List α} (h : IsValue space w) (b : List α) :
    IsValue space (w ++ b) := by
  obtain ⟨c, hc, hspace⟩ := h
  cases w with
  | nil => cases hc
  | cons d w => exact ⟨c, hc, hspace⟩

/-- Where no match begins with a space, what is written begins with one if what is read does. -/
theorem Rewrites.isValue {space : α → Bool} (hstart : ∀ prev m, p.At word prev m → IsValue space m.text)
    {prev : Option α} {s out : List α} (h : Rewrites p word mark prev s out) (hvalue : IsValue space out) :
    IsValue space s := by
  cases h with
  | nil => exact hvalue
  | copy hnone h => exact hvalue
  | replace hfind h => exact (hstart _ _ (Pattern.at_of_find hfind).2).append _

theorem Behind.isValue {space : α → Bool} {prev : Option α}
    (hstart : ∀ prev₀ m, p.At word prev₀ m → prev = lastOf prev₀ m.label →
      IsValue space (m.gap ++ m.secret ++ m.rest))
    (htext : ∀ prev₀ m, p.At word prev₀ m → IsValue space m.text) {s out : List α}
    (h : Behind p word mark prev s out) (hvalue : IsValue space out) : IsValue space s := by
  cases h with
  | rewrites h => exact h.isValue htext hvalue
  | @label prev₀ m l l' out hfind hlabel hbefore h =>
    cases l' with
    | nil =>
      rw [List.append_nil] at hlabel
      exact hstart prev₀ m (Pattern.at_of_find hfind).2 (hlabel ▸ hbefore)
    | cons c l' => exact hvalue

/-- What is apart from the marker does not begin where the end of a marker stands. -/
theorem Marker.Apart.not_prefix {x y s : List α} (h : mark.Apart x) (hy : y <:+ mark.text) (hne : y ≠ [])
    (hys : y <+: s) (hxs : x <+: s) : False := by
  rcases List.prefix_or_prefix_of_prefix hys hxs with hyx | hxy
  · apply h.last
    apply hyx.subset
    obtain ⟨before, hmark⟩ := hy
    have hends := congrArg List.getLast? hmark
    rw [List.getLast?_append, List.getLast?_eq_some_getLast hne, Option.some_or] at hends
    have hlast : mark.text.getLast? = some mark.last := by
      simp [Marker.text, List.getLast?_cons]
    rw [hlast, Option.some.injEq] at hends
    rw [← hends]
    exact List.getLast_mem _
  · obtain ⟨c, hc, hforeign⟩ := h.foreign
    exact hforeign (hy.subset (hxy.subset hc))

/-! ### Values that a marker is not the whole of -/

/-- A value for which no marker stands, or one with more behind it. -/
def IsOpenValue (space : α → Bool) (mark : Marker α) (b : List α) : Prop :=
  IsValue space b ∧ ∀ b', b = mark.text ++ b' → IsValue space b'

/-- A text that begins with the end of a marker is copied to behind it. -/
theorem Rewrites.past_mark (hstub : ∀ prev m, p.At word prev m → ∃ x, x <+: m.text ∧ mark.Apart x)
    {y : List α} (hy : y <:+ mark.text) {prev : Option α} {s out : List α}
    (h : Rewrites p word mark prev (y ++ s) out) :
    ∃ prev' out', out = y ++ out' ∧ Rewrites p word mark prev' s out' := by
  induction y generalizing prev out with
  | nil => exact ⟨prev, out, rfl, h⟩
  | cons d y ih =>
    generalize hs : d :: y ++ s = text at h
    cases h with
    | nil => cases hs
    | copy hnone h =>
      obtain ⟨rfl, rfl⟩ := List.cons.inj hs
      obtain ⟨prev', out', rfl, hrest⟩ := ih ((List.suffix_cons _ _).trans hy) h
      exact ⟨prev', out', rfl, hrest⟩
    | @replace _ m out hfind h =>
      exfalso
      obtain ⟨x, hx, hapart⟩ := hstub prev m (Pattern.at_of_find hfind).2
      have hboth : d :: y <+: m.text ++ m.rest := hs ▸ List.prefix_append _ _
      exact hapart.not_prefix hy (List.cons_ne_nil d y) hboth (hx.trans (List.prefix_append _ _))

theorem Behind.isOpenValue {space : α → Bool}
    (hstart : ∀ prev m, p.At word prev m → IsValue space m.text)
    (hstub : ∀ prev m, p.At word prev m → ∃ x, x <+: m.text ∧ mark.Apart x)
    (hlabel : ∀ prev m, p.At word prev m → mark.first ∉ m.label)
    (hafter : (∀ prev s m, p.find word prev s = some m → ¬IsValue space m.rest) ∨
      ∀ prev m, p.At word prev m → IsValue space (m.gap ++ m.secret) ∧ mark.first ∉ m.gap ++ m.secret)
    {prev : Option α} {s out : List α} (h : Behind p word mark prev s out)
    (hopen : IsOpenValue space mark out) : IsOpenValue space mark s := by
  obtain ⟨hvalue, hmore⟩ := hopen
  cases h with
  | rewrites h =>
    refine ⟨h.isValue hstart hvalue, fun b' hb' => ?_⟩
    subst hb'
    obtain ⟨prev', out', rfl, hrest⟩ := h.past_mark hstub (List.suffix_refl _)
    exact hrest.isValue hstart (hmore out' rfl)
  | @label prev₀ m l l' out hfind hsplit hbefore h =>
    have hat := (Pattern.at_of_find hfind).2
    cases l' with
    | nil =>
      rcases hafter with hgreedy | hfront
      · exact absurd (h.isValue hstart (hmore out rfl)) (hgreedy _ _ m hfind)
      · obtain ⟨hfrontValue, hfirst⟩ := hfront prev₀ m hat
        refine ⟨hfrontValue.append m.rest, fun b' hb' => ?_⟩
        obtain ⟨c, hc, -⟩ := hfrontValue
        rw [List.nil_append, Marker.text] at hb'
        cases hfront' : m.gap ++ m.secret with
        | nil =>
          rw [hfront'] at hc
          cases hc
        | cons d w =>
          rw [hfront'] at hb' hfirst
          obtain ⟨rfl, -⟩ := List.cons.inj hb'
          exact absurd List.mem_cons_self hfirst
    | cons c l' =>
      refine ⟨hvalue, fun b' hb' => ?_⟩
      obtain ⟨hc, -⟩ := List.cons.inj hb'
      refine absurd ?_ (hlabel prev₀ m hat)
      rw [hsplit, hc]
      simp

/-! ### The leaks of a pattern -/

namespace Pattern

/-- Every match that the pattern finds in the text is a label and a marker. -/
def Marked (p : Pattern α) (word : α → Bool) (mark : Marker α) (s : List α) : Prop :=
  ∀ before s' m, s = before ++ s' → p.find word before.getLast? s' = some m → m.gap ++ m.secret = mark.text

/-- The leak of a pattern, where the secret is told by its characters. -/
def leak (p : Pattern α) : Leak α := ⟨p.lead, p.core, p.trail, fun _ => True⟩

/-- The leak of a pattern whose secret is whatever follows. -/
def valueLeak (p : Pattern α) (follow : List α → Prop) : Leak α :=
  ⟨p.lead, .seq p.label p.gap, false, follow⟩

/-- No match begins with a word behind a word. -/
def StartsApart (p : Pattern α) (word : α → Bool) : Prop :=
  ∀ prev m, p.At word prev m → (lastOf prev m.label).any word = true →
    (m.gap ++ m.secret ++ m.rest).head?.any word = false

theorem head?_append_of_ne_nil {w : List α} (h : w ≠ []) (b : List α) : (w ++ b).head? = w.head? := by
  cases w with
  | nil => exact absurd rfl h
  | cons c w => rfl

theorem leak_in (hpos : ∀ w, p.core.Accepts w → w ≠ []) {s before : List α} {m : Found α}
    (hs : s = before ++ (m.text ++ m.rest)) (hat : p.At word before.getLast? m) : p.leak.In word s := by
  have hne := hpos _ hat.core
  refine ⟨before, m.text, m.rest, hs.trans (List.append_assoc ..).symm, hat.core, fun hlead => ?_,
    fun htrail => ?_, trivial⟩
  · rw [← head?_append_of_ne_nil hne m.rest]
    exact hat.lead hlead
  · have hlast := lastOf_of_ne_nil hne before.getLast? none
    rw [lastOf_none] at hlast
    rw [← hlast]
    exact hat.trail htrail

theorem valueLeak_in {follow : List α → Prop} (hpos : ∀ w, (Regex.seq p.label p.gap).Accepts w → w ≠ [])
    {s before : List α} {m : Found α} (hs : s = before ++ (m.text ++ m.rest)) (hat : p.At word before.getLast? m)
    (hfollow : follow (m.secret ++ m.rest)) : (p.valueLeak follow).In word s := by
  have hcore : (Regex.seq p.label p.gap).Accepts (m.label ++ m.gap) := ⟨_, _, hat.label, hat.gap, rfl⟩
  have hsplit : m.text ++ m.rest = m.label ++ m.gap ++ (m.secret ++ m.rest) := by
    rw [Found.text]
    simp only [List.append_assoc]
  refine ⟨before, m.label ++ m.gap, m.secret ++ m.rest, ?_, hcore, fun hlead => ?_, nofun, hfollow⟩
  · rw [hs, hsplit, ← List.append_assoc]
  · rw [← head?_append_of_ne_nil (hpos _ hcore) (m.secret ++ m.rest), ← hsplit]
    exact hat.lead hlead

/-- Where every match has the marker for a secret, nothing changes. -/
theorem subFrom_eq_self {n : Nat} {prev : Option α} {s : List α}
    (h : ∀ before s' m, s = before ++ s' → p.find word (lastOf prev before) s' = some m →
      m.gap ++ m.secret = mark.text) : p.subFrom word mark n prev s = s := by
  induction n generalizing prev s with
  | zero => rfl
  | succ n ih =>
    cases s with
    | nil => rfl
    | cons c s =>
      rw [subFrom]
      cases hfind : p.find word prev (c :: s) with
      | none =>
        have hrest : p.subFrom word mark n (some c) s = s := by
          refine ih fun before s' m hs hfind' => h (c :: before) s' m (by rw [hs]; rfl) ?_
          rw [← List.singleton_append, lastOf_append]
          exact hfind'
        exact congrArg (c :: ·) hrest
      | some m =>
        have hmark := h [] (c :: s) m rfl hfind
        have hsplit := (at_of_find hfind).1
        have hrest : p.subFrom word mark n (lastOf prev m.text) m.rest = m.rest := by
          refine ih fun before s' m' hs hfind' => h (m.text ++ before) s' m' ?_ ?_
          · rw [hsplit, hs, List.append_assoc]
          · rw [lastOf_append]
            exact hfind'
        dsimp only
        rw [hrest, hsplit, ← hmark, Found.text]
        simp only [List.append_assoc]

theorem sub_of_marked {s : List α} (h : p.Marked word mark s) : p.sub word mark s = s :=
  subFrom_eq_self fun before s' m hs hfind => h before s' m hs (lastOf_none before ▸ hfind)

theorem removes_leak (hpos : ∀ w, p.core.Accepts w → w ≠ [])
    (hlabel : ∀ w b, p.InLabel word mark w b → ¬p.core.Accepts w) : p.Removes word mark p.leak where
  label w b hin hcore := absurd hcore (hlabel w b hin)
  found prev w b hk := by
    have hne := hpos w hk.core
    obtain ⟨l, x, hl, ⟨g, v, hg, hv, rfl⟩, rfl⟩ := hk.core
    have htext : l ++ g ++ v = l ++ (g ++ v) := List.append_assoc ..
    refine ⟨⟨l, g, v, b⟩, by rw [Found.text, htext], hl, hg, hv, fun hlead => ?_, fun htrail => ?_⟩
    · rw [Found.text, htext, head?_append_of_ne_nil hne]
      exact hk.lead hlead
    · rw [Found.text, htext, lastOf_of_ne_nil hne prev none, lastOf_none]
      exact hk.trail htrail

theorem removes_valueLeak {space : α → Bool} {follow : List α → Prop}
    (hpos : ∀ w, (Regex.seq p.label p.gap).Accepts w → w ≠ [])
    (hvalue : ∀ c, space c = false → p.secret.Accepts [c]) (htrail : p.trail = false)
    (hfollow : ∀ b, follow b → IsValue space b)
    (hlabel : ∀ w b, p.InLabel word mark w b → (Regex.seq p.label p.gap).Accepts w → ¬follow b) :
    p.Removes word mark (p.valueLeak follow) where
  label := hlabel
  found prev w b hk := by
    have hne := hpos w hk.core
    obtain ⟨l, g, hl, hg, rfl⟩ := hk.core
    obtain ⟨c, hc, hspace⟩ := hfollow b hk.follow
    cases b with
    | nil => cases hc
    | cons d b =>
      cases hc
      refine ⟨⟨l, g, [c], b⟩, by simp [Found.text], hl, hg, hvalue c hspace, fun hlead => ?_, fun h => ?_⟩
      · rw [Found.text, List.append_assoc, head?_append_of_ne_nil hne]
        exact hk.lead hlead
      · rw [htrail] at h
        cases h

/-- Nothing stands in an empty label. -/
theorem not_inLabel_of_empty (hempty : p.label = .empty) {w b : List α} (hw : w ≠ []) :
    ¬p.InLabel word mark w b := by
  rintro ⟨prev, m, l, l', out, hfind, hlabel, -⟩
  have hnil := (at_of_find hfind).2.label
  rw [hempty] at hnil
  rw [show m.label = [] from hnil] at hlabel
  exact hw (List.append_eq_nil_iff.mp (List.append_eq_nil_iff.mp hlabel.symm).1).2

theorem endsApart_of_trail (htrail : p.trail = true) (k : Leak α) (s : List α) : p.EndsApart word k s := by
  intro _ prev s' m _ hfind w b hrest _ hword
  have hedge := (at_of_find hfind).2.trail htrail
  cases w with
  | nil => cases hword
  | cons c w =>
    rw [hrest, List.cons_append, List.head?_cons] at hedge
    rw [List.head?_cons] at hword
    rw [edge, hword, bne_iff_ne] at hedge
    exact Bool.eq_false_iff.mpr hedge

theorem startsApart_of_lead (hlead : p.lead = true) (hempty : p.label = .empty) : p.StartsApart word := by
  intro prev m hat hprev
  have hnil := hat.label
  rw [hempty] at hnil
  have hedge := hat.lead hlead
  rw [show m.label = [] from hnil, lastOf] at hprev
  rw [Found.text, show m.label = [] from hnil, edge, show prev.any word = true from hprev] at hedge
  simpa using hedge

/-- A match whose label ends where no word does begins apart. -/
theorem startsApart_of_label (hends : p.label.EndsIn fun c => word c = false)
    (hpos : p.label.nullable = false) : p.StartsApart word := by
  intro prev m hat hlast
  have hne : m.label ≠ [] := by
    intro hnil
    have hnull := Regex.nullable_of_accepts_nil (hnil ▸ hat.label)
    rw [hpos] at hnull
    cases hnull
  rw [lastOf_of_ne_nil hne prev none, lastOf_none, Option.any_eq_true] at hlast
  obtain ⟨c, hc, hword⟩ := hlast
  rw [hends.getLast hat.label c hc] at hword
  cases hword

/-- A match that begins its secret, or what stands before it, where no word does begins apart. -/
theorem startsApart_of_gap (hstart : (Regex.seq p.gap p.secret).StartsIn fun c => word c = false)
    (hpos : (Regex.seq p.gap p.secret).nullable = false) : p.StartsApart word := by
  intro prev m hat _
  have haccepts : (Regex.seq p.gap p.secret).Accepts (m.gap ++ m.secret) := ⟨_, _, hat.gap, hat.secret, rfl⟩
  have hne : m.gap ++ m.secret ≠ [] := by
    intro hnil
    have hnull := Regex.nullable_of_accepts_nil (hnil ▸ haccepts)
    rw [hpos] at hnull
    cases hnull
  rw [head?_append_of_ne_nil hne]
  cases hhead : (m.gap ++ m.secret).head? with
  | none => rfl
  | some c => exact hstart.head haccepts c hhead

/-- Where nothing need follow, only the neighbours of a word count. -/
theorem spares_of_closed {k : Leak α} (hapart : ∀ w, k.core.Accepts w → mark.Apart w)
    (hstart : p.StartsApart word) (hclosed : ∀ b, k.follow b) : p.Spares word mark k where
  apart := hapart
  start _ := hstart
  follow _ s _ _ _ _ := hclosed s

end Pattern

/-! ### One pattern after another -/

/-- In a text clean of the leaks `ks` the pattern leaves none of them, and none of those it removes. -/
structure Pattern.Sound (p : Pattern α) (word : α → Bool) (mark : Marker α) (removed ks : List (Leak α)) :
    Prop where
  pos : ∀ w, p.core.Accepts w → w ≠ []
  spares : ∀ k ∈ removed ++ ks, p.Spares word mark k
  ends : ∀ s, (∀ k ∈ ks, ¬k.In word s) → ∀ k ∈ removed ++ ks, p.EndsApart word k s
  removes : ∀ k ∈ removed, p.Removes word mark k

theorem Pattern.Sound.clean {removed ks : List (Leak α)} (h : p.Sound word mark removed ks)
    (hfirst : word mark.first = false) (hlast : word mark.last = false) {s : List α}
    (hclean : ∀ k ∈ ks, ¬k.In word s) : ∀ k ∈ removed ++ ks, ¬k.In word (p.sub word mark s) := by
  intro k hk
  have hspares := h.spares k hk
  have hends := h.ends s hclean k hk
  rcases List.mem_append.mp hk with hk | hk
  · exact (h.removes k hk).not_in_sub hspares hfirst hlast h.pos hends
  · exact Leak.not_in_sub (hclean k hk) hspares hfirst hlast h.pos hends

/-- Each pattern is sound for what those before it have removed. -/
def Chain (word : α → Bool) (mark : Marker α) : List (Pattern α × List (Leak α)) → List (Leak α) → Prop
  | [], _ => True
  | rule :: rules, ks =>
    rule.1.Sound word mark rule.2 ks ∧ Chain word mark rules (rule.2 ++ ks)

/-- After the whole chain the text is clean of everything removed. -/
theorem Chain.clean {rules : List (Pattern α × List (Leak α))} {ks : List (Leak α)}
    (h : Chain word mark rules ks) (hfirst : word mark.first = false) (hlast : word mark.last = false)
    {s : List α} (hclean : ∀ k ∈ ks, ¬k.In word s) :
    ∀ k ∈ rules.flatMap Prod.snd ++ ks,
      ¬k.In word (rules.foldl (fun out rule => rule.1.sub word mark out) s) := by
  induction rules generalizing ks s with
  | nil => exact hclean
  | cons rule rules ih =>
    obtain ⟨hsound, hrest⟩ := h
    intro k hk
    refine ih hrest (hsound.clean hfirst hlast hclean) k ?_
    simp only [List.flatMap_cons, List.mem_append] at hk ⊢
    rcases hk with (hk | hk) | hk
    · exact .inr (.inl hk)
    · exact .inl hk
    · exact .inr (.inr hk)

/-- Patterns that find only markers in a text leave it as it is. -/
theorem foldl_sub_of_marked {rules : List (Pattern α × List (Leak α))} {s : List α}
    (h : ∀ rule ∈ rules, rule.1.Marked word mark s) :
    rules.foldl (fun out rule => rule.1.sub word mark out) s = s := by
  induction rules with
  | nil => rfl
  | cons rule rules ih =>
    obtain ⟨hfirst, hrest⟩ := List.forall_mem_cons.mp h
    rw [List.foldl_cons, Pattern.sub_of_marked hfirst]
    exact ih hrest

end Krewhub
