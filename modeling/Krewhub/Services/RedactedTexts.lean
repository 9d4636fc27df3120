import Krewhub.Services.Redact

/-!
# What redaction leaves of a text

The nine patterns as a chain: each removes its own leak and keeps a text clean of those before. A pattern
with a label is told from what it leaves by counting: a label has fewer characters that are no space than a
label and a secret.

The last pattern counts its secret, and what follows the fortieth character stands at a boundary once the
marker is there. A text in which more than forty such characters follow a label is an overrun, and every
other comes out clean.
-/

namespace Krewhub.Redact

open Re
open Text (isSpace)

variable {wide : Char → Bool}

/-! ### Characters -/

theorem isSpace_cases {q : Char → Prop}
    (h : ∀ n ∈ [0x09, 0x0a, 0x0b, 0x0c, 0x0d, 0x1c, 0x1d, 0x1e, 0x1f, 0x20, 0x85, 0xa0, 0x1680, 0x2000,
      0x2001, 0x2002, 0x2003, 0x2004, 0x2005, 0x2006, 0x2007, 0x2008, 0x2009, 0x200a, 0x2028, 0x2029,
      0x202f, 0x205f, 0x3000], q (Char.ofNat n)) {c : Char} (hc : isSpace c = true) : q c := by
  have hcode := h c.toNat (by simpa [isSpace] using hc)
  rwa [Char.ofNat_toNat] at hcode

theorem isSpace_fold {c : Char} (h : isSpace c = true) : isSpace (fold c) = true :=
  isSpace_cases (q := fun c => isSpace (fold c) = true) (by decide) h

/-- The characters of a word that are no space. -/
def solid (w : List Char) : Nat := w.countP fun c => !isSpace c

theorem solid_append (u v : List Char) : solid (u ++ v) = solid u + solid v := List.countP_append

theorem solid_of_spaces {low : Nat} {high : Option Nat} {w : List Char}
    (h : (Regex.many isSpace low high).Accepts w) : solid w = 0 := by
  apply List.countP_eq_zero.mpr
  intro c hc
  simp [h.1 c hc]

theorem solid_of_class {p : Char → Bool} (hp : ∀ c, isSpace c = true → p c = false) {low : Nat}
    {high : Option Nat} {w : List Char} (h : (Regex.many p low high).Accepts w) : low ≤ solid w := by
  have hall : solid w = w.length := by
    apply List.countP_eq_length.mpr
    intro c hc
    rw [Bool.not_eq_true']
    apply Bool.eq_false_iff.mpr
    intro hspace
    have hnot := hp c hspace
    rw [h.1 c hc] at hnot
    cases hnot
  rw [hall]
  exact h.2.1

theorem solid_litI {s : List Char} (hs : s.any isSpace = false) {w : List Char}
    (h : (litI s).Accepts w) : solid w = s.length := by
  induction s generalizing w with
  | nil =>
    obtain rfl := h
    rfl
  | cons c s ih =>
    obtain ⟨u, v, ⟨d, hd, rfl⟩, hv, rfl⟩ := h
    obtain ⟨hc, hs⟩ := Bool.or_eq_false_iff.mp (List.any_cons.symm.trans hs)
    have hsolid : isSpace d = false := by
      apply Bool.eq_false_iff.mpr
      intro hspace
      have hfold := isSpace_fold hspace
      rw [beq_iff_eq.mp hd, hc] at hfold
      cases hfold
    rw [solid_append, ih hs hv, solid, List.countP_singleton, hsolid]
    simp [Nat.add_comm]

theorem solid_assigns {w : List Char} (h : assigns.Accepts w) : solid w = 1 := by
  obtain ⟨u, x, hu, ⟨o, v, ⟨c, hc, rfl⟩, hv, rfl⟩, rfl⟩ := h
  have hsolid : isSpace c = false := by
    apply Bool.eq_false_iff.mpr
    intro hspace
    have hnot := isSpace_cases (q := fun c => cls [(':', ':'), ('=', '=')] c = false) (by decide) hspace
    rw [hc] at hnot
    cases hnot
  rw [solid_append, solid_append, solid_of_spaces hu, solid_of_spaces hv, solid, List.countP_singleton, hsolid]
  rfl

theorem solid_bearer {w : List Char} (h : bearer.label.Accepts w) : solid w = 6 := by
  obtain ⟨u, v, hu, hv, rfl⟩ := h
  rw [solid_append, solid_litI (by decide) hu, solid_of_spaces hv]
  rfl

theorem solid_passwordAssign {w : List Char} (h : passwordAssign.label.Accepts w) : solid w = 9 := by
  obtain ⟨u, v, hu, hv, rfl⟩ := h
  rw [solid_append, solid_litI (by decide) hu, solid_assigns hv]
  rfl

theorem solid_awsSecret {w : List Char} (h : awsSecret.label.Accepts w) : solid w = 7 := by
  obtain ⟨u, v, hu, hv, rfl⟩ := h
  rw [solid_append, solid_litI (by decide) hu, solid_assigns hv]
  rfl

theorem solid_label_of_inLabel {p : Pattern Char} {w b : List Char} (h : p.InLabel (isWord wide) redacted w b) :
    ∃ u l' out, p.label.Accepts u ∧ solid w + solid l' ≤ solid u ∧ b = l' ++ (redacted.text ++ out) := by
  obtain ⟨prev, m, l, l', out, hfind, hlabel, -, hb⟩ := h
  refine ⟨m.label, l', out, (Pattern.at_of_find hfind).2.label, ?_, hb⟩
  rw [hlabel, solid_append, solid_append]
  omega

/-! ### Leaks apart from the marker -/

/-- The words of the expression are apart from the marker. -/
def checked (r : Regex Char) : Bool := r.omits '[' && r.omits ']' && r.leaves redacted.text

theorem apart_of_checked {r : Regex Char} (h : checked r = true) {w : List Char} (hw : r.Accepts w) :
    redacted.Apart w := by
  rw [checked, Bool.and_eq_true, Bool.and_eq_true] at h
  exact ⟨Regex.not_mem_of_omits h.1.1 hw, Regex.not_mem_of_omits h.1.2 hw, Regex.exists_mem_of_leaves h.2 hw⟩

theorem ne_nil_of_checked {r : Regex Char} (h : checked r = true) {w : List Char} (hw : r.Accepts w) :
    w ≠ [] :=
  (apart_of_checked h hw).ne_nil

/-- A leak that asks for nothing to follow and begins, if it asks for a boundary, with a letter or a digit. -/
structure Closed (k : Leak Char) : Prop where
  checked : checked k.core = true
  follow : ∀ b, k.follow b
  opens : k.lead = true → k.core.StartsIn fun c => clsI letters c = true

theorem startsIn_lit {c : Char} {s : List Char} {r : Regex Char} (h : cls letters c = true) :
    (Regex.seq .empty (.seq .empty (.seq (lit (c :: s)) r))).StartsIn fun c => clsI letters c = true := by
  refine ⟨trivial, fun _ => ⟨trivial, fun _ => ⟨⟨fun d hd => ?_, nofun⟩, nofun⟩⟩⟩
  obtain rfl := beq_iff_eq.mp hd
  exact clsI_of_cls h

theorem closed_ethPrivkey : Closed ethPrivkey.leak where
  checked := by decide
  follow _ := trivial
  opens _ := startsIn_lit (by decide)

theorem closed_jwt : Closed jwt.leak where
  checked := by decide
  follow _ := trivial
  opens _ := startsIn_lit (by decide)

theorem closed_githubToken : Closed githubToken.leak where
  checked := by decide
  follow _ := trivial
  opens _ := startsIn_lit (by decide)

theorem closed_awsAccessKey : Closed awsAccessKey.leak where
  checked := by decide
  follow _ := trivial
  opens _ := startsIn_lit (by decide)

theorem closed_openaiKey : Closed openaiKey.leak where
  checked := by decide
  follow _ := trivial
  opens _ := startsIn_lit (by decide)

theorem closed_bearer : Closed bearer.leak where
  checked := by decide
  follow _ := trivial
  opens _ := by
    refine ⟨⟨⟨fun d hd => ?_, nofun⟩, nofun⟩, nofun⟩
    apply clsI_of_fold
    rw [beq_iff_eq.mp hd]
    decide

theorem closed_awsSecret : Closed awsSecret.leak where
  checked := by decide
  follow _ := trivial
  opens := nofun

/-- More characters than `aws_secret` takes follow its label. -/
def overrun : Leak Char :=
  ⟨false, .seq awsSecret.label (.many (clsI awsSecretChars) 41 (some 41)), false, fun _ => True⟩

theorem closed_overrun : Closed overrun where
  checked := by decide
  follow _ := trivial
  opens := nofun

/-- A value behind a label, and not just the marker. -/
def isOpen : List Char → Prop := IsOpenValue isSpace redacted

/-! ### The patterns one by one -/

theorem Closed.spares {k : Leak Char} (h : Closed k) {p : Pattern Char} (hstart : p.StartsApart (isWord wide)) :
    p.Spares (isWord wide) redacted k :=
  Pattern.spares_of_closed (fun _ => apart_of_checked h.checked) hstart h.follow

/-- A pattern replaced whole, between boundaries. -/
theorem sound_whole {p : Pattern Char} {ks : List (Leak Char)} (hlead : p.lead = true)
    (htrail : p.trail = true) (hlabel : p.label = .empty) (hp : Closed p.leak) (hks : ∀ k ∈ ks, Closed k) :
    p.Sound (isWord wide) redacted [p.leak] ks where
  pos _ := ne_nil_of_checked hp.checked
  spares := List.forall_mem_cons.mpr ⟨hp.spares (Pattern.startsApart_of_lead hlead hlabel),
    fun k hk => (hks k hk).spares (Pattern.startsApart_of_lead hlead hlabel)⟩
  ends s _ k _ := Pattern.endsApart_of_trail htrail k s
  removes := List.forall_mem_singleton.mpr (Pattern.removes_leak (fun _ => ne_nil_of_checked hp.checked)
    fun w b hin hw => Pattern.not_inLabel_of_empty hlabel (ne_nil_of_checked hp.checked hw) hin)

/-! ### What matches begin and end with -/

theorem not_isSpace_of_fold {c d : Char} (hd : isSpace d = false) (hc : fold c = d) : isSpace c = false := by
  apply Bool.eq_false_iff.mpr
  intro hspace
  have hfold := isSpace_fold hspace
  rw [hc, hd] at hfold
  cases hfold

theorem not_isSpace_of_letters {c : Char} (h : clsI letters c = true) : isSpace c = false := by
  apply Bool.eq_false_iff.mpr
  intro hspace
  have hnot := isSpace_cases (q := fun c => clsI letters c = false) (by decide) hspace
  rw [h] at hnot
  cases hnot

/-- A word that begins with no space is a value. -/
theorem isValue_of_startsIn {r : Regex Char} (h : r.StartsIn fun c => isSpace c = false) {w : List Char}
    (hw : r.Accepts w) (hne : w ≠ []) : IsValue isSpace w := by
  cases w with
  | nil => exact absurd rfl hne
  | cons c w => exact ⟨c, rfl, h.head hw c rfl⟩

/-- A value is taken to where a space follows. -/
theorem not_isValue_rest {p : Pattern Char} (hsecret : p.secret = value) (htrail : p.trail = false)
    {prev : Option Char} {s : List Char} {m : Found Char} (h : p.find (isWord wide) prev s = some m) :
    ¬IsValue isSpace m.rest := by
  have hrun := Pattern.secret_of_find h htrail
  rw [hsecret] at hrun
  rintro ⟨c, hc, hspace⟩
  have hstop := Regex.head?_runs_many hrun c hc
  rw [hspace] at hstop
  cases hstop

/-- After a value no leak begins that begins with a letter. -/
theorem endsApart_of_value {p : Pattern Char} (hsecret : p.secret = value) (htrail : p.trail = false)
    {k : Leak Char} (hk : k.lead = true → k.core.StartsIn fun c => clsI letters c = true) (s : List Char) :
    p.EndsApart (isWord wide) k s := by
  intro hlead prev s' m _ hfind w b hrest hw hword
  refine absurd ?_ (not_isValue_rest hsecret htrail hfind)
  rw [Option.any_eq_true] at hword
  obtain ⟨c, hc, -⟩ := hword
  refine ⟨c, ?_, not_isSpace_of_letters ((hk hlead).head hw c hc)⟩
  cases w with
  | nil => cases hc
  | cons d w =>
    rw [hrest]
    exact hc

theorem cls_cons (r : Char × Char) (ranges : List (Char × Char)) (c : Char) :
    cls (r :: ranges) c = (decide (r.1.toNat ≤ c.toNat) && decide (c.toNat ≤ r.2.toNat) || cls ranges c) :=
  List.any_cons

theorem eq_of_between {c d : Char} (h : (decide (d.toNat ≤ c.toNat) && decide (c.toNat ≤ d.toNat)) = true) :
    c = d := by
  rw [Bool.and_eq_true, decide_eq_true_iff, decide_eq_true_iff] at h
  exact Char.toNat_inj.mp (Nat.le_antisymm h.2 h.1)

/-- A separator and the spaces around it end in no word. -/
theorem endsIn_assigns : assigns.EndsIn fun c => isWord wide c = false := by
  have hspaces : spaces.EndsIn fun c => isWord wide c = false := fun c hc => isWord_of_isSpace hc
  refine ⟨⟨hspaces, fun _ c hc => ?_⟩, nofun⟩
  rw [cls_cons, cls_cons, Bool.or_eq_true, Bool.or_eq_true] at hc
  rcases hc with hc | hc | hc
  · obtain rfl := eq_of_between hc
    rfl
  · obtain rfl := eq_of_between hc
    rfl
  · cases hc

theorem startsApart_passwordAssign : passwordAssign.StartsApart (isWord wide) :=
  Pattern.startsApart_of_label ⟨endsIn_assigns, nofun⟩ rfl

theorem startsApart_awsSecret : awsSecret.StartsApart (isWord wide) :=
  Pattern.startsApart_of_label ⟨endsIn_assigns, nofun⟩ rfl

theorem startsApart_bearer : bearer.StartsApart (isWord wide) :=
  Pattern.startsApart_of_label ⟨fun _ hc => isWord_of_isSpace hc, nofun⟩ rfl

theorem startsApart_envSecret : envSecret.StartsApart (isWord wide) := by
  refine Pattern.startsApart_of_gap ⟨⟨fun c hc => isWord_of_isSpace hc, fun _ => ⟨⟨fun c hc => ?_, nofun⟩, nofun⟩⟩,
    nofun⟩ rfl
  obtain rfl := beq_iff_eq.mp hc
  rfl

/-! ### The patterns with a label -/

theorem mem_cls_bearer {c : Char} (h : clsI letters c = true) : clsI bearerChars c = true :=
  clsI_mono (by decide) h

theorem mem_cls_awsSecret {c : Char} (h : clsI letters c = true) : clsI awsSecretChars c = true :=
  clsI_mono (by decide) h

/-- A token is taken to where no character of one follows, or to an equals sign. -/
theorem bearer_find_end {prev : Option Char} {s : List Char} {m : Found Char}
    (h : bearer.find (isWord wide) prev s = some m) :
    (lastOf prev m.text).any (isWord wide) = false ∨ ∀ c ∈ m.rest.head?, clsI bearerChars c = false := by
  have hrun := Pattern.secret_of_find h rfl
  change ((((Regex.many (clsI bearerChars) 20 none).runs (m.secret ++ m.rest)).flatMap fun way =>
    ((Regex.many (cls [('=', '=')]) 0 (some 2)).runs way.2).map fun way' => (way.1 ++ way'.1, way'.2)).head?) =
      some (m.secret, m.rest) at hrun
  cases hways : (Regex.many (clsI bearerChars) 20 none).runs (m.secret ++ m.rest) with
  | nil =>
    rw [hways] at hrun
    cases hrun
  | cons way ways =>
    have hstop := Regex.head?_runs_many (congrArg List.head? hways)
    rw [hways, List.flatMap_cons] at hrun
    have hempty : ([], way.2) ∈ (Regex.many (cls [('=', '=')]) 0 (some 2)).runs way.2 :=
      Regex.mem_runs.mpr ⟨rfl, by simp, Nat.zero_le _, by simp⟩
    cases hsigns : (Regex.many (cls [('=', '=')]) 0 (some 2)).runs way.2 with
    | nil =>
      rw [hsigns] at hempty
      cases hempty
    | cons signs others =>
      rw [hsigns] at hrun
      obtain ⟨hsecret, hrest⟩ := Prod.mk.inj (Option.some.inj hrun)
      obtain ⟨hsplit, hall, -⟩ := Regex.mem_runs.mp (hsigns ▸ List.mem_cons_self : (signs.1, signs.2) ∈
        (Regex.many (cls [('=', '=')]) 0 (some 2)).runs way.2)
      cases hlast : signs.1 with
      | nil =>
        rw [hlast] at hsplit
        rw [← hrest, ← show way.2 = signs.2 from hsplit]
        exact .inr hstop
      | cons c cs =>
        left
        have hne : signs.1 ≠ [] := by
          rw [hlast]
          exact List.cons_ne_nil c cs
        rw [Found.text, ← hsecret, ← List.append_assoc, lastOf_append, lastOf_of_ne_nil hne _ none, lastOf_none,
          List.getLast?_eq_some_getLast hne]
        have hsign : signs.1.getLast hne = '=' := by
          have hcls := hall _ (List.getLast_mem hne)
          rw [cls_cons, Bool.or_eq_true] at hcls
          rcases hcls with hcls | hcls
          · exact eq_of_between hcls
          · cases hcls
        rw [hsign]
        rfl

/-- A match with a label begins with its label, which is apart from the marker. -/
theorem stub_of_label {p : Pattern Char} (h : checked p.label = true) {prev : Option Char} {m : Found Char}
    (hat : p.At (isWord wide) prev m) : ∃ x, x <+: m.text ∧ redacted.Apart x :=
  ⟨m.label, by rw [Found.text, List.append_assoc]; exact List.prefix_append _ _, apart_of_checked h hat.label⟩

theorem text_of_label {p : Pattern Char} (h : checked p.label = true)
    (hstart : p.label.StartsIn fun c => isSpace c = false) {prev : Option Char} {m : Found Char}
    (hat : p.At (isWord wide) prev m) : IsValue isSpace m.text := by
  rw [Found.text, List.append_assoc]
  exact (isValue_of_startsIn hstart hat.label (ne_nil_of_checked h hat.label)).append _

theorem startsIn_litI {c : Char} {s : List Char} (h : isSpace c = false) (r : Regex Char) :
    (Regex.seq (litI (c :: s)) r).StartsIn fun c => isSpace c = false :=
  ⟨⟨fun _ hd => not_isSpace_of_fold h (beq_iff_eq.mp hd), nofun⟩, nofun⟩

theorem startsIn_envSecret : envSecret.label.StartsIn fun c => clsI letters c = true :=
  ⟨fun _ hc => clsI_mono (by decide) hc, nofun⟩

/-- What the assignment of a password leaves: a value that is not just the marker. -/
def passwordLeak : Leak Char := passwordAssign.valueLeak isOpen

/-- What the assignment of a variable leaves: any value. -/
def envLeak : Leak Char := envSecret.valueLeak (IsValue isSpace)

theorem opens_envLeak : envLeak.lead = true → envLeak.core.StartsIn fun c => clsI letters c = true :=
  fun _ => ⟨startsIn_envSecret, nofun⟩

theorem apart_passwordLeak {w : List Char} (hw : passwordLeak.core.Accepts w) : redacted.Apart w :=
  apart_of_checked (r := .seq passwordAssign.label .empty) (by decide) hw

theorem apart_envLeak {w : List Char} (hw : envLeak.core.Accepts w) : redacted.Apart w :=
  apart_of_checked (r := .seq envSecret.label envSecret.gap) (by decide) hw

/-- A pattern with a label keeps what is left of the assignments of passwords. -/
theorem spares_passwordLeak {p : Pattern Char} (h : checked p.label = true)
    (hstart : p.label.StartsIn fun c => isSpace c = false)
    (hafter : (∀ prev s m, p.find (isWord wide) prev s = some m → ¬IsValue isSpace m.rest) ∨
      ∀ prev m, p.At (isWord wide) prev m → IsValue isSpace (m.gap ++ m.secret) ∧ redacted.first ∉ m.gap ++ m.secret) :
    p.Spares (isWord wide) redacted passwordLeak where
  apart _ := apart_passwordLeak
  start := nofun
  follow _ _ _ _ hbehind := hbehind.isOpenValue (fun _ _ => text_of_label h hstart) (fun _ _ => stub_of_label h)
    (fun _ _ hat => (apart_of_checked h hat.label).first) hafter

theorem sound_bearer {ks : List (Leak Char)} (hks : ∀ k ∈ ks, Closed k) :
    bearer.Sound (isWord wide) redacted [bearer.leak] ks where
  pos _ := ne_nil_of_checked closed_bearer.checked
  spares := List.forall_mem_cons.mpr ⟨closed_bearer.spares startsApart_bearer,
    fun k hk => (hks k hk).spares startsApart_bearer⟩
  ends s _ k hk := by
    have hclosed : Closed k := by
      rcases List.mem_cons.mp hk with rfl | hk
      · exact closed_bearer
      · exact hks k hk
    intro hlead prev s' m _ hfind w b hrest hw hword
    rcases bearer_find_end hfind with hnot | hstop
    · exact hnot
    · rw [Option.any_eq_true] at hword
      obtain ⟨c, hc, -⟩ := hword
      have hletter := (hclosed.opens hlead).head hw c hc
      have hhead : c ∈ m.rest.head? := by
        rw [hrest, Pattern.head?_append_of_ne_nil]
        · exact hc
        · rintro rfl
          cases hc
      have hnot := hstop c hhead
      rw [mem_cls_bearer hletter] at hnot
      cases hnot
  removes := List.forall_mem_singleton.mpr (Pattern.removes_leak
    (fun _ => ne_nil_of_checked closed_bearer.checked) fun w b hin hw => by
      obtain ⟨u, l', out, hu, hle, -⟩ := solid_label_of_inLabel hin
      obtain ⟨l, x, hl, ⟨g, v, hg, ⟨t, e, ht, he, rfl⟩, rfl⟩, rfl⟩ := hw
      have htoken := solid_of_class (fun c hc => ?_) ht
      · rw [solid_bearer hu, solid_append, solid_bearer hl, solid_append, solid_append] at hle
        omega
      · exact isSpace_cases (q := fun c => clsI bearerChars c = false) (by decide) hc)

theorem sound_passwordAssign {ks : List (Leak Char)} (hks : ∀ k ∈ ks, Closed k) :
    passwordAssign.Sound (isWord wide) redacted [passwordLeak] ks where
  pos w hw := by
    obtain ⟨l, x, hl, -, rfl⟩ := hw
    exact fun hnil => ne_nil_of_checked (r := passwordAssign.label) (by decide) hl (List.append_eq_nil_iff.mp hnil).1
  spares := List.forall_mem_cons.mpr ⟨spares_passwordLeak (by decide) (startsIn_litI (by decide) _)
      (.inl fun _ _ _ => not_isValue_rest rfl rfl),
    fun k hk => (hks k hk).spares startsApart_passwordAssign⟩
  ends s _ k hk := by
    rcases List.mem_cons.mp hk with rfl | hk
    · exact nofun
    · exact endsApart_of_value rfl rfl (hks k hk).opens s
  removes := List.forall_mem_singleton.mpr (Pattern.removes_valueLeak
    (fun w hw => (apart_passwordLeak hw).ne_nil) (fun _ => value_accepts_singleton) rfl (fun _ h => h.1)
    fun w b hin hw hopen => by
      obtain ⟨prev, m, l, l', out, hfind, hlabel, hrewrites, rfl⟩ := hin
      have hat := (Pattern.at_of_find hfind).2
      obtain ⟨u, x, hu, hx, rfl⟩ := hw
      obtain rfl : x = [] := hx
      have hcount := congrArg solid hlabel
      rw [List.append_nil, solid_append, solid_append, solid_passwordAssign hat.label, solid_passwordAssign hu]
        at hcount
      cases l' with
      | nil =>
        have hvalue := hrewrites.isValue (fun _ _ => text_of_label (by decide) (startsIn_litI (by decide) _))
          (hopen.2 out rfl)
        exact not_isValue_rest rfl rfl hfind hvalue
      | cons c l' =>
        obtain ⟨d, hd, hspace⟩ := hopen.1
        obtain rfl := Option.some.inj hd
        have hsolid : 0 < solid (c :: l') := List.countP_pos_iff.mpr ⟨c, List.mem_cons_self, by rw [hspace]; rfl⟩
        omega)

theorem endsIn_litI {q : Char → Prop} {c : Char} (hq : ∀ d, fold d = c → q d) {s : List Char} :
    (litI (s ++ [c])).EndsIn q := by
  induction s with
  | nil => exact ⟨trivial, fun _ d hd => hq d (beq_iff_eq.mp hd)⟩
  | cons d s ih =>
    refine ⟨ih, fun hnull => ?_⟩
    cases s <;> cases hnull

/-- A name ends in a letter, and the equals sign behind it with the spaces around it ends in none. -/
theorem not_lastOf_label {prev₀ : Option Char} {m : Found Char} {w : List Char} (hw : envLeak.core.Accepts w)
    (hat : envSecret.At (isWord wide) prev₀ m) : w.getLast? ≠ lastOf prev₀ m.label := by
  intro hsame
  have hletter : envSecret.label.EndsIn fun c => clsI letters c = true := by
    have hends : ∀ c s, cls letters c = true → (litI (s ++ [c])).EndsIn fun d => clsI letters d = true :=
      fun c s hc => endsIn_litI fun d hd => clsI_of_fold (hd ▸ hc)
    exact ⟨⟨⟨hends 'y' ['_', 'k', 'e'] rfl, hends 't' ['_', 's', 'e', 'c', 'r', 'e'] rfl,
      hends 'n' ['_', 't', 'o', 'k', 'e'] rfl, hends 'd' ['_', 'p', 'a', 's', 's', 'w', 'o', 'r'] rfl⟩, nofun⟩, nofun⟩
  have hgap : (Regex.seq envSecret.label envSecret.gap).EndsIn fun c => clsI letters c = false := by
    have hspaces : spaces.EndsIn fun c => clsI letters c = false :=
      fun c hc => isSpace_cases (q := fun c => clsI letters c = false) (by decide) hc
    refine ⟨⟨⟨hspaces, fun _ => ⟨trivial, fun _ c hc => ?_⟩⟩, nofun⟩, nofun⟩
    rw [beq_iff_eq.mp hc]
    rfl
  have hlabel := ne_nil_of_checked (r := envSecret.label) (by decide) hat.label
  rw [lastOf_of_ne_nil hlabel prev₀ none, lastOf_none, List.getLast?_eq_some_getLast hlabel,
    List.getLast?_eq_some_getLast (apart_envLeak hw).ne_nil, Option.some.injEq] at hsame
  have hnot := hgap.getLast hw _ (List.getLast?_eq_some_getLast (apart_envLeak hw).ne_nil)
  rw [hsame, hletter.getLast hat.label _ (List.getLast?_eq_some_getLast hlabel)] at hnot
  cases hnot

theorem sound_envSecret {ks : List (Leak Char)} (hks : ∀ k ∈ ks, Closed k) :
    envSecret.Sound (isWord wide) redacted [envLeak] (passwordLeak :: ks) where
  pos w hw := by
    obtain ⟨l, x, hl, -, rfl⟩ := hw
    exact fun hnil => ne_nil_of_checked (r := envSecret.label) (by decide) hl (List.append_eq_nil_iff.mp hnil).1
  spares := by
    have hstart : envSecret.label.StartsIn fun c => isSpace c = false :=
      ⟨fun _ hc => not_isSpace_of_letters (clsI_mono (by decide) hc), nofun⟩
    refine List.forall_mem_cons.mpr ⟨⟨fun _ => apart_envLeak, nofun, fun w s out hw hbehind hvalue => ?_⟩,
      List.forall_mem_cons.mpr ⟨spares_passwordLeak (by decide) hstart (.inl fun _ _ _ => not_isValue_rest rfl rfl),
        fun k hk => (hks k hk).spares startsApart_envSecret⟩⟩
    refine hbehind.isValue (fun prev₀ m hat hlast => absurd hlast ?_) (fun _ _ => text_of_label (by decide) hstart)
      hvalue
    exact not_lastOf_label hw hat
  ends s _ k hk := by
    rcases List.mem_cons.mp hk with rfl | hk
    · exact endsApart_of_value rfl rfl opens_envLeak s
    · rcases List.mem_cons.mp hk with rfl | hk
      · exact nofun
      · exact endsApart_of_value rfl rfl (hks k hk).opens s
  removes := List.forall_mem_singleton.mpr (Pattern.removes_valueLeak
    (fun w hw => (apart_envLeak hw).ne_nil) (fun _ => value_accepts_singleton) rfl (fun _ h => h)
    fun w b hin hw _ => by
      obtain ⟨prev, m, l, l', out, hfind, hlabel, -⟩ := hin
      have hat := (Pattern.at_of_find hfind).2
      obtain ⟨u, x, hu, ⟨g, y, hg, ⟨e, z, he, hz, rfl⟩, rfl⟩, rfl⟩ := hw
      have hsign : '=' ∈ e := by
        obtain ⟨c, v, ⟨d, hd, rfl⟩, -, rfl⟩ := he
        rw [beq_iff_eq.mp hd]
        exact List.mem_append_left _ (List.mem_singleton_self _)
      have hnot : '=' ∉ m.label := Regex.not_mem_of_omits (r := envSecret.label) (by decide) hat.label
      apply hnot
      rw [hlabel]
      simp [hsign])

/-- A text without an overrun has no more than the forty characters behind the label. -/
theorem endsApart_awsSecret {s : List Char} (hover : ¬overrun.In (isWord wide) s) {k : Leak Char}
    (hk : k.lead = true → k.core.StartsIn fun c => clsI letters c = true) :
    awsSecret.EndsApart (isWord wide) k s := by
  intro hlead prev s' m hsuffix hfind w b hrest hw hword
  rw [Option.any_eq_true] at hword
  obtain ⟨c, hc, -⟩ := hword
  have hletter := (hk hlead).head hw c hc
  obtain ⟨before, hs⟩ := hsuffix
  obtain ⟨hsplit, hat⟩ := Pattern.at_of_find hfind
  obtain ⟨hall, hlow, hhigh⟩ := hat.secret
  obtain ⟨d, w', rfl⟩ : ∃ d w', w = d :: w' := by
    cases w with
    | nil => cases hc
    | cons d w' => exact ⟨d, w', rfl⟩
  obtain rfl := Option.some.inj hc
  refine absurd ⟨before, m.label ++ (m.secret ++ [d]), w' ++ b, ?_, ⟨m.label, m.secret ++ [d], hat.label, ?_, rfl⟩,
    nofun, nofun, trivial⟩ hover
  · have hgap : m.gap = [] := hat.gap
    rw [← hs, hsplit, Found.text, hgap, hrest]
    simp
  · have hlength : m.secret.length = 40 := Nat.le_antisymm (hhigh 40 rfl) hlow
    refine ⟨List.forall_mem_append.mpr ⟨hall, List.forall_mem_singleton.mpr (mem_cls_awsSecret hletter)⟩, ?_⟩
    rw [List.length_append, hlength]
    exact ⟨Nat.le_refl _, fun n hn => by cases hn; exact Nat.le_refl _⟩

theorem value_of_awsSecret {prev : Option Char} {m : Found Char} (h : awsSecret.At (isWord wide) prev m) :
    IsValue isSpace (m.gap ++ m.secret) ∧ redacted.first ∉ m.gap ++ m.secret := by
  have hgap : m.gap = [] := h.gap
  have hchars : awsSecret.secret.StartsIn fun c => isSpace c = false := by
    intro c hc
    apply Bool.eq_false_iff.mpr
    intro hspace
    have hnot := isSpace_cases (q := fun c => clsI awsSecretChars c = false) (by decide) hspace
    rw [hc] at hnot
    cases hnot
  have hne : m.secret ≠ [] := by
    intro hnil
    have hlow := h.secret.2.1
    rw [hnil] at hlow
    cases hlow
  rw [hgap, List.nil_append]
  exact ⟨isValue_of_startsIn hchars h.secret hne,
    Regex.not_mem_of_omits (r := awsSecret.secret) (by decide) h.secret⟩

theorem sound_awsSecret {ks : List (Leak Char)} (hks : ∀ k ∈ ks, Closed k) (hover : overrun ∈ ks) :
    awsSecret.Sound (isWord wide) redacted [awsSecret.leak] (envLeak :: passwordLeak :: ks) where
  pos _ := ne_nil_of_checked closed_awsSecret.checked
  spares := by
    have hstart : awsSecret.label.StartsIn fun c => isSpace c = false := startsIn_litI (by decide) _
    refine List.forall_mem_cons.mpr ⟨closed_awsSecret.spares startsApart_awsSecret,
      List.forall_mem_cons.mpr ⟨⟨fun _ => apart_envLeak, nofun, fun w s out hw hbehind hvalue => ?_⟩,
        List.forall_mem_cons.mpr ⟨spares_passwordLeak (by decide) hstart (.inr fun _ _ => value_of_awsSecret),
          fun k hk => (hks k hk).spares startsApart_awsSecret⟩⟩⟩
    exact hbehind.isValue (fun _ m hat _ => (value_of_awsSecret hat).1.append m.rest)
      (fun _ _ => text_of_label (by decide) hstart) hvalue
  ends s hclean k hk := by
    have hnot : ¬overrun.In (isWord wide) s := hclean overrun (by simp [hover])
    apply endsApart_awsSecret hnot
    rcases List.mem_cons.mp hk with rfl | hk
    · exact closed_awsSecret.opens
    · rcases List.mem_cons.mp hk with rfl | hk
      · exact opens_envLeak
      · rcases List.mem_cons.mp hk with rfl | hk
        · exact nofun
        · exact (hks k hk).opens
  removes := List.forall_mem_singleton.mpr (Pattern.removes_leak
    (fun _ => ne_nil_of_checked closed_awsSecret.checked) fun w b hin hw => by
      obtain ⟨u, l', out, hu, hle, -⟩ := solid_label_of_inLabel hin
      obtain ⟨l, x, hl, ⟨g, v, hg, hv, rfl⟩, rfl⟩ := hw
      have hsecret := solid_of_class (fun c hc => ?_) hv
      · rw [solid_awsSecret hu, solid_append, solid_awsSecret hl, solid_append] at hle
        omega
      · exact isSpace_cases (q := fun c => clsI awsSecretChars c = false) (by decide) hc)

/-! ### One after another -/

/-- The patterns with what each removes. -/
def rules : List (Pattern Char × List (Leak Char)) :=
  [(ethPrivkey, [ethPrivkey.leak]), (jwt, [jwt.leak]), (githubToken, [githubToken.leak]),
    (awsAccessKey, [awsAccessKey.leak]), (openaiKey, [openaiKey.leak]), (bearer, [bearer.leak]),
    (passwordAssign, [passwordLeak]), (envSecret, [envLeak]), (awsSecret, [awsSecret.leak])]

theorem redactChars_eq_rules (s : List Char) :
    redactChars wide s = rules.foldl (fun out rule => rule.1.sub (isWord wide) redacted out) s := rfl

theorem chain_rules : Chain (isWord wide) redacted rules [overrun] := by
  have h₀ : ∀ k ∈ [overrun], Closed k := List.forall_mem_singleton.mpr closed_overrun
  have h₁ := List.forall_mem_cons.mpr ⟨closed_ethPrivkey, h₀⟩
  have h₂ := List.forall_mem_cons.mpr ⟨closed_jwt, h₁⟩
  have h₃ := List.forall_mem_cons.mpr ⟨closed_githubToken, h₂⟩
  have h₄ := List.forall_mem_cons.mpr ⟨closed_awsAccessKey, h₃⟩
  have h₅ := List.forall_mem_cons.mpr ⟨closed_openaiKey, h₄⟩
  have h₆ := List.forall_mem_cons.mpr ⟨closed_bearer, h₅⟩
  exact ⟨sound_whole rfl rfl rfl closed_ethPrivkey h₀, sound_whole rfl rfl rfl closed_jwt h₁,
    sound_whole rfl rfl rfl closed_githubToken h₂, sound_whole rfl rfl rfl closed_awsAccessKey h₃,
    sound_whole rfl rfl rfl closed_openaiKey h₄, sound_bearer h₅, sound_passwordAssign h₆, sound_envSecret h₆,
    sound_awsSecret h₆ (by simp), trivial⟩

/-- No leak of any pattern stands in the text. -/
def Clean (wide : Char → Bool) (s : List Char) : Prop :=
  ∀ k ∈ rules.flatMap Prod.snd ++ [overrun], ¬k.In (isWord wide) s

/-- **A text in which no overrun stands comes out clean.** -/
theorem clean_redactChars {s : List Char} (h : ¬overrun.In (isWord wide) s) : Clean wide (redactChars wide s) := by
  rw [Clean, redactChars_eq_rules]
  exact chain_rules.clean rfl rfl (List.forall_mem_singleton.mpr h)

/-- A marker by itself is clean: what could leak is apart from it. -/
theorem clean_redacted : Clean wide redacted.text := by
  have hapart : ∀ k ∈ rules.flatMap Prod.snd ++ [overrun], ∀ w, k.core.Accepts w → redacted.Apart w := by
    intro k hk w hw
    simp only [rules, List.flatMap_cons, List.flatMap_nil, List.cons_append, List.nil_append, List.mem_cons,
      List.not_mem_nil, or_false] at hk
    rcases hk with rfl | rfl | rfl | rfl | rfl | rfl | rfl | rfl | rfl | rfl
    · exact apart_of_checked closed_ethPrivkey.checked hw
    · exact apart_of_checked closed_jwt.checked hw
    · exact apart_of_checked closed_githubToken.checked hw
    · exact apart_of_checked closed_awsAccessKey.checked hw
    · exact apart_of_checked closed_openaiKey.checked hw
    · exact apart_of_checked closed_bearer.checked hw
    · exact apart_passwordLeak hw
    · exact apart_envLeak hw
    · exact apart_of_checked closed_awsSecret.checked hw
    · exact apart_of_checked closed_overrun.checked hw
  rintro k hk ⟨a, w, b, hs, hat⟩
  obtain ⟨c, hc, hforeign⟩ := (hapart k hk w hat.core).foreign
  apply hforeign
  rw [hs]
  simp [hc]

/-! ### Clean texts are left as they are -/

/-- A pattern that is told by its characters finds nothing in a clean text. -/
theorem marked_of_leak {p : Pattern Char} (hp : Closed p.leak) {s : List Char} (h : ¬p.leak.In (isWord wide) s) :
    p.Marked (isWord wide) redacted s := by
  refine fun before s' m hs hfind => absurd ?_ h
  obtain ⟨hsplit, hat⟩ := Pattern.at_of_find hfind
  exact Pattern.leak_in (fun _ => ne_nil_of_checked hp.checked) (hsplit ▸ hs) hat

theorem marked_envSecret {s : List Char} (h : ¬envLeak.In (isWord wide) s) :
    envSecret.Marked (isWord wide) redacted s := by
  refine fun before s' m hs hfind => absurd ?_ h
  obtain ⟨hsplit, hat⟩ := Pattern.at_of_find hfind
  exact Pattern.valueLeak_in (fun w hw => (apart_envLeak hw).ne_nil) (hsplit ▸ hs) hat
    ((value_accepts hat.secret).append m.rest)

/-- Two values that begin a text and that spaces follow are one. -/
theorem eq_of_values {u v x y : List Char} (h : u ++ x = v ++ y) (hu : ∀ c ∈ u, isSpace c = false)
    (hv : ∀ c ∈ v, isSpace c = false) (hx : ¬IsValue isSpace x) (hy : ¬IsValue isSpace y) : u = v := by
  rcases List.append_eq_append_iff.mp h with ⟨z, rfl, rfl⟩ | ⟨z, rfl, rfl⟩
  · cases z with
    | nil => exact (List.append_nil u).symm
    | cons c z => exact absurd ⟨c, rfl, hv c (by simp)⟩ hx
  · cases z with
    | nil => exact List.append_nil v
    | cons c z => exact absurd ⟨c, rfl, hu c (by simp)⟩ hy

theorem not_isSpace_redacted : ∀ c ∈ redacted.text, isSpace c = false := by
  have hall : (redacted.text.all fun c => !isSpace c) = true := by decide
  intro c hc
  simpa using List.all_eq_true.mp hall c hc

/-- In a clean text the value of a password is the marker. -/
theorem marked_passwordAssign {s : List Char} (h : ¬passwordLeak.In (isWord wide) s) :
    passwordAssign.Marked (isWord wide) redacted s := by
  intro before s' m hs hfind
  obtain ⟨hsplit, hat⟩ := Pattern.at_of_find hfind
  have hgap : m.gap = [] := hat.gap
  have hvalue := (value_accepts hat.secret).append m.rest
  have hclosed : ¬isOpen (m.secret ++ m.rest) := fun hopen => h
    (Pattern.valueLeak_in (fun w hw => (apart_passwordLeak hw).ne_nil) (hsplit ▸ hs) hat hopen)
  obtain ⟨b', hb', hspace⟩ : ∃ b', m.secret ++ m.rest = redacted.text ++ b' ∧ ¬IsValue isSpace b' := by
    by_contra hnone
    push Not at hnone
    exact hclosed ⟨hvalue, hnone⟩
  rw [hgap, List.nil_append]
  refine eq_of_values hb' (fun c hc => ?_) not_isSpace_redacted (not_isValue_rest rfl rfl hfind) hspace
  simpa using hat.secret.1 c hc

theorem marked_of_clean {s : List Char} (h : Clean wide s) :
    ∀ rule ∈ rules, rule.1.Marked (isWord wide) redacted s := by
  have hnot : ∀ rule ∈ rules, ∀ k ∈ rule.2, ¬k.In (isWord wide) s := fun rule hrule k hk =>
    h k (List.mem_append_left _ (List.mem_flatMap.mpr ⟨rule, hrule, hk⟩))
  intro rule hrule
  have hleak := hnot rule hrule
  simp only [rules, List.mem_cons, List.not_mem_nil, or_false] at hrule
  rcases hrule with rfl | rfl | rfl | rfl | rfl | rfl | rfl | rfl | rfl
  · exact marked_of_leak closed_ethPrivkey (hleak _ List.mem_cons_self)
  · exact marked_of_leak closed_jwt (hleak _ List.mem_cons_self)
  · exact marked_of_leak closed_githubToken (hleak _ List.mem_cons_self)
  · exact marked_of_leak closed_awsAccessKey (hleak _ List.mem_cons_self)
  · exact marked_of_leak closed_openaiKey (hleak _ List.mem_cons_self)
  · exact marked_of_leak closed_bearer (hleak _ List.mem_cons_self)
  · exact marked_passwordAssign (hleak _ List.mem_cons_self)
  · exact marked_envSecret (hleak _ List.mem_cons_self)
  · exact marked_of_leak closed_awsSecret (hleak _ List.mem_cons_self)

/-- A pattern finds something in the text that is not a label and a marker. -/
def Unredacted (wide : Char → Bool) (s : List Char) : Prop :=
  ∃ pattern ∈ textPatterns, ¬pattern.2.Marked (isWord wide) redacted s

theorem textPatterns_eq_rules : textPatterns.map (·.2) = rules.map (·.1) := rfl

theorem not_unredacted_of_clean {s : List Char} (h : Clean wide s) : ¬Unredacted wide s := by
  rintro ⟨pattern, hpattern, hnot⟩
  have hmem : pattern.2 ∈ rules.map (·.1) := textPatterns_eq_rules ▸ List.mem_map_of_mem hpattern
  obtain ⟨rule, hrule, heq⟩ := List.mem_map.mp hmem
  exact hnot (heq ▸ marked_of_clean h rule hrule)

/-- **A clean text is left as it is.** -/
theorem redactChars_of_clean {s : List Char} (h : Clean wide s) : redactChars wide s = s := by
  rw [redactChars_eq_rules]
  exact foldl_sub_of_marked (marked_of_clean h)

end Krewhub.Redact
