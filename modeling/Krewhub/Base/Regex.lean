import Mathlib.Data.List.Basic

/-!
# Regular expressions tried in order

An expression over classes of characters, matched as a backtracking matcher does: its ways to match the
start of a text come in an order, a repetition the longest first and an alternative from the left, and the
first is taken. `runs` lists the ways in that order and `Accepts` is the language; `mem_runs` says that every
word of the language that starts the text is among the ways.
-/

namespace Krewhub

variable {α : Type}

/-- A regular expression; `many` repeats a class greedily between two bounds, `lazily` as little as it can. -/
inductive Regex (α : Type) where
  | empty
  | one (p : α → Bool)
  | many (p : α → Bool) (low : Nat) (high : Option Nat)
  | lazily (p : α → Bool)
  | seq (r r' : Regex α)
  | alt (r r' : Regex α)

namespace Regex

/-- The words of the expression. -/
def Accepts : Regex α → List α → Prop
  | empty, w => w = []
  | one p, w => ∃ c, p c = true ∧ w = [c]
  | many p low high, w => (∀ c ∈ w, p c = true) ∧ low ≤ w.length ∧ ∀ n ∈ high, w.length ≤ n
  | lazily p, w => ∀ c ∈ w, p c = true
  | seq r r', w => ∃ u v, r.Accepts u ∧ r'.Accepts v ∧ w = u ++ v
  | alt r r', w => r.Accepts w ∨ r'.Accepts w

/-- The ways of a greedy repetition, the longest first. -/
def greedyRuns (p : α → Bool) : Nat → Option Nat → List α → List (List α × List α)
  | low, _, [] => if low = 0 then [([], [])] else []
  | low, high, c :: s =>
    (if p c && high != some 0 then
      (greedyRuns p (low - 1) (high.map (· - 1)) s).map fun m => (c :: m.1, m.2)
    else []) ++ if low = 0 then [([], c :: s)] else []

/-- The ways of a lazy repetition, the shortest first. -/
def lazyRuns (p : α → Bool) : List α → List (List α × List α)
  | [] => [([], [])]
  | c :: s => ([], c :: s) :: if p c then (lazyRuns p s).map fun m => (c :: m.1, m.2) else []

/-- The ways to match the start of a text, each with what it leaves, in the order they are tried. -/
def runs : Regex α → List α → List (List α × List α)
  | empty, s => [([], s)]
  | one _, [] => []
  | one p, c :: s => if p c then [([c], s)] else []
  | many p low high, s => greedyRuns p low high s
  | lazily p, s => lazyRuns p s
  | seq r r', s => (r.runs s).flatMap fun m => (r'.runs m.2).map fun m' => (m.1 ++ m'.1, m'.2)
  | alt r r', s => r.runs s ++ r'.runs s

/-! ### The ways and the language -/

theorem mem_greedyRuns {p : α → Bool} {low : Nat} {high : Option Nat} {s w rest : List α} :
    (w, rest) ∈ greedyRuns p low high s ↔ s = w ++ rest ∧ (many p low high).Accepts w := by
  induction s generalizing low high w with
  | nil =>
    rw [greedyRuns, Accepts]
    constructor
    · intro h
      split at h
      · obtain ⟨rfl, rfl⟩ := Prod.mk.inj (List.mem_singleton.mp h)
        simp_all
      · cases h
    · rintro ⟨hsplit, -, hlow, -⟩
      obtain ⟨rfl, rfl⟩ := List.append_eq_nil_iff.mp hsplit.symm
      rw [if_pos (Nat.le_zero.mp hlow)]
      exact List.mem_singleton_self _
  | cons c s ih =>
    rw [greedyRuns, List.mem_append]
    constructor
    · rintro (h | h)
      · split at h
        · rename_i hc
          obtain ⟨⟨w', rest'⟩, hm, heq⟩ := List.mem_map.mp h
          obtain ⟨rfl, rfl⟩ := Prod.mk.inj heq
          obtain ⟨rfl, hall, hlow, hhigh⟩ := ih.mp hm
          rw [Bool.and_eq_true, bne_iff_ne] at hc
          refine ⟨rfl, List.forall_mem_cons.mpr ⟨hc.1, hall⟩, ?_, ?_⟩
          · show low ≤ w'.length + 1
            omega
          · intro n hn
            cases hn
            have hn : w'.length ≤ n - 1 := hhigh (n - 1) rfl
            have hpos : n ≠ 0 := fun h0 => hc.2 (by rw [h0])
            show w'.length + 1 ≤ n
            omega
        · cases h
      · split at h
        · obtain ⟨rfl, rfl⟩ := Prod.mk.inj (List.mem_singleton.mp h)
          simp_all [Accepts]
        · cases h
    · rintro ⟨hsplit, hall, hlow, hhigh⟩
      cases w with
      | nil =>
        right
        rw [if_pos (Nat.le_zero.mp hlow), hsplit]
        exact List.mem_singleton_self _
      | cons c' w =>
        left
        obtain ⟨rfl, rfl⟩ := List.cons.inj hsplit
        obtain ⟨hc, hall⟩ := List.forall_mem_cons.mp hall
        have hbound : high ≠ some 0 := by
          rintro rfl
          exact absurd (hhigh 0 rfl) (by simp)
        rw [if_pos (by simp [hc, hbound])]
        refine List.mem_map.mpr ⟨(w, rest), ih.mpr ⟨rfl, hall, ?_, ?_⟩, rfl⟩
        · rw [List.length_cons] at hlow
          omega
        · intro n hn
          obtain ⟨m, rfl, rfl⟩ := Option.map_eq_some_iff.mp hn
          have hm := hhigh m rfl
          rw [List.length_cons] at hm
          omega

theorem mem_lazyRuns {p : α → Bool} {s w rest : List α} :
    (w, rest) ∈ lazyRuns p s ↔ s = w ++ rest ∧ (lazily p).Accepts w := by
  induction s generalizing w with
  | nil =>
    rw [lazyRuns, List.mem_singleton, Accepts, Prod.mk.injEq]
    constructor
    · rintro ⟨rfl, rfl⟩
      simp
    · rintro ⟨hsplit, -⟩
      exact List.append_eq_nil_iff.mp hsplit.symm
  | cons c s ih =>
    rw [lazyRuns, List.mem_cons]
    constructor
    · rintro (h | h)
      · obtain ⟨rfl, rfl⟩ := Prod.mk.inj h
        simp [Accepts]
      · split at h
        · rename_i hc
          obtain ⟨⟨w', rest'⟩, hm, heq⟩ := List.mem_map.mp h
          obtain ⟨rfl, rfl⟩ := Prod.mk.inj heq
          obtain ⟨rfl, hall⟩ := ih.mp hm
          exact ⟨rfl, List.forall_mem_cons.mpr ⟨hc, hall⟩⟩
        · cases h
    · rintro ⟨hsplit, hall⟩
      cases w with
      | nil =>
        left
        rw [hsplit]
        rfl
      | cons c' w =>
        right
        obtain ⟨rfl, rfl⟩ := List.cons.inj hsplit
        obtain ⟨hc, hall⟩ := List.forall_mem_cons.mp hall
        rw [if_pos hc]
        exact List.mem_map.mpr ⟨(w, rest), ih.mpr ⟨rfl, hall⟩, rfl⟩

theorem mem_runs {r : Regex α} {s w rest : List α} :
    (w, rest) ∈ r.runs s ↔ s = w ++ rest ∧ r.Accepts w := by
  induction r generalizing s w rest with
  | empty =>
    rw [runs, List.mem_singleton, Accepts, Prod.mk.injEq]
    constructor
    · rintro ⟨rfl, rfl⟩
      exact ⟨rfl, rfl⟩
    · rintro ⟨rfl, rfl⟩
      exact ⟨rfl, rfl⟩
  | one p =>
    rw [Accepts]
    cases s with
    | nil =>
      rw [runs]
      constructor
      · intro h
        cases h
      · rintro ⟨hsplit, c, -, rfl⟩
        cases hsplit
    | cons c s =>
      rw [runs]
      constructor
      · intro h
        split at h
        · rename_i hc
          obtain ⟨rfl, rfl⟩ := Prod.mk.inj (List.mem_singleton.mp h)
          exact ⟨rfl, c, hc, rfl⟩
        · cases h
      · rintro ⟨hsplit, c', hc, rfl⟩
        obtain ⟨rfl, rfl⟩ := List.cons.inj hsplit
        rw [if_pos hc]
        exact List.mem_singleton_self _
  | many p low high => exact mem_greedyRuns
  | lazily p => exact mem_lazyRuns
  | seq r r' ih ih' =>
    rw [runs, List.mem_flatMap, Accepts]
    constructor
    · rintro ⟨⟨u, s'⟩, hmem, hmap⟩
      obtain ⟨⟨v, rest'⟩, hmem', heq⟩ := List.mem_map.mp hmap
      obtain ⟨rfl, rfl⟩ := Prod.mk.inj heq
      obtain ⟨rfl, hu⟩ := ih.mp hmem
      obtain ⟨hsplit, hv⟩ := ih'.mp hmem'
      obtain rfl : s' = v ++ rest' := hsplit
      exact ⟨(List.append_assoc ..).symm, u, v, hu, hv, rfl⟩
    · rintro ⟨rfl, u, v, hu, hv, rfl⟩
      refine ⟨(u, v ++ rest), ih.mpr ⟨List.append_assoc .., hu⟩, ?_⟩
      exact List.mem_map.mpr ⟨(v, rest), ih'.mpr ⟨rfl, hv⟩, rfl⟩
  | alt r r' ih ih' =>
    rw [runs, List.mem_append, Accepts, ih, ih']
    exact and_or_left.symm

/-! ### The way that is taken -/

theorem head?_flatMap_eq_some {β γ : Type} {xs : List β} {f : β → List γ} {y : γ}
    (h : (xs.flatMap f).head? = some y) : ∃ x ∈ xs, (f x).head? = some y := by
  rw [List.head?_flatMap] at h
  obtain ⟨before, x, after, rfl, hx, -⟩ := List.findSome?_eq_some_iff.mp h
  exact ⟨x, by simp, hx⟩

/-- A greedy repetition without an upper bound stops where the class does. -/
theorem head?_greedyRuns {p : α → Bool} {low : Nat} {s w rest : List α}
    (h : (greedyRuns p low none s).head? = some (w, rest)) : ∀ c ∈ rest.head?, p c = false := by
  induction s generalizing low w with
  | nil =>
    rw [greedyRuns] at h
    split at h
    · cases h
      intro c hc
      cases hc
    · cases h
  | cons c s ih =>
    rw [greedyRuns] at h
    by_cases hc : p c = true
    · rw [if_pos (by simp [hc])] at h
      cases hrest : greedyRuns p (low - 1) ((none : Option Nat).map (· - 1)) s with
      | nil =>
        rw [hrest] at h
        split at h
        · rename_i hlow
          have hempty : ([], s) ∈ greedyRuns p (low - 1) none s :=
            mem_greedyRuns.mpr ⟨rfl, fun _ hmem => absurd hmem List.not_mem_nil, by simp [hlow], by simp⟩
          rw [show greedyRuns p (low - 1) none s = [] from hrest] at hempty
          cases hempty
        · cases h
      | cons m ms =>
        rw [hrest] at h
        cases h
        exact ih (congrArg List.head? hrest)
    · rw [if_neg (by simp [hc]), List.nil_append] at h
      split at h
      · cases h
        intro d hd
        cases hd
        exact Bool.eq_false_iff.mpr hc
      · cases h

theorem head?_runs_many {p : α → Bool} {low : Nat} {s w rest : List α}
    (h : ((many p low none).runs s).head? = some (w, rest)) : ∀ c ∈ rest.head?, p c = false :=
  head?_greedyRuns h

/-! ### What is in a word -/

/-- No word of the expression has the character. -/
def omits (c : α) : Regex α → Bool
  | empty => true
  | one p => !p c
  | many p _ _ => !p c
  | lazily p => !p c
  | seq r r' => r.omits c && r'.omits c
  | alt r r' => r.omits c && r'.omits c

/-- Every word of the expression has a character that is not among those listed. -/
def leaves (cs : List α) : Regex α → Bool
  | empty => false
  | one p => cs.all fun c => !p c
  | many p low _ => 0 < low && cs.all fun c => !p c
  | lazily _ => false
  | seq r r' => r.leaves cs || r'.leaves cs
  | alt r r' => r.leaves cs && r'.leaves cs

/-- The empty word is one of the expression. -/
def nullable : Regex α → Bool
  | empty => true
  | one _ => false
  | many _ low _ => low == 0
  | lazily _ => true
  | seq r r' => r.nullable && r'.nullable
  | alt r r' => r.nullable || r'.nullable

/-- Every word that is not empty begins with a character of the class. -/
def StartsIn (q : α → Prop) : Regex α → Prop
  | empty => True
  | one p => ∀ c, p c = true → q c
  | many p _ _ => ∀ c, p c = true → q c
  | lazily p => ∀ c, p c = true → q c
  | seq r r' => r.StartsIn q ∧ (r.nullable = true → r'.StartsIn q)
  | alt r r' => r.StartsIn q ∧ r'.StartsIn q

/-- Every word that is not empty ends with a character of the class. -/
def EndsIn (q : α → Prop) : Regex α → Prop
  | empty => True
  | one p => ∀ c, p c = true → q c
  | many p _ _ => ∀ c, p c = true → q c
  | lazily p => ∀ c, p c = true → q c
  | seq r r' => r'.EndsIn q ∧ (r'.nullable = true → r.EndsIn q)
  | alt r r' => r.EndsIn q ∧ r'.EndsIn q

theorem not_mem_of_omits {c : α} {r : Regex α} (h : r.omits c = true) {w : List α} (hw : r.Accepts w) :
    c ∉ w := by
  induction r generalizing w with
  | empty =>
    obtain rfl := hw
    exact List.not_mem_nil
  | one p =>
    obtain ⟨d, hd, rfl⟩ := hw
    intro hc
    obtain rfl := List.mem_singleton.mp hc
    simp [omits, hd] at h
  | many p low high =>
    intro hc
    simp [omits, hw.1 c hc] at h
  | lazily p =>
    intro hc
    simp [omits, hw c hc] at h
  | seq r r' ih ih' =>
    obtain ⟨u, v, hu, hv, rfl⟩ := hw
    obtain ⟨h, h'⟩ := Bool.and_eq_true_iff.mp h
    intro hc
    rcases List.mem_append.mp hc with hc | hc
    · exact ih h hu hc
    · exact ih' h' hv hc
  | alt r r' ih ih' =>
    obtain ⟨h, h'⟩ := Bool.and_eq_true_iff.mp h
    rcases hw with hw | hw
    · exact ih h hw
    · exact ih' h' hw

theorem exists_mem_of_leaves {cs : List α} {r : Regex α} (h : r.leaves cs = true) {w : List α}
    (hw : r.Accepts w) : ∃ c ∈ w, c ∉ cs := by
  have houtside : ∀ p : α → Bool, (cs.all fun c => !p c) = true → ∀ c, p c = true → c ∉ cs := by
    intro p hp c hc hmem
    have hnot := List.all_eq_true.mp hp c hmem
    rw [hc] at hnot
    cases hnot
  induction r generalizing w with
  | empty => cases h
  | one p =>
    obtain ⟨c, hc, rfl⟩ := hw
    exact ⟨c, List.mem_singleton_self c, houtside p h c hc⟩
  | many p low high =>
    obtain ⟨hall, hlow, -⟩ := hw
    obtain ⟨hpos, h⟩ := Bool.and_eq_true_iff.mp h
    cases w with
    | nil => exact absurd (Nat.lt_of_lt_of_le (of_decide_eq_true hpos) hlow) (Nat.lt_irrefl 0)
    | cons c w => exact ⟨c, List.mem_cons_self, houtside p h c (hall c List.mem_cons_self)⟩
  | lazily p => cases h
  | seq r r' ih ih' =>
    obtain ⟨u, v, hu, hv, rfl⟩ := hw
    rcases Bool.or_eq_true_iff.mp h with h | h
    · obtain ⟨c, hc, hforeign⟩ := ih h hu
      exact ⟨c, List.mem_append_left v hc, hforeign⟩
    · obtain ⟨c, hc, hforeign⟩ := ih' h hv
      exact ⟨c, List.mem_append_right u hc, hforeign⟩
  | alt r r' ih ih' =>
    obtain ⟨h, h'⟩ := Bool.and_eq_true_iff.mp h
    rcases hw with hw | hw
    · exact ih h hw
    · exact ih' h' hw

theorem nullable_of_accepts_nil {r : Regex α} (h : r.Accepts []) : r.nullable = true := by
  induction r with
  | empty => rfl
  | one p =>
    obtain ⟨c, -, hc⟩ := h
    cases hc
  | many p low high => exact beq_iff_eq.mpr (Nat.le_zero.mp h.2.1)
  | lazily p => rfl
  | seq r r' ih ih' =>
    obtain ⟨u, v, hu, hv, hnil⟩ := h
    obtain ⟨rfl, rfl⟩ := List.append_eq_nil_iff.mp hnil.symm
    exact Bool.and_eq_true_iff.mpr ⟨ih hu, ih' hv⟩
  | alt r r' ih ih' => exact Bool.or_eq_true_iff.mpr (h.imp ih ih')

theorem StartsIn.head {q : α → Prop} {r : Regex α} (h : r.StartsIn q) {w : List α} (hw : r.Accepts w) :
    ∀ c ∈ w.head?, q c := by
  induction r generalizing w with
  | empty =>
    obtain rfl := hw
    intro c hc
    cases hc
  | one p =>
    obtain ⟨d, hd, rfl⟩ := hw
    intro c hc
    cases hc
    exact h d hd
  | many p low high => exact fun c hc => h c (hw.1 c (List.mem_of_mem_head? hc))
  | lazily p => exact fun c hc => h c (hw c (List.mem_of_mem_head? hc))
  | seq r r' ih ih' =>
    obtain ⟨u, v, hu, hv, rfl⟩ := hw
    cases u with
    | nil => exact ih' (h.2 (nullable_of_accepts_nil hu)) hv
    | cons d u =>
      have hhead := ih h.1 hu
      exact hhead
  | alt r r' ih ih' =>
    rcases hw with hw | hw
    · exact ih h.1 hw
    · exact ih' h.2 hw

theorem EndsIn.getLast {q : α → Prop} {r : Regex α} (h : r.EndsIn q) {w : List α} (hw : r.Accepts w) :
    ∀ c ∈ w.getLast?, q c := by
  induction r generalizing w with
  | empty =>
    obtain rfl := hw
    intro c hc
    cases hc
  | one p =>
    obtain ⟨d, hd, rfl⟩ := hw
    intro c hc
    cases hc
    exact h d hd
  | many p low high => exact fun c hc => h c (hw.1 c (List.mem_of_mem_getLast? hc))
  | lazily p => exact fun c hc => h c (hw c (List.mem_of_mem_getLast? hc))
  | seq r r' ih ih' =>
    obtain ⟨u, v, hu, hv, rfl⟩ := hw
    cases v with
    | nil =>
      rw [List.append_nil]
      exact ih (h.2 (nullable_of_accepts_nil hv)) hu
    | cons d v =>
      rw [List.getLast?_append_of_ne_nil u (List.cons_ne_nil d v)]
      exact ih' h.1 hv
  | alt r r' ih ih' =>
    rcases hw with hw | hw
    · exact ih h.1 hw
    · exact ih' h.2 hw

end Regex

end Krewhub
