import Krewhub.Base.Coro

/-!
# Runs that are cut off

A process may die after any statement of a run. What is left then may depend on the statement it died after, so
what is said of every point of a run is said of the last statement, with the state it met, and of the state it left.
A run that is cut off is followed by another one from what is left, which may be cut off in turn.
-/

namespace Krewhub

namespace Coro

variable {σ Op ε α β : Type}

section Through

variable (exec : Op → σ → σ) (P : Option (Op × σ) → σ → Prop)

/-- `P` holds at every point of the run, of the last statement and of the state, and `Q` where the run returns. -/
def Through (Q : α → σ → Prop) : Coro σ Op ε α → Option (Op × σ) → σ → Prop
  | .done a, last, s => P last s ∧ Q a s
  | .raise _, last, s => P last s
  | .await op next, last, s => P last s ∧ (next s).Through Q (some (op, s)) (exec op s)

variable {exec P} {Q : α → σ → Prop} {R : β → σ → Prop} {c : Coro σ Op ε α} {last : Option (Op × σ)} {s : σ}

theorem Through.here (h : c.Through exec P Q last s) : P last s := by
  cases c with
  | done a => exact h.1
  | raise e => exact h
  | await op next => exact h.1

theorem Through.bind {f : α → Coro σ Op ε β} (h : c.Through exec P Q last s)
    (hf : ∀ a last s, P last s → Q a s → (f a).Through exec P R last s) : (c >>= f).Through exec P R last s := by
  induction c generalizing last s with
  | done a => exact hf a last s h.1 h.2
  | raise e => exact h
  | await op next ih => exact ⟨h.1, ih s h.2⟩

/-- A run that is cut off has got to one of its points. -/
theorem Through.cut (h : c.Through exec P Q last s) (k : Nat) :
    P (((c.trace exec s).take k).getLast?.or last) (c.stateAfter exec k s) := by
  induction c generalizing last s k with
  | done a =>
    rw [stateAfter_done, trace, List.take_nil, List.getLast?_nil, Option.none_or]
    exact h.1
  | raise e =>
    have hstate : (raise e : Coro σ Op ε α).stateAfter exec k s = s := by cases k <;> rfl
    rw [hstate, trace, List.take_nil, List.getLast?_nil, Option.none_or]
    exact h
  | await op next ih =>
    cases k with
    | zero => exact h.1
    | succ k =>
      have hcut := ih s h.2 k
      rw [stateAfter_await, trace, List.take_succ_cons, List.getLast?_cons]
      cases hlast : (((next s).trace exec (exec op s)).take k).getLast? with
      | none => rwa [hlast] at hcut
      | some e => rwa [hlast] at hcut

end Through

/-! ### Run after run -/

section CutOff

variable {τ π : Type} (exec : Op → σ → σ) (start : τ → σ) (left : σ → τ) (c : π → Coro σ Op ε α)

/-- The last statement of a run that is cut off after so many, and the state it met. -/
def lastBefore (c : Coro σ Op ε α) (k : Nat) (s : σ) : Option (Op × σ) := ((c.trace exec s).take k).getLast?

/-- What is left after runs one after the other, each cut off after so many statements or at its end. -/
def cutOff (runs : List (π × Nat)) (d : τ) : τ :=
  runs.foldl (fun d run => left ((c run.1).stateAfter exec run.2 (start d))) d

variable {exec start left c} {I J : τ → Prop} {Bad : π → Nat → τ → Prop} {d : τ}

/-- What a cut at a bad place takes away, and nothing brings back, is there exactly when no cut was at one. -/
theorem cutOff_iff (hgood : ∀ p k d, I d → ¬ Bad p k d → I (left ((c p).stateAfter exec k (start d))))
    (hbad : ∀ p k d, I d → Bad p k d → J (left ((c p).stateAfter exec k (start d))))
    (hgone : ∀ p k d, J d → J (left ((c p).stateAfter exec k (start d)))) (hnot : ∀ d, J d → ¬ I d) (hI : I d)
    (runs : List (π × Nat)) :
    I (cutOff exec start left c runs d) ↔
      ∀ before p k after, runs = before ++ (p, k) :: after → ¬ Bad p k (cutOff exec start left c before d) := by
  have hstays : ∀ (runs : List (π × Nat)) (d : τ), J d → J (cutOff exec start left c runs d) := by
    intro runs
    induction runs with
    | nil => exact fun d h => h
    | cons run runs ih => exact fun d h => ih _ (hgone run.1 run.2 d h)
  induction runs generalizing d with
  | nil =>
    exact iff_of_true hI fun before p k after h =>
      absurd h.symm (List.append_ne_nil_of_right_ne_nil _ (List.cons_ne_nil _ _))
  | cons run runs ih =>
    obtain ⟨p, k⟩ := run
    by_cases hk : Bad p k d
    · have hJ := hstays runs _ (hbad p k d hI hk)
      exact iff_of_false (hnot _ hJ) fun h => h [] p k runs rfl hk
    · refine (ih (hgood p k d hI hk)).trans ⟨fun h before p' k' after hruns => ?_, fun h before p' k' after hruns => ?_⟩
      · cases before with
        | nil =>
          obtain ⟨hrun, -⟩ := List.cons.inj hruns
          obtain ⟨rfl, rfl⟩ := Prod.mk.inj hrun
          exact hk
        | cons run' before =>
          obtain ⟨rfl, hrest⟩ := List.cons.inj hruns
          exact h before p' k' after hrest
      · exact h ((p, k) :: before) p' k' after (congrArg ((p, k) :: ·) hruns)

end CutOff

end Coro

end Krewhub
