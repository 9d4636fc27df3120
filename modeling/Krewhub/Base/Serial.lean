import Mathlib.Data.List.Infix
import Mathlib.Tactic.Common

/-!
# Calls one after another

A state and the calls that change it, each after the one before has completed. What is asked of a
call may depend on the state it meets, so a condition on a run speaks of every call at its own state.
-/

namespace Krewhub

namespace Serial

variable {σ κ : Type} (step : κ → σ → σ)

/-- The state after a run of calls. -/
def after (s : σ) (calls : List κ) : σ := calls.foldl (fun s call => step call s) s

/-- The property holds of every call of a run and the state it meets. -/
def Each (P : σ → κ → Prop) (s : σ) : List κ → Prop
  | [] => True
  | call :: calls => P s call ∧ Each P (step call s) calls

variable {step} {P Q : σ → κ → Prop} {s : σ} {calls calls' : List κ}

theorem after_append (step : κ → σ → σ) (s : σ) (calls calls' : List κ) :
    after step s (calls ++ calls') = after step (after step s calls) calls' :=
  List.foldl_append

theorem each_append :
    Each step P s (calls ++ calls') ↔
      Each step P s calls ∧ Each step P (after step s calls) calls' := by
  induction calls generalizing s with
  | nil => simp [Each, after]
  | cons call calls ih =>
    show _ ∧ Each step P _ (calls ++ calls') ↔ _
    rw [ih, ← and_assoc]
    rfl

theorem each_congr (h : ∀ s call, P s call ↔ Q s call) :
    Each step P s calls ↔ Each step Q s calls := by
  induction calls generalizing s with
  | nil => rfl
  | cons call calls ih => exact and_congr (h s call) ih

/-- What every call keeps where its condition holds is kept by a run whose calls all meet it. -/
theorem Each.after_inv {I : σ → Prop} (hstep : ∀ s call, P s call → I s → I (step call s))
    (h : Each step P s calls) (hs : I s) : I (after step s calls) := by
  induction calls generalizing s with
  | nil => exact hs
  | cons call calls ih => exact ih h.2 (hstep s call h.1 hs)

/-- The invariant holds in every state of such a run. -/
theorem Each.always {I : σ → Prop} (hstep : ∀ s call, P s call → I s → I (step call s))
    (h : Each step P s calls) (hs : I s) (hpre : calls' <+: calls) :
    I (after step s calls') := by
  obtain ⟨rest, rfl⟩ := hpre
  exact (each_append.mp h).1.after_inv hstep hs

end Serial

end Krewhub
