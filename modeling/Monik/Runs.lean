import Mathlib.Data.List.Basic
import Mathlib.Logic.Basic

/-! Runs of a state machine whose step is a total function of the state and an event, which carries
what the environment decides. `Meets` is a condition on the events, each in the state where it
happens. -/

namespace Monik.Runs

variable {σ ε : Type*}

def run (step : σ → ε → σ) (s : σ) (events : List ε) : σ :=
  events.foldl step s

/-- Each event of the run meets `ok` in the state in which it happens. -/
def Meets (step : σ → ε → σ) (ok : σ → ε → Prop) : σ → List ε → Prop
  | _, [] => True
  | s, e :: es => ok s e ∧ Meets step ok (step s e) es

instance Meets.decidable {step : σ → ε → σ} {ok : σ → ε → Prop} [∀ s e, Decidable (ok s e)] :
    ∀ s es, Decidable (Meets step ok s es)
  | _, [] => isTrue trivial
  | s, e :: es => @instDecidableAnd _ _ _ (Meets.decidable (step s e) es)

@[simp] theorem run_nil (step : σ → ε → σ) (s : σ) : run step s [] = s := rfl

@[simp] theorem run_cons (step : σ → ε → σ) (s : σ) (e : ε) (es : List ε) :
    run step s (e :: es) = run step (step s e) es := rfl

theorem run_append (step : σ → ε → σ) (s : σ) (es fs : List ε) :
    run step s (es ++ fs) = run step (run step s es) fs := by
  simp [run, List.foldl_append]

variable {step : σ → ε → σ} {ok : σ → ε → Prop}

theorem meets_append (s : σ) (es fs : List ε) :
    Meets step ok s (es ++ fs) ↔ Meets step ok s es ∧ Meets step ok (run step s es) fs := by
  induction es generalizing s with
  | nil => simp [Meets]
  | cons e es ih => simp only [List.cons_append, Meets, ih, run_cons, and_assoc]

/-- What one step preserves under `ok`, a run all of whose steps meet `ok` preserves. -/
theorem run_invariant (inv : σ → Prop) (preserved : ∀ s e, inv s → ok s e → inv (step s e))
    {s : σ} (start : inv s) {es : List ε} (hm : Meets step ok s es) : inv (run step s es) := by
  induction es generalizing s with
  | nil => exact start
  | cons e es ih => exact ih (preserved s e start hm.1) hm.2

theorem run_preserves (inv : σ → Prop)
    (preserved : ∀ s e, inv s → inv (step s e)) {s : σ} (start : inv s) (es : List ε) : inv (run step s es) := by
  induction es generalizing s with
  | nil => exact start
  | cons e es ih => exact ih (preserved s e start)

end Monik.Runs
