import Mathlib.Logic.Basic
import Mathlib.Data.List.Basic

/-! Finite runs of a labelled step relation, and the two ways an invariant is carried
along them: on the states alone, or on the states together with the events so far.
-/

namespace LfuScan.Foundations

variable {σ ε : Type*}

/-- A finite run of `step` from one state to another, with the events it produced in order.
-/
inductive Run (step : σ → ε → σ → Prop) (start : σ) : List ε → σ → Prop
  | nil : Run step start [] start
  | snoc {trace event state next} (before : Run step start trace state)
    (last : step state event next)
    : Run step start (trace ++ [event]) next

/-- The steps of `step` that are taken from a state, and with an event, that `ok` allows. -/
def Guarded (step : σ → ε → σ → Prop) (ok : σ → ε → Prop) (state : σ) (event : ε)
    (next : σ)
    : Prop :=
  step state event next ∧ ok state event

/-- A property of states kept by every step holds at the end of every run. -/
theorem Run.invariant {step : σ → ε → σ → Prop} {start finish : σ} {trace : List ε}
    (holds : σ → Prop) (run : Run step start trace finish) (first : holds start)
    (kept : ∀ state event next, holds state → step state event next → holds next)
    : holds finish := by
  induction run with
  | nil => exact first
  | snoc _ last ih => exact kept _ _ _ ih last

/-- A property of the events so far and the current state, kept by every step, holds at
the end of every run.
-/
theorem Run.traceInvariant {step : σ → ε → σ → Prop} {start finish : σ} {trace : List ε}
    (holds : List ε → σ → Prop) (run : Run step start trace finish)
    (first : holds [] start)
    (kept
      : ∀ before state event next,
          holds before state → step state event next → holds (before ++ [event]) next)
    : holds trace finish := by
  induction run with
  | nil => exact first
  | snoc _ last ih => exact kept _ _ _ _ ih last

/-- Runs of a smaller step relation are runs of the larger one. -/
theorem Run.mono {step wider : σ → ε → σ → Prop} {start finish : σ} {trace : List ε}
    (run : Run step start trace finish)
    (included : ∀ state event next, step state event next → wider state event next)
    : Run wider start trace finish := by
  induction run with
  | nil => exact .nil
  | snoc _ last ih => exact .snoc ih (included _ _ _ last)

/-- A run of guarded steps is in particular a run. -/
theorem Run.unguarded {step : σ → ε → σ → Prop} {ok : σ → ε → Prop} {start finish : σ}
    {trace : List ε} (run : Run (Guarded step ok) start trace finish)
    : Run step start trace finish :=
  run.mono (fun _ _ _ taken => taken.1)

end LfuScan.Foundations
