/-
Runs of a labelled transition relation.  A run records the labels it took, so
a guard on the steps of a run is a second relation on the same labels and an
invariant proved for the guarded steps holds in every state the run visits.
-/
import Mathlib.Data.List.Basic

namespace Merlon

universe u v

variable {S : Type u} {A : Type v}

/-- `Run step start labels finish` holds when the labels take `start` to
`finish`, one step at a time. -/
inductive Run (step : S → A → S → Prop) : S → List A → S → Prop
  | nil (state : S) : Run step state [] state
  | snoc {start middle finish : S} {labels : List A} {label : A}
      (before : Run step start labels middle) (last : step middle label finish) :
      Run step start (labels ++ [label]) finish

namespace Run

variable {step : S → A → S → Prop} {start finish : S} {labels : List A}

/-- A property of the first state that every step keeps is a property of the
last state. -/
lemma invariant {P : S → Prop} (hrun : Run step start labels finish) (hstart : P start)
    (hstep : ∀ state label next, P state → step state label next → P next) : P finish := by
  induction hrun with
  | nil => exact hstart
  | snoc before last ih => exact hstep _ _ _ ih last

lemma single {label : A} (hstep : step start label finish) : Run step start [label] finish :=
  Run.snoc (Run.nil start) hstep

lemma cons {middle : S} {label : A} (first : step start label middle)
    (rest : Run step middle labels finish) : Run step start (label :: labels) finish := by
  induction rest with
  | nil => exact Run.single first
  | snoc _ last ih => exact Run.snoc ih last

end Run

end Merlon
