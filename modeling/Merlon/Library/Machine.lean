/-
Machines whose steps may fail.  A run that is carried out, with a test on its
last state, is evidence that the machine has such a run.
-/
import Merlon.Library.Transition

namespace Merlon

universe u v w

variable {S : Type u} {A : Type v} {ε : Type w}

/-- The state after the labels, unless a step is not ready or fails. -/
def carryOut (ready : S → A → Bool) (step : S → A → Except ε S) (start : S) : List A → Option S
  | [] => some start
  | label :: rest =>
    if ready start label then
      match step start label with
      | .error _ => none
      | .ok next => carryOut ready step next rest
    else none

variable {ready : S → A → Bool} {step : S → A → Except ε S}
  {relation : S → A → S → Prop} {start finish : S} {labels : List A}
  (hstep : ∀ state label next, ready state label = true →
    step state label = .ok next → relation state label next)

include hstep

lemma run_of_carryOut (h : carryOut ready step start labels = some finish) :
    Run relation start labels finish := by
  induction labels generalizing start with
  | nil =>
    cases h
    exact Run.nil _
  | cons label rest ih =>
    unfold carryOut at h
    split at h
    · rename_i hready
      split at h
      · cases h
      · rename_i next hnext
        exact Run.cons (hstep _ _ _ hready hnext) (ih h)
    · cases h

/-- The last state of a run that is carried out has what a test finds. -/
lemma exists_run_of_carryOut (start : S) (labels : List A) (test : S → Bool)
    (h : (carryOut ready step start labels).any test = true) :
    ∃ finish, Run relation start labels finish ∧ test finish = true := by
  obtain ⟨finish, hrun, htest⟩ := (Option.any_eq_true ..).mp h
  exact ⟨finish, run_of_carryOut hstep hrun, htest⟩

lemma exists_run_test {Test : S → Prop} [DecidablePred Test]
    (h : (carryOut ready step start labels).any (fun s => Test s) = true) :
    ∃ finish, Run relation start labels finish ∧ Test finish := by
  obtain ⟨finish, hrun, htest⟩ := exists_run_of_carryOut hstep start labels _ h
  exact ⟨finish, hrun, of_decide_eq_true htest⟩

/-- A run that is carried out, with what it is known to have besides. -/
lemma exists_run_and {Test Result : S → Prop} [DecidablePred Test]
    (hresult : ∀ {finish}, Run relation start labels finish → Test finish → Result finish)
    (h : (carryOut ready step start labels).any (fun s => Test s) = true) :
    ∃ finish, Run relation start labels finish ∧ Test finish ∧ Result finish := by
  obtain ⟨finish, hrun, htest⟩ := exists_run_test hstep h
  exact ⟨finish, hrun, htest, hresult hrun htest⟩

omit hstep

/-- How a step fails, if it does. -/
def failure {α : Type u} (outcome : Except ε α) : Option ε :=
  match outcome with
  | .ok _ => none
  | .error stop => some stop

lemma eq_error_of_failure {α : Type u} {outcome : Except ε α} {stop : ε}
    (h : failure outcome = some stop) : outcome = .error stop := by
  cases outcome with
  | ok value => cases h
  | error stop' =>
    cases h
    rfl

end Merlon
