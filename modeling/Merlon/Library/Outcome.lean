/-
Computations that may stop with an error, as postconditions: `Ends` bounds
both the errors and the results, and composes along binds.
-/
import Mathlib.Tactic.Common

namespace Merlon

universe u

variable {ε σ α β : Type u} {outcome : Except ε α}
  {next : α → StateT σ (Except ε) β} {act : StateT σ (Except ε) α} {Fails : ε → Prop}

@[simp] lemma ok_bind (value : α) (next : α → Except ε β) :
    (Except.ok value >>= next) = next value :=
  rfl

@[simp] lemma error_bind (stop : ε) (next : α → Except ε β) :
    (Except.error stop >>= next) = .error stop :=
  rfl

/-- A computation that returns has returned from its first part. -/
lemma bind_eq_ok {next : α → Except ε β} {result : β} (h : (outcome >>= next) = .ok result) :
    ∃ value, outcome = .ok value ∧ next value = .ok result := by
  cases outcome with
  | ok value => exact ⟨value, rfl, h⟩
  | error stop => cases h

/-- The computation fails only as `Fails` allows and returns only what
`Returns` allows. -/
def Ends (outcome : Except ε α) (Fails : ε → Prop) (Returns : α → Prop) :
    Prop :=
  match outcome with
  | .ok value => Returns value
  | .error stop => Fails stop

lemma Ends.mono {MayFail : ε → Prop} {Returns : α → Prop} (hends : Ends outcome Fails Returns)
    (hfails : ∀ stop, Fails stop → MayFail stop) : Ends outcome MayFail Returns := by
  cases outcome with
  | ok value => exact hends
  | error stop => exact hfails stop hends

lemma Ends.imp {Returns MayReturn : α → Prop} (hends : Ends outcome Fails Returns)
    (hreturns : ∀ value, Returns value → MayReturn value) : Ends outcome Fails MayReturn := by
  cases outcome with
  | ok value => exact hreturns value hends
  | error stop => exact hends

lemma Ends.bind {next : α → Except ε β} {Middle : α → Prop} {Returns : β → Prop}
    (hfirst : Ends outcome Fails Middle)
    (hnext : ∀ value, Middle value → Ends (next value) Fails Returns) :
    Ends (outcome >>= next) Fails Returns := by
  cases outcome with
  | ok value => exact hnext value hfirst
  | error stop => exact hfirst

/-! Stateful computations. -/

@[simp] lemma state_pure (value : α) (state : σ) :
    (pure value : StateT σ (Except ε) α) state = .ok (value, state) :=
  rfl

@[simp] lemma state_get (state : σ) : (get : StateT σ (Except ε) σ) state = .ok (state, state) :=
  rfl

/-- A computation returns when its parts do, one after the other. -/
lemma state_bind_eq_ok_iff {start : σ} {result : β × σ} : (act >>= next) start = .ok result ↔
    ∃ value state, act start = .ok (value, state) ∧ next value state = .ok result := by
  change (act start >>= fun first => next first.1 first.2) = _ ↔ _
  rcases act start with stop | ⟨value, state⟩
  · simp
  · simp

lemma state_bind_ok {start state : σ} {value : α} (hact : act start = .ok (value, state)) :
    (act >>= next) start = next value state := by
  change (act start >>= fun first => next first.1 first.2) = _
  rw [hact, ok_bind]

end Merlon
