/-
Partial correctness of stateful computations that may stop with an error, as
triples for the verification-condition generator.  A specification starts from
a named state, so that its postcondition can relate the two.
-/
import Mathlib

namespace Merlon

open Std.Do

variable {ε σ α : Type} {act : StateT σ (Except ε) α}

/-- The state is `s`. -/
abbrev now (s : σ) : Assertion (.arg σ (.except ε .pure)) :=
  fun t => ⌜t = s⌝

/-- The computation, when it returns, ends with `After`. -/
lemma triple_iff {Before : σ → Prop} {After : α → σ → Prop} :
    ⦃fun s => ⌜Before s⌝⦄ act ⦃⇓? value s => ⌜After value s⌝⦄ ↔ ∀ s value s', Before s →
    act s = .ok (value, s') → After value s' := by
  constructor
  · intro h s value s' hbefore hact
    have hwp : (wp⟦act s⟧ (⇓? r => ⌜After r.1 r.2⌝)).down := h s hbefore
    rw [hact] at hwp
    exact hwp
  · intro h s hbefore
    change (wp⟦act s⟧ (⇓? r => ⌜After r.1 r.2⌝)).down
    cases hact : act s with
    | error stop => exact trivial
    | ok r => exact h s r.1 r.2 hbefore hact

lemma triple_of_ok {R : σ → α → σ → Prop}
    (h : ∀ {s value s'}, act s = .ok (value, s') → R s value s') (s : σ) :
    ⦃now s⦄ act ⦃⇓? value t => ⌜R s value t⌝⦄ :=
  triple_iff.mpr fun _ _ _ heq hact => heq ▸ h hact

end Merlon
