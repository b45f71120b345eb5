/-
A scan for the first run of good positions of a given length.  One counter
holds the length of the run that ends at the current position; a bad position
resets it.
-/
import Mathlib.Tactic.Common

namespace Merlon

/-- The `length` positions from `start` on are good. -/
def IsRun (good : Nat → Bool) (length start : Nat) : Prop :=
  ∀ i, start ≤ i → i < start + length → good i = true

/-- The last position of the first run that is completed among the next
`remaining` positions, when the `count` positions before `index` are good. -/
def scanRun (good : Nat → Bool) (length : Nat) : Nat → Nat → Nat → Option Nat
  | 0, _, _ => none
  | remaining + 1, index, count =>
    if good index then
      if count + 1 = length then some index
      else scanRun good length remaining (index + 1) (count + 1)
    else scanRun good length remaining (index + 1) 0

/-- What is known after the positions from `first` up to `index`. -/
structure Scanned (good : Nat → Bool) (length first index count : Nat) : Prop where
  inside : first + count ≤ index
  short : count < length
  counted : IsRun good count (index - count)
  earlier : ∀ start, first ≤ start → start < index - count → ¬ IsRun good length start

/-- The run from `start` on is the first one. -/
structure FirstRun (good : Nat → Bool) (length first limit start : Nat) : Prop where
  first_le : first ≤ start
  le_limit : start + length ≤ limit
  isRun : IsRun good length start
  earlier : ∀ other, first ≤ other → other < start → ¬ IsRun good length other

variable {good : Nat → Bool} {length first limit index count start : Nat}

lemma FirstRun.unique {other : Nat} (h : FirstRun good length first limit start)
    (h' : FirstRun good length first limit other) : start = other := by
  rcases Nat.lt_trichotomy start other with hlt | heq | hlt
  · exact absurd h.isRun (h'.earlier start h.first_le hlt)
  · exact heq
  · exact absurd h'.isRun (h.earlier other h'.first_le hlt)

namespace Scanned

lemma init (hlength : 0 < length) : Scanned good length first first 0 where
  inside := Nat.le_refl _
  short := hlength
  counted i hle hlt := by omega
  earlier start hle hlt := by omega

lemma bad (h : Scanned good length first index count) (hbad : good index = false) :
    Scanned good length first (index + 1) 0 where
  inside := by
    have hinside := h.inside
    omega
  short := Nat.zero_lt_of_lt h.short
  counted i hle hlt := by omega
  earlier start hle hlt hrun := by
    by_cases hbefore : start < index - count
    · exact h.earlier start hle hbefore hrun
    · have hshort := h.short
      have hgood := hrun index (by omega) (by omega)
      rw [hbad] at hgood
      cases hgood

section

variable (h : Scanned good length first index count)

include h

lemma extend (hgood : good index = true) : IsRun good (count + 1) (index - count) := by
  have hinside := h.inside
  intro i hle hlt
  by_cases heq : i = index
  · rw [heq, hgood]
  · exact h.counted i hle (by omega)

lemma step (hgood : good index = true) (hshort : count + 1 ≠ length) :
    Scanned good length first (index + 1) (count + 1) := by
  have hinside := h.inside
  have hcount := h.short
  refine ⟨by omega, by omega, ?_, ?_⟩
  · rw [Nat.add_sub_add_right]
    exact h.extend hgood
  · rw [Nat.add_sub_add_right]
    exact h.earlier

/-- The scan stops at the end of the first run. -/
lemma scanRun_some {remaining last : Nat}
    (hscan : scanRun good length remaining index count = some last) :
    ∃ start, last + 1 = start + length ∧ FirstRun good length first (index + remaining) start := by
  induction remaining generalizing index count with
  | zero => cases hscan
  | succ remaining ih =>
    rw [Nat.add_comm remaining, ← Nat.add_assoc]
    unfold scanRun at hscan
    split at hscan
    · rename_i hgood
      split at hscan
      · rename_i hlength
        cases hscan
        have hinside := h.inside
        refine ⟨last - count, by omega, by omega, by omega, ?_, h.earlier⟩
        exact hlength ▸ h.extend hgood
      · rename_i hshort
        exact ih (h.step hgood hshort) hscan
    · rename_i hbad
      exact ih (h.bad (eq_false_of_ne_true hbad)) hscan

/-- A scan that comes to its end has passed no run. -/
lemma scanRun_none {remaining : Nat} (hscan : scanRun good length remaining index count = none)
    (start : Nat) (hfirst : first ≤ start) (hlimit : start + length ≤ index + remaining) :
    ¬ IsRun good length start := by
  induction remaining generalizing index count with
  | zero =>
    have hshort := h.short
    exact h.earlier start hfirst (by omega)
  | succ remaining ih =>
    unfold scanRun at hscan
    split at hscan
    · rename_i hgood
      split at hscan
      · cases hscan
      · rename_i hshort
        exact ih (h.step hgood hshort) hscan (by omega)
    · rename_i hbad
      exact ih (h.bad (eq_false_of_ne_true hbad)) hscan (by omega)

end

end Scanned

/-- A run of no positions is never completed. -/
lemma scanRun_zero (remaining : Nat) : scanRun good 0 remaining index count = none := by
  induction remaining generalizing index count with
  | zero => rfl
  | succ remaining ih =>
    unfold scanRun
    split
    · exact ih
    · exact ih

end Merlon
