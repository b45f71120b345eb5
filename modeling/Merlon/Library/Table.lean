/-
Partial maps that change at one key: a property of every entry, or of the entry
at one key, after the change.
-/
import Mathlib.Logic.Function.Basic

namespace Merlon

open Function

universe u

variable {K α : Type u} [DecidableEq K] {table : K → Option α} {key : K} {entry : Option α}

/-- A property of all entries that the new one has too. -/
lemma forall_update {P : K → α → Prop}
    (hothers : ∀ other found, table other = some found → other ≠ key → P other found)
    (hnew : ∀ found, entry = some found → P key found) :
    ∀ other found, update table key entry other = some found → P other found := by
  intro other found hfound
  by_cases hne : other = key
  · subst hne
    rw [update_self] at hfound
    exact hnew found hfound
  · rw [update_of_ne hne] at hfound
    exact hothers other found hfound hne

/-- An entry with a property that the new one takes over. -/
lemma exists_update {P : α → Prop} {other : K} {old new : α} (hold : table key = some old)
    (hkeep : P old → P new) (hfound : ∃ found, table other = some found ∧ P found) :
    ∃ found, update table key (some new) other = some found ∧ P found := by
  obtain ⟨found, hentry, hproperty⟩ := hfound
  by_cases hne : other = key
  · subst hne
    rw [hold] at hentry
    cases hentry
    exact ⟨new, update_self .., hkeep hproperty⟩
  · exact ⟨found, by rw [update_of_ne hne, hentry], hproperty⟩

end Merlon
