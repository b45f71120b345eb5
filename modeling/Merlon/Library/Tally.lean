/-
Totals over finitely many numbered participants, and how a total changes when
one participant does.
-/
import Mathlib.Algebra.BigOperators.Group.Finset.Basic
import Mathlib.Algebra.Order.BigOperators.Group.Finset
import Mathlib.Data.Finset.Range

namespace Merlon

open Finset

open Function (update update_self update_of_ne)

variable {weight weight' : Nat → Nat}

/-- The total of the participants up to `count`. -/
def tally (count : Nat) (weight : Nat → Nat) : Nat :=
  ∑ i ∈ Finset.range (count + 1), weight i

lemma tally_congr {count : Nat} (hsame : ∀ i, i ≤ count → weight' i = weight i) :
    tally count weight' = tally count weight :=
  sum_congr rfl fun i hi => hsame i (Nat.le_of_lt_succ (mem_range.mp hi))

lemma tally_le {count : Nat} (hle : ∀ i, i ≤ count → weight' i ≤ weight i) :
    tally count weight' ≤ tally count weight :=
  sum_le_sum fun i hi => hle i (Nat.le_of_lt_succ (mem_range.mp hi))

/-- One participant changes, the others do not. -/
lemma tally_change {count member : Nat} (weight weight' : Nat → Nat) (hmember : member ≤ count)
    (hsame : ∀ i, i ≠ member → weight' i = weight i) :
    tally count weight' + weight member = tally count weight + weight' member := by
  have hmem : member ∈ range (count + 1) := mem_range.mpr (Nat.lt_succ_of_le hmember)
  have hold := add_sum_erase _ weight hmem
  have hnew := add_sum_erase _ weight' hmem
  have hrest : ∑ i ∈ (range (count + 1)).erase member, weight' i =
      ∑ i ∈ (range (count + 1)).erase member, weight i :=
    sum_congr rfl fun i hi => hsame i (ne_of_mem_erase hi)
  unfold tally
  omega

lemma le_tally {count member : Nat} (weight : Nat → Nat)
    (hmember : member ≤ count) : weight member ≤ tally count weight :=
  single_le_sum (fun _ _ => Nat.zero_le _) (mem_range.mpr (Nat.lt_succ_of_le hmember))

lemma add_le_tally {count i j : Nat} (weight : Nat → Nat) (hi : i ≤ count)
    (hj : j ≤ count) (hne : i ≠ j) : weight i + weight j ≤ tally count weight := by
  have hchange := tally_change weight (update weight i 0) hi fun k hk => update_of_ne hk _ _
  have hle := le_tally (update weight i 0) hj
  rw [update_self] at hchange
  rw [update_of_ne hne.symm] at hle
  omega

/-- What an entry of a partial map weighs; no entry weighs nothing. -/
def weigh {α : Type*} (weight : α → Nat) : Option α → Nat
  | none => 0
  | some entry => weight entry

/-- The total over a partial map that changes at one key. -/
lemma tally_update {α : Type*} {count key : Nat} (hkey : key ≤ count) (weight : Nat → α → Nat)
    (table : Nat → Option α) (entry : Option α) :
    tally count (fun i => weigh (weight i) (update table key entry i)) + weigh (weight key)
    (table key) = tally count (fun i => weigh (weight i) (table i)) + weigh (weight key) entry := by
  have hchange := tally_change (fun i => weigh (weight i) (table i))
    (fun i => weigh (weight i) (update table key entry i)) hkey fun i hi => by rw [update_of_ne hi]
  simpa only [update_self] using hchange

/-- The number of keys that pass a test, when one entry changes. -/
lemma countP_update {ι α : Type*} [DecidableEq ι] (test : α → Bool) (table : ι → α) {key : ι}
    (entry : α) {keys : List ι} (hnodup : keys.Nodup) (hmem : key ∈ keys) :
    keys.countP (fun i => test (update table key entry i)) + (test (table key)).toNat = keys.countP
    (fun i => test (table i)) + (test entry).toNat := by
  induction keys with
  | nil => cases hmem
  | cons head tail ih =>
    obtain ⟨hnot, htail⟩ := List.nodup_cons.mp hnodup
    simp only [List.countP_cons]
    by_cases hhead : head = key
    · subst hhead
      have hrest : tail.countP (fun i =>
          test (update table head entry i)) =
          tail.countP fun i => test (table i) := by
        refine List.countP_congr fun i hi => ?_
        have hne : i ≠ head := by
          rintro rfl
          exact hnot hi
        rw [update_of_ne hne]
      rw [hrest, update_self]
      cases test entry <;> cases test (table head) <;> simp
    · have hchange := ih htail ((List.mem_cons.mp hmem).resolve_left (Ne.symm hhead))
      rw [update_of_ne hhead]
      omega

@[simp] lemma tally_zero (count : Nat) : tally count (fun _ => 0) = 0 := sum_const_zero

end Merlon
