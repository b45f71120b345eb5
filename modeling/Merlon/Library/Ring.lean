/-
A ring of cells: `used` of them hold the elements of a queue, from `start` on
and around the end.
-/
import Mathlib.Data.List.Range
import Mathlib.Data.Nat.ModEq
import Mathlib.Logic.Function.Basic

namespace Merlon.Ring

open List

universe u

variable {α : Type u} {data : Nat → α} {size start used : Nat}

/-- The elements in the order in which they came. -/
def contents (data : Nat → α) (size start used : Nat) : List α :=
  (range used).map fun i => data ((start + i) % size)

@[simp] lemma length_contents (data : Nat → α) (size start used : Nat) :
    (contents data size start used).length = used := by
  simp [contents]

/-- Two cells of the ring are different. -/
lemma index_ne {i j : Nat} (hi : i < size) (hj : j < size) (hne : i ≠ j) :
    (start + i) % size ≠ (start + j) % size := by
  intro heq
  have hmod : i % size = j % size := Nat.ModEq.add_left_cancel' start heq
  rw [Nat.mod_eq_of_lt hi, Nat.mod_eq_of_lt hj] at hmod
  exact hne hmod

/-- An element written behind the last one. -/
lemma contents_push (hroom : used < size) (element : α) :
    contents (Function.update data ((start + used) % size) element) size start (used + 1) = contents
    data size start used ++ [element] := by
  unfold contents
  rw [range_succ, map_append]
  congr 1
  · refine map_congr_left fun i hi => Function.update_of_ne ?_ _ _
    have hlt := mem_range.mp hi
    exact index_ne (by omega) hroom (by omega)
  · simp

/-- The first element, and the rest from the next cell on. -/
lemma contents_pop (hstart : start < size) :
    contents data size start (used + 1) = data start :: contents data size ((start + 1) % size)
    used := by
  unfold contents
  rw [range_succ_eq_map, map_cons, map_map]
  congr 1
  · rw [Nat.add_zero, Nat.mod_eq_of_lt hstart]
  · refine map_congr_left fun i _ => ?_
    rw [Function.comp_apply, Nat.mod_add_mod, Nat.add_assoc, Nat.add_comm 1 i]

end Merlon.Ring
