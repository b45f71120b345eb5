/-
Binary search and merge sort, from `libc/common/stdlib/search_sort.c`.  The
bounds are 32-bit numbers: the bound below index zero is the largest of them,
and with it the search, or the sort of an empty array, leaves the array.
-/
import Mathlib.Data.List.Sort

namespace Merlon.Libc

variable {α : Type*}

def sizeTop : Nat := 0x100000000

/-- How `bsearch` ends: at an index, without a result, or with an access
outside the array. -/
inductive Search where
  | found (i : Nat)
  | missing
  | outside
  deriving DecidableEq

/-- The loop of `bsearch`; `compar` is how the key compares with an item.  After
a round for every item the bounds have crossed, unless the upper one is the
largest number, when the next access is outside the array. -/
def bsearchFrom (compar : α → Ordering) (base : List α) : Nat → Nat → Nat → Search
  | 0, low, high => if low ≤ high then .outside else .missing
  | rounds + 1, low, high =>
    if low ≤ high then
      let mid := low + (high - low) / 2
      match base[mid]? with
      | none => .outside
      | some item =>
        match compar item with
        | .eq => .found mid
        | .lt => bsearchFrom compar base rounds low ((mid + sizeTop - 1) % sizeTop)
        | .gt => bsearchFrom compar base rounds (mid + 1) high
    else .missing

def bsearch (compar : α → Ordering) (base : List α) : Search :=
  bsearchFrom compar base base.length 0 ((base.length + sizeTop - 1) % sizeTop)

/-- The sort of `qsort`, which splits and merges as `List.mergeSort` does; an
empty array is sorted up to the largest index. -/
def qsort (le : α → α → Bool) (base : List α) : Option (List α) :=
  if base = [] then none else some (base.mergeSort le)

/-- The items before one that equals the key are not above it, and those after
it are not below it. -/
structure Ordered (compar : α → Ordering) (base : List α) : Prop where
  above : ∀ (i j : Nat) (item later : α), i ≤ j → base[i]? = some item →
    base[j]? = some later → compar item = .lt → compar later = .lt
  below : ∀ (i j : Nat) (item later : α), i ≤ j → base[i]? = some item →
    base[j]? = some later → compar later = .gt → compar item = .gt

variable {compar : α → Ordering} {base : List α}

lemma bsearchFrom_found {rounds low high i : Nat}
    (h : bsearchFrom compar base rounds low high = .found i) :
    ∃ item, base[i]? = some item ∧ compar item = .eq := by
  induction rounds generalizing low high with
  | zero =>
    unfold bsearchFrom at h
    split at h
    · cases h
    · cases h
  | succ rounds ih =>
    unfold bsearchFrom at h
    split at h
    · dsimp only at h
      split at h
      · cases h
      · rename_i item hitem
        split at h
        · rename_i heq
          cases h
          exact ⟨item, hitem, heq⟩
        · exact ih h
        · exact ih h
    · cases h

/-- An item that is between the bounds is found, or another that equals the
key. -/
lemma bsearchFrom_finds (hordered : Ordered compar base) (hsize : base.length < sizeTop)
    {rounds low high k : Nat} {item : α} (hitem : base[k]? = some item) (heq : compar item = .eq)
    (hlow : low ≤ k) (hhigh : k ≤ high) (hlength : high < base.length)
    (hrounds : high - low < rounds) : ∃ i, bsearchFrom compar base rounds low high = .found i := by
  induction rounds generalizing low high with
  | zero => omega
  | succ rounds ih =>
    have hmid : low + (high - low) / 2 < base.length := by omega
    unfold bsearchFrom
    rw [if_pos (by omega)]
    dsimp only
    rw [List.getElem?_eq_getElem hmid]
    dsimp only
    have hprobe := List.getElem?_eq_getElem hmid
    have hbounds : low ≤ low + (high - low) / 2 ∧ low + (high - low) / 2 ≤ high := by omega
    generalize low + (high - low) / 2 = mid at hmid hprobe hbounds ⊢
    split
    · exact ⟨mid, rfl⟩
    · rename_i hlt
      have hbefore : k < mid := by
        by_contra hafter
        have hsame := hordered.above mid k _ item (by omega) hprobe hitem hlt
        rw [heq] at hsame
        cases hsame
      have hnext : (mid + sizeTop - 1) % sizeTop = mid - 1 := by
        unfold sizeTop at hsize ⊢
        omega
      exact ih hlow (by omega) (by omega) (by omega)
    · rename_i hgt
      have hafter : mid < k := by
        by_contra hbefore
        have hsame := hordered.below k mid item _ (by omega) hitem hprobe hgt
        rw [heq] at hsame
        cases hsame
      exact ih (by omega) hhigh hlength (by omega)

lemma bsearch_found {i : Nat} (h : bsearch compar base = .found i) :
    ∃ item, base[i]? = some item ∧ compar item = .eq := by
  exact bsearchFrom_found h

/-- A search finds something exactly when there is something to find. -/
lemma bsearch_found_iff (hordered : Ordered compar base) (hsize : base.length < sizeTop) :
    (∃ i, bsearch compar base = .found i) ↔ ∃ item ∈ base, compar item = .eq := by
  constructor
  · rintro ⟨i, hfound⟩
    obtain ⟨item, hitem, heq⟩ := bsearch_found hfound
    exact ⟨item, List.mem_of_getElem? hitem, heq⟩
  · rintro ⟨item, hmem, heq⟩
    obtain ⟨k, hitem⟩ := List.mem_iff_getElem?.mp hmem
    have hk : k < base.length := (List.getElem?_eq_some_iff.mp hitem).1
    have hhigh : (base.length + sizeTop - 1) % sizeTop = base.length - 1 := by
      unfold sizeTop at hsize ⊢
      omega
    unfold bsearch
    exact bsearchFrom_finds hordered hsize hitem heq (Nat.zero_le k) (by omega)
      (by omega) (by omega)

end Merlon.Libc
