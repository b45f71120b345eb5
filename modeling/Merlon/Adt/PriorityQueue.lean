/-
The priority queue of `adt/heap.c`: an array read as a binary tree in which a
parent comes before its children, by the larger priority in a max heap and by
the smaller one in a min heap.
-/
import Mathlib.Data.List.Perm.Basic
import Mathlib.Logic.Equiv.Basic
import Mathlib.Data.List.Range
import Mathlib.Data.List.Nodup
import Mathlib.Tactic.Common

namespace Merlon.Adt

open List Equiv

universe u

variable {α : Type u}

/-- `struct heap_adt`.  A slot is a priority and an element; the slots from
`size` on hold leftovers. -/
structure HeapAdt (α : Type u) where
  capacity : Nat
  size : Nat
  max : Bool
  array : Nat → Nat × α

/-- The panics of the queue. -/
inductive HeapStop where
  | insertWhenFull
  | peekOnEmpty
  | popOnEmpty
deriving Repr, DecidableEq

namespace HeapAdt

def swapElements (heap : HeapAdt α) (a b : Nat) : HeapAdt α :=
  { heap with array := fun i =>
      if i = a then heap.array b
      else if i = b then heap.array a
      else heap.array i }

def getMinOrMaxIndex (heap : HeapAdt α) (a b : Nat) : Nat :=
  if heap.size ≤ a ∨ heap.size ≤ b then min a b
  else
    let isASmall := decide ((heap.array a).1 < (heap.array b).1)
    if heap.max ^^ isASmall then a else b

/-- The best of a slot and its two children. -/
def bestIndex (heap : HeapAdt α) (i : Nat) : Nat :=
  let left := i * 2 + 1
  let right := left + 1
  heap.getMinOrMaxIndex right (heap.getMinOrMaxIndex i left)

/-- `Heapify`; every call goes to a larger slot, so the size bounds the depth
of the recursion. -/
def heapify (heap : HeapAdt α) : Nat → Nat → HeapAdt α
  | 0, _ => heap
  | fuel + 1, i =>
    let best := heap.bestIndex i
    if i ≠ best then (heap.swapElements i best).heapify fuel best else heap

/-- The loop of `HeapAdtInsert`; the slot goes down towards 0. -/
def siftUp (heap : HeapAdt α) : Nat → Nat → HeapAdt α
  | 0, _ => heap
  | fuel + 1, i =>
    let parent := (i - 1) / 2
    if i ≠ 0 ∧ (heap.max ^^ decide ((heap.array parent).1 > (heap.array i).1))
    then (heap.swapElements parent i).siftUp fuel parent
    else heap

def heapAdtCreate (capacity : Nat) (max : Bool) (array : Nat → Nat × α) : HeapAdt α where
  capacity := capacity
  size := 0
  max := max
  array := array

/-- Put an element behind the last one. -/
def append (heap : HeapAdt α) (slot : Nat × α) : HeapAdt α :=
  { heap with
    size := heap.size + 1
    array := fun i => if i = heap.size then slot else heap.array i }

def heapAdtInsert (heap : HeapAdt α) (elem : α) (priority : Nat) : Except HeapStop (HeapAdt α) :=
  if heap.size = heap.capacity then .error .insertWhenFull
  else .ok ((heap.append (priority, elem)).siftUp heap.size heap.size)

def heapAdtPeek (heap : HeapAdt α) : Except HeapStop (Nat × α) :=
  if heap.size = 0 then .error .peekOnEmpty else .ok (heap.array 0)

/-- Move the last element to the root. -/
def dropRoot (heap : HeapAdt α) : HeapAdt α :=
  { heap with
    size := heap.size - 1
    array := fun i => if i = 0 then heap.array (heap.size - 1)
      else heap.array i }

def heapAdtPop (heap : HeapAdt α) : Except HeapStop (HeapAdt α) :=
  if heap.size = 0 then .error .popOnEmpty
  else .ok (heap.dropRoot.heapify heap.size 0)

/-- The slots in use. -/
def contents (heap : HeapAdt α) : List (Nat × α) :=
  (range heap.size).map heap.array

/-- The first slot may stand above the second. -/
def Above (heap : HeapAdt α) (first second : Nat × α) : Prop :=
  if heap.max then second.1 ≤ first.1 else first.1 ≤ second.1

/-- A slot is above its children, except where `skip` allows otherwise. -/
def OrderedExcept (heap : HeapAdt α) (skip : Nat → Prop) : Prop :=
  ∀ i, 0 < i → i < heap.size → ¬ skip i → heap.Above (heap.array ((i - 1) / 2)) (heap.array i)

/-- Every parent is above its children. -/
def Ordered (heap : HeapAdt α) : Prop :=
  heap.OrderedExcept fun _ => False

variable {heap : HeapAdt α} {i : Nat}

lemma Above.trans {first second third : Nat × α}
    (h : heap.Above first second) (h' : heap.Above second third) : heap.Above first third := by
  unfold Above at *
  split_ifs at * <;> omega

lemma Above.refl (heap : HeapAdt α) (slot : Nat × α) : heap.Above slot slot := by
  unfold Above
  split_ifs <;> exact Nat.le_refl _

/-! Swapping keeps the contents. -/

section Swap

variable (heap : HeapAdt α) (a b : Nat)

@[simp] lemma size_swapElements : (heap.swapElements a b).size = heap.size :=
  rfl

@[simp] lemma above_swapElements : (heap.swapElements a b).Above = heap.Above :=
  rfl

@[simp] lemma array_swapElements_left : (heap.swapElements a b).array a = heap.array b :=
  if_pos rfl

@[simp] lemma array_swapElements_right : (heap.swapElements a b).array b = heap.array a := by
  by_cases hab : b = a
  · rw [hab, array_swapElements_left]
  · exact (if_neg hab).trans (if_pos rfl)

lemma array_swapElements_of_ne (ha : i ≠ a) (hb : i ≠ b) :
    (heap.swapElements a b).array i = heap.array i :=
  (if_neg ha).trans (if_neg hb)

lemma array_swapElements (i : Nat) :
    (heap.swapElements a b).array i = heap.array (swap a b i) := by
  rw [swap_apply_def]
  split_ifs with ha hb
  · rw [ha, array_swapElements_left]
  · rw [hb, array_swapElements_right]
  · exact array_swapElements_of_ne heap a b ha hb

end Swap

lemma contents_swapElements {a b : Nat} (ha : a < heap.size) (hb : b < heap.size) :
    (heap.swapElements a b).contents.Perm heap.contents := by
  have hmap : (heap.swapElements a b).contents =
      ((range heap.size).map (swap a b)).map heap.array := by
    rw [map_map]
    exact map_congr_left fun i _ => array_swapElements heap a b i
  have hlt : ∀ i < heap.size, swap a b i < heap.size := by
    intro i hi
    rw [swap_apply_def]
    split_ifs <;> assumption
  have hperm : ((range heap.size).map (swap a b)).Perm (range heap.size) := by
    rw [perm_ext_iff_of_nodup (nodup_range.map (swap a b).injective) nodup_range]
    intro i
    simp only [mem_map, mem_range]
    constructor
    · rintro ⟨j, hj, rfl⟩
      exact hlt j hj
    · intro hi
      exact ⟨swap a b i, hlt i hi, (swap a b).apply_symm_apply i⟩
  rw [hmap]
  exact hperm.map heap.array

/-- The root of an ordered heap is above everything in it. -/
lemma Ordered.root_above (hordered : heap.Ordered)
    (hi : i < heap.size) : heap.Above (heap.array 0) (heap.array i) := by
  induction i using Nat.strong_induction_on with
  | _ i ih =>
    rcases Nat.eq_zero_or_pos i with rfl | hpos
    · exact Above.refl heap _
    · exact (ih ((i - 1) / 2) (by omega) (by omega)).trans (hordered i hpos hi fun hfalse => hfalse)

/-- The children of a slot are below its parent, so that the slot can take
part in a swap with either. -/
def Bridged (heap : HeapAdt α) (i : Nat) : Prop :=
  ∀ child, 0 < child → child < heap.size → (child - 1) / 2 = i → 0 < i →
    heap.Above (heap.array ((i - 1) / 2)) (heap.array child)

/-- What a pass over the array leaves alone. -/
structure Rearranges (heap heap' : HeapAdt α) : Prop where
  max_eq : heap'.max = heap.max
  capacity_eq : heap'.capacity = heap.capacity
  size_eq : heap'.size = heap.size
  perm : heap'.contents.Perm heap.contents

lemma Rearranges.refl (heap : HeapAdt α) : heap.Rearranges heap :=
  ⟨rfl, rfl, rfl, List.Perm.refl _⟩

lemma Rearranges.after_swap {heap' : HeapAdt α} {a b : Nat} (ha : a < heap.size)
    (hb : b < heap.size) (h : (heap.swapElements a b).Rearranges heap') : heap.Rearranges heap' :=
  ⟨h.max_eq, h.capacity_eq, h.size_eq, h.perm.trans (contents_swapElements ha hb)⟩

/-! Moving an element up. -/

/-- The exception of the heap order moves from a slot to its parent. -/
lemma OrderedExcept.swap_up (hordered : heap.OrderedExcept (· = i)) (hbridged : heap.Bridged i)
    (hpos : 0 < i) (habove : heap.Above (heap.array i) (heap.array ((i - 1) / 2))) :
    (heap.swapElements ((i - 1) / 2) i).OrderedExcept (· = (i - 1) / 2) := by
  intro j hj hlt hskip
  by_cases hji : j = i
  · subst hji
    simpa using habove
  · rw [array_swapElements_of_ne heap _ _ hskip hji]
    by_cases hparent : (j - 1) / 2 = i
    · rw [hparent, array_swapElements_right]
      exact hbridged j hj hlt hparent hpos
    · by_cases hsibling : (j - 1) / 2 = (i - 1) / 2
      · rw [hsibling, array_swapElements_left]
        exact habove.trans (hsibling ▸ hordered j hj hlt hji)
      · rw [array_swapElements_of_ne heap _ _ hsibling hparent]
        exact hordered j hj hlt hji

lemma Bridged.swap_up (hordered : heap.OrderedExcept (· = i)) (hpos : 0 < i)
    (hi : i < heap.size) : (heap.swapElements ((i - 1) / 2) i).Bridged ((i - 1) / 2) := by
  intro child hchild hlt hparent hgrand
  have hup : heap.Above (heap.array (((i - 1) / 2 - 1) / 2)) (heap.array ((i - 1) / 2)) :=
    hordered _ hgrand (by omega) (by omega)
  rw [array_swapElements_of_ne heap _ _ (by omega) (by omega)]
  by_cases hci : child = i
  · rw [hci, array_swapElements_right]
    exact hup
  · rw [array_swapElements_of_ne heap _ _ (by omega) hci]
    exact hup.trans (hparent ▸ hordered child hchild hlt hci)

lemma siftUp_spec (heap : HeapAdt α) (fuel i : Nat) (hfuel : i ≤ fuel)
    (hi : i < heap.size) (hordered : heap.OrderedExcept (· = i)) (hbridged : heap.Bridged i) :
    (heap.siftUp fuel i).Ordered ∧ heap.Rearranges (heap.siftUp fuel i) := by
  induction fuel generalizing heap i with
  | zero =>
    refine ⟨?_, Rearranges.refl heap⟩
    intro j hpos hj _
    exact hordered j hpos hj (by omega)
  | succ fuel ih =>
    rw [siftUp]
    split_ifs with hswap
    · have hpos : 0 < i := Nat.pos_of_ne_zero hswap.1
      have habove : heap.Above (heap.array i) (heap.array ((i - 1) / 2)) := by
        have hbelow := hswap.2
        unfold Above
        cases hmax : heap.max <;> simp [hmax] at hbelow ⊢ <;> omega
      obtain ⟨hord, hsame⟩ := ih (heap.swapElements ((i - 1) / 2) i)
        ((i - 1) / 2) (by omega) (by rw [size_swapElements]; omega)
        (hordered.swap_up hbridged hpos habove) (Bridged.swap_up hordered hpos hi)
      exact ⟨hord, hsame.after_swap (by omega) hi⟩
    · refine ⟨?_, Rearranges.refl heap⟩
      intro j hpos hj _
      by_cases hji : j = i
      · subst hji
        unfold Above
        cases hmax : heap.max <;> simp [hmax] at hswap ⊢ <;> omega
      · exact hordered j hpos hj hji

/-! Moving an element down. -/

lemma getMinOrMaxIndex_cases (heap : HeapAdt α) {a b : Nat} (ha : a < heap.size)
    (hb : b < heap.size) :
    (heap.getMinOrMaxIndex a b = a ∧ heap.Above (heap.array a) (heap.array b)) ∨
    (heap.getMinOrMaxIndex a b = b ∧ heap.Above (heap.array b) (heap.array a)) := by
  unfold getMinOrMaxIndex Above
  by_cases hlt : (heap.array a).1 < (heap.array b).1 <;> cases heap.max <;> simp [hlt] <;> omega

lemma getMinOrMaxIndex_of_size_le (heap : HeapAdt α) {a b : Nat}
    (h : heap.size ≤ a ∨ heap.size ≤ b) : heap.getMinOrMaxIndex a b = min a b :=
  if_pos h

/-- The better of two slots, one of which is in use. -/
lemma above_getMinOrMaxIndex (heap : HeapAdt α) {a b : Nat}
    (hmin : min a b < heap.size) (hi : i = a ∨ i = b) (hlt : i < heap.size) :
    heap.Above (heap.array (heap.getMinOrMaxIndex a b)) (heap.array i) := by
  by_cases hout : heap.size ≤ a ∨ heap.size ≤ b
  · have hsame : i = min a b := by omega
    rw [getMinOrMaxIndex_of_size_le heap hout, hsame]
    exact Above.refl heap _
  · rcases getMinOrMaxIndex_cases heap (a := a) (b := b) (by omega) (by omega)
      with ⟨heq, habove⟩ | ⟨heq, habove⟩ <;> rw [heq] <;> rcases hi with rfl | rfl <;>
      first | exact Above.refl heap _ | exact habove

lemma getMinOrMaxIndex_lt (heap : HeapAdt α) {a b : Nat} (hmin : min a b < heap.size) :
    (heap.getMinOrMaxIndex a b = a ∨ heap.getMinOrMaxIndex a b = b) ∧
    heap.getMinOrMaxIndex a b < heap.size := by
  by_cases hout : heap.size ≤ a ∨ heap.size ≤ b
  · rw [getMinOrMaxIndex_of_size_le heap hout]
    omega
  · rcases getMinOrMaxIndex_cases heap (a := a) (b := b) (by omega) (by omega)
      with ⟨heq, _⟩ | ⟨heq, _⟩ <;> rw [heq] <;> omega

/-- The best slot is the slot or one of its children, and is above all of
them. -/
lemma bestIndex_spec (heap : HeapAdt α) (hi : i < heap.size) :
    (heap.bestIndex i = i ∨ (0 < heap.bestIndex i ∧ (heap.bestIndex i - 1) / 2 = i)) ∧
    heap.bestIndex i < heap.size ∧ heap.Above (heap.array (heap.bestIndex i)) (heap.array i) ∧
    ∀ child, 0 < child → child < heap.size → (child - 1) / 2 = i →
    heap.Above (heap.array (heap.bestIndex i)) (heap.array child) := by
  have hfirst : min i (i * 2 + 1) < heap.size := by omega
  obtain ⟨hinner, hinnerLt⟩ := getMinOrMaxIndex_lt heap hfirst
  have hsecond : min (i * 2 + 1 + 1) (heap.getMinOrMaxIndex i (i * 2 + 1)) < heap.size := by omega
  obtain ⟨houter, houterLt⟩ := getMinOrMaxIndex_lt heap hsecond
  have hbest : ∀ j, (j = i ∨ j = i * 2 + 1) → j < heap.size →
      heap.Above (heap.array (heap.bestIndex i)) (heap.array j) := by
    intro j hj hlt
    exact (above_getMinOrMaxIndex heap hsecond (.inr rfl) hinnerLt).trans
      (above_getMinOrMaxIndex heap hfirst hj hlt)
  refine ⟨?_, houterLt, hbest i (.inl rfl) hi, ?_⟩
  · unfold bestIndex
    dsimp only
    omega
  · intro child hpos hlt hparent
    have hchild : child = i * 2 + 1 ∨ child = i * 2 + 1 + 1 := by omega
    rcases hchild with hleft | hright
    · exact hbest child (.inr hleft) hlt
    · exact above_getMinOrMaxIndex heap hsecond (.inl hright) hlt

section

variable (hordered : heap.OrderedExcept fun j => (j - 1) / 2 = i)
include hordered

/-- The exception of the heap order moves from a slot to its best child. -/
lemma OrderedExcept.swap_down {best : Nat}
    (hbridged : heap.Bridged i) (hpos : 0 < best) (hlt : best < heap.size)
    (hparent : (best - 1) / 2 = i) (hself : heap.Above (heap.array best) (heap.array i))
    (hbest : ∀ child, 0 < child → child < heap.size → (child - 1) / 2 = i →
      heap.Above (heap.array best) (heap.array child)) :
    (heap.swapElements i best).OrderedExcept fun j => (j - 1) / 2 = best := by
  intro j hj hjlt hskip
  by_cases hji : j = i
  · rw [hji, array_swapElements_left, array_swapElements_of_ne heap _ _ (by omega) (by omega)]
    exact hbridged best hpos hlt hparent (by omega)
  · by_cases hup : (j - 1) / 2 = i
    · rw [hup, array_swapElements_left]
      by_cases hjb : j = best
      · rw [hjb, array_swapElements_right]
        exact hself
      · rw [array_swapElements_of_ne heap _ _ hji hjb]
        exact hbest j hj hjlt hup
    · rw [array_swapElements_of_ne heap _ _ hup hskip,
        array_swapElements_of_ne heap _ _ hji (by rintro rfl; exact hup hparent)]
      exact hordered j hj hjlt hup

lemma Bridged.swap_down {best : Nat}
    (hpos : 0 < best) (hparent : (best - 1) / 2 = i) : (heap.swapElements i best).Bridged best := by
  intro child hchild hlt hup _
  rw [hparent, array_swapElements_left, array_swapElements_of_ne heap _ _ (by omega) (by omega)]
  exact hup ▸ hordered child hchild hlt (by omega)

end

lemma heapify_spec (heap : HeapAdt α) (fuel i : Nat)
    (hfuel : heap.size ≤ fuel + i) (hi : i < heap.size)
    (hordered : heap.OrderedExcept fun j => (j - 1) / 2 = i) (hbridged : heap.Bridged i) :
    (heap.heapify fuel i).Ordered ∧ heap.Rearranges (heap.heapify fuel i) := by
  induction fuel generalizing heap i with
  | zero => omega
  | succ fuel ih =>
    obtain ⟨hplace, hlt, hself, hbest⟩ := bestIndex_spec heap hi
    rw [heapify]
    split_ifs with hne
    · obtain ⟨hpos, hparent⟩ := hplace.resolve_left (Ne.symm hne)
      obtain ⟨hord, hsame⟩ := ih (heap.swapElements i (heap.bestIndex i))
        (heap.bestIndex i) (by rw [size_swapElements]; omega) hlt
        (hordered.swap_down hbridged hpos hlt hparent hself hbest)
        (Bridged.swap_down hordered hpos hparent)
      exact ⟨hord, hsame.after_swap hi hlt⟩
    · refine ⟨?_, Rearranges.refl heap⟩
      intro j hpos hj _
      by_cases hup : (j - 1) / 2 = i
      · rw [hup]
        nth_rewrite 1 [not_not.mp hne]
        exact hbest j hpos hj hup
      · exact hordered j hpos hj hup

/-! The operations. -/

lemma contents_append (heap : HeapAdt α) (slot : Nat × α) :
    (heap.append slot).contents = heap.contents ++ [slot] := by
  unfold contents append
  rw [range_succ, map_append]
  congr 1
  · exact map_congr_left fun i hi => if_neg (Nat.ne_of_lt (mem_range.mp hi))
  · simp

/-- An insertion into a queue that is not full adds the element. -/
lemma heapAdtInsert_spec (heap : HeapAdt α) (elem : α) (priority : Nat) (hordered : heap.Ordered)
    (hroom : heap.size ≠ heap.capacity) : ∃ heap', heap.heapAdtInsert elem priority = .ok heap' ∧
    heap'.Ordered ∧ heap'.max = heap.max ∧ heap'.capacity = heap.capacity ∧
    heap'.contents.Perm ((priority, elem) :: heap.contents) := by
  have hlast : (heap.append (priority, elem)).OrderedExcept (· = heap.size) := by
    intro j hpos hj hne
    have hlt : j < heap.size := by
      change j < heap.size + 1 at hj
      omega
    have hkeep : ∀ k < heap.size, (heap.append (priority, elem)).array k = heap.array k :=
      fun k hk => if_neg (Nat.ne_of_lt hk)
    rw [hkeep j hlt, hkeep _ (by omega)]
    exact hordered j hpos hlt fun hfalse => hfalse
  have hleaf : (heap.append (priority, elem)).Bridged heap.size := by
    intro child hpos hlt hparent _
    change child < heap.size + 1 at hlt
    omega
  obtain ⟨hord, hsame⟩ := siftUp_spec (heap.append (priority, elem))
    heap.size heap.size (Nat.le_refl _) (Nat.lt_succ_self _) hlast hleaf
  refine ⟨_, if_neg hroom, hord, hsame.max_eq, hsame.capacity_eq, ?_⟩
  refine hsame.perm.trans ?_
  rw [contents_append]
  exact perm_append_singleton _ _

/-- The element that is looked at is the root. -/
lemma heapAdtPeek_spec (hpos : 0 < heap.size) (hordered : heap.Ordered) :
    heap.heapAdtPeek = .ok (heap.array 0) ∧ ∀ slot ∈ heap.contents,
    heap.Above (heap.array 0) slot := by
  refine ⟨if_neg hpos.ne', ?_⟩
  intro slot hslot
  obtain ⟨i, hi, rfl⟩ := mem_map.mp hslot
  exact hordered.root_above (mem_range.mp hi)

lemma contents_dropRoot (hpos : 0 < heap.size) :
    heap.contents.Perm (heap.array 0 :: heap.dropRoot.contents) := by
  unfold contents dropRoot
  obtain ⟨n, hsize⟩ := Nat.exists_eq_succ_of_ne_zero hpos.ne'
  simp only [hsize, Nat.succ_eq_add_one, Nat.add_sub_cancel]
  cases n with
  | zero => simp
  | succ m =>
    rw [range_succ_eq_map (n := m + 1)]
    simp only [map_cons, map_map]
    refine List.Perm.cons _ ?_
    have hlast : (range (m + 1)).map (heap.array ∘ Nat.succ) =
        (range m).map (heap.array ∘ Nat.succ) ++ [heap.array (m + 1)] := by
      rw [range_succ, map_append]
      rfl
    rw [hlast, range_succ_eq_map, map_cons, map_map]
    exact perm_append_singleton _ _

/-- Nothing is out of order once the root is exempt. -/
lemma Ordered.dropRoot (hordered : heap.Ordered) :
    heap.dropRoot.OrderedExcept fun j => (j - 1) / 2 = 0 := by
  intro j hj hlt hskip
  have hlt' : j < heap.size - 1 := hlt
  have hkeep : ∀ k, k ≠ 0 → heap.dropRoot.array k = heap.array k := fun k hk => if_neg hk
  rw [hkeep j (by omega), hkeep _ hskip]
  exact hordered j hj (by omega) fun hfalse => hfalse

lemma heapify_of_size_eq_zero (hsize : heap.size = 0) (fuel : Nat) :
    heap.heapify fuel 0 = heap := by
  cases fuel with
  | zero => rfl
  | succ fuel =>
    rw [heapify]
    simp [bestIndex, getMinOrMaxIndex, hsize]

/-- The element that is taken is the root. -/
lemma heapAdtPop_spec (hpos : 0 < heap.size) (hordered : heap.Ordered) :
    ∃ heap', heap.heapAdtPop = .ok heap' ∧ heap'.Ordered ∧ heap'.max = heap.max ∧
    heap'.capacity = heap.capacity ∧ heap.contents.Perm (heap.array 0 :: heap'.contents) := by
  have hspec : (heap.dropRoot.heapify heap.size 0).Ordered ∧
      heap.dropRoot.Rearranges (heap.dropRoot.heapify heap.size 0) := by
    by_cases hone : heap.dropRoot.size = 0
    · rw [heapify_of_size_eq_zero hone]
      refine ⟨?_, Rearranges.refl _⟩
      intro j _ hj
      omega
    · refine heapify_spec heap.dropRoot heap.size 0 ?_ (by omega)
        hordered.dropRoot fun _ _ _ _ hzero => absurd hzero (by omega)
      change heap.size - 1 ≤ heap.size + 0
      omega
  obtain ⟨hord, hsame⟩ := hspec
  exact ⟨_, if_neg hpos.ne', hord, hsame.max_eq, hsame.capacity_eq,
    (contents_dropRoot hpos).trans (hsame.perm.symm.cons _)⟩

end HeapAdt

end Merlon.Adt
