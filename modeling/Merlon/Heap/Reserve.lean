/-
Reserve blocks and the regions cut from them.  The areas the kernel hands to
the heap are disjoint, every reserve block and every region lies in an area,
and no byte is in two of them, so a new region is apart from all cells.
-/
import Merlon.Heap.Kernel

namespace Merlon.Heap

open ByteMemory List

def ReserveBlock.range (block : ReserveBlock) : Nat × Nat :=
  (block.address, block.size)

/-- A range of whole pages the heap may own. -/
structure Pages (range : Nat × Nat) : Prop where
  aligned : range.1 % archPageSize = 0
  positive : 0 < range.1
  sizeAligned : range.2 % archPageSize = 0
  sizeMax : range.2 ≤ bootstrapSize
  top : range.1 + range.2 ≤ 2 ^ 32

/-- The range lies in one of the areas. -/
def InArea (areas : List Nat) (range : Nat × Nat) : Prop :=
  ∃ area ∈ areas, area ≤ range.1 ∧ range.1 + range.2 ≤ area + bootstrapSize

structure Reserves (areas : List Nat) (s : State) : Prop where
  pages : ∀ i < maxReserveBlocks, (s.reserveBlocks i).valid = true → Pages (s.reserveBlocks i).range
  inArea : ∀ i < maxReserveBlocks, (s.reserveBlocks i).valid = true →
    InArea areas (s.reserveBlocks i).range
  apart : ∀ i < maxReserveBlocks, ∀ j < maxReserveBlocks, i ≠ j →
    (s.reserveBlocks i).valid = true → (s.reserveBlocks j).valid = true →
    RangeApart (s.reserveBlocks i).range (s.reserveBlocks j).range
  fresh : ∀ i < maxReserveBlocks, (s.reserveBlocks i).valid = true →
    ∀ region ∈ s.regions, RangeApart region (s.reserveBlocks i).range
  regionsLarge : ∀ region ∈ s.regions, archPageSize ≤ region.2
  regionsIn : ∀ region ∈ s.regions, InArea areas region
  regionsApart : s.regions.Pairwise RangeApart

variable {areas : List Nat} {s : State} {size address : Nat} {cells : List Cell}
  {block : ReserveBlock} {range : Nat × Nat}

lemma Reserves.congr {s' : State} (hreserves : Reserves areas s)
    (hregions : s'.regions = s.regions)
    (hblocks : s'.reserveBlocks = s.reserveBlocks) : Reserves areas s' := by
  refine ⟨?_, ?_, ?_, ?_, ?_, ?_, ?_⟩ <;> simp only [hregions, hblocks]
  · exact hreserves.pages
  · exact hreserves.inArea
  · exact hreserves.apart
  · exact hreserves.fresh
  · exact hreserves.regionsLarge
  · exact hreserves.regionsIn
  · exact hreserves.regionsApart

/-- A candidate of the scan for the best fit. -/
def Candidate (blocks : Nat → ReserveBlock) (size : Nat) (smallest : Option Nat) : Prop :=
  ∀ i, smallest = some i → i < maxReserveBlocks ∧ (blocks i).valid = true ∧ size ≤ (blocks i).size

lemma smallestReserve_candidate (blocks : Nat → ReserveBlock) (size : Nat) :
    Candidate blocks size (smallestReserve blocks size) := by
  refine foldlRecOn (motive := Candidate blocks size) _ _ (by
    intro i hnone
    cases hnone) ?_
  intro smallest hsmallest k hk j hj
  have hbound := mem_range.mp hk
  split at hj
  · rename_i hfits
    split at hj
    · cases hj
      exact ⟨hbound, hfits⟩
    · split at hj
      · cases hj
        exact ⟨hbound, hfits⟩
      · exact hsmallest j hj
  · exact hsmallest j hj

/-- Some valid reserve block has `size` bytes. -/
def ReserveHolds (s : State) (size : Nat) : Prop :=
  ∃ i < maxReserveBlocks, (s.reserveBlocks i).valid = true ∧ size ≤ (s.reserveBlocks i).size

instance (s : State) (size : Nat) : Decidable (ReserveHolds s size) :=
  inferInstanceAs (Decidable (∃ i < maxReserveBlocks, _))

/-- A scan that never drops a candidate and takes some at each fitting index
ends without one when no index fits. -/
lemma foldl_eq_none_iff {P : Nat → Prop} {scan : Option Nat → Nat → Option Nat}
    (hfits : ∀ found i, P i → scan found i ≠ none)
    (hother : ∀ found i, ¬ P i → scan found i = found) (indices : List Nat) (start : Option Nat) :
    indices.foldl scan start = none ↔ start = none ∧ ∀ i ∈ indices, ¬ P i := by
  induction indices generalizing start with
  | nil => simp
  | cons i rest ih =>
    rw [foldl_cons, ih]
    by_cases hfit : P i
    · simp [hfit, hfits start i hfit]
    · simp [hfit, hother start i hfit]

lemma smallestReserve_none_iff (s : State) (size : Nat) :
    smallestReserve s.reserveBlocks size = none ↔ ¬ ReserveHolds s size := by
  unfold smallestReserve
  rw [foldl_eq_none_iff (P := fun i => (s.reserveBlocks i).valid = true ∧
    size ≤ (s.reserveBlocks i).size)]
  · simp only [ReserveHolds, mem_range, true_and, not_exists, not_and]
  · intro found i hfits
    rw [if_pos hfits]
    split
    · simp
    · split <;> simp
  · intro found i hother
    rw [if_neg hother]

/-- The result of cutting `size` bytes off a reserve block. -/
structure Cut (areas : List Nat) (s : State) (size base : Nat) (s' : State) : Prop where
  reserves : Reserves areas s'
  pages : Pages (base, size)
  regions : s'.regions = s.regions ++ [(base, size)]
  apart : ∀ region ∈ s.regions, RangeApart region (base, size)
  memory : s'.memory = s.memory
  headBlock : s'.headBlock = s.headBlock

/-- A reserve block after `size` bytes were cut off its front. -/
def ReserveBlock.cut (block : ReserveBlock) (size : Nat) : ReserveBlock :=
  { address := block.address + size
    size := block.size - size
    valid := if block.size - size < archPageSize then false else block.valid }

lemma ReserveBlock.cut_valid (hvalid : (block.cut size).valid = true) :
    archPageSize ≤ block.size - size ∧ block.valid = true := by
  simp only [ReserveBlock.cut] at hvalid
  split at hvalid
  · cases hvalid
  · exact ⟨by omega, hvalid⟩

lemma Pages.cut (hpages : Pages block.range) (hsize : size % archPageSize = 0)
    (hvalid : (block.cut size).valid = true) : Pages (block.cut size).range ∧
    Inside (block.cut size).range block.range ∧
    RangeApart (block.address, size) (block.cut size).range := by
  obtain ⟨haligned, hpos, hsizeAligned, hmax, htop⟩ := hpages
  obtain ⟨hleft, _⟩ := ReserveBlock.cut_valid hvalid
  simp only [ReserveBlock.range, ReserveBlock.cut, archPageSize, Inside, RangeApart] at *
  refine ⟨⟨?_, ?_, ?_, ?_, ?_⟩, by omega, by omega⟩ <;> simp only [archPageSize] <;> omega

lemma InArea.inside {inner outer : Nat × Nat} (harea : InArea areas outer)
    (hinside : Inside inner outer) : InArea areas inner := by
  obtain ⟨area, hmem, hlow, hhigh⟩ := harea
  exact ⟨area, hmem, hlow.trans hinside.1, hinside.2.trans hhigh⟩

/-- Cutting a region off a fitting reserve block. -/
lemma Reserves.cut {i : Nat} (hreserves : Reserves areas s) (haligned : size % archPageSize = 0)
    (hpositive : 0 < size) (hi : i < maxReserveBlocks) (hvalid : (s.reserveBlocks i).valid = true)
    (hfits : size ≤ (s.reserveBlocks i).size) :
    Cut areas s size (s.reserveBlocks i).address { s with
      reserveBlocks := setEntry s.reserveBlocks i ((s.reserveBlocks i).cut size)
      regions := s.regions ++ [((s.reserveBlocks i).address, size)] } := by
  have hpages := hreserves.pages i hi hvalid
  have hfront : Inside ((s.reserveBlocks i).address, size) (s.reserveBlocks i).range := by
    simp only [Inside, ReserveBlock.range]
    omega
  -- every entry lies in its old range and apart from the new region
  have hentry : ∀ j < maxReserveBlocks,
      (setEntry s.reserveBlocks i ((s.reserveBlocks i).cut size) j).valid = true →
      (s.reserveBlocks j).valid = true ∧
      Pages (setEntry s.reserveBlocks i ((s.reserveBlocks i).cut size) j).range ∧
      Inside (setEntry s.reserveBlocks i ((s.reserveBlocks i).cut size)
        j).range (s.reserveBlocks j).range ∧
      RangeApart ((s.reserveBlocks i).address, size)
        (setEntry s.reserveBlocks i ((s.reserveBlocks i).cut size) j).range := by
    intro j hj hjValid
    by_cases heq : j = i
    · subst heq
      simp only [setEntry] at hjValid ⊢
      obtain ⟨hcut, hinside, hapart⟩ := hpages.cut haligned hjValid
      exact ⟨hvalid, hcut, hinside, hapart⟩
    · simp only [setEntry, heq] at hjValid ⊢
      exact ⟨hjValid, hreserves.pages j hj hjValid, ⟨Nat.le_refl _, Nat.le_refl _⟩,
        ((hreserves.apart j hj i hi heq hjValid hvalid).inside hfront).symm⟩
  have hregion : ∀ region ∈ s.regions, RangeApart region ((s.reserveBlocks i).address, size) :=
    fun region hmem => (hreserves.fresh i hi hvalid region hmem).inside hfront
  refine ⟨⟨?_, ?_, ?_, ?_, ?_, ?_, ?_⟩, ?_, rfl, hregion, rfl, rfl⟩
  · exact fun j hj hjValid => (hentry j hj hjValid).2.1
  · intro j hj hjValid
    obtain ⟨hold, _, hinside, _⟩ := hentry j hj hjValid
    exact (hreserves.inArea j hj hold).inside hinside
  · intro j hj k hk hne hjValid hkValid
    obtain ⟨hjOld, _, hjInside, _⟩ := hentry j hj hjValid
    obtain ⟨hkOld, _, hkInside, _⟩ := hentry k hk hkValid
    exact (((hreserves.apart j hj k hk hne hjOld hkOld).inside hkInside).symm.inside hjInside).symm
  · intro j hj hjValid region hmem
    obtain ⟨hold, _, hinside, hapart⟩ := hentry j hj hjValid
    rcases mem_append.mp hmem with hmem | hmem
    · exact (hreserves.fresh j hj hold region hmem).inside hinside
    · rw [mem_singleton.mp hmem]
      exact hapart
  · intro region hmem
    rcases mem_append.mp hmem with hmem | hmem
    · exact hreserves.regionsLarge region hmem
    · rw [mem_singleton.mp hmem]
      simp only [archPageSize] at haligned ⊢
      omega
  · intro region hmem
    rcases mem_append.mp hmem with hmem | hmem
    · exact hreserves.regionsIn region hmem
    · rw [mem_singleton.mp hmem]
      exact (hreserves.inArea i hi hvalid).inside hfront
  · refine pairwise_append.mpr ⟨hreserves.regionsApart, pairwise_singleton _ _, ?_⟩
    intro region hmem last hlast
    rw [mem_singleton.mp hlast]
    exact hregion region hmem
  · exact ⟨hpages.aligned, hpages.positive, haligned,
      hfits.trans hpages.sizeMax, hfront.2.trans hpages.top⟩

lemma allocateFromReserveBlocks_spec (hreserves : Reserves areas s)
    (haligned : size % archPageSize = 0) (hpositive : 0 < size) :
    Ends (allocateFromReserveBlocks s size)
      (fun stop => stop = .panicCannotMallocWithoutFaulting ∧ ¬ ReserveHolds s size)
      (fun result => Cut areas s size result.1 result.2) := by
  rw [allocateFromReserveBlocks]
  split
  · rename_i hnone
    exact ⟨rfl, (smallestReserve_none_iff s size).mp hnone⟩
  · rename_i i hsmallest
    obtain ⟨hi, hvalid, hfits⟩ := smallestReserve_candidate _ _ i hsmallest
    exact hreserves.cut haligned hpositive hi hvalid hfits

/-! Adding an area. -/

/-- A fresh area: page aligned, in the address space and apart from every area
the heap was given before. -/
structure FreshArea (areas : List Nat) (address : Nat) : Prop where
  pages : Pages (address, bootstrapSize)
  apart : ∀ area ∈ areas, RangeApart (area, bootstrapSize) (address, bootstrapSize)

lemma InArea.apart (harea : InArea areas range) (hfresh : FreshArea areas address) :
    RangeApart range (address, bootstrapSize) := by
  obtain ⟨area, hmem, hlow, hhigh⟩ := harea
  exact ((hfresh.apart area hmem).symm.inside ⟨hlow, hhigh⟩).symm

lemma InArea.weaken (harea : InArea areas range)
    (address : Nat) : InArea (address :: areas) range := by
  obtain ⟨area, hmem, hin⟩ := harea
  exact ⟨area, mem_cons_of_mem address hmem, hin⟩

lemma Reserves.weaken (hreserves : Reserves areas s) (address : Nat) :
    Reserves (address :: areas) s where
  __ := hreserves
  inArea i hi hvalid := (hreserves.inArea i hi hvalid).weaken address
  regionsIn region hmem := (hreserves.regionsIn region hmem).weaken address

lemma addBlockToBackupHeap_reserves (hreserves : Reserves areas s)
    (hfresh : FreshArea areas address) :
    Reserves (address :: areas) (addBlockToBackupHeap s address bootstrapSize) := by
  rw [addBlockToBackupHeap]
  split
  · exact hreserves.weaken address
  · rename_i i hfound
    have hnew : InArea (address :: areas) (address, bootstrapSize) :=
      ⟨address, mem_cons_self, Nat.le_refl _, Nat.le_refl _⟩
    have hentry : ∀ j, j ≠ i → setEntry s.reserveBlocks i
        { address := address, size := bootstrapSize, valid := true } j =
          s.reserveBlocks j := fun j hne => by simp [setEntry, hne]
    have hself : setEntry s.reserveBlocks i
        { address := address, size := bootstrapSize, valid := true } i =
          { address := address, size := bootstrapSize, valid := true } := by
      simp [setEntry]
    refine ⟨?_, ?_, ?_, ?_, hreserves.regionsLarge, ?_, hreserves.regionsApart⟩
    · intro j hj hvalid
      by_cases heq : j = i
      · subst heq
        simp only [hself]
        exact hfresh.pages
      · simp only [hentry j heq] at hvalid ⊢
        exact hreserves.pages j hj hvalid
    · intro j hj hvalid
      by_cases heq : j = i
      · subst heq
        simp only [hself]
        exact hnew
      · simp only [hentry j heq] at hvalid ⊢
        exact (hreserves.inArea j hj hvalid).weaken address
    · intro j hj k hk hne hjValid hkValid
      by_cases hji : j = i
      · subst hji
        simp only [hself, hentry k (Ne.symm hne)] at hkValid ⊢
        exact ((hreserves.inArea k hk hkValid).apart hfresh).symm
      · by_cases hki : k = i
        · subst hki
          simp only [hself, hentry j hji] at hjValid ⊢
          exact (hreserves.inArea j hj hjValid).apart hfresh
        · simp only [hentry j hji, hentry k hki] at hjValid hkValid ⊢
          exact hreserves.apart j hj k hk hne hjValid hkValid
    · intro j hj hvalid region hmem
      by_cases heq : j = i
      · subst heq
        simp only [hself]
        exact (hreserves.regionsIn region hmem).apart hfresh
      · simp only [hentry j heq] at hvalid ⊢
        exact hreserves.fresh j hj hvalid region hmem
    · exact fun region hmem => (hreserves.regionsIn region hmem).weaken address

/-- The bytes of the new area are in no cell. -/
lemma Arranged.apart_area (harranged : Arranged s.regions cells)
    (hreserves : Reserves areas s) (hfresh : FreshArea areas address) {c : Cell} (hc : c ∈ cells) :
    c.stop ≤ address ∨ address + bootstrapSize ≤ c.address := by
  obtain ⟨base, size, hregion, hlow, hhigh, _⟩ := harranged.tiled.in_region hc
  have hapart := (hreserves.regionsIn _ hregion).apart hfresh
  simp only [RangeApart] at hapart
  omega

lemma addBlockToBackupHeap_memory (harranged : Arranged s.regions cells)
    (hreserves : Reserves areas s) (hfresh : FreshArea areas address) :
    ∀ c ∈ cells, ∀ at_, c.address ≤ at_ → at_ < c.stop →
    (addBlockToBackupHeap s address bootstrapSize).memory at_ = s.memory at_ := by
  intro c hc at_ hlow hhigh
  rw [addBlockToBackupHeap]
  split
  · rfl
  · have hapart := harranged.apart_area hreserves hfresh hc
    exact fill_apply_of_outside _ (by omega)

lemma addBlockToBackupHeap_valid (hvalid : Valid s cells)
    (hreserves : Reserves areas s) (hfresh : FreshArea areas address) :
    Valid (addBlockToBackupHeap s address bootstrapSize) cells := by
  rw [valid_iff] at hvalid ⊢
  apply hvalid.frame
  · rw [addBlockToBackupHeap]
    split <;> rfl
  · rw [addBlockToBackupHeap]
    split <;> rfl
  · exact addBlockToBackupHeap_memory ((arranged_iff _ _).mpr hvalid.arranged) hreserves hfresh

end Merlon.Heap
