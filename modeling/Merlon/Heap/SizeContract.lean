/-
The size contract of `AllocHeap`: a block that is returned holds what was asked
for, the tables are not left, and a request that could be met is met.  The
contract fails for sizes whose class has none above it, for sizes that wrap
when they are rounded up, and where the enlarged request does not fit a reserve
block that could hold the request itself.
-/
import Merlon.Heap.Runs

namespace Merlon.Heap

open ByteMemory List Classes

namespace Classes

variable {C : Classes}

section ZeroRequest

variable {s : State} {before after : List Cell} {c : Cell} {index total : Nat}

/-- Eight bytes off the end of a block have the shape of a fence. -/
def stub (c : Cell) (total : Nat) : Cell :=
  ⟨c.address + (c.size - total), total, .fence⟩

lemma Fits.stub (hfits : C.Fits c) (htotal : total = 8) (hleft : 24 ≤ c.size) :
    C.Fits (c.lower total) ∧ C.Fits (stub c total) := by
  obtain ⟨hpos, haligned, hsize, _, _, hmax, htop⟩ := hfits
  simp only [Cell.stop] at htop
  constructor
  · refine ⟨hpos, haligned, ?_, ?_, fun _ => ?_, ?_, ?_⟩ <;>
      simp only [Cell.lower, Cell.stop] <;> omega
  · refine ⟨?_, ?_, ?_, ?_, fun hne => absurd rfl hne, ?_, ?_⟩ <;>
      simp only [Classes.stub, Cell.stop] <;> omega

/-- When eight bytes are split off a free block both neighbours of the rest are
held, so `AddBlock` pushes it. -/
lemma Loose.split_stub (hloose : C.Loose s before [c] after)
    (hfree : c.kind = .free) (htotal : total = 8) (hleft : 24 ≤ c.size) :
    ∃ result, C.addBlock addBlockDepth (s.setMemory
      (splitMemory s.memory c.address (c.size - total) total)) c.address = .ok result := by
  have hfits := hloose.arranged.fits c (by simp)
  have halign := hfits.sizeAligned
  obtain ⟨hlower, hstub⟩ := hfits.stub htotal hleft
  have htiled := hloose.arranged.tiled
  rw [append_assoc] at htiled
  obtain ⟨front, left, right, rear, rfl, rfl, htouch, _⟩ := htiled.neighbours (by simp [hfree])
  have hheld : left.kind ≠ .free := by
    have hchain := isChain_append.mp hloose.arranged.calm.left_of_append
    exact (hchain.2.2 left (by simp) c (by simp)).resolve_right (fun hne => hne hfree)
  have hlfits := hloose.arranged.fits left (by simp)
  have htagged : Tagged (splitMemory s.memory c.address (c.size - total) total) left := by
    refine (hloose.tags left (by simp)).of_agree hlfits.sizeMin ?_
    intro at_ _ hhigh
    exact (splitMemory_outside (by omega) (by omega) (by omega) (by omega) (by omega)).symm
  have hsized := splitMemory_lower s.memory hlower hstub rfl
  have hnext := splitMemory_upper s.memory hlower hstub rfl (by simp [stub])
  obtain ⟨i, hindex⟩ := hlower.index (by simp [Cell.lower])
  have hsee : C.Surroundings (s.setMemory (splitMemory s.memory c.address (c.size - total) total))
      left (c.lower total) (stub c total) i := by
    refine ⟨hsized.getSize, ?_, ?_, ?_, htagged.isAllocated, hnext.isAllocated⟩
    · rwa [hlower.subSize]
    · rw [← htagged.load_last hlfits.sizeAligned, htouch]
      rfl
    · simp only [Cell.lower, stub]
      omega
  have hadd := addBlock_held 3 hsee hheld (by simp [stub])
  exact ⟨_, hadd⟩

/-- A request for no bytes takes a block of eight or sixteen bytes. -/
lemma Valid.allocate_zero (hvalid : C.Valid s (before ++ [c] ++ after)) (hfree : c.kind = .free)
    (hindex : C.index (c.size - metadataTotal) = .ok index) :
    ∃ result, C.allocateBlock s c.address index 0 = .ok result ∧ result.1 % 8 = 0 := by
  have hfits := hvalid.arranged.fits c (by simp)
  have hpos := Nat.pos_iff_ne_zero.mp hfits.positive
  have haligned := hfits.aligned
  have halign := hfits.sizeAligned
  have hmin := hfits.sizeMin
  have hsize := (hvalid.tags c (by simp)).1.getSize
  obtain ⟨s', hremove, hloose, _⟩ := hvalid.take_free hfree hindex
  have hroom : 0 + metadataTotal ≤ c.size := by
    simp only [metadataTotal]
    omega
  by_cases htight : c.size - (0 + metadataTotal) < minReqSize + metadataTotal
  · exact ⟨_, allocateBlock_whole hpos hsize hroom htight hremove, haligned⟩
  · have hleft : 24 ≤ c.size := by
      simp only [metadataTotal, minReqSize] at htight
      omega
    obtain ⟨⟨address, s''⟩, hadd⟩ := hloose.split_stub hfree (Nat.zero_add metadataTotal) hleft
    refine ⟨_, allocateBlock_split hpos hsize hroom htight ?_ hremove hadd, ?_⟩
    · simp only [metadataTotal]
      omega
    · simp only [metadataTotal]
      omega

lemma Chosen.allocate_zero {cells : List Cell} {low i : Nat} (hchosen : C.Chosen s cells c low i) :
    ∃ result, C.allocateBlock s c.address i 0 = .ok result ∧ result.1 % 8 = 0 := by
  obtain ⟨hvalid, hc, hfree, hindex, _⟩ := hchosen
  obtain ⟨before, after, rfl⟩ := append_of_mem hc
  rw [← singleton_append, ← append_assoc] at hvalid
  exact hvalid.allocate_zero hfree hindex

end ZeroRequest

end Classes

/-! The contract. -/

/-- The list index of a request. -/
def requestIndex (size : Nat) : Except Stop Nat := do
  getSmallestListIndexThatFits (← roundUpSize size)

/-- Some free block that can hold the request is on a list at or above the
request's. -/
def FreeBlockAbove (cells : List Cell) (size : Nat) : Prop :=
  ∃ c ∈ cells, c.kind = .free ∧ size + metadataTotal ≤ c.size ∧ ∃ low i, requestIndex
    size = .ok low ∧ getInsertionIndex (c.size - metadataTotal) = .ok i ∧ low ≤ i

structure SizeContract (s : State) (cells : List Cell) (size : Nat) : Prop where
  usable : ∀ ptr s', allocHeap s size = .ok (ptr, s') →
    ∃ total, getSize s'.memory (ptr - metadataLeading) = .ok total ∧ size + metadataTotal ≤ total
  table : allocHeap s size ≠ .error .outOfBounds
  lists : ∀ n i, getSmallestListIndexThatFits n = .ok i ∨
    getInsertionIndex n = .ok i → i < totalNumFreeLists
  served : FreeBlockAbove cells size ∨ ReserveHolds s (size + metadataTotal + 2 * minReqSize) →
    ∃ result, allocHeap s size = .ok result

/-- No list at or above the request's holds a block. -/
def emptyAbove (s : State) (size : Nat) : Bool :=
  match requestIndex size with
  | .ok low => kernelClasses.emptyFrom s low
  | .error _ => true

/-- The region a request is enlarged to. -/
def enlargedRegion (size : Nat) : Nat :=
  match requestIndex size with
  | .ok low => regionSize ((freeListBlockSizes[low + 1]?).getD 0 + metadataTotal)
  | .error _ => 0

/-- Sizes up to the last but one class, unless only the enlarged request does
not fit a reserve block.  A size that wraps keeps the contract only by running
out of memory. -/
def Servable (s : State) (size : Nat) : Prop :=
  (size ≤ 131072 ∧ (emptyAbove s size = true →
    ReserveHolds s (size + metadataTotal + 2 * minReqSize) →
    ReserveHolds s (enlargedRegion size))) ∨
  (0xFFFFFFF8 < size ∧ emptyAbove s size = true ∧ ¬ ReserveHolds s (enlargedRegion size))

lemma listIndex_lt {n i : Nat} (hindex : getSmallestListIndexThatFits n =
    .ok i ∨ getInsertionIndex n = .ok i) : i < totalNumFreeLists := by
  rw [← kernelClasses_count]
  rcases hindex with hindex | hindex
  · rw [getSmallestListIndexThatFits_eq] at hindex
    obtain ⟨limit, hlimit, _⟩ := smallestIndex_limit hindex
    exact (List.getElem?_eq_some_iff.mp hlimit).1
  · exact index_lt hindex

lemma getSize_lt {memory : ByteMemory} {block total : Nat}
    (hsize : getSize memory block = .ok total) : total < 2 ^ 32 := by
  have hlt := load_lt memory block
  simp only [getSize] at hsize
  split at hsize
  · cases hsize
    omega
  · cases hsize

lemma allocHeap_error {s : State} {size rounded : Nat} {stop : Stop}
    (hpositive : size ≠ 0) (hround : roundUpSize size = .ok rounded)
    (hfind : findBlock s rounded = .error stop) : allocHeap s size = .error stop := by
  simp only [allocHeap, allocHeapEx, if_neg hpositive, hround, ok_bind, hfind, error_bind]

/-- Without a block on the lists and without a reserve block the call
panics. -/
lemma findBlock_refused {s : State} {request low limit : Nat}
    (hlow : getSmallestListIndexThatFits request = .ok low)
    (hlimit : freeListBlockSizes[low + 1]? = some limit)
    (hempty : kernelClasses.emptyFrom s low = true)
    (hnone : ¬ ReserveHolds s (regionSize (limit + metadataTotal))) :
    findBlock s request = .error .panicCannotMallocWithoutFaulting := by
  have hfind : (range' low (totalNumFreeLists - low)).find?
      (fun i => s.headBlock i != 0) = none := by
    rw [find?_eq_none]
    intro i hi
    rw [emptyFrom, all_eq_true] at hempty
    simpa using hempty i hi
  simp only [findBlock, hlow, ok_bind, hfind, hlimit, requestBlock_refused hnone, error_bind]

section Sizes

variable {areas : List Nat} {s : State} {cells : List Cell} {size : Nat}

/-- The class of a request up to 128 KiB has one above it. -/
lemma requestIndex_of_le (hpositive : size ≠ 0) (hsize : size ≤ 131072) :
    ∃ rounded low limit, roundUpSize size = .ok rounded ∧ rounded % 8 = 0 ∧ 8 ≤ rounded ∧
    size ≤ rounded ∧ getSmallestListIndexThatFits rounded = .ok low ∧ requestIndex size = .ok low ∧
    freeListBlockSizes[low + 1]? = some limit := by
  obtain ⟨rounded, hround, halign, hmin, hle⟩ := roundUpSize_spec hpositive (by omega)
  have hbound := roundUpSize_le hround (by decide) (by decide) hsize
  have hlarge : kernelClasses.sizes[33]? = some 131072 := by decide
  obtain ⟨low, hlow, hindex⟩ := smallestIndex_exists hlarge hbound
  rw [← getSmallestListIndexThatFits_eq] at hindex
  have hlength : low + 1 < freeListBlockSizes.length := by
    have hcount : freeListBlockSizes.length = 35 := rfl
    omega
  exact ⟨rounded, low, _, hround, halign, hmin, hle, hindex,
    by rw [requestIndex, hround, ok_bind, hindex], List.getElem?_eq_getElem hlength⟩

/-- Up to 128 KiB: the call returns enough room, or it panics because neither
the lists nor the reserve blocks can serve the enlarged request. -/
lemma allocHeap_ends (hreserves : Reserves areas s)
    (hvalid : kernelClasses.Valid s cells) (hpositive : size ≠ 0) (hsize : size ≤ 131072) :
    Ends (allocHeap s size)
      (fun stop => stop = .panicCannotMallocWithoutFaulting ∧
        emptyAbove s size = true ∧ ¬ ReserveHolds s (enlargedRegion size))
      (fun result => ∃ total,
        getSize result.2.memory (result.1 - metadataLeading) = .ok total ∧
          size + metadataTotal ≤ total) := by
  obtain ⟨rounded, low, limit, hround, halign, hmin, hle, hlow, hindex,
    hlimit⟩ := requestIndex_of_le hpositive hsize
  have hfind := findBlock_ends hreserves hvalid halign hmin hlow hlimit
  refine ((allocHeapEx_ends hpositive hround hle hfind).mono ?_).imp ?_
  · rintro stop ⟨hstop, hempty, hnone⟩
    refine ⟨hstop, by rw [emptyAbove, hindex]; exact hempty, ?_⟩
    simpa [enlargedRegion, hindex, hlimit] using hnone
  · rintro ⟨_, s'⟩ ⟨d, cells', rfl, hgranted, _⟩
    have hd : d ∈ cells' := (hgranted.held d hgranted.used).mpr (.inr rfl)
    refine ⟨d.size, ?_, hgranted.room⟩
    exact (hgranted.valid.tags d hd).1.getSize

lemma allocHeap_refused (hpositive : size ≠ 0) (hsize : size ≤ 131072)
    (hempty : emptyAbove s size = true) (hnone : ¬ ReserveHolds s (enlargedRegion size)) :
    allocHeap s size = .error .panicCannotMallocWithoutFaulting := by
  obtain ⟨rounded, low, limit, hround, _, _, _, hlow, hindex, hlimit⟩ :=
    requestIndex_of_le hpositive hsize
  rw [emptyAbove, hindex] at hempty
  simp only [enlargedRegion, hindex, hlimit] at hnone
  exact allocHeap_error hpositive hround (findBlock_refused hlow hlimit hempty hnone)

/-- Between 128 KiB and the sizes that wrap a table is read past its end. -/
lemma allocHeap_beyond (hvalid : kernelClasses.Valid s cells) (hsize : 131072 < size)
    (hbound : size ≤ 0xFFFFFFF8) : allocHeap s size = .error .outOfBounds := by
  obtain ⟨rounded, hround, _, _, hle⟩ := roundUpSize_spec (Nat.ne_zero_of_lt hsize) hbound
  refine allocHeap_error (Nat.ne_zero_of_lt hsize) hround ?_
  rw [findBlock]
  cases hlow : getSmallestListIndexThatFits rounded with
  | error stop =>
    rw [getSmallestListIndexThatFits] at hlow
    split at hlow
    · cases hlow
    · exact congrArg Except.error (Except.error.inj hlow).symm
  | ok low =>
    obtain ⟨limit, hlimit, hfits⟩ := smallestIndex_limit
      (getSmallestListIndexThatFits_eq rounded ▸ hlow)
    have hlast : low = 34 := by
      have hlt := listIndex_lt (.inl hlow)
      have hlarge : kernelClasses.sizes[33]? = some 131072 := by decide
      have hmono := (limit_mono hlimit hlarge)
      simp only [totalNumFreeLists] at hlt
      by_contra hne
      omega
    subst hlast
    -- no insertion index is 34, so the last list is empty
    have hempty : s.headBlock 34 = 0 := by
      by_contra hhead
      obtain ⟨c, _, _, _, hindex⟩ := hvalid.head_cell (by decide) hhead
      rcases index_cases hindex with ⟨_, hzero⟩ | ⟨_, _, _, habove, _⟩
      · cases hzero
      · cases habove
    have hfind : (range' 34 (totalNumFreeLists - 34)).find?
        (fun i => s.headBlock i != 0) = none := by
      simp [totalNumFreeLists, hempty]
    have hend : freeListBlockSizes[34 + 1]? = none := by decide
    simp only [ok_bind, hfind, hend]

lemma requestIndex_wrapped (hsize : 0xFFFFFFF8 < size) (hword : size < 2 ^ 32) :
    roundUpSize size = .ok 0 ∧ requestIndex size = .ok 0 := by
  have hround : roundUpSize size = .ok 0 := by
    have hlarge : ¬ size < minReqSize := by
      simp only [minReqSize]
      omega
    rw [roundUpSize, if_neg (by omega)]
    simp only [hlarge, ↓reduceIte, alignment, Except.ok.injEq]
    omega
  exact ⟨hround, by rw [requestIndex, hround]; rfl⟩

section

variable (hreserves : Reserves areas s)
include hreserves

section

variable (hvalid : kernelClasses.Valid s cells)
include hvalid

/-- With any free block or a reserve block of one page a request for nothing is
served. -/
lemma findBlock_zero :
    (∃ result, findBlock s 0 = .ok result ∧ result.1 % 8 = 0) ∨
      (findBlock s 0 = .error .panicCannotMallocWithoutFaulting ∧
        kernelClasses.emptyFrom s 0 = true ∧
        ¬ ReserveHolds s (regionSize (16 + metadataTotal))) := by
  have hlow : kernelClasses.smallestIndex 0 = .ok 0 := rfl
  have hlimit : kernelClasses.sizes[0 + 1]? = some 16 := rfl
  rw [findBlock_eq]
  refine findBlock_rule (R := Reserves areas)
    (Q := fun outcome => (∃ result, outcome = .ok result ∧
      result.1 % 8 = 0) ∨ (outcome = .error .panicCannotMallocWithoutFaulting ∧
        kernelClasses.emptyFrom s 0 = true ∧
        ¬ ReserveHolds s (regionSize (16 + metadataTotal)))) hvalid hlow ?_ ?_ ?_ ?_
  · intro c i hchosen
    exact .inl hchosen.allocate_zero
  · intro _ hnone
    cases hnone
  · intro hempty limit hother
    obtain rfl : 16 = limit := Option.some.inj (hlimit.symm.trans hother)
    exact (requestBlock_spec hreserves hvalid).mono fun _ ⟨hstop, hnone⟩ =>
      .inr ⟨congrArg Except.error hstop, hempty, hnone⟩
  · intro base totalSize s' i _ _ hchosen
    exact .inl hchosen.allocate_zero

/-- A size that wraps is rounded up to nothing: the call returns, or it panics
for lack of memory. -/
lemma allocHeap_wrapped (hsize : 0xFFFFFFF8 < size) (hword : size < 2 ^ 32) :
    (∃ result, allocHeap s size = .ok result ∧ ¬ (emptyAbove s size = true ∧
        ¬ ReserveHolds s (enlargedRegion size))) ∨
      (allocHeap s size = .error .panicCannotMallocWithoutFaulting ∧
        emptyAbove s size = true ∧ ¬ ReserveHolds s (enlargedRegion size)) := by
  obtain ⟨hround, hindex⟩ := requestIndex_wrapped hsize hword
  have hpositive : size ≠ 0 := by omega
  have hlimit : freeListBlockSizes[0 + 1]? = some 16 := rfl
  simp only [emptyAbove, enlargedRegion, hindex]
  rcases findBlock_zero hreserves hvalid with ⟨result, hfind, halign⟩ | hfind
  · refine .inl ⟨_, by
      simp only [allocHeap, allocHeapEx, if_neg hpositive, hround, ok_bind,
        hfind, alignment, halign]; rfl, ?_⟩
    rintro ⟨hempty, hnone⟩
    have hlow : getSmallestListIndexThatFits 0 = .ok 0 := rfl
    have hrefused := findBlock_refused hlow hlimit hempty hnone
    rw [hfind] at hrefused
    cases hrefused
  · exact .inr ⟨allocHeap_error hpositive hround hfind.1, hfind.2⟩

/-- No reserve block and no cell of the heap is as large as a size that
wraps. -/
lemma not_served_of_wrapped (hsize : 0xFFFFFFF8 < size) :
    ¬ (FreeBlockAbove cells size ∨ ReserveHolds s (size + metadataTotal + 2 * minReqSize)) := by
  rintro (⟨c, hc, _, hroom, _⟩ | ⟨i, hi, hblock, hroom⟩)
  · have hmax : c.size ≤ 1024 * 16 := (hvalid.arranged.fits c hc).sizeMax
    omega
  · have hmax : (s.reserveBlocks i).size ≤ 1024 * 16 := (hreserves.pages i hi hblock).sizeMax
    omega

end

end

/-- Empty lists hold no free block. -/
lemma not_freeBlockAbove (hvalid : kernelClasses.Valid s cells)
    (hempty : emptyAbove s size = true) : ¬ FreeBlockAbove cells size := by
  rintro ⟨c, hc, hfree, _, low, i, hlow, hindex, hle⟩
  rw [emptyAbove, hlow] at hempty
  have hzero := emptyFrom_iff.mp hempty i hle (index_lt hindex)
  obtain ⟨lists, hlists⟩ := hvalid.lists
  have hmem := (hlists.listed i (index_lt hindex) c.address).mpr
    ⟨c, ⟨hc, hfree⟩, rfl, hindex⟩
  have hnil := (hlists.linked i (index_lt hindex)).eq_nil_iff.mp hzero
  rw [hnil] at hmem
  cases hmem

end Sizes

/-- In every state that represents a heap the contract holds exactly for the
servable sizes. -/
theorem sizeContract_iff {areas : List Nat} {s : State} {cells : List Cell} {size : Nat}
    (hvalid : Valid s cells) (hreserves : Reserves areas s) (hpositive : 0 < size)
    (hword : size < 2 ^ 32) : SizeContract s cells size ↔ Servable s size := by
  rw [valid_iff] at hvalid
  have hne : size ≠ 0 := Nat.pos_iff_ne_zero.mp hpositive
  by_cases hsmall : size ≤ 131072
  · have hends := allocHeap_ends hreserves hvalid hne hsmall
    constructor
    · intro hcontract
      refine .inl ⟨hsmall, fun hempty hreserve => ?_⟩
      by_contra hnone
      obtain ⟨result, hok⟩ := hcontract.served (.inr hreserve)
      rw [allocHeap_refused hne hsmall hempty hnone] at hok
      cases hok
    · rintro (⟨_, hfits⟩ | ⟨hwrap, _⟩)
      · refine ⟨?_, ?_, fun _ _ => listIndex_lt, ?_⟩
        · intro ptr s' hok
          rw [hok] at hends
          exact hends
        · intro hstop
          rw [hstop] at hends
          cases hends.1
        · intro hable
          cases hcall : allocHeap s size with
          | ok result => exact ⟨result, rfl⟩
          | error stop =>
            rw [hcall] at hends
            obtain ⟨_, hempty, hnone⟩ := hends
            rcases hable with hblock | hreserve
            · exact absurd hblock (not_freeBlockAbove hvalid hempty)
            · exact absurd (hfits hempty hreserve) hnone
      · omega
  · by_cases hbound : size ≤ 0xFFFFFFF8
    · have hstop := allocHeap_beyond hvalid (by omega) hbound
      constructor
      · exact fun hcontract => absurd hstop hcontract.table
      · rintro (⟨hle, _⟩ | ⟨hwrap, _⟩) <;> omega
    · have hwrap : 0xFFFFFFF8 < size := by omega
      rcases allocHeap_wrapped hreserves hvalid hwrap hword with
        ⟨⟨ptr, s'⟩, hok, hmemory⟩ | ⟨hstop, hmemory⟩
      · constructor
        · intro hcontract
          obtain ⟨total, hsize, hroom⟩ := hcontract.usable ptr s' hok
          have hlt := getSize_lt hsize
          simp only [metadataTotal] at hroom
          omega
        · rintro (⟨hle, _⟩ | ⟨_, hnone⟩)
          · omega
          · exact absurd hnone hmemory
      · refine ⟨fun _ => .inr ⟨hwrap, hmemory⟩, fun _ => ⟨?_, ?_, fun _ _ => listIndex_lt, ?_⟩⟩
        · intro ptr s' hok
          rw [hstop] at hok
          cases hok
        · rw [hstop]
          simp
        · exact fun hable => absurd hable (not_served_of_wrapped hreserves hvalid hwrap)

theorem sizeContract_small : SizeContract (initialState sampleArea) [] 24 := by
  have hsound := sound_start sampleArea
  refine (sizeContract_iff hsound.valid hsound.reserves (by decide)
    (by decide)).mpr (.inl ⟨by decide, fun _ _ => ⟨0, ?_⟩⟩)
  decide +kernel

/-- In the first state: 9000 bytes panic although the bootstrap area could hold
them, 200000 bytes read past the table, and a request for all but one byte of
the address space is served. -/
theorem sizeContract_fails : ¬ SizeContract (initialState sampleArea) [] 9000 ∧
      ¬ SizeContract (initialState sampleArea) [] 200000 ∧
      ¬ SizeContract (initialState sampleArea) [] 0xFFFFFFFF := by
  refine ⟨fun hcontract => ?_, fun hcontract => ?_, fun hcontract => ?_⟩
  · have hreserve : ReserveHolds (initialState sampleArea)
        (9000 + metadataTotal + 2 * minReqSize) := by decide +kernel
    have hfails : ((allocHeap (initialState sampleArea) 9000).toOption.map
        Prod.fst) = none := by decide +kernel
    obtain ⟨result, hok⟩ := hcontract.served (.inr hreserve)
    rw [hok] at hfails
    cases hfails
  · have hfails : (match allocHeap (initialState sampleArea) 200000 with
        | .error stop => decide (stop = .outOfBounds)
        | .ok _ => false) = true := by decide +kernel
    split at hfails
    · rename_i stop hstop
      exact hcontract.table (of_decide_eq_true hfails ▸ hstop)
    · cases hfails
  · have hreturns : ((allocHeap (initialState sampleArea)
        0xFFFFFFFF).toOption.map Prod.fst) = some 0xC0200FF4 := by
      decide +kernel
    cases hcall : allocHeap (initialState sampleArea) 0xFFFFFFFF with
    | error stop =>
      rw [hcall] at hreturns
      cases hreturns
    | ok result =>
      obtain ⟨total, hsize, hroom⟩ := hcontract.usable result.1 result.2 hcall
      have hlt := getSize_lt hsize
      simp only [metadataTotal] at hroom
      omega

end Merlon.Heap
