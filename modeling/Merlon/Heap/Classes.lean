/-
The allocator over any table of size classes.  The kernel's heap and the
library's `malloc` differ in their tables and in where their regions come from;
the blocks, their tags and the free lists are handled alike.  `Classes` is the
table, and what follows is the code and the invariant of an allocator with it.
-/
import Merlon.Heap.Represent

namespace Merlon.Heap

open ByteMemory List

/-- A table of size classes, with the largest cell the allocator may have and
how it stops when a block is beyond the table. -/
structure Classes where
  sizes : List Nat
  limit : Nat
  tooLarge : Stop
  sorted : sizes.Pairwise (· < ·)
  first : sizes[0]? = some minReqSize
  room : ∃ size ∈ sizes.take (sizes.length - 1), limit ≤ size + metadataTotal
  limit_lt : limit < 2 ^ 32

namespace Classes

/-- The number of free lists. -/
def count (C : Classes) : Nat := C.sizes.length

/-! The code. -/

/-- `GetSmallestListIndexThatFits` -/
def smallestIndex (C : Classes) (sizeWithoutMetadata : Nat) : Except Stop Nat :=
  match C.sizes.findIdx? (fun limit => sizeWithoutMetadata ≤ limit) with
  | some index => .ok index
  | none => .error .outOfBounds

/-- `GetInsertionIndex`, which does not look at the last entry of the table. -/
def index (C : Classes) (sizeWithoutMetadata : Nat) : Except Stop Nat :=
  if sizeWithoutMetadata < minReqSize then
    .error (.assertionFailure .getInsertionIndex)
  else if sizeWithoutMetadata = minReqSize then .ok 0
  else
    match (C.sizes.take (C.count - 1)).findIdx? (fun limit => sizeWithoutMetadata ≤ limit) with
    | some index => .ok (index - 1)
    | none => .error C.tooLarge

/-- `AddBlock`, cut off after a number of nested calls. -/
def addBlock (C : Classes) : Nat → State → Nat → Except Stop (Nat × State)
  | 0, _, _ => .error .recursionLimit
  | fuel + 1, s, block => do
      let size ← getSize s.memory block
      let index ← C.index (subSize size metadataTotal)
      let prev := block - s.memory.load (block - 4) / 4 * 4
      let next := block + size / 4 * 4
      if isAllocated s.memory prev ∧ isAllocated s.memory next then
        .ok (block, insertBlock s index block)
      else if isAllocated s.memory prev then
        let nextIndex ← C.index (subSize (← getSize s.memory next) metadataTotal)
        let s ← removeBlock s nextIndex next
        let nextSize ← getSize s.memory next
        addBlock C fuel (mergeInto s block (size + nextSize)) block
      else if isAllocated s.memory next then
        let prevIndex ← C.index (subSize (← getSize s.memory prev) metadataTotal)
        let s ← removeBlock s prevIndex prev
        let prevSize ← getSize s.memory prev
        addBlock C fuel (mergeInto s prev (size + prevSize)) prev
      else
        let prevIndex ← C.index (subSize (← getSize s.memory prev) metadataTotal)
        let s ← removeBlock s prevIndex prev
        let nextIndex ← C.index (subSize (← getSize s.memory next) metadataTotal)
        let s ← removeBlock s nextIndex next
        let prevSize ← getSize s.memory prev
        let nextSize ← getSize s.memory next
        addBlock C fuel (mergeInto s prev (size + prevSize + nextSize)) prev

/-- `AllocateBlock` -/
def allocateBlock (C : Classes) (s : State)
    (block index userRequestedSize : Nat) : Except Stop (Nat × State) := do
  if block = 0 then .error (.assertionFailure .allocateBlockNull)
  else
    let totalSize := userRequestedSize + metadataTotal
    let blockSize ← getSize s.memory block
    if blockSize < totalSize then
      .error (.assertionFailure .allocateBlockSize)
    else if blockSize - totalSize < minReqSize + metadataTotal then
      let s ← removeBlock s index block
      let memory := setSizeTags s.memory block blockSize
      .ok (block, s.setMemory (markAllocated memory block))
    else
      let s ← removeBlock s index block
      let leftover := blockSize - totalSize
      let memory := setSizeTags s.memory block leftover
      let allocatedBlock := block + leftover / 4 * 4
      let memory := setSizeTags memory allocatedBlock totalSize
      let memory := markAllocated memory allocatedBlock
      let memory := markFree memory block
      let (_, s) ← C.addBlock addBlockDepth (s.setMemory memory) block
      .ok (allocatedBlock, s)

/-- `FindBlock`; `requestBlock` gets a new region. -/
def findBlock (C : Classes) (requestBlock : State → Nat → Except Stop (Nat × State)) (s : State)
    (userRequestedSize : Nat) : Except Stop (Nat × State) := do
  let minIndex ← C.smallestIndex userRequestedSize
  match (range' minIndex (C.count - minIndex)).find? (fun i => s.headBlock i != 0) with
  | some i => C.allocateBlock s (s.headBlock i) i userRequestedSize
  | none =>
    match C.sizes[minIndex + 1]? with
    | none => .error .outOfBounds
    | some limit =>
      let (sysBlock, s) ← requestBlock s (limit + metadataTotal)
      let sysIndex ← C.index (subSize (← getSize s.memory sysBlock) metadataTotal)
      if s.headBlock sysIndex = 0 then
        C.allocateBlock (s.setHead sysIndex sysBlock) sysBlock sysIndex userRequestedSize
      else .error (.assertionFailure .findBlock)

/-! The invariant. -/

/-- Alignment and size of a cell.  A block has room for two links. -/
structure Fits (C : Classes) (c : Cell) : Prop where
  positive : 0 < c.address
  aligned : c.address % 8 = 0
  sizeAligned : c.size % 8 = 0
  sizeMin : 8 ≤ c.size
  block : c.kind ≠ .fence → 16 ≤ c.size
  sizeMax : c.size ≤ C.limit
  top : c.stop ≤ 2 ^ 32

/-- The cells tile the regions, are well formed and disjoint, and no two free
cells touch. -/
structure Arranged (C : Classes) (regions : List (Nat × Nat)) (cells : List Cell) : Prop where
  tiled : Tiled regions cells
  fits : ∀ c ∈ cells, C.Fits c
  apart : cells.Pairwise Apart
  calm : cells.IsChain (fun left right => left.kind ≠ .free ∨ right.kind ≠ .free)
  regionMax : ∀ region ∈ regions, region.2 ≤ C.limit
  regionTop : ∀ region ∈ regions, 0 < region.1 ∧ region.1 + region.2 ≤ 2 ^ 32

/-- The free lists hold exactly the cells of `Free`, each on the list its size
selects. -/
structure ListsHold (C : Classes) (s : State) (Free : Cell → Prop)
    (lists : Nat → List Nat) : Prop where
  linked : ∀ i < C.count, LinkedList (nextOf s.memory) (prevOf s.memory) 0 (s.headBlock i) (lists i)
  nodup : ∀ i < C.count, (lists i).Nodup
  listed : ∀ i < C.count, ∀ address, address ∈ lists i ↔
    ∃ c, Free c ∧ c.address = address ∧ C.index (c.size - metadataTotal) = .ok i

def FreeLists (C : Classes) (s : State) (Free : Cell → Prop) : Prop :=
  ∃ lists, C.ListsHold s Free lists

/-- Cells that can carry links: blocks of a layout. -/
structure Linkable (C : Classes) (Free : Cell → Prop) : Prop where
  fits : ∀ c, Free c → C.Fits c
  block : ∀ c, Free c → c.kind ≠ .fence
  apart : ∀ c d, Free c → Free d → c ≠ d → Apart c d

/-- The heap between two calls. -/
structure Valid (C : Classes) (s : State) (cells : List Cell) : Prop where
  arranged : C.Arranged s.regions cells
  tags : ∀ c ∈ cells, Tagged s.memory c
  lists : C.FreeLists s (FreeIn cells)

/-- The heap while the stretch `old` of blocks is being rewritten: none of it
is on a free list and its tags are not settled. -/
structure Loose (C : Classes) (s : State) (before old after : List Cell) : Prop where
  arranged : C.Arranged s.regions (before ++ old ++ after)
  tags : ∀ c ∈ before ++ after, Tagged s.memory c
  lists : C.FreeLists s (FreeIn (before ++ after))

variable {C : Classes} {regions : List (Nat × Nat)} {c d : Cell}
  {Free : Cell → Prop} {cells : List Cell}

/-! The two list indexes. -/

lemma limit_mono {i j small large : Nat} (hsmall : C.sizes[i]? = some small)
    (hlarge : C.sizes[j]? = some large) (hle : i ≤ j) : small ≤ large := by
  obtain ⟨hi, rfl⟩ := List.getElem?_eq_some_iff.mp hsmall
  obtain ⟨hj, rfl⟩ := List.getElem?_eq_some_iff.mp hlarge
  rcases Nat.lt_or_eq_of_le hle with hlt | rfl
  · exact Nat.le_of_lt (pairwise_iff_getElem.mp C.sorted i j hi hj hlt)
  · exact Nat.le_refl _

lemma smallestIndex_limit {size index : Nat} (hindex : C.smallestIndex size = .ok index) :
    ∃ limit, C.sizes[index]? = some limit ∧ size ≤ limit := by
  rw [smallestIndex] at hindex
  split at hindex
  · rename_i hfound
    cases hindex
    obtain ⟨hlt, hfits, _⟩ := findIdx?_eq_some_iff_getElem.mp hfound
    exact ⟨C.sizes[index], List.getElem?_eq_getElem hlt, by simpa using hfits⟩
  · cases hindex

/-- A size that a class can hold has a smallest class. -/
lemma smallestIndex_exists {size limit i : Nat} (hlimit : C.sizes[i]? = some limit)
    (hsize : size ≤ limit) : ∃ low ≤ i, C.smallestIndex size = .ok low := by
  obtain ⟨hi, rfl⟩ := List.getElem?_eq_some_iff.mp hlimit
  cases hfound : C.sizes.findIdx? (fun limit => size ≤ limit) with
  | none =>
    have hnone := findIdx?_eq_none_iff.mp hfound _ (List.getElem_mem hi)
    simp [hsize] at hnone
  | some low =>
    obtain ⟨hlt, _, hbefore⟩ := findIdx?_eq_some_iff_getElem.mp hfound
    refine ⟨low, ?_, by rw [smallestIndex, hfound]⟩
    by_contra hgt
    have hlimit := hbefore i (by omega)
    simp [hsize] at hlimit

/-- The insertion index rounds down: the block is at least as large as the
limit of its list and, beyond the smallest size, larger than that. -/
lemma index_cases {size index : Nat} (hindex : C.index size = .ok index) :
    (size = 8 ∧ index = 0) ∨ ∃ limit above, C.sizes[index]? = some limit ∧
    C.sizes[index + 1]? = some above ∧ limit < size ∧ size ≤ above := by
  rw [Classes.index] at hindex
  split at hindex
  · cases hindex
  · split at hindex
    · cases hindex
      exact .inl ⟨‹_›, rfl⟩
    · split at hindex
      · rename_i hmin hne found hfound
        cases hindex
        right
        obtain ⟨hlt, hfits, hbefore⟩ := findIdx?_eq_some_iff_getElem.mp hfound
        simp only [List.getElem_take, decide_eq_true_eq] at hfits
        have hlen : found < C.sizes.length := by
          simp only [length_take] at hlt
          omega
        -- the smallest limit is eight, so a larger size is not found there
        have hpos : 0 < found := by
          rcases Nat.eq_zero_or_pos found with rfl | hpos
          · obtain ⟨_, height⟩ := List.getElem?_eq_some_iff.mp C.first
            omega
          · exact hpos
        have hprev := hbefore (found - 1) (by omega)
        simp only [List.getElem_take, decide_eq_true_eq] at hprev
        refine ⟨C.sizes[found - 1], C.sizes[found], List.getElem?_eq_getElem _, ?_, by omega, hfits⟩
        rw [Nat.sub_add_cancel hpos]
        exact List.getElem?_eq_getElem hlen
      · cases hindex

lemma index_limit {size index : Nat} (hindex : C.index size = .ok index) :
    ∃ limit, C.sizes[index]? = some limit ∧ limit ≤ size := by
  rcases index_cases hindex with ⟨rfl, rfl⟩ | ⟨limit, _, hlimit, _, hlt, _⟩
  · exact ⟨8, C.first, Nat.le_refl _⟩
  · exact ⟨limit, hlimit, Nat.le_of_lt hlt⟩

lemma index_lt {size index : Nat} (hindex : C.index size = .ok index) : index < C.count := by
  obtain ⟨limit, hlimit, _⟩ := index_limit hindex
  exact (List.getElem?_eq_some_iff.mp hlimit).1

lemma index_exists {size : Nat} (hmin : 8 ≤ size) (hmax : size + metadataTotal ≤ C.limit) :
    ∃ index, C.index size = .ok index := by
  by_cases hsmall : size = minReqSize
  · exact ⟨0, by simp [Classes.index, hsmall]⟩
  · have hnot : ¬ size < minReqSize := by
      simp only [minReqSize]
      omega
    simp only [Classes.index, hnot, hsmall]
    cases hfound : (C.sizes.take (C.count - 1)).findIdx? (fun limit => decide (size ≤ limit)) with
    | some index => exact ⟨index - 1, rfl⟩
    | none =>
      rw [findIdx?_eq_none_iff] at hfound
      obtain ⟨last, hmem, hlast⟩ := C.room
      have hbeyond := hfound last hmem
      simp only [decide_eq_false_iff_not] at hbeyond
      omega

/-- A block on a list at or above the request's index is large enough. -/
lemma request_le_of_index {request size low index : Nat}
    (hrequest : C.smallestIndex request = .ok low)
    (hindex : C.index size = .ok index) (hle : low ≤ index) : request ≤ size := by
  obtain ⟨small, hsmall, hrequestLe⟩ := smallestIndex_limit hrequest
  obtain ⟨large, hlarge, hsizeGe⟩ := index_limit hindex
  exact hrequestLe.trans ((limit_mono hsmall hlarge hle).trans hsizeGe)

/-- A block as large as the limit above the request's index goes to a list at
or above that index. -/
lemma index_ge_of_limit {size low index limit : Nat} (hlimit : C.sizes[low + 1]? = some limit)
    (hsize : limit ≤ size) (hindex : C.index size = .ok index) : low ≤ index := by
  by_contra hlt
  obtain ⟨hlen, hlimitEq⟩ := List.getElem?_eq_some_iff.mp hlimit
  rcases index_cases hindex with ⟨rfl, rfl⟩ | ⟨_, above, _, habove, _, hle⟩
  · obtain ⟨hfirst, height⟩ := List.getElem?_eq_some_iff.mp C.first
    have hstrict := pairwise_iff_getElem.mp C.sorted 0 (low + 1) hfirst hlen (by omega)
    rw [height, hlimitEq] at hstrict
    exact absurd hsize (Nat.not_le.mpr hstrict)
  · obtain ⟨hlen', haboveEq⟩ := List.getElem?_eq_some_iff.mp habove
    have hstrict := pairwise_iff_getElem.mp C.sorted (index + 1) (low + 1) hlen' hlen (by omega)
    omega

lemma Fits.index (hfits : C.Fits c) (hblock : c.kind ≠ .fence) :
    ∃ index, C.index (c.size - metadataTotal) = .ok index := by
  have hmin := hfits.block hblock
  have hmax := hfits.sizeMax
  exact index_exists (by simp only [metadataTotal]; omega) (by simp only [metadataTotal]; omega)

lemma Fits.subSize (hfits : C.Fits c) : subSize c.size metadataTotal = c.size - metadataTotal := by
  have hmin := hfits.sizeMin
  have hmax := hfits.sizeMax
  have hlimit := C.limit_lt
  simp only [Heap.subSize, metadataTotal]
  omega

/-! Geometry. -/

lemma Arranged.apart_of_ne (harranged : C.Arranged regions cells) (hc : c ∈ cells)
    (hd : d ∈ cells) (hne : c ≠ d) : Apart c d :=
  harranged.apart.forall hc hd hne

lemma Arranged.linkable (harranged : C.Arranged regions cells) : C.Linkable (FreeIn cells) where
  fits c hc := harranged.fits c hc.1
  block c hc := by simp [hc.2]
  apart c d hc hd := harranged.apart_of_ne hc.1 hd.1

section

variable (hlink : C.Linkable Free)
include hlink

lemma Linkable.mono {Fewer : Cell → Prop} (hsub : ∀ c, Fewer c → Free c) : C.Linkable Fewer where
  fits c hc := hlink.fits c (hsub c hc)
  block c hc := hlink.block c (hsub c hc)
  apart c d hc hd := hlink.apart c d (hsub c hc) (hsub d hd)

/-- Distinct linkable cells lie at least a smallest block apart. -/
lemma Linkable.far (hc : Free c) (hd : Free d) (hne : c ≠ d) :
    c.address + 16 ≤ d.address ∨ d.address + 16 ≤ c.address := by
  have hcSize := (hlink.fits c hc).block (hlink.block c hc)
  have hdSize := (hlink.fits d hd).block (hlink.block d hd)
  have hapart := hlink.apart c d hc hd hne
  simp only [Apart, Cell.stop] at hapart
  omega

lemma Linkable.eq_of_address (hc : Free c) (hd : Free d)
    (haddr : c.address = d.address) : c = d := by
  by_contra hne
  have hfar := hlink.far hc hd hne
  omega

end

end Classes

end Merlon.Heap
