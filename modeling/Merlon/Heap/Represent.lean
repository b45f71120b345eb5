/-
How byte memory represents the cells: size tags at both ends of every cell,
the allocation flag in the leading tag, and the free lists threaded through
the first two payload words of the free cells.
-/
import Merlon.Heap.Layout
import Merlon.Library.LinkedList

namespace Merlon.Heap

open ByteMemory Cell

/-- Alignment and size of a cell.  A block has room for two links. -/
structure Cell.Fits (c : Cell) : Prop where
  positive : 0 < c.address
  aligned : c.address % 8 = 0
  sizeAligned : c.size % 8 = 0
  sizeMin : 8 ≤ c.size
  block : c.kind ≠ .fence → 16 ≤ c.size
  sizeMax : c.size ≤ bootstrapSize
  top : c.stop ≤ 2 ^ 32

/-- Cells that share no byte. -/
def Apart (left right : Cell) : Prop :=
  left.stop ≤ right.address ∨ right.stop ≤ left.address

lemma Apart.symm {left right : Cell} (hapart : Apart left right) : Apart right left :=
  Or.symm hapart

/-- The size tags at both ends of a cell. -/
def Sized (memory : ByteMemory) (c : Cell) : Prop :=
  memory.load c.address / 4 * 4 = c.size ∧ memory.load (c.stop - 4) = c.size

/-- Size tags and allocation flag. -/
def Tagged (memory : ByteMemory) (c : Cell) : Prop :=
  Sized memory c ∧ (memory.load c.address % 2 = 1 ↔ c.kind ≠ .free)

/-- The cells tile the regions, are well formed and disjoint, and no two free
cells touch. -/
structure Arranged (regions : List (Nat × Nat)) (cells : List Cell) : Prop where
  tiled : Tiled regions cells
  fits : ∀ c ∈ cells, c.Fits
  apart : cells.Pairwise Apart
  calm : cells.IsChain (fun left right => left.kind ≠ .free ∨ right.kind ≠ .free)
  regionMax : ∀ region ∈ regions, region.2 ≤ bootstrapSize
  regionTop : ∀ region ∈ regions, 0 < region.1 ∧ region.1 + region.2 ≤ 2 ^ 32

def nextOf (memory : ByteMemory) (block : Nat) : Nat :=
  memory.load (nextField block)

def prevOf (memory : ByteMemory) (block : Nat) : Nat :=
  memory.load (prevField block)

/-- The free lists hold exactly the cells of `Free`, each on the list its size
selects. -/
structure ListsHold (s : State) (Free : Cell → Prop) (lists : Nat → List Nat) : Prop where
  linked : ∀ i < totalNumFreeLists, LinkedList (nextOf s.memory)
    (prevOf s.memory) 0 (s.headBlock i) (lists i)
  nodup : ∀ i < totalNumFreeLists, (lists i).Nodup
  listed : ∀ i < totalNumFreeLists, ∀ address, address ∈ lists i ↔
    ∃ c, Free c ∧ c.address = address ∧ getInsertionIndex (c.size - metadataTotal) = .ok i

def FreeLists (s : State) (Free : Cell → Prop) : Prop :=
  ∃ lists, ListsHold s Free lists

/-- The free cells of a layout. -/
def FreeIn (cells : List Cell) (c : Cell) : Prop :=
  c ∈ cells ∧ c.kind = .free

/-- The heap between two calls. -/
structure Valid (s : State) (cells : List Cell) : Prop where
  arranged : Arranged s.regions cells
  tags : ∀ c ∈ cells, Tagged s.memory c
  lists : FreeLists s (FreeIn cells)

instance : Std.Symm Apart := ⟨fun _ _ hapart => hapart.symm⟩

/-! Tags under memory changes. -/

variable {first second memory : ByteMemory}
  {c : Cell} {block low high : Nat} {cells : List Cell} {at_ : Nat}

lemma Sized.congr (hfirst : first.load c.address = second.load c.address)
    (hlast : first.load (c.stop - 4) = second.load (c.stop - 4))
    (hsized : Sized first c) : Sized second c := by
  rw [Sized, ← hfirst, ← hlast]
  exact hsized

lemma Tagged.congr (hfirst : first.load c.address = second.load c.address)
    (hlast : first.load (c.stop - 4) = second.load (c.stop - 4))
    (htagged : Tagged first c) : Tagged second c := by
  refine ⟨htagged.1.congr hfirst hlast, ?_⟩
  rw [← hfirst]
  exact htagged.2

/-- A cell keeps its tags when no byte of it changes. -/
lemma Tagged.of_agree (hsize : 8 ≤ c.size)
    (hagree : ∀ at_, c.address ≤ at_ → at_ < c.stop → first at_ = second at_)
    (htagged : Tagged first c) : Tagged second c := by
  apply htagged.congr
  · apply load_congr
    intro at_ hlow hhigh
    exact hagree at_ hlow (by simp only [stop]; omega)
  · apply load_congr
    simp only [stop] at hagree ⊢
    intro at_ hlow hhigh
    exact hagree at_ (by omega) (by omega)

lemma Sized.getSize (hsized : Sized memory c) : getSize memory c.address = .ok c.size := by
  have hlast : memory.load (c.address + c.size - 4) = c.size := hsized.2
  simp [Heap.getSize, hsized.1, hlast]

lemma Tagged.isAllocated (htagged : Tagged memory c) :
    isAllocated memory c.address = true ↔ c.kind ≠ .free := by
  simpa [Heap.isAllocated] using htagged.2

lemma or_size {flags size : Nat} (hflags : flags < 4) (hsize : size % 4 = 0) :
    flags ||| size = flags + size := by
  obtain ⟨quarter, rfl⟩ := Nat.dvd_of_mod_eq_zero hsize
  have hor := Nat.two_pow_add_eq_or_of_lt (i := 2) hflags quarter
  rw [Nat.or_comm]
  simp only [Nat.reducePow] at hor
  omega

section SetSizeTags

variable {memory : ByteMemory} {block size : Nat}

/-- `SetSizeTags` writes the two tag words only. -/
lemma setSizeTags_apply (hsize : size % 8 = 0) (hfirst : at_ < block ∨ block + 4 ≤ at_)
    (hlast : at_ < block + size - 4 ∨ block + size ≤ at_) (hmin : 8 ≤ size) :
    setSizeTags memory block size at_ = memory at_ := by
  have hquarter : size / 4 * 4 = size := by omega
  rw [setSizeTags, store_apply_of_outside _ (by omega), store_apply_of_outside _ hfirst]

lemma setSizeTags_first (hsize : size % 8 = 0) (hmin : 8 ≤ size) (hmax : size < 2 ^ 32) :
    (setSizeTags memory block size).load block = memory.load block % 4 + size := by
  have hquarter : size / 4 * 4 = size := by omega
  have hlow : memory.load block % 4 < 4 := Nat.mod_lt _ (by omega)
  rw [setSizeTags, load_store_of_disjoint _ (by omega),
    or_size hlow (by omega), load_store_of_lt _ (by omega)]

lemma setSizeTags_last (hsize : size % 8 = 0) (hmax : size < 2 ^ 32) :
    (setSizeTags memory block size).load (block + size - 4) = size := by
  have hquarter : size / 4 * 4 = size := by omega
  rw [setSizeTags, hquarter, load_store_of_lt _ hmax]

end SetSizeTags

section

variable (memory : ByteMemory)

/-- `MarkFree` and `MarkAllocated` change the flag bit of the leading tag. -/
lemma markFree_first (block : Nat) :
    (markFree memory block).load block = memory.load block / 2 * 2 := by
  have hlt := memory.load_lt block
  rw [markFree, load_store_of_lt _ (by omega)]

lemma markAllocated_first (block : Nat) :
    (markAllocated memory block).load block = memory.load block / 2 * 2 + 1 := by
  have hlt := memory.load_lt block
  rw [markAllocated, load_store_of_lt _ (by omega)]

lemma markFree_apply (houtside : at_ < block ∨ block + 4 ≤ at_) :
    markFree memory block at_ = memory at_ :=
  store_apply_of_outside _ houtside

lemma markAllocated_apply (houtside : at_ < block ∨ block + 4 ≤ at_) :
    markAllocated memory block at_ = memory at_ :=
  store_apply_of_outside _ houtside

lemma clearLinks_apply (houtside : at_ < block + 4 ∨ block + 12 ≤ at_) :
    clearLinks memory block at_ = memory at_ := by
  rw [clearLinks, store_apply_of_outside _ (by simp only [nextField]; omega),
    store_apply_of_outside _ (by simp only [prevField]; omega)]

end

/-! Stretches of cells. -/

section

variable (hcells : Contiguous low high cells)

include hcells

/-- A cell apart from every cell of a stretch that starts at or before it lies
behind the whole stretch. -/
lemma Contiguous.behind {d : Cell} (hsize : 0 < d.size)
    (hapart : ∀ c ∈ cells, Apart d c) (hlow : low ≤ d.address) : high ≤ d.address := by
  induction cells generalizing low with
  | nil => exact hcells ▸ hlow
  | cons c tail ih =>
    obtain ⟨rfl, htail⟩ := hcells
    have hc := hapart c List.mem_cons_self
    simp only [Apart, stop] at hc
    exact ih htail (fun e he => hapart e (List.mem_cons_of_mem c he)) (by simp only [stop]; omega)

lemma Contiguous.outside {d : Cell} (hne : cells ≠ []) (hsize : 0 < d.size)
    (hapart : ∀ c ∈ cells, Apart d c) : d.stop ≤ low ∨ high ≤ d.address := by
  cases cells with
  | nil => exact absurd rfl hne
  | cons c tail =>
    obtain ⟨rfl, htail⟩ := hcells
    rcases hapart c List.mem_cons_self with hleft | hright
    · exact .inl hleft
    · exact .inr (htail.behind hsize (fun e he => hapart e (List.mem_cons_of_mem c he)) hright)

lemma Contiguous.pairwise_apart : cells.Pairwise Apart := by
  induction cells generalizing low with
  | nil => exact List.Pairwise.nil
  | cons c tail ih =>
    refine List.pairwise_cons.mpr ⟨?_, ih hcells.2⟩
    intro d hd
    exact .inl (hcells.2.mem_range hd).1

lemma Contiguous.size_aligned (haligned : ∀ c ∈ cells, c.size % 8 = 0) : (high - low) % 8 = 0 := by
  induction cells generalizing low with
  | nil =>
    have heq : low = high := hcells
    omega
  | cons c tail ih =>
    obtain ⟨rfl, htail⟩ := hcells
    have halign := haligned c List.mem_cons_self
    have hrest := ih htail (fun d hd => haligned d (List.mem_cons_of_mem c hd))
    have hle := htail.low_le_high
    simp only [stop] at hrest hle
    omega

end

/-! Tags of a cell that is written. -/

lemma Sized.of_agree (hmin : 8 ≤ c.size)
    (hagree : ∀ at_, c.address ≤ at_ → at_ < c.stop → first at_ = second at_)
    (hsized : Sized first c) : Sized second c := by
  apply hsized.congr
  · apply load_congr
    intro at_ hlow hhigh
    exact hagree at_ hlow (by simp only [stop]; omega)
  · apply load_congr
    simp only [stop] at hagree ⊢
    intro at_ hlow hhigh
    exact hagree at_ (by omega) (by omega)

section

variable (hsized : Sized memory c)

include hsized

lemma Sized.clearLinks (hroom : 16 ≤ c.size) : Sized (clearLinks memory c.address) c := by
  apply hsized.congr
  · apply load_congr
    intro at_ hlow hhigh
    exact (clearLinks_apply memory (by omega)).symm
  · apply load_congr
    intro at_ hlow hhigh
    simp only [stop] at hlow hhigh
    exact (clearLinks_apply memory (by omega)).symm

lemma Sized.markFree (hmin : 8 ≤ c.size) : Sized (markFree memory c.address) c ∧
    (Heap.markFree memory c.address).load c.address % 2 = 0 := by
  obtain ⟨hfirst, hlast⟩ := hsized
  rw [Sized, markFree_first]
  refine ⟨⟨by omega, ?_⟩, by omega⟩
  rw [← hlast]
  apply load_congr
  intro at_ hlow hhigh
  simp only [stop] at hlow hhigh
  exact markFree_apply memory (by omega)

lemma Sized.markAllocated (hmin : 8 ≤ c.size) : Sized (markAllocated memory c.address) c ∧
    (Heap.markAllocated memory c.address).load c.address % 2 = 1 := by
  obtain ⟨hfirst, hlast⟩ := hsized
  rw [Sized, markAllocated_first]
  refine ⟨⟨by omega, ?_⟩, by omega⟩
  rw [← hlast]
  apply load_congr
  intro at_ hlow hhigh
  simp only [stop] at hlow hhigh
  exact markAllocated_apply memory (by omega)

lemma Sized.tagged_markAllocated (hmin : 8 ≤ c.size) (hheld : c.kind ≠ .free) :
    Tagged (Heap.markAllocated memory c.address) c := by
  obtain ⟨hsize, hmark⟩ := hsized.markAllocated hmin
  exact ⟨hsize, by simp [hmark, hheld]⟩

end

lemma Tagged.load_last (halign : c.size % 8 = 0) (htagged : Tagged memory c) :
    c.stop - memory.load (c.stop - 4) / 4 * 4 = c.address := by
  rw [htagged.1.2]
  simp only [stop]
  omega

end Merlon.Heap
