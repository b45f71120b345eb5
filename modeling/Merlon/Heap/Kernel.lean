/-
The kernel's heap as an allocator over its table of size classes: its code is
the general code at that table, and its invariants are the general ones.
-/
import Merlon.Heap.Accounts

namespace Merlon.Heap

lemma freeListBlockSizes_sorted : freeListBlockSizes.Pairwise (· < ·) := by
  decide

lemma freeListBlockSizes_first : freeListBlockSizes[0]? = some minReqSize :=
  rfl

lemma freeListBlockSizes_room : ∃ size ∈ freeListBlockSizes.take (freeListBlockSizes.length - 1),
    bootstrapSize ≤ size + metadataTotal :=
  ⟨1024 * 16, by decide, by decide⟩

lemma bootstrapSize_lt : bootstrapSize < 2 ^ 32 := by
  decide

/-- No area is larger than the bootstrap area, and neither is a cell. -/
def kernelClasses : Classes where
  sizes := freeListBlockSizes
  limit := bootstrapSize
  tooLarge := .panicHeapRequestTooLarge
  sorted := freeListBlockSizes_sorted
  first := freeListBlockSizes_first
  room := freeListBlockSizes_room
  limit_lt := bootstrapSize_lt

/-! The code. -/

lemma kernelClasses_sizes : kernelClasses.sizes = freeListBlockSizes :=
  rfl

lemma kernelClasses_count : kernelClasses.count = totalNumFreeLists := by
  decide

lemma getSmallestListIndexThatFits_eq (size : Nat) :
    getSmallestListIndexThatFits size = kernelClasses.smallestIndex size := by
  unfold getSmallestListIndexThatFits Classes.smallestIndex
  rewrite [kernelClasses_sizes]
  cases freeListBlockSizes.findIdx? (fun limit => decide (size ≤ limit)) <;> rfl

lemma getInsertionIndex_eq (size : Nat) : getInsertionIndex size = kernelClasses.index size := by
  unfold getInsertionIndex Classes.index minReqSize
  rewrite [kernelClasses_sizes, kernelClasses_count]
  cases (freeListBlockSizes.take (totalNumFreeLists - 1)).findIdx?
    (fun limit => decide (size ≤ limit)) <;> rfl

lemma addBlock_eq (fuel : Nat) (s : State) (block : Nat) :
    addBlock fuel s block = kernelClasses.addBlock fuel s block := by
  induction fuel generalizing s block with
  | zero => rfl
  | succ fuel ih => simp only [addBlock, Classes.addBlock, ih, getInsertionIndex_eq]

lemma allocateBlock_eq (s : State) (block index size : Nat) :
    allocateBlock s block index size = kernelClasses.allocateBlock s block index size := by
  simp only [allocateBlock, Classes.allocateBlock, addBlock_eq]

lemma findBlock_eq (s : State) (size : Nat) :
    findBlock s size = kernelClasses.findBlock requestBlock s size := by
  have hindex : getInsertionIndex = kernelClasses.index := funext getInsertionIndex_eq
  have hallocate : allocateBlock = kernelClasses.allocateBlock := by
    funext s block index size
    exact allocateBlock_eq s block index size
  unfold findBlock Classes.findBlock
  rewrite [hindex, hallocate, getSmallestListIndexThatFits_eq,
    kernelClasses_sizes, kernelClasses_count]
  rfl

/-! The invariants. -/

lemma fits_iff (c : Cell) : c.Fits ↔ kernelClasses.Fits c :=
  ⟨fun h => { h with }, fun h => { h with }⟩

lemma arranged_iff (regions : List (Nat × Nat)) (cells : List Cell) :
    Arranged regions cells ↔ kernelClasses.Arranged regions cells :=
  ⟨fun h => { h with fits := fun c hc => (fits_iff c).mp (h.fits c hc) },
    fun h => { h with fits := fun c hc => (fits_iff c).mpr (h.fits c hc) }⟩

lemma freeLists_iff (s : State) (Free : Cell → Prop) :
    FreeLists s Free ↔ kernelClasses.FreeLists s Free :=
  ⟨fun ⟨lists, h⟩ => ⟨lists, h.linked, h.nodup, h.listed⟩,
    fun ⟨lists, h⟩ => ⟨lists, h.linked, h.nodup, h.listed⟩⟩

lemma valid_iff (s : State) (cells : List Cell) : Valid s cells ↔ kernelClasses.Valid s cells :=
  ⟨fun h => ⟨(arranged_iff _ _).mp h.arranged, h.tags, (freeLists_iff _ _).mp h.lists⟩,
    fun h => ⟨(arranged_iff _ _).mpr h.arranged, h.tags, (freeLists_iff _ _).mpr h.lists⟩⟩

end Merlon.Heap
