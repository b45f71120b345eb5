/-
`malloc`, `calloc` and `free` of `libc/hosted/stdlib/malloc.c`: the kernel's
allocator over a longer table of size classes, with regions from `mmap` in
place of reserve blocks.  The tags, the links and `RemoveBlock` are those of
the kernel's heap; of its state the reserve blocks and the counter of
allocations are not used.
-/
import Merlon.Heap.Allocate

namespace Merlon.Malloc

open Heap ByteMemory

def totalNumFreeLists : Nat := 77

def freeListBlockSizes : List Nat :=
  [8, 16, 24, 32, 40, 48, 56, 64, 72, 80, 88, 96, 104, 112, 120, 128, 160, 192, 224, 256,
   320, 384, 448, 512, 768, 1024, 1536, 2048, 1024 * 3, 1024 * 4, 1024 * 5, 1024 * 6,
   1024 * 7, 1024 * 8, 1024 * 9, 1024 * 10, 1024 * 11, 1024 * 12, 1024 * 14, 1024 * 16,
   1024 * 20, 1024 * 24, 1024 * 28, 1024 * 32, 1024 * 40, 1024 * 48, 1024 * 56, 1024 * 64,
   1024 * 80, 1024 * 96, 1024 * 112, 1024 * 128, 1024 * 192, 1024 * 256, 1024 * 512, 1024 * 768,
   1024 * 1024 * 1, 1024 * 1024 * 3 / 2, 1024 * 1024 * 2, 1024 * 1024 * 5 / 2,
   1024 * 1024 * 3, 1024 * 1024 * 7 / 2, 1024 * 1024 * 4, 1024 * 1024 * 6,
   1024 * 1024 * 8, 1024 * 1024 * 12, 1024 * 1024 * 16, 1024 * 1024 * 24,
   1024 * 1024 * 32, 1024 * 1024 * 40, 1024 * 1024 * 48, 1024 * 1024 * 64,
   1024 * 1024 * 96, 1024 * 1024 * 128, 1024 * 1024 * 256, 1024 * 1024 * 512, 1024 * 1024 * 1024]

/-- The largest request considered, and the largest region such a request
maps: the class above it with two fences, in steps of 64 KiB. -/
def maxRequest : Nat := 1024 * 1024 * 128

def maxRegion : Nat := 1024 * 1024 * 256 + 65536

lemma freeListBlockSizes_sorted : freeListBlockSizes.Pairwise (· < ·) := by
  decide +kernel

lemma freeListBlockSizes_first : freeListBlockSizes[0]? = some minReqSize :=
  rfl

lemma freeListBlockSizes_room : ∃ size ∈ freeListBlockSizes.take (freeListBlockSizes.length - 1),
    maxRegion ≤ size + metadataTotal :=
  ⟨1024 * 1024 * 512, by decide +kernel, by decide +kernel⟩

lemma maxRegion_lt : maxRegion < 2 ^ 32 := by
  decide +kernel

/-- Beyond the table `GetInsertionIndex` runs into `assert(false)`. -/
def mallocClasses : Classes where
  sizes := freeListBlockSizes
  limit := maxRegion
  tooLarge := .assertionFailure .getInsertionIndex
  sorted := freeListBlockSizes_sorted
  first := freeListBlockSizes_first
  room := freeListBlockSizes_room
  limit_lt := maxRegion_lt

def getSmallestListIndexThatFits (size : Nat) : Except Stop Nat :=
  mallocClasses.smallestIndex size

def getInsertionIndex (size : Nat) : Except Stop Nat :=
  mallocClasses.index size

def addBlock (s : State) (block : Nat) : Except Stop (Nat × State) :=
  mallocClasses.addBlock addBlockDepth s block

/-- What `mmap` does: the range is zeroed and becomes a region. -/
def mapRegion (s : State) (address size : Nat) : State :=
  { s with
    memory := s.memory.fill address size 0
    regions := s.regions ++ [(address, size)] }

/-- `RequestBlock`'s size: the fences, rounded up to 64 KiB. -/
def regionSize (totalSize : Nat) : Nat :=
  (totalSize + minReqSize * 2 + 65535) / 65536 * 65536

/-- `RequestBlock`; `address` is what `mmap` returns. -/
def requestBlock (address : Nat) (s : State) (totalSize : Nat) : Except Stop (Nat × State) :=
  let totalSize := regionSize totalSize
  let block := address
  if block = 0 then .ok (0, s)
  else
    let s := mapRegion s address totalSize
    let leftFence := block
    let actualBlock := block + minReqSize
    let rightFence := block + (totalSize - minReqSize)
    let memory := setSizeTags s.memory leftFence minReqSize
    let memory := setSizeTags memory actualBlock (totalSize - 2 * minReqSize)
    let memory := setSizeTags memory rightFence minReqSize
    let memory := clearLinks memory actualBlock
    let memory := markAllocated memory leftFence
    let memory := markAllocated memory rightFence
    let memory := markFree memory actualBlock
    .ok (actualBlock, s.setMemory memory)

def findBlock (address : Nat) (s : State) (userRequestedSize : Nat) : Except Stop (Nat × State) :=
  mallocClasses.findBlock (requestBlock address) s userRequestedSize

/-- `address` is what `mmap` returns if the call maps a region.  `NULL`
is 0. -/
def malloc (address : Nat) (s : State) (size : Nat) : Except Stop (Nat × State) := do
  if size = 0 then .ok (0, s)
  else
    let size ← roundUpSize size
    let (block, s) ← findBlock address s size
    if block % alignment = 0 then .ok (block + metadataLeading, s)
    else .error (.assertionFailure .allocHeapEx)

def free (s : State) (ptr : Nat) : Except Stop State := do
  if ptr = 0 then .ok s
  else
    let block := ptr - metadataLeading
    let (_, s) ← addBlock (s.setMemory (clearLinks s.memory block)) block
    .ok s

/-- The product is not checked for overflow. -/
def calloc (address : Nat) (s : State) (num size : Nat) : Except Stop (Nat × State) := do
  let (mem, s) ← malloc address s (num * size % 2 ^ 32)
  if mem = 0 then .ok (mem, s)
  else
    .ok (mem, s.setMemory (s.memory.fill mem (num * size % 2 ^ 32) 0))

/-! The size classes of a request. -/

lemma mallocClasses_count : mallocClasses.count = totalNumFreeLists := by
  decide +kernel

lemma getInsertionIndex_lt {size index : Nat} (hindex : getInsertionIndex size = .ok index) :
    index < totalNumFreeLists := by
  exact Classes.index_lt hindex

/-- A request of at most 128 MiB has a class with another one above it, of at
most 256 MiB. -/
lemma smallestIndex_of_le {size : Nat} (hsize : size ≤ maxRequest) :
    ∃ low limit, getSmallestListIndexThatFits size = .ok low ∧
    freeListBlockSizes[low + 1]? = some limit ∧ limit ≤ 1024 * 1024 * 256 := by
  have hlarge : mallocClasses.sizes[73]? = some maxRequest := by decide +kernel
  have habove : mallocClasses.sizes[74]? = some (1024 * 1024 * 256) := by decide +kernel
  obtain ⟨low, hle, hlow⟩ := Classes.smallestIndex_exists hlarge hsize
  have hlength : low + 1 < mallocClasses.sizes.length := by
    have hcount : mallocClasses.sizes.length = 77 := mallocClasses_count
    omega
  have hlimit := List.getElem?_eq_getElem hlength
  exact ⟨low, _, hlow, hlimit, Classes.limit_mono hlimit habove (by omega)⟩

end Merlon.Malloc
