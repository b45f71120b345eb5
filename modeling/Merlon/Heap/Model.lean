/-
The kernel heap of `kernel/mem/heap.c` on the 32-bit target: a boundary-tag
allocator with segregated free lists over memory taken from a small table of
reserve blocks.  Tags and free-list links live in the same byte memory as the
data handed out.
-/
import Merlon.Library.ByteMemory
import Merlon.Library.Outcome

namespace Merlon

namespace Heap

/-! Constants of `heap.c` and of the x86 configuration. -/

def archPageSize : Nat := 4096

def bootstrapSize : Nat := 1024 * 16

def maxReserveBlocks : Nat := 16

def alignment : Nat := 8

def metadataLeading : Nat := 4

def metadataTotal : Nat := 8

def minReqSize : Nat := 8

def totalNumFreeLists : Nat := 35

/-- The smallest payload each free list may hold. -/
def freeListBlockSizes : List Nat :=
  [8, 16, 24, 32,
   40, 48, 56, 64,
   72, 80, 88, 96,
   104, 112, 120, 128,
   160, 192, 224, 256,
   320, 384, 448, 512,
   768, 1024, 1536, 2048,
   1024 * 4, 1024 * 8, 1024 * 16, 1024 * 32,
   1024 * 64, 1024 * 128, 1024 * 256]

/-- The assertions of the allocator, named by the function that makes them. -/
inductive Check where
  | getInsertionIndex
  | roundUpSize
  | getSize
  | removeBlock
  | allocateBlockNull
  | allocateBlockSize
  | findBlock
  | allocHeapEx
deriving DecidableEq

/-- Every way a call ends without returning.  `outOfBounds` is a read past the
end of `free_list_block_sizes`, which C leaves undefined. -/
inductive Stop where
  | assertionFailure (check : Check)
  | panicCannotMallocWithoutFaulting
  | panicHeapRequestTooLarge
  | panicOutOfHeap
  | outOfBounds
  | recursionLimit
deriving DecidableEq

structure ReserveBlock where
  address : Nat
  size : Nat
  valid : Bool
deriving DecidableEq

/-- `_head_block`, `reserve_blocks` and the memory they point into.  `regions`
is a history variable: each range `AllocateFromReserveBlocks` has returned. -/
structure State where
  memory : ByteMemory
  reserveBlocks : Nat → ReserveBlock
  headBlock : Nat → Nat
  outstandingAllocations : Int
  regions : List (Nat × Nat)

/-- Replace one entry of a table. -/
def setEntry {α : Type} (table : Nat → α) (index : Nat) (value : α) : Nat → α :=
  fun at_ => if at_ = index then value else table at_

/-- Subtraction of `size_t` values. -/
def subSize (left right : Nat) : Nat :=
  (left + 2 ^ 32 - right) % 2 ^ 32

def State.setMemory (s : State) (memory : ByteMemory) : State :=
  { s with memory := memory }

def State.setHead (s : State) (index block : Nat) : State :=
  { s with headBlock := setEntry s.headBlock index block }

/-! `struct block`: the leading size tag, then the two links of a free
block. -/

def nextField (block : Nat) : Nat := block + 4

def prevField (block : Nat) : Nat := block + 8

/-! Reserve blocks. -/

/-- The best fit among the valid reserve blocks; ties keep the earlier one. -/
def smallestReserve (blocks : Nat → ReserveBlock) (size : Nat) : Option Nat :=
  (List.range maxReserveBlocks).foldl (fun smallest i =>
    if (blocks i).valid = true ∧ size ≤ (blocks i).size then
      match smallest with
      | none => some i
      | some j => if (blocks i).size < (blocks j).size then some i else some j
    else smallest) none

def allocateFromReserveBlocks (s : State) (size : Nat) :
    Except Stop (Nat × State) :=
  match smallestReserve s.reserveBlocks size with
  | none => .error .panicCannotMallocWithoutFaulting
  | some smallest =>
    let chosen := s.reserveBlocks smallest
    let left := chosen.size - size
    .ok (chosen.address,
      { s with
        reserveBlocks := setEntry s.reserveBlocks smallest
          { address := chosen.address + size
            size := left
            valid := if left < archPageSize then false else chosen.valid }
        regions := s.regions ++ [(chosen.address, size)] })

/-- The part of `AddBlockToBackupHeap` after `MapVirtEasy` returned `address`,
a zeroed area: the first invalid entry takes it, and with no such entry the
area is unmapped again. -/
def addBlockToBackupHeap (s : State) (address size : Nat) : State :=
  match (List.range maxReserveBlocks).find?
      (fun i => !(s.reserveBlocks i).valid) with
  | none => s
  | some i =>
    { s with
      memory := s.memory.fill address size 0
      reserveBlocks := setEntry s.reserveBlocks i
        { address := address, size := size, valid := true } }

/-! Sizes and free-list indexes. -/

/-- Rounds up: the first list all of whose blocks fit the size. -/
def getSmallestListIndexThatFits (sizeWithoutMetadata : Nat) :
    Except Stop Nat :=
  match freeListBlockSizes.findIdx? (fun limit =>
      sizeWithoutMetadata ≤ limit) with
  | some index => .ok index
  | none => .error .outOfBounds

/-- Rounds down: the list a block of this size is inserted in.  The last entry
of the table is not looked at. -/
def getInsertionIndex (sizeWithoutMetadata : Nat) : Except Stop Nat :=
  if sizeWithoutMetadata < 8 then
    .error (.assertionFailure .getInsertionIndex)
  else if sizeWithoutMetadata = 8 then .ok 0
  else
    match (freeListBlockSizes.take (totalNumFreeLists - 1)).findIdx?
        (fun limit => sizeWithoutMetadata ≤ limit) with
    | some index => .ok (index - 1)
    | none => .error .panicHeapRequestTooLarge

/-- `(size + ALIGNMENT - 1) & ~(ALIGNMENT - 1)` in 32-bit arithmetic. -/
def roundUpSize (size : Nat) : Except Stop Nat :=
  if size = 0 then .error (.assertionFailure .roundUpSize)
  else
    let size := if size < minReqSize then minReqSize else size
    .ok ((size + alignment - 1) % 2 ^ 32 / alignment * alignment)

/-! Tags.  The low two bits of the leading tag are flags. -/

def markFree (memory : ByteMemory) (block : Nat) : ByteMemory :=
  memory.store block (memory.load block / 2 * 2)

def markAllocated (memory : ByteMemory) (block : Nat) : ByteMemory :=
  memory.store block (memory.load block / 2 * 2 + 1)

def isAllocated (memory : ByteMemory) (block : Nat) : Bool :=
  memory.load block % 2 = 1

def getSize (memory : ByteMemory) (block : Nat) : Except Stop Nat :=
  let size := memory.load block / 4 * 4
  if memory.load (block + size - 4) = size then .ok size
  else .error (.assertionFailure .getSize)

def setSizeTags (memory : ByteMemory) (block size : Nat) : ByteMemory :=
  (memory.store block (memory.load block % 4 ||| size)).store
    (block + size / 4 * 4 - 4) size

/-- `block->prev = NULL; block->next = NULL`. -/
def clearLinks (memory : ByteMemory) (block : Nat) : ByteMemory :=
  (memory.store (prevField block) 0).store (nextField block) 0

/-! Regions and free lists. -/

/-- Takes a region from the reserve blocks and writes its two fenceposts and
the one block between them. -/
def requestBlock (s : State) (totalSize : Nat) : Except Stop (Nat × State) := do
  let totalSize := totalSize + minReqSize * 2
  let totalSize := (totalSize + archPageSize - 1) / archPageSize * archPageSize
  let (block, s) ← allocateFromReserveBlocks s totalSize
  if block = 0 then .error .panicOutOfHeap
  else
    let leftFence := block
    let actualBlock := block + minReqSize
    let rightFence := block + (totalSize - minReqSize)
    let memory := setSizeTags s.memory leftFence minReqSize
    let memory := setSizeTags memory actualBlock (totalSize - 2 * minReqSize)
    let memory := setSizeTags memory rightFence minReqSize
    let memory := clearLinks memory actualBlock
    let memory := markAllocated memory leftFence
    let memory := markAllocated memory rightFence
    let memory := markFree memory actualBlock
    .ok (actualBlock, s.setMemory memory)

def removeBlock (s : State) (index block : Nat) : Except Stop State :=
  let prev := s.memory.load (prevField block)
  let next := s.memory.load (nextField block)
  if prev = 0 ∧ next = 0 then
    if s.headBlock index = block then .ok (s.setHead index 0)
    else .error (.assertionFailure .removeBlock)
  else if prev = 0 then
    .ok ((s.setHead index next).setMemory
      (s.memory.store (prevField next) 0))
  else if next = 0 then
    .ok (s.setMemory (s.memory.store (nextField prev) 0))
  else
    .ok (s.setMemory
      ((s.memory.store (nextField prev) next).store (prevField next) prev))

/-- The last branch-free part of `AddBlock`: push the block on its list. -/
def insertBlock (s : State) (index block : Nat) : State :=
  let head := s.headBlock index
  let memory := s.memory.store (prevField block) 0
  let memory := memory.store (nextField block) head
  let memory := if head ≠ 0 then memory.store (prevField head) block else memory
  (s.setHead index block).setMemory (markFree memory block)

/-- Grow `block` to `size`, clear its links and mark it free, as each merging
branch of `AddBlock` does before it calls `AddBlock` again. -/
def mergeInto (s : State) (block size : Nat) : State :=
  s.setMemory (markFree (clearLinks (setSizeTags s.memory block size) block)
    block)

/-- `AddBlock`, cut off after a number of nested calls. -/
def addBlock : Nat → State → Nat → Except Stop (Nat × State)
  | 0, _, _ => .error .recursionLimit
  | fuel + 1, s, block => do
      let size ← getSize s.memory block
      let index ← getInsertionIndex (subSize size metadataTotal)
      let prev := block - s.memory.load (block - 4) / 4 * 4
      let next := block + size / 4 * 4
      if isAllocated s.memory prev ∧ isAllocated s.memory next then
        .ok (block, insertBlock s index block)
      else if isAllocated s.memory prev then
        let nextIndex ← getInsertionIndex
          (subSize (← getSize s.memory next) metadataTotal)
        let s ← removeBlock s nextIndex next
        let nextSize ← getSize s.memory next
        addBlock fuel (mergeInto s block (size + nextSize)) block
      else if isAllocated s.memory next then
        let prevIndex ← getInsertionIndex
          (subSize (← getSize s.memory prev) metadataTotal)
        let s ← removeBlock s prevIndex prev
        let prevSize ← getSize s.memory prev
        addBlock fuel (mergeInto s prev (size + prevSize)) prev
      else
        let prevIndex ← getInsertionIndex
          (subSize (← getSize s.memory prev) metadataTotal)
        let s ← removeBlock s prevIndex prev
        let nextIndex ← getInsertionIndex
          (subSize (← getSize s.memory next) metadataTotal)
        let s ← removeBlock s nextIndex next
        let prevSize ← getSize s.memory prev
        let nextSize ← getSize s.memory next
        addBlock fuel (mergeInto s prev (size + prevSize + nextSize)) prev

/-- Nested calls of `AddBlock` the model follows. -/
def addBlockDepth : Nat := 4

def allocateBlock (s : State) (block index userRequestedSize : Nat) :
    Except Stop (Nat × State) := do
  if block = 0 then .error (.assertionFailure .allocateBlockNull)
  else
    let totalSize := userRequestedSize + metadataTotal
    let blockSize ← getSize s.memory block
    if blockSize < totalSize then
      .error (.assertionFailure .allocateBlockSize)
    else if blockSize - totalSize < minReqSize + metadataTotal then
      let s ← removeBlock s index block
      let memory := setSizeTags s.memory block blockSize
      .ok (block, s.setMemory (markAllocated memory block))
    else
      let s ← removeBlock s index block
      let leftover := blockSize - totalSize
      let memory := setSizeTags s.memory block leftover
      let allocatedBlock := block + leftover / 4 * 4
      let memory := setSizeTags memory allocatedBlock totalSize
      let memory := markAllocated memory allocatedBlock
      let memory := markFree memory block
      let (_, s) ← addBlock addBlockDepth (s.setMemory memory) block
      .ok (allocatedBlock, s)

def findBlock (s : State) (userRequestedSize : Nat) :
    Except Stop (Nat × State) := do
  let minIndex ← getSmallestListIndexThatFits userRequestedSize
  match (List.range' minIndex (totalNumFreeLists - minIndex)).find?
      (fun i => s.headBlock i != 0) with
  | some i => allocateBlock s (s.headBlock i) i userRequestedSize
  | none =>
    match freeListBlockSizes[minIndex + 1]? with
    | none => .error .outOfBounds
    | some limit =>
      let (sysBlock, s) ← requestBlock s (limit + metadataTotal)
      let sysIndex ← getInsertionIndex
        (subSize (← getSize s.memory sysBlock) metadataTotal)
      if s.headBlock sysIndex = 0 then
        allocateBlock (s.setHead sysIndex sysBlock) sysBlock sysIndex
          userRequestedSize
      else .error (.assertionFailure .findBlock)

/-- `AllocHeapEx`; `zero` is the flag `HEAP_ZERO`.  `NULL` is 0. -/
def allocHeapEx (s : State) (size : Nat) (zero : Bool) :
    Except Stop (Nat × State) := do
  if size = 0 then .ok (0, s)
  else
    let size ← roundUpSize size
    let (block, s) ← findBlock s size
    let s := { s with
      outstandingAllocations := s.outstandingAllocations + 1 }
    if block % alignment = 0 then
      let ptr := block + metadataLeading
      .ok (ptr, if zero then s.setMemory (s.memory.fill ptr size 0) else s)
    else .error (.assertionFailure .allocHeapEx)

def allocHeap (s : State) (size : Nat) : Except Stop (Nat × State) :=
  allocHeapEx s size false

def allocHeapZero (s : State) (size : Nat) : Except Stop (Nat × State) :=
  allocHeapEx s size true

def freeHeap (s : State) (ptr : Nat) : Except Stop State := do
  if ptr = 0 then .ok s
  else
    let block := ptr - metadataLeading
    let (_, s) ← addBlock addBlockDepth
      (s.setMemory (clearLinks s.memory block)) block
    .ok { s with outstandingAllocations := s.outstandingAllocations - 1 }

/-- The static `bootstrap_memory_area`: page aligned, not at address zero and
inside the 32-bit address space. -/
structure BootstrapArea where
  address : Nat
  aligned : address % archPageSize = 0
  nonzero : address ≠ 0
  bounded : address + bootstrapSize ≤ 2 ^ 32

/-- The heap before the first call: zeroed static memory, empty lists and one
valid reserve block. -/
def initialState (area : BootstrapArea) : State where
  memory := fun _ => 0
  reserveBlocks := fun i =>
    if i = 0 then
      { address := area.address, size := bootstrapSize, valid := true }
    else { address := 0, size := 0, valid := false }
  headBlock := fun _ => 0
  outstandingAllocations := 0
  regions := []

end Heap

end Merlon
