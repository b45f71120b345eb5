/-
The physical page allocator of `kernel/mem/physical.c`: a bitmap with one bit
per page frame, scanned backwards until `ReinitPhys` adds a stack of the free
page numbers, and a counter of the free pages.
-/
import Mathlib.Algebra.Group.Int.Defs
import Mathlib.Algebra.Group.Nat.Defs
import Merlon.Library.Outcome

namespace Merlon.Physical

def archPageSize : Nat := 4096

/-- `ARCH_MAX_RAM_KBS / ARCH_PAGE_SIZE * 1024`. -/
def maxMemoryPages : Nat := 1024 * 1024 * 4 / archPageSize * 1024

def bitsPerEntry : Nat := 32

/-- The assertions of the allocator, named by the function that makes them. -/
inductive Check where
  | allocateBitmapEntry
  | deallocateBitmapEntry
  | pushIndex
  | popIndex
  | deallocPhys
  | reinitPhys
deriving DecidableEq

/-- Every way a call ends without returning.  `endlessScan` is a scan of the
bitmap that has seen every page and found none free. -/
inductive Stop where
  | assertionFailure (check : Check)
  | panicOutOfPhys
  | endlessScan
deriving DecidableEq

/-- The static variables.  `allocationStack` is the array behind the pointer,
none while the pointer is null. -/
structure State where
  allocationBitmap : Nat → BitVec 32
  allocationStack : Option (Nat → Nat)
  allocationStackPointer : Nat
  pagesLeft : Nat
  totalPages : Nat
  highestPageIndex : Nat

/-! The bitmap.  A set bit is a free page. -/

def isBitmapEntryFree (s : State) (index : Nat) : Bool :=
  (s.allocationBitmap (index / bitsPerEntry)).getLsbD (index % bitsPerEntry)

/-- Replace one word of the bitmap. -/
def State.setWord (s : State) (base : Nat) (word : BitVec 32) : State :=
  { s with allocationBitmap := fun at_ =>
      if at_ = base then word else s.allocationBitmap at_ }

def allocateBitmapEntry (s : State) (index : Nat) : Except Stop State :=
  if isBitmapEntryFree s index then
    let base := index / bitsPerEntry
    let offset := index % bitsPerEntry
    .ok (s.setWord base (s.allocationBitmap base &&& ~~~(1#32 <<< offset)))
  else .error (.assertionFailure .allocateBitmapEntry)

def deallocateBitmapEntry (s : State) (index : Nat) : Except Stop State :=
  if isBitmapEntryFree s index then
    .error (.assertionFailure .deallocateBitmapEntry)
  else
    let base := index / bitsPerEntry
    let offset := index % bitsPerEntry
    .ok (s.setWord base (s.allocationBitmap base ||| (1#32 <<< offset)))

/-! The stack.  It grows upward and the pointer is past its top. -/

def pushIndex (s : State) (stack : Nat → Nat) (index : Nat) : Except Stop State :=
  if index ≤ s.highestPageIndex then
    .ok { s with
      allocationStack := some (fun at_ =>
        if at_ = s.allocationStackPointer then index else stack at_)
      allocationStackPointer := s.allocationStackPointer + 1 }
  else .error (.assertionFailure .pushIndex)

def popIndex (s : State) (stack : Nat → Nat) : Except Stop (Nat × State) :=
  if s.allocationStackPointer = 0 then .error (.assertionFailure .popIndex)
  else .ok (stack (s.allocationStackPointer - 1),
    { s with allocationStackPointer := s.allocationStackPointer - 1 })

/-! Allocation. -/

/-- The backwards scan, cut off after `fuel` pages. -/
def scanBitmap (s : State) : Nat → Nat → Except Stop Nat
  | 0, _ => .error .endlessScan
  | fuel + 1, index =>
    if isBitmapEntryFree s index then .ok index
    else scanBitmap s fuel ((index + maxMemoryPages - 1) % maxMemoryPages)

/-- The page number an allocation takes. -/
def takeIndex (s : State) : Except Stop (Nat × State) :=
  match s.allocationStack with
  | none => do
      let index ← scanBitmap s maxMemoryPages 0
      .ok (index, s)
  | some stack => popIndex s stack

/-- `AllocPhys`; the deferred eviction it may ask for runs later. -/
def allocPhys (s : State) : Except Stop (Nat × State) := do
  if s.pagesLeft = 0 then .error .panicOutOfPhys
  else
    let (index, s) ← takeIndex s
    let s ← allocateBitmapEntry s index
    .ok (index * archPageSize, { s with pagesLeft := s.pagesLeft - 1 })

def deallocPhys (s : State) (addr : Nat) : Except Stop State := do
  if addr % archPageSize = 0 then
    let page := addr / archPageSize
    let s ← deallocateBitmapEntry { s with pagesLeft := s.pagesLeft + 1 } page
    match s.allocationStack with
    | none => .ok s
    | some stack => pushIndex s stack page
  else .error (.assertionFailure .deallocPhys)

/-! Initialisation. -/

/-- An entry of the firmware's memory map. -/
structure BootMemoryEntry where
  address : Nat
  length : Nat
deriving DecidableEq

/-- The inner loop of `InitPhys`: pages from `firstPage` on, at most `count`
of them. -/
def addPages (s : State) : Nat → Nat → Except Stop State
  | 0, _ => .ok s
  | count + 1, firstPage => do
      if firstPage < maxMemoryPages then
        let s ← deallocateBitmapEntry s firstPage
        addPages { s with
          pagesLeft := s.pagesLeft + 1
          totalPages := s.totalPages + 1
          highestPageIndex := max s.highestPageIndex firstPage } count
          (firstPage + 1)
      else .ok s

/-- Sums are computed in 64 bits, page numbers are `size_t`. -/
def addRange (s : State) (range : BootMemoryEntry) : Except Stop State :=
  let firstPage := (range.address + archPageSize - 1) % 2 ^ 64 / archPageSize % 2 ^ 32
  let lastPage := (range.address + range.length) % 2 ^ 64 / archPageSize % 2 ^ 32
  addPages s (lastPage - firstPage) firstPage

/-- The static variables before `InitPhys`. -/
def bootState : State where
  allocationBitmap := fun _ => 0
  allocationStack := none
  allocationStackPointer := 0
  pagesLeft := 0
  totalPages := 0
  highestPageIndex := 0

/-- `InitPhys` over the available ranges of the memory map. -/
def initPhys (ranges : List BootMemoryEntry) : Except Stop State :=
  ranges.foldlM addRange bootState

/-- A number of allocations in a row, in the order they were made. -/
def allocMany (s : State) : Nat → Except Stop (List Nat × State)
  | 0 => .ok ([], s)
  | count + 1 => do
      let (addr, s) ← allocPhys s
      let (rest, s) ← allocMany s count
      .ok (addr :: rest, s)

/-- The loop of `ReinitPhys`: push every free page from `index` on. -/
def pushFree (s : State) : Nat → Nat → Except Stop State
  | 0, _ => .ok s
  | count + 1, index => do
      if isBitmapEntryFree s index then
        match s.allocationStack with
        | none => .ok s
        | some stack => pushFree (← pushIndex s stack index) count (index + 1)
      else pushFree s count (index + 1)

/-- `ReinitPhys` without `ReclaimBitmapSpace`.  `MapVirt` of the stack area
makes `mapped` allocations, for the stack's pages and for page tables, while
the stack pointer is still null; the array it returns holds `garbage`. -/
def reinitPhys (s : State) (mapped : Nat) (garbage : Nat → Nat) :
    Except Stop (List Nat × State) := do
  if s.allocationStack.isNone then
    let (taken, s) ← allocMany s mapped
    let s ← pushFree { s with allocationStack := some garbage } maxMemoryPages 0
    .ok (taken, s)
  else .error (.assertionFailure .reinitPhys)

end Merlon.Physical
