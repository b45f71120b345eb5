/-
The virtual memory manager of `kernel/mem/virtual.c` with the swapfile's slot
allocator of `swapfile.c`.  A call runs to its end with the lock of the
current address space held; the disk accesses it defers are queued and run
later, a read in two parts around the transfer.  Entries live in a store
indexed by numbers that are never reused, so that a use after `FreeHeap` is
seen; the trees hold these numbers.
-/
import Mathlib.Logic.Function.Basic
import Merlon.Adt.Tree
import Merlon.Virtual.Paging

namespace Merlon.Virtual

open Function

open Physical (archPageSize)
open Adt (TreeNode)

/-- The assertions of the source, named after the function that makes them. -/
inductive Check where
  | virtAvlComparator
  | avlBalance
  | addMapping
  | splitLargePageEntry
  | bringIntoMemory
  | bringIntoMemoryFromSwapfile
  | bringInBlankPage
  | lockVirtEx
  | dereferenceEntry
  | evictPage
  | handleVirtFault
  | performDeferredAccess
  | copyVasRecursive
deriving DecidableEq

/-- Every way a call ends without returning.  A page fault taken while the
lock is held panics; a null pointer and a freed entry are caught when they are
followed. -/
inductive Stop where
  | assertionFailure (check : Check)
  | physical (stop : Physical.Stop)
  | panicOutOfSwapfile
  | panicCannotLockMemory
  | panicCowWithoutAllocation
  | panicNotImplemented
  | panicForkHardware
  | panicInvalidIrql
  | nullPointer
  | useAfterFree
deriving DecidableEq

inductive Errno where
  | einval
  | eacces
  | eexist
  | enomem
deriving DecidableEq

/-- The contents of a page. -/
abbrev Page := Fin archPageSize → UInt8

def zeroPage : Page := fun _ => 0

/-- What the mapping calls ask of an open file. -/
structure FileNode where
  regularOrBlock : Bool
  canRead : Bool
  canWrite : Bool
deriving DecidableEq

/-- `struct defer_disk_access`.  A read whose transfer is over waits as
`loaded`, with its data in a page at `target`. -/
inductive Access where
  | write (file offset address : Nat)
  | read (file offset address : Nat) (entry : Option Nat) (deallocateSwapOnRead : Bool)
  | loaded (file offset address : Nat) (entry : Option Nat)
      (deallocateSwapOnRead : Bool) (target : Nat)
deriving DecidableEq

/-- The state of the memory manager.  Address spaces are numbered from 0, the
kernel's, up to `vasCount`; files are numbered, and a file is a byte for every
offset, zero past its end. -/
structure Vm where
  paging : Paging
  frames : Nat → Page
  entries : Nat → Option VasEntry
  nextEntry : Nat
  mappings : Nat → TreeNode Nat
  globalVasMappings : TreeNode Nat
  vasCount : Nat
  localAllocator : Nat
  kernelAllocator : Nat
  swapfileBitmap : Nat → Bool
  bitsInBitmap : Nat
  numberOnSwapfile : Int
  files : Nat → FileNode
  disk : Nat → Nat → UInt8
  deferred : List Access

/-- The state `InitVirt` leaves: the kernel's address space, and nothing mapped
through the memory manager. -/
def initVirt (paging : Paging) (frames : Nat → Page) (bitsInBitmap : Nat)
    (files : Nat → FileNode) (disk : Nat → Nat → UInt8) : Vm where
  paging := paging
  frames := frames
  entries := fun _ => none
  nextEntry := 0
  mappings := fun _ => .nil
  globalVasMappings := .nil
  vasCount := 1
  localAllocator := 0x20000000
  kernelAllocator := 0xC4000000
  swapfileBitmap := fun _ => false
  bitsInBitmap := bitsInBitmap
  numberOnSwapfile := 0
  files := files
  disk := disk
  deferred := []

abbrev Kernel (α : Type) := StateT Vm (Except Stop) α

def fail {α : Type} (stop : Stop) : Kernel α :=
  fun _ => .error stop

def check (condition : Bool) (name : Check) : Kernel Unit :=
  if condition then pure () else fail (.assertionFailure name)

/-! Memory: the page allocator, the page tables and the pages themselves. -/

def allocPhys : Kernel Nat := fun s =>
  match Physical.allocPhys s.paging.phys with
  | .ok (addr, phys) => .ok (addr, { s with paging.phys := phys })
  | .error stop => .error (.physical stop)

def deallocPhys (addr : Nat) : Kernel Unit := fun s =>
  match Physical.deallocPhys s.paging.phys addr with
  | .ok phys => .ok ((), { s with paging.phys := phys })
  | .error stop => .error (.physical stop)

/-- Run a function of the page tables. -/
def withPaging (update : Paging → Except Physical.Stop Paging) : Kernel Unit := fun s =>
  match update s.paging with
  | .ok paging => .ok ((), { s with paging := paging })
  | .error stop => .error (.physical stop)

/-- What the kernel reads at a page. -/
def loadPage (vas virtual : Nat) : Kernel Page := fun s =>
  let pte := s.paging.lookup vas (virtual / archPageSize)
  if pte.present then .ok (s.frames (pte.physical / archPageSize), s)
  else .error .panicInvalidIrql

def Vm.setFrame (s : Vm) (frame : Nat) (contents : Page) : Vm :=
  { s with frames := update s.frames frame contents }

/-- The kernel fills a page; it cannot write to a read-only one either. -/
def storePage (vas virtual : Nat) (contents : Page) : Kernel Unit := fun s =>
  let pte := s.paging.lookup vas (virtual / archPageSize)
  if pte.present && pte.write then
    .ok ((), s.setFrame (pte.physical / archPageSize) contents)
  else .error .panicInvalidIrql

/-! The store of entries. -/

def Vm.setEntry (s : Vm) (id : Nat) (e : VasEntry) : Vm :=
  { s with entries := update s.entries id (some e) }

def readEntry (id : Nat) : Kernel VasEntry := fun s =>
  match s.entries id with
  | some e => .ok (e, s)
  | none => .error .useAfterFree

def writeEntry (id : Nat) (e : VasEntry) : Kernel Unit := fun s =>
  .ok ((), s.setEntry id e)

def modifyEntry (id : Nat) (change : VasEntry → VasEntry) : Kernel Unit := do
  let e ← readEntry id
  writeEntry id (change e)

def Vm.addEntry (s : Vm) (e : VasEntry) : Vm :=
  { s.setEntry s.nextEntry e with nextEntry := s.nextEntry + 1 }

/-- `AllocHeap` of an entry with the given fields. -/
def newEntry (e : VasEntry) : Kernel Nat := fun s =>
  .ok (s.nextEntry, s.addEntry e)

def Vm.dropEntry (s : Vm) (id : Nat) : Vm :=
  { s with entries := update s.entries id none }

def freeEntry (id : Nat) : Kernel Unit := fun s =>
  .ok ((), s.dropEntry id)

/-! The trees. -/

/-- The entry behind a pointer that is known to be live. -/
def Vm.entry (s : Vm) (id : Nat) : VasEntry :=
  (s.entries id).getD (dummyEntry 0)

def Vm.comparator (s : Vm) (a b : Nat) : Int :=
  virtAvlComparator (s.entry a) (s.entry b)

def Vm.tree (s : Vm) (vas : Nat) (global : Bool) : TreeNode Nat :=
  if global then s.globalVasMappings else s.mappings vas

def Vm.setTree (s : Vm) (vas : Nat) (global : Bool) (tree : TreeNode Nat) :
    Vm :=
  if global then { s with globalVasMappings := tree }
  else { s with mappings := update s.mappings vas tree }

/-- Comparing an entry at an address with those of a tree reads them all and
asserts that the address is page aligned. -/
def checkTree (tree : TreeNode Nat) (virtual : Nat) : Kernel Unit := fun s =>
  if tree.toList.any fun id => (s.entries id).isNone then .error .useAfterFree
  else if tree.toList ≠ [] ∧ virtual % archPageSize ≠ 0 then
    .error (.assertionFailure .virtAvlComparator)
  else .ok ((), s)

/-- Replace a tree by what an operation of tree.c made of it. -/
def replaceTree (vas : Nat) (global : Bool) (tree : Option (TreeNode Nat)) : Kernel Unit := fun s =>
  match tree with
  | some tree => .ok ((), s.setTree vas global tree)
  | none => .error (.assertionFailure .avlBalance)

def treeInsert (vas : Nat) (global : Bool) (id : Nat) : Kernel Unit := do
  let s ← get
  checkTree (s.tree vas global) (s.entry id).virtual
  replaceTree vas global ((s.tree vas global).avlInsert s.comparator id)

def insertIntoAvl (vas id : Nat) : Kernel Unit := do
  let e ← readEntry id
  treeInsert vas e.global id

def deleteFromAvl (vas id : Nat) : Kernel Unit := do
  let e ← readEntry id
  let s ← get
  checkTree (s.tree vas e.global) e.virtual
  replaceTree vas e.global ((s.tree vas e.global).avlDelete s.comparator id)

/-- `TreeGet` with a one-page entry. -/
def Vm.treeGet (s : Vm) (tree : TreeNode Nat) (virtual : Nat) : Option Nat :=
  tree.avlGet (fun here _ => virtAvlComparator (s.entry here) (dummyEntry virtual)) 0

def Vm.treeContains (s : Vm) (tree : TreeNode Nat) (virtual : Nat) : Bool :=
  tree.avlContains (fun here _ => virtAvlComparator (s.entry here) (dummyEntry virtual)) 0

/-- One of the pages from an address on is in the tree. -/
def Vm.treeMeets (s : Vm) (tree : TreeNode Nat) (virtual pages : Nat) : Bool :=
  (List.range pages).any fun i =>
    s.treeContains tree ((virtual + i * archPageSize) % addressLimit)

def isRangeInUse (vas virtual pages : Nat) : Kernel Bool := do
  if pages = 0 then return false
  let s ← get
  checkTree (s.mappings vas) virtual
  if s.treeMeets (s.mappings vas) virtual pages then return true
  checkTree s.globalVasMappings virtual
  return s.treeMeets s.globalVasMappings virtual pages

/-- The entry `GetVirtEntry` finds. -/
def Vm.getVirtEntry (s : Vm) (vas virtual : Nat) : Option Nat :=
  let aligned := virtual / archPageSize * archPageSize
  match s.treeGet (s.mappings vas) aligned with
  | some id => some id
  | none => s.treeGet s.globalVasMappings aligned

def getVirtEntry (vas virtual : Nat) : Kernel (Option Nat) := do
  let s ← get
  checkTree (s.mappings vas) 0
  checkTree s.globalVasMappings 0
  return s.getVirtEntry vas virtual

/-! Changing mappings. -/

/-- The part of an entry from its page `pages` on. -/
def VasEntry.skip (e : VasEntry) (pages : Nat) : VasEntry :=
  { e with
    numPages := e.numPages - pages
    virtual := (e.virtual + pages * archPageSize) % addressLimit
    physical := if e.physical = 0 then 0
      else (e.physical + pages * archPageSize) % addressLimit
    fileOffset := if e.file then e.fileOffset + pages * archPageSize
      else e.fileOffset }

/-- Split off what comes before a page. -/
def splitBefore (vas targetPage id : Nat) : Kernel Unit := do
  let e ← readEntry id
  if e.page < targetPage then
    let numBeforehand := targetPage - e.page
    let pre ← newEntry { e with numPages := numBeforehand }
    writeEntry id (e.skip numBeforehand)
    insertIntoAvl vas pre

/-- Split off what comes after the first `numToLeave` pages. -/
def splitAfter (vas id numToLeave : Nat) : Kernel Unit := do
  let e ← readEntry id
  if e.numPages > numToLeave then
    let post ← newEntry (e.skip numToLeave)
    writeEntry id { e with numPages := numToLeave }
    insertIntoAvl vas post

def splitLargePageEntryIntoMultiple (vas virtual id numToLeave : Nat) : Kernel Unit := do
  let e ← readEntry id
  if e.numPages = 1 then return
  check (!e.allocated) .splitLargePageEntry
  check (!e.swapfile) .splitLargePageEntry
  splitBefore vas (virtual / archPageSize) id
  splitAfter vas id numToLeave

/-- The new value of a permission bit. -/
def changeBit (set clear old : Bool) : Bool :=
  if set then true else if clear then false else old

def VasEntry.changePermissions (e : VasEntry) (set clear : VmFlags) :
    VasEntry :=
  { e with
    read := changeBit set.read clear.read e.read
    write := changeBit set.write clear.write e.write
    exec := changeBit set.exec clear.exec e.exec
    user := changeBit set.user clear.user e.user }

/-- Only the bits `SetVirtPermissions` may change. -/
def VmFlags.permissionsOnly (flags : VmFlags) : VmFlags :=
  { read := flags.read, write := flags.write, exec := flags.exec,
    user := flags.user }

/-- The file of an entry can be written. -/
def Vm.canWrite (s : Vm) (e : VasEntry) : Bool :=
  match e.fileNode with
  | some file => (s.files file).canWrite
  | none => false

def setVirtPermissionsEx (vas virtual : Nat) (set clear : VmFlags) : Kernel (Option Errno) := do
  if set.permissionsOnly ≠ set ∨ clear.permissionsOnly ≠ clear then
    return some .einval
  match ← getVirtEntry vas virtual with
  | none => return some .enomem
  | some id =>
    let e ← readEntry id
    let s ← get
    if e.file && !s.canWrite e && set.write && !e.relocatable then
      return some .eacces
    splitLargePageEntryIntoMultiple vas virtual id 1
    modifyEntry id (·.changePermissions set clear)
    let e ← readEntry id
    withPaging (archUpdateMapping vas e)
    return none

def getVirtPermissions (vas virtual : Nat) : Kernel VmFlags := do
  match ← getVirtEntry vas virtual with
  | none => return {}
  | some id =>
    let e ← readEntry id
    return {
      read := e.read, write := e.write, exec := e.exec, lock := e.lock
      file := e.file, user := e.user, localVas := !e.global
      relocatable := e.relocatable }

/-- The entry `AddMapping` fills in. -/
def VmFlags.newEntry (flags : VmFlags) (physical virtual : Nat) (allocated : Bool)
    (relocationBase : Nat) (file : Option Nat) (pos number : Nat) : VasEntry where
  virtual := virtual
  inRam := flags.lock
  allocated := allocated
  file := flags.file
  read := flags.read
  write := flags.write
  exec := flags.exec
  user := flags.user
  global := !flags.localVas
  relocatable := flags.relocatable
  firstLoad := flags.relocatable
  shareOnFork := flags.shared
  lock := flags.lock
  numPages := (BitVec.ofNat 32 number).toInt
  fileOffset := pos
  fileNode := file
  physical := physical
  swapfileOffset := if flags.relocatable then relocationBase else 0xDEADDEAD
  refCount := 1

/-- Zero a locked page.  The permission stays changed: once the page has been
made writable, `entry->write` is true and the second call is never made. -/
def clearLocked (vas id : Nat) : Kernel Unit := do
  let e ← readEntry id
  let _ ← setVirtPermissionsEx vas e.virtual { write := true } {}
  storePage vas e.virtual zeroPage
  let e ← readEntry id
  if !e.write then
    let _ ← setVirtPermissionsEx vas e.virtual {} { write := true }

def addMapping (vas physical virtual : Nat) (flags : VmFlags)
    (file : Option Nat) (pos number : Nat) : Kernel Unit := do
  check (!(file.isSome && !flags.file)) .addMapping
  let relocationBase := if flags.relocatable then physical else 0
  let physical := if flags.relocatable then 0 else physical
  let takes := flags.lock && physical == 0
  let physical ← if takes then allocPhys else pure physical
  let id ← newEntry (flags.newEntry physical virtual takes relocationBase file pos number)
  insertIntoAvl vas id
  let e ← readEntry id
  withPaging (archUpdateMapping vas e)
  if flags.lock && !flags.mapHardware then clearLocked vas id

def allocVirtRange (pages : Nat) (localVas : Bool) : Kernel Nat := fun s =>
  if localVas then
    .ok (s.localAllocator, { s with
      localAllocator := (s.localAllocator + pages * archPageSize) % addressLimit })
  else
    .ok (s.kernelAllocator, { s with
      kernelAllocator :=
        (s.kernelAllocator + pages * archPageSize) % addressLimit })

/-- The checks of the arguments at the start of `MapVirtEx`. -/
def Vm.mapVirtError (s : Vm) (physical : Nat) (flags : VmFlags)
    (file : Option Nat) (pos : Nat) : Option Errno :=
  if (physical != 0 && !flags.mapHardware && !flags.relocatable)
      || (flags.mapHardware && !flags.lock)
      || (flags.file && flags.mapHardware)
      || (flags.file && file.isNone)
      || (flags.file && flags.lock)
      || (!flags.file && (file.isSome || pos != 0))
      || (flags.relocatable && !flags.file)
      || (flags.relocatable && flags.user)
      || (flags.relocatable && physical == 0)
      || (flags.lock && flags.shared)
      || (flags.hardIoFail && flags.user)
      || (flags.hardIoFail && !flags.file) then some .einval
  else
    match file with
    | none => none
    | some file =>
      let node := s.files file
      if !node.regularOrBlock || !node.canRead
          || (!node.canWrite && flags.write) then some .eacces
      else none

/-- The address a mapping is made at, none when the range asked for is taken
and no other will do. -/
def chooseRange (vas virtual pages : Nat) (flags : VmFlags) : Kernel (Option Nat) := do
  if virtual = 0 then
    return some (← allocVirtRange pages flags.localVas)
  if ← isRangeInUse vas virtual pages then
    if flags.fixedVirt then return none
    return some (← allocVirtRange pages flags.localVas)
  return some virtual

/-- The loop of `MapVirtEx` from page `i` on. -/
def addMappings (vas physical virtual : Nat) (flags : VmFlags)
    (file : Option Nat) (pos number : Nat) : Nat → Nat → Kernel Unit
  | 0, _ => pure ()
  | count + 1, i => do
      addMapping vas (if flags.relocatable then physical
          else if physical = 0 then 0
          else (physical + i * archPageSize) % addressLimit)
        ((virtual + i * archPageSize) % addressLimit) flags file
        (pos + i * archPageSize) number
      addMappings vas physical virtual flags file pos number count (i + 1)

def VmFlags.multiPage (flags : VmFlags) (pages : Nat) : Bool :=
  (!flags.lock || flags.mapHardware) && decide (3 ≤ pages)

/-- The address and the error; the address is 0 when there is an error. -/
def mapVirtEx (vas physical virtual pages : Nat) (flags : VmFlags)
    (file : Option Nat) (pos : Nat) : Kernel (Nat × Option Errno) := do
  let s ← get
  match s.mapVirtError physical flags file pos with
  | some error => return (0, some error)
  | none =>
    match ← chooseRange vas virtual pages flags with
    | none => return (0, some .eexist)
    | some virtual =>
      if flags.multiPage pages then
        addMappings vas physical virtual flags file pos pages 1 0
      else
        addMappings vas physical virtual flags file pos 1 pages 0
      return (virtual, none)

/-! Disk accesses that run later. -/

def defer (access : Access) : Kernel Unit := fun s =>
  .ok ((), { s with deferred := s.deferred ++ [access] })

/-- The flags of the pages that hold data on its way to or from the disk. -/
def temporaryFlags : VmFlags where
  lock := true
  read := true
  write := true

def deferDiskWrite (vas oldAddr file offset : Nat) : Kernel Unit := do
  let (newAddr, _) ←
    mapVirtEx vas 0 0 1 { temporaryFlags with recursive := true } none 0
  let contents ← loadPage vas oldAddr
  storePage vas newAddr contents
  defer (.write file offset newAddr)

def deferDiskRead (vas newAddr file offset : Nat) (deallocateSwapOnRead : Bool) : Kernel Unit := do
  let entry ← getVirtEntry vas newAddr
  defer (.read file offset newAddr entry deallocateSwapOnRead)

/-- The file the swap slots are kept in. -/
def swapfile : Nat := 0

/-- The first free slot among the first `count` after `i`. -/
def findSlot (bitmap : Nat → Bool) : Nat → Nat → Option Nat
  | 0, _ => none
  | count + 1, i => if !bitmap i then some i else findSlot bitmap count (i + 1)

def allocSwap : Kernel Nat := fun s =>
  match findSlot s.swapfileBitmap s.bitsInBitmap 0 with
  | some i => .ok (i, { s with
      numberOnSwapfile := s.numberOnSwapfile + 1
      swapfileBitmap := update s.swapfileBitmap i true })
  | none => .error .panicOutOfSwapfile

def deallocSwap (index : Nat) : Kernel Unit := fun s =>
  .ok ((), { s with
    numberOnSwapfile := s.numberOnSwapfile - 1
    swapfileBitmap := update s.swapfileBitmap index false })

/-! Page faults. -/

/-- How `BringIntoMemory` ends: with success, after raising the signal for an
access violation (which also returns success), or with `EINVAL`. -/
inductive Brought where
  | success
  | unhandledFault
  | einval
deriving DecidableEq

/-- What is left of an entry that several address spaces hold when one of them
gets its own copy. -/
def VasEntry.leaveCow (e : VasEntry) : VasEntry :=
  { e with
    refCount := e.refCount - 1
    cow := if e.refCount - 1 = 1 then false else e.cow }

def bringIntoMemoryFromCow (vas id : Nat) : Kernel Unit := do
  let e ← readEntry id
  if e.refCount = 1 then
    writeEntry id { e with cow := false }
    withPaging (archUpdateMapping vas { e with cow := false })
  else
    let pageData ← loadPage vas e.virtual
    writeEntry id e.leaveCow
    let physical ← allocPhys
    if !e.allocated then fail .panicCowWithoutAllocation
    let copy := { e.leaveCow with
      refCount := 1, physical := physical, allocated := true, cow := false }
    let new ← newEntry copy
    deleteFromAvl vas id
    insertIntoAvl vas new
    withPaging (archUpdateMapping vas copy)
    storePage vas copy.virtual pageData

def bringIntoMemoryFromFile (vas id faultingVirt : Nat) : Kernel Unit := do
  splitLargePageEntryIntoMultiple vas faultingVirt id 1
  modifyEntry id ({ · with loadInProgress := true })
  let e ← readEntry id
  withPaging (archUpdateMapping vas e)
  match e.fileNode with
  | none => fail .nullPointer
  | some file => deferDiskRead vas e.virtual file e.fileOffset false

def bringIntoMemoryFromSwapfile (vas id : Nat) : Kernel Unit := do
  let e ← readEntry id
  check (!e.file) .bringIntoMemoryFromSwapfile
  modifyEntry id ({ · with loadInProgress := true })
  let e ← readEntry id
  withPaging (archUpdateMapping vas e)
  deferDiskRead vas e.virtual swapfile e.swapfileOffset true

/-- The fault is one the entry's permissions do not allow. -/
def VasEntry.refuses (e : VasEntry) (faultType : VmFlags) : Bool :=
  (faultType.read && !e.read) || (faultType.write && !e.write)
    || (faultType.exec && !e.exec)

def bringInBlankPage (vas id faultingVirt : Nat) (faultType : VmFlags) : Kernel Brought := do
  let e ← readEntry id
  if e.refuses faultType then return .unhandledFault
  splitLargePageEntryIntoMultiple vas faultingVirt id 1
  let e ← readEntry id
  check (e.numPages == 1) .bringInBlankPage
  let physical ← allocPhys
  check (!e.swapfile) .bringInBlankPage
  let e := { e with
    physical := physical, allocated := true, inRam := true
    allowTempWrite := true }
  writeEntry id e
  withPaging (archUpdateMapping vas e)
  storePage vas e.virtual zeroPage
  writeEntry id { e with allowTempWrite := false }
  withPaging (archUpdateMapping vas { e with allowTempWrite := false })
  return .success

def bringIntoMemory (vas id : Nat) (allowCow : Bool) (faultingVirt : Nat)
    (faultType : VmFlags) : Kernel Brought := do
  let e ← readEntry id
  if e.cow && allowCow then
    check (e.numPages == 1) .bringIntoMemory
    bringIntoMemoryFromCow vas id
    return .success
  else if e.file && !e.inRam then
    bringIntoMemoryFromFile vas id faultingVirt
    return .success
  else if e.swapfile then
    check (e.numPages == 1) .bringIntoMemory
    bringIntoMemoryFromSwapfile vas id
    return .success
  else if !e.inRam then
    bringInBlankPage vas id faultingVirt faultType
  else return .einval

/-- How `HandleVirtFault` ends.  `retry` lets the thread fault again while the
page is being loaded. -/
inductive FaultOutcome where
  | resolved
  | retry
  | segv
deriving DecidableEq

/-- The assertions `HandleVirtFault` makes about the flags of an entry. -/
def VasEntry.flagsConfigured (e : VasEntry) : Bool :=
  !(e.inRam && e.swapfile) && !(e.file && e.swapfile) && !(!e.inRam && e.lock) && !(e.cow && e.lock)

def handleVirtFault (vas faultingVirt : Nat) (faultType : VmFlags) : Kernel FaultOutcome := do
  match ← getVirtEntry vas faultingVirt with
  | none => return .segv
  | some id =>
    let e ← readEntry id
    if e.loadInProgress then return .retry
    check e.flagsConfigured .handleVirtFault
    match ← bringIntoMemory vas id faultType.write faultingVirt faultType with
    | .success => return .resolved
    | .unhandledFault => return .segv
    | .einval => return .segv

/-! Locking. -/

def lockVirtEx (vas virtual : Nat) : Kernel Bool := do
  match ← getVirtEntry vas virtual with
  | none => fail .nullPointer
  | some id =>
    let e ← readEntry id
    if !e.inRam then
      splitLargePageEntryIntoMultiple vas virtual id 1
      if (← bringIntoMemory vas id true virtual {}) = .einval then
        fail .panicCannotLockMemory
      let e ← readEntry id
      check e.inRam .lockVirtEx
    let e ← readEntry id
    writeEntry id { e with lock := true }
    return e.lock

def unlockVirtEx (vas virtual : Nat) : Kernel Unit := do
  match ← getVirtEntry vas virtual with
  | none => fail .nullPointer
  | some id =>
    splitLargePageEntryIntoMultiple vas virtual id 1
    modifyEntry id ({ · with lock := false })

/-! Unmapping. -/

/-- What `DereferenceEntry` does once nobody refers to the entry. -/
def destroyEntry (vas id : Nat) : Kernel Unit := do
  let e ← readEntry id
  if e.file && e.write && e.inRam then
    match e.fileNode with
    | none => fail .nullPointer
    | some file => deferDiskWrite vas e.virtual file e.fileOffset
  let e ← readEntry id
  if e.inRam then withPaging (archUnmap vas e)
  if e.swapfile then
    check (!e.allocated) .dereferenceEntry
    deallocSwap (e.physical / archPageSize)
  if e.allocated then
    check (!e.swapfile) .dereferenceEntry
    deallocPhys e.physical
  withPaging fun p => do
    let (_, p) ← x86GetPageEntry vas e.virtual p
    .ok p
  deleteFromAvl vas id
  freeEntry id

def dereferenceEntry (vas id : Nat) : Kernel Unit := do
  let e ← readEntry id
  check (decide (e.refCount > 0)) .dereferenceEntry
  writeEntry id { e with refCount := e.refCount - 1 }
  if e.refCount - 1 = 0 then destroyEntry vas id

/-- The loop of `UnmapVirtEx` from page `i` on. -/
def unmapFrom (vas virtual : Nat) (allowNonExist : Bool) : Nat → Nat → Kernel (Option Errno)
  | 0, _ => pure none
  | count + 1, i => do
      match ← getVirtEntry vas ((virtual + i * archPageSize) % addressLimit) with
      | none =>
        if allowNonExist then unmapFrom vas virtual allowNonExist count (i + 1)
        else return some .einval
      | some id =>
        splitLargePageEntryIntoMultiple vas virtual id 1
        dereferenceEntry vas id
        unmapFrom vas virtual allowNonExist count (i + 1)

def unmapVirtEx (vas virtual pages : Nat) (allowNonExist : Bool) : Kernel (Option Errno) :=
  unmapFrom vas virtual allowNonExist pages 0

def archUserStackLimit : Nat := 0x10000000

def archProgLoaderBase : Nat := 0xBFC00000

/-- `WipeUsermodePages` walks the tree that its own deletions change, through
nodes that may be freed.  `visited` is the list of the entries it comes to, in
whatever order that is. -/
def wipeUsermodePages (vas : Nat) (visited : List Nat) : Kernel Unit :=
  visited.forM fun id => do
    let e ← readEntry id
    if archUserStackLimit ≤ e.virtual ∧ e.virtual < archProgLoaderBase then
      dereferenceEntry vas id

/-! Eviction. -/

def evictPage (vas id : Nat) : Kernel Unit := do
  let e ← readEntry id
  check (!e.lock) .evictPage
  check (!e.cow) .evictPage
  check e.inRam .evictPage
  if e.file then
    if e.write && !e.relocatable then
      match e.fileNode with
      | none => fail .nullPointer
      | some file => deferDiskWrite vas e.virtual file e.fileOffset
    modifyEntry id ({ · with inRam := false, allocated := false })
    let e ← readEntry id
    deallocPhys e.physical
    withPaging (archUnmap vas e)
  else
    modifyEntry id
      ({ · with inRam := false, swapfile := true, allocated := false })
    let slot ← allocSwap
    let offset := slot * archPageSize
    deferDiskWrite vas e.virtual swapfile offset
    modifyEntry id ({ · with swapfileOffset := offset })
    let e ← readEntry id
    withPaging (archUnmap vas e)
    deallocPhys e.physical

/-- The entries `EvictVirt` chooses from. -/
def VasEntry.evictable (e : VasEntry) : Bool :=
  !e.lock && e.allocated && e.inRam

/-! Deferred accesses. -/

/-- The page of a file at an offset. -/
def Vm.readDisk (s : Vm) (file offset : Nat) : Page :=
  fun i => s.disk file (offset + i)

def Vm.writeDisk (s : Vm) (file offset : Nat) (contents : Page) : Vm :=
  { s with disk := update s.disk file fun at_ =>
      if h : at_ - offset < archPageSize then
        if offset ≤ at_ then contents ⟨at_ - offset, h⟩ else s.disk file at_
      else s.disk file at_ }

/-- `PerformDeferredAccess` of a write. -/
def performWrite (vas file offset address : Nat) : Kernel Unit := do
  let contents ← loadPage vas address
  modify (·.writeDisk file offset contents)
  let _ ← unmapVirtEx vas address 1 false

/-- `PerformDeferredAccess` of a read, up to the end of the transfer. -/
def performRead (vas file offset address : Nat) (entry : Option Nat)
    (deallocateSwapOnRead : Bool) : Kernel Unit := do
  let (target, _) ← mapVirtEx vas 0 0 1 temporaryFlags none 0
  let s ← get
  storePage vas target (s.readDisk file offset)
  defer (.loaded file offset address entry deallocateSwapOnRead target)

/-- The entry once its page is in memory. -/
def VasEntry.loadedAt (e : VasEntry) (physical : Nat) : VasEntry :=
  { e with
    lock := true, physical := physical, allocated := true
    allowTempWrite := true, inRam := true, swapfile := false }

/-- `PerformDeferredAccess` of a read, from the end of the transfer on.  What
relocating a page writes to it is left out. -/
def finishRead (vas offset address : Nat) (deallocateSwapOnRead : Bool)
    (target : Nat) : Kernel Unit := do
  match ← getVirtEntry vas address with
  | none => fail .nullPointer
  | some id =>
    let e ← readEntry id
    check (e.numPages == 1) .performDeferredAccess
    check (e.swapfile || e.file) .performDeferredAccess
    let physical ← allocPhys
    let e := e.loadedAt physical
    writeEntry id e
    withPaging (archUpdateMapping vas e)
    let contents ← loadPage vas target
    storePage vas address contents
    let e := { e with allowTempWrite := false }
    writeEntry id e
    if deallocateSwapOnRead then deallocSwap (offset / archPageSize)
    let needsRelocations := e.relocatable && !e.firstLoad
    withPaging (archUpdateMapping vas e)
    if !needsRelocations then
      writeEntry id { e with
        firstLoad := false, loadInProgress := false, lock := false }
    let _ ← unmapVirtEx vas target 1 false
    if needsRelocations then
      modifyEntry id ({ · with firstLoad := false, loadInProgress := false })
      unlockVirtEx vas address

/-- Run the deferred access at a position of the queue. -/
def performDeferredAccess (vas index : Nat) : Kernel Unit := do
  let s ← get
  match s.deferred[index]? with
  | none => return
  | some access =>
    set { s with deferred := s.deferred.eraseIdx index }
    match access with
    | .write file offset address => performWrite vas file offset address
    | .read file offset address entry deallocate =>
      performRead vas file offset address entry deallocate
    | .loaded _ offset address _ deallocate target =>
      finishRead vas offset address deallocate target

/-! New address spaces. -/

/-- The entry of a page that is now in one more address space. -/
def VasEntry.share (e : VasEntry) : VasEntry :=
  { e with
    cow := if e.shareOnFork then e.cow else true
    refCount := e.refCount + 1 }

def copyEntry (vas newVas id : Nat) : Kernel Unit := do
  let e ← readEntry id
  if e.lock then
    check e.inRam .copyVasRecursive
    check (!e.shareOnFork) .copyVasRecursive
    if e.allocated then fail .panicNotImplemented else fail .panicForkHardware
  else
    writeEntry id e.share
    treeInsert newVas false id
    withPaging (archUpdateMapping vas e.share)
    withPaging (archUpdateMapping newVas e.share)

def copyVasRecursive (vas newVas : Nat) : TreeNode Nat → Kernel Unit
  | .nil => pure ()
  | .node left id right => do
      copyEntry vas newVas id
      copyVasRecursive vas newVas left
      copyVasRecursive vas newVas right

def copyVas (vas newVas : Nat) : Kernel Unit := do
  let s ← get
  copyVasRecursive vas newVas (s.mappings vas)

/-- The directory of a new address space: the kernel's tables and nothing
else. -/
def Vm.addVas (s : Vm) : Vm :=
  { s with
    vasCount := s.vasCount + 1
    mappings := update s.mappings s.vasCount .nil
    paging.pageDirectory := update s.paging.pageDirectory s.vasCount fun tableNum =>
        if 768 ≤ tableNum ∧ tableNum < 1023 then s.paging.pageDirectory 0 tableNum
        else none }

/-- `CreateVas`: a page is mapped for the directory of the new address
space. -/
def createVas (vas : Nat) : Kernel Nat := do
  let _ ← mapVirtEx vas 0 0 1 { temporaryFlags with user := true } none 0
  let s ← get
  set s.addVas
  return s.vasCount

def bytesToPages (bytes : Nat) : Nat :=
  (bytes + archPageSize - 1) % addressLimit / archPageSize

end Merlon.Virtual
