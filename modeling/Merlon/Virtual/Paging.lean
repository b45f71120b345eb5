/-
The x86 page tables of `kernel/arch/x86/mem/virtual.c`.  A page directory
belongs to an address space and points at page tables by their physical page;
two address spaces share a table when their directories hold the same page.
Tables are allocated on first use.
-/
import Merlon.Physical.Pages
import Merlon.Virtual.Entry

namespace Merlon.Virtual

open Physical (archPageSize allocPhys)

/-- A page table entry.  The accessed and dirty bits only rank pages for
eviction and are left out. -/
structure Pte where
  physical : Nat := 0
  present : Bool := false
  write : Bool := false
  user : Bool := false
deriving DecidableEq

/-- The page directories and tables, with the allocator they take their
memory from.  Directories are indexed by address space and table number,
tables by the physical page that holds them. -/
structure Paging where
  phys : Physical.State
  pageDirectory : Nat → Nat → Option Nat
  pageTable : Nat → Nat → Pte

namespace Paging

/-- What the processor finds for a page of an address space. -/
def lookup (p : Paging) (vas page : Nat) : Pte :=
  match p.pageDirectory vas (page / 1024) with
  | some table => p.pageTable table (page % 1024)
  | none => {}

/-- Point a directory slot at an empty table. -/
def addTable (p : Paging) (vas tableNum table : Nat) : Paging :=
  { p with
    pageDirectory := fun at_ slot =>
      if at_ = vas ∧ slot = tableNum then some table
      else p.pageDirectory at_ slot
    pageTable := fun at_ => if at_ = table then fun _ => {} else p.pageTable at_ }

def setPte (p : Paging) (table index : Nat) (pte : Pte) : Paging :=
  { p with pageTable := fun at_ slot =>
      if at_ = table ∧ slot = index then pte else p.pageTable at_ slot }

end Paging

def x86AllocatePageTable (vas tableNum : Nat) (p : Paging) : Except Physical.Stop Paging := do
  let (pageDirPhys, phys) ← allocPhys p.phys
  .ok ({ p with phys := phys }.addTable vas tableNum (pageDirPhys / archPageSize))

/-- The table and the index in it of the entry for an address. -/
def x86GetPageEntry (vas virtual : Nat) (p : Paging) :
    Except Physical.Stop ((Nat × Nat) × Paging) := do
  let tableNum := virtual / 0x400000
  let pageNum := virtual % 0x400000 / archPageSize
  match p.pageDirectory vas tableNum with
  | some table => .ok ((table, pageNum), p)
  | none =>
    let p ← x86AllocatePageTable vas tableNum p
    .ok (((p.pageDirectory vas tableNum).getD 0, pageNum), p)

def x86MapPage (vas virtual : Nat) (pte : Pte) (p : Paging) : Except Physical.Stop Paging := do
  let ((table, index), p) ← x86GetPageEntry vas virtual p
  .ok (p.setPte table index pte)

/-- The page table entry for page `i` of a mapping. -/
def VasEntry.pte (e : VasEntry) (i : Nat) : Pte where
  physical := if e.physical = 0 then 0
    else (e.physical + i * archPageSize) % addressLimit
  present := e.inRam
  write := (!e.cow && e.write) || e.allowTempWrite
  user := e.user

/-- The loop of `ArchUpdateMapping` from page `i` on. -/
def mapFrom (vas : Nat) (e : VasEntry) : Nat → Nat → Paging → Except Physical.Stop Paging
  | 0, _, p => .ok p
  | count + 1, i, p => do
      let p ← x86MapPage vas ((e.virtual + i * archPageSize) % addressLimit) (e.pte i) p
      mapFrom vas e count (i + 1) p

def archUpdateMapping (vas : Nat) (e : VasEntry) (p : Paging) : Except Physical.Stop Paging :=
  if e.numPages > 1 then mapFrom vas e e.numPages.toNat 0 p
  else x86MapPage vas e.virtual { e.pte 0 with physical := e.physical } p

def archUnmap (vas : Nat) (e : VasEntry) (p : Paging) : Except Physical.Stop Paging :=
  x86MapPage vas e.virtual {} p

end Merlon.Virtual
