/-
Relocating a driver, from `kernel/arch/x86/elf/elf.c` and
`kernel/util/driver.c`.  At first load every relocation is done and recorded;
the table of the records is sorted by address, and a page that is read from the
file again is relocated from it.  Memory is what the addresses hold; the
permissions that are set around each write are left out.
-/
import Merlon.Library.ByteMemory
import Merlon.Libc.SearchSort
import Mathlib.Data.List.Induction

namespace Merlon.Drivers

def pageSize : Nat := 4096

/-- An entry of a relocation table. -/
structure Rel where
  address : Nat
  value : Nat
  deriving DecidableEq, Repr

/-- `R_386_32`, `R_386_PC32`, `R_386_RELATIVE`, or another type. -/
inductive Kind where
  | absolute
  | pcRelative
  | relative
  | other
  deriving DecidableEq, Repr

/-- What `ElfGetSymbolValue` ends with: a value, an error, or a division by
zero. -/
inductive SymbolValue where
  | value (symbolValue : Nat)
  | error
  | stopped
  deriving DecidableEq, Repr

/-- A relocation of the file, with the value of its symbol. -/
structure Relocation where
  offset : Nat
  kind : Kind
  symbol : SymbolValue
  deriving DecidableEq, Repr

/-- The sums `DO_386_32`, `DO_386_PC32` and `DO_386_RELATIVE`. -/
def Kind.value (kind : Kind) (base symbol word address : Nat) : Option Nat :=
  match kind with
  | .absolute => some ((symbol + word) % Libc.sizeTop)
  | .pcRelative => some ((symbol + word + Libc.sizeTop - address) % Libc.sizeTop)
  | .relative => some ((base + word) % Libc.sizeTop)
  | .other => none

/-- How a part of the relocation pass ends: it goes on, it returns `false`, or
it stops the kernel. -/
inductive Ended where
  | success
  | failure
  | stopped
  deriving DecidableEq, Repr

/-- The memory after a part of the relocation pass, with the entries in the
order in which they were added to the table. -/
structure Performed where
  memory : ByteMemory
  entries : List Rel
  ended : Ended

/-- `ElfPerformRelocation`.  For a type that it does not know it writes a zero,
also to the table, before it fails. -/
def elfPerformRelocation (base : Nat) (memory : ByteMemory) (relocation : Relocation) : Performed :=
  let address := (base + relocation.offset) % Libc.sizeTop
  match relocation.symbol with
  | .stopped => ⟨memory, [], .stopped⟩
  | .error => ⟨memory, [], .failure⟩
  | .value symbol =>
    match relocation.kind.value base symbol (memory.load address) address with
    | none => ⟨memory.store address 0, [⟨address, 0⟩], .failure⟩
    | some value => ⟨memory.store address value, [⟨address, value⟩], .success⟩

/-- The loop of `ElfPerformRelocations` over the relocations of a section. -/
def elfPerformRelocations (base : Nat) : ByteMemory → List Relocation → Performed
  | memory, [] => ⟨memory, [], .success⟩
  | memory, relocation :: rest =>
    let step := elfPerformRelocation base memory relocation
    match step.ended with
    | .success =>
      let later := elfPerformRelocations base step.memory rest
      ⟨later.memory, step.entries ++ later.entries, later.ended⟩
    | _ => step

def sortRelocationTable (entries : List Rel) : Option (List Rel) :=
  Libc.qsort (fun a b => decide (a.address ≤ b.address)) entries

/-- How reloading a page stops: it panics, it reads outside the table, or the
page after it cannot be locked and written. -/
inductive Stop where
  | assertion
  | outOfBounds
  | fault
  deriving DecidableEq, Repr

namespace Rel

def onPage (virtual : Nat) (entry : Rel) : Bool :=
  entry.address / pageSize == virtual / pageSize

/-- The test of the loops; its second part compares an address with the number
of a page. -/
def near (virtual : Nat) (entry : Rel) : Bool :=
  entry.onPage virtual || (entry.address + Libc.sizeTop - 3) % Libc.sizeTop == virtual / pageSize

/-- The page after it is locked for this entry. -/
def locksNext (virtual : Nat) (entry : Rel) : Bool :=
  (entry.address + 5) % Libc.sizeTop / pageSize != virtual / pageSize

end Rel

def binarySearchComparator (virtual : Nat) (entry : Rel) : Ordering :=
  compare (virtual / pageSize) (entry.address / pageSize)

/-- The loop that moves back through the entries. -/
def walkBack (table : List Rel) (virtual : Nat) : Nat → Nat
  | 0 => 0
  | i + 1 =>
    match table[i + 1]? with
    | none => i + 1
    | some entry => if entry.near virtual then walkBack table virtual i else i + 1

/-- The loop that writes the values; `ready` says whether the page after this
one can be locked and written. -/
def applyFrom (virtual final : Nat) (ready : Bool) : ByteMemory → List Rel → Except Stop ByteMemory
  | _, [] => .error .outOfBounds
  | memory, entry :: rest =>
    if entry.near virtual then
      if entry.locksNext virtual ∧ ready = false then .error .fault
      else
        let memory := memory.store entry.address entry.value
        if entry.address = final then .ok memory
        else applyFrom virtual final ready memory rest
    else .ok memory

def applyRelocationsToPage (table : List Rel) (virtual : Nat) (ready : Bool)
    (memory : ByteMemory) : Except Stop ByteMemory :=
  match Libc.bsearch (binarySearchComparator virtual) table with
  | .missing => .error .assertion
  | .outside => .error .outOfBounds
  | .found i =>
    let back := walkBack table virtual i
    let start := if back = 0 then 0 else back + 1
    match table.getLast? with
    | none => .error .outOfBounds
    | some last => applyFrom virtual last.address ready memory (table.drop start)

/-- `RelocatePage`, with the tables of the loaded drivers by their relocation
points. -/
def relocatePage (drivers : Nat → Option (List Rel)) (base virtual : Nat)
    (ready : Bool) (memory : ByteMemory) : Except Stop ByteMemory :=
  match drivers base with
  | none => .error .assertion
  | some table => applyRelocationsToPage table virtual ready memory

/-- The memory after the entries have been written in order. -/
def writes (memory : ByteMemory) (entries : List Rel) : ByteMemory :=
  entries.foldl (fun memory entry => memory.store entry.address entry.value) memory

lemma writes_append (memory : ByteMemory) (earlier later : List Rel) :
    writes memory (earlier ++ later) = writes (writes memory earlier) later :=
  List.foldl_append

lemma elfPerformRelocation_writes (base : Nat) (memory : ByteMemory) (relocation : Relocation) :
    (elfPerformRelocation base memory relocation).memory =
      writes memory (elfPerformRelocation base memory relocation).entries := by
  unfold elfPerformRelocation
  dsimp only
  split
  · rfl
  · rfl
  · split <;> rfl

/-- The relocation pass does the writes that it records. -/
lemma elfPerformRelocations_writes (base : Nat) (memory : ByteMemory)
    (relocations : List Relocation) :
    (elfPerformRelocations base memory relocations).memory =
      writes memory (elfPerformRelocations base memory relocations).entries := by
  induction relocations generalizing memory with
  | nil => rfl
  | cons relocation rest ih =>
    unfold elfPerformRelocations
    dsimp only
    split
    · rw [ih, elfPerformRelocation_writes, writes_append]
    · exact elfPerformRelocation_writes base memory relocation

namespace Rel

def covers (at_ : Nat) (entry : Rel) : Bool :=
  entry.address ≤ at_ && at_ < entry.address + 4

/-- The byte that an entry writes to an address that it covers. -/
def byte (at_ : Nat) (entry : Rel) : UInt8 :=
  UInt8.ofNat (entry.value / 0x100 ^ (at_ - entry.address))

end Rel

/-- The byte that the last entry to cover an address writes there. -/
def lastByte (entries : List Rel) (at_ : Nat) : Option UInt8 :=
  (entries.reverse.find? (Rel.covers at_)).map (Rel.byte at_)

lemma store_apply (memory : ByteMemory) (entry : Rel) (at_ : Nat) :
    memory.store entry.address entry.value at_ =
      if entry.covers at_ then entry.byte at_ else memory at_ := by
  by_cases hcovers : entry.covers at_ = true
  · rw [if_pos hcovers]
    unfold Rel.covers at hcovers
    rw [Bool.and_eq_true, decide_eq_true_iff, decide_eq_true_iff] at hcovers
    obtain ⟨i, hi, hat⟩ : ∃ i, i < 4 ∧ at_ = entry.address + i :=
      ⟨at_ - entry.address, by omega, by omega⟩
    subst hat
    unfold ByteMemory.store Rel.byte
    match i with
    | 0 => simp
    | 1 => simp
    | 2 => simp
    | 3 => simp
    | i + 4 => omega
  · rw [if_neg hcovers]
    unfold Rel.covers at hcovers
    rw [Bool.and_eq_true, decide_eq_true_iff, decide_eq_true_iff] at hcovers
    exact memory.store_apply_of_outside (by omega)

lemma writes_apply (memory : ByteMemory) (entries : List Rel) (at_ : Nat) :
    writes memory entries at_ = (lastByte entries at_).getD (memory at_) := by
  induction entries using List.reverseRecOn with
  | nil => rfl
  | append_singleton entries entry ih =>
    rw [writes_append]
    change (writes memory entries).store entry.address entry.value at_ = _
    rw [store_apply, ih]
    unfold lastByte
    rw [List.reverse_append, List.reverse_singleton, List.singleton_append, List.find?_cons]
    split
    · rename_i hcovers
      rw [hcovers]
      rfl
    · rename_i hcovers
      rw [Bool.not_eq_true] at hcovers
      rw [hcovers]

end Merlon.Drivers
