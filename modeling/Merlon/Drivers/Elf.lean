/-
Loading a driver, from `kernel/arch/x86/elf/elf.c`.  The file is read as bytes
at offsets of 32 bits, and its contents are arbitrary.  Beside the memory, a load
keeps the ranges of addresses that segments and relocations are written to;
what `MapVirt` returns and what `GetSymbolAddress` knows is given.
-/
import Merlon.Drivers.Relocation

namespace Merlon.Drivers

open Libc (sizeTop)

/-- A range of addresses; they wrap around. -/
structure Span where
  start : Nat
  length : Nat
  deriving DecidableEq

def Span.Holds (span : Span) (address : Nat) : Prop :=
  ∃ i < span.length, address = (span.start + i) % sizeTop

/-- The 32-bit number at an offset of the file. -/
def word (data : ByteMemory) (offset : Nat) : Nat :=
  data.load (offset % sizeTop)

/-- The 16-bit number at an offset of the file. -/
def half (data : ByteMemory) (offset : Nat) : Nat :=
  (data (offset % sizeTop)).toNat + 0x100 * (data ((offset + 1) % sizeTop)).toNat

/-- The fields of `Elf32_Phdr` that are used. -/
structure ProgramHeader where
  type : Nat
  offset : Nat
  vaddr : Nat
  filesz : Nat
  memsz : Nat
  flags : Nat
  deriving DecidableEq

/-- The fields of `Elf32_Shdr` that are used. -/
structure SectionHeader where
  name : Nat
  type : Nat
  offset : Nat
  size : Nat
  link : Nat
  entsize : Nat
  deriving DecidableEq

def phnum (data : ByteMemory) : Nat := half data 44

def shnum (data : ByteMemory) : Nat := half data 48

def shstrndx (data : ByteMemory) : Nat := half data 50

def programHeader (data : ByteMemory) (i : Nat) : ProgramHeader :=
  let at_ := word data 28 + 32 * i
  ⟨word data at_, word data (at_ + 4), word data (at_ + 8),
    word data (at_ + 16), word data (at_ + 20), word data (at_ + 24)⟩

def sectionHeader (data : ByteMemory) (i : Nat) : SectionHeader :=
  let at_ := word data 32 + 40 * i
  ⟨word data at_, word data (at_ + 4), word data (at_ + 16),
    word data (at_ + 20), word data (at_ + 24), word data (at_ + 36)⟩

def isElfValid (data : ByteMemory) : Bool :=
  data 0 == 0x7F && data 1 == 69 && data 2 == 76 && data 3 == 70

namespace ProgramHeader

/-- `PHT_LOAD` -/
def isLoad (header : ProgramHeader) : Bool :=
  header.type == 1

/-- `PF_W` -/
def writable (header : ProgramHeader) : Bool :=
  header.flags.testBit 1

/-- `address + size + num_zero_bytes` -/
def finish (header : ProgramHeader) : Nat :=
  let numZeroBytes := (header.memsz + sizeTop - header.filesz) % sizeTop
  (header.vaddr + header.filesz + numZeroBytes) % sizeTop

end ProgramHeader

/-- The loadable segments, with their numbers. -/
def loadable (data : ByteMemory) : List (Nat × ProgramHeader) :=
  ((List.range (phnum data)).map fun i => (i, programHeader data i)).filter
    fun header => header.2.isLoad

def roundUpPage (size : Nat) : Nat :=
  (size + (pageSize - 1)) % sizeTop / pageSize * pageSize

def elfGetSizeOfImageIncludingBss (data : ByteMemory) : Nat :=
  roundUpPage ((loadable data).foldl (fun totalSize header =>
    if totalSize ≤ header.2.finish then header.2.finish else totalSize) 0)

inductive Errno where
  | einval
  | enomem
  deriving DecidableEq

/-- Bytes of the file at an address, up to a length. -/
def copyIn (memory data : ByteMemory) (address offset length : Nat) :
    ByteMemory :=
  fun at_ =>
    let i := (at_ + sizeTop - address) % sizeTop
    if i < length then data ((offset + i) % sizeTop) else memory at_

/-- What the loading of a segment did. -/
structure Segment where
  memory : ByteMemory
  spans : List Span
  result : Except Errno Unit

/-- `ElfLoadProgramHeader` for a driver; `mapped` is what `MapVirt` returns when
it is asked for the address of the segment. -/
def elfLoadProgramHeader (data memory : ByteMemory) (header : ProgramHeader)
    (relocationPoint mapped : Nat) : Segment :=
  let addr := (header.vaddr + relocationPoint) % sizeTop
  let remainder := header.filesz % pageSize
  if header.writable then
    ⟨copyIn memory data addr header.offset header.filesz, [⟨addr, header.filesz⟩], .ok ()⟩
  else if addr % pageSize ≠ 0 then ⟨memory, [], .error .einval⟩
  else
    let pages := (header.filesz - remainder) / pageSize
    let spans := if pages = 0 then [] else [⟨addr, pages * pageSize⟩]
    if pages ≠ 0 ∧ mapped ≠ addr then ⟨memory, spans, .error .enomem⟩
    else
      let memory := copyIn memory data addr header.offset (pages * pageSize)
      if remainder = 0 then ⟨memory, spans, .ok ()⟩
      else
        let rest := (addr + pages * pageSize) % sizeTop
        ⟨copyIn memory data rest (header.offset + pages * pageSize) remainder,
          spans ++ [⟨rest, remainder⟩], .ok ()⟩

/-- What the loading of the segments did. -/
structure Segments where
  memory : ByteMemory
  spans : List Span
  results : List (Except Errno Unit)

/-- The loop of `ElfLoadProgramHeaders`, which does not look at the results. -/
def elfLoadProgramHeaders (data : ByteMemory) (relocationPoint : Nat) (mapped : Nat → Nat) :
    ByteMemory → List (Nat × ProgramHeader) → Segments
  | memory, [] => ⟨memory, [], []⟩
  | memory, header :: rest =>
    let segment := elfLoadProgramHeader data memory header.2 relocationPoint (mapped header.1)
    let later := elfLoadProgramHeaders data relocationPoint mapped segment.memory rest
    ⟨later.memory, segment.spans ++ later.spans, segment.result :: later.results⟩

/-- `ElfGetSymbolValue`; `getSymbolAddress` is given the offset of the name. -/
def elfGetSymbolValue (data : ByteMemory) (getSymbolAddress : Nat → Nat)
    (table index relocationPoint : Nat) : SymbolValue :=
  if table = 0 ∨ index = 0 then .error
  else
    let symbolTable := sectionHeader data table
    let stringTable := sectionHeader data symbolTable.link
    if symbolTable.entsize = 0 then .stopped
    else if symbolTable.size / symbolTable.entsize ≤ index then .error
    else
      let symbol := symbolTable.offset + 16 * index
      let shndx := half data (symbol + 14)
      let value := word data (symbol + 4)
      if shndx = 0 then
        let name := (stringTable.offset + word data symbol) % sizeTop
        let target := getSymbolAddress name
        let info := (data ((symbol + 12) % sizeTop)).toNat
        if target = 0 then
          if (info / 16).testBit 1 then .value 0 else .error
        else .value target
      else if shndx = 0xFFF1 then .value value
      else .value ((value + relocationPoint) % sizeTop)

def kindOfType (type : Nat) : Kind :=
  match type with
  | 1 => .absolute
  | 2 => .pcRelative
  | 8 => .relative
  | _ => .other

/-- An entry of a section of relocations, with the value of its symbol. -/
def relocation (data : ByteMemory) (getSymbolAddress : Nat → Nat)
    (relSection : SectionHeader) (relocationPoint index : Nat) : Relocation :=
  let at_ := relSection.offset + 8 * index
  let info := word data (at_ + 4)
  ⟨word data at_, kindOfType (info % 0x100),
    if info / 0x100 = 0 then .value 0
    else elfGetSymbolValue data getSymbolAddress relSection.link (info / 0x100) relocationPoint⟩

/-- The name `.rel.dyn` with its final zero. -/
def relDyn : List UInt8 := [46, 114, 101, 108, 46, 100, 121, 110, 0]

/-- The section is called `.rel.dyn`. -/
def isRelDyn (data : ByteMemory) (header : SectionHeader) : Bool :=
  let name := (sectionHeader data (shstrndx data)).offset + header.name
  (List.range relDyn.length).map (fun i => data ((name + i) % sizeTop)) == relDyn

/-- The number of relocations of a section, which is signed. -/
def relCount (header : SectionHeader) : Nat :=
  let count := header.size / header.entsize
  if count < 0x80000000 then count else 0

/-- What `ElfPerformRelocations` does for a section.  It divides by the size of
an entry, looks at the name, and sorts the table that it has filled. -/
def elfRelocateSection (data : ByteMemory) (getSymbolAddress : Nat → Nat)
    (relocationPoint : Nat) (memory : ByteMemory) (header : SectionHeader) :
    Performed :=
  if header.type = 9 then
    if header.entsize = 0 ∨ shstrndx data = 0 then ⟨memory, [], .stopped⟩
    else if isRelDyn data header = false then ⟨memory, [], .success⟩
    else
      let performed := elfPerformRelocations relocationPoint memory
        ((List.range (relCount header)).map
          (relocation data getSymbolAddress header relocationPoint))
      if performed.ended = .success ∧ sortRelocationTable performed.entries = none then
        { performed with ended := .stopped }
      else performed
  else if header.type = 4 then ⟨memory, [], .failure⟩
  else ⟨memory, [], .success⟩

/-- The loop of `ElfPerformRelocations` over the sections. -/
def elfRelocateSections (data : ByteMemory) (getSymbolAddress : Nat → Nat)
    (relocationPoint : Nat) : ByteMemory → List SectionHeader → Performed
  | memory, [] => ⟨memory, [], .success⟩
  | memory, header :: rest =>
    let step := elfRelocateSection data getSymbolAddress relocationPoint memory header
    match step.ended with
    | .success =>
      let later := elfRelocateSections data getSymbolAddress relocationPoint step.memory rest
      ⟨later.memory, step.entries ++ later.entries, later.ended⟩
    | _ => step

/-- How `ElfLoad` ends, with the results for the segments. -/
structure Loading where
  memory : ByteMemory
  spans : List Span
  results : List (Except Errno Unit)
  ended : Ended

/-- `ElfLoad` for a driver; `relocationPoint` is where `MapVirt` has put the
image. -/
def elfLoad (data : ByteMemory) (getSymbolAddress : Nat → Nat)
    (mapped : Nat → Nat) (relocationPoint : Nat) (memory : ByteMemory) :
    Loading :=
  if isElfValid data = false ∨ shnum data = 0 ∨ phnum data = 0 then
    ⟨memory, [], [], .failure⟩
  else
    let segments := elfLoadProgramHeaders data relocationPoint mapped memory (loadable data)
    let performed := elfRelocateSections data getSymbolAddress relocationPoint
      segments.memory ((List.range (shnum data)).map (sectionHeader data))
    ⟨performed.memory, segments.spans ++ performed.entries.map (fun entry => ⟨entry.address, 4⟩),
      segments.results, performed.ended⟩

end Merlon.Drivers
