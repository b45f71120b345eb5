/-
Loading a program into its address space: `load_program_headers` of execve.c,
with `mmap`, `mprotect` and the system calls behind them.  The loader runs in
the process, so beside the address space there is the memory as the process
sees it: a page that was just mapped reads as zero, and copies are stores.
-/
import Merlon.Drivers.Elf
import Merlon.Sys.Mprotect

namespace Merlon.Loader

open List

open Physical (archPageSize)
open Virtual
open Mapping (mmap mmapFlags userFlags vmFlags bitIf badTarget)
open Drivers (ProgramHeader programHeader phnum copyIn)
open Vfs (archUserAreaBase archUserAreaLimit)

/-! The loader. -/

/-- The process that loads: its address space, and what it reads at each
address. -/
structure Process where
  vm : Vm
  memory : ByteMemory

abbrev Load (α : Type) := StateT Process (Except Stop) α

/-- A system call. -/
def call {α : Type} (act : Kernel α) : Load α := fun process =>
  match act process.vm with
  | .ok (value, vm) => .ok (value, { process with vm := vm })
  | .error stop => .error stop

inductive LoadErrno where
  | enoexec
  | enomem
  | mprotect (errno : Errno)
  deriving DecidableEq

/-- `PF_X`, `PF_R` and `PF_W` as `PROT_` bits. -/
def prot (header : ProgramHeader) : BitVec 32 :=
  bitIf (header.flags.testBit 0) 1 ||| bitIf (header.flags.testBit 2) 2 |||
    bitIf (header.flags.testBit 1) 4

/-- `size + num_zero_bytes` -/
def length (header : ProgramHeader) : Nat :=
  let numZeroBytes := (header.memsz + addressLimit - header.filesz) % addressLimit
  (header.filesz + numZeroBytes) % addressLimit

/-- One round of the loop.  The protection is set for the segments that are
writable. -/
def loadProgramHeader (vas : Nat) (data : ByteMemory)
    (header : ProgramHeader) : Load (Option LoadErrno) :=
  if !header.isLoad then pure none
  else if header.vaddr % archPageSize ≠ 0 then pure (some .enoexec)
  else do
    let mapped ← call (mmap vas (fun _ => none) header.vaddr (length header)
      (prot header ||| 4) (16 ||| 64) 0xFFFFFFFF 0 none none)
    match mapped with
    | .error _ => return some .enomem
    | .ok ret =>
      modify fun process => { process with
        memory := copyIn (process.memory.fill ret (bytesToPages (length header) * archPageSize) 0)
          data ret header.offset header.filesz }
      if header.writable then
        let res ← call (mprotect vas header.vaddr (length header) (prot header))
        return res.map .mprotect
      else return none

/-- The loop of `load_program_headers`. -/
def loadFrom (vas : Nat) (data : ByteMemory) : List ProgramHeader → Load (Option LoadErrno)
  | [] => pure none
  | header :: rest => do
      let res ← loadProgramHeader vas data header
      match res with
      | some errno => return some errno
      | none => loadFrom vas data rest

def programHeaders (data : ByteMemory) : List ProgramHeader :=
  (range (phnum data)).map (programHeader data)

def loadProgramHeaders (vas : Nat) (data : ByteMemory) : Load (Option LoadErrno) :=
  loadFrom vas data (programHeaders data)

/-! What the loader should leave. -/

/-- The page is one of the segment's. -/
def HasPage (header : ProgramHeader) (page : Nat) : Prop :=
  header.vaddr / archPageSize ≤ page ∧ page * archPageSize < header.vaddr + header.memsz

instance (header : ProgramHeader) (page : Nat) : Decidable (HasPage header page) :=
  inferInstanceAs (Decidable (_ ∧ _))

/-- The permissions that `p_flags` gives. -/
def protection (header : ProgramHeader) : Protection :=
  ⟨header.flags.testBit 2, header.flags.testBit 1, header.flags.testBit 0⟩

/-- The file's bytes, followed by zeros. -/
def byte (data : ByteMemory) (header : ProgramHeader) (i : Nat) : UInt8 :=
  if i < header.filesz then data ((header.offset + i) % addressLimit) else 0

/-- The segment is in memory as its header asks. -/
structure Loaded (vas : Nat) (data : ByteMemory) (process : Process)
    (header : ProgramHeader) : Prop where
  permissions : ∀ page, HasPage header page →
    process.vm.protection vas page = some (protection header)
  contents : ∀ page, HasPage header page → ∀ at_, at_ / archPageSize = page →
    process.memory at_ = byte data header (at_ - header.vaddr)

/-- The headers of a program that fits an address space: its segments are page
aligned, are not longer in the file than in memory and do not begin at address
zero, and their pages are apart from each other and from those that are
mapped. -/
structure Valid (vas : Nat) (s : Vm) (headers : List ProgramHeader) : Prop where
  aligned : ∀ header ∈ headers, header.isLoad = true → header.vaddr % archPageSize = 0
  sized : ∀ header ∈ headers, header.isLoad = true → header.filesz ≤ header.memsz
  placed : ∀ header ∈ headers, header.isLoad = true → header.vaddr ≠ 0
  apart : headers.Pairwise fun first second =>
    first.isLoad = true → second.isLoad = true → ∀ page, HasPage first page → ¬ HasPage second page
  free : ∀ header ∈ headers, header.isLoad = true →
    ∀ page < 2 ^ 20, HasPage header page → s.protection vas page = none

/-! What the system calls do. -/

section Calls

variable {s s' : Vm} {vas : Nat}

/-- `mprotect` that succeeds sets the permissions of the pages of the range. -/
lemma mprotect_protected {addr len : Nat} {header : ProgramHeader} (hshape : s.Shape)
    (hcall : mprotect vas addr len (prot header) s = .ok (none, s')) :
    Protected s vas (addr / archPageSize) (bytesToPages len) (protection header) s' := by
  have hflags : (vmFlags (mprotectFlags (prot header))).protection = protection header := by
    unfold prot protection
    generalize header.flags.testBit 0 = exec
    generalize header.flags.testBit 1 = write
    generalize header.flags.testBit 2 = read
    cases exec <;> cases write <;> cases read <;> rfl
  rw [← hflags]
  obtain ⟨_, _, hchanged⟩ := sysMprotect_changed
    (fun _ _ _ _ => ⟨trivial, trivial⟩) (fun _ _ => trivial) hshape (fun _ _ _ => trivial) hcall
  exact hchanged.sets hshape fun e => protection_changePermissions e _

/-- `mmap` of free pages without a file that succeeds maps them there. -/
lemma mmap_protected {addr length ret fd : Nat} {header : ProgramHeader}
    (hshape : s.Shape) (haligned : addr % archPageSize = 0) (hpos : addr ≠ 0)
    (hfree : ∀ page < 2 ^ 20, addr / archPageSize ≤ page →
      page * archPageSize < addr + length → s.protection vas page = none)
    (hcall : mmap vas (fun _ => none) addr length (prot header ||| 4)
      (16 ||| 64) fd 0 none none s = .ok (.ok ret, s')) :
    ret = addr ∧ addr + length < archUserAreaLimit ∧
      Protected s vas (addr / archPageSize) (bytesToPages length)
        (protection header).writable s' := by
  have hflags : (userFlags (mmapFlags (prot header ||| 4)
      (16 ||| 64))).protection = (protection header).writable ∧
      (mmapFlags (prot header ||| 4) (16 ||| 64)).getLsbD 5 = false ∧
      (userFlags (mmapFlags (prot header ||| 4) (16 ||| 64))).lock = false := by
    unfold prot protection
    generalize header.flags.testBit 0 = exec
    generalize header.flags.testBit 1 = write
    generalize header.flags.testBit 2 = read
    cases exec <;> cases write <;> cases read <;> exact ⟨rfl, rfl, rfl⟩
  rcases Mapping.mmap_cases hcall with ⟨⟨_, ⟨⟩⟩, _⟩ | ⟨file, mapped, _, _, htarget, _, hmap, hback⟩
  have hlimit : addr + length < archUserAreaLimit := by
    simp only [badTarget, Bool.or_eq_false_iff, Bool.and_eq_false_imp,
      bne_iff_ne, decide_eq_false_iff_not] at htarget
    unfold addressLimit archUserAreaLimit at *
    omega
  cases hchecks : s.mapVirtError 0
      (userFlags (mmapFlags (prot header ||| 4) (16 ||| 64))) file 0 with
  | some errno =>
    rw [Mapping.mapVirtEx_refused hchecks] at hmap
    cases hmap
    cases hback
  | none =>
    have hinside := inside_of_limit haligned hlimit
    obtain ⟨rfl, hprotected⟩ := mapVirtEx_protected hshape hflags.2.2 rfl hpos haligned hinside
      (fun page hle hlt => hfree page (by omega) hle
        ((lt_bytesToPages_iff haligned hlimit hle).mp hlt)) hchecks hmap
    rw [hflags.1] at hprotected
    unfold Mapping.writeBack at hback
    rw [if_neg hpos] at hback
    cases hback
    exact ⟨rfl, hlimit, hprotected⟩

end Calls

/-! What the loader does. -/

section Loading

variable {vas : Nat} {data : ByteMemory} {header : ProgramHeader}
  {before between after : Process} {headers : List ProgramHeader}

lemma call_eq_ok {α : Type} {act : Kernel α} {value : α} : call act before = .ok (value, after) ↔
    act before.vm = .ok (value, after.vm) ∧ after.memory = before.memory := by
  unfold call
  obtain ⟨vm, memory⟩ := after
  cases act before.vm with
  | error stop => simp
  | ok result =>
    simp only [Except.ok.injEq, Process.mk.injEq, Prod.ext_iff]
    tauto

lemma length_eq (hsized : header.filesz ≤ header.memsz)
    (hmemsz : header.memsz < addressLimit) : length header = header.memsz := by
  unfold length
  unfold addressLimit at hmemsz ⊢
  dsimp only
  omega

lemma protection_eq_writable_iff :
    protection header = (protection header).writable ↔ header.writable = true := by
  unfold protection Protection.writable ProgramHeader.writable
  simp only [Protection.mk.injEq, true_and, and_true]

/-- Loading leaves every segment writable, and the other pages alone. -/
structure Loads (vas : Nat) (data : ByteMemory) (headers : List ProgramHeader)
    (before after : Process) : Prop where
  shape : after.vm.Shape
  inside : ∀ header ∈ headers, header.isLoad = true → ∀ page, HasPage header page → page < 2 ^ 20
  permissions : ∀ header ∈ headers, header.isLoad = true →
    ∀ page, HasPage header page → after.vm.protection vas page = some (protection header).writable
  contents : ∀ header ∈ headers, header.isLoad = true → ∀ page, HasPage header page →
    ∀ at_, at_ / archPageSize = page → after.memory at_ = byte data header (at_ - header.vaddr)
  others : ∀ page < 2 ^ 20, (∀ header ∈ headers, header.isLoad = true → ¬ HasPage header page) →
    after.vm.protection vas page = before.vm.protection vas page ∧
    ∀ at_, at_ / archPageSize = page → after.memory at_ = before.memory at_

lemma Loads.refl (hshape : before.vm.Shape) (hload : header.isLoad = false) :
    Loads vas data [header] before before := by
  have hnone : ∀ other ∈ [header], other.isLoad = true → False := by
    intro other hmem hother
    rw [mem_singleton.mp hmem, hload] at hother
    cases hother
  exact ⟨hshape, fun other hmem hother => (hnone other hmem hother).elim,
    fun other hmem hother => (hnone other hmem hother).elim,
    fun other hmem hother => (hnone other hmem hother).elim, fun _ _ _ => ⟨rfl, fun _ _ => rfl⟩⟩

/-- The bytes of a segment that was copied into fresh pages. -/
lemma copyIn_fill {memory : ByteMemory} {at_ : Nat} (haligned : header.vaddr % archPageSize = 0)
    (hsized : header.filesz ≤ header.memsz)
    (hlimit : header.vaddr + header.memsz < archUserAreaLimit) (hat : at_ / archPageSize < 2 ^ 20) :
    copyIn (memory.fill header.vaddr (bytesToPages header.memsz * archPageSize) 0) data header.vaddr
    header.offset header.filesz at_ =
      if HasPage header (at_ / archPageSize)
      then byte data header (at_ - header.vaddr) else memory at_ := by
  have htop : Libc.sizeTop = addressLimit := rfl
  unfold copyIn
  dsimp only
  split_ifs with hcopied hpage hpage
  · obtain ⟨hfirst, _⟩ := hpage
    have hi : (at_ + Libc.sizeTop - header.vaddr) % Libc.sizeTop = at_ - header.vaddr := by
      rw [htop]
      unfold addressLimit
      unfold archPageSize at *
      omega
    rw [hi] at hcopied ⊢
    rw [byte, if_pos hcopied, htop]
  · exfalso
    apply hpage
    unfold HasPage
    rw [htop] at hcopied
    unfold addressLimit at hcopied
    unfold archUserAreaLimit at hlimit
    unfold archPageSize at *
    omega
  · obtain ⟨hfirst, hlast⟩ := hpage
    have hbyte : ¬ at_ - header.vaddr < header.filesz := by
      rw [htop] at hcopied
      unfold addressLimit at hcopied
      unfold archPageSize at *
      omega
    rw [byte, if_neg hbyte, ByteMemory.fill, if_pos]
    have hlt := (lt_bytesToPages_iff haligned hlimit hfirst).mpr hlast
    unfold archPageSize at *
    omega
  · refine ByteMemory.fill_apply_of_outside memory ?_
    by_contra hinside
    apply hpage
    have hfirst : header.vaddr / archPageSize ≤ at_ / archPageSize :=
      Nat.div_le_div_right (by omega)
    refine ⟨hfirst, (lt_bytesToPages_iff haligned hlimit hfirst).mp ?_⟩
    unfold archPageSize at *
    omega

/-- A segment whose pages were mapped and filled. -/
lemma Loads.of_mapped (hload : header.isLoad = true) (haligned : header.vaddr % archPageSize = 0)
    (hsized : header.filesz ≤ header.memsz)
    (hlimit : header.vaddr + header.memsz < archUserAreaLimit)
    (hprotected : Protected before.vm vas (header.vaddr / archPageSize)
      (bytesToPages header.memsz) (protection header).writable after.vm)
    (hmemory : after.memory = copyIn (before.memory.fill header.vaddr
      (bytesToPages header.memsz * archPageSize) 0) data header.vaddr header.offset header.filesz) :
    Loads vas data [header] before after := by
  have hinside : ∀ page, HasPage header page → page < 2 ^ 20 := by
    rintro page ⟨hfirst, hlast⟩
    have := (lt_bytesToPages_iff haligned hlimit hfirst).mpr hlast
    have := inside_of_limit haligned hlimit
    omega
  have hrange : ∀ page, (header.vaddr / archPageSize ≤ page ∧
      page < header.vaddr / archPageSize + bytesToPages header.memsz) ↔
      HasPage header page := fun page =>
    and_congr_right (lt_bytesToPages_iff haligned hlimit)
  refine ⟨hprotected.shape, ?_, ?_, ?_, ?_⟩
  · intro other hmem _
    rw [mem_singleton.mp hmem]
    exact hinside
  · intro other hmem _ page hpage
    rw [mem_singleton.mp hmem] at hpage ⊢
    rw [hprotected.pages page (hinside page hpage), protectRange, if_pos ((hrange page).mpr hpage)]
  · rintro other hmem _ page hpage at_ rfl
    rw [mem_singleton.mp hmem] at hpage ⊢
    rw [hmemory, copyIn_fill haligned hsized hlimit (hinside _ hpage), if_pos hpage]
  · intro page hpage hother
    have hnot : ¬ HasPage header page := fun hhas => hother header
      (mem_singleton_self header) hload hhas
    refine ⟨?_, ?_⟩
    · rw [hprotected.pages page hpage, protectRange, if_neg (mt (hrange page).mp hnot)]
    · rintro at_ rfl
      rw [hmemory, copyIn_fill haligned hsized hlimit hpage, if_neg hnot]

/-- One round that succeeds. -/
lemma loadProgramHeader_loads (hshape : before.vm.Shape) (hmemsz : header.memsz < addressLimit)
    (hvalid : Valid vas before.vm [header])
    (hcall : loadProgramHeader vas data header before = .ok (none, after)) :
    Loads vas data [header] before after := by
  unfold loadProgramHeader at hcall
  split at hcall
  · rename_i hload
    cases hcall
    exact Loads.refl hshape (by simpa using hload)
  rename_i hload
  have hload : header.isLoad = true := by simpa using hload
  split at hcall
  · cases hcall
  rename_i haligned
  have haligned := not_not.mp haligned
  have hmem := mem_singleton_self header
  have hsized := hvalid.sized header hmem hload
  rw [length_eq hsized hmemsz] at hcall
  obtain ⟨mapped, mapping, hmap, hcall⟩ := state_bind_eq_ok_iff.mp hcall
  obtain ⟨hmap, hmemory⟩ := call_eq_ok.mp hmap
  cases mapped with
  | error status => cases hcall
  | ok ret =>
    obtain ⟨rfl, hlimit, hmapped⟩ := mmap_protected hshape haligned
      (hvalid.placed header hmem hload)
      (fun page hlt hfirst hlast => hvalid.free header hmem hload page hlt ⟨hfirst, hlast⟩) hmap
    obtain ⟨_, copied, hcopy, hcall⟩ := state_bind_eq_ok_iff.mp hcall
    cases hcopy
    dsimp only at hcall
    rw [hmemory] at hcall
    split at hcall
    · rename_i hwritable
      obtain ⟨res, _, hset, hreturn⟩ := state_bind_eq_ok_iff.mp hcall
      obtain ⟨hset, hsame⟩ := call_eq_ok.mp hset
      cases res with
      | some errno => cases hreturn
      | none =>
        cases hreturn
        have hprotected := mprotect_protected hmapped.shape hset
        rw [protection_eq_writable_iff.mpr hwritable] at hprotected
        exact Loads.of_mapped hload haligned hsized hlimit (hmapped.trans hprotected) hsame
    · cases hcall
      exact Loads.of_mapped hload haligned hsized hlimit hmapped rfl

lemma Valid.of_mem {s : Vm} (hvalid : Valid vas s headers) (hmem : header ∈ headers) :
    Valid vas s [header] := by
  refine ⟨?_, ?_, ?_, pairwise_singleton _ _, ?_⟩
  all_goals
    intro other hother
    rw [mem_singleton.mp hother]
  · exact hvalid.aligned header hmem
  · exact hvalid.sized header hmem
  · exact hvalid.placed header hmem
  · exact hvalid.free header hmem

/-- The other headers still fit when a segment has been loaded. -/
lemma Valid.rest (hvalid : Valid vas before.vm (header :: headers))
    (hloads : Loads vas data [header] before between) : Valid vas between.vm headers := by
  obtain ⟨hapart, hrest⟩ := pairwise_cons.mp hvalid.apart
  refine ⟨fun other hmem => hvalid.aligned other (mem_cons_of_mem _ hmem),
    fun other hmem => hvalid.sized other (mem_cons_of_mem _ hmem),
    fun other hmem => hvalid.placed other (mem_cons_of_mem _ hmem), hrest, ?_⟩
  intro other hmem hload page hlt hpage
  rw [(hloads.others page hlt ?_).1]
  · exact hvalid.free other (mem_cons_of_mem _ hmem) hload page hlt hpage
  · intro first hfirst hload'
    rw [mem_singleton.mp hfirst] at hload' ⊢
    exact fun hhas => hapart other hmem hload' hload page hhas hpage

/-- Two rounds after each other. -/
lemma Loads.cons (hvalid : Valid vas before.vm (header :: headers))
    (hfirst : Loads vas data [header] before between)
    (hrest : Loads vas data headers between after) :
    Loads vas data (header :: headers) before after := by
  obtain ⟨hapart, _⟩ := pairwise_cons.mp hvalid.apart
  have hmem := mem_singleton_self header
  -- The later rounds leave the pages of the first segment alone.
  have hkept : header.isLoad = true → ∀ page, HasPage header page →
      ∀ other ∈ headers, other.isLoad = true → ¬ HasPage other page :=
    fun hload page hpage other hother hload' => hapart other hother hload hload' page hpage
  refine ⟨hrest.shape, ?_, ?_, ?_, ?_⟩
  · intro other hother
    rcases mem_cons.mp hother with rfl | hother
    · exact hfirst.inside other hmem
    · exact hrest.inside other hother
  · intro other hother hload page hpage
    rcases mem_cons.mp hother with rfl | hother
    · rw [(hrest.others page (hfirst.inside other hmem hload page hpage)
        (hkept hload page hpage)).1]
      exact hfirst.permissions other hmem hload page hpage
    · exact hrest.permissions other hother hload page hpage
  · intro other hother hload page hpage at_ hat
    rcases mem_cons.mp hother with rfl | hother
    · rw [(hrest.others page (hfirst.inside other hmem hload page hpage)
        (hkept hload page hpage)).2 at_ hat]
      exact hfirst.contents other hmem hload page hpage at_ hat
    · exact hrest.contents other hother hload page hpage at_ hat
  · intro page hpage hnone
    obtain ⟨hhead, htail⟩ := forall_mem_cons.mp hnone
    obtain ⟨hprotection, hmemory⟩ := hrest.others page hpage htail
    obtain ⟨hprotection', hmemory'⟩ := hfirst.others page hpage (forall_mem_singleton.mpr hhead)
    exact ⟨hprotection.trans hprotection',
      fun at_ hat => (hmemory at_ hat).trans (hmemory' at_ hat)⟩

lemma loadFrom_loads (hshape : before.vm.Shape)
    (hmemsz : ∀ header ∈ headers, header.memsz < addressLimit)
    (hvalid : Valid vas before.vm headers)
    (hcall : loadFrom vas data headers before = .ok (none, after)) :
    Loads vas data headers before after := by
  induction headers generalizing before with
  | nil =>
    cases hcall
    exact ⟨hshape, by simp, by simp, by simp, fun _ _ _ => ⟨rfl, fun _ _ => rfl⟩⟩
  | cons header headers ih =>
    obtain ⟨res, between, hfirst, hrest⟩ := state_bind_eq_ok_iff.mp hcall
    cases res with
    | some errno => cases hrest
    | none =>
      obtain ⟨hhead, htail⟩ := forall_mem_cons.mp hmemsz
      have hloads := loadProgramHeader_loads hshape hhead (hvalid.of_mem mem_cons_self) hfirst
      exact hloads.cons hvalid (ih hloads.shape htail (hvalid.rest hloads) hrest)

/-- A program is in memory as its headers ask exactly when all segments that
have pages are writable: the others keep the write permission that the copying
needed. -/
theorem loadProgramHeaders_loaded_iff (hshape : before.vm.Shape)
    (hvalid : Valid vas before.vm (programHeaders data))
    (hcall : loadProgramHeaders vas data before = .ok (none, after)) :
    (∀ header ∈ programHeaders data, header.isLoad = true → Loaded vas data after header) ↔
    ∀ header ∈ programHeaders data, header.isLoad = true → header.memsz ≠ 0 →
    header.writable = true := by
  have hloads := loadFrom_loads hshape ?_ hvalid hcall
  · refine forall₃_congr fun header hmem hload => ?_
    constructor
    · intro hloaded hmemsz
      have hpage : HasPage header (header.vaddr / archPageSize) := by
        refine ⟨Nat.le_refl _, ?_⟩
        have := Nat.div_mul_le_self header.vaddr archPageSize
        omega
      have hsame := (hloaded.permissions _ hpage).symm.trans
        (hloads.permissions header hmem hload _ hpage)
      exact protection_eq_writable_iff.mp (Option.some.inj hsame)
    · intro hwritable
      refine ⟨fun page hpage => ?_, hloads.contents header hmem hload⟩
      have hmemsz : header.memsz ≠ 0 := by
        obtain ⟨hfirst, hlast⟩ := hpage
        have haligned := hvalid.aligned header hmem hload
        unfold archPageSize at *
        omega
      rw [hloads.permissions header hmem hload page hpage]
      exact congrArg some (protection_eq_writable_iff.mpr (hwritable hmemsz)).symm
  · intro header hmem
    obtain ⟨i, _, rfl⟩ := mem_map.mp hmem
    exact data.load_lt _

end Loading

/-- An image with one segment of a page, of which a byte is in the file, at
0x10000000.  It may be read, and either written or executed. -/
def oneSegment (writable : Bool) : ByteMemory
  | 0 => 0x7F
  | 28 => 52
  | 44 => 1
  | 52 => 1
  | 63 => 0x10
  | 68 => 1
  | 73 => 16
  | 76 => if writable then 6 else 5
  | _ => 0

/-- A process with nothing mapped. -/
def emptyProcess : Process where
  vm := initVirt fewPages (fun _ => zeroPage) 8 (fun _ => ⟨true, true, true⟩) fun _ _ => 0
  memory := fun _ => 0

/-- The permissions of the segment's page when the loading succeeded. -/
def permissionsAfter (outcome : Except Stop (Option LoadErrno × Process)) : Option Protection :=
  match outcome with
  | .ok (none, process) => process.vm.protection 0 0x10000
  | .ok (some _, _) | .error _ => none

lemma eq_of_permissionsAfter {outcome : Except Stop (Option LoadErrno × Process)}
    {protection : Protection} (h : permissionsAfter outcome = some protection) :
    ∃ process, outcome = .ok (none, process) ∧
    process.vm.protection 0 0x10000 = some protection := by
  unfold permissionsAfter at h
  split at h
  · exact ⟨_, rfl, h⟩
  · cases h
  · cases h

lemma oneSegment_headers (writable : Bool) : programHeaders (oneSegment writable) =
      [⟨1, 0, 0x10000000, 1, 0x1000, if writable then 6 else 5⟩] := by
  cases writable <;> decide +kernel

lemma oneSegment_valid (writable : Bool) :
    Valid 0 emptyProcess.vm (programHeaders (oneSegment writable)) := by
  rw [oneSegment_headers]
  refine ⟨?_, ?_, ?_, pairwise_singleton _ _, ?_⟩
  all_goals
    intro header hmem
    rw [mem_singleton.mp hmem]
  · exact fun _ => show 0x10000000 % archPageSize = 0 by decide
  · exact fun _ => show 1 ≤ 0x1000 by decide
  · exact fun _ => show 0x10000000 ≠ 0 by decide
  · exact fun _ _ _ _ => rfl

/-- A segment that may be read and executed can be written after loading. -/
theorem readOnly_not_loaded : emptyProcess.vm.Shape ∧
    Valid 0 emptyProcess.vm (programHeaders (oneSegment false)) ∧
    ∃ after, loadProgramHeaders 0 (oneSegment false) emptyProcess = .ok (none, after) ∧
    ∃ header ∈ programHeaders (oneSegment false), header.isLoad = true ∧
    ¬ Loaded 0 (oneSegment false) after header := by
  refine ⟨initVirt_shape _ _ _ _ _, oneSegment_valid false, ?_⟩
  obtain ⟨after, hcall, hprotection⟩ := eq_of_permissionsAfter
    (show permissionsAfter (loadProgramHeaders 0 (oneSegment false)
      emptyProcess) = some ⟨true, true, true⟩ by decide +kernel)
  refine ⟨after, hcall, ⟨1, 0, 0x10000000, 1, 0x1000, 5⟩, ?_, rfl, ?_⟩
  · rw [oneSegment_headers]
    exact mem_singleton_self _
  · intro hloaded
    have hsame := hloaded.permissions 0x10000 (by decide)
    rw [hprotection] at hsame
    exact absurd hsame (by decide)

/-- A segment that may be read and written. -/
theorem readWrite_loaded :
    ∃ after, loadProgramHeaders 0 (oneSegment true) emptyProcess = .ok (none, after) ∧
    ∀ header ∈ programHeaders (oneSegment true), header.isLoad = true →
    Loaded 0 (oneSegment true) after header := by
  obtain ⟨after, hcall, _⟩ := eq_of_permissionsAfter
    (show permissionsAfter (loadProgramHeaders 0 (oneSegment true)
      emptyProcess) = some ⟨true, true, false⟩ by decide +kernel)
  refine ⟨after, hcall, (loadProgramHeaders_loaded_iff
    (initVirt_shape _ _ _ _ _) (oneSegment_valid true) hcall).mpr ?_⟩
  rw [oneSegment_headers]
  intro header hmem _ _
  rw [mem_singleton.mp hmem]
  rfl

end Merlon.Loader
