/-
Mapping memory for a program: `mmap` of the library, `SysMapVirt` behind it
and `MapVirtEx` behind that.  The address goes through a word of the caller,
which the kernel reads first and writes last.
-/
import Merlon.Vfs.Transfer
import Merlon.Virtual.Runs

namespace Merlon.Mapping

open Physical (archPageSize)
open Virtual
open Vfs (archUserAreaBase archUserAreaLimit)

inductive Status where
  | errno (errno : Errno)
  | ebadf
  | enosys
  deriving DecidableEq

/-- The `VM_` bits of a system call. -/
def vmFlags (flags : BitVec 32) : VmFlags where
  read := flags.getLsbD 0
  write := flags.getLsbD 1
  user := flags.getLsbD 2
  exec := flags.getLsbD 3
  lock := flags.getLsbD 4
  file := flags.getLsbD 5
  fixedVirt := flags.getLsbD 6
  mapHardware := flags.getLsbD 7
  localVas := flags.getLsbD 8
  recursive := flags.getLsbD 9
  relocatable := flags.getLsbD 10
  evictFirst := flags.getLsbD 11
  shared := flags.getLsbD 12
  hardIoFail := flags.getLsbD 13

/-- `VM_READ`, `VM_WRITE`, `VM_EXEC`, `VM_FILE`, `VM_FIXED_VIRT` and
`VM_SHARED`. -/
def sysMapVirtFlags : BitVec 32 :=
  1 ||| 2 ||| 8 ||| 32 ||| 64 ||| 4096

/-- The caller's word: what `ReadWordFromUsermode` finds in it, and how
`WriteWordToUsermode` ends. -/
structure UserWord where
  read : Except Errno Nat
  writeStatus : Option Errno

/-- The checks of the address that is asked for. -/
def badTarget (target bytes : Nat) : Bool :=
  (target != 0 && decide (target < archUserAreaBase)) ||
    (target != 0 && (decide (addressLimit ≤ target + bytes) ||
      decide (archUserAreaLimit ≤ (target + bytes) % addressLimit)))

/-- The file to map; a call without `VM_FILE` has none. -/
def fileOf (descriptor : Nat → Option Nat) (flags : BitVec 32) (fd : Nat) :
    Except Status (Option Nat) :=
  if flags.getLsbD 5 then
    match descriptor fd with
    | none => .error .ebadf
    | some file => .ok (some file)
  else .ok none

/-- The flags that `SysMapVirt` gives to `MapVirtEx`. -/
def userFlags (flags : BitVec 32) : VmFlags :=
  { vmFlags flags with user := true, localVas := true }

/-- The end of `SysMapVirt`: an address of zero is not written to the caller's
word. -/
def writeBack (target : Nat) (writeStatus : Option Errno)
    (mapped : Nat × Option Errno) : Except Status Nat :=
  if mapped.1 = 0 then
    match mapped.2 with
    | some errno => .error (.errno errno)
    | none => .ok target
  else
    match writeStatus with
    | some errno => .error (.errno errno)
    | none => .ok mapped.1

/-- `SysMapVirt`: the status, or what the caller's word holds afterwards. -/
def sysMapVirt (vas : Nat) (descriptor : Nat → Option Nat)
    (flags : BitVec 32) (bytes fd offset : Nat) (word : UserWord) : Kernel (Except Status Nat) :=
  if flags &&& ~~~ sysMapVirtFlags ≠ 0 then pure (.error (.errno .einval))
  else
    match word.read with
    | .error errno => pure (.error (.errno errno))
    | .ok target =>
      if badTarget target bytes then pure (.error (.errno .einval))
      else
        match fileOf descriptor flags fd with
        | .error status => pure (.error status)
        | .ok file => do
            let mapped ← mapVirtEx vas 0 target (bytesToPages bytes) (userFlags flags) file offset
            return writeBack target word.writeStatus mapped

/-- A bit that is set when another one is. -/
def bitIf (condition : Bool) (bit : BitVec 32) : BitVec 32 :=
  if condition then bit else 0

/-- The flags that `mmap` passes on.  `MAP_FIXED_NOREPLACE` sets
`VM_FIXED_VIRT` in `flags`, which is not passed on. -/
def mmapFlags (prot flags : BitVec 32) : BitVec 32 :=
  bitIf (prot.getLsbD 0) 8 ||| bitIf (prot.getLsbD 1) 1 |||
    bitIf (prot.getLsbD 2) 2 ||| bitIf (!flags.getLsbD 4) 32 ||| bitIf (flags.getLsbD 3) 4096

/-- `mmap`; its local variable is the word, and the kernel may fail to read or
to write it. -/
def mmap (vas : Nat) (descriptor : Nat → Option Nat) (addr length : Nat) (prot flags : BitVec 32)
    (fd offset : Nat) (readStatus writeStatus : Option Errno) : Kernel (Except Status Nat) :=
  if flags.getLsbD 5 then pure (.error .enosys)
  else
    let read :=
      match readStatus with
      | some errno => .error errno
      | none => .ok addr
    sysMapVirt vas descriptor (mmapFlags prot flags) length fd offset ⟨read, writeStatus⟩

/-- No page that a request covers is mapped. -/
def Free (s : Vm) (vas addr length : Nat) : Prop :=
  ∀ i, i < bytesToPages length → s.getVirtEntry vas (addr + i * archPageSize) = none

/-- `mmap` is refused by none of the checks that are made whatever is mapped,
and maps the file.  The word is not written when the address chosen instead of
a used one is zero. -/
structure Accepted (s : Vm) (descriptor : Nat → Option Nat)
    (addr length : Nat) (prot flags : BitVec 32) (fd offset : Nat)
    (readStatus writeStatus : Option Errno) (file : Option Nat) : Prop where
  notFixed : flags.getLsbD 5 = false
  read : readStatus = none
  write : writeStatus = none ∨ s.localAllocator = 0
  target : badTarget addr length = false
  found : fileOf descriptor (mmapFlags prot flags) fd = .ok file
  checks : s.mapVirtError 0 (userFlags (mmapFlags prot flags)) file offset = none

/-- The call fails, or it returns the address that was asked for and no page
was mapped there. -/
def FixedResult (s : Vm) (vas addr length : Nat) (outcome : Except Status Nat) :
    Prop :=
  (∃ status, outcome = .error status) ∨ outcome = .ok addr ∧ Free s vas addr length

/-- `SysMapVirt` knows all flags of `mmap`, and `VM_FIXED_VIRT` is not one of
them. -/
lemma mmapFlags_allowed (prot flags : BitVec 32) :
    mmapFlags prot flags &&& ~~~ sysMapVirtFlags = 0 ∧
    (userFlags (mmapFlags prot flags)).fixedVirt = false := by
  unfold mmapFlags
  generalize prot.getLsbD 0 = exec
  generalize prot.getLsbD 1 = read
  generalize prot.getLsbD 2 = write
  generalize flags.getLsbD 4 = anonymous
  generalize flags.getLsbD 3 = shared
  cases exec <;> cases read <;> cases write <;> cases anonymous <;>
    cases shared <;> exact ⟨rfl, rfl⟩

variable {s s' : Vm} {vas : Nat} {file : Option Nat}

/-- `IsRangeInUse` looks at the pages of the request. -/
lemma inUse_eq_false_iff {addr length : Nat} (haligned : addr % archPageSize = 0)
    (htarget : badTarget addr length = false) (hpos : addr ≠ 0) :
    (s.treeMeets (s.mappings vas) addr (bytesToPages length) ||
      s.treeMeets s.globalVasMappings addr (bytesToPages length)) = false ↔
      Free s vas addr length := by
  simp only [badTarget, Bool.or_eq_false_iff, Bool.and_eq_false_imp,
    bne_iff_ne, decide_eq_false_iff_not] at htarget
  obtain ⟨_, hlimit⟩ := htarget
  obtain ⟨hwrap, hlimit⟩ := hlimit hpos
  have hpage : ∀ i, i < bytesToPages length →
      (addr + i * archPageSize) % addressLimit = addr + i * archPageSize ∧
      (addr + i * archPageSize) / archPageSize * archPageSize = addr + i * archPageSize := by
    intro i hi
    unfold bytesToPages addressLimit archPageSize at hi
    unfold addressLimit at hwrap ⊢
    unfold archPageSize at haligned ⊢
    omega
  simp only [Vm.treeMeets, Bool.or_eq_false_iff, List.any_eq_false, List.mem_range,
    Vm.treeContains_eq, Bool.not_eq_true, Option.isSome_eq_false_iff, Option.isNone_iff_eq_none]
  constructor
  · rintro ⟨hlocal, hglobal⟩ i hi
    have hlocal := hlocal i hi
    have hglobal := hglobal i hi
    rw [(hpage i hi).1] at hlocal hglobal
    rw [Vm.getVirtEntry, (hpage i hi).2, hlocal]
    exact hglobal
  · intro hfree
    refine ⟨fun i hi => ?_, fun i hi => ?_⟩ <;>
    · have hnone := hfree i hi
      rw [Vm.getVirtEntry, (hpage i hi).2] at hnone
      rw [(hpage i hi).1]
      split at hnone
      · cases hnone
      · assumption

/-- The address that `MapVirtEx` uses when it need not be the one asked for. -/
lemma mapVirtEx_ok {physical virtual pages pos output : Nat} {flags : VmFlags}
    {error : Option Errno}
    (hcall : mapVirtEx vas physical virtual pages flags file pos s = .ok ((output, error), s'))
    (hchecks : s.mapVirtError physical flags file pos = none) (hvirtual : virtual ≠ 0)
    (hfixed : flags.fixedVirt = false) (hlocal : flags.localVas = true) : error = none ∧ output =
      if (s.treeMeets (s.mappings vas) virtual pages ||
        s.treeMeets s.globalVasMappings virtual pages) = true
      then s.localAllocator else virtual := by
  obtain ⟨_, _, hs, hcall⟩ := state_bind_eq_ok_iff.mp hcall
  cases hs
  rw [hchecks] at hcall
  obtain ⟨chosen, s₁, hchoose, hcall⟩ := state_bind_eq_ok_iff.mp hcall
  have hreturns : ∀ {place : Nat}, chosen = some place → error = none ∧ output = place := by
    rintro place rfl
    obtain ⟨_, _, _, hcall⟩ := state_bind_eq_ok_iff.mp (show ((if flags.multiPage pages then
          addMappings vas physical place flags file pos pages 1 0
        else addMappings vas physical place flags file pos 1 pages 0) >>=
          fun _ => (pure (place, none) : Kernel (Nat × Option Errno))) s₁ =
        .ok ((output, error), s') by
          rw [← hcall]
          split <;> rfl)
    cases hcall
    exact ⟨rfl, rfl⟩
  unfold chooseRange at hchoose
  rw [if_neg hvirtual] at hchoose
  obtain ⟨answer, s₂, hrange, hchoose⟩ := state_bind_eq_ok_iff.mp hchoose
  obtain ⟨rfl, rfl⟩ := isRangeInUse_ok hrange
  split at hchoose
  · rename_i hused
    rw [hfixed, hlocal] at hchoose
    obtain ⟨_, _, halloc, hpure⟩ := state_bind_eq_ok_iff.mp hchoose
    cases halloc
    cases hpure
    rw [if_pos hused]
    exact hreturns rfl
  · rename_i hunused
    cases hchoose
    rw [if_neg hunused]
    exact hreturns rfl

/-- `MapVirtEx` refuses what its checks refuse. -/
lemma mapVirtEx_refused {physical virtual pages pos : Nat} {flags : VmFlags} {errno : Errno}
    (hchecks : s.mapVirtError physical flags file pos = some errno) :
    mapVirtEx vas physical virtual pages flags file pos s = .ok ((0, some errno), s) := by
  unfold mapVirtEx
  rw [state_bind_ok (state_get s), hchecks]
  rfl

section Mmap

variable {descriptor : Nat → Option Nat} {addr length fd offset : Nat}
  {prot flags : BitVec 32} {readStatus writeStatus : Option Errno} {outcome : Except Status Nat}

/-- `mmap` fails early, or calls `MapVirtEx`. -/
lemma mmap_cases
    (hreturns : mmap vas descriptor addr length prot flags fd offset readStatus
      writeStatus s = .ok (outcome, s')) :
    (∃ status, outcome = .error status) ∧
      (∀ file, ¬ Accepted s descriptor addr length prot flags fd offset
        readStatus writeStatus file) ∨
    ∃ file mapped, flags.getLsbD 5 = false ∧ readStatus = none ∧ badTarget addr length = false ∧
      fileOf descriptor (mmapFlags prot flags) fd = .ok file ∧
      mapVirtEx vas 0 addr (bytesToPages length)
        (userFlags (mmapFlags prot flags)) file offset s = .ok (mapped, s') ∧
      outcome = writeBack addr writeStatus mapped := by
  unfold mmap at hreturns
  split at hreturns
  · rename_i hfixed
    cases hreturns
    exact .inl ⟨⟨_, rfl⟩, fun file haccepted => by
      rw [haccepted.notFixed] at hfixed
      cases hfixed⟩
  rename_i hfixed
  rw [sysMapVirt, if_neg (not_not.mpr (mmapFlags_allowed prot flags).1)] at hreturns
  cases hread : readStatus with
  | some errno =>
    rw [hread] at hreturns
    cases hreturns
    exact .inl ⟨⟨_, rfl⟩, fun file haccepted => by cases haccepted.read⟩
  | none =>
    rw [hread] at hreturns
    dsimp only at hreturns
    split at hreturns
    · rename_i htarget
      cases hreturns
      exact .inl ⟨⟨_, rfl⟩, fun file haccepted => by
        rw [haccepted.target] at htarget
        cases htarget⟩
    · rename_i htarget
      cases hfile : fileOf descriptor (mmapFlags prot flags) fd with
      | error status =>
        rw [hfile] at hreturns
        cases hreturns
        exact .inl ⟨⟨_, rfl⟩, fun file haccepted => by
          rw [haccepted.found] at hfile
          cases hfile⟩
      | ok file =>
        rw [hfile] at hreturns
        obtain ⟨mapped, s₁, hcall, hpure⟩ := state_bind_eq_ok_iff.mp hreturns
        cases hpure
        exact .inr ⟨file, mapped, Bool.eq_false_iff.mpr hfixed, rfl,
          Bool.eq_false_iff.mpr htarget, rfl, hcall, rfl⟩

/-- `mmap` with `MAP_FIXED_NOREPLACE` is fixed exactly when the call is refused
for another reason or no page was mapped: the flag itself has no effect. -/
theorem mmap_fixed_iff (haligned : addr % archPageSize = 0) (hpos : addr ≠ 0)
    (hreturns : mmap vas descriptor addr length prot flags fd offset readStatus
      writeStatus s = .ok (outcome, s')) :
    FixedResult s vas addr length outcome ↔
      ∀ file, Accepted s descriptor addr length prot flags fd offset readStatus
        writeStatus file → Free s vas addr length := by
  rcases mmap_cases hreturns with
    ⟨herror, hrefused⟩ | ⟨file, mapped, hfixed, hread, htarget, hfile, hcall, rfl⟩
  · exact iff_of_true (.inl herror) fun file h => absurd h (hrefused file)
  · cases hchecks : s.mapVirtError 0 (userFlags (mmapFlags prot flags)) file offset with
    | some errno =>
      rw [mapVirtEx_refused hchecks] at hcall
      cases hcall
      refine iff_of_true (.inl ⟨_, rfl⟩) fun other h => ?_
      have hsame := h.found
      rw [hfile] at hsame
      cases hsame
      rw [h.checks] at hchecks
      cases hchecks
    | none =>
      obtain ⟨output, error⟩ := mapped
      obtain ⟨rfl, houtput⟩ := mapVirtEx_ok hcall hchecks hpos (mmapFlags_allowed prot flags).2 rfl
      have hinUse : _ ↔ Free s vas addr length := inUse_eq_false_iff haligned htarget hpos
      split at houtput
      · rename_i hused
        have hnotFree : ¬ Free s vas addr length := by
          rw [← hinUse, hused]
          exact Bool.noConfusion
        subst houtput
        by_cases hwrite : writeStatus = none ∨ s.localAllocator = 0
        · refine iff_of_false ?_ fun h =>
            hnotFree (h file ⟨hfixed, hread, hwrite, htarget, hfile, hchecks⟩)
          rintro (⟨status, hstatus⟩ | ⟨_, hfree⟩)
          · rcases hwrite with rfl | hzero
            · unfold writeBack at hstatus
              split at hstatus <;> cases hstatus
            · unfold writeBack at hstatus
              rw [if_pos hzero] at hstatus
              cases hstatus
          · exact hnotFree hfree
        · obtain ⟨hsome, hne⟩ := not_or.mp hwrite
          obtain ⟨errno, rfl⟩ := Option.ne_none_iff_exists'.mp hsome
          refine iff_of_true (.inl ⟨.errno errno, ?_⟩) fun other h => absurd h.write hwrite
          unfold writeBack
          rw [if_neg hne]
      · rename_i hunused
        have hfree : Free s vas addr length := hinUse.mp (Bool.eq_false_iff.mpr hunused)
        refine iff_of_true ?_ fun _ _ => hfree
        subst houtput
        unfold writeBack
        rw [if_neg hpos]
        cases writeStatus with
        | none => exact .inr ⟨rfl, hfree⟩
        | some errno => exact .inl ⟨_, rfl⟩

end Mmap

def returned (outcome : Except Stop (Except Status Nat × Vm)) : Option Nat :=
  match outcome with
  | .ok (.ok value, _) => some value
  | .ok (.error _, _) | .error _ => none

lemma eq_of_returned {outcome : Except Stop (Except Status Nat × Vm)}
    {value : Nat} (h : returned outcome = some value) : ∃ s', outcome = .ok (.ok value, s') := by
  unfold returned at h
  split at h
  · cases h
    exact ⟨_, rfl⟩
  · cases h
  · cases h

/-- One page is mapped, and there is memory for page tables. -/
def oneMapped : Vm :=
  { Vfs.onePage with paging := fewPages }

/-- `MAP_ANONYMOUS | MAP_FIXED_NOREPLACE` at the page that is mapped gives
another address. -/
theorem oneMapped_not_fixed : ∃ outcome s',
    mmap 0 (fun _ => none) 0x10000000 4096 6 (16 ||| 64) 0 0 none none
      oneMapped = .ok (outcome, s') ∧ ¬ FixedResult oneMapped 0 0x10000000 4096 outcome := by
  obtain ⟨s', hreturns⟩ := eq_of_returned
    (show returned (mmap 0 (fun _ => none) 0x10000000 4096 6 (16 ||| 64) 0 0
      none none oneMapped) = some 0x20000000 by decide +kernel)
  refine ⟨_, s', hreturns, ?_⟩
  rintro (⟨status, ⟨⟩⟩ | ⟨⟨⟩, _⟩)

/-- The next page is free. -/
theorem nextPage_fixed : ∃ outcome s',
    mmap 0 (fun _ => none) 0x10001000 4096 6 (16 ||| 64) 0 0 none none
      oneMapped = .ok (outcome, s') ∧ FixedResult oneMapped 0 0x10001000 4096 outcome := by
  obtain ⟨s', hreturns⟩ := eq_of_returned
    (show returned (mmap 0 (fun _ => none) 0x10001000 4096 6 (16 ||| 64) 0 0
      none none oneMapped) = some 0x10001000 by decide +kernel)
  refine ⟨_, s', hreturns, (mmap_fixed_iff (by decide) (by decide) hreturns).mpr fun _ _ => ?_⟩
  intro i hi
  have hpages : bytesToPages 4096 = 1 := by decide
  obtain rfl : i = 0 := by omega
  decide +kernel

end Merlon.Mapping
