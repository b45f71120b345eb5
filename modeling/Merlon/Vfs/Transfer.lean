/-
Copies between the kernel and user memory, from `kernel/vfs/transfer.c`.  A
copy is allowed when the range is in the user area and the pages the check
looks at have the right permissions; it looks at `BytesToPages(size)` pages
from the one the range begins on.
-/
import Mathlib.Data.BitVec
import Mathlib.Logic.Relation
import Merlon.Virtual.Primitive

namespace Merlon.Vfs

open Physical (archPageSize)
open Virtual

def archUserAreaBase : Nat := 0x08000000

def archUserAreaLimit : Nat := 0xC0000000

/-- What `ValidateCopy` asks of the permissions of a page. -/
def allowsCopy (permissions : VmFlags) (write : Bool) : Bool :=
  permissions != {} && permissions.read && permissions.user
    && !(write && !permissions.write) && !(write && permissions.exec)

/-- The loop of `ValidateCopy` from page `i` on. -/
def validateFrom (vas : Nat) (write : Bool) (initialPage : Nat) : Nat → Nat → Kernel (Option Errno)
  | 0, _ => pure none
  | count + 1, i => do
      let page := initialPage + i
      let permissions ← getVirtPermissions vas (page * archPageSize % addressLimit)
      if allowsCopy permissions write then
        validateFrom vas write initialPage count (i + 1)
      else return some .einval

def validateCopy (vas userAddr size : Nat) (write : Bool) : Kernel (Option Errno) := do
  let initialAddress := userAddr
  let finalAddress := (initialAddress + size) % addressLimit
  if initialAddress < archUserAreaBase ∨ archUserAreaLimit ≤ initialAddress then
    return some .einval
  if finalAddress < initialAddress then return some .einval
  if finalAddress < archUserAreaBase ∨ archUserAreaLimit ≤ finalAddress then
    return some .einval
  validateFrom vas write (initialAddress / archPageSize) (bytesToPages size) 0

/-- `CopyIntoKernel` and `CopyOutOfKernel`, which writes to the user's memory:
the status and the user addresses that are read or written. -/
def copy (vas userAddr size : Nat) (write : Bool) : Kernel (Option Errno × List Nat) := do
  match ← validateCopy vas userAddr size write with
  | some status => return (some status, [])
  | none => return (none, List.range' userAddr size)

def copyIntoKernel (vas userAddr size : Nat) : Kernel (Option Errno × List Nat) :=
  copy vas userAddr size false

def copyOutOfKernel (vas userAddr size : Nat) : Kernel (Option Errno × List Nat) :=
  copy vas userAddr size true

/-! What the check establishes. -/

variable {s : Vm} {vas userAddr size : Nat} {write : Bool}

/-- The user may access the page in the direction of the copy. -/
def Permitted (s : Vm) (vas : Nat) (write : Bool) (page : Nat) : Prop :=
  ∃ permissions, getVirtPermissions vas (page * archPageSize) s = .ok (permissions, s) ∧
    permissions.read = true ∧ permissions.user = true ∧
    (write = true → permissions.write = true ∧ permissions.exec = false)

/-- The byte is in the user area and on a page the user may access. -/
def UserByte (s : Vm) (vas : Nat) (write : Bool) (addr : Nat) : Prop :=
  archUserAreaBase ≤ addr ∧ addr < archUserAreaLimit ∧ Permitted s vas write (addr / archPageSize)

/-- The range passes the bounds check. -/
def InUserArea (userAddr size : Nat) : Prop :=
  archUserAreaBase ≤ userAddr ∧ userAddr + size < archUserAreaLimit

/-- The range reaches the page after those `BytesToPages(size)` counts from
its first page. -/
def Straddles (userAddr size : Nat) : Prop :=
  bytesToPages size * archPageSize < userAddr % archPageSize + size ∧ 0 < size

/-- Whatever passes the check, and whatever a copy touches, is the user's. -/
def CopySound (s : Vm) (vas userAddr size : Nat) (write : Bool) : Prop :=
  (∀ s', validateCopy vas userAddr size write s = .ok (none, s') →
    ∀ addr, userAddr ≤ addr → addr < userAddr + size → UserByte s vas write addr) ∧
  (∀ status touched s', (if write then copyOutOfKernel vas userAddr size
      else copyIntoKernel vas userAddr size) s = .ok ((status, touched), s') →
    ∀ addr ∈ touched, UserByte s vas write addr)

lemma permitted_iff {page : Nat} {permissions : VmFlags}
    (hget : getVirtPermissions vas (page * archPageSize) s = .ok (permissions, s)) :
    Permitted s vas write page ↔ allowsCopy permissions write = true := by
  have hsame : ∀ other, getVirtPermissions vas (page * archPageSize) s =
      .ok (other, s) → other = permissions := by
    intro other hother
    rw [hget] at hother
    cases hother
    rfl
  constructor
  · rintro ⟨other, hother, hread, huser, hwrite⟩
    cases hsame other hother
    have hne : permissions ≠ {} := by
      rintro rfl
      cases hread
    cases write <;> simp_all [allowsCopy]
  · intro hallows
    refine ⟨permissions, hget, ?_⟩
    cases write <;> simp_all [allowsCopy]

/-- The loop accepts exactly the pages that are permitted. -/
lemma validateFrom_eq_ok_iff {initialPage count i : Nat}
    (hpages : initialPage + i + count ≤ 2 ^ 20) :
    (∃ s', validateFrom vas write initialPage count i s = .ok (none, s')) ↔ ∀ j, i ≤ j →
    j < i + count → Permitted s vas write (initialPage + j) := by
  induction count generalizing i with
  | zero => refine ⟨fun _ j hle hlt => by omega, fun _ => ⟨s, rfl⟩⟩
  | succ count ih =>
    have haddr : (initialPage + i) * archPageSize % addressLimit =
        (initialPage + i) * archPageSize :=
      Nat.mod_eq_of_lt (by unfold archPageSize addressLimit; omega)
    have hfirst : (∀ j, i ≤ j → j < i + (count + 1) → Permitted s vas write (initialPage + j)) ↔
        Permitted s vas write (initialPage + i) ∧ ∀ j, i + 1 ≤ j → j < i + 1 + count →
        Permitted s vas write (initialPage + j) := by
      constructor
      · exact fun h => ⟨h i (by omega) (by omega), fun j hle hlt => h j (by omega) (by omega)⟩
      · rintro ⟨hhere, hrest⟩ j hle hlt
        rcases Nat.eq_or_lt_of_le hle with rfl | hlt'
        · exact hhere
        · exact hrest j hlt' (by omega)
    rw [hfirst, ← ih (by omega)]
    simp only [validateFrom, haddr]
    constructor
    · rintro ⟨s', hvalidate⟩
      obtain ⟨permissions, s₁, hget, hrest⟩ := state_bind_eq_ok_iff.mp hvalidate
      cases getVirtPermissions_state hget
      split_ifs at hrest with hallows
      · exact ⟨(permitted_iff hget).mpr hallows, s', hrest⟩
      · cases hrest
    · rintro ⟨⟨permissions, hget, hpermissions⟩, s', hrest⟩
      have hallows : allowsCopy permissions write = true :=
        (permitted_iff hget).mp ⟨permissions, hget, hpermissions⟩
      refine ⟨s', ?_⟩
      rw [state_bind_ok hget, if_pos hallows]
      exact hrest

lemma validateCopy_eq_ok_iff (haddr : userAddr < addressLimit) (hsize : size < addressLimit) :
    (∃ s', validateCopy vas userAddr size write s = .ok (none, s')) ↔ InUserArea userAddr size ∧
    ∀ i, i < bytesToPages size → Permitted s vas write (userAddr / archPageSize + i) := by
  unfold validateCopy InUserArea
  unfold addressLimit at haddr hsize ⊢
  by_cases harea : archUserAreaBase ≤ userAddr ∧ userAddr + size < archUserAreaLimit
  · obtain ⟨hbase, hlimit⟩ := harea
    have hmod : (userAddr + size) % 2 ^ 32 = userAddr + size := by
      unfold archUserAreaLimit at hlimit
      omega
    have hcount : bytesToPages size ≤ size / archPageSize + 1 := by
      unfold bytesToPages archPageSize addressLimit
      omega
    rw [if_neg (by omega), if_neg (by omega), if_neg (by omega), validateFrom_eq_ok_iff]
    · simp [hbase, hlimit]
    · unfold archPageSize at hcount ⊢
      omega
  · simp only [harea, false_and, iff_false, not_exists]
    intro s' hvalidate
    split_ifs at hvalidate
    · cases hvalidate
    · cases hvalidate
    · cases hvalidate
    · omega

lemma copy_touched {status : Option Errno} {touched : List Nat} {s' : Vm}
    (hcopy : copy vas userAddr size write s = .ok ((status, touched), s')) : touched = [] ∨
    touched = List.range' userAddr size ∧
    validateCopy vas userAddr size write s = .ok (none, s') := by
  obtain ⟨found, s₁, hvalidate, hrest⟩ := state_bind_eq_ok_iff.mp hcopy
  cases found with
  | some error =>
    cases hrest
    exact .inl rfl
  | none =>
    cases hrest
    exact .inr ⟨rfl, hvalidate⟩

/-- A copy touches a subset of what the check accepts. -/
lemma copySound_iff_validate : CopySound s vas userAddr size write ↔
    ((∃ s', validateCopy vas userAddr size write s = .ok (none, s')) →
      ∀ addr, userAddr ≤ addr → addr < userAddr + size → UserByte s vas write addr) := by
  constructor
  · rintro ⟨hvalidate, _⟩ ⟨s', haccept⟩
    exact hvalidate s' haccept
  · intro h
    refine ⟨fun s' haccept => h ⟨s', haccept⟩, ?_⟩
    intro status touched s' hcopy addr hmem
    have hcopy' : copy vas userAddr size write s = .ok ((status, touched), s') := by
      cases write <;> exact hcopy
    rcases copy_touched hcopy' with rfl | ⟨rfl, haccept⟩
    · cases hmem
    · rw [List.mem_range'_1] at hmem
      exact h ⟨s', haccept⟩ addr hmem.1 hmem.2

/-- The bytes of a range in the user area are on the pages counted from its
first page, and on one more when it straddles. -/
lemma page_of_byte {addr : Nat} (harea : InUserArea userAddr size) (hle : userAddr ≤ addr)
    (hlt : addr < userAddr + size) : ∃ i, addr / archPageSize = userAddr / archPageSize + i ∧
    (i < bytesToPages size ∨ Straddles userAddr size ∧ i = bytesToPages size) := by
  refine ⟨addr / archPageSize - userAddr / archPageSize, ?_, ?_⟩
  · have hmono := Nat.div_le_div_right (c := archPageSize) hle
    omega
  · obtain ⟨_, hlimit⟩ := harea
    unfold Straddles bytesToPages addressLimit archPageSize
    unfold archUserAreaLimit at hlimit
    omega

/-- The byte of a straddling range that no checked page holds. -/
lemma last_byte_page (harea : InUserArea userAddr size) (hstraddles : Straddles userAddr size) :
    (userAddr + size - 1) / archPageSize = userAddr / archPageSize + bytesToPages size := by
  obtain ⟨_, hlimit⟩ := harea
  obtain ⟨hpast, hpositive⟩ := hstraddles
  unfold bytesToPages addressLimit archPageSize at *
  unfold archUserAreaLimit at hlimit
  omega

/-- The check is sound for a range exactly when the page it does not look at,
if the range reaches one, happens to be permitted too. -/
theorem copySound_iff (haddr : userAddr < addressLimit) (hsize : size < addressLimit) :
    CopySound s vas userAddr size write ↔
      (InUserArea userAddr size → Straddles userAddr size →
        (∀ i, i < bytesToPages size → Permitted s vas write (userAddr / archPageSize + i)) →
        Permitted s vas write (userAddr / archPageSize + bytesToPages size)) := by
  rw [copySound_iff_validate, validateCopy_eq_ok_iff haddr hsize]
  constructor
  · intro hsound harea hstraddles hpages
    have hpositive := hstraddles.2
    have hbyte := hsound ⟨harea, hpages⟩ (userAddr + size - 1) (by omega) (by omega)
    rw [← last_byte_page harea hstraddles]
    exact hbyte.2.2
  · rintro hlast ⟨harea, hpages⟩ addr hle hlt
    obtain ⟨i, hpage, hi⟩ := page_of_byte harea hle hlt
    have hbase := harea.1
    have hlimit := harea.2
    refine ⟨by omega, by omega, ?_⟩
    rw [hpage]
    rcases hi with hi | ⟨hstraddles, rfl⟩
    · exact hpages i hi
    · exact hlast harea hstraddles hpages

/-- An address space with one page, which the user may read. -/
def onePage : Vm :=
  { initVirt ⟨Physical.bootState, fun _ _ => none, fun _ _ => {}⟩
      (fun _ => zeroPage) 0 (fun _ => ⟨true, true, true⟩) (fun _ _ => 0) with
    entries := fun id => if id = 0 then some {
      virtual := 0x10000000, read := true, user := true, refCount := 1 }
      else none
    nextEntry := 1
    mappings := fun vas => if vas = 0 then .node .nil 0 .nil else .nil }

/-- Aligned ranges do not straddle, whatever is mapped. -/
theorem copySound_iff_aligned : CopySound onePage 0 0x10000000 4096 false :=
  (copySound_iff (by decide) (by decide)).mpr fun _ hstraddles => absurd hstraddles.1 (by decide)

/-- Two bytes across the end of the only page pass the check. -/
theorem copySound_fails_across_pages : ¬ CopySound onePage 0 0x10000FFF 2 false := by
  rw [copySound_iff_validate]
  intro hsound
  obtain ⟨_, _, permissions, hget, hread, _⟩ :=
    hsound ⟨onePage, rfl⟩ 0x10001000 (by decide) (by decide)
  have hnone : getVirtPermissions 0 (0x10001000 / archPageSize * archPageSize)
      onePage = .ok ({}, onePage) := rfl
  cases hget
  cases hread

/-! Transfers in several steps. -/

/-- `struct transfer` without `blockable`; `user` and `read` are its type and
its direction. -/
structure Transfer where
  address : BitVec 32
  lengthRemaining : BitVec 64
  offset : BitVec 64
  read : Bool
  user : Bool

namespace Transfer

def revertTransfer (io : Transfer) (amount : BitVec 64) : Transfer :=
  { io with
    lengthRemaining := io.lengthRemaining + amount
    offset := io.offset - amount
    address := io.address - amount.setWidth 32 }

/-- The number of bytes that a call of `PerformTransfer` moves, a `size_t`. -/
def amount (io : Transfer) (len : BitVec 64) : BitVec 32 :=
  (if len < io.lengthRemaining then len else io.lengthRemaining).setWidth 32

/-- The transfer after some bytes have been moved. -/
def advance (io : Transfer) (amount : BitVec 32) : Transfer :=
  { io with
    lengthRemaining := io.lengthRemaining - amount.setWidth 64
    offset := io.offset + amount.setWidth 64
    address := io.address + amount }

/-- `PerformTransfer`.  A null address fails its assertion. -/
def performTransfer (vas : Nat) (io : Transfer) (len : BitVec 64) :
    Kernel (Option Errno × Transfer) := do
  if io.address = 0 then fun _ => .error .nullPointer
  else if io.amount len = 0 then return (none, io)
  else
    let result ← (if io.user then copy vas io.address.toNat (io.amount len).toNat io.read
      else pure (none, []))
    match result.1 with
    | some status => return (some status, io)
    | none => return (none, io.advance (io.amount len))

/-- A call of `PerformTransfer`, in whatever state the memory is in, or of
`RevertTransfer` for no more than was performed since the first state. -/
inductive Step (first io : Transfer) : Transfer → Prop
  | perform {io' : Transfer} {vas : Nat} {len : BitVec 64} {s s' : Vm} {status : Option Errno}
      (hperform : io.performTransfer vas len s = .ok ((status, io'), s')) : Step first io io'
  | revert {amount : BitVec 64}
      (hle : io.lengthRemaining.toNat + amount.toNat ≤ first.lengthRemaining.toNat) :
      Step first io (io.revertTransfer amount)

/-- The three fields move together. -/
structure Kept (first io : Transfer) : Prop where
  last : io.offset + io.lengthRemaining = first.offset + first.lengthRemaining
  address : io.address - io.offset.setWidth 32 = first.address - first.offset.setWidth 32
  length : io.lengthRemaining ≤ first.lengthRemaining

/-- A call that fails changes nothing, and the bytes of one that succeeds can be
reverted. -/
def Reverts (io : Transfer) : Prop :=
  ∀ vas len s s' status io', io.performTransfer vas len s = .ok ((status, io'), s') →
    (status ≠ none → io' = io) ∧
    (status = none → io'.revertTransfer ((io.amount len).setWidth 64) = io)

variable {first io io' : Transfer} {vas : Nat} {len : BitVec 64} {s' : Vm} {status : Option Errno}

lemma performTransfer_cases (h : io.performTransfer vas len s = .ok ((status, io'), s')) :
    io' = io ∧ (status = none → io.amount len = 0) ∨
      status = none ∧ io' = io.advance (io.amount len) := by
  unfold performTransfer at h
  by_cases hnull : io.address = 0
  · rw [if_pos hnull] at h
    cases h
  · rw [if_neg hnull] at h
    by_cases hzero : io.amount len = 0
    · rw [if_pos hzero] at h
      cases h
      exact .inl ⟨rfl, fun _ => hzero⟩
    · rw [if_neg hzero] at h
      obtain ⟨⟨_ | error, _⟩, _, _, hrest⟩ := state_bind_eq_ok_iff.mp h
      · cases hrest
        exact .inr ⟨rfl, rfl⟩
      · cases hrest
        exact .inl ⟨rfl, nofun⟩

lemma amount_toNat (io : Transfer) (len : BitVec 64) :
    (io.amount len).toNat ≤ io.lengthRemaining.toNat := by
  unfold amount
  rw [BitVec.toNat_setWidth]
  refine (Nat.mod_le _ _).trans ?_
  split
  · exact Nat.le_of_lt ‹len < io.lengthRemaining›
  · exact Nat.le_refl _

lemma Kept.advance (h : Kept first io) {amount : BitVec 32}
    (hle : amount.toNat ≤ io.lengthRemaining.toNat) : Kept first (io.advance amount) := by
  obtain ⟨hlast, haddress, hlength⟩ := h
  refine ⟨?_, ?_, ?_⟩ <;> unfold Transfer.advance
  · grind
  · rw [BitVec.setWidth_add _ _ (by decide), BitVec.setWidth_setWidth_of_le _ (by decide),
      BitVec.setWidth_eq]
    grind
  · clear hlast haddress
    bv_omega

lemma Kept.revert (h : Kept first io) {amount : BitVec 64}
    (hle : io.lengthRemaining.toNat + amount.toNat ≤ first.lengthRemaining.toNat) :
    Kept first (io.revertTransfer amount) := by
  obtain ⟨hlast, haddress, hlength⟩ := h
  refine ⟨?_, ?_, ?_⟩ <;> unfold revertTransfer
  · grind
  · rw [BitVec.sub_eq_add_neg io.offset, BitVec.setWidth_add _ _ (by decide),
      BitVec.setWidth_neg_of_le (by decide)]
    grind
  · clear hlast haddress
    bv_omega

lemma Kept.step (h : Kept first io) (hstep : Step first io io') : Kept first io' := by
  cases hstep with
  | perform hperform =>
    rcases performTransfer_cases hperform with ⟨rfl, _⟩ | ⟨_, rfl⟩
    · exact h
    · exact h.advance (io.amount_toNat _)
  | revert hle => exact h.revert hle

lemma reverts (io : Transfer) : io.Reverts := by
  intro vas len s s' status io' h
  rcases performTransfer_cases h with ⟨rfl, hzero⟩ | ⟨rfl, rfl⟩
  · refine ⟨fun _ => rfl, fun hnone => ?_⟩
    rw [hzero hnone]
    simp [revertTransfer]
  · refine ⟨fun h => absurd rfl h, fun _ => ?_⟩
    simp [revertTransfer, advance]

/-- In every sequence of calls the fields move together, and every call can be
undone. -/
theorem run_kept (hrun : Relation.ReflTransGen (Step first) first io) :
    Kept first io ∧ io.Reverts := by
  refine ⟨?_, io.reverts⟩
  induction hrun with
  | refl => exact ⟨rfl, rfl, BitVec.le_refl _⟩
  | tail _ hstep ih => exact ih.step hstep

/-- Seven of ten bytes are moved and two of them taken back. -/
def tenBytes : Transfer := ⟨0x1000, 10, 3, true, false⟩

theorem run_kept_tenBytes :
    Kept tenBytes ((tenBytes.advance 7).revertTransfer 2) ∧
      ((tenBytes.advance 7).revertTransfer 2).Reverts :=
  run_kept (.tail (.single (@Step.perform _ _ _ 0 7 onePage _ none rfl)) (.revert (by decide)))

end Transfer

end Merlon.Vfs
