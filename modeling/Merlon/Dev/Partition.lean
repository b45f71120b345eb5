/-
Partitions of a disk, from `kernel/dev/partition.c`.  An access is moved by the
start of the partition and cut at its end, and then goes to the disk through
`ReadFile` or `WriteFile`.
-/
import Merlon.Library.Outcome
import Mathlib.Algebra.Group.Nat.Defs

namespace Merlon.Partitions

inductive Errno where
  | einval
  | ebadf
  | eio
  deriving DecidableEq

/-- The difference of two 64-bit numbers is no `int64_t`. -/
inductive Stop where
  | overflow
  deriving DecidableEq

structure Transfer where
  address : BitVec 32
  lengthRemaining : BitVec 64
  offset : BitVec 64
  deriving DecidableEq

/-- The transfer after some bytes have gone over. -/
def Transfer.advance (tr : Transfer) (amount : BitVec 64) : Transfer where
  address := tr.address + amount.setWidth 32
  lengthRemaining := tr.lengthRemaining - amount
  offset := tr.offset + amount

/-- A disk transfers some of the bytes it is asked for. -/
structure Disk where
  status : Transfer → Bool → Option Errno
  amount : Transfer → Bool → BitVec 64
  amount_le : ∀ tr write, amount tr write ≤ tr.lengthRemaining

/-- The open file of a disk. -/
structure File where
  disk : Disk
  canRead : Bool
  canWrite : Bool

structure Partition where
  file : File
  startByte : BitVec 64
  lengthBytes : BitVec 64

/-- What an access leaves, and what it passed on to the disk. -/
structure Outcome where
  status : Option Errno
  transfer : Transfer
  forwarded : Option Transfer

/-- `FileAccess` turns an access away before it reaches the disk. -/
def File.rejects (file : File) (tr : Transfer) (write : Bool) : Bool :=
  tr.address == 0 || (!write && !file.canRead) || (write && !file.canWrite)

/-- `ReadFile` and `WriteFile` of the disk. -/
def File.access (file : File) (tr : Transfer) (write : Bool) : Outcome :=
  if tr.address = 0 then ⟨some .einval, tr, none⟩
  else if (!write && !file.canRead) || (write && !file.canWrite) then
    ⟨some .ebadf, tr, none⟩
  else
    { status := file.disk.status tr write
      transfer := tr.advance (file.disk.amount tr write)
      forwarded := some tr }

/-- The length that `Access` passes on. -/
def Partition.cut (p : Partition) (tr : Transfer) : Except Stop (BitVec 64) :=
  if p.lengthBytes < tr.offset + tr.lengthRemaining then
    if p.lengthBytes.ssubOverflow tr.offset then .error .overflow
    else .ok (p.lengthBytes - tr.offset)
  else .ok tr.lengthRemaining

def Partition.access (p : Partition) (tr : Transfer) (write : Bool) : Except Stop Outcome := do
  let startAddr := tr.offset + p.startByte
  let length ← p.cut tr
  let real := p.file.access
    { tr with lengthRemaining := length, offset := startAddr } write
  let bytesTransferred := length - real.transfer.lengthRemaining
  .ok { real with transfer := tr.advance bytesTransferred }

/-- A range that is passed on is empty or inside the partition. -/
def Partition.Inside (p : Partition) (range : Transfer) : Prop :=
  range.lengthRemaining = 0 ∨ p.startByte.toNat ≤ range.offset.toNat ∧
    range.offset.toNat + range.lengthRemaining.toNat ≤ p.startByte.toNat + p.lengthBytes.toNat

/-- The access stays inside the partition, and the caller's transfer moves by
what the disk has transferred. -/
def Partition.Confines (p : Partition) (tr : Transfer) (write : Bool) : Prop :=
  ∃ outcome, p.access tr write = .ok outcome ∧
    (∀ range, outcome.forwarded = some range → p.Inside range) ∧ outcome.transfer = tr.advance
    (outcome.forwarded.elim 0 fun range => p.file.disk.amount range write)

/-- The access begins inside the partition or at its end, and neither its end
nor, if there is something to transfer, its place on the disk is past the
64-bit numbers. -/
def Partition.Reaches (p : Partition) (tr : Transfer) : Prop :=
  tr.offset ≤ p.lengthBytes ∧ tr.offset.toNat + tr.lengthRemaining.toNat < 2 ^ 64 ∧
    (tr.lengthRemaining = 0 ∨ tr.offset = p.lengthBytes ∨
      tr.offset.toNat + p.startByte.toNat < 2 ^ 64)

/-- The signed difference with which `Access` cuts the length overflows. -/
def Partition.Overflows (p : Partition) (tr : Transfer) : Prop :=
  p.lengthBytes < tr.offset + tr.lengthRemaining ∧ p.lengthBytes.ssubOverflow tr.offset = true

variable {p : Partition} {tr : Transfer} {write : Bool} {length : BitVec 64}

lemma File.access_forwarded (file : File) (tr : Transfer) (write : Bool) :
    (file.access tr write).forwarded =
      if file.rejects tr write then none else some tr := by
  unfold File.access File.rejects
  by_cases haddress : tr.address = 0
  · rw [if_pos haddress, beq_iff_eq.mpr haddress]
    rfl
  · rw [if_neg haddress, beq_false_of_ne haddress, Bool.false_or]
    split
    · rfl
    · rfl

lemma File.access_transfer (file : File) (tr : Transfer) (write : Bool) :
    (file.access tr write).transfer = tr.advance
      ((file.access tr write).forwarded.elim 0 fun range => file.disk.amount range write) := by
  have hstay : tr.advance 0 = tr := by simp [Transfer.advance]
  unfold File.access
  split
  · exact hstay.symm
  · split
    · exact hstay.symm
    · rfl

lemma Partition.cut_eq_ok_iff : (∃ length, p.cut tr = .ok length) ↔ ¬ p.Overflows tr := by
  unfold Partition.cut Partition.Overflows
  split
  · rename_i hpast
    split
    · rename_i hoverflow
      simp [hpast, hoverflow]
    · rename_i hoverflow
      simp [hoverflow]
  · rename_i hwithin
    simp [hwithin]

/-- What is passed on is inside the partition when the access begins there and
the 64-bit sums do not wrap. -/
lemma Partition.inside_iff (hcut : p.cut tr = .ok length) : p.Inside { tr with
      lengthRemaining := length, offset := tr.offset + p.startByte } ↔
      p.Reaches tr := by
  unfold Partition.cut at hcut
  unfold Partition.Inside Partition.Reaches
  dsimp only
  split at hcut
  · rename_i hpast
    split at hcut
    · cases hcut
    · cases hcut
      bv_omega
  · rename_i hwithin
    cases hcut
    bv_omega

/-- The bytes that `Access` counts are those that the disk has transferred. -/
lemma Partition.access_eq_ok (hcut : p.cut tr = .ok length) (write : Bool) :
    ∃ outcome, p.access tr write = .ok outcome ∧
    outcome.forwarded = (if p.file.rejects tr write then none
          else some { tr with
            lengthRemaining := length, offset := tr.offset + p.startByte }) ∧
      outcome.transfer = tr.advance (outcome.forwarded.elim 0 fun range =>
          p.file.disk.amount range write) := by
  have hcount (amount : BitVec 64) : length - (length - amount) = amount := by bv_omega
  refine ⟨_, by unfold Partition.access; rw [hcut]; rfl, ?_, ?_⟩
  · exact p.file.access_forwarded _ write
  · dsimp only
    rw [p.file.access_transfer]
    exact congrArg tr.advance (hcount _)

/-- An access is confined to the partition, with the caller's transfer moved by
what the disk transferred, exactly when nothing overflows and it is turned away
or begins inside the partition. -/
theorem access_confines_iff (p : Partition) (tr : Transfer) (write : Bool) :
    p.Confines tr write ↔ ¬ p.Overflows tr ∧ (p.file.rejects tr write = true ∨ p.Reaches tr) := by
  rw [← Partition.cut_eq_ok_iff]
  constructor
  · rintro ⟨outcome, haccess, hinside, _⟩
    obtain ⟨length, hcut, _⟩ := bind_eq_ok haccess
    obtain ⟨outcome', haccess', hforwarded, _⟩ := Partition.access_eq_ok hcut write
    cases haccess.symm.trans haccess'
    refine ⟨⟨length, hcut⟩, ?_⟩
    cases hrejects : p.file.rejects tr write with
    | true => exact .inl rfl
    | false =>
      rw [hrejects] at hforwarded
      exact .inr ((Partition.inside_iff hcut).mp (hinside _ hforwarded))
  · rintro ⟨⟨length, hcut⟩, hreaches⟩
    obtain ⟨outcome, haccess, hforwarded, hmoved⟩ := Partition.access_eq_ok hcut write
    refine ⟨outcome, haccess, fun range hrange => ?_, hmoved⟩
    rw [hforwarded] at hrange
    split at hrange
    · cases hrange
    · rename_i hrejects
      cases hrange
      exact (Partition.inside_iff hcut).mpr (hreaches.resolve_left hrejects)

/-- A partition of one sector on a disk that transfers nothing. -/
def oneSector : Partition where
  file :=
    { disk :=
        { status := fun _ _ => none
          amount := fun _ _ => 0
          amount_le := fun _ _ => Nat.zero_le _ }
      canRead := true
      canWrite := true }
  startByte := 4096
  lengthBytes := 512

/-- A read of one sector, past the end of the partition. -/
def pastEnd : Transfer where
  address := 1
  lengthRemaining := 512
  offset := 1024

/-- What is left of the partition is negative there, so the disk is asked for
nearly all bytes there are. -/
theorem pastEnd_not_confined :
    (∃ outcome, oneSector.access pastEnd false = .ok outcome ∧
      outcome.forwarded = some ⟨1, 0xFFFFFFFFFFFFFE00, 5120⟩) ∧
    ¬ oneSector.Confines pastEnd false := by
  refine ⟨⟨_, rfl, rfl⟩, fun hconfines => ?_⟩
  obtain ⟨outcome, haccess, hinside, _⟩ := hconfines
  cases haccess
  rcases hinside _ rfl with hempty | ⟨_, hend⟩
  · exact absurd hempty (by decide)
  · exact absurd hend (by decide)

end Merlon.Partitions
