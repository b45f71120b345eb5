/-
What `demofs_read_file` gives a caller whose buffer is writable.  A request is
read in at most three pieces: up to the next sector, the whole sectors, and
what is left.  It gets exactly the bytes of the file unless the whole sectors
that were asked for go past the end of the file.
-/
import Merlon.DemoFs.Model

namespace Merlon.DemoFs

open Transfer

namespace Transfer

variable {io : Transfer} {data : ByteMemory} {n m : Nat}

/-- The caller takes every part of its buffer. -/
structure Takes (io : Transfer) : Prop where
  address_ne : io.address ≠ 0
  accepts : ∀ address amount, io.address ≤ address →
    address + amount ≤ io.address + io.lengthRemaining → io.accepts address amount = true

lemma Takes.advance (h : io.Takes) (hle : n ≤ io.lengthRemaining) : (io.advance data n).Takes where
  address_ne := by
    have hne := h.address_ne
    dsimp only [Transfer.advance]
    omega
  accepts := by
    intro address amount hlow hhigh
    dsimp only [Transfer.advance] at hlow hhigh
    exact h.accepts address amount (by omega) (by omega)

lemma advance_zero (io : Transfer) (data : ByteMemory) : io.advance data 0 = io := by
  unfold advance
  rw [ByteMemory.splice_zero]
  rfl

lemma advance_advance (io : Transfer) (data : ByteMemory) (n m : Nat) :
    (io.advance data n).advance (fun i => data (n + i)) m = io.advance data (n + m) := by
  unfold advance
  dsimp only
  rw [ByteMemory.splice_splice, Nat.add_assoc, Nat.add_assoc, Nat.sub_sub]

lemma advance_injective (h : io.advance data n = io.advance data m) : n = m := by
  have hoffset := congrArg offset h
  dsimp only [advance] at hoffset
  omega

end Transfer

variable {d : Device} {file left : Nat} {io : Transfer} {data : ByteMemory} {target : Transfer}

lemma performTransfer_of_takes {len : Nat} (htakes : io.Takes) (hle : len ≤ io.lengthRemaining) :
    performTransfer data io len = .ok (none, io.advance data len) := by
  unfold performTransfer
  rw [if_neg htakes.address_ne, Nat.min_eq_left hle]
  dsimp only
  split
  · rename_i hzero
    rw [hzero, io.advance_zero]
  · rw [if_pos (htakes.accepts _ _ le_rfl (by omega))]

lemma handOver_of_takes {count : Nat} (htakes : io.Takes)
    (hle : count * sectorSize ≤ io.lengthRemaining) :
    handOver count data io = .ok (io.advance data (count * sectorSize)) := by
  induction count generalizing io data with
  | zero =>
    rw [Nat.zero_mul, io.advance_zero]
    rfl
  | succ count ih =>
    rw [Nat.succ_mul] at hle
    have hfirst : sectorSize ≤ io.lengthRemaining := by omega
    have hrest : count * sectorSize ≤ (io.advance data sectorSize).lengthRemaining := by
      dsimp only [advance]
      omega
    unfold handOver
    rw [performTransfer_of_takes htakes hfirst, ok_bind]
    dsimp only
    rw [ih (htakes.advance hfirst) hrest, io.advance_advance, Nat.succ_mul, Nat.add_comm sectorSize]

lemma readFile_of_takes (htakes : io.Takes) (hlength : io.lengthRemaining % sectorSize = 0) :
    readFile d io = .ok (match d.status io.offset io.lengthRemaining with
      | some error => (some error, io)
      | none => (none, io.advance (d.from io.offset) io.lengthRemaining)) := by
  have hcount : io.lengthRemaining / sectorSize * sectorSize = io.lengthRemaining :=
    Nat.div_mul_cancel (Nat.dvd_of_mod_eq_zero hlength)
  unfold readFile
  rw [if_neg htakes.address_ne]
  cases d.status io.offset io.lengthRemaining with
  | some error => rfl
  | none =>
    dsimp only
    rw [handOver_of_takes htakes (le_of_eq hcount), hcount, ok_bind]

/-- The byte of the disk at which a sector of the file begins. -/
def diskAddress (file position : Nat) : Nat :=
  file * sectorSize + position

/-- One piece of a request: it fails when its address is no `int`, it ends the
request when the disk fails, and the rest follows otherwise. -/
def piece (d : Device) (file position length : Nat) (failed : Transfer)
    (next : Except Stop (Option Errno × Transfer)) : Except Stop (Option Errno × Transfer) :=
  if diskAddress file position < 2 ^ 31 then
    match d.status (diskAddress file position) length with
    | some error => .ok (some error, failed)
    | none => next
  else .error .overflow

lemma sectorAddress_eq (file offset : Nat) : sectorAddress file offset =
      if diskAddress file (offset - offset % sectorSize) < 2 ^ 31 then
        .ok (diskAddress file (offset - offset % sectorSize))
      else .error .overflow := by
  have haddress : (file + offset / sectorSize) * sectorSize =
      diskAddress file (offset - offset % sectorSize) := by
    have hdiv := Nat.div_add_mod offset sectorSize
    unfold diskAddress
    rw [Nat.add_mul, Nat.mul_comm (offset / sectorSize)]
    omega
  unfold sectorAddress
  dsimp only
  rw [haddress]

/-- A part of a sector goes to the caller. -/
lemma readLoop_part (htakes : io.Takes) {n : Nat} (hmore : io.lengthRemaining ≠ 0 ∧ left ≠ 0)
    (hpart : ¬ (io.offset % sectorSize = 0 ∧ sectorSize ≤ io.lengthRemaining ∧ sectorSize ≤ left))
    (hn : n = min (min (sectorSize - io.offset % sectorSize) io.lengthRemaining) left) :
    readLoop d file left io = piece d file (io.offset - io.offset % sectorSize) sectorSize io
    (readLoop d file (left - n) (io.advance (d.from (diskAddress file io.offset)) n)) := by
  have hle : n ≤ io.lengthRemaining := by omega
  have hdata : (fun i => d.from
      (diskAddress file (io.offset - io.offset % sectorSize)) (io.offset % sectorSize + i)) =
      d.from (diskAddress file io.offset) := by
    have hmod := Nat.mod_le io.offset sectorSize
    funext i
    unfold Device.from diskAddress
    exact congrArg d.bytes (by omega)
  rw [readLoop, dif_pos hmore, if_neg hpart]
  dsimp only
  rw [← hn]
  unfold readPart piece
  rw [sectorAddress_eq]
  split
  · rw [ok_bind]
    unfold readSector
    cases d.status (diskAddress file (io.offset - io.offset % sectorSize)) sectorSize with
    | some error => rfl
    | none =>
      dsimp only
      rw [hdata, performTransfer_of_takes htakes hle]
      rfl
  · rfl

/-- Whole sectors go to the caller. -/
lemma readLoop_whole (htakes : io.Takes) {n : Nat}
    (hwhole : io.offset % sectorSize = 0 ∧ sectorSize ≤ io.lengthRemaining ∧ sectorSize ≤ left)
    (hn : n = io.lengthRemaining - io.lengthRemaining % sectorSize) :
    ∃ failed, readLoop d file left io = piece d file io.offset n failed
        (readLoop d file (left - sectorSize)
          (io.advance (d.from (diskAddress file io.offset)) n)) := by
  have hsize : 0 < sectorSize := by decide
  have hmod := Nat.mod_le io.lengthRemaining sectorSize
  have hmore : io.lengthRemaining ≠ 0 ∧ left ≠ 0 := by omega
  have hbegin : io.offset - io.offset % sectorSize = io.offset := by omega
  have hdelta : io.offset + (diskAddress file io.offset - io.offset) =
      diskAddress file io.offset := by
    unfold diskAddress
    omega
  have hlength : n % sectorSize = 0 := by
    rw [hn]
    exact Nat.sub_mod_eq_zero_of_mod_eq (Nat.mod_mod ..).symm
  let aligned : Transfer := { io with
    lengthRemaining := n
    offset := diskAddress file io.offset }
  have haligned : aligned.Takes := by
    refine ⟨htakes.address_ne, fun address amount hlow hhigh => ?_⟩
    dsimp only [aligned] at hlow hhigh
    exact htakes.accepts address amount hlow (by omega)
  refine ⟨aligned, ?_⟩
  rw [readLoop, dif_pos hmore, if_pos hwhole]
  unfold readWhole piece
  rw [sectorAddress_eq, hbegin]
  split
  · rw [ok_bind]
    dsimp only
    rw [hdelta, ← hn]
    change ((readFile d aligned >>= _) >>= _) = _
    rw [readFile_of_takes haligned hlength]
    dsimp only [aligned]
    cases d.status (diskAddress file io.offset) n with
    | some error => rfl
    | none =>
      rw [ok_bind, ok_bind]
      dsimp only [advance]
      congr 2
      · omega
      · omega
  · rfl

lemma readLoop_done (hdone : io.lengthRemaining = 0 ∨ left = 0) :
    readLoop d file left io = .ok (none, io) := by
  rw [readLoop, dif_neg (by omega)]

/-- What a read gets up to the next sector, when it begins inside of one. -/
def lead (offset length left : Nat) : Nat :=
  if offset % sectorSize = 0 then 0
  else min (min (sectorSize - offset % sectorSize) length) left

/-- The disk reads, as positions in the file and lengths, of a request that
begins at a sector. -/
def alignedReads (offset length left : Nat) : List (Nat × Nat) :=
  if length = 0 ∨ left = 0 then []
  else if sectorSize ≤ length ∧ sectorSize ≤ left then
    (offset, length - length % sectorSize) ::
      if length % sectorSize = 0 ∨ left = sectorSize then []
      else [(offset + (length - length % sectorSize), sectorSize)]
  else [(offset, sectorSize)]

/-- The disk reads of a request. -/
def reads (offset length left : Nat) : List (Nat × Nat) :=
  let n := lead offset length left
  (if n = 0 then [] else [(offset - offset % sectorSize, sectorSize)]) ++
    alignedReads (offset + n) (length - n) (left - n)

/-- From the next sector on at least two whole sectors are asked for, and the
file has at least one, but less than what is asked for. -/
def Overreads (offset length left : Nat) : Prop :=
  let n := lead offset length left
  2 * sectorSize ≤ length - n ∧ sectorSize ≤ left - n ∧ left - n < length - n

/-- The disk reads are at addresses that an `int` holds, up to the first that
fails, and `last` holds if none does. -/
def Settled (d : Device) (file : Nat) (last : Prop) : List (Nat × Nat) → Prop
  | [] => last
  | (position, length) :: rest =>
    diskAddress file position < 2 ^ 31 ∧
      (d.status (diskAddress file position) length = none → Settled d file last rest)

instance Settled.decidable (d : Device) (file : Nat) (last : Prop) [Decidable last] :
    ∀ pieces, Decidable (Settled d file last pieces)
  | [] => inferInstanceAs (Decidable last)
  | (position, length) :: rest =>
    have := decidable d file last rest
    inferInstanceAs (Decidable
      (diskAddress file position < 2 ^ 31 ∧
        (d.status (diskAddress file position) length = none → Settled d file last rest)))

instance (offset length left : Nat) : Decidable (Overreads offset length left) :=
  inferInstanceAs (Decidable (_ ∧ _ ∧ _))

lemma settled_congr {first second : Prop} (hiff : first ↔ second) (pieces : List (Nat × Nat)) :
    Settled d file first pieces ↔ Settled d file second pieces := by
  rw [propext hiff]

/-- The request returns, and if it succeeds the transfer is as told. -/
def Returns (target : Transfer) (outcome : Except Stop (Option Errno × Transfer)) : Prop :=
  ∃ status io', outcome = .ok (status, io') ∧ (status = none → io' = target)

lemma returns_ok : Returns target (.ok (none, io)) ↔ io = target := by
  constructor
  · rintro ⟨status, io', heq, htarget⟩
    cases heq
    exact htarget rfl
  · intro heq
    exact ⟨none, io, rfl, fun _ => heq⟩

lemma returns_piece {failed : Transfer} {position length : Nat}
    {next : Except Stop (Option Errno × Transfer)} :
    Returns target (piece d file position length failed next) ↔ diskAddress file position < 2 ^ 31 ∧
    (d.status (diskAddress file position) length = none → Returns target next) := by
  unfold piece
  split
  · rename_i haddress
    cases hstatus : d.status (diskAddress file position) length with
    | none => exact ⟨fun h => ⟨haddress, fun _ => h⟩, fun h => h.2 rfl⟩
    | some error =>
      refine ⟨fun _ => ⟨haddress, fun h => ?_⟩, fun _ => ?_⟩
      · cases h
      · refine ⟨some error, failed, rfl, fun h => ?_⟩
        cases h
  · rename_i haddress
    refine ⟨fun h => ?_, fun h => absurd h.1 haddress⟩
    obtain ⟨status, io', heq, _⟩ := h
    cases heq

lemma from_add (d : Device) (file offset n : Nat) :
    d.from (diskAddress file (offset + n)) = fun i => d.from (diskAddress file offset) (n + i) := by
  funext i
  unfold Device.from diskAddress
  exact congrArg d.bytes (by omega)

/-- How far a request that begins at a sector gets. -/
def alignedMoved (length left : Nat) : Nat :=
  if sectorSize ≤ length ∧ sectorSize ≤ left then
    length - length % sectorSize + min (length % sectorSize) (left - sectorSize)
  else min length left

/-- What is left after the whole sectors is read as one part. -/
lemma returns_rest (htakes : io.Takes) (haligned : io.offset % sectorSize = 0)
    (hrest : io.lengthRemaining < sectorSize ∨ left < sectorSize)
    (hmore : io.lengthRemaining ≠ 0 ∧ left ≠ 0) :
    Returns target (readLoop d file left io) ↔
      diskAddress file io.offset < 2 ^ 31 ∧
        (d.status (diskAddress file io.offset) sectorSize = none →
          io.advance (d.from (diskAddress file io.offset))
            (min io.lengthRemaining left) = target) := by
  have hn : min io.lengthRemaining left =
      min (min (sectorSize - io.offset % sectorSize) io.lengthRemaining) left := by
    omega
  have hdone : (io.advance (d.from (diskAddress file io.offset))
      (min io.lengthRemaining left)).lengthRemaining = 0 ∨
      left - min io.lengthRemaining left = 0 := by
    dsimp only [advance]
    omega
  rw [readLoop_part htakes hmore (by omega) hn, haligned, Nat.sub_zero,
    returns_piece, readLoop_done hdone, returns_ok]

lemma returns_aligned (htakes : io.Takes)
    (hbegin : ¬ (io.lengthRemaining = 0 ∨ left = 0) → io.offset % sectorSize = 0) :
    Returns target (readLoop d file left io) ↔
      Settled d file (io.advance (d.from (diskAddress file io.offset))
          (alignedMoved io.lengthRemaining left) = target)
        (alignedReads io.offset io.lengthRemaining left) := by
  have hsize : 0 < sectorSize := by decide
  unfold alignedReads alignedMoved
  by_cases hdone : io.lengthRemaining = 0 ∨ left = 0
  · have hzero : min io.lengthRemaining left = 0 := by omega
    rw [readLoop_done hdone, returns_ok, if_pos hdone, if_neg (by omega), hzero, io.advance_zero]
    exact Iff.rfl
  have haligned := hbegin hdone
  rw [if_neg hdone]
  by_cases hwhole : sectorSize ≤ io.lengthRemaining ∧ sectorSize ≤ left
  · rw [if_pos hwhole, if_pos hwhole]
    have hmod := Nat.mod_lt io.lengthRemaining hsize
    have hsectors : (io.lengthRemaining - io.lengthRemaining % sectorSize) % sectorSize = 0 :=
      Nat.sub_mod_eq_zero_of_mod_eq (Nat.mod_mod ..).symm
    have hmodle := Nat.mod_le io.lengthRemaining sectorSize
    obtain ⟨failed, hloop⟩ := @readLoop_whole d file left io htakes _ ⟨haligned, hwhole⟩ rfl
    rw [hloop, returns_piece]
    refine and_congr_right fun _ => imp_congr_right fun _ => ?_
    have hlength : (io.advance (d.from (diskAddress file io.offset))
        (io.lengthRemaining - io.lengthRemaining % sectorSize)).lengthRemaining =
        io.lengthRemaining % sectorSize := by
      dsimp only [advance]
      omega
    by_cases htail : io.lengthRemaining % sectorSize = 0 ∨ left = sectorSize
    · have hzero : min (io.lengthRemaining % sectorSize) (left - sectorSize) = 0 := by omega
      rw [readLoop_done (by omega), returns_ok, if_pos htail, hzero]
      exact Iff.rfl
    · have hoffset : (io.offset + (io.lengthRemaining -
          io.lengthRemaining % sectorSize)) % sectorSize = 0 := by
        rw [Nat.add_mod, haligned, hsectors]
        rfl
      rw [returns_rest (htakes.advance (Nat.sub_le ..)) hoffset (by omega)
          (by omega), hlength, if_neg htail]
      change _ ∧ (_ → advance _ (d.from (diskAddress file
        (io.offset + (io.lengthRemaining - _)))) _ = _) ↔ _
      rw [from_add, io.advance_advance]
      exact Iff.rfl
  · rw [if_neg hwhole, if_neg hwhole, returns_rest htakes haligned (by omega) (by omega)]
    exact Iff.rfl

lemma returns_readLoop (htakes : io.Takes) {n : Nat}
    (hn : n = lead io.offset io.lengthRemaining left) :
    Returns target (readLoop d file left io) ↔
      Settled d file (io.advance (d.from (diskAddress file io.offset))
          (n + alignedMoved (io.lengthRemaining - n) (left - n)) = target)
        (reads io.offset io.lengthRemaining left) := by
  unfold reads
  rw [← hn]
  unfold lead at hn
  dsimp only
  have hlt := Nat.mod_lt io.offset (y := sectorSize) (by decide)
  by_cases hzero : n = 0
  · subst hzero
    rw [returns_aligned htakes, Nat.zero_add]
    · exact Iff.rfl
    · intro hmore
      by_contra hinside
      rw [if_neg hinside] at hn
      omega
  · have hinside : io.offset % sectorSize ≠ 0 := by
      intro haligned
      rw [if_pos haligned] at hn
      exact hzero hn
    rw [if_neg hinside] at hn
    have hle : n ≤ io.lengthRemaining := by omega
    rw [readLoop_part htakes (by omega) (fun h => hinside h.1) hn, returns_piece, if_neg hzero]
    refine and_congr_right fun _ => imp_congr_right fun _ => ?_
    rw [returns_aligned (htakes.advance hle)]
    · change Settled d file (advance _ (d.from (diskAddress file
        (io.offset + n))) _ = target) _ ↔ _
      rw [from_add, io.advance_advance]
      exact Iff.rfl
    · intro hmore
      change (io.offset + n) % sectorSize = 0
      have hnext : io.offset + n = sectorSize * (io.offset / sectorSize) + sectorSize := by
        have hdiv := Nat.div_add_mod io.offset sectorSize
        dsimp only [advance] at hmore
        omega
      rw [hnext, ← Nat.mul_succ, Nat.mul_mod_right]

/-- The request gets the rest of the file or what it asked for, whichever is
less, unless it reads too much. -/
lemma moved_eq_iff {offset length n : Nat} (hn : n = lead offset length left) :
    n + alignedMoved (length - n) (left - n) = min length left ↔
    ¬ Overreads offset length left := by
  unfold Overreads alignedMoved
  rw [← hn]
  have hle : n ≤ min length left := by
    rw [hn]
    unfold lead
    split
    · exact Nat.zero_le _
    · omega
  have hmod := Nat.mod_lt (length - n) (y := sectorSize) (by decide)
  have hdiv := Nat.div_add_mod (length - n) sectorSize
  unfold sectorSize at *
  split
  · omega
  · omega

/-- The read returns, and if it succeeds, the caller has the bytes of the file
from its offset on, up to the length it asked for and the end of the file, and
the transfer has moved by so much. -/
def ReadsExactly (d : Device) (file fileSize : Nat) (io : Transfer) : Prop :=
  Returns
    (io.advance (d.from (diskAddress file io.offset))
      (min io.lengthRemaining (fileSize - io.offset))) (demofsReadFile d file fileSize io)

/-- A read is exact if and only if it stays at addresses that an `int` holds
and, when the disk does not fail, it does not ask for two or more whole sectors
of which the file has the first but not all. -/
theorem demofsReadFile_exact_iff (d : Device) (file fileSize : Nat)
    (io : Transfer) (htakes : io.Takes) :
    ReadsExactly d file fileSize io ↔ Settled d file
        (¬ Overreads io.offset io.lengthRemaining (fileSize - io.offset))
        (reads io.offset io.lengthRemaining (fileSize - io.offset)) := by
  have hloop : demofsReadFile d file fileSize io = readLoop d file (fileSize - io.offset) io := by
    unfold demofsReadFile
    split
    · rw [readLoop_done (by omega)]
    · rfl
  unfold ReadsExactly
  rw [hloop, returns_readLoop htakes rfl]
  refine settled_congr ?_ _
  rw [← moved_eq_iff rfl]
  refine ⟨advance_injective, fun hmoved => ?_⟩
  rw [hmoved]

/-- A disk that does not fail. -/
def countingDisk : Device where
  bytes := fun i => UInt8.ofNat (i / 7)
  status := fun _ _ => none
  stDev := 1

/-- A kernel buffer for a request of some length at some offset. -/
def request (offset length : Nat) : Transfer where
  address := 4096
  lengthRemaining := length
  offset := offset
  memory := fun _ => 0
  accepts := fun _ _ => true

lemma request_takes (offset length : Nat) : (request offset length).Takes where
  address_ne := Nat.succ_ne_zero 4095
  accepts := fun _ _ _ _ => rfl

theorem demofsReadFile_exact_inside : ReadsExactly countingDisk 10 2000 (request 100 1800) :=
  (demofsReadFile_exact_iff _ _ _ _ (request_takes 100 1800)).mpr (by decide)

/-- Of a file of 600 bytes, 1024 bytes are read: the byte after the end of the
file is in the buffer. -/
theorem demofsReadFile_overreads :
    (∃ io', demofsReadFile countingDisk 10 600 (request 0 1024) =
        .ok (none, io') ∧ io'.offset = 1024 ∧ io'.lengthRemaining = 0 ∧
      io'.memory (4096 + 600) = countingDisk.bytes (10 * 512 + 600)) ∧
    ¬ ReadsExactly countingDisk 10 600 (request 0 1024) := by
  obtain ⟨failed, hwhole⟩ := @readLoop_whole countingDisk 10 600
    (request 0 1024) (request_takes 0 1024) 1024 (by decide) rfl
  have hread : demofsReadFile countingDisk 10 600 (request 0 1024) =
      .ok (none, (request 0 1024).advance (countingDisk.from (diskAddress 10 0)) 1024) := by
    unfold demofsReadFile
    rw [if_neg (by decide)]
    refine hwhole.trans ?_
    unfold piece
    rw [if_pos (by decide)]
    exact readLoop_done (.inl rfl)
  refine ⟨⟨_, hread, rfl, rfl, rfl⟩, ?_⟩
  unfold ReadsExactly
  rw [hread, returns_ok]
  exact fun hsame => absurd (advance_injective hsame) (by decide)

end Merlon.DemoFs
