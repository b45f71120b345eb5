/-
DemoFS as the kernel reads it, from `kernel/fs/demofs/demofs_inodes.c`, with
the transfers of `kernel/vfs/transfer.c`.  The disk is a device that reads all
the bytes it is asked for or fails.  Its driver hands one sector at a time to
the caller and does not look whether the caller took it.
-/
import Merlon.Library.ByteMemory
import Merlon.Library.Outcome

namespace Merlon.DemoFs

def sectorSize : Nat := 512

def maxNameLength : Nat := 24

inductive Errno where
  | einval
  | eio
  | eintr
  | enoent
  | enotdir
  | enametoolong
  deriving DecidableEq

/-- An assertion fails, an `int` overflows, or a buffer is indexed outside. -/
inductive Stop where
  | assertion
  | overflow
  | outOfBounds (index : Int)
  deriving DecidableEq

/-- The device by its bytes, with the error of a read by offset and length. -/
structure Device where
  bytes : ByteMemory
  status : Nat → Nat → Option Errno
  stDev : Nat

/-- The bytes of the device from an offset on. -/
def Device.from (d : Device) (offset : Nat) : ByteMemory :=
  fun i => d.bytes (offset + i)

/-- `struct transfer` of a read, with the memory of the caller.  The ranges that
`CopyOutOfKernel` accepts are all ranges when the caller is the kernel. -/
structure Transfer where
  address : Nat
  lengthRemaining : Nat
  offset : Nat
  memory : ByteMemory
  accepts : Nat → Nat → Bool

/-- The transfer after some bytes have been copied to the caller. -/
def Transfer.advance (io : Transfer) (trusted : ByteMemory) (amount : Nat) :
    Transfer :=
  { io with
    address := io.address + amount
    lengthRemaining := io.lengthRemaining - amount
    offset := io.offset + amount
    memory := io.memory.splice io.address amount trusted }

def performTransfer (trusted : ByteMemory) (io : Transfer) (len : Nat) :
    Except Stop (Option Errno × Transfer) :=
  if io.address = 0 then .error .assertion
  else
    let amount := min len io.lengthRemaining
    if amount = 0 then .ok (none, io)
    else if io.accepts io.address amount then
      .ok (none, io.advance trusted amount)
    else .ok (some .einval, io)

/-- The loop of a driver over the sectors it has read. -/
def handOver : Nat → ByteMemory → Transfer → Except Stop Transfer
  | 0, _, io => .ok io
  | count + 1, data, io => do
      let (_, io) ← performTransfer data io sectorSize
      handOver count (fun i => data (sectorSize + i)) io

/-- `ReadFile` of the disk. -/
def readFile (d : Device) (io : Transfer) : Except Stop (Option Errno × Transfer) :=
  if io.address = 0 then .ok (some .einval, io)
  else
    match d.status io.offset io.lengthRemaining with
    | some error => .ok (some error, io)
    | none => do
        let io ← handOver (io.lengthRemaining / sectorSize) (d.from io.offset) io
        .ok (none, io)

/-- `ReadFile` of one sector into a buffer of the kernel. -/
def readSector (d : Device) (offset : Nat) : Except Errno ByteMemory :=
  match d.status offset sectorSize with
  | some error => .error error
  | none => .ok (d.from offset)

/-- `sector * SECTOR_SIZE` as an `int`.  The inode of a file has 24 bits and the
offset is below its 32-bit size, so the sector itself is an `int`. -/
def sectorAddress (file offset : Nat) : Except Stop Nat :=
  let sector := file + offset / sectorSize
  if sector * sectorSize < 2 ^ 31 then .ok (sector * sectorSize)
  else .error .overflow

/-- The whole sectors of `demofs_read_file`. -/
def readWhole (d : Device) (file : Nat) (io : Transfer) :
    Except Stop (Option Errno × Transfer) := do
  let address ← sectorAddress file io.offset
  let remainder := io.lengthRemaining % sectorSize
  let delta := address - io.offset
  let (status, io) ← readFile d { io with
      lengthRemaining := io.lengthRemaining - remainder
      offset := io.offset + delta }
  match status with
  | some error => .ok (some error, io)
  | none => .ok (none,
      { io with offset := io.offset - delta, lengthRemaining := remainder })

/-- A part of a sector in `demofs_read_file`. -/
def readPart (d : Device) (file : Nat) (io : Transfer) (transferSize : Nat) :
    Except Stop (Option Errno × Transfer) := do
  let address ← sectorAddress file io.offset
  match readSector d address with
  | .error error => .ok (some error, io)
  | .ok buffer => do
      let (_, io) ← performTransfer (fun i => buffer (io.offset % sectorSize + i)) io transferSize
      .ok (none, io)

/-- The loop of `demofs_read_file`. -/
def readLoop (d : Device) (file fileSizeLeft : Nat) (io : Transfer) :
    Except Stop (Option Errno × Transfer) :=
  if _hmore : io.lengthRemaining ≠ 0 ∧ fileSizeLeft ≠ 0 then
    if io.offset % sectorSize = 0 ∧ sectorSize ≤ io.lengthRemaining ∧
        sectorSize ≤ fileSizeLeft then do
      let (status, io') ← readWhole d file io
      match status with
      | some error => .ok (some error, io')
      | none => readLoop d file (fileSizeLeft - sectorSize) io'
    else do
      let transferSize := min (min (sectorSize - io.offset % sectorSize)
        io.lengthRemaining) fileSizeLeft
      let (status, io') ← readPart d file io transferSize
      match status with
      | some error => .ok (some error, io')
      | none => readLoop d file (fileSizeLeft - transferSize) io'
  else .ok (none, io)
termination_by fileSizeLeft
decreasing_by
  · unfold sectorSize
    omega
  · have hlt := Nat.mod_lt io.offset (y := sectorSize) (by decide)
    omega

def demofsReadFile (d : Device) (file fileSize : Nat) (io : Transfer) :
    Except Stop (Option Errno × Transfer) :=
  if fileSize ≤ io.offset then .ok (none, io)
  else readLoop d file (fileSize - io.offset) io

def inodeIsDir (inode : Nat) : Bool :=
  decide (2 ^ 31 ≤ inode)

def inodeToDir (inode : Nat) : Nat :=
  inode ||| 2 ^ 31

/-- `demofs_read_inode`.  The address is computed with 32 bits. -/
def demofsReadInode (d : Device) (inode : Nat) : Except Errno ByteMemory :=
  readSector d (sectorSize * (inode % 2 ^ 24) % 2 ^ 32)

/-- `strncmp(name, buffer + place, count) == 0`. -/
def sameName : Nat → List UInt8 → ByteMemory → Nat → Bool
  | 0, _, _, _ => true
  | _ + 1, [], buffer, place => buffer place == 0
  | count + 1, char :: rest, buffer, place =>
    char == buffer place && sameName count rest buffer (place + 1)

/-- The inode and the length of the entry at a place of a directory sector. -/
def entryChild (buffer : ByteMemory) (place : Nat) : Nat × Nat :=
  let inode := buffer.load24 (place + maxNameLength + 4)
  if buffer (place + maxNameLength + 7) &&& 1 ≠ 0 then (inodeToDir inode, 0)
  else (inode, buffer.load (place + maxNameLength))

/-- The loop of `demofs_follow` over the entries of a sector. -/
def findEntry (name : List UInt8) (buffer : ByteMemory) :
    Nat → Nat → Option (Except Errno (Nat × Nat))
  | 0, _ => none
  | count + 1, i =>
    if buffer (i * 32) = 0 then some (.error .enoent)
    else if sameName maxNameLength name buffer (i * 32) then
      some (.ok (entryChild buffer (i * 32)))
    else findEntry name buffer count (i + 1)

/-- The loop of `demofs_follow` over the sectors of a directory, which may go on
forever. -/
def followFrom (d : Device) (name : List UInt8) : Nat → Nat → Option (Except Errno (Nat × Nat))
  | 0, _ => none
  | fuel + 1, parent =>
    match demofsReadInode d parent with
    | .error error => some (.error error)
    | .ok buffer =>
      if buffer 0 ≠ 0xFF ∧ buffer 0 ≠ 0xFE then some (.error .eio)
      else
        match findEntry name buffer (sectorSize / 32 - 1) 1 with
        | some result => some result
        | none =>
          if buffer 0 = 0xFF then some (.error .enoent)
          else if buffer 0 = 0xFE then
            followFrom d name fuel (inodeToDir (buffer.load24 1))
          else some (.error .eio)

/-- `demofs_follow`: the inode and the length of the child. -/
def demofsFollow (d : Device) (fuel parent : Nat) (name : List UInt8) :
    Option (Except Errno (Nat × Nat)) :=
  if maxNameLength < name.length then some (.error .enametoolong)
  else if !inodeIsDir parent then some (.error .enotdir)
  else followFrom d name fuel parent

inductive DType where
  | dir
  | reg
  deriving DecidableEq

structure Dirent where
  dIno : Nat
  dName : List UInt8
  dNamlen : Nat
  dType : DType
  dDisk : Nat
  deriving DecidableEq

/-- `sizeof(struct dirent)`. -/
def direntSize : Nat := 268

/-- `strncpy(name, buffer + place, count)` into a buffer of zeros. -/
def copyName : Nat → ByteMemory → Nat → List UInt8
  | 0, _, _ => []
  | count + 1, buffer, place =>
    if buffer place = 0 then []
    else buffer place :: copyName count buffer (place + 1)

/-- The loop of `demofs_read_directory_entry` over the sectors before the one
of the entry. -/
def skipSectors (d : Device) : Nat → Nat → Except Errno Nat
  | 0, inode => .ok inode
  | more + 1, inode => do
      let buffer ← demofsReadInode d inode
      if buffer 0 ≠ (if more = 0 then 0xFF else 0xFE) then .error .eio
      else skipSectors d more (buffer.load24 1)

def makeDirent (d : Device) (buffer : ByteMemory) (place : Nat) : Dirent :=
  let name := copyName maxNameLength buffer place
  let inode := buffer.load24 (place + maxNameLength + 4)
  { dIno := inode % 2 ^ 31
    dName := name
    dNamlen := name.length
    dType := if buffer (place + maxNameLength + 7) &&& 1 ≠ 0 then .dir else .reg
    dDisk := d.stDev }

/-- The conversion of an unsigned number to an `int`. -/
def toInt (n : Nat) : Int :=
  (BitVec.ofNat 32 n).toInt

/-- `demofs_read_directory_entry` up to the transfer of the entry; it returns 0
without a transfer when there is none. -/
def demofsReadDirectoryEntry (d : Device) (directory offset : Nat) :
    Except Stop (Except Errno (Option Dirent)) :=
  if !inodeIsDir directory then .ok (.error .enotdir)
  else if offset % direntSize ≠ 0 then .ok (.error .einval)
  else
    let entryNumber := toInt (offset / direntSize)
    if entryNumber = 0 then
      .ok (.ok (some
        { dIno := directory % 2 ^ 31, dName := [46], dNamlen := 1
          dType := .dir, dDisk := d.stDev }))
    else if entryNumber - 1 < -2 ^ 31 then .error .overflow
    else
      let indirections := (entryNumber - 1).tdiv 15
      let slot := (entryNumber - 1).tmod 15 + 1
      match skipSectors d indirections.toNat directory with
      | .error error => .ok (.error error)
      | .ok inode =>
        match demofsReadInode d inode with
        | .error error => .ok (.error error)
        | .ok buffer =>
          if slot < 0 then .error (.outOfBounds (slot * 32))
          else if buffer (slot.toNat * 32) = 0 then .ok (.ok none)
          else .ok (.ok (some (makeDirent d buffer (slot.toNat * 32))))

end Merlon.DemoFs
