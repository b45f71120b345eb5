/-
File descriptor tables and open files, from `kernel/vfs/filedes.c`,
`kernel/vfs/openfile.c` and `kernel/sys/calls/close.c`.  A table is an array of
slots behind a mutex; several slots, of one table or of many, may hold the same
file, which counts its references.
-/
import Mathlib.Data.List.FinRange
import Merlon.Library.Outcome

namespace Merlon.Files

def procMaxFd : Nat := 1024

def oCloexec : BitVec 32 := 256

inductive Errno where
  | einval
  | ebadf
  | emfile
  deriving DecidableEq

/-- How a call ends without returning.  A `deadlock` is an `AcquireMutex` on a
mutex that the same call holds. -/
inductive Stop where
  | deadlock
  | nullDereference
  | outOfBounds (index : Int)
  | useAfterFree (file : Nat)
  deriving DecidableEq

/-- `struct fd`; a slot without a file is not in use. -/
structure Fd where
  file : Option Nat
  flags : BitVec 32
  deriving DecidableEq

/-- `struct fd_table`.  The lock says whether the running call holds the mutex;
others who hold it delay the call only.  There is none when the mutex is
abstracted. -/
structure FdTable where
  lock : Option Bool
  entry : Fin procMaxFd → Fd

/-- `struct file`, which is freed with its last reference.  `CreateFile` is
given a vnode, so `node` is not null. -/
structure File where
  referenceCount : Nat
  node : Nat
  positive : 0 < referenceCount

/-- The table a call works on, and the files by their addresses. -/
structure World where
  table : FdTable
  file : Nat → Option File

/-- What a call returns: a descriptor, a file or zero, or an error. -/
abbrev Result := Except Errno Nat

/-- The order in which the loops visit the slots. -/
@[irreducible] def descriptors : List (Fin procMaxFd) :=
  List.finRange procMaxFd

/-- The slot of a descriptor. -/
def slot (fd : Int) : Option (Fin procMaxFd) :=
  if h : 0 ≤ fd ∧ fd < procMaxFd then some ⟨fd.toNat, by omega⟩ else none

def validFlags (flags : BitVec 32) : Bool :=
  flags &&& ~~~oCloexec == 0

/-- The first slot that passes the test. -/
def FdTable.firstFd (table : FdTable) (test : Fd → Bool) : Option (Fin procMaxFd) :=
  descriptors.find? fun i => test (table.entry i)

def FdTable.firstFree (table : FdTable) : Option (Fin procMaxFd) :=
  table.firstFd fun fd => fd.file.isNone

def FdTable.setEntry (table : FdTable) (i : Fin procMaxFd) (fd : Fd) :
    FdTable :=
  { table with entry := Function.update table.entry i fd }

namespace World

def acquireMutex (w : World) : Except Stop World :=
  match w.table.lock with
  | none => .ok w
  | some false => .ok { w with table := { w.table with lock := some true } }
  | some true => .error .deadlock

def releaseMutex (w : World) : World :=
  { w with table := { w.table with lock := w.table.lock.map fun _ => false } }

def setEntry (w : World) (i : Fin procMaxFd) (fd : Fd) : World :=
  { w with table := w.table.setEntry i fd }

/-- The slot is no longer in use; its flags stay. -/
def clearEntry (w : World) (i : Fin procMaxFd) : World :=
  w.setEntry i { w.table.entry i with file := none }

def setFile (w : World) (f : Nat) (file : Option File) : World :=
  { w with file := Function.update w.file f file }

/-- A use of the file that a pointer leads to. -/
def find (w : World) (f : Nat) : Except Stop File :=
  match w.file f with
  | none => .error (.useAfterFree f)
  | some file => .ok file

/-- `CreateFile`, at an address the heap gives it. -/
def createFile (w : World) (f node : Nat) : World :=
  w.setFile f (some ⟨1, node, Nat.one_pos⟩)

def referenceFile (w : World) (f : Nat) : Except Stop World := do
  let file ← w.find f
  .ok (w.setFile f (some ⟨file.referenceCount + 1, file.node, Nat.succ_pos _⟩))

def dereferenceFile (w : World) (f : Nat) : Except Stop World := do
  let file ← w.find f
  if h : 1 < file.referenceCount then
    .ok (w.setFile f (some ⟨file.referenceCount - 1, file.node, Nat.sub_pos_of_lt h⟩))
  else .ok (w.setFile f none)

/-- `CloseFile`; the reference to the vnode goes too. -/
def closeFile (w : World) (f : Nat) : Except Stop (Result × World) := do
  let w ← w.dereferenceFile f
  .ok (.ok 0, w)

/-- The message of the log reads `file->node`. -/
def createFd (w : World) (f : Nat) (flags : BitVec 32) : Except Stop (Result × World) :=
  if validFlags flags then do
    let w ← w.acquireMutex
    match w.table.firstFree with
    | none => .ok (.error .emfile, w.releaseMutex)
    | some i =>
      let w := (w.setEntry i ⟨some f, flags⟩).releaseMutex
      let _ ← w.find f
      .ok (.ok i, w)
  else .ok (.error .einval, w)

/-- `RemoveFd` clears the first slot with the file, and reads `file->node` for
the log. -/
def removeFd (w : World) (f : Nat) : Except Stop (Result × World) := do
  let w ← w.acquireMutex
  match w.table.firstFd fun fd => fd.file == some f with
  | none => .ok (.error .einval, w.releaseMutex)
  | some i =>
    let w := w.clearEntry i
    let _ ← w.find f
    .ok (.ok 0, w.releaseMutex)

/-- `GetFileFromFd`; `out` says whether there is a place for the result. -/
def getFileFromFd (w : World) (out : Bool) (fd : Int) : Except Stop (Result × World) :=
  match out, slot fd with
  | false, _ => .error .nullDereference
  | true, none => .ok (.error .ebadf, w)
  | true, some i => do
      let w ← w.acquireMutex
      let w := w.releaseMutex
      match (w.table.entry i).file with
      | none => .ok (.error .ebadf, w)
      | some f => .ok (.ok f, w)

/-- The loop of `HandleExecFd`. -/
def execFrom : List (Fin procMaxFd) → World → Except Stop (Result × World)
  | [], w => .ok (.ok 0, w.releaseMutex)
  | i :: rest, w =>
    match (w.table.entry i).file with
    | none => execFrom rest w
    | some f =>
      if (w.table.entry i).flags &&& oCloexec == 0 then execFrom rest w
      else do
        let (res, w) ← (w.clearEntry i).closeFile f
        match res with
        | .error error => .ok (.error error, w.releaseMutex)
        | .ok _ => execFrom rest w

def handleExecFd (w : World) : Except Stop (Result × World) := do
  let w ← w.acquireMutex
  execFrom descriptors w

def dupFd (w : World) (oldfd : Int) : Except Stop (Result × World) := do
  let w ← w.acquireMutex
  let (original, w) ← w.getFileFromFd true oldfd
  match original with
  | .error _ => .ok (.error .ebadf, w.releaseMutex)
  | .ok f =>
    match w.table.firstFree with
    | none => .ok (.error .emfile, w.releaseMutex)
    | some i => .ok (.ok i, (w.setEntry i ⟨some f, 0⟩).releaseMutex)

/-- `DupFd2`.  It looks `oldfd` up twice, and the file it closes is the one it
finds the second time. -/
def dupFd2 (w : World) (oldfd newfd : Int) (flags : BitVec 32) : Except Stop (Result × World) :=
  if validFlags flags then do
    let w ← w.acquireMutex
    let (original, w) ← w.getFileFromFd true oldfd
    match original with
    | .error _ => .ok (.error .ebadf, w.releaseMutex)
    | .ok f =>
      if oldfd = newfd then .ok (.ok 0, w.releaseMutex)
      else
        let (current, w) ← w.getFileFromFd true oldfd
        let w ←
          match current with
          | .error _ => .ok w
          | .ok g => Prod.snd <$> w.closeFile g
        match slot newfd with
        | none => .error (.outOfBounds newfd)
        | some i => .ok (.ok 0, (w.setEntry i ⟨some f, flags⟩).releaseMutex)
  else .ok (.error .einval, w)

/-- `SysClose`; the register is converted to an `int`. -/
def sysClose (w : World) (fd : BitVec 32) : Except Stop (Result × World) := do
  let (found, w) ← w.getFileFromFd true fd.toInt
  match found with
  | .error error => .ok (.error error, w)
  | .ok f =>
    let (_, w) ← w.removeFd f
    w.closeFile f

/-- The loop of `DestroyFdTable`, which leaves the slots as they are. -/
def closeAll : List (Fin procMaxFd) → World → Except Stop World
  | [], w => .ok w
  | i :: rest, w =>
    match (w.table.entry i).file with
    | none => closeAll rest w
    | some f => do
        let (_, w) ← w.closeFile f
        closeAll rest w

def destroyFdTable (w : World) : Except Stop World := do
  let w ← w.acquireMutex
  let w ← closeAll descriptors w
  .ok w.releaseMutex

end World

/-- `CreateFdTable`, with its mutex or with the mutex abstracted. -/
def createFdTable (lock : Option Bool) : FdTable where
  lock := lock
  entry := fun _ => ⟨none, 0⟩

end Merlon.Files
