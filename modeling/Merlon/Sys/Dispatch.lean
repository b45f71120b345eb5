/-
System calls with numbers from user mode, from `kernel/sys/syscalls.c` and the
calls under `kernel/sys/calls` that use a register as an index or as a number of
bits to shift by.  The other calls, and what a call does once it has its file,
are given.
-/
import Merlon.Files.Model
import Merlon.Threads.Signals

namespace Merlon.Sys

/-- The argument registers of a system call. -/
structure Registers where
  a : BitVec 32
  b : BitVec 32
  c : BitVec 32
  d : BitVec 32
  e : BitVec 32
  deriving DecidableEq

inductive Errno where
  | enosys
  | ealready
  | file (errno : Files.Errno)
  | other (code : Nat)
  deriving DecidableEq

/-- How a call ends without returning; a `badShift` is a shift by a negative
number. -/
inductive Stop where
  | outOfBounds (index : Int)
  | badShift (amount : Int)
  | nullDereference
  | files (stop : Files.Stop)
  | threads (stop : Threads.Stop)
  | other (code : Nat)

/-- What `prcss->threads->root->data` leads to: nothing, a null pointer, or a
thread. -/
inductive Root where
  | missing
  | null
  | thread (thread : Nat)
  deriving DecidableEq

structure Kernel where
  files : Files.World
  tasks : Threads.Tasks
  blockedSignals : Nat → BitVec 32
  userCommonSignalHandler : Nat → BitVec 32
  process : Int → Option Root

abbrev Result := Except Errno Nat

/-- What a call returns and leaves, or how it stops. -/
abbrev Outcome := Except Stop (Result × Kernel)

/-- The rest of the kernel: reading or writing a file that has been found,
writing a word to user mode, waiting for and masking signals, and the calls that
use no register as an index. -/
structure Others where
  transfer : Nat → Registers → Kernel → Except Nat (Result × Kernel)
  writeWord : BitVec 32 → Nat → Kernel → Except Nat (Result × Kernel)
  suspend : Registers → Kernel → Except Nat (Result × Kernel)
  mask : Registers → Kernel → Except Nat (Result × Kernel)
  call : Nat → Registers → Kernel → Except Nat (Result × Kernel)

/-- A part of the rest of the kernel. -/
def outside (outcome : Except Nat (Result × Kernel)) : Outcome :=
  match outcome with
  | .error code => .error (.other code)
  | .ok result => .ok result

def Result.ofFiles (result : Files.Result) : Result :=
  match result with
  | .error errno => .error (.file errno)
  | .ok value => .ok value

/-- A call on the descriptor table. -/
def onFiles (k : Kernel) (outcome : Except Files.Stop (Files.Result × Files.World)) : Outcome :=
  match outcome with
  | .error stop => .error (.files stop)
  | .ok (result, files) => .ok (Result.ofFiles result, { k with files := files })

def sysReadWrite (others : Others) (k : Kernel) (r : Registers) : Outcome :=
  match k.files.getFileFromFd true r.a.toInt with
  | .error stop => .error (.files stop)
  | .ok (.error errno, files) => .ok (.error (.file errno), { k with files := files })
  | .ok (.ok f, files) => outside (others.transfer f r { k with files := files })

def sysDup (others : Others) (k : Kernel) (r : Registers) : Outcome :=
  if Files.validFlags r.d = false then .ok (.error (.file .einval), k)
  else if r.a = 1 then
    match k.files.dupFd r.b.toInt with
    | .error stop => .error (.files stop)
    | .ok (.error errno, files) => .ok (.error (.file errno), { k with files := files })
    | .ok (.ok fd, files) => outside (others.writeWord r.c fd { k with files := files })
  else if r.a = 2 then
    onFiles k (k.files.dupFd2 r.b.toInt r.c.toInt r.d)
  else .ok (.error (.file .einval), k)

/-- `RaiseSignal`, whose signal is a signed number. -/
def raiseSignal (k : Kernel) (thread : Nat) (sigNum : Int) : Outcome :=
  if (Threads.sigUpperBnd : Int) ≤ sigNum then .ok (.error (.file .einval), k)
  else if sigNum < 0 then .error (.badShift sigNum)
  else
    match Threads.raiseSignal k.tasks thread sigNum.toNat with
    | .error stop => .error (.threads stop)
    | .ok (.einval, tasks) => .ok (.error (.file .einval), { k with tasks := tasks })
    | .ok (.success, tasks) => .ok (.ok 0, { k with tasks := tasks })

/-- The `kill` of `SysSignal`. -/
def kill (k : Kernel) (pid : Int) (sigNum : Int) : Outcome :=
  if 0 < pid then
    match k.process pid with
    | none => .ok (.error (.file .einval), k)
    | some .missing => .error .nullDereference
    | some .null => .ok (.error (.file .einval), k)
    | some (.thread thread) => raiseSignal k thread sigNum
  else .ok (.error .enosys, k)

def sysSignal (others : Others) (k : Kernel) (r : Registers) : Outcome :=
  let thr := k.tasks.current
  match r.a.toNat with
  | 0 =>
    if k.userCommonSignalHandler thr = 0 then
      .ok (.ok 0, { k with
        userCommonSignalHandler :=
          Function.update k.userCommonSignalHandler thr r.b })
    else .ok (.error .ealready, k)
  | 1 =>
    if Threads.sigUpperBnd ≤ r.c.toNat then .ok (.error (.file .einval), k)
    else
      .ok (.ok 0, { k with
        blockedSignals := Function.update k.blockedSignals thr
          (k.blockedSignals thr &&& ~~~ (1#32 <<< r.c.toNat)) })
  | 2 => kill k r.d.toInt r.c.toInt
  | 3 => outside (others.suspend r k)
  | 4 => outside (others.mask r k)
  | _ => .ok (.error (.file .einval), k)

def syscallNumEntries : Nat := 26

/-- `HandleSystemCall`, where the table has a function at every index. -/
def handleSystemCall (others : Others) (k : Kernel) (call : BitVec 32) (r : Registers) : Outcome :=
  if (syscallNumEntries : Int) ≤ call.toInt then .ok (.error .enosys, k)
  else if call.toInt < 0 then .error (.outOfBounds call.toInt)
  else
    match call.toNat with
    | 5 => sysReadWrite others k r
    | 6 => onFiles k (k.files.sysClose r.a)
    | 8 => sysDup others k r
    | 23 => sysSignal others k r
    | number => outside (others.call number r k)

/-- The call came to an index or a shift that is not in range. -/
def Stop.outOfRange : Stop → Bool
  | .outOfBounds _ => true
  | .badShift _ => true
  | .files (.outOfBounds _) => true
  | _ => false

/-- A descriptor that is not the index of a slot. -/
def badFd (fd : BitVec 32) : Prop :=
  Files.slot fd.toInt = none

/-- A number of a signal that is not below the upper bound. -/
def badSignal (sigNum : BitVec 32) : Prop :=
  Threads.sigUpperBnd ≤ sigNum.toNat

/-- Some number that the call takes as an index or a shift is not in range. -/
def OutOfRange (call : BitVec 32) (r : Registers) : Prop :=
  syscallNumEntries ≤ call.toNat ∨ ((call = 5 ∨ call = 6) ∧ badFd r.a) ∨
    (call = 8 ∧ r.a = 1 ∧ badFd r.b) ∨ (call = 8 ∧ r.a = 2 ∧ (badFd r.b ∨ badFd r.c)) ∨
    (call = 23 ∧ (r.a = 1 ∨ r.a = 2) ∧ badSignal r.c)

/-- No index or shift out of range is used, and a call with a number out of
range fails and changes nothing. -/
structure Guarded (k : Kernel) (call : BitVec 32) (r : Registers) (outcome : Outcome) : Prop where
  used : ∀ stop, outcome = .error stop → stop.outOfRange = false
  rejected : OutOfRange call r → ∃ errno, outcome = .ok (.error errno, k)

/-- The numbers that the code does not check: a negative number of a call, the
new descriptor of `dup2`, and the signal of `kill` when it is negative or the
process has no thread left. -/
structure Checked (k : Kernel) (call : BitVec 32) (r : Registers) : Prop where
  number : 0 ≤ call.toInt
  dup : call = 8 → r.a = 2 → Files.validFlags r.d = true → ∀ i, Files.slot r.b.toInt = some i →
    badFd r.c → k.files.table.lock = none ∧ (k.files.table.entry i).file = none
  kill : call = 23 → r.a = 2 → 0 < r.d.toInt →
    (k.process r.d.toInt = some .missing → ¬ badSignal r.c) ∧
    ∀ thread, k.process r.d.toInt = some (.thread thread) → 0 ≤ r.c.toInt

end Merlon.Sys
