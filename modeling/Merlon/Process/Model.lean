/-
Exits, adoptions and waits of process.c.  A step is the code from one blocking
semaphore operation to the next, where it waits for a process's lock, for the
mutex of the process table or for a `killed_children_semaphore`.
-/
import Merlon.Adt.TreeRuns
import Merlon.Library.Machine
import Merlon.Library.Outcome
import Merlon.Library.Tally

namespace Merlon.Processes

open Adt Function

inductive Check where
  | semaphoreFull
  | semaphoreCount
  | parentNotNull
  | avlBalance
  deriving DecidableEq

inductive Stop where
  | assertionFailed (check : Check)
  | nullDereference
  | useAfterFree
  deriving DecidableEq

/-- `SEM_BIG_NUMBER`, the size of every `killed_children_semaphore`. -/
def semBigNumber : Int :=
  2 ^ 30

def avlDefaultComparator (a b : Nat) : Int :=
  if a = b then 0 else if a < b then -1 else 1

/-- `struct process`; the children are known by their addresses.  The last four
fields are history: `KillProcess` was called, the threads were told to
terminate, a unit was released to the parent since the process terminated, and
`ReapProcess` has begun. -/
structure Process where
  pid : Nat
  parent : Nat
  children : Adt.Tree Nat
  retv : Int
  terminated : Bool
  exiting : Bool
  stopped : Bool
  notified : Bool
  reaping : Bool

/-- A `killed_children_semaphore` and the threads that wait for it. -/
structure Semaphore where
  currentCount : Int
  waiting : List Nat

/-- Where a call of `WaitProcess` is.  While it scans the children it keeps the
subtrees it has not walked yet. -/
inductive WaitPhase where
  | acquiring
  | waiting
  | taken
  | scanning (todo : List (TreeNode Nat))
  | removing (child : Nat)
  | detaching (child : Nat)

/-- A call of `WaitProcess`; `pid` is -1 for any child. -/
structure Wait where
  process : Nat
  pid : Int
  noHang : Bool
  failedReaps : Nat
  phase : WaitPhase

/-- Where `KillProcessHelper` is, with the children that are still to be
adopted. -/
inductive KillPhase where
  | start
  | lookup (orphans : List Nat)
  | adopting (adopter : Nat) (orphans : List Nat)
  | notifying (parent : Nat)
  | removing

structure Killer where
  process : Nat
  pid : Nat
  phase : KillPhase

/-- A child, the parent it has, the process that reaps it and the value that is
stored in `*status`. -/
structure Reap where
  pid : Nat
  parent : Nat
  reaper : Nat
  status : Int
  deriving DecidableEq

structure Returned where
  pid : Int
  result : Nat
  deriving DecidableEq

/-- Processes, semaphores and locks are known by the address of the process,
calls and killers by their thread.  `reaped`, `returned` and `exits` are
history. -/
structure State where
  memorySize : Nat
  threadCount : Nat
  process : Nat → Option Process
  semaphore : Nat → Semaphore
  lock : Nat → Option Nat
  table : Nat → Option Nat
  nextPid : Nat
  wait : Nat → Option Wait
  killer : Nat → Option Killer
  reaped : List Reap
  returned : List Returned
  exits : List (Nat × Int)

namespace State

def find (s : State) (a : Nat) : Except Stop Process :=
  match s.process a with
  | none => .error .useAfterFree
  | some p => .ok p

def setProcess (s : State) (a : Nat) (p : Option Process) : State :=
  { s with process := update s.process a p }

def setSemaphore (s : State) (a : Nat) (sem : Semaphore) : State :=
  { s with semaphore := update s.semaphore a sem }

def setLock (s : State) (a : Nat) (holder : Option Nat) : State :=
  { s with lock := update s.lock a holder }

def setTable (s : State) (pid : Nat) (a : Option Nat) : State :=
  { s with table := update s.table pid a }

def setWait (s : State) (thread : Nat) (w : Option Wait) : State :=
  { s with wait := update s.wait thread w }

def setKiller (s : State) (thread : Nat) (k : Option Killer) : State :=
  { s with killer := update s.killer thread k }

/-- `FreeHeap` of the process.  Its threads were told to terminate and never
go on, so their calls are no more. -/
def freeProcess (s : State) (a : Nat) : State :=
  { s.setProcess a none with
    wait := fun thread => (s.wait thread).filter fun w => w.process ≠ a }

/-- `GetProcessFromPid`. -/
def getProcessFromPid (s : State) (pid : Nat) : Option Nat :=
  s.table pid

/-- The thread that waited for the semaphore has a unit. -/
def grant (s : State) (thread : Nat) : State :=
  s.setWait thread ((s.wait thread).map fun w => { w with phase := .taken })

/-- `ReleaseSemaphore` on the semaphore of the process. -/
def releaseSemaphore (s : State) (a : Nat) : Except Stop State :=
  let sem := s.semaphore a
  if sem.currentCount > 0 then
    match sem.waiting with
    | [] => .ok (s.setSemaphore a { sem with currentCount := sem.currentCount - 1 })
    | thread :: rest => .ok ((s.setSemaphore a { sem with waiting := rest }).grant thread)
  else .error (.assertionFailed .semaphoreCount)

/-- The last loop of `WaitProcess`. -/
def releaseFailedReaps (a : Nat) : Nat → State → Except Stop State
  | 0, s => .ok s
  | failedReaps + 1, s => do
      let s ← s.releaseSemaphore a
      releaseFailedReaps a failedReaps s

/-- `WaitProcess` returns. -/
def endWait (s : State) (thread : Nat) (w : Wait) (result : Nat) : Except Stop State := do
  let s ← releaseFailedReaps w.process w.failedReaps (s.setWait thread none)
  .ok { s with returned := ⟨w.pid, result⟩ :: s.returned }

/-- `DestroySemaphore` with `SEM_REQUIRE_FULL`, and the assertion about it.
Who has begun to reap the process has freed its semaphore. -/
def destroySemaphore (s : State) (a : Nat) (p : Process) : Except Stop Unit :=
  if p.reaping then .error .useAfterFree
  else if (s.semaphore a).currentCount ≠ semBigNumber then
    .error (.assertionFailed .semaphoreFull)
  else .ok ()

/-- The node for a null pointer is null. -/
def removeFromProcessTable (s : State) (pid : Nat) : Except Stop State :=
  match s.table pid with
  | none => .error .nullDereference
  | some _ => .ok (s.setTable pid none)

def insertChild (s : State) (a child : Nat) : Except Stop State := do
  let p ← s.find a
  match treeInsert avlDefaultComparator p.children child with
  | none => .error (.assertionFailed .avlBalance)
  | some children => .ok (s.setProcess a (some { p with children := children }))

def deleteChild (s : State) (a child : Nat) : Except Stop State := do
  let p ← s.find a
  match treeDelete avlDefaultComparator p.children child with
  | none => .error (.assertionFailed .avlBalance)
  | some children => .ok (s.setProcess a (some { p with children := children }))

/-! `WaitProcess` -/

def dropNil : List (TreeNode Nat) → List (TreeNode Nat)
  | .nil :: rest => dropNil rest
  | todo => todo

/-- `RecursivelyTryReap` goes on to the next child, or returns zero to
`WaitProcess`, which tries again. -/
def continueScan (s : State) (thread : Nat) (w : Wait) (todo : List (TreeNode Nat)) : State :=
  match dropNil todo with
  | [] =>
    let failedReaps := if w.pid = -1 then w.failedReaps else w.failedReaps + 1
    (s.setLock w.process none).setWait thread
      (some { w with failedReaps := failedReaps, phase := .acquiring })
  | todo => s.setWait thread (some { w with phase := .scanning todo })

/-- `AcquireSemaphore`, which waits, fails or takes a unit. -/
def acquire (s : State) (thread : Nat) (w : Wait) : Except Stop State :=
  let sem := s.semaphore w.process
  if sem.currentCount < semBigNumber then
    .ok ((s.setSemaphore w.process
      { sem with currentCount := sem.currentCount + 1 }).setWait thread
        (some { w with phase := .taken }))
  else if w.noHang then s.endWait thread w 0
  else
    .ok ((s.setSemaphore w.process
      { sem with waiting := sem.waiting ++ [thread] }).setWait thread
        (some { w with phase := .waiting }))

/-- `LockProcess` of the calling process. -/
def lockProcess (s : State) (thread : Nat) (w : Wait) : Except Stop State := do
  let p ← s.find w.process
  .ok ((s.setLock w.process (some thread)).continueScan thread w [p.children.root])

/-- One child in `RecursivelyTryReap`, up to the removal from the process
table if it can be reaped. -/
def visit (s : State) (thread : Nat) (w : Wait) (left : TreeNode Nat)
    (child : Nat) (right : TreeNode Nat) (rest : List (TreeNode Nat)) : Except Stop State := do
  let p ← s.find w.process
  let c ← s.find child
  if c.terminated ∧ (c.pid = w.pid ∨ w.pid = -1) then
    s.destroySemaphore child c
    .ok ({ s.setProcess child (some { c with reaping := true }) with
      reaped := ⟨c.pid, c.parent, p.pid, c.retv⟩ :: s.reaped }.setWait thread
        (some { w with phase := .removing child }))
  else .ok (s.continueScan thread w (left :: right :: rest))

/-- The rest of `ReapProcess` and of the call. -/
def detach (s : State) (thread : Nat) (w : Wait) (child : Nat) : Except Stop State := do
  let c ← s.find child
  let s ←
    if c.parent = 0 then .ok s
    else
      match s.getProcessFromPid c.parent with
      | none => .error .nullDereference
      | some parent => s.deleteChild parent child
  let s := (s.freeProcess child).setLock w.process none
  s.endWait thread w c.pid

def stepWait (s : State) (thread : Nat) (w : Wait) : Except Stop State :=
  match w.phase with
  | .acquiring => s.acquire thread w
  | .waiting => .ok s
  | .taken => s.lockProcess thread w
  | .scanning (.node left child right :: rest) => s.visit thread w left child right rest
  | .scanning todo => .ok (s.continueScan thread w todo)
  | .removing child => do
      let c ← s.find child
      let s ← s.removeFromProcessTable c.pid
      .ok (s.setWait thread (some { w with phase := .detaching child }))
  | .detaching child => s.detach thread w child

/-! `KillProcessHelper` -/

/-- The order of `RecursivelyMakeChildrenOrphans`. -/
def postorder : TreeNode Nat → List Nat
  | .nil => []
  | .node left child right => postorder left ++ postorder right ++ [child]

/-- All children are orphans: the process terminates, and is reaped at once if
it has no parent. -/
def terminate (s : State) (thread : Nat) (k : Killer) : Except Stop State := do
  let p ← s.find k.process
  let s := s.setProcess k.process (some { p with terminated := true })
  if p.parent = 0 then
    s.destroySemaphore k.process p
    .ok (s.setKiller thread (some { k with phase := .removing }))
  else .ok (s.setKiller thread (some { k with phase := .notifying p.parent }))

def continueAdoption (s : State) (thread : Nat) (k : Killer)
    (orphans : List Nat) : Except Stop State :=
  match orphans with
  | [] => s.terminate thread k
  | orphans => .ok (s.setKiller thread (some { k with phase := .lookup orphans }))

/-- `AdoptOrphan`.  The walk of `RecursivelyMakeChildrenOrphans` is on freed
nodes if somebody inserts into the tree it walks. -/
def adoptOrphan (s : State) (k : Killer) (adopter orphan : Nat)
    (rest : List Nat) : Except Stop State := do
  let a ← s.find adopter
  let c ← s.find orphan
  if a.terminated ∨ (a.stopped ∧ (adopter ≠ k.process ∨ rest ≠ [])) then
    .error .useAfterFree
  else
    let s := s.setProcess orphan (some { c with
      parent := a.pid
      notified := c.terminated })
    let s ← s.insertChild adopter orphan
    s.releaseSemaphore adopter

/-- The exit notification; a unit for a process that has been adopted or reaped
meanwhile is not its own. -/
def notify (s : State) (k : Killer) (parent : Nat) : Except Stop State :=
  match s.getProcessFromPid parent with
  | none => .error (.assertionFailed .parentNotNull)
  | some a =>
    let s :=
      match s.process k.process with
      | none => s
      | some p =>
        if p.pid = k.pid ∧ p.parent = parent then
          s.setProcess k.process (some { p with notified := p.terminated })
        else s
    s.releaseSemaphore a

def stepKiller (s : State) (thread : Nat) (k : Killer) : Except Stop State :=
  match k.phase with
  | .start => do
      let p ← s.find k.process
      let s := s.setProcess k.process (some { p with stopped := true })
      s.continueAdoption thread k (postorder p.children.root)
  | .lookup orphans =>
    match s.getProcessFromPid 1 with
    | none => .error .nullDereference
    | some adopter => .ok (s.setKiller thread (some { k with phase := .adopting adopter orphans }))
  | .adopting adopter (orphan :: rest) => do
      let s ← s.adoptOrphan k adopter orphan rest
      s.continueAdoption thread k rest
  | .adopting _ [] => s.continueAdoption thread k []
  | .notifying parent => do
      let s ← s.notify k parent
      .ok (s.setKiller thread none)
  | .removing => do
      let p ← s.find k.process
      let s ← s.removeFromProcessTable p.pid
      .ok ((s.freeProcess k.process).setKiller thread none)

/-- A process just after `InsertIntoProcessTable`. -/
def enroll (s : State) (parent a : Nat) : State :=
  let p : Process :=
    { pid := s.nextPid
      parent := parent
      children := treeCreate
      retv := 0
      terminated := false
      exiting := false
      stopped := false
      notified := false
      reaping := false }
  { ((s.setSemaphore a ⟨semBigNumber, []⟩).setLock a none |>.setProcess a
      (some p)).setTable s.nextPid (some a) with
    nextPid := s.nextPid + 1 }

/-- `CreateProcess`; the heap gives it an address that is not in use. -/
def create (s : State) (parent a : Nat) : Except Stop State :=
  let s := s.enroll parent a
  if parent = 0 then .ok s
  else
    match s.getProcessFromPid parent with
    | none => .error .nullDereference
    | some b => s.insertChild b a

/-- `KillProcess` up to the thread that does the work. -/
def kill (s : State) (thread a : Nat) (retv : Int) : Except Stop State := do
  let p ← s.find a
  .ok { (s.setProcess a (some { p with retv := retv, exiting := true })).setKiller
      thread (some ⟨a, p.pid, .start⟩) with
    exits := (p.pid, retv) :: s.exits }

end State

inductive Event where
  | create (parent a : Nat)
  | wait (thread a : Nat) (pid : Int) (noHang : Bool)
  | goOn (thread : Nat)
  | kill (thread a : Nat) (retv : Int)
  | killer (thread : Nat)
  deriving DecidableEq

def Event.step (s : State) : Event → Except Stop State
  | .create parent a => s.create parent a
  | .wait thread a pid noHang => .ok (s.setWait thread (some ⟨a, pid, noHang, 0, .acquiring⟩))
  | .goOn thread =>
    match s.wait thread with
    | none => .ok s
    | some w => s.stepWait thread w
  | .kill thread a retv => s.kill thread a retv
  | .killer thread =>
    match s.killer thread with
    | none => .ok s
    | some k => s.stepKiller thread k

/-- Nobody stops the threads of the process, if there is one. -/
def State.runs (s : State) (a : Nat) : Bool :=
  match s.process a with
  | none => false
  | some p => !p.stopped

/-- A lock is taken when it is free, and a thread goes on until it is told to
terminate.  A process exits once, and a parent is one that was created. -/
def Event.allowed (s : State) : Event → Bool
  | .create parent a => decide (a ≤ s.memorySize) && (s.process a).isNone &&
      decide (parent < s.nextPid) &&
      match s.getProcessFromPid parent with
      | none => true
      | some b => (s.lock b).isNone && s.runs b
  | .wait thread a _ _ => decide (thread ≤ s.threadCount) && (s.wait thread).isNone && s.runs a
  | .goOn thread =>
    match s.wait thread with
    | none => false
    | some w => s.runs w.process &&
        match w.phase with
        | .waiting => false
        | .taken => (s.lock w.process).isNone
        | .scanning (.node _ child _ :: _) => (s.lock child).isNone
        | _ => true
  | .kill thread a _ => (s.killer thread).isNone &&
      match s.process a with
      | none => false
      | some p => !p.exiting
  | .killer thread =>
    match s.killer thread with
    | none => false
    | some k =>
      match k.phase with
      | .adopting adopter _ => (s.lock adopter).isNone
      | _ => true

/-- Before the first process is created. -/
def State.start (memorySize threadCount : Nat) : State where
  memorySize := memorySize
  threadCount := threadCount
  process := fun _ => none
  semaphore := fun _ => ⟨semBigNumber, []⟩
  lock := fun _ => none
  table := fun _ => none
  nextPid := 1
  wait := fun _ => none
  killer := fun _ => none
  reaped := []
  returned := []
  exits := []

/-- An allowed step, with a guard on the state before it. -/
def State.Step (guard : State → Event → Bool) (s : State) (event : Event) (s' : State) : Prop :=
  event.allowed s = true ∧ guard s event = true ∧ event.step s = .ok s'

end Merlon.Processes
