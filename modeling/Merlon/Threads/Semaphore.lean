/-
Semaphores, sleeping and switching threads: the functions of semaphore.c,
timer.c and thread.c that run with the scheduler lock held.  `AcquireSemaphore`
is cut where it gives up the lock: `acquireSemaphore` is what happens before,
`acquireResult` the value the thread returns once it runs on.
-/
import Merlon.Threads.ThreadList

namespace Merlon.Threads

open Function (update)

inductive ThreadState where
  | running
  | ready
  | sleeping
  | waitingForSemaphore
  | waitingForSemaphoreWithTimeout
  | terminated
  | stopped
  | waitingForSignal
  deriving DecidableEq

structure Thread where
  state : ThreadState
  sleepExpiry : Nat
  timedOut : Bool
  timedOutDueToSignal : Bool
  signalIntr : Bool
  waitingOnSemaphore : Option Nat
  deriving DecidableEq

/-- Everything but the lists.  Threads are `1 … threadCount`; semaphores are
numbered, and `maxCount` and `currentCount` are fields of each. -/
structure Core where
  threadCount : Nat
  thread : Nat → Thread
  maxCount : Nat → Int
  currentCount : Nat → Int
  currentThread : Nat
  postponedTaskSwitch : Bool
  systemTime : Nat

/-- The three `next` pointers of every thread, the ready list, the sleep list
and the waiting list of every semaphore. -/
structure State extends Core where
  nextReady : Nat → Nat
  nextSleep : Nat → Nat
  nextSemaphore : Nat → Nat
  readyList : ThreadList
  sleepList : ThreadList
  waitingList : Nat → ThreadList

inductive AcquireResult where
  | success
  | eagain
  | etimedout
  deriving DecidableEq

namespace Core

def IsThread (c : Core) (thread : Nat) : Prop :=
  0 < thread ∧ thread ≤ c.threadCount

def modifyThread (c : Core) (thread : Nat) (change : Thread → Thread) : Core :=
  { c with thread := update c.thread thread (change (c.thread thread)) }

def setCurrentCount (c : Core) (sem : Nat) (count : Int) : Core :=
  { c with currentCount := update c.currentCount sem count }

/-- `BlockThread`: the current thread keeps running until the scheduler lock
is given up, when the postponed task switch happens. -/
def block (c : Core) (reason : ThreadState) : Core :=
  { c.modifyThread c.currentThread (fun thr => { thr with state := reason }) with
    postponedTaskSwitch := true }

/-- When a wait for `timeoutMs` milliseconds that begins now ends. -/
def expiryAfter (c : Core) (timeoutMs : Int) : Nat :=
  (c.systemTime + (timeoutMs % 2 ^ 64).toNat * 1000 * 1000) % 2 ^ 64

/-- The test of `HandleSleepWakeups`. -/
def isDue (c : Core) (time thread : Nat) : Bool :=
  decide ((c.thread thread).sleepExpiry ≤ time) || (c.thread thread).signalIntr

end Core

namespace State

def modifyThread (s : State) (thread : Nat) (change : Thread → Thread) : State :=
  { s with toCore := s.toCore.modifyThread thread change }

def setCurrentCount (s : State) (sem : Nat) (count : Int) : State :=
  { s with toCore := s.toCore.setCurrentCount sem count }

/-- A walk over more threads than there are does not end. -/
def fuel (s : State) : Nat :=
  s.threadCount + 1

end State

def blockThread (s : State) (reason : ThreadState) : Except Stop State :=
  if reason = .ready ∨ reason = .running then .error .assertionFailed
  else if (s.thread s.currentThread).state ≠ .running then
    .error .assertionFailed
  else .ok { s with toCore := s.toCore.block reason }

def insertReady (s : State) (thread : Nat) : Except Stop State := do
  let (next, list) ← threadListInsert s.fuel s.nextReady s.readyList thread
  .ok { s with nextReady := next, readyList := list }

def insertWaiting (s : State) (sem thread : Nat) : Except Stop State := do
  let (next, list) ←
    threadListInsert s.fuel s.nextSemaphore (s.waitingList sem) thread
  .ok { s with
    nextSemaphore := next
    waitingList := update s.waitingList sem list }

def deleteSleeping (s : State) (thread : Nat) : Except Stop State := do
  let (next, list) ← threadListDelete s.fuel s.nextSleep s.sleepList thread
  .ok { s with nextSleep := next, sleepList := list }

def queueForSleep (s : State) (thread : Nat) : Except Stop State := do
  let s := s.modifyThread thread (fun thr => { thr with timedOut := false })
  let (next, list) ← threadListInsert s.fuel s.nextSleep s.sleepList thread
  .ok { s with nextSleep := next, sleepList := list }

def tryDequeueForSleep (s : State) (thread : Nat) : Except Stop (Bool × State) := do
  let queued ← threadListContains s.fuel s.nextSleep s.sleepList thread
  if queued then
    let s ← deleteSleeping s thread
    .ok (true, s)
  else .ok (false, s)

def cancelSemaphoreOfThread (s : State) (thread : Nat) : Except Stop State :=
  match (s.thread thread).waitingOnSemaphore with
  | none => .error .nullDereference
  | some sem => do
      let waiting ←
        threadListContains s.fuel s.nextSemaphore (s.waitingList sem) thread
      if waiting then
        let (next, list) ←
          threadListDelete s.fuel s.nextSemaphore (s.waitingList sem) thread
        .ok { s with
          nextSemaphore := next
          waitingList := update s.waitingList sem list }
      else .error .assertionFailed

def unblockThread (s : State) (thread : Nat) : Except Stop State := do
  let s ←
    if (s.thread thread).state = .waitingForSemaphoreWithTimeout then
      cancelSemaphoreOfThread s thread
    else .ok s
  insertReady s thread

def createSemaphore (s : State) (sem : Nat) (maxCount initialCount : Int) :
    State :=
  { s with
    maxCount := update s.maxCount sem maxCount
    currentCount := update s.currentCount sem initialCount
    waitingList := update s.waitingList sem threadListInit }

/-- `AcquireSemaphore` by the current thread, up to `UnlockScheduler`. -/
def acquireSemaphore (s : State) (sem : Nat) (timeoutMs : Int) : Except Stop State := do
  let thread := s.currentThread
  let s := s.modifyThread thread (fun thr => { thr with timedOut := false })
  if s.currentCount sem < s.maxCount sem then
    .ok (s.setCurrentCount sem (s.currentCount sem + 1))
  else
    let s := s.modifyThread thread (fun thr => { thr with waitingOnSemaphore := some sem })
    if timeoutMs = 0 then
      .ok (s.modifyThread thread (fun thr => { thr with timedOut := true }))
    else if timeoutMs = -1 then
      let s ← insertWaiting s sem thread
      blockThread s .waitingForSemaphore
    else
      let s ← insertWaiting s sem thread
      let s := s.modifyThread thread
        (fun thr => { thr with sleepExpiry := s.expiryAfter timeoutMs })
      let s ← queueForSleep s thread
      blockThread s .waitingForSemaphoreWithTimeout

/-- What `AcquireSemaphore` returns. -/
def acquireResult (thr : Thread) (timeoutMs : Int) : AcquireResult :=
  if thr.timedOut then
    if timeoutMs = 0 then .eagain else .etimedout
  else .success

/-- `DecrementSemaphore`; its argument `first` is never true, because
`ReleaseSemaphoreEx` compares `decrements` with zero after counting it up. -/
def decrementSemaphore (s : State) (sem : Nat) : Except Stop State :=
  if (s.waitingList sem).head = 0 then
    if s.currentCount sem = 0 then .error .panicNegativeSemaphore
    else .ok (s.setCurrentCount sem (s.currentCount sem - 1))
  else do
    let (top, list) ← threadListDeleteTop s.nextSemaphore (s.waitingList sem)
    let s := { s with waitingList := update s.waitingList sem list }
    if (s.thread top).state = .waitingForSemaphoreWithTimeout then
      let (onSleepQueue, s) ← tryDequeueForSleep s top
      if onSleepQueue then
        unblockThread (s.modifyThread top (fun thr => { thr with state := .ready })) top
      else .ok s
    else unblockThread s top

/-- The loop of `ReleaseSemaphoreEx`. -/
def releaseLoop (sem : Nat) : Nat → State → Int → Int → Except Stop (Int × State)
  | 0, _, _, _ => .error .endlessLoop
  | fuel + 1, s, count, decrements => do
      let s ← decrementSemaphore s sem
      if count - 1 ≠ 0 ∧ s.currentCount sem > 0 then
        releaseLoop sem fuel s (count - 1) (decrements + 1)
      else .ok (decrements + 1, s)

/-- Every round of the loop takes a unit or a waiting thread away. -/
def releaseSemaphoreEx (s : State) (sem : Nat) (count : Int) : Except Stop (Int × State) :=
  if count < 0 then .ok (0, s)
  else if s.currentCount sem > 0 then
    releaseLoop sem ((s.currentCount sem).toNat + s.fuel) s count 0
  else .error .assertionFailed

def releaseSemaphore (s : State) (sem : Nat) : Except Stop State := do
  let (_, s) ← releaseSemaphoreEx s sem 1
  .ok s

/-- From `iter` on, the first thread whose sleep is over; null if there is
none. -/
def firstDue (s : State) (time : Nat) : Nat → Nat → Except Stop Nat
  | 0, _ => .error .endlessLoop
  | fuel + 1, iter =>
    if iter = 0 then .ok 0
    else if s.isDue time iter then .ok iter
    else firstDue s time fuel (s.nextSleep iter)

def wakeSleeper (s : State) (thread : Nat) : Except Stop State := do
  let s ← deleteSleeping s thread
  let s := s.modifyThread thread (fun thr => { thr with
      timedOut := true
      timedOutDueToSignal := thr.signalIntr })
  unblockThread s thread

/-- The loop of `HandleSleepWakeups`, which starts over at the head of the
sleep list after each thread it wakes. -/
def wakeLoop (time : Nat) : Nat → State → Except Stop State
  | 0, _ => .error .endlessLoop
  | fuel + 1, s => do
      let thread ← firstDue s time s.fuel s.sleepList.head
      if thread = 0 then .ok s
      else
        let s ← wakeSleeper s thread
        wakeLoop time fuel s

def handleSleepWakeups (s : State) : Except Stop State :=
  wakeLoop s.systemTime s.fuel s

def sleepUntil (s : State) (systemTimeNs : Nat) : Except Stop State :=
  if systemTimeNs < s.systemTime then .ok s
  else do
    let thread := s.currentThread
    let s := s.modifyThread thread (fun thr => { thr with sleepExpiry := systemTimeNs })
    let s ← queueForSleep s thread
    blockThread s .sleeping

/-- `ReceivedTimer` moves the clock; the wakeups it defers run on their own. -/
def receivedTimer (s : State) (nanos : Nat) : State :=
  { s with systemTime := (s.systemTime + nanos) % 2 ^ 64 }

def switchToNewTask (s : State) (newThread : Nat) : Except Stop State := do
  let s := s.modifyThread newThread (fun thr => { thr with state := .running })
  let (_, list) ← threadListDeleteTop s.nextReady s.readyList
  .ok { s with readyList := list, currentThread := newThread }

def scheduleWithLockHeld (s : State) : Except Stop State :=
  let oldThread := s.currentThread
  let newThread := s.readyList.head
  if newThread = oldThread ∨ newThread = 0 then .ok s
  else if (s.thread oldThread).state = .running then do
    let s ← insertReady s oldThread
    switchToNewTask s newThread
  else switchToNewTask s newThread

/-- `Schedule` as `LowerIrql` calls it, which clears the postponed switch. -/
def schedule (s : State) : Except Stop State :=
  scheduleWithLockHeld { s with postponedTaskSwitch := false }

end Merlon.Threads
