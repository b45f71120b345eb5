/-
Signals and the life of a thread, from signal.c, cleaner.c and thread.c:
threads are created, stopped, continued, terminated and wait for signals.
The flags that only these functions read stand beside the scheduler's state.
-/
import Merlon.Threads.Runs

namespace Merlon.Threads

def sigcont : Nat := 5

def sigkill : Nat := 9

def sigstop : Nat := 14

def sigUpperBnd : Nat := 29

/-- What `RaiseSignal` leaves for the thread to find. -/
structure Flags where
  pendingSignals : Nat
  needsTermination : Bool
  needsStopping : Bool
  deriving DecidableEq

structure Tasks where
  kernel : State
  flags : Nat → Flags

inductive SignalResult where
  | success
  | einval
  deriving DecidableEq

namespace Tasks

def modifyFlags (k : Tasks) (thread : Nat) (change : Flags → Flags) : Tasks :=
  { k with flags := Function.update k.flags thread (change (k.flags thread)) }

def current (k : Tasks) : Nat :=
  k.kernel.currentThread

def state (k : Tasks) (thread : Nat) : ThreadState :=
  (k.kernel.thread thread).state

end Tasks

/-- A kernel function that leaves the flags alone. -/
def onKernel (k : Tasks) (act : State → Except Stop State) : Except Stop Tasks := do
  let s ← act k.kernel
  .ok { k with kernel := s }

/-- The fields of a new thread, as `CreateThreadEx` sets them. -/
def newThread : Thread where
  state := .ready
  sleepExpiry := 0
  timedOut := false
  timedOutDueToSignal := false
  signalIntr := false
  waitingOnSemaphore := none

def newFlags : Flags where
  pendingSignals := 0
  needsTermination := false
  needsStopping := false

/-- Room for one more thread. -/
def State.addThread (s : State) : State :=
  { s with
    threadCount := s.threadCount + 1
    thread := Function.update s.thread (s.threadCount + 1) newThread }

def createThread (k : Tasks) : Except Stop Tasks := do
  let thread := k.kernel.threadCount + 1
  let s ← insertReady k.kernel.addThread thread
  .ok { kernel := s, flags := Function.update k.flags thread newFlags }

def stopThread (k : Tasks) (thread : Nat) : Except Stop Tasks :=
  if thread = k.current then
    onKernel (k.modifyFlags thread fun f => { f with needsStopping := false })
      fun s => blockThread s .stopped
  else
    .ok (k.modifyFlags thread fun f => { f with needsStopping := true })

/-- `TerminateThread`; the message to the cleaner thread releases the
semaphore of the cleaner's message box. -/
def terminateThread (cleaner : Nat) (k : Tasks) (thread : Nat) : Except Stop Tasks :=
  if thread = k.current then
    onKernel k fun s => do
      let s ← releaseSemaphore s cleaner
      blockThread s .terminated
  else
    .ok (k.modifyFlags thread fun f => { f with needsTermination := true })

/-- The end of `Schedule`, which runs as the thread that was switched to. -/
def afterSchedule (cleaner : Nat) (k : Tasks) : Except Stop Tasks :=
  if (k.flags k.current).needsTermination then
    terminateThread cleaner k k.current
  else if (k.flags k.current).needsStopping then stopThread k k.current
  else .ok k

/-- `PauseForSignal`; `SuspendForSignal` blocks in the same way. -/
def pauseForSignal (k : Tasks) : Except Stop Tasks :=
  onKernel k fun s => blockThread s .waitingForSignal

/-- The signal becomes pending. -/
def Tasks.markPending (k : Tasks) (thread sigNum : Nat) : Tasks :=
  { k with
    kernel := k.kernel.modifyThread thread
      fun thr => { thr with signalIntr := true } }.modifyFlags thread
    fun f => { f with pendingSignals := f.pendingSignals ||| 1 <<< sigNum }

/-- The signals that `RaiseSignal` handles itself. -/
def specialSignal (k : Tasks) (thread sigNum : Nat) : Except Stop Tasks :=
  if sigNum = sigkill then
    .ok (k.modifyFlags thread fun f => { f with needsTermination := true })
  else if sigNum = sigstop then
    .ok (k.modifyFlags thread fun f => { f with needsStopping := true })
  else if sigNum = sigcont ∧ k.state thread = .stopped then
    onKernel k fun s => unblockThread s thread
  else .ok k

/-- The end of `RaiseSignal`. -/
def endPause (k : Tasks) (thread : Nat) : Except Stop Tasks :=
  if k.state thread = .waitingForSignal then
    onKernel k fun s => unblockThread s thread
  else .ok k

/-- `RaiseSignal`, with the scheduler lock held. -/
def raiseSignal (k : Tasks) (thread sigNum : Nat) : Except Stop (SignalResult × Tasks) :=
  if sigUpperBnd ≤ sigNum then .ok (.einval, k)
  else do
    let k ← specialSignal (k.markPending thread sigNum) thread sigNum
    let k ← endPause k thread
    .ok (.success, k)

/-- `FindSignalToHandle` by the current thread, where it finds a signal that
is pending and not blocked. -/
def takeSignal (k : Tasks) (sigNum : Nat) : Tasks :=
  { k with
    kernel := k.kernel.modifyThread k.current
      fun thr => { thr with signalIntr := false } }.modifyFlags k.current
    fun f => { f with
      pendingSignals := f.pendingSignals &&& (2 ^ 32 - 1 - 1 <<< sigNum) }

/-- What the current thread, an interrupt or a deferred call may do. -/
inductive TaskCall where
  | create
  | acquire (sem : Nat) (timeoutMs : Int)
  | release (sem : Nat)
  | sleep (systemTimeNs : Nat)
  | wakeups
  | timer (nanos : Nat)
  | schedule
  | afterSchedule
  | pause
  | stop (thread : Nat)
  | terminate (thread : Nat)
  | raise (thread sigNum : Nat)
  | take (sigNum : Nat)

def TaskCall.step (cleaner : Nat) (k : Tasks) : TaskCall → Except Stop Tasks
  | .create => createThread k
  | .acquire sem timeoutMs => onKernel k fun s => acquireSemaphore s sem timeoutMs
  | .release sem => onKernel k fun s => releaseSemaphore s sem
  | .sleep systemTimeNs => onKernel k fun s => sleepUntil s systemTimeNs
  | .wakeups => onKernel k handleSleepWakeups
  | .timer nanos => onKernel k fun s => .ok (receivedTimer s nanos)
  | .schedule => onKernel k Threads.schedule
  | .afterSchedule => Threads.afterSchedule cleaner k
  | .pause => pauseForSignal k
  | .stop thread => stopThread k thread
  | .terminate thread => terminateThread cleaner k thread
  | .raise thread sigNum => do
      let (_, k) ← raiseSignal k thread sigNum
      .ok k
  | .take sigNum => .ok (takeSignal k sigNum)

/-- The signal would make the thread ready. -/
def Tasks.Rouses (k : Tasks) (thread sigNum : Nat) : Prop :=
  sigNum < sigUpperBnd ∧
    ((sigNum = sigcont ∧ k.state thread = .stopped) ∨ k.state thread = .waitingForSignal)

/-- No wake-up is for the current thread, whose switch is still to come, or
for a thread that has been made ready already. -/
def TaskCall.WakesOnce (k : Tasks) : TaskCall → Prop
  | .release sem => (k.kernel.waiters sem).head? ≠ some k.current
  | .wakeups => ∀ thread ∈ k.kernel.sleepers,
      k.kernel.isDue k.kernel.systemTime thread = true → thread ≠ k.current
  | .raise thread sigNum => k.Rouses thread sigNum → thread ≠ k.current ∧ thread ∉ k.kernel.ready
  | _ => True

/-- The current thread runs, as `BlockThread` asserts. -/
def Tasks.Running (k : Tasks) : Prop :=
  k.state k.current = .running

/-- The call names threads that exist, and a thread that has blocked makes no
calls of its own until it is switched to again. -/
def TaskCall.Valid (k : Tasks) : TaskCall → Prop
  | .acquire _ _ | .sleep _ | .pause | .afterSchedule => k.Running
  | .stop thread | .terminate thread => k.kernel.IsThread thread ∧ (thread = k.current → k.Running)
  | .raise thread _ => k.kernel.IsThread thread
  | _ => True

/-- `ReleaseSemaphoreEx` asserts that a unit is taken. -/
def TaskCall.Asserts (cleaner : Nat) (k : Tasks) : TaskCall → Prop
  | .release sem => 0 < k.kernel.currentCount sem
  | .terminate thread => thread = k.current → 0 < k.kernel.currentCount cleaner
  | .afterSchedule => (k.flags k.current).needsTermination = true →
      0 < k.kernel.currentCount cleaner
  | _ => True

/-- A step of a run, in which every wake-up is for a thread that waits. -/
def Tasks.Step (cleaner : Nat) (k : Tasks) (call : TaskCall) (k' : Tasks) :
    Prop :=
  call.Valid k ∧ call.WakesOnce k ∧ call.step cleaner k = .ok k'

/-- Multitasking has started: the current thread runs, all others are ready
and nobody waits. -/
structure Tasks.Started (k : Tasks) : Prop where
  current : k.kernel.IsThread k.current
  running : k.Running
  ready : ∃ order, Holds k.kernel.nextReady k.kernel.readyList order ∧
    ∀ thread, thread ∈ order ↔ k.kernel.IsThread thread ∧ thread ≠ k.current
  sleeping : k.kernel.sleepList = threadListInit
  waiting : ∀ sem, k.kernel.waitingList sem = threadListInit

/-- The thread is blocked, and where whatever it waits for will find it. -/
def Tasks.Blocked (k : Tasks) (thread : Nat) : Prop :=
  match k.state thread with
  | .sleeping => thread ∈ k.kernel.sleepers
  | .waitingForSemaphore => ∃ sem, thread ∈ k.kernel.waiters sem
  | .waitingForSemaphoreWithTimeout =>
    thread ∈ k.kernel.sleepers ∧ ∃ sem, thread ∈ k.kernel.waiters sem
  | .stopped | .waitingForSignal => True
  | .running | .ready | .terminated => False

/-- Every thread that has not terminated is the current one, on the ready list
once, or blocked. -/
structure Tasks.Coherent (k : Tasks) : Prop where
  current : k.current ∉ k.kernel.ready
  placed : ∀ thread, k.kernel.IsThread thread → thread ≠ k.current → k.state thread ≠ .terminated →
    (k.kernel.ready.count thread = 1 ∨ (thread ∉ k.kernel.ready ∧ k.Blocked thread))

end Merlon.Threads
