/-
Signals as one thread meets them, from `kernel/thread/signal.c`, `timer.c` and
the end of `Schedule`.  Every function here changes one thread only, so the
thread's own fields, whether it is on the ready and sleep lists and whether it
is the one the processor runs are all there is; what the other threads do is
which event comes next.  A function that blocks is cut where it gives up the
scheduler lock.
-/
import Merlon.Threads.Semaphore

namespace Merlon.Signals

open Threads (ThreadState Stop)

abbrev Sigset := BitVec 32

def sigcont : Nat := 5

def sigkill : Nat := 9

def sigstop : Nat := 14

def sigUpperBnd : Nat := 29

def sigBlock : Int := 1

def sigUnblock : Int := 2

def sigSetmask : Int := 3

inductive Errno where
  | efault
  | einval
  | eintr
  deriving DecidableEq

structure Thread where
  state : ThreadState
  current : Bool
  onReadyList : Bool
  onSleepList : Bool
  sleepExpiry : Nat
  timedOut : Bool
  timedOutDueToSignal : Bool
  signalIntr : Bool
  pendingSignals : Sigset
  blockedSignals : Sigset
  prevBlockedSignals : Sigset
  needsTermination : Bool
  needsStopping : Bool
  userCommonSignalHandler : Nat
  suspended : Bool
  deriving DecidableEq

/-- The fields as `CreateThreadEx` sets them.  `suspended` says that the thread
is inside `SuspendForSignal`. -/
def newThread : Thread where
  state := .ready
  current := false
  onReadyList := true
  onSleepList := false
  sleepExpiry := 0
  timedOut := false
  timedOutDueToSignal := false
  signalIntr := false
  pendingSignals := 0
  blockedSignals := 0
  prevBlockedSignals := 0
  needsTermination := false
  needsStopping := false
  userCommonSignalHandler := 0
  suspended := false

/-- The set with one signal. -/
def bit (sigNum : Nat) : Sigset :=
  1#32 <<< sigNum

/-! Blocking and unblocking. -/

def blockThread (reason : ThreadState) (thr : Thread) : Except Stop Thread :=
  if reason = .ready ∨ reason = .running then .error .assertionFailed
  else if thr.state ≠ .running then .error .assertionFailed
  else .ok { thr with state := reason }

/-- `UnblockThread`; the state stays as it is until the thread is switched
to. -/
def unblockThread (thr : Thread) : Except Stop Thread :=
  if thr.onReadyList then .error .assertionFailed
  else .ok { thr with onReadyList := true }

/-! Raising. -/

/-- The signals that `RaiseSignal` handles itself. -/
def specialSignal (sigNum : Nat) (thr : Thread) : Except Stop Thread :=
  if sigNum = sigkill then .ok { thr with needsTermination := true }
  else if sigNum = sigstop then .ok { thr with needsStopping := true }
  else if sigNum = sigcont ∧ thr.state = .stopped then unblockThread thr
  else .ok thr

/-- The end of `RaiseSignal`. -/
def endWait (thr : Thread) : Except Stop Thread :=
  if thr.state = .waitingForSignal then unblockThread thr else .ok thr

def raiseSignal (sigNum : Nat) (thr : Thread) : Except Stop (Option Errno × Thread) :=
  if sigUpperBnd ≤ sigNum then .ok (some .einval, thr)
  else do
    let thr ← specialSignal sigNum { thr with
      signalIntr := true
      pendingSignals := thr.pendingSignals ||| bit sigNum }
    let thr ← endWait thr
    .ok (none, thr)

def hasBeenSignalled (thr : Thread) : Bool :=
  thr.signalIntr

/-! Delivery. -/

/-- The signals that are pending and not blocked. -/
def Thread.availableSignals (thr : Thread) : Sigset :=
  thr.pendingSignals &&& ~~~thr.blockedSignals

/-- The loop of `FindSignalToHandle`; a set has a signal among its first 32
bits unless it is empty. -/
def lowestFrom : Nat → Sigset → Nat → Nat
  | 0, _, index => index
  | fuel + 1, available, index =>
    if available &&& 1 ≠ 0 then index
    else lowestFrom fuel (available >>> 1) (index + 1)

/-- `FindSignalToHandle`, where the result -1 is none. -/
def findSignalToHandle (thr : Thread) : Option Nat × Thread :=
  if thr.availableSignals = 0 then (none, thr)
  else
    let index := lowestFrom 32 thr.availableSignals 0
    (some index, { thr with
      signalIntr := false
      pendingSignals := thr.pendingSignals &&& ~~~bit index
      blockedSignals := thr.blockedSignals ||| bit index })

def handleSignal (sigNum : Nat) (thr : Thread) : Nat × Thread :=
  (thr.userCommonSignalHandler, { thr with
    needsTermination :=
      if thr.userCommonSignalHandler = 0 then true else thr.needsTermination
    blockedSignals := thr.blockedSignals &&& ~~~bit sigNum })

/-- What an interrupt does before it returns to user mode. -/
def deliver (thr : Thread) : Option Nat × Thread :=
  match findSignalToHandle thr with
  | (none, thr) => (none, thr)
  | (some index, thr) => (some index, (handleSignal index thr).2)

/-! Masks. -/

def protectSpecialSignals (blocked : Sigset) : Sigset :=
  blocked &&& ~~~(bit sigkill ||| bit sigstop ||| bit sigcont)

def protectIf (protect : Bool) (blocked : Sigset) : Sigset :=
  if protect then protectSpecialSignals blocked else blocked

/-- The mask that `SetBlockedSignals` makes. -/
def changeMask (how : Int) (changes blocked : Sigset) : Sigset :=
  if how = sigBlock then blocked ||| changes
  else if how = sigUnblock then blocked &&& ~~~changes
  else if how = sigSetmask then changes
  else blocked

/-- The error, what is stored at `old`, and the thread. -/
def setBlockedSignals (how : Int) (changes : Option Sigset) (protect : Bool)
    (thr : Thread) : Option Errno × Option Sigset × Thread :=
  match changes with
  | none => (some .efault, none, thr)
  | some changes =>
    (if how = sigBlock ∨ how = sigUnblock ∨ how = sigSetmask then none
      else some .einval,
      some thr.blockedSignals,
      { thr with blockedSignals :=
          protectIf protect (changeMask how changes thr.blockedSignals) })

/-- `SuspendForSignal` up to where it blocks; the mask that is stored at
`old_mask` is `prevBlockedSignals`. -/
def suspendForSignal (newMask : Sigset) (oldMask protect : Bool)
    (thr : Thread) : Except Stop (Option Errno × Thread) :=
  if oldMask then do
    let thr ← blockThread .waitingForSignal { thr with
      prevBlockedSignals := thr.blockedSignals
      blockedSignals := protectIf protect newMask }
    .ok (none, { thr with suspended := true })
  else .ok (some .efault, thr)

/-- The end of `SuspendForSignal`. -/
def resume (thr : Thread) : Errno × Thread :=
  (.eintr, { thr with
    blockedSignals := thr.prevBlockedSignals, suspended := false })

def pauseForSignal (thr : Thread) : Except Stop Thread :=
  blockThread .waitingForSignal thr

/-! Sleeping. -/

/-- `SleepUntil` up to where it blocks; false when there is no need to. -/
def sleepUntil (systemTimeNs now : Nat) (thr : Thread) : Except Stop (Bool × Thread) :=
  if systemTimeNs < now then .ok (false, thr)
  else do
    let thr ← blockThread .sleeping { thr with
      sleepExpiry := systemTimeNs, timedOut := false, onSleepList := true }
    .ok (true, thr)

/-- What `HandleSleepWakeups` does to a thread. -/
def handleSleepWakeups (systemTime : Nat) (thr : Thread) : Except Stop Thread :=
  if thr.onSleepList ∧ (thr.sleepExpiry ≤ systemTime ∨ thr.signalIntr) then
    unblockThread { thr with
      onSleepList := false, timedOut := true
      timedOutDueToSignal := thr.signalIntr }
  else .ok thr

/-- What `SleepUntil` returns once the thread runs on. -/
def sleepResult (thr : Thread) : Option Errno :=
  if thr.timedOutDueToSignal then some .eintr else none

/-! Stopping, and switching to and from the thread. -/

/-- `StopThread` of the current thread. -/
def stopThread (thr : Thread) : Except Stop Thread :=
  blockThread .stopped { thr with needsStopping := false }

/-- `ScheduleWithLockHeld` switches to another thread. -/
def switchFrom (thr : Thread) : Except Stop Thread :=
  if thr.state = .running then unblockThread { thr with current := false }
  else .ok { thr with current := false }

/-- `ScheduleWithLockHeld` switches to this thread. -/
def switchTo (thr : Thread) : Thread :=
  { thr with state := .running, current := true, onReadyList := false }

/-- The end of `Schedule`, which runs as the thread that was switched to. -/
def afterSchedule (thr : Thread) : Except Stop Thread :=
  if thr.needsTermination then blockThread .terminated thr
  else if thr.needsStopping then stopThread thr
  else .ok thr

/-! Runs. -/

/-- What can happen to a thread.  The first event is the work of any thread or
interrupt, the last three are the scheduler's; the others are the thread's
own.  A delivery is recorded with what it delivers. -/
inductive Event where
  | raise (sigNum : Nat)
  | find (found : Option Nat)
  | handle (sigNum : Nat)
  | deliver (found : Option Nat)
  | setBlocked (how : Int) (changes : Option Sigset) (protect : Bool)
  | suspend (newMask : Sigset) (oldMask protect : Bool)
  | resume
  | pause
  | sleep (systemTimeNs now : Nat)
  | afterSchedule
  | wakeups (systemTime : Nat)
  | switchFrom
  | switchTo
  deriving DecidableEq

/-- The processor runs the thread, and the thread has not blocked, or it has
been made ready again. -/
def Thread.runsOn (thr : Thread) : Bool :=
  thr.current && (thr.state = .running || thr.onReadyList)

def Event.valid (thr : Thread) : Event → Bool
  | .raise _ | .wakeups _ => true
  | .find _ | .switchFrom => thr.current
  | .switchTo => !thr.current && thr.onReadyList
  | .resume => thr.runsOn && thr.suspended
  | .setBlocked _ _ _ | .suspend _ _ _ | .pause | .sleep _ _ => thr.runsOn && !thr.suspended
  | .handle _ | .deliver _ | .afterSchedule => thr.runsOn

/-- What the event delivers is what is recorded. -/
def Event.reports (thr : Thread) : Event → Bool
  | .find found | .deliver found => (findSignalToHandle thr).1 = found
  | _ => true

def Event.step (thr : Thread) : Event → Except Stop Thread
  | .raise sigNum => do
      let (_, thr) ← raiseSignal sigNum thr
      .ok thr
  | .find _ => .ok (findSignalToHandle thr).2
  | .handle sigNum => .ok (handleSignal sigNum thr).2
  | .deliver _ => .ok (Signals.deliver thr).2
  | .setBlocked how changes protect => .ok (setBlockedSignals how changes protect thr).2.2
  | .suspend newMask oldMask protect => do
      let (_, thr) ← suspendForSignal newMask oldMask protect thr
      .ok thr
  | .resume => .ok (Signals.resume thr).2
  | .pause => pauseForSignal thr
  | .sleep systemTimeNs now => do
      let (_, thr) ← sleepUntil systemTimeNs now thr
      .ok thr
  | .afterSchedule => Signals.afterSchedule thr
  | .wakeups systemTime => handleSleepWakeups systemTime thr
  | .switchFrom => Signals.switchFrom thr
  | .switchTo => .ok (Signals.switchTo thr)

/-- An event that can happen and passes the guard. -/
def Step (guard : Thread → Event → Bool) (thr : Thread) (event : Event) (thr' : Thread) : Prop :=
  event.valid thr = true ∧ event.reports thr = true ∧
    guard thr event = true ∧ event.step thr = .ok thr'

/-- Every event passes. -/
def anyEvent (_ : Thread) (_ : Event) : Bool :=
  true

/-- The event can happen; for runs that are carried out. -/
def Event.ready (guard : Thread → Event → Bool) (thr : Thread) (event : Event) : Bool :=
  event.valid thr && event.reports thr && guard thr event

lemma ready_step (guard : Thread → Event → Bool) (thr : Thread)
    (event : Event) (thr' : Thread) (hready : event.ready guard thr = true)
    (hstep : event.step thr = .ok thr') : Step guard thr event thr' := by
  unfold Event.ready at hready
  rw [Bool.and_eq_true, Bool.and_eq_true] at hready
  exact ⟨hready.1.1, hready.1.2, hready.2, hstep⟩

end Merlon.Signals
