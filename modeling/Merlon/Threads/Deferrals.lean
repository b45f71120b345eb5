/-
Who fills the queue of deferred functions while the level is above
`IRQL_STANDARD`: allocations of pages and of heap memory, the timer interrupt
and the alarms.  Only the timer interrupt looks at how full the queue is.
-/
import Merlon.Physical.Contiguous
import Merlon.Threads.UnixAlarms

namespace Merlon.Alarms

open Physical (numReservePages)

/-- The functions that are deferred; `callback` is that of an alarm. -/
inductive Job where
  | evictPagesIfNeeded
  | refillReservePages
  | handleSleepWakeups
  | callback (arg : Nat)
  deriving DecidableEq

/-- The physical pages, and the timer with the queue. -/
structure Load where
  phys : Physical.State
  timer : Timer Job

/-- `start` takes a function off the queue, when the level drops. -/
inductive Demand where
  | allocPhys
  | deallocPhys (addr : Nat)
  | getSystemMemory
  | receivedTimer (nanos : Nat)
  | createAlarmAbsolute (time arg : Nat)
  | handleAlarms (time : Nat)
  | start (index : Nat)

namespace Demand

def onTimer (k : Load) (outcome : Except Stop (Timer Job)) : Except (Physical.Stop ⊕ Stop) Load :=
  match outcome with
  | .error stop => .error (.inr stop)
  | .ok timer => .ok { k with timer }

def onPhys {α : Type} (outcome : Except Physical.Stop α) : Except (Physical.Stop ⊕ Stop) α :=
  outcome.mapError .inl

/-- `getSystemMemory` is the part of `GetSystemMemory` that asks for a refill
of the reserve. -/
def run (k : Load) : Demand → Except (Physical.Stop ⊕ Stop) Load
  | .allocPhys => do
      if k.phys.pagesLeft = 0 then .error (.inl .panicOutOfPhys)
      else
        let k ← if k.phys.pagesLeft ≤ numReservePages then
            onTimer k (k.timer.deferUntilIrql (some .evictPagesIfNeeded))
          else .ok k
        let (_, phys) ← onPhys (Physical.allocPhys k.phys)
        .ok { k with phys }
  | .deallocPhys addr => do
      let phys ← onPhys (Physical.deallocPhys k.phys addr)
      .ok { k with phys }
  | .getSystemMemory => onTimer k (k.timer.deferUntilIrql (some .refillReservePages))
  | .receivedTimer nanos =>
    let timer := k.timer.receivedTimer nanos
    if timer.deferred.length < 8 then
      onTimer k (timer.deferUntilIrql (some .handleSleepWakeups))
    else .ok { k with timer }
  | .createAlarmAbsolute time arg =>
    .ok { k with timer := (k.timer.createAlarmAbsolute time (.callback arg)).2 }
  | .handleAlarms time => onTimer k (k.timer.handleAlarms time)
  | .start index =>
    .ok { k with
      timer := { k.timer with deferred := k.timer.deferred.eraseIdx index } }

/-- What is deferred finds room. -/
def Fits (k : Load) : Demand → Prop
  | .allocPhys => k.phys.pagesLeft ≤ numReservePages → k.timer.deferred.length < deferLimit
  | .getSystemMemory => k.timer.deferred.length < deferLimit
  | .handleAlarms time => k.timer.deferred.length + slots.countP (k.timer.due time) ≤ deferLimit
  | _ => True

def overflow : Physical.Stop ⊕ Stop :=
  .inr .insertWhenFull

variable {k : Load}

end Demand

end Merlon.Alarms
