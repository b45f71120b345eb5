/-
Interrupt request levels, `irq/irql.c`.  A CPU raises its level, calls for a
lower level wait in a priority queue, and lowering the level runs them.  A
handler is given by what it does to the level and the queue: it raises,
lowers and defers further calls, finitely often.
-/
import Mathlib.Algebra.Ring.Nat
import Merlon.Adt.PriorityQueue
import Merlon.Library.Outcome

namespace Merlon

namespace Irq

open Adt

def irqlStandard : Nat := 0

/-- A level for calls only: they run at `irqlStandard`, before the others. -/
def irqlStandardHighPriority : Nat := 1

/-- What a handler does, in order. -/
inductive Script where
  | done
  | raise (level : Nat) (rest : Script)
  | lower (level : Nat) (rest : Script)
  | defer (level context : Nat) (handler rest : Script)
deriving DecidableEq

/-- `struct deferment`; the handler may be a null pointer. -/
structure Deferment where
  context : Nat
  handler : Option Script
deriving DecidableEq

/-- A call that `LowerIrql` took from the queue: the CPU's level as the
handler starts, and the levels of the calls that still wait. -/
structure Run where
  call : Nat × Deferment
  irql : Nat
  waiting : List Nat

/-- `struct cpu`, with a record of the calls queued and of those run. -/
structure Cpu where
  irql : Nat
  initIrqlDone : Bool
  deferredFunctions : HeapAdt Deferment
  postponedTaskSwitch : Bool
  taskSwitches : Nat
  queued : List (Nat × Deferment)
  ran : List Run

/-- The panics and failed assertions, a call through a null pointer, and the
end of the steps given to a run. -/
inductive Stop where
  | invalidIrql
  | wrongOrder
  | nullHandler
  | queue (stop : HeapStop)
  | outOfFuel
deriving DecidableEq

/-- The level at which a call for `level` runs. -/
def settle (level : Nat) : Nat :=
  if level = irqlStandardHighPriority then irqlStandard else level

/-- A call for `level` may wait while the CPU is at `current`. -/
def Within (current level : Nat) : Prop :=
  level ≤ current ∨ (level = irqlStandardHighPriority ∧ current = irqlStandard)

instance (current level : Nat) : Decidable (Within current level) :=
  inferInstanceAs (Decidable (_ ∨ _))

def onQueue {α : Type} (outcome : Except HeapStop α) : Except Stop α :=
  outcome.mapError Stop.queue

def raiseIrql (level : Nat) (cpu : Cpu) : Except Stop Cpu :=
  if level < cpu.irql then .error .invalidIrql
  else .ok { cpu with irql := level }

section Handlers

variable (run : Script → Cpu → Except Stop Cpu)

def Deferment.invoke (call : Deferment) (cpu : Cpu) : Except Stop Cpu :=
  match call.handler with
  | none => .error .nullHandler
  | some script => run script cpu

def deferUntilIrql (irql : Nat) (call : Deferment) (cpu : Cpu) : Except Stop Cpu :=
  if irql = cpu.irql ∨ (irql = irqlStandardHighPriority ∧ cpu.irql = irqlStandard) then
    call.invoke run cpu
  else if cpu.irql < irql then .error .invalidIrql
  else if cpu.initIrqlDone then do
    let queue ← onQueue (cpu.deferredFunctions.heapAdtInsert call irql)
    .ok { cpu with
      deferredFunctions := queue
      queued := cpu.queued ++ [(irql, call)] }
  else .ok cpu

/-- The CPU as a call taken from the queue starts. -/
def Cpu.start (cpu : Cpu) (level : Nat) (call : Nat × Deferment)
    (queue : HeapAdt Deferment) : Cpu :=
  { cpu with
    irql := level
    deferredFunctions := queue
    ran := cpu.ran ++ [⟨call, level, queue.contents.map Prod.fst⟩] }

/-- The loop of `LowerIrql`. -/
def lowerLoop (targetLevel : Nat) : Nat → Nat → Cpu → Except Stop Cpu
  | 0, _, _ => .error .outOfFuel
  | fuel + 1, currentLevel, cpu =>
    if cpu.initIrqlDone ∧ 0 < cpu.deferredFunctions.size then do
      let next ← onQueue cpu.deferredFunctions.heapAdtPeek
      if Within currentLevel next.1 then
        if targetLevel ≤ next.1 then
          match next.2.handler with
          | none => lowerLoop targetLevel fuel (settle next.1) cpu
          | some script => do
              let queue ← onQueue cpu.deferredFunctions.heapAdtPop
              let cpu ← run script (cpu.start (settle next.1) next queue)
              lowerLoop targetLevel fuel (settle next.1) cpu
        else .ok cpu
      else .error .wrongOrder
    else .ok cpu

/-- The end of `LowerIrql`: the level, and the task switch that was put off. -/
def Cpu.arrive (cpu : Cpu) (targetLevel : Nat) : Cpu :=
  let level := settle targetLevel
  if level = irqlStandard ∧ cpu.postponedTaskSwitch then
    { cpu with
      irql := level
      postponedTaskSwitch := false
      taskSwitches := cpu.taskSwitches + 1 }
  else { cpu with irql := level }

def lowerWith (fuel targetLevel : Nat) (cpu : Cpu) : Except Stop Cpu :=
  if cpu.irql < targetLevel then .error .invalidIrql
  else do
    let cpu ← lowerLoop run targetLevel fuel cpu.irql cpu
    .ok (cpu.arrive targetLevel)

end Handlers

/-- A handler runs. -/
def handle : Nat → Script → Cpu → Except Stop Cpu
  | 0, _, _ => .error .outOfFuel
  | _ + 1, .done, cpu => .ok cpu
  | fuel + 1, .raise level rest, cpu => do
      let cpu ← raiseIrql level cpu
      handle fuel rest cpu
  | fuel + 1, .lower level rest, cpu => do
      let cpu ← lowerWith (handle fuel) fuel level cpu
      handle fuel rest cpu
  | fuel + 1, .defer level context handler rest, cpu => do
      let cpu ← deferUntilIrql (handle fuel) level ⟨context, some handler⟩ cpu
      handle fuel rest cpu

def lowerIrql (fuel targetLevel : Nat) (cpu : Cpu) : Except Stop Cpu :=
  lowerWith (handle fuel) fuel targetLevel cpu

/-- `InitIrql` on a CPU at `irql`; the slots of the new queue hold anything. -/
def initIrql (irql : Nat) (postponedTaskSwitch : Bool) (array : Nat → Nat × Deferment) : Cpu where
  irql := irql
  initIrqlDone := true
  deferredFunctions := HeapAdt.heapAdtCreate 32 true array
  postponedTaskSwitch := postponedTaskSwitch
  taskSwitches := 0
  queued := []
  ran := []

/-! What handlers may do. -/

/-- A handler that starts at `own`, now at `current`: it never goes below its
own level, ends there, and defers only to levels that may wait. -/
def Script.Behaves (own : Nat) : Nat → Script → Prop
  | current, .done => current = own
  | current, .raise level rest =>
    current ≤ level ∧ level ≠ irqlStandardHighPriority ∧ rest.Behaves own level
  | current, .lower level rest =>
    own ≤ level ∧ level ≤ current ∧ level ≠ irqlStandardHighPriority ∧ rest.Behaves own level
  | current, .defer level _ handler rest =>
    Within current level ∧ handler.Behaves (settle level) (settle level) ∧ rest.Behaves own current

def Script.work : Script → Nat
  | .done => 1
  | .raise _ rest => rest.work + 1
  | .lower _ rest => rest.work + 1
  | .defer _ _ handler rest => handler.work + rest.work + 1

def Deferment.work (call : Deferment) : Nat :=
  match call.handler with
  | none => 0
  | some script => script.work

/-- The steps of the calls that wait. -/
def Cpu.work (cpu : Cpu) : Nat :=
  (cpu.deferredFunctions.contents.map fun call => call.2.work).sum

/-- A queued call: it may wait, and its handler is there and behaves. -/
def Waits (current : Nat) (call : Nat × Deferment) : Prop :=
  Within current call.1 ∧ ∃ script, call.2.handler = some script ∧
    script.Behaves (settle call.1) (settle call.1)

/-- A CPU whose queue `LowerIrql` can work off. -/
structure Cpu.Ready (cpu : Cpu) : Prop where
  initialised : cpu.initIrqlDone = true
  max_heap : cpu.deferredFunctions.max = true
  ordered : cpu.deferredFunctions.Ordered
  level : cpu.irql ≠ irqlStandardHighPriority
  waits : ∀ call ∈ cpu.deferredFunctions.contents, Waits cpu.irql call

/-- A run was in order: at its own level, and before every call that waited
for a lower one. -/
def Run.Proper (bound : Nat) (run : Run) : Prop :=
  bound ≤ run.call.1 ∧ run.irql = settle run.call.1 ∧ ∀ level ∈ run.waiting, level ≤ run.call.1

/-- Between two states the calls that were queued are those that ran and those
that wait. -/
def Advances (bound : Nat) (cpu cpu' : Cpu) : Prop :=
  ∃ runs calls, cpu'.ran = cpu.ran ++ runs ∧ cpu'.queued = cpu.queued ++ calls ∧
    (runs.map Run.call ++ cpu'.deferredFunctions.contents).Perm
    (cpu.deferredFunctions.contents ++ calls) ∧ ∀ run ∈ runs, run.Proper bound

end Irq

end Merlon
