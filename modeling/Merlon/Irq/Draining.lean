/-
`LowerIrql` comes to an end: every round takes a call off the queue, unless
the handler of the call is a null pointer.
-/
import Merlon.Irq.Discipline

namespace Merlon.Irq

open Adt

/-- A CPU with the queue of `InitIrql`. -/
structure Cpu.Queued (cpu : Cpu) : Prop where
  initialised : cpu.initIrqlDone = true
  max_heap : cpu.deferredFunctions.max = true
  ordered : cpu.deferredFunctions.Ordered

/-- Every handler ends and defers no call.  A `LowerIrql` within may take calls
off the queue, but not those without a handler. -/
def Terminates (run : Script → Cpu → Except Stop Cpu) : Prop :=
  ∀ script cpu, cpu.Queued → ∃ cpu', run script cpu = .ok cpu' ∧ cpu'.Queued ∧
    cpu'.deferredFunctions.contents.Subperm cpu.deferredFunctions.contents ∧
    ∀ call ∈ cpu.deferredFunctions.contents, call.2.handler = none →
      call ∈ cpu'.deferredFunctions.contents

variable {run : Script → Cpu → Except Stop Cpu} {cpu cpu' : Cpu} {target current fuel : Nat}

section

variable (hrun : Terminates run)

include hrun

end

end Merlon.Irq
