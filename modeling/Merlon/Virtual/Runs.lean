/-
The calls of the memory manager as steps.  A step is a call made while some
address space is the current one; a deferred disk access that is carried out
is a step of its own.  Runs start where `InitVirt` leaves the system.
-/
import Merlon.Library.Machine
import Merlon.Virtual.Primitive

namespace Merlon.Virtual

inductive Call where
  | map (physical virtual pages : Nat) (flags : VmFlags) (file : Option Nat) (pos : Nat)
  | unmap (virtual pages : Nat) (allowNonExist : Bool)
  | setPermissions (virtual : Nat) (set clear : VmFlags)
  | lock (virtual : Nat)
  | unlock (virtual : Nat)
  | fault (virtual : Nat) (faultType : VmFlags)
  | evict (id : Nat)
  | deferred (index : Nat)
  | wipe (visited : List Nat)
  | create
  | copy (newVas : Nat)

/-- The call while `vas` is the current address space. -/
def Call.run (vas : Nat) : Call → Kernel Unit
  | .map physical virtual pages flags file pos => do
      let _ ← mapVirtEx vas physical virtual pages flags file pos
  | .unmap virtual pages allowNonExist => do
      let _ ← unmapVirtEx vas virtual pages allowNonExist
  | .setPermissions virtual set clear => do
      let _ ← setVirtPermissionsEx vas virtual set clear
  | .lock virtual => do
      let _ ← lockVirtEx vas virtual
  | .unlock virtual => unlockVirtEx vas virtual
  | .fault virtual faultType => do
      let _ ← handleVirtFault vas virtual faultType
  | .evict id => evictPage vas id
  | .deferred index => performDeferredAccess vas index
  | .wipe visited => wipeUsermodePages vas visited
  | .create => do
      let _ ← createVas vas
  | .copy newVas => copyVas vas newVas

/-- A call that returns. -/
def Step (s : Vm) (label : Nat × Call) (s' : Vm) : Prop :=
  label.2.run label.1 s = .ok ((), s')

/-- The state after a call, for runs that are carried out. -/
def takeStep (s : Vm) (label : Nat × Call) : Except Stop Vm :=
  match label.2.run label.1 s with
  | .ok (_, s') => .ok s'
  | .error stop => .error stop

lemma step_of_takeStep {s s' : Vm} {label : Nat × Call}
    (h : takeStep s label = .ok s') : Step s label s' := by
  unfold takeStep at h
  split at h
  · rename_i heq
    cases h
    exact heq
  · cases h

lemma ready_step (s : Vm) (label : Nat × Call) (s' : Vm)
    (_ : (fun _ _ => true : Vm → Nat × Call → Bool) s label = true)
    (h : takeStep s label = .ok s') : Step s label s' :=
  step_of_takeStep h

/-- The entry that `GetVirtEntry` points at. -/
def Vm.found (s : Vm) (vas virtual : Nat) : Option VasEntry :=
  (s.getVirtEntry vas virtual).bind s.entries

/-- Twenty pages of memory and no page tables. -/
def fewPages : Paging where
  phys := ⟨fun _ => 0xFFFFFFFF, some fun i => i + 1, 20, 20, 40, 40⟩
  pageDirectory := fun _ _ => none
  pageTable := fun _ _ => {}

/-- A small system where every file may be mapped. -/
def smallSystem : Vm :=
  initVirt fewPages (fun _ => zeroPage) 8 (fun _ => ⟨true, true, true⟩) (fun _ _ => 0)

/-- The same with one local mapping. -/
def oneEntry (e : VasEntry) : Vm :=
  (smallSystem.addEntry e).setTree 0 false (.node .nil 0 .nil)

end Merlon.Virtual
