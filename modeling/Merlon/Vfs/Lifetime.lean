/-
The last reference to a vnode, `vfs/vnode.c`.  The vnode of an unlinked file
has no references left when `VnodeOpDelete` checks that it has some.
-/
import Merlon.Library.Outcome
import Merlon.Library.Transition

namespace Merlon.Vnodes

/-- `struct vnode`, with the numbers of calls of its close and delete operations
and whether it was given back to the heap. -/
structure Vnode where
  referenceCount : Nat
  stNlink : Nat
  closed : Nat
  deleted : Nat
  freed : Bool

/-- The assertions on the reference count. -/
inductive Check where
  | checkVnode
  | destroyVnode

/-- The lock of the count is as before when `CheckVnode` returns. -/
def checkVnode (node : Vnode) : Except Check Unit :=
  if 0 < node.referenceCount then .ok () else .error .checkVnode

def referenceVnode (node : Vnode) : Vnode :=
  { node with referenceCount := node.referenceCount + 1 }

def vnodeOpClose (node : Vnode) : Vnode :=
  if node.referenceCount ≠ 0 then node else { node with closed := node.closed + 1 }

def vnodeOpDelete (node : Vnode) : Except Check Vnode := do
  checkVnode node
  .ok { node with deleted := node.deleted + 1 }

def destroyVnode (node : Vnode) : Except Check Vnode :=
  if node.referenceCount ≠ 0 then .error .destroyVnode
  else do
    let node ← if node.stNlink = 0 then vnodeOpDelete node else .ok node
    .ok { node with freed := true }

def dereferenceVnode (node : Vnode) : Except Check Vnode := do
  checkVnode node
  let node := { node with referenceCount := node.referenceCount - 1 }
  if node.referenceCount = 0 then destroyVnode (vnodeOpClose node) else .ok node

inductive Event where
  | reference
  | dereference
  | unlink (stNlink : Nat)

def Event.run (node : Vnode) : Event → Except Check Vnode
  | .reference => .ok (referenceVnode node)
  | .dereference => dereferenceVnode node
  | .unlink stNlink => .ok { node with stNlink }

/-- The operations are called when they should be, and no assertion fails. -/
def Event.Proper (event : Event) (node : Vnode) : Prop :=
  ∃ node', event.run node = .ok node' ∧
    if node'.referenceCount = 0 then node'.closed = node.closed + 1 ∧
      node'.deleted = node.deleted + (if node.stNlink = 0 then 1 else 0)
    else node'.closed = node.closed ∧ node'.deleted = node.deleted

/-- The last reference to an unlinked file. -/
def Event.Last (node : Vnode) : Event → Prop
  | .dereference => node.referenceCount = 1 ∧ node.stNlink = 0
  | _ => False

/-- A vnode that has references, or was closed once and freed. -/
inductive Kept : Vnode → Prop
  | alive (count links : Nat) : Kept ⟨count + 1, links, 0, 0, false⟩
  | gone (links : Nat) : Kept ⟨0, links, 1, 0, true⟩

/-- A step on a vnode that is still there. -/
def Step (node : Vnode) (event : Event) (node' : Vnode) : Prop :=
  (node.freed = false ∧ ¬ event.Last node) ∧ event.run node = .ok node'

variable {node : Vnode} {event : Event}

lemma Kept.step (h : Kept node) (hthere : node.freed = false) :
    (event.Proper node ↔ ¬ event.Last node) ∧ ∀ node', event.run node = .ok node' → Kept node' := by
  cases h with
  | gone => cases hthere
  | alive count links =>
    cases event with
    | reference =>
      refine ⟨iff_of_true ⟨_, rfl, rfl, rfl⟩ id, ?_⟩
      rintro _ ⟨⟩
      exact .alive ..
    | unlink stNlink =>
      refine ⟨iff_of_true ⟨_, rfl, rfl, rfl⟩ id, ?_⟩
      rintro _ ⟨⟩
      exact .alive ..
    | dereference =>
      rcases count with _ | count
      · rcases links with _ | links
        · refine ⟨iff_of_false ?_ (not_not.mpr ⟨rfl, rfl⟩), nofun⟩
          rintro ⟨_, ⟨⟩, _⟩
        · refine ⟨iff_of_true ⟨_, rfl, rfl, rfl⟩ nofun, ?_⟩
          rintro _ ⟨⟩
          exact .gone _
      · refine ⟨iff_of_true ⟨_, rfl, rfl, rfl⟩ nofun, ?_⟩
        rintro _ ⟨⟩
        exact .alive ..

end Merlon.Vnodes
