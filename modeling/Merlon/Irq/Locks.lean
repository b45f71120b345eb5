/-
Spinlocks that are acquired and released in the order of a stack.  A lock
keeps the IRQL before it was acquired, and a lock below the current IRQL
cannot be acquired, because raising the IRQL does not go down.
-/
import Merlon.Irq.Switch

namespace Merlon.Switch

open Irq (irqlStandardHighPriority settle)

/-- The IRQL and the locks that are held, the latest first. -/
structure Nesting where
  irql : Nat
  held : List Spinlock

inductive Action where
  | acquire (lock : Spinlock)
  | release

/-- `release` gives back the lock that was acquired last. -/
def Action.run (s : Nesting) : Action → Except Halt Nesting
  | .acquire lock => do
      let (lock, irql) ← acquireSpinlock lock s.irql
      .ok ⟨irql, lock :: s.held⟩
  | .release =>
    match s.held with
    | [] => .ok s
    | lock :: rest => do
      let (_, irql) ← releaseSpinlock lock s.irql
      .ok ⟨irql, rest⟩

/-- A lock that is acquired is one of those not held, as `InitSpinlock` made
it. -/
def Action.Fresh : Action → Prop
  | .acquire lock => lock.lock = false ∧ irqlScheduler ≤ lock.irql
  | .release => True

/-- The IRQL need not go down. -/
def Action.Rises (s : Nesting) : Action → Prop
  | .acquire lock => s.irql ≤ lock.irql
  | .release => True

def Nesting.Step (s : Nesting) (action : Action) (s' : Nesting) : Prop :=
  (action.Fresh ∧ action.Rises s) ∧ action.run s = .ok s'

/-- The highest of the levels of the locks and that at the start. -/
def highest (start : Nat) (held : List Spinlock) : Nat :=
  (held.map Spinlock.irql).foldr max start

/-- Each lock keeps what is to be restored. -/
def Stacked (start : Nat) : List Spinlock → Prop
  | [] => True
  | lock :: rest => lock.lock = true ∧ irqlScheduler ≤ lock.irql ∧
      lock.prevIrql = highest start rest ∧ Stacked start rest

/-- The IRQL is the highest level, now and after each release to come. -/
structure Nesting.Kept (start : Nat) (s : Nesting) : Prop where
  irql : s.irql = highest start s.held
  stacked : Stacked start s.held

variable {start : Nat} {s s' : Nesting} {actions : List Action}

lemma settle_highest (hstart : start ≠ irqlStandardHighPriority) {held : List Spinlock}
    (hstacked : Stacked start held) : settle (highest start held) = highest start held := by
  refine if_neg fun heq => ?_
  cases held with
  | nil => exact hstart heq
  | cons lock rest =>
    have hlevel := hstacked.2.1
    change max lock.irql (highest start rest) = _ at heq
    unfold irqlScheduler irqlStandardHighPriority at *
    omega

section

variable (hstart : start ≠ irqlStandardHighPriority)

include hstart

/-- One action: it is carried out exactly if the IRQL need not go down. -/
lemma Nesting.Kept.step (h : s.Kept start) {action : Action} (hfresh : action.Fresh) :
    ((∃ s', action.run s = .ok s') ↔ action.Rises s) ∧ ∀ s', action.run s = .ok s' →
    s'.Kept start := by
  cases action with
  | acquire lock =>
    obtain ⟨hfree, hlevel⟩ := hfresh
    rw [Action.run, acquireSpinlock, hfree, raiseIrql, Action.Rises]
    by_cases hle : lock.irql < s.irql
    · simp [hle]
    · simp only [hle]
      refine ⟨iff_of_true ⟨_, rfl⟩ (Nat.not_lt.mp hle), ?_⟩
      rintro _ ⟨⟩
      refine ⟨?_, rfl, hlevel, h.irql, h.stacked⟩
      change lock.irql = max lock.irql (highest start s.held)
      rw [← h.irql]
      omega
  | release =>
    obtain ⟨irql, held⟩ := s
    cases held with
    | nil =>
      refine ⟨iff_of_true ⟨_, rfl⟩ trivial, ?_⟩
      rintro _ ⟨⟩
      exact h
    | cons lock rest =>
      obtain ⟨hirql, hheld, _, hprev, hrest⟩ := h
      have hle : ¬ irql < lock.prevIrql := by
        change irql = max lock.irql (highest start rest) at hirql
        omega
      simp only [Action.run, releaseSpinlock, hheld, lowerIrql, hle]
      refine ⟨iff_of_true ⟨_, rfl⟩ trivial, ?_⟩
      rintro _ ⟨⟩
      refine ⟨?_, hrest⟩
      rw [hprev]
      exact settle_highest hstart hrest

end

end Merlon.Switch
