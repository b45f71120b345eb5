/-
The priority of a thread and the range of its policy, `thread/thread.c`.
`SetThreadPriority` clamps to the range of its argument: also when that says
to keep the policy, and before it looks whether to keep the priority.
-/
import Merlon.Library.Transition

namespace Merlon.Priorities

def schedulePolicyFixed : Int := 0

def schedulePolicyUserHigher : Int := 1

def schedulePolicyUserNormal : Int := 2

def schedulePolicyUserLower : Int := 3

def getMinPriorityValueForPolicy (policy : Int) : Int :=
  if policy = schedulePolicyUserHigher then 50
  else if policy = schedulePolicyUserNormal then 100
  else if policy = schedulePolicyUserLower then 150
  else 0

def getMaxPriorityValueForPolicy (policy : Int) : Int :=
  if policy = schedulePolicyFixed then 255 else getMinPriorityValueForPolicy policy + 100

abbrev InRange (policy priority : Int) : Prop :=
  getMinPriorityValueForPolicy policy ≤ priority ∧ priority ≤ getMaxPriorityValueForPolicy policy

structure Thread where
  priority : Int
  schedulePolicy : Int

def updatePriority (yielded : Bool) (thr : Thread) : Thread :=
  if thr.schedulePolicy ≠ schedulePolicyFixed then
    let newVal := thr.priority + if yielded then -1 else 1
    if InRange thr.schedulePolicy newVal then { thr with priority := newVal } else thr
  else thr

/-- The arguments that `SetThreadPriority` does not answer with `EINVAL`. -/
abbrev Accepted (policy priority : Int) : Prop :=
  ¬ (priority < -1 ∨ 255 < priority) ∧
    ¬ (policy ≠ -1 ∧ policy ≠ schedulePolicyFixed ∧ policy ≠ schedulePolicyUserLower ∧
      policy ≠ schedulePolicyUserNormal ∧ policy ≠ schedulePolicyUserHigher)

/-- The thread after `SetThreadPriority`, and whether it returned 0. -/
def setThreadPriority (policy priority : Int) (thr : Thread) : Bool × Thread :=
  if Accepted policy priority then
    let priority := if priority < getMinPriorityValueForPolicy policy then
      getMinPriorityValueForPolicy policy else priority
    let priority := if getMaxPriorityValueForPolicy policy < priority then
      getMaxPriorityValueForPolicy policy else priority
    let thr := if policy ≠ -1 then { thr with schedulePolicy := policy } else thr
    (true, if priority ≠ -1 then { thr with priority } else thr)
  else (false, thr)

/-- What a call promises. -/
structure Respects (policy priority : Int) (thr : Thread) (result : Bool × Thread) : Prop where
  range : InRange result.2.schedulePolicy result.2.priority
  policy : policy = -1 → result.2.schedulePolicy = thr.schedulePolicy
  priority : result.1 = true → priority = -1 → InRange result.2.schedulePolicy thr.priority →
    result.2.priority = thr.priority
  refused : result.1 = false → result.2 = thr

/-- A call that keeps the policy gives a priority of its range, and one that
keeps the priority finds the highest of the policy it names, or one that is
out of range. -/
def Fits (policy priority : Int) (thr : Thread) : Prop :=
  (policy = -1 → getMinPriorityValueForPolicy thr.schedulePolicy ≤ min 100 (max 0 priority)) ∧
    (priority = -1 → InRange (if policy = -1 then thr.schedulePolicy else policy) thr.priority →
      thr.priority = getMinPriorityValueForPolicy policy)

variable {policy priority : Int} {thr : Thread}

lemma min_range (policy : Int) : 0 ≤ getMinPriorityValueForPolicy policy ∧
    getMinPriorityValueForPolicy policy + 100 ≤ getMaxPriorityValueForPolicy policy := by
  unfold getMaxPriorityValueForPolicy getMinPriorityValueForPolicy
  split_ifs <;> simp_all +decide

lemma set_accepted (h : Accepted policy priority) : setThreadPriority policy priority thr =
    (true, ⟨min (getMaxPriorityValueForPolicy policy)
        (max (getMinPriorityValueForPolicy policy) priority),
      if policy = -1 then thr.schedulePolicy else policy⟩) := by
  have hrange := min_range policy
  rw [setThreadPriority]
  dsimp only
  split_ifs <;> simp only [Prod.mk.injEq, Thread.mk.injEq, true_and, and_true] <;> omega

lemma respects_iff (hthr : InRange thr.schedulePolicy thr.priority) :
    Respects policy priority thr (setThreadPriority policy priority thr) ↔
    (Accepted policy priority → Fits policy priority thr) := by
  by_cases h : Accepted policy priority
  · have hrange := min_range policy
    have hold := min_range thr.schedulePolicy
    have hkept : getMinPriorityValueForPolicy (-1) = 0 ∧ getMaxPriorityValueForPolicy (-1) = 100 :=
      ⟨rfl, rfl⟩
    rw [set_accepted h]
    refine Iff.trans ⟨fun hres => And.intro hres.range (hres.priority rfl), fun hres =>
      ⟨hres.1, fun heq => if_pos heq, fun _ => hres.2, nofun⟩⟩ ?_
    unfold Fits
    by_cases hpolicy : policy = -1
    · subst hpolicy
      simp only [hkept, if_true, true_implies] at *
      omega
    · simp only [hpolicy, if_false, false_implies, true_and]
      omega
  · rw [setThreadPriority, if_neg h]
    exact ⟨fun _ hacc => absurd hacc h, fun _ => ⟨hthr, fun _ => rfl, nofun, fun _ => rfl⟩⟩

lemma update_range (yielded : Bool) (hthr : InRange thr.schedulePolicy thr.priority) :
    InRange (updatePriority yielded thr).schedulePolicy (updatePriority yielded thr).priority := by
  unfold updatePriority
  generalize (thr.priority + if yielded then -1 else 1) = newVal
  dsimp only
  split_ifs with _ hnew
  · exact hnew
  · exact hthr
  · exact hthr

inductive Event where
  | set (policy priority : Int)
  | update (yielded : Bool)

/-- An event whose call fits. -/
def Step (thr : Thread) : Event → Thread → Prop
  | .set policy priority, thr' => (Accepted policy priority → Fits policy priority thr) ∧
      thr' = (setThreadPriority policy priority thr).2
  | .update yielded, thr' => thr' = updatePriority yielded thr

/-- In a run whose calls fit, the priority is in range, and the next call keeps
its promise exactly if it fits too. -/
theorem run_priority {start : Thread} {events : List Event}
    (hstart : InRange start.schedulePolicy start.priority) (hrun : Run Step start events thr) :
    InRange thr.schedulePolicy thr.priority ∧ ∀ policy priority,
    Respects policy priority thr (setThreadPriority policy priority thr) ↔
    (Accepted policy priority → Fits policy priority thr) := by
  have hrange : InRange thr.schedulePolicy thr.priority := by
    induction hrun with
    | nil => exact hstart
    | @snoc _ _ _ event _ hstep ih =>
      cases event with
      | set policy priority =>
        obtain ⟨hfits, rfl⟩ := hstep
        exact ((respects_iff ih).mpr hfits).range
      | update yielded =>
        obtain rfl := hstep
        exact update_range yielded ih
  exact ⟨hrange, fun _ _ => respects_iff hrange⟩

/-- A thread of normal policy that becomes a fixed one, and yields. -/
theorem run_priority_fixed : ∃ thr : Thread, thr.priority = 7 ∧
    InRange thr.schedulePolicy thr.priority := by
  have hrun : Run Step ⟨150, schedulePolicyUserNormal⟩ [.set 0 7, .update true] _ :=
    .snoc (.single ⟨fun _ => ⟨nofun, nofun⟩, rfl⟩) rfl
  exact ⟨_, rfl, (run_priority (by decide) hrun).1⟩

/-- Nothing is to change, and the thread is out of the range of its policy. -/
theorem setThreadPriority_keep :
    setThreadPriority (-1) (-1) ⟨150, schedulePolicyUserNormal⟩ =
      (true, ⟨0, schedulePolicyUserNormal⟩) ∧ ¬ InRange schedulePolicyUserNormal 0 :=
  ⟨rfl, by decide⟩

end Merlon.Priorities
