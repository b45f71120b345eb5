/-
`Schedule` of `kernel/thread/thread.c`, with the spinlocks it takes.  The IRQL
of the thread that takes the scheduler lock is kept in the lock, and the lock
is released by the thread that is switched in.  Deferred functions and
postponed switches are calls of their own, made while a thread is lowering its
IRQL or has just lowered it.
-/
import Merlon.Irq.Irql
import Merlon.Library.Machine

namespace Merlon.Switch

open Option

open Function (update update_self update_apply update_of_ne)

def irqlPageFault : Nat := 2

def irqlScheduler : Nat := 3

def irqlHigh : Nat := 41

/-- The panics and failed assertions. -/
inductive Halt where
  | doubleAcquisition
  | releasedBeforeAcquired
  | invalidIrql
  | assertion
  | noThread
  deriving DecidableEq

structure Spinlock where
  lock : Bool
  irql : Nat
  prevIrql : Nat

def raiseIrql (level irql : Nat) : Except Halt Nat :=
  if level < irql then .error .invalidIrql else .ok level

/-- `LowerIrql`, the deferred functions and a postponed switch apart. -/
def lowerIrql (level irql : Nat) : Except Halt Nat :=
  if irql < level then .error .invalidIrql else .ok (Irq.settle level)

/-- The lock and the IRQL after `AcquireSpinlock`. -/
def acquireSpinlock (lock : Spinlock) (irql : Nat) : Except Halt (Spinlock × Nat) :=
  if lock.lock then .error .doubleAcquisition
  else do
    let raised ← raiseIrql lock.irql irql
    .ok ({ lock with lock := true, prevIrql := irql }, raised)

/-- The lock and the IRQL after `ReleaseSpinlock`. -/
def releaseSpinlock (lock : Spinlock) (irql : Nat) : Except Halt (Spinlock × Nat) :=
  if lock.lock then do
    let lowered ← lowerIrql lock.prevIrql irql
    .ok ({ lock with lock := false }, lowered)
  else .error .releasedBeforeAcquired

/-- How far a call of `Schedule` has come: it is switched out (or about to
be), is lowering the IRQL as it releases the scheduler lock, or has done so. -/
inductive Progress where
  | locked
  | lowering (target : Nat)
  | lowered
  deriving DecidableEq

/-- A call of `Schedule` that has not returned, and the IRQL it was made at. -/
structure Frame where
  calledAt : Nat
  progress : Progress
  deriving DecidableEq

/-- A call of `Schedule` that has returned. -/
structure Return where
  thread : Option Nat
  calledAt : Nat
  returnedAt : Nat
  deriving DecidableEq

/-- The CPU and the scheduler.  For each thread there are its unfinished calls
of `Schedule`, the latest first; the returns are recorded. -/
structure State where
  irql : Nat
  schedulerLock : Spinlock
  schedulerRecurLock : Spinlock
  innermostLock : Spinlock
  schedulerLockCount : Nat
  schedulerPrevent : Int
  currentThread : Option Nat
  frames : Nat → List Frame
  returned : List Return

namespace State

/-- `InitScheduler`, before `StartMultitasking`. -/
def initScheduler : State where
  irql := Irq.irqlStandard
  schedulerLock := ⟨false, irqlScheduler, 0⟩
  schedulerRecurLock := ⟨false, irqlScheduler, 0⟩
  innermostLock := ⟨false, irqlHigh, 0⟩
  schedulerLockCount := 0
  schedulerPrevent := 0
  currentThread := none
  frames := fun _ => []
  returned := []

def lockScheduler (s : State) : Except Halt State := do
  let (recur, irql) ← acquireSpinlock s.schedulerRecurLock s.irql
  let (lock, recur, irql) ←
    if s.schedulerLockCount = 0 then do
      let (lock, irql) ← acquireSpinlock s.schedulerLock irql
      .ok ({ lock with prevIrql := recur.prevIrql },
        { recur with prevIrql := lock.irql }, irql)
    else .ok (s.schedulerLock, recur, irql)
  if lock.lock then do
    let (recur, irql) ← releaseSpinlock recur irql
    .ok { s with
      irql := irql
      schedulerLock := lock
      schedulerRecurLock := recur
      schedulerLockCount := s.schedulerLockCount + 1 }
  else .error .assertion

def unlockScheduler (s : State) : Except Halt State := do
  let (recur, irql) ← acquireSpinlock s.schedulerRecurLock s.irql
  if s.schedulerLockCount = 0 then .error .assertion
  else if s.schedulerLock.lock then do
    let (lock, recur, irql) ←
      if s.schedulerLockCount - 1 = 0 then do
        let recur := { recur with prevIrql := s.schedulerLock.prevIrql }
        let (lock, irql) ←
          releaseSpinlock { s.schedulerLock with prevIrql := irql } irql
        .ok (lock, recur, irql)
      else .ok (s.schedulerLock, recur, irql)
    let (recur, irql) ← releaseSpinlock recur irql
    .ok { s with
      irql := irql
      schedulerLock := lock
      schedulerRecurLock := recur
      schedulerLockCount := s.schedulerLockCount - 1 }
  else .error .assertion

/-- `SwitchToNewTask`: the old thread takes the innermost lock, and the new
one releases it. -/
def switchToNewTask (s : State) (thread : Nat) : Except Halt State := do
  let (held, irql) ← acquireSpinlock s.innermostLock s.irql
  let (released, irql) ← releaseSpinlock held irql
  .ok { s with
    irql := irql
    innermostLock := released
    currentThread := some thread }

/-- `ScheduleWithLockHeld`; `next` is the head of the ready list. -/
def scheduleWithLockHeld (s : State) (next : Option Nat) : Except Halt State :=
  if s.irql = irqlScheduler ∧ s.schedulerLock.lock = true then
    match next with
    | none => .ok s
    | some thread =>
      if s.currentThread = some thread then .ok s
      else s.switchToNewTask thread
  else .error .assertion

/-- The frames of the current thread change. -/
def setFrames (s : State) (change : List Frame → List Frame) : State :=
  match s.currentThread with
  | none => s
  | some thread =>
    { s with
      frames := update s.frames thread (change (s.frames thread)) }

/-- The frames of the current thread; none before the first thread runs. -/
def currentFrames (s : State) : List Frame :=
  match s.currentThread with
  | none => []
  | some thread => s.frames thread

end State

/-- The latest call goes on from the lock to lowering the IRQL. -/
def resume (target : Nat) : List Frame → List Frame
  | ⟨calledAt, .locked⟩ :: rest => ⟨calledAt, .lowering target⟩ :: rest
  | frames => frames

namespace State

/-- `Schedule`, until the thread that runs then lowers the IRQL.  A thread
that has not run before starts in `ThreadInitialisationHandler`, which releases
the same locks. -/
def schedule (s : State) (next : Option Nat) : Except Halt State :=
  if irqlPageFault < s.irql ∨ 0 < s.schedulerPrevent then
    .ok { s with
      returned := s.returned ++ [⟨s.currentThread, s.irql, s.irql⟩] }
  else do
    let called := s.setFrames fun frames => ⟨s.irql, .locked⟩ :: frames
    let held ← called.lockScheduler
    let switched ← held.scheduleWithLockHeld next
    let unlocked ← switched.unlockScheduler
    if unlocked.currentThread = none then .error .noThread
    else .ok (unlocked.setFrames (resume unlocked.irql))

/-- The IRQL is lowered, all deferred functions having run. -/
def lowered (s : State) : State :=
  match s.currentFrames with
  | ⟨calledAt, .lowering target⟩ :: rest =>
    { s.setFrames fun _ => ⟨calledAt, .lowered⟩ :: rest with irql := target }
  | _ => s

/-- `Schedule` returns. -/
def finish (s : State) : State :=
  match s.currentFrames with
  | ⟨calledAt, .lowered⟩ :: rest =>
    { s.setFrames fun _ => rest with
      returned := s.returned ++ [⟨s.currentThread, calledAt, s.irql⟩] }
  | _ => s

end State

/-- The steps of the threads. -/
inductive Event where
  | schedule (next : Option Nat)
  | lowered
  | finish
  | setIrql (level : Nat)
  | setPrevent (count : Int)

namespace Event

def run (s : State) : Event → Except Halt State
  | .schedule next => s.schedule next
  | .lowered => .ok s.lowered
  | .finish => .ok s.finish
  | .setIrql level => .ok { s with irql := level }
  | .setPrevent count => .ok { s with schedulerPrevent := count }

/-- The ready list has threads that are switched out or have not run; the IRQL
is changed by a thread that is not in `Schedule`, or by the functions that run
while it lowers the IRQL, and never to the level that is for calls only. -/
def possible (s : State) : Event → Bool
  | .schedule next =>
    next.all fun thread => s.currentThread == some thread ||
      (s.frames thread).head?.all fun frame => frame.progress == .locked
  | .setIrql level =>
    level != Irq.irqlStandardHighPriority && s.currentFrames.head?.all fun frame =>
        match frame.progress with
        | .lowering _ => true
        | _ => false
  | _ => true

/-- A thread that is switched in has called `Schedule` at the IRQL at which
the thread that is switched out calls it. -/
def keepsIrql (s : State) : Event → Bool
  | .schedule next =>
    decide (irqlPageFault < s.irql) || decide (0 < s.schedulerPrevent) || next.all
      fun thread => s.currentThread == some thread || (s.frames thread).head?.all
      fun frame => frame.calledAt == s.irql
  | _ => true

end Event

def State.Step (guard : State → Event → Bool) (s : State) (event : Event) (s' : State) : Prop :=
  (event.possible s && guard s event) = true ∧ event.run s = .ok s'

namespace State

variable {s s' : State} {thread : Nat} {next : Option Nat} {level : Nat}
  {frames : List Frame} {prevIrql : Nat}

/-- The locks of the scheduler when nobody holds them. -/
structure Free (s : State) : Prop where
  schedulerLock : s.schedulerLock.lock = false
  schedulerIrql : s.schedulerLock.irql = irqlScheduler
  recurLock : s.schedulerRecurLock.lock = false
  recurIrql : s.schedulerRecurLock.irql = irqlScheduler
  innermostLock : s.innermostLock.lock = false
  innermostIrql : s.innermostLock.irql = irqlHigh
  count : s.schedulerLockCount = 0

lemma lockScheduler_eq (hfree : s.Free) (hirql : s.irql ≤ irqlScheduler) :
    s.lockScheduler = .ok { s with
      irql := irqlScheduler
      schedulerLock := ⟨true, irqlScheduler, s.irql⟩
      schedulerRecurLock := ⟨false, irqlScheduler, irqlScheduler⟩
      schedulerLockCount := 1 } := by
  have hsettle : Irq.settle irqlScheduler = irqlScheduler := rfl
  simp [lockScheduler, acquireSpinlock, releaseSpinlock, raiseIrql, lowerIrql,
    hfree.schedulerLock, hfree.schedulerIrql, hfree.recurLock, hfree.recurIrql,
    hfree.count, Nat.not_lt.mpr hirql, hsettle]

lemma unlockScheduler_eq (hlock : s.schedulerLock = ⟨true, irqlScheduler, prevIrql⟩)
    (hrecur : s.schedulerRecurLock = ⟨false, irqlScheduler, irqlScheduler⟩)
    (hcount : s.schedulerLockCount = 1) (hirql : s.irql = irqlScheduler)
    (hprev : prevIrql ≤ irqlScheduler) : s.unlockScheduler = .ok { s with
      irql := Irq.settle prevIrql
      schedulerLock := ⟨false, irqlScheduler, irqlScheduler⟩
      schedulerRecurLock := ⟨false, irqlScheduler, prevIrql⟩
      schedulerLockCount := 0 } := by
  have hsettle : Irq.settle irqlScheduler = irqlScheduler := rfl
  simp [unlockScheduler, acquireSpinlock, releaseSpinlock, raiseIrql,
    lowerIrql, hlock, hrecur, hcount, hirql, Nat.not_lt.mpr hprev, hsettle]

lemma switchToNewTask_eq (hlock : s.innermostLock.lock = false)
    (hinner : s.innermostLock.irql = irqlHigh) (hirql : s.irql = irqlScheduler) (thread : Nat) :
    s.switchToNewTask thread = .ok { s with
      innermostLock := ⟨false, irqlHigh, irqlScheduler⟩
      currentThread := some thread } := by
  have hsettle : Irq.settle irqlScheduler = irqlScheduler := rfl
  have hraise : ¬ irqlHigh < irqlScheduler := by decide
  simp [switchToNewTask, acquireSpinlock, releaseSpinlock, raiseIrql,
    lowerIrql, hlock, hinner, hirql, hsettle, hraise]

lemma setFrames_eq (s : State) (change : List Frame → List Frame) :
    s.setFrames change = { s with frames := (s.setFrames change).frames } := by
  unfold setFrames
  split <;> rfl

lemma Free.setFrames (hfree : s.Free) (change : List Frame → List Frame) :
    (s.setFrames change).Free := by
  rw [setFrames_eq]
  exact { hfree with }

/-- The locks and the IRQL while the scheduler lock is held. -/
structure Held (s : State) (prevIrql : Nat) : Prop where
  irql : s.irql = irqlScheduler
  schedulerLock : s.schedulerLock = ⟨true, irqlScheduler, prevIrql⟩
  recurLock : s.schedulerRecurLock = ⟨false, irqlScheduler, irqlScheduler⟩
  innermostLock : s.innermostLock.lock = false
  innermostIrql : s.innermostLock.irql = irqlHigh
  count : s.schedulerLockCount = 1

lemma scheduleWithLockHeld_eq (hheld : s.Held prevIrql)
    (hnext : next.or s.currentThread = some thread) :
    ∃ inner, s.scheduleWithLockHeld next = .ok { s with
        innermostLock := inner
        currentThread := some thread } ∧
      inner.lock = false ∧ inner.irql = irqlHigh := by
  have hlock : s.schedulerLock.lock = true := by rw [hheld.schedulerLock]
  have hstay : s.currentThread = some thread → s = { s with
      innermostLock := s.innermostLock
      currentThread := some thread } := by
    intro hcurrent
    rw [← hcurrent]
  unfold scheduleWithLockHeld
  rw [if_pos ⟨hheld.irql, hlock⟩]
  cases next with
  | none =>
    refine ⟨s.innermostLock, congrArg Except.ok (hstay hnext),
      hheld.innermostLock, hheld.innermostIrql⟩
  | some other =>
    rw [some_or, some.injEq] at hnext
    subst hnext
    dsimp only
    split
    · rename_i hcurrent
      exact ⟨s.innermostLock, congrArg Except.ok (hstay hcurrent),
        hheld.innermostLock, hheld.innermostIrql⟩
    · exact ⟨_, switchToNewTask_eq hheld.innermostLock hheld.innermostIrql
        hheld.irql other, rfl, rfl⟩

/-- The state after the switch: the locks are free again, and the IRQL is the
one at which the thread that was switched out made its call. -/
lemma schedule_eq (hfree : s.Free) (hirql : s.irql ≤ irqlPageFault)
    (hprevent : s.schedulerPrevent ≤ 0) (hnext : next.or s.currentThread = some thread) :
    ∃ recur inner, s.schedule next = .ok
        (({ s.setFrames fun frames => ⟨s.irql, .locked⟩ :: frames with
          irql := Irq.settle s.irql
          schedulerLock := ⟨false, irqlScheduler, irqlScheduler⟩
          schedulerRecurLock := recur
          innermostLock := inner
          schedulerLockCount := 0
          currentThread := some thread } : State).setFrames (resume (Irq.settle s.irql))) ∧
      recur.lock = false ∧ recur.irql = irqlScheduler ∧
      inner.lock = false ∧ inner.irql = irqlHigh := by
  have hscheduler : s.irql ≤ irqlScheduler := Nat.le_trans hirql (by decide)
  obtain ⟨called, hcalled⟩ : ∃ called, called =
      s.setFrames fun frames => ⟨s.irql, .locked⟩ :: frames := ⟨_, rfl⟩
  have hkept := setFrames_eq s fun frames => ⟨s.irql, .locked⟩ :: frames
  rw [← hcalled] at hkept
  have hlock : called.lockScheduler = _ :=
    lockScheduler_eq (hcalled ▸ hfree.setFrames _) (by rw [hkept]; exact hscheduler)
  have hheld : Held { called with
      irql := irqlScheduler
      schedulerLock := ⟨true, irqlScheduler, called.irql⟩
      schedulerRecurLock := ⟨false, irqlScheduler, irqlScheduler⟩
      schedulerLockCount := 1 } called.irql :=
    ⟨rfl, rfl, rfl, by rw [hkept]; exact hfree.innermostLock,
      by rw [hkept]; exact hfree.innermostIrql, rfl⟩
  have hcurrent : next.or called.currentThread = some thread := by
    rw [hkept]
    exact hnext
  obtain ⟨inner, hswitch, hinner, hinnerIrql⟩ := scheduleWithLockHeld_eq hheld hcurrent
  refine ⟨⟨false, irqlScheduler, called.irql⟩, inner, ?_, rfl, rfl, hinner, hinnerIrql⟩
  unfold schedule
  rw [if_neg (by omega)]
  dsimp only
  rw [← hcalled, hlock, ok_bind, hswitch, ok_bind,
    unlockScheduler_eq rfl rfl rfl rfl (by rw [hkept]; exact hscheduler), ok_bind, if_neg (by simp)]
  have hsame : called.irql = s.irql := by rw [hkept]
  rw [hsame]

/-- The unfinished calls of a thread.  A call that lowers the IRQL lowers it
to where it was made, and a call made when the one before it had lowered the
IRQL was made at the same level. -/
def Orderly : List Frame → Prop
  | [] => True
  | frame :: rest =>
    (frame.calledAt ≠ Irq.irqlStandardHighPriority ∧
      (∀ target, frame.progress = .lowering target → target = frame.calledAt) ∧
      ∀ before ∈ rest.head?, before.progress = .lowered →
        frame.calledAt = before.calledAt) ∧ Orderly rest

/-- What holds between the steps. -/
structure Sound (s : State) : Prop where
  free : s.Free
  level : s.irql ≠ Irq.irqlStandardHighPriority
  orderly : ∀ thread, Orderly (s.frames thread)
  lowered : ∀ frame ∈ s.currentFrames.head?, frame.progress = .lowered → s.irql = frame.calledAt
  returned : ∀ record ∈ s.returned, record.returnedAt = record.calledAt

lemma currentFrames_eq (h : s.currentThread = some thread) : s.currentFrames = s.frames thread := by
  unfold currentFrames
  rw [h]

lemma setFrames_some (h : s.currentThread = some thread) (change : List Frame → List Frame) :
    s.setFrames change = { s with
      frames := update s.frames thread (change (s.frames thread)) } := by
  unfold setFrames
  rw [h]

lemma Sound.orderly_current (h : s.Sound) : Orderly s.currentFrames := by
  unfold currentFrames
  split
  · trivial
  · exact h.orderly _

/-- The calls after one more, made by the current thread. -/
lemma Sound.orderly_call (h : s.Sound) (other : Nat) :
    Orderly ((s.setFrames fun frames => ⟨s.irql, .locked⟩ :: frames).frames other) := by
  cases hcurrent : s.currentThread with
  | none =>
    unfold setFrames
    rw [hcurrent]
    exact h.orderly other
  | some thread =>
    rw [setFrames_some hcurrent]
    dsimp only
    rw [update_apply]
    split
    · refine ⟨⟨h.level, fun target hprogress => ?_, ?_⟩, h.orderly thread⟩
      · cases hprogress
      · rw [← currentFrames_eq hcurrent]
        exact h.lowered
    · exact h.orderly other

/-- A thread goes on at the level at which it made its call. -/
lemma Orderly.resume (h : Orderly frames)
    (hlevel : ∀ frame ∈ frames.head?, frame.calledAt = level) : Orderly (resume level frames) := by
  unfold Switch.resume
  split
  · rename_i calledAt rest
    have hsame : calledAt = level := hlevel _ rfl
    refine ⟨⟨h.1.1, fun target hprogress => ?_, h.1.2.2⟩, h.2⟩
    cases hprogress
    exact hsame.symm
  · exact h

/-- A call that goes on from the lock has not lowered the IRQL yet. -/
lemma not_lowered_of_resume (hlocked : ∀ frame ∈ frames.head?, frame.progress = .locked) :
    ∀ frame ∈ (resume level frames).head?, frame.progress ≠ .lowered := by
  unfold Switch.resume
  intro frame hframe hlowered
  split at hframe
  · cases hframe
    cases hlowered
  · rw [hlocked frame hframe] at hlowered
    cases hlowered

/-- Nobody can be switched in before the first thread. -/
lemma schedule_none (hfree : s.Free) (hirql : s.irql ≤ irqlPageFault)
    (hprevent : s.schedulerPrevent ≤ 0) (hnone : s.currentThread = none) :
    s.schedule none = .error .noThread := by
  have hscheduler : s.irql ≤ irqlScheduler := Nat.le_trans hirql (by decide)
  have hcalled : (s.setFrames fun frames => ⟨s.irql, .locked⟩ :: frames) = s := by
    unfold setFrames
    rw [hnone]
  unfold schedule
  rw [if_neg (by omega)]
  dsimp only
  rw [hcalled, lockScheduler_eq hfree hscheduler, ok_bind]
  unfold scheduleWithLockHeld
  rw [if_pos ⟨rfl, rfl⟩]
  rw [ok_bind, unlockScheduler_eq rfl rfl rfl rfl hscheduler, ok_bind, if_pos hnone]

/-- What the thread that is switched in has called. -/
lemma head_of_call (hnext : next.or s.currentThread = some thread)
    (hpossible : (Event.schedule next).possible s = true)
    (hkeeps : (Event.schedule next).keepsIrql s = true) (hirql : s.irql ≤ irqlPageFault)
    (hprevent : s.schedulerPrevent ≤ 0) :
    ∀ frame ∈ ((s.setFrames fun frames => ⟨s.irql, .locked⟩ :: frames).frames thread).head?,
    frame.progress = .locked ∧ frame.calledAt = s.irql := by
  intro frame hframe
  by_cases hcurrent : s.currentThread = some thread
  · rw [setFrames_some hcurrent] at hframe
    dsimp only at hframe
    rw [update_self] at hframe
    cases hframe
    exact ⟨rfl, rfl⟩
  · have hsome : next = some thread := by
      cases next with
      | none => exact absurd hnext hcurrent
      | some other => exact hnext
    subst hsome
    have hsame : (s.setFrames fun frames => ⟨s.irql, .locked⟩ :: frames).frames
        thread = s.frames thread := by
      unfold setFrames
      split
      · rfl
      · rename_i current hthread
        refine update_of_ne ?_ ..
        rintro rfl
        exact hcurrent hthread
    rw [hsame] at hframe
    dsimp only [Event.possible, Event.keepsIrql] at hpossible hkeeps
    rw [all_some, beq_eq_false_iff_ne.mpr hcurrent, mem_def.mp hframe] at hpossible hkeeps
    rw [decide_eq_false (Nat.not_lt.mpr hirql), decide_eq_false (Int.not_lt.mpr hprevent)] at hkeeps
    exact ⟨beq_iff_eq.mp hpossible, beq_iff_eq.mp hkeeps⟩

section

variable (h : s.Sound)
include h

lemma Sound.schedule (hpossible : (Event.schedule next).possible s = true)
    (hkeeps : (Event.schedule next).keepsIrql s = true)
    (hstep : s.schedule next = .ok s') : s'.Sound := by
  by_cases hpostponed : irqlPageFault < s.irql ∨ 0 < s.schedulerPrevent
  · unfold State.schedule at hstep
    rw [if_pos hpostponed] at hstep
    cases hstep
    refine ⟨{ h.free with }, h.level, h.orderly, h.lowered, ?_⟩
    intro record hmem
    rcases List.mem_append.mp hmem with hmem | hmem
    · exact h.returned record hmem
    · rw [List.mem_singleton.mp hmem]
  · obtain ⟨hirql, hprevent⟩ := not_or.mp hpostponed
    rw [Nat.not_lt] at hirql
    rw [Int.not_lt] at hprevent
    cases hnext : next.or s.currentThread with
    | none =>
      obtain ⟨rfl, hnone⟩ := or_eq_none_iff.mp hnext
      rw [schedule_none h.free hirql hprevent hnone] at hstep
      cases hstep
    | some thread =>
      obtain ⟨recur, inner, hschedule, hrecur, hrecurIrql, hinner,
        hinnerIrql⟩ := schedule_eq h.free hirql hprevent hnext
      have hsettle : Irq.settle s.irql = s.irql := if_neg h.level
      have hhead := head_of_call hnext hpossible hkeeps hirql hprevent
      have hkept := setFrames_eq s fun frames => ⟨s.irql, .locked⟩ :: frames
      rw [hschedule, hsettle] at hstep
      cases hstep
      rw [setFrames_some rfl]
      refine ⟨⟨rfl, rfl, hrecur, hrecurIrql, hinner, hinnerIrql, rfl⟩,
        h.level, fun other => ?_, ?_, ?_⟩
      · dsimp only
        rw [update_apply]
        split
        · exact (h.orderly_call thread).resume fun frame hframe => (hhead frame hframe).2
        · exact h.orderly_call other
      · rw [currentFrames_eq rfl]
        dsimp only
        rw [update_self]
        intro frame hframe hlowered
        exact absurd hlowered (not_lowered_of_resume
          (fun frame hframe => (hhead frame hframe).1) frame hframe)
      · rw [hkept]
        exact h.returned

lemma Sound.lowers : s.lowered.Sound := by
  unfold State.lowered
  split
  · rename_i calledAt target rest hframes
    have horderly := h.orderly_current
    rw [hframes] at horderly
    have htarget : target = calledAt := horderly.1.2.1 target rfl
    subst htarget
    cases hcurrent : s.currentThread with
    | none =>
      unfold currentFrames at hframes
      rw [hcurrent] at hframes
      cases hframes
    | some thread =>
      rw [setFrames_some hcurrent]
      refine ⟨{ h.free with }, horderly.1.1, fun other => ?_, ?_, h.returned⟩
      · dsimp only
        rw [update_apply]
        split
        · refine ⟨⟨horderly.1.1, fun target hprogress => ?_, horderly.1.2.2⟩, horderly.2⟩
          cases hprogress
        · exact h.orderly other
      · unfold currentFrames
        rw [hcurrent]
        dsimp only
        rw [update_self]
        intro frame hframe _
        cases hframe
        rfl
  · exact h

lemma Sound.finish : s.finish.Sound := by
  unfold State.finish
  split
  · rename_i calledAt rest hframes
    have horderly := h.orderly_current
    have hlevel := h.lowered
    rw [hframes] at horderly hlevel
    have hirql : s.irql = calledAt := hlevel _ rfl rfl
    cases hcurrent : s.currentThread with
    | none =>
      unfold currentFrames at hframes
      rw [hcurrent] at hframes
      cases hframes
    | some thread =>
      rw [setFrames_some hcurrent]
      refine ⟨{ h.free with }, h.level, fun other => ?_, ?_, ?_⟩
      · dsimp only
        rw [update_apply]
        split
        · exact horderly.2
        · exact h.orderly other
      · unfold currentFrames
        rw [hcurrent]
        dsimp only
        rw [update_self]
        intro frame hframe hlowered
        exact hirql.trans (horderly.1.2.2 frame hframe hlowered)
      · intro record hmem
        rcases List.mem_append.mp hmem with hmem | hmem
        · exact h.returned record hmem
        · rw [List.mem_singleton.mp hmem]
          exact hirql
  · exact h

lemma Sound.setIrql (hpossible : (Event.setIrql level).possible s = true) :
    Sound { s with irql := level } := by
  obtain ⟨hlevel, hlowering⟩ := Bool.and_eq_true_iff.mp hpossible
  refine ⟨{ h.free with }, bne_iff_ne.mp hlevel, h.orderly,
    fun frame hframe hlowered => ?_, h.returned⟩
  change frame ∈ s.currentFrames.head? at hframe
  rw [mem_def.mp hframe, all_some, hlowered] at hlowering
  cases hlowering

lemma Sound.step {event : Event} (hpossible : event.possible s = true)
    (hkeeps : event.keepsIrql s = true) (hstep : event.run s = .ok s') : s'.Sound := by
  cases event with
  | schedule next => exact h.schedule hpossible hkeeps hstep
  | lowered =>
    cases hstep
    exact h.lowers
  | finish =>
    cases hstep
    exact h.finish
  | setIrql level =>
    cases hstep
    exact h.setIrql hpossible
  | setPrevent count =>
    cases hstep
    exact { h with free := { h.free with } }

end

lemma Sound.initScheduler : State.initScheduler.Sound where
  free := ⟨rfl, rfl, rfl, rfl, rfl, rfl, rfl⟩
  level := by decide
  orderly _ := trivial
  lowered := nofun
  returned := nofun

lemma Sound.run {events : List Event}
    (hrun : Run (State.Step Event.keepsIrql) State.initScheduler events s) : s.Sound := by
  refine hrun.invariant Sound.initScheduler ?_
  rintro state event next hsound ⟨hguard, hstep⟩
  obtain ⟨hpossible, hkeeps⟩ := Bool.and_eq_true_iff.mp hguard
  exact hsound.step hpossible hkeeps hstep

/-- A call of `Schedule` gets its locks and releases them. -/
lemma Sound.schedule_ok (h : s.Sound) (hnext : next.or s.currentThread = some thread) :
    ∃ s', s.schedule next = .ok s' := by
  by_cases hpostponed : irqlPageFault < s.irql ∨ 0 < s.schedulerPrevent
  · exact ⟨_, if_pos hpostponed⟩
  · obtain ⟨hirql, hprevent⟩ := not_or.mp hpostponed
    obtain ⟨recur, inner, hschedule, _⟩ := schedule_eq h.free
      (Nat.not_lt.mp hirql) (Int.not_lt.mp hprevent) hnext
    exact ⟨_, hschedule⟩

end State

/-- As long as every thread that is switched in made its call of `Schedule` at
the IRQL at which the thread that is switched out makes its own, every call of
`Schedule` returns at the IRQL at which it was made, and as long as there is a
thread to run no call fails. -/
theorem run_schedule_keeps_irql {events : List Event} {s : State}
    (hrun : Run (State.Step Event.keepsIrql) State.initScheduler events s) :
    (∀ record ∈ s.returned, record.returnedAt = record.calledAt) ∧
    ∀ next thread, next.or s.currentThread = some thread → ∃ s', s.schedule next = .ok s' := by
  have hsound := State.Sound.run hrun
  exact ⟨hsound.returned, fun next thread hnext => hsound.schedule_ok hnext⟩

/-- Two threads switch to each other at the level of page faults. -/
def sameLevels : List Event :=
  [.schedule (some 0), .setIrql 2, .schedule (some 1), .schedule (some 0), .lowered, .finish]

theorem sameLevels_keeps_irql : ∃ s,
    Run (State.Step Event.keepsIrql) State.initScheduler sameLevels s ∧
    s.returned = [⟨some 0, 2, 2⟩] ∧ ∀ record ∈ s.returned, record.returnedAt = record.calledAt :=
  exists_run_and (fun _ _ _ hguard hnext => ⟨hguard, hnext⟩)
    (fun hrun _ => (run_schedule_keeps_irql hrun).1) (by decide)

/-- The first thread calls `Schedule` at the level of page faults, the second
switches back to it at the standard level. -/
def mixedLevels : List Event :=
  [.schedule (some 0), .setIrql 2, .schedule (some 1), .setIrql 0,
    .schedule (some 0), .lowered, .finish]

/-- The first thread comes back at the standard level. -/
theorem mixedLevels_loses_irql : ∃ s,
    Run (State.Step fun _ _ => true) State.initScheduler mixedLevels s ∧
    s.returned = [⟨some 0, 2, 0⟩] :=
  exists_run_test (fun _ _ _ hguard hnext => ⟨hguard, hnext⟩) (by decide)

end Merlon.Switch
