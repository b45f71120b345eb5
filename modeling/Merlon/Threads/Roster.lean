/-
Who is queued where, without links: a roster has the ready list, the sleep
list and the waiting lists as plain lists.  Each function of the kernel keeps
its lists in step with the roster operation of the same name.
-/
import Mathlib.Data.List.Perm.Subperm
import Mathlib.Data.List.Range
import Merlon.Threads.Semaphore

namespace Merlon.Threads

open List

open Function (update update_self update_apply update_of_ne)

variable {members : List Nat}

structure Roster extends Core where
  ready : List Nat
  sleeping : List Nat
  waiting : Nat → List Nat

namespace Roster

def modifyThread (r : Roster) (thread : Nat) (change : Thread → Thread) :
    Roster :=
  { r with toCore := r.toCore.modifyThread thread change }

def setCurrentCount (r : Roster) (sem : Nat) (count : Int) : Roster :=
  { r with toCore := r.toCore.setCurrentCount sem count }

def block (r : Roster) (reason : ThreadState) : Roster :=
  { r with toCore := r.toCore.block reason }

def setWaiting (r : Roster) (sem : Nat) (members : List Nat) : Roster :=
  { r with waiting := update r.waiting sem members }

def queueForSleep (r : Roster) (thread : Nat) : Roster :=
  { r.modifyThread thread (fun thr => { thr with timedOut := false }) with
    sleeping := r.sleeping ++ [thread] }

def deleteSleeping (r : Roster) (thread : Nat) : Roster :=
  { r with sleeping := r.sleeping.erase thread }

def insertReady (r : Roster) (thread : Nat) : Roster :=
  { r with ready := r.ready ++ [thread] }

def cancel (r : Roster) (thread : Nat) : Roster :=
  match (r.thread thread).waitingOnSemaphore with
  | none => r
  | some sem => r.setWaiting sem ((r.waiting sem).erase thread)

def unblock (r : Roster) (thread : Nat) : Roster :=
  if (r.thread thread).state = .waitingForSemaphoreWithTimeout then
    (r.cancel thread).insertReady thread
  else r.insertReady thread

def wait (r : Roster) (sem thread : Nat) : Roster :=
  r.setWaiting sem (r.waiting sem ++ [thread])

def acquire (r : Roster) (sem : Nat) (timeoutMs : Int) : Roster :=
  let thread := r.currentThread
  let r := r.modifyThread thread (fun thr => { thr with timedOut := false })
  if r.currentCount sem < r.maxCount sem then
    r.setCurrentCount sem (r.currentCount sem + 1)
  else
    let r := r.modifyThread thread (fun thr => { thr with waitingOnSemaphore := some sem })
    if timeoutMs = 0 then
      r.modifyThread thread (fun thr => { thr with timedOut := true })
    else if timeoutMs = -1 then
      (r.wait sem thread).block .waitingForSemaphore
    else
      let r := (r.wait sem thread).modifyThread thread
        (fun thr => { thr with sleepExpiry := r.expiryAfter timeoutMs })
      (r.queueForSleep thread).block .waitingForSemaphoreWithTimeout

def release (r : Roster) (sem : Nat) : Roster :=
  match r.waiting sem with
  | [] => r.setCurrentCount sem (r.currentCount sem - 1)
  | top :: rest =>
    let r := r.setWaiting sem rest
    if (r.thread top).state = .waitingForSemaphoreWithTimeout then
      if top ∈ r.sleeping then
        ((r.deleteSleeping top).modifyThread top
          (fun thr => { thr with state := .ready })).unblock top
      else r
    else r.unblock top

def wake (r : Roster) (thread : Nat) : Roster :=
  ((r.deleteSleeping thread).modifyThread thread (fun thr => { thr with
      timedOut := true
      timedOutDueToSignal := thr.signalIntr })).unblock thread

/-- The sleepers `HandleSleepWakeups` wakes, in the order it finds them. -/
def due (r : Roster) (time : Nat) : List Nat :=
  r.sleeping.filter (r.isDue time)

def wakeups (r : Roster) : Roster :=
  (r.due r.systemTime).foldl wake r

def sleepUntil (r : Roster) (systemTimeNs : Nat) : Roster :=
  if systemTimeNs < r.systemTime then r
  else
    let thread := r.currentThread
    let r := r.modifyThread thread (fun thr => { thr with sleepExpiry := systemTimeNs })
    (r.queueForSleep thread).block .sleeping

def setPostponed (r : Roster) (postponed : Bool) : Roster :=
  { r with postponedTaskSwitch := postponed }

/-- The first ready thread becomes the current one. -/
def switchTo (r : Roster) (new : Nat) : Roster :=
  { r.modifyThread new (fun thr => { thr with state := .running }) with
    ready := r.ready.tail
    currentThread := new }

def scheduleWithLockHeld (r : Roster) : Roster :=
  match r.ready.head? with
  | none => r
  | some new =>
    if new = r.currentThread then r
    else if (r.thread r.currentThread).state = .running then
      (r.insertReady r.currentThread).switchTo new
    else r.switchTo new

def schedule (r : Roster) : Roster :=
  (r.setPostponed false).scheduleWithLockHeld

/-- A thread waiting with a timeout is on the list of the semaphore it waits
for. -/
def Cancellable (r : Roster) (thread : Nat) : Prop :=
  (r.thread thread).state = .waitingForSemaphoreWithTimeout →
    ∃ sem, (r.thread thread).waitingOnSemaphore = some sem ∧ thread ∈ r.waiting sem

/-- The current thread runs, and waits and sleeps nowhere. -/
structure Free (r : Roster) : Prop where
  isThread : r.IsThread r.currentThread
  running : (r.thread r.currentThread).state = .running
  sleeping : r.currentThread ∉ r.sleeping
  waiting : ∀ sem, r.currentThread ∉ r.waiting sem

lemma Free.modify {r : Roster} (hfree : r.Free) (change : Thread → Thread)
    (hstate : ∀ thr, (change thr).state = thr.state) :
    (r.modifyThread r.currentThread change).Free where
  __ := hfree
  running := by
    simp only [modifyThread, Core.modifyThread, update_self, hstate]
    exact hfree.running

/-- Every sleeper can be made ready. -/
def Wakeable (r : Roster) : Prop :=
  ∀ thread ∈ r.sleeping, thread ∉ r.ready ∧ r.Cancellable thread

section

variable (r : Roster)

@[simp] lemma setWaiting_self (sem : Nat) (members : List Nat) :
    (r.setWaiting sem members).waiting sem = members := by
  simp [setWaiting]

lemma setWaiting_of_ne {sem sem' : Nat} (members : List Nat) (hne : sem' ≠ sem) :
    (r.setWaiting sem members).waiting sem' = r.waiting sem' := by
  simp [setWaiting, hne]

section

variable (thread : Nat)

@[simp] lemma cancel_toCore : (r.cancel thread).toCore = r.toCore := by
  rw [cancel]
  split <;> rfl

@[simp] lemma cancel_ready : (r.cancel thread).ready = r.ready := by
  rw [cancel]
  split <;> rfl

@[simp] lemma cancel_sleeping : (r.cancel thread).sleeping = r.sleeping := by
  rw [cancel]
  split <;> rfl

@[simp] lemma unblock_toCore : (r.unblock thread).toCore = r.toCore := by
  rw [unblock]
  split <;> simp [insertReady]

@[simp] lemma unblock_ready : (r.unblock thread).ready = r.ready ++ [thread] := by
  rw [unblock]
  split <;> simp [insertReady]

@[simp] lemma unblock_sleeping : (r.unblock thread).sleeping = r.sleeping := by
  rw [unblock]
  split <;> simp [insertReady]

end

end

variable {thread : Nat}

section

variable (r : Roster)

lemma unblock_waiting_of_ne (hstate : (r.thread thread).state ≠ .waitingForSemaphoreWithTimeout) :
    (r.unblock thread).waiting = r.waiting := by
  rw [unblock, if_neg hstate]
  rfl

lemma unblock_waiting_of_eq {sem : Nat}
    (hstate : (r.thread thread).state = .waitingForSemaphoreWithTimeout)
    (hsem : (r.thread thread).waitingOnSemaphore = some sem) :
    (r.unblock thread).waiting = update r.waiting sem ((r.waiting sem).erase thread) := by
  rw [unblock, if_pos hstate, cancel, hsem]
  rfl

/-- Other threads keep their place on every waiting list. -/
lemma mem_unblock_waiting {other sem : Nat} (hne : other ≠ thread) :
    other ∈ (r.unblock thread).waiting sem ↔ other ∈ r.waiting sem := by
  rw [unblock]
  split
  · rw [insertReady, cancel]
    split
    · rfl
    · simp only [setWaiting, update_apply]
      split
      · subst sem
        exact mem_erase_of_ne hne
      · rfl
  · rfl

lemma wake_toCore (thread : Nat) :
    (r.wake thread).toCore = r.toCore.modifyThread thread (fun thr => { thr with
      timedOut := true
      timedOutDueToSignal := thr.signalIntr }) := by
  rw [wake, unblock_toCore]
  rfl

@[simp] lemma wake_ready (thread : Nat) : (r.wake thread).ready = r.ready ++ [thread] := by
  rw [wake, unblock_ready]
  rfl

@[simp] lemma wake_sleeping (thread : Nat) :
    (r.wake thread).sleeping = r.sleeping.erase thread := by
  rw [wake, unblock_sleeping]
  rfl

lemma wake_thread_of_ne {other : Nat} (hne : other ≠ thread) :
    (r.wake thread).thread other = r.thread other := by
  rw [wake_toCore]
  exact update_of_ne hne _ _

lemma wake_waiting_of_ne (hstate : (r.thread thread).state ≠ .waitingForSemaphoreWithTimeout) :
    (r.wake thread).waiting = r.waiting :=
  unblock_waiting_of_ne _ (by simpa [modifyThread, Core.modifyThread])

lemma wake_waiting_of_eq {sem : Nat}
    (hstate : (r.thread thread).state = .waitingForSemaphoreWithTimeout)
    (hsem : (r.thread thread).waitingOnSemaphore = some sem) :
    (r.wake thread).waiting = update r.waiting sem ((r.waiting sem).erase thread) :=
  unblock_waiting_of_eq _ (by simpa [modifyThread, Core.modifyThread])
    (by simpa [modifyThread, Core.modifyThread])

end

section

variable {r : Roster} {sem top : Nat} {rest : List Nat}

lemma release_unclaimed (hwaiting : r.waiting sem = []) :
    r.release sem = r.setCurrentCount sem (r.currentCount sem - 1) := by
  rw [release, hwaiting]

variable (hwaiting : r.waiting sem = top :: rest)

include hwaiting

lemma release_untimed (hstate : (r.thread top).state ≠ .waitingForSemaphoreWithTimeout) :
    r.release sem = (r.setWaiting sem rest).insertReady top := by
  rw [release, hwaiting]
  simp [setWaiting, unblock, hstate]

/-- A sleeper is taken off the sleep list as well. -/
lemma release_timed (hstate : (r.thread top).state = .waitingForSemaphoreWithTimeout)
    (hasleep : top ∈ r.sleeping) : r.release sem =
      (((r.setWaiting sem rest).deleteSleeping top).modifyThread top
        (fun thr => { thr with state := .ready })).insertReady top := by
  rw [release, hwaiting]
  simp [setWaiting, unblock, modifyThread, Core.modifyThread, hstate, hasleep]

/-- A release takes the first thread off its list and keeps the count. -/
lemma release_claimed : (r.release sem).waiting = update r.waiting sem rest ∧
      (r.release sem).currentCount = r.currentCount ∧ (r.release sem).ready ⊆ r.ready ++ [top] := by
  rw [release, hwaiting]
  dsimp only
  split_ifs with hstate hasleep
  · rw [unblock_waiting_of_ne _ (by simp [modifyThread, Core.modifyThread]),
      unblock_toCore, unblock_ready]
    exact ⟨rfl, rfl, fun _ hmem => hmem⟩
  · exact ⟨rfl, rfl, subset_append_left _ _⟩
  · rw [unblock_waiting_of_ne _ hstate, unblock_toCore, unblock_ready]
    exact ⟨rfl, rfl, fun _ hmem => hmem⟩

end

lemma Wakeable.wake {r : Roster} (hwake : r.Wakeable)
    (hnodup : r.sleeping.Nodup) (thread : Nat) : (r.wake thread).Wakeable := by
  intro other hother
  rw [wake_sleeping] at hother
  have hne : other ≠ thread := (hnodup.mem_erase_iff.mp hother).1
  obtain ⟨hready, hcancel⟩ := hwake other (mem_of_mem_erase hother)
  refine ⟨?_, ?_⟩
  · rw [wake_ready, mem_append, not_or]
    exact ⟨hready, by simpa using hne⟩
  · rw [Cancellable, r.wake_thread_of_ne hne]
    intro hstate
    obtain ⟨sem, hsem, hmem⟩ := hcancel hstate
    exact ⟨sem, hsem, (mem_unblock_waiting _ hne).mpr hmem⟩

/-- Waking the first sleeper that is due leaves the other due ones. -/
lemma due_wake {r : Roster} {time : Nat} {rest : List Nat} (hnodup : r.sleeping.Nodup)
    (hdue : r.due time = thread :: rest) : (r.wake thread).due time = rest := by
  have hkeep : ∀ other ∈ r.sleeping.erase thread,
      (r.wake thread).isDue time other = r.isDue time other := by
    intro other hother
    have hne := (hnodup.mem_erase_iff.mp hother).1
    rw [Core.isDue, Core.isDue, r.wake_thread_of_ne hne]
  have hfilter : (r.sleeping.erase thread).filter (r.isDue time) = rest := by
    rw [hnodup.erase_eq_filter, filter_comm]
    rw [due] at hdue
    have hrest := (hdue ▸ hnodup.filter (r.isDue time) : (thread :: rest).Nodup)
    rw [hdue, ← hrest.erase_eq_filter, erase_cons_head]
  rw [due, wake_sleeping, ← hfilter]
  exact filter_congr hkeep

end Roster

/-- One release is one round of the loop. -/
lemma releaseSemaphore_of_decrement {s s' : State} {sem : Nat} (hcount : 0 < s.currentCount sem)
    (hrun : decrementSemaphore s sem = .ok s') : releaseSemaphore s sem = .ok s' := by
  have hfuel : (s.currentCount sem).toNat + s.fuel =
      (s.currentCount sem).toNat + s.threadCount + 1 := rfl
  rw [releaseSemaphore, releaseSemaphoreEx, if_neg (by omega), if_pos hcount,
    hfuel, releaseLoop, hrun, ok_bind, if_neg (by simp), ok_bind]

/-- The kernel's lists hold the roster's threads, in order. -/
structure Represents (s : State) (r : Roster) : Prop where
  core : s.toCore = r.toCore
  ready : Holds s.nextReady s.readyList r.ready
  sleeping : Holds s.nextSleep s.sleepList r.sleeping
  waiting : ∀ sem, Holds s.nextSemaphore (s.waitingList sem) (r.waiting sem)
  ready_isThread : ∀ thread ∈ r.ready, r.IsThread thread
  sleeping_isThread : ∀ thread ∈ r.sleeping, r.IsThread thread
  waiting_isThread : ∀ sem, ∀ thread ∈ r.waiting sem, r.IsThread thread
  apart : ∀ sem sem' thread, thread ∈ r.waiting sem → thread ∈ r.waiting sem' → sem = sem'

lemma length_le_of_nodup {count : Nat} (hnodup : members.Nodup)
    (hmem : ∀ member ∈ members, 0 < member ∧ member ≤ count) : members.length ≤ count := by
  have hsub : members ⊆ range' 1 count := by
    intro member hin
    have hbounds := hmem member hin
    exact mem_range'_1.mpr (by omega)
  simpa using (hnodup.subperm hsub).length_le

lemma firstDue_of_chain {s : State} {time iter fuel : Nat} (hchain : Chain s.nextSleep iter members)
    (hfuel : members.length < fuel) :
    firstDue s time fuel iter = .ok ((members.filter (s.isDue time)).head?.getD 0) := by
  induction members generalizing iter fuel with
  | nil =>
    cases fuel with
    | zero => simp at hfuel
    | succ fuel => simp [firstDue, (show iter = 0 from hchain)]
  | cons head tail ih =>
    obtain ⟨rfl, hne, htail⟩ := hchain
    obtain ⟨fuel, rfl, hrest⟩ := exists_fuel hfuel
    rw [firstDue, if_neg hne, ih htail hrest, filter_cons]
    split <;> rfl

namespace Represents

variable {s : State} {r : Roster} {reason : ThreadState}

section

variable (hrep : Represents s r)

include hrep

lemma fuel_eq : s.fuel = r.threadCount + 1 := by
  rw [State.fuel, hrep.core]

lemma ready_lt_fuel : r.ready.length < s.fuel := by
  have := length_le_of_nodup hrep.ready.nodup hrep.ready_isThread
  rw [hrep.fuel_eq]
  omega

lemma sleeping_lt_fuel : r.sleeping.length < s.fuel := by
  have := length_le_of_nodup hrep.sleeping.nodup hrep.sleeping_isThread
  rw [hrep.fuel_eq]
  omega

lemma waiting_lt_fuel (sem : Nat) : (r.waiting sem).length < s.fuel := by
  have := length_le_of_nodup (hrep.waiting sem).nodup (hrep.waiting_isThread sem)
  rw [hrep.fuel_eq]
  omega

end

/-- A kernel in which nobody sleeps or waits. -/
lemma ofReady {order : List Nat} (hholds : Holds s.nextReady s.readyList order)
    (hthread : ∀ thread ∈ order, s.IsThread thread) (hsleeping : s.sleepList = threadListInit)
    (hwaiting : ∀ sem, s.waitingList sem = threadListInit) :
    Represents s ⟨s.toCore, order, [], fun _ => []⟩ where
  core := rfl
  ready := hholds
  sleeping := hsleeping ▸ ⟨rfl, rfl, nodup_nil⟩
  waiting sem := hwaiting sem ▸ ⟨rfl, rfl, nodup_nil⟩
  ready_isThread := hthread
  sleeping_isThread := by simp
  waiting_isThread := by simp
  apart := by simp

section

variable (hrep : Represents s r)
include hrep

/-- What happens to the fields outside the lists is the same on both sides. -/
lemma setCore {core : Core} (hcount : core.threadCount = r.threadCount) :
    Represents { s with toCore := core } { r with toCore := core } where
  __ := hrep
  core := rfl
  ready_isThread thread hmem := by
    have := hrep.ready_isThread thread hmem
    simp only [Core.IsThread, hcount] at this ⊢
    exact this
  sleeping_isThread thread hmem := by
    have := hrep.sleeping_isThread thread hmem
    simp only [Core.IsThread, hcount] at this ⊢
    exact this
  waiting_isThread sem thread hmem := by
    have := hrep.waiting_isThread sem thread hmem
    simp only [Core.IsThread, hcount] at this ⊢
    exact this

lemma modifyThread (thread : Nat) (change : Thread → Thread) :
    Represents (s.modifyThread thread change) (r.modifyThread thread change) := by
  rw [State.modifyThread, hrep.core]
  exact hrep.setCore rfl

lemma setCurrentCount (sem : Nat) (count : Int) :
    Represents (s.setCurrentCount sem count) (r.setCurrentCount sem count) := by
  rw [State.setCurrentCount, hrep.core]
  exact hrep.setCore rfl

lemma block (hready : reason ≠ .ready) (hrunning : reason ≠ .running)
    (hstate : (r.thread r.currentThread).state = .running) :
    ∃ s', blockThread s reason = .ok s' ∧ Represents s' (r.block reason) := by
  refine ⟨{ s with toCore := r.toCore.block reason }, ?_, hrep.setCore rfl⟩
  rw [blockThread, if_neg (by simp [hready, hrunning]), hrep.core, if_neg (by simp [hstate])]

end

variable {thread sem : Nat}

variable (hrep : Represents s r)

include hrep

lemma insertReady (hthread : r.IsThread thread) (hmem : thread ∉ r.ready) :
    ∃ s', Threads.insertReady s thread = .ok s' ∧ Represents s' (r.insertReady thread) := by
  obtain ⟨next, list, hinsert, hholds, _⟩ :=
    hrep.ready.insert hrep.ready_lt_fuel (Nat.pos_iff_ne_zero.mp hthread.1) hmem
  refine ⟨{ s with nextReady := next, readyList := list }, ?_, ?_⟩
  · rw [Threads.insertReady, hinsert, ok_bind]
  · refine { hrep with ready := hholds, ready_isThread := ?_ }
    intro other hother
    simp only [Roster.insertReady, mem_append, mem_singleton] at hother
    rcases hother with hother | rfl
    · exact hrep.ready_isThread other hother
    · exact hthread

lemma queueForSleep (hthread : r.IsThread thread) (hmem : thread ∉ r.sleeping) :
    ∃ s', Threads.queueForSleep s thread = .ok s' ∧ Represents s' (r.queueForSleep thread) := by
  have hmod := hrep.modifyThread thread (fun thr => { thr with timedOut := false })
  obtain ⟨next, list, hinsert, hholds, _⟩ :=
    hmod.sleeping.insert hmod.sleeping_lt_fuel (Nat.pos_iff_ne_zero.mp hthread.1) hmem
  refine ⟨{ s.modifyThread thread (fun thr => { thr with timedOut := false })
    with nextSleep := next, sleepList := list }, ?_, ?_⟩
  · rw [Threads.queueForSleep]
    rw [hinsert, ok_bind]
  · refine { hmod with sleeping := hholds, sleeping_isThread := ?_ }
    intro other hother
    simp only [Roster.queueForSleep, mem_append, mem_singleton] at hother
    rcases hother with hother | rfl
    · exact hrep.sleeping_isThread other hother
    · exact hthread

lemma deleteSleeping (hmem : thread ∈ r.sleeping) :
    ∃ s', Threads.deleteSleeping s thread = .ok s' ∧ Represents s' (r.deleteSleeping thread) := by
  obtain ⟨next, list, hdelete, hholds, _⟩ := hrep.sleeping.delete hrep.sleeping_lt_fuel hmem
  refine ⟨{ s with nextSleep := next, sleepList := list }, ?_, ?_⟩
  · rw [Threads.deleteSleeping, hdelete, ok_bind]
  · refine { hrep with sleeping := hholds, sleeping_isThread := ?_ }
    intro other hother
    exact hrep.sleeping_isThread other (mem_of_mem_erase hother)

/-- Changing one waiting list leaves the others alone. -/
lemma setWaiting {next : Nat → Nat} {list : ThreadList} (hholds : Holds next list members)
    (hframe : ∀ other, other ∉ r.waiting sem → other ∉ members → next other = s.nextSemaphore other)
    (hthread : ∀ thread ∈ members, r.IsThread thread)
    (hapart : ∀ sem', sem' ≠ sem → ∀ thread ∈ members, thread ∉ r.waiting sem') :
    Represents { s with
        nextSemaphore := next
        waitingList := update s.waitingList sem list }
      (r.setWaiting sem members) := by
  refine { hrep with waiting := ?_, waiting_isThread := ?_, apart := ?_ }
  · intro sem'
    by_cases hsem : sem' = sem
    · subst hsem
      simpa using hholds
    · simp only [r.setWaiting_of_ne members hsem, update_of_ne hsem]
      refine (hrep.waiting sem').congr ?_
      intro member hmem
      refine hframe member ?_ ?_
      · intro hin
        exact hsem (hrep.apart sem' sem member hmem hin)
      · intro hin
        exact hapart sem' hsem member hin hmem
  · intro sem' thread hmem
    by_cases hsem : sem' = sem
    · subst hsem
      rw [r.setWaiting_self] at hmem
      exact hthread thread hmem
    · rw [r.setWaiting_of_ne members hsem] at hmem
      exact hrep.waiting_isThread sem' thread hmem
  · intro sem₁ sem₂ thread hmem₁ hmem₂
    simp only [Roster.setWaiting, update_apply] at hmem₁ hmem₂
    split at hmem₁ <;> split at hmem₂
    · simp_all
    · exact absurd hmem₂ (hapart sem₂ ‹_› thread hmem₁)
    · exact absurd hmem₁ (hapart sem₁ ‹_› thread hmem₂)
    · exact hrep.apart sem₁ sem₂ thread hmem₁ hmem₂

lemma wait (sem thread : Nat) (hthread : r.IsThread thread)
    (hmem : ∀ sem', thread ∉ r.waiting sem') :
    ∃ s', insertWaiting s sem thread = .ok s' ∧ Represents s' (r.wait sem thread) := by
  obtain ⟨next, list, hinsert, hholds, hframe⟩ :=
    (hrep.waiting sem).insert (hrep.waiting_lt_fuel sem)
      (Nat.pos_iff_ne_zero.mp hthread.1) (hmem sem)
  refine ⟨_, ?_, hrep.setWaiting hholds ?_ ?_ ?_⟩
  · rw [insertWaiting, hinsert, ok_bind]
  · intro other hold hnew
    exact hframe other hold (fun heq => hnew (by simp [heq]))
  · intro other hother
    simp only [mem_append, mem_singleton] at hother
    rcases hother with hother | rfl
    · exact hrep.waiting_isThread sem other hother
    · exact hthread
  · intro sem' hsem other hother hin
    simp only [mem_append, mem_singleton] at hother
    rcases hother with hother | rfl
    · exact hsem (hrep.apart sem' sem other hin hother)
    · exact hmem sem' hin

lemma cancel (hsem : (r.thread thread).waitingOnSemaphore = some sem)
    (hmem : thread ∈ r.waiting sem) :
    ∃ s', cancelSemaphoreOfThread s thread = .ok s' ∧ Represents s' (r.cancel thread) := by
  obtain ⟨next, list, hdelete, hholds, hframe⟩ :=
    (hrep.waiting sem).delete (hrep.waiting_lt_fuel sem) hmem
  have hcontains : threadListContains s.fuel s.nextSemaphore
      (s.waitingList sem) thread = .ok true := by
    rw [(hrep.waiting sem).contains (hrep.waiting_lt_fuel sem)]
    simp [hmem]
  have hfield : (s.thread thread).waitingOnSemaphore = some sem := by rw [hrep.core, hsem]
  have hcancel : r.cancel thread = r.setWaiting sem ((r.waiting sem).erase thread) := by
    rw [Roster.cancel, hsem]
  rw [hcancel]
  refine ⟨_, ?_, hrep.setWaiting hholds ?_ ?_ ?_⟩
  · rw [cancelSemaphoreOfThread, hfield]
    dsimp only
    rw [hcontains, ok_bind, if_pos rfl, hdelete, ok_bind]
  · intro other hold _
    exact hframe other hold
  · intro other hother
    exact hrep.waiting_isThread sem other (mem_of_mem_erase hother)
  · intro sem' hne other hother hin
    exact hne (hrep.apart sem' sem other hin (mem_of_mem_erase hother))

lemma unblock (hthread : r.IsThread thread) (hready : thread ∉ r.ready)
    (hcancel : r.Cancellable thread) :
    ∃ s', unblockThread s thread = .ok s' ∧ Represents s' (r.unblock thread) := by
  rw [unblockThread, hrep.core, Roster.unblock]
  by_cases hstate : (r.thread thread).state = .waitingForSemaphoreWithTimeout
  · obtain ⟨sem, hsem, hmem⟩ := hcancel hstate
    obtain ⟨s₁, hrun, hrep₁⟩ := hrep.cancel hsem hmem
    rw [if_pos hstate, if_pos hstate, hrun]
    exact hrep₁.insertReady (by rw [r.cancel_toCore]; exact hthread)
      (by rw [r.cancel_ready]; exact hready)
  · rw [if_neg hstate, if_neg hstate]
    exact hrep.insertReady hthread hready

lemma sleepAs (hthread : r.IsThread r.currentThread)
    (hstate : (r.thread r.currentThread).state = .running)
    (hsleeping : r.currentThread ∉ r.sleeping) (hready : reason ≠ .ready)
    (hrunning : reason ≠ .running) : ∃ s', (do
        let s ← Threads.queueForSleep s r.currentThread
        blockThread s reason) = .ok s' ∧
      Represents s' ((r.queueForSleep r.currentThread).block reason) := by
  obtain ⟨s₁, hrun, hrep₁⟩ := hrep.queueForSleep hthread hsleeping
  rw [hrun]
  refine hrep₁.block hready hrunning ?_
  simp [Roster.queueForSleep, Roster.modifyThread, Core.modifyThread, hstate]

lemma acquire (hfree : r.Free) (sem : Nat) (timeoutMs : Int) :
    ∃ s', acquireSemaphore s sem timeoutMs = .ok s' ∧ Represents s' (r.acquire sem timeoutMs) := by
  have hthread : s.currentThread = r.currentThread := by rw [hrep.core]
  have hrep₁ := hrep.modifyThread r.currentThread (fun thr => { thr with timedOut := false })
  have hfree₁ := hfree.modify (fun thr => { thr with timedOut := false }) (fun _ => rfl)
  rw [acquireSemaphore, Roster.acquire]
  dsimp only
  rw [hthread, hrep₁.core]
  split
  · exact ⟨_, rfl, hrep₁.setCurrentCount sem _⟩
  · have hrep₂ := hrep₁.modifyThread r.currentThread
      (fun thr => { thr with waitingOnSemaphore := some sem })
    have hfree₂ := hfree₁.modify
      (fun thr => { thr with waitingOnSemaphore := some sem }) (fun _ => rfl)
    split
    · exact ⟨_, rfl, hrep₂.modifyThread r.currentThread _⟩
    · obtain ⟨s₃, hrun, hrep₃⟩ := hrep₂.wait sem r.currentThread hfree₂.isThread hfree₂.waiting
      split
      · rw [hrun, ok_bind]
        exact hrep₃.block (by decide) (by decide) hfree₂.running
      · rw [hrun, ok_bind, hrep₃.core]
        have hfree₃ := hfree₂.modify (fun thr => { thr with
          sleepExpiry := (r.wait sem r.currentThread).expiryAfter timeoutMs })
          (fun _ => rfl)
        exact (hrep₃.modifyThread r.currentThread _).sleepAs hfree₃.isThread
          hfree₃.running hfree₃.sleeping (by decide) (by decide)

lemma tryDequeueForSleep_of_mem (hmem : thread ∈ r.sleeping) :
    ∃ s', tryDequeueForSleep s thread = .ok (true, s') ∧
    Represents s' (r.deleteSleeping thread) := by
  obtain ⟨s', hdelete, hrep'⟩ := hrep.deleteSleeping hmem
  refine ⟨s', ?_, hrep'⟩
  rw [tryDequeueForSleep, hrep.sleeping.contains hrep.sleeping_lt_fuel, ok_bind,
    if_pos (by simpa using hmem), hdelete, ok_bind]

lemma tryDequeueForSleep_of_notMem (hmem : thread ∉ r.sleeping) :
    tryDequeueForSleep s thread = .ok (false, s) := by
  rw [tryDequeueForSleep, hrep.sleeping.contains hrep.sleeping_lt_fuel, ok_bind,
    if_neg (by simpa using hmem)]

/-- Taking the first thread off a waiting list. -/
lemma takeWaiting {top : Nat} {rest : List Nat} (hwaiting : r.waiting sem = top :: rest) :
    ∃ list, threadListDeleteTop s.nextSemaphore (s.waitingList sem) = .ok (top, list) ∧ Represents
    { s with waitingList := update s.waitingList sem list } (r.setWaiting sem rest) := by
  obtain ⟨list, hdelete, hholds⟩ := (hwaiting ▸ hrep.waiting sem).deleteTop
  have hrest : ∀ thread ∈ rest, thread ∈ r.waiting sem := by
    intro thread hmem
    rw [hwaiting]
    exact mem_cons_of_mem top hmem
  refine ⟨list, hdelete, hrep.setWaiting hholds (fun _ _ _ => rfl) ?_ ?_⟩
  · intro thread hmem
    exact hrep.waiting_isThread sem thread (hrest thread hmem)
  · intro sem' hne thread hmem hin
    exact hne (hrep.apart sem' sem thread hin (hrest thread hmem))

lemma decrement (hcount : r.currentCount sem ≠ 0)
    (hready : ∀ thread ∈ r.waiting sem, thread ∉ r.ready) :
    ∃ s', decrementSemaphore s sem = .ok s' ∧ Represents s' (r.release sem) := by
  have hhead := (hrep.waiting sem).chain.node_eq_zero_iff
  rw [decrementSemaphore, Roster.release]
  cases hwaiting : r.waiting sem with
  | nil =>
    rw [if_pos (hhead.mpr hwaiting), hrep.core, if_neg hcount]
    exact ⟨_, rfl, hrep.setCurrentCount sem _⟩
  | cons top rest =>
    obtain ⟨list, hdelete, hrep₁⟩ := hrep.takeWaiting hwaiting
    have hmem : top ∈ r.waiting sem := by simp [hwaiting]
    have hthread := hrep.waiting_isThread sem top hmem
    have hnot := hready top hmem
    rw [if_neg (by rw [hhead, hwaiting]; simp), hdelete, ok_bind]
    dsimp only
    by_cases hstate : (r.thread top).state = .waitingForSemaphoreWithTimeout
    · have hfield : (s.thread top).state = .waitingForSemaphoreWithTimeout := by
        rw [hrep.core]
        exact hstate
      rw [if_pos hfield, if_pos (show ((r.setWaiting sem rest).thread top).state = _ from hstate)]
      by_cases hsleeping : top ∈ (r.setWaiting sem rest).sleeping
      · obtain ⟨s₂, hrun, hrep₂⟩ := hrep₁.tryDequeueForSleep_of_mem hsleeping
        rw [hrun, ok_bind, if_pos hsleeping]
        refine (hrep₂.modifyThread top _).unblock hthread hnot ?_
        simp [Roster.Cancellable, Roster.modifyThread, Core.modifyThread]
      · rw [hrep₁.tryDequeueForSleep_of_notMem hsleeping, ok_bind, if_neg hsleeping]
        exact ⟨_, rfl, hrep₁⟩
    · have hfield : ¬ (s.thread top).state = .waitingForSemaphoreWithTimeout := by
        rw [hrep.core]
        exact hstate
      rw [if_neg hfield, if_neg (show ¬ ((r.setWaiting sem rest).thread top).state = _ from hstate)]
      exact hrep₁.unblock hthread hnot (fun htimed => absurd htimed hstate)

lemma release (hcount : 0 < r.currentCount sem)
    (hready : ∀ thread ∈ r.waiting sem, thread ∉ r.ready) :
    ∃ s', releaseSemaphore s sem = .ok s' ∧ Represents s' (r.release sem) := by
  obtain ⟨s', hrun, hrep'⟩ := hrep.decrement (by omega) hready
  exact ⟨s', releaseSemaphore_of_decrement (by rwa [hrep.core]) hrun, hrep'⟩

lemma wake (hmem : thread ∈ r.sleeping) (hready : thread ∉ r.ready)
    (hcancel : r.Cancellable thread) :
    ∃ s', wakeSleeper s thread = .ok s' ∧ Represents s' (r.wake thread) := by
  obtain ⟨s₁, hrun, hrep₁⟩ := hrep.deleteSleeping hmem
  rw [wakeSleeper, hrun]
  refine (hrep₁.modifyThread thread _).unblock (hrep.sleeping_isThread thread hmem) hready ?_
  simpa [Roster.Cancellable, Roster.modifyThread, Core.modifyThread,
    Roster.deleteSleeping] using hcancel

lemma wakeLoop {time fuel : Nat} (hwake : r.Wakeable) (hfuel : (r.due time).length < fuel) :
    ∃ s', Threads.wakeLoop time fuel s = .ok s' ∧
    Represents s' ((r.due time).foldl Roster.wake r) := by
  induction fuel generalizing s r with
  | zero => simp at hfuel
  | succ fuel ih =>
    have hfirst : firstDue s time s.fuel s.sleepList.head = .ok ((r.due time).head?.getD 0) := by
      rw [firstDue_of_chain hrep.sleeping.chain hrep.sleeping_lt_fuel, hrep.core, Roster.due]
    rw [Threads.wakeLoop, hfirst, ok_bind]
    cases hdue : r.due time with
    | nil => exact ⟨s, rfl, hrep⟩
    | cons thread rest =>
      have hmem : thread ∈ r.sleeping := by
        have hin : thread ∈ r.due time := by simp [hdue]
        exact (mem_filter.mp hin).1
      have hne : thread ≠ 0 := hrep.sleeping.chain.ne_zero_of_mem thread hmem
      obtain ⟨hready, hcancel⟩ := hwake thread hmem
      obtain ⟨s₁, hrun, hrep₁⟩ := hrep.wake hmem hready hcancel
      have hrest := Roster.due_wake hrep.sleeping.nodup hdue
      rw [head?_cons, Option.getD_some, if_neg hne, hrun, ← hrest]
      refine ih hrep₁ (hwake.wake hrep.sleeping.nodup thread) ?_
      rw [hdue, length_cons] at hfuel
      rw [hrest]
      omega

lemma wakeups (hwake : r.Wakeable) :
    ∃ s', handleSleepWakeups s = .ok s' ∧ Represents s' r.wakeups := by
  have hfuel : (r.due r.systemTime).length < s.fuel :=
    lt_of_le_of_lt (length_filter_le _ _) hrep.sleeping_lt_fuel
  rw [handleSleepWakeups, hrep.core]
  exact hrep.wakeLoop hwake hfuel

lemma sleepUntil (hfree : r.Free) (systemTimeNs : Nat) :
    ∃ s', Threads.sleepUntil s systemTimeNs = .ok s' ∧
    Represents s' (r.sleepUntil systemTimeNs) := by
  have hthread : s.currentThread = r.currentThread := by rw [hrep.core]
  have hrep₁ := hrep.modifyThread r.currentThread
    (fun thr => { thr with sleepExpiry := systemTimeNs })
  have hfree₁ := hfree.modify (fun thr => { thr with sleepExpiry := systemTimeNs }) (fun _ => rfl)
  rw [Threads.sleepUntil, Roster.sleepUntil, hrep.core]
  split
  · exact ⟨s, rfl, hrep⟩
  · exact hrep₁.sleepAs hfree₁.isThread hfree₁.running hfree₁.sleeping (by decide) (by decide)

lemma setPostponed (postponed : Bool) :
    Represents { s with postponedTaskSwitch := postponed } (r.setPostponed postponed) := by
  rw [hrep.core]
  exact hrep.setCore rfl

lemma switchTo {new : Nat} (hready : r.ready.head? = some new) :
    ∃ s', switchToNewTask s new = .ok s' ∧ Represents s' (r.switchTo new) := by
  have hrep₁ := hrep.modifyThread new (fun thr => { thr with state := .running })
  have hcons : r.ready = new :: r.ready.tail := (cons_head?_tail hready).symm
  obtain ⟨list, hdelete, hholds⟩ :=
    (show Holds _ _ (new :: r.ready.tail) from hcons ▸ hrep₁.ready).deleteTop
  refine ⟨_, by rw [switchToNewTask]; dsimp only; rw [hdelete, ok_bind], ?_⟩
  refine { hrep₁ with
    core := ?_
    ready := hholds
    ready_isThread := ?_ }
  · simp only [hrep₁.core]
    rfl
  · intro thread hmem
    exact hrep₁.ready_isThread thread (mem_of_mem_tail hmem)

lemma scheduleWithLockHeld (hthread : r.IsThread r.currentThread)
    (hcurrent : (r.thread r.currentThread).state = .running → r.currentThread ∉ r.ready) :
    ∃ s', Threads.scheduleWithLockHeld s = .ok s' ∧ Represents s' r.scheduleWithLockHeld := by
  rw [Threads.scheduleWithLockHeld, Roster.scheduleWithLockHeld,
    hrep.ready.chain.node_eq, hrep.core]
  cases hnew : r.ready.head? with
  | none => exact ⟨s, if_pos (.inr rfl), hrep⟩
  | some new =>
    have hne : new ≠ 0 := hrep.ready.chain.ne_zero_of_mem new (mem_of_mem_head? hnew)
    rw [Option.getD_some]
    dsimp only
    by_cases hsame : new = r.currentThread
    · rw [if_pos (.inl hsame), if_pos hsame]
      exact ⟨s, rfl, hrep⟩
    · rw [if_neg (not_or.mpr ⟨hsame, hne⟩)]
      split
      · rename_i hstate
        obtain ⟨s₁, hrun, hrep₁⟩ := hrep.insertReady hthread (hcurrent hstate)
        rw [hrun]
        refine hrep₁.switchTo ?_
        rw [Roster.insertReady, head?_append, hnew, Option.some_or]
      · exact hrep.switchTo hnew

lemma schedule (hthread : r.IsThread r.currentThread)
    (hcurrent : (r.thread r.currentThread).state = .running → r.currentThread ∉ r.ready) :
    ∃ s', Threads.schedule s = .ok s' ∧ Represents s' r.schedule :=
  (hrep.setPostponed false).scheduleWithLockHeld hthread hcurrent

end Represents

end Merlon.Threads
