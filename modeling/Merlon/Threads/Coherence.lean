/-
Every thread is in one place: current, ready, or blocked where a wake-up
finds it.  The places survive every call of the scheduler as long as no
wake-up is for the current thread or for a thread that is ready already.
-/
import Merlon.Threads.Signals

namespace Merlon.Threads

open List

open Function (update update_self update_apply update_of_ne)

namespace Roster

variable {r r' : Roster} {thread : Nat} {sem : Nat}

/-- The thread neither sleeps nor waits for a semaphore. -/
def Unlisted (r : Roster) (thread : Nat) : Prop :=
  thread ∉ r.sleeping ∧ ∀ sem, thread ∉ r.waiting sem

/-- The thread is on the list of the semaphore it waits for. -/
def WaitsFor (r : Roster) (thread : Nat) : Prop :=
  ∃ sem, (r.thread thread).waitingOnSemaphore = some sem ∧ thread ∈ r.waiting sem

/-- A thread that is not ready is on the lists its state says. -/
def Parked (r : Roster) (thread : Nat) : Prop :=
  match (r.thread thread).state with
  | .running => thread = r.currentThread ∧ r.Unlisted thread
  | .ready => False
  | .sleeping => thread ∈ r.sleeping ∧ ∀ sem, thread ∉ r.waiting sem
  | .waitingForSemaphore => thread ∉ r.sleeping ∧ r.WaitsFor thread
  | .waitingForSemaphoreWithTimeout => thread ∈ r.sleeping ∧ r.WaitsFor thread
  | .terminated | .stopped | .waitingForSignal => r.Unlisted thread

def InPlace (r : Roster) (thread : Nat) : Prop :=
  (thread ∈ r.ready ∧ thread ≠ r.currentThread ∧ r.Unlisted thread) ∨
    (thread ∉ r.ready ∧ r.Parked thread)

structure Arranged (r : Roster) : Prop where
  current : r.IsThread r.currentThread
  inPlace : ∀ thread, r.IsThread thread → r.InPlace thread

/-- A thread leaves the ready list only to run. -/
def Keeps (r r' : Roster) : Prop :=
  ∀ thread ∈ r.ready, thread ∈ r'.ready ∨ thread = r'.currentThread

lemma Keeps.of_subset (hsubset : r.ready ⊆ r'.ready) : r.Keeps r' :=
  fun _ hmem => .inl (hsubset hmem)

lemma Unlisted.unmoved (h : r.Unlisted thread) (hsame : Unmoved r r' thread) : r'.Unlisted thread :=
  ⟨hsame.sleeping.not.mpr h.1, fun sem => (hsame.waiting sem).not.mpr (h.2 sem)⟩

lemma WaitsFor.unmoved (h : r.WaitsFor thread)
    (hsame : Unmoved r r' thread) : r'.WaitsFor thread := by
  obtain ⟨sem, hsem, hmem⟩ := h
  exact ⟨sem, hsame.waitsOn.trans hsem, (hsame.waiting sem).mpr hmem⟩

lemma Parked.unmoved (h : r.Parked thread) (hsame : Unmoved r r' thread) : r'.Parked thread := by
  unfold Parked at h ⊢
  rw [hsame.state]
  cases hstate : (r.thread thread).state <;> rw [hstate] at h
  case running => exact ⟨hsame.current h.1 hstate, h.2.unmoved hsame⟩
  case ready => exact h
  case sleeping =>
    exact ⟨hsame.sleeping.mpr h.1, fun sem => (hsame.waiting sem).not.mpr (h.2 sem)⟩
  case waitingForSemaphore =>
    exact ⟨hsame.sleeping.not.mpr h.1, h.2.unmoved hsame⟩
  case waitingForSemaphoreWithTimeout =>
    exact ⟨hsame.sleeping.mpr h.1, h.2.unmoved hsame⟩
  all_goals exact h.unmoved hsame

lemma InPlace.unmoved (h : r.InPlace thread) (hsame : Unmoved r r' thread)
    (hcurrent : thread ∈ r.ready → thread ≠ r'.currentThread) : r'.InPlace thread := by
  rcases h with ⟨hready, _, hunlisted⟩ | ⟨hready, hparked⟩
  · exact .inl ⟨hsame.ready.mpr hready, hcurrent hready, hunlisted.unmoved hsame⟩
  · exact .inr ⟨hsame.ready.not.mpr hready, hparked.unmoved hsame⟩

lemma InPlace.parked_of_sleeping (h : r.InPlace thread)
    (hmem : thread ∈ r.sleeping) : thread ∉ r.ready ∧ r.Parked thread :=
  h.resolve_left fun ⟨_, _, hunlisted⟩ => hunlisted.1 hmem

lemma InPlace.parked_of_waiting (h : r.InPlace thread)
    (hmem : thread ∈ r.waiting sem) : thread ∉ r.ready ∧ r.Parked thread :=
  h.resolve_left fun ⟨_, _, hunlisted⟩ => hunlisted.2 sem hmem

/-- A sleeper sleeps for its own sake or waits with a timeout. -/
lemma Parked.sleeper (h : r.Parked thread) (hmem : thread ∈ r.sleeping) :
    ((r.thread thread).state = .sleeping ∧ ∀ sem, thread ∉ r.waiting sem) ∨
    ((r.thread thread).state = .waitingForSemaphoreWithTimeout ∧ r.WaitsFor thread) := by
  unfold Parked at h
  cases hstate : (r.thread thread).state <;> simp only [hstate] at h
  case sleeping => exact .inl ⟨rfl, h.2⟩
  case waitingForSemaphoreWithTimeout => exact .inr ⟨rfl, h.2⟩
  case running => exact absurd hmem h.2.1
  all_goals exact absurd hmem h.1

/-- A thread on a waiting list waits, with a timeout if it also sleeps. -/
lemma Parked.waiter (h : r.Parked thread) (hmem : thread ∈ r.waiting sem) :
    ((r.thread thread).state = .waitingForSemaphore ∧ thread ∉ r.sleeping) ∨
    ((r.thread thread).state = .waitingForSemaphoreWithTimeout ∧ thread ∈ r.sleeping) := by
  unfold Parked at h
  cases hstate : (r.thread thread).state <;> simp only [hstate] at h
  case waitingForSemaphore => exact .inl ⟨rfl, h.1⟩
  case waitingForSemaphoreWithTimeout => exact .inr ⟨rfl, h.1⟩
  case running => exact absurd hmem (h.2.2 sem)
  all_goals exact absurd hmem (h.2 sem)

namespace Arranged

section

variable (h : r.Arranged)
include h

lemma current_notMem : r.currentThread ∉ r.ready := by
  rcases h.inPlace _ h.current with ⟨_, hne, _⟩ | ⟨hready, _⟩
  · exact absurd rfl hne
  · exact hready

lemma free (hstate : (r.thread r.currentThread).state = .running) : r.Free := by
  have hparked := ((h.inPlace _ h.current).resolve_left fun hready => hready.2.1 rfl).2
  unfold Parked at hparked
  rw [hstate] at hparked
  exact ⟨h.current, hstate, hparked.2.1, hparked.2.2⟩

lemma wakeable (hthread : ∀ thread ∈ r.sleeping, r.IsThread thread) : r.Wakeable := by
  intro thread hmem
  obtain ⟨hready, hparked⟩ := (h.inPlace thread (hthread thread hmem)).parked_of_sleeping hmem
  refine ⟨hready, fun htimed => ?_⟩
  rcases hparked.sleeper hmem with ⟨hstate, _⟩ | ⟨_, hwaits⟩
  · rw [hstate] at htimed
    cases htimed
  · exact hwaits

/-- A step that moves one thread at most. -/
lemma move (thread : Nat) (hcount : r'.threadCount = r.threadCount)
    (hcurrent : r'.currentThread = r.currentThread)
    (hothers : ∀ other, other ≠ thread → Unmoved r r' other)
    (hplace : r.IsThread thread → r'.InPlace thread) : r'.Arranged where
  current := by
    rw [Core.IsThread, hcount, hcurrent]
    exact h.current
  inPlace other hother := by
    rw [Core.IsThread, hcount] at hother
    by_cases hsame : other = thread
    · subst hsame
      exact hplace hother
    · refine (h.inPlace other hother).unmoved (hothers other hsame) ?_
      rintro hready rfl
      exact h.current_notMem (hcurrent ▸ hready)

end

section

variable (h : r.Arranged)

include h

lemma still (hcount : r'.threadCount = r.threadCount)
    (hcurrent : r'.currentThread = r.currentThread)
    (hall : ∀ other, Unmoved r r' other) : r'.Arranged :=
  h.move r.currentThread hcount hcurrent (fun other _ => hall other)
    fun hthread => (h.inPlace _ hthread).unmoved (hall _) fun hready =>
      absurd hready h.current_notMem

/-- A blocked thread becomes ready and leaves the lists. -/
lemma makeReady (hne : thread ≠ r.currentThread) (hcount : r'.threadCount = r.threadCount)
    (hcurrent : r'.currentThread = r.currentThread) (hready : r'.ready = r.ready ++ [thread])
    (hothers : ∀ other, other ≠ thread → Unmoved r r' other)
    (hunlisted : r'.Unlisted thread) : r'.Arranged :=
  h.move thread hcount hcurrent hothers fun _ => .inl ⟨by simp [hready], hcurrent ▸ hne, hunlisted⟩

/-- The current thread blocks for a reason that has no list. -/
lemma block {reason : ThreadState} (hstate : (r.thread r.currentThread).state = .running)
    (hreason : reason = .terminated ∨ reason = .stopped ∨ reason = .waitingForSignal) :
    (r.block reason).Arranged := by
  have hfree := h.free hstate
  refine h.move r.currentThread rfl rfl ?_ fun _ => .inr ⟨h.current_notMem, ?_⟩
  · intro other hne
    refine .of_fields ?_ rfl Iff.rfl Iff.rfl fun _ => Iff.rfl
    exact update_of_ne hne _ _
  · have hself : ((r.block reason).thread r.currentThread).state = reason := by
      simp [Roster.block, Core.block, Core.modifyThread]
    unfold Parked
    rw [hself]
    rcases hreason with rfl | rfl | rfl <;> exact ⟨hfree.sleeping, hfree.waiting⟩

lemma sleepUntil (systemTimeNs : Nat) (hstate : (r.thread r.currentThread).state = .running) :
    (r.sleepUntil systemTimeNs).Arranged := by
  have hfree := h.free hstate
  rw [Roster.sleepUntil]
  split
  · exact h
  · refine h.move r.currentThread rfl rfl ?_ fun _ => .inr ⟨h.current_notMem, ?_⟩
    · intro other hne
      refine .of_fields ?_ rfl Iff.rfl ?_ fun _ => Iff.rfl
      · simp [Roster.block, Core.block, Roster.queueForSleep,
          Roster.modifyThread, Core.modifyThread, hne]
      · simp [Roster.block, Roster.queueForSleep, Roster.modifyThread, hne]
    · have hself : (((r.modifyThread r.currentThread
          (fun thr => { thr with sleepExpiry := systemTimeNs })).queueForSleep
            r.currentThread).block .sleeping).thread r.currentThread =
          { r.thread r.currentThread with
            sleepExpiry := systemTimeNs
            timedOut := false
            state := .sleeping } := by
        simp [Roster.block, Core.block, Roster.queueForSleep,
          Roster.modifyThread, Core.modifyThread]
      unfold Parked
      rw [hself]
      exact ⟨by simp [Roster.block, Roster.queueForSleep], hfree.waiting⟩

section

variable (hstate : (r.thread r.currentThread).state = .running)

include hstate

/-- The current thread changes its own fields and stays running. -/
lemma keepRunning (hcount : r'.threadCount = r.threadCount)
    (hcurrent : r'.currentThread = r.currentThread)
    (hothers : ∀ other, other ≠ r.currentThread → r'.thread other = r.thread other)
    (hself : (r'.thread r.currentThread).state = .running) (hready : r'.ready = r.ready)
    (hsleeping : r'.sleeping = r.sleeping) (hwaiting : r'.waiting = r.waiting) : r'.Arranged := by
  have hfree := h.free hstate
  refine h.move r.currentThread hcount hcurrent ?_ fun _ => .inr ⟨?_, ?_⟩
  · intro other hne
    exact .of_fields (hothers other hne) hcurrent (by rw [hready])
      (by rw [hsleeping]) (by simp [hwaiting])
  · rw [hready]
    exact h.current_notMem
  · unfold Parked
    rw [hself]
    refine ⟨hcurrent.symm, ?_, ?_⟩
    · rw [hsleeping]
      exact hfree.sleeping
    · rw [hwaiting]
      exact hfree.waiting

/-- The current thread queues up for a semaphore, with or without a
timeout. -/
lemma waitFor (thr : Thread) (hsem : thr.waitingOnSemaphore = some sem)
    (hcount : r'.threadCount = r.threadCount) (hcurrent : r'.currentThread = r.currentThread)
    (hthread : r'.thread = update r.thread r.currentThread thr)
    (hready : r'.ready = r.ready) (hwaiting : r'.waiting = update r.waiting sem
      (r.waiting sem ++ [r.currentThread]))
    (htimed : (thr.state = .waitingForSemaphore ∧ r'.sleeping = r.sleeping) ∨
      (thr.state = .waitingForSemaphoreWithTimeout ∧
        r'.sleeping = r.sleeping ++ [r.currentThread])) : r'.Arranged := by
  have hfree := h.free hstate
  have hself : r'.thread r.currentThread = thr := by rw [hthread, update_self]
  have hwaits : r'.WaitsFor r.currentThread := by
    refine ⟨sem, by rw [hself, hsem], ?_⟩
    rw [hwaiting]
    simp
  refine h.move r.currentThread hcount hcurrent ?_ fun _ => .inr ⟨?_, ?_⟩
  · intro other hne
    refine .of_fields ?_ hcurrent (by rw [hready]) ?_ ?_
    · rw [hthread, update_of_ne hne]
    · rcases htimed with ⟨_, hsleeping⟩ | ⟨_, hsleeping⟩ <;> rw [hsleeping]
      simp [hne]
    · intro sem'
      rw [hwaiting, update_apply]
      split
      · subst sem'
        simp [hne]
      · rfl
  · rw [hready]
    exact h.current_notMem
  · unfold Parked
    rw [hself]
    rcases htimed with ⟨hthr, hsleeping⟩ | ⟨hthr, hsleeping⟩ <;> rw [hthr]
    · exact ⟨hsleeping ▸ hfree.sleeping, hwaits⟩
    · exact ⟨by simp [hsleeping], hwaits⟩

lemma acquire (sem : Nat) (timeoutMs : Int) : (r.acquire sem timeoutMs).Arranged := by
  have hupdate : ∀ thr other, other ≠ r.currentThread →
      update r.thread r.currentThread thr other = r.thread other :=
    fun thr other hne => update_of_ne hne thr r.thread
  rw [Roster.acquire]
  split
  · refine h.keepRunning hstate rfl rfl (hupdate _) ?_ rfl rfl rfl
    simp [Roster.setCurrentCount, Core.setCurrentCount, Roster.modifyThread,
      Core.modifyThread, hstate]
  · split
    · refine h.keepRunning hstate rfl rfl ?_ ?_ rfl rfl rfl
      · intro other hne
        simp [Roster.modifyThread, Core.modifyThread, hne]
      · simp [Roster.modifyThread, Core.modifyThread, hstate]
    · split
      · refine h.waitFor hstate { r.thread r.currentThread with
            timedOut := false
            waitingOnSemaphore := some sem
            state := .waitingForSemaphore }
          rfl rfl rfl ?_ rfl rfl (.inl ⟨rfl, rfl⟩)
        simp [Roster.block, Core.block, Roster.wait, Roster.setWaiting,
          Roster.modifyThread, Core.modifyThread]
      · refine h.waitFor hstate { r.thread r.currentThread with
            timedOut := false
            waitingOnSemaphore := some sem
            sleepExpiry := r.expiryAfter timeoutMs
            state := .waitingForSemaphoreWithTimeout }
          rfl rfl rfl ?_ rfl rfl (.inr ⟨rfl, rfl⟩)
        simp [Roster.block, Core.block, Roster.wait, Roster.setWaiting,
          Roster.queueForSleep, Roster.modifyThread, Core.modifyThread]
        rfl

end

end

variable {s : State}

variable (h : r.Arranged)

include h

section

variable (hrep : Represents s r)

include hrep

lemma wake (hmem : thread ∈ r.sleeping) (hne : thread ≠ r.currentThread) :
    (r.wake thread).Arranged := by
  have hcore := r.wake_toCore thread
  have hparked := ((h.inPlace thread
    (hrep.sleeping_isThread thread hmem)).parked_of_sleeping hmem).2
  refine h.makeReady hne (by rw [hcore]; rfl) (by rw [hcore]; rfl) (r.wake_ready thread) ?_ ⟨?_, ?_⟩
  · intro other hother
    refine .of_fields (r.wake_thread_of_ne hother) (by rw [hcore]; rfl)
      (by simp [hother]) ?_ fun sem => mem_unblock_waiting _ hother
    rw [r.wake_sleeping]
    exact mem_erase_of_ne hother
  · rw [r.wake_sleeping]
    exact hrep.sleeping.nodup.not_mem_erase
  · rcases hparked.sleeper hmem with ⟨hstate, hwaiting⟩ | ⟨hstate, sem, hsem, hwaiting⟩
    · rw [r.wake_waiting_of_ne (by rw [hstate]; decide)]
      exact hwaiting
    · rw [r.wake_waiting_of_eq hstate hsem]
      exact Orderly.notMem_update_erase (r := r) hrep hwaiting

lemma wakeAll {time : Nat} {due : List Nat} (hdue : r.due time = due)
    (hne : ∀ thread ∈ due, thread ≠ r.currentThread) :
    (due.foldl Roster.wake r).Arranged ∧ r.Keeps (due.foldl Roster.wake r) := by
  induction due generalizing r s with
  | nil => exact ⟨h, fun _ hmem => .inl hmem⟩
  | cons thread rest ih =>
    have hmem : thread ∈ r.sleeping := by
      have hin : thread ∈ r.due time := by simp [hdue]
      exact (mem_filter.mp hin).1
    obtain ⟨hready, hcancel⟩ := h.wakeable hrep.sleeping_isThread thread hmem
    obtain ⟨s', _, hrep'⟩ := hrep.wake hmem hready hcancel
    have hcurrent : (r.wake thread).currentThread = r.currentThread := by
      rw [r.wake_toCore]
      rfl
    obtain ⟨hlast, hkeeps⟩ := ih (h.wake hrep hmem (hne thread mem_cons_self)) hrep'
        (Roster.due_wake hrep.sleeping.nodup hdue) (by
          rw [hcurrent]
          exact fun other hin => hne other (mem_cons_of_mem _ hin))
    refine ⟨hlast, fun other hother => hkeeps other ?_⟩
    rw [r.wake_ready]
    exact mem_append_left _ hother

/-- The first in the queue of a semaphore becomes ready. -/
lemma handOver {rest : List Nat} (hwaiting : r.waiting sem = thread :: rest)
    (hne : thread ≠ r.currentThread) (hcount : r'.threadCount = r.threadCount)
    (hcurrent : r'.currentThread = r.currentThread)
    (hothers : ∀ other, other ≠ thread → r'.thread other = r.thread other)
    (hready : r'.ready = r.ready ++ [thread]) (hsleeping : r'.sleeping = r.sleeping.erase thread)
    (hwaiting' : r'.waiting = update r.waiting sem rest) : r'.Arranged := by
  have hmem : thread ∈ r.waiting sem := by simp [hwaiting]
  refine h.makeReady hne hcount hcurrent hready ?_ ⟨?_, ?_⟩
  · intro other hother
    refine .of_fields (hothers other hother) hcurrent (by simp [hready, hother])
      (by rw [hsleeping]; exact mem_erase_of_ne hother) ?_
    intro sem'
    rw [hwaiting', update_apply]
    split
    · subst sem'
      simp [hwaiting, hother]
    · rfl
  · rw [hsleeping]
    exact hrep.sleeping.nodup.not_mem_erase
  · intro sem'
    rw [hwaiting', update_apply]
    split
    · have hnodup := (hrep.waiting sem).nodup
      rw [hwaiting] at hnodup
      exact (nodup_cons.mp hnodup).1
    · rename_i hother
      exact fun hin => hother (hrep.apart sem' sem thread hin hmem)

lemma release (hhead : (r.waiting sem).head? ≠ some r.currentThread) :
    (r.release sem).Arranged ∧ r.ready ⊆ (r.release sem).ready := by
  cases hwaiting : r.waiting sem with
  | nil =>
    rw [release_unclaimed hwaiting]
    exact ⟨h.still rfl rfl fun _ => .of_fields rfl rfl Iff.rfl Iff.rfl
      fun _ => Iff.rfl, fun _ hmem => hmem⟩
  | cons top rest =>
    have hmem : top ∈ r.waiting sem := by simp [hwaiting]
    have hne : top ≠ r.currentThread := by simpa [hwaiting] using hhead
    obtain ⟨_, hparked⟩ := (h.inPlace top
      (hrep.waiting_isThread sem top hmem)).parked_of_waiting hmem
    rcases hparked.waiter hmem with ⟨hstate, hasleep⟩ | ⟨hstate, hasleep⟩
    · rw [release_untimed hwaiting (by rw [hstate]; decide)]
      exact ⟨h.handOver hrep hwaiting hne rfl rfl (fun _ _ => rfl) rfl
        (erase_of_not_mem hasleep).symm rfl, subset_append_left _ _⟩
    · rw [release_timed hwaiting hstate hasleep]
      exact ⟨h.handOver hrep hwaiting hne rfl rfl
        (fun _ hother => update_of_ne hother _ _) rfl rfl rfl, subset_append_left _ _⟩

end

/-- The next thread runs, and the old one is where its state says. -/
lemma switchTo {new : Nat} {rest rest' : List Nat}
    (hready : r.ready = new :: rest) (hnodup : (new :: rest).Nodup)
    (hnew : r.IsThread new) (hcount : r'.threadCount = r.threadCount)
    (hcurrent : r'.currentThread = new)
    (hthread : r'.thread = update r.thread new
      { r.thread new with state := .running }) (hready' : r'.ready = rest')
    (hrest : ∀ other, other ≠ r.currentThread →
      (other ∈ rest' ↔ other ∈ rest)) (hold : (r.currentThread ∈ rest' ∧
        (r.thread r.currentThread).state = .running) ∨
      (r.currentThread ∉ rest' ∧ (r.thread r.currentThread).state ≠ .running))
    (hsleeping : r'.sleeping = r.sleeping) (hwaiting : r'.waiting = r.waiting) : r'.Arranged := by
  have hne : new ≠ r.currentThread := by
    rintro rfl
    exact h.current_notMem (by simp [hready])
  have hunmoved : ∀ other, other ≠ new → (other ∈ r'.ready ↔ other ∈ r.ready) →
      (other = r.currentThread → (r.thread other).state ≠ .running) → Unmoved r r' other := by
    intro other hother hmem hstopped
    have hfields : r'.thread other = r.thread other := by rw [hthread, update_of_ne hother]
    exact ⟨by rw [hfields], by rw [hfields], by rw [hfields],
      fun heq hrunning => absurd hrunning (hstopped heq), hmem,
      by rw [hsleeping], by simp [hwaiting]⟩
  constructor
  · rw [Core.IsThread, hcount, hcurrent]
    exact hnew
  · intro other hother
    rw [Core.IsThread, hcount] at hother
    have hplace := h.inPlace other hother
    by_cases hsame : other = new
    · subst hsame
      have hunlisted := (hplace.resolve_right fun hout => hout.1 (by simp [hready])).2.2
      refine .inr ⟨?_, ?_⟩
      · rw [hready', hrest other hne]
        exact (nodup_cons.mp hnodup).1
      · unfold Parked
        rw [hthread, update_self]
        refine ⟨hcurrent.symm, ?_, ?_⟩
        · rw [hsleeping]
          exact hunlisted.1
        · rw [hwaiting]
          exact hunlisted.2
    · by_cases hcur : other = r.currentThread
      · subst hcur
        rcases hold with ⟨hin, hrunning⟩ | ⟨hout, hblocked⟩
        · have hfree := h.free hrunning
          refine .inl ⟨hready' ▸ hin, hcurrent ▸ hsame, ?_, ?_⟩
          · rw [hsleeping]
            exact hfree.sleeping
          · rw [hwaiting]
            exact hfree.waiting
        · refine hplace.unmoved (hunmoved _ hsame ?_ fun _ => hblocked)
            fun hin => absurd hin h.current_notMem
          rw [hready']
          exact iff_of_false hout h.current_notMem
      · refine hplace.unmoved (hunmoved other hsame ?_ fun heq => absurd heq hcur)
          fun _ => hcurrent ▸ hsame
        rw [hready', hrest other hcur, hready]
        simp [hsame]

lemma schedule (hrep : Represents s r) : r.schedule.Arranged ∧ r.Keeps r.schedule := by
  have hhead : (r.setPostponed false).ready.head? = r.ready.head? := rfl
  rw [Roster.schedule, Roster.scheduleWithLockHeld, hhead]
  cases hready : r.ready with
  | nil =>
    exact ⟨h.still rfl rfl fun _ => .of_fields rfl rfl Iff.rfl Iff.rfl
      fun _ => Iff.rfl, fun _ hmem => absurd hmem (by simp [hready])⟩
  | cons new rest =>
    have hne : new ≠ r.currentThread := by
      rintro rfl
      exact h.current_notMem (by simp [hready])
    have hout : r.currentThread ∉ rest := fun hmem => h.current_notMem (by simp [hready, hmem])
    have hnodup : (new :: rest).Nodup := hready ▸ hrep.ready.nodup
    have hnew := hrep.ready_isThread new (by simp [hready])
    dsimp only [head?_cons]
    rw [if_neg (show new ≠ (r.setPostponed false).currentThread from hne)]
    split
    · rename_i hstate
      have hlist : (((r.setPostponed false).insertReady
          r.currentThread).switchTo new).ready = rest ++ [r.currentThread] := by
        simp [Roster.switchTo, Roster.insertReady, Roster.setPostponed, hready]
      refine ⟨h.switchTo hready hnodup hnew rfl rfl rfl hlist ?_
        (.inl ⟨by simp, hstate⟩) rfl rfl, ?_⟩
      · intro other hother
        simp [hother]
      · intro other hmem
        rw [hready] at hmem
        rcases mem_cons.mp hmem with rfl | hmem
        · exact .inr rfl
        · exact .inl (hlist ▸ mem_append_left _ hmem)
    · rename_i hstate
      have hlist : ((r.setPostponed false).switchTo new).ready = rest := by
        simp [Roster.switchTo, Roster.setPostponed, hready]
      refine ⟨h.switchTo hready hnodup hnew rfl rfl rfl hlist
        (fun _ _ => Iff.rfl) (.inr ⟨hout, hstate⟩) rfl rfl, ?_⟩
      intro other hmem
      rw [hready] at hmem
      rcases mem_cons.mp hmem with rfl | hmem
      · exact .inr rfl
      · exact .inl (hlist ▸ hmem)

/-- A stopped or pausing thread becomes ready. -/
lemma rouse (hthread : r.IsThread thread)
    (hstate : (r.thread thread).state = .stopped ∨ (r.thread thread).state = .waitingForSignal)
    (hne : thread ≠ r.currentThread) (hready : thread ∉ r.ready) : (r.unblock thread).Arranged := by
  have hparked := ((h.inPlace thread hthread).resolve_left fun hin => hready hin.1).2
  have hunlisted : r.Unlisted thread := by
    unfold Parked at hparked
    rcases hstate with hstate | hstate <;> rw [hstate] at hparked <;> exact hparked
  have hplain : (r.thread thread).state ≠ .waitingForSemaphoreWithTimeout := by
    rcases hstate with hstate | hstate <;> rw [hstate] <;> decide
  rw [Roster.unblock, if_neg hplain]
  refine h.makeReady hne rfl rfl rfl ?_ hunlisted
  intro other hother
  exact .of_fields rfl rfl (by simp [Roster.insertReady, hother]) Iff.rfl fun _ => Iff.rfl

/-- A thread changes a field that no place depends on. -/
lemma modify (thread : Nat) (change : Thread → Thread)
    (hstate : ∀ thr, (change thr).state = thr.state)
    (htimedOut : ∀ thr, (change thr).timedOut = thr.timedOut)
    (hwaits : ∀ thr, (change thr).waitingOnSemaphore = thr.waitingOnSemaphore) :
    (r.modifyThread thread change).Arranged := by
  refine h.still rfl rfl fun other => ?_
  have hfields : (r.modifyThread thread change).thread other =
      if other = thread then change (r.thread other) else r.thread other := by
    simp only [Roster.modifyThread, Core.modifyThread, update_apply]
    split
    · subst other
      rfl
    · rfl
  refine ⟨?_, ?_, ?_, fun heq _ => heq, Iff.rfl, Iff.rfl, fun _ => Iff.rfl⟩ <;>
    rw [hfields] <;> split <;> simp only [hstate, htimedOut, hwaits]

end Arranged

def addThread (r : Roster) : Roster :=
  { r with
    threadCount := r.threadCount + 1
    thread := update r.thread (r.threadCount + 1) newThread }

end Roster

namespace Represents

variable {s : State} {r : Roster}

lemma addThread (hrep : Represents s r) : Represents s.addThread r.addThread := by
  have hmono : ∀ thread, r.IsThread thread → r.addThread.IsThread thread :=
    fun thread hthread => ⟨hthread.1, Nat.le_succ_of_le hthread.2⟩
  refine { hrep with
    core := ?_
    ready_isThread := fun thread hmem => hmono thread (hrep.ready_isThread thread hmem)
    sleeping_isThread := fun thread hmem => hmono thread (hrep.sleeping_isThread thread hmem)
    waiting_isThread := fun sem thread hmem =>
      hmono thread (hrep.waiting_isThread sem thread hmem) }
  simp only [State.addThread, Roster.addThread, hrep.core]

end Represents

namespace Roster

variable {r : Roster} {s : State}

lemma addThread_isThread (r : Roster) : r.addThread.IsThread (r.threadCount + 1) :=
  ⟨Nat.succ_pos _, Nat.le_refl _⟩

lemma Arranged.create (h : r.Arranged) (hrep : Represents s r) :
    (r.addThread.insertReady (r.threadCount + 1)).Arranged := by
  have hnew : ∀ thread, r.IsThread thread → thread ≠ r.threadCount + 1 := by
    intro thread hthread
    have := hthread.2
    omega
  refine ⟨⟨h.current.1, Nat.le_succ_of_le h.current.2⟩, ?_⟩
  intro other hother
  by_cases hsame : other = r.threadCount + 1
  · subst hsame
    refine .inl ⟨by simp [insertReady], (hnew _ h.current).symm, ?_, ?_⟩
    · exact fun hmem => hnew _ (hrep.sleeping_isThread _ hmem) rfl
    · exact fun sem hmem => hnew _ (hrep.waiting_isThread sem _ hmem) rfl
  · have hold : r.IsThread other := by
      refine ⟨hother.1, ?_⟩
      have hle : other ≤ r.threadCount + 1 := hother.2
      omega
    refine (h.inPlace other hold).unmoved ?_ ?_
    · exact .of_fields (update_of_ne hsame _ _) rfl
        (by simp [insertReady, addThread, hsame]) Iff.rfl fun _ => Iff.rfl
    · rintro hmem rfl
      exact h.current_notMem hmem

end Roster

end Merlon.Threads
