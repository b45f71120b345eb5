/-
Units between a grant and the return of `AcquireSemaphore`.  A unit counts as
delivered once the call that got it has returned, so the delivered units of a
semaphore change only when a call returns and when a unit is released.
-/
import Merlon.Library.Tally
import Merlon.Threads.Runs

namespace Merlon.Threads

open Roster Option Ledger

open List

open Function (update update_idem update_self update_apply update_of_ne)

/-- A unit granted to a call that has not returned. -/
def undelivered (sem : Nat) (attempt : Option Attempt) : Nat :=
  match attempt with
  | none => 0
  | some a => if a.sem = sem ∧ a.granted = true then 1 else 0

namespace Session

variable {idle : Nat} {initial : Nat → Int} {k k' : Session} {k'' : Session}

def pending (k : Session) (sem : Nat) : Nat :=
  tally k.kernel.threadCount fun thread =>
    undelivered sem (k.ledger.attempt thread)

/-- The units that threads know they have. -/
def delivered (k : Session) (sem : Nat) : Int :=
  k.kernel.currentCount sem - k.pending sem

/-- What the thread is waiting for or about to return from. -/
def target (k : Session) (thread : Nat) : Option (Nat × Int) :=
  (k.ledger.attempt thread).map fun a => (a.sem, a.timeoutMs)

lemma start_delivered (s : State) (sem : Nat) :
    (Session.start s).delivered sem = s.currentCount sem := by
  have hnothing : (Session.start s).pending sem = 0 := tally_zero _
  rw [delivered, hnothing]
  exact Int.sub_zero _

def current (k : Session) : Nat :=
  k.kernel.currentThread

/-- A wait without a timeout goes on until it is granted a unit. -/
def Patient (k : Session) : Prop :=
  ∀ thread a, k.ledger.attempt thread = some a → a.timeoutMs = -1 →
    a.granted = false → thread ∈ k.kernel.waiters a.sem

/-- What no step changes: the number of threads, the sizes of the semaphores,
and that those who wait without a timeout wait. -/
structure Fixed (k k' : Session) : Prop where
  threads : k'.kernel.threadCount = k.kernel.threadCount
  max : k'.kernel.maxCount = k.kernel.maxCount
  patient : k.Patient → k'.Patient

lemma Fixed.trans (hfirst : Fixed k k') (hnext : Fixed k' k'') : Fixed k k'' :=
  ⟨hnext.threads.trans hfirst.threads, hnext.max.trans hfirst.max,
    fun hpatient => hnext.patient (hfirst.patient hpatient)⟩

section

variable (r : Roster)

lemma acquire_fixed (sem : Nat) (timeoutMs : Int) :
    (r.acquire sem timeoutMs).threadCount = r.threadCount ∧
    (r.acquire sem timeoutMs).maxCount = r.maxCount := by
  rw [acquire]
  split_ifs <;> exact ⟨rfl, rfl⟩

lemma release_fixed (sem : Nat) :
    (r.release sem).threadCount = r.threadCount ∧ (r.release sem).maxCount = r.maxCount := by
  rw [release]
  split
  · exact ⟨rfl, rfl⟩
  · dsimp only
    split_ifs
    · rw [unblock_toCore]
      exact ⟨rfl, rfl⟩
    · exact ⟨rfl, rfl⟩
    · rw [unblock_toCore]
      exact ⟨rfl, rfl⟩

lemma wakeAll_fixed (due : List Nat) :
    (due.foldl wake r).threadCount = r.threadCount ∧ (due.foldl wake r).maxCount = r.maxCount := by
  induction due generalizing r with
  | nil => exact ⟨rfl, rfl⟩
  | cons thread rest ih =>
    rw [foldl_cons]
    obtain ⟨hthreads, hmax⟩ := ih (r.wake thread)
    rw [hthreads, hmax, r.wake_toCore]
    exact ⟨rfl, rfl⟩

lemma schedule_fixed : r.schedule.threadCount = r.threadCount ∧
      r.schedule.maxCount = r.maxCount := by
  rw [Roster.schedule, Roster.scheduleWithLockHeld]
  split
  · exact ⟨rfl, rfl⟩
  · split_ifs <;> exact ⟨rfl, rfl⟩

end

variable {thread sem : Nat} {timeoutMs : Int}

section

variable (r : Roster)

/-- Who waits goes on waiting when another thread queues up. -/
lemma mem_acquire_waiting {sem' : Nat} (hmem : thread ∈ r.waiting sem') (sem : Nat)
    (timeoutMs : Int) : thread ∈ (r.acquire sem timeoutMs).waiting sem' := by
  have hwait : thread ∈ update r.waiting sem (r.waiting sem ++ [r.currentThread]) sem' := by
    rw [update_apply]
    split
    · subst sem'
      exact mem_append_left _ hmem
    · exact hmem
  rw [acquire]
  split_ifs
  · exact hmem
  · exact hmem
  · exact hwait
  · exact hwait

lemma current_mem_acquire_waiting (hfull : ¬ r.currentCount sem < r.maxCount sem) :
    r.currentThread ∈ (r.acquire sem (-1)).waiting sem := by
  have hwait : r.currentThread ∈ update r.waiting sem (r.waiting sem ++ [r.currentThread]) sem := by
    rw [update_self]
    exact mem_append_right _ (mem_singleton_self _)
  rw [acquire]
  split_ifs with hroom hzero
  · exact absurd hroom hfull
  · exact absurd hzero (by decide)
  · exact hwait
  · exact hwait

/-- A release takes only the first thread off its list. -/
lemma mem_release_waiting {sem' : Nat} (hmem : thread ∈ r.waiting sem')
    (hfirst : thread ∉ (r.waiting sem).head?.toList) : thread ∈ (r.release sem).waiting sem' := by
  cases hwaiting : r.waiting sem with
  | nil =>
    rw [release_unclaimed hwaiting]
    exact hmem
  | cons top rest =>
    rw [hwaiting, head?_cons, toList_some, mem_singleton] at hfirst
    rw [(release_claimed hwaiting).1, update_apply]
    split
    · subst sem'
      rw [hwaiting] at hmem
      exact mem_of_ne_of_mem hfirst hmem
    · exact hmem

lemma mem_wakeAll_waiting (due : List Nat) (hmem : thread ∈ r.waiting sem)
    (hdue : thread ∉ due) : thread ∈ (due.foldl wake r).waiting sem := by
  induction due generalizing r with
  | nil => exact hmem
  | cons head rest ih =>
    rw [mem_cons, not_or] at hdue
    exact ih (r.wake head) ((mem_unblock_waiting _ hdue.1).mpr hmem) hdue.2

end

/-- Those who wait without a timeout do not sleep. -/
lemma notMem_sleeping_of_patient {r : Roster} (hrep : Represents k.kernel r)
    (horder : Orderly idle initial r k.ledger) {a : Attempt}
    (hattempt : k.ledger.attempt thread = some a) (htimeout : a.timeoutMs = -1)
    (hmem : thread ∈ r.waiting a.sem) : thread ∉ r.sleeping := by
  obtain ⟨_, _, _, hcall⟩ := (horder.placed thread (hrep.waiting_isThread _ thread hmem)).waits hmem
  obtain ⟨b, hb, _, _, ⟨_, hawake, _⟩ | ⟨_, hne, _, _⟩⟩ := hcall.call
  · exact hawake
  · rw [hattempt] at hb
    cases hb
    exact absurd htimeout hne

lemma balance (h : k.InOrder idle initial) (sem : Nat) :
    k.kernel.currentCount sem = initial sem + k.ledger.granted sem - k.ledger.released sem :=
  (conserved_of_inOrder h).balance sem

lemma current_le (h : k.InOrder idle initial) : k.current ≤ k.kernel.threadCount := by
  obtain ⟨r, hrep, horder⟩ := h
  rw [current, hrep.core]
  exact horder.current.2

/-- Only one thread's call changes. -/
lemma pending_change (hthreads : k'.kernel.threadCount = k.kernel.threadCount)
    (hthread : thread ≤ k.kernel.threadCount)
    (hothers : ∀ other, other ≠ thread → k'.ledger.attempt other = k.ledger.attempt other)
    (sem : Nat) :
    k'.pending sem + undelivered sem (k.ledger.attempt thread) = k.pending sem + undelivered sem
    (k'.ledger.attempt thread) := by
  rw [pending, hthreads]
  exact tally_change (fun thread => undelivered sem (k.ledger.attempt thread))
    (fun thread => undelivered sem (k'.ledger.attempt thread)) hthread
    fun other hne => by rw [hothers other hne]

section

variable (h : k.InOrder idle initial)

include h

/-- A call that begins has delivered nothing yet. -/
lemma delivered_of_call (h' : k'.InOrder idle initial) (hfixed : Fixed k k') {granted : Bool}
    (hledger : k'.ledger = k.ledger.call k.current sem timeoutMs granted)
    (hnone : k.ledger.attempt k.current = none) (other : Nat) :
    k'.delivered other = k.delivered other := by
  have hpending := pending_change hfixed.threads (current_le h) (fun thread hne => by
      rw [hledger]
      exact update_of_ne hne _ _) other
  have hcount := balance h other
  have hcount' := balance h' other
  rw [hnone, hledger] at hpending
  rw [hledger] at hcount'
  simp only [Ledger.call, update_self, undelivered, update_apply] at hpending hcount'
  unfold delivered
  by_cases hsem : sem = other
  · subst hsem
    cases granted <;> simp at hpending hcount' <;> omega
  · simp only [hsem, Ne.symm hsem, false_and, if_false] at hpending hcount'
    omega

/-- A call that returns delivers the unit it was granted. -/
lemma delivered_of_return (h' : k'.InOrder idle initial) (hfixed : Fixed k k')
    (hledger : k'.ledger = k.ledger.return_ k.current) (other : Nat) :
    k'.delivered other = k.delivered other + undelivered other (k.ledger.attempt k.current) := by
  have hpending := pending_change hfixed.threads (current_le h) (fun thread hne => by
      rw [hledger]
      exact update_of_ne hne _ _) other
  have hcount := balance h other
  have hcount' := balance h' other
  rw [hledger] at hpending hcount'
  simp only [return_, update_self] at hpending hcount'
  have hnothing : undelivered other none = 0 := rfl
  unfold delivered
  omega

lemma acquire_effect (hmay : k.MayBlock idle) (sem : Nat) (timeoutMs : Int) :
    ∃ k', (Call.acquire sem timeoutMs).step k = .ok k' ∧ k'.InOrder idle initial ∧ Fixed k k' ∧
    (∀ other, k'.delivered other = k.delivered other) ∧
    k'.target = update k.target k.current (some (sem, timeoutMs)) := by
  obtain ⟨k', hstep, h'⟩ := step_inOrder h (.acquire sem timeoutMs) hmay
  obtain ⟨r, hrep, horder⟩ := h
  have hstate : (r.thread r.currentThread).state = .running := by
    have := hmay.2.1
    rwa [hrep.core] at this
  obtain ⟨s, hrun, hrep'⟩ := hrep.acquire (horder.free hstate) sem timeoutMs
  have hkernel : k' = ⟨s, k.ledger.call k.current sem timeoutMs
      (decide (k.kernel.currentCount sem < s.currentCount sem))⟩ := by
    rw [Call.step, hrun] at hstep
    exact (Except.ok.inj hstep).symm
  have hfixed : Fixed k k' := by
    obtain ⟨hthreads, hmax⟩ := acquire_fixed r sem timeoutMs
    rw [hkernel]
    refine ⟨?_, ?_, ?_⟩
    · rw [hrep'.core, hthreads, hrep.core]
    · rw [hrep'.core, hmax, hrep.core]
    · intro hpatient thread a ha htimeout hgranted
      rw [hrep'.waiters_eq]
      simp only [Ledger.call, update_apply] at ha
      split at ha
      · rename_i hcurrent
        cases ha
        rw [decide_eq_false_iff_not, hrep.core, hrep'.core, acquire_count] at hgranted
        rw [hcurrent, current, hrep.core]
        subst htimeout
        exact current_mem_acquire_waiting r hgranted
      · have hmem := hpatient thread a ha htimeout hgranted
        rw [hrep.waiters_eq] at hmem
        exact mem_acquire_waiting r hmem sem timeoutMs
  have hledger : k'.ledger = k.ledger.call k.current sem timeoutMs
      (decide (k.kernel.currentCount sem < s.currentCount sem)) := by
    rw [hkernel]
  refine ⟨k', hstep, h', hfixed, delivered_of_call ⟨r, hrep, horder⟩ h' hfixed hledger hmay.2.2, ?_⟩
  funext thread
  simp only [target, hledger, Ledger.call, update_apply]
  split <;> rfl

lemma return_effect (hpostponed : k.kernel.postponedTaskSwitch = false) :
    ∃ k', Call.return_.step k = .ok k' ∧ k'.InOrder idle initial ∧ Fixed k k' ∧
      (∀ other, k'.delivered other = k.delivered other +
        undelivered other (k.ledger.attempt k.current)) ∧
      k'.target = update k.target k.current none := by
  obtain ⟨k', hstep, h'⟩ := step_inOrder h .return_ hpostponed
  have hkernel : k' = ⟨k.kernel, k.ledger.return_ k.current⟩ := (Except.ok.inj hstep).symm
  have hfixed : Fixed k k' := by
    rw [hkernel]
    refine ⟨rfl, rfl, ?_⟩
    intro hpatient thread a ha htimeout hgranted
    simp only [return_, update_apply] at ha
    split at ha
    · cases ha
    · exact hpatient thread a ha htimeout hgranted
  have hledger : k'.ledger = k.ledger.return_ k.current := by rw [hkernel]
  refine ⟨k', hstep, h', hfixed, delivered_of_return h h' hfixed hledger, ?_⟩
  funext thread
  simp only [target, hledger, return_, update_apply]
  split <;> rfl

end

/-- A thread waits for one semaphore at a time. -/
lemma undelivered_of_target (htarget : k.target thread = some (sem, timeoutMs)) {other : Nat}
    (hne : other ≠ sem) : undelivered other (k.ledger.attempt thread) = 0 := by
  obtain ⟨a, hattempt, hsame⟩ := map_eq_some_iff.mp htarget
  obtain ⟨rfl, rfl⟩ := Prod.mk.inj hsame
  rw [hattempt, undelivered, if_neg fun hboth => hne hboth.1.symm]

lemma undelivered_of_foreign (hforeign : ∀ timeoutMs, k.target thread ≠ some (sem, timeoutMs)) :
    undelivered sem (k.ledger.attempt thread) = 0 := by
  cases hattempt : k.ledger.attempt thread with
  | none => rfl
  | some a =>
    refine if_neg fun hboth => hforeign a.timeoutMs ?_
    rw [target, hattempt, map_some, hboth.1]

/-- `AcquireSemaphore` returns success just when it was granted a unit. -/
lemma undelivered_eq (h : k.InOrder idle initial)
    (hpostponed : k.kernel.postponedTaskSwitch = false)
    (htarget : k.target k.current = some (sem, timeoutMs)) :
    undelivered sem (k.ledger.attempt k.current) =
      if acquireResult (k.kernel.thread k.current) timeoutMs = .success
      then 1 else 0 := by
  obtain ⟨a, hattempt, hsame⟩ := map_eq_some_iff.mp htarget
  obtain ⟨rfl, rfl⟩ := Prod.mk.inj hsame
  have hresult : acquireResult (k.kernel.thread k.current) a.timeoutMs = _ :=
    (conserved_of_inOrder h).returns a hattempt hpostponed
  rw [hattempt, undelivered, hresult]
  cases a.granted
  · by_cases hzero : a.timeoutMs = 0 <;> simp [hzero]
  · simp

/-- A unit that is handed over goes from the one who releases it to a call
that has not returned. -/
lemma delivered_of_handOver (h : k.InOrder idle initial)
    (h' : k'.InOrder idle initial) (hfixed : Fixed k k') {woken : Option Nat}
    (hledger : k'.ledger = k.ledger.handOver sem woken.toList)
    (hwoken : ∀ thread ∈ woken, thread ≤ k.kernel.threadCount ∧
      ∃ a, k.ledger.attempt thread = some a ∧ a.sem = sem ∧ a.granted = false) (other : Nat) :
    k'.delivered other = k.delivered other - if other = sem then 1 else 0 := by
  have hcount := balance h other
  have hcount' := balance h' other
  rw [hledger] at hcount'
  simp only [handOver, update_apply] at hcount'
  unfold delivered
  cases woken with
  | none =>
    have hpending : k'.pending other = k.pending other := by
      rw [pending, hfixed.threads, hledger]
      exact tally_congr fun thread _ => by simp [handOver]
    simp only [toList_none, length_nil] at hcount'
    split_ifs at hcount' ⊢ with hsem
    · subst hsem
      omega
    · omega
  | some thread =>
    obtain ⟨hthread, a, hattempt, hsem, hgranted⟩ := hwoken thread rfl
    have hpending := pending_change hfixed.threads hthread
      (fun other' hne => by rw [hledger]; simp [handOver, hne]) other
    have hnew : k'.ledger.attempt thread = some { a with granted := true } := by
      rw [hledger]
      simp [handOver, hattempt]
    rw [hattempt, hnew] at hpending
    simp only [undelivered, hsem, hgranted, and_true, Bool.false_eq_true,
      and_false, if_false] at hpending
    simp only [toList_some, length_singleton] at hcount'
    by_cases hother : other = sem
    · subst hother
      simp only [if_true] at hpending hcount' ⊢
      omega
    · simp only [hother, Ne.symm hother, if_false] at hpending hcount' ⊢
      omega

/-- Whoever waits first has called and was granted nothing. -/
lemma waiter_undecided {r : Roster} (hrep : Represents k.kernel r)
    (horder : Orderly idle initial r k.ledger) (hmem : thread ∈ r.waiting sem) : thread ∉ r.ready ∧
    thread ≤ k.kernel.threadCount ∧ ∃ a, k.ledger.attempt thread = some a ∧ a.sem = sem ∧
    a.granted = false := by
  have hthread := hrep.waiting_isThread sem thread hmem
  obtain ⟨hready, sem', hwaiting, hcall⟩ := (horder.placed thread hthread).waits hmem
  obtain ⟨a, hattempt, hsem, hgranted, _⟩ := hcall.call
  refine ⟨hready, ?_, a, hattempt, hsem.trans (hrep.apart sem' sem thread hwaiting hmem), hgranted⟩
  rw [hrep.core]
  exact hthread.2

/-- The session after a round of `ReleaseSemaphoreEx`. -/
structure HandsOver (sem : Nat) (count : Nat) (k k' : Session) : Prop where
  fixed : Fixed k k'
  delivered : ∀ other, k'.delivered other =
    k.delivered other - if other = sem then (count : Int) else 0
  target : k'.target = k.target

lemma HandsOver.trans {count count' : Nat} (hfirst : HandsOver sem count k k')
    (hnext : HandsOver sem count' k' k'') : HandsOver sem (count + count') k k'' where
  fixed := hfirst.fixed.trans hnext.fixed
  delivered other := by
    have hfirst := hfirst.delivered other
    have hnext := hnext.delivered other
    split_ifs at hfirst hnext ⊢ <;> push_cast <;> omega
  target := hnext.target.trans hfirst.target

lemma decrement_effect (h : k.InOrder idle initial) (sem : Nat)
    (hcount : 0 < k.kernel.currentCount sem) : ∃ s, ∃ woken :
    Option Nat, decrementSemaphore k.kernel sem = .ok s ∧ s.ready = k.kernel.ready ++ woken.toList ∧
    InOrder idle initial ⟨s, k.ledger.handOver sem woken.toList⟩ ∧
    HandsOver sem 1 k ⟨s, k.ledger.handOver sem woken.toList⟩ := by
  obtain ⟨r, hrep, horder⟩ := h
  have hpos : 0 < r.currentCount sem := by rwa [hrep.core] at hcount
  have hwaiter : ∀ thread ∈ (r.waiting sem).head?, thread ∈ r.waiting sem :=
    fun thread hmem => mem_of_mem_head? hmem
  obtain ⟨s, hrun, hrep'⟩ := hrep.decrement hpos.ne' fun thread hmem =>
    (waiter_undecided hrep horder hmem).1
  obtain ⟨horder', hready⟩ := horder.release hrep hpos
  have hfixed : Fixed k ⟨s, k.ledger.handOver sem (r.waiting sem).head?.toList⟩ := by
    obtain ⟨hthreads, hmax⟩ := release_fixed r sem
    refine ⟨?_, ?_, ?_⟩
    · rw [hrep'.core, hthreads, hrep.core]
    · rw [hrep'.core, hmax, hrep.core]
    · intro hpatient thread a ha htimeout hgranted
      rw [hrep'.waiters_eq]
      simp only [Ledger.handOver] at ha
      split at ha
      · obtain ⟨b, _, rfl⟩ := Option.map_eq_some_iff.mp ha
        cases hgranted
      · rename_i hfirst
        have hmem := hpatient thread a ha htimeout hgranted
        rw [hrep.waiters_eq] at hmem
        exact mem_release_waiting r hmem hfirst
  refine ⟨s, (r.waiting sem).head?, hrun, ?_, ⟨_, hrep', horder'⟩, hfixed, ?_, ?_⟩
  · rw [hrep'.ready_eq, hready, hrep.ready_eq]
  · exact delivered_of_handOver ⟨r, hrep, horder⟩ ⟨_, hrep', horder'⟩ hfixed rfl fun thread hmem =>
        (waiter_undecided hrep horder (hwaiter thread hmem)).2
  · funext thread
    simp only [Session.target, Ledger.handOver]
    split
    · rw [Option.map_map]
      rfl
    · rfl

lemma ready_nodup (h : k.InOrder idle initial) : k.kernel.ready.Nodup := by
  obtain ⟨r, hrep, _⟩ := h
  rw [hrep.ready_eq]
  exact hrep.ready.nodup

end Session

/-- The ledger after `count` rounds of a release. -/
def Ledger.handOverMany (ledger : Ledger) (sem : Nat) (woken : List Nat) (count : Nat) : Ledger :=
  { ledger.handOver sem woken with
    released := update ledger.released sem (ledger.released sem + count) }

/-- `ReleaseSemaphoreEx` under the scheduler lock. -/
def Session.releaseEx (k : Session) (sem : Nat) (count : Int) : Except Stop Session := do
  let (decrements, s) ← releaseSemaphoreEx k.kernel sem count
  .ok ⟨s, k.ledger.handOverMany sem (s.ready.filter fun thread => decide (thread ∉ k.kernel.ready))
    decrements.toNat⟩

namespace Session

variable {idle : Nat} {initial : Nat → Int} {k k' : Session} {call : Call}

lemma handOverMany_handOver (ledger : Ledger) (sem : Nat) (first rest : List Nat) (count : Nat) :
    (ledger.handOver sem first).handOverMany sem rest count = ledger.handOverMany sem
    (first ++ rest) (count + 1) := by
  simp only [handOverMany, handOver, update_self, update_idem, length_append]
  congr 1
  · funext thread
    by_cases hrest : thread ∈ rest <;> by_cases hfirst : thread ∈ first <;>
      simp [hfirst, Function.comp_def]
  · rw [Nat.add_assoc]
  · rw [Nat.add_assoc, Nat.add_comm 1 count]

lemma releaseLoop_effect (count : Nat) (h : k.InOrder idle initial) {sem fuel : Nat}
    (hfuel : count < fuel) (decrements : Int)
    (hcount : (count + 1 : Nat) ≤ k.kernel.currentCount sem) :
    ∃ s woken, releaseLoop sem fuel k.kernel
    (count + 1 : Nat) decrements = .ok (decrements + (count + 1 : Nat), s) ∧
    s.ready = k.kernel.ready ++ woken ∧
    InOrder idle initial ⟨s, k.ledger.handOverMany sem woken (count + 1)⟩ ∧
    HandsOver sem (count + 1) k ⟨s, k.ledger.handOverMany sem woken (count + 1)⟩ := by
  induction count generalizing k fuel decrements with
  | zero =>
    obtain ⟨s, woken, hrun, hready, h', heffect⟩ := decrement_effect h sem (by omega)
    obtain ⟨fuel, rfl⟩ := Nat.exists_eq_succ_of_ne_zero hfuel.ne'
    refine ⟨s, woken.toList, ?_, hready, h', heffect⟩
    rw [releaseLoop, hrun]
    simp
  | succ count ih =>
    obtain ⟨s, woken, hrun, hready, h', heffect⟩ := decrement_effect h sem (by omega)
    have hbalance := balance h sem
    have hbalance' := balance h' sem
    simp only [handOver, update_self] at hbalance'
    have hleft : (count + 1 : Nat) ≤ s.currentCount sem := by
      omega
    obtain ⟨fuel, rfl⟩ := Nat.exists_eq_succ_of_ne_zero
      (Nat.ne_of_gt (Nat.lt_of_le_of_lt (Nat.zero_le _) hfuel))
    obtain ⟨s', woken', hloop, hready', h'', heffect'⟩ :=
      ih h' (Nat.lt_of_succ_lt_succ hfuel) (decrements + 1) hleft
    rw [handOverMany_handOver] at h'' heffect'
    refine ⟨s', woken.toList ++ woken', ?_, ?_, h'', ?_⟩
    · have hcast : ((count + 1 + 1 : Nat) : Int) - 1 = (count + 1 : Nat) := by
        omega
      have htotal : decrements + 1 + ((count + 1 : Nat) : Int) =
          decrements + (count + 1 + 1 : Nat) := by
        omega
      rw [releaseLoop, hrun, ok_bind, hcast, if_pos ⟨by omega, by omega⟩, hloop, htotal]
    · rw [hready', hready, append_assoc]
    · have := heffect.trans heffect'
      rwa [Nat.add_comm 1] at this

lemma filter_ready {s : State} {ledger : Ledger} (h : InOrder idle initial ⟨s, ledger⟩)
    {woken : List Nat} (hready : s.ready = k.kernel.ready ++ woken) :
    s.ready.filter (fun thread => decide (thread ∉ k.kernel.ready)) = woken := by
  have hnodup := ready_nodup h
  rw [hready] at hnodup ⊢
  exact filter_woken fun thread hmem hin => (nodup_append.mp hnodup).2.2 thread hin thread hmem rfl

section

variable (h : k.InOrder idle initial)
include h

/-- `ReleaseSemaphoreEx` takes back as many units as it is told, as long as so
many are taken. -/
lemma releaseEx_effect {sem count : Nat}
    (hpos : 0 < count) (hcount : (count : Int) ≤ k.kernel.currentCount sem) :
    ∃ k', k.releaseEx sem count = .ok k' ∧ k'.InOrder idle initial ∧ HandsOver sem count k k' := by
  obtain ⟨count, rfl⟩ := Nat.exists_eq_succ_of_ne_zero hpos.ne'
  have hfuel : count < (k.kernel.currentCount sem).toNat + k.kernel.fuel := by omega
  obtain ⟨s, woken, hrun, hready, h', heffect⟩ := releaseLoop_effect count h hfuel 0 hcount
  refine ⟨_, ?_, h', heffect⟩
  have hwoken := filter_ready h' hready
  rw [releaseEx, releaseSemaphoreEx, if_neg (by omega), if_pos (by omega), hrun, ok_bind]
  dsimp only
  rw [hwoken, Int.zero_add, Int.toNat_natCast]

lemma release_effect (sem : Nat) (hcount : 0 < k.kernel.currentCount sem) :
    ∃ k', (Call.release sem).step k = .ok k' ∧ k'.InOrder idle initial ∧ HandsOver sem 1 k k' := by
  obtain ⟨s, woken, hrun, hready, h', heffect⟩ := decrement_effect h sem hcount
  have hwoken := filter_ready h' hready
  refine ⟨_, ?_, h', heffect⟩
  rw [Call.step, releaseSemaphore_of_decrement hcount hrun, ok_bind, hwoken]

/-- The calls that neither begin nor end an acquisition nor release a unit. -/
def Neutral : Call → Prop
  | .sleep _ | .wakeups | .timer _ | .signal _ _ | .schedule => True
  | .acquire _ _ | .return_ | .release _ => False

lemma neutral_fixed (hneutral : Neutral call) (hallowed : call.Allowed idle initial k)
    (hstep : call.step k = .ok k') : Fixed k k' ∧ k'.ledger = k.ledger := by
  obtain ⟨r, hrep, horder⟩ := h
  have hroster : ∀ {s : State} {r' : Roster}, Represents s r' →
      r'.threadCount = r.threadCount ∧ r'.maxCount = r.maxCount →
      (∀ thread sem, thread ∈ r.waiting sem → thread ∉ r.sleeping → thread ∈ r'.waiting sem) →
      Fixed k ⟨s, k.ledger⟩ := by
    intro s r' hrep' hsame hwaiting
    refine ⟨?_, ?_, ?_⟩
    · rw [hrep'.core, hsame.1, hrep.core]
    · rw [hrep'.core, hsame.2, hrep.core]
    · intro hpatient thread a ha htimeout hgranted
      have hmem := hpatient thread a ha htimeout hgranted
      rw [hrep.waiters_eq] at hmem
      rw [hrep'.waiters_eq]
      exact hwaiting thread a.sem hmem (notMem_sleeping_of_patient hrep horder ha htimeout hmem)
  cases call with
  | sleep systemTimeNs =>
    obtain ⟨_, hstate, _⟩ := hallowed
    rw [hrep.core] at hstate
    obtain ⟨s, hrun, hrep'⟩ := hrep.sleepUntil (horder.free hstate) systemTimeNs
    rw [Call.step, hrun] at hstep
    cases hstep
    refine ⟨hroster hrep' ?_ ?_, rfl⟩
    · rw [Roster.sleepUntil]
      split <;> exact ⟨rfl, rfl⟩
    · intro thread sem hmem _
      rw [Roster.sleepUntil]
      split <;> exact hmem
  | wakeups =>
    obtain ⟨s, hrun, hrep'⟩ := hrep.wakeups (horder.wakeable hrep.sleeping_isThread)
    rw [Call.step, hrun] at hstep
    cases hstep
    refine ⟨hroster hrep' (wakeAll_fixed r _) ?_, rfl⟩
    intro thread sem hmem hawake
    exact mem_wakeAll_waiting r _ hmem fun hdue => hawake (mem_of_mem_filter hdue)
  | timer nanos =>
    cases hstep
    exact ⟨⟨rfl, rfl, fun hpatient => hpatient⟩, rfl⟩
  | signal thread pending =>
    cases hstep
    exact ⟨⟨rfl, rfl, fun hpatient => hpatient⟩, rfl⟩
  | schedule =>
    obtain ⟨s, hrun, hrep'⟩ := hrep.schedule horder.current horder.unready
    rw [Call.step, hrun] at hstep
    cases hstep
    refine ⟨hroster hrep' (schedule_fixed r) ?_, rfl⟩
    intro thread sem hmem _
    rw [Roster.schedule, Roster.scheduleWithLockHeld]
    split
    · exact hmem
    · split_ifs <;> exact hmem
  | acquire _ _ => exact hneutral.elim
  | return_ => exact hneutral.elim
  | release _ => exact hneutral.elim

lemma neutral_effect (hneutral : Neutral call) (hallowed : call.Allowed idle initial k) :
    ∃ k', call.step k = .ok k' ∧ k'.InOrder idle initial ∧ Fixed k k' ∧
    (∀ other, k'.delivered other = k.delivered other) ∧ k'.target = k.target := by
  obtain ⟨k', hstep, h'⟩ := step_inOrder h call hallowed
  obtain ⟨hfixed, hledger⟩ := neutral_fixed h hneutral hallowed hstep
  refine ⟨k', hstep, h', hfixed, ?_, ?_⟩
  · intro other
    rw [delivered, delivered, balance h, balance h', pending, pending, hfixed.threads, hledger]
  · funext thread
    rw [target, target, hledger]

/-- A call that has nothing to do with the semaphores of `Mine`.  The current
thread waits for none of them where it begins or ends an acquisition. -/
def Foreign (Mine : Nat → Prop) (Free : Prop) : Call → Prop
  | .acquire sem _ => Free ∧ ¬ Mine sem
  | .return_ => Free
  | .release sem => ¬ Mine sem
  | .sleep _ | .wakeups | .timer _ | .signal _ _ | .schedule => True

/-- What such a call leaves as it is. -/
structure Spares (Mine : Nat → Prop) (Free : Prop) (k k' : Session) : Prop where
  fixed : Fixed k k'
  delivered : ∀ sem, Mine sem → k'.delivered sem = k.delivered sem
  others : ∀ other, other ≠ k.current → k'.target other = k.target other
  self : k'.target k.current = k.target k.current ∨ Free ∧
    ∀ sem timeoutMs, Mine sem → k'.target k.current ≠ some (sem, timeoutMs)

lemma foreign_effect (hallowed : call.Allowed idle initial k)
    {Mine : Nat → Prop} {Free : Prop} (hforeign : Foreign Mine Free call)
    (hfree : Free → ∀ sem timeoutMs, Mine sem → k.target k.current ≠ some (sem, timeoutMs)) :
    ∃ k', call.step k = .ok k' ∧ k'.InOrder idle initial ∧ Spares Mine Free k k' := by
  have hneutral : Neutral call → ∃ k', call.step k = .ok k' ∧
      k'.InOrder idle initial ∧ Spares Mine Free k k' := by
    intro hcase
    obtain ⟨k', hstep, horder, hfixed, hdelivered, htarget⟩ := neutral_effect h hcase hallowed
    exact ⟨k', hstep, horder, hfixed, fun sem _ => hdelivered sem,
      fun other _ => by rw [htarget], .inl (by rw [htarget])⟩
  cases call with
  | acquire sem timeoutMs =>
    obtain ⟨hidle, hother⟩ := hforeign
    obtain ⟨k', hstep, horder, hfixed, hdelivered, htarget⟩ :=
      acquire_effect h hallowed sem timeoutMs
    refine ⟨k', hstep, horder, hfixed, fun sem _ => hdelivered sem,
      fun other hne => ?_, .inr ⟨hidle, fun mine timeout hmine => ?_⟩⟩
    · rw [htarget, update_of_ne hne]
    · rw [htarget, update_self]
      rintro ⟨⟩
      exact hother hmine
  | return_ =>
    obtain ⟨k', hstep, horder, hfixed, hdelivered, htarget⟩ := return_effect h hallowed
    refine ⟨k', hstep, horder, hfixed, fun sem hmine => ?_,
      fun other hne => ?_, .inr ⟨hforeign, fun sem timeoutMs _ => ?_⟩⟩
    · rw [hdelivered, undelivered_of_foreign fun timeoutMs => hfree hforeign sem timeoutMs hmine]
      exact Int.add_zero _
    · rw [htarget, update_of_ne hne]
    · rw [htarget, update_self]
      exact nofun
  | release sem =>
    have hcount : 0 < k.kernel.currentCount sem := by
      have hbalance := balance h sem
      change (_ : Int) < _ at hallowed
      omega
    obtain ⟨k', hstep, horder, heffect⟩ := release_effect h sem hcount
    refine ⟨k', hstep, horder, heffect.fixed, fun mine hmine => ?_,
      fun other _ => by rw [heffect.target], .inl (by rw [heffect.target])⟩
    have hne : mine ≠ sem := fun heq => hforeign (heq ▸ hmine)
    rw [heffect.delivered, if_neg hne, Int.sub_zero]
  | sleep systemTimeNs => exact hneutral trivial
  | wakeups => exact hneutral trivial
  | timer nanos => exact hneutral trivial
  | signal thread pending => exact hneutral trivial
  | schedule => exact hneutral trivial

/-- `AcquireSemaphore` without a timeout returns success. -/
lemma result_of_patient (hpatient : k.Patient) (hpostponed : k.kernel.postponedTaskSwitch = false)
    {sem : Nat} (htarget : k.target k.current = some (sem, -1)) :
    acquireResult (k.kernel.thread k.current) (-1) = .success := by
  obtain ⟨a, hattempt, hsame⟩ := map_eq_some_iff.mp htarget
  obtain ⟨_, htimeout⟩ := Prod.mk.inj hsame
  have hresult := (conserved_of_inOrder h).returns a hattempt hpostponed
  rw [htimeout] at hresult
  obtain ⟨r, hrep, horder⟩ := h
  cases hgranted : a.granted with
  | true =>
    rw [hgranted] at hresult
    exact hresult
  | false =>
    have hmem := hpatient k.current a hattempt htimeout hgranted
    rw [hrep.waiters_eq, current, hrep.core] at hmem
    rw [hrep.core] at hpostponed
    exact absurd hmem ((horder.free (horder.postponed hpostponed)).waiting _)

/-- No semaphore has more delivered units than it has units. -/
lemma delivered_le (sem : Nat) :
    k.delivered sem ≤ k.kernel.currentCount sem ∧ k.delivered sem ≤ k.kernel.maxCount sem := by
  have hbounds := (conserved_of_inOrder h).bounds sem
  unfold delivered
  omega

end

end Session

end Merlon.Threads
