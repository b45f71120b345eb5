/-
Where every thread is.  A thread runs, is ready, sleeps or waits for one
semaphore, and the ledger of the acquisitions agrees with it: who has called
`AcquireSemaphore` and has not returned, who was granted a unit, and how many
units were granted and released.
-/
import Merlon.Threads.Roster

namespace Merlon.Threads

open List Roster

open Function (update update_self update_apply update_of_ne)

variable {attempt : Option Attempt}

/-- A call of `AcquireSemaphore` that has not returned. -/
structure Attempt where
  sem : Nat
  timeoutMs : Int
  ticket : Nat
  granted : Bool
  deriving DecidableEq

/-- The history of the semaphores. -/
structure Ledger where
  attempt : Nat → Option Attempt
  granted : Nat → Nat
  released : Nat → Nat
  tickets : Nat

/-- A call that has been decided returns the right value. -/
def Settled (attempt : Option Attempt) (thr : Thread) : Prop :=
  ∀ a, attempt = some a → thr.timedOut = !a.granted

/-- A call that waits: undecided, and asleep as well if it has a timeout. -/
structure Undecided (attempt : Option Attempt) (thr : Thread) (asleep : Prop)
    (sem : Nat) : Prop where
  waitsOn : thr.waitingOnSemaphore = some sem
  timedOut : thr.timedOut = false
  call : ∃ a, attempt = some a ∧ a.sem = sem ∧ a.granted = false ∧
    ((a.timeoutMs = -1 ∧ ¬ asleep ∧ thr.state = .waitingForSemaphore) ∨
      (a.timeoutMs ≠ 0 ∧ a.timeoutMs ≠ -1 ∧ asleep ∧ thr.state = .waitingForSemaphoreWithTimeout))

lemma Undecided.not_running {thr : Thread}
    {asleep : Prop} {sem : Nat} (h : Undecided attempt thr asleep sem) : thr.state ≠ .running := by
  obtain ⟨_, _, _, _, ⟨_, _, hstate⟩ | ⟨_, _, _, hstate⟩⟩ := h.call <;> rw [hstate] <;> decide

/-- The thread is in exactly one place. -/
inductive Placed (r : Roster) (attempt : Option Attempt) (thread : Nat) : Prop
  | running (hcurrent : thread = r.currentThread) (hstate : (r.thread thread).state = .running)
      (hready : thread ∉ r.ready) (hsleeping : thread ∉ r.sleeping)
      (hwaiting : ∀ sem, thread ∉ r.waiting sem) (hsettled : Settled attempt (r.thread thread))
  | ready (hready : thread ∈ r.ready) (hsleeping : thread ∉ r.sleeping)
      (hwaiting : ∀ sem, thread ∉ r.waiting sem) (hsettled : Settled attempt (r.thread thread))
  | asleep (hready : thread ∉ r.ready) (hsleeping : thread ∈ r.sleeping)
      (hwaiting : ∀ sem, thread ∉ r.waiting sem) (hstate : (r.thread thread).state = .sleeping)
      (hcall : attempt = none)
  | waiting (sem : Nat) (hready : thread ∉ r.ready) (hwaiting : thread ∈ r.waiting sem)
      (hcall : Undecided attempt (r.thread thread) (thread ∈ r.sleeping) sem)

/-- Who is on a waiting list waits. -/
lemma Placed.waits {r : Roster} {thread sem : Nat} (h : Placed r attempt thread)
    (hmem : thread ∈ r.waiting sem) : thread ∉ r.ready ∧ ∃ sem', thread ∈ r.waiting sem' ∧
    Undecided attempt (r.thread thread) (thread ∈ r.sleeping) sem' := by
  cases h with
  | running _ _ _ _ hnot _ => exact absurd hmem (hnot sem)
  | ready _ _ hnot _ => exact absurd hmem (hnot sem)
  | asleep _ _ hnot _ _ => exact absurd hmem (hnot sem)
  | waiting sem' hready hwaiting hcall => exact ⟨hready, sem', hwaiting, hcall⟩

/-- The thread is where it was, and what its place depends on is the same. -/
structure Unmoved (r r' : Roster) (thread : Nat) : Prop where
  state : (r'.thread thread).state = (r.thread thread).state
  timedOut : (r'.thread thread).timedOut = (r.thread thread).timedOut
  waitsOn : (r'.thread thread).waitingOnSemaphore = (r.thread thread).waitingOnSemaphore
  current : thread = r.currentThread →
    (r.thread thread).state = .running → thread = r'.currentThread
  ready : thread ∈ r'.ready ↔ thread ∈ r.ready
  sleeping : thread ∈ r'.sleeping ↔ thread ∈ r.sleeping
  waiting : ∀ sem, thread ∈ r'.waiting sem ↔ thread ∈ r.waiting sem

lemma Unmoved.of_fields {r r' : Roster} {thread : Nat}
    (hfields : r'.thread thread = r.thread thread) (hcurrent : r'.currentThread = r.currentThread)
    (hready : thread ∈ r'.ready ↔ thread ∈ r.ready)
    (hsleeping : thread ∈ r'.sleeping ↔ thread ∈ r.sleeping)
    (hwaiting : ∀ sem, thread ∈ r'.waiting sem ↔ thread ∈ r.waiting sem) : Unmoved r r' thread :=
  ⟨by rw [hfields], by rw [hfields], by rw [hfields],
    fun heq _ => heq.trans hcurrent.symm, hready, hsleeping, hwaiting⟩

lemma Placed.unmoved {r r' : Roster} {thread : Nat} (hplaced : Placed r attempt thread)
    (hsame : Unmoved r r' thread) : Placed r' attempt thread := by
  have hnowhere (hwaiting : ∀ sem, thread ∉ r.waiting sem) : ∀ sem, thread ∉ r'.waiting sem :=
    fun sem => (hsame.waiting sem).not.mpr (hwaiting sem)
  have hsettled (hold : Settled attempt (r.thread thread)) : Settled attempt (r'.thread thread) :=
    fun a ha => hsame.timedOut.trans (hold a ha)
  cases hplaced with
  | running h₁ h₂ h₃ h₄ h₅ h₆ =>
    exact .running (hsame.current h₁ h₂) (hsame.state.trans h₂)
      (hsame.ready.not.mpr h₃) (hsame.sleeping.not.mpr h₄) (hnowhere h₅) (hsettled h₆)
  | ready h₁ h₂ h₃ h₄ =>
    exact .ready (hsame.ready.mpr h₁) (hsame.sleeping.not.mpr h₂) (hnowhere h₃) (hsettled h₄)
  | asleep h₁ h₂ h₃ h₄ h₅ =>
    exact .asleep (hsame.ready.not.mpr h₁) (hsame.sleeping.mpr h₂)
      (hnowhere h₃) (hsame.state.trans h₄) h₅
  | waiting sem h₁ h₂ h₃ =>
    refine .waiting sem (hsame.ready.not.mpr h₁) ((hsame.waiting sem).mpr h₂)
      ⟨hsame.waitsOn.trans h₃.waitsOn, hsame.timedOut.trans h₃.timedOut, ?_⟩
    rw [hsame.state, hsame.sleeping]
    exact h₃.call

/-- The counts of the semaphores and the order of those who wait. -/
structure Counted (initial : Nat → Int) (r : Roster) (ledger : Ledger) : Prop where
  nonneg : ∀ sem, 0 ≤ r.currentCount sem
  le_max : ∀ sem, r.currentCount sem ≤ r.maxCount sem
  full : ∀ sem, r.waiting sem ≠ [] → r.currentCount sem = r.maxCount sem
  balance : ∀ sem, r.currentCount sem = initial sem + ledger.granted sem - ledger.released sem
  tickets : ∀ thread a, ledger.attempt thread = some a → a.ticket < ledger.tickets
  fifo : ∀ sem, (r.waiting sem).Pairwise fun first second =>
    ∀ a b, ledger.attempt first = some a → ledger.attempt second = some b → a.ticket < b.ticket

/-- The kernel's bookkeeping is in order.  The task switch that a blocked
current thread has postponed always leads to another thread, because the idle
thread is ready when it does not run. -/
structure Orderly (idle : Nat) (initial : Nat → Int) (r : Roster) (ledger : Ledger) : Prop where
  current : r.IsThread r.currentThread
  placed : ∀ thread, r.IsThread thread → Placed r (ledger.attempt thread) thread
  postponed : r.postponedTaskSwitch = false → (r.thread r.currentThread).state = .running
  unready : (r.thread r.currentThread).state = .running → r.currentThread ∉ r.ready
  front : r.ready.head? ≠ some r.currentThread
  idle_ready : r.currentThread ≠ idle → idle ∈ r.ready
  idle_running : r.currentThread = idle → (r.thread r.currentThread).state = .running
  counted : Counted initial r ledger

namespace Ledger

/-- The thread calls `AcquireSemaphore` and gets a unit at once, or not. -/
def call (ledger : Ledger) (thread sem : Nat) (timeoutMs : Int) (granted : Bool) : Ledger where
  attempt := update ledger.attempt thread (some ⟨sem, timeoutMs, ledger.tickets, granted⟩)
  granted := update ledger.granted sem (ledger.granted sem + granted.toNat)
  released := ledger.released
  tickets := ledger.tickets + 1

/-- The thread returns from `AcquireSemaphore`. -/
def return_ (ledger : Ledger) (thread : Nat) : Ledger :=
  { ledger with attempt := update ledger.attempt thread none }

/-- A release hands its unit to the woken threads. -/
def handOver (ledger : Ledger) (sem : Nat) (woken : List Nat) : Ledger :=
  { ledger with
    attempt := fun thread =>
      if thread ∈ woken then
        (ledger.attempt thread).map (fun a => { a with granted := true })
      else ledger.attempt thread
    granted := update ledger.granted sem (ledger.granted sem + woken.length)
    released := update ledger.released sem (ledger.released sem + 1) }

end Ledger

namespace Counted

variable {initial : Nat → Int} {r r' : Roster} {ledger ledger' : Ledger}

section

variable (h : Counted initial r ledger)
include h

/-- `AcquireSemaphore` counts a unit up, or queues the thread behind those who
came before. -/
lemma call {thread sem : Nat} {timeoutMs : Int} {granted : Bool}
    (hnot : ∀ sem, thread ∉ r.waiting sem)
    (hcount : r'.currentCount = update r.currentCount sem (r.currentCount sem + granted.toNat))
    (hmax : r'.maxCount = r.maxCount) (hroom : r.currentCount sem + granted.toNat ≤ r.maxCount sem)
    (hwaiting : ∀ sem', r'.waiting sem' = r.waiting sem' ∨
      (sem' = sem ∧ r'.waiting sem' = r.waiting sem' ++ [thread] ∧
        granted = false ∧ r.currentCount sem = r.maxCount sem)) :
    Counted initial r' (ledger.call thread sem timeoutMs granted) where
  nonneg sem' := by
    have hold := h.nonneg sem'
    rw [hcount, update_apply]
    split
    · subst sem'
      omega
    · exact hold
  le_max sem' := by
    rw [hcount, hmax, update_apply]
    split
    · subst sem'
      exact hroom
    · exact h.le_max sem'
  full sem' hne := by
    rw [hcount, hmax, update_apply]
    rcases hwaiting sem' with hsame | ⟨rfl, _, rfl, hfull⟩
    · have hfull := h.full sem' (hsame ▸ hne)
      split
      · subst sem'
        omega
      · exact hfull
    · simpa using hfull
  balance sem' := by
    have hold := h.balance sem'
    rw [hcount, Ledger.call]
    simp only [update_apply]
    split
    · subst sem'
      omega
    · exact hold
  tickets other a ha := by
    simp only [Ledger.call, update_apply] at ha ⊢
    split at ha
    · cases ha
      exact Nat.lt_succ_self _
    · exact Nat.lt_succ_of_lt (h.tickets other a ha)
  fifo sem' := by
    have hold : (r.waiting sem').Pairwise fun first second => ∀ a b,
        (ledger.call thread sem timeoutMs granted).attempt first = some a →
        (ledger.call thread sem timeoutMs granted).attempt second = some b →
        a.ticket < b.ticket := by
      refine (h.fifo sem').imp_of_mem ?_
      intro first second hfirst hsecond hlt a b ha hb
      have hne₁ : first ≠ thread := fun heq => hnot sem' (heq ▸ hfirst)
      have hne₂ : second ≠ thread := fun heq => hnot sem' (heq ▸ hsecond)
      simp only [Ledger.call, update_of_ne hne₁] at ha
      simp only [Ledger.call, update_of_ne hne₂] at hb
      exact hlt a b ha hb
    rcases hwaiting sem' with hsame | ⟨_, hsnoc, _, _⟩
    · rw [hsame]
      exact hold
    · rw [hsnoc, pairwise_append]
      refine ⟨hold, pairwise_singleton _ _, ?_⟩
      intro first hfirst second hsecond a b ha hb
      rw [mem_singleton] at hsecond
      subst hsecond
      have hne : first ≠ second := fun heq => hnot sem' (heq ▸ hfirst)
      simp only [Ledger.call, update_of_ne hne] at ha
      simp only [Ledger.call, update_self, Option.some.injEq] at hb
      subst hb
      exact h.tickets first a ha

/-- A step that changes no count and lets nobody jump a queue. -/
lemma keep (hcount : r'.currentCount = r.currentCount)
    (hmax : r'.maxCount = r.maxCount) (hwaiting : ∀ sem, (r'.waiting sem).Sublist (r.waiting sem))
    (hbalance : ∀ sem, (ledger'.granted sem : Int) - ledger'.released sem =
      ledger.granted sem - ledger.released sem) (htickets : ledger'.tickets = ledger.tickets)
    (hattempt : ∀ thread a, ledger'.attempt thread = some a →
      ∃ b, ledger.attempt thread = some b ∧ b.ticket = a.ticket) : Counted initial r' ledger' where
  nonneg sem := hcount ▸ h.nonneg sem
  le_max sem := hcount ▸ hmax ▸ h.le_max sem
  full sem hne := by
    rw [hcount, hmax]
    refine h.full sem ?_
    rintro hnil
    exact hne (sublist_nil.mp (hnil ▸ hwaiting sem))
  balance sem := by
    have hold := h.balance sem
    have hdiff := hbalance sem
    rw [hcount]
    omega
  tickets thread a ha := by
    obtain ⟨b, hb, hticket⟩ := hattempt thread a ha
    rw [htickets, ← hticket]
    exact h.tickets thread b hb
  fifo sem := by
    refine ((h.fifo sem).sublist (hwaiting sem)).imp ?_
    intro first second hlt a b ha hb
    obtain ⟨a', ha', hfirst⟩ := hattempt first a ha
    obtain ⟨b', hb', hsecond⟩ := hattempt second b hb
    rw [← hfirst, ← hsecond]
    exact hlt a' b' ha' hb'

/-- `ReleaseSemaphore` counts down if nobody waits. -/
lemma giveBack {sem : Nat} (hcount : 0 < r.currentCount sem) (hwaiting : r.waiting sem = []) :
    Counted initial (r.setCurrentCount sem (r.currentCount sem - 1)) (ledger.handOver sem []) where
  nonneg sem' := by
    have hold := h.nonneg sem'
    simp only [setCurrentCount, Core.setCurrentCount, update_apply]
    split <;> omega
  le_max sem' := by
    have hold := h.le_max sem'
    simp only [setCurrentCount, Core.setCurrentCount, update_apply]
    split
    · subst sem'
      omega
    · exact hold
  full sem' hne := by
    have hsem : sem' ≠ sem := by
      rintro rfl
      exact hne hwaiting
    simp only [setCurrentCount, Core.setCurrentCount, update_of_ne hsem]
    exact h.full sem' hne
  balance sem' := by
    have hold := h.balance sem'
    simp only [setCurrentCount, Core.setCurrentCount, Ledger.handOver,
      update_apply, length_nil]
    split
    · subst sem'
      omega
    · exact hold
  tickets := by simpa [Ledger.handOver] using h.tickets
  fifo := by simpa [Ledger.handOver, setCurrentCount] using h.fifo

end

end Counted

namespace Orderly

variable {idle : Nat} {initial : Nat → Int} {r : Roster} {ledger : Ledger}

/-- A running current thread is on no list, and its calls are decided. -/
lemma free (h : Orderly idle initial r ledger)
    (hstate : (r.thread r.currentThread).state = .running) : r.Free := by
  refine ⟨h.current, hstate, ?_, ?_⟩ <;> cases h.placed r.currentThread h.current with
    | running _ _ _ hsleeping hwaiting _ => assumption
    | ready hready _ _ _ => exact absurd hready (h.unready hstate)
    | asleep _ _ _ hother _ => rw [hstate] at hother; cases hother
    | waiting _ _ _ hcall => exact absurd hstate hcall.not_running

lemma wakeable (h : Orderly idle initial r ledger)
    (hthread : ∀ thread ∈ r.sleeping, r.IsThread thread) : r.Wakeable := by
  intro thread hmem
  cases h.placed thread (hthread thread hmem) with
  | running _ _ _ hsleeping _ _ => exact absurd hmem hsleeping
  | ready _ hsleeping _ _ => exact absurd hmem hsleeping
  | asleep hready _ _ hstate _ =>
    refine ⟨hready, ?_⟩
    intro htimed
    rw [hstate] at htimed
    cases htimed
  | waiting sem hready hwaiting hcall => exact ⟨hready, fun _ => ⟨sem, hcall.waitsOn, hwaiting⟩⟩

variable {sem thread : Nat} {r' : Roster}

section

variable (h : Orderly idle initial r ledger)
include h

lemma waiting_notMem_ready
    (hthread : r.IsThread thread) (hmem : thread ∈ r.waiting sem) : thread ∉ r.ready :=
  ((h.placed thread hthread).waits hmem).1

/-- A step in which only the current thread changes its place, and does not
become ready. -/
lemma act {ledger' : Ledger} (hcurrent : r'.currentThread = r.currentThread)
    (hcount : r'.threadCount = r.threadCount) (hready : r'.ready = r.ready)
    (hothers : ∀ thread, thread ≠ r.currentThread →
      Unmoved r r' thread ∧ ledger'.attempt thread = ledger.attempt thread)
    (hplaced : Placed r' (ledger'.attempt r.currentThread) r.currentThread)
    (hstate : (r'.thread r.currentThread).state = .running →
      (r.thread r.currentThread).state = .running)
    (hpostponed : r'.postponedTaskSwitch = false → (r'.thread r.currentThread).state = .running)
    (hidle : r.currentThread = idle → (r'.thread r.currentThread).state = .running)
    (hcounted : Counted initial r' ledger') : Orderly idle initial r' ledger' where
  current := by
    rw [Core.IsThread, hcount, hcurrent]
    exact h.current
  placed thread hthread := by
    by_cases hsame : thread = r.currentThread
    · rw [hsame]
      exact hplaced
    · rw [Core.IsThread, hcount] at hthread
      obtain ⟨hunmoved, hattempt⟩ := hothers thread hsame
      rw [hattempt]
      exact (h.placed thread hthread).unmoved hunmoved
  postponed := by rwa [hcurrent]
  unready := by
    rw [hcurrent, hready]
    exact fun hrunning => h.unready (hstate hrunning)
  front := by
    rw [hcurrent, hready]
    exact h.front
  idle_ready := by
    rw [hcurrent, hready]
    exact h.idle_ready
  idle_running := by rwa [hcurrent]
  counted := hcounted

/-- A blocked thread becomes ready. -/
lemma makeReady
    {ledger' : Ledger} (hthread : r.IsThread thread) (hblocked : (r.thread thread).state ≠ .running)
    (hcurrent : r'.currentThread = r.currentThread) (hcount : r'.threadCount = r.threadCount)
    (hpostponed : r'.postponedTaskSwitch = r.postponedTaskSwitch)
    (hready : r'.ready = r.ready ++ [thread])
    (hothers : ∀ other, other ≠ thread →
      Unmoved r r' other ∧ ledger'.attempt other = ledger.attempt other)
    (hstate : (r'.thread thread).state ≠ .running)
    (hplaced : Placed r' (ledger'.attempt thread) thread) (hcounted : Counted initial r' ledger') :
    Orderly idle initial r' ledger' where
  current := by
    rw [Core.IsThread, hcount, hcurrent]
    exact h.current
  placed other hother := by
    by_cases hsame : other = thread
    · rw [hsame]
      exact hplaced
    · rw [Core.IsThread, hcount] at hother
      obtain ⟨hunmoved, hattempt⟩ := hothers other hsame
      rw [hattempt]
      exact (h.placed other hother).unmoved hunmoved
  postponed hclear := by
    have hrunning := h.postponed (hpostponed ▸ hclear)
    have hne : r.currentThread ≠ thread := by
      rintro rfl
      exact hblocked hrunning
    rw [hcurrent, (hothers r.currentThread hne).1.state]
    exact hrunning
  unready hrunning := by
    rw [hcurrent] at hrunning ⊢
    have hne : r.currentThread ≠ thread := by
      rintro heq
      exact hstate (heq ▸ hrunning)
    rw [(hothers r.currentThread hne).1.state] at hrunning
    simpa [hready, hne] using h.unready hrunning
  front := by
    rw [hcurrent, hready]
    cases hlist : r.ready with
    | nil =>
      -- Nobody else is ready, so the idle thread runs.
      have hcurrentIdle : r.currentThread = idle := by
        by_contra hne
        simpa [hlist] using h.idle_ready hne
      have hne : thread ≠ r.currentThread := by
        rintro rfl
        exact hblocked (h.idle_running hcurrentIdle)
      simpa using hne
    | cons head tail =>
      have hfront := h.front
      rw [hlist] at hfront
      exact hfront
  idle_ready hne := by
    rw [hcurrent] at hne
    rw [hready]
    exact mem_append_left _ (h.idle_ready hne)
  idle_running heq := by
    rw [hcurrent] at heq ⊢
    have hrunning := h.idle_running heq
    have hne : r.currentThread ≠ thread := by
      rintro rfl
      exact hblocked hrunning
    rw [(hothers r.currentThread hne).1.state]
    exact hrunning
  counted := hcounted

end

section

variable (h : Orderly idle initial r ledger)

include h

section

variable (hstate : (r.thread r.currentThread).state = .running)

include hstate

/-- The current thread changes its own fields and stays where it is. -/
lemma acquire_running (sem : Nat) (timeoutMs : Int) {granted : Bool} (change : Thread → Thread)
    (hchange : ∀ thr, (change thr).state = thr.state)
    (htimedOut : ∀ thr, (change thr).timedOut = !granted)
    (hthread : r'.thread = update r.thread r.currentThread (change (r.thread r.currentThread)))
    (hcurrent : r'.currentThread = r.currentThread) (hthreads : r'.threadCount = r.threadCount)
    (hready : r'.ready = r.ready) (hsleeping : r'.sleeping = r.sleeping)
    (hwaiting : r'.waiting = r.waiting)
    (hcount : r'.currentCount = update r.currentCount sem (r.currentCount sem + granted.toNat))
    (hmax : r'.maxCount = r.maxCount)
    (hroom : r.currentCount sem + granted.toNat ≤ r.maxCount sem) :
    Orderly idle initial r' (ledger.call r.currentThread sem timeoutMs granted) := by
  have hfree := h.free hstate
  have hself : r'.thread r.currentThread = change (r.thread r.currentThread) := by
    rw [hthread, update_self]
  have hrunning : (r'.thread r.currentThread).state = .running := by rw [hself, hchange, hstate]
  refine h.act hcurrent hthreads hready ?_ ?_ (fun _ => hstate)
    (fun _ => hrunning) (fun _ => hrunning)
    (h.counted.call hfree.waiting hcount hmax hroom (fun sem' => .inl (by rw [hwaiting])))
  · intro other hne
    refine ⟨.of_fields ?_ hcurrent ?_ ?_ ?_, update_of_ne hne _ _⟩
    · rw [hthread, update_of_ne hne]
    · rw [hready]
    · rw [hsleeping]
    · rw [hwaiting]
      exact fun _ => Iff.rfl
  · refine .running hcurrent.symm hrunning ?_ ?_ ?_ ?_
    · rw [hready]
      exact h.unready hstate
    · rw [hsleeping]
      exact hfree.sleeping
    · rw [hwaiting]
      exact hfree.waiting
    · intro a ha
      simp only [Ledger.call, update_self, Option.some.injEq] at ha
      rw [hself, htimedOut, ← ha]

/-- The current thread queues up behind those who wait. -/
lemma acquire_waits (hidle : r.currentThread ≠ idle) {timeoutMs : Int}
    (thr' : Thread) (hthread : r'.thread = update r.thread r.currentThread thr')
    (hcurrent : r'.currentThread = r.currentThread)
    (hthreads : r'.threadCount = r.threadCount) (hready : r'.ready = r.ready)
    (hpostponed : r'.postponedTaskSwitch = true)
    (hsleeping : ∀ other, other ≠ r.currentThread → (other ∈ r'.sleeping ↔ other ∈ r.sleeping))
    (hwaiting : r'.waiting = update r.waiting sem (r.waiting sem ++ [r.currentThread]))
    (hcount : r'.currentCount = r.currentCount) (hmax : r'.maxCount = r.maxCount)
    (hfull : r.currentCount sem = r.maxCount sem)
    (hcall : Undecided (some ⟨sem, timeoutMs, ledger.tickets, false⟩) thr'
      (r.currentThread ∈ r'.sleeping) sem) :
    Orderly idle initial r' (ledger.call r.currentThread sem timeoutMs false) := by
  have hfree := h.free hstate
  have hself : r'.thread r.currentThread = thr' := by rw [hthread, update_self]
  refine h.act hcurrent hthreads hready ?_ ?_ (fun _ => hstate) ?_
    (fun heq => absurd heq hidle) (h.counted.call hfree.waiting ?_ hmax ?_ ?_)
  · intro other hne
    refine ⟨.of_fields ?_ hcurrent ?_ (hsleeping other hne) ?_, update_of_ne hne _ _⟩
    · rw [hthread, update_of_ne hne]
    · rw [hready]
    · intro sem'
      rw [hwaiting, update_apply]
      split
      · subst sem'
        simp [hne]
      · rfl
  · refine .waiting sem ?_ ?_ ?_
    · rw [hready]
      exact h.unready hstate
    · rw [hwaiting]
      simp
    · rw [hself]
      simpa [Ledger.call] using hcall
  · rw [hpostponed]
    simp
  · rw [hcount]
    simp
  · simp [hfull]
  · intro sem'
    rw [hwaiting, update_apply]
    split
    · subst sem'
      exact .inr ⟨rfl, rfl, rfl, hfull⟩
    · exact .inl rfl

lemma acquire (hidle : r.currentThread ≠ idle) (sem : Nat) (timeoutMs : Int) :
    Orderly idle initial (r.acquire sem timeoutMs)
      (ledger.call r.currentThread sem timeoutMs
        (decide (r.currentCount sem < r.maxCount sem))) := by
  have hle := h.counted.le_max sem
  rw [Roster.acquire]
  split
  · rename_i hroom
    have hroom : r.currentCount sem < r.maxCount sem := hroom
    rw [decide_eq_true hroom]
    refine h.acquire_running hstate sem timeoutMs (fun thr => { thr with timedOut := false })
      (fun _ => rfl) (fun _ => rfl) rfl rfl rfl rfl rfl rfl rfl rfl ?_
    show r.currentCount sem + 1 ≤ r.maxCount sem
    omega
  · rename_i hroom
    have hroom : ¬ r.currentCount sem < r.maxCount sem := hroom
    have hfull : r.currentCount sem = r.maxCount sem := by omega
    rw [decide_eq_false hroom]
    split
    · refine h.acquire_running hstate sem timeoutMs (fun thr => { thr with
          timedOut := true
          waitingOnSemaphore := some sem }) (fun _ => rfl) (fun _ => rfl)
        ?_ rfl rfl rfl rfl rfl ?_ rfl ?_
      · simp [Roster.modifyThread, Core.modifyThread]
      · simp [Roster.modifyThread, Core.modifyThread]
      · simp [hle]
    · rename_i hzero
      split
      · rename_i hforever
        refine h.acquire_waits hstate hidle { r.thread r.currentThread with
            timedOut := false
            waitingOnSemaphore := some sem
            state := .waitingForSemaphore }
          ?_ rfl rfl rfl rfl (fun _ _ => Iff.rfl) rfl rfl rfl hfull ?_
        · simp [Roster.block, Core.block, Roster.wait, Roster.setWaiting,
            Roster.modifyThread, Core.modifyThread]
        · refine ⟨rfl, rfl, _, rfl, rfl, rfl, .inl ⟨hforever, ?_, rfl⟩⟩
          exact (h.free hstate).sleeping
      · rename_i hforever
        refine h.acquire_waits hstate hidle { r.thread r.currentThread with
            timedOut := false
            waitingOnSemaphore := some sem
            sleepExpiry := r.expiryAfter timeoutMs
            state := .waitingForSemaphoreWithTimeout }
          ?_ rfl rfl rfl rfl ?_ rfl rfl rfl hfull ?_
        · simp [Roster.block, Core.block, Roster.wait, Roster.setWaiting,
            Roster.queueForSleep, Roster.modifyThread, Core.modifyThread]
          rfl
        · intro other hne
          simp [Roster.block, Roster.queueForSleep, Roster.modifyThread,
            Roster.wait, Roster.setWaiting, hne]
        · refine ⟨rfl, rfl, _, rfl, rfl, rfl, .inr ⟨hzero, hforever, ?_, rfl⟩⟩
          simp [Roster.block, Roster.queueForSleep]

end

lemma return_ (hpostponed : r.postponedTaskSwitch = false) :
    Orderly idle initial r (ledger.return_ r.currentThread) := by
  have hstate := h.postponed hpostponed
  have hfree := h.free hstate
  refine h.act rfl rfl rfl ?_ ?_ id (fun _ => hstate) (fun _ => hstate)
    (h.counted.keep rfl rfl (fun _ => Sublist.refl _) (fun _ => rfl) rfl ?_)
  · intro other hne
    exact ⟨.of_fields rfl rfl Iff.rfl Iff.rfl (fun _ => Iff.rfl), update_of_ne hne _ _⟩
  · refine .running rfl hstate (h.unready hstate) hfree.sleeping hfree.waiting ?_
    intro a ha
    simp [Ledger.return_] at ha
  · intro thread a ha
    simp only [Ledger.return_, update_apply] at ha
    split at ha
    · cases ha
    · exact ⟨a, ha, rfl⟩

lemma sleepUntil (hstate : (r.thread r.currentThread).state = .running)
    (hidle : r.currentThread ≠ idle) (hcall : ledger.attempt r.currentThread = none)
    (systemTimeNs : Nat) : Orderly idle initial (r.sleepUntil systemTimeNs) ledger := by
  have hfree := h.free hstate
  rw [Roster.sleepUntil]
  split
  · exact h
  · refine h.act rfl rfl rfl ?_ ?_ (fun _ => hstate) (fun hclear => by cases hclear)
      (fun heq => absurd heq hidle)
      (h.counted.keep rfl rfl (fun _ => Sublist.refl _) (fun _ => rfl) rfl
        (fun _ a ha => ⟨a, ha, rfl⟩))
    · intro other hne
      refine ⟨.of_fields ?_ rfl Iff.rfl ?_ (fun _ => Iff.rfl), rfl⟩
      · simp [Roster.block, Core.block, Roster.queueForSleep,
          Roster.modifyThread, Core.modifyThread, hne]
      · simp [Roster.block, Roster.queueForSleep, Roster.modifyThread, hne]
    · refine .asleep (h.unready hstate) ?_ hfree.waiting ?_ hcall
      · simp [Roster.block, Roster.queueForSleep]
      · simp [Roster.block, Core.block, Roster.queueForSleep,
          Roster.modifyThread, Core.modifyThread]

/-- A change that no place depends on. -/
lemma ofUnmoved {ledger' : Ledger} (hcurrent : r'.currentThread = r.currentThread)
    (hthreads : r'.threadCount = r.threadCount) (hready : r'.ready = r.ready)
    (hpostponed : r'.postponedTaskSwitch = r.postponedTaskSwitch)
    (hunmoved : ∀ thread, Unmoved r r' thread)
    (hattempt : ∀ thread, ledger'.attempt thread = ledger.attempt thread)
    (hcounted : Counted initial r' ledger') : Orderly idle initial r' ledger' := by
  have hstate := (hunmoved r.currentThread).state
  refine h.act hcurrent hthreads hready
    (fun thread _ => ⟨hunmoved thread, hattempt thread⟩) ?_ ?_ ?_ ?_ hcounted
  · rw [hattempt]
    exact (h.placed _ h.current).unmoved (hunmoved _)
  · rw [hstate]
    exact id
  · rw [hstate, hpostponed]
    exact h.postponed
  · rw [hstate]
    exact h.idle_running

end

variable {s : State}

/-- A thread taken off the waiting list of the semaphore it waits for is on no
waiting list. -/
lemma notMem_update_erase (hrep : Represents s r) (hmem : thread ∈ r.waiting sem) (sem' : Nat) :
    thread ∉ update r.waiting sem ((r.waiting sem).erase thread) sem' := by
  rw [update_apply]
  split
  · exact (hrep.waiting sem).nodup.not_mem_erase
  · rename_i hne
    exact fun hin => hne (hrep.apart sem' sem thread hin hmem)

lemma update_erase_sublist (r : Roster) (sem thread sem' : Nat) :
    (update r.waiting sem ((r.waiting sem).erase thread) sem').Sublist (r.waiting sem') := by
  rw [update_apply]
  split
  · subst sem'
    exact erase_sublist
  · exact Sublist.refl _

section

variable (h : Orderly idle initial r ledger)

include h

section

variable (hrep : Represents s r)

include hrep

/-- A sleeper that is woken leaves every waiting list, without a unit. -/
lemma wake_waiting (hmem : thread ∈ r.sleeping) : (r.thread thread).state ≠ .running ∧
    (∀ a, ledger.attempt thread = some a → a.granted = false) ∧
    (∀ sem, thread ∉ (r.wake thread).waiting sem) ∧
    (∀ sem, ((r.wake thread).waiting sem).Sublist (r.waiting sem)) := by
  cases h.placed thread (hrep.sleeping_isThread thread hmem) with
  | running _ _ _ hsleeping _ _ => exact absurd hmem hsleeping
  | ready _ hsleeping _ _ => exact absurd hmem hsleeping
  | asleep _ _ hwaiting hstate hcall =>
    rw [r.wake_waiting_of_ne (by rw [hstate]; decide), hcall, hstate]
    exact ⟨by decide, by simp, hwaiting, fun _ => Sublist.refl _⟩
  | waiting sem _ hwaiting hcall =>
    obtain ⟨a, ha, _, hgranted, ⟨_, hnot, _⟩ | ⟨_, _, _, hstate⟩⟩ := hcall.call
    · exact absurd hmem hnot
    · rw [r.wake_waiting_of_eq hstate hcall.waitsOn, hstate, ha]
      refine ⟨by decide, ?_, notMem_update_erase hrep hwaiting, update_erase_sublist r sem thread⟩
      rintro _ ⟨⟩
      exact hgranted

/-- A sleeper whose time has come gives up waiting. -/
lemma wake (hmem : thread ∈ r.sleeping) : Orderly idle initial (r.wake thread) ledger := by
  obtain ⟨hblocked, hrefused, hwaiting, hshrink⟩ := h.wake_waiting hrep hmem
  have hcore := r.wake_toCore thread
  have hfields : (r.wake thread).thread thread = { r.thread thread with
        timedOut := true
        timedOutDueToSignal := (r.thread thread).signalIntr } := by
    rw [hcore]
    exact update_self _ _ _
  refine h.makeReady (hrep.sleeping_isThread thread hmem) hblocked
    (by rw [hcore]; rfl) (by rw [hcore]; rfl) (by rw [hcore]; rfl)
    (r.wake_ready thread) ?_ (by rw [hfields]; exact hblocked) ?_
    (h.counted.keep (by rw [hcore]; rfl) (by rw [hcore]; rfl) hshrink
      (fun _ => rfl) rfl (fun _ a ha => ⟨a, ha, rfl⟩))
  · intro other hne
    refine ⟨.of_fields (r.wake_thread_of_ne hne) (by rw [hcore]; rfl) ?_ ?_ ?_, rfl⟩
    · simp [hne]
    · rw [r.wake_sleeping]
      exact mem_erase_of_ne hne
    · intro sem
      exact mem_unblock_waiting _ hne
  · refine .ready (by simp) ?_ hwaiting ?_
    · rw [r.wake_sleeping]
      exact hrep.sleeping.nodup.not_mem_erase
    · intro a ha
      rw [hfields, hrefused a ha]
      rfl

lemma wakeAll {time : Nat} {due : List Nat} (hdue : r.due time = due) :
    Orderly idle initial (due.foldl Roster.wake r) ledger := by
  induction due generalizing r s with
  | nil => exact h
  | cons thread rest ih =>
    have hmem : thread ∈ r.sleeping := by
      have hin : thread ∈ r.due time := by simp [hdue]
      exact (mem_filter.mp hin).1
    obtain ⟨hready, hcancel⟩ := h.wakeable hrep.sleeping_isThread thread hmem
    obtain ⟨s', _, hrep'⟩ := hrep.wake hmem hready hcancel
    exact ih (h.wake hrep hmem) hrep' (Roster.due_wake hrep.sleeping.nodup hdue)

lemma wakeups : Orderly idle initial r.wakeups ledger := h.wakeAll hrep rfl

end

/-- A unit nobody waits for goes back. -/
lemma release_unclaimed (hcount : 0 < r.currentCount sem) (hwaiting : r.waiting sem = []) :
    Orderly idle initial (r.setCurrentCount sem (r.currentCount sem - 1))
      (ledger.handOver sem []) := by
  refine h.ofUnmoved rfl rfl rfl rfl
    (fun _ => .of_fields rfl rfl Iff.rfl Iff.rfl (fun _ => Iff.rfl))
    (fun _ => by simp [Ledger.handOver]) (h.counted.giveBack hcount hwaiting)

section

variable (hrep : Represents s r) {rest : List Nat}

include hrep

/-- The first in the queue becomes ready and holds the unit. -/
lemma handOver {top : Nat} (hwaiting : r.waiting sem = top :: rest)
    (htimedOut : (r'.thread top).timedOut = (r.thread top).timedOut)
    (hstate : (r'.thread top).state ≠ .running)
    (hothers : ∀ other, other ≠ top → r'.thread other = r.thread other)
    (hcurrent : r'.currentThread = r.currentThread) (hthreads : r'.threadCount = r.threadCount)
    (hpostponed : r'.postponedTaskSwitch = r.postponedTaskSwitch)
    (hcount : r'.currentCount = r.currentCount) (hmax : r'.maxCount = r.maxCount)
    (hready : r'.ready = r.ready ++ [top]) (hsleeping : r'.sleeping = r.sleeping.erase top)
    (hrest : r'.waiting = update r.waiting sem rest) :
    Orderly idle initial r' (ledger.handOver sem [top]) := by
  have hmem : top ∈ r.waiting sem := by simp [hwaiting]
  have herase : rest = (r.waiting sem).erase top := by rw [hwaiting, erase_cons_head]
  rw [herase] at hrest
  have hthread := hrep.waiting_isThread sem top hmem
  obtain ⟨_, _, _, hcall⟩ := (h.placed top hthread).waits hmem
  refine h.makeReady hthread hcall.not_running hcurrent hthreads hpostponed hready ?_ hstate ?_
    (h.counted.keep hcount hmax ?_ ?_ rfl ?_)
  · intro other hne
    refine ⟨.of_fields (hothers other hne) hcurrent ?_ ?_ ?_, ?_⟩
    · simp [hready, hne]
    · rw [hsleeping]
      exact mem_erase_of_ne hne
    · intro sem'
      rw [hrest, update_apply]
      split
      · subst sem'
        exact mem_erase_of_ne hne
      · rfl
    · simp [Ledger.handOver, hne]
  · refine .ready (by simp [hready]) ?_ ?_ ?_
    · rw [hsleeping]
      exact hrep.sleeping.nodup.not_mem_erase
    · rw [hrest]
      exact notMem_update_erase hrep hmem
    · intro a ha
      simp only [Ledger.handOver, mem_singleton, if_true, Option.map_eq_some_iff] at ha
      obtain ⟨_, _, rfl⟩ := ha
      rw [htimedOut, hcall.timedOut]
      rfl
  · rw [hrest]
    exact update_erase_sublist r sem top
  · intro sem'
    simp only [Ledger.handOver, update_apply, length_singleton]
    split
    · subst sem'
      omega
    · rfl
  · intro thread a ha
    simp only [Ledger.handOver] at ha
    split at ha
    · obtain ⟨b, hb, rfl⟩ := Option.map_eq_some_iff.mp ha
      exact ⟨b, hb, rfl⟩
    · exact ⟨a, ha, rfl⟩

/-- A unit somebody waits for is handed to the first in the queue. -/
lemma release_claimed {top : Nat} (hwaiting : r.waiting sem = top :: rest) :
    Orderly idle initial (r.release sem) (ledger.handOver sem [top]) ∧
    (r.release sem).ready = r.ready ++ [top] := by
  have hmem : top ∈ r.waiting sem := by simp [hwaiting]
  obtain ⟨_, _, _, hcall⟩ := (h.placed top (hrep.waiting_isThread sem top hmem)).waits hmem
  obtain ⟨_, _, _, _, ⟨_, hnot, hstate⟩ | ⟨_, _, hasleep, hstate⟩⟩ := hcall.call
  · rw [Roster.release_untimed hwaiting (by rw [hstate]; decide)]
    exact ⟨h.handOver hrep hwaiting rfl (ne_of_eq_of_ne hstate (by decide))
      (fun _ _ => rfl) rfl rfl rfl rfl rfl rfl (erase_of_not_mem hnot).symm rfl, rfl⟩
  · rw [Roster.release_timed hwaiting hstate hasleep]
    refine ⟨h.handOver hrep hwaiting ?_ ?_
      (fun _ hother => update_of_ne hother _ _) rfl rfl rfl rfl rfl rfl rfl rfl, rfl⟩ <;>
      simp [Roster.insertReady, Roster.modifyThread, Core.modifyThread,
        Roster.deleteSleeping, Roster.setWaiting]

/-- A release wakes the first in the queue and nobody else. -/
lemma release (hcount : 0 < r.currentCount sem) :
    Orderly idle initial (r.release sem) (ledger.handOver sem (r.waiting sem).head?.toList) ∧
    (r.release sem).ready = r.ready ++ (r.waiting sem).head?.toList := by
  cases hwaiting : r.waiting sem with
  | nil =>
    rw [Roster.release_unclaimed hwaiting]
    exact ⟨h.release_unclaimed hcount hwaiting, (append_nil _).symm⟩
  | cons top rest => exact h.release_claimed hrep hwaiting

/-- The first ready thread runs, and the old one is ready if it was not
blocked. -/
lemma switchTo {new : Nat} {tail : List Nat} (hnew : r.ready = new :: tail)
    (hthread : r'.thread = update r.thread new { r.thread new with state := .running })
    (hcurrent : r'.currentThread = new) (hthreads : r'.threadCount = r.threadCount)
    (hready : ∀ thread, thread ∈ r'.ready ↔ thread ∈ tail ∨
      (thread = r.currentThread ∧ (r.thread r.currentThread).state = .running))
    (hsleeping : r'.sleeping = r.sleeping) (hwaiting : r'.waiting = r.waiting)
    (hcount : r'.currentCount = r.currentCount)
    (hmax : r'.maxCount = r.maxCount) : Orderly idle initial r' ledger := by
  have hmem : new ∈ r.ready := by simp [hnew]
  have hne : new ≠ r.currentThread := by
    rintro rfl
    exact h.front (by simp [hnew])
  have hgone : new ∉ r'.ready := by
    rw [hready]
    rintro (htail | ⟨heq, _⟩)
    · exact (nodup_cons.mp (hnew ▸ hrep.ready.nodup)).1 htail
    · exact hne heq
  have hself : r'.thread new = { r.thread new with state := .running } := by
    rw [hthread, update_self]
  have hrunning : (r'.thread r'.currentThread).state = .running := by rw [hcurrent, hself]
  refine ⟨?_, ?_, fun _ => hrunning, fun _ => hcurrent ▸ hgone, ?_, ?_, fun _ => hrunning,
    h.counted.keep hcount hmax ?_ (fun _ => rfl) rfl (fun _ a ha => ⟨a, ha, rfl⟩)⟩
  · rw [Core.IsThread, hthreads, hcurrent]
    exact hrep.ready_isThread new hmem
  · intro thread hisThread
    rw [Core.IsThread, hthreads] at hisThread
    have hold := h.placed thread hisThread
    by_cases hsame : thread = new
    · subst hsame
      cases hold with
      | running _ _ hnot _ _ _ => exact absurd hmem hnot
      | ready _ h₁ h₂ hsettled =>
        refine .running hcurrent.symm (by rw [hself]) hgone (hsleeping ▸ h₁) (hwaiting ▸ h₂) ?_
        intro a ha
        rw [hself]
        exact hsettled a ha
      | asleep hnot _ _ _ _ => exact absurd hmem hnot
      | waiting _ hnot _ _ => exact absurd hmem hnot
    · have hfields : r'.thread thread = r.thread thread := by rw [hthread, update_of_ne hsame]
      by_cases hold' : thread = r.currentThread ∧ (r.thread r.currentThread).state = .running
      · obtain ⟨rfl, hstate⟩ := hold'
        have hin : r.currentThread ∈ r'.ready := (hready _).mpr (.inr ⟨rfl, hstate⟩)
        cases hold with
        | running _ _ _ h₁ h₂ hsettled =>
          exact .ready hin (hsleeping ▸ h₁) (hwaiting ▸ h₂) (hfields ▸ hsettled)
        | ready hnot _ _ _ => exact absurd hnot (h.unready hstate)
        | asleep _ hnot _ _ _ => exact absurd hnot (h.free hstate).sleeping
        | waiting sem _ hnot _ => exact absurd hnot ((h.free hstate).waiting sem)
      · refine hold.unmoved ⟨by rw [hfields], by rw [hfields],
          by rw [hfields], ?_, ?_, by rw [hsleeping], by simp [hwaiting]⟩
        · rintro rfl hstate
          exact absurd ⟨rfl, hstate⟩ hold'
        · rw [hready, hnew]
          simp [hold', hsame]
  · intro hhead
    exact hgone (hcurrent ▸ mem_of_mem_head? hhead)
  · rw [hcurrent]
    intro hidle
    rw [hready]
    by_cases holdIdle : r.currentThread = idle
    · exact .inr ⟨holdIdle.symm, h.idle_running holdIdle⟩
    · have hin := h.idle_ready holdIdle
      rw [hnew, mem_cons] at hin
      exact .inl (hin.resolve_left (Ne.symm hidle))
  · intro sem
    rw [hwaiting]

lemma schedule : Orderly idle initial r.schedule ledger := by
  rw [Roster.schedule, Roster.scheduleWithLockHeld]
  cases hready : r.ready with
  | nil =>
    -- Nobody is ready, so the idle thread runs and goes on.
    have hidle : r.currentThread = idle := by
      by_contra hne
      simpa [hready] using h.idle_ready hne
    rw [show (r.setPostponed false).ready.head? = none by
      simp [Roster.setPostponed, hready]]
    exact h.act rfl rfl rfl
      (fun _ _ => ⟨.of_fields rfl rfl Iff.rfl Iff.rfl (fun _ => Iff.rfl), rfl⟩)
      ((h.placed _ h.current).unmoved (.of_fields rfl rfl Iff.rfl Iff.rfl (fun _ => Iff.rfl)))
      id (fun _ => h.idle_running hidle) h.idle_running
      (h.counted.keep rfl rfl (fun _ => Sublist.refl _) (fun _ => rfl) rfl
        (fun _ a ha => ⟨a, ha, rfl⟩))
  | cons new tail =>
    have hne : new ≠ r.currentThread := by
      rintro rfl
      exact h.front (by simp [hready])
    rw [show (r.setPostponed false).ready.head? = some new by
      simp [Roster.setPostponed, hready]]
    dsimp only
    rw [if_neg (show new ≠ (r.setPostponed false).currentThread from hne)]
    split
    · rename_i hstate
      refine h.switchTo hrep hready rfl rfl rfl ?_ rfl rfl rfl rfl
      intro thread
      show thread ∈ (r.ready ++ [r.currentThread]).tail ↔ _
      rw [hready]
      simp [show (r.thread r.currentThread).state = .running from hstate]
    · rename_i hstate
      refine h.switchTo hrep hready rfl rfl rfl ?_ rfl rfl rfl rfl
      intro thread
      show thread ∈ r.ready.tail ↔ _
      rw [hready]
      simp [show (r.thread r.currentThread).state ≠ .running from hstate]

end

end

end Orderly

end Merlon.Threads
