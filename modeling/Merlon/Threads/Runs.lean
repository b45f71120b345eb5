/-
Runs of the scheduler: threads acquire and release semaphores, sleep, are
woken by the timer and switched, in any order.  No unit is lost or handed out
twice, the lists hold exactly those who wait and sleep, and the value that
`AcquireSemaphore` returns tells whether a unit was granted.
-/
import Merlon.Library.Transition
import Merlon.Threads.Placement

namespace Merlon.Threads

open List Roster

open Function (update update_self update_of_ne)

namespace State

def ready (s : State) : List Nat :=
  membersFrom s.nextReady s.fuel s.readyList.head

def sleepers (s : State) : List Nat :=
  membersFrom s.nextSleep s.fuel s.sleepList.head

def waiters (s : State) (sem : Nat) : List Nat :=
  membersFrom s.nextSemaphore s.fuel (s.waitingList sem).head

end State

/-- The kernel with the history of its semaphores. -/
structure Session where
  kernel : State
  ledger : Ledger

/-- `return_` is the current thread's return from `AcquireSemaphore`, `signal`
a change of a thread's `signal_intr`. -/
inductive Call where
  | acquire (sem : Nat) (timeoutMs : Int)
  | return_
  | release (sem : Nat)
  | sleep (systemTimeNs : Nat)
  | wakeups
  | timer (nanos : Nat)
  | signal (thread : Nat) (pending : Bool)
  | schedule

/-- A unit is granted when the count goes up in `AcquireSemaphore` and when
`ReleaseSemaphore` makes a thread ready. -/
def Call.step (k : Session) : Call → Except Stop Session
  | .acquire sem timeoutMs => do
      let s ← acquireSemaphore k.kernel sem timeoutMs
      .ok ⟨s, k.ledger.call k.kernel.currentThread sem timeoutMs
        (decide (k.kernel.currentCount sem < s.currentCount sem))⟩
  | .return_ => .ok ⟨k.kernel, k.ledger.return_ k.kernel.currentThread⟩
  | .release sem => do
      let s ← releaseSemaphore k.kernel sem
      .ok ⟨s, k.ledger.handOver sem
        (s.ready.filter (fun thread => decide (thread ∉ k.kernel.ready)))⟩
  | .sleep systemTimeNs => do
      let s ← sleepUntil k.kernel systemTimeNs
      .ok ⟨s, k.ledger⟩
  | .wakeups => do
      let s ← handleSleepWakeups k.kernel
      .ok ⟨s, k.ledger⟩
  | .timer nanos => .ok ⟨receivedTimer k.kernel nanos, k.ledger⟩
  | .signal thread pending =>
    .ok ⟨k.kernel.modifyThread thread
      (fun thr => { thr with signalIntr := pending }), k.ledger⟩
  | .schedule => do
      let s ← Threads.schedule k.kernel
      .ok ⟨s, k.ledger⟩

/-- The current thread runs code of its own: it is not blocked and not inside
`AcquireSemaphore`.  The idle thread never blocks. -/
def Session.MayBlock (idle : Nat) (k : Session) : Prop :=
  k.kernel.currentThread ≠ idle ∧ (k.kernel.thread k.kernel.currentThread).state = .running ∧
    k.ledger.attempt k.kernel.currentThread = none

/-- A unit is released only while one is held, and a thread goes on once the
task switch it has postponed is done. -/
def Call.Allowed (idle : Nat) (initial : Nat → Int) (k : Session) : Call → Prop
  | .acquire _ _ => k.MayBlock idle
  | .return_ => k.kernel.postponedTaskSwitch = false
  | .release sem => (k.ledger.released sem : Int) < initial sem + k.ledger.granted sem
  | .sleep _ => k.MayBlock idle
  | .wakeups | .timer _ | .signal _ _ | .schedule => True

def Session.Step (idle : Nat) (initial : Nat → Int) (k : Session) (call : Call)
    (k' : Session) : Prop :=
  call.Allowed idle initial k ∧ call.step k = .ok k'

/-- Multitasking has started and every semaphore is as `CreateSemaphore` left
it: the current thread runs and all others are ready. -/
structure Booted (idle : Nat) (initial : Nat → Int) (s : State) : Prop where
  current : s.IsThread s.currentThread
  idle_isThread : s.IsThread idle
  running : (s.thread s.currentThread).state = .running
  postponed : s.postponedTaskSwitch = false
  ready : ∃ order, Holds s.nextReady s.readyList order ∧
    ∀ thread, thread ∈ order ↔ s.IsThread thread ∧ thread ≠ s.currentThread
  sleeping : s.sleepList = threadListInit
  created : ∀ sem, createSemaphore s sem (s.maxCount sem) (initial sem) = s
  nonneg : ∀ sem, 0 ≤ initial sem
  le_max : ∀ sem, initial sem ≤ s.maxCount sem

def Session.start (s : State) : Session where
  kernel := s
  ledger :=
    { attempt := fun _ => none
      granted := fun _ => 0
      released := fun _ => 0
      tickets := 0 }

/-- The thread has called `AcquireSemaphore` and can go on neither now nor
when it is scheduled. -/
def Session.Blocked (k : Session) (thread : Nat) (a : Attempt) : Prop :=
  k.ledger.attempt thread = some a ∧ thread ∉ k.kernel.ready ∧
    ¬ (thread = k.kernel.currentThread ∧ (k.kernel.thread thread).state = .running)

def Session.Asleep (k : Session) (thread : Nat) : Prop :=
  (k.kernel.thread thread).state = .sleeping ∧ thread ∉ k.kernel.ready

/-- Units are conserved, and the lists and return values tell who holds and
who waits for one. -/
structure Conserved (idle : Nat) (initial : Nat → Int) (k : Session) : Prop where
  bounds : ∀ sem, 0 ≤ k.kernel.currentCount sem ∧ k.kernel.currentCount sem ≤ k.kernel.maxCount sem
  balance : ∀ sem, k.kernel.currentCount sem =
    initial sem + k.ledger.granted sem - k.ledger.released sem
  full : ∀ sem, k.kernel.waiters sem ≠ [] → k.kernel.currentCount sem = k.kernel.maxCount sem
  waits : ∀ sem thread, k.kernel.IsThread thread →
    (thread ∈ k.kernel.waiters sem ↔ ∃ a, k.Blocked thread a ∧ a.sem = sem)
  sleeps : ∀ thread, k.kernel.IsThread thread →
    (thread ∈ k.kernel.sleepers ↔ (∃ a, k.Blocked thread a ∧ a.timeoutMs ≠ -1) ∨ k.Asleep thread)
  returns : ∀ a, k.ledger.attempt k.kernel.currentThread = some a →
    k.kernel.postponedTaskSwitch = false →
    acquireResult (k.kernel.thread k.kernel.currentThread) a.timeoutMs =
      if a.granted then .success
      else if a.timeoutMs = 0 then .eagain else .etimedout
  fifo : ∀ sem k', k.Step idle initial (.release sem) k' → ∀ thread ∈ k.kernel.waiters sem,
    thread ∈ k'.kernel.ready → ∀ other ∈ k.kernel.waiters sem, other ≠ thread →
    ∀ a b, k.ledger.attempt thread = some a → k.ledger.attempt other = some b → a.ticket < b.ticket
  progress : ∀ call : Call, call.Allowed idle initial k → ∃ k', call.step k = .ok k'

section

variable {idle : Nat} {initial : Nat → Int} {k : Session} {r : Roster} {thread : Nat}

namespace Represents

variable {s : State}

lemma ready_eq (hrep : Represents s r) : s.ready = r.ready :=
  membersFrom_of_chain hrep.ready.chain hrep.ready_lt_fuel

lemma sleepers_eq (hrep : Represents s r) : s.sleepers = r.sleeping :=
  membersFrom_of_chain hrep.sleeping.chain hrep.sleeping_lt_fuel

lemma waiters_eq (hrep : Represents s r) (sem : Nat) : s.waiters sem = r.waiting sem :=
  membersFrom_of_chain (hrep.waiting sem).chain (hrep.waiting_lt_fuel sem)

end Represents

/-- The bookkeeping of the kernel is in order. -/
def Session.InOrder (idle : Nat) (initial : Nat → Int) (k : Session) : Prop :=
  ∃ r, Represents k.kernel r ∧ Orderly idle initial r k.ledger

lemma acquire_count (r : Roster) (sem : Nat) (timeoutMs : Int) :
    r.currentCount sem < (r.acquire sem timeoutMs).currentCount sem ↔
    r.currentCount sem < r.maxCount sem := by
  rw [acquire]
  split
  · rename_i hroom
    simp only [setCurrentCount, Core.setCurrentCount, Function.update_self]
    exact iff_of_true (Int.lt_succ _) hroom
  · rename_i hroom
    refine iff_of_false ?_ hroom
    split
    · exact Int.lt_irrefl (r.currentCount sem)
    · split <;> exact Int.lt_irrefl (r.currentCount sem)

lemma filter_woken {ready woken : List Nat} (hnot : ∀ thread ∈ woken, thread ∉ ready) :
    (ready ++ woken).filter (fun thread => decide (thread ∉ ready)) = woken := by
  rw [filter_append, filter_eq_nil_iff.mpr (by simp),
    filter_eq_self.mpr (by simpa using hnot), nil_append]

/-- `ReleaseSemaphore` makes the first waiting thread ready, and nobody else. -/
lemma release_wakes (hrep : Represents k.kernel r)
    (horder : Orderly idle initial r k.ledger) {sem : Nat}
    (hallowed : (Call.release sem).Allowed idle initial k) :
    ∃ s, releaseSemaphore k.kernel sem = .ok s ∧ Represents s (r.release sem) ∧
      s.ready = r.ready ++ (r.waiting sem).head?.toList ∧
      Orderly idle initial (r.release sem) (k.ledger.handOver sem
        (s.ready.filter (fun thread => decide (thread ∉ k.kernel.ready)))) := by
  have hcount : 0 < r.currentCount sem := by
    have hheld : (k.ledger.released sem : Int) < initial sem + k.ledger.granted sem := hallowed
    have hbalance := horder.counted.balance sem
    omega
  have hwaiting : ∀ thread ∈ r.waiting sem, thread ∉ r.ready :=
    fun thread hmem => horder.waiting_notMem_ready (hrep.waiting_isThread sem thread hmem) hmem
  obtain ⟨s, hrun, hrep'⟩ := hrep.release hcount hwaiting
  obtain ⟨horder', hready⟩ := horder.release hrep hcount
  have hready' : s.ready = r.ready ++ (r.waiting sem).head?.toList := by rw [hrep'.ready_eq, hready]
  refine ⟨s, hrun, hrep', hready', ?_⟩
  rw [hready', hrep.ready_eq, filter_woken]
  · exact horder'
  · intro thread hmem
    exact hwaiting thread (mem_of_mem_head? (Option.mem_toList.mp hmem))

/-- What a call does to the roster. -/
def Roster.call (r : Roster) : Call → Roster
  | .acquire sem timeoutMs => r.acquire sem timeoutMs
  | .return_ => r
  | .release sem => r.release sem
  | .sleep systemTimeNs => r.sleepUntil systemTimeNs
  | .wakeups => r.wakeups
  | .timer nanos => { r with systemTime := (r.systemTime + nanos) % 2 ^ 64 }
  | .signal thread pending => r.modifyThread thread (fun thr => { thr with signalIntr := pending })
  | .schedule => r.schedule

/-- One step: it succeeds and keeps the bookkeeping in order. -/
lemma step_call (hrep : Represents k.kernel r) (horder : Orderly idle initial r k.ledger)
    (call : Call) (hallowed : call.Allowed idle initial k) : ∃ k', call.step k = .ok k' ∧
    Represents k'.kernel (r.call call) ∧ Orderly idle initial (r.call call) k'.ledger := by
  have hcore := hrep.core
  cases call with
  | acquire sem timeoutMs =>
    obtain ⟨hidle, hstate, _⟩ := hallowed
    rw [hcore] at hidle hstate
    obtain ⟨s, hrun, hrep'⟩ := hrep.acquire (horder.free hstate) sem timeoutMs
    have hgranted : decide (k.kernel.currentCount sem < s.currentCount sem) =
        decide (r.currentCount sem < r.maxCount sem) := by
      rw [hcore, hrep'.core, decide_eq_decide]
      exact acquire_count r sem timeoutMs
    refine ⟨_, by rw [Call.step, hrun, ok_bind], hrep', ?_⟩
    rw [hgranted, hcore]
    exact horder.acquire hstate hidle sem timeoutMs
  | return_ =>
    have hpostponed : r.postponedTaskSwitch = false := by
      rw [← hcore]
      exact hallowed
    refine ⟨_, rfl, hrep, ?_⟩
    rw [hcore]
    exact horder.return_ hpostponed
  | release sem =>
    obtain ⟨s, hrun, hrep', _, horder'⟩ := release_wakes hrep horder hallowed
    refine ⟨_, by rw [Call.step, hrun, ok_bind], hrep', ?_⟩
    exact horder'
  | sleep systemTimeNs =>
    obtain ⟨hidle, hstate, hcall⟩ := hallowed
    rw [hcore] at hidle hstate hcall
    obtain ⟨s, hrun, hrep'⟩ := hrep.sleepUntil (horder.free hstate) systemTimeNs
    exact ⟨⟨s, k.ledger⟩, by rw [Call.step, hrun, ok_bind], hrep',
      horder.sleepUntil hstate hidle hcall systemTimeNs⟩
  | wakeups =>
    obtain ⟨s, hrun, hrep'⟩ := hrep.wakeups (horder.wakeable hrep.sleeping_isThread)
    exact ⟨⟨s, k.ledger⟩, by rw [Call.step, hrun, ok_bind], hrep', horder.wakeups hrep⟩
  | timer nanos =>
    refine ⟨_, rfl, ?_, ?_⟩
    · rw [receivedTimer, hcore]
      exact hrep.setCore rfl
    · exact horder.ofUnmoved rfl rfl rfl rfl
        (fun _ => .of_fields rfl rfl Iff.rfl Iff.rfl (fun _ => Iff.rfl)) (fun _ => rfl)
        (horder.counted.keep rfl rfl (fun _ => List.Sublist.refl _)
          (fun _ => rfl) rfl (fun _ a ha => ⟨a, ha, rfl⟩))
  | signal thread pending =>
    refine ⟨_, rfl, hrep.modifyThread thread _, ?_⟩
    refine horder.ofUnmoved rfl rfl rfl rfl ?_ (fun _ => rfl)
      (horder.counted.keep rfl rfl (fun _ => List.Sublist.refl _)
        (fun _ => rfl) rfl (fun _ a ha => ⟨a, ha, rfl⟩))
    intro other
    refine ⟨?_, ?_, ?_, fun heq _ => heq, Iff.rfl, Iff.rfl, fun _ => Iff.rfl⟩ <;>
      simp only [call, modifyThread, Core.modifyThread, Function.update_apply] <;>
      split <;> simp_all
  | schedule =>
    obtain ⟨s, hrun, hrep'⟩ := hrep.schedule horder.current horder.unready
    exact ⟨⟨s, k.ledger⟩, by rw [Call.step, hrun, ok_bind], hrep', horder.schedule hrep⟩

lemma step_inOrder (h : k.InOrder idle initial) (call : Call)
    (hallowed : call.Allowed idle initial k) :
    ∃ k', call.step k = .ok k' ∧ k'.InOrder idle initial := by
  obtain ⟨r, hrep, horder⟩ := h
  obtain ⟨k', hstep, hafter⟩ := step_call hrep horder call hallowed
  exact ⟨k', hstep, _, hafter⟩

section

variable (hrep : Represents k.kernel r)
include hrep

lemma blocked_iff {a : Attempt} : k.Blocked thread a ↔ k.ledger.attempt thread = some a ∧
    thread ∉ r.ready ∧ ¬ (thread = r.currentThread ∧ (r.thread thread).state = .running) := by
  rw [Session.Blocked, hrep.ready_eq, hrep.core]

/-- A thread that waits for a semaphore is blocked in `AcquireSemaphore`, and
the other way round. -/
lemma waiting_iff_blocked (horder : Orderly idle initial r k.ledger) (hthread : r.IsThread thread)
    (sem : Nat) : thread ∈ r.waiting sem ↔ ∃ a, k.Blocked thread a ∧ a.sem = sem := by
  simp only [blocked_iff hrep]
  cases horder.placed thread hthread with
  | running hcurrent hstate _ _ hwaiting _ =>
    refine iff_of_false (hwaiting sem) ?_
    rintro ⟨_, ⟨_, _, hnot⟩, _⟩
    exact hnot ⟨hcurrent, hstate⟩
  | ready hready _ hwaiting _ =>
    refine iff_of_false (hwaiting sem) ?_
    rintro ⟨_, ⟨_, hnot, _⟩, _⟩
    exact hnot hready
  | asleep _ _ hwaiting _ hcall =>
    refine iff_of_false (hwaiting sem) ?_
    rintro ⟨_, ⟨hsome, _, _⟩, _⟩
    rw [hcall] at hsome
    cases hsome
  | waiting sem' hready hwaiting hcall =>
    obtain ⟨a, ha, hsem, _⟩ := hcall.call
    constructor
    · intro hmem
      have hsame := hrep.apart sem sem' thread hmem hwaiting
      exact ⟨a, ⟨ha, hready, fun hboth => hcall.not_running hboth.2⟩, hsem.trans hsame.symm⟩
    · rintro ⟨b, ⟨hb, _, _⟩, rfl⟩
      rw [ha, Option.some.injEq] at hb
      rw [← hb, hsem]
      exact hwaiting

lemma sleeping_iff (horder : Orderly idle initial r k.ledger) (hthread : r.IsThread thread) :
    thread ∈ r.sleeping ↔ (∃ a, k.Blocked thread a ∧ a.timeoutMs ≠ -1) ∨ k.Asleep thread := by
  simp only [blocked_iff hrep]
  rw [Session.Asleep, hrep.ready_eq, hrep.core]
  cases horder.placed thread hthread with
  | running hcurrent hstate _ hsleeping _ _ =>
    refine iff_of_false hsleeping ?_
    rintro (⟨_, ⟨_, _, hnot⟩, _⟩ | ⟨hasleep, _⟩)
    · exact hnot ⟨hcurrent, hstate⟩
    · rw [hstate] at hasleep
      cases hasleep
  | ready hready hsleeping _ _ =>
    refine iff_of_false hsleeping ?_
    rintro (⟨_, ⟨_, hnot, _⟩, _⟩ | ⟨_, hnot⟩) <;> exact hnot hready
  | asleep hready hsleeping _ hstate _ => exact iff_of_true hsleeping (.inr ⟨hstate, hready⟩)
  | waiting sem hready _ hcall =>
    obtain ⟨a, ha, _, _, ⟨hforever, hnot, hstate⟩ | ⟨_, htimed, hasleep, hstate⟩⟩ := hcall.call
    · refine iff_of_false hnot ?_
      rintro (⟨b, ⟨hb, _, _⟩, htimed⟩ | ⟨hasleep, _⟩)
      · rw [ha, Option.some.injEq] at hb
        exact htimed (hb ▸ hforever)
      · rw [hstate] at hasleep
        cases hasleep
    · refine iff_of_true hasleep (.inl ⟨a, ⟨ha, hready, fun hboth => ?_⟩, htimed⟩)
      rw [hstate] at hboth
      cases hboth.2

end

/-- What a thread that goes on returns from `AcquireSemaphore`. -/
lemma result_of_settled {thr : Thread} {a : Attempt} (hsettled : thr.timedOut = !a.granted) :
    acquireResult thr a.timeoutMs =
      if a.granted then .success
      else if a.timeoutMs = 0 then .eagain else .etimedout := by
  rw [acquireResult, hsettled]
  cases a.granted <;> rfl

lemma conserved_of_inOrder (h : k.InOrder idle initial) : Conserved idle initial k := by
  obtain ⟨r, hrep, horder⟩ := h
  have hcounted := horder.counted
  refine ⟨?_, ?_, ?_, ?_, ?_, ?_, ?_, fun call hallowed =>
    (step_call hrep horder call hallowed).imp fun _ h => h.1⟩
  · intro sem
    rw [hrep.core]
    exact ⟨hcounted.nonneg sem, hcounted.le_max sem⟩
  · intro sem
    rw [hrep.core]
    exact hcounted.balance sem
  · intro sem
    rw [hrep.core, hrep.waiters_eq]
    exact hcounted.full sem
  · intro sem thread hthread
    rw [hrep.core] at hthread
    rw [hrep.waiters_eq]
    exact waiting_iff_blocked hrep horder hthread sem
  · intro thread hthread
    rw [hrep.core] at hthread
    rw [hrep.sleepers_eq]
    exact sleeping_iff hrep horder hthread
  · intro a ha hpostponed
    rw [hrep.core] at ha hpostponed ⊢
    have hstate := horder.postponed hpostponed
    refine result_of_settled ?_
    cases horder.placed r.currentThread horder.current with
    | running _ _ _ _ _ hsettled => exact hsettled a ha
    | ready _ _ _ hsettled => exact hsettled a ha
    | asleep _ hsleeping _ _ _ => exact absurd hsleeping (horder.free hstate).sleeping
    | waiting sem _ hwaiting _ => exact absurd hwaiting ((horder.free hstate).waiting sem)
  · rintro sem k' ⟨hallowed, hstep⟩ thread hmem hwoken other hother hne a b ha hb
    obtain ⟨s, hrun, _, hready, _⟩ := release_wakes hrep horder hallowed
    rw [Call.step, hrun] at hstep
    cases hstep
    rw [hrep.waiters_eq] at hmem hother
    have hthread := hrep.waiting_isThread sem thread hmem
    have hnot := horder.waiting_notMem_ready hthread hmem
    have hfifo := hcounted.fifo sem
    cases hwaiting : r.waiting sem with
    | nil => simp [hwaiting] at hmem
    | cons top rest =>
      rw [hwaiting] at hready hother hfifo
      have hfirst : thread = top := by simpa [hready, hnot] using hwoken
      subst hfirst
      have hrest : other ∈ rest := by simpa [hne] using hother
      exact (pairwise_cons.mp hfifo).1 other hrest a b ha hb

lemma start_inOrder {s : State} (hboot : Booted idle initial s) :
    (Session.start s).InOrder idle initial := by
  obtain ⟨order, hholds, horder⟩ := hboot.ready
  have hcount : ∀ sem, s.currentCount sem = initial sem := by
    intro sem
    have hcreated := congrArg (fun s : State => s.currentCount sem) (hboot.created sem)
    simpa [createSemaphore] using hcreated.symm
  have hempty : ∀ sem, s.waitingList sem = threadListInit := by
    intro sem
    have hcreated := congrArg (fun s : State => s.waitingList sem) (hboot.created sem)
    simpa [createSemaphore] using hcreated.symm
  refine ⟨⟨s.toCore, order, [], fun _ => []⟩, ?_, ?_⟩
  · exact .ofReady hholds (fun thread hmem => ((horder thread).mp hmem).1) hboot.sleeping hempty
  · refine ⟨hboot.current, ?_, fun _ => hboot.running, ?_, ?_, ?_, fun _ => hboot.running, ?_⟩
    · intro thread hthread
      by_cases hcurrent : thread = s.currentThread
      · refine .running hcurrent (hcurrent ▸ hboot.running) ?_ (by simp)
          (by simp) (by simp [Settled, Session.start])
        intro hmem
        exact ((horder thread).mp hmem).2 hcurrent
      · exact .ready ((horder thread).mpr ⟨hthread, hcurrent⟩) (by simp)
          (by simp) (by simp [Settled, Session.start])
    · intro _ hmem
      exact ((horder _).mp hmem).2 rfl
    · intro hhead
      exact ((horder _).mp (mem_of_mem_head? hhead)).2 rfl
    · intro hne
      exact (horder idle).mpr ⟨hboot.idle_isThread, Ne.symm hne⟩
    · refine ⟨?_, ?_, by simp, ?_, by simp [Session.start], by simp⟩
      · intro sem
        rw [hcount]
        exact hboot.nonneg sem
      · intro sem
        rw [hcount]
        exact hboot.le_max sem
      · intro sem
        rw [hcount]
        simp [Session.start]

/-- In every run, whatever the number of threads and the order of their calls,
units are conserved. -/
theorem run_conserved {s : State} {calls : List Call} (hboot : Booted idle initial s)
    (hrun : Run (Session.Step idle initial) (Session.start s) calls k) :
    Conserved idle initial k := by
  refine conserved_of_inOrder ?_
  refine hrun.invariant (P := Session.InOrder idle initial) (start_inOrder hboot) ?_
  rintro before call after hbefore ⟨hallowed, hstep⟩
  obtain ⟨k', hstep', hafter⟩ := step_inOrder hbefore call hallowed
  rw [hstep] at hstep'
  cases hstep'
  exact hafter

/-- In every run the kernel's linked lists hold the queues of a roster in which
every thread is in exactly one place and waiters are served in turn. -/
theorem run_placed {s : State} {calls : List Call} (hboot : Booted idle initial s)
    (hrun : Run (Session.Step idle initial) (Session.start s) calls k) :
    ∃ r, Represents k.kernel r ∧ Orderly idle initial r k.ledger := by
  refine hrun.invariant (P := Session.InOrder idle initial) (start_inOrder hboot) ?_
  rintro before call after hbefore ⟨hallowed, hstep⟩
  obtain ⟨k', hstep', hafter⟩ := step_inOrder hbefore call hallowed
  rw [hstep] at hstep'
  cases hstep'
  exact hafter

end

/-- Three threads, of which the first is the idle thread and the third runs,
and semaphores of one unit. -/
def threeThreads : State where
  threadCount := 3
  thread _ :=
    { state := .running
      sleepExpiry := 0
      timedOut := false
      timedOutDueToSignal := false
      signalIntr := false
      waitingOnSemaphore := none }
  maxCount _ := 1
  currentCount _ := 0
  currentThread := 3
  postponedTaskSwitch := false
  systemTime := 0
  nextReady thread := if thread = 1 then 2 else 0
  nextSleep _ := 0
  nextSemaphore _ := 0
  readyList := ⟨1, 2⟩
  sleepList := threadListInit
  waitingList _ := threadListInit

lemma threeThreads_booted : Booted 1 (fun _ => 0) threeThreads where
  current := ⟨by decide, by decide⟩
  idle_isThread := ⟨by decide, by decide⟩
  running := rfl
  postponed := rfl
  ready := by
    refine ⟨[1, 2], ⟨⟨rfl, by decide, rfl, by decide, rfl⟩, rfl, by decide⟩, ?_⟩
    intro thread
    show thread ∈ [1, 2] ↔ (0 < thread ∧ thread ≤ 3) ∧ thread ≠ 3
    simp only [mem_cons, not_mem_nil, or_false]
    omega
  sleeping := rfl
  created sem := by
    simp [createSemaphore, threeThreads]
  nonneg _ := by decide
  le_max _ := Int.one_nonneg

/-- The running thread takes the unit, and another waits for it with a
timeout. -/
theorem run_conserved_two_acquisitions :
    ∃ calls k, Run (Session.Step 1 (fun _ => 0)) (Session.start threeThreads) calls k ∧
    k.kernel.waiters 0 = [2] ∧ Conserved 1 (fun _ => 0) k := by
  have hrun : Run (Session.Step 1 (fun _ => 0)) (Session.start threeThreads)
      [.acquire 0 (-1), .schedule, .schedule, .acquire 0 5] _ :=
    .snoc (.snoc (.snoc (.single ⟨⟨by decide, rfl, rfl⟩, rfl⟩) ⟨trivial, rfl⟩)
      ⟨trivial, rfl⟩) ⟨⟨by decide, rfl, rfl⟩, rfl⟩
  exact ⟨_, _, hrun, by decide, run_conserved threeThreads_booted hrun⟩

/-- The running thread goes to sleep, and the idle thread runs. -/
theorem run_placed_sleep : ∃ k, Run (Session.Step 1 (fun _ => 0)) (Session.start threeThreads)
    [.sleep 5, .schedule] k ∧ ∃ r, Represents k.kernel r ∧ Orderly 1 (fun _ => 0) r k.ledger := by
  have hrun : Run (Session.Step 1 (fun _ => 0)) (Session.start threeThreads)
      [.sleep 5, .schedule] _ := .snoc (.single ⟨⟨by decide, rfl, rfl⟩, rfl⟩) ⟨trivial, rfl⟩
  exact ⟨_, hrun, run_placed threeThreads_booted hrun⟩

/-- A running thread waits on nothing, as `CreateInitialForkThread` asserts. -/
def Core.Quiet (c : Core) : Prop :=
  ∀ thread, c.IsThread thread → (c.thread thread).state = .running →
    (c.thread thread).waitingOnSemaphore = none

/-- Nothing clears `waiting_on_semaphore`: a thread must neither give up on a
semaphore at once nor be switched to after it has waited for one. -/
def Call.Clears (c : Core) (ready : List Nat) : Call → Prop
  | .acquire sem timeoutMs => c.currentCount sem < c.maxCount sem ∨ timeoutMs ≠ 0
  | .schedule => ∀ thread ∈ ready.head?, (c.thread thread).waitingOnSemaphore = none
  | _ => True

/-- What is to be shown when one thread changes. -/
lemma Core.Quiet.change {c c' : Core} (hquiet : c.Quiet) (changed : Nat)
    (hcount : c'.threadCount = c.threadCount)
    (hsame : ∀ other, other ≠ changed → c'.thread other = c.thread other)
    (hchanged : c.IsThread changed → (c'.thread changed).state = .running →
      (c'.thread changed).waitingOnSemaphore = none) : c'.Quiet := by
  intro other hother
  have hother' : c.IsThread other := by rwa [IsThread, ← hcount]
  by_cases heq : other = changed
  · subst heq
    exact hchanged hother'
  · rw [hsame other heq]
    exact hquiet other hother'

namespace Roster

variable {r : Roster}

lemma quiet_wakeups (threads : List Nat) (hquiet : r.Quiet) : (threads.foldl wake r).Quiet := by
  induction threads generalizing r with
  | nil => exact hquiet
  | cons thread rest ih =>
    refine ih (hquiet.change thread ?_ (fun _ => r.wake_thread_of_ne) ?_)
    · rw [wake_toCore]
      rfl
    · simpa [wake_toCore, Core.modifyThread] using hquiet thread

lemma quiet_release (sem : Nat) (hquiet : r.Quiet) : (r.release sem).Quiet := by
  rw [release]
  split
  · exact hquiet
  · rename_i top _ _
    dsimp only
    split_ifs
    · rw [unblock_toCore]
      exact hquiet.change top rfl (fun _ hne => update_of_ne hne _ _)
        (by simp [modifyThread, Core.modifyThread])
    · exact hquiet
    · rw [unblock_toCore]
      exact hquiet

/-- One call that clears the field. -/
lemma quiet_call (hquiet : r.Quiet) {call : Call}
    (hclears : call.Clears r.toCore r.ready) : (r.call call).Quiet := by
  have hmine := hquiet r.currentThread
  cases call with
  | acquire sem timeoutMs =>
    rw [call, acquire]
    split_ifs with hroom hnow hforever
    · exact hquiet.change r.currentThread rfl (fun _ hne => update_of_ne hne _ _) (by
          simpa [setCurrentCount, Core.setCurrentCount, modifyThread,
            Core.modifyThread] using hmine)
    · exact absurd hnow (hclears.resolve_left hroom)
    all_goals
      refine hquiet.change r.currentThread rfl ?_ ?_ <;> simp +contextual [block, Core.block, wait,
        setWaiting, queueForSleep, modifyThread, Core.modifyThread]
  | return_ => exact hquiet
  | release sem => exact quiet_release sem hquiet
  | sleep systemTimeNs =>
    rw [call, sleepUntil]
    split
    · exact hquiet
    · refine hquiet.change r.currentThread rfl ?_ ?_ <;>
        simp +contextual [queueForSleep, block, Core.block, modifyThread, Core.modifyThread]
  | wakeups => exact quiet_wakeups _ hquiet
  | timer nanos => exact hquiet
  | signal thread pending =>
    exact hquiet.change thread rfl (fun _ hne => update_of_ne hne _ _) (by
      simpa [call, modifyThread, Core.modifyThread] using hquiet thread)
  | schedule =>
    rw [call, schedule, scheduleWithLockHeld]
    split
    · exact hquiet
    · rename_i new hhead
      have hnone := hclears new hhead
      split_ifs
      · exact hquiet
      all_goals
        exact hquiet.change new rfl (fun _ hne => update_of_ne hne _ _) (by
          simpa [switchTo, insertReady, setPostponed, modifyThread,
            Core.modifyThread] using fun _ => hnone)

end Roster

/-- In a run whose calls all clear the field, running threads wait on
nothing. -/
theorem run_quiet {idle : Nat} {initial : Nat → Int} {s : State} {k : Session}
    {calls : List Call} (hboot : Booted idle initial s)
    (hfresh : ∀ thread, (s.thread thread).waitingOnSemaphore = none)
    (hrun : Run (fun k call k' => k.Step idle initial call k' ∧
      call.Clears k.kernel.toCore k.kernel.ready) (Session.start s) calls k) : k.kernel.Quiet := by
  refine (hrun.invariant (P := fun k => k.InOrder idle initial ∧ k.kernel.Quiet)
    ⟨start_inOrder hboot, fun thread _ _ => hfresh thread⟩ ?_).2
  rintro before call after ⟨⟨r, hrep, horder⟩, hquiet⟩ ⟨⟨hallowed, hstep⟩, hclears⟩
  obtain ⟨k', hstep', hrep', horder'⟩ := step_call hrep horder call hallowed
  rw [hstep] at hstep'
  cases hstep'
  rw [hrep.core, hrep.ready_eq] at hclears
  rw [hrep.core] at hquiet
  refine ⟨⟨_, hrep', horder'⟩, ?_⟩
  rw [hrep'.core]
  exact quiet_call hquiet hclears

/-- The running thread takes the unit. -/
theorem run_quiet_one_acquisition : ∃ k, Run (Session.Step 1 (fun _ => 0))
    (Session.start threeThreads) [.acquire 0 0] k ∧ k.kernel.Quiet := by
  have hstep : Session.Step 1 (fun _ => 0) (Session.start threeThreads)
      (.acquire 0 0) _ := ⟨⟨by decide, rfl, rfl⟩, rfl⟩
  exact ⟨_, .single hstep, run_quiet threeThreads_booted (fun _ => rfl)
    (.single ⟨hstep, .inl (by decide)⟩)⟩

/-- It tries to take another one, and runs on as if it waited. -/
theorem run_not_quiet : ∃ k, Run (Session.Step 1 (fun _ => 0))
    (Session.start threeThreads) [.acquire 0 0, .return_, .acquire 0 0] k ∧ ¬ k.kernel.Quiet :=
  ⟨_, .snoc (.snoc (.single ⟨⟨by decide, rfl, rfl⟩, rfl⟩) ⟨rfl, rfl⟩) ⟨⟨by decide, rfl, rfl⟩, rfl⟩,
    fun hquiet => nomatch hquiet 3 ⟨by decide, by decide⟩ rfl⟩

/-- The units `ReleaseSemaphoreEx` can give away: one to each thread that
waits, and those that nobody waits for. -/
def Roster.releasable (r : Roster) (sem : Nat) : Nat :=
  (r.waiting sem).length + (r.currentCount sem).toNat

/-- Single releases, one after the other. -/
def Roster.releases (r : Roster) (sem count : Nat) : Roster :=
  (fun r => r.release sem)^[count] r

/-- A single release gives one unit away, and the last one when the count
reaches zero. -/
lemma Roster.releasable_release {r : Roster} {sem : Nat} (hcount : 0 < r.currentCount sem) :
    (r.release sem).releasable sem + 1 = r.releasable sem ∧ 0 ≤ (r.release sem).currentCount sem ∧
    ((r.release sem).currentCount sem = 0 → r.releasable sem = 1) := by
  rw [releasable, releasable]
  cases hwaiting : r.waiting sem with
  | nil =>
    simp only [release_unclaimed hwaiting, setCurrentCount,
      Core.setCurrentCount, update_self, hwaiting, length_nil]
    omega
  | cons top rest =>
    obtain ⟨hrest, hsame, _⟩ := release_claimed hwaiting
    rw [hrest, hsame, update_self, length_cons]
    omega

namespace Represents

variable {s : State} {r : Roster} {sem : Nat}

/-- Rounds of the loop are single releases. -/
lemma releaseLoop {fuel : Nat} (hrep : Represents s r) {count : Int}
    (hpos : 0 < count) (decrements : Int) (hcount : 0 < r.currentCount sem)
    (hready : ∀ thread ∈ r.waiting sem, thread ∉ r.ready) (hfuel : r.releasable sem ≤ fuel) :
    ∃ s', Threads.releaseLoop sem fuel s count decrements =
        .ok (decrements + min count.toNat (r.releasable sem), s') ∧
      Represents s' (r.releases sem (min count.toNat (r.releasable sem))) := by
  induction fuel generalizing s r count decrements with
  | zero =>
    rw [Roster.releasable] at hfuel
    omega
  | succ fuel ih =>
    obtain ⟨s₁, hrun, hrep₁⟩ := hrep.decrement (by omega) hready
    obtain ⟨hless, hnonneg, hlast⟩ := Roster.releasable_release hcount
    rw [Threads.releaseLoop, hrun, ok_bind, hrep₁.core]
    by_cases hmore : count - 1 ≠ 0 ∧ (r.release sem).currentCount sem > 0
    · have hnodup := (hrep.waiting sem).nodup
      have hready₁ : ∀ thread ∈ (r.release sem).waiting sem, thread ∉ (r.release sem).ready := by
        cases hwaiting : r.waiting sem with
        | nil => simp [Roster.release_unclaimed hwaiting, Roster.setCurrentCount, hwaiting]
        | cons top rest =>
          obtain ⟨hrest, _, hsubset⟩ := Roster.release_claimed hwaiting
          rw [hrest, update_self]
          rw [hwaiting, nodup_cons] at hnodup
          intro thread hmem hin
          rcases mem_append.mp (hsubset hin) with hold | htop
          · exact hready thread (by simp [hwaiting, hmem]) hold
          · exact hnodup.1 (mem_singleton.mp htop ▸ hmem)
      obtain ⟨s', hloop, hrep'⟩ := ih hrep₁
        (show 0 < count - 1 by omega) (decrements + 1) hmore.2 hready₁ (by omega)
      have hmin : min count.toNat (r.releasable sem) =
          min (count - 1).toNat ((r.release sem).releasable sem) + 1 := by
        omega
      rw [if_pos hmore, hloop, hmin]
      refine ⟨s', ?_, hrep'⟩
      push_cast
      rw [Int.add_assoc, Int.add_comm 1]
    · have hmin : min count.toNat (r.releasable sem) = 1 := by omega
      rw [if_neg hmore, hmin]
      exact ⟨s₁, rfl, hrep₁⟩

end Represents

lemma lt_of_releaseLoop {fuel sem : Nat} {s s' : State} {count decrements result : Int}
    (hrun : releaseLoop sem fuel s count decrements = .ok (result, s')) : decrements < result := by
  induction fuel generalizing s count decrements with
  | zero => cases hrun
  | succ fuel ih =>
    obtain ⟨s₁, _, hrest⟩ := bind_eq_ok hrun
    split at hrest
    · have := ih hrest
      omega
    · cases hrest
      omega

/-- `ReleaseSemaphoreEx` makes as many single releases as it can up to
`count` and returns their number, unless it is told to make none. -/
theorem releaseSemaphoreEx_iff {s : State} {r : Roster} {sem : Nat}
    {count : Int} (hrep : Represents s r) (hcount : 0 < r.currentCount sem)
    (hready : ∀ thread ∈ r.waiting sem, thread ∉ r.ready) (hnonneg : 0 ≤ count) :
    (∃ s', releaseSemaphoreEx s sem count = .ok ((min count.toNat (r.releasable sem) : Nat), s') ∧
      Represents s' (r.releases sem (min count.toNat (r.releasable sem)))) ↔ count ≠ 0 := by
  have hheld : s.currentCount sem > 0 := by
    rw [hrep.core]
    exact hcount
  rw [releaseSemaphoreEx, if_neg (by omega), if_pos hheld]
  constructor
  · rintro ⟨s', hrun, _⟩ rfl
    have := lt_of_releaseLoop hrun
    simp at this
  · intro hne
    have hfuel : r.releasable sem ≤ (s.currentCount sem).toNat + s.fuel := by
      have hlt := hrep.waiting_lt_fuel sem
      rw [releasable, hrep.core]
      omega
    simpa using hrep.releaseLoop (by omega) 0 hcount hready hfuel

/-- Two units of the semaphore are taken. -/
def twoTaken : State :=
  threeThreads.setCurrentCount 0 2

/-- Of three units, the two that are taken are given back. -/
theorem releaseSemaphoreEx_three : ∃ r s', Represents twoTaken r ∧
    releaseSemaphoreEx twoTaken 0 3 = .ok (2, s') ∧ Represents s' (r.releases 0 2) := by
  obtain ⟨order, hholds, horder⟩ := threeThreads_booted.ready
  have hrep : Represents twoTaken ⟨twoTaken.toCore, order, [], fun _ => []⟩ :=
    .ofReady hholds (fun thread hmem => ((horder thread).mp hmem).1) rfl fun _ => rfl
  obtain ⟨s', hrun, hrep'⟩ := (@releaseSemaphoreEx_iff _ _ 0 3 hrep
    (show (0 : Int) < 2 by decide) (by simp) (by decide)).mpr (by decide)
  exact ⟨_, s', hrep, hrun, hrep'⟩

/-- Told to release nothing, it releases everything. -/
theorem releaseSemaphoreEx_zero : ∃ s', releaseSemaphoreEx twoTaken 0 0 = .ok (2, s') ∧
    twoTaken.currentCount 0 = 2 ∧ s'.currentCount 0 = 0 :=
  ⟨_, rfl, rfl, rfl⟩

end Merlon.Threads
