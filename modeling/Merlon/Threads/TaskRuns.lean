/-
Runs with signals: threads are created, blocked, woken, stopped, continued
and terminated in any order, and every thread stays in one place while no
wake-up comes too early or twice.
-/
import Merlon.Threads.Coherence

namespace Merlon.Threads

namespace Tasks

open Roster

variable {k k' : Tasks} {s : State} {r r' : Roster} {thread : Nat} {cleaner : Nat}

def InOrder (k : Tasks) : Prop :=
  ∃ r, Represents k.kernel r ∧ r.Arranged

/-- A thread leaves the ready list only to run. -/
def Keeps (k k' : Tasks) : Prop :=
  ∀ thread ∈ k.kernel.ready, thread ∈ k'.kernel.ready ∨ thread = k'.current

/-- The call returns, with everything in order. -/
def Leads (k : Tasks) (outcome : Except Stop Tasks) : Prop :=
  ∃ k', outcome = .ok k' ∧ k'.InOrder ∧ k.Keeps k'

section

variable (hrep : Represents k.kernel r)
include hrep

lemma leads_of_represents (hrep' : Represents k'.kernel r')
    (harranged : r'.Arranged) (hkeeps : r.Keeps r') : k.Leads (.ok k') := by
  refine ⟨k', rfl, ⟨r', hrep', harranged⟩, ?_⟩
  intro thread hmem
  rw [hrep.ready_eq] at hmem
  rw [hrep'.ready_eq, current, hrep'.core]
  exact hkeeps thread hmem

lemma onKernel_leads {act : State → Except Stop State}
    (hact : ∃ s', act k.kernel = .ok s' ∧ Represents s' r')
    (harranged : r'.Arranged) (hkeeps : r.Keeps r') : k.Leads (onKernel k act) := by
  obtain ⟨s', hrun, hrep'⟩ := hact
  rw [onKernel, hrun]
  exact leads_of_represents hrep hrep' harranged hkeeps

lemma running_iff : k.Running ↔ (r.thread r.currentThread).state = .running := by
  rw [Running, state, current, hrep.core]

end

lemma keeps_refl (hready : r'.ready = r.ready) : r.Keeps r' :=
  Keeps.of_subset (by simp [hready])

lemma acquire_ready (r : Roster) (sem : Nat) (timeoutMs : Int) :
    (r.acquire sem timeoutMs).ready = r.ready := by
  rw [acquire]
  split_ifs <;> rfl

lemma sleepUntil_ready (r : Roster) (systemTimeNs : Nat) :
    (r.sleepUntil systemTimeNs).ready = r.ready := by
  rw [Roster.sleepUntil]
  split <;> rfl

lemma block_leads (hrep : Represents k.kernel r) (h : r.Arranged)
    (hrunning : k.Running) {reason : ThreadState}
    (hreason : reason = .terminated ∨ reason = .stopped ∨ reason = .waitingForSignal) :
    k.Leads (onKernel k fun s => blockThread s reason) := by
  rw [running_iff hrep] at hrunning
  refine onKernel_leads hrep (hrep.block ?_ ?_ hrunning) (h.block hrunning hreason) (keeps_refl rfl)
  · rcases hreason with rfl | rfl | rfl <;> decide
  · rcases hreason with rfl | rfl | rfl <;> decide

lemma stop_leads (hrep : Represents k.kernel r) (h : r.Arranged) (hrunning : thread = k.current → k.Running) :
    k.Leads (stopThread k thread) := by
  rw [stopThread]
  split
  · rename_i hself
    exact block_leads (k := k.modifyFlags thread _) hrep h (hrunning hself) (.inr (.inl rfl))
  · exact leads_of_represents hrep hrep h (keeps_refl rfl)

/-- Nobody wakes a thread that runs. -/
lemma running_notMem_waiting (h : r.Arranged) (hstate : (r.thread r.currentThread).state = .running)
    (sem : Nat) : (r.waiting sem).head? ≠ some r.currentThread := by
  intro hhead
  exact (h.free hstate).waiting sem (List.mem_of_mem_head? hhead)

lemma release_currentThread (r : Roster) (sem : Nat) :
    (r.release sem).currentThread = r.currentThread := by
  rw [release]
  split
  · rfl
  · dsimp only
    split_ifs
    · rw [unblock_toCore]
      rfl
    · rfl
    · rw [unblock_toCore]
      rfl

lemma release_thread_of_ne (r : Roster) {sem other : Nat}
    (hne : (r.waiting sem).head? ≠ some other) : (r.release sem).thread other = r.thread other := by
  rw [release]
  split
  · rfl
  · rename_i top rest hwaiting
    have htop : other ≠ top := by
      rintro rfl
      exact hne (by rw [hwaiting, List.head?_cons])
    dsimp only
    split_ifs
    · rw [unblock_toCore]
      exact Function.update_of_ne htop _ _
    · rfl
    · rw [unblock_toCore]
      rfl

lemma release_represents (hrep : Represents k.kernel r) (h : r.Arranged)
    {sem : Nat} (hcount : 0 < k.kernel.currentCount sem) :
    ∃ s', releaseSemaphore k.kernel sem = .ok s' ∧ Represents s' (r.release sem) := by
  rw [hrep.core] at hcount
  refine hrep.release hcount fun thread hmem => ?_
  exact ((h.inPlace thread (hrep.waiting_isThread sem thread hmem)).parked_of_waiting hmem).1

lemma terminate_leads (hrep : Represents k.kernel r) (h : r.Arranged) (hrunning : thread = k.current → k.Running)
    (hcount : thread = k.current → 0 < k.kernel.currentCount cleaner) :
    k.Leads (terminateThread cleaner k thread) := by
  rw [terminateThread]
  split
  · rename_i hself
    have hstate := (running_iff hrep).mp (hrunning hself)
    have hhead := running_notMem_waiting h hstate cleaner
    obtain ⟨s', hrelease, hrep'⟩ := release_represents hrep h (hcount hself)
    obtain ⟨harranged, hsubset⟩ := h.release hrep hhead
    have hstate' : ((r.release cleaner).thread
        (r.release cleaner).currentThread).state = .running := by
      rw [release_currentThread, release_thread_of_ne r hhead, hstate]
    refine onKernel_leads hrep ?_ (harranged.block hstate' (.inl rfl))
      (Keeps.of_subset hsubset)
    rw [hrelease, ok_bind]
    exact hrep'.block (by decide) (by decide) hstate'
  · exact leads_of_represents hrep hrep h (keeps_refl rfl)

/-- A thread that is stopped or pauses can be made ready. -/
lemma unblock_represents (hrep : Represents s r) (hthread : r.IsThread thread)
    (hstate : (r.thread thread).state = .stopped ∨ (r.thread thread).state = .waitingForSignal)
    (hready : thread ∉ r.ready) :
    ∃ s', unblockThread s thread = .ok s' ∧ Represents s' (r.unblock thread) := by
  refine hrep.unblock hthread hready fun htimed => ?_
  rcases hstate with hstate | hstate <;> rw [hstate] at htimed <;> cases htimed

lemma specialSignal_of_not (k : Tasks) {sigNum : Nat}
    (hnot : ¬ (sigNum = sigcont ∧ k.state thread = .stopped)) :
    ∃ k', specialSignal k thread sigNum = .ok k' ∧ k'.kernel = k.kernel := by
  rw [specialSignal]
  split_ifs <;> exact ⟨_, rfl, rfl⟩

section

variable (hrep : Represents k.kernel r)

include hrep

section

variable (h : r.Arranged)
include h

/-- A signal makes the thread ready once or not at all. -/
lemma rouse_represents (sigNum : Nat) (hthread : r.IsThread thread)
    (hwakes : (sigNum = sigcont ∧ (r.thread thread).state = .stopped) ∨
        (r.thread thread).state = .waitingForSignal → thread ≠ r.currentThread ∧ thread ∉ r.ready) :
    ∃ k' r', (do
        let k ← specialSignal k thread sigNum
        endPause k thread) = .ok k' ∧
      Represents k'.kernel r' ∧ r'.Arranged ∧ r.ready ⊆ r'.ready := by
  have hstate : k.state thread = (r.thread thread).state := by rw [state, hrep.core]
  by_cases hstopped : sigNum = sigcont ∧ k.state thread = .stopped
  · obtain ⟨hnum, hstop⟩ := hstopped
    rw [hstate] at hstop
    obtain ⟨hne, hready⟩ := hwakes (.inl ⟨hnum, hstop⟩)
    obtain ⟨s', hrun, hrep'⟩ := unblock_represents hrep hthread (.inl hstop) hready
    have hspecial : specialSignal k thread sigNum = .ok { k with kernel := s' } := by
      subst hnum
      rw [specialSignal, if_neg (by decide), if_neg (by decide),
        if_pos ⟨rfl, hstate.trans hstop⟩, onKernel, hrun, ok_bind]
    have hpause : Tasks.state { k with kernel := s' } thread ≠ .waitingForSignal := by
      rw [state, hrep'.core, unblock_toCore, hstop]
      decide
    refine ⟨{ k with kernel := s' }, _, ?_, hrep', h.rouse hthread (.inl hstop) hne hready, by simp⟩
    rw [hspecial, ok_bind, endPause, if_neg hpause]
  · obtain ⟨k', hspecial, hkernel⟩ := specialSignal_of_not k hstopped
    have hstate' : k'.state thread = (r.thread thread).state := by rw [state, hkernel, hrep.core]
    rw [hspecial, ok_bind, endPause, hstate']
    split
    · rename_i hpause
      obtain ⟨hne, hready⟩ := hwakes (.inr hpause)
      obtain ⟨s', hrun, hrep'⟩ := unblock_represents hrep hthread (.inr hpause) hready
      refine ⟨{ k' with kernel := s' }, _, ?_, hrep',
        h.rouse hthread (.inr hpause) hne hready, by simp⟩
      rw [onKernel, hkernel, hrun, ok_bind]
    · exact ⟨k', r, rfl, hkernel ▸ hrep, h, fun _ hmem => hmem⟩

lemma raise_leads {sigNum : Nat} (hthread : r.IsThread thread)
    (hwakes : k.Rouses thread sigNum → thread ≠ k.current ∧ thread ∉ k.kernel.ready) : k.Leads (do
      let (_, k) ← raiseSignal k thread sigNum
      .ok k) := by
  rw [raiseSignal]
  split
  · exact leads_of_represents hrep hrep h (keeps_refl rfl)
  · rename_i hnum
    have hrep₁ : Represents (k.markPending thread sigNum).kernel _ :=
      hrep.modifyThread thread fun thr => { thr with signalIntr := true }
    have h₁ := h.modify thread (fun thr => { thr with signalIntr := true })
      (fun _ => rfl) (fun _ => rfl) fun _ => rfl
    have hstate : ((r.modifyThread thread
        fun thr => { thr with signalIntr := true }).thread thread).state = k.state thread := by
      rw [state, hrep.core]
      simp [modifyThread, Core.modifyThread]
    obtain ⟨k', r', hrun, hrep', h', hsubset⟩ := rouse_represents hrep₁ h₁ sigNum hthread (by
        rw [hstate]
        intro hrouses
        have := hwakes ⟨Nat.lt_of_not_le hnum, hrouses⟩
        rwa [hrep.ready_eq, current, hrep.core] at this)
    rw [← bind_assoc, hrun]
    exact leads_of_represents hrep hrep' h' (Keeps.of_subset hsubset)

lemma create_leads : k.Leads (createThread k) := by
  have hcount : k.kernel.threadCount = r.threadCount := by rw [hrep.core]
  obtain ⟨s', hrun, hrep'⟩ := hrep.addThread.insertReady r.addThread_isThread fun hmem => by
      have := (hrep.ready_isThread _ hmem).2
      omega
  rw [createThread, hcount, hrun]
  refine leads_of_represents hrep hrep' (h.create hrep) (Keeps.of_subset ?_)
  exact List.subset_append_left _ _

lemma afterSchedule_leads (hrunning : k.Running)
    (hcount : (k.flags k.current).needsTermination = true → 0 < k.kernel.currentCount cleaner) :
    k.Leads (afterSchedule cleaner k) := by
  rw [afterSchedule]
  split
  · rename_i hneeds
    exact terminate_leads hrep h (fun _ => hrunning) fun _ => hcount hneeds
  · split
    · exact stop_leads hrep h fun _ => hrunning
    · exact leads_of_represents hrep hrep h (keeps_refl rfl)

end

end

/-- A call whose wake-ups come in time returns and keeps everything in
order. -/
lemma call_leads (h : k.InOrder) (call : TaskCall)
    (hvalid : call.Valid k) (hwakes : call.WakesOnce k)
    (hasserts : call.Asserts cleaner k) : k.Leads (call.step cleaner k) := by
  obtain ⟨r, hrep, h⟩ := h
  cases call with
  | create => exact create_leads hrep h
  | acquire sem timeoutMs =>
    have hstate := (running_iff hrep).mp hvalid
    rw [TaskCall.step]
    exact onKernel_leads hrep (hrep.acquire (h.free hstate) sem timeoutMs)
      (h.acquire hstate sem timeoutMs) (keeps_refl (acquire_ready r sem timeoutMs))
  | release sem =>
    have hhead : (r.waiting sem).head? ≠ some r.currentThread := by
      have := hwakes
      rwa [TaskCall.WakesOnce, hrep.waiters_eq, current, hrep.core] at this
    obtain ⟨harranged, hsubset⟩ := h.release hrep hhead
    rw [TaskCall.step]
    exact onKernel_leads hrep (release_represents hrep h hasserts) harranged
      (Keeps.of_subset hsubset)
  | sleep systemTimeNs =>
    have hstate := (running_iff hrep).mp hvalid
    rw [TaskCall.step]
    exact onKernel_leads hrep (hrep.sleepUntil (h.free hstate) systemTimeNs)
      (h.sleepUntil systemTimeNs hstate) (keeps_refl (sleepUntil_ready r systemTimeNs))
  | wakeups =>
    have hdue : ∀ thread ∈ r.due r.systemTime, thread ≠ r.currentThread := by
      intro thread hmem
      obtain ⟨hsleeping, htime⟩ := List.mem_filter.mp hmem
      have := hwakes thread
      rw [hrep.sleepers_eq, current, hrep.core] at this
      exact this hsleeping htime
    obtain ⟨harranged, hkeeps⟩ := h.wakeAll hrep rfl hdue
    exact onKernel_leads hrep (hrep.wakeups (h.wakeable hrep.sleeping_isThread)) harranged hkeeps
  | timer nanos =>
    rw [TaskCall.step]
    have hstill : Roster.Arranged { r with
        systemTime := (r.systemTime + nanos) % 2 ^ 64 } :=
      h.still rfl rfl fun _ => .of_fields rfl rfl Iff.rfl Iff.rfl fun _ => Iff.rfl
    refine onKernel_leads hrep ⟨_, rfl, ?_⟩ hstill (keeps_refl rfl)
    rw [receivedTimer, hrep.core]
    exact hrep.setCore rfl
  | schedule =>
    obtain ⟨harranged, hkeeps⟩ := h.schedule hrep
    exact onKernel_leads hrep (hrep.schedule h.current fun _ => h.current_notMem) harranged hkeeps
  | afterSchedule => exact afterSchedule_leads hrep h hvalid hasserts
  | pause => exact block_leads hrep h hvalid (.inr (.inr rfl))
  | stop thread => exact stop_leads hrep h hvalid.2
  | terminate thread => exact terminate_leads hrep h hvalid.2 hasserts
  | raise thread sigNum =>
    have hthread : r.IsThread thread := by
      have := hvalid
      rwa [TaskCall.Valid, hrep.core] at this
    exact raise_leads hrep h hthread hwakes
  | take sigNum =>
    have hrep' := hrep.modifyThread k.current fun thr => { thr with signalIntr := false }
    exact leads_of_represents hrep hrep' (h.modify _ _ (fun _ => rfl)
      (fun _ => rfl) fun _ => rfl) (keeps_refl rfl)

lemma count_pos_of_release {s' : State} {sem : Nat}
    (hrun : releaseSemaphore s sem = .ok s') : 0 < s.currentCount sem := by
  rw [releaseSemaphore, releaseSemaphoreEx, if_neg (by decide)] at hrun
  split_ifs at hrun with hpos
  · exact hpos
  · cases hrun

lemma count_pos_of_terminate (hrun : terminateThread cleaner k thread = .ok k')
    (hself : thread = k.current) : 0 < k.kernel.currentCount cleaner := by
  rw [terminateThread, if_pos hself, onKernel] at hrun
  cases hrelease : releaseSemaphore k.kernel cleaner with
  | ok s => exact count_pos_of_release hrelease
  | error stop =>
    rw [hrelease] at hrun
    cases hrun

/-- A call that returns has passed the assertion on the semaphore. -/
lemma asserts_of_step {call : TaskCall}
    (hrun : call.step cleaner k = .ok k') : call.Asserts cleaner k := by
  cases call with
  | release sem =>
    rw [TaskCall.step, onKernel] at hrun
    cases hrelease : releaseSemaphore k.kernel sem with
    | ok s => exact count_pos_of_release hrelease
    | error stop =>
      rw [hrelease] at hrun
      cases hrun
  | terminate thread => exact count_pos_of_terminate hrun
  | afterSchedule =>
    intro hneeds
    rw [TaskCall.step, afterSchedule, if_pos hneeds] at hrun
    exact count_pos_of_terminate hrun rfl
  | _ => trivial

lemma started_inOrder (h : k.Started) : k.InOrder := by
  obtain ⟨order, hholds, horder⟩ := h.ready
  refine ⟨_, .ofReady hholds (fun thread hmem => ((horder thread).mp hmem).1)
    h.sleeping h.waiting, h.current, ?_⟩
  intro thread hthread
  by_cases hcurrent : thread = k.current
  · refine .inr ⟨fun hmem => ((horder thread).mp hmem).2 hcurrent, ?_⟩
    have hstate : (k.kernel.thread thread).state = .running := hcurrent ▸ h.running
    unfold Roster.Parked
    rw [hstate]
    exact ⟨hcurrent, by simp, by simp⟩
  · exact .inl ⟨(horder thread).mpr ⟨hthread, hcurrent⟩, hcurrent, by simp, by simp⟩

lemma blocked_of_parked (hrep : Represents k.kernel r) (hparked : r.Parked thread)
    (hne : thread ≠ k.current) (hlives : k.state thread ≠ .terminated) : k.Blocked thread := by
  have hstate : k.state thread = (r.thread thread).state := by rw [state, hrep.core]
  unfold Roster.Parked at hparked
  unfold Blocked
  rw [hrep.sleepers_eq]
  simp only [hrep.waiters_eq]
  rw [hstate] at hlives ⊢
  cases hcase : (r.thread thread).state <;> simp only [hcase] at hparked hlives ⊢
  case running =>
    rw [current, hrep.core] at hne
    exact hne hparked.1
  case sleeping => exact hparked.1
  case waitingForSemaphore =>
    obtain ⟨_, sem, _, hmem⟩ := hparked
    exact ⟨sem, hmem⟩
  case waitingForSemaphoreWithTimeout =>
    obtain ⟨hsleeping, sem, _, hmem⟩ := hparked
    exact ⟨hsleeping, sem, hmem⟩
  case terminated => exact hlives rfl

lemma coherent_of_inOrder (h : k.InOrder) : k.Coherent := by
  obtain ⟨r, hrep, h⟩ := h
  constructor
  · rw [hrep.ready_eq, current, hrep.core]
    exact h.current_notMem
  · intro thread hthread hne hlives
    rw [hrep.core] at hthread
    rw [hrep.ready_eq]
    rcases h.inPlace thread hthread with ⟨hready, _⟩ | ⟨hready, hparked⟩
    · exact .inl (List.count_eq_one_of_mem hrep.ready.nodup hready)
    · exact .inr ⟨hready, blocked_of_parked hrep hparked hne hlives⟩

/-- While no wake-up comes too early or twice, every thread is in one place in
every state of a run, and no call finds a thread on the ready list that it
puts there. -/
theorem run_coherent {cleaner : Nat} {start : Tasks} {calls : List TaskCall}
    (hstart : start.Started) (hrun : Run (Step cleaner) start calls k) : k.Coherent ∧ ∀ call :
    TaskCall, call.Valid k → call.WakesOnce k → call.Asserts cleaner k →
    ∃ k', call.step cleaner k = .ok k' ∧ k.Keeps k' := by
  have horder : k.InOrder := by
    refine hrun.invariant (P := InOrder) (started_inOrder hstart) ?_
    rintro before call after hbefore ⟨hvalid, hwakes, hstep⟩
    obtain ⟨after', hstep', hafter, _⟩ :=
      call_leads hbefore call hvalid hwakes (asserts_of_step hstep)
    rw [hstep] at hstep'
    cases hstep'
    exact hafter
  refine ⟨coherent_of_inOrder horder, ?_⟩
  intro call hvalid hwakes hasserts
  obtain ⟨k', hstep, _, hkeeps⟩ := call_leads horder call hvalid hwakes hasserts
  exact ⟨k', hstep, hkeeps⟩

def threeTasks : Tasks where
  kernel := threeThreads
  flags _ := newFlags

lemma threeTasks_started : threeTasks.Started where
  __ := threeThreads_booted
  waiting _ := rfl

/-- The current thread stops and is continued. -/
theorem run_coherent_stop_continue : ∃ k, Run (Step 0) threeTasks
      [.stop 3, .schedule, .raise 3 sigcont] k ∧ k.kernel.ready = [2, 3] ∧ k.Coherent ∧ ∀ call :
      TaskCall, call.Valid k → call.WakesOnce k → call.Asserts 0 k → ∃ k', call.step 0 k = .ok k' ∧
      k.Keeps k' := by
  have hrun : Run (Step 0) threeTasks [.stop 3, .schedule, .raise 3 sigcont] _ :=
    .snoc (.snoc (.single ⟨⟨⟨by decide, by decide⟩, fun _ => rfl⟩, trivial,
      rfl⟩) ⟨trivial, trivial, rfl⟩) ⟨⟨by decide, by decide⟩, fun _ => ⟨by decide, by decide⟩, rfl⟩
  exact ⟨_, hrun, by decide, run_coherent threeTasks_started hrun⟩

/-- A stopped thread that is continued twice before it runs is put on the
ready list while it is there. -/
theorem two_continues_insert_twice : threeTasks.Started ∧ ∃ k, Run (fun k (call : TaskCall) k' =>
          call.Valid k ∧ call.step 0 k = .ok k') threeTasks
        [.stop 3, .schedule, .raise 3 sigcont] k ∧
      3 ∈ k.kernel.ready ∧ (TaskCall.raise 3 sigcont).Valid k ∧
      (TaskCall.raise 3 sigcont).step 0 k = .error .assertionFailed := by
  refine ⟨threeTasks_started, _, .snoc (.snoc (.single ⟨⟨⟨by decide,
    by decide⟩, fun _ => rfl⟩, rfl⟩) ⟨trivial, rfl⟩) ⟨⟨by decide, by decide⟩,
    rfl⟩, by decide, ⟨by decide, by decide⟩, rfl⟩

end Tasks

end Merlon.Threads
