/-
What the functions of the signals model do, each said once: when it returns
and with which thread, and how sets of signals are read bit by bit.
-/
import Merlon.Signals.Model

namespace Merlon.Signals

open BitVec

open Threads (ThreadState Stop)

/-! Sets of signals. -/

lemma getLsbD_bit {sigNum i : Nat} (hsig : sigNum < 32) :
    (bit sigNum).getLsbD i = decide (i = sigNum) := by
  unfold bit
  by_cases hi : i = sigNum
  · subst hi
    simp [hsig]
  · rw [decide_eq_false hi]
    by_cases hlt : i < sigNum
    · simp [hlt]
    · have hne : i - sigNum ≠ 0 := by omega
      simp [hne]

/-- A set is empty when none of its bits is set. -/
lemma sigset_ne_zero_iff {signals : Sigset} : signals ≠ 0 ↔ ∃ i, signals.getLsbD i = true := by
  constructor
  · intro hne
    by_contra hnone
    push Not at hnone
    refine hne (eq_of_getLsbD_eq fun i _ => ?_)
    rw [ofNat_eq_ofNat, getLsbD_zero]
    exact Bool.eq_false_iff.mpr (hnone i)
  · rintro ⟨i, hi⟩ rfl
    rw [ofNat_eq_ofNat, getLsbD_zero] at hi
    cases hi

lemma and_not_ne_zero_iff {signals blocked : Sigset} :
    signals &&& ~~~blocked ≠ 0 ↔ ∃ i, signals.getLsbD i = true ∧ blocked.getLsbD i = false := by
  rw [sigset_ne_zero_iff]
  refine exists_congr fun i => ?_
  rw [getLsbD_and, getLsbD_not, Bool.and_eq_true]
  constructor
  · rintro ⟨hpending, hnot⟩
    rw [Bool.and_eq_true, Bool.not_eq_true'] at hnot
    exact ⟨hpending, hnot.2⟩
  · rintro ⟨hpending, hblocked⟩
    refine ⟨hpending, ?_⟩
    rw [hblocked, Bool.not_false, Bool.and_true, decide_eq_true_iff]
    exact lt_of_getLsbD hpending

lemma availableSignals_ne_zero_iff {thr : Thread} : thr.availableSignals ≠ 0 ↔
    ∃ i, thr.pendingSignals.getLsbD i = true ∧ thr.blockedSignals.getLsbD i = false :=
  and_not_ne_zero_iff

/-- The loop finds the first signal of a set that is not empty. -/
lemma lowestFrom_spec {fuel : Nat} (index : Nat) {available : Sigset}
    (hsome : ∃ i < fuel, available.getLsbD i = true) :
    ∃ i, lowestFrom fuel available index = index + i ∧ i < fuel ∧ available.getLsbD i = true ∧
    ∀ j < i, available.getLsbD j = false := by
  induction fuel generalizing available index with
  | zero =>
    obtain ⟨i, hlt, _⟩ := hsome
    exact absurd hlt (Nat.not_lt_zero i)
  | succ fuel ih =>
    have hfirst : available &&& 1 ≠ 0 ↔ available.getLsbD 0 = true := by
      rw [sigset_ne_zero_iff]
      constructor
      · rintro ⟨i, hi⟩
        rw [getLsbD_and, ofNat_eq_ofNat, getLsbD_one] at hi
        simp only [Bool.and_eq_true, decide_eq_true_eq] at hi
        rw [← hi.2.2]
        exact hi.1
      · intro hzero
        refine ⟨0, ?_⟩
        rw [getLsbD_and, hzero]
        decide
    unfold lowestFrom
    split
    · rename_i hset
      exact ⟨0, rfl, Nat.succ_pos fuel, hfirst.mp hset, nofun⟩
    · rename_i hset
      have hzero : available.getLsbD 0 = false := Bool.eq_false_iff.mpr fun h => hset (hfirst.mpr h)
      have hshift : ∀ i, (available >>> 1).getLsbD i = available.getLsbD (i + 1) := by
        intro i
        rw [getLsbD_ushiftRight, Nat.add_comm]
      obtain ⟨i, hlt, hi⟩ := hsome
      obtain ⟨k, rfl⟩ : ∃ k, i = k + 1 := by
        cases i with
        | zero =>
          rw [hzero] at hi
          cases hi
        | succ k => exact ⟨k, rfl⟩
      obtain ⟨j, hlowest, hjlt, hj, hbelow⟩ := ih (index + 1)
        ⟨k, Nat.lt_of_succ_lt_succ hlt, (hshift k).trans hi⟩
      refine ⟨j + 1, by omega, Nat.succ_lt_succ hjlt, (hshift j).symm.trans hj, fun m hm => ?_⟩
      cases m with
      | zero => exact hzero
      | succ m =>
        rw [← hshift]
        exact hbelow m (Nat.lt_of_succ_lt_succ hm)

/-! Functions that may stop. -/

variable {thr thr' : Thread} {sigNum : Nat}

lemma blockThread_ok {reason : ThreadState} (h : blockThread reason thr = .ok thr') :
    thr.state = .running ∧ thr' = { thr with state := reason } := by
  unfold blockThread at h
  split_ifs at h with hreason hstate
  cases h
  exact ⟨not_not.mp hstate, rfl⟩

lemma unblockThread_ok (h : unblockThread thr = .ok thr') :
    thr.onReadyList = false ∧ thr' = { thr with onReadyList := true } := by
  unfold unblockThread at h
  split_ifs at h with hready
  cases h
  exact ⟨Bool.eq_false_iff.mpr hready, rfl⟩

lemma specialSignal_ok (h : specialSignal sigNum thr = .ok thr') : thr' = { thr with
      needsTermination := sigNum = sigkill || thr.needsTermination
      needsStopping := sigNum = sigstop || thr.needsStopping
      onReadyList := (sigNum = sigcont && thr.state = .stopped) || thr.onReadyList } := by
  unfold specialSignal at h
  split_ifs at h with hkill hstop hcont
  · cases h
    simp [hkill, sigkill, sigstop, sigcont]
  · cases h
    simp [hstop, sigkill, sigstop, sigcont]
  · obtain ⟨_, rfl⟩ := unblockThread_ok h
    simp [hcont.1, hcont.2, sigkill, sigstop, sigcont]
  · cases h
    have hnot : (decide (sigNum = sigcont) && decide (thr.state = .stopped)) = false := by
      simpa using hcont
    simp [hkill, hstop, hnot]

lemma endWait_ok (h : endWait thr = .ok thr') : thr' = { thr with
      onReadyList := thr.state = .waitingForSignal || thr.onReadyList } := by
  unfold endWait at h
  split_ifs at h with hwait
  · obtain ⟨_, rfl⟩ := unblockThread_ok h
    simp [hwait]
  · cases h
    simp [hwait]

/-- The signal makes the thread ready. -/
def Thread.rouses (thr : Thread) (sigNum : Nat) : Bool :=
  thr.state = .waitingForSignal || (sigNum = sigcont && thr.state = .stopped)

/-- The thread after a signal has been raised. -/
def Thread.raised (thr : Thread) (sigNum : Nat) : Thread :=
  { thr with
    signalIntr := true
    pendingSignals := thr.pendingSignals ||| bit sigNum
    needsTermination := sigNum = sigkill || thr.needsTermination
    needsStopping := sigNum = sigstop || thr.needsStopping
    onReadyList := thr.rouses sigNum || thr.onReadyList }

lemma raiseSignal_einval (hsig : sigUpperBnd ≤ sigNum) :
    raiseSignal sigNum thr = .ok (some .einval, thr) :=
  if_pos hsig

lemma raiseSignal_ok {errno : Option Errno} (hsig : sigNum < sigUpperBnd)
    (h : raiseSignal sigNum thr = .ok (errno, thr')) : thr' = thr.raised sigNum := by
  unfold raiseSignal at h
  rw [if_neg (by omega)] at h
  obtain ⟨special, hspecial, h⟩ := bind_eq_ok h
  obtain ⟨ended, hended, h⟩ := bind_eq_ok h
  cases h
  rw [endWait_ok hended, specialSignal_ok hspecial]
  unfold Thread.raised Thread.rouses
  rw [Bool.or_assoc]

/-! Events that may stop or have a choice. -/

lemma step_raise (h : (Event.raise sigNum).step thr = .ok thr') :
    sigUpperBnd ≤ sigNum ∧ thr' = thr ∨ sigNum < sigUpperBnd ∧ thr' = thr.raised sigNum := by
  obtain ⟨⟨errno, raised⟩, hraise, h⟩ := bind_eq_ok h
  cases h
  rcases Nat.lt_or_ge sigNum sigUpperBnd with hlt | hge
  · exact .inr ⟨hlt, raiseSignal_ok hlt hraise⟩
  · rw [raiseSignal_einval hge] at hraise
    cases hraise
    exact .inl ⟨hge, rfl⟩

lemma step_suspend {newMask : Sigset} {oldMask protect : Bool}
    (h : (Event.suspend newMask oldMask protect).step thr = .ok thr') :
    oldMask = false ∧ thr' = thr ∨ oldMask = true ∧ thr.state = .running ∧ thr' = { thr with
        state := .waitingForSignal
        prevBlockedSignals := thr.blockedSignals
        blockedSignals := protectIf protect newMask
        suspended := true } := by
  obtain ⟨⟨errno, blocked⟩, hsuspend, h⟩ := bind_eq_ok h
  cases h
  unfold suspendForSignal at hsuspend
  cases oldMask with
  | false =>
    cases hsuspend
    exact .inl ⟨rfl, rfl⟩
  | true =>
    obtain ⟨waiting, hblock, hsuspend⟩ := bind_eq_ok hsuspend
    obtain ⟨hrunning, rfl⟩ := blockThread_ok hblock
    cases hsuspend
    exact .inr ⟨rfl, hrunning, rfl⟩

lemma step_sleep {systemTimeNs now : Nat} (h : (Event.sleep systemTimeNs now).step thr = .ok thr') :
    thr' = thr ∨ thr.state = .running ∧ thr' = { thr with
      state := .sleeping, sleepExpiry := systemTimeNs, timedOut := false
      onSleepList := true } := by
  obtain ⟨⟨blocked, asleep⟩, hsleep, h⟩ := bind_eq_ok h
  cases h
  unfold sleepUntil at hsleep
  split_ifs at hsleep
  · cases hsleep
    exact .inl rfl
  · obtain ⟨sleeping, hblock, hsleep⟩ := bind_eq_ok hsleep
    obtain ⟨hrunning, rfl⟩ := blockThread_ok hblock
    cases hsleep
    exact .inr ⟨hrunning, rfl⟩

lemma pauseForSignal_ok (h : pauseForSignal thr = .ok thr') :
    thr.state = .running ∧ thr' = { thr with state := .waitingForSignal } :=
  blockThread_ok h

lemma handleSleepWakeups_ok {systemTime : Nat} (h : handleSleepWakeups systemTime thr = .ok thr') :
    thr' = thr ∨ thr.onSleepList = true ∧ thr' = { thr with
      onSleepList := false, timedOut := true
      timedOutDueToSignal := thr.signalIntr, onReadyList := true } := by
  unfold handleSleepWakeups at h
  split_ifs at h with hdue
  · obtain ⟨_, rfl⟩ := unblockThread_ok h
    exact .inr ⟨hdue.1, rfl⟩
  · cases h
    exact .inl rfl

lemma switchFrom_ok (h : switchFrom thr = .ok thr') : thr.state = .running ∧
      thr' = { thr with current := false, onReadyList := true } ∨ thr.state ≠ .running ∧
      thr' = { thr with current := false } := by
  unfold switchFrom at h
  split_ifs at h with hrunning
  · obtain ⟨_, rfl⟩ := unblockThread_ok h
    exact .inl ⟨hrunning, rfl⟩
  · cases h
    exact .inr ⟨hrunning, rfl⟩

lemma afterSchedule_ok (h : afterSchedule thr = .ok thr') :
    thr' = { thr with state := .terminated } ∨ thr.needsStopping = true ∧
    thr' = { thr with state := .stopped, needsStopping := false } ∨ thr' = thr := by
  unfold afterSchedule at h
  split_ifs at h with hterminate hstop
  · exact .inl (blockThread_ok h).2
  · exact .inr (.inl ⟨hstop, (blockThread_ok h).2⟩)
  · cases h
    exact .inr (.inr rfl)

/-! Delivery. -/

/-- The thread after a signal has been found. -/
def Thread.taken (thr : Thread) (index : Nat) : Thread :=
  { thr with
    signalIntr := false
    pendingSignals := thr.pendingSignals &&& ~~~bit index
    blockedSignals := thr.blockedSignals ||| bit index }

/-- The signal is the first that is pending and not blocked. -/
structure Thread.FirstAvailable (thr : Thread) (index : Nat) : Prop where
  pending : thr.pendingSignals.getLsbD index = true
  unblocked : thr.blockedSignals.getLsbD index = false
  lowest : ∀ lower < index, thr.pendingSignals.getLsbD lower = true →
    thr.blockedSignals.getLsbD lower = true

lemma findSignalToHandle_cases (thr : Thread) : thr.availableSignals = 0 ∧
    findSignalToHandle thr = (none, thr) ∨ ∃ index, thr.FirstAvailable index ∧
    findSignalToHandle thr = (some index, thr.taken index) := by
  unfold findSignalToHandle
  split_ifs with hnone
  · exact .inl ⟨hnone, rfl⟩
  · obtain ⟨i, hi⟩ := sigset_ne_zero_iff.mp hnone
    obtain ⟨lowest, hlowest, _, hset, hbelow⟩ := lowestFrom_spec 0 ⟨i, lt_of_getLsbD hi, hi⟩
    rw [Nat.zero_add] at hlowest
    unfold Thread.availableSignals at hset hbelow
    rw [getLsbD_and, Bool.and_eq_true, getLsbD_not,
      Bool.and_eq_true, Bool.not_eq_true'] at hset
    refine .inr ⟨lowest, ⟨hset.1, hset.2.2, fun lower hlt hpending => ?_⟩, ?_⟩
    · have hnot := hbelow lower hlt
      rw [getLsbD_and, hpending, Bool.true_and, getLsbD_not,
        decide_eq_true (lt_of_getLsbD hpending), Bool.true_and, Bool.not_eq_false'] at hnot
      exact hnot
    · rw [hlowest]
      rfl

lemma deliver_cases (thr : Thread) : thr.availableSignals = 0 ∧ deliver thr = (none, thr) ∨
    ∃ index, thr.FirstAvailable index ∧
    deliver thr = (some index, (handleSignal index (thr.taken index)).2) := by
  unfold deliver
  rcases findSignalToHandle_cases thr with ⟨hnone, heq⟩ | ⟨index, hfirst, heq⟩
  · rw [heq]
    exact .inl ⟨hnone, rfl⟩
  · rw [heq]
    exact .inr ⟨index, hfirst, rfl⟩

end Merlon.Signals
