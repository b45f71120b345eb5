/-
Waiting for signals.  `SuspendForSignal` and `PauseForSignal` block without
looking at what is pending, so a signal that came before them does not end the
wait.  When nothing can be delivered at the moment they block, no signal is
slept through.
-/
import Merlon.Signals.Interrupts

namespace Merlon.Signals

/-- The thread waits for a signal, nobody will run it, and there is a signal
that its mask does not block. -/
def Thread.SleepsThrough (thr : Thread) : Prop :=
  thr.state = .waitingForSignal ∧ thr.onReadyList = false ∧ thr.Deliverable

/-- A wait begins only when its mask blocks every pending signal. -/
def Event.nothingPending (thr : Thread) : Event → Bool
  | .suspend newMask true protect => thr.pendingSignals &&& ~~~protectIf protect newMask = 0
  | .pause => thr.availableSignals = 0
  | _ => true

variable {thr thr' : Thread}

lemma not_waiting_of_runsOn (h : thr.runsOn = true) :
    thr.state ≠ .waitingForSignal ∨ thr.onReadyList = true := by
  unfold Thread.runsOn at h
  rw [Bool.and_eq_true, Bool.or_eq_true, decide_eq_true_iff] at h
  rcases h.2 with hrunning | hready
  · rw [hrunning]
    exact .inl nofun
  · exact .inr hready

/-- What the thread itself does leaves it running or ready. -/
lemma not_sleepsThrough_of_same (h : thr.runsOn = true) (hstate : thr'.state = thr.state)
    (hready : thr'.onReadyList = thr.onReadyList) : ¬ thr'.SleepsThrough := by
  rintro ⟨hwaits, hunready, _⟩
  rw [hstate] at hwaits
  rw [hready] at hunready
  rcases not_waiting_of_runsOn h with hruns | hruns
  · exact hruns hwaits
  · rw [hunready] at hruns
    cases hruns

lemma runsOn_of_and {flag : Bool} (h : (thr.runsOn && flag) = true) : thr.runsOn = true :=
  ((Bool.and_eq_true _ _).mp h).1

lemma step_not_sleepsThrough {event : Event} (h : ¬ thr.SleepsThrough)
    (hstep : Step Event.nothingPending thr event thr') : ¬ thr'.SleepsThrough := by
  obtain ⟨hvalid, _, hguard, hstep⟩ := hstep
  cases event with
  | raise sigNum =>
    rcases step_raise hstep with ⟨_, rfl⟩ | ⟨_, rfl⟩
    · exact h
    · rintro ⟨hwaits, hunready, _⟩
      have hrouses : thr.rouses sigNum = true := by
        unfold Thread.rouses
        rw [decide_eq_true (show thr.state = .waitingForSignal from hwaits), Bool.true_or]
      change (thr.rouses sigNum || thr.onReadyList) = false at hunready
      rw [hrouses] at hunready
      cases hunready
  | find found =>
    obtain rfl := Except.ok.inj hstep
    rcases findSignalToHandle_cases thr with ⟨_, heq⟩ | ⟨index, _, heq⟩
    · rw [heq]
      exact h
    · rw [heq]
      rintro ⟨hwaits, hunready, other, hpending, hblocked⟩
      refine h ⟨hwaits, hunready, other, ?_, ?_⟩
      · change (thr.pendingSignals &&& _).getLsbD other = true at hpending
        rw [BitVec.getLsbD_and, Bool.and_eq_true] at hpending
        exact hpending.1
      · change (thr.blockedSignals ||| _).getLsbD other = false at hblocked
        rw [BitVec.getLsbD_or, Bool.or_eq_false_iff] at hblocked
        exact hblocked.1
  | handle sigNum =>
    obtain rfl := Except.ok.inj hstep
    exact not_sleepsThrough_of_same hvalid rfl rfl
  | deliver found =>
    obtain rfl := Except.ok.inj hstep
    rcases deliver_cases thr with ⟨_, heq⟩ | ⟨index, _, heq⟩
    · rw [heq]
      exact h
    · rw [heq]
      exact not_sleepsThrough_of_same hvalid rfl rfl
  | setBlocked how changes protect =>
    obtain rfl := Except.ok.inj hstep
    cases changes with
    | none => exact h
    | some changes => exact not_sleepsThrough_of_same (runsOn_of_and hvalid) rfl rfl
  | suspend newMask oldMask protect =>
    rcases step_suspend hstep with ⟨_, rfl⟩ | ⟨rfl, _, rfl⟩
    · exact h
    · rintro ⟨_, _, hdeliverable⟩
      exact deliverable_iff.mp hdeliverable (of_decide_eq_true hguard)
  | resume =>
    obtain rfl := Except.ok.inj hstep
    exact not_sleepsThrough_of_same (runsOn_of_and hvalid) rfl rfl
  | pause =>
    obtain ⟨_, rfl⟩ := pauseForSignal_ok hstep
    rintro ⟨_, _, hdeliverable⟩
    exact deliverable_iff.mp hdeliverable (of_decide_eq_true hguard)
  | sleep systemTimeNs now =>
    rcases step_sleep hstep with rfl | ⟨_, rfl⟩
    · exact h
    · exact fun hsleeps => nomatch hsleeps.1
  | afterSchedule =>
    rcases afterSchedule_ok hstep with rfl | ⟨_, rfl⟩ | rfl
    · exact fun hsleeps => nomatch hsleeps.1
    · exact fun hsleeps => nomatch hsleeps.1
    · exact h
  | wakeups systemTime =>
    rcases handleSleepWakeups_ok hstep with rfl | ⟨_, rfl⟩
    · exact h
    · exact fun hsleeps => nomatch hsleeps.2.1
  | switchFrom =>
    rcases switchFrom_ok hstep with ⟨_, rfl⟩ | ⟨_, rfl⟩
    · exact fun hsleeps => nomatch hsleeps.2.1
    · exact h
  | switchTo =>
    obtain rfl := Except.ok.inj hstep
    exact fun hsleeps => nomatch hsleeps.1

/-- No signal is slept through in a run whose waits begin with nothing
pending. -/
theorem run_not_sleepsThrough {events : List Event}
    (hrun : Run (Step Event.nothingPending) newThread events thr) : ¬ thr.SleepsThrough := by
  have hstart : ¬ newThread.SleepsThrough := fun hsleeps => nomatch hsleeps.1
  exact hrun.invariant (P := fun thr => ¬ thr.SleepsThrough) hstart
    fun _ _ _ => step_not_sleepsThrough

/-- A signal that comes during the wait ends it. -/
theorem signalDuringWait_ready : ∃ thr, Run (Step Event.nothingPending) newThread
    [.switchTo, .suspend 0 true true, .switchFrom, .raise 10] thr ∧ thr.onReadyList = true ∧
    ¬ thr.SleepsThrough :=
  exists_run_and (ready_step _) (fun hrun _ => run_not_sleepsThrough hrun) (by decide +kernel)

/-- A signal that was blocked before the wait, and is not during it. -/
theorem signalBeforeWait_sleepsThrough : ∃ thr, Run (Step anyEvent) newThread
      [.switchTo, .setBlocked sigBlock (some (bit 10)) true, .raise 10,
        .suspend 0 true true, .switchFrom] thr ∧ thr.SleepsThrough := by
  obtain ⟨thr, hrun, htest⟩ := exists_run_of_carryOut (ready_step anyEvent) newThread
    [.switchTo, .setBlocked sigBlock (some (bit 10)) true, .raise 10,
      .suspend 0 true true, .switchFrom]
    (fun thr => thr.state = .waitingForSignal && !thr.onReadyList && thr.availableSignals ≠ 0)
    (by decide +kernel)
  rw [Bool.and_eq_true, Bool.and_eq_true, decide_eq_true_iff,
    decide_eq_true_iff, Bool.not_eq_true'] at htest
  exact ⟨thr, hrun, htest.1.1, htest.1.2, deliverable_iff.mpr htest.2⟩

end Merlon.Signals
