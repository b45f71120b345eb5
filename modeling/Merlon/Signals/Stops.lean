/-
Stopping and continuing.  SIGSTOP asks the thread to stop itself later; SIGCONT
wakes a thread that has stopped, and leaves a request that is still to be
carried out in place.
-/
import Merlon.Library.Machine
import Merlon.Signals.Effects

namespace Merlon.Signals

/-- Whether the last of the stop and continue signals is a continue. -/
def continues (before : Bool) : Event → Bool
  | .raise sigNum =>
    if sigNum = sigcont then true else if sigNum = sigstop then false
    else before
  | _ => before

def lastContinues (events : List Event) : Bool :=
  events.foldl continues false

/-- The thread is not held up by a stop, and its next `Schedule` does not stop
it. -/
structure Thread.Continues (thr : Thread) : Prop where
  runnable : ¬ (thr.state = .stopped ∧ thr.onReadyList = false)
  staysSo : ∀ thr', afterSchedule thr = .ok thr' → thr'.state = .stopped → thr' = thr

/-- A continue signal finds no request to stop. -/
def Event.findsNoRequest (thr : Thread) : Event → Bool
  | .raise sigNum => sigNum ≠ sigcont || !thr.needsStopping
  | _ => true

/-- Nothing is left of the stops before the last continue. -/
structure Thread.Freed (thr : Thread) : Prop where
  request : thr.needsStopping = false
  runnable : thr.state = .stopped → thr.onReadyList = true

variable {thr thr' : Thread} {event : Event}

lemma Thread.Freed.continues (h : thr.Freed) : thr.Continues := by
  refine ⟨fun hstuck => ?_, fun thr' hschedule hstopped => ?_⟩
  · have hready := h.runnable hstuck.1
    rw [hstuck.2] at hready
    cases hready
  · rcases afterSchedule_ok hschedule with rfl | ⟨hrequest, _⟩ | rfl
    · cases hstopped
    · rw [h.request] at hrequest
      cases hrequest
    · rfl

/-- A continue signal frees a thread that has no request to stop. -/
lemma freed_of_sigcont (hrequest : thr.needsStopping = false) : (thr.raised sigcont).Freed := by
  constructor
  · change (decide (sigcont = sigstop) || thr.needsStopping) = false
    rw [hrequest]
    rfl
  · intro hstopped
    have hrouses : thr.rouses sigcont = true := by
      unfold Thread.rouses
      rw [decide_eq_true (show thr.state = .stopped from hstopped)]
      exact Bool.or_true _
    change (thr.rouses sigcont || thr.onReadyList) = true
    rw [hrouses, Bool.true_or]

lemma Thread.Freed.raised {sigNum : Nat} (h : thr.Freed)
    (hstop : sigNum ≠ sigstop) : (thr.raised sigNum).Freed := by
  constructor
  · change (decide (sigNum = sigstop) || thr.needsStopping) = false
    rw [decide_eq_false hstop, h.request]
    rfl
  · intro hstopped
    change (thr.rouses sigNum || thr.onReadyList) = true
    rw [h.runnable hstopped, Bool.or_true]

/-- The events other than a stop signal keep a thread freed. -/
lemma Thread.Freed.step (h : thr.Freed)
    (hstop : event ≠ .raise sigstop) (hstep : event.step thr = .ok thr') : thr'.Freed := by
  cases event with
  | raise sigNum =>
    rcases step_raise hstep with ⟨_, rfl⟩ | ⟨_, rfl⟩
    · exact h
    · exact h.raised fun heq => hstop (by rw [heq])
  | find found =>
    obtain rfl := Except.ok.inj hstep
    rcases findSignalToHandle_cases thr with ⟨_, heq⟩ | ⟨index, _, heq⟩
    · rw [heq]
      exact h
    · rw [heq]
      exact ⟨h.request, h.runnable⟩
  | handle sigNum =>
    obtain rfl := Except.ok.inj hstep
    exact ⟨h.request, h.runnable⟩
  | deliver found =>
    obtain rfl := Except.ok.inj hstep
    rcases deliver_cases thr with ⟨_, heq⟩ | ⟨index, _, heq⟩
    · rw [heq]
      exact h
    · rw [heq]
      exact ⟨h.request, h.runnable⟩
  | setBlocked how changes protect =>
    obtain rfl := Except.ok.inj hstep
    cases changes <;> exact ⟨h.request, h.runnable⟩
  | suspend newMask oldMask protect =>
    rcases step_suspend hstep with ⟨_, rfl⟩ | ⟨_, _, rfl⟩
    · exact h
    · exact ⟨h.request, nofun⟩
  | resume =>
    obtain rfl := Except.ok.inj hstep
    exact ⟨h.request, h.runnable⟩
  | pause =>
    obtain ⟨_, rfl⟩ := pauseForSignal_ok hstep
    exact ⟨h.request, nofun⟩
  | sleep systemTimeNs now =>
    rcases step_sleep hstep with rfl | ⟨_, rfl⟩
    · exact h
    · exact ⟨h.request, nofun⟩
  | afterSchedule =>
    rcases afterSchedule_ok hstep with rfl | ⟨hrequest, _⟩ | rfl
    · exact ⟨h.request, nofun⟩
    · rw [h.request] at hrequest
      cases hrequest
    · exact h
  | wakeups systemTime =>
    rcases handleSleepWakeups_ok hstep with rfl | ⟨_, rfl⟩
    · exact h
    · exact ⟨h.request, fun _ => rfl⟩
  | switchFrom =>
    rcases switchFrom_ok hstep with ⟨_, rfl⟩ | ⟨_, rfl⟩
    · exact ⟨h.request, fun _ => rfl⟩
    · exact ⟨h.request, h.runnable⟩
  | switchTo =>
    obtain rfl := Except.ok.inj hstep
    exact ⟨h.request, nofun⟩

lemma continues_of_ne {before : Bool} (hcont : event ≠ .raise sigcont)
    (hstop : event ≠ .raise sigstop) : Signals.continues before event = before := by
  cases event with
  | raise sigNum =>
    have hcont' : sigNum ≠ sigcont := fun heq => hcont (by rw [heq])
    have hstop' : sigNum ≠ sigstop := fun heq => hstop (by rw [heq])
    rw [Signals.continues, if_neg hcont', if_neg hstop']
  | _ => rfl

lemma run_freed {events : List Event} (hrun : Run (Step Event.findsNoRequest) newThread events thr)
    (hlast : lastContinues events = true) : thr.Freed := by
  induction hrun with
  | nil => cases hlast
  | @snoc middle finish events event before last ih =>
    obtain ⟨_, _, hguard, hstep⟩ := last
    unfold lastContinues at hlast ih
    rw [List.foldl_append, List.foldl_cons] at hlast
    by_cases hcont : event = .raise sigcont
    · subst hcont
      rcases step_raise hstep with ⟨hbig, _⟩ | ⟨_, rfl⟩
      · exact absurd hbig (by decide)
      · have hrequest : middle.needsStopping = false := by simpa [Event.findsNoRequest] using hguard
        exact freed_of_sigcont hrequest
    · have hstop : event ≠ .raise sigstop := by
        rintro rfl
        cases hlast
      rw [continues_of_ne hcont hstop] at hlast
      exact (ih hlast).step hstop hstep

/-- When every continue signal finds no request to stop, a thread whose last
stop or continue signal is a continue is not held up and does not stop
itself. -/
theorem run_continues {events : List Event}
    (hrun : Run (Step Event.findsNoRequest) newThread events thr)
    (hlast : lastContinues events = true) : thr.Continues :=
  (run_freed hrun hlast).continues

/-- A thread stops, and is continued. -/
theorem stopThenContinue_continues : ∃ thr, Run (Step Event.findsNoRequest) newThread
    [.raise sigstop, .switchTo, .afterSchedule, .switchFrom, .raise sigcont] thr ∧
    thr.Continues := by
  obtain ⟨thr, hrun, _⟩ := exists_run_of_carryOut (ready_step Event.findsNoRequest) newThread
    [.raise sigstop, .switchTo, .afterSchedule, .switchFrom, .raise sigcont]
    (fun _ => true) (by decide +kernel)
  exact ⟨thr, hrun, run_continues hrun (by decide)⟩

/-- A thread is continued before it has stopped, and stops afterwards. -/
theorem continueBeforeStop_stops : ∃ thr, Run (Step anyEvent) newThread
    [.raise sigstop, .raise sigcont, .switchTo, .afterSchedule] thr ∧ lastContinues
    [.raise sigstop, .raise sigcont, .switchTo, .afterSchedule] = true ∧ thr.state = .stopped ∧
    thr.onReadyList = false :=
  exists_run_test (ready_step _) (by decide +kernel)

end Merlon.Signals
