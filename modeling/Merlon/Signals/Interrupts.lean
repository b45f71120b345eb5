/-
The flag that interrupts a wait.  `RaiseSignal` sets it for any signal, blocked
or not, and a change of the mask leaves it as it is; the waits that it ends
report an interruption.  When it is set only for signals that can be delivered,
and no mask takes the last of them away, it says what it is meant to say.
-/
import Merlon.Library.Machine
import Merlon.Signals.Effects

namespace Merlon.Signals

/-- A signal is pending that the mask does not block. -/
def Thread.Deliverable (thr : Thread) : Prop :=
  ∃ sigNum, thr.pendingSignals.getLsbD sigNum = true ∧ thr.blockedSignals.getLsbD sigNum = false

/-- The flag says that a signal can be delivered, and so do those who read it:
the polling loops and the sleep that a wake-up ends. -/
structure Thread.Truthful (thr : Thread) : Prop where
  interrupted : thr.signalIntr = true → thr.Deliverable
  polled : hasBeenSignalled thr = true → thr.Deliverable
  slept : ∀ systemTime woken, thr.onSleepList = true →
    handleSleepWakeups systemTime thr = .ok woken →
    woken.onSleepList = false → sleepResult woken = some .eintr → woken.Deliverable

/-- A mask leaves some pending signal unblocked, or nothing is interrupted. -/
def Thread.allowsMask (thr : Thread) (blocked : Sigset) : Bool :=
  !thr.signalIntr || thr.pendingSignals &&& ~~~blocked != 0

/-- The event interrupts nothing without a signal that can be delivered. -/
def Event.justified (thr : Thread) : Event → Bool
  | .raise sigNum => sigUpperBnd ≤ sigNum ||
      !thr.blockedSignals.getLsbD sigNum || thr.availableSignals != 0
  | .setBlocked how (some changes) protect => thr.allowsMask
      (protectIf protect (changeMask how changes thr.blockedSignals))
  | .suspend newMask true protect => thr.allowsMask (protectIf protect newMask)
  | .resume => thr.allowsMask thr.prevBlockedSignals
  | _ => true

variable {thr thr' : Thread} {sigNum : Nat}

lemma deliverable_iff : thr.Deliverable ↔ thr.availableSignals ≠ 0 :=
  availableSignals_ne_zero_iff.symm

/-- Those who read the flag report what it says. -/
lemma truthful_iff : thr.Truthful ↔ (thr.signalIntr = true → thr.Deliverable) := by
  constructor
  · exact Thread.Truthful.interrupted
  · intro h
    refine ⟨h, h, fun systemTime woken hasleep hwake hawake heintr => ?_⟩
    rcases handleSleepWakeups_ok hwake with rfl | ⟨_, rfl⟩
    · rw [hasleep] at hawake
      cases hawake
    · unfold sleepResult at heintr
      split_ifs at heintr with hsignal
      exact h hsignal

lemma allowsMask_iff {blocked : Sigset} : thr.allowsMask blocked = true ↔
    (thr.signalIntr = true → thr.pendingSignals &&& ~~~blocked ≠ 0) := by
  unfold Thread.allowsMask
  cases thr.signalIntr <;> simp

lemma deliverable_raised (hsig : sigNum < sigUpperBnd) : (thr.raised sigNum).Deliverable ↔
    thr.blockedSignals.getLsbD sigNum = false ∨ thr.availableSignals ≠ 0 := by
  have hbound : sigNum < 32 := Nat.lt_trans hsig (by decide)
  rw [← deliverable_iff]
  unfold Thread.Deliverable Thread.raised
  constructor
  · rintro ⟨other, hpending, hblocked⟩
    rw [BitVec.getLsbD_or, getLsbD_bit hbound, Bool.or_eq_true, decide_eq_true_iff] at hpending
    rcases hpending with hold | rfl
    · exact .inr ⟨other, hold, hblocked⟩
    · exact .inl hblocked
  · rintro (hblocked | ⟨other, hpending, hblocked⟩)
    · exact ⟨sigNum, by simp [getLsbD_bit hbound], hblocked⟩
    · exact ⟨other, by simp [hpending], hblocked⟩

lemma justified_raise_iff : Event.justified thr (.raise sigNum) = true ↔ sigUpperBnd ≤ sigNum ∨
    thr.blockedSignals.getLsbD sigNum = false ∨ thr.availableSignals ≠ 0 := by
  unfold Event.justified
  rw [Bool.or_eq_true, Bool.or_eq_true, decide_eq_true_iff, or_assoc, Bool.not_eq_true', bne_iff_ne]

/-- One event leaves the flag truthful exactly when it is justified. -/
lemma step_truthful_iff {event : Event} (h : thr.Truthful) {guard : Thread → Event → Bool}
    (hstep : Step guard thr event thr') : thr'.Truthful ↔ event.justified thr = true := by
  rw [truthful_iff] at h ⊢
  obtain ⟨_, _, _, hstep⟩ := hstep
  have hsame : (thr'.signalIntr = true → thr'.Deliverable) →
      ((thr'.signalIntr = true → thr'.Deliverable) ↔ true = true) :=
    fun hthr => iff_of_true hthr rfl
  cases event with
  | raise sigNum =>
    rcases step_raise hstep with ⟨hbig, rfl⟩ | ⟨hsig, rfl⟩
    · exact iff_of_true h (justified_raise_iff.mpr (.inl hbig))
    · rw [deliverable_raised hsig, justified_raise_iff]
      exact ⟨fun hthr => .inr (hthr rfl), fun hthr _ => hthr.resolve_left (Nat.not_le.mpr hsig)⟩
  | find found =>
    obtain rfl := Except.ok.inj hstep
    rcases findSignalToHandle_cases thr with ⟨_, heq⟩ | ⟨index, _, heq⟩
    · rw [heq] at hsame ⊢
      exact hsame h
    · rw [heq] at hsame ⊢
      exact hsame nofun
  | handle sigNum =>
    obtain rfl := Except.ok.inj hstep
    refine hsame fun hintr => ?_
    obtain ⟨other, hpending, hblocked⟩ := h hintr
    refine ⟨other, hpending, ?_⟩
    change (thr.blockedSignals &&& _).getLsbD other = false
    rw [BitVec.getLsbD_and, hblocked, Bool.false_and]
  | deliver found =>
    obtain rfl := Except.ok.inj hstep
    rcases deliver_cases thr with ⟨_, heq⟩ | ⟨index, _, heq⟩
    · rw [heq] at hsame ⊢
      exact hsame h
    · rw [heq] at hsame ⊢
      exact hsame nofun
  | setBlocked how changes protect =>
    cases hstep
    cases changes with
    | none => exact hsame h
    | some changes =>
      change _ ↔ thr.allowsMask _ = true
      rw [allowsMask_iff, deliverable_iff]
      rfl
  | suspend newMask oldMask protect =>
    rcases step_suspend hstep with ⟨rfl, rfl⟩ | ⟨rfl, _, rfl⟩
    · exact hsame h
    · change _ ↔ thr.allowsMask _ = true
      rw [allowsMask_iff, deliverable_iff]
      rfl
  | resume =>
    cases hstep
    change _ ↔ thr.allowsMask _ = true
    rw [allowsMask_iff, deliverable_iff]
    rfl
  | pause =>
    obtain ⟨_, rfl⟩ := pauseForSignal_ok hstep
    exact hsame h
  | sleep systemTimeNs now =>
    rcases step_sleep hstep with rfl | ⟨_, rfl⟩
    · exact hsame h
    · exact hsame h
  | afterSchedule =>
    rcases afterSchedule_ok hstep with rfl | ⟨_, rfl⟩ | rfl
    · exact hsame h
    · exact hsame h
    · exact hsame h
  | wakeups systemTime =>
    rcases handleSleepWakeups_ok hstep with rfl | ⟨_, rfl⟩
    · exact hsame h
    · exact hsame h
  | switchFrom =>
    rcases switchFrom_ok hstep with ⟨_, rfl⟩ | ⟨_, rfl⟩
    · exact hsame h
    · exact hsame h
  | switchTo =>
    cases hstep
    exact hsame h

/-- In every run whose events are justified the flag stays truthful. -/
theorem run_truthful {events : List Event}
    (hrun : Run (Step Event.justified) newThread events thr) : thr.Truthful := by
  refine hrun.invariant (truthful_iff.mpr nofun) ?_
  intro before event after hbefore hstep
  exact (step_truthful_iff hbefore hstep).mpr hstep.2.2.1

/-- A signal that is not blocked ends a sleep. -/
theorem interruptedSleep_truthful : ∃ thr, Run (Step Event.justified) newThread
    [.switchTo, .sleep 100 0, .switchFrom, .raise 10] thr ∧ thr.signalIntr = true ∧ thr.Truthful :=
  exists_run_and (ready_step _) (fun hrun _ => run_truthful hrun) (by decide +kernel)

/-- A signal that is blocked interrupts a sleep. -/
theorem blockedSignal_interrupts : ∃ thr, Run (Step anyEvent) newThread
      [.switchTo, .setBlocked sigBlock (some (bit 10)) true, .sleep 100 0,
        .switchFrom, .raise 10, .wakeups 1] thr ∧
    sleepResult thr = some .eintr ∧ thr.signalIntr = true ∧ ¬ thr.Deliverable := by
  obtain ⟨thr, hrun, htest⟩ := exists_run_of_carryOut (ready_step anyEvent) newThread
    [.switchTo, .setBlocked sigBlock (some (bit 10)) true, .sleep 100 0,
      .switchFrom, .raise 10, .wakeups 1]
    (fun thr => sleepResult thr = some .eintr && thr.signalIntr && thr.availableSignals = 0)
    (by decide +kernel)
  rw [Bool.and_eq_true, Bool.and_eq_true, decide_eq_true_iff, decide_eq_true_iff] at htest
  exact ⟨thr, hrun, htest.1.1, htest.1.2, fun h => deliverable_iff.mp h htest.2⟩

end Merlon.Signals
