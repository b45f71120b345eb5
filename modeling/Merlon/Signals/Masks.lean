/-
Masks and deliveries.  A delivery blocks its signal and unblocks it again, and
a suspend saves and restores the mask; through all of it the protected signals
stay unblocked, and a signal is delivered at most as often as it is raised.
-/
import Merlon.Library.Machine
import Merlon.Signals.Effects

namespace Merlon.Signals

open BitVec

/-- The signals that cannot be blocked. -/
def specialSignals : List Nat :=
  [sigkill, sigstop, sigcont]

/-- Signals in range are raised, masks are protected, and what is found is
handled at once. -/
def Event.orderly (_ : Thread) : Event → Bool
  | .raise sigNum => sigNum < sigUpperBnd
  | .setBlocked _ _ protect => protect
  | .suspend _ _ protect => protect
  | .find _ | .handle _ => false
  | _ => true

/-- A delivery takes the lowest-numbered signal that is pending and not blocked
and changes neither the mask nor any other pending signal. -/
def Thread.DeliversOne (thr : Thread) (found : Option Nat) (thr' : Thread) :
    Prop :=
  match found with
  | none => thr.availableSignals = 0 ∧ thr' = thr
  | some sigNum => thr.FirstAvailable sigNum ∧ thr'.blockedSignals = thr.blockedSignals ∧
      ∀ other, thr'.pendingSignals.getLsbD
      other = (thr.pendingSignals.getLsbD other && other ≠ sigNum)

/-- None of the protected signals is in the set. -/
def Protected (blocked : Sigset) : Prop :=
  ∀ sigNum ∈ specialSignals, blocked.getLsbD sigNum = false

structure Thread.MasksProtected (thr : Thread) : Prop where
  blocked : Protected thr.blockedSignals
  prev : Protected thr.prevBlockedSignals

/-- A pending signal has been raised once more than delivered, at least. -/
def Accounts (events : List Event) (thr : Thread) : Prop :=
  ∀ sigNum, events.count (.deliver (some sigNum)) +
    (thr.pendingSignals.getLsbD sigNum).toNat ≤ events.count (.raise sigNum)

variable {thr thr' : Thread} {event : Event} {events : List Event} {found : Option Nat}

lemma protected_protectIf (blocked : Sigset) : Protected (protectIf true blocked) := by
  intro sigNum hspecial
  change (blocked &&& ~~~(bit sigkill ||| bit sigstop ||| bit sigcont)).getLsbD sigNum = false
  have hmask : (~~~(bit sigkill ||| bit sigstop ||| bit sigcont)).getLsbD sigNum = false := by
    simp only [specialSignals, List.mem_cons, List.not_mem_nil, or_false] at hspecial
    rcases hspecial with rfl | rfl | rfl <;> rfl
  rw [getLsbD_and, hmask, Bool.and_false]

/-- Blocking and unblocking a signal that was not blocked. -/
lemma unblock_block {blocked : Sigset} {index : Nat} (hindex : index < 32)
    (hunblocked : blocked.getLsbD index = false) :
    (blocked ||| bit index) &&& ~~~bit index = blocked := by
  refine eq_of_getLsbD_eq fun i hi => ?_
  rw [getLsbD_and, getLsbD_or, getLsbD_not, getLsbD_bit hindex]
  by_cases heq : i = index
  · subst heq
    rw [hunblocked, decide_eq_true rfl, Bool.not_true, Bool.and_false, Bool.and_false]
  · rw [decide_eq_false heq, decide_eq_true hi, Bool.or_false, Bool.not_false,
      Bool.and_true, Bool.and_true]

lemma deliver_deliversOne (thr : Thread) : thr.DeliversOne (deliver thr).1 (deliver thr).2 := by
  rcases deliver_cases thr with ⟨hnone, heq⟩ | ⟨index, hfirst, heq⟩
  · rw [heq]
    exact ⟨hnone, rfl⟩
  · rw [heq]
    have hindex : index < 32 := lt_of_getLsbD hfirst.pending
    refine ⟨hfirst, unblock_block hindex hfirst.unblocked, fun other => ?_⟩
    change (thr.pendingSignals &&& ~~~bit index).getLsbD other = _
    rw [getLsbD_and, getLsbD_not, getLsbD_bit hindex]
    cases hpending : thr.pendingSignals.getLsbD other with
    | false => rfl
    | true =>
      rw [decide_eq_true (lt_of_getLsbD hpending)]
      by_cases hother : other = index <;> simp

/-- What a delivery finds is what `FindSignalToHandle` returns. -/
lemma deliver_fst (thr : Thread) : (deliver thr).1 = (findSignalToHandle thr).1 := by
  unfold deliver
  rcases findSignalToHandle_cases thr with ⟨_, heq⟩ | ⟨index, _, heq⟩
  · rw [heq]
  · rw [heq]

lemma step_deliver {guard : Thread → Event → Bool} (hstep : Step guard thr (.deliver found) thr') :
    thr.DeliversOne found thr' ∧ thr'.prevBlockedSignals = thr.prevBlockedSignals := by
  obtain ⟨_, hreports, _, hstep⟩ := hstep
  obtain rfl := Except.ok.inj hstep
  obtain rfl := of_decide_eq_true hreports
  rw [← deliver_fst]
  refine ⟨deliver_deliversOne thr, ?_⟩
  rcases deliver_cases thr with ⟨_, heq⟩ | ⟨index, _, heq⟩
  · rw [heq]
  · rw [heq]
    rfl

/-- A delivery leaves the mask as it is. -/
lemma Thread.DeliversOne.blockedSignals (h : thr.DeliversOne found thr') :
    thr'.blockedSignals = thr.blockedSignals := by
  cases found with
  | none => rw [h.2]
  | some sigNum => exact h.2.1

lemma protected_changeMask {how : Int} {changes : Option Sigset} (h : thr.MasksProtected) :
    (setBlockedSignals how changes true thr).2.2.MasksProtected := by
  cases changes with
  | none => exact h
  | some changes => exact ⟨protected_protectIf _, h.prev⟩

lemma step_masksProtected (h : thr.MasksProtected)
    (hstep : Step Event.orderly thr event thr') : thr'.MasksProtected := by
  cases event with
  | deliver found =>
    obtain ⟨hdelivers, hprev⟩ := step_deliver hstep
    exact ⟨hdelivers.blockedSignals ▸ h.blocked, hprev ▸ h.prev⟩
  | raise sigNum =>
    rcases step_raise hstep.2.2.2 with ⟨_, rfl⟩ | ⟨_, rfl⟩
    · exact h
    · exact ⟨h.blocked, h.prev⟩
  | find found => cases hstep.2.2.1
  | handle sigNum => cases hstep.2.2.1
  | setBlocked how changes protect =>
    obtain ⟨_, _, rfl, hstep⟩ := hstep
    obtain rfl := Except.ok.inj hstep
    exact protected_changeMask h
  | suspend newMask oldMask protect =>
    obtain ⟨_, _, rfl, hstep⟩ := hstep
    rcases step_suspend hstep with ⟨_, rfl⟩ | ⟨_, _, rfl⟩
    · exact h
    · exact ⟨protected_protectIf _, h.blocked⟩
  | resume =>
    obtain rfl := Except.ok.inj hstep.2.2.2
    exact ⟨h.prev, h.prev⟩
  | pause =>
    obtain ⟨_, rfl⟩ := pauseForSignal_ok hstep.2.2.2
    exact ⟨h.blocked, h.prev⟩
  | sleep systemTimeNs now =>
    rcases step_sleep hstep.2.2.2 with rfl | ⟨_, rfl⟩
    · exact h
    · exact ⟨h.blocked, h.prev⟩
  | afterSchedule =>
    rcases afterSchedule_ok hstep.2.2.2 with rfl | ⟨_, rfl⟩ | rfl <;> exact ⟨h.blocked, h.prev⟩
  | wakeups systemTime =>
    rcases handleSleepWakeups_ok hstep.2.2.2 with rfl | ⟨_, rfl⟩ <;> exact ⟨h.blocked, h.prev⟩
  | switchFrom =>
    rcases switchFrom_ok hstep.2.2.2 with ⟨_, rfl⟩ | ⟨_, rfl⟩ <;> exact ⟨h.blocked, h.prev⟩
  | switchTo =>
    obtain rfl := Except.ok.inj hstep.2.2.2
    exact ⟨h.blocked, h.prev⟩

/-- The events that neither raise nor deliver leave the pending signals as they
are. -/
lemma step_pendingSignals (hstep : Step Event.orderly thr event thr')
    (hraise : ∀ sigNum, event ≠ .raise sigNum) (hdeliver : ∀ found, event ≠ .deliver found) :
    thr'.pendingSignals = thr.pendingSignals := by
  cases event with
  | raise sigNum => exact absurd rfl (hraise sigNum)
  | deliver found => exact absurd rfl (hdeliver found)
  | find found => cases hstep.2.2.1
  | handle sigNum => cases hstep.2.2.1
  | setBlocked how changes protect =>
    obtain rfl := Except.ok.inj hstep.2.2.2
    cases changes <;> rfl
  | suspend newMask oldMask protect =>
    rcases step_suspend hstep.2.2.2 with ⟨_, rfl⟩ | ⟨_, _, rfl⟩ <;> rfl
  | resume =>
    obtain rfl := Except.ok.inj hstep.2.2.2
    rfl
  | pause =>
    obtain ⟨_, rfl⟩ := pauseForSignal_ok hstep.2.2.2
    rfl
  | sleep systemTimeNs now => rcases step_sleep hstep.2.2.2 with rfl | ⟨_, rfl⟩ <;> rfl
  | afterSchedule => rcases afterSchedule_ok hstep.2.2.2 with rfl | ⟨_, rfl⟩ | rfl <;> rfl
  | wakeups systemTime => rcases handleSleepWakeups_ok hstep.2.2.2 with rfl | ⟨_, rfl⟩ <;> rfl
  | switchFrom => rcases switchFrom_ok hstep.2.2.2 with ⟨_, rfl⟩ | ⟨_, rfl⟩ <;> rfl
  | switchTo =>
    obtain rfl := Except.ok.inj hstep.2.2.2
    rfl

lemma count_snoc (events : List Event) (event other : Event) :
    (events ++ [event]).count other = events.count other + if event = other then 1 else 0 := by
  by_cases heq : event = other <;> simp [heq]

lemma step_accounts (h : Accounts events thr) (hstep : Step Event.orderly thr event thr') :
    Accounts (events ++ [event]) thr' := by
  intro sigNum
  have hbefore := h sigNum
  rw [count_snoc, count_snoc]
  by_cases hraise : ∃ raised, event = .raise raised
  · obtain ⟨raised, rfl⟩ := hraise
    rcases step_raise hstep.2.2.2 with ⟨_, rfl⟩ | ⟨hsig, rfl⟩
    · rw [if_neg nofun]
      omega
    · have hpending : (thr.raised raised).pendingSignals.getLsbD sigNum =
          (thr.pendingSignals.getLsbD sigNum || decide (sigNum = raised)) := by
        change (thr.pendingSignals ||| bit raised).getLsbD sigNum = _
        rw [getLsbD_or, getLsbD_bit (Nat.lt_trans hsig (by decide))]
      rw [hpending, if_neg nofun]
      by_cases heq : raised = sigNum
      · rw [if_pos (by rw [heq]), decide_eq_true heq.symm, Bool.or_true, Bool.toNat_true]
        omega
      · rw [decide_eq_false (Ne.symm heq), Bool.or_false]
        omega
  by_cases hdeliver : ∃ found, event = .deliver found
  · obtain ⟨found, rfl⟩ := hdeliver
    have hdelivers := (step_deliver hstep).1
    have hnone : ¬ Event.deliver found = .raise sigNum := nofun
    cases found with
    | none =>
      rw [hdelivers.2, if_neg nofun]
      omega
    | some index =>
      rw [hdelivers.2.2 sigNum]
      by_cases heq : index = sigNum
      · subst heq
        rw [if_pos rfl, decide_eq_false (not_not.mpr rfl), Bool.and_false, Bool.toNat_false]
        rw [hdelivers.1.pending, Bool.toNat_true] at hbefore
        omega
      · rw [if_neg (by simpa using heq), decide_eq_true (Ne.symm heq), Bool.and_true]
        omega
  · have hsame := step_pendingSignals hstep (fun raised heq => hraise ⟨_, heq⟩)
      fun found heq => hdeliver ⟨_, heq⟩
    rw [hsame, if_neg fun heq => hdeliver ⟨_, heq⟩]
    omega

lemma run_accounts (hrun : Run (Step Event.orderly) newThread events thr) :
    Accounts events thr := by
  induction hrun with
  | nil => exact fun sigNum => Nat.le_of_eq (by simp [newThread])
  | snoc before last ih => exact step_accounts ih last

/-- The protected signals are never blocked, every delivery takes exactly the
first signal that is available, and no signal is delivered more often than it
is raised. -/
theorem run_masks {events : List Event} (hrun : Run (Step Event.orderly) newThread events thr) :
    (∀ sigNum ∈ specialSignals, thr.blockedSignals.getLsbD sigNum = false) ∧
    (∀ found thr', Step Event.orderly thr (.deliver found) thr' → thr.DeliversOne found thr') ∧
    ∀ sigNum, events.count (.deliver (some sigNum)) ≤ events.count (.raise sigNum) := by
  refine ⟨?_, fun found thr' hstep => (step_deliver hstep).1, fun sigNum => ?_⟩
  · have hstart : newThread.MasksProtected := by
      refine ⟨fun sigNum _ => ?_, fun sigNum _ => ?_⟩ <;> exact getLsbD_zero
    exact (hrun.invariant hstart fun _ _ _ => step_masksProtected).blocked
  · have haccounts := run_accounts hrun sigNum
    omega

/-- Two signals are raised while one of them is blocked, and the other is
delivered. -/
theorem oneBlocked_masks : ∃ thr, Run (Step Event.orderly) newThread
    [.switchTo, .setBlocked sigSetmask (some (bit 3)) true, .raise 3, .raise 10, .deliver (some 10)]
    thr ∧ thr.blockedSignals.getLsbD sigkill = false := by
  obtain ⟨thr, hrun, _⟩ := exists_run_of_carryOut (ready_step Event.orderly) newThread
    [.switchTo, .setBlocked sigSetmask (some (bit 3)) true, .raise 3, .raise 10, .deliver (some 10)]
    (fun _ => true) (by decide +kernel)
  exact ⟨thr, hrun, (run_masks hrun).1 sigkill List.mem_cons_self⟩

end Merlon.Signals
