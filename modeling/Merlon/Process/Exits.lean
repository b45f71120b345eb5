/-
`ReapProcess` asserts that the semaphore of the process it destroys is full.
This holds for a process that exits with a full semaphore, and that nobody
releases a unit to afterwards unless one of its threads waits for it.
-/
import Merlon.Process.Kills

namespace Merlon.Processes

open State

open Adt

/-- A unit that is released now leaves the semaphore full if the process is
stopped. -/
def State.absorbs (s : State) (a : Nat) : Bool :=
  s.runs a || !(s.semaphore a).waiting.isEmpty

/-- A process exits with a full semaphore, and units are released to running
processes or to threads that wait. -/
def Event.settled (s : State) : Event → Bool
  | .killer thread =>
    match s.killer thread with
    | none => true
    | some k =>
      match k.phase with
      | .start => decide ((s.semaphore k.process).currentCount = semBigNumber)
      | .adopting adopter (_ :: _) => s.absorbs adopter
      | .notifying parent =>
        match s.getProcessFromPid parent with
        | none => true
        | some a => s.absorbs a
      | _ => true
  | _ => true

/-- The semaphores of the processes that are stopped are full. -/
def State.Full (s : State) : Prop :=
  ∀ a p, s.process a = some p → p.stopped = true → (s.semaphore a).currentCount = semBigNumber

/-- Any failure but that of the assertion in `ReapProcess`. -/
def Stop.other (stop : Stop) : Prop :=
  stop ≠ .assertionFailed .semaphoreFull

/-- Every process of the second state is stopped as it was in the first. -/
def State.SameStops (s s' : State) : Prop :=
  ∀ b q, s'.process b = some q → ∃ p, s.process b = some p ∧ q.stopped = p.stopped

lemma State.sameStops_setProcess {s : State} {a : Nat} {p : Process}
    (p' : Process) (hp : s.process a = some p) (hsame : p'.stopped = p.stopped) :
    s.SameStops (s.setProcess a (some p')) :=
  forall_setProcess (fun _ q hq _ => ⟨q, hq, rfl⟩) ⟨p, hp, hsame⟩

lemma State.SameStops.trans {s s' s'' : State} (h : s.SameStops s')
    (h' : s'.SameStops s'') : s.SameStops s'' := by
  intro b q hq
  obtain ⟨r, hr, hsame⟩ := h' b q hq
  obtain ⟨p, hp, hsame'⟩ := h b r hr
  exact ⟨p, hp, hsame.trans hsame'⟩

namespace State.Full

variable {s s' : State} {a thread : Nat} {parent : Nat}

variable {p : Process} {w : Wait} {child : Nat} {k : Killer}

lemma setProcess (h : s.Full)
    (hnew : p.stopped = true → (s.semaphore a).currentCount = semBigNumber) :
    (s.setProcess a (some p)).Full :=
  forall_setProcess (fun b q hq _ => h b q hq) hnew

/-- A process changes that is stopped as before. -/
lemma update (h : s.Full) (p' : Process) (hp : s.process a = some p)
    (hstopped : p'.stopped = p.stopped) : (s.setProcess a (some p')).Full :=
  h.setProcess fun hstop => h a p hp (hstopped ▸ hstop)

lemma free (h : s.Full) : (s.freeProcess a).Full := by
  intro b p hp
  by_cases heq : b = a
  · subst heq
    simp [freeProcess] at hp
  · exact h b p ((setProcess_of_ne s none heq).symm.trans hp)

lemma setSemaphore {sem : Semaphore} (h : s.Full)
    (hnew : ∀ p, s.process a = some p → p.stopped = true → sem.currentCount = semBigNumber) :
    (s.setSemaphore a sem).Full := by
  intro b p hp hstopped
  by_cases heq : b = a
  · subst heq
    rw [setSemaphore_self]
    exact hnew p hp hstopped
  · rw [setSemaphore_of_ne _ _ heq]
    exact h b p hp hstopped

lemma release (h : s.Full)
    (hsafe : ∀ p, s.process a = some p → p.stopped = true → (s.semaphore a).waiting ≠ []) :
    Ends (s.releaseSemaphore a) Stop.other fun s' => s'.Full ∧ s'.process = s.process := by
  unfold releaseSemaphore
  dsimp only
  split
  · split
    · rename_i hnone
      exact ⟨h.setSemaphore fun p hp hstopped => absurd hnone (hsafe p hp hstopped), rfl⟩
    · exact ⟨h.setSemaphore (h a), rfl⟩
  · intro hfull
    cases hfull

/-- A thread of the process runs and releases its units. -/
lemma releaseFailedReaps {count : Nat} (h : s.Full)
    (hruns : ∀ p, s.process a = some p → p.stopped = false) :
    Ends (releaseFailedReaps a count s) Stop.other State.Full := by
  induction count generalizing s with
  | zero => exact h
  | succ count ih =>
    refine (h.release fun p hp hstopped =>
      Bool.noConfusion ((hruns p hp).symm.trans hstopped)).bind fun s₁ h₁ => ?_
    exact ih h₁.1 (h₁.2 ▸ hruns)

lemma endWait {result : Nat} (h : s.Full)
    (hruns : ∀ p, s.process w.process = some p → p.stopped = false) :
    Ends (s.endWait thread w result) Stop.other State.Full :=
  (State.Full.releaseFailedReaps (s := s.setWait thread none) h hruns).bind fun _ hfull => hfull

lemma continueScan {todo : List (TreeNode Nat)} (h : s.Full) :
    (s.continueScan thread w todo).Full := by
  unfold State.continueScan
  split <;> exact h

lemma acquire (h : s.Full) (hruns : ∀ p, s.process w.process = some p → p.stopped = false) :
    Ends (s.acquire thread w) Stop.other State.Full := by
  unfold State.acquire
  dsimp only
  split
  · exact h.setSemaphore fun p hp hstopped => Bool.noConfusion ((hruns p hp).symm.trans hstopped)
  · split
    · exact h.endWait hruns
    · exact h.setSemaphore (h w.process)

lemma find (s : State) (a : Nat) : Ends (s.find a) Stop.other fun p => s.process a = some p := by
  unfold State.find
  split
  · intro hfull
    cases hfull
  · rename_i p hp
    exact hp

/-- The semaphore of a process that is stopped can be destroyed. -/
lemma destroySemaphore (hfull : (s.semaphore a).currentCount = semBigNumber) :
    Ends (s.destroySemaphore a p) Stop.other fun _ => True := by
  unfold State.destroySemaphore
  split
  · intro hfull
    cases hfull
  · rw [if_neg (not_not.mpr hfull)]
    trivial

section

variable (h : s.Full)
include h

lemma visit {left right : TreeNode Nat} {rest : List (TreeNode Nat)}
    (hsound : Sound s) : Ends (s.visit thread w left child right rest) Stop.other State.Full := by
  refine (find s w.process).bind fun p hp => (find s child).bind fun c hc => ?_
  split
  · rename_i hreap
    have hstopped := (hsound.family.flags child c hc).terminated hreap.1
    refine (destroySemaphore (h child c hc hstopped)).bind fun _ _ => ?_
    exact h.update _ hc rfl
  · exact h.continueScan

lemma removeFromProcessTable {pid : Nat} :
    Ends (s.removeFromProcessTable pid) Stop.other fun s' => s'.Full ∧ s'.process = s.process := by
  unfold State.removeFromProcessTable
  split
  · intro hfull
    cases hfull
  · exact ⟨h, rfl⟩

lemma deleteChild : Ends (s.deleteChild a child) Stop.other fun s' =>
      s'.Full ∧ s.SameStops s' := by
  refine (find s a).bind fun p hp => ?_
  split
  · intro hfull
    cases hfull
  · exact ⟨h.update _ hp rfl, sameStops_setProcess _ hp rfl⟩

lemma insertChild : Ends (s.insertChild a child) Stop.other fun s' =>
      s'.Full ∧ s'.semaphore = s.semaphore ∧ s.SameStops s' := by
  refine (find s a).bind fun p hp => ?_
  split
  · intro hfull
    cases hfull
  · exact ⟨h.update _ hp rfl, rfl, sameStops_setProcess _ hp rfl⟩

lemma detach (hruns : ∀ p, s.process w.process = some p → p.stopped = false) :
    Ends (s.detach thread w child) Stop.other State.Full := by
  have hend : ∀ s₁ : State, s₁.Full → s.SameStops s₁ →
      ∀ result, Ends (((s₁.freeProcess child).setLock w.process none).endWait thread w result)
      Stop.other State.Full := by
    intro s₁ h₁ hsame result
    refine State.Full.endWait (s := (s₁.freeProcess child).setLock _ none) h₁.free fun p' hp' => ?_
    have hp' : (s₁.setProcess child none).process w.process = some p' := hp'
    by_cases heq : w.process = child
    · rw [heq, setProcess_self] at hp'
      cases hp'
    · rw [setProcess_of_ne _ _ heq] at hp'
      obtain ⟨p, hp, hstopped⟩ := hsame w.process p' hp'
      exact hstopped.trans (hruns p hp)
  refine (find s child).bind fun c hc => ?_
  split
  · exact hend s h (fun b p hp => ⟨p, hp, rfl⟩) c.pid
  · split
    · intro hfull
      cases hfull
    · exact h.deleteChild.bind fun s₁ h₁ => hend s₁ h₁.1 h₁.2 c.pid

lemma stepWait (hsound : Sound s) (hruns : s.runs w.process = true) :
    Ends (s.stepWait thread w) Stop.other State.Full := by
  have hrunning : ∀ p, s.process w.process = some p → p.stopped = false :=
    fun p hp => State.stopped_of_runs hp hruns
  unfold State.stepWait
  split
  · exact h.acquire hrunning
  · exact h
  · exact (find s w.process).bind fun p _ => State.Full.continueScan h
  · exact h.visit hsound
  · exact h.continueScan
  · exact (find s _).bind fun c _ => h.removeFromProcessTable.bind fun s₁ h₁ => h₁.1
  · exact h.detach hrunning

lemma terminate (hstopped : ∀ p, s.process k.process = some p → p.stopped = true) :
    Ends (s.terminate thread k) Stop.other State.Full := by
  refine (find s k.process).bind fun p hp => ?_
  have h₁ := h.update { p with terminated := true } hp rfl
  split
  · refine (destroySemaphore (h k.process p hp (hstopped p hp))).bind fun _ _ => h₁
  · exact h₁

lemma continueAdoption {orphans : List Nat}
    (hstopped : ∀ p, s.process k.process = some p → p.stopped = true) :
    Ends (s.continueAdoption thread k orphans) Stop.other State.Full := by
  unfold State.continueAdoption
  split
  · exact h.terminate hstopped
  · exact h

end

lemma waiting_of_absorbs (habsorbs : s.absorbs a = true)
    (hp : s.process a = some p) (hstopped : p.stopped = true) : (s.semaphore a).waiting ≠ [] := by
  simpa [absorbs, runs, hp, hstopped] using habsorbs

section

variable (h : s.Full)
include h

lemma adoptOrphan {adopter orphan : Nat} {rest : List Nat} (habsorbs : s.absorbs adopter = true) :
    Ends (s.adoptOrphan k adopter orphan rest) Stop.other fun s' => s'.Full ∧ s.SameStops s' := by
  refine (find s adopter).bind fun a ha => (find s orphan).bind fun c hc => ?_
  split
  · intro hfull
    cases hfull
  · have hfirst := sameStops_setProcess { c with
      parent := a.pid
      notified := c.terminated } hc rfl
    refine (State.Full.insertChild (h.update { c with
      parent := a.pid
      notified := c.terminated } hc rfl)).bind fun s₁ h₁ => ?_
    obtain ⟨hfull, hsemaphore, hinsert⟩ := h₁
    have hsame := hfirst.trans hinsert
    refine (hfull.release fun p' hp' hstopped => ?_).imp fun s₂ h₂ =>
      ⟨h₂.1, fun b q hq => hsame b q (h₂.2 ▸ hq)⟩
    obtain ⟨p, hp, hstop⟩ := hsame adopter p' hp'
    have hwaiting := waiting_of_absorbs habsorbs hp (hstop.symm.trans hstopped)
    rw [hsemaphore]
    exact hwaiting

lemma notify (habsorbs : ∀ a, s.getProcessFromPid parent = some a → s.absorbs a = true) :
    Ends (s.notify k parent) Stop.other State.Full := by
  unfold State.notify
  split
  · intro hfull
    cases hfull
  · rename_i a ha
    have hsafe : ∀ p, s.process a = some p → p.stopped = true → (s.semaphore a).waiting ≠ [] :=
      fun p hp => waiting_of_absorbs (habsorbs a ha) hp
    split
    · exact (h.release hsafe).imp fun _ h₁ => h₁.1
    · rename_i p hp
      split
      · refine (State.Full.release (h.update { p with
          notified := p.terminated } hp rfl) fun q hq hstopped => ?_).imp
          fun _ h₁ => h₁.1
        obtain ⟨r, hr, hsame⟩ := State.sameStops_setProcess
          { p with notified := p.terminated } hp rfl a q hq
        exact hsafe r hr (hsame.symm.trans hstopped)
      · exact (h.release hsafe).imp fun _ h₁ => h₁.1

lemma stepKiller (hsound : Sound s) (hk : s.killer thread = some k)
    (hsettled : (Event.killer thread).settled s = true) :
    Ends (s.stepKiller thread k) Stop.other State.Full := by
  have hkiller := hsound.killers.sound thread k hk
  simp only [Event.settled, hk] at hsettled
  unfold Killer.Sound at hkiller
  unfold State.stepKiller
  split <;> rename_i hphase <;> rw [hphase] at hkiller hsettled
  · refine (find s k.process).bind fun p hp => ?_
    refine State.Full.continueAdoption
      (h.setProcess fun _ => of_decide_eq_true hsettled) fun q hq => ?_
    rw [State.setProcess_self] at hq
    cases hq
    rfl
  · split
    · intro hfull
      cases hfull
    · exact h
  · obtain ⟨⟨⟨q, hq, _, hstopped, _⟩, _, _⟩, _⟩ := hkiller
    refine (h.adoptOrphan hsettled).bind fun s₁ h₁ => ?_
    refine h₁.1.continueAdoption fun p hp => ?_
    obtain ⟨r, hr, hsame⟩ := h₁.2 _ p hp
    cases hq.symm.trans hr
    exact hsame.trans hstopped
  · obtain ⟨⟨⟨q, hq, _, hstopped, _⟩, _, _⟩, _⟩ := hkiller
    refine h.continueAdoption fun p hp => ?_
    cases hq.symm.trans hp
    exact hstopped
  · refine (h.notify fun a ha => ?_).bind fun s₁ h₁ => h₁
    simpa [ha] using hsettled
  · refine (find s k.process).bind fun p _ => ?_
    exact h.removeFromProcessTable.bind fun s₁ h₁ => h₁.1.free

lemma create : Ends (s.create parent a) Stop.other State.Full := by
  have henroll : (s.enroll parent a).Full := by
    refine State.Full.setProcess (s := (s.setSemaphore a _).setLock a none)
      (h.setSemaphore fun _ _ _ => rfl) nofun
  unfold State.create
  dsimp only
  split
  · exact henroll
  · split
    · intro hfull
      cases hfull
    · exact henroll.insertChild.imp fun _ h₁ => h₁.1

/-- A step ends with full semaphores, or fails in another way. -/
lemma step {event : Event} (hsound : Sound s) (hallowed : event.allowed s = true)
    (hsettled : event.settled s = true) : Ends (event.step s) Stop.other State.Full := by
  cases event with
  | create parent a => exact h.create
  | wait thread a pid noHang => exact h
  | goOn thread =>
    dsimp only [Event.step]
    split
    · exact h
    · rename_i w hw
      simp only [Event.allowed, hw, Bool.and_eq_true] at hallowed
      exact h.stepWait hsound hallowed.1
  | kill thread a retv => exact (find s a).bind fun p hp => h.update _ hp rfl
  | killer thread =>
    dsimp only [Event.step]
    split
    · exact h
    · rename_i k hk
      exact h.stepKiller hsound hk hsettled

end

end State.Full

end Merlon.Processes
