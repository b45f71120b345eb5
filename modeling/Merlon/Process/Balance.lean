/-
Units and zombies.  The units of a process are the free ones of its
`killed_children_semaphore` and those that its calls hold; its zombies are the
terminated children that a unit was released for.
-/
import Merlon.Process.Kills

namespace Merlon.Processes

open Adt State

/-- The units that a call holds: that of the scan it is in or before, and those
of the scans that failed. -/
def Wait.units (w : Wait) : Nat :=
  match w.phase with
  | .taken | .scanning _ => w.failedReaps + 1
  | _ => w.failedReaps

/-- The units that the calls of a process hold. -/
def State.held (s : State) (a : Nat) : Nat :=
  tally s.threadCount fun thread =>
    weigh (fun w => if w.process = a then w.units else 0) (s.wait thread)

/-- The free units of the semaphore of a process and those its calls hold. -/
def State.units (s : State) (a : Nat) : Int :=
  semBigNumber - (s.semaphore a).currentCount + s.held a

/-- A terminated child that a unit was released for and that nobody reaps. -/
def Process.isZombie (p : Process) (pid : Nat) : Bool :=
  decide (p.parent = pid) && p.terminated && p.notified && !p.reaping

/-- The number of zombies of a process that are not among those to skip. -/
def State.zombies (s : State) (pid : Nat) (skip : List Nat) : Nat :=
  tally s.memorySize fun child =>
    weigh (fun c => if c.isZombie pid ∧ child ∉ skip then 1 else 0) (s.process child)

namespace State

variable {s s' : State} {a thread : Nat}

lemma held_setWait (hle : thread ≤ s.threadCount) (w : Option Wait) (a : Nat) :
    (s.setWait thread w).held a + weigh (fun w => if w.process = a then w.units else 0)
    (s.wait thread) = s.held a + weigh (fun w => if w.process = a then w.units else 0) w :=
  tally_update hle (fun _ (w : Wait) => if w.process = a then w.units else 0) s.wait w

lemma zombies_setProcess (ha : a ≤ s.memorySize) (p : Option Process)
    (pid : Nat) (skip : List Nat) :
    (s.setProcess a p).zombies pid skip +
        weigh (fun c => if c.isZombie pid ∧ a ∉ skip then 1 else 0) (s.process a) =
      s.zombies pid skip + weigh (fun c => if c.isZombie pid ∧ a ∉ skip then 1 else 0) p :=
  tally_update ha (fun child (c : Process) =>
    if c.isZombie pid ∧ child ∉ skip then 1 else 0) s.process p

/-- A released unit is free or goes to a call of the process. -/
lemma units_release (h : Calls s) (halive : ∃ p, s.process a = some p)
    (hrelease : s.releaseSemaphore a = .ok s') (b : Nat) :
    s'.units b = s.units b + if b = a then 1 else 0 := by
  obtain ⟨p, hp⟩ := halive
  rcases releaseSemaphore_cases hrelease with ⟨_, rfl⟩ | ⟨thread, rest, hwaiting, rfl⟩
  · unfold units
    change _ - _ + (s.held b : Int) = _
    split
    · subst b
      rw [setSemaphore_self]
      dsimp only
      omega
    · rename_i hne
      rw [setSemaphore_of_ne _ _ hne]
      omega
  · obtain ⟨w, hw, rfl, hphase⟩ := h.queued a p thread hp (by simp [hwaiting])
    have hle := (h.sound thread w hw).thread_le
    have hheld := held_setWait hle (some { w with phase := .taken }) b
    have hold : w.units = w.failedReaps := by rw [Wait.units, hphase]
    rw [hw] at hheld
    simp only [weigh, hold] at hheld
    rw [grant, show (s.setSemaphore w.process _).wait thread = some w from hw]
    unfold units
    change _ - (((s.setSemaphore w.process _).semaphore b).currentCount) +
      ((s.setWait thread (some { w with phase := .taken })).held b : Int) = _
    by_cases hb : b = w.process
    · subst hb
      simp [Wait.units] at hheld ⊢
      omega
    · rw [setSemaphore_of_ne _ _ hb]
      simp [Ne.symm hb] at hheld
      omega

lemma units_releaseFailedReaps {count : Nat} (h : Calls s) (halive : ∃ p, s.process a = some p)
    (hrelease : releaseFailedReaps a count s = .ok s') (b : Nat) :
    s'.units b = s.units b + if b = a then count else 0 := by
  induction count generalizing s with
  | zero =>
    cases hrelease
    simp
  | succ count ih =>
    obtain ⟨s₁, hfirst, hrest⟩ := bind_eq_ok hrelease
    have hframe := releaseSemaphore_frame hfirst
    rw [ih (h.release halive hfirst) (by rw [hframe.process]; exact halive)
      hrest, units_release h halive hfirst b]
    split <;> push_cast <;> omega

/-- A call that returns gives back what it holds. -/
lemma units_endWait {w : Wait} {result : Nat} (h : Calls (s.setWait thread none))
    (hle : thread ≤ s.threadCount) (hw : s.wait thread = some w) (hunits : w.units = w.failedReaps)
    (halive : ∃ p, s.process w.process = some p) (hend : s.endWait thread w result = .ok s')
    (b : Nat) : s'.units b = s.units b := by
  obtain ⟨s₁, hrelease, hlog⟩ := bind_eq_ok hend
  cases hlog
  have hheld := held_setWait hle none b
  have hreleased := units_releaseFailedReaps h halive hrelease b
  rw [hw] at hheld
  simp only [weigh, hunits] at hheld
  change s₁.units b = s.units b
  rw [hreleased]
  unfold units
  change _ - (s.semaphore b).currentCount + _ + _ = _
  by_cases hb : b = w.process
  · subst hb
    omega
  · simp [hb, Ne.symm hb] at hheld ⊢
    omega

lemma currentCount_release (hrelease : s.releaseSemaphore a = .ok s') (b : Nat) :
    (s'.semaphore b).currentCount ≤ (s.semaphore b).currentCount := by
  rcases releaseSemaphore_cases hrelease with ⟨_, rfl⟩ | ⟨thread, rest, _, rfl⟩
  · by_cases hb : b = a
    · subst hb
      rw [setSemaphore_self]
      exact Int.sub_le_self _ (by decide)
    · rw [setSemaphore_of_ne _ _ hb]
  · change ((s.setSemaphore a _).semaphore b).currentCount ≤ _
    by_cases hb : b = a
    · subst hb
      rw [setSemaphore_self]
    · rw [setSemaphore_of_ne _ _ hb]

lemma currentCount_releaseFailedReaps {count : Nat}
    (hrelease : releaseFailedReaps a count s = .ok s') (b : Nat) :
    (s'.semaphore b).currentCount ≤ (s.semaphore b).currentCount := by
  induction count generalizing s with
  | zero =>
    cases hrelease
    exact Int.le_refl _
  | succ count ih =>
    obtain ⟨s₁, hfirst, hrest⟩ := bind_eq_ok hrelease
    exact Int.le_trans (ih hrest) (currentCount_release hfirst b)

end State

/-- A process goes on with more units, and with at most as many more
zombies. -/
structure Process.Gain (s s' : State) (a : Nat) (p p' : Process) (gain : Nat) : Prop where
  before : s.process a = some p
  pid : p'.pid = p.pid
  stopped : p'.stopped = false → p.stopped = false
  bounded : (s.semaphore a).currentCount ≤ semBigNumber →
    (s'.semaphore a).currentCount ≤ semBigNumber
  units : s'.units a = s.units a + gain
  zombies : ∀ skip, s'.zombies p.pid skip ≤ s.zombies p.pid skip + gain

def State.Gains (s s' : State) : Prop :=
  ∀ a p', s'.process a = some p' → ∃ p gain, Process.Gain s s' a p p' gain

namespace State.Gains

variable {s s' : State} {a thread : Nat}

lemma trans {s'' : State} (h : s.Gains s') (h' : s'.Gains s'') : s.Gains s'' := by
  intro b r hr
  obtain ⟨q, gain', hgain'⟩ := h' b r hr
  obtain ⟨p, gain, hgain⟩ := h b q hgain'.before
  refine ⟨p, gain + gain', hgain.before, hgain'.pid.trans hgain.pid,
    fun hstopped => hgain.stopped (hgain'.stopped hstopped),
    fun hbounded => hgain'.bounded (hgain.bounded hbounded), ?_, fun skip => ?_⟩
  · rw [hgain'.units, hgain.units]
    omega
  · have hlast := hgain'.zombies skip
    rw [hgain.pid] at hlast
    have hfirst := hgain.zombies skip
    omega

/-- No process changes and no unit is lost. -/
lemma of_process_eq (hmemory : s'.memorySize = s.memorySize) (hprocess : s'.process = s.process)
    (hbounded : ∀ b, (s.semaphore b).currentCount ≤ semBigNumber →
      (s'.semaphore b).currentCount ≤ semBigNumber)
    (hunits : ∀ b, s'.units b = s.units b) : s.Gains s' := by
  intro b p hp
  rw [hprocess] at hp
  refine ⟨p, 0, hp, rfl, id, hbounded b, by rw [hunits]; simp, fun skip => ?_⟩
  unfold zombies
  rw [hmemory, hprocess]
  exact Nat.le_refl _

lemma zombies_le {p p' : Process} (hp : s.process a = some p) (ha : a ≤ s.memorySize) (pid : Nat)
    (skip : List Nat) : (s.setProcess a (some p')).zombies pid skip ≤ s.zombies pid skip +
      if p'.isZombie pid = true ∧ p.isZombie pid = false then 1 else 0 := by
  have hchange := zombies_setProcess ha (some p') pid skip
  simp only [weigh] at hchange
  split_ifs at hchange ⊢ <;> first | omega | simp_all

/-- A process that does not become a zombie changes. -/
lemma mark {p : Process} (p' : Process) (hp : s.process a = some p) (ha : a ≤ s.memorySize)
    (hpid : p'.pid = p.pid) (hstopped : p'.stopped = false → p.stopped = false)
    (hzombie : ∀ pid, p'.isZombie pid = true → p.isZombie pid = true) :
    s.Gains (s.setProcess a (some p')) := by
  have hzombies : ∀ pid skip,
      (s.setProcess a (some p')).zombies pid skip ≤ s.zombies pid skip + 0 := by
    intro pid skip
    refine (zombies_le hp ha pid skip).trans ?_
    rw [if_neg]
    rintro ⟨hnew, hold⟩
    exact Bool.noConfusion (hold.symm.trans (hzombie pid hnew))
  refine forall_setProcess (fun b q hq _ => ?_) ?_
  · exact ⟨q, 0, hq, rfl, id, id, (Int.add_zero _).symm, hzombies q.pid⟩
  · exact ⟨p, 0, hp, hpid, hstopped, id, (Int.add_zero _).symm, hzombies p.pid⟩

/-- A unit is released to the only process that may have one more zombie. -/
lemma release {m : State} (h : Calls m) (halive : ∃ p, m.process a = some p)
    (hsemaphore : m.semaphore = s.semaphore) (hunits : m.units = s.units)
    (hsame : ∀ b p', m.process b = some p' → ∃ p, s.process b = some p ∧
      p'.pid = p.pid ∧ (p'.stopped = false → p.stopped = false) ∧
      ∀ skip, m.zombies p.pid skip ≤ s.zombies p.pid skip + if b = a then 1 else 0)
    (hrelease : m.releaseSemaphore a = .ok s') : s.Gains s' := by
  have hframe := releaseSemaphore_frame hrelease
  intro b p' hp'
  rw [hframe.process] at hp'
  obtain ⟨p, hp, hpid, hstopped, hzombies⟩ := hsame b p' hp'
  refine ⟨p, if b = a then 1 else 0, hp, hpid, hstopped, fun hbounded => ?_, ?_, fun skip => ?_⟩
  · have hcount := currentCount_release hrelease b
    rw [hsemaphore] at hcount
    omega
  · rw [units_release h halive hrelease, hunits]
    split <;> rfl
  · have hmarked := hzombies skip
    unfold zombies at hmarked ⊢
    rw [hframe.memorySize, hframe.process]
    exact hmarked

/-- A process is freed, with its calls. -/
lemma free (ha : a ≤ s.memorySize) : s.Gains (s.freeProcess a) := by
  intro b p hp
  have hne : b ≠ a := by
    rintro rfl
    simp [freeProcess] at hp
  have hp : s.process b = some p := (setProcess_of_ne s none hne).symm.trans hp
  refine ⟨p, 0, hp, rfl, id, id, ?_, fun skip => ?_⟩
  · unfold units
    change _ - (s.semaphore b).currentCount + _ = _
    have hheld : (s.freeProcess a).held b = s.held b := by
      refine tally_congr fun thread _ => ?_
      dsimp only [freeProcess]
      cases s.wait thread with
      | none => rfl
      | some w =>
        by_cases hw : w.process = a
        · simp [Option.filter, weigh, hw, Ne.symm hne]
        · simp [Option.filter, hw]
    rw [hheld]
    simp
  · have hchange := zombies_setProcess ha none p.pid skip
    change (s.setProcess a none).zombies p.pid skip ≤ _
    simp only [weigh] at hchange
    omega

end State.Gains

end Merlon.Processes
