/-
The threads that kill processes and the calls that wait for children.  What
they rely on between two of their steps stays true while others go on.
-/
import Merlon.Process.Family

namespace Merlon.Processes

open Adt State

/-- The children that are still to be adopted, of a process that is stopped. -/
structure Killer.Orphans (process : Nat → Option Process) (k : Killer)
    (orphans : List Nat) : Prop where
  stopped : ∃ p, process k.process = some p ∧ p.pid = k.pid ∧
    p.stopped = true ∧ p.terminated = false
  nodup : orphans.Nodup
  mem : ∀ child, child ∈ orphans ↔ ∃ c, process child = some c ∧ c.parent = k.pid

/-- What a killer relies on.  The notification of the parent comes after the
last use of the process. -/
def Killer.Sound (process : Nat → Option Process) (k : Killer) : Prop :=
  match k.phase with
  | .start => ∃ p, process k.process = some p ∧ p.pid = k.pid ∧ p.exiting = true ∧ p.stopped = false
  | .lookup orphans => k.Orphans process orphans
  | .adopting adopter orphans => k.Orphans process orphans ∧ adopter ∉ orphans
  | .notifying _ => True
  | .removing => ∃ p, process k.process = some p ∧ p.pid = k.pid ∧
      p.parent = 0 ∧ p.terminated = true

def Killer.busy (k : Killer) : Bool :=
  match k.phase with
  | .notifying _ => false
  | _ => true

structure Killers (s : State) : Prop where
  sound : ∀ thread k, s.killer thread = some k → k.Sound s.process
  one : ∀ first second k k', s.killer first = some k → s.killer second = some k' → k.busy = true →
    k'.busy = true → k.process = k'.process → first = second

/-- The call holds the lock of its process. -/
def WaitPhase.holds : WaitPhase → Bool
  | .scanning _ | .removing _ | .detaching _ => true
  | _ => false

/-- The child that a call has begun to reap. -/
def WaitPhase.reaps : WaitPhase → Option Nat
  | .removing child | .detaching child => some child
  | _ => none

lemma WaitPhase.holds_of_reaps {phase : WaitPhase} {child : Nat}
    (h : phase.reaps = some child) : phase.holds = true := by
  cases phase <;> first | rfl | cases h

def elements (todo : List (TreeNode Nat)) : List Nat :=
  todo.flatMap TreeNode.toList

/-- What a call relies on.  A call of a process that is stopped does not go
on. -/
structure Wait.Sound (threadCount : Nat) (process : Nat → Option Process)
    (lock : Nat → Option Nat) (thread : Nat) (w : Wait) : Prop where
  thread_le : thread ≤ threadCount
  alive : ∃ p, process w.process = some p
  locked : w.phase.holds = true → lock w.process = some thread
  scans : ∀ todo p, w.phase = .scanning todo → process w.process = some p → p.stopped = false →
    ∀ child ∈ elements todo, child ∈ p.children.root.toList
  reaps : ∀ child p, w.phase.reaps = some child → process w.process = some p → ∃ c, process
    child = some c ∧ c.reaping = true ∧ c.parent ≠ 0 ∧ (p.stopped = false → c.parent = p.pid) ∧
    ((c.pid : Int) = w.pid ∨ w.pid = -1)

/-- A call that holds no lock relies on its process only. -/
lemma Wait.Sound.idle {threadCount : Nat} {process : Nat → Option Process}
    {lock : Nat → Option Nat} {thread : Nat} {w : Wait}
    (hle : thread ≤ threadCount) (halive : ∃ p, process w.process = some p)
    (hidle : w.phase.holds = false) : w.Sound threadCount process lock thread where
  thread_le := hle
  alive := halive
  locked hholds := Bool.noConfusion (hidle.symm.trans hholds)
  scans todo _ hphase := by
    rw [hphase] at hidle
    cases hidle
  reaps child _ hreaps := Bool.noConfusion (hidle.symm.trans (WaitPhase.holds_of_reaps hreaps))

structure Calls (s : State) : Prop where
  sound : ∀ thread w, s.wait thread = some w → w.Sound s.threadCount s.process s.lock thread
  one : ∀ first second w w' child, s.wait first = some w → s.wait second = some w' →
    w.phase.reaps = some child → w'.phase.reaps = some child → first = second
  queued : ∀ a p thread, s.process a = some p → thread ∈ (s.semaphore a).waiting →
    ∃ w, s.wait thread = some w ∧ w.process = a ∧ w.phase = .waiting
  nodup : ∀ a p, s.process a = some p → (s.semaphore a).waiting.Nodup
  unlisted : ∀ thread w child c, s.wait thread = some w →
    w.phase = .detaching child → s.process child = some c → s.table c.pid = none

structure Sound (s : State) : Prop where
  family : Family s
  killers : Killers s
  calls : Calls s

/-- A process that is at the same point of its life. -/
structure Process.Steady (p p' : Process) : Prop where
  pid : p'.pid = p.pid
  exiting : p'.exiting = p.exiting
  stopped : p'.stopped = p.stopped
  terminated : p'.terminated = p.terminated
  parent : p.parent = 0 → p'.parent = 0

namespace Killers

variable {s s' : State} {k k' : Killer} {thread : Nat}

lemma keep_sound (h : k.Sound s.process)
    (hprocess : k.busy = true → ∀ p, s.process k.process = some p →
      ∃ p', s'.process k.process = some p' ∧ p.Steady p')
    (hchild : k.busy = true → ∀ p, s.process k.process = some p →
      p.stopped = true → ∀ child, s'.IsChild p.pid child ↔
        s.IsChild p.pid child) : k.Sound s'.process := by
  have horphans : k.busy = true → ∀ orphans, k.Orphans s.process orphans →
      k.Orphans s'.process orphans := by
    rintro hbusy orphans ⟨⟨p, hp, hpid, hstopped, hlive⟩, hnodup, hmem⟩
    obtain ⟨p', hp', hsteady⟩ := hprocess hbusy p hp
    refine ⟨⟨p', hp', hsteady.pid.trans hpid, hsteady.stopped.trans hstopped,
      hsteady.terminated.trans hlive⟩, hnodup, fun child => ?_⟩
    rw [hmem child, ← hpid]
    exact (hchild hbusy p hp hstopped child).symm
  obtain ⟨process, pid, phase⟩ := k
  cases phase with
  | start =>
    obtain ⟨p, hp, hpid, hexiting, hstopped⟩ := h
    obtain ⟨p', hp', hsteady⟩ := hprocess rfl p hp
    exact ⟨p', hp', hsteady.pid.trans hpid, hsteady.exiting.trans hexiting,
      hsteady.stopped.trans hstopped⟩
  | lookup orphans => exact horphans rfl orphans h
  | adopting adopter orphans => exact ⟨horphans rfl orphans h.1, h.2⟩
  | notifying parent => trivial
  | removing =>
    obtain ⟨p, hp, hpid, hparent, hterminated⟩ := h
    obtain ⟨p', hp', hsteady⟩ := hprocess rfl p hp
    exact ⟨p', hp', hsteady.pid.trans hpid, hsteady.parent hparent,
      hsteady.terminated.trans hterminated⟩

section

variable (h : Killers s)
include h

/-- The processes that are being killed go on living as before. -/
lemma change (hkiller : s'.killer = s.killer)
    (hprocess : ∀ thread k p, s.killer thread = some k → k.busy = true →
      s.process k.process = some p → ∃ p', s'.process k.process = some p' ∧ p.Steady p')
    (hchild : ∀ thread k p, s.killer thread = some k → k.busy = true →
      s.process k.process = some p → p.stopped = true →
      ∀ child, s'.IsChild p.pid child ↔ s.IsChild p.pid child) : Killers s' where
  sound thread k hk := by
    rw [hkiller] at hk
    exact keep_sound (h.sound thread k hk) (fun hbusy p => hprocess thread k p hk hbusy)
      (fun hbusy p => hchild thread k p hk hbusy)
  one := hkiller ▸ h.one

lemma keep (hkiller : s'.killer = s.killer) (hprocess : s'.process = s.process) : Killers s' := by
  refine h.change hkiller ?_ ?_
  · rw [hprocess]
    exact fun _ _ p _ _ hp => ⟨p, hp, rfl, rfl, rfl, rfl, id⟩
  · intro _ _ _ _ _ _ _ child
    rw [State.IsChild, State.IsChild, hprocess]

lemma set (hsound : k'.Sound s.process)
    (hone : k'.busy = true → ∀ other k, s.killer other = some k →
      k.busy = true → k.process = k'.process → other = thread) :
    Killers (s.setKiller thread (some k')) where
  sound := by
    refine forall_update (fun other k hk _ => ?_) fun k hk => ?_
    · exact h.sound other k hk
    · cases hk
      exact hsound
  one first second k l hk hl hbusy hbusy' heq := by
    revert first k
    refine forall_update ?_ ?_
    · intro first k hk hfirst hbusy heq
      revert second l
      refine forall_update ?_ ?_
      · exact fun second l hl _ hbusy' heq => h.one first second k l hk hl hbusy hbusy' heq
      · rintro l ⟨⟩ hbusy' heq
        exact hone hbusy' first k hk hbusy heq
    · rintro k ⟨⟩ hbusy heq
      revert second l
      refine forall_update ?_ fun _ _ _ _ => rfl
      exact fun second l hl _ hbusy' heq => (hone hbusy second l hl hbusy' heq.symm).symm

lemma drop : Killers (s.setKiller thread none) where
  sound := forall_update (fun other k hk _ => h.sound other k hk) fun _ hk => nomatch hk
  one first second k l hk hl := by
    revert first k
    refine forall_update (fun first k hk _ => ?_) fun _ hk => nomatch hk
    revert second l
    refine forall_update (fun second l hl _ => ?_) fun _ hl => nomatch hl
    exact h.one first second k l hk hl

/-- A process that is being killed exits. -/
lemma exiting (hfamily : Family s) (hk : s.killer thread = some k) (hbusy : k.busy = true) :
    ∃ p, s.process k.process = some p ∧ p.pid = k.pid ∧ p.exiting = true := by
  have hsound := h.sound thread k hk
  obtain ⟨process, pid, phase⟩ := k
  cases phase with
  | start =>
    obtain ⟨p, hp, hpid, hexiting, _⟩ := hsound
    exact ⟨p, hp, hpid, hexiting⟩
  | lookup orphans =>
    obtain ⟨⟨p, hp, hpid, hstopped, _⟩, _, _⟩ := hsound
    exact ⟨p, hp, hpid, (hfamily.flags _ p hp).stopped hstopped⟩
  | adopting adopter orphans =>
    obtain ⟨⟨⟨p, hp, hpid, hstopped, _⟩, _, _⟩, _⟩ := hsound
    exact ⟨p, hp, hpid, (hfamily.flags _ p hp).stopped hstopped⟩
  | notifying parent => cases hbusy
  | removing =>
    obtain ⟨p, hp, hpid, _, hterminated⟩ := hsound
    have hflags := hfamily.flags _ p hp
    exact ⟨p, hp, hpid, hflags.stopped (hflags.terminated hterminated)⟩

end

end Killers

namespace Calls

variable {s s' : State} {w : Wait} {thread a : Nat} {sem : Semaphore}

section

variable (h : Calls s)
include h

/-- Processes change, and calls of freed ones are no more. -/
lemma change (hcount : s'.threadCount = s.threadCount)
    (hsemaphore : s'.semaphore = s.semaphore) (hlock : s'.lock = s.lock)
    (htable : ∀ a p, s.process a = some p → s.table p.pid = none → s'.table p.pid = none)
    (hwait : ∀ thread w, s'.wait thread = some w → s.wait thread = some w)
    (hkept : ∀ thread w p', s.wait thread = some w →
      s'.process w.process = some p' → s'.wait thread = some w)
    (hknown : ∀ a p', s'.process a = some p' →
      (∃ p, s.process a = some p) ∨ (s.semaphore a).waiting = [])
    (halive : ∀ thread w p, s'.wait thread = some w → s.process w.process = some p →
      ∃ p', s'.process w.process = some p' ∧ p'.pid = p.pid ∧
        (p'.stopped = false → p.stopped = false ∧
          (w.phase.holds = true → p'.children = p.children)))
    (hreaped : ∀ thread w child p c, s'.wait thread = some w →
      w.phase.reaps = some child → s.process w.process = some p →
      s.process child = some c → c.reaping = true → c.parent ≠ 0 →
      (p.stopped = false → c.parent = p.pid) →
      ∃ c', s'.process child = some c' ∧ c'.pid = c.pid ∧ c'.reaping = true ∧ c'.parent ≠ 0 ∧
        (p.stopped = false → c'.parent = c.parent)) : Calls s' where
  sound thread w hw := by
    obtain ⟨hle, ⟨p, hp⟩, hlocked, hscans, hreaps⟩ := h.sound thread w (hwait thread w hw)
    obtain ⟨p', hp', hpid, hrunning⟩ := halive thread w p hw hp
    refine ⟨hcount ▸ hle, ⟨p', hp'⟩, hlock ▸ hlocked, ?_, ?_⟩
    · intro todo q hphase hq hstopped
      cases hp'.symm.trans hq
      obtain ⟨hold, hchildren⟩ := hrunning hstopped
      rw [hchildren (by rw [hphase]; rfl)]
      exact hscans todo p hphase hp hold
    · intro child q hchild hq
      cases hp'.symm.trans hq
      obtain ⟨c, hc, hreaping, hparent, hmine, hmatch⟩ := hreaps child p hchild hp
      obtain ⟨c', hc', hpid', hreaping', hparent', hsame⟩ :=
        hreaped thread w child p c hw hchild hp hc hreaping hparent hmine
      refine ⟨c', hc', hreaping', hparent', fun hstopped => ?_, hpid' ▸ hmatch⟩
      obtain ⟨hold, _⟩ := hrunning hstopped
      rw [hsame hold, hmine hold, hpid]
  one first second w w' child hw hw' :=
    h.one first second w w' child (hwait first w hw) (hwait second w' hw')
  queued a p' thread hp' hmem := by
    rw [hsemaphore] at hmem
    rcases hknown a p' hp' with ⟨p, hp⟩ | hnone
    · obtain ⟨w, hw, hprocess, hphase⟩ := h.queued a p thread hp hmem
      exact ⟨w, hkept thread w p' hw (hprocess ▸ hp'), hprocess, hphase⟩
    · rw [hnone] at hmem
      cases hmem
  nodup a p' hp' := by
    rw [hsemaphore]
    rcases hknown a p' hp' with ⟨p, hp⟩ | hnone
    · exact h.nodup a p hp
    · rw [hnone]
      exact List.nodup_nil
  unlisted thread w child c' hw hphase hc' := by
    have hchild : w.phase.reaps = some child := by rw [hphase]; rfl
    have hold := h.sound thread w (hwait thread w hw)
    obtain ⟨p, hp⟩ := hold.alive
    obtain ⟨c, hc, hreaping, hparent, hmine, _⟩ := hold.reaps child p hchild hp
    obtain ⟨d, hd, hpid, _⟩ := hreaped thread w child p c hw hchild hp hc hreaping hparent hmine
    cases hd.symm.trans hc'
    rw [hpid]
    exact htable child c hc (h.unlisted thread w child c (hwait thread w hw) hphase hc)

lemma keep (hcount : s'.threadCount = s.threadCount) (hprocess : s'.process = s.process)
    (hsemaphore : s'.semaphore = s.semaphore) (hlock : s'.lock = s.lock) (hwait : s'.wait = s.wait)
    (htable : ∀ pid, s.table pid = none → s'.table pid = none) : Calls s' where
  sound := by
    rw [hcount, hprocess, hlock, hwait]
    exact h.sound
  one := hwait ▸ h.one
  queued := by
    rw [hprocess, hsemaphore, hwait]
    exact h.queued
  nodup := by
    rw [hprocess, hsemaphore]
    exact h.nodup
  unlisted := by
    rw [hprocess, hwait]
    exact fun thread w child c hw hphase hc => htable _ (h.unlisted thread w child c hw hphase hc)

/-- Who does not wait for a unit is in no queue. -/
lemma notMem_waiting (hphase : ∀ w, s.wait thread = some w → w.phase ≠ .waiting) :
    ∀ a p, s.process a = some p → thread ∉ (s.semaphore a).waiting := by
  intro a p hp hmem
  obtain ⟨w, hw, _, hwaiting⟩ := h.queued a p thread hp hmem
  exact hphase w hw hwaiting

section

variable (hout : ∀ a p, s.process a = some p → thread ∉ (s.semaphore a).waiting)
include hout

lemma queued_setWait {entry : Option Wait} :
    ∀ a p other, s.process a = some p → other ∈ (s.semaphore a).waiting →
    ∃ w, (s.setWait thread entry).wait other = some w ∧ w.process = a ∧ w.phase = .waiting := by
  intro a p other hp hmem
  obtain ⟨w, hw, hrest⟩ := h.queued a p other hp hmem
  have hne : other ≠ thread := fun heq => hout a p hp (heq ▸ hmem)
  exact ⟨w, (setWait_of_ne _ _ hne).trans hw, hrest⟩

lemma set (hsound : w.Sound s.threadCount s.process s.lock thread)
    (hone : ∀ child, w.phase.reaps = some child → ∀ other w',
      s.wait other = some w' → w'.phase.reaps = some child → other = thread)
    (hunlisted : ∀ child c, w.phase = .detaching child →
      s.process child = some c → s.table c.pid = none) : Calls (s.setWait thread (some w)) where
  sound := forall_update (fun other w' hw' _ => h.sound other w' hw')
    fun w' hw' => Option.some.inj hw' ▸ hsound
  one first second v v' child hv hv' hreaps hreaps' := by
    revert first v
    refine forall_update ?_ ?_
    · intro first v hv _ hreaps
      revert second v'
      refine forall_update ?_ ?_
      · exact fun second v' hv' _ hreaps' => h.one first second v v' child hv hv' hreaps hreaps'
      · rintro v' ⟨⟩ hreaps'
        exact hone child hreaps' first v hv hreaps
    · rintro v ⟨⟩ hreaps
      revert second v'
      refine forall_update ?_ fun _ _ _ => rfl
      exact fun second v' hv' _ hreaps' => (hone child hreaps second v' hv' hreaps').symm
  queued := h.queued_setWait hout
  nodup := h.nodup
  unlisted other v child c hv := by
    revert other v
    refine forall_update (fun other v hv _ => ?_) ?_
    · exact h.unlisted other v child c hv
    · rintro v ⟨⟩
      exact hunlisted child c

lemma setIdle (hle : thread ≤ s.threadCount) (halive : ∃ p, s.process w.process = some p)
    (hidle : w.phase.holds = false) : Calls (s.setWait thread (some w)) := by
  refine h.set hout (.idle hle halive hidle) (fun child hreaps => ?_) fun child c hphase => ?_
  · exact Bool.noConfusion (hidle.symm.trans (WaitPhase.holds_of_reaps hreaps))
  · rw [hphase] at hidle
    cases hidle

lemma drop : Calls (s.setWait thread none) where
  sound := forall_update (fun other w' hw' _ => h.sound other w' hw') fun _ hw => nomatch hw
  one first second v v' child hv hv' := by
    revert first v
    refine forall_update (fun first v hv _ => ?_) fun _ hv => nomatch hv
    revert second v'
    refine forall_update (fun second v' hv' _ => ?_) fun _ hv' => nomatch hv'
    exact h.one first second v v' child hv hv'
  queued := h.queued_setWait hout
  nodup := h.nodup
  unlisted other v child c hv := by
    revert other v
    refine forall_update (fun other v hv _ => ?_) fun _ hv => nomatch hv
    exact h.unlisted other v child c hv

end

/-- A lock changes hands when no other call holds it. -/
lemma setLock {holder : Option Nat}
    (hheld : ∀ other w, s.wait other = some w → w.process = a →
      w.phase.holds = true → holder = some other) : Calls (s.setLock a holder) where
  __ := h
  sound other w hw := by
    obtain ⟨hle, halive, hlocked, hscans, hreaps⟩ := h.sound other w hw
    refine ⟨hle, halive, fun hholds => ?_, hscans, hreaps⟩
    by_cases heq : w.process = a
    · rw [heq]
      exact (setLock_self ..).trans (hheld other w hw heq hholds)
    · exact (setLock_of_ne _ _ heq).trans (hlocked hholds)

/-- The count changes, or threads leave the queue. -/
lemma setSemaphore (hwaiting : sem.waiting.Sublist (s.semaphore a).waiting) :
    Calls (s.setSemaphore a sem) where
  __ := h
  queued b p thread hp hmem := by
    by_cases heq : b = a
    · subst heq
      rw [setSemaphore_self] at hmem
      exact h.queued b p thread hp (hwaiting.subset hmem)
    · rw [setSemaphore_of_ne _ _ heq] at hmem
      exact h.queued b p thread hp hmem
  nodup b p hp := by
    by_cases heq : b = a
    · subst heq
      rw [setSemaphore_self]
      exact (h.nodup b p hp).sublist hwaiting
    · rw [setSemaphore_of_ne _ _ heq]
      exact h.nodup b p hp

/-- A call joins the queue. -/
lemma enqueue (hw : s.wait thread = some w) (hprocess : w.process = a)
    (hphase : w.phase = .waiting) (hwaiting : sem.waiting = (s.semaphore a).waiting ++ [thread])
    (hnew : thread ∉ (s.semaphore a).waiting) : Calls (s.setSemaphore a sem) where
  __ := h
  queued b p other hp hmem := by
    by_cases heq : b = a
    · subst heq
      rw [setSemaphore_self, hwaiting, List.mem_append, List.mem_singleton] at hmem
      rcases hmem with hmem | rfl
      · exact h.queued b p other hp hmem
      · exact ⟨w, hw, hprocess, hphase⟩
    · rw [setSemaphore_of_ne _ _ heq] at hmem
      exact h.queued b p other hp hmem
  nodup b p hp := by
    by_cases heq : b = a
    · subst heq
      rw [setSemaphore_self, hwaiting]
      exact (List.nodup_append_comm.mp (List.nodup_cons.mpr ⟨hnew, h.nodup b p hp⟩))
    · rw [setSemaphore_of_ne _ _ heq]
      exact h.nodup b p hp

/-- A unit is released to a process that there is. -/
lemma release (halive : ∃ p, s.process a = some p)
    (hrelease : s.releaseSemaphore a = .ok s') : Calls s' := by
  obtain ⟨p, hp⟩ := halive
  unfold releaseSemaphore at hrelease
  dsimp only at hrelease
  split at hrelease
  · split at hrelease
    · cases hrelease
      exact h.setSemaphore (List.Sublist.refl _)
    · rename_i thread rest hwaiting
      cases hrelease
      have hnodup := h.nodup a p hp
      have hmem : thread ∈ (s.semaphore a).waiting := by simp [hwaiting]
      obtain ⟨w, hw, hprocess, hphase⟩ := h.queued a p thread hp hmem
      have hsound := h.sound thread w hw
      rw [hwaiting, List.nodup_cons] at hnodup
      rw [grant, show (s.setSemaphore a _).wait thread = some w from hw]
      refine Calls.setIdle (h.setSemaphore (hwaiting ▸ List.sublist_cons_self ..))
        ?_ hsound.thread_le hsound.alive rfl
      intro b q hq hin
      by_cases heq : b = a
      · subst heq
        rw [setSemaphore_self] at hin
        exact hnodup.1 hin
      · rw [setSemaphore_of_ne _ _ heq] at hin
        obtain ⟨w', hw', hprocess', _⟩ := h.queued b q thread hq hin
        cases hw.symm.trans hw'
        exact heq (hprocess'.symm.trans hprocess)
  · cases hrelease

end

end Calls

end Merlon.Processes
