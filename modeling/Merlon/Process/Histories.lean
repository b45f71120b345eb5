/-
What the histories of exits, reaps and returned calls say, as long as no
process exits while one of its threads is inside `ReapProcess`.
-/
import Merlon.Process.Kills

namespace Merlon.Processes

open Adt List State
open State (forall_setProcess setProcess_of_ne)

variable {p : Process}

/-- Every child that is being reaped has a call that goes on with it, and
nobody is reaped or exits twice. -/
structure Histories (s : State) : Prop where
  reaped_nodup : (s.reaped.map Reap.pid).Nodup
  reaped : ∀ r ∈ s.reaped, r.reaper = r.parent ∧ (r.pid, r.status) ∈ s.exits
  gone : ∀ r ∈ s.reaped, r.pid < s.nextPid ∧
    ∀ a p, s.process a = some p → p.pid = r.pid → p.reaping = true
  returned : ∀ r ∈ s.returned, r.pid ≠ -1 → (r.result : Int) = r.pid ∨ r.result = 0
  exits_nodup : (s.exits.map Prod.fst).Nodup
  exited : ∀ e ∈ s.exits, e.1 < s.nextPid ∧
    ∀ a p, s.process a = some p → p.pid = e.1 → p.exiting = true
  busy : ∀ child c, s.process child = some c → c.reaping = true →
    ∃ thread w, s.wait thread = some w ∧ w.phase.reaps = some child
  attended : ∀ thread w child p, s.wait thread = some w →
    w.phase.reaps = some child → s.process w.process = some p → p.stopped = false

/-- A step that adds nothing to the histories, and neither begins nor ends a
reap. -/
structure State.Calm (s s' : State) : Prop where
  process : ∀ a p', s'.process a = some p' → ∃ p, s.process a = some p ∧ p'.pid = p.pid ∧
    p'.reaping = p.reaping ∧ (p.exiting = true → p'.exiting = true) ∧ p'.stopped = p.stopped
  reapers : ∀ thread w child, w.phase.reaps = some child →
    (s'.wait thread = some w ↔ s.wait thread = some w)
  nextPid : s'.nextPid = s.nextPid
  reaped : s'.reaped = s.reaped
  returned : s'.returned = s.returned
  exits : s'.exits = s.exits

namespace State.Calm

variable {s s' : State} {a thread : Nat}

lemma keep (hprocess : s'.process = s.process) (hwait : s'.wait = s.wait)
    (hnextPid : s'.nextPid = s.nextPid) (hreaped : s'.reaped = s.reaped)
    (hreturned : s'.returned = s.returned) (hexits : s'.exits = s.exits) : s.Calm s' where
  process := by
    rw [hprocess]
    exact fun _ p hp => ⟨p, hp, rfl, rfl, id, rfl⟩
  reapers _ _ _ _ := by rw [hwait]
  nextPid := hnextPid
  reaped := hreaped
  returned := hreturned
  exits := hexits

lemma trans {s'' : State} (h : s.Calm s') (h' : s'.Calm s'') : s.Calm s'' where
  process b r hr := by
    obtain ⟨q, hq, hpid', hreaping', hexiting', hstopped'⟩ := h'.process b r hr
    obtain ⟨p, hp, hpid, hreaping, hexiting, hstopped⟩ := h.process b q hq
    exact ⟨p, hp, hpid'.trans hpid, hreaping'.trans hreaping,
      fun hexits => hexiting' (hexiting hexits), hstopped'.trans hstopped⟩
  reapers thread w child hreaps :=
    (h'.reapers thread w child hreaps).trans (h.reapers thread w child hreaps)
  nextPid := h'.nextPid.trans h.nextPid
  reaped := h'.reaped.trans h.reaped
  returned := h'.returned.trans h.returned
  exits := h'.exits.trans h.exits

lemma mark (p' : Process) (hp : s.process a = some p) (hpid : p'.pid = p.pid)
    (hreaping : p'.reaping = p.reaping) (hexiting : p.exiting = true → p'.exiting = true)
    (hstopped : p'.stopped = p.stopped) : s.Calm (s.setProcess a (some p')) where
  process := forall_setProcess (fun _ q hq _ => ⟨q, hq, rfl, rfl, id, rfl⟩)
    ⟨p, hp, hpid, hreaping, hexiting, hstopped⟩
  reapers _ _ _ _ := Iff.rfl
  nextPid := rfl
  reaped := rfl
  returned := rfl
  exits := rfl

/-- A call goes on that reaps nobody. -/
lemma setWait {w : Option Wait} (hold : ∀ w', s.wait thread = some w' → w'.phase.reaps = none)
    (hnew : ∀ w', w = some w' → w'.phase.reaps = none) : s.Calm (s.setWait thread w) where
  process _ p hp := ⟨p, hp, rfl, rfl, id, rfl⟩
  reapers other w' child hreaps := by
    by_cases hother : other = thread
    · subst hother
      rw [setWait_self]
      constructor <;> intro hw'
      · rw [hnew w' hw'] at hreaps
        cases hreaps
      · rw [hold w' hw'] at hreaps
        cases hreaps
    · rw [setWait_of_ne _ _ hother]
  nextPid := rfl
  reaped := rfl
  returned := rfl
  exits := rfl

lemma release (h : Calls s) (halive : ∃ p, s.process a = some p)
    (hrelease : s.releaseSemaphore a = .ok s') : s.Calm s' := by
  obtain ⟨p, hp⟩ := halive
  rcases releaseSemaphore_cases hrelease with ⟨_, rfl⟩ | ⟨thread, rest, hwaiting, rfl⟩
  · exact keep rfl rfl rfl rfl rfl rfl
  · obtain ⟨w, hw, _, hphase⟩ := h.queued a p thread hp (by simp [hwaiting])
    rw [grant, show (s.setSemaphore a _).wait thread = some w from hw]
    have hcalm : s.Calm (s.setWait thread (some { w with phase := .taken })) :=
      setWait (by simp [hw, hphase, WaitPhase.reaps]) (by simp [WaitPhase.reaps])
    exact ⟨hcalm.process, hcalm.reapers, rfl, rfl, rfl, rfl⟩

lemma releaseFailedReaps {count : Nat} (h : Calls s) (halive : ∃ p, s.process a = some p)
    (hrelease : releaseFailedReaps a count s = .ok s') : s.Calm s' := by
  induction count generalizing s with
  | zero =>
    cases hrelease
    exact keep rfl rfl rfl rfl rfl rfl
  | succ count ih =>
    rw [releaseFailedReaps] at hrelease
    obtain ⟨s₁, hfirst, hrest⟩ := bind_eq_ok hrelease
    have hframe := releaseSemaphore_frame hfirst
    exact (release h halive hfirst).trans (ih (h.release halive hfirst)
      (by rw [hframe.process]; exact halive) hrest)

/-- A process is freed that has no call inside `ReapProcess`. -/
lemma free (hcalls : ∀ thread w, s.wait thread = some w → w.process = a →
      w.phase.reaps = none) : s.Calm (s.freeProcess a) where
  process b p hp := by
    by_cases heq : b = a
    · subst heq
      simp [freeProcess] at hp
    · exact ⟨p, (setProcess_of_ne s none heq).symm.trans hp, rfl, rfl, id, rfl⟩
  reapers thread w child hreaps := by
    simp only [freeProcess, Option.filter_eq_some_iff, decide_eq_true_eq, and_iff_left_iff_imp]
    intro hw heq
    rw [hcalls thread w hw heq] at hreaps
    cases hreaps
  nextPid := rfl
  reaped := rfl
  returned := rfl
  exits := rfl

end State.Calm

namespace Histories

variable {s s' : State} {a thread : Nat} {w : Wait}

lemma calm (h : Histories s) (hcalm : s.Calm s') : Histories s' where
  reaped_nodup := hcalm.reaped ▸ h.reaped_nodup
  reaped := by
    rw [hcalm.reaped, hcalm.exits]
    exact h.reaped
  gone := by
    rw [hcalm.reaped, hcalm.nextPid]
    intro r hr
    refine ⟨(h.gone r hr).1, fun b p' hp' hpid' => ?_⟩
    obtain ⟨p, hp, hpid, hreaping, _, _⟩ := hcalm.process b p' hp'
    rw [hreaping]
    exact (h.gone r hr).2 b p hp (hpid.symm.trans hpid')
  returned := hcalm.returned ▸ h.returned
  exits_nodup := hcalm.exits ▸ h.exits_nodup
  exited := by
    rw [hcalm.exits, hcalm.nextPid]
    intro e he
    refine ⟨(h.exited e he).1, fun b p' hp' hpid' => ?_⟩
    obtain ⟨p, hp, hpid, _, hexiting, _⟩ := hcalm.process b p' hp'
    exact hexiting ((h.exited e he).2 b p hp (hpid.symm.trans hpid'))
  busy child c' hc' hreaping' := by
    obtain ⟨c, hc, _, hreaping, _, _⟩ := hcalm.process child c' hc'
    obtain ⟨thread, w, hw, hreaps⟩ := h.busy child c hc (hreaping ▸ hreaping')
    exact ⟨thread, w, (hcalm.reapers thread w child hreaps).mpr hw, hreaps⟩
  attended thread w child p' hw hreaps hp' := by
    obtain ⟨p, hp, _, _, _, hstopped⟩ := hcalm.process _ p' hp'
    rw [hstopped]
    exact h.attended thread w child p ((hcalm.reapers thread w child hreaps).mp hw) hreaps hp

lemma start (memorySize threadCount : Nat) : Histories (start memorySize threadCount) where
  reaped_nodup := nodup_nil
  reaped _ hr := nomatch hr
  gone _ hr := nomatch hr
  returned _ hr := nomatch hr
  exits_nodup := nodup_nil
  exited _ he := nomatch he
  busy _ _ hc := by cases hc
  attended _ _ _ _ hw := by cases hw

section

variable (h : Histories s)
include h

lemma logReturned (r : Returned) (hr : r.pid ≠ -1 → (r.result : Int) = r.pid ∨ r.result = 0) :
    Histories { s with returned := r :: s.returned } where
  __ := h
  returned r' hr' := by
    rcases mem_cons.mp hr' with rfl | hold
    · exact hr
    · exact h.returned r' hold

/-- A process is stopped that has no call inside `ReapProcess`. -/
lemma stop (hp : s.process a = some p)
    (hcalls : ∀ thread w, s.wait thread = some w → w.process = a → w.phase.reaps = none) :
    Histories (s.setProcess a (some { p with stopped := true })) where
  __ := h
  gone r hr := ⟨(h.gone r hr).1, forall_setProcess
    (fun b q hq _ => (h.gone r hr).2 b q hq) ((h.gone r hr).2 a p hp)⟩
  exited e he := ⟨(h.exited e he).1, forall_setProcess
    (fun b q hq _ => (h.exited e he).2 b q hq) ((h.exited e he).2 a p hp)⟩
  busy := forall_setProcess (fun child c hc _ => h.busy child c hc) (h.busy a p hp)
  attended thread w child q hw hreaps hq := by
    by_cases heq : w.process = a
    · rw [hcalls thread w hw heq] at hreaps
      cases hreaps
    · exact h.attended thread w child q hw hreaps ((setProcess_of_ne _ _ heq).symm.trans hq)

/-- A process exits for the first time. -/
lemma exit (hfamily : Family s) (hp : s.process a = some p)
    (hexiting : p.exiting = false) (retv : Int) : Histories { s.setProcess a (some { p with
        retv := retv
        exiting := true }) with
      exits := (p.pid, retv) :: s.exits } where
  __ := h
  reaped r hr := ⟨(h.reaped r hr).1, mem_cons_of_mem _ (h.reaped r hr).2⟩
  gone r hr := ⟨(h.gone r hr).1, forall_setProcess
    (fun b q hq _ => (h.gone r hr).2 b q hq) ((h.gone r hr).2 a p hp)⟩
  exits_nodup := by
    refine nodup_cons.mpr ⟨fun hmem => ?_, h.exits_nodup⟩
    obtain ⟨e, he, hpid⟩ := mem_map.mp hmem
    have hexits := (h.exited e he).2 a p hp hpid.symm
    exact Bool.noConfusion (hexiting.symm.trans hexits)
  exited e he := by
    rcases mem_cons.mp he with rfl | hold
    · refine ⟨hfamily.pid_lt a p hp, forall_setProcess ?_ fun _ => rfl⟩
      exact fun b q hq hne hpid => absurd (hfamily.unique b a q p hq hp hpid) hne
    · exact ⟨(h.exited e hold).1, forall_setProcess
        (fun b q hq _ => (h.exited e hold).2 b q hq) fun _ => rfl⟩
  busy := forall_setProcess (fun child c hc _ => h.busy child c hc) (h.busy a p hp)
  attended thread w child q hw hreaps hq := by
    revert hq
    refine fun hq => forall_setProcess
      (P := fun b q => w.process = b → q.stopped = false) ?_ ?_ _ q hq rfl
    · rintro b r hr _ rfl
      exact h.attended thread w child r hw hreaps hr
    · rintro rfl
      exact h.attended thread w child p hw hreaps hp

/-- A child is reaped for the first time. -/
lemma reap {child : Nat} {c : Process} (hfamily : Family s)
    (hw : s.wait thread = some w) (hidle : w.phase.reaps = none) (hp : s.process w.process = some p)
    (hrunning : p.stopped = false) (hc : s.process child = some c) (hparent : c.parent = p.pid)
    (hterminated : c.terminated = true) (hnew : c.reaping = false) :
    Histories ({ s.setProcess child (some { c with reaping := true }) with
      reaped := ⟨c.pid, c.parent, p.pid, c.retv⟩ :: s.reaped }.setWait thread
        (some { w with phase := .removing child })) where
  __ := h
  reaped_nodup := by
    refine nodup_cons.mpr ⟨fun hmem => ?_, h.reaped_nodup⟩
    obtain ⟨r, hr, hpid⟩ := mem_map.mp hmem
    have hreaping := (h.gone r hr).2 child c hc hpid.symm
    exact Bool.noConfusion (hnew.symm.trans hreaping)
  reaped r hr := by
    have hflags := hfamily.flags child c hc
    rcases mem_cons.mp hr with rfl | hold
    · exact ⟨hparent.symm, hflags.exiting (hflags.stopped (hflags.terminated hterminated))⟩
    · exact h.reaped r hold
  gone r hr := by
    rcases mem_cons.mp hr with rfl | hold
    · refine ⟨hfamily.pid_lt child c hc, forall_setProcess ?_ fun _ => rfl⟩
      exact fun b q hq hne hpid => absurd (hfamily.unique b child q c hq hc hpid) hne
    · exact ⟨(h.gone r hold).1, forall_setProcess
        (fun b q hq _ => (h.gone r hold).2 b q hq) fun _ => rfl⟩
  exited e he := ⟨(h.exited e he).1, forall_setProcess
    (fun b q hq _ => (h.exited e he).2 b q hq) ((h.exited e he).2 child c hc)⟩
  busy := by
    refine forall_setProcess (fun d q hq _ hreaping => ?_) fun _ =>
      ⟨thread, _, setWait_self .., rfl⟩
    obtain ⟨other, w', hw', hreaps⟩ := h.busy d q hq hreaping
    have hne : other ≠ thread := by
      rintro rfl
      cases hw.symm.trans hw'
      rw [hidle] at hreaps
      cases hreaps
    exact ⟨other, w', (setWait_of_ne _ _ hne).trans hw', hreaps⟩
  attended other w' child' q hw' hreaps hq := by
    have hstopped : ∀ b r, s.process b = some r → (∀ r', (s.setProcess child (some { c with
          reaping := true })).process b = some r' → r'.stopped = r.stopped) := by
      intro b r hr r' hr'
      revert hr'
      refine fun hr' => forall_setProcess
        (P := fun d q => d = b → q.stopped = r.stopped) ?_ ?_ b r' hr' rfl
      · rintro d t ht _ rfl
        cases hr.symm.trans ht
        rfl
      · rintro rfl
        cases hc.symm.trans hr
        rfl
    revert other w'
    refine forall_update ?_ ?_
    · intro other w' hw' _ hreaps hq
      have halive : ∃ r, s.process w'.process = some r := by
        by_cases heq : w'.process = child
        · exact ⟨c, heq ▸ hc⟩
        · exact ⟨q, (setProcess_of_ne _ _ heq).symm.trans hq⟩
      obtain ⟨r, hr⟩ := halive
      rw [hstopped _ r hr q hq]
      exact h.attended other w' child' r hw' hreaps hr
    · rintro w' ⟨⟩ _ hq
      rw [hstopped _ p hp q hq, hrunning]

/-- The call goes on with the child it reaps. -/
lemma advance {child : Nat} (hw : s.wait thread = some w) (hreaps : w.phase.reaps = some child) :
    Histories (s.setWait thread (some { w with phase := .detaching child })) where
  __ := h
  busy d q hq hreaping := by
    obtain ⟨other, w', hw', hreaps'⟩ := h.busy d q hq hreaping
    by_cases heq : other = thread
    · subst heq
      cases hw.symm.trans hw'
      exact ⟨other, _, setWait_self .., hreaps.symm.trans hreaps'⟩
    · exact ⟨other, w', (setWait_of_ne _ _ heq).trans hw', hreaps'⟩
  attended := by
    refine fun other w' child' p hw' => forall_update
      (P := fun _ w' => w'.phase.reaps = some child' →
        s.process w'.process = some p → p.stopped = false) ?_ ?_ other w' hw'
    · exact fun other w' hw' _ => h.attended other w' child' p hw'
    · rintro w' ⟨⟩ _ hp
      exact h.attended thread w child p hw hreaps hp

/-- The child is freed and the call is over. -/
lemma finish {child b : Nat} {c : Process}
    (hw : s.wait thread = some w) (hreaps : w.phase.reaps = some child)
    (hc : s.process child = some c) (hstopped : c.stopped = true) :
    Histories (((s.freeProcess child).setLock b none).setWait thread none) := by
  have hprocess : ∀ d q, (s.freeProcess child).process d = some q →
      s.process d = some q ∧ d ≠ child := by
    intro d q hq
    by_cases heq : d = child
    · subst heq
      simp [freeProcess] at hq
    · exact ⟨(setProcess_of_ne s none heq).symm.trans hq, heq⟩
  refine { h with gone := ?_, exited := ?_, busy := ?_, attended := ?_ }
  · exact fun r hr => ⟨(h.gone r hr).1, fun d q hq => (h.gone r hr).2 d q (hprocess d q hq).1⟩
  · exact fun e he => ⟨(h.exited e he).1, fun d q hq => (h.exited e he).2 d q (hprocess d q hq).1⟩
  · intro d q hq hreaping
    obtain ⟨hold, hne⟩ := hprocess d q hq
    obtain ⟨other, w', hw', hreaps'⟩ := h.busy d q hold hreaping
    have hother : other ≠ thread := by
      rintro rfl
      cases hw.symm.trans hw'
      exact hne (Option.some.inj (hreaps'.symm.trans hreaps))
    have hkept : w'.process ≠ child := by
      intro heq
      have hrunning := h.attended other w' d c hw' hreaps' (heq ▸ hc)
      exact Bool.noConfusion (hrunning.symm.trans hstopped)
    refine ⟨other, w', (setWait_of_ne _ _ hother).trans ?_, hreaps'⟩
    simpa [setLock, freeProcess, hw'] using hkept
  · refine fun other w' child' p hw' => forall_update
      (P := fun _ w' => w'.phase.reaps = some child' →
        (s.freeProcess child).process w'.process = some p → p.stopped = false)
      ?_ (by rintro w' ⟨⟩) other w' hw'
    intro other w' hw' _ hreaps' hp
    refine h.attended other w' child' p ?_ hreaps' (hprocess _ p hp).1
    exact (Option.filter_eq_some_iff.mp hw').1

/-- A process is created. -/
lemma enroll (hfree : s.process a = none) (parent : Nat)
    (hsound : Sound s) : Histories (s.enroll parent a) where
  __ := h
  gone r hr := by
    have hlt := (h.gone r hr).1
    refine ⟨Nat.lt_succ_of_lt hlt, forall_setProcess
      (fun b q hq _ => (h.gone r hr).2 b q hq) fun hpid => ?_⟩
    exact absurd hlt (hpid ▸ Nat.lt_irrefl _)
  exited e he := by
    have hlt := (h.exited e he).1
    refine ⟨Nat.lt_succ_of_lt hlt, forall_setProcess
      (fun b q hq _ => (h.exited e he).2 b q hq) fun hpid => ?_⟩
    exact absurd hlt (hpid ▸ Nat.lt_irrefl _)
  busy := forall_setProcess (fun child c hc _ => h.busy child c hc) nofun
  attended thread w child p hw hreaps hp := by
    obtain ⟨q, hq⟩ := (hsound.calls.sound thread w hw).alive
    have hne : w.process ≠ a := by
      intro heq
      rw [heq, hfree] at hq
      cases hq
    exact h.attended thread w child p hw hreaps ((setProcess_of_ne _ _ hne).symm.trans hp)

end

end Histories

end Merlon.Processes
