/-
The edits that the steps of process.c are made of.  Each of them keeps the
family, the killers and the calls sound.
-/
import Merlon.Process.Callers

namespace Merlon.Processes

open Adt List
open State (setProcess_of_ne setProcess_self freeProcess)

namespace Sound

variable {s s' : State} {a b thread : Nat} {p : Process}

section

variable (h : Sound s)

include h

/-- Only the history grows. -/
lemma log (reaped : List Reap) (returned : List Returned) {exits : List (Nat × Int)}
    (hexits : s.exits ⊆ exits) : Sound { s with reaped, returned, exits } :=
  ⟨h.family.keep rfl rfl rfl rfl hexits, h.killers.keep rfl rfl,
    h.calls.keep rfl rfl rfl rfl rfl fun _ hpid => hpid⟩

lemma setKiller {k : Killer} (hsound : k.Sound s.process)
    (hone : k.busy = true → ∀ other k', s.killer other = some k' →
      k'.busy = true → k'.process = k.process → other = thread) :
    Sound (s.setKiller thread (some k)) :=
  ⟨h.family.keep rfl rfl rfl rfl (Subset.refl _),
    h.killers.set hsound hone, h.calls.keep rfl rfl rfl rfl rfl fun _ hpid => hpid⟩

lemma dropKiller : Sound (s.setKiller thread none) :=
  ⟨h.family.keep rfl rfl rfl rfl (Subset.refl _), h.killers.drop,
    h.calls.keep rfl rfl rfl rfl rfl fun _ hpid => hpid⟩

section

variable (hout : ∀ a p, s.process a = some p → thread ∉ (s.semaphore a).waiting)

include hout

lemma setWait {w : Wait} (hsound : w.Sound s.threadCount s.process s.lock thread)
    (hone : ∀ child, w.phase.reaps = some child → ∀ other w',
      s.wait other = some w' → w'.phase.reaps = some child → other = thread)
    (hunlisted : ∀ child c, w.phase = .detaching child →
      s.process child = some c → s.table c.pid = none) : Sound (s.setWait thread (some w)) :=
  ⟨h.family.keep rfl rfl rfl rfl (Subset.refl _), h.killers.keep rfl rfl,
    h.calls.set hout hsound hone hunlisted⟩

lemma setIdle {w : Wait} (hle : thread ≤ s.threadCount) (halive : ∃ p, s.process w.process = some p)
    (hidle : w.phase.holds = false) : Sound (s.setWait thread (some w)) :=
  ⟨h.family.keep rfl rfl rfl rfl (Subset.refl _), h.killers.keep rfl rfl,
    h.calls.setIdle hout hle halive hidle⟩

lemma dropWait : Sound (s.setWait thread none) :=
  ⟨h.family.keep rfl rfl rfl rfl (Subset.refl _), h.killers.keep rfl rfl, h.calls.drop hout⟩

end

lemma setLock (a : Nat) (holder : Option Nat)
    (hheld : ∀ other w, s.wait other = some w → w.process = a →
      w.phase.holds = true → holder = some other) : Sound (s.setLock a holder) :=
  ⟨h.family.keep rfl rfl rfl rfl (Subset.refl _), h.killers.keep rfl rfl,
    h.calls.setLock hheld⟩

lemma setSemaphore {sem : Semaphore} (hwaiting : sem.waiting.Sublist (s.semaphore a).waiting) :
    Sound (s.setSemaphore a sem) :=
  ⟨h.family.keep rfl rfl rfl rfl (Subset.refl _), h.killers.keep rfl rfl,
    h.calls.setSemaphore hwaiting⟩

end

section

variable (h : Sound s)
include h

/-- A process gets new flags.  Only its killer takes it to the next point of its
life. -/
lemma mark (p' : Process) (hp : s.process a = some p)
    (hpid : p'.pid = p.pid) (hparent : p'.parent = p.parent)
    (hreaping : p.reaping = true → p'.reaping = true)
    (hlisted : p'.terminated = false → p.terminated = false) (hflags : p'.Consistent s.exits)
    (htree : p'.stopped = false → p.stopped = false ∧ p'.children = p.children)
    (hlife : ∀ thread k, s.killer thread = some k → k.busy = true →
      k.process = a → p'.exiting = p.exiting ∧ p'.stopped = p.stopped ∧
        p'.terminated = p.terminated) : Sound (s.setProcess a (some p')) where
  family := h.family.mark hp hpid hparent hlisted hflags htree
  killers := by
    refine h.killers.change rfl (fun thread k q hk hbusy hq => ?_)
      fun _ _ q _ _ _ _ => State.isChild_setProcess hp hparent q.pid
    by_cases heq : k.process = a
    · rw [heq, hp] at hq
      cases hq
      obtain ⟨hexiting, hstopped, hterminated⟩ := hlife thread k hk hbusy heq
      exact ⟨p', by rw [heq, setProcess_self], hpid, hexiting, hstopped, hterminated, hparent.trans⟩
    · exact ⟨q, (setProcess_of_ne _ _ heq).trans hq, rfl, rfl, rfl, rfl, id⟩
  calls := by
    refine h.calls.change rfl rfl rfl (fun _ _ _ hpid => hpid) (fun _ _ hw => hw)
      (fun _ _ _ hw _ => hw) (State.forall_setProcess (fun _ q hq _ => .inl ⟨q, hq⟩) (.inl ⟨p, hp⟩))
      (fun thread w q hw hq => ?_) fun thread w child q c hw _ hq hc hreaps hparent' hmine => ?_
    · by_cases heq : w.process = a
      · rw [heq, hp] at hq
        cases hq
        refine ⟨p', by rw [heq, setProcess_self], hpid, fun hstopped => ?_⟩
        exact ⟨(htree hstopped).1, fun _ => (htree hstopped).2⟩
      · exact ⟨q, (setProcess_of_ne _ _ heq).trans hq, rfl,
          fun hstopped => ⟨hstopped, fun _ => rfl⟩⟩
    · by_cases heq : child = a
      · rw [heq, hp] at hc
        cases hc
        exact ⟨p', by rw [heq, setProcess_self], hpid, hreaping hreaps,
          hparent ▸ hparent', fun _ => hparent⟩
      · exact ⟨c, (setProcess_of_ne _ _ heq).trans hc, rfl, hreaps, hparent', fun _ => rfl⟩

/-- A child changes its parent together with the tree of one process that no
call walks. -/
lemma regroup {c : Nat} {q : Process} {children : Adt.Tree Nat}
    (parent : Nat) (notified : Bool) (hc : s.process c = some q)
    (hb : s.process b = some p) (hne : c ≠ b) (hnotified : notified = true → q.terminated = true)
    (hlt : parent < s.nextPid) (hfirst : q.pid ≠ 1) (hrunning : p.stopped = false)
    (hsearch : Search avlDefaultComparator Set.univ children)
    (hmem : ∀ child, child ∈ children.root.toList ↔
      if child = c then parent = p.pid else child ∈ p.children.root.toList)
    (hothers : ∀ a r, s.process a = some r → a ≠ b →
      (r.stopped = false ∨ ∃ thread k, s.killer thread = some k ∧ k.busy = true ∧ k.process = a) →
      r.pid ≠ q.parent ∧ r.pid ≠ parent)
    (hquiet : ∀ thread k, s.killer thread = some k → k.busy = true →
      k.process = c → q.parent = 0 → parent = 0)
    (hunlocked : ∀ thread w, s.wait thread = some w → w.process = b → w.phase.holds = false)
    (hreaper : ∀ thread w, s.wait thread = some w →
      w.phase.reaps = some c → parent ≠ 0 ∧ ∀ r, s.process w.process = some r → r.stopped = true) :
    Sound ((s.setProcess c (some { q with parent, notified })).setProcess b
      (some { p with children })) := by
  have hcases : ∀ d r, s.process d = some r →
      ∃ r', ((s.setProcess c (some { q with parent, notified })).setProcess b
        (some { p with children })).process d = some r' ∧ r'.pid = r.pid ∧
        r'.exiting = r.exiting ∧ r'.stopped = r.stopped ∧
        r'.terminated = r.terminated ∧ r'.reaping = r.reaping ∧ (d ≠ b → r'.children = r.children) ∧
        (d ≠ c → r'.parent = r.parent) ∧ (d = c → r'.parent = parent) := by
    intro d r hr
    by_cases hdb : d = b
    · subst hdb
      cases hb.symm.trans hr
      exact ⟨_, setProcess_self .., rfl, rfl, rfl, rfl, rfl,
        (absurd rfl), fun _ => rfl, fun heq => absurd heq.symm hne⟩
    · rw [setProcess_of_ne _ _ hdb]
      by_cases hdc : d = c
      · subst hdc
        cases hc.symm.trans hr
        exact ⟨_, setProcess_self .., rfl, rfl, rfl, rfl, rfl,
          fun _ => rfl, (absurd rfl), fun _ => rfl⟩
      · exact ⟨r, (setProcess_of_ne _ _ hdc).trans hr, rfl, rfl, rfl, rfl,
          rfl, fun _ => rfl, fun _ => rfl, fun heq => absurd heq hdc⟩
  refine ⟨h.family.regroup hc hb hne hnotified hlt hfirst hrunning hsearch hmem
    fun a r hr hab hstopped => hothers a r hr hab (.inl hstopped), ?_, ?_⟩
  · refine h.killers.change rfl (fun thread k r hk hbusy hr => ?_)
      fun thread k r hk hbusy hr hstopped => ?_
    · obtain ⟨r', hr', hpid, hexiting, hstopped, hterminated, -, -, hsame, hnew⟩ := hcases _ r hr
      refine ⟨r', hr', hpid, hexiting, hstopped, hterminated, fun hzero => ?_⟩
      by_cases heq : k.process = c
      · rw [heq, hc] at hr
        cases hr
        rw [hnew heq]
        exact hquiet thread k hk hbusy heq hzero
      · rw [hsame heq, hzero]
    · have hkb : k.process ≠ b := by
        intro heq
        rw [heq, hb] at hr
        cases hr
        exact Bool.noConfusion (hrunning.symm.trans hstopped)
      obtain ⟨hold, hnew⟩ := hothers _ r hr hkb (.inr ⟨thread, k, hk, hbusy, rfl⟩)
      exact Family.isChild_regroup_of_ne hc hb hne hold hnew
  · refine h.calls.change rfl rfl rfl (fun _ _ _ hpid => hpid) (fun _ _ hw => hw)
      (fun _ _ _ hw _ => hw) ?_ (fun thread w r hw hr => ?_)
      fun thread w child r d hw hreaps hr hd hreaping hparent _ => ?_
    · refine State.forall_setProcess (fun d r hr _ => .inl ?_) (.inl ⟨p, hb⟩)
      exact State.forall_setProcess (P := fun d _ => ∃ r, s.process d = some r)
        (fun d r hr _ => ⟨r, hr⟩) ⟨q, hc⟩ d r hr
    · obtain ⟨r', hr', hpid, -, hstopped, -, -, hchildren, -, -⟩ := hcases _ r hr
      refine ⟨r', hr', hpid, fun hstop => ⟨hstopped ▸ hstop, fun hholds => ?_⟩⟩
      refine hchildren fun heq => ?_
      exact Bool.noConfusion (hholds.symm.trans (hunlocked thread w hw heq))
    · obtain ⟨d', hd', hpid, -, -, -, hsame, -, hkeep, hnew⟩ := hcases _ d hd
      refine ⟨d', hd', hpid, hsame.trans hreaping, ?_⟩
      by_cases heq : child = c
      · rw [heq] at hreaps
        obtain ⟨hparent', hstopped⟩ := hreaper thread w hw hreaps
        rw [hnew heq]
        exact ⟨hparent', fun hrun => Bool.noConfusion (hrun.symm.trans (hstopped r hr))⟩
      · rw [hkeep heq]
        exact ⟨hparent, fun _ => rfl⟩

/-- A process that has terminated leaves the table. -/
lemma unlist (hp : s.process a = some p)
    (hterminated : p.terminated = true) : Sound (s.setTable p.pid none) :=
  ⟨h.family.unlist hp hterminated, h.killers.keep rfl rfl,
    h.calls.keep rfl rfl rfl rfl rfl fun pid hpid => by
      by_cases heq : pid = p.pid
      · rw [heq]
        exact Function.update_self ..
      · rwa [State.setTable_of_ne _ _ heq]⟩

/-- A process that nobody uses any more is freed. -/
lemma free (hp : s.process a = some p) (hparent : p.parent = 0) (hunlisted : s.table p.pid = none)
    (hkiller : ∀ thread k, s.killer thread = some k → k.busy = true → k.process ≠ a)
    (hreaper : ∀ thread w, s.wait thread = some w → w.phase.reaps ≠ some a) :
    Sound (s.freeProcess a) where
  family := h.family.free hp hparent hunlisted
  killers := by
    refine h.killers.change rfl (fun thread k q hk hbusy hq => ?_)
      fun thread k q hk hbusy hq _ child => ?_
    · exact ⟨q, (setProcess_of_ne _ _ (hkiller thread k hk hbusy)).trans hq, rfl, rfl, rfl, rfl, id⟩
    · by_cases heq : child = a
      · subst heq
        have hpos := h.family.pid_pos _ q hq
        simp only [State.IsChild, freeProcess, setProcess_self, hp,
          Option.some.injEq, exists_eq_left', reduceCtorEq, false_and, exists_false, false_iff]
        omega
      · simp [State.IsChild, freeProcess, setProcess_of_ne _ _ heq]
  calls := by
    have hwait : ∀ thread w, (s.freeProcess a).wait thread = some w ↔
        s.wait thread = some w ∧ w.process ≠ a := by
      simp [freeProcess]
    refine h.calls.change rfl rfl rfl (fun _ _ _ hpid => hpid)
      (fun thread w hw => ((hwait _ _).mp hw).1)
      (fun thread w q hw hq => (hwait _ _).mpr ⟨hw, ?_⟩) (fun d q hq => ?_)
      (fun thread w q hw hq => ?_) fun thread w child q c hw hreaps _ hc hreaping hparent _ => ?_
    · intro heq
      simp [freeProcess, heq] at hq
    · refine .inl ⟨q, ?_⟩
      have hne : d ≠ a := by
        rintro rfl
        simp [freeProcess] at hq
      rw [← hq]
      exact (setProcess_of_ne _ _ hne).symm
    · exact ⟨q, (setProcess_of_ne _ _ ((hwait _ _).mp hw).2).trans hq, rfl,
        fun hstopped => ⟨hstopped, fun _ => rfl⟩⟩
    · have hne : child ≠ a := by
        rintro rfl
        exact hreaper thread w ((hwait _ _).mp hw).1 hreaps
      exact ⟨c, (setProcess_of_ne _ _ hne).trans hc, rfl, hreaping, hparent, fun _ => rfl⟩

/-- A process without a parent is created. -/
lemma add (hfree : s.process a = none) (haddress : a ≤ s.memorySize)
    (hpid : p.pid = s.nextPid) (hparent : p.parent = 0) (hchildren : p.children = treeCreate)
    (hflags : p.Consistent s.exits) (hqueue : (s.semaphore a).waiting = []) :
    Sound { (s.setProcess a (some p)).setTable s.nextPid (some a) with
      nextPid := s.nextPid + 1 } := by
  have hne : ∀ d r, s.process d = some r → d ≠ a := by
    rintro d r hr rfl
    simp [hfree] at hr
  refine ⟨h.family.add hfree haddress hpid hparent hchildren hflags, ?_, ?_⟩
  · refine h.killers.change rfl (fun thread k q hk hbusy hq => ?_)
      fun thread k q hk hbusy hq _ child => ?_
    · exact ⟨q, (setProcess_of_ne _ _ (hne _ q hq)).trans hq, rfl, rfl, rfl, rfl, id⟩
    · change (s.setProcess a (some p)).IsChild q.pid child ↔ _
      by_cases heq : child = a
      · subst heq
        have hpos := h.family.pid_pos _ q hq
        simp only [State.IsChild, setProcess_self, hfree,
          Option.some.injEq, exists_eq_left', reduceCtorEq, false_and, exists_false, iff_false]
        omega
      · simp [State.IsChild, setProcess_of_ne _ _ heq]
  · refine h.calls.change rfl rfl rfl (fun d r hr hpid => ?_) (fun _ _ hw => hw)
      (fun _ _ _ hw _ => hw) (State.forall_setProcess (fun _ q hq _ => .inl ⟨q, hq⟩) (.inr hqueue))
      (fun thread w q hw hq => ?_) fun thread w child q c hw _ _ hc hreaping hparent _ => ?_
    · rwa [← State.setTable_of_ne _ (some a) (Nat.ne_of_lt (h.family.pid_lt d r hr))] at hpid
    · exact ⟨q, (setProcess_of_ne _ _ (hne _ q hq)).trans hq, rfl,
        fun hstopped => ⟨hstopped, fun _ => rfl⟩⟩
    · exact ⟨c, (setProcess_of_ne _ _ (hne _ c hc)).trans hc, rfl, hreaping, hparent, fun _ => rfl⟩

end

end Sound

end Merlon.Processes
