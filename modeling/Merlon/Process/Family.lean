/-
The family of processes.  The process table and the trees of children agree
with the parents that the processes have, whatever a step does to one of them.
-/
import Merlon.Process.Model
import Merlon.Library.Table

namespace Merlon.Processes

open Adt State
open Function (update_self update_of_ne)

def State.IsChild (s : State) (pid child : Nat) : Prop :=
  ∃ c, s.process child = some c ∧ c.parent = pid

/-- The history fields of a process, in the order in which they are set. -/
structure Process.Consistent (p : Process) (exits : List (Nat × Int)) : Prop where
  exiting : p.exiting = true → (p.pid, p.retv) ∈ exits
  stopped : p.stopped = true → p.exiting = true
  terminated : p.terminated = true → p.stopped = true
  notified : p.notified = true → p.terminated = true
  reaping : p.reaping = true → p.terminated = true

/-- The tree of a process has just its children. -/
structure Process.Knows (p : Process) (isChild : Nat → Nat → Prop) : Prop where
  search : Search avlDefaultComparator Set.univ p.children
  mem : ∀ child, child ∈ p.children.root.toList ↔ isChild p.pid child

structure Family (s : State) : Prop where
  next_pos : 0 < s.nextPid
  pid_pos : ∀ a p, s.process a = some p → 0 < p.pid
  pid_lt : ∀ a p, s.process a = some p → p.pid < s.nextPid
  parent_lt : ∀ a p, s.process a = some p → p.parent < s.nextPid
  first : ∀ a p, s.process a = some p → p.pid = 1 → p.parent = 0
  address : ∀ a p, s.process a = some p → a ≤ s.memorySize
  unique : ∀ a b p q, s.process a = some p → s.process b = some q → p.pid = q.pid → a = b
  table : ∀ pid a, s.table pid = some a → ∃ p, s.process a = some p ∧ p.pid = pid
  listed : ∀ a p, s.process a = some p → p.terminated = false → s.table p.pid = some a
  flags : ∀ a p, s.process a = some p → p.Consistent s.exits
  tree : ∀ a p, s.process a = some p → p.stopped = false → p.Knows s.IsChild

namespace State

variable {s : State} {a b : Nat}

@[simp] lemma setProcess_self (s : State) (a : Nat) (p : Option Process) :
    (s.setProcess a p).process a = p :=
  update_self ..

lemma setProcess_of_ne (s : State) (p : Option Process) (hne : b ≠ a) :
    (s.setProcess a p).process b = s.process b :=
  update_of_ne hne ..

lemma stopped_of_runs {p : Process} (hp : s.process a = some p)
    (h : s.runs a = true) : p.stopped = false := by
  simpa [runs, hp] using h

lemma find_eq_ok {p : Process} (h : s.find a = .ok p) : s.process a = some p := by
  unfold find at h
  split at h
  · cases h
  · rename_i q hq
    cases h
    exact hq

/-- A property of all processes that the new one has too. -/
lemma forall_setProcess {P : Nat → Process → Prop} {p' : Process}
    (h : ∀ b p, s.process b = some p → b ≠ a → P b p) (hself : P a p') :
    ∀ b p, (s.setProcess a (some p')).process b = some p → P b p :=
  forall_update h fun _ heq => Option.some.inj heq ▸ hself

lemma exists_setProcess {P : Process → Prop} {p p' : Process}
    (hp : s.process a = some p) (hkeep : P p → P p') (h : ∃ q, s.process b = some q ∧ P q) :
    ∃ q, (s.setProcess a (some p')).process b = some q ∧ P q :=
  exists_update hp hkeep h

section

variable (s : State)

@[simp] lemma setSemaphore_self (a : Nat) (sem : Semaphore) :
    (s.setSemaphore a sem).semaphore a = sem :=
  update_self ..

lemma setSemaphore_of_ne (sem : Semaphore) (hne : b ≠ a) :
    (s.setSemaphore a sem).semaphore b = s.semaphore b :=
  update_of_ne hne ..

@[simp] lemma setWait_self (thread : Nat) (w : Option Wait) :
    (s.setWait thread w).wait thread = w :=
  update_self ..

lemma setWait_of_ne (w : Option Wait) (hne : b ≠ a) : (s.setWait a w).wait b = s.wait b :=
  update_of_ne hne ..

@[simp] lemma setLock_self (a : Nat) (holder : Option Nat) : (s.setLock a holder).lock a = holder :=
  update_self ..

lemma setLock_of_ne (holder : Option Nat) (hne : b ≠ a) : (s.setLock a holder).lock b = s.lock b :=
  update_of_ne hne ..

lemma setTable_of_ne {pid pid' : Nat} (entry : Option Nat)
    (hne : pid' ≠ pid) : (s.setTable pid entry).table pid' = s.table pid' :=
  update_of_ne hne ..

end

/-- Who is whose child depends on the parents alone. -/
lemma isChild_setProcess {p p' : Process} (hp : s.process a = some p)
    (hparent : p'.parent = p.parent) (pid child : Nat) :
    (s.setProcess a (some p')).IsChild pid child ↔ s.IsChild pid child := by
  by_cases hne : child = a
  · subst hne
    simp [IsChild, hp, hparent]
  · simp [IsChild, setProcess_of_ne _ _ hne]

end State

open State (forall_setProcess setProcess_of_ne)

/-- What a process may become in a step. -/
structure Process.Follows (s s' : State) (p p' : Process) : Prop where
  pid : p'.pid = p.pid
  parent_lt : p'.parent < s.nextPid
  first : p'.pid = 1 → p'.parent = 0
  listed : p'.terminated = false → p.terminated = false ∧ s'.table p.pid = s.table p.pid
  flags : p'.Consistent s'.exits
  tree : p'.stopped = false → p'.Knows s'.IsChild

namespace Family

variable {s s' : State} {a b : Nat} {p p' : Process}

/-- Every process becomes one that may follow it, and those that the table
has stay. -/
lemma change (h : Family s) (hmemory : s'.memorySize = s.memorySize)
    (htable : ∀ pid d, s'.table pid = some d → s.table pid = some d)
    (hnext : s'.nextPid = s.nextPid)
    (hforth : ∀ d r, s.process d = some r → s'.table r.pid = some d →
      ∃ r', s'.process d = some r' ∧ r'.pid = r.pid)
    (hback : ∀ d r', s'.process d = some r' →
      ∃ r, s.process d = some r ∧ r.Follows s s' r') : Family s' where
  next_pos := hnext ▸ h.next_pos
  pid_pos d r' hr' := by
    obtain ⟨r, hr, hfollows⟩ := hback d r' hr'
    rw [hfollows.pid]
    exact h.pid_pos d r hr
  pid_lt d r' hr' := by
    obtain ⟨r, hr, hfollows⟩ := hback d r' hr'
    rw [hfollows.pid, hnext]
    exact h.pid_lt d r hr
  parent_lt d r' hr' := by
    obtain ⟨r, hr, hfollows⟩ := hback d r' hr'
    rw [hnext]
    exact hfollows.parent_lt
  first d r' hr' := by
    obtain ⟨r, hr, hfollows⟩ := hback d r' hr'
    exact hfollows.first
  address d r' hr' := by
    obtain ⟨r, hr, _⟩ := hback d r' hr'
    rw [hmemory]
    exact h.address d r hr
  unique d e r' t' hr' ht' heq := by
    obtain ⟨r, hr, hfollows⟩ := hback d r' hr'
    obtain ⟨t, ht, hfollows'⟩ := hback e t' ht'
    rw [hfollows.pid, hfollows'.pid] at heq
    exact h.unique d e r t hr ht heq
  table pid d hd := by
    obtain ⟨r, hr, rfl⟩ := h.table pid d (htable pid d hd)
    exact hforth d r hr hd
  listed d r' hr' hlive := by
    obtain ⟨r, hr, hfollows⟩ := hback d r' hr'
    obtain ⟨hold, hsame⟩ := hfollows.listed hlive
    rw [hfollows.pid, hsame]
    exact h.listed d r hr hold
  flags d r' hr' := by
    obtain ⟨r, hr, hfollows⟩ := hback d r' hr'
    exact hfollows.flags
  tree d r' hr' := by
    obtain ⟨r, hr, hfollows⟩ := hback d r' hr'
    exact hfollows.tree

/-- A process that stays as it is, with the same children. -/
lemma follows_self (h : Family s) {d : Nat} {r : Process} (hr : s.process d = some r)
    (hexits : s.exits ⊆ s'.exits) (htable : r.terminated = false → s'.table r.pid = s.table r.pid)
    (hchild : r.stopped = false → ∀ child, s'.IsChild r.pid child ↔ s.IsChild r.pid child) :
    r.Follows s s' r where
  pid := rfl
  parent_lt := h.parent_lt d r hr
  first := h.first d r hr
  listed hlive := ⟨hlive, htable hlive⟩
  flags := { h.flags d r hr with
    exiting := fun hexiting => hexits ((h.flags d r hr).exiting hexiting) }
  tree hstopped := ⟨(h.tree d r hr hstopped).search, fun child =>
      ((h.tree d r hr hstopped).mem child).trans (hchild hstopped child).symm⟩

lemma keep (h : Family s) (hmemory : s'.memorySize = s.memorySize)
    (hprocess : s'.process = s.process) (htable : s'.table = s.table)
    (hnext : s'.nextPid = s.nextPid) (hexits : s.exits ⊆ s'.exits) : Family s' := by
  refine h.change hmemory (fun _ _ hd => htable ▸ hd) hnext ?_ ?_ <;> rw [hprocess]
  · exact fun d r hr _ => ⟨r, hr, rfl⟩
  · intro d r hr
    refine ⟨r, hr, h.follows_self hr hexits (fun _ => by rw [htable]) fun _ child => ?_⟩
    rw [State.IsChild, State.IsChild, hprocess]

/-- A process gets new flags. -/
lemma mark (h : Family s) (hp : s.process a = some p)
    (hpid : p'.pid = p.pid) (hparent : p'.parent = p.parent)
    (hlisted : p'.terminated = false → p.terminated = false) (hflags : p'.Consistent s.exits)
    (htree : p'.stopped = false → p.stopped = false ∧ p'.children = p.children) :
    Family (s.setProcess a (some p')) := by
  have hchild := isChild_setProcess hp hparent
  refine h.change rfl (fun _ _ hd => hd) rfl ?_ (forall_setProcess ?_ ?_)
  · exact fun d r hr _ => exists_setProcess hp hpid.trans ⟨r, hr, rfl⟩
  · intro d r hr _
    exact ⟨r, hr, h.follows_self hr (List.Subset.refl _) (fun _ => rfl)
      fun _ child => hchild r.pid child⟩
  · refine ⟨p, hp, hpid, hparent ▸ h.parent_lt a p hp, ?_,
      fun hlive => ⟨hlisted hlive, rfl⟩, hflags, ?_⟩
    · rw [hpid, hparent]
      exact h.first a p hp
    · intro hstopped
      obtain ⟨hrunning, hchildren⟩ := htree hstopped
      obtain ⟨hsearch, hmem⟩ := h.tree a p hp hrunning
      refine ⟨hchildren ▸ hsearch, fun child => ?_⟩
      rw [hchildren, hpid, hmem child]
      exact (hchild p.pid child).symm

section

variable {c parent : Nat} {q : Process} {notified : Bool}
  {children : Adt.Tree Nat} (hc : s.process c = some q) (hb : s.process b = some p) (hne : c ≠ b)

include hb hne

lemma regroup_process : (s.setProcess c (some { q with parent, notified })).process b = some p := by
  rw [setProcess_of_ne _ _ (Ne.symm hne), hb]

include hc

/-- Who is whose child when a child changes its parent and the tree of one
process changes with it. -/
lemma isChild_regroup (pid child : Nat) :
    ((s.setProcess c (some { q with parent, notified })).setProcess b
      (some { p with children })).IsChild pid child ↔
      if child = c then parent = pid else s.IsChild pid child := by
  refine (isChild_setProcess (regroup_process hb hne) (by rfl) pid child).trans ?_
  by_cases heq : child = c
  · subst heq
    simp [State.IsChild]
  · simp [State.IsChild, setProcess_of_ne _ _ heq, heq]

/-- For one that is neither the old parent nor the new one nothing changes. -/
lemma isChild_regroup_of_ne {pid : Nat} (hold : pid ≠ q.parent)
    (hnew : pid ≠ parent) (child : Nat) :
    ((s.setProcess c (some { q with parent, notified })).setProcess b
      (some { p with children })).IsChild pid child ↔ s.IsChild pid child := by
  rw [isChild_regroup hc hb hne]
  split
  · subst child
    constructor
    · exact fun heq => absurd heq.symm hnew
    · rintro ⟨t, ht, hparent⟩
      cases hc.symm.trans ht
      exact absurd hparent.symm hold
  · rfl

/-- A child changes its parent, and the tree of one process changes with
it. -/
lemma regroup (h : Family s) (hnotified : notified = true → q.terminated = true)
    (hlt : parent < s.nextPid) (hfirst : q.pid ≠ 1) (hrunning : p.stopped = false)
    (hsearch : Search avlDefaultComparator Set.univ children)
    (hmem : ∀ child, child ∈ children.root.toList ↔
      if child = c then parent = p.pid else child ∈ p.children.root.toList)
    (hothers : ∀ a r, s.process a = some r → a ≠ b → r.stopped = false →
      r.pid ≠ q.parent ∧ r.pid ≠ parent) :
    Family ((s.setProcess c (some { q with parent, notified })).setProcess b
      (some { p with children })) := by
  have hapart : ∀ d r, s.process d = some r → d ≠ b → r.stopped = false →
      ∀ child, ((s.setProcess c (some { q with parent, notified })).setProcess b
        (some { p with children })).IsChild r.pid child ↔ s.IsChild r.pid child := by
    intro d r hr hdb hstop
    obtain ⟨hold, hnew⟩ := hothers d r hr hdb hstop
    exact isChild_regroup_of_ne hc hb hne hold hnew
  refine h.change rfl (fun _ _ hd => hd) rfl ?_ (forall_setProcess ?_ ?_)
  · exact fun d r hr _ => exists_setProcess (regroup_process hb hne) (fun heq => heq)
      (exists_setProcess hc (fun heq => heq) ⟨r, hr, rfl⟩)
  · refine fun d r hr hdb => forall_setProcess
      (P := fun d r => d ≠ b → ∃ r', s.process d = some r' ∧ r'.Follows s _ r) ?_ ?_ d r hr hdb
    · intro d r hr _ hdb
      exact ⟨r, hr, h.follows_self hr (List.Subset.refl _) (fun _ => rfl) (hapart d r hr hdb)⟩
    · intro _
      obtain ⟨hexiting, hstop, hterminated, _, hreaping⟩ := h.flags c q hc
      refine ⟨q, hc, rfl, hlt, fun hone => absurd hone hfirst, fun hlive => ⟨hlive, rfl⟩,
        ⟨hexiting, hstop, hterminated, hnotified, hreaping⟩, fun hstop => ?_⟩
      obtain ⟨hold, hmem⟩ := h.tree c q hc hstop
      exact ⟨hold, fun child => (hmem child).trans (hapart c q hc hne hstop child).symm⟩
  · obtain ⟨hexiting, hstop, hterminated, hnotified, hreaping⟩ := h.flags b p hb
    refine ⟨p, hb, rfl, h.parent_lt b p hb, h.first b p hb, fun hlive => ⟨hlive, rfl⟩,
      ⟨hexiting, hstop, hterminated, hnotified, hreaping⟩, fun _ => ?_⟩
    refine ⟨hsearch, fun child => (hmem child).trans ?_⟩
    rw [isChild_regroup hc hb hne]
    split
    · rfl
    · exact (h.tree b p hb hrunning).mem child

end

/-- A process that has terminated leaves the table. -/
lemma unlist (h : Family s) (hp : s.process a = some p)
    (hterminated : p.terminated = true) : Family (s.setTable p.pid none) := by
  refine h.change rfl ?_ rfl (fun d r hr _ => ⟨r, hr, rfl⟩) ?_
  · intro pid d hd
    by_cases hpid : pid = p.pid
    · simp [setTable, hpid] at hd
    · rwa [setTable_of_ne _ _ hpid] at hd
  · intro d r hr
    refine ⟨r, hr, h.follows_self hr (List.Subset.refl _) (fun hlive => ?_) fun _ _ => Iff.rfl⟩
    refine setTable_of_ne _ _ fun hpid => ?_
    obtain rfl := h.unique d a r p hr hp hpid
    cases hp.symm.trans hr
    exact Bool.noConfusion (hterminated.symm.trans hlive)

/-- A process that is nobody's child any more is freed. -/
lemma free (h : Family s) (hp : s.process a = some p) (hparent : p.parent = 0)
    (hunlisted : s.table p.pid = none) : Family (s.freeProcess a) := by
  have hchild : ∀ d r, s.process d = some r → ∀ child,
      (s.freeProcess a).IsChild r.pid child ↔ s.IsChild r.pid child := by
    intro d r hr child
    by_cases hne : child = a
    · subst hne
      have hpos := h.pid_pos d r hr
      simp only [State.IsChild, freeProcess, setProcess_self, hp]
      constructor
      · rintro ⟨c, hc, _⟩
        cases hc
      · rintro ⟨c, hc, hpid⟩
        cases hc
        omega
    · simp [State.IsChild, freeProcess, setProcess_of_ne _ _ hne]
  refine h.change rfl (fun _ _ hd => hd) rfl ?_ ?_
  · intro d r hr hlisted
    have hne : d ≠ a := by
      rintro rfl
      rw [hp] at hr
      cases hr
      change s.table p.pid = some d at hlisted
      rw [hunlisted] at hlisted
      cases hlisted
    exact ⟨r, by rw [← hr]; exact setProcess_of_ne _ _ hne, rfl⟩
  · intro d r hr
    have hne : d ≠ a := by
      rintro rfl
      simp [freeProcess] at hr
    have hold : s.process d = some r := by
      rw [← hr]
      exact (setProcess_of_ne _ _ hne).symm
    exact ⟨r, hold, h.follows_self hold (List.Subset.refl _) (fun _ => rfl)
      fun _ => hchild d r hold⟩

/-- A process without a parent is created. -/
lemma add (h : Family s) (hfree : s.process a = none)
    (haddress : a ≤ s.memorySize) (hpid : p.pid = s.nextPid)
    (hparent : p.parent = 0) (hchildren : p.children = treeCreate) (hflags : p.Consistent s.exits) :
    Family { (s.setProcess a (some p)).setTable s.nextPid (some a) with
      nextPid := s.nextPid + 1 } := by
  have hnone : ∀ child, ¬ s.IsChild s.nextPid child := by
    rintro child ⟨c, hc, hpid⟩
    exact absurd (h.parent_lt child c hc) (by omega)
  have hchild : ∀ pid child, 0 < pid →
      ((s.setProcess a (some p)).IsChild pid child ↔ s.IsChild pid child) := by
    intro pid child hpos
    by_cases hne : child = a
    · subst hne
      simp only [State.IsChild, setProcess_self, hfree]
      constructor
      · rintro ⟨c, hc, hpid⟩
        cases hc
        omega
      · rintro ⟨c, hc, _⟩
        cases hc
    · simp [State.IsChild, setProcess_of_ne _ _ hne]
  have hpos := h.next_pos
  refine ⟨Nat.succ_pos _, ?_, ?_, ?_, ?_, ?_, ?_, ?_, ?_, ?_, ?_⟩
  · exact forall_setProcess (fun d r hr _ => h.pid_pos d r hr) (by omega)
  · exact forall_setProcess (fun d r hr _ => Nat.lt_succ_of_lt (h.pid_lt d r hr))
      (hpid ▸ Nat.lt_succ_self _)
  · exact forall_setProcess (fun d r hr _ => Nat.lt_succ_of_lt (h.parent_lt d r hr))
      (hparent ▸ Nat.succ_pos _)
  · exact forall_setProcess (fun d r hr _ => h.first d r hr) fun _ => hparent
  · exact forall_setProcess (fun d r hr _ => h.address d r hr) haddress
  · intro d e r t hr ht hsame
    revert d r
    refine forall_setProcess ?_ ?_
    · intro d r hr _ hsame
      revert e t
      refine forall_setProcess ?_ ?_
      · exact fun e t ht _ hsame => h.unique d e r t hr ht hsame
      · intro hsame
        exact absurd (h.pid_lt d r hr) (by omega)
    · revert e t
      refine forall_setProcess ?_ fun _ => rfl
      intro e t ht _ hsame
      exact absurd (h.pid_lt e t ht) (by omega)
  · refine forall_update ?_ ?_
    · intro pid d hd hne
      obtain ⟨r, hr, hr'⟩ := h.table pid d hd
      have hda : d ≠ a := fun heq => by simp [heq, hfree] at hr
      exact ⟨r, (setProcess_of_ne _ _ hda).trans hr, hr'⟩
    · rintro d ⟨⟩
      exact ⟨p, setProcess_self .., hpid⟩
  · refine forall_setProcess ?_ fun _ => ?_
    · intro d r hr _ hlive
      have hlt := h.pid_lt d r hr
      exact (setTable_of_ne _ _ (Nat.ne_of_lt hlt)).trans (h.listed d r hr hlive)
    · rw [hpid]
      exact update_self ..
  · exact forall_setProcess (fun d r hr _ => h.flags d r hr) hflags
  · refine forall_setProcess ?_ fun _ => ?_
    · intro d r hr _ hstopped
      obtain ⟨hsearch, hmem⟩ := h.tree d r hr hstopped
      exact ⟨hsearch, fun child => (hmem child).trans (hchild _ child (h.pid_pos d r hr)).symm⟩
    · refine ⟨hchildren ▸ Search.create, fun child => ?_⟩
      rw [hchildren, hpid]
      refine Iff.trans ?_ (hchild _ child hpos).symm
      simp [treeCreate, hnone]

end Family

end Merlon.Processes
