/-
The steps of `WaitProcess`.  Whatever the other threads did before, they keep
the family, the killers and the calls sound.
-/
import Merlon.Process.Edits

namespace Merlon.Processes

open Adt State List
open Function (update update_comm update_idem update_self update_of_ne)

variable {child : Nat} {p c : Process}

lemma ordersOn_avlDefaultComparator : OrdersOn avlDefaultComparator Set.univ := by
  constructor <;> intro a _ b _ <;> unfold avlDefaultComparator <;>
    (try intro c _) <;> split_ifs <;> omega

lemma avlDefaultComparator_eq_zero {a b : Nat} : avlDefaultComparator a b = 0 ↔ a = b := by
  unfold avlDefaultComparator
  split_ifs <;> simp_all

lemma elements_dropNil (todo : List (TreeNode Nat)) :
    elements (dropNil todo) = elements todo := by
  fun_induction dropNil todo with
  | case1 rest ih => simpa [elements] using ih
  | case2 todo _ => rfl

/-- All but the semaphores and the calls is as it was. -/
structure State.Frame (s s' : State) : Prop where
  memorySize : s'.memorySize = s.memorySize
  threadCount : s'.threadCount = s.threadCount
  process : s'.process = s.process
  lock : s'.lock = s.lock
  table : s'.table = s.table
  nextPid : s'.nextPid = s.nextPid
  killer : s'.killer = s.killer
  reaped : s'.reaped = s.reaped
  returned : s'.returned = s.returned
  exits : s'.exits = s.exits

namespace State

variable {s s' : State} {a thread : Nat}

lemma Frame.refl (s : State) : s.Frame s := ⟨rfl, rfl, rfl, rfl, rfl, rfl, rfl, rfl, rfl, rfl⟩

lemma Frame.trans {s'' : State} (h : s.Frame s') (h' : s'.Frame s'') : s.Frame s'' :=
  ⟨h'.memorySize.trans h.memorySize, h'.threadCount.trans h.threadCount,
    h'.process.trans h.process, h'.lock.trans h.lock, h'.table.trans h.table,
    h'.nextPid.trans h.nextPid, h'.killer.trans h.killer,
    h'.reaped.trans h.reaped, h'.returned.trans h.returned, h'.exits.trans h.exits⟩

/-- A unit becomes free or goes to the thread that waits longest. -/
lemma releaseSemaphore_cases (h : s.releaseSemaphore a = .ok s') :
    ((s.semaphore a).waiting = [] ∧ s' = s.setSemaphore a { s.semaphore a with
        currentCount := (s.semaphore a).currentCount - 1 }) ∨
    ∃ thread rest, (s.semaphore a).waiting = thread :: rest ∧
      s' = (s.setSemaphore a { s.semaphore a with waiting := rest }).grant thread := by
  unfold releaseSemaphore at h
  dsimp only at h
  split at h
  · split at h
    · rename_i hwaiting
      cases h
      exact .inl ⟨hwaiting, rfl⟩
    · rename_i thread rest hwaiting
      cases h
      exact .inr ⟨thread, rest, hwaiting, rfl⟩
  · cases h

lemma releaseSemaphore_frame (h : s.releaseSemaphore a = .ok s') : s.Frame s' := by
  rcases releaseSemaphore_cases h with ⟨_, rfl⟩ | ⟨thread, rest, _, rfl⟩ <;>
    exact ⟨rfl, rfl, rfl, rfl, rfl, rfl, rfl, rfl, rfl, rfl⟩

lemma removeFromProcessTable_eq_ok {pid : Nat}
    (h : s.removeFromProcessTable pid = .ok s') : s' = s.setTable pid none := by
  unfold removeFromProcessTable at h
  split at h
  · cases h
  · cases h
    rfl

lemma deleteChild_eq_ok (hp : s.process a = some p) (h : s.deleteChild a child = .ok s') :
    ∃ children, treeDelete avlDefaultComparator p.children child = some children ∧
    s' = s.setProcess a (some { p with children }) := by
  obtain ⟨q, hfind, h⟩ := bind_eq_ok h
  cases hp.symm.trans (find_eq_ok hfind)
  split at h
  · cases h
  · rename_i children hdelete
    cases h
    exact ⟨children, hdelete, rfl⟩

lemma insertChild_eq_ok (hp : s.process a = some p) (h : s.insertChild a child = .ok s') :
    ∃ children, treeInsert avlDefaultComparator p.children child = some children ∧
    s' = s.setProcess a (some { p with children }) := by
  obtain ⟨q, hfind, h⟩ := bind_eq_ok h
  cases hp.symm.trans (find_eq_ok hfind)
  split at h
  · cases h
  · rename_i children hinsert
    cases h
    exact ⟨children, hinsert, rfl⟩

/-- The child is freed, whatever it was before, and the call is over. -/
lemma detached_eq {parent : Nat} (hne : child ≠ parent) :
    (((s.setProcess parent (some p)).freeProcess child).setLock a none).setWait thread none =
    ((((s.setWait thread none).setLock a none).setProcess child
      (some c)).setProcess parent (some p)).freeProcess child := by
  have hprocess : update (update (update s.process child (some c)) parent (some p)) child none =
      update (update s.process parent (some p)) child none := by
    rw [update_comm hne, update_idem]
  have hwait : (fun other => Option.filter (fun w => w.process ≠ child)
      (update s.wait thread none other)) =
      update (fun other => Option.filter (fun w => w.process ≠ child)
        (s.wait other)) thread none := by
    funext other
    by_cases heq : other = thread
    · subst heq
      simp
    · simp [update_of_ne heq]
  simp only [freeProcess, setProcess, setLock, setWait, hprocess, hwait]

/-- A child that has a parent leaves its tree before it is freed. -/
lemma detach_cases {w : Wait} {parent : Nat}
    (h : s.detach thread w child = .ok s') (hc : s.process child = some c) (hparent : c.parent ≠ 0)
    (htable : ∀ a, s.table c.parent = some a → a = parent) (hp : s.process parent = some p) :
    ∃ children, treeDelete avlDefaultComparator p.children child = some children ∧
      (((s.setProcess parent (some { p with children })).freeProcess
        child).setLock w.process none).endWait thread w c.pid = .ok s' := by
  obtain ⟨d, hfind, h⟩ := bind_eq_ok h
  cases hc.symm.trans (find_eq_ok hfind)
  rw [if_neg hparent] at h
  split at h
  · cases h
  · rename_i a ha
    obtain rfl := htable a ha
    obtain ⟨s₁, hdelete, hend⟩ := bind_eq_ok h
    obtain ⟨children, htree, rfl⟩ := deleteChild_eq_ok hp hdelete
    exact ⟨children, htree, hend⟩

lemma releaseSemaphore_setKiller {k : Option Killer} (h : s.releaseSemaphore a = .ok s') :
    (s.setKiller thread k).releaseSemaphore a = .ok (s'.setKiller thread k) := by
  unfold releaseSemaphore at h ⊢
  dsimp only [setKiller] at h ⊢
  split at h
  · rename_i hcount
    split at h <;> cases h <;> simp_all [setSemaphore, grant, setWait]
  · cases h

end State

namespace Sound

variable {s s' : State} {a thread : Nat} {w : Wait} {rest : List (TreeNode Nat)}
  {left right : TreeNode Nat}

section

variable (h : Sound s) {todo : List (TreeNode Nat)}

include h

lemma release (halive : ∃ p, s.process a = some p)
    (hrelease : s.releaseSemaphore a = .ok s') : Sound s' := by
  have hframe := releaseSemaphore_frame hrelease
  exact ⟨h.family.keep hframe.memorySize hframe.process hframe.table
    hframe.nextPid (hframe.exits ▸ Subset.refl _),
    h.killers.keep hframe.killer hframe.process, h.calls.release halive hrelease⟩

lemma releaseFailedReaps {count : Nat} (halive : ∃ p, s.process a = some p)
    (hrelease : releaseFailedReaps a count s = .ok s') : Sound s' ∧ s.Frame s' := by
  induction count generalizing s with
  | zero =>
    cases hrelease
    exact ⟨h, Frame.refl _⟩
  | succ count ih =>
    obtain ⟨s₁, hfirst, hrest⟩ := bind_eq_ok hrelease
    have hframe := releaseSemaphore_frame hfirst
    obtain ⟨hsound, hframe'⟩ := ih (h.release halive hfirst)
      (by rw [hframe.process]; exact halive) hrest
    exact ⟨hsound, hframe.trans hframe'⟩

/-- A call that no queue has returns. -/
lemma endWait {result : Nat} (hout : ∀ a p, s.process a = some p → thread ∉ (s.semaphore a).waiting)
    (halive : ∃ p, s.process w.process = some p)
    (hend : s.endWait thread w result = .ok s') : Sound s' := by
  obtain ⟨s₁, hrelease, hlog⟩ := bind_eq_ok hend
  cases hlog
  obtain ⟨hsound, _⟩ := (h.dropWait hout).releaseFailedReaps halive hrelease
  exact hsound.log _ _ (Subset.refl _)

/-- Who calls `WaitProcess` and is not blocked is in no queue. -/
lemma out (hw : s.wait thread = some w) (hphase : w.phase ≠ .waiting) :
    ∀ a p, s.process a = some p → thread ∉ (s.semaphore a).waiting := by
  refine h.calls.notMem_waiting fun w' hw' => ?_
  cases hw.symm.trans hw'
  exact hphase

lemma acquire (hw : s.wait thread = some w) (hphase : w.phase = .acquiring)
    (hacquire : s.acquire thread w = .ok s') : Sound s' := by
  have hout := h.out hw (by rw [hphase]; nofun)
  obtain ⟨hle, halive, _, _, _⟩ := h.calls.sound thread w hw
  unfold State.acquire at hacquire
  dsimp only at hacquire
  split at hacquire
  · cases hacquire
    refine Sound.setIdle (h.setSemaphore ?_) ?_ hle halive rfl
    · exact Sublist.refl _
    intro a p hp hmem
    by_cases heq : a = w.process
    · subst heq
      rw [State.setSemaphore_self] at hmem
      exact hout _ p hp hmem
    · rw [State.setSemaphore_of_ne _ _ heq] at hmem
      exact hout a p hp hmem
  · split at hacquire
    · exact h.endWait hout halive hacquire
    · cases hacquire
      obtain ⟨p, hp⟩ := halive
      have hwaits : Sound (s.setWait thread (some { w with phase := .waiting })) :=
        h.setIdle hout hle ⟨p, hp⟩ rfl
      refine ⟨hwaits.family.keep rfl rfl rfl rfl (Subset.refl _),
        hwaits.killers.keep rfl rfl, ?_⟩
      exact hwaits.calls.enqueue (State.setWait_self ..) rfl rfl rfl (hout w.process p hp)

/-- The scan goes on while the process is locked. -/
lemma continueScan (hout : ∀ a p, s.process a = some p → thread ∉ (s.semaphore a).waiting)
    (hle : thread ≤ s.threadCount) (halive : ∃ p, s.process w.process = some p)
    (hlock : s.lock w.process = some thread)
    (hscans : ∀ p, s.process w.process = some p → p.stopped = false →
      ∀ child ∈ elements todo, child ∈ p.children.root.toList) :
    Sound (s.continueScan thread w todo) := by
  have hdrop := elements_dropNil todo
  unfold State.continueScan
  split
  · have hwaits := h.setIdle (w := { w with
      failedReaps := if w.pid = -1 then w.failedReaps else w.failedReaps + 1
      phase := .acquiring }) hout hle halive rfl
    refine hwaits.setLock _ _ (forall_update (fun other w' hw' hne heq hholds => ?_) ?_)
    · have hlock' := (h.calls.sound other w' hw').locked hholds
      rw [heq, hlock] at hlock'
      cases hlock'
      exact absurd rfl hne
    · rintro w' ⟨⟩ _ hholds
      cases hholds
  · refine h.setWait hout ⟨hle, halive, fun _ => hlock, ?_, nofun⟩ nofun nofun
    intro todo' p hphase hp hstopped
    cases hphase
    rw [hdrop]
    exact hscans p hp hstopped

section

variable (hw : s.wait thread = some w)
include hw

lemma lockProcess (hphase : w.phase = .taken)
    (hfree : s.lock w.process = none) (hlock : s.lockProcess thread w = .ok s') : Sound s' := by
  obtain ⟨p, hfind, hscan⟩ := bind_eq_ok hlock
  cases hscan
  have hp := find_eq_ok hfind
  have hlocked : Sound (s.setLock w.process (some thread)) := by
    refine h.setLock _ _ fun other w' hw' heq hholds => ?_
    have hlock' := (h.calls.sound other w' hw').locked hholds
    rw [heq, hfree] at hlock'
    cases hlock'
  refine hlocked.continueScan (h.out hw (by rw [hphase]; nofun))
    (h.calls.sound thread w hw).thread_le ⟨p, hp⟩ (setLock_self ..) ?_
  intro q hq _ child hmem
  cases hp.symm.trans hq
  simpa [elements] using hmem

/-- The children that a call walks are children of its process. -/
lemma parent_eq (hphase : w.phase = .scanning todo)
    (hp : s.process w.process = some p) (hrunning : p.stopped = false)
    (hmem : child ∈ elements todo) (hc : s.process child = some c) : c.parent = p.pid := by
  have hscans := (h.calls.sound thread w hw).scans todo p hphase hp hrunning
  have htree := h.family.tree _ p hp hrunning
  obtain ⟨d, hd, hparent⟩ := (htree.mem child).mp (hscans child hmem)
  cases hc.symm.trans hd
  exact hparent

/-- A child that can be reaped is marked, and the walk ends there. -/
lemma reap (hlock : s.lock w.process = some thread)
    (hphase : w.phase ≠ .waiting) (hp : s.process w.process = some p)
    (hc : s.process child = some c) (hparent : c.parent = p.pid) (hterminated : c.terminated = true)
    (hnew : c.reaping = false) (hmatch : (c.pid : Int) = w.pid ∨ w.pid = -1) (reaped : List Reap) :
    Sound ({ s.setProcess child (some { c with reaping := true }) with
      reaped := reaped }.setWait thread (some { w with phase := .removing child })) := by
  have hpos := h.family.pid_pos _ p hp
  have hflags := h.family.flags child c hc
  have hmarked : Sound (s.setProcess child (some { c with reaping := true })) :=
    h.mark _ hc rfl rfl (fun _ => rfl) id { hflags with reaping := fun _ => hterminated }
      (fun hstopped => ⟨hstopped, rfl⟩) fun _ _ _ _ _ => ⟨rfl, rfl, rfl⟩
  have halive : ∃ p', (s.setProcess child
      (some { c with reaping := true })).process w.process = some p' ∧ p'.pid = p.pid :=
    exists_setProcess hc (fun heq => heq) ⟨p, hp, rfl⟩
  obtain ⟨p', hp', hpid⟩ := halive
  refine Sound.setWait (hmarked.log reaped _ (Subset.refl _)) ?_
    ⟨(h.calls.sound thread w hw).thread_le, ⟨p', hp'⟩, fun _ => hlock, nofun, ?_⟩ ?_ nofun
  · refine hmarked.calls.notMem_waiting fun w' hw' => ?_
    cases hw.symm.trans hw'
    exact hphase
  · intro child' q hreaps hq
    cases hreaps
    cases hp'.symm.trans hq
    refine ⟨_, setProcess_self .., rfl, ?_, fun _ => ?_, hmatch⟩
    · change c.parent ≠ 0
      omega
    · change c.parent = p'.pid
      omega
  · intro child' hreaps other w' hw' hreaps'
    cases hreaps
    have hsound := h.calls.sound other w' hw'
    obtain ⟨q, hq⟩ := hsound.alive
    obtain ⟨d, hd, hreaping, _⟩ := hsound.reaps child q hreaps' hq
    cases hc.symm.trans hd
    exact Bool.noConfusion (hnew.symm.trans hreaping)

end

end

/-- What a visit finds and does. -/
lemma visit_cases (hvisit : s.visit thread w left child right rest = .ok s') :
    ∃ p c, s.process w.process = some p ∧ s.process child = some c ∧
      ((c.terminated = true ∧ ((c.pid : Int) = w.pid ∨ w.pid = -1) ∧ c.reaping = false ∧
        (s.semaphore child).currentCount = semBigNumber ∧
        s' = { s.setProcess child (some { c with reaping := true }) with
          reaped := ⟨c.pid, c.parent, p.pid, c.retv⟩ :: s.reaped }.setWait
            thread (some { w with phase := .removing child })) ∨
      (¬ (c.terminated = true ∧ ((c.pid : Int) = w.pid ∨ w.pid = -1)) ∧
        s' = s.continueScan thread w (left :: right :: rest))) := by
  obtain ⟨p, hfind, hvisit⟩ := bind_eq_ok hvisit
  obtain ⟨c, hfind', hvisit⟩ := bind_eq_ok hvisit
  refine ⟨p, c, find_eq_ok hfind, find_eq_ok hfind', ?_⟩
  split at hvisit
  · rename_i hreap
    obtain ⟨_, hdestroy, hvisit⟩ := bind_eq_ok hvisit
    cases hvisit
    unfold destroySemaphore at hdestroy
    split_ifs at hdestroy with hreaping hfull
    refine .inl ⟨hreap.1, hreap.2, ?_, not_not.mp hfull, rfl⟩
    simpa using hreaping
  · rename_i hskip
    cases hvisit
    exact .inr ⟨hskip, rfl⟩

section

variable (h : Sound s)

include h

lemma visit (hw : s.wait thread = some w)
    (hphase : w.phase = .scanning (.node left child right :: rest))
    (hruns : s.runs w.process = true)
    (hvisit : s.visit thread w left child right rest = .ok s') : Sound s' := by
  have hsound := h.calls.sound thread w hw
  have hlock := hsound.locked (by rw [hphase]; rfl)
  have hwaiting : w.phase ≠ .waiting := by rw [hphase]; nofun
  obtain ⟨p, c, hp, hc, hreap | ⟨_, rfl⟩⟩ := visit_cases hvisit
  · obtain ⟨hterminated, hmatch, hnew, _, rfl⟩ := hreap
    have hrunning := stopped_of_runs hp hruns
    exact h.reap hw hlock hwaiting hp hc (h.parent_eq hw hphase hp hrunning (by simp [elements]) hc)
      hterminated hnew hmatch _
  · refine h.continueScan (h.out hw hwaiting) hsound.thread_le hsound.alive hlock
      fun q hq hstopped d hd => hsound.scans _ q hphase hq hstopped d ?_
    simp only [elements, List.flatMap_cons, TreeNode.toList, List.mem_append] at hd ⊢
    tauto

lemma unlistChild (hw : s.wait thread = some w)
    (hphase : w.phase = .removing child) (hstep : s.stepWait thread w = .ok s') : Sound s' := by
  have hsound := h.calls.sound thread w hw
  have hreaps : w.phase.reaps = some child := by rw [hphase]; rfl
  unfold stepWait at hstep
  rw [hphase] at hstep
  obtain ⟨c, hfind, hstep⟩ := bind_eq_ok hstep
  obtain ⟨s₁, hremove, hstep⟩ := bind_eq_ok hstep
  cases hstep
  have hc := find_eq_ok hfind
  obtain ⟨p, hp⟩ := hsound.alive
  obtain ⟨d, hd, hreaping, _⟩ := hsound.reaps child p hreaps hp
  cases hc.symm.trans hd
  obtain rfl := removeFromProcessTable_eq_ok hremove
  have hunlist := h.unlist hc ((h.family.flags child c hc).reaping hreaping)
  refine hunlist.setWait (h.out hw (by rw [hphase]; nofun))
    ⟨hsound.thread_le, hsound.alive, fun _ => hsound.locked (by rw [hphase]; rfl), nofun,
      fun child' q hchild => hsound.reaps child' q (hreaps.trans hchild)⟩
    (fun child' hchild other w' hw' hreaps' => ?_) fun child' c' hchild hc' => ?_
  · exact h.calls.one other thread w' w child' hw' hw hreaps' (hreaps.trans hchild)
  · cases hchild
    cases hc.symm.trans hc'
    exact update_self ..

/-- Nobody kills a process that has terminated and has a parent. -/
lemma not_busy (hc : s.process child = some c)
    (hterminated : c.terminated = true) (hparent : c.parent ≠ 0) {k : Killer}
    (hk : s.killer thread = some k) (hbusy : k.busy = true) : k.process ≠ child := by
  rintro rfl
  have hsound := h.killers.sound thread k hk
  have hstopped := (h.family.flags _ c hc).terminated hterminated
  obtain ⟨process, pid, phase⟩ := k
  cases phase with
  | start =>
    obtain ⟨p, hp, _, _, hrunning⟩ := hsound
    cases hc.symm.trans hp
    exact Bool.noConfusion (hrunning.symm.trans hstopped)
  | lookup orphans =>
    obtain ⟨⟨p, hp, _, _, hlive⟩, _, _⟩ := hsound
    cases hc.symm.trans hp
    exact Bool.noConfusion (hlive.symm.trans hterminated)
  | adopting adopter orphans =>
    obtain ⟨⟨⟨p, hp, _, _, hlive⟩, _, _⟩, _⟩ := hsound
    cases hc.symm.trans hp
    exact Bool.noConfusion (hlive.symm.trans hterminated)
  | notifying parent => cases hbusy
  | removing =>
    obtain ⟨p, hp, _, hzero, _⟩ := hsound
    cases hc.symm.trans hp
    exact hparent hzero

/-- The table leads to the parent of a child that is being reaped. -/
lemma table_parent {parent : Nat} (hp : s.process a = some p) (hrunning : p.stopped = false)
    (hparent : c.parent = p.pid) (htable : s.table c.parent = some parent) : parent = a := by
  have hlive : p.terminated = false := by
    cases hterminated : p.terminated with
    | false => rfl
    | true =>
      have hstopped := (h.family.flags a p hp).terminated hterminated
      exact Bool.noConfusion (hrunning.symm.trans hstopped)
  rw [hparent, h.family.listed a p hp hlive] at htable
  exact (Option.some.inj htable).symm

section

variable (hw : s.wait thread = some w)
include hw

/-- The child leaves the tree and is freed before the call returns. -/
lemma detached (hphase : w.phase = .detaching child) (hruns : s.runs w.process = true)
    (hdetach : s.detach thread w child = .ok s') :
    ∃ p c children, s.process w.process = some p ∧
      s.process child = some c ∧ c.terminated = true ∧ child ≠ w.process ∧
      ((c.pid : Int) = w.pid ∨ w.pid = -1) ∧
      Sound ((((s.setProcess w.process (some { p with children })).freeProcess
        child).setLock w.process none).setWait thread none) ∧
      (((s.setProcess w.process (some { p with children })).freeProcess
        child).setLock w.process none).endWait thread w c.pid = .ok s' := by
  have hsound := h.calls.sound thread w hw
  have hreaps : w.phase.reaps = some child := by rw [hphase]; rfl
  have hlock := hsound.locked (by rw [hphase]; rfl)
  obtain ⟨p, hp⟩ := hsound.alive
  have hrunning := stopped_of_runs hp hruns
  obtain ⟨c, hc, hreaping, hparent, hmine, hmatch⟩ := hsound.reaps child p hreaps hp
  have hunlisted := h.calls.unlisted thread w child c hw hphase hc
  have hterminated := (h.family.flags child c hc).reaping hreaping
  have hmine := hmine hrunning
  have hne : child ≠ w.process := by
    rintro rfl
    cases hp.symm.trans hc
    have hstopped := (h.family.flags _ p hp).terminated hterminated
    exact Bool.noConfusion (hrunning.symm.trans hstopped)
  obtain ⟨children, hdelete, hend⟩ := detach_cases hdetach hc hparent
    (fun parent htable => h.table_parent hp hrunning hmine htable) hp
  obtain ⟨tree, hcall, hlist, -, hsearch⟩ :=
    (h.family.tree _ p hp hrunning).search.delete ordersOn_avlDefaultComparator (Set.mem_univ child)
  cases hdelete.symm.trans hcall
  have hleft : ∀ other w', (s.setWait thread none).wait other = some w' →
      s.wait other = some w' ∧ other ≠ thread :=
    forall_update (fun other w' hw' hother => ⟨hw', hother⟩) fun _ hw' => nomatch hw'
  have hholder : ∀ other w', (s.setWait thread none).wait other = some w' →
      w'.process = w.process → w'.phase.holds = false := by
    intro other w' hw' heq
    obtain ⟨hold, hother⟩ := hleft other w' hw'
    cases hholds : w'.phase.holds with
    | false => rfl
    | true =>
      have hlock' := (h.calls.sound other w' hold).locked hholds
      rw [heq, hlock] at hlock'
      exact absurd (Option.some.inj hlock').symm hother
  have hreaper : ∀ other w', (s.setWait thread none).wait other = some w' →
      w'.phase.reaps ≠ some child := by
    intro other w' hw' hreaps'
    obtain ⟨hold, hother⟩ := hleft other w' hw'
    exact hother (h.calls.one other thread w' w child hold hw hreaps' hreaps)
  have hdropped := h.dropWait (h.out hw (by rw [hphase]; nofun))
  have hunlocked := hdropped.setLock w.process none fun other w' hw' heq hholds =>
      Bool.noConfusion ((hholder other w' hw' heq).symm.trans hholds)
  have hregrouped := hunlocked.regroup 0 c.notified
    hc hp hne (h.family.flags child c hc).notified h.family.next_pos
    (fun hone => hparent (h.family.first child c hc hone)) hrunning hsearch (fun d => by
      rw [hlist, List.mem_filter, decide_eq_true_eq, ne_eq, avlDefaultComparator_eq_zero]
      split <;> rename_i heq
      · subst heq
        omega
      · exact and_iff_left (Ne.symm heq))
    (fun d r hr hd _ => by
      have hposr := h.family.pid_pos d r hr
      refine ⟨fun heq => hd ?_, by omega⟩
      exact h.family.unique d _ r p hr hp (heq.trans hmine))
    (fun _ _ _ _ _ _ => rfl) hholder
    (fun other w' hw' hreaps' => absurd hreaps' (hreaper other w' hw'))
  have hfreed := hregrouped.free ((setProcess_of_ne _ _ hne).trans (setProcess_self ..))
    rfl hunlisted (fun _ _ hk hbusy => h.not_busy hc hterminated hparent hk hbusy) hreaper
  refine ⟨p, c, children, hp, hc, hterminated, hne, hmatch, ?_, hend⟩
  rw [detached_eq (c := { c with parent := 0 }) hne]
  exact hfreed

lemma detach (hphase : w.phase = .detaching child)
    (hruns : s.runs w.process = true) (hdetach : s.detach thread w child = .ok s') : Sound s' := by
  obtain ⟨p, c, children, _, _, _, hne, _, hdetached, hend⟩ := h.detached hw hphase hruns hdetach
  obtain ⟨s₁, hrelease, hlog⟩ := bind_eq_ok hend
  cases hlog
  obtain ⟨hreleased, _⟩ := hdetached.releaseFailedReaps
    ⟨_, (setProcess_of_ne _ _ hne.symm).trans (setProcess_self ..)⟩ hrelease
  exact hreleased.log _ _ (Subset.refl _)

lemma stepWait (hallowed : (Event.goOn thread).allowed s = true)
    (hstep : s.stepWait thread w = .ok s') : Sound s' := by
  have hsound := h.calls.sound thread w hw
  simp only [Event.allowed, hw, Bool.and_eq_true] at hallowed
  obtain ⟨hruns, hfree⟩ := hallowed
  unfold State.stepWait at hstep
  split at hstep <;> rename_i hphase
  · exact h.acquire hw hphase hstep
  · cases hstep
    exact h
  · rw [hphase] at hfree
    exact h.lockProcess hw hphase (Option.isNone_iff_eq_none.mp hfree) hstep
  · exact h.visit hw hphase hruns hstep
  · rename_i todo _
    cases hstep
    exact h.continueScan (h.out hw (by rw [hphase]; nofun)) hsound.thread_le
      hsound.alive (hsound.locked (by rw [hphase]; rfl)) (hsound.scans todo · hphase)
  · refine h.unlistChild hw hphase ?_
    unfold State.stepWait
    rw [hphase]
    exact hstep
  · exact h.detach hw hphase hruns hstep

end

end

end Sound

end Merlon.Processes
