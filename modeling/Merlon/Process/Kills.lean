/-
The steps of `KillProcess` and of the creation of processes.  With those of
`WaitProcess` they keep every reachable state sound.
-/
import Merlon.Process.Waits

namespace Merlon.Processes

open Adt List State

namespace State

variable {s s' : State} {a thread : Nat} {k : Killer}

lemma perm_postorder (node : TreeNode Nat) : (postorder node).Perm node.toList := by
  induction node with
  | nil => exact List.Perm.refl _
  | node left data right ihl ihr =>
    rw [postorder, append_assoc]
    exact ihl.append (perm_append_singleton data _ |>.trans (ihr.cons data))

/-- The process terminates and is reaped at once or notifies its parent. -/
lemma terminate_cases {p : Process} (hp : s.process k.process = some p)
    (h : s.terminate thread k = .ok s') :
    (p.parent = 0 ∧ p.reaping = false ∧ (s.semaphore k.process).currentCount = semBigNumber ∧
      s' = (s.setProcess k.process (some { p with terminated := true })).setKiller
        thread (some { k with phase := .removing })) ∨
    (p.parent ≠ 0 ∧
      s' = (s.setProcess k.process (some { p with terminated := true })).setKiller
        thread (some { k with phase := .notifying p.parent })) := by
  obtain ⟨q, hfind, h⟩ := bind_eq_ok h
  cases hp.symm.trans (find_eq_ok hfind)
  dsimp only at h
  split at h <;> rename_i hparent
  · obtain ⟨_, hdestroy, h⟩ := bind_eq_ok h
    cases h
    unfold destroySemaphore at hdestroy
    split_ifs at hdestroy with hreaping hfull
    exact .inl ⟨hparent, by simpa using hreaping, not_not.mp hfull, rfl⟩
  · cases h
    exact .inr ⟨hparent, rfl⟩

/-- An orphan has been adopted, and no unit released for it. -/
abbrev adopted (s : State) (adopter orphan : Nat) (p c : Process)
    (children : Adt.Tree Nat) : State :=
  (s.setProcess orphan (some { c with
    parent := p.pid
    notified := c.terminated })).setProcess adopter (some { p with children })

/-- The adopter runs, or it is the process itself and adopts its last child. -/
lemma adoptOrphan_cases {adopter orphan : Nat} {rest : List Nat} (hne : orphan ≠ adopter)
    (h : s.adoptOrphan k adopter orphan rest = .ok s') :
    ∃ p c children, s.process adopter = some p ∧ s.process orphan = some c ∧ p.terminated = false ∧
    (p.stopped = true → adopter = k.process ∧ rest = []) ∧
    treeInsert avlDefaultComparator p.children orphan = some children ∧
    (s.adopted adopter orphan p c children).releaseSemaphore adopter = .ok s' := by
  obtain ⟨p, hfind, h⟩ := bind_eq_ok h
  obtain ⟨c, hfind', h⟩ := bind_eq_ok h
  have hp := find_eq_ok hfind
  split at h
  · cases h
  · rename_i huse
    obtain ⟨s₁, hinsert, h⟩ := bind_eq_ok h
    obtain ⟨children, htree, rfl⟩ := insertChild_eq_ok
      ((setProcess_of_ne _ _ hne.symm).trans hp) hinsert
    refine ⟨p, c, children, hp, find_eq_ok hfind', ?_, ?_, htree, h⟩
    · simp only [not_or] at huse
      simpa using huse.1
    · intro hstopped
      simp only [not_or, not_and, not_not] at huse
      exact huse.2 hstopped

/-- The parent of a new process has none, or is another process. -/
lemma create_cases {parent : Nat} (h : s.create parent a = .ok s')
    (hfree : s.process a = none) (hlt : parent < s.nextPid)
    (hfamily : Family s) :
    (parent = 0 ∧ s' = s.enroll 0 a) ∨
    ∃ b p children, parent ≠ 0 ∧ s.table parent = some b ∧
      s.process b = some p ∧ p.pid = parent ∧ a ≠ b ∧
      treeInsert avlDefaultComparator p.children a = some children ∧
      s' = ((s.enroll 0 a).setProcess a (some
        { pid := s.nextPid
          parent := parent
          children := treeCreate
          retv := 0
          terminated := false
          exiting := false
          stopped := false
          notified := false
          reaping := false })).setProcess b (some { p with children }) := by
  unfold create at h
  dsimp only at h
  split at h <;> rename_i hzero
  · cases h
    exact .inl ⟨hzero, by rw [hzero]⟩
  · split at h
    · cases h
    · rename_i b htable
      rw [getProcessFromPid, enroll, setTable_of_ne _ _ (Nat.ne_of_lt hlt)]
        at htable
      obtain ⟨p, hp, hpid⟩ := hfamily.table parent b htable
      have hne : a ≠ b := by
        rintro rfl
        rw [hfree] at hp
        cases hp
      have hp' : (s.enroll parent a).process b = some p :=
        (Function.update_of_ne hne.symm ..).trans hp
      obtain ⟨children, hinsert, rfl⟩ := insertChild_eq_ok hp' h
      refine .inr ⟨b, p, children, hzero, htable, hp, hpid, hne, hinsert, ?_⟩
      simp only [enroll, setProcess, setTable,
        Function.update_idem]

/-- A process that is still the parent's child is marked before the parent is
told. -/
lemma notify_cases {parent : Nat} (h : s.notify k parent = .ok s') :
    ∃ a, s.table parent = some a ∧
      ((s.releaseSemaphore a = .ok s' ∧
        ∀ p, s.process k.process = some p → p.pid = k.pid → p.parent ≠ parent) ∨
      ∃ p, s.process k.process = some p ∧ p.pid = k.pid ∧ p.parent = parent ∧
        (s.setProcess k.process (some { p with
          notified := p.terminated })).releaseSemaphore a = .ok s') := by
  unfold notify at h
  split at h
  · cases h
  · rename_i a htable
    refine ⟨a, htable, ?_⟩
    split at h
    · rename_i hnone
      refine .inl ⟨h, fun p hp => ?_⟩
      rw [hnone] at hp
      cases hp
    · rename_i p hp
      split at h
      · rename_i hmine
        exact .inr ⟨p, hp, hmine.1, hmine.2, h⟩
      · rename_i hother
        refine .inl ⟨h, fun q hq hpid hparent => ?_⟩
        cases hp.symm.trans hq
        exact hother ⟨hpid, hparent⟩

end State

/-- No other thread kills the process. -/
def State.Sole (s : State) (thread : Nat) (k : Killer) : Prop :=
  ∀ other k', s.killer other = some k' → other ≠ thread → k'.busy = true →
    k'.process ≠ k.process

namespace Sound

variable {s s' : State} {a thread : Nat} {k : Killer} {orphans : List Nat}
  {phase : KillPhase}

lemma sole (h : Sound s) (hk : s.killer thread = some k)
    (hphase : k.phase = phase) (hbusy : Killer.busy { k with phase } = true) : s.Sole thread k := by
  intro other k' hk' hother hbusy' heq
  subst hphase
  exact hother (h.killers.one other thread k' k hk' hk hbusy' hbusy heq)

lemma acts (h : Sound s) (hk : s.killer thread = some k) (hphase : k.phase = phase) :
    Killer.Sound s.process { k with phase } := by
  subst hphase
  exact h.killers.sound thread k hk

/-- A killer goes on to another phase. -/
lemma replaceKiller (h : Sound (s.setKiller thread none)) (hsole : s.Sole thread k)
    (hsound : k.Sound s.process) : Sound (s.setKiller thread (some k)) := by
  have hset : Sound ((s.setKiller thread none).setKiller thread (some k)) := by
    refine h.setKiller hsound fun _ => forall_update ?_ fun _ hk' => nomatch hk'
    exact fun other k' hk' hother hbusy heq => absurd heq (hsole other k' hk' hother hbusy)
  simpa only [State.setKiller, Function.update_idem] using hset

variable {p : Process}
  {adopter orphan parent : Nat} {rest : List Nat} {children : Adt.Tree Nat}

section

variable (h : Sound (s.setKiller thread none))

include h

/-- The killer of a process takes it to the next point of its life. -/
lemma age (p' : Process) (hsole : s.Sole thread k)
    (hp : s.process k.process = some p) (hpid : p'.pid = p.pid) (hparent : p'.parent = p.parent)
    (hreaping : p.reaping = true → p'.reaping = true)
    (hlisted : p'.terminated = false → p.terminated = false)
    (hflags : p'.Consistent s.exits) (hstopped : p'.stopped = true) :
    Sound ((s.setProcess k.process (some p')).setKiller thread none) := by
  refine h.mark p' hp hpid hparent hreaping hlisted hflags
    (fun hrunning => Bool.noConfusion (hrunning.symm.trans hstopped))
    (forall_update ?_ fun _ hk' => nomatch hk')
  exact fun other k' hk' hother hbusy heq => absurd heq (hsole other k' hk' hother hbusy)

lemma terminate (hsole : s.Sole thread k) (hp : s.process k.process = some p)
    (hpid : p.pid = k.pid) (hstopped : p.stopped = true)
    (hterminate : s.terminate thread k = .ok s') : Sound s' := by
  have hflags := h.family.flags k.process p hp
  have haged := h.age { p with terminated := true } hsole hp rfl rfl id
    nofun ⟨hflags.exiting, hflags.stopped, fun _ => hstopped, fun _ => rfl, fun _ => rfl⟩ hstopped
  rcases terminate_cases hp hterminate with ⟨hparent, _, _, rfl⟩ | ⟨_, rfl⟩
  · exact haged.replaceKiller (k := { k with phase := .removing }) hsole
      ⟨_, setProcess_self .., hpid, hparent, rfl⟩
  · exact haged.replaceKiller (k := { k with phase := .notifying p.parent }) hsole trivial

lemma continueAdoption (hsole : s.Sole thread k)
    (hp : s.process k.process = some p) (hpid : p.pid = k.pid) (hstopped : p.stopped = true)
    (horphans : orphans ≠ [] → k.Orphans s.process orphans)
    (hcontinue : s.continueAdoption thread k orphans = .ok s') : Sound s' := by
  unfold State.continueAdoption at hcontinue
  split at hcontinue
  · exact h.terminate hsole hp hpid hstopped hcontinue
  · rename_i hsome
    cases hcontinue
    obtain ⟨hstop, hnodup, hmem⟩ := horphans hsome
    exact h.replaceKiller (k := { k with phase := .lookup orphans }) hsole ⟨hstop, hnodup, hmem⟩

end

section

variable (h : Sound s) {c : Process} {s₁ : State}

include h

section

variable (hk : s.killer thread = some k)

include hk

/-- The threads of the process are stopped. -/
lemma halt (hphase : k.phase = .start) (hp : s.process k.process = some p) : p.pid = k.pid ∧
    p.stopped = false ∧ p.terminated = false ∧
    Sound ((s.setProcess k.process (some { p with stopped := true })).setKiller thread none) := by
  obtain ⟨q, hq, hpid, hexiting, hrunning⟩ := h.acts hk hphase
  cases hp.symm.trans hq
  have hflags := h.family.flags _ p hp
  refine ⟨hpid, hrunning, ?_, ?_⟩
  · cases hterminated : p.terminated with
    | false => rfl
    | true => exact Bool.noConfusion (hrunning.symm.trans (hflags.terminated hterminated))
  · exact h.dropKiller.age { p with stopped := true } (h.sole hk hphase rfl) hp rfl rfl id id
      ⟨hflags.exiting, fun _ => hexiting, fun _ => rfl, hflags.notified, hflags.reaping⟩ rfl

lemma stop (hphase : k.phase = .start) (hp : s.process k.process = some p)
    (hstep : (s.setProcess k.process
      (some { p with stopped := true })).continueAdoption thread k
        (postorder p.children.root) = .ok s') : Sound s' := by
  obtain ⟨hpid, hrunning, hlive, hhalted⟩ := h.halt hk hphase hp
  obtain ⟨hsearch, hmem⟩ := h.family.tree _ p hp hrunning
  refine hhalted.continueAdoption (h.sole hk hphase rfl) (setProcess_self ..)
    hpid rfl (fun _ => ⟨⟨_, setProcess_self .., hpid, rfl, hlive⟩, ?_, ?_⟩) hstep
  · refine (perm_postorder _).nodup_iff.mpr ?_
    refine hsearch.sorted.imp fun hlt heq => ?_
    rw [avlDefaultComparator_eq_zero.mpr heq] at hlt
    exact absurd hlt (lt_irrefl 0)
  · intro child
    rw [(perm_postorder _).mem_iff, hmem, ← hpid]
    exact (isChild_setProcess hp (by rfl) p.pid child).symm

/-- Pid 1 is nobody's child. -/
lemma lookup (hphase : k.phase = .lookup orphans) (htable : s.table 1 = some adopter) :
    Sound (s.setKiller thread (some { k with phase := .adopting adopter orphans })) := by
  have hsound := h.acts hk hphase
  have hsole := h.sole hk hphase rfl
  refine h.dropKiller.replaceKiller (k := { k with phase := .adopting adopter orphans }) hsole
    ⟨⟨hsound.stopped, hsound.nodup, hsound.mem⟩, fun hmem => ?_⟩
  obtain ⟨p, hp, hpid⟩ := h.family.table 1 adopter htable
  obtain ⟨q, hq, hqpid, _⟩ := hsound.stopped
  obtain ⟨c, hc, hparent⟩ := (hsound.mem adopter).mp hmem
  cases hp.symm.trans hc
  have hzero := h.family.first adopter p hp hpid
  have hpos := h.family.pid_pos _ q hq
  omega

/-- A running process adopts an orphan. -/
lemma adopt (hphase : k.phase = .adopting adopter (orphan :: rest))
    (hlock : s.lock adopter = none) (hp : s.process adopter = some p)
    (hc : s.process orphan = some c) (hrunning : p.stopped = false)
    (hinsert : treeInsert avlDefaultComparator p.children orphan = some children) :
    Sound ((s.adopted adopter orphan p c children).setKiller thread none) ∧
    k.Orphans (s.adopted adopter orphan p c children).process rest := by
  have hsole := h.sole hk hphase rfl
  obtain ⟨⟨⟨q, hq, hpid, hstopped, hlive⟩, hnodup, hmem⟩, hnot⟩ := h.acts hk hphase
  have hne : orphan ≠ adopter := by
    rintro rfl
    exact hnot mem_cons_self
  obtain ⟨c', hc', hparent⟩ := (hmem orphan).mp mem_cons_self
  cases hc.symm.trans hc'
  have hpos := h.family.pid_pos _ q hq
  have hposp := h.family.pid_pos _ p hp
  have hdiffer : p.pid ≠ k.pid := by
    intro heq
    obtain rfl : adopter = k.process := h.family.unique _ _ p q hp hq (heq.trans hpid.symm)
    cases hp.symm.trans hq
    exact Bool.noConfusion (hrunning.symm.trans hstopped)
  obtain ⟨hsearch, htree⟩ := h.family.tree _ p hp hrunning
  have hnew : ∀ other ∈ p.children.root.toList, avlDefaultComparator orphan other ≠ 0 := by
    intro other hother heq
    obtain rfl := avlDefaultComparator_eq_zero.mp heq
    obtain ⟨d, hd, hd'⟩ := (htree _).mp hother
    cases hc.symm.trans hd
    exact hdiffer (hd'.symm.trans hparent)
  obtain ⟨tree, before, after, hcall, hlist, hlist', hsearch'⟩ :=
    hsearch.insert ordersOn_avlDefaultComparator (Set.mem_univ orphan) hnew
  cases hinsert.symm.trans hcall
  refine ⟨h.dropKiller.regroup p.pid c.terminated hc hp hne id (h.family.pid_lt _ p hp)
    (fun hone => absurd (h.family.first orphan c hc hone) (by omega)) hrunning
    hsearch' (fun d => ?_) (fun d r hr hd hlives => ⟨fun heq => ?_, fun heq => ?_⟩)
    (fun _ _ _ _ _ hzero => by omega) (fun other w hw heq => ?_)
    (fun other w hw hreaps => ⟨by omega, fun r hr => ?_⟩), ?_, ?_, fun d => ?_⟩
  · rw [hlist', hlist]
    split <;> rename_i heq <;> simp [heq]
  · obtain rfl := h.family.unique _ _ r q hr hq (heq.trans (hparent.trans hpid.symm))
    cases hr.symm.trans hq
    rcases hlives with hruns | ⟨other, k', hk', hbusy', hsame⟩
    · exact Bool.noConfusion (hruns.symm.trans hstopped)
    · revert other k'
      exact forall_update (fun other k' hk' hother hbusy' hsame =>
        hsole other k' hk' hother hbusy' hsame) fun _ hk' => nomatch hk'
  · exact hd (h.family.unique _ _ r p hr hp heq)
  · cases hholds : w.phase.holds with
    | false => rfl
    | true =>
      have hlocked := (h.calls.sound other w hw).locked hholds
      rw [heq, hlock] at hlocked
      cases hlocked
  · cases hruns : r.stopped with
    | true => rfl
    | false =>
      obtain ⟨d, hd, _, _, hmine, _⟩ := (h.calls.sound other w hw).reaps orphan r hreaps hr
      cases hc.symm.trans hd
      have heq := h.family.unique _ _ r q hr hq ((hmine hruns).symm.trans (hparent.trans hpid.symm))
      cases hq.symm.trans (heq ▸ hr)
      exact Bool.noConfusion (hruns.symm.trans hstopped)
  · refine exists_setProcess
      ((setProcess_of_ne _ _ hne.symm).trans hp) (fun heq => heq) ?_
    exact exists_setProcess hc (fun heq => heq) ⟨q, hq, hpid, hstopped, hlive⟩
  · exact (nodup_cons.mp hnodup).2
  · refine Iff.trans ?_ (Family.isChild_regroup hc hp hne k.pid d).symm
    split <;> rename_i heq
    · subst heq
      exact iff_of_false (nodup_cons.mp hnodup).1 hdiffer
    · refine Iff.trans ?_ (hmem d)
      simp [heq]

end

/-- A process that is stopped adopts its own child again. -/
lemma adoptOwn (hsole : s.Sole thread k)
    (hp : s.process k.process = some p) (hc : s.process orphan = some c)
    (hne : orphan ≠ k.process) (hstopped : p.stopped = true) (hparent : c.parent = p.pid) :
    Sound ((s.adopted k.process orphan p c children).setKiller thread none) := by
  have hflags := h.family.flags orphan c hc
  have hmarked := h.mark { c with parent := p.pid, notified := c.terminated } hc
    rfl hparent.symm id id { hflags with notified := id }
    (fun hrunning => ⟨hrunning, rfl⟩) fun _ _ _ _ _ => ⟨rfl, rfl, rfl⟩
  exact hmarked.dropKiller.age { p with children } hsole
    ((setProcess_of_ne _ _ hne.symm).trans hp) rfl rfl id id
    { h.family.flags _ p hp with } hstopped

/-- What an adoption leaves to the killer, before the unit is released. -/
lemma adopted (hk : s.killer thread = some k)
    (hphase : k.phase = .adopting adopter (orphan :: rest))
    (hlock : s.lock adopter = none) (hp : s.process adopter = some p)
    (hc : s.process orphan = some c) (hself : p.stopped = true → adopter = k.process ∧ rest = [])
    (hinsert : treeInsert avlDefaultComparator p.children orphan = some children) :
    Sound ((s.adopted adopter orphan p c children).setKiller thread none) ∧
    (rest ≠ [] → k.Orphans (s.adopted adopter orphan p c children).process rest) := by
  rcases Bool.eq_false_or_eq_true p.stopped with hstopped | hrunning
  · obtain ⟨rfl, rfl⟩ := hself hstopped
    obtain ⟨⟨⟨q, hq, hpid, _⟩, _, hmem⟩, hnot⟩ := h.acts hk hphase
    cases hp.symm.trans hq
    obtain ⟨d, hd, hparent⟩ := (hmem orphan).mp mem_cons_self
    cases hc.symm.trans hd
    have hne : orphan ≠ k.process := by
      rintro rfl
      exact hnot mem_cons_self
    exact ⟨h.adoptOwn (h.sole hk hphase rfl) hp hc hne hstopped
      (hparent.trans hpid.symm), (absurd rfl)⟩
  · obtain ⟨hsound, horphans⟩ := h.adopt hk hphase hlock hp hc hrunning hinsert
    exact ⟨hsound, fun _ => horphans⟩

lemma adopting (hk : s.killer thread = some k)
    (hphase : k.phase = .adopting adopter (orphan :: rest)) (hlock : s.lock adopter = none)
    (hadopt : s.adoptOrphan k adopter orphan rest = .ok s₁) : Sound (s₁.setKiller thread none) ∧
    s₁.Sole thread k ∧
    (∃ q, s₁.process k.process = some q ∧ q.pid = k.pid ∧ q.stopped = true ∧ q.terminated = false) ∧
    (rest ≠ [] → k.Orphans s₁.process rest) := by
  obtain ⟨⟨hstop, _, _⟩, hnot⟩ := h.acts hk hphase
  have hne : orphan ≠ adopter := by
    rintro rfl
    exact hnot mem_cons_self
  obtain ⟨p, c, children, hp, hc, _, hself, hinsert, hrelease⟩ := adoptOrphan_cases hne hadopt
  have hframe := releaseSemaphore_frame hrelease
  obtain ⟨hadopted, horphans⟩ := h.adopted hk hphase hlock hp hc hself hinsert
  refine ⟨hadopted.release ⟨_, setProcess_self ..⟩
    (releaseSemaphore_setKiller hrelease), ?_, ?_, ?_⟩
  · unfold State.Sole
    rw [hframe.killer]
    exact h.sole hk hphase rfl
  · rw [hframe.process]
    refine exists_setProcess
      ((setProcess_of_ne _ _ hne.symm).trans hp) (fun heq => heq) ?_
    exact exists_setProcess hc (fun heq => heq) hstop
  · rw [hframe.process]
    exact horphans

lemma notify (hnotify : s.notify k parent = .ok s₁) : Sound (s₁.setKiller thread none) := by
  obtain ⟨a, htable, hcases⟩ := notify_cases hnotify
  obtain ⟨q, hq, _⟩ := h.family.table parent a htable
  rcases hcases with ⟨hrelease, _⟩ | ⟨p, hp, _, _, hrelease⟩
  · exact (h.release ⟨q, hq⟩ hrelease).dropKiller
  · have hflags := h.family.flags _ p hp
    have hmarked := h.mark { p with notified := p.terminated } hp rfl rfl
      id id { hflags with notified := id }
      (fun hrunning => ⟨hrunning, rfl⟩) fun _ _ _ _ _ => ⟨rfl, rfl, rfl⟩
    refine (hmarked.release ?_ hrelease).dropKiller
    obtain ⟨q', hq', _⟩ := exists_setProcess (P := fun _ => True) hp id ⟨q, hq, trivial⟩
    exact ⟨q', hq'⟩

/-- A process without a parent is reaped by its killer. -/
lemma remove (hk : s.killer thread = some k) (hphase : k.phase = .removing)
    (hp : s.process k.process = some p) :
    Sound (((s.setTable p.pid none).freeProcess k.process).setKiller thread none) := by
  have hsole := h.sole hk hphase rfl
  obtain ⟨q, hq, _, hparent, hterminated⟩ := h.acts hk hphase
  cases hp.symm.trans hq
  refine (h.dropKiller.unlist hp hterminated).free hp hparent (Function.update_self ..) ?_ ?_
  · exact forall_update (fun other k' hk' hother hbusy' =>
      hsole other k' hk' hother hbusy') fun _ hk' => nomatch hk'
  · intro other w hw hreaps
    have hsound := h.calls.sound other w hw
    obtain ⟨r, hr⟩ := hsound.alive
    obtain ⟨c, hc, _, hnonzero, _⟩ := hsound.reaps _ r hreaps hr
    cases hp.symm.trans hc
    exact hnonzero hparent

lemma stepKiller (hk : s.killer thread = some k)
    (hallowed : (Event.killer thread).allowed s = true)
    (hstep : s.stepKiller thread k = .ok s') : Sound s' := by
  simp only [Event.allowed, hk] at hallowed
  unfold State.stepKiller at hstep
  split at hstep <;> rename_i hphase
  · obtain ⟨p, hfind, hstep⟩ := bind_eq_ok hstep
    exact h.stop hk hphase (State.find_eq_ok hfind) hstep
  · split at hstep <;> cases hstep
    rename_i adopter htable
    exact h.lookup hk hphase htable
  · rw [hphase] at hallowed
    obtain ⟨s₁, hadopt, hcontinue⟩ := bind_eq_ok hstep
    obtain ⟨hadopted, hsole, ⟨q, hq, hpid, hstopped, _⟩, horphans⟩ :=
      h.adopting hk hphase (Option.isNone_iff_eq_none.mp hallowed) hadopt
    exact hadopted.continueAdoption hsole hq hpid hstopped horphans hcontinue
  · have hsound := h.acts hk hphase
    obtain ⟨p, hp, hpid, hstopped, _⟩ := hsound.1.stopped
    exact h.dropKiller.continueAdoption (h.sole hk hphase rfl) hp hpid hstopped (absurd rfl) hstep
  · obtain ⟨s₁, hnotify, hstep⟩ := bind_eq_ok hstep
    cases hstep
    exact h.notify hnotify
  · obtain ⟨p, hfind, hstep⟩ := bind_eq_ok hstep
    obtain ⟨s₁, hremove, hstep⟩ := bind_eq_ok hstep
    cases hstep
    obtain rfl := State.removeFromProcessTable_eq_ok hremove
    exact h.remove hk hphase (State.find_eq_ok hfind)

/-- `KillProcess` is called once for each process. -/
lemma kill {retv : Int} (hallowed : (Event.kill thread a retv).allowed s = true)
    (hkill : s.kill thread a retv = .ok s') : Sound s' := by
  obtain ⟨p, hfind, hkill⟩ := bind_eq_ok hkill
  cases hkill
  have hp := find_eq_ok hfind
  simp only [Event.allowed, hp, Bool.and_eq_true, Bool.not_eq_true'] at hallowed
  obtain ⟨_, hexiting⟩ := hallowed
  have hflags := h.family.flags a p hp
  have hrunning : p.stopped = false := by
    cases hstopped : p.stopped with
    | false => rfl
    | true => exact Bool.noConfusion (hexiting.symm.trans (hflags.stopped hstopped))
  have hquiet : ∀ other k', s.killer other = some k' → k'.busy = true → k'.process ≠ a := by
    rintro other k' hk' hbusy rfl
    obtain ⟨q, hq, _, hexits⟩ := h.killers.exiting h.family hk' hbusy
    cases hp.symm.trans hq
    exact Bool.noConfusion (hexiting.symm.trans hexits)
  have hlogged := h.log s.reaped s.returned (subset_cons_self (p.pid, retv) s.exits)
  have hmarked := hlogged.mark { p with retv := retv, exiting := true } hp rfl rfl id id
    ⟨fun _ => mem_cons_self, fun _ => rfl, hflags.terminated, hflags.notified, hflags.reaping⟩
    (fun hstopped => ⟨hstopped, rfl⟩)
    fun other k' hk' hbusy heq => absurd heq (hquiet other k' hk' hbusy)
  exact hmarked.setKiller ⟨_, setProcess_self .., rfl, rfl, hrunning⟩
    fun _ other k' hk' hbusy heq => absurd heq (hquiet other k' hk' hbusy)

/-- The memory of a new process is nobody's. -/
lemma prepare (hfree : s.process a = none) :
    Sound ((s.setSemaphore a ⟨semBigNumber, []⟩).setLock a none) := by
  refine (h.setSemaphore (nil_sublist _)).setLock _ _ fun other w hw heq _ => ?_
  obtain ⟨p, hp⟩ := (h.calls.sound other w hw).alive
  rw [heq, hfree] at hp
  cases hp

/-- A new process becomes the child of a running one. -/
lemma bear {b : Nat} {q : Process} (ha : s.process a = some q) (hb : s.process b = some p)
    (hchild : q.parent = 0) (hfirst : q.pid ≠ 1) (hexiting : q.exiting = false)
    (hparent : p.pid = parent) (hrunning : p.stopped = false) (hlock : s.lock b = none)
    (hne : a ≠ b) (hinsert : treeInsert avlDefaultComparator p.children a = some children) :
    Sound ((s.setProcess a (some { q with parent })).setProcess b (some { p with children })) := by
  have hpos := h.family.pid_pos _ p hb
  have hflags := h.family.flags a q ha
  obtain ⟨hsearch, htree⟩ := h.family.tree _ p hb hrunning
  have hnew : ∀ other ∈ p.children.root.toList, avlDefaultComparator a other ≠ 0 := by
    intro other hother heq
    obtain rfl := avlDefaultComparator_eq_zero.mp heq
    obtain ⟨d, hd, hd'⟩ := (htree _).mp hother
    cases ha.symm.trans hd
    omega
  obtain ⟨tree, before, after, hcall, hlist, hlist', hsearch'⟩ :=
    hsearch.insert ordersOn_avlDefaultComparator (Set.mem_univ a) hnew
  cases hinsert.symm.trans hcall
  refine h.regroup parent q.notified ha hb hne hflags.notified (hparent ▸ h.family.pid_lt _ p hb)
    hfirst hrunning hsearch' (fun d => ?_) (fun d r hr hd _ => ⟨?_, fun heq => ?_⟩)
    (fun other k hk hbusy heq => ?_) (fun other w hw heq => ?_) (fun other w hw hreaps => ?_)
  · rw [hlist', hlist]
    split <;> rename_i heq <;> simp [heq, hparent]
  · have hposr := h.family.pid_pos _ r hr
    omega
  · exact hd (h.family.unique _ _ r p hr hb (heq.trans hparent.symm))
  · obtain ⟨r, hr, _, hexits⟩ := h.killers.exiting h.family hk hbusy
    rw [heq, ha] at hr
    cases hr
    exact Bool.noConfusion (hexiting.symm.trans hexits)
  · cases hholds : w.phase.holds with
    | false => rfl
    | true =>
      have hlocked := (h.calls.sound other w hw).locked hholds
      rw [heq, hlock] at hlocked
      cases hlocked
  · obtain ⟨r, hr⟩ := (h.calls.sound other w hw).alive
    obtain ⟨d, hd, _, hnonzero, _⟩ := (h.calls.sound other w hw).reaps a r hreaps hr
    cases ha.symm.trans hd
    exact absurd hchild hnonzero

lemma enroll (hfree : s.process a = none) (haddress : a ≤ s.memorySize) : Sound (s.enroll 0 a) :=
  (h.prepare hfree).add hfree haddress rfl rfl rfl ⟨nofun, nofun, nofun, nofun, nofun⟩ (by
      change ((s.setSemaphore a _).semaphore a).waiting = []
      rw [setSemaphore_self])

lemma create (hallowed : (Event.create parent a).allowed s = true)
    (hcreate : s.create parent a = .ok s') : Sound s' := by
  simp only [Event.allowed, Bool.and_eq_true, decide_eq_true_eq,
    Option.isNone_iff_eq_none] at hallowed
  obtain ⟨⟨⟨haddress, hfree⟩, hlt⟩, hparent⟩ := hallowed
  rcases create_cases hcreate hfree hlt h.family with
    ⟨rfl, rfl⟩ | ⟨b, p, children, hzero, htable, hp, hpid, hne, hinsert, rfl⟩
  · exact h.enroll hfree haddress
  · rw [getProcessFromPid, htable] at hparent
    simp only [Bool.and_eq_true, Option.isNone_iff_eq_none] at hparent
    have hrunning : p.stopped = false := by simpa [runs, hp] using hparent.2
    exact (h.enroll hfree haddress).bear (setProcess_self ..)
      ((setProcess_of_ne _ _ hne.symm).trans hp) rfl (by change s.nextPid ≠ 1; omega) rfl hpid
      hrunning ((setLock_of_ne _ _ hne.symm).trans hparent.1) hne hinsert

lemma wait {pid : Int} {noHang : Bool}
    (hallowed : (Event.wait thread a pid noHang).allowed s = true) :
    Sound (s.setWait thread (some ⟨a, pid, noHang, 0, .acquiring⟩)) := by
  simp only [Event.allowed, Bool.and_eq_true, decide_eq_true_eq,
    Option.isNone_iff_eq_none, runs] at hallowed
  obtain ⟨⟨hle, hnone⟩, hruns⟩ := hallowed
  refine h.setIdle (h.calls.notMem_waiting fun w hw => ?_) hle ?_ rfl
  · rw [hnone] at hw
    cases hw
  · split at hruns
    · cases hruns
    · rename_i p hp
      exact ⟨p, hp⟩

/-- Every step that is allowed keeps the state sound. -/
lemma step {event : Event} (hallowed : event.allowed s = true)
    (hstep : event.step s = .ok s') : Sound s' := by
  cases event with
  | create parent a => exact h.create hallowed hstep
  | wait thread a pid noHang =>
    cases hstep
    exact h.wait hallowed
  | goOn thread =>
    dsimp only [Event.step] at hstep
    split at hstep
    · cases hstep
      exact h
    · rename_i w hw
      exact h.stepWait hw hallowed hstep
  | kill thread a retv => exact h.kill hallowed hstep
  | killer thread =>
    dsimp only [Event.step] at hstep
    split at hstep
    · cases hstep
      exact h
    · rename_i k hk
      exact h.stepKiller hk hallowed hstep

end

lemma start (memorySize threadCount : Nat) : Sound (State.start memorySize threadCount) := by
  refine ⟨⟨Nat.one_pos, ?_, ?_, ?_, ?_, ?_, ?_, ?_, ?_, ?_, ?_⟩, ⟨?_, ?_⟩, ⟨?_, ?_, ?_, ?_, ?_⟩⟩
  all_goals simp [State.start]

end Sound

/-- The last state of a run that is carried out has what a test finds. -/
lemma State.exists_of_after (guard : State → Event → Bool) (s : State)
    (events : List Event) (test : State → Bool)
    (h : (carryOut (fun s event => event.allowed s && guard s event)
      (fun s event => event.step s) s events).any test = true) :
    ∃ s', Run (State.Step guard) s events s' ∧ test s' = true := by
  refine exists_run_of_carryOut (fun s event s' hready hstep => ?_) s events test h
  rw [Bool.and_eq_true] at hready
  exact ⟨hready.1, hready.2, hstep⟩

end Merlon.Processes
