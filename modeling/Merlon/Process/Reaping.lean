/-
Child reaping.  A process has a unit for each of its zombies, in every order of
exits, adoptions and waits in which no child is reaped before its unit was
released and no process exits while it reaps.
-/
import Merlon.Process.Balance
import Merlon.Process.Histories

namespace Merlon.Processes

open State Process WaitPhase

open Adt List
open State (setProcess_of_ne setProcess_self runs units)

variable {p : Process} {child : Nat} {todo : List (TreeNode Nat)} {s₁ : State}
  {rest : List (TreeNode Nat)} {left right : TreeNode Nat}

/-- A terminated child is reaped after a unit was released for it, or while
there is a unit to spare, and a process exits while no thread of it is inside
`ReapProcess`. -/
def Event.spares (s : State) : Event → Bool
  | .goOn thread =>
    match s.wait thread with
    | none => true
    | some w =>
      match w.phase with
      | .scanning (.node _ child _ :: _) =>
        match s.process w.process, s.process child with
        | some p, some c =>
          !(c.terminated && decide (c.pid = w.pid ∨ w.pid = -1)) || c.notified ||
            decide ((s.zombies p.pid [] : Int) < s.units w.process)
        | _, _ => true
      | _ => true
  | .killer thread =>
    match s.killer thread with
    | none => true
    | some k =>
      match k.phase with
      | .start => (range (s.threadCount + 1)).all fun other =>
        match s.wait other with
        | none => true
        | some w => decide (w.process ≠ k.process) || w.phase.reaps.isNone
      | _ => true
  | _ => true

/-- Every process has the units for its zombies.  A call that scans for any
child has one more than there are zombies it has passed. -/
structure Balanced (s : State) : Prop where
  bounded : ∀ a p, s.process a = some p → (s.semaphore a).currentCount ≤ semBigNumber
  covered : ∀ a p, s.process a = some p → (s.zombies p.pid [] : Int) ≤ s.units a
  scanning : ∀ thread w p todo, s.wait thread = some w →
    w.phase = .scanning todo → w.pid = -1 → s.process w.process = some p → p.stopped = false →
    (s.zombies p.pid (elements todo) : Int) + 1 ≤ s.units w.process

/-- No call starts or goes on with a scan. -/
abbrev State.Scans (s s' : State) : Prop :=
  ∀ thread w todo, s'.wait thread = some w → w.phase = .scanning todo → s.wait thread = some w

/-- A step that loses no unit, adds nothing to the histories and does not go on
with a scan. -/
structure State.Quiet (s s' : State) : Prop where
  gains : s.Gains s'
  calm : s.Calm s'
  scans : ∀ thread w todo, s'.wait thread = some w →
    w.phase = .scanning todo → s.wait thread = some w

namespace State.Quiet

variable {s s' : State} {a thread : Nat}

lemma trans {s'' : State} (h : s.Quiet s') (h' : s'.Quiet s'') : s.Quiet s'' :=
  ⟨h.gains.trans h'.gains, h.calm.trans h'.calm, fun thread w todo hw hphase =>
    h.scans thread w todo (h'.scans thread w todo hw hphase) hphase⟩

/-- Only locks, the table or the killers change. -/
lemma keep (hmemory : s'.memorySize = s.memorySize) (hthreads : s'.threadCount = s.threadCount)
    (hprocess : s'.process = s.process) (hsemaphore : s'.semaphore = s.semaphore)
    (hwait : s'.wait = s.wait) (hnextPid : s'.nextPid = s.nextPid) (hreaped : s'.reaped = s.reaped)
    (hreturned : s'.returned = s.returned) (hexits : s'.exits = s.exits) : s.Quiet s' where
  gains := by
    refine .of_process_eq hmemory hprocess (fun b => hsemaphore ▸ id) fun b => ?_
    unfold units held
    rw [hsemaphore, hthreads, hwait]
  calm := .keep hprocess hwait hnextPid hreaped hreturned hexits
  scans := by
    rw [hwait]
    exact fun _ _ _ hw _ => hw

lemma setKiller (s : State) (thread : Nat) (k : Option Killer) : s.Quiet (s.setKiller thread k) :=
  keep rfl rfl rfl rfl rfl rfl rfl rfl rfl

lemma mark (p' : Process) (hp : s.process a = some p)
    (ha : a ≤ s.memorySize) (hpid : p'.pid = p.pid) (hreaping : p'.reaping = p.reaping)
    (hexiting : p.exiting = true → p'.exiting = true) (hstopped : p'.stopped = p.stopped)
    (hzombie : ∀ pid, p'.isZombie pid = true → p.isZombie pid = true) :
    s.Quiet (s.setProcess a (some p')) where
  gains := .mark p' hp ha hpid (fun hstop => hstopped ▸ hstop) hzombie
  calm := .mark p' hp hpid hreaping hexiting hstopped
  scans _ _ _ hw _ := hw

/-- The call of one thread goes on, and does not scan. -/
lemma scans_setWait {w : Option Wait} (hidle : ∀ v ∈ w, ∀ todo, v.phase ≠ .scanning todo) :
    s.Scans (s.setWait thread w) := by
  refine fun other v todo hv => forall_update
    (P := fun other v => v.phase = .scanning todo → s.wait other = some v)
    (fun _ _ hv _ _ => hv) ?_ other v hv
  exact fun v hv hphase => absurd hphase (hidle v hv todo)

lemma scans_release (hrelease : s.releaseSemaphore a = .ok s') : s.Scans s' := by
  rcases releaseSemaphore_cases hrelease with ⟨_, rfl⟩ | ⟨thread, rest, _, rfl⟩
  · exact fun _ _ _ hw _ => hw
  · refine scans_setWait fun w' hw' todo hphase => ?_
    obtain ⟨v, _, rfl⟩ := Option.map_eq_some_iff.mp hw'
    cases hphase

lemma releaseFailedReaps {count : Nat} (hrelease : releaseFailedReaps a count s = .ok s') :
    s.Frame s' ∧ s.Scans s' := by
  induction count generalizing s with
  | zero =>
    cases hrelease
    exact ⟨State.Frame.refl _, fun _ _ _ hw _ => hw⟩
  | succ count ih =>
    rw [releaseFailedReaps] at hrelease
    obtain ⟨s₁, hfirst, hrest⟩ := bind_eq_ok hrelease
    obtain ⟨hframe, hscans⟩ := ih hrest
    exact ⟨(releaseSemaphore_frame hfirst).trans hframe,
      fun thread w todo hw hphase => scans_release hfirst thread w todo
        (hscans thread w todo hw hphase) hphase⟩

end State.Quiet

namespace Balanced

variable {s s' : State} {a thread : Nat}

lemma gains (h : Balanced s) (hgains : s.Gains s') (hscans : s.Scans s') : Balanced s' where
  bounded b p' hp' := by
    obtain ⟨p, gain, hgain⟩ := hgains b p' hp'
    exact hgain.bounded (h.bounded b p hgain.before)
  covered b p' hp' := by
    obtain ⟨p, gain, hgain⟩ := hgains b p' hp'
    have hcovered := h.covered b p hgain.before
    have hzombies := hgain.zombies []
    rw [hgain.pid, hgain.units]
    omega
  scanning thread w p' todo hw hphase hany hp' hstopped := by
    obtain ⟨p, gain, hgain⟩ := hgains _ p' hp'
    have hscanning := h.scanning thread w p todo (hscans thread w todo hw hphase)
      hphase hany hgain.before (hgain.stopped hstopped)
    have hzombies := hgain.zombies (elements todo)
    rw [hgain.pid, hgain.units]
    omega

lemma start (memorySize threadCount : Nat) : Balanced (start memorySize threadCount) where
  bounded _ _ hp := by cases hp
  covered _ _ hp := by cases hp
  scanning _ _ _ _ hw := by cases hw

end Balanced

lemma Process.isZombie_eq_true {pid : Nat} : p.isZombie pid = true ↔ p.parent = pid ∧
    p.terminated = true ∧ p.notified = true ∧ p.reaping = false := by
  simp only [isZombie, Bool.and_eq_true, decide_eq_true_eq, Bool.not_eq_true', and_assoc]

namespace State.Quiet

variable {s s' : State} {a thread : Nat} {k : Killer}

/-- A process that terminates is no zombie before it is notified. -/
lemma terminate (hsound : Family s) (hp : s.process k.process = some p)
    (hlive : p.terminated = false) (h : s.terminate thread k = .ok s') : s.Quiet s' := by
  have hnotified : p.notified = false := by
    cases hnotified : p.notified with
    | false => rfl
    | true =>
      have hterminated := (hsound.flags _ p hp).notified hnotified
      exact Bool.noConfusion (hlive.symm.trans hterminated)
  have hmark := mark { p with terminated := true } hp (hsound.address _ p hp) rfl
    rfl id rfl fun pid hzombie => by
      obtain ⟨_, _, hnew, _⟩ := isZombie_eq_true.mp hzombie
      exact Bool.noConfusion (hnotified.symm.trans hnew)
  rcases terminate_cases hp h with ⟨_, _, _, rfl⟩ | ⟨_, rfl⟩
  · exact hmark.trans (setKiller ..)
  · exact hmark.trans (setKiller ..)

lemma continueAdoption {orphans : List Nat} (hsound : Family s)
    (hp : s.process k.process = some p) (hlive : p.terminated = false)
    (h : s.continueAdoption thread k orphans = .ok s') : s.Quiet s' := by
  unfold State.continueAdoption at h
  split at h
  · exact terminate hsound hp hlive h
  · cases h
    exact setKiller ..

/-- Only the parent may have one more zombie when a child changes. -/
lemma zombies_parent {q : Process} {b : Nat} (p' : Process) (hfamily : Family s)
    (hp : s.process b = some p) (hq : s.process a = some q) (hparent : p'.parent = q.pid) {d : Nat}
    {r : Process} (hr : s.process d = some r) (skip : List Nat) :
    (s.setProcess b (some p')).zombies r.pid skip ≤ s.zombies r.pid skip + if d = a then 1 else
    0 := by
  refine (State.Gains.zombies_le hp (hfamily.address _ p hp) _ skip).trans ?_
  refine Nat.add_le_add_left ?_ _
  split
  · rename_i hzombie
    obtain ⟨hpid, _⟩ := isZombie_eq_true.mp hzombie.1
    rw [if_pos (hfamily.unique d a r q hr hq (hpid.symm.trans hparent))]
  · exact Nat.zero_le _

lemma adoptOrphan {adopter orphan : Nat} {rest : List Nat}
    (hsound : Sound s) (hne : orphan ≠ adopter)
    (hcalls : ∀ p c children, s.process adopter = some p →
      s.process orphan = some c → (p.stopped = true → adopter = k.process ∧ rest = []) →
      treeInsert avlDefaultComparator p.children orphan = some children →
      Calls (s.adopted adopter orphan p c children))
    (h : s.adoptOrphan k adopter orphan rest = .ok s₁) : s.Quiet s₁ := by
  obtain ⟨p, c, children, hp, hc, _, hself, hinsert, hrelease⟩ := adoptOrphan_cases hne h
  have hcalls := hcalls p c children hp hc hself hinsert
  have hp' : (s.setProcess orphan (some { c with
      parent := p.pid
      notified := c.terminated })).process adopter = some p :=
    (setProcess_of_ne _ _ hne.symm).trans hp
  have hcalm := (State.Calm.mark { c with
      parent := p.pid
      notified := c.terminated } hc rfl rfl id rfl).trans
    (State.Calm.mark { p with children } hp' rfl rfl id rfl)
  refine ⟨.release hcalls ⟨_, setProcess_self ..⟩ rfl rfl ?_ hrelease,
    hcalm.trans (.release hcalls ⟨_, setProcess_self ..⟩ hrelease),
    fun thread w todo => scans_release hrelease thread w todo⟩
  intro d r' hr'
  obtain ⟨r, hr, hpid, _, _, hstopped⟩ := hcalm.process d r' hr'
  refine ⟨r, hr, hpid, fun hruns => hstopped ▸ hruns, fun skip => ?_⟩
  refine (State.Gains.zombies_le hp' (hsound.family.address _ p hp) _ skip).trans ?_
  rw [if_neg (by rintro ⟨hnew, hold⟩; exact Bool.noConfusion (hnew.symm.trans hold))]
  exact zombies_parent _ hsound.family hc hp rfl hr skip

lemma notify {parent : Nat} (hsound : Sound s) (h : s.notify k parent = .ok s₁) : s.Quiet s₁ := by
  obtain ⟨a, htable, hcases⟩ := notify_cases h
  obtain ⟨q, hq, hpid⟩ := hsound.family.table parent a htable
  rcases hcases with ⟨hrelease, _⟩ | ⟨p, hp, _, hparent, hrelease⟩
  · refine ⟨.release hsound.calls ⟨q, hq⟩ rfl rfl ?_ hrelease,
      .release hsound.calls ⟨q, hq⟩ hrelease, scans_release hrelease⟩
    exact fun b r hr => ⟨r, hr, rfl, id, fun _ => Nat.le_add_right ..⟩
  · have hflags := hsound.family.flags _ p hp
    have hmarked := hsound.mark { p with notified := p.terminated } hp rfl rfl
      id id { hflags with notified := id }
      (fun hrunning => ⟨hrunning, rfl⟩) fun _ _ _ _ _ => ⟨rfl, rfl, rfl⟩
    have halive : ∃ r, (s.setProcess k.process (some { p with
        notified := p.terminated })).process a = some r := by
      obtain ⟨r, hr, _⟩ := exists_setProcess (P := fun _ => True) hp id ⟨q, hq, trivial⟩
      exact ⟨r, hr⟩
    refine ⟨.release hmarked.calls halive rfl rfl ?_ hrelease,
      (State.Calm.mark { p with notified := p.terminated } hp rfl rfl id
        rfl).trans (.release hmarked.calls halive hrelease),
      fun thread w todo => scans_release hrelease thread w todo⟩
    refine forall_setProcess (fun d r hr _ => ⟨r, hr, rfl, id, ?_⟩) ⟨p, hp, rfl, id, ?_⟩
    · exact zombies_parent { p with notified := p.terminated } hsound.family hp hq
        (hparent.trans hpid.symm) hr
    · exact zombies_parent { p with notified := p.terminated } hsound.family hp hq
        (hparent.trans hpid.symm) hp

end State.Quiet

lemma State.zombies_skip {s : State} {pid : Nat} {skip skip' : List Nat}
    (hskip : ∀ child c, s.process child = some c → c.isZombie pid = true →
      child ∉ skip' → child ∉ skip) : s.zombies pid skip' ≤ s.zombies pid skip := by
  refine tally_le fun child _ => ?_
  cases hc : s.process child with
  | none => exact Nat.le_refl _
  | some c =>
    dsimp only [weigh]
    split
    · rename_i hzombie
      rw [if_pos ⟨hzombie.1, hskip child c hc hzombie.1 hzombie.2⟩]
    · exact Nat.zero_le _

lemma State.zombies_eq_zero {s : State} {pid : Nat} {skip : List Nat}
    (hskip : ∀ child c, s.process child = some c → c.isZombie pid = true → child ∈ skip) :
    s.zombies pid skip = 0 := by
  refine (tally_congr fun child _ => ?_).trans (tally_zero s.memorySize)
  cases hc : s.process child with
  | none => rfl
  | some c => exact if_neg fun hzombie => hzombie.2 (hskip child c hc hzombie.1)

/-- The units of a process after one of its calls went on. -/
lemma State.units_setWait {s : State} {thread : Nat} {w : Wait}
    (hle : thread ≤ s.threadCount) (hw : s.wait thread = some w) (w' : Wait)
    (hprocess : w'.process = w.process) (b : Nat) :
    (s.setWait thread (some w')).units b =
      s.units b + if b = w.process then (w'.units : Int) - w.units else 0 := by
  have hheld := held_setWait hle (some w') b
  rw [hw] at hheld
  simp only [weigh, hprocess] at hheld
  unfold units
  change _ - (s.semaphore b).currentCount + _ = _
  by_cases hb : b = w.process
  · subst hb
    simp only [if_true] at hheld ⊢
    omega
  · rw [if_neg (Ne.symm hb), if_neg (Ne.symm hb)] at hheld
    omega

namespace Balanced

variable {s s' : State} {a thread : Nat} {w : Wait}

/-- Only the call of the thread holds the lock of its process. -/
def Lone (s : State) (thread : Nat) (w : Wait) : Prop :=
  ∀ other w' todo, s.wait other = some w' → w'.phase = .scanning todo →
    w'.process = w.process → other = thread

lemma lone (h : Sound s) (hlock : s.lock w.process = some thread) : Lone s thread w := by
  intro other w' todo hw' hphase heq
  have hlocked := (h.calls.sound other w' hw').locked (by rw [hphase]; rfl)
  rw [heq, hlock] at hlocked
  exact (Option.some.inj hlocked).symm

section

variable (h : Balanced s) (hle : thread ≤ s.threadCount) (hw : s.wait thread = some w)

include h hle hw

/-- A call goes on that holds as many units as before and does not scan. -/
lemma setWait {w' : Wait} (hprocess : w'.process = w.process) (hunits : w'.units = w.units)
    (hidle : ∀ todo, w'.phase ≠ .scanning todo) : Balanced (s.setWait thread (some w')) := by
  refine h.gains (.of_process_eq rfl rfl (fun _ => id) fun b => ?_) ?_
  · rw [units_setWait hle hw w' hprocess]
    split <;> omega
  · exact State.Quiet.scans_setWait (by simpa using hidle)

/-- A call gives up units that no zombie of its process needs. -/
lemma spend (hlone : Lone s thread w) (w' : Wait) (hprocess : w'.process = w.process)
    (hp : s.process w.process = some p) (hidle : ∀ todo, w'.phase ≠ .scanning todo)
    (hcovered : (s.zombies p.pid [] : Int) ≤ s.units w.process + ((w'.units : Int) - w.units)) :
    Balanced (s.setWait thread (some w')) where
  bounded := h.bounded
  covered b q hq := by
    rw [units_setWait hle hw w' hprocess]
    by_cases hb : b = w.process
    · subst hb
      cases hp.symm.trans hq
      rw [if_pos rfl]
      exact hcovered
    · rw [if_neg hb, Int.add_zero]
      exact h.covered b q hq
  scanning other v q todo hv hphase hany hq hstopped := by
    by_cases hother : other = thread
    · subst hother
      rw [setWait_self] at hv
      cases hv
      exact absurd hphase (hidle todo)
    · rw [setWait_of_ne _ _ hother] at hv
      have hne : v.process ≠ w.process := fun heq => hother (hlone other v todo hv hphase heq)
      rw [units_setWait hle hw w' hprocess, if_neg hne, Int.add_zero]
      exact h.scanning other v q todo hv hphase hany hq hstopped

/-- The scan goes on, or the call drops or keeps the unit of a scan that
failed. -/
lemma continueScan (hlone : Lone s thread w) (hunits : w.units = w.failedReaps + 1)
    (hp : s.process w.process = some p)
    (hpending : w.pid = -1 → (s.zombies p.pid (elements todo) : Int) + 1 ≤ s.units w.process) :
    Balanced (s.continueScan thread w todo) := by
  have hdrop := elements_dropNil todo
  unfold State.continueScan
  split <;> rename_i hnil
  · rw [hnil] at hdrop
    refine Balanced.spend (s := s.setLock w.process none)
      (h.gains (.of_process_eq rfl rfl (fun _ => id) fun _ => rfl) fun _ _ _ hw _ => hw) hle hw
      hlone _ rfl hp nofun ?_
    have hcovered := h.covered _ p hp
    rw [hunits]
    dsimp only [Wait.units]
    split <;> rename_i hany
    · have hdropped := hpending hany
      rw [← hdrop] at hdropped
      change (s.zombies p.pid [] : Int) ≤ s.units w.process + _
      change (s.zombies p.pid [] : Int) + 1 ≤ _ at hdropped
      omega
    · change (s.zombies p.pid [] : Int) ≤ s.units w.process + _
      omega
  · have hsame : ∀ b, (s.setWait thread (some { w with
        phase := .scanning (State.dropNil todo) })).units b = s.units b := by
      intro b
      rw [State.units_setWait hle hw { w with phase := .scanning (State.dropNil todo) } rfl, hunits]
      dsimp only [Wait.units]
      split <;> push_cast <;> omega
    refine ⟨h.bounded, fun b q hq => ?_, ?_⟩
    · rw [hsame]
      exact h.covered b q hq
    · intro other v q todo' hv hphase hany hq hstopped
      rw [hsame]
      by_cases hother : other = thread
      · subst hother
        rw [State.setWait_self] at hv
        cases hv
        cases hphase
        cases hp.symm.trans hq
        rw [hdrop]
        exact hpending hany
      · rw [State.setWait_of_ne _ _ hother] at hv
        exact h.scanning other v q todo' hv hphase hany hq hstopped

/-- The unit of the scan pays for the child that is reaped. -/
lemma reap {c : Process} (hfamily : Family s) (hlone : Lone s thread w)
    (hunits : w.units = w.failedReaps + 1) (hp : s.process w.process = some p)
    (hrunning : p.stopped = false) (hc : s.process child = some c) (hparent : c.parent = p.pid)
    (hterminated : c.terminated = true) (hnew : c.reaping = false)
    (hspares : c.notified = true ∨ (s.zombies p.pid [] : Int) < s.units w.process)
    (reaped : List Reap) : Balanced ({ s.setProcess child (some { c with reaping := true }) with
      reaped := reaped }.setWait thread (some { w with phase := .removing child })) := by
  have hne : w.process ≠ child := by
    rintro rfl
    cases hp.symm.trans hc
    have hstopped := (hfamily.flags _ p hp).terminated hterminated
    exact Bool.noConfusion (hrunning.symm.trans hstopped)
  have hdead : ∀ pid, ({ c with reaping := true } : Process).isZombie pid = false := by
    intro pid
    simp [isZombie]
  have hmarked : Balanced { s.setProcess child (some { c with
      reaping := true }) with reaped := reaped } := by
    have hmark := State.Gains.mark { c with reaping := true } hc
      (hfamily.address child c hc) rfl id fun pid hzombie =>
        Bool.noConfusion ((hdead pid).symm.trans hzombie)
    exact h.gains (hmark.trans (.of_process_eq rfl rfl (fun _ => id) fun _ => rfl))
      fun _ _ _ hw _ => hw
  refine hmarked.spend hle hw hlone { w with phase := .removing child } rfl
    ((setProcess_of_ne _ _ hne).trans hp) nofun ?_
  have hzombies := zombies_setProcess (hfamily.address child c hc)
    (some { c with reaping := true }) p.pid []
  rw [hc] at hzombies
  simp only [weigh, hdead, not_mem_nil, not_false_eq_true, and_true,
    Bool.false_eq_true, if_false] at hzombies
  have hcovered := h.covered _ p hp
  rw [hunits]
  dsimp only [Wait.units]
  change ((s.setProcess child (some { c with reaping := true })).zombies
    p.pid [] : Int) ≤ s.units w.process + _
  rcases hspares with hnotified | hspare
  · rw [if_pos (isZombie_eq_true.mpr ⟨hparent, hterminated, hnotified, hnew⟩)] at hzombies
    push_cast
    omega
  · split at hzombies <;> push_cast <;> omega

lemma endWait {result : Nat} (hcalls : Calls (s.setWait thread none))
    (hunits : w.units = w.failedReaps) (halive : ∃ p, s.process w.process = some p)
    (hend : s.endWait thread w result = .ok s') : Balanced s' := by
  have hsame := units_endWait hcalls hle hw hunits halive hend
  obtain ⟨s₁, hrelease, hlog⟩ := bind_eq_ok hend
  cases hlog
  obtain ⟨hframe, hscans⟩ := State.Quiet.releaseFailedReaps hrelease
  refine h.gains (.of_process_eq hframe.memorySize hframe.process
    (fun b hbounded => ?_) hsame) fun other v todo hv hphase => ?_
  · exact Int.le_trans (currentCount_releaseFailedReaps hrelease b) hbounded
  · exact State.Quiet.scans_setWait (by simp) other v todo (hscans other v todo hv hphase) hphase

/-- A unit that was free is held by the call. -/
lemma take (hunits : w.units = w.failedReaps)
    (hfree : (s.semaphore w.process).currentCount < semBigNumber) :
    Balanced ((s.setSemaphore w.process { s.semaphore w.process with
      currentCount := (s.semaphore w.process).currentCount + 1 }).setWait thread
        (some { w with phase := .taken })) := by
  refine h.gains (.of_process_eq rfl rfl (fun b hbounded => ?_) fun b => ?_)
    (State.Quiet.scans_setWait (by simp))
  · change ((s.setSemaphore w.process _).semaphore b).currentCount ≤ _
    by_cases hb : b = w.process
    · subst hb
      rw [setSemaphore_self]
      exact hfree
    · rw [setSemaphore_of_ne _ _ hb]
      exact hbounded
  · rw [units_setWait (s := s.setSemaphore w.process _) hle hw
      { w with phase := .taken } rfl, hunits]
    unfold units
    change _ - ((s.setSemaphore w.process _).semaphore b).currentCount + (s.held b : Int) + _ = _
    by_cases hb : b = w.process
    · subst hb
      rw [setSemaphore_self]
      dsimp only [Wait.units]
      push_cast
      omega
    · rw [setSemaphore_of_ne _ _ hb]
      omega

lemma enqueue (hunits : w.units = w.failedReaps) (waiting : List Nat) :
    Balanced ((s.setSemaphore w.process { s.semaphore w.process with
      waiting := waiting }).setWait thread (some { w with phase := .waiting })) := by
  have hcount : ∀ b, ((s.setSemaphore w.process { s.semaphore w.process with
      waiting := waiting }).semaphore b).currentCount =
      (s.semaphore b).currentCount := by
    intro b
    by_cases hb : b = w.process
    · subst hb
      rw [setSemaphore_self]
    · rw [setSemaphore_of_ne _ _ hb]
  have hqueued : Balanced (s.setSemaphore w.process { s.semaphore w.process with
      waiting := waiting }) := by
    refine h.gains (.of_process_eq rfl rfl
      (fun b hbounded => (hcount b).trans_le hbounded) fun b => ?_) fun _ _ _ hw _ => hw
    unfold units
    rw [hcount]
    rfl
  exact hqueued.setWait hle hw rfl hunits.symm fun _ hphase => by cases hphase

end

end Balanced

/-- What a step keeps of the accounts. -/
abbrev Kept (s : State) : Prop :=
  Balanced s ∧ Histories s

/-- What is known of every state that is reached. -/
structure Accounted (s : State) : Prop where
  sound : Sound s
  balanced : Balanced s
  histories : Histories s

namespace Accounted

variable {s s' : State} {a thread : Nat} {w : Wait}

/-- A call that reaps nobody returns nothing. -/
lemma endWait (h : Accounted s) (hw : s.wait thread = some w) (hphase : w.phase = .acquiring)
    (hend : s.endWait thread w 0 = .ok s') : Kept s' := by
  have hsound := h.sound.calls.sound thread w hw
  have hdropped := h.sound.dropWait (h.sound.out hw (by rw [hphase]; nofun))
  refine ⟨h.balanced.endWait hsound.thread_le hw hdropped.calls
    (by rw [Wait.units, hphase]) hsound.alive hend, ?_⟩
  obtain ⟨s₁, hrelease, hlog⟩ := bind_eq_ok hend
  cases hlog
  have hcalm : s.Calm (s.setWait thread none) :=
    .setWait (by simp [hw, hphase, reaps]) (by simp)
  exact (h.histories.calm (hcalm.trans (.releaseFailedReaps hdropped.calls
    hsound.alive hrelease))).logReturned _ fun _ => .inr rfl

lemma acquire (h : Accounted s) (hw : s.wait thread = some w)
    (hphase : w.phase = .acquiring) (hacquire : s.acquire thread w = .ok s') : Kept s' := by
  have hle := (h.sound.calls.sound thread w hw).thread_le
  have hunits : w.units = w.failedReaps := by rw [Wait.units, hphase]
  have hcalm : ∀ sem v, v.phase.reaps = none →
      s.Calm ((s.setSemaphore w.process sem).setWait thread (some v)) := by
    intro sem v hv
    have hfirst : s.Calm (s.setSemaphore w.process sem) := .keep rfl rfl rfl rfl rfl rfl
    exact hfirst.trans (.setWait
      (by simp [State.setSemaphore, hw, hphase, reaps]) (by simpa))
  unfold State.acquire at hacquire
  dsimp only at hacquire
  split at hacquire
  · rename_i hfree
    cases hacquire
    exact ⟨h.balanced.take hle hw hunits hfree, h.histories.calm (hcalm _ _ rfl)⟩
  · split at hacquire
    · exact h.endWait hw hphase hacquire
    · cases hacquire
      exact ⟨h.balanced.enqueue hle hw hunits _, h.histories.calm (hcalm _ _ rfl)⟩

lemma calm_continueScan (hw : s.wait thread = some w) (hidle : w.phase.reaps = none) :
    s.Calm (s.continueScan thread w todo) := by
  unfold continueScan
  split
  · have hfirst : s.Calm (s.setLock w.process none) := .keep rfl rfl rfl rfl rfl rfl
    exact hfirst.trans (.setWait (by simpa [setLock, hw]) (by simp [reaps]))
  · exact .setWait (by simpa [hw]) (by simp [reaps])

section

variable (h : Accounted s)

include h

section

variable (hw : s.wait thread = some w)

include hw

lemma lockProcess (hphase : w.phase = .taken) (hfree : s.lock w.process = none)
    (hruns : s.runs w.process = true) (hlock : s.lockProcess thread w = .ok s') : Kept s' := by
  obtain ⟨p, hfind, hscan⟩ := bind_eq_ok hlock
  cases hscan
  have hp := find_eq_ok hfind
  have hle := (h.sound.calls.sound thread w hw).thread_le
  have hrunning := stopped_of_runs hp hruns
  have hunits : w.units = w.failedReaps + 1 := by rw [Wait.units, hphase]
  have hlocked : s.Quiet (s.setLock w.process (some thread)) :=
    .keep rfl rfl rfl rfl rfl rfl rfl rfl rfl
  refine ⟨(h.balanced.gains hlocked.gains hlocked.scans).continueScan
    hle hw (fun other w' todo hw' hscan heq => ?_) hunits hp fun _ => ?_,
    h.histories.calm (hlocked.calm.trans (calm_continueScan hw ?_))⟩
  · have hheld := (h.sound.calls.sound other w' hw').locked (by rw [hscan]; rfl)
    rw [heq, hfree] at hheld
    cases hheld
  · have hnone : (s.setLock w.process (some thread)).zombies p.pid
        (elements [p.children.root]) = 0 := by
      refine zombies_eq_zero fun child c hc hzombie => ?_
      obtain ⟨hparent, _⟩ := isZombie_eq_true.mp hzombie
      have hmem := ((h.sound.family.tree _ p hp hrunning).mem child).mpr ⟨c, hc, hparent⟩
      simpa [elements] using hmem
    have hheld : w.units ≤ s.held w.process := by
      have hmine : weigh (fun v : Wait => if v.process = w.process then v.units
          else 0) (s.wait thread) = w.units := by
        rw [hw]
        exact if_pos rfl
      rw [← hmine]
      exact le_tally (fun thread => weigh
        (fun v : Wait => if v.process = w.process then v.units else 0) (s.wait thread)) hle
    have hbounded := h.balanced.bounded _ p hp
    change _ ≤ s.units w.process
    unfold units
    omega
  · rw [hphase]
    rfl

lemma visit (hphase : w.phase = .scanning (.node left child right :: rest))
    (hruns : s.runs w.process = true) (hspares : (Event.goOn thread).spares s = true)
    (hvisit : s.visit thread w left child right rest = .ok s') : Kept s' := by
  have hsound := h.sound.calls.sound thread w hw
  have hlock := hsound.locked (by rw [hphase]; rfl)
  have hunits : w.units = w.failedReaps + 1 := by rw [Wait.units, hphase]
  have hlone := Balanced.lone h.sound hlock
  have hidle : w.phase.reaps = none := by rw [hphase]; rfl
  obtain ⟨p, c, hp, hc, hreap | ⟨hskip, rfl⟩⟩ := Sound.visit_cases hvisit
  · obtain ⟨hterminated, hmatch, hnew, _, rfl⟩ := hreap
    have hrunning := stopped_of_runs hp hruns
    have hparent := h.sound.parent_eq hw hphase hp hrunning (by simp [elements]) hc
    have hpays : c.notified = true ∨ (s.zombies p.pid [] : Int) < s.units w.process := by
      simpa [Event.spares, hw, hphase, hp, hc, hterminated, hmatch] using hspares
    exact ⟨h.balanced.reap hsound.thread_le hw h.sound.family hlone hunits hp
      hrunning hc hparent hterminated hnew hpays _,
      h.histories.reap h.sound.family hw hidle hp hrunning hc hparent hterminated hnew⟩
  · refine ⟨h.balanced.continueScan hsound.thread_le hw hlone hunits hp
      fun hany => ?_, h.histories.calm (calm_continueScan hw hidle)⟩
    have hrunning := stopped_of_runs hp hruns
    have hscanning := h.balanced.scanning thread w p _ hw hphase hany hp hrunning
    have hpassed : s.zombies p.pid (elements (left :: right :: rest)) ≤
        s.zombies p.pid (elements (.node left child right :: rest)) := by
      refine zombies_skip fun d c' hc' hzombie hout hin => hout ?_
      have hne : d ≠ child := by
        rintro rfl
        cases hc.symm.trans hc'
        obtain ⟨_, hterminated, _⟩ := isZombie_eq_true.mp hzombie
        exact hskip ⟨hterminated, .inr hany⟩
      simp only [elements, flatMap_cons, TreeNode.toList, mem_append, mem_cons] at hin ⊢
      tauto
    omega

lemma unlistChild (hphase : w.phase = .removing child)
    (hstep : s.stepWait thread w = .ok s') : Kept s' := by
  have hle := (h.sound.calls.sound thread w hw).thread_le
  unfold stepWait at hstep
  rw [hphase] at hstep
  obtain ⟨c, _, hstep⟩ := bind_eq_ok hstep
  obtain ⟨s₁, hremove, hstep⟩ := bind_eq_ok hstep
  cases hstep
  obtain rfl := removeFromProcessTable_eq_ok hremove
  have hunlisted : s.Quiet (s.setTable c.pid none) := .keep rfl rfl rfl rfl rfl rfl rfl rfl rfl
  refine ⟨(h.balanced.gains hunlisted.gains hunlisted.scans).setWait hle hw rfl ?_
    nofun, (h.histories.calm hunlisted.calm).advance hw (by rw [hphase]; rfl)⟩
  rw [Wait.units, Wait.units, hphase]

lemma detach (hphase : w.phase = .detaching child) (hruns : s.runs w.process = true)
    (hdetach : s.detach thread w child = .ok s') : Kept s' := by
  obtain ⟨p, c, children, hp, hc, hterminated, hne, hmatch, hdetached, hend⟩ :=
    h.sound.detached hw hphase hruns hdetach
  have hle := (h.sound.calls.sound thread w hw).thread_le
  have haddress := h.sound.family.address
  have hmark : s.Quiet (s.setProcess w.process (some { p with children })) :=
    .mark { p with children } hp (haddress _ p hp) rfl rfl id rfl fun _ => id
  have hc' : (s.setProcess w.process (some { p with children })).process child =
      some c := (setProcess_of_ne _ _ hne).trans hc
  have halive : ∃ q, (((s.setProcess w.process (some { p with
      children })).freeProcess child).setLock w.process none).process w.process =
      some q :=
    ⟨_, (setProcess_of_ne _ _ hne.symm).trans (setProcess_self ..)⟩
  constructor
  · have hfree : (s.setProcess w.process (some { p with children })).Gains
        (((s.setProcess w.process (some { p with children })).freeProcess
          child).setLock w.process none) :=
      (State.Gains.free (s := s.setProcess w.process _) (haddress child c hc)).trans
        (.of_process_eq rfl rfl (fun _ => id) fun _ => rfl)
    have hkept : (((s.setProcess w.process (some { p with
        children })).freeProcess child).setLock w.process none).wait thread =
        some w := by
      simpa [setLock, freeProcess, setProcess, hw] using hne.symm
    refine (h.balanced.gains (hmark.gains.trans hfree) fun other v todo hv _ => ?_).endWait hle
      hkept hdetached.calls (by rw [Wait.units, hphase]) halive hend
    exact (Option.filter_eq_some_iff.mp hv).1
  · obtain ⟨s₁, hrelease, hlog⟩ := bind_eq_ok hend
    cases hlog
    have hstopped := (h.sound.family.flags child c hc).terminated hterminated
    have hfinished := (h.histories.calm hmark.calm).finish (b := w.process) hw
      (by rw [hphase]; rfl) hc' hstopped
    refine (hfinished.calm (.releaseFailedReaps hdetached.calls halive
      hrelease)).logReturned _ fun hany => .inl ?_
    exact hmatch.resolve_right hany

lemma stepWait (hallowed : (Event.goOn thread).allowed s = true)
    (hspares : (Event.goOn thread).spares s = true)
    (hstep : s.stepWait thread w = .ok s') : Kept s' := by
  have hsound := h.sound.calls.sound thread w hw
  simp only [Event.allowed, hw, Bool.and_eq_true] at hallowed
  obtain ⟨hruns, hfree⟩ := hallowed
  unfold State.stepWait at hstep
  split at hstep <;> rename_i hphase
  · exact h.acquire hw hphase hstep
  · cases hstep
    exact ⟨h.balanced, h.histories⟩
  · rw [hphase] at hfree
    exact h.lockProcess hw hphase (Option.isNone_iff_eq_none.mp hfree) hruns hstep
  · exact h.visit hw hphase hruns hspares hstep
  · cases hstep
    obtain ⟨p, hp⟩ := hsound.alive
    have hrunning := State.stopped_of_runs hp hruns
    exact ⟨h.balanced.continueScan hsound.thread_le hw
      (Balanced.lone h.sound (hsound.locked (by rw [hphase]; rfl))) (by rw [Wait.units, hphase]) hp
      fun hany => h.balanced.scanning thread w p _ hw hphase hany hp hrunning,
      h.histories.calm (calm_continueScan hw (by rw [hphase]; rfl))⟩
  · refine h.unlistChild hw hphase ?_
    unfold State.stepWait
    rw [hphase]
    exact hstep
  · exact h.detach hw hphase hruns hstep

end

lemma quiet (hquiet : s.Quiet s') : Kept s' :=
  ⟨h.balanced.gains hquiet.gains hquiet.scans, h.histories.calm hquiet.calm⟩

/-- A process is stopped, and goes on to its orphans or terminates. -/
lemma stop {k : Killer} {orphans : List Nat}
    (hk : s.killer thread = some k) (hphase : k.phase = .start) (hp : s.process k.process = some p)
    (hspares : (Event.killer thread).spares s = true)
    (hstep : (s.setProcess k.process
      (some { p with stopped := true })).continueAdoption thread k orphans = .ok s') : Kept s' := by
  obtain ⟨_, _, hlive, hhalted⟩ := h.sound.halt hk hphase hp
  have hcalls : ∀ other w, s.wait other = some w → w.process = k.process →
      w.phase.reaps = none := by
    intro other w hw heq
    have hle := (h.sound.calls.sound other w hw).thread_le
    simp only [Event.spares, hk, hphase, all_eq_true, mem_range] at hspares
    have hspare := hspares other (Nat.lt_succ_of_le hle)
    simpa [hw, heq] using hspare
  have hquiet := State.Quiet.continueAdoption
    (s := s.setProcess k.process (some { p with stopped := true }))
    (hhalted.family.keep rfl rfl rfl rfl (List.Subset.refl _)) (setProcess_self ..) hlive hstep
  have hstopped := h.histories.stop hp hcalls
  have hmarked := h.balanced.gains (.mark { p with stopped := true } hp
    (h.sound.family.address _ p hp) rfl nofun fun _ => id) fun _ _ _ hw _ => hw
  exact ⟨hmarked.gains hquiet.gains hquiet.scans, hstopped.calm hquiet.calm⟩

lemma adopting {k : Killer} {adopter orphan : Nat} {rest : List Nat} (hk : s.killer thread = some k)
    (hphase : k.phase = .adopting adopter (orphan :: rest)) (hlock : s.lock adopter = none)
    (hadopt : s.adoptOrphan k adopter orphan rest = .ok s₁)
    (hcontinue : s₁.continueAdoption thread k rest = .ok s') : Kept s' := by
  obtain ⟨hadopted, _, ⟨q, hq, _, _, hlive⟩, _⟩ := h.sound.adopting hk hphase hlock hadopt
  have hsound := h.sound.acts hk hphase
  have hne : orphan ≠ adopter := by
    rintro rfl
    exact hsound.2 mem_cons_self
  have hfirst : s.Quiet s₁ := .adoptOrphan h.sound hne (fun p c children hp hc hself hinsert =>
      (h.sound.adopted hk hphase hlock hp hc hself hinsert).1.calls.keep rfl rfl
        rfl rfl rfl fun _ hpid => hpid) hadopt
  exact h.quiet (hfirst.trans (.continueAdoption
    (hadopted.family.keep rfl rfl rfl rfl (List.Subset.refl _)) hq hlive hcontinue))

/-- A process without a parent is reaped by its killer. -/
lemma remove {k : Killer} (hk : s.killer thread = some k)
    (hphase : k.phase = .removing) (hp : s.process k.process = some p) :
    Kept (((s.setTable p.pid none).freeProcess k.process).setKiller thread none) := by
  obtain ⟨q, hq, _, _, hterminated⟩ := h.sound.acts hk hphase
  cases hp.symm.trans hq
  have hstopped := (h.sound.family.flags _ p hp).terminated hterminated
  have hunlisted : s.Quiet (s.setTable p.pid none) := .keep rfl rfl rfl rfl rfl rfl rfl rfl rfl
  have hfreed : (s.setTable p.pid none).Quiet ((s.setTable p.pid none).freeProcess k.process) := by
    refine ⟨.free (h.sound.family.address _ p hp), .free ?_, ?_⟩
    · intro other w hw heq
      cases hreaps : w.phase.reaps with
      | none => rfl
      | some child =>
        have hrunning := h.histories.attended other w child p hw hreaps (heq ▸ hp)
        exact Bool.noConfusion (hrunning.symm.trans hstopped)
    · exact fun other w todo hw _ => (Option.filter_eq_some_iff.mp hw).1
  exact h.quiet (hunlisted.trans (hfreed.trans (.setKiller ..)))

lemma stepKiller {k : Killer} (hk : s.killer thread = some k)
    (hallowed : (Event.killer thread).allowed s = true)
    (hspares : (Event.killer thread).spares s = true)
    (hstep : s.stepKiller thread k = .ok s') : Kept s' := by
  simp only [Event.allowed, hk] at hallowed
  unfold State.stepKiller at hstep
  split at hstep <;> rename_i hphase
  · obtain ⟨p, hfind, hstep⟩ := bind_eq_ok hstep
    exact h.stop hk hphase (State.find_eq_ok hfind) hspares hstep
  · split at hstep <;> cases hstep
    exact h.quiet (.setKiller ..)
  · rw [hphase] at hallowed
    obtain ⟨s₁, hadopt, hcontinue⟩ := bind_eq_ok hstep
    exact h.adopting hk hphase (Option.isNone_iff_eq_none.mp hallowed) hadopt hcontinue
  · have hsound := h.sound.acts hk hphase
    obtain ⟨p, hp, _, _, hlive⟩ := hsound.1.stopped
    exact h.quiet (.continueAdoption (k := k) h.sound.family hp hlive hstep)
  · obtain ⟨s₁, hnotify, hstep⟩ := bind_eq_ok hstep
    cases hstep
    exact h.quiet ((State.Quiet.notify h.sound hnotify).trans (.setKiller ..))
  · obtain ⟨p, hfind, hstep⟩ := bind_eq_ok hstep
    obtain ⟨s₁, hremove, hstep⟩ := bind_eq_ok hstep
    cases hstep
    obtain rfl := State.removeFromProcessTable_eq_ok hremove
    exact h.remove hk hphase (State.find_eq_ok hfind)

/-- A new process has a full semaphore and no children. -/
lemma enroll (hfree : s.process a = none) (haddress : a ≤ s.memorySize) :
    Balanced (s.enroll 0 a) := by
  have hne : ∀ b q, s.process b = some q → b ≠ a := by
    rintro b q hq rfl
    simp [hfree] at hq
  have hunits : ∀ b, b ≠ a → (s.enroll 0 a).units b = s.units b := by
    intro b hb
    have hsame : (s.enroll 0 a).semaphore b = s.semaphore b := State.setSemaphore_of_ne _ _ hb
    unfold units
    rw [hsame]
    rfl
  have hzombies : ∀ pid skip, (s.enroll 0 a).zombies pid skip = s.zombies pid skip := by
    intro pid skip
    have hchange := State.zombies_setProcess haddress ((s.enroll 0 a).process a) pid skip
    rw [hfree, State.enroll] at hchange
    simp only [State.setTable, setProcess_self, weigh, Process.isZombie, Bool.and_false] at hchange
    exact hchange
  refine ⟨?_, ?_, ?_⟩
  · refine State.forall_setProcess (fun b q hq hb => ?_) ?_
    · have hbounded := h.balanced.bounded b q hq
      rwa [← State.setSemaphore_of_ne s ⟨semBigNumber, []⟩ hb] at hbounded
    · change ((s.setSemaphore a _).semaphore a).currentCount ≤ _
      rw [State.setSemaphore_self]
  · refine State.forall_setProcess (fun b q hq hb => ?_) ?_
    · rw [hzombies, hunits b hb]
      exact h.balanced.covered b q hq
    · have hnone : s.zombies s.nextPid [] = 0 := by
        refine State.zombies_eq_zero fun child c hc hzombie => ?_
        obtain ⟨hparent, _⟩ := Process.isZombie_eq_true.mp hzombie
        exact absurd (h.sound.family.parent_lt child c hc) (by omega)
      have hfull : ((s.enroll 0 a).semaphore a).currentCount = semBigNumber := by
        change ((s.setSemaphore a _).semaphore a).currentCount = _
        rw [State.setSemaphore_self]
      rw [hzombies, hnone]
      unfold units
      omega
  · intro thread w p todo hw hphase hany hp hstopped
    obtain ⟨q, hq⟩ := (h.sound.calls.sound thread w hw).alive
    have hb := hne _ q hq
    rw [hzombies, hunits _ hb]
    exact h.balanced.scanning thread w p todo hw hphase hany
      ((setProcess_of_ne _ _ hb).symm.trans hp) hstopped

lemma create {parent : Nat} (hallowed : (Event.create parent a).allowed s = true)
    (hcreate : s.create parent a = .ok s') : Kept s' := by
  simp only [Event.allowed, Bool.and_eq_true, decide_eq_true_eq,
    Option.isNone_iff_eq_none] at hallowed
  obtain ⟨⟨⟨haddress, hfree⟩, hlt⟩, _⟩ := hallowed
  have henrolled := h.enroll hfree haddress
  have hlogged := h.histories.enroll hfree 0 h.sound
  rcases create_cases hcreate hfree hlt h.sound.family with
    ⟨_, rfl⟩ | ⟨b, p, children, _, _, hp, _, hne, _, rfl⟩
  · exact ⟨henrolled, hlogged⟩
  · have hself : (s.enroll 0 a).process a = some
        ⟨s.nextPid, 0, treeCreate, 0, false, false, false, false, false⟩ :=
      setProcess_self ..
    have hb : (s.enroll 0 a).process b = some p := (setProcess_of_ne _ _ hne.symm).trans hp
    have hparent := State.Quiet.mark ⟨s.nextPid, parent, treeCreate, 0, false, false, false, false,
      false⟩ hself haddress rfl rfl id rfl fun pid hzombie => by
        simp [isZombie] at hzombie
    have hb' : ((s.enroll 0 a).setProcess a (some
        ⟨s.nextPid, parent, treeCreate, 0, false, false, false, false,
          false⟩)).process b = some p :=
      (setProcess_of_ne _ _ hne.symm).trans hb
    have hchild := State.Quiet.mark { p with children } hb'
      (h.sound.family.address b p hp) rfl rfl id rfl fun _ => id
    have hquiet := hparent.trans hchild
    exact ⟨henrolled.gains hquiet.gains hquiet.scans, hlogged.calm hquiet.calm⟩

lemma wait {pid : Int} {noHang : Bool}
    (hallowed : (Event.wait thread a pid noHang).allowed s = true) :
    Kept (s.setWait thread (some ⟨a, pid, noHang, 0, .acquiring⟩)) := by
  simp only [Event.allowed, Bool.and_eq_true, decide_eq_true_eq,
    Option.isNone_iff_eq_none] at hallowed
  obtain ⟨⟨hle, hnone⟩, _⟩ := hallowed
  refine ⟨h.balanced.gains (.of_process_eq rfl rfl (fun _ => id) fun b => ?_)
    (State.Quiet.scans_setWait (by simp)), h.histories.calm
      (.setWait (by simp [hnone]) (by simp [reaps]))⟩
  have hheld := held_setWait hle (some ⟨a, pid, noHang, 0, .acquiring⟩) b
  rw [hnone] at hheld
  simp only [weigh, Wait.units, ite_self] at hheld
  unfold units
  change _ - (s.semaphore b).currentCount + _ = _
  omega

lemma kill {retv : Int} (hallowed : (Event.kill thread a retv).allowed s = true)
    (hkill : s.kill thread a retv = .ok s') : Kept s' := by
  obtain ⟨p, hfind, hkill⟩ := bind_eq_ok hkill
  cases hkill
  have hp := find_eq_ok hfind
  simp only [Event.allowed, hp, Bool.and_eq_true, Bool.not_eq_true'] at hallowed
  have hmark := State.Gains.mark { p with retv := retv, exiting := true } hp
    (h.sound.family.address a p hp) rfl id fun _ => id
  refine ⟨h.balanced.gains (hmark.trans
    (.of_process_eq rfl rfl (fun _ => id) fun _ => rfl)) fun _ _ _ hw _ => hw,
    (h.histories.exit h.sound.family hp hallowed.2 retv).calm (.keep rfl rfl rfl rfl rfl rfl)⟩

/-- Every allowed step that meets the condition keeps the accounts. -/
lemma step {event : Event} (hallowed : event.allowed s = true)
    (hspares : event.spares s = true) (hstep : event.step s = .ok s') : Accounted s' := by
  have hkept : Kept s' := by
    cases event with
    | create parent a => exact h.create hallowed hstep
    | wait thread a pid noHang =>
      cases hstep
      exact h.wait hallowed
    | goOn thread =>
      dsimp only [Event.step] at hstep
      split at hstep
      · cases hstep
        exact ⟨h.balanced, h.histories⟩
      · rename_i w hw
        exact h.stepWait hw hallowed hspares hstep
    | kill thread a retv => exact h.kill hallowed hstep
    | killer thread =>
      dsimp only [Event.step] at hstep
      split at hstep
      · cases hstep
        exact ⟨h.balanced, h.histories⟩
      · rename_i k hk
        exact h.stepKiller hk hallowed hspares hstep
  exact ⟨h.sound.step hallowed hstep, hkept.1, hkept.2⟩

end

lemma run {memorySize threadCount : Nat} {events : List Event}
    (hrun : Run (State.Step Event.spares) (start memorySize threadCount) events s) : Accounted s :=
  hrun.invariant ⟨Sound.start memorySize threadCount, Balanced.start memorySize threadCount,
    Histories.start memorySize threadCount⟩ fun _ _ _ h hstep => h.step hstep.1 hstep.2.1 hstep.2.2

/-- A child that a call comes to is not being reaped: whoever reaps it holds
the lock of its parent, and so does the call. -/
lemma not_reaping {c : Process} (h : Accounted s) (hw : s.wait thread = some w)
    (hphase : w.phase = .scanning todo) (hp : s.process w.process = some p)
    (hrunning : p.stopped = false) (hmem : child ∈ elements todo)
    (hc : s.process child = some c) : c.reaping = false := by
  by_contra hreaping
  rw [Bool.not_eq_false] at hreaping
  obtain ⟨other, w', hw', hreaps⟩ := h.histories.busy child c hc hreaping
  have hsound := h.sound.calls.sound thread w hw
  have hsound' := h.sound.calls.sound other w' hw'
  obtain ⟨q, hq⟩ := hsound'.alive
  have hattended := h.histories.attended other w' child q hw' hreaps hq
  obtain ⟨d, hd, _, _, hparent', _⟩ := hsound'.reaps child q hreaps hq
  cases hc.symm.trans hd
  have hparent := h.sound.parent_eq hw hphase hp hrunning hmem hc
  have hsame : w'.process = w.process := h.sound.family.unique _ _ q p hq hp
    ((hparent' hattended).symm.trans hparent)
  have hlock := hsound.locked (by rw [hphase]; rfl)
  have hlock' := hsound'.locked (holds_of_reaps hreaps)
  rw [hsame, hlock] at hlock'
  cases Option.some.inj hlock'
  cases hw.symm.trans hw'
  rw [hphase] at hreaps
  cases hreaps

end Accounted

/-- The step uses no process that was freed or that is being reaped. -/
def Stop.notFreed (stop : Stop) : Prop :=
  stop ≠ .useAfterFree

namespace Accounted

variable {s s' : State} {a thread : Nat} {w : Wait}

lemma find_notFreed (hp : s.process a = some p) : Ends (s.find a) Stop.notFreed fun q => q = p := by
  unfold find
  rw [hp]
  exact rfl

lemma releaseFailedReaps_notFreed (a count : Nat) (s : State) :
    Ends (releaseFailedReaps a count s) Stop.notFreed fun _ => True := by
  induction count generalizing s with
  | zero => exact trivial
  | succ count ih =>
    have hrelease : Ends (s.releaseSemaphore a) Stop.notFreed fun _ => True := by
      unfold releaseSemaphore
      dsimp only
      split
      · split <;> exact trivial
      · exact nofun
    exact hrelease.bind fun s₁ _ => ih s₁

lemma endWait_notFreed (s : State) (thread : Nat) (w : Wait) (result : Nat) :
    Ends (s.endWait thread w result) Stop.notFreed fun _ => True :=
  (releaseFailedReaps_notFreed ..).bind fun _ _ => trivial

section

variable (h : Accounted s)

include h

lemma visit_notFreed (hw : s.wait thread = some w)
    (hphase : w.phase = .scanning (.node left child right :: rest))
    (hp : s.process w.process = some p) (hrunning : p.stopped = false) :
    Ends (s.visit thread w left child right rest) Stop.notFreed fun _ => True := by
  have hmem : child ∈ elements (.node left child right :: rest) := by
    simp [elements]
  have hscans := (h.sound.calls.sound thread w hw).scans _ p hphase hp hrunning
  obtain ⟨c, hc, _⟩ := ((h.sound.family.tree _ p hp hrunning).mem child).mp (hscans child hmem)
  have hnew := h.not_reaping hw hphase hp hrunning hmem hc
  refine (find_notFreed hp).bind fun _ _ => (find_notFreed hc).bind ?_
  rintro _ rfl
  split
  · unfold destroySemaphore
    rw [hnew, if_neg Bool.false_ne_true]
    split
    · intro hfreed
      cases hfreed
    · exact trivial
  · exact trivial

lemma detach_notFreed {c : Process} (hc : s.process child = some c) :
    Ends (s.detach thread w child) Stop.notFreed fun _ => True := by
  refine (find_notFreed hc).bind ?_
  rintro _ rfl
  split
  · exact endWait_notFreed ..
  · split
    · exact nofun
    · rename_i parent htable
      obtain ⟨p, hp, _⟩ := h.sound.family.table _ parent htable
      refine Ends.bind (?_ : Ends _ _ fun _ => True) fun _ _ => endWait_notFreed ..
      refine (find_notFreed hp).bind fun q _ => ?_
      split
      · exact nofun
      · exact trivial

lemma stepWait_notFreed (hw : s.wait thread = some w)
    (hallowed : (Event.goOn thread).allowed s = true) :
    Ends (s.stepWait thread w) Stop.notFreed fun _ => True := by
  have hsound := h.sound.calls.sound thread w hw
  obtain ⟨p, hp⟩ := hsound.alive
  simp only [Event.allowed, hw, Bool.and_eq_true, runs, hp, Bool.not_eq_true'] at hallowed
  unfold State.stepWait
  split <;> rename_i hphase
  · unfold State.acquire
    dsimp only
    split
    · exact trivial
    · split
      · exact endWait_notFreed ..
      · exact trivial
  · exact trivial
  · exact (find_notFreed hp).bind fun _ _ => trivial
  · exact h.visit_notFreed hw hphase hp hallowed.1
  · exact trivial
  · rename_i child
    obtain ⟨c, hc, _⟩ := hsound.reaps child p (by rw [hphase]; rfl) hp
    refine (find_notFreed hc).bind fun _ _ => ?_
    unfold State.removeFromProcessTable
    split
    · intro hfreed
      cases hfreed
    · exact trivial
  · rename_i child
    obtain ⟨c, hc, _⟩ := hsound.reaps child p (by rw [hphase]; rfl) hp
    exact h.detach_notFreed hc

lemma goOn_notFreed (hallowed : (Event.goOn thread).allowed s = true) :
    (Event.goOn thread).step s ≠ .error .useAfterFree := by
  dsimp only [Event.step]
  split
  · exact nofun
  · rename_i w hw
    have hends := h.stepWait_notFreed hw hallowed
    intro hfails
    rw [hfails] at hends
    exact hends rfl

/-- Without calls, the units of a process are the free ones. -/
lemma free_units (hp : s.process a = some p)
    (hidle : ∀ thread w, s.wait thread = some w → w.process ≠ a) :
    (s.zombies p.pid [] : Int) ≤ semBigNumber - (s.semaphore a).currentCount := by
  have hheld : s.held a = 0 := by
    refine (tally_congr fun thread _ => ?_).trans (tally_zero s.threadCount)
    cases hw : s.wait thread with
    | none => rfl
    | some w => exact if_neg (hidle thread w hw)
  have hcovered := h.balanced.covered a p hp
  unfold units at hcovered
  omega

end

end Accounted

/-- Child reaping in one state.  A process has the units for its zombies, and
free ones when no call is left; every child is reaped once, by the parent it
then has and with its own value, and a call for one child returns that child or
nothing. -/
structure ChildReaping (s : State) : Prop where
  covered : ∀ a p, s.process a = some p → (s.zombies p.pid [] : Int) ≤ s.units a
  idle : ∀ a p, s.process a = some p → (∀ thread w, s.wait thread = some w → w.process ≠ a) →
    (s.zombies p.pid [] : Int) ≤ semBigNumber - (s.semaphore a).currentCount
  once : (s.reaped.map Reap.pid).Nodup ∧ ∀ thread, (Event.goOn thread).allowed s = true →
    (Event.goOn thread).step s ≠ .error .useAfterFree
  reaped : ∀ r ∈ s.reaped, r.reaper = r.parent ∧ (r.pid, r.status) ∈ s.exits
  exits : (s.exits.map Prod.fst).Nodup
  returned : ∀ r ∈ s.returned, r.pid ≠ -1 → (r.result : Int) = r.pid ∨ r.result = 0

theorem run_childReaping {memorySize threadCount : Nat} {events : List Event} {s : State}
    (hrun : Run (State.Step Event.spares) (start memorySize threadCount) events s) :
    ChildReaping s := by
  have h := Accounted.run hrun
  exact ⟨h.balanced.covered, fun _ _ => h.free_units,
    ⟨h.histories.reaped_nodup, fun _ => h.goOn_notFreed⟩, h.histories.reaped,
    h.histories.exits_nodup, h.histories.returned⟩

/-- Two children exit, and the parent waits for the one that exits last. -/
def reapedChildren : List Event :=
  [.create 0 1, .create 1 2, .create 1 3, .kill 1 3 7, .killer 1, .killer 1,
    .wait 0 1 2 false, .goOn 0, .goOn 0, .kill 2 2 9, .goOn 0, .killer 2,
    .killer 2, .goOn 0, .goOn 0, .goOn 0, .goOn 0, .goOn 0, .goOn 0]

theorem run_childReaping_reapedChildren : ∃ s,
    Run (State.Step Event.spares) (start 9 9) reapedChildren s ∧
    s.returned ≠ [] ∧ ChildReaping s := by
  obtain ⟨s, hrun, htest⟩ := exists_of_after Event.spares
    (start 9 9) reapedChildren (fun s => decide (s.returned ≠ [])) (by decide +kernel)
  exact ⟨s, hrun, of_decide_eq_true htest, run_childReaping hrun⟩

/-- Pid 2 is reaped before its notification, with the unit of pid 3. -/
def earlyReap : List Event :=
  [.create 0 1, .create 1 2, .create 1 3, .kill 1 3 7, .killer 1, .killer 1,
    .kill 2 2 9, .wait 0 1 (-1) false, .goOn 0, .killer 2, .goOn 0, .goOn 0, .goOn 0, .goOn 0]

theorem earlyReap_childReaping : ∃ s,
    Run (State.Step fun _ _ => true) (start 9 9) earlyReap s ∧ ¬ ChildReaping s := by
  obtain ⟨s, hrun, htest⟩ := exists_of_after (fun _ _ => true) (start 9 9) earlyReap
    (fun s => (s.process 1).any fun p => decide (s.units 1 < s.zombies p.pid []))
    (by decide +kernel)
  refine ⟨s, hrun, fun h => ?_⟩
  obtain ⟨p, hp, hshort⟩ := (Option.any_eq_true _ _).mp htest
  exact absurd (h.covered 1 p hp) (not_le.mpr (of_decide_eq_true hshort))

end Merlon.Processes
