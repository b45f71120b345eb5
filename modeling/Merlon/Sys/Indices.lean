/-
Which numbers from user mode reach a table or a shift unchecked.  The lower
bounds are missing: of the number of the call, of the signal of `kill`, and both
bounds of the new descriptor of `dup2`.
-/
import Merlon.Sys.Dispatch
import Merlon.Files.Calls
import Merlon.Files.Locking

namespace Merlon

open Files.World Files BitVec

variable {oldfd newfd : Int}

namespace Files

/-- The call does not use an index outside the table. -/
def InBounds {α : Type} (outcome : Except Stop α) : Prop :=
  Ends outcome (fun stop => ∀ index, stop ≠ .outOfBounds index) fun _ => True

namespace World

variable {w : World} {flags : BitVec 32}

section

variable (w : World)

lemma acquireMutex_inBounds : InBounds w.acquireMutex := by
  unfold acquireMutex
  split
  · exact trivial
  · exact trivial
  · exact fun _ => Stop.noConfusion

lemma find_inBounds (f : Nat) : InBounds (w.find f) := by
  unfold find
  split
  · exact fun _ => Stop.noConfusion
  · exact trivial

lemma closeFile_inBounds (f : Nat) : InBounds (w.closeFile f) := by
  refine Ends.bind (?_ : InBounds _) fun _ _ => trivial
  refine (find_inBounds w f).bind fun file _ => ?_
  split <;> exact trivial

lemma removeFd_inBounds (f : Nat) : InBounds (w.removeFd f) := by
  refine (acquireMutex_inBounds w).bind fun w' _ => ?_
  split
  · exact trivial
  · exact (find_inBounds _ f).bind fun _ _ => trivial

lemma getFileFromFd_inBounds (fd : Int) : InBounds (w.getFileFromFd true fd) := by
  unfold getFileFromFd
  split
  · exact fun _ => Stop.noConfusion
  · exact trivial
  · refine (acquireMutex_inBounds w).bind fun w' _ => ?_
    dsimp only
    split <;> exact trivial

lemma sysClose_inBounds (fd : BitVec 32) : InBounds (w.sysClose fd) := by
  refine (getFileFromFd_inBounds w _).bind fun found _ => ?_
  dsimp only
  split
  · exact trivial
  · exact (removeFd_inBounds _ _).bind fun removed _ => closeFile_inBounds _ _

lemma dupFd_inBounds (oldfd : Int) : InBounds (w.dupFd oldfd) := by
  refine (acquireMutex_inBounds w).bind fun w' _ => ?_
  refine (getFileFromFd_inBounds w' oldfd).bind fun found _ => ?_
  dsimp only
  split
  · exact trivial
  · split <;> exact trivial

end

lemma getFileFromFd_bad {fd : Int} (hfd : slot fd = none) (w : World) :
    w.getFileFromFd true fd = .ok (.error .ebadf, w) := by
  unfold getFileFromFd
  rw [hfd]

lemma sysClose_badSlot {fd : BitVec 32} (hfd : slot fd.toInt = none)
    (w : World) : w.sysClose fd = .ok (.error .ebadf, w) := by
  unfold sysClose
  rw [getFileFromFd_bad hfd]
  rfl

section

variable (h : w.table.lock ≠ some true)

include h

/-- Taking the mutex and giving it back changes nothing. -/
lemma acquire_release : ∃ w', w.acquireMutex = .ok w' ∧ w'.releaseMutex = w := by
  obtain ⟨⟨lock, entry⟩, file⟩ := w
  cases lock with
  | none => exact ⟨_, rfl, rfl⟩
  | some held =>
    cases held with
    | false => exact ⟨_, rfl, rfl⟩
    | true => exact absurd rfl h

lemma dupFd_badSlot (hold : slot oldfd = none) : w.dupFd oldfd = .ok (.error .ebadf, w) := by
  obtain ⟨w', hacquire, hrelease⟩ := acquire_release h
  unfold dupFd
  rw [hacquire, ok_bind, getFileFromFd_bad hold, ok_bind]
  dsimp only
  rw [hrelease]

lemma dupFd2_badSlot (hflags : validFlags flags = true) (hold : slot oldfd = none) :
    w.dupFd2 oldfd newfd flags = .ok (.error .ebadf, w) := by
  obtain ⟨w', hacquire, hrelease⟩ := acquire_release h
  unfold dupFd2
  rw [if_pos hflags, hacquire, ok_bind, getFileFromFd_bad hold, ok_bind]
  dsimp only
  rw [hrelease]

end

/-- With its mutex, `DupFd2` waits for itself. -/
lemma dupFd2_deadlock {i : Fin procMaxFd} (h : w.table.lock = some false)
    (hflags : validFlags flags = true) (hold : slot oldfd = some i) :
    w.dupFd2 oldfd newfd flags = .error .deadlock := by
  unfold dupFd2 getFileFromFd
  rw [if_pos hflags, acquireMutex_free h, hold]
  rfl

lemma lookup_of_slot {fd : Int} {i : Fin procMaxFd} (h : slot fd = some i) :
    w.lookup fd = (w.table.entry i).file := by
  unfold lookup
  rw [h]
  rfl

/-- A new descriptor that is a slot is in range. -/
lemma dupFd2_inBounds
    {j : Fin procMaxFd} (hnew : slot newfd = some j) : InBounds (w.dupFd2 oldfd newfd flags) := by
  unfold dupFd2
  split
  · refine (acquireMutex_inBounds w).bind fun w' _ => ?_
    refine (getFileFromFd_inBounds w' oldfd).bind fun found _ => ?_
    dsimp only
    split
    · exact trivial
    · split
      · exact trivial
      · refine (getFileFromFd_inBounds _ oldfd).bind fun current _ => ?_
        rw [hnew]
        split
        · exact trivial
        · rename_i g _
          have hclosed := closeFile_inBounds current.2 g
          cases hclose : current.2.closeFile g with
          | ok closed => exact trivial
          | error stop =>
            rw [hclose] at hclosed
            exact hclosed
  · exact trivial

end World

end Files

namespace Sys

variable {others : Others} {k : Kernel} {call : BitVec 32} {r : Registers}
  {outcome : Except Files.Stop (Files.Result × Files.World)} {i : Fin Files.procMaxFd}

/-- A call that returns uses nothing out of range. -/
lemma Guarded.of_error {outcome : Outcome} {errno : Errno}
    (h : outcome = .ok (.error errno, k)) : Guarded k call r outcome where
  used stop hstop := by
    rw [h] at hstop
    cases hstop
  rejected _ := ⟨errno, h⟩

/-- With its numbers in range, a call has only to stay in range. -/
lemma guarded_of_inRange {outcome : Outcome} (h : ¬ OutOfRange call r)
    (hused : ∀ stop, outcome = .error stop → stop.outOfRange = false) : Guarded k call r outcome :=
  ⟨hused, fun hout => absurd hout h⟩

lemma outside_inRange {outcome : Except Nat (Result × Kernel)} {stop : Stop}
    (h : outside outcome = .error stop) : stop.outOfRange = false := by
  unfold outside at h
  split at h <;> cases h
  rfl

lemma files_outOfRange {α : Type} {outcome : Except Files.Stop α}
    {stop : Files.Stop} (hbounds : Files.InBounds outcome)
    (h : outcome = .error stop) : (Stop.files stop).outOfRange = false := by
  rw [h] at hbounds
  cases stop with
  | outOfBounds index => exact absurd rfl (hbounds index)
  | _ => rfl

lemma onFiles_inRange {stop : Stop} (hbounds : Files.InBounds outcome)
    (h : onFiles k outcome = .error stop) : stop.outOfRange = false := by
  unfold onFiles at h
  split at h
  · cases h
    exact files_outOfRange hbounds rfl
  · cases h

lemma onFiles_ebadf (h : outcome = .ok (.error .ebadf, k.files)) :
    onFiles k outcome = .ok (.error (.file .ebadf), k) := by
  rw [h]
  rfl

lemma sysReadWrite_guarded : Guarded k 5 r (sysReadWrite others k r) := by
  by_cases hbad : badFd r.a
  · have hreturned : sysReadWrite others k r = .ok (.error (.file .ebadf), k) := by
      unfold sysReadWrite
      rw [getFileFromFd_bad hbad]
    exact .of_error hreturned
  · refine guarded_of_inRange ?_ fun stop hstop => ?_
    · simp [OutOfRange, hbad, syscallNumEntries]
    · unfold sysReadWrite at hstop
      split at hstop
      · rename_i fileStop hget
        cases hstop
        exact files_outOfRange (getFileFromFd_inBounds _ _) hget
      · cases hstop
      · exact outside_inRange hstop

lemma sysClose_guarded : Guarded k 6 r (onFiles k (k.files.sysClose r.a)) := by
  by_cases hbad : badFd r.a
  · exact .of_error (onFiles_ebadf (sysClose_badSlot hbad _))
  · refine guarded_of_inRange ?_ fun stop hstop => ?_
    · simp [OutOfRange, hbad, syscallNumEntries]
    · exact onFiles_inRange (sysClose_inBounds _ _) hstop

/-- The condition that `dup2` needs. -/
def DupChecked (k : Kernel) (r : Registers) : Prop :=
  r.a = 2 → Files.validFlags r.d = true → ∀ i, Files.slot r.b.toInt = some i → badFd r.c →
    k.files.table.lock = none ∧ (k.files.table.entry i).file = none

lemma sysDup_one (hlock : k.files.table.lock ≠ some true) (hflags : validFlags r.d = true)
    (hone : r.a = 1) : Guarded k 8 r (sysDup others k r) := by
  have hdup : sysDup others k r = _ :=
    (if_neg (by rw [hflags]; exact Bool.noConfusion)).trans (if_pos hone)
  by_cases hbad : badFd r.b
  · rw [dupFd_badSlot hlock hbad] at hdup
    exact .of_error hdup
  · refine guarded_of_inRange ?_ fun stop hstop => ?_
    · simp [OutOfRange, hbad, hone, syscallNumEntries]
    · rw [hdup] at hstop
      split at hstop
      · rename_i fileStop hdupFd
        cases hstop
        exact files_outOfRange (dupFd_inBounds _ _) hdupFd
      · cases hstop
      · exact outside_inRange hstop

/-- A descriptor that is no slot is never equal to one that is. -/
lemma ne_of_slot (hold : slot oldfd = some i) (hnew : slot newfd = none) :
    oldfd ≠ newfd := by
  rintro rfl
  rw [hold] at hnew
  cases hnew

/-- `dup2` to a descriptor that is no slot is refused only if the mutex is
abstracted and the old descriptor is not in use. -/
lemma dupFd2_guarded_iff (hlock : k.files.table.lock ≠ some true)
    (hflags : validFlags r.d = true) (htwo : r.a = 2) (hold : slot r.b.toInt = some i)
    (hnew : badFd r.c) : Guarded k 8 r (onFiles k (k.files.dupFd2 r.b.toInt r.c.toInt r.d)) ↔
    k.files.table.lock = none ∧ (k.files.table.entry i).file = none := by
  have hout : OutOfRange 8 r := by simp [OutOfRange, htwo, hnew]
  by_cases habstract : k.files.table.lock = none
  · cases hfile : (k.files.table.entry i).file with
    | none =>
      refine iff_of_true (.of_error (onFiles_ebadf ?_)) ⟨habstract, rfl⟩
      refine dupFd2_bad habstract hflags ?_
      rw [lookup_of_slot hold, hfile]
    | some f =>
      refine iff_of_false (fun h => ?_) nofun
      obtain ⟨errno, hreturned⟩ := h.rejected hout
      have hlookup : k.files.lookup r.b.toInt = some f := by
        rw [lookup_of_slot hold, hfile]
      rw [dupFd2_other habstract hflags hlookup (ne_of_slot hold hnew)] at hreturned
      rw [show slot r.c.toInt = none from hnew] at hreturned
      cases hclose : k.files.closeFile f with
      | error stop =>
        rw [hclose] at hreturned
        cases hreturned
      | ok closed =>
        rw [hclose] at hreturned
        cases hreturned
  · refine iff_of_false (fun h => ?_) fun h => habstract h.1
    obtain ⟨errno, hreturned⟩ := h.rejected hout
    have hfree : k.files.table.lock = some false := by
      cases hheld : k.files.table.lock with
      | none => exact absurd hheld habstract
      | some held =>
        cases held with
        | false => rfl
        | true => exact absurd hheld hlock
    rw [dupFd2_deadlock hfree hflags hold] at hreturned
    cases hreturned

lemma sysDup_guarded_iff (hlock : k.files.table.lock ≠ some true) :
    Guarded k 8 r (sysDup others k r) ↔ DupChecked k r := by
  by_cases hflags : validFlags r.d = true
  swap
  · refine iff_of_true (.of_error (if_pos (Bool.not_eq_true _ ▸ hflags)))
      fun _ hvalid => absurd hvalid hflags
  by_cases hone : r.a = 1
  · refine iff_of_true (sysDup_one hlock hflags hone) fun htwo => ?_
    rw [hone] at htwo
    exact absurd htwo (by decide)
  have hrest : sysDup others k r = _ :=
    (if_neg (by rw [hflags]; exact Bool.noConfusion)).trans (if_neg hone)
  by_cases htwo : r.a = 2
  swap
  · rw [if_neg htwo] at hrest
    exact iff_of_true (.of_error hrest) fun h => absurd h htwo
  rw [hrest, if_pos htwo]
  cases hold : slot r.b.toInt with
  | none =>
    refine iff_of_true (.of_error (onFiles_ebadf
      (dupFd2_badSlot hlock hflags hold))) fun _ _ i hi => ?_
    rw [hold] at hi
    cases hi
  | some i =>
    cases hnew : slot r.c.toInt with
    | none =>
      rw [dupFd2_guarded_iff hlock hflags htwo hold hnew]
      constructor
      · intro h _ _ j hj _
        rw [hold] at hj
        cases hj
        exact h
      · intro h
        exact h htwo hflags i hold hnew
    | some j =>
      refine iff_of_true (guarded_of_inRange ?_ fun stop hstop =>
        onFiles_inRange (dupFd2_inBounds hnew) hstop)
        fun _ _ _ _ hbad => ?_
      · simp [OutOfRange, badFd, hold, hnew, syscallNumEntries]
      · rw [badFd, hnew] at hbad
        cases hbad

/-- The condition that `kill` needs. -/
def KillChecked (k : Kernel) (r : Registers) : Prop :=
  r.a = 2 → 0 < r.d.toInt → (k.process r.d.toInt = some .missing → ¬ badSignal r.c) ∧
    ∀ thread, k.process r.d.toInt = some (.thread thread) → 0 ≤ r.c.toInt

lemma not_badSignal {sigNum : BitVec 32} (hlow : 0 ≤ sigNum.toInt)
    (hhigh : sigNum.toInt < Threads.sigUpperBnd) : ¬ badSignal sigNum := by
  unfold badSignal
  rw [toInt_eq_toNat_cond] at hlow hhigh
  split at hlow <;> omega

/-- A signal that is not negative is in range or refused. -/
lemma raiseSignal_guarded_iff {thread : Nat} (htwo : r.a = 2) :
    Guarded k 23 r (raiseSignal k thread r.c.toInt) ↔ 0 ≤ r.c.toInt := by
  unfold raiseSignal
  by_cases hbig : (Threads.sigUpperBnd : Int) ≤ r.c.toInt
  · refine iff_of_true (.of_error (if_pos hbig)) ?_
    exact le_trans (Int.natCast_nonneg _) hbig
  rw [if_neg hbig]
  by_cases hnegative : r.c.toInt < 0
  · rw [if_pos hnegative]
    refine iff_of_false (fun h => ?_) (not_le.mpr hnegative)
    exact Bool.noConfusion (h.used _ rfl)
  rw [if_neg hnegative]
  refine iff_of_true (guarded_of_inRange ?_ fun stop hstop => ?_) (not_lt.mp hnegative)
  · have hgood := not_badSignal (not_lt.mp hnegative) (not_le.mp hbig)
    simp [OutOfRange, hgood, syscallNumEntries]
  · split at hstop
    · cases hstop
      rfl
    · cases hstop
    · cases hstop

lemma kill_guarded_iff (htwo : r.a = 2) :
    Guarded k 23 r (kill k r.d.toInt r.c.toInt) ↔ KillChecked k r := by
  unfold kill
  by_cases hpid : 0 < r.d.toInt
  swap
  · exact iff_of_true (.of_error (if_neg hpid)) fun _ h => absurd h hpid
  rw [if_pos hpid]
  have hchecked : KillChecked k r ↔ (k.process r.d.toInt = some .missing → ¬ badSignal r.c) ∧
      ∀ thread, k.process r.d.toInt = some (.thread thread) → 0 ≤ r.c.toInt :=
    ⟨fun h => h htwo hpid, fun h _ _ => h⟩
  rw [hchecked]
  cases k.process r.d.toInt with
  | none => exact iff_of_true (.of_error rfl) ⟨nofun, nofun⟩
  | some root =>
    cases root with
    | null => exact iff_of_true (.of_error rfl) ⟨nofun, nofun⟩
    | thread thread =>
      refine (raiseSignal_guarded_iff htwo).trans ⟨fun h => ?_, fun h => ?_⟩
      · exact ⟨nofun, fun _ _ => h⟩
      · exact h.2 thread rfl
    | missing =>
      constructor
      · intro h
        refine ⟨fun _ hbad => ?_, nofun⟩
        obtain ⟨errno, hreturned⟩ := h.rejected (by simp [OutOfRange, htwo, hbad])
        cases hreturned
      · intro h
        have hgood := h.1 rfl
        refine guarded_of_inRange ?_ fun stop hstop => ?_
        · simp [OutOfRange, hgood, syscallNumEntries]
        · cases hstop
          rfl

/-- The other calls of `SysSignal` shift by no number from user mode. -/
lemma sysSignal_guarded (hone : r.a ≠ 1) (htwo : r.a ≠ 2) :
    Guarded k 23 r (sysSignal others k r) := by
  refine guarded_of_inRange ?_ fun stop hstop => ?_
  · have hneither : ¬ (r.a = 1 ∨ r.a = 2) := not_or.mpr ⟨hone, htwo⟩
    rintro (h | ⟨h, -⟩ | ⟨h, -⟩ | ⟨h, -⟩ | ⟨-, h, -⟩)
    · exact absurd h (by decide)
    · exact absurd h (by decide)
    · exact absurd h (by decide)
    · exact absurd h (by decide)
    · exact hneither h
  unfold sysSignal at hstop
  dsimp only at hstop
  split at hstop
  · split at hstop <;> cases hstop
  · rename_i hop
    exact absurd (eq_of_toNat_eq hop) hone
  · rename_i hop
    exact absurd (eq_of_toNat_eq hop) htwo
  · exact outside_inRange hstop
  · exact outside_inRange hstop
  · cases hstop

/-- The end of a signal is refused for a number that is not one. -/
lemma sigreturn_guarded (hone : r.a = 1) : Guarded k 23 r (sysSignal others k r) := by
  unfold sysSignal
  rw [hone]
  by_cases hbad : badSignal r.c
  · exact .of_error (if_pos hbad)
  · refine guarded_of_inRange ?_ fun stop hstop => ?_
    · simp [OutOfRange, hbad, syscallNumEntries]
    · have hreturned := (if_neg hbad).symm.trans hstop
      cases hreturned

lemma sysSignal_guarded_iff : Guarded k 23 r (sysSignal others k r) ↔ KillChecked k r := by
  by_cases htwo : r.a = 2
  · rw [← kill_guarded_iff htwo]
    unfold sysSignal
    rw [htwo]
    rfl
  · refine iff_of_true ?_ fun h => absurd h htwo
    by_cases hone : r.a = 1
    · exact sigreturn_guarded hone
    · exact sysSignal_guarded hone htwo

/-- The calls that use no register as an index. -/
lemma other_guarded (hlow : 0 ≤ call.toInt) (hhigh : call.toInt < syscallNumEntries)
    (hother : call ≠ 5 ∧ call ≠ 6 ∧ call ≠ 8 ∧ call ≠ 23) (number : Nat) :
    Guarded k call r (outside (others.call number r k)) := by
  refine guarded_of_inRange ?_ fun stop hstop => outside_inRange hstop
  have hnumber : call.toNat < syscallNumEntries := by
    rw [toInt_eq_toNat_cond] at hlow hhigh
    split at hlow <;> omega
  rintro (h | ⟨h | h, -⟩ | ⟨h, -⟩ | ⟨h, -⟩ | ⟨h, -⟩)
  · exact absurd hnumber (Nat.not_lt.mpr h)
  · exact hother.1 h
  · exact hother.2.1 h
  · exact hother.2.2.1 h
  · exact hother.2.2.1 h
  · exact hother.2.2.2 h

/-- The numbers of a system call are all checked before they are used, and a
call with a number out of range is refused, exactly when the ones that the code
does not check are in range. -/
theorem handleSystemCall_guarded_iff (others : Others) (k : Kernel)
    (hlock : k.files.table.lock ≠ some true) (call : BitVec 32) (r : Registers) :
    Guarded k call r (handleSystemCall others k call r) ↔ Checked k call r := by
  unfold handleSystemCall
  by_cases hbig : (syscallNumEntries : Int) ≤ call.toInt
  · refine iff_of_true (.of_error (if_pos hbig)) ⟨?_, ?_, ?_⟩
    · exact le_trans (Int.natCast_nonneg _) hbig
    · rintro rfl
      exact absurd hbig (by decide)
    · rintro rfl
      exact absurd hbig (by decide)
  rw [if_neg hbig]
  by_cases hnegative : call.toInt < 0
  · rw [if_pos hnegative]
    refine iff_of_false (fun h => ?_) fun h => not_le.mpr hnegative h.number
    exact Bool.noConfusion (h.used _ rfl)
  rw [if_neg hnegative]
  have hlow : 0 ≤ call.toInt := not_lt.mp hnegative
  split
  · rename_i hcall
    cases eq_of_toNat_eq (x := call) (y := 5) hcall
    exact iff_of_true sysReadWrite_guarded
      ⟨hlow, fun h => absurd h (by decide), fun h => absurd h (by decide)⟩
  · rename_i hcall
    cases eq_of_toNat_eq (x := call) (y := 6) hcall
    exact iff_of_true sysClose_guarded
      ⟨hlow, fun h => absurd h (by decide), fun h => absurd h (by decide)⟩
  · rename_i hcall
    cases eq_of_toNat_eq (x := call) (y := 8) hcall
    rw [sysDup_guarded_iff hlock]
    exact ⟨fun h => ⟨hlow, fun _ => h, fun h => absurd h (by decide)⟩, fun h => h.dup rfl⟩
  · rename_i hcall
    cases eq_of_toNat_eq (x := call) (y := 23) hcall
    rw [sysSignal_guarded_iff]
    exact ⟨fun h => ⟨hlow, fun h => absurd h (by decide), fun _ => h⟩, fun h => h.kill rfl⟩
  · rename_i h5 h6 h8 h23
    have hother : call ≠ 5 ∧ call ≠ 6 ∧ call ≠ 8 ∧ call ≠ 23 := by
      refine ⟨?_, ?_, ?_, ?_⟩
      · rintro rfl
        exact h5 rfl
      · rintro rfl
        exact h6 rfl
      · rintro rfl
        exact h8 rfl
      · rintro rfl
        exact h23 rfl
    exact iff_of_true (other_guarded hlow (not_le.mp hbig) hother _)
      ⟨hlow, fun h => absurd h hother.2.2.1, fun h => absurd h hother.2.2.2⟩

/-- A kernel with an empty descriptor table and no other process. -/
def idle : Kernel where
  files := ⟨Files.createFdTable (some false), fun _ => none⟩
  tasks := ⟨Threads.threeThreads, fun _ => Threads.newFlags⟩
  blockedSignals := fun _ => 0
  userCommonSignalHandler := fun _ => 0
  process := fun _ => none

def unimplemented : Others where
  transfer := fun _ _ k => .ok (.error .enosys, k)
  writeWord := fun _ _ k => .ok (.error .enosys, k)
  suspend := fun _ k => .ok (.error .enosys, k)
  mask := fun _ k => .ok (.error .enosys, k)
  call := fun _ _ k => .ok (.error .enosys, k)

/-- Closing a descriptor that is out of range is refused. -/
theorem idle_close_guarded : Guarded idle 6 ⟨0xFFFFFFFF, 0, 0, 0, 0⟩
      (handleSystemCall unimplemented idle 6 ⟨0xFFFFFFFF, 0, 0, 0, 0⟩) :=
  (handleSystemCall_guarded_iff unimplemented idle (by decide) 6 _).mpr
    ⟨by decide, fun h => absurd h (by decide), fun h => absurd h (by decide)⟩

/-- The number of a call that is negative is used as an index. -/
theorem idle_negative_call :
    handleSystemCall unimplemented idle 0xFFFFFFFF ⟨0, 0, 0, 0, 0⟩ = .error (.outOfBounds (-1)) ∧
    ¬ Guarded idle 0xFFFFFFFF ⟨0, 0, 0, 0, 0⟩
      (handleSystemCall unimplemented idle 0xFFFFFFFF ⟨0, 0, 0, 0, 0⟩) := by
  have hstop : handleSystemCall unimplemented idle 0xFFFFFFFF
      ⟨0, 0, 0, 0, 0⟩ = .error (.outOfBounds (-1)) := rfl
  exact ⟨hstop, fun h => Bool.noConfusion (h.used _ hstop)⟩

end Sys

end Merlon
