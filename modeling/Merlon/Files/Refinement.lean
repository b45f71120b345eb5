/-
A descriptor table as a finite map from descriptors to files.  The calls do
what the map says as long as a descriptor that is closed is the first one with
its file, and a descriptor that is replaced has the file that replaces it.
-/
import Mathlib.Order.Bounds.Basic
import Merlon.Files.Calls

namespace Merlon.Files

open World FdTable

/-- The map, and the files that its descriptors refer to. -/
@[ext] structure FdMap where
  slot : Fin procMaxFd → Option (Nat × BitVec 32)
  file : Nat → Option File

/-- The calls on the map.  The arguments of `SysClose` are registers. -/
inductive Request where
  | createFd (f : Nat) (flags : BitVec 32)
  | dupFd (oldfd : Int)
  | dupFd2 (oldfd newfd : Int) (flags : BitVec 32)
  | sysClose (fd : BitVec 32)
  deriving DecidableEq, Repr

namespace FdMap

def set (m : FdMap) (i : Fin procMaxFd) (entry : Option (Nat × BitVec 32)) :
    FdMap :=
  { m with slot := Function.update m.slot i entry }

/-- One descriptor of the file less. -/
def close (m : FdMap) (f : Nat) : FdMap :=
  { m with file := dropReference m.file f }

/-- The file of a descriptor. -/
def at? (m : FdMap) (fd : Int) : Option Nat :=
  (Files.slot fd).bind fun i => (m.slot i).map Prod.fst

def LowestFree (m : FdMap) (i : Fin procMaxFd) : Prop :=
  IsLeast {i | m.slot i = none} i

/-- Nothing but the error is returned. -/
def Refuses (m : FdMap) (error : Errno) (result : Result) (m' : FdMap) : Prop :=
  result = .error error ∧ m' = m

/-- The lowest free descriptor gets the file, if there is one. -/
def Assigns (m : FdMap) (f : Nat) (flags : BitVec 32) (result : Result) (m' : FdMap) : Prop :=
  ((∀ i, m.slot i ≠ none) ∧ m.Refuses .emfile result m') ∨
    ∃ i, m.LowestFree i ∧ result = .ok i ∧ m' = m.set i (some (f, flags))

/-- The descriptor gets the file, after the file it had is closed. -/
def Replaces (m : FdMap) (i : Fin procMaxFd) (f : Nat) (flags : BitVec 32) (m' : FdMap) : Prop :=
  (m.slot i = none ∧ m' = m.set i (some (f, flags))) ∨
    ∃ g old, m.slot i = some (g, old) ∧ m' = (m.close g).set i (some (f, flags))

/-- What a call returns and leaves. -/
def Spec (m : FdMap) (result : Result) (m' : FdMap) : Request → Prop
  | .createFd f flags =>
    if validFlags flags then m.Assigns f flags result m'
    else m.Refuses .einval result m'
  | .dupFd oldfd =>
    (m.at? oldfd = none ∧ m.Refuses .ebadf result m') ∨
      ∃ f, m.at? oldfd = some f ∧ m.Assigns f 0 result m'
  | .dupFd2 oldfd newfd flags =>
    if validFlags flags then
      (m.at? oldfd = none ∧ m.Refuses .ebadf result m') ∨
        ∃ f, m.at? oldfd = some f ∧
          ((oldfd = newfd ∧ result = .ok 0 ∧ m' = m) ∨
            (oldfd ≠ newfd ∧ Files.slot newfd = none ∧ m.Refuses .ebadf result m') ∨
            ∃ i, oldfd ≠ newfd ∧ Files.slot newfd = some i ∧
              result = .ok 0 ∧ m.Replaces i f flags m')
    else m.Refuses .einval result m'
  | .sysClose fd =>
    (m.at? fd.toInt = none ∧ m.Refuses .ebadf result m') ∨ ∃ i f flags, Files.slot
      fd.toInt = some i ∧ m.slot i = some (f, flags) ∧ result = .ok 0 ∧ m' = (m.set i none).close f

end FdMap

/-- The map that a table stands for. -/
def World.map (w : World) : FdMap where
  slot i := (w.table.entry i).file.map fun f => (f, (w.table.entry i).flags)
  file := w.file

def Request.run (w : World) : Request → Except Stop (Result × World)
  | .createFd f flags => w.createFd f flags
  | .dupFd oldfd => w.dupFd oldfd
  | .dupFd2 oldfd newfd flags => w.dupFd2 oldfd newfd flags
  | .sysClose fd => w.sysClose fd

/-- The call returns, with what the map says. -/
def Request.Conforms (w : World) (request : Request) : Prop :=
  ∃ result w', request.run w = .ok (result, w') ∧ w.map.Spec result w'.map request

/-- A file that gets a descriptor is open.  A descriptor that `DupFd2` replaces
has the file that replaces it, and one that `SysClose` closes is the first with
its file. -/
def Request.Apt (w : World) : Request → Prop
  | .createFd f flags => validFlags flags = true →
      (∃ i, (w.table.entry i).file = none) → w.file f ≠ none
  | .dupFd _ => True
  | .dupFd2 oldfd newfd flags => validFlags flags = true → oldfd ≠ newfd →
      ∀ f, w.lookup oldfd = some f → w.lookup newfd = some f ∧ w.file f ≠ none
  | .sysClose fd => ∀ i f, slot fd.toInt = some i →
      (w.table.entry i).file = some f → w.file f ≠ none ∧ ∀ j < i, (w.table.entry j).file ≠ some f

/-- Every call of a sequence is as told, in the world that it finds. -/
def Request.Always (P : World → Request → Prop) : World → List Request → Prop
  | _, [] => True
  | w, request :: rest => P w request ∧
      ∀ result w', request.run w = .ok (result, w') → Always P w' rest

section Map

variable {w : World} {i : Fin procMaxFd} {f : Nat} {flags : BitVec 32}

lemma World.map_slot_eq_none : w.map.slot i = none ↔ (w.table.entry i).file = none :=
  Option.map_eq_none_iff

lemma World.map_at (w : World) (fd : Int) : w.map.at? fd = w.lookup fd := by
  unfold FdMap.at? lookup
  cases slot fd with
  | none => rfl
  | some i =>
    dsimp only [Option.bind_some, map]
    rw [Option.map_map]
    exact Option.map_id'

lemma World.map_setEntry (w : World) (i : Fin procMaxFd) (fd : Fd) :
    (w.setEntry i fd).map = w.map.set i (fd.file.map fun f => (f, fd.flags)) := by
  ext1
  · funext j
    by_cases hj : j = i
    · subst hj
      simp [map, setEntry, FdTable.setEntry, FdMap.set]
    · simp [map, setEntry, FdTable.setEntry, FdMap.set, Function.update_of_ne hj]
  · rfl

lemma World.lowestFree_iff : w.map.LowestFree i ↔ w.table.firstFree = some i := by
  rw [firstFree_eq_some]
  unfold FdMap.LowestFree
  simp only [IsLeast, mem_lowerBounds, Set.mem_ofPred_eq, map_slot_eq_none]
  refine and_congr_right fun _ => forall_congr' fun j => ?_
  rw [← not_imp_not, not_le]

/-- A call that gives a file to the lowest free descriptor. -/
lemma World.assigns_full (hfull : w.table.firstFree = none) :
    w.map.Assigns f flags (.error .emfile) w.map := by
  rw [firstFree_eq_none] at hfull
  exact .inl ⟨fun i hi => hfull i (map_slot_eq_none.mp hi), rfl, rfl⟩

lemma World.assigns_free (hfree : w.table.firstFree = some i) :
    w.map.Assigns f flags (.ok i) (w.setEntry i ⟨some f, flags⟩).map :=
  .inr ⟨i, lowestFree_iff.mpr hfree, rfl, map_setEntry ..⟩

end Map

namespace Request

variable {w : World} {f : Nat} {flags : BitVec 32} {oldfd newfd : Int}
  {fd : BitVec 32} {result : Result} {w' : World} {request : Request}

lemma conforms_of_run (request : Request) (hrun : request.run w = .ok (result, w')) :
    request.Conforms w ↔ w.map.Spec result w'.map request := by
  unfold Conforms
  rw [hrun]
  constructor
  · rintro ⟨_, _, ⟨⟩, hspec⟩
    exact hspec
  · intro hspec
    exact ⟨result, w', rfl, hspec⟩

lemma not_conforms_of_stop {stop : Stop}
    (hrun : request.run w = .error stop) : ¬ request.Conforms w := by
  rintro ⟨_, _, hok, _⟩
  rw [hrun] at hok
  cases hok

lemma createFd_conforms_iff (h : w.table.lock = none) :
    (createFd f flags).Conforms w ↔ (createFd f flags).Apt w := by
  cases hflags : validFlags flags with
  | false =>
    rw [conforms_of_run (createFd f flags) (createFd_invalid hflags)]
    refine iff_of_true ?_ fun hvalid => ?_
    · simp [FdMap.Spec, hflags, FdMap.Refuses]
    · simp [hflags] at hvalid
  | true =>
    cases hfirst : w.table.firstFree with
    | none =>
      rw [conforms_of_run (createFd f flags) (createFd_full h hflags hfirst)]
      refine iff_of_true ?_ ?_
      · rw [FdMap.Spec, if_pos hflags]
        exact assigns_full hfirst
      · rintro _ ⟨i, hi⟩
        exact absurd hi (firstFree_eq_none.mp hfirst i)
    | some i =>
      have hrun : (createFd f flags).run w = _ := createFd_free h hflags hfirst
      by_cases hfreed : w.file f = none
      · rw [find_freed hfreed] at hrun
        refine iff_of_false (not_conforms_of_stop hrun) fun hapt => ?_
        have hfree := (firstFree_eq_some.mp hfirst).1
        exact hapt hflags ⟨i, hfree⟩ hfreed
      · obtain ⟨file, hfind⟩ := find_live hfreed
        rw [hfind] at hrun
        rw [conforms_of_run _ hrun]
        refine iff_of_true ?_ fun _ _ => hfreed
        rw [FdMap.Spec, if_pos hflags]
        exact assigns_free hfirst

lemma dupFd_conforms (h : w.table.lock = none) : (dupFd oldfd).Conforms w := by
  cases hold : w.lookup oldfd with
  | none =>
    refine (conforms_of_run (dupFd oldfd) (dupFd_bad h hold)).mpr (.inl ⟨?_, rfl, rfl⟩)
    rw [map_at, hold]
  | some f =>
    have hat : w.map.at? oldfd = some f := by rw [map_at, hold]
    cases hfirst : w.table.firstFree with
    | none =>
      exact (conforms_of_run (dupFd oldfd) (dupFd_full h hold hfirst)).mpr
        (.inr ⟨f, hat, assigns_full hfirst⟩)
    | some i =>
      exact (conforms_of_run (dupFd oldfd) (dupFd_free h hold hfirst)).mpr
        (.inr ⟨f, hat, assigns_free hfirst⟩)

/-- The map replaces a descriptor as `DupFd2` does just when the descriptor had
the file that it gets. -/
lemma replaces_iff (flags : BitVec 32) (i : Fin procMaxFd) (hlive : w.file f ≠ none) :
    w.map.Replaces i f flags
        ({ w with file := dropReference w.file f }.setEntry i ⟨some f, flags⟩).map ↔
      (w.table.entry i).file = some f := by
  rw [map_setEntry]
  constructor
  · rintro (⟨_, heq⟩ | ⟨g, old, hslot, heq⟩)
    · have hfile := congrArg (fun m : FdMap => m.file f) heq
      exact absurd hfile (dropReference_self_ne hlive)
    · have hg : (w.table.entry i).file = some g := by
        simp only [map, Option.map_eq_some_iff] at hslot
        obtain ⟨g', hg', hpair⟩ := hslot
        rw [hg', ← (Prod.mk.inj hpair).1]
      by_cases hsame : g = f
      · rw [hg, hsame]
      · have hfile := congrArg (fun m : FdMap => m.file f) heq
        exact absurd (hfile.trans (dropReference_of_ne (Ne.symm hsame)))
          (dropReference_self_ne hlive)
  · intro hfile
    refine .inr ⟨f, (w.table.entry i).flags, ?_, rfl⟩
    dsimp only [map]
    rw [hfile]
    rfl

section

variable (h : w.table.lock = none)

include h

lemma dupFd2_conforms_iff : (dupFd2 oldfd newfd flags).Conforms w ↔
      (dupFd2 oldfd newfd flags).Apt w := by
  cases hflags : validFlags flags with
  | false =>
    rw [conforms_of_run (dupFd2 oldfd newfd flags) (dupFd2_invalid hflags)]
    refine iff_of_true ?_ fun hvalid => ?_
    · simp [FdMap.Spec, hflags, FdMap.Refuses]
    · simp [hflags] at hvalid
  | true =>
    cases hold : w.lookup oldfd with
    | none =>
      rw [conforms_of_run (dupFd2 oldfd newfd flags) (dupFd2_bad h hflags hold)]
      refine iff_of_true ?_ fun _ _ f hf => ?_
      · rw [FdMap.Spec, if_pos hflags]
        exact .inl ⟨by rw [map_at, hold], rfl, rfl⟩
      · rw [hold] at hf
        cases hf
    | some f =>
      have hat : w.map.at? oldfd = some f := by rw [map_at, hold]
      by_cases hne : oldfd = newfd
      · subst hne
        rw [conforms_of_run (dupFd2 oldfd oldfd flags) (dupFd2_same h hflags hold)]
        refine iff_of_true ?_ fun _ hne => absurd rfl hne
        rw [FdMap.Spec, if_pos hflags]
        exact .inr ⟨f, hat, .inl ⟨rfl, rfl, rfl⟩⟩
      · have hrun : (dupFd2 oldfd newfd flags).run w = _ := dupFd2_other h hflags hold hne
        have hapt : (dupFd2 oldfd newfd flags).Apt w ↔
            w.lookup newfd = some f ∧ w.file f ≠ none := by
          simp [Apt, hflags, hne, hold]
        rw [hapt]
        by_cases hfreed : w.file f = none
        · rw [closeFile_freed hfreed] at hrun
          exact iff_of_false (not_conforms_of_stop hrun) fun hlive => hlive.2 hfreed
        · rw [closeFile_live hfreed] at hrun
          cases hslot : slot newfd with
          | none =>
            rw [hslot] at hrun
            refine iff_of_false (not_conforms_of_stop hrun) ?_
            rintro ⟨hnew, _⟩
            simp [lookup, hslot] at hnew
          | some i =>
            rw [hslot] at hrun
            rw [conforms_of_run _ hrun]
            have hspec := replaces_iff flags i hfreed
            simp [FdMap.Spec, hflags, hat, hne, hslot, lookup, hspec, hfreed]

/-- The map closes an open descriptor as `SysClose` does just when no lower one
has its file. -/
lemma sysClose_open_iff {i : Fin procMaxFd} (hslot : slot fd.toInt = some i)
    (hentry : (w.table.entry i).file = some f) :
    (sysClose fd).Conforms w ↔ (sysClose fd).Apt w := by
  have hfd : w.lookup fd.toInt = some f := by simp [lookup, hslot, hentry]
  have hapt : (sysClose fd).Apt w ↔ w.file f ≠ none ∧ ∀ j < i, (w.table.entry j).file ≠ some f := by
    refine ⟨fun hapt => hapt i f hslot hentry, fun hopen j g hj hg => ?_⟩
    cases hslot.symm.trans hj
    cases hentry.symm.trans hg
    exact hopen
  rw [hapt]
  obtain ⟨j, hfirst⟩ := firstFd_of_lookup hfd
  obtain ⟨hfile, hbefore⟩ := firstFd_eq_some.mp hfirst
  rw [beq_iff_eq] at hfile
  have hrun : (sysClose fd).run w = _ := sysClose_good h hfd hfirst
  by_cases hfreed : w.file f = none
  · rw [closeFile_freed (w := w.clearEntry j) hfreed] at hrun
    exact iff_of_false (not_conforms_of_stop hrun) fun hlive => hlive.1 hfreed
  · rw [closeFile_live (w := w.clearEntry j) hfreed] at hrun
    rw [conforms_of_run _ hrun]
    have hmap : (mk (w.clearEntry j).table
        (dropReference w.file f)).map = (w.map.set j none).close f :=
      congrArg (fun m => FdMap.close m f) (map_setEntry w j _)
    have hat : w.map.at? fd.toInt = some f := by rw [map_at, hfd]
    have hentry' : w.map.slot i = some (f, (w.table.entry i).flags) := by simp [map, hentry]
    have hclears : (w.map.set j none).close f = (w.map.set i none).close f ↔ j = i := by
      refine ⟨fun heq => by_contra fun hne => ?_, fun heq => by rw [heq]⟩
      have hi := congrArg (fun m : FdMap => m.slot i) heq
      simp only [FdMap.close, FdMap.set, Function.update_self,
        Function.update_of_ne (Ne.symm hne), hentry'] at hi
      cases hi
    have hlowest : (∀ k < i, (w.table.entry k).file ≠ some f) ↔ j = i := by
      constructor
      · intro hlow
        rcases lt_trichotomy j i with hlt | heq | hgt
        · exact absurd hfile (hlow j hlt)
        · exact heq
        · simpa [hentry] using hbefore i hgt
      · rintro rfl k hk hk'
        simpa [hk'] using hbefore k hk
    rw [hlowest]
    rw [show (w.clearEntry j).file = w.file from rfl, hmap]
    simp [FdMap.Spec, hat, hslot, hentry', hclears, hfreed]

lemma sysClose_conforms_iff : (sysClose fd).Conforms w ↔ (sysClose fd).Apt w := by
  cases hslot : slot fd.toInt with
  | none =>
    have hfd : w.lookup fd.toInt = none := by simp [lookup, hslot]
    rw [conforms_of_run (sysClose fd) (sysClose_bad h hfd)]
    refine iff_of_true (.inl ⟨?_, rfl, rfl⟩) fun i f hi => ?_
    · rw [map_at, hfd]
    · rw [hslot] at hi
      cases hi
  | some i =>
    cases hentry : (w.table.entry i).file with
    | none =>
      have hfd : w.lookup fd.toInt = none := by simp [lookup, hslot, hentry]
      rw [conforms_of_run (sysClose fd) (sysClose_bad h hfd)]
      refine iff_of_true (.inl ⟨?_, rfl, rfl⟩) fun j f hj hfile => ?_
      · rw [map_at, hfd]
      · cases hslot.symm.trans hj
        rw [hentry] at hfile
        cases hfile
    | some f => exact sysClose_open_iff h hslot hentry

lemma conforms_iff (request : Request) : request.Conforms w ↔ request.Apt w := by
  cases request with
  | createFd f flags => exact createFd_conforms_iff h
  | dupFd oldfd => exact iff_of_true (dupFd_conforms h) trivial
  | dupFd2 oldfd newfd flags => exact dupFd2_conforms_iff h
  | sysClose fd => exact sysClose_conforms_iff h

lemma lock_closeFile (hclose : w.closeFile f = .ok (result, w')) : w'.table.lock = none := by
  by_cases hfreed : w.file f = none
  · cases (closeFile_freed hfreed).symm.trans hclose
  · cases (closeFile_live hfreed).symm.trans hclose
    exact h

lemma lock_dupFd2 (hrun : w.dupFd2 oldfd newfd flags = .ok (result, w')) :
    w'.table.lock = none := by
  cases hflags : validFlags flags with
  | false =>
    cases (dupFd2_invalid hflags).symm.trans hrun
    exact h
  | true =>
    cases hold : w.lookup oldfd with
    | none =>
      cases (dupFd2_bad h hflags hold).symm.trans hrun
      exact h
    | some f =>
      by_cases hne : oldfd = newfd
      · subst hne
        cases (dupFd2_same h hflags hold).symm.trans hrun
        exact h
      · obtain ⟨⟨_, w₁⟩, hclose, hend⟩ := bind_eq_ok
          ((dupFd2_other h hflags hold hne).symm.trans hrun)
        cases hslot : slot newfd with
        | none =>
          rw [hslot] at hend
          cases hend
        | some i =>
          rw [hslot] at hend
          cases hend
          have hlock : w₁.table.lock = none := lock_closeFile h hclose
          exact hlock

lemma lock_sysClose (hrun : w.sysClose fd = .ok (result, w')) : w'.table.lock = none := by
  cases hfd : w.lookup fd.toInt with
  | none =>
    cases (sysClose_bad h hfd).symm.trans hrun
    exact h
  | some f =>
    obtain ⟨i, hfirst⟩ := firstFd_of_lookup hfd
    exact lock_closeFile (w := w.clearEntry i) h ((sysClose_good h hfd hfirst).symm.trans hrun)

/-- A call leaves the mutex abstracted. -/
lemma lock_of_run (hrun : request.run w = .ok (result, w')) : w'.table.lock = none := by
  cases request with
  | createFd f flags =>
    cases hflags : validFlags flags with
    | false =>
      cases (createFd_invalid hflags).symm.trans hrun
      exact h
    | true =>
      cases hfirst : w.table.firstFree with
      | none =>
        cases (createFd_full h hflags hfirst).symm.trans hrun
        exact h
      | some i =>
        obtain ⟨_, _, hend⟩ := bind_eq_ok ((createFd_free h hflags hfirst).symm.trans hrun)
        cases hend
        exact h
  | dupFd oldfd =>
    cases hold : w.lookup oldfd with
    | none =>
      cases (dupFd_bad h hold).symm.trans hrun
      exact h
    | some f =>
      cases hfirst : w.table.firstFree with
      | none =>
        cases (dupFd_full h hold hfirst).symm.trans hrun
        exact h
      | some i =>
        cases (dupFd_free h hold hfirst).symm.trans hrun
        exact h
  | dupFd2 oldfd newfd flags => exact lock_dupFd2 h hrun
  | sysClose fd => exact lock_sysClose h hrun

lemma always_conforms_iff (requests : List Request) :
    Always (fun w request => request.Conforms w) w requests ↔
    Always (fun w request => request.Apt w) w requests := by
  induction requests generalizing w with
  | nil => exact Iff.rfl
  | cons request rest ih =>
    refine and_congr (conforms_iff h request) ?_
    refine forall_congr' fun result => forall_congr' fun w' => ?_
    exact forall_congr' fun hrun => ih (lock_of_run h hrun)

end

end Request

/-- Every call of a sequence does what the map says exactly when every call is
apt where it is made. -/
theorem requests_conform_iff (entry : Fin procMaxFd → Fd) (file : Nat → Option File)
    (requests : List Request) :
    Request.Always (fun w request => request.Conforms w) ⟨⟨none, entry⟩, file⟩ requests ↔
    Request.Always (fun w request => request.Apt w) ⟨⟨none, entry⟩, file⟩ requests :=
  Request.always_conforms_iff rfl requests

/-- Descriptors 0 and 1 have the same file, with two references. -/
def twoDescriptors : World where
  table :=
    { lock := none
      entry := fun i => if i.val < 2 then ⟨some 5, 0⟩ else ⟨none, 0⟩ }
  file := fun f => if f = 5 then some ⟨2, 7, Nat.two_pos⟩ else none

/-- `SysClose(1)` clears slot 0. -/
theorem close_clears_other_slot : ∃ w', (Request.sysClose 1).run twoDescriptors = .ok (.ok 0, w') ∧
    w'.lookup 0 = none ∧ w'.lookup 1 = some 5 ∧
    ¬ Request.Always (fun w request => request.Conforms w) twoDescriptors [.sysClose 1] := by
  have hfirst : twoDescriptors.table.firstFd (fun fd => fd.file == some 5) =
      some ⟨0, by decide⟩ := by
    refine firstFd_eq_some.mpr ⟨rfl, fun j hj => ?_⟩
    exact absurd hj (Nat.not_lt_zero j)
  have hopen : (twoDescriptors.clearEntry ⟨0, by decide⟩).file 5 ≠ none := by
    intro hfreed
    cases hfreed
  have hlookup : twoDescriptors.lookup (1 : BitVec 32).toInt = some 5 := rfl
  have hrun := sysClose_good rfl hlookup hfirst
  refine ⟨_, hrun, rfl, rfl, fun hall => ?_⟩
  have hapt := (Request.conforms_iff rfl _).mp hall.1
  exact (hapt ⟨1, by decide⟩ 5 rfl rfl).2 ⟨0, by decide⟩ Nat.one_pos rfl

end Merlon.Files
