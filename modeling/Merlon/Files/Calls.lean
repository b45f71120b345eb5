/-
What the calls of a descriptor table do when its mutex is abstracted: one lemma
for each call that says when it returns and with which table and files.
-/
import Merlon.Files.Model

namespace Merlon.Files

open Option

variable {w w' : World} {result : Result} {file : Nat → Option File}

lemma mem_descriptors (i : Fin procMaxFd) : i ∈ descriptors := by
  unfold descriptors
  exact List.mem_finRange i

lemma nodup_descriptors : descriptors.Nodup := by
  unfold descriptors
  exact List.nodup_finRange _

namespace FdTable

variable {table : FdTable} {test : Fd → Bool} {i : Fin procMaxFd}

lemma firstFd_eq_some : table.firstFd test = some i ↔
    test (table.entry i) = true ∧ ∀ j < i, test (table.entry j) = false := by
  unfold firstFd descriptors
  rw [List.find?_eq_some_iff_getElem]
  simp only [List.getElem_finRange, Bool.not_eq_true', List.length_finRange]
  refine and_congr_right fun _ => ⟨?_, fun hbefore => ?_⟩
  · rintro ⟨k, hk, rfl, hbefore⟩ j hj
    exact hbefore j hj
  · exact ⟨i, i.isLt, rfl, fun j hj => hbefore ⟨j, hj.trans i.isLt⟩ hj⟩

lemma firstFd_eq_none : table.firstFd test = none ↔ ∀ i, test (table.entry i) = false := by
  unfold firstFd
  rw [List.find?_eq_none]
  exact ⟨fun h i => Bool.not_eq_true _ ▸ h i (mem_descriptors i),
    fun h i _ => by rw [h i]; exact Bool.false_ne_true⟩

lemma firstFree_eq_some : table.firstFree = some i ↔
    (table.entry i).file = none ∧ ∀ j < i, (table.entry j).file ≠ none := by
  unfold firstFree
  rw [firstFd_eq_some]
  simp [ne_none_iff_isSome]

lemma firstFree_eq_none : table.firstFree = none ↔ ∀ i, (table.entry i).file ≠ none := by
  unfold firstFree
  rw [firstFd_eq_none]
  simp [ne_none_iff_isSome]

end FdTable

/-- The file that a descriptor leads to. -/
def World.lookup (w : World) (fd : Int) : Option Nat :=
  (slot fd).bind fun i => (w.table.entry i).file

lemma File.sub_one_pos (old : File) (h : 1 < old.referenceCount) : 0 < old.referenceCount - 1 :=
  Nat.sub_pos_of_lt h

/-- One reference to the file less. -/
def dropReference (file : Nat → Option File) (f : Nat) : Nat → Option File :=
  Function.update file f <| (file f).bind fun old =>
    if h : 1 < old.referenceCount then
      some ⟨old.referenceCount - 1, old.node, old.sub_one_pos h⟩
    else none

lemma dropReference_of_ne {f g : Nat} (hne : g ≠ f) : dropReference file f g = file g :=
  Function.update_of_ne hne ..

/-- The reference of a file that is there is really dropped. -/
lemma dropReference_self_ne {f : Nat}
    (hlive : file f ≠ none) : dropReference file f f ≠ file f := by
  obtain ⟨old, hold⟩ := ne_none_iff_exists'.mp hlive
  unfold dropReference
  rw [Function.update_self, hold, bind_some]
  split
  · intro heq
    have hcount := congrArg File.referenceCount (some.inj heq)
    dsimp only at hcount
    omega
  · intro heq
    cases heq

namespace World

lemma acquireMutex_abstracted (h : w.table.lock = none) : w.acquireMutex = .ok w := by
  unfold acquireMutex
  rw [h]

lemma releaseMutex_abstracted (h : w.table.lock = none) : w.releaseMutex = w := by
  obtain ⟨⟨lock, entry⟩, file⟩ := w
  cases h
  rfl

lemma find_freed {f : Nat} (hfreed : w.file f = none) : w.find f = .error (.useAfterFree f) := by
  unfold find
  rw [hfreed]

lemma find_live {f : Nat} (hlive : w.file f ≠ none) : ∃ file, w.find f = .ok file := by
  obtain ⟨file, hfile⟩ := ne_none_iff_exists'.mp hlive
  refine ⟨file, ?_⟩
  unfold find
  rw [hfile]

lemma closeFile_freed {f : Nat} (hfreed : w.file f = none) :
    w.closeFile f = .error (.useAfterFree f) := by
  unfold closeFile dereferenceFile
  rw [find_freed hfreed]
  rfl

lemma closeFile_live {f : Nat} (hlive : w.file f ≠ none) :
    w.closeFile f = .ok (.ok 0, { w with file := dropReference w.file f }) := by
  obtain ⟨file, hfile⟩ := ne_none_iff_exists'.mp hlive
  unfold closeFile dereferenceFile find dropReference setFile
  rw [hfile]
  dsimp only [ok_bind, bind_some]
  split <;> rfl

lemma getFileFromFd_abstracted (h : w.table.lock = none) (fd : Int) :
    w.getFileFromFd true fd = .ok ((w.lookup fd).elim (.error .ebadf) .ok, w) := by
  unfold getFileFromFd lookup
  cases slot fd with
  | none => rfl
  | some i =>
    dsimp only [bind_some]
    rw [acquireMutex_abstracted h, ok_bind, releaseMutex_abstracted h]
    cases (w.table.entry i).file <;> rfl

/-- The calls look a descriptor up once they have the mutex. -/
lemma locked_lookup {α : Type} (h : w.table.lock = none) (fd : Int)
    (next : Except Errno Nat × World → Except Stop α) :
    (w.acquireMutex >>= fun w => w.getFileFromFd true fd >>= next) =
      next ((w.lookup fd).elim (.error .ebadf) .ok, w) := by
  rw [acquireMutex_abstracted h, ok_bind, getFileFromFd_abstracted h, ok_bind]

section CreateFd

variable {f : Nat} {flags : BitVec 32}

lemma createFd_invalid (hflags : validFlags flags = false) :
    w.createFd f flags = .ok (.error .einval, w) := by
  unfold createFd
  rw [hflags]
  rfl

lemma createFd_full (h : w.table.lock = none) (hflags : validFlags flags = true)
    (hfull : w.table.firstFree = none) : w.createFd f flags = .ok (.error .emfile, w) := by
  unfold createFd
  rw [if_pos hflags, acquireMutex_abstracted h, ok_bind, hfull]
  rw [releaseMutex_abstracted h]

lemma createFd_free {i : Fin procMaxFd} (h : w.table.lock = none)
    (hflags : validFlags flags = true) (hfree : w.table.firstFree = some i) :
    w.createFd f flags = (w.find f >>= fun _ => .ok (.ok i, w.setEntry i ⟨some f, flags⟩)) := by
  have hlock : (w.setEntry i ⟨some f, flags⟩).table.lock = none := h
  unfold createFd
  rw [if_pos hflags, acquireMutex_abstracted h, ok_bind, hfree]
  dsimp only
  rw [releaseMutex_abstracted hlock]
  rfl

end CreateFd

section DupFd

variable {oldfd newfd : Int} {f : Nat} {flags : BitVec 32}

section

variable (h : w.table.lock = none)
include h

lemma dupFd_bad (hold : w.lookup oldfd = none) : w.dupFd oldfd = .ok (.error .ebadf, w) := by
  unfold dupFd
  rw [locked_lookup h, hold]
  dsimp only [elim_none]
  rw [releaseMutex_abstracted h]

lemma dupFd_full (hold : w.lookup oldfd = some f)
    (hfull : w.table.firstFree = none) : w.dupFd oldfd = .ok (.error .emfile, w) := by
  unfold dupFd
  rw [locked_lookup h, hold]
  dsimp only [elim_some]
  rw [hfull]
  rw [releaseMutex_abstracted h]

lemma dupFd_free {i : Fin procMaxFd}
    (hold : w.lookup oldfd = some f) (hfree : w.table.firstFree = some i) :
    w.dupFd oldfd = .ok (.ok i, w.setEntry i ⟨some f, 0⟩) := by
  have hlock : (w.setEntry i ⟨some f, 0⟩).table.lock = none := h
  unfold dupFd
  rw [locked_lookup h, hold]
  dsimp only [elim_some]
  rw [hfree]
  dsimp only
  rw [releaseMutex_abstracted hlock]

end

lemma dupFd2_invalid (hflags : validFlags flags = false) :
    w.dupFd2 oldfd newfd flags = .ok (.error .einval, w) := by
  unfold dupFd2
  rw [hflags]
  rfl

section

variable (h : w.table.lock = none)
include h

section

variable (hflags : validFlags flags = true)
include hflags

lemma dupFd2_bad
    (hold : w.lookup oldfd = none) : w.dupFd2 oldfd newfd flags = .ok (.error .ebadf, w) := by
  unfold dupFd2
  rw [if_pos hflags, locked_lookup h, hold]
  dsimp only [elim_none]
  rw [releaseMutex_abstracted h]

lemma dupFd2_same
    (hold : w.lookup oldfd = some f) : w.dupFd2 oldfd oldfd flags = .ok (.ok 0, w) := by
  unfold dupFd2
  rw [if_pos hflags, locked_lookup h, hold]
  dsimp only [elim_some]
  rw [if_pos rfl, releaseMutex_abstracted h]

/-- The file that is closed is the one that is duplicated. -/
lemma dupFd2_other (hold : w.lookup oldfd = some f) (hne : oldfd ≠ newfd) :
    w.dupFd2 oldfd newfd flags = (w.closeFile f >>= fun closed =>
      (slot newfd).elim (.error (.outOfBounds newfd)) fun i =>
        .ok (.ok 0, closed.2.setEntry i ⟨some f, flags⟩)) := by
  unfold dupFd2
  rw [if_pos hflags, locked_lookup h, hold]
  dsimp only [elim_some]
  rw [if_neg hne, getFileFromFd_abstracted h, hold, ok_bind]
  dsimp only [elim_some]
  by_cases hfreed : w.file f = none
  · rw [closeFile_freed hfreed]
    rfl
  · rw [closeFile_live hfreed]
    cases slot newfd with
    | none => rfl
    | some i =>
      have hlock : ({ w with file := dropReference w.file f }.setEntry i
        ⟨some f, flags⟩).table.lock = none := h
      change Except.ok (Except.ok 0, World.releaseMutex _) = _
      rw [releaseMutex_abstracted hlock]
      rfl

end

end

end DupFd

/-- Some slot is the first with the file of a descriptor. -/
lemma firstFd_of_lookup {fd : Int} {f : Nat} (hfd : w.lookup fd = some f) :
    ∃ i, w.table.firstFd (fun fd => fd.file == some f) = some i := by
  obtain ⟨i, _, hi⟩ := bind_eq_some_iff.mp hfd
  cases hfirst : w.table.firstFd fun fd => fd.file == some f with
  | none =>
    have hnone := FdTable.firstFd_eq_none.mp hfirst i
    simp [hi] at hnone
  | some j => exact ⟨j, rfl⟩

lemma sysClose_bad {fd : BitVec 32} (h : w.table.lock = none) (hfd : w.lookup fd.toInt = none) :
    w.sysClose fd = .ok (.error .ebadf, w) := by
  unfold sysClose
  rw [getFileFromFd_abstracted h, hfd]
  rfl

/-- The slot that is cleared is the first with the file. -/
lemma sysClose_good {fd : BitVec 32} {f : Nat} {i : Fin procMaxFd}
    (h : w.table.lock = none) (hfd : w.lookup fd.toInt = some f)
    (hfirst : w.table.firstFd (fun fd => fd.file == some f) = some i) :
    w.sysClose fd = (w.clearEntry i).closeFile f := by
  have hlock : (w.clearEntry i).table.lock = none := h
  unfold sysClose removeFd
  rw [getFileFromFd_abstracted h, hfd, ok_bind]
  dsimp only [elim_some]
  rw [acquireMutex_abstracted h, ok_bind, hfirst]
  dsimp only
  by_cases hfreed : w.file f = none
  · have hfreed' : (w.clearEntry i).file f = none := hfreed
    rw [find_freed hfreed', closeFile_freed hfreed']
    rfl
  · obtain ⟨file, hfind⟩ := find_live (w := w.clearEntry i) hfreed
    rw [hfind, releaseMutex_abstracted hlock]
    rfl

end World

end Merlon.Files
