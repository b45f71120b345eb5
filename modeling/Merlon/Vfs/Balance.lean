/-
Whether opening and closing a file, and failing to open or remove one, keeps the
reference counts of the vnodes that were there before.
-/
import Merlon.Vfs.References

namespace Merlon.Paths

/-- `CloseFile` on a file that no other reference is held to. -/
def closeFile (file : File) : List RefOp :=
  [.dereference file.node, .dereference file.node]

namespace FileSystems

variable {fs : FileSystems} {existed : Nat → Prop} {flags : BitVec 32} {mode : Nat}

def removeFileOrDirectory (fs : FileSystems) (path : List UInt8)
    (rmdir : Bool) : Except Errno Unit × List RefOp :=
  let found := fs.getVnodeFromPath path false
  match found.1 with
  | .error errno => (.error errno, found.2)
  | .ok node =>
    let isDir := fs.fileType node = .directory
    if rmdir ∧ ¬ isDir then (.error .enotdir, found.2)
    else if ¬ rmdir ∧ isDir then (.error .eisdir, found.2)
    else
      let res :=
        if rmdir then orInvalid (fs.delete node)
        else if fs.linked node then orInvalid (fs.unlink node)
        else .error .enoent
      (res, found.2 ++ [.dereference node])

/-- Opening and then closing a file, or failing to open it, keeps the counts of
the vnodes that existed. -/
def OpenBalanced (fs : FileSystems) (existed : Nat → Prop)
    (path : Option (List UInt8)) (flags : BitVec 32) (mode : Nat) (out : Bool) : Prop :=
  match (fs.openFile path flags mode out).outcome with
  | .opened file => Restores existed ((fs.openFile path flags mode out).refs ++ closeFile file)
  | .failed _ => Restores existed (fs.openFile path flags mode out).refs
  | .undefined => False

/-- Failing to remove a file or directory keeps the counts of the vnodes that
existed. -/
def RemoveBalanced (fs : FileSystems) (existed : Nat → Prop)
    (path : List UInt8) (rmdir : Bool) : Prop :=
  ∀ errno, (fs.removeFileOrDirectory path rmdir).1 = .error errno →
    Restores existed (fs.removeFileOrDirectory path rmdir).2

/-- `OpenFile` comes to the truncation of a regular file. -/
def Truncates (fs : FileSystems) (node : Nat) (flags : BitVec 32) : Prop :=
  fs.vnodeOpCheckOpen node (flags &&& (oAccmode ||| oNonblock)) = .ok () ∧
    has flags oTrunc = true ∧ fs.fileType node = .regular

/-- None of the returns of `OpenFile` that keep a reference is taken. -/
def OpensCleanly (fs : FileSystems) (path : List UInt8) (flags : BitVec 32) : Prop :=
  match (fs.getVnodeFromPath path false).1 with
  | .error errno => ¬ (has flags oCreat = true ∧ has flags oExcl = false ∧ errno ≠ .enoent)
  | .ok node => ¬ (has flags oCreat = true ∧ has flags oExcl = true) ∧ ¬ fs.Truncates node flags

/-- A file that is found is of the kind that is to be removed. -/
def RemovesCleanly (fs : FileSystems) (path : List UInt8) (rmdir : Bool) :
    Prop :=
  ∀ node, (fs.getVnodeFromPath path false).1 = .ok node →
    (rmdir = true ↔ fs.fileType node = .directory)

/-- The file is found, is of the right kind and is removed. -/
def Removes (fs : FileSystems) (path : List UInt8) (rmdir : Bool) : Prop :=
  ∃ node, (fs.getVnodeFromPath path false).1 = .ok node ∧
    (rmdir = true ↔ fs.fileType node = .directory) ∧
    (rmdir = true → fs.delete node = some (.ok ())) ∧
    (rmdir = false → fs.linked node = true ∧ fs.unlink node = some (.ok ()))

/-- How `openNode` treats the reference that it is given. -/
lemma openNode_refs (fs : FileSystems) (node : Nat) (flags : BitVec 32) (mode : Nat) :
    ((∃ file, (fs.openNode node flags mode).1 = .opened file) ∧
        (fs.openNode node flags mode).2 = [.reference node] ∧ ¬ fs.Truncates node flags) ∨
      ((∃ errno, (fs.openNode node flags mode).1 = .failed errno) ∧
        (fs.openNode node flags mode).2 = [.dereference node] ∧ ¬ fs.Truncates node flags) ∨
      ((∃ errno, (fs.openNode node flags mode).1 = .failed errno) ∧
        (fs.openNode node flags mode).2 = [] ∧ fs.Truncates node flags) := by
  unfold openNode Truncates
  dsimp only
  split
  · rename_i errno hcheck
    refine .inr (.inl ⟨⟨errno, rfl⟩, rfl, fun h => ?_⟩)
    rw [hcheck] at h
    cases h.1
  · rename_i hcheck
    split
    · rename_i hdirectory
      refine .inr (.inl ⟨⟨_, rfl⟩, rfl, fun h => ?_⟩)
      rw [hdirectory.1] at h
      cases h.2.2
    · split
      · rename_i htrunc
        refine .inr (.inr ?_)
        split
        · split
          · exact ⟨⟨_, rfl⟩, rfl, hcheck, htrunc⟩
          · exact ⟨⟨_, rfl⟩, rfl, hcheck, htrunc⟩
        · exact ⟨⟨_, rfl⟩, rfl, hcheck, htrunc⟩
      · rename_i htrunc
        exact .inl ⟨⟨_, rfl⟩, rfl, fun h => htrunc h.2⟩

variable {path : List UInt8} {node : Nat} {rmdir : Bool}

section

variable (hrooted : fs.Rooted existed)
include hrooted

lemma openBalanced_of_ok (hpath : path ≠ [])
    (hfound : (fs.getVnodeFromPath path false).1 = .ok node) :
    fs.OpenBalanced existed (some path) flags mode true ↔ fs.Returns existed path ∧
    ¬ (has flags oCreat = true ∧ has flags oExcl = true) ∧ ¬ fs.Truncates node flags := by
  obtain ⟨hreturns, hkept⟩ := restores_of_ok hrooted hfound
  have hopen : fs.openFile (some path) flags mode true = _ := openFile_of_ok hpath hfound
  unfold OpenBalanced
  split at hopen
  · rename_i hexcl
    rw [hopen]
    exact iff_of_false hkept fun h => h.2.1 hexcl
  · rename_i hexcl
    rw [hopen]
    dsimp only
    rcases fs.openNode_refs node flags mode with
      ⟨⟨file, houtcome⟩, hrefs, htrunc⟩ | ⟨⟨errno, houtcome⟩, hrefs, htrunc⟩ |
        ⟨⟨errno, houtcome⟩, hrefs, htrunc⟩
    · rw [houtcome, hrefs]
      have hsame : ∀ other, change other
          ((fs.getVnodeFromPath path false).2 ++ [.reference node] ++ closeFile file) =
          change other ((fs.getVnodeFromPath path false).2 ++ [.dereference node]) := by
        intro other
        simp only [change_append, closeFile, openNode_opened houtcome, change]
        split <;> omega
      dsimp only
      rw [restores_congr hsame, hreturns]
      exact ⟨fun h => ⟨h, hexcl, htrunc⟩, And.left⟩
    · rw [houtcome, hrefs]
      dsimp only
      rw [hreturns]
      exact ⟨fun h => ⟨h, hexcl, htrunc⟩, And.left⟩
    · rw [houtcome, hrefs]
      dsimp only
      rw [List.append_nil]
      exact iff_of_false hkept fun h => h.2.2 htrunc

lemma openBalanced_of_error (hpath : path ≠ []) {errno : Errno}
    (hfailed : (fs.getVnodeFromPath path false).1 = .error errno) :
    fs.OpenBalanced existed (some path) flags mode true ↔ fs.Returns existed path ∧
    ¬ (has flags oCreat = true ∧ has flags oExcl = false ∧ errno ≠ .enoent) := by
  have hreturns := restores_of_error hrooted hfailed
  have hopen : fs.openFile (some path) flags mode true = _ := openFile_of_error hpath hfailed
  unfold OpenBalanced
  split at hopen
  · rename_i hcreat
    split at hopen
    · rename_i henoent
      have hcreate : fs.createMissing path flags mode =
          ⟨.failed errno, (fs.getVnodeFromPath path false).2, []⟩ := by
        unfold createMissing
        dsimp only
        rw [getVnodeFromPath_parent hfailed, hfailed]
      rw [hopen, hcreate]
      dsimp only
      rw [restores_twice, hreturns]
      exact ⟨fun h => ⟨h, fun hforgets => hforgets.2.2 henoent⟩, And.left⟩
    · rename_i hother
      split at hopen
      · rename_i hexcl
        rw [hopen]
        dsimp only
        rw [hreturns]
        refine ⟨fun h => ⟨h, fun hforgets => ?_⟩, And.left⟩
        rw [hforgets.2.1] at hexcl
        cases hexcl
      · rename_i hexcl
        rw [hopen]
        exact iff_of_false id fun h => h.2 ⟨hcreat, Bool.eq_false_iff.mpr hexcl, hother⟩
  · rename_i hcreat
    rw [hopen]
    dsimp only
    rw [hreturns]
    exact ⟨fun h => ⟨h, fun hforgets => hcreat hforgets.1⟩, And.left⟩

/-- When opening a file is balanced. -/
lemma openBalanced_iff (path : Option (List UInt8)) (flags : BitVec 32) (mode : Nat) (out : Bool) :
    fs.OpenBalanced existed path flags mode out ↔ ∀ text, path = some text → text ≠ [] →
    out = true → fs.Returns existed text ∧ fs.OpensCleanly text flags := by
  by_cases hvalid : out = true ∧ ∃ text, path = some text ∧ text ≠ []
  · obtain ⟨rfl, text, rfl, htext⟩ := hvalid
    have hsame : fs.OpenBalanced existed (some text) flags mode true ↔
        fs.Returns existed text ∧ fs.OpensCleanly text flags := by
      unfold OpensCleanly
      cases hfound : (fs.getVnodeFromPath text false).1 with
      | ok node => exact openBalanced_of_ok hrooted htext hfound
      | error errno => exact openBalanced_of_error hrooted htext hfound
    rw [hsame]
    constructor
    · rintro h other hother - -
      cases hother
      exact h
    · intro h
      exact h text rfl htext rfl
  · refine iff_of_true ?_ fun text hpath htext hout => absurd ⟨hout, text, hpath, htext⟩ hvalid
    unfold OpenBalanced
    rw [openFile_of_invalid hvalid]
    exact .nil existed

end

/-- A file of the wrong kind is not given back. -/
lemma removeFileOrDirectory_kind (fs : FileSystems)
    (hfound : (fs.getVnodeFromPath path false).1 = .ok node)
    (hkind : ¬ (rmdir = true ↔ fs.fileType node = .directory)) :
    ∃ errno, fs.removeFileOrDirectory path rmdir =
      (.error errno, (fs.getVnodeFromPath path false).2) := by
  unfold removeFileOrDirectory
  dsimp only
  rw [hfound]
  dsimp only
  cases rmdir with
  | false =>
    have hdirectory : fs.fileType node = .directory := by
      by_contra hother
      exact hkind (iff_of_false Bool.false_ne_true hother)
    refine ⟨.eisdir, ?_⟩
    rw [if_neg (fun h => Bool.false_ne_true h.1), if_pos ⟨Bool.false_ne_true, hdirectory⟩]
  | true =>
    refine ⟨.enotdir, if_pos ⟨rfl, fun hdirectory => hkind ?_⟩⟩
    exact iff_of_true rfl hdirectory

/-- A file of the right kind is given back, whether it is removed or not. -/
lemma removeFileOrDirectory_of_kind (fs : FileSystems)
    (hfound : (fs.getVnodeFromPath path false).1 = .ok node)
    (hkind : rmdir = true ↔ fs.fileType node = .directory) :
    fs.removeFileOrDirectory path rmdir = (if rmdir then orInvalid (fs.delete node)
        else if fs.linked node then orInvalid (fs.unlink node)
        else .error .enoent,
        (fs.getVnodeFromPath path false).2 ++ [.dereference node]) := by
  unfold removeFileOrDirectory
  dsimp only
  rw [hfound]
  dsimp only
  rw [if_neg (fun h => h.2 (hkind.mp h.1)), if_neg (fun h => h.1 (hkind.mpr h.2))]

lemma orInvalid_eq_ok {outcome : Option (Except Errno Unit)} :
    orInvalid outcome = .ok () ↔ outcome = some (.ok ()) := by
  cases outcome with
  | none => exact iff_of_false nofun nofun
  | some outcome => exact ⟨congrArg some, Option.some.inj⟩

lemma removes_iff (hfound : (fs.getVnodeFromPath path false).1 = .ok node)
    (hkind : rmdir = true ↔ fs.fileType node = .directory) :
    fs.Removes path rmdir ↔ (fs.removeFileOrDirectory path rmdir).1 = .ok () := by
  rw [fs.removeFileOrDirectory_of_kind hfound hkind]
  dsimp only
  constructor
  · rintro ⟨other, hother, -, hdelete, hunlink⟩
    rw [hfound] at hother
    cases hother
    cases rmdir with
    | false =>
      rw [if_neg Bool.false_ne_true, if_pos (hunlink rfl).1, orInvalid_eq_ok]
      exact (hunlink rfl).2
    | true =>
      rw [if_pos rfl, orInvalid_eq_ok]
      exact hdelete rfl
  · intro h
    refine ⟨node, hfound, hkind, ?_, ?_⟩
    · rintro rfl
      rw [if_pos rfl, orInvalid_eq_ok] at h
      exact h
    · rintro rfl
      rw [if_neg Bool.false_ne_true] at h
      split at h
      · rename_i hlinked
        exact ⟨hlinked, orInvalid_eq_ok.mp h⟩
      · cases h

lemma removeBalanced_of_kind (fs : FileSystems)
    (hfound : (fs.getVnodeFromPath path false).1 = .ok node)
    (hkind : rmdir = true ↔ fs.fileType node = .directory) : fs.RemoveBalanced existed path rmdir ↔
    Restores existed ((fs.getVnodeFromPath path false).2 ++ [.dereference node]) ∨
    fs.Removes path rmdir := by
  have hrefs : (fs.removeFileOrDirectory path rmdir).2 =
      (fs.getVnodeFromPath path false).2 ++ [.dereference node] := by
    rw [fs.removeFileOrDirectory_of_kind hfound hkind]
  unfold RemoveBalanced
  rw [removes_iff hfound hkind, hrefs]
  cases (fs.removeFileOrDirectory path rmdir).1 with
  | error errno => exact ⟨fun h => .inl (h errno rfl), fun h _ _ => h.resolve_right nofun⟩
  | ok _ => exact iff_of_true nofun (.inr rfl)

/-- When failing to remove a file is balanced. -/
lemma removeBalanced_iff (hrooted : fs.Rooted existed) (path : List UInt8) (rmdir : Bool) :
    fs.RemoveBalanced existed path rmdir ↔
    (fs.Returns existed path ∧ fs.RemovesCleanly path rmdir) ∨ fs.Removes path rmdir := by
  cases hfound : (fs.getVnodeFromPath path false).1 with
  | error errno =>
    have hremove : fs.removeFileOrDirectory path rmdir =
        (.error errno, (fs.getVnodeFromPath path false).2) := by
      unfold removeFileOrDirectory
      dsimp only
      rw [hfound]
    have hclean : fs.RemovesCleanly path rmdir := by
      intro node hnode
      rw [hfound] at hnode
      cases hnode
    have hnot : ¬ fs.Removes path rmdir := by
      rintro ⟨node, hnode, -⟩
      rw [hfound] at hnode
      cases hnode
    rw [or_iff_left hnot, and_iff_left hclean, ← restores_of_error hrooted hfound]
    unfold RemoveBalanced
    rw [hremove]
    exact ⟨fun h => h errno rfl, fun h _ _ => h⟩
  | ok node =>
    obtain ⟨hreturns, hkept⟩ := restores_of_ok hrooted hfound
    by_cases hkind : rmdir = true ↔ fs.fileType node = .directory
    · have hclean : fs.RemovesCleanly path rmdir := by
        intro other hother
        rw [hfound] at hother
        cases hother
        exact hkind
      rw [and_iff_left hclean, ← hreturns]
      exact fs.removeBalanced_of_kind hfound hkind
    · refine iff_of_false (fun h => hkept ?_) ?_
      · obtain ⟨errno, hremove⟩ := fs.removeFileOrDirectory_kind hfound hkind
        have hrestores := h errno
        rw [hremove] at hrestores
        exact hrestores rfl
      · rintro (h | ⟨other, hother, hsame, -⟩)
        · exact hkind (h.2 node hfound)
        · rw [hfound] at hother
          cases hother
          exact hkind hsame

/-- The counts of the vnodes that existed are kept exactly when the walk ends
where it started and counts none of them, and no return is taken that keeps the
reference to the vnode that was found. -/
theorem references_balanced_iff (fs : FileSystems) (existed : Nat → Prop)
    (hrooted : fs.Rooted existed) :
    (∀ path flags mode out, fs.OpenBalanced existed path flags mode out ↔
        ∀ text, path = some text → text ≠ [] → out = true →
          fs.Returns existed text ∧ fs.OpensCleanly text flags) ∧
    ∀ path rmdir, fs.RemoveBalanced existed path rmdir ↔
        (fs.Returns existed path ∧ fs.RemovesCleanly path rmdir) ∨ fs.Removes path rmdir :=
  ⟨openBalanced_iff hrooted, removeBalanced_iff hrooted⟩

/-- A device `a` whose root, the vnode 0, has one file `b`; following to it
makes a new vnode. -/
def oneFile : FileSystems :=
  { nothingMounted with
    mountPoint := fun name => if name = [97] then some 0 else none
    follow := fun node =>
      if node = 0 then
        some fun name =>
          if name = [98] then .ok ⟨1, .fresh⟩ else .error .enoent
      else none }

lemma oneFile_rooted : oneFile.Rooted (fun node => node = 0) where
  mounted name root hroot := by
    unfold oneFile at hroot
    dsimp only at hroot
    split at hroot
    · cases hroot
      rfl
    · cases hroot
  working cwd hcwd := by cases hcwd

/-- A lookup that fails at its first step is balanced, and opening and closing
the file `b` is not. -/
theorem oneFile_balance :
    oneFile.OpenBalanced (fun node => node = 0) (some [97, colon, 99]) 0 0 true ∧
    ¬ oneFile.OpenBalanced (fun node => node = 0) (some [97, colon, 98]) 0 0 true := by
  have hbalanced := (references_balanced_iff oneFile _ oneFile_rooted).1
  constructor
  · rw [hbalanced]
    rintro text htext - -
    cases htext
    refine ⟨fun _ start rest hstart => ?_, ?_⟩
    · cases hstart
      exact ⟨rfl, nofun⟩
    · exact fun hforgets : has 0 oCreat = true ∧ _ => absurd hforgets.1 (by decide)
  · rw [hbalanced]
    intro h
    have hreturns := (h _ rfl (by decide) rfl).1 (by decide) 0 [98] rfl
    exact absurd hreturns.1 (by decide)

/-- Opening and closing `b` leaves one reference to the root more. -/
theorem oneFile_leaks :
    ∃ file, (oneFile.openFile (some [97, colon, 98]) 0 0 true).outcome = .opened file ∧
    change 0 ((oneFile.openFile (some [97, colon, 98]) 0 0 true).refs ++ closeFile file) = 1 :=
  ⟨⟨1, 0, 0, true, false⟩, by decide, by decide⟩

end FileSystems

end Merlon.Paths
