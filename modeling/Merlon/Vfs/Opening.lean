/-
Which vnode `OpenFile` works on.  A lookup that fails with an error other than
`ENOENT` leaves the variable for the node unassigned when `O_CREAT` is given
without `O_EXCL`; and the parent of a missing file is looked for by a second
walk over the same path, which fails as the first did.
-/
import Merlon.Vfs.PathWalk

namespace Merlon.Paths

namespace FileSystems

variable {fs : FileSystems} {flags : BitVec 32} {mode : Nat} {path : List UInt8}
  {node : Nat} {errno : Errno}

lemma openNode_ne_undefined (fs : FileSystems) (node : Nat) (flags : BitVec 32) (mode : Nat) :
    (fs.openNode node flags mode).1 ≠ .undefined := by
  unfold openNode
  dsimp only
  repeat' split
  all_goals exact Outcome.noConfusion

lemma openNode_opened {file : File}
    (h : (fs.openNode node flags mode).1 = .opened file) : file.node = node := by
  unfold openNode at h
  dsimp only at h
  repeat' split at h
  all_goals cases h
  rfl

/-- The file is on a vnode that was found, or that the parent directory has
just created. -/
def Resolves (fs : FileSystems) (path : List UInt8) (result : Opening) (file : File) : Prop :=
  (fs.getVnodeFromPath path false).1 = .ok file.node ∨ ∃ creation ∈ result.creations,
    (fs.getVnodeFromPath path true).1 = .ok creation.directory ∧ fs.vnodeOpCreate creation.directory
    creation.name creation.flags creation.mode = .ok file.node

/-- `OpenFile` works only on a vnode that was found or created, and reports
every failed lookup other than that of a missing file with `O_CREAT`. -/
structure UsesResolved (fs : FileSystems) (path : Option (List UInt8))
    (flags : BitVec 32) (mode : Nat) (out : Bool) : Prop where
  defined : (fs.openFile path flags mode out).outcome ≠ .undefined
  resolved : ∀ file, (fs.openFile path flags mode out).outcome = .opened file →
    ∃ text, path = some text ∧ fs.Resolves text (fs.openFile path flags mode out) file
  reported : ∀ text errno, path = some text → (fs.getVnodeFromPath text false).1 = .error errno →
    ¬ (errno = .enoent ∧ has flags oCreat = true) →
    ∃ reported, (fs.openFile path flags mode out).outcome = .failed reported

/-- The flags that let an error other than `ENOENT` pass. -/
def Forgets (fs : FileSystems) (path : Option (List UInt8))
    (flags : BitVec 32) (out : Bool) : Prop :=
  out = true ∧ has flags oCreat = true ∧ has flags oExcl = false ∧ ∃ text errno, path = some text ∧
    text ≠ [] ∧ (fs.getVnodeFromPath text false).1 = .error errno ∧ errno ≠ .enoent

/-- What `createMissing` ends with. -/
lemma createMissing_resolves (fs : FileSystems) (path : List UInt8)
    (flags : BitVec 32) (mode : Nat) : (fs.createMissing path flags mode).outcome ≠ .undefined ∧
    ∀ file, (fs.createMissing path flags mode).outcome = .opened file →
      ∃ creation ∈ (fs.createMissing path flags mode).creations,
        (fs.getVnodeFromPath path true).1 = .ok creation.directory ∧
        fs.vnodeOpCreate creation.directory creation.name creation.flags
          creation.mode = .ok file.node := by
  unfold createMissing
  dsimp only
  split
  · exact ⟨Outcome.noConfusion, nofun⟩
  · rename_i parent hparent
    split
    · exact ⟨Outcome.noConfusion, nofun⟩
    · split
      · exact ⟨Outcome.noConfusion, nofun⟩
      · rename_i child hchild
        refine ⟨openNode_ne_undefined fs child flags mode, fun file hfile => ?_⟩
        refine ⟨_, List.mem_singleton.mpr rfl, hparent, ?_⟩
        rw [openNode_opened hfile]
        exact hchild

lemma openFile_of_ok (hpath : path ≠ []) (hfound : (fs.getVnodeFromPath path false).1 = .ok node) :
    fs.openFile (some path) flags mode true =
      if has flags oCreat ∧ has flags oExcl then
        ⟨.failed .eexist, (fs.getVnodeFromPath path false).2, []⟩
      else
        ⟨(fs.openNode node flags mode).1, (fs.getVnodeFromPath path false).2 ++
            (fs.openNode node flags mode).2, []⟩ := by
  unfold openFile
  dsimp only
  rw [if_neg (by simp [hpath]), hfound]

lemma openFile_of_error (hpath : path ≠ [])
    (hfailed : (fs.getVnodeFromPath path false).1 = .error errno) :
    fs.openFile (some path) flags mode true =
      if has flags oCreat then
        if errno = .enoent then
          { fs.createMissing path flags mode with
            refs := (fs.getVnodeFromPath path false).2 ++ (fs.createMissing path flags mode).refs }
        else if has flags oExcl then
          ⟨.failed .eexist, (fs.getVnodeFromPath path false).2, []⟩
        else ⟨.undefined, (fs.getVnodeFromPath path false).2, []⟩
      else ⟨.failed errno, (fs.getVnodeFromPath path false).2, []⟩ := by
  unfold openFile
  dsimp only
  rw [if_neg (by simp [hpath]), hfailed]

/-- A path or a place for the file is missing. -/
lemma openFile_of_invalid {path : Option (List UInt8)} {out : Bool}
    (h : ¬ (out = true ∧ ∃ text, path = some text ∧ text ≠ [])) :
    fs.openFile path flags mode out = ⟨.failed .einval, [], []⟩ := by
  unfold openFile
  cases path with
  | none => rfl
  | some text =>
    dsimp only
    rw [if_pos]
    by_contra hvalid
    obtain ⟨hout, htext⟩ := not_or.mp hvalid
    exact h ⟨Bool.not_eq_false _ ▸ hout, text, rfl, htext⟩

lemma UsesResolved.of_failed {path : Option (List UInt8)} {out : Bool}
    (h : (fs.openFile path flags mode out).outcome = .failed errno) :
    fs.UsesResolved path flags mode out where
  defined := by
    rw [h]
    exact Outcome.noConfusion
  resolved file hfile := by
    rw [h] at hfile
    cases hfile
  reported text _ _ _ _ := ⟨errno, h⟩

lemma usesResolved_of_ok (hpath : path ≠ [])
    (hfound : (fs.getVnodeFromPath path false).1 = .ok node) :
    fs.UsesResolved (some path) flags mode true := by
  have hopen : fs.openFile (some path) flags mode true = _ := openFile_of_ok hpath hfound
  split at hopen
  · exact .of_failed (congrArg Opening.outcome hopen)
  · refine ⟨?_, fun file hfile => ⟨path, rfl, .inl ?_⟩, ?_⟩
    · rw [hopen]
      exact openNode_ne_undefined fs node flags mode
    · rw [hopen] at hfile
      rw [hfound, openNode_opened hfile]
    · intro text errno htext hfailed
      cases htext
      rw [hfound] at hfailed
      cases hfailed

lemma usesResolved_of_enoent (hpath : path ≠ [])
    (hfailed : (fs.getVnodeFromPath path false).1 = .error .enoent)
    (hcreat : has flags oCreat = true) : fs.UsesResolved (some path) flags mode true := by
  have hopen : fs.openFile (some path) flags mode true = _ := openFile_of_error hpath hfailed
  rw [if_pos hcreat] at hopen
  obtain ⟨hdefined, hresolved⟩ := fs.createMissing_resolves path flags mode
  refine ⟨?_, fun file hfile => ⟨path, rfl, .inr ?_⟩, ?_⟩
  · rw [hopen]
    exact hdefined
  · rw [hopen] at hfile ⊢
    exact hresolved file hfile
  · intro text errno htext herrno hother
    cases htext
    rw [hfailed] at herrno
    cases herrno
    exact absurd ⟨rfl, hcreat⟩ hother

/-- `OpenFile` works only on a vnode that was found or created, and reports
every other failed lookup, exactly when it is not that a lookup fails with an
error other than `ENOENT` and `O_CREAT` is given without `O_EXCL`. -/
theorem openFile_usesResolved_iff (fs : FileSystems)
    (path : Option (List UInt8)) (flags : BitVec 32) (mode : Nat) (out : Bool) :
    fs.UsesResolved path flags mode out ↔ ¬ fs.Forgets path flags out := by
  constructor
  · rintro huses ⟨rfl, hcreat, hexcl, text, errno, rfl, htext, hfailed, hother⟩
    refine huses.defined ?_
    rw [openFile_of_error htext hfailed, if_pos hcreat, if_neg hother,
      if_neg (by rw [hexcl]; exact Bool.false_ne_true)]
  · intro hremembers
    by_cases hvalid : out = true ∧ ∃ text, path = some text ∧ text ≠ []
    · obtain ⟨rfl, text, rfl, htext⟩ := hvalid
      cases hfound : (fs.getVnodeFromPath text false).1 with
      | ok node => exact usesResolved_of_ok htext hfound
      | error errno =>
        have hopen : fs.openFile (some text) flags mode true = _ := openFile_of_error htext hfound
        split at hopen
        · rename_i hcreat
          split at hopen
          · rename_i henoent
            subst henoent
            exact usesResolved_of_enoent htext hfound hcreat
          · rename_i hother
            split at hopen
            · exact .of_failed (congrArg Opening.outcome hopen)
            · rename_i hexcl
              exact absurd ⟨rfl, hcreat, Bool.eq_false_iff.mpr hexcl, text,
                errno, rfl, htext, hfound, hother⟩ hremembers
        · exact .of_failed (congrArg Opening.outcome hopen)
    · exact .of_failed (congrArg Opening.outcome (openFile_of_invalid hvalid))

/-- Nothing is mounted, and there is no process. -/
def nothingMounted : FileSystems where
  mountPoint := fun _ => none
  process := none
  follow := fun _ => none
  create := fun _ => none
  checkOpen := fun _ => none
  truncate := fun _ => none
  unlink := fun _ => none
  delete := fun _ => none
  fileType := fun _ => .other
  linked := fun _ => false

/-- With `O_CREAT`, a path on a device that is not mounted leaves the node
unassigned. -/
theorem nothingMounted_undefined :
    (nothingMounted.getVnodeFromPath [97, colon, 98] false).1 = .error .enodev ∧
    (nothingMounted.openFile (some [97, colon, 98]) oCreat 0 true).outcome = .undefined := by
  decide

end FileSystems

end Merlon.Paths
