/-
Creating files with `O_CREAT`.  A path is spelled by its names with slashes
between and after them; the walk over it follows the names one by one, so that
it fails at a name that is missing, also when only the parent is wanted.
-/
import Merlon.Vfs.Opening

namespace Merlon.Paths

open List

variable {name : List UInt8}

/-- A name that a component of a path may have. -/
structure ValidName (name : List UInt8) : Prop where
  nonempty : name ≠ []
  good : ∀ c ∈ name, isBad c = false
  length : name.length < maxComponentLength

/-- A text spells some names: there is at least one slash between two names,
and any number at the end. -/
inductive Spelled : List (List UInt8) → List UInt8 → Prop
  | last {name : List UInt8} (hname : ValidName name) (slashes : Nat) :
      Spelled [name] (name ++ replicate slashes slash)
  | cons {name : List UInt8} {names : List (List UInt8)} {text : List UInt8}
      (hname : ValidName name) (slashes : Nat) (rest : Spelled names text) :
      Spelled (name :: names) (name ++ (replicate (slashes + 1) slash ++ text))

lemma ne_slash_of_not_isBad {c : UInt8} (h : isBad c = false) : c ≠ slash := by
  rintro rfl
  cases h

/-- A name is copied up to the delimiter. -/
lemma copyComponent_name {maxLen : Nat} {delimiter : UInt8}
    {out rest : List UInt8} (hname : ∀ c ∈ name, c ≠ delimiter)
    (hlength : out.length + name.length < maxLen) (hrest : ∀ c ∈ rest.head?, c = delimiter) :
    copyComponent maxLen delimiter out (name ++ rest) = .ok (out ++ name, rest) := by
  induction name generalizing out with
  | nil =>
    rw [append_nil]
    cases rest with
    | nil => rfl
    | cons c rest => exact if_pos (hrest c rfl)
  | cons c name ih =>
    rw [length_cons] at hlength
    have hlater : copyComponent maxLen delimiter (out ++ [c]) (name ++ rest) = _ := ih
      (fun other hother => hname other (mem_cons_of_mem c hother))
      (by rw [length_append, length_singleton]; omega)
    rw [append_assoc] at hlater
    rw [cons_append]
    unfold copyComponent
    rw [if_neg (hname c mem_cons_self), if_neg (by omega)]
    exact hlater

lemma checkValidComponentName_valid
    (hname : ValidName name) : checkValidComponentName name = .ok () := by
  unfold checkValidComponentName
  rw [if_neg hname.nonempty, if_neg]
  rw [any_eq_true]
  rintro ⟨c, hmem, hbad⟩
  rw [hname.good c hmem] at hbad
  cases hbad

lemma getPathComponent_name {delimiter : UInt8} {rest : List UInt8} (hname : ValidName name)
    (hdelimiter : isBad delimiter = true) (hrest : ∀ c ∈ rest.head?, c = delimiter) :
    getPathComponent (name ++ rest) maxComponentLength delimiter =
      .ok (name, skipDelimiter rest) := by
  have hdiffers : ∀ c ∈ name, c ≠ delimiter := by
    rintro c hmem rfl
    rw [hname.good c hmem] at hdelimiter
    cases hdelimiter
  have hlength : ([] : List UInt8).length + name.length < maxComponentLength := by
    rw [length_nil, Nat.zero_add]
    exact hname.length
  unfold getPathComponent
  rw [copyComponent_name hdiffers hlength hrest]
  dsimp only
  rw [nil_append, checkValidComponentName_valid hname]

lemma dropWhile_slashes (slashes : Nat) (text : List UInt8) (htext : ∀ c ∈ text.head?, c ≠ slash) :
    (replicate slashes slash ++ text).dropWhile (fun c => c == slash) = text := by
  induction slashes with
  | zero =>
    rw [replicate_zero, nil_append]
    cases text with
    | nil => rfl
    | cons c rest =>
      rw [dropWhile_cons_of_neg]
      rw [beq_iff_eq]
      exact htext c rfl
  | succ slashes ih =>
    rw [replicate_succ, cons_append, dropWhile_cons_of_pos]
    · exact ih
    · exact beq_self_eq_true slash

/-- A path does not start with a slash. -/
lemma ValidName.head_ne_slash (hname : ValidName name)
    (rest : List UInt8) : ∀ c ∈ (name ++ rest).head?, c ≠ slash := by
  intro c hc
  obtain ⟨start, tail, rfl⟩ := exists_cons_of_ne_nil hname.nonempty
  cases hc
  exact ne_slash_of_not_isBad (hname.good c mem_cons_self)

lemma Spelled.head_ne_slash {names : List (List UInt8)} {text : List UInt8}
    (h : Spelled names text) : ∀ c ∈ text.head?, c ≠ slash := by
  cases h with
  | last hname slashes => exact hname.head_ne_slash _
  | cons hname slashes rest => exact hname.head_ne_slash _

lemma head_slashes (slashes : Nat) : ∀ c ∈ (replicate slashes slash).head?, c = slash := by
  intro c hc
  cases slashes with
  | zero => cases hc
  | succ slashes =>
    cases hc
    rfl

lemma skipDelimiter_slashes (slashes : Nat) : skipDelimiter (replicate slashes slash) = [] := by
  cases slashes with
  | zero => rfl
  | succ slashes =>
    have hdropped := dropWhile_slashes slashes [] nofun
    rw [append_nil] at hdropped
    exact hdropped

namespace FileSystems

variable {fs : FileSystems} {names : List (List UInt8)} {text : List UInt8}
  {path : List UInt8} {start : Nat}

/-- Where the names lead to. -/
def resolve (fs : FileSystems) : Nat → List (List UInt8) → Except Errno Nat
  | node, [] => .ok node
  | node, name :: names =>
    if name = dot then fs.resolve node names
    else
      match fs.vnodeOpFollow node name with
      | .error errno => .error errno
      | .ok followed => fs.resolve followed.node names

/-- One round of the walk. -/
lemma walk_name {rest : List UInt8} {rounds node : Nat} (htext : text ≠ [])
    (hcomponent : getPathComponent text maxComponentLength slash = .ok (name, rest)) :
    (fs.walk (rounds + 1) node text).1 =
      if name = dot then (fs.walk rounds node rest).1
      else
        match fs.vnodeOpFollow node name with
        | .error errno => .error errno
        | .ok followed => (fs.walk rounds followed.node rest).1 := by
  obtain ⟨c, tail, rfl⟩ := exists_cons_of_ne_nil htext
  rw [walk, hcomponent]
  · dsimp only
    split
    · rfl
    · cases fs.vnodeOpFollow node name with
      | error errno => rfl
      | ok followed => rfl
  · exact cons_ne_nil _ _

/-- A walk over a text follows the names that it spells. -/
lemma walk_spelled (h : Spelled names text) {rounds : Nat} (hrounds : text.length ≤ rounds)
    (node : Nat) : (fs.walk rounds node text).1 = fs.resolve node names := by
  induction h generalizing rounds node with
  | @last name hname slashes =>
    have htext : name ++ replicate slashes slash ≠ [] :=
      append_ne_nil_of_left_ne_nil hname.nonempty _
    have hcomponent := getPathComponent_name hname rfl (head_slashes slashes)
    rw [skipDelimiter_slashes] at hcomponent
    obtain ⟨rounds, rfl⟩ : ∃ fewer, rounds = fewer + 1 := Nat.exists_eq_succ_of_ne_zero (by
        have hpos := length_pos_iff.mpr htext
        omega)
    have hend : ∀ node, (fs.walk rounds node []).1 = .ok node := by
      intro node
      cases rounds <;> rfl
    rw [walk_name htext hcomponent]
    unfold resolve
    split
    · exact hend node
    · cases fs.vnodeOpFollow node name with
      | error errno => rfl
      | ok followed => exact hend followed.node
  | @cons name names rest hname slashes hrest ih =>
    have htext : name ++ (replicate (slashes + 1) slash ++ rest) ≠ [] :=
      append_ne_nil_of_left_ne_nil hname.nonempty _
    have hcomponent : getPathComponent (name ++ (replicate (slashes + 1) slash ++ rest))
        maxComponentLength slash = .ok (name, rest) := by
      rw [getPathComponent_name hname rfl]
      · rw [replicate_succ, cons_append, skipDelimiter,
          dropWhile_slashes slashes _ hrest.head_ne_slash]
      · intro c hc
        cases hc
        rfl
    have hlong : rest.length < rounds := by
      rw [length_append, length_append, length_replicate] at hrounds
      omega
    obtain ⟨rounds, rfl⟩ : ∃ fewer, rounds = fewer + 1 := Nat.exists_eq_succ_of_ne_zero (by omega)
    rw [walk_name htext hcomponent]
    unfold resolve
    split
    · exact ih (by omega) node
    · cases fs.vnodeOpFollow node name with
      | error errno => rfl
      | ok followed => exact ih (by omega) followed.node

/-- The names of a path and where it starts: at the working directory, or at
the root of the device that it names. -/
inductive StartsAt (fs : FileSystems) : List UInt8 → Nat → List UInt8 → Prop
  | relative {start : Nat} {text : List UInt8}
      (hcwd : fs.process = some (some start)) (hcolon : colon ∉ text) : StartsAt fs text start text
  | absolute {device : List UInt8} {start : Nat} {text : List UInt8}
      (hdevice : ValidName device) (hroot : fs.mountPoint device = some start) (slashes : Nat) :
      StartsAt fs (device ++ (colon :: (replicate slashes slash ++ text))) start text

lemma StartsAt.startOfPath (h : fs.StartsAt path start text)
    (hhead : ∀ c ∈ text.head?, c ≠ slash) : fs.startOfPath path = .ok (start, text) := by
  unfold FileSystems.startOfPath
  cases h with
  | relative hcwd hcolon => rw [if_pos (by simp [isRelative, hcolon]), hcwd]
  | absolute hdevice hroot slashes =>
    have hrest : ∀ c ∈ (colon :: (replicate slashes slash ++ text)).head?, c = colon := by
      intro c hc
      cases hc
      rfl
    rw [if_neg (by simp [isRelative]), getPathComponent_name hdevice rfl hrest]
    dsimp only
    rw [hroot, skipDelimiter, dropWhile_slashes slashes _ hhead]

lemma StartsAt.ne_nil (h : fs.StartsAt path start text) (hspelled : Spelled names text) :
    path ≠ [] := by
  cases h with
  | relative _ _ =>
    cases hspelled with
    | last hname _ => exact append_ne_nil_of_left_ne_nil hname.nonempty _
    | cons hname _ _ => exact append_ne_nil_of_left_ne_nil hname.nonempty _
  | absolute hdevice _ _ => exact append_ne_nil_of_left_ne_nil hdevice.nonempty _

/-- A lookup fails where following the names of the path does. -/
lemma getVnodeFromPath_spelled (hstart : fs.StartsAt path start text)
    (hspelled : Spelled names text) (hlength : path.length < maxPathLength) {errno : Errno}
    (hfails : fs.resolve start names = .error errno) (wantParent : Bool) :
    (fs.getVnodeFromPath path wantParent).1 = .error errno := by
  unfold getVnodeFromPath
  rw [if_neg (hstart.ne_nil hspelled), if_neg (Nat.not_le.mpr hlength),
    hstart.startOfPath hspelled.head_ne_slash]
  dsimp only
  rw [walk_spelled hspelled (Nat.le_refl _) start, hfails]

lemma resolve_append {directory : Nat} {earlier later : List (List UInt8)}
    (h : fs.resolve start earlier = .ok directory) :
    fs.resolve start (earlier ++ later) = fs.resolve directory later := by
  induction earlier generalizing start with
  | nil =>
    cases h
    rfl
  | cons name earlier ih =>
    rw [cons_append, resolve]
    rw [resolve] at h
    split at h
    · rename_i hdot
      rw [if_pos hdot]
      exact ih h
    · rename_i hdot
      rw [if_neg hdot]
      cases hfollow : fs.vnodeOpFollow start name with
      | error errno =>
        rw [hfollow] at h
        cases h
      | ok followed =>
        rw [hfollow] at h
        exact ih h

/-- The path leads to a directory and then names a file that is not in it, and
the directory would create it. -/
structure Missing (fs : FileSystems) (path : List UInt8) (directory : Nat)
    (name : List UInt8) (flags : BitVec 32) (mode child : Nat) : Prop where
  spelled : ∃ start text names, fs.StartsAt path start text ∧
    Spelled (names ++ [name]) text ∧ fs.resolve start names = .ok directory
  fits : path.length < maxPathLength
  other : name ≠ dot
  missing : ∃ errno, fs.vnodeOpFollow directory name = .error errno
  creates : fs.vnodeOpCreate directory name flags mode = .ok child

/-- The create operation is called once, on the directory and with the name,
and the file is on the vnode that it made. -/
def CreatesInParent (result : Opening) (directory : Nat) (name : List UInt8)
    (flags : BitVec 32) (mode child : Nat) : Prop :=
  result.creations = [⟨directory, name, flags, mode⟩] ∧
    ∃ file, result.outcome = .opened file ∧ file.node = child

/-- The second walk fails where the first did, so nothing is created. -/
lemma Missing.creations_eq_nil {directory : Nat} {flags : BitVec 32} {mode child : Nat}
    (h : fs.Missing path directory name flags mode child) :
    (fs.openFile (some path) flags mode true).creations = [] := by
  obtain ⟨start, text, names, hstart, hspelled, hdirectory⟩ := h.spelled
  obtain ⟨errno, hmissing⟩ := h.missing
  have hfails : fs.resolve start (names ++ [name]) = .error errno := by
    rw [resolve_append hdirectory, resolve, if_neg h.other, hmissing]
  have hlookup := getVnodeFromPath_spelled hstart hspelled h.fits hfails
  have hcreate : (fs.createMissing path flags mode).creations = [] := by
    unfold createMissing
    dsimp only
    rw [hlookup true]
  rw [openFile_of_error (hstart.ne_nil hspelled) (hlookup false)]
  split
  · split
    · exact hcreate
    · split <;> rfl
  · rfl

/-- Opening a missing file never creates it, with `O_CREAT` or without. -/
theorem openFile_creates_iff {path : List UInt8} {directory : Nat} {name : List UInt8}
    {flags : BitVec 32} {mode child : Nat} (h : fs.Missing path directory name flags mode child) :
    CreatesInParent (fs.openFile (some path) flags mode true) directory name flags mode child ↔
    False := by
  refine iff_false_intro fun hcreates => ?_
  have hcreations := hcreates.1
  rw [h.creations_eq_nil] at hcreations
  cases hcreations

/-- A device `a` with an empty root directory that creates files. -/
def emptyRoot : FileSystems :=
  { nothingMounted with
    mountPoint := fun name => if name = [97] then some 0 else none
    follow := fun _ => some fun _ => .error .enoent
    create := fun _ => some fun _ _ _ => .ok 1 }

lemma emptyRoot_missing (flags : BitVec 32) :
    emptyRoot.Missing [97, colon, 98] 0 [98] flags 0 1 where
  spelled := ⟨0, [98], [], show emptyRoot.StartsAt ([97] ++ [colon, 98]) 0 [98] from
      .absolute ⟨by decide, forall_mem_singleton.mpr rfl, by decide⟩ rfl 0,
      .last ⟨by decide, forall_mem_singleton.mpr rfl, by decide⟩ 0, rfl⟩
  fits := by decide
  other := by decide
  missing := ⟨.enoent, rfl⟩
  creates := rfl

theorem emptyRoot_not_creates : emptyRoot.Missing [97, colon, 98] 0 [98] oCreat 0 1 ∧
    ¬ CreatesInParent (emptyRoot.openFile (some [97, colon, 98]) oCreat 0 true) 0 [98] oCreat 0 1 :=
  ⟨emptyRoot_missing oCreat, (openFile_creates_iff (emptyRoot_missing oCreat)).mp⟩

/-- The file `b` is not created in the root of `a`. -/
theorem emptyRoot_fails : emptyRoot.Missing [97, colon, 98] 0 [98] oCreat 0 1 ∧
    (emptyRoot.openFile (some [97, colon, 98]) oCreat 0 true).outcome = .failed .enoent ∧
    (emptyRoot.openFile (some [97, colon, 98]) oCreat 0 true).creations = [] :=
  ⟨emptyRoot_missing oCreat, by decide, by decide⟩

end FileSystems

end Merlon.Paths
