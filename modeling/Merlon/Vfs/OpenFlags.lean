/-
The flags of open files.  `OpenFile` keeps `O_NONBLOCK` and `O_APPEND` in the
vnode and gives the file only `O_CLOEXEC`; `FileAccess` asks the vnode whether
a transfer may block, and `SysReadWrite` asks the file whether it appends.  So
the last open of a vnode decides for all its files, and no file appends.
-/
import Mathlib.Algebra.Group.Nat.Defs
import Merlon.Library.Transition
import Merlon.Vfs.PathWalk

namespace Merlon.Paths

open List

def oAppend : BitVec 32 := 64

def ebadf : Errno := .other 20

/-- `struct file` with its position.  `opened` records the flags of the call
of `OpenFile` that made it. -/
structure OpenedFile where
  file : File
  seekPosition : Nat
  opened : BitVec 32

/-- The flags and the sizes in the vnodes, and the files in the order in which
they were opened. -/
structure Files where
  nodeFlags : Nat → BitVec 32
  stSize : Nat → Nat
  files : List OpenedFile

/-- What a vnode operation is asked to transfer. -/
structure Transfer where
  offset : Nat
  length : Nat
  write : Bool
  blockable : Bool
  deriving DecidableEq

namespace OpenedFile

def permits (f : OpenedFile) (write : Bool) : Bool :=
  if write then f.file.canWrite else f.file.canRead

end OpenedFile

namespace Files

/-- The position that `SysReadWrite` gives a file before the transfer. -/
def position (s : Files) (f : OpenedFile) (write : Bool) : Nat :=
  if write && has f.file.flags oAppend then s.stSize f.file.node % 2 ^ 32
  else f.seekPosition

/-- The transfer of `SysReadWrite`, as `FileAccess` passes it on. -/
def fileAccess (s : Files) (f : OpenedFile) (size buffer : Nat)
    (write : Bool) : Except Errno Transfer :=
  if buffer = 0 then .error .einval
  else if f.permits write = false then .error ebadf
  else .ok
    { offset := s.position f write
      length := size
      write := write
      blockable := !has (s.nodeFlags f.file.node) oNonblock }

def moveTo (s : Files) (index : Nat) (f : OpenedFile) (position : Nat) :
    Files :=
  let moved := { f with seekPosition := position % 2 ^ 32 }
  { s with files := s.files.set index moved }

/-- `SysReadWrite`; the vnode operation leaves so many bytes over. -/
def sysReadWrite (s : Files) (index : Nat) (f : OpenedFile)
    (size buffer : Nat) (write : Bool) (remaining : Except Errno Nat) :
    Files :=
  let position := s.position f write
  let moved :=
    match s.fileAccess f size buffer write, remaining with
    | .ok _, .ok remaining => size - remaining
    | _, _ => 0
  s.moveTo index f (position + moved)

/-- `OpenFile` with what it leaves in the vnode. -/
def openFile (s : Files) (fs : FileSystems) (path : Option (List UInt8))
    (flags : BitVec 32) (mode : Nat) (out : Bool) : Option Files :=
  match (fs.openFile path flags mode out).outcome with
  | .failed _ => some s
  | .undefined => none
  | .opened file => some
      { s with
        nodeFlags := Function.update s.nodeFlags file.node
          (flags &&& (oNonblock ||| oAppend))
        files := s.files ++ [⟨file, 0, flags⟩] }

end Files

/-- Files are opened, read, written and positioned, and the size of a file
changes. -/
inductive FileEvent where
  | openFile (fs : FileSystems) (path : Option (List UInt8)) (flags : BitVec 32)
      (mode : Nat) (out : Bool)
  | readWrite (index size buffer : Nat) (write : Bool)
      (remaining : Except Errno Nat)
  | seek (index position : Nat)
  | resize (node size : Nat)

namespace FileEvent

def step (s : Files) : FileEvent → Option Files
  | .openFile fs path flags mode out => s.openFile fs path flags mode out
  | .readWrite index size buffer write remaining =>
    (s.files[index]?).map fun f =>
      s.sysReadWrite index f size buffer write remaining
  | .seek index position => (s.files[index]?).map fun f => s.moveTo index f position
  | .resize node size => some { s with stSize := Function.update s.stSize node size }

def Step (s : Files) (event : FileEvent) (s' : Files) : Prop :=
  event.step s = some s'

/-- The vnode that a call of `OpenFile` opens, with the flags. -/
def opens : FileEvent → Option (Nat × BitVec 32)
  | .openFile fs path flags mode out =>
    match (fs.openFile path flags mode out).outcome with
    | .opened file => some (file.node, flags)
    | .failed _ | .undefined => none
  | .readWrite _ _ _ _ _ | .seek _ _ | .resize _ _ => none

/-- The flags with which a vnode was opened last. -/
def latest (node : Nat) (known : Option (BitVec 32)) (event : FileEvent) :
    Option (BitVec 32) :=
  match event.opens with
  | some (opened, flags) => if opened = node then some flags else known
  | none => known

def lastOpen (events : List FileEvent) (node : Nat) : Option (BitVec 32) :=
  events.foldl (latest node) none

end FileEvent

/-- No file is open; the vnodes have any flags and sizes. -/
def Files.start (nodeFlags : Nat → BitVec 32) (stSize : Nat → Nat) : Files where
  nodeFlags := nodeFlags
  stSize := stSize
  files := []

/-- An access does what the flags say with which the file was opened. -/
def Files.Honours (s : Files) (f : OpenedFile) (size buffer : Nat)
    (write : Bool) : Prop :=
  ∀ io, s.fileAccess f size buffer write = .ok io →
    io.blockable = !has f.opened oNonblock ∧
      (write = true → io.offset =
        if has f.opened oAppend then s.stSize f.file.node
        else f.seekPosition)

/-- What the vnodes and the files know of the flags of a history. -/
structure Tracks (events : List FileEvent) (s : Files) : Prop where
  nodeFlags : ∀ node flags, FileEvent.lastOpen events node = some flags →
    s.nodeFlags node = flags &&& (oNonblock ||| oAppend)
  fileFlags : ∀ f ∈ s.files, f.file.flags = f.opened &&& 256
  opened : ∀ f ∈ s.files, FileEvent.lastOpen events f.file.node ≠ none

lemma lastOpen_snoc (events : List FileEvent) (event : FileEvent) (node : Nat) :
    FileEvent.lastOpen (events ++ [event]) node =
      FileEvent.latest node (FileEvent.lastOpen events node) event := by
  rw [FileEvent.lastOpen, foldl_append]
  rfl

variable {events : List FileEvent} {s : Files} {fs : FileSystems}
  {flags : BitVec 32} {path : Option (List UInt8)} {file : File} {mode : Nat}
  {event : FileEvent}

/-- An event that opens nothing and changes only positions and sizes. -/
lemma Tracks.keep {s' : Files} (h : Tracks events s) (hopens : event.opens = none)
    (hflags : s'.nodeFlags = s.nodeFlags)
    (hfiles : ∀ f ∈ s'.files, ∃ g ∈ s.files, f.file = g.file ∧ f.opened = g.opened) :
    Tracks (events ++ [event]) s' := by
  have hlast : FileEvent.lastOpen (events ++ [event]) = FileEvent.lastOpen events := by
    funext node
    rw [lastOpen_snoc, FileEvent.latest, hopens]
  refine ⟨?_, ?_, ?_⟩
  · rw [hlast, hflags]
    exact h.nodeFlags
  · intro f hmem
    obtain ⟨g, hg, hfile, hopened⟩ := hfiles f hmem
    rw [hfile, hopened]
    exact h.fileFlags g hg
  · intro f hmem
    obtain ⟨g, hg, hfile, _⟩ := hfiles f hmem
    rw [hlast, hfile]
    exact h.opened g hg

lemma files_moveTo {index : Nat} {f : OpenedFile} (hfile : s.files[index]? = some f)
    (position : Nat) : ∀ moved ∈ (s.moveTo index f position).files, ∃ g ∈ s.files,
    moved.file = g.file ∧ moved.opened = g.opened := by
  intro moved hmem
  rcases mem_or_eq_of_mem_set hmem with hmem | rfl
  · exact ⟨moved, hmem, rfl, rfl⟩
  · exact ⟨f, mem_of_getElem? hfile, rfl, rfl⟩

lemma openNode_flags {node : Nat} (h : (fs.openNode node flags mode).1 = .opened file) :
    file.flags = flags &&& 256 := by
  unfold FileSystems.openNode at h
  dsimp only at h
  split at h
  · cases h
  · split_ifs at h
    · split at h <;> cases h
    · cases h
      rfl

/-- The file that `OpenFile` returns keeps `O_CLOEXEC` of its flags only. -/
lemma openFile_flags {out : Bool} (h : (fs.openFile path flags mode out).outcome = .opened file) :
    file.flags = flags &&& 256 := by
  unfold FileSystems.openFile at h
  dsimp only at h
  split at h
  · cases h
  · split at h
    · cases h
    split at h
    · split at h
      · cases h
      · exact openNode_flags h
    · split at h
      swap
      · cases h
      split at h
      swap
      · split at h <;> cases h
      unfold FileSystems.createMissing at h
      dsimp only at h
      split at h
      · cases h
      · split at h
        · cases h
        · split at h
          · cases h
          · exact openNode_flags h

lemma tracks_opened {out : Bool} (h : Tracks events s)
    (houtcome : (fs.openFile path flags mode out).outcome = .opened file) :
    Tracks (events ++ [.openFile fs path flags mode out]) { s with
        nodeFlags := Function.update s.nodeFlags file.node (flags &&& (oNonblock ||| oAppend))
        files := s.files ++ [⟨file, 0, flags⟩] } := by
  have hlast : ∀ node, FileEvent.lastOpen (events ++ [.openFile fs path flags mode out]) node =
      if file.node = node then some flags
      else FileEvent.lastOpen events node := by
    intro node
    rw [lastOpen_snoc, FileEvent.latest, FileEvent.opens, houtcome]
  refine ⟨?_, ?_, ?_⟩
  · intro node known hknown
    rw [hlast] at hknown
    dsimp only
    rw [Function.update_apply]
    by_cases hnode : node = file.node
    · rw [if_pos hnode.symm] at hknown
      rw [if_pos hnode, Option.some.inj hknown]
    · rw [if_neg (Ne.symm hnode)] at hknown
      rw [if_neg hnode]
      exact h.nodeFlags node known hknown
  · intro f hmem
    rcases mem_append.mp hmem with hmem | hmem
    · exact h.fileFlags f hmem
    · rw [mem_singleton.mp hmem]
      exact openFile_flags houtcome
  · intro f hmem
    rw [hlast]
    split
    · exact Option.some_ne_none flags
    · rename_i hne
      rcases mem_append.mp hmem with hmem | hmem
      · exact h.opened f hmem
      · rw [mem_singleton.mp hmem] at hne
        exact absurd rfl hne

lemma step_tracks {s' : Files} (h : Tracks events s)
    (hstep : event.Step s s') : Tracks (events ++ [event]) s' := by
  cases event with
  | openFile fs path flags mode out =>
    change s.openFile fs path flags mode out = some s' at hstep
    unfold Files.openFile at hstep
    cases houtcome : (fs.openFile path flags mode out).outcome with
    | failed errno =>
      rw [houtcome] at hstep
      obtain rfl := Option.some.inj hstep
      refine h.keep ?_ rfl fun f hmem => ⟨f, hmem, rfl, rfl⟩
      rw [FileEvent.opens, houtcome]
    | undefined =>
      rw [houtcome] at hstep
      cases hstep
    | opened file =>
      rw [houtcome] at hstep
      obtain rfl := Option.some.inj hstep
      exact tracks_opened h houtcome
  | readWrite index size buffer write remaining =>
    obtain ⟨f, hfile, rfl⟩ := Option.map_eq_some_iff.mp hstep
    exact h.keep rfl rfl (files_moveTo hfile _)
  | seek index position =>
    obtain ⟨f, hfile, rfl⟩ := Option.map_eq_some_iff.mp hstep
    exact h.keep rfl rfl (files_moveTo hfile _)
  | resize node size =>
    obtain rfl := Option.some.inj hstep
    exact h.keep rfl rfl fun f hmem => ⟨f, hmem, rfl, rfl⟩

lemma run_tracks {nodeFlags : Nat → BitVec 32} {stSize : Nat → Nat}
    (hrun : Run FileEvent.Step (.start nodeFlags stSize) events s) : Tracks events s := by
  induction hrun with
  | nil => exact ⟨nofun, nofun, nofun⟩
  | snoc before last ih => exact step_tracks ih last

lemma has_oNonblock (flags : BitVec 32) :
    has (flags &&& (oNonblock ||| oAppend)) oNonblock = has flags oNonblock := by
  rw [has, BitVec.and_assoc]
  rfl

lemma not_has_oAppend (flags : BitVec 32) : has (flags &&& 256) oAppend = false := by
  rw [has, BitVec.and_assoc, show (256 : BitVec 32) &&& oAppend = 0#32 from rfl, BitVec.and_zero]
  rfl

/-- The last open of the vnode agrees with the file about `O_NONBLOCK`, and a
file that was opened with `O_APPEND` happens to be at its end when it is
written. -/
def Agreeing (events : List FileEvent) (s : Files) (f : OpenedFile)
    (write : Bool) : Prop :=
  (∀ flags, FileEvent.lastOpen events f.file.node = some flags →
    has flags oNonblock = has f.opened oNonblock) ∧
  (write = true → has f.opened oAppend = true →
    f.seekPosition = s.stSize f.file.node)

/-- In every history, an access that is permitted does what the flags of its
own file say exactly under that condition. -/
theorem run_honours_iff {nodeFlags : Nat → BitVec 32} {stSize : Nat → Nat} {events : List FileEvent}
    {s : Files} {f : OpenedFile} (hrun : Run FileEvent.Step (.start nodeFlags stSize) events s)
    (hfile : f ∈ s.files) (size buffer : Nat) (write : Bool) : s.Honours f size buffer write ↔
    (buffer ≠ 0 → f.permits write = true → Agreeing events s f write) := by
  have htracks := run_tracks hrun
  obtain ⟨flags, hflags⟩ := Option.ne_none_iff_exists'.mp (htracks.opened f hfile)
  have hnode : has (s.nodeFlags f.file.node) oNonblock = has flags oNonblock := by
    rw [htracks.nodeFlags _ _ hflags, has_oNonblock]
  have hposition : s.position f write = f.seekPosition := by
    rw [Files.position, htracks.fileFlags f hfile, not_has_oAppend, Bool.and_false]
    rfl
  have haccess : buffer ≠ 0 → f.permits write = true →
      s.fileAccess f size buffer write = .ok
        ⟨f.seekPosition, size, write, !has flags oNonblock⟩ := by
    intro hbuffer hpermits
    rw [Files.fileAccess, if_neg hbuffer, if_neg (by simp [hpermits]), hposition, hnode]
  constructor
  · intro hhonours hbuffer hpermits
    obtain ⟨hblock, hoffset⟩ := hhonours _ (haccess hbuffer hpermits)
    refine ⟨?_, ?_⟩
    · intro latest hlatest
      rw [hflags] at hlatest
      cases hlatest
      exact Bool.not_inj hblock
    · intro hwrite happend
      have hoffset := hoffset hwrite
      rwa [if_pos happend] at hoffset
  · intro hagreeing io hio
    by_cases hbuffer : buffer = 0
    · rw [Files.fileAccess, if_pos hbuffer] at hio
      cases hio
    · by_cases hpermits : f.permits write = true
      · obtain ⟨hblock, happend⟩ := hagreeing hbuffer hpermits
        rw [haccess hbuffer hpermits] at hio
        cases hio
        refine ⟨congrArg not (hblock flags hflags), fun hwrite => ?_⟩
        split
        · rename_i hset
          exact happend hwrite hset
        · rfl
      · rw [Files.fileAccess, if_neg hbuffer, if_pos (Bool.eq_false_iff.mpr hpermits)] at hio
        cases hio

/-- A file system with one file, which every name leads to. -/
def oneFile : FileSystems where
  mountPoint := fun _ => none
  process := some (some 1)
  follow := fun _ => some fun _ => .ok ⟨2, .counted⟩
  create := fun _ => none
  checkOpen := fun _ => none
  truncate := fun _ => none
  unlink := fun _ => none
  delete := fun _ => none
  fileType := fun node => if node = 2 then .regular else .directory
  linked := fun _ => true

/-- Somebody else opens the same file with `O_NONBLOCK`, and the reads of the
first file no longer block. -/
theorem otherOpen_not_honours :
    ∃ events s f, Run FileEvent.Step (.start (fun _ => 0) (fun _ => 0)) events s ∧
    s.files[0]? = some f ∧ ¬ s.Honours f 1 1 false := by
  have hrun := (Run.single (show FileEvent.Step (.start (fun _ => 0) fun _ => 0)
    (.openFile oneFile (some [102]) 0 0 true) _ from rfl)).snoc
    (show FileEvent.Step _ (.openFile oneFile (some [102]) oNonblock 0 true) _ from rfl)
  refine ⟨_, _, _, hrun, rfl, fun hhonours => ?_⟩
  have hblock := (hhonours _ rfl).1
  exact absurd hblock (by decide)

/-- A file is opened to be read and once more with the same flags. -/
theorem sameFlags_honours :
    ∃ events s f, Run FileEvent.Step (.start (fun _ => 0) (fun _ => 0)) events s ∧
    s.files[0]? = some f ∧ s.Honours f 1 1 false := by
  have hrun := (Run.single (show FileEvent.Step (.start (fun _ => 0) fun _ => 0)
    (.openFile oneFile (some [102]) 0 0 true) _ from rfl)).snoc
    (show FileEvent.Step _ (.openFile oneFile (some [102]) 0 0 true) _ from rfl)
  refine ⟨_, _, _, hrun, rfl, ?_⟩
  refine (run_honours_iff hrun mem_cons_self 1 1 false).mpr ?_
  intro _ _
  refine ⟨?_, nofun⟩
  rintro flags ⟨⟩
  rfl

end Merlon.Paths
