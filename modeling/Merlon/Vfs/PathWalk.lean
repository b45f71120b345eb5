/-
Paths and opening files, from `kernel/vfs/vfs.c`.  A path names a mount point
or starts at the working directory, and its components are followed from vnode
to vnode.  Paths are texts without the final zero; what the mounted file
systems answer is given, and what a call does to the reference counts is
recorded in order.
-/
import Mathlib.Data.List.Count

namespace Merlon.Paths

inductive Errno where
  | enoent
  | einval
  | enametoolong
  | enodev
  | enotdir
  | eexist
  | eisdir
  | enosys
  | other (code : Nat)
  deriving DecidableEq

def maxComponentLength : Nat := 128

def maxPathLength : Nat := 2000

def slash : UInt8 := 47

def backslash : UInt8 := 92

def colon : UInt8 := 58

/-- The components `.` and `..`. -/
def dot : List UInt8 := [46]

def dotDot : List UInt8 := [46, 46]

def isRelative (path : List UInt8) : Bool :=
  !path.contains colon

/-- A character that a component may not have. -/
def isBad (c : UInt8) : Bool :=
  c == slash || c == backslash || c == colon

def checkValidComponentName (name : List UInt8) : Except Errno Unit :=
  if name = [] then .error .einval
  else if name.any isBad then .error .einval
  else .ok ()

/-- The loop of `GetPathComponent`: the component and the rest of the path. -/
def copyComponent (maxLen : Nat) (delimiter : UInt8) (out : List UInt8) :
    List UInt8 → Except Errno (List UInt8 × List UInt8)
  | [] => .ok (out, [])
  | c :: rest =>
    if c = delimiter then .ok (out, c :: rest)
    else if maxLen - 1 ≤ out.length then .error .enametoolong
    else copyComponent maxLen delimiter (out ++ [c]) rest

/-- Past the delimiter and the slashes after it. -/
def skipDelimiter : List UInt8 → List UInt8
  | [] => []
  | _ :: rest => rest.dropWhile fun c => c == slash

def getPathComponent (path : List UInt8) (maxLen : Nat) (delimiter : UInt8) :
    Except Errno (List UInt8 × List UInt8) :=
  match copyComponent maxLen delimiter [] path with
  | .error errno => .error errno
  | .ok (out, rest) =>
    match checkValidComponentName out with
    | .error errno => .error errno
    | .ok _ => .ok (out, skipDelimiter rest)

/-- The loop of `GetFinalPathComponent`, with a component for every round. -/
def finalComponentFrom (maxLen : Nat) : Nat → List UInt8 → List UInt8 → Except Errno (List UInt8)
  | 0, out, _ => .ok out
  | _ + 1, out, [] => .ok out
  | rounds + 1, _, path =>
    match getPathComponent path maxLen slash with
    | .error errno => .error errno
    | .ok (out, rest) => finalComponentFrom maxLen rounds out rest

def getFinalPathComponent (path : List UInt8) (maxLen : Nat) : Except Errno (List UInt8) :=
  if isRelative path then finalComponentFrom maxLen path.length [] path
  else
    match getPathComponent path maxLen colon with
    | .error errno => .error errno
    | .ok (out, rest) => finalComponentFrom maxLen rest.length out rest

/-- How the vnode that a follow operation returns is counted: it is new with a
count of one, it existed and its count was incremented, or it existed and its
count is as before. -/
inductive Counting where
  | fresh
  | counted
  | uncounted
  deriving DecidableEq

structure Followed where
  node : Nat
  counting : Counting
  deriving DecidableEq

inductive FileType where
  | directory
  | regular
  | other
  deriving DecidableEq

/-- The mount table, the current process with its working directory, and what
the operations of each vnode answer; an operation may be missing. -/
structure FileSystems where
  mountPoint : List UInt8 → Option Nat
  process : Option (Option Nat)
  follow : Nat → Option (List UInt8 → Except Errno Followed)
  create : Nat → Option (List UInt8 → BitVec 32 → Nat → Except Errno Nat)
  checkOpen : Nat → Option (BitVec 32 → Except Errno Unit)
  truncate : Nat → Option (Except Errno Unit)
  unlink : Nat → Option (Except Errno Unit)
  delete : Nat → Option (Except Errno Unit)
  fileType : Nat → FileType
  linked : Nat → Bool

/-- What is done to a reference count. -/
inductive RefOp where
  | reference (node : Nat)
  | dereference (node : Nat)
  deriving DecidableEq

/-- What a follow operation does to the count of a vnode that it returns. -/
def Followed.refs (followed : Followed) : List RefOp :=
  match followed.counting with
  | .counted => [.reference followed.node]
  | _ => []

namespace FileSystems

def vnodeOpFollow (fs : FileSystems) (node : Nat) (name : List UInt8) : Except Errno Followed :=
  match fs.follow node with
  | none => .error .enotdir
  | some follow => follow name

def vnodeOpCreate (fs : FileSystems) (node : Nat) (name : List UInt8)
    (flags : BitVec 32) (mode : Nat) : Except Errno Nat :=
  match fs.create node with
  | none => .error .einval
  | some create => create name flags mode

def vnodeOpCheckOpen (fs : FileSystems) (node : Nat) (flags : BitVec 32) : Except Errno Unit :=
  match fs.checkOpen node with
  | none => .ok ()
  | some checkOpen => checkOpen flags

/-- An operation without arguments that may be missing. -/
def orInvalid : Option (Except Errno Unit) → Except Errno Unit
  | none => .error .einval
  | some outcome => outcome

/-- The loop of `GetVnodeFromPath`, with a component for every round. -/
def walk (fs : FileSystems) : Nat → Nat → List UInt8 → Except Errno Nat × List RefOp
  | 0, node, _ => (.ok node, [])
  | _ + 1, node, [] => (.ok node, [])
  | rounds + 1, node, path =>
    match getPathComponent path maxComponentLength slash with
    | .error errno => (.error errno, [.dereference node])
    | .ok (component, rest) =>
      if component = dot then fs.walk rounds node rest
      else
        match fs.vnodeOpFollow node component with
        | .error errno => (.error errno, [.dereference node])
        | .ok followed =>
          let walked := fs.walk rounds followed.node rest
          (walked.1, followed.refs ++ walked.2)

/-- Where the walk starts, and what of the path is left. -/
def startOfPath (fs : FileSystems) (path : List UInt8) : Except Errno (Nat × List UInt8) :=
  if isRelative path then
    match fs.process with
    | none => .error .enodev
    | some none => .error .enodev
    | some (some cwd) => .ok (cwd, path)
  else
    match getPathComponent path maxComponentLength colon with
    | .error errno => .error errno
    | .ok (component, rest) =>
      match fs.mountPoint component with
      | none => .error .enodev
      | some root => .ok (root, rest)

def getVnodeFromPath (fs : FileSystems) (path : List UInt8)
    (wantParent : Bool) : Except Errno Nat × List RefOp :=
  if path = [] then (.error .einval, [])
  else if maxPathLength ≤ path.length then (.error .enametoolong, [])
  else
    match fs.startOfPath path with
    | .error errno => (.error errno, [])
    | .ok (start, rest) =>
      let walked := fs.walk rest.length start rest
      let refs := .reference start :: walked.2
      match walked.1 with
      | .error errno => (.error errno, refs)
      | .ok node =>
        if wantParent then
          match fs.vnodeOpFollow node dotDot with
          | .error errno => (.error errno, refs ++ [.dereference node])
          | .ok parent => (.ok parent.node, refs ++ parent.refs ++ [.dereference node])
        else (.ok node, refs)

end FileSystems

def oCreat : BitVec 32 := 4

def oExcl : BitVec 32 := 8

def oTrunc : BitVec 32 := 32

def oNonblock : BitVec 32 := 128

def oWronly : BitVec 32 := 1

def oAccmode : BitVec 32 := 3

/-- A flag is set. -/
def has (flags flag : BitVec 32) : Bool :=
  flags &&& flag != 0

/-- The file that `CreateFile` makes. -/
structure File where
  node : Nat
  mode : Nat
  flags : BitVec 32
  canRead : Bool
  canWrite : Bool
  deriving DecidableEq

/-- A call of the create operation of a directory. -/
structure Creation where
  directory : Nat
  name : List UInt8
  flags : BitVec 32
  mode : Nat
  deriving DecidableEq

/-- How `OpenFile` ends; `undefined` is the use of the variable `node` before
anything has been assigned to it. -/
inductive Outcome where
  | failed (errno : Errno)
  | opened (file : File)
  | undefined
  deriving DecidableEq

/-- How `OpenFile` ends, with what it did. -/
structure Opening where
  outcome : Outcome
  refs : List RefOp
  creations : List Creation
  deriving DecidableEq

namespace FileSystems

/-- `OpenFile` from the check of the node on. -/
def openNode (fs : FileSystems) (node : Nat) (flags : BitVec 32) (mode : Nat) :
    Outcome × List RefOp :=
  match fs.vnodeOpCheckOpen node (flags &&& (oAccmode ||| oNonblock)) with
  | .error errno => (.failed errno, [.dereference node])
  | .ok _ =>
    let canRead := flags &&& oAccmode != oWronly
    let canWrite := flags &&& oAccmode != 0
    if fs.fileType node = .directory ∧ canWrite then
      (.failed .eisdir, [.dereference node])
    else if has flags oTrunc ∧ fs.fileType node = .regular then
      if canWrite then
        match orInvalid (fs.truncate node) with
        | .error errno => (.failed errno, [])
        | .ok _ => (.failed .enosys, [])
      else (.failed .einval, [])
    else
      (.opened ⟨node, mode, flags &&& 256, canRead, canWrite⟩, [.reference node])

/-- `OpenFile` with `O_CREAT` when the path was not found. -/
def createMissing (fs : FileSystems) (path : List UInt8) (flags : BitVec 32)
    (mode : Nat) : Opening :=
  let found := fs.getVnodeFromPath path true
  match found.1 with
  | .error errno => ⟨.failed errno, found.2, []⟩
  | .ok parent =>
    match getFinalPathComponent path maxComponentLength with
    | .error errno => ⟨.failed errno, found.2, []⟩
    | .ok name =>
      let creations := [⟨parent, name, flags, mode⟩]
      let refs := found.2 ++ [.dereference parent]
      match fs.vnodeOpCreate parent name flags mode with
      | .error errno => ⟨.failed errno, refs, creations⟩
      | .ok child =>
        let result := fs.openNode child flags mode
        ⟨result.1, refs ++ result.2, creations⟩

/-- `OpenFile`; `out` says whether there is a place for the file. -/
def openFile (fs : FileSystems) (path : Option (List UInt8))
    (flags : BitVec 32) (mode : Nat) (out : Bool) : Opening :=
  match path with
  | none => ⟨.failed .einval, [], []⟩
  | some path =>
    if out = false ∨ path = [] then ⟨.failed .einval, [], []⟩
    else
      let found := fs.getVnodeFromPath path false
      match found.1 with
      | .ok node =>
        if has flags oCreat ∧ has flags oExcl then
          ⟨.failed .eexist, found.2, []⟩
        else
          let result := fs.openNode node flags mode
          ⟨result.1, found.2 ++ result.2, []⟩
      | .error errno =>
        if has flags oCreat then
          if errno = .enoent then
            let result := fs.createMissing path flags mode
            { result with refs := found.2 ++ result.refs }
          else if has flags oExcl then ⟨.failed .eexist, found.2, []⟩
          else ⟨.undefined, found.2, []⟩
        else ⟨.failed errno, found.2, []⟩

end FileSystems

end Merlon.Paths
