/-
Signals to a process group, from `kernel/thread/signal.c` and
`kernel/thread/process.c`.  The processes of the group are found in the process
table, whether they are still running or not; a process that has been killed
has no thread tree any more.  Who was signalled is kept in a list.
-/
import Merlon.Adt.Tree
import Merlon.Library.Outcome
import Mathlib.Data.List.Nodup
import Mathlib.Logic.Function.Basic

namespace Merlon.GroupSignals

open Adt List
open Function (update update_self update_of_ne)

inductive ThreadState where
  | terminated
  | stopped
  | waitingForSignal
  | other
  deriving DecidableEq

structure Thread where
  state : ThreadState
  signalIntr : Bool
  pendingSignals : BitVec 32
  needsTermination : Bool
  needsStopping : Bool
  deriving DecidableEq

/-- A process; `KillProcessHelper` destroys its thread tree before it sets
`terminated`. -/
structure Process where
  pgid : Int
  terminated : Bool
  threads : Option (TreeNode Nat)
  destroyed : terminated = true → threads = none

/-- How a call stops. -/
inductive Stop where
  | useAfterFree
  | nullDereference
  | badShift
  deriving DecidableEq

/-- Processes and threads are known by their addresses.  A process is in the
table once, and until it is freed; a thread that is freed is `none`. -/
structure World where
  table : TreeNode Nat
  process : Nat → Process
  thread : Nat → Option Thread
  distinct : table.toList.Nodup

def sigcont : Int := 5

def sigkill : Int := 9

def sigstop : Int := 14

def sigUpperBnd : Int := 29

/-- A blocked thread that is made ready again. -/
def unblockThread (thr : Thread) : Thread :=
  { thr with state := .other }

/-- What `RaiseSignal` does to a thread. -/
def Thread.raise (thr : Thread) (sigNum : Int) : Thread :=
  let thr := { thr with
    signalIntr := true
    pendingSignals := thr.pendingSignals ||| 1#32 <<< sigNum.toNat }
  let thr :=
    if sigNum = sigkill then { thr with needsTermination := true }
    else if sigNum = sigstop then { thr with needsStopping := true }
    else if sigNum = sigcont ∧ thr.state = .stopped then unblockThread thr
    else thr
  if thr.state = .waitingForSignal then unblockThread thr else thr

/-- `RaiseSignal` with the scheduler lock held; the result says whether the
thread was signalled. -/
def raiseSignal (thread : Nat → Option Thread) (target : Option Nat)
    (sigNum : Int) : Except Stop (Bool × (Nat → Option Thread)) :=
  if sigUpperBnd ≤ sigNum then .ok (false, thread)
  else
    match target with
    | none => .error .nullDereference
    | some t =>
      match thread t with
      | none => .error .useAfterFree
      | some thr =>
        if sigNum < 0 then .error .badShift
        else .ok (true, update thread t (some (thr.raise sigNum)))

/-- The threads, and which thread was signalled for which process. -/
structure Raised where
  thread : Nat → Option Thread
  signalled : List (Nat × Nat)

namespace World

/-- A thread of the process that is neither freed nor terminated. -/
def IsLive (w : World) (p t : Nat) : Prop :=
  (∃ tree, (w.process p).threads = some tree ∧ t ∈ tree.toList) ∧
    ∃ thr, w.thread t = some thr ∧ thr.state ≠ .terminated

/-- The signal is pending for the thread. -/
def Pending (thread : Nat → Option Thread) (t : Nat) (sigNum : Int) : Prop :=
  ∃ thr, thread t = some thr ∧ thr.pendingSignals.getLsbD sigNum.toNat = true

/-- One live thread of each process of the group that is not terminated has been
signalled, and nothing else. -/
structure Reaches (w : World) (pgid sigNum : Int) (raised : Raised) : Prop where
  one : ∀ p ∈ w.table.toList, (w.process p).pgid = pgid → (w.process p).terminated = false →
    ∃ t, w.IsLive p t ∧ Pending raised.thread t sigNum ∧ raised.signalled.filter
    (fun signalled => signalled.1 = p) = [(p, t)]
  only : ∀ signalled ∈ raised.signalled, signalled.1 ∈ w.table.toList ∧
    (w.process signalled.1).pgid = pgid ∧ (w.process signalled.1).terminated = false
  others : ∀ t, (∀ signalled ∈ raised.signalled, signalled.2 ≠ t) → raised.thread t = w.thread t

/-- The thread at the root of the process's tree is live. -/
def Answers (w : World) (p : Nat) : Prop :=
  ∃ left t right, (w.process p).threads = some (.node left t right) ∧
    ∃ thr, w.thread t = some thr ∧ thr.state ≠ .terminated

end World

/-- The thread at the root. -/
def Process.root (p : Process) : Option Nat :=
  match p.threads with
  | some (.node _ t _) => some t
  | _ => none

variable {process : Nat → Process} {sigNum : Int} {thread : Nat → Option Thread} {ts : List Nat}

variable {t : Nat} {prcsses : List Nat}

/-- A signal that is raised for a process finds its root. -/
lemma raiseSignal_ok {target : Option Nat} {result : Bool × (Nat → Option Thread)}
    (hhigh : sigNum < sigUpperBnd) (hresult : raiseSignal thread target sigNum = .ok result) :
    ∃ t thr, target = some t ∧ thread t = some thr := by
  unfold raiseSignal at hresult
  rw [if_neg (Int.not_le.mpr hhigh)] at hresult
  split at hresult
  · cases hresult
  · rename_i t
    split at hresult
    · cases hresult
    · rename_i thr hthread
      exact ⟨t, thr, rfl, hthread⟩

lemma isSome_raised {other : Nat} :
    (update thread t ((thread t).map (Thread.raise · sigNum))
      other).isSome = (thread other).isSome := by
  by_cases hsame : other = t
  · subst hsame
    rw [update_self, Option.isSome_map]
  · rw [update_of_ne hsame]

/-- The processes have roots, and these are threads. -/
def Rooted (process : Nat → Process) (thread : Nat → Option Thread) (prcsses : List Nat) : Prop :=
  ∀ p ∈ prcsses, ∃ t, (process p).root = some t ∧ (thread t).isSome = true

lemma Rooted.raised (h : Rooted process thread prcsses) : Rooted process
      (update thread t ((thread t).map (Thread.raise · sigNum))) prcsses := by
  intro p hp
  obtain ⟨root, hroot, hsome⟩ := h p hp
  exact ⟨root, hroot, isSome_raised.trans hsome⟩

namespace World

variable {w : World} {pgid : Int} {p : Nat}

lemma Answers.root (h : w.Answers p) : ∃ t, (w.process p).root = some t ∧ w.IsLive p t := by
  obtain ⟨left, t, right, hthreads, hlive⟩ := h
  refine ⟨t, ?_, ⟨_, hthreads, ?_⟩, hlive⟩
  · unfold Process.root
    rw [hthreads]
  · exact mem_append_right _ mem_cons_self

end World

end Merlon.GroupSignals
