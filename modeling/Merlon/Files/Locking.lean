/-
The mutex of a descriptor table.  Each call takes it once and gives it back,
except that `DupFd` and `DupFd2` look their descriptor up with the mutex in
hand, and the look-up takes it again.
-/
import Merlon.Files.Model

namespace Merlon.Files

/-- The calls of `filedes.c` that take the mutex. -/
inductive Call where
  | createFd (f : Nat) (flags : BitVec 32)
  | removeFd (f : Nat)
  | getFileFromFd (out : Bool) (fd : Int)
  | handleExecFd
  | dupFd (oldfd : Int)
  | dupFd2 (oldfd newfd : Int) (flags : BitVec 32)
  deriving DecidableEq

def Call.run (w : World) : Call → Except Stop (Result × World)
  | .createFd f flags => w.createFd f flags
  | .removeFd f => w.removeFd f
  | .getFileFromFd out fd => w.getFileFromFd out fd
  | .handleExecFd => w.handleExecFd
  | .dupFd oldfd => w.dupFd oldfd
  | .dupFd2 oldfd newfd flags => w.dupFd2 oldfd newfd flags

/-- The call does not wait for the mutex it holds, and returns without it. -/
def Disciplined (outcome : Except Stop (Result × World)) : Prop :=
  Ends outcome (· ≠ .deadlock) fun result => result.2.table.lock = some false

/-- The call never looks a descriptor up with the mutex in hand. -/
def Call.locksOnce : Call → Bool
  | .dupFd oldfd => (slot oldfd).isNone
  | .dupFd2 oldfd _ flags => !validFlags flags || (slot oldfd).isNone
  | _ => true

namespace World

variable {w : World}

lemma acquireMutex_free (h : w.table.lock = some false) : w.acquireMutex =
      .ok { w with table := { w.table with lock := some true } } := by
  unfold acquireMutex
  rw [h]

lemma acquireMutex_held (h : w.table.lock = some true) : w.acquireMutex = .error .deadlock := by
  unfold acquireMutex
  rw [h]

lemma lock_releaseMutex (h : w.table.lock = some true) :
    w.releaseMutex.table.lock = some false := by
  unfold releaseMutex
  rw [h]
  rfl

lemma find_disciplined (w : World) (f : Nat) : Ends (w.find f) (· ≠ .deadlock) fun _ => True := by
  unfold find
  split
  · intro h
    cases h
  · exact trivial

/-- Closing a file leaves the table alone. -/
lemma closeFile_table (w : World) (f : Nat) : Ends (w.closeFile f) (· ≠ .deadlock) fun result =>
      result.2.table = w.table := by
  refine Ends.bind (?_ : Ends _ _ fun w' : World => w'.table = w.table) fun w' hw' => hw'
  refine (find_disciplined w f).bind fun file _ => ?_
  split <;> exact rfl

lemma execFrom_disciplined (todo : List (Fin procMaxFd))
    (h : w.table.lock = some true) : Disciplined (execFrom todo w) := by
  induction todo generalizing w with
  | nil => exact lock_releaseMutex h
  | cons i rest ih =>
    unfold execFrom
    split
    · exact ih h
    · split
      · exact ih h
      · refine (closeFile_table _ _).bind fun result htable => ?_
        have hlock : result.2.table.lock = some true := by
          rw [htable]
          exact h
        dsimp only
        split
        · exact lock_releaseMutex hlock
        · exact ih hlock

section

variable (h : w.table.lock = some false)

include h

lemma handleExecFd_disciplined : Disciplined w.handleExecFd := by
  unfold handleExecFd
  rw [acquireMutex_free h]
  exact execFrom_disciplined _ rfl

lemma createFd_disciplined (f : Nat) (flags : BitVec 32) : Disciplined (w.createFd f flags) := by
  unfold createFd
  rw [acquireMutex_free h, ok_bind]
  split
  · split
    · rfl
    · exact (find_disciplined _ f).bind fun _ _ => rfl
  · exact h

lemma removeFd_disciplined (f : Nat) : Disciplined (w.removeFd f) := by
  unfold removeFd
  rw [acquireMutex_free h, ok_bind]
  split
  · rfl
  · exact (find_disciplined _ f).bind fun _ _ => rfl

lemma getFileFromFd_disciplined (out : Bool) (fd : Int) : Disciplined (w.getFileFromFd out fd) := by
  unfold getFileFromFd
  split
  · intro hstop
    cases hstop
  · exact h
  · rw [acquireMutex_free h, ok_bind]
    dsimp only
    split <;> rfl

end

/-- The look-up deadlocks with the mutex in hand, unless the descriptor has no
slot. -/
lemma getFileFromFd_held (h : w.table.lock = some true) (fd : Int) : w.getFileFromFd true fd =
      if (slot fd).isNone then .ok (.error .ebadf, w)
      else .error .deadlock := by
  unfold getFileFromFd
  cases slot fd with
  | none => rfl
  | some i =>
    rw [acquireMutex_held h]
    rfl

lemma dupFd_disciplined_iff (h : w.table.lock = some false) (oldfd : Int) :
    Disciplined (w.dupFd oldfd) ↔ (slot oldfd).isNone = true := by
  unfold dupFd
  rw [acquireMutex_free h, ok_bind, getFileFromFd_held rfl]
  cases (slot oldfd).isNone with
  | true => exact iff_of_true rfl rfl
  | false => exact iff_of_false (fun hends => hends rfl) Bool.false_ne_true

lemma dupFd2_disciplined_iff (h : w.table.lock = some false) (oldfd newfd : Int)
    (flags : BitVec 32) : Disciplined (w.dupFd2 oldfd newfd flags) ↔
    (!validFlags flags || (slot oldfd).isNone) = true := by
  unfold dupFd2
  cases validFlags flags with
  | false => exact iff_of_true h rfl
  | true =>
    rw [acquireMutex_free h, ok_bind, getFileFromFd_held rfl]
    cases (slot oldfd).isNone with
    | true => exact iff_of_true rfl rfl
    | false => exact iff_of_false (fun hends => hends rfl) Bool.false_ne_true

end World

/-- Whatever the table holds, a call is disciplined exactly when it does not
look a descriptor up with the mutex in hand. -/
theorem call_disciplined_iff (entry : Fin procMaxFd → Fd) (file : Nat → Option File) (call : Call) :
    Disciplined (call.run ⟨⟨some false, entry⟩, file⟩) ↔ call.locksOnce = true := by
  cases call with
  | createFd f flags => exact iff_of_true (World.createFd_disciplined rfl f flags) rfl
  | removeFd f => exact iff_of_true (World.removeFd_disciplined rfl f) rfl
  | getFileFromFd out fd => exact iff_of_true (World.getFileFromFd_disciplined rfl out fd) rfl
  | handleExecFd => exact iff_of_true (World.handleExecFd_disciplined rfl) rfl
  | dupFd oldfd => exact World.dupFd_disciplined_iff rfl oldfd
  | dupFd2 oldfd newfd flags => exact World.dupFd2_disciplined_iff rfl oldfd newfd flags

/-- `DupFd` of descriptor 0 on a new table waits for its own mutex. -/
theorem dupFd_deadlocks :
    (Call.dupFd 0).run ⟨createFdTable (some false), fun _ => none⟩ = .error .deadlock ∧
    ¬ Disciplined ((Call.dupFd 0).run ⟨createFdTable (some false), fun _ => none⟩) := by
  have hstop : (Call.dupFd 0).run ⟨createFdTable (some false), fun _ => none⟩ =
      .error .deadlock := rfl
  refine ⟨hstop, fun hends => ?_⟩
  exact hends rfl

end Merlon.Files
