/-
A mailbox seen from outside: every step of a call leaves its contents, adds a
piece at the end or takes a piece from the front.
-/
import Merlon.Sync.MailboxRuns

namespace Merlon

namespace Sync

open Threads

namespace System

variable {k k' : System} {idle : Nat} {initial : Nat → Int}

/-- What is in the mailbox, the oldest byte first. -/
def queue (k : System) : List UInt8 :=
  Ring.contents k.mbox.data k.mbox.totalSize k.mbox.startPos k.mbox.usedSize.toNat

/-- The records of what was moved are the same. -/
def SameLogs (k k' : System) : Prop :=
  k'.addedBytes = k.addedBytes ∧ k'.gotBytes = k.gotBytes

lemma sameLogs_of_call {call : Call} (h : k.call call = .ok k') : SameLogs k k' := by
  obtain ⟨session, _, hok⟩ := bind_eq_ok h
  cases hok
  exact ⟨rfl, rfl⟩

lemma sameLogs_of_begin {request : Request} (h : k.begin request = .ok k') : SameLogs k k' := by
  unfold begin at h
  split at h
  · cases h
    exact ⟨rfl, rfl⟩
  · obtain ⟨after, hcall, hok⟩ := bind_eq_ok h
    have hsame := sameLogs_of_call hcall
    cases hok
    exact hsame

lemma sameLogs_of_bind {call : Call} {next : System → Except Stop System}
    (h : (k.call call >>= next) = .ok k')
    (hnext : ∀ after, next after = .ok k' → SameLogs after k') : SameLogs k k' := by
  obtain ⟨after, hcall, hok⟩ := bind_eq_ok h
  obtain ⟨hadded, hgot⟩ := sameLogs_of_call hcall
  obtain ⟨hadded', hgot'⟩ := hnext after hok
  exact ⟨hadded'.trans hadded, hgot'.trans hgot⟩

/-- A branch that sets the phase of a call, or finishes it, moves nothing. -/
lemma sameLogs_of_ite {c : Prop} [Decidable c] {yes no : System}
    (hyes : SameLogs k yes) (hno : SameLogs k no)
    (h : (if c then (.ok yes : Except Stop System) else .ok no) = .ok k') : SameLogs k k' := by
  split at h
  · cases h
    exact hyes
  · cases h
    exact hno

lemma sameLogs_of_ok {next : System} (hnext : SameLogs k next)
    (h : (.ok next : Except Stop System) = .ok k') : SameLogs k k' := by
  cases h
  exact hnext

/-- A call moves bytes only while it is between `AcquireMutex` and
`ReleaseMutex` of `inner_mtx`. -/
lemma logs_of_resume {a : Activity} (h : k.resume a = .ok k') :
    SameLogs k k' ∨ ∃ count, a.phase = .inside count ∧
      ((k'.addedBytes = k.addedBytes ++ a.request.bytes count ∧ k'.gotBytes = k.gotBytes) ∨
      (k'.addedBytes = k.addedBytes ∧ k'.gotBytes = k.gotBytes ++ (k.mbox.nextAll count).1)) := by
  unfold resume at h
  dsimp only at h
  split at h
  case h_1 | h_3 | h_6 =>
    exact .inl (sameLogs_of_bind h fun after => sameLogs_of_ite ⟨rfl, rfl⟩ ⟨rfl, rfl⟩)
  case h_2 | h_4 | h_7 | h_8 =>
    exact .inl (sameLogs_of_bind h fun after => sameLogs_of_ok ⟨rfl, rfl⟩)
  case h_5 =>
    left
    split at h
    · exact sameLogs_of_bind h fun after => sameLogs_of_ok ⟨rfl, rfl⟩
    · split at h
      · exact sameLogs_of_bind h fun after => sameLogs_of_ok ⟨rfl, rfl⟩
      · exact sameLogs_of_bind h fun after => sameLogs_of_ok ⟨rfl, rfl⟩
  case h_9 count hphase =>
    refine .inr ⟨count, hphase, ?_⟩
    have hlogs := sameLogs_of_call h
    unfold move at hlogs
    split at hlogs
    · exact .inl hlogs
    · exact .inr hlogs
  case h_10 =>
    refine .inl (sameLogs_of_bind h fun after hok => ?_)
    split at hok
    · cases hok
      exact ⟨rfl, rfl⟩
    · cases hok
      exact ⟨rfl, rfl⟩
  case h_11 =>
    obtain ⟨session, _, hok⟩ := bind_eq_ok h
    cases hok
    exact .inl ⟨rfl, rfl⟩

lemma logs_of_step {event : Event} (h : event.step k = .ok k') : SameLogs k k' ∨
    (∃ bytes, k'.addedBytes = k.addedBytes ++ bytes ∧ k'.gotBytes = k.gotBytes) ∨
    ∃ bytes, k'.addedBytes = k.addedBytes ∧ k'.gotBytes = k.gotBytes ++ bytes := by
  cases event with
  | begin request => exact .inl (sameLogs_of_begin h)
  | resume =>
    dsimp only [Event.step] at h
    split at h
    · cases h
      exact .inl ⟨rfl, rfl⟩
    · rcases logs_of_resume h with hsame | ⟨count, _, hadd | hget⟩
      · exact .inl hsame
      · exact .inr (.inl ⟨_, hadd⟩)
      · exact .inr (.inr ⟨_, hget⟩)
  | other call => exact .inl (sameLogs_of_call h)

lemma Queues.queue_length (h : k.Queues idle initial) : k.queue.length ≤ k.mbox.totalSize := by
  unfold queue
  rw [Ring.length_contents]
  have hused := h.used
  omega

/-- Every step leaves what is in the mailbox, adds a piece that fits at the
end, or takes a piece from the front. -/
lemma step_queue {event : Event} (h : k.Sound idle initial)
    (hallowed : event.Allowed idle initial k) (hstep : event.step k = .ok k') :
    k'.queue.length ≤ k'.mbox.totalSize ∧
    (k'.queue = k.queue ∨ (∃ bytes, k'.queue = k.queue ++ bytes) ∨
      ∃ count, k'.queue = k.queue.drop count ∧ k'.gotBytes = k.gotBytes ++ k.queue.take count) := by
  obtain ⟨after, hafter, hsound⟩ := step_sound h hallowed
  rw [hstep] at hafter
  cases hafter
  have hbefore : k.addedBytes = k.gotBytes ++ k.queue := h.queues.stored
  have hqueues := hsound.queues
  have hstored : k'.addedBytes = k'.gotBytes ++ k'.queue := hqueues.stored
  refine ⟨hqueues.queue_length, ?_⟩
  rcases logs_of_step hstep with ⟨hadded, hgot⟩ | ⟨bytes, hadded, hgot⟩ | ⟨bytes, hadded, hgot⟩
  · left
    rw [hadded, hgot, hbefore] at hstored
    exact (List.append_cancel_left hstored).symm
  · refine .inr (.inl ⟨bytes, ?_⟩)
    rw [hadded, hgot, hbefore, List.append_assoc] at hstored
    exact (List.append_cancel_left hstored).symm
  · refine .inr (.inr ⟨bytes.length, ?_⟩)
    rw [hadded, hgot, hbefore, List.append_assoc] at hstored
    have hqueue := List.append_cancel_left hstored
    rw [hqueue, List.drop_left, List.take_left]
    exact ⟨rfl, hgot⟩

end System

end Sync

end Merlon
