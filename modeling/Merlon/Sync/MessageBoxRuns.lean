/-
Runs of a message box.  Every buffer has one owner, a thread or a slot of the
list, so that a message is found in its buffer as it was sent; and the
semaphore never says that there is a message before it is in the list.
-/
import Merlon.Sync.MessageBox

namespace Merlon.Messages

open Threads Adt List Traffic Activity Session
open Function (update update_self update_apply update_of_ne update_eq_self)

variable {activity : Option Activity}

/-- No two threads have the same key. -/
def Apart {β : Type} (key : Nat → Option β) : Prop :=
  ∀ thread other value, key thread = some value → key other = some value → thread = other

lemma Apart.update {β : Type} {key key' : Nat → Option β} {thread : Nat} (h : Apart key)
    (hothers : ∀ other, other ≠ thread → key' other = key other)
    (hnew : ∀ value, key' thread = some value → ∀ other, other ≠ thread → key other ≠ some value) :
    Apart key' := by
  intro first second value hfirst hsecond
  by_cases hthread : first = thread
  · by_contra hne
    subst hthread
    rw [hothers second (Ne.symm hne)] at hsecond
    exact hnew value hfirst second (Ne.symm hne) hsecond
  · rw [hothers first hthread] at hfirst
    by_cases hother : second = thread
    · subst hother
      exact absurd hfirst (hnew value hsecond first hthread)
    · rw [hothers second hother] at hsecond
      exact h first second value hfirst hsecond

namespace Activity

/-- The buffer that a call owns. -/
def buffer : Activity → Option Nat
  | .inserting data _ | .copying data _ => some data
  | .releasing | .acquiring | .removing => none

/-- The turn of the message that a call has removed. -/
def turn : Activity → Option Nat
  | .copying _ turn => some turn
  | .inserting _ _ | .releasing | .acquiring | .removing => none

end Activity

namespace Traffic

variable {t t' : Traffic} {members slots : List Nat} {thread : Nat}
  {buffers' : Nat → Option (List UInt8)} {messages : List (List UInt8)} {received : List Receipt}

def bufferOf (t : Traffic) (thread : Nat) : Option Nat :=
  (t.activity thread).bind Activity.buffer

def turnOf (t : Traffic) (thread : Nat) : Option Nat :=
  (t.activity thread).bind Activity.turn

/-- The message is in the buffer. -/
def Stored (size : Nat) (buffers : Nat → Option (List UInt8)) (data : Nat)
    (message : List UInt8) : Prop :=
  if size = 0 then message = [] else buffers data = some message

variable {size data : Nat} {message : List UInt8} {buffers : Nat → Option (List UInt8)}

lemma Stored.keep (h : Stored size buffers data message)
    (hsame : size ≠ 0 → buffers' data = buffers data) : Stored size buffers' data message := by
  unfold Stored at h ⊢
  split
  · rename_i hzero
    rwa [if_pos hzero] at h
  · rename_i hzero
    rwa [if_neg hzero, ← hsame hzero] at h

lemma Stored.allocated (h : Stored size buffers data message)
    (hsize : size ≠ 0) : buffers data ≠ none := by
  rw [Stored, if_neg hsize] at h
  rw [h]
  exact Option.some_ne_none message

/-- The message that a thread's buffer holds. -/
def HoldsMessage (t : Traffic) (thread : Nat) : Prop :=
  match t.activity thread with
  | some (.inserting data message) => Stored t.mbox.payloadSize t.buffers data message
  | some (.copying data turn) => ∃ message,
      t.inserted[turn]? = some message ∧ Stored t.mbox.payloadSize t.buffers data message
  | _ => True

/-- Every buffer has one owner. -/
structure Owned (bufferOf : Nat → Option Nat) (slots : List Nat) : Prop where
  apart : Apart bufferOf
  nodup : slots.Nodup
  disjoint : ∀ thread data, bufferOf thread = some data → data ∉ slots

/-- Every message that was removed was received once or is on its way. -/
structure Turns (turnOf : Nat → Option Nat) (removed : Nat) (received : List Receipt) : Prop where
  apart : Apart turnOf
  once : (received.map Receipt.turn).Nodup
  pending : ∀ thread turn, turnOf thread = some turn →
    turn < removed ∧ turn ∉ received.map Receipt.turn
  lt : ∀ turn ∈ received.map Receipt.turn, turn < removed
  taken : ∀ turn, turn < removed → turn ∈ received.map Receipt.turn ∨
    ∃ thread, turnOf thread = some turn

/-- What is in the list and in the hands of the calls, with the nodes of the
list and the buffers that they name. -/
structure Storage (t : Traffic) (members slots : List Nat) : Prop where
  list : t.mbox.data.Holds members slots
  removed_le : t.removed ≤ t.inserted.length
  queue : List.Forall₂ (Stored t.mbox.payloadSize t.buffers) slots (t.inserted.drop t.removed)
  holds : ∀ thread, t.HoldsMessage thread
  owned : t.mbox.payloadSize ≠ 0 → Owned t.bufferOf slots
  received : ∀ receipt ∈ t.received, t.inserted[receipt.turn]? = some receipt.payload
  turns : Turns t.turnOf t.removed t.received

lemma start_storage (s : State) (payloadSize sem : Nat) :
    (start (createMessageBox s payloadSize sem).2).Storage [] [] where
  list := Adt.LinkedList.create_holds
  removed_le := Nat.le_refl 0
  queue := .nil
  holds _ := trivial
  owned _ := by
    refine ⟨?_, nodup_nil, ?_⟩
    · rintro thread other value ⟨⟩
    · rintro thread data ⟨⟩
  received := by
    rintro receipt ⟨⟩
  turns := by
    refine ⟨?_, nodup_nil, ?_, ?_, ?_⟩
    · rintro thread other value ⟨⟩
    · rintro thread turn ⟨⟩
    · rintro turn ⟨⟩
    · intro turn hlt
      exact absurd hlt (Nat.not_lt_zero turn)

/-- A thread that has nothing to do with a step keeps its message. -/
lemma HoldsMessage.keep {other : Nat} (h : t.HoldsMessage other)
    (hactivity : t'.activity other = t.activity other)
    (hsize : t'.mbox.payloadSize = t.mbox.payloadSize)
    (hlog : ∀ (turn : Nat) message, t.inserted[turn]? = some message →
      t'.inserted[turn]? = some message)
    (hbuffers : t.mbox.payloadSize ≠ 0 → ∀ data,
      t.bufferOf other = some data → t'.buffers data = t.buffers data) : t'.HoldsMessage other := by
  unfold HoldsMessage at h ⊢
  rw [hactivity, hsize]
  cases hcase : t.activity other with
  | none => trivial
  | some activity =>
    have howns : t.bufferOf other = activity.buffer := by rw [bufferOf, hcase, Option.bind_some]
    rw [hcase] at h
    cases activity with
    | inserting data message => exact h.keep fun hzero => hbuffers hzero data howns
    | copying data turn =>
      obtain ⟨message, hmessage, hold⟩ := h
      exact ⟨message, hlog turn message hmessage, hold.keep fun hzero => hbuffers hzero data howns⟩
    | releasing => trivial
    | acquiring => trivial
    | removing => trivial

/-- A buffer that a thread owns is allocated. -/
lemma HoldsMessage.allocated {other : Nat} (h : t.HoldsMessage other)
    (hsize : t.mbox.payloadSize ≠ 0) (howns : t.bufferOf other = some data) :
    t.buffers data ≠ none := by
  unfold HoldsMessage at h
  unfold bufferOf at howns
  cases hcase : t.activity other with
  | none =>
    rw [hcase] at howns
    cases howns
  | some activity =>
    rw [hcase] at howns
    rw [hcase] at h
    cases activity with
    | inserting data' message =>
      obtain rfl := Option.some.inj howns
      exact h.allocated hsize
    | copying data' turn =>
      obtain rfl := Option.some.inj howns
      obtain ⟨message, _, h⟩ := h
      exact h.allocated hsize
    | releasing => cases howns
    | acquiring => cases howns
    | removing => cases howns

lemma bufferOf_enter (activity : Option Activity) :
    (t.enter thread activity).bufferOf =
      update t.bufferOf thread (activity.bind buffer) := by
  funext other
  simp only [bufferOf, enter, update_apply]
  split <;> rfl

lemma turnOf_enter (activity : Option Activity) :
    (t.enter thread activity).turnOf = update t.turnOf thread (activity.bind turn) := by
  funext other
  simp only [turnOf, enter, update_apply]
  split <;> rfl

lemma holds_enter (h : ∀ other, t.HoldsMessage other) (hnone : activity.bind buffer = none)
    (other : Nat) : (t.enter thread activity).HoldsMessage other := by
  by_cases hne : other = thread
  · subst hne
    unfold HoldsMessage
    simp only [enter, update_self]
    cases activity with
    | none => trivial
    | some activity => cases activity <;> trivial
  · exact HoldsMessage.keep (h other) (update_of_ne hne _ _) rfl
      (fun _ _ hsome => hsome) (fun _ _ _ => rfl)

/-- A call that owns nothing goes on and owns nothing. -/
lemma Storage.enter (h : t.Storage members slots) (hbuffer : t.bufferOf thread = none)
    (hturn : t.turnOf thread = none) (hnobuffer : activity.bind buffer = none)
    (hnoturn : activity.bind turn = none) :
    (t.enter thread activity).Storage members slots where
  __ := h
  holds := holds_enter h.holds hnobuffer
  owned hsize := by
    rw [bufferOf_enter, hnobuffer, ← hbuffer, update_eq_self]
    exact h.owned hsize
  turns := by
    rw [turnOf_enter, hnoturn, ← hturn, update_eq_self]
    exact h.turns

/-- The buffers in the list are allocated. -/
lemma allocated_of_queue (h : List.Forall₂ (Stored size buffers) slots messages)
    (hsize : size ≠ 0) : ∀ data ∈ slots, buffers data ≠ none :=
  ((forall₂_and_left slots messages).mp
    (h.imp fun _ _ hstored => ⟨hstored.allocated hsize, hstored⟩)).1

lemma queue_keep (h : List.Forall₂ (Stored size buffers) slots messages)
    (hsame : size ≠ 0 → ∀ data ∈ slots, buffers' data = buffers data) :
    List.Forall₂ (Stored size buffers') slots messages :=
  ((forall₂_and_left slots messages).mpr ⟨fun data hmem hsize => hsame hsize data hmem, h⟩).imp
    fun _ _ hboth => hboth.2.keep hboth.1

/-- `SendMessage` copies its message into a new buffer. -/
lemma Storage.send (h : t.Storage members slots) (hturn : t.turnOf thread = none)
    (payload : Nat → UInt8) {block : Nat} (hfree : t.buffers block = none) :
    (t.send thread payload block).Storage members slots := by
  obtain ⟨data, buffers, hfill⟩ : ∃ data buffers, fillBuffer t.buffers t.mbox.payloadSize block
    ((range t.mbox.payloadSize).map payload) = (data, buffers) := ⟨_, _, rfl⟩
  have hkept : ∀ other, t.buffers other ≠ none → buffers other = t.buffers other := by
    intro other hother
    have hne : other ≠ block := fun heq => hother (heq ▸ hfree)
    unfold fillBuffer at hfill
    split at hfill <;> cases hfill
    · rfl
    · exact update_of_ne hne _ _
  have hblock : t.mbox.payloadSize ≠ 0 → t.buffers data = none := by
    intro hsize
    rw [fillBuffer, if_neg hsize] at hfill
    cases hfill
    exact hfree
  have hstored : Stored t.mbox.payloadSize buffers data
      ((range t.mbox.payloadSize).map payload) := by
    unfold fillBuffer at hfill
    split at hfill <;> cases hfill
    · rename_i hzero
      simp [Stored, hzero]
    · rename_i hsize
      simp [Stored]
  unfold Traffic.send
  dsimp only
  rw [hfill]
  refine ⟨h.list, h.removed_le, queue_keep h.queue fun hsize other hmem =>
    hkept other (allocated_of_queue h.queue hsize other hmem), ?_, ?_,
    h.received, ?_⟩
  · intro other
    by_cases hne : other = thread
    · subst hne
      simpa [HoldsMessage, Traffic.enter] using hstored
    · exact HoldsMessage.keep (h.holds other) (update_of_ne hne _ _)
        rfl (fun _ _ hsome => hsome) fun hsize data howns =>
          hkept data ((h.holds other).allocated hsize howns)
  · intro hsize
    have howned := h.owned hsize
    rw [bufferOf_enter]
    refine ⟨?_, howned.nodup, ?_⟩
    · refine howned.apart.update (fun other hne => update_of_ne hne _ _) ?_
      intro value hvalue other _ hother
      rw [update_self] at hvalue
      cases hvalue
      exact (h.holds other).allocated hsize hother (hblock hsize)
    · intro other value hvalue hmem
      rw [update_apply] at hvalue
      split at hvalue
      · cases hvalue
        exact allocated_of_queue h.queue hsize _ hmem (hblock hsize)
      · exact howned.disjoint other value hvalue hmem
  · rw [turnOf_enter]
    have hsame : update t.turnOf thread none = t.turnOf := by rw [← hturn, update_eq_self]
    exact hsame.symm ▸ h.turns

lemma bufferOf_eq {activity : Activity} (hactivity : t.activity thread = some activity) :
    t.bufferOf thread = activity.buffer := by
  rw [bufferOf, hactivity, Option.bind_some]

lemma turnOf_eq {activity : Activity} (hactivity : t.activity thread = some activity) :
    t.turnOf thread = activity.turn := by
  rw [turnOf, hactivity, Option.bind_some]

/-- A thread that no longer owns its buffer leaves the other owners alone. -/
lemma Owned.drop {bufferOf : Nat → Option Nat} (h : Owned bufferOf slots) (thread : Nat) :
    Owned (update bufferOf thread none) slots := by
  refine ⟨h.apart.update (fun other hne => update_of_ne hne _ _) ?_, h.nodup, ?_⟩
  · intro value hvalue
    rw [update_self] at hvalue
    cases hvalue
  · intro other data hdata
    rw [update_apply] at hdata
    split at hdata
    · cases hdata
    · exact h.disjoint other data hdata

/-- `SendMessage` puts its buffer at the end of the list. -/
lemma Storage.insert (h : t.Storage members slots) {node : Nat}
    (hactivity : t.activity thread = some (.inserting data message)) (hnode : node ≠ 0)
    (hfree : t.mbox.data.nodes node = none) : ∃ t', t.insert thread node data message = .ok t' ∧
    t'.Storage (members ++ [node]) (slots ++ [data]) := by
  obtain ⟨list, hinsert, hlist⟩ := h.list.insertEnd hnode hfree data
  have hbuffer : t.bufferOf thread = some data := bufferOf_eq hactivity
  have hturn : t.turnOf thread = none := turnOf_eq hactivity
  have hlog : ∀ (turn : Nat) other, t.inserted[turn]? = some other →
      (t.inserted ++ [message])[turn]? = some other := by
    intro turn other hsome
    obtain ⟨hlt, _⟩ := List.getElem?_eq_some_iff.mp hsome
    rwa [List.getElem?_append_left hlt]
  have hholds := h.holds thread
  rw [HoldsMessage, hactivity] at hholds
  refine ⟨_, by rw [Traffic.insert, hinsert], hlist, ?_, ?_, ?_, ?_, ?_, ?_⟩
  · exact h.removed_le.trans (by simp [Traffic.enter])
  · simp only [Traffic.enter]
    rw [drop_append_of_le_length h.removed_le]
    exact rel_append h.queue (.cons hholds .nil)
  · intro other
    by_cases hne : other = thread
    · subst hne
      simp [HoldsMessage, Traffic.enter]
    · exact HoldsMessage.keep (h.holds other) (update_of_ne hne _ _) rfl hlog fun _ _ _ => rfl
  · intro hsize
    have howned := h.owned hsize
    rw [bufferOf_enter]
    have hdrop := howned.drop thread
    refine ⟨hdrop.apart, ?_, ?_⟩
    · refine nodup_append.mpr ⟨howned.nodup, nodup_singleton data, ?_⟩
      rintro other hmem _ hsingle rfl
      exact howned.disjoint thread data hbuffer (mem_singleton.mp hsingle ▸ hmem)
    · intro other value hvalue hmem
      have hold : t.bufferOf other = some value ∧ other ≠ thread := by
        rw [update_apply] at hvalue
        split at hvalue
        · cases hvalue
        · rename_i hne
          exact ⟨hvalue, hne⟩
      rcases mem_append.mp hmem with hmem | hmem
      · exact howned.disjoint other value hold.1 hmem
      · rw [mem_singleton.mp hmem] at hold
        exact hold.2 (howned.apart other thread data hold.1 hbuffer)
  · intro receipt hmem
    exact hlog _ _ (h.received receipt hmem)
  · rw [turnOf_enter]
    have hsame : update t.turnOf thread none = t.turnOf := by rw [← hturn, update_eq_self]
    exact hsame.symm ▸ h.turns

/-- A message is removed and has the next turn. -/
lemma Turns.remove {turnOf : Nat → Option Nat} {removed : Nat} (h : Turns turnOf removed received)
    (hnone : turnOf thread = none) :
    Turns (update turnOf thread (some removed)) (removed + 1) received := by
  refine ⟨h.apart.update (fun other hne => update_of_ne hne _ _) ?_, h.once, ?_, ?_, ?_⟩
  · intro value hvalue other _ hother
    rw [update_self] at hvalue
    cases hvalue
    exact Nat.lt_irrefl _ (h.pending other _ hother).1
  · intro other turn hturn
    rw [update_apply] at hturn
    split at hturn
    · cases hturn
      exact ⟨Nat.lt_succ_self _, fun hmem => Nat.lt_irrefl _ (h.lt _ hmem)⟩
    · obtain ⟨hlt, hnot⟩ := h.pending other turn hturn
      exact ⟨Nat.lt_succ_of_lt hlt, hnot⟩
  · intro turn hmem
    exact Nat.lt_succ_of_lt (h.lt turn hmem)
  · intro turn hlt
    rcases Nat.lt_succ_iff_lt_or_eq.mp hlt with hlt | rfl
    · refine (h.taken turn hlt).imp id ?_
      rintro ⟨other, hother⟩
      have hne : other ≠ thread := by
        rintro rfl
        rw [hnone] at hother
        cases hother
      exact ⟨other, by rwa [update_of_ne hne]⟩
    · exact .inr ⟨thread, update_self _ _ _⟩

/-- A message that was on its way is received. -/
lemma Turns.receive {turnOf : Nat → Option Nat} {removed turn : Nat} (h : Turns turnOf removed received)
    (hturn : turnOf thread = some turn) (payload : List UInt8) :
    Turns (update turnOf thread none) removed
      (⟨turn, payload⟩ :: received) := by
  obtain ⟨hlt, hnot⟩ := h.pending thread turn hturn
  refine ⟨h.apart.update (fun other hne => update_of_ne hne _ _) ?_,
    nodup_cons.mpr ⟨hnot, h.once⟩, ?_, ?_, ?_⟩
  · intro value hvalue
    rw [update_self] at hvalue
    cases hvalue
  · intro other value hvalue
    rw [update_apply] at hvalue
    split at hvalue
    · cases hvalue
    · rename_i hne
      obtain ⟨hless, hnew⟩ := h.pending other value hvalue
      refine ⟨hless, fun hmem => ?_⟩
      rcases mem_cons.mp hmem with rfl | hmem
      · exact hne (h.apart other thread _ hvalue hturn)
      · exact hnew hmem
  · intro value hmem
    rcases mem_cons.mp hmem with rfl | hmem
    · exact hlt
    · exact h.lt value hmem
  · intro value hless
    rcases h.taken value hless with hmem | ⟨other, hother⟩
    · exact .inl (mem_cons_of_mem turn hmem)
    · by_cases hne : other = thread
      · subst hne
        rw [hturn] at hother
        cases hother
        exact .inl mem_cons_self
      · exact .inr ⟨other, by rwa [update_of_ne hne]⟩

/-- A buffer goes from the front of the list to a thread. -/
lemma Owned.take {bufferOf : Nat → Option Nat} (h : Owned bufferOf (data :: slots))
    (thread : Nat) : Owned (update bufferOf thread (some data)) slots := by
  obtain ⟨hnot, hnodup⟩ := nodup_cons.mp h.nodup
  refine ⟨h.apart.update (fun other hne => update_of_ne hne _ _) ?_, hnodup, ?_⟩
  · intro value hvalue other _ hother
    rw [update_self] at hvalue
    cases hvalue
    exact h.disjoint other data hother mem_cons_self
  · intro other value hvalue hmem
    rw [update_apply] at hvalue
    split at hvalue
    · cases hvalue
      exact hnot hmem
    · exact h.disjoint other value hvalue (mem_cons_of_mem data hmem)

/-- `ReceiveMessage` takes the first message from a list that is not empty. -/
lemma Storage.remove (h : t.Storage members slots)
    (hactivity : t.activity thread = some .removing) (hsome : t.removed < t.inserted.length) :
    ∃ t' members' slots', t.remove thread = .ok t' ∧ t'.Storage members' slots' := by
  have hturn : t.turnOf thread = none := turnOf_eq hactivity
  have hqueue := h.queue
  rw [drop_eq_getElem_cons hsome] at hqueue
  obtain ⟨data, rest, hstored, hrest, rfl⟩ := forall₂_cons_right_iff.mp hqueue
  obtain ⟨node, nodes, rfl⟩ : ∃ node nodes, members = node :: nodes :=
    exists_cons_of_length_eq_add_one h.list.length_eq
  have hfirst := h.list.getFirst
  obtain ⟨list, hdelete, hlist⟩ := Adt.LinkedList.Holds.deleteIndex
    (show t.mbox.data.Holds ([] ++ node :: nodes) ([] ++ data :: rest) from h.list) rfl
  refine ⟨_, nodes, rest, by
    rw [Traffic.remove, hfirst]
    rw [show t.mbox.data.deleteIndex 0 = _ from hdelete], ?_⟩
  refine ⟨hlist, hsome, hrest, ?_, ?_, h.received, ?_⟩
  · intro other
    by_cases hne : other = thread
    · subst hne
      simp only [HoldsMessage, Traffic.enter, update_self]
      exact ⟨_, List.getElem?_eq_getElem hsome, hstored⟩
    · exact HoldsMessage.keep (h.holds other) (update_of_ne hne _ _)
        rfl (fun _ _ hsome => hsome) fun _ _ _ => rfl
  · intro hsize
    rw [bufferOf_enter]
    exact (h.owned hsize).take thread
  · rw [turnOf_enter]
    exact h.turns.remove hturn

lemma remove_effect (h : t.remove thread = .ok t') : t'.mbox.sem = t.mbox.sem ∧
    t'.inserted = t.inserted ∧ t'.removed = t.removed + 1 ∧
    ∃ data, t'.activity = update t.activity thread (some (.copying data t.removed)) := by
  unfold remove at h
  split at h
  · cases h
  · split at h
    · cases h
    · cases h
      exact ⟨rfl, rfl, rfl, _, rfl⟩

/-- `ReceiveMessage` copies its message out and frees the buffer. -/
lemma Storage.copy (h : t.Storage members slots) {turn : Nat}
    (hactivity : t.activity thread = some (.copying data turn)) :
    ∃ t', t.copy thread data turn = .ok t' ∧ t'.Storage members slots := by
  have hbuffer : t.bufferOf thread = some data := bufferOf_eq hactivity
  have hturn : t.turnOf thread = some turn := turnOf_eq hactivity
  have hholds := h.holds thread
  rw [HoldsMessage, hactivity] at hholds
  obtain ⟨message, hmessage, hstored⟩ := hholds
  have hread : readBuffer t.buffers t.mbox.payloadSize data = .ok message := by
    unfold Stored at hstored
    unfold readBuffer
    split at hstored
    · rename_i hzero
      rw [if_pos hzero, hstored]
    · rename_i hsize
      rw [if_neg hsize, hstored]
  have hkept : ∀ other, other ≠ data → freeHeap t.buffers data other = t.buffers other := by
    intro other hne
    unfold freeHeap
    split
    · rfl
    · exact update_of_ne hne _ _
  refine ⟨_, by rw [Traffic.copy, hread, ok_bind], ?_⟩
  refine ⟨h.list, h.removed_le, ?_, ?_, ?_, ?_, ?_⟩
  · refine queue_keep h.queue fun hsize other hmem => hkept other ?_
    rintro rfl
    exact (h.owned hsize).disjoint thread other hbuffer hmem
  · intro other
    by_cases hne : other = thread
    · subst hne
      simp [HoldsMessage, Traffic.enter]
    · refine HoldsMessage.keep (h.holds other) (update_of_ne hne _ _)
        rfl (fun _ _ hsome => hsome) fun hsize owned howns => hkept owned ?_
      rintro rfl
      exact hne ((h.owned hsize).apart other thread owned howns hbuffer)
  · intro hsize
    rw [bufferOf_enter]
    exact (h.owned hsize).drop thread
  · intro receipt hmem
    rcases mem_cons.mp hmem with rfl | hmem
    · exact hmessage
    · exact h.received receipt hmem
  · rw [turnOf_enter]
    exact h.turns.receive hturn message

end Traffic

/-- A call owes a unit when it has inserted a message and not yet released the
semaphore, or has acquired it and not yet removed a message. -/
def Activity.owes : Activity → Nat
  | .releasing | .removing => 1
  | .inserting _ _ | .acquiring | .copying _ _ => 0

/-- What the kernel's session says about a thread agrees with its call. -/
def Agrees (sem : Nat) (target : Option (Nat × Int)) : Option Activity → Prop
  | some .acquiring => target = some (sem, -1)
  | none | some (.inserting _ _) | some .releasing | some .removing
  | some (.copying _ _) => ∀ timeoutMs, target ≠ some (sem, timeoutMs)

namespace System

variable {idle : Nat} {initial : Nat → Int} {k k' : System} {session' : Session}

/-- The units of the semaphore and the messages of the list. -/
structure Units (idle : Nat) (initial : Nat → Int) (k : System) : Prop where
  order : k.session.InOrder idle initial
  patient : k.session.Patient
  max : k.session.kernel.maxCount k.traffic.mbox.sem = semBigNumber
  agrees : ∀ thread, Agrees k.traffic.mbox.sem (k.session.target thread) (k.traffic.activity thread)
  units : k.session.delivered
    k.traffic.mbox.sem + k.traffic.inserted.length = semBigNumber + k.traffic.removed + tally
    k.session.kernel.threadCount (fun thread => weigh Activity.owes (k.traffic.activity thread))
  bound : k.traffic.inserted.length ≤ k.traffic.removed + semBigNumber

namespace Units

section

variable (h : k.Units idle initial)
include h

/-- The current thread goes on with its call. -/
lemma change (horder : k'.session.InOrder idle initial)
    (hfixed : Session.Fixed k.session k'.session) (hsem : k'.traffic.mbox.sem = k.traffic.mbox.sem)
    {next : Option Activity}
    (hactivity : k'.traffic.activity = update k.traffic.activity k.current next)
    (hothers : ∀ other, other ≠ k.current → k'.session.target other = k.session.target other)
    (hself : Agrees k.traffic.mbox.sem (k'.session.target k.current) next)
    (hunits : k'.session.delivered k.traffic.mbox.sem +
        k'.traffic.inserted.length + k.traffic.removed + weigh owes k.activity =
      k.session.delivered k.traffic.mbox.sem + k.traffic.inserted.length +
        k'.traffic.removed + weigh owes next)
    (hbound : k'.traffic.inserted.length ≤ k'.traffic.removed + semBigNumber) :
    k'.Units idle initial where
  order := horder
  patient := hfixed.patient h.patient
  max := by rw [hfixed.max, hsem, h.max]
  agrees other := by
    rw [hsem, hactivity]
    by_cases hne : other = k.current
    · subst hne
      rw [update_self]
      exact hself
    · rw [update_of_ne hne, hothers other hne]
      exact h.agrees other
  units := by
    have htally := tally_update (current_le h.order)
      (fun _ => owes) k.traffic.activity next
    have hold := h.units
    rw [hsem, hactivity, hfixed.threads]
    simp only [activity, current] at hunits
    simp only [current]
    omega
  bound := hbound

/-- What the current thread does leaves the message box alone. -/
lemma aside (horder : session'.InOrder idle initial) (hfixed : Session.Fixed k.session session')
    (hothers : ∀ other, other ≠ k.current → session'.target other = k.session.target other)
    (hself : Agrees k.traffic.mbox.sem (session'.target k.current) k.activity)
    (hdelivered : session'.delivered k.traffic.mbox.sem = k.session.delivered k.traffic.mbox.sem) :
    Units idle initial ⟨session', k.traffic⟩ :=
  h.change horder hfixed rfl (update_eq_self _ _).symm hothers hself
    (by rw [hdelivered]; rfl) h.bound

lemma agrees_of (hactivity : k.activity = activity) :
    Agrees k.traffic.mbox.sem (k.session.target k.current) activity :=
  hactivity ▸ h.agrees k.current

end

lemma owes_le {thread : Nat} {activity : Activity} (hthread : thread ≤ k.session.kernel.threadCount)
    (hactivity : k.traffic.activity thread = some activity) :
    activity.owes ≤ tally k.session.kernel.threadCount (fun thread =>
      weigh owes (k.traffic.activity thread)) := by
  have hle := le_tally (fun thread => weigh owes (k.traffic.activity thread)) hthread
  rwa [hactivity] at hle

/-- A thread that is about to remove a message finds one. -/
lemma removed_lt (h : k.Units idle initial) {thread : Nat}
    (hthread : thread ≤ k.session.kernel.threadCount)
    (hactivity : k.traffic.activity thread = some .removing) :
    k.traffic.removed < k.traffic.inserted.length := by
  have hle := owes_le hthread hactivity
  have hmax := (delivered_le h.order k.traffic.mbox.sem).2
  have hunits := h.units
  rw [h.max] at hmax
  simp only [owes] at hle
  omega

/-- A thread that is about to release the semaphore can do so. -/
lemma currentCount_pos (h : k.Units idle initial) (hactivity : k.activity = some .releasing) :
    0 < k.session.kernel.currentCount k.traffic.mbox.sem := by
  have hle := owes_le (current_le h.order) hactivity
  have hcount := (delivered_le h.order k.traffic.mbox.sem).1
  have hunits := h.units
  have hbound := h.bound
  simp only [owes] at hle
  omega

end Units

structure Sound (idle : Nat) (initial : Nat → Int) (k : System) : Prop where
  units : k.Units idle initial
  storage : ∃ members slots, k.traffic.Storage members slots

/-- The outcome is a system that keeps the accounts. -/
abbrev Continues (idle : Nat) (initial : Nat → Int) (outcome : Except Stop System) : Prop :=
  ∃ k', outcome = .ok k' ∧ k'.Sound idle initial

lemma call_eq {call : Call} (hstep : call.step k.session = .ok session') (traffic : Traffic) :
    k.call call traffic = .ok ⟨session', traffic⟩ := by
  rw [System.call, hstep]

/-- A thread in no call owns nothing. -/
lemma idle_owns (hactivity : k.activity = none) :
    k.traffic.bufferOf k.current = none ∧ k.traffic.turnOf k.current = none := by
  have hactivity : k.traffic.activity k.current = none := hactivity
  rw [bufferOf, turnOf, hactivity]
  exact ⟨rfl, rfl⟩

lemma send_sound (h : k.Sound idle initial) (hactivity : k.activity = none)
    (payload : Nat → UInt8) {block : Nat} (hfree : k.traffic.buffers block = none) :
    Sound idle initial { k with traffic := k.traffic.send k.current payload block } := by
  obtain ⟨members, slots, hstorage⟩ := h.storage
  have hagrees := h.units.agrees_of hactivity
  refine ⟨?_, members, slots, hstorage.send (idle_owns hactivity).2 payload hfree⟩
  refine h.units.change h.units.order ⟨rfl, rfl, id⟩ rfl rfl (fun _ _ => rfl)
    hagrees ?_ h.units.bound
  rw [hactivity]
  rfl

lemma receive_sound (h : k.Sound idle initial) (hactivity : k.activity = none)
    (hmay : k.session.MayBlock idle) : Continues idle initial k.receive := by
  obtain ⟨members, slots, hstorage⟩ := h.storage
  obtain ⟨session', hstep, horder, hfixed, hdelivered, htarget⟩ :=
    acquire_effect h.units.order hmay k.traffic.mbox.sem (-1)
  obtain ⟨hbuffer, hturn⟩ := idle_owns hactivity
  refine ⟨_, call_eq hstep _, ?_, members, slots, hstorage.enter hbuffer hturn rfl rfl⟩
  refine h.units.change horder hfixed rfl rfl ?_ ?_ ?_ h.units.bound
  · intro other hne
    rw [htarget]
    exact update_of_ne hne _ _
  · rw [htarget]
    exact update_self _ _ _
  · rw [hdelivered, hactivity]
    rfl

section Resume

variable {members slots : List Nat} (h : k.Units idle initial)
  (hstorage : k.traffic.Storage members slots)

include h hstorage

lemma resume_inserting {node data : Nat} {message : List UInt8}
    (hactivity : k.activity = some (.inserting data message))
    (hnode : node ≠ 0) (hfree : k.traffic.mbox.data.nodes node = none)
    (hroom : k.traffic.inserted.length < k.traffic.removed + semBigNumber) :
    Continues idle initial (k.resume node (.inserting data message)) := by
  have hagrees := h.agrees_of hactivity
  obtain ⟨list, hinsert, _⟩ := hstorage.list.insertEnd hnode hfree data
  obtain ⟨traffic', hstep, hstorage'⟩ := hstorage.insert hactivity hnode hfree
  refine ⟨_, by rw [resume, hstep, ok_bind], ?_, _, _, hstorage'⟩
  rw [Traffic.insert, hinsert] at hstep
  cases hstep
  refine h.change h.order ⟨rfl, rfl, id⟩ rfl rfl (fun _ _ => rfl) hagrees ?_ ?_
  · rw [hactivity]
    simp only [Traffic.enter, length_append, length_singleton, weigh, owes]
    omega
  · simp only [Traffic.enter, length_append, length_singleton]
    omega

section

variable (node : Nat)

lemma resume_releasing (hactivity : k.activity = some .releasing) :
    Continues idle initial (k.resume node .releasing) := by
  have hagrees := h.agrees_of hactivity
  obtain ⟨session', hstep, horder, heffect⟩ := release_effect
    h.order k.traffic.mbox.sem (h.currentCount_pos hactivity)
  refine ⟨_, call_eq hstep _, ?_, members, slots, hstorage.enter
    (bufferOf_eq hactivity) (turnOf_eq hactivity) rfl rfl⟩
  refine h.change horder heffect.fixed rfl rfl ?_ ?_ ?_ h.bound
  · intro other _
    rw [heffect.target]
  · rw [heffect.target]
    exact hagrees
  · rw [heffect.delivered, if_pos rfl, hactivity]
    simp only [enter, weigh, owes]
    omega

lemma resume_acquiring (hactivity : k.activity = some .acquiring)
    (hpostponed : k.session.kernel.postponedTaskSwitch = false) :
    Continues idle initial (k.resume node .acquiring) := by
  have hagrees := h.agrees_of hactivity
  obtain ⟨session', hstep, horder, hfixed, hdelivered, htarget⟩ :=
    return_effect h.order hpostponed
  have hresult := result_of_patient h.order h.patient hpostponed hagrees
  have hone := undelivered_eq h.order hpostponed hagrees
  rw [if_pos hresult] at hone
  rw [resume, if_pos (show acquireResult (k.session.kernel.thread k.current) (-1) =
    .success from hresult)]
  refine ⟨_, call_eq hstep _, ?_, members, slots, hstorage.enter
    (bufferOf_eq hactivity) (turnOf_eq hactivity) rfl rfl⟩
  refine h.change horder hfixed rfl rfl ?_ ?_ ?_ h.bound
  · intro other hne
    rw [htarget]
    exact update_of_ne hne _ _
  · rw [htarget]
    rw [show k.current = k.session.current from rfl, update_self]
    exact nofun
  · rw [hdelivered, hactivity]
    simp only [enter, weigh, owes]
    omega

lemma resume_removing (hactivity : k.activity = some .removing) :
    Continues idle initial (k.resume node .removing) := by
  have hagrees := h.agrees_of hactivity
  have hsome := h.removed_lt (current_le h.order) hactivity
  obtain ⟨traffic', members', slots', hstep, hstorage'⟩ := hstorage.remove hactivity hsome
  obtain ⟨hsem, hinserted, hremoved, data, hentered⟩ := remove_effect hstep
  refine ⟨_, by rw [resume, hstep, ok_bind], ?_, _, _, hstorage'⟩
  refine h.change h.order ⟨rfl, rfl, id⟩ hsem hentered (fun _ _ => rfl) hagrees ?_ ?_
  · rw [hactivity, hinserted]
    simp only [weigh, owes]
    omega
  · have hbound := h.bound
    rw [hinserted, hremoved]
    omega

lemma resume_copying {data turn : Nat} (hactivity : k.activity = some (.copying data turn)) :
    Continues idle initial (k.resume node (.copying data turn)) := by
  have hagrees := h.agrees_of hactivity
  obtain ⟨traffic', hstep, hstorage'⟩ := hstorage.copy hactivity
  refine ⟨_, by rw [resume, hstep, ok_bind], ?_, _, _, hstorage'⟩
  obtain ⟨message, _, hok⟩ := bind_eq_ok hstep
  cases hok
  refine h.change h.order ⟨rfl, rfl, id⟩ rfl rfl (fun _ _ => rfl) hagrees ?_ h.bound
  rw [hactivity]
  rfl

end

end Resume

section

variable (h : k.Sound idle initial)
include h

/-- What the kernel does with other semaphores, and at other times, leaves the
message box alone. -/
lemma other_sound {call : Call} (hallowed : (Event.other call).Allowed idle initial k) :
    Continues idle initial (k.call call k.traffic) := by
  obtain ⟨hcall, hapart⟩ := hallowed
  have hagrees := h.units.agrees k.current
  have hforeign : Session.Foreign (· = k.traffic.mbox.sem) (k.activity = none) call := by
    cases call with
    | acquire => exact ⟨hapart.1, fun hsem => hapart.2 hsem.symm⟩
    | release => exact fun hsem => hapart hsem.symm
    | return_ => exact hapart
    | _ => trivial
  obtain ⟨session', hstep, horder, hspares⟩ :=
    foreign_effect h.units.order hcall hforeign (by
      rintro hnone _ timeoutMs rfl
      rw [show k.traffic.activity k.current = none from hnone] at hagrees
      exact hagrees timeoutMs)
  refine ⟨_, call_eq hstep _, h.units.aside horder hspares.fixed hspares.others
    ?_ (hspares.delivered _ rfl), h.storage⟩
  rcases hspares.self with hsame | ⟨hnone, htarget⟩
  · rw [show k.current = k.session.current from rfl, hsame]
    exact hagrees
  · rw [hnone]
    exact fun timeoutMs => htarget _ timeoutMs rfl

/-- One step: it succeeds and keeps the accounts. -/
lemma step_sound {event : Event}
    (hallowed : event.Allowed idle initial k) : Continues idle initial (event.step k) := by
  cases event with
  | send payload block =>
    obtain ⟨hactivity, _, hfree⟩ := hallowed
    exact ⟨_, rfl, send_sound h hactivity payload hfree⟩
  | receive => exact receive_sound h hallowed.1 hallowed.2
  | resume node =>
    rw [Event.step]
    rw [Event.Allowed] at hallowed
    cases hactivity : k.activity with
    | none =>
      rw [hactivity] at hallowed
      exact hallowed.elim
    | some activity =>
      rw [hactivity] at hallowed
      obtain ⟨hunits, members, slots, hstorage⟩ := h
      cases activity with
      | inserting data message =>
        obtain ⟨hnode, hfree, hroom⟩ := hallowed
        exact resume_inserting hunits hstorage hactivity hnode hfree hroom
      | releasing => exact resume_releasing hunits hstorage node hactivity
      | acquiring => exact resume_acquiring hunits hstorage node hactivity hallowed
      | removing => exact resume_removing hunits hstorage node hactivity
      | copying data turn => exact resume_copying hunits hstorage node hactivity
  | other call => exact other_sound h hallowed

/-- The message box delivers every message exactly once and in order: the
removal with number `turn` takes the message that was inserted with that
number, and the receiver gets it byte for byte. -/
structure ExactlyOnce (idle : Nat) (initial : Nat → Int) (k : System) : Prop where
  payload : ∀ receipt ∈ k.traffic.received, k.traffic.inserted[receipt.turn]? = some receipt.payload
  once : (k.traffic.received.map Receipt.turn).Nodup
  taken : ∀ turn, turn < k.traffic.removed ↔
    turn ∈ k.traffic.received.map Receipt.turn ∨ ∃ thread, k.traffic.turnOf thread = some turn
  apart : Apart k.traffic.turnOf
  pending : ∀ thread turn, k.traffic.turnOf thread = some turn →
    turn ∉ k.traffic.received.map Receipt.turn
  size : k.traffic.mbox.data.size = k.traffic.inserted.length - k.traffic.removed
  found : ∀ thread, k.session.kernel.IsThread thread →
    k.traffic.activity thread = some .removing → k.traffic.mbox.data.head ≠ 0
  progress : ∀ event : Event, event.Allowed idle initial k → ∃ k', event.step k = .ok k'

lemma Sound.exactlyOnce : k.ExactlyOnce idle initial := by
  obtain ⟨members, slots, hstorage⟩ := h.storage
  have hturns := hstorage.turns
  have hlength := hstorage.queue.length_eq
  rw [length_drop] at hlength
  have hle := hstorage.removed_le
  refine ⟨hstorage.received, hturns.once, fun turn => ⟨hturns.taken turn, ?_⟩,
    hturns.apart, fun thread turn hturn => (hturns.pending thread turn hturn).2, ?_, ?_, ?_⟩
  · rintro (hmem | ⟨thread, hturn⟩)
    · exact hturns.lt turn hmem
    · exact (hturns.pending thread turn hturn).1
  · rw [hstorage.list.size]
    omega
  · intro thread hthread hactivity hhead
    have hlt := h.units.removed_lt hthread.2 hactivity
    have hnil := hstorage.list.chain.node_eq_zero_iff.mp hhead
    have hmembers := hstorage.list.length_eq
    rw [hnil, length_nil] at hmembers
    omega
  · intro event hallowed
    obtain ⟨k', hstep, _⟩ := step_sound h hallowed
    exact ⟨k', hstep⟩

end

lemma start_sound {s : State} {payloadSize sem : Nat}
    (hboot : Booted idle initial (createMessageBox s payloadSize sem).1) :
    (start (createMessageBox s payloadSize sem)).Sound idle initial := by
  refine ⟨⟨start_inOrder hboot, ?_, ?_, ?_, ?_, Nat.zero_le _⟩, [], [],
    start_storage s payloadSize sem⟩
  · intro thread a ha
    cases ha
  · exact update_self _ _ _
  · intro thread timeoutMs hsome
    cases hsome
  · change (Session.start (createMessageBox s payloadSize sem).1).delivered _ +
      (0 : Nat) = _ + (0 : Nat) + (tally _ fun _ => 0 : Nat)
    have hcount : (createMessageBox s payloadSize sem).1.currentCount sem =
        semBigNumber := update_self _ _ _
    rw [Session.start_delivered, tally_zero]
    change (createMessageBox s payloadSize sem).1.currentCount sem + _ = _
    rw [hcount]
    rfl

/-- In every run of a message box, whatever the size of its messages, the
calls and their order, every message is delivered exactly once and in order. -/
theorem run_exactlyOnce {s : State} {payloadSize sem : Nat} {events : List Event}
    (hboot : Booted idle initial (createMessageBox s payloadSize sem).1)
    (hrun : Run (Step idle initial) (start (createMessageBox s payloadSize sem)) events k) :
    k.ExactlyOnce idle initial := by
  refine Sound.exactlyOnce ?_
  refine hrun.invariant (P := Sound idle initial) (start_sound hboot) ?_
  rintro before event after hbefore ⟨hallowed, hstep⟩
  obtain ⟨k', hstep', hafter⟩ := step_sound hbefore hallowed
  rw [hstep] at hstep'
  cases hstep'
  exact hafter

def bytesInitial (sem : Nat) : Int :=
  if sem = 0 then semBigNumber else 0

lemma threeThreads_messages : Booted 1 bytesInitial (createMessageBox threeThreads 1 0).1 where
  __ := threeThreads_booted
  created sem := by
    rcases sem with _ | sem <;> simp [createSemaphore, createMessageBox, threeThreads, bytesInitial]
  nonneg sem := by
    unfold bytesInitial
    split <;> decide
  le_max sem := by
    rcases sem with _ | sem <;> simp [createSemaphore, createMessageBox, threeThreads, bytesInitial]

/-- A thread sends a byte and receives it. -/
theorem oneMessage_exactlyOnce :
      ∃ events k, Run (Step 1 bytesInitial) (start (createMessageBox threeThreads 1 0)) events k ∧
      k.traffic.received.map Receipt.payload = [[7]] ∧ k.ExactlyOnce 1 bytesInitial := by
  have hsend : Step 1 bytesInitial (start (createMessageBox threeThreads 1 0))
      (.send (fun _ => 7) 5) _ := ⟨⟨rfl, by decide, rfl⟩, rfl⟩
  have hinsert := (Run.single hsend).snoc
    (show Step _ _ _ (.resume 9) _ from ⟨⟨by decide, rfl, by decide⟩, rfl⟩)
  have hrelease := hinsert.snoc (show Step _ _ _ (.resume 0) _ from ⟨trivial, rfl⟩)
  have hreceive := hrelease.snoc (show Step _ _ _ .receive _ from
    ⟨⟨rfl, show Session.MayBlock _ _ from ⟨by decide, rfl, rfl⟩⟩, rfl⟩)
  have hreturn := hreceive.snoc (show Step _ _ _ (.resume 0) _ from ⟨rfl, rfl⟩)
  have hremove := hreturn.snoc (show Step _ _ _ (.resume 0) _ from ⟨trivial, rfl⟩)
  have hcopy := hremove.snoc (show Step _ _ _ (.resume 0) _ from ⟨trivial, rfl⟩)
  exact ⟨_, _, hcopy, rfl, run_exactlyOnce threeThreads_messages hcopy⟩

end System

end Merlon.Messages
