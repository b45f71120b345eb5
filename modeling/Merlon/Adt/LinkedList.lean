/-
The linked lists of `adt/linkedlist.c`.  A node is known by its address, null
is zero, and an address without a node is free.  The nodes that are reached
from `head` hold a sequence: a new element goes behind `tail`, and deleting by
an index takes out the element at that index.
-/
import Mathlib.Data.List.Nodup
import Mathlib.Logic.Function.Basic
import Merlon.Library.Chain
import Merlon.Library.Outcome

namespace Merlon.Adt

open List

open Function (update update_of_ne)

/-- `struct linked_list_node`. -/
structure ListNode (α : Type) where
  data : α
  next : Nat

/-- `struct linked_list`, with the nodes that are allocated. -/
structure LinkedList (α : Type) where
  size : Int
  head : Nat
  tail : Nat
  nodes : Nat → Option (ListNode α)

/-- `wild` is an access through null or through a freed node. -/
inductive ListStop where
  | assertion
  | panicLinkedList
  | wild
  deriving DecidableEq

namespace LinkedList

variable {α : Type} {address : Nat}

def create : LinkedList α where
  size := 0
  head := 0
  tail := 0
  nodes := fun _ => none

/-- The node behind a pointer that is dereferenced. -/
def node (list : LinkedList α) (address : Nat) :
    Except ListStop (ListNode α) :=
  match list.nodes address with
  | some node => .ok node
  | none => .error .wild

/-- `ListInsertEnd`; `AllocHeap` has returned the address of the new node. -/
def insertEnd (list : LinkedList α) (new : Nat) (data : α) :
    Except ListStop (LinkedList α) :=
  if list.tail = 0 then
    if list.head ≠ 0 then .error .assertion
    else .ok
      { size := list.size + 1
        head := new
        tail := new
        nodes := update list.nodes new (some ⟨data, 0⟩) }
  else do
    let last ← list.node list.tail
    let linked := update list.nodes list.tail
      (some { last with next := new })
    .ok
      { list with
        size := list.size + 1
        tail := new
        nodes := update linked new (some ⟨data, 0⟩) }

/-- `ProperDelete`. -/
def properDelete (list : LinkedList α) (iter prev : Nat) :
    Except ListStop (LinkedList α) := do
  let deleted ← list.node iter
  let list ←
    if iter = list.head then .ok { list with head := deleted.next }
    else do
      let before ← list.node prev
      let linked := update list.nodes prev
        (some { before with next := deleted.next })
      .ok { list with nodes := linked }
  .ok
    { list with
      size := list.size - 1
      tail := if iter = list.tail then prev else list.tail
      nodes := update list.nodes iter none }

/-- The loop of `ListDeleteIndex`, with so many nodes still to pass. -/
def deleteFrom (list : LinkedList α) (iter prev : Nat) :
    Nat → Except ListStop (Bool × LinkedList α)
  | 0 =>
    if iter = 0 then .ok (false, list)
    else do
      let list ← list.properDelete iter prev
      .ok (true, list)
  | left + 1 =>
    if iter = 0 then .ok (false, list)
    else do
      let passed ← list.node iter
      list.deleteFrom passed.next iter left

/-- `ListDeleteIndex`. -/
def deleteIndex (list : LinkedList α) (index : Int) :
    Except ListStop (Bool × LinkedList α) :=
  if index ≥ list.size ∨ index < 0 then .ok (false, list)
  else list.deleteFrom list.head 0 index.toNat

/-- `ListGetDataFromNode`. -/
def getDataFromNode (list : LinkedList α) (address : Nat) :
    Except ListStop α :=
  if address = 0 then .error .panicLinkedList
  else do
    let node ← list.node address
    .ok node.data

def next (list : LinkedList α) (address : Nat) : Nat :=
  match list.nodes address with
  | some node => node.next
  | none => 0

def data? (list : LinkedList α) (address : Nat) : Option α :=
  (list.nodes address).map ListNode.data

/-- The nodes from `head` on, and what they hold. -/
structure Holds (list : LinkedList α) (members : List Nat)
    (contents : List α) : Prop where
  chain : Chain list.next list.head members
  nodup : members.Nodup
  tail : list.tail = members.getLast?.getD 0
  data : members.map list.data? = contents.map some
  size : list.size = contents.length

lemma create_holds : (create : LinkedList α).Holds [] [] := ⟨rfl, nodup_nil, rfl, rfl, rfl⟩

variable {list list' : LinkedList α} {members : List Nat} {contents : List α}

lemma node_of_data {value : α} (h : list.data? address = some value) :
    list.node address = .ok ⟨value, list.next address⟩ := by
  unfold node next
  obtain ⟨found, hfound, rfl⟩ := Option.map_eq_some_iff.mp h
  rw [hfound]

namespace Holds

section

variable (h : list.Holds members contents)

include h

lemma length_eq : members.length = contents.length := by
  have hlength := congrArg length h.data
  rwa [length_map, length_map] at hlength

/-- Every member is a node. -/
lemma exists_data (hmem : address ∈ members) : ∃ value, list.data? address = some value := by
  have hin : list.data? address ∈ contents.map some := by
    rw [← h.data]
    exact mem_map_of_mem hmem
  obtain ⟨value, _, hvalue⟩ := mem_map.mp hin
  exact ⟨value, hvalue.symm⟩

lemma ne_of_free {new : Nat} (hfree : list.nodes new = none) : new ∉ members := by
  intro hmem
  obtain ⟨value, hvalue⟩ := h.exists_data hmem
  rw [data?, hfree] at hvalue
  cases hvalue

/-- `ListInsertEnd` appends. -/
lemma insertEnd {new : Nat} (hnew : new ≠ 0) (hfree : list.nodes new = none) (data : α) :
    ∃ list', list.insertEnd new data = .ok list' ∧
    list'.Holds (members ++ [new]) (contents ++ [data]) := by
  have hnotin := h.ne_of_free hfree
  rcases eq_nil_or_concat' members with rfl | ⟨front, last, rfl⟩
  · obtain rfl : contents = [] := eq_nil_of_length_eq_zero h.length_eq.symm
    have htail : list.tail = 0 := h.tail
    have hhead : list.head = 0 := h.chain
    refine ⟨_, by rw [LinkedList.insertEnd, if_pos htail,
      if_neg (not_not.mpr hhead)], ?_, nodup_singleton new, rfl, ?_, ?_⟩
    · exact ⟨rfl, hnew, by simp [next, Chain]⟩
    · simp [data?]
    · simp [h.size]
  · have htail : list.tail = last := by simpa using h.tail
    have hlast : last ≠ 0 := h.chain.ne_zero_of_mem last (by simp)
    have hne : last ≠ new := fun heq => hnotin (by simp [heq])
    obtain ⟨value, hvalue⟩ := h.exists_data (show last ∈ front ++ [last] by simp)
    have hfront : ∀ other ∈ front, other ≠ last ∧ other ≠ new := by
      intro other hmem
      refine ⟨?_, fun heq => hnotin (by simp [← heq, hmem])⟩
      rintro rfl
      exact (nodup_append.mp h.nodup).2.2 other hmem other (by simp) rfl
    refine ⟨_, by rw [LinkedList.insertEnd, if_neg (htail ▸ hlast), htail,
      node_of_data hvalue, ok_bind], ?_, ?_, by simp, ?_, ?_⟩
    · refine h.chain.snoc hnew ?_ ?_ ?_
      · intro other hmem
        simp [next, update_of_ne (hfront other hmem).1, update_of_ne (hfront other hmem).2]
      · simp [next, update_of_ne hne]
      · simp [next]
    · exact nodup_append.mpr ⟨h.nodup, nodup_singleton new, by
        rintro other hmem _ hsingle rfl
        exact hnotin (mem_singleton.mp hsingle ▸ hmem)⟩
    · rw [map_append, map_congr_left (g := list.data?), h.data]
      · simp [data?]
      · intro other hmem
        rcases mem_append.mp hmem with hmem | hmem
        · simp [data?, update_of_ne (hfront other hmem).1, update_of_ne (hfront other hmem).2]
        · obtain rfl := mem_singleton.mp hmem
          rw [hvalue]
          simp [data?, update_of_ne hne]
    · simp [h.size]

end

/-- `ListDeleteIndex` passes the nodes in front of the one it deletes. -/
lemma deleteFrom_eq {front rear : List Nat} {iter member : Nat}
    (hchain : Chain list.next iter (front ++ member :: rear))
    (hnodes : ∀ other ∈ front, ∃ value, list.data? other = some value) (prev : Nat) :
    list.deleteFrom iter prev front.length =
      (list.properDelete member (front.getLast?.getD prev) >>= fun list' => .ok (true, list')) := by
  induction front generalizing iter prev with
  | nil =>
    obtain ⟨rfl, hne, _⟩ := hchain
    rw [length_nil, deleteFrom, if_neg hne]
    rfl
  | cons head tail ih =>
    obtain ⟨rfl, hne, htail⟩ := hchain
    obtain ⟨value, hvalue⟩ := hnodes iter mem_cons_self
    rw [length_cons, deleteFrom, if_neg hne, node_of_data hvalue,
      ok_bind, ih htail fun other hmem => hnodes other (mem_cons_of_mem iter hmem)]
    cases tail with
    | nil => rfl
    | cons second rest => rw [getLast?_cons_cons]; simp [getLast?_cons]

section Delete

variable {front rear : List Nat} {member : Nat} {before after : List α}
  {value : α}

/-- The nodes of a list that is taken apart hold its parts. -/
lemma data_split (h : list.Holds (front ++ member :: rear) (before ++ value :: after))
    (hlength : front.length = before.length) : front.map list.data? = before.map some ∧
    list.data? member = some value ∧ rear.map list.data? = after.map some := by
  have hdata := h.data
  rw [map_append, map_append] at hdata
  obtain ⟨hfront, hrest⟩ := append_inj hdata (by simp [hlength])
  rw [map_cons, map_cons, cons.injEq] at hrest
  exact ⟨hfront, hrest.1, hrest.2⟩

/-- A node differs from those in front of it and behind it. -/
lemma ne_member (h : list.Holds (front ++ member :: rear) contents) :
    ∀ other ∈ front ++ rear, other ≠ member := by
  have hnodup := nodup_middle.mp h.nodup
  rintro other hmem rfl
  exact (nodup_cons.mp hnodup).1 hmem

/-- `tail` moves back when the last node is deleted. -/
lemma tail_of_delete (h : list.Holds (front ++ member :: rear) contents) :
    (if member = list.tail then front.getLast?.getD 0 else list.tail) =
      (front ++ rear).getLast?.getD 0 := by
  have hne := ne_member h
  rw [h.tail]
  cases rear with
  | nil => simp
  | cons second rest =>
    have hlast : (front ++ member :: second :: rest).getLast?.getD 0 =
        (front ++ second :: rest).getLast?.getD 0 := by
      simp [getLast?_cons]
    rw [hlast, if_neg]
    have hsome : (front ++ second :: rest).getLast?.getD 0 ∈ front ++ second :: rest := by
      rw [getLast?_eq_some_getLast (by simp)]
      exact getLast_mem _
    exact fun heq => hne _ hsome heq.symm

section

variable (h : list.Holds (front ++ member :: rear) (before ++ value :: after))

include h

lemma properDelete (hlength : front.length = before.length) :
    ∃ list', list.properDelete member (front.getLast?.getD 0) = .ok list' ∧
    list'.Holds (front ++ rear) (before ++ after) := by
  obtain ⟨hfront, hvalue, hrear⟩ := data_split h hlength
  have hne := ne_member h
  have hnodup := (nodup_cons.mp (nodup_middle.mp h.nodup)).2
  have htail := tail_of_delete h
  have hsize : list.size - 1 = ((before ++ after).length : Int) := by
    rw [h.size]
    simp only [length_append, length_cons]
    omega
  have hdata : (front ++ rear).map list.data? = (before ++ after).map some := by
    rw [map_append, map_append, hfront, hrear]
  rcases eq_nil_or_concat' front with rfl | ⟨front, previous, rfl⟩
  · obtain ⟨hhead, _, hchain⟩ := h.chain
    refine ⟨_, by rw [LinkedList.properDelete, node_of_data hvalue, ok_bind,
      if_pos hhead.symm, ok_bind], ?_, hnodup, htail, ?_, hsize⟩
    · refine hchain.congr fun other hmem => ?_
      simp [next, update_of_ne (hne other hmem)]
    · rw [← hdata]
      refine map_congr_left fun other hmem => ?_
      simp [data?, update_of_ne (hne other hmem)]
  · have hprevious : previous ≠ member := hne previous (by simp)
    obtain ⟨held, hheld⟩ := h.exists_data (show previous ∈ _ by simp)
    have hhead : member ≠ list.head := by
      rw [h.chain.node_eq]
      cases front with
      | nil => exact hprevious.symm
      | cons head tail => exact (hne head (by simp)).symm
    have hother : ∀ other ∈ front ++ rear, other ≠ previous := by
      rw [append_assoc] at hnodup
      rintro other hmem rfl
      exact (nodup_cons.mp (nodup_middle.mp hnodup)).1 hmem
    have hkept : ∀ other ∈ front ++ rear, other ≠ member := fun other hmem =>
      hne other (by
        rcases mem_append.mp hmem with hmem | hmem <;> simp [hmem])
    rw [getLast?_concat, Option.getD_some] at htail ⊢
    refine ⟨_, by rw [LinkedList.properDelete, node_of_data hvalue, ok_bind,
      if_neg hhead, node_of_data hheld, ok_bind, ok_bind], ?_, hnodup, htail, ?_, hsize⟩
    · have hchain := h.chain
      rw [append_assoc] at hchain ⊢
      refine hchain.skip ?_ ?_ ?_
      · intro other hmem
        have hmem := mem_append_left rear hmem
        simp [next, update_of_ne (hkept other hmem), update_of_ne (hother other hmem)]
      · simp [next, update_of_ne hprevious]
      · intro other hmem
        have hmem := mem_append_right front hmem
        simp [next, update_of_ne (hkept other hmem), update_of_ne (hother other hmem)]
    · rw [← hdata]
      refine map_congr_left fun other hmem => ?_
      by_cases hsame : other = previous
      · rw [hsame, hheld]
        simp [data?, update_of_ne hprevious]
      · simp [data?, update_of_ne (hne other hmem), update_of_ne hsame]

/-- `ListDeleteIndex` takes out the element at the index. -/
lemma deleteIndex (hlength : front.length = before.length) :
    ∃ list', list.deleteIndex front.length = .ok (true, list') ∧
    list'.Holds (front ++ rear) (before ++ after) := by
  obtain ⟨list', hdelete, hlist'⟩ := h.properDelete hlength
  refine ⟨list', ?_, hlist'⟩
  have hsize : ¬ ((front.length : Int) ≥ list.size ∨ (front.length : Int) < 0) := by
    rw [h.size]
    simp only [length_append, length_cons]
    omega
  rw [LinkedList.deleteIndex, if_neg hsize, Int.toNat_natCast,
    deleteFrom_eq h.chain, hdelete, ok_bind]
  intro other hmem
  exact h.exists_data (mem_append_left _ hmem)

end

end Delete

/-- The first node of a list that is not empty. -/
lemma getFirst {member : Nat} {rear : List Nat} {value : α} {after : List α}
    (h : list.Holds (member :: rear) (value :: after)) :
    list.getDataFromNode list.head = .ok value := by
  obtain ⟨hhead, hne, _⟩ := h.chain
  have hdata := h.data
  rw [map_cons, map_cons, cons.injEq] at hdata
  rw [getDataFromNode, hhead, if_neg hne, node_of_data hdata.1, ok_bind]

end Holds

end LinkedList

end Merlon.Adt
