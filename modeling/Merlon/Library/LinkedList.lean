/-
Doubly linked lists threaded through two link functions.  Zero is the null
link, `next` leads towards the end of the list and `prev` towards its head.
The two edits are unlinking a member and pushing a new head; both are local
in the two link functions.
-/
import Mathlib.Data.List.Nodup

namespace Merlon

open List

/-- Starting at `node`, whose backward link is `back`, the links run through
exactly the members of the list and end in null. -/
def LinkedList (next prev : Nat → Nat) : Nat → Nat → List Nat → Prop
  | _, node, [] => node = 0
  | back, node, head :: tail =>
    node = head ∧ head ≠ 0 ∧ prev head = back ∧ LinkedList next prev head (next head) tail

namespace LinkedList

variable {next prev next' prev' : Nat → Nat} {front rear : List Nat}

variable {back node member : Nat} {members : List Nat}

/-- The links of the members are all a linked list depends on. -/
lemma congr (hnext : ∀ member ∈ members, next' member = next member)
    (hprev : ∀ member ∈ members, prev' member = prev member)
    (hlist : LinkedList next prev back node members) :
    LinkedList next' prev' back node members := by
  induction members generalizing back node with
  | nil => exact hlist
  | cons head tail ih =>
    obtain ⟨hnode, hne, hback, htail⟩ := hlist
    refine ⟨hnode, hne, ?_, ?_⟩
    · rw [hprev head mem_cons_self, hback]
    · rw [hnext head mem_cons_self]
      exact ih (fun member hmem => hnext member (mem_cons_of_mem head hmem))
        (fun member hmem => hprev member (mem_cons_of_mem head hmem)) htail

lemma ne_zero_of_mem (hlist : LinkedList next prev back node members) :
    ∀ member ∈ members, member ≠ 0 := by
  induction members generalizing back node with
  | nil => simp
  | cons head tail ih =>
    obtain ⟨_, hne, _, htail⟩ := hlist
    intro member hmem
    rcases mem_cons.mp hmem with rfl | hmem
    · exact hne
    · exact ih htail member hmem

/-- The null head is the empty list. -/
lemma eq_nil_iff (hlist : LinkedList next prev back node members) : node = 0 ↔ members = [] := by
  cases members with
  | nil => exact ⟨fun _ => rfl, fun _ => hlist⟩
  | cons head tail =>
    obtain ⟨hnode, hne, _, _⟩ := hlist
    simp [hnode, hne]

/-- The backward link of a member's successor is the member itself, and null
in front of the first member. -/
def backOf (back : Nat) (front : List Nat) : Nat :=
  front.getLast?.getD back

lemma backOf_cons (back head : Nat) (tail : List Nat) :
    backOf back (head :: tail) = backOf head tail := by
  cases tail with
  | nil => rfl
  | cons second rest =>
    simp only [backOf]
    rfl

/-- Links on both sides of a member. -/
lemma links_of_split (hlist : LinkedList next prev back node (front ++ member :: rear)) :
    prev member = backOf back front ∧ LinkedList next prev member (next member) rear := by
  induction front generalizing back node with
  | nil =>
    obtain ⟨_, _, hback, hrear⟩ := hlist
    exact ⟨hback, hrear⟩
  | cons head tail ih =>
    obtain ⟨_, _, _, htail⟩ := hlist
    rw [backOf_cons]
    exact ih htail

lemma next_eq_head (hlist : LinkedList next prev back node members) :
    node = members.head?.getD 0 := by
  cases members with
  | nil => exact hlist
  | cons head tail => exact hlist.1

/-- Only the backward link of the first member depends on what stands in front
of the list. -/
lemma change_back {back' : Nat} (hlist : LinkedList next prev back node members)
    (hnext : ∀ member ∈ members, next' member = next member)
    (hhead : ∀ head, members.head? = some head → prev' head = back')
    (hprev : ∀ member ∈ members.tail, prev' member = prev member) :
    LinkedList next' prev' back' node members := by
  cases members with
  | nil => exact hlist
  | cons head tail =>
    obtain ⟨hnode, hne, _, htail⟩ := hlist
    refine ⟨hnode, hne, hhead head rfl, ?_⟩
    rw [hnext head mem_cons_self]
    exact htail.congr (fun member hmem => hnext member (mem_cons_of_mem head hmem)) hprev

/-- Unlinking: the forward link in front of the member and the backward link
behind it skip the member; all other links of the list stay. -/
lemma unlink {node' : Nat} (hnodup : (front ++ member :: rear).Nodup)
    (hlist : LinkedList next prev back node (front ++ member :: rear))
    (hnode : node' = if front = [] then next member else node)
    (hnext : ∀ other ∈ front ++ rear, next' other =
      if front.getLast? = some other then next member else next other)
    (hprev : ∀ other ∈ front ++ rear, prev' other =
      if rear.head? = some other then prev member else prev other) :
    LinkedList next' prev' back node' (front ++ rear) := by
  induction front generalizing back node node' with
  | nil =>
    obtain ⟨_, _, hback, hrear⟩ := hlist
    subst hnode
    apply hrear.change_back
    · intro other hmem
      simpa using hnext other hmem
    · intro head hhead
      have hmem : head ∈ rear := mem_of_mem_head? (by simp [hhead])
      rw [hprev head hmem, if_pos hhead, hback]
    · intro other hmem
      have hother : other ∈ rear := mem_of_mem_tail hmem
      rw [hprev other hother, if_neg]
      intro hhead
      cases rear with
      | nil => simp at hhead
      | cons first rest =>
        simp only [head?_cons, Option.some.injEq] at hhead
        subst hhead
        simp only [nil_append, nodup_cons] at hnodup
        exact hnodup.2.1 hmem
  | cons head tail ih =>
    obtain ⟨hfirst, hne, hback, htail⟩ := hlist
    have hheadRear : head ∉ rear := by
      intro hmem
      simp only [cons_append, nodup_cons] at hnodup
      exact hnodup.1 (mem_append.mpr (.inr (mem_cons_of_mem member hmem)))
    have hhead : rear.head? ≠ some head := by
      intro hhead
      exact hheadRear (mem_of_mem_head? (by simp [hhead]))
    refine ⟨hnode.trans hfirst, hne, ?_, ?_⟩
    · rw [hprev head (by simp), if_neg hhead, hback]
    · apply ih (List.Nodup.of_cons hnodup) htail
      · rw [hnext head (by simp)]
        cases tail with
        | nil => simp
        | cons second rest =>
          have hlast : (head :: second :: rest).getLast? ≠ some head := by
            intro hlast
            have hmem : head ∈ second :: rest := mem_of_getLast? hlast
            simp only [cons_append, nodup_cons] at hnodup
            exact hnodup.1 (mem_append.mpr (.inl hmem))
          rw [if_neg hlast, if_neg (cons_ne_nil second rest)]
      · intro other hmem
        rw [hnext other (mem_cons_of_mem head hmem)]
        cases tail with
        | nil =>
          have hother : head ≠ other := by
            rintro rfl
            exact hheadRear hmem
          simp [hother]
        | cons second rest => rw [getLast?_cons_cons]
      · intro other hmem
        exact hprev other (mem_cons_of_mem head hmem)

/-- Pushing a new head: it points at the old head, which points back at it. -/
lemma push (hlist : LinkedList next prev 0 node members)
    (hmember : member ≠ 0) (hback : prev' member = 0) (hforward : next' member = node)
    (hnext : ∀ other ∈ members, next' other = next other) (hprev : ∀ other ∈ members, prev' other =
      if members.head? = some other then member else prev other)
    (hnodup : members.Nodup) :
    LinkedList next' prev' 0 member (member :: members) := by
  refine ⟨rfl, hmember, hback, ?_⟩
  rw [hforward]
  apply hlist.change_back hnext
  · intro head hhead
    rw [hprev head (mem_of_mem_head? (by simp [hhead])), if_pos hhead]
  · intro other hmem
    cases members with
    | nil => simp at hmem
    | cons head tail =>
      have hne : head ≠ other := by
        rintro rfl
        exact (nodup_cons.mp hnodup).1 hmem
      rw [hprev other (mem_cons_of_mem head hmem)]
      simp [hne]

end LinkedList

end Merlon
