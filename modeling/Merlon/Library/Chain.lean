/-
Singly linked lists threaded through one link function, with null as zero.
A queue appends behind the last member and removes any member by letting the
link in front of it skip over it.
-/
import Mathlib.Data.List.Nodup

namespace Merlon

/-- From `node` the links run through exactly the members and end in null. -/
def Chain (next : Nat → Nat) : Nat → List Nat → Prop
  | node, [] => node = 0
  | node, head :: tail => node = head ∧ head ≠ 0 ∧ Chain next (next head) tail

namespace Chain

variable {next next' : Nat → Nat} {members : List Nat} {node : Nat}

section

variable (hlist : Chain next node members)

include hlist

/-- The links of the members are all a chain depends on. -/
lemma congr (hnext : ∀ member ∈ members, next' member = next member) :
    Chain next' node members := by
  induction members generalizing node with
  | nil => exact hlist
  | cons head tail ih =>
    obtain ⟨hnode, hne, htail⟩ := hlist
    refine ⟨hnode, hne, ?_⟩
    rw [hnext head List.mem_cons_self]
    exact ih htail (fun member hmem => hnext member (List.mem_cons_of_mem head hmem))

lemma node_eq : node = members.head?.getD 0 := by
  cases members with
  | nil => exact hlist
  | cons head tail => exact hlist.1

/-- The null node is the empty chain. -/
lemma node_eq_zero_iff : node = 0 ↔ members = [] := by
  cases members with
  | nil => exact ⟨fun _ => rfl, fun _ => hlist⟩
  | cons head tail =>
    obtain ⟨hnode, hne, _⟩ := hlist
    simp [hnode, hne]

lemma ne_zero_of_mem : ∀ member ∈ members, member ≠ 0 := by
  induction members generalizing node with
  | nil => simp
  | cons head tail ih =>
    obtain ⟨_, hne, htail⟩ := hlist
    intro member hmem
    rcases List.mem_cons.mp hmem with rfl | hmem
    · exact hne
    · exact ih htail member hmem

end

/-- The last member is linked to a new one, which ends the chain. -/
lemma snoc {last member : Nat} {front : List Nat} (hlist : Chain next node (front ++ [last]))
    (hmember : member ≠ 0) (hfront : ∀ other ∈ front, next' other = next other)
    (hlast : next' last = member) (hend : next' member = 0) :
    Chain next' node (front ++ [last] ++ [member]) := by
  induction front generalizing node with
  | nil =>
    obtain ⟨hnode, hne, _⟩ := hlist
    refine ⟨hnode, hne, ?_⟩
    rw [hlast]
    exact ⟨rfl, hmember, hend⟩
  | cons head tail ih =>
    obtain ⟨hnode, hne, htail⟩ := hlist
    refine ⟨hnode, hne, ?_⟩
    rw [hfront head List.mem_cons_self]
    exact ih htail (fun other hmem => hfront other (List.mem_cons_of_mem head hmem))

/-- The link in front of a member skips over it. -/
lemma skip {before member : Nat} {front rear : List Nat}
    (hlist : Chain next node (front ++ before :: member :: rear))
    (hfront : ∀ other ∈ front, next' other = next other) (hbefore : next' before = next member)
    (hrear : ∀ other ∈ rear, next' other = next other) :
    Chain next' node (front ++ before :: rear) := by
  induction front generalizing node with
  | nil =>
    obtain ⟨hnode, hne, _, _, htail⟩ := hlist
    refine ⟨hnode, hne, ?_⟩
    rw [hbefore]
    exact htail.congr hrear
  | cons head tail ih =>
    obtain ⟨hnode, hne, htail⟩ := hlist
    refine ⟨hnode, hne, ?_⟩
    rw [hfront head List.mem_cons_self]
    exact ih htail (fun other hmem => hfront other (List.mem_cons_of_mem head hmem))

end Chain

end Merlon
