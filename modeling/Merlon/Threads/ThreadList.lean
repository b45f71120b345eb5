/-
The intrusive thread lists of threadlist.c.  A thread is named by its address
and null is zero; a list is its first and last thread, and the links are the
`next` pointers of one index.  Walking over more threads than exist means the
links run in a circle, so the bound on a walk is the only way it can fail.
-/
import Mathlib.Algebra.Group.Int.Defs
import Mathlib.Algebra.Group.Nat.Defs
import Mathlib.Logic.Function.Basic
import Merlon.Library.Chain
import Merlon.Library.Outcome

namespace Merlon.Threads

open List

open Function (update update_self update_of_ne)

variable {front rear : List Nat}

/-- Why the kernel stops. -/
inductive Stop where
  | assertionFailed
  | nullDereference
  | endlessLoop
  | panicThreadList
  | panicNegativeSemaphore
  deriving DecidableEq

structure ThreadList where
  head : Nat
  tail : Nat
  deriving DecidableEq

def threadListInit : ThreadList where
  head := 0
  tail := 0

/-- The walk of `ThreadListGetIndex` from `iter`, at position `i`. -/
def getIndexFrom (next : Nat → Nat) (thread : Nat) : Nat → Nat → Nat → Except Stop Int
  | 0, _, _ => .error .endlessLoop
  | fuel + 1, iter, i =>
    if iter = 0 then .ok (-1)
    else if iter = thread then .ok i
    else getIndexFrom next thread fuel (next iter) (i + 1)

def threadListGetIndex (fuel : Nat) (next : Nat → Nat) (list : ThreadList)
    (thread : Nat) : Except Stop Int :=
  getIndexFrom next thread fuel list.head 0

def threadListContains (fuel : Nat) (next : Nat → Nat) (list : ThreadList)
    (thread : Nat) : Except Stop Bool := do
  let index ← threadListGetIndex fuel next list thread
  .ok (decide (index ≠ -1))

def threadListInsert (fuel : Nat) (next : Nat → Nat) (list : ThreadList)
    (thread : Nat) : Except Stop ((Nat → Nat) × ThreadList) := do
  let contained ← threadListContains fuel next list thread
  if contained then .error .assertionFailed
  else if list.tail = 0 then
    if list.head ≠ 0 then .error .assertionFailed
    else .ok (update next thread 0, ⟨thread, thread⟩)
  else
    .ok (update (update next list.tail thread) thread 0, ⟨list.head, thread⟩)

def properDelete (next : Nat → Nat) (list : ThreadList) (iter prev : Nat) :
    Except Stop ((Nat → Nat) × ThreadList) := do
  let (next', head) ←
    if iter = list.head then .ok (next, next list.head)
    else if prev = 0 then .error .nullDereference
    else .ok (update next prev (next iter), list.head)
  let tail := if iter = list.tail then prev else list.tail
  if head = 0 ∧ tail ≠ 0 then .error .assertionFailed
  else .ok (next', ⟨head, tail⟩)

/-- The walk of `ThreadListDeleteIndex` from `iter`, at position `i`. -/
def deleteIndexFrom (next : Nat → Nat) (list : ThreadList) (index : Int) :
    Nat → Nat → Nat → Nat → Except Stop ((Nat → Nat) × ThreadList)
  | 0, _, _, _ => .error .endlessLoop
  | fuel + 1, iter, prev, i =>
    if iter = 0 then .error .panicThreadList
    else if (i : Int) = index then properDelete next list iter prev
    else deleteIndexFrom next list index fuel (next iter) iter (i + 1)

def threadListDeleteIndex (fuel : Nat) (next : Nat → Nat) (list : ThreadList)
    (index : Int) : Except Stop ((Nat → Nat) × ThreadList) :=
  if index < 0 then .error .assertionFailed
  else deleteIndexFrom next list index fuel list.head 0 0

def threadListDelete (fuel : Nat) (next : Nat → Nat) (list : ThreadList)
    (thread : Nat) : Except Stop ((Nat → Nat) × ThreadList) := do
  let index ← threadListGetIndex fuel next list thread
  threadListDeleteIndex fuel next list index

def threadListDeleteTop (next : Nat → Nat) (list : ThreadList) : Except Stop (Nat × ThreadList) :=
  let tail := if list.head = list.tail then 0 else list.tail
  if list.head = 0 then .error .nullDereference
  else if next list.head = 0 ∧ tail ≠ 0 then .error .assertionFailed
  else .ok (list.head, ⟨next list.head, tail⟩)

/-- The threads a walk along the list visits. -/
def membersFrom (next : Nat → Nat) : Nat → Nat → List Nat
  | 0, _ => []
  | fuel + 1, iter => if iter = 0 then [] else iter :: membersFrom next fuel (next iter)

/-- The list represents the given threads, in order. -/
structure Holds (next : Nat → Nat) (list : ThreadList) (members : List Nat) : Prop where
  chain : Chain next list.head members
  tail : list.tail = members.getLast?.getD 0
  nodup : members.Nodup

/-- A walk that has not come to the end of a list has a step left. -/
lemma exists_fuel {head fuel : Nat} {tail : List Nat} (hfuel : (head :: tail).length < fuel) :
    ∃ rest, fuel = rest + 1 ∧ tail.length < rest :=
  ⟨fuel - 1, by grind, by grind⟩

lemma membersFrom_of_chain {next : Nat → Nat} {iter fuel : Nat}
    {members : List Nat} (hchain : Chain next iter members) (hfuel : members.length < fuel) :
    membersFrom next fuel iter = members := by
  induction members generalizing iter fuel with
  | nil =>
    cases fuel with
    | zero => rfl
    | succ fuel => simp [membersFrom, (show iter = 0 from hchain)]
  | cons head tail ih =>
    obtain ⟨rfl, hne, htail⟩ := hchain
    obtain ⟨fuel, rfl, hrest⟩ := exists_fuel hfuel
    simp [membersFrom, hne, ih htail hrest]

lemma getIndexFrom_of_mem {next : Nat → Nat} {thread : Nat} {fuel iter i : Nat}
    (hchain : Chain next iter (front ++ thread :: rear))
    (hfront : thread ∉ front) (hfuel : front.length < fuel) :
    getIndexFrom next thread fuel iter i = .ok ((i + front.length : Nat) : Int) := by
  induction front generalizing fuel iter i with
  | nil =>
    obtain ⟨rfl, hne, _⟩ := hchain
    cases fuel with
    | zero => simp at hfuel
    | succ fuel => simp [getIndexFrom, hne]
  | cons head tail ih =>
    obtain ⟨rfl, hne, htail⟩ := hchain
    simp only [mem_cons, not_or] at hfront
    obtain ⟨fuel, rfl, hrest⟩ := exists_fuel hfuel
    rw [getIndexFrom, if_neg hne, if_neg (Ne.symm hfront.1), ih htail hfront.2 hrest, length_cons]
    congr 2
    omega

lemma getIndexFrom_of_notMem {next : Nat → Nat} {thread : Nat} {members : List Nat}
    {fuel iter i : Nat} (hchain : Chain next iter members) (hmem : thread ∉ members)
    (hfuel : members.length < fuel) : getIndexFrom next thread fuel iter i = .ok (-1) := by
  induction members generalizing fuel iter i with
  | nil =>
    cases fuel with
    | zero => simp at hfuel
    | succ fuel => simp [getIndexFrom, (show iter = 0 from hchain)]
  | cons head tail ih =>
    obtain ⟨rfl, hne, htail⟩ := hchain
    simp only [mem_cons, not_or] at hmem
    obtain ⟨fuel, rfl, hrest⟩ := exists_fuel hfuel
    rw [getIndexFrom, if_neg hne, if_neg (Ne.symm hmem.1), ih htail hmem.2 hrest]

lemma deleteIndexFrom_of_mem {next : Nat → Nat} {list : ThreadList} {thread : Nat}
    {fuel iter prev i : Nat} (hchain : Chain next iter (front ++ thread :: rear))
    (hfuel : front.length < fuel) :
    deleteIndexFrom next list ((i + front.length : Nat) : Int) fuel iter prev i = properDelete next
    list thread (front.getLast?.getD prev) := by
  induction front generalizing fuel iter prev i with
  | nil =>
    obtain ⟨rfl, hne, _⟩ := hchain
    cases fuel with
    | zero => simp at hfuel
    | succ fuel => simp [deleteIndexFrom, hne]
  | cons head tail ih =>
    obtain ⟨rfl, hne, htail⟩ := hchain
    obtain ⟨fuel, rfl, hrest⟩ := exists_fuel hfuel
    have hindex : i + (tail.length + 1) = i + 1 + tail.length := by omega
    have hlater : ((i : Nat) : Int) ≠ ((i + 1 + tail.length : Nat) : Int) := by omega
    rw [length_cons, hindex, deleteIndexFrom, if_neg hne, if_neg hlater, ih htail hrest]
    cases tail with
    | nil => rfl
    | cons second rest =>
      rfl

namespace Holds

variable {next next' : Nat → Nat} {list : ThreadList} {members : List Nat} {fuel thread : Nat}

section

variable (hlist : Holds next list members)

include hlist

lemma congr (hnext : ∀ member ∈ members, next' member = next member) : Holds next' list members :=
  ⟨hlist.chain.congr hnext, hlist.tail, hlist.nodup⟩

lemma contains (hfuel : members.length < fuel) :
    threadListContains fuel next list thread = .ok (decide (thread ∈ members)) := by
  rw [threadListContains, threadListGetIndex]
  by_cases hmem : thread ∈ members
  · obtain ⟨front, rear, rfl, hfront⟩ := eq_append_cons_of_mem hmem
    simp only [length_append] at hfuel
    rw [getIndexFrom_of_mem hlist.chain hfront (by omega)]
    simp
  · rw [getIndexFrom_of_notMem hlist.chain hmem hfuel]
    simp [hmem]

lemma tail_eq_zero_iff : list.tail = 0 ↔ members = [] := by
  rw [hlist.tail]
  rcases eq_nil_or_concat members with rfl | ⟨front, last, rfl⟩
  · simp
  · have hlast := hlist.chain.ne_zero_of_mem last (by simp)
    simp [hlast]

/-- Inserting appends. -/
lemma insert (hfuel : members.length < fuel) (hthread : thread ≠ 0) (hmem : thread ∉ members) :
    ∃ next' list', threadListInsert fuel next list thread = .ok (next', list') ∧
    Holds next' list' (members ++ [thread]) ∧ ∀ other, other ∉ members → other ≠ thread →
    next' other = next other := by
  have hnodup : (members ++ [thread]).Nodup := by
    simp only [nodup_append, hlist.nodup, nodup_singleton, mem_singleton, true_and]
    rintro other hother _ rfl rfl
    exact hmem hother
  rw [threadListInsert, hlist.contains hfuel]
  simp only [hmem, decide_false, Bool.false_eq_true, if_false]
  rcases eq_nil_or_concat members with rfl | ⟨front, last, rfl⟩
  · rw [if_pos (hlist.tail_eq_zero_iff.mpr rfl),
      if_neg (not_not_intro (hlist.chain.node_eq_zero_iff.mpr rfl))]
    refine ⟨_, _, rfl, ⟨⟨rfl, hthread, ?_⟩, rfl, hnodup⟩, ?_⟩
    · exact update_self thread 0 next
    · intro other _ hother
      exact update_of_ne hother 0 next
  · have htail : list.tail = last := by simp [hlist.tail]
    have hlast : last ≠ thread := by
      rintro rfl
      simp at hmem
    rw [if_neg (by rw [hlist.tail_eq_zero_iff]; simp), htail]
    refine ⟨_, _, rfl, ⟨?_, by simp, hnodup⟩, ?_⟩
    · rw [concat_eq_append]
      have hchain := hlist.chain
      rw [concat_eq_append] at hchain
      have hfront := hlist.nodup
      rw [concat_eq_append, nodup_append] at hfront
      refine hchain.snoc hthread ?_ ?_ ?_
      · intro other hother
        have hne : other ≠ thread := by
          rintro rfl
          simp [hother] at hmem
        have hold : other ≠ last := hfront.2.2 other hother last (by simp)
        rw [update_of_ne hne, update_of_ne hold]
      · rw [update_of_ne hlast, update_self]
      · exact update_self thread 0 _
    · intro other hother hne
      have hold : other ≠ last := by
        rintro rfl
        simp at hother
      rw [update_of_ne hne, update_of_ne hold]

end

/-- Deleting the first thread leaves the links alone. -/
lemma deleteTop {top : Nat} {rest : List Nat} (hlist : Holds next list (top :: rest)) :
    ∃ list', threadListDeleteTop next list = .ok (top, list') ∧ Holds next list' rest := by
  obtain ⟨hhead, hne, hrest⟩ := hlist.chain
  have hnodup := nodup_cons.mp hlist.nodup
  have htail := hlist.tail
  cases rest with
  | nil =>
    have hnext : next top = 0 := hrest
    refine ⟨⟨0, 0⟩, ?_, rfl, rfl, nodup_nil⟩
    simp [threadListDeleteTop, hhead, htail, hne, hnext]
  | cons second others =>
    have hnext : next top = second := hrest.1
    have hlast : list.tail ∈ second :: others := by
      rw [htail, getLast?_cons_cons]
      exact getLast_mem _
    have hdiff : top ≠ list.tail := fun heq => hnodup.1 (heq ▸ hlast)
    refine ⟨⟨second, list.tail⟩, ?_, ?_, ?_, hnodup.2⟩
    · simp [threadListDeleteTop, hhead, hne, hnext, hdiff, hrest.2.1]
    · exact hnext ▸ hrest
    · rw [htail, getLast?_cons_cons]

/-- With the first thread `ProperDelete` does what `ThreadListDeleteTop` does. -/
lemma properDelete_head (hhead : list.head ≠ 0) : properDelete next list list.head 0 =
      (threadListDeleteTop next list).map (fun deleted => (next, deleted.2)) := by
  simp only [properDelete, threadListDeleteTop, if_true, ok_bind]
  split <;> split <;> rfl

lemma properDelete_spec (hlist : Holds next list (front ++ thread :: rear)) :
    ∃ next' list', properDelete next list thread (front.getLast?.getD 0) = .ok (next', list') ∧
    Holds next' list' (front ++ rear) ∧ ∀ other, other ∉ front → next' other = next other := by
  have hnodup := hlist.nodup
  rcases eq_nil_or_concat front with rfl | ⟨ahead, before, rfl⟩
  · obtain ⟨hhead, hne, hrear⟩ := hlist.chain
    obtain ⟨list', hdelete, hholds⟩ := hlist.deleteTop
    refine ⟨next, list', ?_, hholds, fun _ _ => rfl⟩
    rw [← hhead] at hne ⊢
    rw [getLast?_nil, Option.getD_none, properDelete_head hne, hdelete]
    rfl
  · simp only [concat_eq_append, append_assoc, cons_append, nil_append] at hlist hnodup ⊢
    have hbefore : before ≠ 0 := hlist.chain.ne_zero_of_mem before (by simp)
    have hsplit := nodup_append.mp hnodup
    have hcons := nodup_cons.mp hsplit.2.1
    have hfirst : thread ≠ list.head := by
      rw [hlist.chain.node_eq]
      cases ahead with
      | nil =>
        rintro rfl
        simp at hcons
      | cons first others =>
        rintro heq
        exact hsplit.2.2 first (by simp) thread (by simp) heq.symm
    have hhead : list.head ≠ 0 := by
      rw [Ne, hlist.chain.node_eq_zero_iff]
      simp
    have hlast : (ahead ++ [before]).getLast?.getD 0 = before := by simp
    rw [properDelete, if_neg hfirst, hlast, if_neg hbefore, ok_bind]
    dsimp only
    rw [if_neg (fun hboth => hhead hboth.1)]
    refine ⟨_, _, rfl, ⟨?_, ?_, ?_⟩, ?_⟩
    · refine hlist.chain.skip ?_ ?_ ?_
      · intro other hother
        exact update_of_ne (hsplit.2.2 other hother before (by simp)) _ _
      · exact update_self before _ _
      · intro other hother
        refine update_of_ne ?_ _ _
        rintro rfl
        exact hcons.1 (mem_cons_of_mem thread hother)
    · have htail := hlist.tail
      rcases eq_nil_or_concat rear with rfl | ⟨others, last, rfl⟩
      · have heq : thread = list.tail := by
          rw [htail]
          simp
        simp [← heq]
      · rw [concat_eq_append] at htail hcons ⊢
        have heq : list.tail = last := by
          rw [htail, ← cons_append, ← cons_append,
            ← append_assoc, getLast?_concat, Option.getD_some]
        have hdiff : thread ≠ last := by
          rintro rfl
          simp at hcons
        rw [heq, if_neg hdiff, ← cons_append, ← append_assoc, getLast?_concat, Option.getD_some]
    · refine List.Nodup.sublist ?_ hnodup
      exact List.Sublist.append_left
        (List.Sublist.cons_cons before (sublist_cons_self thread rear)) ahead
    · intro other hother
      refine update_of_ne ?_ _ _
      rintro rfl
      simp at hother

/-- Deleting removes the thread and touches only links of the list. -/
lemma delete (hlist : Holds next list members) (hfuel : members.length < fuel)
    (hmem : thread ∈ members) :
    ∃ next' list', threadListDelete fuel next list thread = .ok (next', list') ∧
    Holds next' list' (members.erase thread) ∧ ∀ other, other ∉ members →
    next' other = next other := by
  obtain ⟨front, rear, rfl, hfront⟩ := eq_append_cons_of_mem hmem
  simp only [length_append] at hfuel
  have hindex : getIndexFrom next thread fuel list.head 0 = .ok ((0 + front.length : Nat) : Int) :=
    getIndexFrom_of_mem hlist.chain hfront (by omega)
  obtain ⟨next', list', hdelete, hholds, hframe⟩ := hlist.properDelete_spec
  refine ⟨next', list', ?_, ?_, ?_⟩
  · rw [threadListDelete, threadListGetIndex, hindex, ok_bind, threadListDeleteIndex,
      if_neg (by omega), deleteIndexFrom_of_mem hlist.chain (by omega), hdelete]
  · rw [erase_append_right _ hfront, erase_cons_head]
    exact hholds
  · intro other hother
    exact hframe other (fun hin => hother (mem_append_left _ hin))

end Holds

end Merlon.Threads
