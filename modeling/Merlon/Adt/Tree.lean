/-
The self-balancing search tree of tree.c.  The comparator returns a sign; the
tree is searched by it when elements are inserted and deleted, but walked
completely when an element is looked up.  The assertion of `AvlBalance` is the
only way an operation can fail.
-/
import Mathlib.Data.List.Basic

namespace Merlon.Adt

open List

universe u

inductive TreeNode (α : Type u) where
  | nil
  | node (left : TreeNode α) (data : α) (right : TreeNode α)

namespace TreeNode

variable {α : Type u} {comparator : α → α → Int} {data : α}

/-- The in-order traversal. -/
def toList : TreeNode α → List α
  | nil => []
  | node left data right => left.toList ++ data :: right.toList

def avlGetHeight : TreeNode α → Nat
  | nil => 0
  | node left _ right => 1 + max left.avlGetHeight right.avlGetHeight

def avlGetBalance : TreeNode α → Int
  | nil => 0
  | node left _ right => (left.avlGetHeight : Int) - right.avlGetHeight

/-- The source follows the right link unchecked; it is there whenever
`AvlBalance` rotates. -/
def avlRotateLeft : TreeNode α → TreeNode α
  | node left data (node middle newData right) => node (node left data middle) newData right
  | tree => tree

def avlRotateRight : TreeNode α → TreeNode α
  | node (node left newData middle) data right => node left newData (node middle data right)
  | tree => tree

def avlBalance : TreeNode α → Option (TreeNode α)
  | nil => some nil
  | node left data right =>
    let bf := (node left data right).avlGetBalance
    if bf < -2 ∨ bf > 2 then none
    else if bf = -2 then
      let right' := if right.avlGetBalance = 1 then right.avlRotateRight else right
      some (node left data right').avlRotateLeft
    else if bf = 2 then
      let left' := if left.avlGetBalance = -1 then left.avlRotateLeft else left
      some (node left' data right).avlRotateRight
    else some (node left data right)

def avlInsert (comparator : α → α → Int) (data : α) : TreeNode α → Option (TreeNode α)
  | nil => some (node nil data nil)
  | node left here right =>
    if comparator data here < 0 then do
      let left' ← avlInsert comparator data left
      avlBalance (node left' here right)
    else do
      let right' ← avlInsert comparator data right
      avlBalance (node left here right')

/-- The leftmost element of a tree with the given root. -/
def leftmost : TreeNode α → α → α
  | nil, data => data
  | node left data _, _ => left.leftmost data

def avlDelete (comparator : α → α → Int) : α → TreeNode α → Option (TreeNode α)
  | _, nil => some nil
  | data, node left here right =>
    if comparator data here < 0 then do
      let left' ← avlDelete comparator data left
      avlBalance (node left' here right)
    else if comparator data here > 0 then do
      let right' ← avlDelete comparator data right
      avlBalance (node left here right')
    else
      match left, right with
      | nil, right => avlBalance right
      | left, nil => avlBalance left
      | left, right => do
          let next := right.leftmost here
          let right' ← avlDelete comparator next right
          avlBalance (node left next right')

def avlGet (comparator : α → α → Int) (data : α) : TreeNode α → Option α
  | nil => none
  | node left here right =>
    if comparator here data = 0 then some here
    else
      match avlGet comparator data left with
      | some found => some found
      | none => avlGet comparator data right

def avlContains (comparator : α → α → Int) (data : α) : TreeNode α → Bool
  | nil => false
  | node left here right =>
    if comparator here data = 0 then true
    else avlContains comparator data left || avlContains comparator data right

/-- At every node the heights of the subtrees differ by at most one. -/
def Balanced : TreeNode α → Prop
  | nil => True
  | node left _ right =>
    left.Balanced ∧ right.Balanced ∧ left.avlGetHeight ≤ right.avlGetHeight + 1 ∧
      right.avlGetHeight ≤ left.avlGetHeight + 1

@[simp] lemma toList_nil : (nil : TreeNode α).toList = [] :=
  rfl

@[simp] lemma toList_node (left : TreeNode α) (data : α) (right : TreeNode α) :
    (node left data right).toList = left.toList ++ data :: right.toList :=
  rfl

@[simp] lemma toList_avlRotateLeft (tree : TreeNode α) :
    tree.avlRotateLeft.toList = tree.toList := by
  rcases tree with _ | ⟨left, data, _ | ⟨middle, newData, right⟩⟩ <;> simp [avlRotateLeft]

@[simp] lemma toList_avlRotateRight (tree : TreeNode α) :
    tree.avlRotateRight.toList = tree.toList := by
  rcases tree with _ | ⟨_ | ⟨left, newData, middle⟩, data, right⟩ <;> simp [avlRotateRight]

variable {tree tree' left right : TreeNode α} {before after : List α}

/-- Balancing never reorders. -/
lemma toList_avlBalance (hbalance : tree.avlBalance = some tree') : tree'.toList = tree.toList := by
  cases tree with
  | nil =>
    cases hbalance
    rfl
  | node left data right =>
    simp only [avlBalance] at hbalance
    split at hbalance
    · cases hbalance
    · split at hbalance
      · cases hbalance
        split <;> simp
      · split at hbalance
        · cases hbalance
          split <;> simp
        · cases hbalance
          rfl

/-- A tree that is too high on the right, after its rotations. -/
lemma balanced_of_right_heavy (data : α) (hleft : left.Balanced) (hright : right.Balanced)
    (hheavy : right.avlGetHeight = left.avlGetHeight + 2) :
    let tree := (node left data (if right.avlGetBalance = 1 then right.avlRotateRight
        else right)).avlRotateLeft
    tree.Balanced ∧ right.avlGetHeight ≤ tree.avlGetHeight ∧
      tree.avlGetHeight ≤ right.avlGetHeight + 1 := by
  rcases right with _ | ⟨middle, newData, far⟩
  · simp [avlGetHeight] at hheavy
  · simp only [Balanced] at hright
    by_cases hlean : (node middle newData far).avlGetBalance = 1
    · rw [if_pos hlean]
      simp only [avlGetBalance] at hlean
      rcases middle with _ | ⟨near, top, inner⟩
      · simp only [avlGetHeight] at hlean
        omega
      · simp only [avlGetHeight, Balanced, avlRotateLeft, avlRotateRight] at hheavy hright hlean ⊢
        refine ⟨⟨⟨hleft, hright.1.1, ?_, ?_⟩, ⟨hright.1.2.1, hright.2.1, ?_, ?_⟩,
          ?_, ?_⟩, ?_, ?_⟩ <;> omega
    · rw [if_neg hlean]
      simp only [avlGetBalance] at hlean
      simp only [avlGetHeight, Balanced, avlRotateLeft] at hheavy ⊢
      refine ⟨⟨⟨hleft, hright.1, ?_, ?_⟩, hright.2.1, ?_, ?_⟩, ?_, ?_⟩ <;> omega

/-- A tree that is too high on the left, after its rotations. -/
lemma balanced_of_left_heavy (data : α) (hleft : left.Balanced) (hright : right.Balanced)
    (hheavy : left.avlGetHeight = right.avlGetHeight + 2) : let tree := (node
      (if left.avlGetBalance = -1 then left.avlRotateLeft else left) data right).avlRotateRight
    tree.Balanced ∧ left.avlGetHeight ≤ tree.avlGetHeight ∧
      tree.avlGetHeight ≤ left.avlGetHeight + 1 := by
  rcases left with _ | ⟨far, newData, middle⟩
  · simp [avlGetHeight] at hheavy
  · simp only [Balanced] at hleft
    by_cases hlean : (node far newData middle).avlGetBalance = -1
    · rw [if_pos hlean]
      simp only [avlGetBalance] at hlean
      rcases middle with _ | ⟨inner, top, near⟩
      · simp only [avlGetHeight] at hlean
        omega
      · simp only [avlGetHeight, Balanced, avlRotateLeft, avlRotateRight] at hheavy hleft hlean ⊢
        refine ⟨⟨⟨hleft.1, hleft.2.1.1, ?_, ?_⟩, ⟨hleft.2.1.2.1, hright, ?_, ?_⟩,
          ?_, ?_⟩, ?_, ?_⟩ <;> omega
    · rw [if_neg hlean]
      simp only [avlGetBalance] at hlean
      simp only [avlGetHeight, Balanced, avlRotateRight] at hheavy ⊢
      refine ⟨⟨hleft.1, ⟨hleft.2.1, hright, ?_, ?_⟩, ?_, ?_⟩, ?_, ?_⟩ <;> omega

/-- Balancing a node whose subtrees are balanced and differ in height by at
most two. -/
lemma avlBalance_spec (data : α) (hleft : left.Balanced)
    (hright : right.Balanced) (hle : left.avlGetHeight ≤ right.avlGetHeight + 2)
    (hge : right.avlGetHeight ≤ left.avlGetHeight + 2) :
    ∃ tree, (node left data right).avlBalance = some tree ∧ tree.Balanced ∧
      max left.avlGetHeight right.avlGetHeight ≤ tree.avlGetHeight ∧
      tree.avlGetHeight ≤ max left.avlGetHeight right.avlGetHeight + 1 ∧
      (left.avlGetHeight ≤ right.avlGetHeight + 1 → right.avlGetHeight ≤ left.avlGetHeight + 1 →
        tree.avlGetHeight = 1 + max left.avlGetHeight right.avlGetHeight) := by
  have hbf : (node left data right).avlGetBalance =
      (left.avlGetHeight : Int) - right.avlGetHeight := rfl
  rw [avlBalance]
  rw [if_neg (by omega)]
  by_cases hright' : right.avlGetHeight = left.avlGetHeight + 2
  · rw [if_pos (by omega)]
    obtain ⟨hbal, hlow, hhigh⟩ := balanced_of_right_heavy data hleft hright hright'
    exact ⟨_, rfl, hbal, by omega, by omega, by omega⟩
  · rw [if_neg (by omega)]
    by_cases hleft' : left.avlGetHeight = right.avlGetHeight + 2
    · rw [if_pos (by omega)]
      obtain ⟨hbal, hlow, hhigh⟩ := balanced_of_left_heavy data hleft hright hleft'
      exact ⟨_, rfl, hbal, by omega, by omega, by omega⟩
    · rw [if_neg (by omega)]
      have hheight : (node left data right).avlGetHeight =
          1 + max left.avlGetHeight right.avlGetHeight := rfl
      exact ⟨_, rfl, ⟨hleft, hright, by omega, by omega⟩, by omega, by omega, fun _ _ => hheight⟩

/-- Inserting into a balanced tree succeeds and leaves a balanced tree. -/
lemma avlInsert_balanced (comparator : α → α → Int) (data : α) (htree : tree.Balanced) :
    ∃ tree', tree.avlInsert comparator data = some tree' ∧ tree'.Balanced ∧
    tree.avlGetHeight ≤ tree'.avlGetHeight ∧ tree'.avlGetHeight ≤ tree.avlGetHeight + 1 := by
  induction tree with
  | nil =>
    exact ⟨_, rfl, ⟨trivial, trivial, by simp, by simp⟩,
      by simp [avlGetHeight], by simp [avlGetHeight]⟩
  | node left here right ihleft ihright =>
    obtain ⟨hleft, hright, hle, hge⟩ := htree
    simp only [avlInsert]
    split
    · obtain ⟨left', hinsert, hbal, hlow, hhigh⟩ := ihleft hleft
      obtain ⟨tree', htree', hbal', hlow', hhigh', hexact⟩ :=
        avlBalance_spec here hbal hright (by omega) (by omega)
      refine ⟨tree', by simp [hinsert, htree'], hbal', ?_, ?_⟩ <;>
        simp only [avlGetHeight] <;> omega
    · obtain ⟨right', hinsert, hbal, hlow, hhigh⟩ := ihright hright
      obtain ⟨tree', htree', hbal', hlow', hhigh', hexact⟩ :=
        avlBalance_spec here hleft hbal (by omega) (by omega)
      refine ⟨tree', by simp [hinsert, htree'], hbal', ?_, ?_⟩ <;>
        simp only [avlGetHeight] <;> omega

lemma avlBalance_of_balanced (htree : tree.Balanced) : tree.avlBalance = some tree := by
  cases tree with
  | nil => rfl
  | node left data right =>
    obtain ⟨_, _, hle, hge⟩ := htree
    have hbf : (node left data right).avlGetBalance =
        (left.avlGetHeight : Int) - right.avlGetHeight := rfl
    rw [avlBalance]
    rw [if_neg (by omega), if_neg (by omega), if_neg (by omega)]

/-- Deleting from a balanced tree succeeds and leaves a balanced tree. -/
lemma avlDelete_balanced (comparator : α → α → Int) (data : α) (htree : tree.Balanced) :
    ∃ tree', tree.avlDelete comparator data = some tree' ∧ tree'.Balanced ∧
    tree'.avlGetHeight ≤ tree.avlGetHeight ∧ tree.avlGetHeight ≤ tree'.avlGetHeight + 1 := by
  induction tree generalizing data with
  | nil => exact ⟨nil, rfl, trivial, by simp, by simp⟩
  | node left here right ihleft ihright =>
    obtain ⟨hleft, hright, hle, hge⟩ := htree
    unfold avlDelete
    split
    · obtain ⟨left', hdelete, hbal, hlow, hhigh⟩ := ihleft data hleft
      obtain ⟨tree', htree', hbal', hlow', hhigh', hexact⟩ :=
        avlBalance_spec here hbal hright (by omega) (by omega)
      refine ⟨tree', by simp [hdelete, htree'], hbal', ?_, ?_⟩ <;>
        simp only [avlGetHeight] <;> omega
    · split
      · obtain ⟨right', hdelete, hbal, hlow, hhigh⟩ := ihright data hright
        obtain ⟨tree', htree', hbal', hlow', hhigh', hexact⟩ :=
          avlBalance_spec here hleft hbal (by omega) (by omega)
        refine ⟨tree', by simp [hdelete, htree'], hbal', ?_, ?_⟩ <;>
          simp only [avlGetHeight] <;> omega
      · split
        · refine ⟨_, avlBalance_of_balanced hright, hright, ?_, ?_⟩ <;>
            simp only [avlGetHeight] at hge ⊢ <;> omega
        · refine ⟨_, avlBalance_of_balanced hleft, hleft, ?_, ?_⟩ <;>
            simp only [avlGetHeight] at hle ⊢ <;> omega
        · obtain ⟨right', hdelete, hbal, hlow, hhigh⟩ := ihright (right.leftmost here) hright
          obtain ⟨tree', htree', hbal', hlow', hhigh', hexact⟩ :=
            avlBalance_spec (right.leftmost here) hleft hbal (by omega) (by omega)
          refine ⟨tree', by simp [hdelete, htree'], hbal', ?_, ?_⟩ <;>
            simp only [avlGetHeight] <;> omega

/-- Where a list that is cut in two lies around an element of it. -/
lemma split_around {left right : List α} {here : α}
    (hlist : left ++ here :: right = before ++ after) :
    (∃ middle, left = before ++ middle ∧ after = middle ++ here :: right) ∨
    ∃ middle, before = left ++ here :: middle ∧ right = middle ++ after := by
  rcases append_eq_append_iff.mp hlist with ⟨middle, hbefore, hrest⟩ | ⟨middle, hleft, hafter⟩
  · cases middle with
    | nil =>
      refine .inl ⟨[], by simpa using hbefore.symm, ?_⟩
      simpa using hrest.symm
    | cons first rest =>
      obtain ⟨rfl, hright⟩ := cons.inj hrest
      exact .inr ⟨rest, hbefore, hright⟩
  · exact .inl ⟨middle, hleft, hafter⟩

/-- Inserting puts the element in front of those it compares below. -/
lemma toList_avlInsert (hinsert : tree.avlInsert comparator data = some tree')
    (hlist : tree.toList = before ++ after)
    (hbefore : ∀ other ∈ before, ¬ comparator data other < 0)
    (hafter : ∀ other ∈ after, comparator data other < 0) :
    tree'.toList = before ++ data :: after := by
  induction tree generalizing tree' before after with
  | nil =>
    cases hinsert
    obtain ⟨rfl, rfl⟩ := append_eq_nil_iff.mp hlist.symm
    rfl
  | node left here right ihleft ihright =>
    simp only [avlInsert] at hinsert
    split at hinsert
    · rename_i hless
      obtain ⟨left', hleft', hbalance⟩ := Option.bind_eq_some_iff.mp hinsert
      rw [toList_avlBalance hbalance, toList_node]
      rcases split_around hlist with ⟨middle, hleft, rfl⟩ | ⟨middle, rfl, _⟩
      · rw [ihleft hleft' hleft hbefore
          (fun other hother => hafter other (mem_append_left _ hother))]
        simp
      · exact absurd hless (hbefore here (by simp))
    · rename_i hless
      obtain ⟨right', hright', hbalance⟩ := Option.bind_eq_some_iff.mp hinsert
      rw [toList_avlBalance hbalance, toList_node]
      rcases split_around hlist with ⟨middle, _, rfl⟩ | ⟨middle, rfl, hright⟩
      · exact absurd (hafter here (by simp)) hless
      · rw [ihright hright' hright (fun other hother => hbefore other (by simp [hother])) hafter]
        simp

lemma toList_eq_leftmost (left : TreeNode α) (here : α) (right : TreeNode α) (data : α) :
    ∃ rest, (node left here right).toList = (node left here right).leftmost data :: rest := by
  induction left generalizing here right data with
  | nil => exact ⟨right.toList, rfl⟩
  | node nearer next far ih _ =>
    obtain ⟨rest, hrest⟩ := ih next far here
    refine ⟨rest ++ here :: right.toList, ?_⟩
    rw [toList_node, hrest]
    rfl

/-- Deleting takes out the element that compares equal. -/
lemma toList_avlDelete {found : α} (hdelete : tree.avlDelete comparator data = some tree')
    (hlist : tree.toList = before ++ found :: after) (hfound : comparator data found = 0)
    (hbefore : ∀ other ∈ before, 0 < comparator data other)
    (hafter : ∀ other ∈ after, comparator data other < 0)
    (hsorted : tree.toList.Pairwise fun first second => comparator first second < 0)
    (hself : ∀ other ∈ tree.toList, comparator other other = 0) :
    tree'.toList = before ++ after := by
  induction tree generalizing data found tree' before after with
  | nil => simp at hlist
  | node left here right ihleft ihright =>
    obtain ⟨hsortedLeft, hsortedRight, _⟩ := pairwise_append.mp hsorted
    have hselfLeft : ∀ other ∈ left.toList, comparator other other = 0 :=
      fun other hother => hself other (mem_append_left _ hother)
    have hselfRight : ∀ other ∈ right.toList, comparator other other = 0 :=
      fun other hother => hself other (by simp [hother])
    -- The sign of the comparison says on which side the element is.
    unfold avlDelete at hdelete
    split at hdelete
    · obtain ⟨left', hleft', hbalance⟩ := Option.bind_eq_some_iff.mp hdelete
      rw [toList_avlBalance hbalance, toList_node]
      rcases split_around hlist with ⟨middle, hleft, hrest⟩ | ⟨middle, rfl, _⟩
      · cases middle with
        | nil =>
          obtain ⟨rfl, _⟩ := cons.inj hrest
          omega
        | cons first rest =>
          obtain ⟨rfl, rfl⟩ := cons.inj hrest
          rw [ihleft hleft' hleft hfound hbefore (fun other hother =>
            hafter other (mem_append_left _ hother)) hsortedLeft
            hselfLeft]
          simp
      · have := hbefore here (by simp)
        omega
    · split at hdelete
      · obtain ⟨right', hright', hbalance⟩ := Option.bind_eq_some_iff.mp hdelete
        rw [toList_avlBalance hbalance, toList_node]
        rcases split_around hlist with ⟨middle, _, hrest⟩ | ⟨middle, rfl, hright⟩
        · cases middle with
          | nil =>
            obtain ⟨rfl, _⟩ := cons.inj hrest
            omega
          | cons first rest =>
            obtain ⟨_, rfl⟩ := cons.inj hrest
            have := hafter here (by simp)
            omega
        · rw [ihright hright' hright hfound (fun other hother =>
            hbefore other (by simp [hother])) hafter
            (List.Pairwise.of_cons hsortedRight) hselfRight]
          simp
      · have hroot : left.toList = before ∧ right.toList = after := by
          rcases split_around hlist with ⟨middle, hleft, hrest⟩ | ⟨middle, rfl, _⟩
          · cases middle with
            | nil =>
              obtain ⟨_, rfl⟩ := cons.inj hrest
              exact ⟨by simpa using hleft, rfl⟩
            | cons first rest =>
              obtain ⟨_, rfl⟩ := cons.inj hrest
              have := hafter here (by simp)
              omega
          · have := hbefore here (by simp)
            omega
        obtain ⟨rfl, rfl⟩ := hroot
        split at hdelete
        · rw [toList_avlBalance hdelete]
          simp
        · rw [toList_avlBalance hdelete]
          simp
        · rename_i hnil
          obtain ⟨right', hright', hbalance⟩ := Option.bind_eq_some_iff.mp hdelete
          rw [toList_avlBalance hbalance, toList_node]
          cases right with
          | nil => exact absurd rfl hnil
          | node nearer next far =>
            obtain ⟨rest, hrest⟩ := toList_eq_leftmost nearer next far here
            have hsortedRest := List.Pairwise.of_cons hsortedRight
            rw [hrest] at hsortedRest
            rw [ihright hright' (hrest.trans (nil_append _).symm)
              (hselfRight _ (by rw [hrest]; exact mem_cons_self))
              (by simp) (pairwise_cons.mp hsortedRest).1
              (List.Pairwise.of_cons hsortedRight) hselfRight, nil_append, hrest]

/-- A list splits where a property that later elements inherit begins. -/
lemma exists_split_of_inherited {below : α → Prop} [DecidablePred below] {list : List α}
    (hinherit : list.Pairwise fun first second => below first → below second) :
    ∃ before after, list = before ++ after ∧ (∀ other ∈ before, ¬ below other) ∧ ∀ other ∈ after,
    below other := by
  induction list with
  | nil => exact ⟨[], [], rfl, by simp, by simp⟩
  | cons head tail ih =>
    obtain ⟨hhead, htail⟩ := pairwise_cons.mp hinherit
    by_cases hbelow : below head
    · refine ⟨[], head :: tail, rfl, by simp, ?_⟩
      exact forall_mem_cons.mpr ⟨hbelow, fun other hmem => hhead other hmem hbelow⟩
    · obtain ⟨before, after, rfl, hbefore, hafter⟩ := ih htail
      refine ⟨head :: before, after, rfl, ?_, hafter⟩
      exact forall_mem_cons.mpr ⟨hbelow, hbefore⟩

/-- Inserting into a tree that is sorted by a key its comparator follows. -/
lemma avlInsert_sorted {key : α → Nat} (hbalanced : tree.Balanced)
    (hsorted : tree.toList.Pairwise fun first second => key first < key second)
    (hcmp : ∀ other ∈ tree.toList, comparator data other < 0 ↔ key data < key other)
    (hne : ∀ other ∈ tree.toList, key other ≠ key data) :
    ∃ tree', tree.avlInsert comparator data = some tree' ∧ tree'.Balanced ∧
    (∀ other, other ∈ tree'.toList ↔ other = data ∨ other ∈ tree.toList) ∧
    tree'.toList.Pairwise fun first second => key first < key second := by
  obtain ⟨tree', hinsert, hbalanced', _⟩ := avlInsert_balanced comparator data hbalanced
  have hinherit : tree.toList.Pairwise fun first second =>
      key data < key first → key data < key second :=
    hsorted.imp fun hlt hbelow => Nat.lt_trans hbelow hlt
  obtain ⟨before, after, hlist, hnot, hafter⟩ := exists_split_of_inherited hinherit
  have hbefore : ∀ other ∈ before, key other < key data := by
    intro other hmem
    have := hne other (by simp [hlist, hmem])
    have := hnot other hmem
    omega
  have hlist' : tree'.toList = before ++ data :: after := by
    refine toList_avlInsert hinsert hlist ?_ ?_
    · intro other hmem hneg
      exact hnot other hmem ((hcmp other (by simp [hlist, hmem])).mp hneg)
    · intro other hmem
      exact (hcmp other (by simp [hlist, hmem])).mpr (hafter other hmem)
  refine ⟨tree', hinsert, hbalanced', ?_, ?_⟩
  · rw [hlist', hlist]
    simp only [mem_append, mem_cons]
    tauto
  · rw [hlist] at hsorted
    rw [hlist', pairwise_append]
    obtain ⟨hsortedBefore, hsortedAfter, hacross⟩ := pairwise_append.mp hsorted
    refine ⟨hsortedBefore, pairwise_cons.mpr ⟨hafter, hsortedAfter⟩, ?_⟩
    intro first hfirst second hsecond
    rcases mem_cons.mp hsecond with rfl | hsecond
    · exact hbefore first hfirst
    · exact hacross first hfirst second hsecond

/-- A lookup finds an element that compares equal, if there is one. -/
lemma avlGet_eq_some {found : α} (hget : tree.avlGet comparator data = some found) :
    found ∈ tree.toList ∧ comparator found data = 0 := by
  induction tree with
  | nil => cases hget
  | node left here right ihleft ihright =>
    simp only [avlGet] at hget
    split at hget
    · cases hget
      exact ⟨by simp, ‹_›⟩
    · split at hget
      · rename_i hleft
        cases hget
        obtain ⟨hmem, heq⟩ := ihleft hleft
        exact ⟨by simp [hmem], heq⟩
      · obtain ⟨hmem, heq⟩ := ihright hget
        exact ⟨by simp [hmem], heq⟩

lemma avlGet_eq_none_iff : tree.avlGet comparator data = none ↔
      ∀ other ∈ tree.toList, comparator other data ≠ 0 := by
  induction tree with
  | nil => simp [avlGet]
  | node left here right ihleft ihright =>
    simp only [avlGet, toList_node, forall_mem_append, ← ihleft]
    split
    · simp_all
    · cases left.avlGet comparator data <;> simp_all

lemma avlContains_eq : tree.avlContains comparator data = (tree.avlGet comparator data).isSome := by
  induction tree with
  | nil => rfl
  | node left here right ihleft ihright =>
    simp only [avlContains, avlGet, ihleft, ihright]
    split
    · rfl
    · cases left.avlGet comparator data <;> rfl

end TreeNode

end Merlon.Adt
