/-
The tree objects of tree.c and what a run of insertions and deletions leaves:
a sorted, balanced tree whose elements are those inserted and not deleted.
-/
import Mathlib.Data.List.Induction
import Mathlib.Data.Set.Basic
import Merlon.Adt.Tree
import Merlon.Library.Transition

namespace Merlon.Adt

open List TreeNode

universe u

variable {α : Type u}

/-- `struct tree`; the comparator is passed to the operations, and the
deletion handler is used by `TreeDestroy` alone. -/
structure Tree (α : Type u) where
  root : TreeNode α
  size : Int

def treeCreate : Tree α where
  root := .nil
  size := 0

def treeInsert (comparator : α → α → Int) (tree : Tree α) (data : α) : Option (Tree α) := do
  let root ← tree.root.avlInsert comparator data
  return { root := root, size := tree.size + 1 }

def treeDelete (comparator : α → α → Int) (tree : Tree α) (data : α) : Option (Tree α) := do
  let root ← tree.root.avlDelete comparator data
  return { root := root, size := tree.size - 1 }

def treeContains (comparator : α → α → Int) (tree : Tree α) (data : α) : Bool :=
  tree.root.avlContains comparator data

def treeGet (comparator : α → α → Int) (tree : Tree α) (data : α) : Option α :=
  tree.root.avlGet comparator data

def treeSize (tree : Tree α) : Int :=
  tree.size

/-- The comparator orders these elements; those it takes for equal are placed
alike. -/
structure OrdersOn (comparator : α → α → Int) (elements : Set α) : Prop where
  swap : ∀ a ∈ elements, ∀ b ∈ elements, comparator a b < 0 ↔ 0 < comparator b a
  trans : ∀ a ∈ elements, ∀ b ∈ elements, ∀ c ∈ elements,
    comparator a b < 0 → comparator b c < 0 → comparator a c < 0
  alike : ∀ a ∈ elements, ∀ b ∈ elements, ∀ c ∈ elements,
    comparator a b = 0 → comparator b c < 0 → comparator a c < 0

/-- The calls that change a tree. -/
inductive TreeCall (α : Type u) where
  | insert (data : α)
  | delete (data : α)

/-- A deletion finds something to delete. -/
def TreeCall.Finds (comparator : α → α → Int) (tree : Tree α) : TreeCall α → Prop
  | .insert _ => True
  | .delete data => ∃ other ∈ tree.root.toList, comparator data other = 0

/-- A call that returns.  What is inserted compares equal to nothing in the
tree. -/
inductive TreeStep (comparator : α → α → Int) (elements : Set α) (tree : Tree α) :
    TreeCall α → Tree α → Prop
  | insert {data : α} {tree' : Tree α} (hmem : data ∈ elements)
      (hnew : ∀ other ∈ tree.root.toList, comparator data other ≠ 0)
      (hcall : treeInsert comparator tree data = some tree') :
      TreeStep comparator elements tree (.insert data) tree'
  | delete {data : α} {tree' : Tree α} (hmem : data ∈ elements)
      (hcall : treeDelete comparator tree data = some tree') :
      TreeStep comparator elements tree (.delete data) tree'

/-- A sorted and balanced tree of the given elements. -/
structure Search (comparator : α → α → Int) (elements : Set α) (tree : Tree α) : Prop where
  within : ∀ data ∈ tree.root.toList, data ∈ elements
  sorted : tree.root.toList.Pairwise fun first second =>
    comparator first second < 0
  balanced : tree.root.Balanced

/-- What every call on a tree does: nothing fails, an insertion adds its
element, a deletion removes what compares equal, and lookups find what is
there. -/
structure Exact (comparator : α → α → Int) (elements : Set α) (tree : Tree α) : Prop where
  insert : ∀ data ∈ elements, (∀ other ∈ tree.root.toList, comparator data other ≠ 0) →
    ∃ tree' before after, treeInsert comparator tree data = some tree' ∧
    tree.root.toList = before ++ after ∧ tree'.root.toList = before ++ data :: after
  delete : ∀ data ∈ elements, ∃ tree', treeDelete comparator tree data = some tree' ∧
    tree'.root.toList = tree.root.toList.filter (fun other => comparator data other ≠ 0) ∧
    (tree.root.toList.filter (fun other => comparator data other = 0)).length ≤ 1
  contains : ∀ data ∈ elements, treeContains comparator tree data = true ↔
    ∃ other ∈ tree.root.toList, comparator other data = 0
  get : ∀ data ∈ elements, ∀ found,
    treeGet comparator tree data = some found ↔ found ∈ tree.root.toList ∧ comparator found data = 0

namespace OrdersOn

variable {comparator : α → α → Int} {elements : Set α} {a b c : α}

variable (h : OrdersOn comparator elements)

include h

lemma self (ha : a ∈ elements) : comparator a a = 0 := by
  have hswap := h.swap a ha a ha
  omega

lemma symm (ha : a ∈ elements) (hb : b ∈ elements) (heq : comparator a b = 0) :
    comparator b a = 0 := by
  have hab := h.swap a ha b hb
  have hba := h.swap b hb a ha
  omega

/-- What is below one of two equal elements is below the other. -/
lemma below_alike (ha : a ∈ elements) (hb : b ∈ elements) (hc : c ∈ elements)
    (heq : comparator b c = 0) (hlt : comparator a b < 0) : comparator a c < 0 := by
  rw [h.swap a ha c hc]
  rcases Int.lt_trichotomy (comparator c a) 0 with hneg | hzero | hpos
  · have hba := h.alike b hb c hc a ha heq hneg
    have := h.swap a ha b hb
    omega
  · have hcb := h.alike c hc a ha b hb hzero hlt
    have := h.symm hb hc heq
    omega
  · exact hpos

end OrdersOn

namespace TreeNode

/-- Deleting what is not there. -/
lemma toList_avlDelete_absent {comparator : α → α → Int} {data : α} {tree tree' : TreeNode α}
    (hdelete : tree.avlDelete comparator data = some tree')
    (habsent : ∀ other ∈ tree.toList, comparator data other ≠ 0) : tree'.toList = tree.toList := by
  induction tree generalizing tree' with
  | nil =>
    cases hdelete
    rfl
  | node left here right ihleft ihright =>
    rw [toList_node, forall_mem_append, forall_mem_cons] at habsent
    obtain ⟨hleft, hhere, hright⟩ := habsent
    unfold avlDelete at hdelete
    split_ifs at hdelete with hneg hpos
    · obtain ⟨left', hcall, hbalance⟩ := Option.bind_eq_some_iff.mp hdelete
      rw [toList_avlBalance hbalance, toList_node, ihleft hcall hleft, toList_node]
    · obtain ⟨right', hcall, hbalance⟩ := Option.bind_eq_some_iff.mp hdelete
      rw [toList_avlBalance hbalance, toList_node, ihright hcall hright, toList_node]
    · omega

end TreeNode

namespace Search

variable {comparator : α → α → Int} {elements : Set α} {tree tree' : Tree α} {data : α}

lemma create : Search comparator elements (treeCreate : Tree α) where
  within := by simp [treeCreate]
  sorted := List.Pairwise.nil
  balanced := trivial

section

variable (hsearch : Search comparator elements tree)
  (horders : OrdersOn comparator elements) {call : TreeCall α}

include hsearch horders

/-- An insertion puts its element where it belongs. -/
lemma insert (hmem : data ∈ elements)
    (hnew : ∀ other ∈ tree.root.toList, comparator data other ≠ 0) :
    ∃ tree' before after, treeInsert comparator tree data = some tree' ∧
    tree.root.toList = before ++ after ∧ tree'.root.toList = before ++ data :: after ∧
    Search comparator elements tree' := by
  obtain ⟨root, hinsert, hbalanced, _⟩ := avlInsert_balanced comparator data hsearch.balanced
  have hinherit : tree.root.toList.Pairwise fun first second =>
      comparator data first < 0 → comparator data second < 0 :=
    hsearch.sorted.imp_of_mem fun hfirst hsecond hlt hbelow =>
      horders.trans data hmem _ (hsearch.within _ hfirst) _ (hsearch.within _ hsecond) hbelow hlt
  obtain ⟨before, after, hlist, hbefore, hafter⟩ := exists_split_of_inherited hinherit
  have hlist' := toList_avlInsert hinsert hlist hbefore hafter
  have hwithin : (∀ other ∈ before, other ∈ elements) ∧ ∀ other ∈ after, other ∈ elements := by
    have hall := hsearch.within
    rw [hlist, forall_mem_append] at hall
    exact hall
  have habove : ∀ other ∈ before, comparator other data < 0 := by
    intro other hother
    rw [horders.swap other (hwithin.1 other hother) data hmem]
    have hne := hnew other (by simp [hlist, hother])
    have hnot := hbefore other hother
    omega
  have hsorted := hsearch.sorted
  rw [hlist] at hsorted
  obtain ⟨hsortedBefore, hsortedAfter, hacross⟩ := pairwise_append.mp hsorted
  refine ⟨⟨root, tree.size + 1⟩, before, after, ?_, hlist, hlist', ?_, ?_, hbalanced⟩
  · rw [treeInsert, hinsert]
    rfl
  · intro other hother
    rw [hlist', mem_append, mem_cons] at hother
    rcases hother with hother | rfl | hother
    · exact hwithin.1 other hother
    · exact hmem
    · exact hwithin.2 other hother
  · rw [hlist', pairwise_append]
    refine ⟨hsortedBefore, pairwise_cons.mpr ⟨hafter, hsortedAfter⟩, ?_⟩
    intro first hfirst second hsecond
    rcases mem_cons.mp hsecond with rfl | hsecond
    · exact habove first hfirst
    · exact hacross first hfirst second hsecond

/-- One element of the tree compares equal to another at most. -/
lemma apart_of_equal (hmem : data ∈ elements) {before after : List α} {found : α}
    (hlist : tree.root.toList = before ++ found :: after) (hfound : comparator data found = 0) :
    (∀ other ∈ before, 0 < comparator data other) ∧ ∀ other ∈ after, comparator data other < 0 := by
  have hwithin := hsearch.within
  have hsorted := hsearch.sorted
  rw [hlist] at hsorted hwithin
  obtain ⟨_, hsortedAfter, hacross⟩ := pairwise_append.mp hsorted
  have hfoundMem : found ∈ elements := hwithin found (by simp)
  constructor
  · intro other hother
    have hotherMem : other ∈ elements := hwithin other (by simp [hother])
    rw [← horders.swap other hotherMem data hmem]
    exact horders.below_alike hotherMem hfoundMem hmem (horders.symm hmem hfoundMem hfound)
      (hacross other hother found mem_cons_self)
  · intro other hother
    have hotherMem : other ∈ elements := hwithin other (by simp [hother])
    exact horders.alike data hmem found hfoundMem other hotherMem hfound
      (rel_of_pairwise_cons hsortedAfter hother)

/-- A deletion removes what compares equal. -/
lemma delete (hmem : data ∈ elements) : ∃ tree', treeDelete comparator tree data = some tree' ∧
    tree'.root.toList = tree.root.toList.filter (fun other => comparator data other ≠ 0) ∧
    (tree.root.toList.filter (fun other => comparator data other = 0)).length ≤ 1 ∧
    Search comparator elements tree' := by
  obtain ⟨root, hdelete, hbalanced, _⟩ := avlDelete_balanced comparator data hsearch.balanced
  have hlist : root.toList = tree.root.toList.filter (fun other => comparator data other ≠ 0) ∧
      (tree.root.toList.filter (fun other => comparator data other = 0)).length ≤ 1 := by
    by_cases hpresent : ∃ found ∈ tree.root.toList, comparator data found = 0
    · obtain ⟨found, hfoundMem, hfound⟩ := hpresent
      obtain ⟨before, after, hlist⟩ := append_of_mem hfoundMem
      obtain ⟨hbefore, hafter⟩ := hsearch.apart_of_equal horders hmem hlist hfound
      have hlist' := toList_avlDelete hdelete hlist hfound hbefore hafter hsearch.sorted
        fun other hother => horders.self (hsearch.within other hother)
      have hbeforeNe : ∀ other ∈ before, comparator data other ≠ 0 :=
        fun other hother => by have := hbefore other hother; omega
      have hafterNe : ∀ other ∈ after, comparator data other ≠ 0 :=
        fun other hother => by have := hafter other hother; omega
      constructor
      · rw [hlist', hlist, filter_append, filter_cons_of_neg (by simp [hfound]),
          filter_eq_self.mpr (by simpa using hbeforeNe),
          filter_eq_self.mpr (by simpa using hafterNe)]
      · rw [hlist, filter_append, filter_cons_of_pos (by simp [hfound]),
          filter_eq_nil_iff.mpr (by simpa using hbeforeNe),
          filter_eq_nil_iff.mpr (by simpa using hafterNe)]
        rfl
    · have habsent : ∀ other ∈ tree.root.toList, comparator data other ≠ 0 :=
        fun other hother hzero => hpresent ⟨other, hother, hzero⟩
      rw [toList_avlDelete_absent hdelete habsent]
      constructor
      · exact (filter_eq_self.mpr (by simpa using habsent)).symm
      · rw [filter_eq_nil_iff.mpr (by simpa using habsent)]
        exact Nat.zero_le 1
  refine ⟨⟨root, tree.size - 1⟩, ?_, hlist.1, hlist.2, ?_, ?_, hbalanced⟩
  · rw [treeDelete, hdelete]
    rfl
  · intro other hother
    rw [hlist.1] at hother
    exact hsearch.within other (mem_of_mem_filter hother)
  · rw [hlist.1]
    exact hsearch.sorted.filter _

lemma exact : Exact comparator elements tree where
  insert data hmem hnew := by
    obtain ⟨tree', before, after, hcall, hlist, hlist', _⟩ := hsearch.insert horders hmem hnew
    exact ⟨tree', before, after, hcall, hlist, hlist'⟩
  delete data hmem := by
    obtain ⟨tree', hcall, hlist, hone, _⟩ := hsearch.delete horders hmem
    exact ⟨tree', hcall, hlist, hone⟩
  contains data hmem := by
    rw [treeContains, avlContains_eq]
    constructor
    · intro hsome
      obtain ⟨found, hget⟩ := Option.isSome_iff_exists.mp hsome
      exact ⟨found, avlGet_eq_some hget⟩
    · rintro ⟨other, hother, hzero⟩
      rw [Option.isSome_iff_ne_none]
      exact fun hnone => avlGet_eq_none_iff.mp hnone other hother hzero
  get data hmem found := by
    constructor
    · exact avlGet_eq_some
    · rintro ⟨hfound, hzero⟩
      cases hget : treeGet comparator tree data with
      | none => exact absurd hzero (avlGet_eq_none_iff.mp hget found hfound)
      | some other =>
        obtain ⟨hother, hzero'⟩ := avlGet_eq_some hget
        have hdata := horders.symm (hsearch.within _ hfound) hmem hzero
        have hdata' := horders.symm (hsearch.within _ hother) hmem hzero'
        obtain ⟨before, after, hlist⟩ := append_of_mem hfound
        obtain ⟨hbefore, hafter⟩ := hsearch.apart_of_equal horders hmem hlist hdata
        rw [hlist, mem_append, mem_cons] at hother
        rcases hother with hother | rfl | hother
        · have := hbefore other hother
          omega
        · rfl
        · have := hafter other hother
          omega

lemma step (hstep : TreeStep comparator elements tree call tree') :
    Search comparator elements tree' := by
  cases hstep with
  | insert hmem hnew hcall =>
    obtain ⟨found, _, _, hcall', _, _, hsearch'⟩ := hsearch.insert horders hmem hnew
    rw [hcall] at hcall'
    cases hcall'
    exact hsearch'
  | delete hmem hcall =>
    obtain ⟨found, hcall', _, _, hsearch'⟩ := hsearch.delete horders hmem
    rw [hcall] at hcall'
    cases hcall'
    exact hsearch'

/-- A call moves the size by one, and the number of elements with it unless a
deletion finds nothing. -/
lemma size_step (hstep : TreeStep comparator elements tree call tree')
    (hsize : treeSize tree = tree.root.toList.length) :
    treeSize tree' = tree'.root.toList.length ↔ call.Finds comparator tree := by
  simp only [treeSize] at hsize ⊢
  cases hstep with
  | insert hmem hnew hcall =>
    obtain ⟨_, before, after, hcall', hlist, hlist', _⟩ := hsearch.insert horders hmem hnew
    rw [hcall] at hcall'
    cases hcall'
    obtain ⟨root, _, hroot⟩ := Option.bind_eq_some_iff.mp hcall
    cases hroot
    simp only [TreeCall.Finds, iff_true, hlist', hsize, hlist, length_append, length_cons]
    omega
  | @delete data _ hmem hcall =>
    obtain ⟨_, hcall', hlist, hone, _⟩ := hsearch.delete horders hmem
    rw [hcall] at hcall'
    cases hcall'
    obtain ⟨root, _, hroot⟩ := Option.bind_eq_some_iff.mp hcall
    cases hroot
    have hsplit := length_eq_length_filter_add
      (fun other => comparator data other = 0) (l := tree.root.toList)
    have hfound : TreeCall.Finds comparator tree (.delete data) ↔
        0 < (tree.root.toList.filter (fun other => comparator data other = 0)).length := by
      simp [TreeCall.Finds]
    simp only [decide_not] at hlist
    rw [hfound, hlist]
    dsimp only
    omega

end

end Search

/-- After every run of insertions and deletions the tree is sorted and
balanced, and every further call does what it should. -/
theorem treeRun_exact {comparator : α → α → Int} {elements : Set α}
    {calls : List (TreeCall α)} {tree : Tree α} (horders : OrdersOn comparator elements)
    (hrun : Run (TreeStep comparator elements) treeCreate calls tree) :
    Search comparator elements tree ∧ Exact comparator elements tree := by
  have hsearch : Search comparator elements tree :=
    hrun.invariant (P := Search comparator elements) Search.create
      fun _ _ _ hsearch hstep => hsearch.step horders hstep
  exact ⟨hsearch, hsearch.exact horders⟩

lemma orders_int : OrdersOn (fun a b : Int => a - b) Set.univ :=
  ⟨fun a _ b _ => by omega, fun a _ b _ c _ => by omega, fun a _ b _ c _ => by omega⟩

/-- Three numbers in order make the tree rotate; the first is deleted again. -/
theorem treeRun_exact_three : ∃ tree :
    Tree Int, Run (TreeStep (fun a b => a - b) Set.univ) treeCreate
    [.insert 1, .insert 2, .insert 3, .delete 1] tree ∧ Search (fun a b => a - b) Set.univ tree ∧
    Exact (fun a b => a - b) Set.univ tree := by
  have hrun : Run (TreeStep (fun a b : Int => a - b) Set.univ) treeCreate
      [.insert 1, .insert 2, .insert 3, .delete 1] ⟨.node .nil 2 (.node .nil 3 .nil), 2⟩ :=
    .snoc (.snoc (.snoc (.single (.insert trivial (by decide) rfl))
      (.insert trivial (by decide) rfl)) (.insert trivial (by decide) rfl)) (.delete trivial rfl)
  exact ⟨_, hrun, treeRun_exact orders_int hrun⟩

/-- While every deletion finds its element the size is the number of elements,
and the first deletion that finds nothing makes it smaller. -/
theorem treeRun_size {comparator : α → α → Int} {elements : Set α} {calls : List (TreeCall α)}
    {tree : Tree α} (horders : OrdersOn comparator elements) (hrun : Run (fun tree call tree' =>
      TreeStep comparator elements tree call tree' ∧
        call.Finds comparator tree) treeCreate calls tree) :
    treeSize tree = tree.root.toList.length ∧ ∀ call tree', TreeStep comparator elements tree call
      tree' → (treeSize tree' = tree'.root.toList.length ↔ call.Finds comparator tree) := by
  have hboth : Search comparator elements tree ∧ treeSize tree = tree.root.toList.length :=
    hrun.invariant (P := fun tree => Search comparator elements tree ∧
        treeSize tree = tree.root.toList.length) ⟨Search.create, rfl⟩
      fun _ _ _ hboth hstep => ⟨hboth.1.step horders hstep.1,
        (hboth.1.size_step horders hstep.1 hboth.2).mpr hstep.2⟩
  exact ⟨hboth.2, fun _ _ hstep => hboth.1.size_step horders hstep hboth.2⟩

/-- A number is inserted and deleted again. -/
theorem treeRun_size_one : ∃ tree : Tree Int, Run (fun tree call tree' =>
      TreeStep (fun a b => a - b) Set.univ tree call tree' ∧
        call.Finds (fun a b => a - b) tree) treeCreate
      [.insert 1, .delete 1] tree ∧ treeSize tree = tree.root.toList.length := by
  have hrun : Run (fun tree call tree' =>
      TreeStep (fun a b : Int => a - b) Set.univ tree call tree' ∧
        call.Finds (fun a b => a - b) tree) treeCreate
      [.insert 1, .delete 1] ⟨.nil, 0⟩ :=
    .snoc (.single ⟨.insert trivial (by decide) rfl, trivial⟩)
      ⟨.delete trivial rfl, 1, by decide, rfl⟩
  exact ⟨_, hrun, (treeRun_size orders_int hrun).1⟩

/-- One number is inserted and another one deleted: the size is zero. -/
theorem treeSize_absent : ∃ tree : Tree Int, Run (TreeStep (fun a b => a - b) Set.univ) treeCreate
    [.insert 1, .delete 2] tree ∧ treeSize tree = 0 ∧ tree.root.toList = [1] :=
  ⟨⟨.node .nil 1 .nil, 0⟩, .snoc (.single (.insert trivial (by decide) rfl)) (.delete trivial rfl),
    rfl, rfl⟩

lemma avlInsert_perm {comparator : α → α → Int} {data : α} {tree tree' : TreeNode α}
    (hinsert : tree.avlInsert comparator data = some tree') :
    tree'.toList.Perm (data :: tree.toList) := by
  induction tree generalizing tree' with
  | nil =>
    cases hinsert
    exact .refl _
  | node left here right ihleft ihright =>
    simp only [avlInsert] at hinsert
    split at hinsert
    all_goals
      obtain ⟨_, hside, hbalance⟩ := Option.bind_eq_some_iff.mp hinsert
      rw [toList_avlBalance hbalance]
    · exact (ihleft hside).append_right _
    · have hswap := ((ihright hside).cons here).trans (.swap ..)
      exact (hswap.append_left _).trans perm_middle

/-- Whatever comparators the insertions use, none fails and the tree stays
balanced and keeps every element; a lookup with any comparator, as the driver
table makes it, finds an element that compares equal if there is one. -/
theorem insertions_found (inserted : List ((α → α → Int) × α)) : ∃ tree,
    inserted.foldlM (fun tree call => treeInsert call.1 tree call.2) treeCreate = some tree ∧
    tree.root.Balanced ∧ tree.root.toList.Perm (inserted.map Prod.snd) ∧
    ∀ comparator data, treeGet comparator tree data = none ↔
      ∀ call ∈ inserted, comparator call.2 data ≠ 0 := by
  induction inserted using reverseRecOn with
  | nil => exact ⟨treeCreate, rfl, trivial, .refl _, by simp [treeGet, treeCreate, avlGet]⟩
  | append_singleton calls call ih =>
    obtain ⟨tree, hfold, hbalanced, hperm, -⟩ := ih
    obtain ⟨root, hinsert, hbalanced', _⟩ := avlInsert_balanced call.1 call.2 hbalanced
    have hperm' : root.toList.Perm ((calls ++ [call]).map Prod.snd) := by
      rw [map_append]
      exact ((avlInsert_perm hinsert).trans (hperm.cons _)).trans (perm_append_singleton ..).symm
    refine ⟨⟨root, tree.size + 1⟩, ?_, hbalanced', hperm', fun comparator data => ?_⟩
    · rw [foldlM_append, hfold]
      simp [treeInsert, hinsert]
    · rw [treeGet, avlGet_eq_none_iff]
      simp only [hperm'.mem_iff, forall_mem_map]

end Merlon.Adt
