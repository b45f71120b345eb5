/-
When the elementary actions of the memory manager return, and with which
state.  The proofs about larger functions take a call apart with these.
-/
import Merlon.Virtual.Model

namespace Merlon.Virtual

open Physical (archPageSize)
open Adt (TreeNode)

variable {s s' : Vm} {vas virtual id : Nat} {e : VasEntry} {u : Unit}
  {contents : Page} {global : Bool}

def Vm.setPhys (s : Vm) (phys : Physical.State) : Vm :=
  { s with paging.phys := phys }

def Vm.setPaging (s : Vm) (paging : Paging) : Vm :=
  { s with paging := paging }

lemma fail_eq_ok {α : Type} {stop : Stop} {result : α × Vm} : fail stop s = .ok result ↔ False := by
  simp [fail]

lemma check_eq_ok {condition : Bool} {name : Check} :
    check condition name s = .ok (u, s') ↔ condition = true ∧ s' = s := by
  cases condition with
  | true => simp [check, eq_comm]
  | false => simp [check, fail]

lemma allocPhys_eq_ok {addr : Nat} : allocPhys s = .ok (addr, s') ↔
    ∃ phys, Physical.allocPhys s.paging.phys = .ok (addr, phys) ∧ s' = s.setPhys phys := by
  unfold allocPhys
  cases Physical.allocPhys s.paging.phys with
  | error stop => simp
  | ok result =>
    simp only [Except.ok.injEq, Prod.ext_iff]
    constructor
    · rintro ⟨rfl, rfl⟩
      exact ⟨result.2, ⟨rfl, rfl⟩, rfl⟩
    · rintro ⟨phys, ⟨rfl, rfl⟩, rfl⟩
      exact ⟨rfl, rfl⟩

lemma deallocPhys_eq_ok {addr : Nat} : deallocPhys addr s = .ok (u, s') ↔
    ∃ phys, Physical.deallocPhys s.paging.phys addr = .ok phys ∧ s' = s.setPhys phys := by
  unfold deallocPhys
  cases Physical.deallocPhys s.paging.phys addr with
  | error stop => simp
  | ok phys => simp [Vm.setPhys, eq_comm]

lemma withPaging_eq_ok {update : Paging → Except Physical.Stop Paging} :
    withPaging update s = .ok (u, s') ↔ ∃ paging, update s.paging = .ok paging ∧
    s' = s.setPaging paging := by
  unfold withPaging
  cases update s.paging with
  | error stop => simp
  | ok paging => simp [Vm.setPaging, eq_comm]

lemma loadPage_eq_ok : loadPage vas virtual s = .ok (contents, s') ↔
      (s.paging.lookup vas (virtual / archPageSize)).present = true ∧
      contents = s.frames ((s.paging.lookup vas (virtual / archPageSize)).physical / archPageSize) ∧
      s' = s := by
  simp only [loadPage]
  split_ifs with hpresent <;> simp [hpresent, eq_comm]

lemma storePage_eq_ok : storePage vas virtual contents s = .ok (u, s') ↔
      (s.paging.lookup vas (virtual / archPageSize)).present = true ∧
      (s.paging.lookup vas (virtual / archPageSize)).write = true ∧
      s' = s.setFrame ((s.paging.lookup vas (virtual / archPageSize)).physical / archPageSize)
      contents := by
  simp only [storePage, Bool.and_eq_true]
  split_ifs with hpresent
  · simp [hpresent, eq_comm]
  · tauto

lemma readEntry_eq_ok : readEntry id s = .ok (e, s') ↔ s.entries id = some e ∧ s' = s := by
  unfold readEntry
  cases s.entries id with
  | none => simp
  | some e => simp [eq_comm]

lemma readEntry_bind {α : Type} {next : VasEntry → Kernel α} (hentry : s.entries id = some e) :
    (readEntry id >>= next) s = next e s :=
  state_bind_ok (readEntry_eq_ok.mpr ⟨hentry, rfl⟩)

lemma writeEntry_eq_ok : writeEntry id e s = .ok (u, s') ↔ s' = s.setEntry id e := by
  simp [writeEntry, eq_comm]

lemma modifyEntry_eq_ok {change : VasEntry → VasEntry} : modifyEntry id change s = .ok (u, s') ↔
    ∃ e, s.entries id = some e ∧ s' = s.setEntry id (change e) := by
  simp only [modifyEntry, state_bind_eq_ok_iff, readEntry_eq_ok, writeEntry_eq_ok]
  constructor
  · rintro ⟨e, _, ⟨hentry, rfl⟩, rfl⟩
    exact ⟨e, hentry, rfl⟩
  · rintro ⟨e, hentry, rfl⟩
    exact ⟨e, s, ⟨hentry, rfl⟩, rfl⟩

lemma newEntry_eq_ok : newEntry e s = .ok (id, s') ↔ id = s.nextEntry ∧ s' = s.addEntry e := by
  simp [newEntry, eq_comm]

lemma freeEntry_eq_ok : freeEntry id s = .ok (u, s') ↔ s' = s.dropEntry id := by
  simp [freeEntry, eq_comm]

lemma defer_eq_ok {access : Access} : defer access s = .ok (u, s') ↔
    s' = { s with deferred := s.deferred ++ [access] } := by
  simp [defer, eq_comm]

lemma checkTree_state {tree : TreeNode Nat}
    (hcheck : checkTree tree virtual s = .ok (u, s')) : s' = s := by
  unfold checkTree at hcheck
  split_ifs at hcheck
  cases hcheck
  rfl

lemma replaceTree_eq_ok {tree : Option (TreeNode Nat)} :
    replaceTree vas global tree s = .ok (u, s') ↔ ∃ tree', tree = some tree' ∧
    s' = s.setTree vas global tree' := by
  unfold replaceTree
  cases tree with
  | none => simp
  | some tree => simp [eq_comm]

/-- Inserting an element into a tree. -/
lemma treeInsert_ok (hinsert : treeInsert vas global id s = .ok (u, s')) :
    ∃ tree, (s.tree vas global).avlInsert s.comparator id = some tree ∧
    s' = s.setTree vas global tree := by
  simp only [treeInsert, state_bind_eq_ok_iff, replaceTree_eq_ok] at hinsert
  obtain ⟨_, _, hs, _, _, hcheck, tree, htree, rfl⟩ := hinsert
  cases hs
  cases checkTree_state hcheck
  exact ⟨tree, htree, rfl⟩

lemma insertIntoAvl_ok (hinsert : insertIntoAvl vas id s = .ok (u, s'))
    (hentry : s.entries id = some e) :
    ∃ tree, (s.tree vas e.global).avlInsert s.comparator id = some tree ∧
    s' = s.setTree vas e.global tree := by
  rw [insertIntoAvl, readEntry_bind hentry] at hinsert
  exact treeInsert_ok hinsert

lemma getVirtEntry_ok {found : Option Nat} (hget : getVirtEntry vas virtual s = .ok (found, s')) :
    found = s.getVirtEntry vas virtual ∧ s' = s := by
  simp only [getVirtEntry, state_bind_eq_ok_iff] at hget
  obtain ⟨_, _, hs, _, _, hlocal, _, _, hglobal, hpure⟩ := hget
  cases hs
  cases hpure
  rw [checkTree_state hglobal, checkTree_state hlocal]
  exact ⟨rfl, rfl⟩

lemma Vm.treeContains_eq (s : Vm) (tree : TreeNode Nat) (virtual : Nat) :
    s.treeContains tree virtual = (s.treeGet tree virtual).isSome :=
  TreeNode.avlContains_eq

/-- What `IsRangeInUse` answers. -/
lemma isRangeInUse_ok {pages : Nat} {answer : Bool}
    (hcall : isRangeInUse vas virtual pages s = .ok (answer, s')) :
    answer = (s.treeMeets (s.mappings vas) virtual pages ||
      s.treeMeets s.globalVasMappings virtual pages) ∧ s' = s := by
  unfold isRangeInUse at hcall
  split_ifs at hcall with hzero
  · cases hcall
    simp [Vm.treeMeets, hzero]
  · obtain ⟨_, _, hs, hcall⟩ := state_bind_eq_ok_iff.mp hcall
    cases hs
    obtain ⟨_, _, hlocal, hcall⟩ := state_bind_eq_ok_iff.mp hcall
    cases checkTree_state hlocal
    split_ifs at hcall with hmeets
    · cases hcall
      simp [hmeets]
    · obtain ⟨_, _, hglobal, hcall⟩ := state_bind_eq_ok_iff.mp hcall
      cases checkTree_state hglobal
      cases hcall
      simp [hmeets]

lemma getVirtPermissions_state {permissions : VmFlags}
    (hget : getVirtPermissions vas virtual s = .ok (permissions, s')) : s' = s := by
  obtain ⟨found, s₁, hentry, hrest⟩ := state_bind_eq_ok_iff.mp hget
  obtain ⟨_, rfl⟩ := getVirtEntry_ok hentry
  cases found with
  | none =>
    cases hrest
    rfl
  | some id =>
    simp only [state_bind_eq_ok_iff, readEntry_eq_ok] at hrest
    obtain ⟨_, _, ⟨_, rfl⟩, hpure⟩ := hrest
    cases hpure
    rfl

end Merlon.Virtual
