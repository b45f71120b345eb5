/-
The shape of the address spaces: the entries of a tree are live, fit the
address space and are apart from each other and from those of the global tree,
and the trees are sorted and balanced.  Then the comparator is an order on each
tree, lookups find the one entry that covers a page, and insertion and deletion
never fail.
-/
import Merlon.Virtual.Primitive

namespace Merlon.Virtual

open VasEntry

open Physical (archPageSize)
open Adt (TreeNode)
open Function (update update_self update_of_ne)

/-- What the trees depend on. -/
def VasEntry.outline (e : VasEntry) : Nat × Int × Bool :=
  (e.virtual, e.numPages, e.global)

namespace VasEntry

variable {e e' : VasEntry}

lemma outline_eq_iff : e.outline = e'.outline ↔ e.virtual = e'.virtual ∧
    e.numPages = e'.numPages ∧ e.global = e'.global := by
  simp only [outline, Prod.mk.injEq]

lemma page_of_outline (h : e.outline = e'.outline) : e.page = e'.page := by
  rw [page, page, (outline_eq_iff.mp h).1]

lemma covers_of_outline (h : e.outline = e'.outline) : e.Covers = e'.Covers := by
  funext page
  rw [Covers, Covers, page_of_outline h, (outline_eq_iff.mp h).2.1]

lemma Placed.of_outline (hplaced : e.Placed) (h : e.outline = e'.outline) : e'.Placed := by
  obtain ⟨hvirtual, hpages, _⟩ := outline_eq_iff.mp h
  refine ⟨hvirtual ▸ hplaced.aligned, hpages ▸ hplaced.positive, ?_⟩
  rw [← page_of_outline h, ← hpages]
  exact hplaced.inside

end VasEntry

namespace Vm

structure Shape (s : Vm) : Prop where
  live : ∀ vas global id, id ∈ (s.tree vas global).toList →
    ∃ e, s.entries id = some e ∧ e.Placed ∧ e.global = global
  fresh : ∀ id, s.nextEntry ≤ id → s.entries id = none
  apart : ∀ vas global other first second, first ∈ (s.tree vas global).toList →
    second ∈ (s.tree vas other).toList → first ≠ second → (s.entry first).Apart (s.entry second)
  sorted : ∀ vas global, (s.tree vas global).toList.Pairwise fun first second =>
    (s.entry first).page < (s.entry second).page
  balanced : ∀ vas global, (s.tree vas global).Balanced

/-- An entry in the address space's own tree or in the global one. -/
def Member (s : Vm) (vas id : Nat) : Prop :=
  ∃ global, id ∈ (s.tree vas global).toList

/-- The address spaces that see an entry put into a tree. -/
def Sees (vas : Nat) (global : Bool) (viewer : Nat) : Prop :=
  global = true ∨ viewer = vas

instance (vas : Nat) (global : Bool) (viewer : Nat) : Decidable (Sees vas global viewer) :=
  inferInstanceAs (Decidable (_ ∨ _))

/-- The page has an entry in the address space. -/
def Covered (s : Vm) (vas page : Nat) : Prop :=
  ∃ id, s.Member vas id ∧ (s.entry id).Covers page

/-- No address space that would see them has an entry for these pages. -/
def FreeRange (s : Vm) (vas : Nat) (global : Bool) (page pages : Nat) : Prop :=
  ∀ viewer at_, Sees vas global viewer → page ≤ at_ → at_ < page + pages → ¬ s.Covered viewer at_

variable {s s' : Vm} {vas viewer id : Nat} {global : Bool} {e : VasEntry} {tree : TreeNode Nat}

lemma entry_eq (hentry : s.entries id = some e) : s.entry id = e := by
  rw [entry, hentry]
  rfl

/-! Fields of the updates. -/

section

variable (s : Vm)

@[simp] lemma entries_setEntry (id : Nat) (e : VasEntry) :
    (s.setEntry id e).entries = update s.entries id (some e) :=
  rfl

@[simp] lemma nextEntry_setEntry (id : Nat) (e : VasEntry) :
    (s.setEntry id e).nextEntry = s.nextEntry :=
  rfl

@[simp] lemma entries_addEntry (e : VasEntry) :
    (s.addEntry e).entries = update s.entries s.nextEntry (some e) :=
  rfl

@[simp] lemma entries_setTree : (s.setTree vas global tree).entries = s.entries := by
  cases global <;> rfl

@[simp] lemma nextEntry_setTree : (s.setTree vas global tree).nextEntry = s.nextEntry := by
  cases global <;> rfl

@[simp] lemma entry_setTree : (s.setTree vas global tree).entry = s.entry := by
  cases global <;> rfl

lemma tree_setTree (other : Bool) : (s.setTree vas global tree).tree viewer other =
      if other = global ∧ Sees vas global viewer then tree
      else s.tree viewer other := by
  by_cases hviewer : viewer = vas
  · cases global <;> cases other <;> simp [setTree, Vm.tree, Sees, update, hviewer]
  · cases global <;> cases other <;> simp [setTree, Vm.tree, Sees, update, hviewer]

/-- Another view of a tree that sees the change is the same tree. -/
lemma tree_eq_of_sees (hsees : Sees vas global viewer) :
    s.tree viewer global = s.tree vas global := by
  rcases hsees with rfl | rfl <;> rfl

lemma entry_setEntry (other : Nat) :
    (s.setEntry id e).entry other = if other = id then e else s.entry other := by
  by_cases hother : other = id
  · simp [entry, setEntry, hother]
  · simp [entry, setEntry, hother]

end

/-! The comparator is an order on the entries of a tree. -/

namespace Shape

section

variable (h : s.Shape)

include h

lemma placed (hmem : id ∈ (s.tree vas global).toList) : (s.entry id).Placed := by
  obtain ⟨e, hentry, hplaced, _⟩ := h.live vas global id hmem
  rw [entry_eq hentry]
  exact hplaced

lemma entry_global (hmem : id ∈ (s.tree vas global).toList) : (s.entry id).global = global := by
  obtain ⟨e, hentry, _, hglobal⟩ := h.live vas global id hmem
  rw [entry_eq hentry]
  exact hglobal

lemma lt_nextEntry (hentry : s.entries id = some e) : id < s.nextEntry := by
  by_contra hge
  rw [h.fresh id (by omega)] at hentry
  cases hentry

lemma member_lt (hmem : id ∈ (s.tree vas global).toList) : id < s.nextEntry := by
  obtain ⟨e, hentry, _⟩ := h.live vas global id hmem
  exact h.lt_nextEntry hentry

/-- A tree's entries are in one tree of an address space only. -/
lemma member_iff (hentry : s.entries id = some e) :
    s.Member vas id ↔ id ∈ (s.tree vas e.global).toList := by
  constructor
  · rintro ⟨global, hmem⟩
    rw [← entry_eq hentry, h.entry_global hmem]
    exact hmem
  · exact fun hmem => ⟨_, hmem⟩

/-! Insertion and deletion. -/

/-- Inserting an entry that is apart from those of a tree. -/
lemma avlInsert (vas : Nat) (global : Bool) (id : Nat) (hplaced : (s.entry id).Placed)
    (hapart : ∀ other ∈ (s.tree vas global).toList, (s.entry id).Apart (s.entry other)) :
    ∃ tree, (s.tree vas global).avlInsert s.comparator id = some tree ∧ tree.Balanced ∧
    (∀ other, other ∈ tree.toList ↔ other = id ∨ other ∈ (s.tree vas global).toList) ∧
    tree.toList.Pairwise fun first second => (s.entry first).page < (s.entry second).page := by
  refine TreeNode.avlInsert_sorted (h.balanced vas global) (h.sorted vas global) ?_ ?_
  · intro other hother
    exact virtAvlComparator_neg_iff hplaced (h.placed hother) (hapart other hother)
  · intro other hother heq
    have hcovers := (h.placed hother).covers_page
    rw [heq] at hcovers
    exact hapart other hother _ hplaced.covers_page hcovers

/-- An entry joins a tree. -/
lemma join (vas : Nat) (hentry : s.entries id = some e) (hplaced : e.Placed)
    (hapart : ∀ viewer other, Sees vas e.global viewer →
      s.Member viewer other → e.Apart (s.entry other))
    (hinsert : (s.tree vas e.global).avlInsert s.comparator id = some tree) :
    (s.setTree vas e.global tree).Shape ∧ ∀ other, other ∈ tree.toList ↔
        other = id ∨ other ∈ (s.tree vas e.global).toList := by
  have he := entry_eq hentry
  obtain ⟨tree', hinsert', hbalanced, hmem, hsorted⟩ :=
    h.avlInsert vas e.global id (by rw [he]; exact hplaced) (fun other hother => by
        rw [he]; exact hapart vas other (.inr rfl) ⟨_, hother⟩)
  rw [hinsert] at hinsert'
  cases hinsert'
  have hmem' : ∀ viewer other at_, at_ ∈ ((s.setTree vas e.global tree).tree viewer other).toList →
      at_ = id ∧ Sees vas e.global viewer ∧ other = e.global ∨
      at_ ∈ (s.tree viewer other).toList := by
    intro viewer other at_ hat
    rw [tree_setTree] at hat
    split_ifs at hat with hcase
    · rcases (hmem at_).mp hat with rfl | hold
      · exact .inl ⟨rfl, hcase.2, hcase.1⟩
      · rw [hcase.1, tree_eq_of_sees s hcase.2]
        exact .inr hold
    · exact .inr hat
  refine ⟨⟨?_, ?_, ?_, ?_, ?_⟩, hmem⟩
  · intro viewer other at_ hat
    rw [entries_setTree]
    rcases hmem' viewer other at_ hat with ⟨rfl, _, rfl⟩ | hold
    · exact ⟨e, hentry, hplaced, rfl⟩
    · exact h.live viewer other at_ hold
  · intro at_ hat
    rw [nextEntry_setTree] at hat
    rw [entries_setTree]
    exact h.fresh at_ hat
  · intro viewer first second at_ at' hat hat' hne
    rw [entry_setTree]
    rcases hmem' viewer first at_ hat with ⟨rfl, hsees, rfl⟩ | hold
    · rcases hmem' viewer second at' hat' with ⟨rfl, _, _⟩ | hold'
      · exact absurd rfl hne
      · rw [he]
        exact hapart viewer at' hsees ⟨_, hold'⟩
    · rcases hmem' viewer second at' hat' with ⟨rfl, hsees, rfl⟩ | hold'
      · rw [he]
        exact (hapart viewer at_ hsees ⟨_, hold⟩).symm
      · exact h.apart viewer first second at_ at' hold hold' hne
  · intro viewer other
    rw [tree_setTree, entry_setTree]
    split_ifs
    · exact hsorted
    · exact h.sorted viewer other
  · intro viewer other
    rw [tree_setTree]
    split_ifs
    · exact hbalanced
    · exact h.balanced viewer other

/-! Other updates. -/

/-- An update that keeps the trees and the outlines of their entries. -/
lemma of_outline (hmappings : s'.mappings = s.mappings)
    (hglobal : s'.globalVasMappings = s.globalVasMappings) (hnext : s'.nextEntry = s.nextEntry)
    (houtline : ∀ id, (s'.entries id).map outline = (s.entries id).map outline) : s'.Shape := by
  have htree : s'.tree = s.tree := by
    funext vas global
    rw [Vm.tree, Vm.tree, hmappings, hglobal]
  have hentry : ∀ id, (s'.entry id).outline = (s.entry id).outline := by
    intro id
    have := houtline id
    rw [entry, entry]
    cases hs : s.entries id <;> cases hs' : s'.entries id <;> simp_all
  refine ⟨?_, ?_, ?_, ?_, ?_⟩
  · intro vas global id hmem
    rw [htree] at hmem
    obtain ⟨e, he, hplaced, hglobal⟩ := h.live vas global id hmem
    have hsome := houtline id
    rw [he, Option.map_some] at hsome
    obtain ⟨e', he', hsame⟩ := Option.map_eq_some_iff.mp hsome
    exact ⟨e', he', hplaced.of_outline hsame.symm, (outline_eq_iff.mp hsame).2.2.trans hglobal⟩
  · intro id hid
    rw [hnext] at hid
    have hnone := houtline id
    rw [h.fresh id hid] at hnone
    simpa using hnone
  · intro vas global other first second hfirst hsecond hne page
    rw [htree] at hfirst hsecond
    rw [covers_of_outline (hentry first), covers_of_outline (hentry second)]
    exact h.apart vas global other first second hfirst hsecond hne page
  · intro vas global
    simp only [htree, fun id => page_of_outline (hentry id)]
    exact h.sorted vas global
  · intro vas global
    rw [htree]
    exact h.balanced vas global

/-- A new entry that is in no tree yet. -/
lemma addEntry (e : VasEntry) : (s.addEntry e).Shape := by
  have hentry : ∀ vas global id, id ∈ (s.tree vas global).toList →
      (s.addEntry e).entries id = s.entries id := by
    intro vas global id hmem
    have hlt := h.member_lt hmem
    exact update_of_ne (by omega) _ _
  have hentry' : ∀ vas global id, id ∈ (s.tree vas global).toList →
      (s.addEntry e).entry id = s.entry id := by
    intro vas global id hmem
    rw [entry, entry, hentry vas global id hmem]
  refine ⟨?_, ?_, ?_, ?_, h.balanced⟩
  · intro vas global id hmem
    rw [hentry vas global id hmem]
    exact h.live vas global id hmem
  · intro id hid
    change s.nextEntry + 1 ≤ id at hid
    exact (update_of_ne (by omega) _ _).trans (h.fresh id (by omega))
  · intro vas global other first second hfirst hsecond
    rw [hentry' vas global first hfirst, hentry' vas other second hsecond]
    exact h.apart vas global other first second hfirst hsecond
  · intro vas global
    refine (h.sorted vas global).imp_of_mem ?_
    intro first second hfirst hsecond hlt
    rw [hentry' vas global first hfirst, hentry' vas global second hsecond]
    exact hlt

/-- An entry gives up some of its pages. -/
lemma shrink {e' : VasEntry} (hentry : s.entries id = some e)
    (hplaced : e'.Placed) (hglobal : e'.global = e.global)
    (hwithin : ∀ page, e'.Covers page → e.Covers page) : (s.setEntry id e').Shape := by
  have he := entry_eq hentry
  have hcovers : ∀ other page, ((s.setEntry id e').entry other).Covers page →
      (s.entry other).Covers page := by
    intro other page hcover
    rw [entry_setEntry] at hcover
    split_ifs at hcover with hsame
    · rw [hsame, he]
      exact hwithin page hcover
    · exact hcover
  have hplaced' : ∀ vas global other, other ∈ (s.tree vas global).toList →
      ((s.setEntry id e').entry other).Placed := by
    intro vas global other hmem
    rw [entry_setEntry]
    split_ifs
    · exact hplaced
    · exact h.placed hmem
  refine ⟨?_, ?_, ?_, ?_, h.balanced⟩
  · intro vas global other hmem
    obtain ⟨o, ho, hoplaced, hoglobal⟩ := h.live vas global other hmem
    by_cases hsame : other = id
    · refine ⟨e', ?_, hplaced, ?_⟩
      · rw [hsame]
        exact update_self _ _ _
      · rw [hsame, hentry] at ho
        cases ho
        exact hglobal.trans hoglobal
    · exact ⟨o, (update_of_ne hsame _ _).trans ho, hoplaced, hoglobal⟩
  · intro other hother
    have hlt := h.lt_nextEntry hentry
    change s.nextEntry ≤ other at hother
    exact (update_of_ne (by omega) _ _).trans (h.fresh other hother)
  · intro vas global other first second hfirst hsecond hne page hcover hcover'
    exact h.apart vas global other first second hfirst hsecond hne page
      (hcovers _ _ hcover) (hcovers _ _ hcover')
  · intro vas global
    refine (h.sorted vas global).imp_of_mem ?_
    intro first second hfirst hsecond hlt
    -- The old ranges are apart, so the order of the first pages is that of
    -- any pages of the two.
    have hne : first ≠ second := by
      rintro rfl
      exact Nat.lt_irrefl _ hlt
    have hapart := (apart_iff (h.placed hfirst) (h.placed hsecond)).mp
      (h.apart vas global global first second hfirst hsecond hne)
    have hfirst' := hcovers first _ (hplaced' _ _ _ hfirst).covers_page
    have hsecond' := hcovers second _ (hplaced' _ _ _ hsecond).covers_page
    unfold VasEntry.Covers at hfirst' hsecond'
    omega

end

/-! Lookups. -/

lemma mod_page {virtual : Nat} (hvirtual : virtual < addressLimit) :
    virtual / archPageSize < 2 ^ 20 := by
  unfold addressLimit at hvirtual
  unfold archPageSize
  omega

lemma treeGet_eq_some (h : s.Shape) (vas : Nat) (global : Bool) {page : Nat} (hpage : page < 2 ^ 20)
    (hget : s.treeGet (s.tree vas global) (page * archPageSize) = some id) :
    id ∈ (s.tree vas global).toList ∧ (s.entry id).Covers page := by
  obtain ⟨hmem, hzero⟩ := TreeNode.avlGet_eq_some hget
  exact ⟨hmem, (virtAvlComparator_dummyEntry (h.placed hmem) hpage).mp hzero⟩

lemma treeGet_eq_none_iff (h : s.Shape) (vas : Nat) (global : Bool) {page : Nat}
    (hpage : page < 2 ^ 20) : s.treeGet (s.tree vas global) (page * archPageSize) = none ↔
    ∀ id ∈ (s.tree vas global).toList, ¬ (s.entry id).Covers page := by
  rw [treeGet, TreeNode.avlGet_eq_none_iff]
  constructor
  · exact fun hnone id hmem hcovers => hnone id hmem
      ((virtAvlComparator_dummyEntry (h.placed hmem) hpage).mpr hcovers)
  · exact fun hnone id hmem hzero => hnone id hmem
      ((virtAvlComparator_dummyEntry (h.placed hmem) hpage).mp hzero)

/-- An address space has one entry for a page at most. -/
lemma member_unique (h : s.Shape) {first second page : Nat} (hfirst : s.Member vas first)
    (hsecond : s.Member vas second) (hcover : (s.entry first).Covers page)
    (hcover' : (s.entry second).Covers page) : first = second := by
  by_contra hne
  obtain ⟨_, hfirst⟩ := hfirst
  obtain ⟨_, hsecond⟩ := hsecond
  exact h.apart _ _ _ _ _ hfirst hsecond hne page hcover hcover'

/-- `GetVirtEntry` finds the entry that covers the page, if there is one. -/
lemma getVirtEntry_eq_some_iff (h : s.Shape) {virtual : Nat} (hvirtual : virtual < addressLimit) :
    s.getVirtEntry vas virtual = some id ↔ s.Member vas id ∧
    (s.entry id).Covers (virtual / archPageSize) := by
  have hpage := mod_page hvirtual
  have hfound : ∀ found, s.getVirtEntry vas virtual = some found →
      s.Member vas found ∧ (s.entry found).Covers (virtual / archPageSize) := by
    intro found hget
    unfold getVirtEntry at hget
    dsimp only at hget
    split at hget
    · rename_i found' hlocal
      cases hget
      obtain ⟨hmem, hcovers⟩ := h.treeGet_eq_some vas false hpage hlocal
      exact ⟨⟨_, hmem⟩, hcovers⟩
    · obtain ⟨hmem, hcovers⟩ := h.treeGet_eq_some vas true hpage hget
      exact ⟨⟨_, hmem⟩, hcovers⟩
  refine ⟨hfound id, ?_⟩
  rintro ⟨hmember, hcovers⟩
  cases hget : s.getVirtEntry vas virtual with
  | some found =>
    obtain ⟨hmem, hcovers'⟩ := hfound found hget
    rw [h.member_unique hmem hmember hcovers' hcovers]
  | none =>
    exfalso
    unfold getVirtEntry at hget
    dsimp only at hget
    split at hget
    · cases hget
    · rename_i hlocal
      obtain ⟨global, hmem⟩ := hmember
      cases global with
      | false => exact (h.treeGet_eq_none_iff vas false hpage).mp hlocal id hmem hcovers
      | true => exact (h.treeGet_eq_none_iff vas true hpage).mp hget id hmem hcovers

end Shape

end Vm

end Merlon.Virtual
