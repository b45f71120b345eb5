/-
Splitting an entry.  Both parts of a split entry keep its fields, every page
keeps its entry's fields, and the address spaces stay well shaped.
-/
import Merlon.Virtual.Shape

namespace Merlon.Virtual

open Function Vm

open Physical (archPageSize)
open Adt (TreeNode)

/-- The two parts an entry is split into, and the one that keeps its place in
the store. -/
def VasEntry.Splits (e kept piece : VasEntry) : Prop :=
  ∃ pages : Nat, 0 < pages ∧ (pages : Int) < e.numPages ∧
    (kept = e.skip pages ∧ piece = { e with numPages := pages } ∨
      kept = { e with numPages := pages } ∧ piece = e.skip pages)

namespace VasEntry

variable {e e' kept piece : VasEntry} {pages : Nat}

lemma Placed.skip (h : e.Placed) (hpositive : 0 < pages) (hpages : (pages : Int) < e.numPages) :
    (e.skip pages).Placed ∧ (e.skip pages).page = e.page + pages := by
  have hinside := h.inside
  have hvirtual : e.virtual = e.page * 4096 := h.virtual_eq
  have hskip : (e.skip pages).virtual = e.virtual + pages * 4096 := by
    change (e.virtual + pages * 4096) % 2 ^ 32 = _
    omega
  have hpage : (e.skip pages).page = e.page + pages := by
    change (e.skip pages).virtual / 4096 = _
    omega
  refine ⟨⟨?_, ?_, ?_⟩, hpage⟩
  · change (e.skip pages).virtual % 4096 = 0
    omega
  · change 1 ≤ e.numPages - pages
    omega
  · rw [hpage]
    change ((e.page + pages : Nat) : Int) + (e.numPages - pages) ≤ 2 ^ 20
    omega

lemma Placed.truncate (h : e.Placed) (hpositive : 0 < pages)
    (hpages : (pages : Int) < e.numPages) : ({ e with numPages := pages } : VasEntry).Placed := by
  have hinside := h.inside
  refine ⟨h.aligned, ?_, ?_⟩
  · change 1 ≤ (pages : Int)
    omega
  · change (e.page : Int) + pages ≤ 2 ^ 20
    omega

/-- The parts of an entry share its pages out. -/
lemma Splits.covers (h : e.Placed) (hsplits : e.Splits kept piece) : kept.Placed ∧ piece.Placed ∧
    kept.global = e.global ∧ piece.global = e.global ∧ kept.Apart piece ∧ ∀ page, e.Covers page ↔
    kept.Covers page ∨ piece.Covers page := by
  obtain ⟨pages, hpositive, hpages, hparts⟩ := hsplits
  obtain ⟨hskip, hpage⟩ := h.skip hpositive hpages
  have htruncate := h.truncate hpositive hpages
  have hapart : (e.skip pages).Apart { e with numPages := pages } := by
    rw [apart_iff hskip htruncate, hpage]
    right
    change (e.page : Int) + pages ≤ ((e.page + pages : Nat) : Int)
    omega
  have hcovers : ∀ page, e.Covers page ↔ (e.skip pages).Covers page ∨
      ({ e with numPages := pages } : VasEntry).Covers page := by
    intro page
    simp only [Covers]
    change _ ↔ (_ ∧ (page : Int) < _ + (e.numPages - pages)) ∨
      (e.page ≤ page ∧ (page : Int) < e.page + pages)
    omega
  rcases hparts with ⟨rfl, rfl⟩ | ⟨rfl, rfl⟩
  · exact ⟨hskip, htruncate, rfl, rfl, hapart, hcovers⟩
  · exact ⟨htruncate, hskip, rfl, rfl, hapart.symm, fun page => (hcovers page).trans or_comm⟩

end VasEntry

namespace Vm

variable {s s' : Vm} {vas id : Nat} {global : Bool} {e e' : VasEntry} {tree : TreeNode Nat}

lemma map_outline_setEntry (s : Vm) (hentry : s.entries id = some e)
    (houtline : e'.outline = e.outline) (other : Nat) :
    ((s.setEntry id e').entries other).map VasEntry.outline =
      (s.entries other).map VasEntry.outline := by
  by_cases hother : other = id
  · rw [hother, hentry]
    simp [houtline]
  · simp [hother]

/-- Changing an entry without moving it. -/
lemma Shape.setEntry (h : s.Shape) (hentry : s.entries id = some e)
    (e' : VasEntry) (houtline : e'.outline = e.outline) : (s.setEntry id e').Shape :=
  h.of_outline rfl rfl rfl (map_outline_setEntry s hentry houtline)

/-- Changing what the shape does not depend on. -/
lemma Shape.congr (h : s.Shape) (hentries : s'.entries = s.entries)
    (hmappings : s'.mappings = s.mappings) (hglobal : s'.globalVasMappings = s.globalVasMappings)
    (hnext : s'.nextEntry = s.nextEntry) : s'.Shape :=
  h.of_outline hmappings hglobal hnext fun id => by rw [hentries]

lemma Shape.setPaging (h : s.Shape) (paging : Paging) : (s.setPaging paging).Shape :=
  h.congr rfl rfl rfl rfl

lemma Shape.entries_of_mem (h : s.Shape)
    (hmem : id ∈ (s.tree vas global).toList) : s.entries id = some (s.entry id) := by
  obtain ⟨e, hentry, _⟩ := h.live vas global id hmem
  rw [entry_eq hentry, hentry]

lemma entry_addEntry (s : Vm) (e : VasEntry) (other : Nat) : (s.addEntry e).entry other =
      if other = s.nextEntry then e else s.entry other :=
  entry_setEntry s other

/-- A new entry in a free range joins a tree. -/
lemma Shape.add (h : s.Shape) (hplaced : e.Placed)
    (hfree : s.FreeRange vas e.global e.page e.numPages.toNat)
    (hinsert : (s.tree vas e.global).avlInsert (s.addEntry e).comparator s.nextEntry = some tree) :
    ((s.addEntry e).setTree vas e.global tree).Shape ∧ ∀ other, other ∈ tree.toList ↔
    other = s.nextEntry ∨ other ∈ (s.tree vas e.global).toList := by
  have hentry : (s.addEntry e).entries s.nextEntry = some e := update_self _ _ _
  refine (h.addEntry e).join vas hentry hplaced ?_ hinsert
  rintro viewer other hsees ⟨global, hmem⟩ page hcovers hcovers'
  have hold : other ∈ (s.tree viewer global).toList := hmem
  have hlt := h.member_lt hold
  rw [entry_addEntry, if_neg (by omega)] at hcovers'
  refine hfree viewer page hsees hcovers.1 ?_ ⟨other, ⟨global, hmem⟩, hcovers'⟩
  have := hcovers.2
  omega

/-- An entry is split in two. -/
lemma Shape.split {kept piece : VasEntry} (h : s.Shape) (hmem : id ∈ (s.tree vas e.global).toList)
    (hentry : s.entries id = some e) (hsplits : e.Splits kept piece)
    (hinsert : (s.tree vas e.global).avlInsert ((s.setEntry id kept).addEntry piece).comparator
      s.nextEntry = some tree) :
    (((s.setEntry id kept).addEntry piece).setTree vas e.global tree).Shape ∧
      ∀ other, other ∈ tree.toList ↔
        other = s.nextEntry ∨ other ∈ (s.tree vas e.global).toList := by
  have hplaced : e.Placed := entry_eq hentry ▸ h.placed hmem
  obtain ⟨hkept, hpiece, hglobal, hglobal', hapart, hcovers⟩ := hsplits.covers hplaced
  have hshrink : (s.setEntry id kept).Shape := h.shrink hentry hkept hglobal fun page hpage =>
      (hcovers page).mpr (.inl hpage)
  have hfree : (s.setEntry id kept).FreeRange vas piece.global piece.page piece.numPages.toNat := by
    rintro viewer page hsees hle hlt ⟨other, hmember, hcovers'⟩
    have hpiece' : piece.Covers page := by
      exact ⟨hle, by omega⟩
    rw [entry_setEntry] at hcovers'
    split_ifs at hcovers' with hsame
    · exact hapart page hcovers' hpiece'
    · obtain ⟨global, hother⟩ := hmember
      rw [hglobal'] at hsees
      have hviewer : id ∈ (s.tree viewer e.global).toList := by
        rw [tree_eq_of_sees s hsees]
        exact hmem
      refine h.apart viewer global e.global other id hother hviewer hsame page hcovers' ?_
      rw [entry_eq hentry]
      exact (hcovers page).mpr (.inr hpiece')
  rw [← hglobal'] at hinsert
  have hadd := hshrink.add hpiece hfree hinsert
  rw [hglobal'] at hadd
  exact hadd
end Vm

variable {s s' : Vm} {vas virtual id : Nat} {e : VasEntry} {u : Unit}
  {Kind : VasEntry → Prop} {α : Type} {view : VasEntry → Nat → α}

/-- The fields of an entry that are the same in all its parts. -/
def VasEntry.body (e : VasEntry) : VasEntry :=
  { e with virtual := 0, numPages := 0, physical := 0, fileOffset := 0 }

/-- A page of an address space has an entry that reads so there. -/
def Vm.Shows (s : Vm) (vas : Nat) (view : VasEntry → Nat → α) (page : Nat) (value : α) : Prop :=
  ∃ id, s.Member vas id ∧ (s.entry id).Covers page ∧ view (s.entry id) page = value

/-- Every entry is of the kind. -/
def Vm.All (Kind : VasEntry → Prop) (s : Vm) : Prop :=
  ∀ id e, s.entries id = some e → Kind e

/-- The parts of an entry of the kind are of the kind. -/
def Hereditary (Kind : VasEntry → Prop) : Prop :=
  ∀ {e kept piece : VasEntry}, e.Placed → e.allocated = false → Kind e →
    e.Splits kept piece → Kind kept ∧ Kind piece

/-- The parts of an entry of the kind read as the entry did. -/
def Reads (Kind : VasEntry → Prop) (view : VasEntry → Nat → α) : Prop :=
  ∀ {e kept piece : VasEntry}, e.Placed → e.allocated = false → Kind e → e.Splits kept piece →
    ∀ page, (kept.Covers page → view kept page = view e page) ∧
    (piece.Covers page → view piece page = view e page)

namespace Vm

lemma All.setEntry (hall : s.All Kind) (hkind : Kind e) : (s.setEntry id e).All Kind := by
  intro other found hfound
  rw [entries_setEntry, update_apply] at hfound
  split at hfound
  · cases hfound
    exact hkind
  · exact hall other found hfound

lemma addEntry_setEntry (s : Vm) (piece kept : VasEntry) (hlt : id < s.nextEntry) :
    (s.addEntry piece).setEntry id kept = (s.setEntry id kept).addEntry piece := by
  simp only [addEntry, setEntry]
  rw [update_comm (show s.nextEntry ≠ id by omega)]

/-- An entry has joined a tree. -/
lemma member_setTree {global : Bool} {tree : TreeNode Nat} {new : Nat}
    (hmem : ∀ other, other ∈ tree.toList ↔ other = new ∨ other ∈ (s.tree vas global).toList)
    (viewer other : Nat) : (s.setTree vas global tree).Member viewer other ↔ s.Member viewer other ∨
    other = new ∧ Sees vas global viewer := by
  constructor
  · rintro ⟨at_, hother⟩
    rw [tree_setTree] at hother
    split_ifs at hother with hcase
    · rcases (hmem other).mp hother with hnew | hold
      · exact .inr ⟨hnew, hcase.2⟩
      · refine .inl ⟨global, ?_⟩
        rw [tree_eq_of_sees s hcase.2]
        exact hold
    · exact .inl ⟨at_, hother⟩
  · rintro (⟨at_, hother⟩ | ⟨rfl, hsees⟩)
    · refine ⟨at_, ?_⟩
      rw [tree_setTree]
      split_ifs with hcase
      · rw [hcase.1, tree_eq_of_sees s hcase.2] at hother
        exact (hmem other).mpr (.inr hother)
      · exact hother
    · refine ⟨global, ?_⟩
      rw [tree_setTree, if_pos ⟨rfl, hsees⟩]
      exact (hmem other).mpr (.inl rfl)

lemma entry_split {kept piece : VasEntry} (tree : TreeNode Nat) (other : Nat) :
    (((s.setEntry id kept).addEntry piece).setTree vas e.global tree).entry other =
      if other = s.nextEntry then piece
      else if other = id then kept else s.entry other := by
  rw [entry_setTree, entry_addEntry, nextEntry_setEntry, entry_setEntry]

end Vm

/-- What splitting the entry `id` in `vas` leaves. -/
structure SplitOff (Kind : VasEntry → Prop) (s : Vm) (vas id : Nat)
    (e e' : VasEntry) (s' : Vm) : Prop where
  shape : s'.Shape
  kinds : s'.All Kind
  entry : s'.entries id = some e'
  mem : id ∈ (s'.tree vas e'.global).toList
  body : e'.body = e.body
  shows : ∀ {α : Type} {view : VasEntry → Nat → α}, Reads Kind view →
    ∀ page value, s'.Shows vas view page value ↔ s.Shows vas view page value

section Splitting

variable (hshape : s.Shape) (hall : s.All Kind) (hentry : s.entries id = some e)
  (hmem : id ∈ (s.tree vas e.global).toList)

include hshape hall hentry hmem

lemma SplitOff.refl : SplitOff Kind s vas id e e s :=
  ⟨hshape, hall, hentry, hmem, rfl, fun _ _ _ => Iff.rfl⟩

omit hshape hall hentry hmem in
lemma SplitOff.trans {t u : Vm} {e₁ e₂ : VasEntry} (hfirst : SplitOff Kind s vas id e e₁ t)
    (hsecond : SplitOff Kind t vas id e₁ e₂ u) : SplitOff Kind s vas id e e₂ u :=
  { hsecond with
    body := hsecond.body.trans hfirst.body
    shows := fun hreads page value =>
      (hsecond.shows hreads page value).trans (hfirst.shows hreads page value) }

/-- One split: the entry keeps one part, a new one gets the other. -/
lemma splitOff_of_splits {kept piece : VasEntry} (hereditary : Hereditary Kind)
    (hallocated : e.allocated = false) (hsplits : e.Splits kept piece)
    (hinsert : insertIntoAvl vas s.nextEntry ((s.setEntry id kept).addEntry piece) = .ok (u, s')) :
    SplitOff Kind s vas id e kept s' := by
  have hplaced : e.Placed := entry_eq hentry ▸ hshape.placed hmem
  have hlt := hshape.lt_nextEntry hentry
  obtain ⟨_, _, hglobal, hglobal', _, hcovers⟩ := hsplits.covers hplaced
  obtain ⟨hkept, hpiece⟩ := hereditary hplaced hallocated (hall id e hentry) hsplits
  obtain ⟨tree, htree, rfl⟩ := insertIntoAvl_ok hinsert (e := piece) (update_self _ _ _)
  rw [hglobal'] at htree ⊢
  have hbody : kept.body = e.body := by obtain ⟨_, _, _, ⟨rfl, rfl⟩ | ⟨rfl, rfl⟩⟩ := hsplits <;> rfl
  obtain ⟨hshape', hnodes⟩ := hshape.split hmem hentry hsplits htree
  have hmem' := member_setTree (s := (s.setEntry id kept).addEntry piece) hnodes
  have hold : ∀ other, s.Member vas other → other ≠ s.nextEntry := by
    rintro other ⟨global, hother⟩
    exact (hshape.member_lt hother).ne
  refine ⟨hshape', ?_, ?_, ?_, hbody, ?_⟩
  · rw [Vm.All, entries_setTree]
    exact (hall.setEntry hkept).setEntry hpiece
  · rw [entries_setTree, entries_addEntry, nextEntry_setEntry,
      entries_setEntry, update_of_ne (by omega), update_self]
  · rw [tree_setTree, hglobal, if_pos ⟨rfl, .inr rfl⟩]
    exact (hnodes id).mpr (.inr hmem)
  · intro α view hreads page value
    obtain ⟨hsame, hsame'⟩ := hreads hplaced hallocated (hall id e hentry) hsplits page
    constructor
    · rintro ⟨other, hmember, hcover, rfl⟩
      rw [entry_split] at hcover ⊢
      rcases (hmem' vas other).mp hmember with hmember | ⟨rfl, _⟩
      · rw [if_neg (hold other hmember)] at hcover ⊢
        refine ⟨other, hmember, ?_⟩
        split_ifs at hcover ⊢ with hid
        · rw [hid, entry_eq hentry]
          exact ⟨(hcovers page).mpr (.inl hcover), (hsame hcover).symm⟩
        · exact ⟨hcover, rfl⟩
      · rw [if_pos rfl] at hcover ⊢
        refine ⟨id, ⟨e.global, hmem⟩, ?_⟩
        rw [entry_eq hentry]
        exact ⟨(hcovers page).mpr (.inr hcover), (hsame' hcover).symm⟩
    · rintro ⟨other, hmember, hcover, rfl⟩
      have hmember' := (hmem' vas other).mpr (.inl hmember)
      by_cases hid : other = id
      · subst hid
        rw [entry_eq hentry] at hcover ⊢
        rcases (hcovers page).mp hcover with hcover | hcover
        · refine ⟨other, hmember', ?_⟩
          rw [entry_split, if_neg (hold other hmember), if_pos rfl]
          exact ⟨hcover, hsame hcover⟩
        · refine ⟨s.nextEntry, (hmem' vas s.nextEntry).mpr (.inr ⟨rfl, .inr rfl⟩), ?_⟩
          rw [entry_split, if_pos rfl]
          exact ⟨hcover, hsame' hcover⟩
      · refine ⟨other, hmember', ?_⟩
        rw [entry_split, if_neg (hold other hmember), if_neg hid]
        exact ⟨hcover, rfl⟩

variable (hereditary : Hereditary Kind)

include hereditary

lemma splitBefore_ok {targetPage : Nat} (hallocated : e.allocated = false)
    (htarget : (targetPage : Int) < e.page + e.numPages)
    (hcall : splitBefore vas targetPage id s = .ok (u, s')) : ∃ e', SplitOff Kind s vas id e e' s' ∧
    e'.page = max e.page targetPage ∧ (e'.page : Int) + e'.numPages = e.page + e.numPages := by
  have hplaced : e.Placed := entry_eq hentry ▸ hshape.placed hmem
  have hlt := hshape.lt_nextEntry hentry
  unfold splitBefore at hcall
  rw [readEntry_bind hentry] at hcall
  split_ifs at hcall with hbefore
  · simp only [state_bind_eq_ok_iff, writeEntry_eq_ok] at hcall
    obtain ⟨_, _, ⟨rfl, rfl⟩, _, _, rfl, hinsert⟩ := hcall
    rw [addEntry_setEntry _ _ _ hlt] at hinsert
    have hpositive : 0 < targetPage - e.page := by omega
    have hpages : ((targetPage - e.page : Nat) : Int) < e.numPages := by omega
    obtain ⟨_, hpage⟩ := hplaced.skip hpositive hpages
    refine ⟨e.skip (targetPage - e.page), splitOff_of_splits hshape hall hentry
      hmem hereditary hallocated ⟨_, hpositive, hpages, .inl ⟨rfl, rfl⟩⟩ hinsert, ?_, ?_⟩
    · omega
    · change _ + (e.numPages - ((targetPage - e.page : Nat) : Int)) = _
      omega
  · cases hcall
    exact ⟨e, SplitOff.refl hshape hall hentry hmem, by omega, rfl⟩

lemma splitAfter_ok (hallocated : e.allocated = false)
    (hcall : splitAfter vas id 1 s = .ok (u, s')) :
    ∃ e', SplitOff Kind s vas id e e' s' ∧ e'.page = e.page ∧ e'.numPages = 1 := by
  have hplaced : e.Placed := entry_eq hentry ▸ hshape.placed hmem
  have hpositive := hplaced.positive
  have hlt := hshape.lt_nextEntry hentry
  unfold splitAfter at hcall
  rw [readEntry_bind hentry] at hcall
  split_ifs at hcall with hafter
  · simp only [state_bind_eq_ok_iff, writeEntry_eq_ok] at hcall
    obtain ⟨_, _, ⟨rfl, rfl⟩, _, _, rfl, hinsert⟩ := hcall
    rw [addEntry_setEntry _ _ _ hlt] at hinsert
    exact ⟨{ e with numPages := 1 }, splitOff_of_splits hshape hall hentry hmem
      hereditary hallocated ⟨1, Nat.one_pos, hafter, .inr ⟨rfl, rfl⟩⟩ hinsert, rfl, rfl⟩
  · cases hcall
    exact ⟨e, SplitOff.refl hshape hall hentry hmem, rfl, by omega⟩

/-- `SplitLargePageEntryIntoMultiple` leaves the entry with the first page it
has from the target on. -/
lemma splitLargePageEntryIntoMultiple_ok
    (htarget : ((virtual / archPageSize : Nat) : Int) < e.page + e.numPages)
    (hcall : splitLargePageEntryIntoMultiple vas virtual id 1 s = .ok (u, s')) :
    ∃ e', SplitOff Kind s vas id e e' s' ∧ e'.numPages = 1 ∧
    e'.page = max e.page (virtual / archPageSize) := by
  unfold splitLargePageEntryIntoMultiple at hcall
  rw [readEntry_bind hentry] at hcall
  split_ifs at hcall with hone
  · cases hcall
    exact ⟨e, SplitOff.refl hshape hall hentry hmem, hone, by omega⟩
  · simp only [state_bind_eq_ok_iff, check_eq_ok] at hcall
    obtain ⟨_, _, ⟨hfree, rfl⟩, _, _, ⟨_, rfl⟩, _, s₁, hbefore, hafter⟩ := hcall
    have hallocated : e.allocated = false := by simpa using hfree
    obtain ⟨e₁, hsplit₁, hpage₁, hend₁⟩ := splitBefore_ok hshape hall hentry
      hmem hereditary hallocated htarget hbefore
    have hallocated₁ : e₁.allocated = false := by
      change e₁.body.allocated = false
      rw [hsplit₁.body]
      exact hallocated
    obtain ⟨e', hsplit', hpage', hpages'⟩ := splitAfter_ok hsplit₁.shape
      hsplit₁.kinds hsplit₁.entry hsplit₁.mem hereditary hallocated₁ hafter
    exact ⟨e', hsplit₁.trans hsplit', hpages', hpage'.trans hpage₁⟩

end Splitting

end Merlon.Virtual
