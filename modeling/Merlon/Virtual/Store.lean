/-
Invariants of the store of entries.  Most functions touch the flags of entries
in a few ways only, so a property of entries that these keep is kept by every
call made of them.
-/
import Merlon.Library.Triple
import Merlon.Virtual.Primitive

namespace Merlon.Virtual

open VasEntry

open Physical (archPageSize)
open Adt (TreeNode)
open Std.Do

set_option mvcgen.warning false

/-- The flags `HandleVirtFault` makes assertions about. -/
def VasEntry.flags (e : VasEntry) : Bool × Bool × Bool × Bool × Bool :=
  (e.inRam, e.file, e.swapfile, e.cow, e.lock)

lemma VasEntry.flagsConfigured_of_flags {e e' : VasEntry}
    (h : e'.flags = e.flags) : e'.flagsConfigured = e.flagsConfigured := by
  simp only [flags, Prod.mk.injEq] at h
  obtain ⟨hram, hfile, hswap, hcow, hlock⟩ := h
  simp only [flagsConfigured, hram, hfile, hswap, hcow, hlock]

/-- `P` holds of every live entry, and the numbers below `bound` are taken. -/
structure Store (P : Nat → VasEntry → Prop) (bound : Nat) (s : Vm) : Prop where
  next : bound ≤ s.nextEntry
  holds : ∀ id e, s.entries id = some e → id < s.nextEntry ∧ P id e

/-- A property of entries that depends on their flags only and that new
entries with consistent flags have. -/
structure Stable (P : Nat → VasEntry → Prop) (bound : Nat) : Prop where
  flags : ∀ {id e e'}, P id e → e'.flags = e.flags → P id e'
  fresh : ∀ {id e}, bound ≤ id → e.flagsConfigured = true → P id e
  configured : ∀ {id e}, P id e → e.flagsConfigured = true

/-- The store of entries is the same. -/
structure Still (s s' : Vm) : Prop where
  entries : s'.entries = s.entries
  next : s'.nextEntry = s.nextEntry

/-- Every stable property of which `C` holds is kept. -/
def Keeps (C : (Nat → VasEntry → Prop) → Prop) (s s' : Vm) : Prop :=
  ∀ P bound, Stable P bound → C P → Store P bound s → Store P bound s'

/-- Every stable property is kept. -/
def Moves (s s' : Vm) : Prop :=
  Keeps (fun _ => True) s s'

abbrev stays {α : Type} (s : Vm) : PostCond α (.arg Vm (.except Stop .pure)) :=
  ⇓? _ t => ⌜Still s t⌝

abbrev moves {α : Type} (s : Vm) : PostCond α (.arg Vm (.except Stop .pure)) :=
  ⇓? _ t => ⌜Moves s t⌝

variable {P : Nat → VasEntry → Prop} {C : (Nat → VasEntry → Prop) → Prop}
  {bound vas virtual id : Nat} {e e' : VasEntry} {α : Type} {s s' : Vm} {act : Kernel α}
  {file : Option Nat} {flags : VmFlags} {physical pos number : Nat} {pages : Nat}
  {allowNonExist : Bool} {numToLeave : Nat} {global : Bool} {count i : Nat}

@[grind →] lemma Still.store (h : Still s s') (hstore : Store P bound s) : Store P bound s' :=
  ⟨h.next ▸ hstore.next, fun id e hentry => h.next ▸ hstore.holds id e (h.entries ▸ hentry)⟩

@[grind →] lemma Still.moves (h : Still s s') : Moves s s' := fun _ _ _ _ => h.store

@[grind →] lemma Moves.store (h : Moves s s') (hstable : Stable P bound)
    (hstore : Store P bound s) : Store P bound s' :=
  h P bound hstable trivial hstore

@[grind →] lemma Moves.next_le (h : Moves s s') (hstable : Stable P bound)
    (hstore : Store P bound s) : s.nextEntry ≤ s'.nextEntry :=
  (h P s.nextEntry ⟨hstable.flags, fun hid => hstable.fresh
    (hstore.next.trans hid), hstable.configured⟩ trivial ⟨le_rfl, hstore.holds⟩).next

lemma Still.of_eq (h : s' = s) : Still s s' := h ▸ ⟨rfl, rfl⟩

lemma setEntry_self (s : Vm) (id : Nat) (e : VasEntry) : (s.setEntry id e).entries id = some e := by
  simp [Vm.setEntry]

grind_pattern setEntry_self => s.setEntry id e

/-- One entry is written. -/
@[grind ←] lemma Store.setEntry (h : Store P bound s) (hid : id < s.nextEntry) (he : P id e) :
    Store P bound (s.setEntry id e) := by
  refine ⟨h.next, fun id' e' hentry => ?_⟩
  simp only [Vm.setEntry, Function.update_apply] at hentry
  split at hentry
  · rename_i heq
    subst heq
    cases hentry
    exact ⟨hid, he⟩
  · exact h.holds id' e' hentry

/-- An entry is written back with its flags as they were. -/
lemma Store.setFlags (hstable : Stable P bound)
    (h : Store P bound s) (hentry : s.entries id = some e)
    (hflags : e'.flags = e.flags) : Store P bound (s.setEntry id e') :=
  h.setEntry (h.holds id e hentry).1 (hstable.flags (h.holds id e hentry).2 hflags)

lemma Store.addEntry (hstable : Stable P bound) (h : Store P bound s)
    (he : e.flagsConfigured = true) : Store P bound (s.addEntry e) := by
  refine ⟨h.next.trans (Nat.le_succ _), fun id' e' hentry => ?_⟩
  simp only [Vm.addEntry, Vm.setEntry, Function.update_apply] at hentry ⊢
  split at hentry
  · rename_i heq
    subst heq
    cases hentry
    exact ⟨Nat.lt_succ_self _, hstable.fresh h.next he⟩
  · obtain ⟨hlt, he'⟩ := h.holds id' e' hentry
    exact ⟨hlt.trans (Nat.lt_succ_self _), he'⟩

lemma Store.dropEntry (h : Store P bound s) : Store P bound (s.dropEntry id) := by
  refine ⟨h.next, fun id' e' hentry => ?_⟩
  simp only [Vm.dropEntry, Function.update_apply] at hentry
  split at hentry
  · cases hentry
  · exact h.holds id' e' hentry

/-- To keep the stable properties is to keep each of them. -/
lemma keeps_of (h : ∀ {P bound}, Stable P bound → C P →
    ⦃fun s => ⌜Store P bound s⌝⦄ act ⦃⇓? _ s => ⌜Store P bound s⌝⦄) (s : Vm) :
    ⦃now s⦄ act ⦃⇓? _ t => ⌜Keeps C s t⌝⦄ := by
  refine triple_iff.mpr fun t value s' heq hact P bound hstable hC hstore => ?_
  subst heq
  exact triple_iff.mp (h hstable hC) t value s' hstore hact

lemma moves_of (h : ∀ {P bound}, Stable P bound →
    ⦃fun s => ⌜Store P bound s⌝⦄ act ⦃⇓? _ s => ⌜Store P bound s⌝⦄) (s : Vm) :
    ⦃now s⦄ act ⦃moves s⦄ :=
  keeps_of (fun hstable _ => h hstable) s

/-! Elementary actions. -/

@[spec] lemma fail_spec {stop : Stop} : ⦃now s⦄ (fail stop : Kernel α) ⦃⇓? _ _ => ⌜False⌝⦄ :=
  triple_of_ok fail_eq_ok.mp s

@[spec] lemma check_spec {condition : Bool} {name : Check} : ⦃now s⦄
    check condition name ⦃⇓? _ t => ⌜condition = true ∧ t = s⌝⦄ :=
  triple_of_ok check_eq_ok.mp s

@[spec] lemma readEntry_spec : ⦃now s⦄ readEntry id ⦃⇓? e t => ⌜s.entries id = some e ∧ t = s⌝⦄ :=
  triple_of_ok readEntry_eq_ok.mp s

@[spec] lemma writeEntry_spec : ⦃now s⦄ writeEntry id e ⦃⇓? _ t => ⌜t = s.setEntry id e⌝⦄ :=
  triple_of_ok writeEntry_eq_ok.mp s

@[spec] lemma modifyEntry_spec {change : VasEntry → VasEntry} : ⦃now s⦄
    modifyEntry id change ⦃⇓? _ t => ⌜∃ e, s.entries id = some e ∧ t = s.setEntry id (change e)⌝⦄ :=
  triple_of_ok modifyEntry_eq_ok.mp s

@[spec] lemma newEntry_spec (he : e.flagsConfigured = true) : ⦃now s⦄ newEntry e ⦃moves s⦄ :=
  triple_of_ok (R := fun s _ t => Moves s t) (fun hact _ _ hstable _ h =>
    (newEntry_eq_ok.mp hact).2 ▸ h.addEntry hstable he) s

@[spec] lemma freeEntry_spec : ⦃now s⦄ freeEntry id ⦃moves s⦄ :=
  triple_of_ok (R := fun s _ t => Moves s t) (fun hact _ _ _ _ h =>
    freeEntry_eq_ok.mp hact ▸ h.dropEntry) s

@[spec] lemma getVirtEntry_spec : ⦃now s⦄ getVirtEntry vas virtual
    ⦃⇓? found t => ⌜found = s.getVirtEntry vas virtual ∧ t = s⌝⦄ :=
  triple_of_ok getVirtEntry_ok s

/-! Actions that leave the store alone. -/

lemma stays_of_ok (h : ∀ {s value s'}, act s = .ok (value, s') → Still s s') (s : Vm) :
    ⦃now s⦄ act ⦃stays s⦄ :=
  triple_of_ok h s

@[spec] lemma allocPhys_spec : ⦃now s⦄ allocPhys ⦃stays s⦄ := by
  refine stays_of_ok (fun hact => ?_) s
  obtain ⟨phys, _, rfl⟩ := allocPhys_eq_ok.mp hact
  exact ⟨rfl, rfl⟩

@[spec] lemma deallocPhys_spec {addr : Nat} : ⦃now s⦄ deallocPhys addr ⦃stays s⦄ := by
  refine stays_of_ok (fun hact => ?_) s
  obtain ⟨phys, _, rfl⟩ := deallocPhys_eq_ok.mp hact
  exact ⟨rfl, rfl⟩

@[spec] lemma withPaging_spec {update : Paging → Except Physical.Stop Paging} :
    ⦃now s⦄ withPaging update ⦃stays s⦄ := by
  refine stays_of_ok (fun hact => ?_) s
  obtain ⟨paging, _, rfl⟩ := withPaging_eq_ok.mp hact
  exact ⟨rfl, rfl⟩

@[spec] lemma loadPage_spec : ⦃now s⦄ loadPage vas virtual ⦃stays s⦄ :=
  stays_of_ok (fun hact => .of_eq (loadPage_eq_ok.mp hact).2.2) s

@[spec] lemma storePage_spec {contents : Page} :
    ⦃now s⦄ storePage vas virtual contents ⦃stays s⦄ := by
  refine stays_of_ok (fun hact => ?_) s
  obtain ⟨_, _, rfl⟩ := storePage_eq_ok.mp hact
  exact ⟨rfl, rfl⟩

@[spec] lemma checkTree_spec {tree : TreeNode Nat} : ⦃now s⦄ checkTree tree virtual ⦃stays s⦄ :=
  stays_of_ok (fun hact => .of_eq (checkTree_state hact)) s

@[spec] lemma replaceTree_spec {tree : Option (TreeNode Nat)} :
    ⦃now s⦄ replaceTree vas global tree ⦃stays s⦄ := by
  refine stays_of_ok (fun hact => ?_) s
  obtain ⟨tree', _, rfl⟩ := replaceTree_eq_ok.mp hact
  unfold Vm.setTree
  split <;> exact ⟨rfl, rfl⟩

lemma stays_of (h : ∀ {entries next}, ⦃fun s =>
    ⌜s.entries = entries ∧ s.nextEntry = next⌝⦄ act ⦃⇓? _ s =>
      ⌜s.entries = entries ∧ s.nextEntry = next⌝⦄) (s : Vm) :
    ⦃now s⦄ act ⦃stays s⦄ := by
  refine triple_iff.mpr fun t value s' heq hact => ?_
  subst heq
  obtain ⟨hentries, hnext⟩ := triple_iff.mp h t value s' ⟨rfl, rfl⟩ hact
  exact ⟨hentries, hnext⟩

attribute [grind →] Still.entries Still.next Store.holds

@[spec] lemma treeInsert_spec : ⦃now s⦄ treeInsert vas global id ⦃stays s⦄ := by
  refine stays_of (fun {_ _} => ?_) s
  mvcgen [treeInsert]
  all_goals grind

@[spec] lemma insertIntoAvl_spec : ⦃now s⦄ insertIntoAvl vas id ⦃stays s⦄ := by
  refine stays_of (fun {_ _} => ?_) s
  mvcgen [insertIntoAvl]
  all_goals grind

/-- An entry that was read is written back with its flags as they were. -/
lemma Store.splitOff {t : Vm} (hstable : Stable P bound)
    (h : Store P bound s) (hmoves : Moves s t) (hentry : s.entries id = some e)
    (hflags : e'.flags = e.flags) : Store P bound (t.setEntry id e') :=
  (hmoves.store hstable h).setEntry ((h.holds id e hentry).1.trans_le (hmoves.next_le hstable h))
    (hstable.flags (h.holds id e hentry).2 hflags)

@[grind →] lemma Store.flagsConfigured (hstable : Stable P bound)
    (h : Store P bound s) (hentry : s.entries id = some e) : e.flagsConfigured = true :=
  hstable.configured (h.holds id e hentry).2

@[spec] lemma splitBefore_spec {targetPage : Nat} :
    ⦃now s⦄ splitBefore vas targetPage id ⦃moves s⦄ := by
  refine moves_of (fun hstable => ?_) s
  mvcgen [splitBefore]
  all_goals grind [flagsConfigured, flags, Store.splitOff, skip]

@[spec] lemma splitAfter_spec : ⦃now s⦄ splitAfter vas id numToLeave ⦃moves s⦄ := by
  refine moves_of (fun hstable => ?_) s
  mvcgen [splitAfter]
  all_goals grind [flagsConfigured, flags, Store.splitOff, skip]

@[spec] lemma split_spec : ⦃now s⦄ splitLargePageEntryIntoMultiple vas virtual id numToLeave
    ⦃moves s⦄ := by
  refine moves_of (fun hstable => ?_) s
  mvcgen [splitLargePageEntryIntoMultiple]
  all_goals grind

@[spec] lemma setVirtPermissionsEx_spec {set clear : VmFlags} : ⦃now s⦄
    setVirtPermissionsEx vas virtual set clear ⦃moves s⦄ := by
  refine moves_of (fun hstable => ?_) s
  mvcgen [setVirtPermissionsEx]
  all_goals grind [flags, changePermissions, Store.setFlags]

@[spec] lemma clearLocked_spec : ⦃now s⦄ clearLocked vas id ⦃moves s⦄ := by
  refine moves_of (fun hstable => ?_) s
  mvcgen [clearLocked]
  all_goals grind

lemma newEntry_configured (flags : VmFlags) (physical virtual : Nat)
    (allocated : Bool) (relocationBase : Nat) (file : Option Nat)
    (pos number : Nat) : (flags.newEntry physical virtual allocated
      relocationBase file pos number).flagsConfigured = true := by
  cases hlock : flags.lock <;> simp [flagsConfigured, VmFlags.newEntry]

@[spec] lemma addMapping_spec : ⦃now s⦄ addMapping vas physical virtual flags file pos number
    ⦃moves s⦄ := by
  refine moves_of (fun hstable => ?_) s
  mvcgen [addMapping]
  all_goals grind [newEntry_configured]

@[spec] lemma addMappings_spec : ⦃now s⦄
    addMappings vas physical virtual flags file pos number count i ⦃moves s⦄ := by
  refine moves_of (fun hstable => ?_) s
  induction count generalizing i with
  | zero => mvcgen [addMappings]
  | succ count ih =>
    mvcgen [addMappings, ih]
    all_goals grind

@[spec] lemma isRangeInUse_spec : ⦃now s⦄ isRangeInUse vas virtual pages ⦃stays s⦄ :=
  stays_of_ok (fun hact => .of_eq (isRangeInUse_ok hact).2) s

@[spec] lemma allocVirtRange_spec {localVas : Bool} : ⦃now s⦄
    allocVirtRange pages localVas ⦃stays s⦄ := by
  refine stays_of_ok (fun hact => ?_) s
  unfold allocVirtRange at hact
  split at hact <;> cases hact <;> exact ⟨rfl, rfl⟩

@[spec] lemma mapVirtEx_spec : ⦃now s⦄ mapVirtEx vas physical virtual pages flags file pos
    ⦃moves s⦄ := by
  refine moves_of (fun hstable => ?_) s
  mvcgen [mapVirtEx, chooseRange]
  all_goals grind

@[spec] lemma defer_spec {access : Access} : ⦃now s⦄ defer access ⦃stays s⦄ :=
  stays_of_ok (fun hact => defer_eq_ok.mp hact ▸ ⟨rfl, rfl⟩) s

@[spec] lemma deferDiskWrite_spec {oldAddr file offset : Nat} : ⦃now s⦄
    deferDiskWrite vas oldAddr file offset ⦃moves s⦄ := by
  refine moves_of (fun hstable => ?_) s
  mvcgen [deferDiskWrite]
  all_goals grind

@[spec] lemma deallocSwap_spec {index : Nat} : ⦃now s⦄ deallocSwap index ⦃stays s⦄ :=
  stays_of_ok (fun hact => by cases hact; exact ⟨rfl, rfl⟩) s

@[spec] lemma destroyEntry_spec : ⦃now s⦄ destroyEntry vas id ⦃moves s⦄ := by
  refine moves_of (fun hstable => ?_) s
  mvcgen [destroyEntry, deleteFromAvl]
  all_goals grind

@[spec] lemma dereferenceEntry_spec : ⦃now s⦄ dereferenceEntry vas id ⦃moves s⦄ := by
  refine moves_of (fun hstable => ?_) s
  mvcgen [dereferenceEntry]
  all_goals grind [flags, Store.setFlags]

@[spec] lemma unmapFrom_spec : ⦃now s⦄ unmapFrom vas virtual allowNonExist count i ⦃moves s⦄ := by
  refine moves_of (fun hstable => ?_) s
  induction count generalizing i with
  | zero => mvcgen [unmapFrom]
  | succ count ih =>
    mvcgen [unmapFrom, ih]
    all_goals grind

@[spec] lemma unmapVirtEx_spec : ⦃now s⦄ unmapVirtEx vas virtual pages allowNonExist ⦃moves s⦄ :=
  unmapFrom_spec

end Merlon.Virtual
