/-
The protection of the pages of an address space, as a map from pages.  Mapping
a free range sets the protection of its pages and of no others, and so does
changing the permissions of a page, whatever entries the pages are kept in.
-/
import Merlon.Virtual.Splitting
import Merlon.Virtual.Runs

namespace Merlon.Virtual

open Physical (archPageSize)
open Adt (TreeNode)

/-- What a program may do with a page. -/
structure Protection where
  read : Bool
  write : Bool
  exec : Bool
  deriving DecidableEq

/-- The same, and it may write. -/
def Protection.writable (protection : Protection) : Protection :=
  { protection with write := true }

def VasEntry.protection (e : VasEntry) : Protection :=
  ⟨e.read, e.write, e.exec⟩

def VmFlags.protection (flags : VmFlags) : Protection :=
  ⟨flags.read, flags.write, flags.exec⟩

/-- The protection of a page, none when it is not mapped. -/
def Vm.protection (s : Vm) (vas page : Nat) : Option Protection :=
  (s.found vas (page * archPageSize)).map VasEntry.protection

variable {s s' : Vm} {vas virtual id page : Nat} {e : VasEntry} {u : Unit}
  {protection : Protection} {set clear : VmFlags} {t : Vm}

/-- Nothing is mapped at first. -/
lemma initVirt_shape (paging : Paging) (frames : Nat → Page) (bits : Nat) (files : Nat → FileNode)
    (disk : Nat → Nat → UInt8) : (initVirt paging frames bits files disk).Shape := by
  have htree : ∀ vas global, (initVirt paging frames bits files disk).tree vas global = .nil := by
    intro vas global
    cases global <;> rfl
  refine ⟨?_, fun _ _ => rfl, ?_, ?_, ?_⟩
  · intro vas global id hmem
    rw [htree] at hmem
    cases hmem
  · intro vas global other first second hfirst
    rw [htree] at hfirst
    cases hfirst
  · intro vas global
    rw [htree]
    exact List.Pairwise.nil
  · intro vas global
    rw [htree]
    exact trivial

namespace Vm

/-- A page reads as the entry that `GetVirtEntry` finds for it. -/
lemma Shape.map_found_eq_some_iff {α : Type} {value : α} (h : s.Shape) (view : VasEntry → Nat → α)
    (hpage : page < 2 ^ 20) :
    (s.found vas (page * archPageSize)).map (fun e => view e page) = some value ↔
    s.Shows vas view page value := by
  have hlimit : page * archPageSize < addressLimit := by
    unfold archPageSize addressLimit
    omega
  have hdiv : page * archPageSize / archPageSize = page := Nat.mul_div_cancel _ (by decide)
  simp only [Vm.found, Option.map_eq_some_iff, Option.bind_eq_some_iff,
    h.getVirtEntry_eq_some_iff hlimit, hdiv]
  constructor
  · rintro ⟨e, ⟨id, ⟨hmember, hcovers⟩, hentry⟩, rfl⟩
    exact ⟨id, hmember, hcovers, by rw [entry_eq hentry]⟩
  · rintro ⟨id, hmember, hcovers, rfl⟩
    have hentry := h.entries_of_mem hmember.choose_spec
    exact ⟨s.entry id, ⟨id, ⟨hmember, hcovers⟩, hentry⟩, rfl⟩

/-- The protection of an entry is that of each of its pages. -/
def protectionAt (e : VasEntry) (_page : Nat) : Protection :=
  e.protection

lemma Shape.protection_eq_some_iff (h : s.Shape) (hpage : page < 2 ^ 20) :
    s.protection vas page = some protection ↔ s.Shows vas protectionAt page protection :=
  h.map_found_eq_some_iff protectionAt hpage

lemma Shape.protection_eq_none_iff (h : s.Shape) (hpage : page < 2 ^ 20) :
    s.protection vas page = none ↔ ¬ s.Covered vas page := by
  rw [Option.eq_none_iff_forall_ne_some]
  constructor
  · rintro hnone ⟨id, hmember, hcovers⟩
    exact hnone _ ((h.protection_eq_some_iff hpage).mpr ⟨id, hmember, hcovers, rfl⟩)
  · rintro hnone protection hsome
    obtain ⟨id, hmember, hcovers, _⟩ := (h.protection_eq_some_iff hpage).mp hsome
    exact hnone ⟨id, hmember, hcovers⟩

/-- A page whose entry reads as before keeps its protection. -/
lemma Shape.protection_congr (h : s.Shape) (h' : s'.Shape)
    (hpage : page < 2 ^ 20) (hshows : ∀ protection,
      s'.Shows vas protectionAt page protection ↔ s.Shows vas protectionAt page protection) :
    s'.protection vas page = s.protection vas page := by
  refine Option.ext fun protection => ?_
  rw [h'.protection_eq_some_iff hpage, h.protection_eq_some_iff hpage, hshows]

/-- A new entry adds its own pages. -/
lemma shows_add {tree : TreeNode Nat}
    (hshape : s.Shape) (hmem : ∀ other, other ∈ tree.toList ↔
      other = s.nextEntry ∨ other ∈ (s.tree vas e.global).toList) :
    ((s.addEntry e).setTree vas e.global tree).Shows vas protectionAt page
        protection ↔ s.Shows vas protectionAt page protection ∨
      e.Covers page ∧ e.protection = protection := by
  have hmember := member_setTree (s := s.addEntry e) hmem vas
  have hold : ∀ other, s.Member vas other → other ≠ s.nextEntry := by
    rintro other ⟨_, hother⟩
    exact (hshape.member_lt hother).ne
  have hentry : ∀ other, ((s.addEntry e).setTree vas e.global tree).entry other =
        if other = s.nextEntry then e else s.entry other := by
    intro other
    rw [entry_setTree, entry_addEntry]
  constructor
  · rintro ⟨other, hother, hcovers, rfl⟩
    rw [hentry] at hcovers ⊢
    rcases (hmember other).mp hother with hother | ⟨rfl, _⟩
    · rw [if_neg (hold other hother)] at hcovers ⊢
      exact .inl ⟨other, hother, hcovers, rfl⟩
    · rw [if_pos rfl] at hcovers ⊢
      exact .inr ⟨hcovers, rfl⟩
  · rintro (⟨other, hother, hcovers, rfl⟩ | ⟨hcovers, rfl⟩)
    · refine ⟨other, (hmember other).mpr (.inl hother), ?_⟩
      rw [hentry, if_neg (hold other hother)]
      exact ⟨hcovers, rfl⟩
    · refine ⟨s.nextEntry, (hmember s.nextEntry).mpr (.inr ⟨rfl, .inr rfl⟩), ?_⟩
      rw [hentry, if_pos rfl]
      exact ⟨hcovers, rfl⟩

end Vm

/-! Mapping. -/

/-- The pages from `first` on get a protection. -/
def protectRange (protections : Nat → Option Protection) (first count : Nat)
    (protection : Protection) (page : Nat) : Option Protection :=
  if first ≤ page ∧ page < first + count then some protection
  else protections page

/-- What a call that changed the protection of a range leaves. -/
structure Protected (s : Vm) (vas first count : Nat) (protection : Protection)
    (s' : Vm) : Prop where
  shape : s'.Shape
  pages : ∀ page < 2 ^ 20, s'.protection vas page =
    protectRange (s.protection vas) first count protection page

lemma Protected.refl (h : s.Shape) (first : Nat) (protection : Protection) :
    Protected s vas first 0 protection s := by
  refine ⟨h, fun page _ => ?_⟩
  rw [protectRange, if_neg (by omega)]

/-- The range is done page by page. -/
lemma Protected.cons {first count : Nat} (hfirst : Protected s vas first 1 protection t)
    (hrest : Protected t vas (first + 1) count protection s') :
    Protected s vas first (count + 1) protection s' := by
  refine ⟨hrest.shape, fun page hpage => ?_⟩
  rw [hrest.pages page hpage, protectRange, hfirst.pages page hpage, protectRange, protectRange]
  split_ifs <;> first | rfl | omega

/-- The second of two changes of one range counts. -/
lemma Protected.trans {first count : Nat} {protection' : Protection}
    (hfirst : Protected s vas first count protection t)
    (hsecond : Protected t vas first count protection' s') :
    Protected s vas first count protection' s' := by
  refine ⟨hsecond.shape, fun page hpage => ?_⟩
  rw [hsecond.pages page hpage, protectRange, hfirst.pages page hpage, protectRange, protectRange]
  split_ifs <;> rfl

/-- One call of `AddMapping` for pages that are free. -/
lemma addMapping_protected {physical pos number : Nat} {flags : VmFlags}
    {file : Option Nat} (hshape : s.Shape) (hlock : flags.lock = false)
    (hlocal : flags.localVas = true) (haligned : virtual % archPageSize = 0)
    (hpositive : 0 < number) (hinside : virtual / archPageSize + number ≤ 2 ^ 20)
    (hfree : ∀ page, virtual / archPageSize ≤ page →
      page < virtual / archPageSize + number → s.protection vas page = none)
    (hcall : addMapping vas physical virtual flags file pos number s = .ok (u, s')) :
    Protected s vas (virtual / archPageSize) number flags.protection s' := by
  unfold addMapping at hcall
  simp only [hlock, Bool.false_and, Bool.false_eq_true, if_false, state_bind_eq_ok_iff, check_eq_ok,
    newEntry_eq_ok, readEntry_eq_ok, withPaging_eq_ok, state_pure] at hcall
  obtain ⟨_, t, ⟨_, hsame⟩, _, _, hpure, _, _, ⟨rfl, rfl⟩, _, _, hinsert, _, _,
    ⟨_, rfl⟩, _, _, ⟨paging, _, rfl⟩, hreturn⟩ := hcall
  subst t
  cases hpure
  cases hreturn
  generalize hentry : flags.newEntry _ virtual _ _ file pos number = e at hinsert
  have hpages : e.numPages = number := by
    have hnumber : number ≤ 2 ^ 20 := (Nat.le_add_left _ _).trans hinside
    rw [← hentry]
    change (BitVec.ofNat 32 number).toInt = number
    rw [BitVec.toInt_eq_toNat_of_lt] <;> rw [BitVec.toNat_ofNat] <;> omega
  have hpage : e.page = virtual / archPageSize := by
    rw [← hentry]
    rfl
  have hglobal : e.global = false := by
    rw [← hentry]
    change (!flags.localVas) = false
    rw [hlocal]
    rfl
  have hplaced : e.Placed := by
    refine ⟨?_, by omega, by omega⟩
    rw [← hentry]
    exact haligned
  obtain ⟨tree, htree, rfl⟩ := insertIntoAvl_ok hinsert (e := e) (Function.update_self _ _ _)
  have hfree' : s.FreeRange vas e.global e.page e.numPages.toNat := by
    intro viewer at_ hsees hle hlt
    obtain rfl : viewer = vas := by
      rw [hglobal] at hsees
      exact hsees.resolve_left Bool.false_ne_true
    exact (hshape.protection_eq_none_iff (by omega)).mp (hfree at_ (by omega) (by omega))
  obtain ⟨hshape', hmem⟩ := hshape.add hplaced hfree' htree
  refine ⟨hshape'.setPaging paging, fun page hlimit => ?_⟩
  rw [protectRange]
  split_ifs with hrange
  · have hentry' : flags.protection = e.protection := by
      rw [← hentry]
      rfl
    rw [(hshape'.setPaging paging).protection_eq_some_iff hlimit, hentry']
    refine (Vm.shows_add hshape hmem).mpr (.inr ⟨⟨?_, ?_⟩, rfl⟩) <;> omega
  · refine hshape.protection_congr (hshape'.setPaging paging) hlimit fun protection => ?_
    refine (Vm.shows_add hshape hmem).trans (or_iff_left ?_)
    rintro ⟨⟨hfirst, hlast⟩, _⟩
    omega

section Ranges

variable {physical pos : Nat} {flags : VmFlags} {file : Option Nat}

/-- The loop of `MapVirtEx` that adds its pages one by one. -/
lemma addMappings_protected {count i : Nat} (hshape : s.Shape)
    (hlock : flags.lock = false) (hlocal : flags.localVas = true)
    (haligned : virtual % archPageSize = 0) (hinside : virtual / archPageSize + i + count ≤ 2 ^ 20)
    (hfree : ∀ page, virtual / archPageSize + i ≤ page → page < virtual / archPageSize + i + count →
      s.protection vas page = none)
    (hcall : addMappings vas physical virtual flags file pos 1 count i s = .ok (u, s')) :
    Protected s vas (virtual / archPageSize + i) count flags.protection s' := by
  induction count generalizing s i with
  | zero =>
    cases hcall
    exact Protected.refl hshape _ _
  | succ count ih =>
    obtain ⟨_, t, hfirst, hrest⟩ := state_bind_eq_ok_iff.mp hcall
    have haddress : (virtual + i * archPageSize) % addressLimit = virtual + i * archPageSize := by
      unfold archPageSize at haligned hinside ⊢
      unfold addressLimit
      omega
    have hpage : (virtual + i * archPageSize) / archPageSize = virtual / archPageSize + i :=
      Nat.add_mul_div_right _ _ (by decide)
    rw [haddress] at hfirst
    have hone := addMapping_protected hshape hlock hlocal
      (by rw [Nat.add_mul_mod_self_right, haligned]) Nat.one_pos (by rw [hpage]; omega)
      (fun page hle hlt => by
        rw [hpage] at hle hlt
        exact hfree page hle (by omega)) hfirst
    rw [hpage] at hone
    refine hone.cons (ih hone.shape (by omega) (fun page hle hlt => ?_) hrest)
    rw [hone.pages page (by omega), protectRange, if_neg (by omega)]
    exact hfree page (by omega) (by omega)

/-- `IsRangeInUse` finds nothing in a free range. -/
lemma treeMeets_eq_false {pages : Nat} (hshape : s.Shape) (haligned : virtual % archPageSize = 0)
    (hinside : virtual / archPageSize + pages ≤ 2 ^ 20)
    (hfree : ∀ page, virtual / archPageSize ≤ page →
      page < virtual / archPageSize + pages → s.protection vas page = none) (global : Bool) :
    s.treeMeets (s.tree vas global) virtual pages = false := by
  simp only [Vm.treeMeets, List.any_eq_false, List.mem_range,
    Vm.treeContains_eq, Bool.not_eq_true, Option.isSome_eq_false_iff, Option.isNone_iff_eq_none]
  intro i hi
  have haddress : (virtual + i * archPageSize) % addressLimit =
      (virtual / archPageSize + i) * archPageSize := by
    unfold archPageSize at haligned hinside ⊢
    unfold addressLimit
    omega
  rw [haddress, hshape.treeGet_eq_none_iff vas global (by omega)]
  intro id hmem hcovers
  exact (hshape.protection_eq_none_iff (by omega)).mp
    (hfree _ (Nat.le_add_right _ _) (by omega)) ⟨id, ⟨global, hmem⟩, hcovers⟩

/-- `MapVirtEx` maps a free range where it is asked to. -/
lemma mapVirtEx_protected {pages : Nat} {mapped : Nat × Option Errno}
    (hshape : s.Shape) (hlock : flags.lock = false)
    (hlocal : flags.localVas = true) (hvirtual : virtual ≠ 0)
    (haligned : virtual % archPageSize = 0) (hinside : virtual / archPageSize + pages ≤ 2 ^ 20)
    (hfree : ∀ page, virtual / archPageSize ≤ page →
      page < virtual / archPageSize + pages → s.protection vas page = none)
    (hchecks : s.mapVirtError physical flags file pos = none)
    (hcall : mapVirtEx vas physical virtual pages flags file pos s = .ok (mapped, s')) :
    mapped = (virtual, none) ∧
      Protected s vas (virtual / archPageSize) pages flags.protection s' := by
  have hmeets := treeMeets_eq_false hshape haligned hinside hfree
  obtain ⟨_, _, hget, hcall⟩ := state_bind_eq_ok_iff.mp hcall
  cases hget
  rw [hchecks] at hcall
  obtain ⟨chosen, t, hchoose, hcall⟩ := state_bind_eq_ok_iff.mp hcall
  obtain ⟨rfl, hsame⟩ : chosen = some virtual ∧ t = s := by
    unfold chooseRange at hchoose
    rw [if_neg hvirtual] at hchoose
    obtain ⟨answer, _, hrange, hchoose⟩ := state_bind_eq_ok_iff.mp hchoose
    obtain ⟨hanswer, hsame⟩ := isRangeInUse_ok hrange
    rw [show s.treeMeets (s.mappings vas) virtual pages = false from hmeets false,
      show s.treeMeets s.globalVasMappings virtual pages = false from hmeets true] at hanswer
    rw [hanswer, hsame] at hchoose
    cases hchoose
    exact ⟨rfl, rfl⟩
  subst t
  dsimp only at hcall
  split at hcall
  · rename_i hmulti
    have hpages : 3 ≤ pages := by
      simp only [VmFlags.multiPage, Bool.and_eq_true, decide_eq_true_eq] at hmulti
      exact hmulti.2
    obtain ⟨_, _, hadd, hreturn⟩ := state_bind_eq_ok_iff.mp hcall
    cases hreturn
    obtain ⟨_, _, hadd, hdone⟩ := state_bind_eq_ok_iff.mp hadd
    cases hdone
    have haddress : (virtual + 0 * archPageSize) % addressLimit = virtual := by
      unfold archPageSize at haligned hinside ⊢
      unfold addressLimit
      omega
    rw [haddress] at hadd
    exact ⟨rfl, addMapping_protected hshape hlock hlocal haligned (by omega) hinside hfree hadd⟩
  · obtain ⟨_, _, hadd, hreturn⟩ := state_bind_eq_ok_iff.mp hcall
    cases hreturn
    exact ⟨rfl, addMappings_protected (i := 0) hshape hlock hlocal haligned hinside hfree hadd⟩

end Ranges

/-! Changing permissions. -/

/-- The bits that `SysMprotect` clears. -/
def allPermissions : VmFlags where
  read := true
  write := true
  exec := true

lemma protection_changePermissions (e : VasEntry) (set : VmFlags) :
    (e.changePermissions set allPermissions).protection = set.protection := by
  simp only [VasEntry.protection, VasEntry.changePermissions, changeBit,
    allPermissions, VmFlags.protection]
  cases set.read <;> cases set.write <;> cases set.exec <;> rfl

namespace Vm

variable {α : Type} {view : VasEntry → Nat → α} {value : α}

/-- A page reads as its entry does. -/
lemma Shape.shows_iff (h : s.Shape) (hmember : s.Member vas id) (hentry : s.entries id = some e)
    (hcovers : e.Covers page) : s.Shows vas view page value ↔ view e page = value := by
  rw [← entry_eq hentry] at hcovers ⊢
  constructor
  · rintro ⟨other, hother, hcovers', rfl⟩
    rw [h.member_unique hmember hother hcovers hcovers']
  · exact fun hvalue => ⟨id, hmember, hcovers, hvalue⟩

/-- Changing an entry does not touch the pages it does not cover. -/
lemma shows_setEntry {e' : VasEntry} (hentry : s.entries id = some e)
    (houtline : e'.outline = e.outline) (hcovers : ¬ e.Covers page) :
    (s.setEntry id e').Shows vas view page value ↔ s.Shows vas view page value := by
  have hcovers' : ¬ e'.Covers page := by
    rw [VasEntry.covers_of_outline houtline]
    exact hcovers
  constructor
  · rintro ⟨other, hmember, hcover, rfl⟩
    rw [entry_setEntry] at hcover ⊢
    split_ifs at hcover ⊢ with hsame
    · exact absurd hcover hcovers'
    · exact ⟨other, hmember, hcover, rfl⟩
  · rintro ⟨other, hmember, hcover, rfl⟩
    have hne : other ≠ id := by
      rintro rfl
      rw [entry_eq hentry] at hcover
      exact hcovers hcover
    refine ⟨other, hmember, ?_⟩
    rw [entry_setEntry, if_neg hne]
    exact ⟨hcover, rfl⟩

end Vm

/-- Changing permissions goes with splitting. -/
lemma Reads.changePermissions {Kind : VasEntry → Prop} {α : Type} {view : VasEntry → Nat → α}
    (h : Reads Kind view) (hkind : ∀ e, Kind e → Kind (e.changePermissions set clear)) :
    Reads Kind fun e => view (e.changePermissions set clear) := by
  intro e kept piece hplaced hallocated hwhole hsplits page
  have hplaced' : (e.changePermissions set clear).Placed :=
    ⟨hplaced.aligned, hplaced.positive, hplaced.inside⟩
  have hsplits' : (e.changePermissions set clear).Splits (kept.changePermissions set clear)
      (piece.changePermissions set clear) := by
    obtain ⟨pages, hpositive, hpages, ⟨rfl, rfl⟩ | ⟨rfl, rfl⟩⟩ := hsplits
    · exact ⟨pages, hpositive, hpages, .inl ⟨rfl, rfl⟩⟩
    · exact ⟨pages, hpositive, hpages, .inr ⟨rfl, rfl⟩⟩
  exact h hplaced' hallocated (hkind e hwhole) hsplits' page

/-- What a call that changed the entries of a range of pages leaves. -/
structure Changed (Kind : VasEntry → Prop) (change : VasEntry → VasEntry)
    (s : Vm) (vas first count : Nat) (s' : Vm) : Prop where
  shape : s'.Shape
  kinds : s'.All Kind
  covered : ∀ page, first ≤ page → page < first + count → s.Covered vas page
  changed : ∀ {α : Type} {view : VasEntry → Nat → α}, Reads Kind view →
    Reads Kind (fun e => view (change e)) → ∀ page value, first ≤ page → page < first + count →
    (s'.Shows vas view page value ↔ s.Shows vas (fun e => view (change e)) page value)
  kept : ∀ {α : Type} {view : VasEntry → Nat → α}, Reads Kind view →
    ∀ page value, ¬ (first ≤ page ∧ page < first + count) →
    (s'.Shows vas view page value ↔ s.Shows vas view page value)

namespace Changed

variable {Kind : VasEntry → Prop} {change : VasEntry → VasEntry} {first count : Nat}

lemma refl (hshape : s.Shape) (hall : s.All Kind) (first : Nat) :
    Changed Kind change s vas first 0 s :=
  ⟨hshape, hall, fun _ _ _ => by omega, fun _ _ _ _ _ _ => by omega, fun _ _ _ _ => Iff.rfl⟩

/-- The range is done page by page. -/
lemma cons (hfirst : Changed Kind change s vas first 1 t)
    (hrest : Changed Kind change t vas (first + 1) count s') :
    Changed Kind change s vas first (count + 1) s' := by
  have hone : Reads Kind fun (_ : VasEntry) (_ : Nat) => () :=
    fun _ _ _ _ _ => ⟨fun _ => rfl, fun _ => rfl⟩
  refine ⟨hrest.shape, hrest.kinds, ?_, ?_, ?_⟩
  · intro page hle hlt
    by_cases hpage : page = first
    · exact hfirst.covered page (by omega) (by omega)
    · obtain ⟨id, hmember, hcovers⟩ := hrest.covered page (by omega) (by omega)
      obtain ⟨id, hmember, hcovers, _⟩ :=
        (hfirst.kept hone page () (by omega)).mp ⟨id, hmember, hcovers, rfl⟩
      exact ⟨id, hmember, hcovers⟩
  · intro α view hreads hreads' page value hle hlt
    by_cases hpage : page = first
    · rw [hrest.kept hreads page value (by omega)]
      exact hfirst.changed hreads hreads' page value (by omega) (by omega)
    · rw [hrest.changed hreads hreads' page value (by omega) (by omega)]
      exact hfirst.kept hreads' page value (by omega)
  · intro α view hreads page value hout
    rw [hrest.kept hreads page value (by omega)]
    exact hfirst.kept hreads page value (by omega)

/-- A change that sets the protection. -/
lemma sets (hshape : s.Shape) (hchange : ∀ e, (change e).protection = protection)
    (h : Changed (fun _ => True) change s vas first count s') :
    Protected s vas first count protection s' := by
  have hreads : Reads (fun _ => True) Vm.protectionAt := by
    rintro e _ _ - - - ⟨_, _, _, ⟨rfl, rfl⟩ | ⟨rfl, rfl⟩⟩ page <;>
      exact ⟨fun _ => rfl, fun _ => rfl⟩
  refine ⟨h.shape, fun page hpage => ?_⟩
  rw [protectRange]
  split_ifs with hrange
  · obtain ⟨id, hmember, hcovers⟩ := h.covered page hrange.1 hrange.2
    rw [h.shape.protection_eq_some_iff hpage, h.changed hreads ?_ page _ hrange.1 hrange.2]
    · exact ⟨id, hmember, hcovers, hchange _⟩
    · exact fun _ _ _ _ _ => ⟨fun _ => (hchange _).trans (hchange _).symm,
        fun _ => (hchange _).trans (hchange _).symm⟩
  · exact hshape.protection_congr h.shape hpage fun protection =>
      h.kept hreads page protection hrange

end Changed

/-- `SetVirtPermissionsEx` changes the entry of its page alone. -/
lemma setVirtPermissionsEx_changed {Kind : VasEntry → Prop} (hereditary : Hereditary Kind)
    (hkind : ∀ e, Kind e → Kind (e.changePermissions set clear))
    (hshape : s.Shape) (hall : s.All Kind) (hvirtual : virtual < addressLimit)
    (hcall : setVirtPermissionsEx vas virtual set clear s = .ok (none, s')) :
    Changed Kind (·.changePermissions set clear) s vas (virtual / archPageSize) 1 s' := by
  unfold setVirtPermissionsEx at hcall
  split at hcall
  · cases hcall
  obtain ⟨found, _, hget, hcall⟩ := state_bind_eq_ok_iff.mp hcall
  obtain ⟨rfl, hsame⟩ := getVirtEntry_ok hget
  rw [hsame] at hcall
  cases hfound : s.getVirtEntry vas virtual with
  | none =>
    rw [hfound] at hcall
    cases hcall
  | some id =>
    rw [hfound] at hcall
    simp only [state_bind_eq_ok_iff, readEntry_eq_ok, state_get] at hcall
    obtain ⟨e, t, ⟨hentry, ht⟩, _, _, hs, hcall⟩ := hcall
    subst t
    cases hs
    split at hcall
    · cases hcall
    simp only [state_bind_eq_ok_iff, modifyEntry_eq_ok, readEntry_eq_ok, withPaging_eq_ok] at hcall
    obtain ⟨_, s₁, hsplit, _, _, ⟨e₁, hentry₁, rfl⟩, _, _, ⟨_, rfl⟩, _, _,
      ⟨paging, _, rfl⟩, hreturn⟩ := hcall
    cases hreturn
    obtain ⟨hmember, hcovers⟩ := (hshape.getVirtEntry_eq_some_iff hvirtual).mp hfound
    have hcovered : s.Covered vas (virtual / archPageSize) := ⟨id, hmember, hcovers⟩
    rw [Vm.entry_eq hentry] at hcovers
    obtain ⟨e', hoff, hpages, hpage⟩ := splitLargePageEntryIntoMultiple_ok
      hshape hall hentry ((hshape.member_iff hentry).mp hmember) hereditary hcovers.2 hsplit
    have hsame : e₁ = e' := Option.some.inj (hentry₁.symm.trans hoff.entry)
    subst e₁
    rw [max_eq_right hcovers.1] at hpage
    have hcover : ∀ page, e'.Covers page ↔ page = virtual / archPageSize := by
      unfold VasEntry.Covers
      omega
    have hshape' := (hoff.shape.setEntry hoff.entry
      (e'.changePermissions set clear) rfl).setPaging paging
    refine ⟨hshape', hoff.kinds.setEntry (hkind _ (hoff.kinds _ _ hoff.entry)),
      fun page hle hlt => ?_, ?_, ?_⟩
    · rw [show page = virtual / archPageSize by omega]
      exact hcovered
    · intro α view hreads hreads' page value hle hlt
      rw [← hoff.shows hreads' page value]
      have hcovers' := (hcover page).mpr (by omega)
      rw [hoff.shape.shows_iff ⟨_, hoff.mem⟩ hoff.entry hcovers',
        hshape'.shows_iff ⟨_, hoff.mem⟩ (Function.update_self _ _ _) hcovers']
    · intro α view hreads page value hout
      rw [← hoff.shows hreads page value]
      exact Vm.shows_setEntry hoff.entry rfl fun hcovers' => by
        have := (hcover page).mp hcovers'
        omega

end Merlon.Virtual
