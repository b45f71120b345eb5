/-
Changing the protection of a range: `mprotect` of the library and `SysMprotect`
behind it.  Each page of the range is split off the entry it is in; apart from
the permissions asked for, every page of the address space stays as it was.
-/
import Merlon.Sys.MapVirt
import Merlon.Virtual.Protection

namespace Merlon.Loader

open Physical (archPageSize)
open Virtual
open Mapping (vmFlags bitIf)
open Vfs (archUserAreaBase archUserAreaLimit)

/-- The loop of `SysMprotect` from page `i` on. -/
def setPermissions (vas virtual : Nat) (flags : VmFlags) : Nat → Nat → Kernel (Option Errno)
  | 0, _ => pure none
  | count + 1, i => do
      let res ← setVirtPermissionsEx vas
        ((virtual + i * archPageSize) % addressLimit) flags allPermissions
      match res with
      | some errno => return some errno
      | none => setPermissions vas virtual flags count (i + 1)

def sysMprotect (vas virtual bytes : Nat) (flags : BitVec 32) : Kernel (Option Errno) :=
  if virtual % archPageSize ≠ 0 then pure (some .einval)
  else if virtual < archUserAreaBase then pure (some .enomem)
  else if addressLimit ≤ virtual + bytes ∨ archUserAreaLimit ≤ (virtual + bytes) % addressLimit then
    pure (some .enomem)
  else if flags &&& ~~~ (1 ||| 2 ||| 8) ≠ 0 then pure (some .einval)
  else setPermissions vas virtual (vmFlags flags) (bytesToPages bytes) 0

/-- `PROT_EXEC`, `PROT_WRITE` and `PROT_READ` as `VM_` bits. -/
def mprotectFlags (prot : BitVec 32) : BitVec 32 :=
  bitIf (prot.getLsbD 0) 8 ||| bitIf (prot.getLsbD 2) 2 ||| bitIf (prot.getLsbD 1) 1

def mprotect (vas addr len : Nat) (prot : BitVec 32) : Kernel (Option Errno) :=
  sysMprotect vas addr len (mprotectFlags prot)

/-- The pages of a request that the kernel accepts. -/
lemma lt_bytesToPages_iff {addr length page : Nat} (haligned : addr % archPageSize = 0)
    (hlimit : addr + length < archUserAreaLimit) (hpage : addr / archPageSize ≤ page) :
    page < addr / archPageSize + bytesToPages length ↔ page * archPageSize < addr + length := by
  unfold archUserAreaLimit at hlimit
  unfold bytesToPages addressLimit
  unfold archPageSize at haligned hpage ⊢
  omega

lemma inside_of_limit {addr length : Nat} (haligned : addr % archPageSize = 0)
    (hlimit : addr + length < archUserAreaLimit) :
    addr / archPageSize + bytesToPages length ≤ 2 ^ 20 := by
  unfold archUserAreaLimit at hlimit
  unfold bytesToPages addressLimit
  unfold archPageSize at haligned ⊢
  omega

section Calls

variable {s s' : Vm} {vas virtual : Nat} {Kind : VasEntry → Prop}

/-- The loop changes its pages one by one. -/
lemma setPermissions_changed {count i : Nat} {flags : VmFlags} (hereditary : Hereditary Kind)
    (hkind : ∀ e, Kind e → Kind (e.changePermissions flags allPermissions)) (hshape : s.Shape)
    (hall : s.All Kind) (haligned : virtual % archPageSize = 0)
    (hinside : virtual / archPageSize + i + count ≤ 2 ^ 20)
    (hcall : setPermissions vas virtual flags count i s = .ok (none, s')) :
    Changed Kind (·.changePermissions flags allPermissions) s vas (virtual / archPageSize + i) count
    s' := by
  induction count generalizing s i with
  | zero =>
    cases hcall
    exact Changed.refl hshape hall _
  | succ count ih =>
    obtain ⟨res, t, hfirst, hrest⟩ := state_bind_eq_ok_iff.mp hcall
    have haddress : (virtual + i * archPageSize) % addressLimit = virtual + i * archPageSize := by
      unfold archPageSize at haligned hinside ⊢
      unfold addressLimit
      omega
    have hpage : (virtual + i * archPageSize) / archPageSize = virtual / archPageSize + i :=
      Nat.add_mul_div_right _ _ (by decide)
    cases res with
    | some errno => cases hrest
    | none =>
      have hone := setVirtPermissionsEx_changed hereditary hkind hshape hall
        (Nat.mod_lt _ (by decide)) hfirst
      rw [haddress, hpage] at hone
      exact hone.cons (ih hone.shape hone.kinds (by omega) hrest)

/-- `SysMprotect` that succeeds changes the pages of an aligned range of the
user area. -/
lemma sysMprotect_changed {bytes : Nat} {flags : BitVec 32} (hereditary : Hereditary Kind)
    (hkind : ∀ e, Kind e → Kind (e.changePermissions (vmFlags flags) allPermissions))
    (hshape : s.Shape) (hall : s.All Kind)
    (hcall : sysMprotect vas virtual bytes flags s = .ok (none, s')) : virtual % archPageSize = 0 ∧
    virtual + bytes < archUserAreaLimit ∧
    Changed Kind (·.changePermissions (vmFlags flags) allPermissions) s vas (virtual / archPageSize)
    (bytesToPages bytes) s' := by
  unfold sysMprotect at hcall
  split_ifs at hcall with haligned hbase hlimit hbits
  · cases hcall
  · cases hcall
  · cases hcall
  · cases hcall
  · have hend : virtual + bytes < archUserAreaLimit := by
      unfold addressLimit archUserAreaLimit at *
      omega
    exact ⟨not_not.mp haligned, hend, setPermissions_changed (i := 0) hereditary
      hkind hshape hall (not_not.mp haligned) (inside_of_limit (not_not.mp haligned) hend) hcall⟩

end Calls

/-! What a page is apart from its permissions. -/

/-- The permissions of a page, the address of its frame when it is in memory,
and its place in the file when it has one. -/
structure PageInfo where
  protection : Protection
  frame : Option Nat
  fileOffset : Option Nat
  deriving DecidableEq

/-- What an entry says of one of its pages.  The frame is the one that
`GetPhysFromVirt` returns. -/
def infoAt (e : VasEntry) (page : Nat) : PageInfo where
  protection := e.protection
  frame := if e.inRam then
      some ((e.physical + (page - e.page) * archPageSize) % addressLimit)
    else none
  fileOffset := if e.file then
      some (e.fileOffset + (page - e.page) * archPageSize)
    else none

/-- What is known of a page, none when it is not mapped. -/
def info (s : Vm) (vas page : Nat) : Option PageInfo :=
  (s.found vas (page * archPageSize)).map fun e => infoAt e page

/-- A mapping of hardware lies in physical memory, and not at its beginning: an
address of zero stands for no address. -/
def Framed (e : VasEntry) : Prop :=
  e.inRam = true → e.allocated = false → 1 < e.numPages →
    0 < e.physical ∧ (e.physical : Int) + e.numPages * archPageSize ≤ addressLimit

lemma skip_physical {e : VasEntry} {pages : Nat} (hframed : Framed e)
    (hram : e.inRam = true) (hallocated : e.allocated = false)
    (hpositive : 0 < pages) (hpages : (pages : Int) < e.numPages) :
    (e.skip pages).physical = e.physical + pages * archPageSize := by
  obtain ⟨hphysical, hlimit⟩ := hframed hram hallocated (by omega)
  change (if e.physical = 0 then 0 else _ % addressLimit) = _
  rw [if_neg (by omega)]
  unfold archPageSize addressLimit at *
  omega

lemma framed_hereditary : Hereditary Framed := by
  intro e kept piece _ hallocated hframed ⟨pages, hpositive, hpages, hparts⟩
  have hskip : Framed (e.skip pages) := by
    intro hram _ hmany
    obtain ⟨hphysical, hlimit⟩ := hframed hram hallocated (by omega)
    rw [skip_physical hframed hram hallocated hpositive hpages]
    change _ ∧ _ + (e.numPages - pages) * _ ≤ _
    unfold archPageSize at *
    omega
  have htruncate : Framed { e with numPages := pages } := by
    intro hram _ _
    obtain ⟨hphysical, hlimit⟩ := hframed hram hallocated (by omega)
    refine ⟨hphysical, ?_⟩
    change (e.physical : Int) + pages * _ ≤ _
    unfold archPageSize at *
    omega
  rcases hparts with ⟨rfl, rfl⟩ | ⟨rfl, rfl⟩
  · exact ⟨hskip, htruncate⟩
  · exact ⟨htruncate, hskip⟩

lemma infoAt_skip {e : VasEntry} {pages page : Nat} (hplaced : e.Placed) (hframed : Framed e)
    (hallocated : e.allocated = false) (hpositive : 0 < pages) (hpages : (pages : Int) < e.numPages)
    (hcovers : (e.skip pages).Covers page) : infoAt (e.skip pages) page = infoAt e page := by
  have hpage := (hplaced.skip hpositive hpages).2
  have hle : e.page + pages ≤ page := hpage ▸ hcovers.1
  have hoffset : pages + (page - (e.page + pages)) = page - e.page := by omega
  have hsum : ∀ start, start + pages * archPageSize +
      (page - (e.page + pages)) * archPageSize = start + (page - e.page) * archPageSize := by
    intro start
    rw [Nat.add_assoc, ← Nat.add_mul, hoffset]
  simp only [infoAt, hpage, PageInfo.mk.injEq]
  refine ⟨rfl, ?_, ?_⟩
  · change (if e.inRam then _ else none) = _
    split
    · rename_i hram
      rw [skip_physical hframed hram hallocated hpositive hpages, hsum]
    · rfl
  · change (if e.file then some ((if e.file then _ else _) + _) else none) = _
    split
    · rw [hsum]
    · rfl

lemma infoAt_reads : Reads Framed infoAt := by
  intro e kept piece hplaced hallocated hframed ⟨pages, hpositive, hpages, hparts⟩ page
  have hskip : (e.skip pages).Covers page → infoAt (e.skip pages) page = infoAt e page :=
    infoAt_skip hplaced hframed hallocated hpositive hpages
  rcases hparts with ⟨rfl, rfl⟩ | ⟨rfl, rfl⟩
  · exact ⟨hskip, fun _ => rfl⟩
  · exact ⟨fun _ => rfl, hskip⟩

/-- `SysMprotect` that succeeds gives the pages of the range the permissions
asked for and changes nothing else about any page. -/
theorem sysMprotect_exact {s s' : Vm} {vas virtual bytes : Nat}
    {flags : BitVec 32} (hshape : s.Shape) (hframed : s.All Framed)
    (hcall : sysMprotect vas virtual bytes flags s = .ok (none, s')) : s'.Shape ∧ ∀ page < 2 ^ 20,
      if virtual / archPageSize ≤ page ∧ page * archPageSize < virtual + bytes then
        ∃ old, info s vas page = some old ∧ info s' vas page =
          some { old with protection := (vmFlags flags).protection }
      else info s' vas page = info s vas page := by
  obtain ⟨haligned, hlimit, hchanged⟩ := sysMprotect_changed framed_hereditary
    (fun _ hkind => hkind) hshape hframed hcall
  refine ⟨hchanged.shape, fun page hpage => ?_⟩
  split
  · rename_i hrange
    have hlast := (lt_bytesToPages_iff haligned hlimit hrange.1).mpr hrange.2
    obtain ⟨id, hmember, hcovers⟩ := hchanged.covered page hrange.1 hlast
    refine ⟨_, (hshape.map_found_eq_some_iff infoAt hpage).mpr ⟨id, hmember, hcovers, rfl⟩, ?_⟩
    refine (hchanged.shape.map_found_eq_some_iff infoAt hpage).mpr
      ((hchanged.changed infoAt_reads
        (infoAt_reads.changePermissions fun _ hkind => hkind) page _ hrange.1
        hlast).mpr ⟨id, hmember, hcovers, ?_⟩)
    rw [← protection_changePermissions (s.entry id) (vmFlags flags)]
    rfl
  · rename_i hrange
    refine Option.ext fun value => ?_
    refine (hchanged.shape.map_found_eq_some_iff infoAt hpage).trans
      (Iff.trans ?_ (hshape.map_found_eq_some_iff infoAt hpage).symm)
    refine hchanged.kept infoAt_reads page value fun hin => hrange ⟨hin.1, ?_⟩
    exact (lt_bytesToPages_iff haligned hlimit hin.1).mp hin.2

/-- Five pages that may be read, none of them touched. -/
def fivePages : VasEntry where
  virtual := 0x20000000
  numPages := 5
  read := true
  user := true
  refCount := 1

def oneMapping : Vm :=
  oneEntry fivePages

lemma oneMapping_shape : oneMapping.Shape ∧ oneMapping.All Framed := by
  have hstart := initVirt_shape fewPages (fun _ => zeroPage) 8
    (fun _ => ⟨true, true, true⟩) fun _ _ => 0
  refine ⟨(hstart.add (e := fivePages) ⟨by decide, by decide, by decide⟩
    (fun viewer page _ _ _ hmapped => ?_ : Vm.FreeRange _ 0 _ _ _) rfl).1, ?_⟩
  · obtain ⟨id, ⟨global, hmem⟩, _⟩ := hmapped
    cases global <;> cases hmem
  · have hnone : smallSystem.All Framed := by
      rintro id e hentry
      cases hentry
    exact hnone.setEntry fun hram => by cases hram

/-- The middle page of a mapping is made writable. -/
theorem sysMprotect_exact_middle : ∃ s',
    sysMprotect 0 0x20002000 4096 3 oneMapping = .ok (none, s') ∧ s'.Shape ∧ ∀ page < 2 ^ 20,
        if 0x20002000 / archPageSize ≤ page ∧ page * archPageSize < 0x20002000 + 4096 then
          ∃ old, info oneMapping 0 page = some old ∧ info s' 0 page =
            some { old with protection := (vmFlags 3).protection }
        else info s' 0 page = info oneMapping 0 page := by
  have hran : (sysMprotect 0 0x20002000 4096 3 oneMapping).toOption.map Prod.fst = some none := by
    decide +kernel
  cases hcall : sysMprotect 0 0x20002000 4096 3 oneMapping with
  | error stop =>
    rw [hcall] at hran
    cases hran
  | ok result =>
    obtain ⟨res, s'⟩ := result
    rw [hcall] at hran
    cases hran
    exact ⟨s', rfl, sysMprotect_exact oneMapping_shape.1 oneMapping_shape.2 hcall⟩

end Merlon.Loader
