/-
The entries of an address space, `struct vas_entry` of virtual.h, and the
comparator their trees are ordered by.  Addresses are byte addresses below
2^32; an entry covers `num_pages` pages from its first one, and entries that
overlap compare as equal.
-/
import Merlon.Physical.Model

namespace Merlon.Virtual

open Physical (archPageSize)

/-- The number of values of `size_t`. -/
def addressLimit : Nat := 2 ^ 32

/-- The `VM_` bits, as arguments of the mapping calls and as the result of
`GetVirtPermissions`. -/
structure VmFlags where
  read : Bool := false
  write : Bool := false
  user : Bool := false
  exec : Bool := false
  lock : Bool := false
  file : Bool := false
  fixedVirt : Bool := false
  mapHardware : Bool := false
  localVas : Bool := false
  recursive : Bool := false
  relocatable : Bool := false
  evictFirst : Bool := false
  shared : Bool := false
  hardIoFail : Bool := false
deriving DecidableEq

/-- `struct vas_entry`.  `swapfileOffset` is the union of the swapfile offset
and the relocation base. -/
structure VasEntry where
  virtual : Nat
  inRam : Bool := false
  allocated : Bool := false
  file : Bool := false
  cow : Bool := false
  swapfile : Bool := false
  read : Bool := false
  write : Bool := false
  exec : Bool := false
  user : Bool := false
  global : Bool := false
  allowTempWrite : Bool := false
  relocatable : Bool := false
  firstLoad : Bool := false
  loadInProgress : Bool := false
  shareOnFork : Bool := false
  lock : Bool := false
  numPages : Int := 1
  fileOffset : Nat := 0
  fileNode : Option Nat := none
  physical : Nat := 0
  swapfileOffset : Nat := 0
  refCount : Int := 0
deriving DecidableEq

namespace VasEntry

def page (e : VasEntry) : Nat :=
  e.virtual / archPageSize

/-- The page after the last one, in the comparator's unsigned arithmetic. -/
def endPage (e : VasEntry) : Nat :=
  (((e.page : Int) + e.numPages) % (addressLimit : Int)).toNat

/-- The page is one of the entry's. -/
def Covers (e : VasEntry) (page : Nat) : Prop :=
  e.page ≤ page ∧ (page : Int) < e.page + e.numPages

instance (e : VasEntry) (page : Nat) : Decidable (e.Covers page) :=
  inferInstanceAs (Decidable (_ ∧ _))

/-- No page belongs to both entries. -/
def Apart (e other : VasEntry) : Prop :=
  ∀ page, e.Covers page → ¬ other.Covers page

/-- The entry is page aligned and its pages are pages of the address
space. -/
structure Placed (e : VasEntry) : Prop where
  aligned : e.virtual % archPageSize = 0
  positive : 1 ≤ e.numPages
  inside : (e.page : Int) + e.numPages ≤ 2 ^ 20

end VasEntry

def compareSign (a b : Nat) : Int :=
  if a > b then 1 else if a < b then -1 else 0

/-- `VirtAvlComparator`; its two assertions on the alignment are made where
the trees are used. -/
def virtAvlComparator (a b : VasEntry) : Int :=
  if b.page ≤ a.page ∧ a.page < b.endPage then 0
  else if a.page ≤ b.page ∧ b.page < a.endPage then 0
  else compareSign a.virtual b.virtual

/-- The entry a lookup compares with: one page at the given address. -/
def dummyEntry (virtual : Nat) : VasEntry where
  virtual := virtual

/-! What the comparator decides on entries that fit the address space. -/

namespace VasEntry

variable {a b e : VasEntry}

lemma Placed.endPage_eq (h : e.Placed) : (e.endPage : Int) = e.page + e.numPages := by
  have hpositive := h.positive
  have hinside := h.inside
  unfold endPage addressLimit
  omega

lemma Placed.virtual_eq (h : e.Placed) : e.virtual = e.page * archPageSize := by
  have haligned := h.aligned
  unfold page
  rw [Nat.div_mul_cancel (Nat.dvd_of_mod_eq_zero haligned)]

lemma Placed.covers_page (h : e.Placed) : e.Covers e.page := by
  have hpositive := h.positive
  exact ⟨Nat.le_refl _, by omega⟩

lemma Apart.symm (h : a.Apart b) : b.Apart a := fun page hb ha => h page ha hb

/-- Two entries are apart when one ends before the other begins. -/
lemma apart_iff (ha : a.Placed) (hb : b.Placed) :
    a.Apart b ↔ (a.page : Int) + a.numPages ≤ b.page ∨ (b.page : Int) + b.numPages ≤ a.page := by
  constructor
  · intro h
    by_contra hcon
    rcases Nat.le_total a.page b.page with hle | hle
    · exact h b.page ⟨hle, by omega⟩ hb.covers_page
    · exact h a.page ha.covers_page ⟨hle, by omega⟩
  · rintro h page ⟨hfirst, hlast⟩ ⟨hfirst', hlast'⟩
    omega

end VasEntry

@[simp] lemma page_dummyEntry (page : Nat) : (dummyEntry (page * archPageSize)).page = page :=
  Nat.mul_div_cancel _ (by decide)

@[simp] lemma numPages_dummyEntry (virtual : Nat) : (dummyEntry virtual).numPages = 1 :=
  rfl

section Comparator

variable {a b : VasEntry}

/-- The comparator takes entries for equal when they overlap, and otherwise
orders them by their first page. -/
lemma virtAvlComparator_eq (ha : a.Placed) (hb : b.Placed) : virtAvlComparator a b =
      if (a.page : Int) + a.numPages ≤ b.page then -1
      else if (b.page : Int) + b.numPages ≤ a.page then 1 else 0 := by
  have hap := ha.positive
  have hbp := hb.positive
  have haend := ha.endPage_eq
  have hbend := hb.endPage_eq
  have hva : a.virtual = a.page * 4096 := ha.virtual_eq
  have hvb : b.virtual = b.page * 4096 := hb.virtual_eq
  unfold virtAvlComparator compareSign
  split_ifs <;> omega

lemma virtAvlComparator_eq_zero_iff (ha : a.Placed) (hb : b.Placed) :
    virtAvlComparator a b = 0 ↔ ¬ a.Apart b := by
  rw [virtAvlComparator_eq ha hb, VasEntry.apart_iff ha hb]
  split_ifs <;> simp_all

/-- Entries that are apart compare as their first pages do. -/
lemma virtAvlComparator_neg_iff (ha : a.Placed) (hb : b.Placed)
    (hapart : a.Apart b) : virtAvlComparator a b < 0 ↔ a.page < b.page := by
  have hap := ha.positive
  have hbp := hb.positive
  rw [VasEntry.apart_iff ha hb] at hapart
  rw [virtAvlComparator_eq ha hb]
  split_ifs <;> omega

/-- The one-page entry of a lookup compares as equal with the entries that
cover its page. -/
lemma virtAvlComparator_dummyEntry (ha : a.Placed) {page : Nat} (hpage : page < 2 ^ 20) :
    virtAvlComparator a (dummyEntry (page * archPageSize)) = 0 ↔ a.Covers page := by
  have hplaced : (dummyEntry (page * archPageSize)).Placed := by
    refine ⟨Nat.mul_mod_left _ _, Int.le_refl 1, ?_⟩
    rw [page_dummyEntry, numPages_dummyEntry]
    omega
  rw [virtAvlComparator_eq_zero_iff ha hplaced, VasEntry.apart_iff ha hplaced,
    page_dummyEntry, numPages_dummyEntry]
  unfold VasEntry.Covers
  omega

end Comparator

end Merlon.Virtual
