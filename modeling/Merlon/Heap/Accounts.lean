/-
The books of an allocator: the cells in use are exactly the cells of its live
allocations.  Handing out a block, giving one back and writing to a live
allocation keep the books; sound books keep live allocations apart from each
other, from all tags and from all links.
-/
import Merlon.Heap.Regions

namespace Merlon.Heap

namespace Classes

open ByteMemory List

variable {C : Classes} {entry : Nat × Nat} {c : Cell}

/-- Cells in use are the live allocations, given by pointer and requested
size. -/
structure Accounts (C : Classes) (s : State) (live : List (Nat × Nat))
    (cells : List Cell) : Prop where
  valid : C.Valid s cells
  owner : ∀ c ∈ cells, c.kind = .used → ∃ size, (c.address + metadataLeading, size) ∈ live
  owned : ∀ entry ∈ live, ∃ c ∈ cells, c.kind = .used ∧
    entry.1 = c.address + metadataLeading ∧ entry.2 + metadataTotal ≤ c.size
  nodup : (live.map Prod.fst).Nodup

section Steps

variable {s s' : State} {live : List (Nat × Nat)} {cells cells' : List Cell}

lemma accounts_start (hregions : s.regions = [])
    (hheads : ∀ i, s.headBlock i = 0) : C.Accounts s [] [] where
  valid := by
    refine ⟨⟨by rw [hregions]; rfl, by simp, List.Pairwise.nil,
      List.IsChain.nil, by simp [hregions], by simp [hregions]⟩, by simp,
      fun _ => [], ?_, by simp, by simp [FreeIn]⟩
    exact fun i _ => hheads i
  owner := by simp
  owned := by simp
  nodup := nodup_nil

section

variable (haccounts : C.Accounts s live cells)
include haccounts

lemma Accounts.cell_unique {d : Cell}
    (hc : c ∈ cells) (hd : d ∈ cells) (haddr : c.address = d.address) : c = d := by
  by_contra hne
  have hapart := haccounts.valid.arranged.apart_of_ne hc hd hne
  have hcSize := (haccounts.valid.arranged.fits c hc).sizeMin
  have hdSize := (haccounts.valid.arranged.fits d hd).sizeMin
  simp only [Apart, Cell.stop] at hapart
  omega

/-- A payload lies in its cell. -/
lemma Accounts.payload (hentry : entry ∈ live) :
    ∃ c ∈ cells, c.kind = .used ∧ entry.1 = c.address + metadataLeading ∧ ∀ at_, entry.1 ≤ at_ →
    at_ < entry.1 + entry.2 → c.address ≤ at_ ∧ at_ < c.stop := by
  obtain ⟨c, hc, hused, hptr, hroom⟩ := haccounts.owned entry hentry
  refine ⟨c, hc, hused, hptr, ?_⟩
  simp only [metadataLeading, metadataTotal, Cell.stop] at hptr hroom ⊢
  omega

lemma Accounts.alloc {size : Nat} {d : Cell} (hgranted : C.Granted s cells size s' cells' d) :
    C.Accounts s' ((d.address + metadataLeading, size) :: live) cells' where
  valid := hgranted.valid
  owner c hc hused := by
    rcases (hgranted.held c hused).mp hc with hc | rfl
    · obtain ⟨size', hmem⟩ := haccounts.owner c hc hused
      exact ⟨size', mem_cons_of_mem _ hmem⟩
    · exact ⟨size, mem_cons_self⟩
  owned entry hentry := by
    rcases mem_cons.mp hentry with rfl | hentry
    · exact ⟨d, (hgranted.held d hgranted.used).mpr (.inr rfl), hgranted.used, rfl, hgranted.room⟩
    · obtain ⟨c, hc, hused, hptr, hroom⟩ := haccounts.owned entry hentry
      exact ⟨c, (hgranted.held c hused).mpr (.inl hc), hused, hptr, hroom⟩
  nodup := by
    refine nodup_cons.mpr ⟨?_, haccounts.nodup⟩
    intro hmem
    obtain ⟨entry, hentry, hptr⟩ := mem_map.mp hmem
    obtain ⟨c, hc, hused, haddr, _⟩ := haccounts.owned entry hentry
    have hapart := hgranted.apart c hc hused
    have hroom := hgranted.room
    simp only [Apart, Cell.stop, metadataTotal] at *
    omega

/-- Handing out a block leaves the live payloads as they are. -/
lemma Accounts.alloc_bytes {size : Nat} {d : Cell}
    (hgranted : C.Granted s cells size s' cells' d) (hentry : entry ∈ live) {at_ : Nat}
    (hlow : entry.1 ≤ at_) (hhigh : at_ < entry.1 + entry.2) : s'.memory at_ = s.memory at_ := by
  obtain ⟨c, hc, hused, _, hin⟩ := haccounts.payload hentry
  obtain ⟨hlow', hhigh'⟩ := hin at_ hlow hhigh
  exact hgranted.bytes c hc hused at_ hlow' hhigh'

lemma Accounts.free {ptr : Nat} (hc : c ∈ cells)
    (hptr : ptr = c.address + metadataLeading) (hreturned : C.Returned s cells c s' cells') :
    C.Accounts s' (live.filter (fun entry => entry.1 ≠ ptr)) cells' where
  valid := hreturned.valid
  owner d hd hused := by
    obtain ⟨hd, hne⟩ := (hreturned.held d hused).mp hd
    obtain ⟨size, hmem⟩ := haccounts.owner d hd hused
    refine ⟨size, mem_filter.mpr ⟨hmem, ?_⟩⟩
    simp only [hptr, decide_eq_true_eq]
    intro haddr
    exact hne (haccounts.cell_unique hd hc (Nat.add_right_cancel haddr))
  owned entry hentry := by
    obtain ⟨hentry, hne⟩ := mem_filter.mp hentry
    obtain ⟨d, hd, hused, haddr, hroom⟩ := haccounts.owned entry hentry
    refine ⟨d, (hreturned.held d hused).mpr ⟨hd, ?_⟩, hused, haddr, hroom⟩
    rintro rfl
    simp [haddr, hptr] at hne
  nodup := haccounts.nodup.sublist (filter_sublist.map Prod.fst)

/-- Giving a block back leaves the payloads that stay live as they are. -/
lemma Accounts.free_bytes {ptr : Nat}
    (hptr : ptr = c.address + metadataLeading) (hreturned : C.Returned s cells c s' cells')
    (hentry : entry ∈ live.filter (fun entry => entry.1 ≠ ptr)) {at_ : Nat}
    (hlow : entry.1 ≤ at_) (hhigh : at_ < entry.1 + entry.2) : s'.memory at_ = s.memory at_ := by
  obtain ⟨hentry, hkept⟩ := mem_filter.mp hentry
  obtain ⟨d, hd, hused, hdPtr, hin⟩ := haccounts.payload hentry
  obtain ⟨hlow', hhigh'⟩ := hin at_ hlow hhigh
  refine hreturned.bytes d hd hused ?_ at_ hlow' hhigh'
  rintro rfl
  simp [hdPtr, hptr] at hkept

lemma Accounts.write {ptr offset size : Nat} {value : UInt8} (hlive : (ptr, size) ∈ live) (hoffset : offset < size) :
    C.Accounts (s.setMemory (s.memory.storeByte (ptr + offset) value)) live cells where
  __ := haccounts
  valid := by
    obtain ⟨c, hc, hused, hptr, hroom⟩ := haccounts.owned _ hlive
    refine haccounts.valid.write_inside hc hused rfl rfl ?_
    intro at_ hat
    simp only [metadataLeading, metadataTotal, Cell.stop] at hptr hroom hat
    exact storeByte_apply_of_ne _ (by omega)

end

end Steps

/-! What sound books say. -/

section Facts

variable {s : State} {live : List (Nat × Nat)} {cells : List Cell}

section

variable (haccounts : C.Accounts s live cells)

include haccounts

lemma Accounts.used_iff (hc : c ∈ cells) : c.kind = .used ↔
      ∃ size, (c.address + metadataLeading, size) ∈ live := by
  refine ⟨haccounts.owner c hc, ?_⟩
  rintro ⟨size, hmem⟩
  obtain ⟨d, hd, hused, haddr, _⟩ := haccounts.owned _ hmem
  rwa [haccounts.cell_unique hc hd (Nat.add_right_cancel haddr)]

/-- A cell is on the list its size selects, if it is free, and on no other. -/
lemma Accounts.listed_iff {lists : Nat → List Nat}
    (hlists : C.ListsHold s (FreeIn cells) lists) (hc : c ∈ cells) {i : Nat} (hi : i < C.count) :
    c.address ∈ lists i ↔ c.kind = .free ∧ C.index (c.size - metadataTotal) = .ok i := by
  rw [hlists.listed i hi]
  constructor
  · rintro ⟨d, hd, haddr, hindex⟩
    rw [haccounts.cell_unique hc hd.1 haddr.symm]
    exact ⟨hd.2, hindex⟩
  · rintro ⟨hfree, hindex⟩
    exact ⟨c, ⟨hc, hfree⟩, rfl, hindex⟩

lemma Accounts.indexed (hc : c ∈ cells) (hfree : c.kind = .free) :
    ∃ i < C.count, C.index (c.size - metadataTotal) = .ok i := by
  obtain ⟨i, hindex⟩ := (haccounts.valid.arranged.fits c hc).index (by simp [hfree])
  exact ⟨i, index_lt hindex, hindex⟩

lemma Accounts.payload_apart (hentry : entry ∈ live) (hc : c ∈ cells)
    (hne : entry.1 ≠ c.address + metadataLeading) : RangeApart entry (c.address, c.size) := by
  obtain ⟨d, hd, hused, hptr, hroom⟩ := haccounts.owned entry hentry
  have hapart := haccounts.valid.arranged.apart_of_ne hd hc (fun heq => hne (heq ▸ hptr))
  simp only [RangeApart, Apart, Cell.stop, metadataLeading, metadataTotal] at *
  omega

lemma Accounts.inside (hentry : entry ∈ live) : ∃ region ∈ s.regions, Inside entry region := by
  obtain ⟨c, hc, hused, hptr, hroom⟩ := haccounts.owned entry hentry
  obtain ⟨base, size, hregion, hlow, hhigh, _⟩ := haccounts.valid.arranged.tiled.in_region hc
  refine ⟨_, hregion, ?_⟩
  simp only [Inside, Cell.stop, metadataLeading, metadataTotal] at *
  omega

lemma Accounts.live_apart : live.Pairwise RangeApart := by
  have hpairs := pairwise_map.mp haccounts.nodup
  refine hpairs.imp_of_mem ?_
  intro first second hfirst hsecond hne
  obtain ⟨c, hc, hused, hptr, hroom⟩ := haccounts.owned second hsecond
  refine (haccounts.payload_apart hfirst hc (hptr ▸ hne)).inside ?_
  simp only [Inside, metadataLeading, metadataTotal] at *
  omega

lemma Accounts.tags_apart (hentry : entry ∈ live) (hc : c ∈ cells) :
    RangeApart entry (c.address, 4) ∧ RangeApart entry (c.stop - 4, 4) := by
  have hmin := (haccounts.valid.arranged.fits c hc).sizeMin
  by_cases heq : entry.1 = c.address + metadataLeading
  · obtain ⟨d, hd, hused, hptr, hroom⟩ := haccounts.owned entry hentry
    obtain rfl := haccounts.cell_unique hd hc (Nat.add_right_cancel (hptr.symm.trans heq))
    simp only [RangeApart, Cell.stop, metadataLeading, metadataTotal] at *
    omega
  · have hapart := haccounts.payload_apart hentry hc heq
    constructor <;> refine hapart.inside ?_ <;> simp only [Inside, Cell.stop] <;> omega

lemma Accounts.links_apart (hentry : entry ∈ live) (hc : c ∈ cells) (hfree : c.kind = .free) :
    RangeApart entry (nextField c.address, 8) := by
  have hroom := (haccounts.valid.arranged.fits c hc).block (by simp [hfree])
  refine (haccounts.payload_apart hentry hc ?_).inside ?_
  · intro heq
    obtain ⟨d, hd, hused, hptr, _⟩ := haccounts.owned entry hentry
    rw [haccounts.cell_unique hd hc (Nat.add_right_cancel (hptr.symm.trans heq)), hfree] at hused
    cases hused
  · simp only [Inside, nextField]
    omega

end

/-- The cells and lists the memory represents: the regions are tiled by
tagged, aligned cells without two free neighbours, the cells in use are the
live allocations and hold what was asked for, and each list is a well-linked
list of exactly the free cells whose size selects it. -/
structure Represents (C : Classes) (s : State) (live : List (Nat × Nat))
    (cells : List Cell) (lists : Nat → List Nat) : Prop where
  tiled : Tiled s.regions cells
  tags : ∀ c ∈ cells, Tagged s.memory c
  aligned : ∀ c ∈ cells, c.address % alignment = 0
  calm : cells.IsChain (fun left right => left.kind ≠ .free ∨ right.kind ≠ .free)
  used : ∀ c ∈ cells, c.kind = .used ↔ ∃ size, (c.address + metadataLeading, size) ∈ live
  room : ∀ entry ∈ live, ∃ c ∈ cells,
    entry.1 = c.address + metadataLeading ∧ entry.2 + metadataTotal ≤ c.size
  linked : ∀ i < C.count, LinkedList (nextOf s.memory) (prevOf s.memory) 0 (s.headBlock i) (lists i)
  nodup : ∀ i < C.count, (lists i).Nodup
  listed : ∀ c ∈ cells, ∀ i < C.count, c.address ∈ lists i ↔
    c.kind = .free ∧ C.index (c.size - metadataTotal) = .ok i
  indexed : ∀ c ∈ cells, c.kind = .free → ∃ i < C.count, C.index (c.size - metadataTotal) = .ok i
  onlyCells : ∀ i < C.count, ∀ address ∈ lists i, ∃ c ∈ cells, c.address = address

lemma Accounts.represents (haccounts : C.Accounts s live cells) :
    ∃ lists, C.Represents s live cells lists := by
  have harranged := haccounts.valid.arranged
  obtain ⟨lists, hlists⟩ := haccounts.valid.lists
  refine ⟨lists, harranged.tiled, haccounts.valid.tags,
    fun c hc => (harranged.fits c hc).aligned, harranged.calm,
    fun c hc => haccounts.used_iff hc, ?_, hlists.linked, hlists.nodup,
    fun c hc i hi => haccounts.listed_iff hlists hc hi,
    fun c hc hfree => haccounts.indexed hc hfree, ?_⟩
  · intro entry hentry
    obtain ⟨c, hc, _, hptr, hroom⟩ := haccounts.owned entry hentry
    exact ⟨c, hc, hptr, hroom⟩
  · intro i hi address hmem
    obtain ⟨c, hc, haddr, _⟩ := (hlists.listed i hi address).mp hmem
    exact ⟨c, hc.1, haddr⟩

/-- Live payloads lie in regions, apart from each other, from all size tags
and from all links. -/
structure Separated (s : State) (live : List (Nat × Nat)) (cells : List Cell) : Prop where
  inside : ∀ entry ∈ live, ∃ region ∈ s.regions, Inside entry region
  apart : live.Pairwise RangeApart
  tags : ∀ entry ∈ live, ∀ c ∈ cells, RangeApart entry (c.address, 4) ∧
    RangeApart entry (c.stop - 4, 4)
  links : ∀ entry ∈ live, ∀ c ∈ cells, c.kind = .free → RangeApart entry (nextField c.address, 8)

lemma Accounts.separated (haccounts : C.Accounts s live cells) : Separated s live cells where
  inside _ hentry := haccounts.inside hentry
  apart := haccounts.live_apart
  tags _ hentry _ hc := haccounts.tags_apart hentry hc
  links _ hentry _ hc hfree := haccounts.links_apart hentry hc hfree

end Facts

end Classes

end Merlon.Heap
