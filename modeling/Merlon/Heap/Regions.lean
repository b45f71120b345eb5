/-
A new region: two fences and one free block between them, put on an empty
list.  With it `FindBlock` serves a request from the first list that holds a
block or from a new region.
-/
import Merlon.Heap.Calls

namespace Merlon.Heap

open ByteMemory List

/-- The three cells of a new region. -/
def leftFence (base : Nat) : Cell := ⟨base, minReqSize, .fence⟩

def regionBlock (base totalSize : Nat) : Cell :=
  ⟨base + minReqSize, totalSize - 2 * minReqSize, .free⟩

def rightFence (base totalSize : Nat) : Cell :=
  ⟨base + (totalSize - minReqSize), minReqSize, .fence⟩

/-- The size tags `RequestBlock` writes. -/
def regionTags (memory : ByteMemory) (base totalSize : Nat) : ByteMemory :=
  let memory := setSizeTags memory base minReqSize
  let memory := setSizeTags memory (base + minReqSize) (totalSize - 2 * minReqSize)
  setSizeTags memory (base + (totalSize - minReqSize)) minReqSize

/-- Both fences marked. -/
def regionFences (memory : ByteMemory) (base totalSize : Nat) : ByteMemory :=
  markAllocated (markAllocated (regionTags memory base totalSize) base)
    (base + (totalSize - minReqSize))

lemma clearLinks_markAllocated (memory : ByteMemory) {block other : Nat}
    (hdisjoint : other ≤ block ∨ block + 12 ≤ other) :
    markAllocated (clearLinks memory block) other = clearLinks (markAllocated memory other)
    block := by
  have hload : (clearLinks memory block).load other = memory.load other := by
    apply load_congr
    intro at_ hlow hhigh
    exact clearLinks_apply _ (by omega)
  have hnext : nextField block + 4 ≤ other ∨ other + 4 ≤ nextField block := by
    simp only [nextField]
    omega
  have hprev : prevField block + 4 ≤ other ∨ other + 4 ≤ prevField block := by
    simp only [prevField]
    omega
  rw [markAllocated, hload, clearLinks, markAllocated, clearLinks,
    store_comm _ hnext, store_comm _ hprev]

/-- The memory `RequestBlock` leaves behind. -/
def regionMemory (memory : ByteMemory) (base totalSize : Nat) : ByteMemory :=
  markFree (clearLinks (regionFences memory base totalSize) (base + minReqSize)) (base + minReqSize)

/-- `RequestBlock` clears the links before it marks the fences. -/
lemma regionMemory_eq (memory : ByteMemory) {base totalSize : Nat} (hlarge : 32 ≤ totalSize) :
    markFree (markAllocated (markAllocated (clearLinks
      (regionTags memory base totalSize) (base + minReqSize)) base)
      (base + (totalSize - minReqSize))) (base + minReqSize) =
      regionMemory memory base totalSize := by
  rw [clearLinks_markAllocated _ (by simp only [minReqSize]; omega),
    clearLinks_markAllocated _ (by simp only [minReqSize]; omega)]
  rfl

namespace Classes

variable {C : Classes}

/-- The cells with those of a new region behind them. -/
abbrev withRegion (cells : List Cell) (base totalSize : Nat) : List Cell :=
  cells ++ [leftFence base] ++ [regionBlock base totalSize] ++ [rightFence base totalSize]

/-- A range a region may have. -/
structure RegionFits (C : Classes) (base totalSize : Nat) : Prop where
  positive : 0 < base
  aligned : base % 8 = 0
  sizeAligned : totalSize % 8 = 0
  large : 32 ≤ totalSize
  sizeMax : totalSize ≤ C.limit
  top : base + totalSize ≤ 2 ^ 32

section Region

variable {base totalSize : Nat} (hregion : C.RegionFits base totalSize)

include hregion

lemma region_fits : C.Fits (leftFence base) ∧ C.Fits (regionBlock base totalSize) ∧
    C.Fits (rightFence base totalSize) := by
  obtain ⟨hpos, haligned, hsize, hlarge, hmax, htop⟩ := hregion
  refine ⟨⟨?_, ?_, ?_, ?_, (absurd rfl), ?_, ?_⟩,
    ⟨?_, ?_, ?_, ?_, fun _ => ?_, ?_, ?_⟩, ⟨?_, ?_, ?_, ?_, (absurd rfl), ?_, ?_⟩⟩ <;>
    simp only [leftFence, regionBlock, rightFence, minReqSize, Cell.stop] <;> omega

lemma region_contiguous : Contiguous base (base + totalSize)
    [leftFence base, regionBlock base totalSize, rightFence base totalSize] := by
  obtain ⟨_, _, hsize, hlarge, _, _⟩ := hregion
  refine ⟨rfl, rfl, ?_, ?_⟩ <;>
    simp only [regionBlock, rightFence, minReqSize, Cell.stop, Contiguous] <;> omega

lemma region_tiled : RegionTiled base totalSize
    [leftFence base, regionBlock base totalSize, rightFence base totalSize] := by
  obtain ⟨_, _, hsize, hlarge, _, _⟩ := hregion
  refine ⟨[regionBlock base totalSize], ?_, ⟨rfl, ?_⟩, ?_⟩
  · simp only [leftFence, rightFence, minReqSize, cons_append,
      nil_append, cons.injEq, Cell.mk.injEq, and_true, true_and]
    omega
  · simp only [regionBlock, minReqSize, Contiguous, Cell.stop]
    omega
  · simp [Blocks, regionBlock]

section

variable (memory : ByteMemory)

lemma regionFences_outside {at_ : Nat} (hat : at_ < base ∨ base + totalSize ≤ at_) :
    regionFences memory base totalSize at_ = memory at_ := by
  obtain ⟨_, _, hsize, hlarge, _, _⟩ := hregion
  simp only [regionFences, regionTags, minReqSize]
  simp (disch := omega) only [markAllocated_apply, setSizeTags_apply]

lemma regionFences_left : Tagged (regionFences memory base totalSize) (leftFence base) := by
  obtain ⟨hleft, _, _⟩ := region_fits hregion
  obtain ⟨_, _, hsize, hlarge, _, _⟩ := hregion
  have hsized : Sized (regionTags memory base totalSize) (leftFence base) := by
    refine (setSizeTags_sized memory hleft).of_agree (Nat.le_refl _) ?_
    intro at_ hlow hhigh
    simp only [leftFence, minReqSize, Cell.stop] at hlow hhigh
    simp only [regionTags, leftFence, minReqSize]
    simp (disch := omega) only [setSizeTags_apply]
  refine (hsized.tagged_markAllocated (Nat.le_refl _)
    (by simp [leftFence])).of_agree hleft.sizeMin ?_
  intro at_ hlow hhigh
  simp only [leftFence, minReqSize, Cell.stop] at hlow hhigh
  simp only [regionFences, leftFence, minReqSize]
  symm
  rw [markAllocated_apply _ (by omega)]

lemma regionFences_right :
    Tagged (regionFences memory base totalSize) (rightFence base totalSize) := by
  obtain ⟨_, _, hright⟩ := region_fits hregion
  obtain ⟨_, _, hsize, hlarge, _, _⟩ := hregion
  have hsized : Sized (markAllocated (regionTags memory base totalSize) base)
      (rightFence base totalSize) := by
    have htags : Sized (regionTags memory base totalSize)
        (rightFence base totalSize) := setSizeTags_sized _ hright
    refine htags.of_agree (Nat.le_refl _) ?_
    intro at_ hlow _
    simp only [rightFence, minReqSize] at hlow
    rw [markAllocated_apply _ (by omega)]
  exact hsized.tagged_markAllocated (Nat.le_refl _) (by simp [rightFence])

lemma regionFences_block :
    Sized (regionFences memory base totalSize) (regionBlock base totalSize) := by
  obtain ⟨_, hblock, _⟩ := region_fits hregion
  refine (setSizeTags_sized (setSizeTags memory base minReqSize) hblock).of_agree hblock.sizeMin ?_
  intro at_ hlow hhigh
  simp only [regionBlock, minReqSize, Cell.stop] at hlow hhigh
  simp only [regionFences, regionTags, regionBlock, minReqSize]
  simp (disch := omega) only [markAllocated_apply, setSizeTags_apply]

end

end Region

/-- The state got a range for a new region, apart from all others.  Bytes of
the range may have changed. -/
structure NewRegion (C : Classes) (s : State) (base totalSize : Nat) (s' : State) : Prop where
  region : C.RegionFits base totalSize
  regions : s'.regions = s.regions ++ [(base, totalSize)]
  headBlock : s'.headBlock = s.headBlock
  apart : ∀ region ∈ s.regions, RangeApart region (base, totalSize)
  memory : ∀ at_, at_ < base ∨ base + totalSize ≤ at_ → s'.memory at_ = s.memory at_

section RequestBlock

variable {s s' : State} {cells : List Cell} {base totalSize : Nat}

variable (hnew : C.NewRegion s base totalSize s') (hvalid : C.Valid s cells)

include hnew hvalid

lemma NewRegion.cell_apart {c : Cell} (hc : c ∈ cells) :
    c.stop ≤ base ∨ base + totalSize ≤ c.address := by
  obtain ⟨low, size, hregion, hlow, hhigh, _⟩ := hvalid.arranged.tiled.in_region hc
  have hapart := hnew.apart _ hregion
  simp only [RangeApart] at hapart
  omega

lemma NewRegion.arranged : C.Arranged s'.regions (withRegion cells base totalSize) := by
  have hregion := hnew.region
  obtain ⟨hleft, hblock, hright⟩ := region_fits hregion
  have hcontiguous := region_contiguous hregion
  have hlist : withRegion cells base totalSize = cells ++ [leftFence base,
        regionBlock base totalSize, rightFence base totalSize] := by simp
  rw [hlist, hnew.regions]
  refine ⟨hvalid.arranged.tiled.add_region (region_tiled hregion), ?_, ?_, ?_, ?_, ?_⟩
  · intro c hc
    simp only [mem_append, mem_cons, not_mem_nil, or_false] at hc
    rcases hc with hc | rfl | rfl | rfl
    · exact hvalid.arranged.fits c hc
    · exact hleft
    · exact hblock
    · exact hright
  · refine pairwise_append.mpr ⟨hvalid.arranged.apart, hcontiguous.pairwise_apart, ?_⟩
    intro c hc d hd
    have hout := hnew.cell_apart hvalid hc
    have hin := hcontiguous.mem_range hd
    simp only [Apart]
    omega
  · refine hvalid.arranged.calm.append ?_ ?_
    · simp [leftFence, rightFence]
    · intro _ _ first hfirst
      simp only [head?_cons, Option.mem_def, Option.some.injEq] at hfirst
      exact .inr (by simp [← hfirst, leftFence])
  · intro region hmem
    rcases mem_append.mp hmem with hmem | hmem
    · exact hvalid.arranged.regionMax region hmem
    · rw [mem_singleton.mp hmem]
      exact hregion.sizeMax
  · intro region hmem
    rcases mem_append.mp hmem with hmem | hmem
    · exact hvalid.arranged.regionTop region hmem
    · rw [mem_singleton.mp hmem]
      exact ⟨hregion.positive, hregion.top⟩

/-- The new region with its block on no list yet. -/
lemma NewRegion.loose :
    C.Loose (s'.setMemory (regionFences s'.memory base totalSize)) (cells ++ [leftFence base])
    [regionBlock base totalSize] [rightFence base totalSize] := by
  have hregion := hnew.region
  have hsame : ∀ c ∈ cells, ∀ at_, c.address ≤ at_ → at_ < c.stop →
      regionFences s'.memory base totalSize at_ = s.memory at_ := by
    intro c hc at_ hlow hhigh
    have hout := hnew.cell_apart hvalid hc
    rw [regionFences_outside hregion _ (by omega), hnew.memory _ (by omega)]
  refine ⟨hnew.arranged hvalid, ?_, ?_⟩
  · intro c hc
    simp only [mem_append, mem_singleton] at hc
    rcases hc with (hc | rfl) | rfl
    · exact (hvalid.tags c hc).of_agree (hvalid.arranged.fits c hc).sizeMin
        (fun at_ hlow hhigh => (hsame c hc at_ hlow hhigh).symm)
    · exact regionFences_left hregion _
    · exact regionFences_right hregion _
  · have hiff : ∀ c, FreeIn (cells ++ [leftFence base] ++
        [rightFence base totalSize]) c ↔ FreeIn cells c := by
      intro c
      simp only [FreeIn, mem_append, mem_singleton]
      constructor
      · rintro ⟨(hc | rfl) | rfl, hkind⟩
        · exact ⟨hc, hkind⟩
        · simp [leftFence] at hkind
        · simp [rightFence] at hkind
      · rintro ⟨hc, hkind⟩
        exact ⟨.inl (.inl hc), hkind⟩
    have hheads : (s'.setMemory (regionFences s'.memory base
        totalSize)).headBlock = s.headBlock := hnew.headBlock
    refine (hvalid.lists.frame hheads ?_).of_iff hiff
    intro c hc at_ hlow hhigh
    have hroom := (hvalid.arranged.fits c hc.1).block (by simp [hc.2])
    exact hsame c hc.1 at_ (by omega) (by simp only [Cell.stop]; omega)

/-- What `RequestBlock` returns: a region whose one block waits to become the
head of an empty list. -/
structure RegionAdded (C : Classes) (s : State) (cells : List Cell)
    (base totalSize : Nat) (s' : State) : Prop where
  headBlock : s'.headBlock = s.headBlock
  size : getSize s'.memory (base + minReqSize) = .ok (totalSize - 2 * minReqSize)
  fits : C.Fits (regionBlock base totalSize)
  valid : ∀ index, C.index (totalSize - 2 * minReqSize - metadataTotal) = .ok index → s.headBlock
    index = 0 → C.Valid (s'.setHead index (base + minReqSize)) (withRegion cells base totalSize)
  bytes : ∀ c ∈ cells, ∀ at_, c.address ≤ at_ → at_ < c.stop → s'.memory at_ = s.memory at_

lemma NewRegion.added : C.RegionAdded s cells base totalSize
      (s'.setMemory (regionMemory s'.memory base totalSize)) := by
  have hregion := hnew.region
  obtain ⟨_, hfits, _⟩ := region_fits hregion
  have hloose := hnew.loose hvalid
  have hsized := regionFences_block hregion s'.memory
  have hroom := hfits.block (by simp [regionBlock])
  have hsized' := ((hsized.clearLinks hroom).markFree hfits.sizeMin).1
  refine ⟨hnew.headBlock, hsized'.getSize, hfits, ?_, ?_⟩
  · intro index hindex hempty
    have hinsert := (hloose.insert rfl hsized hindex).1
    have hhead : s'.headBlock index = 0 := by rw [hnew.headBlock, hempty]
    have hstate : insertBlock (s'.setMemory
        (regionFences s'.memory base totalSize)) index (regionBlock base totalSize).address =
        (s'.setMemory (regionMemory s'.memory base totalSize)).setHead index
          (base + minReqSize) := by
      simp [insertBlock, State.setMemory, State.setHead, regionMemory,
        clearLinks, hhead, regionBlock]
    rwa [hstate] at hinsert
  · intro c hc at_ hlow hhigh
    have hout := hnew.cell_apart hvalid hc
    have hlarge := hregion.large
    change regionMemory s'.memory base totalSize at_ = s.memory at_
    rw [regionMemory, minReqSize, markFree_apply _ (by omega), clearLinks_apply _ (by omega),
      regionFences_outside hregion _ (by omega), hnew.memory _ (by omega)]

end RequestBlock

/-! Finding a block. -/

/-- A block was handed out for the request, and `R` holds. -/
def Served (C : Classes) (R : State → Prop) (s : State) (cells : List Cell)
    (request : Nat) (result : Nat × State) : Prop :=
  ∃ d cells', d.address = result.1 ∧ C.Granted s cells request result.2 cells' d ∧ R result.2

/-- No list from `low` on holds a block. -/
def emptyFrom (C : Classes) (s : State) (low : Nat) : Bool :=
  (range' low (C.count - low)).all (fun i => s.headBlock i == 0)

section FindBlock

variable {s : State} {cells : List Cell} {request : Nat}
  {requestBlock : State → Nat → Except Stop (Nat × State)} {low : Nat}

lemma emptyFrom_iff : C.emptyFrom s low = true ↔
    ∀ i, low ≤ i → i < C.count → s.headBlock i = 0 := by
  simp only [emptyFrom, all_eq_true, mem_range'_1, beq_iff_eq]
  constructor
  · intro hempty i hle hlt
    exact hempty i ⟨hle, by omega⟩
  · rintro hempty i ⟨hle, hlt⟩
    exact hempty i hle (by omega)

lemma emptyFrom_of_find (hnone : (range' low (C.count - low)).find?
      (fun i => s.headBlock i != 0) = none) : C.emptyFrom s low = true := by
  rw [emptyFrom, all_eq_true]
  intro i hi
  simpa using find?_eq_none.mp hnone i hi

/-- The head of a list is a free cell of that list's sizes. -/
lemma Valid.head_cell (hvalid : C.Valid s cells) {i : Nat} (hi : i < C.count)
    (hne : s.headBlock i ≠ 0) : ∃ c ∈ cells, c.kind = .free ∧ c.address = s.headBlock i ∧
    C.index (c.size - metadataTotal) = .ok i := by
  obtain ⟨lists, hlists⟩ := hvalid.lists
  obtain ⟨c, hc, haddr, hindex⟩ := (hlists.listed i hi _).mp (hlists.head_mem hi hne)
  exact ⟨c, hc.1, hc.2, haddr, hindex⟩

/-- A region's own cells are not in use. -/
lemma used_mem_region {base totalSize : Nat} {e : Cell} (hused : e.kind = .used) :
    e ∈ withRegion cells base totalSize ↔ e ∈ cells := by
  have hleft : e ≠ leftFence base := by
    rintro rfl
    cases hused
  have hblock : e ≠ regionBlock base totalSize := by
    rintro rfl
    cases hused
  have hright : e ≠ rightFence base totalSize := by
    rintro rfl
    cases hused
  simp [hleft, hblock, hright]

/-- `AllocateBlock` is to take the free block `c` of list `i`. -/
structure Chosen (C : Classes) (s : State) (cells : List Cell) (c : Cell) (low i : Nat) : Prop where
  valid : C.Valid s cells
  mem : c ∈ cells
  free : c.kind = .free
  index : C.index (c.size - metadataTotal) = .ok i
  le : low ≤ i

/-- The block of a new region goes on an empty list. -/
lemma RegionAdded.chosen {s' : State} {base totalSize limit : Nat}
    (hadded : C.RegionAdded s cells base totalSize s') (hlimit : C.sizes[low + 1]? = some limit)
    (hlarge : limit + metadataTotal + 2 * minReqSize ≤ totalSize)
    (hempty : C.emptyFrom s low = true) :
    ∃ i, C.index (subSize (totalSize - 2 * minReqSize) metadataTotal) = .ok i ∧ s'.headBlock i = 0 ∧
      C.Chosen (s'.setHead i (base + minReqSize))
        (withRegion cells base totalSize) (regionBlock base totalSize) low i := by
  have hfits := hadded.fits
  obtain ⟨i, hindex⟩ := hfits.index (by simp [regionBlock])
  have hle : low ≤ i := index_ge_of_limit hlimit (by
    simp only [regionBlock] at hlarge ⊢
    omega) hindex
  have hzero := emptyFrom_iff.mp hempty i hle (index_lt hindex)
  refine ⟨i, ?_, by rw [hadded.headBlock, hzero],
    hadded.valid i hindex hzero, by simp, rfl, hindex, hle⟩
  have hsub := hfits.subSize
  simp only [regionBlock] at hsub
  rw [hsub]
  exact hindex

/-- What a request for a region of `least` bytes may do: stop as `Refused`
allows, or add a region and keep `R`. -/
def Requests (C : Classes) (R : State → Prop) (Refused : Stop → Prop)
    (s : State) (cells : List Cell) (least : Nat) (outcome : Except Stop (Nat × State)) : Prop :=
  Ends outcome Refused (fun result => ∃ base totalSize,
    result.1 = base + minReqSize ∧ least + 2 * minReqSize ≤ totalSize ∧
    C.RegionAdded s cells base totalSize result.2 ∧ R result.2)

variable {R : State → Prop}

/-- The ways through `FindBlock`: the head of a list is taken, the table ends,
no region can be had, or the block of a new region is taken. -/
lemma findBlock_rule {Q : Except Stop (Nat × State) → Prop}
    (hvalid : C.Valid s cells) (hlow : C.smallestIndex request = .ok low)
    (hhead : ∀ c i, C.Chosen s cells c low i → Q (C.allocateBlock s c.address i request))
    (hbeyond : C.emptyFrom s low = true → C.sizes[low + 1]? = none → Q (.error .outOfBounds))
    (hrequest : C.emptyFrom s low = true → ∀ limit, C.sizes[low + 1]? = some limit →
      C.Requests R (fun stop => Q (.error stop)) s cells
        (limit + metadataTotal) (requestBlock s (limit + metadataTotal)))
    (hregion : ∀ base totalSize s' i, C.RegionAdded s cells base totalSize s' → R s' →
      C.Chosen (s'.setHead i (base + minReqSize))
        (withRegion cells base totalSize) (regionBlock base totalSize) low i →
      Q (C.allocateBlock (s'.setHead i (base + minReqSize)) (base + minReqSize) i request)) :
    Q (C.findBlock requestBlock s request) := by
  rw [findBlock, hlow, ok_bind]
  cases hfound : (range' low (C.count - low)).find? (fun i => s.headBlock i != 0) with
  | some i =>
    have hmem := mem_of_find?_eq_some hfound
    rw [mem_range'_1] at hmem
    obtain ⟨c, hc, hfree, haddr, hindex⟩ := hvalid.head_cell (i := i)
      (by omega) (by simpa using find?_some hfound)
    simp only [← haddr]
    exact hhead c i ⟨hvalid, hc, hfree, hindex, hmem.1⟩
  | none =>
    have hempty := emptyFrom_of_find hfound
    cases hlimit : C.sizes[low + 1]? with
    | none => exact hbeyond hempty hlimit
    | some limit =>
      have hends := hrequest hempty limit hlimit
      simp only
      cases hrun : requestBlock s (limit + metadataTotal) with
      | error stop =>
        rw [hrun] at hends
        exact hends
      | ok result =>
        rw [hrun] at hends
        obtain ⟨base, totalSize, hblock, hlarge, hadded, hholds⟩ := hends
        obtain ⟨i, hindex, hzero, hchosen⟩ := hadded.chosen hlimit hlarge hempty
        rw [ok_bind, hblock, hadded.size, ok_bind, hindex, ok_bind, if_pos hzero]
        exact hregion base totalSize result.2 i hadded hholds hchosen

variable (hframe : ∀ {s s' : State}, s'.regions = s.regions →
    s'.reserveBlocks = s.reserveBlocks → R s → R s')

include hframe

/-- The chosen block serves the request. -/
lemma Chosen.serves {c : Cell} {i : Nat} (hchosen : C.Chosen s cells c low i) (hholds : R s)
    (hlow : C.smallestIndex request = .ok low) (halign : request % 8 = 0) (hmin : 8 ≤ request) :
    ∃ result, C.allocateBlock s c.address i request = .ok result ∧
    C.Served R s cells request result := by
  obtain ⟨hvalid, hc, hfree, hindex, hle⟩ := hchosen
  obtain ⟨before, after, rfl⟩ := append_of_mem hc
  rw [← singleton_append, ← append_assoc] at hvalid ⊢
  have hroom := request_le_of_index hlow hindex hle
  have hrequest : C.Request s before c after i request := ⟨hvalid, hfree, hindex, halign, hmin, by
      omega⟩
  obtain ⟨d, s', cells', hallocate, hgranted, hkeeps⟩ := allocateBlock_spec hrequest
  exact ⟨_, hallocate, d, cells', rfl, hgranted, hframe hkeeps.regions hkeeps.reserveBlocks hholds⟩

lemma findBlock_spec {Refused : Stop → Prop}
    (hholds : R s) (hvalid : C.Valid s cells) (halign : request % 8 = 0)
    (hmin : 8 ≤ request) (hlow : C.smallestIndex request = .ok low)
    (hbeyond : C.emptyFrom s low = true → C.sizes[low + 1]? = none → Refused .outOfBounds)
    (hrequest : C.emptyFrom s low = true → ∀ limit, C.sizes[low + 1]? = some limit →
      C.Requests R Refused s cells (limit + metadataTotal)
        (requestBlock s (limit + metadataTotal))) :
    Ends (C.findBlock requestBlock s request) Refused (C.Served R s cells request) := by
  refine findBlock_rule (Q := fun outcome => Ends outcome Refused
    (C.Served R s cells request)) hvalid hlow ?_ hbeyond hrequest ?_
  · intro c i hchosen
    obtain ⟨result, hallocate, hserved⟩ := hchosen.serves hframe hholds hlow halign hmin
    rw [hallocate]
    exact hserved
  · intro base totalSize s' i hadded hholds' hchosen
    obtain ⟨result, hallocate, d, cells', haddr, hgranted, hholds''⟩ :=
      hchosen.serves hframe (hframe (s := s') rfl rfl hholds') hlow halign hmin
    simp only [regionBlock] at hallocate
    rw [hallocate]
    -- the cells of the region are new, so the grant is one to the old cells
    refine ⟨d, cells', haddr, ⟨hgranted.valid, hgranted.used, hgranted.room, ?_, ?_, ?_⟩, hholds''⟩
    · intro e hused
      rw [hgranted.held e hused, used_mem_region hused]
    · intro e he hused
      exact hgranted.apart e ((used_mem_region hused).mpr he) hused
    · intro e he hused at_ hlo hhi
      rw [hgranted.bytes e ((used_mem_region hused).mpr he) hused at_ hlo hhi]
      exact hadded.bytes e he at_ hlo hhi

end FindBlock

/-! Writing to a cell in use. -/

/-- Writing between the tags of a used cell keeps the heap valid. -/
lemma Valid.write_inside {s s' : State} {cells : List Cell} {d : Cell} (hvalid : C.Valid s cells)
    (hd : d ∈ cells) (hused : d.kind = .used) (hregions : s'.regions = s.regions)
    (hheads : s'.headBlock = s.headBlock)
    (hmemory : ∀ at_, at_ < d.address + 4 ∨ d.stop - 4 ≤ at_ → s'.memory at_ = s.memory at_) :
    C.Valid s' cells where
  arranged := by
    rw [hregions]
    exact hvalid.arranged
  tags c hc := by
    by_cases heq : c = d
    · subst heq
      refine (hvalid.tags c hc).congr ?_ ?_
      · apply load_congr
        intro at_ hlow hhigh
        exact (hmemory at_ (by omega)).symm
      · apply load_congr
        intro at_ hlow hhigh
        exact (hmemory at_ (by omega)).symm
    · have hapart := hvalid.arranged.apart_of_ne hc hd heq
      refine (hvalid.tags c hc).of_agree (hvalid.arranged.fits c hc).sizeMin ?_
      intro at_ hlow hhigh
      simp only [Apart] at hapart
      exact (hmemory at_ (by omega)).symm
  lists := by
    refine hvalid.lists.frame hheads ?_
    intro c hc at_ hlow hhigh
    have hroom := (hvalid.arranged.fits c hc.1).block (by simp [hc.2])
    have hapart := hvalid.arranged.apart_held ⟨hd, by simp [hused]⟩ hc
    simp only [Apart, Cell.stop] at hapart hmemory
    exact hmemory at_ (by omega)

/-- Writing into the granted cell keeps the grant. -/
lemma Granted.write {s s' s'' : State} {cells cells' : List Cell} {request size : Nat} {d : Cell}
    (hgranted : C.Granted s cells request s' cells' d) (hle : size ≤ request)
    (hregions : s''.regions = s'.regions) (hheads : s''.headBlock = s'.headBlock)
    (hmemory : ∀ at_, at_ < d.address + 4 ∨ d.stop - 4 ≤ at_ → s''.memory at_ = s'.memory at_) :
    C.Granted s cells size s'' cells' d where
  __ := hgranted
  valid := hgranted.valid.write_inside
    ((hgranted.held d hgranted.used).mpr (.inr rfl)) hgranted.used hregions hheads hmemory
  room := (Nat.add_le_add_right hle _).trans hgranted.room
  bytes c hc hused at_ hlow hhigh := by
    have hapart := hgranted.apart c hc hused
    have hroom := hgranted.room
    simp only [Apart] at hapart hmemory hroom hhigh
    rw [hmemory at_ (by omega)]
    exact hgranted.bytes c hc hused at_ hlow hhigh

end Classes

end Merlon.Heap
