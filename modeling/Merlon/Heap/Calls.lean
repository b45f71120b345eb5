/-
Taking a block off its list, whole or split, and giving one back.  Both keep
the heap valid and leave the bytes of the cells in use alone.
-/
import Merlon.Heap.AddBlock

namespace Merlon.Heap

open List Cell

/-- A block used as it is. -/
def Cell.taken (c : Cell) : Cell := { c with kind := .used }

/-- The two parts of a split block. -/
def Cell.lower (c : Cell) (totalSize : Nat) : Cell :=
  ⟨c.address, c.size - totalSize, .used⟩

def Cell.upper (c : Cell) (totalSize : Nat) : Cell :=
  ⟨c.address + (c.size - totalSize), totalSize, .used⟩

namespace Classes

open ByteMemory

variable {C : Classes} {cells : List Cell}

/-- Memory that changes outside all cells keeps the heap valid. -/
lemma Valid.frame {s s' : State} (hvalid : C.Valid s cells) (hregions : s'.regions = s.regions)
    (hheads : s'.headBlock = s.headBlock)
    (hmemory : ∀ c ∈ cells, ∀ at_, c.address ≤ at_ → at_ < c.stop → s'.memory at_ = s.memory at_) :
    C.Valid s' cells where
  arranged := by
    rw [hregions]
    exact hvalid.arranged
  tags c hc := (hvalid.tags c hc).of_agree (hvalid.arranged.fits c hc).sizeMin
    (fun at_ hlow hhigh => (hmemory c hc at_ hlow hhigh).symm)
  lists := by
    refine hvalid.lists.frame hheads ?_
    intro c hc at_ hlow hhigh
    have hroom := (hvalid.arranged.fits c hc.1).block (by simp [hc.2])
    exact hmemory c hc.1 at_ (by omega) (by simp only [stop]; omega)

/-! Taking one block. -/

lemma Valid.loose {s : State} {before after : List Cell}
    (hvalid : C.Valid s (before ++ after)) : C.Loose s before [] after where
  __ := hvalid
  arranged := by simpa using hvalid.arranged

lemma Valid.take_free {s : State} {before after : List Cell} {c : Cell} {index : Nat}
    (hvalid : C.Valid s (before ++ [c] ++ after)) (hfree : c.kind = .free)
    (hindex : C.index (c.size - metadataTotal) = .ok index) :
    ∃ s', removeBlock s index c.address = .ok s' ∧ C.Loose s' before [c] after ∧
    Keeps s s' (HeldIn (before ++ [c] ++ after)) := by
  obtain ⟨s', hremove, hloose, _, _, hkeeps⟩ := hvalid.loose.take_left hfree hindex
  exact ⟨s', hremove, hloose, hkeeps⟩

lemma Valid.take_held {s : State} {before after : List Cell} {c : Cell}
    (hvalid : C.Valid s (before ++ [c] ++ after)) (hheld : c.kind ≠ .free) :
    C.Loose s before [c] after where
  arranged := hvalid.arranged
  tags d hd := hvalid.tags d (by
    simp only [mem_append] at hd ⊢
    rcases hd with hd | hd <;> simp [hd])
  lists := by
    refine hvalid.lists.of_iff fun d => ?_
    simp only [FreeIn, mem_append, mem_singleton]
    constructor
    · rintro ⟨hd | hd, hkind⟩
      · exact ⟨.inl (.inl hd), hkind⟩
      · exact ⟨.inr hd, hkind⟩
    · rintro ⟨(hd | rfl) | hd, hkind⟩
      · exact ⟨.inl hd, hkind⟩
      · exact absurd hkind hheld
      · exact ⟨.inr hd, hkind⟩

/-- A settled held cell leaves the loose stretch. -/
lemma Loose.settle {s : State} {before old after : List Cell} {c : Cell}
    (hloose : C.Loose s before (old ++ [c]) after) (htagged : Tagged s.memory c)
    (hheld : c.kind ≠ .free) : C.Loose s before old (c :: after) where
  arranged := by
    have harranged := hloose.arranged
    simpa using harranged
  tags d hd := by
    simp only [mem_append, mem_cons] at hd
    rcases hd with hd | rfl | hd
    · exact hloose.tags d (by simp [hd])
    · exact htagged
    · exact hloose.tags d (by simp [hd])
  lists := by
    refine hloose.lists.of_iff fun d => ?_
    simp only [FreeIn, mem_append, mem_cons]
    constructor
    · rintro ⟨hd | rfl | hd, hkind⟩
      · exact ⟨.inl hd, hkind⟩
      · exact absurd hkind hheld
      · exact ⟨.inr hd, hkind⟩
    · rintro ⟨hd | hd, hkind⟩
      · exact ⟨.inl hd, hkind⟩
      · exact ⟨.inr (.inr hd), hkind⟩

/-- What handing out the block `d` for a request means. -/
structure Granted (C : Classes) (s : State) (cells : List Cell)
    (request : Nat) (s' : State) (cells' : List Cell) (d : Cell) : Prop where
  valid : C.Valid s' cells'
  used : d.kind = .used
  room : request + metadataTotal ≤ d.size
  held : ∀ c, c.kind = .used → (c ∈ cells' ↔ c ∈ cells ∨ c = d)
  apart : ∀ c ∈ cells, c.kind = .used → Apart c d
  bytes : ∀ c ∈ cells, c.kind = .used → ∀ at_, c.address ≤ at_ →
    at_ < c.stop → s'.memory at_ = s.memory at_

section AllocateBlock

variable {s s' : State} {before after : List Cell} {c : Cell}
  {index request : Nat} {left right : Cell} {totalSize : Nat}

/-- The block fits tightly and is used whole. -/
lemma Loose.take_whole (hloose : C.Loose s before [c] after) (hblock : c.kind ≠ .fence) :
    C.Valid (s.setMemory (markAllocated (setSizeTags s.memory c.address c.size) c.address))
    (before ++ [c.taken] ++ after) ∧
    Keeps s (s.setMemory (markAllocated (setSizeTags s.memory c.address c.size) c.address))
    (fun d => d ∈ before ++ after) := by
  have hfits := hloose.arranged.fits c (by simp)
  have hmin := hfits.sizeMin
  have halign := hfits.sizeAligned
  have hfits' : C.Fits c.taken := hfits.rekind hblock .used
  have hnew := Stretch.single (c := c.taken) (by simp [taken])
  have houtside : ∀ at_, at_ < c.address ∨ c.stop ≤ at_ →
      markAllocated (setSizeTags s.memory c.address c.size) c.address at_ = s.memory at_ := by
    intro at_ hat
    simp only [stop] at hat
    rw [markAllocated_apply _ (by omega), setSizeTags_apply halign (by omega) (by omega) hmin]
  obtain ⟨hloose', hkeeps⟩ := hloose.rewrite (.single hblock) hnew (by simpa using hfits')
    (calm_exchange hloose.arranged.calm (by simp [taken]) (by simp)) houtside
  refine ⟨hloose'.valid ?_ (by simp [taken]), hkeeps⟩
  intro d hd
  rw [mem_singleton.mp hd]
  have hsized : Sized (setSizeTags s.memory c.taken.address c.taken.size)
      c.taken := setSizeTags_sized _ hfits'
  exact hsized.tagged_markAllocated hmin (by simp [taken])

/-- The memory `AllocateBlock` writes for a split. -/
def splitMemory (memory : ByteMemory) (block leftover totalSize : Nat) :
    ByteMemory :=
  let memory := setSizeTags memory block leftover
  let memory := setSizeTags memory (block + leftover) totalSize
  let memory := markAllocated memory (block + leftover)
  markFree memory block

lemma splitMemory_outside {memory : ByteMemory} {block leftover at_ : Nat}
    (hleft : leftover % 8 = 0) (hleftMin : 8 ≤ leftover) (htotal : totalSize % 8 = 0)
    (htotalMin : 8 ≤ totalSize) (hat : at_ < block ∨ block + leftover + totalSize ≤ at_) :
    splitMemory memory block leftover totalSize at_ = memory at_ := by
  rw [splitMemory, markFree_apply _ (by omega), markAllocated_apply _ (by omega),
    setSizeTags_apply htotal (by omega) (by omega) htotalMin,
    setSizeTags_apply hleft (by omega) (by omega) hleftMin]

lemma splitMemory_lower (memory : ByteMemory) (hleft : C.Fits left) (hright : C.Fits right)
    (htouch : right.address = left.stop) :
    Sized (splitMemory memory left.address left.size right.size) left := by
  have hminLeft := hleft.sizeMin
  have hminRight := hright.sizeMin
  have halign := hright.sizeAligned
  refine (Sized.markFree ?_ hminLeft).1
  refine (setSizeTags_sized memory hleft).of_agree hminLeft ?_
  intro at_ hlow hhigh
  simp only [stop] at hhigh
  rw [markAllocated_apply _ (by omega), setSizeTags_apply halign (by omega) (by omega) hminRight]

lemma splitMemory_upper (memory : ByteMemory) (hleft : C.Fits left) (hright : C.Fits right)
    (htouch : right.address = left.stop) (hheld : right.kind ≠ .free) :
    Tagged (splitMemory memory left.address left.size right.size) right := by
  have hminLeft := hleft.sizeMin
  simp only [stop] at htouch
  have hsized := (setSizeTags_sized (setSizeTags memory left.address left.size)
    hright).tagged_markAllocated hright.sizeMin hheld
  refine hsized.of_agree hright.sizeMin ?_
  intro at_ hlow _
  rw [splitMemory, markFree_apply _ (by omega), htouch]

lemma Fits.split (hfits : C.Fits c) (htotal : totalSize % 8 = 0) (htotalMin : 16 ≤ totalSize)
    (hleft : 16 + totalSize ≤ c.size) :
    C.Fits (c.lower totalSize) ∧ C.Fits (c.upper totalSize) := by
  obtain ⟨hpos, haligned, hsize, _, _, hmax, htop⟩ := hfits
  simp only [stop] at htop
  constructor
  · refine ⟨hpos, haligned, ?_, ?_, fun _ => ?_, ?_, ?_⟩ <;> simp only [lower, stop] <;> omega
  · refine ⟨?_, ?_, htotal, ?_, fun _ => htotalMin, ?_, ?_⟩ <;> simp only [upper, stop] <;> omega

/-- The block is larger and its upper part is used. -/
lemma Loose.take_split (hloose : C.Loose s before [c] after) (hblock : c.kind ≠ .fence)
    (htotal : totalSize % 8 = 0) (htotalMin : 16 ≤ totalSize) (hleft : 16 + totalSize ≤ c.size) :
    C.Loose (s.setMemory (splitMemory s.memory c.address (c.size - totalSize) totalSize)) before
    [c.lower totalSize] (c.upper totalSize :: after) ∧
    Sized (splitMemory s.memory c.address (c.size - totalSize) totalSize) (c.lower totalSize) ∧
    Keeps s (s.setMemory (splitMemory s.memory c.address (c.size - totalSize) totalSize))
    (fun d => d ∈ before ++ after) := by
  have hfits := hloose.arranged.fits c (by simp)
  have halign := hfits.sizeAligned
  obtain ⟨hlower, hupper⟩ := hfits.split htotal htotalMin hleft
  have hnew : Stretch c.address c.stop ([c.lower totalSize] ++ [c.upper totalSize]) := by
    refine ⟨⟨rfl, rfl, ?_⟩, by simp, by simp [Blocks, lower, upper]⟩
    simp only [upper, Contiguous, stop]
    omega
  have houtside : ∀ at_, at_ < c.address ∨ c.stop ≤ at_ →
      splitMemory s.memory c.address (c.size - totalSize) totalSize at_ = s.memory at_ := by
    intro at_ hat
    simp only [stop] at hat
    exact splitMemory_outside (by omega) (by omega) htotal (by omega) (by omega)
  obtain ⟨hloose', hkeeps⟩ := hloose.rewrite (.single hblock) hnew (by simpa using ⟨hlower, hupper⟩)
    (calm_exchange hloose.arranged.calm (by simp [lower, upper]) (by simp)) houtside
  have htagged := splitMemory_upper s.memory hlower hupper rfl (by simp [upper])
  have hsized := splitMemory_lower s.memory hlower hupper rfl
  exact ⟨hloose'.settle htagged (by simp [upper]), hsized, hkeeps⟩

lemma allocateBlock_whole {blockSize : Nat} (hpos : c.address ≠ 0)
    (hsize : getSize s.memory c.address = .ok blockSize) (hle : request + metadataTotal ≤ blockSize)
    (htight : blockSize - (request + metadataTotal) < minReqSize + metadataTotal)
    (hremove : removeBlock s index c.address = .ok s') :
    C.allocateBlock s c.address index request = .ok (c.address,
      s'.setMemory (markAllocated (setSizeTags s'.memory c.address blockSize) c.address)) := by
  rw [allocateBlock, if_neg hpos]
  rw [hsize, ok_bind, if_neg (by omega), if_pos htight, hremove, ok_bind]

lemma allocateBlock_split {blockSize address : Nat} {s'' : State} (hpos : c.address ≠ 0)
    (hsize : getSize s.memory c.address = .ok blockSize) (hle : request + metadataTotal ≤ blockSize)
    (hloose : ¬ blockSize - (request + metadataTotal) < minReqSize + metadataTotal)
    (halign : (blockSize - (request + metadataTotal)) % 8 = 0)
    (hremove : removeBlock s index c.address = .ok s')
    (hadd : C.addBlock addBlockDepth (s'.setMemory (splitMemory s'.memory
      c.address (blockSize - (request + metadataTotal))
      (request + metadataTotal))) c.address = .ok (address, s'')) :
    C.allocateBlock s c.address index request =
      .ok (c.address + (blockSize - (request + metadataTotal)), s'') := by
  have hquarter : (blockSize - (request + metadataTotal)) / 4 * 4 =
      blockSize - (request + metadataTotal) := by omega
  rw [allocateBlock, if_neg hpos]
  dsimp only
  rw [hsize, ok_bind, if_neg (by omega), if_neg hloose, hremove, ok_bind]
  simp only [splitMemory] at hadd
  rw [hquarter, hadd, ok_bind]

lemma used_mem_iff {e : Cell} (hfree : c.kind = .free) (hused : e.kind = .used) :
    e ∈ before ++ [c] ++ after ↔ e ∈ before ++ after := by
  have hne : e ≠ c := by
    rintro rfl
    rw [hfree] at hused
    cases hused
  simp [hne]

/-- Bytes of the cells in use survive taking one block and rewriting it. -/
lemma bytes_of_take {s'' : State} (hfree : c.kind = .free)
    (htake : Keeps s s' (HeldIn (before ++ [c] ++ after)))
    (hrewrite : Keeps s' s'' (HeldIn (before ++ after))) : ∀ e ∈ before ++ [c] ++ after,
    e.kind = .used → ∀ at_, e.address ≤ at_ → at_ < e.stop → s''.memory at_ = s.memory at_ := by
  intro e he hused at_ hlow hhigh
  have hheld : e.kind ≠ .free := by simp [hused]
  rw [hrewrite.memory e ⟨(used_mem_iff hfree hused).mp he, hheld⟩ at_ hlow
    hhigh, htake.memory e ⟨he, hheld⟩ at_ hlow hhigh]

lemma Valid.apart_free (hvalid : C.Valid s (before ++ [c] ++ after)) (hfree : c.kind = .free) :
    ∀ e ∈ before ++ [c] ++ after, e.kind = .used → Apart e c :=
  fun e he hused => hvalid.arranged.apart_held ⟨he, by simp [hused]⟩ ⟨by simp, hfree⟩

/-- `AllocateBlock` on a free block of the heap. -/
structure Request (C : Classes) (s : State) (before : List Cell) (c : Cell)
    (after : List Cell) (index request : Nat) : Prop where
  valid : C.Valid s (before ++ [c] ++ after)
  free : c.kind = .free
  index : C.index (c.size - metadataTotal) = .ok index
  aligned : request % 8 = 0
  positive : 8 ≤ request
  room : request + metadataTotal ≤ c.size

/-- The block is taken, whole or in part. -/
abbrev Grants (C : Classes) (s : State) (before : List Cell) (c : Cell)
    (after : List Cell) (index request : Nat) : Prop :=
  ∃ d s' cells', C.allocateBlock s c.address index request = .ok (d.address, s') ∧
    C.Granted s (before ++ [c] ++ after) request s' cells' d ∧ Keeps s s' (fun _ => False)

section

variable (hrequest : C.Request s before c after index request)

include hrequest

lemma Request.grant_whole
    (htight : c.size - (request + metadataTotal) < minReqSize + metadataTotal) :
    C.Grants s before c after index request := by
  obtain ⟨hvalid, hfree, hindex, _, _, hroom⟩ := hrequest
  have hfits := hvalid.arranged.fits c (by simp)
  have hsize := (hvalid.tags c (by simp)).1.getSize
  obtain ⟨s', hremove, hloose, hkeeps⟩ := hvalid.take_free hfree hindex
  obtain ⟨hvalid', hkeeps'⟩ := hloose.take_whole (by simp [hfree])
  refine ⟨c.taken, _, _, allocateBlock_whole
      (Nat.pos_iff_ne_zero.mp hfits.positive) hsize hroom htight hremove,
    ⟨hvalid', rfl, hroom, ?_, hvalid.apart_free hfree,
      bytes_of_take hfree hkeeps (hkeeps'.mono fun e he => he.1)⟩,
    (hkeeps.mono fun _ h => h.elim).trans (hkeeps'.mono fun _ h => h.elim)⟩
  intro e hused
  rw [used_mem_iff hfree hused]
  simp only [mem_append, mem_singleton]
  tauto

lemma Request.grant_split (hloose : ¬ c.size - (request + metadataTotal) <
      minReqSize + metadataTotal) : C.Grants s before c after index request := by
  obtain ⟨hvalid, hfree, hindex, halign, hmin, hroom⟩ := hrequest
  have hfits := hvalid.arranged.fits c (by simp)
  have hcalign := hfits.sizeAligned
  have hsize := (hvalid.tags c (by simp)).1.getSize
  have hleft : 16 + (request + metadataTotal) ≤ c.size := by
    simp only [minReqSize, metadataTotal] at hloose hroom ⊢
    omega
  have hleftover : (c.size - (request + metadataTotal)) % 8 = 0 := by
    simp only [metadataTotal] at hroom ⊢
    omega
  obtain ⟨s', hremove, htaken, hkeeps⟩ := hvalid.take_free hfree hindex
  obtain ⟨hsplit, hsized, hkeeps'⟩ := htaken.take_split (by simp [hfree])
    (by simp only [metadataTotal]; omega) (by simp only [metadataTotal]; omega) hleft
  obtain ⟨address, s'', cells', hadd, hadded⟩ := addBlock_spec 2 hsplit (by simp [lower]) hsized
  have hwider : ∀ e, HeldIn (before ++ after) e →
      HeldIn (before ++ c.upper (request + metadataTotal) :: after) e := by
    rintro e ⟨he, hkind⟩
    refine ⟨?_, hkind⟩
    simp only [mem_append] at he ⊢
    tauto
  have hkeeps'' := (hkeeps'.mono
    (fun e (he : HeldIn (before ++ after) e) => he.1)).trans (hadded.keeps.mono hwider)
  refine ⟨c.upper (request + metadataTotal), s'', cells',
    allocateBlock_split (Nat.pos_iff_ne_zero.mp hfits.positive) hsize hroom
      hloose hleftover hremove hadd,
    ⟨hadded.valid, rfl, Nat.le_refl _, ?_, ?_, bytes_of_take hfree hkeeps hkeeps''⟩,
    (hkeeps.mono fun _ h => h.elim).trans (hkeeps''.mono fun _ h => h.elim)⟩
  · intro e hused
    have hheld := hadded.held e
    have hkind : e.kind ≠ .free := by simp [hused]
    simp only [HeldIn, hkind, ne_eq, not_false_eq_true, and_true] at hheld
    rw [hheld, used_mem_iff hfree hused]
    simp only [mem_append, mem_cons]
    tauto
  · intro e he hused
    have hapart := hvalid.apart_free hfree e he hused
    simp only [Apart, upper, stop] at hapart ⊢
    omega

lemma allocateBlock_spec : C.Grants s before c after index request := by
  by_cases htight : c.size - (request + metadataTotal) < minReqSize + metadataTotal
  · exact hrequest.grant_whole htight
  · exact hrequest.grant_split htight

end

end AllocateBlock

/-! Giving a block back. -/

lemma Valid.count {s : State} (hvalid : C.Valid s cells) (count : Int) :
    C.Valid { s with outstandingAllocations := count } cells where
  __ := hvalid
  lists := hvalid.lists.frame rfl (fun _ _ _ _ _ => rfl)

/-- What giving a cell back does. -/
structure Returned (C : Classes) (s : State) (cells : List Cell) (c : Cell)
    (s' : State) (cells' : List Cell) : Prop where
  valid : C.Valid s' cells'
  held : ∀ d, d.kind = .used → (d ∈ cells' ↔ d ∈ cells ∧ d ≠ c)
  bytes : ∀ d ∈ cells, d.kind = .used → d ≠ c → ∀ at_, d.address ≤ at_ →
    at_ < d.stop → s'.memory at_ = s.memory at_
  regions : s'.regions = s.regions
  reserveBlocks : s'.reserveBlocks = s.reserveBlocks

/-- Giving back a cell in use: its links are cleared and `AddBlock` takes it. -/
lemma giveBack_spec {s : State} {c : Cell} (hvalid : C.Valid s cells) (hc : c ∈ cells)
    (hused : c.kind = .used) :
    ∃ address s' cells', C.addBlock addBlockDepth (s.setMemory (clearLinks s.memory c.address))
    c.address = .ok (address, s') ∧ C.Returned s cells c s' cells' := by
  obtain ⟨before, after, rfl⟩ := append_of_mem hc
  rw [← singleton_append, ← append_assoc] at hvalid
  have hfits := hvalid.arranged.fits c (by simp)
  have hroom := hfits.block (by simp [hused])
  have hloose := hvalid.take_held (by simp [hused])
  have hold : Stretch c.address c.stop [c] := .single (by simp [hused])
  have houtside : ∀ at_, at_ < c.address ∨ c.stop ≤ at_ →
      clearLinks s.memory c.address at_ = s.memory at_ := by
    intro at_ hat
    simp only [stop] at hat
    exact clearLinks_apply _ (by omega)
  obtain ⟨hcleared, hkeeps⟩ := hloose.rewrite hold hold
    (by simpa using hfits) hloose.arranged.calm houtside
  have hsized := (hvalid.tags c (by simp)).1.clearLinks hroom
  obtain ⟨address, s', cells', hadd, hadded⟩ := addBlock_spec 2 hcleared (by simp [hused]) hsized
  have hnodup := hvalid.arranged.nodup
  rw [append_assoc, singleton_append, nodup_middle, nodup_cons] at hnodup
  have hmem : ∀ d, d ∈ before ++ c :: after ∧ d ≠ c ↔ d ∈ before ++ after := by
    intro d
    constructor
    · rintro ⟨hd, hne⟩
      simpa [hne] using hd
    · intro hd
      exact ⟨by simp only [mem_append] at hd ⊢; tauto, fun heq => hnodup.1 (heq ▸ hd)⟩
  refine ⟨address, s', cells', hadd, hadded.valid, ?_, ?_,
    hadded.keeps.regions, hadded.keeps.reserveBlocks⟩
  · intro d hd
    have hheld := hadded.held d
    have hkind : d.kind ≠ .free := by simp [hd]
    simp only [HeldIn, hkind, ne_eq, not_false_eq_true, and_true] at hheld
    rw [hheld, hmem]
  · intro d hd hkind hne at_ hlow hhigh
    have hin := (hmem d).mp ⟨hd, hne⟩
    rw [hadded.keeps.memory d ⟨hin, by simp [hkind]⟩ at_ hlow hhigh,
      hkeeps.memory d hin at_ hlow hhigh]

end Classes

end Merlon.Heap
