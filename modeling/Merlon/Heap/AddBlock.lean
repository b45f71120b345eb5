/-
`AddBlock`: a block that is on no free list is merged with its free
neighbours and pushed on the list of its size.  A stretch of blocks is taken
loose, its free neighbours are taken into the stretch one by one, and the
stretch is written back as one block.
-/
import Merlon.Heap.FreeLists

namespace Merlon.Heap

namespace Classes

open ByteMemory List Cell Option

variable {C : Classes} {regions : List (Nat × Nat)} {s' : State} {d : Cell}
  {cells : List Cell} {new : List Cell}

/-! Exchanging a stretch of cells. -/

variable {before old after front rear : List Cell}
  {low high index : Nat} {s : State} {c left right : Cell}

lemma Fits.rekind (hfits : C.Fits c) (hblock : c.kind ≠ .fence)
    (kind : CellKind) : C.Fits { c with kind } :=
  { hfits with block := fun _ => hfits.block hblock }

/-- No two free cells touch. -/
abbrev Calm (cells : List Cell) : Prop :=
  cells.IsChain fun left right => left.kind ≠ .free ∨ right.kind ≠ .free

/-- Cells that are not free break no pair of free neighbours. -/
lemma calm_exchange (hcalm : Calm (before ++ old ++ after))
    (hnew : ∀ c ∈ new, c.kind ≠ .free) (hne : new ≠ []) : Calm (before ++ new ++ after) := by
  have hbefore := hcalm.left_of_append.left_of_append
  have hafter := hcalm.right_of_append
  refine (hbefore.append ?_ ?_).append hafter ?_
  · exact (pairwise_iff_forall_sublist.mpr fun {c d} hsub =>
      .inl (hnew c (hsub.subset (by simp)))).isChain
  · intro left _ right hright
    exact .inr (hnew right (mem_of_mem_head? hright))
  · intro left hleft right _
    rw [getLast?_append_of_ne_nil _ hne] at hleft
    exact .inl (hnew left (mem_of_getLast? hleft))

/-- Blocks that fill the range from `low` to `high`. -/
structure Stretch (low high : Nat) (cells : List Cell) : Prop where
  contiguous : Contiguous low high cells
  ne_nil : cells ≠ []
  blocks : Blocks cells

lemma Stretch.single (hblock : c.kind ≠ .fence) : Stretch c.address c.stop [c] :=
  ⟨⟨rfl, rfl⟩, by simp, by simpa [Blocks] using hblock⟩

lemma mem_around (old : List Cell) (hd : d ∈ before ++ after) : d ∈ before ++ old ++ after := by
  simp only [mem_append] at hd ⊢
  rcases hd with hd | hd <;> simp [hd]

section

variable (harranged : C.Arranged regions (before ++ old ++ after))
include harranged

lemma Arranged.outside
    (hold : Stretch low high old) (hd : d ∈ before ++ after) : d.stop ≤ low ∨ high ≤ d.address := by
  have hpair := harranged.apart
  have hsize := (harranged.fits d (mem_around old hd)).sizeMin
  apply hold.contiguous.outside hold.ne_nil (by omega)
  intro c hc
  rw [append_assoc, pairwise_append, pairwise_append] at hpair
  obtain ⟨_, ⟨_, _, hcd⟩, hdc⟩ := hpair
  rcases mem_append.mp hd with hd | hd
  · exact hdc d hd c (mem_append_left _ hc)
  · exact (hcd c hc d hd).symm

/-- Another stretch over the same range. -/
lemma Arranged.exchange
    (hold : Stretch low high old) (hnew : Stretch low high new) (hfits : ∀ c ∈ new, C.Fits c)
    (hcalm : Calm (before ++ new ++ after)) : C.Arranged regions (before ++ new ++ after) where
  __ := harranged
  tiled := harranged.tiled.exchange hold.contiguous hnew.contiguous hold.ne_nil
    hold.blocks hnew.blocks
  fits c hc := by
    simp only [mem_append] at hc
    rcases hc with (hc | hc) | hc
    · exact harranged.fits c (by simp [hc])
    · exact hfits c hc
    · exact harranged.fits c (by simp [hc])
  apart := by
    have hpair := harranged.apart
    rw [append_assoc, pairwise_append, pairwise_append] at hpair ⊢
    obtain ⟨hbefore, ⟨_, hafter, _⟩, hacross⟩ := hpair
    refine ⟨hbefore, ⟨hnew.contiguous.pairwise_apart, hafter, ?_⟩, ?_⟩
    · intro c hc d hd
      have hrange := hnew.contiguous.mem_range hc
      have hout := harranged.outside hold (mem_append_right before hd)
      simp only [Apart]
      omega
    · intro d hd c hc
      rcases mem_append.mp hc with hc | hc
      · have hrange := hnew.contiguous.mem_range hc
        have hout := harranged.outside hold (mem_append_left after hd)
        simp only [Apart]
        omega
      · exact hacross d hd c (mem_append_right _ hc)
  calm := hcalm

end

/-! What a step leaves alone. -/

/-- The reserve blocks stay and so does every byte of the cells of `Kept`. -/
structure Keeps (s s' : State) (Kept : Cell → Prop) : Prop where
  regions : s'.regions = s.regions
  reserveBlocks : s'.reserveBlocks = s.reserveBlocks
  outstanding : s'.outstandingAllocations = s.outstandingAllocations
  memory : ∀ c, Kept c → ∀ at_, c.address ≤ at_ → at_ < c.stop → s'.memory at_ = s.memory at_

lemma Keeps.trans {s'' : State} {Kept : Cell → Prop}
    (hfirst : Keeps s s' Kept) (hsecond : Keeps s' s'' Kept) : Keeps s s'' Kept where
  regions := hsecond.regions.trans hfirst.regions
  reserveBlocks := hsecond.reserveBlocks.trans hfirst.reserveBlocks
  outstanding := hsecond.outstanding.trans hfirst.outstanding
  memory c hc at_ hlow hhigh := (hsecond.memory c hc at_ hlow hhigh).trans
    (hfirst.memory c hc at_ hlow hhigh)

lemma Keeps.mono {Kept Fewer : Cell → Prop}
    (hkeeps : Keeps s s' Kept) (hsub : ∀ c, Fewer c → Kept c) : Keeps s s' Fewer :=
  ⟨hkeeps.regions, hkeeps.reserveBlocks, hkeeps.outstanding,
    fun c hc => hkeeps.memory c (hsub c hc)⟩

lemma LinksChanged.keeps {Free Kept : Cell → Prop} (hchanged : LinksChanged s s' Free)
    (hlink : C.Linkable Free) (hapart : ∀ c, Kept c → ∀ d, Free d → Apart c d) : Keeps s s' Kept :=
  ⟨hchanged.regions, hchanged.reserveBlocks, hchanged.outstanding, fun c hc _ hlow hhigh =>
      hchanged.bytes hlink (hapart c hc) hlow hhigh⟩

/-- The cells of a layout that are not free. -/
def HeldIn (cells : List Cell) (c : Cell) : Prop :=
  c ∈ cells ∧ c.kind ≠ .free

lemma Arranged.apart_held (harranged : C.Arranged regions cells) (hc : HeldIn cells c)
    (hd : FreeIn cells d) : Apart c d := by
  apply harranged.apart_of_ne hc.1 hd.1
  rintro rfl
  exact hc.2 hd.2

/-! C.Loose stretches. -/

lemma Arranged.nodup (harranged : C.Arranged regions cells) : cells.Nodup := by
  refine harranged.apart.imp_of_mem ?_
  rintro c d hc _ hapart rfl
  have hsize := (harranged.fits c hc).sizeMin
  simp only [Apart, stop] at hapart
  omega

/-- A free block next to the loose stretch is taken off its list and into the
stretch. -/
lemma Loose.take {before' old' after' : List Cell} (hloose : C.Loose s before old after)
    (hfree : c.kind = .free) (hindex : C.index (c.size - metadataTotal) = .ok index)
    (hcells : before ++ old ++ after = before' ++ old' ++ after')
    (haround : before ++ after = front ++ c :: rear)
    (haround' : before' ++ after' = front ++ rear) : ∃ s', removeBlock s index c.address = .ok s' ∧
    C.Loose s' before' old' after' ∧ Sized s'.memory c ∧
    (∀ d ∈ old, Sized s.memory d → Sized s'.memory d) ∧ Keeps s s' (HeldIn (before ++ after)) := by
  have hsub : ∀ d ∈ before ++ after, d ∈ before ++ old ++ after := fun _ => mem_around old
  have hc : FreeIn (before ++ after) c := ⟨by simp [haround], hfree⟩
  have hrest : ∀ d, d ∈ before' ++ after' ↔ d ∈ before ++ after ∧ d ≠ c := by
    have hnodup : (before ++ after).Nodup := hloose.arranged.nodup.sublist
      ((sublist_append_left before old).append_right after)
    intro d
    rw [haround, nodup_middle, nodup_cons] at hnodup
    rw [haround, haround', mem_append, mem_append, mem_cons]
    refine ⟨fun hd => ⟨hd.imp_right .inr, ?_⟩, ?_⟩
    · rintro rfl
      exact hnodup.1 (mem_append.mpr hd)
    · rintro ⟨hd | hd | hd, hne⟩
      · exact .inl hd
      · exact absurd hd hne
      · exact .inr hd
  have hlink : C.Linkable (FreeIn (before ++ after)) :=
    hloose.arranged.linkable.mono (fun d hd => ⟨hsub d hd.1, hd.2⟩)
  obtain ⟨s', hremove, hlists, hchanged⟩ := removeBlock_spec hlink hloose.lists hc hindex
  have hlink' := hlink.mono (fun d (hd : FreeIn (before ++ after) d ∧ d ≠ c) => hd.1)
  have hstill : ∀ d, FreeIn (before ++ after) d ∧ d ≠ c →
      FreeIn (before ++ old ++ after) d := fun d hd => ⟨hsub d hd.1.1, hd.1.2⟩
  have hapart : ∀ d ∈ before ++ old ++ after, ∀ e,
      FreeIn (before ++ after) e ∧ e ≠ c → e = d ∨ Apart d e := by
    intro d hd e he
    by_cases heq : e = d
    · exact .inl heq
    · exact .inr (hloose.arranged.apart_of_ne hd (hstill e he).1 (Ne.symm heq))
  refine ⟨s', hremove, ⟨?_, ?_, ?_⟩, ?_, ?_, ?_⟩
  · rw [hchanged.regions, ← hcells]
    exact hloose.arranged
  · intro d hd
    have hdin := ((hrest d).mp hd).1
    exact hchanged.tagged hlink' (hloose.arranged.fits d (hsub d hdin))
      (hapart d (hsub d hdin)) (hloose.tags d hdin)
  · refine hlists.of_iff fun d => ?_
    simp only [FreeIn, hrest d]
    tauto
  · exact hchanged.sized hlink' (hloose.arranged.fits c (hsub c hc.1))
      (hapart c (hsub c hc.1)) (hloose.tags c hc.1).1
  · intro d hd
    have hdin : d ∈ before ++ old ++ after := by simp [hd]
    exact hchanged.sized hlink' (hloose.arranged.fits d hdin) (hapart d hdin)
  · exact hchanged.keeps hlink' fun d hd e he =>
      hloose.arranged.apart_held ⟨hsub d hd.1, hd.2⟩ (hstill e he)

lemma Loose.take_left (hloose : C.Loose s (front ++ [left]) old after) (hfree : left.kind = .free)
    (hindex : C.index (left.size - metadataTotal) = .ok index) :
    ∃ s', removeBlock s index left.address = .ok s' ∧ C.Loose s' front (left :: old) after ∧
    Sized s'.memory left ∧ (∀ d ∈ old, Sized s.memory d → Sized s'.memory d) ∧
    Keeps s s' (HeldIn (front ++ [left] ++ after)) :=
  hloose.take hfree hindex (by simp) (by simp) rfl

lemma Loose.take_right (hloose : C.Loose s before old (right :: rear))
    (hfree : right.kind = .free) (hindex : C.index (right.size - metadataTotal) = .ok index) :
    ∃ s', removeBlock s index right.address = .ok s' ∧ C.Loose s' before (old ++ [right]) rear ∧
    Sized s'.memory right ∧ (∀ d ∈ old, Sized s.memory d → Sized s'.memory d) ∧
    Keeps s s' (HeldIn (before ++ right :: rear)) :=
  hloose.take hfree hindex (by simp) rfl rfl

/-- Writing inside the stretch and cutting it anew keeps it loose. -/
lemma Loose.rewrite {memory : ByteMemory} (hloose : C.Loose s before old after)
    (hold : Stretch low high old) (hnew : Stretch low high new) (hfits : ∀ c ∈ new, C.Fits c)
    (hcalm : Calm (before ++ new ++ after))
    (houtside : ∀ at_, at_ < low ∨ high ≤ at_ → memory at_ = s.memory at_) :
    C.Loose (s.setMemory memory) before new after ∧
    Keeps s (s.setMemory memory) (fun c => c ∈ before ++ after) := by
  have hsame : ∀ c ∈ before ++ after, ∀ at_, c.address ≤ at_ →
      at_ < c.stop → memory at_ = s.memory at_ := by
    intro c hc at_ hlow hhigh
    have hout := hloose.arranged.outside hold hc
    exact houtside at_ (by omega)
  have hsub : ∀ d ∈ before ++ after, d ∈ before ++ old ++ after := fun _ => mem_around old
  refine ⟨⟨?_, ?_, ?_⟩, rfl, rfl, rfl, hsame⟩
  · exact hloose.arranged.exchange hold hnew hfits hcalm
  · intro c hc
    exact (hloose.tags c hc).of_agree (hloose.arranged.fits c (hsub c hc)).sizeMin
      (fun at_ hlow hhigh => (hsame c hc at_ hlow hhigh).symm)
  · refine hloose.lists.frame rfl ?_
    intro c hc at_ hlow hhigh
    have hmin := (hloose.arranged.fits c (hsub c hc.1)).block (by simp [hc.2])
    exact hsame c hc.1 at_ (by omega) (by simp only [stop]; omega)

/-- With settled tags and nothing free in the stretch the heap is valid. -/
lemma Loose.valid (hloose : C.Loose s before new after) (htags : ∀ c ∈ new, Tagged s.memory c)
    (hheld : ∀ c ∈ new, c.kind ≠ .free) : C.Valid s (before ++ new ++ after) where
  arranged := hloose.arranged
  tags c hc := by
    simp only [mem_append] at hc
    rcases hc with (hc | hc) | hc
    · exact hloose.tags c (by simp [hc])
    · exact htags c hc
    · exact hloose.tags c (by simp [hc])
  lists := by
    refine hloose.lists.of_iff fun c => ?_
    simp only [FreeIn, mem_append]
    constructor
    · rintro ⟨(hc | hc) | hc, hkind⟩
      · exact ⟨.inl hc, hkind⟩
      · exact absurd hkind (hheld c hc)
      · exact ⟨.inr hc, hkind⟩
    · rintro ⟨hc | hc, hkind⟩
      · exact ⟨.inl (.inl hc), hkind⟩
      · exact ⟨.inr hc, hkind⟩

/-! Writing a stretch back as one block. -/

lemma setSizeTags_sized (memory : ByteMemory) (hfits : C.Fits c) :
    Sized (setSizeTags memory c.address c.size) c := by
  have hmin := hfits.sizeMin
  have halign := hfits.sizeAligned
  have hmax := hfits.sizeMax.trans_lt C.limit_lt
  refine ⟨?_, setSizeTags_last halign (by omega)⟩
  rw [setSizeTags_first halign hmin (by omega)]
  omega

lemma mergeInto_outside (hfits : C.Fits c) (hroom : 16 ≤ c.size) {at_ : Nat}
    (hat : at_ < c.address ∨ c.stop ≤ at_) :
    (mergeInto s c.address c.size).memory at_ = s.memory at_ := by
  have halign := hfits.sizeAligned
  simp only [stop] at hat
  simp only [mergeInto, State.setMemory]
  rw [markFree_apply _ (by omega), clearLinks_apply _ (by omega),
    setSizeTags_apply halign (by omega) (by omega) (by omega)]

lemma mergeInto_sized (hfits : C.Fits c) (hroom : 16 ≤ c.size) :
    Sized (mergeInto s c.address c.size).memory c :=
  (((setSizeTags_sized _ hfits).clearLinks hroom).markFree (by omega)).1

/-- The block that covers a whole stretch. -/
def joined (low high : Nat) : Cell := ⟨low, high - low, .used⟩

lemma joined_stop (hle : low ≤ high) : (joined low high).stop = high := by
  simp only [joined, stop]
  omega

lemma joined_fits (harranged : C.Arranged regions (before ++ old ++ after))
    (hold : Stretch low high old) : C.Fits (joined low high) ∧ 16 ≤ (joined low high).size := by
  obtain ⟨hold, hne, hblocks⟩ := hold
  have hle := hold.low_le_high
  have hfits : ∀ c ∈ old, C.Fits c := fun c hc => harranged.fits c (by simp [hc])
  have halign := hold.size_aligned (fun c hc => (hfits c hc).sizeAligned)
  obtain ⟨first, rest, rfl⟩ := exists_cons_of_ne_nil hne
  have hfirst := hfits first mem_cons_self
  have hroom := hfirst.block (hblocks first mem_cons_self)
  have hrange := hold.2.low_le_high
  obtain rfl : first.address = low := hold.1
  have hjoined : Contiguous first.address high [joined first.address high] := ⟨rfl, joined_stop hle⟩
  have htiled := harranged.tiled.exchange hold hjoined hne hblocks (by simp [Blocks, joined])
  obtain ⟨base, size, hregion, hlow, hhigh, _⟩ :=
    htiled.in_region (mem_append_left _ (mem_append_right _ (mem_singleton_self _)))
  have hmax := harranged.regionMax _ hregion
  obtain ⟨_, htop⟩ := harranged.regionTop _ hregion
  rw [joined_stop hle] at hhigh
  have hmin : 16 ≤ (joined first.address high).size := by
    simp only [joined, stop] at hrange ⊢
    omega
  refine ⟨⟨hfirst.positive, hfirst.aligned, halign, by omega, fun _ => hmin, ?_, ?_⟩, hmin⟩
  · simp only [joined] at hlow hmax ⊢
    omega
  · rw [joined_stop hle]
    exact hhigh.trans htop

/-- `AddBlock`'s merging step: the stretch becomes one block. -/
lemma Loose.merge (hloose : C.Loose s before old after) (hold : Stretch low high old) :
    C.Loose (mergeInto s low (high - low)) before [joined low high] after ∧
    Sized (mergeInto s low (high - low)).memory (joined low high) ∧
    Keeps s (mergeInto s low (high - low)) (fun c => c ∈ before ++ after) := by
  obtain ⟨hfits, hroom⟩ := joined_fits hloose.arranged hold
  have hstop := joined_stop hold.contiguous.low_le_high
  have hjoined : Stretch low high [joined low high] :=
    ⟨⟨rfl, hstop⟩, by simp, by simp [Blocks, joined]⟩
  have houtside : ∀ at_, at_ < low ∨ high ≤ at_ →
      (mergeInto s low (high - low)).memory at_ = s.memory at_ := by
    intro at_ hat
    exact mergeInto_outside hfits hroom (by rwa [hstop])
  obtain ⟨hnew, hkeeps⟩ := hloose.rewrite hold hjoined (by simpa using hfits)
    (calm_exchange hloose.arranged.calm (by simp [joined]) (by simp)) houtside
  have hsized := mergeInto_sized (s := s) hfits hroom
  exact ⟨hnew, hsized, hkeeps⟩

lemma calm_between {b : Cell} (hcalm : Calm (front ++ [left] ++ [b] ++ right :: rear))
    (hleft : left.kind ≠ .free) (hright : right.kind ≠ .free) (c : Cell) :
    Calm (front ++ [left] ++ [c] ++ right :: rear) := by
  refine (hcalm.left_of_append.left_of_append.append
    (List.IsChain.singleton c) ?_).append hcalm.right_of_append ?_
  · intro last hlast _ _
    simp only [getLast?_append, getLast?_singleton, some_or, mem_def, some.injEq] at hlast
    exact .inl (hlast ▸ hleft)
  · intro _ _ first hfirst
    simp only [head?_cons, mem_def, some.injEq] at hfirst
    exact .inr (hfirst ▸ hright)

/-- A loose free block goes on the list of its size. -/
lemma Loose.insert {b : Cell} (hloose : C.Loose s before [b] after) (hfree : b.kind = .free)
    (hsized : Sized s.memory b) (hindex : C.index (b.size - metadataTotal) = .ok index) :
    C.Valid (insertBlock s index b.address) (before ++ [b] ++ after) ∧
    Keeps s (insertBlock s index b.address) (HeldIn (before ++ after)) := by
  have harranged := hloose.arranged
  have hnodup := harranged.nodup
  rw [append_assoc, singleton_append, nodup_middle, nodup_cons] at hnodup
  have hnew : ¬ FreeIn (before ++ after) b := fun hb => hnodup.1 hb.1
  have hiff : ∀ d, FreeIn (before ++ [b] ++ after) d ↔ FreeIn (before ++ after) d ∨ d = b := by
    intro d
    simp only [FreeIn, mem_append, mem_singleton]
    constructor
    · rintro ⟨(hd | hd) | hd, hkind⟩
      · exact .inl ⟨.inl hd, hkind⟩
      · exact .inr hd
      · exact .inl ⟨.inr hd, hkind⟩
    · rintro (⟨hd | hd, hkind⟩ | rfl)
      · exact ⟨.inl (.inl hd), hkind⟩
      · exact ⟨.inr hd, hkind⟩
      · exact ⟨.inl (.inr rfl), hfree⟩
  have hlink : C.Linkable (fun d => FreeIn (before ++ after) d ∨ d = b) :=
    harranged.linkable.mono (fun d hd => (hiff d).mpr hd)
  obtain ⟨hlists, hchanged⟩ := pushBlock_spec hlink hnew hloose.lists hindex
  have hb : b ∈ before ++ [b] ++ after := by simp
  have hmin := (harranged.fits b hb).sizeMin
  have hapart : ∀ d ∈ before ++ [b] ++ after, ∀ e,
      FreeIn (before ++ after) e ∨ e = b → e = d ∨ Apart d e := by
    intro d hd e he
    by_cases heq : e = d
    · exact .inl heq
    · exact .inr (harranged.apart_of_ne hd ((hiff e).mpr he).1 (Ne.symm heq))
  -- the flag of the block is all that differs from the pushed state
  have hflag : ∀ at_, at_ < b.address ∨ b.address + 4 ≤ at_ →
      (insertBlock s index b.address).memory at_ = (pushBlock s index b.address).memory at_ :=
    fun at_ hat => markFree_apply _ hat
  have hother : ∀ d ∈ before ++ after, d ∈ before ++ [b] ++ after ∧ Apart d b := by
    intro d hd
    have hmem := mem_around [b] hd
    exact ⟨hmem, harranged.apart_of_ne hmem hb (fun heq => hnodup.1 (heq ▸ hd))⟩
  have hflagOther : ∀ d ∈ before ++ after, ∀ at_, d.address ≤ at_ → at_ < d.stop →
      (insertBlock s index b.address).memory at_ = (pushBlock s index b.address).memory at_ := by
    intro d hd at_ hlow hhigh
    have hdb := (hother d hd).2
    simp only [Apart, stop] at hdb hhigh
    exact hflag at_ (by omega)
  have hbSized : Sized (pushBlock s index b.address).memory b :=
    hchanged.sized hlink (harranged.fits b hb) (hapart b hb) hsized
  refine ⟨⟨harranged, ?_, ?_⟩, rfl, rfl, rfl, ?_⟩
  · intro d hd
    by_cases heq : d = b
    · subst heq
      obtain ⟨hsize, hmark⟩ := hbSized.markFree hmin
      refine ⟨hsize, ?_⟩
      rw [insertBlock_eq]
      simp only [State.setMemory, hmark, hfree]
      simp
    · have hin : d ∈ before ++ after := by
        simp only [mem_append, mem_singleton] at hd ⊢
        rcases hd with (hd | hd) | hd
        · exact .inl hd
        · exact absurd hd heq
        · exact .inr hd
      exact (hchanged.tagged hlink (harranged.fits d hd) (hapart d hd) (hloose.tags d hin)).of_agree
        (harranged.fits d hd).sizeMin (fun at_ hlow hhigh => (hflagOther d hin at_ hlow hhigh).symm)
  · refine (hlists.of_iff hiff).frame rfl ?_
    intro d hd at_ hlow hhigh
    apply hflag
    rcases (hiff d).mp hd with hd' | rfl
    · have hfar := hlink.far (.inl hd') (.inr rfl) (fun heq => hnew (heq ▸ hd'))
      omega
    · omega
  · intro d hd at_ hlow hhigh
    rw [hflagOther d hd.1 at_ hlow hhigh]
    refine hchanged.bytes hlink ?_ hlow hhigh
    intro e he
    exact harranged.apart_held ⟨(hother d hd.1).1, hd.2⟩ ((hiff e).mpr he)

/-! The whole of `AddBlock`. -/

/-- What `AddBlock` reads of the block and its neighbours. -/
structure Surroundings (C : Classes) (s : State) (left b right : Cell) (index : Nat) : Prop where
  size : getSize s.memory b.address = .ok b.size
  index : C.index (subSize b.size metadataTotal) = .ok index
  prev : b.address - s.memory.load (b.address - 4) / 4 * 4 = left.address
  next : b.address + b.size / 4 * 4 = right.address
  prevHeld : isAllocated s.memory left.address = true ↔ left.kind ≠ .free
  nextHeld : isAllocated s.memory right.address = true ↔ right.kind ≠ .free

lemma Loose.surroundings {b : Cell} (hloose : C.Loose s (front ++ [left]) [b] (right :: rear))
    (hsized : Sized s.memory b) (hleft : left.stop = b.address) (hright : b.stop = right.address)
    (hindex : C.index (b.size - metadataTotal) = .ok index) :
    C.Surroundings s left b right index := by
  have hb := hloose.arranged.fits b (by simp)
  have hl := hloose.arranged.fits left (by simp)
  have hltag := hloose.tags left (by simp)
  have hrtag := hloose.tags right (by simp)
  refine ⟨hsized.getSize, ?_, ?_, ?_, hltag.isAllocated, hrtag.isAllocated⟩
  · rwa [hb.subSize]
  · rw [← hleft]
    exact hltag.load_last hl.sizeAligned
  · have halign := hb.sizeAligned
    rw [← hright, stop]
    omega

section AddBlockCases

variable {s : State} {left b right : Cell} {index : Nat} (fuel : Nat)
  (hsee : C.Surroundings s left b right index)

include hsee

lemma addBlock_held (hleft : left.kind ≠ .free) (hright : right.kind ≠ .free) :
    C.addBlock (fuel + 1) s b.address = .ok (b.address, insertBlock s index b.address) := by
  rw [addBlock, hsee.size, ok_bind, hsee.index, ok_bind]
  rw [hsee.prev, hsee.next, if_pos ⟨hsee.prevHeld.mpr hleft, hsee.nextHeld.mpr hright⟩]

lemma Surroundings.not_prev (hleft : left.kind = .free) :
    isAllocated s.memory left.address ≠ true :=
  fun hheld => hsee.prevHeld.mp hheld hleft

lemma Surroundings.not_next (hright : right.kind = .free) :
    isAllocated s.memory right.address ≠ true :=
  fun hheld => hsee.nextHeld.mp hheld hright

lemma addBlock_right {nextIndex : Nat} (hleft : left.kind ≠ .free) (hright : right.kind = .free)
    (hsize : getSize s.memory right.address = .ok right.size)
    (hindex : C.index (subSize right.size metadataTotal) = .ok nextIndex)
    (hremove : removeBlock s nextIndex right.address = .ok s')
    (hsize' : getSize s'.memory right.address = .ok right.size) :
    C.addBlock (fuel + 1) s b.address =
      C.addBlock fuel (mergeInto s' b.address (b.size + right.size)) b.address := by
  rw [addBlock, hsee.size, ok_bind, hsee.index, ok_bind]
  rw [hsee.prev, hsee.next, if_neg (fun hboth => hsee.not_next hright hboth.2),
    if_pos (hsee.prevHeld.mpr hleft), hsize, ok_bind, hindex, ok_bind,
    hremove, ok_bind, hsize', ok_bind]

lemma addBlock_left {prevIndex : Nat} (hleft : left.kind = .free) (hright : right.kind ≠ .free)
    (hsize : getSize s.memory left.address = .ok left.size)
    (hindex : C.index (subSize left.size metadataTotal) = .ok prevIndex)
    (hremove : removeBlock s prevIndex left.address = .ok s')
    (hsize' : getSize s'.memory left.address = .ok left.size) :
    C.addBlock (fuel + 1) s b.address =
      C.addBlock fuel (mergeInto s' left.address (b.size + left.size)) left.address := by
  rw [addBlock, hsee.size, ok_bind, hsee.index, ok_bind]
  rw [hsee.prev, hsee.next, if_neg (fun hboth => hsee.not_prev hleft hboth.1),
    if_neg (hsee.not_prev hleft), if_pos (hsee.nextHeld.mpr hright), hsize,
    ok_bind, hindex, ok_bind, hremove, ok_bind, hsize', ok_bind]

lemma addBlock_both {s'' : State} {prevIndex nextIndex : Nat}
    (hleft : left.kind = .free) (hright : right.kind = .free)
    (hsize : getSize s.memory left.address = .ok left.size)
    (hindex : C.index (subSize left.size metadataTotal) = .ok prevIndex)
    (hremove : removeBlock s prevIndex left.address = .ok s')
    (hnextSize : getSize s'.memory right.address = .ok right.size)
    (hnextIndex : C.index (subSize right.size metadataTotal) = .ok nextIndex)
    (hnextRemove : removeBlock s' nextIndex right.address = .ok s'')
    (hsize'' : getSize s''.memory left.address = .ok left.size)
    (hnextSize'' : getSize s''.memory right.address = .ok right.size) :
    C.addBlock (fuel + 1) s b.address = C.addBlock fuel
        (mergeInto s'' left.address (b.size + left.size + right.size)) left.address := by
  rw [addBlock, hsee.size, ok_bind, hsee.index, ok_bind]
  rw [hsee.prev, hsee.next, if_neg (fun hboth => hsee.not_prev hleft hboth.1),
    if_neg (hsee.not_prev hleft), if_neg (hsee.not_next hright), hsize,
    ok_bind, hindex, ok_bind, hremove, ok_bind, hnextSize, ok_bind,
    hnextIndex, ok_bind, hnextRemove, ok_bind, hsize'', ok_bind, hnextSize'', ok_bind]

end AddBlockCases

/-- Between two held neighbours `AddBlock` pushes the block. -/
lemma addBlock_insert {b : Cell} (fuel : Nat)
    (hloose : C.Loose s (front ++ [left]) [b] (right :: rear)) (hsized : Sized s.memory b)
    (hblock : b.kind ≠ .fence) (hleft : left.stop = b.address) (hright : b.stop = right.address)
    (hleftHeld : left.kind ≠ .free) (hrightHeld : right.kind ≠ .free) :
    ∃ s', C.addBlock (fuel + 1) s b.address = .ok (b.address, s') ∧
    C.Valid s' (front ++ [left] ++ [{ b with kind := .free }] ++ right :: rear) ∧
    Keeps s s' (HeldIn (front ++ [left] ++ right :: rear)) := by
  have hfits := hloose.arranged.fits b (by simp)
  obtain ⟨index, hindex⟩ := hfits.index hblock
  have hsee := hloose.surroundings hsized hleft hright hindex
  have hnew := Stretch.single (c := { b with kind := .free }) (by simp)
  obtain ⟨hloose', _⟩ := hloose.rewrite (.single hblock) hnew
    (by simpa using hfits.rekind hblock .free)
    (calm_between hloose.arranged.calm hleftHeld hrightHeld _) fun _ _ => rfl
  obtain ⟨hvalid, hkeeps⟩ := hloose'.insert rfl hsized hindex
  exact ⟨_, addBlock_held fuel hsee hleftHeld hrightHeld, hvalid, hkeeps⟩

/-- The nested call of `AddBlock` after a merge, which has no free neighbour
left. -/
lemma addBlock_merged (fuel : Nat) (hloose : C.Loose s before old after)
    (hold : Stretch low high old) (hleft : ∀ left, before.getLast? = some left → left.kind ≠ .free)
    (hright : ∀ right, after.head? = some right → right.kind ≠ .free) :
    ∃ s', C.addBlock (fuel + 1) (mergeInto s low (high - low)) low = .ok (low, s') ∧
    C.Valid s' (before ++ [{ joined low high with kind := .free }] ++ after) ∧
    Keeps s s' (HeldIn (before ++ after)) := by
  obtain ⟨hmerged, hsized, hkeeps⟩ := hloose.merge hold
  have htiled := hmerged.arranged.tiled
  rw [append_assoc] at htiled
  obtain ⟨front, left, right, rear, rfl, rfl, htouch, htouch'⟩ :=
    htiled.neighbours (by simp [joined])
  obtain ⟨s', hadd, hvalid, hkeeps'⟩ := addBlock_insert fuel hmerged hsized
    (by simp [joined]) htouch htouch' (hleft left (by simp)) (hright right (by simp))
  exact ⟨s', hadd, hvalid, (hkeeps.mono (fun c hc => hc.1)).trans hkeeps'⟩

/-- `AddBlock` always returns, and no held cell is touched. -/
structure Added (C : Classes) (s : State) (before after : List Cell)
    (s' : State) (cells : List Cell) : Prop where
  valid : C.Valid s' cells
  keeps : Keeps s s' (HeldIn (before ++ after))
  held : ∀ c, HeldIn cells c ↔ HeldIn (before ++ after) c

def CanAdd (C : Classes) (fuel : Nat) (s : State) (block : Nat) (before after : List Cell) : Prop :=
  ∃ address s' cells, C.addBlock (fuel + 2) s block = .ok (address, s') ∧
    C.Added s before after s' cells

lemma heldIn_insert_free (hc : c.kind = .free) (d : Cell) :
    HeldIn (before ++ [c] ++ after) d ↔ HeldIn (before ++ after) d := by
  simp only [HeldIn, mem_append, mem_singleton]
  constructor
  · rintro ⟨(hd | rfl) | hd, hkind⟩
    · exact ⟨.inl hd, hkind⟩
    · exact absurd hc hkind
    · exact ⟨.inr hd, hkind⟩
  · rintro ⟨hd | hd, hkind⟩
    · exact ⟨.inl (.inl hd), hkind⟩
    · exact ⟨.inr hd, hkind⟩

section AddBlockSpec

variable {s : State} {front rear : List Cell} {left b right : Cell}

variable {before after : List Cell}

/-- The three merging cases end alike. -/
lemma canAdd_of_merged {before' after' : List Cell}
    {fuel block : Nat} (hadd : C.addBlock (fuel + 2) s block =
      C.addBlock (fuel + 1) (mergeInto s' low (high - low)) low)
    (hloose : C.Loose s' before' old after') (hold : Stretch low high old)
    (hleft : ∀ left, before'.getLast? = some left → left.kind ≠ .free)
    (hright : ∀ right, after'.head? = some right → right.kind ≠ .free)
    (hkeeps : Keeps s s' (HeldIn (before ++ after)))
    (hsame : ∀ c, HeldIn (before ++ after) c ↔ HeldIn (before' ++ after') c) :
    C.CanAdd fuel s block before after := by
  obtain ⟨s'', hmerged, hvalid, hkeeps'⟩ := addBlock_merged fuel hloose hold hleft hright
  refine ⟨_, s'', _, hadd.trans hmerged, hvalid,
    hkeeps.trans (hkeeps'.mono fun c hc => (hsame c).mp hc), ?_⟩
  intro c
  rw [heldIn_insert_free rfl, hsame]

lemma calm_left (hcalm : Calm (front ++ [left] ++ old ++ after))
    (hfree : left.kind = .free) (hc : front.getLast? = some c) : c.kind ≠ .free := by
  have hchain := isChain_append.mp hcalm.left_of_append.left_of_append
  exact (hchain.2.2 c hc left (by simp)).resolve_right (fun hne => hne hfree)

lemma calm_right (hcalm : Calm (before ++ right :: rear))
    (hfree : right.kind = .free) (hc : rear.head? = some c) : c.kind ≠ .free := by
  have hchain := isChain_cons.mp hcalm.right_of_append
  exact (hchain.1 c hc).resolve_left (fun hne => hne hfree)

/-- A free cell in front of the stretch or behind it is not held. -/
lemma heldIn_drop_left (hfree : left.kind = .free) (c : Cell) :
    HeldIn (front ++ [left] ++ after) c ↔ HeldIn (front ++ after) c :=
  heldIn_insert_free hfree c

lemma heldIn_drop_right (hfree : right.kind = .free) (c : Cell) :
    HeldIn (before ++ right :: rear) c ↔ HeldIn (before ++ rear) c := by
  have hdrop : HeldIn (before ++ [right] ++ rear) c ↔ _ := heldIn_insert_free hfree c
  rwa [append_assoc] at hdrop

/-- A loose block with its neighbours. -/
structure Between (C : Classes) (s : State) (front : List Cell)
    (left b right : Cell) (rear : List Cell) : Prop where
  loose : C.Loose s (front ++ [left]) [b] (right :: rear)
  block : b.kind ≠ .fence
  sized : Sized s.memory b
  left : left.stop = b.address
  right : b.stop = right.address

namespace Between

variable (hbetween : C.Between s front left b right rear)

include hbetween

lemma right_calm (hfree : right.kind = .free) (hc : rear.head? = some c) : c.kind ≠ .free :=
  calm_right hbetween.loose.arranged.calm hfree hc

lemma left_calm (hfree : left.kind = .free) (hc : front.getLast? = some c) : c.kind ≠ .free :=
  calm_left hbetween.loose.arranged.calm hfree hc

lemma surroundings : ∃ index, C.Surroundings s left b right index := by
  have hfits := hbetween.loose.arranged.fits b (by simp)
  obtain ⟨index, hindex⟩ := hfits.index hbetween.block
  exact ⟨index, hbetween.loose.surroundings hbetween.sized hbetween.left hbetween.right hindex⟩

section

variable (fuel : Nat)

lemma add_held (hleft : left.kind ≠ .free) (hright : right.kind ≠ .free) :
    C.CanAdd fuel s b.address (front ++ [left]) (right :: rear) := by
  obtain ⟨s', hadd, hvalid, hkeeps⟩ := addBlock_insert (fuel + 1)
    hbetween.loose hbetween.sized hbetween.block hbetween.left hbetween.right hleft hright
  exact ⟨_, s', _, hadd, hvalid, hkeeps, heldIn_insert_free rfl⟩

lemma add_right (hleft : left.kind ≠ .free) (hright : right.kind = .free) :
    C.CanAdd fuel s b.address (front ++ [left]) (right :: rear) := by
  have hfits := hbetween.loose.arranged.fits right (by simp)
  obtain ⟨_, hsee⟩ := hbetween.surroundings
  obtain ⟨index, hindex⟩ := hfits.index (by simp [hright])
  obtain ⟨s', hremove, hloose, hsized, _, hkeeps⟩ := hbetween.loose.take_right hright hindex
  have hsize : right.stop - b.address = b.size + right.size := by
    have htouch := hbetween.right
    simp only [stop] at htouch ⊢
    omega
  have hadd := addBlock_right (fuel + 1) hsee hleft hright
    (hbetween.loose.tags right (by simp)).1.getSize (by rwa [hfits.subSize]) hremove hsized.getSize
  rw [← hsize] at hadd
  exact canAdd_of_merged hadd hloose ⟨⟨rfl, hbetween.right.symm, rfl⟩,
    by simp, by simp [Blocks, hbetween.block, hright]⟩ (fun c hc => by
      simp only [getLast?_append, getLast?_singleton, some_or, some.injEq] at hc
      exact hc ▸ hleft)
    (fun c hc => hbetween.right_calm hright hc) hkeeps
    (heldIn_drop_right hright)

lemma add_left (hleft : left.kind = .free) (hright : right.kind ≠ .free) :
    C.CanAdd fuel s b.address (front ++ [left]) (right :: rear) := by
  have hfits := hbetween.loose.arranged.fits left (by simp)
  obtain ⟨_, hsee⟩ := hbetween.surroundings
  obtain ⟨index, hindex⟩ := hfits.index (by simp [hleft])
  obtain ⟨s', hremove, hloose, hsized, _, hkeeps⟩ := hbetween.loose.take_left hleft hindex
  have hsize : b.stop - left.address = b.size + left.size := by
    have htouch := hbetween.left
    simp only [stop] at htouch ⊢
    omega
  have hadd := addBlock_left (fuel + 1) hsee hleft hright
    (hbetween.loose.tags left (by simp)).1.getSize (by rwa [hfits.subSize]) hremove hsized.getSize
  rw [← hsize] at hadd
  exact canAdd_of_merged hadd hloose ⟨⟨rfl, hbetween.left.symm, rfl⟩,
    by simp, by simp [Blocks, hbetween.block, hleft]⟩ (fun c hc => hbetween.left_calm hleft hc)
    (fun c hc => by
      simp only [head?_cons, some.injEq] at hc
      exact hc ▸ hright) hkeeps
    (heldIn_drop_left hleft)

lemma add_both (hleft : left.kind = .free) (hright : right.kind = .free) :
    C.CanAdd fuel s b.address (front ++ [left]) (right :: rear) := by
  have hlFits := hbetween.loose.arranged.fits left (by simp)
  have hrFits := hbetween.loose.arranged.fits right (by simp)
  obtain ⟨_, hsee⟩ := hbetween.surroundings
  obtain ⟨prevIndex, hprevIndex⟩ := hlFits.index (by simp [hleft])
  obtain ⟨nextIndex, hnextIndex⟩ := hrFits.index (by simp [hright])
  obtain ⟨s', hremove, hloose, hlSized, _, hkeeps⟩ := hbetween.loose.take_left hleft hprevIndex
  obtain ⟨s'', hremove', hloose', hrSized, hstay, hkeeps'⟩ := hloose.take_right hright hnextIndex
  have hsize : right.stop - left.address = b.size + left.size + right.size := by
    have htouch := hbetween.left
    have htouch' := hbetween.right
    simp only [stop] at htouch htouch' ⊢
    omega
  have hadd := addBlock_both (fuel + 1) hsee hleft hright
    (hbetween.loose.tags left (by simp)).1.getSize (by rwa [hlFits.subSize]) hremove
    (hloose.tags right (by simp)).1.getSize (by rwa [hrFits.subSize])
    hremove' (hstay left (by simp) hlSized).getSize hrSized.getSize
  rw [← hsize] at hadd
  exact canAdd_of_merged hadd hloose'
    ⟨⟨rfl, hbetween.left.symm, hbetween.right.symm, rfl⟩, by simp,
      by simp [Blocks, hbetween.block, hleft, hright]⟩ (fun c hc => hbetween.left_calm hleft hc)
    (fun c hc => hbetween.right_calm hright hc)
    (hkeeps.trans (hkeeps'.mono fun c hc => (heldIn_drop_left hleft c).mp hc))
    (fun c => (heldIn_drop_left hleft c).trans (heldIn_drop_right hright c))

end

end Between

lemma addBlock_spec (fuel : Nat) (hloose : C.Loose s before [b] after) (hblock : b.kind ≠ .fence)
    (hsized : Sized s.memory b) : C.CanAdd fuel s b.address before after := by
  have htiled := hloose.arranged.tiled
  rw [append_assoc] at htiled
  obtain ⟨front, left, right, rear, rfl, rfl, hleft, hright⟩ := htiled.neighbours hblock
  have hbetween : C.Between s front left b right rear := ⟨hloose, hblock, hsized, hleft, hright⟩
  by_cases hleftFree : left.kind = .free
  · by_cases hrightFree : right.kind = .free
    · exact hbetween.add_both fuel hleftFree hrightFree
    · exact hbetween.add_left fuel hleftFree hrightFree
  · by_cases hrightFree : right.kind = .free
    · exact hbetween.add_right fuel hleftFree hrightFree
    · exact hbetween.add_held fuel hleftFree hrightFree

end AddBlockSpec

end Classes

end Merlon.Heap
