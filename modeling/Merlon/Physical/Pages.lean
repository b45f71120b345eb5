/-
The free pages behind the two representations: bitmap updates as set updates,
the stack as a list of page numbers, and what each function of the allocator
does to both.
-/
import Merlon.Physical.Model
import Mathlib.Data.Finset.Card
import Mathlib.Data.List.Nodup

namespace Merlon.Physical

open List State

/-- The pages whose bit is set. -/
def freePages (s : State) : Finset Nat :=
  (Finset.range maxMemoryPages).filter (fun i => isBitmapEntryFree s i = true)

/-- The page numbers on the stack, bottom first. -/
def stackPages (s : State) (stack : Nat → Nat) : List Nat :=
  (range s.allocationStackPointer).map stack

/-- The representation invariant. -/
structure Consistent (s : State) : Prop where
  bounded : ∀ i, isBitmapEntryFree s i = true → i < maxMemoryPages
  high : ∀ i, isBitmapEntryFree s i = true → i ≤ s.highestPageIndex
  count : s.pagesLeft = (freePages s).card
  idle : s.allocationStack = none → s.allocationStackPointer = 0
  nodup : ∀ stack, s.allocationStack = some stack → (stackPages s stack).Nodup
  stacked : ∀ stack, s.allocationStack = some stack → ∀ i,
    i ∈ stackPages s stack ↔ isBitmapEntryFree s i = true

variable {s : State} {index : Nat} {s' : State} {stack : Nat → Nat}

lemma mem_freePages (hs : Consistent s) (i : Nat) :
    i ∈ freePages s ↔ isBitmapEntryFree s i = true := by
  simp only [freePages, Finset.mem_filter, Finset.mem_range]
  exact ⟨fun h => h.2, fun h => ⟨hs.bounded i h, h⟩⟩

/-! Single bits. -/

lemma one_shiftLeft_getLsbD {offset bit : Nat} (hbit : bit < 32) :
    (1#32 <<< offset).getLsbD bit = decide (bit = offset) := by
  by_cases heq : bit = offset
  · subst heq
    simp [hbit]
  · by_cases hlt : bit < offset
    · simp [hlt, heq]
    · have hne : ¬ bit - offset = 0 := by omega
      simp [hne, heq]

/-- Two page numbers with the same word and offset are the same. -/
lemma word_offset_eq_iff (i j : Nat) : (i / bitsPerEntry = j / bitsPerEntry ∧
      i % bitsPerEntry = j % bitsPerEntry) ↔ i = j := by
  simp only [bitsPerEntry]
  omega

lemma isBitmapEntryFree_clear (s : State) (index i : Nat) :
    isBitmapEntryFree (s.setWord (index / bitsPerEntry)
      (s.allocationBitmap (index / bitsPerEntry) &&& ~~~(1#32 <<< (index % bitsPerEntry)))) i =
      (isBitmapEntryFree s i && decide (i ≠ index)) := by
  have hbit : i % bitsPerEntry < 32 := Nat.mod_lt _ (by decide)
  have hiff := word_offset_eq_iff i index
  simp only [isBitmapEntryFree, setWord]
  by_cases hword : i / bitsPerEntry = index / bitsPerEntry
  · rw [if_pos hword, BitVec.getLsbD_and, BitVec.getLsbD_not, one_shiftLeft_getLsbD hbit, hword]
    simp only [hword, true_and] at hiff
    simp [hbit, hiff]
  · have hne : i ≠ index := fun heq => hword (by rw [heq])
    simp [hword, hne]

lemma isBitmapEntryFree_set (s : State) (index i : Nat) :
    isBitmapEntryFree (s.setWord (index / bitsPerEntry)
      (s.allocationBitmap (index / bitsPerEntry) ||| (1#32 <<< (index % bitsPerEntry)))) i =
      (isBitmapEntryFree s i || decide (i = index)) := by
  have hbit : i % bitsPerEntry < 32 := Nat.mod_lt _ (by decide)
  have hiff := word_offset_eq_iff i index
  simp only [isBitmapEntryFree, setWord]
  by_cases hword : i / bitsPerEntry = index / bitsPerEntry
  · rw [if_pos hword, BitVec.getLsbD_or, one_shiftLeft_getLsbD hbit, hword]
    simp only [hword, true_and] at hiff
    simp [hiff]
  · have hne : i ≠ index := fun heq => hword (by rw [heq])
    simp [hword, hne]

/-- The state with another bitmap. -/
def State.withBitmap (s : State) (bitmap : Nat → BitVec 32) : State :=
  { s with allocationBitmap := bitmap }

lemma allocateBitmapEntry_spec (hfree : isBitmapEntryFree s index = true) :
    ∃ bitmap, allocateBitmapEntry s index = .ok (s.withBitmap bitmap) ∧
    ∀ i, isBitmapEntryFree (s.withBitmap bitmap) i = true ↔ isBitmapEntryFree s i = true ∧
    i ≠ index := by
  refine ⟨_, by rw [allocateBitmapEntry, if_pos hfree]; rfl, ?_⟩
  intro i
  have hbit := isBitmapEntryFree_clear s index i
  rw [setWord] at hbit
  rw [withBitmap, hbit]
  simp

lemma deallocateBitmapEntry_spec (hused : isBitmapEntryFree s index = false) :
    ∃ bitmap, deallocateBitmapEntry s index = .ok (s.withBitmap bitmap) ∧
    ∀ i, isBitmapEntryFree (s.withBitmap bitmap) i = true ↔ isBitmapEntryFree s i = true ∨
    i = index := by
  refine ⟨_, by
    rw [deallocateBitmapEntry, if_neg (by simp [hused])]; rfl, ?_⟩
  intro i
  have hbit := isBitmapEntryFree_set s index i
  rw [setWord] at hbit
  rw [withBitmap, hbit]
  simp

/-! The scan. -/

/-- The scan reaches any free page within one round, so it stops at a free
page. -/
lemma scanBitmap_spec {target : Nat} (hfree : isBitmapEntryFree s target = true)
    (htarget : target < maxMemoryPages) (fuel index : Nat) (hindex : index < maxMemoryPages)
    (hfuel : (index + maxMemoryPages - target) % maxMemoryPages < fuel) :
    ∃ found, scanBitmap s fuel index = .ok found ∧ isBitmapEntryFree s found = true := by
  induction fuel generalizing index with
  | zero => omega
  | succ fuel ih =>
    by_cases hhere : isBitmapEntryFree s index = true
    · exact ⟨index, by rw [scanBitmap, if_pos hhere], hhere⟩
    · have hne : index ≠ target := fun heq => hhere (heq ▸ hfree)
      have hmax : maxMemoryPages = 1048576 := rfl
      have hcloser : ((index + maxMemoryPages - 1) % maxMemoryPages +
          maxMemoryPages - target) % maxMemoryPages < fuel := by
        rw [hmax] at hindex hfuel htarget ⊢
        omega
      rw [scanBitmap, if_neg hhere]
      exact ih _ (Nat.mod_lt _ (by decide)) hcloser

/-! The stack. -/

lemma stackPages_push (s : State) (stack : Nat → Nat) (index : Nat) : stackPages { s with
        allocationStack := some (fun at_ =>
          if at_ = s.allocationStackPointer then index else stack at_)
        allocationStackPointer := s.allocationStackPointer + 1 }
      (fun at_ => if at_ = s.allocationStackPointer then index
        else stack at_) = stackPages s stack ++ [index] := by
  simp only [stackPages, range_succ, map_append, map_cons,
    map_nil, ↓reduceIte, append_cancel_right_eq]
  apply map_congr_left
  intro at_ hat
  have hlt := mem_range.mp hat
  simp [Nat.ne_of_lt hlt]

lemma stackPages_pop (hne : s.allocationStackPointer ≠ 0) : stackPages s stack = stackPages
    { s with allocationStackPointer := s.allocationStackPointer - 1 } stack ++
    [stack (s.allocationStackPointer - 1)] := by
  obtain ⟨top, htop⟩ := Nat.exists_eq_succ_of_ne_zero hne
  simp only [stackPages, htop, Nat.succ_sub_one, range_succ, map_append, map_cons, map_nil]

/-! Allocation and deallocation. -/

/-- What an allocation of the page `index` leaves behind. -/
structure Taken (s : State) (index : Nat) (s' : State) : Prop where
  consistent : Consistent s'
  free : isBitmapEntryFree s index = true
  pages : ∀ i, isBitmapEntryFree s' i = true ↔ isBitmapEntryFree s i = true ∧ i ≠ index
  stack : s'.allocationStack = s.allocationStack
  high : s'.highestPageIndex = s.highestPageIndex

lemma freePages_erase (hpages : ∀ i, isBitmapEntryFree s' i = true ↔
      isBitmapEntryFree s i = true ∧ i ≠ index) : freePages s' = (freePages s).erase index := by
  ext i
  simp only [freePages, Finset.mem_filter, Finset.mem_range, Finset.mem_erase, hpages]
  tauto

lemma freePages_insert (hbound : index < maxMemoryPages)
    (hpages : ∀ i, isBitmapEntryFree s' i = true ↔ isBitmapEntryFree s i = true ∨ i = index) :
    freePages s' = insert index (freePages s) := by
  ext i
  simp only [freePages, Finset.mem_filter, Finset.mem_range, Finset.mem_insert, hpages]
  constructor
  · rintro ⟨hlt, hfree | heq⟩
    · exact .inr ⟨hlt, hfree⟩
    · exact .inl heq
  · rintro (rfl | ⟨hlt, hfree⟩)
    · exact ⟨hbound, .inr rfl⟩
    · exact ⟨hlt, .inl hfree⟩

section

variable (hs : Consistent s)
include hs

/-- In both modes the page number taken is free, and the stack loses it. -/
lemma takeIndex_spec (hsome : (freePages s).Nonempty) :
    ∃ index s₁, takeIndex s = .ok (index, s₁) ∧ isBitmapEntryFree s index = true ∧
    s₁ = { s with allocationStackPointer := s₁.allocationStackPointer } ∧
    (s.allocationStack = none → s₁.allocationStackPointer = 0) ∧
    ∀ stack, s.allocationStack = some stack → stackPages s stack = stackPages s₁ stack ++
    [index] := by
  obtain ⟨target, htarget⟩ := hsome
  have hfree := (mem_freePages hs target).mp htarget
  rcases Option.eq_none_or_eq_some s.allocationStack with hstack | ⟨stack, hstack⟩
  · obtain ⟨found, hscan, hfound⟩ := scanBitmap_spec hfree
      (hs.bounded target hfree) maxMemoryPages 0 (by decide) (Nat.mod_lt _ (by decide))
    refine ⟨found, s, ?_, hfound, rfl, fun _ => hs.idle hstack, ?_⟩
    · rw [takeIndex, hstack]
      dsimp only
      rw [hscan, ok_bind]
    · intro stack hsome
      rw [hstack] at hsome
      cases hsome
  · have hmem := (hs.stacked stack hstack target).mpr hfree
    have hne : s.allocationStackPointer ≠ 0 := by
      intro hzero
      simp [stackPages, hzero] at hmem
    refine ⟨stack (s.allocationStackPointer - 1),
      { s with allocationStackPointer := s.allocationStackPointer - 1 }, ?_, ?_, rfl, ?_, ?_⟩
    · rw [takeIndex, hstack]
      dsimp only
      rw [popIndex, if_neg hne, hstack]
    · apply (hs.stacked stack hstack _).mp
      rw [stackPages_pop hne]
      simp
    · intro hnone
      rw [hstack] at hnone
      cases hnone
    · intro stack' hsome
      rw [hstack] at hsome
      cases hsome
      exact stackPages_pop hne

lemma allocPhys_spec (hsome : (freePages s).Nonempty) :
    ∃ index s', allocPhys s = .ok (index * archPageSize, s') ∧ Taken s index s' := by
  obtain ⟨index, s₁, htake, hfree, hrest, hidle, hpop⟩ := takeIndex_spec hs hsome
  have hsame : ∀ i, isBitmapEntryFree s₁ i = isBitmapEntryFree s i := by
    intro i
    rw [hrest]
    rfl
  obtain ⟨bitmap, hallocate, hpages⟩ := allocateBitmapEntry_spec
    (s := s₁) ((hsame index).trans hfree)
  have hleft : s.pagesLeft ≠ 0 := by
    rw [hs.count]
    exact Finset.card_ne_zero.mpr hsome
  refine ⟨index, { s₁.withBitmap bitmap with
    pagesLeft := (s₁.withBitmap bitmap).pagesLeft - 1 }, ?_, ?_⟩
  · rw [allocPhys, if_neg hleft]
    dsimp only
    rw [htake, ok_bind, hallocate, ok_bind]
  · have hclear : ∀ i, isBitmapEntryFree { s₁.withBitmap bitmap with
        pagesLeft := (s₁.withBitmap bitmap).pagesLeft - 1 } i = true ↔
        isBitmapEntryFree s i = true ∧ i ≠ index := by
      intro i
      rw [← hsame i]
      exact hpages i
    have hstack : s₁.allocationStack = s.allocationStack := by rw [hrest]
    have hhigh : s₁.highestPageIndex = s.highestPageIndex := by rw [hrest]
    have hcount : s₁.pagesLeft = s.pagesLeft := by rw [hrest]
    refine ⟨⟨?_, ?_, ?_, ?_, ?_, ?_⟩, hfree, hclear, hstack, hhigh⟩
    · exact fun i hi => hs.bounded i ((hclear i).mp hi).1
    · intro i hi
      change i ≤ s₁.highestPageIndex
      rw [hhigh]
      exact hs.high i ((hclear i).mp hi).1
    · change s₁.pagesLeft - 1 = _
      rw [freePages_erase hclear,
        Finset.card_erase_of_mem ((mem_freePages hs index).mpr hfree), hcount, hs.count]
    · intro hnone
      exact hidle (hstack.symm.trans hnone)
    · intro stack hstack'
      have hnodup := hs.nodup stack (hstack.symm.trans hstack')
      rw [hpop stack (hstack.symm.trans hstack')] at hnodup
      exact (nodup_append.mp hnodup).1
    · intro stack hstack' i
      have hold := hstack.symm.trans hstack'
      have hnodup := hs.nodup stack hold
      have hstacked := hs.stacked stack hold i
      rw [hpop stack hold] at hnodup hstacked
      rw [hclear i, ← hstacked]
      have hdisjoint := (nodup_append.mp hnodup).2.2
      simp only [mem_append, mem_singleton]
      constructor
      · exact fun hi => ⟨.inl hi, (hdisjoint i hi index mem_cons_self)⟩
      · rintro ⟨hi | heq, hne⟩
        · exact hi
        · exact absurd heq hne

/-- `AllocPhys` panics exactly when no page is free. -/
lemma allocPhys_panic_iff : allocPhys s = .error .panicOutOfPhys ↔ freePages s = ∅ := by
  constructor
  · intro hpanic
    by_contra hne
    obtain ⟨index, s', hok, _⟩ := allocPhys_spec hs (Finset.nonempty_iff_ne_empty.mpr hne)
    rw [hok] at hpanic
    cases hpanic
  · intro hempty
    have hzero : s.pagesLeft = 0 := by
      rw [hs.count, hempty]
      rfl
    rw [allocPhys, if_pos hzero]

/-- What giving the page `index` back leaves behind. -/
structure Given (s : State) (index : Nat) (s' : State) : Prop where
  consistent : Consistent s'
  pages : ∀ i, isBitmapEntryFree s' i = true ↔ isBitmapEntryFree s i = true ∨ i = index
  stack : s'.allocationStack.isSome = s.allocationStack.isSome
  high : s'.highestPageIndex = s.highestPageIndex

/-- A page that becomes free where the stack, if there is one, gets it too. -/
lemma Consistent.insert (hused : isBitmapEntryFree s index = false)
    (hbound : index < maxMemoryPages) (hhigh : index ≤ s'.highestPageIndex)
    (hmono : s.highestPageIndex ≤ s'.highestPageIndex) (hcount : s'.pagesLeft = s.pagesLeft + 1)
    (hpages : ∀ i, isBitmapEntryFree s' i = true ↔ isBitmapEntryFree s i = true ∨ i = index)
    (hidle : s'.allocationStack = none → s'.allocationStackPointer = 0)
    (hpush : ∀ stack', s'.allocationStack = some stack' → ∃ stack, s.allocationStack = some stack ∧
      stackPages s' stack' = stackPages s stack ++ [index]) : Consistent s' where
  bounded i hi := by
    rcases (hpages i).mp hi with hi | rfl
    · exact hs.bounded i hi
    · exact hbound
  high i hi := by
    rcases (hpages i).mp hi with hi | rfl
    · exact (hs.high i hi).trans hmono
    · exact hhigh
  count := by
    have hnot : index ∉ freePages s := by
      rw [mem_freePages hs, hused]
      decide
    rw [freePages_insert hbound hpages, Finset.card_insert_of_notMem hnot, hcount, hs.count]
  idle := hidle
  nodup stack' hstack' := by
    obtain ⟨stack, hstack, heq⟩ := hpush stack' hstack'
    rw [heq]
    refine nodup_append.mpr ⟨hs.nodup stack hstack, nodup_singleton index, ?_⟩
    intro i hi j hj hij
    rw [mem_singleton.mp hj] at hij
    rw [hij, hs.stacked stack hstack, hused] at hi
    cases hi
  stacked stack' hstack' i := by
    obtain ⟨stack, hstack, heq⟩ := hpush stack' hstack'
    rw [heq, hpages, mem_append, mem_singleton, hs.stacked stack hstack]

lemma deallocPhys_spec (hused : isBitmapEntryFree s index = false)
    (hbound : index < maxMemoryPages) (hhigh : index ≤ s.highestPageIndex) :
    ∃ s', deallocPhys s (index * archPageSize) = .ok s' ∧ Given s index s' := by
  have haligned : index * archPageSize % archPageSize = 0 := Nat.mul_mod_left _ _
  have hpage : index * archPageSize / archPageSize = index := Nat.mul_div_cancel _ (by decide)
  obtain ⟨bitmap, hdealloc, hpages⟩ := deallocateBitmapEntry_spec
    (s := { s with pagesLeft := s.pagesLeft + 1 }) hused
  have hcall : deallocPhys s (index * archPageSize) = s.allocationStack.elim
        (.ok (withBitmap { s with pagesLeft := s.pagesLeft + 1 } bitmap)) fun stack => pushIndex
        (withBitmap { s with pagesLeft := s.pagesLeft + 1 } bitmap) stack index := by
    rw [deallocPhys, if_pos haligned]
    dsimp only
    rw [hpage, hdealloc]
    cases s.allocationStack <;> rfl
  rcases Option.eq_none_or_eq_some s.allocationStack with hstack | ⟨stack, hstack⟩
  · rw [hstack] at hcall
    refine ⟨_, hcall, hs.insert hused hbound hhigh (Nat.le_refl _) rfl hpages
      (fun _ => hs.idle hstack) ?_, hpages, by rw [hstack]; rfl, rfl⟩
    intro stack' hsome
    cases hsome
  · rw [hstack] at hcall
    refine ⟨_, hcall.trans (if_pos hhigh), hs.insert hused hbound hhigh
      (Nat.le_refl _) rfl hpages ?_ ?_, hpages, ?_, rfl⟩
    · intro hnone
      cases hnone
    · intro stack' hsome
      cases hsome
      exact ⟨stack, hstack, stackPages_push _ stack index⟩
    · simp [hstack]

end

/-! Initialisation. -/

lemma consistent_bootState : Consistent bootState := by
  have hnone : ∀ i, isBitmapEntryFree bootState i = false := by
    simp [isBitmapEntryFree, bootState]
  refine ⟨?_, ?_, ?_, fun _ => rfl, ?_, ?_⟩
  · intro i hi
    rw [hnone i] at hi
    cases hi
  · intro i hi
    rw [hnone i] at hi
    cases hi
  · have hempty : freePages bootState = ∅ := by
      simp only [freePages, hnone, Bool.false_eq_true, Finset.filter_false]
    rw [hempty]
    rfl
  · intro stack hsome
    cases hsome
  · intro stack hsome
    cases hsome

/-- `InitPhys` keeps the invariant while it adds pages. -/
lemma addPages_consistent {count firstPage : Nat}
    (hs : Consistent s) (hstack : s.allocationStack = none)
    (hadd : addPages s count firstPage = .ok s') : Consistent s' ∧ s'.allocationStack = none := by
  induction count generalizing s firstPage with
  | zero =>
    cases hadd
    exact ⟨hs, hstack⟩
  | succ count ih =>
    rw [addPages] at hadd
    by_cases hbound : firstPage < maxMemoryPages
    · rw [if_pos hbound] at hadd
      by_cases hfree : isBitmapEntryFree s firstPage = true
      · rw [deallocateBitmapEntry, if_pos hfree] at hadd
        cases hadd
      · have hused : isBitmapEntryFree s firstPage = false := by simpa using hfree
        obtain ⟨bitmap, hdealloc, hpages⟩ := deallocateBitmapEntry_spec hused
        rw [hdealloc] at hadd
        refine ih ?_ ?_ hadd
        · refine hs.insert hused hbound (Nat.le_max_right _ _)
            (Nat.le_max_left _ _) rfl hpages (fun _ => hs.idle hstack) ?_
          intro stack hsome
          have hsome' : s.allocationStack = some stack := hsome
          rw [hstack] at hsome'
          cases hsome'
        · exact hstack
    · rw [if_neg hbound] at hadd
      cases hadd
      exact ⟨hs, hstack⟩

lemma initPhys_consistent {ranges : List BootMemoryEntry} (hinit : initPhys ranges = .ok s) :
    Consistent s ∧ s.allocationStack = none := by
  have hrun : ∀ start, Consistent start → start.allocationStack = none →
      ranges.foldlM addRange start = .ok s → Consistent s ∧ s.allocationStack = none := by
    clear hinit
    induction ranges with
    | nil =>
      intro start hstart hstack hfold
      cases hfold
      exact ⟨hstart, hstack⟩
    | cons range rest ih =>
      intro start hstart hstack hfold
      rw [foldlM_cons] at hfold
      cases hadd : addRange start range with
      | error stop =>
        rw [hadd] at hfold
        cases hfold
      | ok next =>
        rw [hadd] at hfold
        obtain ⟨hnext, hnextStack⟩ := addPages_consistent hstart hstack hadd
        exact ih next hnext hnextStack hfold
  exact hrun bootState consistent_bootState rfl hinit

/-! The switch to the stack. -/

/-- The loop pushes the free pages of its range in order and changes nothing
else. -/
lemma pushFree_spec (count index : Nat) (hstack : s.allocationStack = some stack)
    (hhigh : ∀ i, isBitmapEntryFree s i = true → i ≤ s.highestPageIndex) :
    ∃ s' stack', pushFree s count index = .ok s' ∧ s' = { s with
        allocationStack := some stack'
        allocationStackPointer := s'.allocationStackPointer } ∧
      stackPages s' stack' = stackPages s stack ++
        (range' index count).filter (isBitmapEntryFree s ·) := by
  induction count generalizing s stack index with
  | zero =>
    refine ⟨s, stack, rfl, ?_, by simp⟩
    rw [← hstack]
  | succ count ih =>
    by_cases hfree : isBitmapEntryFree s index = true
    · have hpush : pushIndex s stack index = .ok { s with
          allocationStack := some (fun at_ =>
            if at_ = s.allocationStackPointer then index else stack at_)
          allocationStackPointer := s.allocationStackPointer + 1 } := by
        rw [pushIndex, if_pos (hhigh index hfree)]
      obtain ⟨s', stack', hloop, hrest, hlist⟩ := ih (s := { s with
          allocationStack := some (fun at_ =>
            if at_ = s.allocationStackPointer then index else stack at_)
          allocationStackPointer := s.allocationStackPointer + 1 })
        (index + 1) rfl hhigh
      refine ⟨s', stack', ?_, hrest, ?_⟩
      · rw [pushFree, if_pos hfree, hstack]
        dsimp only
        rw [hpush, ok_bind, hloop]
      · rw [hlist, stackPages_push, append_assoc, range'_succ, filter_cons_of_pos hfree]
        rfl
    · obtain ⟨s', stack', hloop, hrest, hlist⟩ := ih (index + 1) hstack hhigh
      refine ⟨s', stack', ?_, hrest, ?_⟩
      · rw [pushFree, if_neg hfree, hloop]
      · rw [hlist, range'_succ, filter_cons_of_neg hfree]

end Merlon.Physical
