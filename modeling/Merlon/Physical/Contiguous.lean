/-
The contiguous allocations of `kernel/mem/physical.c`.  `AllocPhysContiguous`
takes the first run of free pages that avoids the multiples of the boundary,
but the address it returns is that of the page after the run, and the counter
of the free pages stays as it was.
-/
import Merlon.Library.RunScan
import Merlon.Physical.Runs
import Merlon.Virtual.Model

namespace Merlon.Physical

open Virtual (bytesToPages)

/-- `NUM_RESERVE_PAGES`. -/
def numReservePages : Nat := 32

/-- The first place of a value among the next `count` of the stack. -/
def findStackEntry (stack : Nat → Nat) (index : Nat) : Nat → Nat → Option Nat
  | 0, _ => none
  | count + 1, i => if stack i = index then some i else findStackEntry stack index count (i + 1)

/-- What is above the entry moves down by one place. -/
def removeStackEntry (s : State) (index : Nat) : State :=
  match s.allocationStack with
  | none => s
  | some stack =>
    match findStackEntry stack index s.allocationStackPointer 0 with
    | none => s
    | some i =>
      { s with
        allocationStack := some (fun at_ =>
          if i ≤ at_ ∧ at_ < s.allocationStackPointer - 1 then
            stack (at_ + 1)
          else stack at_)
        allocationStackPointer := s.allocationStackPointer - 1 }

/-- The inner loop of `AllocPhysContiguous` takes `count` pages and leaves
`start_index` behind the last one. -/
def takePages (s : State) : Nat → Nat → Except Stop (Nat × State)
  | 0, startIndex => .ok (startIndex, s)
  | count + 1, startIndex => do
      let s ← allocateBitmapEntry s startIndex
      takePages (removeStackEntry s startIndex) count (startIndex + 1)

/-- The page is free and no multiple of the boundary.  The boundary is 0 or at
least one page. -/
def State.suits (s : State) (boundary index : Nat) : Bool :=
  let crossedBoundary := boundary != 0 && index % (boundary / archPageSize) == 0
  isBitmapEntryFree s index && !crossedBoundary

def minIndex (minAddr : Nat) : Nat :=
  (minAddr + archPageSize - 1) % 2 ^ 32 / archPageSize

def State.maxIndex (s : State) (maxAddr : Nat) : Nat :=
  if maxAddr = 0 then s.highestPageIndex + 1 else maxAddr / archPageSize

/-- The scan resets its count where a page does not suit and stops at the page
that completes a run. -/
def allocPhysContiguous (s : State) (bytes minAddr maxAddr boundary : Nat) :
    Except Stop (Nat × State) :=
  if s.allocationStack.isNone then .ok (0, s)
  else
    let pages := bytesToPages bytes
    if pages + numReservePages ≥ s.pagesLeft then .ok (0, s)
    else
      match scanRun (s.suits boundary) pages
          (s.maxIndex maxAddr - minIndex minAddr) (minIndex minAddr) 0 with
      | none => .ok (0, s)
      | some index => do
          -- `index - count + 1`, where the difference may wrap around
          let startIndex := index + 1 - pages
          let (startIndex, s) ← takePages s (index + 1 - startIndex) startIndex
          .ok (startIndex * archPageSize % 2 ^ 32, s)

/-- The loop of `DeallocPhysContiguous`. -/
def deallocPages (s : State) : Nat → Nat → Except Stop State
  | 0, _ => .ok s
  | count + 1, addr => do
      let s ← deallocPhys s addr
      deallocPages s count ((addr + archPageSize) % 2 ^ 32)

def deallocPhysContiguous (s : State) (addr bytes : Nat) : Except Stop State :=
  deallocPages s (bytesToPages bytes) addr

/-! What a call takes. -/

variable {s s' : State} {bytes minAddr maxAddr boundary start : Nat}

lemma isBitmapEntryFree_removeStackEntry (s : State) (index i : Nat) :
    isBitmapEntryFree (removeStackEntry s index) i = isBitmapEntryFree s i := by
  unfold removeStackEntry
  split
  · rfl
  · split <;> rfl

lemma pagesLeft_removeStackEntry (s : State) (index : Nat) :
    (removeStackEntry s index).pagesLeft = s.pagesLeft := by
  unfold removeStackEntry
  split
  · rfl
  · split <;> rfl

/-- Taking free pages marks them and no others, and does not count them. -/
lemma takePages_spec (count start : Nat) (hfree : IsRun (isBitmapEntryFree s) count start) :
    ∃ s', takePages s count start = .ok (start + count, s') ∧ s'.pagesLeft = s.pagesLeft ∧
    ∀ i, isBitmapEntryFree s' i = true ↔ isBitmapEntryFree s i = true ∧
    ¬ (start ≤ i ∧ i < start + count) := by
  induction count generalizing s start with
  | zero => exact ⟨s, rfl, rfl, fun i => by simp⟩
  | succ count ih =>
    obtain ⟨bitmap, htake, hpages⟩ := allocateBitmapEntry_spec
      (hfree start (Nat.le_refl _) (by omega))
    have hmarked : ∀ i, isBitmapEntryFree (removeStackEntry (s.withBitmap bitmap) start) i = true ↔
        isBitmapEntryFree s i = true ∧ i ≠ start := by
      intro i
      rw [isBitmapEntryFree_removeStackEntry, hpages]
    obtain ⟨s', hrest, hleft, hfinal⟩ := ih (start + 1)
      fun i hle hlt => (hmarked i).mpr ⟨hfree i (by omega) (by omega), by omega⟩
    refine ⟨s', ?_, ?_, ?_⟩
    · rw [takePages, htake, ok_bind, hrest, Nat.add_right_comm]
      rfl
    · rw [hleft, pagesLeft_removeStackEntry]
      rfl
    · intro i
      rw [hfinal, hmarked]
      constructor
      · rintro ⟨⟨hi, hne⟩, hout⟩
        exact ⟨hi, by omega⟩
      · rintro ⟨hi, hout⟩
        exact ⟨⟨hi, by omega⟩, by omega⟩

/-- A call in stack mode that is not refused for want of memory finds the run
from `start` on. -/
structure Finds (s : State) (bytes minAddr maxAddr boundary start : Nat) : Prop where
  positive : 0 < bytesToPages bytes
  enough : bytesToPages bytes + numReservePages < s.pagesLeft
  first : FirstRun (s.suits boundary) (bytesToPages bytes) (minIndex minAddr)
    (s.maxIndex maxAddr) start

lemma State.suits_free {index : Nat} (h : s.suits boundary index = true) :
    isBitmapEntryFree s index = true := by
  simp only [suits, Bool.and_eq_true] at h
  exact h.1

/-- The call returns the address behind the run it takes. -/
lemma allocPhysContiguous_of_finds (hstack : s.allocationStack.isSome = true)
    (h : Finds s bytes minAddr maxAddr boundary start) :
    ∃ s', allocPhysContiguous s bytes minAddr maxAddr boundary =
        .ok ((start + bytesToPages bytes) * archPageSize % 2 ^ 32, s') ∧
      s'.pagesLeft = s.pagesLeft ∧
      ∀ i, isBitmapEntryFree s' i = true ↔ isBitmapEntryFree s i = true ∧
        ¬ (start ≤ i ∧ i < start + bytesToPages bytes) := by
  obtain ⟨hpositive, henough, hfirst⟩ := h
  have hscanned : Scanned (s.suits boundary) (bytesToPages bytes)
      (minIndex minAddr) (minIndex minAddr) 0 := Scanned.init hpositive
  have hle := hfirst.first_le
  have hlimit := hfirst.le_limit
  have hend : minIndex minAddr + (s.maxIndex maxAddr - minIndex minAddr) =
      s.maxIndex maxAddr := by omega
  cases hscan : scanRun (s.suits boundary) (bytesToPages bytes)
      (s.maxIndex maxAddr - minIndex minAddr) (minIndex minAddr) 0 with
  | none => exact absurd hfirst.isRun (hscanned.scanRun_none hscan start hle (by omega))
  | some last =>
    obtain ⟨other, hlast, hother⟩ := hscanned.scanRun_some hscan
    rw [hend] at hother
    cases hfirst.unique hother
    have hstart : last + 1 - bytesToPages bytes = start := by omega
    have hcount : last + 1 - start = bytesToPages bytes := by omega
    obtain ⟨s', htake, hleft, hpages⟩ := takePages_spec (s := s) (bytesToPages bytes) start
      fun i hfrom hto => State.suits_free (hfirst.isRun i hfrom hto)
    refine ⟨s', ?_, hleft, hpages⟩
    rw [allocPhysContiguous, if_neg (by simp [Option.isSome_iff_ne_none.mp hstack])]
    rw [if_neg (by omega), hscan]
    dsimp only
    rw [hstart, hcount, htake, ok_bind]

/-- Otherwise it returns 0 and changes nothing. -/
lemma allocPhysContiguous_of_not_finds
    (h : ∀ start, ¬ Finds s bytes minAddr maxAddr boundary start) :
    allocPhysContiguous s bytes minAddr maxAddr boundary = .ok (0, s) := by
  unfold allocPhysContiguous
  split
  · rfl
  · dsimp only
    split
    · rfl
    · cases hscan : scanRun (s.suits boundary) (bytesToPages bytes)
          (s.maxIndex maxAddr - minIndex minAddr) (minIndex minAddr) 0 with
      | none => rfl
      | some last =>
        have hpositive : 0 < bytesToPages bytes := by
          rw [Nat.pos_iff_ne_zero]
          intro hzero
          rw [hzero, scanRun_zero] at hscan
          cases hscan
        obtain ⟨start, -, hfirst⟩ := (Scanned.init hpositive).scanRun_some hscan
        have hle := hfirst.first_le
        have hend := hfirst.le_limit
        refine absurd ⟨hpositive, by omega, ?_⟩ (h start)
        have hlimit : minIndex minAddr +
            (s.maxIndex maxAddr - minIndex minAddr) = s.maxIndex maxAddr := by omega
        exact hlimit ▸ hfirst

/-! What the returned address is meant to say. -/

/-- The pages of `[addr, addr + bytes)` were free and are taken, no other page
changes, and the range keeps to the limits. -/
structure ContiguousResult (s s' : State) (bytes minAddr maxAddr boundary addr : Nat) : Prop where
  taken : ∀ page, addr ≤ page * archPageSize → page * archPageSize < addr + bytes →
    isBitmapEntryFree s page = true ∧ isBitmapEntryFree s' page = false
  others : ∀ page, ¬ (addr ≤ page * archPageSize ∧ page * archPageSize < addr + bytes) →
    isBitmapEntryFree s' page = isBitmapEntryFree s page
  min_le : minAddr ≤ addr
  le_max : maxAddr ≠ 0 → addr + bytes ≤ maxAddr
  inside : boundary ≠ 0 → ∀ k, ¬ (addr < k * boundary ∧ k * boundary < addr + bytes)

def ContiguousContract (s : State) (bytes minAddr maxAddr boundary : Nat) :
    Prop :=
  ∀ addr s', allocPhysContiguous s bytes minAddr maxAddr boundary = .ok (addr, s') → addr ≠ 0 →
    ContiguousResult s s' bytes minAddr maxAddr boundary addr

lemma State.maxIndex_le (hhigh : s.highestPageIndex < maxMemoryPages)
    (hmax : maxAddr < 2 ^ 32) : s.maxIndex maxAddr ≤ maxMemoryPages := by
  unfold maxIndex
  split
  · exact hhigh
  · have hpages : maxMemoryPages = 1048576 := rfl
    have hsize : archPageSize = 4096 := rfl
    rw [hsize]
    omega

lemma bytes_pos_of_pages (h : 0 < bytesToPages bytes) : 0 < bytes := by
  rw [Nat.pos_iff_ne_zero]
  rintro rfl
  revert h
  decide

/-- The page behind the run is not taken, so the address is right only where
none is returned: when there is no run, or when the first one ends at 4 GiB. -/
theorem contiguousContract_iff (hstack : s.allocationStack.isSome = true)
    (hhigh : s.highestPageIndex < maxMemoryPages) (hmax : maxAddr < 2 ^ 32) :
    ContiguousContract s bytes minAddr maxAddr boundary ↔
    ∀ start, Finds s bytes minAddr maxAddr boundary start →
    start + bytesToPages bytes = maxMemoryPages := by
  have hpages : maxMemoryPages = 1048576 := rfl
  have hsize : archPageSize = 4096 := rfl
  constructor
  · intro hcontract start hfinds
    by_contra hne
    have hlimit := hfinds.first.le_limit.trans (s.maxIndex_le hhigh hmax)
    have hpositive := hfinds.positive
    obtain ⟨s', hcall, -, hfree⟩ := allocPhysContiguous_of_finds hstack hfinds
    have haddr : (start + bytesToPages bytes) * archPageSize % 2 ^ 32 =
        (start + bytesToPages bytes) * archPageSize := by
      rw [hsize]
      omega
    rw [haddr] at hcall
    have hnonzero : (start + bytesToPages bytes) * archPageSize ≠ 0 := by
      rw [hsize]
      omega
    have hbytes := bytes_pos_of_pages hpositive
    obtain ⟨hbefore, hafter⟩ := (hcontract _ s' hcall hnonzero).taken
      (start + bytesToPages bytes) (Nat.le_refl _) (by omega)
    rw [(hfree _).mpr ⟨hbefore, by omega⟩] at hafter
    cases hafter
  · intro hends addr s' hcall hnonzero
    by_cases hfinds : ∃ start, Finds s bytes minAddr maxAddr boundary start
    · obtain ⟨start, hfinds⟩ := hfinds
      obtain ⟨t, hcall', -⟩ := allocPhysContiguous_of_finds hstack hfinds
      rw [hcall', hends start hfinds] at hcall
      cases hcall
      exact absurd rfl hnonzero
    · rw [allocPhysContiguous_of_not_finds (not_exists.mp hfinds)] at hcall
      cases hcall
      exact absurd rfl hnonzero

/-- Sixty-four free pages in stack mode. -/
def sixtyFourPages : State where
  allocationBitmap := fun base => if base < 2 then 0xFFFFFFFF else 0
  allocationStack := some fun i => i
  allocationStackPointer := 64
  pagesLeft := 64
  totalPages := 64
  highestPageIndex := 63

theorem contiguousContract_iff_every_page_boundary :
    ContiguousContract sixtyFourPages 0x2000 0 0 0x1000 := by
  refine (contiguousContract_iff rfl (by decide) (by decide)).mpr fun start hfinds => ?_
  have hsuits := hfinds.first.isRun start (Nat.le_refl _) (Nat.lt_add_of_pos_right hfinds.positive)
  simp [State.suits, archPageSize, Nat.mod_one] at hsuits

/-- Two pages are asked for, pages 0 and 1 are taken, and the address is that
of page 2. -/
theorem contiguousContract_fails : ¬ ContiguousContract sixtyFourPages 0x2000 0 0 0 := by
  intro hcontract
  have heval : (allocPhysContiguous sixtyFourPages 0x2000 0 0 0).toOption.map
      (fun result => (result.1, isBitmapEntryFree result.2 2)) =
        some (0x2000, true) := by decide +kernel
  cases hcall : allocPhysContiguous sixtyFourPages 0x2000 0 0 0 with
  | error stop =>
    rw [hcall] at heval
    cases heval
  | ok result =>
    rw [hcall] at heval
    simp only [Except.toOption, Option.map_some, Option.some.injEq, Prod.mk.injEq] at heval
    have hresult := hcontract result.1 result.2 hcall (by rw [heval.1]; decide)
    rw [heval.1] at hresult
    have htaken := (hresult.taken 2 (by decide) (by decide)).2
    rw [heval.2] at htaken
    cases htaken

end Merlon.Physical
