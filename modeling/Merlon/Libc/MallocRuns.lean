/-
Runs of `malloc`, `calloc` and `free` in any order, with the owners of live
blocks writing to them.  While `mmap` returns fresh regions and no request is
larger than 128 MiB every call returns, the memory represents the tiled
regions and the free lists, and live blocks are kept apart and unchanged.
-/
import Merlon.Libc.Malloc
import Merlon.Library.Machine

namespace Merlon.Malloc

open Heap ByteMemory

/-! One call. -/

/-- What `mmap` may return for a new region. -/
structure FreshRegion (s : State) (address size : Nat) : Prop where
  positive : 0 < address
  aligned : address % archPageSize = 0
  top : address + size ≤ 2 ^ 32
  apart : ∀ region ∈ s.regions, RangeApart region (address, size)

/-- The size of the region a request maps, if no list can serve it. -/
def neededRegion (s : State) (size : Nat) : Option Nat :=
  match roundUpSize size >>= getSmallestListIndexThatFits with
  | .error _ => none
  | .ok low =>
    if mallocClasses.emptyFrom s low then
      (freeListBlockSizes[low + 1]?).map (fun limit => regionSize (limit + metadataTotal))
    else none

/-- The regions share no byte. -/
def RegionsApart (s : State) : Prop :=
  s.regions.Pairwise RangeApart

variable {s : State} {address limit size : Nat} {cells : List Cell}

lemma RegionsApart.congr {s' : State} (hregions : s'.regions = s.regions)
    (hapart : RegionsApart s) : RegionsApart s' := by
  rw [RegionsApart, hregions]
  exact hapart

lemma regionSize_spec (limit : Nat) : regionSize limit % 65536 = 0 ∧
    limit + 2 * minReqSize ≤ regionSize limit ∧
    (limit ≤ 1024 * 1024 * 256 + metadataTotal → regionSize limit ≤ maxRegion) := by
  simp only [regionSize, minReqSize, metadataTotal, maxRegion]
  omega

lemma mapRegion_newRegion (hlimit : limit ≤ 1024 * 1024 * 256 + metadataTotal)
    (hfresh : FreshRegion s address (regionSize limit)) :
    mallocClasses.NewRegion s address (regionSize limit)
      (mapRegion s address (regionSize limit)) := by
  obtain ⟨halign, hlarge, hmax⟩ := regionSize_spec limit
  obtain ⟨hpos, haligned, htop, hapart⟩ := hfresh
  simp only [archPageSize, minReqSize] at haligned hlarge
  refine ⟨⟨hpos, by omega, by omega, by omega, hmax hlimit, htop⟩, rfl, rfl, hapart, ?_⟩
  intro at_ hat
  exact fill_apply_of_outside _ hat

lemma requestBlock_spec (hapart : RegionsApart s) (hvalid : mallocClasses.Valid s cells)
    (hlimit : limit ≤ 1024 * 1024 * 256 + metadataTotal)
    (hfresh : FreshRegion s address (regionSize limit)) :
    mallocClasses.Requests RegionsApart (fun _ => False) s cells limit
      (requestBlock address s limit) := by
  have hnew := mapRegion_newRegion hlimit hfresh
  have hadded := hnew.added hvalid
  rw [← regionMemory_eq _ hnew.region.large] at hadded
  have hregions : RegionsApart (mapRegion s address (regionSize limit)) :=
    List.pairwise_append.mpr ⟨hapart, List.pairwise_singleton _ _, fun region hregion last hlast =>
        List.mem_singleton.mp hlast ▸ hfresh.apart region hregion⟩
  rw [requestBlock]
  simp only [if_neg (Nat.pos_iff_ne_zero.mp hfresh.positive)]
  exact ⟨address, _, rfl, (regionSize_spec limit).2.1, hadded, hregions⟩

lemma roundUpSize_le_maxRequest (hpositive : size ≠ 0) (hle : size ≤ maxRequest) :
    ∃ rounded, roundUpSize size = .ok rounded ∧ rounded % 8 = 0 ∧ 8 ≤ rounded ∧ size ≤ rounded ∧
    rounded ≤ maxRequest := by
  obtain ⟨rounded, hround, halign, hmin, hsize⟩ :=
    roundUpSize_spec hpositive (by simp only [maxRequest] at hle; omega)
  exact ⟨rounded, hround, halign, hmin, hsize, roundUpSize_le hround (by decide) (by decide) hle⟩

lemma findBlock_spec {low : Nat} (hapart : RegionsApart s)
    (hvalid : mallocClasses.Valid s cells) (halign : size % 8 = 0)
    (hmin : 8 ≤ size) (hlow : getSmallestListIndexThatFits size = .ok low)
    (hlimit : freeListBlockSizes[low + 1]? = some limit) (hmax : limit ≤ 1024 * 1024 * 256)
    (hfresh : mallocClasses.emptyFrom s low = true →
      FreshRegion s address (regionSize (limit + metadataTotal))) :
    Ends (findBlock address s size) (fun _ => False)
      (mallocClasses.Served RegionsApart s cells size) := by
  have hclass : mallocClasses.sizes[low + 1]? = some limit := hlimit
  refine Classes.findBlock_spec (fun hregions _ h => h.congr hregions) hapart
    hvalid halign hmin hlow ?_ ?_
  · intro _ hnone
    rw [hclass] at hnone
    cases hnone
  · intro hempty other hother
    obtain rfl : limit = other := Option.some.inj (hclass.symm.trans hother)
    exact requestBlock_spec hapart hvalid (Nat.add_le_add_right hmax _) (hfresh hempty)

/-- A `malloc` of at most 128 MiB hands out a block. -/
lemma malloc_spec (hapart : RegionsApart s) (hvalid : mallocClasses.Valid s cells)
    (hpositive : size ≠ 0) (hle : size ≤ maxRequest)
    (hfresh : ∀ total ∈ neededRegion s size, FreshRegion s address total) :
    ∃ d s' cells', malloc address s size = .ok (d.address + metadataLeading, s') ∧
    mallocClasses.Granted s cells size s' cells' d ∧ RegionsApart s' := by
  obtain ⟨rounded, hround, halign, hmin, hsize, hbound⟩ := roundUpSize_le_maxRequest hpositive hle
  obtain ⟨low, limit, hlow, hlimit, hmax⟩ := smallestIndex_of_le hbound
  have hserved := findBlock_spec hapart hvalid halign hmin hlow hlimit hmax
    (fun hempty => hfresh _ (by
      simp [neededRegion, hround, hlow, hempty, hlimit]))
  cases hfind : findBlock address s rounded with
  | error stop =>
    rw [hfind] at hserved
    exact hserved.elim
  | ok result =>
    rw [hfind] at hserved
    obtain ⟨d, cells', haddress, hgranted, hapart'⟩ := hserved
    have hd : d ∈ cells' := (hgranted.held d hgranted.used).mpr (.inr rfl)
    have haligned := (hgranted.valid.arranged.fits d hd).aligned
    refine ⟨d, result.2, cells', ?_, hgranted.write hsize rfl rfl fun _ _ => rfl, hapart'⟩
    rw [malloc, if_neg hpositive]
    simp only [hround, ok_bind, hfind, ← haddress, alignment, haligned, ↓reduceIte]

lemma free_spec {c : Cell} (hvalid : mallocClasses.Valid s cells) (hc : c ∈ cells)
    (hused : c.kind = .used) : ∃ s' cells', free s (c.address + metadataLeading) = .ok s' ∧
    mallocClasses.Returned s cells c s' cells' := by
  obtain ⟨address, s', cells', hadd, hreturned⟩ := Classes.giveBack_spec hvalid hc hused
  refine ⟨s', cells', ?_, hreturned⟩
  have hne : c.address + metadataLeading ≠ 0 := by
    simp only [metadataLeading]
    omega
  rw [free, if_neg hne]
  simp only [Nat.add_sub_cancel, addBlock, hadd, ok_bind]

/-- A `calloc` of at most 128 MiB hands out a zeroed block. -/
lemma calloc_spec {num : Nat} (hapart : RegionsApart s) (hvalid : mallocClasses.Valid s cells)
    (hpositive : num * size ≠ 0) (hle : num * size ≤ maxRequest)
    (hfresh : ∀ total ∈ neededRegion s (num * size), FreshRegion s address total) :
    ∃ d s' cells', calloc address s num size = .ok (d.address + metadataLeading, s') ∧
    mallocClasses.Granted s cells (num * size) s' cells' d ∧ RegionsApart s' ∧
    ∀ at_, d.address + metadataLeading ≤ at_ → at_ < d.address + metadataLeading + num * size →
    s'.memory at_ = 0 := by
  obtain ⟨d, s', cells', hmalloc, hgranted, hapart'⟩ :=
    malloc_spec hapart hvalid hpositive hle hfresh
  have hmod : num * size % 2 ^ 32 = num * size := by
    simp only [maxRequest] at hle
    omega
  have hne : d.address + metadataLeading ≠ 0 := by
    simp only [metadataLeading]
    omega
  have hroom := hgranted.room
  refine ⟨d, s'.setMemory (s'.memory.fill (d.address + metadataLeading)
    (num * size) 0), cells', ?_, hgranted.write (Nat.le_refl _) rfl rfl ?_, hapart', ?_⟩
  · simp only [calloc, hmod, hmalloc, ok_bind, if_neg hne]
  · intro at_ hat
    simp only [metadataTotal, Cell.stop] at hroom hat
    exact fill_apply_of_outside _ (by simp only [metadataLeading]; omega)
  · intro at_ hlow hhigh
    exact fill_apply_of_inside _ hlow hhigh

/-! Runs. -/

/-- The allocator with the live blocks and their requested sizes. -/
structure Session where
  heap : State
  live : List (Nat × Nat)

/-- The address is what `mmap` returns if the call maps a region. -/
inductive Call where
  | malloc (size address : Nat)
  | calloc (num size address : Nat)
  | free (ptr : Nat)
  | write (ptr offset : Nat) (value : UInt8)

def Session.granted (k : Session) (size : Nat) (result : Nat × State) : Session where
  heap := result.2
  live := if result.1 = 0 then k.live else (result.1, size) :: k.live

def Call.step (k : Session) : Call → Except Stop Session
  | .malloc size address => do
      .ok (k.granted size (← Malloc.malloc address k.heap size))
  | .calloc num size address => do
      .ok (k.granted (num * size) (← Malloc.calloc address k.heap num size))
  | .free ptr => do
      let heap ← Malloc.free k.heap ptr
      .ok ⟨heap, k.live.filter (fun entry => entry.1 ≠ ptr)⟩
  | .write ptr offset value =>
    .ok ⟨k.heap.setMemory (k.heap.memory.storeByte (ptr + offset) value), k.live⟩

/-- A request of a size, and what `mmap` returns for it. -/
def Session.Request (k : Session) (size address : Nat) : Prop :=
  1 ≤ size ∧ size ≤ maxRequest ∧
    ∀ total ∈ neededRegion k.heap size, FreshRegion k.heap address total

/-- What callers and `mmap` keep to: requests are of 1 byte to 128 MiB, mapped
regions are fresh, only live pointers and `NULL` are freed, and owners write
inside their blocks. -/
def Call.Allowed (k : Session) : Call → Prop
  | .malloc size address => k.Request size address
  | .calloc num size address => k.Request (num * size) address
  | .free ptr => ptr = 0 ∨ ∃ entry ∈ k.live, entry.1 = ptr
  | .write ptr offset _ => ∃ entry ∈ k.live, entry.1 = ptr ∧ offset < entry.2

instance (left right : Nat × Nat) : Decidable (RangeApart left right) :=
  inferInstanceAs (Decidable (_ ∨ _))

instance (s : State) (address size : Nat) : Decidable (FreshRegion s address size) :=
  decidable_of_iff (0 < address ∧ address % archPageSize = 0 ∧ address + size ≤ 2 ^ 32 ∧
      ∀ region ∈ s.regions, RangeApart region (address, size))
    ⟨fun h => ⟨h.1, h.2.1, h.2.2.1, h.2.2.2⟩, fun h => ⟨h.positive, h.aligned, h.top, h.apart⟩⟩

instance (k : Session) (size address : Nat) : Decidable (k.Request size address) :=
  inferInstanceAs (Decidable (_ ∧ _ ∧ _))

instance (k : Session) : (call : Call) → Decidable (call.Allowed k)
  | .malloc size address => inferInstanceAs (Decidable (k.Request size address))
  | .calloc num size address => inferInstanceAs (Decidable (k.Request (num * size) address))
  | .free ptr => inferInstanceAs (Decidable (ptr = 0 ∨ ∃ entry ∈ k.live, entry.1 = ptr))
  | .write ptr offset _ => inferInstanceAs
      (Decidable (∃ entry ∈ k.live, entry.1 = ptr ∧ offset < entry.2))

def Session.Step (k : Session) (call : Call) (k' : Session) : Prop :=
  call.Allowed k ∧ call.step k = .ok k'

/-- Before the first call there are no regions and all lists are empty.  Only
mapped memory is ever read, so its contents do not matter. -/
def Session.start (memory : ByteMemory) : Session where
  heap :=
    { memory := memory
      reserveBlocks := fun _ => { address := 0, size := 0, valid := false }
      headBlock := fun _ => 0
      outstandingAllocations := 0
      regions := [] }
  live := []

/-- The books are sound and the regions apart. -/
structure Sound (k : Session) (cells : List Cell) : Prop where
  accounts : mallocClasses.Accounts k.heap k.live cells
  regions : RegionsApart k.heap

lemma sound_start (memory : ByteMemory) : Sound (Session.start memory) [] :=
  ⟨Classes.accounts_start rfl (fun _ => rfl), List.Pairwise.nil⟩

/-- The byte an owner writes. -/
def Call.target : Call → Option Nat
  | .write ptr offset _ => some (ptr + offset)
  | _ => none

/-- What a call does for its caller. -/
def Call.Done (k k' : Session) : Call → Prop
  | .malloc size _ => ∃ ptr, ptr ≠ 0 ∧ k'.live = (ptr, size) :: k.live
  | .calloc num size _ => ∃ ptr, ptr ≠ 0 ∧ k'.live = (ptr, num * size) :: k.live ∧
      ∀ at_, ptr ≤ at_ → at_ < ptr + num * size → k'.heap.memory at_ = 0
  | .free ptr => k'.live = k.live.filter (fun entry => entry.1 ≠ ptr)
  | .write _ _ _ => k'.live = k.live

/-- The blocks that stay live keep their bytes, but for the one written. -/
def Call.Keeps (k k' : Session) (call : Call) : Prop :=
  ∀ entry ∈ k.live, entry ∈ k'.live → ∀ at_, entry.1 ≤ at_ →
    at_ < entry.1 + entry.2 → call.target ≠ some at_ → k'.heap.memory at_ = k.heap.memory at_

section Steps

variable {k k' : Session} {cells : List Cell}

/-- A granted block enters the books. -/
lemma Sound.granted (hsound : Sound k cells) {d : Cell} {s' : State} {cells' : List Cell}
    (hgranted : mallocClasses.Granted k.heap cells size s' cells' d) (hregions : RegionsApart s') :
    (k.granted size (d.address + metadataLeading, s')).live =
        (d.address + metadataLeading, size) :: k.live ∧
      Sound (k.granted size (d.address + metadataLeading, s')) cells' := by
  have hlive : (k.granted size (d.address + metadataLeading, s')).live =
      (d.address + metadataLeading, size) :: k.live := by
    have hne : d.address + metadataLeading ≠ 0 := by
      simp only [metadataLeading]
      omega
    simp only [Session.granted, if_neg hne]
  refine ⟨hlive, ?_, hregions⟩
  exact hsound.accounts.alloc hgranted

/-- Every allowed call on a sound session returns, does what it is for, keeps
the other live blocks and keeps the session sound. -/
lemma Sound.call (hsound : Sound k cells) {call : Call} (hallowed : call.Allowed k) :
    ∃ k' cells', call.step k = .ok k' ∧ Sound k' cells' ∧ call.Done k k' ∧ call.Keeps k k' := by
  have haccounts := hsound.accounts
  cases call with
  | malloc size address =>
    obtain ⟨hpositive, hle, hfresh⟩ := hallowed
    obtain ⟨d, s', cells', hmalloc, hgranted, hregions⟩ :=
      malloc_spec hsound.regions haccounts.valid (by omega) hle hfresh
    obtain ⟨hlive, hsound'⟩ := hsound.granted hgranted hregions
    refine ⟨_, cells', by rw [Call.step, hmalloc, ok_bind], hsound',
      ⟨_, by simp only [metadataLeading]; omega, hlive⟩, ?_⟩
    intro entry hentry _ at_ hlow hhigh _
    exact haccounts.alloc_bytes hgranted hentry hlow hhigh
  | calloc num size address =>
    obtain ⟨hpositive, hle, hfresh⟩ := hallowed
    obtain ⟨d, s', cells', hcalloc, hgranted, hregions, hzero⟩ :=
      calloc_spec hsound.regions haccounts.valid (by omega) hle hfresh
    obtain ⟨hlive, hsound'⟩ := hsound.granted hgranted hregions
    refine ⟨_, cells', by rw [Call.step, hcalloc, ok_bind], hsound',
      ⟨_, by simp only [metadataLeading]; omega, hlive, hzero⟩, ?_⟩
    intro entry hentry _ at_ hlow hhigh _
    exact haccounts.alloc_bytes hgranted hentry hlow hhigh
  | free ptr =>
    rcases hallowed with rfl | ⟨entry, hlive, rfl⟩
    · have hkept : k.live.filter (fun entry => entry.1 ≠ 0) = k.live := by
        rw [List.filter_eq_self]
        intro entry hentry
        obtain ⟨c, _, _, hptr, _⟩ := haccounts.owned entry hentry
        simp [hptr, metadataLeading]
      refine ⟨⟨k.heap, k.live⟩, cells, ?_, hsound, hkept.symm, fun _ _ _ _ _ _ _ => rfl⟩
      rw [Call.step, Malloc.free, if_pos rfl, ok_bind, hkept]
    · obtain ⟨c, hc, hused, hptr, _⟩ := haccounts.owned _ hlive
      obtain ⟨s', cells', hfree, hreturned⟩ := free_spec haccounts.valid hc hused
      rw [← hptr] at hfree
      refine ⟨⟨s', k.live.filter (fun other => other.1 ≠ entry.1)⟩, cells',
        by rw [Call.step, hfree, ok_bind],
        ⟨haccounts.free hc hptr hreturned, hsound.regions.congr hreturned.regions⟩, rfl, ?_⟩
      intro other _ hstays at_ hlow hhigh _
      exact haccounts.free_bytes hptr hreturned hstays hlow hhigh
  | write ptr offset value =>
    obtain ⟨⟨_, size⟩, hlive, rfl, hoffset⟩ := hallowed
    refine ⟨_, cells, rfl, ⟨haccounts.write hlive hoffset, hsound.regions⟩, rfl, ?_⟩
    intro entry _ _ at_ _ _ hother
    exact storeByte_apply_of_ne _ (fun heq => hother (by rw [heq]; rfl))

lemma Sound.step {call : Call} (hsound : ∃ cells, Sound k cells)
    (hstep : k.Step call k') : ∃ cells, Sound k' cells := by
  obtain ⟨cells, hsound⟩ := hsound
  obtain ⟨hallowed, hok⟩ := hstep
  obtain ⟨k'', cells', hok', hsound', _⟩ := hsound.call hallowed
  rw [hok] at hok'
  cases hok'
  exact ⟨cells', hsound'⟩

lemma sound_of_run {memory : ByteMemory} {calls : List Call}
    (hrun : Run Session.Step (Session.start memory) calls k) : ∃ cells, Sound k cells :=
  hrun.invariant ⟨[], sound_start memory⟩ (fun _ _ _ hsound hstep => Sound.step hsound hstep)

end Steps

/-- The table indices of a request stay inside the table: its class has
another one above it. -/
lemma request_in_table (hpositive : 1 ≤ size) (hle : size ≤ maxRequest) :
    ∃ rounded low, roundUpSize size = .ok rounded ∧ getSmallestListIndexThatFits rounded = .ok low ∧
    low + 1 < totalNumFreeLists := by
  obtain ⟨rounded, hround, _, _, _, hbound⟩ :=
    roundUpSize_le_maxRequest (Nat.pos_iff_ne_zero.mp hpositive) hle
  obtain ⟨low, limit, hlow, hlimit, _⟩ := smallestIndex_of_le hbound
  refine ⟨rounded, low, hround, hlow, ?_⟩
  exact (List.getElem?_eq_some_iff.mp hlimit).1

/-- In every run of allowed calls the regions are tiled by tagged blocks with
no two free neighbours, each list holds exactly the free blocks whose size
selects it, live blocks hold what was asked for and are apart from each other,
from tags and from links, and all indices are inside the table.  Every further
allowed call returns, so no assertion fails, and keeps the other live blocks;
`calloc` returns zeroed memory. -/
theorem run_malloc {memory : ByteMemory} {calls : List Call} {k : Session}
    (hrun : Run Session.Step (Session.start memory) calls k) :
    (∃ cells lists, mallocClasses.Represents k.heap k.live cells lists ∧
      Classes.Separated k.heap k.live cells ∧ RegionsApart k.heap) ∧
    (∀ call : Call, call.Allowed k → ∃ k', call.step k = .ok k' ∧
      call.Done k k' ∧ call.Keeps k k') ∧
    (∀ size index, getInsertionIndex size = .ok index → index < totalNumFreeLists) ∧
    ∀ size, 1 ≤ size → size ≤ maxRequest → ∃ rounded low, roundUpSize size = .ok rounded ∧
      getSmallestListIndexThatFits rounded = .ok low ∧ low + 1 < totalNumFreeLists := by
  obtain ⟨cells, hsound⟩ := sound_of_run hrun
  obtain ⟨lists, hrepresents⟩ := hsound.accounts.represents
  refine ⟨⟨cells, lists, hrepresents, hsound.accounts.separated,
    hsound.regions⟩, ?_, fun _ _ => getInsertionIndex_lt, fun _ => request_in_table⟩
  intro call hallowed
  obtain ⟨k', _, hok, _, hdone, hkeeps⟩ := hsound.call hallowed
  exact ⟨k', hok, hdone, hkeeps⟩

lemma step_of_allowed (k : Session) (call : Call) (k' : Session)
    (hready : decide (call.Allowed k) = true) (hok : call.step k = .ok k') : k.Step call k' :=
  ⟨of_decide_eq_true hready, hok⟩

/-- One block is freed after a second one was zeroed. -/
theorem run_malloc_three_calls : ∃ k : Session, k.live = [(0x1000FF5C, 40)] ∧ ∃ cells lists,
    mallocClasses.Represents k.heap k.live cells lists := by
  obtain ⟨k, hrun, hlive⟩ := exists_run_of_carryOut step_of_allowed (Session.start (fun _ => 7))
    [.malloc 100 0x10000000, .calloc 10 4 0, .free 0x1000FF8C]
    (fun k => k.live == [(0x1000FF5C, 40)]) (by decide +kernel)
  obtain ⟨⟨cells, lists, hrepresents, _⟩, _⟩ := run_malloc hrun
  exact ⟨k, by simpa using hlive, cells, lists, hrepresents⟩

end Merlon.Malloc
