/-
Runs of the heap: allocations and frees in any order, areas added at any
point, and the owners of live allocations writing to them.  Requests whose
size rounds up without wrapping keep the representation invariant and keep
live allocations apart from everything else; a request that wraps breaks both.
-/
import Merlon.Heap.Allocate
import Merlon.Library.Transition

namespace Merlon.Heap

open ByteMemory List

/-- The heap with its history: the live allocations with their requested
sizes, and the areas it was given. -/
structure Session where
  heap : State
  live : List (Nat × Nat)
  areas : List Nat

/-- `refill` is the insertion of a fresh area by `RefillReservePages`, which
drops the heap lock around `MapVirtEasy`: its scan says nothing about the heap
at that point, so the insertion may happen at any point. -/
inductive Call where
  | alloc (size : Nat) (zero : Bool)
  | free (ptr : Nat)
  | refill (address : Nat)
  | write (ptr offset : Nat) (value : UInt8)

/-- Whether `AddBlockToBackupHeap` finds an entry for a new area. -/
def hasReserveEntry (s : State) : Bool :=
  (range maxReserveBlocks).any (fun i => !(s.reserveBlocks i).valid)

def Call.step (k : Session) : Call → Except Stop Session
  | .alloc size zero => do
      let (ptr, heap) ← allocHeapEx k.heap size zero
      .ok { k with
        heap := heap
        live := if ptr = 0 then k.live else (ptr, size) :: k.live }
  | .free ptr => do
      let heap ← freeHeap k.heap ptr
      .ok { k with
        heap := heap
        live := k.live.filter (fun entry => entry.1 ≠ ptr) }
  | .refill address =>
    .ok { k with
      heap := addBlockToBackupHeap k.heap address bootstrapSize
      areas := if hasReserveEntry k.heap then address :: k.areas
        else k.areas }
  | .write ptr offset value =>
    .ok { k with
      heap := k.heap.setMemory (k.heap.memory.storeByte (ptr + offset) value) }

/-- What callers and the kernel keep to: sizes are `size_t` values, only live
pointers are freed, `MapVirtEasy` returns fresh areas, and owners write inside
their allocations. -/
def Call.Allowed (k : Session) : Call → Prop
  | .alloc size _ => size < 2 ^ 32
  | .free ptr => ∃ size, (ptr, size) ∈ k.live
  | .refill address => FreshArea k.areas address
  | .write ptr offset _ => ∃ size, (ptr, size) ∈ k.live ∧ offset < size

/-- The request does not wrap in `RoundUpSize`. -/
def Call.Bounded : Call → Prop
  | .alloc size _ => size ≤ 0xFFFFFFF8
  | _ => True

def Session.Step (k : Session) (call : Call) (k' : Session) : Prop :=
  call.Allowed k ∧ call.step k = .ok k'

def Session.start (area : BootstrapArea) : Session where
  heap := initialState area
  live := []
  areas := [area.address]

/-- Cells in use are the live allocations. -/
structure Sound (k : Session) (cells : List Cell) : Prop where
  valid : Valid k.heap cells
  reserves : Reserves k.areas k.heap
  owner : ∀ c ∈ cells, c.kind = .used → ∃ size, (c.address + metadataLeading, size) ∈ k.live
  owned : ∀ entry ∈ k.live, ∃ c ∈ cells, c.kind = .used ∧
    entry.1 = c.address + metadataLeading ∧ entry.2 + metadataTotal ≤ c.size
  nodup : (k.live.map Prod.fst).Nodup

lemma sound_iff (k : Session) (cells : List Cell) :
    Sound k cells ↔ kernelClasses.Accounts k.heap k.live cells ∧ Reserves k.areas k.heap :=
  ⟨fun h => ⟨⟨(valid_iff _ _).mp h.valid, h.owner, h.owned, h.nodup⟩, h.reserves⟩,
    fun ⟨h, hreserves⟩ => ⟨(valid_iff _ _).mpr h.valid, hreserves, h.owner, h.owned, h.nodup⟩⟩

lemma Sound.accounts {k : Session} {cells : List Cell}
    (hsound : Sound k cells) : kernelClasses.Accounts k.heap k.live cells :=
  ((sound_iff k cells).mp hsound).1

lemma reserves_start (area : BootstrapArea) : Reserves [area.address] (initialState area) := by
  have hpages : Pages (area.address, bootstrapSize) :=
    ⟨area.aligned, Nat.pos_of_ne_zero area.nonzero,
      by simp only [bootstrapSize, archPageSize], Nat.le_refl _, area.bounded⟩
  have hzero : ∀ i, ((initialState area).reserveBlocks i).valid = true → i = 0 := by
    intro i hvalid
    by_contra hne
    simp [initialState, hne] at hvalid
  refine ⟨?_, ?_, ?_, ?_, ?_, ?_, ?_⟩
  · intro i _ hvalid
    rw [hzero i hvalid]
    exact hpages
  · intro i _ hvalid
    rw [hzero i hvalid]
    exact ⟨area.address, by simp, Nat.le_refl _, Nat.le_refl _⟩
  · intro i _ j _ hne hi hj
    exact absurd ((hzero i hi).trans (hzero j hj).symm) hne
  · simp [initialState]
  · simp [initialState]
  · simp [initialState]
  · exact List.Pairwise.nil

lemma sound_start (area : BootstrapArea) : Sound (Session.start area) [] :=
  (sound_iff _ _).mpr ⟨Classes.accounts_start rfl (fun _ => rfl), reserves_start area⟩

section Steps

variable {k k' : Session} {cells : List Cell}

lemma Sound.refill {address : Nat} (hsound : Sound k cells) (hfresh : FreshArea k.areas address) :
    Sound { k with
      heap := addBlockToBackupHeap k.heap address bootstrapSize
      areas := if hasReserveEntry k.heap then address :: k.areas
        else k.areas } cells where
  __ := hsound
  valid := addBlockToBackupHeap_valid hsound.valid hsound.reserves hfresh
  reserves := by
    by_cases hentry : hasReserveEntry k.heap = true
    · simp only [hentry]
      exact addBlockToBackupHeap_reserves hsound.reserves hfresh
    · have hfull : (range maxReserveBlocks).find?
          (fun i => !(k.heap.reserveBlocks i).valid) = none := by
        rw [find?_eq_none]
        intro i hi hinvalid
        exact hentry (any_eq_true.mpr ⟨i, hi, hinvalid⟩)
      simp only [hentry, addBlockToBackupHeap, hfull]
      exact hsound.reserves

/-- What a bounded call on a sound session does: it is refused for lack of
memory, or it returns and the session stays sound with the bytes of all cells
in use that stay in use. -/
lemma Sound.call (hsound : Sound k cells) {call : Call} (hallowed : call.Allowed k)
    (hbounded : call.Bounded) : Ends (call.step k) Stop.Refusal (fun k' =>
      ∃ cells', Sound k' cells' ∧ ((∀ ptr offset value,
        call ≠ .write ptr offset value) → ∀ entry ∈ k.live,
        entry ∈ k'.live → ∀ at_, entry.1 ≤ at_ → at_ < entry.1 + entry.2 →
        k'.heap.memory at_ = k.heap.memory at_)) := by
  have haccounts := hsound.accounts
  cases call with
  | alloc size zero =>
    by_cases hzero : size = 0
    · subst hzero
      exact ⟨cells, hsound, fun _ _ _ _ _ _ _ => rfl⟩
    · refine (allocHeapEx_spec hsound.reserves haccounts.valid hzero hbounded).bind ?_
      rintro ⟨ptr, heap⟩ ⟨d, cells', hptr, hgranted, hreserves⟩
      subst hptr
      refine ⟨cells', (sound_iff _ _).mpr ⟨haccounts.alloc hgranted, hreserves⟩, ?_⟩
      intro _ entry hentry _ at_ hlow hhigh
      exact haccounts.alloc_bytes hgranted hentry hlow hhigh
  | free ptr =>
    obtain ⟨size, hlive⟩ := hallowed
    obtain ⟨c, hc, hused, hptr, _⟩ := hsound.owned _ hlive
    obtain ⟨heap, cells', hfree, hreturned⟩ := freeHeap_spec haccounts.valid hc hused
    rw [← hptr] at hfree
    simp only [Call.step, hfree]
    refine ⟨cells', (sound_iff _ _).mpr
      ⟨haccounts.free hc hptr hreturned, hsound.reserves.congr
        hreturned.regions hreturned.reserveBlocks⟩, ?_⟩
    intro _ entry _ hstays at_ hlow hhigh
    exact haccounts.free_bytes hptr hreturned hstays hlow hhigh
  | refill address =>
    refine ⟨cells, hsound.refill hallowed, ?_⟩
    intro _ entry hentry _ at_ hlow hhigh
    obtain ⟨c, hc, _, _, hin⟩ := haccounts.payload hentry
    obtain ⟨hlow', hhigh'⟩ := hin at_ hlow hhigh
    exact addBlockToBackupHeap_memory hsound.valid.arranged hsound.reserves
      hallowed c hc at_ hlow' hhigh'
  | write ptr offset value =>
    obtain ⟨size, hlive, hoffset⟩ := hallowed
    exact ⟨cells, (sound_iff _ _).mpr ⟨haccounts.write hlive hoffset,
        hsound.reserves.congr rfl rfl⟩, fun hother => absurd rfl (hother ptr offset value)⟩

/-- A step that respects the bound. -/
def Session.BoundedStep (k : Session) (call : Call) (k' : Session) : Prop :=
  k.Step call k' ∧ call.Bounded

lemma Sound.step {call : Call} (hsound : ∃ cells, Sound k cells)
    (hstep : k.BoundedStep call k') : ∃ cells, Sound k' cells := by
  obtain ⟨cells, hsound⟩ := hsound
  obtain ⟨⟨hallowed, hok⟩, hbounded⟩ := hstep
  have hends := hsound.call hallowed hbounded
  rw [hok] at hends
  obtain ⟨cells', hsound', _⟩ := hends
  exact ⟨cells', hsound'⟩

lemma sound_of_run {area : BootstrapArea} {calls : List Call}
    (hrun : Run Session.BoundedStep (Session.start area) calls k) : ∃ cells, Sound k cells :=
  hrun.invariant ⟨[], sound_start area⟩ (fun _ _ _ hsound hstep => Sound.step hsound hstep)

end Steps

/-! Two sample calls. -/

/-- A bootstrap area in the kernel's half of the address space. -/
def sampleArea : BootstrapArea where
  address := 0xC0200000
  aligned := by decide
  nonzero := by decide
  bounded := by decide

lemma sample_allocation : ∃ k : Session,
    (Session.start sampleArea).BoundedStep (.alloc 24 false) k ∧ k.live = [(0xC0200FDC, 24)] := by
  have heval : ((Call.alloc 24 false).step (Session.start sampleArea)).toOption.map
      Session.live = some [(0xC0200FDC, 24)] := by decide +kernel
  cases hstep : (Call.alloc 24 false).step (Session.start sampleArea) with
  | error stop =>
    rw [hstep] at heval
    cases heval
  | ok k =>
    rw [hstep] at heval
    exact ⟨k, ⟨⟨by simp [Call.Allowed], hstep⟩, by simp [Call.Bounded]⟩,
      by simpa [Except.toOption] using heval⟩

/-- Rounding 0xFFFFFFFF up gives zero, so the block holds no payload. -/
lemma wrapped_allocation : ∃ k :
    Session, (Session.start sampleArea).Step (.alloc 0xFFFFFFFF false) k ∧
    k.live = [(0xC0200FF4, 0xFFFFFFFF)] ∧ k.heap.regions = [(0xC0200000, 4096)] ∧
    k.heap.memory.load 0xC0200FF0 = 9 := by
  have heval : ((Call.alloc 0xFFFFFFFF false).step
      (Session.start sampleArea)).toOption.map (fun k =>
        (k.live, k.heap.regions, k.heap.memory.load 0xC0200FF0)) =
        some ([(0xC0200FF4, 0xFFFFFFFF)], [(0xC0200000, 4096)], 9) := by
    decide +kernel
  cases hstep : (Call.alloc 0xFFFFFFFF false).step (Session.start sampleArea) with
  | error stop =>
    rw [hstep] at heval
    cases heval
  | ok k =>
    rw [hstep] at heval
    simp only [Except.toOption, Option.map_some, Option.some.injEq, Prod.mk.injEq] at heval
    exact ⟨k, ⟨by simp [Call.Allowed], hstep⟩, heval⟩

/-! The representation invariant. -/

/-- The cells and lists a session's heap represents: the regions are tiled by
tagged, aligned cells without two free neighbours, the cells in use are the
live allocations, and each list is a well-linked list of exactly the free
cells whose size selects it. -/
structure Represents (k : Session) (cells : List Cell) (lists : Nat → List Nat) : Prop where
  tiled : Tiled k.heap.regions cells
  tags : ∀ c ∈ cells, Tagged k.heap.memory c
  aligned : ∀ c ∈ cells, c.address % alignment = 0
  calm : cells.IsChain (fun left right => left.kind ≠ .free ∨ right.kind ≠ .free)
  live : ∀ c ∈ cells, c.kind = .used ↔ ∃ size, (c.address + metadataLeading, size) ∈ k.live
  linked : ∀ i < totalNumFreeLists, LinkedList (nextOf k.heap.memory)
    (prevOf k.heap.memory) 0 (k.heap.headBlock i) (lists i)
  nodup : ∀ i < totalNumFreeLists, (lists i).Nodup
  listed : ∀ c ∈ cells, ∀ i < totalNumFreeLists, c.address ∈ lists i ↔
    c.kind = .free ∧ getInsertionIndex (c.size - metadataTotal) = .ok i
  indexed : ∀ c ∈ cells, c.kind = .free → ∃ i < totalNumFreeLists,
    getInsertionIndex (c.size - metadataTotal) = .ok i
  onlyCells : ∀ i < totalNumFreeLists, ∀ address ∈ lists i, ∃ c ∈ cells, c.address = address

lemma Sound.represents {k : Session} {cells : List Cell}
    (hsound : Sound k cells) : ∃ lists, Represents k cells lists := by
  obtain ⟨lists, h⟩ := hsound.accounts.represents
  refine ⟨lists, { h with live := h.used, listed := ?_, indexed := ?_ }⟩
  · intro c hc i hi
    exact h.listed c hc i (kernelClasses_count ▸ hi)
  · intro c hc hfree
    obtain ⟨i, hi, hindex⟩ := h.indexed c hc hfree
    exact ⟨i, kernelClasses_count ▸ hi, getInsertionIndex_eq _ ▸ hindex⟩

/-- A stretch of free blocks without two free neighbours is one block. -/
lemma single_of_free {low high : Nat} {blocks : List Cell}
    (hblocks : Contiguous low high blocks) (hlt : low < high) (hfree : ∀ c ∈ blocks, c.kind = .free)
    (hcalm : blocks.IsChain (fun left right => left.kind ≠ .free ∨ right.kind ≠ .free)) :
    blocks = [⟨low, high - low, .free⟩] := by
  match blocks, hblocks with
  | [], heq => exact absurd heq (Nat.ne_of_lt hlt)
  | [c], hblocks =>
    obtain ⟨haddr, hstop⟩ := hblocks
    obtain ⟨address, size, kind⟩ := c
    have hkind := hfree _ mem_cons_self
    simp only [Contiguous, Cell.stop] at haddr hstop hkind
    subst haddr hkind
    simp only [cons.injEq, Cell.mk.injEq, and_true, true_and]
    omega
  | c :: d :: rest, _ =>
    rw [isChain_cons_cons] at hcalm
    rcases hcalm.1 with hc | hd
    · exact absurd (hfree c (by simp)) hc
    · exact absurd (hfree d (by simp)) hd

/-- With nothing allocated every region is one free block. -/
lemma Sound.region_free {k : Session} {cells : List Cell} (hsound : Sound k cells)
    (hnone : k.live = []) {base size : Nat} (hregion : (base, size) ∈ k.heap.regions) :
    ∃ before after, cells = before ++
    [leftFence base, regionBlock base size, rightFence base size] ++ after := by
  obtain ⟨before, region, after, rfl, blocks, rfl, hcontiguous, hblocks⟩ :=
    hsound.valid.arranged.tiled.region hregion
  have hlarge : 4096 ≤ size := hsound.reserves.regionsLarge _ hregion
  refine ⟨before, after, ?_⟩
  have hfree : ∀ c ∈ blocks, c.kind = .free := by
    intro c hc
    have hmem : c ∈ before ++ ⟨base, minReqSize, .fence⟩ ::
        (blocks ++ [⟨base + size - minReqSize, minReqSize, .fence⟩]) ++ after := by simp [hc]
    cases hkind : c.kind with
    | fence => exact absurd hkind (hblocks c hc)
    | used =>
      obtain ⟨_, hlive⟩ := hsound.owner c hmem hkind
      simp [hnone] at hlive
    | free => rfl
  have hcalm := hsound.valid.arranged.calm.left_of_append.right_of_append.tail
  have hsingle := single_of_free hcontiguous
    (by simp only [minReqSize]; omega) hfree hcalm.left_of_append
  rw [hsingle]
  simp only [leftFence, regionBlock, rightFence, minReqSize, cons_append,
    nil_append, append_cancel_left_eq, append_assoc, cons.injEq, Cell.mk.injEq, and_true, true_and]
  omega

/-- Freeing a block of eight bytes overwrites its trailing tag. -/
lemma freeHeap_short {s : State} (block : Nat) (htag : s.memory.load block / 4 * 4 = 8) :
    freeHeap s (block + metadataLeading) = .error (.assertionFailure .getSize) := by
  have hfirst : (clearLinks s.memory block).load block = s.memory.load block := by
    apply load_congr
    intro at_ _ hhigh
    exact clearLinks_apply _ (by omega)
  have hlast : (clearLinks s.memory block).load (block + 4) = 0 := load_store_of_lt _ (by omega)
  have hsize : getSize (clearLinks s.memory block) block = .error (.assertionFailure .getSize) := by
    simp only [getSize, hfirst, htag]
    rw [show block + 8 - 4 = block + 4 by omega, if_neg (by omega)]
  rw [freeHeap, if_neg (by simp only [metadataLeading]; omega)]
  dsimp only
  rw [Nat.add_sub_cancel, addBlockDepth, addBlock]
  simp only [State.setMemory, hsize, error_bind]

/-- In every run of allowed, bounded calls the heap represents its cells and
lists, no allowed and bounded call fails an assertion, and with nothing
allocated each region is one free block of its full size. -/
theorem run_represents {area : BootstrapArea} {calls : List Call} {k : Session}
    (hrun : Run Session.BoundedStep (Session.start area) calls k) :
    (∃ cells lists, Represents k cells lists ∧ (k.live = [] →
      ∀ base size, (base, size) ∈ k.heap.regions → ∃ before after,
        cells = before ++ [leftFence base, regionBlock base size, rightFence base size] ++ after)) ∧
      ∀ call : Call, call.Allowed k → call.Bounded → ∀ check,
        call.step k ≠ .error (.assertionFailure check) := by
  obtain ⟨cells, hsound⟩ := sound_of_run hrun
  obtain ⟨lists, hrepresents⟩ := hsound.represents
  refine ⟨⟨cells, lists, hrepresents,
    fun hnone base size hregion => hsound.region_free hnone hregion⟩, ?_⟩
  intro call hallowed hbounded check hfail
  have hends := hsound.call hallowed hbounded
  rw [hfail] at hends
  rcases hends with hstop | hstop <;> cases hstop

theorem run_represents_one_allocation : ∃ k : Session,
    k.live = [(0xC0200FDC, 24)] ∧ ∃ cells lists, Represents k cells lists := by
  obtain ⟨k, hstep, hlive⟩ := sample_allocation
  obtain ⟨⟨cells, lists, hrepresents, _⟩, _⟩ := run_represents (Run.single hstep)
  exact ⟨k, hlive, cells, lists, hrepresents⟩

/-- A request that wraps is served with an eight-byte block, and freeing it
fails the assertion of `GetSize`. -/
theorem wrapped_request_fails_free : ∃ k : Session, Run Session.Step (Session.start sampleArea)
    [.alloc 0xFFFFFFFF false] k ∧ (Call.free 0xC0200FF4).Allowed k ∧
    (Call.free 0xC0200FF4).step k = .error (.assertionFailure .getSize) := by
  obtain ⟨k, hstep, hlive, _, htag⟩ := wrapped_allocation
  refine ⟨k, Run.single hstep, ⟨0xFFFFFFFF, by simp [hlive]⟩, ?_⟩
  have hfree : freeHeap k.heap 0xC0200FF4 = .error (.assertionFailure .getSize) :=
    freeHeap_short 0xC0200FF0 (by rw [htag])
  simp only [Call.step, hfree, error_bind]

/-! Separation. -/

/-- Live payloads lie in regions, apart from each other, from all size tags
and from all links, and no byte is in two regions. -/
structure Separated (k : Session) (cells : List Cell) : Prop where
  inside : ∀ entry ∈ k.live, ∃ region ∈ k.heap.regions, Inside entry region
  apart : k.live.Pairwise RangeApart
  tags : ∀ entry ∈ k.live, ∀ c ∈ cells, RangeApart entry (c.address, 4) ∧
    RangeApart entry (c.stop - 4, 4)
  links : ∀ entry ∈ k.live, ∀ c ∈ cells, c.kind = .free → RangeApart entry (nextField c.address, 8)
  regions : k.heap.regions.Pairwise RangeApart
  areas : ∀ region ∈ k.heap.regions, InArea k.areas region

lemma Sound.separated {k : Session} {cells : List Cell}
    (hsound : Sound k cells) : Separated k cells := by
  obtain ⟨hinside, hapart, htags, hlinks⟩ := hsound.accounts.separated
  exact ⟨hinside, hapart, htags, hlinks, hsound.reserves.regionsApart, hsound.reserves.regionsIn⟩

/-- In every run of allowed, bounded calls live allocations are separated, and
the next such call other than a write by an owner changes no byte of an
allocation that stays live. -/
theorem run_separated {area : BootstrapArea} {calls : List Call} {k : Session}
    (hrun : Run Session.BoundedStep (Session.start area) calls k) :
    (∃ cells, Valid k.heap cells ∧ Separated k cells) ∧ ∀ (call : Call) (k' : Session),
    k.BoundedStep call k' → (∀ ptr offset value, call ≠ .write ptr offset value) → ∀ entry ∈ k.live,
    entry ∈ k'.live → ∀ at_, entry.1 ≤ at_ → at_ < entry.1 + entry.2 →
    k'.heap.memory at_ = k.heap.memory at_ := by
  obtain ⟨cells, hsound⟩ := sound_of_run hrun
  refine ⟨⟨cells, hsound.valid, hsound.separated⟩, ?_⟩
  rintro call k' ⟨⟨hallowed, hok⟩, hbounded⟩
  have hends := hsound.call hallowed hbounded
  rw [hok] at hends
  obtain ⟨_, _, hbytes⟩ := hends
  exact hbytes

theorem run_separated_one_allocation : ∃ k : Session,
    k.live = [(0xC0200FDC, 24)] ∧ ∃ cells, Valid k.heap cells ∧ Separated k cells := by
  obtain ⟨k, hstep, hlive⟩ := sample_allocation
  obtain ⟨hcells, _⟩ := run_separated (Run.single hstep)
  exact ⟨k, hlive, hcells⟩

/-- The payload of a request that wraps runs out of its region. -/
theorem wrapped_request_leaves_region : ∃ k : Session, Run Session.Step (Session.start sampleArea)
    [.alloc 0xFFFFFFFF false] k ∧ (0xC0200FF4, 0xFFFFFFFF) ∈ k.live ∧ ∀ region ∈ k.heap.regions,
    ¬ Inside (0xC0200FF4, 0xFFFFFFFF) region := by
  obtain ⟨k, hstep, hlive, hregions, _⟩ := wrapped_allocation
  refine ⟨k, Run.single hstep, by simp [hlive], ?_⟩
  intro region hmem
  rw [hregions, mem_singleton] at hmem
  simp [hmem, Inside]

end Merlon.Heap
