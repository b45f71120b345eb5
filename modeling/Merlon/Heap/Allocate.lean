/-
`RequestBlock`, `FindBlock`, `AllocHeapEx` and `FreeHeap` of the kernel's heap.
A new region is cut from a reserve block; everything else is the allocator at
the kernel's size classes.
-/
import Merlon.Heap.Reserve

namespace Merlon.Heap

open ByteMemory

section RequestBlock

variable {areas : List Nat} {s s' : State} {cells : List Cell} {base totalSize : Nat}

lemma Cut.newRegion (hcut : Cut areas s totalSize base s') (hpositive : 0 < totalSize) :
    kernelClasses.NewRegion s base totalSize s' := by
  obtain ⟨haligned, hpos, hsize, hmax, htop⟩ := hcut.pages
  simp only [archPageSize] at haligned hpos hsize
  refine ⟨⟨hpos, ?_, ?_, ?_, hmax, htop⟩, hcut.regions, hcut.headBlock,
    hcut.apart, fun at_ _ => by rw [hcut.memory]⟩ <;> omega

/-- The size `RequestBlock` asks the reserve blocks for. -/
def regionSize (totalSize : Nat) : Nat :=
  (totalSize + minReqSize * 2 + archPageSize - 1) / archPageSize * archPageSize

lemma regionSize_spec (totalSize : Nat) : regionSize totalSize % archPageSize = 0 ∧
    totalSize + 2 * minReqSize ≤ regionSize totalSize := by
  simp only [regionSize, archPageSize]
  omega

lemma requestBlock_spec {request : Nat} (hreserves : Reserves areas s)
    (hvalid : kernelClasses.Valid s cells) :
    kernelClasses.Requests (Reserves areas)
      (fun stop => stop = .panicCannotMallocWithoutFaulting ∧
        ¬ ReserveHolds s (regionSize request)) s cells request (requestBlock s request) := by
  obtain ⟨haligned, hlarge⟩ := regionSize_spec request
  have hpositive : 0 < regionSize request := by
    simp only [minReqSize] at hlarge
    omega
  refine (allocateFromReserveBlocks_spec hreserves haligned hpositive).bind ?_
  rintro ⟨base, s'⟩ hcut
  have hnew := hcut.newRegion hpositive
  have hadded := hnew.added hvalid
  rw [← regionMemory_eq _ hnew.region.large] at hadded
  have hne : base ≠ 0 := Nat.pos_iff_ne_zero.mp hnew.region.positive
  simp only [if_neg hne]
  exact ⟨base, _, rfl, hlarge, hadded, hcut.reserves.congr rfl rfl⟩

lemma requestBlock_refused {request : Nat} (hnone : ¬ ReserveHolds s (regionSize request)) :
    requestBlock s request = .error .panicCannotMallocWithoutFaulting := by
  have hreserve := (smallestReserve_none_iff s _).mpr hnone
  rw [regionSize] at hreserve
  simp only [requestBlock, allocateFromReserveBlocks, hreserve, error_bind]

end RequestBlock

/-- The two ways a request is refused: no reserve block is large enough, or
the size is beyond the table of list sizes. -/
def Stop.Refusal (stop : Stop) : Prop :=
  stop = .panicCannotMallocWithoutFaulting ∨ stop = .outOfBounds

section FindBlock

variable {areas : List Nat} {s : State} {cells : List Cell} {request : Nat}

/-- A request with a class above its own is served, or no list and no reserve
block can serve it. -/
lemma findBlock_ends {low limit : Nat} (hreserves : Reserves areas s)
    (hvalid : kernelClasses.Valid s cells) (halign : request % 8 = 0)
    (hmin : 8 ≤ request) (hlow : kernelClasses.smallestIndex request = .ok low)
    (hlimit : kernelClasses.sizes[low + 1]? = some limit) :
    Ends (findBlock s request)
      (fun stop => stop = .panicCannotMallocWithoutFaulting ∧ kernelClasses.emptyFrom s low = true ∧
        ¬ ReserveHolds s (regionSize (limit + metadataTotal)))
      (kernelClasses.Served (Reserves areas) s cells request) := by
  rw [findBlock_eq]
  refine Classes.findBlock_spec
    (fun hregions hblocks h => h.congr hregions hblocks) hreserves hvalid halign hmin hlow ?_ ?_
  · intro _ hnone
    rw [hlimit] at hnone
    cases hnone
  · intro hempty other hother
    obtain rfl : limit = other := Option.some.inj (hlimit.symm.trans hother)
    exact (requestBlock_spec hreserves hvalid).mono fun _ ⟨hstop, hnone⟩ => ⟨hstop, hempty, hnone⟩

lemma findBlock_spec (hreserves : Reserves areas s)
    (hvalid : kernelClasses.Valid s cells) (halign : request % 8 = 0) (hmin : 8 ≤ request) :
    Ends (findBlock s request) Stop.Refusal
      (kernelClasses.Served (Reserves areas) s cells request) := by
  rw [findBlock_eq]
  cases hlow : kernelClasses.smallestIndex request with
  | error stop =>
    rw [Classes.findBlock, hlow]
    refine .inr ?_
    rw [Classes.smallestIndex] at hlow
    split at hlow
    · cases hlow
    · exact (Except.error.inj hlow).symm
  | ok low =>
    refine Classes.findBlock_spec (fun hregions hblocks h => h.congr hregions hblocks) hreserves
      hvalid halign hmin hlow (fun _ _ => .inr rfl) ?_
    intro _ limit _
    exact (requestBlock_spec hreserves hvalid).mono fun _ h => .inl h.1

end FindBlock

/-! The calls. -/

/-- Rounding does not wrap below the last multiple of eight. -/
lemma roundUpSize_spec {size : Nat} (hpositive : size ≠ 0) (hbound : size ≤ 0xFFFFFFF8) :
    ∃ rounded, roundUpSize size = .ok rounded ∧ rounded % 8 = 0 ∧ 8 ≤ rounded ∧ size ≤ rounded := by
  refine ⟨_, by rw [roundUpSize, if_neg hpositive], ?_⟩
  simp only [minReqSize, alignment]
  by_cases hsmall : size < 8
  · simp [hsmall]
    omega
  · simp only [hsmall, ↓reduceIte]
    omega

lemma roundUpSize_le {size rounded bound : Nat} (hround : roundUpSize size = .ok rounded)
    (hbound : bound % 8 = 0) (hmin : 8 ≤ bound) (hle : size ≤ bound) : rounded ≤ bound := by
  rw [roundUpSize] at hround
  split at hround
  · cases hround
  · simp only [minReqSize, alignment, Except.ok.injEq] at hround
    by_cases hsmall : size < 8
    · simp only [hsmall, ↓reduceIte] at hround
      omega
    · simp only [hsmall, ↓reduceIte] at hround
      omega

/-- `AllocHeapEx` returns the payload of the block that was found. -/
lemma allocHeapEx_ends {areas : List Nat} {s : State} {cells : List Cell}
    {size rounded : Nat} {zero : Bool} {Fails : Stop → Prop}
    (hpositive : size ≠ 0) (hround : roundUpSize size = .ok rounded) (hle : size ≤ rounded)
    (hfind : Ends (findBlock s rounded) Fails
      (kernelClasses.Served (Reserves areas) s cells rounded)) :
    Ends (allocHeapEx s size zero) Fails (fun result =>
      ∃ d cells', result.1 = d.address + metadataLeading ∧
        kernelClasses.Granted s cells size result.2 cells' d ∧ Reserves areas result.2) := by
  rw [allocHeapEx, if_neg hpositive]
  rw [hround]
  refine hfind.bind ?_
  rintro ⟨_, s'⟩ ⟨d, cells', rfl, hgranted, hreserves'⟩
  have hd : d ∈ cells' := (hgranted.held d hgranted.used).mpr (.inr rfl)
  have haligned := (hgranted.valid.arranged.fits d hd).aligned
  have hroom := hgranted.room
  simp only [alignment, haligned]
  cases zero with
  | false => exact ⟨d, cells', rfl, hgranted.write hle rfl rfl fun _ _ => rfl,
      hreserves'.congr rfl rfl⟩
  | true =>
    refine ⟨d, cells', rfl, hgranted.write hle rfl rfl ?_, hreserves'.congr rfl rfl⟩
    intro at_ hat
    simp only [metadataTotal, Cell.stop] at hroom hat
    exact fill_apply_of_outside _ (by simp only [metadataLeading]; omega)

lemma allocHeapEx_spec {areas : List Nat} {s : State} {cells : List Cell} {size : Nat} {zero : Bool}
    (hreserves : Reserves areas s) (hvalid : kernelClasses.Valid s cells) (hpositive : size ≠ 0)
    (hbound : size ≤ 0xFFFFFFF8) : Ends (allocHeapEx s size zero) Stop.Refusal (fun result =>
      ∃ d cells', result.1 = d.address + metadataLeading ∧
        kernelClasses.Granted s cells size result.2 cells' d ∧ Reserves areas result.2) := by
  obtain ⟨rounded, hround, halign, hmin, hle⟩ := roundUpSize_spec hpositive hbound
  exact allocHeapEx_ends hpositive hround hle (findBlock_spec hreserves hvalid halign hmin)

lemma freeHeap_spec {s : State} {cells : List Cell} {c : Cell}
    (hvalid : kernelClasses.Valid s cells) (hc : c ∈ cells) (hused : c.kind = .used) :
    ∃ s' cells', freeHeap s (c.address + metadataLeading) = .ok s' ∧
    kernelClasses.Returned s cells c s' cells' := by
  obtain ⟨address, s', cells', hadd, hreturned⟩ := Classes.giveBack_spec hvalid hc hused
  refine ⟨{ s' with
      outstandingAllocations := s'.outstandingAllocations - 1 }, cells', ?_,
    hreturned.valid.count _, hreturned.held, hreturned.bytes,
    hreturned.regions, hreturned.reserveBlocks⟩
  have hne : c.address + metadataLeading ≠ 0 := by
    simp only [metadataLeading]
    omega
  rw [freeHeap, if_neg hne]
  dsimp only
  rw [Nat.add_sub_cancel, addBlock_eq, hadd, ok_bind]

end Merlon.Heap
