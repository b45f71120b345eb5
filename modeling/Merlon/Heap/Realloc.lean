/-
`ReallocHeap` of `kernel/mem/heap.c`.  The size it takes from the tag of the
old block counts the block's own metadata, so a request for up to eight bytes
more than the block holds is answered in place, and a larger one copies eight
bytes too many.
-/
import Merlon.Heap.Runs

namespace Merlon.Heap

open ByteMemory

/-- What a call returns and leaves.  `copied` is a history variable: the range
that `memcpy` has read. -/
structure Reallocation where
  ptr : Nat
  heap : State
  copied : Option (Nat × Nat)

def reallocHeap (s : State) (ptr newSize : Nat) : Except Stop Reallocation := do
  let oldSize ← getSize s.memory (ptr - metadataLeading)
  if newSize ≤ oldSize then .ok ⟨ptr, s, none⟩
  else
    let (newPtr, s) ← allocHeap s newSize
    if newPtr = 0 then .ok ⟨0, s, none⟩
    else
      let s := s.setMemory (s.memory.splice newPtr oldSize fun offset =>
        s.memory (ptr + offset))
      let s ← freeHeap s ptr
      .ok ⟨newPtr, s, some (ptr, oldSize)⟩

/-- The bytes of an allocation's block that are not metadata. -/
def usableSize (s : State) (ptr : Nat) : Nat :=
  s.memory.load (ptr - metadataLeading) / 4 * 4 - metadataTotal

/-- What is expected of the reallocation of a live `ptr` of `size` bytes. -/
structure Reallocated (k : Session) (ptr size newSize : Nat) (r : Reallocation) : Prop where
  room : newSize ≤ usableSize r.heap r.ptr
  contents : ∀ offset, offset < size → offset < newSize →
    r.heap.memory (r.ptr + offset) = k.heap.memory (ptr + offset)
  reads : ∀ range, r.copied = some range → Inside range (ptr, usableSize k.heap ptr)
  others : ∀ entry ∈ k.live, entry.1 ≠ ptr → ∀ at_, entry.1 ≤ at_ →
    at_ < entry.1 + entry.2 → r.heap.memory at_ = k.heap.memory at_

variable {k : Session} {s : State} {live : List (Nat × Nat)}
  {cells : List Cell} {ptr size newSize : Nat}

/-- The cell of a live allocation and its size tag. -/
lemma accounts_cell (haccounts : kernelClasses.Accounts s live cells)
    (hlive : (ptr, size) ∈ live) : ∃ c ∈ cells, c.kind = .used ∧ ptr = c.address + metadataLeading ∧
    size + metadataTotal ≤ c.size ∧ getSize s.memory (ptr - metadataLeading) = .ok c.size ∧
    usableSize s ptr + metadataTotal = c.size := by
  obtain ⟨c, hc, hused, hptr, hroom⟩ := haccounts.owned _ hlive
  have hsized := (haccounts.valid.tags c hc).1
  have haddress : ptr - metadataLeading = c.address := by omega
  refine ⟨c, hc, hused, hptr, hroom, ?_, ?_⟩
  · rw [haddress]
    exact hsized.getSize
  · rw [usableSize, haddress, hsized.1]
    omega

lemma allocHeapEx_ne_zero {zero : Bool} {s' : State} (hsize : size ≠ 0)
    (halloc : allocHeapEx s size zero = .ok (ptr, s')) : ptr ≠ 0 := by
  rw [allocHeapEx, if_neg hsize] at halloc
  obtain ⟨rounded, -, hfind⟩ := bind_eq_ok halloc
  obtain ⟨⟨block, t⟩, -, hreturn⟩ := bind_eq_ok hfind
  dsimp only at hreturn
  split at hreturn
  · cases hreturn
    exact Nat.succ_ne_zero _
  · cases hreturn

/-- A block that is large enough stays as it is. -/
lemma reallocHeap_in_place (hsound : Sound k cells) (hlive : (ptr, size) ∈ k.live)
    (hle : newSize ≤ usableSize k.heap ptr) :
    reallocHeap k.heap ptr newSize = .ok ⟨ptr, k.heap, none⟩ := by
  obtain ⟨c, -, -, -, -, hsize, husable⟩ := accounts_cell hsound.accounts hlive
  rw [reallocHeap, hsize]
  exact if_pos (by omega)

/-- A block that is too small for a request is either taken for large enough
all the same, or copied together with its trailing tag and the leading tag of
its neighbour. -/
lemma reallocHeap_too_small {r : Reallocation} (hsound : Sound k cells)
    (hlive : (ptr, size) ∈ k.live) (hlt : usableSize k.heap ptr < newSize)
    (hcall : reallocHeap k.heap ptr newSize = .ok r) :
    r = ⟨ptr, k.heap, none⟩ ∨ r.copied = some (ptr, usableSize k.heap ptr + metadataTotal) := by
  obtain ⟨c, -, -, -, -, hsize, husable⟩ := accounts_cell hsound.accounts hlive
  rw [reallocHeap, hsize, ok_bind] at hcall
  split at hcall
  · cases hcall
    exact .inl rfl
  · obtain ⟨⟨newPtr, s⟩, halloc, hrest⟩ := bind_eq_ok hcall
    dsimp only at hrest
    split at hrest
    · rename_i hzero
      exact absurd hzero (allocHeapEx_ne_zero (by omega) halloc)
    · obtain ⟨s', hfree, hdone⟩ := bind_eq_ok hrest
      cases hdone
      rw [husable]
      exact .inr rfl

/-- A sample block of 32 bytes with its metadata. -/
lemma block_of_32 : ∃ k : Session, (Session.start sampleArea).BoundedStep (.alloc 24 false) k ∧
    (0xC0200FDC, 24) ∈ k.live ∧ usableSize k.heap 0xC0200FDC = 24 := by
  have heval : ((Call.alloc 24 false).step (Session.start sampleArea)).toOption.map (fun k =>
        (k.live, usableSize k.heap 0xC0200FDC)) =
        some ([(0xC0200FDC, 24)], 24) := by decide +kernel
  cases hstep : (Call.alloc 24 false).step (Session.start sampleArea) with
  | error stop =>
    rw [hstep] at heval
    cases heval
  | ok k =>
    rw [hstep] at heval
    simp only [Except.toOption, Option.map_some, Option.some.injEq, Prod.mk.injEq] at heval
    exact ⟨k, ⟨⟨by simp [Call.Allowed], hstep⟩, by simp [Call.Bounded]⟩, by simp [heval.1], heval.2⟩

/-- In every state that runs of allowed, bounded calls reach, a live
allocation is reallocated as expected exactly when its block already has
room. -/
theorem reallocHeap_iff {area : BootstrapArea} {calls : List Call}
    (hrun : Run Session.BoundedStep (Session.start area) calls k) (hlive : (ptr, size) ∈ k.live) :
    (∃ r, reallocHeap k.heap ptr newSize = .ok r ∧ Reallocated k ptr size newSize r) ↔
    newSize ≤ usableSize k.heap ptr := by
  obtain ⟨cells, hsound⟩ := sound_of_run hrun
  constructor
  · rintro ⟨r, hcall, hexpected⟩
    by_contra hlt
    rcases reallocHeap_too_small hsound hlive (Nat.lt_of_not_le hlt) hcall with rfl | hcopied
    · exact hlt hexpected.room
    · have hinside := hexpected.reads _ hcopied
      simp only [Inside, metadataTotal] at hinside
      omega
  · intro hle
    exact ⟨_, reallocHeap_in_place hsound hlive hle, hle,
      fun offset _ _ => rfl, fun range hrange => (by cases hrange), fun entry _ _ at_ _ _ => rfl⟩

theorem reallocHeap_iff_shrink : ∃ k : Session, (0xC0200FDC, 24) ∈ k.live ∧
    ∃ r, reallocHeap k.heap 0xC0200FDC 16 = .ok r ∧ Reallocated k 0xC0200FDC 24 16 r := by
  obtain ⟨k, hstep, hlive, husable⟩ := block_of_32
  exact ⟨k, hlive, (reallocHeap_iff (Run.single hstep) hlive).mpr (by rw [husable]; decide)⟩

/-- The block of 24 bytes is returned for a request of 32. -/
theorem reallocHeap_short_block : ∃ k : Session, Run Session.BoundedStep (Session.start sampleArea)
    [.alloc 24 false] k ∧ (0xC0200FDC, 24) ∈ k.live ∧
    ¬ ∃ r, reallocHeap k.heap 0xC0200FDC 32 = .ok r ∧ Reallocated k 0xC0200FDC 24 32 r := by
  obtain ⟨k, hstep, hlive, husable⟩ := block_of_32
  have hrun := Run.single hstep
  refine ⟨k, hrun, hlive, ?_⟩
  rintro ⟨r, hcall, hexpected⟩
  obtain ⟨cells, hsound⟩ := sound_of_run hrun
  rcases reallocHeap_too_small hsound hlive (by rw [husable]; decide) hcall with rfl | hcopied
  · have hroom := hexpected.room
    rw [husable] at hroom
    revert hroom
    decide
  · have hinside := hexpected.reads _ hcopied
    simp only [Inside, metadataTotal] at hinside
    omega

end Merlon.Heap
