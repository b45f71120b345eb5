/-
Runs that mix single pages and contiguous blocks.  The counter, the bitmap and
the stack agree as long as no contiguous block is handed out; handing out one
leaves the counter too large.
-/
import Merlon.Physical.Contiguous

namespace Merlon.Physical

open Virtual (bytesToPages)

/-- The allocator in stack mode with its history: the pages handed out one by
one, and the blocks with their sizes. -/
structure BlockSession where
  phys : State
  handedOut : List Nat
  blocks : List (Nat × Nat)

inductive BlockCall where
  | alloc
  | dealloc (addr : Nat)
  | allocContiguous (bytes minAddr maxAddr boundary : Nat)
  | deallocContiguous (addr bytes : Nat)

def BlockCall.step (k : BlockSession) : BlockCall → Except Stop BlockSession
  | .alloc => do
      let (addr, phys) ← allocPhys k.phys
      .ok { k with phys := phys, handedOut := addr :: k.handedOut }
  | .dealloc addr => do
      let phys ← deallocPhys k.phys addr
      .ok { k with phys := phys, handedOut := k.handedOut.erase addr }
  | .allocContiguous bytes minAddr maxAddr boundary => do
      let (addr, phys) ←
        allocPhysContiguous k.phys bytes minAddr maxAddr boundary
      if addr = 0 then .ok { k with phys := phys }
      else .ok { k with phys := phys, blocks := (addr, bytes) :: k.blocks }
  | .deallocContiguous addr bytes => do
      let phys ← deallocPhysContiguous k.phys addr bytes
      .ok { k with phys := phys, blocks := k.blocks.erase (addr, bytes) }

/-- Exactly what was allocated is freed. -/
def BlockCall.Allowed (k : BlockSession) : BlockCall → Prop
  | .dealloc addr => addr ∈ k.handedOut
  | .deallocContiguous addr bytes => (addr, bytes) ∈ k.blocks
  | _ => True

/-- No run of pages answers a contiguous request. -/
def BlockCall.Spares (k : BlockSession) : BlockCall → Prop
  | .allocContiguous bytes minAddr maxAddr boundary =>
    ∀ start, ¬ Finds k.phys bytes minAddr maxAddr boundary start
  | _ => True

def BlockSession.Step (k : BlockSession) (call : BlockCall) (k' : BlockSession) : Prop :=
  call.Allowed k ∧ call.step k = .ok k'

def BlockSession.SparingStep (k : BlockSession) (call : BlockCall) (k' : BlockSession) : Prop :=
  call.Spares k ∧ k.Step call k'

def BlockSession.start (s : State) : BlockSession where
  phys := s
  handedOut := []
  blocks := []

/-- The counter and the stack agree with the bitmap. -/
structure Accounted (s : State) : Prop where
  left : s.pagesLeft = (freePages s).card
  stacked : s.allocationStackPointer = (freePages s).card

variable {s s' : State} {k k' : BlockSession}

lemma Consistent.accounted (h : Consistent s)
    (hstack : s.allocationStack.isSome = true) : Accounted s := by
  obtain ⟨stack, hstack⟩ := Option.isSome_iff_exists.mp hstack
  refine ⟨h.count, ?_⟩
  have hpages : freePages s = (stackPages s stack).toFinset := by
    ext i
    rw [mem_freePages h, List.mem_toFinset, h.stacked stack hstack]
  rw [hpages, List.toFinset_card_of_nodup (h.nodup stack hstack)]
  simp [stackPages]

lemma deallocPhys_stack {addr : Nat} (h : deallocPhys s addr = .ok s') :
    s'.allocationStack.isSome = s.allocationStack.isSome := by
  unfold deallocPhys at h
  split at h
  · obtain ⟨t, hbitmap, hpush⟩ := bind_eq_ok h
    have ht : t.allocationStack = s.allocationStack := by
      unfold deallocateBitmapEntry at hbitmap
      split at hbitmap
      · cases hbitmap
      · cases hbitmap
        rfl
    rw [← ht]
    cases hstack : t.allocationStack with
    | none =>
      rw [hstack] at hpush
      cases hpush
      rw [hstack]
    | some stack =>
      rw [hstack] at hpush
      dsimp only [pushIndex] at hpush
      split at hpush
      · cases hpush
        rfl
      · cases hpush
  · cases h

/-- What holds while no block is handed out. -/
structure Single (usable : Nat → Prop) (k : BlockSession) : Prop where
  divided : Divided usable k.phys k.handedOut
  stacked : k.phys.allocationStack.isSome = true
  none : k.blocks = []

lemma Single.start (hs : Consistent s) (hstack : s.allocationStack.isSome = true) :
    Single (fun page => isBitmapEntryFree s page = true) (BlockSession.start s) where
  divided := ⟨hs, List.nodup_nil, by simp [BlockSession.start],
    by simp [BlockSession.start], by simp [BlockSession.start],
    fun page hpage => ⟨hs.bounded page hpage, hs.high page hpage⟩⟩
  stacked := hstack
  none := rfl

lemma Single.step {usable : Nat → Prop} {call : BlockCall}
    (h : Single usable k) (hstep : k.SparingStep call k') : Single usable k' := by
  obtain ⟨hspares, hallowed, hcall⟩ := hstep
  cases call with
  | alloc =>
    obtain ⟨⟨addr, phys⟩, halloc, hnext⟩ := bind_eq_ok hcall
    cases hnext
    have hends := h.divided.alloc
    rw [halloc] at hends
    exact ⟨hends.1, hends.2 ▸ h.stacked, h.none⟩
  | dealloc addr =>
    obtain ⟨phys, hdealloc, hnext⟩ := bind_eq_ok hcall
    cases hnext
    obtain ⟨phys', hok, hdivided⟩ := h.divided.dealloc hallowed
    rw [hdealloc] at hok
    cases hok
    exact ⟨hdivided, (deallocPhys_stack hdealloc).trans h.stacked, h.none⟩
  | allocContiguous bytes minAddr maxAddr boundary =>
    obtain ⟨⟨addr, phys⟩, halloc, hnext⟩ := bind_eq_ok hcall
    rw [allocPhysContiguous_of_not_finds hspares] at halloc
    cases halloc
    cases hnext
    exact h
  | deallocContiguous addr bytes =>
    have hmem : (addr, bytes) ∈ k.blocks := hallowed
    rw [h.none] at hmem
    cases hmem

/-- While no contiguous request is answered, the three copies of the number of
free pages agree after every call, and `AllocPhys` stops only when no page is
free. -/
theorem run_accounted (hs : Consistent s) (hstack : s.allocationStack.isSome = true)
    {calls : List BlockCall} (hrun : Run BlockSession.SparingStep (BlockSession.start s) calls k) :
    Accounted k.phys ∧ ∀ stop, allocPhys k.phys = .error stop → freePages k.phys = ∅ := by
  have hsingle : Single (fun page => isBitmapEntryFree s page = true) k :=
    hrun.invariant (Single.start hs hstack) fun _ _ _ hbefore hstep => hbefore.step hstep
  have hconsistent := hsingle.divided.consistent
  refine ⟨hconsistent.accounted hsingle.stacked, fun stop hstop => ?_⟩
  have hends := hsingle.divided.alloc
  rw [hstop] at hends
  rw [← allocPhys_panic_iff hconsistent, hstop]
  exact congrArg Except.error hends

lemma isBitmapEntryFree_sixtyFourPages (i : Nat) :
    isBitmapEntryFree sixtyFourPages i = true ↔ i < 64 := by
  have hbit : i % 32 < 32 := Nat.mod_lt _ (by decide)
  simp only [isBitmapEntryFree, sixtyFourPages, bitsPerEntry]
  split
  · have hones : (0xFFFFFFFF : BitVec 32) = BitVec.allOnes 32 := rfl
    rw [hones, BitVec.getLsbD_allOnes]
    simp only [hbit, decide_true, true_iff]
    omega
  · have hclear : (0 : BitVec 32).getLsbD (i % 32) = false := by simp
    rw [hclear]
    simp only [Bool.false_eq_true, false_iff]
    omega

lemma sixtyFourPages_consistent : Consistent sixtyFourPages where
  bounded i hi := by
    have hlt := (isBitmapEntryFree_sixtyFourPages i).mp hi
    exact hlt.trans (by decide)
  high i hi := Nat.le_of_lt_succ ((isBitmapEntryFree_sixtyFourPages i).mp hi)
  count := by
    have hpages : freePages sixtyFourPages = Finset.range 64 := by
      ext i
      simp only [freePages, Finset.mem_filter, Finset.mem_range, isBitmapEntryFree_sixtyFourPages]
      exact ⟨fun h => h.2, fun h => ⟨h.trans (by decide), h⟩⟩
    rw [hpages]
    rfl
  idle hnone := by cases hnone
  nodup stack hstack := by
    cases hstack
    simpa [stackPages] using List.nodup_range
  stacked stack hstack i := by
    cases hstack
    rw [isBitmapEntryFree_sixtyFourPages]
    simp [stackPages, sixtyFourPages]

/-- A page is taken, and a request for thirty-two pages is refused because the
reserve would not be left. -/
theorem run_accounted_refused :
    ∃ k, Run BlockSession.SparingStep (BlockSession.start sixtyFourPages)
    [.alloc, .allocContiguous 0x20000 0 0 0] k ∧ Accounted k.phys := by
  have heval : ((allocPhys sixtyFourPages).toOption.map fun result =>
      result.2.pagesLeft) = some 63 := by decide +kernel
  cases halloc : allocPhys sixtyFourPages with
  | error stop =>
    rw [halloc] at heval
    cases heval
  | ok result =>
    rw [halloc] at heval
    simp only [Except.toOption, Option.map_some, Option.some.injEq] at heval
    have hspares : ∀ start, ¬ Finds result.2 0x20000 0 0 0 start := by
      intro start hfinds
      have henough := hfinds.enough
      rw [heval] at henough
      revert henough
      decide
    have hfirst : (BlockSession.start sixtyFourPages).SparingStep .alloc
        ⟨result.2, [result.1], []⟩ :=
      ⟨trivial, trivial, by
        rw [BlockCall.step, BlockSession.start, halloc, ok_bind]⟩
    have hsecond : BlockSession.SparingStep ⟨result.2, [result.1], []⟩
        (.allocContiguous 0x20000 0 0 0) ⟨result.2, [result.1], []⟩ :=
      ⟨hspares, trivial, by
        rw [BlockCall.step, allocPhysContiguous_of_not_finds hspares, ok_bind]
        rfl⟩
    have hrun := Run.snoc (Run.single hfirst) hsecond
    exact ⟨_, hrun, (run_accounted sixtyFourPages_consistent rfl hrun).1⟩

/-- Answering a contiguous request breaks the account: the pages leave the
bitmap and are still counted. -/
lemma not_accounted_of_finds {bytes minAddr maxAddr boundary start : Nat} (hs : Consistent s)
    (hstack : s.allocationStack.isSome = true)
    (hfinds : Finds s bytes minAddr maxAddr boundary start) :
    ∃ addr s', allocPhysContiguous s bytes minAddr maxAddr boundary = .ok (addr, s') ∧
    ¬ Accounted s' := by
  obtain ⟨s', hcall, hleft, hfree⟩ := allocPhysContiguous_of_finds hstack hfinds
  refine ⟨_, s', hcall, fun haccounted => ?_⟩
  have hpositive := hfinds.positive
  have hstart : isBitmapEntryFree s start = true := State.suits_free
    (hfinds.first.isRun start (Nat.le_refl _) (by omega))
  have hless : freePages s' ⊂ freePages s := by
    refine Finset.ssubset_iff_subset_ne.mpr ⟨fun i hi => ?_, fun heq => ?_⟩
    · simp only [freePages, Finset.mem_filter] at hi ⊢
      exact ⟨hi.1, ((hfree i).mp hi.2).1⟩
    · have hmem := (mem_freePages hs start).mpr hstart
      rw [← heq] at hmem
      simp only [freePages, Finset.mem_filter] at hmem
      exact ((hfree start).mp hmem.2).2 ⟨Nat.le_refl _, by omega⟩
  have hcard := Finset.card_lt_card hless
  rw [← haccounted.left, hleft, hs.count] at hcard
  exact Nat.lt_irrefl _ hcard

/-- Two pages are handed out and sixty-four are still counted. -/
theorem allocContiguous_unaccounted : ∃ k, Run BlockSession.Step (BlockSession.start sixtyFourPages)
    [.allocContiguous 0x2000 0 0 0] k ∧ ¬ Accounted k.phys := by
  have hfinds : Finds sixtyFourPages 0x2000 0 0 0 0 := by
    refine ⟨by decide, by decide, Nat.le_refl _, by decide, ?_, fun other _ hlt => by omega⟩
    intro i _ hlt
    have hpages : bytesToPages 0x2000 = 2 := by decide
    have hfree := (isBitmapEntryFree_sixtyFourPages i).mpr (by omega)
    simp [State.suits, hfree]
  obtain ⟨addr, s', hcall, hbroken⟩ := not_accounted_of_finds sixtyFourPages_consistent rfl hfinds
  have hstep : ∃ k', BlockCall.step (BlockSession.start sixtyFourPages)
      (.allocContiguous 0x2000 0 0 0) = .ok k' ∧ k'.phys = s' := by
    rw [BlockCall.step, BlockSession.start, hcall, ok_bind]
    dsimp only
    split
    · exact ⟨_, rfl, rfl⟩
    · exact ⟨_, rfl, rfl⟩
  obtain ⟨k', hok, rfl⟩ := hstep
  exact ⟨k', Run.single ⟨trivial, hok⟩, hbroken⟩

end Merlon.Physical
