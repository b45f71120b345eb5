/-
The bitmap of the swapfile, from `kernel/mem/swapfile.c`.  Its size in bytes is
computed with 32 bits, and so is too small when there is much memory.
-/
import Merlon.Physical.Model

namespace Merlon.Physical

def getTotalPhysKilobytes (totalPages : Nat) : Nat :=
  totalPages * (archPageSize / 1024) % 2 ^ 32

/-- The bytes of swapfile are a `size_t`; they are divided with 64 bits. -/
def getPageCountForBitmap (totalPages : Nat) : Nat :=
  let accessiblePerPage := 8 * archPageSize * archPageSize
  let targetSize := (getTotalPhysKilobytes totalPages * 4 + 32 * 1024) * 1024 % 2 ^ 32
  (targetSize + accessiblePerPage - 1) / accessiblePerPage

/-- The static variables, with the size of the memory behind the bitmap. -/
structure Swapfile where
  swapfileBitmap : Nat → UInt8
  mapped : Nat
  numberOnSwapfile : Int
  bitsInBitmap : Nat

def setupSwapfileBitmap (totalPages : Nat) : Swapfile :=
  let pagesInBitmap := getPageCountForBitmap totalPages
  ⟨fun _ => 0, pagesInBitmap * archPageSize, 0, 8 * pagesInBitmap * archPageSize % 2 ^ 32⟩

namespace Swapfile

def getBitmapEntry (s : Swapfile) (index : Nat) : Bool :=
  s.swapfileBitmap (index / 8) &&& 1 <<< UInt8.ofNat (index % 8) ≠ 0

def setBitmapEntry (s : Swapfile) (index : Nat) : Swapfile :=
  let entry := s.swapfileBitmap (index / 8) ||| 1 <<< UInt8.ofNat (index % 8)
  { s with swapfileBitmap := fun i => if i = index / 8 then entry else s.swapfileBitmap i }

/-- `AllocSwap`, which panics when there is no free bit. -/
def allocSwap (s : Swapfile) : Option (Nat × Swapfile) :=
  let s := { s with numberOnSwapfile := s.numberOnSwapfile + 1 }
  ((List.range s.bitsInBitmap).find? fun i => !s.getBitmapEntry i).map fun i =>
    (i, s.setBitmapEntry i)

end Swapfile

/-- The bitmap has a bit for every page of four times the memory and 32 MiB,
and what `AllocSwap` returns, whatever the bits are, has its bit in it. -/
def BitmapSuffices (totalPages : Nat) : Prop :=
  let s := setupSwapfileBitmap totalPages
  4 * (totalPages * archPageSize) + 32 * 2 ^ 20 ≤ s.bitsInBitmap * archPageSize ∧
    ∀ swapfileBitmap numberOnSwapfile index s', Swapfile.allocSwap { s with
      swapfileBitmap, numberOnSwapfile } = some (index, s') → index / 8 < s.mapped

lemma getPageCountForBitmap_le (totalPages : Nat) : getPageCountForBitmap totalPages ≤ 32 := by
  simp only [getPageCountForBitmap, archPageSize]
  omega

lemma allocSwap_lt {s s' : Swapfile} {index : Nat} (h : s.allocSwap = some (index, s')) :
    index < s.bitsInBitmap := by
  obtain ⟨i, hfind, heq⟩ := Option.map_eq_some_iff.mp h
  cases heq
  exact List.mem_range.mp (List.mem_of_find?_eq_some hfind)

/-- The bitmap suffices below 1016 MiB of memory. -/
theorem bitmapSuffices_iff (totalPages : Nat) : BitmapSuffices totalPages ↔ totalPages < 260096 := by
  have hpages := getPageCountForBitmap_le totalPages
  have hbits : (setupSwapfileBitmap totalPages).bitsInBitmap =
      8 * (setupSwapfileBitmap totalPages).mapped := by
    simp only [setupSwapfileBitmap, archPageSize]
    omega
  have hsize : 4 * (totalPages * archPageSize) + 32 * 2 ^ 20 ≤
      (setupSwapfileBitmap totalPages).bitsInBitmap * archPageSize ↔ totalPages < 260096 := by
    rw [hbits]
    simp only [setupSwapfileBitmap, getPageCountForBitmap, getTotalPhysKilobytes, archPageSize]
    omega
  refine ⟨fun h => hsize.mp h.1, fun hfew => ⟨hsize.mpr hfew, ?_⟩⟩
  intro swapfileBitmap numberOnSwapfile index s' halloc
  have hlt := allocSwap_lt halloc
  dsimp only at hlt
  omega

/-- With 1016 MiB of memory the bitmap has no bits at all. -/
theorem bitmap_empty : (setupSwapfileBitmap 260096).bitsInBitmap = 0 ∧ ¬ BitmapSuffices 260096 :=
  ⟨by decide, fun h => absurd h.1 (by decide)⟩

end Merlon.Physical
