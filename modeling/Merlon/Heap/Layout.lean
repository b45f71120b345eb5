/-
The abstract heap: the cells of all regions in address order, region after
region.  A region is a left fence, blocks without gap or overlap, and a right
fence.  `advance` reads the cells from left to right and remembers where the
next cell has to start, so exchanging a stretch of blocks for another stretch
over the same range keeps the tiling.
-/
import Merlon.Heap.Model
import Mathlib.Data.List.Chain

namespace Merlon.Heap

open Option (bind_eq_bind bind_eq_some_iff)

inductive CellKind where
  | fence
  | used
  | free
deriving DecidableEq

/-- A tagged range of a region. -/
structure Cell where
  address : Nat
  size : Nat
  kind : CellKind
deriving DecidableEq

/-- First address after the cell. -/
def Cell.stop (c : Cell) : Nat := c.address + c.size

/-- Cells follow each other without gap or overlap. -/
def Contiguous : Nat → Nat → List Cell → Prop
  | low, high, [] => low = high
  | low, high, c :: rest => c.address = low ∧ Contiguous c.stop high rest

/-- Blocks are the cells that are not fences. -/
def Blocks (cells : List Cell) : Prop := ∀ c ∈ cells, c.kind ≠ .fence

variable {low high position : Nat} {cells before : List Cell} {c : Cell}
  {regions : List (Nat × Nat)} {rest : List (Nat × Nat)} {stop : Nat}
  {after : List Cell} {base size : Nat} {next : Cursor}

lemma Contiguous.high_unique {high' : Nat} (h : Contiguous low high cells)
    (h' : Contiguous low high' cells) : high = high' := by
  induction cells generalizing low with
  | nil => exact h.symm.trans h'
  | cons c tail ih => exact ih h.2 h'.2

/-- One region: `cells` tile the range of `size` bytes at `base`. -/
def RegionTiled (base size : Nat) (cells : List Cell) : Prop :=
  ∃ blocks : List Cell,
    cells = ⟨base, minReqSize, .fence⟩ ::
      (blocks ++ [⟨base + size - minReqSize, minReqSize, .fence⟩]) ∧
    Contiguous (base + minReqSize) (base + size - minReqSize) blocks ∧ Blocks blocks

/-- The regions still to be read and, inside a region, the address of the next
cell and of the right fence. -/
abbrev Cursor : Type := List (Nat × Nat) × Option (Nat × Nat)

/-- Read one cell. -/
def advance : Cursor → Cell → Option Cursor
  | ((base, size) :: rest, none), c =>
    if c = ⟨base, minReqSize, .fence⟩ then
      some (rest, some (base + minReqSize, base + size - minReqSize))
    else none
  | ([], none), _ => none
  | (rest, some (position, stop)), c =>
    if c.address = position then
      if c.kind = .fence then
        if position = stop ∧ c.size = minReqSize then some (rest, none)
        else none
      else some (rest, some (c.stop, stop))
    else none

/-- Reading the cells consumes exactly the regions. -/
def Tiled (regions : List (Nat × Nat)) (cells : List Cell) : Prop :=
  cells.foldlM advance (regions, none) = some ([], none)

variable {cursor : Cursor}

lemma advance_block (hkind : c.kind ≠ .fence) :
    advance (rest, some (position, stop)) c = some cursor ↔ c.address = position ∧
    cursor = (rest, some (c.stop, stop)) := by
  by_cases haddr : c.address = position
  · simp [advance, hkind, eq_comm]
  · simp [advance, haddr]

lemma advance_fence (hkind : c.kind = .fence) :
    advance (rest, some (position, stop)) c = some cursor ↔ c.address = position ∧ position = stop ∧
    c.size = minReqSize ∧ cursor = (rest, none) := by
  simp only [advance, ↓reduceIte]
  split
  · split
    · rename_i haddr hstop
      simp [haddr, hstop, eq_comm]
    · rename_i haddr hstop
      simp only [reduceCtorEq, false_iff]
      rintro ⟨_, hposition, hsize, _⟩
      exact hstop ⟨hposition, hsize⟩
  · rename_i haddr
    simp [haddr]

lemma advance_start : advance (regions, none) c = some cursor ↔ ∃ base size rest,
      regions = (base, size) :: rest ∧ c = ⟨base, minReqSize, .fence⟩ ∧
      cursor = (rest, some (base + minReqSize, base + size - minReqSize)) := by
  cases regions with
  | nil => simp [advance]
  | cons region rest =>
    obtain ⟨base, size⟩ := region
    by_cases hfence : c = ⟨base, minReqSize, .fence⟩
    · simp [advance, eq_comm]
    · simp only [advance, hfence, ↓reduceIte, reduceCtorEq, false_iff]
      rintro ⟨base', size', rest', heq, hfence', _⟩
      cases heq
      exact hfence hfence'

/-- Blocks move the position and nothing else. -/
lemma foldlM_advance_blocks (hblocks : Blocks cells) :
    cells.foldlM advance (rest, some (position, stop)) = some cursor ↔
    ∃ finish, Contiguous position finish cells ∧ cursor = (rest, some (finish, stop)) := by
  induction cells generalizing position with
  | nil =>
    constructor
    · intro hsome
      exact ⟨position, rfl, by cases hsome; rfl⟩
    · rintro ⟨finish, rfl, rfl⟩
      rfl
  | cons c tail ih =>
    have hkind : c.kind ≠ .fence := hblocks c List.mem_cons_self
    have htail : Blocks tail := fun d hd => hblocks d (List.mem_cons_of_mem c hd)
    simp only [List.foldlM_cons, bind_eq_bind, bind_eq_some_iff]
    constructor
    · rintro ⟨middle, hmiddle, hrest⟩
      obtain ⟨haddr, rfl⟩ := (advance_block hkind).mp hmiddle
      obtain ⟨finish, hcontiguous, rfl⟩ := (ih htail).mp hrest
      exact ⟨finish, ⟨haddr, hcontiguous⟩, rfl⟩
    · rintro ⟨finish, ⟨haddr, hcontiguous⟩, rfl⟩
      exact ⟨_, (advance_block hkind).mpr ⟨haddr, rfl⟩, (ih htail).mpr ⟨finish, hcontiguous, rfl⟩⟩

/-- A block is read in the middle of a region. -/
lemma cursor_of_block (hkind : c.kind ≠ .fence) (hadvance : advance cursor c = some next) :
    ∃ rest stop, cursor = (rest, some (c.address, stop)) := by
  obtain ⟨rest, position⟩ := cursor
  cases position with
  | none =>
    obtain ⟨base, size, _, _, hfence, _⟩ := advance_start.mp hadvance
    exact absurd (by rw [hfence]) hkind
  | some place =>
    obtain ⟨position, stop⟩ := place
    obtain ⟨haddr, _⟩ := (advance_block hkind).mp hadvance
    exact ⟨rest, stop, by rw [haddr]⟩

lemma tiled_append_iff {left right : List Cell} : Tiled regions (left ++ right) ↔
    ∃ cursor, left.foldlM advance (regions, none) = some cursor ∧
    right.foldlM advance cursor = some ([], none) := by
  simp only [Tiled, List.foldlM_append, bind_eq_bind, bind_eq_some_iff]

/-- Exchange a stretch of blocks for another one over the same range. -/
lemma Tiled.exchange {old new : List Cell} (htiled : Tiled regions (before ++ old ++ after))
    (hold : Contiguous low high old) (hnew : Contiguous low high new)
    (hne : old ≠ []) (hblocksOld : Blocks old) (hblocksNew : Blocks new) :
    Tiled regions (before ++ new ++ after) := by
  rw [List.append_assoc, tiled_append_iff] at htiled ⊢
  obtain ⟨cursor, hbefore, hrest⟩ := htiled
  refine ⟨cursor, hbefore, ?_⟩
  rw [List.foldlM_append, bind_eq_bind, bind_eq_some_iff] at hrest ⊢
  obtain ⟨middle, hmiddle, hafter⟩ := hrest
  have hcursor : ∃ rest stop, cursor = (rest, some (low, stop)) := by
    cases old with
    | nil => exact absurd rfl hne
    | cons c tail =>
      simp only [List.foldlM_cons, bind_eq_bind, bind_eq_some_iff] at hmiddle
      obtain ⟨next, hnext, _⟩ := hmiddle
      obtain ⟨rest, stop, rfl⟩ := cursor_of_block (hblocksOld c List.mem_cons_self) hnext
      exact ⟨rest, stop, by rw [hold.1]⟩
  obtain ⟨rest, stop, rfl⟩ := hcursor
  obtain ⟨finish, hfinish, rfl⟩ := (foldlM_advance_blocks hblocksOld).mp hmiddle
  obtain rfl : finish = high := hfinish.high_unique hold
  exact ⟨_, (foldlM_advance_blocks hblocksNew).mpr ⟨finish, hnew, rfl⟩, hafter⟩

/-- A cursor inside a region was left there by the preceding cell. -/
lemma exists_last_of_cursor
    (hbefore : before.foldlM advance (regions, none) = some (rest, some (position, stop))) :
    ∃ front last, before = front ++ [last] ∧ last.stop = position := by
  rcases List.eq_nil_or_concat before with rfl | ⟨front, last, rfl⟩
  · simp at hbefore
  · refine ⟨front, last, by simp, ?_⟩
    rw [List.concat_eq_append, List.foldlM_append, bind_eq_bind, bind_eq_some_iff] at hbefore
    obtain ⟨cursor, _, hlast⟩ := hbefore
    simp only [List.foldlM_cons, List.foldlM_nil, bind_eq_bind,
      bind_eq_some_iff, Option.pure_def, Option.some.injEq] at hlast
    obtain ⟨next, hnext, rfl⟩ := hlast
    obtain ⟨left, place⟩ := cursor
    cases place with
    | none =>
      obtain ⟨base, size, _, _, rfl, hcursor⟩ := advance_start.mp hnext
      simp only [Prod.mk.injEq, Option.some.injEq] at hcursor
      exact hcursor.2.1.symm
    | some place =>
      by_cases hkind : last.kind = .fence
      · obtain ⟨_, _, _, hcursor⟩ := (advance_fence hkind).mp hnext
        simp at hcursor
      · obtain ⟨_, hcursor⟩ := (advance_block hkind).mp hnext
        simp only [Prod.mk.injEq, Option.some.injEq] at hcursor
        exact hcursor.2.1.symm

/-- Both neighbours of a block exist and touch it. -/
lemma Tiled.neighbours (htiled : Tiled regions (before ++ c :: after)) (hkind : c.kind ≠ .fence) :
    ∃ front left right rear, before = front ++ [left] ∧ after = right :: rear ∧
    left.stop = c.address ∧ c.stop = right.address := by
  rw [tiled_append_iff] at htiled
  obtain ⟨cursor, hbefore, hrest⟩ := htiled
  simp only [List.foldlM_cons, bind_eq_bind, bind_eq_some_iff] at hrest
  obtain ⟨next, hnext, hafter⟩ := hrest
  obtain ⟨rest, stop, rfl⟩ := cursor_of_block hkind hnext
  obtain ⟨_, rfl⟩ := (advance_block hkind).mp hnext
  obtain ⟨front, left, rfl, hleft⟩ := exists_last_of_cursor hbefore
  cases after with
  | nil => simp at hafter
  | cons right rear =>
    refine ⟨front, left, right, rear, rfl, rfl, hleft, ?_⟩
    simp only [List.foldlM_cons, bind_eq_bind, bind_eq_some_iff] at hafter
    obtain ⟨cursor, hright, _⟩ := hafter
    simp only [advance] at hright
    split at hright
    · rename_i haddr
      exact haddr.symm
    · simp at hright

/-- Regions behind the ones being read do not matter. -/
lemma foldlM_advance_extend {more : List (Nat × Nat)}
    (hfold : cells.foldlM advance cursor = some next) :
    cells.foldlM advance (cursor.1 ++ more, cursor.2) = some (next.1 ++ more, next.2) := by
  induction cells generalizing cursor with
  | nil =>
    cases hfold
    rfl
  | cons c tail ih =>
    simp only [List.foldlM_cons, bind_eq_bind, bind_eq_some_iff] at hfold ⊢
    obtain ⟨middle, hmiddle, hrest⟩ := hfold
    refine ⟨_, ?_, ih hrest⟩
    obtain ⟨rest, place⟩ := cursor
    cases place with
    | none =>
      obtain ⟨base, size, rest', rfl, rfl, rfl⟩ := advance_start.mp hmiddle
      exact advance_start.mpr ⟨base, size, rest' ++ more, rfl, rfl, rfl⟩
    | some place =>
      by_cases hkind : c.kind = .fence
      · obtain ⟨haddr, hstop, hsize, rfl⟩ := (advance_fence hkind).mp hmiddle
        exact (advance_fence hkind).mpr ⟨haddr, hstop, hsize, rfl⟩
      · obtain ⟨haddr, rfl⟩ := (advance_block hkind).mp hmiddle
        exact (advance_block hkind).mpr ⟨haddr, rfl⟩

/-- A new region behind the old ones. -/
lemma Tiled.add_region {region : List Cell} (htiled : Tiled regions cells)
    (hregion : RegionTiled base size region) :
    Tiled (regions ++ [(base, size)]) (cells ++ region) := by
  obtain ⟨blocks, rfl, hcontiguous, hblocks⟩ := hregion
  rw [tiled_append_iff]
  refine ⟨([(base, size)], none), foldlM_advance_extend htiled, ?_⟩
  simp only [List.foldlM_cons, List.foldlM_append, bind_eq_bind, bind_eq_some_iff]
  exact ⟨([], some (base + minReqSize, base + size - minReqSize)), by simp [advance], _,
    (foldlM_advance_blocks hblocks).mpr ⟨_, hcontiguous, rfl⟩, ([], none), by simp [advance], rfl⟩

/-- From inside a region the cells read on to its right fence. -/
lemma read_to_fence (hfold : cells.foldlM advance (rest, some (position, stop)) = some ([], none)) :
    ∃ blocks after, cells = blocks ++ ⟨stop, minReqSize, .fence⟩ :: after ∧
    Contiguous position stop blocks ∧ Blocks blocks ∧ Tiled rest after := by
  induction cells generalizing position with
  | nil => simp at hfold
  | cons c tail ih =>
    simp only [List.foldlM_cons, bind_eq_bind, bind_eq_some_iff] at hfold
    obtain ⟨next, hnext, hrest⟩ := hfold
    by_cases hkind : c.kind = .fence
    · obtain ⟨haddr, hstop, hsize, rfl⟩ := (advance_fence hkind).mp hnext
      refine ⟨[], tail, ?_, hstop, by simp [Blocks], hrest⟩
      obtain ⟨address, size, kind⟩ := c
      simp only [List.nil_append, List.cons.injEq, Cell.mk.injEq, and_true]
      exact ⟨haddr.trans hstop, hsize, hkind⟩
    · obtain ⟨haddr, rfl⟩ := (advance_block hkind).mp hnext
      obtain ⟨blocks, after, rfl, hcontiguous, hblocks, hafter⟩ := ih hrest
      refine ⟨c :: blocks, after, rfl, ⟨haddr, hcontiguous⟩, ?_, hafter⟩
      intro d hd
      rcases List.mem_cons.mp hd with rfl | hd
      · exact hkind
      · exact hblocks d hd

/-- Every region of a tiled heap is tiled by a stretch of the cells. -/
lemma Tiled.region (htiled : Tiled regions cells) (hmem : (base, size) ∈ regions) :
    ∃ before region after, cells = before ++ region ++ after ∧ RegionTiled base size region := by
  induction regions generalizing cells with
  | nil => simp at hmem
  | cons first rest ih =>
    cases cells with
    | nil => simp [Tiled] at htiled
    | cons c tail =>
      simp only [Tiled, List.foldlM_cons, bind_eq_bind, bind_eq_some_iff] at htiled
      obtain ⟨next, hnext, hrest⟩ := htiled
      obtain ⟨base', size', rest', heq, rfl, rfl⟩ := advance_start.mp hnext
      cases heq
      obtain ⟨blocks, after, rfl, hcontiguous, hblocks, hafter⟩ := read_to_fence hrest
      rcases List.mem_cons.mp hmem with heq | hmem
      · cases heq
        exact ⟨[], _, after, by simp, blocks, rfl, hcontiguous, hblocks⟩
      · obtain ⟨before, region, after', rfl, hregion⟩ := ih hafter hmem
        exact ⟨⟨base', minReqSize, .fence⟩ ::
            (blocks ++ ⟨base' + size' - minReqSize, minReqSize, .fence⟩ ::
              before), region, after', by simp, hregion⟩

lemma Contiguous.low_le_high (hcells : Contiguous low high cells) : low ≤ high := by
  induction cells generalizing low with
  | nil => exact Nat.le_of_eq hcells
  | cons c tail ih =>
    obtain ⟨rfl, htail⟩ := hcells
    exact (Nat.le_add_right c.address c.size).trans (ih htail)

lemma Contiguous.mem_range (hcells : Contiguous low high cells)
    (hc : c ∈ cells) : low ≤ c.address ∧ c.stop ≤ high := by
  induction cells generalizing low with
  | nil => simp at hc
  | cons d tail ih =>
    obtain ⟨rfl, htail⟩ := hcells
    rcases List.mem_cons.mp hc with rfl | hc
    · exact ⟨Nat.le_refl _, htail.low_le_high⟩
    · obtain ⟨hlow, hhigh⟩ := ih htail hc
      exact ⟨(Nat.le_add_right d.address d.size).trans hlow, hhigh⟩

/-- Every cell lies in a region, and a block between its fences. -/
lemma Tiled.in_region (htiled : Tiled regions cells) (hc : c ∈ cells) :
    ∃ base size, (base, size) ∈ regions ∧ base ≤ c.address ∧ c.stop ≤ base + size ∧
    (c.kind ≠ .fence → base + minReqSize ≤ c.address ∧ c.stop + minReqSize ≤ base + size) := by
  induction regions generalizing cells with
  | nil =>
    cases cells with
    | nil => simp at hc
    | cons first rest => simp [Tiled, advance] at htiled
  | cons region rest ih =>
    cases cells with
    | nil => simp at hc
    | cons first tail =>
      simp only [Tiled, List.foldlM_cons, bind_eq_bind, bind_eq_some_iff] at htiled
      obtain ⟨next, hnext, hrest⟩ := htiled
      obtain ⟨base, size, rest', heq, rfl, rfl⟩ := advance_start.mp hnext
      cases heq
      obtain ⟨blocks, after, rfl, hcontiguous, hblocks, hafter⟩ := read_to_fence hrest
      have hroom := hcontiguous.low_le_high
      simp only [List.mem_cons, List.mem_append] at hc
      rcases hc with rfl | hc | rfl | hc
      · exact ⟨base, size, List.mem_cons_self, Nat.le_refl _,
          by simp only [Cell.stop]; omega, (absurd rfl)⟩
      · obtain ⟨hlow, hhigh⟩ := hcontiguous.mem_range hc
        exact ⟨base, size, List.mem_cons_self, by omega, by omega, fun _ => ⟨hlow, by omega⟩⟩
      · exact ⟨base, size, List.mem_cons_self, by simp only; omega,
          by simp only [Cell.stop]; omega, (absurd rfl)⟩
      · obtain ⟨base', size', hmem, hin⟩ := ih hafter hc
        exact ⟨base', size', List.mem_cons_of_mem _ hmem, hin⟩

/-! Ranges of addresses. -/

/-- Ranges that share no byte. -/
def RangeApart (left right : Nat × Nat) : Prop :=
  left.1 + left.2 ≤ right.1 ∨ right.1 + right.2 ≤ left.1

lemma RangeApart.symm {left right : Nat × Nat}
    (hapart : RangeApart left right) : RangeApart right left :=
  Or.symm hapart

/-- One range inside another. -/
def Inside (inner outer : Nat × Nat) : Prop :=
  outer.1 ≤ inner.1 ∧ inner.1 + inner.2 ≤ outer.1 + outer.2

lemma RangeApart.inside {left right inner : Nat × Nat}
    (hapart : RangeApart left right) (hinside : Inside inner right) : RangeApart left inner := by
  simp only [RangeApart, Inside] at *
  omega

end Merlon.Heap
