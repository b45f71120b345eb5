/-
Directories on a DemoFS disk: a chain of sectors with fifteen places each.  The
description here is what the image builder writes and what lookup and listing
read.
-/
import Merlon.DemoFs.Model

namespace Merlon.DemoFs

open List

/-- A name that fits an entry. -/
structure Name where
  chars : List UInt8
  nonempty : chars ≠ []
  short : chars.length ≤ maxNameLength
  noZero : 0 ∉ chars

structure Entry where
  name : Name
  length : Nat
  inode : Nat
  isDir : Bool

namespace Entry

/-- What a lookup gives for the entry. -/
def child (entry : Entry) : Nat × Nat :=
  if entry.isDir then (inodeToDir entry.inode, 0)
  else (entry.inode, entry.length)

/-- What a listing gives for the entry. -/
def dirent (d : Device) (entry : Entry) : Dirent where
  dIno := entry.inode % 2 ^ 31
  dName := entry.name.chars
  dNamlen := entry.name.chars.length
  dType := if entry.isDir then .dir else .reg
  dDisk := d.stDev

end Entry

/-- The bytes at a place are a name, padded with zeros. -/
def HoldsName (buffer : ByteMemory) (place count : Nat) (chars : List UInt8) :
    Prop :=
  ∀ i, i < count → buffer (place + i) = chars.getD i 0

/-- The bytes at a place of a sector are an entry. -/
structure HoldsEntry (buffer : ByteMemory) (place : Nat) (entry : Entry) : Prop where
  name : HoldsName buffer place maxNameLength entry.name.chars
  inode : buffer.load24 (place + maxNameLength + 4) = entry.inode
  flag : buffer (place + maxNameLength + 7) &&& 1 ≠ 0 ↔ entry.isDir = true
  length : entry.isDir = false → buffer.load (place + maxNameLength) = entry.length

/-- The places of a sector from one on hold the entries, and then zeros. -/
def HoldsEntries (buffer : ByteMemory) : List Entry → Nat → Nat → Prop
  | [], 0, _ => True
  | [], count + 1, i => buffer (i * 32) = 0 ∧ HoldsEntries buffer [] count (i + 1)
  | _ :: _, 0, _ => False
  | entry :: rest, count + 1, i =>
    HoldsEntry buffer (i * 32) entry ∧ HoldsEntries buffer rest count (i + 1)

/-- The number of places for entries in a sector. -/
def places : Nat := 15

/-- The sectors of a directory hold the entries.  All but the last are full and
name the next; `after` is what the last one names. -/
inductive DirChain (d : Device) : Nat → List (List Entry) → Nat → Prop
  | last {inode : Nat} {buffer : ByteMemory} {entries : List Entry}
      (hread : demofsReadInode d inode = .ok buffer) (hmark : buffer 0 = 0xFF)
      (hholds : HoldsEntries buffer entries places 1) : DirChain d inode [entries] (buffer.load24 1)
  | next {inode after : Nat} {buffer : ByteMemory} {entries : List Entry}
      {sectors : List (List Entry)} (hread : demofsReadInode d inode = .ok buffer)
      (hmark : buffer 0 = 0xFE) (hholds : HoldsEntries buffer entries places 1)
      (hfull : entries.length = places) (hrest : DirChain d (buffer.load24 1) sectors after) :
      DirChain d inode (entries :: sectors) after

section Names

variable {buffer : ByteMemory} {place count : Nat} {chars name : List UInt8}

lemma HoldsName.tail {char : UInt8} (h : HoldsName buffer place (count + 1) (char :: chars)) :
    HoldsName buffer (place + 1) count chars := by
  intro i hi
  have hnext := h (i + 1) (by omega)
  rw [Nat.add_assoc, Nat.add_comm 1 i]
  exact hnext

/-- The comparison finds out whether the names are the same. -/
lemma sameName_eq_true_iff (hholds : HoldsName buffer place count chars)
    (hchars : chars.length ≤ count) (hzero : 0 ∉ chars) (hname : name.length ≤ count)
    (hnameZero : 0 ∉ name) : sameName count name buffer place = true ↔ name = chars := by
  induction count generalizing name chars place with
  | zero =>
    rw [length_eq_zero_iff.mp (Nat.le_zero.mp hname), length_eq_zero_iff.mp (Nat.le_zero.mp hchars)]
    exact iff_of_true rfl rfl
  | succ count ih =>
    have hfirst := hholds 0 (Nat.succ_pos count)
    cases name with
    | nil =>
      cases chars with
      | nil => exact iff_of_true (beq_iff_eq.mpr hfirst) rfl
      | cons char chars =>
        have hne : char ≠ 0 := by
          rintro rfl
          exact hzero mem_cons_self
        refine iff_of_false (fun h => hne ?_) (cons_ne_nil _ _).symm
        exact hfirst.symm.trans (beq_iff_eq.mp h)
    | cons head tail =>
      unfold sameName
      rw [Bool.and_eq_true, beq_iff_eq]
      cases chars with
      | nil =>
        refine iff_of_false (fun h => hnameZero ?_) (cons_ne_nil _ _)
        exact mem_cons.mpr (.inl ((h.1.trans hfirst).symm))
      | cons char chars =>
        have hrest := ih hholds.tail (Nat.le_of_succ_le_succ hchars)
          (fun h => hzero (mem_cons_of_mem _ h)) (Nat.le_of_succ_le_succ hname)
          (fun h => hnameZero (mem_cons_of_mem _ h))
        rw [hrest, cons.injEq]
        refine and_congr_left fun _ => ?_
        change head = buffer (place + 0) ↔ _
        rw [hfirst]
        exact Iff.rfl

lemma copyName_eq (hholds : HoldsName buffer place count chars)
    (hchars : chars.length ≤ count) (hzero : 0 ∉ chars) : copyName count buffer place = chars := by
  induction count generalizing chars place with
  | zero => exact (length_eq_zero_iff.mp (Nat.le_zero.mp hchars)).symm
  | succ count ih =>
    have hfirst := hholds 0 (Nat.succ_pos count)
    unfold copyName
    cases chars with
    | nil => exact if_pos hfirst
    | cons char chars =>
      have hne : char ≠ 0 := by
        rintro rfl
        exact hzero mem_cons_self
      have hchar : buffer place = char := hfirst
      rw [if_neg (hchar.symm ▸ hne), hchar, ih hholds.tail (Nat.le_of_succ_le_succ hchars)
        (fun h => hzero (mem_cons_of_mem _ h))]

end Names

section Entries

variable {d : Device} {buffer : ByteMemory} {place : Nat} {entry : Entry}

variable (h : HoldsEntry buffer place entry)

include h

lemma HoldsEntry.ne_zero : buffer place ≠ 0 := by
  have hfirst := h.name 0 (by decide)
  obtain ⟨char, rest, hchars⟩ := exists_cons_of_ne_nil entry.name.nonempty
  have hzero := entry.name.noZero
  rw [hchars] at hfirst hzero
  intro hplace
  have hchar : char = 0 := hfirst.symm.trans hplace
  exact hzero (mem_cons.mpr (.inl hchar.symm))

lemma HoldsEntry.sameName_iff {name : List UInt8}
    (hname : name.length ≤ maxNameLength) (hzero : 0 ∉ name) :
    sameName maxNameLength name buffer place = true ↔ name = entry.name.chars :=
  sameName_eq_true_iff h.name entry.name.short entry.name.noZero hname hzero

lemma HoldsEntry.child_eq : entryChild buffer place = entry.child := by
  unfold entryChild Entry.child
  rw [h.inode]
  cases hdir : entry.isDir with
  | true => rw [if_pos (h.flag.mpr hdir), if_pos rfl]
  | false =>
    have hflag : ¬ (buffer (place + maxNameLength + 7) &&& 1 ≠ 0) := by
      rw [h.flag, hdir]
      exact Bool.false_ne_true
    rw [if_neg hflag, if_neg Bool.false_ne_true, h.length hdir]

lemma HoldsEntry.dirent_eq : makeDirent d buffer place = entry.dirent d := by
  unfold makeDirent Entry.dirent
  dsimp only
  rw [h.inode, copyName_eq h.name entry.name.short entry.name.noZero]
  congr 1
  exact if_congr h.flag rfl rfl

end Entries

section Lookup

variable {d : Device} {buffer : ByteMemory} {name : List UInt8}
  {entries : List Entry} {sectors : List (List Entry)} {inode after : Nat}

/-- The first entry of a list with a name. -/
def lookupEntry (name : List UInt8) (entries : List Entry) : Option Entry :=
  entries.find? fun entry => decide (name = entry.name.chars)

lemma lookupEntry_cons (name : List UInt8) (entry : Entry) (entries : List Entry) :
    lookupEntry name (entry :: entries) =
      if name = entry.name.chars then some entry
      else lookupEntry name entries := by
  unfold lookupEntry
  rw [find?_cons]
  by_cases hsame : name = entry.name.chars
  · rw [if_pos hsame, decide_eq_true hsame]
  · rw [if_neg hsame, decide_eq_false hsame]

lemma HoldsEntries.length_le {count i : Nat}
    (h : HoldsEntries buffer entries count i) : entries.length ≤ count := by
  induction entries generalizing count i with
  | nil => exact Nat.zero_le _
  | cons entry rest ih =>
    cases count with
    | zero => exact h.elim
    | succ count => exact Nat.succ_le_succ (ih h.2)

lemma holdsEntries_nil {count i : Nat} (h : ∀ j, j < count → buffer ((i + j) * 32) = 0) :
    HoldsEntries buffer [] count i := by
  induction count generalizing i with
  | zero => exact trivial
  | succ count ih =>
    refine ⟨h 0 (Nat.succ_pos count), ih fun j hj => ?_⟩
    have hnext := h (j + 1) (Nat.succ_lt_succ hj)
    rwa [Nat.add_comm j 1, ← Nat.add_assoc] at hnext

/-- A sector is searched up to its last entry. -/
lemma findEntry_eq {count i : Nat} (h : HoldsEntries buffer entries count i)
    (hname : name.length ≤ maxNameLength) (hzero : 0 ∉ name) : findEntry name buffer count i =
      match lookupEntry name entries with
      | some entry => some (.ok entry.child)
      | none => if entries.length = count then none
          else some (.error .enoent) := by
  induction entries generalizing count i with
  | nil =>
    cases count with
    | zero => rfl
    | succ count =>
      unfold findEntry
      rw [if_pos h.1]
      rfl
  | cons entry rest ih =>
    cases count with
    | zero => exact h.elim
    | succ count =>
      unfold findEntry
      rw [if_neg h.1.ne_zero, lookupEntry_cons]
      by_cases hsame : name = entry.name.chars
      · rw [if_pos hsame, if_pos ((h.1.sameName_iff hname hzero).mpr hsame), h.1.child_eq]
      · rw [if_neg hsame, if_neg (fun hfound => hsame ((h.1.sameName_iff hname hzero).mp hfound)),
          ih h.2, length_cons]
        simp only [Nat.add_right_cancel_iff]

lemma inodeToDir_mod (inode : Nat) {bits : Nat} (hbits : bits ≤ 31) :
    inodeToDir inode % 2 ^ bits = inode % 2 ^ bits := by
  unfold inodeToDir
  rw [Nat.or_mod_two_pow, Nat.mod_eq_zero_of_dvd (Nat.pow_dvd_pow 2 hbits), Nat.or_zero]

lemma demofsReadInode_inodeToDir (inode : Nat) :
    demofsReadInode d (inodeToDir inode) = demofsReadInode d inode := by
  unfold demofsReadInode
  rw [inodeToDir_mod inode (by decide)]

/-- A lookup finds the first entry of the directory that has the name. -/
lemma followFrom_eq (hchain : DirChain d inode sectors after) (hname : name.length ≤ maxNameLength)
    (hzero : 0 ∉ name) {fuel : Nat} (hfuel : sectors.length ≤ fuel) {parent : Nat}
    (hparent : parent = inode ∨ parent = inodeToDir inode) :
    followFrom d name fuel parent = some (match lookupEntry name sectors.flatten with
        | some entry => .ok entry.child
        | none => .error .enoent) := by
  have hplaces : sectorSize / 32 - 1 = places := rfl
  induction hchain generalizing fuel parent with
  | @last inode buffer entries hread hmark hholds =>
    obtain ⟨fuel, rfl⟩ := Nat.exists_eq_succ_of_ne_zero (Nat.ne_of_gt hfuel)
    have hparentRead : demofsReadInode d parent = .ok buffer := by
      rcases hparent with rfl | rfl
      · exact hread
      · rw [demofsReadInode_inodeToDir, hread]
    unfold followFrom
    rw [hparentRead, hplaces]
    dsimp only
    rw [if_neg (fun h => h.1 hmark), findEntry_eq hholds hname hzero, flatten_singleton]
    cases lookupEntry name entries with
    | some entry => rfl
    | none =>
      by_cases hfull : entries.length = places
      · rw [if_pos hfull]
        rw [if_pos hmark]
      · rw [if_neg hfull]
  | @next inode after buffer entries sectors hread hmark hholds hfull hrest ih =>
    obtain ⟨fuel, rfl⟩ := Nat.exists_eq_succ_of_ne_zero
      (Nat.ne_of_gt (Nat.lt_of_lt_of_le (Nat.succ_pos _) hfuel))
    have hparentRead : demofsReadInode d parent = .ok buffer := by
      rcases hparent with rfl | rfl
      · exact hread
      · rw [demofsReadInode_inodeToDir, hread]
    have hnotLast : buffer 0 ≠ 0xFF := by
      rw [hmark]
      decide
    unfold followFrom
    rw [hparentRead, hplaces]
    dsimp only
    rw [if_neg (fun h => h.2 hmark), findEntry_eq hholds hname hzero, flatten_cons]
    have happend : lookupEntry name (entries ++ sectors.flatten) =
        (lookupEntry name entries).or (lookupEntry name sectors.flatten) :=
      find?_append
    rw [happend]
    cases lookupEntry name entries with
    | some entry => rfl
    | none =>
      rw [if_pos hfull]
      rw [if_neg hnotLast, if_pos hmark]
      exact ih (Nat.le_of_succ_le_succ hfuel) (.inr rfl)

lemma inodeIsDir_inodeToDir (inode : Nat) : inodeIsDir (inodeToDir inode) = true :=
  decide_eq_true Nat.right_le_or

/-- The inodes of a directory's entries are stored in 24 bits. -/
lemma HoldsEntries.inode_lt {count i : Nat} (h : HoldsEntries buffer entries count i)
    {entry : Entry} (hmem : entry ∈ entries) : entry.inode < 2 ^ 24 := by
  induction entries generalizing count i with
  | nil => cases hmem
  | cons head rest ih =>
    cases count with
    | zero => exact h.elim
    | succ count =>
      rcases mem_cons.mp hmem with rfl | hmem
      · rw [← h.1.inode]
        exact ByteMemory.load24_lt ..
      · exact ih h.2 hmem

lemma DirChain.inode_lt (h : DirChain d inode sectors after) {entry : Entry}
    (hmem : entry ∈ sectors.flatten) : entry.inode < 2 ^ 24 := by
  induction h with
  | last hread hmark hholds =>
    rw [flatten_singleton] at hmem
    exact hholds.inode_lt hmem
  | next hread hmark hholds hfull hrest ih =>
    rw [flatten_cons, mem_append] at hmem
    rcases hmem with hmem | hmem
    · exact hholds.inode_lt hmem
    · exact ih hmem

end Lookup

end Merlon.DemoFs
