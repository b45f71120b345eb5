/-
The listing of a directory.  The entries of the first sector are listed as they
are stored and looked up.  `demofs_read_directory_entry` wants the last sector
it passes to be the last of the directory, so the entries of later sectors are
not listed.
-/
import Merlon.DemoFs.Directories
import Mathlib.Data.Fintype.Card

namespace Merlon.DemoFs

open List

/-- A well-formed directory on a disk. -/
structure Directory (d : Device) where
  inode : Nat
  sectors : List (List Entry)
  after : Nat
  isDir : inodeIsDir inode = true
  chain : DirChain d inode sectors after
  distinct : (sectors.flatten.map fun entry => entry.name.chars).Nodup

section Chain

variable {d : Device} {inode after : Nat} {sectors : List (List Entry)} {buffer : ByteMemory}

lemma DirChain.sectors_ne_nil (h : DirChain d inode sectors after) : sectors ≠ [] := by
  cases h with
  | last => exact cons_ne_nil _ _
  | next => exact cons_ne_nil _ _

lemma demofsReadInode_congr {other : Nat} (hsame : inode % 2 ^ 24 = other % 2 ^ 24) :
    demofsReadInode d inode = demofsReadInode d other := by
  unfold demofsReadInode
  rw [hsame]

section

variable (h : DirChain d inode sectors after)

include h

/-- The sector that a directory begins with fixes how long it is. -/
lemma DirChain.length_eq {other after' : Nat} {sectors' : List (List Entry)}
    (h' : DirChain d other sectors' after') (hsame : inode % 2 ^ 24 = other % 2 ^ 24) :
    sectors.length = sectors'.length := by
  have hmarks : (0xFF : UInt8) ≠ 0xFE := by decide
  induction h generalizing other sectors' after' with
  | last hread hmark =>
    rw [demofsReadInode_congr hsame] at hread
    cases h' with
    | last => rfl
    | next hread' hmark' =>
      cases hread.symm.trans hread'
      exact absurd (hmark.symm.trans hmark') hmarks
  | next hread hmark hholds hfull hrest ih =>
    rw [demofsReadInode_congr hsame] at hread
    cases h' with
    | last hread' hmark' =>
      cases hread.symm.trans hread'
      exact absurd (hmark'.symm.trans hmark) hmarks
    | next hread' hmark' _ _ hrest' =>
      cases hread.symm.trans hread'
      rw [length_cons, length_cons, ih hrest' rfl]

lemma DirChain.drop {i : Nat} (hi : i < sectors.length) :
    ∃ next, DirChain d next (sectors.drop i) after := by
  induction h generalizing i with
  | last hread hmark hholds =>
    have hzero : i = 0 := Nat.lt_one_iff.mp hi
    subst hzero
    exact ⟨_, .last hread hmark hholds⟩
  | next hread hmark hholds hfull hrest ih =>
    cases i with
    | zero => exact ⟨_, .next hread hmark hholds hfull hrest⟩
    | succ i => exact ih (Nat.lt_of_succ_lt_succ hi)

/-- No sector comes twice, so there are no more than sector numbers. -/
lemma DirChain.length_le : sectors.length ≤ 2 ^ 24 := by
  choose start hstart using fun i : Fin sectors.length => h.drop i.isLt
  have hinjective : Function.Injective fun i : Fin sectors.length =>
      (⟨start i % 2 ^ 24, Nat.mod_lt _ (by decide)⟩ : Fin (2 ^ 24)) := by
    intro i j hsame
    have hlength := (hstart i).length_eq (hstart j) (Fin.mk.inj hsame)
    rw [length_drop, length_drop] at hlength
    exact Fin.ext (by omega)
  have hcard := Fintype.card_le_of_injective _ hinjective
  rwa [Fintype.card_fin, Fintype.card_fin] at hcard

lemma DirChain.entries_le : sectors.flatten.length ≤ places * sectors.length := by
  induction h with
  | last hread hmark hholds =>
    rw [flatten_singleton]
    exact hholds.length_le
  | next hread hmark hholds hfull hrest ih =>
    rw [flatten_cons, length_append, hfull, length_cons, Nat.add_comm]
    exact Nat.add_le_add_right ih places

/-- Passing over sectors works to the end of the directory and nowhere else. -/
lemma DirChain.skipSectors_eq (count : Nat) : skipSectors d count inode =
      if count = 0 then .ok inode
      else if count = sectors.length then .ok after
      else .error .eio := by
  induction h generalizing count with
  | last hread hmark hholds =>
    cases count with
    | zero => rfl
    | succ more =>
      unfold skipSectors
      rw [hread, ok_bind, hmark, if_neg (Nat.succ_ne_zero more)]
      cases more with
      | zero => rfl
      | succ more => rw [if_neg (Nat.succ_ne_zero more), if_pos (by decide), if_neg (by simp)]
  | next hread hmark hholds hfull hrest ih =>
    cases count with
    | zero => rfl
    | succ more =>
      unfold skipSectors
      rw [hread, ok_bind, hmark, if_neg (Nat.succ_ne_zero more), length_cons]
      cases more with
      | zero =>
        have hlength := length_pos_of_ne_nil hrest.sectors_ne_nil
        rw [if_pos (by decide), if_neg (by omega)]
      | succ more =>
        rw [if_neg (by simp), ih, if_neg (Nat.succ_ne_zero more)]
        simp only [Nat.add_right_cancel_iff]

end

lemma HoldsEntries.place {entries : List Entry} {count i j : Nat}
    (h : HoldsEntries buffer entries count i) (hj : j < count) :
    match entries[j]? with
    | some entry => HoldsEntry buffer ((i + j) * 32) entry
    | none => buffer ((i + j) * 32) = 0 := by
  induction j generalizing entries count i with
  | zero =>
    obtain ⟨count, rfl⟩ := Nat.exists_eq_succ_of_ne_zero (Nat.ne_of_gt hj)
    cases entries with
    | nil => exact h.1
    | cons entry rest => exact h.1
  | succ j ih =>
    obtain ⟨count, rfl⟩ := Nat.exists_eq_succ_of_ne_zero
      (Nat.ne_of_gt (Nat.lt_of_le_of_lt (Nat.zero_le _) hj))
    have hshift : i + (j + 1) = i + 1 + j := by omega
    rw [hshift]
    cases entries with
    | nil => exact ih h.2 (Nat.lt_of_succ_lt_succ hj)
    | cons entry rest => exact ih h.2 (Nat.lt_of_succ_lt_succ hj)

lemma DirChain.mark (h : DirChain d inode sectors after) :
    ∃ buffer, demofsReadInode d inode = .ok buffer ∧ (buffer 0 = 0xFF ∨ buffer 0 = 0xFE) := by
  cases h with
  | last hread hmark => exact ⟨_, hread, .inl hmark⟩
  | next hread hmark => exact ⟨_, hread, .inr hmark⟩

/-- The first places of a directory are those of its first sector. -/
lemma DirChain.first (h : DirChain d inode sectors after) {k : Nat} (hk : k < places) :
    ∃ buffer entries, demofsReadInode d inode = .ok buffer ∧ HoldsEntries buffer entries places 1 ∧
    entries[k]? = sectors.flatten[k]? := by
  cases h with
  | last hread hmark hholds => exact ⟨_, _, hread, hholds, by rw [flatten_singleton]⟩
  | next hread hmark hholds hfull hrest =>
    refine ⟨_, _, hread, hholds, ?_⟩
    rw [flatten_cons, getElem?_append_left (by omega)]

end Chain

/-- What is listed from a place of a sector. -/
def readPlace (d : Device) (inode place : Nat) : Except Errno (Option Dirent) := do
  let buffer ← demofsReadInode d inode
  .ok (if buffer (place * 32) = 0 then none
    else some (makeDirent d buffer (place * 32)))

section Numbers

variable {d : Device} {directory n : Nat}

lemma offset_mod (n : Nat) : n * direntSize % direntSize = 0 := Nat.mul_mod_left ..

lemma offset_div (n : Nat) : n * direntSize / direntSize = n := Nat.mul_div_cancel _ (by decide)

section

variable (hdir : inodeIsDir directory = true) {number : Int}

include hdir

/-- The entry number decides how many sectors are passed over and which place
is listed. -/
lemma demofsReadDirectoryEntry_eq {count place : Nat}
    (hn : toInt n = number + 1) (hne : number + 1 ≠ 0) (hint : -2 ^ 31 ≤ number)
    (hcount : (number.tdiv 15).toNat = count) (hplace : number.tmod 15 + 1 = place) :
    demofsReadDirectoryEntry d directory (n * direntSize) =
      .ok (skipSectors d count directory >>= fun inode => readPlace d inode place) := by
  unfold demofsReadDirectoryEntry
  rw [hdir, offset_mod, offset_div, hn]
  dsimp only
  rw [Int.add_sub_cancel, if_neg (by decide), if_neg (by decide), if_neg hne,
    if_neg (by omega), hcount, hplace, Int.toNat_natCast]
  cases skipSectors d count directory with
  | error error => rfl
  | ok inode =>
    rw [ok_bind]
    unfold readPlace
    dsimp only
    cases demofsReadInode d inode with
    | error error => rfl
    | ok buffer =>
      rw [ok_bind]
      dsimp only
      rw [if_neg (by omega)]
      split
      · rfl
      · rfl

lemma demofsReadDirectoryEntry_succ {k : Nat} (hn : toInt n = k + 1) :
    demofsReadDirectoryEntry d directory (n * direntSize) =
      .ok (skipSectors d (k / places) directory >>= fun inode =>
        readPlace d inode (k % places + 1)) :=
  demofsReadDirectoryEntry_eq hdir hn (by omega) (by omega) rfl rfl

lemma demofsReadDirectoryEntry_overflow (hn : toInt n - 1 < -2 ^ 31) :
    demofsReadDirectoryEntry d directory (n * direntSize) = .error .overflow := by
  unfold demofsReadDirectoryEntry
  rw [hdir, offset_mod, offset_div]
  rw [if_neg (by decide), if_neg (by decide), if_neg (by omega), if_pos hn]

lemma demofsReadDirectoryEntry_outside {buffer : ByteMemory}
    (hn : toInt n = number + 1) (hne : number + 1 ≠ 0) (hint : -2 ^ 31 ≤ number)
    (hcount : (number.tdiv 15).toNat = 0) (hslot : number.tmod 15 + 1 < 0)
    (hread : demofsReadInode d directory = .ok buffer) :
    demofsReadDirectoryEntry d directory (n * direntSize) =
      .error (.outOfBounds ((number.tmod 15 + 1) * 32)) := by
  unfold demofsReadDirectoryEntry
  rw [hdir, offset_mod, offset_div, hn]
  dsimp only
  rw [Int.add_sub_cancel, if_neg (by decide), if_neg (by decide), if_neg hne,
    if_neg (by omega), hcount]
  unfold skipSectors
  dsimp only
  rw [hread]
  dsimp only
  rw [if_pos hslot]

end

end Numbers

namespace Directory

variable {d : Device} (dir : Directory d) {n k : Nat} {entry : Entry}

def entries : List Entry :=
  dir.sectors.flatten

/-- The entry that a directory lists for itself. -/
def self : Dirent where
  dIno := dir.inode % 2 ^ 31
  dName := [46]
  dNamlen := 1
  dType := .dir
  dDisk := d.stDev

/-- What the numbers stand for: the directory itself, the entries in order, and
then nothing. -/
def listing : Nat → Option Dirent
  | 0 => some dir.self
  | k + 1 => dir.entries[k]?.map (Entry.dirent d)

lemma listing_succ (k : Nat) : dir.listing (k + 1) = dir.entries[k]?.map (Entry.dirent d) :=
  rfl

lemma readPlace_first (hk : k < places) :
    readPlace d dir.inode (k + 1) = .ok (dir.listing (k + 1)) := by
  obtain ⟨buffer, first, hread, hholds, hfirst⟩ := dir.chain.first hk
  have hplace := hholds.place hk
  unfold readPlace
  rw [hread, ok_bind, listing_succ, entries, ← hfirst, Nat.add_comm k 1]
  cases hentry : first[k]? with
  | none =>
    rw [hentry] at hplace
    rw [if_pos hplace]
    rfl
  | some entry =>
    rw [hentry] at hplace
    rw [if_neg hplace.ne_zero, hplace.dirent_eq]
    rfl

lemma entries_length_lt : dir.entries.length < 2 ^ 31 := by
  have hentries := dir.chain.entries_le
  have hsectors := dir.chain.length_le
  unfold places at hentries
  unfold entries
  omega

/-- The place is blank in the sector that the last sector names. -/
def Blank (place : Nat) : Prop :=
  ∃ buffer, demofsReadInode d dir.after = .ok buffer ∧ buffer (place * 32) = 0

/-- The listing of the entry after `k` others ends: it is in the first sector,
which has no more entries, or the sectors passed over are all the directory
has and there is nothing where the listing goes on. -/
def PastEnd (k : Nat) : Prop :=
  k < places ∧ dir.entries.length ≤ k ∨ k / places = dir.sectors.length ∧ dir.Blank (k % places + 1)

/-- The listing ends at an entry number, which is an `int`. -/
def EndsAt (number : Int) : Prop :=
  (∃ k : Nat, number = k + 1 ∧ dir.PastEnd k) ∨
    -2 ^ 31 < number ∧ number < 0 ∧ (number - 1).tmod 15 = 0 ∧ dir.entries = []

lemma readPlace_eq_none_iff {inode place : Nat} : readPlace d inode place = .ok none ↔
    ∃ buffer, demofsReadInode d inode = .ok buffer ∧ buffer (place * 32) = 0 := by
  unfold readPlace
  cases demofsReadInode d inode with
  | error error =>
    refine iff_of_false (fun h => ?_) (fun h => ?_)
    · cases h
    · obtain ⟨buffer, hread, _⟩ := h
      cases hread
  | ok buffer =>
    rw [ok_bind]
    constructor
    · intro h
      refine ⟨buffer, rfl, ?_⟩
      by_contra hplace
      rw [if_neg hplace] at h
      cases h
    · rintro ⟨buffer', hread, hplace⟩
      cases hread
      rw [if_pos hplace]

lemma listing_eq_none_iff : dir.listing (k + 1) = none ↔ dir.entries.length ≤ k := by
  rw [listing_succ, Option.map_eq_none_iff, getElem?_eq_none_iff]

/-- What is listed after `k` entries. -/
def readAfter (k : Nat) : Except Errno (Option Dirent) :=
  skipSectors d (k / places) dir.inode >>= fun inode =>
    readPlace d inode (k % places + 1)

lemma readAfter_first (hk : k < places) : dir.readAfter k = .ok (dir.listing (k + 1)) := by
  unfold readAfter
  rw [Nat.div_eq_of_lt hk, Nat.mod_eq_of_lt hk, ← dir.readPlace_first hk]
  rfl

/-- Behind the first sector the listing goes on only where the directory has
no more sectors. -/
lemma readAfter_later (hk : places ≤ k) : dir.readAfter k =
      if k / places = dir.sectors.length then
        readPlace d dir.after (k % places + 1)
      else .error .eio := by
  have hcount : k / places ≠ 0 := (Nat.div_pos hk (by decide)).ne'
  unfold readAfter
  rw [dir.chain.skipSectors_eq, if_neg hcount]
  split
  · rfl
  · rfl

lemma listing_eq_none_of_readAfter (hk : places ≤ k) {found : Option Dirent}
    (hread : dir.readAfter k = .ok found) : dir.listing (k + 1) = none := by
  rw [dir.readAfter_later hk] at hread
  split at hread
  · rename_i hend
    have hentries := dir.chain.entries_le
    have hdiv := Nat.div_mul_le_self k places
    rw [hend, Nat.mul_comm] at hdiv
    exact dir.listing_eq_none_iff.mpr (hentries.trans hdiv)
  · cases hread

lemma readAfter_eq_none_iff : dir.readAfter k = .ok none ↔ dir.PastEnd k := by
  by_cases hk : k < places
  · have hcount : ¬ k / places = dir.sectors.length := by
      rw [Nat.div_eq_of_lt hk]
      exact (length_pos_of_ne_nil dir.chain.sectors_ne_nil).ne
    rw [dir.readAfter_first hk, Except.ok.injEq, listing_eq_none_iff]
    constructor
    · exact fun h => .inl ⟨hk, h⟩
    · rintro (h | h)
      · exact h.2
      · exact absurd h.1 hcount
  · rw [dir.readAfter_later (Nat.le_of_not_lt hk)]
    by_cases hend : k / places = dir.sectors.length
    · rw [if_pos hend, readPlace_eq_none_iff]
      constructor
      · exact fun h => .inr ⟨hend, h⟩
      · rintro (h | h)
        · exact absurd h.1 hk
        · exact h.2
    · rw [if_neg hend]
      refine iff_of_false (fun h => ?_) (fun h => ?_)
      · cases h
      · rcases h with h | h
        · exact hk h.1
        · exact hend h.1

lemma readPlace_zero_ne : readPlace d dir.inode 0 ≠ .ok none := by
  obtain ⟨buffer, hread, hmark⟩ : ∃ buffer,
      demofsReadInode d dir.inode = .ok buffer ∧ buffer 0 ≠ 0 := by
    rcases dir.chain.mark with ⟨buffer, hread, hmark | hmark⟩
    · exact ⟨buffer, hread, by rw [hmark]; decide⟩
    · exact ⟨buffer, hread, by rw [hmark]; decide⟩
  rw [ne_eq, readPlace_eq_none_iff]
  rintro ⟨buffer', hread', hzero⟩
  cases hread.symm.trans hread'
  exact hmark hzero

/-- A negative number lists a place of the first sector, if any. -/
lemma read_negative (hnegative : toInt n < 0) :
    demofsReadDirectoryEntry d dir.inode (n * direntSize) = .ok (.ok none) ↔ -2 ^ 31 < toInt n ∧
    (toInt n - 1).tmod 15 = 0 ∧ dir.entries = [] := by
  obtain ⟨m, hm⟩ : ∃ m : Nat, toInt n - 1 = -m := ⟨(1 - toInt n).toNat, by omega⟩
  have hnumber : toInt n = -(m : Int) + 1 := by omega
  have hmod : (-(m : Int)).tmod 15 = -((m % 15 : Nat) : Int) := Int.neg_tmod ..
  have hdiv : ((-(m : Int)).tdiv 15).toNat = 0 := by
    rw [Int.neg_tdiv]
    exact Int.toNat_of_nonpos (Int.neg_nonpos_of_nonneg (Int.natCast_nonneg (m / 15)))
  by_cases hint : -2 ^ 31 < toInt n
  · have hread : ∀ place : Nat, (-(m : Int)).tmod 15 + 1 = place → demofsReadDirectoryEntry d
        dir.inode (n * direntSize) = .ok (readPlace d dir.inode place) := fun place hplace =>
      demofsReadDirectoryEntry_eq dir.isDir hnumber (by omega) (by omega) hdiv hplace
    rw [hm]
    rcases Nat.lt_trichotomy (m % 15) 1 with hslot | hslot | hslot
    · rw [hread 1 (by omega), Except.ok.injEq, dir.readPlace_first (k := 0) (by decide),
        Except.ok.injEq, listing_eq_none_iff, Nat.le_zero, length_eq_zero_iff]
      exact ⟨fun h => ⟨hint, by omega, h⟩, fun h => h.2.2⟩
    · rw [hread 0 (by omega), Except.ok.injEq]
      exact iff_of_false dir.readPlace_zero_ne fun h => by omega
    · obtain ⟨buffer, hbuffer, _⟩ := dir.chain.mark
      rw [demofsReadDirectoryEntry_outside dir.isDir hnumber (by omega)
        (by omega) hdiv (by omega) hbuffer]
      refine iff_of_false (fun h => ?_) fun h => by omega
      cases h
  · rw [demofsReadDirectoryEntry_overflow dir.isDir (by omega)]
    refine iff_of_false (fun h => ?_) fun h => hint h.1
    cases h

/-- The listing ends at a number exactly as told. -/
lemma read_eq_none_iff : demofsReadDirectoryEntry d dir.inode (n * direntSize) = .ok (.ok none) ↔
    dir.EndsAt (toInt n) := by
  rcases lt_trichotomy (toInt n) 0 with hnegative | hzero | hpositive
  · rw [dir.read_negative hnegative]
    constructor
    · exact fun h => .inr ⟨h.1, hnegative, h.2⟩
    · rintro (⟨k, hk, _⟩ | h)
      · omega
      · exact ⟨h.1, h.2.2⟩
  · have hself : demofsReadDirectoryEntry d dir.inode (n * direntSize) =
        .ok (.ok (some dir.self)) := by
      unfold demofsReadDirectoryEntry
      rw [dir.isDir, offset_mod, offset_div, hzero]
      rfl
    rw [hself]
    refine iff_of_false (fun h => ?_) (fun h => ?_)
    · cases h
    · rcases h with ⟨k, hk, _⟩ | h
      · omega
      · omega
  · obtain ⟨k, hk⟩ := Int.eq_succ_of_zero_lt hpositive
    rw [demofsReadDirectoryEntry_succ dir.isDir hk, Except.ok.injEq]
    change dir.readAfter k = _ ↔ _
    rw [readAfter_eq_none_iff]
    constructor
    · exact fun h => .inl ⟨k, hk, h⟩
    · rintro (⟨k', hk', h⟩ | h)
      · have hsame : k' = k := by omega
        exact hsame ▸ h
      · omega

lemma lookupEntry_of_mem {entries : List Entry}
    (hdistinct : (entries.map fun entry => entry.name.chars).Nodup) (hmem : entry ∈ entries) :
    lookupEntry entry.name.chars entries = some entry := by
  induction entries with
  | nil => cases hmem
  | cons head rest ih =>
    rw [map_cons, nodup_cons] at hdistinct
    rw [lookupEntry_cons]
    rcases mem_cons.mp hmem with rfl | hmem
    · exact if_pos rfl
    · have hne : entry.name.chars ≠ head.name.chars := by
        intro hsame
        exact hdistinct.1 (hsame ▸ mem_map.mpr ⟨entry, hmem, rfl⟩)
      rw [if_neg hne, ih hdistinct.2 hmem]

/-- A lookup finds every entry of the directory. -/
lemma demofsFollow_entry (hmem : entry ∈ dir.entries)
    {fuel : Nat} (hfuel : dir.sectors.length ≤ fuel) :
    demofsFollow d fuel dir.inode entry.name.chars = some (.ok entry.child) := by
  unfold demofsFollow
  rw [if_neg (Nat.not_lt.mpr entry.name.short), dir.isDir, if_neg (by decide),
    followFrom_eq dir.chain entry.name.short entry.name.noZero hfuel
      (.inl rfl), lookupEntry_of_mem dir.distinct hmem]

/-- The child that a lookup gives has the inode and the type that are listed. -/
def Agrees (child : Nat) (dirent : Dirent) : Prop :=
  child % 2 ^ 31 = dirent.dIno ∧ (inodeIsDir child = true ↔ dirent.dType = .dir)

lemma agrees_dirent (hmem : entry ∈ dir.entries) : Agrees entry.child.1 (entry.dirent d) := by
  have hinode := dir.chain.inode_lt hmem
  unfold Agrees Entry.child Entry.dirent
  cases entry.isDir with
  | true => exact ⟨inodeToDir_mod _ le_rfl, iff_of_true (inodeIsDir_inodeToDir _) rfl⟩
  | false =>
    refine ⟨rfl, iff_of_false (fun h => ?_) (fun h => ?_)⟩
    · have hle : 2 ^ 31 ≤ entry.inode := of_decide_eq_true h
      omega
    · cases h

/-- What is listed at a number is what the number stands for, and a lookup of a
listed name agrees with the listing. -/
def ListsRight (n : Nat) : Prop :=
  demofsReadDirectoryEntry d dir.inode (n * direntSize) = .ok (.ok (dir.listing n)) ∧
    (n ≠ 0 → ∀ dirent, dir.listing n = some dirent →
      ∃ child length, Agrees child dirent ∧
        ∀ fuel, dir.sectors.length ≤ fuel →
          demofsFollow d fuel dir.inode dirent.dName = some (.ok (child, length)))

lemma listing_agrees (hn : n ≠ 0) {dirent : Dirent} (hlisted : dir.listing n = some dirent) :
    ∃ child length, Agrees child dirent ∧ ∀ fuel, dir.sectors.length ≤ fuel →
    demofsFollow d fuel dir.inode dirent.dName = some (.ok (child, length)) := by
  obtain ⟨k, rfl⟩ := Nat.exists_eq_succ_of_ne_zero hn
  obtain ⟨entry, hentry, rfl⟩ := Option.map_eq_some_iff.mp hlisted
  have hmem := mem_of_getElem? hentry
  exact ⟨entry.child.1, entry.child.2, dir.agrees_dirent hmem,
    fun fuel hfuel => dir.demofsFollow_entry hmem hfuel⟩

lemma toInt_of_lt (hn : n < 2 ^ 31) : toInt n = n := by
  unfold toInt
  rw [BitVec.toInt_eq_toNat_of_lt]
  · rw [BitVec.toNat_ofNat, Nat.mod_eq_of_lt (by omega)]
  · rw [BitVec.toNat_ofNat]
    omega

end Directory

/-- The numbers that are listed right are those of the directory itself and of
the first sector, and those at which the listing happens to end. -/
theorem listsRight_iff {d : Device} (dir : Directory d) (n : Nat) :
    dir.ListsRight n ↔ n ≤ 15 ∨ dir.EndsAt (toInt n) := by
  have hagrees : dir.ListsRight n ↔
      demofsReadDirectoryEntry d dir.inode (n * direntSize) = .ok (.ok (dir.listing n)) :=
    ⟨fun h => h.1, fun h => ⟨h, fun hn _ => dir.listing_agrees hn⟩⟩
  rw [hagrees]
  cases n with
  | zero =>
    refine iff_of_true ?_ (.inl (Nat.zero_le _))
    unfold demofsReadDirectoryEntry
    rw [dir.isDir]
    rfl
  | succ k =>
    have hends := @Directory.read_eq_none_iff d dir (k + 1)
    by_cases hsmall : k + 1 < 2 ^ 31
    · have hint : toInt (k + 1) = k + 1 := Directory.toInt_of_lt hsmall
      have hread : demofsReadDirectoryEntry d dir.inode
          ((k + 1) * direntSize) = .ok (dir.readAfter k) :=
        demofsReadDirectoryEntry_succ dir.isDir hint
      rw [hread, Except.ok.injEq] at hends ⊢
      by_cases hk : k < places
      · exact iff_of_true (dir.readAfter_first hk) (.inl hk)
      · have hk' : places ≤ k := Nat.le_of_not_lt hk
        constructor
        · intro h
          rw [dir.listing_eq_none_of_readAfter hk' h] at h
          exact .inr (hends.mp h)
        · rintro (h | h)
          · exact absurd h hk
          · have hnone := hends.mpr h
            rw [hnone, dir.listing_eq_none_of_readAfter hk' hnone]
    · have hnone : dir.listing (k + 1) = none := by
        have hlength := dir.entries_length_lt
        exact dir.listing_eq_none_iff.mpr (by omega)
      rw [hnone, hends]
      exact ⟨.inr, fun h => h.resolve_left (by omega)⟩

/-- A disk with a directory of sixteen files: fifteen in sector 9 and one in
sector 10. -/
def crowdedDisk : Device where
  bytes := fun address =>
    let i := address % sectorSize
    if address / sectorSize = 9 then
      if i = 0 then 0xFE
      else if i = 1 then 10
      else if i < 32 then 0
      else if i % 32 = 0 then UInt8.ofNat (64 + i / 32)
      else 0
    else if address / sectorSize = 10 then
      if i = 0 then 0xFF else if i = 32 then 90 else 0
    else 0
  status := fun _ _ => none
  stDev := 1

/-- The letter with a number. -/
def letter (i : Nat) : UInt8 :=
  UInt8.ofNat (64 + i % 32)

lemma letter_ne_zero (i : Nat) : letter i ≠ 0 := by
  intro h
  have hzero : (64 + i % 32) % 256 = 0 := congrArg UInt8.toNat h
  omega

/-- An empty file with a name of one letter. -/
def smallFile (i : Nat) : Entry where
  name :=
    { chars := [letter i]
      nonempty := cons_ne_nil _ _
      short := Nat.succ_le_succ (Nat.zero_le 23)
      noZero := fun h => letter_ne_zero i (mem_singleton.mp h).symm }
  length := 0
  inode := 0
  isDir := false

lemma holdsEntry_smallFile {buffer : ByteMemory} {place i : Nat}
    (hfirst : buffer place = letter i) (hrest : ∀ j, j < 31 → buffer (place + (j + 1)) = 0) :
    HoldsEntry buffer place (smallFile i) where
  name := by
    intro j hj
    unfold maxNameLength at hj
    cases j with
    | zero => exact hfirst
    | succ j => exact hrest j (by omega)
  inode := by
    have h₀ : buffer (place + maxNameLength + 4) = 0 := hrest 27 (by decide)
    have h₁ : buffer (place + maxNameLength + 4 + 1) = 0 := hrest 28 (by decide)
    have h₂ : buffer (place + maxNameLength + 4 + 2) = 0 := hrest 29 (by decide)
    unfold ByteMemory.load24
    rw [h₀, h₁, h₂]
    rfl
  flag := by
    have hflag : buffer (place + maxNameLength + 7) = 0 := hrest 30 (by decide)
    rw [hflag]
    exact iff_of_false (fun h => h rfl) Bool.false_ne_true
  length := by
    intro _
    have h₀ : buffer (place + maxNameLength) = 0 := hrest 23 (by decide)
    have h₁ : buffer (place + maxNameLength + 1) = 0 := hrest 24 (by decide)
    have h₂ : buffer (place + maxNameLength + 2) = 0 := hrest 25 (by decide)
    have h₃ : buffer (place + maxNameLength + 3) = 0 := hrest 26 (by decide)
    unfold ByteMemory.load
    rw [h₀, h₁, h₂, h₃]
    rfl

/-- Files with the letters from one on. -/
def crowd : Nat → Nat → List Entry
  | 0, _ => []
  | count + 1, i => smallFile i :: crowd count (i + 1)

lemma crowd_holds (count i : Nat) (hi : 1 ≤ i) (hcount : i + count ≤ 16) :
    HoldsEntries (crowdedDisk.from (9 * sectorSize)) (crowd count i) count i := by
  have hplaces : ∀ i < 16, 1 ≤ i → crowdedDisk.from (9 * sectorSize) (i * 32) = letter i ∧
      ∀ j < 31, crowdedDisk.from (9 * sectorSize) (i * 32 + (j + 1)) = 0 := by
    decide
  induction count generalizing i with
  | zero => exact trivial
  | succ count ih =>
    obtain ⟨hfirst, hrest⟩ := hplaces i (by omega) hi
    exact ⟨holdsEntry_smallFile hfirst hrest, ih (i + 1) (by omega) (by omega)⟩

lemma crowdedDisk_chain :
    DirChain crowdedDisk (inodeToDir 9) [crowd places 1, [smallFile 26]] 0 := by
  have hsecond : HoldsEntries (crowdedDisk.from (10 * sectorSize)) [smallFile 26] places 1 :=
    ⟨holdsEntry_smallFile rfl (by decide), holdsEntries_nil (by decide)⟩
  have hfirst := crowd_holds places 1 le_rfl (by decide)
  have hlast : DirChain crowdedDisk 10 [[smallFile 26]] 0 := DirChain.last rfl rfl hsecond
  exact DirChain.next rfl rfl hfirst rfl hlast

def crowdedDirectory : Directory crowdedDisk where
  inode := inodeToDir 9
  sectors := [crowd places 1, [smallFile 26]]
  after := 0
  isDir := rfl
  chain := crowdedDisk_chain
  distinct := by decide

/-- The last file of a directory with two sectors is found by its name, but it
is not listed. -/
theorem crowdedDirectory_not_listed :
    demofsFollow crowdedDisk 2 crowdedDirectory.inode [letter 26] = some (.ok (0, 0)) ∧
    demofsReadDirectoryEntry crowdedDisk crowdedDirectory.inode
      (16 * direntSize) = .ok (.error .eio) ∧ ¬ crowdedDirectory.ListsRight 16 := by
  have hread : demofsReadDirectoryEntry crowdedDisk crowdedDirectory.inode
      (16 * direntSize) = .ok (.error .eio) := rfl
  refine ⟨rfl, hread, fun hright => ?_⟩
  have hlisted := hread.symm.trans hright.1
  cases hlisted

end Merlon.DemoFs
