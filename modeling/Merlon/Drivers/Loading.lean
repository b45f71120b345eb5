/-
Where loading a driver writes, and when it reports success.  A segment is
written from its address on for as many bytes as it has in the file, and a
relocation to whatever address the file says; the size of the image counts only
the bytes that the segments have in memory.
-/
import Merlon.Drivers.Elf

namespace Merlon.Drivers

open List Span

open Libc (sizeTop)

variable {data memory : ByteMemory} {relocationPoint size : Nat}

/-- All addresses of a range are in the image. -/
def Span.Inside (relocationPoint size : Nat) (span : Span) : Prop :=
  ∀ address, span.Holds address →
    relocationPoint ≤ address ∧ address < relocationPoint + size

/-- A range that starts at an offset of the image is in it exactly when it is
empty or ends in it. -/
lemma span_inside_iff {offset : Nat} (length : Nat) (hoffset : offset < sizeTop)
    (hsize : size < sizeTop) (hfits : relocationPoint + size ≤ sizeTop) :
    (mk ((offset + relocationPoint) % sizeTop) length).Inside relocationPoint size ↔
    length = 0 ∨ offset + length ≤ size := by
  unfold sizeTop at *
  constructor
  · intro h
    by_contra hout
    by_cases hlow : offset < size
    · have hpast := h _ ⟨size - offset, by dsimp only; omega, rfl⟩
      dsimp only [sizeTop] at hpast
      omega
    · have hpast := h _ ⟨0, by dsimp only; omega, rfl⟩
      dsimp only [sizeTop] at hpast
      omega
  · rintro h address ⟨i, hi, rfl⟩
    dsimp only [sizeTop] at hi ⊢
    omega

namespace ProgramHeader

variable {header : ProgramHeader} {mapped : Nat}

/-- Where the segment is loaded to. -/
def addr (header : ProgramHeader) (relocationPoint : Nat) : Nat :=
  (header.vaddr + relocationPoint) % sizeTop

/-- The segment is loaded: it is writable, or it starts at a page and its whole
pages are mapped there. -/
def Loads (header : ProgramHeader) (relocationPoint mapped : Nat) : Prop :=
  header.writable = true ∨
    (header.addr relocationPoint % pageSize = 0 ∧
      (header.filesz < pageSize ∨ mapped = header.addr relocationPoint))

/-- How many bytes from its address on are written or mapped for a segment: a
refused segment has none, and without a mapping only the whole pages. -/
def touched (header : ProgramHeader) (relocationPoint mapped : Nat) : Nat :=
  if header.writable then header.filesz
  else if header.addr relocationPoint % pageSize ≠ 0 then 0
  else if header.filesz < pageSize ∨ mapped = header.addr relocationPoint then
    header.filesz
  else header.filesz / pageSize * pageSize

end ProgramHeader

lemma Span.holds_append {start first second address : Nat} :
    (mk start (first + second)).Holds address ↔ (mk start first).Holds address ∨
    (mk ((start + first) % sizeTop) second).Holds address := by
  constructor
  · rintro ⟨i, hi, rfl⟩
    by_cases hfirst : i < first
    · exact .inl ⟨i, hfirst, rfl⟩
    · refine .inr ⟨i - first, by dsimp only at hi ⊢; omega, ?_⟩
      dsimp only
      rw [Nat.mod_add_mod]
      congr 1
      omega
  · rintro (⟨i, hi, rfl⟩ | ⟨i, hi, rfl⟩)
    · exact ⟨i, by dsimp only at hi ⊢; omega, rfl⟩
    · refine ⟨first + i, by dsimp only at hi ⊢; omega, ?_⟩
      rw [Nat.mod_add_mod, Nat.add_assoc]

lemma Span.not_holds_zero {start address : Nat} : ¬ (mk start 0).Holds address := by
  rintro ⟨i, hi, -⟩
  exact absurd hi (Nat.not_lt_zero i)

lemma pages_eq (filesz : Nat) : (filesz - filesz % pageSize) / pageSize = filesz / pageSize := by
  unfold pageSize
  omega

/-- A list of at most one range holds what the range does. -/
lemma exists_span_ite {start length address : Nat} {empty : Prop} [Decidable empty]
    (hempty : empty → length = 0) :
    (∃ span ∈ (if empty then [] else [mk start length]), span.Holds address) ↔
    (mk start length).Holds address := by
  split
  · rename_i h
    rw [hempty h]
    exact iff_of_false (by simp) not_holds_zero
  · simp

/-- What the loading of a segment returns, and the addresses that it touches
from its own on. -/
lemma elfLoadProgramHeader_spec (data memory : ByteMemory)
    (header : ProgramHeader) (relocationPoint mapped : Nat) :
    ((elfLoadProgramHeader data memory header relocationPoint mapped).result =
        .ok () ↔ header.Loads relocationPoint mapped) ∧
    ∀ address,
      (∃ span ∈ (elfLoadProgramHeader data memory header relocationPoint
        mapped).spans, span.Holds address) ↔
        (mk (header.addr relocationPoint)
          (header.touched relocationPoint mapped)).Holds address := by
  have hwhole : header.filesz / pageSize * pageSize + header.filesz % pageSize = header.filesz :=
    Nat.div_add_mod' header.filesz pageSize
  unfold elfLoadProgramHeader
  dsimp only
  unfold ProgramHeader.Loads ProgramHeader.touched
  rw [pages_eq, ← ProgramHeader.addr]
  generalize header.addr relocationPoint = addr
  by_cases hwritable : header.writable = true
  · rw [if_pos hwritable, if_pos hwritable]
    exact ⟨iff_of_true rfl (.inl hwritable), fun address => by simp⟩
  rw [if_neg hwritable, if_neg hwritable, or_iff_right hwritable]
  by_cases haligned : addr % pageSize ≠ 0
  · rw [if_pos haligned, if_pos haligned]
    refine ⟨iff_of_false nofun fun h => haligned h.1, fun address => ?_⟩
    exact iff_of_false (by simp) not_holds_zero
  rw [if_neg haligned, if_neg haligned]
  rw [not_not] at haligned
  by_cases hmapped : header.filesz / pageSize ≠ 0 ∧ mapped ≠ addr
  · have hlost : ¬ (header.filesz < pageSize ∨ mapped = addr) := by
      rintro (hsmall | hsame)
      · exact hmapped.1 (Nat.div_eq_of_lt hsmall)
      · exact hmapped.2 hsame
    rw [if_pos hmapped, if_neg hlost]
    refine ⟨iff_of_false nofun fun h => hlost h.2, fun address => ?_⟩
    exact exists_span_ite fun hzero => absurd hzero hmapped.1
  · have hloaded : header.filesz < pageSize ∨ mapped = addr := by
      by_contra hlost
      rw [not_or] at hlost
      refine hmapped ⟨?_, hlost.2⟩
      unfold pageSize at hlost ⊢
      omega
    rw [if_neg hmapped, if_pos hloaded]
    have hpages : ∀ address, (∃ span ∈ (if header.filesz / pageSize = 0 then []
          else [mk addr (header.filesz / pageSize * pageSize)]),
          span.Holds address) ↔
        (mk addr (header.filesz / pageSize * pageSize)).Holds address :=
      fun address => exists_span_ite fun hzero => by rw [hzero, Nat.zero_mul]
    by_cases hremainder : header.filesz % pageSize = 0
    · rw [if_pos hremainder]
      refine ⟨iff_of_true rfl ⟨haligned, hloaded⟩, fun address => ?_⟩
      rw [hremainder, Nat.add_zero] at hwhole
      rw [hpages, hwhole]
    · rw [if_neg hremainder]
      refine ⟨iff_of_true rfl ⟨haligned, hloaded⟩, fun address => ?_⟩
      rw [← hwhole, holds_append, ← hpages, hwhole]
      simp only [mem_append, mem_singleton, or_and_right, exists_or, exists_eq_left]

/-- A segment is in the image exactly when the bytes that it touches are. -/
lemma elfLoadProgramHeader_inside_iff {header : ProgramHeader} {mapped : Nat}
    (hvaddr : header.vaddr < sizeTop) (hsize : size < sizeTop)
    (hfits : relocationPoint + size ≤ sizeTop) :
    (∀ span ∈ (elfLoadProgramHeader data memory header relocationPoint
      mapped).spans, span.Inside relocationPoint size) ↔
      header.touched relocationPoint mapped = 0 ∨
        header.vaddr + header.touched relocationPoint mapped ≤ size := by
  rw [← span_inside_iff _ hvaddr hsize hfits]
  have hspans := (elfLoadProgramHeader_spec data memory header relocationPoint mapped).2
  constructor
  · intro h address hholds
    obtain ⟨span, hmem, hspan⟩ := (hspans address).mpr hholds
    exact h span hmem address hspan
  · intro h span hmem address hspan
    exact h address ((hspans address).mp ⟨span, hmem, hspan⟩)

/-- The segments are loaded one by one. -/
lemma elfLoadProgramHeaders_spec (data : ByteMemory) (mapped : Nat → Nat)
    {headers : List (Nat × ProgramHeader)} (hvaddr : ∀ header ∈ headers, header.2.vaddr < sizeTop)
    (hsize : size < sizeTop) (hfits : relocationPoint + size ≤ sizeTop) (memory : ByteMemory) :
    ((∀ span ∈ (elfLoadProgramHeaders data relocationPoint mapped memory
        headers).spans, span.Inside relocationPoint size) ↔
      ∀ header ∈ headers,
        header.2.touched relocationPoint (mapped header.1) = 0 ∨
          header.2.vaddr + header.2.touched relocationPoint (mapped header.1) ≤ size) ∧
    ((∀ result ∈ (elfLoadProgramHeaders data relocationPoint mapped memory
        headers).results, result = .ok ()) ↔
      ∀ header ∈ headers, header.2.Loads relocationPoint (mapped header.1)) := by
  induction headers generalizing memory with
  | nil => exact ⟨iff_of_true nofun nofun, iff_of_true nofun nofun⟩
  | cons header rest ih =>
    rw [forall_mem_cons] at hvaddr
    have hlater := ih hvaddr.2 (elfLoadProgramHeader data memory header.2
      relocationPoint (mapped header.1)).memory
    unfold elfLoadProgramHeaders
    rw [forall_mem_append, forall_mem_cons, forall_mem_cons, forall_mem_cons, hlater.1, hlater.2,
      elfLoadProgramHeader_inside_iff hvaddr.1 hsize hfits,
      (elfLoadProgramHeader_spec data memory header.2 relocationPoint (mapped header.1)).1]
    exact ⟨Iff.rfl, Iff.rfl⟩

namespace Relocation

/-- The relocation has a symbol and a type that is known. -/
def works (relocation : Relocation) : Bool :=
  match relocation.symbol with
  | .value _ => relocation.kind != .other
  | _ => false

/-- The relocations that are written: up to the first that fails, and that one
too if it has a symbol. -/
def written : List Relocation → List Relocation
  | [] => []
  | relocation :: rest =>
    match relocation.symbol with
    | .value _ =>
      if relocation.kind = .other then [relocation]
      else relocation :: written rest
    | _ => []

end Relocation

open Relocation (written works)

/-- One relocation writes its entry, if it has a symbol. -/
lemma elfPerformRelocation_spec (base : Nat) (memory : ByteMemory) (relocation : Relocation) :
    ((elfPerformRelocation base memory relocation).ended = .success ∧
        relocation.works = true ∧ ∃ value,
        (elfPerformRelocation base memory relocation).entries =
          [⟨(base + relocation.offset) % sizeTop, value⟩]) ∨
      ((elfPerformRelocation base memory relocation).ended ≠ .success ∧ relocation.works = false ∧
        (elfPerformRelocation base memory relocation).entries.map Rel.address =
          (written [relocation]).map (fun relocation => (base + relocation.offset) % sizeTop)) := by
  unfold elfPerformRelocation works written
  cases relocation.symbol with
  | stopped => exact .inr ⟨nofun, rfl, rfl⟩
  | error => exact .inr ⟨nofun, rfl, rfl⟩
  | value symbol =>
    cases relocation.kind with
    | absolute => exact .inl ⟨rfl, rfl, _, rfl⟩
    | pcRelative => exact .inl ⟨rfl, rfl, _, rfl⟩
    | relative => exact .inl ⟨rfl, rfl, _, rfl⟩
    | other => exact .inr ⟨nofun, rfl, rfl⟩

lemma written_cons {relocation : Relocation} {rest : List Relocation} :
    written (relocation :: rest) =
      if relocation.works then relocation :: written rest
      else written [relocation] := by
  unfold works
  rw [written, written]
  cases relocation.symbol with
  | stopped => rfl
  | error => rfl
  | value symbol => cases relocation.kind <;> rfl

/-- The addresses of the entries, and whether the pass goes on, are known from
the relocations. -/
lemma elfPerformRelocations_spec (base : Nat) (memory : ByteMemory)
    (relocations : List Relocation) :
    (elfPerformRelocations base memory relocations).entries.map Rel.address =
        (written relocations).map (fun relocation => (base + relocation.offset) % sizeTop) ∧
    ((elfPerformRelocations base memory relocations).ended = .success ↔
      ∀ relocation ∈ relocations, relocation.works = true) := by
  induction relocations generalizing memory with
  | nil => exact ⟨rfl, iff_of_true rfl nofun⟩
  | cons relocation rest ih =>
    rw [forall_mem_cons, written_cons]
    unfold elfPerformRelocations
    dsimp only
    rcases elfPerformRelocation_spec base memory relocation with
      ⟨hended, hworks, value, hentries⟩ | ⟨hended, hworks, hentries⟩
    · have hlater := ih (elfPerformRelocation base memory relocation).memory
      rw [hended, hentries, if_pos hworks, map_append, hlater.1]
      exact ⟨rfl, hlater.2.trans (and_iff_right hworks).symm⟩
    · rw [if_neg (by rw [hworks]; exact Bool.false_ne_true)]
      split
      · rename_i hsuccess
        exact absurd hsuccess hended
      · refine ⟨hentries, iff_of_false hended fun h => ?_⟩
        rw [hworks] at h
        exact Bool.false_ne_true h.1

lemma written_of_works {relocations : List Relocation}
    (h : ∀ relocation ∈ relocations, relocation.works = true) :
    written relocations = relocations := by
  induction relocations with
  | nil => rfl
  | cons relocation rest ih =>
    rw [forall_mem_cons] at h
    rw [written_cons, if_pos h.1, ih h.2]

lemma sortRelocationTable_eq_none {entries : List Rel} :
    sortRelocationTable entries = none ↔ entries = [] := by
  unfold sortRelocationTable Libc.qsort
  split
  · rename_i h
    exact iff_of_true rfl h
  · rename_i h
    exact iff_of_false nofun h

section Sections

variable (data : ByteMemory) (getSymbolAddress : Nat → Nat)
  (relocationPoint : Nat)

/-- The relocations of a section that is called `.rel.dyn`. -/
def relocationsOf (header : SectionHeader) : List Relocation :=
  if header.type = 9 ∧ header.entsize ≠ 0 ∧ shstrndx data ≠ 0 ∧
      isRelDyn data header = true then
    (range (relCount header)).map
      (relocation data getSymbolAddress header relocationPoint)
  else []

/-- The relocation pass goes on after a section. -/
def sectionWorks (header : SectionHeader) : Bool :=
  if header.type = 9 then
    header.entsize != 0 && shstrndx data != 0 &&
      (!isRelDyn data header ||
        (let relocations :=
          relocationsOf data getSymbolAddress relocationPoint header
        !relocations.isEmpty && relocations.all works))
  else header.type != 4

/-- The relocations that the pass comes to. -/
def reached : List SectionHeader → List Relocation
  | [] => []
  | header :: rest =>
    written
        (relocationsOf data getSymbolAddress relocationPoint header) ++
      if sectionWorks data getSymbolAddress relocationPoint header then
        reached rest
      else []

/-- What a section does to the table, and whether the pass goes on after it. -/
lemma elfRelocateSection_spec (memory : ByteMemory) (header : SectionHeader) :
    (elfRelocateSection data getSymbolAddress relocationPoint memory header).entries.map
    Rel.address = (written (relocationsOf data getSymbolAddress relocationPoint header)).map
    (fun relocation => (relocationPoint + relocation.offset) % sizeTop) ∧
    ((elfRelocateSection data getSymbolAddress relocationPoint memory header).ended = .success ↔
      sectionWorks data getSymbolAddress relocationPoint header = true) := by
  unfold elfRelocateSection sectionWorks
  by_cases hrel : header.type = 9
  swap
  · have hnone : relocationsOf data getSymbolAddress relocationPoint header =
        [] := if_neg fun h => hrel h.1
    rw [if_neg hrel, hnone]
    split
    · rename_i hrela
      exact ⟨rfl, iff_of_false nofun (by simp [hrela])⟩
    · rename_i hrela
      exact ⟨rfl, iff_of_true rfl (by simp [hrela])⟩
  rw [if_pos hrel, if_pos hrel]
  by_cases hstops : header.entsize = 0 ∨ shstrndx data = 0
  · have hnone : relocationsOf data getSymbolAddress relocationPoint header =
        [] := if_neg fun h => hstops.elim h.2.1 h.2.2.1
    rw [if_pos hstops, hnone]
    refine ⟨rfl, iff_of_false nofun ?_⟩
    rcases hstops with hstops | hstops <;> simp [hstops]
  rw [if_neg hstops]
  rw [not_or] at hstops
  by_cases hname : isRelDyn data header = false
  · have hnone : relocationsOf data getSymbolAddress relocationPoint header =
        [] := if_neg fun h => by
          rw [hname] at h
          exact Bool.false_ne_true h.2.2.2
    rw [if_pos hname, hnone]
    exact ⟨rfl, iff_of_true rfl (by simp [hstops, hname])⟩
  rw [if_neg hname]
  rw [Bool.not_eq_false] at hname
  have hrels : relocationsOf data getSymbolAddress relocationPoint header = _ :=
    if_pos ⟨hrel, hstops.1, hstops.2, hname⟩
  rw [← hrels]
  generalize relocationsOf data getSymbolAddress relocationPoint header = rels
  obtain ⟨haddresses, hended⟩ := elfPerformRelocations_spec relocationPoint memory rels
  have hempty : (∀ relocation ∈ rels, relocation.works = true) →
      ((elfPerformRelocations relocationPoint memory rels).entries = [] ↔ rels = []) := by
    intro hworks
    rw [written_of_works hworks] at haddresses
    rw [← map_eq_nil_iff (f := Rel.address), haddresses, map_eq_nil_iff]
  have hgoes : (header.entsize != 0 && shstrndx data != 0 &&
      (!isRelDyn data header || (!rels.isEmpty && rels.all works))) = true ↔
      rels ≠ [] ∧ ∀ relocation ∈ rels, relocation.works = true := by
    simp [hstops, hname]
  dsimp only
  rw [hgoes]
  split
  · rename_i hsort
    rw [sortRelocationTable_eq_none] at hsort
    refine ⟨haddresses, iff_of_false nofun fun h => ?_⟩
    exact h.1 ((hempty h.2).mp hsort.2)
  · rename_i hsort
    rw [sortRelocationTable_eq_none] at hsort
    refine ⟨haddresses, ?_⟩
    constructor
    · intro hsuccess
      have hworks := hended.mp hsuccess
      exact ⟨fun hnil => hsort ⟨hsuccess, (hempty hworks).mpr hnil⟩, hworks⟩
    · intro h
      exact hended.mpr h.2

/-- The pass over the sections. -/
lemma elfRelocateSections_spec (memory : ByteMemory) (headers : List SectionHeader) :
    (elfRelocateSections data getSymbolAddress relocationPoint memory headers).entries.map
    Rel.address = (reached data getSymbolAddress relocationPoint headers).map (fun relocation =>
          (relocationPoint + relocation.offset) % sizeTop) ∧
    ((elfRelocateSections data getSymbolAddress relocationPoint memory headers).ended = .success ↔
      ∀ header ∈ headers, sectionWorks data getSymbolAddress relocationPoint header = true) := by
  induction headers generalizing memory with
  | nil => exact ⟨rfl, iff_of_true rfl nofun⟩
  | cons header rest ih =>
    obtain ⟨haddresses, hended⟩ := elfRelocateSection_spec data
      getSymbolAddress relocationPoint memory header
    rw [forall_mem_cons]
    unfold elfRelocateSections reached
    dsimp only
    by_cases hworks : sectionWorks data getSymbolAddress relocationPoint header = true
    · have hlater := ih (elfRelocateSection data getSymbolAddress
        relocationPoint memory header).memory
      rw [hended.mpr hworks, if_pos hworks]
      rw [map_append, map_append, haddresses, hlater.1, hlater.2]
      exact ⟨rfl, (and_iff_right hworks).symm⟩
    · rw [if_neg hworks, append_nil]
      split
      · rename_i hsuccess
        exact absurd (hended.mp hsuccess) hworks
      · refine ⟨haddresses, iff_of_false ?_ fun h => hworks h.1⟩
        exact fun hsuccess => hworks (hended.mp hsuccess)

end Sections

/-- The headers of the sections. -/
def sections (data : ByteMemory) : List SectionHeader :=
  (range (shnum data)).map (sectionHeader data)

/-- `ElfLoad` goes past its checks of the header. -/
structure Accepted (data : ByteMemory) : Prop where
  valid : isElfValid data = true
  sections : shnum data ≠ 0
  segments : phnum data ≠ 0

/-- Everything that a load writes is in the image, and it succeeds only if all
segments were loaded. -/
structure StaysInside (relocationPoint size : Nat) (loading : Loading) :
    Prop where
  inside : ∀ span ∈ loading.spans, span.Inside relocationPoint size
  loaded : loading.ended = .success →
    ∀ result ∈ loading.results, result = .ok ()

/-- What the file has to say for that: the bytes that the segments touch and the
words that are relocated end in the image, and if no section makes the
relocations fail then every segment can be loaded. -/
structure FitsImage (data : ByteMemory) (getSymbolAddress : Nat → Nat)
    (mapped : Nat → Nat) (relocationPoint : Nat) : Prop where
  segments : ∀ header ∈ loadable data,
    header.2.touched relocationPoint (mapped header.1) = 0 ∨
      header.2.vaddr + header.2.touched relocationPoint (mapped header.1) ≤
        elfGetSizeOfImageIncludingBss data
  relocations : ∀ relocation ∈
      reached data getSymbolAddress relocationPoint (sections data),
    relocation.offset + 4 ≤ elfGetSizeOfImageIncludingBss data
  loads : (∀ header ∈ sections data,
      sectionWorks data getSymbolAddress relocationPoint header = true) →
    ∀ header ∈ loadable data,
      header.2.Loads relocationPoint (mapped header.1)

lemma word_lt (data : ByteMemory) (offset : Nat) : word data offset < sizeTop := data.load_lt _

lemma vaddr_lt_of_mem_loadable {header : Nat × ProgramHeader}
    (h : header ∈ loadable data) : header.2.vaddr < sizeTop := by
  obtain ⟨i, -, rfl⟩ := mem_map.mp (mem_of_mem_filter h)
  exact word_lt data _

lemma elfGetSizeOfImageIncludingBss_lt (data : ByteMemory) :
    elfGetSizeOfImageIncludingBss data < sizeTop := by
  refine Nat.lt_of_le_of_lt (Nat.div_mul_le_self _ _) (Nat.mod_lt _ ?_)
  unfold sizeTop
  omega

lemma written_subset {relocations : List Relocation} {relocation : Relocation}
    (h : relocation ∈ written relocations) : relocation ∈ relocations := by
  induction relocations with
  | nil => exact h
  | cons head rest ih =>
    rw [written] at h
    split at h
    · split at h
      · exact mem_cons.mpr (.inl (mem_singleton.mp h))
      · rcases mem_cons.mp h with rfl | hrest
        · exact mem_cons_self
        · exact mem_cons_of_mem _ (ih hrest)
    · cases h

lemma offset_lt_of_mem_reached {getSymbolAddress : Nat → Nat}
    {headers : List SectionHeader} {relocation : Relocation}
    (h : relocation ∈ reached data getSymbolAddress relocationPoint headers) :
    relocation.offset < sizeTop := by
  induction headers with
  | nil => cases h
  | cons header rest ih =>
    rw [reached, mem_append] at h
    rcases h with hhere | hlater
    · have hmem := written_subset hhere
      unfold relocationsOf at hmem
      split at hmem
      · obtain ⟨index, -, rfl⟩ := mem_map.mp hmem
        exact word_lt data _
      · cases hmem
    · split at hlater
      · exact ih hlater
      · cases hlater

/-- The words that are relocated are in the image exactly when their offsets
say so. -/
lemma relocated_inside_iff (data : ByteMemory) (getSymbolAddress : Nat → Nat)
    (hsize : size < sizeTop) (hfits : relocationPoint + size ≤ sizeTop) (memory : ByteMemory)
    (headers : List SectionHeader) :
    (∀ span ∈ (elfRelocateSections data getSymbolAddress relocationPoint memory
        headers).entries.map (fun entry => mk entry.address 4),
      span.Inside relocationPoint size) ↔
      ∀ relocation ∈ reached data getSymbolAddress relocationPoint headers,
        relocation.offset + 4 ≤ size := by
  have haddresses := (elfRelocateSections_spec data getSymbolAddress
    relocationPoint memory headers).1
  rw [show (fun entry : Rel => mk entry.address 4) =
      (fun address => mk address 4) ∘ Rel.address from rfl,
    ← map_map, haddresses, map_map, forall_mem_map]
  refine forall₂_congr fun relocation hmem => ?_
  have hword := span_inside_iff 4 (offset_lt_of_mem_reached hmem) hsize hfits
  rw [or_iff_right (by decide), Nat.add_comm] at hword
  exact hword

/-- A load stays inside the image, and succeeds only with all segments, exactly
when the file fits the size that it computes for the image. -/
theorem elfLoad_staysInside_iff {getSymbolAddress mapped : Nat → Nat} (haccepted : Accepted data)
    (hfits : relocationPoint + elfGetSizeOfImageIncludingBss data ≤ sizeTop) (memory : ByteMemory) :
    StaysInside relocationPoint (elfGetSizeOfImageIncludingBss data)
        (elfLoad data getSymbolAddress mapped relocationPoint memory) ↔
      FitsImage data getSymbolAddress mapped relocationPoint := by
  have hsize := elfGetSizeOfImageIncludingBss_lt data
  obtain ⟨hinside, hloaded⟩ := elfLoadProgramHeaders_spec data mapped
    (fun header hmem => vaddr_lt_of_mem_loadable hmem) hsize hfits memory
  have hload : elfLoad data getSymbolAddress mapped relocationPoint memory = _ :=
    if_neg (by simp [haccepted.valid, haccepted.sections, haccepted.segments])
  have hwords := relocated_inside_iff data getSymbolAddress hsize hfits
    (elfLoadProgramHeaders data relocationPoint mapped memory (loadable data)).memory
    (sections data)
  have hended := (elfRelocateSections_spec data getSymbolAddress
    relocationPoint (elfLoadProgramHeaders data relocationPoint mapped memory
      (loadable data)).memory (sections data)).2
  rw [hload]
  constructor
  · intro h
    have hall := forall_mem_append.mp h.inside
    exact ⟨hinside.mp hall.1, hwords.mp hall.2, fun hworks =>
      hloaded.mp (h.loaded (hended.mpr hworks))⟩
  · intro h
    refine ⟨forall_mem_append.mpr
      ⟨hinside.mpr h.segments, hwords.mpr h.relocations⟩, fun hsuccess => ?_⟩
    exact hloaded.mpr (h.loads (hended.mp hsuccess))

/-- A file with one writable segment of a page in memory, with the given number
of pages in the file, and one empty section. -/
def oneSegment (pages : UInt8) : ByteMemory
  | 0 => 0x7F
  | 1 => 69
  | 2 => 76
  | 3 => 70
  | 28 => 52
  | 32 => 84
  | 44 => 1
  | 48 => 1
  | 52 => 1
  | 69 => 16 * pages
  | 73 => 16
  | 76 => 2
  | _ => 0

/-- A segment of one page in the file stays in the image. -/
theorem oneSegment_staysInside :
    StaysInside 0xC0000000 (elfGetSizeOfImageIncludingBss (oneSegment 1))
      (elfLoad (oneSegment 1) (fun _ => 0) (fun _ => 0) 0xC0000000 (fun _ => 0)) :=
  (elfLoad_staysInside_iff ⟨by decide, by decide, by decide⟩ (by decide) _).mpr
    { segments := by decide +kernel
      relocations := by decide +kernel
      loads := fun _ header hmem => by
        have hloadable : loadable (oneSegment 1) =
            [(0, ⟨1, 0, 0, 0x1000, 0x1000, 2⟩)] := by decide +kernel
        rw [hloadable] at hmem
        cases mem_singleton.mp hmem
        exact .inl (by decide) }

/-- A segment of two pages in the file and one in memory is written past the end
of the image. -/
theorem oneSegment_leaves : Accepted (oneSegment 2) ∧
    elfGetSizeOfImageIncludingBss (oneSegment 2) = 0x1000 ∧
    ∃ span ∈ (elfLoad (oneSegment 2) (fun _ => 0) (fun _ => 0) 0xC0000000 (fun _ => 0)).spans,
    span.Holds 0xC0001000 := by
  refine ⟨⟨by decide, by decide, by decide⟩, by decide +kernel,
    ⟨0xC0000000, 0x2000⟩, by decide +kernel, 0x1000, by decide, by decide⟩

end Merlon.Drivers
