/-
Which entries of the table a reload of a page writes, and when the page then
holds what it held after the first load.  The search finds an entry of the page
if there is one; the walk back from it misses the first entry of the run when
exactly one entry stands before it.
-/
import Merlon.Drivers.Relocation
import Mathlib.Data.List.TakeWhile

namespace Merlon.Drivers

open List Rel

variable {table : List Rel} {virtual : Nat} {entries : List Rel} {entry : Rel}

/-- The entries before the run of near entries that the page's own are in. -/
def earlier (table : List Rel) (virtual : Nat) : List Rel :=
  let before := table.takeWhile fun entry => !entry.onPage virtual
  (before.reverse.dropWhile (Rel.near virtual)).reverse

/-- The entries up to the first with an address. -/
def upTo (final : Nat) : List Rel → List Rel
  | [] => []
  | entry :: rest => if entry.address = final then [entry] else entry :: upTo final rest

/-- The entries that a reload writes: none if exactly one stands before the
run, and only the first of those with the last address. -/
def reapplied (table : List Rel) (virtual : Nat) : List Rel :=
  match table.getLast? with
  | none => []
  | some last =>
    let before := (earlier table virtual).length
    if before = 1 then []
    else
      upTo last.address ((table.drop before).takeWhile (Rel.near virtual))

lemma applyFrom_eq {final : Nat} {ready : Bool} (hne : entries ≠ [])
    (hlast : ∀ last ∈ entries.getLast?, last.address = final) (memory : ByteMemory) :
    applyFrom virtual final ready memory entries =
      if (upTo final (entries.takeWhile (near virtual))).any
          (locksNext virtual) ∧ ready = false then .error .fault
      else
        .ok (writes memory (upTo final (entries.takeWhile (near virtual)))) := by
  induction entries generalizing memory with
  | nil => exact absurd rfl hne
  | cons entry rest ih =>
    unfold applyFrom
    by_cases hnear : entry.near virtual = true
    · rw [if_pos hnear, takeWhile_cons_of_pos hnear]
      by_cases hfinal : entry.address = final
      · have hupTo : upTo final (entry :: rest.takeWhile (near virtual)) = [entry] :=
          if_pos hfinal
        rw [hupTo, any_cons, any_nil, Bool.or_false]
        split <;> rfl
      · have hupTo : upTo final (entry :: rest.takeWhile (near virtual)) =
            entry :: upTo final (rest.takeWhile (near virtual)) :=
          if_neg hfinal
        have hrest : rest ≠ [] := by
          rintro rfl
          exact hfinal (hlast entry rfl)
        have hrestLast : ∀ last ∈ rest.getLast?, last.address = final := by
          intro last hmem
          refine hlast last ?_
          rw [getLast?_cons_of_ne_nil hrest]
          exact hmem
        rw [hupTo]
        rw [if_neg hfinal, ih hrest hrestLast]
        by_cases hlocks : entry.locksNext virtual = true
        · cases ready with
          | false => simp [hlocks]
          | true => simp [writes]
        · simp [hlocks, writes]
    · rw [if_neg hnear, takeWhile_cons_of_neg hnear]
      simp [upTo, writes]

/-- The walk back stops before the first entry of the run. -/
lemma walkBack_eq {first i : Nat} (hfirst : first ≤ i)
    (hrun : ∀ j, first ≤ j → j ≤ i → ∃ entry, table[j]? = some entry ∧ entry.near virtual = true)
    (hbefore : ∀ j, first = j + 1 → ∃ entry, table[j]? = some entry ∧ entry.near virtual = false) :
    walkBack table virtual i = first - 1 := by
  induction i with
  | zero =>
    rw [Nat.le_zero.mp hfirst]
    rfl
  | succ i ih =>
    obtain ⟨entry, hentry, hnear⟩ := hrun (i + 1) hfirst (Nat.le_refl _)
    unfold walkBack
    rw [hentry]
    dsimp only
    rw [if_pos hnear]
    by_cases hsame : first = i + 1
    · obtain ⟨other, hother, hfar⟩ := hbefore i hsame
      rw [hsame, Nat.add_sub_cancel]
      cases i with
      | zero => rfl
      | succ i =>
        unfold walkBack
        rw [hother]
        dsimp only
        rw [if_neg (by rw [hfar]; exact Bool.false_ne_true)]
    · exact ih (by omega) fun j hlow hhigh => hrun j hlow (by omega)

/-- A table after `SortRelocationTable`. -/
def Sorted (table : List Rel) : Prop :=
  table.Pairwise fun a b => a.address ≤ b.address

lemma Sorted.le {i j : Nat} {later : Rel} (h : Sorted table)
    (hij : i ≤ j) (hentry : table[i]? = some entry)
    (hlater : table[j]? = some later) : entry.address ≤ later.address := by
  obtain ⟨hi, rfl⟩ := List.getElem?_eq_some_iff.mp hentry
  obtain ⟨hj, rfl⟩ := List.getElem?_eq_some_iff.mp hlater
  rcases Nat.lt_or_eq_of_le hij with hlt | rfl
  · exact pairwise_iff_getElem.mp h i j hi hj hlt
  · exact Nat.le_refl _

/-- The table is what stands before the run, entries of the run, and the
entries from the first one of the page on. -/
lemma exists_earlier_append (table : List Rel) (virtual : Nat) :
    ∃ run, table = earlier table virtual ++ (run ++
        table.dropWhile fun entry => !entry.onPage virtual) ∧
      (∀ entry ∈ run, entry.near virtual = true) ∧
      (∀ entry ∈ earlier table virtual ++ run, entry.onPage virtual = false) := by
  let before := table.takeWhile fun entry => !entry.onPage virtual
  have hbefore : earlier table virtual ++
      (before.reverse.takeWhile (near virtual)).reverse = before := by
    unfold earlier
    rw [← reverse_append, takeWhile_append_dropWhile, reverse_reverse]
  refine ⟨(before.reverse.takeWhile (near virtual)).reverse, ?_, ?_, ?_⟩
  · rw [← append_assoc, hbefore]
    exact takeWhile_append_dropWhile.symm
  · intro entry hmem
    rw [mem_reverse] at hmem
    exact mem_takeWhile_imp hmem
  · intro entry hmem
    rw [hbefore] at hmem
    have hnot := mem_takeWhile_imp hmem
    rw [Bool.not_eq_true'] at hnot
    exact hnot

/-- The entry just before the run is not near the page. -/
lemma getLast_earlier (table : List Rel) (h : (earlier table virtual).getLast? = some entry) :
    entry.near virtual = false := by
  unfold earlier at h
  rw [getLast?_reverse] at h
  have hhead := head?_dropWhile_not (near virtual)
    (table.takeWhile fun entry => !entry.onPage virtual).reverse
  rw [h] at hhead
  exact hhead

lemma near_of_onPage (h : entry.onPage virtual = true) : entry.near virtual = true := by
  unfold near
  rw [h, Bool.true_or]

lemma onPage_between {start last : Rel} (hstart : start.onPage virtual = true)
    (hlast : last.onPage virtual = true) (hlow : start.address ≤ entry.address)
    (hhigh : entry.address ≤ last.address) : entry.onPage virtual = true := by
  unfold onPage at hstart hlast ⊢
  rw [beq_iff_eq] at hstart hlast ⊢
  have hbelow := Nat.div_le_div_right (c := pageSize) hlow
  have habove := Nat.div_le_div_right (c := pageSize) hhigh
  omega

/-- The walk back from an entry of the page. -/
lemma walkBack_found (hsorted : Sorted table) {i : Nat}
    (hentry : table[i]? = some entry) (hpage : entry.onPage virtual = true) :
    walkBack table virtual i = (earlier table virtual).length - 1 := by
  obtain ⟨run, htable, hrun, hoff⟩ := exists_earlier_append table virtual
  have hlow : (earlier table virtual ++ run).length ≤ i := by
    by_contra hlt
    rw [htable, ← append_assoc, List.getElem?_append_left (Nat.not_le.mp hlt)] at hentry
    have hnot := hoff entry (mem_of_getElem? hentry)
    rw [hpage] at hnot
    cases hnot
  rw [length_append] at hlow
  have hi : i < table.length := (List.getElem?_eq_some_iff.mp hentry).1
  refine walkBack_eq (by omega) (fun j hj hji => ?_) fun j hj => ?_
  · have hlength : j < table.length := by omega
    refine ⟨table[j], List.getElem?_eq_getElem hlength, ?_⟩
    have hother := List.getElem?_eq_getElem hlength
    generalize table[j] = other at hother
    by_cases hin : j < (earlier table virtual).length + run.length
    · rw [htable, List.getElem?_append_right hj, List.getElem?_append_left (by omega)] at hother
      exact hrun other (mem_of_getElem? hother)
    · have hrest : (table.dropWhile fun entry => !entry.onPage virtual).length +
          ((earlier table virtual).length + run.length) = table.length := by
        have hsum := congrArg length htable
        rw [length_append, length_append] at hsum
        omega
      obtain ⟨start, hstart⟩ : ∃ start,
          (table.dropWhile fun entry => !entry.onPage virtual)[0]? = some start :=
        ⟨_, List.getElem?_eq_getElem (by omega)⟩
      have hon : start.onPage virtual = true := by
        have hhead := head?_dropWhile_not (fun entry => !onPage virtual entry) table
        rw [head?_eq_getElem?, hstart] at hhead
        simpa using hhead
      have hindex : table[(earlier table virtual).length + run.length]? = some start := by
        have hget := congrArg (·[(earlier table virtual).length + run.length]?) htable
        rw [hget, ← append_assoc, ← length_append,
          List.getElem?_append_right (Nat.le_refl _), Nat.sub_self]
        exact hstart
      exact near_of_onPage (onPage_between hon hpage
        (hsorted.le (by omega) hindex hother) (hsorted.le hji hother hentry))
  · obtain ⟨last, hlast⟩ : ∃ last, (earlier table virtual)[j]? = some last :=
      ⟨_, List.getElem?_eq_getElem (by omega)⟩
    refine ⟨last, ?_, getLast_earlier table ?_⟩
    · rw [htable, List.getElem?_append_left (by omega)]
      exact hlast
    · rw [getLast?_eq_getElem?, hj]
      exact hlast

lemma Sorted.ordered (h : Sorted table) (virtual : Nat) :
    Libc.Ordered (binarySearchComparator virtual) table where
  above i j entry later hij hentry hlater hlt := by
    unfold binarySearchComparator at hlt ⊢
    rw [Nat.compare_eq_lt] at hlt ⊢
    exact Nat.lt_of_lt_of_le hlt (Nat.div_le_div_right (h.le hij hentry hlater))
  below i j entry later hij hentry hlater hgt := by
    unfold binarySearchComparator at hgt ⊢
    rw [Nat.compare_eq_gt] at hgt ⊢
    exact Nat.lt_of_le_of_lt (Nat.div_le_div_right (h.le hij hentry hlater)) hgt

lemma binarySearchComparator_eq : binarySearchComparator virtual entry = .eq ↔
      entry.onPage virtual = true := by
  unfold binarySearchComparator onPage
  rw [Nat.compare_eq_eq, beq_iff_eq, eq_comm]

lemma reapplied_eq (virtual : Nat) {last : Rel} (hlast : table.getLast? = some last) :
    reapplied table virtual =
      if (earlier table virtual).length = 1 then []
      else upTo last.address
        ((table.drop (earlier table virtual).length).takeWhile (near virtual)) := by
  unfold reapplied
  rw [hlast]

/-- What is written from where the walk back ends. -/
lemma applyFrom_start {last : Rel} (hlast : table.getLast? = some last)
    (hbefore : (earlier table virtual).length < table.length) (ready : Bool) (memory : ByteMemory) :
    applyFrom virtual last.address ready memory
        (table.drop (if (earlier table virtual).length - 1 = 0 then 0
          else (earlier table virtual).length - 1 + 1)) =
      if (reapplied table virtual).any (locksNext virtual) ∧ ready = false then .error .fault
      else .ok (writes memory (reapplied table virtual)) := by
  have happlied := reapplied_eq virtual hlast
  by_cases hone : (earlier table virtual).length = 1
  · rw [if_pos hone] at happlied
    obtain ⟨run, htable, -⟩ := exists_earlier_append table virtual
    obtain ⟨start, hstart⟩ := length_eq_one_iff.mp hone
    have hfar : start.near virtual = false := getLast_earlier table (by rw [hstart]; rfl)
    rw [hstart] at htable
    rw [if_pos (by omega), happlied, htable]
    exact if_neg (by rw [hfar]; exact Bool.false_ne_true)
  · rw [if_neg hone] at happlied
    have hstart : (if (earlier table virtual).length - 1 = 0 then 0
        else (earlier table virtual).length - 1 + 1) =
        (earlier table virtual).length := by
      split <;> omega
    rw [hstart, happlied]
    refine applyFrom_eq ?_ (fun other hother => ?_) memory
    · rw [ne_eq, drop_eq_nil_iff]
      omega
    · rw [getLast?_drop, if_neg (by omega), hlast] at hother
      cases hother
      rfl

/-- What a reload of a page that has an entry does. -/
lemma applyRelocationsToPage_eq (hsorted : Sorted table) (hsize : table.length < Libc.sizeTop)
    (hpage : ∃ entry ∈ table, entry.onPage virtual = true) (ready : Bool) (memory : ByteMemory) :
    applyRelocationsToPage table virtual ready memory =
      if (reapplied table virtual).any (locksNext virtual) ∧ ready = false then .error .fault
      else .ok (writes memory (reapplied table virtual)) := by
  obtain ⟨entry, hmem, hon⟩ := hpage
  obtain ⟨i, hfound⟩ := (Libc.bsearch_found_iff (hsorted.ordered virtual) hsize).mpr
      ⟨entry, hmem, binarySearchComparator_eq.mpr hon⟩
  obtain ⟨item, hitem, heq⟩ := Libc.bsearch_found hfound
  rw [binarySearchComparator_eq] at heq
  have hbefore : (earlier table virtual).length < table.length := by
    obtain ⟨run, htable, -, hoff⟩ := exists_earlier_append table virtual
    by_contra hall
    have hsum := congrArg length htable
    rw [length_append, length_append] at hsum
    have hrest : table.dropWhile (fun entry => !entry.onPage virtual) = [] :=
      length_eq_zero_iff.mp (by omega)
    rw [hrest, append_nil] at htable
    rw [htable] at hmem
    rw [hoff entry hmem] at hon
    cases hon
  obtain ⟨last, hlast⟩ : ∃ last, table.getLast? = some last :=
    ⟨_, getLast?_eq_some_getLast (ne_nil_of_mem hmem)⟩
  unfold applyRelocationsToPage
  rw [hfound]
  dsimp only
  rw [walkBack_found hsorted hitem heq, hlast]
  exact applyFrom_start hlast hbefore ready memory

/-- A page without an entry is not reloaded. -/
lemma applyRelocationsToPage_ne_ok (hsorted : Sorted table) (hsize : table.length < Libc.sizeTop)
    (hpage : ¬ ∃ entry ∈ table, entry.onPage virtual = true) (ready : Bool)
    (memory result : ByteMemory) :
    applyRelocationsToPage table virtual ready memory ≠ .ok result := by
  intro h
  unfold applyRelocationsToPage at h
  split at h
  · cases h
  · cases h
  · rename_i i hfound
    obtain ⟨entry, hmem, heq⟩ :=
      (Libc.bsearch_found_iff (hsorted.ordered virtual) hsize).mp ⟨i, hfound⟩
    exact hpage ⟨entry, hmem, binarySearchComparator_eq.mp heq⟩

lemma sortRelocationTable_sorted (h : sortRelocationTable entries = some table) : Sorted table := by
  unfold sortRelocationTable Libc.qsort at h
  split at h
  · cases h
  · cases h
    refine (pairwise_mergeSort ?_ ?_ entries).imp of_decide_eq_true
    · intro a b c hab hbc
      rw [decide_eq_true_iff] at hab hbc ⊢
      exact Nat.le_trans hab hbc
    · intro a b
      rw [Bool.or_eq_true, decide_eq_true_iff, decide_eq_true_iff]
      exact Nat.le_total _ _

lemma sortRelocationTable_length (h : sortRelocationTable entries = some table) :
    table.length = entries.length := by
  unfold sortRelocationTable Libc.qsort at h
  split at h
  · cases h
  · cases h
    exact length_mergeSort entries

lemma elfPerformRelocation_length_le (base : Nat) (memory : ByteMemory) (relocation : Relocation) :
    (elfPerformRelocation base memory relocation).entries.length ≤ 1 := by
  unfold elfPerformRelocation
  dsimp only
  split
  · exact Nat.zero_le _
  · exact Nat.zero_le _
  · split <;> exact Nat.le_refl _

lemma elfPerformRelocations_length_le (base : Nat) (memory : ByteMemory)
    (relocations : List Relocation) :
    (elfPerformRelocations base memory relocations).entries.length ≤ relocations.length := by
  induction relocations generalizing memory with
  | nil => exact Nat.le_refl _
  | cons relocation rest ih =>
    have hone := elfPerformRelocation_length_le base memory relocation
    unfold elfPerformRelocations
    dsimp only
    rw [length_cons]
    split
    · have hlater := ih (elfPerformRelocation base memory relocation).memory
      rw [length_append]
      omega
    · omega

/-- The relocations of a section, which a signed number counts. -/
structure RelSection where
  relocations : List Relocation
  counted : relocations.length < 0x80000000

/-- A page that is read from the file again holds what it held after the first
load. -/
def Reloads (drivers : Nat → Option (List Rel)) (base virtual : Nat)
    (ready : Bool) (current loaded : ByteMemory) : Prop :=
  ∃ memory, relocatePage drivers base virtual ready current = .ok memory ∧
    ∀ at_, at_ / pageSize = virtual / pageSize → memory at_ = loaded at_

/-- The page has an entry, the page after it is ready if it is needed, and the
entries that are written again leave every byte of the page as all of them did
in the order of the file. -/
structure Reapplies (entries table : List Rel) (virtual : Nat) (ready : Bool)
    (file : ByteMemory) : Prop where
  present : ∃ entry ∈ table, entry.onPage virtual = true
  locked : ready = true ∨ ∀ entry ∈ reapplied table virtual, entry.locksNext virtual = false
  same : ∀ at_, at_ / pageSize = virtual / pageSize → (lastByte (reapplied table virtual) at_).getD
    (file at_) = (lastByte entries at_).getD (file at_)

/-- A reload of a page is right exactly when the entries that it finds are there
and amount to all that the first load wrote to the page. -/
theorem relocatePage_reloads_iff (relSection : RelSection) {base virtual : Nat}
    {file loaded current : ByteMemory} {entries table : List Rel}
    {drivers : Nat → Option (List Rel)} {ready : Bool}
    (hload : elfPerformRelocations base file relSection.relocations = ⟨loaded, entries, .success⟩)
    (hsort : sortRelocationTable entries = some table) (hdriver : drivers base = some table)
    (hpage : ∀ at_, at_ / pageSize = virtual / pageSize → current at_ = file at_) :
    Reloads drivers base virtual ready current loaded ↔
    Reapplies entries table virtual ready file := by
  have hsorted := sortRelocationTable_sorted hsort
  have hsize : table.length < Libc.sizeTop := by
    have hcounted := relSection.counted
    have hentries := elfPerformRelocations_length_le base file relSection.relocations
    rw [hload] at hentries
    dsimp only at hentries
    rw [sortRelocationTable_length hsort]
    unfold Libc.sizeTop
    omega
  have hloaded : loaded = writes file entries := by
    have hwrites := elfPerformRelocations_writes base file relSection.relocations
    rw [hload] at hwrites
    exact hwrites
  have hrelocate : ∀ memory, relocatePage drivers base virtual ready memory =
        applyRelocationsToPage table virtual ready memory := by
    intro memory
    unfold relocatePage
    rw [hdriver]
  by_cases hpresent : ∃ entry ∈ table, entry.onPage virtual = true
  · have hresult := fun memory =>
      (hrelocate memory).trans (applyRelocationsToPage_eq hsorted hsize hpresent ready memory)
    by_cases hblocked : (reapplied table virtual).any (locksNext virtual) ∧ ready = false
    · refine iff_of_false ?_ fun h => ?_
      · rintro ⟨memory, hmemory, -⟩
        rw [hresult, if_pos hblocked] at hmemory
        cases hmemory
      · obtain ⟨entry, hmem, hlocks⟩ := any_eq_true.mp hblocked.1
        rcases h.locked with hready | hnone
        · rw [hblocked.2] at hready
          cases hready
        · rw [hnone entry hmem] at hlocks
          cases hlocks
    · have hlocked : ready = true ∨ ∀ entry ∈ reapplied table virtual,
          entry.locksNext virtual = false := by
        cases ready with
        | true => exact .inl rfl
        | false =>
          refine .inr fun entry hmem => Bool.eq_false_iff.mpr fun hlocks => ?_
          exact hblocked ⟨any_eq_true.mpr ⟨entry, hmem, hlocks⟩, rfl⟩
      have hbytes : ∀ at_, at_ / pageSize = virtual / pageSize →
          (writes current (reapplied table virtual) at_ = loaded at_ ↔
            (lastByte (reapplied table virtual) at_).getD (file at_) =
              (lastByte entries at_).getD (file at_)) := by
        intro at_ hat
        rw [hloaded, writes_apply, writes_apply, hpage at_ hat]
      constructor
      · rintro ⟨memory, hmemory, hsame⟩
        rw [hresult, if_neg hblocked] at hmemory
        cases hmemory
        exact ⟨hpresent, hlocked, fun at_ hat => (hbytes at_ hat).mp (hsame at_ hat)⟩
      · intro h
        refine ⟨writes current (reapplied table virtual), ?_, fun at_ hat =>
          (hbytes at_ hat).mpr (h.same at_ hat)⟩
        rw [hresult, if_neg hblocked]
  · refine iff_of_false ?_ fun h => hpresent h.present
    rintro ⟨memory, hmemory, -⟩
    rw [hrelocate] at hmemory
    exact applyRelocationsToPage_ne_ok hsorted hsize hpresent ready _ _ hmemory

/-- One relocation in the first page of a driver, with a word of zero. -/
def oneRelocation : RelSection where
  relocations := [⟨0x10, .relative, .value 0⟩]
  counted := by decide

/-- The entry that it leaves when the driver is at `0xC0000000`. -/
def oneEntry : Rel := ⟨0xC0000010, 0xC0000000⟩

lemma oneRelocation_performed :
    elfPerformRelocations 0xC0000000 (fun _ => 0) oneRelocation.relocations =
      ⟨writes (fun _ => 0) [oneEntry], [oneEntry], .success⟩ :=
  rfl

lemma oneEntry_sorted : sortRelocationTable [oneEntry] = some [oneEntry] := by
  simp [sortRelocationTable, Libc.qsort]

/-- The page of the relocation is reloaded as it was. -/
theorem oneRelocation_reloads :
    Reloads (fun _ => some [oneEntry]) 0xC0000000 0xC0000000 false (fun _ => 0)
      (writes (fun _ => 0) [oneEntry]) := by
  refine (relocatePage_reloads_iff oneRelocation oneRelocation_performed
    oneEntry_sorted rfl fun _ _ => rfl).mpr ⟨?_, ?_, ?_⟩
  · exact ⟨oneEntry, mem_singleton.mpr rfl, by decide⟩
  · exact .inr (by decide)
  · intro at_ _
    rw [show reapplied [oneEntry] 0xC0000000 = [oneEntry] by decide]

/-- The next page has no relocation, and reloading it panics. -/
theorem oneRelocation_panics :
    elfPerformRelocations 0xC0000000 (fun _ => 0) oneRelocation.relocations =
      ⟨writes (fun _ => 0) [oneEntry], [oneEntry], .success⟩ ∧
    sortRelocationTable [oneEntry] = some [oneEntry] ∧
    relocatePage (fun _ => some [oneEntry]) 0xC0000000 0xC0001000 true
      (fun _ => 0) = .error .assertion ∧
    ¬ Reloads (fun _ => some [oneEntry]) 0xC0000000 0xC0001000 true
      (fun _ => 0) (writes (fun _ => 0) [oneEntry]) := by
  have hpanics : ∀ memory, relocatePage (fun _ => some [oneEntry]) 0xC0000000
      0xC0001000 true memory = .error .assertion := fun _ => rfl
  refine ⟨oneRelocation_performed, oneEntry_sorted, hpanics _, ?_⟩
  rintro ⟨memory, hmemory, -⟩
  cases hmemory

end Merlon.Drivers
