/-
The flags of the entries in every run.  `HandleVirtFault` asserts that they are
consistent; every call keeps them so but two: locking a page that is in memory
and still shared after a fork, and the end of a load that has to relocate such
a page.
-/
import Merlon.Virtual.Runs
import Merlon.Virtual.Store

namespace Merlon.Virtual

open VasEntry

open Adt (TreeNode)
open Std.Do

set_option mvcgen.warning false

/-- Every entry has consistent flags. -/
def Configured (_ : Nat) (e : VasEntry) : Prop :=
  e.flagsConfigured = true

/-- The same, and one entry has `Q` as well. -/
def ConfiguredWith (id : Nat) (Q : VasEntry → Prop) (id' : Nat) (e : VasEntry) : Prop :=
  e.flagsConfigured = true ∧ (id' = id → Q e)

/-- The property stays when the entry gets a page of its own. -/
def Uncow (id : Nat) (P : Nat → VasEntry → Prop) : Prop :=
  ∀ e e' : VasEntry, P id e → e'.flags = (e.inRam, e.file, e.swapfile, false, e.lock) → P id e'

/-- The property stays when the entry gets a blank page, which a shared one
does only if pages are not to be copied. -/
def Blank (id : Nat) (allowCow : Bool) (P : Nat → VasEntry → Prop) : Prop :=
  ∀ e e' : VasEntry, P id e → (allowCow = true → e.cow = false) →
    e.swapfile = false → e'.flags = (true, e.file, false, e.cow, e.lock) → P id e'

/-- The property stays when the page is brought into memory. -/
structure Settles (id : Nat) (allowCow : Bool) (P : Nat → VasEntry → Prop) : Prop where
  uncow : Uncow id P
  blank : Blank id allowCow P

variable {P : Nat → VasEntry → Prop} {C : (Nat → VasEntry → Prop) → Prop} {Q : VasEntry → Prop}
  {bound vas virtual id : Nat} {allowCow : Bool} {e e' : VasEntry} {s s' : Vm} {deallocate : Bool}
  {file offset address : Nat} {faultType : VmFlags} {faultingVirt : Nat} {newVas : Nat}

lemma configured_stable : Stable Configured 0 where
  flags he hflags := (flagsConfigured_of_flags hflags).trans he
  fresh _ he := he
  configured he := he

@[grind →] lemma Store.stable (_ : Store Configured 0 s) : Stable Configured 0 :=
  configured_stable

lemma configuredWith_stable (hQ : ∀ {e e'}, Q e → e'.flags = e.flags → Q e') :
    Stable (ConfiguredWith id Q) (id + 1) where
  flags he hflags := ⟨(flagsConfigured_of_flags hflags).trans he.1, fun hid => hQ (he.2 hid) hflags⟩
  fresh hid he := ⟨he, fun heq => by omega⟩
  configured he := he.1

lemma Store.configuredWith (hstable : Stable P bound) (h : Store P bound s)
    (hentry : s.entries id = some e) (he : Q e) : Store (ConfiguredWith id Q) (id + 1) s := by
  refine ⟨(h.holds id e hentry).1, fun id' e' hentry' => ?_⟩
  obtain ⟨hlt, he'⟩ := h.holds id' e' hentry'
  refine ⟨hlt, hstable.configured he', ?_⟩
  rintro rfl
  rw [hentry] at hentry'
  cases hentry'
  exact he

/-- An entry that is still there has the flags it had. -/
lemma Moves.flags (h : Moves s s') (hstable : Stable P bound) (hstore : Store P bound s)
    (hentry : s.entries id = some e) (hentry' : s'.entries id = some e') : e'.flags = e.flags := by
  have hwith := hstore.configuredWith (Q := (·.flags = e.flags)) hstable hentry rfl
  have hstore' := h.store (configuredWith_stable fun he hflags => hflags.trans he) hwith
  exact (hstore'.holds id e' hentry').2.2 rfl

/-! Bringing a page into memory. -/

lemma flags_eq_iff {inRam file swapfile cow lock : Bool} :
    e.flags = (inRam, file, swapfile, cow, lock) ↔ e.inRam = inRam ∧ e.file = file ∧
    e.swapfile = swapfile ∧ e.cow = cow ∧ e.lock = lock := by
  simp only [flags, Prod.mk.injEq]

lemma Store.uncow (hstable : Stable P bound) (huncow : Uncow id P)
    (h : Store P bound s) (hentry : s.entries id = some e)
    (hflags : e'.flags = e.flags ∨ e'.flags = (e.inRam, e.file, e.swapfile, false, e.lock)) :
    Store P bound (s.setEntry id e') := by
  obtain ⟨hid, he⟩ := h.holds id e hentry
  exact h.setEntry hid (hflags.elim (hstable.flags he) (huncow _ _ he))

lemma Store.blank (hsettles : Settles id allowCow P)
    (h : Store P bound s) (hentry : s.entries id = some e)
    (hcow : allowCow = true → e.cow = false) (hswap : e.swapfile = false)
    (hflags : e'.flags = (true, e.file, false, e.cow, e.lock)) : Store P bound (s.setEntry id e') :=
  h.setEntry (h.holds id e hentry).1 (hsettles.blank _ _ (h.holds id e hentry).2 hcow hswap hflags)

@[grind →] lemma Keeps.store (h : Keeps C s s') (hstable : Stable P bound)
    (hC : C P) (hstore : Store P bound s) : Store P bound s' :=
  h P bound hstable hC hstore

@[spec] lemma bringIntoMemoryFromCow_spec : ⦃now s⦄
    bringIntoMemoryFromCow vas id ⦃⇓? _ t => ⌜Keeps (Uncow id) s t⌝⦄ := by
  refine keeps_of (fun hstable huncow => ?_) s
  mvcgen [bringIntoMemoryFromCow, deleteFromAvl]
  all_goals grind [flags, flagsConfigured, leaveCow, Store.uncow]

@[spec] lemma deferDiskRead_spec {newAddr : Nat} : ⦃now s⦄
    deferDiskRead vas newAddr file offset deallocate ⦃stays s⦄ := by
  refine stays_of (fun {_ _} => ?_) s
  mvcgen [deferDiskRead]
  all_goals grind

@[spec] lemma bringIntoMemoryFromFile_spec : ⦃now s⦄
    bringIntoMemoryFromFile vas id faultingVirt ⦃moves s⦄ := by
  refine moves_of (fun hstable => ?_) s
  mvcgen [bringIntoMemoryFromFile]
  all_goals grind [flags, Store.setFlags]

@[spec] lemma bringIntoMemoryFromSwapfile_spec :
    ⦃now s⦄ bringIntoMemoryFromSwapfile vas id ⦃moves s⦄ := by
  refine moves_of (fun hstable => ?_) s
  mvcgen [bringIntoMemoryFromSwapfile]
  all_goals grind [flags, Store.setFlags]

@[spec] lemma bringIntoMemory_spec : ⦃now s⦄ bringIntoMemory vas id allowCow faultingVirt faultType
    ⦃⇓? _ t => ⌜Keeps (Settles id allowCow) s t⌝⦄ := by
  refine keeps_of (fun hstable hsettles => ?_) s
  have huncow : Uncow id _ := hsettles.uncow
  mvcgen [bringIntoMemory, bringInBlankPage]
  all_goals grind [flags, Store.setFlags, Store.blank, Moves.flags]

/-! The calls. -/

lemma flagsConfigured_uncow (he : e.flagsConfigured = true)
    (h : e'.flags = (e.inRam, e.file, e.swapfile, false, e.lock)) : e'.flagsConfigured = true := by
  obtain ⟨hram, hfile, hswap, hcow, hlock⟩ := flags_eq_iff.mp h
  simp only [flagsConfigured, hram, hfile, hswap, hcow, hlock]
  simp only [flagsConfigured, Bool.and_eq_true] at he ⊢
  simp [he.1]

lemma flagsConfigured_blank (he : e.flagsConfigured = true)
    (h : e'.flags = (true, e.file, false, e.cow, e.lock)) : e'.flagsConfigured = true := by
  obtain ⟨hram, hfile, hswap, hcow, hlock⟩ := flags_eq_iff.mp h
  simp only [flagsConfigured, hram, hswap, hcow, hlock]
  simp only [flagsConfigured, Bool.and_eq_true] at he ⊢
  simp [he.2]

lemma configured_settles : Settles id allowCow Configured where
  uncow _ _ := flagsConfigured_uncow
  blank _ _ he _ _ := flagsConfigured_blank he

/-- Every entry has consistent flags. -/
abbrev consistent : Assertion (.arg Vm (.except Stop .pure)) :=
  fun s => ⌜Store Configured 0 s⌝

@[spec] lemma handleVirtFault_spec : ⦃consistent⦄
    handleVirtFault vas virtual faultType ⦃⇓? _ => consistent⦄ := by
  mvcgen [handleVirtFault]
  all_goals grind [configured_settles]

@[spec] lemma unlockVirtEx_spec : ⦃consistent⦄ unlockVirtEx vas virtual ⦃⇓? _ => consistent⦄ := by
  mvcgen [unlockVirtEx]
  all_goals grind [Configured, flagsConfigured]

@[spec] lemma wipeUsermodePages_spec {visited : List Nat} :
    ⦃consistent⦄ wipeUsermodePages vas visited ⦃⇓? _ => consistent⦄ := by
  unfold wipeUsermodePages
  induction visited with
  | nil => mvcgen [List.forM]
  | cons id visited ih =>
    mvcgen [List.forM, ih]
    all_goals grind

lemma still_writeDisk (s : Vm) (file offset : Nat) (contents : Page) :
    Still s (s.writeDisk file offset contents) :=
  ⟨rfl, rfl⟩

lemma still_addVas (s : Vm) : Still s s.addVas := ⟨rfl, rfl⟩

grind_pattern still_writeDisk => s.writeDisk file offset contents
grind_pattern still_addVas => s.addVas

@[spec] lemma performWrite_spec : ⦃consistent⦄
    performWrite vas file offset address ⦃⇓? _ => consistent⦄ := by
  mvcgen [performWrite]
  grind

@[spec] lemma performRead_spec {entry : Option Nat} : ⦃consistent⦄
    performRead vas file offset address entry deallocate ⦃⇓? _ => consistent⦄ := by
  mvcgen [performRead]
  all_goals grind

@[spec] lemma createVas_spec : ⦃consistent⦄ createVas vas ⦃⇓? _ => consistent⦄ := by
  mvcgen [createVas]
  grind

@[spec] lemma copyEntry_spec : ⦃consistent⦄ copyEntry vas newVas id ⦃⇓? _ => consistent⦄ := by
  mvcgen [copyEntry]
  all_goals grind [Configured, flagsConfigured, share]

@[spec] lemma copyVasRecursive_spec {tree : TreeNode Nat} :
    ⦃consistent⦄ copyVasRecursive vas newVas tree ⦃⇓? _ => consistent⦄ := by
  induction tree with
  | nil => mvcgen [copyVasRecursive]
  | node left id right ihleft ihright => mvcgen [copyVasRecursive, ihleft, ihright]

@[spec] lemma allocSwap_spec : ⦃now s⦄ allocSwap ⦃stays s⦄ := by
  refine stays_of_ok (fun hact => ?_) s
  unfold allocSwap at hact
  split at hact
  · cases hact
    exact ⟨rfl, rfl⟩
  · cases hact

@[spec] lemma evictPage_spec : ⦃consistent⦄ evictPage vas id ⦃⇓? _ => consistent⦄ := by
  mvcgen [evictPage]
  all_goals grind [Configured, flagsConfigured, flags, Moves.flags, Store.setFlags]

/-! Locking a page. -/

/-- A page that is in memory is not shared. -/
def Resident (e : VasEntry) : Prop :=
  e.inRam = true → e.cow = false

lemma resident_stable : Stable (ConfiguredWith id Resident) (id + 1) := by
  refine configuredWith_stable fun {e e'} he hflags hram => ?_
  obtain ⟨hram', -, -, hcow, -⟩ := flags_eq_iff.mp hflags
  exact hcow.trans (he (hram'.symm.trans hram))

/-- A shared page gets its copy first, so that what is in memory afterwards
is not shared. -/
lemma resident_settles : Settles id true (ConfiguredWith id Resident) where
  uncow _ _ he hflags := ⟨flagsConfigured_uncow he.1 hflags, fun _ _ =>
    (flags_eq_iff.mp hflags).2.2.2.1⟩
  blank _ _ he hcow _ hflags := ⟨flagsConfigured_blank he.1 hflags, fun _ _ =>
    (flags_eq_iff.mp hflags).2.2.2.1.trans (hcow rfl)⟩

/-- The page can be locked: it is not one that is in memory and shared. -/
def Vm.lockable (s : Vm) (vas virtual : Nat) : Bool :=
  (s.found vas virtual).all fun e => !(e.inRam && e.cow)

lemma Store.resident (h : Store Configured 0 s) (hlockable : s.lockable vas virtual = true)
    (hfound : some id = s.getVirtEntry vas virtual) (hentry : s.entries id = some e) :
    Store (ConfiguredWith id Resident) (id + 1) s := by
  refine h.configuredWith configured_stable hentry fun hram => ?_
  simp only [Vm.lockable, Vm.found, ← hfound, Option.bind_some, hentry] at hlockable
  simpa [hram] using hlockable

/-- The last step of `LockVirtEx`. -/
lemma Store.lock (h : Store (ConfiguredWith id Resident) (id + 1) s)
    (hentry : s.entries id = some e) (hram : e.inRam = true) :
    Store Configured 0 (s.setEntry id { e with lock := true }) := by
  obtain ⟨hlt, hconfigured, hresident⟩ := h.holds id e hentry
  have hcow := hresident rfl hram
  have hstore : Store Configured 0 s := ⟨Nat.zero_le _, fun id e hentry =>
    ⟨(h.holds id e hentry).1, (h.holds id e hentry).2.1⟩⟩
  refine hstore.setEntry hlt ?_
  simp only [Configured, VasEntry.flagsConfigured, Bool.and_eq_true, hram, hcow] at hconfigured ⊢
  simpa using hconfigured.1.1

@[spec] lemma lockVirtEx_spec : ⦃fun s =>
    ⌜s.lockable vas virtual = true ∧ Store Configured 0 s⌝⦄
    lockVirtEx vas virtual ⦃⇓? _ => consistent⦄ := by
  mvcgen [lockVirtEx]
  all_goals grind [Store.resident, Store.lock, resident_stable, resident_settles]

/-! The end of a load. -/

/-- The load can end: it does not have to relocate a shared page. -/
def Vm.loadable (s : Vm) (vas address : Nat) : Bool :=
  (s.found vas address).all fun e => !(e.relocatable && !e.firstLoad && e.cow)

/-- The entries other than one have consistent flags.  While its page is being
loaded, an entry may be both shared and locked. -/
structure Loading (id : Nat) (s : Vm) : Prop where
  taken : id < s.nextEntry
  others : ∀ id' e, id' ≠ id → s.entries id' = some e → id' < s.nextEntry ∧ e.flagsConfigured = true

lemma Store.loading (h : Store Configured 0 s) (hentry : s.entries id = some e) : Loading id s :=
  ⟨(h.holds id e hentry).1, fun id' e' _ => h.holds id' e'⟩

@[grind →] lemma Still.loading (h : Still s s') (hloading : Loading id s) : Loading id s' :=
  ⟨h.next ▸ hloading.taken, fun id' e hne hentry =>
    h.next ▸ hloading.others id' e hne (h.entries ▸ hentry)⟩

lemma Loading.setEntry (h : Loading id s) (e : VasEntry) : Loading id (s.setEntry id e) := by
  refine ⟨h.taken, fun id' e' hne hentry => h.others id' e' hne ?_⟩
  simpa [Vm.setEntry, Function.update_of_ne hne] using hentry

grind_pattern Loading.setEntry => Loading id s, s.setEntry id e

/-- The write that makes the flags of the entry consistent. -/
lemma Loading.store (h : Loading id s) (he : e.flagsConfigured = true) :
    Store Configured 0 (s.setEntry id e) := by
  refine ⟨Nat.zero_le _, fun id' e' hentry => ?_⟩
  by_cases hid : id' = id
  · subst hid
    simp only [setEntry_self, Option.some.injEq] at hentry
    exact ⟨h.taken, hentry ▸ he⟩
  · exact (h.setEntry e).others id' e' hid hentry

lemma Vm.loadable_cow (hloadable : s.loadable vas virtual = true)
    (hfound : some id = s.getVirtEntry vas virtual) (hentry : s.entries id = some e)
    (hneeds : (e.relocatable && !e.firstLoad) = true) : e.cow = false := by
  simp only [Vm.loadable, Vm.found, ← hfound, Option.bind_some, hentry,
    Option.all_some] at hloadable
  simpa [hneeds] using hloadable

@[spec] lemma finishRead_spec {target : Nat} : ⦃fun s =>
    ⌜s.loadable vas address = true ∧ Store Configured 0 s⌝⦄
    finishRead vas offset address deallocate target
    ⦃⇓? _ => consistent⦄ := by
  mvcgen [finishRead]
  all_goals grind [→ Store.loading, Loading.store, Vm.loadable_cow,
    loadedAt, flagsConfigured, flags, Store.setFlags]

/-! Runs. -/

/-- The address at which a deferred access ends a load. -/
def Access.loadedAddress : Access → Option Nat
  | .loaded _ _ address _ _ _ => some address
  | _ => none

@[spec] lemma performDeferredAccess_spec {index : Nat} : ⦃fun s =>
    ⌜(s.deferred[index]?.bind Access.loadedAddress).all (s.loadable vas) =
      true ∧ Store Configured 0 s⌝⦄
    performDeferredAccess vas index ⦃⇓? _ => consistent⦄ := by
  mvcgen [performDeferredAccess]
  case vc1.h_1 hs _ => exact hs.2
  case vc2.h_2.h_1 hs _ _ _ _ _ _ => exact ⟨hs.2.next, hs.2.holds⟩
  case vc3.h_2.h_2 hs _ _ _ _ _ _ _ _ => exact ⟨hs.2.next, hs.2.holds⟩
  case vc4.h_2.h_3 s hs _ haccess _ _ address _ _ _ hloaded =>
    have hloadable : s.loadable vas address = true := by
      simpa [haccess, hloaded, Access.loadedAddress] using hs.1
    exact ⟨hloadable, hs.2.next, hs.2.holds⟩

/-- The calls that keep the flags consistent: those that do not lock a page
which is in memory and shared, or end a load by relocating such a page. -/
def Vm.keepsFlags (s : Vm) (vas : Nat) : Call → Bool
  | .lock virtual => s.lockable vas virtual
  | .deferred index => (s.deferred[index]?.bind Access.loadedAddress).all (s.loadable vas)
  | _ => true


lemma step_configured {label : Nat × Call} (hstore : Store Configured 0 s)
    (hkeeps : s.keepsFlags label.1 label.2 = true)
    (hstep : Step s label s') : Store Configured 0 s' := by
  obtain ⟨vas, call⟩ := label
  suffices htriple : ⦃fun s => ⌜s.keepsFlags vas call = true ∧
      Store Configured 0 s⌝⦄ call.run vas ⦃⇓? _ => consistent⦄ from
    triple_iff.mp htriple s () s' ⟨hkeeps, hstore⟩ hstep
  cases call <;> mvcgen [Call.run, copyVas]
  all_goals grind [Vm.keepsFlags]

/-- A call that keeps the flags consistent. -/
def FlagStep (s : Vm) (label : Nat × Call) (s' : Vm) : Prop :=
  s.keepsFlags label.1 label.2 = true ∧ Step s label s'

lemma flagStep_of_takeStep (s : Vm) (label : Nat × Call) (s' : Vm)
    (hkeeps : s.keepsFlags label.1 label.2 = true)
    (hstep : takeStep s label = .ok s') : FlagStep s label s' :=
  ⟨hkeeps, step_of_takeStep hstep⟩

/-- In every run of calls that keep the flags, the assertions about them that
`HandleVirtFault` makes hold of every entry, whether it is being loaded or
not. -/
theorem run_flagsConfigured {paging : Paging} {frames : Nat → Page}
    {bits : Nat} {files : Nat → FileNode} {disk : Nat → Nat → UInt8} {labels : List (Nat × Call)}
    (hrun : Run FlagStep (initVirt paging frames bits files disk) labels s') :
    ∀ id e, s'.entries id = some e → e.flagsConfigured = true := by
  have hstore : Store Configured 0 s' := by
    refine hrun.invariant ⟨Nat.zero_le _, fun id e hentry => ?_⟩
      fun s label next hs hstep => step_configured hs hstep.1 hstep.2
    cases hentry
  exact fun id e hentry => (hstore.holds id e hentry).2

/-- A page is written to, swapped out, swapped in again and locked. -/
def swapAndLock : List (Nat × Call) :=
  [(0, .map 0 0 1 { read := true, write := true, localVas := true } none 0),
    (0, .fault 0x20000000 { write := true }), (0, .evict 0), (0, .deferred 0),
    (0, .fault 0x20000000 { read := true }), (0, .deferred 0),
    (0, .deferred 0), (0, .lock 0x20000000)]

theorem run_flagsConfigured_swapAndLock : ∃ s', Run FlagStep smallSystem swapAndLock s' ∧
    (s'.entries 0).any (·.lock) = true ∧ ∀ id e, s'.entries id = some e →
    e.flagsConfigured = true :=
  exists_run_and flagStep_of_takeStep (fun hrun _ => run_flagsConfigured hrun) (by decide +kernel)

/-- A page that is still shared after a fork is locked. -/
def forkAndLock : List (Nat × Call) :=
  [(0, .map 0 0 1 { read := true, write := true, localVas := true } none 0),
    (0, .fault 0x20000000 { write := true }), (0, .create), (0, .copy 1),
    (0, .lock 0x20000000)]

/-- It is then both shared and locked, although it is not being loaded. -/
theorem forkAndLock_misconfigured : ∃ s', Run Step smallSystem forkAndLock s' ∧
    (s'.entries 0).any (fun e => !e.loadInProgress && e.cow && e.lock &&
      !e.flagsConfigured) = true :=
  exists_run_of_carryOut (fun s label s' (_ : (fun _ _ => true) s label = true)
      (hstep : takeStep s label = .ok s') => step_of_takeStep hstep) smallSystem forkAndLock
    (fun s' => (s'.entries 0).any fun e => !e.loadInProgress && e.cow &&
      e.lock && !e.flagsConfigured) (by decide +kernel)

end Merlon.Virtual
