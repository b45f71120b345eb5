/-
`WipeUsermodePages` and the tree it walks.  `DereferenceEntry` frees an entry
that nobody else refers to, and the walk then reads it to choose the subtrees:
a call that has something to wipe does not return.
-/
import Merlon.Virtual.Runs
import Merlon.Virtual.Store

namespace Merlon.Virtual

open Adt (TreeNode)
open Std.Do

set_option mvcgen.warning false

/-- The entry starts in the part of the address space that is wiped. -/
def VasEntry.inUserImage (e : VasEntry) : Bool :=
  decide (archUserStackLimit ≤ e.virtual) && decide (e.virtual < archProgLoaderBase)

/-- The tree is the one before the call: an entry that stays leaves it as it
is, and the walk is over at an entry that was freed. -/
def wipeUsermodePagesRecursive (vas : Nat) : TreeNode Nat → Kernel Unit
  | .nil => pure ()
  | .node left id right => do
      let e ← readEntry id
      (if e.inUserImage then dereferenceEntry vas id else pure ())
      let e ← readEntry id
      (if archUserStackLimit ≤ e.virtual then
        wipeUsermodePagesRecursive vas left else pure ())
      (if e.virtual < archProgLoaderBase then
        wipeUsermodePagesRecursive vas right else pure ())

variable {s s' : Vm} {vas id : Nat} {e : VasEntry} {u : Unit} {tree : TreeNode Nat}

lemma freeEntry_frees : ⦃now s⦄ freeEntry id ⦃⇓? _ t => ⌜t.entries id = none⌝⦄ :=
  triple_of_ok (R := fun _ _ t => t.entries id = none) (fun hact =>
    freeEntry_eq_ok.mp hact ▸ Function.update_self ..) s

lemma destroyEntry_frees : ⦃now s⦄ destroyEntry vas id ⦃⇓? _ t => ⌜t.entries id = none⌝⦄ := by
  mvcgen [destroyEntry, deleteFromAvl, freeEntry_frees, - freeEntry_spec, - destroyEntry_spec]

lemma dereferenceEntry_frees (vas : Nat) (hentry : s.entries id = some e)
    (hunshared : e.refCount = 1) :
    ⦃now s⦄ dereferenceEntry vas id ⦃⇓? _ t => ⌜t.entries id = none⌝⦄ := by
  mvcgen [dereferenceEntry, destroyEntry_frees, - dereferenceEntry_spec, - destroyEntry_spec]
  all_goals grind

/-- A walk over entries that nobody else refers to changes nothing if it
returns. -/
lemma wipeUsermodePagesRecursive_state
    (hunshared : ∀ id ∈ tree.toList, ∃ e, s.entries id = some e ∧ e.refCount = 1) :
    ⦃now s⦄ wipeUsermodePagesRecursive vas tree ⦃⇓? _ t => ⌜t = s⌝⦄ := by
  induction tree with
  | nil => mvcgen [wipeUsermodePagesRecursive]
  | node left id right ihleft ihright =>
    simp only [TreeNode.toList, List.mem_append, List.mem_cons] at hunshared
    obtain ⟨e, hentry, hcount⟩ := hunshared id (.inr (.inl rfl))
    have hfrees := dereferenceEntry_frees vas hentry hcount
    mvcgen [wipeUsermodePagesRecursive, ihleft, ihright, hfrees, - dereferenceEntry_spec]
    all_goals grind

lemma wipeUsermodePagesRecursive_nothing
    (hnone : ∀ id ∈ tree.toList, ∃ e, s.entries id = some e ∧ e.inUserImage = false) :
    wipeUsermodePagesRecursive vas tree s = .ok ((), s) := by
  induction tree with
  | nil => rfl
  | node left id right ihleft ihright =>
    simp only [TreeNode.toList, List.mem_append, List.mem_cons] at hnone
    obtain ⟨e, hentry, houtside⟩ := hnone id (.inr (.inl rfl))
    have hread : readEntry id s = .ok (e, s) := readEntry_eq_ok.mpr ⟨hentry, rfl⟩
    have hleft := ihleft fun id hmem => hnone id (.inl hmem)
    have hright := ihright fun id hmem => hnone id (.inr (.inr hmem))
    unfold wipeUsermodePagesRecursive
    rw [state_bind_ok hread, if_neg (by rw [houtside]; exact Bool.false_ne_true)]
    have hleft' : (if archUserStackLimit ≤ e.virtual then
        wipeUsermodePagesRecursive vas left else pure ()) s =
        .ok ((), s) := by
      split
      · exact hleft
      · rfl
    rw [state_bind_ok rfl, state_bind_ok hread, state_bind_ok hleft']
    split
    · exact hright
    · rfl

/-- What `exec` needs of the call. -/
structure Wiped (s : Vm) (vas : Nat) (s' : Vm) : Prop where
  gone : ∀ id ∈ (s'.mappings vas).toList, ∀ e, s'.entries id = some e → e.inUserImage = false
  kept : ∀ id ∈ (s.mappings vas).toList, ∀ e, s.entries id = some e → e.inUserImage = false →
    id ∈ (s'.mappings vas).toList ∧ s'.entries id = some e

/-- For entries that nobody else refers to, the call does its work when there
is none to do, and never otherwise. -/
theorem wipeUsermodePages_wiped_iff
    (hunshared : ∀ id ∈ (s.mappings vas).toList, ∃ e, s.entries id = some e ∧ e.refCount = 1) :
    (∃ s', wipeUsermodePagesRecursive vas (s.mappings vas) s = .ok ((), s') ∧ Wiped s vas s') ↔
    ∀ id ∈ (s.mappings vas).toList, ∀ e, s.entries id = some e → e.inUserImage = false := by
  constructor
  · rintro ⟨s', h, hwiped⟩
    cases triple_iff.mp (wipeUsermodePagesRecursive_state hunshared) s () s' rfl h
    exact hwiped.gone
  · intro hnone
    refine ⟨s, wipeUsermodePagesRecursive_nothing fun id hmem => ?_, hnone,
      fun id hmem e hentry _ => ⟨hmem, hentry⟩⟩
    obtain ⟨e, hentry, _⟩ := hunshared id hmem
    exact ⟨e, hentry, hnone id hmem e hentry⟩

/-- An address space with one page that was never touched. -/
def onePage (virtual : Nat) : Vm :=
  oneEntry { virtual, refCount := 1 }

lemma onePage_entry {virtual : Nat} (hmem : id ∈ ((onePage virtual).mappings 0).toList) :
    (onePage virtual).entries id = some { virtual, refCount := 1 } := by
  cases List.mem_singleton.mp hmem
  rfl

/-- The program loader's page stays. -/
theorem wipeUsermodePages_wiped_iff_loader : ∃ s',
    wipeUsermodePagesRecursive 0 ((onePage archProgLoaderBase).mappings 0)
      (onePage archProgLoaderBase) = .ok ((), s') ∧ Wiped (onePage archProgLoaderBase) 0 s' := by
  refine (wipeUsermodePages_wiped_iff fun id hmem =>
    ⟨_, onePage_entry hmem, rfl⟩).mpr fun id hmem e hentry => ?_
  cases (onePage_entry hmem).symm.trans hentry
  decide

/-- A page of the program is freed and then read. -/
theorem onePage_not_wiped :
    (∀ id ∈ ((onePage 0x20000000).mappings 0).toList, ∃ e,
      (onePage 0x20000000).entries id = some e ∧ e.refCount = 1) ∧
    wipeUsermodePagesRecursive 0 ((onePage 0x20000000).mappings 0)
      (onePage 0x20000000) = .error .useAfterFree :=
  ⟨fun _ hmem => ⟨_, onePage_entry hmem, rfl⟩, rfl⟩

end Merlon.Virtual
