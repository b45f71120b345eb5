/-
The choice of `EvictVirt`.  The search takes an entry of least rank among those
that are unlocked, in memory and own their page.  It does not ask whether the
page is shared after a fork, which `EvictPage` asserts it is not.
-/
import Merlon.Virtual.Runs

namespace Merlon.Virtual

open Adt (TreeNode)

def prevSwapLimit : Nat := 32

/-- What only the choice reads: two fields of the entries and the usage bits of
their pages, by entry, the counter `rand` and the entries evicted so far, the
last one first. -/
structure Eviction where
  timesSwapped : Nat → Nat
  evictFirst : Nat → Bool
  accessed : Nat → Bool
  dirty : Nat → Bool
  rand : UInt8
  evicted : List Nat

namespace Eviction

variable (v : Eviction)

def prevSwap (id : Nat) : Bool :=
  decide (id ∈ v.evicted.take prevSwapLimit)

def getPageEvictionRank (id : Nat) (e : VasEntry) : Nat :=
  let penalty := (if e.global then 3 else 0) + v.timesSwapped id * 8
  if v.evictFirst id then v.timesSwapped id
  else if e.relocatable then 150
  else if e.cow then 90 + penalty
  else if e.file && !e.write then (if v.accessed id then 30 else 10) + penalty
  else if e.file && e.write then
    (if v.dirty id then 70 else if v.accessed id then 40 else 20) + penalty
  else if !v.dirty id then (if v.accessed id then 60 else 50) + penalty
  else 80 + penalty

end Eviction

structure Search where
  lowestRank : Nat
  lowestRanked : Option Nat
  rand : UInt8

/-- An entry that the search may take. -/
structure Candidate (v : Eviction) (entries : Nat → Option VasEntry) (id : Nat)
    (e : VasEntry) : Prop where
  entry : entries id = some e
  evictable : e.evictable = true
  new : v.prevSwap id = false

/-- What a part of the search over the given entries did. -/
structure Searched (v : Eviction) (entries : Nat → Option VasEntry)
    (Member : Nat → Prop) (found result : Search) : Prop where
  le : result.lowestRank ≤ found.lowestRank
  taken : (result.lowestRanked = found.lowestRanked ∧ result.lowestRank = found.lowestRank) ∨
    ∃ id e, Member id ∧ Candidate v entries id e ∧ result.lowestRanked = some id ∧
    result.lowestRank = v.getPageEvictionRank id e
  least : result.lowestRank < 10 ∨ ∀ id e, Member id →
    Candidate v entries id e → result.lowestRank ≤ v.getPageEvictionRank id e

namespace Searched

variable {v : Eviction} {entries : Nat → Option VasEntry}
  {Member Member' : Nat → Prop} {found result : Search}

lemma stop (hlow : found.lowestRank < 10) : Searched v entries Member found found :=
  ⟨Nat.le_refl _, .inl ⟨rfl, rfl⟩, .inl hlow⟩

lemma trans {middle : Search} (h : Searched v entries Member found middle)
    (h' : Searched v entries Member' middle result) :
    Searched v entries (fun id => Member id ∨ Member' id) found result where
  le := h'.le.trans h.le
  taken := by
    rcases h'.taken with ⟨hsame, hrank⟩ | ⟨id, e, hmember, htaken⟩
    · rw [hsame, hrank]
      refine h.taken.imp_right ?_
      rintro ⟨id, e, hmember, htaken⟩
      exact ⟨id, e, .inl hmember, htaken⟩
    · exact .inr ⟨id, e, .inr hmember, htaken⟩
  least := by
    rcases h.least with hlow | hleast
    · exact .inl (h'.le.trans_lt hlow)
    · refine h'.least.imp_right fun hleast' id e hmember hcandidate => ?_
      rcases hmember with hmember | hmember
      · exact h'.le.trans (hleast id e hmember hcandidate)
      · exact hleast' id e hmember hcandidate

lemma congr (h : Searched v entries Member found result)
    (hmember : ∀ id, Member' id ↔ Member id) : Searched v entries Member' found result := by
  rwa [funext fun id => propext (hmember id)]

end Searched

end Merlon.Virtual
