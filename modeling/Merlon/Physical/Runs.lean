/-
Runs of the physical page allocator: allocations and deallocations in any
order, with the switch from the bitmap to the stack at any point.  The pages
handed out and the free pages together are the usable pages, and no call
fails except `AllocPhys` when no page is free.
-/
import Merlon.Physical.Pages
import Merlon.Library.Transition

namespace Merlon.Physical

open List

/-- The allocator with its history: the addresses handed out and not given
back. -/
structure Session where
  phys : State
  handedOut : List Nat

/-- `reinit` switches to the stack; mapping the stack area makes `mapped`
allocations and returns memory with arbitrary contents. -/
inductive Call where
  | alloc
  | dealloc (addr : Nat)
  | reinit (mapped : Nat) (garbage : Nat → Nat)

def Call.step (k : Session) : Call → Except Stop Session
  | .alloc => do
      let (addr, phys) ← allocPhys k.phys
      .ok { phys := phys, handedOut := addr :: k.handedOut }
  | .dealloc addr => do
      let phys ← deallocPhys k.phys addr
      .ok { phys := phys, handedOut := k.handedOut.erase addr }
  | .reinit mapped garbage => do
      let (taken, phys) ← reinitPhys k.phys mapped garbage
      .ok { phys := phys, handedOut := taken.reverse ++ k.handedOut }

/-- Only pages handed out are given back, and the switch is made once. -/
def Call.Allowed (k : Session) : Call → Prop
  | .alloc => True
  | .dealloc addr => addr ∈ k.handedOut
  | .reinit _ _ => k.phys.allocationStack = none

def Session.Step (k : Session) (call : Call) (k' : Session) : Prop :=
  call.Allowed k ∧ call.step k = .ok k'

/-- After `InitPhys` every usable page is free. -/
def Session.start (s : State) : Session where
  phys := s
  handedOut := []

/-- The pages handed out and the free pages divide the usable pages. -/
structure Divided (usable : Nat → Prop) (s : State) (handedOut : List Nat) : Prop where
  consistent : Consistent s
  nodup : handedOut.Nodup
  aligned : ∀ addr ∈ handedOut, ∃ page, addr = page * archPageSize
  divided : ∀ page, usable page ↔ (isBitmapEntryFree s page = true ∨
    page * archPageSize ∈ handedOut)
  apart : ∀ page, isBitmapEntryFree s page = true → page * archPageSize ∉ handedOut
  bounded : ∀ page, usable page → page < maxMemoryPages ∧ page ≤ s.highestPageIndex

lemma page_inj {page other : Nat}
    (heq : page * archPageSize = other * archPageSize) : page = other :=
  Nat.eq_of_mul_eq_mul_right (by decide) heq

lemma divided_start {ranges : List BootMemoryEntry} {s : State} (hinit : initPhys ranges = .ok s) :
    Divided (fun page => isBitmapEntryFree s page = true) s [] := by
  obtain ⟨hs, _⟩ := initPhys_consistent hinit
  exact ⟨hs, nodup_nil, by simp, by simp, by simp,
    fun page hpage => ⟨hs.bounded page hpage, hs.high page hpage⟩⟩

section Steps

variable {usable : Nat → Prop} {s : State} {handedOut : List Nat}

section

variable (hdivided : Divided usable s handedOut) {garbage : Nat → Nat}

include hdivided

lemma Divided.alloc : Ends (allocPhys s) (· = .panicOutOfPhys) (fun result =>
      Divided usable result.2 (result.1 :: handedOut) ∧
        result.2.allocationStack = s.allocationStack) := by
  have hs := hdivided.consistent
  rcases Finset.eq_empty_or_nonempty (freePages s) with hempty | hsome
  · rw [(allocPhys_panic_iff hs).mpr hempty]
    rfl
  · obtain ⟨index, s', hok, htaken⟩ := allocPhys_spec hs hsome
    rw [hok]
    refine ⟨⟨htaken.consistent, ?_, ?_, ?_, ?_, ?_⟩, htaken.stack⟩
    · exact nodup_cons.mpr ⟨hdivided.apart index htaken.free, hdivided.nodup⟩
    · intro addr haddr
      rcases mem_cons.mp haddr with rfl | haddr
      · exact ⟨index, rfl⟩
      · exact hdivided.aligned addr haddr
    · intro page
      rw [hdivided.divided page, htaken.pages]
      by_cases heq : page = index
      · subst heq
        simp [htaken.free]
      · have hne : page * archPageSize ≠ index * archPageSize := fun h => heq (page_inj h)
        simp [heq, hne]
    · intro page hpage hmem
      obtain ⟨hfree, hne⟩ := (htaken.pages page).mp hpage
      rcases mem_cons.mp hmem with heq | hmem
      · exact hne (page_inj heq)
      · exact hdivided.apart page hfree hmem
    · intro page hpage
      rw [htaken.high]
      exact hdivided.bounded page hpage

lemma Divided.dealloc {addr : Nat} (hmem : addr ∈ handedOut) :
    ∃ s', deallocPhys s addr = .ok s' ∧ Divided usable s' (handedOut.erase addr) := by
  have hs := hdivided.consistent
  obtain ⟨page, rfl⟩ := hdivided.aligned addr hmem
  have husable := (hdivided.divided page).mpr (.inr hmem)
  obtain ⟨hbound, hhigh⟩ := hdivided.bounded page husable
  have hused : isBitmapEntryFree s page = false := by
    rw [← Bool.not_eq_true]
    exact fun hfree => hdivided.apart page hfree hmem
  obtain ⟨s', hok, hgiven⟩ := deallocPhys_spec hs hused hbound hhigh
  refine ⟨s', hok, hgiven.consistent, hdivided.nodup.erase _, ?_, ?_, ?_, ?_⟩
  · intro other hother
    exact hdivided.aligned other (mem_of_mem_erase hother)
  · intro other
    rw [hdivided.divided other, hgiven.pages]
    by_cases heq : other = page
    · subst heq
      simp [hmem]
    · have hne : other * archPageSize ≠ page * archPageSize := fun h => heq (page_inj h)
      simp [heq, hne]
  · intro other hother hin
    obtain ⟨hne, hin⟩ := hdivided.nodup.mem_erase_iff.mp hin
    rcases (hgiven.pages other).mp hother with hfree | rfl
    · exact hdivided.apart other hfree hin
    · exact hne rfl
  · intro other hother
    rw [hgiven.high]
    exact hdivided.bounded other hother

lemma Divided.allocMany (count : Nat) :
    Ends (allocMany s count) (· = .panicOutOfPhys) (fun result =>
      Divided usable result.2 (result.1.reverse ++ handedOut) ∧
        result.2.allocationStack = s.allocationStack) := by
  induction count generalizing s handedOut with
  | zero => exact ⟨hdivided, rfl⟩
  | succ count ih =>
    rw [Physical.allocMany]
    refine hdivided.alloc.bind ?_
    rintro ⟨addr, s₁⟩ ⟨hfirst, hstack₁⟩
    refine (ih hfirst).bind ?_
    rintro ⟨rest, s₂⟩ ⟨hrest, hstack₂⟩
    refine ⟨?_, hstack₂.trans hstack₁⟩
    simpa using hrest

/-- The stack after the switch holds every free page once. -/
lemma Divided.switch (hnone : s.allocationStack = none) :
    ∃ s', pushFree { s with allocationStack := some garbage } maxMemoryPages 0 = .ok s' ∧
    Divided usable s' handedOut := by
  have hs := hdivided.consistent
  obtain ⟨s', stack, hloop, hrest, hlist⟩ := pushFree_spec
    (s := { s with allocationStack := some garbage }) maxMemoryPages 0 rfl hs.high
  have hsame : ∀ i, isBitmapEntryFree s' i = isBitmapEntryFree s i := by
    intro i
    rw [hrest]
    rfl
  have hhigh : s'.highestPageIndex = s.highestPageIndex := by rw [hrest]
  have hstack : s'.allocationStack = some stack := by rw [hrest]
  have hbottom : stackPages { s with allocationStack := some garbage } garbage = [] := by
    simp [stackPages, hs.idle hnone]
  rw [hbottom, nil_append, ← range_eq_range'] at hlist
  have hconsistent : Consistent s' := by
    refine ⟨?_, ?_, ?_, ?_, ?_, ?_⟩
    · intro i hi
      exact hs.bounded i ((hsame i).symm.trans hi)
    · intro i hi
      rw [hhigh]
      exact hs.high i ((hsame i).symm.trans hi)
    · have hleft : s'.pagesLeft = s.pagesLeft := by rw [hrest]
      rw [hleft, hs.count]
      simp only [freePages, hsame]
    · intro hempty
      rw [hstack] at hempty
      cases hempty
    · intro stack' hsome
      rw [hstack] at hsome
      cases hsome
      rw [hlist]
      exact nodup_range.filter _
    · intro stack' hsome i
      rw [hstack] at hsome
      cases hsome
      rw [hlist, mem_filter, mem_range, hsame]
      exact ⟨fun h => h.2, fun h => ⟨hs.bounded i h, h⟩⟩
  refine ⟨s', hloop, hconsistent, hdivided.nodup, hdivided.aligned, ?_, ?_, ?_⟩
  · intro page
    rw [hsame, hdivided.divided]
  · intro page hpage
    exact hdivided.apart page ((hsame page).symm.trans hpage)
  · intro page hpage
    rw [hhigh]
    exact hdivided.bounded page hpage

lemma Divided.reinit {mapped : Nat} (hnone : s.allocationStack = none) :
    Ends (reinitPhys s mapped garbage) (· = .panicOutOfPhys) (fun result =>
      Divided usable result.2 (result.1.reverse ++ handedOut)) := by
  rw [reinitPhys, if_pos (by rw [hnone]; rfl)]
  refine (hdivided.allocMany mapped).bind ?_
  rintro ⟨taken, s₁⟩ ⟨htaken, hstack⟩
  obtain ⟨s', hloop, hswitched⟩ := htaken.switch (hstack.trans hnone)
  dsimp only
  rw [hloop]
  exact hswitched

end

/-- An allowed call panics for want of a page or keeps the division. -/
lemma Divided.call {k : Session} {call : Call} (hdivided : Divided usable k.phys k.handedOut)
    (hallowed : call.Allowed k) : Ends (call.step k) (· = .panicOutOfPhys) (fun k' =>
      Divided usable k'.phys k'.handedOut) := by
  cases call with
  | alloc =>
    refine hdivided.alloc.bind ?_
    rintro ⟨addr, phys⟩ ⟨hnext, _⟩
    exact hnext
  | dealloc addr =>
    obtain ⟨phys, hok, hnext⟩ := hdivided.dealloc hallowed
    rw [Call.step, hok]
    exact hnext
  | reinit mapped garbage =>
    refine (hdivided.reinit hallowed).bind ?_
    rintro ⟨taken, phys⟩ hnext
    exact hnext

lemma Divided.step {k k' : Session} {call : Call} (hdivided : Divided usable k.phys k.handedOut)
    (hstep : k.Step call k') : Divided usable k'.phys k'.handedOut := by
  have hends := hdivided.call hstep.1
  rw [hstep.2] at hends
  exact hends

end Steps

/-- From any memory map, in every run of allocations, deallocations of pages
handed out and one switch to the stack: the pages handed out are distinct and
usable, the counter and the stack agree with the bitmap, `AllocPhys` panics
exactly when no page is free, and no call stops in any other way. -/
theorem run_divided {ranges : List BootMemoryEntry} {s : State}
    {calls : List Call} {k : Session} (hinit : initPhys ranges = .ok s)
    (hrun : Run Session.Step (Session.start s) calls k) :
    k.handedOut.Nodup ∧
      (∀ addr ∈ k.handedOut, ∃ page, addr = page * archPageSize ∧ isBitmapEntryFree s page = true) ∧
      k.phys.pagesLeft = (freePages k.phys).card ∧
      (∀ stack, k.phys.allocationStack = some stack →
        (stackPages k.phys stack).Nodup ∧ ∀ i, i ∈ stackPages k.phys stack ↔
          isBitmapEntryFree k.phys i = true) ∧
      (allocPhys k.phys = .error .panicOutOfPhys ↔ freePages k.phys = ∅) ∧
      ∀ call : Call, call.Allowed k → ∀ stop, call.step k = .error stop →
        stop = .panicOutOfPhys := by
  have hdivided : Divided (fun page => isBitmapEntryFree s page = true) k.phys k.handedOut :=
    hrun.invariant (P := fun k => Divided _ k.phys k.handedOut) (divided_start hinit)
    (fun _ _ _ hbefore hstep => hbefore.step hstep)
  have hs := hdivided.consistent
  refine ⟨hdivided.nodup, ?_, hs.count,
    fun stack hstack => ⟨hs.nodup stack hstack, hs.stacked stack hstack⟩,
    allocPhys_panic_iff hs, ?_⟩
  · intro addr haddr
    obtain ⟨page, rfl⟩ := hdivided.aligned addr haddr
    exact ⟨page, rfl, (hdivided.divided page).mpr (.inr haddr)⟩
  · intro call hallowed stop hstop
    have hends := hdivided.call hallowed
    rw [hstop] at hends
    exact hends

theorem run_divided_three_pages : ∃ (s : State) (k : Session), initPhys [⟨0, 0x3000⟩] = .ok s ∧
    Run Session.Step (Session.start s) [.alloc] k ∧ k.handedOut.length = 1 ∧ k.handedOut.Nodup := by
  have heval : ((initPhys [⟨0, 0x3000⟩]).toOption.map (fun s =>
      ((allocPhys s).toOption.map Prod.fst, s.pagesLeft))) =
      some (some 0, 3) := by decide +kernel
  cases hinit : initPhys [⟨0, 0x3000⟩] with
  | error stop =>
    rw [hinit] at heval
    cases heval
  | ok s =>
    rw [hinit] at heval
    cases halloc : allocPhys s with
    | error stop => simp [Except.toOption, halloc] at heval
    | ok result =>
      have hstep : (Session.start s).Step .alloc ⟨result.2, [result.1]⟩ :=
        ⟨trivial, by simp [Call.step, Session.start, halloc]⟩
      have hrun := Run.single hstep
      exact ⟨s, _, rfl, hrun, rfl, (run_divided hinit hrun).1⟩

end Merlon.Physical
