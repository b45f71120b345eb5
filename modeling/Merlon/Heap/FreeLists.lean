/-
The free lists: what removing a block from its list and pushing a block on its
list do to the lists and to memory.
-/
import Merlon.Heap.Classes

namespace Merlon.Heap

open ByteMemory List State

namespace Classes

variable {C : Classes}

/-! Changes that stay inside links. -/

/-- Nothing but list heads and the link words of cells of `Free` differs. -/
structure LinksChanged (s s' : State) (Free : Cell → Prop) : Prop where
  regions : s'.regions = s.regions
  reserveBlocks : s'.reserveBlocks = s.reserveBlocks
  outstanding : s'.outstandingAllocations = s.outstandingAllocations
  memory : ∀ at_, (∀ d, Free d → at_ < d.address + 4 ∨ d.address + 12 ≤ at_) →
    s'.memory at_ = s.memory at_

variable {s s' : State} {Free : Cell → Prop}
  {c : Cell} {index : Nat} {memory : ByteMemory} {lists : Nat → List Nat}

section

variable (hchanged : LinksChanged s s' Free) (hlink : C.Linkable Free)

include hchanged hlink

section

variable (hfits : C.Fits c) (hapart : ∀ d, Free d → d = c ∨ Apart c d)

include hfits hapart

/-- Links lie strictly inside their cells, so the tag words stay. -/
lemma LinksChanged.tag_words : s.memory.load c.address = s'.memory.load c.address ∧
    s.memory.load (c.stop - 4) = s'.memory.load (c.stop - 4) := by
  have hmin := hfits.sizeMin
  have hkeep : ∀ at_, (c.address ≤ at_ ∧ at_ < c.address + 4) ∨
      (c.stop - 4 ≤ at_ ∧ at_ < c.stop) → s'.memory at_ = s.memory at_ := by
    intro at_ hat
    apply hchanged.memory
    intro d hd
    have hsize := (hlink.fits d hd).block (hlink.block d hd)
    simp only [Apart, Cell.stop] at hapart hat
    rcases hapart d hd with rfl | hcd <;> omega
  constructor
  · apply load_congr
    intro at_ hlow hhigh
    exact (hkeep at_ (Or.inl ⟨hlow, hhigh⟩)).symm
  · apply load_congr
    simp only [Cell.stop] at hkeep ⊢
    intro at_ hlow hhigh
    exact (hkeep at_ (Or.inr ⟨hlow, by omega⟩)).symm

lemma LinksChanged.sized (hsized : Sized s.memory c) : Sized s'.memory c := by
  obtain ⟨hfirst, hlast⟩ := hchanged.tag_words hlink hfits hapart
  exact hsized.congr hfirst hlast

lemma LinksChanged.tagged (htagged : Tagged s.memory c) : Tagged s'.memory c := by
  obtain ⟨hfirst, hlast⟩ := hchanged.tag_words hlink hfits hapart
  exact htagged.congr hfirst hlast

end

/-- A cell no link lies in keeps every byte. -/
lemma LinksChanged.bytes (hapart : ∀ d, Free d → Apart c d) {at_ : Nat}
    (hlow : c.address ≤ at_) (hhigh : at_ < c.stop) : s'.memory at_ = s.memory at_ := by
  apply hchanged.memory
  intro d hd
  have hsize := (hlink.fits d hd).block (hlink.block d hd)
  have hcd := hapart d hd
  simp only [Apart, Cell.stop] at hcd hhigh
  omega

end

/-! Removing a block from its list. -/

/-- The link updates of `RemoveBlock`: the neighbours of the block are joined,
and null neighbours are skipped. -/
def joinLinks (memory : ByteMemory) (prev next : Nat) : ByteMemory :=
  let memory := if prev = 0 then memory
    else memory.store (nextField prev) next
  if next = 0 then memory else memory.store (prevField next) prev

/-- The head changes only when the removed block was the head. -/
def joinHead (heads : Nat → Nat) (index prev next : Nat) : Nat → Nat :=
  if prev = 0 then setEntry heads index next else heads

lemma removeBlock_eq {block : Nat} (hhead : prevOf s.memory block = 0 → s.headBlock index = block) :
    removeBlock s index block = .ok { s with
      memory := joinLinks s.memory (prevOf s.memory block) (nextOf s.memory block)
      headBlock := joinHead s.headBlock index (prevOf s.memory block)
        (nextOf s.memory block) } := by
  simp only [prevOf, nextOf] at hhead ⊢
  by_cases hprev : s.memory.load (prevField block) = 0
  · by_cases hnext : s.memory.load (nextField block) = 0
    · simp [removeBlock, hprev, hnext, hhead, joinLinks, joinHead, setHead]
    · simp [removeBlock, hprev, hnext, joinLinks, joinHead, setHead, setMemory]
  · by_cases hnext : s.memory.load (nextField block) = 0
    · simp [removeBlock, hprev, hnext, joinLinks, joinHead, setMemory]
    · simp [removeBlock, hprev, hnext, joinLinks, joinHead, setMemory]

/-- Two link carriers are the same or far apart. -/
def Far (left right : Nat) : Prop :=
  left = right ∨ left + 16 ≤ right ∨ right + 16 ≤ left

section Links

variable {block other value : Nat}

lemma nextOf_storeNext (hvalue : value < 2 ^ 32) (hfar : Far other block) :
    nextOf (memory.store (nextField block) value) other =
      if other = block then value else nextOf memory other := by
  split
  · rename_i heq
    subst heq
    exact load_store_of_lt _ hvalue
  · simp only [Far] at hfar
    exact load_store_of_disjoint _ (by simp only [nextField]; omega)

lemma prevOf_storePrev (hvalue : value < 2 ^ 32) (hfar : Far other block) :
    prevOf (memory.store (prevField block) value) other =
      if other = block then value else prevOf memory other := by
  split
  · rename_i heq
    subst heq
    exact load_store_of_lt _ hvalue
  · simp only [Far] at hfar
    exact load_store_of_disjoint _ (by simp only [prevField]; omega)

lemma nextOf_storePrev (hfar : Far other block) :
    nextOf (memory.store (prevField block) value) other = nextOf memory other := by
  simp only [Far] at hfar
  exact load_store_of_disjoint _ (by simp only [nextField, prevField]; omega)

lemma prevOf_storeNext (hfar : Far other block) :
    prevOf (memory.store (nextField block) value) other = prevOf memory other := by
  simp only [Far] at hfar
  exact load_store_of_disjoint _ (by simp only [nextField, prevField]; omega)

end Links

lemma joinLinks_next {prev next other : Nat} (hbound : next < 2 ^ 32)
    (hprev : prev ≠ 0 → Far other prev) (hnext : next ≠ 0 → Far other next) (hother : other ≠ 0) :
    nextOf (joinLinks memory prev next) other =
      if prev = other then next else nextOf memory other := by
  have hfirst : nextOf (if prev = 0 then memory
      else memory.store (nextField prev) next) other =
      if prev = other then next else nextOf memory other := by
    split
    · rw [if_neg (by omega)]
    · rw [nextOf_storeNext hbound (hprev ‹_›)]
      simp only [eq_comm]
  rw [← hfirst]
  by_cases hzero : next = 0
  · simp only [joinLinks, if_pos hzero]
  · simp only [joinLinks, if_neg hzero]
    exact nextOf_storePrev (hnext hzero)

lemma joinLinks_prev {prev next other : Nat} (hbound : prev < 2 ^ 32)
    (hprev : prev ≠ 0 → Far other prev) (hnext : next ≠ 0 → Far other next) (hother : other ≠ 0) :
    prevOf (joinLinks memory prev next) other =
      if next = other then prev else prevOf memory other := by
  have hfirst : prevOf (if prev = 0 then memory
      else memory.store (nextField prev) next) other =
      prevOf memory other := by
    split
    · rfl
    · exact prevOf_storeNext (hprev ‹_›)
  rw [← hfirst]
  by_cases hzero : next = 0
  · simp only [joinLinks, if_pos hzero]
    rw [if_neg (show next ≠ other by omega)]
  · simp only [joinLinks, if_neg hzero, prevOf_storePrev hbound (hnext hzero), eq_comm]

lemma joinLinks_apply {prev next at_ : Nat} (hprev : prev ≠ 0 → at_ < prev + 4 ∨ prev + 12 ≤ at_)
    (hnext : next ≠ 0 → at_ < next + 4 ∨ next + 12 ≤ at_) :
    joinLinks memory prev next at_ = memory at_ := by
  have hfirst : (if prev = 0 then memory
      else memory.store (nextField prev) next) at_ = memory at_ := by
    by_cases hzero : prev = 0
    · simp [hzero]
    · simp only [hzero, nextField]
      exact store_apply_of_outside _ (by omega)
  by_cases hzero : next = 0
  · simp only [joinLinks]
    simpa [hzero] using hfirst
  · simp only [joinLinks, hzero, ↓reduceIte, prevField]
    rw [store_apply_of_outside _ (by omega)]
    exact hfirst

section

variable (hlists : C.ListsHold s Free lists) (hlink : C.Linkable Free)
  {i j a b : Nat} (hi : i < C.count) (hj : j < C.count)

include hlists hlink hi hj

/-- Members of the lists are cells of `Free`, hence far apart. -/
lemma ListsHold.far (ha : a ∈ lists i) (hb : b ∈ lists j) : Far a b := by
  obtain ⟨c, hc, rfl, _⟩ := (hlists.listed i hi a).mp ha
  obtain ⟨d, hd, rfl, _⟩ := (hlists.listed j hj b).mp hb
  by_cases heq : c = d
  · exact Or.inl (by rw [heq])
  · exact Or.inr (hlink.far hc hd heq)

/-- No address is on two lists. -/
lemma ListsHold.index_unique (ha : a ∈ lists i) (hb : a ∈ lists j) : i = j := by
  obtain ⟨c, hc, haddr, hci⟩ := (hlists.listed i hi a).mp ha
  obtain ⟨d, hd, haddr', hdj⟩ := (hlists.listed j hj a).mp hb
  obtain rfl : c = d := hlink.eq_of_address hc hd (haddr.trans haddr'.symm)
  rw [hci] at hdj
  cases hdj
  rfl

end

lemma getD_zero_eq_iff {link : Option Nat} {member : Nat}
    (hmember : member ≠ 0) : link.getD 0 = member ↔ link = some member := by
  cases link with
  | none => simp [Ne.symm hmember]
  | some value => simp

/-- The two neighbours of a listed block, null at the ends of the list. -/
structure Neighbours (s : State) (index block : Nat) (front rear : List Nat) : Prop where
  prev : prevOf s.memory block = front.getLast?.getD 0
  next : nextOf s.memory block = rear.head?.getD 0
  head : front = [] → s.headBlock index = block

lemma ListsHold.neighbours (hlists : C.ListsHold s Free lists)
    (hindex : index < C.count) {block : Nat} {front rear : List Nat}
    (hsplit : lists index = front ++ block :: rear) : Neighbours s index block front rear := by
  have hlinked := hlists.linked index hindex
  rw [hsplit] at hlinked
  obtain ⟨hprev, hrear⟩ := hlinked.links_of_split
  refine ⟨hprev, hrear.next_eq_head, ?_⟩
  rintro rfl
  exact hlinked.1

section RemoveBlock

variable {block : Nat} {front rear : List Nat}

/-- The memory after the block was skipped. -/
abbrev removedMemory (s : State) (block : Nat) : ByteMemory :=
  joinLinks s.memory (prevOf s.memory block) (nextOf s.memory block)

/-- The heads after the block was skipped. -/
abbrev removedHead (s : State) (index block : Nat) : Nat → Nat :=
  joinHead s.headBlock index (prevOf s.memory block) (nextOf s.memory block)

lemma Neighbours.prev_mem (hneighbours : Neighbours s index block front rear)
    (hne : prevOf s.memory block ≠ 0) : prevOf s.memory block ∈ front :=
  mem_of_getLast? ((getD_zero_eq_iff hne).mp hneighbours.prev.symm)

lemma Neighbours.next_mem (hneighbours : Neighbours s index block front rear)
    (hne : nextOf s.memory block ≠ 0) : nextOf s.memory block ∈ rear :=
  mem_of_mem_head? ((getD_zero_eq_iff hne).mp hneighbours.next.symm)

lemma nextOf_lt (memory : ByteMemory) (block : Nat) : nextOf memory block < 2 ^ 32 :=
  memory.load_lt _

lemma prevOf_lt (memory : ByteMemory) (block : Nat) : prevOf memory block < 2 ^ 32 :=
  memory.load_lt _

variable (hlists : C.ListsHold s Free lists) (hlink : C.Linkable Free)
  (hindex : index < C.count) (hsplit : lists index = front ++ block :: rear)

include hlists hlink hindex hsplit

lemma removed_links {j other : Nat} (hj : j < C.count) (hother : other ∈ lists j) :
    nextOf (removedMemory s block) other =
        (if front.getLast? = some other then nextOf s.memory block
        else nextOf s.memory other) ∧
      prevOf (removedMemory s block) other =
        if rear.head? = some other then prevOf s.memory block
        else prevOf s.memory other := by
  have hneighbours := hlists.neighbours hindex hsplit
  have hzero := (hlists.linked j hj).ne_zero_of_mem other hother
  have hfar {link : Nat} (hmem : link ∈ front ∨ link ∈ rear) : Far other link :=
    hlists.far hlink hj hindex hother (by simp [hsplit, hmem.imp_right Or.inr])
  have hprev hne := hfar (.inl (hneighbours.prev_mem hne))
  have hnext hne := hfar (.inr (hneighbours.next_mem hne))
  rw [joinLinks_next (nextOf_lt _ _) hprev hnext hzero,
    joinLinks_prev (prevOf_lt _ _) hprev hnext hzero, hneighbours.prev, hneighbours.next]
  simp only [getD_zero_eq_iff hzero, and_self]

/-- The list the block was on. -/
lemma removed_linked : LinkedList (nextOf (removedMemory s block))
      (prevOf (removedMemory s block)) 0 (removedHead s index block index) (front ++ rear) := by
  have hneighbours := hlists.neighbours hindex hsplit
  have hlinked := hlists.linked index hindex
  have hnodup := hlists.nodup index hindex
  have hsub : ∀ other ∈ front ++ rear, other ∈ lists index := by
    intro other hmem
    rw [hsplit]
    rcases mem_append.mp hmem with hmem | hmem <;> simp [hmem]
  rw [hsplit] at hlinked hnodup
  refine hlinked.unlink hnodup ?_ (fun other hmem =>
      (removed_links hlists hlink hindex hsplit hindex (hsub other hmem)).1)
    (fun other hmem => (removed_links hlists hlink hindex hsplit hindex (hsub other hmem)).2)
  by_cases hfront : front = []
  · simp [joinHead, hneighbours.prev, hfront, setEntry]
  · have hne : prevOf s.memory block ≠ 0 := by
      rw [hneighbours.prev, getLast?_eq_some_getLast hfront]
      exact hlinked.ne_zero_of_mem _ (mem_append_left _ (getLast_mem hfront))
    simp [joinHead, hne, hfront]

/-- Every other list. -/
lemma removed_linked_other {j : Nat} (hj : j < C.count) (hne : j ≠ index) :
    LinkedList (nextOf (removedMemory s block)) (prevOf (removedMemory s block)) 0
      (removedHead s index block j) (lists j) := by
  have hhead : removedHead s index block j = s.headBlock j := by
    simp only [joinHead]
    split
    · simp [setEntry, hne]
    · rfl
  have hforeign : ∀ other ∈ lists j, other ∉ lists index := fun other hmem
      hmem' => hne (hlists.index_unique hlink hj hindex hmem hmem')
  rw [hhead]
  refine (hlists.linked j hj).congr ?_ ?_
  · intro other hmem
    rw [(removed_links hlists hlink hindex hsplit hj hmem).1, if_neg]
    intro hlast
    exact hforeign other hmem (by simp [hsplit, mem_of_getLast? hlast])
  · intro other hmem
    rw [(removed_links hlists hlink hindex hsplit hj hmem).2, if_neg]
    intro hfirst
    have hrear : other ∈ rear := mem_of_mem_head? hfirst
    exact hforeign other hmem (by simp [hsplit, hrear])

lemma removed_mem {j : Nat} (hj : j < C.count) (address : Nat) :
    address ∈ setEntry lists index (front ++ rear) j ↔ address ∈ lists j ∧ address ≠ block := by
  have hblock : block ∈ lists index := by simp [hsplit]
  by_cases heq : j = index
  · subst heq
    have hnodup := hlists.nodup j hj
    simp only [setEntry] at hnodup ⊢
    grind
  · have hforeign : block ∉ lists j := fun hmem =>
      heq (hlists.index_unique hlink hj hindex hmem hblock)
    simp only [setEntry]
    grind

end RemoveBlock

/-- Removing a free block leaves the lists of the other free blocks and
changes only their links. -/
lemma removeBlock_spec (hlink : C.Linkable Free) (hlists : C.FreeLists s Free) (hc : Free c)
    (hindex : C.index (c.size - metadataTotal) = .ok index) :
    ∃ s', removeBlock s index c.address = .ok s' ∧ C.FreeLists s' (fun d => Free d ∧ d ≠ c) ∧
    LinksChanged s s' (fun d => Free d ∧ d ≠ c) := by
  obtain ⟨lists, hlists⟩ := hlists
  have hbound := index_lt hindex
  have hmem : c.address ∈ lists index :=
    (hlists.listed index hbound c.address).mpr ⟨c, hc, rfl, hindex⟩
  obtain ⟨front, rear, hsplit⟩ := append_of_mem hmem
  have hnodup := hlists.nodup index hbound
  rw [hsplit] at hnodup
  have hneighbours := hlists.neighbours hbound hsplit
  have hhead : prevOf s.memory c.address = 0 → s.headBlock index = c.address := by
    intro hzero
    apply hneighbours.head
    by_contra hfront
    rw [hneighbours.prev, getLast?_eq_some_getLast hfront] at hzero
    have hlast := (hlists.linked index hbound).ne_zero_of_mem
      (front.getLast hfront) (by simp [hsplit])
    exact hlast hzero
  refine ⟨_, removeBlock_eq hhead, ⟨setEntry lists index (front ++ rear),
    ?_, ?_, ?_⟩, rfl, rfl, rfl, ?_⟩
  · intro i hi
    by_cases heq : i = index
    · subst heq
      simpa [setEntry] using removed_linked hlists hlink hi hsplit
    · simpa [setEntry, heq] using removed_linked_other hlists hlink hbound hsplit hi heq
  · intro i hi
    by_cases heq : i = index
    · simp only [setEntry, heq]
      rw [nodup_middle, nodup_cons] at hnodup
      exact hnodup.2
    · simpa [setEntry, heq] using hlists.nodup i hi
  · intro i hi address
    rw [removed_mem hlists hlink hbound hsplit hi, hlists.listed i hi]
    constructor
    · rintro ⟨⟨d, hd, rfl, hdi⟩, hne⟩
      exact ⟨d, ⟨hd, fun heq => hne (by rw [heq])⟩, rfl, hdi⟩
    · rintro ⟨d, ⟨hd, hne⟩, rfl, hdi⟩
      exact ⟨⟨d, hd, rfl, hdi⟩, fun haddr => hne (hlink.eq_of_address hd hc haddr)⟩
  · have hlisted : ∀ member ∈ front ++ rear, ∃ d, (Free d ∧ d ≠ c) ∧ d.address = member := by
      intro member hmember
      have hin := removed_mem hlists hlink hbound hsplit hbound member
      simp only [setEntry] at hin
      obtain ⟨hmem, hne⟩ := hin.mp hmember
      obtain ⟨d, hd, rfl, _⟩ := (hlists.listed index hbound member).mp hmem
      exact ⟨d, ⟨hd, fun heq => hne (by rw [heq])⟩, rfl⟩
    intro at_ hat
    apply joinLinks_apply
    · intro hne
      obtain ⟨d, hd, haddr⟩ := hlisted _ (mem_append_left _ (hneighbours.prev_mem hne))
      rw [← haddr]
      exact hat d hd
    · intro hne
      obtain ⟨d, hd, haddr⟩ := hlisted _ (mem_append_right _ (hneighbours.next_mem hne))
      rw [← haddr]
      exact hat d hd

/-! Pushing a block on its list. -/

/-- The link updates of `AddBlock`'s last part. -/
def pushLinks (memory : ByteMemory) (block head : Nat) : ByteMemory :=
  let memory := memory.store (prevField block) 0
  let memory := memory.store (nextField block) head
  if head ≠ 0 then memory.store (prevField head) block else memory

def pushBlock (s : State) (index block : Nat) : State :=
  (s.setHead index block).setMemory (pushLinks s.memory block (s.headBlock index))

lemma insertBlock_eq (s : State) (index block : Nat) :
    insertBlock s index block = (pushBlock s index block).setMemory
      (markFree (pushBlock s index block).memory block) :=
  rfl

section PushLinks

variable {memory : ByteMemory} {block head other : Nat}

lemma pushLinks_next (hbound : head < 2 ^ 32) (hblock : Far other block)
    (hhead : head ≠ 0 → Far other head) : nextOf (pushLinks memory block head) other =
      if other = block then head else nextOf memory other := by
  have hsecond : nextOf ((memory.store (prevField block) 0).store (nextField block) head) other =
      if other = block then head else nextOf memory other := by
    rw [nextOf_storeNext hbound hblock, nextOf_storePrev hblock]
  rw [← hsecond]
  unfold pushLinks
  split
  · exact nextOf_storePrev (hhead ‹_›)
  · rfl

lemma pushLinks_prev (hbound : block < 2 ^ 32) (hblock : Far other block)
    (hhead : head ≠ 0 → Far other head) (hother : other ≠ 0) :
    prevOf (pushLinks memory block head) other =
      if other = head then block
      else if other = block then 0 else prevOf memory other := by
  have hsecond : prevOf ((memory.store (prevField block) 0).store (nextField block) head) other =
      if other = block then 0 else prevOf memory other := by
    rw [prevOf_storeNext hblock, prevOf_storePrev (by omega) hblock]
  rw [← hsecond]
  unfold pushLinks
  split
  · exact prevOf_storePrev hbound (hhead ‹_›)
  · rw [if_neg (by omega)]

lemma pushLinks_apply {at_ : Nat} (hblock : at_ < block + 4 ∨ block + 12 ≤ at_)
    (hhead : head ≠ 0 → at_ < head + 4 ∨ head + 12 ≤ at_) :
    pushLinks memory block head at_ = memory at_ := by
  have hsecond : ((memory.store (prevField block) 0).store
      (nextField block) head) at_ = memory at_ := by
    rw [store_apply_of_outside _ (by simp only [nextField]; omega),
      store_apply_of_outside _ (by simp only [prevField]; omega)]
  rw [← hsecond]
  by_cases hzero : head = 0
  · simp [pushLinks, hzero]
  · simp only [pushLinks, hzero, ne_eq]
    exact store_apply_of_outside _ (by simp only [prevField]; omega)

end PushLinks

/-- Lists depend on the heads and on the link words of their cells. -/
lemma FreeLists.frame (hlists : C.FreeLists s Free) (hheads : s'.headBlock = s.headBlock)
    (hmemory : ∀ c, Free c → ∀ at_, c.address + 4 ≤ at_ →
      at_ < c.address + 12 → s'.memory at_ = s.memory at_) : C.FreeLists s' Free := by
  obtain ⟨lists, hlists⟩ := hlists
  refine ⟨lists, ?_, hlists.nodup, hlists.listed⟩
  intro i hi
  rw [hheads]
  refine (hlists.linked i hi).congr ?_ ?_
  · intro member hmem
    obtain ⟨c, hc, rfl, _⟩ := (hlists.listed i hi member).mp hmem
    apply load_congr
    intro at_ hlow hhigh
    simp only [nextField] at hlow hhigh
    exact hmemory c hc at_ hlow (by omega)
  · intro member hmem
    obtain ⟨c, hc, rfl, _⟩ := (hlists.listed i hi member).mp hmem
    apply load_congr
    intro at_ hlow hhigh
    simp only [prevField] at hlow hhigh
    exact hmemory c hc at_ (by omega) (by omega)

lemma FreeLists.of_iff {Same : Cell → Prop} (hlists : C.FreeLists s Free)
    (hiff : ∀ c, Same c ↔ Free c) : C.FreeLists s Same := by
  obtain rfl : Same = Free := funext fun c => propext (hiff c)
  exact hlists

/-- The head of a list is null or a listed cell. -/
lemma ListsHold.head_mem (hlists : C.ListsHold s Free lists) {i : Nat}
    (hi : i < C.count) (hne : s.headBlock i ≠ 0) : s.headBlock i ∈ lists i := by
  have hlinked := hlists.linked i hi
  cases hlist : lists i with
  | nil =>
    rw [hlist] at hlinked
    exact absurd hlinked hne
  | cons head tail =>
    rw [hlist] at hlinked
    simp [hlinked.1]

section PushBlock

variable {i other : Nat}

lemma ListsHold.far_new (hlists : C.ListsHold s Free lists)
    (hlink : C.Linkable (fun d => Free d ∨ d = c)) (hnew : ¬ Free c) (hi : i < C.count)
    (hmem : other ∈ lists i) : other + 16 ≤ c.address ∨ c.address + 16 ≤ other := by
  obtain ⟨d, hd, rfl, _⟩ := (hlists.listed i hi other).mp hmem
  exact hlink.far (Or.inl hd) (Or.inr rfl) (fun heq => hnew (heq ▸ hd))

lemma ListsHold.head_lt (hlists : C.ListsHold s Free lists)
    (hlink : C.Linkable Free) (hi : i < C.count) : s.headBlock i < 2 ^ 32 := by
  by_cases hzero : s.headBlock i = 0
  · omega
  · obtain ⟨d, hd, haddr, _⟩ := (hlists.listed i hi _).mp (hlists.head_mem hi hzero)
    have htop := (hlink.fits d hd).top
    have hmin := (hlink.fits d hd).sizeMin
    simp only [Cell.stop] at htop
    omega

variable (hlists : C.ListsHold s Free lists)
  (hlink : C.Linkable (fun d => Free d ∨ d = c)) (hnew : ¬ Free c) (hindex : index < C.count)

include hlists hlink hnew hindex

lemma pushed_links (hi : i < C.count) (hmem : other ∈ lists i) :
    nextOf (pushBlock s index c.address).memory other = nextOf s.memory other ∧
    prevOf (pushBlock s index c.address).memory other =
        if other = s.headBlock index then c.address
        else prevOf s.memory other := by
  have hold : C.Linkable Free := hlink.mono (fun d hd => Or.inl hd)
  have hfar := hlists.far_new hlink hnew hi hmem
  have hhead : s.headBlock index ≠ 0 → Far other (s.headBlock index) :=
    fun hne => hlists.far hold hi hindex hmem (hlists.head_mem hindex hne)
  have hzero := (hlists.linked i hi).ne_zero_of_mem other hmem
  have htop := (hlink.fits c (Or.inr rfl)).top
  have hmin := (hlink.fits c (Or.inr rfl)).sizeMin
  have hne : other ≠ c.address := by omega
  simp only [Cell.stop] at htop
  simp only [pushBlock, setMemory]
  rw [pushLinks_next (hlists.head_lt hold hindex) (Or.inr hfar) hhead,
    pushLinks_prev (by omega) (Or.inr hfar) hhead hzero, if_neg hne, if_neg hne]
  exact ⟨rfl, rfl⟩

/-- The list of the block's size, with the block in front. -/
lemma pushed_linked : LinkedList (nextOf (pushBlock s index c.address).memory)
      (prevOf (pushBlock s index c.address).memory) 0 c.address (c.address :: lists index) := by
  have hold : C.Linkable Free := hlink.mono (fun d hd => Or.inl hd)
  have hfits := hlink.fits c (Or.inr rfl)
  have htop := hfits.top
  have hmin := hfits.sizeMin
  have hpos := hfits.positive
  simp only [Cell.stop] at htop
  have hhead : s.headBlock index ≠ 0 → c.address + 16 ≤ s.headBlock index ∨
        s.headBlock index + 16 ≤ c.address := fun hne =>
    (hlists.far_new hlink hnew hindex (hlists.head_mem hindex hne)).symm
  have hlinked := hlists.linked index hindex
  refine hlinked.push (by omega) ?_ ?_ ?_ ?_ (hlists.nodup index hindex)
  · simp only [pushBlock, setMemory]
    rw [pushLinks_prev (by omega) (Or.inl rfl) (fun hne => Or.inr (hhead hne)) (by omega)]
    by_cases hzero : s.headBlock index = 0
    · simp [hzero]
    · rw [if_neg (by omega), if_pos rfl]
  · simp only [pushBlock, setMemory]
    rw [pushLinks_next (hlists.head_lt hold hindex) (Or.inl rfl)
      (fun hne => Or.inr (hhead hne)), if_pos rfl]
  · exact fun other hmem => (pushed_links hlists hlink hnew hindex hindex hmem).1
  · intro other hmem
    have hzero := hlinked.ne_zero_of_mem other hmem
    rw [(pushed_links hlists hlink hnew hindex hindex hmem).2, hlinked.next_eq_head]
    simp only [← getD_zero_eq_iff hzero, eq_comm]

/-- Every other list. -/
lemma pushed_linked_other (hi : i < C.count) (hne : i ≠ index) :
    LinkedList (nextOf (pushBlock s index c.address).memory)
      (prevOf (pushBlock s index c.address).memory) 0 (s.headBlock i) (lists i) := by
  have hold : C.Linkable Free := hlink.mono (fun d hd => Or.inl hd)
  refine (hlists.linked i hi).congr
    (fun other hmem => (pushed_links hlists hlink hnew hindex hi hmem).1) ?_
  intro other hmem
  rw [(pushed_links hlists hlink hnew hindex hi hmem).2, if_neg]
  intro heq
  have hzero := (hlists.linked i hi).ne_zero_of_mem other hmem
  have hhead : other ∈ lists index := by
    rw [heq]
    exact hlists.head_mem hindex (heq ▸ hzero)
  exact hne (hlists.index_unique hold hi hindex hmem hhead)

end PushBlock

/-- Pushing a block that is on no list adds it to the list of its size. -/
lemma pushBlock_spec (hlink : C.Linkable (fun d => Free d ∨ d = c)) (hnew : ¬ Free c)
    (hlists : C.FreeLists s Free) (hindex : C.index (c.size - metadataTotal) = .ok index) :
    C.FreeLists (pushBlock s index c.address) (fun d => Free d ∨ d = c) ∧
    LinksChanged s (pushBlock s index c.address) (fun d => Free d ∨ d = c) := by
  obtain ⟨lists, hlists⟩ := hlists
  have hbound := index_lt hindex
  have hfresh : ∀ i < C.count, c.address ∉ lists i := by
    intro i hi hmem
    have hfar := hlists.far_new hlink hnew hi hmem
    omega
  refine ⟨⟨setEntry lists index (c.address :: lists index), ?_, ?_, ?_⟩, rfl, rfl, rfl, ?_⟩
  · intro i hi
    by_cases heq : i = index
    · subst heq
      simpa [setEntry, pushBlock, setHead, setMemory] using pushed_linked hlists hlink hnew hi
    · simpa [setEntry, heq, pushBlock, setHead, setMemory] using
        pushed_linked_other hlists hlink hnew hbound hi heq
  · intro i hi
    by_cases heq : i = index
    · subst heq
      simpa [setEntry, hfresh i hi] using hlists.nodup i hi
    · simpa [setEntry, heq] using hlists.nodup i hi
  · intro i hi address
    by_cases heq : i = index
    · subst heq
      simp only [setEntry, ↓reduceIte, mem_cons, hlists.listed i hi]
      constructor
      · rintro (rfl | ⟨d, hd, haddr, hdi⟩)
        · exact ⟨c, Or.inr rfl, rfl, hindex⟩
        · exact ⟨d, Or.inl hd, haddr, hdi⟩
      · rintro ⟨d, hd | rfl, haddr, hdi⟩
        · exact Or.inr ⟨d, hd, haddr, hdi⟩
        · exact Or.inl haddr.symm
    · simp only [setEntry, heq, ↓reduceIte, hlists.listed i hi]
      constructor
      · rintro ⟨d, hd, haddr, hdi⟩
        exact ⟨d, Or.inl hd, haddr, hdi⟩
      · rintro ⟨d, hd | rfl, haddr, hdi⟩
        · exact ⟨d, hd, haddr, hdi⟩
        · rw [hindex] at hdi
          cases hdi
          exact absurd rfl heq
  · intro at_ hat
    apply pushLinks_apply (hat c (Or.inr rfl))
    intro hne
    obtain ⟨d, hd, haddr, _⟩ := (hlists.listed index hbound _).mp (hlists.head_mem hbound hne)
    rw [← haddr]
    exact hat d (Or.inl hd)

end Classes

end Merlon.Heap
