/-
References to open files.  A file counts the slots of all tables that hold it
and the mappings that took a reference, in every run in which no descriptor is
duplicated and `SysOpen` can report the descriptor it made.
-/
import Merlon.Files.Calls
import Merlon.Library.Machine
import Merlon.Library.Tally

namespace Merlon.Files

open World

open Function (update update_self update_of_ne update_eq_self)

/-- `SysOpen` from the vnode that `OpenFile` found on.  The user's memory is
writable when the descriptor can be stored there. -/
def World.sysOpen (w : World) (f node : Nat) (flags : BitVec 32)
    (writable : Bool) : Except Stop (Result × World) := do
  let (created, w) ← (w.createFile f node).createFd f (flags &&& oCloexec)
  match created with
  | .error error =>
    let (_, w) ← w.closeFile f
    .ok (.error error, w)
  | .ok fd =>
    if writable then .ok (.ok fd, w)
    else
      let (_, w) ← w.closeFile f
      let (_, w) ← w.removeFd f
      .ok (.error .einval, w)

/-- `SysMapVirt` of a descriptor, as far as the file goes: each mapping takes a
reference, and none gives it back. -/
def World.mapFile (w : World) (fd : Int) : Except Stop (Result × World) := do
  let (found, w) ← w.getFileFromFd true fd
  match found with
  | .error error => .ok (.error error, w)
  | .ok f =>
    let w ← w.referenceFile f
    .ok (.ok f, w)

/-- The tables and the files by their addresses.  `mappings` is history. -/
structure State where
  memorySize : Nat
  table : Nat → Option FdTable
  file : Nat → Option File
  mappings : Nat → Nat

inductive Event where
  | createFdTable (t : Nat)
  | sysOpen (t f node : Nat) (flags : BitVec 32) (writable : Bool)
  | dupFd (t : Nat) (oldfd : Int)
  | dupFd2 (t : Nat) (oldfd newfd : Int) (flags : BitVec 32)
  | sysClose (t : Nat) (fd : BitVec 32)
  | handleExecFd (t : Nat)
  | destroyFdTable (t : Nat)
  | mapFile (t : Nat) (fd : Int)
  deriving DecidableEq

namespace State

def setTable (s : State) (t : Nat) (table : Option FdTable) : State :=
  { s with table := update s.table t table }

/-- A call on one table; there is nothing to do without it. -/
def call (s : State) (t : Nat) (act : World → Except Stop (Result × World)) :
    Except Stop (Result × State) :=
  match s.table t with
  | none => .ok (.error .einval, s)
  | some table => do
      let (result, w) ← act ⟨table, s.file⟩
      .ok (result, { s.setTable t (some w.table) with file := w.file })

end State

def Event.step (s : State) : Event → Except Stop State
  | .createFdTable t => .ok (s.setTable t (some (Files.createFdTable none)))
  | .sysOpen t f node flags writable =>
    Prod.snd <$> s.call t fun w => w.sysOpen f node flags writable
  | .dupFd t oldfd => Prod.snd <$> s.call t fun w => w.dupFd oldfd
  | .dupFd2 t oldfd newfd flags => Prod.snd <$> s.call t fun w => w.dupFd2 oldfd newfd flags
  | .sysClose t fd => Prod.snd <$> s.call t fun w => w.sysClose fd
  | .handleExecFd t => Prod.snd <$> s.call t World.handleExecFd
  | .destroyFdTable t =>
    match s.table t with
    | none => .ok s
    | some table => do
        let w ← World.destroyFdTable ⟨table, s.file⟩
        .ok { s.setTable t none with file := w.file }
  | .mapFile t fd => do
      let (found, s) ← s.call t fun w => w.mapFile fd
      match found with
      | .error _ => .ok s
      | .ok f => .ok { s with
          mappings := update s.mappings f (s.mappings f + 1) }

/-- The heap gives addresses that are not in use. -/
def Event.allowed (s : State) : Event → Bool
  | .createFdTable t => decide (t ≤ s.memorySize) && (s.table t).isNone
  | .sysOpen _ f _ _ _ => (s.file f).isNone
  | _ => true

/-- No descriptor is duplicated, and a descriptor that `SysOpen` makes can be
stored. -/
def Event.spares (s : State) : Event → Bool
  | .sysOpen t _ _ _ writable => writable || (s.table t).all fun table => table.firstFree.isNone
  | .dupFd t oldfd => (s.table t).all fun table =>
    (lookup ⟨table, s.file⟩ oldfd).isNone || table.firstFree.isNone
  | .dupFd2 t oldfd newfd flags => (s.table t).all fun table =>
    !validFlags flags || (lookup ⟨table, s.file⟩ oldfd).isNone || decide (oldfd = newfd)
  | _ => true

def State.start (memorySize : Nat) : State where
  memorySize := memorySize
  table := fun _ => none
  file := fun _ => none
  mappings := fun _ => 0

def State.Step (guard : State → Event → Bool) (s : State) (event : Event) (s' : State) : Prop :=
  event.allowed s = true ∧ guard s event = true ∧ event.step s = .ok s'

/-- The slots among `todo` that hold the file. -/
def FdTable.slotsIn (table : FdTable) (todo : List (Fin procMaxFd)) (f : Nat) :
    Nat :=
  todo.countP fun i => (table.entry i).file == some f

/-- The slots of all tables that hold the file. -/
def State.slots (s : State) (f : Nat) : Nat :=
  tally s.memorySize fun t =>
    weigh (fun table => table.slotsIn descriptors f) (s.table t)

/-- The references that a file counts, none if it has been freed. -/
def references (file : Nat → Option File) (f : Nat) : Nat :=
  weigh File.referenceCount (file f)

/-- One reference to the file more. -/
def bump (rest : Nat → Nat) (f : Nat) : Nat → Nat :=
  update rest f (rest f + 1)

lemma bump_self (rest : Nat → Nat) (f : Nat) : bump rest f f = rest f + 1 := update_self ..

lemma bump_of_ne (rest : Nat → Nat) {f g : Nat} (hne : g ≠ f) : bump rest f g = rest g :=
  update_of_ne hne ..

section References

variable {file : Nat → Option File} {f : Nat}

lemma references_eq_zero : references file f = 0 ↔ file f = none := by
  unfold references
  cases hfile : file f with
  | none => exact iff_of_true rfl rfl
  | some old => exact iff_of_false old.positive.ne' (Option.some_ne_none old)

/-- A reference that is dropped is counted no more. -/
lemma references_dropReference (hlive : file f ≠ none) (g : Nat) :
    references file g = bump (references (dropReference file f)) f g := by
  by_cases hg : g = f
  · subst hg
    obtain ⟨old, hold⟩ := Option.ne_none_iff_exists'.mp hlive
    have hpositive := old.positive
    rw [bump_self]
    unfold references dropReference
    rw [update_self, hold, Option.bind_some]
    split
    · dsimp only [weigh]
      omega
    · dsimp only [weigh]
      omega
  · rw [bump_of_ne _ hg]
    unfold references
    rw [dropReference_of_ne hg]

end References

/-- A file has the slots among `todo` that hold it and the rest as its
references. -/
def World.Counted (rest : Nat → Nat) (todo : List (Fin procMaxFd)) (w : World) :
    Prop :=
  ∀ f, references w.file f = w.table.slotsIn todo f + rest f

namespace World.Counted

variable {rest : Nat → Nat} {todo : List (Fin procMaxFd)} {w : World} {f : Nat} {i : Fin procMaxFd}

lemma live (h : Counted (bump rest f) todo w) : w.file f ≠ none := by
  intro hfreed
  have hcount := h f
  rw [references_eq_zero.mpr hfreed, bump_self] at hcount
  omega

lemma live_of_entry (h : Counted rest todo w) (hi : i ∈ todo)
    (hentry : (w.table.entry i).file = some f) : w.file f ≠ none := by
  intro hfreed
  have hcount := h f
  have hpositive : 0 < w.table.slotsIn todo f := List.countP_pos_iff.mpr ⟨i, hi, by simp [hentry]⟩
  rw [references_eq_zero.mpr hfreed] at hcount
  omega

lemma closeFile (h : Counted (bump rest f) todo w) :
    ∃ w', w.closeFile f = .ok (.ok 0, w') ∧ w'.table = w.table ∧ Counted rest todo w' := by
  refine ⟨_, closeFile_live h.live, rfl, fun g => ?_⟩
  have hcount := h g
  rw [references_dropReference h.live g] at hcount
  by_cases hg : g = f
  · subst hg
    rw [bump_self, bump_self] at hcount
    dsimp only
    omega
  · rw [bump_of_ne _ hg, bump_of_ne _ hg] at hcount
    exact hcount

lemma slotsIn_setEntry (w : World) (i : Fin procMaxFd) (fd : Fd) (g : Nat) :
    (w.setEntry i fd).table.slotsIn descriptors g + ((w.table.entry i).file == some g).toNat =
      w.table.slotsIn descriptors g + (fd.file == some g).toNat :=
  countP_update (fun fd : Fd => fd.file == some g) w.table.entry fd
    nodup_descriptors (mem_descriptors i)

lemma toNat_some_beq (f g : Nat) : (some f == some g).toNat = bump (fun _ => 0) f g := by
  by_cases hg : g = f
  · subst hg
    rw [bump_self, beq_self_eq_true]
    rfl
  · have hne : some f ≠ some g := fun heq => hg (Option.some.inj heq).symm
    rw [bump_of_ne _ hg, beq_false_of_ne hne]
    rfl

lemma bump_eq_add (rest : Nat → Nat) (f g : Nat) :
    bump rest f g = rest g + bump (fun _ => 0) f g := by
  by_cases hg : g = f
  · subst hg
    rw [bump_self, bump_self]
  · rw [bump_of_ne _ hg, bump_of_ne _ hg]
    rfl

lemma clearEntry (h : Counted rest descriptors w) (hentry : (w.table.entry i).file = some f) :
    Counted (bump rest f) descriptors (w.clearEntry i) := by
  intro g
  have hcount : references w.file g = _ := h g
  have hchange : (w.clearEntry i).table.slotsIn descriptors g + _ =
      _ + (none == some g).toNat := slotsIn_setEntry w i _ g
  rw [hentry, toNat_some_beq] at hchange
  change references w.file g = _
  rw [bump_eq_add]
  dsimp at hchange
  omega

lemma setEntry (h : Counted (bump rest f) descriptors w) (hentry : (w.table.entry i).file = none)
    (flags : BitVec 32) : Counted rest descriptors (w.setEntry i ⟨some f, flags⟩) := by
  intro g
  have hcount : references w.file g = _ := h g
  have hchange := slotsIn_setEntry w i ⟨some f, flags⟩ g
  rw [hentry, toNat_some_beq] at hchange
  change references w.file g = _
  rw [bump_eq_add] at hcount
  dsimp at hchange
  omega

lemma createFile (h : Counted rest todo w) (hfree : w.file f = none)
    (node : Nat) : Counted (bump rest f) todo (w.createFile f node) := by
  intro g
  have hcount : references w.file g = _ := h g
  change weigh File.referenceCount (update w.file f _ g) = w.table.slotsIn todo g + _
  by_cases hg : g = f
  · subst hg
    rw [references_eq_zero.mpr hfree] at hcount
    rw [update_self, bump_self]
    dsimp only [weigh]
    omega
  · rw [update_of_ne hg, bump_of_ne _ hg]
    exact hcount

lemma referenceFile (h : Counted rest todo w) (hlive : w.file f ≠ none) :
    ∃ w', w.referenceFile f = .ok w' ∧ w'.table = w.table ∧ Counted (bump rest f) todo w' := by
  obtain ⟨old, hold⟩ := Option.ne_none_iff_exists'.mp hlive
  have hrun : w.referenceFile f = .ok (w.setFile f (some
      ⟨old.referenceCount + 1, old.node, Nat.succ_pos _⟩)) := by
    unfold World.referenceFile World.find
    rw [hold]
    rfl
  refine ⟨_, hrun, rfl, fun g => ?_⟩
  have hcount : weigh File.referenceCount (w.file g) = _ := h g
  change weigh File.referenceCount (update w.file f _ g) = w.table.slotsIn todo g + _
  by_cases hg : g = f
  · subst hg
    rw [hold] at hcount
    rw [update_self, bump_self]
    dsimp only [weigh] at hcount ⊢
    omega
  · rw [update_of_ne hg, bump_of_ne _ hg]
    exact hcount

end World.Counted

/-- The call returns and the counts are right. -/
def World.Keeps (rest : Nat → Nat) (outcome : Except Stop (Result × World)) :
    Prop :=
  ∃ result w', outcome = .ok (result, w') ∧ w'.table.lock = none ∧ World.Counted rest descriptors w'

namespace World.Counted

variable {rest : Nat → Nat} {w : World} {f : Nat}

lemma unchanged {result : Result} (h : Counted rest descriptors w)
    (hlock : w.table.lock = none) : Keeps rest (.ok (result, w)) :=
  ⟨result, w, rfl, hlock, h⟩

lemma validFlags_and (flags : BitVec 32) : validFlags (flags &&& oCloexec) = true := by
  unfold validFlags
  rw [BitVec.and_assoc]
  exact beq_iff_eq.mpr BitVec.and_zero

section

variable (h : Counted rest descriptors w)

include h

section

variable (hlock : w.table.lock = none)

include hlock

lemma sysOpen {node : Nat} {writable : Bool} (hfree : w.file f = none)
    (flags : BitVec 32) (hspares : writable = true ∨ w.table.firstFree = none) :
    Keeps rest (w.sysOpen f node flags writable) := by
  have hnew := h.createFile hfree node
  have hvalid := validFlags_and flags
  have hlock' : (w.createFile f node).table.lock = none := hlock
  unfold World.sysOpen
  cases hfirst : w.table.firstFree with
  | none =>
    have hfull : (w.createFile f node).table.firstFree = none := hfirst
    obtain ⟨w', hclose, htable, hcounted⟩ := hnew.closeFile
    rw [World.createFd_full hlock' hvalid hfull, ok_bind]
    dsimp only
    rw [hclose]
    exact ⟨_, w', rfl, htable ▸ hlock', hcounted⟩
  | some i =>
    have hwritable : writable = true := by
      rcases hspares with hwritable | hfull
      · exact hwritable
      · cases hfirst.symm.trans hfull
    have hfirst' : (w.createFile f node).table.firstFree = some i := hfirst
    obtain ⟨file, hfind⟩ := World.find_live hnew.live
    rw [World.createFd_free hlock' hvalid hfirst', hfind, ok_bind, ok_bind]
    dsimp only
    rw [if_pos hwritable]
    exact ⟨_, _, rfl, hlock, hnew.setEntry (FdTable.firstFree_eq_some.mp hfirst).1 _⟩

lemma dupFd {oldfd : Int} (hspares : w.lookup oldfd = none ∨ w.table.firstFree = none) :
    Keeps rest (w.dupFd oldfd) := by
  cases hold : w.lookup oldfd with
  | none =>
    rw [dupFd_bad hlock hold]
    exact h.unchanged hlock
  | some f =>
    rcases hspares with hnone | hfull
    · cases hold.symm.trans hnone
    · rw [dupFd_full hlock hold hfull]
      exact h.unchanged hlock

lemma dupFd2 {oldfd newfd : Int} {flags : BitVec 32}
    (hspares : validFlags flags = false ∨ w.lookup oldfd = none ∨ oldfd = newfd) :
    Keeps rest (w.dupFd2 oldfd newfd flags) := by
  cases hflags : validFlags flags with
  | false =>
    rw [dupFd2_invalid hflags]
    exact h.unchanged hlock
  | true =>
    cases hold : w.lookup oldfd with
    | none =>
      rw [dupFd2_bad hlock hflags hold]
      exact h.unchanged hlock
    | some f =>
      rcases hspares with hinvalid | hnone | rfl
      · cases hflags.symm.trans hinvalid
      · cases hold.symm.trans hnone
      · rw [dupFd2_same hlock hflags hold]
        exact h.unchanged hlock

lemma sysClose (fd : BitVec 32) : Keeps rest (w.sysClose fd) := by
  cases hfd : w.lookup fd.toInt with
  | none =>
    rw [sysClose_bad hlock hfd]
    exact h.unchanged hlock
  | some f =>
    obtain ⟨i, hfirst⟩ := firstFd_of_lookup hfd
    have hentry := (FdTable.firstFd_eq_some.mp hfirst).1
    rw [beq_iff_eq] at hentry
    obtain ⟨w', hclose, htable, hcounted⟩ := (h.clearEntry hentry).closeFile
    rw [sysClose_good hlock hfd hfirst, hclose]
    have hlock' : (w.clearEntry i).table.lock = none := hlock
    exact ⟨_, w', rfl, htable ▸ hlock', hcounted⟩

end

end

lemma execFrom (todo : List (Fin procMaxFd)) (h : Counted rest descriptors w)
    (hlock : w.table.lock = none) : Keeps rest (execFrom todo w) := by
  induction todo generalizing w with
  | nil =>
    unfold execFrom
    rw [releaseMutex_abstracted hlock]
    exact h.unchanged hlock
  | cons i todo ih =>
    unfold execFrom
    split
    · exact ih h hlock
    · rename_i f hentry
      split
      · exact ih h hlock
      · obtain ⟨w', hclose, htable, hcounted⟩ := (h.clearEntry hentry).closeFile
        rw [hclose]
        have hlock' : (w.clearEntry i).table.lock = none := hlock
        exact ih hcounted (htable ▸ hlock')

lemma handleExecFd (h : Counted rest descriptors w)
    (hlock : w.table.lock = none) : Keeps rest w.handleExecFd := by
  unfold World.handleExecFd
  rw [World.acquireMutex_abstracted hlock]
  exact h.execFrom descriptors hlock

lemma mapFile (h : Counted rest descriptors w) (hlock : w.table.lock = none) (fd : Int) :
    (w.mapFile fd = .ok (.error .ebadf, w)) ∨ ∃ f w', w.mapFile fd = .ok (.ok f, w') ∧
    w'.table.lock = none ∧ Counted (bump rest f) descriptors w' := by
  unfold World.mapFile
  rw [World.getFileFromFd_abstracted hlock, ok_bind]
  cases hfd : w.lookup fd with
  | none => exact .inl rfl
  | some f =>
    obtain ⟨i, _, hentry⟩ := Option.bind_eq_some_iff.mp hfd
    have hlive := h.live_of_entry (mem_descriptors i) hentry
    obtain ⟨w', hrun, htable, hcounted⟩ := h.referenceFile hlive
    refine .inr ⟨f, w', ?_, htable ▸ hlock, hcounted⟩
    dsimp only [Option.elim_some]
    rw [hrun]
    rfl

/-- `DestroyFdTable` gives back the references of the slots it has passed. -/
lemma closeAll (todo : List (Fin procMaxFd)) (h : Counted rest todo w) :
    ∃ w', closeAll todo w = .ok w' ∧ w'.table = w.table ∧ Counted rest [] w' := by
  induction todo generalizing w with
  | nil => exact ⟨w, rfl, rfl, h⟩
  | cons i todo ih =>
    unfold closeAll
    split
    · rename_i hentry
      refine ih fun g => ?_
      have hcount := h g
      unfold FdTable.slotsIn at hcount
      rw [List.countP_cons, hentry] at hcount
      exact hcount
    · rename_i f hentry
      have hbump : Counted (bump rest f) todo w := by
        intro g
        have hcount := h g
        unfold FdTable.slotsIn at hcount
        rw [List.countP_cons, hentry] at hcount
        have hone : (if (some f == some g) = true then 1 else 0) = bump (fun _ => 0) f g := by
          rw [← toNat_some_beq]
          cases some f == some g <;> rfl
        rw [hone] at hcount
        rw [bump_eq_add, hcount]
        unfold FdTable.slotsIn
        omega
      obtain ⟨w₁, hclose, htable, hcounted⟩ := hbump.closeFile
      obtain ⟨w', hrun, htable', hdone⟩ := ih hcounted
      exact ⟨w', by rw [hclose]; exact hrun, htable'.trans htable, hdone⟩

end World.Counted

/-- Every file counts its slots and its mappings. -/
structure State.Balanced (s : State) : Prop where
  count : ∀ f, references s.file f = s.slots f + s.mappings f
  bounded : ∀ t, s.memorySize < t → s.table t = none
  abstracted : ∀ t table, s.table t = some table → table.lock = none

/-- The references to a file that do not come from one table. -/
def State.others (s : State) (t f : Nat) : Nat :=
  (s.setTable t none).slots f + s.mappings f

lemma State.slots_setTable (s : State) {t : Nat} (ht : t ≤ s.memorySize)
    (table : Option FdTable) (f : Nat) :
    (s.setTable t table).slots f = (s.setTable t none).slots f +
        weigh (fun table => table.slotsIn descriptors f) table := by
  have hnew := tally_update ht
    (fun _ (table : FdTable) => table.slotsIn descriptors f) s.table table
  have hold := tally_update ht (fun _ (table : FdTable) => table.slotsIn descriptors f) s.table none
  change (s.setTable t table).slots f + _ = s.slots f + _ at hnew
  change (s.setTable t none).slots f + _ = s.slots f + 0 at hold
  omega

namespace State.Balanced

variable {s : State} {t : Nat} {table : FdTable} {mappings : Nat → Nat}

lemma le_memorySize (h : s.Balanced) (htable : s.table t = some table) : t ≤ s.memorySize := by
  by_contra hlt
  cases htable.symm.trans (h.bounded t (Nat.lt_of_not_le hlt))

lemma counted (h : s.Balanced) (htable : s.table t = some table) :
    World.Counted (s.others t) descriptors ⟨table, s.file⟩ := by
  intro f
  have hcount := h.count f
  have hsame : s.setTable t (some table) = s := by
    unfold State.setTable
    rw [← htable, update_eq_self]
  have hslots := s.slots_setTable (h.le_memorySize htable) (some table) f
  rw [hsame] at hslots
  dsimp only [weigh, State.others] at hslots ⊢
  omega

/-- One table, the files and the mappings change together. -/
lemma put (h : s.Balanced) (ht : t ≤ s.memorySize) {table : Option FdTable}
    {file : Nat → Option File} (hlock : ∀ new, table = some new → new.lock = none)
    (hcount : ∀ f, references file f =
      weigh (fun table => table.slotsIn descriptors f) table +
        ((s.setTable t none).slots f + mappings f)) : State.Balanced { s.setTable t table with
      file := file, mappings := mappings } where
  count := by
    intro f
    have hslots := s.slots_setTable ht table f
    rw [hcount f]
    change _ = (s.setTable t table).slots f + mappings f
    omega
  bounded := by
    intro u hu
    have hne : u ≠ t := by
      rintro rfl
      exact absurd ht (Nat.not_le_of_lt hu)
    exact (update_of_ne hne ..).trans (h.bounded u hu)
  abstracted := by
    intro u new hnew
    change update s.table t table u = some new at hnew
    by_cases hu : u = t
    · subst hu
      rw [update_self] at hnew
      exact hlock new hnew
    · rw [update_of_ne hu] at hnew
      exact h.abstracted u new hnew

section

variable (h : s.Balanced) {act : World → Except Stop (Result × World)}

include h

/-- A call has left the table and the files so. -/
lemma putBack (ht : t ≤ s.memorySize) {w : World} (hlock : w.table.lock = none)
    (hcounted : World.Counted (fun f => (s.setTable t none).slots f + mappings f) descriptors w) :
    State.Balanced { s.setTable t (some w.table) with
      file := w.file, mappings := mappings } := by
  refine h.put ht (fun new hnew => ?_) fun f => ?_
  · cases hnew
    exact hlock
  · exact hcounted f

lemma call (hact : ∀ table, s.table t = some table → World.Keeps (s.others t)
      (act ⟨table, s.file⟩)) : ∃ result s', s.call t act = .ok (result, s') ∧ s'.Balanced := by
  unfold State.call
  cases htable : s.table t with
  | none => exact ⟨_, s, rfl, h⟩
  | some table =>
    obtain ⟨result, w, hrun, hlock, hcounted⟩ := hact table htable
    dsimp only
    rw [hrun]
    exact ⟨result, _, rfl, h.putBack (h.le_memorySize htable) hlock hcounted⟩

lemma createFdTable (ht : t ≤ s.memorySize) (hfree : s.table t = none) :
    (s.setTable t (some (Files.createFdTable none))).Balanced := by
  refine h.put ht ?_ fun f => ?_
  · intro new hnew
    cases hnew
    rfl
  · have hsame : s.setTable t none = s := by
      unfold State.setTable
      rw [← hfree, update_eq_self]
    have hempty : (Files.createFdTable none).slotsIn descriptors f = 0 :=
      List.countP_eq_zero.mpr fun i _ => Bool.false_ne_true
    rw [hsame]
    dsimp only [weigh]
    rw [hempty, Nat.zero_add]
    exact h.count f

lemma destroyFdTable (htable : s.table t = some table) :
    ∃ w, World.destroyFdTable ⟨table, s.file⟩ = .ok w ∧ State.Balanced
    { s.setTable t none with file := w.file } := by
  have hlock := h.abstracted t table htable
  obtain ⟨w, hrun, htable', hcounted⟩ := (h.counted htable).closeAll
  have hdestroy : World.destroyFdTable ⟨table, s.file⟩ = .ok w := by
    unfold World.destroyFdTable
    rw [World.acquireMutex_abstracted hlock, ok_bind, hrun, ok_bind,
      World.releaseMutex_abstracted (htable' ▸ hlock)]
  refine ⟨w, hdestroy, h.put (h.le_memorySize htable) ?_ hcounted⟩
  intro new hnew
  cases hnew

lemma mapFile (htable : s.table t = some table) (fd : Int) :
    ∃ s', (Event.mapFile t fd).step s = .ok s' ∧ s'.Balanced := by
  have hlock := h.abstracted t table htable
  have ht := h.le_memorySize htable
  dsimp only [Event.step]
  unfold State.call
  rw [htable]
  dsimp only
  rcases (h.counted htable).mapFile hlock fd with hbad | ⟨f, w, hrun, hlock', hcounted⟩
  · rw [hbad]
    exact ⟨_, rfl, h.putBack ht hlock (h.counted htable)⟩
  · rw [hrun]
    have hbumped : World.Counted (fun g => (s.setTable t none).slots g + bump s.mappings f g)
        descriptors w := by
      intro g
      have hcount := hcounted g
      rw [World.Counted.bump_eq_add] at hcount
      dsimp only
      rw [World.Counted.bump_eq_add s.mappings, hcount]
      exact congrArg _ (Nat.add_assoc ..)
    exact ⟨_, rfl, h.putBack ht hlock' hbumped⟩

lemma of_call
    (hact : ∀ table, s.table t = some table → World.Keeps (s.others t) (act ⟨table, s.file⟩)) :
    ∃ s', Prod.snd <$> s.call t act = .ok s' ∧ s'.Balanced := by
  obtain ⟨result, s', hrun, hbalanced⟩ := h.call hact
  exact ⟨s', by rw [hrun]; rfl, hbalanced⟩

/-- A step that spares the counts is carried out and keeps them right. -/
lemma step {event : Event} (hallowed : event.allowed s = true) (hspares : event.spares s = true) :
    ∃ s', event.step s = .ok s' ∧ s'.Balanced := by
  cases event with
  | createFdTable t =>
    dsimp only [Event.allowed] at hallowed
    rw [Bool.and_eq_true, decide_eq_true_iff, Option.isNone_iff_eq_none] at hallowed
    exact ⟨_, rfl, h.createFdTable hallowed.1 hallowed.2⟩
  | sysOpen t f node flags writable =>
    refine h.of_call fun table htable => (h.counted htable).sysOpen
      (h.abstracted t table htable) (Option.isNone_iff_eq_none.mp hallowed) flags ?_
    dsimp only [Event.spares] at hspares
    rw [htable, Option.all_some, Bool.or_eq_true, Option.isNone_iff_eq_none] at hspares
    exact hspares
  | dupFd t oldfd =>
    refine h.of_call fun table htable => (h.counted htable).dupFd (h.abstracted t table htable) ?_
    dsimp only [Event.spares] at hspares
    rw [htable, Option.all_some, Bool.or_eq_true, Option.isNone_iff_eq_none,
      Option.isNone_iff_eq_none] at hspares
    exact hspares
  | dupFd2 t oldfd newfd flags =>
    refine h.of_call fun table htable => (h.counted htable).dupFd2 (h.abstracted t table htable) ?_
    dsimp only [Event.spares] at hspares
    rw [htable, Option.all_some, Bool.or_eq_true, Bool.or_eq_true,
      Option.isNone_iff_eq_none, decide_eq_true_iff, Bool.not_eq_true', or_assoc] at hspares
    exact hspares
  | sysClose t fd =>
    exact h.of_call fun table htable => (h.counted htable).sysClose (h.abstracted t table htable) fd
  | handleExecFd t =>
    exact h.of_call fun table htable =>
      (h.counted htable).handleExecFd (h.abstracted t table htable)
  | destroyFdTable t =>
    dsimp only [Event.step]
    cases htable : s.table t with
    | none => exact ⟨s, rfl, h⟩
    | some table =>
      obtain ⟨w, hrun, hbalanced⟩ := h.destroyFdTable htable
      dsimp only
      rw [hrun]
      exact ⟨_, rfl, hbalanced⟩
  | mapFile t fd =>
    cases htable : s.table t with
    | none =>
      refine ⟨s, ?_, h⟩
      dsimp only [Event.step, State.call]
      rw [htable]
      rfl
    | some table => exact h.mapFile htable fd

end

lemma start (memorySize : Nat) : (State.start memorySize).Balanced where
  count := fun _ => (tally_zero memorySize).symm
  bounded := fun _ _ => rfl
  abstracted := by
    intro t table htable
    cases htable

lemma run {memorySize : Nat} {events : List Event}
    (hrun : Run (State.Step Event.spares) (State.start memorySize) events s) : s.Balanced := by
  refine hrun.invariant (start memorySize) ?_
  rintro state event next hbalanced ⟨hallowed, hspares, hstep⟩
  obtain ⟨next', hstep', hnext⟩ := hbalanced.step hallowed hspares
  cases hstep.symm.trans hstep'
  exact hnext

end State.Balanced

/-- As long as no descriptor is duplicated and every new descriptor can be
reported, a file counts its slots and mappings, is freed when there are none
left, and no call meets a file that has been freed. -/
theorem run_file_references {memorySize : Nat} {events : List Event} {s : State}
    (hrun : Run (State.Step Event.spares) (State.start memorySize) events s) :
    (∀ f, references s.file f = s.slots f + s.mappings f) ∧
    (∀ f, s.file f = none ↔ s.slots f + s.mappings f = 0) ∧ ∀ event :
    Event, event.allowed s = true → event.spares s = true → ∃ s', event.step s = .ok s' := by
  have hbalanced := State.Balanced.run hrun
  refine ⟨hbalanced.count, fun f => ?_, fun event hallowed hspares => ?_⟩
  · rw [← hbalanced.count f, references_eq_zero]
  · obtain ⟨s', hstep, _⟩ := hbalanced.step hallowed hspares
    exact ⟨s', hstep⟩

/-- A file that is opened, mapped and closed. -/
def openMapClose : List Event :=
  [.createFdTable 1, .sysOpen 1 5 7 0 true, .mapFile 1 0, .sysClose 1 0]

lemma ready_step (guard : State → Event → Bool) (s : State) (event : Event)
    (s' : State) (hready : (event.allowed s && guard s event) = true)
    (hstep : event.step s = .ok s') : State.Step guard s event s' := by
  rw [Bool.and_eq_true] at hready
  exact ⟨hready.1, hready.2, hstep⟩

theorem openMapClose_file_references :
    ∃ s, Run (State.Step Event.spares) (State.start 1) openMapClose s ∧
    references s.file 5 = s.slots 5 + s.mappings 5 ∧ references s.file 5 = 1 := by
  obtain ⟨s, hrun, htest⟩ := exists_run_of_carryOut (ready_step Event.spares)
    (State.start 1) openMapClose (fun s => references s.file 5 == 1) (by decide +kernel)
  exact ⟨s, hrun, (run_file_references hrun).1 5, beq_iff_eq.mp htest⟩

/-- A descriptor is opened and duplicated. -/
def openDup : List Event :=
  [.createFdTable 1, .sysOpen 1 5 7 0 true, .dupFd 1 0]

/-- Two slots hold the file that counts one.  Closing one of the descriptors
frees it, and closing the other meets the file that has been freed. -/
theorem dup_file_not_counted :
    (∃ s, Run (State.Step fun _ _ => true) (State.start 1) openDup s ∧
      references s.file 5 = 1 ∧ s.slots 5 + s.mappings 5 = 2) ∧
    ∃ s, Run (State.Step fun _ _ => true) (State.start 1) (openDup ++ [.sysClose 1 0]) s ∧
      s.file 5 = none ∧ s.slots 5 + s.mappings 5 = 1 ∧
      (Event.sysClose 1 1).step s = .error (.useAfterFree 5) := by
  constructor
  · obtain ⟨s, hrun, htest⟩ := exists_run_of_carryOut
      (ready_step fun _ _ => true) (State.start 1) openDup
      (fun s => references s.file 5 == 1 && s.slots 5 + s.mappings 5 == 2) (by decide +kernel)
    rw [Bool.and_eq_true, beq_iff_eq, beq_iff_eq] at htest
    exact ⟨s, hrun, htest⟩
  · obtain ⟨s, hrun, htest⟩ := exists_run_of_carryOut
      (ready_step fun _ _ => true) (State.start 1) (openDup ++ [.sysClose 1 0])
      (fun s => (s.file 5).isNone && s.slots 5 + s.mappings 5 == 1 &&
        failure ((Event.sysClose 1 1).step s) == some (.useAfterFree 5)) (by decide +kernel)
    rw [Bool.and_eq_true, Bool.and_eq_true, beq_iff_eq, beq_iff_eq,
      Option.isNone_iff_eq_none, and_assoc] at htest
    exact ⟨s, hrun, htest.1, htest.2.1, eq_error_of_failure htest.2.2⟩

end Merlon.Files
