/-
Pipes, from `kernel/dev/pipe.c` and `DereferenceFile` of
`kernel/vfs/openfile.c`.  A pipe is a mailbox and a flag: the flag is set when
the file at either end dies, and from then on no access gets to the mailbox,
whatever is left in it.  An access moves its bytes in pieces, between which
other accesses may run.
-/
import Merlon.Library.Machine
import Merlon.Sync.MailboxQueue

namespace Merlon.Pipes

open Bool List

open Function (update update_self update_apply update_of_ne)

def pipeSize : Nat := 2048

/-- `CHUNK_SIZE` of `MailboxAccess`. -/
def chunkSize : Nat := 256

/-- The two files of a pipe. -/
inductive End where
  | read
  | write
  deriving DecidableEq

/-- What an access still has to do: to read, with what it has got so far, or to
write. -/
inductive Transfer where
  | read (lengthRemaining : Nat) (moved : List UInt8)
  | write (data : List UInt8)
  deriving DecidableEq

def Transfer.lengthRemaining : Transfer → Nat
  | .read lengthRemaining _ => lengthRemaining
  | .write data => data.length

/-- A call of `MailboxAccess` that has not returned. -/
structure Access where
  serial : Nat
  transfer : Transfer
  doneAny : Bool
  deriving DecidableEq

def Access.writes (access : Access) : Bool :=
  match access.transfer with
  | .read _ _ => false
  | .write _ => true

/-- A pipe with the reference counts of its two files and the accesses in
progress.  Every byte carries the number of the access that wrote it.  What
was added, what was read, which accesses have returned, the bytes of completed
writes when the file for writing died, and what had been read at each end of
file are recorded. -/
structure Pipe where
  mbox : List (Nat × UInt8)
  broken : Bool
  references : End → Nat
  accesses : List Access
  serial : Nat
  added : List (Nat × UInt8)
  got : List UInt8
  completed : List Nat
  closed : Option (List UInt8)
  endsOfFile : List (List UInt8)

/-- How a call of `MailboxAddMany` or `MailboxGetMany` for one piece ends: it
moves no byte and fails, or it moves some.  `copied` says whether what was got
could be copied to the reader. -/
inductive Outcome where
  | failed
  | moved (count : Nat) (copied : Bool)
  deriving DecidableEq

namespace Pipe

/-- `CreatePipe`, with a file for each end. -/
def createPipe : Pipe where
  mbox := []
  broken := false
  references := fun _ => 1
  accesses := []
  serial := 0
  added := []
  got := []
  completed := []
  closed := none
  endsOfFile := []

/-- The bytes whose write has completed, in the order in which they were
added. -/
def completedBytes (p : Pipe) : List UInt8 :=
  (p.added.filter fun byte => p.completed.contains byte.1).map Prod.snd

def referenceFile (p : Pipe) (e : End) : Pipe :=
  { p with references := update p.references e (p.references e + 1) }

/-- `DereferenceFile`, and `BreakPipe` with the last reference. -/
def dereferenceFile (p : Pipe) (e : End) : Pipe :=
  let dereferenced := { p with
    references := update p.references e (p.references e - 1) }
  if p.references e = 1 then
    { dereferenced with
      broken := true
      closed := if e = .write then some p.completedBytes else p.closed }
  else dereferenced

/-- A read begins: on a broken pipe it returns no bytes, and for no bytes it
only looks whether there are some. -/
def beginRead (p : Pipe) (length : Nat) : Pipe :=
  if p.broken then
    { p with
      endsOfFile := p.endsOfFile ++ if length = 0 then [] else [p.got] }
  else if length = 0 then p
  else
    { p with
      accesses := p.accesses ++ [⟨p.serial, .read length [], false⟩]
      serial := p.serial + 1 }

/-- A write begins: on a broken pipe it fails with `EPIPE`. -/
def beginWrite (p : Pipe) (data : List UInt8) : Pipe :=
  if p.broken then p
  else if data = [] then p
  else
    { p with
      accesses := p.accesses ++ [⟨p.serial, .write data, false⟩]
      serial := p.serial + 1 }

/-- `MailboxAccess` returns. -/
def finish (p : Pipe) (index : Nat) (access : Access) : Pipe :=
  let returned := { p with
    accesses := p.accesses.eraseIdx index
    completed := access.serial :: p.completed }
  match access.transfer with
  | .read _ [] =>
    if access.doneAny then
      { returned with endsOfFile := p.endsOfFile ++ [p.got] }
    else returned
  | _ => returned

/-- The access goes on with what is left to do, if anything is. -/
def proceed (p : Pipe) (index : Nat) (access : Access) : Pipe :=
  if access.transfer.lengthRemaining = 0 then p.finish index access
  else { p with accesses := p.accesses.set index access }

/-- One round of the loop of `MailboxAccess`. -/
def access (p : Pipe) (index : Nat) (outcome : Outcome) : Pipe :=
  match p.accesses[index]?, outcome with
  | none, _ => p
  | some access, .failed => p.finish index access
  | some access, .moved count copied =>
    match access.transfer with
    | .write data =>
      let bytes := (data.take count).map fun byte => (access.serial, byte)
      proceed { p with
          mbox := p.mbox ++ bytes
          added := p.added ++ bytes }
        index ⟨access.serial, .write (data.drop count), true⟩
    | .read lengthRemaining moved =>
      let bytes := (p.mbox.take count).map Prod.snd
      let taken := { p with mbox := p.mbox.drop count }
      if copied then
        proceed { taken with got := p.got ++ bytes } index
          ⟨access.serial, .read (lengthRemaining - count) (moved ++ bytes), true⟩
      else taken.proceed index ⟨access.serial, access.transfer, true⟩

end Pipe

inductive Event where
  | referenceFile (e : End)
  | dereferenceFile (e : End)
  | beginRead (length : Nat)
  | beginWrite (data : List UInt8)
  | access (index : Nat) (outcome : Outcome)

namespace Event

def run (p : Pipe) : Event → Pipe
  | .referenceFile e => p.referenceFile e
  | .dereferenceFile e => p.dereferenceFile e
  | .beginRead length => p.beginRead length
  | .beginWrite data => p.beginWrite data
  | .access index outcome => p.access index outcome

/-- A file is used as long as it lives, and a piece is not larger than the
mailbox, what is left to do and the buffer allow. -/
def possible (p : Pipe) : Event → Bool
  | .referenceFile e => decide (0 < p.references e)
  | .dereferenceFile e => decide (0 < p.references e)
  | .beginRead _ => decide (0 < p.references .read)
  | .beginWrite _ => decide (0 < p.references .write)
  | .access _ .failed => true
  | .access index (.moved count _) =>
    p.accesses[index]?.all fun access =>
      decide (0 < count ∧ count ≤ chunkSize ∧ count ≤ access.transfer.lengthRemaining ∧
        if access.writes then p.mbox.length + count ≤ pipeSize
        else count ≤ p.mbox.length)

/-- A read begins on a broken pipe only when nothing is left in it; when the
file for writing dies nobody is writing; and what is got can be copied. -/
def delivers (p : Pipe) : Event → Bool
  | .dereferenceFile .write =>
    decide (p.references .write ≠ 1) || p.accesses.all fun access => !access.writes
  | .beginRead length => !p.broken || decide (length = 0) || p.mbox.isEmpty
  | .access index (.moved _ copied) => p.accesses[index]?.all fun access => access.writes || copied
  | _ => true

end Event

def Pipe.Step (guard : Pipe → Event → Bool) (p : Pipe) (event : Event) (p' : Pipe) : Prop :=
  (event.possible p && guard p event) = true ∧ event.run p = p'

/-- An access that has read something has moved it. -/
abbrev Access.Moved (access : Access) : Prop :=
  ∀ lengthRemaining moved, access.transfer = .read lengthRemaining moved →
    access.doneAny = true → moved ≠ []

namespace Pipe

variable {p : Pipe} {index : Nat} {e : End}

/-- What is in the pipe is what was added and not read; every byte is from a
write that has completed or is in progress; when the file for writing is dead
nobody writes; and at every end of file all had been read that was written
before it died. -/
structure Sound (p : Pipe) : Prop where
  fifo : p.added.map Prod.snd = p.got ++ p.mbox.map Prod.snd
  written : ∀ byte ∈ p.added, byte.1 ∈ p.completed ∨
    ∃ access ∈ p.accesses, access.writes = true ∧ access.serial = byte.1
  closed : ∀ bytes, p.closed = some bytes → p.references .write = 0 ∧
    (∀ access ∈ p.accesses, access.writes = false) ∧ bytes = p.added.map Prod.snd
  dead : p.references .write = 0 → p.closed.isSome = true
  broken : p.broken = true → p.references .read = 0 ∨ p.references .write = 0
  reading : ∀ access ∈ p.accesses, ∀ lengthRemaining moved,
    access.transfer = .read lengthRemaining moved → access.doneAny = true → moved ≠ []
  endsOfFile : ∀ bytes ∈ p.endsOfFile, p.closed = some bytes

/-- An access other than the one at `index`. -/
lemma getElem?_of_mem_ne {old other : Access}
    (hold : p.accesses[index]? = some old) (hmem : other ∈ p.accesses)
    (hne : other ≠ old) : ∃ j, j ≠ index ∧ p.accesses[j]? = some other := by
  obtain ⟨j, hj⟩ := mem_iff_getElem?.mp hmem
  refine ⟨j, ?_, hj⟩
  rintro rfl
  exact hne (Option.some.inj (hj.symm.trans hold))

section

variable (h : p.Sound)
include h

/-- The accesses change, and none is lost that writes. -/
lemma Sound.accesses {accesses : List Access} {completed : List Nat}
    (hkept : ∀ access ∈ p.accesses, access.writes = true →
      access.serial ∈ completed ∨ ∃ after ∈ accesses,
        after.writes = true ∧ after.serial = access.serial)
    (hmore : ∀ serial ∈ p.completed, serial ∈ completed)
    (hnew : ∀ access ∈ accesses, (access.writes = true →
        ∃ before ∈ p.accesses, before.writes = true) ∧ access.Moved) :
    Sound { p with accesses := accesses, completed := completed } where
  __ := h
  written byte hbyte := by
    rcases h.written byte hbyte with hdone | ⟨access, hmem, hwrites, hserial⟩
    · exact .inl (hmore _ hdone)
    · rw [← hserial]
      exact hkept access hmem hwrites
  closed bytes hclosed := by
    obtain ⟨hdead, hnone, hbytes⟩ := h.closed bytes hclosed
    refine ⟨hdead, fun access hmem => ?_, hbytes⟩
    refine eq_false_iff.mpr fun hwrites => ?_
    obtain ⟨before, hbefore, hwriting⟩ := (hnew access hmem).1 hwrites
    rw [hnone before hbefore] at hwriting
    cases hwriting
  reading access hmem := (hnew access hmem).2

lemma Sound.finish {old access : Access}
    (hold : p.accesses[index]? = some old) (hserial : access.serial = old.serial)
    (hreading : access.Moved) : (p.finish index access).Sound := by
  have hreturned : Sound { p with
      accesses := p.accesses.eraseIdx index
      completed := access.serial :: p.completed } := by
    refine h.accesses (fun other hmem hwrites => ?_)
      (fun serial hmem => mem_cons_of_mem _ hmem) (fun other hmem => ?_)
    · by_cases hsame : other = old
      · rw [hsame, ← hserial]
        exact .inl mem_cons_self
      · exact .inr ⟨other, mem_eraseIdx_iff_getElem?.mpr
          (getElem?_of_mem_ne hold hmem hsame), hwrites, rfl⟩
    · have hbefore := mem_of_mem_eraseIdx hmem
      exact ⟨fun hwrites => ⟨other, hbefore, hwrites⟩, h.reading other hbefore⟩
  unfold Pipe.finish
  split
  · rename_i lengthRemaining htransfer
    split
    · rename_i hdone
      exact absurd rfl (hreading lengthRemaining [] htransfer hdone)
    · exact hreturned
  · exact hreturned

lemma Sound.proceed {old access : Access} (hold : p.accesses[index]? = some old)
    (hserial : access.serial = old.serial) (hwrites : access.writes = old.writes)
    (hreading : access.Moved) : (p.proceed index access).Sound := by
  unfold Pipe.proceed
  split
  · exact h.finish hold hserial hreading
  · obtain ⟨hindex, _⟩ := List.getElem?_eq_some_iff.mp hold
    refine h.accesses (fun other hmem hother => ?_) (fun serial hmem => hmem) (fun other hmem => ?_)
    · by_cases hsame : other = old
      · refine .inr ⟨access, mem_set hindex _, ?_, ?_⟩
        · rw [hwrites, ← hsame, hother]
        · rw [hserial, hsame]
      · obtain ⟨j, hne, hj⟩ := getElem?_of_mem_ne hold hmem hsame
        refine .inr ⟨other, mem_iff_getElem?.mpr ⟨j, ?_⟩, hother, rfl⟩
        rw [List.getElem?_set_ne (Ne.symm hne)]
        exact hj
    · rcases mem_or_eq_of_mem_set hmem with hbefore | rfl
      · exact ⟨fun hother => ⟨other, hbefore, hother⟩, h.reading other hbefore⟩
      · refine ⟨fun hother => ⟨old, mem_of_getElem? hold, ?_⟩, hreading⟩
        rw [← hwrites, hother]

/-- A piece is added by an access that writes. -/
lemma Sound.add {old : Access} (hold : p.accesses[index]? = some old)
    (hwrites : old.writes = true) (data : List UInt8) : Sound { p with
      mbox := p.mbox ++ data.map fun byte => (old.serial, byte)
      added := p.added ++ data.map fun byte => (old.serial, byte) } where
  __ := h
  fifo := by
    dsimp only
    rw [map_append, map_append, h.fifo, append_assoc]
  written byte hbyte := by
    rcases mem_append.mp hbyte with hbyte | hbyte
    · exact h.written byte hbyte
    · obtain ⟨_, _, rfl⟩ := mem_map.mp hbyte
      exact .inr ⟨old, mem_of_getElem? hold, hwrites, rfl⟩
  closed bytes hclosed := by
    have hnone := (h.closed bytes hclosed).2.1 old (mem_of_getElem? hold)
    rw [hwrites] at hnone
    cases hnone

/-- A piece is got and copied. -/
lemma Sound.get (count : Nat) : Sound { p with
      mbox := p.mbox.drop count
      got := p.got ++ (p.mbox.take count).map Prod.snd } where
  __ := h
  fifo := by
    dsimp only
    rw [append_assoc, ← map_append, take_append_drop, h.fifo]

end

/-- The mailbox of a pipe, call by call, has the bytes of the pipe. -/
def Backed (p : Pipe) (k : Sync.System) : Prop :=
  k.queue = p.mbox.map Prod.snd

/-- What a step of a call of the mailbox does to the pipe, one round of the
loop of `MailboxAccess` does too: nothing, or a piece is added or got. -/
lemma Backed.step {k k' : Sync.System} {event : Sync.Event} {idle : Nat}
    {initial : Nat → Int} (h : p.Backed k) (hsound : k.Sound idle initial)
    (hallowed : event.Allowed idle initial k) (hstep : event.step k = .ok k') (serial : Nat) :
    p.Backed k' ∨ (∃ data : List UInt8, Backed { p with
        mbox := p.mbox ++ data.map fun byte => (serial, byte)
        added := p.added ++ data.map fun byte => (serial, byte) } k') ∨
      ∃ count, Backed { p with
        mbox := p.mbox.drop count
        got := p.got ++ (p.mbox.take count).map Prod.snd } k' := by
  unfold Backed at h ⊢
  rcases (Sync.System.step_queue hsound hallowed hstep).2 with
    hsame | ⟨data, hadded⟩ | ⟨count, hgot, _⟩
  · exact .inl (hsame.trans h)
  · refine .inr (.inl ⟨data, ?_⟩)
    rw [hadded, map_append, map_map]
    congr 1
    exact (map_id data).symm
  · refine .inr (.inr ⟨count, ?_⟩)
    rw [hgot, h, map_drop]

section

variable (h : p.Sound)
include h

lemma Sound.access {outcome : Outcome} (hpossible : (Event.access index outcome).possible p = true)
    (hdelivers : (Event.access index outcome).delivers p = true) :
    (p.access index outcome).Sound := by
  unfold Pipe.access
  cases hold : p.accesses[index]? with
  | none => exact h
  | some old =>
    cases outcome with
    | failed => exact h.finish hold rfl (h.reading old (mem_of_getElem? hold))
    | moved count copied =>
      dsimp only [Event.possible, Event.delivers] at hpossible hdelivers
      rw [hold, Option.all_some] at hpossible hdelivers
      obtain ⟨hpos, _, _, hfits⟩ := of_decide_eq_true hpossible
      cases htransfer : old.transfer with
      | write data =>
        have hwrites : old.writes = true := by
          unfold Access.writes
          rw [htransfer]
        dsimp only
        rw [htransfer]
        refine (h.add hold hwrites _).proceed hold rfl hwrites.symm ?_
        intro _ _ hread
        cases hread
      | read lengthRemaining moved =>
        have hreads : old.writes = false := by
          unfold Access.writes
          rw [htransfer]
        rw [hreads, Bool.false_or] at hdelivers
        rw [hreads, if_neg Bool.false_ne_true] at hfits
        dsimp only
        rw [htransfer]
        dsimp only
        rw [if_pos hdelivers]
        refine (h.get count).proceed hold rfl hreads.symm ?_
        rintro _ _ hread _ rfl
        have hempty := congrArg length
          (append_eq_nil_iff.mp (Transfer.read.inj hread).2).2
        rw [length_map, length_take, length_nil] at hempty
        omega

/-- An access begins. -/
lemma Sound.begin {access : Access} (hdone : access.doneAny = false)
    (hwrites : access.writes = true → 0 < p.references .write) (serial : Nat) :
    Sound { p with accesses := p.accesses ++ [access], serial := serial } where
  __ := h
  written byte hbyte := by
    rcases h.written byte hbyte with hcompleted | ⟨before, hmem, hbefore⟩
    · exact .inl hcompleted
    · exact .inr ⟨before, mem_append_left _ hmem, hbefore⟩
  closed bytes hclosed := by
    obtain ⟨hdead, hnone, hbytes⟩ := h.closed bytes hclosed
    refine ⟨hdead, fun other hmem => ?_, hbytes⟩
    rcases mem_append.mp hmem with hmem | hmem
    · exact hnone other hmem
    · rw [mem_singleton.mp hmem]
      refine eq_false_iff.mpr fun hwriting => ?_
      have hlive := hwrites hwriting
      omega
  reading other hmem lengthRemaining moved htransfer hother := by
    rcases mem_append.mp hmem with hmem | hmem
    · exact h.reading other hmem lengthRemaining moved htransfer hother
    · rw [mem_singleton.mp hmem, hdone] at hother
      cases hother

lemma Sound.beginRead {length : Nat} (hpossible : (Event.beginRead length).possible p = true)
    (hdelivers : (Event.beginRead length).delivers p = true) : (p.beginRead length).Sound := by
  unfold Pipe.beginRead
  split
  · rename_i hbroken
    refine { h with endsOfFile := ?_ }
    intro bytes hbytes
    rcases List.mem_append.mp hbytes with hbytes | hbytes
    · exact h.endsOfFile bytes hbytes
    · split at hbytes
      · cases hbytes
      · rename_i hlength
        rw [List.mem_singleton.mp hbytes]
        dsimp only [Event.delivers] at hdelivers
        rw [hbroken, decide_eq_false hlength, Bool.not_true, Bool.false_or,
          Bool.false_or, List.isEmpty_iff] at hdelivers
        have hlive := of_decide_eq_true hpossible
        have hdead := (h.broken hbroken).resolve_left (Nat.ne_of_gt hlive)
        obtain ⟨all, hall⟩ := Option.isSome_iff_exists.mp (h.dead hdead)
        have hread := h.fifo
        rw [hdelivers, List.map_nil, List.append_nil] at hread
        rw [hall, (h.closed all hall).2.2, hread]
  · split
    · exact h
    · refine h.begin rfl (fun hwrites => ?_) _
      cases hwrites

lemma Sound.beginWrite {data : List UInt8}
    (hpossible : (Event.beginWrite data).possible p = true) : (p.beginWrite data).Sound := by
  unfold Pipe.beginWrite
  split
  · exact h
  · split
    · exact h
    · exact h.begin rfl (fun _ => of_decide_eq_true hpossible) _

/-- When nobody is writing, every byte that was added is from a write that has
completed. -/
lemma Sound.completedBytes_eq (hnone : ∀ access ∈ p.accesses, access.writes = false) :
    p.completedBytes = p.added.map Prod.snd := by
  unfold completedBytes
  rw [filter_eq_self.mpr]
  intro byte hbyte
  rcases h.written byte hbyte with hdone | ⟨access, hmem, hwrites, _⟩
  · exact contains_iff_mem.mpr hdone
  · rw [hnone access hmem] at hwrites
    cases hwrites

/-- The counts change, and no file dies or comes to life again. -/
lemma Sound.recount {references : End → Nat} (hzero : ∀ e, references e = 0 ↔ p.references e = 0) :
    Sound { p with references := references } where
  __ := h
  closed bytes hclosed :=
    ⟨(hzero .write).mpr (h.closed bytes hclosed).1, (h.closed bytes hclosed).2⟩
  dead hdead := h.dead ((hzero .write).mp hdead)
  broken hbroken := (h.broken hbroken).imp (hzero .read).mpr (hzero .write).mpr

lemma Sound.referenceFile (hpossible : (Event.referenceFile e).possible p = true) :
    (p.referenceFile e).Sound := by
  have hlive : 0 < p.references e := of_decide_eq_true hpossible
  refine h.recount fun other => ?_
  rw [update_apply]
  split
  · rename_i hsame
    rw [hsame]
    omega
  · rfl

/-- The last reference to the file of one end goes. -/
lemma Sound.dies (hlast : p.references e = 1)
    (hdelivers : (Event.dereferenceFile e).delivers p = true) : Sound { p with
      references := update p.references e (p.references e - 1)
      broken := true
      closed := if e = .write then some p.completedBytes else p.closed } := by
  have hdead : update p.references e (p.references e - 1) e = 0 := by rw [update_self, hlast]
  cases e with
  | read =>
    rw [if_neg (by decide)]
    have hsame : update p.references .read (p.references .read - 1)
        .write = p.references .write := update_of_ne (by decide) ..
    refine ⟨h.fifo, h.written, ?_, ?_, fun _ => .inl hdead, h.reading, h.endsOfFile⟩
    · dsimp only
      rw [hsame]
      exact h.closed
    · dsimp only
      rw [hsame]
      exact h.dead
  | write =>
    have hnone : ∀ access ∈ p.accesses, access.writes = false := by
      dsimp only [Event.delivers] at hdelivers
      rw [hlast, decide_eq_false (by decide), Bool.false_or, all_eq_true] at hdelivers
      exact fun access hmem => Bool.not_eq_true' _ ▸ hdelivers access hmem
    have hopen : p.closed = none := by
      cases hclosed : p.closed with
      | none => rfl
      | some bytes =>
        have hzero := (h.closed bytes hclosed).1
        omega
    rw [if_pos rfl]
    refine ⟨h.fifo, h.written, ?_, fun _ => rfl, fun _ => .inr hdead, h.reading, ?_⟩
    · intro bytes hbytes
      refine ⟨hdead, hnone, ?_⟩
      rw [← Option.some.inj hbytes]
      exact h.completedBytes_eq hnone
    · intro bytes hbytes
      have hclosed := h.endsOfFile bytes hbytes
      rw [hopen] at hclosed
      cases hclosed

lemma Sound.dereferenceFile (hpossible : (Event.dereferenceFile e).possible p = true)
    (hdelivers : (Event.dereferenceFile e).delivers p = true) : (p.dereferenceFile e).Sound := by
  unfold Pipe.dereferenceFile
  split
  · rename_i hlast
    exact h.dies hlast hdelivers
  · refine h.recount fun other => ?_
    rw [update_apply]
    split
    · rename_i hsame
      rw [hsame]
      omega
    · rfl

end

lemma Sound.createPipe : Pipe.createPipe.Sound where
  fifo := rfl
  written := nofun
  closed := nofun
  dead := nofun
  broken := nofun
  reading := nofun
  endsOfFile := nofun

lemma Sound.step (h : p.Sound) {event : Event} (hpossible : event.possible p = true)
    (hdelivers : event.delivers p = true) : (event.run p).Sound := by
  cases event with
  | referenceFile e => exact h.referenceFile hpossible
  | dereferenceFile e => exact h.dereferenceFile hpossible hdelivers
  | beginRead length => exact h.beginRead hpossible hdelivers
  | beginWrite data => exact h.beginWrite hpossible
  | access index outcome => exact h.access hpossible hdelivers

lemma Sound.run {events : List Event}
    (hrun : Run (Step Event.delivers) Pipe.createPipe events p) : p.Sound := by
  refine hrun.invariant Sound.createPipe ?_
  rintro state event _ hsound ⟨hguard, rfl⟩
  obtain ⟨hpossible, hdelivers⟩ := and_eq_true_iff.mp hguard
  exact hsound.step hpossible hdelivers

end Pipe

/-- As long as a broken pipe is read only when it is empty, nobody is writing
when the file for writing dies and what is got can be copied, everything has
been read at every end of file whose write had completed when that file
died. -/
theorem run_pipe_delivers {events : List Event} {p : Pipe}
    (hrun : Run (Pipe.Step Event.delivers) Pipe.createPipe events p) :
    ∀ bytes ∈ p.endsOfFile, p.closed = some bytes :=
  (Pipe.Sound.run hrun).endsOfFile

lemma ready_step (guard : Pipe → Event → Bool) (p : Pipe) (event : Event)
    (p' : Pipe) (hready : (event.possible p && guard p event) = true)
    (hstep : (.ok (event.run p) : Except Unit Pipe) = .ok p') : Pipe.Step guard p event p' :=
  ⟨hready, Except.ok.inj hstep⟩

/-- Two bytes are written and read in two pieces before the file for writing
dies. -/
def readInTime : List Event :=
  [.beginWrite [1, 2], .access 0 (.moved 2 true), .beginRead 5, .access 0 (.moved 1 true),
    .access 0 (.moved 1 true), .access 0 .failed, .dereferenceFile .write, .beginRead 5]

theorem readInTime_delivers : ∃ p, Run (Pipe.Step Event.delivers) Pipe.createPipe readInTime p ∧
    p.endsOfFile = [[1, 2]] ∧ ∀ bytes ∈ p.endsOfFile, p.closed = some bytes :=
  exists_run_and (ready_step _) (fun hrun _ => run_pipe_delivers hrun) (by decide)

/-- A byte is written, the file for writing dies, and then the pipe is read. -/
def readTooLate : List Event :=
  [.beginWrite [1], .access 0 (.moved 1 true), .dereferenceFile .write, .beginRead 5]

/-- The byte is still in the pipe when the reader is told that there is no
more. -/
theorem readTooLate_loses_byte : ∃ p,
    Run (Pipe.Step fun _ _ => true) Pipe.createPipe readTooLate p ∧
    p.endsOfFile = [[]] ∧ p.closed = some [1] ∧ p.mbox = [(0, 1)] :=
  exists_run_test (ready_step _) (by decide)

end Merlon.Pipes
