/-
A mailbox is a bounded queue of bytes.  Every unit of its semaphores that is
taken belongs to a call that is under way or to a byte that is stored, which
bounds the bytes a call may move, whatever the calls and their order.
-/
import Merlon.Sync.Mailbox

namespace Merlon.Sync

open Threads List Mailbox Session Phase
open Function (update update_self update_apply update_of_ne update_eq_self update_eq_self_iff)

variable {role : Role} {timeoutMs : Int}

/-! The ring against the queue. -/

/-- The mailbox stores the bytes of the queue, in order. -/
structure Mailbox.Holds (mbox : Mailbox) (queue : List UInt8) : Prop where
  used : mbox.usedSize = queue.length
  fits : queue.length ≤ mbox.totalSize
  start : 0 < mbox.totalSize → mbox.startPos < mbox.totalSize
  endPos : mbox.endPos = (mbox.startPos + queue.length) % mbox.totalSize
  contents : Ring.contents mbox.data mbox.totalSize mbox.startPos queue.length = queue

namespace Mailbox.Holds

variable {mbox : Mailbox} {queue : List UInt8}

lemma put (h : mbox.Holds queue) (hroom : queue.length < mbox.totalSize)
    (c : UInt8) : (mbox.put c).Holds (queue ++ [c]) where
  used := by simp [Mailbox.put, h.used]
  fits := by
    rw [length_append]
    exact hroom
  start := h.start
  endPos := by
    change (mbox.endPos + 1) % mbox.totalSize =
      (mbox.startPos + (queue ++ [c]).length) % mbox.totalSize
    rw [h.endPos, Nat.mod_add_mod, length_append, length_singleton, Nat.add_assoc]
  contents := by
    rw [length_append]
    change Ring.contents (update mbox.data mbox.endPos c)
      mbox.totalSize mbox.startPos (queue.length + 1) = _
    rw [h.endPos, Ring.contents_push hroom, h.contents]

lemma putAll (bytes : List UInt8) (h : mbox.Holds queue)
    (hroom : queue.length + bytes.length ≤ mbox.totalSize) :
    (mbox.putAll bytes).Holds (queue ++ bytes) := by
  induction bytes generalizing mbox queue with
  | nil => simpa [putAll] using h
  | cons c rest ih =>
    rw [length_cons] at hroom
    have hput := h.put (by omega) c
    have hlast := ih hput (by
      rw [length_append, length_singleton]
      change _ ≤ mbox.totalSize
      omega)
    rwa [append_assoc] at hlast

lemma next {c : UInt8} (h : mbox.Holds (c :: queue)) :
    mbox.next.1 = c ∧ mbox.next.2.Holds queue := by
  have hfits := h.fits
  rw [length_cons] at hfits
  have hstart := h.start (by omega)
  have hcontents := h.contents
  rw [length_cons, Ring.contents_pop hstart] at hcontents
  obtain ⟨hhead, htail⟩ := cons.inj hcontents
  refine ⟨hhead, ?_, ?_, ?_, ?_, htail⟩
  · have hused := h.used
    rw [length_cons] at hused
    simp only [Mailbox.next]
    omega
  · change queue.length ≤ mbox.totalSize
    omega
  · exact Nat.mod_lt _
  · change mbox.endPos = ((mbox.startPos + 1) % mbox.totalSize + queue.length) % mbox.totalSize
    rw [h.endPos, Nat.mod_add_mod, length_cons, Nat.add_assoc, Nat.add_comm 1]

lemma nextAll (count : Nat) (h : mbox.Holds queue) (hcount : count ≤ queue.length) :
    (mbox.nextAll count).1 = queue.take count ∧
    (mbox.nextAll count).2.Holds (queue.drop count) := by
  induction count generalizing mbox queue with
  | zero => exact ⟨rfl, h⟩
  | succ count ih =>
    cases queue with
    | nil => simp at hcount
    | cons c rest =>
      obtain ⟨hbyte, hnext⟩ := h.next
      obtain ⟨hbytes, hlast⟩ := ih hnext (Nat.le_of_succ_le_succ hcount)
      refine ⟨?_, hlast⟩
      change mbox.next.1 :: (mbox.next.2.nextAll count).1 = _
      rw [hbyte, hbytes, take_succ_cons]

end Mailbox.Holds

/-! The units of the semaphores. -/

/-- The five semaphores by what they are for.  The side that takes its units
from a semaphore names it; the other side gives units to it. -/
inductive Role where
  | mtx (side : Side)
  | take (side : Side)
  | inner
  deriving DecidableEq

def Side.other : Side → Side
  | .add => .get
  | .get => .add

namespace Mailbox

def sem (mbox : Mailbox) : Role → Nat
  | .mtx side => mbox.mtx side
  | .take side => mbox.takeSem side
  | .inner => mbox.innerMtx

section

variable (mbox : Mailbox)

lemma sem_mtx (side : Side) : mbox.sem (.mtx side) = mbox.mtx side :=
  rfl

lemma sem_take (side : Side) : mbox.sem (.take side) = mbox.takeSem side :=
  rfl

lemma sem_inner : mbox.sem .inner = mbox.innerMtx :=
  rfl

lemma giveSem_eq (side : Side) : mbox.giveSem side = mbox.sem (.take side.other) := by
  cases side <;> rfl

end

/-- `max_count` as `MailboxCreate` sets it. -/
def maxCount (mbox : Mailbox) : Role → Nat
  | .mtx _ | .inner => 1
  | .take _ => mbox.totalSize

/-- The units that belong to what is stored: a byte keeps a cell from being
empty, and a free cell keeps it from being full. -/
def stored (mbox : Mailbox) : Role → Int
  | .mtx _ | .inner => 0
  | .take .add => mbox.usedSize
  | .take .get => mbox.totalSize - mbox.usedSize

end Mailbox

namespace Phase

/-- The mutex of the call's side is held. -/
def mutex : Phase → Nat
  | .locking | .giving _ => 0
  | _ => 1

/-- Units taken for bytes that are not moved yet. -/
def taken : Phase → Nat
  | .gathered count | .grabbing count | .enough count | .entering count
  | .inside count => count
  | _ => 0

/-- Bytes moved whose units are not given yet. -/
def owed : Phase → Nat
  | .unlocking count | .giving count => count
  | _ => 0

def innermost : Phase → Nat
  | .inside _ => 1
  | _ => 0

/-- The acquisition that the call waits for, or is to return from. -/
def acquiring (side : Side) (timeoutMs : Int) : Phase → Option (Role × Int)
  | .locking => some (.mtx side, timeoutMs)
  | .taking => some (.take side, timeoutMs)
  | .grabbing _ => some (.take side, 0)
  | .entering _ => some (.inner, -1)
  | _ => none

end Phase

/-- The call has moved `count` bytes; one that adds has moved the first bytes
of its buffer. -/
def Request.Moves (request : Request) (moved : List UInt8) (count : Nat) :
    Prop :=
  moved.length = count ∧ (request.side = .add → moved = request.bytes count)

lemma Request.moves_nil (request : Request) : request.Moves [] 0 := by
  refine ⟨rfl, fun _ => ?_⟩
  cases request <;> rfl

namespace Activity

def held (activity : Activity) : Role → Nat
  | .mtx side => if activity.request.side = side then activity.phase.mutex else 0
  | .take side =>
    if activity.request.side = side then activity.phase.taken
    else activity.phase.owed
  | .inner => activity.phase.innermost

def acquiring (activity : Activity) : Option (Role × Int) :=
  activity.phase.acquiring activity.request.side activity.request.timeoutMs

/-- A call that only waits takes one unit and moves nothing; the others move
as many bytes as they have units. -/
def Sound (activity : Activity) : Prop :=
  let request := activity.request
  match activity.phase with
  | .locking | .locked | .taking | .refused _ => activity.moved = []
  | .gathered count => activity.moved = [] ∧ 0 < count ∧ (request.limit = none → count = 1)
  | .grabbing count | .enough count | .entering count | .inside count =>
    activity.moved = [] ∧ 0 < count ∧ request.limit ≠ none
  | .unlocking count => request.Moves activity.moved count ∧
      (request.limit = none → count = 0) ∧ (request.limit ≠ none → 0 < count)
  | .giving count => request.Moves activity.moved count ∧ 0 < count

end Activity

def heldBy (role : Role) : Option Activity → Nat
  | none => 0
  | some activity => activity.held role

/-- What the kernel's session says about a thread agrees with its call. -/
def Agrees (mbox : Mailbox) (target : Option (Nat × Int)) : Option Activity → Prop
  | none => ∀ role timeoutMs, target ≠ some (mbox.sem role, timeoutMs)
  | some activity => target = activity.acquiring.map (fun wanted => (mbox.sem wanted.1, wanted.2))

structure Accounts (idle : Nat) (initial : Nat → Int) (session : Session)
    (mbox : Mailbox) (activity : Nat → Option Activity) : Prop where
  order : session.InOrder idle initial
  patient : session.Patient
  distinct : Function.Injective mbox.sem
  max : ∀ role, session.kernel.maxCount (mbox.sem role) = mbox.maxCount role
  agrees : ∀ thread, Agrees mbox (session.target thread) (activity thread)
  units : ∀ role, session.delivered (mbox.sem role) =
    tally session.kernel.threadCount (fun thread =>
      heldBy role (activity thread)) + mbox.stored role
  sound : ∀ thread a, activity thread = some a → a.Sound

namespace Accounts

variable {idle : Nat} {initial : Nat → Int} {session session' : Session}
  {mbox mbox' : Mailbox} {activity : Nat → Option Activity}

/-- One thread takes its call a step further. -/
lemma change (h : Accounts idle initial session mbox activity)
    (horder : session'.InOrder idle initial)
    (hfixed : Session.Fixed session session') (hsem : mbox'.sem = mbox.sem)
    (hsize : mbox'.totalSize = mbox.totalSize) {thread : Nat}
    (hthread : thread ≤ session.kernel.threadCount)
    {activity' : Option Activity} (amount : Role → Int)
    (hdelivered : ∀ role, session'.delivered (mbox.sem role) =
      session.delivered (mbox.sem role) + amount role)
    (hothers : ∀ other, other ≠ thread → session'.target other = session.target other)
    (hself : Agrees mbox (session'.target thread) activity')
    (hunits : ∀ role, amount role + heldBy role (activity thread) +
      mbox.stored role = heldBy role activity' + mbox'.stored role)
    (hsound : ∀ a, activity' = some a → a.Sound) :
    Accounts idle initial session' mbox' (update activity thread activity') where
  order := horder
  patient := hfixed.patient h.patient
  distinct := hsem ▸ h.distinct
  max role := by
    rw [hfixed.max, hsem, h.max]
    cases role <;> simp [maxCount, hsize]
  agrees other := by
    have hagrees : ∀ target a, Agrees mbox target a → Agrees mbox' target a := by
      intro target a ha
      cases a with
      | none => simpa [Agrees, hsem] using ha
      | some a => simpa [Agrees, hsem] using ha
    by_cases hne : other = thread
    · subst hne
      rw [update_self]
      exact hagrees _ _ hself
    · rw [update_of_ne hne, hothers other hne]
      exact hagrees _ _ (h.agrees other)
  units role := by
    have htally := tally_change (fun thread => heldBy role (activity thread))
      (fun other => heldBy role (update activity thread activity' other)) hthread
      fun other hne => by rw [update_of_ne hne]
    rw [update_self] at htally
    have hold := h.units role
    have hnew := hdelivered role
    have hrole := hunits role
    rw [hfixed.threads, hsem]
    omega
  sound other a ha := by
    by_cases hne : other = thread
    · subst hne
      rw [update_self] at ha
      exact hsound a ha
    · rw [update_of_ne hne] at ha
      exact h.sound other a ha

section

variable (h : Accounts idle initial session mbox activity)

include h

/-- The current thread does something that has to do with no call. -/
lemma unchanged (horder : session'.InOrder idle initial) (hfixed : Session.Fixed session session')
    (hdelivered : ∀ role, session'.delivered (mbox.sem role) = session.delivered (mbox.sem role))
    (hothers : ∀ other, other ≠ session.current → session'.target other = session.target other)
    (hself : Agrees mbox (session'.target session.current) (activity session.current)) :
    Accounts idle initial session' mbox activity := by
  have hchange := h.change horder hfixed rfl rfl (current_le h.order) (fun _ => 0)
    (fun role => by rw [hdelivered, Int.add_zero]) hothers hself
    (fun role => by rw [Int.zero_add]) (h.sound _)
  rwa [update_eq_self] at hchange

/-- A unit that a call holds is a unit that is taken. -/
lemma held_le {thread : Nat} (hthread : thread ≤ session.kernel.threadCount) (role : Role) :
    heldBy role (activity thread) + mbox.stored role ≤ session.kernel.currentCount (mbox.sem role) ∧
    heldBy role (activity thread) + mbox.stored role ≤ mbox.maxCount role := by
  have hunits := h.units role
  have hbounds := delivered_le h.order (mbox.sem role)
  have hle := le_tally (fun thread => heldBy role (activity thread)) hthread
  rw [h.max role] at hbounds
  omega

lemma current_le : session.current ≤ session.kernel.threadCount := Session.current_le h.order

/-- The current thread calls `AcquireSemaphore`. -/
lemma acquire (hmay : session.MayBlock idle) (a : Activity) (hacquiring : a.acquiring = some (role, timeoutMs))
    (hheld : ∀ other, heldBy other (activity session.current) = a.held other)
    (hsound : a.Sound) :
    ∃ session', (Call.acquire (mbox.sem role) timeoutMs).step session =
        .ok session' ∧
      Accounts idle initial session' mbox
        (update activity session.current (some a)) := by
  obtain ⟨session', hstep, horder, hfixed, hdelivered, htarget⟩ :=
    acquire_effect h.order hmay (mbox.sem role) timeoutMs
  refine ⟨session', hstep, h.change horder hfixed rfl rfl h.current_le (fun _ => 0) ?_ ?_ ?_ ?_ ?_⟩
  · intro other
    rw [hdelivered, Int.add_zero]
  · intro other hne
    rw [htarget, update_of_ne hne]
  · rw [htarget, update_self, Agrees, hacquiring]
    rfl
  · intro other
    rw [hheld, heldBy, Int.zero_add]
  · rintro _ ⟨⟩
    exact hsound

/-- The current thread returns from `AcquireSemaphore`. -/
lemma return_ (hpostponed : session.kernel.postponedTaskSwitch = false)
    {a : Activity} (hactivity : activity session.current = some a) (hacquiring : a.acquiring = some (role, timeoutMs))
    (next : Option Activity) (hnext : ∀ b, next = some b → b.acquiring = none)
    (hheld : ∀ other, a.held other +
      (if other = role ∧ acquireResult (session.kernel.thread session.current)
        timeoutMs = .success then 1 else 0) = heldBy other next)
    (hsound : ∀ b, next = some b → b.Sound) :
    ∃ session', Call.return_.step session = .ok session' ∧
      Accounts idle initial session' mbox
        (update activity session.current next) := by
  have hagrees := h.agrees session.current
  rw [hactivity, Agrees, hacquiring] at hagrees
  obtain ⟨session', hstep, horder, hfixed, hdelivered, htarget⟩ :=
    return_effect h.order hpostponed
  refine ⟨session', hstep, h.change horder hfixed rfl rfl h.current_le
    (fun other => if other = role ∧ acquireResult (session.kernel.thread
      session.current) timeoutMs = .success then 1 else 0) ?_ ?_ ?_ ?_ hsound⟩
  · intro other
    rw [hdelivered]
    by_cases hrole : other = role
    · subst hrole
      rw [undelivered_eq h.order hpostponed hagrees]
      simp only [true_and]
      split_ifs <;> rfl
    · have hne : mbox.sem other ≠ mbox.sem role := fun heq => hrole (h.distinct heq)
      rw [undelivered_of_target hagrees hne]
      simp [hrole]
  · intro other hne
    rw [htarget, update_of_ne hne]
  · rw [htarget]
    cases hcase : next with
    | none => simp [Agrees]
    | some b => simp [Agrees, hnext b hcase]
  · intro other
    have hother := hheld other
    rw [hactivity, heldBy, ← hother]
    split_ifs <;> omega

/-- The current thread gives units back that it holds. -/
lemma giveBack {a : Activity} (hactivity : activity session.current = some a)
    (hacquiring : a.acquiring = none) (hsem : mbox'.sem = mbox.sem)
    (hsize : mbox'.totalSize = mbox.totalSize) {next : Option Activity}
    (hnext : ∀ b, next = some b → b.acquiring = none)
    {count : Nat} (hheld : ∀ other, (a.held other : Int) + mbox.stored other =
      heldBy other next + mbox'.stored other +
        if other = role then (count : Int) else 0)
    (hsound : ∀ b, next = some b → b.Sound)
    (horder : session'.InOrder idle initial)
    (heffect : Session.HandsOver (mbox.sem role) count session session') :
    Accounts idle initial session' mbox' (update activity session.current next) := by
  have hagrees := h.agrees session.current
  rw [hactivity, Agrees, hacquiring] at hagrees
  refine h.change horder heffect.fixed hsem hsize h.current_le
    (fun other => -if other = role then (count : Int) else 0) ?_ ?_ ?_ ?_ hsound
  · intro other
    rw [heffect.delivered, Int.sub_eq_add_neg]
    by_cases hrole : other = role
    · simp [hrole]
    · simp [hrole, h.distinct.ne hrole]
  · intro other _
    rw [heffect.target]
  · rw [heffect.target, hagrees]
    cases hcase : next with
    | none => simp [Agrees]
    | some b => simp [Agrees, hnext b hcase]
  · intro other
    have hother := hheld other
    rw [hactivity, heldBy]
    omega

end

end Accounts

lemma Mailbox.putAll_fixed (mbox : Mailbox) (bytes : List UInt8) :
    (mbox.putAll bytes).sem = mbox.sem ∧ (mbox.putAll bytes).totalSize = mbox.totalSize := by
  induction bytes generalizing mbox with
  | nil => exact ⟨rfl, rfl⟩
  | cons c rest ih =>
    obtain ⟨hsem, hsize⟩ := ih (mbox.put c)
    refine ⟨hsem.trans ?_, hsize⟩
    funext role
    rcases role with (_ | _) | (_ | _) | _ <;> rfl

lemma Mailbox.nextAll_fixed (mbox : Mailbox) (count : Nat) :
    (mbox.nextAll count).2.sem = mbox.sem ∧ (mbox.nextAll count).2.totalSize = mbox.totalSize := by
  induction count generalizing mbox with
  | zero => exact ⟨rfl, rfl⟩
  | succ count ih =>
    obtain ⟨hsem, hsize⟩ := ih mbox.next.2
    refine ⟨Eq.trans hsem ?_, hsize⟩
    funext role
    rcases role with (_ | _) | (_ | _) | _ <;> rfl

namespace System

/-- The bytes moved by the calls of one side. -/
def log (k : System) : Side → List UInt8
  | .add => k.addedBytes
  | .get => k.gotBytes

/-- The bytes that a call has moved stand together in the log of its side. -/
def Logged (log moved : List UInt8) : Prop :=
  ∃ before after, log = before ++ moved ++ after

lemma Logged.nil (log : List UInt8) : Logged log [] := ⟨log, [], by simp⟩

lemma Logged.append {log moved : List UInt8} (h : Logged log moved)
    (rest : List UInt8) : Logged (log ++ rest) moved := by
  obtain ⟨before, after, rfl⟩ := h
  exact ⟨before, after ++ rest, by simp⟩

structure Sound (idle : Nat) (initial : Nat → Int) (k : System) : Prop where
  accounts : Accounts idle initial k.session k.mbox k.activity
  queue : ∃ queue, k.mbox.Holds queue ∧ k.addedBytes = k.gotBytes ++ queue
  logged : ∀ thread a, k.activity thread = some a → Logged (k.log a.request.side) a.moved
  finished : ∀ f ∈ k.finished, f.request.Moves f.moved f.added ∧
    Logged (k.log f.request.side) f.moved

end System

/-- A thread begins a call when it runs and is in none, and goes on with it
when it runs again.  What else happens leaves the mailbox's semaphores
alone. -/
def Event.Allowed (idle : Nat) (initial : Nat → Int) (k : System) : Event → Prop
  | .begin _ => k.session.MayBlock idle ∧ k.activity k.current = none
  | .resume => ∃ a, k.activity k.current = some a ∧
      if a.acquiring.isSome then
        k.session.kernel.postponedTaskSwitch = false
      else k.session.MayBlock idle
  | .other call => call.Allowed idle initial k.session ∧
      match call with
      | .acquire sem _ => k.activity k.current = none ∧ ∀ role, k.mbox.sem role ≠ sem
      | .return_ | .sleep _ => k.activity k.current = none
      | .release sem => ∀ role, k.mbox.sem role ≠ sem
      | .wakeups | .timer _ | .signal _ _ | .schedule => True

lemma Mailbox.Holds.stored_nonneg {mbox : Mailbox} {queue : List UInt8}
    (h : mbox.Holds queue) (role : Role) : 0 ≤ mbox.stored role := by
  have hused := h.used
  have hfits := h.fits
  rcases role with _ | (_ | _) | _ <;> simp only [stored] <;> omega

namespace System

variable {idle : Nat} {initial : Nat → Int} {k : System} {created : State × Mailbox} {call : Call}

variable {thread : Nat} {session' : Session}

lemma logged_update {P : Activity → Prop} {activity : Nat → Option Activity}
    (h : ∀ thread a, activity thread = some a → P a) {next : Option Activity}
    (hnext : ∀ a, next = some a → P a) :
    ∀ other a, update activity thread next other = some a → P a := by
  intro other a ha
  rw [update_apply] at ha
  split at ha
  · exact hnext a ha
  · exact h other a ha

/-- The call returns and leaves a sound system. -/
def Resumes (idle : Nat) (initial : Nat → Int) (outcome : Except Stop System) :
    Prop :=
  ∃ k', outcome = .ok k' ∧ k'.Sound idle initial

/-- A step that moves no bytes. -/
lemma Sound.quiet (h : k.Sound idle initial) {next : Activity}
    (haccounts : Accounts idle initial session' k.mbox (update k.activity thread (some next)))
    (hlogged : Logged (k.log next.request.side) next.moved) : Sound idle initial { k with
      session := session'
      activity := update k.activity thread (some next) } :=
  ⟨haccounts, h.queue, logged_update h.logged (by rintro _ ⟨⟩; exact hlogged), h.finished⟩

/-- A step that has to do with no call. -/
lemma Sound.aside (h : k.Sound idle initial)
    (haccounts : Accounts idle initial session' k.mbox k.activity) :
    Sound idle initial { k with session := session' } :=
  ⟨haccounts, h.queue, h.logged, h.finished⟩

lemma call_eq (hstep : call.step k.session = .ok session') :
    k.call call = .ok { k with session := session' } := by
  rw [System.call, hstep, ok_bind]

section

variable (h : k.Sound idle initial)
include h

/-- A call moves its bytes to the ends of the logs and releases a unit. -/
lemma Sound.moved {k₁ : System} (hstep : call.step k₁.session = .ok session') {next : Activity}
    (hlog : ∀ side, ∃ rest, k₁.log side = k.log side ++ rest)
    (haccounts : Accounts idle initial session' k₁.mbox (update k.activity thread (some next)))
    (hqueue : ∃ queue, k₁.mbox.Holds queue ∧ k₁.addedBytes = k₁.gotBytes ++ queue)
    (hnext : Logged (k₁.log next.request.side) next.moved)
    (hactivity : k₁.activity = update k.activity thread (some next))
    (hfinished : k₁.finished = k.finished) : Resumes idle initial (k₁.call call) := by
  have hkeep : ∀ side moved, Logged (k.log side) moved → Logged (k₁.log side) moved := by
    intro side moved hmoved
    obtain ⟨rest, hrest⟩ := hlog side
    rw [hrest]
    exact hmoved.append rest
  refine ⟨_, call_eq hstep, hactivity ▸ haccounts, hqueue, ?_, ?_⟩
  · rw [hactivity]
    exact logged_update (fun other a ha => hkeep _ _ (h.logged other a ha))
      (by rintro _ ⟨⟩; exact hnext)
  · intro f hf
    obtain ⟨hmoves, hold⟩ := h.finished f (hfinished ▸ hf)
    exact ⟨hmoves, hkeep _ _ hold⟩

lemma Sound.finish (session' : Session) (a : Activity) (result : CallResult) {added : Nat}
    (haccounts : Accounts idle initial session' k.mbox (update k.activity thread none))
    (hadded : a.request.Moves a.moved added) (hlogged : Logged (k.log a.request.side) a.moved) :
    Sound idle initial ({ k with session := session' }.finish thread a result added) := by
  refine ⟨haccounts, h.queue, logged_update h.logged (by simp), ?_⟩
  intro f hf
  rcases mem_cons.mp hf with rfl | hf
  · exact ⟨hadded, hlogged⟩
  · exact h.finished f hf

lemma begin_sound (request : Request) (hmay : k.session.MayBlock idle)
    (hactivity : k.activity k.current = none) : Resumes idle initial (k.begin request) := by
  rw [begin]
  split
  · refine ⟨_, rfl, h.finish k.session _ _ ?_ request.moves_nil (.nil _)⟩
    rw [update_eq_self_iff.mpr hactivity.symm]
    exact h.accounts
  · have hheld : ∀ other, heldBy other (k.activity k.session.current) =
        Activity.held ⟨request, .locking, []⟩ other := by
      intro other
      rw [show k.activity k.session.current = none from hactivity]
      rcases other with side | side | _ <;>
        simp [heldBy, Activity.held, mutex, taken, owed, innermost]
    obtain ⟨session', hstep, haccounts⟩ :=
      h.accounts.acquire hmay ⟨request, .locking, []⟩ rfl hheld rfl
    refine ⟨_, ?_, h.quiet haccounts (.nil _)⟩
    rw [show k.call (.acquire (k.mbox.mtx request.side) request.timeoutMs) = _
      from call_eq hstep, ok_bind]
    rfl

end

section Resume

variable {a : Activity} (h : k.Sound idle initial) (hactivity : k.activity k.current = some a)

include h hactivity

lemma acquire_sound (hmay : k.session.MayBlock idle) (phase : Phase)
    (hacquiring : phase.acquiring a.request.side a.request.timeoutMs = some (role, timeoutMs))
    (hheld : ∀ other, a.held other = Activity.held { a with phase := phase } other)
    (hsound : Activity.Sound { a with phase := phase }) : Resumes idle initial (do
      let k' ← k.call (.acquire (k.mbox.sem role) timeoutMs)
      .ok (k'.enter k.current a phase)) := by
  obtain ⟨session', hstep, haccounts⟩ :=
    h.accounts.acquire hmay { a with phase := phase } hacquiring (fun other => by
        rw [show k.activity k.session.current = some a from hactivity]
        exact hheld other) hsound
  rw [call_eq hstep]
  exact ⟨_, rfl, h.quiet haccounts (h.logged _ a hactivity)⟩

lemma return_sound
    (hpostponed : k.session.kernel.postponedTaskSwitch = false) (hacquiring : a.acquiring = some (role, timeoutMs))
    (phase : Phase)
    (hnext : phase.acquiring a.request.side a.request.timeoutMs = none)
    (hheld : ∀ other, a.held other +
        (if other = role ∧ k.result timeoutMs = .success then 1 else 0) =
      Activity.held { a with phase := phase } other)
    (hsound : Activity.Sound { a with phase := phase }) :
    Resumes idle initial (do
      let k' ← k.call .return_
      .ok (k'.enter k.current a phase)) := by
  obtain ⟨session', hstep, haccounts⟩ :=
    h.accounts.return_ hpostponed hactivity hacquiring (some { a with phase := phase })
      (by rintro _ ⟨⟩; exact hnext) hheld (by rintro _ ⟨⟩; exact hsound)
  rw [call_eq hstep]
  exact ⟨_, rfl, h.quiet haccounts (h.logged _ a hactivity)⟩

lemma release_sound (next : Option Activity) (role : Role)
    {mbox' : Mailbox} (hacquiring : a.acquiring = none) (hsem : mbox'.sem = k.mbox.sem)
    (hsize : mbox'.totalSize = k.mbox.totalSize) (hnext : ∀ b, next = some b → b.acquiring = none)
    (hheld : ∀ other, (a.held other : Int) + k.mbox.stored other =
      heldBy other next + mbox'.stored other +
        if other = role then 1 else 0)
    (hsound : ∀ b, next = some b → b.Sound)
    (hpos : 0 < a.held role) (hstored : 0 ≤ k.mbox.stored role) :
    ∃ session', (Call.release (k.mbox.sem role)).step k.session = .ok session' ∧
      Accounts idle initial session' mbox' (update k.activity k.current next) := by
  have hle := (h.accounts.held_le h.accounts.current_le role).1
  rw [show k.activity k.session.current = some a from hactivity, heldBy] at hle
  obtain ⟨session', hstep, horder, heffect⟩ :=
    release_effect h.accounts.order (k.mbox.sem role) (by omega)
  exact ⟨session', hstep, h.accounts.giveBack hactivity hacquiring hsem hsize
    hnext (by simpa using hheld) hsound horder heffect⟩

omit hactivity in
lemma stored_nonneg (role : Role) : 0 ≤ k.mbox.stored role := by
  obtain ⟨queue, hholds, _⟩ := h.queue
  exact hholds.stored_nonneg role

end Resume

@[simp] lemma held_mtx (a : Activity) (side : Side) : a.held (.mtx side) =
      if a.request.side = side then a.phase.mutex else 0 :=
  rfl

@[simp] lemma held_take (a : Activity) (side : Side) : a.held (.take side) =
      if a.request.side = side then a.phase.taken else a.phase.owed :=
  rfl

@[simp] lemma held_inner (a : Activity) : a.held .inner = a.phase.innermost :=
  rfl

/-- A phase that holds the same units. -/
lemma held_congr {a : Activity} {phase : Phase} (hmutex : phase.mutex = a.phase.mutex)
    (htaken : phase.taken = a.phase.taken) (howed : phase.owed = a.phase.owed)
    (hinner : phase.innermost = a.phase.innermost) (role : Role) :
    a.held role = Activity.held { a with phase := phase } role := by
  rcases role with side | side | _ <;> simp [hmutex, htaken, howed, hinner]

/-- The mutex of the call's side is given back and nothing else. -/
lemma held_unlock {a : Activity} {next : Option Activity} (hmutex : a.phase.mutex = 1)
    (hmtx : ∀ side, heldBy (.mtx side) next = 0)
    (htake : ∀ side, heldBy (.take side) next = a.held (.take side))
    (hinner : heldBy .inner next = a.held .inner) (mbox : Mailbox) (role : Role) :
    (a.held role : Int) + mbox.stored role = heldBy role next + mbox.stored role + if role = .mtx
    a.request.side then 1 else 0 := by
  rcases role with side | side | _
  · by_cases hside : a.request.side = side
    · subst hside
      simp [hmtx, hmutex, Int.add_comm]
    · simp [hmtx, hside, Ne.symm hside]
  · simp [htake]
  · simp [hinner]

/-- The mutex of the side is the last thing a call gives back. -/
lemma finish_sound (h : k.Sound idle initial) {a : Activity}
    (hactivity : k.activity k.current = some a) (hacquiring : a.acquiring = none)
    (hmutex : a.phase.mutex = 1) (htake : ∀ side, a.held (.take side) = 0)
    (hinner : a.held .inner = 0) (result : CallResult) {added : Nat}
    (hadded : a.request.Moves a.moved added) : Resumes idle initial (do
      let k' ← k.call (.release (k.mbox.mtx a.request.side))
      .ok (k'.finish k.current a result added)) := by
  have hnothing : ∀ side, heldBy (.take side) none = a.held (.take side) :=
    fun side => (htake side).symm
  obtain ⟨session', hstep, haccounts⟩ := release_sound h hactivity none (.mtx a.request.side)
    hacquiring rfl rfl (by simp) (held_unlock hmutex (fun _ => rfl) hnothing hinner.symm k.mbox)
    (by simp) (by simp [hmutex]) (stored_nonneg h _)
  rw [← sem_mtx, call_eq hstep, ok_bind]
  exact ⟨_, rfl, h.finish session' a result haccounts hadded (h.logged _ a hactivity)⟩

attribute [simp] heldBy Phase.mutex Phase.taken Phase.owed Phase.innermost

/-- The call of the current thread goes on from where it is. -/
def Goes (idle : Nat) (initial : Nat → Int) (k : System) (a : Activity) :
    Prop :=
  k.activity k.current = some a → Resumes idle initial (k.resume a)

section Phases

variable {request : Request} {moved : List UInt8} (h : k.Sound idle initial)

include h

section

variable {count : Nat} (hpostponed : k.session.kernel.postponedTaskSwitch = false)

include hpostponed

lemma resume_locking : k.Goes idle initial ⟨request, .locking, moved⟩ := by
  intro hactivity
  have hmoved : moved = [] := h.accounts.sound _ _ hactivity
  rw [resume]
  by_cases hresult : k.result request.timeoutMs = .success
  · simp only [if_pos hresult]
    exact return_sound h hactivity hpostponed rfl .locked rfl
      (by rintro (side | side | _) <;> simp [hresult, eq_comm]) hmoved
  · have hfailed : ¬ acquireResult (k.session.kernel.thread k.session.current)
        request.timeoutMs = .success := hresult
    obtain ⟨session', hstep, haccounts⟩ :=
      h.accounts.return_ hpostponed hactivity rfl none (by simp)
        (by rintro (side | side | _) <;> simp [hfailed]) (by simp)
    rw [call_eq hstep, ok_bind, if_neg hresult]
    exact ⟨_, rfl, h.finish session' ⟨request, .locking, moved⟩
      (.ofAcquire (k.result request.timeoutMs)) haccounts
      (hmoved ▸ request.moves_nil) (h.logged _ _ hactivity)⟩

lemma resume_taking : k.Goes idle initial ⟨request, .taking, moved⟩ := by
  intro hactivity
  have hmoved : moved = [] := h.accounts.sound _ _ hactivity
  rw [resume]
  by_cases hresult : k.result request.timeoutMs = .success
  · simp only [if_pos hresult]
    exact return_sound h hactivity hpostponed rfl (.gathered 1) rfl
      (by rintro (side | side | _) <;> simp [hresult, eq_comm]) ⟨hmoved, Nat.one_pos, fun _ => rfl⟩
  · simp only [if_neg hresult]
    exact return_sound h hactivity hpostponed rfl (.refused _) rfl
      (by rintro (side | side | _) <;> simp [hresult]) hmoved

lemma resume_grabbing : k.Goes idle initial ⟨request, .grabbing count, moved⟩ := by
  intro hactivity
  obtain ⟨hmoved, hpos, hlimit⟩ := h.accounts.sound _ _ hactivity
  rw [resume]
  by_cases hresult : k.result 0 = .success
  · simp only [if_pos hresult]
    refine return_sound h hactivity hpostponed rfl (.gathered (count + 1)) rfl ?_
      ⟨hmoved, Nat.succ_pos _, fun hnone => absurd hnone hlimit⟩
    rintro (side | side | _)
    · simp
    · by_cases hside : request.side = side
      · simp [hresult, hside]
      · simp [hside, Ne.symm hside]
    · simp
  · simp only [if_neg hresult]
    exact return_sound h hactivity hpostponed rfl (.enough count) rfl
      (by rintro (side | side | _) <;> simp [hresult]) ⟨hmoved, hpos, hlimit⟩

/-- The wait for `inner_mtx` has no timeout, so it ends with the mutex. -/
lemma result_of_entering
    (hactivity : k.activity k.current = some ⟨request, .entering count, moved⟩) :
    k.result (-1) = .success := by
  have hagrees := h.accounts.agrees k.session.current
  rw [show k.activity k.session.current = _ from hactivity] at hagrees
  exact result_of_patient h.accounts.order h.accounts.patient hpostponed hagrees

lemma resume_entering : k.Goes idle initial ⟨request, .entering count, moved⟩ := by
  intro hactivity
  have hresult := result_of_entering h hpostponed hactivity
  have hsound := h.accounts.sound _ _ hactivity
  exact return_sound h hactivity hpostponed rfl (.inside count) rfl
    (by rintro (side | side | _) <;> simp [hresult]) hsound

end

variable {count : Nat}

section

variable (hmay : k.session.MayBlock idle)

include hmay

lemma resume_locked : k.Goes idle initial ⟨request, .locked, moved⟩ := by
  intro hactivity
  have hmoved : moved = [] := h.accounts.sound _ _ hactivity
  exact acquire_sound h hactivity hmay .taking rfl (held_congr rfl rfl rfl rfl) hmoved

lemma resume_enough : k.Goes idle initial ⟨request, .enough count, moved⟩ := by
  intro hactivity
  have hsound := h.accounts.sound _ _ hactivity
  exact acquire_sound h hactivity hmay (.entering count) rfl (held_congr rfl rfl rfl rfl) hsound

lemma resume_gathered : k.Goes idle initial ⟨request, .gathered count, moved⟩ := by
  intro hactivity
  obtain ⟨hmoved, hpos, hone⟩ := h.accounts.sound _ _ hactivity
  have hlogged := h.logged _ _ hactivity
  rw [resume]
  cases hlimit : request.limit with
  | none =>
    have hcount : count = 1 := hone hlimit
    subst hcount
    obtain ⟨session', hstep, haccounts⟩ := release_sound h hactivity
      (some ⟨request, .unlocking 0, moved⟩) (.take request.side) rfl rfl rfl
      (by rintro _ ⟨⟩; rfl) (by
        rintro (side | side | _)
        · simp
        · by_cases hside : request.side = side
          · subst hside
            simp [Int.add_comm]
          · simp [hside, Ne.symm hside]
        · simp)
      (by
        rintro _ ⟨⟩
        exact ⟨hmoved ▸ request.moves_nil, fun _ => rfl, (absurd hlimit)⟩)
      (by simp) (stored_nonneg h _)
    rw [← sem_take, call_eq hstep]
    exact ⟨_, rfl, h.quiet haccounts hlogged⟩
  | some max =>
    dsimp only
    split
    · exact acquire_sound h hactivity hmay (.grabbing count) rfl
        (held_congr rfl rfl rfl rfl) ⟨hmoved, hpos, by simp [hlimit]⟩
    · exact acquire_sound h hactivity hmay (.entering count) rfl
        (held_congr rfl rfl rfl rfl) ⟨hmoved, hpos, by simp [hlimit]⟩

end

lemma resume_refused {result : AcquireResult} :
    k.Goes idle initial ⟨request, .refused result, moved⟩ := by
  intro hactivity
  have hmoved : moved = [] := h.accounts.sound _ _ hactivity
  exact finish_sound h hactivity rfl rfl (by simp) rfl (.ofAcquire result)
    (hmoved ▸ request.moves_nil)

lemma resume_unlocking : k.Goes idle initial ⟨request, .unlocking count, moved⟩ := by
  intro hactivity
  obtain ⟨hmoved, hnone, hsome⟩ := h.accounts.sound _ _ hactivity
  rw [resume]
  dsimp only
  cases hlimit : request.limit with
  | none =>
    have hcount : count = 0 := hnone hlimit
    subst hcount
    exact finish_sound h hactivity rfl rfl (by simp) rfl .success hmoved
  | some max =>
    have hpos : 0 < count := hsome (by simp [hlimit])
    obtain ⟨session', hstep, haccounts⟩ := release_sound h hactivity
      (some ⟨request, .giving count, moved⟩) (.mtx request.side) rfl rfl rfl (by rintro _ ⟨⟩; rfl)
      (held_unlock rfl (by simp) (fun _ => rfl) rfl k.mbox)
      (by rintro _ ⟨⟩; exact ⟨hmoved, hpos⟩) (by simp) (stored_nonneg h _)
    have hlogged := h.logged _ _ hactivity
    rw [← sem_mtx, call_eq hstep]
    exact ⟨_, rfl, h.quiet haccounts hlogged⟩

lemma resume_giving : k.Goes idle initial ⟨request, .giving count, moved⟩ := by
  intro hactivity
  obtain ⟨hmoved, hpos⟩ := h.accounts.sound _ _ hactivity
  have hother : request.side ≠ request.side.other := by cases request.side <;> decide
  have hle := (h.accounts.held_le h.accounts.current_le (.take request.side.other)).1
  have hstored := stored_nonneg h (.take request.side.other)
  rw [show k.activity k.session.current = _ from hactivity, heldBy, held_take, if_neg hother] at hle
  simp only [owed] at hle
  obtain ⟨session', hstep, horder, heffect⟩ := releaseEx_effect h.accounts.order hpos
      (show (count : Int) ≤ k.session.kernel.currentCount
        (k.mbox.sem (.take request.side.other)) by omega)
  have haccounts : Accounts idle initial session' k.mbox
      (update k.activity k.session.current none) := by
    refine h.accounts.giveBack hactivity rfl rfl rfl (by simp) ?_ (by simp) horder heffect
    rintro (side | side | _)
    · simp [heldBy]
    · have hside : side = request.side.other ↔ request.side ≠ side := by
        cases side <;> cases request.side <;> decide
      simp only [heldBy, Role.take.injEq, hside]
      by_cases hsame : request.side = side
      · simp [hsame]
      · simp [hsame, Int.add_comm]
    · simp [heldBy]
  refine ⟨_, ?_, h.finish session' ⟨request, .giving count, moved⟩ .success
    haccounts hmoved (h.logged _ _ hactivity)⟩
  rw [resume]
  dsimp only
  rw [k.mbox.giveSem_eq, hstep]
  rfl

section

variable (hactivity : k.activity k.current = some ⟨request, .inside count, moved⟩)

include hactivity

/-- The room or the bytes that the units of a call inside `inner_mtx` stand
for. -/
lemma room_of_inside {queue : List UInt8} (hholds : k.mbox.Holds queue) :
    (request.side = .add → queue.length + count ≤ k.mbox.totalSize) ∧
    (request.side = .get → count ≤ queue.length) := by
  have hused := hholds.used
  have hunits (side : Side) (hside : request.side = side) :
      count + k.mbox.stored (.take side) ≤ k.mbox.totalSize := by
    have hle := (h.accounts.held_le h.accounts.current_le (.take side)).2
    rwa [show k.activity k.session.current = _ from hactivity, heldBy, held_take,
      if_pos hside] at hle
  constructor
  · intro hside
    have hle := hunits .add hside
    simp only [stored] at hle
    omega
  · intro hside
    have hle := hunits .get hside
    simp only [stored] at hle
    omega

/-- Moving `count` bytes turns the units taken into units owed. -/
lemma release_inner {bytes : List UInt8} {mbox' : Mailbox} (hsem : mbox'.sem = k.mbox.sem)
    (hsize : mbox'.totalSize = k.mbox.totalSize) (hused : mbox'.usedSize = k.mbox.usedSize +
      match request.side with | .add => (count : Int) | .get => -count)
    (hbytes : request.Moves bytes count) :
    ∃ session', (Call.release (k.mbox.sem .inner)).step k.session = .ok session' ∧ Accounts idle
      initial session' mbox'
      (update k.activity k.current (some ⟨request, .unlocking count, bytes⟩)) := by
  obtain ⟨_, hpos, hlimit⟩ := h.accounts.sound _ _ hactivity
  refine release_sound h hactivity (some ⟨request, .unlocking count, bytes⟩)
    .inner rfl hsem hsize (by rintro _ ⟨⟩; rfl) ?_ (by
      rintro _ ⟨⟩
      exact ⟨hbytes, fun hnone => absurd hnone hlimit, fun _ => hpos⟩)
    Nat.one_pos (stored_nonneg h _)
  rintro (side | side | _)
  · simp [heldBy, mutex, stored]
  · cases hside : request.side <;> cases side <;>
      simp [heldBy, taken, owed, stored, hside, hused, hsize] <;> omega
  · simp [heldBy, innermost, stored]

lemma resume_inside : Resumes idle initial (k.resume ⟨request, .inside count, moved⟩) := by
  obtain ⟨queue, hholds, hqueue⟩ := h.queue
  obtain ⟨hadd, hget⟩ := room_of_inside h hactivity hholds
  obtain ⟨_, _, hlimit⟩ := h.accounts.sound _ _ hactivity
  rw [resume]
  dsimp only
  rw [System.move, ← sem_inner]
  cases request with
  | waitAddable timeoutMs => exact absurd rfl hlimit
  | waitGettable timeoutMs => exact absurd rfl hlimit
  | addMany timeoutMs c max =>
    obtain ⟨hsem, hsize⟩ := k.mbox.putAll_fixed ((range count).map c)
    have hlength : ((range count).map c).length = count := by simp
    have hholds' := hholds.putAll ((range count).map c) (hlength.symm ▸ hadd rfl)
    obtain ⟨session', hstep, haccounts⟩ := release_inner h hactivity hsem hsize (by
        rw [hholds'.used, hholds.used, length_append, hlength]
        rfl) ⟨hlength, fun _ => rfl⟩
    dsimp only [Request.side, Request.bytes]
    refine h.moved hstep (fun side => ?_) haccounts ⟨_, hholds', ?_⟩ ?_ rfl rfl
    · cases side
      · exact ⟨_, rfl⟩
      · exact ⟨[], (append_nil _).symm⟩
    · change k.addedBytes ++ _ = k.gotBytes ++ _
      rw [hqueue, append_assoc]
    · exact ⟨k.addedBytes, [], (append_nil _).symm⟩
  | getMany timeoutMs max =>
    obtain ⟨hsem, hsize⟩ := k.mbox.nextAll_fixed count
    obtain ⟨hbytes, hholds'⟩ := hholds.nextAll count (hget rfl)
    have hcount := hget rfl
    have hlength : (k.mbox.nextAll count).1.length = count := by
      rw [hbytes, length_take]
      omega
    obtain ⟨session', hstep, haccounts⟩ := release_inner h hactivity hsem hsize (by
        rw [hholds'.used, hholds.used, length_drop]
        dsimp only [Request.side]
        omega) ⟨hlength, fun hside => by cases hside⟩
    refine h.moved hstep (fun side => ?_) haccounts ⟨_, hholds', ?_⟩ ?_ rfl rfl
    · cases side
      · exact ⟨[], (append_nil _).symm⟩
      · exact ⟨_, rfl⟩
    · change k.addedBytes = (k.gotBytes ++ (k.mbox.nextAll count).1) ++ _
      rw [hqueue, hbytes, append_assoc, take_append_drop]
    · exact ⟨k.gotBytes, [], (append_nil _).symm⟩

end

end Phases

section

variable (h : k.Sound idle initial)
include h

/-- A call goes on to its next semaphore operation. -/
lemma resume_sound {a : Activity}
    (hactivity : k.activity k.current = some a) (hgoes : if a.acquiring.isSome then
        k.session.kernel.postponedTaskSwitch = false
      else k.session.MayBlock idle) :
    Resumes idle initial (k.resume a) := by
  obtain ⟨request, phase, moved⟩ := a
  cases phase with
  | locking => exact resume_locking h hgoes hactivity
  | locked => exact resume_locked h hgoes hactivity
  | taking => exact resume_taking h hgoes hactivity
  | refused result => exact resume_refused h hactivity
  | gathered count => exact resume_gathered h hgoes hactivity
  | grabbing count => exact resume_grabbing h hgoes hactivity
  | enough count => exact resume_enough h hgoes hactivity
  | entering count => exact resume_entering h hgoes hactivity
  | inside count => exact resume_inside h hactivity
  | unlocking count => exact resume_unlocking h hactivity
  | giving count => exact resume_giving h hactivity

/-- What the kernel does with other semaphores, and at other times, leaves the
mailbox alone. -/
lemma other_sound (hallowed : (Event.other call).Allowed idle initial k) :
    Resumes idle initial (k.call call) := by
  obtain ⟨hcall, hapart⟩ := hallowed
  have hagrees := h.accounts.agrees k.session.current
  have hforeign : Session.Foreign (fun sem => ∃ role, k.mbox.sem role = sem)
      (k.activity k.current = none) call := by
    cases call with
    | acquire => exact ⟨hapart.1, fun ⟨role, hrole⟩ => hapart.2 role hrole⟩
    | release => exact fun ⟨role, hrole⟩ => hapart role hrole
    | return_ => exact hapart
    | _ => trivial
  obtain ⟨session', hstep, horder, hspares⟩ :=
    foreign_effect h.accounts.order hcall hforeign (by
      rintro hnone _ timeoutMs ⟨role, rfl⟩
      rw [show k.activity k.session.current = none from hnone] at hagrees
      exact hagrees role timeoutMs)
  refine ⟨_, call_eq hstep, h.aside (h.accounts.unchanged horder hspares.fixed
    (fun role => hspares.delivered _ ⟨role, rfl⟩) hspares.others ?_)⟩
  rcases hspares.self with hsame | ⟨hnone, htarget⟩
  · rwa [hsame]
  · rw [show k.activity k.session.current = none from hnone]
    exact fun role timeoutMs => htarget _ timeoutMs ⟨role, rfl⟩

/-- One step: it succeeds and keeps the accounts. -/
lemma step_sound {event : Event}
    (hallowed : event.Allowed idle initial k) : Resumes idle initial (event.step k) := by
  cases event with
  | begin request => exact begin_sound h request hallowed.1 hallowed.2
  | resume =>
    obtain ⟨a, hactivity, hgoes⟩ := hallowed
    obtain ⟨k', hresume, hk'⟩ := resume_sound h hactivity hgoes
    refine ⟨k', ?_, hk'⟩
    rw [Event.step, hactivity]
    exact hresume
  | other call => exact other_sound h hallowed

def Step (idle : Nat) (initial : Nat → Int) (k : System) (event : Event) (k' : System) : Prop :=
  event.Allowed idle initial k ∧ event.step k = .ok k'

/-- A thread is between `AcquireMutex` and `ReleaseMutex` of `inner_mtx`. -/
def Inside (k : System) (thread : Nat) : Prop :=
  ∃ a count, k.activity thread = some a ∧ a.phase = .inside count

/-- The mailbox is a bounded queue.  What is stored is what was added and not
got, every call that has returned says how many bytes it moved, and no call
fails an assertion. -/
structure Queues (idle : Nat) (initial : Nat → Int) (k : System) : Prop where
  used : 0 ≤ k.mbox.usedSize ∧ k.mbox.usedSize ≤ k.mbox.totalSize
  endPos : (k.mbox.endPos : Int) = (k.mbox.startPos + k.mbox.usedSize) % k.mbox.totalSize
  fifo : k.gotBytes <+: k.addedBytes
  stored : k.addedBytes = k.gotBytes ++ Ring.contents k.mbox.data
    k.mbox.totalSize k.mbox.startPos k.mbox.usedSize.toNat
  added : ∀ f ∈ k.finished, f.request.Moves f.moved f.added ∧ Logged (k.log f.request.side) f.moved
  alone : ∀ first second, k.session.kernel.IsThread first →
    k.session.kernel.IsThread second → k.Inside first → k.Inside second → first = second
  progress : ∀ event : Event, event.Allowed idle initial k → ∃ k', event.step k = .ok k'

lemma Sound.alone {first second : Nat}
    (hfirst : k.session.kernel.IsThread first) (hsecond : k.session.kernel.IsThread second)
    (hin : k.Inside first) (hin' : k.Inside second) : first = second := by
  by_contra hne
  have hone : ∀ thread, k.Inside thread → heldBy .inner (k.activity thread) = 1 := by
    rintro thread ⟨a, count, ha, hphase⟩
    rw [ha, heldBy, held_inner, hphase, innermost]
  have hunits := h.accounts.units .inner
  have hbound := (delivered_le h.accounts.order (k.mbox.sem .inner)).2
  have htwo := add_le_tally (fun thread => heldBy .inner (k.activity thread)) hfirst.2 hsecond.2 hne
  rw [h.accounts.max .inner] at hbound
  simp only [stored, maxCount] at hunits hbound
  have hfirst := hone first hin
  have hsecond := hone second hin'
  omega

lemma Sound.queues : k.Queues idle initial := by
  obtain ⟨queue, hholds, hqueue⟩ := h.queue
  have hused := hholds.used
  have hfits := hholds.fits
  refine ⟨⟨by omega, by omega⟩, ?_, ?_, ?_, h.finished, ?_, ?_⟩
  · rw [hused, hholds.endPos]
    rfl
  · exact ⟨queue, hqueue.symm⟩
  · rw [hused, Int.toNat_natCast, hholds.contents]
    exact hqueue
  · intro first second hfirst hsecond
    exact h.alone hfirst hsecond
  · intro event hallowed
    obtain ⟨k', hstep, _⟩ := step_sound h hallowed
    exact ⟨k', hstep⟩

end

/-- `MailboxCreate` has just returned; its five semaphores are new. -/
inductive Created : State × Mailbox → Prop
  | intro (s : State) (data : Nat → UInt8) (size : Nat)
      (fullSem emptySem addMtx getMtx innerMtx : Nat)
      (hdistinct : [fullSem, emptySem, addMtx, getMtx, innerMtx].Nodup) :
      Created (mailboxCreate s data size fullSem emptySem addMtx getMtx innerMtx)

/-- A new mailbox is empty, and its semaphores say so. -/
structure Empty (created : State × Mailbox) : Prop where
  distinct : Function.Injective created.2.sem
  max : ∀ role, created.1.maxCount (created.2.sem role) = created.2.maxCount role
  current : ∀ role, created.1.currentCount (created.2.sem role) = created.2.stored role
  holds : created.2.Holds []

lemma Created.empty (h : Created created) : Empty created := by
  obtain ⟨s, data, size, fullSem, emptySem, addMtx, getMtx, innerMtx, hdistinct⟩ := h
  simp only [nodup_cons, mem_cons, not_or] at hdistinct
  refine ⟨?_, ?_, ?_, ?_⟩
  · intro role role' heq
    rcases role with (_ | _) | (_ | _) | _ <;> rcases role' with (_ | _) | (_ | _) | _ <;>
      simp_all [mailboxCreate, sem, mtx, takeSem]
  · rintro ((_ | _) | (_ | _) | _) <;> simp [mailboxCreate, createMutex, createSemaphore,
      sem, mtx, takeSem, maxCount, hdistinct]
  · rintro ((_ | _) | (_ | _) | _) <;> simp [mailboxCreate, createMutex, createSemaphore,
      sem, mtx, takeSem, stored, hdistinct]
  · exact ⟨rfl, Nat.zero_le _, fun hpos => hpos, (Nat.zero_mod _).symm, rfl⟩

lemma start_sound (hcreated : Created created) (hboot : Booted idle initial created.1) :
    (start created).Sound idle initial := by
  have hempty := hcreated.empty
  refine ⟨⟨start_inOrder hboot, ?_, hempty.distinct, hempty.max, ?_, ?_, ?_⟩,
    ⟨[], hempty.holds, rfl⟩, ?_, ?_⟩
  · intro thread a ha
    cases ha
  · intro thread role timeoutMs hsome
    cases hsome
  · intro role
    change (Session.start created.1).delivered _ = (tally _ fun _ => 0 : Nat) + _
    rw [Session.start_delivered, tally_zero]
    exact (hempty.current role).trans (Int.zero_add _).symm
  · intro thread a ha
    cases ha
  · intro thread a ha
    cases ha
  · intro f hf
    cases hf

/-- In every run, whatever the size of the mailbox, the calls and their order,
the mailbox is a bounded queue. -/
theorem run_queues {created : State × Mailbox} {events : List Event}
    (hcreated : Created created) (hboot : Booted idle initial created.1)
    (hrun : Run (Step idle initial) (start created) events k) : k.Queues idle initial := by
  refine Sound.queues ?_
  refine hrun.invariant (P := Sound idle initial) (start_sound hcreated hboot) ?_
  rintro before event after hbefore ⟨hallowed, hstep⟩
  obtain ⟨k', hstep', hafter⟩ := step_sound hbefore hallowed
  rw [hstep] at hstep'
  cases hstep'
  exact hafter

/-- A mailbox for two bytes among three threads. -/
def twoBytes : State × Mailbox :=
  mailboxCreate threeThreads (fun _ => 0) 2 0 1 2 3 4

lemma twoBytes_created : Created twoBytes := .intro _ _ _ _ _ _ _ _ (by decide)

lemma twoBytes_booted : Booted 1 (fun sem => if sem = 0 then 2 else 0) twoBytes.1 where
  __ := threeThreads_booted
  created sem := by
    rcases sem with _ | _ | _ | _ | _ | sem <;>
      simp [createSemaphore, twoBytes, mailboxCreate, createMutex, threeThreads]
  nonneg sem := by
    split <;> decide
  le_max sem := by
    rcases sem with _ | _ | _ | _ | _ | sem <;>
      simp [createSemaphore, twoBytes, mailboxCreate, createMutex, threeThreads]

/-- A thread that adds a byte has taken one of the two units. -/
theorem run_queues_one_byte :
    ∃ events k, Run (Step 1 (fun sem => if sem = 0 then 2 else 0)) (start twoBytes) events k ∧
    (k.activity 3).map Activity.phase = some (.gathered 1) ∧ k.session.kernel.currentCount 1 = 1 ∧
    k.Queues 1 (fun sem => if sem = 0 then 2 else 0) := by
  have hbegin : Step 1 (fun sem => if sem = 0 then 2 else 0) (start twoBytes)
      (.begin (mailboxAdd (-1) 7)) _ := ⟨⟨⟨by decide, rfl, rfl⟩, rfl⟩, rfl⟩
  have hlocked := (Run.single hbegin).snoc (show Step _ _ _ .resume _ from ⟨⟨_, rfl, rfl⟩, rfl⟩)
  have htaking := hlocked.snoc (show Step _ _ _ .resume _ from
    ⟨⟨_, rfl, show Session.MayBlock _ _ from ⟨by decide, rfl, rfl⟩⟩, rfl⟩)
  have hrun := htaking.snoc (show Step _ _ _ .resume _ from ⟨⟨_, rfl, rfl⟩, rfl⟩)
  exact ⟨_, _, hrun, rfl, rfl, run_queues twoBytes_created twoBytes_booted hrun⟩

end System

end Merlon.Sync
