/-
The mailboxes of mailbox.c.  A call is followed from one semaphore operation
to the next: its phase says which operation comes next or which acquisition it
waits for.  Adding and getting are the same program with the roles of the two
counting semaphores exchanged.
-/
import Merlon.Library.Ring
import Merlon.Threads.Deliveries

namespace Merlon.Sync

open Threads

structure Mailbox where
  data : Nat → UInt8
  totalSize : Nat
  usedSize : Int
  startPos : Nat
  endPos : Nat
  fullSem : Nat
  emptySem : Nat
  addMtx : Nat
  getMtx : Nat
  innerMtx : Nat

inductive Side where
  | add
  | get
  deriving DecidableEq

namespace Mailbox

/-- The mutex of the threads that add, or of those that get. -/
def mtx (mbox : Mailbox) : Side → Nat
  | .add => mbox.addMtx
  | .get => mbox.getMtx

/-- The semaphore a call takes its units from. -/
def takeSem (mbox : Mailbox) : Side → Nat
  | .add => mbox.emptySem
  | .get => mbox.fullSem

/-- The semaphore a call gives its units to. -/
def giveSem (mbox : Mailbox) : Side → Nat
  | .add => mbox.fullSem
  | .get => mbox.emptySem

/-- One round of the loop of `MailboxAddMany`. -/
def put (mbox : Mailbox) (c : UInt8) : Mailbox :=
  { mbox with
    data := Function.update mbox.data mbox.endPos c
    endPos := (mbox.endPos + 1) % mbox.totalSize
    usedSize := mbox.usedSize + 1 }

/-- One round of the loop of `MailboxGetMany`. -/
def next (mbox : Mailbox) : UInt8 × Mailbox :=
  (mbox.data mbox.startPos,
    { mbox with
      startPos := (mbox.startPos + 1) % mbox.totalSize
      usedSize := mbox.usedSize - 1 })

def putAll (mbox : Mailbox) (bytes : List UInt8) : Mailbox :=
  bytes.foldl put mbox

def nextAll (mbox : Mailbox) : Nat → List UInt8 × Mailbox
  | 0 => ([], mbox)
  | count + 1 =>
    let (c, mbox) := mbox.next
    let (rest, mbox) := mbox.nextAll count
    (c :: rest, mbox)

end Mailbox

def createMutex (s : State) (mtx : Nat) : State :=
  createSemaphore s mtx 1 0

/-- The heap gives the mailbox memory with any contents. -/
def mailboxCreate (s : State) (data : Nat → UInt8) (size : Nat)
    (fullSem emptySem addMtx getMtx innerMtx : Nat) : State × Mailbox :=
  let s := createSemaphore s fullSem size size
  let s := createSemaphore s emptySem size 0
  let s := createMutex s addMtx
  let s := createMutex s getMtx
  let s := createMutex s innerMtx
  (s,
    { data := data
      totalSize := size
      usedSize := 0
      startPos := 0
      endPos := 0
      fullSem := fullSem
      emptySem := emptySem
      addMtx := addMtx
      getMtx := getMtx
      innerMtx := innerMtx })

/-- A call; `max` bytes of the buffer `c` are to be added. -/
inductive Request where
  | waitAddable (timeoutMs : Int)
  | addMany (timeoutMs : Int) (c : Nat → UInt8) (max : Nat)
  | waitGettable (timeoutMs : Int)
  | getMany (timeoutMs : Int) (max : Nat)

/-- `MailboxAdd` is `MailboxAddMany` for one byte. -/
def mailboxAdd (timeoutMs : Int) (c : UInt8) : Request :=
  .addMany timeoutMs (fun _ => c) 1

/-- `MailboxGet` is `MailboxGetMany` for one byte. -/
def mailboxGet (timeoutMs : Int) : Request :=
  .getMany timeoutMs 1

namespace Request

def side : Request → Side
  | .waitAddable _ | .addMany _ _ _ => .add
  | .waitGettable _ | .getMany _ _ => .get

def timeoutMs : Request → Int
  | .waitAddable timeoutMs | .addMany timeoutMs _ _
  | .waitGettable timeoutMs | .getMany timeoutMs _ => timeoutMs

/-- How many bytes to move; none for a call that only waits. -/
def limit : Request → Option Nat
  | .waitAddable _ | .waitGettable _ => none
  | .addMany _ _ max | .getMany _ max => some max

/-- The bytes that a call adds when it has `count` units. -/
def bytes (request : Request) (count : Nat) : List UInt8 :=
  match request with
  | .addMany _ c _ => (List.range count).map c
  | _ => []

end Request

/-- Where a call is.  The number is that of the units it has taken, in
`unlocking` and `giving` that of the bytes it has moved. -/
inductive Phase where
  | locking
  | locked
  | taking
  | refused (result : AcquireResult)
  | gathered (count : Nat)
  | grabbing (count : Nat)
  | enough (count : Nat)
  | entering (count : Nat)
  | inside (count : Nat)
  | unlocking (count : Nat)
  | giving (count : Nat)
  deriving DecidableEq

/-- A call in progress, with the bytes it has moved. -/
structure Activity where
  request : Request
  phase : Phase
  moved : List UInt8

inductive CallResult where
  | success
  | eagain
  | etimedout
  | einval
  deriving DecidableEq

def CallResult.ofAcquire : AcquireResult → CallResult
  | .success => .success
  | .eagain => .eagain
  | .etimedout => .etimedout

/-- A call that has returned: its result, `*added`, and the bytes it moved. -/
structure Finished where
  request : Request
  result : CallResult
  added : Nat
  moved : List UInt8

/-- The mailbox, the kernel's semaphores and the calls of every thread.
`addedBytes` and `gotBytes` record what was moved, in the order in which the
calls held `inner_mtx`. -/
structure System where
  session : Session
  mbox : Mailbox
  activity : Nat → Option Activity
  addedBytes : List UInt8
  gotBytes : List UInt8
  finished : List Finished

namespace System

/-- Nobody has called a mailbox that was just created. -/
def start (created : State × Mailbox) : System where
  session := Session.start created.1
  mbox := created.2
  activity := fun _ => none
  addedBytes := []
  gotBytes := []
  finished := []

def current (k : System) : Nat :=
  k.session.current

def call (k : System) (call : Call) : Except Stop System := do
  let session ← call.step k.session
  .ok { k with session := session }

def setActivity (k : System) (thread : Nat) (activity : Option Activity) :
    System :=
  { k with activity := Function.update k.activity thread activity }

def enter (k : System) (thread : Nat) (activity : Activity) (phase : Phase) :
    System :=
  k.setActivity thread (some { activity with phase := phase })

def finish (k : System) (thread : Nat) (activity : Activity)
    (result : CallResult) (added : Nat) : System :=
  { k.setActivity thread none with
    finished := ⟨activity.request, result, added, activity.moved⟩ ::
      k.finished }

/-- What the acquisition that now returns says. -/
def result (k : System) (timeoutMs : Int) : AcquireResult :=
  acquireResult (k.session.kernel.thread k.current) timeoutMs

/-- The code between `AcquireMutex` and `ReleaseMutex` of `inner_mtx`. -/
def move (k : System) (thread : Nat) (activity : Activity) (count : Nat) :
    System :=
  match activity.request.side with
  | .add =>
    let bytes := activity.request.bytes count
    { k with
      mbox := k.mbox.putAll bytes
      addedBytes := k.addedBytes ++ bytes }.setActivity thread
      (some { activity with phase := .unlocking count, moved := bytes })
  | .get =>
    let (bytes, mbox) := k.mbox.nextAll count
    { k with
      mbox := mbox
      gotBytes := k.gotBytes ++ bytes }.setActivity thread
      (some { activity with phase := .unlocking count, moved := bytes })

/-- The current thread calls the mailbox. -/
def begin (k : System) (request : Request) : Except Stop System :=
  let activity : Activity := ⟨request, .locking, []⟩
  if request.limit = some 0 then
    .ok (k.finish k.current activity .einval 0)
  else do
    let thread := k.current
    let k ← k.call (.acquire (k.mbox.mtx request.side) request.timeoutMs)
    .ok (k.enter thread activity .locking)

/-- The current thread goes on with its call, up to the next semaphore
operation. -/
def resume (k : System) (activity : Activity) : Except Stop System :=
  let thread := k.current
  let request := activity.request
  let side := request.side
  match activity.phase with
  | .locking => do
      let result := k.result request.timeoutMs
      let k ← k.call .return_
      if result = .success then .ok (k.enter thread activity .locked)
      else .ok (k.finish thread activity (.ofAcquire result) 0)
  | .locked => do
      let k ← k.call (.acquire (k.mbox.takeSem side) request.timeoutMs)
      .ok (k.enter thread activity .taking)
  | .taking => do
      let result := k.result request.timeoutMs
      let k ← k.call .return_
      if result = .success then .ok (k.enter thread activity (.gathered 1))
      else .ok (k.enter thread activity (.refused result))
  | .refused result => do
      let k ← k.call (.release (k.mbox.mtx side))
      .ok (k.finish thread activity (.ofAcquire result) 0)
  | .gathered count =>
    match request.limit with
    | none => do
        let k ← k.call (.release (k.mbox.takeSem side))
        .ok (k.enter thread activity (.unlocking 0))
    | some max =>
      if count < max then do
        let k ← k.call (.acquire (k.mbox.takeSem side) 0)
        .ok (k.enter thread activity (.grabbing count))
      else do
        let k ← k.call (.acquire k.mbox.innerMtx (-1))
        .ok (k.enter thread activity (.entering count))
  | .grabbing count => do
      let result := k.result 0
      let k ← k.call .return_
      if result = .success then
        .ok (k.enter thread activity (.gathered (count + 1)))
      else .ok (k.enter thread activity (.enough count))
  | .enough count => do
      let k ← k.call (.acquire k.mbox.innerMtx (-1))
      .ok (k.enter thread activity (.entering count))
  | .entering count => do
      let k ← k.call .return_
      .ok (k.enter thread activity (.inside count))
  | .inside count => (k.move thread activity count).call (.release k.mbox.innerMtx)
  | .unlocking count => do
      let k ← k.call (.release (k.mbox.mtx side))
      match request.limit with
      | none => .ok (k.finish thread activity .success 0)
      | some _ => .ok (k.enter thread activity (.giving count))
  | .giving count => do
      let session ← k.session.releaseEx (k.mbox.giveSem side) count
      .ok ({ k with session := session }.finish thread activity .success count)

end System

/-- What happens next: a thread calls the mailbox or goes on with its call, or
the kernel does something else. -/
inductive Event where
  | begin (request : Request)
  | resume
  | other (call : Call)

def Event.step (k : System) : Event → Except Stop System
  | .begin request => k.begin request
  | .resume =>
    match k.activity k.current with
    | none => .ok k
    | some activity => k.resume activity
  | .other call => k.call call

end Merlon.Sync
