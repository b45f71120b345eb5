/-
The message boxes of message.c.  A call is followed from one lock or semaphore
operation to the next; what it does while it holds the spinlock is one step.
Messages are copied into buffers of the heap, which the list knows by their
addresses.
-/
import Merlon.Adt.LinkedList
import Merlon.Threads.Deliveries

namespace Merlon.Messages

open Threads Adt

def semBigNumber : Nat :=
  2 ^ 30

/-- `struct msgbox`. -/
structure Msgbox where
  payloadSize : Nat
  data : Adt.LinkedList Nat
  sem : Nat

def createMessageBox (s : State) (payloadSize sem : Nat) : State × Msgbox :=
  (createSemaphore s sem semBigNumber semBigNumber,
    { payloadSize := payloadSize
      data := .create
      sem := sem })

/-- Where a call is, with the buffer it holds.  `message` is what is being
sent and `turn` how many messages were removed before; both are kept for the
record only. -/
inductive Activity where
  | inserting (data : Nat) (message : List UInt8)
  | releasing
  | acquiring
  | removing
  | copying (data turn : Nat)

/-- What a call of `ReceiveMessage` has returned. -/
structure Receipt where
  turn : Nat
  payload : List UInt8

inductive Stop where
  | kernel (stop : Threads.Stop)
  | list (stop : ListStop)
  | wild

/-- The message box, the buffers that are allocated and the calls of every
thread.  `inserted` and `removed` record what happened under the spinlock. -/
structure Traffic where
  mbox : Msgbox
  buffers : Nat → Option (List UInt8)
  activity : Nat → Option Activity
  inserted : List (List UInt8)
  removed : Nat
  received : List Receipt

/-- `AllocHeap` and `memcpy` of `SendMessage`: a message of no bytes has no
buffer. -/
def fillBuffer (buffers : Nat → Option (List UInt8)) (size block : Nat)
    (message : List UInt8) : Nat × (Nat → Option (List UInt8)) :=
  if size = 0 then (0, buffers)
  else (block, Function.update buffers block (some message))

/-- `memcpy` of `ReceiveMessage`. -/
def readBuffer (buffers : Nat → Option (List UInt8)) (size data : Nat) :
    Except Stop (List UInt8) :=
  if size = 0 then .ok []
  else
    match buffers data with
    | some message => .ok message
    | none => .error .wild

def freeHeap (buffers : Nat → Option (List UInt8)) (data : Nat) :
    Nat → Option (List UInt8) :=
  if data = 0 then buffers else Function.update buffers data none

namespace Traffic

def start (mbox : Msgbox) : Traffic where
  mbox := mbox
  buffers := fun _ => none
  activity := fun _ => none
  inserted := []
  removed := 0
  received := []

def enter (t : Traffic) (thread : Nat) (activity : Option Activity) :
    Traffic :=
  { t with activity := Function.update t.activity thread activity }

/-- `SendMessage` up to the spinlock. -/
def send (t : Traffic) (thread : Nat) (payload : Nat → UInt8) (block : Nat) :
    Traffic :=
  let message := (List.range t.mbox.payloadSize).map payload
  let (data, buffers) := fillBuffer t.buffers t.mbox.payloadSize block message
  { t with buffers := buffers }.enter thread (some (.inserting data message))

/-- What `SendMessage` does under the spinlock. -/
def insert (t : Traffic) (thread node data : Nat) (message : List UInt8) :
    Except Stop Traffic :=
  match t.mbox.data.insertEnd node data with
  | .error stop => .error (.list stop)
  | .ok list =>
    .ok ({ t with
      mbox := { t.mbox with data := list }
      inserted := t.inserted ++ [message] }.enter thread (some .releasing))

/-- What `ReceiveMessage` does under the spinlock. -/
def remove (t : Traffic) (thread : Nat) : Except Stop Traffic :=
  match t.mbox.data.getDataFromNode t.mbox.data.head with
  | .error stop => .error (.list stop)
  | .ok data =>
    match t.mbox.data.deleteIndex 0 with
    | .error stop => .error (.list stop)
    | .ok (_, list) =>
      .ok ({ t with
        mbox := { t.mbox with data := list }
        removed := t.removed + 1 }.enter thread
          (some (.copying data t.removed)))

/-- `ReceiveMessage` after the spinlock. -/
def copy (t : Traffic) (thread data turn : Nat) : Except Stop Traffic := do
  let message ← readBuffer t.buffers t.mbox.payloadSize data
  .ok ({ t with
    buffers := freeHeap t.buffers data
    received := ⟨turn, message⟩ :: t.received }.enter thread none)

end Traffic

structure System where
  session : Session
  traffic : Traffic

namespace System

def start (created : State × Msgbox) : System where
  session := Session.start created.1
  traffic := .start created.2

def current (k : System) : Nat :=
  k.session.current

def activity (k : System) : Option Activity :=
  k.traffic.activity k.current

/-- A call of the kernel, after which the thread goes on as given. -/
def call (k : System) (call : Call) (traffic : Traffic) :
    Except Stop System :=
  match call.step k.session with
  | .error stop => .error (.kernel stop)
  | .ok session => .ok ⟨session, traffic⟩

def receive (k : System) : Except Stop System :=
  k.call (.acquire k.traffic.mbox.sem (-1))
    (k.traffic.enter k.current (some .acquiring))

/-- The current thread goes on with its call; `node` is the address that
`AllocHeap` returns in `ListInsertEnd`. -/
def resume (k : System) (node : Nat) : Activity → Except Stop System
  | .inserting data message => do
      let traffic ← k.traffic.insert k.current node data message
      .ok { k with traffic := traffic }
  | .releasing => k.call (.release k.traffic.mbox.sem) (k.traffic.enter k.current none)
  | .acquiring =>
    let result := acquireResult (k.session.kernel.thread k.current) (-1)
    k.call .return_ (k.traffic.enter k.current
      (if result = .success then some .removing else none))
  | .removing => do
      let traffic ← k.traffic.remove k.current
      .ok { k with traffic := traffic }
  | .copying data turn => do
      let traffic ← k.traffic.copy k.current data turn
      .ok { k with traffic := traffic }

end System

/-- A thread calls the message box or goes on with its call, or the kernel
does something else. -/
inductive Event where
  | send (payload : Nat → UInt8) (block : Nat)
  | receive
  | resume (node : Nat)
  | other (call : Call)

def Event.step (k : System) : Event → Except Stop System
  | .send payload block => .ok { k with traffic := k.traffic.send k.current payload block }
  | .receive => k.receive
  | .resume node =>
    match k.activity with
    | none => .ok k
    | some activity => k.resume node activity
  | .other call => k.call call k.traffic

/-- `AllocHeap` returns what is not allocated, fewer messages than
`SEM_BIG_NUMBER` are outstanding when one more is inserted, a thread is in one
call at a time, and what else happens leaves the semaphore alone. -/
def Event.Allowed (idle : Nat) (initial : Nat → Int) (k : System) :
    Event → Prop
  | .send _ block => k.activity = none ∧ block ≠ 0 ∧
      k.traffic.buffers block = none
  | .receive => k.activity = none ∧ k.session.MayBlock idle
  | .resume node =>
    match k.activity with
    | none => False
    | some (.inserting _ _) => node ≠ 0 ∧
        k.traffic.mbox.data.nodes node = none ∧
        k.traffic.inserted.length < k.traffic.removed + semBigNumber
    | some .acquiring => k.session.kernel.postponedTaskSwitch = false
    | some _ => True
  | .other call => call.Allowed idle initial k.session ∧
      match call with
      | .acquire sem _ => k.activity = none ∧ k.traffic.mbox.sem ≠ sem
      | .return_ | .sleep _ => k.activity = none
      | .release sem => k.traffic.mbox.sem ≠ sem
      | .wakeups | .timer _ | .signal _ _ | .schedule => True

def Step (idle : Nat) (initial : Nat → Int) (k : System) (event : Event)
    (k' : System) : Prop :=
  event.Allowed idle initial k ∧ event.step k = .ok k'

end Merlon.Messages
