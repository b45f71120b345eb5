/-
`InstallUnixAlarm` and `UnixAlarmHandler` of `kernel/thread/timer.c`, one step
for each part that runs under the scheduler lock.  A thread knows its alarm by
the number of its slot, which it keeps when the handler has released the slot.
-/
import Merlon.Threads.Alarms

namespace Merlon.Alarms

open Bool System Timer

open List

open Function (update update_self update_apply update_of_ne)

/-- An alarm that a thread installs.  The handler gets the thread; the number
of the alarm and the time that was asked for are kept to speak about it. -/
structure UnixAlarm where
  thread : Nat
  serial : Nat
  time : Nat
  deriving DecidableEq

/-- The deferred functions. -/
inductive Call where
  | unixAlarmHandler (alarm : UnixAlarm)
  | other
  deriving DecidableEq

/-- Where a thread is in `InstallUnixAlarm`: it has destroyed the alarm it
knew of, has forgotten it, has worked out the time of the new one (as stored
in 64 bits, and as asked for), or has found that time not to have passed. -/
inductive Phase where
  | idle
  | destroyed (microseconds : Nat) (result : Except Errno Nat)
  | cleared (microseconds : Nat)
  | timed (time asked : Nat)
  | checked (time asked : Nat)

/-- The timer and what the threads keep.  The alarms installed, those replaced
with the thread that replaced them, and the signals raised with the time are
recorded. -/
structure System where
  timer : Timer Call
  alarmId : Nat → Int
  phase : Nat → Phase
  remaining : Nat → Nat
  handlers : List UnixAlarm
  installed : List UnixAlarm
  replaced : List (UnixAlarm × Nat)
  raised : List (UnixAlarm × Nat)

namespace System

/-- No thread has installed an alarm yet. -/
def init : System where
  timer := Timer.init
  alarmId := fun _ => -1
  phase := fun _ => .idle
  remaining := fun _ => 0
  handlers := []
  installed := []
  replaced := []
  raised := []

def setPhase (s : System) (thread : Nat) (phase : Phase) : System :=
  { s with phase := update s.phase thread phase }

def setAlarmId (s : System) (thread : Nat) (id : Int) : System :=
  { s with alarmId := update s.alarmId thread id }

/-- The slot that a thread knows as its own. -/
def slotOf (s : System) (thread : Nat) : Option (Fin maxAlarms) :=
  Timer.slot (s.alarmId thread)

/-- The alarm that a slot holds or held last. -/
def alarmIn (s : System) (i : Fin maxAlarms) : Option UnixAlarm :=
  match (s.timer.alarms i).job with
  | some (.unixAlarmHandler alarm) => some alarm
  | _ => none

/-- The waiting alarm in the slot that a thread knows as its own. -/
def waitingOf (s : System) (thread : Nat) : Option UnixAlarm :=
  match s.slotOf thread with
  | none => none
  | some i => if (s.timer.alarms i).live then s.alarmIn i else none

/-- `DestroyAlarm(thr->alarm_id, ..)`. -/
def destroyAlarm (s : System) (thread : Nat) : Except Errno Nat × System :=
  let result := s.timer.updateAlarm (s.alarmId thread) true
  (result.1, { s with timer := result.2 })

/-- A deferred function starts; a handler raises `SIGALRM`. -/
def start (s : System) (index : Nat) : System :=
  let begun := { s with
    timer := { s.timer with deferred := s.timer.deferred.eraseIdx index } }
  match s.timer.deferred[index]? with
  | some (some (.unixAlarmHandler alarm)) =>
    { begun with
      handlers := alarm :: s.handlers
      raised := s.raised ++ [(alarm, s.timer.systemTime)] }
  | _ => begun

/-- A handler that has raised the signal destroys the alarm. -/
def finish (s : System) (index : Nat) : System :=
  match s.handlers[index]? with
  | none => s
  | some alarm =>
    { (s.destroyAlarm alarm.thread).2 with
      handlers := s.handlers.eraseIdx index }

/-- `InstallUnixAlarm` is called. -/
def installUnixAlarm (s : System) (thread microseconds : Nat) : System :=
  match s.phase thread with
  | .idle =>
    let result := s.destroyAlarm thread
    { result.2.setPhase thread (.destroyed microseconds result.1) with
      replaced := s.replaced ++
        (s.waitingOf thread).toList.map fun alarm => (alarm, thread) }
  | _ => s

/-- The thread forgets its alarm and reports the time it had left. -/
def clear (s : System) (thread : Nat) : System :=
  match s.phase thread with
  | .destroyed microseconds result =>
    let cleared := (s.setAlarmId thread (-1)).setPhase thread
      (if microseconds = 0 then .idle else .cleared microseconds)
    match result with
    | .ok timeLeft =>
      { cleared with
        remaining := update s.remaining thread
          ((timeLeft + 999) % 2 ^ 64 / 1000) }
    | .error _ => cleared
  | _ => s

/-- `CreateAlarmMicro` works out the time. -/
def createAlarmMicro (s : System) (thread : Nat) : System :=
  match s.phase thread with
  | .cleared microseconds =>
    let asked := s.timer.systemTime + microseconds * 1000
    s.setPhase thread (.timed (asked % 2 ^ 64) asked)
  | _ => s

/-- `CreateAlarmAbsolute` compares the time with the clock. -/
def check (s : System) (thread : Nat) : System :=
  match s.phase thread with
  | .timed time asked =>
    if time < s.timer.systemTime then
      (s.setAlarmId thread (-1)).setPhase thread .idle
    else s.setPhase thread (.checked time asked)
  | _ => s

/-- `CreateAlarmAbsolute` takes a slot. -/
def create (s : System) (thread : Nat) : System :=
  match s.phase thread with
  | .checked time asked =>
    let alarm : UnixAlarm := ⟨thread, s.installed.length, asked⟩
    let result := s.timer.installAlarm time (.unixAlarmHandler alarm)
    let created := { s with
      timer := result.2
      installed := s.installed ++
        (match result.1.1 with
        | .ok _ => [alarm]
        | .error _ => []) }
    (created.setAlarmId thread
      (result.1.2.getD (s.alarmId thread))).setPhase thread .idle
  | _ => s

end System

/-- The steps of the system.  `HandleAlarms` works with a time that it has
read before. -/
inductive UnixEvent where
  | receivedTimer (nanos : Nat)
  | handleAlarms (time : Nat)
  | deferUntilIrql
  | start (index : Nat)
  | finish (index : Nat)
  | installUnixAlarm (thread microseconds : Nat)
  | clear (thread : Nat)
  | createAlarmMicro (thread : Nat)
  | check (thread : Nat)
  | create (thread : Nat)

namespace UnixEvent

/-- What a call on the timer leaves of the system. -/
def onTimer (s : System) (outcome : Except Stop (Timer Call)) :
    Except Stop System :=
  match outcome with
  | .error stop => .error stop
  | .ok timer => .ok { s with timer := timer }

def run (s : System) : UnixEvent → Except Stop System
  | .receivedTimer nanos => .ok { s with timer := s.timer.receivedTimer nanos }
  | .handleAlarms time => onTimer s (s.timer.handleAlarms time)
  | .deferUntilIrql => onTimer s (s.timer.deferUntilIrql (some .other))
  | .start index => .ok (s.start index)
  | .finish index => .ok (s.finish index)
  | .installUnixAlarm thread microseconds => .ok (s.installUnixAlarm thread microseconds)
  | .clear thread => .ok (s.clear thread)
  | .createAlarmMicro thread => .ok (s.createAlarmMicro thread)
  | .check thread => .ok (s.check thread)
  | .create thread => .ok (s.create thread)

/-- The time that `HandleAlarms` has read is not in the future. -/
def possible (s : System) : UnixEvent → Bool
  | .handleAlarms time => decide (time ≤ s.timer.systemTime)
  | _ => true

/-- The thread for which a step is taken. -/
def actor (s : System) : UnixEvent → Option Nat
  | .start index =>
    match s.timer.deferred[index]? with
    | some (some (.unixAlarmHandler alarm)) => some alarm.thread
    | _ => none
  | .finish index => s.handlers[index]?.map UnixAlarm.thread
  | .installUnixAlarm thread _ => some thread
  | .clear thread => some thread
  | .createAlarmMicro thread => some thread
  | .check thread => some thread
  | .create thread => some thread
  | _ => none

end UnixEvent

/-- A slot holds an alarm that goes off at a call of `HandleAlarms`. -/
def Timer.due {α : Type} (t : Timer α) (time : Nat) (i : Fin maxAlarms) :
    Bool :=
  decide ((t.alarms i).wakeupTime ≤ time) && (t.alarms i).live

namespace System

/-- The slot that a thread knows as its own is free or holds its alarm. -/
def ownsSlot (s : System) (thread : Nat) : Bool :=
  (s.slotOf thread).all fun i =>
    (s.timer.alarms i).wakeupTime == 0 ||
      (s.alarmIn i).any fun alarm => alarm.thread == thread

/-- The slot that a thread knows as its own is free or holds an alarm of the
thread that has gone off. -/
def slotSpent (s : System) (thread : Nat) : Bool :=
  s.ownsSlot thread &&
    (s.slotOf thread).all fun i => !(s.timer.alarms i).live

end System

/-- A thread destroys an alarm only in a slot that is still its own, a handler
only one that has gone off; a new alarm has a slot to go to; neither the clock
nor the time of an alarm passes 64 bits; and the alarms that go off fit in the
queue. -/
def UnixEvent.isolates (s : System) : UnixEvent → Bool
  | .receivedTimer nanos => decide (s.timer.systemTime + nanos < 2 ^ 64)
  | .handleAlarms time =>
    decide (s.timer.deferred.length + slots.countP (s.timer.due time) ≤
      deferLimit)
  | .finish index => s.handlers[index]?.all fun alarm => s.slotSpent alarm.thread
  | .installUnixAlarm thread _ => s.ownsSlot thread
  | .createAlarmMicro thread =>
    match s.phase thread with
    | .cleared microseconds => decide (s.timer.systemTime + microseconds * 1000 < expiredAlarm)
    | _ => true
  | .create _ =>
    decide ((maxAlarms : Int) ≤ s.timer.numAlarmsInstalled) ||
      s.timer.firstFree.isSome
  | _ => true

def System.Step (guard : System → UnixEvent → Bool) (s : System)
    (event : UnixEvent) (s' : System) : Prop :=
  (event.possible s && guard s event) = true ∧ event.run s = .ok s'

/-- An alarm that is being installed has a time of its own, the one that was
asked for. -/
def Phase.Sane : Phase → Prop
  | .cleared microseconds => microseconds ≠ 0
  | .timed time asked => time = asked ∧ time ≠ 0 ∧ time ≠ expiredAlarm
  | .checked time asked => time = asked ∧ time ≠ 0 ∧ time ≠ expiredAlarm
  | _ => True

namespace Timer

variable {α : Type} {t t' : Timer α} {time : Nat} {i : Fin maxAlarms}
  {todo : List (Fin maxAlarms)}

lemma due_iff : t.due time i = true ↔
    (t.alarms i).wakeupTime ≤ time ∧ (t.alarms i).live = true := by
  unfold due
  rw [and_eq_true, decide_eq_true_eq]

/-- A slot goes off as long as the queue has room. -/
lemma expire_ok (hroom : t.due time i = true →
    t.deferred.length < deferLimit) : ∃ t', t.expire time i = .ok t' := by
  unfold expire
  dsimp only
  split
  · rename_i hdue
    have hless := hroom (due_iff.mpr ⟨hdue.1, Alarm.live_iff.mpr hdue.2⟩)
    exact ⟨_, if_neg (Nat.ne_of_lt hless)⟩
  · exact ⟨t, rfl⟩

section

variable (hexpire : t.expire time i = .ok t')

include hexpire

lemma due_of_ne {j : Fin maxAlarms} (hne : j ≠ i) : t'.due time j = t.due time j := by
  rcases expire_cases hexpire with ⟨_, rfl⟩ | ⟨_, _, rfl⟩
  · rfl
  · unfold due
    change (decide ((update t.alarms i _ j).wakeupTime ≤ time) && (update t.alarms i _ j).live) = _
    rw [update_of_ne hne]

lemma due_of_expire : t'.due time i = false := by
  rcases expire_cases hexpire with ⟨hnot, rfl⟩ | ⟨_, _, rfl⟩
  · exact eq_false_iff.mpr fun hdue => hnot (due_iff.mp hdue)
  · change (_ && (update t.alarms i _ i).live) = _
    rw [update_self]
    exact and_false _

lemma deferred_of_expire : t'.deferred.length = t.deferred.length + (t.due time i).toNat := by
  rcases expire_cases hexpire with ⟨hnot, rfl⟩ | ⟨htime, hlive, rfl⟩
  · rw [eq_false_iff.mpr fun hdue => hnot (due_iff.mp hdue)]
    rfl
  · rw [due_iff.mpr ⟨htime, hlive⟩]
    exact length_append

end

lemma counted_of_expire (hcounted : (t.installed : Int) ≤ t.numAlarmsInstalled)
    (hexpire : t.expire time i = .ok t') : (t'.installed : Int) ≤ t'.numAlarmsInstalled := by
  rcases expire_cases hexpire with ⟨_, rfl⟩ | ⟨_, hlive, rfl⟩
  · exact hcounted
  · have hchange := t.installed_put i ⟨expiredAlarm, (t.alarms i).job⟩
    have hexpired : (Alarm.mk expiredAlarm (t.alarms i).job).live = false := rfl
    rw [hexpired, hlive, toNat_true, toNat_false] at hchange
    change (((t.put i ⟨expiredAlarm, (t.alarms i).job⟩).installed : Nat) : Int)
      ≤ t.numAlarmsInstalled - 1
    omega

/-- All alarms that are due go off when the queue has room for them. -/
lemma handleFrom_ok (hnodup : todo.Nodup)
    (hroom : t.deferred.length + todo.countP (t.due time) ≤ deferLimit) :
    ∃ t', handleFrom time todo t = .ok t' := by
  induction todo generalizing t with
  | nil => exact ⟨t, rfl⟩
  | cons i rest ih =>
    obtain ⟨hnot, hrest⟩ := nodup_cons.mp hnodup
    rw [countP_cons] at hroom
    unfold handleFrom
    split
    · obtain ⟨next, hnext⟩ : ∃ next, t.expire time i = .ok next := by
        refine expire_ok fun hdue => ?_
        rw [if_pos hdue] at hroom
        omega
      rw [hnext]
      refine ih hrest ?_
      have hsame : rest.countP (next.due time) = rest.countP (t.due time) :=
        countP_congr fun j hj => by
          rw [due_of_ne hnext fun heq => hnot (heq ▸ hj)]
      rw [deferred_of_expire hnext]
      cases hdue : t.due time i with
      | false =>
        rw [toNat_false]
        omega
      | true =>
        rw [if_pos hdue] at hroom
        rw [toNat_true]
        omega
    · exact ⟨t, rfl⟩

/-- The loop leaves no alarm that is due, although it stops early when the
counter is at zero: no alarm is left then. -/
lemma handleFrom_leaves (hcounted : (t.installed : Int) ≤ t.numAlarmsInstalled)
    (hdone : ∀ i, i ∉ todo → t.due time i = false)
    (h : handleFrom time todo t = .ok t') (i : Fin maxAlarms) : t'.due time i = false := by
  induction todo generalizing t with
  | nil =>
    cases h
    exact hdone i not_mem_nil
  | cons head rest ih =>
    unfold handleFrom at h
    split at h
    · split at h
      · cases h
      · rename_i next hnext
        refine ih (counted_of_expire hcounted hnext) (fun j hj => ?_) h
        by_cases heq : j = head
        · rw [heq]
          exact due_of_expire hnext
        · rw [due_of_ne hnext heq]
          exact hdone j fun hmem =>
            hj ((mem_cons.mp hmem).resolve_left heq)
    · have hnone : t.installed = 0 := by omega
      have hdead := countP_eq_zero.mp hnone i (mem_slots i)
      cases h
      exact eq_false_iff.mpr fun hdue => hdead (due_iff.mp hdue).2

end Timer

namespace System

/-- A slot holds an alarm that has not gone off. -/
def holds (alarm : UnixAlarm) (slot : Alarm Call) : Bool :=
  slot.live && slot.job == some (.unixAlarmHandler alarm)

/-- How often an alarm waits in a slot. -/
def waiting (s : System) (alarm : UnixAlarm) : Nat :=
  slots.countP fun i => holds alarm (s.timer.alarms i)

/-- How often the handler of an alarm waits in the queue. -/
def pending (s : System) (alarm : UnixAlarm) : Nat :=
  s.timer.deferred.count (some (.unixAlarmHandler alarm))

/-- How often an alarm has raised its signal. -/
def raisedFor (s : System) (alarm : UnixAlarm) : Nat :=
  (s.raised.map Prod.fst).count alarm

/-- How often an alarm was replaced. -/
def replacedFor (s : System) (alarm : UnixAlarm) : Nat :=
  (s.replaced.map Prod.fst).count alarm

/-- Every alarm that was installed waits in a slot, waits for its handler, has
raised its signal or was replaced; and it does so once. -/
structure Sound (s : System) : Prop where
  balance : ∀ alarm, s.waiting alarm + s.pending alarm + s.raisedFor alarm +
    s.replacedFor alarm = s.installed.count alarm
  serial_lt : ∀ alarm ∈ s.installed, alarm.serial < s.installed.length
  nodup : s.installed.Nodup
  counted : (s.timer.installed : Int) ≤ s.timer.numAlarmsInstalled
  slotTime : ∀ i alarm, holds alarm (s.timer.alarms i) = true →
    (s.timer.alarms i).wakeupTime = alarm.time
  deferredDue : ∀ alarm, some (.unixAlarmHandler alarm) ∈ s.timer.deferred →
    alarm.time ≤ s.timer.systemTime
  raisedDue : ∀ record ∈ s.raised, record.1.time ≤ record.2
  replacedOwn : ∀ record ∈ s.replaced, record.1.thread = record.2
  phases : ∀ thread, (s.phase thread).Sane

variable {s s' : System} {i : Fin maxAlarms} {thread : Nat} {event : UnixEvent}

lemma handler_beq (alarm other : UnixAlarm) :
    (some (Call.unixAlarmHandler alarm) ==
      some (Call.unixAlarmHandler other)) = (alarm == other) := by
  rw [Bool.eq_iff_iff, beq_iff_eq, beq_iff_eq, Option.some.injEq, Call.unixAlarmHandler.injEq]

variable {alarm : UnixAlarm} {slot : Alarm Call} {time : Nat} {t : Timer Call}

lemma holds_iff :
    holds alarm slot = true ↔ slot.live = true ∧ slot.job = some (.unixAlarmHandler alarm) := by
  unfold holds
  rw [and_eq_true, beq_iff_eq]

lemma holds_of_not_live (h : slot.live = false) : holds alarm slot = false := by
  unfold holds
  rw [h, Bool.false_and]

lemma holds_of_live (h : slot.live = true) :
    holds alarm slot = (slot.job == some (.unixAlarmHandler alarm)) := by
  unfold holds
  rw [h, Bool.true_and]

/-- The phases, when one thread goes to another. -/
lemma Sound.phases_update (h : s.Sound) {phase : Phase} (hphase : phase.Sane)
    (other : Nat) : (update s.phase thread phase other).Sane := by
  rw [update_apply]
  split
  · exact hphase
  · exact h.phases other

section

variable (halarms : s'.timer.alarms = (s.timer.put i slot).alarms)
include halarms

/-- A slot is written; the alarms that wait follow. -/
lemma waiting_put (alarm : UnixAlarm) :
    s'.waiting alarm + (holds alarm (s.timer.alarms i)).toNat =
      s.waiting alarm + (holds alarm slot).toNat := by
  unfold waiting
  rw [halarms]
  exact countP_update (holds alarm) s.timer.alarms slot nodup_slots (mem_slots i)

lemma installed_put :
    s'.timer.installed + (s.timer.alarms i).live.toNat = s.timer.installed + slot.live.toNat := by
  have hchange := s.timer.installed_put i slot
  unfold Timer.installed at hchange ⊢
  rw [halarms]
  exact hchange

end

section

variable (h : s.Sound)
include h

/-- A step that writes one slot. -/
lemma Sound.put (halarms : s'.timer.alarms = (s.timer.put i slot).alarms)
    (htime : ∀ alarm, holds alarm slot = true → slot.wakeupTime = alarm.time)
    (hbalance : ∀ alarm, (holds alarm slot).toNat + s'.pending alarm +
      s'.raisedFor alarm + s'.replacedFor alarm + s.installed.count alarm =
      (holds alarm (s.timer.alarms i)).toNat + s.pending alarm +
      s.raisedFor alarm + s.replacedFor alarm + s'.installed.count alarm)
    (hcounted : s.timer.numAlarmsInstalled + slot.live.toNat ≤
      s'.timer.numAlarmsInstalled + (s.timer.alarms i).live.toNat)
    (hserial : ∀ alarm ∈ s'.installed, alarm.serial < s'.installed.length)
    (hnodup : s'.installed.Nodup)
    (hdeferred : ∀ alarm, some (.unixAlarmHandler alarm) ∈ s'.timer.deferred →
      alarm.time ≤ s'.timer.systemTime) (hraised : ∀ record ∈ s'.raised, record.1.time ≤ record.2)
    (hreplaced : ∀ record ∈ s'.replaced, record.1.thread = record.2)
    (hphases : ∀ thread, (s'.phase thread).Sane) : s'.Sound := by
  refine ⟨fun alarm => ?_, hserial, hnodup, ?_, fun j alarm => ?_, hdeferred,
    hraised, hreplaced, hphases⟩
  · have hbefore := h.balance alarm
    have hafter := hbalance alarm
    have hwaiting := waiting_put halarms alarm
    omega
  · have hbefore := h.counted
    have hinstalled := installed_put halarms
    omega
  · rw [halarms]
    change holds alarm (update s.timer.alarms i slot j) = true →
      (update s.timer.alarms i slot j).wakeupTime = alarm.time
    rw [update_apply]
    split
    · exact htime alarm
    · exact h.slotTime j alarm

/-- A step that changes only what a thread keeps for itself. -/
lemma Sound.aside (phase : Phase) (hphase : phase.Sane) (hstep : s' = { s with
      alarmId := s'.alarmId
      remaining := s'.remaining
      phase := update s.phase thread phase }) : s'.Sound := by
  rw [hstep]
  exact { h with phases := h.phases_update hphase }

lemma Sound.receivedTimer {nanos : Nat} (hroom : s.timer.systemTime + nanos < 2 ^ 64) :
    Sound { s with timer := s.timer.receivedTimer nanos } where
  __ := h
  deferredDue alarm hmem := by
    have hdue := h.deferredDue alarm hmem
    change alarm.time ≤ (s.timer.systemTime + nanos) % 2 ^ 64
    omega

/-- One slot goes off. -/
lemma Sound.expire (htime : time ≤ s.timer.systemTime)
    (hexpire : s.timer.expire time i = .ok t) : Sound { s with timer := t } := by
  rcases expire_cases hexpire with ⟨_, rfl⟩ | ⟨hdue, hlive, rfl⟩
  · exact h
  · have hexpired : (Alarm.mk expiredAlarm (s.timer.alarms i).job).live = false := rfl
    refine h.put (i := i) rfl (fun alarm hholds => ?_) (fun alarm => ?_) ?_
      h.serial_lt h.nodup (fun alarm hmem => ?_) h.raisedDue h.replacedOwn h.phases
    · cases hholds
    · rw [holds_of_not_live hexpired, holds_of_live hlive]
      unfold pending raisedFor replacedFor
      dsimp only
      rw [count_append, count_singleton]
      cases (s.timer.alarms i).job == some (.unixAlarmHandler alarm) with
      | false =>
        rw [if_neg Bool.false_ne_true]
        omega
      | true =>
        rw [if_pos rfl, Bool.toNat_true, Bool.toNat_false]
        omega
    · rw [hexpired, hlive, Bool.toNat_true, Bool.toNat_false]
      dsimp only
      omega
    · rcases mem_append.mp hmem with hmem | hmem
      · exact h.deferredDue alarm hmem
      · have hjob := mem_singleton.mp hmem
        have htimes := h.slotTime i alarm (holds_iff.mpr ⟨hlive, hjob.symm⟩)
        change alarm.time ≤ s.timer.systemTime
        omega

lemma Sound.handleAlarms (htime : time ≤ s.timer.systemTime)
    (hhandle : s.timer.handleAlarms time = .ok t) : Sound { s with timer := t } := by
  have hkept : time ≤ t.systemTime ∧ Sound { s with timer := t } := by
    refine handleFrom_keeps (P := fun t => time ≤ t.systemTime ∧ Sound { s with timer := t })
      ?_ slots ⟨htime, h⟩ hhandle
    rintro i t t' ⟨hle, hsound⟩ hexpire
    refine ⟨?_, hsound.expire hle hexpire⟩
    rcases expire_cases hexpire with ⟨_, rfl⟩ | ⟨_, _, rfl⟩
    · exact hle
    · exact hle
  exact hkept.2

lemma Sound.deferUntilIrql (hdefer : s.timer.deferUntilIrql (some .other) = .ok t) :
    Sound { s with timer := t } := by
  unfold Timer.deferUntilIrql at hdefer
  split at hdefer
  · cases hdefer
  · cases hdefer
    refine { h with
      balance := fun alarm => ?_
      deferredDue := fun alarm hmem => ?_ }
    · have hbalance := h.balance alarm
      unfold pending at hbalance ⊢
      rw [count_append, count_singleton]
      exact hbalance
    · rcases mem_append.mp hmem with hmem | hmem
      · exact h.deferredDue alarm hmem
      · cases mem_singleton.mp hmem

end

/-- A deferred function that starts leaves the queue. -/
lemma count_of_start {index : Nat} {call : Option Call}
    (hcall : s.timer.deferred[index]? = some call) (other : Option Call) :
    s.timer.deferred.count other = (s.timer.deferred.eraseIdx index).count other +
        if call == other then 1 else 0 := by
  obtain ⟨hindex, rfl⟩ := List.getElem?_eq_some_iff.mp hcall
  rw [← (List.getElem_cons_eraseIdx_perm hindex).count_eq, count_cons]

lemma Sound.start (h : s.Sound) (index : Nat) : (s.start index).Sound := by
  have hmem : ∀ alarm, some (.unixAlarmHandler alarm) ∈
      s.timer.deferred.eraseIdx index → alarm.time ≤ s.timer.systemTime :=
    fun alarm hmem => h.deferredDue alarm (mem_of_mem_eraseIdx hmem)
  unfold System.start
  split
  · rename_i alarm hcall
    refine { h with
      balance := fun other => ?_
      deferredDue := hmem
      raisedDue := fun record hrecord => ?_ }
    · have hbalance := h.balance other
      have hcount := count_of_start hcall (some (.unixAlarmHandler other))
      unfold pending raisedFor replacedFor at hbalance ⊢
      change s.waiting other + _ + _ + _ = _
      rw [map_append, count_append, map_singleton, count_singleton]
      dsimp only
      rw [handler_beq] at hcount
      omega
    · rcases mem_append.mp hrecord with hrecord | hrecord
      · exact h.raisedDue record hrecord
      · rw [mem_singleton.mp hrecord]
        exact h.deferredDue alarm (mem_of_getElem? hcall)
  · rename_i hother
    refine { h with balance := fun other => ?_, deferredDue := hmem }
    have hbalance := h.balance other
    suffices hpending : (s.timer.deferred.eraseIdx index).count
        (some (.unixAlarmHandler other)) = s.pending other by
      unfold pending
      rw [hpending]
      exact hbalance
    unfold pending
    cases hcall : s.timer.deferred[index]? with
    | none => rw [eraseIdx_of_length_le (List.getElem?_eq_none_iff.mp hcall)]
    | some call =>
      rw [count_of_start hcall, if_neg, Nat.add_zero]
      rw [beq_iff_eq]
      rintro rfl
      exact hother other hcall

/-- What a thread does that destroys the alarm it knows of. -/
lemma destroyAlarm_cases (s : System) (thread : Nat) :
    (s.waitingOf thread = none ∧ s.destroyAlarm thread = (.error .einval, s)) ∨
    ∃ i, s.slotOf thread = some i ∧ (s.timer.alarms i).wakeupTime ≠ 0 ∧
      s.destroyAlarm thread = (.ok (s.timer.timeLeft i),
        { s with timer := s.timer.put i ⟨0, (s.timer.alarms i).job⟩ }) := by
  unfold destroyAlarm waitingOf slotOf
  rcases s.timer.updateAlarm_cases (s.alarmId thread) true with
    ⟨hfree, hupdate⟩ | ⟨i, hslot, hused, hupdate⟩
  · rw [hupdate]
    refine .inl ⟨?_, rfl⟩
    split
    · rfl
    · rename_i i hslot
      rw [hslot, Option.all_some, beq_iff_eq] at hfree
      rw [if_neg]
      exact fun hlive => (Alarm.live_iff.mp hlive).1 hfree
  · rw [hupdate]
    exact .inr ⟨i, hslot, hused, rfl⟩

lemma Sound.finish (h : s.Sound) {index : Nat}
    (hspent : (UnixEvent.finish index).isolates s = true) : (s.finish index).Sound := by
  unfold System.finish
  split
  · exact h
  · rename_i alarm hhandler
    dsimp only [UnixEvent.isolates] at hspent
    rw [hhandler] at hspent
    rcases s.destroyAlarm_cases alarm.thread with
      ⟨_, hdestroy⟩ | ⟨i, hslot, _, hdestroy⟩
    · rw [hdestroy]
      exact { h with }
    · rw [hdestroy]
      have hdead : (s.timer.alarms i).live = false := by
        have hall := (and_eq_true_iff.mp hspent).2
        rw [hslot, Option.all_some, not_eq_true'] at hall
        exact hall
      have hfree : (Alarm.mk 0 (s.timer.alarms i).job).live = false := rfl
      refine h.put (i := i) rfl (fun other hholds => ?_) (fun other => ?_) ?_
        h.serial_lt h.nodup h.deferredDue h.raisedDue h.replacedOwn h.phases
      · cases hholds
      · rw [holds_of_not_live hdead]
        rfl
      · rw [hdead]
        exact Int.le_refl _

/-- The alarm in a slot of the thread's own. -/
lemma count_alarmIn (howns : s.ownsSlot thread = true) (hslot : s.slotOf thread = some i)
    (hused : (s.timer.alarms i).wakeupTime ≠ 0) (other : UnixAlarm) :
    (s.alarmIn i).toList.count other =
      ((s.timer.alarms i).job == some (.unixAlarmHandler other)).toNat := by
  unfold ownsSlot at howns
  rw [hslot, Option.all_some, or_eq_true, beq_iff_eq] at howns
  have hany := howns.resolve_left hused
  unfold alarmIn at hany ⊢
  split at hany
  · rename_i alarm hjob
    rw [hjob, Option.toList_some, count_singleton]
    rw [handler_beq]
    cases alarm == other <;> rfl
  · cases hany

lemma count_waitingOf (howns : s.ownsSlot thread = true) (hslot : s.slotOf thread = some i)
    (hused : (s.timer.alarms i).wakeupTime ≠ 0) (other : UnixAlarm) :
    (s.waitingOf thread).toList.count other = (holds other (s.timer.alarms i)).toNat := by
  unfold waitingOf
  rw [hslot]
  dsimp only
  cases hlive : (s.timer.alarms i).live with
  | false =>
    rw [holds_of_not_live hlive]
    rfl
  | true =>
    rw [holds_of_live hlive]
    exact count_alarmIn howns hslot hused other

section

variable (h : s.Sound)

include h

/-- The alarm that a thread replaces is its own. -/
lemma Sound.replaced_append (howns : s.ownsSlot thread = true) :
    ∀ record ∈ s.replaced ++ (s.waitingOf thread).toList.map fun alarm => (alarm, thread),
    record.1.thread = record.2 := by
  intro record hmem
  rcases mem_append.mp hmem with hmem | hmem
  · exact h.replacedOwn record hmem
  · obtain ⟨alarm, halarm, rfl⟩ := mem_map.mp hmem
    have hwaiting := Option.mem_toList.mp halarm
    unfold waitingOf at hwaiting
    unfold ownsSlot at howns
    split at hwaiting
    · cases hwaiting
    · rename_i i hslot
      split at hwaiting
      · rename_i hlive
        rw [hslot, Option.all_some, or_eq_true, beq_iff_eq,
          Option.mem_def.mp hwaiting, Option.any_some, beq_iff_eq] at howns
        exact howns.resolve_left (Alarm.live_iff.mp hlive).1
      · cases hwaiting

lemma Sound.installUnixAlarm {microseconds : Nat} (howns : s.ownsSlot thread = true) :
    (s.installUnixAlarm thread microseconds).Sound := by
  have hphases : ∀ result other, (update s.phase thread
      (.destroyed microseconds result) other).Sane :=
    fun result => h.phases_update trivial
  unfold System.installUnixAlarm
  split
  · rcases s.destroyAlarm_cases thread with
      ⟨hnone, hdestroy⟩ | ⟨i, hslot, hused, hdestroy⟩
    · rw [hdestroy, hnone, Option.toList_none, map_nil, append_nil]
      exact { h with phases := hphases _ }
    · rw [hdestroy]
      have hfree : (Alarm.mk 0 (s.timer.alarms i).job).live = false := rfl
      refine h.put (i := i) rfl (fun other hholds => ?_) (fun other => ?_) ?_
        h.serial_lt h.nodup h.deferredDue h.raisedDue (h.replaced_append howns) (hphases _)
      · cases hholds
      · have hwaiting := count_waitingOf howns hslot hused other
        change _ + s.pending other + s.raisedFor other +
            ((s.replaced ++ _).map Prod.fst).count other + s.installed.count other =
          _ + _ + _ + _ + s.installed.count other
        rw [holds_of_not_live hfree, map_append, count_append, map_map]
        change 0 + _ + _ + (s.replacedFor other +
          ((s.waitingOf thread).toList.map id).count other) + _ = _
        rw [map_id]
        omega
      · rw [hfree]
        change s.timer.numAlarmsInstalled + _ ≤ s.timer.numAlarmsInstalled + _
        rw [toNat_false]
        omega
  · exact h

lemma Sound.clear (thread : Nat) : (s.clear thread).Sound := by
  unfold System.clear
  split
  · rename_i microseconds result _
    have hphase : (if microseconds = 0 then Phase.idle
        else .cleared microseconds).Sane := by
      split
      · trivial
      · assumption
    cases result with
    | ok timeLeft => exact h.aside _ hphase rfl
    | error errno => exact h.aside _ hphase rfl
  · exact h

lemma Sound.createAlarmMicro (hfits : (UnixEvent.createAlarmMicro thread).isolates s = true) :
    (s.createAlarmMicro thread).Sound := by
  unfold System.createAlarmMicro
  dsimp only [UnixEvent.isolates] at hfits
  split
  · rename_i microseconds hcleared
    rw [hcleared] at hfits
    have hless := of_decide_eq_true hfits
    have hsome : microseconds ≠ 0 := by
      have hsane := h.phases thread
      rw [hcleared] at hsane
      exact hsane
    have hexpired : expiredAlarm < 2 ^ 64 := by decide
    refine h.aside (.timed _ _) ?_ rfl
    refine ⟨Nat.mod_eq_of_lt (Nat.lt_trans hless hexpired), ?_⟩
    rw [Nat.mod_eq_of_lt (Nat.lt_trans hless hexpired)]
    exact ⟨by omega, Nat.ne_of_lt hless⟩
  · exact h

lemma Sound.check (thread : Nat) : (s.check thread).Sound := by
  unfold System.check
  split
  · rename_i time asked htimed
    split
    · exact h.aside .idle trivial rfl
    · refine h.aside (.checked time asked) ?_ rfl
      have hsane := h.phases thread
      rw [htimed] at hsane
      exact hsane
  · exact h

/-- A new alarm is put into a free slot. -/
lemma Sound.created {asked : Nat} {id : Int} (hsane : (Phase.checked time asked).Sane)
    (hfree : s.timer.firstFree = some i) : Sound { s with
      timer := { s.timer.put i ⟨time, some (.unixAlarmHandler
          ⟨thread, s.installed.length, asked⟩)⟩ with
        numAlarmsInstalled := s.timer.numAlarmsInstalled + 1 }
      installed := s.installed ++ [⟨thread, s.installed.length, asked⟩]
      alarmId := update s.alarmId thread id
      phase := update s.phase thread .idle } := by
  obtain ⟨rfl, hnonzero, hunexpired⟩ := hsane
  have hlive : (Alarm.mk time (some (Call.unixAlarmHandler
      ⟨thread, s.installed.length, time⟩))).live = true :=
    Alarm.live_iff.mpr ⟨hnonzero, hunexpired⟩
  have hdead := live_of_firstFree hfree
  refine h.put (i := i) rfl (fun alarm hholds => ?_) (fun alarm => ?_) ?_ ?_ ?_
    h.deferredDue h.raisedDue h.replacedOwn (h.phases_update trivial)
  · rw [holds_of_live hlive, handler_beq, beq_iff_eq] at hholds
    rw [← hholds]
  · rw [holds_of_live hlive, holds_of_not_live hdead, handler_beq]
    change _ + s.pending alarm + s.raisedFor alarm + s.replacedFor alarm + _ =
      _ + _ + _ + _ + (s.installed ++ [_]).count alarm
    rw [count_append, count_singleton, Bool.toNat_false]
    cases (⟨thread, s.installed.length, time⟩ : UnixAlarm) == alarm with
    | false =>
      rw [if_neg Bool.false_ne_true, Bool.toNat_false]
      omega
    | true =>
      rw [if_pos rfl, Bool.toNat_true]
      omega
  · rw [hlive, hdead, Bool.toNat_true]
    dsimp only
    omega
  · intro alarm hmem
    rw [length_append]
    rcases mem_append.mp hmem with hmem | hmem
    · have hless := h.serial_lt alarm hmem
      omega
    · rw [mem_singleton.mp hmem]
      exact Nat.lt_succ_self _
  · refine nodup_append.mpr ⟨h.nodup, nodup_singleton _, ?_⟩
    rintro alarm hmem other hother rfl
    have hless := h.serial_lt alarm hmem
    rw [mem_singleton.mp hother] at hless
    exact Nat.lt_irrefl _ hless

lemma Sound.create (hroom : (UnixEvent.create thread).isolates s = true) :
    (s.create thread).Sound := by
  unfold System.create
  split
  · rename_i time asked hchecked
    have hsane := h.phases thread
    rw [hchecked] at hsane
    dsimp only [UnixEvent.isolates] at hroom
    rw [or_eq_true, decide_eq_true_eq] at hroom
    dsimp only
    rcases s.timer.installAlarm_cases time
      (.unixAlarmHandler ⟨thread, s.installed.length, asked⟩) hroom with
      ⟨_, hinstall⟩ | ⟨i, _, hfree, hinstall⟩
    · rw [hinstall]
      rw [append_nil]
      exact h.aside .idle trivial rfl
    · rw [hinstall]
      exact h.created hsane hfree
  · exact h

end

lemma Sound.init : System.init.Sound where
  balance alarm := by
    have hnone : System.init.waiting alarm = 0 := countP_eq_zero.mpr fun i _ => false_ne_true
    rw [hnone]
    rfl
  serial_lt := nofun
  nodup := nodup_nil
  counted := Int.le_of_eq Timer.Accounted.init.symm
  slotTime := nofun
  deferredDue := nofun
  raisedDue := nofun
  replacedOwn := nofun
  phases _ := trivial

lemma Sound.step (h : s.Sound) (hpossible : event.possible s = true)
    (hisolates : event.isolates s = true) (hstep : event.run s = .ok s') : s'.Sound := by
  cases event with
  | receivedTimer nanos =>
    cases hstep
    exact h.receivedTimer (of_decide_eq_true hisolates)
  | handleAlarms time =>
    change UnixEvent.onTimer s (s.timer.handleAlarms time) = .ok s' at hstep
    unfold UnixEvent.onTimer at hstep
    split at hstep
    · cases hstep
    · rename_i t hhandle
      cases hstep
      exact h.handleAlarms (of_decide_eq_true hpossible) hhandle
  | deferUntilIrql =>
    change UnixEvent.onTimer s (s.timer.deferUntilIrql _) = .ok s' at hstep
    unfold UnixEvent.onTimer at hstep
    split at hstep
    · cases hstep
    · rename_i t hdefer
      cases hstep
      exact h.deferUntilIrql hdefer
  | start index =>
    cases hstep
    exact h.start index
  | finish index =>
    cases hstep
    exact h.finish hisolates
  | installUnixAlarm thread microseconds =>
    cases hstep
    exact h.installUnixAlarm hisolates
  | clear thread =>
    cases hstep
    exact h.clear thread
  | createAlarmMicro thread =>
    cases hstep
    exact h.createAlarmMicro hisolates
  | check thread =>
    cases hstep
    exact h.check thread
  | create thread =>
    cases hstep
    exact h.create hisolates

lemma Sound.run {events : List UnixEvent}
    (hrun : Run (Step UnixEvent.isolates) System.init events s) : s.Sound := by
  refine hrun.invariant Sound.init ?_
  rintro state event next hsound ⟨hguard, hstep⟩
  obtain ⟨hpossible, hisolates⟩ := and_eq_true_iff.mp hguard
  exact hsound.step hpossible hisolates hstep

/-- A thread that destroys an alarm in a slot of its own leaves the alarms of
other threads. -/
lemma destroyAlarm_untouched (howns : s.ownsSlot thread = true) (halarm : s.alarmIn i = some alarm)
    (hother : alarm.thread ≠ thread) (hused : (s.timer.alarms i).wakeupTime ≠ 0) :
    (s.destroyAlarm thread).2.timer.alarms i = s.timer.alarms i := by
  rcases s.destroyAlarm_cases thread with
    ⟨_, hdestroy⟩ | ⟨j, hslot, _, hdestroy⟩
  · rw [hdestroy]
  · rw [hdestroy]
    refine update_of_ne ?_ ..
    rintro rfl
    unfold ownsSlot at howns
    rw [hslot, Option.all_some, or_eq_true, beq_iff_eq, halarm,
      Option.any_some, beq_iff_eq] at howns
    exact hother (howns.resolve_left hused)

lemma create_untouched (hroom : (UnixEvent.create thread).isolates s = true)
    (hused : (s.timer.alarms i).wakeupTime ≠ 0) :
    (s.create thread).timer.alarms i = s.timer.alarms i := by
  unfold create
  split
  · rename_i time asked hchecked
    dsimp only [UnixEvent.isolates] at hroom
    rw [or_eq_true, decide_eq_true_eq] at hroom
    dsimp only
    rcases s.timer.installAlarm_cases time
      (.unixAlarmHandler ⟨thread, s.installed.length, asked⟩) hroom with
      ⟨_, hinstall⟩ | ⟨j, _, hfree, hinstall⟩
    · rw [hinstall]
      rfl
    · rw [hinstall]
      refine update_of_ne ?_ ..
      rintro rfl
      exact hused (wakeupTime_of_firstFree hfree)
  · rfl

/-- A step for one thread leaves the alarms of the others. -/
lemma step_untouched (hisolates : event.isolates s = true)
    (hstep : event.run s = .ok s') (hactor : event.actor s = some thread)
    (halarm : s.alarmIn i = some alarm) (hother : alarm.thread ≠ thread)
    (hused : (s.timer.alarms i).wakeupTime ≠ 0) : s'.timer.alarms i = s.timer.alarms i := by
  cases event with
  | receivedTimer nanos => cases hactor
  | handleAlarms time => cases hactor
  | deferUntilIrql => cases hactor
  | start index =>
    cases hstep
    unfold start
    split <;> rfl
  | finish index =>
    cases hstep
    unfold finish
    dsimp only [UnixEvent.isolates, UnixEvent.actor] at hisolates hactor
    split
    · rfl
    · rename_i handler hhandler
      rw [hhandler] at hisolates
      rw [hhandler, Option.map_some, Option.some.injEq] at hactor
      subst hactor
      exact destroyAlarm_untouched (and_eq_true_iff.mp hisolates).1 halarm hother hused
  | installUnixAlarm thread microseconds =>
    cases hstep
    cases hactor
    unfold installUnixAlarm
    split
    · exact destroyAlarm_untouched hisolates halarm hother hused
    · rfl
  | clear thread =>
    cases hstep
    unfold clear
    split
    · dsimp only
      split <;> rfl
    · rfl
  | createAlarmMicro thread =>
    cases hstep
    unfold createAlarmMicro
    split <;> rfl
  | check thread =>
    cases hstep
    unfold check
    split
    · split <;> rfl
    · rfl
  | create thread =>
    cases hstep
    exact create_untouched hisolates hused

/-- A time left that is reported is that of the thread's own alarm. -/
lemma destroyAlarm_own (howns : s.ownsSlot thread = true) {timeLeft : Nat}
    (hreport : (s.destroyAlarm thread).1 = .ok timeLeft) : ∃ i alarm, s.slotOf thread = some i ∧
    s.alarmIn i = some alarm ∧ alarm.thread = thread ∧ timeLeft = s.timer.timeLeft i := by
  rcases s.destroyAlarm_cases thread with
    ⟨_, hdestroy⟩ | ⟨i, hslot, hused, hdestroy⟩
  · rw [hdestroy] at hreport
    cases hreport
  · rw [hdestroy] at hreport
    cases hreport
    unfold ownsSlot at howns
    rw [hslot, Option.all_some, or_eq_true, beq_iff_eq] at howns
    obtain ⟨alarm, halarm, hthread⟩ := (Option.any_eq_true ..).mp (howns.resolve_left hused)
    exact ⟨i, alarm, hslot, halarm, beq_iff_eq.mp hthread, rfl⟩

/-- What the threads can rely on.  An alarm waits, is about to be handled, has
raised its signal or was replaced, one of these and once; the signal was not
raised early, and it was its own thread that replaced it; a step for one
thread leaves the alarms of the others, and the time it reports is that of its
own alarm; and a call of `HandleAlarms` sets off all that is due. -/
structure Isolated (s : System) : Prop where
  once : ∀ alarm ∈ s.installed, s.waiting alarm + s.pending alarm +
    s.raisedFor alarm + s.replacedFor alarm = 1
  raised : ∀ record ∈ s.raised,
    record.1 ∈ s.installed ∧ record.1.time ≤ record.2
  replaced : ∀ record ∈ s.replaced, record.1.thread = record.2
  untouched : ∀ event s' thread, Step UnixEvent.isolates s event s' →
    event.actor s = some thread → ∀ i alarm, s.alarmIn i = some alarm →
      alarm.thread ≠ thread → (s.timer.alarms i).wakeupTime ≠ 0 →
        s'.timer.alarms i = s.timer.alarms i
  reported : ∀ thread microseconds timeLeft,
    (UnixEvent.installUnixAlarm thread microseconds).isolates s = true →
    (s.destroyAlarm thread).1 = .ok timeLeft →
      ∃ i alarm, s.slotOf thread = some i ∧ s.alarmIn i = some alarm ∧
        alarm.thread = thread ∧ timeLeft = s.timer.timeLeft i
  goesOff : ∀ time, (UnixEvent.handleAlarms time).possible s = true →
    (UnixEvent.handleAlarms time).isolates s = true →
      ∃ t, s.timer.handleAlarms time = .ok t ∧
        ∀ i alarm, holds alarm (t.alarms i) = true → time < alarm.time

lemma Sound.once (h : s.Sound) (hmem : alarm ∈ s.installed) :
    s.waiting alarm + s.pending alarm + s.raisedFor alarm + s.replacedFor alarm = 1 := by
  rw [h.balance alarm]
  exact count_eq_one_of_mem h.nodup hmem

lemma Sound.raised_installed (h : s.Sound) {record : UnixAlarm × Nat}
    (hmem : record ∈ s.raised) : record.1 ∈ s.installed := by
  have hraised : 0 < s.raisedFor record.1 := count_pos_iff.mpr (mem_map_of_mem hmem)
  have hbalance := h.balance record.1
  exact count_pos_iff.mp (by omega)

lemma Sound.goesOff (h : s.Sound) (hpossible : (UnixEvent.handleAlarms time).possible s = true)
    (hroom : (UnixEvent.handleAlarms time).isolates s = true) :
    ∃ t, s.timer.handleAlarms time = .ok t ∧ ∀ i alarm, holds alarm (t.alarms i) = true →
    time < alarm.time := by
  obtain ⟨t, ht⟩ := handleFrom_ok nodup_slots (of_decide_eq_true hroom)
  refine ⟨t, ht, fun i alarm hholds => ?_⟩
  have hsound := h.handleAlarms (of_decide_eq_true hpossible) ht
  have hleft := handleFrom_leaves h.counted (fun i hnot => absurd (mem_slots i) hnot) ht i
  have htime := hsound.slotTime i alarm hholds
  refine Nat.lt_of_not_le fun hle => ?_
  have hdue := due_iff.mpr ⟨htime.le.trans hle, (holds_iff.mp hholds).1⟩
  rw [hleft] at hdue
  cases hdue

end System

/-- As long as threads and handlers destroy only alarms of their own, new
alarms have slots and times to go to and the queue has room, the alarms of the
threads do not disturb each other. -/
theorem run_alarm_isolation {events : List UnixEvent} {s : System}
    (hrun : Run (System.Step UnixEvent.isolates) System.init events s) :
    s.Isolated := by
  have hsound := System.Sound.run hrun
  exact
    { once := fun alarm hmem => hsound.once hmem
      raised := fun record hmem =>
        ⟨hsound.raised_installed hmem, hsound.raisedDue record hmem⟩
      replaced := hsound.replacedOwn
      untouched := fun event s' thread hstep hactor i alarm =>
        System.step_untouched (and_eq_true_iff.mp hstep.1).2 hstep.2 hactor
      reported := fun thread microseconds timeLeft howns =>
        System.destroyAlarm_own howns
      goesOff := fun time hpossible hroom => hsound.goesOff hpossible hroom }

/-- A thread installs an alarm. -/
def install (thread microseconds : Nat) : List UnixEvent :=
  [.installUnixAlarm thread microseconds, .clear thread,
    .createAlarmMicro thread, .check thread, .create thread]

/-- Two threads install alarms, the first goes off, and the second is
replaced. -/
def twoAlarms : List UnixEvent :=
  install 0 1 ++ install 1 5 ++
    [.receivedTimer 2000, .handleAlarms 2000, .start 0, .finish 0] ++
    install 1 7

theorem twoAlarms_isolated : ∃ s, Run (System.Step UnixEvent.isolates) System.init twoAlarms s ∧
    (s.raised = [(⟨0, 0, 1000⟩, 2000)] ∧ s.replaced = [(⟨1, 1, 5000⟩, 1)]) ∧ s.Isolated :=
  exists_run_and (fun _ _ _ hguard hnext => ⟨hguard, hnext⟩)
    (fun hrun _ => run_alarm_isolation hrun) (by decide +kernel)

/-- The alarm of the first thread has gone off and the second thread got its
slot when the first installs another alarm. -/
def reusedSlot : List UnixEvent :=
  install 0 1 ++
    [.receivedTimer 1000, .handleAlarms 1000, .start 0, .finish 0] ++
    install 1 5 ++ install 0 7

/-- The second thread's alarm is cancelled by the first. -/
theorem reusedSlot_not_isolated : ∃ s, Run (System.Step fun _ _ => true) System.init reusedSlot s ∧
    s.replaced = [(⟨1, 1, 6000⟩, 0)] ∧ s.remaining 0 = 5 ∧ s.waiting ⟨1, 1, 6000⟩ = 0 :=
  exists_run_test (fun _ _ _ hguard hnext => ⟨hguard, hnext⟩) (by decide +kernel)

end Merlon.Alarms
