/-
Alarms, from `kernel/thread/timer.c`.  A slot is free, holds the time at which
its alarm goes off, or is expired; the number of installed alarms is counted
apart from the slots.
-/
import Merlon.Library.Machine
import Merlon.Library.Tally
import Mathlib.Data.List.FinRange

namespace Merlon.Alarms

open List

def maxAlarms : Nat := 256

/-- `EXPIRED_ALARM`. -/
def expiredAlarm : Nat := 2 ^ 64 - 1

/-- The capacity of the queue of deferred functions. -/
def deferLimit : Nat := 32

inductive Errno where
  | einval
  | eagain
  | ealready
  deriving DecidableEq

/-- The panic of an insertion into a full queue. -/
inductive Stop where
  | insertWhenFull
  deriving DecidableEq

/-- `struct alarm`; the callback and its argument are one job. -/
structure Alarm (α : Type) where
  wakeupTime : Nat
  job : Option α

/-- A slot holds an alarm that has not gone off. -/
def Alarm.live {α : Type} (alarm : Alarm α) : Bool :=
  alarm.wakeupTime != 0 && alarm.wakeupTime != expiredAlarm

/-- The alarms, the time, and the functions deferred to `IRQL_STANDARD`. -/
structure Timer (α : Type) where
  alarms : Fin maxAlarms → Alarm α
  numAlarmsInstalled : Int
  systemTime : Nat
  deferred : List (Option α)

/-- All slots, from the first to the last. -/
@[irreducible] def slots : List (Fin maxAlarms) :=
  finRange maxAlarms

namespace Timer

variable {α : Type}

/-- `InitTimer`. -/
def init : Timer α where
  alarms := fun _ => ⟨0, none⟩
  numAlarmsInstalled := 0
  systemTime := 0
  deferred := []

/-- The time part of `ReceivedTimer`. -/
def receivedTimer (t : Timer α) (nanos : Nat) : Timer α :=
  { t with systemTime := (t.systemTime + nanos) % 2 ^ 64 }

/-- A slot is written. -/
def put (t : Timer α) (i : Fin maxAlarms) (alarm : Alarm α) : Timer α :=
  { t with alarms := Function.update t.alarms i alarm }

/-- The first slot that is free. -/
def firstFree (t : Timer α) : Option (Fin maxAlarms) :=
  slots.find? fun i => (t.alarms i).wakeupTime == 0

/-- `CreateAlarmAbsolute` from where it has the scheduler lock: the status,
and what is written to `*id_out`. -/
def installAlarm (t : Timer α) (time : Nat) (job : α) :
    (Except Errno Unit × Option Int) × Timer α :=
  if (maxAlarms : Int) ≤ t.numAlarmsInstalled then
    ((.error .eagain, some (-1)), t)
  else
    let stored := match t.firstFree with
      | none => t
      | some i => t.put i ⟨time, some job⟩
    ((.ok (), t.firstFree.map fun i => (i.val : Int)),
      { stored with numAlarmsInstalled := t.numAlarmsInstalled + 1 })

def createAlarmAbsolute (t : Timer α) (time : Nat) (job : α) :
    (Except Errno Unit × Option Int) × Timer α :=
  if time < t.systemTime then ((.error .ealready, some (-1)), t)
  else t.installAlarm time job

/-- `DeferUntilIrql` at a higher level than `IRQL_STANDARD`. -/
def deferUntilIrql (t : Timer α) (job : Option α) : Except Stop (Timer α) :=
  if t.deferred.length = deferLimit then .error .insertWhenFull
  else .ok { t with deferred := t.deferred ++ [job] }

/-- A slot that is due expires, and its job is deferred. -/
def expire (t : Timer α) (time : Nat) (i : Fin maxAlarms) : Except Stop (Timer α) :=
  let alarm := t.alarms i
  if alarm.wakeupTime ≤ time ∧ alarm.wakeupTime ≠ 0 ∧ alarm.wakeupTime ≠ expiredAlarm then
    let expired := t.put i { alarm with wakeupTime := expiredAlarm }
    deferUntilIrql { expired with numAlarmsInstalled := t.numAlarmsInstalled - 1 } alarm.job
  else .ok t

/-- The loop of `HandleAlarms`. -/
def handleFrom (time : Nat) : List (Fin maxAlarms) → Timer α → Except Stop (Timer α)
  | [], t => .ok t
  | i :: rest, t =>
    if 0 < t.numAlarmsInstalled then
      match t.expire time i with
      | .error stop => .error stop
      | .ok next => handleFrom time rest next
    else .ok t

def handleAlarms (t : Timer α) (time : Nat) : Except Stop (Timer α) :=
  handleFrom time slots t

/-- The slot that an alarm id names. -/
def slot (id : Int) : Option (Fin maxAlarms) :=
  if h : 0 ≤ id ∧ id.toNat < maxAlarms then some ⟨id.toNat, h.2⟩ else none

/-- The time left that `UpdateAlarm` reports for a slot in use. -/
def timeLeft (t : Timer α) (i : Fin maxAlarms) : Nat :=
  if (t.alarms i).wakeupTime ≤ t.systemTime then 1
  else if (t.alarms i).wakeupTime = expiredAlarm then 0
  else (t.alarms i).wakeupTime - t.systemTime

/-- `GetAlarmTimeRemaining` and, with `destroy`, `DestroyAlarm`. -/
def updateAlarm (t : Timer α) (id : Int) (destroy : Bool) : Except Errno Nat × Timer α :=
  match slot id with
  | none => (.error .einval, t)
  | some i =>
    if (t.alarms i).wakeupTime = 0 then (.error .einval, t)
    else (.ok (t.timeLeft i),
      if destroy then t.put i { t.alarms i with wakeupTime := 0 } else t)

/-- The slots that hold alarms that have not gone off. -/
def installed (t : Timer α) : Nat :=
  slots.countP fun i => (t.alarms i).live

end Timer

/-- The calls that change the alarms, the passing of time, and the queue of
deferred functions as others fill it and as it empties. -/
inductive Event (α : Type) where
  | receivedTimer (nanos : Nat)
  | createAlarmAbsolute (time : Nat) (job : α)
  | handleAlarms (time : Nat)
  | updateAlarm (id : Int) (destroy : Bool)
  | deferUntilIrql (job : α)
  | start (index : Nat)

namespace Event

variable {α : Type}

def run (t : Timer α) : Event α → Except Stop (Timer α)
  | .receivedTimer nanos => .ok (t.receivedTimer nanos)
  | .createAlarmAbsolute time job => .ok (t.createAlarmAbsolute time job).2
  | .handleAlarms time => t.handleAlarms time
  | .updateAlarm id destroy => .ok (t.updateAlarm id destroy).2
  | .deferUntilIrql job => t.deferUntilIrql (some job)
  | .start index => .ok { t with deferred := t.deferred.eraseIdx index }

/-- An alarm that is created has a time of its own and a slot to go to, and no
alarm is destroyed before it has gone off. -/
def spares (t : Timer α) : Event α → Bool
  | .createAlarmAbsolute time job =>
    decide (time < t.systemTime) || decide ((maxAlarms : Int) ≤ t.numAlarmsInstalled) ||
      ((Alarm.mk time (some job)).live && t.firstFree.isSome)
  | .updateAlarm id true => (Timer.slot id).all fun i => !(t.alarms i).live
  | _ => true

end Event

def Timer.Step {α : Type} (guard : Timer α → Event α → Bool) (t : Timer α)
    (event : Event α) (t' : Timer α) : Prop :=
  guard t event = true ∧ event.run t = .ok t'

section Slots

lemma mem_slots (i : Fin maxAlarms) : i ∈ slots := by
  unfold slots
  exact mem_finRange i

lemma nodup_slots : slots.Nodup := by
  unfold slots
  exact nodup_finRange maxAlarms

lemma length_slots : slots.length = maxAlarms := by
  unfold slots
  exact length_finRange

end Slots

lemma Alarm.live_iff {α : Type} {alarm : Alarm α} : alarm.live = true ↔
    alarm.wakeupTime ≠ 0 ∧ alarm.wakeupTime ≠ expiredAlarm := by
  unfold Alarm.live
  rw [Bool.and_eq_true, bne_iff_ne, bne_iff_ne]

namespace Timer

variable {α : Type} {t t' : Timer α} {i : Fin maxAlarms} {time : Nat}

lemma wakeupTime_of_firstFree (hfree : t.firstFree = some i) : (t.alarms i).wakeupTime = 0 := by
  have hfound := find?_some hfree
  exact beq_iff_eq.mp hfound

lemma live_of_firstFree (hfree : t.firstFree = some i) : (t.alarms i).live = false := by
  unfold Alarm.live
  rw [wakeupTime_of_firstFree hfree]
  rfl

/-- What a creation does that passes the check of the time. -/
lemma installAlarm_cases (t : Timer α) (time : Nat) (job : α)
    (hroom : (maxAlarms : Int) ≤ t.numAlarmsInstalled ∨ t.firstFree.isSome = true) :
    ((maxAlarms : Int) ≤ t.numAlarmsInstalled ∧ t.installAlarm time job =
        ((Except.error .eagain, some (-1)), t)) ∨
    ∃ i, t.numAlarmsInstalled < maxAlarms ∧ t.firstFree = some i ∧
      t.installAlarm time job = ((Except.ok (), some (i.val : Int)), { t.put i ⟨time, some job⟩ with
          numAlarmsInstalled := t.numAlarmsInstalled + 1 }) := by
  unfold installAlarm
  split
  · rename_i hfull
    exact .inl ⟨hfull, rfl⟩
  · rename_i hless
    obtain ⟨i, hfree⟩ := Option.isSome_iff_exists.mp (hroom.resolve_left hless)
    refine .inr ⟨i, Int.not_le.mp hless, hfree, ?_⟩
    rw [hfree]
    rfl

/-- What a slot that expires does. -/
lemma expire_cases (h : t.expire time i = .ok t') :
    (¬ ((t.alarms i).wakeupTime ≤ time ∧ (t.alarms i).live = true) ∧ t' = t) ∨
    ((t.alarms i).wakeupTime ≤ time ∧ (t.alarms i).live = true ∧
      t' = { t.put i ⟨expiredAlarm, (t.alarms i).job⟩ with
        numAlarmsInstalled := t.numAlarmsInstalled - 1
        deferred := t.deferred ++ [(t.alarms i).job] }) := by
  unfold expire at h
  dsimp only at h
  split at h
  · rename_i hdue
    unfold deferUntilIrql at h
    split at h
    · cases h
    · cases h
      exact .inr ⟨hdue.1, Alarm.live_iff.mpr hdue.2, rfl⟩
  · rename_i hdue
    cases h
    exact .inl ⟨fun hlive => hdue (hlive.imp_right Alarm.live_iff.mp), rfl⟩

/-- What every slot that expires keeps, the whole loop keeps. -/
lemma handleFrom_keeps {P : Timer α → Prop}
    (hexpire : ∀ i (t t' : Timer α), P t → t.expire time i = .ok t' → P t')
    (todo : List (Fin maxAlarms)) (hstart : P t) (h : handleFrom time todo t = .ok t') : P t' := by
  induction todo generalizing t with
  | nil =>
    cases h
    exact hstart
  | cons i rest ih =>
    unfold handleFrom at h
    split at h
    · split at h
      · cases h
      · rename_i next hnext
        exact ih (hexpire i t next hstart hnext) h
    · cases h
      exact hstart

/-- What a call of `UpdateAlarm` does. -/
lemma updateAlarm_cases (t : Timer α) (id : Int) (destroy : Bool) :
    (((slot id).all fun i => (t.alarms i).wakeupTime == 0) = true ∧
      t.updateAlarm id destroy = (.error .einval, t)) ∨
    ∃ i, slot id = some i ∧ (t.alarms i).wakeupTime ≠ 0 ∧
      t.updateAlarm id destroy = (.ok (t.timeLeft i),
        if destroy then t.put i ⟨0, (t.alarms i).job⟩ else t) := by
  unfold updateAlarm
  split
  · rename_i hslot
    rw [hslot]
    exact .inl ⟨rfl, rfl⟩
  · rename_i i hslot
    rw [hslot]
    split
    · rename_i hzero
      exact .inl ⟨beq_iff_eq.mpr hzero, rfl⟩
    · rename_i hused
      exact .inr ⟨i, rfl, hused, rfl⟩

lemma installed_put (t : Timer α) (i : Fin maxAlarms) (alarm : Alarm α) :
    (t.put i alarm).installed + (t.alarms i).live.toNat = t.installed + alarm.live.toNat :=
  countP_update Alarm.live t.alarms alarm nodup_slots (mem_slots i)

/-- The counter counts the alarms that have not gone off. -/
def Accounted (t : Timer α) : Prop :=
  t.numAlarmsInstalled = t.installed

/-- A slot is written and the counter follows. -/
lemma Accounted.put (h : t.Accounted) {alarm : Alarm α}
    (halarms : t'.alarms = (t.put i alarm).alarms)
    (hcount : t'.numAlarmsInstalled + (t.alarms i).live.toNat =
      t.numAlarmsInstalled + alarm.live.toNat) : t'.Accounted := by
  have hchange := t.installed_put i alarm
  have hinstalled : t'.installed = (t.put i alarm).installed := by
    unfold installed
    rw [halarms]
  unfold Accounted at h ⊢
  omega

lemma Accounted.expire (h : t.Accounted) (hexpire : t.expire time i = .ok t') : t'.Accounted := by
  rcases expire_cases hexpire with ⟨_, rfl⟩ | ⟨_, hlive, rfl⟩
  · exact h
  · refine h.put rfl ?_
    have hexpired : (Alarm.mk expiredAlarm (t.alarms i).job).live.toNat = 0 := rfl
    rw [hlive, Bool.toNat_true]
    dsimp only
    omega

/-- The counter is at its limit only when every slot is in use. -/
lemma Accounted.full (h : t.Accounted) (hfull : (maxAlarms : Int) ≤ t.numAlarmsInstalled)
    (i : Fin maxAlarms) : (t.alarms i).wakeupTime ≠ 0 := by
  have hcount : t.installed = slots.length := by
    have hle : t.installed ≤ slots.length := countP_le_length
    unfold Accounted at h
    rw [length_slots] at hle ⊢
    omega
  have hlive := countP_eq_length.mp hcount i (mem_slots i)
  exact (Alarm.live_iff.mp hlive).1

/-- What the status of a creation says about the slots. -/
lemma createAlarmAbsolute_cases (t : Timer α) (time : Nat) (job : α)
    (hspares : (Event.createAlarmAbsolute time job).spares t = true) :
    (∃ error, t.createAlarmAbsolute time job = ((Except.error error, some (-1)), t) ∧
      (error = .eagain → (maxAlarms : Int) ≤ t.numAlarmsInstalled)) ∨
    ∃ i, (Alarm.mk time (some job)).live = true ∧ t.firstFree = some i ∧
      t.createAlarmAbsolute time job = ((Except.ok (), some (i.val : Int)),
        { t.put i ⟨time, some job⟩ with
          numAlarmsInstalled := t.numAlarmsInstalled + 1 }) := by
  unfold createAlarmAbsolute
  dsimp only [Event.spares] at hspares
  simp only [Bool.or_eq_true, Bool.and_eq_true, decide_eq_true_eq] at hspares
  split
  · refine .inl ⟨.ealready, rfl, fun h => ?_⟩
    cases h
  · rename_i htime
    have hroom := (or_assoc.mp hspares).resolve_left htime
    rcases t.installAlarm_cases time job (hroom.imp_right And.right) with
      ⟨hfull, hinstall⟩ | ⟨i, hless, hfree, hinstall⟩
    · exact .inl ⟨.eagain, hinstall, fun _ => hfull⟩
    · exact .inr ⟨i, (hroom.resolve_left (Int.not_le.mpr hless)).1, hfree, hinstall⟩

lemma Accounted.create (h : t.Accounted) {job : α}
    (hspares : (Event.createAlarmAbsolute time job).spares t = true) :
    (t.createAlarmAbsolute time job).2.Accounted := by
  rcases t.createAlarmAbsolute_cases time job hspares with
    ⟨error, hcreate, _⟩ | ⟨i, hlive, hfree, hcreate⟩
  · rw [hcreate]
    exact h
  · rw [hcreate]
    refine h.put (i := i) rfl ?_
    rw [hlive, live_of_firstFree hfree, Bool.toNat_true, Bool.toNat_false]
    dsimp only
    omega

lemma Accounted.updateAlarm (h : t.Accounted) {id : Int} {destroy : Bool}
    (hspares : (Event.updateAlarm id destroy).spares t = true) :
    (t.updateAlarm id destroy).2.Accounted := by
  rcases t.updateAlarm_cases id destroy with ⟨_, hupdate⟩ | ⟨i, hslot, _, hupdate⟩
  · rw [hupdate]
    exact h
  · rw [hupdate]
    cases destroy with
    | false => exact h
    | true =>
      have hdead : (t.alarms i).live = false := by
        dsimp only [Event.spares] at hspares
        rw [hslot, Option.all_some, Bool.not_eq_true'] at hspares
        exact hspares
      refine h.put (i := i) rfl ?_
      rw [hdead]
      rfl

lemma Accounted.step (h : t.Accounted) {event : Event α}
    (hspares : event.spares t = true) (hstep : event.run t = .ok t') : t'.Accounted := by
  cases event with
  | receivedTimer nanos =>
    cases hstep
    exact h
  | createAlarmAbsolute time job =>
    cases hstep
    exact h.create hspares
  | handleAlarms time =>
    exact handleFrom_keeps (fun _ _ _ haccounted hexpire => haccounted.expire hexpire) slots h hstep
  | updateAlarm id destroy =>
    cases hstep
    exact h.updateAlarm hspares
  | deferUntilIrql job =>
    change t.deferUntilIrql (some job) = .ok t' at hstep
    unfold deferUntilIrql at hstep
    split at hstep
    · cases hstep
    · cases hstep
      exact h
  | start index =>
    cases hstep
    exact h

lemma Accounted.init : (Timer.init : Timer α).Accounted := by
  have hnone : (Timer.init : Timer α).installed = 0 :=
    countP_eq_zero.mpr fun i _ => Bool.false_ne_true
  unfold Accounted
  rw [hnone]
  rfl

lemma Accounted.run {events : List (Event α)}
    (hrun : Run (Timer.Step Event.spares) Timer.init events t) : t.Accounted := by
  refine hrun.invariant Accounted.init ?_
  rintro state event next haccounted ⟨hspares, hstep⟩
  exact haccounted.step hspares hstep

end Timer

/-- As long as no alarm is destroyed before it has gone off, and every alarm
has a time of its own and a slot to go to, the counter is right, a creation
that succeeds has used a free slot, and it fails for want of slots only when
there are none. -/
theorem run_alarm_accounting {α : Type} {events : List (Event α)}
    {t : Timer α} (hrun : Run (Timer.Step Event.spares) Timer.init events t) :
    t.numAlarmsInstalled = t.installed ∧
    ∀ time job, (Event.createAlarmAbsolute time job).spares t = true →
      ((t.createAlarmAbsolute time job).1.1 = .ok () →
        ∃ i, (t.alarms i).wakeupTime = 0 ∧
          (t.createAlarmAbsolute time job).1.2 = some (i.val : Int) ∧
          (t.createAlarmAbsolute time job).2.alarms = Function.update t.alarms i ⟨time, some job⟩) ∧
      ((t.createAlarmAbsolute time job).1.1 = .error .eagain →
        ∀ i, (t.alarms i).wakeupTime ≠ 0) := by
  have haccounted := Timer.Accounted.run hrun
  refine ⟨haccounted, fun time job hspares => ?_⟩
  rcases t.createAlarmAbsolute_cases time job hspares with
    ⟨error, hcreate, hfull⟩ | ⟨i, _, hfree, hcreate⟩
  · rw [hcreate]
    refine ⟨fun h => ?_, fun h => ?_⟩
    · cases h
    · cases h
      exact haccounted.full (hfull rfl)
  · rw [hcreate]
    refine ⟨fun _ => ⟨i, Timer.wakeupTime_of_firstFree hfree, rfl, rfl⟩, fun h => ?_⟩
    cases h

/-- One alarm is created and goes off, and its slot is released. -/
def oneAlarm : List (Event Unit) :=
  [.createAlarmAbsolute 5 (), .receivedTimer 5, .handleAlarms 5, .updateAlarm 0 true]

theorem oneAlarm_accounted : ∃ t : Timer Unit, Run (Timer.Step Event.spares) Timer.init oneAlarm t ∧
    (t.systemTime = 5 ∧ t.deferred = [some ()]) ∧ t.numAlarmsInstalled = t.installed :=
  exists_run_and (fun _ _ _ hguard hnext => ⟨hguard, hnext⟩)
    (fun hrun _ => (run_alarm_accounting hrun).1) (by decide +kernel)

/-- An alarm is destroyed before it goes off. -/
def cancelledAlarm : List (Event Unit) :=
  [.createAlarmAbsolute 5 (), .updateAlarm 0 true]

/-- The counter still counts an alarm that was destroyed. -/
theorem cancelledAlarm_not_accounted : ∃ t : Timer Unit,
    Run (Timer.Step fun _ _ => true) Timer.init cancelledAlarm t ∧
    t.numAlarmsInstalled = 1 ∧ t.installed = 0 :=
  exists_run_test (fun _ _ _ hguard hnext => ⟨hguard, hnext⟩) (by decide +kernel)

end Merlon.Alarms
