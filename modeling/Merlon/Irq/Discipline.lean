/-
Deferred calls run in order: lowering the level runs the queued calls down to
the target, each at its own level and the highest first, also when handlers
raise and lower the level and defer further calls.
-/
import Merlon.Irq.Irql

namespace Merlon.Irq

open Adt List

/-! Levels. -/

variable {level target current bound limit : Nat}
  {cpu : Cpu} {run : Script → Cpu → Except Stop Cpu} {current' : Nat} {bound' : Nat}

lemma settle_of_ne (h : level ≠ irqlStandardHighPriority) : settle level = level := if_neg h

lemma settle_ne (level : Nat) : settle level ≠ irqlStandardHighPriority := by
  unfold settle
  split_ifs with h
  · decide
  · exact h

lemma le_settle (htarget : target ≠ irqlStandardHighPriority)
    (hle : target ≤ level) : target ≤ settle level := by
  unfold settle irqlStandardHighPriority irqlStandard at *
  split_ifs <;> omega

lemma Within.of_lt (h : level < current) : Within current level := .inl h.le

lemma Within.raise (h : Within current level) (hle : current ≤ current')
    (hlevel : current' ≠ irqlStandardHighPriority) : Within current' level := by
  unfold Within irqlStandardHighPriority irqlStandard at *
  omega

lemma Within.settle_of_le {level' : Nat} (h : level' ≤ level) : Within (settle level) level' := by
  unfold Within settle irqlStandardHighPriority irqlStandard
  split_ifs <;> omega

lemma Waits.mono {call : Nat × Deferment} (h : Waits current call)
    (hwithin : Within current call.1 → Within current' call.1) : Waits current' call :=
  ⟨hwithin h.1, h.2⟩

lemma Script.work_pos (script : Script) : 0 < script.work := by
  cases script <;> simp [Script.work]

/-! Accounting. -/

lemma Run.Proper.mono {run : Run} (h : run.Proper bound)
    (hle : bound' ≤ bound) : run.Proper bound' :=
  ⟨hle.trans h.1, h.2⟩

lemma Advances.refl (bound : Nat) (cpu : Cpu) : Advances bound cpu cpu :=
  ⟨[], [], by simp, by simp, by simp, by simp⟩

lemma Advances.mono {cpu' : Cpu} (h : Advances bound cpu cpu')
    (hle : bound' ≤ bound) : Advances bound' cpu cpu' := by
  obtain ⟨runs, calls, hran, hqueued, hperm, hproper⟩ := h
  exact ⟨runs, calls, hran, hqueued, hperm, fun run hrun => (hproper run hrun).mono hle⟩

lemma Advances.trans {cpu' cpu'' : Cpu} (hfirst : Advances bound cpu cpu')
    (hnext : Advances bound cpu' cpu'') : Advances bound cpu cpu'' := by
  obtain ⟨runs, calls, hran, hqueued, hperm, hproper⟩ := hfirst
  obtain ⟨runs', calls', hran', hqueued', hperm', hproper'⟩ := hnext
  refine ⟨runs ++ runs', calls ++ calls', ?_, ?_, ?_, ?_⟩
  · rw [hran', hran, append_assoc]
  · rw [hqueued', hqueued, append_assoc]
  · rw [map_append, append_assoc, ← append_assoc _ calls]
    refine (hperm'.append_left _).trans ?_
    rw [← append_assoc]
    exact hperm.append_right _
  · intro run hrun
    rcases mem_append.mp hrun with hrun | hrun
    · exact hproper run hrun
    · exact hproper' run hrun

/-! The steps. -/

@[simp] lemma onQueue_ok {α : Type} (value : α) : onQueue (.ok value) = .ok value :=
  rfl

/-- The only failure left: a call for a queue that is full. -/
def Full (stop : Stop) : Prop :=
  stop = .queue .insertWhenFull

lemma Cpu.Ready.setLevel (hready : cpu.Ready) (hlevel : level ≠ irqlStandardHighPriority)
    (hwithin : ∀ call ∈ cpu.deferredFunctions.contents,
      Within cpu.irql call.1 → Within level call.1) : { cpu with irql := level }.Ready :=
  ⟨hready.initialised, hready.max_heap, hready.ordered, hlevel,
    fun call hcall => (hready.waits call hcall).mono (hwithin call hcall)⟩

lemma raiseIrql_ready (hready : cpu.Ready) (hle : cpu.irql ≤ level)
    (hlevel : level ≠ irqlStandardHighPriority) :
    raiseIrql level cpu = .ok { cpu with irql := level } ∧ { cpu with irql := level }.Ready :=
  ⟨if_neg (by omega), hready.setLevel hlevel fun _ _ hwithin => hwithin.raise hle hlevel⟩

/-- A call that is put on the queue. -/
lemma enqueue_ready (hready : cpu.Ready) {irql context : Nat} {script : Script}
    (hlt : irql < cpu.irql) (hbehaves : script.Behaves (settle irql) (settle irql)) (bound : Nat)
    (run : Script → Cpu → Except Stop Cpu) :
    Ends (deferUntilIrql run irql ⟨context, some script⟩ cpu) Full fun cpu' => cpu'.Ready ∧
    cpu'.irql = cpu.irql ∧ Advances bound cpu cpu' ∧ cpu'.work = script.work + cpu.work := by
  have hnot : ¬ (irql = cpu.irql ∨
      (irql = irqlStandardHighPriority ∧ cpu.irql = irqlStandard)) := by
    unfold irqlStandard
    omega
  rw [deferUntilIrql, if_neg hnot, if_neg (by omega), if_pos hready.initialised]
  by_cases hroom : cpu.deferredFunctions.size = cpu.deferredFunctions.capacity
  · rw [HeapAdt.heapAdtInsert, if_pos hroom]
    rfl
  · obtain ⟨queue, hinsert, hordered, hmax, _, hperm⟩ :=
      HeapAdt.heapAdtInsert_spec cpu.deferredFunctions
        ⟨context, some script⟩ irql hready.ordered hroom
    rw [hinsert]
    refine ⟨⟨hready.initialised, hmax.trans hready.max_heap, hordered,
      hready.level, ?_⟩, rfl, ⟨[], [(irql, ⟨context, some script⟩)], by simp, rfl, ?_, by simp⟩, ?_⟩
    · intro call hcall
      rcases mem_cons.mp (hperm.mem_iff.mp hcall) with rfl | hold
      · exact ⟨Within.of_lt hlt, script, rfl, hbehaves⟩
      · exact hready.waits call hold
    · exact hperm.trans (perm_append_singleton _ _).symm
    · exact (hperm.map _).sum_nat

lemma level_le_top (hmax : cpu.deferredFunctions.max = true)
    (hordered : cpu.deferredFunctions.Ordered) : ∀ call ∈ cpu.deferredFunctions.contents,
    call.1 ≤ (cpu.deferredFunctions.array 0).1 := by
  intro call hcall
  obtain ⟨i, hi, rfl⟩ := mem_map.mp hcall
  have habove := hordered.root_above (mem_range.mp hi)
  rwa [HeapAdt.Above, if_pos hmax] at habove

/-- A call that is taken from the queue. -/
lemma start_ready (hready : cpu.Ready) (hpos : 0 < cpu.deferredFunctions.size)
    (hbound : bound ≤ (cpu.deferredFunctions.array 0).1) :
    ∃ queue, cpu.deferredFunctions.heapAdtPop = .ok queue ∧
      let call := cpu.deferredFunctions.array 0
      (cpu.start (settle call.1) call queue).Ready ∧
      Advances bound cpu (cpu.start (settle call.1) call queue) ∧
      cpu.work = call.2.work + (cpu.start (settle call.1) call queue).work := by
  obtain ⟨queue, hpop, hordered, hmax, _, hperm⟩ := HeapAdt.heapAdtPop_spec hpos hready.ordered
  have htop : ∀ call ∈ queue.contents, call.1 ≤ (cpu.deferredFunctions.array 0).1 := by
    intro call hcall
    exact level_le_top hready.max_heap hready.ordered call
      (hperm.mem_iff.mpr (mem_cons_of_mem _ hcall))
  refine ⟨queue, hpop, ⟨hready.initialised, hmax.trans hready.max_heap,
    hordered, settle_ne _, ?_⟩, ?_, (hperm.map _).sum_nat⟩
  · intro call hcall
    have hold := hready.waits call (hperm.mem_iff.mpr (mem_cons_of_mem _ hcall))
    exact hold.mono fun _ => Within.settle_of_le (htop call hcall)
  · refine ⟨[⟨cpu.deferredFunctions.array 0, _, _⟩], [], rfl, by simp [Cpu.start], ?_, ?_⟩
    · simpa [Cpu.start] using hperm.symm
    · intro run hrun
      obtain rfl := mem_singleton.mp hrun
      refine ⟨hbound, rfl, ?_⟩
      intro level hlevel
      obtain ⟨call, hcall, rfl⟩ := mem_map.mp hlevel
      exact htop call hcall

/-- What the handlers of a run do: a handler that behaves ends at its own
level, and the steps left have become fewer. -/
def Handles (run : Script → Cpu → Except Stop Cpu) (limit : Nat) : Prop :=
  ∀ script own cpu, cpu.Ready → own ≤ cpu.irql → script.Behaves own cpu.irql →
    script.work + cpu.work ≤ limit → Ends (run script cpu) Full fun cpu' => cpu'.Ready ∧
    cpu'.irql = own ∧ Advances own cpu cpu' ∧ cpu'.work < script.work + cpu.work

lemma lowerLoop_ready (hrun : Handles run limit) (htarget : target ≠ irqlStandardHighPriority)
    (fuel : Nat) (hready : cpu.Ready) (hle : target ≤ cpu.irql) (hfuel : cpu.work < fuel)
    (hlimit : cpu.work ≤ limit) : Ends (lowerLoop run target fuel cpu.irql cpu) Full fun cpu' =>
      cpu'.Ready ∧ Advances target cpu cpu' ∧ cpu'.work ≤ cpu.work ∧
        ∀ call ∈ cpu'.deferredFunctions.contents, call.1 < target := by
  induction fuel generalizing cpu with
  | zero => omega
  | succ fuel ih =>
    rw [lowerLoop]
    split_ifs with hmore
    · have hpos := hmore.2
      have hpeek := (HeapAdt.heapAdtPeek_spec hpos hready.ordered).1
      have hmem : cpu.deferredFunctions.array 0 ∈ cpu.deferredFunctions.contents :=
        mem_map.mpr ⟨0, mem_range.mpr hpos, rfl⟩
      obtain ⟨hwithin, script, hscript, hbehaves⟩ := hready.waits _ hmem
      rw [hpeek]
      change Ends (if Within cpu.irql (cpu.deferredFunctions.array 0).1
        then _ else _) _ _
      split_ifs with hreached
      · obtain ⟨queue, hpop, hstart, hadvance, hwork⟩ := start_ready hready hpos hreached
        have hcost : (cpu.deferredFunctions.array 0).2.work = script.work := by
          rw [Deferment.work, hscript]
        simp only [hscript, hpop, onQueue_ok, ok_bind]
        refine Ends.bind (hrun script _ _ hstart (Nat.le_refl _) hbehaves (by omega)) ?_
        rintro cpu' ⟨hready', hlevel', hadvance', hwork'⟩
        have hbound := le_settle htarget hreached
        have hrest := ih hready' (hlevel' ▸ hbound) (by omega) (by omega)
        rw [hlevel'] at hrest
        refine hrest.imp fun last ⟨hlast, hdone, hleft, hbelow⟩ => ?_
        exact ⟨hlast, hadvance.trans ((hadvance'.mono hbound).trans hdone), by omega, hbelow⟩
      · refine ⟨hready, Advances.refl _ _, Nat.le_refl _, ?_⟩
        intro call hcall
        have htop := level_le_top hready.max_heap hready.ordered call hcall
        omega
    · refine ⟨hready, Advances.refl _ _, Nat.le_refl _, ?_⟩
      have hempty : cpu.deferredFunctions.size = 0 := by
        have := hready.initialised
        simp_all
      simp [HeapAdt.contents, hempty]

lemma arrive_ready (hready : cpu.Ready) (htarget : target ≠ irqlStandardHighPriority)
    (hbelow : ∀ call ∈ cpu.deferredFunctions.contents, call.1 < target) :
    (cpu.arrive target).Ready ∧ (cpu.arrive target).irql = target ∧
    (cpu.arrive target).deferredFunctions = cpu.deferredFunctions ∧
    (cpu.arrive target).queued = cpu.queued ∧ (cpu.arrive target).ran = cpu.ran := by
  have hlevel := hready.setLevel htarget fun call hcall _ => Within.of_lt (hbelow call hcall)
  unfold Cpu.arrive
  rw [settle_of_ne htarget]
  dsimp only
  split_ifs
  · exact ⟨{ hlevel with }, rfl, rfl, rfl, rfl⟩
  · exact ⟨hlevel, rfl, rfl, rfl, rfl⟩

section

variable (hrun : Handles run limit)
include hrun

lemma lowerWith_ready {fuel : Nat}
    (hready : cpu.Ready) (htarget : target ≠ irqlStandardHighPriority)
    (hle : target ≤ cpu.irql) (hfuel : cpu.work < fuel) (hlimit : cpu.work ≤ limit) :
    Ends (lowerWith run fuel target cpu) Full fun cpu' =>
      cpu'.Ready ∧ cpu'.irql = target ∧ Advances target cpu cpu' ∧ cpu'.work ≤ cpu.work ∧
        ∀ call ∈ cpu'.deferredFunctions.contents, call.1 < target := by
  rw [lowerWith, if_neg (by omega)]
  refine Ends.bind (lowerLoop_ready hrun htarget fuel hready hle hfuel hlimit) ?_
  rintro last ⟨hlast, ⟨runs, calls, hran, hcalls, hperm, hproper⟩, hwork, hbelow⟩
  obtain ⟨harrive, hirql, hqueue, hqueued, hruns⟩ := arrive_ready hlast htarget hbelow
  refine ⟨harrive, hirql, ⟨runs, calls, hruns.trans hran,
    hqueued.trans hcalls, ?_, hproper⟩, ?_, ?_⟩
  · rwa [hqueue]
  · rwa [Cpu.work, hqueue]
  · rwa [hqueue]

/-- The rest of a handler, after its first action. -/
lemma Handles.rest {rest : Script} {own total : Nat} {cpu' : Cpu}
    (hready : cpu'.Ready) (hown : own ≤ cpu'.irql) (hbehaves : rest.Behaves own cpu'.irql)
    (hadvance : Advances own cpu cpu') (hwork : rest.work + cpu'.work < total)
    (hlimit : total ≤ limit + 1) : Ends (run rest cpu') Full fun last => last.Ready ∧
    last.irql = own ∧ Advances own cpu last ∧ last.work < total := by
  refine (hrun rest own cpu' hready hown hbehaves (by omega)).imp ?_
  rintro last ⟨hlast, hirql, hdone, hleft⟩
  exact ⟨hlast, hirql, hadvance.trans hdone, by omega⟩

lemma deferUntilIrql_ready (hready : cpu.Ready) {context own : Nat}
    {handler : Script} (hown : own ≤ cpu.irql) (hwithin : Within cpu.irql level)
    (hbehaves : handler.Behaves (settle level) (settle level))
    (hlimit : handler.work + cpu.work ≤ limit) :
    Ends (deferUntilIrql run level ⟨context, some handler⟩ cpu) Full fun cpu' => cpu'.Ready ∧
    cpu'.irql = cpu.irql ∧ Advances own cpu cpu' ∧ cpu'.work ≤ handler.work + cpu.work := by
  by_cases hnow : level = cpu.irql ∨ (level = irqlStandardHighPriority ∧ cpu.irql = irqlStandard)
  · have hlevel : settle level = cpu.irql := by
      rcases hnow with rfl | ⟨rfl, hstandard⟩
      · exact settle_of_ne hready.level
      · exact hstandard.symm
    rw [deferUntilIrql, if_pos hnow]
    rw [hlevel] at hbehaves
    refine (hrun handler _ cpu hready (Nat.le_refl _) hbehaves hlimit).imp ?_
    rintro cpu' ⟨hready', hirql, hadvance, hwork⟩
    exact ⟨hready', hirql, hadvance.mono hown, hwork.le⟩
  · have hlt : level < cpu.irql := by
      unfold Within at hwithin
      omega
    refine (enqueue_ready hready hlt hbehaves own run).imp ?_
    rintro cpu' ⟨hready', hirql, hadvance, hwork⟩
    exact ⟨hready', hirql, hadvance, hwork.le⟩

end

/-- A run of handlers with enough steps. -/
lemma handle_handles (fuel : Nat) : Handles (handle fuel) fuel := by
  induction fuel with
  | zero =>
    intro script own cpu _ _ _ hwork
    cases script <;> simp [Script.work] at hwork
  | succ fuel ih =>
    intro script own cpu hready hown hbehaves hwork
    cases script with
    | done =>
      refine ⟨hready, hbehaves, Advances.refl _ _, ?_⟩
      simp [Script.work]
    | raise level rest =>
      obtain ⟨hle, hlevel, hrest⟩ := hbehaves
      obtain ⟨hraise, hready'⟩ := raiseIrql_ready hready hle hlevel
      rw [handle, hraise]
      refine ih.rest hready' (hown.trans hle) hrest ?_ ?_ hwork
      · exact Advances.refl own cpu
      · change rest.work + cpu.work < rest.work + 1 + cpu.work
        omega
    | lower level rest =>
      obtain ⟨hbound, hle, hlevel, hrest⟩ := hbehaves
      simp only [Script.work] at hwork ⊢
      refine Ends.bind (lowerWith_ready ih hready hlevel hle
        (by have := rest.work_pos; omega) (by omega)) ?_
      rintro cpu' ⟨hready', rfl, hadvance, hleft, _⟩
      exact ih.rest hready' hbound hrest (hadvance.mono hbound) (by omega) hwork
    | defer level context handler rest =>
      obtain ⟨hwithin, hhandler, hrest⟩ := hbehaves
      simp only [Script.work] at hwork ⊢
      refine Ends.bind (deferUntilIrql_ready ih hready hown hwithin hhandler (by omega)) ?_
      rintro cpu' ⟨hready', hirql, hadvance, hleft⟩
      exact ih.rest hready' (hirql ▸ hown) (hirql ▸ hrest) hadvance (by omega) hwork

/-- A CPU after `InitIrql` has nothing in its queue. -/
lemma initIrql_ready {irql : Nat} (hlevel : irql ≠ irqlStandardHighPriority)
    (postponedTaskSwitch : Bool) (array : Nat → Nat × Deferment) :
    (initIrql irql postponedTaskSwitch array).Ready :=
  ⟨rfl, rfl, fun _ _ hlt => absurd hlt (Nat.not_lt_zero _), hlevel, fun _ hcall => nomatch hcall⟩

lemma filter_append_left {α : Type} {keep : α → Bool}
    {first second : List α} (hfirst : ∀ a ∈ first, keep a = true)
    (hsecond : ∀ a ∈ second, keep a = false) : (first ++ second).filter keep = first := by
  rw [filter_append, filter_eq_self.mpr hfirst,
    filter_eq_nil_iff.mpr (by simpa using hsecond), append_nil]

/-- Lowering the level runs the queued calls down to the target, those that
handlers queue on the way too: each once, at its own level and when no call
for a higher level waits.  The calls for lower levels stay in the queue. -/
theorem lowerIrql_runs_queued {cpu : Cpu} (hready : cpu.Ready) {target : Nat}
    (htarget : target ≠ irqlStandardHighPriority) (hle : target ≤ cpu.irql)
    {fuel : Nat} (hfuel : cpu.work < fuel) :
    Ends (lowerIrql fuel target cpu) (· = .queue .insertWhenFull) fun cpu' =>
      cpu'.Ready ∧ cpu'.irql = target ∧
      ∃ runs calls, cpu'.ran = cpu.ran ++ runs ∧ cpu'.queued = cpu.queued ++ calls ∧
        (runs.map Run.call).Perm
        ((cpu.deferredFunctions.contents ++ calls).filter fun call => target ≤ call.1) ∧
        cpu'.deferredFunctions.contents.Perm
        ((cpu.deferredFunctions.contents ++ calls).filter fun call => call.1 < target) ∧
        ∀ run ∈ runs, run.irql = settle run.call.1 ∧ ∀ level ∈ run.waiting, level ≤ run.call.1 := by
  refine (lowerWith_ready (handle_handles fuel) hready htarget hle hfuel hfuel.le).imp ?_
  rintro cpu' ⟨hready', hirql, ⟨runs, calls, hran, hcalls, hperm, hproper⟩, _, hbelow⟩
  have hruns : ∀ call ∈ runs.map Run.call, target ≤ call.1 := by
    intro call hcall
    obtain ⟨run, hrun, rfl⟩ := mem_map.mp hcall
    exact (hproper run hrun).1
  refine ⟨hready', hirql, runs, calls, hran, hcalls, ?_, ?_, fun run hrun => (hproper run hrun).2⟩
  · have hfilter := hperm.filter fun call => decide (target ≤ call.1)
    rwa [filter_append_left (by simpa using hruns) (by simpa using hbelow)] at hfilter
  · have hfilter := (perm_append_comm.trans hperm).filter fun call => decide (call.1 < target)
    rwa [filter_append_left (by simpa using hbelow) (by simpa using hruns)] at hfilter

/-- Two calls wait on a CPU at level 40, for level 4 and for
`irqlStandardHighPriority`.  The first raises the level again, defers a call
to level 3 and goes back. -/
def twoWaiting : Cpu where
  irql := 40
  initIrqlDone := true
  deferredFunctions :=
    { capacity := 32
      size := 2
      max := true
      array := fun i =>
        if i = 0 then (4, ⟨0, some (.raise 40 (.defer 3 2 .done (.lower 4 .done)))⟩)
        else (1, ⟨1, some .done⟩) }
  postponedTaskSwitch := false
  taskSwitches := 0
  queued := []
  ran := []

lemma twoWaiting_ready : twoWaiting.Ready := by
  refine ⟨rfl, rfl, ?_, by decide, ?_⟩
  · intro i hpos hlt _
    obtain rfl : i = 1 := by
      change i < 2 at hlt
      omega
    simp [HeapAdt.Above, twoWaiting]
  · simp [HeapAdt.contents, twoWaiting, Waits, Within, Script.Behaves, settle,
      irqlStandardHighPriority, range_succ]

theorem lowerIrql_runs_queued_two : (lowerIrql 7 0 twoWaiting).toOption.map
        (fun cpu => (cpu.irql, cpu.ran.map fun run => (run.call.1, run.irql))) =
      some (0, [(4, 4), (3, 3), (1, 0)]) ∧
    Ends (lowerIrql 7 0 twoWaiting) (· = .queue .insertWhenFull) fun cpu' =>
      cpu'.Ready ∧ cpu'.irql = 0 ∧
      ∃ runs calls, cpu'.ran = twoWaiting.ran ++ runs ∧ cpu'.queued = twoWaiting.queued ++ calls ∧
        (runs.map Run.call).Perm
        ((twoWaiting.deferredFunctions.contents ++ calls).filter fun call => 0 ≤ call.1) ∧
        cpu'.deferredFunctions.contents.Perm
        ((twoWaiting.deferredFunctions.contents ++ calls).filter fun call => call.1 < 0) ∧
        ∀ run ∈ runs, run.irql = settle run.call.1 ∧ ∀ level ∈ run.waiting, level ≤ run.call.1 :=
  ⟨by decide, lowerIrql_runs_queued twoWaiting_ready (by decide) (by decide) (by decide)⟩

end Merlon.Irq
