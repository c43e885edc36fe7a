import ScpuEmu.Cpu.W65C816.RunLength

/-!
# A run and its budget

The cycles that a run returns are the ones its steps have counted. The loop stops by itself,
on the budget or up to eight cycles past it. A batch of more than one instruction is over
before the budget is, so its single tick is never late.
-/

namespace ScpuEmu

namespace W65C816

variable {σ : Type}

namespace Cpu

variable (bus : CpuBus σ)

/-- A step returns the cycles that it has counted. -/
def Counts (cpu : Cpu σ) (result : ℕ × Cpu σ) : Prop :=
  StepLength result.1 ∧ result.2.cycles = cpu.cycles + result.1

/-- What a step returns is the cycles it adds to the clock, its last act. -/
def Consumes (cpu : Cpu σ) (result : ℕ × Cpu σ) : Prop :=
  ∃ (next : Cpu σ) (used : ℕ), result = next.consume used ∧ next.cycles = cpu.cycles

theorem Consumes.of_cycles_eq {cpu cpu' : Cpu σ} {result : ℕ × Cpu σ} (h : cpu'.Consumes result)
    (hcycles : cpu'.cycles = cpu.cycles) : cpu.Consumes result := by
  obtain ⟨next, used, hresult, hnext⟩ := h
  exact ⟨next, used, hresult, hnext.trans hcycles⟩

theorem consumes_dispatch (cpu : Cpu σ) : cpu.Consumes (cpu.dispatch bus) := by
  refine ⟨_, _, rfl, ?_⟩
  cases decode _ <;> rfl

theorem consumes_interrupts (cpu : Cpu σ) (irq : Bool) :
    cpu.Consumes (cpu.interrupts bus irq) := by
  have hcounted : cpu.countDeferred.cycles = cpu.cycles := by
    unfold countDeferred
    split <;> rfl
  have hwake : cpu.countDeferred.wake.cycles = cpu.cycles := by
    rw [← hcounted]
    unfold wake
    split <;> rfl
  unfold interrupts
  split
  · exact ⟨_, _, rfl, rfl⟩
  unfold afterNMI
  split
  · exact ⟨_, _, rfl, hcounted⟩
  split
  · exact ⟨_, _, rfl, hwake⟩
  · exact (consumes_dispatch bus _).of_cycles_eq hwake

theorem consumes_stepInner (cpu : Cpu σ) : cpu.Consumes (cpu.stepInner bus) := by
  have hsample : (cpu.sample bus).2.cycles = cpu.cycles := by
    unfold sample
    split <;> rfl
  unfold stepInner
  split
  · exact consumes_dispatch bus cpu
  split
  · exact ⟨cpu, 1, rfl, rfl⟩
  · exact (consumes_interrupts bus _ _).of_cycles_eq hsample

theorem counts_stepInner (cpu : Cpu σ) : cpu.Counts (cpu.stepInner bus) := by
  obtain ⟨used, hused, hnext⟩ := takes_stepInner bus cpu
  obtain ⟨next, used', hstep, hcycles⟩ := consumes_stepInner bus cpu
  rw [hstep] at hnext ⊢
  have hcounted : (next.consume used').2.cycles = cpu.cycles + used' := by
    rw [← hcycles]
    rfl
  have hsame : used' = used := by omega
  exact ⟨hsame ▸ hused, hcounted⟩

/-- The tick of a single step takes no time of the processor's own. -/
theorem counts_step (cpu : Cpu σ) : cpu.Counts (cpu.step bus) :=
  counts_stepInner bus cpu.rebuildPending

/-! ### The tick of a batch -/

theorem cycles_visited {n : ℕ} {cpu state : Cpu σ} (h : state ∈ batch bus n cpu) :
    cpu.cycles < state.cycles ∧ state.cycles ≤ cpu.cycles + 9 * n := by
  induction n generalizing cpu with
  | zero => exact absurd h List.not_mem_nil
  | succ n ih =>
      obtain ⟨used, ⟨hpos, hused⟩, hstep⟩ := takes_stepInner bus cpu
      rcases List.mem_cons.mp h with rfl | hrest
      · omega
      · split at hrest
        · exact absurd hrest List.not_mem_nil
        · obtain ⟨hlt, hle⟩ := ih hrest
          omega

theorem length_batch_le (n : ℕ) (cpu : Cpu σ) : (batch bus n cpu).length ≤ n := by
  induction n generalizing cpu with
  | zero => exact Nat.le_refl 0
  | succ n ih =>
      rw [batch, List.length_cons]
      split
      · exact Nat.succ_le_succ (Nat.zero_le n)
      · exact Nat.succ_le_succ (ih _)

/-- Eight instructions stay below a budget of more than 80 cycles. -/
theorem batch_within {remaining : ℕ} (hremaining : 80 < remaining) {cpu state : Cpu σ}
    (h : state ∈ batch bus 8 cpu) : state.cycles < cpu.cycles + remaining := by
  obtain ⟨-, hle⟩ := cycles_visited bus h
  omega

/-- A slice holds one instruction, or all of its instructions and its tick come before `due`. -/
def Slice.Timely (due : ℕ) (slice : Slice σ) : Prop :=
  slice.visited.length ≤ 1 ∨
    (∀ state ∈ slice.visited, state.cycles < due) ∧ slice.ticked.cycles < due

theorem timely_slice (remaining : ℕ) (cpu : Cpu σ) :
    (cpu.slice bus remaining).Timely (cpu.cycles + remaining) := by
  by_cases hbatch : 80 < remaining
  · have hlimit : batchLimit remaining = 8 := if_pos hbatch
    have hvisited : (cpu.slice bus remaining).visited = batch bus 8 cpu := by
      rw [← hlimit]
      rfl
    have hwithin : ∀ state ∈ (cpu.slice bus remaining).visited,
        state.cycles < cpu.cycles + remaining := by
      intro state hstate
      rw [hvisited] at hstate
      exact batch_within bus hbatch hstate
    have hlast : (cpu.slice bus remaining).ticked.cycles =
        ((cpu.slice bus remaining).visited.getLastD cpu).cycles := rfl
    refine Or.inr ⟨hwithin, ?_⟩
    rw [hlast]
    have hmem : (cpu.slice bus remaining).visited.getLastD cpu ∈
        cpu :: (cpu.slice bus remaining).visited := List.getLastD_mem_cons
    rcases List.mem_cons.mp hmem with hcpu | hmem
    · rw [hcpu]
      omega
    · exact hwithin _ hmem
  · have hlimit : batchLimit remaining = 1 := if_neg hbatch
    have hlength := length_batch_le bus (batchLimit remaining) cpu
    exact Or.inl (Nat.le_trans hlength (Nat.le_of_eq hlimit))

theorem timely_runLoop (start n fuel : ℕ) (cpu : Cpu σ) (hstart : start ≤ cpu.cycles) :
    ∀ slice ∈ runLoop bus start n fuel cpu, slice.Timely (start + n) := by
  induction fuel generalizing cpu with
  | zero => exact List.forall_mem_nil _
  | succ fuel ih =>
      rw [runLoop]
      split
      next hgoes =>
        have hremaining := Nat.sub_pos_of_lt hgoes.1
        have hdue : cpu.cycles + (n - (cpu.cycles - start)) = start + n := by omega
        obtain ⟨hlt, -⟩ := cycles_slice bus hremaining cpu
        have hfirst := timely_slice bus (n - (cpu.cycles - start)) cpu
        rw [hdue] at hfirst
        refine List.forall_mem_cons.mpr ⟨hfirst, ?_⟩
        split
        · exact List.forall_mem_nil _
        · exact ih _ (by omega)
      next => exact List.forall_mem_nil _

/-! ### The end of a run -/

/-- Once the loop has been given as many turns as there are cycles left, it stops by itself:
more turns change nothing. -/
theorem runLoop_add_fuel (start n fuel extra : ℕ) (cpu : Cpu σ) (hstart : start ≤ cpu.cycles)
    (hfuel : n ≤ cpu.cycles - start + fuel) :
    runLoop bus start n (fuel + extra) cpu = runLoop bus start n fuel cpu := by
  induction fuel generalizing cpu with
  | zero =>
      rw [Nat.zero_add]
      cases extra with
      | zero => rfl
      | succ extra =>
          show (if _ then _ else []) = []
          rw [if_neg fun hgoes => Nat.not_lt_of_le hfuel hgoes.1]
  | succ fuel ih =>
      rw [Nat.succ_add, runLoop, runLoop]
      split
      next hgoes =>
        obtain ⟨hlt, -⟩ := cycles_slice bus (Nat.sub_pos_of_lt hgoes.1) cpu
        have hrest := ih (cpu.slice bus (n - (cpu.cycles - start))).ticked (by omega) (by omega)
        dsimp only
        rw [hrest]
      next => rfl

theorem runSlices_eq (cpu : Cpu σ) {n fuel : ℕ} (hfuel : n ≤ fuel) :
    runLoop bus cpu.cycles n fuel cpu.beginRun = cpu.runSlices bus n := by
  obtain ⟨extra, rfl⟩ := Nat.exists_eq_add_of_le hfuel
  exact runLoop_add_fuel bus cpu.cycles n n extra cpu.beginRun (Nat.le_refl _)
    (Nat.le_add_left _ _)

/-- The result of a run is the cycles counted on the way. -/
theorem cycles_run (cpu : Cpu σ) (n : ℕ) :
    (cpu.run bus n).2.cycles = cpu.cycles + (cpu.run bus n).1 := by
  obtain ⟨hgrown, -⟩ := runLoop_overshoots bus cpu.cycles n n cpu.beginRun (Nat.le_refl _)
    (Nat.le_add_right_of_le (Nat.le_add_right _ _))
  exact (Nat.add_sub_of_le hgrown).symm

theorem getLast?_visited_slice (remaining : ℕ) (cpu : Cpu σ) :
    ∃ state, (cpu.slice bus remaining).visited.getLast? = some state ∧
      (cpu.slice bus remaining).ticked.stopped = state.stopped := by
  have hlimit : batchLimit remaining ≠ 0 := by
    unfold batchLimit
    split <;> decide
  obtain ⟨n, hn⟩ := Nat.exists_eq_succ_of_ne_zero hlimit
  have hsome : (cpu.slice bus remaining).visited ≠ [] := by
    show batch bus (batchLimit remaining) cpu ≠ []
    rw [hn]
    exact List.cons_ne_nil _ _
  have hlast := List.getLast?_eq_some_getLast hsome
  refine ⟨_, hlast, ?_⟩
  show ((cpu.slice bus remaining).visited.getLastD cpu).stopped = _
  rw [List.getLastD_eq_getLast?, hlast]
  rfl

theorem getLast?_visited_runLoop (start n fuel : ℕ) (cpu : Cpu σ) :
    ∀ slice ∈ runLoop bus start n fuel cpu,
      ∃ state, slice.visited.getLast? = some state ∧ slice.ticked.stopped = state.stopped := by
  induction fuel generalizing cpu with
  | zero => exact List.forall_mem_nil _
  | succ fuel ih =>
      rw [runLoop]
      split
      · refine List.forall_mem_cons.mpr ⟨getLast?_visited_slice bus _ cpu, ?_⟩
        split
        · exact List.forall_mem_nil _
        · exact ih _
      · exact List.forall_mem_nil _

theorem runSlices_ne_nil (cpu : Cpu σ) {n : ℕ} (hn : 1 ≤ n) : cpu.runSlices bus n ≠ [] := by
  obtain ⟨n, rfl⟩ := Nat.exists_eq_add_of_le' hn
  have hgoes : cpu.beginRun.cycles - cpu.cycles < n + 1 ∧ cpu.beginRun.core.runBreak = false :=
    ⟨(Nat.sub_self cpu.cycles).symm ▸ Nat.succ_pos n, rfl⟩
  rw [runSlices, runLoop, if_pos hgoes]
  exact List.cons_ne_nil _ _

/-- A run ends with the tick of its last slice: the budget is spent, or a break was requested,
or the last instruction has stopped the processor. -/
theorem run_ends_slice (cpu : Cpu σ) {n : ℕ} (hn : 1 ≤ n) :
    ∃ last state, (cpu.runSlices bus n).getLast? = some last ∧
      last.visited.getLast? = some state ∧ (cpu.run bus n).2 = last.ticked ∧
      (n ≤ (cpu.run bus n).1 ∨ last.ticked.core.runBreak = true ∨ state.stopped = true) := by
  have hlast := List.getLast?_eq_some_getLast (runSlices_ne_nil bus cpu hn)
  generalize (cpu.runSlices bus n).getLast _ = last at hlast
  have hmem : last ∈ cpu.runSlices bus n := List.mem_of_getLast? hlast
  obtain ⟨state, hstate, hstopped⟩ :=
    getLast?_visited_runLoop bus cpu.cycles n n cpu.beginRun last hmem
  have hfinal : (cpu.run bus n).2 = last.ticked := by
    show cpu.beginRun.endOf (cpu.runSlices bus n) = last.ticked
    rw [endOf, hlast]
    rfl
  have hends := run_ends bus cpu n
  rw [hfinal, hstopped] at hends
  exact ⟨last, state, hlast, hstate, hfinal, hends⟩

/-- A run with a budget of `n` cycles ends, after one to `n + 8` cycles and not before the
budget is spent unless a break was requested or the processor has stopped. Each step on the
way counts from one to nine cycles, and a tick for several instructions comes before the
budget is spent. -/
theorem run_keeps_budget (cpu : Cpu σ) (n : ℕ) (hn : 1 ≤ n) :
    (∀ fuel, n ≤ fuel → runLoop bus cpu.cycles n fuel cpu.beginRun = cpu.runSlices bus n) ∧
      ((cpu.run bus n).2.cycles = cpu.cycles + (cpu.run bus n).1 ∧ 1 ≤ (cpu.run bus n).1 ∧
        (cpu.run bus n).1 ≤ n + 8) ∧
      (∃ last state, (cpu.runSlices bus n).getLast? = some last ∧
        last.visited.getLast? = some state ∧ (cpu.run bus n).2 = last.ticked ∧
        (n ≤ (cpu.run bus n).1 ∨ last.ticked.core.runBreak = true ∨ state.stopped = true)) ∧
      (∀ state : Cpu σ, state.Counts (state.stepInner bus) ∧ state.Counts (state.step bus)) ∧
      (∀ remaining, 80 < remaining → ∀ first : Cpu σ, ∀ state ∈ batch bus 8 first,
        state.cycles < first.cycles + remaining) ∧
      ∀ slice ∈ cpu.runSlices bus n, slice.Timely (cpu.cycles + n) := by
  refine ⟨fun fuel hfuel => runSlices_eq bus cpu hfuel,
    ⟨cycles_run bus cpu n, run_advances bus cpu hn, run_overshoots bus cpu n⟩,
    run_ends_slice bus cpu hn,
    fun state => ⟨counts_stepInner bus state, counts_step bus state⟩, ?_, ?_⟩
  · intro remaining hremaining first state hstate
    exact batch_within bus hremaining hstate
  · exact timely_runLoop bus cpu.cycles n n cpu.beginRun (Nat.le_refl _)

/-- Nothing but NOPs. -/
def nopMemory : FlatMemory := { mem := fun _ => 0xEA, irq := false, nmi := false, writes := [] }

theorem run_keeps_budget_nop :
    let cpu := construct nopMemory 0
    (cpu.run flatBus 100).2.cycles = (cpu.run flatBus 100).1 ∧ 1 ≤ (cpu.run flatBus 100).1 ∧
      (cpu.run flatBus 100).1 ≤ 100 + 8 ∧
      (∃ last ∈ cpu.runSlices flatBus 100, (cpu.run flatBus 100).2 = last.ticked) ∧
      ∀ slice ∈ cpu.runSlices flatBus 100, slice.Timely (0 + 100) := by
  intro cpu
  obtain ⟨-, ⟨hcycles, hpos, hle⟩, ⟨last, state, hlast, -, hfinal, -⟩, -, -, htimely⟩ :=
    run_keeps_budget flatBus cpu 100 (by decide)
  have hstart : cpu.cycles = 0 := rfl
  rw [hstart, Nat.zero_add] at hcycles
  exact ⟨hcycles, hpos, hle, ⟨last, List.mem_of_getLast? hlast, hfinal⟩, htimely⟩

end Cpu

end W65C816

end ScpuEmu
