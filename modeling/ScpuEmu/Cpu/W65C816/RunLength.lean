import ScpuEmu.Cpu.W65C816.Step
import Mathlib.Data.List.GetD

/-!
# How long a run takes

An instruction, an interrupt sequence or an idle step takes from one to nine cycles. A run
goes on until its budget is spent, unless it is broken off or the processor stops, and the
last of its batches overshoots the budget by eight cycles at most.
-/

namespace ScpuEmu

namespace W65C816

open Library

variable {σ : Type}

/-! ### One instruction -/

/-- The number of cycles that one step can take. -/
def StepLength (used : ℕ) : Prop := 0 < used ∧ used ≤ 9

theorem toNat_and_le (a b : Bool) : (a && b).toNat ≤ a.toNat := by
  cases a <;> cases b <;> decide

/-- Even with every adjustment made, an opcode keeps to the bound. -/
theorem w65c816Opcodes_fully : ∀ op ∈ w65c816Opcodes,
    0 < op.baseCycles ∧
      op.baseCycles + (op.has cycM1).toNat + 2 * (op.has cycM2).toNat + (op.has cycX1).toNat +
        (op.has cycW).toNat + (op.has cycE0).toNat + (op.has cycP).toNat +
        2 * (op.has cycBR).toNat + (op.has cycPE).toNat ≤ 9 := by
  decide +kernel

theorem w65c816Opcode_mem (opcode : Byte) : w65c816Opcode opcode ∈ w65c816Opcodes := by
  have htable : w65c816Opcodes.length = 2 ^ 8 := by decide +kernel
  have hlength : opcode.toNat < w65c816Opcodes.length := htable ▸ opcode.isLt
  rw [w65c816Opcode, List.getD_eq_getElem _ _ hlength]
  exact List.getElem_mem hlength

theorem stepLength_w65c816Cycles (opcode : Byte) (m8 x8 e dp pageCross branchTaken : Bool) :
    StepLength (w65c816Cycles opcode m8 x8 e dp pageCross branchTaken) := by
  obtain ⟨hbase, hfully⟩ := w65c816Opcodes_fully _ (w65c816Opcode_mem opcode)
  unfold w65c816Cycles
  dsimp only at hfully ⊢
  generalize w65c816Opcode opcode = op at hbase hfully
  have hm1 := toNat_and_le (op.has cycM1) !m8
  have hm2 := toNat_and_le (op.has cycM2) !m8
  have hx1 := toNat_and_le (op.has cycX1) !x8
  have hw := toNat_and_le (op.has cycW) dp
  have he0 := toNat_and_le (op.has cycE0) !e
  have hp := toNat_and_le (op.has cycP) (!x8 || pageCross)
  have hbr := toNat_and_le (op.has cycBR) branchTaken
  have hbre := toNat_and_le (op.has cycBR && branchTaken && e) pageCross
  have hbre' := toNat_and_le (op.has cycBR && branchTaken) e
  have hpe := toNat_and_le (op.has cycPE && e) pageCross
  have hpe' := toNat_and_le (op.has cycPE) e
  constructor <;> omega

theorem toNat_and_or (p x crossed : Bool) :
    (p && (!x || crossed)).toNat = (p && !x).toNat + (p && x && crossed).toNat := by
  cases p <;> cases x <;> cases crossed <;> rfl

/-- An entry of the packed table. -/
def packed (base : ℕ) (p b x : Bool) : Byte :=
  BitVec.ofNat 8 base ||| (if p then lutP else 0) ||| (if b then lutBR else 0) |||
    (if x then lutPE else 0)

theorem packed_parts : ∀ base : Fin 16, ∀ p b x : Bool,
    (packed base p b x &&& 0x0F).toNat = base ∧ (packed base p b x &&& lutP != 0) = p ∧
      (packed base p b x &&& lutBR != 0) = b ∧ (packed base p b x &&& lutPE != 0) = x ∧
      (packed base p b x &&& 0xF0 = 0 → p = false ∧ b = false ∧ x = false) := by
  decide

/-- The packed entries give back the count. -/
theorem cyclesUsed_eq (cycKey opcode : Byte) (penalty : Penalty) :
    cyclesUsed cycKey opcode penalty =
      w65c816Cycles opcode (cycKey &&& 1 != 0) (cycKey &&& 2 != 0) (cycKey &&& 4 != 0)
        (cycKey &&& 8 != 0) penalty.pageCross penalty.branchTaken := by
  unfold cyclesUsed w65c816CycleLUT
  dsimp only
  generalize (cycKey &&& 1 != 0) = m8
  generalize (cycKey &&& 2 != 0) = x8
  generalize (cycKey &&& 4 != 0) = e
  generalize (cycKey &&& 8 != 0) = dp
  have hbound : w65c816Cycles opcode m8 x8 e dp false false < 16 :=
    Nat.lt_of_le_of_lt (stepLength_w65c816Cycles opcode m8 x8 e dp false false).2 (by decide)
  obtain ⟨hused, hp, hb, hx, hplain⟩ := packed_parts ⟨_, hbound⟩
    ((w65c816Opcode opcode).has cycP && x8) ((w65c816Opcode opcode).has cycBR)
    ((w65c816Opcode opcode).has cycPE && e)
  have hsum : w65c816Cycles opcode m8 x8 e dp penalty.pageCross penalty.branchTaken =
      w65c816Cycles opcode m8 x8 e dp false false +
        ((w65c816Opcode opcode).has cycP && x8 && penalty.pageCross).toNat +
        ((w65c816Opcode opcode).has cycBR && penalty.branchTaken).toNat +
        ((w65c816Opcode opcode).has cycBR && penalty.branchTaken && e &&
          penalty.pageCross).toNat +
        ((w65c816Opcode opcode).has cycPE && e && penalty.pageCross).toNat := by
    unfold w65c816Cycles
    dsimp only
    rw [toNat_and_or, toNat_and_or, Bool.and_false, Bool.and_false, Bool.and_false, Bool.and_false,
      Bool.toNat_false]
    omega
  rw [Nat.min_eq_left (Nat.le_of_lt_succ hbound), hsum]
  show (if packed _ _ _ _ &&& 0xF0 = 0 then (packed _ _ _ _ &&& 0x0F).toNat else
    (packed _ _ _ _ &&& 0x0F).toNat + (packed _ _ _ _ &&& lutP != 0 && _).toNat +
      (packed _ _ _ _ &&& lutBR != 0 && _).toNat +
      (packed _ _ _ _ &&& lutBR != 0 && _ && _ && _).toNat +
      (packed _ _ _ _ &&& lutPE != 0 && _).toNat) = _
  rw [hused, hp, hb, hx]
  split
  next hempty =>
    obtain ⟨hp, hb, hx⟩ := hplain hempty
    rw [hp, hb, hx]
    rfl
  next => rfl

theorem stepLength_cyclesUsed (cycKey opcode : Byte) (penalty : Penalty) :
    StepLength (cyclesUsed cycKey opcode penalty) := by
  rw [cyclesUsed_eq]
  exact stepLength_w65c816Cycles _ _ _ _ _ _ _

section Execution

variable (bus : CpuBus σ)

theorem returns_fastDirect : Returns (fun a => StepLength a.2) (fastDirect bus) := by
  have hused (unaligned : Bool) : StepLength (3 + unaligned.toNat) := by
    cases unaligned <;> exact ⟨by decide, by decide⟩
  exact returns_bind fun _ => returns_bind fun _ => returns_pure (hused _)

theorem returns_fastSwitch {opcode : Byte} {m : CoreM Regs σ ℕ}
    (h : fastSwitch bus opcode = some m) : Returns StepLength m := by
  have hindexed (crossed : Bool) : StepLength (4 + crossed.toNat) := by
    cases crossed <;> exact ⟨by decide, by decide⟩
  have hbranch (taken crossed : Bool) :
      StepLength (2 + if taken then 1 + crossed.toNat else 0) := by
    cases taken <;> cases crossed <;> exact ⟨by decide, by decide⟩
  have hload : Returns StepLength (fastLdaDirect bus) :=
    (returns_fastDirect bus).bind fun _ hused => returns_bind fun _ => returns_bind fun _ =>
      returns_pure hused
  have hstore : Returns StepLength (fastStaDirect bus) :=
    (returns_fastDirect bus).bind fun _ hused => returns_bind fun _ => returns_bind fun _ =>
      returns_pure hused
  unfold fastSwitch at h
  split at h <;> cases h
  case h_2 => exact hload
  case h_8 => exact hstore
  all_goals
    repeat
      apply returns_bind
      intro _
  all_goals
    first
    | exact returns_pure (hindexed _)
    | exact returns_pure (hbranch _ _)
    | exact returns_pure ⟨by decide, by decide⟩

theorem returns_execOpcode (opcode : Byte) : Returns StepLength (execOpcode bus opcode) := by
  have hgeneric : Returns StepLength (execGeneric bus opcode) :=
    returns_bind fun _ => returns_bind fun _ => returns_pure (stepLength_cyclesUsed _ _ _)
  apply returns_bind
  intro r
  split
  · cases hfast : fastSwitch bus opcode with
    | none => exact hgeneric
    | some m => exact returns_fastSwitch bus hfast
  · exact hgeneric

end Execution

namespace Cpu

variable (bus : CpuBus σ)

/-- Time has passed, as much as one step takes. -/
def Takes (cpu next : Cpu σ) : Prop := ∃ used, StepLength used ∧ next.cycles = cpu.cycles + used

theorem Takes.of_cycles_eq {cpu cpu' next : Cpu σ} (h : cpu'.Takes next)
    (hcycles : cpu'.cycles = cpu.cycles) : cpu.Takes next := by
  obtain ⟨used, hused, hnext⟩ := h
  exact ⟨used, hused, hcycles ▸ hnext⟩

theorem takes_dispatch (cpu : Cpu σ) : cpu.Takes (cpu.dispatch bus).2 := by
  have hused : Returns (fun a => StepLength a.2) (fetchExec bus) :=
    returns_bind fun opcode => (returns_execOpcode bus opcode).bind fun _ h => returns_pure h
  have hpark (cpu : Cpu σ) (instr : Instr) : (cpu.park instr).cycles = cpu.cycles := by
    cases instr <;> rfl
  refine ⟨_, hused cpu.core, ?_⟩
  show (park _ _).cycles + _ = _
  rw [hpark]
  rfl

theorem takes_consume_one (cpu : Cpu σ) : cpu.Takes (cpu.consume 1).2 :=
  ⟨1, ⟨by decide, by decide⟩, rfl⟩

theorem stepLength_interruptCycles (cpu : Cpu σ) : StepLength cpu.interruptCycles := by
  unfold interruptCycles
  split <;> exact ⟨by decide, by decide⟩

theorem takes_interrupts (cpu : Cpu σ) (irq : Bool) : cpu.Takes (cpu.interrupts bus irq).2 := by
  have hwake (cpu : Cpu σ) : cpu.wake.cycles = cpu.cycles := by
    unfold wake
    split <;> rfl
  have hcounted : cpu.countDeferred.cycles = cpu.cycles := by
    unfold countDeferred
    split <;> rfl
  unfold interrupts
  split
  · exact ⟨_, stepLength_interruptCycles _, rfl⟩
  refine Takes.of_cycles_eq ?_ hcounted
  generalize cpu.countDeferred = cpu
  unfold afterNMI
  split
  · exact takes_consume_one cpu
  refine Takes.of_cycles_eq ?_ (hwake cpu)
  split
  · exact ⟨_, stepLength_interruptCycles _, rfl⟩
  · exact takes_dispatch bus _

/-- An instruction, an interrupt sequence or an idle step takes time. -/
theorem takes_stepInner (cpu : Cpu σ) : cpu.Takes (cpu.stepInner bus).2 := by
  have hsample : (cpu.sample bus).2.cycles = cpu.cycles := by
    unfold sample
    split <;> rfl
  unfold stepInner
  split
  · exact takes_dispatch bus cpu
  split
  · exact takes_consume_one cpu
  · exact (takes_interrupts bus _ _).of_cycles_eq hsample

/-! ### Batches and runs -/

theorem last_batch_succ (n : ℕ) (cpu : Cpu σ) : (batch bus (n + 1) cpu).getLastD cpu =
    if (cpu.stepInner bus).2.sliceEnds bus then (cpu.stepInner bus).2
    else (batch bus n (cpu.stepInner bus).2).getLastD (cpu.stepInner bus).2 := by
  show (_ :: if _ then [] else batch bus n _).getLastD cpu = _
  rw [List.getLastD_cons]
  split <;> rfl

theorem cycles_batch (n : ℕ) (cpu : Cpu σ) :
    cpu.cycles < ((batch bus (n + 1) cpu).getLastD cpu).cycles ∧
      ((batch bus (n + 1) cpu).getLastD cpu).cycles ≤ cpu.cycles + 9 * (n + 1) := by
  induction n generalizing cpu with
  | zero =>
      obtain ⟨used, ⟨hpos, hused⟩, hstep⟩ := takes_stepInner bus cpu
      have hlast : (batch bus 0 (cpu.stepInner bus).2).getLastD (cpu.stepInner bus).2 =
          (cpu.stepInner bus).2 := rfl
      rw [last_batch_succ, hlast, ite_self]
      omega
  | succ n ih =>
      obtain ⟨used, ⟨hpos, hused⟩, hstep⟩ := takes_stepInner bus cpu
      obtain ⟨hlt, hle⟩ := ih (cpu.stepInner bus).2
      rw [last_batch_succ]
      split <;> omega

/-- The last batch of a run may go past the end of its budget, by eight cycles at most. -/
theorem cycles_slice {remaining : ℕ} (hremaining : 0 < remaining) (cpu : Cpu σ) :
    cpu.cycles < (cpu.slice bus remaining).ticked.cycles ∧
      (cpu.slice bus remaining).ticked.cycles ≤ cpu.cycles + remaining + 8 := by
  show _ < ((batch bus (batchLimit remaining) cpu).getLastD cpu).cycles ∧
    ((batch bus (batchLimit remaining) cpu).getLastD cpu).cycles ≤ _
  unfold batchLimit
  split
  · obtain ⟨hlt, hle⟩ := cycles_batch bus 7 cpu
    exact ⟨hlt, Nat.le_trans hle (by omega)⟩
  · obtain ⟨hlt, hle⟩ := cycles_batch bus 0 cpu
    exact ⟨hlt, Nat.le_trans hle (by omega)⟩

theorem endOf_cons (cpu : Cpu σ) (slice : Slice σ) (slices : List (Slice σ)) :
    cpu.endOf (slice :: slices) = slice.ticked.endOf slices := by
  cases slices with
  | nil => rfl
  | cons next slices =>
      unfold endOf
      rw [List.getLast?_cons_cons, List.getLast?_cons]
      rfl

theorem runLoop_ends (start n fuel : ℕ) (cpu : Cpu σ) (hstart : start ≤ cpu.cycles)
    (hfuel : n ≤ cpu.cycles - start + fuel) :
    n ≤ (cpu.endOf (runLoop bus start n fuel cpu)).cycles - start ∨
      (cpu.endOf (runLoop bus start n fuel cpu)).core.runBreak = true ∨
      (cpu.endOf (runLoop bus start n fuel cpu)).stopped = true := by
  induction fuel generalizing cpu with
  | zero => exact Or.inl hfuel
  | succ fuel ih =>
      rw [runLoop]
      split
      next hgoes =>
        obtain ⟨hcycles, -⟩ := cycles_slice bus (Nat.sub_pos_of_lt hgoes.1) cpu
        rw [endOf_cons]
        generalize (cpu.slice bus (n - (cpu.cycles - start))).ticked = ticked at hcycles
        split
        next hstopped => exact Or.inr (Or.inr hstopped)
        next => exact ih ticked (by omega) (by omega)
      next hends =>
        rcases not_and_or.mp hends with hspent | hbreak
        · exact Or.inl (Nat.le_of_not_lt hspent)
        · exact Or.inr (Or.inl (eq_true_of_ne_false hbreak))

/-- The loop of a run is not cut short: it goes on until the budget is spent, a break is
requested or the processor has stopped. -/
theorem run_ends (cpu : Cpu σ) (n : ℕ) :
    n ≤ (cpu.run bus n).1 ∨ (cpu.run bus n).2.core.runBreak = true ∨
      (cpu.run bus n).2.stopped = true := by
  have hfuel : n ≤ cpu.beginRun.cycles - cpu.cycles + n := Nat.le_add_left _ _
  exact runLoop_ends bus cpu.cycles n n cpu.beginRun (Nat.le_refl _) hfuel

theorem runLoop_overshoots (start n fuel : ℕ) (cpu : Cpu σ) (hstart : start ≤ cpu.cycles)
    (hspent : cpu.cycles ≤ start + n + 8) :
    cpu.cycles ≤ (cpu.endOf (runLoop bus start n fuel cpu)).cycles ∧
      (cpu.endOf (runLoop bus start n fuel cpu)).cycles ≤ start + n + 8 := by
  induction fuel generalizing cpu with
  | zero => exact ⟨Nat.le_refl _, hspent⟩
  | succ fuel ih =>
      rw [runLoop]
      split
      next hgoes =>
        obtain ⟨hlt, hle⟩ := cycles_slice bus (Nat.sub_pos_of_lt hgoes.1) cpu
        rw [endOf_cons]
        generalize (cpu.slice bus (n - (cpu.cycles - start))).ticked = ticked at hlt hle
        split
        · show cpu.cycles ≤ ticked.cycles ∧ ticked.cycles ≤ _
          omega
        · obtain ⟨hgrown, hbound⟩ := ih ticked (by omega) (by omega)
          exact ⟨by omega, hbound⟩
      next => exact ⟨Nat.le_refl _, hspent⟩

theorem run_overshoots (cpu : Cpu σ) (n : ℕ) : (cpu.run bus n).1 ≤ n + 8 := by
  obtain ⟨-, hbound⟩ := runLoop_overshoots bus cpu.cycles n n cpu.beginRun (Nat.le_refl _)
    (Nat.le_add_right_of_le (Nat.le_add_right _ _))
  show (cpu.beginRun.endOf _).cycles - cpu.cycles ≤ n + 8
  exact Nat.sub_le_of_le_add (by rw [Nat.add_comm, ← Nat.add_assoc]; exact hbound)

/-- A run with a budget advances, also when the processor has stopped. -/
theorem run_advances (cpu : Cpu σ) {n : ℕ} (hn : 0 < n) : 0 < (cpu.run bus n).1 := by
  obtain ⟨n, rfl⟩ : ∃ m, n = m + 1 := ⟨n - 1, by omega⟩
  have hgoes : cpu.beginRun.cycles - cpu.cycles < n + 1 ∧ cpu.beginRun.core.runBreak = false :=
    ⟨by show cpu.cycles - cpu.cycles < n + 1; omega, rfl⟩
  obtain ⟨hlt, hle⟩ := cycles_slice bus (Nat.sub_pos_of_lt hgoes.1) cpu.beginRun
  show 0 < (cpu.beginRun.endOf (runLoop bus cpu.cycles (n + 1) (n + 1) cpu.beginRun)).cycles -
    cpu.cycles
  rw [runLoop, if_pos hgoes, endOf_cons]
  have hstart : cpu.beginRun.cycles = cpu.cycles := rfl
  generalize (cpu.beginRun.slice bus (n + 1 - (cpu.beginRun.cycles - cpu.cycles))).ticked = ticked
    at hlt hle
  split
  · show 0 < ticked.cycles - cpu.cycles
    omega
  · obtain ⟨hgrown, -⟩ := runLoop_overshoots bus cpu.cycles (n + 1) n ticked (by omega) (by omega)
    omega

end Cpu

end W65C816

end ScpuEmu
