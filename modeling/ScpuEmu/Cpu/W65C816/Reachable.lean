import ScpuEmu.Cpu.W65C816.FastAgreement
import ScpuEmu.Library.TransitionSystem

/-!
# Reachable states of the 65C816

Whatever is asked of the processor, and whatever happens on its bus in between, the
register-width invariant holds at every instruction boundary.
-/

namespace ScpuEmu

namespace W65C816

open Library

namespace Cpu

variable {σ : Type} (bus : CpuBus σ)

/-- What can happen to a processor. `environment` is anything the rest of the machine
does to its own state, the interrupt lines included. -/
inductive Op (σ : Type)
  | reset
  | step
  | stepNoTick
  | stepInner
  | run (n : ℕ)
  | environment (f : σ → σ)
  | requestRunBreak
  | deferNativeNMI (on : Bool)

def apply (cpu : Cpu σ) : Op σ → Cpu σ
  | .reset => cpu.reset bus
  | .step => (cpu.step bus).2
  | .stepNoTick => (cpu.stepNoTick bus).2
  | .stepInner => (cpu.stepInner bus).2
  | .run n => (cpu.run bus n).2
  | .environment f => { cpu with core := { cpu.core with bus := f cpu.core.bus } }
  | .requestRunBreak => { cpu with core := { cpu.core with runBreak := true } }
  | .deferNativeNMI on => { cpu with deferNativeNMI := on }

/-! ### One step -/

theorem keeps_execOpcode (opcode : Byte) : Keeps (OnRegs WidthInv) (execOpcode bus opcode) := by
  intro core h
  rw [run_execOpcode bus opcode h]
  exact keeps_execGeneric bus opcode core h

theorem keeps_fetchExec : Keeps (OnRegs WidthInv) (fetchExec bus) :=
  keeps_bind (keeps_fetch8 bus) fun opcode => keeps_bind (keeps_execOpcode bus opcode) fun _ =>
    keeps_pure _

variable {cpu : Cpu σ}

theorem regs_park (instr : Instr) : (cpu.park instr).regs = cpu.regs :=
  congrArg Core.regs (cpu.core_park instr)

theorem regs_wake : cpu.wake.regs = cpu.regs := by
  unfold wake
  split <;> rfl

theorem regs_countDeferred : cpu.countDeferred.regs = cpu.regs := by
  unfold countDeferred
  split <;> rfl

theorem widthInv_dispatch (h : WidthInv cpu.regs) : WidthInv (cpu.dispatch bus).2.regs := by
  show WidthInv (park _ _).regs
  rw [regs_park]
  exact keeps_fetchExec bus cpu.core h

theorem widthInv_afterNMI (irq : Bool) (h : WidthInv cpu.regs) :
    WidthInv (cpu.afterNMI bus irq).2.regs := by
  unfold afterNMI
  split
  · exact h
  split
  · exact establishes_serviceInterrupt bus vecIRQ false _
  · exact widthInv_dispatch bus (regs_wake.symm ▸ h)

theorem widthInv_interrupts (irq : Bool) (h : WidthInv cpu.regs) :
    WidthInv (cpu.interrupts bus irq).2.regs := by
  unfold interrupts
  split
  · have hnmi : Establishes (OnRegs WidthInv) (takeNMICore bus) :=
      establishes_bind fun _ => establishes_serviceInterrupt bus vecNMI false
    exact hnmi cpu.core
  · exact widthInv_afterNMI bus irq (regs_countDeferred.symm ▸ h)

theorem regs_sample : (cpu.sample bus).2.regs = cpu.regs := by
  unfold sample
  split <;> rfl

theorem widthInv_stepInner (h : WidthInv cpu.regs) : WidthInv (cpu.stepInner bus).2.regs := by
  unfold stepInner
  split
  · exact widthInv_dispatch bus h
  split
  · exact h
  · exact widthInv_interrupts bus _ ((regs_sample bus).symm ▸ h)

theorem widthInv_stepNoTick (h : WidthInv cpu.regs) : WidthInv (cpu.stepNoTick bus).2.regs := by
  have hrebuilt : WidthInv cpu.rebuildPending.regs := h
  exact widthInv_stepInner bus hrebuilt

theorem widthInv_reset : WidthInv (cpu.reset bus).regs := by
  have hreset : Establishes (OnRegs WidthInv) (resetCore bus) :=
    establishes_bind fun _ => establishes_bind fun _ => establishes_bind fun _ =>
      establishes_bind fun _ => establishes_applyE
  exact hreset cpu.core

/-! ### Runs -/

theorem widthInv_batch (n : ℕ) (h : WidthInv cpu.regs) :
    ∀ visited ∈ batch bus n cpu, WidthInv visited.regs := by
  induction n generalizing cpu with
  | zero => simp [batch]
  | succ n ih =>
    have hnext : WidthInv (cpu.stepInner bus).2.regs := widthInv_stepInner bus h
    intro visited hmem
    rw [batch, List.mem_cons] at hmem
    rcases hmem with rfl | hrest
    · exact hnext
    · split at hrest
      · exact absurd hrest List.not_mem_nil
      · exact ih hnext visited hrest

theorem getLastD_mem_or {α : Type} (l : List α) (a : α) : l.getLastD a ∈ l ∨ l.getLastD a = a := by
  cases l with
  | nil => exact Or.inr rfl
  | cons b l =>
    left
    rw [List.getLastD_cons]
    exact List.getLastD_mem_cons

theorem widthInv_slice (remaining : ℕ) (h : WidthInv cpu.regs) :
    WidthInv (cpu.slice bus remaining).ticked.regs := by
  have hlast : WidthInv ((batch bus (batchLimit remaining) cpu).getLastD cpu).regs := by
    rcases getLastD_mem_or (batch bus (batchLimit remaining) cpu) cpu with hmem | heq
    · exact widthInv_batch bus (batchLimit remaining) h _ hmem
    · rw [heq]
      exact h
  exact hlast

theorem widthInv_runLoop (start n fuel : ℕ) (h : WidthInv cpu.regs) :
    ∀ slice ∈ runLoop bus start n fuel cpu,
      (∀ visited ∈ slice.visited, WidthInv visited.regs) ∧ WidthInv slice.ticked.regs := by
  induction fuel generalizing cpu with
  | zero => simp [runLoop]
  | succ fuel ih =>
    intro slice hmem
    rw [runLoop] at hmem
    split at hmem
    · rw [List.mem_cons] at hmem
      have hticked := widthInv_slice bus (n - (cpu.cycles - start)) h
      rcases hmem with rfl | hrest
      · exact ⟨widthInv_batch bus _ h, hticked⟩
      · split at hrest
        · exact absurd hrest List.not_mem_nil
        · exact ih hticked slice hrest
    · exact absurd hmem List.not_mem_nil

theorem widthInv_runSlices (n : ℕ) (h : WidthInv cpu.regs) :
    ∀ slice ∈ cpu.runSlices bus n,
      (∀ visited ∈ slice.visited, WidthInv visited.regs) ∧ WidthInv slice.ticked.regs := by
  have hbegin : WidthInv cpu.beginRun.regs := h
  exact widthInv_runLoop bus cpu.cycles n n hbegin

theorem widthInv_run (n : ℕ) (h : WidthInv cpu.regs) : WidthInv (cpu.run bus n).2.regs := by
  have hslices := widthInv_runSlices bus n h
  show WidthInv (endOf _ _).regs
  unfold endOf
  cases hlast : (cpu.runSlices bus n).getLast? with
  | none => exact h
  | some slice => exact (hslices slice (List.mem_of_getLast? hlast)).2

theorem widthInv_apply (cpu : Cpu σ) (op : Op σ) (h : WidthInv cpu.regs) :
    WidthInv (cpu.apply bus op).regs := by
  cases op with
  | reset => exact widthInv_reset bus
  | step => exact widthInv_stepNoTick bus h
  | stepNoTick => exact widthInv_stepNoTick bus h
  | stepInner => exact widthInv_stepInner bus h
  | run n => exact widthInv_run bus n h
  | environment | requestRunBreak | deferNativeNMI => exact h

/-- The invariant, now and at every instruction boundary inside a run from here. -/
def WidthsHold (cpu : Cpu σ) : Prop :=
  WidthInv cpu.regs ∧
    ∀ n, ∀ slice ∈ cpu.runSlices bus n, ∀ visited ∈ slice.visited, WidthInv visited.regs

theorem WidthInv.widthsHold {cpu : Cpu σ} (h : WidthInv cpu.regs) : cpu.WidthsHold bus :=
  ⟨h, fun n slice hslice => (widthInv_runSlices bus n h slice hslice).1⟩

/-- The register-width invariant holds in every state that follows a reset or the
construction of the processor. -/
theorem width_invariant (cpu : Cpu σ) (b : σ) (pending : Byte) (ops : List (Op σ)) :
    (Library.run (apply bus) (cpu.reset bus) ops).WidthsHold bus ∧
      (Library.run (apply bus) (construct b pending) ops).WidthsHold bus := by
  have hstep : ∀ (cpu : Cpu σ) (op : Op σ), WidthInv cpu.regs → WidthInv (cpu.apply bus op).regs :=
    widthInv_apply bus
  constructor
  · exact WidthInv.widthsHold bus (run_invariant (apply bus) hstep _ ops (widthInv_reset bus))
  · exact WidthInv.widthsHold bus (run_invariant (apply bus) hstep _ ops (widthInv_applyE _))

end Cpu

end W65C816

end ScpuEmu
