import ScpuEmu.Cpu.M6502.Instructions

/-!
# Steps of the 6502

The interrupt prologue and the single step of `CM6502`. The cycle counter is a natural
number: at 64 bits it does not overflow in the lifetime of a machine.
-/

namespace ScpuEmu

namespace M6502

open Library

/-- `CM6502`. -/
structure Cpu (σ : Type) where
  core : Core Regs σ
  jammed : Bool
  rmwDummyWrite : Bool
  nmiPrevLevel : Bool
  nmiPending : Bool
  cycles : ℕ

namespace Cpu

variable {σ α : Type} (cpu : Cpu σ)

def regs : Regs := cpu.core.regs

/-- Run a program of the core. -/
def exec (m : CoreM Regs σ α) : α × Cpu σ :=
  ((m.run cpu.core).1, { cpu with core := (m.run cpu.core).2 })

/-- What the constructor makes, on a bus in state `bus`. -/
def construct (bus : σ) : Cpu σ :=
  { core := ⟨{ a := 0, x := 0, y := 0, s := 0xFD, p := flagU ||| flagI, pc := 0 }, bus, false⟩
    jammed := false, rmwDummyWrite := true, nmiPrevLevel := false, nmiPending := false
    cycles := 0 }

variable (bus : CpuBus σ)

def resetCore : CoreM Regs σ Unit := do
  modifyRegs fun r => { r with a := 0, x := 0, y := 0, s := 0xFD, p := flagU ||| flagI }
  modify fun core => { core with runBreak := false }
  let target ← rd16 bus vecReset
  setPC target

def reset : Cpu σ :=
  { (cpu.exec (resetCore bus)).2 with
    jammed := false, nmiPrevLevel := false, nmiPending := false, cycles := 0 }

/-- Account for the cycles of a step. -/
def finish (cyc : ℕ) : ℕ × Cpu σ :=
  (cyc, (exec { cpu with cycles := cpu.cycles + cyc } (busReply fun s => bus.tick s cyc)).2)

/-- `serviceNMI` and `serviceIRQ`. -/
def service (vector : BitVec 16) : CoreM Regs σ Unit := do
  let r ← getRegs
  push16 bus r.pc
  push bus ((r.p ||| flagU) &&& ~~~flagB)
  modifyRegs fun r => { r with p := r.p ||| flagI }
  let target ← rd16 bus vector
  setPC target

def takeInterrupt (vector : BitVec 16) : ℕ × Cpu σ :=
  (cpu.exec (service bus vector)).2.finish bus 7

/-- The NMI latch after a look at its line. -/
def sampleNMI : Cpu σ :=
  let (nmiLevel, cpu) := cpu.exec (busReply bus.nmiAsserted)
  { cpu with
    nmiPending := cpu.nmiPending || (nmiLevel && !cpu.nmiPrevLevel)
    nmiPrevLevel := nmiLevel }

/-- Is an IRQ to be taken? The line is not looked at while I is set. -/
def irqDue : Bool × Cpu σ :=
  if cpu.regs.flag flagI then (false, cpu) else cpu.exec (busReply bus.irqAsserted)

def fetchExec (rmwDummyWrite : Bool) : CoreM Regs σ (Byte × ℕ) := do
  let opcode ← fetch bus
  let cyc ← execOpcode bus rmwDummyWrite opcode
  return (opcode, cyc)

/-- Fetch and execute one instruction. -/
def dispatch : ℕ × Cpu σ :=
  let ((opcode, cyc), done) := cpu.exec (fetchExec bus cpu.rmwDummyWrite)
  finish { done with jammed := jams opcode } bus cyc

def step : ℕ × Cpu σ :=
  if cpu.jammed then cpu.finish bus 1
  else
    let cpu := cpu.sampleNMI bus
    if cpu.nmiPending then takeInterrupt { cpu with nmiPending := false } bus vecNMI
    else
      let (due, cpu) := cpu.irqDue bus
      if due then cpu.takeInterrupt bus vecIRQ else cpu.dispatch bus

end Cpu

end M6502

end ScpuEmu
