import ScpuEmu.Cpu.W65C816.FastPath
import Mathlib.Data.List.Basic

/-!
# Steps and runs of the 65C816

The interrupt prologue, the single step, and the loop of `CW65C816::run`. The cycle
counters are natural numbers: at 64 bits they do not overflow in the lifetime of a
machine. A run is the list of its slices, each with the states after its
instructions and the state after its tick.
-/

namespace ScpuEmu

namespace W65C816

abbrev pendStopped : Byte := 1

abbrev pendWaiting : Byte := 2

abbrev pendNMI : Byte := 4

abbrev pendSample : Byte := 8

abbrev pendIRQLine : Byte := 16

/-- `CW65C816`. -/
structure Cpu (σ : Type) where
  core : Core Regs σ
  stopped : Bool
  waiting : Bool
  nmiPrevLevel : Bool
  nmiPending : Bool
  pending : Byte
  deferNativeNMI : Bool
  cycles : ℕ
  nativeInstructions : ℕ
  irqsTaken : ℕ
  nmisTaken : ℕ
  nmisDeferred : ℕ
  lastNMITakeCycles : ℕ

namespace Cpu

variable {σ α : Type} (cpu : Cpu σ)

def regs : Regs := cpu.core.regs

/-- Run a program of the core. -/
def exec (m : CoreM Regs σ α) : α × Cpu σ :=
  ((m.run cpu.core).1, { cpu with core := (m.run cpu.core).2 })

def consume (used : ℕ) : ℕ × Cpu σ := (used, { cpu with cycles := cpu.cycles + used })

/-- The pending byte that the latches call for. -/
def pendingOf (stopped waiting nmiPending : Bool) : Byte :=
  (if stopped then pendStopped else 0) ||| (if waiting then pendWaiting else 0) |||
    (if nmiPending then pendNMI else 0)

def rebuildPending : Cpu σ :=
  { cpu with pending := pendingOf cpu.stopped cpu.waiting cpu.nmiPending ||| pendSample }

/-- What the constructor makes, on a bus in state `bus`. `m_Pending` has no initial value. -/
def construct (bus : σ) (pending : Byte) : Cpu σ :=
  { core :=
      { regs := Regs.applyE
          { c := 0, x := 0, y := 0, s := 0x01FD, d := 0, pc := 0, pbr := 0, dbr := 0
            p := flagM ||| flagX ||| flagI, e := true, m8 := true, x8 := true, cycKey := 0 }
        bus := bus
        runBreak := false }
    stopped := false, waiting := false, nmiPrevLevel := false, nmiPending := false
    pending := pending, deferNativeNMI := false, cycles := 0, nativeInstructions := 0
    irqsTaken := 0, nmisTaken := 0, nmisDeferred := 0, lastNMITakeCycles := 0 }

variable (bus : CpuBus σ)

def resetRegs (r : Regs) : Regs :=
  { r with
    e := true, p := flagM ||| flagX ||| flagI, c := 0, x := 0, y := 0, s := 0x01FD, d := 0
    dbr := 0, pbr := 0 }

def resetCore : CoreM Regs σ Unit := do
  modify fun core => { core with runBreak := false }
  modifyRegs resetRegs
  let target ← read16Bank0 bus vecReset
  setPC target
  modifyRegs Regs.applyE

def reset : Cpu σ :=
  rebuildPending
    { (cpu.exec (resetCore bus)).2 with
      stopped := false, waiting := false, nmiPrevLevel := false, nmiPending := false
      cycles := 0, nativeInstructions := 0 }

/-! ### One step -/

/-- The latches and the pending byte after a sample of the lines. -/
def latch (irq nmiLevel : Bool) : Cpu σ :=
  let nmiPending := cpu.nmiPending || (nmiLevel && !cpu.nmiPrevLevel)
  { cpu with
    nmiPending := nmiPending
    nmiPrevLevel := nmiLevel
    pending := (cpu.pending &&& ~~~(pendSample ||| pendIRQLine ||| pendNMI)) |||
      (if irq then pendIRQLine else 0) ||| (if nmiPending then pendNMI else 0) }

/-- The level of the IRQ line that a step works with, from a sample if one is due. -/
def sample : Bool × Cpu σ :=
  if cpu.pending &&& pendSample != 0 then
    let ((irq, nmiLevel), cpu) := cpu.exec (busReply bus.sampleInterrupts)
    (irq, cpu.latch irq nmiLevel)
  else (cpu.pending &&& pendIRQLine != 0, cpu)

def nmiDeferred : Bool := cpu.deferNativeNMI && !cpu.regs.e

/-- The seven or eight cycles of an interrupt sequence. -/
def interruptCycles : ℕ := if cpu.regs.e then 7 else 8

def takeNMICore : CoreM Regs σ Unit := do
  busReply bus.noteNMITaken
  serviceInterrupt bus vecNMI false

def takeNMI : ℕ × Cpu σ :=
  let cpu :=
    { cpu with
      nmiPending := false
      waiting := false
      pending := cpu.pending &&& ~~~(pendNMI ||| pendWaiting)
      nmisTaken := cpu.nmisTaken + 1
      lastNMITakeCycles := cpu.cycles }
  (cpu.exec (takeNMICore bus)).2.consume cpu.interruptCycles

def takeIRQ : ℕ × Cpu σ :=
  let cpu := { cpu with irqsTaken := cpu.irqsTaken + 1 }
  (cpu.exec (serviceInterrupt bus vecIRQ false)).2.consume cpu.interruptCycles

def countDeferred : Cpu σ :=
  if cpu.nmiPending then { cpu with nmisDeferred := cpu.nmisDeferred + 1 } else cpu

def wake : Cpu σ :=
  if cpu.waiting then { cpu with waiting := false, pending := cpu.pending &&& ~~~pendWaiting }
  else cpu

/-- What STP and WAI add to their execution. -/
def park : Instr → Cpu σ
  | .stp => { cpu with stopped := true, pending := cpu.pending ||| pendStopped }
  | .wai => { cpu with waiting := true, pending := cpu.pending ||| pendWaiting }
  | _ => cpu

theorem core_park (instr : Instr) : (cpu.park instr).core = cpu.core := by
  cases instr <;> rfl

def fetchExec : CoreM Regs σ (Byte × ℕ) := do
  let opcode ← fetch8 bus
  let used ← execOpcode bus opcode
  return (opcode, used)

/-- Fetch and execute one instruction. -/
def dispatch : ℕ × Cpu σ :=
  let ((opcode, used), done) := cpu.exec (fetchExec bus)
  let done := { done with nativeInstructions := cpu.nativeInstructions + (!cpu.regs.e).toNat }
  (done.park (decode opcode)).consume used

/-- The tail of the prologue: WAI and IRQ, after the NMI. -/
def afterNMI (irq : Bool) : ℕ × Cpu σ :=
  if cpu.waiting && !irq then cpu.consume 1
  else if irq && !cpu.regs.flag flagI then cpu.wake.takeIRQ bus
  else cpu.wake.dispatch bus

/-- The prologue once the lines are sampled. -/
def interrupts (irq : Bool) : ℕ × Cpu σ :=
  if cpu.nmiPending && !cpu.nmiDeferred then cpu.takeNMI bus
  else cpu.countDeferred.afterNMI bus irq

def stepInner : ℕ × Cpu σ :=
  if cpu.pending = 0 then cpu.dispatch bus
  else if cpu.stopped then cpu.consume 1
  else
    let (irq, cpu) := cpu.sample bus
    cpu.interrupts bus irq

def stepNoTick : ℕ × Cpu σ := cpu.rebuildPending.stepInner bus

def busTick (n : ℕ) : Cpu σ := (cpu.exec (busReply fun s => bus.tick s n)).2

def step : ℕ × Cpu σ :=
  let (used, cpu) := cpu.stepNoTick bus
  (used, cpu.busTick bus used)

/-! ### Runs -/

def sliceEnds : Bool :=
  cpu.core.runBreak || cpu.stopped || bus.fineTicksRequired cpu.core.bus

/-- The states after the instructions of a batch. -/
def batch : ℕ → Cpu σ → List (Cpu σ)
  | 0, _ => []
  | n + 1, cpu =>
    let next := (cpu.stepInner bus).2
    next :: if next.sliceEnds bus then [] else batch n next

structure Slice (σ : Type) where
  visited : List (Cpu σ)
  ticked : Cpu σ

/-- One tick accounts for the instructions visited since `cpu`. -/
def tickAfter (visited : List (Cpu σ)) : Cpu σ :=
  let last := visited.getLastD cpu
  last.busTick bus (last.cycles - cpu.cycles)

/-- An instruction takes at most nine cycles, so eight cannot use up more than 80. -/
def batchLimit (remaining : ℕ) : ℕ := if 80 < remaining then 8 else 1

def slice (remaining : ℕ) : Slice σ :=
  let visited := batch bus (batchLimit remaining) cpu
  let ticked := cpu.tickAfter bus visited
  ⟨visited, { ticked with pending := ticked.pending ||| pendSample }⟩

def runLoop (start n : ℕ) : ℕ → Cpu σ → List (Slice σ)
  | 0, _ => []
  | fuel + 1, cpu =>
    if cpu.cycles - start < n ∧ cpu.core.runBreak = false then
      let slice := cpu.slice bus (n - (cpu.cycles - start))
      slice :: if slice.ticked.stopped then [] else runLoop start n fuel slice.ticked
    else []

def beginRun : Cpu σ :=
  rebuildPending { cpu with core := { cpu.core with runBreak := false } }

def runSlices (n : ℕ) : List (Slice σ) := runLoop bus cpu.cycles n n cpu.beginRun

/-- The state a list of slices ends in. -/
def endOf (slices : List (Slice σ)) : Cpu σ := (slices.getLast?.map Slice.ticked).getD cpu

def run (n : ℕ) : ℕ × Cpu σ :=
  let final := cpu.beginRun.endOf (cpu.runSlices bus n)
  (final.cycles - cpu.cycles, final)

end Cpu

end W65C816

end ScpuEmu
