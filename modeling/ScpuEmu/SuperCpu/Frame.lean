import ScpuEmu.C64.SerialWindow
import ScpuEmu.Cpu.W65C816.RunLength
import ScpuEmu.SuperCpu.RegisterBoard

/-!
# One frame of the accelerator

The frame loop runs the core in slices, and sends mirrored bytes to the physical C64 where
the beam allows it. The core and the bus it runs on are parameters, with what every core
promises about the length of a run, and so is the position of the beam at each sample.

Beside its state, the loop keeps a record of its runs of the core and of the work that it
asks of the write buffer. Nothing reads the record.
-/

namespace ScpuEmu

open Library

/-! ### The picture -/

/-- `C64VideoStandard`. -/
inductive C64VideoStandard
  | pal
  | ntscR56A
  | ntscR8
  deriving DecidableEq

/-- `C64MachineType`. -/
inductive C64MachineType
  | unknown
  | c64
  | c128
  deriving DecidableEq

def c64CyclesPerLine : C64VideoStandard → ℕ
  | .ntscR56A => 64
  | .ntscR8 => 65
  | .pal => 63

def c64RasterLines : C64VideoStandard → ℕ
  | .ntscR56A => 262
  | .ntscR8 => 263
  | .pal => 312

def c64DisplayFirstLine (v : C64VideoStandard) : ℕ := if v = .pal then 51 else 41

def c64DisplayLastLine (v : C64VideoStandard) : ℕ := if v = .pal then 250 else 240

def c64RasterIsSafeForBulkTransfer (v : C64VideoStandard) (line : ℕ) : Bool :=
  decide (line < c64RasterLines v) &&
    (decide (line < c64DisplayFirstLine v) || decide (c64DisplayLastLine v < line))

/-- The lines of the safe window that are left. -/
def c64LinesLeft (v : C64VideoStandard) (line : ℕ) : ℕ :=
  if c64DisplayLastLine v < line then c64RasterLines v - line + c64DisplayFirstLine v
  else c64DisplayFirstLine v - line

/-- A sprite is fetched on this line or the next three. -/
def c64LineInSpriteFetchSpan (vic : BitVec 6 → Byte) (line : ℕ) : Bool :=
  (List.range 8).any fun n =>
    let y := (vic (BitVec.ofNat 6 (1 + 2 * n))).toNat
    (vic 0x15).getLsbD n && decide (y ≤ line + 3) && decide (line < y + 21)

namespace Fetch

variable (f : Fetch)

def activeScreenBase : BitVec 32 :=
  if f.spritePtrBase = noBase then noBase else f.spritePtrBase - 0x3F8

def activeBitmapBase : BitVec 32 :=
  if f.vicRegShadow 0x11 &&& 0x20 = 0 then noBase
  else f.activeVICBankBase + if f.lastD018 &&& 0x08 ≠ 0 then 0x2000 else 0

def activeCharsetBase : BitVec 32 :=
  if f.vicRegShadow 0x11 &&& 0x20 ≠ 0 then noBase
  else
    let bank := f.activeVICBankBase >>> 14
    let offset := (f.lastD018 &&& 0x0E).setWidth 32 <<< 10
    if bank &&& 1 = 0 ∧ 0x1000 ≤ offset ∧ offset < 0x2000 then noBase else bank <<< 14 + offset

end Fetch

/-- `noteRasterCoarse`. A precise anchor outranks it for about a frame. -/
def RasterCapture.noteRasterCoarse (c : RasterCapture) (now : BitVec 32) (line : BitVec 16) :
    RasterCapture :=
  if c.vicLogEnabled = false ∨ line = 0xFFFF ∨ now - c.lastPreciseAnchor < 25000 then c
  else
    { c with
      rasterAnchor := 1#64 <<< 63 ||| now.setWidth 64 <<< 16 ||| (line &&& 0x1FF).setWidth 64 }

/-! ### The core -/

/-- `ICpu`, as the frame loop uses it. The states of the core carry those of its bus. -/
structure ICpu (κ σ : Type) where
  bus : κ → σ
  setBus : κ → σ → κ
  run : κ → ℕ → ℕ × κ
  bus_setBus : ∀ cpu s, bus (setBus cpu s) = s
  run_pos : ∀ cpu n, 0 < n → 0 < (run cpu n).1
  run_le : ∀ cpu n, (run cpu n).1 ≤ n + 8

/-- The 65C816 on any bus. -/
def W65C816.iCpu {σ : Type} (bus : CpuBus σ) : ICpu (W65C816.Cpu σ) σ where
  bus cpu := cpu.core.bus
  setBus cpu s := { cpu with core := { cpu.core with bus := s } }
  run cpu n := cpu.run bus n
  bus_setBus _ _ := rfl
  run_pos cpu _ hn := cpu.run_advances bus hn
  run_le cpu n := cpu.run_overshoots bus n

/-! ### State -/

/-- A run of the core, with the ticks of the 20 MHz clock that a cycle was to take. -/
structure RunCall where
  budget : ℕ
  ticksPerCycle : ℕ
  ran : ℕ

def RunCall.ticks (call : RunCall) : ℕ := call.ran * call.ticksPerCycle

/-- An entry of the record: a run in a slice or on the way to the border, or work on the
mirror, with whether a serial transfer was under way and the calls on the physical bus. -/
inductive FrameEvent
  | slice (call : RunCall)
  | approach (call : RunCall)
  | mirror (serial : Bool) (work : MirrorWork) (calls : List BusCall)

/-- `m_DisplayScrub*`, the trial that alternates the repair of the picture. -/
structure ScrubTrial where
  enabled : Bool
  masked : Bool
  periodSeconds : BitVec 32
  phaseOn : Bool
  phaseStart : BitVec 64
  phaseGeneration : BitVec 32
  bitmapSeen : Bool

def ScrubTrial.turn (trial : ScrubTrial) (next : Bool) : ScrubTrial :=
  if next = trial.phaseOn then trial
  else { trial with phaseOn := next, phaseGeneration := trial.phaseGeneration + 1 }

/-- The trial at a time of the host's clock. Its phases begin with the first bitmap. -/
def ScrubTrial.atTime (trial : ScrubTrial) (bitmapActive : Bool) (hz : BitVec 32)
    (now : BitVec 64) : ScrubTrial :=
  let trial :=
    if bitmapActive = true ∧ trial.bitmapSeen = false then
      { trial with bitmapSeen := true, phaseStart := now }
    else trial
  let interval := trial.periodSeconds.setWidth 64 * hz.setWidth 64
  trial.turn (decide (hz ≠ 0) && trial.bitmapSeen && decide (interval ≠ 0) &&
    ((now - trial.phaseStart) / interval).getLsbD 0)

/-- `SCPUResyncDiagnosticPhase`. -/
inductive ResyncDiagnosticPhase
  | idle
  | hold
  | repairing
  | complete
  deriving DecidableEq

/-- `m_ResyncDiagnostic*`. -/
structure ResyncDiagnostic where
  awaitingDrain : Bool
  holding : Bool
  phase : ResyncDiagnosticPhase
  framesRemaining : ℕ
  generation : BitVec 32
  startHash : BitVec 32
  shadowChanged : Bool
  repairCallsRemaining : ℕ

def ResyncDiagnostic.afterRepair (d : ResyncDiagnostic) : ResyncDiagnostic :=
  let left := d.repairCallsRemaining - 1
  if left = 0 then
    { d with repairCallsRemaining := left, phase := .complete, generation := d.generation + 1 }
  else { d with repairCallsRemaining := left }

/-- The part of `CSuperCPU` that schedules a frame. What it is wired to is the state of the
bus of the core. -/
structure CSuperCPU (κ : Type) where
  cpu : κ
  frameTickDebt : ℕ
  mirrorDisplayBudget : BitVec 32
  scrub : ScrubTrial
  diagnostic : ResyncDiagnostic
  log : List FrameEvent

/-- A chassis on a C64, with samples of the beam. -/
structure Host (β : Type) extends Chassis β where
  machine : C64MachineType
  video : C64VideoStandard
  rasterLine : β → BitVec 16 × β

abbrev FrameM (κ : Type) := StateM (CSuperCPU κ)

namespace CSuperCPU

variable {κ β α : Type} (core : ICpu κ (System (Fitted β)))

section Views

variable (s : CSuperCPU κ)

def memory : CC64Memory := (core.bus s.cpu).memory

def writeBuffer : WriteBuffer := (core.bus s.cpu).accelerator.buffer

def mirrorHalted : Bool := (core.bus s.cpu).accelerator.mirrorHalted

def registers : CSuperCPURegisters := (core.bus s.cpu).accelerator.rest.file

def iecBusActive : Bool := (s.memory core).timing.iecBusActive

/-- `m_WriteBuffer.empty()`. -/
def drained : Bool := decide ((s.writeBuffer core).queue.count = 0)

def screenBase : ℕ := (s.memory core).fetch.activeScreenBase.toNat

def bitmapBase : ℕ := (s.memory core).fetch.activeBitmapBase.toNat

/-- The base of what the VIC draws the picture from, and its length. -/
def graphics : ℕ × ℕ :=
  let charset := (s.memory core).fetch.activeCharsetBase.toNat
  if s.bitmapBase core < 0x10000 then (s.bitmapBase core, 8192)
  else (charset, if charset < 0x10000 then 2048 else 0)

def displayShadowHash : BitVec 32 :=
  let ram := (s.memory core).ram
  [(s.screenBase core, 1024), (s.bitmapBase core, 8192)].foldl
    (fun hash region =>
      if 0x10000 ≤ region.1 then hash
      else
        (List.range region.2).foldl
          (fun hash i =>
            (hash ^^^ (ram (BitVec.ofNat 16 (region.1 + i))).setWidth 32) * 16777619)
          hash)
    2166136261

end Views

/-! ### What the loop does to the parts around it -/

def onSystem (op : System (Fitted β) → α × System (Fitted β)) : FrameM κ α := do
  let s ← get
  let (a, next) := op (core.bus s.cpu)
  set { s with cpu := core.setBus s.cpu next }
  return a

/-- An operation on the physical C64. -/
def onHost (op : β → α × β) : FrameM κ α :=
  onSystem core fun x =>
    ((op x.accelerator.rest.rest).1,
      x.mapAccelerator fun o => o.mapRest fun r => r.mapRest fun host => (op host).2)

def onMemory (program : MemoryM (WithREU (Accelerator (Fitted β))) α) : FrameM κ α :=
  onSystem core program.run

def consumeSpeedChanged : FrameM κ Bool :=
  onSystem core fun x =>
    ((x.accelerator.rest.file.consumeSpeedChanged).1,
      x.mapAccelerator fun o => o.mapRest fun r => { r with file := r.file.consumeSpeedChanged.2 })

/-- `m_CPU->run`, on record. -/
def runCpu (event : RunCall → FrameEvent) (budget ticksPerCycle : ℕ) : FrameM κ ℕ := do
  let s ← get
  let (ran, cpu) := core.run s.cpu budget
  set { s with cpu := cpu, log := event ⟨budget, ticksPerCycle, ran⟩ :: s.log }
  return ran

variable (b : Host β)

/-- A call of the write buffer, on record. -/
def mirror (work : MirrorWork) : FrameM κ PUnit := do
  let s ← get
  let x := core.bus s.cpu
  let (buffer, calls) := work.perform x.accelerator.buffer x.memory.view
  let next := x.mapAccelerator fun o =>
    calls.foldl b.superCpu.bus.recorded.serve ({ o with buffer := buffer }.note .mirrorWork)
  set { s with
    cpu := core.setBus s.cpu next
    log := .mirror x.memory.timing.iecBusActive work calls :: s.log }

def rasterLine : FrameM κ ℕ := do
  let line ← onHost core b.rasterLine
  return line.toNat

/-! ### Drains -/

/-- What the beam allows to send next: how much, whether inside the picture, and the range
that takes precedence. -/
structure Installment where
  bytes : ℕ
  inDisplay : Bool
  displayPriority : Option (ℕ × ℕ)

/-- What is left of the budgets of a drain. -/
structure Rations where
  displayLeft : ℕ
  transferLeft : ℕ
  screenLeft : ℕ

def Rations.spend (r : Rations) (i : Installment) (sent : ℕ) : Rations :=
  if i.displayPriority.isSome then { r with screenLeft := r.screenLeft - sent }
  else
    { r with
      transferLeft := r.transferLeft - sent
      displayLeft := if i.inDisplay then r.displayLeft - sent else r.displayLeft }

def installment (video : C64VideoStandard) (vic : BitVec 6 → Byte) (buffer : WriteBuffer)
    (screenBase bitmapBase line : ℕ) (left : Rations) : Option Installment :=
  if c64RasterIsSafeForBulkTransfer video line then
    let bytes := c64LinesLeft video line * c64CyclesPerLine video * 3 / 4
    let screenPending := decide (screenBase < 0x10000) && buffer.hasPendingInRange screenBase 1000
    let bitmapPending := decide (bitmapBase < 0x10000) && buffer.hasPendingInRange bitmapBase 8000
    if screenPending || bitmapPending then
      if left.screenLeft = 0 then none
      else
        some ⟨min bytes left.screenLeft, false,
          some (if screenPending then (screenBase, 1000) else (bitmapBase, 8000))⟩
    else if left.transferLeft = 0 then none
    else some ⟨min bytes left.transferLeft, false, none⟩
  else if line < c64RasterLines video ∧ left.displayLeft ≠ 0 ∧ left.transferLeft ≠ 0 ∧
      c64LineInSpriteFetchSpan vic line = false then
    some ⟨min left.displayLeft left.transferLeft, true, none⟩
  else none

def Installment.work (i : Installment) (screenBase bitmapBase chunk : ℕ) : MirrorWork :=
  match i.displayPriority with
  | some (base, len) => .flushRangeUpTo base len chunk
  | none =>
      .flushUpToPolicy chunk i.inDisplay (if i.inDisplay then screenBase else 0xFFFFFFFF)
        (if i.inDisplay then bitmapBase else 0xFFFFFFFF)

/-- The rounds of a drain. A round that goes on has made the queue shorter, so that its
length at the start is fuel enough. -/
def flushLoop (screenBase bitmapBase : ℕ) : ℕ → Rations → FrameM κ PUnit
  | 0, _ => pure ⟨⟩
  | fuel + 1, left => do
      let s ← get
      if s.drained core = true ∨ left.transferLeft = 0 ∧ left.screenLeft = 0 then pure ⟨⟩
      else
        let line ← rasterLine core b
        let s ← get
        match installment b.video (s.memory core).fetch.vicRegShadow (s.writeBuffer core) screenBase
            bitmapBase line left with
        | none => pure ⟨⟩
        | some i =>
            let chunk := min i.bytes 64
            if chunk = 0 then pure ⟨⟩
            else
              mirror core b (i.work screenBase bitmapBase chunk)
              let sent ← get
              let before := (s.writeBuffer core).queue.count
              let after := (sent.writeBuffer core).queue.count
              if before ≤ after then pure ⟨⟩
              else flushLoop screenBase bitmapBase fuel (left.spend i (before - after))

def flushMirrorsRasterAware (left : Rations) : FrameM κ PUnit := do
  let s ← get
  flushLoop core b (s.screenBase core) (s.bitmapBase core) (s.writeBuffer core).queue.count left

/-! ### The trial and the diagnostic -/

def updateDisplayScrubPhase (bitmapActive : Bool) : FrameM κ PUnit := do
  let s ← get
  if s.scrub.enabled = true ∧ s.scrub.periodSeconds ≠ 0 then
    let hz := (b.bus.hostCyclesPerSec (core.bus s.cpu).accelerator.rest.rest).setWidth 32
    let now ← onHost core b.bus.hostCycles
    modify fun s => { s with scrub := s.scrub.atTime bitmapActive hz now }
  else modify fun s => { s with scrub := s.scrub.turn s.scrub.enabled }

/-- `updateResyncDiagnostic`. The counts are those of the target build. -/
def resyncDiagnosticAfter (video : C64VideoStandard) (sawIEC : Bool) (s : CSuperCPU κ) :
    ResyncDiagnostic :=
  let d := s.diagnostic
  if sawIEC then
    { d with
      awaitingDrain := true
      holding := false
      phase := .idle
      framesRemaining := 0
      shadowChanged := false
      repairCallsRemaining := 0 }
  else if d.awaitingDrain then
    if s.drained core = false then d
    else
      { d with
        awaitingDrain := false
        holding := true
        phase := .hold
        framesRemaining := if video = .pal then 500 else 600
        startHash := s.displayShadowHash core
        shadowChanged := false
        repairCallsRemaining := 0
        generation := d.generation + 1 }
  else if d.holding then
    let framesRemaining := d.framesRemaining - 1
    if framesRemaining ≠ 0 then { d with framesRemaining := framesRemaining }
    else
      { d with
        framesRemaining := framesRemaining
        holding := false
        shadowChanged := s.displayShadowHash core != d.startHash
        repairCallsRemaining := 16 * (1 + (s.graphics core).2 / 1024)
        phase := .repairing
        generation := d.generation + 1 }
  else d

def updateResyncDiagnostic (sawIEC : Bool) : FrameM κ PUnit :=
  modify fun s => { s with diagnostic := s.resyncDiagnosticAfter core b.video sawIEC }

def runResyncDiagnosticRepair : FrameM κ PUnit := do
  let s ← get
  if s.diagnostic.phase ≠ .repairing ∨ s.diagnostic.repairCallsRemaining = 0 ∨
      s.mirrorHalted core = true ∨ s.iecBusActive core = true ∨ s.drained core = false then
    pure ⟨⟩
  else
    let line ← rasterLine core b
    if c64RasterIsSafeForBulkTransfer b.video line = false then pure ⟨⟩
    else
      mirror core b (.resyncDisplayed (s.screenBase core) (s.graphics core).1 (s.graphics core).2
        64 ⟨false, true, false⟩)
      modify fun s => { s with diagnostic := s.diagnostic.afterRepair }

/-! ### The frame -/

/-- 20 MHz ticks of a frame. -/
def frameTicks : ℕ := c64CyclesPerLine b.video * c64RasterLines b.video * 20

/-- The ticks that a cycle takes at the speed in force. -/
def ticksPerCycle (throttled : Bool) (selectedClockHz : ℕ) : ℕ :=
  20000000 / if throttled then 1000000 else selectedClockHz

/-- Before a slice: a changed speed sets the pace. -/
def paceSlice : FrameM κ ℕ := do
  let s ← get
  let selectedClockHz := (s.registers core).currentClockHz
  let changed ← consumeSpeedChanged core
  let hostRate := b.bus.hostCyclesPerSec (core.bus s.cpu).accelerator.rest.rest
  onlyIf (changed = true)
    (onMemory core (setPacing b.superCpu.board.bare hostRate selectedClockHz))
  let s ← get
  return ticksPerCycle (s.memory core).timing.iecActive selectedClockHz

/-- What is run at a time: at most a 128th of the frame. -/
def sliceBudget (ticksUsed ticksPerCycle : ℕ) : ℕ :=
  min ((frameTicks b - ticksUsed + ticksPerCycle - 1) / ticksPerCycle)
    ((frameTicks b / 128 + ticksPerCycle - 1) / ticksPerCycle)

/-- After a slice: a drain of the queue, as far as the beam allows it. -/
def flushOpportunity (rations : Rations) (ticksUsed : ℕ) : FrameM κ PUnit := do
  let s ← get
  onlyIf (s.mirrorHalted core = false ∧ s.iecBusActive core = false ∧ s.drained core = false ∧
      ticksUsed < frameTicks b)
    (flushMirrorsRasterAware core b rations)

/-- After a slice: a repair of the picture, where the trial asks for it. -/
def scrubOpportunity (scrubBitmapBase ticksUsed : ℕ) : FrameM κ PUnit := do
  let s ← get
  onlyIf (s.scrub.enabled = true ∧ s.mirrorHalted core = false ∧ b.machine = .c64 ∧
      scrubBitmapBase < 0x10000 ∧ (s.memory core).fetch.vicRegShadow 0x11 &&& 0x10 ≠ 0 ∧
      s.iecBusActive core = false ∧ s.drained core = true ∧ ticksUsed < frameTicks b) do
    let line ← rasterLine core b
    let s ← get
    onlyIf (c64RasterIsSafeForBulkTransfer b.video line = true)
      (mirror core b (.resyncDisplayed (s.screenBase core) scrubBitmapBase 8192 32
        ⟨s.scrub.masked, s.scrub.phaseOn, false⟩))

/-- The slices of a frame. Every run advances, so that the ticks of a frame are fuel enough. -/
def frameLoop (rations : Rations) : ℕ → ℕ → ℕ → Bool → FrameM κ (ℕ × Bool)
  | 0, _, executed, sawIEC => pure (executed, sawIEC)
  | fuel + 1, ticksUsed, executed, sawIEC =>
      if frameTicks b ≤ ticksUsed then pure (executed, sawIEC)
      else do
        let s ← get
        let scrubBitmapBase := s.bitmapBase core
        updateDisplayScrubPhase core b (decide (scrubBitmapBase < 0x10000))
        let perCycle ← paceSlice core b
        let ran ← runCpu core .slice (sliceBudget b ticksUsed perCycle) perCycle
        let s ← get
        let ticksUsed := ticksUsed + ran * perCycle
        flushOpportunity core b rations ticksUsed
        scrubOpportunity core b scrubBitmapBase ticksUsed
        frameLoop rations fuel ticksUsed (executed + ran) (sawIEC || s.iecBusActive core)

/-- From inside the picture, run the core until the beam should have reached the border. The
next frame pays. -/
def approachBorder (line : ℕ) : FrameM κ ℕ :=
  if line < c64RasterLines b.video ∧ c64RasterIsSafeForBulkTransfer b.video line = false then do
    let s ← get
    let approachTicks := (c64DisplayLastLine b.video + 1 - line) * c64CyclesPerLine b.video * 20
    let perCycle :=
      ticksPerCycle (s.memory core).timing.iecActive (s.registers core).currentClockHz
    let ran ← runCpu core .approach (approachTicks / perCycle) perCycle
    modify fun s => { s with frameTickDebt := s.frameTickDebt + ran * perCycle }
    return ran
  else pure 0

/-- What is left of the border goes to the background sweep. -/
def sweepBorder (transferPerOpportunity : ℕ) : FrameM κ PUnit := do
  let s ← get
  onlyIf (s.drained core = true ∧ s.diagnostic.awaitingDrain = false ∧
      s.diagnostic.holding = false ∧
      (s.diagnostic.phase = .idle ∨ s.diagnostic.phase = .complete) ∧ b.machine ≠ .c128) do
    let line ← rasterLine core b
    onlyIf (c64RasterIsSafeForBulkTransfer b.video line = true ∧ 12 ≤ c64LinesLeft b.video line)
      (mirror core b (.resyncSweep transferPerOpportunity))

/-- The drain that lands in the border on purpose. The run on the way may have started a
transfer. -/
def borderWork (rations : Rations) : FrameM κ PUnit := do
  let s ← get
  onlyIf (s.mirrorHalted core = false ∧ s.iecBusActive core = false) do
    flushMirrorsRasterAware core b rations
    sweepBorder core b rations.transferLeft

def drainInBorder (rations : Rations) : FrameM κ ℕ := do
  let s ← get
  if s.mirrorHalted core = false ∧ s.drained core = false ∧ s.iecBusActive core = false then
    let line ← rasterLine core b
    let ran ← approachBorder core b line
    borderWork core b rations
    return ran
  else return 0

def noteRasterCoarse : FrameM κ PUnit := do
  let s ← get
  onlyIf ((s.memory core).capture.vicLogEnabled = true ∧ s.iecBusActive core = false) do
    let line ← onHost core b.rasterLine
    onlyIf (line ≠ 0xFFFF)
      (onMemory core (modifyMemory fun m =>
        m.mapCapture fun c => c.noteRasterCoarse (BitVec.ofNat 32 m.timing.c64Now) line))

/-- The budgets of a drain. -/
def rations (mirrorDisplayBudget : BitVec 32) : Rations :=
  let displayPerOpportunity := ((mirrorDisplayBudget + 15) / 16).toNat
  { displayLeft := displayPerOpportunity
    transferLeft := if displayPerOpportunity ≠ 0 then displayPerOpportunity else 64
    screenLeft := 256 }

/-- `runFrame`, with a core and a bus attached. -/
def runFrame : FrameM κ ℕ := do
  let s ← get
  let repaid := min s.frameTickDebt (frameTicks b)
  let left := rations s.mirrorDisplayBudget
  modify fun s => { s with frameTickDebt := s.frameTickDebt - repaid }
  let (executed, sawIEC) ←
    frameLoop core b left (frameTicks b) repaid 0 (s.iecBusActive core)
  updateResyncDiagnostic core b sawIEC
  let ran ← drainInBorder core b left
  runResyncDiagnosticRepair core b
  noteRasterCoarse core b
  return executed + ran

end CSuperCPU

end ScpuEmu
