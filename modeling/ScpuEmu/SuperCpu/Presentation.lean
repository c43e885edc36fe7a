import ScpuEmu.C64.FrameRules
import ScpuEmu.SuperCpu.WriteBuffer.Resync

/-!
# The accelerator and the picture of the C64

The write buffer is the sink of the stores of bank 0, and a frame lets it send what it
holds to the physical C64, unless the mirror is halted. The accelerator that presents the
picture itself halts the mirror and disables delivery.

Beside its state, the accelerator keeps a record of the stores that its parts hear of and
of the writes on the physical bus. Nothing reads the record.
-/

namespace ScpuEmu

open Library

/-- An entry of the record. A store of RAM is noted with whether it changes a byte of the
active row of sprite pointers. -/
inductive BusEvent
  | storeRAM (a : Addr) (value : Byte) (commits : Bool)
  | register (a : Addr) (value : Byte)
  | write (a : Addr) (value : Byte)
  | mirrorWork
  | time
  deriving DecidableEq

/-- The parts of `CSuperCPU` around bank 0, on a physical machine and with a register file
whose states are of type `ρ`. The record has the latest entry first. -/
structure Accelerator (ρ : Type) where
  rest : ρ
  buffer : WriteBuffer
  mirrorHalted : Bool
  events : List BusEvent

namespace CC64Memory

/-- What the sink of stores reaches of the memory. -/
def view (m : CC64Memory) : View where
  ram := some m.ram
  hotBlocks := some m.fetch.hotShapeBlocks
  hotBlocksGeneration := some m.fetch.hotShapeGeneration
  relocation := some m.fetch.relocation

/-- A store changes a byte of the active row of sprite pointers. -/
def commitsPointer (m : CC64Memory) (a : Addr) (v : Byte) : Bool :=
  decide (1 < a) && decide ((a &&& ~~~7#16).setWidth 32 = m.fetch.spritePtrBase) &&
    decide (m.ram a ≠ v)

end CC64Memory

namespace Accelerator

variable {ρ α : Type} (o : Accelerator ρ)

def note (event : BusEvent) : Accelerator ρ := { o with events := event :: o.events }

/-- An operation on the rest. -/
def onRest (op : ρ → α × ρ) : α × Accelerator ρ := ((op o.rest).1, { o with rest := (op o.rest).2 })

def mapRest (f : ρ → ρ) : Accelerator ρ := { o with rest := f o.rest }

/-- A write of a register can select a mirroring policy: a mode, and whether zero page and
stack are excluded. -/
def applyPolicy : Option (SCPUOptMode × Bool) → Accelerator ρ
  | none => o
  | some (mode, exclude) =>
      { o with buffer := (o.buffer.setExcludeZeroPageStack exclude).setOptMode mode }

end Accelerator

/-- The physical bus, with its writes on record. -/
def C64Bus.recorded {ρ : Type} (bus : C64Bus ρ) : C64Bus (Accelerator ρ) where
  read o a := o.onRest fun r => bus.read r a
  write o a v := (o.mapRest fun r => bus.write r a v).note (.write a v)
  writeRAM o a v := (o.mapRest fun r => bus.writeRAM r a v).note (.write a v)
  verifyC64CIA2DDRA o v := o.onRest fun r => bus.verifyC64CIA2DDRA r v
  sampleInterrupts o := o.onRest bus.sampleInterrupts
  hostCycles o := o.onRest bus.hostCycles
  hostCyclesPast o anchor owed := o.onRest fun r => bus.hostCyclesPast r anchor owed
  hostCyclesPerSec o := bus.hostCyclesPerSec o.rest
  gameAsserted o := bus.gameAsserted o.rest
  exromAsserted o := bus.exromAsserted o.rest
  cyclesPerLine o := bus.cyclesPerLine o.rest

/-- What `CSuperCPU` is wired to. `policy` is the mirroring policy that a write of a
register selects, if it selects one. -/
structure SuperCpu (ρ : Type) where
  bus : C64Bus ρ
  registers : Cartridge ρ
  policy : ρ → MapLines → Addr → Byte → Option (SCPUOptMode × Bool)
  hdmiActive : ρ → Bool
  takeSpriteSpriteCollision : ρ → Byte × ρ
  takeSpriteBackgroundCollision : ρ → Byte × ρ
  clearCollisions : ρ → ρ

/-- The write buffer as the sink of stores. -/
def onRamWrite {ρ : Type} (s : Machine (Accelerator ρ)) (a : Addr) (v : Byte) :
    Bool × Accelerator ρ :=
  let (buffer, accepted) := s.outside.buffer.onRamWrite s.memory.view a v
  (accepted, { s.outside with buffer := buffer }.note
    (.storeRAM a v (s.memory.commitsPointer a v)))

namespace SuperCpu

variable {ρ : Type} (c : SuperCpu ρ)

/-- The register file, with the stores that it hears of on record. -/
def cartridge : Cartridge (Accelerator ρ) where
  ioRead o lines a :=
    let (answer, lines, rest) := c.registers.ioRead o.rest lines a
    (answer, lines, { o with rest := rest })
  ioWrite o lines a v :=
    let reply := c.registers.ioWrite o.rest lines a v
    { handled := reply.handled
      lines := reply.lines
      speeds := reply.speeds
      state := ({ o.applyPolicy (c.policy o.rest lines a v) with rest := reply.state }).note
        (.register a v) }
  ioAccessNeedsStretch o := c.registers.ioAccessNeedsStretch o.rest
  ioAccessUsesWriteBuffer o := c.registers.ioAccessUsesWriteBuffer o.rest
  dosExtensionEnabled o := c.registers.dosExtensionEnabled o.rest
  interruptRerouteRequested o := c.registers.interruptRerouteRequested o.rest

def board : Board (Accelerator ρ) where
  bus := some c.bus.recorded
  mirror := some onRamWrite
  registers := c.cartridge
  hdmiActive o := c.hdmiActive o.rest
  takeSpriteSpriteCollision o := o.onRest c.takeSpriteSpriteCollision
  takeSpriteBackgroundCollision o := o.onRest c.takeSpriteBackgroundCollision
  clearCollisions o := o.mapRest c.clearCollisions

end SuperCpu

/-- The whole accelerator, with its expansion unit. -/
abbrev System (ρ : Type) := Machine (WithREU (Accelerator ρ))

namespace System

variable {ρ : Type} (s : System ρ)

def accelerator : Accelerator ρ := s.outside.rest

def mapAccelerator (f : Accelerator ρ → Accelerator ρ) : System ρ :=
  ⟨s.memory, { s.outside with rest := f s.outside.rest }⟩

end System

/-! ### The work on the mirror -/

/-- The calls that a frame makes on the write buffer. -/
inductive MirrorWork
  | flushUpToPolicy (maxBytes : ℕ) (deferHot : Bool) (screenBase bitmapBase : ℕ)
  | flushRangeUpTo (base len maxBytes : ℕ)
  | resyncDisplayed (screenBase graphicsBase graphicsLength maxBytes : ℕ)
    (flags : WriteBuffer.ScrubFlags)
  | resyncSweep (maxBytes : ℕ)

namespace MirrorWork

def perform (b : WriteBuffer) (w : View) : MirrorWork → WriteBuffer × List BusCall
  | .flushUpToPolicy maxBytes deferHot screenBase bitmapBase =>
      b.flushUpToPolicy w maxBytes deferHot screenBase bitmapBase
  | .flushRangeUpTo base len maxBytes => b.flushRangeUpTo w base len maxBytes
  | .resyncDisplayed screenBase graphicsBase graphicsLength maxBytes flags =>
      b.resyncDisplayed w screenBase graphicsBase graphicsLength maxBytes flags
  | .resyncSweep maxBytes => b.resyncSweep w maxBytes

end MirrorWork

namespace C64Bus

variable {ω : Type} (bus : C64Bus ω)

/-- A burst, byte by byte. -/
def writeBurst (o : ω) (burst : List C64BusWrite) : ω :=
  burst.foldl (fun o x => bus.write o x.addr x.value) o

/-- A call that the write buffer makes. -/
def serve (o : ω) : BusCall → ω
  | .writeBurst burst => bus.writeBurst o burst
  | .readRAM a => (bus.read o a).2

end C64Bus

namespace SuperCpu

variable {ρ : Type} (c : SuperCpu ρ)

/-- What `runFrame` does between the slices of the core, in whatever order the raster asks
for it: nothing while the mirror is halted. -/
def mirrorWork (works : List MirrorWork) (s : System ρ) : System ρ :=
  works.foldl
    (fun s work =>
      if s.accelerator.mirrorHalted then s
      else
        let (buffer, calls) := work.perform s.accelerator.buffer s.memory.view
        s.mapAccelerator fun o =>
          calls.foldl c.bus.recorded.serve ({ o with buffer := buffer }.note .mirrorWork))
    s

/-- `disablePhysicalMirror`. -/
def disablePhysicalMirror (s : System ρ) : System ρ :=
  let s := s.mapAccelerator fun o =>
    { o with buffer := o.buffer.discard.setDeliveryEnabled false, mirrorHalted := true }
  ⟨s.memory.mapTiming fun t => t.enablePostedWriteTiming true, s.outside⟩

/-- An emulated reset. `registers` is what it does to the register file, which selects the
policy `policy`, and `seed` is what it copies to bank 1. -/
def reset (env : Surroundings (WithREU (Accelerator ρ))) (registers : ρ → ρ)
    (policy : SCPUOptMode × Bool) (seed : MapLines) (s : System ρ) : System ρ :=
  let s := s.mapAccelerator fun o => { o with buffer := o.buffer.discard }
  let s := ((ScpuEmu.reset env).run s).2
  let s : System ρ := ⟨s.memory.setMapLines seed, s.outside⟩
  let s := s.mapAccelerator fun o => (o.mapRest registers).applyPolicy (some policy)
  ((ScpuEmu.resyncPacing env).run s).2

end SuperCpu

/-! ### Runs -/

/-- An access of bank 0 by the core. -/
inductive GuestAccess
  | read8 (a : Addr)
  | write8 (a : Addr) (value : Byte)
  | readFast (a : Addr)
  | writeFast (a : Addr) (value : Byte)

def GuestAccess.program {ω : Type} (env : Surroundings ω) : GuestAccess → MemoryM ω PUnit
  | .read8 a => (fun _ => ⟨⟩) <$> ScpuEmu.read8 env a
  | .write8 a v => ScpuEmu.write8 env a v
  | .readFast a => (fun _ => ⟨⟩) <$> ScpuEmu.readFast env a
  | .writeFast a v => ScpuEmu.writeFast env a v

/-- What happens to the accelerator until the mirror is enabled again: accesses of the core,
samples of its interrupt lines, time, changes of the speed, of the mirroring policy, of the
switches of the memory and of the lines that the memory map and the register file drive, the
work of a frame on the mirror, a reset, and whatever the rest does. -/
inductive SystemOp (ρ : Type)
  | access (access : GuestAccess)
  | sampleIRQNMIFast
  | tick (nCycles : ℕ)
  | setPacing (hostCyclesPerSecond : BitVec 64) (emulatedHz : ℕ)
  | setPolicy (mode : SCPUOptMode) (exclude : Bool)
  | setTiming (f : Timing → Timing)
  | setCapture (f : RasterCapture → RasterCapture)
  | setRAMUnderIOAccessible (accessible : Bool)
  | setLines (lines : MapLines)
  | mirrorWork (works : List MirrorWork)
  | reset (registers : ρ → ρ) (policy : SCPUOptMode × Bool) (seed : MapLines)
  | rest (f : ρ → ρ)

namespace SuperCpu

variable {ρ : Type} (c : SuperCpu ρ)

/-- One step, where nesting of transfers is followed to a depth. -/
def step (depth : ℕ) (s : System ρ) : SystemOp ρ → System ρ
  | .access access => ((access.program (c.board.env depth)).run s).2
  | .sampleIRQNMIFast => ((ScpuEmu.sampleIRQNMIFast (c.board.env depth)).run s).2
  | .tick n =>
      ((tickFast (c.board.env depth) n).run (s.mapAccelerator fun o => o.note .time)).2
  | .setPacing host hz => ((ScpuEmu.setPacing (c.board.env depth) host hz).run s).2
  | .setPolicy mode exclude => s.mapAccelerator fun o => o.applyPolicy (some (mode, exclude))
  | .setTiming f => ⟨s.memory.mapTiming f, s.outside⟩
  | .setCapture f => ⟨s.memory.mapCapture f, s.outside⟩
  | .setRAMUnderIOAccessible on =>
      let s := s.mapAccelerator fun o => { o with buffer := o.buffer.setRAMUnderIOAccessible on }
      ((ScpuEmu.setRAMUnderIOAccessible on).run s).2
  | .setLines lines => ⟨s.memory.setMapLines lines, s.outside⟩
  | .mirrorWork works => c.mirrorWork works s
  | .reset registers policy seed => reset (c.board.env depth) registers policy seed s
  | .rest f => s.mapAccelerator fun o => o.mapRest f

end SuperCpu

end ScpuEmu
