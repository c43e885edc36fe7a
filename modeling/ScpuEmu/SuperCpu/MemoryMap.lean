import ScpuEmu.SuperCpu.FastRam
import ScpuEmu.SuperCpu.RegisterBoard
import ScpuEmu.Cpu.Bus

/-!
# The 24-bit address space

Bank 0 is the C64. Above it stand the SRAM of bank 1, which bank 0 has as its ROM shadow, the
SIMM with a window onto its first 128K, and the image of the ROM. What nothing decodes reads
as the byte of its bank. The register file configures the SIMM, and opens the window for
writes while its bank of registers is open.
-/

namespace ScpuEmu

open Library

/-- The SIMM, and the rest of what the register file is fitted to. -/
structure WithSIMM (β : Type) where
  simm : CFastRAM
  rest : β

namespace WithSIMM

variable {α β : Type} (o : WithSIMM β)

def onRest (op : β → α × β) : α × WithSIMM β := ((op o.rest).1, { o with rest := (op o.rest).2 })

def mapRest (f : β → β) : WithSIMM β := { o with rest := f o.rest }

def mapSIMM (f : CFastRAM → CFastRAM) : WithSIMM β := { o with simm := f o.simm }

end WithSIMM

def C64Bus.withSIMM {β : Type} (bus : C64Bus β) : C64Bus (WithSIMM β) where
  read o a := o.onRest fun r => bus.read r a
  write o a v := o.mapRest fun r => bus.write r a v
  writeRAM o a v := o.mapRest fun r => bus.writeRAM r a v
  verifyC64CIA2DDRA o v := o.onRest fun r => bus.verifyC64CIA2DDRA r v
  sampleInterrupts o := o.onRest bus.sampleInterrupts
  hostCycles o := o.onRest bus.hostCycles
  hostCyclesPast o anchor owed := o.onRest fun r => bus.hostCyclesPast r anchor owed
  hostCyclesPerSec o := bus.hostCyclesPerSec o.rest
  gameAsserted o := bus.gameAsserted o.rest
  exromAsserted o := bus.exromAsserted o.rest
  cyclesPerLine o := bus.cyclesPerLine o.rest

namespace Chassis

variable {β : Type} (b : Chassis β)

def withSIMM : Chassis (WithSIMM β) where
  bus := b.bus.withSIMM
  hdmiActive o := b.hdmiActive o.rest
  takeSpriteSpriteCollision o := o.onRest b.takeSpriteSpriteCollision
  takeSpriteBackgroundCollision o := o.onRest b.takeSpriteBackgroundCollision
  clearCollisions o := o.mapRest b.clearCollisions

/-- A write of $D078, while the bank of registers is open, also configures the SIMM. -/
def simmRegisters : Cartridge (Fitted (WithSIMM β)) :=
  { b.withSIMM.registers with
    ioWrite := fun o lines a v =>
      let reply := b.withSIMM.registers.ioWrite o lines a v
      if a = 0xD078 ∧ o.file.hwRegsEnabled = true ∧ o.file.fastRAM.isSome = true then
        { reply with
          state := reply.state.mapRest fun r => r.mapSIMM fun simm => simm.setConfig v }
      else reply }

/-- The accelerator with the SIMM behind its register file. -/
def mapped : SuperCpu (Fitted (WithSIMM β)) :=
  { b.withSIMM.superCpu with registers := b.simmRegisters }

end Chassis

/-- `CSuperCPUMemoryMap`, and what its pointers reach. -/
structure CSuperCPUMemoryMap (β : Type) where
  system : System (Fitted (WithSIMM β))
  rom : BitVec 32 → Byte
  romLength : ℕ
  bank0Accesses : ℕ
  fastAccesses : ℕ
  vectorReroutes : ℕ

abbrev MapM (β : Type) := StateM (CSuperCPUMemoryMap β)

namespace CSuperCPUMemoryMap

section Definitions

variable {α β : Type} (m : CSuperCPUMemoryMap β)

def file : CSuperCPURegisters := m.system.outside.rest.rest.file

def simm : CFastRAM := m.system.outside.rest.rest.rest.simm

def mapSIMM (f : CFastRAM → CFastRAM) : CSuperCPUMemoryMap β :=
  { m with system := m.system.mapAccelerator fun o =>
      o.mapRest fun fitted => fitted.mapRest fun r => r.mapSIMM f }

def mapTiming (f : Timing → Timing) : CSuperCPUMemoryMap β :=
  { m with system := ⟨m.system.memory.mapTiming f, m.system.outside⟩ }

def countFast : CSuperCPUMemoryMap β := { m with fastAccesses := m.fastAccesses + 1 }

def countBank0 : CSuperCPUMemoryMap β := { m with bank0Accesses := m.bank0Accesses + 1 }

@[simp] theorem system_countFast : m.countFast.system = m.system := rfl

@[simp] theorem file_countFast : m.countFast.file = m.file := rfl

@[simp] theorem simm_countFast : m.countFast.simm = m.simm := rfl

@[simp] theorem rom_countFast : m.countFast.rom = m.rom := rfl

@[simp] theorem romLength_countFast : m.countFast.romLength = m.romLength := rfl

def setROM (image : BitVec 32 → Byte) (length : ℕ) : CSuperCPUMemoryMap β :=
  { m with rom := image, romLength := if 0x80000 < length then 0x80000 else length }

/-- An operation of bank 0. -/
def onBank0 (op : MemoryM (WithREU (Accelerator (Fitted (WithSIMM β)))) α) : MapM β α := do
  let m ← get
  let reply := op.run m.system
  set { m with system := reply.2 }
  return reply.1

theorem run_onBank0 (op : MemoryM (WithREU (Accelerator (Fitted (WithSIMM β)))) α) :
    (onBank0 op).run m = ((op.run m.system).1, { m with system := (op.run m.system).2 }) := rfl

def noteFastHalfCycles (halfCycles : ℕ) : MapM β PUnit :=
  modify fun m => m.mapTiming fun t => t.noteFastHalfCycles halfCycles

/-- An access of the SIMM, as far as it costs time. -/
def simmAccess (offset : BitVec 32) (write : Bool) : MapM β PUnit := do
  let m ← get
  let penalty := m.simm.accessPenaltyHalfCycles offset write
  modify fun m => m.mapSIMM fun _ => penalty.2
  noteFastHalfCycles penalty.1

/-- The window onto the SIMM. -/
def inSimmWindow (addr : BitVec 24) : Prop := 0xF60000#24 ≤ addr ∧ addr < 0xF80000#24

instance (addr : BitVec 24) : Decidable (inSimmWindow addr) := inferInstanceAs (Decidable (_ ∧ _))

def openBus (addr : BitVec 24) : Byte := (addr >>> 16).setWidth 8

def readAbove (addr : BitVec 24) : MapM β Byte := do
  modify countFast
  let m ← get
  if addr < 0x020000 then return m.system.memory.shadowByte (addr.setWidth 16)
  else if 0xF80000 ≤ addr then
    noteFastHalfCycles 6
    return if m.romLength = 0 then openBus addr
      else m.rom (BitVec.ofNat 32 ((addr - 0xF80000).toNat % m.romLength))
  else if inSimmWindow addr then
    if m.simm.present = false then return openBus addr
    else
      let offset := (addr - 0xF60000).setWidth 32
      simmAccess offset false
      return (← get).simm.read offset
  else if m.simm.present = true ∧ addr.setWidth 32 < m.simm.size then
    simmAccess (addr.setWidth 32) false
    return (← get).simm.read (addr.setWidth 32)
  else return openBus addr

def writeAbove (addr : BitVec 24) (value : Byte) : MapM β PUnit := do
  modify countFast
  let m ← get
  if addr < 0x020000 then onBank0 (writeShadow (addr.setWidth 16) value)
  else if 0xF80000 ≤ addr then noteFastHalfCycles 6
  else if inSimmWindow addr then
    if m.file.hwRegsEnabled = false then return
    else
      let offset := (addr - 0xF60000).setWidth 32
      simmAccess offset true
      modify fun m => m.mapSIMM fun simm => simm.write offset value
  else if m.simm.present = true ∧ addr.setWidth 32 < m.simm.size then
    simmAccess (addr.setWidth 32) true
    modify fun m => m.mapSIMM fun simm => simm.write (addr.setWidth 32) value
  else return

variable (b : Chassis β) (depth : ℕ)

/-- The devices around bank 0. -/
def env : Surroundings (WithREU (Accelerator (Fitted (WithSIMM β)))) := b.mapped.board.env depth

/-- The first two bytes of bank 1 are the port of the C64's processor. -/
def readBank1Port (offset : Addr) : MapM β Byte := onBank0 (ScpuEmu.read8 (env b depth) offset)

def writeBank1Port (offset : Addr) (value : Byte) : MapM β PUnit :=
  onBank0 (ScpuEmu.write8 (env b depth) offset value)

def read8 (addr : BitVec 24) : MapM β Byte := do
  if addr < 0x010000 then
    modify countBank0
    onBank0 (readFast (env b depth) (addr.setWidth 16))
  else if addr < 0x020000 then
    modify countFast
    let offset := addr.setWidth 16
    if offset < 2 then readBank1Port b depth offset
    else return (← get).system.memory.shadowByte offset
  else readAbove addr

def write8 (addr : BitVec 24) (value : Byte) : MapM β PUnit := do
  if addr < 0x010000 then
    modify countBank0
    onBank0 (writeFast (env b depth) (addr.setWidth 16) value)
  else if addr < 0x020000 then
    modify countFast
    let offset := addr.setWidth 16
    if offset < 2 then writeBank1Port b depth offset value
    else onBank0 (writeShadow offset value)
  else writeAbove addr value

/-! ### The vectors of interrupts -/

/-- `CC64Memory::interruptRerouteActive`, behind the map's test for an image. -/
def interruptRerouteActive (emulationMode : Bool) : Bool :=
  let memory := m.system.memory
  decide (m.romLength ≠ 0) && memory.vectorRerouteEnable && !memory.bootmapActive &&
    memory.romShadow.isSome && decide (c64MapRead 0xFF00 memory.bankMode = .kernal) &&
    (!emulationMode || b.mapped.registers.interruptRerouteRequested m.system.outside.rest.rest)

/-- The vector from the image of the ROM. -/
def rerouteVector (addr : Addr) : MapM β (BitVec 16) := do
  modify fun m => { m with vectorReroutes := m.vectorReroutes + 1 }
  let low ← read8 b depth (0xF80000 + addr.setWidth 24)
  let high ← read8 b depth (0xF80000 + addr.setWidth 24 + 1)
  return low.setWidth 16 ||| high.setWidth 16 <<< 8

end Definitions

end CSuperCPUMemoryMap

end ScpuEmu
