import ScpuEmu.C64.Banking
import ScpuEmu.C64.Timing
import ScpuEmu.C64.RasterCapture
import ScpuEmu.C64.Fetch
import ScpuEmu.Library.StateProgram

/-!
# Bank 0: the memory that the C64 sees

Reads and writes of the 64K address space, by the fast path of the core and by the
general one. What the memory talks to stands around it as a record of operations on a
state of any type: the physical bus, the sink that mirrors stores of RAM, the devices
that claim addresses of the I/O window and the hook on $FF00. The last two may come back
to the memory while they are called, so they act on the whole machine.

The rings of the latest accesses, which only serve a post-mortem, are left out.
-/

namespace ScpuEmu

open Library

/-- `CC64Memory`. -/
structure CC64Memory where
  ram : Addr → Byte
  basic : Addr → Byte
  kernal : Addr → Byte
  charROM : Addr → Byte
  port00 : Byte
  port01 : Byte
  bankMode : Byte
  kernalShadowBase : Addr
  bootmapActive : Bool
  bootmapROM : BitVec 32 → Byte
  bootmapROMLength : ℕ
  /-- Bank 1 of the accelerator's SRAM, where attached. -/
  romShadow : Option (Addr → Byte)
  scpu128Mode : Bool
  vectorRerouteEnable : Bool
  ioReads : ℕ
  ioWrites : ℕ
  ramWrites : ℕ
  timing : Timing
  fetch : Fetch
  capture : RasterCapture

/-- The memory and the state of all around it. -/
structure Machine (ω : Type) where
  memory : CC64Memory
  outside : ω

/-- `IC64Bus`. The levels of the cartridge lines and the length of a raster line are its
`signals`; `hostCyclesPast` is what polling `hostCycles` ends with, once the given span
has passed since the given time. -/
structure C64Bus (ω : Type) where
  read : ω → Addr → Byte × ω
  write : ω → Addr → Byte → ω
  writeRAM : ω → Addr → Byte → ω
  verifyC64CIA2DDRA : ω → Byte → Bool × ω
  sampleInterrupts : ω → (Bool × Bool) × ω
  hostCycles : ω → BitVec 64 × ω
  hostCyclesPast : ω → BitVec 64 → BitVec 64 → BitVec 64 × ω
  hostCyclesPerSec : ω → BitVec 64
  gameAsserted : ω → Bool
  exromAsserted : ω → Bool
  cyclesPerLine : ω → BitVec 32

/-- `IIOInterceptor`. -/
structure IIOInterceptor (ω : Type) where
  ioRead : Machine ω → Addr → Option Byte × Machine ω
  ioWrite : Machine ω → Addr → Byte → Bool × Machine ω
  ioAccessNeedsStretch : Machine ω → Addr → Bool → Bool
  ioAccessUsesWriteBuffer : Machine ω → Addr → Bool → Bool
  dosExtensionEnabled : ω → Bool
  interruptRerouteRequested : ω → Bool

/-- What is attached to the memory. The sink sees the memory through its pointers and
answers whether its policy accepts the store. -/
structure Surroundings (ω : Type) where
  bus : Option (C64Bus ω)
  mirror : Option (Machine ω → Addr → Byte → Bool × ω)
  io : Option (IIOInterceptor ω)
  ff00Hook : Option (Machine ω → Machine ω)
  hdmiActive : ω → Bool
  takeSpriteSpriteCollision : ω → Byte × ω
  takeSpriteBackgroundCollision : ω → Byte × ω
  clearCollisions : ω → ω

/-- The SCPU128 windows that the host's own MMU and VDC decode. -/
def isHostDecoded (a : Addr) : Bool :=
  decide (0xD500#16 ≤ a) && decide (a ≤ 0xD50B) || decide (0xD600#16 ≤ a) && decide (a ≤ 0xD601) ||
    decide (0xFF00#16 ≤ a) && decide (a ≤ 0xFF04)

/-- PA3-PA5 pull the serial lines where they are outputs. -/
def cia2EffectiveIECDrive (latch ddra : Byte) : Byte := latch &&& ddra &&& 0x38#8

namespace CC64Memory

/-- The constructor. The fields it leaves uninitialised are its arguments. -/
def construct (spritePtrBase previousSpritePtrBase : BitVec 32) (lastD018 : Byte)
    (vicRegShadow : BitVec 6 → Byte) (vicLog : VICLog) : CC64Memory where
  ram _ := 0
  basic _ := 0xFF
  kernal _ := 0xFF
  charROM _ := 0
  port00 := 0x2F
  port01 := 0x37
  bankMode := c64BankMode ⟨c64PortEffective 0x2F 0x37, true, true⟩
  kernalShadowBase := 0xE000
  bootmapActive := false
  bootmapROM _ := 0
  bootmapROMLength := 0
  romShadow := none
  scpu128Mode := false
  vectorRerouteEnable := true
  ioReads := 0
  ioWrites := 0
  ramWrites := 0
  timing := Timing.construct
  fetch := Fetch.construct spritePtrBase previousSpritePtrBase lastD018 vicRegShadow
  capture := RasterCapture.construct vicLog

variable (m : CC64Memory)

def shadowByte (a : Addr) : Byte := (m.romShadow.getD fun _ => 0) a

/-- Bootmap sits above the PLA. -/
def bootmapMaps (a : Addr) : Bool :=
  m.bootmapActive && (decide (0x8000#16 ≤ a) && decide (a ≤ 0xCFFF) || decide (0xE000#16 ≤ a))

/-- The upper half of a 128K image, in native C128 mode. -/
def bootmapExtensionMaps (a : Addr) : Bool :=
  m.bootmapActive && m.scpu128Mode && decide (0x20000 ≤ m.bootmapROMLength) &&
    (decide (0x1000#16 ≤ a) && decide (a ≤ 0x5FFF))

/-- A write of the output latch or of the direction register can move a serial line. -/
def cia2IECChanged (a : Addr) (value : Byte) : Bool :=
  let f := m.fetch
  if f.haveCIA2DDRA && f.haveCIA2PortALatch then
    if a = 0xDD00 then
      cia2EffectiveIECDrive f.cia2PortALatch f.cia2DDRA != cia2EffectiveIECDrive value f.cia2DDRA
    else
      cia2EffectiveIECDrive f.cia2PortALatch f.cia2DDRA !=
        cia2EffectiveIECDrive f.cia2PortALatch value
  else true

def mapTiming (g : Timing → Timing) : CC64Memory := { m with timing := g m.timing }

def mapFetch (g : Fetch → Fetch) : CC64Memory := { m with fetch := g m.fetch }

def mapCapture (g : RasterCapture → RasterCapture) : CC64Memory :=
  { m with capture := g m.capture }

@[simp] theorem timing_mapFetch (g : Fetch → Fetch) : (m.mapFetch g).timing = m.timing := rfl

@[simp] theorem timing_mapCapture (g : RasterCapture → RasterCapture) :
    (m.mapCapture g).timing = m.timing := rfl

@[simp] theorem fetch_mapCapture (g : RasterCapture → RasterCapture) :
    (m.mapCapture g).fetch = m.fetch := rfl

@[simp] theorem fetch_mapFetch (g : Fetch → Fetch) : (m.mapFetch g).fetch = g m.fetch := rfl

@[simp] theorem ram_mapFetch (g : Fetch → Fetch) : (m.mapFetch g).ram = m.ram := rfl

@[simp] theorem ram_mapCapture (g : RasterCapture → RasterCapture) :
    (m.mapCapture g).ram = m.ram := rfl

@[simp] theorem ramWrites_mapFetch (g : Fetch → Fetch) :
    (m.mapFetch g).ramWrites = m.ramWrites := rfl

@[simp] theorem ramWrites_mapCapture (g : RasterCapture → RasterCapture) :
    (m.mapCapture g).ramWrites = m.ramWrites := rfl

@[simp] theorem scpu128Mode_mapFetch (g : Fetch → Fetch) :
    (m.mapFetch g).scpu128Mode = m.scpu128Mode := rfl

@[simp] theorem scpu128Mode_mapCapture (g : RasterCapture → RasterCapture) :
    (m.mapCapture g).scpu128Mode = m.scpu128Mode := rfl

/-- The stamp of an event. -/
def stamp : BitVec 32 := BitVec.ofNat 32 m.timing.c64Now

def appendVICLog (reg : BitVec 16) (value : Byte) : CC64Memory :=
  m.mapCapture fun c => c.appendVICLog m.stamp reg value

/-- After any change of what the pointer row depends on. -/
def refreshFetch : CC64Memory :=
  m.mapFetch fun f => f.updateSpritePtrBase.updateHotShapeBlocks m.ram

def logVICBank : CC64Memory := m.appendVICLog 0x40 m.fetch.vicBank

end CC64Memory

abbrev MemoryM (ω : Type) := StateM (Machine ω)

section Programs

variable {ω α : Type}

def getMemory : MemoryM ω CC64Memory := Machine.memory <$> get

def modifyMemory (g : CC64Memory → CC64Memory) : MemoryM ω PUnit :=
  modify fun s => { s with memory := g s.memory }

def modifyTiming (g : Timing → Timing) : MemoryM ω PUnit := modifyMemory fun m => m.mapTiming g

@[simp] theorem run_getMemory (s : Machine ω) :
    (getMemory : MemoryM ω CC64Memory).run s = (s.memory, s) := rfl

@[simp] theorem run_modifyMemory (g : CC64Memory → CC64Memory) (s : Machine ω) :
    (modifyMemory g : MemoryM ω PUnit).run s = (⟨⟩, ⟨g s.memory, s.outside⟩) := rfl

@[simp] theorem run_modifyTiming (g : Timing → Timing) (s : Machine ω) :
    (modifyTiming g : MemoryM ω PUnit).run s = (⟨⟩, ⟨s.memory.mapTiming g, s.outside⟩) := rfl

/-- An operation of what stands around the memory. -/
def callOutside (op : ω → α × ω) : MemoryM ω α := do
  let s ← get
  let (a, outside) := op s.outside
  set { s with outside := outside }
  return a

@[simp] theorem run_callOutside (op : ω → α × ω) (s : Machine ω) :
    (callOutside op).run s = ((op s.outside).1, ⟨s.memory, (op s.outside).2⟩) := rfl

variable (env : Surroundings ω)

/-- A read that the bus answers; without a bus it floats high. -/
def busRead (a : Addr) : MemoryM ω Byte :=
  match env.bus with
  | some bus => callOutside fun o => bus.read o a
  | none => pure 0xFF

def busWrite (a : Addr) (value : Byte) : MemoryM ω PUnit :=
  match env.bus with
  | some bus => callOutside fun o => (⟨⟩, bus.write o a value)
  | none => pure ⟨⟩

def busWriteRAM (a : Addr) (value : Byte) : MemoryM ω PUnit :=
  match env.bus with
  | some bus => callOutside fun o => (⟨⟩, bus.writeRAM o a value)
  | none => pure ⟨⟩

def dosExtensionEnabled (outside : ω) : Bool :=
  match env.io with
  | some io => io.dosExtensionEnabled outside
  | none => false

def dosExtensionMapsBank1 (s : Machine ω) (a : Addr) : Bool :=
  (decide (0x1000#16 ≤ a) && decide (a ≤ 0x5FFF) ||
      decide (0x8000#16 ≤ a) && decide (a ≤ 0x9FFF)) &&
    !s.memory.bootmapActive && s.memory.romShadow.isSome && dosExtensionEnabled env s.outside

/-- A store of bank 1. -/
def writeShadow (a : Addr) (value : Byte) : MemoryM ω PUnit :=
  modifyMemory fun m =>
    { m with romShadow := m.romShadow.map fun shadow => Function.update shadow a value }

/-! ### Stores of RAM -/

/-- Tell the sink. It runs before the store, so that RAM still holds the old byte. -/
def mirrorWrite (a : Addr) (value : Byte) : MemoryM ω PUnit :=
  match env.mirror with
  | none => pure ⟨⟩
  | some onRamWrite => do
      let s ← get
      let accepted ← callOutside fun _ => onRamWrite s a value
      onlyIf accepted (modifyTiming Timing.noteMirrorWrite)

/-- The sink hears of a byte of RAM again. -/
def replayByte (a : Addr) : MemoryM ω PUnit :=
  match env.mirror with
  | none => pure ⟨⟩
  | some onRamWrite => do
      let s ← get
      callOutside fun _ => (⟨⟩, (onRamWrite s a (s.memory.ram a)).2)

/-- The bytes of a shape go to the sink again, now that its block has a home. -/
def replayShape (v : Byte) : ℕ → MemoryM ω PUnit
  | 0 => pure ⟨⟩
  | left + 1 => do
      replayByte env (0xC000#16 + v.setWidth 16 <<< 6 + BitVec.ofNat 16 (63 - left))
      replayShape v left

def allocRelocBlock (v : Byte) : MemoryM ω Byte := do
  let m ← getMemory
  match m.fetch.freeRelocBlock with
  | none => return 0xFF
  | some r =>
      modifyMemory fun m => m.mapFetch fun f => f.claimReloc v r
      replayShape env v 64
      return BitVec.ofNat 8 r

def noteRelocDelivered : MemoryM ω PUnit :=
  modifyMemory fun m => m.mapFetch fun f => { f with relocDelivered := f.relocDelivered + 1 }

def noteRelocExhausted : MemoryM ω PUnit :=
  modifyMemory fun m => m.mapFetch fun f => { f with relocExhausted := f.relocExhausted + 1 }

/-- The pointer value to deliver for `v`. -/
def relocPointerValue (v : Byte) : MemoryM ω Byte := do
  let m ← getMemory
  let home := m.fetch.relocation.ptrReloc (v.toNat - 0x40)
  if m.fetch.relocates v = false then return v
  else if home ≠ 0xFF#8 then
    noteRelocDelivered
    return home
  else
    let r ← allocRelocBlock env v
    if r = 0xFF#8 then
      noteRelocExhausted
      return v
    else
      noteRelocDelivered
      return r

/-- The pointers go to the real bus at once. -/
def deliverPointer (a : Addr) (v : Byte) : MemoryM ω PUnit :=
  match env.bus with
  | none => pure ⟨⟩
  | some _ => do
      let delivered ← relocPointerValue env v
      let m ← getMemory
      if m.fetch.ramUnderIOAccessible = true ∧ 0xD000#16 ≤ a ∧ a ≤ 0xDFFF#16 then
        busWriteRAM env a delivered
      else busWrite env a delivered

/-- A pointer has a new value. -/
def commitPointer (a : Addr) (v : Byte) : MemoryM ω PUnit := do
  deliverPointer env a v
  modifyMemory fun m => m.mapFetch fun f => f.updateHotShapeBlocks m.ram
  modifyMemory fun m => m.appendVICLog (0x50#16 + (a &&& 7#16)) v

def noteSpritePointerWrite (a : Addr) (old v : Byte) : MemoryM ω PUnit := do
  modifyMemory fun m => m.mapFetch fun f => { f with ptrRowWrites := f.ptrRowWrites + 1 }
  onlyIf (old ≠ v) (commitPointer env a v)

def callFF00Hook : MemoryM ω PUnit :=
  match env.ff00Hook with
  | some hook => modify hook
  | none => pure ⟨⟩

def noteRAMWriteSideEffects (a : Addr) (old v : Byte) : MemoryM ω PUnit := do
  let m ← getMemory
  onlyIf ((a &&& ~~~7#16).setWidth 32 = m.fetch.spritePtrBase) (noteSpritePointerWrite env a old v)
  onlyIf (a = 0xFF00) (callFF00Hook env)

/-- The store of RAM, which stands in `writeFast` and at the end of `write8`. -/
def storeRAM (a : Addr) (value : Byte) : MemoryM ω PUnit := do
  let m ← getMemory
  modifyMemory fun m => { m with ramWrites := m.ramWrites + 1 }
  mirrorWrite env a value
  modifyMemory fun m => { m with ram := Function.update m.ram a value }
  noteRAMWriteSideEffects env a (m.ram a) value

/-! ### The chips -/

/-- The byte that a register shows: the VIC's collision latches while HDMI is active, the
shadows where they are authoritative, else the chip. -/
def chipValue (a : Addr) : MemoryM ω Byte := do
  let s ← get
  let f := s.memory.fetch
  let reg := a.setWidth 6
  let vicRead := decide (0xD000#16 ≤ a) && decide (a < 0xD400#16)
  if vicRead = true ∧ reg = 0x1E#6 ∧ env.hdmiActive s.outside = true then
    callOutside env.takeSpriteSpriteCollision
  else if vicRead = true ∧ reg = 0x1F#6 ∧ env.hdmiActive s.outside = true then
    callOutside env.takeSpriteBackgroundCollision
  else if a = 0xDD02 ∧ f.haveCIA2DDRA = true then return f.cia2DDRA
  else
    let v ← busRead env a
    if a = 0xD011 then return (v &&& 0x80#8) ||| (f.vicRegShadow 0x11 &&& 0x7F#8)
    else if a = 0xDD00 ∧ f.haveCIA2DDRA = true ∧ f.haveCIA2PortALatch = true then
      return (v &&& ~~~f.cia2DDRA) ||| (f.cia2PortALatch &&& f.cia2DDRA)
    else return v

/-- A read of PRA samples the serial lines; one that changed, or that a drive holds low,
is evidence of a conversation. -/
def sampleSerialLines (v : Byte) : MemoryM ω PUnit := do
  let f := (← getMemory).fetch
  let inputMask := 0xC0#8 &&& if f.haveCIA2DDRA then ~~~f.cia2DDRA else 0xFF
  let inputChanged := f.haveCIA2PortARead && (f.lastCIA2PortARead ^^^ v) &&& inputMask != 0
  let inputAsserted := v &&& inputMask != inputMask
  modifyMemory fun m => m.mapFetch fun f =>
    { f with lastCIA2PortARead := v, haveCIA2PortARead := true }
  onlyIf (inputChanged || inputAsserted) (modifyTiming Timing.noteIECActivity)

/-- A read of a register that reaches the C64, and what the memory learns from it. -/
def chipRead (a : Addr) : MemoryM ω Byte := do
  modifyMemory fun m => { m with ioReads := m.ioReads + 1 }
  modifyTiming fun t => t.noteBusAccess a false
  let v ← chipValue env a
  onlyIf (a = 0xDD00 ∨ a = 0xDD02) (modifyTiming Timing.notePollHold)
  onlyIf (a = 0xDD00) (sampleSerialLines v)
  onlyIf (a = 0xDD0D) (modifyTiming Timing.acknowledgeICR)
  return v

def ioRead (a : Addr) : MemoryM ω Byte :=
  match env.io with
  | none => chipRead env a
  | some io => do
      match ← (fun s => io.ioRead s a : MemoryM ω (Option Byte)) with
      | some v =>
          let s ← get
          onlyIf (io.ioAccessNeedsStretch s a false) (modifyTiming fun t => t.noteBusAccess a false)
          return v
      | none => chipRead env a

/-- What the memory derives from a write that reaches a chip. -/
def trackChipWrite (a : Addr) (value : Byte) : MemoryM ω PUnit := do
  let m ← getMemory
  let iecChanged := m.cia2IECChanged a value
  if a = 0xDD00 then
    modifyMemory fun m =>
      (m.mapFetch fun f =>
        { f with cia2PortALatch := value, haveCIA2PortALatch := true }).refreshFetch.logVICBank
    onlyIf iecChanged (modifyTiming Timing.noteIECActivity)
  else if 0xD000#16 ≤ a ∧ a < 0xD200#16 ∧ a.setWidth 6 = 0x18#6 then
    modifyMemory fun m => (m.mapFetch fun f => { f with lastD018 := value }).refreshFetch
  else if a = 0xDD02 then
    modifyMemory fun m =>
      (m.mapFetch fun f =>
        { f with cia2DDRA := value, haveCIA2DDRA := true }).refreshFetch.logVICBank
    onlyIf iecChanged (modifyTiming Timing.noteIECActivity)
  else onlyIf (0xDD04#16 ≤ a ∧ a ≤ 0xDD0F#16) (modifyTiming fun t => t.cia2TimerWrite a value)

/-- The shadow of a VIC register, and the log. -/
def trackVICWrite (perLine : BitVec 32) (vicReg : BitVec 6) (value : Byte) (m : CC64Memory) :
    CC64Memory :=
  let d011 := m.fetch.vicRegShadow 0x11
  let m := m.mapCapture fun c => c.noteCompare m.stamp perLine vicReg value d011
  let m := m.mapFetch fun f =>
    { f with vicRegShadow := Function.update f.vicRegShadow vicReg value }
  let m :=
    if vicReg = 0x11 ∨ vicReg = 0x12 then
      m.mapCapture fun c =>
        { c with
          rasterCompare := (m.fetch.vicRegShadow 0x12).setWidth 16 |||
            if m.fetch.vicRegShadow 0x11 &&& 0x80#8 ≠ 0 then 0x100 else 0 }
    else m
  let m := m.appendVICLog (vicReg.setWidth 16) value
  if vicReg = 0x15 then m.mapFetch fun f => f.updateHotShapeBlocks m.ram else m

def cyclesPerLine (outside : ω) : BitVec 32 :=
  match env.bus with
  | some bus => bus.cyclesPerLine outside
  | none => 63

def usesWriteBuffer (s : Machine ω) (a : Addr) : Bool :=
  match env.io with
  | some io => io.ioAccessUsesWriteBuffer s a true
  | none => false

/-- A write of a register that reaches the C64. -/
def chipWrite (a : Addr) (value : Byte) : MemoryM ω PUnit := do
  trackChipWrite a value
  modifyMemory fun m => { m with ioWrites := m.ioWrites + 1 }
  let s ← get
  onlyIf (0xD000#16 ≤ a ∧ a < 0xD200#16)
    (modifyMemory (trackVICWrite (cyclesPerLine env s.outside) (a.setWidth 6) value))
  let s ← get
  modifyTiming fun t =>
    if usesWriteBuffer env s a then t.noteMirrorWrite else t.noteBusAccess a true
  busWrite env a value

def ioWrite (a : Addr) (value : Byte) : MemoryM ω PUnit :=
  match env.io with
  | none => chipWrite env a value
  | some io => do
      if ← (fun s => io.ioWrite s a value : MemoryM ω Bool) then
        let s ← get
        modifyTiming fun t =>
          if io.ioAccessUsesWriteBuffer s a true then t.noteMirrorWrite
          else if io.ioAccessNeedsStretch s a true then t.noteBusAccess a true
          else t
        onlyIf (a = 0xD07A ∨ a = 0xD07B) (modifyTiming Timing.endPollHold)
      else chipWrite env a value

/-! ### The general path -/

def bankConfig (m : CC64Memory) (outside : ω) : C64BankConfig :=
  match env.bus with
  | some bus =>
      ⟨c64PortEffective m.port00 m.port01, !bus.gameAsserted outside, !bus.exromAsserted outside⟩
  | none => ⟨c64PortEffective m.port00 m.port01, true, true⟩

def updateBankMode : MemoryM ω PUnit := modify fun s =>
  { s with memory := { s.memory with bankMode := c64BankMode (bankConfig env s.memory s.outside) } }

def read8 (a : Addr) : MemoryM ω Byte := do
  let s ← get
  let m := s.memory
  if a ≤ 1 then return if a = 0 then m.port00 else c64PortRead m.port00 m.port01
  else if dosExtensionMapsBank1 env s a then return m.shadowByte a
  else if m.scpu128Mode && isHostDecoded a then
    modifyMemory fun m => { m with ioReads := m.ioReads + 1 }
    modifyTiming fun t => t.noteBusAccess a false
    busRead env a
  else if m.bootmapExtensionMaps a then
    modifyTiming fun t => t.noteFastHalfCycles 6
    return m.bootmapROM (0x10000#32 + a.setWidth 32)
  else if m.bootmapMaps a then
    modifyTiming fun t => t.noteFastHalfCycles 6
    return m.bootmapROM (a.setWidth 32)
  else
    match c64MapRead a m.bankMode with
    | .ram => return m.ram a
    | .basic => return if m.romShadow.isSome then m.shadowByte a else m.basic (a - 0xA000)
    | .kernal =>
        return if m.romShadow.isSome then m.shadowByte (m.kernalShadowBase + (a - 0xE000))
        else m.kernal (a - 0xE000)
    | .charROM =>
        modifyTiming fun t => t.noteBusAccess a false
        return m.charROM (a - 0xD000)
    | .io => ioRead env a
    | .cartROML => return (a >>> 8).setWidth 8
    | .cartROMH => return (a >>> 8).setWidth 8
    | .openBus => return (a >>> 8).setWidth 8

/-- The port registers; their shadow in DRAM is mirrored. -/
def writePort (a : Addr) (value : Byte) : MemoryM ω PUnit := do
  modifyMemory fun m => if a = 0 then { m with port00 := value } else { m with port01 := value }
  updateBankMode env
  mirrorWrite env a value
  modifyMemory fun m => { m with ram := Function.update m.ram a value }

def write8 (a : Addr) (value : Byte) : MemoryM ω PUnit := do
  let s ← get
  let m := s.memory
  if a ≤ 1 then writePort env a value
  else if dosExtensionMapsBank1 env s a then writeShadow a value
  else if m.scpu128Mode && isHostDecoded a then
    modifyMemory fun m => { m with ioWrites := m.ioWrites + 1 }
    modifyTiming fun t => t.noteBusAccess a true
    busWrite env a value
  else if c64WriteIsIO a m.bankMode then ioWrite env a value
  else storeRAM env a value

/-! ### The inlined path -/

def readFast (a : Addr) : MemoryM ω Byte := do
  let s ← get
  let m := s.memory
  if dosExtensionMapsBank1 env s a then return m.shadowByte a
  else if 1 < a ∧ m.bootmapActive = false ∧ c64MapRead a m.bankMode = .ram then return m.ram a
  else read8 env a

def writeFast (a : Addr) (value : Byte) : MemoryM ω PUnit := do
  let s ← get
  if dosExtensionMapsBank1 env s a then writeShadow a value
  else if 1 < a ∧ c64MapRead a s.memory.bankMode ≠ .io then storeRAM env a value
  else write8 env a value

/-! ### Time -/

def sampleLines : MemoryM ω PUnit :=
  match env.bus with
  | none => pure ⟨⟩
  | some bus => do
      let (irq, nmi) ← callOutside bus.sampleInterrupts
      modifyTiming fun t => t.latchInterrupts irq nmi

def refreshInterruptsIfDue : MemoryM ω PUnit := do
  modifyTiming Timing.checkDeadline
  let m ← getMemory
  onlyIf m.timing.samplingDue (sampleLines env)

def irqFast : MemoryM ω Bool := do
  refreshInterruptsIfDue env
  return (← getMemory).timing.cachedIRQ

def nmiFast : MemoryM ω Bool := do
  refreshInterruptsIfDue env
  return (← getMemory).timing.cachedNMI

def sampleIRQNMIFast : MemoryM ω (Bool × Bool) := do
  refreshInterruptsIfDue env
  let t := (← getMemory).timing
  return (t.cachedIRQ, t.cachedNMI)

/-- The write that keeps the physical bus warm. The answer is the time after it. -/
def keepBusWarm (bus : C64Bus ω) (now : BitVec 64) : MemoryM ω (BitVec 64) := do
  let t := (← getMemory).timing
  let realIEC := decide (t.iecHoldCycles ≠ 0) || decide (t.iecActivityCycles ≠ 0)
  if t.busKeepalive = true ∧ realIEC = false ∧
      (t.nextKeepalive = 0 ∨ 0 ≤ (now - t.nextKeepalive).toInt) then
    callOutside fun o => (⟨⟩, bus.write o 0x02FE 0xA6)
    let now ← callOutside bus.hostCycles
    let s ← get
    let hostRate := bus.hostCyclesPerSec s.outside
    modifyTiming fun t =>
      { t with nextKeepalive := now + if hostRate ≠ 0 then hostRate * 90 / 1000000 else 1 }
    return now
  else return now

/-- Wait until what the emulated cycles owe has passed in real time. -/
def waitFor (bus : C64Bus ω) (now anchor owed : BitVec 64) : MemoryM ω (BitVec 64) :=
  if owed ≤ now - anchor then pure now else callOutside fun o => bus.hostCyclesPast o anchor owed

/-- Hold the emulated clock to real time. -/
def tickSettle (bus : C64Bus ω) (iecActive : Bool) : MemoryM ω PUnit := do
  let now ← callOutside bus.hostCycles
  let now ← keepBusWarm bus now
  let t := (← getMemory).timing
  let rate := if iecActive then t.hostPerEmuQ16Slow else t.hostPerEmuQ16
  let owed := (t.pacingDebtCycles * rate) >>> 16
  let now ← waitFor bus now t.pacingAnchor owed
  modifyTiming fun t => { t with pacingAnchor := now, pacingDebtCycles := 0 }

/-- Pay for cycles in real time, where that is worth looking at the clock. -/
def settleDebt (spent : ℕ) (iecActive : Bool) : MemoryM ω PUnit :=
  match env.bus with
  | none => pure ⟨⟩
  | some bus => do
      let t := (← getMemory).timing
      let debt := t.pacingDebtCycles + BitVec.ofNat 64 spent
      if t.hostPerEmuQ16 = 0 then pure ⟨⟩
      else
        modifyTiming fun t => { t with pacingDebtCycles := debt }
        onlyIf (¬(iecActive = false ∧ debt < BitVec.ofNat 64 t.pacingCheckCycles))
          (tickSettle bus iecActive)

def tickFast (nCycles : ℕ) : MemoryM ω PUnit := do
  let t := (← getMemory).timing
  modifyTiming fun t => t.tickFast nCycles
  settleDebt env (t.tickCycles nCycles) (t.tickBegin nCycles).iecActive

def resyncPacing : MemoryM ω PUnit :=
  match env.bus with
  | none => modifyTiming fun t => { t with pacingDebtCycles := 0, pacingAnchor := 0 }
  | some bus => do
      modifyTiming fun t => { t with pacingDebtCycles := 0 }
      let now ← callOutside bus.hostCycles
      modifyTiming fun t => { t with pacingAnchor := now }

def setPacing (hostCyclesPerSecond : BitVec 64) (emulatedHz : ℕ) : MemoryM ω PUnit := do
  modifyTiming fun t => t.selectSpeed emulatedHz
  if hostCyclesPerSecond = 0 ∨ emulatedHz = 0 then
    modifyTiming fun t => { t with hostPerEmuQ16 := 0 }
  else
    modifyTiming fun t =>
      { t with
        hostPerEmuQ16 := (hostCyclesPerSecond <<< 16) / BitVec.ofNat 64 emulatedHz
        hostPerEmuQ16Slow := (hostCyclesPerSecond <<< 16) / 1000000 }
    resyncPacing env

/-! ### Reset and initialisation -/

def reset : MemoryM ω PUnit := do
  modifyMemory fun m =>
    { m with
      port00 := 0x2F
      port01 := 0x37
      ioReads := 0
      ioWrites := 0
      ramWrites := 0
      fetch := m.fetch.reset m.ram
      timing := m.timing.reset }
  callOutside fun o => (⟨⟩, env.clearCollisions o)
  resyncPacing env
  modifyMemory fun m => { m with ram := fun _ => 0 }
  updateBankMode env
  modifyMemory fun m => m.mapCapture RasterCapture.reset

def initializeC64CIA2 : MemoryM ω Bool :=
  match env.bus with
  | none => pure false
  | some bus => do
      busWrite env 0xDD02 0x3F
      busWrite env 0xDD02 0x3F
      let verified ← callOutside fun o => bus.verifyC64CIA2DDRA o 0x3F
      onlyIf verified (modifyMemory fun m =>
        (m.mapFetch fun f => { f with cia2DDRA := 0x3F, haveCIA2DDRA := true }).refreshFetch)
      return verified

def setRAMUnderIOAccessible (accessible : Bool) : MemoryM ω PUnit :=
  modifyMemory fun m => m.mapFetch fun f => f.setRAMUnderIOAccessible m.ram accessible

end Programs

end ScpuEmu
