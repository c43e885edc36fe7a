import ScpuEmu.Bus.Rad.Calibration
import ScpuEmu.Bus.Rad.SidModel
import ScpuEmu.Library.StateProgram
import ScpuEmu.SuperCpu.Frame

/-!
# The bus of the RAD

`CRADBus` reaches the C64 through the expansion port, one cycle after another. What the
machine behind the port answers is a parameter; which cycles the bus makes is the model, and
it keeps them on record.
-/

namespace ScpuEmu

open Library

/-! ### The port -/

/-- When a read takes the data: so many cycles of the ARM after the edge, or last before it
falls. -/
inductive SamplePoint
  | after (cycles : BitVec 16)
  | fallingEdge
  deriving DecidableEq

/-- When a write enables its address and its data. -/
structure WritePoints where
  addrLatch : BitVec 16
  data : BitVec 16
  deriving DecidableEq

/-- A cycle of the port. A write after a read waits for some idle ones first, and an access to
I/O selects it if the machine shows RAM there. -/
inductive PortCycle
  | read (addr : Addr) (sample : SamplePoint) (ioSelected : Bool)
  | write (addr : Addr) (value : Byte) (points : WritePoints) (idle : ℕ) (ioSelected : Bool)
  | beginBurst (idle : ℕ)
  | burst (addr : Addr) (value : Byte) (points : WritePoints)
  | endBurst
  deriving DecidableEq

/-- The machine behind the port and the clock of the ARM. A cycle leaves something on the data
lines, which a read takes; `observeRaster` is what the refresh of a C128 makes of a line. -/
structure RadPort (σ : Type) where
  perform : PortCycle → σ → Byte × σ
  levels : σ → (Bool × Bool) × σ
  hostCycles : σ → BitVec 64 × σ
  hostCyclesPast : σ → BitVec 64 → BitVec 64 → BitVec 64 × σ
  observeRaster : BitVec 16 → σ → σ

/-- The part of `BUSTIMING` that calibration changes. -/
structure BusTiming where
  waitCycleRead : BitVec 16
  waitCycleRead2 : BitVec 16
  waitCycleReadSID : BitVec 16
  timingEnableRWOutAddrLatchWriting : BitVec 16
  timingEnableDataWriting : BitVec 16
  deriving DecidableEq

/-- `C64Signals`. -/
structure C64Signals where
  machine : C64MachineType
  video : C64VideoStandard
  gameAsserted : Bool
  exromAsserted : Bool

/-- `CRADBus` with the statics of its module. The counters that only the log shows are left
out of it. -/
structure CRADBus (σ : Type) where
  port : σ
  log : List PortCycle
  busTiming : BusTiming
  busWriteTurnaroundNeeded : Bool
  busWriteTurnaroundPasses : ℕ
  radSelectIOWithGame : Bool
  c128EpochEnabled : Bool
  sidReadAtFallingEdge : Bool
  signals : C64Signals
  trafficHalted : Bool
  reads : ℕ
  writes : ℕ
  burstWrites : ℕ
  transfers : ℕ
  serialTransfers : ℕ
  readPrimes : ℕ
  lastTransferCycles : BitVec 64
  sidPhysicalReliable : Bool
  sidModel : SIDModel
  sidPotFiltered : Bool → Byte
  readTiming : ReadTiming

abbrev RadM (σ : Type) := StateM (CRADBus σ)

/-- The idle time that makes the next transfer unreliable: 150 microseconds. -/
def idleCycles : BitVec 64 := BitVec.ofNat 64 (armClockHz * 150 / 1000000)

namespace CRADBus

variable {σ : Type} (p : RadPort σ)

/-- A PAL C64 after acquisition. -/
def acquired (port : σ) : CRADBus σ where
  port := port
  log := []
  busTiming := ⟨475, 495, 475, 0, 0⟩
  busWriteTurnaroundNeeded := false
  busWriteTurnaroundPasses := 1
  radSelectIOWithGame := false
  c128EpochEnabled := false
  sidReadAtFallingEdge := false
  signals := ⟨.c64, .pal, false, false⟩
  trafficHalted := false
  reads := 0
  writes := 0
  burstWrites := 0
  transfers := 0
  serialTransfers := 0
  readPrimes := 0
  lastTransferCycles := 0
  sidPhysicalReliable := true
  sidModel := SIDModel.construct
  sidPotFiltered _ := 0
  readTiming := ⟨475, 0, 0, 475, []⟩

/-! ### Cycles -/

/-- A cycle, on record. -/
def cycle (c : PortCycle) : RadM σ Byte := do
  let s ← get
  let (v, port) := p.perform c s.port
  set { s with port := port, log := s.log ++ [c] }
  return v

def samplePoint (s : CRADBus σ) (addr : Addr) : SamplePoint :=
  if addr &&& 0xFC00 = 0xD400 then
    if s.sidReadAtFallingEdge then .fallingEdge else .after s.busTiming.waitCycleReadSID
  else .after s.busTiming.waitCycleRead

def writePoints (s : CRADBus σ) : WritePoints :=
  ⟨s.busTiming.timingEnableRWOutAddrLatchWriting, s.busTiming.timingEnableDataWriting⟩

def ioSelected (s : CRADBus σ) (addr : Addr) (forceRAM : Bool) : Bool :=
  s.radSelectIOWithGame && !forceRAM && decide (0xD000 ≤ addr) && decide (addr ≤ 0xDFFF)

/-- The idle passes of the turnaround from a read to a write. -/
def idlePasses (s : CRADBus σ) : ℕ :=
  if s.busWriteTurnaroundNeeded then s.busWriteTurnaroundPasses else 0

def radDirectRead (addr : Addr) (forceRAM : Bool) : RadM σ Byte := do
  let s ← get
  let v ← cycle p (.read addr (s.samplePoint addr) (s.ioSelected addr forceRAM))
  modify fun s => { s with busWriteTurnaroundNeeded := true }
  return v

def radDirectWrite (addr : Addr) (value : Byte) (forceRAM : Bool) : RadM σ PUnit := do
  let s ← get
  let _ ← cycle p (.write addr value s.writePoints s.idlePasses (s.ioSelected addr forceRAM))
  modify fun s => { s with busWriteTurnaroundNeeded := false }

/-- `RAD_SPEEK`. -/
def speek (addr : Addr) : RadM σ Byte := radDirectRead p addr false

/-- `RAD_SPOKE`. -/
def spoke (addr : Addr) (value : Byte) : RadM σ PUnit := radDirectWrite p addr value false

def hostCycles : RadM σ (BitVec 64) := do
  let s ← get
  let (now, port) := p.hostCycles s.port
  set { s with port := port }
  return now

/-- So many transfers. -/
def countTransfers (n : ℕ) : RadM σ PUnit :=
  modify fun s => { s with transfers := s.transfers + n }

def countReads (n : ℕ) : RadM σ PUnit := modify fun s => { s with reads := s.reads + n }

def countWrites (n : ℕ) : RadM σ PUnit := modify fun s => { s with writes := s.writes + n }

/-- A prime, and the transfer that it is. -/
def countPrime : RadM σ PUnit :=
  modify fun s => { s with transfers := s.transfers + 1, readPrimes := s.readPrimes + 1 }

/-- The registers of the serial bus. -/
def countSerial (addr : Addr) : RadM σ PUnit :=
  onlyIf (addr = 0xDD00 ∨ addr = 0xDD02)
    (modify fun s => { s with serialTransfers := s.serialTransfers + 1 })

def noteTransfer : RadM σ PUnit := do
  let now ← hostCycles p
  modify fun s => { s with lastTransferCycles := now }

/-! ### Accesses -/

def primeAfterIdle : RadM σ PUnit := do
  let now ← hostCycles p
  let s ← get
  onlyIf (idleCycles ≤ now - s.lastTransferCycles) do
    let _ ← speek p 0x02FE
    countPrime
  modify fun s => { s with lastTransferCycles := now }

/-- The prime of a write, of the same direction. -/
def primeWrite (forceRAM : Bool) : RadM σ PUnit := do
  let now ← hostCycles p
  let s ← get
  onlyIf (idleCycles ≤ now - s.lastTransferCycles) do
    radDirectWrite p 0x02FE 0xA6 forceRAM
    countPrime

def onSIDModel {α : Type} (op : BitVec 64 → C64VideoStandard → SIDModel → α × SIDModel) :
    RadM σ α := do
  let now ← hostCycles p
  let s ← get
  let (a, model) := op now s.signals.video s.sidModel
  set { s with sidModel := model }
  return a

/-- `sidObserveWrite`. -/
def sidObserveWrite (addr : Addr) (value : Byte) : RadM σ PUnit :=
  onlyIf (addr = 0xD40E ∨ addr = 0xD40F ∨ addr = 0xD412)
    (onSIDModel p fun now video model => (⟨⟩, model.observeWrite now video addr value))

/-- `sidReadOSC3Model`. -/
def sidReadOSC3Model : RadM σ Byte := onSIDModel p SIDModel.readOSC3

/-- `sidReadPOTFiltered`. The two paddles are told apart by the last bit of the address. -/
def sidReadPOTFiltered (addr : Addr) : RadM σ Byte := do
  let values ← collect (speek p) (List.replicate 17 addr)
  countReads 16
  let pot := decide (addr = 0xD41A)
  let s ← get
  let filtered := potFiltered (s.sidPotFiltered pot) values
  set { s with sidPotFiltered := Function.update s.sidPotFiltered pot filtered }
  return filtered

/-- The register is read once: reading may clear it. -/
def readRegister (addr : Addr) : RadM σ Byte := do
  primeAfterIdle p
  let v ← speek p addr
  countTransfers 1
  countSerial addr
  return v

/-- Where the bus cannot sample the SID, what it would read there is made up. -/
def readValue (addr : Addr) : RadM σ Byte := do
  let s ← get
  if !s.sidPhysicalReliable && decide (addr = 0xD41B) then sidReadOSC3Model p
  else if !s.sidPhysicalReliable && (decide (addr = 0xD419) || decide (addr = 0xD41A)) then
    sidReadPOTFiltered p addr
  else readRegister p addr

def read (addr : Addr) : RadM σ Byte := do
  let s ← get
  if s.trafficHalted then return 0xFF
  let v ← readValue p addr
  countReads 1
  return v

def readRAM (addr : Addr) : RadM σ Byte := do
  let s ← get
  if s.trafficHalted then return 0xFF
  primeAfterIdle p
  let v ← radDirectRead p addr true
  noteTransfer p
  countTransfers 1
  countReads 1
  return v

def writeRAM (addr : Addr) (value : Byte) : RadM σ PUnit := do
  let s ← get
  if s.trafficHalted then return
  primeWrite p true
  radDirectWrite p addr value true
  noteTransfer p
  countTransfers 1
  countWrites 1

def write (addr : Addr) (value : Byte) : RadM σ PUnit := do
  let s ← get
  if s.trafficHalted then return
  sidObserveWrite p addr value
  primeWrite p false
  spoke p addr value
  noteTransfer p
  countTransfers 1
  countSerial addr
  countWrites 1

/-- `RAD_BURST_POKE`. -/
def burstPoke (w : C64BusWrite) : RadM σ PUnit := do
  let s ← get
  let _ ← cycle p (.burst w.addr w.value s.writePoints)

def busBeginBurstWrites : RadM σ PUnit := do
  let s ← get
  let _ ← cycle p (.beginBurst s.idlePasses)
  modify fun s => { s with busWriteTurnaroundNeeded := false }

def busEndBurstWrites : RadM σ PUnit := do
  let _ ← cycle p .endBurst

/-- A burst whose first byte is written twice if a read came before. -/
def burstRun (w : C64BusWrite) (ws : List C64BusWrite) : RadM σ PUnit := do
  let s ← get
  busBeginBurstWrites p
  burstPoke p w
  onlyIf (s.busWriteTurnaroundNeeded = true) (burstPoke p w)
  let _ ← collect (burstPoke p) ws
  busEndBurstWrites p

def countBurst (n : ℕ) : RadM σ PUnit := do
  modify fun s => { s with burstWrites := s.burstWrites + n }
  noteTransfer p
  countTransfers n

/-- Where a C128 is refreshed every byte goes by itself. -/
def writeBurst (writes : List C64BusWrite) : RadM σ PUnit := do
  let s ← get
  match writes with
  | [] => pure ⟨⟩
  | w :: ws =>
    if s.trafficHalted then pure ⟨⟩
    else if s.c128EpochEnabled then do
      let _ ← collect (fun w : C64BusWrite => spoke p w.addr w.value) (w :: ws)
      countBurst p (ws.length + 1)
    else do
      burstRun p w ws
      countBurst p (ws.length + 1)

/-- The first byte of a ROM is read twice, and the second value only goes to the log. -/
def rereadROM (addr : Addr) : RadM σ PUnit :=
  onlyIf (addr = 0xE000 ∨ addr = 0xA000) do
    let _ ← speek p addr
    countReads 1

def readBlock (addr : Addr) (length : ℕ) : RadM σ (List Byte) := do
  let s ← get
  if s.trafficHalted then pure (List.replicate length 0xFF)
  else
    match length with
    | 0 => pure []
    | n + 1 => do
      let v ← speek p addr
      rereadROM p addr
      let vs ← collect (fun i => speek p (addr + BitVec.ofNat 16 (i + 1))) (List.range n)
      countReads (n + 1)
      return v :: vs

def sampleInterrupts : RadM σ (Bool × Bool) := do
  let s ← get
  let (levels, port) := p.levels s.port
  set { s with port := port }
  return levels

/-! ### The raster line -/

/-- One sample of the line between two of its high bit, for at most so many attempts. -/
def rasterAttempts : ℕ → RadM σ (BitVec 16)
  | 0 => pure 0xFFFF
  | n + 1 => do
      let hiBefore ← speek p 0xD011
      let lo ← speek p 0xD012
      let hiAfter ← speek p 0xD011
      countReads 3
      countTransfers 3
      noteTransfer p
      if (hiBefore ^^^ hiAfter) &&& 0x80 ≠ 0 then rasterAttempts n
      else do
        let s ← get
        let line : BitVec 16 :=
          lo.setWidth 16 ||| if hiAfter &&& 0x80 ≠ 0 then 0x100 else 0
        if line.toNat < c64RasterLines s.signals.video then
          onlyIf (s.signals.machine = .c128)
            (modify fun s => { s with port := p.observeRaster line s.port })
          return line
        else rasterAttempts n

def rasterLine : RadM σ (BitVec 16) := do
  let s ← get
  if s.trafficHalted then return 0xFFFF
  primeAfterIdle p
  rasterAttempts p 4

end CRADBus

end ScpuEmu
