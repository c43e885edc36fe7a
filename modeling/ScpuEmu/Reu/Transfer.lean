import ScpuEmu.Types
import Mathlib.Data.List.Basic

/-!
# The RAM expansion unit

The register file of the REU and its block transfers. The unit moves bytes between
its own RAM and a host that owns the C64's memory. A host may come back to the
registers of the unit while a transfer is running, so its operations act on the whole
machine. The machine also records, for the properties below, the expansion cells that
transfers touch and the number of transfers started.
-/

namespace ScpuEmu

/-- `REUSIZE_*`. A selector that names no size fits no unit. -/
def reuSizeFromSelector (selector : Byte) : BitVec 32 :=
  if selector = 2 then 0x20000
  else if selector = 3 then 0x40000
  else if selector = 4 then 0x80000
  else if selector = 5 then 0x200000
  else if selector = 6 then 0x400000
  else if selector = 7 then 0x1000000
  else 0

/-- `CREU`. -/
structure CREU where
  ram : BitVec 32 → Byte
  size : BitVec 32
  addressMask : BitVec 32
  c64Base : Addr
  reuBase : BitVec 32
  length : BitVec 16
  command : Byte
  irqMask : Byte
  addressControl : Byte
  c64Shadow : Addr
  reuShadow : BitVec 32
  lengthShadow : BitVec 16
  irqPending : Bool
  endOfBlock : Bool
  fault : Bool
  pendingFF00 : Bool
  transfers : ℕ
  bytesMoved : ℕ
  verifyFaults : ℕ
  lastTransferCycles : ℕ

namespace CREU

/-- The constructor: no unit is fitted. -/
def construct : CREU where
  ram _ := 0
  size := 0
  addressMask := 0
  c64Base := 0
  reuBase := 0
  length := 0
  command := 0
  irqMask := 0
  addressControl := 0
  c64Shadow := 0
  reuShadow := 0
  lengthShadow := 0
  irqPending := false
  endOfBlock := false
  fault := false
  pendingFF00 := false
  transfers := 0
  bytesMoved := 0
  verifyFaults := 0
  lastTransferCycles := 0

variable (u : CREU)

def reset : CREU :=
  { u with
    c64Base := 0, reuBase := 0, length := 0, command := 0, irqMask := 0, addressControl := 0
    c64Shadow := 0, reuShadow := 0, lengthShadow := 0
    irqPending := false, endOfBlock := false, fault := false, pendingFF00 := false
    lastTransferCycles := 0 }

/-- The allocation of the expansion RAM succeeds. -/
def init (selector : Byte) : CREU :=
  if reuSizeFromSelector selector = 0 then reset { u with size := 0, addressMask := 0 }
  else
    reset
      { u with
        ram := fun _ => 0
        size := reuSizeFromSelector selector
        addressMask := reuSizeFromSelector selector - 1 }

def claims (addr : Addr) : Bool :=
  decide (0xDF00#16 ≤ addr) && decide (addr ≤ 0xDF0A#16) && decide (u.size ≠ 0)

def status : Byte :=
  (if u.irqPending then 0x80#8 else 0) ||| (if u.endOfBlock then 0x40 else 0) |||
    (if u.fault then 0x20 else 0) ||| (if 0x80000#32 ≤ u.size then 0x10 else 0)

/-- Reading the status acknowledges it. -/
def acknowledge : CREU := { u with irqPending := false, endOfBlock := false, fault := false }

def read (addr : Addr) : Option (Byte × CREU) :=
  if u.claims addr = false then none
  else if addr = 0xDF00 then some (u.status, u.acknowledge)
  else if addr = 0xDF01 then some (u.command ||| 0x4C#8, u)
  else if addr = 0xDF02 then some (u.c64Base.setWidth 8, u)
  else if addr = 0xDF03 then some ((u.c64Base >>> 8).setWidth 8, u)
  else if addr = 0xDF04 then some (u.reuBase.setWidth 8, u)
  else if addr = 0xDF05 then some ((u.reuBase >>> 8).setWidth 8, u)
  else if addr = 0xDF06 then some (((u.reuBase >>> 16) &&& 0x07#32).setWidth 8 ||| 0xF8#8, u)
  else if addr = 0xDF07 then some (u.length.setWidth 8, u)
  else if addr = 0xDF08 then some ((u.length >>> 8).setWidth 8, u)
  else if addr = 0xDF09 then some (u.irqMask ||| 0x1F#8, u)
  else some (u.addressControl ||| 0x3F#8, u)

def setC64Base (base : Addr) : CREU := { u with c64Base := base, c64Shadow := base }

def setREUBase (base : BitVec 32) : CREU := { u with reuBase := base, reuShadow := base }

def setLength (length : BitVec 16) : CREU := { u with length := length, lengthShadow := length }

/-- The registers that hold no command. -/
def writeRegister (addr : Addr) (value : Byte) : CREU :=
  if addr = 0xDF02 then u.setC64Base ((u.c64Base &&& 0xFF00#16) ||| value.setWidth 16)
  else if addr = 0xDF03 then u.setC64Base ((u.c64Base &&& 0x00FF#16) ||| value.setWidth 16 <<< 8)
  else if addr = 0xDF04 then u.setREUBase ((u.reuBase &&& 0xFFFF00#32) ||| value.setWidth 32)
  else if addr = 0xDF05 then u.setREUBase ((u.reuBase &&& 0xFF00FF#32) ||| value.setWidth 32 <<< 8)
  else if addr = 0xDF06 then
    u.setREUBase ((u.reuBase &&& 0x00FFFF#32) ||| (value.setWidth 32 &&& 0x07#32) <<< 16)
  else if addr = 0xDF07 then u.setLength ((u.length &&& 0xFF00#16) ||| value.setWidth 16)
  else if addr = 0xDF08 then u.setLength ((u.length &&& 0x00FF#16) ||| value.setWidth 16 <<< 8)
  else if addr = 0xDF09 then { u with irqMask := value }
  else if addr = 0xDF0A then { u with addressControl := value }
  else u

def executes (command : Byte) : Bool := command &&& 0x80#8 != 0

def immediate (command : Byte) : Bool := command &&& 0x10#8 != 0

def autoload : Bool := u.command &&& 0x20#8 != 0

/-- `m_Length`, where zero stands for the full 64K. -/
def count : ℕ := if u.length = 0 then 0x10000 else u.length.toNat

def fixC64 : Bool := u.addressControl &&& 0x80#8 != 0

def fixREU : Bool := u.addressControl &&& 0x40#8 != 0

def finishTransfer (fault : Bool) : CREU :=
  let raised := u.irqMask &&& 0x80#8 != 0 &&
    (!fault && u.irqMask &&& 0x40#8 != 0 || fault && u.irqMask &&& 0x20#8 != 0)
  { u with
    endOfBlock := !fault
    fault := fault
    irqPending := u.irqPending || raised
    command := u.command &&& ~~~0x80#8 }

def poke (offset : BitVec 32) (value : Byte) : CREU :=
  { u with ram := fun i => if i = offset then value else u.ram i }

end CREU

/-- The type of a transfer, by the low bits of the command. -/
inductive Transfer
  | stash
  | fetch
  | swap
  | verify
  deriving DecidableEq, Repr

def Transfer.ofCommand (command : Byte) : Transfer :=
  if command &&& 0x03#8 = 0 then .stash
  else if command &&& 0x03#8 = 1 then .fetch
  else if command &&& 0x03#8 = 2 then .swap
  else .verify

/-- The unit and the rest of the machine, with what transfers did so far: the expansion
cells they touched and how many were started. -/
structure REUMachine (ω : Type) where
  unit : CREU
  host : ω
  touched : List (BitVec 32)
  started : ℕ

/-- `IREUHost`. -/
structure IREUHost (ω : Type) where
  read : REUMachine ω → Addr → Byte × REUMachine ω
  write : REUMachine ω → Addr → Byte → REUMachine ω

/-- The variables of the transfer loop. `remaining` is the count after the decrement of
the loop condition. -/
structure TransferCursor where
  c64 : Addr
  reu : BitVec 32
  fault : Bool
  moved : ℕ
  remaining : ℕ

def TransferCursor.advance (c : TransferCursor) (fixC64 fixREU : Bool) : TransferCursor :=
  { c with
    c64 := if fixC64 then c.c64 else c.c64 + 1
    reu := if fixREU then c.reu else c.reu + 1 }

namespace REUMachine

variable {ω : Type} (host : IREUHost ω)

def mapUnit (m : REUMachine ω) (f : CREU → CREU) : REUMachine ω := { m with unit := f m.unit }

/-- Move or compare one byte; the answer tells a mismatch. -/
def transferByte (type : Transfer) (c64 : Addr) (reu : BitVec 32) (m : REUMachine ω) :
    Bool × REUMachine ω :=
  let offset := reu &&& m.unit.addressMask
  let m := { m with touched := m.touched ++ [offset] }
  match type with
  | .stash =>
      let (value, m) := host.read m c64
      (false, m.mapUnit fun u => u.poke offset value)
  | .fetch => (false, host.write m c64 (m.unit.ram offset))
  | .swap =>
      let (fromC64, m) := host.read m c64
      let m := host.write m c64 (m.unit.ram offset)
      (false, m.mapUnit fun u => u.poke offset fromC64)
  | .verify =>
      let (value, m) := host.read m c64
      (value != m.unit.ram offset, m)

def transferLoop (type : Transfer) (fixC64 fixREU : Bool) :
    ℕ → TransferCursor → REUMachine ω → TransferCursor × REUMachine ω
  | 0, c, m => (c, m)
  | remaining + 1, c, m =>
      let (fault, m) := transferByte host type c.c64 c.reu m
      let c := { c with moved := c.moved + 1, remaining := remaining }
      if fault then ({ c with fault := true }, m)
      else transferLoop type fixC64 fixREU remaining (c.advance fixC64 fixREU) m

/-- What the end of a transfer leaves in the registers. -/
def settle (c : TransferCursor) (u : CREU) : CREU :=
  let u := { u with bytesMoved := u.bytesMoved + c.moved, lastTransferCycles := c.moved }
  let u :=
    if u.autoload then
      { u with c64Base := u.c64Shadow, reuBase := u.reuShadow, length := u.lengthShadow }
    else
      { u with
        c64Base := c.c64
        reuBase := c.reu &&& 0x07FFFFF#32
        length := if c.fault then BitVec.ofNat 16 (c.remaining + 1) else 1 }
  CREU.finishTransfer
    { u with
      verifyFaults := u.verifyFaults + c.fault.toNat
      transfers := u.transfers + 1 }
    c.fault

def executeTransfer (m : REUMachine ω) : REUMachine ω :=
  let m := { m with started := m.started + 1, unit := { m.unit with pendingFF00 := false } }
  if m.unit.size = 0 then m.mapUnit fun u => u.finishTransfer false
  else
    let u := m.unit
    let (c, m) := transferLoop host (.ofCommand u.command) u.fixC64 u.fixREU u.count
      ⟨u.c64Base, u.reuBase, false, 0, u.count⟩ m
    m.mapUnit (settle c)

/-- `CREU::write`; `none` where the address is not one of the unit's. -/
def write (m : REUMachine ω) (addr : Addr) (value : Byte) : Option (REUMachine ω) :=
  if m.unit.claims addr = false then none
  else if addr = 0xDF01 then
    let m := m.mapUnit fun u => { u with command := value }
    if CREU.executes value then
      if CREU.immediate value then some (executeTransfer host m)
      else some (m.mapUnit fun u => { u with pendingFF00 := true })
    else some m
  else some (m.mapUnit fun u => u.writeRegister addr value)

def noteFF00Write (m : REUMachine ω) : REUMachine ω :=
  if m.unit.size = 0 ∨ m.unit.pendingFF00 = false then m
  else executeTransfer host (m.mapUnit fun u => { u with pendingFF00 := false })

end REUMachine

end ScpuEmu
