import ScpuEmu.Cpu.W65C816.State

/-!
# Effective addresses and stack access

The wrapping rules of the 65C816. A 24-bit address is a bank and an offset; sums
that stay inside a bank are taken on the offset, and sums that may leave it on
the whole address.
-/

namespace ScpuEmu

namespace W65C816

/-- An address in bank 0. -/
def bank0 (offset : BitVec 16) : BitVec 24 := offset.setWidth 24

theorem setWidth_bank0 (offset : BitVec 16) : (bank0 offset).setWidth 16 = offset := by
  rw [bank0, BitVec.setWidth_setWidth_of_le _ (by decide), BitVec.setWidth_eq]

/-- An effective address, whether its mode is confined to bank 0, and whether the
index carried it into another page. -/
structure EA where
  addr : BitVec 24
  bank0 : Bool
  pageCross : Bool

/-- The address of the second byte of a 16-bit operand. -/
def operandNext (ea : EA) : BitVec 24 :=
  if ea.bank0 then bank0 (ea.addr.setWidth 16 + 1) else ea.addr + 1

def crossesPage (base target : BitVec 16) : Bool := (base ^^^ target) &&& 0xFF00 != 0

section Access

variable {σ : Type} (bus : CpuBus σ)

/-! ### The instruction stream -/

def fetch8 : CoreM Regs σ Byte := do
  let r ← getRegs
  let v ← busRead8 bus (r.pbr ++ r.pc)
  modifyRegs fun r => { r with pc := r.pc + 1 }
  return v

def fetch16 : CoreM Regs σ (BitVec 16) := do
  let lo ← fetch8 bus
  let hi ← fetch8 bus
  return hi ++ lo

def fetch24 : CoreM Regs σ (BitVec 24) := do
  let lo ← fetch16 bus
  let hi ← fetch8 bus
  return hi ++ lo

/-! ### Words and pointers -/

def read16Bank0 (addr : BitVec 16) : CoreM Regs σ (BitVec 16) := do
  let lo ← busRead8 bus (bank0 addr)
  let hi ← busRead8 bus (bank0 (addr + 1))
  return hi ++ lo

/-- Where the high byte of a direct-page pointer lies. -/
def dpPointerNext (r : Regs) (ptr : BitVec 16) : BitVec 16 :=
  if r.e && !r.dpUnaligned then (r.d &&& 0xFF00) ||| ((ptr + 1) &&& 0xFF) else ptr + 1

def readDPPointer (ptr : BitVec 24) : CoreM Regs σ (BitVec 16) := do
  let lo ← busRead8 bus (bank0 (ptr.setWidth 16))
  let r ← getRegs
  let hi ← busRead8 bus (bank0 (dpPointerNext r (ptr.setWidth 16)))
  return hi ++ lo

def read16Operand (ea : EA) : CoreM Regs σ (BitVec 16) := do
  let lo ← busRead8 bus ea.addr
  let hi ← busRead8 bus (operandNext ea)
  return hi ++ lo

def write16Operand (ea : EA) (v : BitVec 16) : CoreM Regs σ Unit := do
  busWrite8 bus ea.addr (v.setWidth 8)
  busWrite8 bus (operandNext ea) ((v >>> 8).setWidth 8)

def readOperand (narrow : Bool) (ea : EA) : CoreM Regs σ (BitVec 16) :=
  if narrow then (·.setWidth 16) <$> busRead8 bus ea.addr else read16Operand bus ea

def writeOperand (narrow : Bool) (ea : EA) (v : BitVec 16) : CoreM Regs σ Unit :=
  if narrow then busWrite8 bus ea.addr (v.setWidth 8) else write16Operand bus ea v

def immediate (narrow : Bool) : CoreM Regs σ (BitVec 16) :=
  if narrow then (·.setWidth 16) <$> fetch8 bus else fetch16 bus

def readM (ea : EA) : CoreM Regs σ (BitVec 16) := do
  let r ← getRegs
  readOperand bus r.m8 ea

def writeM (ea : EA) (v : BitVec 16) : CoreM Regs σ Unit := do
  let r ← getRegs
  writeOperand bus r.m8 ea v

def readX (ea : EA) : CoreM Regs σ (BitVec 16) := do
  let r ← getRegs
  readOperand bus r.x8 ea

def writeX (ea : EA) (v : BitVec 16) : CoreM Regs σ Unit := do
  let r ← getRegs
  writeOperand bus r.x8 ea v

def immediateM : CoreM Regs σ (BitVec 16) := do
  let r ← getRegs
  immediate bus r.m8

def immediateX : CoreM Regs σ (BitVec 16) := do
  let r ← getRegs
  immediate bus r.x8

/-- The tail of a read-modify-write: in emulation mode the original byte goes back
first, and in native mode a word goes back high byte first. -/
def rmwWrite (ea : EA) (original v : BitVec 16) : CoreM Regs σ Unit := do
  let r ← getRegs
  if r.e then
    busWrite8 bus ea.addr (original.setWidth 8)
    busWrite8 bus ea.addr (v.setWidth 8)
  else if r.m8 then busWrite8 bus ea.addr (v.setWidth 8)
  else
    busWrite8 bus (operandNext ea) ((v >>> 8).setWidth 8)
    busWrite8 bus ea.addr (v.setWidth 8)

/-! ### The stack -/

/-- `S` after a move of the "old" stack, which stays in page 1 in emulation mode. -/
def moveStack (r : Regs) (s : BitVec 16) : Regs :=
  { r with s := if r.e then 0x0100 ||| (s &&& 0xFF) else s }

def push8 (v : Byte) : CoreM Regs σ Unit := do
  let r ← getRegs
  busWrite8 bus (bank0 r.s) v
  modifyRegs fun r => moveStack r (r.s - 1)

def pull8 : CoreM Regs σ Byte := do
  modifyRegs fun r => moveStack r (r.s + 1)
  let r ← getRegs
  busRead8 bus (bank0 r.s)

def push16 (v : BitVec 16) : CoreM Regs σ Unit := do
  push8 bus ((v >>> 8).setWidth 8)
  push8 bus (v.setWidth 8)

def pull16 : CoreM Regs σ (BitVec 16) := do
  let lo ← pull8 bus
  let hi ← pull8 bus
  return hi ++ lo

def push8New (v : Byte) : CoreM Regs σ Unit := do
  let r ← getRegs
  busWrite8 bus (bank0 r.s) v
  modifyRegs fun r => { r with s := r.s - 1 }

def pull8New : CoreM Regs σ Byte := do
  modifyRegs fun r => { r with s := r.s + 1 }
  let r ← getRegs
  busRead8 bus (bank0 r.s)

def push16New (v : BitVec 16) : CoreM Regs σ Unit := do
  push8New bus ((v >>> 8).setWidth 8)
  push8New bus (v.setWidth 8)

def pull16New : CoreM Regs σ (BitVec 16) := do
  let lo ← pull8New bus
  let hi ← pull8New bus
  return hi ++ lo

/-! ### Addressing modes -/

def eaDirect : CoreM Regs σ EA := do
  let off ← fetch8 bus
  let r ← getRegs
  return ⟨bank0 (off.setWidth 16 + r.d), true, false⟩

/-- With `E = 1` and an aligned direct page the sum wraps in the page, else in bank 0. -/
def directIndexed (r : Regs) (off : Byte) (index : BitVec 16) : BitVec 24 :=
  if r.e && !r.dpUnaligned then
    bank0 (((off.setWidth 16 + index).setWidth 8).setWidth 16) + bank0 r.d
  else bank0 (off.setWidth 16 + index + r.d)

def eaDirectIndexed (index : BitVec 16) : CoreM Regs σ EA := do
  let off ← fetch8 bus
  let r ← getRegs
  return ⟨directIndexed r off index, true, false⟩

def eaAbsolute : CoreM Regs σ EA := do
  let a ← fetch16 bus
  let r ← getRegs
  return ⟨r.dbr ++ a, false, false⟩

/-- The sum carries into the next bank. -/
def dataIndexed (r : Regs) (base index : BitVec 16) : EA :=
  ⟨(r.dbr ++ base) + index.setWidth 24, false, crossesPage base (base + index)⟩

def eaAbsoluteIndexed (index : BitVec 16) : CoreM Regs σ EA := do
  let base ← fetch16 bus
  let r ← getRegs
  return dataIndexed r base index

def eaLong : CoreM Regs σ EA := do
  let a ← fetch24 bus
  return ⟨a, false, false⟩

def eaLongIndexed (index : BitVec 16) : CoreM Regs σ EA := do
  let a ← fetch24 bus
  return ⟨a + index.setWidth 24, false, false⟩

def eaIndirect : CoreM Regs σ EA := do
  let ptr ← eaDirect bus
  let target ← readDPPointer bus ptr.addr
  let r ← getRegs
  return ⟨r.dbr ++ target, false, false⟩

def eaIndirectX : CoreM Regs σ EA := do
  let r ← getRegs
  let ptr ← eaDirectIndexed bus r.getX
  let target ← readDPPointer bus ptr.addr
  let r ← getRegs
  return ⟨r.dbr ++ target, false, false⟩

def eaIndirectY : CoreM Regs σ EA := do
  let ptr ← eaDirect bus
  let target ← readDPPointer bus ptr.addr
  let r ← getRegs
  return dataIndexed r target r.getY

def eaIndirectLong : CoreM Regs σ EA := do
  let ptr ← eaDirect bus
  let lo ← busRead8 bus (bank0 (ptr.addr.setWidth 16))
  let mid ← busRead8 bus (bank0 (ptr.addr.setWidth 16 + 1))
  let hi ← busRead8 bus (bank0 (ptr.addr.setWidth 16 + 2))
  return ⟨hi ++ (mid ++ lo), false, false⟩

def eaIndirectLongY : CoreM Regs σ EA := do
  let ea ← eaIndirectLong bus
  let r ← getRegs
  return ⟨ea.addr + r.getY.setWidth 24, false, false⟩

def eaStackRelative : CoreM Regs σ EA := do
  let off ← fetch8 bus
  let r ← getRegs
  return ⟨bank0 (off.setWidth 16 + r.s), true, false⟩

def eaStackRelativeIndirectY : CoreM Regs σ EA := do
  let ptr ← eaStackRelative bus
  let target ← read16Bank0 bus (ptr.addr.setWidth 16)
  let r ← getRegs
  return ⟨(r.dbr ++ target) + r.getY.setWidth 24, false, false⟩

end Access

inductive Mode
  | direct | directX | directY
  | absolute | absoluteX | absoluteY
  | long | longX
  | indirect | indirectX | indirectY
  | indirectLong | indirectLongY
  | stackRelative | stackRelativeIndirectY

section Mode

variable {σ : Type} (bus : CpuBus σ)

def effectiveAddress : Mode → CoreM Regs σ EA
  | .direct => eaDirect bus
  | .directX => do
    let r ← getRegs
    eaDirectIndexed bus r.getX
  | .directY => do
    let r ← getRegs
    eaDirectIndexed bus r.getY
  | .absolute => eaAbsolute bus
  | .absoluteX => do
    let r ← getRegs
    eaAbsoluteIndexed bus r.getX
  | .absoluteY => do
    let r ← getRegs
    eaAbsoluteIndexed bus r.getY
  | .long => eaLong bus
  | .longX => do
    let r ← getRegs
    eaLongIndexed bus r.getX
  | .indirect => eaIndirect bus
  | .indirectX => eaIndirectX bus
  | .indirectY => eaIndirectY bus
  | .indirectLong => eaIndirectLong bus
  | .indirectLongY => eaIndirectLongY bus
  | .stackRelative => eaStackRelative bus
  | .stackRelativeIndirectY => eaStackRelativeIndirectY bus

end Mode

end W65C816

end ScpuEmu
