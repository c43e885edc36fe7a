import ScpuEmu.Cpu.W65C816.Instructions

/-!
# The emulation-mode fast switch

The second switch of `CW65C816::stepInner`, with its own helpers and its own cycle
counts.
-/

namespace ScpuEmu

namespace W65C816

/-- `znE`: N and Z in one expression. -/
def Regs.znE (r : Regs) (v : Byte) : Regs :=
  { r with p := (r.p &&& ~~~(flagZ ||| flagN)) ||| (if v = 0 then flagZ else 0) ||| (v &&& 0x80) }

section FastPath

variable {σ : Type} (bus : CpuBus σ)

def f8E : CoreM Regs σ Byte := do
  let r ← getRegs
  let v ← busRead8 bus (r.pbr ++ r.pc)
  modifyRegs fun r => { r with pc := r.pc + 1 }
  return v

/-- The two operand bytes as a word. -/
def f16E : CoreM Regs σ (BitVec 16) := do
  let lo ← f8E bus
  let hi ← f8E bus
  return hi ++ lo

def pushE8 (v : Byte) : CoreM Regs σ Unit := do
  let r ← getRegs
  busWrite8 bus (bank0 r.s) v
  modifyRegs fun r => { r with s := 0x0100 ||| ((r.s - 1) &&& 0xFF) }

def pullE8 : CoreM Regs σ Byte := do
  modifyRegs fun r => { r with s := 0x0100 ||| ((r.s + 1) &&& 0xFF) }
  let r ← getRegs
  busRead8 bus (bank0 r.s)

def fastLdaImmediate : CoreM Regs σ ℕ := do
  let n ← f8E bus
  modifyRegs fun r => (r.setA n).znE n
  return 2

/-- The address `dp`, with the cycles of an access to it. -/
def fastDirect : CoreM Regs σ (BitVec 24 × ℕ) := do
  let off ← f8E bus
  let r ← getRegs
  return (bank0 (off.setWidth 16 + r.d), 3 + r.dpUnaligned.toNat)

def fastAbsolute : CoreM Regs σ (BitVec 24) := do
  let a ← f16E bus
  let r ← getRegs
  return r.dbr ++ a

def fastLdaDirect : CoreM Regs σ ℕ := do
  let (a, used) ← fastDirect bus
  let n ← busRead8 bus a
  modifyRegs fun r => (r.setA n).znE n
  return used

def fastLdaAbsolute : CoreM Regs σ ℕ := do
  let a ← fastAbsolute bus
  let n ← busRead8 bus a
  modifyRegs fun r => (r.setA n).znE n
  return 4

def fastLdaIndexed (index : Regs → BitVec 16) : CoreM Regs σ ℕ := do
  let base ← f16E bus
  let r ← getRegs
  let crossed := (base ^^^ (base + index r)) &&& 0xFF00 != 0
  let n ← busRead8 bus ((r.dbr ++ base) + (index r).setWidth 24)
  modifyRegs fun r => (r.setA n).znE n
  return 4 + crossed.toNat

def fastLdx : CoreM Regs σ ℕ := do
  let n ← f8E bus
  modifyRegs fun r => { r with x := n.setWidth 16 }.znE n
  return 2

def fastLdy : CoreM Regs σ ℕ := do
  let n ← f8E bus
  modifyRegs fun r => { r with y := n.setWidth 16 }.znE n
  return 2

def fastStaDirect : CoreM Regs σ ℕ := do
  let (a, used) ← fastDirect bus
  let r ← getRegs
  busWrite8 bus a r.getA
  return used

def fastStaAbsolute : CoreM Regs σ ℕ := do
  let a ← fastAbsolute bus
  let r ← getRegs
  busWrite8 bus a r.getA
  return 4

def fastLogicImmediate (op : Byte → Byte → Byte) : CoreM Regs σ ℕ := do
  let v ← f8E bus
  modifyRegs fun r => (r.setA (op r.getA v)).znE (op r.getA v)
  return 2

def fastCmpImmediate : CoreM Regs σ ℕ := do
  let n ← f8E bus
  modifyRegs fun r =>
    { r with p := (r.p &&& ~~~flagC) ||| (if n ≤ r.getA then flagC else 0) }.znE (r.getA - n)
  return 2

def fastCountX (count : BitVec 16 → BitVec 16) : CoreM Regs σ ℕ := do
  modifyRegs fun r =>
    { r with x := ((count r.x).setWidth 8).setWidth 16 }.znE ((count r.x).setWidth 8)
  return 2

def fastCountY (count : BitVec 16 → BitVec 16) : CoreM Regs σ ℕ := do
  modifyRegs fun r =>
    { r with y := ((count r.y).setWidth 8).setWidth 16 }.znE ((count r.y).setWidth 8)
  return 2

def flagSel : List Byte := [flagN, flagV, flagC, flagZ]

def fastBranch (opcode : Byte) : CoreM Regs σ ℕ := do
  let disp ← f8E bus
  let r ← getRegs
  let target := r.pc + disp.signExtend 16
  let crossed := (r.pc ^^^ target) &&& 0xFF00 != 0
  let cond := r.flag (flagSel.getD (opcode >>> 6).toNat 0) == (opcode &&& 0x20 != 0)
  modifyRegs fun r => if cond then { r with pc := target } else r
  return 2 + (if cond then 1 + crossed.toNat else 0)

def fastJmp : CoreM Regs σ ℕ := do
  let target ← f16E bus
  modifyRegs fun r => { r with pc := target }
  return 3

def fastJsr : CoreM Regs σ ℕ := do
  let target ← f16E bus
  let r ← getRegs
  let ret := r.pc - 1
  pushE8 bus ((ret >>> 8).setWidth 8)
  pushE8 bus (ret.setWidth 8)
  modifyRegs fun r => { r with pc := target }
  return 6

def fastRts : CoreM Regs σ ℕ := do
  let lo ← pullE8 bus
  let hi ← pullE8 bus
  modifyRegs fun r => { r with pc := (hi ++ lo : BitVec 16) + 1 }
  return 6

def fastClc : CoreM Regs σ ℕ := do
  modifyRegs fun r => { r with p := r.p &&& ~~~flagC }
  return 2

def fastSec : CoreM Regs σ ℕ := do
  modifyRegs fun r => { r with p := r.p ||| flagC }
  return 2

/-- An opcode the switch has no case for is left to the generic one. -/
def fastSwitch (opcode : Byte) : Option (CoreM Regs σ ℕ) :=
  match opcode with
  | 0xA9#8 => some (fastLdaImmediate bus)
  | 0xA5#8 => some (fastLdaDirect bus)
  | 0xAD#8 => some (fastLdaAbsolute bus)
  | 0xBD#8 => some (fastLdaIndexed bus Regs.x)
  | 0xB9#8 => some (fastLdaIndexed bus Regs.y)
  | 0xA2#8 => some (fastLdx bus)
  | 0xA0#8 => some (fastLdy bus)
  | 0x85#8 => some (fastStaDirect bus)
  | 0x8D#8 => some (fastStaAbsolute bus)
  | 0x49#8 => some (fastLogicImmediate bus (· ^^^ ·))
  | 0x29#8 => some (fastLogicImmediate bus (· &&& ·))
  | 0x09#8 => some (fastLogicImmediate bus (· ||| ·))
  | 0xC9#8 => some (fastCmpImmediate bus)
  | 0xE8#8 => some (fastCountX (· + 1))
  | 0xCA#8 => some (fastCountX (· - 1))
  | 0xC8#8 => some (fastCountY (· + 1))
  | 0x88#8 => some (fastCountY (· - 1))
  | 0x10#8 => some (fastBranch bus 0x10)
  | 0x30#8 => some (fastBranch bus 0x30)
  | 0x90#8 => some (fastBranch bus 0x90)
  | 0xB0#8 => some (fastBranch bus 0xB0)
  | 0xD0#8 => some (fastBranch bus 0xD0)
  | 0xF0#8 => some (fastBranch bus 0xF0)
  | 0x4C#8 => some (fastJmp bus)
  | 0x20#8 => some (fastJsr bus)
  | 0x60#8 => some (fastRts bus)
  | 0x18#8 => some fastClc
  | 0x38#8 => some fastSec
  | _ => none

/-- The instruction behind an opcode: the fast switch where it has a case in
emulation mode, else the generic one. -/
def execOpcode (opcode : Byte) : CoreM Regs σ ℕ := do
  let r ← getRegs
  if r.e then (fastSwitch bus opcode).getD (execGeneric bus opcode) else execGeneric bus opcode

end FastPath

end W65C816

end ScpuEmu
