import ScpuEmu.Cpu.Bus
import Mathlib.Data.Nat.Notation
import Mathlib.Data.BitVec

/-!
# Registers of the 6502

The register file of `CM6502` and the functions of it that touch no bus. The
arithmetic is that of the source, in 16-bit words.
-/

namespace ScpuEmu

namespace M6502

def flagC : Byte := 0x01

def flagZ : Byte := 0x02

def flagI : Byte := 0x04

def flagD : Byte := 0x08

/-- Set in the copies of P that instructions push, and in no other. -/
def flagB : Byte := 0x10

/-- Unused, reads as 1. -/
def flagU : Byte := 0x20

def flagV : Byte := 0x40

def flagN : Byte := 0x80

def vecNMI : BitVec 16 := 0xFFFA

def vecReset : BitVec 16 := 0xFFFC

def vecIRQ : BitVec 16 := 0xFFFE

@[ext]
structure Regs where
  a : Byte
  x : Byte
  y : Byte
  s : Byte
  p : Byte
  pc : BitVec 16

namespace Regs

variable (r : Regs)

def flag (mask : Byte) : Bool := r.p &&& mask != 0

def setFlag (mask : Byte) (on : Bool) : Regs :=
  { r with p := if on then r.p ||| mask else r.p &&& ~~~mask }

def setZN (v : Byte) : Regs :=
  { r with p := (r.p &&& ~~~(flagZ ||| flagN)) ||| (if v != 0 then 0 else flagZ) ||| (v &&& flagN) }

/-! ### The arithmetic unit -/

/-- A byte as a `u16`. -/
def word (v : Byte) : BitVec 16 := v.setWidth 16

def low (v : BitVec 16) : Byte := v.setWidth 8

def carryIn : BitVec 16 := if r.flag flagC then 1 else 0

/-- Z is that of the binary sum; N and V are those of the high nibble before its fix-up. -/
def adcDecimal (v : Byte) : Regs :=
  let lo := word (r.a &&& 0x0F) + word (v &&& 0x0F) + r.carryIn
  let hi := word (r.a &&& 0xF0) + word (v &&& 0xF0)
  let r' := r.setFlag flagZ (low (word r.a + word v + r.carryIn) == 0)
  let hi := if 0x09 < lo then hi + 0x10 else hi
  let lo := if 0x09 < lo then lo + 0x06 else lo
  let r' := r'.setFlag flagN (hi &&& 0x80 != 0)
  let r' := r'.setFlag flagV ((~~~(r.a ^^^ v) &&& (r.a ^^^ low hi)) &&& 0x80 != 0)
  let hi := if 0x90 < hi then hi + 0x60 else hi
  let r' := r'.setFlag flagC (hi &&& 0xFF00 != 0)
  { r' with a := low ((lo &&& 0x0F) ||| (hi &&& 0xF0)) }

def adcBinary (v : Byte) : Regs :=
  let sum := word r.a + word v + r.carryIn
  let r' := r.setFlag flagC (0xFF < sum)
  let r' := r'.setFlag flagV ((~~~(r.a ^^^ v) &&& (r.a ^^^ low sum)) &&& 0x80 != 0)
  { r' with a := low sum }.setZN (low sum)

def opADC (v : Byte) : Regs := if r.flag flagD then r.adcDecimal v else r.adcBinary v

/-- The accumulator after a subtraction in decimal mode. -/
def sbcDigits (v : Byte) : Byte :=
  let lo := word (r.a &&& 0x0F) - word (v &&& 0x0F) - (1 - r.carryIn)
  let hi := word (r.a &&& 0xF0) - word (v &&& 0xF0)
  let hi' := if lo &&& 0x10 != 0 then hi - 0x10 else hi
  let lo' := if lo &&& 0x10 != 0 then lo - 0x06 else lo
  let hi'' := if hi' &&& 0x0100 != 0 then hi' - 0x60 else hi'
  low ((lo' &&& 0x0F) ||| (hi'' &&& 0xF0))

/-- All flags are those of the binary difference. -/
def opSBC (v : Byte) : Regs :=
  let diff := word r.a - word v - (1 - r.carryIn)
  let r' := r.setFlag flagC (diff < 0x100)
  let r' := r'.setFlag flagV ((r.a ^^^ v) &&& (r.a ^^^ low diff) &&& 0x80 != 0)
  { r' with a := if r.flag flagD then r.sbcDigits v else low diff }.setZN (low diff)

def opCMP (reg v : Byte) : Regs := (r.setFlag flagC (v ≤ reg)).setZN (reg - v)

/-- N and V are bits 7 and 6 of the operand. -/
def opBIT (v : Byte) : Regs :=
  ((r.setFlag flagZ (r.a &&& v == 0)).setFlag flagN (v &&& 0x80 != 0)).setFlag flagV
    (v &&& 0x40 != 0)

end Regs

end M6502

end ScpuEmu
