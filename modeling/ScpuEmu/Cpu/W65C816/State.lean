import ScpuEmu.Cpu.Bus
import Mathlib.Data.Nat.Notation

/-!
# Registers of the 65C816

The register file of `CW65C816` with its cached widths. Functions of the source
that touch no bus are functions of this record. The page-cross, branch-taken and
bank-0 members of the class live for one instruction only, and are results of the
functions that set them.
-/

namespace ScpuEmu

namespace W65C816

def flagC : Byte := 0x01

def flagZ : Byte := 0x02

def flagI : Byte := 0x04

def flagD : Byte := 0x08

def flagX : Byte := 0x10

def flagM : Byte := 0x20

def flagV : Byte := 0x40

def flagN : Byte := 0x80

/-- The emulation-mode name of bit 4. -/
def flagB : Byte := flagX

@[ext]
structure Regs where
  c : BitVec 16
  x : BitVec 16
  y : BitVec 16
  s : BitVec 16
  d : BitVec 16
  pc : BitVec 16
  pbr : Byte
  dbr : Byte
  p : Byte
  e : Bool
  m8 : Bool
  x8 : Bool
  cycKey : Byte

namespace Regs

variable (r : Regs)

def flag (mask : Byte) : Bool := r.p &&& mask != 0

def setFlag (mask : Byte) (on : Bool) : Regs :=
  { r with p := if on then r.p ||| mask else r.p &&& ~~~mask }

def setZN8 (v : Byte) : Regs := (r.setFlag flagZ (v == 0)).setFlag flagN (v &&& 0x80 != 0)

def setZN16 (v : BitVec 16) : Regs :=
  (r.setFlag flagZ (v == 0)).setFlag flagN (v &&& 0x8000 != 0)

def setZNM (v : BitVec 16) : Regs := if r.m8 then r.setZN8 (v.setWidth 8) else r.setZN16 v

def setZNX (v : BitVec 16) : Regs := if r.x8 then r.setZN8 (v.setWidth 8) else r.setZN16 v

/-! ### Widths -/

def dpUnaligned : Bool := r.d &&& 0xFF != 0

def computeM8 : Bool := r.e || r.flag flagM

def computeX8 : Bool := r.e || r.flag flagX

/-- The index into the cycle table that belongs to the widths `m8`, `x8`. -/
def computeCycKey (m8 x8 : Bool) : Byte :=
  (if m8 then 1 else 0) ||| (if x8 then 2 else 0) ||| (if r.e then 4 else 0) |||
    (if r.dpUnaligned then 8 else 0)

def clip : Regs :=
  if r.e then
    { r with
      p := r.p ||| (flagM ||| flagX)
      s := 0x0100 ||| (r.s &&& 0x00FF)
      x := r.x &&& 0x00FF
      y := r.y &&& 0x00FF }
  else if r.flag flagX then { r with x := r.x &&& 0x00FF, y := r.y &&& 0x00FF }
  else r

def refreshWidths : Regs :=
  { r with
    m8 := r.computeM8
    x8 := r.computeX8
    cycKey := r.computeCycKey r.computeM8 r.computeX8 }

def applyE : Regs := r.clip.refreshWidths

def getA : Byte := r.c.setWidth 8

def setA (v : Byte) : Regs := { r with c := (r.c &&& 0xFF00) ||| v.setWidth 16 }

def getAcc : BitVec 16 := if r.m8 then r.c &&& 0xFF else r.c

def setAcc (v : BitVec 16) : Regs :=
  { r with c := if r.m8 then (r.c &&& 0xFF00) ||| (v &&& 0xFF) else v }

def getX : BitVec 16 := if r.x8 then r.x &&& 0xFF else r.x

def getY : BitVec 16 := if r.x8 then r.y &&& 0xFF else r.y

/-! ### The arithmetic unit -/

/-- The sign bit of the accumulator. -/
def signBit (m8 : Bool) : BitVec 16 := if m8 then 0x0080 else 0x8000

def accMask (m8 : Bool) : BitVec 32 := if m8 then 0xFF else 0xFFFF

def digits (m8 : Bool) : ℕ := if m8 then 2 else 4

/-- Digit `i` of a packed decimal number. -/
def digit (v : BitVec 16) (i : ℕ) : BitVec 32 := ((v >>> (4 * i)) &&& 0xF).setWidth 32

structure DecimalSum where
  result : BitVec 32
  raw : BitVec 32
  carry : BitVec 32

/-- Add digit `i`. `raw` is the sum with the last digit not yet fixed up. -/
def addDigit (a v : BitVec 16) (sum : DecimalSum) (i : ℕ) : DecimalSum :=
  let dg := digit a i + digit v i + sum.carry
  let fixed := if 9 < dg then dg + 6 else dg
  { result := sum.result ||| ((fixed &&& 0xF) <<< (4 * i))
    raw := sum.result ||| (dg <<< (4 * i))
    carry := if 9 < dg then 1 else 0 }

def decimalSum (m8 : Bool) (a v : BitVec 16) (c : BitVec 32) : DecimalSum :=
  (List.range (digits m8)).foldl (addDigit a v) ⟨0, 0, c⟩

structure DecimalDifference where
  result : BitVec 32
  borrow : BitVec 32

def subDigit (a v : BitVec 16) (diff : DecimalDifference) (i : ℕ) : DecimalDifference :=
  let dg := digit a i - digit v i - diff.borrow
  let fixed := if dg.slt 0 then dg - 6 else dg
  { result := diff.result ||| ((fixed &&& 0xF) <<< (4 * i))
    borrow := if dg.slt 0 then 1 else 0 }

def decimalDifference (m8 : Bool) (a v : BitVec 16) (borrow : BitVec 32) : DecimalDifference :=
  (List.range (digits m8)).foldl (subDigit a v) ⟨0, borrow⟩

def carryIn : BitVec 32 := if r.flag flagC then 1 else 0

/-- The result of an addition or a subtraction goes to the accumulator and to N and Z. -/
def setResult (m8 : Bool) (result : BitVec 32) : Regs :=
  let r := r.setAcc (result.setWidth 16)
  if m8 then r.setZN8 (result.setWidth 8) else r.setZN16 (result.setWidth 16)

def opADC (v : BitVec 16) : Regs :=
  let m8 := r.m8
  let a := r.getAcc
  let sb := (signBit m8).setWidth 32
  let agree := (~~~(a ^^^ v)).setWidth 32
  if r.flag flagD then
    let sum := decimalSum m8 a v r.carryIn
    ((r.setFlag flagC (sum.carry != 0)).setFlag flagV
      (agree &&& (a.setWidth 32 ^^^ sum.raw) &&& sb != 0)).setResult m8 sum.result
  else
    let sum := a.setWidth 32 + v.setWidth 32 + r.carryIn
    ((r.setFlag flagV (agree &&& (a.setWidth 32 ^^^ sum) &&& sb != 0)).setFlag flagC
      (accMask m8 < sum)).setResult m8 sum

def opSBC (v : BitVec 16) : Regs :=
  let m8 := r.m8
  let a := r.getAcc
  let sb := (signBit m8).setWidth 32
  let mask := accMask m8
  let vc := ~~~(v.setWidth 32) &&& mask
  let bin := a.setWidth 32 + vc + r.carryIn
  let flagged := (r.setFlag flagC (mask < bin)).setFlag flagV
    ((a ^^^ v).setWidth 32 &&& (a.setWidth 32 ^^^ (bin &&& mask)) &&& sb != 0)
  if r.flag flagD then
    flagged.setResult m8 (decimalDifference m8 a v (1 - r.carryIn)).result
  else flagged.setResult m8 bin

def opCMP (reg v : BitVec 16) (eightBit : Bool) : Regs :=
  let r := r.setFlag flagC (v ≤ reg)
  if eightBit then r.setZN8 ((reg - v).setWidth 8) else r.setZN16 (reg - v)

def opBIT (v : BitVec 16) (immediate : Bool) : Regs :=
  let r := r.setFlag flagZ (r.getAcc &&& v == 0)
  if immediate then r
  else (r.setFlag flagN (v &&& (if r.m8 then 0x0080 else 0x8000) != 0)).setFlag flagV
    (v &&& (if r.m8 then 0x0040 else 0x4000) != 0)

end Regs

end W65C816

end ScpuEmu
