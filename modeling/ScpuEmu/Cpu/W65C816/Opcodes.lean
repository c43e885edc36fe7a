import ScpuEmu.Cpu.W65C816.State

/-!
# Cycle counts of the 65C816

The opcode table, cut down to its cycle counts, the count with every adjustment,
and the packed table that the interpreter reads.
-/

namespace ScpuEmu

namespace W65C816

/-! Cycle adjustments. -/

abbrev cycM1 : Byte := 0x01 -- +1 when the accumulator is 16-bit

abbrev cycM2 : Byte := 0x02 -- +2 when the accumulator is 16-bit

abbrev cycX1 : Byte := 0x04 -- +1 when the index registers are 16-bit

abbrev cycW : Byte := 0x08 -- +1 when the direct page is unaligned

abbrev cycP : Byte := 0x10 -- +1 on a page cross, or with 16-bit index registers

abbrev cycE0 : Byte := 0x20 -- +1 in native mode

abbrev cycBR : Byte := 0x40 -- +1 when taken, and +1 more in emulation mode across a page

abbrev cycPE : Byte := 0x80 -- +1 in emulation mode across a page

structure SW65Opcode where
  baseCycles : ℕ
  cycleFlags : Byte

def w65c816Opcodes : List SW65Opcode :=
  [
    -- $00
    ⟨7, cycE0⟩, ⟨6, cycM1 ||| cycW⟩, ⟨7, cycE0⟩, ⟨4, cycM1⟩, ⟨5, cycM2 ||| cycW⟩,
    ⟨3, cycM1 ||| cycW⟩, ⟨5, cycM2 ||| cycW⟩, ⟨6, cycM1 ||| cycW⟩, ⟨3, 0⟩, ⟨2, cycM1⟩, ⟨2, 0⟩,
    ⟨4, 0⟩, ⟨6, cycM2⟩, ⟨4, cycM1⟩, ⟨6, cycM2⟩, ⟨5, cycM1⟩,
    -- $10
    ⟨2, cycBR⟩, ⟨5, cycM1 ||| cycW ||| cycP⟩, ⟨5, cycM1 ||| cycW⟩, ⟨7, cycM1⟩,
    ⟨5, cycM2 ||| cycW⟩, ⟨4, cycM1 ||| cycW⟩, ⟨6, cycM2 ||| cycW⟩, ⟨6, cycM1 ||| cycW⟩, ⟨2, 0⟩,
    ⟨4, cycM1 ||| cycP⟩, ⟨2, 0⟩, ⟨2, 0⟩, ⟨6, cycM2⟩, ⟨4, cycM1 ||| cycP⟩, ⟨7, cycM2⟩, ⟨5, cycM1⟩,
    -- $20
    ⟨6, 0⟩, ⟨6, cycM1 ||| cycW⟩, ⟨8, 0⟩, ⟨4, cycM1⟩, ⟨3, cycM1 ||| cycW⟩, ⟨3, cycM1 ||| cycW⟩,
    ⟨5, cycM2 ||| cycW⟩, ⟨6, cycM1 ||| cycW⟩, ⟨4, 0⟩, ⟨2, cycM1⟩, ⟨2, 0⟩, ⟨5, 0⟩, ⟨4, cycM1⟩,
    ⟨4, cycM1⟩, ⟨6, cycM2⟩, ⟨5, cycM1⟩,
    -- $30
    ⟨2, cycBR⟩, ⟨5, cycM1 ||| cycW ||| cycP⟩, ⟨5, cycM1 ||| cycW⟩, ⟨7, cycM1⟩,
    ⟨4, cycM1 ||| cycW⟩, ⟨4, cycM1 ||| cycW⟩, ⟨6, cycM2 ||| cycW⟩, ⟨6, cycM1 ||| cycW⟩, ⟨2, 0⟩,
    ⟨4, cycM1 ||| cycP⟩, ⟨2, 0⟩, ⟨2, 0⟩, ⟨4, cycM1 ||| cycP⟩, ⟨4, cycM1 ||| cycP⟩, ⟨7, cycM2⟩,
    ⟨5, cycM1⟩,
    -- $40
    ⟨6, cycE0⟩, ⟨6, cycM1 ||| cycW⟩, ⟨2, 0⟩, ⟨4, cycM1⟩, ⟨7, 0⟩, ⟨3, cycM1 ||| cycW⟩,
    ⟨5, cycM2 ||| cycW⟩, ⟨6, cycM1 ||| cycW⟩, ⟨3, cycM1⟩, ⟨2, cycM1⟩, ⟨2, 0⟩, ⟨3, 0⟩, ⟨3, 0⟩,
    ⟨4, cycM1⟩, ⟨6, cycM2⟩, ⟨5, cycM1⟩,
    -- $50
    ⟨2, cycBR⟩, ⟨5, cycM1 ||| cycW ||| cycP⟩, ⟨5, cycM1 ||| cycW⟩, ⟨7, cycM1⟩, ⟨7, 0⟩,
    ⟨4, cycM1 ||| cycW⟩, ⟨6, cycM2 ||| cycW⟩, ⟨6, cycM1 ||| cycW⟩, ⟨2, 0⟩, ⟨4, cycM1 ||| cycP⟩,
    ⟨3, cycX1⟩, ⟨2, 0⟩, ⟨4, 0⟩, ⟨4, cycM1 ||| cycP⟩, ⟨7, cycM2⟩, ⟨5, cycM1⟩,
    -- $60
    ⟨6, 0⟩, ⟨6, cycM1 ||| cycW⟩, ⟨6, 0⟩, ⟨4, cycM1⟩, ⟨3, cycM1 ||| cycW⟩, ⟨3, cycM1 ||| cycW⟩,
    ⟨5, cycM2 ||| cycW⟩, ⟨6, cycM1 ||| cycW⟩, ⟨4, cycM1⟩, ⟨2, cycM1⟩, ⟨2, 0⟩, ⟨6, 0⟩, ⟨5, 0⟩,
    ⟨4, cycM1⟩, ⟨6, cycM2⟩, ⟨5, cycM1⟩,
    -- $70
    ⟨2, cycBR⟩, ⟨5, cycM1 ||| cycW ||| cycP⟩, ⟨5, cycM1 ||| cycW⟩, ⟨7, cycM1⟩,
    ⟨4, cycM1 ||| cycW⟩, ⟨4, cycM1 ||| cycW⟩, ⟨6, cycM2 ||| cycW⟩, ⟨6, cycM1 ||| cycW⟩, ⟨2, 0⟩,
    ⟨4, cycM1 ||| cycP⟩, ⟨4, cycX1⟩, ⟨2, 0⟩, ⟨6, 0⟩, ⟨4, cycM1 ||| cycP⟩, ⟨7, cycM2⟩, ⟨5, cycM1⟩,
    -- $80
    ⟨3, cycPE⟩, ⟨6, cycM1 ||| cycW⟩, ⟨4, 0⟩, ⟨4, cycM1⟩, ⟨3, cycX1 ||| cycW⟩,
    ⟨3, cycM1 ||| cycW⟩, ⟨3, cycX1 ||| cycW⟩, ⟨6, cycM1 ||| cycW⟩, ⟨2, 0⟩, ⟨2, cycM1⟩, ⟨2, 0⟩,
    ⟨3, 0⟩, ⟨4, cycX1⟩, ⟨4, cycM1⟩, ⟨4, cycX1⟩, ⟨5, cycM1⟩,
    -- $90
    ⟨2, cycBR⟩, ⟨6, cycM1 ||| cycW⟩, ⟨5, cycM1 ||| cycW⟩, ⟨7, cycM1⟩, ⟨4, cycX1 ||| cycW⟩,
    ⟨4, cycM1 ||| cycW⟩, ⟨4, cycX1 ||| cycW⟩, ⟨6, cycM1 ||| cycW⟩, ⟨2, 0⟩, ⟨5, cycM1⟩, ⟨2, 0⟩,
    ⟨2, 0⟩, ⟨4, cycM1⟩, ⟨5, cycM1⟩, ⟨5, cycM1⟩, ⟨5, cycM1⟩,
    -- $A0
    ⟨2, cycX1⟩, ⟨6, cycM1 ||| cycW⟩, ⟨2, cycX1⟩, ⟨4, cycM1⟩, ⟨3, cycX1 ||| cycW⟩,
    ⟨3, cycM1 ||| cycW⟩, ⟨3, cycX1 ||| cycW⟩, ⟨6, cycM1 ||| cycW⟩, ⟨2, 0⟩, ⟨2, cycM1⟩, ⟨2, 0⟩,
    ⟨4, 0⟩, ⟨4, cycX1⟩, ⟨4, cycM1⟩, ⟨4, cycX1⟩, ⟨5, cycM1⟩,
    -- $B0
    ⟨2, cycBR⟩, ⟨5, cycM1 ||| cycW ||| cycP⟩, ⟨5, cycM1 ||| cycW⟩, ⟨7, cycM1⟩,
    ⟨4, cycX1 ||| cycW⟩, ⟨4, cycM1 ||| cycW⟩, ⟨4, cycX1 ||| cycW⟩, ⟨6, cycM1 ||| cycW⟩, ⟨2, 0⟩,
    ⟨4, cycM1 ||| cycP⟩, ⟨2, 0⟩, ⟨2, 0⟩, ⟨4, cycX1 ||| cycP⟩, ⟨4, cycM1 ||| cycP⟩,
    ⟨4, cycX1 ||| cycP⟩, ⟨5, cycM1⟩,
    -- $C0
    ⟨2, cycX1⟩, ⟨6, cycM1 ||| cycW⟩, ⟨3, 0⟩, ⟨4, cycM1⟩, ⟨3, cycX1 ||| cycW⟩,
    ⟨3, cycM1 ||| cycW⟩, ⟨5, cycM2 ||| cycW⟩, ⟨6, cycM1 ||| cycW⟩, ⟨2, 0⟩, ⟨2, cycM1⟩, ⟨2, 0⟩,
    ⟨3, 0⟩, ⟨4, cycX1⟩, ⟨4, cycM1⟩, ⟨6, cycM2⟩, ⟨5, cycM1⟩,
    -- $D0
    ⟨2, cycBR⟩, ⟨5, cycM1 ||| cycW ||| cycP⟩, ⟨5, cycM1 ||| cycW⟩, ⟨7, cycM1⟩, ⟨6, cycW⟩,
    ⟨4, cycM1 ||| cycW⟩, ⟨6, cycM2 ||| cycW⟩, ⟨6, cycM1 ||| cycW⟩, ⟨2, 0⟩, ⟨4, cycM1 ||| cycP⟩,
    ⟨3, cycX1⟩, ⟨3, 0⟩, ⟨6, 0⟩, ⟨4, cycM1 ||| cycP⟩, ⟨7, cycM2⟩, ⟨5, cycM1⟩,
    -- $E0
    ⟨2, cycX1⟩, ⟨6, cycM1 ||| cycW⟩, ⟨3, 0⟩, ⟨4, cycM1⟩, ⟨3, cycX1 ||| cycW⟩,
    ⟨3, cycM1 ||| cycW⟩, ⟨5, cycM2 ||| cycW⟩, ⟨6, cycM1 ||| cycW⟩, ⟨2, 0⟩, ⟨2, cycM1⟩, ⟨2, 0⟩,
    ⟨3, 0⟩, ⟨4, cycX1⟩, ⟨4, cycM1⟩, ⟨6, cycM2⟩, ⟨5, cycM1⟩,
    -- $F0
    ⟨2, cycBR⟩, ⟨5, cycM1 ||| cycW ||| cycP⟩, ⟨5, cycM1 ||| cycW⟩, ⟨7, cycM1⟩, ⟨5, 0⟩,
    ⟨4, cycM1 ||| cycW⟩, ⟨6, cycM2 ||| cycW⟩, ⟨6, cycM1 ||| cycW⟩, ⟨2, 0⟩, ⟨4, cycM1 ||| cycP⟩,
    ⟨4, cycX1⟩, ⟨2, 0⟩, ⟨8, 0⟩, ⟨4, cycM1 ||| cycP⟩, ⟨7, cycM2⟩, ⟨5, cycM1⟩]

def w65c816Opcode (opcode : Byte) : SW65Opcode := w65c816Opcodes.getD opcode.toNat ⟨0, 0⟩

def SW65Opcode.has (op : SW65Opcode) (f : Byte) : Bool := op.cycleFlags &&& f != 0

def w65c816Cycles (opcode : Byte) (m8 x8 emulation dpUnaligned pageCross branchTaken : Bool) : ℕ :=
  let op := w65c816Opcode opcode
  op.baseCycles
    + (op.has cycM1 && !m8).toNat
    + 2 * (op.has cycM2 && !m8).toNat
    + (op.has cycX1 && !x8).toNat
    + (op.has cycW && dpUnaligned).toNat
    + (op.has cycE0 && !emulation).toNat
    + (op.has cycP && (!x8 || pageCross)).toNat
    + (op.has cycBR && branchTaken).toNat
    + (op.has cycBR && branchTaken && emulation && pageCross).toNat
    + (op.has cycPE && emulation && pageCross).toNat

abbrev lutP : Byte := 0x10 -- +1 on a page cross

abbrev lutBR : Byte := 0x20 -- +1 on a taken branch, and +1 more in emulation mode across a page

abbrev lutPE : Byte := 0x40 -- +1 on a page cross

/-- An entry of the packed table, as `w65c816InitCycleLUT` builds it. -/
def w65c816CycleLUT (key opcode : Byte) : Byte :=
  let m8 := key &&& 1 != 0
  let x8 := key &&& 2 != 0
  let e := key &&& 4 != 0
  let dp := key &&& 8 != 0
  let base := w65c816Cycles opcode m8 x8 e dp false false
  let op := w65c816Opcode opcode
  BitVec.ofNat 8 (min base 15) ||| (if op.has cycP && x8 then lutP else 0) |||
    (if op.has cycBR then lutBR else 0) ||| (if op.has cycPE && e then lutPE else 0)

/-- The facts of one execution that the cycle count depends on. -/
structure Penalty where
  pageCross : Bool
  branchTaken : Bool

/-- The cycles an instruction took, from the key it started with. -/
def cyclesUsed (cycKey opcode : Byte) (penalty : Penalty) : ℕ :=
  let enc := w65c816CycleLUT cycKey opcode
  let used := (enc &&& 0x0F).toNat
  if enc &&& 0xF0 = 0 then used
  else
    used + (enc &&& lutP != 0 && penalty.pageCross).toNat
      + (enc &&& lutBR != 0 && penalty.branchTaken).toNat
      + (enc &&& lutBR != 0 && penalty.branchTaken && cycKey &&& 4 != 0 &&
          penalty.pageCross).toNat
      + (enc &&& lutPE != 0 && penalty.pageCross).toNat

end W65C816

end ScpuEmu
