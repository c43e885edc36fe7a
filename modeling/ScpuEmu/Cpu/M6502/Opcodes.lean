import ScpuEmu.Types

/-!
# The opcode table of the 6502

The table without its mnemonics, which only the disassembler reads.
-/

namespace ScpuEmu

namespace M6502

/-- `M6502AddrMode`. -/
inductive AddrMode
  | imp | acc | imm | zp | zpx | zpy | abs | abx | aby | ind | izx | izy | rel

def modeLength : AddrMode → ℕ
  | .imp | .acc => 1
  | .imm | .zp | .zpx | .zpy | .izx | .izy | .rel => 2
  | .abs | .abx | .aby | .ind => 3

structure OpcodeInfo where
  mode : AddrMode
  cycles : ℕ
  undocumented : Bool

def D (mode : AddrMode) (cycles : ℕ) : OpcodeInfo := ⟨mode, cycles, false⟩

/-- An encoding that is executed as a NOP of its length, or jams if it has no cycles. -/
def U (mode : AddrMode) (cycles : ℕ) : OpcodeInfo := ⟨mode, cycles, true⟩

def opcodes : List OpcodeInfo :=
  [
    -- $00
    D .imm 7, D .izx 6, U .imp 0, U .izx 8, U .zp 3, D .zp 3, D .zp 5, U .zp 5,
    D .imp 3, D .imm 2, D .acc 2, U .imm 2, U .abs 4, D .abs 4, D .abs 6, U .abs 6,
    -- $10
    D .rel 2, D .izy 5, U .imp 0, U .izy 8, U .zpx 4, D .zpx 4, D .zpx 6, U .zpx 6,
    D .imp 2, D .aby 4, U .imp 2, U .aby 7, U .abx 4, D .abx 4, D .abx 7, U .abx 7,
    -- $20
    D .abs 6, D .izx 6, U .imp 0, U .izx 8, D .zp 3, D .zp 3, D .zp 5, U .zp 5,
    D .imp 4, D .imm 2, D .acc 2, U .imm 2, D .abs 4, D .abs 4, D .abs 6, U .abs 6,
    -- $30
    D .rel 2, D .izy 5, U .imp 0, U .izy 8, U .zpx 4, D .zpx 4, D .zpx 6, U .zpx 6,
    D .imp 2, D .aby 4, U .imp 2, U .aby 7, U .abx 4, D .abx 4, D .abx 7, U .abx 7,
    -- $40
    D .imp 6, D .izx 6, U .imp 0, U .izx 8, U .zp 3, D .zp 3, D .zp 5, U .zp 5,
    D .imp 3, D .imm 2, D .acc 2, U .imm 2, D .abs 3, D .abs 4, D .abs 6, U .abs 6,
    -- $50
    D .rel 2, D .izy 5, U .imp 0, U .izy 8, U .zpx 4, D .zpx 4, D .zpx 6, U .zpx 6,
    D .imp 2, D .aby 4, U .imp 2, U .aby 7, U .abx 4, D .abx 4, D .abx 7, U .abx 7,
    -- $60
    D .imp 6, D .izx 6, U .imp 0, U .izx 8, U .zp 3, D .zp 3, D .zp 5, U .zp 5,
    D .imp 4, D .imm 2, D .acc 2, U .imm 2, D .ind 5, D .abs 4, D .abs 6, U .abs 6,
    -- $70
    D .rel 2, D .izy 5, U .imp 0, U .izy 8, U .zpx 4, D .zpx 4, D .zpx 6, U .zpx 6,
    D .imp 2, D .aby 4, U .imp 2, U .aby 7, U .abx 4, D .abx 4, D .abx 7, U .abx 7,
    -- $80
    U .imm 2, D .izx 6, U .imm 2, U .izx 6, D .zp 3, D .zp 3, D .zp 3, U .zp 3,
    D .imp 2, U .imm 2, D .imp 2, U .imm 2, D .abs 4, D .abs 4, D .abs 4, U .abs 4,
    -- $90
    D .rel 2, D .izy 6, U .imp 0, U .izy 6, D .zpx 4, D .zpx 4, D .zpy 4, U .zpy 4,
    D .imp 2, D .aby 5, D .imp 2, U .aby 5, U .abx 5, D .abx 5, U .aby 5, U .aby 5,
    -- $A0
    D .imm 2, D .izx 6, D .imm 2, U .izx 6, D .zp 3, D .zp 3, D .zp 3, U .zp 3,
    D .imp 2, D .imm 2, D .imp 2, U .imm 2, D .abs 4, D .abs 4, D .abs 4, U .abs 4,
    -- $B0
    D .rel 2, D .izy 5, U .imp 0, U .izy 5, D .zpx 4, D .zpx 4, D .zpy 4, U .zpy 4,
    D .imp 2, D .aby 4, D .imp 2, U .aby 4, D .abx 4, D .abx 4, D .aby 4, U .aby 4,
    -- $C0
    D .imm 2, D .izx 6, U .imm 2, U .izx 8, D .zp 3, D .zp 3, D .zp 5, U .zp 5,
    D .imp 2, D .imm 2, D .imp 2, U .imm 2, D .abs 4, D .abs 4, D .abs 6, U .abs 6,
    -- $D0
    D .rel 2, D .izy 5, U .imp 0, U .izy 8, U .zpx 4, D .zpx 4, D .zpx 6, U .zpx 6,
    D .imp 2, D .aby 4, U .imp 2, U .aby 7, U .abx 4, D .abx 4, D .abx 7, U .abx 7,
    -- $E0
    D .imm 2, D .izx 6, U .imm 2, U .izx 8, D .zp 3, D .zp 3, D .zp 5, U .zp 5,
    D .imp 2, D .imm 2, D .imp 2, U .imm 2, D .abs 4, D .abs 4, D .abs 6, U .abs 6,
    -- $F0
    D .rel 2, D .izy 5, U .imp 0, U .izy 8, U .zpx 4, D .zpx 4, D .zpx 6, U .zpx 6,
    D .imp 2, D .aby 4, U .imp 2, U .aby 7, U .abx 4, D .abx 4, D .abx 7, U .abx 7]

def opcodeInfo (opcode : Byte) : OpcodeInfo := opcodes.getD opcode.toNat (U .imp 2)

end M6502

end ScpuEmu
