import ScpuEmu.Cpu.M6502.State
import ScpuEmu.Cpu.M6502.Opcodes

/-!
# Instructions of the 6502

The switch of `CM6502::step`. Its cases fall into families that differ in an effective
address and in an operation on the registers; `instructions` lists the cases in the
order of their opcodes.
-/

namespace ScpuEmu

namespace M6502

open Library

/-- The effective-address macros. A read counts a page that the index crosses, and a
write does not. -/
inductive Mode
  | zp | zpx | zpy | abs | abxR | abxW | abyR | abyW | izx | izyR | izyW

inductive Operand
  | immediate
  | memory (mode : Mode)

inductive ReadOp
  | lda | ldx | ldy | and | eor | ora | bit | adc | sbc | cmp | cpx | cpy

inductive StoreOp
  | sta | stx | sty

inductive RmwOp
  | inc | dec | asl | lsr | rol | ror

/-- Instructions that change nothing but registers. -/
inductive RegOp
  | tax | tay | tsx | txa | txs | tya
  | inx | iny | dex | dey
  | clc | sec | cli | sei | clv | cld | sed
  | nop

inductive StackOp
  | pha | php | pla | plp

inductive FlowOp
  | jmp | jmpIndirect | jsr | rts | rti | brk

inductive Instr
  | read (op : ReadOp) (operand : Operand)
  | store (op : StoreOp) (mode : Mode)
  | rmw (op : RmwOp) (mode : Mode)
  | rmwAcc (op : RmwOp)
  | reg (op : RegOp)
  | stack (op : StackOp)
  | flow (op : FlowOp)
  | branch (flag : Byte) (set : Bool)

/-! ### Operations on the registers -/

def ReadOp.apply (op : ReadOp) (v : Byte) (r : Regs) : Regs :=
  match op with
  | .lda => { r with a := v }.setZN v
  | .ldx => { r with x := v }.setZN v
  | .ldy => { r with y := v }.setZN v
  | .and => { r with a := r.a &&& v }.setZN (r.a &&& v)
  | .eor => { r with a := r.a ^^^ v }.setZN (r.a ^^^ v)
  | .ora => { r with a := r.a ||| v }.setZN (r.a ||| v)
  | .bit => r.opBIT v
  | .adc => r.opADC v
  | .sbc => r.opSBC v
  | .cmp => r.opCMP r.a v
  | .cpx => r.opCMP r.x v
  | .cpy => r.opCMP r.y v

def StoreOp.value (op : StoreOp) (r : Regs) : Byte :=
  match op with
  | .sta => r.a
  | .stx => r.x
  | .sty => r.y

/-- What a read-modify-write makes of its operand, and of the flags before the write. -/
def RmwOp.apply (op : RmwOp) (r : Regs) (v : Byte) : Regs × Byte :=
  match op with
  | .inc => (r, v + 1)
  | .dec => (r, v - 1)
  | .asl => (r.setFlag flagC (v &&& 0x80 != 0), v <<< 1)
  | .lsr => (r.setFlag flagC (v &&& 0x01 != 0), v >>> 1)
  | .rol =>
    let c : Byte := if r.flag flagC then 1 else 0
    (r.setFlag flagC (v &&& 0x80 != 0), (v <<< 1) ||| c)
  | .ror =>
    let c : Byte := if r.flag flagC then 0x80 else 0
    (r.setFlag flagC (v &&& 0x01 != 0), (v >>> 1) ||| c)

def RmwOp.applyAcc (op : RmwOp) (r : Regs) : Regs :=
  { (op.apply r r.a).1 with a := (op.apply r r.a).2 }.setZN (op.apply r r.a).2

def RegOp.apply (op : RegOp) (r : Regs) : Regs :=
  match op with
  | .tax => { r with x := r.a }.setZN r.a
  | .tay => { r with y := r.a }.setZN r.a
  | .tsx => { r with x := r.s }.setZN r.s
  | .txa => { r with a := r.x }.setZN r.x
  | .txs => { r with s := r.x }
  | .tya => { r with a := r.y }.setZN r.y
  | .inx => { r with x := r.x + 1 }.setZN (r.x + 1)
  | .iny => { r with y := r.y + 1 }.setZN (r.y + 1)
  | .dex => { r with x := r.x - 1 }.setZN (r.x - 1)
  | .dey => { r with y := r.y - 1 }.setZN (r.y - 1)
  | .clc => r.setFlag flagC false
  | .sec => r.setFlag flagC true
  | .cli => r.setFlag flagI false
  | .sei => r.setFlag flagI true
  | .clv => r.setFlag flagV false
  | .cld => r.setFlag flagD false
  | .sed => r.setFlag flagD true
  | .nop => r

section Execute

variable {σ : Type} (bus : CpuBus σ)

/-! ### Bus helpers -/

def rd (a : BitVec 16) : CoreM Regs σ Byte := busRead8 bus (a.setWidth 24)

def wr (a : BitVec 16) (v : Byte) : CoreM Regs σ Unit := busWrite8 bus (a.setWidth 24) v

def fetch : CoreM Regs σ Byte := do
  let r ← getRegs
  let v ← rd bus r.pc
  modifyRegs fun r => { r with pc := r.pc + 1 }
  return v

def fetch16 : CoreM Regs σ (BitVec 16) := do
  let lo ← fetch bus
  let hi ← fetch bus
  return hi ++ lo

def rd16 (a : BitVec 16) : CoreM Regs σ (BitVec 16) := do
  let lo ← rd bus a
  let hi ← rd bus (a + 1)
  return hi ++ lo

/-- The high byte comes from the page of the low byte. -/
def rd16WrapPage (a : BitVec 16) : CoreM Regs σ (BitVec 16) := do
  let lo ← rd bus a
  let hi ← rd bus ((a &&& 0xFF00) ||| ((a + 1) &&& 0x00FF))
  return hi ++ lo

def stackAddr (s : Byte) : BitVec 16 := 0x0100 ||| s.setWidth 16

def push (v : Byte) : CoreM Regs σ Unit := do
  let r ← getRegs
  wr bus (stackAddr r.s) v
  modifyRegs fun r => { r with s := r.s - 1 }

def pop : CoreM Regs σ Byte := do
  modifyRegs fun r => { r with s := r.s + 1 }
  let r ← getRegs
  rd bus (stackAddr r.s)

def push16 (v : BitVec 16) : CoreM Regs σ Unit := do
  push bus ((v >>> 8).setWidth 8)
  push bus (v.setWidth 8)

def pop16 : CoreM Regs σ (BitVec 16) := do
  let lo ← pop bus
  let hi ← pop bus
  return hi ++ lo

def setPC (pc : BitVec 16) : CoreM Regs σ PUnit := modifyRegs fun r => { r with pc := pc }

/-! ### Effective addresses -/

def pageCrossed (base eff : BitVec 16) : ℕ := if (base ^^^ eff) &&& 0xFF00 != 0 then 1 else 0

/-- An effective address, and the cycles that its computation adds. -/
structure EA where
  addr : BitVec 16
  cyc : ℕ

/-- A pointer in page 0, which wraps there. -/
def zpPointer (z : Byte) : CoreM Regs σ (BitVec 16) := do
  let lo ← rd bus (z.setWidth 16)
  let hi ← rd bus ((z + 1).setWidth 16)
  return hi ++ lo

def eaZeroPage (index : Regs → Byte) : CoreM Regs σ EA := do
  let z ← fetch bus
  let r ← getRegs
  return ⟨(z + index r).setWidth 16, 0⟩

def indexedR (b : BitVec 16) (index : Byte) : EA :=
  ⟨b + index.setWidth 16, pageCrossed b (b + index.setWidth 16)⟩

def indexedW (b : BitVec 16) (index : Byte) : EA := ⟨b + index.setWidth 16, 0⟩

def eaAbsolute (indexed : BitVec 16 → Byte → EA) (index : Regs → Byte) : CoreM Regs σ EA := do
  let b ← fetch16 bus
  let r ← getRegs
  return indexed b (index r)

/-- The pointer operand of `(zp),Y`. -/
def izyBase : CoreM Regs σ (BitVec 16) := do
  let z ← fetch bus
  zpPointer bus z

def eaIndirectY (indexed : BitVec 16 → Byte → EA) : CoreM Regs σ EA := do
  let b ← izyBase bus
  let r ← getRegs
  return indexed b r.y

def effectiveAddress : Mode → CoreM Regs σ EA
  | .zp => do
    let z ← fetch bus
    return ⟨z.setWidth 16, 0⟩
  | .zpx => eaZeroPage bus Regs.x
  | .zpy => eaZeroPage bus Regs.y
  | .abs => do
    let a ← fetch16 bus
    return ⟨a, 0⟩
  | .abxR => eaAbsolute bus indexedR Regs.x
  | .abxW => eaAbsolute bus indexedW Regs.x
  | .abyR => eaAbsolute bus indexedR Regs.y
  | .abyW => eaAbsolute bus indexedW Regs.y
  | .izx => do
    let z ← fetch bus
    let r ← getRegs
    let a ← zpPointer bus (z + r.x)
    return ⟨a, 0⟩
  | .izyR => eaIndirectY bus indexedR
  | .izyW => eaIndirectY bus indexedW

/-! ### The families -/

/-- The result is what the instruction adds to its base cycles, here and below. -/
def execRead (op : ReadOp) : Operand → CoreM Regs σ ℕ
  | .immediate => do
    let v ← fetch bus
    modifyRegs (op.apply v)
    return 0
  | .memory mode => do
    let ea ← effectiveAddress bus mode
    let v ← rd bus ea.addr
    modifyRegs (op.apply v)
    return ea.cyc

def execStore (op : StoreOp) (mode : Mode) : CoreM Regs σ ℕ := do
  let ea ← effectiveAddress bus mode
  let r ← getRegs
  wr bus ea.addr (op.value r)
  return ea.cyc

def execRmw (rmwDummyWrite : Bool) (op : RmwOp) (mode : Mode) : CoreM Regs σ ℕ := do
  let ea ← effectiveAddress bus mode
  let v ← rd bus ea.addr
  onlyIf rmwDummyWrite (wr bus ea.addr v)
  let r ← getRegs
  modifyRegs fun r => (op.apply r v).1
  wr bus ea.addr (op.apply r v).2
  modifyRegs fun r' => r'.setZN (op.apply r v).2
  return ea.cyc

/-- P as an instruction pushes it. -/
def pushedP (p : Byte) : Byte := p ||| flagB ||| flagU

/-- P as an instruction pulls it. -/
def pulledP (p : Byte) : Byte := (p &&& ~~~flagB) ||| flagU

def execStack : StackOp → CoreM Regs σ Unit
  | .pha => do
    let r ← getRegs
    push bus r.a
  | .php => do
    let r ← getRegs
    push bus (pushedP r.p)
  | .pla => do
    let v ← pop bus
    modifyRegs fun r => { r with a := v }.setZN v
  | .plp => do
    let v ← pop bus
    modifyRegs fun r => { r with p := pulledP v }

def execFlow : FlowOp → CoreM Regs σ Unit
  | .jmp => do
    let target ← fetch16 bus
    setPC target
  | .jmpIndirect => do
    let ea ← fetch16 bus
    let target ← rd16WrapPage bus ea
    setPC target
  | .jsr => do
    let target ← fetch16 bus
    let r ← getRegs
    push16 bus (r.pc - 1)
    setPC target
  | .rts => do
    let target ← pop16 bus
    setPC (target + 1)
  | .rti => do
    let p ← pop bus
    modifyRegs fun r => { r with p := pulledP p }
    let target ← pop16 bus
    setPC target
  | .brk => do
    modifyRegs fun r => { r with pc := r.pc + 1 }
    let r ← getRegs
    push16 bus r.pc
    push bus (pushedP r.p)
    modifyRegs fun r => { r with p := r.p ||| flagI }
    let target ← rd16 bus vecIRQ
    setPC target

def execBranch (cond : Regs → Bool) : CoreM Regs σ ℕ := do
  let disp ← fetch bus
  let r ← getRegs
  let target := r.pc + disp.signExtend 16
  modifyRegs fun r => if cond r then { r with pc := target } else r
  return if cond r then 1 + pageCrossed r.pc target else 0

/-- Run a case that adds nothing to its base cycles. -/
def unpenalised (m : CoreM Regs σ Unit) : CoreM Regs σ ℕ := do
  m
  return 0

def execInstr (rmwDummyWrite : Bool) : Instr → CoreM Regs σ ℕ
  | .read op operand => execRead bus op operand
  | .store op mode => execStore bus op mode
  | .rmw op mode => execRmw bus rmwDummyWrite op mode
  | .rmwAcc op => unpenalised (modifyRegs op.applyAcc)
  | .reg op => unpenalised (modifyRegs op.apply)
  | .stack op => unpenalised (execStack bus op)
  | .flow op => unpenalised (execFlow bus op)
  | .branch flag set => execBranch bus fun r => r.flag flag == set

end Execute

/-- The cases of the switch in the order of their opcodes. -/
def instructions : List (Option Instr) :=
  [
    -- $00
    some (.flow .brk), some (.read .ora (.memory .izx)), none, none, none,
    some (.read .ora (.memory .zp)), some (.rmw .asl .zp), none, some (.stack .php),
    some (.read .ora .immediate), some (.rmwAcc .asl), none, none,
    some (.read .ora (.memory .abs)), some (.rmw .asl .abs), none,
    -- $10
    some (.branch flagN false), some (.read .ora (.memory .izyR)), none, none, none,
    some (.read .ora (.memory .zpx)), some (.rmw .asl .zpx), none, some (.reg .clc),
    some (.read .ora (.memory .abyR)), none, none, none, some (.read .ora (.memory .abxR)),
    some (.rmw .asl .abxW), none,
    -- $20
    some (.flow .jsr), some (.read .and (.memory .izx)), none, none,
    some (.read .bit (.memory .zp)), some (.read .and (.memory .zp)), some (.rmw .rol .zp), none,
    some (.stack .plp), some (.read .and .immediate), some (.rmwAcc .rol), none,
    some (.read .bit (.memory .abs)), some (.read .and (.memory .abs)), some (.rmw .rol .abs),
    none,
    -- $30
    some (.branch flagN true), some (.read .and (.memory .izyR)), none, none, none,
    some (.read .and (.memory .zpx)), some (.rmw .rol .zpx), none, some (.reg .sec),
    some (.read .and (.memory .abyR)), none, none, none, some (.read .and (.memory .abxR)),
    some (.rmw .rol .abxW), none,
    -- $40
    some (.flow .rti), some (.read .eor (.memory .izx)), none, none, none,
    some (.read .eor (.memory .zp)), some (.rmw .lsr .zp), none, some (.stack .pha),
    some (.read .eor .immediate), some (.rmwAcc .lsr), none, some (.flow .jmp),
    some (.read .eor (.memory .abs)), some (.rmw .lsr .abs), none,
    -- $50
    some (.branch flagV false), some (.read .eor (.memory .izyR)), none, none, none,
    some (.read .eor (.memory .zpx)), some (.rmw .lsr .zpx), none, some (.reg .cli),
    some (.read .eor (.memory .abyR)), none, none, none, some (.read .eor (.memory .abxR)),
    some (.rmw .lsr .abxW), none,
    -- $60
    some (.flow .rts), some (.read .adc (.memory .izx)), none, none, none,
    some (.read .adc (.memory .zp)), some (.rmw .ror .zp), none, some (.stack .pla),
    some (.read .adc .immediate), some (.rmwAcc .ror), none, some (.flow .jmpIndirect),
    some (.read .adc (.memory .abs)), some (.rmw .ror .abs), none,
    -- $70
    some (.branch flagV true), some (.read .adc (.memory .izyR)), none, none, none,
    some (.read .adc (.memory .zpx)), some (.rmw .ror .zpx), none, some (.reg .sei),
    some (.read .adc (.memory .abyR)), none, none, none, some (.read .adc (.memory .abxR)),
    some (.rmw .ror .abxW), none,
    -- $80
    none, some (.store .sta .izx), none, none, some (.store .sty .zp), some (.store .sta .zp),
    some (.store .stx .zp), none, some (.reg .dey), none, some (.reg .txa), none,
    some (.store .sty .abs), some (.store .sta .abs), some (.store .stx .abs), none,
    -- $90
    some (.branch flagC false), some (.store .sta .izyW), none, none, some (.store .sty .zpx),
    some (.store .sta .zpx), some (.store .stx .zpy), none, some (.reg .tya),
    some (.store .sta .abyW), some (.reg .txs), none, none, some (.store .sta .abxW), none, none,
    -- $A0
    some (.read .ldy .immediate), some (.read .lda (.memory .izx)), some (.read .ldx .immediate),
    none, some (.read .ldy (.memory .zp)), some (.read .lda (.memory .zp)),
    some (.read .ldx (.memory .zp)), none, some (.reg .tay), some (.read .lda .immediate),
    some (.reg .tax), none, some (.read .ldy (.memory .abs)), some (.read .lda (.memory .abs)),
    some (.read .ldx (.memory .abs)), none,
    -- $B0
    some (.branch flagC true), some (.read .lda (.memory .izyR)), none, none,
    some (.read .ldy (.memory .zpx)), some (.read .lda (.memory .zpx)),
    some (.read .ldx (.memory .zpy)), none, some (.reg .clv), some (.read .lda (.memory .abyR)),
    some (.reg .tsx), none, some (.read .ldy (.memory .abxR)), some (.read .lda (.memory .abxR)),
    some (.read .ldx (.memory .abyR)), none,
    -- $C0
    some (.read .cpy .immediate), some (.read .cmp (.memory .izx)), none, none,
    some (.read .cpy (.memory .zp)), some (.read .cmp (.memory .zp)), some (.rmw .dec .zp), none,
    some (.reg .iny), some (.read .cmp .immediate), some (.reg .dex), none,
    some (.read .cpy (.memory .abs)), some (.read .cmp (.memory .abs)), some (.rmw .dec .abs),
    none,
    -- $D0
    some (.branch flagZ false), some (.read .cmp (.memory .izyR)), none, none, none,
    some (.read .cmp (.memory .zpx)), some (.rmw .dec .zpx), none, some (.reg .cld),
    some (.read .cmp (.memory .abyR)), none, none, none, some (.read .cmp (.memory .abxR)),
    some (.rmw .dec .abxW), none,
    -- $E0
    some (.read .cpx .immediate), some (.read .sbc (.memory .izx)), none, none,
    some (.read .cpx (.memory .zp)), some (.read .sbc (.memory .zp)), some (.rmw .inc .zp), none,
    some (.reg .inx), some (.read .sbc .immediate), some (.reg .nop), none,
    some (.read .cpx (.memory .abs)), some (.read .sbc (.memory .abs)), some (.rmw .inc .abs),
    none,
    -- $F0
    some (.branch flagZ true), some (.read .sbc (.memory .izyR)), none, none, none,
    some (.read .sbc (.memory .zpx)), some (.rmw .inc .zpx), none, some (.reg .sed),
    some (.read .sbc (.memory .abyR)), none, none, none, some (.read .sbc (.memory .abxR)),
    some (.rmw .inc .abxW), none]

/-- The case of an opcode, if the switch has one besides its default. -/
def decode (opcode : Byte) : Option Instr := instructions.getD opcode.toNat none

/-- Does the default case halt the core? -/
def jams (opcode : Byte) : Bool := (decode opcode).isNone && (opcodeInfo opcode).cycles == 0

section Execute

variable {σ : Type} (bus : CpuBus σ)

/-- The default case. A jam leaves the program counter on the opcode. -/
def execUndocumented (opcode : Byte) : CoreM Regs σ ℕ :=
  let info := opcodeInfo opcode
  if info.cycles = 0 then do
    modifyRegs fun r => { r with pc := r.pc - 1 }
    return 1
  else do
    modifyRegs fun r => { r with pc := r.pc + BitVec.ofNat 16 (modeLength info.mode) - 1 }
    return info.cycles

/-- An instruction, the opcode already fetched, with the cycles that it takes. -/
def execOpcode (rmwDummyWrite : Bool) (opcode : Byte) : CoreM Regs σ ℕ :=
  match decode opcode with
  | some instr => do
    let cyc ← execInstr bus rmwDummyWrite instr
    return (opcodeInfo opcode).cycles + cyc
  | none => execUndocumented opcode

end Execute

end M6502

end ScpuEmu
