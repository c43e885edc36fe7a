import ScpuEmu.Cpu.W65C816.Addressing
import ScpuEmu.Cpu.W65C816.Opcodes

/-!
# Instructions of the 65C816

The generic switch of `CW65C816::stepInner`. Its cases fall into families that
differ in an addressing mode and in an operation on the registers; `decode` lists
the cases in the order of their opcodes.
-/

namespace ScpuEmu

namespace W65C816

inductive Operand
  | immediate
  | memory (mode : Mode)

/-- Operations on the accumulator and an operand of its width. -/
inductive AccOp
  | lda | and | ora | eor | bit | adc | sbc | cmp

/-- Operations on an index register and an operand of its width. -/
inductive IndexOp
  | ldx | ldy | cpx | cpy

inductive StoreOp
  | sta | stx | sty | stz

inductive RmwOp
  | asl | lsr | rol | ror | inc | dec | tsb | trb

/-- Instructions that change nothing but registers. -/
inductive RegOp
  | tax | tay | txa | tya | tsx | txs | txy | tyx | tcd | tdc | tcs | tsc | xba
  | inx | iny | dex | dey
  | clc | sec | cli | sei | clv | cld | sed
  | xce | nop

inductive PushOp
  | pha | phx | phy | php | phb | phk | phd | pea | pei | per

inductive PullOp
  | pla | plx | ply | plp | plb | pld

inductive JumpOp
  | jmp | jmpIndirect | jmpIndirectX | jml | jmlIndirect
  | jsr | jsrIndirectX | jsl | rts | rtl | rti

inductive Instr
  | acc (op : AccOp) (operand : Operand)
  | index (op : IndexOp) (operand : Operand)
  | store (op : StoreOp) (mode : Mode)
  | rmw (op : RmwOp) (mode : Mode)
  | rmwAcc (op : RmwOp)
  | reg (op : RegOp)
  | push (op : PushOp)
  | pull (op : PullOp)
  | jump (op : JumpOp)
  | branch (flag : Byte) (set : Bool)
  | bra
  | brl
  | rep
  | sep
  | blockMove (up : Bool)
  | brk
  | cop
  | wdm
  | stp
  | wai

/-! ### Operations on the registers -/

def AccOp.apply (op : AccOp) (immediate m8Entry : Bool) (v : BitVec 16) (r : Regs) : Regs :=
  match op with
  | .lda => (r.setAcc v).setZNM v
  | .and =>
    let r := r.setAcc (r.getAcc &&& v)
    r.setZNM r.getAcc
  | .ora =>
    let r := r.setAcc (r.getAcc ||| v)
    r.setZNM r.getAcc
  | .eor =>
    let r := r.setAcc (r.getAcc ^^^ v)
    r.setZNM r.getAcc
  | .bit => r.opBIT v immediate
  | .adc => r.opADC v
  | .sbc => r.opSBC v
  | .cmp => r.opCMP r.getAcc v m8Entry

def IndexOp.apply (op : IndexOp) (x8Entry : Bool) (v : BitVec 16) (r : Regs) : Regs :=
  match op with
  | .ldx => { r with x := v }.setZNX v
  | .ldy => { r with y := v }.setZNX v
  | .cpx => r.opCMP r.getX v x8Entry
  | .cpy => r.opCMP r.getY v x8Entry

/-- What a read-modify-write makes of its operand, and of the flags before the write. -/
def RmwOp.apply (op : RmwOp) (r : Regs) (t : BitVec 16) : Regs × BitVec 16 :=
  let top := Regs.signBit r.m8
  match op with
  | .asl => (r.setFlag flagC (t &&& top != 0), t <<< 1)
  | .lsr => (r.setFlag flagC (t &&& 1 != 0), if r.m8 then (t >>> 1) &&& 0x7F else t >>> 1)
  | .rol =>
    let cin : BitVec 16 := if r.flag flagC then 1 else 0
    (r.setFlag flagC (t &&& top != 0), (t <<< 1) ||| cin)
  | .ror =>
    let cin : BitVec 16 := if r.flag flagC then top else 0
    let rotated := (t >>> 1) ||| cin
    (r.setFlag flagC (t &&& 1 != 0), if r.m8 then rotated &&& 0xFF else rotated)
  | .inc => (r, t + 1)
  | .dec => (r, t - 1)
  | .tsb => (r.setFlag flagZ (r.getAcc &&& t == 0), t ||| r.getAcc)
  | .trb => (r.setFlag flagZ (r.getAcc &&& t == 0), t &&& ~~~r.getAcc)

/-- TSB and TRB leave N alone. -/
def RmwOp.finish (op : RmwOp) (t : BitVec 16) (r : Regs) : Regs :=
  match op with
  | .tsb | .trb => r
  | _ => r.setZNM t

def RmwOp.applyAcc (op : RmwOp) (r : Regs) : Regs :=
  let (r', t) := op.apply r r.getAcc
  let r' := r'.setAcc t
  r'.setZNM r'.getAcc

/-- A register transfer cut to the width of the index registers. -/
def Regs.narrow (r : Regs) (v : BitVec 16) : BitVec 16 := if r.x8 then v &&& 0xFF else v

def RegOp.apply (op : RegOp) (r : Regs) : Regs :=
  match op with
  | .tax => { r with x := r.narrow r.c }.setZNX (r.narrow r.c)
  | .tay => { r with y := r.narrow r.c }.setZNX (r.narrow r.c)
  | .txa =>
    let r := r.setAcc r.getX
    r.setZNM r.getAcc
  | .tya =>
    let r := r.setAcc r.getY
    r.setZNM r.getAcc
  | .tsx => { r with x := r.narrow r.s }.setZNX (r.narrow r.s)
  | .txs => { r with s := if r.e then 0x0100 ||| (r.x &&& 0xFF) else r.getX }
  | .txy => { r with y := r.narrow r.x }.setZNX (r.narrow r.x)
  | .tyx => { r with x := r.narrow r.y }.setZNX (r.narrow r.y)
  | .tcd =>
    -- no call of applyE here: only the direct-page bit of the key changes
    let r := { r with d := r.c }.setZN16 r.c
    { r with cycKey := (r.cycKey &&& ~~~8) ||| (if r.dpUnaligned then 8 else 0) }
  | .tdc => { r with c := r.d }.setZN16 r.d
  | .tcs => { r with s := if r.e then 0x0100 ||| (r.c &&& 0xFF) else r.c }
  | .tsc => { r with c := r.s }.setZN16 r.s
  | .xba =>
    let r := { r with c := (r.c >>> 8) ||| (r.c <<< 8) }
    r.setZN8 r.getA
  | .inx => { r with x := r.narrow (r.x + 1) }.setZNX (r.narrow (r.x + 1))
  | .iny => { r with y := r.narrow (r.y + 1) }.setZNX (r.narrow (r.y + 1))
  | .dex => { r with x := r.narrow (r.x - 1) }.setZNX (r.narrow (r.x - 1))
  | .dey => { r with y := r.narrow (r.y - 1) }.setZNX (r.narrow (r.y - 1))
  | .clc => r.setFlag flagC false
  | .sec => r.setFlag flagC true
  | .cli => r.setFlag flagI false
  | .sei => r.setFlag flagI true
  | .clv => r.setFlag flagV false
  | .cld => r.setFlag flagD false
  | .sed => r.setFlag flagD true
  | .xce => ({ r with e := r.flag flagC }.setFlag flagC r.e).applyE
  | .nop => r

section Execute

variable {σ : Type} (bus : CpuBus σ)

/-! ### Loads, stores and read-modify-writes -/

def noPenalty : Penalty := ⟨false, false⟩

def EA.penalty (ea : EA) : Penalty := ⟨ea.pageCross, false⟩

def execAcc (op : AccOp) (m8Entry : Bool) : Operand → CoreM Regs σ Penalty
  | .immediate => do
    let v ← immediateM bus
    modifyRegs (op.apply true m8Entry v)
    return noPenalty
  | .memory mode => do
    let ea ← effectiveAddress bus mode
    let v ← readM bus ea
    modifyRegs (op.apply false m8Entry v)
    return ea.penalty

def execIndex (op : IndexOp) (x8Entry : Bool) : Operand → CoreM Regs σ Penalty
  | .immediate => do
    let v ← immediateX bus
    modifyRegs (op.apply x8Entry v)
    return noPenalty
  | .memory mode => do
    let ea ← effectiveAddress bus mode
    let v ← readX bus ea
    modifyRegs (op.apply x8Entry v)
    return ea.penalty

def storeOperand (op : StoreOp) (ea : EA) : CoreM Regs σ Unit := do
  let r ← getRegs
  match op with
  | .sta => writeM bus ea r.getAcc
  | .stx => writeX bus ea r.x
  | .sty => writeX bus ea r.y
  | .stz => writeM bus ea 0

def execStore (op : StoreOp) (mode : Mode) : CoreM Regs σ Penalty := do
  let ea ← effectiveAddress bus mode
  storeOperand bus op ea
  return ea.penalty

def execRmw (op : RmwOp) (mode : Mode) : CoreM Regs σ Penalty := do
  let ea ← effectiveAddress bus mode
  let v ← readM bus ea
  let r ← getRegs
  modifyRegs fun r => (op.apply r v).1
  rmwWrite bus ea v (op.apply r v).2
  modifyRegs (op.finish (op.apply r v).2)
  return ea.penalty

/-! ### The stack -/

def pushAs (narrow : Bool) (v : BitVec 16) : CoreM Regs σ Unit :=
  if narrow then push8 bus (v.setWidth 8) else push16 bus v

def execPush (op : PushOp) : CoreM Regs σ Unit := do
  let r ← getRegs
  match op with
  | .pha => pushAs bus r.m8 r.c
  | .phx => pushAs bus r.x8 r.x
  | .phy => pushAs bus r.x8 r.y
  | .php => push8 bus (if r.e then r.p ||| flagB else r.p)
  | .phb => push8 bus r.dbr
  | .phk => push8 bus r.pbr
  | .phd =>
    push16New bus r.d
    modifyRegs Regs.applyE
  | .pea =>
    let v ← fetch16 bus
    push16New bus v
    modifyRegs Regs.applyE
  | .pei =>
    let ea ← eaDirect bus
    let v ← read16Bank0 bus (ea.addr.setWidth 16)
    push16New bus v
    modifyRegs Regs.applyE
  | .per =>
    let disp ← fetch16 bus
    let r ← getRegs
    push16New bus (r.pc + disp)
    modifyRegs Regs.applyE

def pullAs (narrow : Bool) : CoreM Regs σ (BitVec 16) :=
  if narrow then (·.setWidth 16) <$> pull8 bus else pull16 bus

def execPull (op : PullOp) : CoreM Regs σ Unit := do
  let r ← getRegs
  match op with
  | .pla =>
    let v ← pullAs bus r.m8
    modifyRegs fun r => (r.setAcc v).setZNM v
  | .plx =>
    let v ← pullAs bus r.x8
    modifyRegs fun r => { r with x := v }.setZNX v
  | .ply =>
    let v ← pullAs bus r.x8
    modifyRegs fun r => { r with y := v }.setZNX v
  | .plp =>
    let v ← pull8 bus
    modifyRegs fun r => { r with p := v }.applyE
  | .plb =>
    let v ← pull8 bus
    modifyRegs fun r => { r with dbr := v }.setZN8 v
  | .pld =>
    let v ← pull16New bus
    modifyRegs fun r => ({ r with d := v }.setZN16 v).applyE

/-! ### Jumps and branches -/

/-- The pointer of `(abs,X)` lies in the program bank. -/
def readProgramPointer (ptr : BitVec 16) : CoreM Regs σ (BitVec 16) := do
  let r ← getRegs
  let lo ← busRead8 bus (r.pbr ++ ptr)
  let hi ← busRead8 bus (r.pbr ++ (ptr + 1))
  return hi ++ lo

def setPC (pc : BitVec 16) : CoreM Regs σ PUnit := modifyRegs fun r => { r with pc := pc }

def setLongPC (target : BitVec 24) : CoreM Regs σ PUnit :=
  modifyRegs fun r => { r with pc := target.setWidth 16, pbr := (target >>> 16).setWidth 8 }

def pushPC : CoreM Regs σ Unit := do
  let r ← getRegs
  push16 bus (r.pc - 1)

def pushPCNew : CoreM Regs σ Unit := do
  let r ← getRegs
  push16New bus (r.pc - 1)

def execJump : JumpOp → CoreM Regs σ Unit
  | .jmp => do
    let target ← fetch16 bus
    setPC target
  | .jmpIndirect => do
    let ptr ← fetch16 bus
    let target ← read16Bank0 bus ptr
    setPC target
  | .jmpIndirectX => do
    let base ← fetch16 bus
    let r ← getRegs
    let target ← readProgramPointer bus (base + r.getX)
    setPC target
  | .jml => do
    let target ← fetch24 bus
    setLongPC target
  | .jmlIndirect => do
    let ptr ← fetch16 bus
    let target ← read16Bank0 bus ptr
    setPC target
    let bank ← busRead8 bus (bank0 (ptr + 2))
    modifyRegs fun r => { r with pbr := bank }
  | .jsr => do
    let target ← fetch16 bus
    pushPC bus
    setPC target
  | .jsrIndirectX => do
    let base ← fetch16 bus
    let r ← getRegs
    pushPCNew bus
    let target ← readProgramPointer bus (base + r.getX)
    setPC target
    modifyRegs Regs.applyE
  | .jsl => do
    let target ← fetch24 bus
    let r ← getRegs
    push8New bus r.pbr
    pushPCNew bus
    setLongPC target
    modifyRegs Regs.applyE
  | .rts => do
    let target ← pull16 bus
    setPC (target + 1)
  | .rtl => do
    let target ← pull16New bus
    setPC (target + 1)
    let bank ← pull8New bus
    modifyRegs fun r => { r with pbr := bank }
    modifyRegs Regs.applyE
  | .rti => do
    let p ← pull8 bus
    modifyRegs fun r => { r with p := p }
    let target ← pull16 bus
    setPC target
    let r ← getRegs
    if r.e then modifyRegs Regs.applyE
    else
      let bank ← pull8 bus
      modifyRegs fun r => { r with pbr := bank }
      modifyRegs Regs.applyE

def Regs.branchTo (r : Regs) (target : BitVec 16) (cond : Bool) : Regs :=
  if cond then { r with pc := target } else r

/-- The target stays in the program bank. -/
def execBranch (cond : Regs → Bool) : CoreM Regs σ Penalty := do
  let disp ← fetch8 bus
  let r ← getRegs
  let target := r.pc + disp.signExtend 16
  modifyRegs fun r => r.branchTo target (cond r)
  return ⟨crossesPage r.pc target, cond r⟩

/-! ### Block moves -/

def blockStep (up : Bool) (v : BitVec 16) : BitVec 16 := if up then v + 1 else v - 1

/-- The program counter stays on the opcode until the count runs out. -/
def Regs.finishMove (r : Regs) (up : Bool) (dstBank : Byte) : Regs :=
  { r with
    dbr := dstBank
    x := r.narrow (blockStep up r.x)
    y := r.narrow (blockStep up r.y)
    c := r.c - 1
    pc := if r.c - 1 != 0xFFFF then r.pc - 3 else r.pc }

def execBlockMove (up : Bool) : CoreM Regs σ Unit := do
  let dstBank ← fetch8 bus
  let srcBank ← fetch8 bus
  let r ← getRegs
  let v ← busRead8 bus (srcBank ++ r.getX)
  busWrite8 bus (dstBank ++ r.getY) v
  modifyRegs fun r => r.finishMove up dstBank

/-! ### Interrupt entry -/

structure Vector where
  native : BitVec 16
  emulation : BitVec 16

def vecCOP : Vector := ⟨0xFFE4, 0xFFF4⟩

def vecBRK : Vector := ⟨0xFFE6, 0xFFFE⟩

def vecNMI : Vector := ⟨0xFFEA, 0xFFFA⟩

def vecIRQ : Vector := ⟨0xFFEE, 0xFFFE⟩

def vecReset : BitVec 16 := 0xFFFC

def pushFrame (isBRKorCOP : Bool) : CoreM Regs σ Unit := do
  let r ← getRegs
  if r.e then
    push16 bus r.pc
    push8 bus (if isBRKorCOP then r.p ||| flagB else r.p &&& ~~~flagB)
  else
    push8 bus r.pbr
    push16 bus r.pc
    push8 bus r.p

/-- A bus may answer the vector fetch from elsewhere. -/
def readVector (vec : BitVec 16) : CoreM Regs σ (BitVec 16) := do
  let core ← get
  if bus.interruptRerouteActive core.bus core.regs.e then
    busReply fun s => bus.rerouteVector s vec
  else read16Bank0 bus vec

def serviceInterrupt (vector : Vector) (isBRKorCOP : Bool) : CoreM Regs σ Unit := do
  pushFrame bus isBRKorCOP
  modifyRegs fun r => { r with p := (r.p ||| flagI) &&& ~~~flagD, pbr := 0 }
  let r ← getRegs
  let target ← readVector bus (if r.e then vector.emulation else vector.native)
  setPC target
  modifyRegs Regs.applyE

/-! ### The switch -/

/-- Run an instruction without penalties. -/
def unpenalised (m : CoreM Regs σ Unit) : CoreM Regs σ Penalty := do
  m
  return noPenalty

def execInstr (m8Entry x8Entry : Bool) : Instr → CoreM Regs σ Penalty
  | .acc op operand => execAcc bus op m8Entry operand
  | .index op operand => execIndex bus op x8Entry operand
  | .store op mode => execStore bus op mode
  | .rmw op mode => execRmw bus op mode
  | .rmwAcc op => unpenalised (modifyRegs op.applyAcc)
  | .reg op => unpenalised (modifyRegs op.apply)
  | .push op => unpenalised (execPush bus op)
  | .pull op => unpenalised (execPull bus op)
  | .jump op => unpenalised (execJump bus op)
  | .branch flag set => execBranch bus fun r => r.flag flag == set
  | .bra => execBranch bus fun _ => true
  | .brl => unpenalised do
    let disp ← fetch16 bus
    modifyRegs fun r => { r with pc := r.pc + disp }
  | .rep => unpenalised do
    let mask ← fetch8 bus
    modifyRegs fun r => { r with p := r.p &&& ~~~mask }.applyE
  | .sep => unpenalised do
    let mask ← fetch8 bus
    modifyRegs fun r => { r with p := r.p ||| mask }.applyE
  | .blockMove up => unpenalised (execBlockMove bus up)
  | .brk => unpenalised do
    let _ ← fetch8 bus
    serviceInterrupt bus vecBRK true
  | .cop => unpenalised do
    let _ ← fetch8 bus
    serviceInterrupt bus vecCOP true
  | .wdm => unpenalised do
    let _ ← fetch8 bus
    pure ()
  -- what STP and WAI do to the interrupt logic is `Instr.park`
  | .stp | .wai => pure noPenalty

end Execute

/-- The cases of the switch in the order of their opcodes. -/
def instructions : List Instr :=
  [
    -- $00
    .brk, .acc .ora (.memory .indirectX), .cop, .acc .ora (.memory .stackRelative),
    .rmw .tsb .direct, .acc .ora (.memory .direct), .rmw .asl .direct,
    .acc .ora (.memory .indirectLong), .push .php, .acc .ora .immediate, .rmwAcc .asl,
    .push .phd, .rmw .tsb .absolute, .acc .ora (.memory .absolute), .rmw .asl .absolute,
    .acc .ora (.memory .long),
    -- $10
    .branch flagN false, .acc .ora (.memory .indirectY), .acc .ora (.memory .indirect),
    .acc .ora (.memory .stackRelativeIndirectY), .rmw .trb .direct, .acc .ora (.memory .directX),
    .rmw .asl .directX, .acc .ora (.memory .indirectLongY), .reg .clc,
    .acc .ora (.memory .absoluteY), .rmwAcc .inc, .reg .tcs, .rmw .trb .absolute,
    .acc .ora (.memory .absoluteX), .rmw .asl .absoluteX, .acc .ora (.memory .longX),
    -- $20
    .jump .jsr, .acc .and (.memory .indirectX), .jump .jsl, .acc .and (.memory .stackRelative),
    .acc .bit (.memory .direct), .acc .and (.memory .direct), .rmw .rol .direct,
    .acc .and (.memory .indirectLong), .pull .plp, .acc .and .immediate, .rmwAcc .rol,
    .pull .pld, .acc .bit (.memory .absolute), .acc .and (.memory .absolute),
    .rmw .rol .absolute, .acc .and (.memory .long),
    -- $30
    .branch flagN true, .acc .and (.memory .indirectY), .acc .and (.memory .indirect),
    .acc .and (.memory .stackRelativeIndirectY), .acc .bit (.memory .directX),
    .acc .and (.memory .directX), .rmw .rol .directX, .acc .and (.memory .indirectLongY),
    .reg .sec, .acc .and (.memory .absoluteY), .rmwAcc .dec, .reg .tsc,
    .acc .bit (.memory .absoluteX), .acc .and (.memory .absoluteX), .rmw .rol .absoluteX,
    .acc .and (.memory .longX),
    -- $40
    .jump .rti, .acc .eor (.memory .indirectX), .wdm, .acc .eor (.memory .stackRelative),
    .blockMove false, .acc .eor (.memory .direct), .rmw .lsr .direct,
    .acc .eor (.memory .indirectLong), .push .pha, .acc .eor .immediate, .rmwAcc .lsr,
    .push .phk, .jump .jmp, .acc .eor (.memory .absolute), .rmw .lsr .absolute,
    .acc .eor (.memory .long),
    -- $50
    .branch flagV false, .acc .eor (.memory .indirectY), .acc .eor (.memory .indirect),
    .acc .eor (.memory .stackRelativeIndirectY), .blockMove true, .acc .eor (.memory .directX),
    .rmw .lsr .directX, .acc .eor (.memory .indirectLongY), .reg .cli,
    .acc .eor (.memory .absoluteY), .push .phy, .reg .tcd, .jump .jml,
    .acc .eor (.memory .absoluteX), .rmw .lsr .absoluteX, .acc .eor (.memory .longX),
    -- $60
    .jump .rts, .acc .adc (.memory .indirectX), .push .per, .acc .adc (.memory .stackRelative),
    .store .stz .direct, .acc .adc (.memory .direct), .rmw .ror .direct,
    .acc .adc (.memory .indirectLong), .pull .pla, .acc .adc .immediate, .rmwAcc .ror,
    .jump .rtl, .jump .jmpIndirect, .acc .adc (.memory .absolute), .rmw .ror .absolute,
    .acc .adc (.memory .long),
    -- $70
    .branch flagV true, .acc .adc (.memory .indirectY), .acc .adc (.memory .indirect),
    .acc .adc (.memory .stackRelativeIndirectY), .store .stz .directX,
    .acc .adc (.memory .directX), .rmw .ror .directX, .acc .adc (.memory .indirectLongY),
    .reg .sei, .acc .adc (.memory .absoluteY), .pull .ply, .reg .tdc, .jump .jmpIndirectX,
    .acc .adc (.memory .absoluteX), .rmw .ror .absoluteX, .acc .adc (.memory .longX),
    -- $80
    .bra, .store .sta .indirectX, .brl, .store .sta .stackRelative, .store .sty .direct,
    .store .sta .direct, .store .stx .direct, .store .sta .indirectLong, .reg .dey,
    .acc .bit .immediate, .reg .txa, .push .phb, .store .sty .absolute, .store .sta .absolute,
    .store .stx .absolute, .store .sta .long,
    -- $90
    .branch flagC false, .store .sta .indirectY, .store .sta .indirect,
    .store .sta .stackRelativeIndirectY, .store .sty .directX, .store .sta .directX,
    .store .stx .directY, .store .sta .indirectLongY, .reg .tya, .store .sta .absoluteY,
    .reg .txs, .reg .txy, .store .stz .absolute, .store .sta .absoluteX, .store .stz .absoluteX,
    .store .sta .longX,
    -- $A0
    .index .ldy .immediate, .acc .lda (.memory .indirectX), .index .ldx .immediate,
    .acc .lda (.memory .stackRelative), .index .ldy (.memory .direct),
    .acc .lda (.memory .direct), .index .ldx (.memory .direct),
    .acc .lda (.memory .indirectLong), .reg .tay, .acc .lda .immediate, .reg .tax, .pull .plb,
    .index .ldy (.memory .absolute), .acc .lda (.memory .absolute),
    .index .ldx (.memory .absolute), .acc .lda (.memory .long),
    -- $B0
    .branch flagC true, .acc .lda (.memory .indirectY), .acc .lda (.memory .indirect),
    .acc .lda (.memory .stackRelativeIndirectY), .index .ldy (.memory .directX),
    .acc .lda (.memory .directX), .index .ldx (.memory .directY),
    .acc .lda (.memory .indirectLongY), .reg .clv, .acc .lda (.memory .absoluteY), .reg .tsx,
    .reg .tyx, .index .ldy (.memory .absoluteX), .acc .lda (.memory .absoluteX),
    .index .ldx (.memory .absoluteY), .acc .lda (.memory .longX),
    -- $C0
    .index .cpy .immediate, .acc .cmp (.memory .indirectX), .rep,
    .acc .cmp (.memory .stackRelative), .index .cpy (.memory .direct),
    .acc .cmp (.memory .direct), .rmw .dec .direct, .acc .cmp (.memory .indirectLong), .reg .iny,
    .acc .cmp .immediate, .reg .dex, .wai, .index .cpy (.memory .absolute),
    .acc .cmp (.memory .absolute), .rmw .dec .absolute, .acc .cmp (.memory .long),
    -- $D0
    .branch flagZ false, .acc .cmp (.memory .indirectY), .acc .cmp (.memory .indirect),
    .acc .cmp (.memory .stackRelativeIndirectY), .push .pei, .acc .cmp (.memory .directX),
    .rmw .dec .directX, .acc .cmp (.memory .indirectLongY), .reg .cld,
    .acc .cmp (.memory .absoluteY), .push .phx, .stp, .jump .jmlIndirect,
    .acc .cmp (.memory .absoluteX), .rmw .dec .absoluteX, .acc .cmp (.memory .longX),
    -- $E0
    .index .cpx .immediate, .acc .sbc (.memory .indirectX), .sep,
    .acc .sbc (.memory .stackRelative), .index .cpx (.memory .direct),
    .acc .sbc (.memory .direct), .rmw .inc .direct, .acc .sbc (.memory .indirectLong), .reg .inx,
    .acc .sbc .immediate, .reg .nop, .reg .xba, .index .cpx (.memory .absolute),
    .acc .sbc (.memory .absolute), .rmw .inc .absolute, .acc .sbc (.memory .long),
    -- $F0
    .branch flagZ true, .acc .sbc (.memory .indirectY), .acc .sbc (.memory .indirect),
    .acc .sbc (.memory .stackRelativeIndirectY), .push .pea, .acc .sbc (.memory .directX),
    .rmw .inc .directX, .acc .sbc (.memory .indirectLongY), .reg .sed,
    .acc .sbc (.memory .absoluteY), .pull .plx, .reg .xce, .jump .jsrIndirectX,
    .acc .sbc (.memory .absoluteX), .rmw .inc .absoluteX, .acc .sbc (.memory .longX)]

def decode (opcode : Byte) : Instr := instructions.getD opcode.toNat .wdm

section Execute

variable {σ : Type} (bus : CpuBus σ)

/-- An instruction of the generic switch, the opcode already fetched, with the cycles
it takes. Widths and cycles are those of the state it starts in. -/
def execGeneric (opcode : Byte) : CoreM Regs σ ℕ := do
  let r ← getRegs
  let penalty ← execInstr bus (r.cycKey &&& 1 != 0) (r.cycKey &&& 2 != 0) (decode opcode)
  return cyclesUsed r.cycKey opcode penalty

end Execute

end W65C816

end ScpuEmu
