import ScpuEmu.Cpu.Emulation.Programs

/-!
# Instructions in emulation mode

The families of instructions of the two processors, side by side on the same memory.
-/

namespace ScpuEmu

namespace W65C816

open Library

open M6502 (rd wr)

def operandOf : M6502.Operand → Operand
  | .immediate => .immediate
  | .memory mode => .memory (modeOf mode)

def storeOp : M6502.StoreOp → StoreOp
  | .sta => .sta
  | .stx => .stx
  | .sty => .sty

/-- The instruction of the 65C816 with the encoding of an instruction of the 6502. -/
def instrOf : M6502.Instr → Instr
  | .read op operand =>
    match readOp op with
    | .inl op => .acc op (operandOf operand)
    | .inr op => .index op (operandOf operand)
  | .store op mode => .store (storeOp op) (modeOf mode)
  | .rmw op mode => .rmw (rmwOp op) (modeOf mode)
  | .rmwAcc op => .rmwAcc (rmwOp op)
  | .reg op => .reg (regOp op)
  | .stack .pha => .push .pha
  | .stack .php => .push .php
  | .stack .pla => .pull .pla
  | .stack .plp => .pull .plp
  | .flow .jmp => .jump .jmp
  | .flow .jmpIndirect => .jump .jmpIndirect
  | .flow .jsr => .jump .jsr
  | .flow .rts => .jump .rts
  | .flow .rti => .jump .rti
  | .flow .brk => .brk
  | .branch flag set => .branch flag set

/-- What an instruction of the 6502 adds to its base cycles. -/
def extraCycles : M6502.Instr → Penalty → ℕ
  | .read _ (.memory mode), penalty => (countsCross mode && penalty.pageCross).toNat
  | .store _ mode, penalty => (countsCross mode && penalty.pageCross).toNat
  | .rmw _ mode, penalty => (countsCross mode && penalty.pageCross).toNat
  | .branch _ _, penalty => if penalty.branchTaken then 1 + penalty.pageCross.toNat else 0
  | _, _ => 0

/-- The flags in which the two processors differ by design after an instruction. -/
def exempt : M6502.Instr → M6502.Regs → Byte
  | .read op _, q => readExempt op q
  | .flow .brk, _ => M6502.flagD
  | _, _ => 0

/-- The instruction, about to fetch its operand, means the same address to both processors:
no index takes it past $FFFF, and no indirect jump reads its target at $xxFF. -/
def SameAddress (ref : Core M6502.Regs FlatMemory) : M6502.Instr → Prop
  | .read _ (.memory mode) => InBank ref mode
  | .store _ mode => InBank ref mode
  | .rmw _ mode => InBank ref mode
  | .flow .jmpIndirect => ((M6502.fetch16 flatBus).run ref).1 &&& 0xFF ≠ 0xFF
  | _ => True

section Instructions

variable {b mask : Byte} {core : Core Regs FlatMemory} {ref : Core M6502.Regs FlatMemory}

/-- The last change of the registers, up to some flags. -/
theorem lockstepBut_modifyRegs {f : Regs → Regs} {g : M6502.Regs → M6502.Regs}
    (h : Lockstep b core ref)
    (hfg : ∃ q', SameBut mask q' (g ref.regs) ∧ f (emulate b ref.regs) = emulate b q') :
    Paired Eq (LockstepBut mask b) ((modifyRegs f).run core) ((modifyRegs g).run ref) := by
  obtain ⟨q', hsame, hf⟩ := hfg
  exact ⟨rfl, ⟨q', hsame, (congrArg f h.regs).trans hf⟩, h.bus⟩

theorem p_effectiveAddress (mode : M6502.Mode) :
    ((M6502.effectiveAddress flatBus mode).run ref).2.regs.p = ref.regs.p := by
  cases mode <;> rfl

theorem readExempt_congr (op : M6502.ReadOp) {q q' : M6502.Regs} (h : q'.p = q.p) :
    readExempt op q' = readExempt op q := by
  have hd : q'.flag M6502.flagD = q.flag M6502.flagD := congrArg (· &&& M6502.flagD != 0) h
  cases op <;> first | rfl | exact congrArg (fun d : Bool => if d then _ else _) hd

/-! ### Loads and stores -/

theorem paired_readM (h : Lockstep b core ref) {ea : EA} {a : BitVec 16}
    (ha : ea.addr = bank0 a) :
    Paired (fun v w => v = w.setWidth 16) (Lockstep b) ((readM flatBus ea).run core)
      ((rd flatBus a).run ref) := by
  rw [readM, run_getRegs_bind, h.regs]
  exact (paired_rd h ha).map_left fun v hv => congrArg (·.setWidth 16) hv

theorem paired_readX (h : Lockstep b core ref) {ea : EA} {a : BitVec 16}
    (ha : ea.addr = bank0 a) :
    Paired (fun v w => v = w.setWidth 16) (Lockstep b) ((readX flatBus ea).run core)
      ((rd flatBus a).run ref) := by
  rw [readX, run_getRegs_bind, h.regs]
  exact (paired_rd h ha).map_left fun v hv => congrArg (·.setWidth 16) hv

theorem paired_immediateM (h : Lockstep b core ref) :
    Paired (fun v w => v = w.setWidth 16) (Lockstep b) ((immediateM flatBus).run core)
      ((M6502.fetch flatBus).run ref) := by
  rw [immediateM, run_getRegs_bind, h.regs]
  exact (paired_fetch h).map_left fun v hv => congrArg (·.setWidth 16) hv

theorem paired_immediateX (h : Lockstep b core ref) :
    Paired (fun v w => v = w.setWidth 16) (Lockstep b) ((immediateX flatBus).run core)
      ((M6502.fetch flatBus).run ref) := by
  rw [immediateX, run_getRegs_bind, h.regs]
  exact (paired_fetch h).map_left fun v hv => congrArg (·.setWidth 16) hv

theorem paired_execAcc {op : M6502.ReadOp} {op' : AccOp} (hop : readOp op = .inl op')
    (operand : M6502.Operand) (hbit : ¬(op = .bit ∧ operand = .immediate))
    (h : Lockstep b core ref) (haddr : SameAddress ref (.read op operand)) :
    Paired (fun penalty cyc => cyc = extraCycles (.read op operand) penalty)
      (LockstepBut (readExempt op ref.regs) b)
      ((execAcc flatBus op' true (operandOf operand)).run core)
      ((M6502.execRead flatBus op operand).run ref) := by
  cases operand with
  | immediate =>
      rw [operandOf, execAcc, M6502.execRead]
      refine (paired_immediateM h).bind fun v core hv h => ?_
      rw [hv, ← readExempt_congr op (q := ref.regs) rfl]
      refine (lockstepBut_modifyRegs h (apply_readOp_acc b _ _ hop ?_)).bind
        fun _ core _ h => paired_pure rfl h
      exact fun h => absurd ⟨h, rfl⟩ hbit
  | memory mode =>
      rw [operandOf, execAcc, M6502.execRead]
      refine (paired_effectiveAddress mode h haddr).bind fun ea core hea h => ?_
      refine (paired_readM h hea.addr).bind fun v core hv h => ?_
      rw [hv, ← readExempt_congr op (p_effectiveAddress mode)]
      refine (lockstepBut_modifyRegs h (apply_readOp_acc b _ _ hop fun _ => rfl)).bind
        fun _ core _ h => ?_
      exact paired_pure hea.cyc h

theorem paired_execIndex {op : M6502.ReadOp} {op' : IndexOp} (hop : readOp op = .inr op')
    (operand : M6502.Operand) (h : Lockstep b core ref)
    (haddr : SameAddress ref (.read op operand)) :
    Paired (fun penalty cyc => cyc = extraCycles (.read op operand) penalty) (Lockstep b)
      ((execIndex flatBus op' true (operandOf operand)).run core)
      ((M6502.execRead flatBus op operand).run ref) := by
  cases operand with
  | immediate =>
      rw [operandOf, execIndex, M6502.execRead]
      refine (paired_immediateX h).bind fun v core hv h => ?_
      rw [hv]
      exact (paired_modifyRegs h (apply_readOp_index b _ _ hop)).bind
        fun _ core _ h => paired_pure rfl h
  | memory mode =>
      rw [operandOf, execIndex, M6502.execRead]
      refine (paired_effectiveAddress mode h haddr).bind fun ea core hea h => ?_
      refine (paired_readX h hea.addr).bind fun v core hv h => ?_
      rw [hv]
      exact (paired_modifyRegs h (apply_readOp_index b _ _ hop)).bind
        fun _ core _ h => paired_pure hea.cyc h

theorem paired_writeM (h : Lockstep b core ref) {ea : EA} {a : BitVec 16}
    (ha : ea.addr = bank0 a) {v : BitVec 16} {w : Byte} (hv : v.setWidth 8 = w) :
    Paired Eq (Lockstep b) ((writeM flatBus ea v).run core) ((wr flatBus a w).run ref) := by
  rw [writeM, run_getRegs_bind, h.regs]
  exact paired_wr h ha hv

theorem paired_writeX (h : Lockstep b core ref) {ea : EA} {a : BitVec 16}
    (ha : ea.addr = bank0 a) {v : BitVec 16} {w : Byte} (hv : v.setWidth 8 = w) :
    Paired Eq (Lockstep b) ((writeX flatBus ea v).run core) ((wr flatBus a w).run ref) := by
  rw [writeX, run_getRegs_bind, h.regs]
  exact paired_wr h ha hv

theorem paired_storeOperand (op : M6502.StoreOp) (h : Lockstep b core ref) {ea : EA}
    {a : BitVec 16} (ha : ea.addr = bank0 a) :
    Paired Eq (Lockstep b) ((storeOperand flatBus (storeOp op) ea).run core)
      ((wr flatBus a (op.value ref.regs)).run ref) := by
  rw [storeOperand, run_getRegs_bind]
  cases op with
  | sta =>
      refine paired_writeM h ha ?_
      rw [h.regs, getAcc_emulate, setWidth_setWidth_byte]
      rfl
  | stx =>
      refine paired_writeX h ha ?_
      rw [h.regs]
      exact setWidth_setWidth_byte ref.regs.x
  | sty =>
      refine paired_writeX h ha ?_
      rw [h.regs]
      exact setWidth_setWidth_byte ref.regs.y

theorem paired_execStore (op : M6502.StoreOp) (mode : M6502.Mode) (h : Lockstep b core ref)
    (haddr : SameAddress ref (.store op mode)) :
    Paired (fun penalty cyc => cyc = extraCycles (.store op mode) penalty) (Lockstep b)
      ((execStore flatBus (storeOp op) (modeOf mode)).run core)
      ((M6502.execStore flatBus op mode).run ref) := by
  rw [execStore, M6502.execStore]
  refine (paired_effectiveAddress mode h haddr).bind fun ea core hea h => ?_
  rw [run_getRegs_bind]
  exact (paired_storeOperand op h hea.addr).bind fun _ core _ h => paired_pure hea.cyc h

/-- In emulation mode the original byte goes back first. -/
theorem paired_rmwWrite (h : Lockstep b core ref) {ea : EA} {a : BitVec 16}
    (ha : ea.addr = bank0 a) {v t : BitVec 16} {v' t' : Byte} (hv : v.setWidth 8 = v')
    (ht : t.setWidth 8 = t') :
    Paired Eq (Lockstep b) ((rmwWrite flatBus ea v t).run core)
      ((do wr flatBus a v'; wr flatBus a t').run ref) := by
  rw [rmwWrite, run_getRegs_bind, h.regs]
  exact (paired_wr h ha hv).bind fun _ core _ h => paired_wr h ha ht

/-- The first write of the 6502 may as well come after its change of the flags. -/
theorem run_dummyWrite (a : BitVec 16) (v : Byte) (f : M6502.Regs → M6502.Regs)
    (t : M6502.Regs → Byte) {α : Type} (k : M6502.Regs → CoreM M6502.Regs FlatMemory α) :
    (do
      onlyIf (true = true) (wr flatBus a v)
      let r ← getRegs
      modifyRegs f
      wr flatBus a (t r)
      k r).run ref =
    (do
      modifyRegs f
      (do wr flatBus a v; wr flatBus a (t ref.regs))
      k ref.regs).run ref := rfl

theorem paired_execRmw (op : M6502.RmwOp) (mode : M6502.Mode) (h : Lockstep b core ref)
    (haddr : SameAddress ref (.rmw op mode)) :
    Paired (fun penalty cyc => cyc = extraCycles (.rmw op mode) penalty) (Lockstep b)
      ((execRmw flatBus (rmwOp op) (modeOf mode)).run core)
      ((M6502.execRmw flatBus true op mode).run ref) := by
  rw [execRmw, M6502.execRmw]
  refine (paired_effectiveAddress mode h haddr).bind fun ea core hea h => ?_
  refine (paired_readM h hea.addr).bind fun v core hv h => ?_
  obtain ⟨hflags, hvalue⟩ := apply_rmwOp op b _ ((rd flatBus _).run _).1
  rw [run_getRegs_bind, h.regs, hv, run_dummyWrite]
  refine (paired_modifyRegs h hflags).bind fun _ core _ h => ?_
  refine (paired_rmwWrite h hea.addr (setWidth_setWidth_byte _) hvalue).bind fun _ core _ h => ?_
  refine (paired_modifyRegs h ?_).bind fun _ core _ h => paired_pure hea.cyc h
  rw [finish_rmwOp, hvalue]

/-! ### The stack -/

theorem pushedP_emulate (q : M6502.Regs) :
    (emulate b q).p ||| flagB = M6502.pushedP q.p := by
  show (q.p ||| 0x30) ||| 0x10 = (q.p ||| 0x10) ||| 0x20
  rw [BitVec.or_assoc, BitVec.or_assoc]
  rfl

/-- Emulation mode holds bits 4 and 5 of P at 1, and has nothing else to change. -/
theorem applyE_emulate (q : M6502.Regs) (p : Byte) :
    { emulate b q with p := p }.applyE = { emulate b q with p := p ||| 0x30 } := by
  have hs : 0x0100 ||| (M6502.stackAddr q.s &&& 0x00FF) = M6502.stackAddr q.s := by
    rw [and_low_eq_setWidth, setWidth_stackAddr]
    rfl
  have hkey : (1 ||| 2 ||| 4 ||| if (0 : BitVec 16) &&& 0xFF != 0 then 8 else 0 : Byte) =
      emuKey false := by
    decide
  exact Regs.ext rfl (setWidth_and_low q.x) (setWidth_and_low q.y) hs rfl rfl rfl rfl rfl rfl rfl
    rfl hkey

theorem pulledP_emulate (q : M6502.Regs) (v : Byte) :
    { emulate b q with p := v }.applyE = emulate b { q with p := M6502.pulledP v } := by
  have hp : v ||| 0x30 = ((v &&& ~~~M6502.flagB) ||| M6502.flagU) ||| 0x30 := by
    have hfixed : ~~~M6502.flagB ||| 0x30 = BitVec.allOnes 8 := rfl
    have hunused : M6502.flagU ||| 0x30 = 0x30 := rfl
    rw [BitVec.or_assoc, hunused, or_and_distrib, hfixed, BitVec.and_allOnes]
  rw [applyE_emulate, hp]
  rfl

theorem paired_pullAs (h : Lockstep b core ref) :
    Paired (fun v w => v = w.setWidth 16) (Lockstep b) ((pullAs flatBus true).run core)
      ((M6502.pop flatBus).run ref) :=
  (paired_pop h).map_left fun _ hv => congrArg (·.setWidth 16) hv

theorem paired_execStack (op : M6502.StackOp) (h : Lockstep b core ref) :
    Paired (fun penalty cyc => cyc = extraCycles (.stack op) penalty) (Lockstep b)
      ((execInstr flatBus true true (instrOf (.stack op))).run core)
      ((M6502.unpenalised (M6502.execStack flatBus op)).run ref) := by
  cases op with
  | pha =>
      refine Paired.bind (V := Eq) ?_ fun _ core _ h => paired_pure rfl h
      rw [execPush, M6502.execStack, run_getRegs_bind, run_getRegs_bind, h.regs]
      exact paired_push h BitVec.setWidth_append_eq_right
  | php =>
      refine Paired.bind (V := Eq) ?_ fun _ core _ h => paired_pure rfl h
      rw [execPush, M6502.execStack, run_getRegs_bind, run_getRegs_bind, h.regs]
      exact paired_push h (pushedP_emulate _)
  | pla =>
      refine Paired.bind (V := Eq) ?_ fun _ core _ h => paired_pure rfl h
      rw [execPull, M6502.execStack, run_getRegs_bind, h.regs]
      refine (paired_pullAs h).bind fun v core hv h => paired_modifyRegs h ?_
      rw [hv, setAcc_emulate, setZNM_eq rfl, setWidth_setWidth_byte, znE_emulate]
  | plp =>
      refine Paired.bind (V := Eq) ?_ fun _ core _ h => paired_pure rfl h
      rw [execPull, M6502.execStack, run_getRegs_bind]
      refine (paired_pop h).bind fun v core hv h => ?_
      rw [hv]
      exact paired_modifyRegs h (pulledP_emulate _ _)

/-! ### Jumps and branches -/

theorem paired_setPC (h : Lockstep b core ref) {target target' : BitVec 16}
    (htarget : target = target') :
    Paired Eq (Lockstep b) ((setPC target).run core) ((M6502.setPC target').run ref) := by
  rw [htarget]
  exact paired_modifyRegs h rfl

theorem and_high_eq (v : BitVec 16) : v &&& (0xFF00 : BitVec 16) = (v >>> 8) <<< 8 := by
  apply BitVec.eq_of_getLsbD_eq
  intro i hi
  have hhigh : (0xFF00 : BitVec 16).getLsbD i = decide (8 ≤ i) := by
    revert i
    decide
  rw [BitVec.getLsbD_and, hhigh, BitVec.getLsbD_shiftLeft, BitVec.getLsbD_ushiftRight]
  by_cases h : 8 ≤ i
  · simp [h, hi, Nat.not_lt_of_le h, Nat.add_sub_cancel' h]
  · simp [h, Nat.lt_of_not_le h]

/-- Outside $xxFF the 6502 reads the target of an indirect jump as a word. -/
theorem wrapPage_eq {a : BitVec 16} (h : a &&& 0xFF ≠ 0xFF) :
    (a &&& 0xFF00) ||| ((a + 1) &&& 0x00FF) = a + 1 := by
  have ha := a.isLt
  have hlow : a.toNat % 256 ≠ 255 := by
    intro hlow
    apply h
    apply BitVec.eq_of_toNat_eq
    rw [toNat_and_low]
    exact hlow
  have hhigh : (a + 1) >>> 8 = a >>> 8 := by
    apply BitVec.eq_of_toNat_eq
    have hone : (1 : BitVec 16).toNat = 1 := rfl
    rw [BitVec.toNat_ushiftRight, BitVec.toNat_ushiftRight, BitVec.toNat_add, hone,
      Nat.shiftRight_eq_div_pow, Nat.shiftRight_eq_div_pow]
    omega
  rw [and_high_eq, ← hhigh, ← and_high_eq, ← BitVec.and_or_distrib_left]
  exact BitVec.and_allOnes

theorem paired_read16Bank0 (h : Lockstep b core ref) {a a' : BitVec 16} (ha : a = a') :
    Paired Eq (Lockstep b) ((read16Bank0 flatBus a).run core)
      ((M6502.rd16 flatBus a').run ref) := by
  rw [ha]
  exact paired_word h rfl rfl

/-- RTI may as well load P last. -/
theorem run_loadP (p : Byte) (m : CoreM Regs FlatMemory Unit) :
    (do
      modifyRegs fun r : Regs => { r with p := p }
      let target ← pull16 flatBus
      setPC target
      m).run core =
    (do
      let target ← pull16 flatBus
      setPC target
      modifyRegs fun r : Regs => { r with p := p }
      m).run core := rfl

theorem run_loadP_ref (p : Byte) :
    (do
      modifyRegs fun r : M6502.Regs => { r with p := p }
      let target ← M6502.pop16 flatBus
      M6502.setPC target).run ref =
    (do
      let target ← M6502.pop16 flatBus
      M6502.setPC target
      modifyRegs fun r : M6502.Regs => { r with p := p }).run ref := rfl

theorem run_applyE (f : Regs → Regs) (he : (f core.regs).e = true)
    (m : CoreM Regs FlatMemory PUnit) :
    (do
      modifyRegs f
      let r ← getRegs
      if r.e then modifyRegs Regs.applyE else m).run core =
    (modifyRegs fun r => (f r).applyE).run core := by
  show (if (f core.regs).e then modifyRegs Regs.applyE else m).run _ = _
  rw [if_pos he]
  rfl

theorem paired_jump {op : M6502.FlowOp} {op' : JumpOp} (hop : instrOf (.flow op) = .jump op')
    (h : Lockstep b core ref) (haddr : SameAddress ref (.flow op)) :
    Paired Eq (Lockstep b) ((execJump flatBus op').run core)
      ((M6502.execFlow flatBus op).run ref) := by
  cases op <;> cases hop
  case jmp =>
    rw [execJump, M6502.execFlow]
    exact (paired_fetch16 h).bind fun target core htarget h => paired_setPC h htarget
  case jmpIndirect =>
    rw [execJump, M6502.execFlow]
    refine (paired_fetch16 h).bind fun ptr core hptr h => ?_
    rw [M6502.rd16WrapPage, wrapPage_eq haddr]
    refine (paired_read16Bank0 h hptr).bind fun target core htarget h => paired_setPC h htarget
  case jsr =>
    rw [execJump, M6502.execFlow]
    refine (paired_fetch16 h).bind fun target core htarget h => ?_
    rw [pushPC, bind_assoc, run_getRegs_bind, run_getRegs_bind, h.regs]
    exact (paired_push16 h rfl).bind fun _ core _ h => paired_setPC h htarget
  case rts =>
    rw [execJump, M6502.execFlow]
    exact (paired_pop16 h).bind fun target core htarget h =>
      paired_setPC h (congrArg (· + 1) htarget)
  case rti =>
    rw [execJump, M6502.execFlow]
    refine (paired_pop h).bind fun p core hp h => ?_
    rw [run_loadP, run_loadP_ref]
    refine (paired_pop16 h).bind fun target core htarget h => ?_
    refine (paired_setPC h htarget).bind fun _ core _ h => ?_
    have he : core.regs.e = true := by
      rw [h.regs]
      rfl
    rw [run_applyE (fun r => { r with p := p }) he, hp]
    exact paired_modifyRegs h (pulledP_emulate _ _)

theorem paired_execBranch (flag : Byte) (set : Bool) (hflag : 0x30 &&& flag = 0)
    (h : Lockstep b core ref) :
    Paired (fun penalty cyc => cyc = extraCycles (.branch flag set) penalty) (Lockstep b)
      ((execBranch flatBus fun r => r.flag flag == set).run core)
      ((M6502.execBranch flatBus fun r => r.flag flag == set).run ref) := by
  rw [execBranch, M6502.execBranch]
  refine (paired_fetch h).bind fun disp core hdisp h => ?_
  rw [run_getRegs_bind, run_getRegs_bind, h.regs, hdisp]
  have hcond (q : M6502.Regs) : (emulate b q).flag flag = q.flag flag := flag_emulate b q hflag
  refine (paired_modifyRegs h ?_).bind fun _ core _ h => paired_pure ?_ h
  · rw [Regs.branchTo, hcond]
    split <;> rfl
  · rw [hcond, pageCrossed_eq]
    rfl

/-! ### Interrupt entry -/

/-- The frame of an interrupt of the 6502, with the copy of P in it. -/
def pushState (pushed : Byte → Byte) : CoreM M6502.Regs FlatMemory Unit := do
  let r ← getRegs
  M6502.push16 flatBus r.pc
  M6502.push flatBus (pushed r.p)

def enterInterrupt (pushed : Byte → Byte) (vector : BitVec 16) :
    CoreM M6502.Regs FlatMemory Unit := do
  pushState pushed
  modifyRegs fun r => { r with p := r.p ||| M6502.flagI }
  let target ← M6502.rd16 flatBus vector
  M6502.setPC target

theorem paired_pushFrame (isBRKorCOP : Bool) {pushed : Byte → Byte}
    (hpushed : ∀ p : Byte, (if isBRKorCOP then (p ||| 0x30) ||| flagB
      else (p ||| 0x30) &&& ~~~flagB) = pushed p) (h : Lockstep b core ref) :
    Paired Eq (Lockstep b) ((pushFrame flatBus isBRKorCOP).run core)
      ((pushState pushed).run ref) := by
  rw [pushFrame, pushState, run_getRegs_bind, run_getRegs_bind, h.regs]
  exact (paired_push16 h rfl).bind fun _ core _ h => paired_push h (hpushed _)

/-- What the 65C816 does to its flags when it enters an interrupt. -/
def maskInterrupts (r : Regs) : Regs := { r with p := (r.p ||| flagI) &&& ~~~flagD, pbr := 0 }

/-- The flags may as well change last. -/
theorem run_enter (vector : Vector) (he : core.regs.e = true) :
    (do
      modifyRegs maskInterrupts
      let r ← getRegs
      let target ← readVector flatBus (if r.e then vector.emulation else vector.native)
      setPC target
      modifyRegs Regs.applyE).run core =
    (do
      let target ← read16Bank0 flatBus vector.emulation
      setPC target
      modifyRegs fun r => (maskInterrupts r).applyE).run core := by
  have he' : (maskInterrupts core.regs).e = true := he
  show (do
    let target ← readVector flatBus
      (if (maskInterrupts core.regs).e then vector.emulation else vector.native)
    setPC target
    modifyRegs Regs.applyE).run _ = _
  rw [if_pos he']
  rfl

theorem run_enter_ref (vector : BitVec 16) :
    (do
      modifyRegs fun r : M6502.Regs => { r with p := r.p ||| M6502.flagI }
      let target ← M6502.rd16 flatBus vector
      M6502.setPC target).run ref =
    (do
      let target ← M6502.rd16 flatBus vector
      M6502.setPC target
      modifyRegs fun r : M6502.Regs => { r with p := r.p ||| M6502.flagI }).run ref := rfl

/-- The 65C816 clears D, and the 6502 does not. -/
theorem maskInterrupts_emulate (q : M6502.Regs) :
    ∃ q', SameBut M6502.flagD q' { q with p := q.p ||| M6502.flagI } ∧
      (maskInterrupts (emulate b q)).applyE = emulate b q' := by
  have hsame : SameBut M6502.flagD
      ({ q with p := q.p ||| M6502.flagI }.setFlag M6502.flagD false)
      { q with p := q.p ||| M6502.flagI } := sameBut_setFlag rfl false
  refine ⟨_, hsame, ?_⟩
  have hp : (((q.p ||| 0x30) ||| flagI) &&& ~~~flagD) ||| 0x30 =
      ((q.p ||| flagI) &&& ~~~flagD) ||| 0x30 := by
    rw [or_and_distrib, or_and_distrib, BitVec.or_assoc (q.p ||| 0x30), BitVec.or_comm flagI,
      ← BitVec.or_assoc (q.p ||| 0x30), BitVec.or_assoc q.p 0x30, BitVec.or_self,
      BitVec.or_assoc q.p, BitVec.or_comm 0x30, BitVec.or_assoc]
  refine (applyE_emulate q (((q.p ||| 0x30) ||| flagI) &&& ~~~flagD)).trans ?_
  rw [hp]
  rfl

/-- An interrupt sequence agrees in all but D. -/
theorem paired_serviceInterrupt (vector : Vector) (isBRKorCOP : Bool) {pushed : Byte → Byte}
    (hpushed : ∀ p : Byte, (if isBRKorCOP then (p ||| 0x30) ||| flagB
      else (p ||| 0x30) &&& ~~~flagB) = pushed p) (h : Lockstep b core ref) :
    Paired Eq (LockstepBut M6502.flagD b)
      ((serviceInterrupt flatBus vector isBRKorCOP).run core)
      ((enterInterrupt pushed vector.emulation).run ref) := by
  rw [serviceInterrupt, enterInterrupt]
  refine (paired_pushFrame isBRKorCOP hpushed h).bind fun _ core _ h => ?_
  have he : core.regs.e = true := by
    rw [h.regs]
    rfl
  refine (congrArg (Paired _ _ · _) (run_enter vector he)).mpr ?_
  rw [run_enter_ref]
  refine (paired_read16Bank0 h rfl).bind fun target core htarget h => ?_
  refine (paired_setPC h htarget).bind fun _ core _ h => ?_
  exact lockstepBut_modifyRegs h (maskInterrupts_emulate _)

theorem paired_brk (h : Lockstep b core ref) :
    Paired Eq (LockstepBut M6502.flagD b)
      ((do
        let _ ← fetch8 flatBus
        serviceInterrupt flatBus vecBRK true).run core)
      ((M6502.execFlow flatBus .brk).run ref) := by
  have hskip : Paired (fun _ _ => True) (Lockstep b) ((fetch8 flatBus).run core)
      ((modifyRegs fun r : M6502.Regs => { r with pc := r.pc + 1 }).run ref) :=
    ⟨trivial, (paired_fetch h).state.regs, h.bus⟩
  have hpushed (p : Byte) : (if true then (p ||| 0x30) ||| flagB
      else (p ||| 0x30) &&& ~~~flagB) = M6502.pushedP p :=
    pushedP_emulate (b := b) { ref.regs with p := p }
  have hflow : (M6502.execFlow flatBus .brk).run ref = (do
      modifyRegs fun r : M6502.Regs => { r with pc := r.pc + 1 }
      enterInterrupt M6502.pushedP vecBRK.emulation).run ref := rfl
  rw [hflow]
  exact hskip.bind fun _ core _ h => paired_serviceInterrupt vecBRK true hpushed h

/-! ### Any instruction -/

/-- BIT has no immediate operand, and no branch tests bits 4 and 5 of P. -/
def encodable : M6502.Instr → Bool
  | .read .bit .immediate => false
  | .branch flag _ => 0x30 &&& flag == 0
  | _ => true

theorem Lockstep.paired {V : Penalty → ℕ → Prop} {out : Penalty × Core Regs FlatMemory}
    {out' : ℕ × Core M6502.Regs FlatMemory} (h : Paired V (Lockstep b) out out') (mask : Byte) :
    Paired V (LockstepBut mask b) out out' := h.mono (fun _ _ => id) fun _ _ h => h.but mask

theorem paired_unpenalised {R : Core Regs FlatMemory → Core M6502.Regs FlatMemory → Prop}
    {m : CoreM Regs FlatMemory Unit} {n : CoreM M6502.Regs FlatMemory Unit}
    (h : Paired Eq R (m.run core) (n.run ref)) :
    Paired (fun _ cyc => cyc = 0) R ((unpenalised m).run core) ((M6502.unpenalised n).run ref) :=
  ⟨rfl, h.state⟩

/-- An instruction of the 6502 and the instruction of the 65C816 with its encoding. -/
theorem paired_execInstr {instr : M6502.Instr} (hinstr : encodable instr = true)
    (h : Lockstep b core ref) (haddr : SameAddress ref instr) :
    Paired (fun penalty cyc => cyc = extraCycles instr penalty)
      (LockstepBut (exempt instr ref.regs) b)
      ((execInstr flatBus true true (instrOf instr)).run core)
      ((M6502.execInstr flatBus true instr).run ref) := by
  cases instr with
  | read op operand =>
      cases hop : readOp op with
      | inl op' =>
          have hbit : ¬(op = .bit ∧ operand = .immediate) := by
            rintro ⟨rfl, rfl⟩
            cases hinstr
          rw [instrOf, hop]
          exact paired_execAcc hop operand hbit h haddr
      | inr op' =>
          rw [instrOf, hop]
          exact Lockstep.paired (paired_execIndex hop operand h haddr) _
  | store op mode => exact Lockstep.paired (paired_execStore op mode h haddr) _
  | rmw op mode => exact Lockstep.paired (paired_execRmw op mode h haddr) _
  | rmwAcc op =>
      exact Lockstep.paired (paired_unpenalised (paired_modifyRegs h (applyAcc_rmwOp op b _))) _
  | reg op =>
      exact Lockstep.paired (paired_unpenalised (paired_modifyRegs h (apply_regOp op b _))) _
  | stack op => exact Lockstep.paired (paired_execStack op h) _
  | flow op =>
      cases op with
      | brk => exact paired_unpenalised (paired_brk h)
      | jmp => exact Lockstep.paired (paired_unpenalised (paired_jump rfl h haddr)) _
      | jmpIndirect => exact Lockstep.paired (paired_unpenalised (paired_jump rfl h haddr)) _
      | jsr => exact Lockstep.paired (paired_unpenalised (paired_jump rfl h haddr)) _
      | rts => exact Lockstep.paired (paired_unpenalised (paired_jump rfl h haddr)) _
      | rti => exact Lockstep.paired (paired_unpenalised (paired_jump rfl h haddr)) _
  | branch flag set =>
      exact Lockstep.paired (paired_execBranch flag set (eq_of_beq hinstr) h) _

end Instructions

end W65C816

end ScpuEmu
