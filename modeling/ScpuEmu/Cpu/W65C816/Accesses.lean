import ScpuEmu.Cpu.W65C816.Step

/-!
# What the 65C816 does to its bus

Between two samples of the interrupt lines the core touches its bus through reads,
writes and vector fetches alone. What these keep, every instruction and every
interrupt sequence keeps, from any state of the registers.
-/

namespace ScpuEmu

namespace W65C816

open Library

variable {σ : Type} {bus : CpuBus σ} {J : σ → Prop} (h : bus.AccessKeeps J)

include h

/-! ### Operands -/

theorem onBus_fetch8 : Keeps (OnBus J) (fetch8 bus) :=
  onBus_getRegs_bind fun _ => keeps_bind (onBus_busRead8 h _) fun _ =>
    keeps_bind (onBus_modifyRegs _) fun _ => keeps_pure _

theorem onBus_fetch16 : Keeps (OnBus J) (fetch16 bus) :=
  keeps_bind (onBus_fetch8 h) fun _ => keeps_bind (onBus_fetch8 h) fun _ => keeps_pure _

theorem onBus_fetch24 : Keeps (OnBus J) (fetch24 bus) :=
  keeps_bind (onBus_fetch16 h) fun _ => keeps_bind (onBus_fetch8 h) fun _ => keeps_pure _

theorem onBus_read16Bank0 (addr : BitVec 16) : Keeps (OnBus J) (read16Bank0 bus addr) :=
  keeps_bind (onBus_busRead8 h _) fun _ => keeps_bind (onBus_busRead8 h _) fun _ => keeps_pure _

theorem onBus_readDPPointer (ptr : BitVec 24) : Keeps (OnBus J) (readDPPointer bus ptr) :=
  keeps_bind (onBus_busRead8 h _) fun _ => onBus_getRegs_bind fun _ =>
    keeps_bind (onBus_busRead8 h _) fun _ => keeps_pure _

theorem onBus_eaDirect : Keeps (OnBus J) (eaDirect bus) :=
  keeps_bind (onBus_fetch8 h) fun _ => onBus_getRegs_bind fun _ => keeps_pure _

theorem onBus_eaDirectIndexed (index : BitVec 16) : Keeps (OnBus J) (eaDirectIndexed bus index) :=
  keeps_bind (onBus_fetch8 h) fun _ => onBus_getRegs_bind fun _ => keeps_pure _

theorem onBus_eaAbsoluteIndexed (index : BitVec 16) :
    Keeps (OnBus J) (eaAbsoluteIndexed bus index) :=
  keeps_bind (onBus_fetch16 h) fun _ => onBus_getRegs_bind fun _ => keeps_pure _

theorem onBus_eaIndirectLong : Keeps (OnBus J) (eaIndirectLong bus) := by
  apply keeps_bind (onBus_eaDirect h)
  intro ptr
  apply keeps_bind (onBus_busRead8 h _)
  intro lo
  exact keeps_bind (onBus_busRead8 h _) fun _ => keeps_bind (onBus_busRead8 h _) fun _ =>
    keeps_pure _

theorem onBus_eaStackRelative : Keeps (OnBus J) (eaStackRelative bus) :=
  keeps_bind (onBus_fetch8 h) fun _ => onBus_getRegs_bind fun _ => keeps_pure _

theorem onBus_effectiveAddress (mode : Mode) : Keeps (OnBus J) (effectiveAddress bus mode) := by
  cases mode with
  | direct => exact onBus_eaDirect h
  | directX | directY => exact onBus_getRegs_bind fun _ => onBus_eaDirectIndexed h _
  | absolute =>
    exact keeps_bind (onBus_fetch16 h) fun _ => onBus_getRegs_bind fun _ => keeps_pure _
  | absoluteX | absoluteY => exact onBus_getRegs_bind fun _ => onBus_eaAbsoluteIndexed h _
  | long => exact keeps_bind (onBus_fetch24 h) fun _ => keeps_pure _
  | longX =>
    exact onBus_getRegs_bind fun _ => keeps_bind (onBus_fetch24 h) fun _ => keeps_pure _
  | indirect | indirectY =>
    exact keeps_bind (onBus_eaDirect h) fun _ => keeps_bind (onBus_readDPPointer h _) fun _ =>
      onBus_getRegs_bind fun _ => keeps_pure _
  | indirectX =>
    apply onBus_getRegs_bind
    intro r
    apply keeps_bind (onBus_eaDirectIndexed h _)
    intro ptr
    exact keeps_bind (onBus_readDPPointer h _) fun _ => onBus_getRegs_bind fun _ => keeps_pure _
  | indirectLong => exact onBus_eaIndirectLong h
  | indirectLongY =>
    exact keeps_bind (onBus_eaIndirectLong h) fun _ => onBus_getRegs_bind fun _ => keeps_pure _
  | stackRelative => exact onBus_eaStackRelative h
  | stackRelativeIndirectY =>
    exact keeps_bind (onBus_eaStackRelative h) fun _ =>
      keeps_bind (onBus_read16Bank0 h _) fun _ => onBus_getRegs_bind fun _ => keeps_pure _

theorem onBus_readOperand (narrow : Bool) (ea : EA) :
    Keeps (OnBus J) (readOperand bus narrow ea) := by
  cases narrow with
  | true => exact onBus_busRead8 h _
  | false =>
    exact keeps_bind (onBus_busRead8 h _) fun _ => keeps_bind (onBus_busRead8 h _) fun _ =>
      keeps_pure _

theorem onBus_writeOperand (narrow : Bool) (ea : EA) (v : BitVec 16) :
    Keeps (OnBus J) (writeOperand bus narrow ea v) := by
  cases narrow with
  | true => exact onBus_busWrite8 h _ _
  | false => exact keeps_bind (onBus_busWrite8 h _ _) fun _ => onBus_busWrite8 h _ _

theorem onBus_immediate (narrow : Bool) : Keeps (OnBus J) (immediate bus narrow) := by
  cases narrow with
  | true => exact onBus_fetch8 h
  | false => exact onBus_fetch16 h

theorem onBus_rmwWrite (ea : EA) (original v : BitVec 16) :
    Keeps (OnBus J) (rmwWrite bus ea original v) := by
  apply onBus_getRegs_bind
  intro r
  apply keeps_ite
  · exact keeps_bind (onBus_busWrite8 h _ _) fun _ => onBus_busWrite8 h _ _
  apply keeps_ite
  · exact onBus_busWrite8 h _ _
  · exact keeps_bind (onBus_busWrite8 h _ _) fun _ => onBus_busWrite8 h _ _

/-! ### The stack -/

theorem onBus_push8 (v : Byte) : Keeps (OnBus J) (push8 bus v) :=
  onBus_getRegs_bind fun _ => keeps_bind (onBus_busWrite8 h _ _) fun _ => onBus_modifyRegs _

theorem onBus_pull8 : Keeps (OnBus J) (pull8 bus) :=
  keeps_bind (onBus_modifyRegs _) fun _ => onBus_getRegs_bind fun _ => onBus_busRead8 h _

theorem onBus_push16 (v : BitVec 16) : Keeps (OnBus J) (push16 bus v) :=
  keeps_bind (onBus_push8 h _) fun _ => onBus_push8 h _

theorem onBus_pull16 : Keeps (OnBus J) (pull16 bus) :=
  keeps_bind (onBus_pull8 h) fun _ => keeps_bind (onBus_pull8 h) fun _ => keeps_pure _

theorem onBus_push8New (v : Byte) : Keeps (OnBus J) (push8New bus v) :=
  onBus_getRegs_bind fun _ => keeps_bind (onBus_busWrite8 h _ _) fun _ => onBus_modifyRegs _

theorem onBus_pull8New : Keeps (OnBus J) (pull8New bus) :=
  keeps_bind (onBus_modifyRegs _) fun _ => onBus_getRegs_bind fun _ => onBus_busRead8 h _

theorem onBus_push16New (v : BitVec 16) : Keeps (OnBus J) (push16New bus v) :=
  keeps_bind (onBus_push8New h _) fun _ => onBus_push8New h _

theorem onBus_pull16New : Keeps (OnBus J) (pull16New bus) :=
  keeps_bind (onBus_pull8New h) fun _ => keeps_bind (onBus_pull8New h) fun _ => keeps_pure _

theorem onBus_pushAs (narrow : Bool) (v : BitVec 16) : Keeps (OnBus J) (pushAs bus narrow v) := by
  cases narrow
  · exact onBus_push16 h v
  · exact onBus_push8 h _

theorem onBus_pullAs (narrow : Bool) : Keeps (OnBus J) (pullAs bus narrow) := by
  cases narrow
  · exact onBus_pull16 h
  · exact onBus_pull8 h

theorem onBus_execPush (op : PushOp) : Keeps (OnBus J) (execPush bus op) := by
  apply onBus_getRegs_bind
  intro r
  cases op with
  | pha | phx | phy => exact onBus_pushAs h _ _
  | php | phb | phk => exact onBus_push8 h _
  | phd => exact keeps_bind (onBus_push16New h _) fun _ => onBus_modifyRegs _
  | pea =>
    exact keeps_bind (onBus_fetch16 h) fun _ => keeps_bind (onBus_push16New h _) fun _ =>
      onBus_modifyRegs _
  | pei =>
    apply keeps_bind (onBus_eaDirect h)
    intro ea
    exact keeps_bind (onBus_read16Bank0 h _) fun _ => keeps_bind (onBus_push16New h _) fun _ =>
      onBus_modifyRegs _
  | per =>
    exact keeps_bind (onBus_fetch16 h) fun _ => onBus_getRegs_bind fun _ =>
      keeps_bind (onBus_push16New h _) fun _ => onBus_modifyRegs _

theorem onBus_execPull (op : PullOp) : Keeps (OnBus J) (execPull bus op) := by
  apply onBus_getRegs_bind
  intro r
  cases op with
  | pla | plx | ply => exact keeps_bind (onBus_pullAs h _) fun _ => onBus_modifyRegs _
  | plp | plb => exact keeps_bind (onBus_pull8 h) fun _ => onBus_modifyRegs _
  | pld => exact keeps_bind (onBus_pull16New h) fun _ => onBus_modifyRegs _

/-! ### Jumps and interrupts -/

theorem onBus_readProgramPointer (ptr : BitVec 16) :
    Keeps (OnBus J) (readProgramPointer bus ptr) :=
  onBus_getRegs_bind fun _ => keeps_bind (onBus_busRead8 h _) fun _ =>
    keeps_bind (onBus_busRead8 h _) fun _ => keeps_pure _

theorem onBus_pushPC : Keeps (OnBus J) (pushPC bus) :=
  onBus_getRegs_bind fun _ => onBus_push16 h _

theorem onBus_pushPCNew : Keeps (OnBus J) (pushPCNew bus) :=
  onBus_getRegs_bind fun _ => onBus_push16New h _

theorem onBus_execJump (op : JumpOp) : Keeps (OnBus J) (execJump bus op) := by
  cases op with
  | jmp => exact keeps_bind (onBus_fetch16 h) fun _ => onBus_modifyRegs _
  | jmpIndirect =>
    exact keeps_bind (onBus_fetch16 h) fun _ => keeps_bind (onBus_read16Bank0 h _) fun _ =>
      onBus_modifyRegs _
  | jmpIndirectX =>
    exact keeps_bind (onBus_fetch16 h) fun _ => onBus_getRegs_bind fun _ =>
      keeps_bind (onBus_readProgramPointer h _) fun _ => onBus_modifyRegs _
  | jml => exact keeps_bind (onBus_fetch24 h) fun _ => onBus_modifyRegs _
  | jmlIndirect =>
    apply keeps_bind (onBus_fetch16 h)
    intro ptr
    apply keeps_bind (onBus_read16Bank0 h _)
    intro target
    exact keeps_bind (onBus_modifyRegs _) fun _ => keeps_bind (onBus_busRead8 h _) fun _ =>
      onBus_modifyRegs _
  | jsr =>
    exact keeps_bind (onBus_fetch16 h) fun _ => keeps_bind (onBus_pushPC h) fun _ =>
      onBus_modifyRegs _
  | jsrIndirectX =>
    apply keeps_bind (onBus_fetch16 h)
    intro base
    apply onBus_getRegs_bind
    intro r
    apply keeps_bind (onBus_pushPCNew h)
    intro _
    exact keeps_bind (onBus_readProgramPointer h _) fun _ => keeps_bind (onBus_modifyRegs _)
      fun _ => onBus_modifyRegs _
  | jsl =>
    apply keeps_bind (onBus_fetch24 h)
    intro target
    apply onBus_getRegs_bind
    intro r
    apply keeps_bind (onBus_push8New h _)
    intro _
    exact keeps_bind (onBus_pushPCNew h) fun _ => keeps_bind (onBus_modifyRegs _) fun _ =>
      onBus_modifyRegs _
  | rts => exact keeps_bind (onBus_pull16 h) fun _ => onBus_modifyRegs _
  | rtl =>
    apply keeps_bind (onBus_pull16New h)
    intro target
    apply keeps_bind (onBus_modifyRegs _)
    intro _
    exact keeps_bind (onBus_pull8New h) fun _ => keeps_bind (onBus_modifyRegs _) fun _ =>
      onBus_modifyRegs _
  | rti =>
    apply keeps_bind (onBus_pull8 h)
    intro p
    apply keeps_bind (onBus_modifyRegs _)
    intro _
    apply keeps_bind (onBus_pull16 h)
    intro target
    apply keeps_bind (onBus_modifyRegs _)
    intro _
    apply onBus_getRegs_bind
    intro r
    apply keeps_ite (onBus_modifyRegs _)
    exact keeps_bind (onBus_pull8 h) fun _ => keeps_bind (onBus_modifyRegs _) fun _ =>
      onBus_modifyRegs _

theorem onBus_readVector (vec : BitVec 16) : Keeps (OnBus J) (readVector bus vec) := by
  intro core hJ
  show OnBus J ((if bus.interruptRerouteActive core.bus core.regs.e then
    busReply (fun s => bus.rerouteVector s vec) else read16Bank0 bus vec).run core).2
  split
  · exact h.rerouteVector core.bus vec hJ
  · exact onBus_read16Bank0 h vec core hJ

theorem onBus_pushFrame (isBRKorCOP : Bool) : Keeps (OnBus J) (pushFrame bus isBRKorCOP) := by
  apply onBus_getRegs_bind
  intro r
  apply keeps_ite
  · exact keeps_bind (onBus_push16 h _) fun _ => onBus_push8 h _
  · exact keeps_bind (onBus_push8 h _) fun _ => keeps_bind (onBus_push16 h _) fun _ =>
      onBus_push8 h _

theorem onBus_serviceInterrupt (vector : Vector) (isBRKorCOP : Bool) :
    Keeps (OnBus J) (serviceInterrupt bus vector isBRKorCOP) := by
  apply keeps_bind (onBus_pushFrame h _)
  intro _
  apply keeps_bind (onBus_modifyRegs _)
  intro _
  apply onBus_getRegs_bind
  intro r
  exact keeps_bind (onBus_readVector h _) fun _ => keeps_bind (onBus_modifyRegs _) fun _ =>
    onBus_modifyRegs _

/-! ### The two switches -/

theorem onBus_execAcc (op : AccOp) (m8Entry : Bool) (operand : Operand) :
    Keeps (OnBus J) (execAcc bus op m8Entry operand) := by
  cases operand with
  | immediate =>
    exact keeps_bind (onBus_getRegs_bind fun _ => onBus_immediate h _) fun _ =>
      keeps_bind (onBus_modifyRegs _) fun _ => keeps_pure _
  | memory mode =>
    apply keeps_bind (onBus_effectiveAddress h mode)
    intro ea
    exact keeps_bind (onBus_getRegs_bind fun _ => onBus_readOperand h _ ea) fun _ =>
      keeps_bind (onBus_modifyRegs _) fun _ => keeps_pure _

theorem onBus_execIndex (op : IndexOp) (x8Entry : Bool) (operand : Operand) :
    Keeps (OnBus J) (execIndex bus op x8Entry operand) := by
  cases operand with
  | immediate =>
    exact keeps_bind (onBus_getRegs_bind fun _ => onBus_immediate h _) fun _ =>
      keeps_bind (onBus_modifyRegs _) fun _ => keeps_pure _
  | memory mode =>
    apply keeps_bind (onBus_effectiveAddress h mode)
    intro ea
    exact keeps_bind (onBus_getRegs_bind fun _ => onBus_readOperand h _ ea) fun _ =>
      keeps_bind (onBus_modifyRegs _) fun _ => keeps_pure _

theorem onBus_execStore (op : StoreOp) (mode : Mode) :
    Keeps (OnBus J) (execStore bus op mode) := by
  apply keeps_bind (onBus_effectiveAddress h mode)
  intro ea
  refine keeps_bind (onBus_getRegs_bind fun r => ?_) fun _ => keeps_pure _
  cases op <;> exact onBus_getRegs_bind fun _ => onBus_writeOperand h _ ea _

theorem onBus_execRmw (op : RmwOp) (mode : Mode) : Keeps (OnBus J) (execRmw bus op mode) := by
  apply keeps_bind (onBus_effectiveAddress h mode)
  intro ea
  apply keeps_bind (onBus_getRegs_bind fun _ => onBus_readOperand h _ ea)
  intro v
  apply onBus_getRegs_bind
  intro r
  apply keeps_bind (onBus_modifyRegs _)
  intro _
  exact keeps_bind (onBus_rmwWrite h ea v _) fun _ => keeps_bind (onBus_modifyRegs _) fun _ =>
    keeps_pure _

theorem onBus_execBranch (cond : Regs → Bool) : Keeps (OnBus J) (execBranch bus cond) :=
  keeps_bind (onBus_fetch8 h) fun _ => onBus_getRegs_bind fun _ =>
    keeps_bind (onBus_modifyRegs _) fun _ => keeps_pure _

theorem onBus_execBlockMove (up : Bool) : Keeps (OnBus J) (execBlockMove bus up) := by
  apply keeps_bind (onBus_fetch8 h)
  intro dstBank
  apply keeps_bind (onBus_fetch8 h)
  intro srcBank
  exact onBus_getRegs_bind fun _ => keeps_bind (onBus_busRead8 h _) fun _ =>
    keeps_bind (onBus_busWrite8 h _ _) fun _ => onBus_modifyRegs _

omit h in
theorem onBus_unpenalised {m : CoreM Regs σ Unit} (hm : Keeps (OnBus J) m) :
    Keeps (OnBus J) (unpenalised m) :=
  keeps_bind hm fun _ => keeps_pure _

theorem onBus_execInstr (m8Entry x8Entry : Bool) (instr : Instr) :
    Keeps (OnBus J) (execInstr bus m8Entry x8Entry instr) := by
  cases instr with
  | acc op operand => exact onBus_execAcc h op m8Entry operand
  | index op operand => exact onBus_execIndex h op x8Entry operand
  | store op mode => exact onBus_execStore h op mode
  | rmw op mode => exact onBus_execRmw h op mode
  | rmwAcc op => exact onBus_unpenalised (onBus_modifyRegs _)
  | reg op => exact onBus_unpenalised (onBus_modifyRegs _)
  | push op => exact onBus_unpenalised (onBus_execPush h op)
  | pull op => exact onBus_unpenalised (onBus_execPull h op)
  | jump op => exact onBus_unpenalised (onBus_execJump h op)
  | branch flag set => exact onBus_execBranch h _
  | bra => exact onBus_execBranch h _
  | brl => exact onBus_unpenalised (keeps_bind (onBus_fetch16 h) fun _ => onBus_modifyRegs _)
  | rep | sep => exact onBus_unpenalised (keeps_bind (onBus_fetch8 h) fun _ => onBus_modifyRegs _)
  | blockMove up => exact onBus_unpenalised (onBus_execBlockMove h up)
  | brk | cop =>
    exact onBus_unpenalised (keeps_bind (onBus_fetch8 h) fun _ => onBus_serviceInterrupt h _ true)
  | wdm => exact onBus_unpenalised (keeps_bind (onBus_fetch8 h) fun _ => keeps_pure _)
  | stp | wai => exact keeps_pure _

theorem onBus_execGeneric (opcode : Byte) : Keeps (OnBus J) (execGeneric bus opcode) :=
  onBus_getRegs_bind fun _ => keeps_bind (onBus_execInstr h _ _ _) fun _ => keeps_pure _

theorem onBus_f8E : Keeps (OnBus J) (f8E bus) := onBus_fetch8 h

theorem onBus_f16E : Keeps (OnBus J) (f16E bus) := onBus_fetch16 h

theorem onBus_pushE8 (v : Byte) : Keeps (OnBus J) (pushE8 bus v) :=
  onBus_getRegs_bind fun _ => keeps_bind (onBus_busWrite8 h _ _) fun _ => onBus_modifyRegs _

theorem onBus_pullE8 : Keeps (OnBus J) (pullE8 bus) :=
  keeps_bind (onBus_modifyRegs _) fun _ => onBus_getRegs_bind fun _ => onBus_busRead8 h _

theorem onBus_fastDirect : Keeps (OnBus J) (fastDirect bus) :=
  keeps_bind (onBus_f8E h) fun _ => onBus_getRegs_bind fun _ => keeps_pure _

theorem onBus_fastAbsolute : Keeps (OnBus J) (fastAbsolute bus) :=
  keeps_bind (onBus_f16E h) fun _ => onBus_getRegs_bind fun _ => keeps_pure _

theorem onBus_fastLdaIndexed (index : Regs → BitVec 16) :
    Keeps (OnBus J) (fastLdaIndexed bus index) :=
  keeps_bind (onBus_f16E h) fun _ => onBus_getRegs_bind fun _ =>
    keeps_bind (onBus_busRead8 h _) fun _ => keeps_bind (onBus_modifyRegs _) fun _ => keeps_pure _

omit h in
/-- The end of a case that changes registers and returns its cycles. -/
theorem onBus_finish (f : Regs → Regs) (used : ℕ) :
    Keeps (OnBus J) (do modifyRegs f; return used : CoreM Regs σ ℕ) :=
  keeps_bind (onBus_modifyRegs f) fun _ => keeps_pure _

theorem onBus_fastJsr : Keeps (OnBus J) (fastJsr bus) :=
  keeps_bind (onBus_f16E h) fun _ => onBus_getRegs_bind fun _ =>
    keeps_bind (onBus_pushE8 h _) fun _ => keeps_bind (onBus_pushE8 h _) fun _ => onBus_finish _ _

theorem onBus_fastSwitch {opcode : Byte} {fast : CoreM Regs σ ℕ}
    (hfast : fastSwitch bus opcode = some fast) : Keeps (OnBus J) fast := by
  have hfetch {f : Byte → Regs → Regs} {used : ℕ} : Keeps (OnBus J)
      (do let n ← f8E bus; modifyRegs (f n); return used : CoreM Regs σ ℕ) :=
    keeps_bind (onBus_f8E h) fun _ => onBus_finish _ _
  have hbranch (opcode : Byte) : Keeps (OnBus J) (fastBranch bus opcode) :=
    keeps_bind (onBus_f8E h) fun _ => onBus_getRegs_bind fun _ => onBus_finish _ _
  unfold fastSwitch at hfast
  split at hfast <;> cases hfast
  · exact hfetch
  · exact keeps_bind (onBus_fastDirect h) fun _ => keeps_bind (onBus_busRead8 h _) fun _ =>
      onBus_finish _ _
  · exact keeps_bind (onBus_fastAbsolute h) fun _ => keeps_bind (onBus_busRead8 h _) fun _ =>
      onBus_finish _ _
  · exact onBus_fastLdaIndexed h _
  · exact onBus_fastLdaIndexed h _
  · exact hfetch
  · exact hfetch
  · exact keeps_bind (onBus_fastDirect h) fun _ => onBus_getRegs_bind fun _ =>
      keeps_bind (onBus_busWrite8 h _ _) fun _ => keeps_pure _
  · exact keeps_bind (onBus_fastAbsolute h) fun _ => onBus_getRegs_bind fun _ =>
      keeps_bind (onBus_busWrite8 h _ _) fun _ => keeps_pure _
  · exact hfetch
  · exact hfetch
  · exact hfetch
  · exact hfetch
  · exact onBus_finish _ _
  · exact onBus_finish _ _
  · exact onBus_finish _ _
  · exact onBus_finish _ _
  · exact hbranch _
  · exact hbranch _
  · exact hbranch _
  · exact hbranch _
  · exact hbranch _
  · exact hbranch _
  · exact keeps_bind (onBus_f16E h) fun _ => onBus_finish _ _
  · exact onBus_fastJsr h
  · exact keeps_bind (onBus_pullE8 h) fun _ => keeps_bind (onBus_pullE8 h) fun _ =>
      onBus_finish _ _
  · exact onBus_finish _ _
  · exact onBus_finish _ _

theorem onBus_execOpcode (opcode : Byte) : Keeps (OnBus J) (execOpcode bus opcode) := by
  apply onBus_getRegs_bind
  intro r
  apply keeps_ite
  · cases hfast : fastSwitch bus opcode with
    | none => exact onBus_execGeneric h opcode
    | some fast => exact onBus_fastSwitch h hfast
  · exact onBus_execGeneric h opcode

theorem onBus_fetchExec : Keeps (OnBus J) (Cpu.fetchExec bus) :=
  keeps_bind (onBus_fetch8 h) fun _ => keeps_bind (onBus_execOpcode h _) fun _ => keeps_pure _

theorem onBus_takeNMICore : Keeps (OnBus J) (Cpu.takeNMICore bus) :=
  keeps_bind (onBus_busReply h.noteNMITaken) fun _ => onBus_serviceInterrupt h _ _

/-! ### Steps -/

theorem onBus_dispatch {cpu : Cpu σ} (hcpu : J cpu.core.bus) : J (cpu.dispatch bus).2.core.bus := by
  have hdone := onBus_fetchExec h cpu.core hcpu
  show J (Cpu.park _ _).core.bus
  rw [Cpu.core_park]
  exact hdone

theorem onBus_interrupts {cpu : Cpu σ} (irq : Bool) (hcpu : J cpu.core.bus) :
    J (cpu.interrupts bus irq).2.core.bus := by
  unfold Cpu.interrupts
  split
  · exact onBus_takeNMICore h cpu.core hcpu
  have hcounted : J cpu.countDeferred.core.bus := by
    unfold Cpu.countDeferred
    split <;> exact hcpu
  have hwake : J cpu.countDeferred.wake.core.bus := by
    unfold Cpu.wake
    split <;> exact hcounted
  unfold Cpu.afterNMI
  split
  · exact hcounted
  split
  · exact onBus_serviceInterrupt h vecIRQ false _ hwake
  · exact onBus_dispatch h hwake

/-- A sample of the lines is the only other thing that a step does to the bus. -/
theorem onBus_stepInner (hsample : ∀ s, J s → J (bus.sampleInterrupts s).state) {cpu : Cpu σ}
    (hcpu : J cpu.core.bus) : J (cpu.stepInner bus).2.core.bus := by
  have hsampled : J (cpu.sample bus).2.core.bus := by
    unfold Cpu.sample
    split
    · exact hsample cpu.core.bus hcpu
    · exact hcpu
  unfold Cpu.stepInner
  split
  · exact onBus_dispatch h hcpu
  split
  · exact hcpu
  · exact onBus_interrupts h _ hsampled

end W65C816

end ScpuEmu
