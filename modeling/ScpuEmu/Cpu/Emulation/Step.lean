import ScpuEmu.Cpu.Emulation.Opcodes

/-!
# The 65C816 in emulation mode steps like the 6502

A step of the two processors from the same registers on the same memory: the same registers,
cycles, memory and writes, but for the flags in which the processors differ by design.
-/

namespace ScpuEmu

namespace W65C816

open Library

/-! ### Two processors in lockstep -/

/-- Bits 4 and 5 of P, which have no meaning to a 6502. -/
def unusedFlags : Byte := 0x30

/-- In emulation mode, with an aligned direct page at 0 and both banks 0, the registers of a
65C816 are those of a 6502, but for the flags in `mask`. -/
structure SameRegs (mask : Byte) (r : Regs) (q : M6502.Regs) : Prop where
  widths : WidthInv r
  e : r.e = true
  d : r.d = 0
  dbr : r.dbr = 0
  pbr : r.pbr = 0
  a : r.getA = q.a
  x : r.x = q.x.setWidth 16
  y : r.y = q.y.setWidth 16
  s : r.s = 0x0100 ||| q.s.setWidth 16
  pc : r.pc = q.pc
  p : r.p ||| mask = q.p ||| mask

/-- Both processors execute instructions, and their latches are in the same state. -/
structure SameLatches (cpu : Cpu FlatMemory) (ref : M6502.Cpu FlatMemory) : Prop where
  running : cpu.stopped = false
  awake : cpu.waiting = false
  unjammed : ref.jammed = false
  dummyWrite : ref.rmwDummyWrite = true
  nmiPrevLevel : cpu.nmiPrevLevel = ref.nmiPrevLevel
  nmiPending : cpu.nmiPending = ref.nmiPending

/-- A 65C816 and a 6502 with the same registers, but for the flags in `mask`, the same memory
and the same writes behind them. -/
structure Emulates (mask : Byte) (cpu : Cpu FlatMemory) (ref : M6502.Cpu FlatMemory) : Prop where
  regs : SameRegs mask cpu.regs ref.regs
  bus : cpu.core.bus = ref.core.bus
  latches : SameLatches cpu ref

section Registers

variable {b mask : Byte} {r : Regs} {q q' : M6502.Regs}

theorem high_append_low (c : BitVec 16) :
    ((c >>> 8).setWidth 8 ++ c.setWidth 8 : BitVec 16) = c := by
  apply BitVec.eq_of_toNat_eq
  have hc := c.isLt
  rw [BitVec.toNat_append, Nat.shiftLeft_eq, Nat.mul_comm,
    ← Nat.two_pow_add_eq_or_of_lt (c.setWidth 8).isLt]
  bv_omega

theorem or_of_flags {p : Byte} (hm : (p &&& flagM != 0) = true) (hx : (p &&& flagX != 0) = true) :
    p ||| 0x30 = p := by
  revert p
  decide +kernel

theorem SameRegs.eq_emulate (h : SameRegs unusedFlags r q) :
    r = emulate ((r.c >>> 8).setWidth 8) q := by
  obtain ⟨hm, hx⟩ := h.widths.wide h.e
  have hc : r.c = (r.c >>> 8).setWidth 8 ++ q.a := by
    rw [← h.a]
    exact (high_append_low r.c).symm
  have hp : r.p = q.p ||| 0x30 := (or_of_flags hm hx).symm.trans h.p
  have hm8 : r.m8 = true := by
    rw [h.widths.m8, Regs.computeM8, h.e]
    rfl
  have hx8 : r.x8 = true := by
    rw [h.widths.x8, Regs.computeX8, h.e]
    rfl
  have hkey : r.cycKey = emuKey false := by
    rw [h.widths.cycKey, Regs.computeM8, Regs.computeX8, Regs.computeCycKey, Regs.dpUnaligned,
      h.e, h.d, Bool.true_or, Bool.true_or]
    decide
  exact Regs.ext hc h.x h.y h.s h.d h.pc h.pbr h.dbr hp h.e hm8 hx8 hkey

theorem sameRegs_emulate (h : SameBut mask q' q) :
    SameRegs (unusedFlags ||| mask) (emulate b q') q where
  widths := widthInv_emulate q'
  e := rfl
  d := rfl
  dbr := rfl
  pbr := rfl
  a := (getA_emulate b q').trans h.a
  x := congrArg (·.setWidth 16) h.x
  y := congrArg (·.setWidth 16) h.y
  s := congrArg M6502.stackAddr h.s
  pc := h.pc
  p := by
    show (q'.p ||| unusedFlags) ||| (unusedFlags ||| mask) = _
    rw [BitVec.or_assoc, ← BitVec.or_assoc unusedFlags, BitVec.or_self,
      BitVec.or_comm unusedFlags mask, ← BitVec.or_assoc, h.p, BitVec.or_assoc]

end Registers

section Step

variable {b mask : Byte} {cpu : Cpu FlatMemory} {ref : M6502.Cpu FlatMemory}

theorem Emulates.lockstep (h : Emulates unusedFlags cpu ref) :
    Lockstep ((cpu.regs.c >>> 8).setWidth 8) cpu.core ref.core :=
  ⟨h.regs.eq_emulate, h.bus⟩

theorem LockstepBut.emulates (h : LockstepBut mask b cpu.core ref.core)
    (hlatches : SameLatches cpu ref) : Emulates (unusedFlags ||| mask) cpu ref := by
  obtain ⟨q, hsame, hregs⟩ := h.regs
  refine ⟨?_, h.bus, hlatches⟩
  rw [Cpu.regs, hregs]
  exact sameRegs_emulate hsame

/-- Both processors look at their lines. -/
theorem Emulates.sample (h : Emulates mask cpu ref) :
    Emulates mask (cpu.afterSample flatBus).2 (ref.sampleNMI flatBus) where
  regs := h.regs
  bus := h.bus
  latches :=
    { h.latches with
      nmiPrevLevel := congrArg FlatMemory.nmi h.bus
      nmiPending := by
        show (cpu.nmiPending || (cpu.core.bus.nmi && !cpu.nmiPrevLevel)) =
          (ref.nmiPending || (ref.core.bus.nmi && !ref.nmiPrevLevel))
        rw [h.latches.nmiPending, h.latches.nmiPrevLevel, h.bus] }

/-- An edge of the NMI line is latched, or the IRQ line is low and I is clear. -/
def interruptDue (ref : M6502.Cpu FlatMemory) : Bool :=
  (ref.sampleNMI flatBus).nmiPending || (ref.core.bus.irq && !ref.regs.flag M6502.flagI)

/-! ### One instruction -/

/-- No instruction of the 6502 parks the 65C816. -/
theorem park_instrOf (instr : M6502.Instr) (cpu : Cpu FlatMemory) :
    cpu.park (instrOf instr) = cpu := by
  cases instr with
  | read op operand => cases op <;> rfl
  | stack op => cases op <;> rfl
  | flow op => cases op <;> rfl
  | _ => rfl

theorem emulates_dispatch {instr : M6502.Instr}
    (hinstr : M6502.decode (opcodeAt ref.core) = some instr) (h : Emulates unusedFlags cpu ref)
    (haddr : SameAddress (afterFetch ref.core) instr) :
    (cpu.dispatch flatBus).1 = (ref.dispatch flatBus).1 ∧
      Emulates (unusedFlags ||| exempt instr ref.regs) (cpu.dispatch flatBus).2
        (ref.dispatch flatBus).2 := by
  have hpaired := paired_fetchExec hinstr h.lockstep haddr
  have hopcode : ((Cpu.fetchExec flatBus).run cpu.core).1.1 = opcodeAt ref.core :=
    congrArg Prod.fst hpaired.value
  have hpark : decode ((Cpu.fetchExec flatBus).run cpu.core).1.1 = instrOf instr := by
    rw [hopcode, (row_of_decode hinstr).1]
  have hjams : M6502.jams (opcodeAt ref.core) = false := by
    rw [M6502.jams, hinstr]
    rfl
  have hdispatch : ref.dispatch flatBus =
      M6502.Cpu.finish
        { (ref.exec (M6502.Cpu.fetchExec flatBus true)).2 with
          jammed := M6502.jams (opcodeAt ref.core) } flatBus
        ((M6502.Cpu.fetchExec flatBus true).run ref.core).1.2 := by
    rw [M6502.Cpu.dispatch, h.latches.dummyWrite]
    rfl
  rw [Cpu.dispatch, hdispatch, hjams]
  dsimp only [Cpu.exec]
  rw [hpark, park_instrOf]
  refine ⟨congrArg Prod.snd hpaired.value, ?_⟩
  refine LockstepBut.emulates ⟨hpaired.state.regs, hpaired.state.bus⟩ ?_
  exact ⟨h.latches.running, h.latches.awake, rfl, h.latches.dummyWrite, h.latches.nmiPrevLevel,
    h.latches.nmiPending⟩

/-! ### Interrupts -/

theorem emulates_service (vector : Vector) (h : Emulates unusedFlags cpu ref) :
    LockstepBut M6502.flagD ((cpu.regs.c >>> 8).setWidth 8)
      ((serviceInterrupt flatBus vector false).run cpu.core).2
      ((M6502.Cpu.service flatBus vector.emulation).run ref.core).2 := by
  have hpushed (p : Byte) : (if false then (p ||| 0x30) ||| flagB
      else (p ||| 0x30) &&& ~~~flagB) = (p ||| M6502.flagU) &&& ~~~M6502.flagB := by
    revert p
    decide +kernel
  exact (paired_serviceInterrupt vector false hpushed h.lockstep).state

theorem emulates_takeNMI (h : Emulates unusedFlags cpu ref) :
    (cpu.takeNMI flatBus).1 =
        (M6502.Cpu.takeInterrupt { ref with nmiPending := false } flatBus M6502.vecNMI).1 ∧
      Emulates (unusedFlags ||| M6502.flagD) (cpu.takeNMI flatBus).2
        (M6502.Cpu.takeInterrupt { ref with nmiPending := false } flatBus M6502.vecNMI).2 := by
  have hnoted : Emulates unusedFlags
      { cpu with core := ((busReply flatBus.noteNMITaken : CoreM Regs FlatMemory Unit).run
        cpu.core).2 } ref := ⟨h.regs, h.bus, { h.latches with }⟩
  have hservice := emulates_service vecNMI hnoted
  refine ⟨?_, LockstepBut.emulates ⟨hservice.regs, hservice.bus⟩ ?_⟩
  · show (if cpu.regs.e then 7 else 8) = 7
    rw [h.regs.e]
    rfl
  · exact ⟨h.latches.running, rfl, h.latches.unjammed, h.latches.dummyWrite, h.latches.nmiPrevLevel,
      rfl⟩

theorem emulates_takeIRQ (h : Emulates unusedFlags cpu ref) :
    (cpu.takeIRQ flatBus).1 = (ref.takeInterrupt flatBus M6502.vecIRQ).1 ∧
      Emulates (unusedFlags ||| M6502.flagD) (cpu.takeIRQ flatBus).2
        (ref.takeInterrupt flatBus M6502.vecIRQ).2 := by
  have hservice := emulates_service vecIRQ h
  refine ⟨?_, LockstepBut.emulates ⟨hservice.regs, hservice.bus⟩ ?_⟩
  · show (if cpu.regs.e then 7 else 8) = 7
    rw [h.regs.e]
    rfl
  · exact ⟨h.latches.running, h.latches.awake, h.latches.unjammed, h.latches.dummyWrite,
      h.latches.nmiPrevLevel, h.latches.nmiPending⟩

/-! ### Any step -/

theorem run_line {ρ : Type} (line : FlatMemory → Bool) (core : Core ρ FlatMemory) :
    (busReply fun s => ⟨line s, false, s⟩ : CoreM ρ FlatMemory Bool).run core =
      (line core.bus, core) := by
  show (_, { core with runBreak := core.runBreak || false }) = _
  rw [Bool.or_false]

theorem sampleNMI_eq (ref : M6502.Cpu FlatMemory) : ref.sampleNMI flatBus =
    { ref with
      nmiPending := ref.nmiPending || (ref.core.bus.nmi && !ref.nmiPrevLevel)
      nmiPrevLevel := ref.core.bus.nmi } := by
  rw [M6502.Cpu.sampleNMI, M6502.Cpu.exec, flatBus, run_line FlatMemory.nmi]

theorem irqDue_eq (ref : M6502.Cpu FlatMemory) :
    ref.irqDue flatBus = (ref.core.bus.irq && !ref.regs.flag M6502.flagI, ref) := by
  rw [M6502.Cpu.irqDue, M6502.Cpu.exec, flatBus, run_line FlatMemory.irq]
  cases ref.regs.flag M6502.flagI with
  | true => rw [if_pos rfl, Bool.not_true, Bool.and_false]
  | false => rw [if_neg Bool.false_ne_true, Bool.not_false, Bool.and_true]

/-- The step of a 6502 that is not jammed. -/
theorem step_ref (hrunning : ref.jammed = false) : ref.step flatBus =
    if (ref.sampleNMI flatBus).nmiPending then
      M6502.Cpu.takeInterrupt { ref.sampleNMI flatBus with nmiPending := false } flatBus
        M6502.vecNMI
    else if ref.core.bus.irq && !ref.regs.flag M6502.flagI then
      (ref.sampleNMI flatBus).takeInterrupt flatBus M6502.vecIRQ
    else (ref.sampleNMI flatBus).dispatch flatBus := by
  have hcore : (ref.sampleNMI flatBus).core = ref.core := by rw [sampleNMI_eq]
  rw [M6502.Cpu.step, hrunning, if_neg Bool.false_ne_true]
  dsimp only
  rw [irqDue_eq, M6502.Cpu.regs, hcore]
  rfl

/-- The prologue of a 65C816 that emulates a 6502 and does not wait. -/
theorem interrupts_eq {irq : Bool} (h : Emulates mask cpu ref) : cpu.interrupts flatBus irq =
    if cpu.nmiPending then cpu.takeNMI flatBus
    else if irq && !cpu.regs.flag flagI then cpu.takeIRQ flatBus
    else cpu.dispatch flatBus := by
  have hserved : cpu.nmiDeferred = false := by
    rw [Cpu.nmiDeferred, h.regs.e, Bool.not_true, Bool.and_false]
  have hawake : cpu.wake = cpu := by
    rw [Cpu.wake, h.latches.awake, if_neg Bool.false_ne_true]
  rw [Cpu.interrupts, hserved, Bool.not_false, Bool.and_true]
  split
  · rfl
  · rename_i hnone
    rw [Cpu.countDeferred, if_neg hnone, Cpu.afterNMI, h.latches.awake, Bool.false_and,
      if_neg Bool.false_ne_true, hawake]

theorem Emulates.busTick (h : Emulates mask cpu ref) (n : ℕ) :
    Emulates mask (cpu.busTick flatBus n) ref :=
  ⟨h.regs, h.bus, { h.latches with }⟩

/-- The step of a 65C816 takes the branch of its prologue that the step of the 6502 takes. -/
theorem step_cpu (h : Emulates unusedFlags cpu ref) : cpu.stepNoTick flatBus =
    if (ref.sampleNMI flatBus).nmiPending then (cpu.afterSample flatBus).2.takeNMI flatBus
    else if ref.core.bus.irq && !ref.regs.flag M6502.flagI then
      (cpu.afterSample flatBus).2.takeIRQ flatBus
    else (cpu.afterSample flatBus).2.dispatch flatBus := by
  have hsample := h.sample
  have hflag : (cpu.afterSample flatBus).2.regs.flag flagI = ref.regs.flag M6502.flagI := by
    rw [hsample.regs.eq_emulate]
    exact flag_emulate _ _ rfl
  have hirq : (cpu.afterSample flatBus).1 = ref.core.bus.irq := congrArg FlatMemory.irq h.bus
  rw [Cpu.stepNoTick_eq flatBus h.latches.running, interrupts_eq hsample,
    hsample.latches.nmiPending, hflag, hirq]

/-- The instruction at the program counter means the same addresses to both processors. -/
def SameAddresses (ref : M6502.Cpu FlatMemory) : Prop :=
  ∀ instr, M6502.decode (opcodeAt ref.core) = some instr →
    SameAddress (afterFetch ref.core) instr

/-- The flags in which the processors differ by design after the instruction at the program
counter: N and Z after an addition or a subtraction in decimal mode, and D after BRK. -/
def exemptFlags (ref : M6502.Cpu FlatMemory) : Byte :=
  match M6502.decode (opcodeAt ref.core) with
  | some instr => exempt instr ref.regs
  | none => 0

/-- A step that executes a documented opcode. -/
theorem step_emulates (h : Emulates unusedFlags cpu ref) (hquiet : interruptDue ref = false)
    (hdocumented : (M6502.opcodeInfo (opcodeAt ref.core)).undocumented = false)
    (haddr : SameAddresses ref) :
    (cpu.step flatBus).1 = (ref.step flatBus).1 ∧
      Emulates (unusedFlags ||| exemptFlags ref) (cpu.step flatBus).2 (ref.step flatBus).2 := by
  obtain ⟨hnmi, hirq⟩ := Bool.or_eq_false_iff.mp hquiet
  obtain ⟨instr, hinstr⟩ : ∃ instr, M6502.decode (opcodeAt ref.core) = some instr := by
    rw [undocumented_eq] at hdocumented
    exact Option.isSome_iff_exists.mp (Option.isNone_eq_false_iff.mp hdocumented)
  have hcore : (ref.sampleNMI flatBus).core = ref.core := by rw [sampleNMI_eq]
  have hdispatch := emulates_dispatch (hcore ▸ hinstr) h.sample (hcore ▸ haddr instr hinstr)
  have hflags : exemptFlags ref = exempt instr (ref.sampleNMI flatBus).regs := by
    rw [M6502.Cpu.regs, hcore, exemptFlags, hinstr]
    rfl
  rw [Cpu.step, step_cpu h, step_ref h.latches.unjammed, hnmi, hirq, hflags]
  exact ⟨hdispatch.1, hdispatch.2.busTick _⟩

/-- Two processors at `INC $10`, a 6502 and a 65C816 that emulates it. -/
def incCore : Core M6502.Regs FlatMemory where
  regs := { a := 0, x := 0, y := 0, s := 0xFD, p := 0x24, pc := 0x0200 }
  bus :=
    { mem := fun a => if a = 0x0200 then 0xE6 else if a = 0x0201 then 0x10 else 0xFF
      irq := true, nmi := false, writes := [] }
  runBreak := false

def incRef : M6502.Cpu FlatMemory := { M6502.Cpu.construct incCore.bus with core := incCore }

def incCpu : Cpu FlatMemory :=
  { Cpu.construct incCore.bus 0 with core := ⟨emulate 0xB0 incCore.regs, incCore.bus, false⟩ }

/-- The old byte is written back before the new one, at five cycles and with Z set. -/
theorem step_emulates_inc : Emulates unusedFlags (incCpu.step flatBus).2 (incRef.step flatBus).2 ∧
    (incCpu.step flatBus).1 = 5 ∧ (incRef.step flatBus).2.regs.p = 0x26 ∧
    (incCpu.step flatBus).2.core.bus.writes = [(0x10, 0xFF), (0x10, 0x00)] := by
  have hregs : SameRegs (unusedFlags ||| 0) incCpu.regs incRef.regs := sameRegs_emulate .rfl
  have hinc : Emulates unusedFlags incCpu incRef := ⟨hregs, rfl, rfl, rfl, rfl, rfl, rfl, rfl⟩
  have hstep := step_emulates hinc (by decide) (by decide) (by
    rintro instr ⟨rfl⟩
    trivial)
  exact ⟨hstep.2, by decide, by decide, by decide⟩

/-- A step that takes an interrupt. -/
theorem interrupt_emulates (h : Emulates unusedFlags cpu ref) (hdue : interruptDue ref = true) :
    (cpu.step flatBus).1 = (ref.step flatBus).1 ∧
      Emulates (unusedFlags ||| M6502.flagD) (cpu.step flatBus).2 (ref.step flatBus).2 := by
  rw [Cpu.step, step_cpu h, step_ref h.latches.unjammed]
  cases hnmi : (ref.sampleNMI flatBus).nmiPending with
  | true =>
      obtain ⟨hcycles, hnext⟩ := emulates_takeNMI h.sample
      exact ⟨hcycles, hnext.busTick _⟩
  | false =>
      have hirq : (ref.core.bus.irq && !ref.regs.flag M6502.flagI) = true := by
        rwa [interruptDue, hnmi, Bool.false_or] at hdue
      obtain ⟨hcycles, hnext⟩ := emulates_takeIRQ h.sample
      rw [hirq]
      exact ⟨hcycles, hnext.busTick _⟩

/-- Two processors with the same registers on the same memory, with or without an NMI pending. -/
def refAt (bus : FlatMemory) (q : M6502.Regs) (nmi : Bool) : M6502.Cpu FlatMemory :=
  { M6502.Cpu.construct bus with core := ⟨q, bus, false⟩, nmiPending := nmi }

def cpuAt (bus : FlatMemory) (q : M6502.Regs) (nmi : Bool) : Cpu FlatMemory :=
  { Cpu.construct bus 0 with core := ⟨emulate 0xB0 q, bus, false⟩, nmiPending := nmi }

theorem emulates_at (bus : FlatMemory) (q : M6502.Regs) (nmi : Bool) :
    Emulates unusedFlags (cpuAt bus q nmi) (refAt bus q nmi) := by
  have hregs : SameRegs (unusedFlags ||| 0) (cpuAt bus q nmi).regs (refAt bus q nmi).regs :=
    sameRegs_emulate .rfl
  exact ⟨hregs, rfl, rfl, rfl, rfl, rfl, rfl, rfl⟩

/-- An NMI takes the place of the increment. -/
theorem interrupt_emulates_nmi :
    Emulates (unusedFlags ||| M6502.flagD) ((cpuAt incCore.bus incCore.regs true).step flatBus).2
        ((refAt incCore.bus incCore.regs true).step flatBus).2 ∧
      ((cpuAt incCore.bus incCore.regs true).step flatBus).1 = 7 ∧
      ((refAt incCore.bus incCore.regs true).step flatBus).2.regs.pc = 0xFFFF := by
  have hnmi := interrupt_emulates (emulates_at incCore.bus incCore.regs true) (by decide)
  exact ⟨hnmi.2, by decide, by decide⟩

/-! ### Runs -/

/-- The next step of a 6502 is one that a 65C816 repeats in every detail. -/
structure Repeatable (ref : M6502.Cpu FlatMemory) : Prop where
  quiet : interruptDue ref = false
  documented : (M6502.opcodeInfo (opcodeAt ref.core)).undocumented = false
  addresses : SameAddresses ref
  flags : exemptFlags ref = 0

/-- The loop of the differential test: after any number of such steps the two processors still
have the same registers, memory and writes. -/
theorem run_emulates (h : Emulates unusedFlags cpu ref) (n : ℕ)
    (hrepeatable : ∀ k < n, Repeatable ((fun ref => (ref.step flatBus).2)^[k] ref)) :
    Emulates unusedFlags ((fun cpu => (cpu.step flatBus).2)^[n] cpu)
      ((fun ref => (ref.step flatBus).2)^[n] ref) := by
  refine iterate_related Repeatable ?_ h n hrepeatable
  intro cpu ref h hok
  have hstep := (step_emulates h hok.quiet hok.documented hok.addresses).2
  rwa [hok.flags] at hstep

/-- `INC $E6` all over memory. -/
def incMemory : FlatMemory where
  mem _ := 0xE6
  irq := false
  nmi := false
  writes := []

/-- Two increments of one cell. -/
theorem run_emulates_twice :
    Emulates unusedFlags
        ((fun cpu => (cpu.step flatBus).2)^[2] (cpuAt incMemory incCore.regs false))
        ((fun ref => (ref.step flatBus).2)^[2] (refAt incMemory incCore.regs false)) ∧
      ((fun ref : M6502.Cpu FlatMemory => (ref.step flatBus).2)^[2]
        (refAt incMemory incCore.regs false)).core.bus.mem 0xE6 = 0xE8 := by
  refine ⟨run_emulates (emulates_at incMemory incCore.regs false) 2 fun k hk => ?_, by decide⟩
  match k, hk with
  | 0, _ => exact ⟨by decide, by decide, by rintro instr ⟨rfl⟩; trivial, by decide⟩
  | 1, _ => exact ⟨by decide, by decide, by rintro instr ⟨rfl⟩; trivial, by decide⟩

end Step

end W65C816

end ScpuEmu
