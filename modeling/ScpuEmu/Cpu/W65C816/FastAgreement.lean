import ScpuEmu.Cpu.W65C816.WidthInvariant

/-!
# The two switches agree

In emulation mode, on registers with the width invariant, an instruction of the
fast switch does what its case of the generic switch does: the same accesses to
the bus in the same order, the same registers and the same cycles.
-/

namespace ScpuEmu

namespace W65C816

open Library

/-! ### Registers in emulation mode -/

/-- The cycle key of emulation mode. -/
def emuKey (dpUnaligned : Bool) : Byte := if dpUnaligned then 15 else 7

structure EmuRegs (r : Regs) : Prop where
  e : r.e = true
  m8 : r.m8 = true
  x8 : r.x8 = true
  cycKey : r.cycKey = emuKey r.dpUnaligned
  getX : r.getX = r.x
  getY : r.getY = r.y

theorem and_low_eq {v : BitVec 16} (h : v ≤ 0xFF) : v &&& 0xFF = v := by
  apply BitVec.eq_of_toNat_eq
  rw [toNat_and_low]
  exact Nat.mod_eq_of_lt (Nat.lt_succ_of_le h)

theorem WidthInv.emuRegs {r : Regs} (h : WidthInv r) (he : r.e = true) : EmuRegs r := by
  have hm : r.computeM8 = true := by rw [Regs.computeM8, he, Bool.true_or]
  have hx : r.computeX8 = true := by rw [Regs.computeX8, he, Bool.true_or]
  have hnarrow : r.x8 = true := h.x8.trans hx
  obtain ⟨hX, hY⟩ := h.index (Or.inl he)
  refine ⟨he, h.m8.trans hm, hnarrow, ?_, ?_, ?_⟩
  · rw [h.cycKey, hm, hx, Regs.computeCycKey, he]
    cases r.dpUnaligned <;> rfl
  · rw [Regs.getX, if_pos hnarrow, and_low_eq hX]
  · rw [Regs.getY, if_pos hnarrow, and_low_eq hY]

theorem setWidth_and_low (n : Byte) : n.setWidth 16 &&& (0xFF : BitVec 16) = n.setWidth 16 :=
  and_low_eq (setWidth_low_le n)

theorem setWidth_setWidth_byte (n : Byte) : (n.setWidth 16).setWidth 8 = n := by
  rw [BitVec.setWidth_setWidth_of_le _ (by decide), BitVec.setWidth_eq]

theorem and_low_eq_setWidth (v : BitVec 16) : v &&& 0xFF = (v.setWidth 8).setWidth 16 := by
  apply BitVec.eq_of_toNat_eq
  rw [toNat_and_low, BitVec.toNat_setWidth, BitVec.toNat_setWidth]
  exact (Nat.mod_eq_of_lt (lt_trans (Nat.mod_lt _ (Nat.two_pow_pos 8)) (by decide))).symm

theorem znE_eq (r : Regs) (v : Byte) : r.znE v = r.setZN8 v := by
  have hmsb : ∀ v : Byte, v &&& 0x80 = if v &&& 0x80 != 0 then 0x80 else 0 := by decide +kernel
  have hbits : ∀ (p : Byte) (z n : Bool),
      (p &&& ~~~(flagZ ||| flagN)) ||| (if z then flagZ else 0) ||| (if n then 0x80 else 0) =
        (if n then (if z then p ||| flagZ else p &&& ~~~flagZ) ||| flagN
          else (if z then p ||| flagZ else p &&& ~~~flagZ) &&& ~~~flagN) := by
    decide +kernel
  have hp := hbits r.p (v == 0) (v &&& 0x80 != 0)
  rw [← hmsb] at hp
  simp only [beq_iff_eq] at hp
  simp only [Regs.znE, Regs.setZN8, Regs.setFlag, hp, beq_iff_eq]

theorem setAcc_eq {r : Regs} (h : r.m8 = true) (n : Byte) :
    r.setAcc (n.setWidth 16) = r.setA n := by
  rw [Regs.setAcc, if_pos h, setWidth_and_low, Regs.setA]

theorem setZNM_eq {r : Regs} (h : r.m8 = true) (v : BitVec 16) :
    r.setZNM v = r.znE (v.setWidth 8) := by
  rw [Regs.setZNM, if_pos h, znE_eq]

theorem setZNX_eq {r : Regs} (h : r.x8 = true) (v : BitVec 16) :
    r.setZNX v = r.znE (v.setWidth 8) := by
  rw [Regs.setZNX, if_pos h, znE_eq]

theorem getAcc_eq {r : Regs} (h : r.m8 = true) : r.getAcc = r.getA.setWidth 16 := by
  rw [Regs.getAcc, if_pos h, and_low_eq_setWidth, Regs.getA]

theorem lda_eq {r : Regs} (h : r.m8 = true) (immediate m8Entry : Bool) (n : Byte) :
    AccOp.lda.apply immediate m8Entry (n.setWidth 16) r = (r.setA n).znE n := by
  rw [AccOp.apply, setAcc_eq h, setZNM_eq (show (r.setA n).m8 = true from h),
    setWidth_setWidth_byte]

theorem getA_setA (r : Regs) (n : Byte) : (r.setA n).getA = n := by
  apply BitVec.eq_of_getLsbD_eq
  intro i hi
  have hhigh : (0xFF00 : BitVec 16).getLsbD i = false := by
    revert i
    decide
  simp only [Regs.getA, Regs.setA, BitVec.getLsbD_setWidth, BitVec.getLsbD_or, BitVec.getLsbD_and,
    hhigh, Bool.and_false, Bool.false_or]
  simp [hi, Nat.lt_trans hi (show 8 < 16 by decide)]

/-- A logic operation on the accumulator that can be taken byte by byte. -/
theorem logic_eq {r : Regs} (h : r.m8 = true) {op : BitVec 16 → BitVec 16 → BitVec 16}
    {opE : Byte → Byte → Byte}
    (hop : ∀ a v, op (a.setWidth 16) (v.setWidth 16) = (opE a v).setWidth 16) (v : Byte) :
    (r.setAcc (op r.getAcc (v.setWidth 16))).setZNM
        (r.setAcc (op r.getAcc (v.setWidth 16))).getAcc =
      (r.setA (opE r.getA v)).znE (opE r.getA v) := by
  have hm : (r.setA (opE r.getA v)).m8 = true := h
  rw [getAcc_eq h, hop, setAcc_eq h, setZNM_eq hm, getAcc_eq hm, getA_setA, setWidth_setWidth_byte]

theorem setWidth_sub_byte (a n : Byte) :
    (a.setWidth 16 - n.setWidth 16 : BitVec 16).setWidth 8 = a - n := by
  have ha := a.isLt
  have hn := n.isLt
  bv_omega

theorem setFlag_eq (r : Regs) (on : Bool) :
    r.setFlag flagC on =
      { r with p := (r.p &&& ~~~flagC) ||| (if on then flagC else 0) } := by
  have hbits : ∀ (p : Byte) (on : Bool), (if on then p ||| flagC else p &&& ~~~flagC) =
      (p &&& ~~~flagC) ||| (if on then flagC else 0) := by
    decide +kernel
  rw [Regs.setFlag, hbits]

theorem cmp_eq {r : Regs} (h : r.m8 = true) (immediate : Bool) (n : Byte) :
    AccOp.cmp.apply immediate true (n.setWidth 16) r =
      { r with p := (r.p &&& ~~~flagC) ||| (if n ≤ r.getA then flagC else 0) }.znE
        (r.getA - n) := by
  have hle : (n.setWidth 16 ≤ (r.getA.setWidth 16 : BitVec 16)) ↔ n ≤ r.getA := by
    have ha := r.getA.isLt
    have hn := n.isLt
    bv_omega
  rw [AccOp.apply, Regs.opCMP, if_pos rfl, getAcc_eq h, setWidth_sub_byte, znE_eq, setFlag_eq]
  simp only [decide_eq_true_eq, hle]

theorem narrow_eq {r : Regs} (h : r.x8 = true) (v : BitVec 16) :
    r.narrow v = (v.setWidth 8).setWidth 16 := by
  rw [Regs.narrow, if_pos h, and_low_eq_setWidth]

/-! ### The cases of the fast switch -/

section Cases

variable {σ : Type} (bus : CpuBus σ) {core : Core Regs σ}

/-- The generic case of an opcode, from the widths its key stands for. -/
theorem run_execGeneric {opcode : Byte} {instr : Instr} {m8 x8 : Bool}
    (hdecode : decode opcode = instr) (hm : (core.regs.cycKey &&& 1 != 0) = m8)
    (hx : (core.regs.cycKey &&& 2 != 0) = x8) :
    (execGeneric bus opcode).run core =
      (cyclesUsed core.regs.cycKey opcode ((execInstr bus m8 x8 instr).run core).1,
        ((execInstr bus m8 x8 instr).run core).2) := by
  subst hdecode hm hx
  rfl

/-- It remains to compare the states and the cycles. -/
theorem fast_eq {fast : CoreM Regs σ ℕ} {opcode : Byte} {instr : Instr}
    (hdecode : decode opcode = instr) (h : EmuRegs core.regs)
    (hcore : (fast.run core).2 = ((execInstr bus true true instr).run core).2)
    (hcycles : (fast.run core).1 = cyclesUsed (emuKey core.regs.dpUnaligned) opcode
      ((execInstr bus true true instr).run core).1) :
    fast.run core = (execGeneric bus opcode).run core := by
  have hbits : ∀ dp, (emuKey dp &&& 1 != 0) = true ∧ (emuKey dp &&& 2 != 0) = true := by decide
  obtain ⟨hm, hx⟩ := hbits core.regs.dpUnaligned
  rw [← h.cycKey] at hm hx
  rw [run_execGeneric bus hdecode hm hx, h.cycKey, ← hcore, ← hcycles]
  rfl

theorem fastLdaImmediate_eq (h : EmuRegs core.regs) :
    (fastLdaImmediate bus).run core = (execGeneric bus 0xA9).run core := by
  have hcycles : ∀ dp, 2 = cyclesUsed (emuKey dp) 0xA9 noPenalty := by decide
  obtain ⟨⟨c, x, y, s, d, pc, pbr, dbr, p, e, m8, x8, key⟩, b, rb⟩ := core
  obtain rfl : m8 = true := h.m8
  apply fast_eq bus rfl h
  · exact congrArg (fun r : Regs => Core.mk r _ _) (lda_eq rfl true true _).symm
  · exact hcycles _

theorem fastLdaDirect_eq (h : EmuRegs core.regs) :
    (fastLdaDirect bus).run core = (execGeneric bus 0xA5).run core := by
  have hcycles : ∀ dp, 3 + dp.toNat = cyclesUsed (emuKey dp) 0xA5 noPenalty := by decide
  obtain ⟨⟨c, x, y, s, d, pc, pbr, dbr, p, e, m8, x8, key⟩, b, rb⟩ := core
  obtain rfl : m8 = true := h.m8
  apply fast_eq bus rfl h
  · exact congrArg (fun r : Regs => Core.mk r _ _) (lda_eq rfl false true _).symm
  · exact hcycles _

theorem fastLdaAbsolute_eq (h : EmuRegs core.regs) :
    (fastLdaAbsolute bus).run core = (execGeneric bus 0xAD).run core := by
  have hcycles : ∀ dp, 4 = cyclesUsed (emuKey dp) 0xAD noPenalty := by decide
  obtain ⟨⟨c, x, y, s, d, pc, pbr, dbr, p, e, m8, x8, key⟩, b, rb⟩ := core
  obtain rfl : m8 = true := h.m8
  apply fast_eq bus rfl h
  · exact congrArg (fun r : Regs => Core.mk r _ _) (lda_eq rfl false true _).symm
  · exact hcycles _

theorem run_effectiveAddress_absoluteX (h : EmuRegs core.regs) :
    (effectiveAddress bus .absoluteX).run core = (eaAbsoluteIndexed bus core.regs.x).run core := by
  rw [← h.getX]
  rfl

theorem run_effectiveAddress_absoluteY (h : EmuRegs core.regs) :
    (effectiveAddress bus .absoluteY).run core = (eaAbsoluteIndexed bus core.regs.y).run core := by
  rw [← h.getY]
  rfl

theorem fastLdaAbsoluteX_eq (h : EmuRegs core.regs) :
    (fastLdaIndexed bus Regs.x).run core = (execGeneric bus 0xBD).run core := by
  have hcycles : ∀ dp crossed, 4 + crossed.toNat =
      cyclesUsed (emuKey dp) 0xBD ⟨crossed, false⟩ := by
    decide
  apply fast_eq bus rfl h
  all_goals
    rw [show execInstr bus true true (decode 0xBD) =
      execAcc bus .lda true (.memory .absoluteX) from rfl, execAcc,
      run_bind_congr (run_effectiveAddress_absoluteX bus h)]
    obtain ⟨⟨c, x, y, s, d, pc, pbr, dbr, p, e, m8, x8, key⟩, b, rb⟩ := core
    obtain rfl : m8 = true := h.m8
  · exact congrArg (fun r : Regs => Core.mk r _ _) (lda_eq rfl false true _).symm
  · exact hcycles _ _

theorem fastLdaAbsoluteY_eq (h : EmuRegs core.regs) :
    (fastLdaIndexed bus Regs.y).run core = (execGeneric bus 0xB9).run core := by
  have hcycles : ∀ dp crossed, 4 + crossed.toNat =
      cyclesUsed (emuKey dp) 0xB9 ⟨crossed, false⟩ := by
    decide
  apply fast_eq bus rfl h
  all_goals
    rw [show execInstr bus true true (decode 0xB9) =
      execAcc bus .lda true (.memory .absoluteY) from rfl, execAcc,
      run_bind_congr (run_effectiveAddress_absoluteY bus h)]
    obtain ⟨⟨c, x, y, s, d, pc, pbr, dbr, p, e, m8, x8, key⟩, b, rb⟩ := core
    obtain rfl : m8 = true := h.m8
  · exact congrArg (fun r : Regs => Core.mk r _ _) (lda_eq rfl false true _).symm
  · exact hcycles _ _

theorem ldx_eq {r : Regs} (h : r.x8 = true) (x8Entry : Bool) (n : Byte) :
    IndexOp.ldx.apply x8Entry (n.setWidth 16) r = { r with x := n.setWidth 16 }.znE n := by
  rw [IndexOp.apply, setZNX_eq (show { r with x := n.setWidth 16 }.x8 = true from h),
    setWidth_setWidth_byte]

theorem ldy_eq {r : Regs} (h : r.x8 = true) (x8Entry : Bool) (n : Byte) :
    IndexOp.ldy.apply x8Entry (n.setWidth 16) r = { r with y := n.setWidth 16 }.znE n := by
  rw [IndexOp.apply, setZNX_eq (show { r with y := n.setWidth 16 }.x8 = true from h),
    setWidth_setWidth_byte]

theorem fastLdx_eq (h : EmuRegs core.regs) :
    (fastLdx bus).run core = (execGeneric bus 0xA2).run core := by
  have hcycles : ∀ dp, 2 = cyclesUsed (emuKey dp) 0xA2 noPenalty := by decide
  obtain ⟨⟨c, x, y, s, d, pc, pbr, dbr, p, e, m8, x8, key⟩, b, rb⟩ := core
  obtain rfl : x8 = true := h.x8
  apply fast_eq bus rfl h
  · exact congrArg (fun r : Regs => Core.mk r _ _) (ldx_eq rfl true _).symm
  · exact hcycles _

theorem fastLdy_eq (h : EmuRegs core.regs) :
    (fastLdy bus).run core = (execGeneric bus 0xA0).run core := by
  have hcycles : ∀ dp, 2 = cyclesUsed (emuKey dp) 0xA0 noPenalty := by decide
  obtain ⟨⟨c, x, y, s, d, pc, pbr, dbr, p, e, m8, x8, key⟩, b, rb⟩ := core
  obtain rfl : x8 = true := h.x8
  apply fast_eq bus rfl h
  · exact congrArg (fun r : Regs => Core.mk r _ _) (ldy_eq rfl true _).symm
  · exact hcycles _

theorem sta_eq {r : Regs} (h : r.m8 = true) : r.getA = r.getAcc.setWidth 8 := by
  rw [getAcc_eq h, setWidth_setWidth_byte]

theorem fastStaDirect_eq (h : EmuRegs core.regs) :
    (fastStaDirect bus).run core = (execGeneric bus 0x85).run core := by
  have hcycles : ∀ dp, 3 + dp.toNat = cyclesUsed (emuKey dp) 0x85 noPenalty := by decide
  obtain ⟨⟨c, x, y, s, d, pc, pbr, dbr, p, e, m8, x8, key⟩, b, rb⟩ := core
  obtain rfl : m8 = true := h.m8
  apply fast_eq bus rfl h
  · exact congrArg (fun v => ((busWrite8 bus _ v).run (Core.mk _ _ _)).2) (sta_eq rfl)
  · exact hcycles _

theorem fastStaAbsolute_eq (h : EmuRegs core.regs) :
    (fastStaAbsolute bus).run core = (execGeneric bus 0x8D).run core := by
  have hcycles : ∀ dp, 4 = cyclesUsed (emuKey dp) 0x8D noPenalty := by decide
  obtain ⟨⟨c, x, y, s, d, pc, pbr, dbr, p, e, m8, x8, key⟩, b, rb⟩ := core
  obtain rfl : m8 = true := h.m8
  apply fast_eq bus rfl h
  · exact congrArg (fun v => ((busWrite8 bus _ v).run (Core.mk _ _ _)).2) (sta_eq rfl)
  · exact hcycles _

theorem fastXor_eq (h : EmuRegs core.regs) :
    (fastLogicImmediate bus (· ^^^ ·)).run core = (execGeneric bus 0x49).run core := by
  have hcycles : ∀ dp, 2 = cyclesUsed (emuKey dp) 0x49 noPenalty := by decide
  have hop (a v : Byte) : a.setWidth 16 ^^^ v.setWidth 16 = (a ^^^ v).setWidth 16 :=
    BitVec.setWidth_xor.symm
  obtain ⟨⟨c, x, y, s, d, pc, pbr, dbr, p, e, m8, x8, key⟩, b, rb⟩ := core
  obtain rfl : m8 = true := h.m8
  apply fast_eq bus rfl h
  · exact congrArg (fun r : Regs => Core.mk r _ _) (logic_eq rfl hop _).symm
  · exact hcycles _

theorem fastAnd_eq (h : EmuRegs core.regs) :
    (fastLogicImmediate bus (· &&& ·)).run core = (execGeneric bus 0x29).run core := by
  have hcycles : ∀ dp, 2 = cyclesUsed (emuKey dp) 0x29 noPenalty := by decide
  have hop (a v : Byte) : a.setWidth 16 &&& v.setWidth 16 = (a &&& v).setWidth 16 :=
    BitVec.setWidth_and.symm
  obtain ⟨⟨c, x, y, s, d, pc, pbr, dbr, p, e, m8, x8, key⟩, b, rb⟩ := core
  obtain rfl : m8 = true := h.m8
  apply fast_eq bus rfl h
  · exact congrArg (fun r : Regs => Core.mk r _ _) (logic_eq rfl hop _).symm
  · exact hcycles _

theorem fastOr_eq (h : EmuRegs core.regs) :
    (fastLogicImmediate bus (· ||| ·)).run core = (execGeneric bus 0x09).run core := by
  have hcycles : ∀ dp, 2 = cyclesUsed (emuKey dp) 0x09 noPenalty := by decide
  have hop (a v : Byte) : a.setWidth 16 ||| v.setWidth 16 = (a ||| v).setWidth 16 :=
    BitVec.setWidth_or.symm
  obtain ⟨⟨c, x, y, s, d, pc, pbr, dbr, p, e, m8, x8, key⟩, b, rb⟩ := core
  obtain rfl : m8 = true := h.m8
  apply fast_eq bus rfl h
  · exact congrArg (fun r : Regs => Core.mk r _ _) (logic_eq rfl hop _).symm
  · exact hcycles _

theorem fastCmpImmediate_eq (h : EmuRegs core.regs) :
    (fastCmpImmediate bus).run core = (execGeneric bus 0xC9).run core := by
  have hcycles : ∀ dp, 2 = cyclesUsed (emuKey dp) 0xC9 noPenalty := by decide
  obtain ⟨⟨c, x, y, s, d, pc, pbr, dbr, p, e, m8, x8, key⟩, b, rb⟩ := core
  obtain rfl : m8 = true := h.m8
  apply fast_eq bus rfl h
  · exact congrArg (fun r : Regs => Core.mk r _ _) (cmp_eq rfl true _).symm
  · exact hcycles _

theorem countX_eq {r : Regs} (h : r.x8 = true) (v : BitVec 16) :
    { r with x := r.narrow v }.setZNX (r.narrow v) =
      { r with x := (v.setWidth 8).setWidth 16 }.znE (v.setWidth 8) := by
  rw [narrow_eq h, setZNX_eq (show { r with x := (v.setWidth 8).setWidth 16 }.x8 = true from h),
    setWidth_setWidth_byte]

theorem countY_eq {r : Regs} (h : r.x8 = true) (v : BitVec 16) :
    { r with y := r.narrow v }.setZNX (r.narrow v) =
      { r with y := (v.setWidth 8).setWidth 16 }.znE (v.setWidth 8) := by
  rw [narrow_eq h, setZNX_eq (show { r with y := (v.setWidth 8).setWidth 16 }.x8 = true from h),
    setWidth_setWidth_byte]

theorem fastInx_eq (h : EmuRegs core.regs) :
    (fastCountX (· + 1)).run core = (execGeneric bus 0xE8).run core := by
  have hcycles : ∀ dp, 2 = cyclesUsed (emuKey dp) 0xE8 noPenalty := by decide
  apply fast_eq bus rfl h
  · exact congrArg (fun r : Regs => Core.mk r _ _) (countX_eq h.x8 _).symm
  · exact hcycles _

theorem fastIny_eq (h : EmuRegs core.regs) :
    (fastCountY (· + 1)).run core = (execGeneric bus 0xC8).run core := by
  have hcycles : ∀ dp, 2 = cyclesUsed (emuKey dp) 0xC8 noPenalty := by decide
  apply fast_eq bus rfl h
  · exact congrArg (fun r : Regs => Core.mk r _ _) (countY_eq h.x8 _).symm
  · exact hcycles _

theorem fastDex_eq (h : EmuRegs core.regs) :
    (fastCountX (· - 1)).run core = (execGeneric bus 0xCA).run core := by
  have hcycles : ∀ dp, 2 = cyclesUsed (emuKey dp) 0xCA noPenalty := by decide
  apply fast_eq bus rfl h
  · exact congrArg (fun r : Regs => Core.mk r _ _) (countX_eq h.x8 _).symm
  · exact hcycles _

theorem fastDey_eq (h : EmuRegs core.regs) :
    (fastCountY (· - 1)).run core = (execGeneric bus 0x88).run core := by
  have hcycles : ∀ dp, 2 = cyclesUsed (emuKey dp) 0x88 noPenalty := by decide
  apply fast_eq bus rfl h
  · exact congrArg (fun r : Regs => Core.mk r _ _) (countY_eq h.x8 _).symm
  · exact hcycles _

/-- The opcodes of the conditional branches the switch has cases for, with the flag and
the value of it that each takes the branch on. -/
theorem fastBranch_eq {opcode flag : Byte} {set : Bool}
    (hdecode : decode opcode = .branch flag set)
    (hflag : flagSel.getD (opcode >>> 6).toNat 0 = flag) (hset : (opcode &&& 0x20 != 0) = set)
    (hcycles : ∀ dp crossed cond, 2 + (if cond then 1 + crossed.toNat else 0) =
      cyclesUsed (emuKey dp) opcode ⟨crossed, cond⟩) (h : EmuRegs core.regs) :
    (fastBranch bus opcode).run core = (execGeneric bus opcode).run core := by
  subst hflag hset
  apply fast_eq bus hdecode h
  · rfl
  · exact hcycles _ _ _

theorem f16E_eq : f16E bus = fetch16 bus := rfl

theorem fastJmp_eq (h : EmuRegs core.regs) :
    (fastJmp bus).run core = (execGeneric bus 0x4C).run core := by
  have hcycles : ∀ dp, 3 = cyclesUsed (emuKey dp) 0x4C noPenalty := by decide
  have hdecode : decode 0x4C = .jump .jmp := rfl
  apply fast_eq bus hdecode h
  · rw [fastJmp, f16E_eq, execInstr, execJump, unpenalised, run_bind, run_bind, run_bind]
    rfl
  · exact hcycles _

theorem fastJsr_eq (h : EmuRegs core.regs) :
    (fastJsr bus).run core = (execGeneric bus 0x20).run core := by
  have hcycles : ∀ dp, 6 = cyclesUsed (emuKey dp) 0x20 noPenalty := by decide
  have hdecode : decode 0x20 = .jump .jsr := rfl
  apply fast_eq bus hdecode h
  · have hfetched : ((fetch16 bus).run core).2.regs.e = true := h.e
    rw [fastJsr, f16E_eq, execInstr, execJump, unpenalised, run_bind, run_bind _ (fun _ => _) core,
      run_bind (fetch16 bus)]
    -- what follows the fetch must not see through it
    generalize (fetch16 bus).run core = out at hfetched
    obtain ⟨target, ⟨c, x, y, s, d, pc, pbr, dbr, p, e, m8, x8, key⟩, b, rb⟩ := out
    obtain rfl : e = true := hfetched
    rfl
  · exact hcycles _

theorem fastRts_eq (h : EmuRegs core.regs) :
    (fastRts bus).run core = (execGeneric bus 0x60).run core := by
  have hcycles : ∀ dp, 6 = cyclesUsed (emuKey dp) 0x60 noPenalty := by decide
  obtain ⟨⟨c, x, y, s, d, pc, pbr, dbr, p, e, m8, x8, key⟩, b, rb⟩ := core
  obtain rfl : e = true := h.e
  apply fast_eq bus rfl h
  · rfl
  · exact hcycles _

theorem fastClc_eq (h : EmuRegs core.regs) :
    fastClc.run core = (execGeneric bus 0x18).run core := by
  have hcycles : ∀ dp, 2 = cyclesUsed (emuKey dp) 0x18 noPenalty := by decide
  apply fast_eq bus rfl h
  · rfl
  · exact hcycles _

theorem fastSec_eq (h : EmuRegs core.regs) :
    fastSec.run core = (execGeneric bus 0x38).run core := by
  have hcycles : ∀ dp, 2 = cyclesUsed (emuKey dp) 0x38 noPenalty := by decide
  apply fast_eq bus rfl h
  · rfl
  · exact hcycles _

/-- Every case of the fast switch is its case of the generic switch. -/
theorem fastSwitch_eq {opcode : Byte} {fast : CoreM Regs σ ℕ}
    (hfast : fastSwitch bus opcode = some fast) (h : EmuRegs core.regs) :
    fast.run core = (execGeneric bus opcode).run core := by
  unfold fastSwitch at hfast
  split at hfast <;> cases hfast
  · exact fastLdaImmediate_eq bus h
  · exact fastLdaDirect_eq bus h
  · exact fastLdaAbsolute_eq bus h
  · exact fastLdaAbsoluteX_eq bus h
  · exact fastLdaAbsoluteY_eq bus h
  · exact fastLdx_eq bus h
  · exact fastLdy_eq bus h
  · exact fastStaDirect_eq bus h
  · exact fastStaAbsolute_eq bus h
  · exact fastXor_eq bus h
  · exact fastAnd_eq bus h
  · exact fastOr_eq bus h
  · exact fastCmpImmediate_eq bus h
  · exact fastInx_eq bus h
  · exact fastDex_eq bus h
  · exact fastIny_eq bus h
  · exact fastDey_eq bus h
  · exact fastBranch_eq bus rfl rfl rfl (by decide) h
  · exact fastBranch_eq bus rfl rfl rfl (by decide) h
  · exact fastBranch_eq bus rfl rfl rfl (by decide) h
  · exact fastBranch_eq bus rfl rfl rfl (by decide) h
  · exact fastBranch_eq bus rfl rfl rfl (by decide) h
  · exact fastBranch_eq bus rfl rfl rfl (by decide) h
  · exact fastJmp_eq bus h
  · exact fastJsr_eq bus h
  · exact fastRts_eq bus h
  · exact fastClc_eq bus h
  · exact fastSec_eq bus h

/-- With the invariant an instruction is what the generic switch makes of it. -/
theorem run_execOpcode (opcode : Byte) (h : WidthInv core.regs) :
    (execOpcode bus opcode).run core = (execGeneric bus opcode).run core := by
  show (if core.regs.e then (fastSwitch bus opcode).getD (execGeneric bus opcode)
    else execGeneric bus opcode).run core = _
  split
  · rename_i he
    cases hfast : fastSwitch bus opcode with
    | none => rfl
    | some fast => exact fastSwitch_eq bus hfast (h.emuRegs he)
  · rfl

end Cases

/-- The two switches agree on the registers, on the bus and its log of accesses, and on
the cycles. -/
theorem fastSwitch_agrees {σ : Type} (bus : CpuBus σ) {opcode : Byte}
    {fast : CoreM Regs (Logged σ) ℕ} (hfast : fastSwitch bus.logged opcode = some fast)
    (core : Core Regs (Logged σ)) (he : core.regs.e = true) (h : WidthInv core.regs) :
    fast.run core = (execGeneric bus.logged opcode).run core :=
  fastSwitch_eq bus.logged hfast (h.emuRegs he)

def pageCrossCore : Core Regs (Logged FlatMemory) where
  regs := Regs.applyE
    { c := 0x1234, x := 0x90, y := 0, s := 0x01F0, d := 0x12, pc := 0xFFFF, pbr := 2, dbr := 0xFF
      p := flagC, e := true, m8 := false, x8 := false, cycKey := 0 }
  bus := ⟨⟨fun a => a.setWidth 8, false, false, []⟩, []⟩
  runBreak := false

theorem fastSwitch_agrees_pageCross :
    (fastLdaIndexed flatBus.logged Regs.x).run pageCrossCore =
      (execGeneric flatBus.logged 0xBD).run pageCrossCore :=
  fastSwitch_agrees flatBus rfl pageCrossCore rfl (widthInv_applyE _)

end W65C816

end ScpuEmu
