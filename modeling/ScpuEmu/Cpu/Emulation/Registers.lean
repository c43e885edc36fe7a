import ScpuEmu.Cpu.M6502.Instructions
import ScpuEmu.Cpu.W65C816.FastAgreement

/-!
# Emulation mode as a 6502

In emulation mode, with an aligned direct page at 0 and both banks 0, the registers of
the 65C816 are those of a 6502 and the hidden half B of the accumulator. Operations of the
two processors on their registers are compared through this map.
-/

namespace ScpuEmu

namespace W65C816

/-- The registers of a 65C816 that emulates a 6502. -/
def emulate (b : Byte) (q : M6502.Regs) : Regs where
  c := b ++ q.a
  x := q.x.setWidth 16
  y := q.y.setWidth 16
  s := M6502.stackAddr q.s
  d := 0
  pc := q.pc
  pbr := 0
  dbr := 0
  p := q.p ||| 0x30
  e := true
  m8 := true
  x8 := true
  cycKey := emuKey false

/-! ### Flags -/

section Flags

variable (b : Byte) (q : M6502.Regs)

theorem flag_emulate {mask : Byte} (h : 0x30 &&& mask = 0) :
    (emulate b q).flag mask = q.flag mask := by
  have hp : (q.p ||| 0x30) &&& mask = q.p &&& mask := by
    rw [BitVec.and_or_distrib_right, h]
    exact BitVec.or_zero
  exact congrArg (· != 0) hp

theorem setFlag_emulate {mask : Byte} (h : 0x30 &&& ~~~mask = 0x30) (on : Bool) :
    (emulate b q).setFlag mask on = emulate b (q.setFlag mask on) := by
  cases on with
  | false =>
      have hp : (q.p ||| 0x30) &&& ~~~mask = (q.p &&& ~~~mask) ||| 0x30 := by
        rw [BitVec.and_or_distrib_right, h]
      exact congrArg (fun p => { emulate b q with p := p }) hp
  | true =>
      have hp : (q.p ||| 0x30) ||| mask = (q.p ||| mask) ||| 0x30 := by
        rw [BitVec.or_assoc, BitVec.or_comm 0x30, ← BitVec.or_assoc]
      exact congrArg (fun p => { emulate b q with p := p }) hp

theorem znE_emulate (v : Byte) : (emulate b q).znE v = emulate b (q.setZN v) := by
  have hp : ((q.p ||| 0x30) &&& ~~~(flagZ ||| flagN)) ||| (if v = 0 then flagZ else 0) |||
      (v &&& 0x80) = (q.setZN v).p ||| 0x30 := by
    have hkeep : (0x30 &&& ~~~(flagZ ||| flagN) : Byte) = 0x30 := rfl
    have hz : (if v = 0 then flagZ else 0) = if v != 0 then 0 else M6502.flagZ := by
      by_cases hv : v = 0 <;> simp [hv] <;> rfl
    rw [BitVec.and_or_distrib_right, hkeep, hz, BitVec.or_assoc, BitVec.or_assoc,
      BitVec.or_comm 0x30, ← BitVec.or_assoc, ← BitVec.or_assoc]
    rfl
  exact congrArg (fun p => { emulate b q with p := p }) hp

theorem setZN8_emulate (v : Byte) : (emulate b q).setZN8 v = emulate b (q.setZN v) := by
  rw [← znE_eq, znE_emulate]

end Flags

/-! ### Loads, transfers and comparisons -/

section Transfers

variable (b : Byte) (q : M6502.Regs)

theorem getA_emulate : (emulate b q).getA = q.a := BitVec.setWidth_append_eq_right

theorem setA_emulate (v : Byte) : (emulate b q).setA v = emulate b { q with a := v } := by
  have hc : ((b ++ q.a : BitVec 16) &&& 0xFF00) ||| v.setWidth 16 = b ++ v := by
    apply BitVec.eq_of_getLsbD_eq
    intro i hi
    have hhigh : (0xFF00 : BitVec 16).getLsbD i = decide (8 ≤ i) := by
      revert i
      decide
    simp only [BitVec.getLsbD_or, BitVec.getLsbD_and, BitVec.getLsbD_append, hhigh,
      BitVec.getLsbD_setWidth]
    by_cases h : i < 8
    · simp [h, hi, Nat.not_le_of_lt h]
    · simp [h, Nat.le_of_not_lt h]
  exact congrArg (fun c => { emulate b q with c := c }) hc

theorem getAcc_emulate : (emulate b q).getAcc = q.a.setWidth 16 := by
  rw [getAcc_eq rfl, getA_emulate]

theorem getX_emulate : (emulate b q).getX = q.x.setWidth 16 := setWidth_and_low q.x

theorem getY_emulate : (emulate b q).getY = q.y.setWidth 16 := setWidth_and_low q.y

/-- A byte of an address in the stack page. -/
theorem setWidth_stackAddr (s : Byte) : (M6502.stackAddr s).setWidth 8 = s := by
  rw [M6502.stackAddr, BitVec.setWidth_or, setWidth_setWidth_byte]
  exact BitVec.zero_or

theorem setWidth_beq_zero (v : Byte) : ((v.setWidth 16 : BitVec 16) == 0) = (v == 0) := by
  rw [Bool.eq_iff_iff, beq_iff_eq, beq_iff_eq]
  constructor <;> intro h <;> bv_omega

theorem setWidth_and_bne (v mask : Byte) :
    ((v.setWidth 16 : BitVec 16) &&& mask.setWidth 16 != 0) = (v &&& mask != 0) := by
  rw [← BitVec.setWidth_and]
  exact congrArg (!·) (setWidth_beq_zero _)

theorem opCMP_emulate (reg v : Byte) :
    (emulate b q).opCMP (reg.setWidth 16) (v.setWidth 16) true = emulate b (q.opCMP reg v) := by
  have hle : (v.setWidth 16 ≤ (reg.setWidth 16 : BitVec 16)) ↔ v ≤ reg := by
    have hr := reg.isLt
    have hv := v.isLt
    bv_omega
  rw [Regs.opCMP, if_pos rfl, setWidth_sub_byte, setFlag_emulate b q rfl, setZN8_emulate]
  simp only [hle]
  rfl

theorem opBIT_emulate (v : Byte) :
    (emulate b q).opBIT (v.setWidth 16) false = emulate b (q.opBIT v) := by
  have hbits (v : Byte) : ((v.setWidth 16 : BitVec 16) &&& 0x0080 != 0) = (v &&& 0x80 != 0) ∧
      ((v.setWidth 16 : BitVec 16) &&& 0x0040 != 0) = (v &&& 0x40 != 0) :=
    ⟨setWidth_and_bne v 0x80, setWidth_and_bne v 0x40⟩
  obtain ⟨hn, hv⟩ := hbits v
  have hz : ((emulate b q).getAcc &&& v.setWidth 16 == 0) = (q.a &&& v == 0) := by
    rw [getAcc_emulate, ← BitVec.setWidth_and]
    exact setWidth_beq_zero _
  rw [Regs.opBIT, hz, setFlag_emulate b q rfl, if_neg Bool.false_ne_true]
  show (Regs.setFlag (emulate b _) flagN ((v.setWidth 16 : BitVec 16) &&& 0x0080 != 0)).setFlag
    flagV ((v.setWidth 16 : BitVec 16) &&& 0x0040 != 0) = _
  rw [hn, hv, setFlag_emulate _ _ rfl, setFlag_emulate _ _ rfl]
  rfl

theorem setAcc_emulate (t : BitVec 16) :
    (emulate b q).setAcc t = emulate b { q with a := t.setWidth 8 } := by
  have hmask : (t &&& 0xFF) = (t &&& 0xFF) &&& 0xFF := by
    rw [BitVec.and_assoc, BitVec.and_self]
  have hlow : (emulate b q).setAcc t = (emulate b q).setAcc ((t.setWidth 8).setWidth 16) := by
    rw [← and_low_eq_setWidth]
    exact congrArg (fun v => { emulate b q with c := ((emulate b q).c &&& 0xFF00) ||| v }) hmask
  rw [hlow, setAcc_eq rfl, setA_emulate]

/-- A result for the accumulator. -/
theorem setAcc_setZNM_emulate (t : BitVec 16) :
    ((emulate b q).setAcc t).setZNM ((emulate b q).setAcc t).getAcc =
      emulate b ({ q with a := t.setWidth 8 }.setZN (t.setWidth 8)) := by
  rw [setAcc_emulate, getAcc_emulate, setZNM_eq rfl, setWidth_setWidth_byte, znE_emulate]

/-- An index register loaded, or moved by one. -/
theorem setX_emulate (v : BitVec 16) :
    { emulate b q with x := (emulate b q).narrow v }.setZNX ((emulate b q).narrow v) =
      emulate b ({ q with x := v.setWidth 8 }.setZN (v.setWidth 8)) := by
  rw [countX_eq rfl]
  exact znE_emulate b { q with x := v.setWidth 8 } _

theorem setY_emulate (v : BitVec 16) :
    { emulate b q with y := (emulate b q).narrow v }.setZNX ((emulate b q).narrow v) =
      emulate b ({ q with y := v.setWidth 8 }.setZN (v.setWidth 8)) := by
  rw [countY_eq rfl]
  exact znE_emulate b { q with y := v.setWidth 8 } _

theorem low_add_one (v : Byte) : (v.setWidth 16 + 1 : BitVec 16).setWidth 8 = v + 1 := by
  bv_omega

theorem low_sub_one (v : Byte) : (v.setWidth 16 - 1 : BitVec 16).setWidth 8 = v - 1 := by
  bv_omega

theorem stackAddr_eq (v : Byte) : 0x0100 ||| (v.setWidth 16 &&& 0xFF) = M6502.stackAddr v := by
  rw [setWidth_and_low]
  rfl

end Transfers

/-- The instruction of the 65C816 with the encoding of a register instruction. -/
def regOp : M6502.RegOp → RegOp
  | .tax => .tax
  | .tay => .tay
  | .tsx => .tsx
  | .txa => .txa
  | .txs => .txs
  | .tya => .tya
  | .inx => .inx
  | .iny => .iny
  | .dex => .dex
  | .dey => .dey
  | .clc => .clc
  | .sec => .sec
  | .cli => .cli
  | .sei => .sei
  | .clv => .clv
  | .cld => .cld
  | .sed => .sed
  | .nop => .nop

theorem apply_regOp (op : M6502.RegOp) (b : Byte) (q : M6502.Regs) :
    (regOp op).apply (emulate b q) = emulate b (op.apply q) := by
  cases op with
  | tax => 
      refine (setX_emulate b q (b ++ q.a)).trans ?_
      rw [BitVec.setWidth_append_eq_right]
      rfl
  | tay =>
      refine (setY_emulate b q (b ++ q.a)).trans ?_
      rw [BitVec.setWidth_append_eq_right]
      rfl
  | tsx =>
      refine (setX_emulate b q (M6502.stackAddr q.s)).trans ?_
      rw [setWidth_stackAddr]
      rfl
  | txa =>
      refine (setAcc_setZNM_emulate b q _).trans ?_
      rw [getX_emulate, setWidth_setWidth_byte]
      rfl
  | tya =>
      refine (setAcc_setZNM_emulate b q _).trans ?_
      rw [getY_emulate, setWidth_setWidth_byte]
      rfl
  | txs => exact congrArg (fun s => { emulate b q with s := s }) (stackAddr_eq q.x)
  | inx =>
      refine (setX_emulate b q _).trans ?_
      rw [show (emulate b q).x + 1 = q.x.setWidth 16 + 1 from rfl, low_add_one]
      rfl
  | iny =>
      refine (setY_emulate b q _).trans ?_
      rw [show (emulate b q).y + 1 = q.y.setWidth 16 + 1 from rfl, low_add_one]
      rfl
  | dex =>
      refine (setX_emulate b q _).trans ?_
      rw [show (emulate b q).x - 1 = q.x.setWidth 16 - 1 from rfl, low_sub_one]
      rfl
  | dey =>
      refine (setY_emulate b q _).trans ?_
      rw [show (emulate b q).y - 1 = q.y.setWidth 16 - 1 from rfl, low_sub_one]
      rfl
  | clc => exact setFlag_emulate b q rfl false
  | sec => exact setFlag_emulate b q rfl true
  | cli => exact setFlag_emulate b q rfl false
  | sei => exact setFlag_emulate b q rfl true
  | clv => exact setFlag_emulate b q rfl false
  | cld => exact setFlag_emulate b q rfl false
  | sed => exact setFlag_emulate b q rfl true
  | nop => rfl

/-! ### Shifts and counts -/

def rmwOp : M6502.RmwOp → RmwOp
  | .inc => .inc
  | .dec => .dec
  | .asl => .asl
  | .lsr => .lsr
  | .rol => .rol
  | .ror => .ror

/-- The carries out of a byte, and a shift of it with carry `c`, at 16 bits. -/
theorem shift_bits (v : Byte) (c : Bool) :
    ((v.setWidth 16 : BitVec 16) &&& 0x0080 != 0) = (v &&& 0x80 != 0) ∧
      ((v.setWidth 16 : BitVec 16) &&& 1 != 0) = (v &&& 0x01 != 0) ∧
      (((v.setWidth 16 : BitVec 16) <<< 1) ||| (if c then 1 else 0)).setWidth 8 =
        (v <<< 1) ||| (if c then 1 else 0) ∧
      ((((v.setWidth 16 : BitVec 16) >>> 1) ||| (if c then 0x0080 else 0)) &&& 0xFF).setWidth 8 =
        (v >>> 1) ||| (if c then 0x80 else 0) := by
  revert v c
  decide +kernel

theorem shift_in_zero (v : Byte) :
    ((v.setWidth 16 : BitVec 16) <<< 1).setWidth 8 = v <<< 1 ∧
      (((v.setWidth 16 : BitVec 16) >>> 1) &&& 0x7F).setWidth 8 = v >>> 1 := by
  revert v
  decide +kernel

theorem apply_rmwOp (op : M6502.RmwOp) (b : Byte) (q : M6502.Regs) (v : Byte) :
    ((rmwOp op).apply (emulate b q) (v.setWidth 16)).1 = emulate b (op.apply q v).1 ∧
      ((rmwOp op).apply (emulate b q) (v.setWidth 16)).2.setWidth 8 = (op.apply q v).2 := by
  have hc : (emulate b q).flag flagC = q.flag M6502.flagC := flag_emulate b q rfl
  obtain ⟨htop, hbottom, hrol, hror⟩ := shift_bits v (q.flag M6502.flagC)
  have hcarry (v' : BitVec 16) (on : Bool) (h : (v' != 0) = on) :
      (emulate b q).setFlag flagC (v' != 0) = emulate b (q.setFlag M6502.flagC on) := by
    rw [h]
    exact setFlag_emulate b q rfl on
  cases op with
  | inc => exact ⟨rfl, low_add_one v⟩
  | dec => exact ⟨rfl, low_sub_one v⟩
  | asl => exact ⟨hcarry _ _ htop, (shift_in_zero v).1⟩
  | lsr => exact ⟨hcarry _ _ hbottom, (shift_in_zero v).2⟩
  | rol =>
      refine ⟨hcarry _ _ htop, Eq.trans ?_ hrol⟩
      rw [← hc]
      rfl
  | ror =>
      refine ⟨hcarry _ _ hbottom, Eq.trans ?_ hror⟩
      rw [← hc]
      rfl

/-- After the write of a read-modify-write only N and Z remain to be set. -/
theorem finish_rmwOp (op : M6502.RmwOp) (b : Byte) (q : M6502.Regs) (t : BitVec 16) :
    (rmwOp op).finish t (emulate b q) = emulate b (q.setZN (t.setWidth 8)) := by
  have hfinish : (rmwOp op).finish t (emulate b q) = (emulate b q).setZNM t := by
    cases op <;> rfl
  rw [hfinish, setZNM_eq rfl, znE_emulate]

theorem applyAcc_of_apply {op : RmwOp} {r r' : Regs} {t : BitVec 16}
    (h : op.apply r r.getAcc = (r', t)) :
    op.applyAcc r = (r'.setAcc t).setZNM (r'.setAcc t).getAcc := by
  rw [RmwOp.applyAcc, h]

theorem applyAcc_rmwOp (op : M6502.RmwOp) (b : Byte) (q : M6502.Regs) :
    (rmwOp op).applyAcc (emulate b q) = emulate b (op.applyAcc q) := by
  obtain ⟨hflags, hvalue⟩ := apply_rmwOp op b q q.a
  rw [← getAcc_emulate b q] at hflags hvalue
  have happly : (rmwOp op).apply (emulate b q) (emulate b q).getAcc =
      (emulate b (op.apply q q.a).1, _) := Prod.ext hflags rfl
  rw [applyAcc_of_apply happly, setAcc_setZNM_emulate, hvalue]
  rfl

end W65C816

end ScpuEmu
