import ScpuEmu.Cpu.Emulation.Registers
import ScpuEmu.Cpu.W65C816.Decimal

/-!
# Arithmetic in emulation mode

The two processors add and subtract alike in binary. In decimal mode they differ in N and Z,
which the 6502 takes from intermediate results, and agree in A, C and V for all operands.
-/

namespace ScpuEmu

namespace W65C816

open M6502.Regs (word low)

/-! ### Registers that differ in some flags -/

/-- The same registers, but for the flags in `mask`. -/
structure SameBut (mask : Byte) (q' q : M6502.Regs) : Prop where
  a : q'.a = q.a
  x : q'.x = q.x
  y : q'.y = q.y
  s : q'.s = q.s
  pc : q'.pc = q.pc
  p : q'.p ||| mask = q.p ||| mask

theorem or_and_distrib (x y z : Byte) : (x &&& y) ||| z = (x ||| z) &&& (y ||| z) := by
  apply BitVec.eq_of_getLsbD_eq
  intro i _
  simp only [BitVec.getLsbD_or, BitVec.getLsbD_and, Bool.or_and_distrib_right]

section SameBut

variable {mask : Byte} {q q' q'' : M6502.Regs}

theorem SameBut.rfl : SameBut mask q q := ⟨.refl _, .refl _, .refl _, .refl _, .refl _, .refl _⟩

theorem SameBut.symm (h : SameBut mask q' q) : SameBut mask q q' :=
  ⟨h.a.symm, h.x.symm, h.y.symm, h.s.symm, h.pc.symm, h.p.symm⟩

theorem SameBut.trans (h : SameBut mask q'' q') (h' : SameBut mask q' q) : SameBut mask q'' q :=
  ⟨h.a.trans h'.a, h.x.trans h'.x, h.y.trans h'.y, h.s.trans h'.s, h.pc.trans h'.pc,
    h.p.trans h'.p⟩

theorem SameBut.setA (h : SameBut mask q' q) (v : Byte) :
    SameBut mask { q' with a := v } { q with a := v } := ⟨.refl _, h.x, h.y, h.s, h.pc, h.p⟩

/-- Flags that are equal outside the mask stay so. -/
theorem SameBut.setFlag (h : SameBut mask q' q) (flag : Byte) (on : Bool) :
    SameBut mask (q'.setFlag flag on) (q.setFlag flag on) := by
  refine ⟨h.a, h.x, h.y, h.s, h.pc, ?_⟩
  cases on with
  | false =>
      show (q'.p &&& ~~~flag) ||| mask = (q.p &&& ~~~flag) ||| mask
      rw [or_and_distrib, h.p, ← or_and_distrib]
  | true =>
      show (q'.p ||| flag) ||| mask = (q.p ||| flag) ||| mask
      rw [BitVec.or_assoc, BitVec.or_comm flag, ← BitVec.or_assoc, h.p, BitVec.or_assoc,
        BitVec.or_comm mask, ← BitVec.or_assoc]

/-- A flag in the mask does not count. -/
theorem sameBut_setFlag {flag : Byte} (h : flag ||| mask = mask) (on : Bool) :
    SameBut mask (q.setFlag flag on) q := by
  refine ⟨.refl _, .refl _, .refl _, .refl _, .refl _, ?_⟩
  cases on with
  | false =>
      show (q.p &&& ~~~flag) ||| mask = q.p ||| mask
      have hmask : ~~~flag ||| mask = BitVec.allOnes 8 := by
        rw [← h, ← BitVec.or_assoc, BitVec.not_or_self, BitVec.allOnes_or]
      rw [or_and_distrib, hmask, BitVec.and_allOnes]
  | true =>
      show (q.p ||| flag) ||| mask = q.p ||| mask
      rw [BitVec.or_assoc, h]

theorem setZN_eq (v : Byte) :
    q.setZN v = (q.setFlag M6502.flagZ (v == 0)).setFlag M6502.flagN (v &&& 0x80 != 0) := by
  have hmsb : ∀ v : Byte, v &&& 0x80 = if v &&& 0x80 != 0 then 0x80 else 0 := by decide +kernel
  have hbits : ∀ (p : Byte) (z n : Bool),
      (p &&& ~~~(flagZ ||| flagN)) ||| (if !z then 0 else flagZ) ||| (if n then 0x80 else 0) =
        (if n then (if z then p ||| flagZ else p &&& ~~~flagZ) ||| flagN
          else (if z then p ||| flagZ else p &&& ~~~flagZ) &&& ~~~flagN) := by
    decide +kernel
  have hp := hbits q.p (v == 0) (v &&& 0x80 != 0)
  rw [← hmsb] at hp
  exact congrArg (fun p => { q with p := p }) hp

theorem sameBut_setZN (v : Byte) : SameBut (M6502.flagN ||| M6502.flagZ) (q.setZN v) q := by
  rw [setZN_eq]
  exact (sameBut_setFlag rfl _).trans (sameBut_setFlag rfl _)

theorem setFlag_comm (c v : Bool) :
    (q.setFlag M6502.flagC c).setFlag M6502.flagV v =
      (q.setFlag M6502.flagV v).setFlag M6502.flagC c := by
  have hbits : ∀ (p : Byte) (c v : Bool),
      (if v then (if c then p ||| flagC else p &&& ~~~flagC) ||| flagV
          else (if c then p ||| flagC else p &&& ~~~flagC) &&& ~~~flagV) =
        (if c then (if v then p ||| flagV else p &&& ~~~flagV) ||| flagC
          else (if v then p ||| flagV else p &&& ~~~flagV) &&& ~~~flagC) := by
    decide +kernel
  exact congrArg (fun p => { q with p := p }) (hbits q.p c v)

end SameBut

/-! ### Signs -/

theorem and_sign {n : ℕ} (hn : 7 < n) (w : BitVec n) :
    (w &&& BitVec.twoPow n 7 != 0) = w.getLsbD 7 := by
  have hne : BitVec.twoPow n 7 ≠ 0#n := by
    intro h
    have hbit := congrArg (fun v => v.getLsbD 7) h
    simp [hn] at hbit
  rw [BitVec.and_twoPow]
  cases w.getLsbD 7 with
  | false => simp
  | true => simpa using hne

/-- Overflow of a sum, from operands of a byte and the byte that the sum ends in. -/
theorem overflow_add (a v : Byte) {sum : BitVec 32} {result : Byte}
    (h : sum.getLsbD 7 = result.getLsbD 7) :
    ((~~~(a.setWidth 16 ^^^ v.setWidth 16 : BitVec 16)).setWidth 32 &&&
        ((a.setWidth 16 : BitVec 16).setWidth 32 ^^^ sum) &&& 0x80 != 0) =
      ((~~~(a ^^^ v) &&& (a ^^^ result)) &&& 0x80 != 0) := by
  refine (and_sign (by decide) _).trans (Eq.trans ?_ (and_sign (by decide) _).symm)
  simp only [BitVec.getLsbD_and, BitVec.getLsbD_xor, BitVec.getLsbD_not, BitVec.getLsbD_setWidth,
    h, Nat.reduceLT, decide_true, Bool.true_and]

theorem overflow_sub (a v : Byte) {diff : BitVec 32} {result : Byte}
    (h : diff.getLsbD 7 = result.getLsbD 7) :
    ((a.setWidth 16 ^^^ v.setWidth 16 : BitVec 16).setWidth 32 &&&
        ((a.setWidth 16 : BitVec 16).setWidth 32 ^^^ diff) &&& 0x80 != 0) =
      ((a ^^^ v) &&& (a ^^^ result) &&& 0x80 != 0) := by
  refine (and_sign (by decide) _).trans (Eq.trans ?_ (and_sign (by decide) _).symm)
  simp only [BitVec.getLsbD_and, BitVec.getLsbD_xor, BitVec.getLsbD_setWidth, h, Nat.reduceLT,
    decide_true, Bool.true_and]

/-! ### Addition -/

section Arithmetic

variable (b : Byte) (q : M6502.Regs) (v : Byte)

theorem toNat_carry : (emulate b q).carryIn.toNat = (q.flag M6502.flagC).toNat ∧
    q.carryIn.toNat = (q.flag M6502.flagC).toNat := by
  constructor
  · rw [Regs.toNat_carryIn]
    exact congrArg Bool.toNat (flag_emulate b q rfl)
  · unfold M6502.Regs.carryIn
    cases q.flag M6502.flagC <;> rfl

theorem setResult_emulate (result : BitVec 32) :
    (emulate b q).setResult true result =
      emulate b ({ q with a := result.setWidth 8 }.setZN (result.setWidth 8)) := by
  show ((emulate b q).setAcc (result.setWidth 16)).setZN8 (result.setWidth 8) = _
  have hlow : (result.setWidth 16).setWidth 8 = result.setWidth 8 :=
    BitVec.setWidth_setWidth_of_le _ (by decide)
  rw [setAcc_emulate, setZN8_emulate, hlow]

/-- The sums of the two processors. -/
theorem sum_eq (a : Byte) {c : BitVec 32} {c' : BitVec 16} {k : Bool} (hc : c.toNat = k.toNat)
    (hc' : c'.toNat = k.toNat) :
    ((a.setWidth 16).setWidth 32 + (v.setWidth 16).setWidth 32 + c).setWidth 8 =
        low (word a + word v + c') ∧
      (0xFF < (a.setWidth 16).setWidth 32 + (v.setWidth 16).setWidth 32 + c ↔
        0xFF < word a + word v + c') := by
  have ha := a.isLt
  have hv := v.isLt
  have hk := k.toNat_le
  have hsum : ((a.setWidth 16).setWidth 32 + (v.setWidth 16).setWidth 32 + c).toNat =
      a.toNat + v.toNat + k.toNat := by
    rw [BitVec.toNat_add, BitVec.toNat_add, hc]
    simp only [BitVec.toNat_setWidth]
    omega
  have hsum' : (word a + word v + c').toNat = a.toNat + v.toNat + k.toNat := by
    rw [BitVec.toNat_add, BitVec.toNat_add, hc']
    simp only [word, BitVec.toNat_setWidth]
    omega
  constructor
  · apply BitVec.eq_of_toNat_eq
    rw [low, BitVec.toNat_setWidth, BitVec.toNat_setWidth, hsum, hsum']
  · rw [BitVec.lt_def, BitVec.lt_def, hsum, hsum']
    rfl

theorem getLsbD_of_setWidth {w : BitVec 32} {result : Byte} (h : w.setWidth 8 = result) :
    w.getLsbD 7 = result.getLsbD 7 := by
  rw [← h, BitVec.getLsbD_setWidth]
  rfl

theorem opADC_binary (hd : q.flag M6502.flagD = false) :
    (emulate b q).opADC (v.setWidth 16) = emulate b (q.opADC v) := by
  have hd' : ¬ (emulate b q).flag flagD = true := by
    rw [flag_emulate b q rfl]
    exact ne_true_of_eq_false hd
  obtain ⟨hc, hc'⟩ := toNat_carry b q
  obtain ⟨hlow, hcarry⟩ := sum_eq v q.a hc hc'
  have hoverflow := overflow_add q.a v (getLsbD_of_setWidth hlow)
  rw [Regs.opADC, if_neg hd', getAcc_emulate, M6502.Regs.opADC, hd, if_neg Bool.false_ne_true,
    M6502.Regs.adcBinary, setFlag_comm, ← hoverflow, ← hlow]
  simp only [← hcarry]
  show ((Regs.setFlag (emulate b q) flagV _).setFlag flagC _).setResult true _ = _
  rw [setFlag_emulate b q rfl, setFlag_emulate _ _ rfl, setResult_emulate]
  rfl

/-! ### Subtraction -/

/-- The sum by which the 65C816 subtracts a byte. -/
def complementSum (a v : Byte) (c : BitVec 32) : BitVec 32 :=
  (a.setWidth 16).setWidth 32 + (~~~((v.setWidth 16).setWidth 32) &&& 0xFF) + c

/-- The differences of the two processors. -/
theorem difference_eq (a : Byte) {c : BitVec 32} {c' : BitVec 16} {k : Bool}
    (hc : c.toNat = k.toNat) (hc' : c'.toNat = k.toNat) :
    (complementSum a v c).setWidth 8 = low (word a - word v - (1 - c')) ∧
      (0xFF < complementSum a v c ↔ word a - word v - (1 - c') < 0x100) := by
  have ha := a.isLt
  have hv := v.isLt
  have hk := k.toNat_le
  have hcomplement : (~~~((v.setWidth 16).setWidth 32) &&& 0xFF : BitVec 32).toNat =
      255 - v.toNat := by
    have hmask (m : ℕ) : m &&& 255 = m % 256 := Nat.and_two_pow_sub_one_eq_mod m 8
    rw [BitVec.toNat_and, BitVec.toNat_not]
    show (2 ^ 32 - 1 - _) &&& 255 = _
    rw [hmask]
    simp only [BitVec.toNat_setWidth]
    omega
  have hsum : (complementSum a v c).toNat = a.toNat + (255 - v.toNat) + k.toNat := by
    rw [complementSum, BitVec.toNat_add, BitVec.toNat_add, hc, hcomplement]
    simp only [BitVec.toNat_setWidth]
    omega
  have hdiff : (word a - word v - (1 - c')).toNat =
      (2 ^ 16 - (1 - k.toNat) + (2 ^ 16 - v.toNat + a.toNat) % 2 ^ 16) % 2 ^ 16 := by
    have hone : (1 : BitVec 16).toNat = 1 := rfl
    rw [BitVec.toNat_sub, BitVec.toNat_sub, BitVec.toNat_sub, hc', hone]
    simp only [word, BitVec.toNat_setWidth]
    omega
  constructor
  · apply BitVec.eq_of_toNat_eq
    rw [low, BitVec.toNat_setWidth, BitVec.toNat_setWidth, hsum, hdiff]
    omega
  · rw [BitVec.lt_def, BitVec.lt_def, hsum, hdiff]
    show 255 < _ ↔ _ < 256
    omega

/-- The flags C and V of a subtraction. -/
def sbcFlags (q : M6502.Regs) (v : Byte) : M6502.Regs :=
  let diff := word q.a - word v - (1 - q.carryIn)
  (q.setFlag M6502.flagC (diff < 0x100)).setFlag M6502.flagV
    ((q.a ^^^ v) &&& (q.a ^^^ low diff) &&& 0x80 != 0)

/-- In decimal mode too, C and V are those of the binary difference. -/
theorem opSBC_emulate :
    (emulate b q).opSBC (v.setWidth 16) = (emulate b (sbcFlags q v)).setResult true
      (if (emulate b q).flag flagD then
        (Regs.decimalDifference true (q.a.setWidth 16) (v.setWidth 16)
          (1 - (emulate b q).carryIn)).result
      else complementSum q.a v (emulate b q).carryIn) := by
  obtain ⟨hc, hc'⟩ := toNat_carry b q
  obtain ⟨hlow, hcarry⟩ := difference_eq v q.a hc hc'
  have hmasked : (complementSum q.a v (emulate b q).carryIn &&& 0xFF).setWidth 8 =
      low (word q.a - word v - (1 - q.carryIn)) := by
    rw [← hlow, BitVec.setWidth_and]
    exact BitVec.and_allOnes
  have hflags : ((emulate b q).setFlag flagC
      (0xFF < complementSum q.a v (emulate b q).carryIn)).setFlag flagV
        ((q.a.setWidth 16 ^^^ v.setWidth 16 : BitVec 16).setWidth 32 &&&
          ((q.a.setWidth 16 : BitVec 16).setWidth 32 ^^^
            (complementSum q.a v (emulate b q).carryIn &&& 0xFF)) &&& 0x80 != 0) =
      emulate b (sbcFlags q v) := by
    rw [overflow_sub q.a v (getLsbD_of_setWidth hmasked), setFlag_emulate b q rfl,
      setFlag_emulate _ _ rfl]
    simp only [hcarry]
    rfl
  rw [Regs.opSBC, getAcc_emulate, ← hflags]
  cases (emulate b q).flag flagD <;> rfl

theorem opSBC_binary (hd : q.flag M6502.flagD = false) :
    (emulate b q).opSBC (v.setWidth 16) = emulate b (q.opSBC v) := by
  obtain ⟨hc, hc'⟩ := toNat_carry b q
  obtain ⟨hlow, -⟩ := difference_eq v q.a hc hc'
  rw [opSBC_emulate, flag_emulate b q rfl]
  show Regs.setResult _ true (if q.flag M6502.flagD = true then _ else _) = _
  rw [hd, if_neg Bool.false_ne_true, setResult_emulate, hlow, M6502.Regs.opSBC, hd,
    if_neg Bool.false_ne_true]
  rfl

end Arithmetic

/-! ### Decimal addition -/

section DecimalAddition

variable (a v : Byte) (k : Bool)

/-- The sum of the low nibbles. -/
def lowSum : ℕ := a.toNat % 16 + v.toNat % 16 + k.toNat

/-- The sum of the high nibbles. -/
def highSum : ℕ := a.toNat / 16 + v.toNat / 16 + if 9 < lowSum a v k then 1 else 0

/-- The digit that a sum of nibbles leaves. -/
def sumNibble (n : ℕ) : ℕ := (if 9 < n then n + 6 else n) % 16

theorem sumNibble_lt (n : ℕ) : sumNibble n < 16 := Nat.mod_lt _ (by decide)

theorem bcdDigit_zero : bcdDigit (a.setWidth 16) 0 = a.toNat % 16 := by
  have ha := a.isLt
  rw [bcdDigit, BitVec.toNat_setWidth]
  omega

theorem bcdDigit_one : bcdDigit (a.setWidth 16) 1 = a.toNat / 16 := by
  have ha := a.isLt
  rw [bcdDigit, BitVec.toNat_setWidth]
  omega

variable {a v : Byte} {k : Bool}

theorem lowSum_lt : lowSum a v k < 32 := by
  have hk := k.toNat_le
  rw [lowSum]
  omega

theorem highSum_lt : highSum a v k < 32 := by
  have ha := a.isLt
  have hv := v.isLt
  rw [highSum]
  split <;> omega

/-- The fix-up of any sum of two nibbles. -/
theorem addDigit_nibble {dg : BitVec 32} {n : ℕ} (h : dg.toNat = n) (hn : n < 32) :
    ((if 9 < dg then dg + 6 else dg) &&& 0xF).toNat = sumNibble n ∧
      (if 9 < dg then 1 else 0 : BitVec 32).toNat = if 9 < n then 1 else 0 := by
  have hall : ∀ n : Fin 32, ((if 9 < BitVec.ofNat 32 n then BitVec.ofNat 32 n + 6
      else BitVec.ofNat 32 n) &&& 0xF).toNat = sumNibble n ∧
      (if 9 < BitVec.ofNat 32 n then 1 else 0 : BitVec 32).toNat =
        if 9 < (n : ℕ) then 1 else 0 := by
    decide
  subst h
  simpa only [BitVec.ofNat_toNat, BitVec.setWidth_eq] using hall ⟨_, hn⟩

/-- One pass of the addition loop, for any nibbles. -/
theorem addDigit_step {x y : BitVec 16} {i n : ℕ} {s : Regs.DecimalSum} (hi : i < 4)
    (hresult : s.result.toNat < 16 ^ i)
    (hn : bcdDigit x i + bcdDigit y i + s.carry.toNat = n) (hlt : n < 32) :
    (Regs.addDigit x y s i).result.toNat = s.result.toNat + sumNibble n * 16 ^ i ∧
      (Regs.addDigit x y s i).carry.toNat = (if 9 < n then 1 else 0) ∧
      (Regs.addDigit x y s i).raw.getLsbD (4 * i + 3) = n.testBit 3 := by
  have hdg : (Regs.digit x i + Regs.digit y i + s.carry).toNat = n := by
    rw [BitVec.toNat_add, BitVec.toNat_add, toNat_digit, toNat_digit]
    omega
  obtain ⟨hfixed, hcarry⟩ := addDigit_nibble hdg hlt
  refine ⟨?_, hcarry, ?_⟩
  · rw [← hfixed]
    exact toNat_or_nibble hi hresult (hfixed ▸ sumNibble_lt n)
  · -- the digits below do not reach the sign
    have hbelow : s.result.getLsbD (4 * i + 3) = false :=
      Nat.testBit_lt_two_pow (Nat.lt_of_lt_of_le hresult (by
        rw [show 16 ^ i = 2 ^ (4 * i) from (Nat.pow_mul 2 4 i).symm]
        exact Nat.pow_le_pow_right (by decide) (Nat.le_add_right _ 3)))
    have hin : decide (4 * i + 3 < 32) = true := decide_eq_true (by omega)
    have hover : decide (4 * i + 3 < 4 * i) = false := decide_eq_false (by omega)
    show (s.result ||| ((Regs.digit x i + Regs.digit y i + s.carry) <<< (4 * i))).getLsbD
      (4 * i + 3) = n.testBit 3
    rw [BitVec.getLsbD_or, hbelow, BitVec.getLsbD_shiftLeft, hin, hover, Nat.add_sub_cancel_left,
      ← hdg]
    rfl

theorem decimalSum_spec {c : BitVec 32} (hc : c.toNat = k.toNat) :
    let sum := Regs.decimalSum true (a.setWidth 16) (v.setWidth 16) c
    sum.result.toNat = sumNibble (lowSum a v k) + 16 * sumNibble (highSum a v k) ∧
      (sum.carry != 0) = decide (9 < highSum a v k) ∧
      sum.raw.getLsbD 7 = (highSum a v k).testBit 3 := by
  have ha := a.isLt
  have hv := v.isLt
  have hk := k.toNat_le
  have hlow : bcdDigit (a.setWidth 16) 0 + bcdDigit (v.setWidth 16) 0 + c.toNat =
      lowSum a v k := by
    rw [bcdDigit_zero, bcdDigit_zero, hc, lowSum]
  obtain ⟨hresult₀, hcarry₀, -⟩ := addDigit_step (s := ⟨0, 0, c⟩) (by decide) Nat.one_pos hlow
    lowSum_lt
  have hfit := sumNibble_lt (lowSum a v k)
  rw [Nat.pow_zero, Nat.mul_one] at hresult₀
  have hhigh : bcdDigit (a.setWidth 16) 1 + bcdDigit (v.setWidth 16) 1 +
      (Regs.addDigit (a.setWidth 16) (v.setWidth 16) ⟨0, 0, c⟩ 0).carry.toNat =
      highSum a v k := by
    rw [bcdDigit_one, bcdDigit_one, hcarry₀, highSum]
  obtain ⟨hresult, hcarry, hsign⟩ := addDigit_step (by decide) (by
    rw [hresult₀]
    exact (Nat.zero_add _).trans_lt hfit) hhigh highSum_lt
  refine ⟨?_, ?_, hsign⟩
  · refine hresult.trans ?_
    rw [hresult₀, Nat.pow_one, Nat.mul_comm]
    exact congrArg (· + _) (Nat.zero_add _)
  · rw [Bool.eq_iff_iff, bne_iff_ne, decide_eq_true_iff, ne_eq, ← BitVec.toNat_inj]
    show ¬(Regs.addDigit _ _ (Regs.addDigit _ _ _ 0) 1).carry.toNat = 0 ↔ _
    rw [hcarry]
    split <;> simp_all

/-! The same sum at the 6502, in words. -/

def adcLow (q : M6502.Regs) (v : Byte) : BitVec 16 :=
  word (q.a &&& 0x0F) + word (v &&& 0x0F) + q.carryIn

/-- The high half before its fix-up. -/
def adcHigh (q : M6502.Regs) (v : Byte) : BitVec 16 :=
  if 0x09 < adcLow q v then word (q.a &&& 0xF0) + word (v &&& 0xF0) + 0x10
  else word (q.a &&& 0xF0) + word (v &&& 0xF0)

theorem toNat_low_nibble (a : Byte) : (word (a &&& 0x0F)).toNat = a.toNat % 16 := by
  have hmask : (a &&& 0x0F).toNat = a.toNat % 2 ^ 4 := Nat.and_two_pow_sub_one_eq_mod a.toNat 4
  rw [word, BitVec.toNat_setWidth, hmask]
  omega

theorem toNat_high_nibble (a : Byte) : (word (a &&& 0xF0)).toNat = 16 * (a.toNat / 16) := by
  revert a
  decide +kernel

theorem toNat_adcLow (q : M6502.Regs) (v : Byte) :
    (adcLow q v).toNat = lowSum q.a v (q.flag M6502.flagC) := by
  have hk := (q.flag M6502.flagC).toNat_le
  rw [adcLow, BitVec.toNat_add, BitVec.toNat_add, toNat_low_nibble, toNat_low_nibble,
    (toNat_carry 0 q).2, lowSum]
  omega

theorem toNat_adcHigh (q : M6502.Regs) (v : Byte) :
    (adcHigh q v).toNat = 16 * highSum q.a v (q.flag M6502.flagC) := by
  have ha := q.a.isLt
  have hv := v.isLt
  have hiff : (0x09 < adcLow q v) ↔ 9 < lowSum q.a v (q.flag M6502.flagC) := by
    rw [BitVec.lt_def, toNat_adcLow]
    rfl
  have hten : (0x10 : BitVec 16).toNat = 16 := rfl
  rw [adcHigh, highSum]
  simp only [hiff]
  split
  · rw [BitVec.toNat_add, BitVec.toNat_add, toNat_high_nibble, toNat_high_nibble, hten]
    omega
  · rw [BitVec.toNat_add, toNat_high_nibble, toNat_high_nibble]
    omega

/-- The nibbles of two words, put together. -/
theorem toNat_pack (lo hi : BitVec 16) :
    (low ((lo &&& 0x0F) ||| (hi &&& 0xF0))).toNat = lo.toNat % 16 + 16 * (hi.toNat / 16 % 16) := by
  have hbits : low ((lo &&& 0x0F) ||| (hi &&& 0xF0)) = hi.extractLsb' 4 4 ++ lo.setWidth 4 := by
    have hmask : ∀ i < 8, (0x0F : BitVec 16).getLsbD i = decide (i < 4) ∧
        (0xF0 : BitVec 16).getLsbD i = decide (4 ≤ i) := by
      decide
    apply BitVec.eq_of_getLsbD_eq
    intro i hi'
    obtain ⟨hlo, hhi⟩ := hmask i hi'
    simp only [low, BitVec.getLsbD_setWidth, BitVec.getLsbD_or, BitVec.getLsbD_and, hlo, hhi,
      BitVec.getLsbD_append, BitVec.getLsbD_extractLsb', hi', decide_true, Bool.true_and]
    by_cases h : i < 4
    · simp [h, Nat.not_le_of_lt h]
    · have hle := Nat.le_of_not_lt h
      simp [h, hle, Nat.add_sub_cancel' hle, show i - 4 < 4 by omega]
  have hlt : (lo.setWidth 4).toNat < 2 ^ 4 := (lo.setWidth 4).isLt
  rw [hbits, BitVec.toNat_append, ← Nat.shiftLeft_add_eq_or_of_lt hlt, Nat.shiftLeft_eq,
    BitVec.extractLsb'_toNat, BitVec.toNat_setWidth, Nat.shiftRight_eq_div_pow]
  omega

/-- The fix-up of the low half. -/
theorem fix_low {lo : BitVec 16} {n : ℕ} (h : lo.toNat = n) (hn : n < 32) :
    (if 0x09 < lo then lo + 0x06 else lo).toNat % 16 = sumNibble n := by
  have hall : ∀ n : Fin 32, (if 0x09 < BitVec.ofNat 16 n then BitVec.ofNat 16 n + 0x06
      else BitVec.ofNat 16 n).toNat % 16 = sumNibble n := by
    decide
  subst h
  simpa only [BitVec.ofNat_toNat, BitVec.setWidth_eq] using hall ⟨_, hn⟩

/-- The fix-up of the high half, which carries out if there is one, and the sign before it. -/
theorem fix_high {hi : BitVec 16} {n : ℕ} (h : hi.toNat = 16 * n) (hn : n < 32) :
    (if 0x90 < hi then hi + 0x60 else hi).toNat / 16 % 16 = sumNibble n ∧
      ((if 0x90 < hi then hi + 0x60 else hi) &&& 0xFF00 != 0) = decide (9 < n) ∧
      (low hi).getLsbD 7 = n.testBit 3 := by
  have hall : ∀ n : Fin 32, let hi := BitVec.ofNat 16 (16 * n)
      (if 0x90 < hi then hi + 0x60 else hi).toNat / 16 % 16 = sumNibble n ∧
        ((if 0x90 < hi then hi + 0x60 else hi) &&& 0xFF00 != 0) = decide (9 < (n : ℕ)) ∧
        (low hi).getLsbD 7 = (n : ℕ).testBit 3 := by
    decide
  have hspec := hall ⟨n, hn⟩
  rw [← h, BitVec.ofNat_toNat, BitVec.setWidth_eq] at hspec
  exact hspec

/-- ADC in decimal mode, up to N and Z. -/
theorem opADC_decimal_emulate (b : Byte) (q : M6502.Regs) (v : Byte)
    (hd : q.flag M6502.flagD = true) :
    ∃ q', SameBut (M6502.flagN ||| M6502.flagZ) q' (q.opADC v) ∧
      (emulate b q).opADC (v.setWidth 16) = emulate b q' := by
  have hd' : (emulate b q).flag flagD = true := (flag_emulate b q rfl).trans hd
  obtain ⟨hresult, hcarry, hsign⟩ := decimalSum_spec (a := q.a) (v := v) (toNat_carry b q).1
  have hlow := fix_low (toNat_adcLow q v) lowSum_lt
  obtain ⟨hhigh, hout, htop⟩ := fix_high (toNat_adcHigh q v) highSum_lt
  generalize hsum : Regs.decimalSum true (q.a.setWidth 16) (v.setWidth 16) (emulate b q).carryIn =
    sum at *
  have h816 : (emulate b q).opADC (v.setWidth 16) =
      (((emulate b q).setFlag flagC (sum.carry != 0)).setFlag flagV
        ((~~~(q.a.setWidth 16 ^^^ v.setWidth 16 : BitVec 16)).setWidth 32 &&&
          ((q.a.setWidth 16 : BitVec 16).setWidth 32 ^^^ sum.raw) &&& 0x80 != 0)).setResult true
        sum.result := by
    rw [Regs.opADC, if_pos hd', getAcc_emulate, ← hsum]
    rfl
  have hvalue : sum.result.setWidth 8 = low
      (((if 0x09 < adcLow q v then adcLow q v + 0x06 else adcLow q v) &&& 0x0F) |||
        ((if 0x90 < adcHigh q v then adcHigh q v + 0x60 else adcHigh q v) &&& 0xF0)) := by
    apply BitVec.eq_of_toNat_eq
    rw [toNat_pack, hlow, hhigh, BitVec.toNat_setWidth, hresult]
    have := sumNibble_lt (lowSum q.a v (q.flag M6502.flagC))
    have := sumNibble_lt (highSum q.a v (q.flag M6502.flagC))
    omega
  rw [h816, overflow_add q.a v (hsign.trans htop.symm), hcarry, ← hout, setFlag_emulate b q rfl,
    setFlag_emulate _ _ rfl, setResult_emulate, hvalue]
  refine ⟨_, ?_, rfl⟩
  rw [M6502.Regs.opADC, if_pos hd]
  refine (sameBut_setZN _).trans (SameBut.setA ?_ _)
  show SameBut _ ((q.setFlag M6502.flagC _).setFlag M6502.flagV _) _
  rw [setFlag_comm]
  refine SameBut.setFlag (SameBut.setFlag ?_ M6502.flagV _) M6502.flagC _
  exact ((sameBut_setFlag rfl _).trans (sameBut_setFlag rfl _)).symm

end DecimalAddition

/-! ### Decimal subtraction -/

section DecimalSubtraction

/-- The difference of the low nibbles, with 16 borrowed. -/
def lowDifference (a v : Byte) (k : Bool) : ℕ := a.toNat % 16 + 16 - (v.toNat % 16 + (1 - k.toNat))

/-- The difference of the high nibbles, with 16 borrowed. -/
def highDifference (a v : Byte) (k : Bool) : ℕ :=
  a.toNat / 16 + 16 - (v.toNat / 16 + if lowDifference a v k < 16 then 1 else 0)

/-- The digit that a difference of nibbles leaves. -/
def differenceNibble (n : ℕ) : ℕ := (if n < 16 then n + 10 else n) % 16

variable {a v : Byte} {k : Bool}

theorem differenceNibble_lt (n : ℕ) : differenceNibble n < 16 := Nat.mod_lt _ (by decide)

theorem lowDifference_lt : lowDifference a v k < 32 := by
  rw [lowDifference]
  omega

theorem highDifference_lt : highDifference a v k < 32 := by
  have ha := a.isLt
  rw [highDifference]
  omega

/-- The fix-up of any difference of two nibbles. -/
theorem subDigit_nibble {n : ℕ} (hn : n < 32) :
    let dg := BitVec.ofNat 32 n - 16
    ((if dg.slt 0 then dg - 6 else dg) &&& 0xF).toNat = differenceNibble n ∧
      (if dg.slt 0 then 1 else 0 : BitVec 32).toNat = if n < 16 then 1 else 0 := by
  have hall : ∀ n : Fin 32, let dg := BitVec.ofNat 32 n - 16
      ((if dg.slt 0 then dg - 6 else dg) &&& 0xF).toNat = differenceNibble n ∧
        (if dg.slt 0 then 1 else 0 : BitVec 32).toNat = if (n : ℕ) < 16 then 1 else 0 := by
    decide
  exact hall ⟨n, hn⟩

/-- One pass of the subtraction loop, for any nibbles. -/
theorem subDigit_step {x y : BitVec 16} {i n : ℕ} {d : Regs.DecimalDifference} (hi : i < 4)
    (hresult : d.result.toNat < 16 ^ i) (hborrow : d.borrow.toNat ≤ 1)
    (hn : bcdDigit x i + 16 - (bcdDigit y i + d.borrow.toNat) = n) (hlt : n < 32) :
    (Regs.subDigit x y d i).result.toNat = d.result.toNat + differenceNibble n * 16 ^ i ∧
      (Regs.subDigit x y d i).borrow.toNat = if n < 16 then 1 else 0 := by
  have hx : bcdDigit x i < 16 := Nat.mod_lt _ (by decide)
  have hy : bcdDigit y i < 16 := Nat.mod_lt _ (by decide)
  have hdg : Regs.digit x i - Regs.digit y i - d.borrow = BitVec.ofNat 32 n - 16 := by
    have hsixteen : (16 : BitVec 32).toNat = 16 := rfl
    apply BitVec.eq_of_toNat_eq
    rw [BitVec.toNat_sub, BitVec.toNat_sub, BitVec.toNat_sub, toNat_digit, toNat_digit,
      BitVec.toNat_ofNat, hsixteen]
    omega
  obtain ⟨hfixed, hout⟩ := subDigit_nibble hlt
  rw [← hdg] at hfixed hout
  refine ⟨?_, hout⟩
  rw [← hfixed]
  exact toNat_or_nibble hi hresult (hfixed ▸ differenceNibble_lt n)

theorem decimalDifference_spec {c : BitVec 32} (hc : c.toNat = 1 - k.toNat) :
    (Regs.decimalDifference true (a.setWidth 16) (v.setWidth 16) c).result.toNat =
      differenceNibble (lowDifference a v k) + 16 * differenceNibble (highDifference a v k) := by
  have hlow : bcdDigit (a.setWidth 16) 0 + 16 - (bcdDigit (v.setWidth 16) 0 + c.toNat) =
      lowDifference a v k := by
    rw [bcdDigit_zero, bcdDigit_zero, hc, lowDifference]
  obtain ⟨hresult₀, hborrow₀⟩ := subDigit_step (d := ⟨0, c⟩) (by decide) Nat.one_pos
    (hc ▸ Nat.sub_le _ _) hlow lowDifference_lt
  have hfit := differenceNibble_lt (lowDifference a v k)
  rw [Nat.pow_zero, Nat.mul_one] at hresult₀
  have hhigh : bcdDigit (a.setWidth 16) 1 + 16 - (bcdDigit (v.setWidth 16) 1 +
      (Regs.subDigit (a.setWidth 16) (v.setWidth 16) ⟨0, c⟩ 0).borrow.toNat) =
      highDifference a v k := by
    rw [bcdDigit_one, bcdDigit_one, hborrow₀, highDifference]
  obtain ⟨hresult, -⟩ := subDigit_step (by decide) (by
    rw [hresult₀]
    exact (Nat.zero_add _).trans_lt hfit) (by
    rw [hborrow₀]
    split <;> decide) hhigh highDifference_lt
  refine hresult.trans ?_
  rw [hresult₀, Nat.pow_one, Nat.mul_comm]
  exact congrArg (· + _) (Nat.zero_add _)

/-- The low half of a subtraction, its borrow and its fix-up. -/
theorem sbc_low {n : ℕ} (hn : n < 32) :
    let lo := BitVec.ofNat 16 n - 16
    (if lo &&& 0x10 != 0 then lo - 0x06 else lo).toNat % 16 = differenceNibble n ∧
      (lo &&& 0x10 != 0) = decide (n < 16) := by
  have hall : ∀ n : Fin 32, let lo := BitVec.ofNat 16 n - 16
      (if lo &&& 0x10 != 0 then lo - 0x06 else lo).toNat % 16 = differenceNibble n ∧
        (lo &&& 0x10 != 0) = decide ((n : ℕ) < 16) := by
    decide
  exact hall ⟨n, hn⟩

theorem sbc_high {n : ℕ} (hn : n < 32) :
    let hi := BitVec.ofNat 16 (16 * n) - 256
    (if hi &&& 0x0100 != 0 then hi - 0x60 else hi).toNat / 16 % 16 = differenceNibble n := by
  have hall : ∀ n : Fin 32, let hi := BitVec.ofNat 16 (16 * n) - 256
      (if hi &&& 0x0100 != 0 then hi - 0x60 else hi).toNat / 16 % 16 = differenceNibble n := by
    decide
  exact hall ⟨n, hn⟩

theorem toNat_sbcDigits (q : M6502.Regs) (v : Byte) :
    (q.sbcDigits v).toNat = differenceNibble (lowDifference q.a v (q.flag M6502.flagC)) +
      16 * differenceNibble (highDifference q.a v (q.flag M6502.flagC)) := by
  have ha := q.a.isLt
  have hv := v.isLt
  have hk := (q.flag M6502.flagC).toNat_le
  have hlow_lt : lowDifference q.a v (q.flag M6502.flagC) < 32 := lowDifference_lt
  have hhigh_lt : highDifference q.a v (q.flag M6502.flagC) < 32 := highDifference_lt
  have hone : (1 : BitVec 16).toNat = 1 := rfl
  have hlo : word (q.a &&& 0x0F) - word (v &&& 0x0F) - (1 - q.carryIn) =
      BitVec.ofNat 16 (lowDifference q.a v (q.flag M6502.flagC)) - 16 := by
    have hsixteen : (16 : BitVec 16).toNat = 16 := rfl
    apply BitVec.eq_of_toNat_eq
    rw [BitVec.toNat_sub, BitVec.toNat_sub, BitVec.toNat_sub, BitVec.toNat_sub, toNat_low_nibble,
      toNat_low_nibble, (toNat_carry 0 q).2, BitVec.toNat_ofNat, hone, hsixteen, lowDifference]
    omega
  obtain ⟨hlow, hborrow⟩ := sbc_low hlow_lt
  rw [← hlo] at hlow hborrow
  have hhi : (if word (q.a &&& 0x0F) - word (v &&& 0x0F) - (1 - q.carryIn) &&& 0x10 != 0
      then word (q.a &&& 0xF0) - word (v &&& 0xF0) - 0x10
      else word (q.a &&& 0xF0) - word (v &&& 0xF0)) =
      BitVec.ofNat 16 (16 * highDifference q.a v (q.flag M6502.flagC)) - 256 := by
    have hten : (0x10 : BitVec 16).toNat = 16 := rfl
    have hpage : (256 : BitVec 16).toNat = 256 := rfl
    apply BitVec.eq_of_toNat_eq
    simp only [hborrow, decide_eq_true_eq]
    rw [highDifference, BitVec.toNat_sub, BitVec.toNat_ofNat, hpage]
    split
    · rw [BitVec.toNat_sub, BitVec.toNat_sub, toNat_high_nibble, toNat_high_nibble, hten]
      omega
    · rw [BitVec.toNat_sub, toNat_high_nibble, toNat_high_nibble]
      omega
  have hhigh := sbc_high hhigh_lt
  rw [← hhi] at hhigh
  rw [M6502.Regs.sbcDigits, toNat_pack, hlow, hhigh]

/-- SBC in decimal mode, up to N and Z. -/
theorem opSBC_decimal_emulate (b : Byte) (q : M6502.Regs) (v : Byte)
    (hd : q.flag M6502.flagD = true) :
    ∃ q', SameBut (M6502.flagN ||| M6502.flagZ) q' (q.opSBC v) ∧
      (emulate b q).opSBC (v.setWidth 16) = emulate b q' := by
  have hborrow : (1 - (emulate b q).carryIn).toNat = 1 - (q.flag M6502.flagC).toNat := by
    rw [Regs.toNat_borrowIn]
    exact congrArg (fun c : Bool => 1 - c.toNat) (flag_emulate b q rfl)
  have hvalue : (Regs.decimalDifference true (q.a.setWidth 16) (v.setWidth 16)
      (1 - (emulate b q).carryIn)).result.setWidth 8 = q.sbcDigits v := by
    apply BitVec.eq_of_toNat_eq
    rw [BitVec.toNat_setWidth, decimalDifference_spec hborrow, toNat_sbcDigits]
    have := differenceNibble_lt (lowDifference q.a v (q.flag M6502.flagC))
    have := differenceNibble_lt (highDifference q.a v (q.flag M6502.flagC))
    omega
  have hd' : (emulate b q).flag flagD = true := (flag_emulate b q rfl).trans hd
  rw [opSBC_emulate, if_pos hd', setResult_emulate, hvalue]
  refine ⟨_, ?_, rfl⟩
  rw [M6502.Regs.opSBC, if_pos hd]
  exact (sameBut_setZN _).trans (sameBut_setZN _).symm

end DecimalSubtraction

/-! ### Operations with an operand -/

/-- The operation of the 65C816, on the accumulator or on an index register. -/
def readOp : M6502.ReadOp → AccOp ⊕ IndexOp
  | .lda => .inl .lda
  | .ldx => .inr .ldx
  | .ldy => .inr .ldy
  | .and => .inl .and
  | .eor => .inl .eor
  | .ora => .inl .ora
  | .bit => .inl .bit
  | .adc => .inl .adc
  | .sbc => .inl .sbc
  | .cmp => .inl .cmp
  | .cpx => .inr .cpx
  | .cpy => .inr .cpy

/-- The flags in which the two processors differ by design after an operation. -/
def readExempt (op : M6502.ReadOp) (q : M6502.Regs) : Byte :=
  match op with
  | .adc | .sbc => if q.flag M6502.flagD then M6502.flagN ||| M6502.flagZ else 0
  | _ => 0

section Operations

variable (b : Byte) (q : M6502.Regs) (v : Byte)

/-- Registers that agree altogether. -/
theorem exists_sameBut {mask : Byte} {r : Regs} (h : r = emulate b q) :
    ∃ q', SameBut mask q' q ∧ r = emulate b q' := ⟨q, .rfl, h⟩

theorem logic_emulate {op : BitVec 16 → BitVec 16 → BitVec 16} {opE : Byte → Byte → Byte}
    (hop : ∀ a v, op (a.setWidth 16) (v.setWidth 16) = (opE a v).setWidth 16) :
    ((emulate b q).setAcc (op (emulate b q).getAcc (v.setWidth 16))).setZNM
        ((emulate b q).setAcc (op (emulate b q).getAcc (v.setWidth 16))).getAcc =
      emulate b ({ q with a := opE q.a v }.setZN (opE q.a v)) := by
  rw [logic_eq rfl hop, getA_emulate, setA_emulate, znE_emulate]

/-- BIT with an immediate operand is no instruction of the 6502. -/
theorem apply_readOp_acc {op : M6502.ReadOp} {op' : AccOp} (hop : readOp op = .inl op')
    {immediate : Bool} (hbit : op = .bit → immediate = false) :
    ∃ q', SameBut (readExempt op q) q' (op.apply v q) ∧
      op'.apply immediate true (v.setWidth 16) (emulate b q) = emulate b q' := by
  cases op <;> cases hop
  case lda =>
    refine exists_sameBut b _ ?_
    rw [lda_eq rfl, setA_emulate, znE_emulate]
    rfl
  case and =>
    exact exists_sameBut b _ (logic_emulate b q v fun _ _ => BitVec.setWidth_and.symm)
  case eor =>
    exact exists_sameBut b _ (logic_emulate b q v fun _ _ => BitVec.setWidth_xor.symm)
  case ora =>
    exact exists_sameBut b _ (logic_emulate b q v fun _ _ => BitVec.setWidth_or.symm)
  case bit =>
    refine exists_sameBut b _ ?_
    rw [hbit rfl]
    exact opBIT_emulate b q v
  case adc =>
    cases hd : q.flag M6502.flagD with
    | false => exact exists_sameBut b _ (opADC_binary b q v hd)
    | true =>
        rw [readExempt, if_pos hd]
        exact opADC_decimal_emulate b q v hd
  case sbc =>
    cases hd : q.flag M6502.flagD with
    | false => exact exists_sameBut b _ (opSBC_binary b q v hd)
    | true =>
        rw [readExempt, if_pos hd]
        exact opSBC_decimal_emulate b q v hd
  case cmp =>
    refine exists_sameBut b _ ?_
    rw [AccOp.apply, getAcc_emulate]
    exact opCMP_emulate b q q.a v

theorem apply_readOp_index {op : M6502.ReadOp} {op' : IndexOp} (hop : readOp op = .inr op') :
    op'.apply true (v.setWidth 16) (emulate b q) = emulate b (op.apply v q) := by
  cases op <;> cases hop
  case ldx =>
    rw [ldx_eq rfl]
    exact znE_emulate b { q with x := v } v
  case ldy =>
    rw [ldy_eq rfl]
    exact znE_emulate b { q with y := v } v
  case cpx =>
    rw [IndexOp.apply, getX_emulate]
    exact opCMP_emulate b q q.x v
  case cpy =>
    rw [IndexOp.apply, getY_emulate]
    exact opCMP_emulate b q q.y v

end Operations

end W65C816

end ScpuEmu
