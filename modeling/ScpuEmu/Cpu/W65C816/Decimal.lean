import ScpuEmu.Cpu.W65C816.WidthInvariant
import ScpuEmu.Library.Radix

/-!
# Decimal arithmetic

Decimal mode works on packed decimal numbers, a digit in each nibble. The loops over the digits
are the carrying addition and the borrowing subtraction of numbers to base ten, for two digits
and for four.
-/

namespace ScpuEmu

namespace W65C816

open Library

/-! ### Packed decimal numbers -/

/-- Digit `i` of a packed number. -/
def bcdDigit (v : BitVec 16) (i : ℕ) : ℕ := v.toNat / 16 ^ i % 16

/-- A packed decimal number of `n` digits. -/
structure IsBCD (n : ℕ) (v : BitVec 16) : Prop where
  digit_lt : ∀ i < n, bcdDigit v i < 10
  lt : v.toNat < 16 ^ n

/-- The number that is packed into `n` digits. -/
def bcdValue (n : ℕ) (v : BitVec 16) : ℕ := radix 10 (bcdDigit v) n

/-- Pack the last `n` digits of a number. -/
def bcd (n N : ℕ) : BitVec 16 := BitVec.ofNat 16 (radix 16 (fun i => N / 10 ^ i % 10) n)

section Packed

variable {n : ℕ} {v : BitVec 16}

theorem radix_lt_word {s : ℕ → ℕ} (hn : n ≤ 4) (hs : ∀ i < n, s i < 10) :
    radix 16 s n < 2 ^ 16 :=
  Nat.lt_of_lt_of_le (radix_lt fun i hi => Nat.lt_trans (hs i hi) (by decide))
    (Nat.pow_le_pow_right (n := 16) (by decide) hn)

/-- A word whose nibbles are decimal digits packs the number of these digits. -/
theorem eq_bcd_of_digits {s : ℕ → ℕ} (hs : ∀ i < n, s i < 10) (hv : v.toNat = radix 16 s n) :
    v = bcd n (radix 10 s n) := by
  rw [bcd, radix_congr fun i hi => digit_radix hs hi, ← hv, BitVec.ofNat_toNat,
    BitVec.setWidth_eq]

theorem IsBCD.radix_eq (h : IsBCD n v) : radix 16 (bcdDigit v) n = v.toNat := by
  show radix 16 (fun i => v.toNat / 16 ^ i % 16) n = _
  rw [radix_digits, Nat.mod_eq_of_lt h.lt]

/-- A packed number is known from its value. -/
theorem IsBCD.bcd_bcdValue (h : IsBCD n v) : bcd n (bcdValue n v) = v :=
  (eq_bcd_of_digits h.digit_lt h.radix_eq.symm).symm

theorem bcdDigit_bcd (hn : n ≤ 4) (N : ℕ) {i : ℕ} (hi : i < n) :
    bcdDigit (bcd n N) i = N / 10 ^ i % 10 := by
  have hdigit : ∀ i < n, N / 10 ^ i % 10 < 10 := fun i _ => Nat.mod_lt _ (by decide)
  have hword := radix_lt_word hn hdigit
  rw [bcdDigit, bcd, BitVec.toNat_ofNat, Nat.mod_eq_of_lt hword]
  exact digit_radix (fun i hi => Nat.lt_trans (hdigit i hi) (by decide)) hi

theorem isBCD_bcd (hn : n ≤ 4) (N : ℕ) : IsBCD n (bcd n N) where
  digit_lt i hi := by
    rw [bcdDigit_bcd hn N hi]
    exact Nat.mod_lt _ (by decide)
  lt := by
    have hdigit : ∀ i < n, N / 10 ^ i % 10 < 16 := fun i _ =>
      Nat.lt_trans (Nat.mod_lt _ (by decide)) (by decide)
    rw [bcd, BitVec.toNat_ofNat]
    exact Nat.lt_of_le_of_lt (Nat.mod_le _ _) (radix_lt hdigit)

theorem bcdValue_bcd (hn : n ≤ 4) (N : ℕ) : bcdValue n (bcd n N) = N % 10 ^ n := by
  rw [bcdValue, radix_congr fun i hi => bcdDigit_bcd hn N hi, radix_digits]

theorem bcdValue_lt (h : IsBCD n v) : bcdValue n v < 10 ^ n := radix_lt h.digit_lt

end Packed

/-! ### The loops over the digits -/

section Digits

variable {n i : ℕ} {a v : BitVec 16}

theorem toNat_digit (v : BitVec 16) (i : ℕ) : (Regs.digit v i).toNat = bcdDigit v i := by
  have hlow : v.toNat / 16 ^ i % 16 < 16 := Nat.mod_lt _ (by decide)
  have hmask (m : ℕ) : m &&& 15 = m % 16 := Nat.and_two_pow_sub_one_eq_mod m 4
  rw [Regs.digit, BitVec.toNat_setWidth, BitVec.toNat_and, BitVec.toNat_ushiftRight,
    Nat.shiftRight_eq_div_pow, Nat.pow_mul]
  show (v.toNat / 16 ^ i &&& 15) % 2 ^ 32 = v.toNat / 16 ^ i % 16
  rw [hmask]
  exact Nat.mod_eq_of_lt (Nat.lt_trans hlow (by decide))

/-- A nibble put above the ones that are there. -/
theorem toNat_or_nibble {result nibble : BitVec 32} (hi : i < 4) (hresult : result.toNat < 16 ^ i)
    (hnibble : nibble.toNat < 16) :
    (result ||| (nibble <<< (4 * i))).toNat = result.toNat + nibble.toNat * 16 ^ i := by
  have hpow : 2 ^ (4 * i) = 16 ^ i := Nat.pow_mul 2 4 i
  have hfit : nibble.toNat * 16 ^ i < 2 ^ 32 := by
    have hle : 16 ^ i ≤ 16 ^ 4 := Nat.pow_le_pow_right (by decide) (Nat.le_of_lt hi)
    calc nibble.toNat * 16 ^ i ≤ 15 * 16 ^ 4 := Nat.mul_le_mul (by omega) hle
      _ < 2 ^ 32 := by decide
  rw [BitVec.toNat_or, BitVec.toNat_shiftLeft, Nat.shiftLeft_eq, hpow, Nat.mod_eq_of_lt hfit,
    Nat.or_comm, Nat.mul_comm, ← hpow, ← Nat.two_pow_add_eq_or_of_lt (hpow ▸ hresult),
    Nat.add_comm]

/-- The fix-up of a digit that is too large. -/
theorem addDigit_fixed {x y c : BitVec 32} (hx : x.toNat < 10) (hy : y.toNat < 10)
    (hc : c.toNat < 2) :
    ((if 9 < x + y + c then x + y + c + 6 else x + y + c) &&& 0xF).toNat =
        (x.toNat + y.toNat + c.toNat) % 10 ∧
      (if 9 < x + y + c then 1 else 0 : BitVec 32).toNat =
        (x.toNat + y.toNat + c.toNat) / 10 := by
  have hall : ∀ x y : Fin 10, ∀ c : Fin 2,
      let dg := BitVec.ofNat 32 x + BitVec.ofNat 32 y + BitVec.ofNat 32 c
      ((if 9 < dg then dg + 6 else dg) &&& 0xF).toNat = (x + y + c : ℕ) % 10 ∧
        (if 9 < dg then 1 else 0 : BitVec 32).toNat = (x + y + c : ℕ) / 10 := by
    decide +kernel
  simpa only [BitVec.ofNat_toNat, BitVec.setWidth_eq] using hall ⟨_, hx⟩ ⟨_, hy⟩ ⟨_, hc⟩

/-- The fix-up of a digit that is too small. -/
theorem subDigit_fixed {x y b : BitVec 32} (hx : x.toNat < 10) (hy : y.toNat < 10)
    (hb : b.toNat < 2) :
    ((if (x - y - b).slt 0 then x - y - b - 6 else x - y - b) &&& 0xF).toNat =
        x.toNat + (if x.toNat < y.toNat + b.toNat then 1 else 0) * 10 - (y.toNat + b.toNat) ∧
      (if (x - y - b).slt 0 then 1 else 0 : BitVec 32).toNat =
        if x.toNat < y.toNat + b.toNat then 1 else 0 := by
  have hall : ∀ x y : Fin 10, ∀ b : Fin 2,
      let dg := BitVec.ofNat 32 x - BitVec.ofNat 32 y - BitVec.ofNat 32 b
      ((if dg.slt 0 then dg - 6 else dg) &&& 0xF).toNat =
          (x + (if (x : ℕ) < y + b then 1 else 0) * 10 - (y + b) : ℕ) ∧
        (if dg.slt 0 then 1 else 0 : BitVec 32).toNat =
          if (x : ℕ) < y + b then 1 else 0 := by
    decide +kernel
  simpa only [BitVec.ofNat_toNat, BitVec.setWidth_eq] using hall ⟨_, hx⟩ ⟨_, hy⟩ ⟨_, hb⟩

theorem addDigit_spec {sum : Regs.DecimalSum} (ha : bcdDigit a i < 10) (hv : bcdDigit v i < 10)
    (hcarry : sum.carry.toNat ≤ 1) (hi : i < 4) (hresult : sum.result.toNat < 16 ^ i) :
    (Regs.addDigit a v sum i).result.toNat =
        sum.result.toNat + (bcdDigit a i + bcdDigit v i + sum.carry.toNat) % 10 * 16 ^ i ∧
      (Regs.addDigit a v sum i).carry.toNat =
        (bcdDigit a i + bcdDigit v i + sum.carry.toNat) / 10 := by
  rw [← toNat_digit] at ha hv
  rw [← toNat_digit, ← toNat_digit]
  obtain ⟨hfixed, hout⟩ := addDigit_fixed ha hv (Nat.lt_succ_of_le hcarry)
  refine ⟨?_, hout⟩
  rw [← hfixed]
  refine toNat_or_nibble hi hresult ?_
  rw [hfixed]
  exact Nat.lt_trans (Nat.mod_lt _ (by decide)) (by decide)

theorem subDigit_spec {diff : Regs.DecimalDifference} (ha : bcdDigit a i < 10)
    (hv : bcdDigit v i < 10) (hborrow : diff.borrow.toNat ≤ 1) (hi : i < 4)
    (hresult : diff.result.toNat < 16 ^ i) :
    (Regs.subDigit a v diff i).result.toNat = diff.result.toNat +
        (bcdDigit a i + (if bcdDigit a i < bcdDigit v i + diff.borrow.toNat then 1 else 0) * 10 -
          (bcdDigit v i + diff.borrow.toNat)) * 16 ^ i ∧
      (Regs.subDigit a v diff i).borrow.toNat =
        if bcdDigit a i < bcdDigit v i + diff.borrow.toNat then 1 else 0 := by
  rw [← toNat_digit] at ha hv
  rw [← toNat_digit, ← toNat_digit]
  obtain ⟨hfixed, hout⟩ := subDigit_fixed ha hv (Nat.lt_succ_of_le hborrow)
  refine ⟨?_, hout⟩
  rw [← hfixed]
  refine toNat_or_nibble hi hresult ?_
  rw [hfixed]
  split <;> omega

/-- The addition loop, run up to place `n`. -/
theorem addDigits_spec (ha : ∀ i < n, bcdDigit a i < 10) (hv : ∀ i < n, bcdDigit v i < 10)
    (hn : n ≤ 4) {c : BitVec 32} (hc : c.toNat ≤ 1) :
    ((List.range n).foldl (Regs.addDigit a v) ⟨0, 0, c⟩).result.toNat =
        radix 16 (sumDigit 10 (bcdDigit a) (bcdDigit v) c.toNat) n ∧
      ((List.range n).foldl (Regs.addDigit a v) ⟨0, 0, c⟩).carry.toNat =
        carryInto 10 (bcdDigit a) (bcdDigit v) c.toNat n := by
  induction n with
  | zero => exact ⟨rfl, rfl⟩
  | succ n ih =>
      have hbelow {d : ℕ → ℕ} (h : ∀ i < n + 1, d i < 10) : ∀ i < n, d i < 10 :=
        fun i hi => h i (Nat.lt_succ_of_lt hi)
      obtain ⟨hresult, hcarry⟩ := ih (hbelow ha) (hbelow hv) (Nat.le_of_succ_le hn)
      have hle := carryInto_le_one (hbelow ha) (hbelow hv) hc
      have hlt : radix 16 (sumDigit 10 (bcdDigit a) (bcdDigit v) c.toNat) n < 16 ^ n :=
        radix_lt fun i _ => Nat.lt_trans (Nat.mod_lt _ (by decide)) (by decide)
      rw [List.range_succ, List.foldl_append, List.foldl_cons, List.foldl_nil]
      obtain ⟨hstep, hout⟩ := addDigit_spec (ha n (Nat.lt_succ_self n))
        (hv n (Nat.lt_succ_self n)) (hcarry ▸ hle) hn (hresult ▸ hlt)
      rw [hstep, hout, hresult, hcarry]
      exact ⟨radix_succ.symm, rfl⟩

/-- The subtraction loop, run up to place `n`. -/
theorem subDigits_spec (ha : ∀ i < n, bcdDigit a i < 10) (hv : ∀ i < n, bcdDigit v i < 10)
    (hn : n ≤ 4) {b : BitVec 32} (hb : b.toNat ≤ 1) :
    ((List.range n).foldl (Regs.subDigit a v) ⟨0, b⟩).result.toNat =
        radix 16 (differenceDigit 10 (bcdDigit a) (bcdDigit v) b.toNat) n ∧
      ((List.range n).foldl (Regs.subDigit a v) ⟨0, b⟩).borrow.toNat =
        borrowFrom (bcdDigit a) (bcdDigit v) b.toNat n := by
  induction n with
  | zero => exact ⟨rfl, rfl⟩
  | succ n ih =>
      have hbelow {d : ℕ → ℕ} (h : ∀ i < n + 1, d i < 10) : ∀ i < n, d i < 10 :=
        fun i hi => h i (Nat.lt_succ_of_lt hi)
      obtain ⟨hresult, hborrow⟩ := ih (hbelow ha) (hbelow hv) (Nat.le_of_succ_le hn)
      have hle := borrowFrom_le_one (d := bcdDigit a) (e := bcdDigit v) (n := n) hb
      have hlt : radix 16 (differenceDigit 10 (bcdDigit a) (bcdDigit v) b.toNat) n < 16 ^ n :=
        radix_lt fun i hi => Nat.lt_trans (differenceDigit_lt (hbelow ha i hi)) (by decide)
      rw [List.range_succ, List.foldl_append, List.foldl_cons, List.foldl_nil]
      obtain ⟨hstep, hout⟩ := subDigit_spec (ha n (Nat.lt_succ_self n))
        (hv n (Nat.lt_succ_self n)) (hborrow ▸ hle) hn (hresult ▸ hlt)
      rw [hstep, hout, hresult, hborrow]
      exact ⟨radix_succ.symm, rfl⟩

end Digits

/-! ### The accumulator and the carry -/

namespace Regs

variable {r : Regs} {n : ℕ} {v : BitVec 16}

theorem digits_le_four (m8 : Bool) : digits m8 ≤ 4 := by
  cases m8 <;> decide

theorem flag_setFlag (mask : Byte) (hmask : mask ≠ 0) (on : Bool) :
    (r.setFlag mask on).flag mask = on := by
  cases on with
  | false =>
      have hoff : (r.p &&& ~~~mask) &&& mask = 0 := by
        rw [BitVec.and_assoc, BitVec.and_comm (~~~mask), BitVec.and_not_self]
        exact BitVec.and_zero
      show (((r.p &&& ~~~mask) &&& mask) != 0) = false
      rw [hoff]
      rfl
  | true =>
      have hon : (r.p ||| mask) &&& mask = mask := by
        apply BitVec.eq_of_getLsbD_eq
        intro i _
        rw [BitVec.getLsbD_and, BitVec.getLsbD_or]
        cases mask.getLsbD i
        · exact Bool.and_false _
        · rw [Bool.or_true, Bool.and_true]
      show (((r.p ||| mask) &&& mask) != 0) = true
      rw [hon]
      exact bne_iff_ne.mpr hmask

theorem flag_setFlag_of_disjoint {mask other : Byte} (h : mask &&& other = 0) (on : Bool) :
    (r.setFlag mask on).flag other = r.flag other := by
  rw [flag, flag, p_setFlag_and r h]

/-- N and Z are all the flags that a result sets. -/
theorem flag_setResult (m8 : Bool) (result : BitVec 32) {mask : Byte} (hz : flagZ &&& mask = 0)
    (hn : flagN &&& mask = 0) : (r.setResult m8 result).flag mask = r.flag mask := by
  unfold setResult
  split
  · rw [setZN8, flag_setFlag_of_disjoint hn, flag_setFlag_of_disjoint hz]
    rfl
  · rw [setZN16, flag_setFlag_of_disjoint hn, flag_setFlag_of_disjoint hz]
    rfl

theorem c_setResult (m8 : Bool) (result : BitVec 32) :
    (r.setResult m8 result).c = (r.setAcc (result.setWidth 16)).c := by
  unfold setResult
  split <;> rfl

theorem m8_setResult (m8 : Bool) (result : BitVec 32) : (r.setResult m8 result).m8 = r.m8 := by
  unfold setResult
  split <;> rfl

theorem getAcc_setResult (result : BitVec 32) (hresult : result.toNat < 16 ^ digits r.m8) :
    (r.setResult r.m8 result).getAcc = result.setWidth 16 := by
  rw [getAcc, c_setResult, m8_setResult, setAcc]
  cases hm8 : r.m8 with
  | false => rfl
  | true =>
      rw [hm8] at hresult
      have hmask (m : ℕ) : m &&& 255 = m % 256 := Nat.and_two_pow_sub_one_eq_mod m 8
      have hlow : ((r.c &&& 0xFF00) ||| (result.setWidth 16 &&& 0xFF)) &&& 0xFF =
          result.setWidth 16 &&& 0xFF := by
        rw [BitVec.and_or_distrib_right, BitVec.and_assoc, BitVec.and_assoc]
        show (r.c &&& 0#16) ||| (result.setWidth 16 &&& 0xFF) = _
        rw [BitVec.and_zero, BitVec.zero_or]
      show ((r.c &&& 0xFF00) ||| (result.setWidth 16 &&& 0xFF)) &&& 0xFF = result.setWidth 16
      rw [hlow]
      apply BitVec.eq_of_toNat_eq
      rw [BitVec.toNat_and, BitVec.toNat_setWidth]
      show (result.toNat % 2 ^ 16) &&& 255 = result.toNat % 2 ^ 16
      rw [hmask]
      exact Nat.mod_eq_of_lt (Nat.lt_of_le_of_lt (Nat.mod_le _ _) hresult)

/-- An 8-bit result leaves the B byte alone. -/
theorem hidden_setResult (m8 : Bool) (result : BitVec 32) (h : r.m8 = true) :
    (r.setResult m8 result).c &&& 0xFF00 = r.c &&& 0xFF00 := by
  rw [c_setResult, setAcc, if_pos h]
  show ((r.c &&& 0xFF00) ||| (result.setWidth 16 &&& 0xFF)) &&& 0xFF00 = _
  rw [BitVec.and_or_distrib_right, BitVec.and_assoc, BitVec.and_assoc]
  show (r.c &&& 0xFF00) ||| (result.setWidth 16 &&& 0#16) = _
  rw [BitVec.and_zero, BitVec.or_zero]

theorem toNat_carryIn : r.carryIn.toNat = (r.flag flagC).toNat := by
  unfold carryIn
  split
  next h => rw [h]; rfl
  next h => rw [eq_false_of_ne_true h]; rfl

theorem toNat_borrowIn : (1 - r.carryIn).toNat = 1 - (r.flag flagC).toNat := by
  unfold carryIn
  split
  next h => rw [h]; rfl
  next h => rw [eq_false_of_ne_true h]; rfl

/-! ### Decimal addition and subtraction -/

theorem opADC_of_decimal (h : r.flag flagD = true) (v : BitVec 16) :
    ∃ on, r.opADC v =
      ((r.setFlag flagC ((decimalSum r.m8 r.getAcc v r.carryIn).carry != 0)).setFlag flagV
        on).setResult r.m8 (decimalSum r.m8 r.getAcc v r.carryIn).result := by
  unfold opADC
  dsimp only
  rw [if_pos h]
  exact ⟨_, rfl⟩

theorem opSBC_of_decimal (h : r.flag flagD = true) (v : BitVec 16) :
    ∃ on, r.opSBC v =
      ((r.setFlag flagC (accMask r.m8 < r.getAcc.setWidth 32 +
          (~~~(v.setWidth 32) &&& accMask r.m8) + r.carryIn)).setFlag flagV on).setResult r.m8
        (decimalDifference r.m8 r.getAcc v (1 - r.carryIn)).result := by
  unfold opSBC
  dsimp only
  rw [if_pos h]
  exact ⟨_, rfl⟩

/-- Addition in decimal mode. -/
theorem opADC_decimal (hd : r.flag flagD = true) (ha : IsBCD (digits r.m8) r.getAcc)
    (hv : IsBCD (digits r.m8) v) :
    (r.opADC v).getAcc = bcd (digits r.m8)
        ((bcdValue (digits r.m8) r.getAcc + bcdValue (digits r.m8) v + (r.flag flagC).toNat) %
          10 ^ digits r.m8) ∧
      (r.opADC v).flag flagC = decide (10 ^ digits r.m8 ≤
        bcdValue (digits r.m8) r.getAcc + bcdValue (digits r.m8) v + (r.flag flagC).toNat) := by
  have hc : r.carryIn.toNat ≤ 1 := by
    rw [toNat_carryIn]
    exact Bool.toNat_le _
  obtain ⟨hresult, hcarry⟩ := addDigits_spec ha.digit_lt hv.digit_lt (digits_le_four r.m8) hc
  rw [toNat_carryIn] at hresult hcarry hc
  have hdigit : ∀ i < digits r.m8,
      sumDigit 10 (bcdDigit r.getAcc) (bcdDigit v) (r.flag flagC).toNat i < 10 :=
    fun i _ => Nat.mod_lt _ (by decide)
  obtain ⟨on, hopADC⟩ := opADC_of_decimal hd v
  rw [hopADC]
  constructor
  · have hfit : (decimalSum r.m8 r.getAcc v r.carryIn).result.toNat < 16 ^ digits r.m8 := by
      rw [decimalSum, hresult]
      exact radix_lt fun i hi => Nat.lt_trans (hdigit i hi) (by decide)
    have hword := Nat.lt_of_lt_of_le hfit
      (Nat.pow_le_pow_right (n := 16) (by decide) (digits_le_four r.m8))
    refine (getAcc_setResult (r := (r.setFlag flagC _).setFlag flagV on) _ hfit).trans ?_
    rw [bcdValue, bcdValue, ← radix_sumDigit_eq_mod (by decide)]
    refine eq_bcd_of_digits hdigit ?_
    rw [← hresult, BitVec.toNat_setWidth]
    exact Nat.mod_eq_of_lt hword
  · rw [flag_setResult _ _ rfl rfl, flag_setFlag_of_disjoint rfl, flag_setFlag _ (by decide),
      Bool.eq_iff_iff, decide_eq_true_iff, bcdValue, bcdValue,
      ← carryInto_eq_one_iff ha.digit_lt hv.digit_lt hc, ← hcarry, bne_iff_ne, ne_eq,
      ← BitVec.toNat_inj, decimalSum]
    have hle := carryInto_le_one ha.digit_lt hv.digit_lt hc
    rw [← hcarry] at hle
    show ¬_ = 0 ↔ _
    omega

/-- The binary carry is out unless the value or what is borrowed is too large. -/
theorem accMask_lt_iff {a : BitVec 16} (ha : a.toNat < 16 ^ digits r.m8)
    (hv : v.toNat < 16 ^ digits r.m8) :
    accMask r.m8 < a.setWidth 32 + (~~~(v.setWidth 32) &&& accMask r.m8) + r.carryIn ↔
      ¬a.toNat < v.toNat + (1 - (r.flag flagC).toNat) := by
  have hcomplement : (~~~(v.setWidth 32) &&& accMask r.m8).toNat =
      16 ^ digits r.m8 - 1 - v.toNat := by
    have hmask8 (m : ℕ) : m &&& 255 = m % 256 := Nat.and_two_pow_sub_one_eq_mod m 8
    have hmask16 (m : ℕ) : m &&& 65535 = m % 65536 := Nat.and_two_pow_sub_one_eq_mod m 16
    have hword : (v.setWidth 32).toNat = v.toNat := by
      rw [BitVec.toNat_setWidth]
      exact Nat.mod_eq_of_lt (Nat.lt_trans v.isLt (by decide))
    rw [BitVec.toNat_and, BitVec.toNat_not, hword]
    cases hm8 : r.m8 with
    | false =>
        rw [hm8] at hv
        have hv' : v.toNat < 65536 := hv
        show (2 ^ 32 - 1 - v.toNat) &&& 65535 = 65536 - 1 - v.toNat
        rw [hmask16]
        omega
    | true =>
        rw [hm8] at hv
        have hv' : v.toNat < 256 := hv
        show (2 ^ 32 - 1 - v.toNat) &&& 255 = 256 - 1 - v.toNat
        rw [hmask8]
        omega
  have hmask : (accMask r.m8).toNat = 16 ^ digits r.m8 - 1 := by
    cases r.m8 <;> rfl
  have hpow : 16 ^ digits r.m8 ≤ 65536 :=
    Nat.pow_le_pow_right (n := 16) (by decide) (digits_le_four r.m8)
  have hacc : (a.setWidth 32).toNat = a.toNat := by
    rw [BitVec.toNat_setWidth]
    exact Nat.mod_eq_of_lt (Nat.lt_trans a.isLt (by decide))
  have hcarry := r.flag flagC |>.toNat_le
  rw [BitVec.lt_def, BitVec.toNat_add, BitVec.toNat_add, hcomplement, hmask, hacc, toNat_carryIn]
  omega

/-- Subtraction in decimal mode. -/
theorem opSBC_decimal (hd : r.flag flagD = true) (ha : IsBCD (digits r.m8) r.getAcc)
    (hv : IsBCD (digits r.m8) v) :
    (r.opSBC v).getAcc = bcd (digits r.m8)
        (((bcdValue (digits r.m8) r.getAcc : ℤ) - bcdValue (digits r.m8) v -
          (1 - (r.flag flagC).toNat : ℕ)) % (10 ^ digits r.m8 : ℕ)).toNat ∧
      (r.opSBC v).flag flagC = decide (¬bcdValue (digits r.m8) r.getAcc <
        bcdValue (digits r.m8) v + (1 - (r.flag flagC).toNat)) := by
  have hb : (1 - r.carryIn).toNat ≤ 1 := by
    rw [toNat_borrowIn]
    exact Nat.sub_le _ _
  obtain ⟨hresult, -⟩ := subDigits_spec ha.digit_lt hv.digit_lt (digits_le_four r.m8) hb
  rw [toNat_borrowIn] at hresult hb
  have hdigit : ∀ i < digits r.m8, differenceDigit 10 (bcdDigit r.getAcc) (bcdDigit v)
      (1 - (r.flag flagC).toNat) i < 10 :=
    fun i hi => differenceDigit_lt (ha.digit_lt i hi)
  have hnibble {w : BitVec 16} (h : IsBCD (digits r.m8) w) :
      ∀ i < digits r.m8, bcdDigit w i < 16 :=
    fun i hi => Nat.lt_trans (h.digit_lt i hi) (by decide)
  obtain ⟨on, hopSBC⟩ := opSBC_of_decimal hd v
  rw [hopSBC]
  constructor
  · have hfit : (decimalDifference r.m8 r.getAcc v (1 - r.carryIn)).result.toNat <
        16 ^ digits r.m8 := by
      rw [decimalDifference, hresult]
      exact radix_lt fun i hi => Nat.lt_trans (hdigit i hi) (by decide)
    have hword := Nat.lt_of_lt_of_le hfit
      (Nat.pow_le_pow_right (n := 16) (by decide) (digits_le_four r.m8))
    refine (getAcc_setResult (r := (r.setFlag flagC _).setFlag flagV on) _ hfit).trans ?_
    rw [bcdValue, bcdValue, ← radix_differenceDigit_eq_emod ha.digit_lt hv.digit_lt hb,
      Int.toNat_natCast]
    refine eq_bcd_of_digits hdigit ?_
    rw [← hresult, BitVec.toNat_setWidth]
    exact Nat.mod_eq_of_lt hword
  · -- packed numbers compare as the numbers that they pack
    rw [flag_setResult _ _ rfl rfl, flag_setFlag_of_disjoint rfl, flag_setFlag _ (by decide),
      Bool.eq_iff_iff, decide_eq_true_iff, decide_eq_true_iff, accMask_lt_iff ha.lt hv.lt,
      bcdValue, bcdValue, ← borrowFrom_eq_one_iff ha.digit_lt hv.digit_lt hb,
      borrowFrom_eq_one_iff (hnibble ha) (hnibble hv) hb, ha.radix_eq, hv.radix_eq]

theorem hidden_opADC (h : r.m8 = true) (v : BitVec 16) :
    (r.opADC v).c &&& 0xFF00 = r.c &&& 0xFF00 := by
  unfold opADC
  dsimp only
  split
  · exact hidden_setResult (r := (r.setFlag flagC _).setFlag flagV _) _ _ h
  · exact hidden_setResult (r := (r.setFlag flagV _).setFlag flagC _) _ _ h

theorem hidden_opSBC (h : r.m8 = true) (v : BitVec 16) :
    (r.opSBC v).c &&& 0xFF00 = r.c &&& 0xFF00 := by
  unfold opSBC
  dsimp only
  split
  · exact hidden_setResult (r := (r.setFlag flagC _).setFlag flagV _) _ _ h
  · exact hidden_setResult (r := (r.setFlag flagC _).setFlag flagV _) _ _ h

theorem m8_opADC (v : BitVec 16) : (r.opADC v).m8 = r.m8 := by
  unfold opADC
  dsimp only
  split <;> exact m8_setResult _ _

theorem m8_opSBC (v : BitVec 16) : (r.opSBC v).m8 = r.m8 := by
  unfold opSBC
  dsimp only
  split <;> exact m8_setResult _ _

theorem flagD_opADC (hd : r.flag flagD = true) (v : BitVec 16) :
    (r.opADC v).flag flagD = true := by
  obtain ⟨on, hopADC⟩ := opADC_of_decimal hd v
  rw [hopADC, flag_setResult _ _ rfl rfl, flag_setFlag_of_disjoint rfl,
    flag_setFlag_of_disjoint rfl, hd]

/-- The accumulator at its width and the B byte that an 8-bit width hides. -/
theorem c_eq_of_getAcc {r' : Regs} (hm8 : r'.m8 = r.m8) (hacc : r'.getAcc = r.getAcc)
    (hhidden : r.m8 = true → r'.c &&& 0xFF00 = r.c &&& 0xFF00) : r'.c = r.c := by
  rw [getAcc, getAcc, hm8] at hacc
  cases h : r.m8 with
  | false =>
      rw [h] at hacc
      exact hacc
  | true =>
      rw [h] at hacc
      have hsplit (c : BitVec 16) : c = (c &&& 0xFF00) ||| (c &&& 0xFF) := by
        rw [← BitVec.and_or_distrib_left]
        exact BitVec.and_allOnes.symm
      have hlow : r'.c &&& 0xFF = r.c &&& 0xFF := hacc
      rw [hsplit r'.c, hhidden h, hlow, ← hsplit r.c]

/-- A subtraction takes away what an addition has put on. -/
theorem opSBC_opADC (hd : r.flag flagD = true) (ha : IsBCD (digits r.m8) r.getAcc)
    (hv : IsBCD (digits r.m8) v) :
    ((((r.setFlag flagC false).opADC v).setFlag flagC true).opSBC v).c = r.c := by
  have hd₀ : (r.setFlag flagC false).flag flagD = true := by
    rw [flag_setFlag_of_disjoint rfl, hd]
  obtain ⟨hsum, -⟩ := opADC_decimal hd₀ ha hv
  rw [flag_setFlag _ (by decide)] at hsum
  have hm8 : (((r.setFlag flagC false).opADC v).setFlag flagC true).m8 = r.m8 := m8_opADC v
  have hacc : (((r.setFlag flagC false).opADC v).setFlag flagC true).getAcc = bcd (digits r.m8)
      ((bcdValue (digits r.m8) r.getAcc + bcdValue (digits r.m8) v) % 10 ^ digits r.m8) := hsum
  have hhidden (h : r.m8 = true) : ((r.setFlag flagC false).opADC v).c &&& 0xFF00 =
      r.c &&& 0xFF00 := hidden_opADC (r := r.setFlag flagC false) h v
  have hd₁ : (((r.setFlag flagC false).opADC v).setFlag flagC true).flag flagD = true := by
    rw [flag_setFlag_of_disjoint rfl, flagD_opADC hd₀]
  have hcarry : (((r.setFlag flagC false).opADC v).setFlag flagC true).flag flagC = true :=
    flag_setFlag _ (by decide) _
  have hhidden₁ (h : r.m8 = true) :
      (((r.setFlag flagC false).opADC v).setFlag flagC true).c &&& 0xFF00 = r.c &&& 0xFF00 :=
    hhidden h
  generalize ((r.setFlag flagC false).opADC v).setFlag flagC true = r₁ at *
  have hvalid : IsBCD (digits r₁.m8) r₁.getAcc := by
    rw [hacc, hm8]
    exact isBCD_bcd (digits_le_four _) _
  obtain ⟨hdiff, -⟩ := opSBC_decimal (v := v) hd₁ hvalid (hm8 ▸ hv)
  refine c_eq_of_getAcc ((m8_opSBC v).trans hm8) ?_ fun h => ?_
  · rw [hdiff, hcarry, hacc, hm8, bcdValue_bcd (digits_le_four _), Nat.mod_mod, Bool.toNat_true,
      Nat.sub_self, Int.natCast_zero, Int.sub_zero, Int.natCast_emod, Int.emod_sub_emod,
      Int.natCast_add, Int.add_sub_cancel, ← Int.natCast_emod, Int.toNat_natCast,
      Nat.mod_eq_of_lt (bcdValue_lt ha), ha.bcd_bcdValue]
  · rw [hidden_opSBC (hm8.trans h) v, hhidden₁ h]

/-- Decimal ADC and SBC of packed decimal operands of two or four digits, with either carry: the
accumulator takes the packed result and C the carry, or the borrow inverted, and a subtraction
undoes an addition. At 8 bits B is left alone. -/
theorem decimal_arithmetic (r : Regs) (v : BitVec 16) (hd : r.flag flagD = true)
    (ha : IsBCD (digits r.m8) r.getAcc) (hv : IsBCD (digits r.m8) v) :
    let n := digits r.m8
    let a := bcdValue n r.getAcc
    let b := bcdValue n v
    let c := (r.flag flagC).toNat
    ((r.opADC v).getAcc = bcd n ((a + b + c) % 10 ^ n) ∧
        (r.opADC v).flag flagC = decide (10 ^ n ≤ a + b + c)) ∧
      ((r.opSBC v).getAcc = bcd n (((a : ℤ) - b - (1 - c : ℕ)) % (10 ^ n : ℕ)).toNat ∧
        (r.opSBC v).flag flagC = decide (¬a < b + (1 - c))) ∧
      ((((r.setFlag flagC false).opADC v).setFlag flagC true).opSBC v).c = r.c ∧
      (r.m8 = true → (r.opADC v).c &&& 0xFF00 = r.c &&& 0xFF00 ∧
        (r.opSBC v).c &&& 0xFF00 = r.c &&& 0xFF00) :=
  ⟨opADC_decimal hd ha hv, opSBC_decimal hd ha hv, opSBC_opADC hd ha hv,
    fun h => ⟨hidden_opADC h v, hidden_opSBC h v⟩⟩

/-- A 16-bit accumulator in decimal mode. -/
def decimalRegs : Regs :=
  { c := 0x1234, x := 0, y := 0, s := 0x01FF, d := 0, pc := 0, pbr := 0, dbr := 0
    p := flagD, e := false, m8 := false, x8 := false, cycKey := 0 }

theorem decimal_arithmetic_example :
    (decimalRegs.opADC 0x9876).getAcc = bcd 4 ((1234 + 9876) % 10 ^ 4) ∧
      ((((decimalRegs.setFlag flagC false).opADC 0x9876).setFlag flagC true).opSBC 0x9876).c =
        0x1234 :=
  have harith := decimal_arithmetic decimalRegs 0x9876 rfl
    ⟨by decide +kernel, by decide⟩ ⟨by decide +kernel, by decide⟩
  ⟨harith.1.1, harith.2.2.1⟩

end Regs

end W65C816

end ScpuEmu
