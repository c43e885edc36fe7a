import Mathlib.Data.BitVec

/-!
# Aligned blocks of a power of two

Words of a machine fall into blocks of `2 ^ j` neighbours. Whether two words share a block is
told by a mask.
-/

namespace ScpuEmu

namespace Library

variable {w : ℕ} {j : ℕ}

/-- The block of a word, counted from zero. -/
def block (j : ℕ) (x : BitVec w) : ℕ := x.toNat / 2 ^ j

/-- The mask that keeps the place within a block. -/
def placeMask (w j : ℕ) : BitVec w := BitVec.ofNat w (2 ^ j - 1)

theorem getElem_placeMask {i : ℕ} (hi : i < w) : (placeMask w j)[i] = decide (i < j) := by
  rw [← BitVec.getLsbD_eq_getElem, placeMask, BitVec.getLsbD_ofNat, Nat.testBit_two_pow_sub_one]
  simp [hi]

theorem block_eq_iff (x y : BitVec w) :
    block j x = block j y ↔ ∀ i, j ≤ i → x.getLsbD i = y.getLsbD i := by
  constructor
  · intro h i hi
    have hbit := congrArg (fun n => n.testBit (i - j)) h
    simp only [block, Nat.testBit_div_two_pow, Nat.sub_add_cancel hi] at hbit
    exact hbit
  · intro h
    apply Nat.eq_of_testBit_eq
    intro i
    rw [block, block, Nat.testBit_div_two_pow, Nat.testBit_div_two_pow]
    exact h (i + j) (Nat.le_add_left j i)

/-- The mask of a block clears what two words of one block may differ in. -/
theorem xor_and_not_placeMask_eq_zero_iff (x y : BitVec w) :
    (x ^^^ y) &&& ~~~placeMask w j = 0 ↔ block j x = block j y := by
  rw [block_eq_iff]
  constructor
  · intro h i hi
    by_cases hw : i < w
    · have hbit : ((x ^^^ y) &&& ~~~placeMask w j)[i] = (0#w)[i] := by rw [h]; rfl
      have hlow : ¬ i < j := Nat.not_lt.mpr hi
      simpa [hw, hlow, getElem_placeMask] using hbit
    · rw [BitVec.getLsbD_of_ge x i (Nat.le_of_not_lt hw),
        BitVec.getLsbD_of_ge y i (Nat.le_of_not_lt hw)]
  · intro h
    ext i hi
    by_cases hlow : i < j
    · simp [hlow, getElem_placeMask]
    · have hbit := h i (Nat.le_of_not_lt hlow)
      simpa [hi, hlow, getElem_placeMask] using hbit

theorem toNat_and_placeMask (x : BitVec w) (hj : j < w) :
    (x &&& placeMask w j).toNat = x.toNat % 2 ^ j := by
  have hpow : 2 ^ j < 2 ^ w := Nat.pow_lt_pow_right (by decide) hj
  have hlt : 2 ^ j - 1 < 2 ^ w := lt_of_le_of_lt (Nat.sub_le _ _) hpow
  rw [placeMask, BitVec.toNat_and, BitVec.toNat_ofNat, Nat.mod_eq_of_lt hlt,
    Nat.and_two_pow_sub_one_eq_mod]

end Library

end ScpuEmu
