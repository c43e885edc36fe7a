import Mathlib.Logic.Function.Iterate
import Mathlib.Data.BitVec

/-!
# A cursor that walks a range of machine words

The cursor moves up by one word at a time and returns from the last word of the range to
the first. Outside the range it moves up, past the end of the word space, until it enters.
From every starting place it visits the whole range in one lap of the word space.
-/

namespace ScpuEmu

namespace Library

section RangeCursor

variable {w : ℕ}

def rangeCursor (lo hi c : BitVec w) : BitVec w := if c = hi then lo else c + 1

variable {lo hi a c : BitVec w}

/-- Short of the end of the range the cursor counts. -/
theorem iterate_rangeCursor {k : ℕ} (h : ∀ i < k, c + BitVec.ofNat w i ≠ hi) :
    (rangeCursor lo hi)^[k] c = c + BitVec.ofNat w k := by
  induction k with
  | zero => simp
  | succ k ih =>
      rw [Function.iterate_succ_apply', ih fun i hi' => h i (by omega), rangeCursor,
        if_neg (h k (by omega)), BitVec.add_assoc, BitVec.ofNat_add]
      rfl

theorem toNat_add_ofNat (c : BitVec w) (i : ℕ) :
    (c + BitVec.ofNat w i).toNat = (c.toNat + i) % 2 ^ w := by
  rw [BitVec.toNat_add, BitVec.toNat_ofNat, Nat.add_mod_mod]

/-- Straight up to a place that lies ahead of the end. -/
theorem rangeCursor_reaches_above (hca : c ≤ a) (ha : a ≤ hi) :
    (rangeCursor lo hi)^[a.toNat - c.toNat] c = a := by
  rw [BitVec.le_def] at hca ha
  have hbound := hi.isLt
  rw [iterate_rangeCursor]
  · apply BitVec.eq_of_toNat_eq
    rw [toNat_add_ofNat, Nat.mod_eq_of_lt (by omega)]
    omega
  · intro i hi' heq
    have hnat := congrArg BitVec.toNat heq
    rw [toNat_add_ofNat, Nat.mod_eq_of_lt (by omega)] at hnat
    omega

/-- From behind the range around to it. -/
theorem rangeCursor_reaches_around (hc : hi < c) (ha : a ≤ hi) :
    (rangeCursor lo hi)^[2 ^ w - c.toNat + a.toNat] c = a := by
  rw [BitVec.le_def] at ha
  rw [BitVec.lt_def] at hc
  have hbound := c.isLt
  rw [iterate_rangeCursor]
  · apply BitVec.eq_of_toNat_eq
    rw [toNat_add_ofNat]
    have hwrap : c.toNat + (2 ^ w - c.toNat + a.toNat) = a.toNat + 2 ^ w := by omega
    rw [hwrap, Nat.add_mod_right, Nat.mod_eq_of_lt a.isLt]
  · intro i hi' heq
    have hnat := congrArg BitVec.toNat heq
    rw [toNat_add_ofNat] at hnat
    rcases Nat.lt_or_ge (c.toNat + i) (2 ^ w) with hlow | hhigh
    · rw [Nat.mod_eq_of_lt hlow] at hnat
      omega
    · rw [Nat.mod_eq_sub_mod hhigh, Nat.mod_eq_of_lt (by omega)] at hnat
      omega

/-- One lap visits every place of the range. -/
theorem rangeCursor_visits (c : BitVec w) (hlo : lo ≤ a) (hhi : a ≤ hi) :
    ∃ k < 2 ^ w, (rangeCursor lo hi)^[k] c = a := by
  have hbound := hi.isLt
  have hc := c.isLt
  by_cases hca : c ≤ a
  · refine ⟨a.toNat - c.toNat, ?_, rangeCursor_reaches_above hca hhi⟩
    rw [BitVec.le_def] at hhi
    omega
  rw [BitVec.not_le, BitVec.lt_def] at hca
  by_cases hin : c ≤ hi
  · -- to the end of the range, back to its start, and up
    refine ⟨a.toNat - lo.toNat + (1 + (hi.toNat - c.toNat)), ?_, ?_⟩
    · rw [BitVec.le_def] at hlo hhi hin
      omega
    · rw [Function.iterate_add_apply, Function.iterate_add_apply,
        rangeCursor_reaches_above hin (BitVec.le_refl hi)]
      have hback : (rangeCursor lo hi)^[1] hi = lo := if_pos rfl
      rw [hback]
      exact rangeCursor_reaches_above hlo hhi
  · rw [BitVec.not_le] at hin
    refine ⟨2 ^ w - c.toNat + a.toNat, by omega, rangeCursor_reaches_around hin hhi⟩

end RangeCursor

end Library

end ScpuEmu
