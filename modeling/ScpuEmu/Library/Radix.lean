import Mathlib.Algebra.BigOperators.Group.Finset.Basic
import Mathlib.Data.Nat.ModEq
import Mathlib.Tactic.Ring

/-!
# Numbers written in digits

The value of a row of digits, to any base, and the two loops of pencil and paper: an addition
that carries and a subtraction that borrows, digit by digit from the right. What is borrowed
depends on the digits only, so a comparison comes out the same in every base.
-/

namespace ScpuEmu

namespace Library

section Radix

variable {B : ℕ} {d e : ℕ → ℕ} {n : ℕ}

/-- The value to base `B` of the digits below place `n`. -/
def radix (B : ℕ) (d : ℕ → ℕ) (n : ℕ) : ℕ := ∑ i ∈ Finset.range n, d i * B ^ i

theorem radix_zero : radix B d 0 = 0 := Finset.sum_range_zero _

theorem radix_succ : radix B d (n + 1) = radix B d n + d n * B ^ n := Finset.sum_range_succ _ _

theorem radix_congr (h : ∀ i < n, d i = e i) : radix B d n = radix B e n :=
  Finset.sum_congr rfl fun i hi => by rw [h i (Finset.mem_range.mp hi)]

theorem radix_lt (h : ∀ i < n, d i < B) : radix B d n < B ^ n := by
  induction n with
  | zero => exact Nat.one_pos
  | succ n ih =>
      have hlow := ih fun i hi => h i (Nat.lt_succ_of_lt hi)
      have htop : (d n + 1) * B ^ n ≤ B * B ^ n := Nat.mul_le_mul_right _ (h n (Nat.lt_succ_self n))
      rw [Nat.add_mul, Nat.one_mul] at htop
      rw [radix_succ, Nat.pow_succ']
      omega

/-- Each digit can be read back. -/
theorem digit_radix (h : ∀ i < n, d i < B) {i : ℕ} (hi : i < n) :
    radix B d n / B ^ i % B = d i := by
  have hB : 0 < B := Nat.zero_lt_of_lt (h i hi)
  induction n with
  | zero => exact absurd hi (Nat.not_lt_zero i)
  | succ n ih =>
      rw [radix_succ]
      rcases Nat.lt_succ_iff_lt_or_eq.mp hi with hlt | rfl
      · obtain ⟨k, rfl⟩ := Nat.exists_eq_add_of_lt hlt
        have hsplit : d (i + k + 1) * B ^ (i + k + 1) = d (i + k + 1) * B ^ k * B * B ^ i := by ring
        rw [hsplit, Nat.add_mul_div_right _ _ (Nat.pow_pos hB), Nat.add_mul_mod_self_right]
        exact ih (fun j hj => h j (Nat.lt_succ_of_lt hj)) hlt
      · rw [Nat.add_mul_div_right _ _ (Nat.pow_pos hB),
          Nat.div_eq_of_lt (radix_lt fun j hj => h j (Nat.lt_succ_of_lt hj)), Nat.zero_add,
          Nat.mod_eq_of_lt (h i hi)]

/-- The digits of a number, put together again. -/
theorem radix_digits (B N n : ℕ) : radix B (fun i => N / B ^ i % B) n = N % B ^ n := by
  induction n with
  | zero => rw [radix_zero, Nat.pow_zero, Nat.mod_one]
  | succ n ih =>
      rw [radix_succ, ih, Nat.pow_succ, Nat.mod_mul]
      ring

/-! ### Addition -/

/-- The carry into place `i`. -/
def carryInto (B : ℕ) (d e : ℕ → ℕ) (c : ℕ) : ℕ → ℕ
  | 0 => c
  | i + 1 => (d i + e i + carryInto B d e c i) / B

def sumDigit (B : ℕ) (d e : ℕ → ℕ) (c i : ℕ) : ℕ := (d i + e i + carryInto B d e c i) % B

theorem carryInto_le_one {c : ℕ} (hd : ∀ i < n, d i < B) (he : ∀ i < n, e i < B) (hc : c ≤ 1) :
    carryInto B d e c n ≤ 1 := by
  induction n with
  | zero => exact hc
  | succ n ih =>
      have hlow := ih (fun i hi => hd i (Nat.lt_succ_of_lt hi))
        (fun i hi => he i (Nat.lt_succ_of_lt hi))
      have hdn := hd n (Nat.lt_succ_self n)
      have hen := he n (Nat.lt_succ_self n)
      exact Nat.le_of_lt_succ (Nat.div_lt_of_lt_mul (by omega))

theorem radix_sumDigit (c n : ℕ) :
    radix B (sumDigit B d e c) n + carryInto B d e c n * B ^ n =
      radix B d n + radix B e n + c := by
  induction n with
  | zero =>
      show 0 + c * 1 = 0 + 0 + c
      omega
  | succ n ih =>
      have hdigit : sumDigit B d e c n + B * carryInto B d e c (n + 1) =
          d n + e n + carryInto B d e c n := Nat.mod_add_div _ _
      calc radix B (sumDigit B d e c) (n + 1) + carryInto B d e c (n + 1) * B ^ (n + 1)
          = radix B (sumDigit B d e c) n +
              (sumDigit B d e c n + B * carryInto B d e c (n + 1)) * B ^ n := by
            rw [radix_succ]
            ring
        _ = radix B (sumDigit B d e c) n + carryInto B d e c n * B ^ n +
              (d n + e n) * B ^ n := by
            rw [hdigit]
            ring
        _ = radix B d (n + 1) + radix B e (n + 1) + c := by
            rw [ih, radix_succ, radix_succ]
            ring

/-- The last carry is out exactly if the sum is too large for its places. -/
theorem carryInto_eq_one_iff {c : ℕ} (hd : ∀ i < n, d i < B) (he : ∀ i < n, e i < B)
    (hc : c ≤ 1) : carryInto B d e c n = 1 ↔ B ^ n ≤ radix B d n + radix B e n + c := by
  have hsum := radix_sumDigit (B := B) (d := d) (e := e) c n
  have hlt : radix B (sumDigit B d e c) n < B ^ n :=
    radix_lt fun i hi => Nat.mod_lt _ (Nat.zero_lt_of_lt (hd i hi))
  have hle := carryInto_le_one hd he hc
  rcases Nat.le_one_iff_eq_zero_or_eq_one.mp hle with hzero | hone
  · rw [hzero] at hsum ⊢
    omega
  · rw [hone] at hsum ⊢
    omega

theorem radix_sumDigit_eq_mod {c : ℕ} (hB : 0 < B) :
    radix B (sumDigit B d e c) n = (radix B d n + radix B e n + c) % B ^ n := by
  have hlt : radix B (sumDigit B d e c) n < B ^ n := radix_lt fun i _ => Nat.mod_lt _ hB
  rw [← radix_sumDigit, Nat.add_mul_mod_self_right, Nat.mod_eq_of_lt hlt]

/-! ### Subtraction -/

/-- The borrow out of place `i`. -/
def borrowFrom (d e : ℕ → ℕ) (b : ℕ) : ℕ → ℕ
  | 0 => b
  | i + 1 => if d i < e i + borrowFrom d e b i then 1 else 0

def differenceDigit (B : ℕ) (d e : ℕ → ℕ) (b i : ℕ) : ℕ :=
  d i + borrowFrom d e b (i + 1) * B - (e i + borrowFrom d e b i)

theorem borrowFrom_le_one {b : ℕ} (hb : b ≤ 1) : borrowFrom d e b n ≤ 1 := by
  cases n with
  | zero => exact hb
  | succ n =>
      rw [borrowFrom]
      split
      · exact Nat.le_refl 1
      · exact Nat.zero_le 1

theorem differenceDigit_add {b : ℕ} (he : e n < B) (hb : b ≤ 1) :
    differenceDigit B d e b n + (e n + borrowFrom d e b n) =
      d n + borrowFrom d e b (n + 1) * B := by
  have hle := borrowFrom_le_one (d := d) (e := e) (n := n) hb
  refine Nat.sub_add_cancel ?_
  rw [borrowFrom]
  split <;> omega

theorem differenceDigit_lt {b : ℕ} (hd : d n < B) :
    differenceDigit B d e b n < B := by
  rw [differenceDigit, borrowFrom]
  split <;> omega

theorem radix_differenceDigit {b : ℕ} (he : ∀ i < n, e i < B) (hb : b ≤ 1) :
    radix B (differenceDigit B d e b) n + radix B e n + b =
      radix B d n + borrowFrom d e b n * B ^ n := by
  induction n with
  | zero =>
      show 0 + 0 + b = 0 + b * 1
      omega
  | succ n ih =>
      have hdigit := differenceDigit_add (d := d) (he n (Nat.lt_succ_self n)) hb
      have hlow := ih fun i hi => he i (Nat.lt_succ_of_lt hi)
      have htop : differenceDigit B d e b n * B ^ n + e n * B ^ n + borrowFrom d e b n * B ^ n =
          d n * B ^ n + borrowFrom d e b (n + 1) * B ^ (n + 1) := by
        calc differenceDigit B d e b n * B ^ n + e n * B ^ n + borrowFrom d e b n * B ^ n
            = (differenceDigit B d e b n + (e n + borrowFrom d e b n)) * B ^ n := by ring
          _ = d n * B ^ n + borrowFrom d e b (n + 1) * B ^ (n + 1) := by
              rw [hdigit]
              ring
      rw [radix_succ, radix_succ, radix_succ]
      omega

/-- The last borrow is out exactly if there is too little to take from. -/
theorem borrowFrom_eq_one_iff {b : ℕ} (hd : ∀ i < n, d i < B) (he : ∀ i < n, e i < B)
    (hb : b ≤ 1) : borrowFrom d e b n = 1 ↔ radix B d n < radix B e n + b := by
  have hdiff := radix_differenceDigit (d := d) he hb
  have hlt : radix B (differenceDigit B d e b) n < B ^ n :=
    radix_lt fun i hi => differenceDigit_lt (hd i hi)
  rcases Nat.le_one_iff_eq_zero_or_eq_one.mp (borrowFrom_le_one (d := d) (e := e) (n := n) hb)
    with hzero | hone
  · rw [hzero] at hdiff ⊢
    omega
  · rw [hone] at hdiff ⊢
    omega

theorem radix_differenceDigit_eq_emod {b : ℕ} (hd : ∀ i < n, d i < B) (he : ∀ i < n, e i < B)
    (hb : b ≤ 1) : (radix B (differenceDigit B d e b) n : ℤ) =
      ((radix B d n : ℤ) - radix B e n - b) % (B ^ n : ℕ) := by
  have hdiff := radix_differenceDigit (d := d) he hb
  have hlt : radix B (differenceDigit B d e b) n < B ^ n :=
    radix_lt fun i hi => differenceDigit_lt (hd i hi)
  have hsplit : (radix B d n : ℤ) - radix B e n - b =
      radix B (differenceDigit B d e b) n + -(borrowFrom d e b n : ℤ) * (B ^ n : ℕ) := by
    have hcast : (borrowFrom d e b n : ℤ) * (B ^ n : ℕ) =
        ((borrowFrom d e b n * B ^ n : ℕ) : ℤ) := (Int.natCast_mul _ _).symm
    rw [Int.neg_mul, hcast]
    omega
  rw [hsplit, Int.add_mul_emod_self_right]
  exact (Int.emod_eq_of_lt (Int.natCast_nonneg _) (Int.ofNat_lt.mpr hlt)).symm

end Radix

end Library

end ScpuEmu
