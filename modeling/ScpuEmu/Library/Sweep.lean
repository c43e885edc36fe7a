import Mathlib.Tactic.Linarith

/-!
# The position of a sweeping beam

A beam runs through `n` lines of `w` ticks each and starts over. At tick `t` it
is on the line `sweepLine w n t` of the sweep `sweepCount w n t`, for negative
ticks as well. A program that sees two ticks only through their lines and the
gap between them takes a falling line or a gap of `n - 1` lines for a new sweep.
That misses none, and it is wrong exactly for two ticks at the two ends of one
sweep.
-/

namespace ScpuEmu

namespace Library

variable {w n s t : ℤ}

/-- Truncated division, one less below zero unless it is exact, is floor division. -/
theorem tdiv_corrected {a b : ℤ} (hb : 0 < b) :
    (if a < 0 ∧ a.tmod b ≠ 0 then a.tdiv b - 1 else a.tdiv b) = a / b := by
  have hinexact : a < 0 ∧ a.tmod b ≠ 0 ↔ ¬(0 ≤ a ∨ b ∣ a) := by
    rw [Int.dvd_iff_tmod_eq_zero, not_or, not_le]
  rw [Int.tdiv_eq_ediv, Int.sign_eq_one_of_pos hb]
  by_cases hexact : 0 ≤ a ∨ b ∣ a
  · rw [if_pos hexact, if_neg (fun h => hinexact.mp h hexact), add_zero]
  · rw [if_neg hexact, if_pos (hinexact.mpr hexact), add_sub_cancel_right]

/-- A truncated remainder, raised when it is negative, is the floor remainder. -/
theorem tmod_corrected {a b : ℤ} (hb : 0 < b) :
    (if a.tmod b < 0 then a.tmod b + b else a.tmod b) = a % b := by
  have hlo := Int.emod_nonneg a hb.ne'
  have hhi := Int.emod_lt_of_pos a hb
  have habs : (b.natAbs : ℤ) = b := Int.natAbs_of_nonneg hb.le
  rw [Int.tmod_eq_emod]
  by_cases hexact : 0 ≤ a ∨ b ∣ a
  · rw [if_pos hexact, Nat.cast_zero, sub_zero, if_neg hlo.not_gt]
  · rw [if_neg hexact, habs, if_pos (by omega), sub_add_cancel]

/-- The line of the beam at tick `t`. -/
def sweepLine (w n t : ℤ) : ℤ := t / w % n

/-- The number of the sweep at tick `t`. -/
def sweepCount (w n t : ℤ) : ℤ := t / w / n

theorem sweepLine_nonneg (hn : 0 < n) : 0 ≤ sweepLine w n t := Int.emod_nonneg _ hn.ne'

theorem sweepLine_lt (hn : 0 < n) : sweepLine w n t < n := Int.emod_lt_of_pos _ hn

/-- Lines counted from tick `0` on. -/
theorem sweep_lines (w n t : ℤ) : t / w = n * sweepCount w n t + sweepLine w n t :=
  (Int.mul_ediv_add_emod (t / w) n).symm

theorem sweepCount_mono (hw : 0 < w) (hn : 0 < n) (hst : s ≤ t) :
    sweepCount w n s ≤ sweepCount w n t :=
  Int.ediv_le_ediv hn (Int.ediv_le_ediv hw hst)

/-- A later sweep is one whose start lies between the two ticks. -/
theorem sweepCount_lt_iff (hw : 0 < w) (hn : 0 < n) :
    sweepCount w n s < sweepCount w n t ↔ ∃ k, s < k * n * w ∧ k * n * w ≤ t := by
  have hbefore : ∀ k, sweepCount w n s < k ↔ s < k * n * w := by
    intro k
    rw [sweepCount, Int.ediv_lt_iff_lt_mul hn, Int.ediv_lt_iff_lt_mul hw]
  have hafter : ∀ k, k ≤ sweepCount w n t ↔ k * n * w ≤ t := by
    intro k
    rw [sweepCount, Int.le_ediv_iff_mul_le hn, Int.le_ediv_iff_mul_le hw]
  constructor
  · intro hlt
    exact ⟨sweepCount w n t, (hbefore _).mp hlt, (hafter _).mp le_rfl⟩
  · intro h
    obtain ⟨k, hs, ht⟩ := h
    exact lt_of_lt_of_le ((hbefore k).mpr hs) ((hafter k).mpr ht)

/-- Two ticks are `d` lines apart, to within a line. -/
theorem gap_lines (hw : 0 < w) {d : ℤ} (hd : t / w - s / w = d) :
    (d - 1) * w < t - s ∧ t - s < (d + 1) * w := by
  have hs := Int.mul_ediv_add_emod s w
  have ht := Int.mul_ediv_add_emod t w
  have hs_lo := Int.emod_nonneg s hw.ne'
  have ht_lo := Int.emod_nonneg t hw.ne'
  have hs_hi := Int.emod_lt_of_pos s hw
  have ht_hi := Int.emod_lt_of_pos t hw
  have hdist : w * (t / w) - w * (s / w) = d * w := by
    rw [← mul_sub, hd, mul_comm]
  constructor <;> linarith

/-- The ticks lie on the first and on the last line, less than a sweep apart but at
least `n - 1` lines. -/
def EndToEnd (w n s t : ℤ) : Prop :=
  sweepLine w n s = 0 ∧ sweepLine w n t = n - 1 ∧ (n - 1) * w ≤ t - s ∧ t - s < n * w

theorem EndToEnd.sweepCount_eq (hw : 0 < w) (hn : 2 ≤ n) (hst : s ≤ t) (h : EndToEnd w n s t) :
    sweepCount w n s = sweepCount w n t := by
  obtain ⟨hs, ht, -, hgap⟩ := h
  refine le_antisymm (sweepCount_mono hw (by omega) hst) (not_lt.mp fun hlt => ?_)
  have hdist := (gap_lines (s := s) (t := t) hw rfl).1
  rw [sweep_lines w n t, sweep_lines w n s, hs, ht] at hdist
  have hsweep : n * 1 ≤ n * (sweepCount w n t - sweepCount w n s) :=
    mul_le_mul_of_nonneg_left (by omega) (by omega)
  rw [mul_sub, mul_one] at hsweep
  have hmore : n * w ≤ (n * sweepCount w n t + (n - 1) - (n * sweepCount w n s + 0) - 1) * w :=
    mul_le_mul_of_nonneg_right (by omega) hw.le
  linarith

/-- What a falling line or a long gap says about two ticks. -/
theorem line_falls_or_gap_iff (hw : 0 < w) (hn : 2 ≤ n) (hst : s ≤ t) :
    (sweepLine w n t < sweepLine w n s ∨ (n - 1) * w ≤ t - s) ↔
      sweepCount w n s < sweepCount w n t ∨ EndToEnd w n s t := by
  have hpos : 0 < n := by omega
  have hmono := sweepCount_mono hw hpos hst
  have hs_lo := sweepLine_nonneg (w := w) (t := s) hpos
  have ht_hi := sweepLine_lt (w := w) (t := t) hpos
  have hlines := Int.ediv_le_ediv hw hst
  have hs := sweep_lines w n s
  have ht := sweep_lines w n t
  obtain ⟨hgap_lo, hgap_hi⟩ := gap_lines (s := s) (t := t) hw rfl
  rcases hmono.lt_or_eq with hlt | heq
  · -- a later sweep on no earlier line is at least `n` lines away
    refine iff_of_true ?_ (.inl hlt)
    by_cases hfalls : sweepLine w n t < sweepLine w n s
    · exact .inl hfalls
    · have hsweep : n * 1 ≤ n * (sweepCount w n t - sweepCount w n s) :=
        mul_le_mul_of_nonneg_left (by omega) hpos.le
      rw [mul_sub, mul_one] at hsweep
      have hfar : (n - 1) * w ≤ (t / w - s / w - 1) * w :=
        mul_le_mul_of_nonneg_right (by omega) hw.le
      exact .inr (le_trans hfar hgap_lo.le)
  · rw [heq] at hs
    constructor
    · rintro (hfalls | hgap)
      · omega
      · have hmany : n - 1 < t / w - s / w + 1 :=
          lt_of_mul_lt_mul_right (lt_of_le_of_lt hgap hgap_hi) hw.le
        have hspan : t / w - s / w + 1 = n := by omega
        rw [hspan] at hgap_hi
        exact .inr ⟨by omega, by omega, hgap, hgap_hi⟩
    · rintro (hlt | hends)
      · omega
      · exact .inr hends.2.2.1

end Library

end ScpuEmu
