import Mathlib.Algebra.Order.Floor.Semifield
import Mathlib.Data.Nat.Cast.Order.Field
import Mathlib.Data.Rat.Floor
import Mathlib.Tactic.FieldSimp
import Mathlib.Tactic.Linarith
import Mathlib.Tactic.Ring

/-!
# Deadlines in the cycles of a clock that changes its rate

A fast clock runs at a whole number of cycles for each cycle of a slow one, and that
number changes now and then. A deadline stands in cycles of the fast clock, so what
remains of it is scaled at each change, with integer division and a floor of one cycle.
Seen in exact time of the slow clock, each change brings the deadline forward by less
than one cycle, and defers it at most to the next cycle of the fast clock, which comes
first if the new rate lasts. A counter of the slow clock that banks whole cycles at each
change loses less than one cycle by it.
-/

namespace ScpuEmu

namespace Library

/-- A deadline in the cycles of another rate. -/
def redenominate (now deadline f f' : ℕ) : ℕ := now + max 1 ((deadline - now) * f' / f)

theorem lt_redenominate (now deadline f f' : ℕ) : now < redenominate now deadline f f' :=
  Nat.lt_add_of_pos_right (Nat.lt_of_lt_of_le one_pos (le_max_left _ _))

/-- A whole number of slow cycles is scaled exactly. -/
theorem redenominate_span (now : ℕ) {span f f' : ℕ} (hspan : 0 < span) (hf : 0 < f) (hf' : 0 < f') :
    redenominate now (now + span * f) f f' = now + span * f' := by
  have hscaled : span * f * f' / f = span * f' := by
    rw [Nat.mul_right_comm, Nat.mul_div_cancel _ hf]
  rw [redenominate, Nat.add_sub_cancel_left, hscaled, max_eq_right (Nat.mul_pos hspan hf')]

/-- The fast clock, the exact time of the slow one and a deadline. -/
structure Countdown where
  now : ℕ
  factor : ℕ
  time : ℚ
  deadline : ℕ
  sinceChange : ℕ
  changes : ℕ

namespace Countdown

variable (c : Countdown) {due : ℚ}

/-- The fast clock advances. -/
def advance (n : ℕ) : Countdown :=
  { c with
    now := c.now + n
    time := c.time + n / c.factor
    sinceChange := c.sinceChange + n }

/-- The rate changes. -/
def change (f' : ℕ) : Countdown :=
  { c with
    factor := f'
    deadline := redenominate c.now c.deadline c.factor f'
    sinceChange := 0
    changes := c.changes + 1 }

/-- The slow time of the deadline, if the rate stays. -/
def projected : ℚ := c.time + ((c.deadline : ℚ) - c.now) / c.factor

/-- The deadline stands for the time `due`: each change made it early by less than one
cycle, and late at most by the cycle of the fast clock that comes next. -/
structure Accurate (due : ℚ) : Prop where
  factor_pos : 0 < c.factor
  early : due ≤ c.projected + c.changes
  early_lt : c.changes ≠ 0 → due < c.projected + c.changes
  late : c.projected ≤ due ∨ c.deadline = c.now + 1 ∧ c.sinceChange = 0
  time_le : c.time ≤ due

variable {c}

@[simp] theorem projected_advance (h : 0 < c.factor) (n : ℕ) :
    (c.advance n).projected = c.projected := by
  have hf : (c.factor : ℚ) ≠ 0 := by exact_mod_cast h.ne'
  simp only [projected, advance, Nat.cast_add]
  field_simp
  ring

theorem time_le_projected (h : c.now ≤ c.deadline) : c.time ≤ c.projected := by
  have hle : (c.now : ℚ) ≤ c.deadline := by exact_mod_cast h
  exact le_add_of_nonneg_right (div_nonneg (sub_nonneg.mpr hle) (Nat.cast_nonneg _))

/-- While the deadline lies ahead, the clock may advance. -/
theorem Accurate.advance (h : c.Accurate due) {n : ℕ} (hn : c.now + n < c.deadline) :
    (c.advance n).Accurate due := by
  have hprojected := projected_advance h.factor_pos n
  have hlate : (c.advance n).projected ≤ due ∨
      (c.advance n).deadline = (c.advance n).now + 1 ∧ (c.advance n).sinceChange = 0 := by
    rcases h.late with hle | ⟨hnext, hsince⟩
    · exact Or.inl (hprojected ▸ hle)
    · obtain rfl : n = 0 := by omega
      exact Or.inr ⟨hnext, hsince⟩
  refine ⟨h.factor_pos, by rw [hprojected]; exact h.early, ?_, hlate, ?_⟩
  · intro hchanges
    rw [hprojected]
    exact h.early_lt hchanges
  · rcases h.late with hle | ⟨hnext, hsince⟩
    · calc (c.advance n).time ≤ (c.advance n).projected := time_le_projected hn.le
        _ = c.projected := hprojected
        _ ≤ due := hle
    · obtain rfl : n = 0 := by omega
      simpa [Countdown.advance] using h.time_le

/-- Integer division of a scaled count, seen in slow cycles. -/
theorem scaled_bounds (left : ℕ) {f f' : ℕ} (hf' : 0 < f') :
    ((left * f' / f : ℕ) : ℚ) / f' ≤ left / f ∧
      (left : ℚ) / f < ((left * f' / f : ℕ) : ℚ) / f' + 1 / f' := by
  have hg : (0 : ℚ) < f' := by exact_mod_cast hf'
  have hscale : (left : ℚ) / f * f' = ((left * f' : ℕ) : ℚ) / f := by
    rw [Nat.cast_mul]
    ring
  constructor
  · rw [div_le_iff₀ hg, hscale]
    exact Nat.cast_div_le
  · rw [← add_div, lt_div_iff₀ hg, hscale, ← Nat.floor_div_eq_div (K := ℚ)]
    exact Nat.lt_floor_add_one _

theorem one_div_le_one {f : ℕ} (hf : 0 < f) : (1 : ℚ) / f ≤ 1 := by
  have hone : (1 : ℚ) ≤ f := by exact_mod_cast hf
  exact div_le_one_of_le₀ hone (Nat.cast_nonneg f)

/-- What is left after a change, in slow cycles: less by under one cycle of the fast clock,
and more only where it is one such cycle. -/
theorem projected_change (hahead : c.now < c.deadline) {f' : ℕ} (hf' : 0 < f') :
    c.projected < (c.change f').projected + 1 ∧
      ((c.change f').projected ≤ c.projected ∨ (c.change f').deadline = c.now + 1) := by
  obtain ⟨left, hleft⟩ := Nat.exists_eq_add_of_le hahead.le
  obtain ⟨hle, hlt⟩ := scaled_bounds left (f := c.factor) hf'
  have hone := one_div_le_one hf'
  have hold : c.projected = c.time + left / c.factor := by
    rw [projected, hleft, Nat.cast_add, add_sub_cancel_left]
  have hnew : (c.change f').projected = c.time + (max 1 (left * f' / c.factor) : ℕ) / f' := by
    simp only [projected, change, redenominate, hleft, Nat.cast_add, add_sub_cancel_left,
      Nat.add_sub_cancel_left]
  have hdeadline : (c.change f').deadline = c.now + max 1 (left * f' / c.factor) := by
    simp only [change, redenominate, hleft, Nat.add_sub_cancel_left]
  rw [hold, hnew, hdeadline]
  rcases Nat.eq_zero_or_pos (left * f' / c.factor) with hzero | hpos
  · rw [hzero, Nat.cast_zero, zero_div, zero_add] at hlt
    rw [hzero, max_eq_left zero_le_one, Nat.cast_one]
    exact ⟨by linarith, Or.inr rfl⟩
  · rw [max_eq_right hpos]
    exact ⟨by linarith, Or.inl (by linarith)⟩

/-- A rate that lasted for a cycle may change, while the deadline lies ahead. -/
theorem Accurate.change (h : c.Accurate due) (hahead : c.now < c.deadline) {f' : ℕ} (hf' : 0 < f')
    (hlasted : c.factor ≤ c.sinceChange) : (c.change f').Accurate due := by
  obtain ⟨hlt, hcases⟩ := projected_change hahead hf'
  have hle : c.projected ≤ due := by
    rcases h.late with hle | ⟨-, hsince⟩
    · exact hle
    · have hpos := h.factor_pos
      omega
  have hearly : due < (c.change f').projected + (c.change f').changes := by
    have hbefore := h.early
    simp only [Countdown.change, Nat.cast_add, Nat.cast_one] at hlt ⊢
    linarith
  exact ⟨hf', hearly.le, fun _ => hearly, hcases.imp hle.trans' fun hnext =>
    ⟨hnext, rfl⟩, h.time_le⟩

/-- An advance that reaches the deadline ends near the time it stands for. -/
theorem Accurate.reach (h : c.Accurate due) {n : ℕ} (hn : c.deadline ≤ c.now + n) :
    due ≤ (c.advance n).time + c.changes ∧
      (c.changes ≠ 0 → due < (c.advance n).time + c.changes) ∧
      (c.advance n).time ≤ due + n / c.factor := by
  have hreach : c.projected ≤ (c.advance n).time := by
    have hle : (c.deadline : ℚ) - c.now ≤ n := by
      rw [sub_le_iff_le_add']
      exact_mod_cast hn
    exact add_le_add_right (div_le_div_of_nonneg_right hle (Nat.cast_nonneg _)) c.time
  refine ⟨?_, fun hchanges => ?_, ?_⟩
  · linarith [h.early]
  · linarith [h.early_lt hchanges]
  · exact add_le_add_left h.time_le _

/-- A deadline set for a whole number of slow cycles. -/
theorem accurate_of_span {span : ℕ} (hf : 0 < c.factor)
    (hdeadline : c.deadline = c.now + span * c.factor)
    (hchanges : c.changes = 0) : c.Accurate (c.time + span) := by
  have hfactor : (c.factor : ℚ) ≠ 0 := by exact_mod_cast hf.ne'
  have hprojected : c.projected = c.time + span := by
    rw [projected, hdeadline, Nat.cast_add, add_sub_cancel_left, Nat.cast_mul,
      mul_div_cancel_right₀ _ hfactor]
  refine ⟨hf, ?_, fun h => absurd hchanges h, Or.inl hprojected.le, ?_⟩
  · rw [hprojected, hchanges, Nat.cast_zero, add_zero]
  · exact le_add_of_nonneg_right (Nat.cast_nonneg span)

end Countdown

/-! ### Counting slow cycles -/

/-- The count of a counter that banked `base` cycles when the rate last changed. -/
def wholeCycles (base mark now factor : ℕ) : ℕ := base + (now - mark) / factor

/-- What was banked is behind the exact time of the last change by no more than one cycle
for each change. -/
structure Banked (base mark now factor : ℕ) (time : ℚ) (changes : ℕ) : Prop where
  factor_pos : 0 < factor
  mark_le : mark ≤ now
  base_le : (base : ℚ) ≤ time - ((now - mark : ℕ) : ℚ) / factor
  le_base : time - ((now - mark : ℕ) : ℚ) / factor ≤ base + changes
  lt_base : changes ≠ 0 → time - ((now - mark : ℕ) : ℚ) / factor < base + changes

namespace Banked

variable {base mark now factor changes : ℕ} {time : ℚ}

/-- The count is the exact time but for the part of a cycle and one for each change. -/
theorem bounds (h : Banked base mark now factor time changes) :
    (wholeCycles base mark now factor : ℚ) ≤ time ∧
      time < wholeCycles base mark now factor + changes + 1 := by
  have hle : (((now - mark) / factor : ℕ) : ℚ) ≤ ((now - mark : ℕ) : ℚ) / factor := Nat.cast_div_le
  have hlt : ((now - mark : ℕ) : ℚ) / factor < (((now - mark) / factor : ℕ) : ℚ) + 1 := by
    rw [← Nat.floor_div_eq_div (K := ℚ)]
    exact Nat.lt_floor_add_one _
  have hbase := h.base_le
  have hbase' := h.le_base
  rw [wholeCycles, Nat.cast_add]
  constructor <;> linarith

theorem advance (h : Banked base mark now factor time changes) (n : ℕ) :
    Banked base mark (now + n) factor (time + n / factor) changes := by
  have hsplit : ((now + n - mark : ℕ) : ℚ) / factor =
      ((now - mark : ℕ) : ℚ) / factor + n / factor := by
    rw [Nat.sub_add_comm h.mark_le, Nat.cast_add, add_div]
  refine ⟨h.factor_pos, h.mark_le.trans (Nat.le_add_right _ _), ?_, ?_, fun hchanges => ?_⟩
  · rw [hsplit]
    linarith [h.base_le]
  · rw [hsplit]
    linarith [h.le_base]
  · rw [hsplit]
    linarith [h.lt_base hchanges]

/-- A change banks the count. -/
theorem bank (h : Banked base mark now factor time changes) {factor' : ℕ} (hf : 0 < factor') :
    Banked (wholeCycles base mark now factor) now now factor' time (changes + 1) := by
  obtain ⟨hle, hlt⟩ := h.bounds
  have hbanked : time - ((now - now : ℕ) : ℚ) / factor' <
      (wholeCycles base mark now factor : ℚ) + (changes + 1 : ℕ) := by
    rw [Nat.sub_self, Nat.cast_zero, zero_div, sub_zero, Nat.cast_add, Nat.cast_one, ← add_assoc]
    exact hlt
  refine ⟨hf, le_rfl, ?_, hbanked.le, fun _ => hbanked⟩
  simpa using hle

end Banked

theorem wholeCycles_mono {base mark now factor n : ℕ} :
    wholeCycles base mark now factor ≤ wholeCycles base mark (now + n) factor :=
  Nat.add_le_add_left (Nat.div_le_div_right (Nat.sub_le_sub_right (Nat.le_add_right _ _) _)) _

end Library

end ScpuEmu
