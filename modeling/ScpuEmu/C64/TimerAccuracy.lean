import ScpuEmu.C64.TimingRuns

/-!
# How far deadlines stray from the C64's time

An observer of a run counts the exact time of the C64, as the integral of the emulated
cycles over the rate in force, and the changes of the rate. Whatever happens but a reset,
the machine's own count of C64 cycles stays within one cycle for each change of that time.
A timer that is armed and then left alone underflows with the same accuracy: never after
the tick in which its time comes, and early by less than a cycle for each change. While
the rate stays, its deadlines are exact.
-/

namespace ScpuEmu

open Library

namespace Timing

variable {t t' s : Timing} {x : CIATimer}

/-! ### Arming -/

theorem deadline_armTimers (hwaits : t.cia2ArmPending &&& x.bit ≠ 0) :
    t.armTimerA.armTimerB.deadline x = t.emuCycles + t.ciaSpan ((t.latch x).toNat + 1) ∧
      t.armTimerA.armTimerB.clockView = t.clockView ∧
      t.armTimerA.armTimerB.nmiRetimeEnable = t.nmiRetimeEnable := by
  cases x with
  | a =>
      have hA : t.armTimerA =
          { t with cia2TADeadline := t.emuCycles + t.ciaSpan (t.cia2TALatch.toNat + 1) } :=
            if_pos hwaits
      rw [hA]
      unfold armTimerB
      split <;> exact ⟨rfl, rfl, rfl⟩
  | b =>
      have hB (s : Timing) (hs : s.cia2ArmPending &&& 0x02#8 ≠ 0) : s.armTimerB =
          { s with cia2TBDeadline := s.emuCycles + s.ciaSpan (s.cia2TBLatch.toNat + 1) } :=
            if_pos hs
      unfold armTimerA
      split
      · rw [hB]
        · exact ⟨rfl, rfl, rfl⟩
        · exact hwaits
      · rw [hB t hwaits]
        exact ⟨rfl, rfl, rfl⟩

/-- The tick that arms the timer sets the deadline a whole period ahead, in the rate that is
in force after it. -/
theorem armed_tick (h : t.Coherent) (hon : t.nmiRetimeEnable = true)
    (hwaits : t.cia2ArmPending &&& x.bit ≠ 0) (n : ℕ) :
    (t.tickFast n).Settled x ∧
      (t.tickFast n).deadline x = (t.tickFast n).emuCycles +
        ((t.latch x).toNat + 1) * (t.tickFast n).effectiveCIAFactor := by
  obtain ⟨s, hemu, hs, hcoherent, htick⟩ := tick_charged h n
  have hfields : s.cia2ArmPending = t.cia2ArmPending ∧ s.nmiRetimeEnable = t.nmiRetimeEnable ∧
      s.latch x = t.latch x := by
    rw [hs]
    cases x <;> exact ⟨rfl, rfl, rfl⟩
  obtain ⟨hpending, hretime, hlatch⟩ := hfields
  have hwaits' : s.cia2ArmPending &&& x.bit ≠ 0 := by rwa [hpending]
  have hany : s.cia2ArmPending ≠ 0 := by
    intro hzero
    rw [hzero] at hwaits'
    exact hwaits' BitVec.zero_and
  obtain ⟨hdeadline, hview, hretimeA⟩ := deadline_armTimers hwaits'
  have harm : s.finishPendingArm =
      { s.armTimerA.armTimerB with cia2ArmPending := 0 }.cia2RecomputeNMIState := by
    rw [finishPendingArm, if_pos hany, cia2FinishArm, onRateChange_of_inScale hcoherent.toInScale]
  have harmed := coherent_finishPendingArm hcoherent
  obtain ⟨w, hw⟩ : ∃ w, w = s.finishPendingArm := ⟨_, rfl⟩
  have hwview : w.clockView = s.clockView ∧ w.nmiRetimeEnable = true ∧ w.cia2ArmPending = 0 ∧
      w.deadline x = s.emuCycles + s.ciaSpan ((s.latch x).toNat + 1) := by
    rw [hw, harm]
    refine ⟨hview, hretimeA.trans (hretime.trans hon), rfl, ?_⟩
    rw [← hdeadline]
    cases x <;> rfl
  rw [← hw] at harmed htick
  obtain ⟨hclock, honW, hdone, hdeadlineW⟩ := hwview
  simp only [clockView, Prod.mk.injEq] at hclock
  have hpositive : 0 < s.ciaSpan ((s.latch x).toNat + 1) := by
    unfold ciaSpan
    rw [hcoherent.timers]
    exact Nat.mul_pos (Nat.succ_pos _) s.effectiveCIAFactor_pos
  have hearly : ¬ w.Due x := by
    rintro ⟨-, hle⟩
    rw [hdeadlineW, hclock.1] at hle
    omega
  obtain ⟨hclockC, hpendingC, hretimeC, hdeadlineC, -⟩ := counts_checkDeadline harmed honW x
  have hchecked := coherent_checkDeadline harmed
  simp only [rateView, Prod.mk.injEq] at hclockC
  have hahead : w.checkDeadline.deadline x = w.checkDeadline.emuCycles +
      ((t.latch x).toNat + 1) * w.checkDeadline.effectiveCIAFactor := by
    rw [hdeadlineC, if_neg hearly, hdeadlineW, hclockC.1, hclock.1, ← hchecked.clock,
      hclockC.2.2.2.1, hclock.2.2.2, hlatch, ciaSpan, hcoherent.timers, ← hcoherent.clock]
  have hfinal := coherent_tickFast h n
  rw [htick] at hfinal ⊢
  have hrate := (notifies_decays w.checkDeadline (t.tickCycles n) (x := x)).rateStep
    hchecked.toInScale hfinal.toInScale
  obtain ⟨-, hretimeD⟩ := decays_keep w.checkDeadline (t.tickCycles n)
  generalize ((w.checkDeadline.decayActivity _).decayPollHold _).decayHold _ = t'
    at hfinal hrate hretimeD ⊢
  refine ⟨⟨hfinal, ?_, hretimeD.trans (hretimeC.trans honW)⟩, ?_⟩
  · rw [hrate.pending, hpendingC, hdone]
    exact BitVec.zero_and
  by_cases hsame : t'.effectiveCIAFactor = w.checkDeadline.effectiveCIAFactor
  · rw [(hrate.same hsame).2.2, hahead, hrate.emuCycles, hsame]
  · have hfactor := w.checkDeadline.effectiveCIAFactor_pos
    have hne : w.checkDeadline.deadline x ≠ 0 := by
      rw [hahead]
      exact (Nat.add_pos_right _ (Nat.mul_pos (Nat.succ_pos _) hfactor)).ne'
    rw [(hrate.changed hsame).2.2.1 hne, hahead, hrate.emuCycles,
      redenominate_span _ (Nat.succ_pos _) hfactor t'.effectiveCIAFactor_pos]

end Timing

/-! ### The observer -/

/-- The fields that deal with time, and what an observer counts beside them: the exact time
of the C64, the cycles since the rate last changed, the changes, and the underflows of a
timer. -/
structure Clocked where
  timing : Timing
  time : ℚ
  sinceChange : ℕ
  changes : ℕ
  underflows : ℕ

namespace Clocked

variable {x : CIATimer} {c : Clocked} {op : TimingOp}

/-- One elementary change, observed. -/
def step (x : CIATimer) (c : Clocked) (op : TimingOp) : Clocked :=
  let spent := c.timing.spent op
  let next := c.timing.step op
  let changed := next.effectiveCIAFactor ≠ c.timing.effectiveCIAFactor
  { timing := next
    time := c.time + spent / c.timing.effectiveCIAFactor
    sinceChange := if changed then 0 else c.sinceChange + spent
    changes := if changed then c.changes + 1 else c.changes
    underflows := if c.timing.Underflows x op then c.underflows + 1 else c.underflows }

/-- An observer who takes the machine's count of whole C64 cycles for exact up to the last
change of the rate. -/
def start (t : Timing) : Clocked where
  timing := t
  time := t.c64ClockBase + ((t.emuCycles - t.emuAtRateChange : ℕ) : ℚ) / t.effectiveCIAFactor
  sinceChange := t.emuCycles - t.emuAtRateChange
  changes := 0
  underflows := 0

/-- After the tick that arms the timer, from where changes and underflows are counted. -/
def armed (x : CIATimer) (t : Timing) (n : ℕ) : Clocked :=
  { (start t).step x (.tick n) with changes := 0, underflows := 0 }

/-- The rate does not change before it lasted for a cycle of the C64. -/
def SegmentLasts (c : Clocked) (op : TimingOp) : Prop :=
  (c.timing.step op).effectiveCIAFactor ≠ c.timing.effectiveCIAFactor →
    c.timing.effectiveCIAFactor ≤ c.sinceChange + c.timing.spent op

instance (c : Clocked) (op : TimingOp) : Decidable (SegmentLasts c op) :=
  inferInstanceAs (Decidable (_ → _))

/-- The machine's count of C64 cycles, seen beside the exact time: it never goes back, and
what it banked is behind by less than a cycle for each change. -/
structure KeepsC64Time (c : Clocked) : Prop where
  le : c.timing.c64Now ≤ c.time
  lt : c.time < c.timing.c64Now + c.changes + 1
  lost : c.changes ≠ 0 →
    c.time - ((c.timing.emuCycles - c.timing.emuAtRateChange : ℕ) : ℚ) /
      c.timing.effectiveCIAFactor <
      c.timing.c64ClockBase + c.changes
  mono : ∀ op, op ≠ .reset → c.timing.c64Now ≤ (c.timing.step op).c64Now

/-- The timer underflows for the first time as `due` comes: until then its time has not
come, and it has when the timer underflows, but for what the changes took of it. The
underflow is latched. -/
structure FiresAt (x : CIATimer) (due : ℚ) (c : Clocked) : Prop where
  waits : c.underflows = 0 → c.time ≤ due
  fires : ∀ op, c.underflows = 0 → c.timing.Underflows x op →
    (c.step x op).time ≤ due + c.timing.spent op / c.timing.effectiveCIAFactor ∧
      due ≤ (c.step x op).time + c.changes ∧
      (c.changes ≠ 0 → due < (c.step x op).time + c.changes) ∧
      (c.step x op).timing.cia2ICRPending &&& x.bit = x.bit

/-- The timer is left alone in continuous mode with one latch, and the rate stays. -/
def Repeats (x : CIATimer) (latch : BitVec 16) (c : Clocked) (op : TimingOp) : Prop :=
  c.timing.Undisturbed x op ∧ c.timing.latch x = latch ∧ c.timing.control x &&& 0x08#8 = 0 ∧
    (c.timing.step op).effectiveCIAFactor = c.timing.effectiveCIAFactor

instance (x : CIATimer) (latch : BitVec 16) (c : Clocked) (op : TimingOp) :
    Decidable (Repeats x latch c op) :=
  inferInstanceAs (Decidable (_ ∧ _ ∧ _ ∧ _))

/-! ### The count of C64 cycles -/

/-- What was banked follows the exact time. -/
structure Tracks (c : Clocked) : Prop where
  coherent : c.timing.Coherent
  banked : Banked c.timing.c64ClockBase c.timing.emuAtRateChange c.timing.emuCycles
    c.timing.effectiveCIAFactor c.time c.changes

theorem tracks_step (h : c.Tracks) (hop : op ≠ .reset) : (c.step x op).Tracks := by
  obtain ⟨hemu, hsame, hchanged⟩ := Timing.clockStep_step h.coherent hop
  have hadvanced := h.banked.advance (c.timing.spent op)
  rw [← hemu] at hadvanced
  refine ⟨Timing.coherent_step h.coherent op, ?_⟩
  by_cases hrate : (c.timing.step op).effectiveCIAFactor = c.timing.effectiveCIAFactor
  · obtain ⟨hbase, hmark⟩ := hsame hrate
    have hchanges : (c.step x op).changes = c.changes := if_neg (not_not.mpr hrate)
    show Banked (c.timing.step op).c64ClockBase (c.timing.step op).emuAtRateChange _
      (c.timing.step op).effectiveCIAFactor _ _
    rw [hbase, hmark, hrate, hchanges]
    exact hadvanced
  · obtain ⟨hbase, hmark⟩ := hchanged hrate
    have hchanges : (c.step x op).changes = c.changes + 1 := if_pos hrate
    show Banked (c.timing.step op).c64ClockBase (c.timing.step op).emuAtRateChange
      (c.timing.step op).emuCycles _ _ _
    rw [hbase, hmark, hchanges]
    exact hadvanced.bank (c.timing.step op).effectiveCIAFactor_pos

/-- The count of C64 cycles never goes back. -/
theorem c64Now_le_step (h : c.timing.Coherent) (hop : op ≠ .reset) :
    c.timing.c64Now ≤ (c.timing.step op).c64Now := by
  obtain ⟨hemu, hsame, hchanged⟩ := Timing.clockStep_step h hop
  have h' := Timing.coherent_step h op
  have hmono : wholeCycles c.timing.c64ClockBase c.timing.emuAtRateChange c.timing.emuCycles
        c.timing.effectiveCIAFactor ≤
      wholeCycles c.timing.c64ClockBase c.timing.emuAtRateChange
        (c.timing.emuCycles + c.timing.spent op) c.timing.effectiveCIAFactor := wholeCycles_mono
  rw [← hemu, ← Timing.c64Now_eq h.toInScale] at hmono
  refine hmono.trans ?_
  rw [Timing.c64Now_eq h'.toInScale]
  by_cases hrate : (c.timing.step op).effectiveCIAFactor = c.timing.effectiveCIAFactor
  · obtain ⟨hbase, hmark⟩ := hsame hrate
    rw [hbase, hmark, hrate]
  · obtain ⟨hbase, hmark⟩ := hchanged hrate
    rw [hbase, hmark, wholeCycles, wholeCycles]
    exact Nat.le_add_right _ _

theorem Tracks.keepsC64Time (h : c.Tracks) : c.KeepsC64Time := by
  obtain ⟨hle, hlt⟩ := h.banked.bounds
  rw [← Timing.c64Now_eq h.coherent.toInScale] at hle hlt
  exact ⟨hle, hlt, h.banked.lt_base, fun op => c64Now_le_step h.coherent⟩

/-- Nothing that happens leaves the last change of the rate ahead of the clock. -/
theorem mark_le_step {t : Timing} (h : t.Coherent) (hmark : t.emuAtRateChange ≤ t.emuCycles)
    (op : TimingOp) : (t.step op).emuAtRateChange ≤ (t.step op).emuCycles := by
  by_cases hreset : op = .reset
  · rw [hreset]
    exact le_rfl
  · obtain ⟨hemu, hsame, hchanged⟩ := Timing.clockStep_step h hreset
    by_cases hrate : (t.step op).effectiveCIAFactor = t.effectiveCIAFactor
    · rw [(hsame hrate).2, hemu]
      exact hmark.trans (Nat.le_add_right _ _)
    · exact (hchanged hrate).2.le

theorem tracks_start (hook : Bool) (before : List TimingOp) :
    (start (run Timing.step { Timing.construct with timingHook := hook } before)).Tracks := by
  have hreached := run_invariant Timing.step
    (P := fun t => t.Coherent ∧ t.emuAtRateChange ≤ t.emuCycles)
    (fun t op h => ⟨Timing.coherent_step h.1 op, mark_le_step h.1 h.2 op⟩)
    { Timing.construct with timingHook := hook } before ⟨Timing.coherent_construct hook, le_rfl⟩
  obtain ⟨hcoherent, hmark⟩ := hreached
  refine ⟨hcoherent, Timing.effectiveCIAFactor_pos _, hmark, ?_, ?_, fun h => absurd rfl h⟩
  · exact (add_sub_cancel_right _ _).ge
  · rw [start, add_sub_cancel_right, Nat.cast_zero, add_zero]

/-! ### The deadline of a timer -/

def countdown (x : CIATimer) (c : Clocked) : Countdown where
  now := c.timing.emuCycles
  factor := c.timing.effectiveCIAFactor
  time := c.time
  deadline := c.timing.deadline x
  sinceChange := c.sinceChange
  changes := c.changes

/-- The deadline lies ahead and stands for the time `due`. -/
structure Awaits (x : CIATimer) (due : ℚ) (c : Clocked) : Prop where
  ahead : c.timing.emuCycles < c.timing.deadline x
  accurate : (c.countdown x).Accurate due

/-- A change that neither touches the timer nor reaches its deadline. -/
theorem awaits_step {due : ℚ} (hsettled : c.timing.Settled x) (h : c.Awaits x due)
    (hop : c.timing.Undisturbed x op) (hlasts : c.SegmentLasts op)
    (hquiet : ¬ c.timing.Underflows x op) : (c.step x op).Awaits x due := by
  obtain ⟨s, hemu, hfactor, hdeadline, -, hrate, -⟩ := Timing.timerStep_step hsettled hop
  rw [if_neg hquiet] at hdeadline
  have hne : c.timing.deadline x ≠ 0 := (Nat.zero_le _ |>.trans_lt h.ahead).ne'
  have hahead : c.timing.emuCycles + c.timing.spent op < c.timing.deadline x := by
    by_contra hreached
    rw [not_lt] at hreached
    cases op with
    | tick n => exact hquiet ⟨hne, hreached⟩
    | _ => exact h.ahead.not_ge hreached
  have hadvanced := h.accurate.advance hahead
  by_cases hsame : (c.timing.step op).effectiveCIAFactor = s.effectiveCIAFactor
  · obtain ⟨-, -, hdeadline'⟩ := hrate.same hsame
    have hstays := hsame.trans hfactor
    have hview : (c.step x op).countdown x = (c.countdown x).advance (c.timing.spent op) := by
      simp only [countdown, Countdown.advance, step, hrate.emuCycles, hemu, hdeadline', hdeadline,
        hstays, ne_eq, not_true_eq_false, if_false]
    refine ⟨?_, hview ▸ hadvanced⟩
    show (c.timing.step op).emuCycles < (c.timing.step op).deadline x
    rw [hrate.emuCycles, hemu, hdeadline', hdeadline]
    exact hahead
  · obtain ⟨-, -, hscaled, -⟩ := hrate.changed hsame
    have hchanges : (c.timing.step op).effectiveCIAFactor ≠ c.timing.effectiveCIAFactor :=
      fun heq => hsame (heq.trans hfactor.symm)
    have hdeadline' := hscaled (hdeadline.trans_ne hne)
    have hview : (c.step x op).countdown x =
        ((c.countdown x).advance (c.timing.spent op)).change
          (c.timing.step op).effectiveCIAFactor := by
      simp only [countdown, Countdown.advance, Countdown.change, step, hrate.emuCycles, hemu,
        hdeadline', hdeadline, hfactor, hchanges, ne_eq, not_false_eq_true, if_true]
    refine ⟨?_, ?_⟩
    · show (c.timing.step op).emuCycles < (c.timing.step op).deadline x
      rw [hrate.emuCycles, hdeadline']
      exact lt_redenominate _ _ _ _
    · rw [hview]
      exact hadvanced.change hahead (c.timing.step op).effectiveCIAFactor_pos (hlasts hchanges)

theorem Awaits.firesAt {due : ℚ} (hsettled : c.timing.Settled x)
    (h : c.underflows = 0 → c.Awaits x due) : c.FiresAt x due := by
  refine ⟨fun hnone => (h hnone).accurate.time_le, fun op hnone hunderflows => ?_⟩
  have hreached : c.timing.Undisturbed x op ∧
      c.timing.deadline x ≤ c.timing.emuCycles + c.timing.spent op := by
    cases op with
    | tick n => exact ⟨trivial, hunderflows.2⟩
    | checkDeadline => exact ⟨trivial, hunderflows.2⟩
    | _ => exact absurd hunderflows id
  obtain ⟨hop, hreached⟩ := hreached
  obtain ⟨s, -, -, -, hlatched, -, -⟩ := Timing.timerStep_step hsettled hop
  obtain ⟨hearly, hearly', hlate⟩ := (h hnone).accurate.reach hreached
  exact ⟨hlate, hearly, hearly', hlatched hunderflows⟩

theorem awaits_of_span {span : ℕ} (hspan : 0 < span) (hchanges : c.changes = 0)
    (hdeadline : c.timing.deadline x =
      c.timing.emuCycles + span * c.timing.effectiveCIAFactor) : c.Awaits x (c.time + span) := by
  have hfactor := c.timing.effectiveCIAFactor_pos
  refine ⟨?_, Countdown.accurate_of_span hfactor hdeadline hchanges⟩
  rw [hdeadline]
  exact Nat.lt_add_of_pos_right (Nat.mul_pos hspan hfactor)

theorem armed_spec {t : Timing} (h : t.Coherent) (hon : t.nmiRetimeEnable = true)
    (hwaits : t.cia2ArmPending &&& x.bit ≠ 0) (n : ℕ) :
    (armed x t n).timing.Settled x ∧
      (armed x t n).timing.deadline x = (armed x t n).timing.emuCycles +
        ((t.latch x).toNat + 1) * (armed x t n).timing.effectiveCIAFactor := by
  have htiming : (armed x t n).timing = t.tickFast n := rfl
  rw [htiming]
  exact Timing.armed_tick h hon hwaits n

/-- After the tick that arms it, a timer that is left alone underflows when its time comes. -/
theorem firesAt_run {due : ℚ} (ops : List TimingOp) (hsettled : c.timing.Settled x)
    (h : c.Awaits x due)
    (hops : AllSteps (step x) (fun c op => c.timing.Undisturbed x op ∧ c.SegmentLasts op) c ops) :
    (run (step x) c ops).FiresAt x due := by
  have hrun := run_invariant_of_allSteps (step x)
    (P := fun c => c.timing.Settled x ∧ (c.underflows = 0 → c.Awaits x due)) ?_ c ops
    ⟨hsettled, fun _ => h⟩ hops
  · exact Awaits.firesAt hrun.1 hrun.2
  · rintro c op ⟨hsettled, hawaits⟩ ⟨hop, hlasts⟩
    obtain ⟨s, hs⟩ := Timing.timerStep_step hsettled hop
    refine ⟨hs.settled, fun hnone => ?_⟩
    by_cases hquiet : c.timing.Underflows x op
    · have hcounted : (c.step x op).underflows = c.underflows + 1 := if_pos hquiet
      rw [hcounted] at hnone
      exact absurd hnone (Nat.succ_ne_zero _)
    · have hcounted : (c.step x op).underflows = c.underflows := if_neg hquiet
      exact awaits_step hsettled (hawaits (hcounted.symm.trans hnone)) hop hlasts hquiet

/-- While the rate stays, each underflow moves the deadline by a period. -/
theorem deadline_step {latch : BitVec 16} (hsettled : c.timing.Settled x)
    (hop : c.Repeats x latch op) :
    (c.step x op).timing.Settled x ∧
      (c.step x op).timing.effectiveCIAFactor = c.timing.effectiveCIAFactor ∧
      (c.step x op).timing.deadline x + c.underflows *
          ((latch.toNat + 1) * c.timing.effectiveCIAFactor) =
        c.timing.deadline x + (c.step x op).underflows *
          ((latch.toNat + 1) * c.timing.effectiveCIAFactor) := by
  obtain ⟨hspares, hlatch, hmode, hsame⟩ := hop
  obtain ⟨s, -, hfactor, hdeadline, -, hrate, hsettled'⟩ := Timing.timerStep_step hsettled hspares
  obtain ⟨-, -, hdeadline'⟩ := hrate.same (hsame.trans hfactor.symm)
  have hnext : c.timing.nextDeadline x =
      c.timing.deadline x + (latch.toNat + 1) * c.timing.effectiveCIAFactor := by
    rw [Timing.nextDeadline, if_neg (not_not.mpr hmode), hlatch, Timing.ciaSpan,
      hsettled.toCoherent.timers]
  refine ⟨hsettled', hsame, ?_⟩
  show (c.timing.step op).deadline x + _ = _
  rw [hdeadline', hdeadline]
  by_cases hunderflows : c.timing.Underflows x op
  · have hcounted : (c.step x op).underflows = c.underflows + 1 := if_pos hunderflows
    rw [if_pos hunderflows, hnext, hcounted]
    ring
  · have hcounted : (c.step x op).underflows = c.underflows := if_neg hunderflows
    rw [if_neg hunderflows, hcounted]

theorem deadline_run {latch : BitVec 16} (ops : List TimingOp) (hsettled : c.timing.Settled x)
    (hnone : c.underflows = 0) (hops : AllSteps (step x) (Repeats x latch) c ops) :
    (run (step x) c ops).timing.deadline x = c.timing.deadline x +
      (run (step x) c ops).underflows * ((latch.toNat + 1) * c.timing.effectiveCIAFactor) := by
  have hrun := run_invariant_of_allSteps (step x)
    (P := fun c' => c'.timing.Settled x ∧
      c'.timing.effectiveCIAFactor = c.timing.effectiveCIAFactor ∧
      c'.timing.deadline x = c.timing.deadline x +
        c'.underflows * ((latch.toNat + 1) * c.timing.effectiveCIAFactor)) ?_ c ops
    ⟨hsettled, rfl, by rw [hnone, Nat.zero_mul, Nat.add_zero]⟩ hops
  · exact hrun.2.2
  · rintro c' op ⟨hsettled', hfactor, hdeadline⟩ hop
    obtain ⟨hnext, hsame, hmoved⟩ := deadline_step hsettled' hop
    refine ⟨hnext, hsame.trans hfactor, ?_⟩
    rw [hfactor, hdeadline, Nat.add_right_comm] at hmoved
    exact Nat.add_right_cancel hmoved

end Clocked

/-- From every state that elementary changes of a fresh memory lead to: as long as no reset
comes, the count of C64 cycles keeps the exact time; and a timer that a tick arms, if it is
left alone while each rate lasts for a cycle, underflows with the same accuracy, and while
the rate stays exactly once a period. -/
theorem timers_accurate (x : CIATimer) (hook : Bool) (before : List TimingOp) :
    let t := run Timing.step { Timing.construct with timingHook := hook } before
    (∀ ops, AllSteps (Clocked.step x) (fun _ op => op ≠ .reset) (Clocked.start t) ops →
      (run (Clocked.step x) (Clocked.start t) ops).KeepsC64Time) ∧
    ∀ n, t.cia2ArmPending &&& x.bit ≠ 0 → t.nmiRetimeEnable = true →
      let armed := Clocked.armed x t n
      let latch := t.latch x
      (∀ ops, AllSteps (Clocked.step x)
          (fun c op => c.timing.Undisturbed x op ∧ c.SegmentLasts op) armed ops →
        (run (Clocked.step x) armed ops).FiresAt x (armed.time + latch.toNat + 1)) ∧
      ∀ ops, AllSteps (Clocked.step x) (Clocked.Repeats x latch) armed ops →
        (run (Clocked.step x) armed ops).timing.deadline x = armed.timing.emuCycles +
          ((run (Clocked.step x) armed ops).underflows + 1) *
            ((latch.toNat + 1) * armed.timing.effectiveCIAFactor) := by
  intro t
  have htracks : (Clocked.start t).Tracks := Clocked.tracks_start hook before
  refine ⟨fun ops hops => ?_, fun n hwaits hon => ?_⟩
  · refine (run_invariant_of_allSteps (Clocked.step x) ?_ _ ops htracks hops).keepsC64Time
    intro c op h hop
    exact Clocked.tracks_step h hop
  · intro armed latch
    have hcoherent : t.Coherent := htracks.coherent
    obtain ⟨hsettled, hdeadline⟩ := Clocked.armed_spec hcoherent hon hwaits n
    refine ⟨fun ops hops => ?_, fun ops hops => ?_⟩
    · have hawaits := Clocked.awaits_of_span (Nat.succ_pos latch.toNat) rfl hdeadline
      rw [Nat.cast_succ, ← add_assoc] at hawaits
      exact Clocked.firesAt_run ops hsettled hawaits hops
    · have hrun := Clocked.deadline_run ops hsettled rfl hops
      have hperiods (now count period : ℕ) :
          now + period + count * period = now + (count + 1) * period := by ring
      rw [hdeadline] at hrun
      exact hrun.trans (hperiods _ _ _)

/-- Timer A is armed at 1 MHz with latch $0010, the rate goes to 20 MHz and back, and after
the time of its deadline it has underflowed; left at 1 MHz, it underflows twice in 34 cycles. -/
theorem timers_accurate_two_changes :
    let before : List TimingOp :=
      [.cia2TimerWrite 0xDD04 0x10, .cia2TimerWrite 0xDD05 0x00, .cia2TimerWrite 0xDD0E 0x01]
    let t := run Timing.step { Timing.construct with timingHook := true } before
    let armed := Clocked.armed .a t 4
    let fast : List TimingOp := [.tick 5, .selectSpeed 20000000, .tick 100, .selectSpeed 1000000]
    let slow : List TimingOp := [.tick 20, .tick 14]
    (run (Clocked.step .a) (Clocked.start t) (.tick 4 :: fast)).KeepsC64Time ∧
      (run (Clocked.step .a) armed fast).FiresAt .a (armed.time + 16 + 1) ∧
      (run (Clocked.step .a) armed slow).timing.deadline .a = 4 + 3 * 17 := by
  intro before t armed fast slow
  obtain ⟨hclock, htimer⟩ := timers_accurate .a true before
  obtain ⟨hfires, hrepeats⟩ := htimer 4 (by decide +kernel) (by decide +kernel)
  refine ⟨hclock _ ⟨nofun, nofun, nofun, nofun, nofun, trivial⟩,
    hfires fast (by decide +kernel), ?_⟩
  refine (hrepeats slow (by decide +kernel)).trans ?_
  decide +kernel

end ScpuEmu
