import ScpuEmu.C64.TimeScale

/-!
# Stopped timers

A timer of CIA 2 that counts the C64's clock has a deadline, and only such a timer should
have one. A START is anchored by the tick after the write. The write that stops the timer,
or puts it on external pulses, clears the deadline but leaves the pending START, so the
tick arms a timer that is not running. Apart from that, no operation arms one.
-/

namespace ScpuEmu

open Library

inductive CIATimer
  | a
  | b
  deriving DecidableEq, Repr

namespace CIATimer

/-- The bit of the timer in `m_CIA2ArmPending`. -/
def bit : CIATimer → Byte
  | a => 0x01
  | b => 0x02

/-- The bits of the control register that select what the timer counts. -/
def inputMode : CIATimer → Byte
  | a => 0x20
  | b => 0x60

/-- The control register has START set and selects phi2. -/
def Runs (x : CIATimer) (control : Byte) : Prop :=
  control &&& 0x01#8 ≠ 0 ∧ control &&& x.inputMode = 0

end CIATimer

namespace Timing

variable {t t' : Timing} {x : CIATimer}

def deadline (t : Timing) : CIATimer → ℕ
  | .a => t.cia2TADeadline
  | .b => t.cia2TBDeadline

/-- The control register as last written. -/
def written (t : Timing) : CIATimer → Byte
  | .a => t.cia2TAWritten
  | .b => t.cia2TBWritten

/-- Only a running timer has a deadline. -/
def StoppedSilent (t : Timing) : Prop := ∀ x : CIATimer, t.deadline x ≠ 0 → x.Runs (t.written x)

/-- Only a running timer waits to be armed. -/
def ArmsRunning (t : Timing) : Prop :=
  ∀ x : CIATimer, t.cia2ArmPending &&& x.bit ≠ 0 → x.Runs (t.written x)

/-- No deadline appears and no control register changes. -/
structure Fades (t t' : Timing) : Prop where
  written : ∀ x, t'.written x = t.written x
  deadline : ∀ x, t'.deadline x ≠ 0 → t.deadline x ≠ 0

theorem Fades.refl (t : Timing) : Fades t t := ⟨fun _ => rfl, fun _ h => h⟩

theorem Fades.trans {t'' : Timing} (h : Fades t t') (h' : Fades t' t'') : Fades t t'' :=
  ⟨fun x => (h'.written x).trans (h.written x), fun x hx => h.deadline x (h'.deadline x hx)⟩

theorem StoppedSilent.fades (hsilent : t.StoppedSilent) (h : Fades t t') : t'.StoppedSilent := by
  intro x hx
  rw [h.written]
  exact hsilent x (h.deadline x hx)

/-- The deadline lies ahead. -/
def Ahead (t : Timing) (x : CIATimer) : Prop := t.emuCycles < t.deadline x

theorem Ahead.ne_zero (h : t.Ahead x) : t.deadline x ≠ 0 := Nat.ne_of_gt (Nat.zero_lt_of_lt h)

/-- All that this file looks at, apart from the pending arms. -/
def timerView (t : Timing) : ℕ × (ℕ × ℕ) × Byte × Byte :=
  (t.emuCycles, (t.cia2TADeadline, t.cia2TBDeadline), t.cia2TAWritten, t.cia2TBWritten)

theorem deadline_of_view (h : t'.timerView = t.timerView) : t'.deadline x = t.deadline x := by
  simp only [timerView, Prod.mk.injEq] at h
  cases x with
  | a => exact h.2.1.1
  | b => exact h.2.1.2

theorem written_of_view (h : t'.timerView = t.timerView) : t'.written x = t.written x := by
  simp only [timerView, Prod.mk.injEq] at h
  cases x with
  | a => exact h.2.2.1
  | b => exact h.2.2.2

theorem fades_of_view (h : t'.timerView = t.timerView) : Fades t t' :=
  ⟨fun _ => written_of_view h, fun _ hx => deadline_of_view h ▸ hx⟩

theorem Ahead.of_view (hx : t.Ahead x) (h : t'.timerView = t.timerView) : t'.Ahead x := by
  have hemu : t'.emuCycles = t.emuCycles := congrArg Prod.fst h
  rw [Ahead, hemu, deadline_of_view h]
  exact hx

/-! ### Rates -/

theorem lt_rescaled (t : Timing) (f d : ℕ) : t.emuCycles < t.rescaled f d := by
  unfold rescaled
  dsimp only
  split
  · exact Nat.lt_succ_self _
  · rename_i hne
    exact lt_of_le_of_ne (Nat.le_add_right _ _) (Ne.symm hne)

theorem timerView_bankSegment (t : Timing) : t.bankSegment.timerView = t.timerView := by
  unfold bankSegment
  split <;> rfl

theorem onRateChange_spec (t : Timing) :
    Fades t t.cia2OnRateChange ∧ ∀ x, t.Ahead x → t.cia2OnRateChange.Ahead x := by
  have hview := timerView_bankSegment t
  unfold cia2OnRateChange
  dsimp only
  generalize t.bankSegment = s at hview ⊢
  split
  · exact ⟨fades_of_view hview, fun _ hx => hx.of_view hview⟩
  · refine ⟨(fades_of_view hview).trans ⟨fun x => by cases x <;> rfl, ?_⟩, ?_⟩
    · rintro (_ | _) hx hzero
      · exact hx (if_neg (not_not.mpr hzero))
      · exact hx (if_neg (not_not.mpr hzero))
    · intro x hx
      have hne := (hx.of_view hview).ne_zero
      cases x with
      | a =>
          change s.cia2TADeadline ≠ 0 at hne
          show s.emuCycles < if s.cia2TADeadline ≠ 0 then _ else _
          rw [if_pos hne]
          exact lt_rescaled s _ _
      | b =>
          change s.cia2TBDeadline ≠ 0 at hne
          show s.emuCycles < if s.cia2TBDeadline ≠ 0 then _ else _
          rw [if_pos hne]
          exact lt_rescaled s _ _

theorem fades_onRateChange (t : Timing) : Fades t t.cia2OnRateChange := (onRateChange_spec t).1

/-- A change of the rate that the hook hears of. -/
theorem rateTransition_spec (hview : t'.timerView = t.timerView) :
    Fades t t'.cia2OnRateChange.callTimingHook ∧
      ∀ x, t.Ahead x → t'.cia2OnRateChange.callTimingHook.Ahead x := by
  obtain ⟨hfades, hahead⟩ := onRateChange_spec t'
  have hhook : t'.cia2OnRateChange.callTimingHook.timerView = t'.cia2OnRateChange.timerView := rfl
  exact ⟨((fades_of_view hview).trans hfades).trans (fades_of_view hhook),
    fun x hx => (hahead x (hx.of_view hview)).of_view hhook⟩

theorem fades_rateTransition (hview : t'.timerView = t.timerView) :
    Fades t t'.cia2OnRateChange.callTimingHook := (rateTransition_spec hview).1

theorem fades_notePollHold (t : Timing) : Fades t t.notePollHold := by
  unfold notePollHold
  dsimp only
  split
  · exact Fades.refl t
  split
  · split
    · exact fades_rateTransition rfl
    · exact fades_of_view rfl
  · exact Fades.refl t

theorem fades_noteIECActivity (t : Timing) : Fades t t.noteIECActivity := by
  obtain ⟨s, hs⟩ : ∃ s, s = if decide (t.iecActivityCycles = 0) = true then
      callTimingHook { t with iecActivityCycles := 2000 }
    else { t with iecActivityCycles := 2000 } := ⟨_, rfl⟩
  have hview : s.timerView = t.timerView := by rw [hs]; split <;> rfl
  unfold noteIECActivity
  dsimp only
  rw [← hs]
  split
  · split
    · exact fades_rateTransition hview
    · exact fades_of_view hview
  · exact fades_of_view hview

theorem fades_endPollHold (t : Timing) : Fades t t.endPollHold := by
  unfold endPollHold
  split
  · exact fades_rateTransition rfl
  · exact Fades.refl t

theorem fades_selectSpeed (t : Timing) (hz : ℕ) : Fades t (t.selectSpeed hz) := by
  refine (fades_of_view ?_).trans (fades_onRateChange _)
  split <;> rfl

theorem decayPollHold_spec (t : Timing) (n : ℕ) :
    Fades t (t.decayPollHold n) ∧ ∀ x, t.Ahead x → (t.decayPollHold n).Ahead x := by
  unfold decayPollHold
  dsimp only
  split
  · split
    · exact rateTransition_spec rfl
    · exact ⟨fades_of_view rfl, fun _ hx => hx.of_view rfl⟩
  · exact ⟨Fades.refl t, fun _ hx => hx⟩

theorem decayHold_spec (t : Timing) (n : ℕ) :
    Fades t (t.decayHold n) ∧ ∀ x, t.Ahead x → (t.decayHold n).Ahead x := by
  unfold decayHold
  dsimp only
  split
  · split
    · exact rateTransition_spec rfl
    · exact ⟨fades_of_view rfl, fun _ hx => hx.of_view rfl⟩
  · exact ⟨Fades.refl t, fun _ hx => hx⟩

/-! ### Underflows -/

@[simp] theorem timerView_maybeDeliver (t : Timing) :
    t.cia2MaybeDeliverSynthNMI.timerView = t.timerView := by
  unfold cia2MaybeDeliverSynthNMI
  split <;> rfl

theorem timerADue_spec (t : Timing) :
    Fades t t.timerADue ∧ ∀ x, t.Ahead x → t.timerADue.Ahead x := by
  unfold timerADue
  dsimp only
  split
  · rename_i hdue
    have hahead (x : CIATimer) (t'' : Timing) (hemu : t''.emuCycles = t.emuCycles)
        (hB : t''.cia2TBDeadline = t.cia2TBDeadline) (hx : t.Ahead x) : t''.Ahead x := by
      cases x with
      | a => exact absurd hx (Nat.not_lt.mpr hdue.2)
      | b =>
          show t''.emuCycles < t''.cia2TBDeadline
          rw [hemu, hB]
          exact hx
    split
    · refine ⟨⟨fun x => by cases x <;> rfl, ?_⟩, fun x hx => hahead x _ rfl rfl hx⟩
      rintro (_ | _) hx
      · exact absurd rfl hx
      · exact hx
    · refine ⟨⟨fun x => by cases x <;> rfl, ?_⟩, fun x hx => hahead x _ rfl rfl hx⟩
      rintro (_ | _) hx
      · exact hdue.1
      · exact hx
  · exact ⟨Fades.refl t, fun _ hx => hx⟩

theorem timerBDue_spec (t : Timing) :
    Fades t t.timerBDue ∧ ∀ x, t.Ahead x → t.timerBDue.Ahead x := by
  unfold timerBDue
  dsimp only
  split
  · rename_i hdue
    have hahead (x : CIATimer) (t'' : Timing) (hemu : t''.emuCycles = t.emuCycles)
        (hA : t''.cia2TADeadline = t.cia2TADeadline) (hx : t.Ahead x) : t''.Ahead x := by
      cases x with
      | a =>
          show t''.emuCycles < t''.cia2TADeadline
          rw [hemu, hA]
          exact hx
      | b => exact absurd hx (Nat.not_lt.mpr hdue.2)
    split
    · refine ⟨⟨fun x => by cases x <;> rfl, ?_⟩, fun x hx => hahead x _ rfl rfl hx⟩
      rintro (_ | _) hx
      · exact hx
      · exact absurd rfl hx
    · refine ⟨⟨fun x => by cases x <;> rfl, ?_⟩, fun x hx => hahead x _ rfl rfl hx⟩
      rintro (_ | _) hx
      · exact hx
      · exact hdue.1
  · exact ⟨Fades.refl t, fun _ hx => hx⟩

theorem checkDeadline_spec (t : Timing) :
    Fades t t.checkDeadline ∧ ∀ x, t.Ahead x → t.checkDeadline.Ahead x := by
  unfold checkDeadline
  split
  · obtain ⟨hrate, hrate'⟩ := onRateChange_spec t
    obtain ⟨hA, hA'⟩ := timerADue_spec t.cia2OnRateChange
    obtain ⟨hB, hB'⟩ := timerBDue_spec t.cia2OnRateChange.timerADue
    have hview : t.ciaTimerNMIDue.timerView = t.cia2OnRateChange.timerADue.timerBDue.timerView :=
      timerView_maybeDeliver _
    exact ⟨((hrate.trans hA).trans hB).trans (fades_of_view hview),
      fun x hx => (hB' x (hA' x (hrate' x hx))).of_view hview⟩
  · exact ⟨Fades.refl t, fun _ hx => hx⟩

/-! ### Control registers -/

/-- A write of a control register: the deadline stays only with a timer that runs. -/
theorem silent_timerWrite (h : t.StoppedSilent) (a : Addr) (v : Byte) :
    (t.cia2TimerWrite a v).StoppedSilent := by
  have hrate := h.fades (fades_onRateChange t)
  obtain ⟨s, hs⟩ : ∃ s, s = t.cia2OnRateChange := ⟨_, rfl⟩
  rw [← hs] at hrate
  have hICR : (s.cia2ICRWrite v).StoppedSilent := by
    unfold cia2ICRWrite
    dsimp only
    generalize (if v &&& 0x80#8 ≠ 0 then s.cia2ICRMask ||| (v &&& 0x1F#8)
      else s.cia2ICRMask &&& ~~~(v &&& 0x1F#8)) = mask
    split
    · exact hrate.fades (fades_of_view rfl)
    · exact hrate.fades (fades_of_view ((timerView_maybeDeliver _).trans rfl))
  have hTA : (s.cia2TAControlWrite v).StoppedSilent := by
    rintro (_ | _) hx
    · show v &&& 0x01#8 ≠ 0 ∧ v &&& 0x20#8 = 0
      have hmode : v &&& 0x20#8 = 0 := by
        by_contra hmode
        refine hx ?_
        show Timing.cia2TADeadline (if v &&& 0x20#8 ≠ 0 then _ else _) = 0
        rw [if_pos hmode]
      refine ⟨fun hstart => hx ?_, hmode⟩
      show Timing.cia2TADeadline (if v &&& 0x20#8 ≠ 0 then _ else _) = 0
      rw [if_neg (not_not.mpr hmode), if_neg (fun hgo => hgo.1 hstart), if_pos hstart]
    · have hother : (s.cia2TAControlWrite v).written .b = s.written .b := by
        show Timing.cia2TBWritten (ite _ _ _) = s.cia2TBWritten
        split_ifs <;> rfl
      rw [hother]
      refine hrate .b fun hzero => hx ?_
      show Timing.cia2TBDeadline (ite _ _ _) = 0
      split_ifs <;> exact hzero
  have hTB : (s.cia2TBControlWrite v).StoppedSilent := by
    rintro (_ | _) hx
    · have hother : (s.cia2TBControlWrite v).written .a = s.written .a := by
        show Timing.cia2TAWritten (ite _ _ _) = s.cia2TAWritten
        split_ifs <;> rfl
      rw [hother]
      refine hrate .a fun hzero => hx ?_
      show Timing.cia2TADeadline (ite _ _ _) = 0
      split_ifs <;> exact hzero
    · show v &&& 0x01#8 ≠ 0 ∧ v &&& 0x60#8 = 0
      have hmode : v &&& 0x60#8 = 0 := by
        by_contra hmode
        refine hx ?_
        show Timing.cia2TBDeadline (if v &&& 0x60#8 ≠ 0 then _ else _) = 0
        rw [if_pos hmode]
      refine ⟨fun hstart => hx ?_, hmode⟩
      show Timing.cia2TBDeadline (if v &&& 0x60#8 ≠ 0 then _ else _) = 0
      rw [if_neg (not_not.mpr hmode), if_neg (fun hgo => hgo.1 hstart), if_pos hstart]
  have hregister : (s.cia2TimerRegister a v).StoppedSilent := by
    unfold cia2TimerRegister
    split_ifs
    · exact hrate.fades (fades_of_view rfl)
    · exact hrate.fades (fades_of_view rfl)
    · exact hrate.fades (fades_of_view rfl)
    · exact hrate.fades (fades_of_view rfl)
    · exact hICR
    · exact hTA
    · exact hTB
  unfold cia2TimerWrite
  dsimp only
  rw [← hs]
  split
  · exact hrate
  · split
    · exact hregister.fades (fades_of_view rfl)
    · exact hregister.fades (fades_of_view rfl)

/-! ### Ticks -/

theorem effectiveCIAFactor_pos (t : Timing) : 0 < t.effectiveCIAFactor := by
  unfold effectiveCIAFactor
  split
  · exact Nat.one_pos
  · split
    · rename_i h
      exact Nat.pos_of_ne_zero h
    · exact Nat.one_pos

theorem factor_onRateChange (t : Timing) :
    t.cia2OnRateChange.cia2FactorInUse = t.effectiveCIAFactor := by
  unfold cia2OnRateChange
  dsimp only
  split
  · rename_i hfactor
    exact hfactor.symm
  · rfl

theorem cia2ArmPending_onRateChange (t : Timing) :
    t.cia2OnRateChange.cia2ArmPending = t.cia2ArmPending := by
  have hbank : t.bankSegment.cia2ArmPending = t.cia2ArmPending := by
    unfold bankSegment
    split <;> rfl
  unfold cia2OnRateChange
  dsimp only
  split
  · exact hbank
  · exact hbank

theorem armTimerA_cases (t : Timing) (hfactor : 0 < t.cia2FactorInUse) :
    t.cia2ArmPending &&& 0x01#8 ≠ 0 ∧
        (∃ d, t.emuCycles < d ∧ t.armTimerA = { t with cia2TADeadline := d }) ∨
      t.cia2ArmPending &&& 0x01#8 = 0 ∧ t.armTimerA = t := by
  unfold armTimerA
  split
  · rename_i hpending
    refine Or.inl ⟨hpending, _, Nat.lt_add_of_pos_right ?_, rfl⟩
    exact Nat.mul_pos (Nat.succ_pos _) hfactor
  · rename_i hpending
    exact Or.inr ⟨not_not.mp hpending, rfl⟩

theorem armTimerB_cases (t : Timing) (hfactor : 0 < t.cia2FactorInUse) :
    t.cia2ArmPending &&& 0x02#8 ≠ 0 ∧
        (∃ d, t.emuCycles < d ∧ t.armTimerB = { t with cia2TBDeadline := d }) ∨
      t.cia2ArmPending &&& 0x02#8 = 0 ∧ t.armTimerB = t := by
  unfold armTimerB
  split
  · rename_i hpending
    refine Or.inl ⟨hpending, _, Nat.lt_add_of_pos_right ?_, rfl⟩
    exact Nat.mul_pos (Nat.succ_pos _) hfactor
  · rename_i hpending
    exact Or.inr ⟨not_not.mp hpending, rfl⟩

/-- The tick after a START: every pending timer gets a deadline ahead, the others keep theirs. -/
theorem finishArm_spec (t : Timing) (x : CIATimer) :
    t.cia2FinishArm.written x = t.written x ∧
      (t.cia2ArmPending &&& x.bit ≠ 0 → t.cia2FinishArm.Ahead x) ∧
      (t.cia2ArmPending &&& x.bit = 0 → t.cia2FinishArm.deadline x ≠ 0 → t.deadline x ≠ 0) := by
  obtain ⟨s, hs⟩ : ∃ s, s = t.cia2OnRateChange := ⟨_, rfl⟩
  have hfades := fades_onRateChange t
  have hfactor : 0 < t.cia2OnRateChange.cia2FactorInUse := by
    rw [factor_onRateChange]
    exact t.effectiveCIAFactor_pos
  have hpending := cia2ArmPending_onRateChange t
  have hview : t.cia2FinishArm.timerView = s.armTimerA.armTimerB.timerView := by rw [hs]; rfl
  rw [← hs] at hfades hfactor hpending
  rw [written_of_view hview, deadline_of_view hview, ← hfades.written x, ← hpending]
  suffices hsuff : s.armTimerA.armTimerB.written x = s.written x ∧
      (s.cia2ArmPending &&& x.bit ≠ 0 → s.armTimerA.armTimerB.Ahead x) ∧
      (s.cia2ArmPending &&& x.bit = 0 → s.armTimerA.armTimerB.deadline x ≠ 0 →
        s.deadline x ≠ 0) from
    ⟨hsuff.1, fun hp => (hsuff.2.1 hp).of_view hview,
      fun hp hx => hfades.deadline x (hsuff.2.2 hp hx)⟩
  rcases armTimerA_cases s hfactor with ⟨hA, d, hd, heq⟩ | ⟨hA, heq⟩
  · rw [heq]
    rcases armTimerB_cases { s with cia2TADeadline := d } hfactor with
      ⟨hB, e, he, heq'⟩ | ⟨hB, heq'⟩
    · rw [heq']
      cases x with
      | a => exact ⟨rfl, fun _ => hd, fun hp => absurd hp hA⟩
      | b => exact ⟨rfl, fun _ => he, fun hp => absurd hp hB⟩
    · rw [heq']
      cases x with
      | a => exact ⟨rfl, fun _ => hd, fun hp => absurd hp hA⟩
      | b => exact ⟨rfl, fun hp => absurd hB hp, fun _ hx => hx⟩
  · rw [heq]
    rcases armTimerB_cases s hfactor with ⟨hB, e, he, heq'⟩ | ⟨hB, heq'⟩
    · rw [heq']
      cases x with
      | a => exact ⟨rfl, fun hp => absurd hA hp, fun _ hx => hx⟩
      | b => exact ⟨rfl, fun _ => he, fun hp => absurd hp hB⟩
    · rw [heq']
      cases x with
      | a => exact ⟨rfl, fun hp => absurd hA hp, fun _ hx => hx⟩
      | b => exact ⟨rfl, fun hp => absurd hB hp, fun _ hx => hx⟩

theorem foldl_chargeEvent_timers (perC64 : ℕ) (events : List BusTimingEvent) (t : Timing) :
    (∀ x, (events.foldl (chargeEvent perC64) t).deadline x = t.deadline x) ∧
      (∀ x, (events.foldl (chargeEvent perC64) t).written x = t.written x) ∧
      (events.foldl (chargeEvent perC64) t).cia2ArmPending = t.cia2ArmPending := by
  induction events generalizing t with
  | nil => exact ⟨fun _ => rfl, fun _ => rfl, rfl⟩
  | cons event events ih =>
      have hevent : (∀ x, (chargeEvent perC64 t event).deadline x = t.deadline x) ∧
          (∀ x, (chargeEvent perC64 t event).written x = t.written x) ∧
          (chargeEvent perC64 t event).cia2ArmPending = t.cia2ArmPending := by
        cases event <;> simp only [chargeEvent] <;> split <;>
          exact ⟨fun x => by cases x <;> rfl, fun x => by cases x <;> rfl, rfl⟩
      obtain ⟨hd, hw, hp⟩ := ih (chargeEvent perC64 t event)
      exact ⟨fun x => (hd x).trans (hevent.1 x), fun x => (hw x).trans (hevent.2.1 x),
        hp.trans hevent.2.2⟩

/-- What a tick charges does not touch the timers. -/
theorem charge_timers (t : Timing) (n spent : ℕ) :
    (∀ x, ((t.charge n).creditInterrupts spent).deadline x = t.deadline x) ∧
      (∀ x, ((t.charge n).creditInterrupts spent).written x = t.written x) ∧
      ((t.charge n).creditInterrupts spent).cia2ArmPending = t.cia2ArmPending := by
  obtain ⟨s, hs⟩ : ∃ s, s = chargeFastHalves { t with emuCycles := t.emuCycles + n } := ⟨_, rfl⟩
  have hhalves : (∀ x, s.deadline x = t.deadline x) ∧ (∀ x, s.written x = t.written x) ∧
      s.cia2ArmPending = t.cia2ArmPending := by
    rw [hs]
    unfold chargeFastHalves
    dsimp only
    split_ifs <;> exact ⟨fun x => by cases x <;> rfl, fun x => by cases x <;> rfl, rfl⟩
  have hcharge : (∀ x, (t.charge n).deadline x = t.deadline x) ∧
      (∀ x, (t.charge n).written x = t.written x) ∧
      (t.charge n).cia2ArmPending = t.cia2ArmPending := by
    unfold charge chargeBusEvents
    dsimp only
    rw [← hs]
    split
    · exact hhalves
    · split
      · obtain ⟨hd, hw, hp⟩ := foldl_chargeEvent_timers s.effectiveCIAFactor s.busEvents s
        refine ⟨fun x => ?_, fun x => ?_, hp.trans hhalves.2.2⟩
        · refine Eq.trans ?_ ((hd x).trans (hhalves.1 x))
          cases x <;> rfl
        · refine Eq.trans ?_ ((hw x).trans (hhalves.2.1 x))
          cases x <;> rfl
      · refine ⟨fun x => ?_, fun x => ?_, hhalves.2.2⟩
        · refine Eq.trans ?_ (hhalves.1 x)
          cases x <;> rfl
        · refine Eq.trans ?_ (hhalves.2.1 x)
          cases x <;> rfl
  unfold creditInterrupts
  split
  · refine ⟨fun x => ?_, fun x => ?_, hcharge.2.2⟩
    · refine Eq.trans ?_ (hcharge.1 x)
      cases x <;> rfl
    · refine Eq.trans ?_ (hcharge.2.1 x)
      cases x <;> rfl
  · exact hcharge

/-- The part of a tick after the pending arms. -/
theorem tickRest_spec (t : Timing) (spent : ℕ) :
    let done := ((t.checkDeadline.decayActivity spent).decayPollHold spent).decayHold spent
    Fades t done ∧ ∀ x, t.Ahead x → done.Ahead x := by
  intro done
  obtain ⟨hcheck, hcheck'⟩ := checkDeadline_spec t
  have hview : (t.checkDeadline.decayActivity spent).timerView = t.checkDeadline.timerView := rfl
  obtain ⟨hpoll, hpoll'⟩ := decayPollHold_spec (t.checkDeadline.decayActivity spent) spent
  obtain ⟨hhold, hhold'⟩ :=
    decayHold_spec ((t.checkDeadline.decayActivity spent).decayPollHold spent) spent
  exact ⟨((hcheck.trans (fades_of_view hview)).trans hpoll).trans hhold,
    fun x hx => hhold' x (hpoll' x ((hcheck' x hx).of_view hview))⟩

theorem finishPendingArm_spec (t : Timing) (x : CIATimer) :
    t.finishPendingArm.written x = t.written x ∧
      (t.cia2ArmPending &&& x.bit ≠ 0 → t.finishPendingArm.Ahead x) ∧
      (t.cia2ArmPending &&& x.bit = 0 → t.finishPendingArm.deadline x ≠ 0 → t.deadline x ≠ 0) := by
  unfold finishPendingArm
  split
  · exact finishArm_spec t x
  · rename_i hnone
    rw [not_not] at hnone
    refine ⟨rfl, fun hp => absurd ?_ hp, fun _ hx => hx⟩
    rw [hnone]
    exact BitVec.zero_and

/-- A tick leaves deadlines with running timers only, exactly if it arms running timers only. -/
theorem silent_tickFast_iff (h : t.StoppedSilent) (n : ℕ) :
    (t.tickFast n).StoppedSilent ↔ t.ArmsRunning := by
  obtain ⟨s, hs⟩ : ∃ s, s = (t.charge n).creditInterrupts (t.tickCycles n) := ⟨_, rfl⟩
  obtain ⟨hd, hw, hp⟩ := charge_timers t n (t.tickCycles n)
  rw [← hs] at hd hw hp
  obtain ⟨hrest, hrest'⟩ := tickRest_spec s.finishPendingArm (t.tickCycles n)
  have htick : t.tickFast n = ((s.finishPendingArm.checkDeadline.decayActivity
      (t.tickCycles n)).decayPollHold (t.tickCycles n)).decayHold (t.tickCycles n) := by
    rw [hs]
    rfl
  rw [htick]
  constructor
  · intro hsilent x hx
    obtain ⟨hwritten, hahead, -⟩ := finishPendingArm_spec s x
    have hruns := hsilent x (hrest' x (hahead (hp ▸ hx))).ne_zero
    rw [hrest.written, hwritten, hw] at hruns
    exact hruns
  · intro harms x hx
    obtain ⟨hwritten, -, hkept⟩ := finishPendingArm_spec s x
    rw [hrest.written, hwritten, hw]
    by_cases hpending : t.cia2ArmPending &&& x.bit = 0
    · have hold := hkept (hp ▸ hpending) (hrest.deadline x hx)
      rw [hd] at hold
      exact h x hold
    · exact harms x hpending

theorem stoppedSilent_invariant : TimingInvariant StoppedSilent where
  notePollHold t h := h.fades (fades_notePollHold t)
  noteIECActivity t h := h.fades (fades_noteIECActivity t)
  acknowledgeICR _ h := h.fades (fades_of_view rfl)
  noteBusAccess t a w h := by
    refine h.fades (fades_of_view ?_)
    unfold noteBusAccess noteTimingEvent
    dsimp only
    split <;> rfl
  noteMirrorWrite t h := by
    refine h.fades (fades_of_view ?_)
    unfold noteMirrorWrite noteTimingEvent
    dsimp only
    split_ifs <;> rfl
  noteFastHalfCycles _ _ h := h.fades (fades_of_view rfl)
  endPollHold t h := h.fades (fades_endPollHold t)
  cia2TimerWrite _ a v h := silent_timerWrite h a v
  checkDeadline t h := h.fades (checkDeadline_spec t).1
  latchInterrupts _ _ _ h := h.fades (fades_of_view rfl)
  selectSpeed t hz h := h.fades (fades_selectSpeed t hz)
  breakRun _ h := h.fades (fades_of_view rfl)
  reset t _ := fun x hx => by cases x <;> exact absurd rfl hx
  setNMIRetime _ _ h := h.fades (fades_of_view rfl)
  enablePostedWriteTiming _ on h := h.fades (fades_of_view (by cases on <;> rfl))
  switches _ _ _ _ _ _ h := h.fades (fades_of_view rfl)
  realTime _ _ _ _ _ _ h := h.fades (fades_of_view rfl)

end Timing

/-- The condition on one operation: a tick arms running timers only. -/
def ArmsRunningTimers {ω : Type} (s : Machine ω) : MemoryOp ω → Prop
  | .tick _ => s.memory.timing.ArmsRunning
  | _ => True

section Runs

variable {ρ : Type}

theorem silent_step_iff (board : Board ρ) (depth : ℕ) (s : Machine (WithREU ρ))
    (op : MemoryOp (WithREU ρ)) (h : s.memory.timing.StoppedSilent) :
    (memoryStep (board.env depth) s op).memory.timing.StoppedSilent ↔ ArmsRunningTimers s op := by
  by_cases hop : ∃ n, op = .tick n
  · obtain ⟨n, rfl⟩ := hop
    have hreal := Timing.stoppedSilent_invariant.realTime
    constructor
    · intro hsilent
      refine (Timing.silent_tickFast_iff h n).mp ?_
      by_contra hloud
      refine timing_tickFast (C := fun t => ¬ t.StoppedSilent) ?_ s n hloud hsilent
      intro t rate slow anchor debt keepalive hnot hquiet
      exact hnot (hquiet.fades (Timing.fades_of_view rfl))
    · intro harms
      exact timing_tickFast hreal s n ((Timing.silent_tickFast_iff h n).mpr harms)
  · rw [not_exists] at hop
    refine iff_of_true ?_ (by cases op <;> first | trivial | exact absurd rfl (hop _))
    exact onTiming_program Timing.stoppedSilent_invariant
      (env_keeps board Timing.stoppedSilent_invariant.keptByAccesses depth) hop s h

/-- All along a run of operations on a fresh memory, only running timers have deadlines,
exactly if every tick of the run arms running timers only. -/
theorem stopped_timers_silent_iff (board : Board ρ) (depth : ℕ) (m : CC64Memory)
    (outside : WithREU ρ) (hook : Bool) (ops : List (MemoryOp (WithREU ρ))) :
    let s : Machine (WithREU ρ) :=
      ⟨{ m with timing := { Timing.construct with timingHook := hook } }, outside⟩
    (∀ n, (run (memoryStep (board.env depth)) s (ops.take n)).memory.timing.StoppedSilent) ↔
      AllSteps (memoryStep (board.env depth)) ArmsRunningTimers s ops := by
  intro s
  refine forall_take_iff_allSteps (memoryStep (board.env depth))
    (P := fun s => s.memory.timing.StoppedSilent) (silent_step_iff board depth) s ops ?_
  intro x hx
  cases x <;> exact absurd rfl hx

/-- START and a stop before the next tick: timer A is armed all the same, and underflows. -/
theorem stopped_timer_fires :
    let done := run (memoryStep (emptyBoard.env 0)) emptyMachine
      [.write8 0xDD04 0x10, .write8 0xDD05 0x00, .write8 0xDD0E 0x01, .write8 0xDD0E 0x00, .tick 4]
    done.memory.timing.cia2TAWritten = 0 ∧ done.memory.timing.cia2TADeadline = 21 ∧
      ¬ done.memory.timing.StoppedSilent ∧
      (memoryStep (emptyBoard.env 0) done (.tick 17)).memory.timing.cia2ICRPending = 1 := by
  intro done
  have hwritten : done.memory.timing.cia2TAWritten = 0 := by decide +kernel
  have hdeadline : done.memory.timing.cia2TADeadline = 21 := by
    decide +kernel
  refine ⟨hwritten, hdeadline, fun h => ?_, by decide +kernel⟩
  have hruns := h .a (by rw [Timing.deadline, hdeadline]; decide)
  rw [Timing.written, hwritten] at hruns
  exact hruns.1 rfl

end Runs

end ScpuEmu
