import ScpuEmu.C64.StoppedTimers
import ScpuEmu.Library.Countdown

/-!
# Elementary changes of the time

The fields that deal with time change by a small number of elementary changes, which the
operations of the machine string together. Each of them but a tick leaves the clock where
it is. Each either leaves the rate alone, and with it the deadlines and what was banked
of the C64's clock, or changes the rate, banks the clock and expresses the deadlines anew.
-/

namespace ScpuEmu

open Library

inductive TimingOp
  | notePollHold
  | noteIECActivity
  | acknowledgeICR
  | noteBusAccess (a : Addr) (write : Bool)
  | noteMirrorWrite
  | noteFastHalfCycles (n : ℕ)
  | endPollHold
  | cia2TimerWrite (a : Addr) (v : Byte)
  | checkDeadline
  | latchInterrupts (irq nmi : Bool)
  | selectSpeed (hz : ℕ)
  | reset
  | setNMIRetime (on : Bool)
  | enablePostedWriteTiming (on : Bool)
  | switches (throttle stretch mirrorStretch keepalive runBreak : Bool)
  | realTime (rate slow anchor debt keepalive : BitVec 64)
  | tick (n : ℕ)

namespace Timing

variable {t t' u : Timing} {x : CIATimer}

/-- One elementary change. -/
def step (t : Timing) : TimingOp → Timing
  | .notePollHold => t.notePollHold
  | .noteIECActivity => t.noteIECActivity
  | .acknowledgeICR => t.acknowledgeICR
  | .noteBusAccess a write => t.noteBusAccess a write
  | .noteMirrorWrite => t.noteMirrorWrite
  | .noteFastHalfCycles n => t.noteFastHalfCycles n
  | .endPollHold => t.endPollHold
  | .cia2TimerWrite a v => t.cia2TimerWrite a v
  | .checkDeadline => t.checkDeadline
  | .latchInterrupts irq nmi => t.latchInterrupts irq nmi
  | .selectSpeed hz => t.selectSpeed hz
  | .reset => t.reset
  | .setNMIRetime on => t.setNMIRetime on
  | .enablePostedWriteTiming on => t.enablePostedWriteTiming on
  | .switches throttle stretch mirrorStretch keepalive runBreak =>
      { t with
        iecThrottleEnabled := throttle
        ioStretchEnable := stretch
        mirrorStretchEnable := mirrorStretch
        busKeepalive := keepalive
        runBreak := runBreak }
  | .realTime rate slow anchor debt keepalive =>
      { t with
        hostPerEmuQ16 := rate
        hostPerEmuQ16Slow := slow
        pacingAnchor := anchor
        pacingDebtCycles := debt
        nextKeepalive := keepalive }
  | .tick n => t.tickFast n

/-- Elementary changes lead from one state to the other. -/
def Leads (t t' : Timing) : Prop := ∃ ops : List TimingOp, run step t ops = t'

theorem Leads.step (h : Leads t u) (op : TimingOp) : Leads t (u.step op) := by
  obtain ⟨ops, rfl⟩ := h
  exact ⟨ops ++ [op], run_append step t ops [op]⟩

theorem leads_invariant (t : Timing) : TimingInvariant (Leads t) where
  notePollHold _ h := h.step .notePollHold
  noteIECActivity _ h := h.step .noteIECActivity
  acknowledgeICR _ h := h.step .acknowledgeICR
  noteBusAccess _ a w h := h.step (.noteBusAccess a w)
  noteMirrorWrite _ h := h.step .noteMirrorWrite
  noteFastHalfCycles _ n h := h.step (.noteFastHalfCycles n)
  endPollHold _ h := h.step .endPollHold
  cia2TimerWrite _ a v h := h.step (.cia2TimerWrite a v)
  checkDeadline _ h := h.step .checkDeadline
  latchInterrupts _ irq nmi h := h.step (.latchInterrupts irq nmi)
  selectSpeed _ hz h := h.step (.selectSpeed hz)
  breakRun t h := h.step (.switches t.iecThrottleEnabled t.ioStretchEnable t.mirrorStretchEnable
    t.busKeepalive true)
  reset _ h := h.step .reset
  setNMIRetime _ on h := h.step (.setNMIRetime on)
  enablePostedWriteTiming _ on h := h.step (.enablePostedWriteTiming on)
  switches _ _ _ _ _ _ h := h.step (.switches _ _ _ _ _)
  realTime _ _ _ _ _ _ h := h.step (.realTime _ _ _ _ _)

theorem coherent_step (h : t.Coherent) (op : TimingOp) : (t.step op).Coherent := by
  have hC := coherent_invariant
  cases op with
  | notePollHold => exact hC.notePollHold t h
  | noteIECActivity => exact hC.noteIECActivity t h
  | acknowledgeICR => exact hC.acknowledgeICR t h
  | noteBusAccess a w => exact hC.noteBusAccess t a w h
  | noteMirrorWrite => exact hC.noteMirrorWrite t h
  | noteFastHalfCycles n => exact hC.noteFastHalfCycles t n h
  | endPollHold => exact hC.endPollHold t h
  | cia2TimerWrite a v => exact hC.cia2TimerWrite t a v h
  | checkDeadline => exact hC.checkDeadline t h
  | latchInterrupts irq nmi => exact hC.latchInterrupts t irq nmi h
  | selectSpeed hz => exact hC.selectSpeed t hz h
  | reset => exact hC.reset t h
  | setNMIRetime on => exact hC.setNMIRetime t on h
  | enablePostedWriteTiming on => exact hC.enablePostedWriteTiming t on h
  | switches => exact hC.switches t _ _ _ _ _ h
  | realTime => exact hC.realTime t _ _ _ _ _ h
  | tick n => exact coherent_tickFast h n

/-! ### What a change does to the clock and to a timer -/

def latch (t : Timing) : CIATimer → BitVec 16
  | .a => t.cia2TALatch
  | .b => t.cia2TBLatch

/-- The control register, where an underflow in one-shot mode clears START. -/
def control (t : Timing) : CIATimer → Byte
  | .a => t.cia2TACR
  | .b => t.cia2TBCR

/-- All that the clock and a timer depend on, apart from what the rate derives from. -/
def rateView (t : Timing) (x : CIATimer) : (ℕ × ℕ × ℕ × ℕ × ℕ) × ℕ × Byte :=
  ((t.emuCycles, t.c64ClockBase, t.emuAtRateChange, t.c64FactorInUse, t.cia2FactorInUse),
    t.deadline x, t.cia2ArmPending &&& x.bit)

/-- The clock stands still. Without a change of the rate, so do the deadline and what was
banked; with one, the C64's clock is banked and the deadline expressed anew. -/
structure RateStep (x : CIATimer) (t t' : Timing) : Prop where
  emuCycles : t'.emuCycles = t.emuCycles
  pending : t'.cia2ArmPending &&& x.bit = t.cia2ArmPending &&& x.bit
  same : t'.effectiveCIAFactor = t.effectiveCIAFactor →
    t'.c64ClockBase = t.c64ClockBase ∧ t'.emuAtRateChange = t.emuAtRateChange ∧
      t'.deadline x = t.deadline x
  changed : t'.effectiveCIAFactor ≠ t.effectiveCIAFactor →
    t'.c64ClockBase = t.c64Now ∧ t'.emuAtRateChange = t.emuCycles ∧
      (t.deadline x ≠ 0 → t'.deadline x =
        redenominate t.emuCycles (t.deadline x) t.effectiveCIAFactor t'.effectiveCIAFactor) ∧
      (t.deadline x = 0 → t'.deadline x = 0)

/-- A change that touches none of this. -/
theorem rateStep_of_view (h : t.InScale) (h' : t'.InScale) (hview : t'.rateView x = t.rateView x) :
    RateStep x t t' := by
  simp only [rateView, Prod.mk.injEq] at hview
  obtain ⟨⟨hemu, hbase, hmark, hclock, -⟩, hdeadline, hpending⟩ := hview
  refine ⟨hemu, hpending, fun _ => ⟨hbase, hmark, hdeadline⟩, fun hne => absurd ?_ hne⟩
  rw [← h.clock, ← h'.clock, hclock]

theorem rescaled_eq (t : Timing) (f d : ℕ) :
    t.rescaled f d = redenominate t.emuCycles d t.cia2FactorInUse f := by
  unfold rescaled redenominate
  dsimp only
  generalize (d - t.emuCycles) * f / t.cia2FactorInUse = q
  split <;> omega

/-- Everything but the rate is as it was before the notification of a change. -/
theorem rateStep_onRateChange (h : t.InScale) (hview : u.rateView x = t.rateView x) :
    RateStep x t u.cia2OnRateChange := by
  simp only [rateView, Prod.mk.injEq] at hview
  obtain ⟨⟨hemu, hbase, hmark, hclock, htimers⟩, hdeadline, hpending⟩ := hview
  have hnow : u.c64Now = t.c64Now := by
    unfold c64Now
    rw [hemu, hbase, hmark, hclock]
  rw [h.clock] at hclock
  rw [h.timers] at htimers
  by_cases heff : u.effectiveCIAFactor = t.effectiveCIAFactor
  · have hid : u.cia2OnRateChange = u := by
      unfold cia2OnRateChange bankSegment
      dsimp only
      rw [if_neg (not_not.mpr (heff.trans hclock.symm)), if_pos (heff.trans htimers.symm)]
    rw [hid]
    exact ⟨hemu, hpending, fun _ => ⟨hbase, hmark, hdeadline⟩, fun hne => absurd heff hne⟩
  · obtain ⟨s, hs⟩ : ∃ s, s = u.c64ClockRebase := ⟨_, rfl⟩
    have hbank : u.bankSegment = s := by
      rw [hs, bankSegment, if_pos fun h => heff (h.trans hclock)]
    have hne : u.effectiveCIAFactor ≠ s.cia2FactorInUse := fun h => heff (by
      rw [hs] at h
      exact h.trans htimers)
    have hrate : u.cia2OnRateChange = cia2RecomputeNMIState
        { s with
          cia2TADeadline :=
            if s.cia2TADeadline ≠ 0 then s.rescaled u.effectiveCIAFactor s.cia2TADeadline else 0
          cia2TBDeadline :=
            if s.cia2TBDeadline ≠ 0 then s.rescaled u.effectiveCIAFactor s.cia2TBDeadline else 0
          cia2FactorInUse := u.effectiveCIAFactor } := by
      rw [cia2OnRateChange, hbank, if_neg hne]
    have hafter : u.cia2OnRateChange.effectiveCIAFactor = u.effectiveCIAFactor := by
      rw [hrate, hs]
      rfl
    have hscaled : u.cia2OnRateChange.deadline x =
        if u.deadline x ≠ 0 then
          redenominate u.emuCycles (u.deadline x) u.cia2FactorInUse u.effectiveCIAFactor
        else 0 := by
      rw [hrate, ← rescaled_eq, hs]
      cases x <;> rfl
    have hfields : u.cia2OnRateChange.emuCycles = u.emuCycles ∧
        u.cia2OnRateChange.cia2ArmPending = u.cia2ArmPending ∧
        u.cia2OnRateChange.c64ClockBase = u.c64Now ∧
        u.cia2OnRateChange.emuAtRateChange = u.emuCycles := by
      rw [hrate, hs]
      exact ⟨rfl, rfl, rfl, rfl⟩
    obtain ⟨hemu', hpending', hbase', hmark'⟩ := hfields
    refine ⟨hemu'.trans hemu, by rw [hpending', hpending],
      fun h => absurd (hafter.symm.trans h) heff,
      fun _ => ⟨hbase'.trans hnow, hmark'.trans hemu, fun hd => ?_, fun hd => ?_⟩⟩
    · rw [hscaled, hdeadline, if_pos hd, hemu, htimers, hafter]
    · rw [hscaled, hdeadline, if_neg (not_not.mpr hd)]

/-- The change notifies of a rate at most as its last act. -/
def Notifies (x : CIATimer) (t t' : Timing) : Prop :=
  t'.rateView x = t.rateView x ∨
    ∃ u : Timing, u.rateView x = t.rateView x ∧
      (t' = u.cia2OnRateChange ∨ t' = u.cia2OnRateChange.callTimingHook)

theorem Notifies.rateStep (hn : Notifies x t t') (h : t.InScale) (h' : t'.InScale) :
    RateStep x t t' := by
  rcases hn with hview | ⟨u, hview, rfl | rfl⟩
  · exact rateStep_of_view h h' hview
  · exact rateStep_onRateChange h hview
  · obtain ⟨hemu, hpending, hsame, hchanged⟩ := rateStep_onRateChange h hview
    exact ⟨hemu, hpending, hsame, hchanged⟩

theorem Notifies.of_view (hn : Notifies x u t') (hview : u.rateView x = t.rateView x) :
    Notifies x t t' := by
  rcases hn with heq | ⟨w, hw, hcases⟩
  · exact Or.inl (heq.trans hview)
  · exact Or.inr ⟨w, hw.trans hview, hcases⟩

theorem notifies_onRateChange (hview : u.rateView x = t.rateView x) :
    Notifies x t u.cia2OnRateChange := Or.inr ⟨u, hview, Or.inl rfl⟩

theorem notifies_transition (hview : u.rateView x = t.rateView x) :
    Notifies x t u.cia2OnRateChange.callTimingHook := Or.inr ⟨u, hview, Or.inr rfl⟩

theorem notifies_notePollHold (t : Timing) : Notifies x t t.notePollHold := by
  unfold notePollHold
  dsimp only
  split
  · exact Or.inl rfl
  split
  · split
    · exact notifies_transition rfl
    · exact Or.inl rfl
  · exact Or.inl rfl

theorem notifies_noteIECActivity (t : Timing) : Notifies x t t.noteIECActivity := by
  obtain ⟨s, hs⟩ : ∃ s, s = if decide (t.iecActivityCycles = 0) = true then
      callTimingHook { t with iecActivityCycles := 2000 }
    else { t with iecActivityCycles := 2000 } := ⟨_, rfl⟩
  have hview : s.rateView x = t.rateView x := by
    rw [hs]
    split <;> rfl
  unfold noteIECActivity
  dsimp only
  rw [← hs]
  split
  · split
    · exact notifies_transition hview
    · exact Or.inl hview
  · exact Or.inl hview

theorem notifies_endPollHold (t : Timing) : Notifies x t t.endPollHold := by
  unfold endPollHold
  split
  · exact notifies_transition rfl
  · exact Or.inl rfl

theorem notifies_selectSpeed (t : Timing) (hz : ℕ) : Notifies x t (t.selectSpeed hz) := by
  refine notifies_onRateChange ?_
  split <;> rfl

theorem notifies_decayHold (t : Timing) (n : ℕ) : Notifies x t (t.decayHold n) := by
  unfold decayHold
  dsimp only
  split
  · split
    · exact notifies_transition rfl
    · exact Or.inl rfl
  · exact Or.inl rfl

/-! ### Writes of the timers -/

theorem onRateChange_of_inScale (h : t.InScale) : t.cia2OnRateChange = t := by
  unfold cia2OnRateChange bankSegment
  dsimp only
  rw [if_neg (not_not.mpr h.clock.symm), if_pos h.timers.symm]

/-- The write of a control register goes on with the count of a running timer. -/
def GoesOn (x : CIATimer) (t : Timing) (v : Byte) : Prop :=
  v &&& 0x01#8 ≠ 0 ∧ v &&& 0x10#8 = 0 ∧ v &&& x.inputMode = 0 ∧ t.control x &&& 0x01#8 ≠ 0

instance (x : CIATimer) (t : Timing) (v : Byte) : Decidable (GoesOn x t v) :=
  inferInstanceAs (Decidable (_ ∧ _ ∧ _ ∧ _))

theorem or_and_of_disjoint {p y z : Byte} (h : y &&& z = 0) : (p ||| y) &&& z = p &&& z := by
  rw [BitVec.and_or_distrib_right, h]
  exact BitVec.or_zero

theorem rateView_TAControlWrite (v : Byte) (h : x = .a → GoesOn .a t v) :
    (t.cia2TAControlWrite v).rateView x = t.rateView x := by
  cases x with
  | a =>
      obtain ⟨hstart, hload, hmode, hrunning⟩ := h rfl
      change v &&& 0x20#8 = 0 at hmode
      change t.cia2TACR &&& 0x01#8 ≠ 0 at hrunning
      have hload' :
          ¬ (v &&& 0x01#8 ≠ 0 ∧ (t.cia2TACR &&& 0x01#8 = 0 ∨ v &&& 0x10#8 ≠ 0)) := fun hgo =>
        hgo.2.elim hrunning fun hne => hne hload
      unfold cia2TAControlWrite
      dsimp only
      rw [if_neg (not_not.mpr hmode), if_neg hload', if_neg hstart]
      rfl
  | b =>
      have hbit : (t.cia2ArmPending ||| 0x01#8) &&& CIATimer.b.bit =
          t.cia2ArmPending &&& CIATimer.b.bit :=
        or_and_of_disjoint rfl
      unfold cia2TAControlWrite
      dsimp only
      split_ifs
      · rfl
      · simp only [rateView, hbit, deadline]
      · rfl
      · rfl

theorem rateView_TBControlWrite (v : Byte) (h : x = .b → GoesOn .b t v) :
    (t.cia2TBControlWrite v).rateView x = t.rateView x := by
  cases x with
  | a =>
      have hbit : (t.cia2ArmPending ||| 0x02#8) &&& CIATimer.a.bit =
          t.cia2ArmPending &&& CIATimer.a.bit :=
        or_and_of_disjoint rfl
      unfold cia2TBControlWrite
      dsimp only
      split_ifs
      · rfl
      · simp only [rateView, hbit, deadline]
      · rfl
      · rfl
  | b =>
      obtain ⟨hstart, hload, hmode, hrunning⟩ := h rfl
      change v &&& 0x60#8 = 0 at hmode
      change t.cia2TBCR &&& 0x01#8 ≠ 0 at hrunning
      have hload' :
          ¬ (v &&& 0x01#8 ≠ 0 ∧ (t.cia2TBCR &&& 0x01#8 = 0 ∨ v &&& 0x10#8 ≠ 0)) := fun hgo =>
        hgo.2.elim hrunning fun hne => hne hload
      unfold cia2TBControlWrite
      dsimp only
      rw [if_neg (not_not.mpr hmode), if_neg hload', if_neg hstart]
      rfl

theorem rateView_maybeDeliver (t : Timing) :
    t.cia2MaybeDeliverSynthNMI.rateView x = t.rateView x := by
  unfold cia2MaybeDeliverSynthNMI
  split <;> rfl

theorem rateView_ICRWrite (t : Timing) (v : Byte) :
    (t.cia2ICRWrite v).rateView x = t.rateView x := by
  unfold cia2ICRWrite
  dsimp only
  generalize (if v &&& 0x80#8 ≠ 0 then t.cia2ICRMask ||| (v &&& 0x1F#8)
    else t.cia2ICRMask &&& ~~~(v &&& 0x1F#8)) = mask
  split
  · rfl
  · exact (rateView_maybeDeliver _).trans rfl

/-- The address of the control register. -/
def controlAddress : CIATimer → Addr
  | .a => 0xDD0E
  | .b => 0xDD0F

/-- The write is one of a timer register, and none that stops, reloads or starts the timer. -/
def Spares (x : CIATimer) (t : Timing) (a : Addr) (v : Byte) : Prop :=
  0xDD04#16 ≤ a ∧ a ≤ 0xDD0F#16 ∧ (a = controlAddress x → GoesOn x t v)

instance (x : CIATimer) (t : Timing) (a : Addr) (v : Byte) : Decidable (Spares x t a v) :=
  inferInstanceAs (Decidable (_ ∧ _ ∧ (_ → _)))

theorem notifies_timerWrite (h : t.InScale) {a : Addr} {v : Byte} (hspares : Spares x t a v) :
    Notifies x t (t.cia2TimerWrite a v) := by
  have hregister (hTOD : ¬ (0xDD08#16 ≤ a ∧ a ≤ 0xDD0C#16)) :
      (t.cia2TimerRegister a v).rateView x = t.rateView x := by
    unfold cia2TimerRegister
    split_ifs with h4 h5 h6 h7 hD hE
    · rfl
    · rfl
    · rfl
    · rfl
    · exact rateView_ICRWrite t v
    · refine rateView_TAControlWrite v ?_
      rintro rfl
      exact hspares.2.2 hE
    · refine rateView_TBControlWrite v ?_
      rintro rfl
      obtain ⟨hlow, hhigh, hcontrol⟩ := hspares
      refine hcontrol ?_
      show a = 0xDD0F
      bv_omega
  unfold cia2TimerWrite
  dsimp only
  rw [onRateChange_of_inScale h]
  split
  · exact Or.inl rfl
  · next hTOD =>
    split
    · exact Or.inl (hregister hTOD)
    · exact Or.inl (hregister hTOD)

/-! ### Underflows -/

/-- The deadline of the timer is reached. -/
def Due (t : Timing) (x : CIATimer) : Prop := t.deadline x ≠ 0 ∧ t.deadline x ≤ t.emuCycles

instance (t : Timing) (x : CIATimer) : Decidable (t.Due x) := inferInstanceAs (Decidable (_ ∧ _))

/-- The deadline after an underflow: none in one-shot mode, else one period later. -/
def nextDeadline (t : Timing) (x : CIATimer) : ℕ :=
  if t.control x &&& 0x08#8 ≠ 0 then 0
  else t.deadline x + t.ciaSpan ((t.latch x).toNat + 1)

/-- What underflows leave of everything else. -/
structure Counts (x : CIATimer) (t t' : Timing) : Prop where
  clock : (t'.rateView x).1 = (t.rateView x).1
  pending : t'.cia2ArmPending = t.cia2ArmPending
  retime : t'.nmiRetimeEnable = t.nmiRetimeEnable
  deadline : t'.deadline x = if t.Due x then t.nextDeadline x else t.deadline x
  latched : t.Due x → t'.cia2ICRPending &&& x.bit = x.bit

theorem and_self_of_or (p y : Byte) : (p ||| y) &&& y = y :=
  BitVec.eq_of_getElem_eq (by simp +contextual)

theorem counts_timerADue (t : Timing) : Counts .a t t.timerADue := by
  unfold timerADue
  dsimp only
  split
  · next hdue =>
    have hdue' : t.Due .a := hdue
    split
    · next hshot =>
      have hnext : t.nextDeadline .a = 0 := if_pos hshot
      refine ⟨rfl, rfl, rfl, ?_, fun _ => and_self_of_or _ _⟩
      rw [if_pos hdue', hnext]
      rfl
    · next hshot =>
      have hnext : t.nextDeadline .a = t.deadline .a + t.ciaSpan ((t.latch .a).toNat + 1) :=
        if_neg hshot
      refine ⟨rfl, rfl, rfl, ?_, fun _ => and_self_of_or _ _⟩
      rw [if_pos hdue', hnext]
      rfl
  · next hdue =>
    have hdue' : ¬ t.Due .a := hdue
    exact ⟨rfl, rfl, rfl, (if_neg hdue').symm, fun h => absurd h hdue'⟩

theorem counts_timerBDue (t : Timing) : Counts .b t t.timerBDue := by
  unfold timerBDue
  dsimp only
  split
  · next hdue =>
    have hdue' : t.Due .b := hdue
    split
    · next hshot =>
      have hnext : t.nextDeadline .b = 0 := if_pos hshot
      refine ⟨rfl, rfl, rfl, ?_, fun _ => and_self_of_or _ _⟩
      rw [if_pos hdue', hnext]
      rfl
    · next hshot =>
      have hnext : t.nextDeadline .b = t.deadline .b + t.ciaSpan ((t.latch .b).toNat + 1) :=
        if_neg hshot
      refine ⟨rfl, rfl, rfl, ?_, fun _ => and_self_of_or _ _⟩
      rw [if_pos hdue', hnext]
      rfl
  · next hdue =>
    have hdue' : ¬ t.Due .b := hdue
    exact ⟨rfl, rfl, rfl, (if_neg hdue').symm, fun h => absurd h hdue'⟩

/-- An underflow of timer A does nothing to timer B. -/
theorem timerADue_other (t : Timing) :
    t.timerADue.rateView .b = t.rateView .b ∧ t.timerADue.cia2ArmPending = t.cia2ArmPending ∧
      t.timerADue.nmiRetimeEnable = t.nmiRetimeEnable ∧
      t.timerADue.nextDeadline .b = t.nextDeadline .b := by
  unfold timerADue
  dsimp only
  split_ifs <;> exact ⟨rfl, rfl, rfl, rfl⟩

/-- An underflow of timer B does nothing to timer A, nor to what it latched. -/
theorem timerBDue_other (t : Timing) :
    t.timerBDue.rateView .a = t.rateView .a ∧ t.timerBDue.cia2ArmPending = t.cia2ArmPending ∧
      t.timerBDue.nmiRetimeEnable = t.nmiRetimeEnable ∧
      t.timerBDue.cia2ICRPending &&& CIATimer.a.bit = t.cia2ICRPending &&& CIATimer.a.bit := by
  unfold timerBDue
  dsimp only
  split_ifs
  · exact ⟨rfl, rfl, rfl, or_and_of_disjoint rfl⟩
  · exact ⟨rfl, rfl, rfl, or_and_of_disjoint rfl⟩
  · exact ⟨rfl, rfl, rfl, rfl⟩

theorem counts_underflows (t : Timing) (x : CIATimer) : Counts x t t.timerADue.timerBDue := by
  cases x with
  | a =>
      obtain ⟨hclock, hpending, hretime, hdeadline, hlatched⟩ := counts_timerADue t
      obtain ⟨hview, hpending', hretime', hlatch⟩ := timerBDue_other t.timerADue
      refine ⟨(congrArg Prod.fst hview).trans hclock, hpending'.trans hpending,
        hretime'.trans hretime, ?_, fun hdue => hlatch.trans (hlatched hdue)⟩
      exact (congrArg (fun v => v.2.1) hview).trans hdeadline
  | b =>
      obtain ⟨hview, hpending, hretime, hnext⟩ := timerADue_other t
      obtain ⟨hclock, hpending', hretime', hdeadline, hlatched⟩ := counts_timerBDue t.timerADue
      have hd : t.timerADue.deadline .b = t.deadline .b := congrArg (fun v => v.2.1) hview
      have hemu : t.timerADue.emuCycles = t.emuCycles := congrArg (fun v => v.1.1) hview
      have hdue : t.timerADue.Due .b ↔ t.Due .b := by rw [Due, Due, hd, hemu]
      refine ⟨hclock.trans (congrArg Prod.fst hview), hpending'.trans hpending,
        hretime'.trans hretime, ?_, fun h => hlatched (hdue.mpr h)⟩
      rw [hdeadline, hnext, hd]
      simp only [hdue]

/-- The nearest deadline is reached where the deadline of either timer is. -/
theorem nearest_due (h : t.Coherent) (hon : t.nmiRetimeEnable = true) (hdue : t.Due x) :
    t.cia2NMIDeadline ≠ 0 ∧ t.cia2NMIDeadline ≤ t.emuCycles := by
  have hmem : t.deadline x ∈ {d | d ≠ 0 ∧ (d = t.cia2TADeadline ∨ d = t.cia2TBDeadline)} := by
    refine ⟨hdue.1, ?_⟩
    cases x with
    | a => exact Or.inl rfl
    | b => exact Or.inr rfl
  rcases h.on hon with ⟨hA, hB, -⟩ | hleast
  · rcases hmem.2 with heq | heq
    · exact absurd (heq.trans hA) hdue.1
    · exact absurd (heq.trans hB) hdue.1
  · exact ⟨hleast.1.1, (hleast.2 hmem).trans hdue.2⟩

theorem counts_checkDeadline (h : t.Coherent) (hon : t.nmiRetimeEnable = true) (x : CIATimer) :
    Counts x t t.checkDeadline := by
  unfold checkDeadline
  split
  · unfold ciaTimerNMIDue
    rw [onRateChange_of_inScale h.toInScale]
    obtain ⟨hclock, hpending, hretime, hdeadline, hlatched⟩ := counts_underflows t x
    have hdeliver (s : Timing) :
        s.cia2MaybeDeliverSynthNMI.cia2RecomputeNMIState.rateView x = s.rateView x ∧
          s.cia2MaybeDeliverSynthNMI.cia2ArmPending = s.cia2ArmPending ∧
          s.cia2MaybeDeliverSynthNMI.nmiRetimeEnable = s.nmiRetimeEnable ∧
          s.cia2MaybeDeliverSynthNMI.cia2ICRPending = s.cia2ICRPending := by
      unfold cia2MaybeDeliverSynthNMI
      split <;> exact ⟨rfl, rfl, rfl, rfl⟩
    obtain ⟨hview, hpending', hretime', hICR⟩ := hdeliver t.timerADue.timerBDue
    refine ⟨(congrArg Prod.fst hview).trans hclock, hpending'.trans hpending,
      hretime'.trans hretime,
      ?_, fun hdue => ?_⟩
    · exact (congrArg (fun v => v.2.1) hview).trans hdeadline
    · exact (congrArg (· &&& x.bit) hICR).trans (hlatched hdue)
  · next hnone =>
    have hdue : ¬ t.Due x := fun hdue => hnone (nearest_due h hon hdue)
    exact ⟨rfl, rfl, rfl, (if_neg hdue).symm, fun h => absurd h hdue⟩

/-! ### Ticks -/

/-- The clock and the queue of accesses as in another state. -/
def withCosts (t s : Timing) : Timing :=
  { t with
    emuCycles := s.emuCycles
    busEvents := s.busEvents
    postedWritePending := s.postedWritePending
    mirrorBufferFreeAt := s.mirrorBufferFreeAt
    pendingFastHalfCycles := s.pendingFastHalfCycles
    fastHalfCarry := s.fastHalfCarry
    ioStretchCycles := s.ioStretchCycles
    mirrorStretchCycles := s.mirrorStretchCycles
    regionStretchCycles := s.regionStretchCycles
    intCredit := s.intCredit }

/-- Costs are charged: the clock advances, and nothing else but the queue changes. -/
structure Charged (t t' : Timing) : Prop where
  le : t.emuCycles ≤ t'.emuCycles
  eq : t' = t.withCosts t'

theorem Charged.trans {t'' : Timing} (h : Charged t t') (h' : Charged t' t'') : Charged t t'' := by
  refine ⟨h.le.trans h'.le, h'.eq.trans ?_⟩
  rw [h.eq]
  rfl

theorem charged_chargeEvent (perC64 : ℕ) (t : Timing) (event : BusTimingEvent) :
    Charged t (chargeEvent perC64 t event) := by
  cases event <;> simp only [chargeEvent] <;> split
  all_goals first
    | exact ⟨le_rfl, rfl⟩
    | exact ⟨Nat.le_add_right _ _, rfl⟩
    | exact ⟨(Nat.le_add_right _ _).trans (Nat.le_add_right _ _), rfl⟩

theorem charged_foldl (perC64 : ℕ) (events : List BusTimingEvent) (t : Timing) :
    Charged t (events.foldl (chargeEvent perC64) t) := by
  induction events generalizing t with
  | nil => exact ⟨le_rfl, rfl⟩
  | cons event events ih => exact (charged_chargeEvent perC64 t event).trans (ih _)

theorem charged_charge (t : Timing) (n : ℕ) : Charged t (t.charge n) := by
  have hclock : Charged t { t with emuCycles := t.emuCycles + n } := ⟨Nat.le_add_right _ _, rfl⟩
  have hhalves (s : Timing) : Charged s s.chargeFastHalves := by
    unfold chargeFastHalves
    dsimp only
    split_ifs
    · exact ⟨Nat.le_add_right _ _, rfl⟩
    · exact ⟨le_rfl, rfl⟩
    · exact ⟨le_rfl, rfl⟩
  have hevents (s : Timing) : Charged s s.chargeBusEvents := by
    unfold chargeBusEvents
    dsimp only
    split_ifs
    · exact ⟨le_rfl, rfl⟩
    · exact (charged_foldl _ s.busEvents s).trans ⟨le_rfl, rfl⟩
    · exact ⟨le_rfl, rfl⟩
  exact (hclock.trans (hhalves _)).trans (hevents _)

theorem charged_tick (t : Timing) (n : ℕ) :
    Charged t ((t.charge n).creditInterrupts (t.tickCycles n)) := by
  refine (charged_charge t n).trans ?_
  unfold creditInterrupts
  split <;> exact ⟨le_rfl, rfl⟩

theorem emuCycles_charged (t : Timing) (n : ℕ) :
    ((t.charge n).creditInterrupts (t.tickCycles n)).emuCycles = t.emuCycles + t.tickCycles n := by
  have hsame (s : Timing) (k : ℕ) : (s.creditInterrupts k).emuCycles = s.emuCycles := by
    unfold creditInterrupts
    split <;> rfl
  rw [hsame, tickCycles, Nat.add_sub_cancel' (charged_charge t n).le]

/-- Arming touches the timers that wait for it only. -/
theorem rateView_armTimers (hpending : t.cia2ArmPending &&& x.bit = 0) :
    t.armTimerA.armTimerB.rateView x = t.rateView x ∧
      t.armTimerA.armTimerB.nmiRetimeEnable = t.nmiRetimeEnable ∧
      t.armTimerA.armTimerB.nextDeadline x = t.nextDeadline x := by
  cases x with
  | a =>
      have hA : t.armTimerA = t := if_neg (not_not.mpr hpending)
      rw [hA]
      unfold armTimerB
      split <;> exact ⟨rfl, rfl, rfl⟩
  | b =>
      have hB : t.armTimerA.armTimerB = t.armTimerA := by
        refine if_neg (not_not.mpr ?_)
        unfold armTimerA
        split <;> exact hpending
      rw [hB]
      unfold armTimerA
      split <;> exact ⟨rfl, rfl, rfl⟩

theorem rateView_finishPendingArm (h : t.InScale) (hpending : t.cia2ArmPending &&& x.bit = 0) :
    t.finishPendingArm.rateView x = t.rateView x ∧
      t.finishPendingArm.nmiRetimeEnable = t.nmiRetimeEnable ∧
      t.finishPendingArm.nextDeadline x = t.nextDeadline x := by
  unfold finishPendingArm
  split
  · obtain ⟨hview, hretime, hnext⟩ := rateView_armTimers hpending
    rw [cia2FinishArm, onRateChange_of_inScale h]
    generalize t.armTimerA.armTimerB = s at hview hretime hnext ⊢
    have hcleared : ({ s with cia2ArmPending := 0 }.cia2RecomputeNMIState).rateView x =
        ((s.rateView x).1, (s.rateView x).2.1, 0#8) := by
      cases x <;> exact Prod.ext rfl (Prod.ext rfl BitVec.zero_and)
    refine ⟨?_, hretime, hnext⟩
    rw [hcleared, hview]
    exact Prod.ext rfl (Prod.ext rfl hpending.symm)
  · exact ⟨rfl, rfl, rfl⟩

theorem onRateChange_keeps (t : Timing) :
    t.cia2OnRateChange.cia2ICRPending = t.cia2ICRPending ∧
      t.cia2OnRateChange.nmiRetimeEnable = t.nmiRetimeEnable ∧
      t.cia2OnRateChange.iecPollHoldCycles = t.iecPollHoldCycles ∧
      t.cia2OnRateChange.iecHoldCycles = t.iecHoldCycles := by
  unfold cia2OnRateChange bankSegment
  dsimp only
  split_ifs <;> exact ⟨rfl, rfl, rfl, rfl⟩

theorem decays_keep (t : Timing) (n : ℕ) :
    (((t.decayActivity n).decayPollHold n).decayHold n).cia2ICRPending = t.cia2ICRPending ∧
      (((t.decayActivity n).decayPollHold n).decayHold n).nmiRetimeEnable = t.nmiRetimeEnable := by
  have htransition (u : Timing) :
      u.cia2OnRateChange.callTimingHook.cia2ICRPending = u.cia2ICRPending ∧
      u.cia2OnRateChange.callTimingHook.nmiRetimeEnable = u.nmiRetimeEnable :=
    ⟨(onRateChange_keeps u).1, (onRateChange_keeps u).2.1⟩
  have hpoll (u : Timing) : (u.decayPollHold n).cia2ICRPending = u.cia2ICRPending ∧
      (u.decayPollHold n).nmiRetimeEnable = u.nmiRetimeEnable := by
    unfold decayPollHold
    dsimp only
    split_ifs
    · exact htransition _
    · exact ⟨rfl, rfl⟩
    · exact ⟨rfl, rfl⟩
  have hhold (u : Timing) : (u.decayHold n).cia2ICRPending = u.cia2ICRPending ∧
      (u.decayHold n).nmiRetimeEnable = u.nmiRetimeEnable := by
    unfold decayHold
    dsimp only
    split_ifs
    · exact htransition _
    · exact ⟨rfl, rfl⟩
    · exact ⟨rfl, rfl⟩
  exact ⟨(hhold _).1.trans (hpoll _).1, (hhold _).2.trans (hpoll _).2⟩

/-- After the end of a hold that was the last, the decay of the other does nothing. -/
theorem decayHold_of_inactive (h : t.iecActive = false) (n : ℕ) : t.decayHold n = t := by
  unfold decayHold
  rw [h]
  rfl

/-- The end of the holds is at most one change of the rate. -/
theorem notifies_decays (t : Timing) (n : ℕ) :
    Notifies x t (((t.decayActivity n).decayPollHold n).decayHold n) := by
  obtain ⟨s, hs⟩ : ∃ s, s = t.decayActivity n := ⟨_, rfl⟩
  have hview : s.rateView x = t.rateView x := by
    rw [hs]
    rfl
  rw [← hs]
  have hid (u : Timing) (hpoll : u.iecPollHoldCycles = 0) (hhold : u.iecHoldCycles = 0) :
      (u.cia2OnRateChange.callTimingHook).decayHold n = u.cia2OnRateChange.callTimingHook := by
    apply decayHold_of_inactive
    obtain ⟨-, -, hpoll', hhold'⟩ := onRateChange_keeps u
    show (decide (u.cia2OnRateChange.iecHoldCycles ≠ 0) ||
      decide (u.cia2OnRateChange.iecPollHoldCycles ≠ 0)) = false
    rw [hpoll', hhold', hpoll, hhold]
    rfl
  have hlater (u : Timing) (hu : u.rateView x = t.rateView x) : Notifies x t (u.decayHold n) :=
    (notifies_decayHold u n).of_view hu
  by_cases hpoll : s.iecPollHoldCycles = 0
  · have hnone : s.decayPollHold n = s := if_neg (not_not.mpr hpoll)
    rw [hnone]
    exact hlater s hview
  · obtain ⟨u, hu⟩ : ∃ u, u = { s with iecPollHoldCycles := s.iecPollHoldCycles - n } := ⟨_, rfl⟩
    have hu' : u.rateView x = t.rateView x := by
      rw [hu]
      exact hview
    have hdecay : s.decayPollHold n =
        if u.iecPollHoldCycles = 0 ∧ u.iecHoldCycles = 0 then u.cia2OnRateChange.callTimingHook
        else u := by
      rw [hu]
      exact if_pos hpoll
    rw [hdecay]
    split
    · next hlast =>
      rw [hid u hlast.1 hlast.2]
      exact notifies_transition hu'
    · exact hlater u hu'

/-- The deadline of the timer is reached in a tick. -/
def DueInTick (t : Timing) (x : CIATimer) (n : ℕ) : Prop :=
  t.deadline x ≠ 0 ∧ t.deadline x ≤ t.emuCycles + t.tickCycles n

instance (t : Timing) (x : CIATimer) (n : ℕ) : Decidable (t.DueInTick x n) :=
  inferInstanceAs (Decidable (_ ∧ _))

/-- A tick charges its costs, and only then arms, checks and ends holds. -/
theorem tick_charged (h : t.Coherent) (n : ℕ) :
    ∃ s, s.emuCycles = t.emuCycles + t.tickCycles n ∧ s = t.withCosts s ∧ s.Coherent ∧
      t.tickFast n = ((s.finishPendingArm.checkDeadline.decayActivity
        (t.tickCycles n)).decayPollHold (t.tickCycles n)).decayHold (t.tickCycles n) :=
  ⟨(t.charge n).creditInterrupts (t.tickCycles n), emuCycles_charged t n, (charged_tick t n).eq,
    coherent_creditInterrupts (coherent_charge h n) _, rfl⟩

/-- A tick that does not arm the timer: the clock advances, the timer counts, and the rate
may change at the end. -/
theorem tick_spec (h : t.Coherent) (hon : t.nmiRetimeEnable = true)
    (hpending : t.cia2ArmPending &&& x.bit = 0) (n : ℕ) :
    ∃ s, s.emuCycles = t.emuCycles + t.tickCycles n ∧
      s.effectiveCIAFactor = t.effectiveCIAFactor ∧ s.c64ClockBase = t.c64ClockBase ∧
      s.emuAtRateChange = t.emuAtRateChange ∧ s.Coherent ∧
      s.cia2ArmPending &&& x.bit = 0 ∧
      (s.deadline x = if t.DueInTick x n then t.nextDeadline x else t.deadline x) ∧
      (t.DueInTick x n → (t.tickFast n).cia2ICRPending &&& x.bit = x.bit) ∧
      RateStep x s (t.tickFast n) ∧ (t.tickFast n).nmiRetimeEnable = true := by
  obtain ⟨s, hemu, hs', hcoherent, htick⟩ := tick_charged h n
  have hfields : s.c64ClockBase = t.c64ClockBase ∧ s.emuAtRateChange = t.emuAtRateChange ∧
      s.c64FactorInUse = t.c64FactorInUse ∧ s.deadline x = t.deadline x ∧
      s.cia2ArmPending = t.cia2ArmPending ∧ s.nmiRetimeEnable = t.nmiRetimeEnable ∧
      s.nextDeadline x = t.nextDeadline x := by
    rw [hs']
    cases x <;> exact ⟨rfl, rfl, rfl, rfl, rfl, rfl, rfl⟩
  obtain ⟨hbase, hmark, hclock, hdeadline, hpending', hretime, hnext⟩ := hfields
  have hwaits : s.cia2ArmPending &&& x.bit = 0 := by rw [hpending', hpending]
  obtain ⟨hview, hretime', hnext'⟩ := rateView_finishPendingArm hcoherent.toInScale hwaits
  have harmed := coherent_finishPendingArm hcoherent
  generalize s.finishPendingArm = w at hview hretime' hnext' harmed htick
  simp only [rateView, Prod.mk.injEq] at hview
  obtain ⟨⟨hemuW, hbaseW, hmarkW, hclockW, -⟩, hdeadlineW, hpendingW⟩ := hview
  have hon' : w.nmiRetimeEnable = true := by rw [hretime', hretime, hon]
  obtain ⟨hclockC, hpendingC, hretimeC, hdeadlineC, hlatched⟩ := counts_checkDeadline harmed hon' x
  have hchecked := coherent_checkDeadline harmed
  simp only [rateView, Prod.mk.injEq] at hclockC
  obtain ⟨hemuC, hbaseC, hmarkC, hfactorC, -⟩ := hclockC
  have hdue : w.Due x ↔ t.DueInTick x n := by
    rw [Due, DueInTick, hdeadlineW, hdeadline, hemuW, hemu]
  obtain ⟨hICR, hretimeD⟩ := decays_keep w.checkDeadline (t.tickCycles n)
  have hfinal := coherent_tickFast h n
  rw [htick] at hfinal ⊢
  refine ⟨w.checkDeadline, by rw [hemuC, hemuW, hemu], ?_, by rw [hbaseC, hbaseW, hbase],
    by rw [hmarkC, hmarkW, hmark], hchecked, ?_, ?_, fun hd => ?_, ?_, ?_⟩
  · rw [← hchecked.clock, ← h.clock, hfactorC, hclockW, hclock]
  · rw [hpendingC, hpendingW, hwaits]
  · rw [hdeadlineC, hnext', hnext, hdeadlineW, hdeadline]
    simp only [hdue]
  · rw [hICR, hlatched (hdue.mpr hd)]
  · exact (notifies_decays _ _).rateStep hchecked.toInScale hfinal.toInScale
  · rw [hretimeD, hretimeC, hon']

/-! ### Any change at all -/

/-- The cycles that a change takes: only a tick takes any. -/
def spent (t : Timing) : TimingOp → ℕ
  | .tick n => t.tickCycles n
  | _ => 0

/-- All that the count of C64 cycles depends on. -/
def clockView (t : Timing) : ℕ × ℕ × ℕ × ℕ :=
  (t.emuCycles, t.c64ClockBase, t.emuAtRateChange, t.c64FactorInUse)

/-- The part of a step that the clock sees, after it advanced. -/
structure ClockStep (t t' : Timing) (spent : ℕ) : Prop where
  emuCycles : t'.emuCycles = t.emuCycles + spent
  same : t'.effectiveCIAFactor = t.effectiveCIAFactor →
    t'.c64ClockBase = t.c64ClockBase ∧ t'.emuAtRateChange = t.emuAtRateChange
  changed : t'.effectiveCIAFactor ≠ t.effectiveCIAFactor →
    t'.c64ClockBase = wholeCycles t.c64ClockBase t.emuAtRateChange t'.emuCycles
      t.effectiveCIAFactor ∧
      t'.emuAtRateChange = t'.emuCycles

theorem c64Now_eq (h : t.InScale) :
    t.c64Now = wholeCycles t.c64ClockBase t.emuAtRateChange t.emuCycles t.effectiveCIAFactor := by
  have hne : t.c64FactorInUse ≠ 0 := by
    rw [h.clock]
    exact t.effectiveCIAFactor_pos.ne'
  unfold c64Now
  dsimp only
  rw [if_pos hne, h.clock]
  rfl

/-- The clock was advanced, and then the rate followed. -/
theorem RateStep.clockStep (h : RateStep x u t') (hscale : u.InScale) {n : ℕ}
    (hemu : u.emuCycles = t.emuCycles + n) (heff : u.effectiveCIAFactor = t.effectiveCIAFactor)
    (hbase : u.c64ClockBase = t.c64ClockBase) (hmark : u.emuAtRateChange = t.emuAtRateChange) :
    ClockStep t t' n := by
  refine ⟨h.emuCycles.trans hemu, fun hsame => ?_, fun hne => ?_⟩
  · obtain ⟨hbase', hmark', -⟩ := h.same (hsame.trans heff.symm)
    exact ⟨hbase'.trans hbase, hmark'.trans hmark⟩
  · obtain ⟨hbase', hmark', -⟩ := h.changed fun hsame => hne (hsame.trans heff)
    refine ⟨?_, hmark'.trans h.emuCycles.symm⟩
    rw [hbase', c64Now_eq hscale, hbase, hmark, heff, h.emuCycles]

theorem clockStep_of_view (h : t.InScale) (h' : t'.InScale) (hview : t'.clockView = t.clockView) :
    ClockStep t t' 0 := by
  simp only [clockView, Prod.mk.injEq] at hview
  obtain ⟨hemu, hbase, hmark, hclock⟩ := hview
  refine ⟨hemu, fun _ => ⟨hbase, hmark⟩, fun hne => absurd ?_ hne⟩
  rw [← h.clock, ← h'.clock, hclock]

theorem maybeDeliver_keeps (t : Timing) :
    t.cia2MaybeDeliverSynthNMI.clockView = t.clockView ∧
      t.cia2MaybeDeliverSynthNMI.nmiRetimeEnable = t.nmiRetimeEnable := by
  unfold cia2MaybeDeliverSynthNMI
  split <;> exact ⟨rfl, rfl⟩

theorem timerRegister_keeps (t : Timing) (a : Addr) (v : Byte) :
    (t.cia2TimerRegister a v).clockView = t.clockView ∧
      (t.cia2TimerRegister a v).nmiRetimeEnable = t.nmiRetimeEnable := by
  have hICR : (t.cia2ICRWrite v).clockView = t.clockView ∧
      (t.cia2ICRWrite v).nmiRetimeEnable = t.nmiRetimeEnable := by
    unfold cia2ICRWrite
    dsimp only
    generalize (if v &&& 0x80#8 ≠ 0 then t.cia2ICRMask ||| (v &&& 0x1F#8)
      else t.cia2ICRMask &&& ~~~(v &&& 0x1F#8)) = mask
    split
    · exact ⟨rfl, rfl⟩
    · exact maybeDeliver_keeps _
  have hTA : (t.cia2TAControlWrite v).clockView = t.clockView ∧
      (t.cia2TAControlWrite v).nmiRetimeEnable = t.nmiRetimeEnable := by
    unfold cia2TAControlWrite
    dsimp only
    split_ifs <;> exact ⟨rfl, rfl⟩
  have hTB : (t.cia2TBControlWrite v).clockView = t.clockView ∧
      (t.cia2TBControlWrite v).nmiRetimeEnable = t.nmiRetimeEnable := by
    unfold cia2TBControlWrite
    dsimp only
    split_ifs <;> exact ⟨rfl, rfl⟩
  unfold cia2TimerRegister
  split_ifs
  · exact ⟨rfl, rfl⟩
  · exact ⟨rfl, rfl⟩
  · exact ⟨rfl, rfl⟩
  · exact ⟨rfl, rfl⟩
  · exact hICR
  · exact hTA
  · exact hTB

theorem clockView_timerWrite (h : t.InScale) (a : Addr) (v : Byte) :
    (t.cia2TimerWrite a v).clockView = t.clockView := by
  unfold cia2TimerWrite
  dsimp only
  rw [onRateChange_of_inScale h]
  split
  · rfl
  · split <;> exact (timerRegister_keeps t a v).1

theorem clockView_checkDeadline (h : t.InScale) : t.checkDeadline.clockView = t.clockView := by
  have hA (s : Timing) : s.timerADue.clockView = s.clockView := by
    unfold timerADue
    dsimp only
    split_ifs <;> rfl
  have hB (s : Timing) : s.timerBDue.clockView = s.clockView := by
    unfold timerBDue
    dsimp only
    split_ifs <;> rfl
  unfold checkDeadline ciaTimerNMIDue
  rw [onRateChange_of_inScale h]
  split
  · exact (maybeDeliver_keeps _).1.trans ((hB _).trans (hA _))
  · rfl

theorem clockView_finishPendingArm (h : t.InScale) :
    t.finishPendingArm.clockView = t.clockView := by
  have hA (s : Timing) : s.armTimerA.clockView = s.clockView := by
    unfold armTimerA
    split <;> rfl
  have hB (s : Timing) : s.armTimerB.clockView = s.clockView := by
    unfold armTimerB
    split <;> rfl
  unfold finishPendingArm cia2FinishArm
  rw [onRateChange_of_inScale h]
  split
  · exact (hB _).trans (hA _)
  · rfl

theorem clockStep_tick (h : t.Coherent) (n : ℕ) :
    ClockStep t (t.tickFast n) (t.tickCycles n) := by
  obtain ⟨s, hemu, hs', hcoherent, htick⟩ := tick_charged h n
  have hfields : s.c64ClockBase = t.c64ClockBase ∧ s.emuAtRateChange = t.emuAtRateChange ∧
      s.c64FactorInUse = t.c64FactorInUse := by
    rw [hs']
    exact ⟨rfl, rfl, rfl⟩
  have harmed := coherent_finishPendingArm hcoherent
  have hchecked := coherent_checkDeadline harmed
  have hview := (clockView_checkDeadline harmed.toInScale).trans
    (clockView_finishPendingArm hcoherent.toInScale)
  simp only [clockView, Prod.mk.injEq] at hview
  obtain ⟨hemu', hbase, hmark, hclock⟩ := hview
  have hfinal := coherent_tickFast h n
  rw [htick] at hfinal ⊢
  refine ((notifies_decays (x := .a) _ _).rateStep hchecked.toInScale hfinal.toInScale).clockStep
    hchecked.toInScale (hemu'.trans hemu) ?_ (hbase.trans hfields.1) (hmark.trans hfields.2.1)
  rw [← hchecked.clock, ← h.clock, hclock, hfields.2.2]

/-- Every change but a reset moves the clock forward, and banks it if the rate changes. -/
theorem clockStep_step (h : t.Coherent) {op : TimingOp} (hop : op ≠ .reset) :
    ClockStep t (t.step op) (t.spent op) := by
  have h' := coherent_step h op
  have hnotifies (hn : Notifies .a t (t.step op)) : ClockStep t (t.step op) 0 :=
    (hn.rateStep h.toInScale h'.toInScale).clockStep h.toInScale rfl rfl rfl rfl
  have hevent (event : BusTimingEvent) : (t.noteTimingEvent event).clockView = t.clockView := by
    unfold noteTimingEvent
    split <;> rfl
  cases op with
  | notePollHold => exact hnotifies (notifies_notePollHold t)
  | noteIECActivity => exact hnotifies (notifies_noteIECActivity t)
  | endPollHold => exact hnotifies (notifies_endPollHold t)
  | selectSpeed hz => exact hnotifies (notifies_selectSpeed t hz)
  | cia2TimerWrite a v =>
      exact clockStep_of_view h.toInScale h'.toInScale (clockView_timerWrite h.toInScale a v)
  | checkDeadline =>
      exact clockStep_of_view h.toInScale h'.toInScale (clockView_checkDeadline h.toInScale)
  | tick n => exact clockStep_tick h n
  | reset => exact absurd rfl hop
  | acknowledgeICR | noteFastHalfCycles | latchInterrupts | setNMIRetime | switches | realTime =>
      exact clockStep_of_view h.toInScale h'.toInScale rfl
  | noteBusAccess a w => exact clockStep_of_view h.toInScale h'.toInScale (hevent _)
  | noteMirrorWrite =>
      refine clockStep_of_view h.toInScale h'.toInScale ?_
      show t.noteMirrorWrite.clockView = t.clockView
      unfold noteMirrorWrite
      dsimp only
      split
      · split <;> exact hevent .mirrorWrite
      · rfl
  | enablePostedWriteTiming on =>
      refine clockStep_of_view h.toInScale h'.toInScale ?_
      cases on <;> rfl

/-! ### A timer that is left alone -/

/-- The change does not stop, reload or start the timer, and retiming stays on. -/
def Undisturbed (x : CIATimer) (t : Timing) : TimingOp → Prop
  | .reset => False
  | .setNMIRetime on => on = true
  | .cia2TimerWrite a v => Spares x t a v
  | _ => True

instance (x : CIATimer) (t : Timing) (op : TimingOp) : Decidable (Undisturbed x t op) := by
  cases op <;> unfold Undisturbed <;> infer_instance

/-- The timer underflows in the change. -/
def Underflows (x : CIATimer) (t : Timing) : TimingOp → Prop
  | .checkDeadline => t.Due x
  | .tick n => t.DueInTick x n
  | _ => False

instance (x : CIATimer) (t : Timing) (op : TimingOp) : Decidable (Underflows x t op) := by
  cases op <;> unfold Underflows <;> infer_instance

/-- The timer is not waiting to be armed, and retiming is on. -/
structure Settled (x : CIATimer) (t : Timing) : Prop extends t.Coherent where
  pending : t.cia2ArmPending &&& x.bit = 0
  retime : t.nmiRetimeEnable = true

/-- A change that leaves the timer alone: the clock advances, the timer counts, and the rate
may change at the end. -/
structure TimerStep (x : CIATimer) (t s t' : Timing) (op : TimingOp) : Prop where
  emuCycles : s.emuCycles = t.emuCycles + t.spent op
  factor : s.effectiveCIAFactor = t.effectiveCIAFactor
  deadline : s.deadline x = if t.Underflows x op then t.nextDeadline x else t.deadline x
  latched : t.Underflows x op → t'.cia2ICRPending &&& x.bit = x.bit
  rate : RateStep x s t'
  settled : t'.Settled x

theorem timerStep_of_notifies (h : t.Settled x) {op : TimingOp} (hspent : t.spent op = 0)
    (hquiet : ¬ t.Underflows x op) (hn : Notifies x t (t.step op))
    (hretime : (t.step op).nmiRetimeEnable = t.nmiRetimeEnable) :
    TimerStep x t t (t.step op) op := by
  have h' := coherent_step h.toCoherent op
  have hrate := hn.rateStep h.toInScale h'.toInScale
  exact ⟨by rw [hspent, Nat.add_zero], rfl, (if_neg hquiet).symm, fun hu => absurd hu hquiet, hrate,
    ⟨h', hrate.pending.trans h.pending, hretime.trans h.retime⟩⟩

theorem timerStep_tick (h : t.Settled x) (n : ℕ) :
    ∃ s, TimerStep x t s (t.step (.tick n)) (.tick n) := by
  obtain ⟨s, hemu, hfactor, -, -, -, hpending, hdeadline, hlatched, hrate, hretime⟩ :=
    tick_spec h.toCoherent h.retime h.pending n
  exact ⟨s, hemu, hfactor, hdeadline, hlatched, hrate,
    ⟨coherent_tickFast h.toCoherent n, hrate.pending.trans hpending, hretime⟩⟩

theorem timerStep_checkDeadline (h : t.Settled x) :
    TimerStep x t t.checkDeadline (t.step .checkDeadline) .checkDeadline := by
  have h' := coherent_checkDeadline h.toCoherent
  obtain ⟨hclock, hpending, hretime, hdeadline, hlatched⟩ :=
    counts_checkDeadline h.toCoherent h.retime x
  simp only [rateView, Prod.mk.injEq] at hclock
  refine ⟨hclock.1, ?_, hdeadline, hlatched, rateStep_of_view h'.toInScale h'.toInScale rfl,
    ⟨h', ?_, hretime.trans h.retime⟩⟩
  · rw [← h'.clock, ← h.clock, hclock.2.2.2.1]
  · exact (congrArg (· &&& x.bit) hpending).trans h.pending

theorem nmiRetimeEnable_step (t : Timing) {op : TimingOp} (hop : Undisturbed x t op)
    (hon : t.nmiRetimeEnable = true) (htick : ∀ n, op ≠ .tick n) (hcheck : op ≠ .checkDeadline) :
    (t.step op).nmiRetimeEnable = t.nmiRetimeEnable := by
  have hrate (s : Timing) : s.cia2OnRateChange.nmiRetimeEnable = s.nmiRetimeEnable :=
    (onRateChange_keeps s).2.1
  have hhook (s : Timing) : s.callTimingHook.nmiRetimeEnable = s.nmiRetimeEnable := rfl
  have hevent (s : Timing) (event : BusTimingEvent) :
      (s.noteTimingEvent event).nmiRetimeEnable = s.nmiRetimeEnable := by
    unfold noteTimingEvent
    split <;> rfl
  cases op with
  | tick n => exact absurd rfl (htick n)
  | checkDeadline => exact absurd rfl hcheck
  | reset => exact absurd hop id
  | setNMIRetime on =>
      have heq : on = true := hop
      rw [hon, heq]
      rfl
  | acknowledgeICR | noteFastHalfCycles | latchInterrupts | switches | realTime => rfl
  | enablePostedWriteTiming on => cases on <;> rfl
  | noteBusAccess a w => exact hevent t _
  | noteMirrorWrite =>
      show t.noteMirrorWrite.nmiRetimeEnable = _
      unfold noteMirrorWrite
      dsimp only
      split
      · split <;> exact hevent t .mirrorWrite
      · rfl
  | notePollHold =>
      show t.notePollHold.nmiRetimeEnable = _
      unfold notePollHold
      dsimp only
      split_ifs <;> first | rfl | exact hrate _
  | noteIECActivity =>
      show t.noteIECActivity.nmiRetimeEnable = _
      unfold noteIECActivity
      dsimp only
      split_ifs <;> first | rfl | exact hrate _
  | endPollHold =>
      show t.endPollHold.nmiRetimeEnable = _
      unfold endPollHold
      split
      · exact hrate _
      · rfl
  | selectSpeed hz =>
      refine (hrate _).trans ?_
      split <;> rfl
  | cia2TimerWrite a v =>
      show (t.cia2TimerWrite a v).nmiRetimeEnable = _
      unfold cia2TimerWrite
      dsimp only
      split
      · exact hrate t
      · split <;> exact (timerRegister_keeps _ a v).2.trans (hrate t)

/-- Whatever leaves the timer alone, it counts on. -/
theorem timerStep_step (h : t.Settled x) {op : TimingOp} (hop : Undisturbed x t op) :
    ∃ s, TimerStep x t s (t.step op) op := by
  have hquiet (op : TimingOp) (hnone : ¬ t.Underflows x op) (hspent : t.spent op = 0)
      (hn : Notifies x t (t.step op))
      (hretime : (t.step op).nmiRetimeEnable = t.nmiRetimeEnable) :
      ∃ s, TimerStep x t s (t.step op) op :=
    ⟨t, timerStep_of_notifies h hspent hnone hn hretime⟩
  have hevent (event : BusTimingEvent) : (t.noteTimingEvent event).rateView x = t.rateView x := by
    unfold noteTimingEvent
    split <;> rfl
  have hsame := nmiRetimeEnable_step t hop h.retime
  cases op with
  | tick n => exact timerStep_tick h n
  | checkDeadline => exact ⟨_, timerStep_checkDeadline h⟩
  | reset => exact absurd hop id
  | notePollHold =>
      exact hquiet _ id rfl (notifies_notePollHold t) (hsame nofun nofun)
  | noteIECActivity =>
      exact hquiet _ id rfl (notifies_noteIECActivity t) (hsame nofun nofun)
  | endPollHold => exact hquiet _ id rfl (notifies_endPollHold t) (hsame nofun nofun)
  | selectSpeed hz => exact hquiet _ id rfl (notifies_selectSpeed t hz) (hsame nofun nofun)
  | cia2TimerWrite a v =>
      exact hquiet _ id rfl (notifies_timerWrite h.toInScale hop) (hsame nofun nofun)
  | acknowledgeICR | noteFastHalfCycles | latchInterrupts | setNMIRetime | switches | realTime =>
      exact hquiet _ id rfl (Or.inl rfl) (hsame nofun nofun)
  | noteBusAccess a w => exact hquiet _ id rfl (Or.inl (hevent _)) (hsame nofun nofun)
  | noteMirrorWrite =>
      refine hquiet _ id rfl (Or.inl ?_) (hsame nofun nofun)
      show t.noteMirrorWrite.rateView x = t.rateView x
      unfold noteMirrorWrite
      dsimp only
      split
      · split <;> exact hevent .mirrorWrite
      · rfl
  | enablePostedWriteTiming on =>
      refine hquiet _ id rfl (Or.inl ?_) (hsame nofun nofun)
      cases on <;> rfl

end Timing

/-- Whatever is done to the machine, the time changes by elementary changes. -/
theorem timing_leads {ρ : Type} (board : Board ρ) (depth : ℕ) (s : Machine (WithREU ρ))
    (ops : List (MemoryOp (WithREU ρ))) :
    s.memory.timing.Leads (run (memoryStep (board.env depth)) s ops).memory.timing := by
  have hleads := Timing.leads_invariant s.memory.timing
  refine run_invariant (memoryStep (board.env depth))
    (P := OnTiming s.memory.timing.Leads) ?_ s ops ⟨[], rfl⟩
  intro u op h
  by_cases hop : ∃ n, op = .tick n
  · obtain ⟨n, rfl⟩ := hop
    exact onTiming_tickFast hleads.realTime (fun t ht => ht.step (.tick n)) u h
  · rw [not_exists] at hop
    exact onTiming_program hleads (env_keeps board hleads.keptByAccesses depth) hop u h

end ScpuEmu
