import ScpuEmu.Reu.Wiring
import Mathlib.Order.Bounds.Basic

/-!
# One time scale

Deadlines of CIA 2 and the C64's clock stand in units of a factor that the memory
remembers, while the factor in force is a function of the selected speed and of the holds
of the serial bus. Every change of these passes through `cia2OnRateChange`, so that what
is remembered is what is in force. The nearest deadline is cached beside the two timers
and is recomputed after each change of one of them.
-/

namespace ScpuEmu

open Library

/-- The least of the armed deadlines, where zero stands for none. -/
def IsNearest (a b d : ℕ) : Prop :=
  a = 0 ∧ b = 0 ∧ d = 0 ∨ IsLeast {x | x ≠ 0 ∧ (x = a ∨ x = b)} d

theorem isNearest_nearerDeadline (a b : ℕ) : IsNearest a b (Timing.nearerDeadline a b) := by
  unfold Timing.nearerDeadline
  by_cases hb : b = 0
  · subst hb
    rw [if_neg (fun h => h.1 rfl)]
    by_cases ha : a = 0
    · exact Or.inl ⟨ha, rfl, ha⟩
    · refine Or.inr ⟨⟨ha, Or.inl rfl⟩, ?_⟩
      rintro x ⟨hx, rfl | rfl⟩
      · exact le_refl x
      · exact absurd rfl hx
  · right
    by_cases hnear : a = 0 ∨ b < a
    · rw [if_pos ⟨hb, hnear⟩]
      refine ⟨⟨hb, Or.inr rfl⟩, ?_⟩
      rintro x ⟨hx, rfl | rfl⟩
      · rcases hnear with rfl | hlt
        · exact absurd rfl hx
        · exact hlt.le
      · exact le_refl x
    · rw [if_neg (fun h => hnear h.2)]
      rw [not_or, not_lt] at hnear
      refine ⟨⟨hnear.1, Or.inl rfl⟩, ?_⟩
      rintro x ⟨hx, rfl | rfl⟩
      · exact le_refl x
      · exact hnear.2

namespace Timing

/-- Both remembered factors are the one in force. -/
structure InScale (t : Timing) : Prop where
  clock : t.c64FactorInUse = t.effectiveCIAFactor
  timers : t.cia2FactorInUse = t.effectiveCIAFactor

/-- The cached deadline is the nearest one, or none while retiming is off. -/
structure CachesNearest (t : Timing) : Prop where
  on : t.nmiRetimeEnable = true → IsNearest t.cia2TADeadline t.cia2TBDeadline t.cia2NMIDeadline
  off : t.nmiRetimeEnable = false → t.cia2NMIDeadline = 0

structure Coherent (t : Timing) : Prop extends InScale t, CachesNearest t

/-- All that the scale depends on. -/
def scaleView (t : Timing) : (ℕ × ℕ × ℕ) × ℕ × ℕ :=
  ((t.iecHoldCycles, t.iecPollHoldCycles, t.pacingCheckCycles), t.c64FactorInUse,
    t.cia2FactorInUse)

/-- All that the cached deadline depends on. -/
def deadlineView (t : Timing) : Bool × ℕ × ℕ × ℕ :=
  (t.nmiRetimeEnable, t.cia2TADeadline, t.cia2TBDeadline, t.cia2NMIDeadline)

variable {t t' : Timing}

theorem InScale.of_view (h : t.InScale) (hview : t'.scaleView = t.scaleView) : t'.InScale := by
  simp only [scaleView, Prod.mk.injEq] at hview
  obtain ⟨⟨hhold, hpoll, hcheck⟩, hclock, htimers⟩ := hview
  have heff : t'.effectiveCIAFactor = t.effectiveCIAFactor := by
    unfold effectiveCIAFactor
    rw [hhold, hpoll, hcheck]
  exact ⟨by rw [hclock, heff, h.clock], by rw [htimers, heff, h.timers]⟩

theorem CachesNearest.of_view (h : t.CachesNearest) (hview : t'.deadlineView = t.deadlineView) :
    t'.CachesNearest := by
  simp only [deadlineView, Prod.mk.injEq] at hview
  obtain ⟨hretime, hA, hB, hnear⟩ := hview
  constructor
  · intro hon
    rw [hA, hB, hnear]
    exact h.on (hretime ▸ hon)
  · intro hoff
    rw [hnear]
    exact h.off (hretime ▸ hoff)

theorem Coherent.of_view (h : t.Coherent) (hscale : t'.scaleView = t.scaleView)
    (hdeadline : t'.deadlineView = t.deadlineView) : t'.Coherent :=
  ⟨h.toInScale.of_view hscale, h.toCachesNearest.of_view hdeadline⟩

@[simp] theorem scaleView_callTimingHook (t : Timing) :
    t.callTimingHook.scaleView = t.scaleView := rfl

@[simp] theorem deadlineView_callTimingHook (t : Timing) :
    t.callTimingHook.deadlineView = t.deadlineView := rfl

theorem Coherent.callTimingHook (h : t.Coherent) : t.callTimingHook.Coherent :=
  h.of_view rfl rfl

theorem cachesNearest_recompute (t : Timing) : t.cia2RecomputeNMIState.CachesNearest := by
  constructor
  · intro hon
    have hretime : t.nmiRetimeEnable = true := hon
    show IsNearest _ _ (if t.nmiRetimeEnable then _ else _)
    rw [if_pos hretime]
    exact isNearest_nearerDeadline _ _
  · intro hoff
    have hretime : t.nmiRetimeEnable = false := hoff
    show (if t.nmiRetimeEnable then _ else _) = _
    rw [hretime]
    rfl

/-- After a recomputation, only the factors matter. -/
theorem InScale.recompute (h : t.InScale) : t.cia2RecomputeNMIState.Coherent :=
  ⟨h.of_view rfl, cachesNearest_recompute t⟩

/-! ### Changes of the rate -/

theorem effective_of_active (h : t.iecHoldCycles ≠ 0 ∨ t.iecPollHoldCycles ≠ 0) :
    t.effectiveCIAFactor = 1 := if_pos h

theorem active_iff : t.iecActive = true ↔ t.iecHoldCycles ≠ 0 ∨ t.iecPollHoldCycles ≠ 0 := by
  simp [iecActive]

/-- While a hold lasts, its length does not matter. -/
theorem InScale.of_active (h : t.InScale) (hclock : t'.c64FactorInUse = t.c64FactorInUse)
    (htimers : t'.cia2FactorInUse = t.cia2FactorInUse)
    (hactive : t.iecHoldCycles ≠ 0 ∨ t.iecPollHoldCycles ≠ 0)
    (hactive' : t'.iecHoldCycles ≠ 0 ∨ t'.iecPollHoldCycles ≠ 0) : t'.InScale := by
  have heff : t.effectiveCIAFactor = t'.effectiveCIAFactor := by
    rw [effective_of_active hactive, effective_of_active hactive']
  exact ⟨by rw [hclock, h.clock, heff], by rw [htimers, h.timers, heff]⟩

theorem bankSegment_spec (t : Timing) :
    t.bankSegment.c64FactorInUse = t.effectiveCIAFactor ∧
      t.bankSegment.effectiveCIAFactor = t.effectiveCIAFactor ∧
      t.bankSegment.deadlineView = t.deadlineView := by
  unfold bankSegment
  split
  · exact ⟨rfl, rfl, rfl⟩
  · rename_i heq
    exact ⟨(not_not.mp heq).symm, rfl, rfl⟩

/-- A change of the rate brings both factors in scale, whatever they were. -/
theorem coherent_onRateChange (h : t.CachesNearest) : t.cia2OnRateChange.Coherent := by
  obtain ⟨hclock, heff, hview⟩ := bankSegment_spec t
  unfold cia2OnRateChange
  dsimp only
  split
  · rename_i htimers
    exact ⟨⟨hclock.trans heff.symm, htimers.symm.trans heff.symm⟩, h.of_view hview⟩
  · exact InScale.recompute ⟨hclock.trans heff.symm, heff.symm⟩

/-- A change that the hook hears of. -/
theorem coherent_rateTransition (h : t.CachesNearest) :
    t.cia2OnRateChange.callTimingHook.Coherent := (coherent_onRateChange h).callTimingHook

theorem coherent_notePollHold (h : t.Coherent) : t.notePollHold.Coherent := by
  unfold notePollHold
  dsimp only
  split
  · exact h
  split
  · split
    · exact coherent_rateTransition (h.toCachesNearest.of_view rfl)
    · rename_i hactive
      rw [Bool.not_eq_true', Bool.not_eq_false, active_iff] at hactive
      exact ⟨h.toInScale.of_active rfl rfl hactive (Or.inr (by simp)),
        h.toCachesNearest.of_view rfl⟩
  · exact h

theorem coherent_noteIECActivity (h : t.Coherent) : t.noteIECActivity.Coherent := by
  obtain ⟨s, hs⟩ : ∃ s, s = if decide (t.iecActivityCycles = 0) = true then
      callTimingHook { t with iecActivityCycles := 2000 }
    else { t with iecActivityCycles := 2000 } := ⟨_, rfl⟩
  have hcoherent : s.Coherent := by
    rw [hs]
    split <;> exact h.of_view rfl rfl
  unfold noteIECActivity
  dsimp only
  rw [← hs]
  split
  · split
    · exact coherent_rateTransition (hcoherent.toCachesNearest.of_view rfl)
    · rename_i hhold
      exact ⟨hcoherent.toInScale.of_active rfl rfl (Or.inl (by simpa using hhold))
        (Or.inl (by simp)), hcoherent.toCachesNearest.of_view rfl⟩
  · exact hcoherent

theorem coherent_endPollHold (h : t.Coherent) : t.endPollHold.Coherent := by
  unfold endPollHold
  split
  · exact coherent_rateTransition (h.toCachesNearest.of_view rfl)
  · exact h

theorem coherent_selectSpeed (h : t.Coherent) (hz : ℕ) : (t.selectSpeed hz).Coherent := by
  refine coherent_onRateChange (h.toCachesNearest.of_view ?_)
  split <;> rfl

theorem coherent_decayPollHold (h : t.Coherent) (n : ℕ) : (t.decayPollHold n).Coherent := by
  unfold decayPollHold
  dsimp only
  split
  · rename_i hpoll
    split
    · exact coherent_rateTransition (h.toCachesNearest.of_view rfl)
    · rename_i hleft
      exact ⟨h.toInScale.of_active rfl rfl (Or.inr hpoll) (not_and_or.mp hleft).symm,
        h.toCachesNearest.of_view rfl⟩
  · exact h

theorem coherent_decayHold (h : t.Coherent) (n : ℕ) : (t.decayHold n).Coherent := by
  unfold decayHold
  dsimp only
  split
  · rename_i hactive
    rw [active_iff] at hactive
    split
    · exact coherent_rateTransition (h.toCachesNearest.of_view rfl)
    · rename_i hleft
      refine ⟨h.toInScale.of_active rfl rfl hactive ?_, h.toCachesNearest.of_view rfl⟩
      show t.iecHoldCycles - n ≠ 0 ∨ t.iecPollHoldCycles ≠ 0
      rcases hactive with hhold | hpoll
      · exact not_and_or.mp fun hnone => hleft ⟨decide_eq_true hhold, hnone⟩
      · exact Or.inr hpoll
  · exact h

/-! ### Timers -/

@[simp] theorem scaleView_maybeDeliver (t : Timing) :
    t.cia2MaybeDeliverSynthNMI.scaleView = t.scaleView := by
  unfold cia2MaybeDeliverSynthNMI
  split <;> rfl

theorem scaleView_timerRegister (t : Timing) (a : Addr) (v : Byte) :
    (t.cia2TimerRegister a v).scaleView = t.scaleView := by
  have hICR : (t.cia2ICRWrite v).scaleView = t.scaleView := by
    unfold cia2ICRWrite
    dsimp only
    generalize (if v &&& 0x80#8 ≠ 0 then t.cia2ICRMask ||| (v &&& 0x1F#8)
      else t.cia2ICRMask &&& ~~~(v &&& 0x1F#8)) = mask
    split
    · rfl
    · exact scaleView_maybeDeliver _
  have hTA : (t.cia2TAControlWrite v).scaleView = t.scaleView := by
    unfold cia2TAControlWrite
    dsimp only
    split_ifs <;> rfl
  have hTB : (t.cia2TBControlWrite v).scaleView = t.scaleView := by
    unfold cia2TBControlWrite
    dsimp only
    split_ifs <;> rfl
  unfold cia2TimerRegister
  split_ifs
  · rfl
  · rfl
  · rfl
  · rfl
  · exact hICR
  · exact hTA
  · exact hTB

theorem coherent_timerWrite (h : t.Coherent) (a : Addr) (v : Byte) :
    (t.cia2TimerWrite a v).Coherent := by
  have hrate := coherent_onRateChange h.toCachesNearest
  unfold cia2TimerWrite
  dsimp only
  split
  · exact hrate
  · have hregister : (t.cia2OnRateChange.cia2TimerRegister a v).cia2RecomputeNMIState.Coherent :=
      (hrate.toInScale.of_view (scaleView_timerRegister _ a v)).recompute
    split
    · exact hregister.callTimingHook
    · exact hregister

theorem coherent_finishArm (h : t.Coherent) : t.cia2FinishArm.Coherent := by
  have hrate := coherent_onRateChange h.toCachesNearest
  refine InScale.recompute (hrate.toInScale.of_view ?_)
  have hA (s : Timing) : s.armTimerA.scaleView = s.scaleView := by
    unfold armTimerA
    split <;> rfl
  have hB (s : Timing) : s.armTimerB.scaleView = s.scaleView := by
    unfold armTimerB
    split <;> rfl
  exact (hB _).trans (hA _)

@[simp] theorem scaleView_timerADue (t : Timing) : t.timerADue.scaleView = t.scaleView := by
  unfold timerADue
  dsimp only
  split_ifs <;> rfl

@[simp] theorem scaleView_timerBDue (t : Timing) : t.timerBDue.scaleView = t.scaleView := by
  unfold timerBDue
  dsimp only
  split_ifs <;> rfl

theorem coherent_checkDeadline (h : t.Coherent) : t.checkDeadline.Coherent := by
  have hrate := coherent_onRateChange h.toCachesNearest
  unfold checkDeadline
  split
  · refine InScale.recompute (hrate.toInScale.of_view ?_)
    rw [scaleView_maybeDeliver, scaleView_timerBDue, scaleView_timerADue]
  · exact h

/-! ### The bus -/

theorem coherent_noteTimingEvent (h : t.Coherent) (event : BusTimingEvent) :
    (t.noteTimingEvent event).Coherent := by
  unfold noteTimingEvent
  split
  · exact h.of_view rfl rfl
  · exact h

theorem coherent_noteMirrorWrite (h : t.Coherent) : t.noteMirrorWrite.Coherent := by
  unfold noteMirrorWrite
  dsimp only
  split
  · split
    · exact (coherent_noteTimingEvent h .mirrorWrite).of_view rfl rfl
    · exact coherent_noteTimingEvent h .mirrorWrite
  · exact h

theorem coherent_enablePostedWriteTiming (h : t.Coherent) (on : Bool) :
    (t.enablePostedWriteTiming on).Coherent := by
  cases on <;> exact h.of_view rfl rfl

theorem coherent_chargeEvent (perC64 : ℕ) (h : t.Coherent) (event : BusTimingEvent) :
    (chargeEvent perC64 t event).Coherent := by
  cases event <;> simp only [chargeEvent] <;> split <;> exact h.of_view rfl rfl

theorem coherent_foldl_chargeEvent (perC64 : ℕ) (events : List BusTimingEvent) (h : t.Coherent) :
    (events.foldl (chargeEvent perC64) t).Coherent := by
  induction events generalizing t with
  | nil => exact h
  | cons event events ih => exact ih (coherent_chargeEvent perC64 h event)

theorem coherent_charge (h : t.Coherent) (n : ℕ) : (t.charge n).Coherent := by
  have hhalves : (chargeFastHalves { t with emuCycles := t.emuCycles + n }).Coherent := by
    unfold chargeFastHalves
    dsimp only
    split_ifs <;> exact h.of_view rfl rfl
  unfold charge chargeBusEvents
  dsimp only
  split
  · exact hhalves
  · split
    · exact (coherent_foldl_chargeEvent _ _ hhalves).of_view rfl rfl
    · exact hhalves.of_view rfl rfl

theorem coherent_creditInterrupts (h : t.Coherent) (n : ℕ) : (t.creditInterrupts n).Coherent := by
  unfold creditInterrupts
  split
  · exact h.of_view rfl rfl
  · exact h

theorem coherent_finishPendingArm (h : t.Coherent) : t.finishPendingArm.Coherent := by
  unfold finishPendingArm
  split
  · exact coherent_finishArm h
  · exact h

theorem coherent_decayActivity (h : t.Coherent) (n : ℕ) : (t.decayActivity n).Coherent :=
  h.of_view rfl rfl

theorem coherent_tickFast (h : t.Coherent) (n : ℕ) : (t.tickFast n).Coherent := by
  unfold tickFast tickBegin
  generalize t.tickCycles n = spent
  apply coherent_decayHold
  apply coherent_decayPollHold
  apply coherent_decayActivity
  apply coherent_checkDeadline
  apply coherent_finishPendingArm
  apply coherent_creditInterrupts
  exact coherent_charge h n

/-! ### Runs -/

theorem coherent_construct (hook : Bool) :
    Coherent { construct with timingHook := hook } :=
  ⟨⟨rfl, rfl⟩, ⟨fun _ => Or.inl ⟨rfl, rfl, rfl⟩, fun _ => rfl⟩⟩

theorem coherent_reset (t : Timing) : t.reset.Coherent :=
  ⟨⟨rfl, rfl⟩, ⟨fun _ => Or.inl ⟨rfl, rfl, rfl⟩, fun _ => rfl⟩⟩

theorem coherent_invariant : TimingInvariant Coherent where
  notePollHold _ := coherent_notePollHold
  noteIECActivity _ := coherent_noteIECActivity
  acknowledgeICR _ h := h.of_view rfl rfl
  noteBusAccess _ _ _ h := coherent_noteTimingEvent h _
  noteMirrorWrite _ := coherent_noteMirrorWrite
  noteFastHalfCycles _ _ h := h.of_view rfl rfl
  endPollHold _ := coherent_endPollHold
  cia2TimerWrite _ a v h := coherent_timerWrite h a v
  checkDeadline _ := coherent_checkDeadline
  latchInterrupts _ _ _ h := h.of_view rfl rfl
  selectSpeed _ hz h := coherent_selectSpeed h hz
  breakRun _ h := h.of_view rfl rfl
  reset t _ := coherent_reset t
  setNMIRetime _ _ h := InScale.recompute (h.toInScale.of_view rfl)
  enablePostedWriteTiming _ on h := coherent_enablePostedWriteTiming h on
  switches _ _ _ _ _ _ h := h.of_view rfl rfl
  realTime _ _ _ _ _ _ h := h.of_view rfl rfl

end Timing

variable {ρ : Type}

/-- After every run of operations on a fresh memory, both factors are the one in force and
the cached deadline is the nearest one. -/
theorem timing_coherent (board : Board ρ) (depth : ℕ) (m : CC64Memory) (outside : WithREU ρ)
    (hook : Bool) (ops : List (MemoryOp (WithREU ρ))) :
    (run (memoryStep (board.env depth))
      ⟨{ m with timing := { Timing.construct with timingHook := hook } }, outside⟩
        ops).memory.timing.Coherent := by
  have henv := env_keeps board Timing.coherent_invariant.keptByAccesses depth
  refine run_invariant (memoryStep (board.env depth)) (P := OnTiming Timing.Coherent) ?_ _ ops
    (Timing.coherent_construct hook)
  intro s op h
  by_cases hop : ∃ n, op = .tick n
  · obtain ⟨n, rfl⟩ := hop
    exact onTiming_tickFast Timing.coherent_invariant.realTime
      (fun t ht => Timing.coherent_tickFast ht n) s h
  · rw [not_exists] at hop
    exact onTiming_program Timing.coherent_invariant henv hop s h

end ScpuEmu
