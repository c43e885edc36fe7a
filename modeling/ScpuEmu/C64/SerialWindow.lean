import ScpuEmu.C64.TimingRuns

/-!
# The window of serial activity

Evidence of a serial transfer opens a window of 2000 emulated cycles. Nothing else touches
it but a reset and the passing of time, whatever happens to the hold that polls sustain.
-/

namespace ScpuEmu

open Library

namespace Timing

/-- A serial transfer is under way. -/
def iecBusActive (t : Timing) : Bool := decide (t.iecActivityCycles ≠ 0)

/-- What is left of the window, and the clock. -/
def activityView (t : Timing) : ℕ × ℕ := (t.iecActivityCycles, t.emuCycles)

variable {t : Timing}

theorem activityView_onRateChange (t : Timing) :
    t.cia2OnRateChange.activityView = t.activityView := by
  unfold cia2OnRateChange bankSegment
  dsimp only
  split_ifs <;> rfl

theorem activityView_transition (t : Timing) :
    t.cia2OnRateChange.callTimingHook.activityView = t.activityView :=
  activityView_onRateChange t

theorem activityView_notePollHold (t : Timing) : t.notePollHold.activityView = t.activityView := by
  unfold notePollHold
  dsimp only
  split_ifs
  · rfl
  · exact activityView_transition _
  · rfl
  · rfl

theorem activityView_noteTimingEvent (t : Timing) (event : BusTimingEvent) :
    (t.noteTimingEvent event).activityView = t.activityView := by
  unfold noteTimingEvent
  split <;> rfl

theorem activityView_noteBusAccess (t : Timing) (a : Addr) (write : Bool) :
    (t.noteBusAccess a write).activityView = t.activityView :=
  activityView_noteTimingEvent t _

theorem activityView_maybeDeliver (t : Timing) :
    t.cia2MaybeDeliverSynthNMI.activityView = t.activityView := by
  unfold cia2MaybeDeliverSynthNMI
  split <;> rfl

theorem activityView_timersDue (t : Timing) :
    t.timerADue.timerBDue.activityView = t.activityView := by
  have hA : t.timerADue.activityView = t.activityView := by
    unfold timerADue
    dsimp only
    split_ifs <;> rfl
  refine Eq.trans ?_ hA
  unfold timerBDue
  dsimp only
  split_ifs <;> rfl

theorem activityView_checkDeadline (t : Timing) :
    t.checkDeadline.activityView = t.activityView := by
  unfold checkDeadline ciaTimerNMIDue
  split
  · exact (activityView_maybeDeliver _).trans
      ((activityView_timersDue _).trans (activityView_onRateChange t))
  · rfl

theorem activityView_finishPendingArm (t : Timing) :
    t.finishPendingArm.activityView = t.activityView := by
  have harm (u : Timing) : u.armTimerA.armTimerB.activityView = u.activityView := by
    unfold armTimerB armTimerA
    split_ifs <;> rfl
  unfold finishPendingArm cia2FinishArm
  split
  · exact (harm _).trans (activityView_onRateChange t)
  · rfl

theorem activityView_decayPollHold (t : Timing) (n : ℕ) :
    (t.decayPollHold n).activityView = t.activityView := by
  unfold decayPollHold
  dsimp only
  split_ifs
  · exact activityView_transition _
  · rfl
  · rfl

theorem activityView_decayHold (t : Timing) (n : ℕ) :
    (t.decayHold n).activityView = t.activityView := by
  unfold decayHold
  dsimp only
  split_ifs
  · exact activityView_transition _
  · rfl
  · rfl

/-- A tick takes its cycles from the window, those that it charges included. -/
theorem activityView_tickFast (t : Timing) (n : ℕ) :
    (t.tickFast n).activityView =
      (t.iecActivityCycles - t.tickCycles n, t.emuCycles + t.tickCycles n) := by
  have hcharged := charged_tick t n
  have hemu := emuCycles_charged t n
  generalize hs : (t.charge n).creditInterrupts (t.tickCycles n) = s at hcharged hemu
  have hactivity : s.iecActivityCycles = t.iecActivityCycles := by rw [hcharged.eq]; rfl
  have hchecked : s.finishPendingArm.checkDeadline.activityView = s.activityView :=
    (activityView_checkDeadline _).trans (activityView_finishPendingArm s)
  simp only [activityView, Prod.mk.injEq] at hchecked
  rw [tickFast, tickBegin, hs, activityView_decayHold, activityView_decayPollHold, activityView,
    decayActivity, hchecked.1, hchecked.2, hactivity, hemu]

/-! ### The window is never longer than 2000 cycles -/

theorem activity_noteIECActivity (t : Timing) : t.noteIECActivity.iecActivityCycles = 2000 := by
  have hrate (u : Timing) (h : u.iecActivityCycles = 2000) :
      u.cia2OnRateChange.callTimingHook.iecActivityCycles = 2000 :=
    (congrArg Prod.fst (activityView_transition u)).trans h
  unfold noteIECActivity
  dsimp only
  split_ifs <;> first | exact hrate _ rfl | rfl

theorem activityView_ICRWrite (t : Timing) (v : Byte) :
    (t.cia2ICRWrite v).activityView = t.activityView := by
  unfold cia2ICRWrite
  dsimp only
  generalize (if v &&& 0x80#8 ≠ 0 then t.cia2ICRMask ||| (v &&& 0x1F#8)
    else t.cia2ICRMask &&& ~~~(v &&& 0x1F#8)) = mask
  split
  · rfl
  · exact activityView_maybeDeliver _

theorem activityView_TAControlWrite (t : Timing) (v : Byte) :
    (t.cia2TAControlWrite v).activityView = t.activityView := by
  unfold cia2TAControlWrite
  dsimp only
  split_ifs <;> rfl

theorem activityView_TBControlWrite (t : Timing) (v : Byte) :
    (t.cia2TBControlWrite v).activityView = t.activityView := by
  unfold cia2TBControlWrite
  dsimp only
  split_ifs <;> rfl

theorem activityView_timerRegister (t : Timing) (a : Addr) (v : Byte) :
    (t.cia2TimerRegister a v).activityView = t.activityView := by
  unfold cia2TimerRegister
  split_ifs
  · rfl
  · rfl
  · rfl
  · rfl
  · exact activityView_ICRWrite t v
  · exact activityView_TAControlWrite t v
  · exact activityView_TBControlWrite t v

theorem activityView_timerWrite (t : Timing) (a : Addr) (v : Byte) :
    (t.cia2TimerWrite a v).activityView = t.activityView := by
  unfold cia2TimerWrite
  dsimp only
  split
  · exact activityView_onRateChange t
  · split <;> exact (activityView_timerRegister _ a v).trans (activityView_onRateChange t)

theorem window_of_view {t t' : Timing} (h : t'.activityView = t.activityView)
    (ht : t.iecActivityCycles ≤ 2000) : t'.iecActivityCycles ≤ 2000 :=
  (congrArg Prod.fst h).trans_le ht

theorem window_accesses : AccessInvariant fun t => t.iecActivityCycles ≤ 2000 where
  notePollHold t := window_of_view (activityView_notePollHold t)
  noteIECActivity t _ := (activity_noteIECActivity t).le
  acknowledgeICR _ h := h
  noteBusAccess t a w := window_of_view (activityView_noteBusAccess t a w)
  noteMirrorWrite t := by
    unfold noteMirrorWrite
    dsimp only
    split_ifs
    · exact window_of_view (activityView_noteTimingEvent t _)
    · exact window_of_view (activityView_noteTimingEvent t _)
    · exact id
  noteFastHalfCycles _ _ h := h
  endPollHold t := by
    unfold endPollHold
    split
    · exact window_of_view (activityView_transition _)
    · exact id
  cia2TimerWrite t a v := window_of_view (activityView_timerWrite t a v)
  checkDeadline t := window_of_view (activityView_checkDeadline t)
  latchInterrupts _ _ _ h := h
  selectSpeed t hz := by
    refine window_of_view ((activityView_onRateChange _).trans ?_)
    dsimp only
    split <;> rfl
  breakRun _ h := h
  realTime _ _ _ _ _ _ h := h

theorem window_invariant : TimingInvariant fun t => t.iecActivityCycles ≤ 2000 where
  toAccessInvariant := window_accesses
  reset _ _ := Nat.zero_le _
  setNMIRetime _ _ h := h
  enablePostedWriteTiming t on := by
    unfold enablePostedWriteTiming
    split <;> exact id
  switches _ _ _ _ _ _ h := h

end Timing

/-- In every state that the memory reaches, at most 2000 cycles of the window are left. -/
theorem window_bounded {ρ : Type} (board : Board ρ) (depth : ℕ) (s : Machine (WithREU ρ))
    (hs : s.memory.timing.iecActivityCycles ≤ 2000) (ops : List (MemoryOp (WithREU ρ))) :
    (run (memoryStep (board.env depth)) s ops).memory.timing.iecActivityCycles ≤ 2000 := by
  have hwindow := Timing.window_invariant
  refine run_invariant (memoryStep (board.env depth))
    (P := OnTiming fun t => t.iecActivityCycles ≤ 2000) ?_ s ops hs
  intro u op h
  by_cases hop : ∃ n, op = .tick n
  · obtain ⟨n, rfl⟩ := hop
    refine onTiming_tickFast hwindow.realTime (fun t ht => ?_) u h
    exact (congrArg Prod.fst (Timing.activityView_tickFast t n)).trans_le
      ((Nat.sub_le _ _).trans ht)
  · rw [not_exists] at hop
    exact onTiming_program hwindow (env_keeps board hwindow.keptByAccesses depth) hop u h

end ScpuEmu
