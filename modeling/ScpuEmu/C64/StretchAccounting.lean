import ScpuEmu.C64.TimingRuns

/-!
# The accounts of a stretched tick

With the turbo on, a tick charges the half cycles of slow regions and the accesses to the
C64's bus on top of the cycles of the core. At a constant factor every cycle of the clock
is accounted for, no half cycle is lost, and every I/O access ends on a cycle of the C64.
-/

namespace ScpuEmu

open Library

namespace Timing

variable {F : ℕ} {t t' u : Timing}

section Definitions

/-- What an instruction reports before its tick. -/
inductive Report
  | busAccess (a : Addr) (write : Bool)
  | mirrorWrite
  | fastHalfCycles (n : ℕ)

def Report.op : Report → TimingOp
  | .busAccess a write => .noteBusAccess a write
  | .mirrorWrite => .noteMirrorWrite
  | .fastHalfCycles n => .noteFastHalfCycles n

def Report.halves : Report → ℕ
  | .fastHalfCycles n => n
  | .busAccess _ _ | .mirrorWrite => 0

/-- An instruction with what it reports, and the cycles it is ticked for. -/
structure Instruction where
  reports : List Report
  cycles : ℕ

def Instruction.halves (i : Instruction) : ℕ := (i.reports.map Report.halves).sum

/-- The state in which the tick of the instruction begins. -/
def reported (t : Timing) (i : Instruction) : Timing := run step t (i.reports.map Report.op)

def instruction (t : Timing) (i : Instruction) : Timing := (t.reported i).step (.tick i.cycles)

/-- The tick up to the accesses to the bus. -/
def advance (t : Timing) (n : ℕ) : Timing :=
  { t with emuCycles := t.emuCycles + n }.chargeFastHalves

/-- A constant factor, with I/O stretching on. -/
structure Steady (F : ℕ) (t : Timing) : Prop where
  factor : t.effectiveCIAFactor = F
  turbo : 1 < F
  stretch : t.ioStretchEnable = true

/-- The clock advanced by `cycles` and by what is reported as stretch, and `halves` half cycles
came in. -/
structure Accounted (cycles halves : ℕ) (t t' : Timing) : Prop where
  clock : t'.emuCycles + (t.regionStretchCycles + t.ioStretchCycles + t.mirrorStretchCycles) =
    t.emuCycles + cycles +
      (t'.regionStretchCycles + t'.ioStretchCycles + t'.mirrorStretchCycles)
  carry : 2 * t'.regionStretchCycles + t'.fastHalfCarry + t'.pendingFastHalfCycles =
    2 * t.regionStretchCycles + t.fastHalfCarry + t.pendingFastHalfCycles + halves

/-- All half cycles are charged, or at most one is carried on. -/
structure HalvesCharged (t t' : Timing) : Prop where
  pending : t'.pendingFastHalfCycles = 0
  carry : t.fastHalfCarry ≤ 1 → t'.fastHalfCarry ≤ 1

/-- An I/O access after the posted write: it aligns by one cycle up to `F`, a write of a CIA
takes another `F`, and it ends on a multiple of `F`. -/
structure CostsIO (F : ℕ) (event : BusTimingEvent) (t t' : Timing) : Prop where
  aligned : F ∣ t'.emuCycles
  drained : t'.mirrorStretchCycles =
    t.mirrorStretchCycles + (t.mirrorBufferFreeAt - t.emuCycles)
  cost : ∃ wait, 1 ≤ wait ∧ wait ≤ F ∧
    t'.emuCycles = max t.emuCycles t.mirrorBufferFreeAt + wait +
      (if event = .ciaWrite then F else 0) ∧
    t'.ioStretchCycles = t.ioStretchCycles + wait + (if event = .ciaWrite then F else 0)

end Definitions

section Phase

theorem untilPhase_spec (hF : 0 < F) (e : ℕ) :
    1 ≤ untilPhase e F ∧ untilPhase e F ≤ F ∧ F ∣ e + untilPhase e F := by
  have hphase := Nat.mod_lt e hF
  have hsplit := Nat.div_add_mod e F
  rw [untilPhase]
  split
  · refine ⟨by omega, by omega, e / F + 1, ?_⟩
    rw [Nat.mul_add, Nat.mul_one]
    omega
  · next hzero =>
    refine ⟨hF, le_rfl, e / F + 1, ?_⟩
    rw [Nat.mul_add, Nat.mul_one]
    omega

/-- Less than a cycle past a boundary, the rest of it completes the cycle. -/
theorem add_untilPhase {n e : ℕ} (hn : n < F) (he : F ∣ e) : n + untilPhase (e + n) F = F := by
  have hphase : (e + n) % F = n := by
    rw [Nat.add_mod, Nat.mod_eq_zero_of_dvd he, Nat.zero_add, Nat.mod_mod, Nat.mod_eq_of_lt hn]
  rw [untilPhase, hphase]
  split <;> omega

end Phase

section Accounts

theorem Accounted.refl (t : Timing) : Accounted 0 0 t t := ⟨by omega, by omega⟩

theorem Accounted.trans {c h c' h' : ℕ} (hd : Accounted c h t t') (hd' : Accounted c' h' t' u) :
    Accounted (c + c') (h + h') t u := by
  obtain ⟨hclock, hcarry⟩ := hd
  obtain ⟨hclock', hcarry'⟩ := hd'
  exact ⟨by omega, by omega⟩

theorem accounted_cycles (t : Timing) (n : ℕ) :
    Accounted n 0 t { t with emuCycles := t.emuCycles + n } := ⟨rfl, rfl⟩

/-- All pending half cycles are charged or carried. -/
theorem accounted_chargeFastHalves (h : t.Steady F) :
    Accounted 0 0 t t.chargeFastHalves ∧ t.HalvesCharged t.chargeFastHalves := by
  have hcharged : t.ioStretchEnable = true ∧ 1 < t.effectiveCIAFactor :=
    ⟨h.stretch, h.factor ▸ h.turbo⟩
  unfold chargeFastHalves
  dsimp only
  rw [if_pos hcharged]
  split
  · refine ⟨⟨?_, ?_⟩, rfl, fun _ => ?_⟩
    · dsimp only
      omega
    · have hhalves := Nat.div_add_mod (t.pendingFastHalfCycles + t.fastHalfCarry) 2
      dsimp only
      omega
    · have hrest := Nat.mod_lt (t.pendingFastHalfCycles + t.fastHalfCarry) Nat.zero_lt_two
      exact Nat.le_of_lt_succ hrest
  · next hnone => exact ⟨.refl t, not_not.mp hnone, id⟩

theorem HalvesCharged.trans (h : t.HalvesCharged t') (h' : t'.HalvesCharged u) :
    t.HalvesCharged u :=
  ⟨h'.pending, h'.carry ∘ h.carry⟩

theorem halvesCharged_foldl (h : t.HalvesCharged t') (events : List BusTimingEvent) :
    t.HalvesCharged (events.foldl (chargeEvent F) t') := by
  have hevent (t' : Timing) (event : BusTimingEvent) (h : t.HalvesCharged t') :
      t.HalvesCharged (chargeEvent F t' event) := by
    obtain ⟨hpending, hcarry⟩ := h
    cases event <;> simp only [chargeEvent, awaitMirrorBuffer] <;> split <;>
      exact ⟨hpending, hcarry⟩
  induction events generalizing t' with
  | nil => exact h
  | cons event events ih => exact ih (hevent t' event h)

theorem accounted_chargeEvent (t : Timing) (event : BusTimingEvent) :
    Accounted 0 0 t (chargeEvent F t event) := by
  cases event <;> simp only [chargeEvent, awaitMirrorBuffer] <;> split <;> constructor <;>
    dsimp only <;> omega

theorem accounted_foldl (events : List BusTimingEvent) (t : Timing) :
    Accounted 0 0 t (events.foldl (chargeEvent F) t) := by
  induction events generalizing t with
  | nil => exact .refl t
  | cons event events ih => exact (accounted_chargeEvent t event).trans (ih _)

/-- What an I/O access costs. -/
theorem costsIO_chargeEvent (hF : 0 < F) (hstretch : t.ioStretchEnable = true)
    {event : BusTimingEvent} (hevent : event ≠ .mirrorWrite) :
    CostsIO F event t (chargeEvent F t event) := by
  have hdrain : t.emuCycles + (t.mirrorBufferFreeAt - t.emuCycles) =
      max t.emuCycles t.mirrorBufferFreeAt := by omega
  obtain ⟨hpos, hle, hdvd⟩ := untilPhase_spec hF (max t.emuCycles t.mirrorBufferFreeAt)
  cases event with
  | mirrorWrite => exact absurd rfl hevent
  | io =>
      simp only [chargeEvent, awaitMirrorBuffer, hstretch, hdrain]
      exact ⟨hdvd, rfl, _, hpos, hle, rfl, rfl⟩
  | ciaWrite =>
      simp only [chargeEvent, awaitMirrorBuffer, hstretch, hdrain]
      refine ⟨?_, rfl, _, hpos, hle, (Nat.add_assoc _ _ _).symm, (Nat.add_assoc _ _ _).symm⟩
      change F ∣ _ + (_ + F)
      rw [← Nat.add_assoc]
      exact Nat.dvd_add hdvd (Nat.dvd_refl F)

end Accounts

section Ticks

/-- The fields that the accounts and the rate are kept in. -/
structure CostView where
  emuCycles : ℕ
  mirrorBufferFreeAt : ℕ
  pendingFastHalfCycles : ℕ
  fastHalfCarry : ℕ
  ioStretchCycles : ℕ
  mirrorStretchCycles : ℕ
  regionStretchCycles : ℕ
  iecHoldCycles : ℕ
  iecPollHoldCycles : ℕ
  pacingCheckCycles : ℕ
  ioStretchEnable : Bool

def costView (t : Timing) : CostView where
  emuCycles := t.emuCycles
  mirrorBufferFreeAt := t.mirrorBufferFreeAt
  pendingFastHalfCycles := t.pendingFastHalfCycles
  fastHalfCarry := t.fastHalfCarry
  ioStretchCycles := t.ioStretchCycles
  mirrorStretchCycles := t.mirrorStretchCycles
  regionStretchCycles := t.regionStretchCycles
  iecHoldCycles := t.iecHoldCycles
  iecPollHoldCycles := t.iecPollHoldCycles
  pacingCheckCycles := t.pacingCheckCycles
  ioStretchEnable := t.ioStretchEnable

theorem Accounted.of_view {c h : ℕ} (hd : Accounted c h t u) (hview : t'.costView = u.costView) :
    Accounted c h t t' := by
  simp only [costView, CostView.mk.injEq] at hview
  obtain ⟨hemu, -, hpending, hcarry, hio, hmirror, hregion, -⟩ := hview
  exact ⟨by rw [hemu, hio, hmirror, hregion]; exact hd.clock,
    by rw [hpending, hcarry, hregion]; exact hd.carry⟩

theorem HalvesCharged.of_view (h : t.HalvesCharged u) (hview : t'.costView = u.costView) :
    t.HalvesCharged t' := by
  simp only [costView, CostView.mk.injEq] at hview
  obtain ⟨-, -, hpending, hcarry, -⟩ := hview
  refine ⟨hpending.trans h.pending, fun hle => ?_⟩
  rw [hcarry]
  exact h.carry hle

theorem emuCycles_of_view (hview : t'.costView = u.costView) : t'.emuCycles = u.emuCycles := by
  simp only [costView, CostView.mk.injEq] at hview
  exact hview.1

theorem Steady.of_view (h : u.Steady F) (hview : t'.costView = u.costView) : t'.Steady F := by
  simp only [costView, CostView.mk.injEq] at hview
  obtain ⟨-, -, -, -, -, -, -, hhold, hpoll, hcheck, hstretch⟩ := hview
  refine ⟨?_, h.turbo, hstretch.trans h.stretch⟩
  rw [← h.factor, effectiveCIAFactor, effectiveCIAFactor, hhold, hpoll, hcheck]

/-- A factor above one means that no hold is on. -/
theorem Steady.holds (h : t.Steady F) : t.iecHoldCycles = 0 ∧ t.iecPollHoldCycles = 0 := by
  by_contra hne
  have hslow : t.effectiveCIAFactor = 1 := by
    rw [effectiveCIAFactor, if_pos]
    omega
  have hfactor := h.factor
  have hturbo := h.turbo
  omega

theorem costView_onRateChange (t : Timing) : t.cia2OnRateChange.costView = t.costView := by
  unfold cia2OnRateChange bankSegment
  dsimp only
  split_ifs <;> rfl

theorem costView_finishPendingArm (t : Timing) : t.finishPendingArm.costView = t.costView := by
  have harm (u : Timing) : u.armTimerA.armTimerB.costView = u.costView := by
    unfold armTimerB armTimerA
    split_ifs <;> rfl
  have hclear (u : Timing) :
      { u with cia2ArmPending := 0 }.cia2RecomputeNMIState.costView = u.costView := rfl
  unfold finishPendingArm
  split
  · rw [cia2FinishArm, hclear, harm, costView_onRateChange]
  · rfl

theorem costView_checkDeadline (t : Timing) : t.checkDeadline.costView = t.costView := by
  have hA (u : Timing) : u.timerADue.costView = u.costView := by
    unfold timerADue
    dsimp only
    split_ifs <;> rfl
  have hB (u : Timing) : u.timerBDue.costView = u.costView := by
    unfold timerBDue
    dsimp only
    split_ifs <;> rfl
  have hdeliver (u : Timing) : u.cia2MaybeDeliverSynthNMI.costView = u.costView := by
    unfold cia2MaybeDeliverSynthNMI
    split <;> rfl
  have hrecompute (u : Timing) : u.cia2RecomputeNMIState.costView = u.costView := rfl
  unfold checkDeadline
  split
  · rw [ciaTimerNMIDue, hrecompute, hdeliver, hB, hA, costView_onRateChange]
  · rfl

/-- Without a hold, the rest of a tick leaves the costs alone. -/
theorem costView_tickFast {n : ℕ} (h : (t.charge n).Steady F) :
    (t.tickFast n).costView = (t.charge n).costView := by
  obtain ⟨s, hs⟩ : ∃ s, s = ((((t.charge n).creditInterrupts (t.tickCycles n)).finishPendingArm
    ).checkDeadline).decayActivity (t.tickCycles n) := ⟨_, rfl⟩
  have hcredit : ((t.charge n).creditInterrupts (t.tickCycles n)).costView =
      (t.charge n).costView := by
    unfold creditInterrupts
    split <;> rfl
  have hdecay (u : Timing) (k : ℕ) : (u.decayActivity k).costView = u.costView := rfl
  have hview : s.costView = (t.charge n).costView := by
    rw [hs, hdecay, costView_checkDeadline, costView_finishPendingArm, hcredit]
  obtain ⟨hhold, hpoll⟩ := (h.of_view hview).holds
  have hinactive : s.iecActive = false := by
    rw [iecActive, hhold, hpoll]
    rfl
  have hsame : t.tickFast n = s := by
    have hpollSame : s.decayPollHold (t.tickCycles n) = s := if_neg (not_not.mpr hpoll)
    unfold tickFast tickBegin
    dsimp only
    rw [← hs, hpollSame, decayHold_of_inactive hinactive]
  rw [hsame, hview]

theorem steady_chargeEvent (h : t.Steady F) (event : BusTimingEvent) :
    (chargeEvent F t event).Steady F := by
  cases event <;> simp only [chargeEvent, awaitMirrorBuffer] <;> split <;>
    exact ⟨h.factor, h.turbo, h.stretch⟩

theorem steady_foldl (h : t.Steady F) (events : List BusTimingEvent) :
    (events.foldl (chargeEvent F) t).Steady F := by
  induction events generalizing t with
  | nil => exact h
  | cons event events ih => exact ih (steady_chargeEvent h event)

theorem steady_advance (h : t.Steady F) (n : ℕ) : (t.advance n).Steady F := by
  unfold advance chargeFastHalves
  dsimp only
  split_ifs <;> exact ⟨h.factor, h.turbo, h.stretch⟩

theorem busEvents_advance (t : Timing) (n : ℕ) : (t.advance n).busEvents = t.busEvents := by
  unfold advance chargeFastHalves
  dsimp only
  split_ifs <;> rfl

/-- A tick charges the accesses of the queue one after the other. -/
theorem costView_charge (h : t.Steady F) (n : ℕ) :
    (t.charge n).costView = (t.busEvents.foldl (chargeEvent F) (t.advance n)).costView := by
  have hadvance := steady_advance h n
  change (t.advance n).chargeBusEvents.costView = _
  unfold chargeBusEvents
  dsimp only
  rw [busEvents_advance, hadvance.factor, if_pos h.turbo]
  split
  · next hempty =>
    rw [hempty]
    rfl
  · rfl

theorem costView_tick (h : t.Steady F) (n : ℕ) :
    (t.tickFast n).costView = (t.busEvents.foldl (chargeEvent F) (t.advance n)).costView := by
  have hcharge := costView_charge h n
  have hsteady : (t.charge n).Steady F :=
    (steady_foldl (steady_advance h n) t.busEvents).of_view hcharge
  rw [costView_tickFast hsteady, hcharge]

theorem steady_tick (h : t.Steady F) (n : ℕ) : (t.tickFast n).Steady F :=
  (steady_foldl (steady_advance h n) t.busEvents).of_view (costView_tick h n)

theorem accounted_tick (h : t.Steady F) (n : ℕ) : Accounted n 0 t (t.tickFast n) := by
  have hcycles : Steady F { t with emuCycles := t.emuCycles + n } := ⟨h.factor, h.turbo, h.stretch⟩
  have hadvance : Accounted n 0 t (t.advance n) :=
    (accounted_cycles t n).trans (accounted_chargeFastHalves hcycles).1
  exact (hadvance.trans (accounted_foldl t.busEvents _)).of_view (costView_tick h n)

theorem halvesCharged_tick (h : t.Steady F) (n : ℕ) : t.HalvesCharged (t.tickFast n) := by
  have hcycles : Steady F { t with emuCycles := t.emuCycles + n } := ⟨h.factor, h.turbo, h.stretch⟩
  obtain ⟨hpending, hcarry⟩ := (accounted_chargeFastHalves hcycles).2
  have hadvance : t.HalvesCharged (t.advance n) := ⟨hpending, hcarry⟩
  exact (halvesCharged_foldl hadvance t.busEvents).of_view (costView_tick h n)

/-- A short tick with one I/O access fills one cycle of the C64. -/
theorem emuCycles_one_access (h : t.Steady F) {n : ℕ} (hshort : n < F) (haligned : F ∣ t.emuCycles)
    (hfree : t.mirrorBufferFreeAt ≤ t.emuCycles) (hhalves : t.pendingFastHalfCycles = 0)
    (hone : t.busEvents = [.io]) : (t.tickFast n).emuCycles = t.emuCycles + F := by
  have hadvance : t.advance n = { t with emuCycles := t.emuCycles + n } :=
    if_neg (not_not.mpr hhalves)
  have hdrain : t.mirrorBufferFreeAt - (t.emuCycles + n) = 0 := by omega
  have hcost : (chargeEvent F (t.advance n) .io).emuCycles =
      t.emuCycles + n + untilPhase (t.emuCycles + n) F := by
    rw [hadvance]
    simp [chargeEvent, awaitMirrorBuffer, h.stretch, hdrain]
  have hclock := emuCycles_of_view (costView_tick h n)
  rw [hone] at hclock
  rw [Nat.add_assoc, add_untilPhase hshort haligned] at hcost
  exact hclock.trans hcost

end Ticks

section Runs

/-- A report takes no time; it brings its half cycles. -/
theorem costView_report (t : Timing) (r : Report) :
    (t.step r.op).costView =
      { t.costView with pendingFastHalfCycles := t.pendingFastHalfCycles + r.halves } := by
  have hnote (u : Timing) (event : BusTimingEvent) :
      (u.noteTimingEvent event).costView = u.costView := by
    unfold noteTimingEvent
    split <;> rfl
  cases r with
  | busAccess a write => exact hnote t _
  | mirrorWrite =>
      show t.noteMirrorWrite.costView = t.costView
      unfold noteMirrorWrite
      dsimp only
      split_ifs
      · exact hnote t _
      · exact hnote t _
      · rfl
  | fastHalfCycles n => rfl

theorem costView_reports (t : Timing) (reports : List Report) :
    (run step t (reports.map Report.op)).costView =
      { t.costView with
        pendingFastHalfCycles := t.pendingFastHalfCycles + (reports.map Report.halves).sum } := by
  induction reports generalizing t with
  | nil => rfl
  | cons r reports ih =>
      have hreport := costView_report t r
      have hpending : (t.step r.op).pendingFastHalfCycles = t.pendingFastHalfCycles + r.halves :=
        congrArg CostView.pendingFastHalfCycles hreport
      rw [List.map_cons, run_cons, ih, hreport, hpending, Nat.add_assoc]
      rfl

theorem accounted_reported (h : t.Steady F) (i : Instruction) :
    Accounted 0 i.halves t (t.reported i) ∧ (t.reported i).Steady F := by
  have hview := costView_reports t i.reports
  let u : Timing := { t with pendingFastHalfCycles := t.pendingFastHalfCycles + i.halves }
  have hbrought : Accounted 0 i.halves t u := ⟨rfl, (Nat.add_assoc _ _ _).symm⟩
  exact ⟨hbrought.of_view hview, Steady.of_view (u := u) ⟨h.factor, h.turbo, h.stretch⟩ hview⟩

theorem instruction_eq (t : Timing) (i : Instruction) :
    t.instruction i = (t.reported i).tickFast i.cycles := rfl

theorem accounted_instruction (h : t.Steady F) (i : Instruction) :
    Accounted i.cycles i.halves t (t.instruction i) ∧ (t.instruction i).Steady F := by
  obtain ⟨hreports, hsteady⟩ := accounted_reported h i
  have htick := hreports.trans (accounted_tick hsteady i.cycles)
  rw [Nat.zero_add, Nat.add_zero] at htick
  rw [instruction_eq]
  exact ⟨htick, steady_tick hsteady i.cycles⟩

theorem accounted_run (h : t.Steady F) (is : List Instruction) :
    Accounted (is.map Instruction.cycles).sum (is.map Instruction.halves).sum t
        (run instruction t is) ∧
      (run instruction t is).Steady F := by
  induction is generalizing t with
  | nil => exact ⟨.refl t, h⟩
  | cons i is ih =>
      obtain ⟨hfirst, hsteady⟩ := accounted_instruction h i
      obtain ⟨hrest, hend⟩ := ih hsteady
      rw [run_cons]
      exact ⟨hfirst.trans hrest, hend⟩

/-- Reports leave the carry alone, so what a tick settles is settled since before them. -/
theorem halvesCharged_instruction (h : t.Steady F) (i : Instruction) :
    t.HalvesCharged (t.instruction i) := by
  have htick := halvesCharged_tick (accounted_reported h i).2 i.cycles
  have hcarry : (t.reported i).fastHalfCarry = t.fastHalfCarry :=
    congrArg CostView.fastHalfCarry (costView_reports t i.reports)
  exact ⟨htick.pending, hcarry ▸ htick.carry⟩

theorem halvesCharged_run (h : t.Steady F) {is : List Instruction} (hsome : is ≠ []) :
    t.HalvesCharged (run instruction t is) := by
  induction is generalizing t with
  | nil => exact absurd rfl hsome
  | cons i is ih =>
      have hfirst := halvesCharged_instruction h i
      rw [run_cons]
      by_cases hrest : is = []
      · rw [hrest]
        exact hfirst
      · exact hfirst.trans (ih (accounted_instruction h i).2 hrest)

/-- The clock after an instruction is where its last access leaves it. -/
theorem emuCycles_instruction (h : t.Steady F) (i : Instruction) :
    (t.instruction i).emuCycles =
      ((t.reported i).busEvents.foldl (chargeEvent F)
        ((t.reported i).advance i.cycles)).emuCycles := by
  rw [instruction_eq]
  exact emuCycles_of_view (costView_tick (accounted_reported h i).2 i.cycles)

/-- A short instruction that starts on a cycle of the C64, makes one I/O access and reports no
half cycle fills one cycle. -/
theorem emuCycles_lone_access (h : t.Steady F) {i : Instruction} (hshort : i.cycles < F)
    (haligned : F ∣ t.emuCycles) (hfree : t.mirrorBufferFreeAt ≤ t.emuCycles)
    (hsettled : t.pendingFastHalfCycles = 0) (hhalves : i.halves = 0)
    (hone : (t.reported i).busEvents = [.io]) :
    (t.instruction i).emuCycles = t.emuCycles + F := by
  have hview := costView_reports t i.reports
  have hclock : (t.reported i).emuCycles = t.emuCycles := congrArg CostView.emuCycles hview
  have hbuffer : (t.reported i).mirrorBufferFreeAt = t.mirrorBufferFreeAt :=
    congrArg CostView.mirrorBufferFreeAt hview
  have hpending : (t.reported i).pendingFastHalfCycles = t.pendingFastHalfCycles + i.halves :=
    congrArg CostView.pendingFastHalfCycles hview
  have hlone := emuCycles_one_access (accounted_reported h i).2 hshort
  rw [hclock, hbuffer, hpending, hsettled, hhalves] at hlone
  exact hlone haligned hfree rfl hone

/-- In every run at a constant factor the clock advances by the cycles of the core and the
reported stretch, and all half cycles are charged but one that is carried; in every instruction
that may follow, the I/O accesses of the queue end on cycles of the C64 at their price, and a
lone one fills its cycle. -/
theorem stretch_accounting {F : ℕ} (hF : 1 < F) (t : Timing) (hfactor : t.effectiveCIAFactor = F)
    (hstretch : t.ioStretchEnable = true) (is : List Instruction) :
    let t' := run instruction t is
    Accounted (is.map Instruction.cycles).sum (is.map Instruction.halves).sum t t' ∧
    (is ≠ [] → t.HalvesCharged t') ∧
    ∀ i : Instruction,
      let queued := t'.reported i
      (t'.instruction i).emuCycles =
          (queued.busEvents.foldl (chargeEvent F) (queued.advance i.cycles)).emuCycles ∧
      (∀ before event after, queued.busEvents = before ++ event :: after → event ≠ .mirrorWrite →
        let s := before.foldl (chargeEvent F) (queued.advance i.cycles)
        CostsIO F event s (chargeEvent F s event)) ∧
      (i.cycles < F → F ∣ t'.emuCycles → t'.mirrorBufferFreeAt ≤ t'.emuCycles →
        t'.pendingFastHalfCycles = 0 → i.halves = 0 → queued.busEvents = [.io] →
        (t'.instruction i).emuCycles = t'.emuCycles + F) := by
  intro t'
  have hstart : t.Steady F := ⟨hfactor, hF, hstretch⟩
  obtain ⟨haccounted, hsteady⟩ := accounted_run hstart is
  refine ⟨haccounted, fun hsome => halvesCharged_run hstart hsome, fun i => ?_⟩
  intro queued
  have hqueued : queued.Steady F := (accounted_reported hsteady i).2
  refine ⟨emuCycles_instruction hsteady i, fun before event after _ hevent => ?_, ?_⟩
  · have hbefore := steady_foldl (steady_advance hqueued i.cycles) before
    exact costsIO_chargeEvent (Nat.zero_lt_of_lt hF) hbefore.stretch hevent
  · intro hshort haligned hfree hsettled hhalves hone
    exact emuCycles_lone_access hsteady hshort haligned hfree hsettled hhalves hone

/-- At a factor of twenty, an instruction of six cycles with three half cycles charges one cycle
more; after it, a poll of $D012 from the next boundary takes one cycle of the C64. -/
theorem stretch_accounting_poll :
    let turbo : Timing := { construct with pacingCheckCycles := 20 }
    let slow : Instruction := ⟨[.fastHalfCycles 3, .busAccess 0xD012 false], 6⟩
    let poll : Instruction := ⟨[.busAccess 0xD012 false], 9⟩
    let t' := turbo.instruction slow
    (t'.pendingFastHalfCycles = 0 ∧ 2 * t'.regionStretchCycles + t'.fastHalfCarry = 3) ∧
      (t'.instruction poll).emuCycles = t'.emuCycles + 20 := by
  intro turbo slow poll t'
  have hmain := stretch_accounting (F := 20) (by decide) turbo rfl rfl [slow]
  rw [run_cons, run_nil] at hmain
  obtain ⟨haccounted, hcharged, hnext⟩ := hmain
  have hpending : t'.pendingFastHalfCycles = 0 := (hcharged (List.cons_ne_nil _ _)).pending
  have hbrought : 2 * turbo.regionStretchCycles + turbo.fastHalfCarry +
      turbo.pendingFastHalfCycles + ([slow].map Instruction.halves).sum = 3 := by decide
  have hcarry := haccounted.carry.trans hbrought
  rw [hpending, Nat.add_zero] at hcarry
  refine ⟨⟨hpending, hcarry⟩, (hnext poll).2.2 (by decide) ?_ ?_ hpending (by decide) ?_⟩
  · decide +kernel
  · decide +kernel
  · decide +kernel

end Runs

end Timing

end ScpuEmu
