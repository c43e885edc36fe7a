import ScpuEmu.C64.StretchAccounting

/-!
# The queue of accesses

Between two ticks the accesses to the C64's bus wait in a queue. A batch of instructions that
is ticked once pays for all of their accesses after all of their cycles, each access once and
in its order, as long as the queue has room. Where only the last instruction makes accesses,
this comes to the same as a tick after each.
-/

namespace ScpuEmu

open Library

/-- What an elementary change reports to the next tick. -/
def TimingOp.reports : TimingOp → List Timing.Report
  | .noteBusAccess a write => [.busAccess a write]
  | .noteMirrorWrite => [.mirrorWrite]
  | .noteFastHalfCycles n => [.fastHalfCycles n]
  | _ => []

namespace Timing

variable {F : ℕ} {t t' u : Timing}

section Definitions

/-- No tick, no reset, and no change of what is charged. -/
def Permits (t : Timing) : TimingOp → Prop
  | .tick _ | .reset | .enablePostedWriteTiming _ => False
  | .switches _ stretch mirrorStretch _ _ =>
      stretch = t.ioStretchEnable ∧ mirrorStretch = t.mirrorStretchEnable
  | _ => True

def PermitsAll : Timing → List TimingOp → Prop
  | _, [] => True
  | t, op :: ops => t.Permits op ∧ (t.step op).PermitsAll ops

/-- Accesses of the core lead from one state to the other, and report this to the next tick. -/
def Acts (t : Timing) (reports : List Report) (t' : Timing) : Prop :=
  ∃ ops, t.PermitsAll ops ∧ ops.flatMap TimingOp.reports = reports ∧ run step t ops = t'

/-- All that a charge depends on, apart from the rate. -/
structure Dues where
  emuCycles : ℕ
  mirrorBufferFreeAt : ℕ
  pendingFastHalfCycles : ℕ
  fastHalfCarry : ℕ
  busEvents : List BusTimingEvent
  ioStretchEnable : Bool
  mirrorStretchEnable : Bool
  postedWriteTimingEnable : Bool

def dues (t : Timing) : Dues where
  emuCycles := t.emuCycles
  mirrorBufferFreeAt := t.mirrorBufferFreeAt
  pendingFastHalfCycles := t.pendingFastHalfCycles
  fastHalfCarry := t.fastHalfCarry
  busEvents := t.busEvents
  ioStretchEnable := t.ioStretchEnable
  mirrorStretchEnable := t.mirrorStretchEnable
  postedWriteTimingEnable := t.postedWriteTimingEnable

/-- A batch that is ticked once, as one instruction. -/
def Instruction.merge (batch : List Instruction) : Instruction where
  reports := batch.flatMap Instruction.reports
  cycles := (batch.map Instruction.cycles).sum

/-- The event that a report queues. -/
def event? (t : Timing) : Report → Option BusTimingEvent
  | .busAccess a write => some (if write && a &&& 0xFE00#16 == 0xDC00 then .ciaWrite else .io)
  | .mirrorWrite =>
      if t.mirrorStretchEnable || t.postedWriteTimingEnable then some .mirrorWrite else none
  | .fastHalfCycles _ => none

/-- The events of an instruction, in program order. -/
def events (t : Timing) (i : Instruction) : List BusTimingEvent := i.reports.filterMap t.event?

instance (t : Timing) : Decidable (t.Steady F) :=
  decidable_of_iff (t.effectiveCIAFactor = F ∧ 1 < F ∧ t.ioStretchEnable = true)
    ⟨fun h => ⟨h.1, h.2.1, h.2.2⟩, fun h => ⟨h.factor, h.turbo, h.stretch⟩⟩

end Definitions

section Dues

theorem emuCycles_dues (t : Timing) : t.dues.emuCycles = t.emuCycles := rfl

theorem pendingFastHalfCycles_dues (t : Timing) :
    t.dues.pendingFastHalfCycles = t.pendingFastHalfCycles := rfl

theorem busEvents_dues (t : Timing) : t.dues.busEvents = t.busEvents := rfl

theorem event?_of_dues (h : t.dues = u.dues) : t.event? = u.event? := by
  simp only [dues, Dues.mk.injEq] at h
  obtain ⟨-, -, -, -, -, -, hmirror, hposted⟩ := h
  funext r
  cases r <;> simp [event?, hmirror, hposted]

theorem dues_noteTimingEvent (t : Timing) (event : BusTimingEvent) :
    (t.noteTimingEvent event).dues =
      { t.dues with
        busEvents :=
          if t.busEvents.length < busEventCapacity then t.busEvents ++ [event]
          else t.busEvents } := by
  unfold noteTimingEvent
  split <;> rfl

/-- A report brings its half cycles, and queues its event if there is room. -/
theorem dues_report (t : Timing) (r : Report) :
    (t.step r.op).dues =
      { t.dues with
        pendingFastHalfCycles := t.pendingFastHalfCycles + r.halves
        busEvents :=
          if t.busEvents.length < busEventCapacity then t.busEvents ++ (t.event? r).toList
          else t.busEvents } := by
  cases r with
  | busAccess a write => exact dues_noteTimingEvent t _
  | mirrorWrite =>
      have hwrite : t.noteMirrorWrite.dues =
          if t.mirrorStretchEnable || t.postedWriteTimingEnable then
            (t.noteTimingEvent .mirrorWrite).dues
          else t.dues := by
        unfold noteMirrorWrite
        dsimp only
        split_ifs <;> rfl
      show t.noteMirrorWrite.dues = _
      rw [hwrite, event?]
      split
      · exact dues_noteTimingEvent t _
      · simp [dues, Report.halves]
  | fastHalfCycles n => simp [dues, step, Report.op, Report.halves, noteFastHalfCycles, event?]

theorem dues_step (h : t.dues = u.dues) (r : Report) : (t.step r.op).dues = (u.step r.op).dues := by
  have hpending : t.pendingFastHalfCycles = u.pendingFastHalfCycles :=
    congrArg Dues.pendingFastHalfCycles h
  have hevents : t.busEvents = u.busEvents := congrArg Dues.busEvents h
  rw [dues_report, dues_report, h, hpending, hevents, event?_of_dues h]

theorem dues_onRateChange (t : Timing) : t.cia2OnRateChange.dues = t.dues := by
  unfold cia2OnRateChange bankSegment
  dsimp only
  split_ifs <;> rfl

theorem dues_callTimingHook (t : Timing) : t.callTimingHook.dues = t.dues := rfl

theorem dues_deliver (t : Timing) : t.cia2MaybeDeliverSynthNMI.dues = t.dues := by
  unfold cia2MaybeDeliverSynthNMI
  split <;> rfl

theorem dues_checkDeadline (t : Timing) : t.checkDeadline.dues = t.dues := by
  have hA (u : Timing) : u.timerADue.dues = u.dues := by
    unfold timerADue
    dsimp only
    split_ifs <;> rfl
  have hB (u : Timing) : u.timerBDue.dues = u.dues := by
    unfold timerBDue
    dsimp only
    split_ifs <;> rfl
  have hrecompute (u : Timing) : u.cia2RecomputeNMIState.dues = u.dues := rfl
  unfold checkDeadline
  split
  · rw [ciaTimerNMIDue, hrecompute, dues_deliver, hB, hA, dues_onRateChange]
  · rfl

theorem dues_cia2TimerRegister (t : Timing) (a : Addr) (v : Byte) :
    (t.cia2TimerRegister a v).dues = t.dues := by
  have hicr (u : Timing) : (u.cia2ICRWrite v).dues = u.dues := by
    unfold cia2ICRWrite
    generalize (if v &&& 0x80#8 ≠ 0 then _ else _) = mask
    dsimp only
    split
    · rfl
    · exact dues_deliver _
  unfold cia2TimerRegister
  split_ifs
  · rfl
  · rfl
  · rfl
  · rfl
  · exact hicr t
  · unfold cia2TAControlWrite
    split_ifs <;> rfl
  · unfold cia2TBControlWrite
    split_ifs <;> rfl

theorem dues_cia2TimerWrite (t : Timing) (a : Addr) (v : Byte) :
    (t.cia2TimerWrite a v).dues = t.dues := by
  have hwritten : (t.cia2OnRateChange.cia2TimerRegister a v).cia2RecomputeNMIState.dues = t.dues :=
    (dues_cia2TimerRegister _ a v).trans (dues_onRateChange t)
  unfold cia2TimerWrite
  dsimp only
  split_ifs
  · exact dues_onRateChange t
  · exact hwritten
  · exact hwritten

theorem dues_noteIECActivity (t : Timing) : t.noteIECActivity.dues = t.dues := by
  unfold noteIECActivity
  dsimp only
  split_ifs <;>
    first
    | rfl
    | (rw [dues_callTimingHook, dues_onRateChange]
       rfl)

/-- A change that reports nothing leaves the dues alone. -/
theorem dues_silent {op : TimingOp} (h : t.Permits op) (hsilent : op.reports = []) :
    (t.step op).dues = t.dues := by
  cases op with
  | tick | reset | enablePostedWriteTiming => exact absurd h id
  | noteBusAccess | noteMirrorWrite | noteFastHalfCycles => cases hsilent
  | switches => simp [step, dues, h.1, h.2]
  | notePollHold =>
      show t.notePollHold.dues = t.dues
      unfold notePollHold
      dsimp only
      split_ifs
      · rfl
      · exact dues_onRateChange _
      · rfl
      · rfl
  | noteIECActivity => exact dues_noteIECActivity t
  | endPollHold =>
      show t.endPollHold.dues = t.dues
      unfold endPollHold
      split
      · exact dues_onRateChange _
      · rfl
  | cia2TimerWrite a v => exact dues_cia2TimerWrite t a v
  | checkDeadline => exact dues_checkDeadline t
  | selectSpeed hz =>
      show (t.selectSpeed hz).dues = t.dues
      unfold selectSpeed
      dsimp only
      rw [dues_onRateChange]
      split <;> rfl
  | acknowledgeICR | latchInterrupts | setNMIRetime | realTime => rfl

end Dues

section Ticks

theorem dues_finishPendingArm (t : Timing) : t.finishPendingArm.dues = t.dues := by
  have harm (u : Timing) : u.armTimerA.armTimerB.dues = u.dues := by
    unfold armTimerB armTimerA
    split_ifs <;> rfl
  have hclear (u : Timing) :
      { u with cia2ArmPending := 0 }.cia2RecomputeNMIState.dues = u.dues := rfl
  unfold finishPendingArm
  split
  · rw [cia2FinishArm, hclear, harm, dues_onRateChange]
  · rfl

/-- What a tick does after it has charged leaves the dues alone. -/
theorem dues_tickFast (t : Timing) (n : ℕ) : (t.tickFast n).dues = (t.charge n).dues := by
  have hcredit (u : Timing) (k : ℕ) : (u.creditInterrupts k).dues = u.dues := by
    unfold creditInterrupts
    split <;> rfl
  have hpoll (u : Timing) (k : ℕ) : (u.decayPollHold k).dues = u.dues := by
    unfold decayPollHold
    dsimp only
    split_ifs
    · exact dues_onRateChange _
    · rfl
    · rfl
  have hhold (u : Timing) (k : ℕ) : (u.decayHold k).dues = u.dues := by
    unfold decayHold
    dsimp only
    split_ifs
    · exact dues_onRateChange _
    · rfl
    · rfl
  have hactivity (u : Timing) (k : ℕ) : (u.decayActivity k).dues = u.dues := rfl
  rw [tickFast, hhold, tickBegin, hpoll, hactivity, dues_checkDeadline, dues_finishPendingArm,
    hcredit]

theorem dues_advance (h : t.Steady F) (n : ℕ) :
    (t.advance n).dues =
      { t.dues with
        emuCycles := t.emuCycles + n +
          if t.pendingFastHalfCycles ≠ 0 then (t.pendingFastHalfCycles + t.fastHalfCarry) / 2 else 0
        fastHalfCarry :=
          if t.pendingFastHalfCycles ≠ 0 then (t.pendingFastHalfCycles + t.fastHalfCarry) % 2
          else t.fastHalfCarry
        pendingFastHalfCycles := 0 } := by
  have hcharged : t.ioStretchEnable = true ∧
      1 < effectiveCIAFactor { t with emuCycles := t.emuCycles + n } :=
    ⟨h.stretch, h.factor ▸ h.turbo⟩
  unfold advance chargeFastHalves
  dsimp only
  rw [if_pos hcharged]
  split
  · rfl
  · next hnone => simp [dues, not_not.mp hnone]

theorem dues_chargeEvent (h : t.dues = u.dues) (event : BusTimingEvent) :
    (chargeEvent F t event).dues = (chargeEvent F u event).dues := by
  simp only [dues, Dues.mk.injEq] at h
  obtain ⟨hemu, hfree, hpending, hcarry, hevents, hstretch, hmirror, hposted⟩ := h
  cases event <;>
    simp only [chargeEvent, awaitMirrorBuffer, hemu, hfree, hstretch, hmirror, hposted] <;>
    split <;> simp [dues, hpending, hcarry, hevents]

theorem dues_foldl (h : t.dues = u.dues) (events : List BusTimingEvent) :
    (events.foldl (chargeEvent F) t).dues = (events.foldl (chargeEvent F) u).dues := by
  induction events generalizing t u with
  | nil => exact h
  | cons event events ih => exact ih (dues_chargeEvent h event)

/-- A tick charges the queue and empties it. -/
theorem dues_tick (h : t.Steady F) (n : ℕ) :
    (t.tickFast n).dues =
      { (t.busEvents.foldl (chargeEvent F) (t.advance n)).dues with busEvents := [] } := by
  have hadvance := steady_advance h n
  rw [dues_tickFast]
  change (t.advance n).chargeBusEvents.dues = _
  unfold chargeBusEvents
  dsimp only
  rw [busEvents_advance, hadvance.factor, if_pos h.turbo]
  split
  · next hempty =>
    rw [hempty]
    show (t.advance n).dues = { (t.advance n).dues with busEvents := [] }
    rw [dues, busEvents_advance, hempty]
  · rfl

end Ticks

section Instructions

theorem dues_reports (h : t.dues = u.dues) (reports : List Report) :
    (run step t (reports.map Report.op)).dues = (run step u (reports.map Report.op)).dues := by
  induction reports generalizing t u with
  | nil => exact h
  | cons r reports ih => exact ih (dues_step h r)

/-- Elementary changes that are permitted leave the dues that their reports leave. -/
theorem dues_run {ops : List TimingOp} (hops : t.PermitsAll ops) (h : t.dues = u.dues) :
    (run step t ops).dues =
      (run step u ((ops.flatMap TimingOp.reports).map Report.op)).dues := by
  induction ops generalizing t u with
  | nil => exact h
  | cons op ops ih =>
      obtain ⟨hop, hops⟩ := hops
      rw [run_cons, List.flatMap_cons, List.map_append, run_append]
      apply ih hops
      cases hreports : op.reports with
      | nil => exact (dues_silent hop hreports).trans h
      | cons r rest =>
          have hop : op = r.op ∧ rest = [] := by
            cases op <;> cases hreports <;> exact ⟨rfl, rfl⟩
          rw [hop.1, hop.2]
          exact dues_step h r

theorem Acts.refl (t : Timing) : t.Acts [] t := ⟨[], trivial, rfl, rfl⟩

theorem acts_step {p : TimingOp} (h : t.Permits p) : t.Acts p.reports (t.step p) :=
  ⟨[p], ⟨h, trivial⟩, List.append_nil _, rfl⟩

/-- The flag that ends a slice of the core goes up and down unreported. -/
theorem acts_runBreak (t : Timing) (runBreak : Bool) :
    t.Acts [] { t with runBreak := runBreak } :=
  acts_step (p := .switches t.iecThrottleEnabled t.ioStretchEnable t.mirrorStretchEnable
    t.busKeepalive runBreak) ⟨rfl, rfl⟩

theorem permitsAll_append {ops ops' : List TimingOp} (h : t.PermitsAll ops)
    (h' : (run step t ops).PermitsAll ops') : t.PermitsAll (ops ++ ops') := by
  induction ops generalizing t with
  | nil => exact h'
  | cons op ops ih => exact ⟨h.1, ih h.2 h'⟩

theorem Acts.trans {reports reports' : List Report} (h : t.Acts reports t')
    (h' : t'.Acts reports' u) : t.Acts (reports ++ reports') u := by
  obtain ⟨ops, hops, rfl, rfl⟩ := h
  obtain ⟨ops', hops', rfl, rfl⟩ := h'
  exact ⟨ops ++ ops', permitsAll_append hops hops', List.flatMap_append, run_append step t ops ops'⟩

theorem acts_trans (h : ∃ reports, t.Acts reports t') (h' : ∃ reports, t'.Acts reports u) :
    ∃ reports, t.Acts reports u := by
  obtain ⟨reports, hacts⟩ := h
  obtain ⟨reports', hacts'⟩ := h'
  exact ⟨reports ++ reports', hacts.trans hacts'⟩

theorem acts_then {p : TimingOp} (h : ∃ reports, t.Acts reports u) (hp : u.Permits p) :
    ∃ reports, t.Acts reports (u.step p) := acts_trans h ⟨_, acts_step hp⟩

theorem Acts.dues {reports : List Report} (hacts : t.Acts reports t') (h : t.dues = u.dues) :
    t'.dues = (run step u (reports.map Report.op)).dues := by
  obtain ⟨ops, hops, rfl, rfl⟩ := hacts
  exact dues_run hops h

theorem dues_tick_congr (ht : t.Steady F) (hu : u.Steady F) (h : t.dues = u.dues) (n : ℕ) :
    (t.tickFast n).dues = (u.tickFast n).dues := by
  have hevents : t.busEvents = u.busEvents := congrArg Dues.busEvents h
  have hadvance : (t.advance n).dues = (u.advance n).dues := by
    rw [dues_advance ht, dues_advance hu, h]
    simp only [dues, Dues.mk.injEq] at h
    rw [h.1, h.2.2.1, h.2.2.2.1]
  rw [dues_tick ht, dues_tick hu, hevents, dues_foldl hadvance]

theorem event?_step (t : Timing) (r : Report) : (t.step r.op).event? = t.event? := by
  have h := dues_report t r
  simp only [dues, Dues.mk.injEq] at h
  obtain ⟨-, -, -, -, -, -, hmirror, hposted⟩ := h
  funext r
  cases r <;> simp [event?, hmirror, hposted]

/-- What a list of reports leaves to the next tick. -/
theorem dues_run_reports (hlength : t.busEvents.length ≤ busEventCapacity) (reports : List Report) :
    (run step t (reports.map Report.op)).dues =
      { t.dues with
        pendingFastHalfCycles := t.pendingFastHalfCycles + (reports.map Report.halves).sum
        busEvents := (t.busEvents ++ reports.filterMap t.event?).take busEventCapacity } := by
  induction reports generalizing t with
  | nil =>
      rw [List.filterMap_nil, List.append_nil, List.take_of_length_le hlength]
      rfl
  | cons r reports ih =>
      have hreport := dues_report t r
      have hpending : (t.step r.op).pendingFastHalfCycles = t.pendingFastHalfCycles + r.halves :=
        congrArg Dues.pendingFastHalfCycles hreport
      have hevents : (t.step r.op).busEvents =
          if t.busEvents.length < busEventCapacity then t.busEvents ++ (t.event? r).toList
          else t.busEvents := congrArg Dues.busEvents hreport
      have hroom : (t.step r.op).busEvents.length ≤ busEventCapacity := by
        rw [hevents]
        split
        · cases t.event? r <;> simp <;> omega
        · exact hlength
      have hqueue : ((t.step r.op).busEvents ++ reports.filterMap t.event?).take busEventCapacity =
          (t.busEvents ++ (r :: reports).filterMap t.event?).take busEventCapacity := by
        rw [hevents]
        split
        · cases hevent : t.event? r <;> simp [hevent]
        · next hfull =>
          have hexact : t.busEvents.length = busEventCapacity := by omega
          rw [← hexact, List.take_left', List.take_left']
          · rfl
          · rfl
      rw [List.map_cons, run_cons, ih hroom, event?_step, hqueue, hreport, hpending]
      simp [Nat.add_assoc]

/-- What an instruction leaves to its tick, after a tick. -/
theorem dues_reported (hempty : t.busEvents = []) (i : Instruction) :
    (t.reported i).dues =
      { t.dues with
        pendingFastHalfCycles := t.pendingFastHalfCycles + i.halves
        busEvents := (t.events i).take busEventCapacity } := by
  have hreports := dues_run_reports (by rw [hempty]; exact Nat.zero_le _) i.reports
  rw [hempty, List.nil_append] at hreports
  exact hreports

theorem steady_reported (h : t.Steady F) (i : Instruction) : (t.reported i).Steady F :=
  (accounted_reported h i).2

theorem steady_instruction (h : t.Steady F) (i : Instruction) : (t.instruction i).Steady F :=
  (accounted_instruction h i).2

theorem busEvents_instruction (h : t.Steady F) (i : Instruction) :
    (t.instruction i).busEvents = [] := by
  have htick := dues_tick (steady_reported h i) i.cycles
  rw [instruction_eq, ← busEvents_dues, htick]

theorem event?_tickFast (h : t.Steady F) (n : ℕ) : (t.tickFast n).event? = t.event? := by
  have hcharge (event : BusTimingEvent) (u : Timing) :
      (chargeEvent F u event).event? = u.event? := by
    cases event <;> simp only [chargeEvent, awaitMirrorBuffer] <;> split <;> rfl
  have hfold (events : List BusTimingEvent) (u : Timing) :
      (events.foldl (chargeEvent F) u).event? = u.event? := by
    induction events generalizing u with
    | nil => rfl
    | cons event events ih => exact (ih _).trans (hcharge event u)
  have hadvance : (t.advance n).event? = t.event? := by
    unfold advance chargeFastHalves
    dsimp only
    split_ifs <;> rfl
  have htick : (t.tickFast n).event? =
      event? { t.busEvents.foldl (chargeEvent F) (t.advance n) with busEvents := [] } :=
    event?_of_dues (dues_tick h n)
  exact htick.trans ((hfold t.busEvents (t.advance n)).trans hadvance)

/-- An instruction after a tick pays for its accesses at its own tick. -/
theorem dues_instruction (h : t.Steady F) (hempty : t.busEvents = []) (i : Instruction) :
    (t.instruction i).dues =
      { (((t.events i).take busEventCapacity).foldl (chargeEvent F)
          ((t.reported i).advance i.cycles)).dues with busEvents := [] } := by
  have hqueue : (t.reported i).busEvents = (t.events i).take busEventCapacity :=
    congrArg Dues.busEvents (dues_reported hempty i)
  rw [instruction_eq, dues_tick (steady_reported h i), hqueue]

theorem events_step (h : t.Steady F) (i j : Instruction) :
    (t.instruction i).events j = t.events j := by
  have hreported (reports : List Report) (u : Timing) :
      (run step u (reports.map Report.op)).event? = u.event? := by
    induction reports generalizing u with
    | nil => rfl
    | cons r reports ih => exact (ih (u.step r.op)).trans (event?_step u r)
  rw [events, events, instruction_eq, event?_tickFast (steady_reported h i), reported, hreported]

/-- Half cycles and cycles may be charged together with those of the next instruction. -/
theorem dues_advance_add {t₁ t₂ t₁₂ : Timing} (h₁ : t₁.Steady F) (h₂ : t₂.Steady F)
    (h₁₂ : t₁₂.Steady F) {n m k : ℕ} {queue : List BusTimingEvent}
    (heq₂ : t₂.dues =
      { (t₁.advance n).dues with
        pendingFastHalfCycles := (t₁.advance n).pendingFastHalfCycles + k
        busEvents := queue })
    (heq₁₂ : t₁₂.dues =
      { t₁.dues with
        pendingFastHalfCycles := t₁.pendingFastHalfCycles + k
        busEvents := queue }) :
    (t₂.advance m).dues = (t₁₂.advance (n + m)).dues := by
  have hadvance := dues_advance h₁ n
  have hpending₂ := congrArg Dues.pendingFastHalfCycles heq₂
  have hemu₂ := congrArg Dues.emuCycles heq₂
  have hcarry₂ := congrArg Dues.fastHalfCarry heq₂
  have hpending := congrArg Dues.pendingFastHalfCycles hadvance
  have hemu := congrArg Dues.emuCycles hadvance
  have hcarry := congrArg Dues.fastHalfCarry hadvance
  have hpending₁₂ := congrArg Dues.pendingFastHalfCycles heq₁₂
  have hemu₁₂ := congrArg Dues.emuCycles heq₁₂
  have hcarry₁₂ := congrArg Dues.fastHalfCarry heq₁₂
  dsimp only [dues] at hpending₂ hemu₂ hcarry₂ hpending hemu hcarry hpending₁₂ hemu₁₂ hcarry₁₂
  rw [dues_advance h₂, dues_advance h₁₂, heq₂, heq₁₂, hadvance, Dues.mk.injEq]
  refine ⟨?_, rfl, rfl, ?_, rfl, rfl, rfl, rfl⟩
  · split_ifs at hemu hcarry ⊢ <;> omega
  · split_ifs at hemu hcarry ⊢ <;> omega

theorem dues_instruction_congr (ht : t.Steady F) (hu : u.Steady F) (h : t.dues = u.dues)
    (i : Instruction) : (t.instruction i).dues = (u.instruction i).dues := by
  have hreported : (t.reported i).dues = (u.reported i).dues := dues_reports h i.reports
  rw [instruction_eq, instruction_eq]
  exact dues_tick_congr (steady_reported ht i) (steady_reported hu i) hreported i.cycles

/-- An instruction without accesses may be ticked with the next one. -/
theorem dues_quiet (h : t.Steady F) (hempty : t.busEvents = []) {i : Instruction}
    (hquiet : t.events i = []) (j : Instruction) :
    ((t.instruction i).instruction j).dues =
      (t.instruction ⟨i.reports ++ j.reports, i.cycles + j.cycles⟩).dues := by
  obtain ⟨both, hboth⟩ : ∃ both : Instruction,
      both = ⟨i.reports ++ j.reports, i.cycles + j.cycles⟩ := ⟨_, rfl⟩
  have hevents : t.events both = t.events j := by
    rw [events, hboth, List.filterMap_append]
    exact congrArg (· ++ t.events j) hquiet
  have hhalves : both.halves = i.halves + j.halves := by
    simp [Instruction.halves, hboth]
  have hreported := dues_reported hempty i
  rw [hquiet, List.take_nil] at hreported
  have hlast := dues_reported (busEvents_instruction h i) j
  have hall := dues_reported hempty both
  -- the first tick charges the half cycles alone
  have htick : (t.instruction i).dues = ((t.reported i).advance i.cycles).dues := by
    have hqueue : ((t.reported i).advance i.cycles).busEvents = [] := by
      rw [busEvents_advance]
      exact congrArg Dues.busEvents hreported
    rw [dues_instruction h hempty, hquiet, List.take_nil, List.foldl_nil, dues, hqueue]
  have hpending : (t.reported i).pendingFastHalfCycles = t.pendingFastHalfCycles + i.halves :=
    congrArg Dues.pendingFastHalfCycles hreported
  have hpending' : (t.instruction i).pendingFastHalfCycles =
      ((t.reported i).advance i.cycles).pendingFastHalfCycles := by
    rw [← pendingFastHalfCycles_dues, htick, pendingFastHalfCycles_dues]
  have hadvance : (((t.instruction i).reported j).advance j.cycles).dues =
      ((t.reported both).advance (i.cycles + j.cycles)).dues := by
    apply dues_advance_add (steady_reported h i) (steady_reported (steady_instruction h i) j)
      (steady_reported h both)
    · rw [hlast, htick, hpending']
    · rw [hall, hreported, hhalves, hpending, events_step h, hevents, Nat.add_assoc]
  rw [← hboth, dues_instruction (steady_instruction h i) (busEvents_instruction h i),
    dues_instruction h hempty, events_step h, hevents, dues_foldl hadvance, hboth]

end Instructions

section Batches

/-- Only the last instruction of the batch makes accesses. -/
def QuietBeforeLast (t : Timing) (batch : List Instruction) : Prop :=
  ∀ i ∈ batch.dropLast, t.events i = []

/-- After instructions with their ticks the queue is empty, and what queues an event is the
same. -/
theorem run_instruction (h : t.Steady F) (hempty : t.busEvents = []) (is : List Instruction) :
    (run instruction t is).busEvents = [] ∧ (run instruction t is).events = t.events := by
  induction is generalizing t with
  | nil => exact ⟨hempty, rfl⟩
  | cons i is ih =>
      obtain ⟨hqueue, hevents⟩ := ih (steady_instruction h i) (busEvents_instruction h i)
      rw [run_cons]
      exact ⟨hqueue, hevents.trans (funext (events_step h i))⟩

theorem events_merge (t : Timing) (batch : List Instruction) :
    t.events (.merge batch) = batch.flatMap t.events := by
  rw [events, Instruction.merge, List.filterMap_flatMap]
  rfl

/-- The tick of a batch charges every access of its instructions, once and in program order. -/
theorem emuCycles_batch (h : t.Steady F) (hempty : t.busEvents = []) {batch : List Instruction}
    (hroom : (batch.flatMap t.events).length ≤ busEventCapacity) :
    (t.instruction (.merge batch)).emuCycles =
      ((batch.flatMap t.events).foldl (chargeEvent F)
        ((t.reported (.merge batch)).advance (Instruction.merge batch).cycles)).emuCycles := by
  have htick := dues_instruction h hempty (.merge batch)
  rw [events_merge, List.take_of_length_le hroom] at htick
  rw [← emuCycles_dues, htick, ← emuCycles_dues]

theorem dues_batch (h : t.Steady F) (hempty : t.busEvents = []) (i : Instruction)
    (rest : List Instruction) (hquiet : t.QuietBeforeLast (i :: rest)) :
    (run instruction t (i :: rest)).dues = (t.instruction (.merge (i :: rest))).dues := by
  induction rest generalizing i t with
  | nil =>
      have hsingle : Instruction.merge [i] = i := by
        simp [Instruction.merge]
      rw [hsingle, run_cons, run_nil]
  | cons j rest ih =>
      have hfirst : t.events i = [] := hquiet i (by simp)
      have hrest : (t.instruction i).QuietBeforeLast (j :: rest) := by
        intro k hk
        rw [events_step h]
        exact hquiet k (List.mem_cons_of_mem _ hk)
      have hmerge : Instruction.merge (i :: j :: rest) =
          ⟨i.reports ++ (Instruction.merge (j :: rest)).reports,
            i.cycles + (Instruction.merge (j :: rest)).cycles⟩ := rfl
      rw [run_cons, ih (steady_instruction h i) (busEvents_instruction h i) j hrest,
        dues_quiet h hempty hfirst, hmerge]

/-- Ticks after batches and ticks after instructions come to the same, where only the last
instruction of a batch makes accesses. -/
theorem dues_batches (ht : t.Steady F) (hu : u.Steady F) (h : t.dues = u.dues)
    (hempty : t.busEvents = []) {batches : List (List Instruction)}
    (hbatches : ∀ batch ∈ batches, batch ≠ [] ∧ t.QuietBeforeLast batch) :
    (run instruction t (batches.map .merge)).dues = (run instruction u batches.flatten).dues := by
  induction batches generalizing t u with
  | nil => exact h
  | cons batch batches ih =>
      obtain ⟨⟨hne, hquiet⟩, hlater⟩ := List.forall_mem_cons.mp hbatches
      obtain ⟨i, rest, rfl⟩ := List.exists_cons_of_ne_nil hne
      have hempty' : u.busEvents = [] := (congrArg Dues.busEvents h).symm.trans hempty
      have hquiet' : u.QuietBeforeLast (i :: rest) := by
        intro j hj
        rw [events, ← event?_of_dues h]
        exact hquiet j hj
      have hfirst : (t.instruction (.merge (i :: rest))).dues =
          (run instruction u (i :: rest)).dues := by
        rw [dues_batch hu hempty' i rest hquiet', dues_instruction_congr ht hu h]
      rw [List.map_cons, run_cons, List.flatten_cons, run_append]
      apply ih (steady_instruction ht _) (accounted_run hu (i :: rest)).2 hfirst
        (busEvents_instruction ht _)
      intro batch hbatch
      refine ⟨(hlater batch hbatch).1, fun j hj => ?_⟩
      rw [events_step ht]
      exact (hlater batch hbatch).2 j hj

end Batches

end Timing

end ScpuEmu
