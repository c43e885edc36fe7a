import ScpuEmu.Types

/-!
# Time as the C64's memory keeps it

The emulated clock, what an access to the C64's bus costs on it, the rate that is in
force, and the timers of CIA 2, whose underflows raise the NMI at an exact emulated
cycle. A serial transfer holds the machine at 1 MHz for a while; deadlines stand in
emulated cycles, and each change of the rate expresses them anew.

Cycle counts that a machine cannot live to overflow are natural numbers. Counters that
nothing reads back are left out.
-/

namespace ScpuEmu

inductive BusTimingEvent
  | io
  | ciaWrite
  | mirrorWrite
  deriving DecidableEq, Repr

/-- `BUS_EVENT_CAPACITY`. -/
abbrev busEventCapacity : ℕ := 32

/-- The fields of `CC64Memory` that deal with time. -/
structure Timing where
  emuCycles : ℕ
  -- what an access costs
  ioStretchEnable : Bool
  mirrorStretchEnable : Bool
  postedWriteTimingEnable : Bool
  busEvents : List BusTimingEvent
  postedWritePending : Bool
  mirrorBufferFreeAt : ℕ
  pendingFastHalfCycles : ℕ
  fastHalfCarry : ℕ
  ioStretchCycles : ℕ
  mirrorStretchCycles : ℕ
  regionStretchCycles : ℕ
  -- the rate in force
  selectedEmulatedHz : ℕ
  pacingCheckCycles : ℕ
  iecThrottleEnabled : Bool
  iecHoldCycles : ℕ
  iecActivityCycles : ℕ
  iecPollHoldCycles : ℕ
  c64ClockBase : ℕ
  emuAtRateChange : ℕ
  c64FactorInUse : ℕ
  -- real time
  hostPerEmuQ16 : BitVec 64
  hostPerEmuQ16Slow : BitVec 64
  pacingAnchor : BitVec 64
  pacingDebtCycles : BitVec 64
  busKeepalive : Bool
  nextKeepalive : BitVec 64
  -- the interrupt lines
  intCredit : ℕ
  cachedIRQ : Bool
  cachedNMI : Bool
  -- the timers of CIA 2
  nmiRetimeEnable : Bool
  cia2NMIOwned : Bool
  synthNMIActive : Bool
  cia2ICRMask : Byte
  cia2ICRPending : Byte
  cia2TACR : Byte
  cia2TBCR : Byte
  cia2ArmPending : Byte
  cia2TALatch : BitVec 16
  cia2TBLatch : BitVec 16
  cia2TADeadline : ℕ
  cia2TBDeadline : ℕ
  cia2NMIDeadline : ℕ
  cia2FactorInUse : ℕ
  -- the control registers of the timers as last written, which only theorems read
  cia2TAWritten : Byte
  cia2TBWritten : Byte
  -- the hook that ends the slice of the core, and whether it was called
  timingHook : Bool
  runBreak : Bool

namespace Timing

/-- The constructor and the initial values of the fields. -/
def construct : Timing where
  emuCycles := 0
  ioStretchEnable := true
  mirrorStretchEnable := false
  postedWriteTimingEnable := false
  busEvents := []
  postedWritePending := false
  mirrorBufferFreeAt := 0
  pendingFastHalfCycles := 0
  fastHalfCarry := 0
  ioStretchCycles := 0
  mirrorStretchCycles := 0
  regionStretchCycles := 0
  selectedEmulatedHz := 0
  pacingCheckCycles := 1
  iecThrottleEnabled := true
  iecHoldCycles := 0
  iecActivityCycles := 0
  iecPollHoldCycles := 0
  c64ClockBase := 0
  emuAtRateChange := 0
  c64FactorInUse := 1
  hostPerEmuQ16 := 0
  hostPerEmuQ16Slow := 0
  pacingAnchor := 0
  pacingDebtCycles := 0
  busKeepalive := false
  nextKeepalive := 0
  intCredit := 0xFFFFF
  cachedIRQ := false
  cachedNMI := false
  nmiRetimeEnable := true
  cia2NMIOwned := false
  synthNMIActive := false
  cia2ICRMask := 0
  cia2ICRPending := 0
  cia2TACR := 0
  cia2TBCR := 0
  cia2ArmPending := 0
  cia2TALatch := 0xFFFF
  cia2TBLatch := 0xFFFF
  cia2TADeadline := 0
  cia2TBDeadline := 0
  cia2NMIDeadline := 0
  cia2FactorInUse := 1
  cia2TAWritten := 0
  cia2TBWritten := 0
  timingHook := false
  runBreak := false

variable (t : Timing)

def callTimingHook : Timing := { t with runBreak := t.runBreak || t.timingHook }

/-! ### Rates -/

/-- Emulated cycles in a cycle of the C64. -/
def effectiveCIAFactor : ℕ :=
  if t.iecHoldCycles ≠ 0 ∨ t.iecPollHoldCycles ≠ 0 then 1
  else if t.pacingCheckCycles ≠ 0 then t.pacingCheckCycles else 1

/-- The C64's own clock, counted in completed segments of one rate. -/
def c64Now : ℕ :=
  let factor := if t.c64FactorInUse ≠ 0 then t.c64FactorInUse else 1
  t.c64ClockBase + (t.emuCycles - t.emuAtRateChange) / factor

def c64ClockRebase : Timing :=
  { t with
    c64ClockBase := t.c64Now
    emuAtRateChange := t.emuCycles
    c64FactorInUse := t.effectiveCIAFactor }

/-- The selected speed is 1 MHz or less. -/
def explicitlySlow : Bool :=
  decide (t.selectedEmulatedHz ≠ 0) && decide (t.selectedEmulatedHz ≤ 1000000)

def iecActive : Bool := decide (t.iecHoldCycles ≠ 0) || decide (t.iecPollHoldCycles ≠ 0)

def fineTicksRequired : Bool :=
  t.postedWritePending || decide (t.iecHoldCycles ≠ 0) || decide (t.iecActivityCycles ≠ 0) ||
    decide (t.iecPollHoldCycles ≠ 0) || decide (t.cia2NMIDeadline ≠ 0) ||
    decide (t.cia2ArmPending ≠ 0) || t.explicitlySlow

/-! ### The timers of CIA 2 -/

/-- The nearer of two deadlines, of which zero is none. -/
def nearerDeadline (a b : ℕ) : ℕ := if b ≠ 0 ∧ (a = 0 ∨ b < a) then b else a

def cia2RecomputeNMIState : Timing :=
  { t with
    cia2NMIDeadline :=
      if t.nmiRetimeEnable then nearerDeadline t.cia2TADeadline t.cia2TBDeadline else 0
    cia2NMIOwned :=
      t.nmiRetimeEnable && t.cia2ICRMask &&& 0x03#8 != 0 && t.cia2ICRMask &&& 0x1C#8 == 0 }

/-- A deadline in the cycles of another rate: what remains of it is scaled. -/
def rescaled (f deadline : ℕ) : ℕ :=
  let next := t.emuCycles + (deadline - t.emuCycles) * f / t.cia2FactorInUse
  if next = t.emuCycles then t.emuCycles + 1 else next

/-- Bank the elapsed segment of the C64's clock, in the factor it ran at. -/
def bankSegment : Timing :=
  if t.effectiveCIAFactor ≠ t.c64FactorInUse then t.c64ClockRebase else t

def cia2OnRateChange : Timing :=
  let f := t.effectiveCIAFactor
  let t := t.bankSegment
  if f = t.cia2FactorInUse then t
  else
    cia2RecomputeNMIState
      { t with
        cia2TADeadline := if t.cia2TADeadline ≠ 0 then t.rescaled f t.cia2TADeadline else 0
        cia2TBDeadline := if t.cia2TBDeadline ≠ 0 then t.rescaled f t.cia2TBDeadline else 0
        cia2FactorInUse := f }

def ciaSpan (n : ℕ) : ℕ := n * t.cia2FactorInUse

/-- The line goes down when an enabled source is pending. -/
def cia2MaybeDeliverSynthNMI : Timing :=
  if t.cia2NMIOwned && !t.synthNMIActive &&
      t.cia2ICRPending &&& t.cia2ICRMask &&& 0x03#8 != 0 then
    callTimingHook { t with synthNMIActive := true, cachedNMI := true }
  else t

/-- $DD0D sets or clears enable bits. Releasing both timers ends the assertion; enabling a
pending one asserts at once. -/
def cia2ICRWrite (v : Byte) : Timing :=
  let mask :=
    if v &&& 0x80#8 ≠ 0 then t.cia2ICRMask ||| (v &&& 0x1F#8)
    else t.cia2ICRMask &&& ~~~(v &&& 0x1F#8)
  let t := { t with cia2ICRMask := mask }
  if mask &&& 0x03#8 = 0 then { t with synthNMIActive := false }
  else t.cia2RecomputeNMIState.cia2MaybeDeliverSynthNMI

/-- START on a stopped timer, or a force-load strobe, is anchored by the next tick; a stop
disarms. Counting of external pulses cannot be followed. -/
def cia2TAControlWrite (v : Byte) : Timing :=
  let t :=
    if v &&& 0x20#8 ≠ 0 then { t with cia2TADeadline := 0 }
    else if v &&& 0x01#8 ≠ 0 ∧ (t.cia2TACR &&& 0x01#8 = 0 ∨ v &&& 0x10#8 ≠ 0) then
      { t with cia2ArmPending := t.cia2ArmPending ||| 0x01#8 }
    else if v &&& 0x01#8 = 0 then { t with cia2TADeadline := 0 }
    else t
  { t with cia2TACR := v, cia2TAWritten := v }

/-- Timer B also counts the underflows of timer A. -/
def cia2TBControlWrite (v : Byte) : Timing :=
  let t :=
    if v &&& 0x60#8 ≠ 0 then { t with cia2TBDeadline := 0 }
    else if v &&& 0x01#8 ≠ 0 ∧ (t.cia2TBCR &&& 0x01#8 = 0 ∨ v &&& 0x10#8 ≠ 0) then
      { t with cia2ArmPending := t.cia2ArmPending ||| 0x02#8 }
    else if v &&& 0x01#8 = 0 then { t with cia2TBDeadline := 0 }
    else t
  { t with cia2TBCR := v, cia2TBWritten := v }

/-- What the writes of $DD04-$DD07 and $DD0D-$DD0F change before the deadlines are compared. -/
def cia2TimerRegister (a : Addr) (v : Byte) : Timing :=
  if a = 0xDD04 then { t with cia2TALatch := (t.cia2TALatch &&& 0xFF00#16) ||| v.setWidth 16 }
  else if a = 0xDD05 then
    { t with cia2TALatch := (t.cia2TALatch &&& 0x00FF#16) ||| v.setWidth 16 <<< 8 }
  else if a = 0xDD06 then
    { t with cia2TBLatch := (t.cia2TBLatch &&& 0xFF00#16) ||| v.setWidth 16 }
  else if a = 0xDD07 then
    { t with cia2TBLatch := (t.cia2TBLatch &&& 0x00FF#16) ||| v.setWidth 16 <<< 8 }
  else if a = 0xDD0D then t.cia2ICRWrite v
  else if a = 0xDD0E then t.cia2TAControlWrite v
  else t.cia2TBControlWrite v

/-- $DD08-$DD0C have no model here. -/
def cia2TimerWrite (a : Addr) (v : Byte) : Timing :=
  let t := t.cia2OnRateChange
  if 0xDD08#16 ≤ a ∧ a ≤ 0xDD0C#16 then t
  else
    let written := t.cia2TimerRegister a v
    let t := written.cia2RecomputeNMIState
    if written.cia2NMIDeadline = 0 ∧ t.cia2NMIDeadline ≠ 0 then t.callTimingHook else t

def armTimerA : Timing :=
  if t.cia2ArmPending &&& 0x01#8 ≠ 0 then
    { t with cia2TADeadline := t.emuCycles + t.ciaSpan (t.cia2TALatch.toNat + 1) }
  else t

def armTimerB : Timing :=
  if t.cia2ArmPending &&& 0x02#8 ≠ 0 then
    { t with cia2TBDeadline := t.emuCycles + t.ciaSpan (t.cia2TBLatch.toNat + 1) }
  else t

def cia2FinishArm : Timing :=
  { t.cia2OnRateChange.armTimerA.armTimerB with cia2ArmPending := 0 }.cia2RecomputeNMIState

/-- An underflow of timer A. One-shot mode clears the START bit. -/
def timerADue : Timing :=
  if t.cia2TADeadline ≠ 0 ∧ t.cia2TADeadline ≤ t.emuCycles then
    let t := { t with cia2ICRPending := t.cia2ICRPending ||| 0x01#8 }
    if t.cia2TACR &&& 0x08#8 ≠ 0 then
      { t with cia2TADeadline := 0, cia2TACR := t.cia2TACR &&& ~~~0x01#8 }
    else { t with cia2TADeadline := t.cia2TADeadline + t.ciaSpan (t.cia2TALatch.toNat + 1) }
  else t

def timerBDue : Timing :=
  if t.cia2TBDeadline ≠ 0 ∧ t.cia2TBDeadline ≤ t.emuCycles then
    let t := { t with cia2ICRPending := t.cia2ICRPending ||| 0x02#8 }
    if t.cia2TBCR &&& 0x08#8 ≠ 0 then
      { t with cia2TBDeadline := 0, cia2TBCR := t.cia2TBCR &&& ~~~0x01#8 }
    else { t with cia2TBDeadline := t.cia2TBDeadline + t.ciaSpan (t.cia2TBLatch.toNat + 1) }
  else t

def ciaTimerNMIDue : Timing :=
  t.cia2OnRateChange.timerADue.timerBDue.cia2MaybeDeliverSynthNMI.cia2RecomputeNMIState

/-- The check of the nearest deadline. -/
def checkDeadline : Timing :=
  if t.cia2NMIDeadline ≠ 0 ∧ t.cia2NMIDeadline ≤ t.emuCycles then t.ciaTimerNMIDue else t

/-- A read of the ICR acknowledges. -/
def acknowledgeICR : Timing := { t with synthNMIActive := false, cia2ICRPending := 0 }

def setNMIRetime (enable : Bool) : Timing :=
  { t with nmiRetimeEnable := enable }.cia2RecomputeNMIState

/-! ### The serial bus -/

def notePollHold : Timing :=
  if t.iecThrottleEnabled = false ∨ t.explicitlySlow = true then t
  else if t.iecPollHoldCycles < 1000 then
    let wasInactive := !t.iecActive
    let t := { t with iecPollHoldCycles := 1000 }
    if wasInactive then t.cia2OnRateChange.callTimingHook else t
  else t

def noteIECActivity : Timing :=
  let wasQuiet := decide (t.iecActivityCycles = 0)
  let t := { t with iecActivityCycles := 2000 }
  let t := if wasQuiet then t.callTimingHook else t
  if t.iecThrottleEnabled && !t.explicitlySlow then
    let wasInactive := decide (t.iecHoldCycles = 0)
    let t := { t with iecHoldCycles := 100000 }
    if wasInactive then t.cia2OnRateChange.callTimingHook else t
  else t

/-- A write of $D07A or $D07B ends the hold that polls sustain. -/
def endPollHold : Timing :=
  if t.iecPollHoldCycles ≠ 0 then
    { t with iecPollHoldCycles := 0 }.cia2OnRateChange.callTimingHook
  else t

/-- The part of `setPacing` that selects the speed. -/
def selectSpeed (emulatedHz : ℕ) : Timing :=
  let t :=
    { t with
      selectedEmulatedHz := emulatedHz
      pacingCheckCycles := max (emulatedHz / 1000000) 1 }
  let t := if t.explicitlySlow then { t with iecHoldCycles := 0 } else t
  t.cia2OnRateChange

/-! ### Accesses -/

def noteTimingEvent (event : BusTimingEvent) : Timing :=
  if t.busEvents.length < busEventCapacity then { t with busEvents := t.busEvents ++ [event] }
  else t

def noteBusAccess (addr : Addr) (write : Bool) : Timing :=
  let ciaWrite := write && addr &&& 0xFE00#16 == 0xDC00
  t.noteTimingEvent (if ciaWrite then .ciaWrite else .io)

def noteMirrorWrite : Timing :=
  if t.mirrorStretchEnable || t.postedWriteTimingEnable then
    let t := t.noteTimingEvent .mirrorWrite
    if t.postedWriteTimingEnable then { t with postedWritePending := true } else t
  else t

def noteFastHalfCycles (halfCycles : ℕ) : Timing :=
  { t with pendingFastHalfCycles := t.pendingFastHalfCycles + halfCycles }

def enablePostedWriteTiming (on : Bool) : Timing :=
  if on then { t with postedWriteTimingEnable := true }
  else
    { t with
      postedWriteTimingEnable := false, postedWritePending := false, mirrorBufferFreeAt := 0 }

/-- The half cycles of slow regions. -/
def chargeFastHalves : Timing :=
  if t.pendingFastHalfCycles ≠ 0 then
    let t :=
      if t.ioStretchEnable ∧ 1 < t.effectiveCIAFactor then
        let halves := t.pendingFastHalfCycles + t.fastHalfCarry
        { t with
          fastHalfCarry := halves % 2
          emuCycles := t.emuCycles + halves / 2
          regionStretchCycles := t.regionStretchCycles + halves / 2 }
      else t
    { t with pendingFastHalfCycles := 0 }
  else t

/-- The cycles up to the next boundary of the C64's clock; on a boundary, a whole cycle. -/
def untilPhase (emuCycles perC64 : ℕ) : ℕ :=
  let phase := emuCycles % perC64
  if phase ≠ 0 then perC64 - phase else perC64

/-- Wait until the posted write has left its buffer. -/
def awaitMirrorBuffer : Timing :=
  let wait := t.mirrorBufferFreeAt - t.emuCycles
  { t with
    emuCycles := t.emuCycles + wait
    mirrorStretchCycles := t.mirrorStretchCycles + wait }

def chargeEvent (perC64 : ℕ) (t : Timing) : BusTimingEvent → Timing
  | .mirrorWrite =>
      if !t.mirrorStretchEnable && !t.postedWriteTimingEnable then
        { t with mirrorBufferFreeAt := 0 }
      else
        let t := t.awaitMirrorBuffer
        { t with mirrorBufferFreeAt := t.emuCycles + untilPhase t.emuCycles perC64 }
  | event =>
      if !t.ioStretchEnable then { t with mirrorBufferFreeAt := 0 }
      else
        let t := t.awaitMirrorBuffer
        let wait :=
          untilPhase t.emuCycles perC64 + if event = .ciaWrite then perC64 else 0
        { t with
          emuCycles := t.emuCycles + wait
          ioStretchCycles := t.ioStretchCycles + wait }

/-- The accesses queued since the last tick. -/
def chargeBusEvents : Timing :=
  if t.busEvents = [] then t
  else
    let perC64 := t.effectiveCIAFactor
    let t := if 1 < perC64 then t.busEvents.foldl (chargeEvent perC64) t else t
    { t with busEvents := [], postedWritePending := false }

/-! ### Ticks -/

/-- The clock after `nCycles` cycles of the core and what its accesses cost. -/
def charge (nCycles : ℕ) : Timing :=
  { t with emuCycles := t.emuCycles + nCycles }.chargeFastHalves.chargeBusEvents

def creditInterrupts (nCycles : ℕ) : Timing :=
  if t.intCredit < 0x100000 then { t with intCredit := t.intCredit + nCycles } else t

def finishPendingArm : Timing := if t.cia2ArmPending ≠ 0 then t.cia2FinishArm else t

def decayActivity (nCycles : ℕ) : Timing :=
  { t with iecActivityCycles := t.iecActivityCycles - nCycles }

def decayPollHold (nCycles : ℕ) : Timing :=
  if t.iecPollHoldCycles ≠ 0 then
    let t := { t with iecPollHoldCycles := t.iecPollHoldCycles - nCycles }
    if t.iecPollHoldCycles = 0 ∧ t.iecHoldCycles = 0 then t.cia2OnRateChange.callTimingHook else t
  else t

def decayHold (nCycles : ℕ) : Timing :=
  if t.iecActive then
    let hadIECHold := decide (t.iecHoldCycles ≠ 0)
    let t := { t with iecHoldCycles := t.iecHoldCycles - nCycles }
    if hadIECHold = true ∧ t.iecHoldCycles = 0 ∧ t.iecPollHoldCycles = 0 then
      t.cia2OnRateChange.callTimingHook
    else t
  else t

/-- The cycles that a tick of `nCycles` takes with all it charges. -/
def tickCycles (nCycles : ℕ) : ℕ := (t.charge nCycles).emuCycles - t.emuCycles

/-- A tick up to the decay of the hold, where the source tells whether the bus is active. -/
def tickBegin (nCycles : ℕ) : Timing :=
  let spent := t.tickCycles nCycles
  (((((t.charge nCycles).creditInterrupts spent).finishPendingArm).checkDeadline).decayActivity
    spent).decayPollHold spent

/-- `tickFast`, up to the settlement with real time. -/
def tickFast (nCycles : ℕ) : Timing := (t.tickBegin nCycles).decayHold (t.tickCycles nCycles)

/-! ### The interrupt lines -/

/-- The lines may have changed since the last sample. -/
def samplingDue : Bool :=
  decide ((if t.iecActive then 1 else t.pacingCheckCycles) ≤ t.intCredit)

def latchInterrupts (irq nmi : Bool) : Timing :=
  { t with
    cachedIRQ := irq
    cachedNMI := if t.cia2NMIOwned then t.synthNMIActive else nmi || t.synthNMIActive
    intCredit := 0 }

/-- The part of `reset` that deals with time. -/
def reset : Timing :=
  let t :=
    { t with
      pacingDebtCycles := 0
      iecHoldCycles := 0
      iecActivityCycles := 0
      iecPollHoldCycles := 0
      emuCycles := 0
      c64ClockBase := 0
      emuAtRateChange := 0 }
  let t := { t with c64FactorInUse := t.effectiveCIAFactor, nextKeepalive := 0 }
  let t :=
    { t with
      intCredit := 0xFFFFF
      cachedIRQ := false
      cachedNMI := false
      cia2NMIOwned := false
      synthNMIActive := false
      cia2ICRMask := 0
      cia2TACR := 0
      cia2TBCR := 0
      cia2TAWritten := 0
      cia2TBWritten := 0
      cia2TALatch := 0xFFFF
      cia2TBLatch := 0xFFFF
      cia2ICRPending := 0
      cia2ArmPending := 0
      busEvents := []
      postedWritePending := false
      mirrorBufferFreeAt := 0
      pendingFastHalfCycles := 0
      fastHalfCarry := 0
      cia2TADeadline := 0
      cia2TBDeadline := 0
      cia2NMIDeadline := 0 }
  { t with cia2FactorInUse := t.effectiveCIAFactor }

end Timing

end ScpuEmu
