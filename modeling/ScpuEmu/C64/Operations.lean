import ScpuEmu.C64.Memory
import ScpuEmu.Library.TransitionSystem

/-!
# Operations on the memory

A run of the memory is a list of the operations that the machine around it calls. What
such a run does to the fields that deal with time is a matter of the elementary changes
in `Timing`: a property that each of them keeps is kept by every operation, provided that
the devices and the hook, which may come back to the memory, keep it.
-/

namespace ScpuEmu

open Library

/-- The operations of `CC64Memory`, the settings of its public switches, and changes of
what stands around it. -/
inductive MemoryOp (ω : Type)
  | read8 (a : Addr)
  | write8 (a : Addr) (value : Byte)
  | readFast (a : Addr)
  | writeFast (a : Addr) (value : Byte)
  | irqFast
  | nmiFast
  | sampleIRQNMIFast
  | tick (nCycles : ℕ)
  | setPacing (hostCyclesPerSecond : BitVec 64) (emulatedHz : ℕ)
  | resyncPacing
  | reset
  | initializeC64CIA2
  | setRAMUnderIOAccessible (accessible : Bool)
  | setNMIRetime (enable : Bool)
  | setIECThrottle (enable : Bool)
  | setIOStretch (enable : Bool)
  | setMirrorStretch (enable : Bool)
  | enablePostedWriteTiming (on : Bool)
  | enableBusKeepalive (on : Bool)
  | noteFastHalfCycles (halfCycles : ℕ)
  | takeRunBreak
  | surroundings (f : ω → ω)

variable {ω : Type}

def MemoryOp.program (env : Surroundings ω) : MemoryOp ω → MemoryM ω PUnit
  | .read8 a => (fun _ => ⟨⟩) <$> ScpuEmu.read8 env a
  | .write8 a v => ScpuEmu.write8 env a v
  | .readFast a => (fun _ => ⟨⟩) <$> ScpuEmu.readFast env a
  | .writeFast a v => ScpuEmu.writeFast env a v
  | .irqFast => (fun _ => ⟨⟩) <$> ScpuEmu.irqFast env
  | .nmiFast => (fun _ => ⟨⟩) <$> ScpuEmu.nmiFast env
  | .sampleIRQNMIFast => (fun _ => ⟨⟩) <$> ScpuEmu.sampleIRQNMIFast env
  | .tick n => tickFast env n
  | .setPacing host hz => ScpuEmu.setPacing env host hz
  | .resyncPacing => ScpuEmu.resyncPacing env
  | .reset => ScpuEmu.reset env
  | .initializeC64CIA2 => (fun _ => ⟨⟩) <$> ScpuEmu.initializeC64CIA2 env
  | .setRAMUnderIOAccessible on => ScpuEmu.setRAMUnderIOAccessible on
  | .setNMIRetime on => modifyTiming fun t => t.setNMIRetime on
  | .setIECThrottle on => modifyTiming fun t => { t with iecThrottleEnabled := on }
  | .setIOStretch on => modifyTiming fun t => { t with ioStretchEnable := on }
  | .setMirrorStretch on => modifyTiming fun t => { t with mirrorStretchEnable := on }
  | .enablePostedWriteTiming on => modifyTiming fun t => t.enablePostedWriteTiming on
  | .enableBusKeepalive on => modifyTiming fun t => { t with busKeepalive := on }
  | .noteFastHalfCycles n => modifyTiming fun t => t.noteFastHalfCycles n
  | .takeRunBreak => modifyTiming fun t => { t with runBreak := false }
  | .surroundings f => callOutside fun o => (⟨⟩, f o)

/-- One operation, as a step of a transition system. -/
def memoryStep (env : Surroundings ω) (s : Machine ω) (op : MemoryOp ω) : Machine ω :=
  ((op.program env).run s).2

/-- The devices and the hook keep a property of the machine. -/
structure Surroundings.Keeps (env : Surroundings ω) (P : Machine ω → Prop) : Prop where
  ioRead : ∀ io, env.io = some io → ∀ s a, P s → P (io.ioRead s a).2
  ioWrite : ∀ io, env.io = some io → ∀ s a v, P s → P (io.ioWrite s a v).2
  ff00Hook : ∀ hook, env.ff00Hook = some hook → ∀ s, P s → P (hook s)

/-- A property of the memory, as one of the machine. -/
def OnMemory (Q : CC64Memory → Prop) (s : Machine ω) : Prop := Q s.memory

/-- A property of the fields that deal with time, as one of the machine. -/
abbrev OnTiming (C : Timing → Prop) (s : Machine ω) : Prop := OnMemory (fun m => C m.timing) s

/-- The settlement with real time keeps a property of the fields. -/
def KeptInRealTime (C : Timing → Prop) : Prop := ∀ t rate slow anchor debt keepalive, C t →
  C { t with
    hostPerEmuQ16 := rate
    hostPerEmuQ16Slow := slow
    pacingAnchor := anchor
    pacingDebtCycles := debt
    nextKeepalive := keepalive }

/-- What accesses do to these fields, one elementary change after the other. A write of a speed
register also paces the memory anew and ends the slice of the core. -/
structure AccessInvariant (C : Timing → Prop) : Prop where
  notePollHold : ∀ t, C t → C t.notePollHold
  noteIECActivity : ∀ t, C t → C t.noteIECActivity
  acknowledgeICR : ∀ t, C t → C t.acknowledgeICR
  noteBusAccess : ∀ t a w, C t → C (t.noteBusAccess a w)
  noteMirrorWrite : ∀ t, C t → C t.noteMirrorWrite
  noteFastHalfCycles : ∀ t n, C t → C (t.noteFastHalfCycles n)
  endPollHold : ∀ t, C t → C t.endPollHold
  cia2TimerWrite : ∀ t a v, C t → C (t.cia2TimerWrite a v)
  checkDeadline : ∀ t, C t → C t.checkDeadline
  latchInterrupts : ∀ t irq nmi, C t → C (t.latchInterrupts irq nmi)
  selectSpeed : ∀ t hz, C t → C (t.selectSpeed hz)
  breakRun : ∀ t, C t → C { t with runBreak := true }
  realTime : KeptInRealTime C

/-- What the memory does to them, apart from ticks. -/
structure TimingInvariant (C : Timing → Prop) : Prop extends AccessInvariant C where
  reset : ∀ t, C t → C t.reset
  setNMIRetime : ∀ t on, C t → C (t.setNMIRetime on)
  enablePostedWriteTiming : ∀ t on, C t → C (t.enablePostedWriteTiming on)
  switches : ∀ t throttle stretch mirrorStretch keepalive runBreak, C t →
    C { t with
      iecThrottleEnabled := throttle
      ioStretchEnable := stretch
      mirrorStretchEnable := mirrorStretch
      busKeepalive := keepalive
      runBreak := runBreak }

section Rules

variable {C : Timing → Prop} {env : Surroundings ω} {α : Type}

theorem keeps_getMemory_bind {P : Machine ω → Prop} {f : CC64Memory → MemoryM ω α}
    (hf : ∀ m, Keeps P (f m)) : Keeps P (getMemory >>= f) := fun s h => hf s.memory s h

theorem keeps_get_bind' {P : Machine ω → Prop} {f : Machine ω → MemoryM ω α}
    (hf : ∀ s, Keeps P (f s)) : Keeps P (get >>= f) := fun s h => hf s s h

theorem onTiming_modifyTiming {g : Timing → Timing} (hg : ∀ t, C t → C (g t)) :
    Keeps (OnTiming C) (modifyTiming g : MemoryM ω PUnit) := fun s h => hg s.memory.timing h

theorem onTiming_modifyMemory {g : CC64Memory → CC64Memory} (hg : ∀ m, (g m).timing = m.timing) :
    Keeps (OnTiming C) (modifyMemory g : MemoryM ω PUnit) := by
  intro s h
  show C (g s.memory).timing
  rw [hg]
  exact h

theorem onTiming_callOutside (op : ω → α × ω) : Keeps (OnTiming C) (callOutside op) :=
  fun _ h => h

theorem onTiming_busRead (a : Addr) : Keeps (OnTiming C) (busRead env a) := by
  unfold busRead
  cases env.bus with
  | none => exact keeps_pure _
  | some bus => exact onTiming_callOutside _

theorem onTiming_busWrite (a : Addr) (v : Byte) : Keeps (OnTiming C) (busWrite env a v) := by
  unfold busWrite
  cases env.bus with
  | none => exact keeps_pure _
  | some bus => exact onTiming_callOutside _

theorem onTiming_busWriteRAM (a : Addr) (v : Byte) : Keeps (OnTiming C) (busWriteRAM env a v) := by
  unfold busWriteRAM
  cases env.bus with
  | none => exact keeps_pure _
  | some bus => exact onTiming_callOutside _

/-! ### Real time -/

theorem onTiming_resyncPacing (hreal : KeptInRealTime C) :
    Keeps (OnTiming C) (resyncPacing env) := by
  unfold resyncPacing
  cases env.bus with
  | none => exact onTiming_modifyTiming fun t h => hreal t _ _ 0 0 _ h
  | some bus =>
      refine keeps_bind (onTiming_modifyTiming fun t h => hreal t _ _ _ 0 _ h) fun _ => ?_
      exact keeps_bind (onTiming_callOutside _) fun now =>
        onTiming_modifyTiming fun t h => hreal t _ _ now _ _ h

theorem onTiming_tickSettle (hreal : KeptInRealTime C) (bus : C64Bus ω) (iecActive : Bool) :
    Keeps (OnTiming C) (tickSettle bus iecActive) := by
  refine keeps_bind (onTiming_callOutside _) fun now => ?_
  apply keeps_bind
  · refine keeps_getMemory_bind fun m => ?_
    refine keeps_ite ?_ (keeps_pure _)
    refine keeps_bind (onTiming_callOutside _) fun _ => ?_
    refine keeps_bind (onTiming_callOutside _) fun now' => ?_
    refine keeps_get_bind' fun s => ?_
    exact keeps_bind (onTiming_modifyTiming fun t h => hreal t _ _ _ _ _ h) fun _ =>
      keeps_pure _
  · intro now'
    refine keeps_getMemory_bind fun m => ?_
    exact keeps_bind (keeps_ite (keeps_pure _) (onTiming_callOutside _)) fun now'' =>
      onTiming_modifyTiming fun t h => hreal t _ _ now'' 0 _ h

theorem onTiming_settleDebt (hreal : KeptInRealTime C) (spent : ℕ) (iecActive : Bool) :
    Keeps (OnTiming C) (settleDebt env spent iecActive) := by
  unfold settleDebt
  cases env.bus with
  | none => exact keeps_pure _
  | some bus =>
      refine keeps_getMemory_bind fun m => ?_
      refine keeps_ite (keeps_pure _) ?_
      exact keeps_bind (onTiming_modifyTiming fun t h => hreal t _ _ _ _ _ h) fun _ =>
        keeps_onlyIf (onTiming_tickSettle hreal bus iecActive)

/-- A tick keeps what its part in `Timing` keeps. -/
theorem onTiming_tickFast (hreal : KeptInRealTime C) {n : ℕ} (htick : ∀ t, C t → C (t.tickFast n)) :
    Keeps (OnTiming C) (tickFast env n) := by
  refine keeps_getMemory_bind fun m => ?_
  exact keeps_bind (onTiming_modifyTiming htick) fun _ => onTiming_settleDebt hreal _ _

/-- What the part of a tick in `Timing` brings about, the tick brings about. -/
theorem timing_tickFast (hreal : KeptInRealTime C) (s : Machine ω) (n : ℕ)
    (h : C (s.memory.timing.tickFast n)) : C ((tickFast env n).run s).2.memory.timing := by
  rw [tickFast, run_bind, run_bind, run_modifyTiming, run_getMemory]
  exact onTiming_settleDebt hreal _ _ ⟨_, s.outside⟩ h

variable (hC : AccessInvariant C) (henv : env.Keeps (OnTiming C))
include hC

/-! ### Stores of RAM -/

theorem onTiming_mirrorWrite (a : Addr) (v : Byte) : Keeps (OnTiming C) (mirrorWrite env a v) := by
  unfold mirrorWrite
  cases env.mirror with
  | none => exact keeps_pure _
  | some onRamWrite =>
      refine keeps_get_bind' fun s => ?_
      refine keeps_bind (onTiming_callOutside _) fun accepted => ?_
      exact keeps_onlyIf (onTiming_modifyTiming hC.noteMirrorWrite)

omit hC in
theorem onTiming_replayShape (v : Byte) (n : ℕ) :
    Keeps (OnTiming C) (replayShape env v n) := by
  induction n with
  | zero => exact keeps_pure _
  | succ n ih =>
      apply keeps_bind ?_ fun _ => ih
      unfold replayByte
      cases env.mirror with
      | none => exact keeps_pure _
      | some onRamWrite => exact keeps_get_bind' fun _ => onTiming_callOutside _

omit hC in
theorem onTiming_allocRelocBlock (v : Byte) : Keeps (OnTiming C) (allocRelocBlock env v) := by
  refine keeps_getMemory_bind fun m => ?_
  cases m.fetch.freeRelocBlock with
  | none => exact keeps_pure _
  | some r =>
      refine keeps_bind (onTiming_modifyMemory fun _ => rfl) fun _ => ?_
      exact keeps_bind (onTiming_replayShape v 64) fun _ => keeps_pure _

omit hC in
theorem onTiming_relocPointerValue (v : Byte) : Keeps (OnTiming C) (relocPointerValue env v) := by
  have hcount : Keeps (OnTiming C) (noteRelocDelivered : MemoryM ω PUnit) :=
    onTiming_modifyMemory fun _ => rfl
  refine keeps_getMemory_bind fun m => ?_
  dsimp only
  refine keeps_ite (keeps_pure _) ?_
  apply keeps_ite
  · exact keeps_bind hcount fun _ => keeps_pure _
  refine keeps_bind (onTiming_allocRelocBlock v) fun r => ?_
  apply keeps_ite
  · exact keeps_bind (onTiming_modifyMemory fun _ => rfl) fun _ => keeps_pure _
  · exact keeps_bind hcount fun _ => keeps_pure _

omit hC in
theorem onTiming_deliverPointer (a : Addr) (v : Byte) :
    Keeps (OnTiming C) (deliverPointer env a v) := by
  unfold deliverPointer
  cases env.bus with
  | none => exact keeps_pure _
  | some bus =>
      refine keeps_bind (onTiming_relocPointerValue v) fun delivered => ?_
      refine keeps_getMemory_bind fun m => ?_
      exact keeps_ite (onTiming_busWriteRAM a _) (onTiming_busWrite a _)

omit hC in
theorem onTiming_noteSpritePointerWrite (a : Addr) (old v : Byte) :
    Keeps (OnTiming C) (noteSpritePointerWrite env a old v) := by
  refine keeps_bind (onTiming_modifyMemory fun _ => rfl) fun _ => ?_
  apply keeps_onlyIf
  refine keeps_bind (onTiming_deliverPointer a v) fun _ => ?_
  exact keeps_bind (onTiming_modifyMemory fun _ => rfl) fun _ =>
    onTiming_modifyMemory fun _ => rfl

omit hC in
include henv in
theorem onTiming_callFF00Hook : Keeps (OnTiming C) (callFF00Hook env) := by
  unfold callFF00Hook
  cases hhook : env.ff00Hook with
  | none => exact keeps_pure _
  | some hook => exact keeps_modify (henv.ff00Hook hook hhook)

include henv

omit hC in
theorem onTiming_noteRAMWriteSideEffects (a : Addr) (old v : Byte) :
    Keeps (OnTiming C) (noteRAMWriteSideEffects env a old v) := by
  refine keeps_getMemory_bind fun m => ?_
  refine keeps_bind (keeps_onlyIf (onTiming_noteSpritePointerWrite a old v)) fun _ => ?_
  exact keeps_onlyIf (onTiming_callFF00Hook henv)

theorem onTiming_storeRAM (a : Addr) (v : Byte) : Keeps (OnTiming C) (storeRAM env a v) := by
  refine keeps_getMemory_bind fun m => ?_
  refine keeps_bind (onTiming_modifyMemory fun _ => rfl) fun _ => ?_
  refine keeps_bind (onTiming_mirrorWrite hC a v) fun _ => ?_
  refine keeps_bind (onTiming_modifyMemory fun _ => rfl) fun _ => ?_
  exact onTiming_noteRAMWriteSideEffects henv a _ v

/-! ### The chips -/

omit hC henv in
theorem onTiming_chipValue (a : Addr) : Keeps (OnTiming C) (chipValue env a) := by
  refine keeps_get_bind' fun s => ?_
  refine keeps_ite (onTiming_callOutside _) ?_
  refine keeps_ite (onTiming_callOutside _) ?_
  refine keeps_ite (keeps_pure _) ?_
  refine keeps_bind (onTiming_busRead a) fun v => ?_
  exact keeps_ite (keeps_pure _) (keeps_ite (keeps_pure _) (keeps_pure _))

omit henv in
theorem onTiming_chipRead (a : Addr) : Keeps (OnTiming C) (chipRead env a) := by
  refine keeps_bind (onTiming_modifyMemory fun _ => rfl) fun _ => ?_
  refine keeps_bind (onTiming_modifyTiming fun t h => hC.noteBusAccess t a false h) fun _ => ?_
  refine keeps_bind (onTiming_chipValue a) fun v => ?_
  refine keeps_bind (keeps_onlyIf (onTiming_modifyTiming hC.notePollHold)) fun _ => ?_
  refine keeps_bind (keeps_onlyIf ?_) fun _ => ?_
  · refine keeps_getMemory_bind fun m => ?_
    refine keeps_bind (onTiming_modifyMemory fun _ => rfl) fun _ => ?_
    exact keeps_onlyIf (onTiming_modifyTiming hC.noteIECActivity)
  · exact keeps_bind (keeps_onlyIf (onTiming_modifyTiming hC.acknowledgeICR)) fun _ =>
      keeps_pure v

theorem onTiming_ioRead (a : Addr) : Keeps (OnTiming C) (ioRead env a) := by
  unfold ioRead
  cases hio : env.io with
  | none => exact onTiming_chipRead hC a
  | some io =>
      refine keeps_bind (fun s h => henv.ioRead io hio s a h) fun answer => ?_
      cases answer with
      | none => exact onTiming_chipRead hC a
      | some v =>
          refine keeps_get_bind' fun s => ?_
          apply keeps_bind (keeps_onlyIf
            (onTiming_modifyTiming fun t h => hC.noteBusAccess t a false h))
          exact fun _ => keeps_pure v

omit henv in
theorem onTiming_trackChipWrite (a : Addr) (v : Byte) :
    Keeps (OnTiming C) (trackChipWrite a v : MemoryM ω PUnit) := by
  have hline : Keeps (OnTiming C) (modifyTiming Timing.noteIECActivity : MemoryM ω PUnit) :=
    onTiming_modifyTiming hC.noteIECActivity
  refine keeps_getMemory_bind fun m => ?_
  apply keeps_ite
  · exact keeps_bind (onTiming_modifyMemory fun _ => rfl) fun _ => keeps_onlyIf hline
  apply keeps_ite
  · exact onTiming_modifyMemory fun _ => rfl
  apply keeps_ite
  · exact keeps_bind (onTiming_modifyMemory fun _ => rfl) fun _ => keeps_onlyIf hline
  · exact keeps_onlyIf (onTiming_modifyTiming fun t h => hC.cia2TimerWrite t a v h)

omit hC henv in
theorem timing_trackVICWrite (perLine : BitVec 32) (vicReg : BitVec 6) (v : Byte)
    (m : CC64Memory) : (trackVICWrite perLine vicReg v m).timing = m.timing := by
  simp only [trackVICWrite, CC64Memory.appendVICLog, apply_ite CC64Memory.timing,
    CC64Memory.timing_mapFetch, CC64Memory.timing_mapCapture, ite_self]

omit henv in
theorem onTiming_chipWrite (a : Addr) (v : Byte) : Keeps (OnTiming C) (chipWrite env a v) := by
  refine keeps_bind (onTiming_trackChipWrite hC a v) fun _ => ?_
  refine keeps_bind (onTiming_modifyMemory fun _ => rfl) fun _ => ?_
  refine keeps_get_bind' fun s => ?_
  refine keeps_bind
    (keeps_onlyIf (onTiming_modifyMemory fun m => timing_trackVICWrite _ _ v m)) fun _ => ?_
  refine keeps_get_bind' fun s' => ?_
  apply keeps_bind (onTiming_modifyTiming ?_)
  · exact fun _ => onTiming_busWrite a v
  · intro t h
    split
    · exact hC.noteMirrorWrite t h
    · exact hC.noteBusAccess t a true h

theorem onTiming_ioWrite (a : Addr) (v : Byte) : Keeps (OnTiming C) (ioWrite env a v) := by
  unfold ioWrite
  cases hio : env.io with
  | none => exact onTiming_chipWrite hC a v
  | some io =>
      refine keeps_bind (fun s h => henv.ioWrite io hio s a v h) fun handled => ?_
      refine keeps_ite ?_ (onTiming_chipWrite hC a v)
      refine keeps_get_bind' fun s => ?_
      apply keeps_bind (onTiming_modifyTiming ?_)
      · exact fun _ => keeps_onlyIf (onTiming_modifyTiming hC.endPollHold)
      · intro t h
        split
        · exact hC.noteMirrorWrite t h
        · split
          · exact hC.noteBusAccess t a true h
          · exact h

/-! ### Both paths -/

theorem onTiming_read8 (a : Addr) : Keeps (OnTiming C) (read8 env a) := by
  have hhalf :
      Keeps (OnTiming C) (modifyTiming fun t => t.noteFastHalfCycles 6 : MemoryM ω PUnit) :=
    onTiming_modifyTiming fun t h => hC.noteFastHalfCycles t 6 h
  have haccess :
      Keeps (OnTiming C) (modifyTiming fun t => t.noteBusAccess a false : MemoryM ω PUnit) :=
    onTiming_modifyTiming fun t h => hC.noteBusAccess t a false h
  refine keeps_get_bind' fun s => ?_
  refine keeps_ite (keeps_pure _) ?_
  refine keeps_ite (keeps_pure _) ?_
  apply keeps_ite
  · refine keeps_bind (onTiming_modifyMemory fun _ => rfl) fun _ => ?_
    exact keeps_bind haccess fun _ => onTiming_busRead a
  refine keeps_ite (keeps_bind hhalf fun _ => keeps_pure _) ?_
  refine keeps_ite (keeps_bind hhalf fun _ => keeps_pure _) ?_
  cases c64MapRead a s.memory.bankMode with
  | ram | basic | kernal | cartROML | cartROMH | openBus => exact keeps_pure _
  | charROM => exact keeps_bind haccess fun _ => keeps_pure _
  | io => exact onTiming_ioRead hC henv a

omit henv in
theorem onTiming_writePort (a : Addr) (v : Byte) : Keeps (OnTiming C) (writePort env a v) := by
  refine keeps_bind (onTiming_modifyMemory fun m => by split <;> rfl) fun _ => ?_
  refine keeps_bind (fun _ h => h) fun _ => ?_
  exact keeps_bind (onTiming_mirrorWrite hC a v) fun _ => onTiming_modifyMemory fun _ => rfl

theorem onTiming_write8 (a : Addr) (v : Byte) : Keeps (OnTiming C) (write8 env a v) := by
  refine keeps_get_bind' fun s => ?_
  refine keeps_ite (onTiming_writePort hC a v) ?_
  refine keeps_ite (onTiming_modifyMemory fun _ => rfl) ?_
  apply keeps_ite
  · refine keeps_bind (onTiming_modifyMemory fun _ => rfl) fun _ => ?_
    exact keeps_bind (onTiming_modifyTiming fun t h => hC.noteBusAccess t a true h) fun _ =>
      onTiming_busWrite a v
  exact keeps_ite (onTiming_ioWrite hC henv a v) (onTiming_storeRAM hC henv a v)

theorem onTiming_readFast (a : Addr) : Keeps (OnTiming C) (readFast env a) := by
  refine keeps_get_bind' fun s => ?_
  exact keeps_ite (keeps_pure _) (keeps_ite (keeps_pure _) (onTiming_read8 hC henv a))

theorem onTiming_writeFast (a : Addr) (v : Byte) : Keeps (OnTiming C) (writeFast env a v) := by
  refine keeps_get_bind' fun s => ?_
  refine keeps_ite (onTiming_modifyMemory fun _ => rfl) ?_
  exact keeps_ite (onTiming_storeRAM hC henv a v) (onTiming_write8 hC henv a v)

/-! ### Time -/

omit henv

theorem onTiming_refreshInterruptsIfDue : Keeps (OnTiming C) (refreshInterruptsIfDue env) := by
  refine keeps_bind (onTiming_modifyTiming hC.checkDeadline) fun _ => ?_
  refine keeps_getMemory_bind fun m => ?_
  apply keeps_onlyIf
  unfold sampleLines
  cases env.bus with
  | none => exact keeps_pure _
  | some bus =>
      refine keeps_bind (onTiming_callOutside _) fun lines => ?_
      exact onTiming_modifyTiming fun t h => hC.latchInterrupts t lines.1 lines.2 h

theorem onTiming_setPacing (host : BitVec 64) (hz : ℕ) :
    Keeps (OnTiming C) (setPacing env host hz) := by
  refine keeps_bind (onTiming_modifyTiming fun t h => hC.selectSpeed t hz h) fun _ => ?_
  apply keeps_ite
  · exact onTiming_modifyTiming fun t h => hC.realTime t 0 _ _ _ _ h
  · exact keeps_bind (onTiming_modifyTiming fun t h => hC.realTime t _ _ _ _ _ h) fun _ =>
      onTiming_resyncPacing hC.realTime

omit hC in
theorem onTiming_reset (hT : TimingInvariant C) : Keeps (OnTiming C) (reset env) := by
  refine keeps_bind (fun s h => hT.reset s.memory.timing h) fun _ => ?_
  refine keeps_bind (onTiming_callOutside _) fun _ => ?_
  refine keeps_bind (onTiming_resyncPacing hT.realTime) fun _ => ?_
  refine keeps_bind (onTiming_modifyMemory fun _ => rfl) fun _ => ?_
  exact keeps_bind (fun _ h => h) fun _ =>
    onTiming_modifyMemory fun _ => rfl

omit hC in
theorem onTiming_initializeC64CIA2 : Keeps (OnTiming C) (initializeC64CIA2 env) := by
  unfold initializeC64CIA2
  cases env.bus with
  | none => exact keeps_pure _
  | some bus =>
      refine keeps_bind (onTiming_busWrite _ _) fun _ => ?_
      refine keeps_bind (onTiming_busWrite _ _) fun _ => ?_
      refine keeps_bind (onTiming_callOutside _) fun verified => ?_
      exact keeps_bind (keeps_onlyIf (onTiming_modifyMemory fun _ => rfl)) fun _ =>
        keeps_pure verified

omit hC in
/-- Every operation but a tick. -/
theorem onTiming_program (hT : TimingInvariant C) (henv : env.Keeps (OnTiming C))
    {op : MemoryOp ω} (hop : ∀ n, op ≠ .tick n) :
    Keeps (OnTiming C) (op.program env) := by
  have hC := hT.toAccessInvariant
  cases op with
  | read8 a => exact onTiming_read8 hC henv a
  | write8 a v => exact onTiming_write8 hC henv a v
  | readFast a => exact onTiming_readFast hC henv a
  | writeFast a v => exact onTiming_writeFast hC henv a v
  | irqFast | nmiFast | sampleIRQNMIFast =>
      exact keeps_bind (onTiming_refreshInterruptsIfDue hC) fun _ =>
        keeps_getMemory_bind fun _ => keeps_pure _
  | tick n => exact absurd rfl (hop n)
  | setPacing host hz => exact onTiming_setPacing hC host hz
  | resyncPacing => exact onTiming_resyncPacing hC.realTime
  | reset => exact onTiming_reset hT
  | initializeC64CIA2 => exact onTiming_initializeC64CIA2
  | setRAMUnderIOAccessible on => exact onTiming_modifyMemory fun _ => rfl
  | setNMIRetime on => exact onTiming_modifyTiming fun t h => hT.setNMIRetime t on h
  | setIECThrottle on | setIOStretch on | setMirrorStretch on | enableBusKeepalive on =>
      exact onTiming_modifyTiming fun t h => hT.switches t _ _ _ _ _ h
  | enablePostedWriteTiming on =>
      exact onTiming_modifyTiming fun t h => hT.enablePostedWriteTiming t on h
  | noteFastHalfCycles n => exact onTiming_modifyTiming fun t h => hC.noteFastHalfCycles t n h
  | takeRunBreak => exact onTiming_modifyTiming fun t h => hT.switches t _ _ _ _ false h
  | surroundings f => exact onTiming_callOutside _

end Rules

end ScpuEmu
