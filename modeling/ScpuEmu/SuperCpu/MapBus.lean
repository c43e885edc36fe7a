import ScpuEmu.SuperCpu.BatchCharging
import ScpuEmu.SuperCpu.MemoryMap

/-!
# The bus of the accelerator's core

The 65816 runs on the 24-bit address space. What its accesses do to the clock of bank 0 are
elementary changes, so its runs charge the accesses of a batch with the tick of the batch.
-/

namespace ScpuEmu

open Library Timing

namespace CSuperCPUMemoryMap

variable {α β : Type}

def clock (m : CSuperCPUMemoryMap β) : Timing := m.system.memory.timing

/-- An operation that the core asks for. The hooks that end its slice raise a flag, which it
takes. -/
def onCore (op : MapM β α) (m : CSuperCPUMemoryMap β) : BusReply (CSuperCPUMemoryMap β) α :=
  let reply := op.run m
  ⟨reply.1, reply.2.clock.runBreak, reply.2.mapTiming fun t => { t with runBreak := false }⟩

variable (b : Chassis β) (depth : ℕ)

/-- The bus of the core. That an NMI is taken is only noted for a post-mortem. -/
def cpuBus : CpuBus (CSuperCPUMemoryMap β) where
  read8 m a := onCore (read8 b depth a) m
  write8 m a v := onCore (write8 b depth a v) m
  irqAsserted m := onCore (onBank0 (irqFast (env b depth))) m
  nmiAsserted m := onCore (onBank0 (nmiFast (env b depth))) m
  sampleInterrupts m := onCore (onBank0 (sampleIRQNMIFast (env b depth))) m
  tick m n := onCore (onBank0 (tickFast (env b depth) n)) m
  fineTicksRequired m := m.clock.fineTicksRequired
  interruptRerouteActive m emulationMode := m.interruptRerouteActive b emulationMode
  rerouteVector m vec := onCore (rerouteVector b depth vec) m
  noteNMITaken m := ⟨(), false, m⟩

/-! ### What the accesses do to the clock -/

section Clock

variable {C : Timing → Prop}

/-- A property of the clock, as one of the map. -/
abbrev OnClock (C : Timing → Prop) (m : CSuperCPUMemoryMap β) : Prop := C m.clock

theorem onClock_onBank0 {op : MemoryM (WithREU (Accelerator (Fitted (WithSIMM β)))) α}
    (hop : Keeps (OnTiming C) op) : Keeps (OnClock C) (onBank0 op) := fun m h => hop m.system h

variable {b depth} (hC : AccessInvariant C)
include hC

theorem onClock_noteFastHalfCycles (n : ℕ) :
    Keeps (OnClock C) (noteFastHalfCycles n : MapM β PUnit) :=
  fun m h => hC.noteFastHalfCycles m.clock n h

theorem onClock_simmAccess (offset : BitVec 32) (write : Bool) :
    Keeps (OnClock C) (simmAccess offset write : MapM β PUnit) := by
  refine keeps_bind keeps_get fun m => keeps_bind (fun _ h => h) fun _ => ?_
  exact onClock_noteFastHalfCycles hC _

theorem onClock_readAbove (addr : BitVec 24) :
    Keeps (OnClock C) (readAbove addr : MapM β Byte) := by
  refine keeps_bind (fun _ h => h) fun _ => keeps_bind keeps_get fun m => ?_
  refine keeps_ite (keeps_pure _) ?_
  refine keeps_ite (keeps_bind (onClock_noteFastHalfCycles hC 6) fun _ => keeps_pure _) ?_
  apply keeps_ite
  · refine keeps_ite (keeps_pure _) ?_
    exact keeps_bind (onClock_simmAccess hC _ _) fun _ => keeps_bind keeps_get fun _ =>
      keeps_pure _
  refine keeps_ite ?_ (keeps_pure _)
  exact keeps_bind (onClock_simmAccess hC _ _) fun _ => keeps_bind keeps_get fun _ =>
    keeps_pure _

theorem onClock_writeAbove (addr : BitVec 24) (v : Byte) :
    Keeps (OnClock C) (writeAbove addr v : MapM β PUnit) := by
  refine keeps_bind (fun _ h => h) fun _ => keeps_bind keeps_get fun m => ?_
  refine keeps_ite (onClock_onBank0 fun _ h => h) ?_
  refine keeps_ite (onClock_noteFastHalfCycles hC 6) ?_
  apply keeps_ite
  · refine keeps_ite (keeps_pure _) ?_
    exact keeps_bind (onClock_simmAccess hC _ _) fun _ => fun _ h => h
  refine keeps_ite ?_ (keeps_pure _)
  exact keeps_bind (onClock_simmAccess hC _ _) fun _ => fun _ h => h

theorem onTiming_env : (env b depth).Keeps (OnTiming C) :=
  env_keeps b.mapped.board hC.keptByAccesses depth

theorem onClock_read8 (addr : BitVec 24) : Keeps (OnClock C) (read8 b depth addr) := by
  apply keeps_ite
  · exact keeps_bind (fun _ h => h) fun _ =>
      onClock_onBank0 (onTiming_readFast hC (onTiming_env hC) _)
  refine keeps_ite ?_ (onClock_readAbove hC addr)
  refine keeps_bind (fun _ h => h) fun _ =>
    keeps_ite ?_ (keeps_bind keeps_get fun _ => keeps_pure _)
  exact onClock_onBank0 (onTiming_read8 hC (onTiming_env hC) _)

theorem onClock_write8 (addr : BitVec 24) (v : Byte) :
    Keeps (OnClock C) (write8 b depth addr v) := by
  apply keeps_ite
  · exact keeps_bind (fun _ h => h) fun _ =>
      onClock_onBank0 (onTiming_writeFast hC (onTiming_env hC) _ v)
  refine keeps_ite ?_ (onClock_writeAbove hC addr v)
  refine keeps_bind (fun _ h => h) fun _ => keeps_ite ?_ (onClock_onBank0 fun _ h => h)
  exact onClock_onBank0 (onTiming_write8 hC (onTiming_env hC) _ v)

theorem onClock_rerouteVector (vec : Addr) : Keeps (OnClock C) (rerouteVector b depth vec) := by
  refine keeps_bind (fun _ h => h) fun _ => ?_
  exact keeps_bind (onClock_read8 hC _) fun _ => keeps_bind (onClock_read8 hC _) fun _ =>
    keeps_pure _

theorem onClock_sampleIRQNMIFast :
    Keeps (OnClock C) (onBank0 (sampleIRQNMIFast (env b depth))) := by
  refine onClock_onBank0 (keeps_bind (onTiming_refreshInterruptsIfDue hC) fun _ => ?_)
  exact keeps_getMemory_bind fun _ => keeps_pure _

end Clock

/-! ### The clock of the bus -/

theorem acts_accesses (t : Timing) : AccessInvariant fun u => ∃ reports, t.Acts reports u where
  notePollHold _ h := acts_then (p := .notePollHold) h trivial
  noteIECActivity _ h := acts_then (p := .noteIECActivity) h trivial
  acknowledgeICR _ h := acts_then (p := .acknowledgeICR) h trivial
  noteBusAccess _ a w h := acts_then (p := .noteBusAccess a w) h trivial
  noteMirrorWrite _ h := acts_then (p := .noteMirrorWrite) h trivial
  noteFastHalfCycles _ n h := acts_then (p := .noteFastHalfCycles n) h trivial
  endPollHold _ h := acts_then (p := .endPollHold) h trivial
  cia2TimerWrite _ a v h := acts_then (p := .cia2TimerWrite a v) h trivial
  checkDeadline _ h := acts_then (p := .checkDeadline) h trivial
  latchInterrupts _ irq nmi h := acts_then (p := .latchInterrupts irq nmi) h trivial
  selectSpeed _ hz h := acts_then (p := .selectSpeed hz) h trivial
  breakRun _ h := acts_trans h ⟨_, acts_runBreak _ true⟩
  realTime _ rate slow anchor debt keepalive h :=
    acts_then (p := .realTime rate slow anchor debt keepalive) h trivial

theorem clock_onCore (op : MapM β α) (m : CSuperCPUMemoryMap β) :
    (onCore op m).state.clock = { (op.run m).2.clock with runBreak := false } := rfl

theorem clock_onBank0 (op : MemoryM (WithREU (Accelerator (Fitted (WithSIMM β)))) α)
    (m : CSuperCPUMemoryMap β) :
    ((onBank0 op).run m).2.clock = (op.run m.system).2.memory.timing := rfl

theorem acts_onCore {op : MapM β α} (hop : ∀ C, AccessInvariant C → Keeps (OnClock C) op)
    (m : CSuperCPUMemoryMap β) : ∃ reports, m.clock.Acts reports (onCore op m).state.clock := by
  have hacts := hop _ (acts_accesses m.clock) m ⟨[], .refl _⟩
  rw [clock_onCore]
  exact acts_trans hacts ⟨_, acts_runBreak _ false⟩

/-- A tick also settles with real time, which no charge depends on. -/
theorem acts_tick (m : CSuperCPUMemoryMap β) (n : ℕ) :
    (m.clock.tickFast n).Acts [] (onCore (onBank0 (tickFast (env b depth) n)) m).state.clock := by
  have hreal : KeptInRealTime fun u => (m.clock.tickFast n).Acts [] u :=
    fun _ rate slow anchor debt keepalive h =>
      h.trans (acts_step (p := .realTime rate slow anchor debt keepalive) trivial)
  have htick : (m.clock.tickFast n).Acts []
      ((tickFast (env b depth) n).run m.system).2.memory.timing :=
    timing_tickFast hreal m.system n (.refl _)
  rw [clock_onCore, clock_onBank0]
  exact htick.trans (acts_runBreak _ false)

/-- The bus of the core has the clock of bank 0. -/
theorem clockedBy_cpuBus : W65C816.ClockedBy (cpuBus b depth) clock where
  read8 m a := acts_onCore (fun _ hC => onClock_read8 hC a) m
  write8 m a v := acts_onCore (fun _ hC => onClock_write8 hC a v) m
  rerouteVector m vec := acts_onCore (fun _ hC => onClock_rerouteVector hC vec) m
  noteNMITaken m := ⟨[], .refl m.clock⟩
  sampleInterrupts m := acts_onCore (fun _ hC => onClock_sampleIRQNMIFast hC) m
  tick m n := acts_tick b depth m n
  fineTicksRequired _ := rfl

end CSuperCPUMemoryMap

end ScpuEmu
