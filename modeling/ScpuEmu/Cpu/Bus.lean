import ScpuEmu.Types
import ScpuEmu.Library.StateProgram

/-!
# The bus of a processor core

All a core knows of the machine around it is a bus: bytes in a 24-bit address
space, two interrupt lines, and the passing of time. The state of the machine is
an arbitrary type. Any access may make the machine call `requestRunBreak`.
-/

namespace ScpuEmu

open Library

/-- What a bus operation answers, and whether it ended the slice of the core on the way. -/
structure BusReply (σ α : Type) where
  value : α
  requestRunBreak : Bool
  state : σ

/-- `ICpuBus`, with the further questions a core asks its memory map. A bus without a
memory map answers them with no, and samples the IRQ line before the NMI line. -/
structure CpuBus (σ : Type) where
  read8 : σ → BitVec 24 → BusReply σ Byte
  write8 : σ → BitVec 24 → Byte → BusReply σ Unit
  irqAsserted : σ → BusReply σ Bool
  nmiAsserted : σ → BusReply σ Bool
  sampleInterrupts : σ → BusReply σ (Bool × Bool)
  tick : σ → ℕ → BusReply σ Unit
  fineTicksRequired : σ → Bool
  interruptRerouteActive : σ → Bool → Bool
  rerouteVector : σ → BitVec 16 → BusReply σ (BitVec 16)
  noteNMITaken : σ → BusReply σ Unit

/-! ### Observed buses -/

inductive BusAccess
  | read (address : BitVec 24) (value : Byte)
  | write (address : BitVec 24) (value : Byte)

/-- A bus state with the accesses made so far. -/
structure Logged (σ : Type) where
  state : σ
  log : List BusAccess

def BusReply.logged {σ α : Type} (reply : BusReply σ α) (log : List BusAccess) :
    BusReply (Logged σ) α :=
  ⟨reply.value, reply.requestRunBreak, ⟨reply.state, log⟩⟩

/-- The bus, with a log of its reads and writes. -/
def CpuBus.logged {σ : Type} (bus : CpuBus σ) : CpuBus (Logged σ) where
  read8 s a :=
    let reply := bus.read8 s.state a
    reply.logged (s.log ++ [.read a reply.value])
  write8 s a v := (bus.write8 s.state a v).logged (s.log ++ [.write a v])
  irqAsserted s := (bus.irqAsserted s.state).logged s.log
  nmiAsserted s := (bus.nmiAsserted s.state).logged s.log
  sampleInterrupts s := (bus.sampleInterrupts s.state).logged s.log
  tick s n := (bus.tick s.state n).logged s.log
  fineTicksRequired s := bus.fineTicksRequired s.state
  interruptRerouteActive s e := bus.interruptRerouteActive s.state e
  rerouteVector s vec := (bus.rerouteVector s.state vec).logged s.log
  noteNMITaken s := (bus.noteNMITaken s.state).logged s.log

/-- Memory that does nothing but hold bytes, with its interrupt lines and a log of the
writes: the bus of the differential test. -/
structure FlatMemory where
  mem : BitVec 24 → Byte
  irq : Bool
  nmi : Bool
  writes : List (BitVec 24 × Byte)

def FlatMemory.write (s : FlatMemory) (address : BitVec 24) (value : Byte) : FlatMemory :=
  { s with
    mem := fun a => if a = address then value else s.mem a
    writes := s.writes ++ [(address, value)] }

def flatBus : CpuBus FlatMemory where
  read8 s a := ⟨s.mem a, false, s⟩
  write8 s a v := ⟨(), false, s.write a v⟩
  irqAsserted s := ⟨s.irq, false, s⟩
  nmiAsserted s := ⟨s.nmi, false, s⟩
  sampleInterrupts s := ⟨(s.irq, s.nmi), false, s⟩
  tick s _ := ⟨(), false, s⟩
  fineTicksRequired _ := false
  interruptRerouteActive _ _ := false
  rerouteVector s vec := ⟨vec, false, s⟩
  noteNMITaken s := ⟨(), false, s⟩

/-- Registers of type `ρ` on a bus with states of type `σ`. -/
structure Core (ρ σ : Type) where
  regs : ρ
  bus : σ
  runBreak : Bool

abbrev CoreM (ρ σ : Type) := StateM (Core ρ σ)

section Access

variable {ρ σ α : Type}

/-- Take over the answer of a bus operation. -/
def busReply (op : σ → BusReply σ α) : CoreM ρ σ α := do
  let core ← get
  let reply := op core.bus
  set { core with bus := reply.state, runBreak := core.runBreak || reply.requestRunBreak }
  return reply.value

def getRegs : CoreM ρ σ ρ := Core.regs <$> get

def modifyRegs (f : ρ → ρ) : CoreM ρ σ PUnit := modify fun core => { core with regs := f core.regs }

variable (bus : CpuBus σ)

def busRead8 (address : BitVec 24) : CoreM ρ σ Byte := busReply fun s => bus.read8 s address

def busWrite8 (address : BitVec 24) (value : Byte) : CoreM ρ σ Unit :=
  busReply fun s => bus.write8 s address value

@[simp] theorem run_getRegs (core : Core ρ σ) :
    (getRegs : CoreM ρ σ ρ).run core = (core.regs, core) := rfl

@[simp] theorem run_modifyRegs (f : ρ → ρ) (core : Core ρ σ) :
    (modifyRegs f).run core = (⟨⟩, { core with regs := f core.regs }) := rfl

@[simp] theorem regs_busReply (op : σ → BusReply σ α) (core : Core ρ σ) :
    ((busReply op).run core).2.regs = core.regs := rfl

/-- An invariant of the registers, as one of the core. -/
def OnRegs (I : ρ → Prop) (core : Core ρ σ) : Prop := I core.regs

variable {I : ρ → Prop}

@[simp] theorem keeps_busReply (op : σ → BusReply σ α) :
    Keeps (OnRegs I) (busReply op : CoreM ρ σ α) := fun _ h => h

@[simp] theorem keeps_busRead8 (address : BitVec 24) :
    Keeps (OnRegs I) (busRead8 bus address : CoreM ρ σ Byte) := keeps_busReply _

@[simp] theorem keeps_busWrite8 (address : BitVec 24) (value : Byte) :
    Keeps (OnRegs I) (busWrite8 bus address value : CoreM ρ σ Unit) := keeps_busReply _

@[simp] theorem keeps_getRegs : Keeps (OnRegs I) (getRegs : CoreM ρ σ ρ) := fun _ h => h

@[simp] theorem keeps_modifyRegs {f : ρ → ρ} (hf : ∀ r, I r → I (f r)) :
    Keeps (OnRegs I) (modifyRegs f : CoreM ρ σ PUnit) := fun _ h => hf _ h

end Access

/-! ### Properties of the bus -/

/-- The accesses of a core to its bus keep a property of the bus. -/
structure CpuBus.AccessKeeps {σ : Type} (bus : CpuBus σ) (J : σ → Prop) : Prop where
  read8 : ∀ s a, J s → J (bus.read8 s a).state
  write8 : ∀ s a v, J s → J (bus.write8 s a v).state
  rerouteVector : ∀ s vec, J s → J (bus.rerouteVector s vec).state
  noteNMITaken : ∀ s, J s → J (bus.noteNMITaken s).state

/-- A property of the bus, as one of the core. -/
def OnBus {ρ σ : Type} (J : σ → Prop) (core : Core ρ σ) : Prop := J core.bus

section OnBus

variable {ρ σ α : Type} {bus : CpuBus σ} {J : σ → Prop}

theorem onBus_busReply {op : σ → BusReply σ α} (h : ∀ s, J s → J (op s).state) :
    Keeps (OnBus J) (busReply op : CoreM ρ σ α) := fun core => h core.bus

theorem onBus_busRead8 (h : bus.AccessKeeps J) (address : BitVec 24) :
    Keeps (OnBus J) (busRead8 bus address : CoreM ρ σ Byte) :=
  onBus_busReply fun s => h.read8 s address

theorem onBus_busWrite8 (h : bus.AccessKeeps J) (address : BitVec 24) (value : Byte) :
    Keeps (OnBus J) (busWrite8 bus address value : CoreM ρ σ Unit) :=
  onBus_busReply fun s => h.write8 s address value

theorem onBus_getRegs_bind {f : ρ → CoreM ρ σ α} (hf : ∀ r, Keeps (OnBus J) (f r)) :
    Keeps (OnBus J) (getRegs >>= f) := fun core h => hf core.regs core h

theorem onBus_modifyRegs (f : ρ → ρ) : Keeps (OnBus J) (modifyRegs f : CoreM ρ σ PUnit) :=
  fun _ h => h

end OnBus

end ScpuEmu
