import ScpuEmu.Cpu.Bus
import Mathlib.Data.Set.Basic
import Mathlib.Logic.Function.Basic

/-!
# Buses with memory on them

Part of the address space of a bus holds bytes, and does nothing else. A program that
keeps to these bytes is a function of the registers and of the bytes it reads; the rest
of the bus, and the passing of time there, does not show in it.
-/

namespace ScpuEmu

open Library

/-- The bytes that a bus holds. All `cells` can be read without a change to any of them,
and those in `ram` take a write. -/
structure CpuBus.Memory {σ : Type} (bus : CpuBus σ) where
  byte : σ → BitVec 24 → Byte
  cells : Set (BitVec 24)
  ram : Set (BitVec 24)
  ram_subset : ram ⊆ cells
  read8_value : ∀ s, ∀ a ∈ cells, (bus.read8 s a).value = byte s a
  read8_byte : ∀ s, ∀ a ∈ cells, ∀ b ∈ cells, byte (bus.read8 s a).state b = byte s b
  write8_byte : ∀ s v, ∀ a ∈ ram, ∀ b ∈ cells,
    byte (bus.write8 s a v).state b = Function.update (byte s) a v b
  rerouteVector_byte : ∀ s vec, ∀ b ∈ cells, byte (bus.rerouteVector s vec).state b = byte s b
  noteNMITaken_byte : ∀ s, ∀ b ∈ cells, byte (bus.noteNMITaken s).state b = byte s b

/-- All of the flat bus is memory. -/
def flatMemory : flatBus.Memory where
  byte := FlatMemory.mem
  cells := Set.univ
  ram := Set.univ
  ram_subset := fun _ h => h
  read8_value _ _ _ := rfl
  read8_byte _ _ _ _ _ := rfl
  write8_byte s v a _ b _ := by
    rw [Function.update_apply]
    rfl
  rerouteVector_byte _ _ _ _ := rfl
  noteNMITaken_byte _ _ _ := rfl

namespace CpuBus.Memory

variable {ρ σ α β : Type} {bus : CpuBus σ}

/-- A core with registers `r` and the bytes `mem` in the memory of its bus. -/
structure At (M : bus.Memory) (core : Core ρ σ) (r : ρ) (mem : BitVec 24 → Byte) : Prop where
  regs : core.regs = r
  byte : ∀ a ∈ M.cells, M.byte core.bus a = mem a

/-- A program has returned `v` and left the core with registers `r` and the bytes `mem`. -/
def Ends (M : bus.Memory) (outcome : α × Core ρ σ) (v : α) (r : ρ) (mem : BitVec 24 → Byte) :
    Prop :=
  outcome.1 = v ∧ M.At outcome.2 r mem

variable {M : bus.Memory} {core : Core ρ σ} {r : ρ} {mem : BitVec 24 → Byte}

theorem at_self (M : bus.Memory) (core : Core ρ σ) : M.At core core.regs (M.byte core.bus) :=
  ⟨rfl, fun _ _ => rfl⟩

theorem At.congr {mem' : BitVec 24 → Byte} (h : M.At core r mem)
    (hmem : ∀ a ∈ M.cells, mem a = mem' a) : M.At core r mem' :=
  ⟨h.regs, fun a ha => (h.byte a ha).trans (hmem a ha)⟩

theorem ends_pure (h : M.At core r mem) (v : α) :
    M.Ends ((pure v : CoreM ρ σ α).run core) v r mem := ⟨rfl, h⟩

theorem Ends.bind {m : CoreM ρ σ α} {f : α → CoreM ρ σ β} {v : α} {w : β} {r' : ρ}
    {mem' : BitVec 24 → Byte} (hm : M.Ends (m.run core) v r mem)
    (hf : M.Ends ((f v).run (m.run core).2) w r' mem') :
    M.Ends ((m >>= f).run core) w r' mem' := by
  rw [run_bind, hm.1]
  exact hf

theorem ends_getRegs (h : M.At core r mem) :
    M.Ends ((getRegs : CoreM ρ σ ρ).run core) r r mem := ⟨h.regs, h⟩

theorem ends_modifyRegs (h : M.At core r mem) (f : ρ → ρ) :
    M.Ends ((modifyRegs f : CoreM ρ σ PUnit).run core) ⟨⟩ (f r) mem :=
  ⟨rfl, congrArg f h.regs, h.byte⟩

theorem ends_busRead8 (h : M.At core r mem) {a : BitVec 24} (ha : a ∈ M.cells) :
    M.Ends ((busRead8 bus a : CoreM ρ σ Byte).run core) (mem a) r mem := by
  refine ⟨?_, h.regs, fun b hb => ?_⟩
  · exact (M.read8_value core.bus a ha).trans (h.byte a ha)
  · exact (M.read8_byte core.bus a ha b hb).trans (h.byte b hb)

theorem ends_busWrite8 (h : M.At core r mem) {a : BitVec 24} (ha : a ∈ M.ram) (v : Byte) :
    M.Ends ((busWrite8 bus a v : CoreM ρ σ Unit).run core) () r (Function.update mem a v) := by
  refine ⟨rfl, h.regs, fun b hb => (M.write8_byte core.bus v a ha b hb).trans ?_⟩
  rw [Function.update_apply, Function.update_apply, h.byte b hb]

end CpuBus.Memory

end ScpuEmu
