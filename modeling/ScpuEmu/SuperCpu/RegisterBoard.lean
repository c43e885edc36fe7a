import ScpuEmu.SuperCpu.Presentation
import ScpuEmu.SuperCpu.RegisterRuns

/-!
# The register file on its board

The register file as the accelerator is wired to it: what its pointers reach in the memory
is loaded before a call and stored after it, its policy goes to the write buffer, and its
speed hook sets the pace.
-/

namespace ScpuEmu

open Library

/-- The register file, and the rest of what stands around the memory. -/
structure Fitted (β : Type) where
  file : CSuperCPURegisters
  rest : β

/-- What the accelerator is built around. -/
structure Chassis (β : Type) where
  bus : C64Bus β
  hdmiActive : β → Bool
  takeSpriteSpriteCollision : β → Byte × β
  takeSpriteBackgroundCollision : β → Byte × β
  clearCollisions : β → β

namespace CSuperCPURegisters

variable (r : CSuperCPURegisters)

/-- The register file with what its pointers reach. -/
def load (lines : MapLines) : CSuperCPURegisters :=
  { r with
    bootmapFlag := r.bootmapFlag.map fun _ => lines.bootmapActive
    kernalShadowBase := r.kernalShadowBase.map fun _ => lines.kernalShadowBase
    bank1 := r.bank1.map fun bank1 => lines.romShadow.getD bank1 }

def store (lines : MapLines) : MapLines where
  bootmapActive := r.bootmapFlag.getD lines.bootmapActive
  kernalShadowBase := r.kernalShadowBase.getD lines.kernalShadowBase
  romShadow := lines.romShadow.map fun shadow => r.bank1.getD shadow

/-- `currentClockHz`. -/
def currentClockHz : ℕ := if r.fastMode then 20000000 else 1000000

end CSuperCPURegisters

namespace Fitted

variable {α β : Type} (o : Fitted β)

def onRest (op : β → α × β) : α × Fitted β := ((op o.rest).1, { o with rest := (op o.rest).2 })

def mapRest (f : β → β) : Fitted β := { o with rest := f o.rest }

end Fitted

def C64Bus.fitted {β : Type} (bus : C64Bus β) : C64Bus (Fitted β) where
  read o a := o.onRest fun r => bus.read r a
  write o a v := o.mapRest fun r => bus.write r a v
  writeRAM o a v := o.mapRest fun r => bus.writeRAM r a v
  verifyC64CIA2DDRA o v := o.onRest fun r => bus.verifyC64CIA2DDRA r v
  sampleInterrupts o := o.onRest bus.sampleInterrupts
  hostCycles o := o.onRest bus.hostCycles
  hostCyclesPast o anchor owed := o.onRest fun r => bus.hostCyclesPast r anchor owed
  hostCyclesPerSec o := bus.hostCyclesPerSec o.rest
  gameAsserted o := bus.gameAsserted o.rest
  exromAsserted o := bus.exromAsserted o.rest
  cyclesPerLine o := bus.cyclesPerLine o.rest

namespace Chassis

variable {β : Type} (b : Chassis β)

/-- The hook was called if it counted a call. -/
def registers : Cartridge (Fitted β) where
  ioRead o lines a :=
    let (answer, file) := (o.file.load lines).ioRead a
    (answer, file.store lines, { o with file := file })
  ioWrite o lines a v :=
    let (handled, file) := (o.file.load lines).ioWrite a v
    { handled := handled
      lines := file.store lines
      speeds :=
        if file.speedHook = o.file.speedHook then []
        else [(b.bus.hostCyclesPerSec o.rest, file.currentClockHz)]
      state := { o with file := file } }
  ioAccessNeedsStretch _ a write := CSuperCPURegisters.ioAccessNeedsStretch a write
  ioAccessUsesWriteBuffer o a write := o.file.ioAccessUsesWriteBuffer a write
  dosExtensionEnabled o := o.file.dosExtensionEnabled
  interruptRerouteRequested o := o.file.interruptRerouteRequested

/-- The accelerator with its register file. A write that leaves the optimisation register
alone selects the policy that the buffer has already. -/
def superCpu : SuperCpu (Fitted β) where
  bus := b.bus.fitted
  registers := b.registers
  policy o lines a v := some (CSuperCPURegisters.mirrorPolicy
    (CSuperCPURegisters.mirrorSelector ((o.file.load lines).ioWrite a v).2.optim))
  hdmiActive o := b.hdmiActive o.rest
  takeSpriteSpriteCollision o := o.onRest b.takeSpriteSpriteCollision
  takeSpriteBackgroundCollision o := o.onRest b.takeSpriteBackgroundCollision
  clearCollisions o := o.mapRest b.clearCollisions

end Chassis

/-! ### Addresses that the devices pass on -/

/-- No device on the board decodes the address; a byte that is written may be captured. -/
def PassedOn (a : Addr) : Prop :=
  ¬ CSuperCPURegisters.inColorRAM a ∧ ¬ CSuperCPURegisters.inSysRAM a ∧
    ¬ CSuperCPURegisters.inUserRAM a ∧ ¬ CSuperCPURegisters.inD07x a ∧
    ¬ CSuperCPURegisters.inD0Bx a ∧ ¬ 0xDF00#16 ≤ a

namespace CSuperCPURegisters

variable (r : CSuperCPURegisters) {a : Addr} (ha : PassedOn a)
include ha

theorem ioRead_of_passedOn : r.ioRead a = (none, r) := by
  obtain ⟨hcolor, hsys, huser, -, hblock, -⟩ := ha
  unfold ioRead
  rw [if_neg fun h => hcolor h.2, if_neg hsys, if_neg huser, if_pos hblock]

theorem ioWrite_of_passedOn (v : Byte) :
    r.ioWrite a v = (false, if r.version = .v2 ∧ captured a then r.bank1Write a v else r) := by
  obtain ⟨-, hsys, huser, hswitches, hblock, hlow⟩ := ha
  have hstrobe (b : Addr) (hb : 0xDF00#16 ≤ b) : a ≠ b := fun h => hlow (h ▸ hb)
  unfold ioWrite
  rw [if_neg (hstrobe _ (by decide)), if_neg (hstrobe _ (by decide))]
  dsimp only
  rw [if_neg hsys, if_neg huser, if_pos ⟨hswitches, hblock⟩]

end CSuperCPURegisters

theorem claims_of_passedOn (unit : CREU) {a : Addr} (ha : PassedOn a) : unit.claims a = false := by
  rw [CREU.claims, decide_eq_false ha.2.2.2.2.2]
  rfl

theorem reuRead_of_passedOn {ρ : Type} (s : Machine (WithREU ρ)) {a : Addr} (ha : PassedOn a) :
    reuRead s a = (none, s) := by
  rw [reuRead, CREU.read, if_pos (claims_of_passedOn _ ha)]

theorem reuWrite_of_passedOn {ρ : Type} (host : IREUHost (HostSide ρ)) (s : Machine (WithREU ρ))
    {a : Addr} (ha : PassedOn a) (v : Byte) : reuWrite host s a v = (false, s) := by
  rw [reuWrite, REUMachine.write, if_pos (claims_of_passedOn _ ha)]

/-- The devices leave an address to the chips, and change nothing of the memory but the lines
that they drive. What the bus answers does not depend on them. -/
structure Surroundings.PassesOn {ω : Type} (env : Surroundings ω) (a : Addr) : Prop where
  read : ∀ io, env.io = some io → ∀ s, (io.ioRead s a).1 = none ∧
    ∃ lines, (io.ioRead s a).2.memory = s.memory.setMapLines lines
  write : ∀ io, env.io = some io → ∀ s v, (io.ioWrite s a v).1 = false ∧
    ∃ lines, (io.ioWrite s a v).2.memory = s.memory.setMapLines lines
  answer : ∀ io, env.io = some io → ∀ s,
    ((busRead env a).run (io.ioRead s a).2).1 = ((busRead env a).run s).1

section Board

variable {β : Type} (b : Chassis β) {a : Addr} (ha : PassedOn a)
include ha

theorem Chassis.registerRead_of_passedOn (s : System (Fitted β)) :
    ∃ lines file, b.superCpu.board.registerRead s a =
      (none, ⟨s.memory.setMapLines lines, { s.outside with
        rest := { s.outside.rest with rest := { s.outside.rest.rest with file := file } } }⟩) := by
  have hread := (s.outside.rest.rest.file.load s.memory.mapLines).ioRead_of_passedOn ha
  simp only [Board.registerRead, SuperCpu.board, SuperCpu.cartridge, superCpu, registers, hread]
  exact ⟨_, _, rfl⟩

theorem Chassis.registerWrite_of_passedOn (s : System (Fitted β)) (v : Byte) :
    (b.superCpu.board.registerWrite s a v).1 = false ∧
      ∃ lines, (b.superCpu.board.registerWrite s a v).2.memory = s.memory.setMapLines lines := by
  have hwrite := (s.outside.rest.rest.file.load s.memory.mapLines).ioWrite_of_passedOn ha v
  have hhook : (if (s.outside.rest.rest.file.load s.memory.mapLines).version = .v2 ∧
      CSuperCPURegisters.captured a then
        (s.outside.rest.rest.file.load s.memory.mapLines).bank1Write a v
      else s.outside.rest.rest.file.load s.memory.mapLines).speedHook =
        s.outside.rest.rest.file.speedHook := by
    split
    · exact (CSuperCPURegisters.quiet_bank1Write _ a v).2.1
    · rfl
  simp only [Board.registerWrite, SuperCpu.board, SuperCpu.cartridge, superCpu, registers, hwrite,
    if_pos hhook]
  exact ⟨trivial, _, rfl⟩

/-- The register file and the expansion unit leave such an address to the chips. -/
theorem Chassis.passesOn (depth : ℕ) : (b.superCpu.board.env depth).PassesOn a where
  read io hio s := by
    obtain rfl : b.superCpu.board.chain (b.superCpu.board.hostAt depth) = io := Option.some.inj hio
    obtain ⟨lines, file, hregisters⟩ := b.registerRead_of_passedOn ha s
    rw [Board.chain_ioRead, hregisters, if_neg (by simp), reuRead_of_passedOn _ ha]
    exact ⟨rfl, lines, rfl⟩
  write io hio s v := by
    obtain rfl : b.superCpu.board.chain (b.superCpu.board.hostAt depth) = io := Option.some.inj hio
    obtain ⟨hpassed, hmemory⟩ := b.registerWrite_of_passedOn ha s v
    rw [Board.chain_ioWrite, if_neg (by simp [hpassed]), reuWrite_of_passedOn _ _ ha]
    exact ⟨rfl, hmemory⟩
  answer io hio s := by
    obtain rfl : b.superCpu.board.chain (b.superCpu.board.hostAt depth) = io := Option.some.inj hio
    obtain ⟨lines, file, hregisters⟩ := b.registerRead_of_passedOn ha s
    rw [Board.chain_ioRead, hregisters, if_neg (by simp), reuRead_of_passedOn _ ha]
    rfl

end Board

end ScpuEmu
