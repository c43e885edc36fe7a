import ScpuEmu.Reu.Transfer
import ScpuEmu.C64.Operations

/-!
# The expansion unit in the machine

The accelerator's register file and the REU claim addresses of the I/O window, one after
the other, and a transfer moves its bytes through the ordinary accesses of bank 0. So a
byte of a transfer can reach the registers of the unit again. The host of a transfer is
built from hosts that stand for ever shallower nesting; the innermost one only notes that
it was called.
-/

namespace ScpuEmu

open Library

/-- What the register file reaches of the memory, through the pointers it holds. -/
structure MapLines where
  bootmapActive : Bool
  kernalShadowBase : Addr
  romShadow : Option (Addr → Byte)

/-- What the register file does on a write: among others, it selects speeds. -/
structure CartridgeReply (ρ : Type) where
  handled : Bool
  lines : MapLines
  speeds : List (BitVec 64 × ℕ)
  state : ρ

/-- A register file with states of type `ρ`, such as `CSuperCPURegisters`. -/
structure Cartridge (ρ : Type) where
  ioRead : ρ → MapLines → Addr → Option Byte × MapLines × ρ
  ioWrite : ρ → MapLines → Addr → Byte → CartridgeReply ρ
  ioAccessNeedsStretch : ρ → Addr → Bool → Bool
  ioAccessUsesWriteBuffer : ρ → Addr → Bool → Bool
  dosExtensionEnabled : ρ → Bool
  interruptRerouteRequested : ρ → Bool

/-- The machine around bank 0, except for the expansion unit. -/
structure Board (ρ : Type) where
  bus : Option (C64Bus ρ)
  mirror : Option (Machine ρ → Addr → Byte → Bool × ρ)
  registers : Cartridge ρ
  hdmiActive : ρ → Bool
  takeSpriteSpriteCollision : ρ → Byte × ρ
  takeSpriteBackgroundCollision : ρ → Byte × ρ
  clearCollisions : ρ → ρ

/-- The state around bank 0, with what transfers did so far: the cells they touched, how
many were started, and whether nesting went deeper than the model follows it. -/
structure WithREU (ρ : Type) where
  rest : ρ
  unit : CREU
  touched : List (BitVec 32)
  started : ℕ
  exhausted : Bool

/-- The machine as the unit sees it: everything but itself. -/
structure HostSide (ρ : Type) where
  memory : CC64Memory
  rest : ρ
  exhausted : Bool

section Conversions

variable {ρ α : Type}

def Machine.toREU (s : Machine (WithREU ρ)) : REUMachine (HostSide ρ) :=
  ⟨s.outside.unit, ⟨s.memory, s.outside.rest, s.outside.exhausted⟩, s.outside.touched,
    s.outside.started⟩

def REUMachine.toMachine (m : REUMachine (HostSide ρ)) : Machine (WithREU ρ) :=
  ⟨m.host.memory, ⟨m.host.rest, m.unit, m.touched, m.started, m.host.exhausted⟩⟩

@[simp] theorem REUMachine.toREU_toMachine (m : REUMachine (HostSide ρ)) : m.toMachine.toREU = m :=
  rfl

@[simp] theorem Machine.toMachine_toREU (s : Machine (WithREU ρ)) : s.toREU.toMachine = s := rfl

/-- The machine without the unit. -/
def Machine.withoutREU (s : Machine (WithREU ρ)) : Machine ρ := ⟨s.memory, s.outside.rest⟩

/-- An operation on the rest of the machine. -/
def onRest (op : ρ → α × ρ) (o : WithREU ρ) : α × WithREU ρ :=
  ((op o.rest).1, { o with rest := (op o.rest).2 })

def C64Bus.withREU (bus : C64Bus ρ) : C64Bus (WithREU ρ) where
  read o a := onRest (fun r => bus.read r a) o
  write o a v := { o with rest := bus.write o.rest a v }
  writeRAM o a v := { o with rest := bus.writeRAM o.rest a v }
  verifyC64CIA2DDRA o v := onRest (fun r => bus.verifyC64CIA2DDRA r v) o
  sampleInterrupts := onRest bus.sampleInterrupts
  hostCycles := onRest bus.hostCycles
  hostCyclesPast o anchor owed := onRest (fun r => bus.hostCyclesPast r anchor owed) o
  hostCyclesPerSec o := bus.hostCyclesPerSec o.rest
  gameAsserted o := bus.gameAsserted o.rest
  exromAsserted o := bus.exromAsserted o.rest
  cyclesPerLine o := bus.cyclesPerLine o.rest

end Conversions

def CC64Memory.mapLines (m : CC64Memory) : MapLines :=
  ⟨m.bootmapActive, m.kernalShadowBase, m.romShadow⟩

def CC64Memory.setMapLines (m : CC64Memory) (lines : MapLines) : CC64Memory :=
  { m with
    bootmapActive := lines.bootmapActive
    kernalShadowBase := lines.kernalShadowBase
    romShadow := lines.romShadow }

section Wiring

variable {ρ : Type}

/-- The speed hook: it also ends the slice of the core. -/
def selectSpeeds {ω : Type} (env : Surroundings ω) : List (BitVec 64 × ℕ) → MemoryM ω PUnit
  | [] => pure ⟨⟩
  | (host, hz) :: speeds => do
      setPacing env host hz
      modifyTiming fun t => { t with runBreak := true }
      selectSpeeds env speeds

variable (board : Board ρ)

/-- The board before anything claims addresses. -/
def Board.bare : Surroundings (WithREU ρ) where
  bus := board.bus.map C64Bus.withREU
  mirror :=
    board.mirror.map fun onRamWrite s a v => onRest (fun _ => onRamWrite s.withoutREU a v) s.outside
  io := none
  ff00Hook := none
  hdmiActive o := board.hdmiActive o.rest
  takeSpriteSpriteCollision := onRest board.takeSpriteSpriteCollision
  takeSpriteBackgroundCollision := onRest board.takeSpriteBackgroundCollision
  clearCollisions o := { o with rest := board.clearCollisions o.rest }

/-- A read that the register file is asked for first. -/
def Board.registerRead (s : Machine (WithREU ρ)) (a : Addr) :
    Option Byte × Machine (WithREU ρ) :=
  let (answer, lines, rest) := board.registers.ioRead s.outside.rest s.memory.mapLines a
  (answer, ⟨s.memory.setMapLines lines, { s.outside with rest := rest }⟩)

def Board.registerWrite (s : Machine (WithREU ρ)) (a : Addr) (v : Byte) :
    Bool × Machine (WithREU ρ) :=
  let reply := board.registers.ioWrite s.outside.rest s.memory.mapLines a v
  let s : Machine (WithREU ρ) :=
    ⟨s.memory.setMapLines reply.lines, { s.outside with rest := reply.state }⟩
  (reply.handled, ((selectSpeeds board.bare reply.speeds).run s).2)

variable (host : IREUHost (HostSide ρ))

def reuRead (s : Machine (WithREU ρ)) (a : Addr) : Option Byte × Machine (WithREU ρ) :=
  match s.outside.unit.read a with
  | some (v, unit) => (some v, ⟨s.memory, { s.outside with unit := unit }⟩)
  | none => (none, s)

def reuWrite (s : Machine (WithREU ρ)) (a : Addr) (v : Byte) : Bool × Machine (WithREU ρ) :=
  match s.toREU.write host a v with
  | some m => (true, m.toMachine)
  | none => (false, s)

/-- `CIOInterceptorChain`: the register file, then the unit. -/
def Board.chain : IIOInterceptor (WithREU ρ) where
  ioRead s a :=
    match board.registerRead s a with
    | (some v, s) => (some v, s)
    | (none, s) => reuRead s a
  ioWrite s a v :=
    match board.registerWrite s a v with
    | (true, s) => (true, s)
    | (false, s) => reuWrite host s a v
  ioAccessNeedsStretch s a w := board.registers.ioAccessNeedsStretch s.outside.rest a w
  ioAccessUsesWriteBuffer s a w := board.registers.ioAccessUsesWriteBuffer s.outside.rest a w
  dosExtensionEnabled o := board.registers.dosExtensionEnabled o.rest
  interruptRerouteRequested o := board.registers.interruptRerouteRequested o.rest

theorem Board.chain_ioRead (s : Machine (WithREU ρ)) (a : Addr) :
    (board.chain host).ioRead s a =
      if (board.registerRead s a).1.isSome = true then board.registerRead s a
      else reuRead (board.registerRead s a).2 a := by
  unfold Board.chain
  dsimp only
  rcases board.registerRead s a with ⟨answer, s'⟩
  cases answer <;> rfl

theorem Board.chain_ioWrite (s : Machine (WithREU ρ)) (a : Addr) (v : Byte) :
    (board.chain host).ioWrite s a v =
      if (board.registerWrite s a v).1 = true then (true, (board.registerWrite s a v).2)
      else reuWrite host (board.registerWrite s a v).2 a v := by
  unfold Board.chain
  dsimp only
  rcases board.registerWrite s a v with ⟨handled, s'⟩
  cases handled <;> rfl

/-- The board with its unit, whose transfers go through `host`. -/
def Board.surroundings : Surroundings (WithREU ρ) :=
  { board.bare with
    io := some (board.chain host)
    ff00Hook := some fun s => (s.toREU.noteFF00Write host).toMachine }

/-- `CREUMemoryHost`. -/
def memoryHost (env : Surroundings (WithREU ρ)) : IREUHost (HostSide ρ) where
  read m a :=
    let (v, s) := (read8 env a).run m.toMachine
    (v, s.toREU)
  write m a v := ((write8 env a v).run m.toMachine).2.toREU

/-- The host behind the deepest nesting that is followed. -/
def cutOffHost : IREUHost (HostSide ρ) where
  read m _ := (0xFF, { m with host := { m.host with exhausted := true } })
  write m _ _ := { m with host := { m.host with exhausted := true } }

/-- The host of a transfer, where nesting is followed to a depth. -/
def Board.hostAt : ℕ → IREUHost (HostSide ρ)
  | 0 => cutOffHost
  | depth + 1 => memoryHost (board.surroundings (Board.hostAt depth))

/-- The board at work. -/
def Board.env (depth : ℕ) : Surroundings (WithREU ρ) := board.surroundings (board.hostAt depth)

end Wiring

/-- A register file that claims nothing. -/
def idleRegisters : Cartridge Unit where
  ioRead r lines _ := (none, lines, r)
  ioWrite r lines _ _ := ⟨false, lines, [], r⟩
  ioAccessNeedsStretch _ _ write := write
  ioAccessUsesWriteBuffer _ _ _ := false
  dosExtensionEnabled _ := false
  interruptRerouteRequested _ := false

/-- A board with nothing on it. -/
def emptyBoard : Board Unit where
  bus := none
  mirror := none
  registers := idleRegisters
  hdmiActive _ := false
  takeSpriteSpriteCollision r := (0, r)
  takeSpriteBackgroundCollision r := (0, r)
  clearCollisions r := r

/-- A memory as constructed, where no unit is fitted. -/
def emptyMachine : Machine (WithREU Unit) where
  memory := CC64Memory.construct 0 0 0 (fun _ => 0) fun _ => ⟨0, 0, 0, 0⟩
  outside := ⟨(), CREU.construct, [], 0, false⟩

/-! ### What transfers keep -/

namespace REUMachine

variable {ω : Type} {host : IREUHost ω} {J : ω → Prop}

/-- A host keeps a property of its own side. -/
structure HostKeeps (host : IREUHost ω) (J : ω → Prop) : Prop where
  read : ∀ m a, J m.host → J (host.read m a).2.host
  write : ∀ m a v, J m.host → J (host.write m a v).host

theorem host_transferByte (hhost : HostKeeps host J) (type : Transfer) (c64 : Addr)
    (reu : BitVec 32) (m : REUMachine ω) (h : J m.host) :
    J (transferByte host type c64 reu m).2.host := by
  cases type with
  | stash => exact hhost.read _ _ h
  | fetch => exact hhost.write _ _ _ h
  | swap => exact hhost.write _ _ _ (hhost.read _ _ h)
  | verify => exact hhost.read _ _ h

theorem host_transferLoop (hhost : HostKeeps host J) (type : Transfer) (fixC64 fixREU : Bool)
    (n : ℕ) (c : TransferCursor) (m : REUMachine ω) (h : J m.host) :
    J (transferLoop host type fixC64 fixREU n c m).2.host := by
  induction n generalizing c m with
  | zero => exact h
  | succ n ih =>
      have hbyte := host_transferByte hhost type c.c64 c.reu m h
      rw [transferLoop]
      dsimp only
      split
      · exact hbyte
      · exact ih _ _ hbyte

theorem host_executeTransfer (hhost : HostKeeps host J) (m : REUMachine ω) (h : J m.host) :
    J (executeTransfer host m).host := by
  rw [executeTransfer]
  dsimp only
  split
  · exact h
  · exact host_transferLoop hhost _ _ _ _ _ _ h

theorem host_write (hhost : HostKeeps host J) (m : REUMachine ω) (a : Addr) (v : Byte)
    (h : J m.host) : ∀ m' ∈ m.write host a v, J m'.host := by
  intro m' hm'
  rw [write] at hm'
  split at hm'
  · cases hm'
  · split at hm'
    · dsimp only at hm'
      split at hm'
      · split at hm'
        · cases hm'
          exact host_executeTransfer hhost _ h
        · cases hm'
          exact h
      · cases hm'
        exact h
    · cases hm'
      exact h

theorem host_noteFF00Write (hhost : HostKeeps host J) (m : REUMachine ω) (h : J m.host) :
    J (m.noteFF00Write host).host := by
  rw [noteFF00Write]
  split
  · exact h
  · exact host_executeTransfer hhost _ h

end REUMachine

/-! ### Properties of the memory -/

/-- A property of the memory that its own accesses and the register file keep. -/
structure KeptByAccesses (ρ : Type) (Q : CC64Memory → Prop) : Prop where
  lines : ∀ m lines, Q m → Q (m.setMapLines lines)
  speeds : ∀ (env : Surroundings (WithREU ρ)) (speeds : List (BitVec 64 × ℕ)),
    Keeps (OnMemory Q) (selectSpeeds env speeds)
  read : ∀ (env : Surroundings (WithREU ρ)) (a : Addr), env.Keeps (OnMemory Q) →
    Keeps (OnMemory Q) (read8 env a)
  write : ∀ (env : Surroundings (WithREU ρ)) (a : Addr) (v : Byte), env.Keeps (OnMemory Q) →
    Keeps (OnMemory Q) (write8 env a v)

/-- The memory's part of what a host owns. -/
def HostMemory {ρ : Type} (Q : CC64Memory → Prop) (h : HostSide ρ) : Prop := Q h.memory

section Keeps

variable {ρ : Type} {Q : CC64Memory → Prop} (board : Board ρ) (hQ : KeptByAccesses ρ Q)
include hQ

theorem surroundings_keeps {host : IREUHost (HostSide ρ)}
    (hhost : REUMachine.HostKeeps host (HostMemory Q)) :
    (board.surroundings host).Keeps (OnMemory Q) where
  ioRead io hio s a h := by
    obtain rfl : board.chain host = io := Option.some.inj hio
    show OnMemory Q (match board.registerRead s a with
      | (some v, s) => (some v, s)
      | (none, s) => reuRead s a).2
    have hregisters : OnMemory Q (board.registerRead s a).2 := hQ.lines _ _ h
    split
    · rename_i hread
      rw [hread] at hregisters
      exact hregisters
    · rename_i s' hread
      rw [hread] at hregisters
      unfold reuRead
      split <;> exact hregisters
  ioWrite io hio s a v h := by
    obtain rfl : board.chain host = io := Option.some.inj hio
    have hregisters : OnMemory Q (board.registerWrite s a v).2 :=
      hQ.speeds board.bare _ _ (hQ.lines _ _ h)
    show OnMemory Q (match board.registerWrite s a v with
      | (true, s) => (true, s)
      | (false, s) => reuWrite host s a v).2
    split
    · rename_i hwrite
      rw [hwrite] at hregisters
      exact hregisters
    · rename_i s' hwrite
      rw [hwrite] at hregisters
      unfold reuWrite
      split
      · rename_i m hm
        exact REUMachine.host_write hhost s'.toREU a v hregisters m hm
      · exact hregisters
  ff00Hook hook hhook s h := by
    obtain rfl := Option.some.inj hhook
    exact REUMachine.host_noteFF00Write hhost s.toREU h

theorem hostAt_keeps (depth : ℕ) : REUMachine.HostKeeps (board.hostAt depth) (HostMemory Q) := by
  induction depth with
  | zero => exact ⟨fun _ _ h => h, fun _ _ _ h => h⟩
  | succ depth ih =>
      have henv := surroundings_keeps board hQ ih
      exact ⟨fun m a h => hQ.read _ a henv m.toMachine h,
        fun m a v h => hQ.write _ a v henv m.toMachine h⟩

/-- The devices of the machine keep what the accesses of the memory keep. -/
theorem env_keeps (depth : ℕ) : (board.env depth).Keeps (OnMemory Q) :=
  surroundings_keeps board hQ (hostAt_keeps board hQ depth)

end Keeps

section Timing

variable {ρ : Type} {C : Timing → Prop}

theorem onTiming_selectSpeeds (hC : AccessInvariant C) {ω : Type} (env : Surroundings ω)
    (speeds : List (BitVec 64 × ℕ)) : Keeps (OnTiming C) (selectSpeeds env speeds) := by
  induction speeds with
  | nil => exact keeps_pure _
  | cons speed speeds ih =>
      refine keeps_bind (onTiming_setPacing hC speed.1 speed.2) fun _ => ?_
      exact keeps_bind (onTiming_modifyTiming hC.breakRun) fun _ => ih

theorem AccessInvariant.keptByAccesses (hC : AccessInvariant C) :
    KeptByAccesses ρ fun m => C m.timing where
  lines _ _ h := h
  speeds := onTiming_selectSpeeds hC
  read _ a henv := onTiming_read8 hC henv a
  write _ a v henv := onTiming_write8 hC henv a v

end Timing

end ScpuEmu
