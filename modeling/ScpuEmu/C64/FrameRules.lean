import ScpuEmu.Reu.Wiring

/-!
# What the accesses leave alone

A property that no part of the memory touches, except for the count of stores, which only
grows, and that neither the bus nor the sink of stores touches, is kept by the accesses,
provided that the devices and the hook keep it.
-/

namespace ScpuEmu

open Library

variable {ω : Type}

/-- What no access undoes: stores are counted, and the machine stays in its mode. -/
structure CC64Memory.Onward (m m' : CC64Memory) : Prop where
  ramWrites : m.ramWrites ≤ m'.ramWrites
  scpu128Mode : m'.scpu128Mode = m.scpu128Mode

/-- Neither the memory's own changes nor its looks at the clock touch the property. -/
structure Surroundings.FramesTime (env : Surroundings ω) (P : Machine ω → Prop) : Prop where
  memory : ∀ s m, s.memory.Onward m → P s → P ⟨m, s.outside⟩
  hostCycles : ∀ bus, env.bus = some bus → ∀ m o, P ⟨m, o⟩ → P ⟨m, (bus.hostCycles o).2⟩

/-- Nothing that the memory does by itself touches the property, writes of the bus apart. -/
structure Surroundings.FramesReads (env : Surroundings ω) (P : Machine ω → Prop) : Prop
    extends env.FramesTime P where
  read : ∀ bus, env.bus = some bus → ∀ m o a, P ⟨m, o⟩ → P ⟨m, (bus.read o a).2⟩
  mirror : ∀ onRamWrite, env.mirror = some onRamWrite → ∀ s a v, P s →
    P ⟨s.memory, (onRamWrite s a v).2⟩
  spriteSprite : ∀ m o, P ⟨m, o⟩ → P ⟨m, (env.takeSpriteSpriteCollision o).2⟩
  spriteBackground : ∀ m o, P ⟨m, o⟩ → P ⟨m, (env.takeSpriteBackgroundCollision o).2⟩

/-- Nothing that the memory does by itself touches the property. -/
structure Surroundings.Frames (env : Surroundings ω) (P : Machine ω → Prop) : Prop
    extends env.FramesReads P where
  write : ∀ bus, env.bus = some bus → ∀ m o a v, P ⟨m, o⟩ → P ⟨m, bus.write o a v⟩
  writeRAM : ∀ bus, env.bus = some bus → ∀ m o a v, P ⟨m, o⟩ → P ⟨m, bus.writeRAM o a v⟩

namespace Surroundings

variable (env : Surroundings ω) (s : Machine ω) (a : Addr)

/-- A write goes to the devices and chips of the I/O window. -/
def ReachesDevices : Prop :=
  ¬ a ≤ 1 ∧ ¬ dosExtensionMapsBank1 env s a = true ∧
    ¬ (s.memory.scpu128Mode && isHostDecoded a) = true ∧ c64WriteIsIO a s.memory.bankMode = true

/-- A write goes to RAM. -/
def StoresRAM : Prop :=
  ¬ a ≤ 1 ∧ ¬ dosExtensionMapsBank1 env s a = true ∧
    ¬ (s.memory.scpu128Mode && isHostDecoded a) = true ∧ ¬ c64WriteIsIO a s.memory.bankMode = true

instance : Decidable (env.ReachesDevices s a) := inferInstanceAs (Decidable (_ ∧ _ ∧ _ ∧ _))

instance : Decidable (env.StoresRAM s a) := inferInstanceAs (Decidable (_ ∧ _ ∧ _ ∧ _))

variable {env s a}

theorem ReachesDevices.write8_eq (h : env.ReachesDevices s a) (v : Byte) :
    (write8 env a v).run s = (ioWrite env a v).run s := by
  obtain ⟨hport, hdos, hhost, hmap⟩ := h
  rw [write8, run_bind, run_get]
  dsimp only
  rw [if_neg hport, if_neg hdos, if_neg hhost, if_pos hmap]

theorem StoresRAM.write8_eq (h : env.StoresRAM s a) (v : Byte) :
    (write8 env a v).run s = (storeRAM env a v).run s := by
  obtain ⟨hport, hdos, hhost, hmap⟩ := h
  rw [write8, run_bind, run_get]
  dsimp only
  rw [if_neg hport, if_neg hdos, if_neg hhost, if_neg hmap]

end Surroundings

section Time

theorem onward_trackVICWrite (perLine : BitVec 32) (reg : BitVec 6) (v : Byte) (m : CC64Memory) :
    m.Onward (trackVICWrite perLine reg v m) := by
  have hcount : (trackVICWrite perLine reg v m).ramWrites = m.ramWrites := by
    simp only [trackVICWrite, CC64Memory.appendVICLog, apply_ite CC64Memory.ramWrites,
      CC64Memory.ramWrites_mapFetch, CC64Memory.ramWrites_mapCapture, ite_self]
  refine ⟨hcount.ge, ?_⟩
  simp only [trackVICWrite, CC64Memory.appendVICLog, apply_ite CC64Memory.scpu128Mode,
    CC64Memory.scpu128Mode_mapFetch, CC64Memory.scpu128Mode_mapCapture, ite_self]

variable {P : Machine ω → Prop} {env : Surroundings ω} (hP : env.FramesTime P)
include hP

theorem frames_modifyMemory {g : CC64Memory → CC64Memory}
    (hg : ∀ m : CC64Memory, m.Onward (g m)) : Keeps P (modifyMemory g : MemoryM ω PUnit) :=
  fun s h => hP.memory s _ (hg s.memory) h

theorem frames_modifyTiming (g : Timing → Timing) : Keeps P (modifyTiming g : MemoryM ω PUnit) :=
  frames_modifyMemory hP fun _ => ⟨le_rfl, rfl⟩

theorem frames_resyncPacing : Keeps P (resyncPacing env) := by
  unfold resyncPacing
  cases hbus : env.bus with
  | none => exact frames_modifyTiming hP _
  | some bus =>
      refine keeps_bind (frames_modifyTiming hP _) fun _ => ?_
      refine keeps_bind (fun s h => hP.hostCycles bus hbus _ _ h) fun _ => ?_
      exact frames_modifyTiming hP _

theorem frames_setPacing (host : BitVec 64) (hz : ℕ) : Keeps P (setPacing env host hz) := by
  refine keeps_bind (frames_modifyTiming hP _) fun _ => ?_
  apply keeps_ite
  · exact frames_modifyTiming hP _
  · exact keeps_bind (frames_modifyTiming hP _) fun _ => frames_resyncPacing hP

theorem frames_selectSpeeds (speeds : List (BitVec 64 × ℕ)) :
    Keeps P (selectSpeeds env speeds) := by
  induction speeds with
  | nil => exact keeps_pure _
  | cons speed speeds ih =>
      refine keeps_bind (frames_setPacing hP speed.1 speed.2) fun _ => ?_
      exact keeps_bind (frames_modifyTiming hP _) fun _ => ih

theorem frames_trackChipWrite (a : Addr) (v : Byte) :
    Keeps P (trackChipWrite a v : MemoryM ω PUnit) := by
  refine keeps_getMemory_bind fun m => ?_
  apply keeps_ite
  · refine keeps_bind (frames_modifyMemory hP fun _ => ⟨le_rfl, rfl⟩) fun _ => ?_
    exact keeps_onlyIf (frames_modifyTiming hP _)
  apply keeps_ite
  · exact frames_modifyMemory hP fun _ => ⟨le_rfl, rfl⟩
  apply keeps_ite
  · refine keeps_bind (frames_modifyMemory hP fun _ => ⟨le_rfl, rfl⟩) fun _ => ?_
    exact keeps_onlyIf (frames_modifyTiming hP _)
  · exact keeps_onlyIf (frames_modifyTiming hP _)

end Time

section Reads

variable {P : Machine ω → Prop} {env : Surroundings ω} (hP : env.FramesReads P)
include hP

theorem frames_busRead (a : Addr) : Keeps P (busRead env a) := by
  unfold busRead
  cases hbus : env.bus with
  | none => exact keeps_pure _
  | some bus => exact fun s h => hP.read bus hbus _ _ a h

/-! ### Towards a store of RAM -/

theorem frames_mirrorWrite (a : Addr) (v : Byte) : Keeps P (mirrorWrite env a v) := by
  unfold mirrorWrite
  cases hmirror : env.mirror with
  | none => exact keeps_pure _
  | some onRamWrite =>
      intro s h
      exact keeps_onlyIf (frames_modifyTiming hP.toFramesTime _) _
        (hP.mirror onRamWrite hmirror s a v h)

theorem frames_replayShape (v : Byte) (n : ℕ) : Keeps P (replayShape env v n) := by
  induction n with
  | zero => exact keeps_pure _
  | succ n ih =>
      apply keeps_bind ?_ fun _ => ih
      unfold replayByte
      cases hmirror : env.mirror with
      | none => exact keeps_pure _
      | some onRamWrite => exact fun s h => hP.mirror onRamWrite hmirror s _ _ h

theorem frames_allocRelocBlock (v : Byte) : Keeps P (allocRelocBlock env v) := by
  refine keeps_getMemory_bind fun m => ?_
  cases m.fetch.freeRelocBlock with
  | none => exact keeps_pure _
  | some r =>
      refine keeps_bind (frames_modifyMemory hP.toFramesTime fun _ => ⟨le_rfl, rfl⟩) fun _ => ?_
      exact keeps_bind (frames_replayShape hP v 64) fun _ => keeps_pure _

theorem frames_relocPointerValue (v : Byte) : Keeps P (relocPointerValue env v) := by
  have hcount : Keeps P (noteRelocDelivered : MemoryM ω PUnit) :=
    frames_modifyMemory hP.toFramesTime fun _ => ⟨le_rfl, rfl⟩
  refine keeps_getMemory_bind fun m => ?_
  dsimp only
  refine keeps_ite (keeps_pure _) ?_
  apply keeps_ite
  · exact keeps_bind hcount fun _ => keeps_pure _
  refine keeps_bind (frames_allocRelocBlock hP v) fun r => ?_
  apply keeps_ite
  · exact keeps_bind (frames_modifyMemory hP.toFramesTime fun _ => ⟨le_rfl, rfl⟩)
      fun _ => keeps_pure _
  · exact keeps_bind hcount fun _ => keeps_pure _

theorem frames_writePort (a : Addr) (v : Byte) : Keeps P (writePort env a v) := by
  refine keeps_bind
    (frames_modifyMemory hP.toFramesTime fun m => by split <;> exact ⟨le_rfl, rfl⟩) fun _ => ?_
  refine keeps_bind (fun s h => hP.memory s _ ⟨le_rfl, rfl⟩ h) fun _ => ?_
  exact keeps_bind (frames_mirrorWrite hP a v) fun _ =>
    frames_modifyMemory hP.toFramesTime fun _ => ⟨le_rfl, rfl⟩

/-- A pointer that keeps its value is only counted. -/
theorem frames_noteSpritePointerWrite_same (a : Addr) (v : Byte) :
    Keeps P (noteSpritePointerWrite env a v v) := by
  refine keeps_bind (frames_modifyMemory hP.toFramesTime fun _ => ⟨le_rfl, rfl⟩) fun _ => ?_
  rw [onlyIf, if_neg (not_not_intro rfl)]
  exact keeps_pure _

/-! ### Reads -/

theorem frames_chipValue (a : Addr) : Keeps P (chipValue env a) := by
  refine keeps_get_bind' fun s => ?_
  refine keeps_ite (fun s h => hP.spriteSprite _ _ h) ?_
  refine keeps_ite (fun s h => hP.spriteBackground _ _ h) ?_
  refine keeps_ite (keeps_pure _) ?_
  refine keeps_bind (frames_busRead hP a) fun v => ?_
  exact keeps_ite (keeps_pure _) (keeps_ite (keeps_pure _) (keeps_pure _))

theorem frames_chipRead (a : Addr) : Keeps P (chipRead env a) := by
  refine keeps_bind (frames_modifyMemory hP.toFramesTime fun _ => ⟨le_rfl, rfl⟩) fun _ => ?_
  refine keeps_bind (frames_modifyTiming hP.toFramesTime _) fun _ => ?_
  refine keeps_bind (frames_chipValue hP a) fun v => ?_
  refine keeps_bind (keeps_onlyIf (frames_modifyTiming hP.toFramesTime _)) fun _ => ?_
  refine keeps_bind (keeps_onlyIf ?_) fun _ => ?_
  · refine keeps_getMemory_bind fun m => ?_
    refine keeps_bind (frames_modifyMemory hP.toFramesTime fun _ => ⟨le_rfl, rfl⟩) fun _ => ?_
    exact keeps_onlyIf (frames_modifyTiming hP.toFramesTime _)
  · exact keeps_bind (keeps_onlyIf (frames_modifyTiming hP.toFramesTime _)) fun _ => keeps_pure v

theorem frames_ioRead (hread : ∀ io, env.io = some io → ∀ s a, P s → P (io.ioRead s a).2)
    (a : Addr) : Keeps P (ioRead env a) := by
  unfold ioRead
  cases hio : env.io with
  | none => exact frames_chipRead hP a
  | some io =>
      refine keeps_bind (fun s h => hread io hio s a h) fun answer => ?_
      cases answer with
      | none => exact frames_chipRead hP a
      | some v =>
          refine keeps_get_bind' fun s => ?_
          exact keeps_bind (keeps_onlyIf (frames_modifyTiming hP.toFramesTime _))
            fun _ => keeps_pure v

theorem frames_read8 (hread : ∀ io, env.io = some io → ∀ s a, P s → P (io.ioRead s a).2)
    (a : Addr) : Keeps P (read8 env a) := by
  refine keeps_get_bind' fun s => ?_
  refine keeps_ite (keeps_pure _) ?_
  refine keeps_ite (keeps_pure _) ?_
  apply keeps_ite
  · refine keeps_bind (frames_modifyMemory hP.toFramesTime fun _ => ⟨le_rfl, rfl⟩) fun _ => ?_
    exact keeps_bind (frames_modifyTiming hP.toFramesTime _) fun _ => frames_busRead hP a
  refine keeps_ite (keeps_bind (frames_modifyTiming hP.toFramesTime _) fun _ => keeps_pure _) ?_
  refine keeps_ite (keeps_bind (frames_modifyTiming hP.toFramesTime _) fun _ => keeps_pure _) ?_
  cases c64MapRead a s.memory.bankMode with
  | ram | basic | kernal | cartROML | cartROMH | openBus => exact keeps_pure _
  | charROM => exact keeps_bind (frames_modifyTiming hP.toFramesTime _) fun _ => keeps_pure _
  | io => exact frames_ioRead hP hread a

/-! ### A write of bank 0 -/

/-- A write of bank 0, provided that the property survives where the write leaves the memory:
on the bus of an SCPU128, at the devices and in a store of RAM. -/
theorem frames_write8_of {s : Machine ω} {a : Addr} {v : Byte} (h : P s)
    (hhost : s.memory.scpu128Mode = true ∧ isHostDecoded a = true →
      ∀ s', P s' → P ((busWrite env a v).run s').2)
    (hdevices : env.ReachesDevices s a → P ((ioWrite env a v).run s).2)
    (hRAM : env.StoresRAM s a → P ((storeRAM env a v).run s).2) : P ((write8 env a v).run s).2 := by
  have hshadow : Keeps P (writeShadow a v : MemoryM ω PUnit) :=
    frames_modifyMemory hP.toFramesTime fun _ => ⟨le_rfl, rfl⟩
  have hcount : Keeps P (modifyMemory fun m => { m with ioWrites := m.ioWrites + 1 }) :=
    frames_modifyMemory hP.toFramesTime fun _ => ⟨le_rfl, rfl⟩
  unfold write8
  rw [run_bind, run_get]
  dsimp only
  split
  · exact frames_writePort hP a v s h
  next hport =>
  split
  · exact hshadow s h
  next hdos =>
  split
  · next hdecoded =>
    refine keeps_bind hcount (fun _ => ?_) s h
    exact keeps_bind (frames_modifyTiming hP.toFramesTime _) fun _ =>
      hhost (Bool.and_eq_true_iff.mp hdecoded)
  next hdecoded =>
  split
  · next hmap => exact hdevices ⟨hport, hdos, hdecoded, hmap⟩
  · next hmap => exact hRAM ⟨hport, hdos, hdecoded, hmap⟩

end Reads

section Writes

variable {P : Machine ω → Prop} {env : Surroundings ω} (hP : env.Frames P)
include hP

theorem frames_busWrite (a : Addr) (v : Byte) : Keeps P (busWrite env a v) := by
  unfold busWrite
  cases hbus : env.bus with
  | none => exact keeps_pure _
  | some bus => exact fun s h => hP.write bus hbus _ _ a v h

theorem frames_busWriteRAM (a : Addr) (v : Byte) : Keeps P (busWriteRAM env a v) := by
  unfold busWriteRAM
  cases hbus : env.bus with
  | none => exact keeps_pure _
  | some bus => exact fun s h => hP.writeRAM bus hbus _ _ a v h

/-! ### Stores of RAM -/

theorem frames_deliverPointer (a : Addr) (v : Byte) : Keeps P (deliverPointer env a v) := by
  unfold deliverPointer
  cases env.bus with
  | none => exact keeps_pure _
  | some bus =>
      refine keeps_bind (frames_relocPointerValue hP.toFramesReads v) fun delivered => ?_
      refine keeps_getMemory_bind fun m => ?_
      exact keeps_ite (frames_busWriteRAM hP a _) (frames_busWrite hP a _)

theorem frames_noteSpritePointerWrite (a : Addr) (old v : Byte) :
    Keeps P (noteSpritePointerWrite env a old v) := by
  refine keeps_bind (frames_modifyMemory hP.toFramesTime fun _ => ⟨le_rfl, rfl⟩) fun _ => ?_
  apply keeps_onlyIf
  refine keeps_bind (frames_deliverPointer hP a v) fun _ => ?_
  exact keeps_bind (frames_modifyMemory hP.toFramesTime fun _ => ⟨le_rfl, rfl⟩) fun _ =>
    frames_modifyMemory hP.toFramesTime fun _ => ⟨le_rfl, rfl⟩

/-- A store first counts itself, and calls the hook on $FF00 last; the rest touches nothing. -/
theorem storeRAM_split {s : Machine ω} (a : Addr) (v : Byte)
    (h : P ⟨{ s.memory with ramWrites := s.memory.ramWrites + 1 }, s.outside⟩) :
    ∃ s', P s' ∧ ((storeRAM env a v).run s).2 =
      ((onlyIf (a = 0xFF00) (callFF00Hook env)).run s').2 := by
  rw [storeRAM, run_bind, run_getMemory, run_bind, run_modifyMemory, run_bind, run_bind,
    run_modifyMemory, noteRAMWriteSideEffects, run_bind, run_getMemory, run_bind]
  have hmirrored := frames_mirrorWrite hP.toFramesReads a v _ h
  have hstored :=
    frames_modifyMemory hP.toFramesTime (g := fun m => { m with ram := Function.update m.ram a v })
    (fun _ => ⟨le_rfl, rfl⟩) _ hmirrored
  exact ⟨_, keeps_onlyIf (frames_noteSpritePointerWrite hP a _ v) _ hstored, rfl⟩

theorem frames_after_count {s : Machine ω} {a : Addr} (v : Byte)
    (hhook : a = 0xFF00 → Keeps P (callFF00Hook env))
    (h : P ⟨{ s.memory with ramWrites := s.memory.ramWrites + 1 }, s.outside⟩) :
    P ((storeRAM env a v).run s).2 := by
  obtain ⟨s', hs', heq⟩ := storeRAM_split hP a v h
  rw [heq]
  unfold onlyIf
  split
  · next ha => exact hhook ha s' hs'
  · exact hs'

theorem frames_storeRAM_of {a : Addr} (hhook : a = 0xFF00 → Keeps P (callFF00Hook env)) (v : Byte) :
    Keeps P (storeRAM env a v) := fun s h =>
  frames_after_count hP v hhook (hP.memory s _ ⟨Nat.le_succ _, rfl⟩ h)

/-! ### The chips -/

theorem frames_chipWrite (a : Addr) (v : Byte) : Keeps P (chipWrite env a v) := by
  refine keeps_bind (frames_trackChipWrite hP.toFramesTime a v) fun _ => ?_
  refine keeps_bind (frames_modifyMemory hP.toFramesTime fun _ => ⟨le_rfl, rfl⟩) fun _ => ?_
  refine keeps_get_bind' fun s => ?_
  refine keeps_bind (keeps_onlyIf ?_) fun _ => ?_
  · exact frames_modifyMemory hP.toFramesTime (onward_trackVICWrite _ _ v)
  refine keeps_get_bind' fun s' => ?_
  exact keeps_bind (frames_modifyTiming hP.toFramesTime _) fun _ => frames_busWrite hP a v

/-! ### With the devices -/

/-- After the devices, a write of a register touches nothing. -/
theorem frames_after_devices {io : IIOInterceptor ω} (hio : env.io = some io) {s : Machine ω}
    {a : Addr} {v : Byte} (h : P (io.ioWrite s a v).2) : P ((ioWrite env a v).run s).2 := by
  unfold ioWrite
  rw [hio]
  dsimp only
  rw [run_bind]
  refine keeps_ite ?_ (frames_chipWrite hP a v) _ h
  refine keeps_get_bind' fun s => ?_
  refine keeps_bind (frames_modifyTiming hP.toFramesTime _) fun _ => ?_
  exact keeps_onlyIf (frames_modifyTiming hP.toFramesTime _)

theorem frames_ioWrite (hwrite : ∀ io, env.io = some io → ∀ s a v, P s → P (io.ioWrite s a v).2)
    (a : Addr) (v : Byte) : Keeps P (ioWrite env a v) := by
  cases hio : env.io with
  | none =>
      unfold ioWrite
      rw [hio]
      exact frames_chipWrite hP a v
  | some io => exact fun s h => frames_after_devices hP hio (hwrite io hio s a v h)

/-- A write of bank 0, provided that the devices and the hook keep the property where it
reaches them. -/
theorem frames_write8_at {s : Machine ω} {a : Addr} {v : Byte} (h : P s)
    (hdevices : env.ReachesDevices s a → P ((ioWrite env a v).run s).2)
    (hRAM : env.StoresRAM s a → P ((storeRAM env a v).run s).2) : P ((write8 env a v).run s).2 :=
  frames_write8_of hP.toFramesReads h (fun _ => frames_busWrite hP a v) hdevices hRAM

variable (henv : env.Keeps P)
include henv

omit hP in
theorem keeps_callFF00Hook : Keeps P (callFF00Hook env) := by
  unfold callFF00Hook
  cases hhook : env.ff00Hook with
  | none => exact keeps_pure _
  | some hook => exact keeps_modify (henv.ff00Hook hook hhook)

theorem frames_storeRAM (a : Addr) (v : Byte) : Keeps P (storeRAM env a v) :=
  frames_storeRAM_of hP (fun _ => keeps_callFF00Hook henv) v

theorem frames_write8 (a : Addr) (v : Byte) : Keeps P (write8 env a v) := fun s h =>
  frames_write8_at hP h (fun _ => frames_ioWrite hP henv.ioWrite a v s h)
    fun _ => frames_storeRAM hP henv a v s h

end Writes

/-! ### The accesses of the core -/

section Core

variable {P : Machine ω → Prop} {env : Surroundings ω}

theorem frames_readFast (hP : env.FramesReads P)
    (hread : ∀ io, env.io = some io → ∀ s a, P s → P (io.ioRead s a).2) (a : Addr) :
    Keeps P (readFast env a) := by
  refine keeps_get_bind' fun s => ?_
  exact keeps_ite (keeps_pure _) (keeps_ite (keeps_pure _) (frames_read8 hP hread a))

theorem frames_writeFast (hP : env.Frames P) (henv : env.Keeps P) (a : Addr) (v : Byte) :
    Keeps P (writeFast env a v) := by
  refine keeps_get_bind' fun s => ?_
  refine keeps_ite (frames_modifyMemory hP.toFramesTime fun _ => ⟨le_rfl, rfl⟩) ?_
  exact keeps_ite (frames_storeRAM hP henv a v) (frames_write8 hP henv a v)

end Core

/-! ### The board, at every depth of nesting -/

section Nesting

variable {ρ : Type} {J : HostSide ρ → Prop} {board : Board ρ}

/-- A property of everything but the unit. -/
def OnHost (J : HostSide ρ → Prop) (s : Machine (WithREU ρ)) : Prop := J s.toREU.host

/-- The parts of the board keep a property, and the accesses do if the devices do. -/
structure Board.KeepsAccesses (board : Board ρ) (J : HostSide ρ → Prop) : Prop where
  read8 : ∀ host, (board.surroundings host).Keeps (OnHost J) → ∀ a,
    Keeps (OnHost J) (read8 (board.surroundings host) a)
  write8 : ∀ host, (board.surroundings host).Keeps (OnHost J) → ∀ a v,
    Keeps (OnHost J) (write8 (board.surroundings host) a v)
  registerRead : ∀ s a, OnHost J s → OnHost J (board.registerRead s a).2
  registerWrite : ∀ s a v, OnHost J s → OnHost J (board.registerWrite s a v).2
  cutOff : ∀ h, J h → J { h with exhausted := true }

theorem Board.KeepsAccesses.surroundings (hJ : board.KeepsAccesses J) {host : IREUHost (HostSide ρ)}
    (hhost : REUMachine.HostKeeps host J) : (board.surroundings host).Keeps (OnHost J) where
  ioRead io hio s a h := by
    obtain rfl : board.chain host = io := Option.some.inj hio
    have hregisters := hJ.registerRead s a h
    rw [Board.chain_ioRead]
    split
    · exact hregisters
    · unfold reuRead
      split <;> exact hregisters
  ioWrite io hio s a v h := by
    obtain rfl : board.chain host = io := Option.some.inj hio
    have hregisters := hJ.registerWrite s a v h
    rw [Board.chain_ioWrite]
    split
    · exact hregisters
    · unfold reuWrite
      split
      next m hunit =>
        exact REUMachine.host_write hhost (board.registerWrite s a v).2.toREU a v hregisters m hunit
      next => exact hregisters
  ff00Hook hook hhook s h := by
    obtain rfl := Option.some.inj hhook
    exact REUMachine.host_noteFF00Write hhost s.toREU h

theorem Board.KeepsAccesses.hostAt (hJ : board.KeepsAccesses J) (depth : ℕ) :
    REUMachine.HostKeeps (board.hostAt depth) J := by
  induction depth with
  | zero => exact ⟨fun m _ h => hJ.cutOff m.host h, fun m _ _ h => hJ.cutOff m.host h⟩
  | succ depth ih =>
      have hkeeps := hJ.surroundings ih
      exact ⟨fun m a h => hJ.read8 _ hkeeps a m.toMachine h,
        fun m a v h => hJ.write8 _ hkeeps a v m.toMachine h⟩

theorem Board.KeepsAccesses.env (hJ : board.KeepsAccesses J) (depth : ℕ) :
    (board.env depth).Keeps (OnHost J) := hJ.surroundings (hJ.hostAt depth)

end Nesting

/-! ### The count of stores -/

theorem storesCounted_frames (env : Surroundings ω) (k : ℕ) :
    env.Frames (OnMemory fun m => k ≤ m.ramWrites) where
  memory _ _ hm h := le_trans h hm.ramWrites
  read _ _ _ _ _ h := h
  write _ _ _ _ _ _ h := h
  writeRAM _ _ _ _ _ _ h := h
  hostCycles _ _ _ _ h := h
  mirror _ _ _ _ _ h := h
  spriteSprite _ _ h := h
  spriteBackground _ _ h := h

theorem storesCounted_keptByAccesses (ρ : Type) (k : ℕ) :
    KeptByAccesses ρ fun m => k ≤ m.ramWrites where
  lines _ _ h := h
  speeds env speeds := frames_selectSpeeds (storesCounted_frames env k).toFramesTime speeds
  read env a henv := frames_read8 (storesCounted_frames env k).toFramesReads henv.ioRead a
  write env a v henv := frames_write8 (storesCounted_frames env k) henv a v

end ScpuEmu
