import ScpuEmu.SuperCpu.MirrorTrace
import ScpuEmu.SuperCpu.Silence
import ScpuEmu.SuperCpu.RegisterBoard
import ScpuEmu.C64.AccessPaths

/-!
# Residue of physical reads in the output latches

A program that loads a register and stores what it loaded must not move the output latches
behind it, whatever the physical bus answers. The bits that the write path trusts are
therefore taken from the shadows on a read. The mirrors of the control register of the VIC
are missed: a read of one of them shows what the bus answers, and a write of it is a write
of the latch.
-/

namespace ScpuEmu

open Library

/-- Port A of CIA 2, its direction, and the control register of the VIC with its mirrors. -/
def LatchRegister (a : Addr) : Prop :=
  a = 0xDD00 ∨ a = 0xDD02 ∨ 0xD000#16 ≤ a ∧ a < 0xD200#16 ∧ a.setWidth 6 = 0x11#6

namespace Fetch

variable (f : Fetch)

/-- The shadows of the latches. -/
def latches : (Byte × Bool) × (Byte × Bool) × Byte :=
  ((f.cia2PortALatch, f.haveCIA2PortALatch), (f.cia2DDRA, f.haveCIA2DDRA), f.vicRegShadow 0x11)

/-- The bank of the VIC, the driven serial lines, the directions of port A, and bits 6 to 0 of
the control register. -/
def outputs : Byte × Byte × Byte × Byte :=
  (f.vicBank, cia2EffectiveIECDrive f.cia2PortALatch f.cia2DDRA, f.cia2DDRA,
    f.vicRegShadow 0x11 &&& 0x7F#8)

/-- Both latches of port A are known. -/
def LatchesKnown : Prop := f.haveCIA2DDRA = true ∧ f.haveCIA2PortALatch = true

/-- What a latch register shows where the bus answers `v`. -/
def shown (a : Addr) (v : Byte) : Byte :=
  if a = 0xDD02 ∧ f.haveCIA2DDRA = true then f.cia2DDRA
  else if a = 0xD011 then (v &&& 0x80#8) ||| (f.vicRegShadow 0x11 &&& 0x7F#8)
  else if a = 0xDD00 ∧ f.haveCIA2DDRA = true ∧ f.haveCIA2PortALatch = true then
    (v &&& ~~~f.cia2DDRA) ||| (f.cia2PortALatch &&& f.cia2DDRA)
  else v

variable {f} {f' : Fetch}

theorem outputs_of_latches (h : f'.latches = f.latches) : f'.outputs = f.outputs := by
  simp only [latches, Prod.mk.injEq] at h
  obtain ⟨⟨hlatch, hhave⟩, ⟨hddra, hhave'⟩, hcontrol⟩ := h
  simp only [outputs, vicBank, hlatch, hhave, hddra, hhave', hcontrol]

theorem shown_of_latches (h : f'.latches = f.latches) : f'.shown = f.shown := by
  simp only [latches, Prod.mk.injEq] at h
  obtain ⟨⟨hlatch, hhave⟩, ⟨hddra, hhave'⟩, hcontrol⟩ := h
  funext a v
  simp only [shown, hlatch, hhave, hddra, hhave', hcontrol]

theorem latches_afterPointer (f : Fetch) (v : Byte) : (f.afterPointer v).latches = f.latches := by
  unfold afterPointer
  split
  · rfl
  split
  · rfl
  split <;> rfl

/-- The latches after a write of such a register. -/
theorem latches_chipWritten (f : Fetch) (ram : Addr → Byte) {a : Addr} (ha : LatchRegister a)
    (v : Byte) :
    (f.chipWritten ram a v).latches =
      if a = 0xDD00 then ((v, true), f.latches.2)
      else if a = 0xDD02 then (f.latches.1, (v, true), f.latches.2.2)
      else (f.latches.1, f.latches.2.1, v) := by
  rcases ha with rfl | rfl | ⟨hlow, hhigh, hreg⟩
  · rfl
  · rfl
  · have hport : a ≠ 0xDD00 := by rintro rfl; exact absurd hhigh (by decide)
    have hddra : a ≠ 0xDD02 := by rintro rfl; exact absurd hhigh (by decide)
    have hscreen : a.setWidth 6 ≠ 0x18#6 := by rw [hreg]; decide
    have htracked : f.trackedChip ram a v = f := by
      rw [trackedChip, if_neg hport, if_neg fun h => hscreen h.2.2, if_neg hddra]
    rw [if_neg hport, if_neg hddra, chipWritten, htracked, if_pos ⟨hlow, hhigh⟩, hreg]
    simp [trackedVIC, latches]

/-- Output bits come from the latch, whatever the pins read. -/
theorem split_and (answer latch ddra : Byte) :
    ((answer &&& ~~~ddra) ||| (latch &&& ddra)) &&& ddra = latch &&& ddra := by
  apply BitVec.eq_of_getLsbD_eq
  intro i _
  cases h : ddra.getLsbD i <;> simp [h]

theorem not_split_and (answer latch ddra : Byte) :
    ~~~((answer &&& ~~~ddra) ||| (latch &&& ddra)) &&& ddra = ~~~latch &&& ddra := by
  apply BitVec.eq_of_getLsbD_eq
  intro i _
  cases h : ddra.getLsbD i <;> simp [h]

theorem control_and (answer control : Byte) :
    ((answer &&& 0x80#8) ||| (control &&& 0x7F#8)) &&& 0x7F#8 = control &&& 0x7F#8 := by
  rw [BitVec.and_or_distrib_right, BitVec.and_assoc, BitVec.and_assoc]
  simp

/-- Storing what a read showed leaves the outputs alone exactly if no residue was stored. -/
theorem outputs_chipWritten_shown (hf : f.LatchesKnown) (ram : Addr → Byte) {a : Addr}
    (ha : LatchRegister a) (answer : Byte) :
    (f.chipWritten ram a (f.shown a answer)).outputs = f.outputs ↔
      a = 0xDD00 ∨ a = 0xDD02 ∨ a = 0xD011 ∨
        answer &&& 0x7F#8 = f.vicRegShadow 0x11 &&& 0x7F#8 := by
  obtain ⟨hddra, hlatch⟩ := hf
  have hwritten := latches_chipWritten f ram ha (f.shown a answer)
  generalize f.chipWritten ram a (f.shown a answer) = f' at hwritten ⊢
  by_cases hport : a = 0xDD00
  · subst hport
    rw [if_pos rfl] at hwritten
    simp only [latches, Prod.mk.injEq] at hwritten
    obtain ⟨⟨h₁, h₂⟩, ⟨h₃, h₄⟩, h₅⟩ := hwritten
    simp only [outputs, vicBank, cia2EffectiveIECDrive, h₁, h₂, h₃, h₄, h₅, shown, hddra, hlatch]
    simp [split_and, not_split_and]
  rw [if_neg hport] at hwritten
  by_cases hdirection : a = 0xDD02
  · subst hdirection
    rw [if_pos rfl] at hwritten
    have hsame : f'.latches = f.latches := by
      rw [hwritten, shown, if_pos ⟨rfl, hddra⟩, latches, hddra]
    simp [outputs_of_latches hsame]
  rw [if_neg hdirection] at hwritten
  simp only [latches, Prod.mk.injEq] at hwritten
  obtain ⟨⟨h₁, h₂⟩, ⟨h₃, h₄⟩, h₅⟩ := hwritten
  simp only [outputs, vicBank, h₁, h₂, h₃, h₄, h₅, Prod.mk.injEq, true_and, shown,
    hport, hdirection, false_and, if_false, false_or]
  split
  · next hcontrol => exact iff_of_true (control_and _ _) (Or.inl hcontrol)
  · next hmirror => exact (or_iff_right hmirror).symm

end Fetch

section Reads

variable {ω : Type} {env : Surroundings ω} {a : Addr} {α : Type}

/-- A property of the map and of the latches. -/
abbrev OnLatches (mode : Byte) (latches : (Byte × Bool) × (Byte × Bool) × Byte) (s : Machine ω) :
    Prop :=
  OnMemory (fun m => m.bankMode = mode ∧ m.fetch.latches = latches) s

variable {mode : Byte} {latches : (Byte × Bool) × (Byte × Bool) × Byte}

theorem latches_modifyMemory {g : CC64Memory → CC64Memory}
    (hmode : ∀ m, (g m).bankMode = m.bankMode) (hg : ∀ m, (g m).fetch.latches = m.fetch.latches) :
    Keeps (OnLatches mode latches) (modifyMemory g : MemoryM ω PUnit) :=
  fun s h => ⟨(hmode s.memory).trans h.1, (hg s.memory).trans h.2⟩

theorem latches_modifyTiming (g : Timing → Timing) :
    Keeps (OnLatches mode latches) (modifyTiming g : MemoryM ω PUnit) := fun _ h => h

theorem latches_busRead (a : Addr) : Keeps (OnLatches mode latches) (busRead env a) := by
  intro s h
  show OnMemory _ _
  unfold OnMemory
  rwa [memory_busRead]

theorem latches_sampleSerialLines (v : Byte) :
    Keeps (OnLatches mode latches) (sampleSerialLines v : MemoryM ω PUnit) := by
  refine keeps_getMemory_bind fun m => ?_
  refine keeps_bind (latches_modifyMemory (fun _ => rfl) fun _ => rfl) fun _ => ?_
  exact keeps_onlyIf (latches_modifyTiming _)

theorem latches_chipValue (a : Addr) : Keeps (OnLatches mode latches) (chipValue env a) := by
  refine keeps_get_bind' fun s => ?_
  refine keeps_ite (fun _ h => h) ?_
  refine keeps_ite (fun _ h => h) ?_
  refine keeps_ite (keeps_pure _) ?_
  refine keeps_bind (latches_busRead a) fun v => ?_
  exact keeps_ite (keeps_pure _) (keeps_ite (keeps_pure _) (keeps_pure _))

theorem latches_chipRead (a : Addr) : Keeps (OnLatches mode latches) (chipRead env a) := by
  refine keeps_bind (latches_modifyMemory (fun _ => rfl) fun _ => rfl) fun _ => ?_
  refine keeps_bind (latches_modifyTiming _) fun _ => ?_
  refine keeps_bind (latches_chipValue a) fun v => ?_
  refine keeps_bind (keeps_onlyIf (latches_modifyTiming _)) fun _ => ?_
  refine keeps_bind (keeps_onlyIf (latches_sampleSerialLines v)) fun _ => ?_
  exact keeps_bind (keeps_onlyIf (latches_modifyTiming _)) fun _ => keeps_pure v

/-- What the bus answers to a read. -/
def busAnswer (env : Surroundings ω) (s : Machine ω) (a : Addr) : Byte := ((busRead env a).run s).1

theorem not_collision (ha : LatchRegister a) : a.setWidth 6 ≠ 0x1E#6 ∧ a.setWidth 6 ≠ 0x1F#6 := by
  rcases ha with rfl | rfl | ⟨-, -, hreg⟩
  · decide
  · decide
  · rw [hreg]
    decide

theorem busAnswer_memory (m : CC64Memory) (s : Machine ω) (a : Addr) :
    busAnswer env ⟨m, s.outside⟩ a = busAnswer env s a := by
  unfold busAnswer busRead
  cases env.bus <;> rfl

theorem chipValue_shown (ha : LatchRegister a) (s : Machine ω) :
    ((chipValue env a).run s).1 = s.memory.fetch.shown a (busAnswer env s a) := by
  obtain ⟨hsprite, hbackground⟩ := not_collision ha
  rw [chipValue, run_bind, run_get, Fetch.shown]
  dsimp only
  rw [if_neg fun h => hsprite h.2.1, if_neg fun h => hbackground h.2.1]
  split
  · rfl
  rw [run_bind]
  split
  · rfl
  split <;> rfl

theorem chipRead_shown (ha : LatchRegister a) (s : Machine ω) :
    ((chipRead env a).run s).1 = s.memory.fetch.shown a (busAnswer env s a) := by
  rw [chipRead, run_bind, run_modifyMemory, run_bind, run_modifyTiming, run_bind]
  exact (chipValue_shown ha _).trans (congrArg (s.memory.fetch.shown a) (busAnswer_memory _ s a))

end Reads

/-! ### Stores of RAM -/

section Stores

variable {ω : Type} {env : Surroundings ω} {latches : (Byte × Bool) × (Byte × Bool) × Byte}

theorem latches_noteSpritePointerWrite (a : Addr) (old v : Byte) :
    Keeps (OnFetch fun f _ => f.latches = latches) (noteSpritePointerWrite env a old v) := by
  refine keeps_bind (fun _ h => h) fun _ => ?_
  apply keeps_onlyIf
  refine keeps_bind (fun s h => ?_) fun _ => keeps_bind (fun _ h => h) fun _ _ h => h
  show ((deliverPointer env a v).run s).2.memory.fetch.latches = latches
  rw [(deliverPointer_spec env a v s).1]
  split
  · exact (Fetch.latches_afterPointer _ v).trans h
  · exact h

/-- Away from $FF00 no hook is called. -/
theorem latches_storeRAM {a : Addr} (ha : a ≠ 0xFF00) (v : Byte) :
    Keeps (OnFetch fun f _ => f.latches = latches) (storeRAM env a v) := by
  refine keeps_getMemory_bind fun m => ?_
  refine keeps_bind (fun _ h => h) fun _ => ?_
  refine keeps_bind (onFetch_mirrorWrite a v) fun _ => ?_
  refine keeps_bind (fun _ h => h) fun _ => ?_
  refine keeps_getMemory_bind fun m' => ?_
  refine keeps_bind (keeps_onlyIf (latches_noteSpritePointerWrite a _ v)) fun _ => ?_
  rw [onlyIf, if_neg ha]
  exact keeps_pure _

end Stores

/-! ### Where the registers lie -/

section Place

variable {ω : Type} {env : Surroundings ω} {a : Addr} (ha : LatchRegister a)
include ha

theorem LatchRegister.toNat : a.toNat = 0xDD00 ∨ a.toNat = 0xDD02 ∨
    0xD000 ≤ a.toNat ∧ a.toNat < 0xD200 ∧ a.toNat % 64 = 17 := by
  rcases ha with rfl | rfl | ⟨hlow, hhigh, hreg⟩
  · exact Or.inl rfl
  · exact Or.inr (Or.inl rfl)
  · exact Or.inr (Or.inr ⟨hlow, hhigh, by simpa using congrArg BitVec.toNat hreg⟩)

theorem LatchRegister.passedOn : PassedOn a := by
  have hplace := ha.toNat
  simp only [PassedOn, CSuperCPURegisters.inColorRAM, CSuperCPURegisters.inSysRAM,
    CSuperCPURegisters.inUserRAM, CSuperCPURegisters.inD07x, CSuperCPURegisters.inD0Bx,
    BitVec.le_def, BitVec.lt_def, BitVec.toNat_ofNat]
  omega

theorem LatchRegister.not_port : ¬ a ≤ 1 := by
  intro hport
  have hplace := ha.toNat
  have hle : a.toNat ≤ 1 := hport
  omega

theorem LatchRegister.not_dosExtension (s : Machine ω) :
    ¬ dosExtensionMapsBank1 env s a = true := by
  have hplace := ha.toNat
  simp only [dosExtensionMapsBank1, Bool.and_eq_true, Bool.or_eq_true, decide_eq_true_eq,
    BitVec.le_def, BitVec.reduceToNat]
  omega

theorem LatchRegister.not_hostDecoded (m : CC64Memory) :
    ¬ (m.scpu128Mode && isHostDecoded a) = true := by
  have hplace := ha.toNat
  simp only [isHostDecoded, Bool.and_eq_true, Bool.or_eq_true, decide_eq_true_eq, BitVec.le_def,
    BitVec.reduceToNat]
  omega

theorem LatchRegister.not_bootmap (m : CC64Memory) :
    ¬ m.bootmapExtensionMaps a = true ∧ ¬ m.bootmapMaps a = true := by
  have hplace := ha.toNat
  simp only [CC64Memory.bootmapExtensionMaps, CC64Memory.bootmapMaps, Bool.and_eq_true,
    Bool.or_eq_true, decide_eq_true_eq, BitVec.le_def, BitVec.reduceToNat]
  omega

theorem LatchRegister.read8_eq (s : Machine ω) (hmap : c64MapRead a s.memory.bankMode = .io) :
    (read8 env a).run s = (ioRead env a).run s := by
  rw [read8, run_bind, run_get]
  dsimp only
  rw [if_neg ha.not_port, if_neg (ha.not_dosExtension s), if_neg (ha.not_hostDecoded s.memory),
    if_neg (ha.not_bootmap s.memory).1, if_neg (ha.not_bootmap s.memory).2, hmap]

/-- Where no chip is mapped, a read concerns the time at most. -/
theorem LatchRegister.read8_plain (s : Machine ω) (hmap : c64MapRead a s.memory.bankMode ≠ .io) :
    ∃ g : Timing → Timing, (g = id ∨ g = fun t => t.noteBusAccess a false) ∧
      ((read8 env a).run s).2 = ⟨s.memory.mapTiming g, s.outside⟩ := by
  rw [read8, run_bind, run_get]
  dsimp only
  rw [if_neg ha.not_port, if_neg (ha.not_dosExtension s), if_neg (ha.not_hostDecoded s.memory),
    if_neg (ha.not_bootmap s.memory).1, if_neg (ha.not_bootmap s.memory).2]
  cases hregion : c64MapRead a s.memory.bankMode with
  | io => exact absurd hregion hmap
  | charROM => exact ⟨_, Or.inr rfl, rfl⟩
  | ram | basic | kernal | cartROML | cartROMH | openBus => exact ⟨_, Or.inl rfl, rfl⟩

end Place

/-! ### With the devices -/

section Devices

variable {ω : Type} {env : Surroundings ω} {a : Addr} {v : Byte} {s : Machine ω}

theorem run_ioRead_of_none {io : IIOInterceptor ω} (hio : env.io = some io)
    (hnone : (io.ioRead s a).1 = none) :
    (ioRead env a).run s = (chipRead env a).run (io.ioRead s a).2 := by
  have hdevices : (show MemoryM ω (Option Byte) from fun s => io.ioRead s a).run s =
      io.ioRead s a :=
    rfl
  unfold ioRead
  rw [hio]
  dsimp only
  rw [run_bind, hdevices, hnone]

theorem run_ioWrite_of_unhandled {io : IIOInterceptor ω} (hio : env.io = some io)
    (hpassed : (io.ioWrite s a v).1 = false) :
    (ioWrite env a v).run s = (chipWrite env a v).run (io.ioWrite s a v).2 := by
  have hdevices : (show MemoryM ω Bool from fun s => io.ioWrite s a v).run s =
      io.ioWrite s a v := rfl
  unfold ioWrite
  rw [hio]
  dsimp only
  rw [run_bind, hdevices, hpassed, if_neg Bool.false_ne_true]

/-- A read that the devices pass on is a read of the chip. -/
theorem Surroundings.PassesOn.run_ioRead (hpass : env.PassesOn a) (s : Machine ω) :
    ∃ s' : Machine ω, (ScpuEmu.ioRead env a).run s = (chipRead env a).run s' ∧
      (∃ lines, s'.memory = s.memory.setMapLines lines) ∧
      busAnswer env s' a = busAnswer env s a := by
  cases hio : env.io with
  | none =>
      refine ⟨s, ?_, ⟨s.memory.mapLines, rfl⟩, rfl⟩
      unfold ScpuEmu.ioRead
      rw [hio]
  | some io =>
      obtain ⟨hnone, hmemory⟩ := hpass.read io hio s
      exact ⟨_, run_ioRead_of_none hio hnone, hmemory, hpass.answer io hio s⟩

/-- A read of a latch register through the devices. -/
theorem ioRead_shown (ha : LatchRegister a) (hpass : env.PassesOn a) (s : Machine ω) :
    ((ioRead env a).run s).1 = s.memory.fetch.shown a (busAnswer env s a) ∧
      OnLatches s.memory.bankMode s.memory.fetch.latches ((ioRead env a).run s).2 := by
  obtain ⟨s', hrun, ⟨lines, hmemory⟩, hanswer⟩ := hpass.run_ioRead s
  rw [hrun, chipRead_shown ha, hanswer, hmemory]
  refine ⟨rfl, latches_chipRead a _ ?_⟩
  rw [OnLatches, OnMemory, hmemory]
  exact ⟨rfl, rfl⟩

/-- A write of a latch register through the devices. -/
theorem latches_ioWrite (ha : LatchRegister a) (hpass : env.PassesOn a) (v : Byte)
    (s : Machine ω) :
    ((ioWrite env a v).run s).2.memory.fetch.latches =
      (s.memory.fetch.chipWritten s.memory.ram a v).latches := by
  have hchip (s' : Machine ω) (hs' : s'.memory.fetch = s.memory.fetch) :
      ((chipWrite env a v).run s').2.memory.fetch.latches =
        (s.memory.fetch.chipWritten s.memory.ram a v).latches := by
    obtain ⟨m, hfetch, -, hrun⟩ := chipWrite_spec env a v s'
    rw [hrun, memory_busWrite, hfetch, hs', Fetch.latches_chipWritten _ _ ha,
      Fetch.latches_chipWritten _ _ ha]
  cases hio : env.io with
  | none =>
      unfold ioWrite
      rw [hio]
      exact hchip s rfl
  | some io =>
      obtain ⟨hpassed, lines, hmemory⟩ := hpass.write io hio s v
      rw [run_ioWrite_of_unhandled hio hpassed]
      exact hchip _ (by rw [hmemory]; rfl)

end Devices

/-! ### Reading and storing back -/

/-- A load of a register, and a store of what it loaded, on either path. -/
def readModifyWrite {ω : Type} (env : Surroundings ω) (fast : Bool) (a : Addr) : MemoryM ω PUnit :=
  if fast then readFast env a >>= writeFast env a else read8 env a >>= write8 env a

section Step

variable {ω : Type} {env : Surroundings ω} {a : Addr} (ha : LatchRegister a)
  (hpass : env.PassesOn a)
include ha

theorem run_readModifyWrite (fast : Bool) (s : Machine ω) :
    (readModifyWrite env fast a).run s = (read8 env a >>= write8 env a).run s := by
  cases fast with
  | false => rfl
  | true =>
      have hread : (readFast env a).run s = (read8 env a).run s :=
        run_readFast_eq_read8 fun h => ha.not_hostDecoded s.memory h.2.1
      rw [readModifyWrite, if_pos rfl, run_bind, run_bind, hread]
      exact run_writeFast_eq_write8 fun h => ha.not_hostDecoded _ h.2.1

/-- Where no chip is mapped, the latches stay. -/
theorem latches_readModifyWrite_ram (fast : Bool) {s : Machine ω}
    (hmap : c64MapRead a s.memory.bankMode ≠ .io) :
    ((readModifyWrite env fast a).run s).2.memory.fetch.latches = s.memory.fetch.latches := by
  rw [run_readModifyWrite ha, run_bind]
  obtain ⟨g, -, hread⟩ := @LatchRegister.read8_plain ω env a ha s hmap
  have hmode : ((read8 env a).run s).2.memory.bankMode = s.memory.bankMode := by rw [hread]; rfl
  have hlatches : ((read8 env a).run s).2.memory.fetch.latches = s.memory.fetch.latches := by
    rw [hread]
    rfl
  clear hread
  generalize (read8 env a).run s = x at hmode hlatches ⊢
  have hstore : env.StoresRAM x.2 a := by
    refine ⟨ha.not_port, ha.not_dosExtension _, ha.not_hostDecoded _, ?_⟩
    rw [hmode]
    unfold c64WriteIsIO
    simpa using hmap
  have hhook : a ≠ 0xFF00 := by
    rintro rfl
    exact absurd ha.toNat (by decide)
  rw [hstore.write8_eq]
  exact latches_storeRAM hhook x.1 x.2 hlatches

include hpass

/-- Where the chips are mapped, the register is written with what it showed. -/
theorem latches_readModifyWrite_io (fast : Bool) {s : Machine ω}
    (hmap : c64MapRead a s.memory.bankMode = .io) :
    ∃ (f : Fetch) (ram : Addr → Byte), f.latches = s.memory.fetch.latches ∧
      ((readModifyWrite env fast a).run s).2.memory.fetch.latches =
        (f.chipWritten ram a (f.shown a (busAnswer env s a))).latches := by
  rw [run_readModifyWrite ha, run_bind, ha.read8_eq s hmap]
  obtain ⟨hvalue, hmode, hlatches⟩ := ioRead_shown ha hpass s
  generalize (ioRead env a).run s = x at hvalue hmode hlatches ⊢
  have hdevices : env.ReachesDevices x.2 a := by
    refine ⟨ha.not_port, ha.not_dosExtension _, ha.not_hostDecoded _, ?_⟩
    rw [hmode, c64WriteIsIO, hmap]
    rfl
  refine ⟨x.2.memory.fetch, x.2.memory.ram, hlatches, ?_⟩
  rw [hdevices.write8_eq, latches_ioWrite ha hpass, hvalue, Fetch.shown_of_latches hlatches]

end Step

/-- No residue is stored: the register is sanitised, no chip is mapped, or the bus answers
what the latch holds. -/
def Sanitised {ω : Type} (env : Surroundings ω) (s : Machine ω) (a : Addr) : Prop :=
  a = 0xDD00 ∨ a = 0xDD02 ∨ a = 0xD011 ∨ c64MapRead a s.memory.bankMode ≠ .io ∨
    busAnswer env s a &&& 0x7F#8 = s.memory.fetch.vicRegShadow 0x11 &&& 0x7F#8

/-- A load of a latch register, and a store of what was loaded. -/
structure LatchAccess where
  address : Addr
  fast : Bool
  isLatch : LatchRegister address

def LatchAccess.step {ω : Type} (env : Surroundings ω) (s : Machine ω) (op : LatchAccess) :
    Machine ω :=
  ((readModifyWrite env op.fast op.address).run s).2

section Runs

variable {ω : Type} {env : Surroundings ω}

theorem Fetch.latchesKnown_of_latches {f f' : Fetch} (h : f'.latches = f.latches)
    (hf : f.LatchesKnown) : f'.LatchesKnown := by
  simp only [latches, Prod.mk.injEq] at h
  exact ⟨h.2.1.2.trans hf.1, h.1.2.trans hf.2⟩

theorem Fetch.latchesKnown_chipWritten {f : Fetch} (hf : f.LatchesKnown) (ram : Addr → Byte)
    {a : Addr} (ha : LatchRegister a) (v : Byte) : (f.chipWritten ram a v).LatchesKnown := by
  have hwritten := latches_chipWritten f ram ha v
  obtain ⟨hddra, hlatch⟩ := hf
  split_ifs at hwritten <;> simp only [latches, Prod.mk.injEq] at hwritten <;>
    exact ⟨by simp [hwritten, hddra], by simp [hwritten, hlatch]⟩

/-- One access keeps the outputs exactly if it stores no residue, and the latches stay
known. -/
theorem LatchAccess.step_outputs (hpass : ∀ a, PassedOn a → env.PassesOn a) {s : Machine ω}
    (hs : s.memory.fetch.LatchesKnown) (op : LatchAccess) :
    (op.step env s).memory.fetch.LatchesKnown ∧
      ((op.step env s).memory.fetch.outputs = s.memory.fetch.outputs ↔
        Sanitised env s op.address) := by
  obtain ⟨a, fast, ha⟩ := op
  unfold LatchAccess.step Sanitised
  dsimp only
  by_cases hmap : c64MapRead a s.memory.bankMode = .io
  · obtain ⟨f, ram, hf, hwritten⟩ := latches_readModifyWrite_io ha (hpass a ha.passedOn) fast hmap
    have hknown := Fetch.latchesKnown_of_latches hf hs
    refine ⟨Fetch.latchesKnown_of_latches hwritten
      (Fetch.latchesKnown_chipWritten hknown ram ha _), ?_⟩
    rw [Fetch.outputs_of_latches hwritten, ← Fetch.outputs_of_latches hf,
      Fetch.outputs_chipWritten_shown hknown ram ha]
    have hcontrol : f.vicRegShadow 0x11 = s.memory.fetch.vicRegShadow 0x11 :=
      congrArg (fun latches => latches.2.2) hf
    rw [hcontrol]
    simp [hmap]
  · have hkept := @latches_readModifyWrite_ram ω env a ha fast s hmap
    exact ⟨Fetch.latchesKnown_of_latches hkept hs,
      iff_of_true (Fetch.outputs_of_latches hkept) (Or.inr (Or.inr (Or.inr (Or.inl hmap))))⟩

end Runs

section Board

variable {β : Type} (b : Chassis β) (depth : ℕ)

/-- A run of loads and stores of latch registers. -/
abbrev Chassis.latchRun (s : System (Fitted β)) (ops : List LatchAccess) : System (Fitted β) :=
  run (fun s op => op.step (b.superCpu.board.env depth) s) s ops

/-- Every access of the run stores no residue. -/
abbrev Chassis.AllSanitised (s : System (Fitted β)) (ops : List LatchAccess) : Prop :=
  AllSteps (fun s op => LatchAccess.step (b.superCpu.board.env depth) s op)
    (fun s op => Sanitised (b.superCpu.board.env depth) s op.address) s ops

/-- The outputs stay all along a run exactly if every access of it stores no residue. So two
runs from the same outputs, on machines that differ in what the bus answers, end with the
same outputs. -/
theorem residue_stays_out_iff (s : System (Fitted β)) (hs : s.memory.fetch.LatchesKnown)
    (ops : List LatchAccess) :
    ((∀ n, (b.latchRun depth s (ops.take n)).memory.fetch.outputs = s.memory.fetch.outputs) ↔
        b.AllSanitised depth s ops) ∧
      ∀ (b' : Chassis β) (s' : System (Fitted β)), s'.memory.fetch.LatchesKnown →
        s'.memory.fetch.outputs = s.memory.fetch.outputs → b.AllSanitised depth s ops →
        b'.AllSanitised depth s' ops →
        (b'.latchRun depth s' ops).memory.fetch.outputs =
          (b.latchRun depth s ops).memory.fetch.outputs := by
  have hrun (b : Chassis β) (s : System (Fitted β)) (hs : s.memory.fetch.LatchesKnown) :
      (∀ n, (b.latchRun depth s (ops.take n)).memory.fetch.outputs = s.memory.fetch.outputs) ↔
        b.AllSanitised depth s ops := by
    have hstep (s₁ : System (Fitted β)) (op : LatchAccess)
        (h : s₁.memory.fetch.LatchesKnown ∧ s₁.memory.fetch.outputs = s.memory.fetch.outputs) :
        ((op.step (b.superCpu.board.env depth) s₁).memory.fetch.LatchesKnown ∧
            (op.step (b.superCpu.board.env depth) s₁).memory.fetch.outputs =
              s.memory.fetch.outputs) ↔ Sanitised (b.superCpu.board.env depth) s₁ op.address := by
      obtain ⟨hknown, hiff⟩ := op.step_outputs (fun a ha => b.passesOn ha depth) h.1
      rw [← hiff, h.2]
      exact and_iff_right hknown
    have hknown (n : ℕ) : (b.latchRun depth s (ops.take n)).memory.fetch.LatchesKnown :=
      run_invariant _ (P := fun s : System (Fitted β) => s.memory.fetch.LatchesKnown)
        (fun s op h => (op.step_outputs (fun a ha => b.passesOn ha depth) h).1) s _ hs
    rw [Chassis.AllSanitised, ← forall_take_iff_allSteps _ hstep s ops ⟨hs, rfl⟩]
    exact forall_congr' fun n => (and_iff_right (hknown n)).symm
  refine ⟨hrun b s hs, fun b' s' hs' houtputs hsanitised hsanitised' => ?_⟩
  have hend := (hrun b s hs).mpr hsanitised ops.length
  have hend' := (hrun b' s' hs').mpr hsanitised' ops.length
  rw [List.take_length] at hend hend'
  rw [hend, hend', houtputs]

end Board

/-- A chassis whose bus floats high. -/
def floatingChassis : Chassis Unit where
  bus := quietBus
  hdmiActive _ := false
  takeSpriteSpriteCollision r := (0, r)
  takeSpriteBackgroundCollision r := (0, r)
  clearCollisions r := r

/-- As constructed, after the KERNAL has set up port A and the control register. -/
def latchedSystem : System (Fitted Unit) :=
  run (floatingChassis.superCpu.step 0)
    { memory := CC64Memory.construct 0 0 0 (fun _ => 0) fun _ => ⟨0, 0, 0, 0⟩
      outside :=
        { rest := ⟨⟨CSuperCPURegisters.construct, ()⟩,
            (WriteBuffer.construct (fun _ => 0) fun _ => 0).attach true, false, []⟩
          unit := CREU.construct
          touched := []
          started := 0
          exhausted := false } }
    [.access (.write8 0xDD02 0x3F), .access (.write8 0xDD00 0x07), .access (.write8 0xD011 0x1B)]

theorem latchesKnown_latchedSystem : latchedSystem.memory.fetch.LatchesKnown := by
  unfold Fetch.LatchesKnown
  decide +kernel

/-- The latch registers themselves, on both paths. -/
def sanitisedAccesses : List LatchAccess :=
  [⟨0xD011, true, by unfold LatchRegister; decide⟩, ⟨0xDD00, false, Or.inl rfl⟩,
    ⟨0xDD02, true, Or.inr (Or.inl rfl)⟩]

theorem residue_stays_out_of_registers :
    (floatingChassis.latchRun 0 latchedSystem sanitisedAccesses).memory.fetch.outputs =
      latchedSystem.memory.fetch.outputs :=
  (residue_stays_out_iff floatingChassis 0 latchedSystem latchesKnown_latchedSystem
    sanitisedAccesses).1.mpr
      ⟨Or.inr (Or.inr (Or.inl rfl)), Or.inl rfl, Or.inr (Or.inl rfl), trivial⟩ 3

/-- The mirror of the control register at $D051 floats high, and sets all the control bits. -/
theorem residue_enters_through_mirror :
    latchedSystem.memory.fetch.LatchesKnown ∧ LatchRegister 0xD051 ∧
      ((readModifyWrite (floatingChassis.superCpu.board.env 0) false 0xD051).run
          latchedSystem).2.memory.fetch.outputs ≠ latchedSystem.memory.fetch.outputs := by
  refine ⟨latchesKnown_latchedSystem, ?_, ?_⟩
  · unfold LatchRegister
    decide
  · decide +kernel

end ScpuEmu
