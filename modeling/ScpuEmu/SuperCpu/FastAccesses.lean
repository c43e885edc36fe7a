import ScpuEmu.SuperCpu.SimmRuns

/-!
# Accesses that leave the C64 alone

Above bank 1 nothing belongs to the C64. An access there costs the accelerator some half cycles,
and moves bytes between it and its own memory, but it reaches neither the bus, nor a device, nor
any other state of bank 0. The vector of an interrupt that comes from the ROM image is the one
that bank 0 would have delivered with the boot map on.
-/

namespace ScpuEmu

open Library

namespace CSuperCPUMemoryMap

variable {β : Type}

section Runs

variable (b : Chassis β) (depth : ℕ)

/-- An access above bank 1. -/
def Op.IsAbove : Op β → Prop
  | .read8 addr => 0x020000 ≤ addr
  | .write8 addr _ => 0x020000 ≤ addr
  | _ => False

instance (op : Op β) : Decidable op.IsAbove :=
  match op with
  | .read8 addr => inferInstanceAs (Decidable (0x020000 ≤ addr))
  | .write8 addr _ => inferInstanceAs (Decidable (0x020000 ≤ addr))
  | .rerouteVector _ | .sampleIRQNMIFast | .tick _ | .mirrorWork _ | .setROM _ _ | .reset _ _
  | .rest _ => isFalse id

/-- What it costs, in half cycles. -/
def opCost (m : CSuperCPUMemoryMap β) : Op β → ℕ
  | .read8 addr => m.aboveCost addr false
  | .write8 addr _ => m.aboveCost addr true
  | _ => 0

/-- What a run of them costs. -/
def totalCost : CSuperCPUMemoryMap β → List (Op β) → ℕ
  | _, [] => 0
  | m, op :: ops => m.opCost op + totalCost (step b depth m op) ops

/-- From one state to the other, only the SIMM and the time that is owed have changed, and a
number of accesses above bank 0 was counted. -/
structure FastOnly (halfCycles accesses : ℕ) (m m' : CSuperCPUMemoryMap β) : Prop where
  memory : m'.system.memory = m.system.memory.mapTiming fun t => t.noteFastHalfCycles halfCycles
  outside : ∃ simm, m'.system.outside = (m.mapSIMM fun _ => simm).system.outside
  rom : m'.rom = m.rom ∧ m'.romLength = m.romLength
  counted : m'.fastAccesses = m.fastAccesses + accesses ∧ m'.bank0Accesses = m.bank0Accesses

variable {b depth} {m m' m'' : CSuperCPUMemoryMap β} {j k n n' : ℕ}

theorem FastOnly.refl (m : CSuperCPUMemoryMap β) : FastOnly 0 0 m m :=
  ⟨rfl, ⟨m.simm, rfl⟩, ⟨rfl, rfl⟩, rfl, rfl⟩

theorem FastOnly.trans (h : FastOnly j n m m') (h' : FastOnly k n' m' m'') :
    FastOnly (j + k) (n + n') m m'' := by
  obtain ⟨simm, hsimm⟩ := h.outside
  obtain ⟨simm', hsimm'⟩ := h'.outside
  refine ⟨?_, ⟨simm', ?_⟩, ⟨h'.rom.1.trans h.rom.1, h'.rom.2.trans h.rom.2⟩, ?_, ?_⟩
  · rw [h'.memory, h.memory]
    simp only [CC64Memory.mapTiming, Timing.noteFastHalfCycles, Nat.add_assoc]
  · rw [hsimm']
    show ((m'.system.mapAccelerator _).outside : WithREU _) = _
    rw [System.mapAccelerator, hsimm]
    rfl
  · rw [h'.counted.1, h.counted.1, Nat.add_assoc]
  · exact h'.counted.2.trans h.counted.2

theorem fastOnly_afterAbove (m : CSuperCPUMemoryMap β) (addr : BitVec 24) (write : Bool)
    (f : CFastRAM → CFastRAM) :
    FastOnly (m.aboveCost addr write) 1 m ((m.afterAbove addr write).mapSIMM f) :=
  ⟨rfl, ⟨f (m.simmAccessed addr write), rfl⟩, ⟨rfl, rfl⟩, rfl, rfl⟩

theorem fastOnly_step (op : Op β) (hop : op.IsAbove) :
    FastOnly (m.opCost op) 1 m (step b depth m op) := by
  cases op with
  | read8 addr =>
      have hread := congrArg Prod.snd (run_read8_above (m := m) b depth hop)
      show FastOnly _ 1 m ((read8 b depth addr).run m).2
      rw [hread]
      exact fastOnly_afterAbove m addr false id
  | write8 addr v =>
      show FastOnly _ 1 m ((write8 b depth addr v).run m).2
      rw [run_write8_above b depth hop]
      exact fastOnly_afterAbove m addr true _
  | rerouteVector | sampleIRQNMIFast | tick | mirrorWork | setROM | reset | rest => cases hop

theorem penalty_le (s : CFastRAM) (o : BitVec 32) (write : Bool) :
    (s.accessPenaltyHalfCycles o write).1 ≤ 5 := by
  unfold CFastRAM.accessPenaltyHalfCycles
  dsimp only
  split_ifs <;> simp

theorem opCost_le (m : CSuperCPUMemoryMap β) (op : Op β) : m.opCost op ≤ 6 := by
  have habove (addr : BitVec 24) (write : Bool) : m.aboveCost addr write ≤ 6 := by
    unfold aboveCost
    split_ifs
    · exact le_rfl
    · cases m.accessOffset addr write with
      | none => exact Nat.zero_le 6
      | some o => exact (penalty_le m.simm o write).trans (by decide)
  cases op with
  | read8 addr => exact habove addr false
  | write8 addr v => exact habove addr true
  | rerouteVector | sampleIRQNMIFast | tick | mirrorWork | setROM | reset | rest =>
      exact Nat.zero_le 6

/-- Any run of accesses above bank 1 leaves the C64 alone: all of bank 0's memory, the bus, the
write buffer, the register file and the expansion unit are as before, except for the half cycles
that the accesses cost, at most six each, which the next tick will charge. -/
theorem fast_accesses_leave_c64 (b : Chassis β) (depth : ℕ) (m : CSuperCPUMemoryMap β)
    (ops : List (Op β)) (hops : ∀ op ∈ ops, op.IsAbove) :
    FastOnly (totalCost b depth m ops) ops.length m (run (step b depth) m ops) ∧
      totalCost b depth m ops ≤ 6 * ops.length := by
  induction ops generalizing m with
  | nil => exact ⟨.refl m, le_rfl⟩
  | cons op ops ih =>
      obtain ⟨hop, hrest⟩ := List.forall_mem_cons.mp hops
      obtain ⟨hfast, hle⟩ := ih (step b depth m op) hrest
      have hcost := opCost_le m op
      refine ⟨?_, ?_⟩
      · have hstep : FastOnly (m.opCost op) 1 m (step b depth m op) := fastOnly_step op hop
        have hboth := hstep.trans hfast
        rw [Nat.add_comm 1] at hboth
        exact hboth
      · rw [totalCost, List.length_cons]
        omega

/-- Accesses of the SIMM, of the image and of addresses that nothing decodes. -/
def fastOps : List (Op Unit) :=
  [.write8 0x020000 1, .read8 0x020001, .read8 0xF80000, .write8 0x800000 2]

theorem fast_accesses_leave_c64_mixed :
    FastOnly (totalCost floatingChassis 0 seatedMap fastOps) 4 seatedMap
      (run (step floatingChassis 0) seatedMap fastOps) :=
  (fast_accesses_leave_c64 floatingChassis 0 seatedMap fastOps (by decide)).1

end Runs

/-! ### The vectors of interrupts -/

section Vectors

variable (b : Chassis β) (depth : ℕ) {m : CSuperCPUMemoryMap β} {a vec : Addr}

/-- The boot map is on. -/
def booted (m : CSuperCPUMemoryMap β) : CSuperCPUMemoryMap β :=
  { m with system := ⟨{ m.system.memory with bootmapActive := true }, m.system.outside⟩ }

/-- The ordinary fetch of a vector, from bank 0. -/
def fetchVector (addr : Addr) : MapM β (BitVec 16) := do
  let low ← read8 b depth (addr.setWidth 24)
  let high ← read8 b depth ((addr + 1).setWidth 24)
  return low.setWidth 16 ||| high.setWidth 16 <<< 8

theorem run_read8_bank0 (a : Addr) :
    (read8 b depth (a.setWidth 24)).run m =
      (onBank0 (readFast (env b depth) a)).run m.countBank0 := by
  have hbank : (a.setWidth 24 : BitVec 24) < 0x010000 := by bv_omega
  have haddr : (a.setWidth 24).setWidth 16 = a := by bv_omega
  unfold read8
  rw [if_pos hbank, haddr]
  rfl

/-- With the boot map on, the top of bank 0 is the image. -/
theorem readFast_booted (s : System (Fitted (WithSIMM β))) (hboot : s.memory.bootmapActive = true)
    (ha : 0xFF05 ≤ a) :
    (readFast (env b depth) a).run s =
      (s.memory.bootmapROM (a.setWidth 32),
        ⟨s.memory.mapTiming fun t => t.noteFastHalfCycles 6, s.outside⟩) := by
  have hdos : dosExtensionMapsBank1 (env b depth) s a = false := by
    simp [dosExtensionMapsBank1, hboot]
  have hport : ¬ a ≤ 1 := by bv_omega
  have hhost : (s.memory.scpu128Mode && isHostDecoded a) = false := by
    have h5 : ¬ a ≤ 0xD50B := by bv_omega
    have h6 : ¬ a ≤ 0xD601 := by bv_omega
    have h4 : ¬ a ≤ 0xFF04 := by bv_omega
    simp only [isHostDecoded, decide_eq_false h5, decide_eq_false h6, decide_eq_false h4,
      Bool.and_false, Bool.or_false]
  have hextension : s.memory.bootmapExtensionMaps a = false := by
    have h5 : ¬ a ≤ 0x5FFF := by bv_omega
    simp only [CC64Memory.bootmapExtensionMaps, decide_eq_false h5, Bool.and_false]
  have hmaps : s.memory.bootmapMaps a = true := by
    have he : 0xE000#16 ≤ a := by bv_omega
    simp only [CC64Memory.bootmapMaps, hboot, decide_eq_true he, Bool.or_true, Bool.and_true]
  have hactive : ¬ (1 < a ∧ s.memory.bootmapActive = false ∧
      c64MapRead a s.memory.bankMode = .ram) := by simp [hboot]
  rw [readFast, run_bind, run_get]
  dsimp only
  rw [hdos, if_neg Bool.false_ne_true, if_neg hactive, ScpuEmu.read8, run_bind, run_get]
  dsimp only
  rw [if_neg hport, hdos, if_neg Bool.false_ne_true, hhost, if_neg Bool.false_ne_true, hextension,
    if_neg Bool.false_ne_true, hmaps, if_pos rfl]
  rfl

/-- A read of the image, through the region of the ROM. -/
theorem run_read8_rom (addr : BitVec 24) (haddr : 0xF80000 ≤ addr)
    (hlength : (addr - 0xF80000).toNat < m.romLength) :
    (read8 b depth addr).run m =
      (m.rom (BitVec.ofNat 32 (addr - 0xF80000).toNat),
        m.countFast.mapTiming fun t => t.noteFastHalfCycles 6) := by
  have hlow : 0x020000 ≤ addr := by bv_omega
  have hnone : m.simmOffset addr = none := simmOffset_rom haddr
  rw [run_read8_above b depth hlow, afterAbove,
    simmAccessed_of_none (accessOffset_read.trans hnone),
    show m.aboveCost addr false = 6 from if_pos haddr, aboveValue, hnone]
  dsimp only
  rw [if_pos ⟨haddr, by omega⟩, Nat.mod_eq_of_lt hlength]
  rfl

/-- A vector that comes from the ROM image is the one that bank 0 delivers while the boot map is
on, where the boot map shows the same image, and it takes the same time. -/
theorem rerouted_vector_eq_booted (himage : m.system.memory.bootmapROM = m.rom)
    (hlength : 0x10000 ≤ m.romLength) (hvec : 0xFF05 ≤ vec ∧ vec < 0xFFFF) :
    let rerouted := (rerouteVector b depth vec).run m
    let fetched := (fetchVector b depth vec).run m.booted
    rerouted.1 = fetched.1 ∧ fetched.2.system = rerouted.2.booted.system := by
  obtain ⟨hlow, hhigh⟩ := hvec
  have hplace : (0xF80000 + vec.setWidth 24 - 0xF80000 : BitVec 24).toNat = vec.toNat := by bv_omega
  have hplace' : (0xF80000 + vec.setWidth 24 + 1 - 0xF80000 : BitVec 24).toNat =
      (vec + 1).toNat := by
    bv_omega
  have hrerouted : (rerouteVector b depth vec).run m =
      ((m.rom (vec.setWidth 32)).setWidth 16 ||| (m.rom ((vec + 1).setWidth 32)).setWidth 16 <<< 8,
        ((({ m with vectorReroutes := m.vectorReroutes + 1 }.countFast.mapTiming
          fun t => t.noteFastHalfCycles 6).countFast).mapTiming
            fun t => t.noteFastHalfCycles 6)) := by
    rw [rerouteVector, run_bind, run_modify, run_bind,
      run_read8_rom b depth _ (by bv_omega) (by rw [hplace]; exact lt_of_lt_of_le vec.isLt hlength),
      run_bind,
      run_read8_rom b depth _ (by bv_omega)
        (by rw [hplace']; exact lt_of_lt_of_le (vec + 1).isLt hlength),
      hplace, hplace', BitVec.ofNat_toNat, BitVec.ofNat_toNat]
    rfl
  have hfetched : (fetchVector b depth vec).run m.booted =
      ((m.rom (vec.setWidth 32)).setWidth 16 ||| (m.rom ((vec + 1).setWidth 32)).setWidth 16 <<< 8,
        (((m.booted.countBank0.mapTiming fun t => t.noteFastHalfCycles 6).countBank0).mapTiming
          fun t => t.noteFastHalfCycles 6)) := by
    have hfetch (m' : CSuperCPUMemoryMap β) (hboot : m'.system.memory.bootmapActive = true)
        {a : Addr} (ha : 0xFF05 ≤ a) :
        (read8 b depth (a.setWidth 24)).run m' = (m'.system.memory.bootmapROM (a.setWidth 32),
          m'.countBank0.mapTiming fun t => t.noteFastHalfCycles 6) := by
      rw [run_read8_bank0, run_onBank0, readFast_booted b depth m'.countBank0.system hboot ha]
      rfl
    rw [fetchVector, run_bind, hfetch _ rfl (by bv_omega), run_bind, hfetch _ rfl (by bv_omega)]
    rw [← himage]
    rfl
  show ((rerouteVector b depth vec).run m).1 = ((fetchVector b depth vec).run m.booted).1 ∧ _
  rw [hrerouted, hfetched]
  exact ⟨rfl, rfl⟩

/-- The native NMI vector, with the image in the boot map. -/
theorem rerouted_vector_eq_booted_nmi :
    let memory := { seatedMap.system.memory with bootmapROM := seatedMap.rom }
    let m := { seatedMap with system := ⟨memory, seatedMap.system.outside⟩ }
    ((rerouteVector floatingChassis 0 0xFFEA).run m).1 =
      ((fetchVector floatingChassis 0 0xFFEA).run m.booted).1 :=
  (rerouted_vector_eq_booted floatingChassis 0
    (m := { seatedMap with
      system := ⟨{ seatedMap.system.memory with bootmapROM := seatedMap.rom },
        seatedMap.system.outside⟩ }) rfl (by decide) (by decide)).1

end Vectors

end CSuperCPUMemoryMap

end ScpuEmu
