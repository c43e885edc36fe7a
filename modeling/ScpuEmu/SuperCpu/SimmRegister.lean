import ScpuEmu.SuperCpu.SimmRuns

/-!
# The register of the SIMM

$D078 configures the SIMM. Through any run the register and the module agree, so that what is
decoded is what the register says, cut to the memory that is fitted, and no access leaves the
block that was allocated. An access above bank 1 costs time and touches nothing of the C64.
-/

namespace ScpuEmu

open Library

namespace CSuperCPURegisters

variable (r : CSuperCPURegisters)

/-- What the register file says of the SIMM, and what it configured. -/
def simmSetting : Option Byte × Byte := (r.fastRAM, r.simmConfig)

theorem simmSetting_bank1Write (a : Addr) (v : Byte) :
    (r.bank1Write a v).simmSetting = r.simmSetting := by
  unfold bank1Write
  split
  · rfl
  · split_ifs <;> rfl

theorem hwRegsEnabled_bank1Write (a : Addr) (v : Byte) :
    (r.bank1Write a v).hwRegsEnabled = r.hwRegsEnabled := by
  unfold bank1Write
  split
  · rfl
  · split_ifs <;> rfl

/-- The setting after a write of a register. -/
def simmSettingAfter (a : Addr) (v : Byte) : Option Byte × Byte :=
  if a = 0xD078 ∧ r.hwRegsEnabled = true then (r.fastRAM.map fun _ => v, v) else r.simmSetting

theorem simmSetting_ite {c : Prop} [Decidable c] {r₁ r₂ : CSuperCPURegisters}
    (h₁ : r₁.simmSetting = r.simmSetting) (h₂ : r₂.simmSetting = r.simmSetting) :
    (if c then r₁ else r₂).simmSetting = r.simmSetting :=
  iteInduction (motive := fun r' : CSuperCPURegisters => r'.simmSetting = r.simmSetting)
    (fun _ => h₁) fun _ => h₂

theorem simmSetting_registerWrite (a : Addr) (v : Byte) :
    (r.registerWrite a v).simmSetting = r.simmSettingAfter a v := by
  by_cases ha : a = 0xD078
  · subst ha
    have hswitch : r.registerWrite 0xD078 v =
        if r.hwRegsEnabled then { r with simmConfig := v }.setConfig v else r := by
      unfold registerWrite
      rw [if_neg (by decide), if_neg (by decide), if_neg (by decide), if_neg (by decide),
        if_neg (by decide), if_neg (by decide), if_neg (by decide), if_pos rfl]
    rw [hswitch, simmSettingAfter]
    cases r.hwRegsEnabled <;> rfl
  · rw [simmSettingAfter, if_neg fun h => ha h.1]
    unfold registerWrite
    rw [if_neg ha]
    repeat' first | rfl | apply simmSetting_ite

theorem simmSetting_noteSpeedChange (wasFast : Bool) :
    (r.noteSpeedChange wasFast).simmSetting = r.simmSetting := by
  unfold noteSpeedChange
  split_ifs <;> rfl

theorem simmSetting_videoControl (v : Byte) : (r.videoControl v).simmSetting = r.simmSetting := by
  unfold videoControl
  split_ifs <;> rfl

theorem simmSetting_ioRead (a : Addr) : (r.ioRead a).2.simmSetting = r.simmSetting := by
  unfold ioRead
  split_ifs <;> rfl

theorem simmSetting_ioWrite (a : Addr) (v : Byte) :
    (r.ioWrite a v).2.simmSetting = r.simmSettingAfter a v := by
  have hcaptured : (if r.version = .v2 ∧ captured a then r.bank1Write a v else r).simmSetting =
      r.simmSetting ∧
      (if r.version = .v2 ∧ captured a then r.bank1Write a v else r).hwRegsEnabled =
        r.hwRegsEnabled := by
    split_ifs
    · exact ⟨r.simmSetting_bank1Write a v, r.hwRegsEnabled_bank1Write a v⟩
    · exact ⟨rfl, rfl⟩
  have hother (h : a ≠ 0xD078) : r.simmSettingAfter a v = r.simmSetting := if_neg fun h' => h h'.1
  have hafter {r' : CSuperCPURegisters} (hset : r'.simmSetting = r.simmSetting)
      (hbank : r'.hwRegsEnabled = r.hwRegsEnabled) :
      r'.simmSettingAfter a v = r.simmSettingAfter a v := by
    have hram : r'.fastRAM = r.fastRAM := congrArg Prod.fst hset
    rw [simmSettingAfter, simmSettingAfter, hset, hbank, hram]
  unfold ioWrite
  generalize (if r.version = .v2 ∧ captured a then r.bank1Write a v else r) = r' at hcaptured
  obtain ⟨hset, hbank⟩ := hcaptured
  by_cases ha : a = 0xD078
  · subst ha
    rw [if_neg (by decide), if_neg (by decide)]
    rw [if_neg (by decide), if_neg (by decide), if_neg (by decide)]
    rw [if_neg (by decide)]
    dsimp only
    rw [simmSetting_noteSpeedChange, simmSetting_registerWrite]
    exact hafter hset hbank
  · rw [hother ha]
    have hwritten := { r' with regWrites := r'.regWrites + 1 }.simmSetting_registerWrite a v
    rw [simmSettingAfter, if_neg fun h => ha h.1] at hwritten
    split_ifs
    · rfl
    · rfl
    · exact (simmSetting_ite r' (r'.simmSetting_bank1Write a v) rfl).trans hset
    · exact (simmSetting_ite r' (r'.simmSetting_bank1Write a v) rfl).trans hset
    · exact hset
    · exact (simmSetting_videoControl _ v).trans hset
    · exact ((simmSetting_noteSpeedChange _ _).trans hwritten).trans hset
end CSuperCPURegisters

namespace CSuperCPUMemoryMap

variable {β : Type}

/-- The register, what the file holds of the SIMM, and the SIMM agree. -/
structure Agrees (size : BitVec 32) (r : CSuperCPURegisters) (simm : CFastRAM) : Prop where
  setting : r.simmSetting = (some simm.config, simm.config)
  geometry : simm.Geometry
  fitted : simm.size = size

theorem keptBySteps_agrees (size : BitVec 32) : KeptBySteps (Agrees size) where
  read r simm lines a h := by
    refine ⟨?_, h.geometry, h.fitted⟩
    rw [CSuperCPURegisters.simmSetting_ioRead]
    exact h.setting
  write r simm lines a v h := by
    have hset : (r.load lines).simmSetting = (some simm.config, simm.config) := h.setting
    have hfitted : r.fastRAM = some simm.config := congrArg Prod.fst h.setting
    have hconfigured := CFastRAM.geometry_setConfig v h.geometry.size
    have hload : (r.load lines).simmSettingAfter a v = r.simmSettingAfter a v := rfl
    rw [simmAfter, hfitted]
    by_cases hopen : a = 0xD078 ∧ r.hwRegsEnabled = true
    · rw [if_pos ⟨hopen.1, hopen.2, rfl⟩]
      refine ⟨?_, hconfigured, h.fitted⟩
      rw [CSuperCPURegisters.simmSetting_ioWrite, hload,
        CSuperCPURegisters.simmSettingAfter, if_pos hopen]
      show (r.fastRAM.map _, v) = _
      rw [hfitted]
      rfl
    · rw [if_neg fun h => hopen ⟨h.1, h.2.1⟩]
      refine ⟨?_, h.geometry, h.fitted⟩
      rw [CSuperCPURegisters.simmSetting_ioWrite, hload,
        CSuperCPURegisters.simmSettingAfter, if_neg hopen]
      exact hset
  access r simm o write h := by
    refine ⟨?_, CFastRAM.geometry_access h.geometry o write,
      (CFastRAM.size_access o write).trans h.fitted⟩
    rcases simm.access_cases o write with heq | heq <;> rw [heq] <;> exact h.setting
  reset r simm flag h := by
    have hfitted : r.fastRAM = some simm.config := congrArg Prod.fst h.setting
    rw [hfitted]
    refine ⟨?_, CFastRAM.geometry_setConfig 4 h.geometry.size, h.fitted⟩
    show (r.fastRAM.map _, _) = _
    rw [hfitted]
    rfl

theorem agrees_step {size : BitVec 32} (b : Chassis β) (depth : ℕ) (m : CSuperCPUMemoryMap β)
    (op : Op β) (h : OnMap (Agrees size) m) : OnMap (Agrees size) (step b depth m op) := by
  by_cases hop : ∀ addr v, op = .write8 addr v → addr < 0x020000
  · exact map_step (keptBySteps_agrees size) op hop h
  · simp only [not_forall] at hop
    obtain ⟨addr, v, rfl, hhigh⟩ := hop
    show OnMap (Agrees size) ((write8 b depth addr v).run m).2
    rw [run_write8_above b depth (by bv_omega)]
    have hafter := onMap_afterAbove (keptBySteps_agrees size) addr true h
    generalize m.afterAbove addr true = m' at hafter
    show Agrees size m'.file (simmWritten m'.simm (m.accessOffset addr true) v)
    cases m.accessOffset addr true with
    | none => exact hafter
    | some o =>
        refine ⟨?_, CFastRAM.geometry_write hafter.geometry o v, ?_⟩
        · unfold simmWritten CFastRAM.write
          dsimp only
          split_ifs <;> exact hafter.setting
        · unfold simmWritten CFastRAM.write
          dsimp only
          split_ifs <;> exact hafter.fitted

/-- Once the register file and the map have the same SIMM, the register of its configuration and
the SIMM agree after any run, whatever the core, the register file and transfers of the expansion
unit do, and every access that the map decodes to the SIMM stays within its memory: the offset
counts by what the register selects, or by the memory that is fitted if that is less. -/
theorem simm_follows_register (b : Chassis β) (depth : ℕ) (m : CSuperCPUMemoryMap β)
    (hsetting : m.file.simmSetting = (some m.simm.config, m.simm.config))
    (hgeometry : m.simm.Geometry)
    (ops : List (Op β)) :
    let m' := run (step b depth) m ops
    m'.file.simmSetting = (some m'.simm.config, m'.simm.config) ∧ m'.simm.size = m.simm.size ∧
      ∀ addr write o, m'.accessOffset addr write = some o →
        m'.simm.cell o < m.simm.size ∧
        (m'.simm.cell o).toNat =
          o.toNat % min m.simm.size.toNat (CFastRAM.configured m'.file.simmConfig).1.toNat := by
  intro m'
  have h : OnMap (Agrees m.simm.size) m' :=
    run_invariant (step b depth) (fun m op h => agrees_step b depth m op h) m ops
      ⟨hsetting, hgeometry, rfl⟩
  refine ⟨h.setting, h.fitted, fun addr write o ho => ?_⟩
  have hpresent := accessOffset_present ho
  have hconfig : m'.file.simmConfig = m'.simm.config := congrArg Prod.snd h.setting
  rw [CFastRAM.toNat_cell h.geometry hpresent, CFastRAM.toNat_decodedBytes, hconfig, ← h.fitted]
  exact ⟨CFastRAM.cell_lt h.geometry hpresent o, rfl⟩

theorem simm_follows_register_window :
    let m := run (step floatingChassis 0) seatedMap windowOps
    m.file.simmSetting = (some m.simm.config, m.simm.config) :=
  (simm_follows_register floatingChassis 0 seatedMap rfl
    (CFastRAM.geometry_init CFastRAM.geometry_construct 4 true) windowOps).1

end CSuperCPUMemoryMap

end ScpuEmu
