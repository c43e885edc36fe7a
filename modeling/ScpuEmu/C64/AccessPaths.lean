import ScpuEmu.C64.FrameRules

/-!
# The inlined accesses and the general ones

The inlined accesses answer for plain RAM and leave the rest to the general ones. They
decide by the map alone, and so pass by the windows that the general ones give to the
host's own MMU and VDC in the native mode of a C128. Everywhere else both do the same.
-/

namespace ScpuEmu

open Library

variable {ω : Type} (env : Surroundings ω) (s : Machine ω) (a : Addr) (v : Byte)

/-- The map shows RAM at an address that a general read gives to the host. -/
def ReadBypassesHost : Prop :=
  dosExtensionMapsBank1 env s a = false ∧ (s.memory.scpu128Mode && isHostDecoded a) = true ∧
    s.memory.bootmapActive = false ∧ c64MapRead a s.memory.bankMode = .ram

/-- The map shows no chip at an address that a general write gives to the host. -/
def WriteBypassesHost : Prop :=
  dosExtensionMapsBank1 env s a = false ∧ (s.memory.scpu128Mode && isHostDecoded a) = true ∧
    c64MapRead a s.memory.bankMode ≠ .io

variable {env s a v}

theorem not_le_one_of_isHostDecoded (h : isHostDecoded a = true) : ¬ a ≤ 1 := by
  intro ha
  have hle : a.toNat ≤ 1 := ha
  simp only [isHostDecoded, Bool.or_eq_true, Bool.and_eq_true, decide_eq_true_eq,
    BitVec.le_def, BitVec.toNat_ofNat] at h
  omega

theorem dosExtension_of_le_one (ha : a ≤ 1) : dosExtensionMapsBank1 env s a = false := by
  have hle : a.toNat ≤ 1 := ha
  have hlow : ¬ 0x1000#16 ≤ a := fun h => by
    have : 0x1000 ≤ a.toNat := h
    omega
  have hhigh : ¬ 0x8000#16 ≤ a := fun h => by
    have : 0x8000 ≤ a.toNat := h
    omega
  simp [dosExtensionMapsBank1, hlow, hhigh]

theorem not_le_one_of_dosExtension (h : dosExtensionMapsBank1 env s a = true) : ¬ a ≤ 1 := by
  intro ha
  rw [dosExtension_of_le_one ha] at h
  cases h

@[simp] theorem memory_busRead : ((busRead env a).run s).2.memory = s.memory := by
  unfold busRead
  cases env.bus <;> rfl

@[simp] theorem memory_busWrite : ((busWrite env a v).run s).2.memory = s.memory := by
  unfold busWrite
  cases env.bus <;> rfl

/-! ### Reads -/

theorem run_readFast_eq_read8 (h : ¬ ReadBypassesHost env s a) :
    (readFast env a).run s = (read8 env a).run s := by
  rw [readFast, run_bind, run_get]
  dsimp only
  split
  · next hdos =>
    rw [read8, run_bind, run_get]
    dsimp only
    rw [if_neg (not_le_one_of_dosExtension hdos), if_pos hdos]
  split
  · next hdos hplain =>
    obtain ⟨hport, hbootmap, hmap⟩ := hplain
    have hwindow : ¬ (s.memory.scpu128Mode && isHostDecoded a) = true := fun hwindow =>
      h ⟨Bool.eq_false_iff.mpr hdos, hwindow, hbootmap, hmap⟩
    have hlower : ¬ s.memory.bootmapExtensionMaps a = true := by
      simp [CC64Memory.bootmapExtensionMaps, hbootmap]
    have hupper : ¬ s.memory.bootmapMaps a = true := by
      simp [CC64Memory.bootmapMaps, hbootmap]
    rw [read8, run_bind, run_get]
    dsimp only
    rw [if_neg (BitVec.not_le.mpr hport), if_neg hdos, if_neg hwindow, if_neg hlower,
      if_neg hupper, hmap]
  · rfl

theorem run_read8_of_window (hdos : dosExtensionMapsBank1 env s a = false)
    (hwindow : (s.memory.scpu128Mode && isHostDecoded a) = true) :
    ((read8 env a).run s).2.memory.ioReads = s.memory.ioReads + 1 := by
  have hport : ¬ a ≤ 1 := not_le_one_of_isHostDecoded (Bool.and_eq_true_iff.mp hwindow).2
  rw [read8, run_bind, run_get]
  dsimp only
  rw [if_neg hport, if_neg (Bool.eq_false_iff.mp hdos), if_pos hwindow, run_bind, run_bind,
    memory_busRead]
  rfl

/-- The general read counts an access where the inlined one answers from RAM. -/
theorem run_readFast_ne_read8 (h : ReadBypassesHost env s a) :
    (readFast env a).run s ≠ (read8 env a).run s := by
  obtain ⟨hdos, hwindow, hbootmap, hmap⟩ := h
  have hport : ¬ a ≤ 1 := not_le_one_of_isHostDecoded (Bool.and_eq_true_iff.mp hwindow).2
  intro heq
  have hcount := run_read8_of_window hdos hwindow
  rw [← heq, readFast, run_bind, run_get] at hcount
  dsimp only at hcount
  rw [if_neg (Bool.eq_false_iff.mp hdos), if_pos ⟨BitVec.not_le.mp hport, hbootmap, hmap⟩] at hcount
  exact absurd hcount (Nat.ne_of_lt (Nat.lt_succ_self _))

/-! ### Writes -/

theorem run_writeFast_eq_write8 (h : ¬ WriteBypassesHost env s a) :
    (writeFast env a v).run s = (write8 env a v).run s := by
  rw [writeFast, run_bind, run_get]
  dsimp only
  split
  · next hdos =>
    rw [write8, run_bind, run_get]
    dsimp only
    rw [if_neg (not_le_one_of_dosExtension hdos), if_pos hdos]
  split
  · next hdos hplain =>
    obtain ⟨hport, hmap⟩ := hplain
    have hwindow : ¬ (s.memory.scpu128Mode && isHostDecoded a) = true := fun hwindow =>
      h ⟨Bool.eq_false_iff.mpr hdos, hwindow, hmap⟩
    have hchips : ¬ c64WriteIsIO a s.memory.bankMode = true := by
      unfold c64WriteIsIO
      simpa using hmap
    rw [write8, run_bind, run_get]
    dsimp only
    rw [if_neg (BitVec.not_le.mpr hport), if_neg hdos, if_neg hwindow, if_neg hchips]
  · rfl

theorem run_write8_of_window (hdos : dosExtensionMapsBank1 env s a = false)
    (hwindow : (s.memory.scpu128Mode && isHostDecoded a) = true) :
    ((write8 env a v).run s).2.memory.ramWrites = s.memory.ramWrites := by
  have hport : ¬ a ≤ 1 := not_le_one_of_isHostDecoded (Bool.and_eq_true_iff.mp hwindow).2
  rw [write8, run_bind, run_get]
  dsimp only
  rw [if_neg hport, if_neg (Bool.eq_false_iff.mp hdos), if_pos hwindow, run_bind, run_bind,
    memory_busWrite]
  rfl

/-- The inlined write counts a store where the general one counts an access. -/
theorem run_writeFast_ne_write8
    (henv : env.Keeps (OnMemory fun m => s.memory.ramWrites + 1 ≤ m.ramWrites))
    (h : WriteBypassesHost env s a) : (writeFast env a v).run s ≠ (write8 env a v).run s := by
  obtain ⟨hdos, hwindow, hmap⟩ := h
  have hport : ¬ a ≤ 1 := not_le_one_of_isHostDecoded (Bool.and_eq_true_iff.mp hwindow).2
  have hframes := storesCounted_frames env (s.memory.ramWrites + 1)
  intro heq
  have hcount : s.memory.ramWrites + 1 ≤ ((storeRAM env a v).run s).2.memory.ramWrites :=
    frames_after_count hframes v (fun _ => keeps_callFF00Hook henv) le_rfl
  have hnone := run_write8_of_window (v := v) hdos hwindow
  rw [← heq, writeFast, run_bind, run_get] at hnone
  dsimp only at hnone
  rw [if_neg (Bool.eq_false_iff.mp hdos), if_pos ⟨BitVec.not_le.mp hport, hmap⟩] at hnone
  omega

section Board

variable {ρ : Type}

/-- Both kinds of access agree on everything they return and do, exactly where the map
does not pass by a window of the host. -/
theorem fast_accesses_agree_iff (board : Board ρ) (depth : ℕ) (s : Machine (WithREU ρ)) (a : Addr)
    (v : Byte) :
    ((readFast (board.env depth) a).run s = (read8 (board.env depth) a).run s ↔
        ¬ ReadBypassesHost (board.env depth) s a) ∧
      ((writeFast (board.env depth) a v).run s = (write8 (board.env depth) a v).run s ↔
        ¬ WriteBypassesHost (board.env depth) s a) := by
  have henv := env_keeps board (storesCounted_keptByAccesses ρ (s.memory.ramWrites + 1)) depth
  refine ⟨⟨fun heq h => run_readFast_ne_read8 h heq, run_readFast_eq_read8⟩, ?_⟩
  exact ⟨fun heq h => run_writeFast_ne_write8 henv h heq, run_writeFast_eq_write8⟩

/-- In the native mode of a C128, with RAM mapped, the configuration register of the MMU
takes the general write only. -/
theorem fast_write_bypasses_host :
    let native : Machine (WithREU Unit) :=
      { emptyMachine with memory := { emptyMachine.memory with scpu128Mode := true } }
    let s := memoryStep (emptyBoard.env 0) native (.write8 1 0x30)
    ((writeFast (emptyBoard.env 0) 0xFF00 0x3E).run s).2.memory.ramWrites = 1 ∧
      ((write8 (emptyBoard.env 0) 0xFF00 0x3E).run s).2.memory.ramWrites = 0 ∧
      ((write8 (emptyBoard.env 0) 0xFF00 0x3E).run s).2.memory.ioWrites = 1 ∧
      (writeFast (emptyBoard.env 0) 0xFF00 0x3E).run s ≠
        (write8 (emptyBoard.env 0) 0xFF00 0x3E).run s := by
  intro native s
  have hfast : ((writeFast (emptyBoard.env 0) 0xFF00 0x3E).run s).2.memory.ramWrites = 1 := by
    decide +kernel
  have hgeneral : ((write8 (emptyBoard.env 0) 0xFF00 0x3E).run s).2.memory.ramWrites = 0 := by
    decide +kernel
  refine ⟨hfast, hgeneral, by decide +kernel, fun h => ?_⟩
  rw [h, hgeneral] at hfast
  cases hfast

end Board

end ScpuEmu
