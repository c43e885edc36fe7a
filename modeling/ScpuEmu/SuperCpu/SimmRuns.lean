import ScpuEmu.SuperCpu.MemoryMap
import ScpuEmu.SuperCpu.ReadResidue
import ScpuEmu.SuperCpu.SystemFrames
import ScpuEmu.Library.CellStore

/-!
# The SIMM behind the memory map

A byte of the SIMM changes by a write that the map decodes to it and by nothing else: not by
the C64's side of bank 0, whose register file only configures how many address lines are
decoded, and not by transfers of the expansion unit.
-/

namespace ScpuEmu

open Library

namespace CSuperCPUMemoryMap

variable {α β : Type}

/-! ### What the devices of bank 0 keep -/

section Frames

/-- The SIMM after a write of a register. -/
def simmAfter (r : CSuperCPURegisters) (simm : CFastRAM) (a : Addr) (v : Byte) : CFastRAM :=
  if a = 0xD078 ∧ r.hwRegsEnabled = true ∧ r.fastRAM.isSome = true then simm.setConfig v else simm

/-- The register file keeps a property of itself and of the SIMM. -/
structure KeptByRegisters (Q : CSuperCPURegisters → CFastRAM → Prop) : Prop where
  read : ∀ r simm lines a, Q r simm → Q ((r.load lines).ioRead a).2 simm
  write : ∀ r simm lines a v, Q r simm → Q ((r.load lines).ioWrite a v).2 (simmAfter r simm a v)

/-- The property, as one of all around the memory. -/
def OnRegisters (Q : CSuperCPURegisters → CFastRAM → Prop) (o : Accelerator (Fitted (WithSIMM β))) :
    Prop := Q o.rest.file o.rest.rest.simm

def OnSystem (Q : CSuperCPURegisters → CFastRAM → Prop) (s : System (Fitted (WithSIMM β))) : Prop :=
  OnAccelerator (OnRegisters Q) s

variable {Q : CSuperCPURegisters → CFastRAM → Prop}

/-- Of all that is wired to the accelerator, the register file alone reaches the SIMM. -/
theorem spares_onRegisters (b : Chassis β) (hQ : KeptByRegisters Q) :
    b.mapped.Spares (OnRegisters Q) where
  around o r h hkept := by
    cases h <;> exact hkept
  buffer _ _ h := h
  note _ _ h := h
  registerRead o lines a h := hQ.read o.rest.file o.rest.rest.simm lines a h
  registerWrite o lines a v h := by
    have hwrite := hQ.write o.rest.file o.rest.rest.simm lines a v h
    have hpolicy (policy : Option (SCPUOptMode × Bool)) : (o.applyPolicy policy).rest = o.rest := by
      cases policy <;> rfl
    have hreply : (b.simmRegisters.ioWrite o.rest lines a v).state =
        { file := ((o.rest.file.load lines).ioWrite a v).2
          rest := { o.rest.rest with simm := simmAfter o.rest.file o.rest.rest.simm a v } } := by
      unfold Chassis.simmRegisters simmAfter
      dsimp only
      split_ifs <;> rfl
    show Q (b.simmRegisters.ioWrite o.rest lines a v).state.file
      (b.simmRegisters.ioWrite o.rest lines a v).state.rest.simm
    rw [hreply]
    exact hwrite

end Frames

/-! ### Runs -/

section Operations

variable (b : Chassis β) (depth : ℕ) (m : CSuperCPUMemoryMap β)

/-- A reset of the accelerator tracks what the register file drives, and resets the file, which
configures the SIMM anew. -/
def resetRegisters (bootmapUsable : Bool) (o : Fitted (WithSIMM β)) : Fitted (WithSIMM β) where
  file := ((o.file.trackBootmap (if bootmapUsable then some false else none)).trackKernalShadow
    (some 0xE000)).reset
  rest := if o.file.fastRAM.isSome then o.rest.mapSIMM fun simm => simm.setConfig 4 else o.rest

/-- `CSuperCPU::reset`. `seed` is what it copies to bank 1. -/
def reset (bootmapEnabled : Bool) (seed : MapLines) : CSuperCPUMemoryMap β :=
  let bootmapUsable := bootmapEnabled && decide (0x10000 ≤ m.romLength)
  let registers : Fitted (WithSIMM β) → Fitted (WithSIMM β) := resetRegisters bootmapUsable
  let optim := (registers m.system.outside.rest.rest).file.optim
  let policy := CSuperCPURegisters.mirrorPolicy (CSuperCPURegisters.mirrorSelector optim)
  let memory := { m.system.memory with
    bootmapROM := if bootmapUsable then m.rom else fun _ => 0
    bootmapROMLength := if bootmapUsable then m.romLength else 0 }
  { m with system :=
      SuperCpu.reset (env b depth) registers policy seed ⟨memory, m.system.outside⟩ }

end Operations

/-- What happens to the accelerator: accesses of the core, samples of its interrupt lines, time,
work on the mirror, an image for the ROM, a reset, and whatever the outside does. -/
inductive Op (β : Type)
  | read8 (addr : BitVec 24)
  | write8 (addr : BitVec 24) (value : Byte)
  | rerouteVector (addr : Addr)
  | sampleIRQNMIFast
  | tick (nCycles : ℕ)
  | mirrorWork (works : List MirrorWork)
  | setROM (image : BitVec 32 → Byte) (length : ℕ)
  | reset (bootmapEnabled : Bool) (seed : MapLines)
  | rest (f : β → β)

/-- One step, where nesting of transfers is followed to a depth. -/
def step (b : Chassis β) (depth : ℕ) (m : CSuperCPUMemoryMap β) : Op β → CSuperCPUMemoryMap β
  | .read8 addr => ((read8 b depth addr).run m).2
  | .write8 addr v => ((write8 b depth addr v).run m).2
  | .rerouteVector addr => ((rerouteVector b depth addr).run m).2
  | .sampleIRQNMIFast => ((onBank0 (ScpuEmu.sampleIRQNMIFast (env b depth))).run m).2
  | .tick n => ((onBank0 (tickFast (env b depth) n)).run m).2
  | .mirrorWork works => { m with system := b.mapped.mirrorWork works m.system }
  | .setROM image length => m.setROM image length
  | .reset bootmapEnabled seed => m.reset b depth bootmapEnabled seed
  | .rest f =>
      { m with system := m.system.mapAccelerator fun o =>
          o.mapRest fun fitted => fitted.mapRest fun r => r.mapRest f }

/-! ### One access -/

section Accesses

variable (m : CSuperCPUMemoryMap β)

/-- Where the map decodes an address to the SIMM, the offset in it. -/
def simmOffset (addr : BitVec 24) : Option (BitVec 32) :=
  if m.simm.size = 0 then none
  else if inSimmWindow addr then some ((addr - 0xF60000).setWidth 32)
  else if 0x020000 ≤ addr ∧ addr < 0xF60000 ∧ addr.setWidth 32 < m.simm.size then
    some (addr.setWidth 32)
  else none

/-- The offset that an access reaches. A write goes through the window only while the bank of
registers is open. -/
def accessOffset (addr : BitVec 24) (write : Bool) : Option (BitVec 32) :=
  if write = true ∧ inSimmWindow addr ∧ m.file.hwRegsEnabled = false then none
  else m.simmOffset addr

/-- What an access above bank 1 costs, in half cycles. -/
def aboveCost (addr : BitVec 24) (write : Bool) : ℕ :=
  if 0xF80000 ≤ addr then 6
  else ((m.accessOffset addr write).map fun o => (m.simm.accessPenaltyHalfCycles o write).1).getD 0

/-- The SIMM after an access above bank 1, apart from what a write stores. -/
def simmAccessed (addr : BitVec 24) (write : Bool) : CFastRAM :=
  ((m.accessOffset addr write).map fun o => (m.simm.accessPenaltyHalfCycles o write).2).getD m.simm

def afterAbove (addr : BitVec 24) (write : Bool) : CSuperCPUMemoryMap β :=
  (m.countFast.mapSIMM fun _ => m.simmAccessed addr write).mapTiming
    fun t => t.noteFastHalfCycles (m.aboveCost addr write)

/-- What is read above bank 1. -/
def aboveValue (addr : BitVec 24) : Byte :=
  match m.simmOffset addr with
  | some o => m.simm.ram (m.simm.cell o)
  | none =>
      if 0xF80000 ≤ addr ∧ m.romLength ≠ 0 then
        m.rom (BitVec.ofNat 32 ((addr - 0xF80000).toNat % m.romLength))
      else openBus addr

variable (b : Chassis β) (depth : ℕ) {m} {addr : BitVec 24}

theorem run_simmAccess (offset : BitVec 32) (write : Bool) :
    (simmAccess offset write).run m =
      (⟨⟩, (m.mapSIMM fun _ => (m.simm.accessPenaltyHalfCycles offset write).2).mapTiming
        fun t => t.noteFastHalfCycles (m.simm.accessPenaltyHalfCycles offset write).1) := rfl

theorem mapSIMM_eq_self {f : CFastRAM → CFastRAM} (h : f m.simm = m.simm) : m.mapSIMM f = m := by
  have hconst : m.mapSIMM f = m.mapSIMM fun _ => f m.simm := rfl
  rw [hconst, h]
  rfl

theorem simmOffset_absent (h : m.simm.size = 0) : m.simmOffset addr = none := if_pos h

theorem simmOffset_window (h : m.simm.size ≠ 0) (hw : inSimmWindow addr) :
    m.simmOffset addr = some ((addr - 0xF60000).setWidth 32) := by
  rw [simmOffset, if_neg h, if_pos hw]

theorem simmOffset_direct (hw : ¬ inSimmWindow addr) (hlow : 0x020000 ≤ addr)
    (hrom : ¬ 0xF80000 ≤ addr) (h : m.simm.size ≠ 0) (hlt : addr.setWidth 32 < m.simm.size) :
    m.simmOffset addr = some (addr.setWidth 32) := by
  have hbelow : addr < 0xF60000 := by
    unfold inSimmWindow at hw
    bv_omega
  rw [simmOffset, if_neg h, if_neg hw, if_pos ⟨hlow, hbelow, hlt⟩]

theorem simmOffset_rom (h : 0xF80000 ≤ addr) : m.simmOffset addr = none := by
  have hwindow : ¬ inSimmWindow addr := fun hw => by
    have := hw.2
    bv_omega
  have hlow : ¬ addr < 0xF60000 := by bv_omega
  unfold simmOffset
  split_ifs with _ hdirect
  · rfl
  · exact absurd hdirect.2.1 hlow
  · rfl

theorem simmOffset_beyond (hw : ¬ inSimmWindow addr)
    (h : ¬ (m.simm.present = true ∧ addr.setWidth 32 < m.simm.size)) :
    m.simmOffset addr = none := by
  unfold simmOffset
  split_ifs with hsize hdirect
  · rfl
  · exact absurd ⟨decide_eq_true hsize, hdirect.2.2⟩ h
  · rfl

theorem simmAccessed_of_none {write : Bool} (h : m.accessOffset addr write = none) :
    m.simmAccessed addr write = m.simm := by
  rw [simmAccessed, h]
  rfl

theorem simmAccessed_of_some {write : Bool} {o : BitVec 32}
    (h : m.accessOffset addr write = some o) :
    m.simmAccessed addr write = (m.simm.accessPenaltyHalfCycles o write).2 := by
  rw [simmAccessed, h]
  rfl

theorem aboveCost_of_none {write : Bool} (hrom : ¬ 0xF80000 ≤ addr)
    (h : m.accessOffset addr write = none) : m.aboveCost addr write = 0 := by
  rw [aboveCost, if_neg hrom, h]
  rfl

theorem aboveCost_of_some {write : Bool} {o : BitVec 32} (hrom : ¬ 0xF80000 ≤ addr)
    (h : m.accessOffset addr write = some o) :
    m.aboveCost addr write = (m.simm.accessPenaltyHalfCycles o write).1 := by
  rw [aboveCost, if_neg hrom, h]
  rfl

theorem read_access (s : CFastRAM) (h : s.size ≠ 0) (offset : BitVec 32) (write : Bool)
    (c : BitVec 32) : (s.accessPenaltyHalfCycles offset write).2.read c = s.ram (s.cell c) := by
  rcases s.access_cases offset write with heq | heq <;> rw [heq] <;> exact if_pos h

theorem accessOffset_read : m.accessOffset addr false = m.simmOffset addr :=
  if_neg fun h => Bool.false_ne_true h.1

theorem run_read8_above (h : 0x020000 ≤ addr) :
    (read8 b depth addr).run m = (m.aboveValue addr, m.afterAbove addr false) := by
  have h0 : ¬ addr < 0x010000 := by bv_omega
  have h1 : ¬ addr < 0x020000 := by bv_omega
  have hopen (hrom : ¬ 0xF80000 ≤ addr) (hnone : m.simmOffset addr = none) :
      (openBus addr, m.countFast) =
        (m.aboveValue addr, m.afterAbove addr false) := by
    have hrom' : ¬ (0xF80000 ≤ addr ∧ m.romLength ≠ 0) := fun h => hrom h.1
    rw [afterAbove, aboveCost_of_none hrom (accessOffset_read.trans hnone),
      simmAccessed_of_none (accessOffset_read.trans hnone), aboveValue, hnone]
    dsimp only
    rw [if_neg hrom']
    rfl
  have hsimm (hrom : ¬ 0xF80000 ≤ addr) (hsize : m.simm.size ≠ 0) {o : BitVec 32}
      (hsome : m.simmOffset addr = some o) :
      ((simmAccess o false >>= fun _ => do return (← get).simm.read o).run m.countFast) =
        (m.aboveValue addr, m.afterAbove addr false) := by
    rw [afterAbove, aboveCost_of_some hrom (accessOffset_read.trans hsome),
      simmAccessed_of_some (accessOffset_read.trans hsome), aboveValue, hsome]
    exact Prod.ext (read_access m.simm hsize o false o) rfl
  unfold read8
  rw [if_neg h0, if_neg h1]
  unfold readAbove
  rw [run_bind, run_modify, run_bind, run_get]
  dsimp only
  rw [if_neg h1, simm_countFast, rom_countFast, romLength_countFast]
  by_cases hrom : 0xF80000 ≤ addr
  · have hnone : m.simmOffset addr = none := simmOffset_rom hrom
    rw [if_pos hrom, afterAbove, simmAccessed_of_none (accessOffset_read.trans hnone),
      show m.aboveCost addr false = 6 from if_pos hrom, aboveValue, hnone]
    refine Prod.ext ?_ rfl
    show (if m.romLength = 0 then openBus addr else _) = if _ then _ else _
    split_ifs with hzero hboth hboth
    · exact absurd hzero hboth.2
    · rfl
    · rfl
    · exact absurd ⟨hrom, hzero⟩ hboth
  · rw [if_neg hrom]
    by_cases hw : inSimmWindow addr
    · rw [if_pos hw]
      by_cases hsize : m.simm.size = 0
      · have habsent : m.simm.present = false := decide_eq_false (not_not.mpr hsize)
        rw [if_pos habsent]
        exact hopen hrom (simmOffset_absent hsize)
      · have hpresent : ¬ m.simm.present = false := fun h => of_decide_eq_false h hsize
        rw [if_neg hpresent]
        exact hsimm hrom hsize (simmOffset_window hsize hw)
    · rw [if_neg hw]
      by_cases hdirect : m.simm.present = true ∧ addr.setWidth 32 < m.simm.size
      · rw [if_pos hdirect]
        have hsize : m.simm.size ≠ 0 := of_decide_eq_true hdirect.1
        exact hsimm hrom hsize (simmOffset_direct hw h hrom hsize hdirect.2)
      · rw [if_neg hdirect]
        exact hopen hrom (simmOffset_beyond hw hdirect)

/-- What a write stores in the SIMM. -/
def simmWritten (s : CFastRAM) (offset : Option (BitVec 32)) (v : Byte) : CFastRAM :=
  match offset with
  | some o => s.write o v
  | none => s

theorem run_write8_above (h : 0x020000 ≤ addr) (v : Byte) :
    ((write8 b depth addr v).run m).2 =
      (m.afterAbove addr true).mapSIMM fun s => simmWritten s (m.accessOffset addr true) v := by
  have h0 : ¬ addr < 0x010000 := by bv_omega
  have h1 : ¬ addr < 0x020000 := by bv_omega
  have hnothing (hrom : ¬ 0xF80000 ≤ addr) (hnone : m.accessOffset addr true = none) :
      m.countFast = (m.afterAbove addr true).mapSIMM fun s =>
        simmWritten s (m.accessOffset addr true) v := by
    rw [afterAbove, aboveCost_of_none hrom hnone, simmAccessed_of_none hnone, hnone]
    rfl
  have hsimm (hrom : ¬ 0xF80000 ≤ addr) {o : BitVec 32}
      (hsome : m.accessOffset addr true = some o) :
      ((simmAccess o true >>= fun _ => modify fun m => m.mapSIMM fun s => s.write o v).run
        m.countFast).2 = (m.afterAbove addr true).mapSIMM fun s =>
          simmWritten s (m.accessOffset addr true) v := by
    rw [afterAbove, aboveCost_of_some hrom hsome, simmAccessed_of_some hsome, hsome]
    rfl
  unfold write8
  rw [if_neg h0, if_neg h1]
  unfold writeAbove
  rw [run_bind, run_modify, run_bind, run_get]
  dsimp only
  rw [if_neg h1, simm_countFast, file_countFast]
  by_cases hrom : 0xF80000 ≤ addr
  · have hnone : m.accessOffset addr true = none := by
      rw [accessOffset, simmOffset_rom hrom, ite_self]
    rw [if_pos hrom, afterAbove, simmAccessed_of_none hnone,
      show m.aboveCost addr true = 6 from if_pos hrom, hnone]
    rfl
  · rw [if_neg hrom]
    by_cases hw : inSimmWindow addr
    · rw [if_pos hw]
      by_cases hclosed : m.file.hwRegsEnabled = false
      · rw [if_pos hclosed]
        exact hnothing hrom (if_pos ⟨rfl, hw, hclosed⟩)
      · have hopen : m.accessOffset addr true = m.simmOffset addr := if_neg fun h => hclosed h.2.2
        rw [if_neg hclosed]
        by_cases hsize : m.simm.size = 0
        · have hnone := hopen.trans (simmOffset_absent hsize)
          have hfree (o : BitVec 32) : m.simm.accessPenaltyHalfCycles o true = (0, m.simm) :=
            if_pos hsize
          have hkept (o : BitVec 32) : m.countFast.mapSIMM (fun s => s.write o v) = m.countFast :=
            mapSIMM_eq_self (m := m.countFast) (if_neg (not_not.mpr hsize))
          rw [run_bind, run_simmAccess, run_modify, simm_countFast, hfree, ← hnothing hrom hnone]
          exact hkept _
        · exact hsimm hrom (hopen.trans (simmOffset_window hsize hw))
    · have hopen : m.accessOffset addr true = m.simmOffset addr := if_neg fun h => hw h.2.1
      rw [if_neg hw]
      by_cases hdirect : m.simm.present = true ∧ addr.setWidth 32 < m.simm.size
      · rw [if_pos hdirect]
        have hsize : m.simm.size ≠ 0 := of_decide_eq_true hdirect.1
        exact hsimm hrom (hopen.trans (simmOffset_direct hw h hrom hsize hdirect.2))
      · rw [if_neg hdirect]
        exact hnothing hrom (hopen.trans (simmOffset_beyond hw hdirect))

end Accesses

/-! ### Steps -/

section Steps

variable {Q : CSuperCPURegisters → CFastRAM → Prop} {b : Chassis β} {depth : ℕ}
  {m : CSuperCPUMemoryMap β}

/-- A property of the register file and the SIMM that nothing but a store in the SIMM can break. -/
structure KeptBySteps (Q : CSuperCPURegisters → CFastRAM → Prop) : Prop
    extends KeptByRegisters Q where
  access : ∀ r simm o write, Q r simm → Q r (simm.accessPenaltyHalfCycles o write).2
  reset : ∀ r simm flag, Q r simm → Q ((r.trackBootmap flag).trackKernalShadow (some 0xE000)).reset
    (if r.fastRAM.isSome then simm.setConfig 4 else simm)

def OnMap (Q : CSuperCPURegisters → CFastRAM → Prop) (m : CSuperCPUMemoryMap β) : Prop :=
  Q m.file m.simm

theorem map_onBank0 {op : MemoryM (WithREU (Accelerator (Fitted (WithSIMM β)))) α}
    (hop : Keeps (OnSystem Q) op) : Keeps (OnMap Q) (onBank0 op) := fun m h => hop m.system h

theorem onMap_afterAbove (hQ : KeptBySteps Q) (addr : BitVec 24) (write : Bool) (h : OnMap Q m) :
    OnMap Q (m.afterAbove addr write) := by
  show Q m.file (m.simmAccessed addr write)
  unfold simmAccessed
  cases m.accessOffset addr write with
  | none => exact h
  | some o => exact hQ.access m.file m.simm o write h

theorem map_read8 (hQ : KeptBySteps Q) (addr : BitVec 24) :
    Keeps (OnMap Q) (read8 b depth addr) := by
  by_cases h0 : addr < 0x010000
  · unfold read8
    rw [if_pos h0]
    refine keeps_bind (fun m h => h) fun _ => map_onBank0 ?_
    exact accelerator_access (spares_onRegisters b hQ.toKeptByRegisters) depth (.readFast _)
  by_cases h1 : addr < 0x020000
  · unfold read8
    rw [if_neg h0, if_pos h1]
    refine keeps_bind (fun m h => h) fun _ => ?_
    refine keeps_ite (map_onBank0 ?_) fun m h => h
    exact accelerator_access (spares_onRegisters b hQ.toKeptByRegisters) depth (.read8 _)
  · intro m h
    rw [run_read8_above b depth (by bv_omega)]
    exact onMap_afterAbove hQ addr false h

theorem map_write8_low (hQ : KeptByRegisters Q) {addr : BitVec 24}
    (h1 : addr < 0x020000) (v : Byte) :
    Keeps (OnMap Q) (write8 b depth addr v) := by
  unfold write8
  apply keeps_ite
  · refine keeps_bind (fun m h => h) fun _ => map_onBank0 ?_
    exact accelerator_access (spares_onRegisters b hQ) depth (.writeFast _ v)
  rw [if_pos h1]
  refine keeps_bind (fun m h => h) fun _ => ?_
  refine keeps_ite (map_onBank0 ?_) (map_onBank0 fun s h => h)
  exact accelerator_access (spares_onRegisters b hQ) depth (.write8 _ v)

theorem onRegisters_reset (hQ : KeptBySteps Q) (bootmapUsable : Bool)
    (o : Accelerator (Fitted (WithSIMM β))) (policy : SCPUOptMode × Bool) (h : OnRegisters Q o) :
    OnRegisters Q ((o.mapRest (resetRegisters bootmapUsable)).applyPolicy (some policy)) := by
  have hsimm : (resetRegisters bootmapUsable o.rest).rest.simm =
      if o.rest.file.fastRAM.isSome then o.rest.rest.simm.setConfig 4 else o.rest.rest.simm := by
    unfold resetRegisters
    dsimp only
    split_ifs <;> rfl
  show Q _ (resetRegisters bootmapUsable o.rest).rest.simm
  rw [hsimm]
  exact hQ.reset o.rest.file o.rest.rest.simm _ h

theorem map_reset (hQ : KeptBySteps Q) (bootmapEnabled : Bool) (seed : MapLines) (h : OnMap Q m) :
    OnMap Q (m.reset b depth bootmapEnabled seed) :=
  accelerator_reset (spares_onRegisters b hQ.toKeptByRegisters) depth _ _ seed
    (fun o ho => onRegisters_reset hQ _ o _ ho) _ h

theorem map_step (hQ : KeptBySteps Q) (op : Op β)
    (hop : ∀ addr v, op = .write8 addr v → addr < 0x020000) (h : OnMap Q m) :
    OnMap Q (step b depth m op) := by
  have hspares := spares_onRegisters b hQ.toKeptByRegisters
  cases op with
  | read8 addr => exact map_read8 hQ addr m h
  | write8 addr v => exact map_write8_low hQ.toKeptByRegisters (hop addr v rfl) v m h
  | rerouteVector addr =>
      have hboth : Keeps (OnMap Q) (rerouteVector b depth addr) := by
        refine keeps_bind (fun m h => h) fun _ => ?_
        exact keeps_bind (map_read8 hQ _) fun _ => keeps_bind (map_read8 hQ _) fun _ => keeps_pure _
      exact hboth m h
  | sampleIRQNMIFast => exact map_onBank0 (accelerator_sampleIRQNMIFast hspares depth) m h
  | tick n => exact map_onBank0 (accelerator_tickFast hspares depth n) m h
  | mirrorWork works => exact accelerator_mirrorWork hspares works m.system h
  | setROM image length => exact h
  | reset bootmapEnabled seed => exact map_reset hQ bootmapEnabled seed h
  | rest f => exact h

/-! ### What the SIMM holds -/

/-- The store of a step in the SIMM. -/
def opStore (m : CSuperCPUMemoryMap β) : Op β → Option (BitVec 32 × Byte)
  | .write8 addr v => (m.accessOffset addr true).map fun o => (m.simm.cell o, v)
  | _ => none

theorem simmOffset_low {addr : BitVec 24} (h : addr < 0x020000) : m.simmOffset addr = none := by
  have hwindow : ¬ inSimmWindow addr := fun hw => by
    have := hw.1
    bv_omega
  have hlow : ¬ 0x020000 ≤ addr := by bv_omega
  unfold simmOffset
  split_ifs with _ hdirect
  · rfl
  · exact absurd hdirect.1 hlow
  · rfl

theorem keptBySteps_ram (ram : BitVec 32 → Byte) : KeptBySteps fun _ simm => simm.ram = ram where
  read _ _ _ _ h := h
  write r simm _ a v h := by
    unfold simmAfter
    split_ifs <;> exact h
  access _ simm o write h := by
    rcases simm.access_cases o write with heq | heq <;> rw [heq] <;> exact h
  reset r simm _ h := by
    split_ifs <;> exact h

theorem simmOffset_present {addr : BitVec 24} {o : BitVec 32} (h : m.simmOffset addr = some o) :
    m.simm.size ≠ 0 := by
  intro hsize
  rw [simmOffset_absent hsize] at h
  exact Option.some_ne_none o h.symm

theorem accessOffset_present {addr : BitVec 24} {write : Bool} {o : BitVec 32}
    (h : m.accessOffset addr write = some o) : m.simm.size ≠ 0 := by
  unfold accessOffset at h
  split_ifs at h
  exact simmOffset_present h

/-- A step changes the bytes of the SIMM by its store and by nothing else. -/
theorem storesBy_step : StoresBy (step b depth) (fun m => m.simm.ram) opStore := by
  intro m op
  have hkept (hop : ∀ addr v, op = .write8 addr v → addr < 0x020000) :
      (step b depth m op).simm.ram = m.simm.ram :=
    map_step (keptBySteps_ram m.simm.ram) op hop rfl
  dsimp only
  cases op with
  | write8 addr v =>
      by_cases h1 : addr < 0x020000
      · have hnone : m.accessOffset addr true = none := by
          rw [accessOffset, simmOffset_low h1, ite_self]
        rw [hkept (fun addr' v' h => by cases h; exact h1), opStore, hnone]
        rfl
      · show (((write8 b depth addr v).run m).2).simm.ram = _
        rw [run_write8_above b depth (by bv_omega), opStore]
        show (simmWritten (m.simmAccessed addr true) (m.accessOffset addr true) v).ram = _
        cases ho : m.accessOffset addr true with
        | none => rw [simmAccessed_of_none ho]; rfl
        | some o =>
            rw [simmAccessed_of_some ho]
            rcases m.simm.access_cases o true with heq | heq <;> rw [heq] <;>
              simp only [simmWritten, CFastRAM.write, accessOffset_present ho, ne_eq,
                not_false_eq_true, if_true] <;> rfl
  | read8 | rerouteVector | sampleIRQNMIFast | tick | mirrorWork | setROM | reset | rest =>
      exact hkept fun _ _ h => by cases h

/-- After any run, a read that the map decodes to a cell of the SIMM returns the byte of the
latest write that reached the cell, whatever the two addresses are and however the SIMM has been
configured and the window gated meanwhile; if no write reached it, the cell has its first byte. -/
theorem simm_read_latest (b : Chassis β) (depth : ℕ) (m : CSuperCPUMemoryMap β) (ops : List (Op β))
    (addr : BitVec 24) (c : BitVec 32)
    (hcell : ((run (step b depth) m ops).simmOffset addr).map
      (run (step b depth) m ops).simm.cell = some c) :
    let value := ((read8 b depth addr).run (run (step b depth) m ops)).1
    (AllSteps (step b depth) (Spares opStore c) m ops ∧ value = m.simm.ram c) ∨
      ∃ before other after, ops = before ++ .write8 other value :: after ∧
        ((run (step b depth) m before).accessOffset other true).map
          (run (step b depth) m before).simm.cell = some c ∧
        AllSteps (step b depth) (Spares opStore c)
          (step b depth (run (step b depth) m before) (.write8 other value)) after := by
  intro value
  have hstores : StoresBy (step b depth) (fun m => m.simm.ram) opStore := storesBy_step
  have hvalue : value = (run (step b depth) m ops).simm.ram c := by
    obtain ⟨o, ho, rfl⟩ := Option.map_eq_some_iff.mp hcell
    have habove : 0x020000 ≤ addr := by
      by_contra hlow
      rw [simmOffset_low (by bv_omega)] at ho
      exact Option.some_ne_none o ho.symm
    show ((read8 b depth addr).run _).1 = _
    rw [run_read8_above b depth habove, aboveValue, ho]
  obtain ⟨hspared, hkept⟩ | ⟨before, op, after, hops, hstore, hspared⟩ :=
    hstores.run_latest m ops c
  · exact .inl ⟨hspared, hvalue.trans hkept⟩
  · cases op with
    | write8 other v =>
        obtain ⟨o, ho, hpair⟩ := Option.map_eq_some_iff.mp hstore
        obtain ⟨hc, hv⟩ := Prod.mk.inj hpair
        have hsame : v = value := hv.trans hvalue.symm
        subst hsame
        exact .inr ⟨before, other, after, hops, Option.map_eq_some_iff.mpr ⟨o, ho, hc⟩, hspared⟩
    | read8 | rerouteVector | sampleIRQNMIFast | tick | mirrorWork | setROM | reset | rest =>
        cases hstore

end Steps

/-- As constructed, with a SIMM of 4 MB and an image of 128K. -/
def seatedMap : CSuperCPUMemoryMap Unit where
  system :=
    { memory :=
        { CC64Memory.construct 0 0 0 (fun _ => 0) fun _ => ⟨0, 0, 0, 0⟩ with
          romShadow := some fun _ => 0 }
      outside :=
        { rest :=
            { rest := ⟨CSuperCPURegisters.construct.attachFastRAM (some 4),
                (CFastRAM.construct.init 4 true).2, ()⟩
              buffer := (WriteBuffer.construct (fun _ => 0) fun _ => 0).attach true
              mirrorHalted := false
              events := [] }
          unit := CREU.construct
          touched := []
          started := 0
          exhausted := false } }
  rom i := i.setWidth 8
  romLength := 0x20000
  bank0Accesses := 0
  fastAccesses := 0
  vectorReroutes := 0

/-- A store through the window, before the SIMM is configured to decode 1 MB. -/
def windowOps : List (Op Unit) :=
  [.write8 0x00D07E 0, .write8 0xF60123 0x5A, .write8 0x00D078 0, .write8 0x00D07F 0]

/-- Afterwards the next megabyte shows the byte that the store left in the first. -/
theorem simm_read_latest_window :
    let atEnd := run (step floatingChassis 0) seatedMap windowOps
    ((read8 floatingChassis 0 0x100123).run atEnd).1 = 0x5A ∧
      ∃ before other after, windowOps = before ++ .write8 other 0x5A :: after ∧
        ((run (step floatingChassis 0) seatedMap before).accessOffset other true).map
          (run (step floatingChassis 0) seatedMap before).simm.cell = some 0x123 := by
  intro atEnd
  have hvalue : ((read8 floatingChassis 0 0x100123).run atEnd).1 = 0x5A := by decide +kernel
  have hlatest := simm_read_latest floatingChassis 0 seatedMap windowOps 0x100123 0x123
    (by decide +kernel)
  dsimp only at hlatest
  rw [show run (step floatingChassis 0) seatedMap windowOps = atEnd from rfl, hvalue] at hlatest
  obtain ⟨-, hfirst⟩ | ⟨before, other, after, hops, hreached, -⟩ := hlatest
  · have hblank : seatedMap.simm.ram 0x123 = 0 := by decide +kernel
    exact absurd (hfirst.trans hblank) (by decide)
  · exact ⟨hvalue, before, other, after, hops, hreached⟩

end CSuperCPUMemoryMap

end ScpuEmu
