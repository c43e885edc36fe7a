import ScpuEmu.SuperCpu.WriteBuffer.Definitions

/-!
# The register file of the SuperCPU

The registers at $D071-$D07F and $D0B0-$D0BF, the private RAM at $D200-$D3FF and the cache
of the colour RAM. Some of the state lives in other objects: the register file holds
pointers to them, and drives the KERNAL window and the boot map of the memory map, the
policy of the write buffer and the configuration of the SIMM. What a pointer reaches is part
of the state here, `none` standing for a null pointer.
-/

namespace ScpuEmu

open Library

inductive SCPUHardwareVersion
  | v1
  | v2
  deriving DecidableEq

/-- `CSuperCPURegisters`. The speed hook is the number of its calls so far, and the SIMM the
value it was configured with. -/
structure CSuperCPURegisters where
  regWrites : ℕ
  version : SCPUHardwareVersion
  scpu128Mode : Bool
  sys1MHz : Bool
  soft1MHz : Bool
  switchSlow : Bool
  switchJiffy : Bool
  bootAnimHack : Bool
  videoSwitchAvailable : Bool
  videoDefaultHDMI : Bool
  videoRequestedHDMI : Bool
  videoKnockArmed : Bool
  hwRegsEnabled : Bool
  bootmap : Bool
  dosExt : Bool
  ramLink : Bool
  emulationMode : Bool
  speedChanged : Bool
  optim : Byte
  simmConfig : Byte
  sysRAM : BitVec 8 → Byte
  userRAM : BitVec 8 → Byte
  colorRAM : BitVec 10 → Byte
  videoHDMIActive : Option Bool
  emulationFlag : Option Bool
  writeBuffer : Option WriteBuffer
  bootmapFlag : Option Bool
  kernalShadowBase : Option Addr
  bank1 : Option (Addr → Byte)
  fastRAM : Option Byte
  speedHook : Option ℕ

namespace CSuperCPURegisters

variable (r : CSuperCPURegisters)

def inSysRAM (a : Addr) : Prop := 0xD200#16 ≤ a ∧ a < 0xD300#16

def inUserRAM (a : Addr) : Prop := 0xD300#16 ≤ a ∧ a < 0xD400#16

def inColorRAM (a : Addr) : Prop := 0xD800#16 ≤ a ∧ a ≤ 0xDBFF#16

/-- The addresses of the registers. -/
def inD07x (a : Addr) : Prop := 0xD071#16 ≤ a ∧ a ≤ 0xD07F#16

def inD0Bx (a : Addr) : Prop := 0xD0B0#16 ≤ a ∧ a ≤ 0xD0BF#16

instance (a : Addr) : Decidable (inSysRAM a) := inferInstanceAs (Decidable (_ ∧ _))

instance (a : Addr) : Decidable (inUserRAM a) := inferInstanceAs (Decidable (_ ∧ _))

instance (a : Addr) : Decidable (inColorRAM a) := inferInstanceAs (Decidable (_ ∧ _))

instance (a : Addr) : Decidable (inD07x a) := inferInstanceAs (Decidable (_ ∧ _))

instance (a : Addr) : Decidable (inD0Bx a) := inferInstanceAs (Decidable (_ ∧ _))

def bank1Read (a : Addr) : Byte :=
  match r.bank1 with
  | some bank1 => bank1 a
  | none =>
      if inSysRAM a then r.sysRAM (a.setWidth 8)
      else if inUserRAM a then r.userRAM (a.setWidth 8)
      else if inColorRAM a then r.colorRAM (a.setWidth 10)
      else 0

def bank1Write (a : Addr) (v : Byte) : CSuperCPURegisters :=
  match r.bank1 with
  | some bank1 => { r with bank1 := some (Function.update bank1 a v) }
  | none =>
      if inSysRAM a then { r with sysRAM := Function.update r.sysRAM (a.setWidth 8) v }
      else if inUserRAM a then { r with userRAM := Function.update r.userRAM (a.setWidth 8) v }
      else if inColorRAM a then { r with colorRAM := Function.update r.colorRAM (a.setWidth 10) v }
      else r

/-! ### The speed -/

def fastMode : Bool := !(r.sys1MHz || r.soft1MHz || (r.switchSlow && !r.hwRegsEnabled))

def noteSpeedChange (wasFast : Bool) : CSuperCPURegisters :=
  if r.fastMode ≠ wasFast then
    { r with speedChanged := true, speedHook := r.speedHook.map fun calls => calls + 1 }
  else r

def consumeSpeedChanged : Bool × CSuperCPURegisters :=
  (r.speedChanged, { r with speedChanged := false })

def setSpeedSwitchAllowsTurbo (allow : Bool) : CSuperCPURegisters :=
  { r with switchSlow := !allow }.noteSpeedChange r.fastMode

/-! ### What other objects hold -/

def applyBootmap : CSuperCPURegisters :=
  { r with bootmapFlag := r.bootmapFlag.map fun _ => r.bootmap }

/-- The KERNAL window is KS while the registers are open, and KT while they are not. -/
def applyKernalShadow : CSuperCPURegisters :=
  { r with
    kernalShadowBase := r.kernalShadowBase.map fun _ => if r.hwRegsEnabled then 0x6000 else 0xE000 }

/-- Bits 7, 6, 2 and 0 of the optimisation register, as a number of four bits. -/
def mirrorSelector (optim : Byte) : ℕ :=
  (if optim &&& 0x01 ≠ 0 then 0x01 else 0) ||| (if optim &&& 0x04 ≠ 0 then 0x02 else 0) |||
    (if optim &&& 0x40 ≠ 0 then 0x04 else 0) ||| (if optim &&& 0x80 ≠ 0 then 0x08 else 0)

/-- The mode that a selector chooses, and whether zero page and stack are excluded. -/
def mirrorPolicy : ℕ → SCPUOptMode × Bool
  | 0 | 1 => (.vicBank2, false)
  | 2 => (.vicBank0, false)
  | 3 => (.vicBank0, true)
  | 4 | 5 => (.vicBank1, false)
  | 6 | 7 => (.vicBank3, false)
  | 8 | 9 => (.basic, false)
  | 10 | 11 => (.full, false)
  | 12 | 14 => (.none, false)
  | _ => (.default, true)

def applyOptimisation : CSuperCPURegisters :=
  let policy := mirrorPolicy (mirrorSelector r.optim)
  { r with
    writeBuffer := r.writeBuffer.map fun b =>
      (b.setExcludeZeroPageStack policy.2).setOptMode policy.1 }

def setConfig (v : Byte) : CSuperCPURegisters := { r with fastRAM := r.fastRAM.map fun _ => v }

/-! ### Reset -/

def reset : CSuperCPURegisters :=
  let r := { r with
    sys1MHz := false
    soft1MHz := false
    hwRegsEnabled := r.scpu128Mode
    bootmap := true
    dosExt := false
    ramLink := false
    videoRequestedHDMI := r.videoDefaultHDMI
    videoKnockArmed := false
    speedChanged := true
    regWrites := 0
    optim := if r.scpu128Mode then 0xC1 else 0xC7
    simmConfig := 4 }
  let r := { r.setConfig r.simmConfig with
    sysRAM := fun _ => 0
    userRAM := fun _ => 0
    colorRAM := fun _ => 0 }
  r.applyOptimisation.applyBootmap.applyKernalShadow

/-- The constructor. -/
def construct : CSuperCPURegisters :=
  CSuperCPURegisters.reset
    { regWrites := 0
      version := .v2
      scpu128Mode := false
      sys1MHz := false
      soft1MHz := false
      switchSlow := false
      switchJiffy := true
      bootAnimHack := false
      videoSwitchAvailable := false
      videoDefaultHDMI := false
      videoRequestedHDMI := false
      videoKnockArmed := false
      hwRegsEnabled := false
      bootmap := true
      dosExt := false
      ramLink := false
      emulationMode := true
      speedChanged := true
      optim := 0xC7
      simmConfig := 4
      sysRAM := fun _ => 0
      userRAM := fun _ => 0
      colorRAM := fun _ => 0
      videoHDMIActive := none
      emulationFlag := none
      writeBuffer := none
      bootmapFlag := none
      kernalShadowBase := none
      bank1 := none
      fastRAM := none
      speedHook := none }

/-! ### Attachments -/

def attach (buffer : Option WriteBuffer) : CSuperCPURegisters :=
  { r with writeBuffer := buffer }.applyOptimisation

def attachFastRAM (fastRAM : Option Byte) : CSuperCPURegisters :=
  { r with fastRAM := fastRAM }.setConfig r.simmConfig

def trackBootmap (flag : Option Bool) : CSuperCPURegisters :=
  { r with bootmapFlag := flag }.applyBootmap

def trackKernalShadow (base : Option Addr) : CSuperCPURegisters :=
  { r with kernalShadowBase := base }.applyKernalShadow

def configureVideoSwitch (available defaultHDMI : Bool) : CSuperCPURegisters :=
  { r with
    videoSwitchAvailable := available
    videoDefaultHDMI := available && defaultHDMI
    videoRequestedHDMI := available && defaultHDMI
    videoKnockArmed := false }

/-! ### Reads -/

/-- The flags of a register of the block at $D0B0. -/
def registerFlags (a : Addr) : Byte :=
  let flag (on : Bool) (bit : Byte) : Byte := if on then bit else 0
  if a = 0xD0B0 then if r.scpu128Mode then 0x00 else if r.version = .v2 then 0x40 else 0xC0
  else if a = 0xD0B2 then flag r.hwRegsEnabled 0x80 ||| flag r.sys1MHz 0x40
  else if a = 0xD0B3 then if r.version = .v2 then r.optim &&& 0xC0 else 0
  else if a = 0xD0B4 then r.optim &&& 0xC0
  else if a = 0xD0B5 then flag r.switchJiffy 0x80 ||| flag r.switchSlow 0x40
  else if a = 0xD0B6 then flag (r.emulationFlag.getD r.emulationMode) 0x80
  else if a = 0xD0B8 ∨ a = 0xD0B9 then
    flag r.soft1MHz 0x80 |||
      flag (r.soft1MHz || (r.switchSlow && !r.hwRegsEnabled) || r.sys1MHz) 0x40
  else if a = 0xD0BC ∨ a = 0xD0BD ∨ a = 0xD0BE ∨ a = 0xD0BF then
    flag r.dosExt 0x80 ||| flag r.ramLink 0x40
  else 0

def ioRead (a : Addr) : Option Byte × CSuperCPURegisters :=
  if r.version = .v2 ∧ inColorRAM a then (some (r.bank1Read a), r)
  else if inSysRAM a then
    if r.bootAnimHack ∧ a = 0xD20C ∧ r.hwRegsEnabled = false then (some 0, r)
    else (some (r.bank1Read a), r)
  else if inUserRAM a then (some (r.bank1Read a), r)
  else if ¬ inD0Bx a then (none, r)
  else if a = 0xD0BA ∧ r.videoKnockArmed = true then
    (some (if r.videoHDMIActive.getD r.videoRequestedHDMI then 1 else 0),
      { r with videoKnockArmed := false })
  else (some (r.registerFlags a ||| (r.optim &&& 0x07)), r)

/-! ### Writes -/

/-- A write of $D0BA. -/
def videoControl (v : Byte) : CSuperCPURegisters :=
  if r.videoKnockArmed then
    { r with
      videoKnockArmed := false
      videoRequestedHDMI :=
        if r.videoSwitchAvailable ∧ (v = 0 ∨ v = 1) then decide (v = 1) else r.videoRequestedHDMI }
  else { r with videoKnockArmed := decide (v = 0xA5) }

/-- The bank of registers closes. The KERNAL window moves with it. -/
def closeBank : CSuperCPURegisters := { r with hwRegsEnabled := false }.applyKernalShadow

/-- The switch over the registers, $D0BA apart. -/
def registerWrite (a : Addr) (v : Byte) : CSuperCPURegisters :=
  if a = 0xD072 then { r with sys1MHz := true }
  else if a = 0xD073 then { r with sys1MHz := false }
  else if a = 0xD07A then { r with soft1MHz := true }
  else if a = 0xD079 ∨ a = 0xD07B then { r with soft1MHz := false }
  else if a = 0xD07E then { r with hwRegsEnabled := true }.applyKernalShadow
  else if a = 0xD07D ∨ a = 0xD07F then r.closeBank
  else if a = 0xD074 ∨ a = 0xD075 ∨ a = 0xD076 ∨ a = 0xD077 then
    if r.hwRegsEnabled then { r with optim := (a &&& 3).setWidth 8 <<< 6 }.applyOptimisation else r
  else if a = 0xD078 then
    if r.hwRegsEnabled then { r with simmConfig := v }.setConfig v else r
  else if a = 0xD0B2 then
    if r.hwRegsEnabled then
      let r := { r with sys1MHz := decide (v &&& 0x40 ≠ 0) }
      if v &&& 0x80 = 0 then r.closeBank else r
    else r
  else if a = 0xD0B3 then
    if r.hwRegsEnabled ∧ r.version = .v2 then
      { r with optim := (r.optim &&& 0x38) ||| (v &&& 0xC7) }.applyOptimisation
    else r
  else if a = 0xD0B4 then
    if r.hwRegsEnabled then
      { r with optim := (r.optim &&& 0x3F) ||| (v &&& 0xC0) }.applyOptimisation
    else r
  else if a = 0xD0B5 then { r with switchJiffy := decide (v &&& 0x80 ≠ 0) }
  else if a = 0xD0B6 then
    if r.hwRegsEnabled then { r with bootmap := false }.applyBootmap else r
  else if a = 0xD0B7 then
    if r.hwRegsEnabled then { r with bootmap := true }.applyBootmap else r
  else if a = 0xD0B8 then
    if r.hwRegsEnabled then { r with soft1MHz := decide (v &&& 0x80 ≠ 0) } else r
  else if a = 0xD0BC then
    if r.hwRegsEnabled then { r with dosExt := decide (v &&& 0x80 ≠ 0) } else r
  else if a = 0xD0BE then if r.hwRegsEnabled then { r with dosExt := true } else r
  else if a = 0xD0BD ∨ a = 0xD0BF then { r with dosExt := false }
  else r

/-- The addresses whose writes are captured in bank 1, on a SuperCPU v2. -/
def captured (a : Addr) : Prop :=
  0xD000#16 ≤ a ∧ a ≤ 0xD1FF#16 ∨ 0xD400#16 ≤ a ∧ a ≤ 0xD5FF#16 ∨ 0xD800#16 ≤ a ∧ a ≤ 0xDDFF#16

instance (a : Addr) : Decidable (captured a) := inferInstanceAs (Decidable (_ ∨ _))

def ioWrite (a : Addr) (v : Byte) : Bool × CSuperCPURegisters :=
  if a = 0xDF7E then (false, { r with ramLink := true })
  else if a = 0xDF7F then (false, { r with ramLink := false })
  else
    let r := if r.version = .v2 ∧ captured a then r.bank1Write a v else r
    if inSysRAM a then
      (true, if r.hwRegsEnabled = true ∨ a = 0xD27E then r.bank1Write a v else r)
    else if inUserRAM a then (true, if r.hwRegsEnabled then r.bank1Write a v else r)
    else if ¬ inD07x a ∧ ¬ inD0Bx a then (false, r)
    else
      let wasFast := r.fastMode
      let r := { r with regWrites := r.regWrites + 1 }
      if a = 0xD0BA then (true, r.videoControl v)
      else (true, (r.registerWrite a v).noteSpeedChange wasFast)

/-! ### What an access costs -/

def ioAccessNeedsStretch (a : Addr) (write : Bool) : Bool :=
  decide (inD07x a) || write && decide (inD0Bx a)

def ioAccessUsesWriteBuffer (a : Addr) (write : Bool) : Bool :=
  write && (decide (r.version = .v2) && decide (inColorRAM a) ||
    r.hwRegsEnabled && decide (0xD200#16 ≤ a ∧ a ≤ 0xD3FF#16))

def dosExtensionEnabled : Bool := r.dosExt

def interruptRerouteRequested : Bool := r.hwRegsEnabled || r.sys1MHz || r.dosExt || r.ramLink

end CSuperCPURegisters

end ScpuEmu
