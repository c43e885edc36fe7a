import ScpuEmu.SuperCpu.Registers
import ScpuEmu.SuperCpu.WriteBuffer.Settings
import ScpuEmu.Library.TransitionSystem

/-!
# What the register file keeps in other objects

The KERNAL window, the boot map and the policy of the write buffer are held by the memory
map and the buffer, and each is a function of registers. `Derived` states these functions,
and every operation on the register file keeps it, the attachments included. A write that
changes the speed calls the hook once, and no other write calls it.
-/

namespace ScpuEmu

open Library

namespace CSuperCPURegisters

/-- What the optimisation register selects: bits 7 and 6 are the mode of the SuperCPU v1,
bit 2 is the flag B, which moves the region to the other bank of its pair or empties it, and
bit 0 is the flag Z, which leaves out zero page and stack where the region has them. -/
def documentedPolicy (optim : Byte) : SCPUOptMode × Bool :=
  let b := optim.getLsbD 2
  let z := optim.getLsbD 0
  match optim.getLsbD 7, optim.getLsbD 6 with
  | false, false => if b then (.vicBank0, z) else (.vicBank2, false)
  | false, true => (if b then .vicBank3 else .vicBank1, false)
  | true, false => (if b then .full else .basic, false)
  | true, true => if z then (.default, true) else (.none, false)

theorem mirrorPolicy_mirrorSelector :
    ∀ optim : Byte, mirrorPolicy (mirrorSelector optim) = documentedPolicy optim := by
  decide +kernel

/-- The base of the KERNAL window. -/
def kernalWindow (r : CSuperCPURegisters) : Addr := if r.hwRegsEnabled then 0x6000 else 0xE000

/-- The policy of a buffer, with the range that belongs to its mode. -/
def selectedPolicy (optim : Byte) : SCPUOptMode × Bool × Addr × Addr :=
  ((documentedPolicy optim).1, (documentedPolicy optim).2,
    WriteBuffer.modeRange (documentedPolicy optim).1)

/-- What other objects hold is what the registers say. -/
structure Derived (r : CSuperCPURegisters) : Prop where
  window : ∀ base ∈ r.kernalShadowBase, base = r.kernalWindow
  boot : ∀ flag ∈ r.bootmapFlag, flag = r.bootmap
  mirrored : ∀ b ∈ r.writeBuffer, b.policy = selectedPolicy r.optim

variable {r r' : CSuperCPURegisters}

/-! ### The three values -/

theorem window_applyKernalShadow (r : CSuperCPURegisters) :
    ∀ base ∈ r.applyKernalShadow.kernalShadowBase, base = r.applyKernalShadow.kernalWindow := by
  intro base hbase
  obtain ⟨_, _, rfl⟩ := Option.map_eq_some_iff.mp hbase
  rfl

theorem boot_applyBootmap (r : CSuperCPURegisters) :
    ∀ flag ∈ r.applyBootmap.bootmapFlag, flag = r.applyBootmap.bootmap := by
  intro flag hflag
  obtain ⟨_, _, rfl⟩ := Option.map_eq_some_iff.mp hflag
  rfl

theorem mirrored_applyOptimisation (r : CSuperCPURegisters) :
    ∀ b ∈ r.applyOptimisation.writeBuffer, b.policy = selectedPolicy r.applyOptimisation.optim := by
  intro b hb
  obtain ⟨b, _, rfl⟩ := Option.map_eq_some_iff.mp hb
  show _ = selectedPolicy r.optim
  rw [selectedPolicy, ← mirrorPolicy_mirrorSelector]
  rfl

/-- What the objects hold and the registers say. -/
def heldAndSaid (r : CSuperCPURegisters) :=
  (r.kernalShadowBase, r.bootmapFlag, r.writeBuffer, r.hwRegsEnabled, r.bootmap, r.optim)

theorem Derived.congr (h : Derived r) (hr : r'.heldAndSaid = r.heldAndSaid) : Derived r' := by
  simp only [heldAndSaid, Prod.mk.injEq] at hr
  obtain ⟨hbase, hflag, hbuffer, hregs, hbootmap, hoptim⟩ := hr
  refine ⟨?_, ?_, ?_⟩
  · simpa only [hbase, kernalWindow, hregs] using h.window
  · simpa only [hflag, hbootmap] using h.boot
  · simpa only [hbuffer, hoptim] using h.mirrored

/-- Moving the KERNAL window makes up for a change of the bank. -/
theorem Derived.applyKernalShadow (h : Derived r) (enabled : Bool) :
    Derived { r with hwRegsEnabled := enabled }.applyKernalShadow :=
  ⟨window_applyKernalShadow _, h.boot, h.mirrored⟩

theorem Derived.applyBootmap (h : Derived r) (bootmap : Bool) :
    Derived { r with bootmap := bootmap }.applyBootmap :=
  ⟨h.window, boot_applyBootmap _, h.mirrored⟩

theorem Derived.applyOptimisation (h : Derived r) (optim : Byte) :
    Derived { r with optim := optim }.applyOptimisation :=
  ⟨h.window, h.boot, mirrored_applyOptimisation _⟩

theorem Derived.closeBank (h : Derived r) : Derived r.closeBank := h.applyKernalShadow false

theorem derived_reset (r : CSuperCPURegisters) : Derived r.reset :=
  ⟨window_applyKernalShadow _, boot_applyBootmap _, mirrored_applyOptimisation _⟩

/-! ### Writes of registers -/

/-- What a write of a register can do. -/
inductive Effect (r : CSuperCPURegisters) : CSuperCPURegisters → Prop
  | speeds (sys soft : Bool) : Effect r { r with sys1MHz := sys, soft1MHz := soft }
  | bank (sys enabled : Bool) :
      Effect r { r with sys1MHz := sys, hwRegsEnabled := enabled }.applyKernalShadow
  | optimisation (optim : Byte) : Effect r { r with optim := optim }.applyOptimisation
  | bootmap (bootmap : Bool) : Effect r { r with bootmap := bootmap }.applyBootmap
  | simm (v : Byte) : Effect r ({ r with simmConfig := v }.setConfig v)
  | switches (jiffy dosExt : Bool) : Effect r { r with switchJiffy := jiffy, dosExt := dosExt }

theorem Effect.none (r : CSuperCPURegisters) : Effect r r := .speeds r.sys1MHz r.soft1MHz

theorem effect_whileOpen {c : Prop} [Decidable c] (h : Effect r r') :
    Effect r (if c then r' else r) :=
  iteInduction (fun _ => h) fun _ => .none r

theorem effect_status (r : CSuperCPURegisters) (sys : Bool) {c : Prop} [Decidable c] :
    Effect r (if c then { r with sys1MHz := sys }.closeBank else { r with sys1MHz := sys }) :=
  iteInduction (fun _ => .bank sys false) fun _ => .speeds sys r.soft1MHz

/-- The cases of the switch, in its order. -/
theorem effect_registerWrite (r : CSuperCPURegisters) (a : Addr) (v : Byte) :
    Effect r (r.registerWrite a v) := by
  unfold registerWrite
  refine iteInduction (fun _ => .speeds true r.soft1MHz) fun _ => ?_
  refine iteInduction (fun _ => .speeds false r.soft1MHz) fun _ => ?_
  refine iteInduction (fun _ => .speeds r.sys1MHz true) fun _ => ?_
  refine iteInduction (fun _ => .speeds r.sys1MHz false) fun _ => ?_
  refine iteInduction (fun _ => .bank r.sys1MHz true) fun _ => ?_
  refine iteInduction (fun _ => .bank r.sys1MHz false) fun _ => ?_
  refine iteInduction (fun _ => effect_whileOpen (.optimisation _)) fun _ => ?_
  refine iteInduction (fun _ => effect_whileOpen (.simm v)) fun _ => ?_
  refine iteInduction (fun _ => effect_whileOpen (effect_status r _)) fun _ => ?_
  refine iteInduction (fun _ => effect_whileOpen (.optimisation _)) fun _ => ?_
  refine iteInduction (fun _ => effect_whileOpen (.optimisation _)) fun _ => ?_
  refine iteInduction (fun _ => .switches _ r.dosExt) fun _ => ?_
  refine iteInduction (fun _ => effect_whileOpen (.bootmap false)) fun _ => ?_
  refine iteInduction (fun _ => effect_whileOpen (.bootmap true)) fun _ => ?_
  refine iteInduction (fun _ => effect_whileOpen (.speeds r.sys1MHz _)) fun _ => ?_
  refine iteInduction (fun _ => effect_whileOpen (.switches r.switchJiffy _)) fun _ => ?_
  refine iteInduction (fun _ => effect_whileOpen (.switches r.switchJiffy true)) fun _ => ?_
  exact iteInduction (fun _ => .switches r.switchJiffy false) fun _ => .none r

theorem Derived.effect (h : Derived r) (he : Effect r r') : Derived r' := by
  cases he with
  | speeds | simm | switches => exact h.congr rfl
  | bank sys enabled =>
      have hslow : Derived { r with sys1MHz := sys } := h.congr rfl
      exact hslow.applyKernalShadow enabled
  | optimisation optim => exact h.applyOptimisation optim
  | bootmap bootmap => exact h.applyBootmap bootmap

theorem Effect.speedHook (he : Effect r r') : r'.speedHook = r.speedHook := by
  cases he <;> rfl

/-! ### Accesses -/

/-- The hook is called exactly if the speed changes, and then once. -/
def CallsHook (r r' : CSuperCPURegisters) : Prop :=
  r'.speedHook =
    if r'.fastMode = r.fastMode then r.speedHook else r.speedHook.map fun calls => calls + 1

/-- Neither the speed nor anything that other objects hold is concerned. -/
def Quiet (r r' : CSuperCPURegisters) : Prop :=
  r'.heldAndSaid = r.heldAndSaid ∧ r'.speedHook = r.speedHook ∧ r'.fastMode = r.fastMode

theorem Quiet.refl (r : CSuperCPURegisters) : Quiet r r := ⟨rfl, rfl, rfl⟩

theorem Quiet.ite {c : Prop} [Decidable c] {r₁ r₂ : CSuperCPURegisters} (h₁ : Quiet r r₁)
    (h₂ : Quiet r r₂) : Quiet r (if c then r₁ else r₂) :=
  iteInduction (fun _ => h₁) fun _ => h₂

theorem Quiet.trans {r'' : CSuperCPURegisters} (h : Quiet r r') (h' : Quiet r' r'') : Quiet r r'' :=
  ⟨h'.1.trans h.1, h'.2.1.trans h.2.1, h'.2.2.trans h.2.2⟩

theorem Quiet.callsHook (h : Quiet r r') : CallsHook r r' := h.2.1.trans (if_pos h.2.2).symm

theorem quiet_bank1Write (r : CSuperCPURegisters) (a : Addr) (v : Byte) :
    Quiet r (r.bank1Write a v) := by
  unfold bank1Write
  split
  · exact ⟨rfl, rfl, rfl⟩
  · refine Quiet.ite ⟨rfl, rfl, rfl⟩ (Quiet.ite ⟨rfl, rfl, rfl⟩ (Quiet.ite ⟨rfl, rfl, rfl⟩ ?_))
    exact .refl r

theorem quiet_videoControl (r : CSuperCPURegisters) (v : Byte) : Quiet r (r.videoControl v) :=
  Quiet.ite ⟨rfl, rfl, rfl⟩ ⟨rfl, rfl, rfl⟩

theorem quiet_ioRead (r : CSuperCPURegisters) (a : Addr) : Quiet r (r.ioRead a).2 := by
  unfold ioRead
  split_ifs <;> exact ⟨rfl, rfl, rfl⟩

theorem heldAndSaid_noteSpeedChange (r : CSuperCPURegisters) (wasFast : Bool) :
    (r.noteSpeedChange wasFast).heldAndSaid = r.heldAndSaid := by
  unfold noteSpeedChange
  split <;> rfl

theorem fastMode_noteSpeedChange (r : CSuperCPURegisters) (wasFast : Bool) :
    (r.noteSpeedChange wasFast).fastMode = r.fastMode := by
  unfold noteSpeedChange
  split <;> rfl

theorem callsHook_noteSpeedChange {s : CSuperCPURegisters} (hs : Quiet r s) (he : Effect s r') :
    CallsHook r (r'.noteSpeedChange s.fastMode) := by
  rw [CallsHook, fastMode_noteSpeedChange, noteSpeedChange, hs.2.2, ← hs.2.1, ← he.speedHook]
  by_cases hfast : r'.fastMode = r.fastMode
  · rw [if_neg (not_not.mpr hfast), if_pos hfast]
  · rw [if_pos hfast, if_neg hfast]

theorem Derived.noteSpeedChange (h : Derived r) (wasFast : Bool) :
    Derived (r.noteSpeedChange wasFast) :=
  h.congr (heldAndSaid_noteSpeedChange r wasFast)

/-- A write of the register file. -/
theorem ioWrite_effects (h : Derived r) (a : Addr) (v : Byte) :
    Derived (r.ioWrite a v).2 ∧ CallsHook r (r.ioWrite a v).2 := by
  have hquiet {r' : CSuperCPURegisters} (hr : Quiet r r') : Derived r' ∧ CallsHook r r' :=
    ⟨h.congr hr.1, hr.callsHook⟩
  have hcaptured : Quiet r (if r.version = .v2 ∧ captured a then r.bank1Write a v else r) :=
    .ite (quiet_bank1Write r a v) (.refl r)
  unfold CSuperCPURegisters.ioWrite
  generalize (if r.version = .v2 ∧ captured a then r.bank1Write a v else r) = s at hcaptured
  have hstored : Quiet r (s.bank1Write a v) := hcaptured.trans (quiet_bank1Write s a v)
  dsimp only
  split_ifs
  · exact hquiet ⟨rfl, rfl, rfl⟩
  · exact hquiet ⟨rfl, rfl, rfl⟩
  · exact hquiet hstored
  · exact hquiet hcaptured
  · exact hquiet hstored
  · exact hquiet hcaptured
  · exact hquiet hcaptured
  · exact hquiet ((hcaptured.trans ⟨rfl, rfl, rfl⟩).trans (quiet_videoControl _ v))
  · have heffect := effect_registerWrite { s with regWrites := s.regWrites + 1 } a v
    have hcounted : Quiet r { s with regWrites := s.regWrites + 1 } :=
      hcaptured.trans ⟨rfl, rfl, rfl⟩
    have hderived := (h.congr hcounted.1).effect heffect
    refine ⟨hderived.noteSpeedChange _, ?_⟩
    exact callsHook_noteSpeedChange (s := { s with regWrites := s.regWrites + 1 }) hcounted heffect

end CSuperCPURegisters

/-! ### Runs -/

/-- A call of the register file, or of the buffer it is attached to. -/
inductive RegisterOp
  | ioRead (a : Addr)
  | ioWrite (a : Addr) (v : Byte)
  | reset
  | attach (buffer : Option WriteBuffer)
  | attachBank1 (bank1 : Option (Addr → Byte))
  | attachFastRAM (fastRAM : Option Byte)
  | setHardwareVersion (v : SCPUHardwareVersion)
  | setSCPU128Mode (on : Bool)
  | setSpeedSwitchAllowsTurbo (allow : Bool)
  | setJiffyDOSSwitch (on : Bool)
  | configureVideoSwitch (available defaultHDMI : Bool)
  | trackVideoHDMIActive (active : Option Bool)
  | setBootAnimationHack (on : Bool)
  | setEmulationMode (emulation : Bool)
  | trackEmulationMode (flag : Option Bool)
  | trackBootmap (flag : Option Bool)
  | trackKernalShadow (base : Option Addr)
  | consumeSpeedChanged
  | setSpeedHook (hook : Option ℕ)
  | useBuffer (op : {op : WriteBuffer.Op // op.LeavesPolicy})

namespace CSuperCPURegisters

def step (r : CSuperCPURegisters) : RegisterOp → CSuperCPURegisters
  | .ioRead a => (r.ioRead a).2
  | .ioWrite a v => (r.ioWrite a v).2
  | .reset => r.reset
  | .attach buffer => r.attach buffer
  | .attachBank1 bank1 => { r with bank1 := bank1 }
  | .attachFastRAM fastRAM => r.attachFastRAM fastRAM
  | .setHardwareVersion v => { r with version := v }
  | .setSCPU128Mode on => { r with scpu128Mode := on }
  | .setSpeedSwitchAllowsTurbo allow => r.setSpeedSwitchAllowsTurbo allow
  | .setJiffyDOSSwitch on => { r with switchJiffy := on }
  | .configureVideoSwitch available defaultHDMI => r.configureVideoSwitch available defaultHDMI
  | .trackVideoHDMIActive active => { r with videoHDMIActive := active }
  | .setBootAnimationHack on => { r with bootAnimHack := on }
  | .setEmulationMode emulation => { r with emulationMode := emulation }
  | .trackEmulationMode flag => { r with emulationFlag := flag }
  | .trackBootmap flag => r.trackBootmap flag
  | .trackKernalShadow base => r.trackKernalShadow base
  | .consumeSpeedChanged => r.consumeSpeedChanged.2
  | .setSpeedHook hook => { r with speedHook := hook }
  | .useBuffer op => { r with writeBuffer := r.writeBuffer.map fun b => b.step op }

variable {r : CSuperCPURegisters}

theorem Derived.useBuffer (h : Derived r) {op : WriteBuffer.Op} (hop : op.LeavesPolicy) :
    Derived { r with writeBuffer := r.writeBuffer.map fun b => b.step op } := by
  refine ⟨h.window, h.boot, fun b hb => ?_⟩
  obtain ⟨b₀, hb₀, rfl⟩ := Option.map_eq_some_iff.mp hb
  exact (WriteBuffer.policy_step b₀ hop).trans (h.mirrored b₀ hb₀)

/-- One call keeps the values that others hold. -/
theorem derived_step (r : CSuperCPURegisters) (op : RegisterOp) (h : Derived r) :
    Derived (r.step op) := by
  cases op with
  | ioRead a => exact h.congr (quiet_ioRead r a).1
  | ioWrite a v => exact (ioWrite_effects h a v).1
  | reset => exact derived_reset r
  | attach buffer => exact ⟨h.window, h.boot, mirrored_applyOptimisation _⟩
  | setSpeedSwitchAllowsTurbo allow =>
      have hswitched : Derived { r with switchSlow := !allow } := h.congr rfl
      exact hswitched.noteSpeedChange r.fastMode
  | trackBootmap flag => exact ⟨h.window, boot_applyBootmap _, h.mirrored⟩
  | trackKernalShadow base => exact ⟨window_applyKernalShadow _, h.boot, h.mirrored⟩
  | useBuffer op => exact h.useBuffer op.property
  | _ => exact h.congr rfl

/-- After every run of calls, and through every further write. -/
theorem registers_derive_what_others_hold (ops : List RegisterOp) :
    Derived (run step construct ops) ∧
      ∀ a v, CallsHook (run step construct ops) ((run step construct ops).ioWrite a v).2 := by
  have hrun : Derived (run step construct ops) :=
    run_invariant step derived_step construct ops (derived_reset _)
  exact ⟨hrun, fun a v => (ioWrite_effects hrun a v).2⟩

end CSuperCPURegisters

end ScpuEmu
