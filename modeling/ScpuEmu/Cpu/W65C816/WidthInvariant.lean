import ScpuEmu.Cpu.W65C816.Step
import Mathlib.Data.Nat.Bitwise

/-!
# The register-width invariant

Between instructions emulation mode holds the stack in page 1 and all registers
narrow, a set X bit holds the index registers narrow, and the cached widths are
those of E, P and D. Each case of the generic switch keeps the invariant; those
that end in `applyE` bring it about from any state.
-/

namespace ScpuEmu

namespace W65C816

open Library

structure WidthInv (r : Regs) : Prop where
  stack : r.e = true → 0x0100 ≤ r.s ∧ r.s ≤ 0x01FF
  wide : r.e = true → r.flag flagM = true ∧ r.flag flagX = true
  index : r.e = true ∨ r.flag flagX = true → r.x ≤ 0xFF ∧ r.y ≤ 0xFF
  m8 : r.m8 = r.computeM8
  x8 : r.x8 = r.computeX8
  cycKey : r.cycKey = r.computeCycKey r.computeM8 r.computeX8

/-! ### Low bytes -/

theorem toNat_and_low (v : BitVec 16) : (v &&& 0xFF).toNat = v.toNat % 2 ^ 8 := by
  rw [BitVec.toNat_and]
  exact Nat.and_two_pow_sub_one_eq_mod v.toNat 8

theorem and_low_le (v : BitVec 16) : v &&& 0xFF ≤ 0xFF := by
  rw [BitVec.le_def, BitVec.toNat_and]
  exact Nat.and_le_right

theorem setWidth_low_le (v : Byte) : v.setWidth 16 ≤ (0xFF : BitVec 16) := by
  have := v.isLt
  bv_omega

theorem toNat_page1 (s : BitVec 16) :
    (0x0100 ||| (s &&& 0xFF) : BitVec 16).toNat = 2 ^ 8 + s.toNat % 2 ^ 8 := by
  have hlt : s.toNat % 2 ^ 8 < 2 ^ 8 := Nat.mod_lt _ (Nat.two_pow_pos 8)
  rw [BitVec.toNat_or, toNat_and_low]
  exact (Nat.two_pow_add_eq_or_of_lt hlt 1).symm

theorem page1_bounds (s : BitVec 16) :
    0x0100 ≤ 0x0100 ||| (s &&& 0xFF) ∧ 0x0100 ||| (s &&& 0xFF) ≤ 0x01FF := by
  have hlt : s.toNat % 2 ^ 8 < 2 ^ 8 := Nat.mod_lt _ (Nat.two_pow_pos 8)
  constructor
  · rw [BitVec.le_def, toNat_page1]
    exact Nat.le_add_right _ _
  · rw [BitVec.le_def, toNat_page1]
    exact Nat.add_le_add_left (Nat.le_of_lt_succ hlt) _

/-! ### What the invariant is about -/

namespace Regs

variable (r : Regs)

/-- The registers, cut down to what the invariant speaks of. -/
def widthView : Regs := { r with c := 0, pc := 0, pbr := 0, dbr := 0, p := r.p &&& 0x30 }

theorem flag_widthView {mask : Byte} (h : 0x30 &&& mask = mask) :
    r.widthView.flag mask = r.flag mask := by
  simp only [flag, widthView, BitVec.and_assoc, h]

end Regs

theorem widthInv_widthView (r : Regs) : WidthInv r.widthView ↔ WidthInv r := by
  have hM : r.widthView.flag flagM = r.flag flagM := r.flag_widthView rfl
  have hX : r.widthView.flag flagX = r.flag flagX := r.flag_widthView rfl
  have hm : r.widthView.computeM8 = r.computeM8 := by simp only [Regs.computeM8, hM]; rfl
  have hx : r.widthView.computeX8 = r.computeX8 := by simp only [Regs.computeX8, hX]; rfl
  constructor
  · rintro ⟨hs, hw, hi, h8, hx8, hk⟩
    exact ⟨hs, hM ▸ hX ▸ hw, hX ▸ hi, hm ▸ h8, hx ▸ hx8, hm ▸ hx ▸ hk⟩
  · rintro ⟨hs, hw, hi, h8, hx8, hk⟩
    exact ⟨hs, hM ▸ hX ▸ hw, hX ▸ hi, hm ▸ h8, hx ▸ hx8, hm ▸ hx ▸ hk⟩

theorem WidthInv.of_view {r r' : Regs} (hr : WidthInv r) (h : r'.widthView = r.widthView) :
    WidthInv r' := by
  rw [← widthInv_widthView, h, widthInv_widthView]
  exact hr

namespace Regs

variable (r : Regs)

/-- A flag keeps to its own bit. -/
theorem p_setFlag_and {mask other : Byte} (h : mask &&& other = 0) (on : Bool) :
    (r.setFlag mask on).p &&& other = r.p &&& other := by
  apply BitVec.eq_of_getLsbD_eq
  intro i hi
  have hbit : (mask &&& other).getLsbD i = false := by
    rw [h]
    exact BitVec.getLsbD_zero
  rw [BitVec.getLsbD_and] at hbit
  unfold setFlag
  cases on <;> cases hm : mask.getLsbD i <;> simp_all

theorem widthView_setFlag {mask : Byte} (h : mask &&& 0x30 = 0) (on : Bool) :
    (r.setFlag mask on).widthView = r.widthView := by
  rw [widthView, p_setFlag_and r h]
  rfl

@[simp] theorem widthView_setFlagN (on : Bool) : (r.setFlag flagN on).widthView = r.widthView :=
  r.widthView_setFlag rfl on

@[simp] theorem widthView_setFlagZ (on : Bool) : (r.setFlag flagZ on).widthView = r.widthView :=
  r.widthView_setFlag rfl on

@[simp] theorem widthView_setFlagC (on : Bool) : (r.setFlag flagC on).widthView = r.widthView :=
  r.widthView_setFlag rfl on

@[simp] theorem widthView_setFlagV (on : Bool) : (r.setFlag flagV on).widthView = r.widthView :=
  r.widthView_setFlag rfl on

@[simp] theorem widthView_setAcc (v : BitVec 16) : (r.setAcc v).widthView = r.widthView := rfl

@[simp] theorem widthView_setZN8 (v : Byte) : (r.setZN8 v).widthView = r.widthView := by
  rw [setZN8, widthView_setFlagN, widthView_setFlagZ]

@[simp] theorem widthView_setZN16 (v : BitVec 16) : (r.setZN16 v).widthView = r.widthView := by
  rw [setZN16, widthView_setFlagN, widthView_setFlagZ]

@[simp] theorem widthView_setZNM (v : BitVec 16) : (r.setZNM v).widthView = r.widthView := by
  unfold setZNM
  split
  · exact r.widthView_setZN8 _
  · exact r.widthView_setZN16 _

@[simp] theorem widthView_setZNX (v : BitVec 16) : (r.setZNX v).widthView = r.widthView := by
  unfold setZNX
  split
  · exact r.widthView_setZN8 _
  · exact r.widthView_setZN16 _

@[simp] theorem widthView_setResult (m8 : Bool) (result : BitVec 32) :
    (r.setResult m8 result).widthView = r.widthView := by
  unfold setResult
  split
  · rw [widthView_setZN8, widthView_setAcc]
  · rw [widthView_setZN16, widthView_setAcc]

@[simp] theorem widthView_opADC (v : BitVec 16) : (r.opADC v).widthView = r.widthView := by
  unfold opADC
  split
  · rw [widthView_setResult, widthView_setFlagV, widthView_setFlagC]
  · rw [widthView_setResult, widthView_setFlagC, widthView_setFlagV]

@[simp] theorem widthView_opSBC (v : BitVec 16) : (r.opSBC v).widthView = r.widthView := by
  unfold opSBC
  split
  · rw [widthView_setResult, widthView_setFlagV, widthView_setFlagC]
  · rw [widthView_setResult, widthView_setFlagV, widthView_setFlagC]

@[simp] theorem widthView_opCMP (reg v : BitVec 16) (eightBit : Bool) :
    (r.opCMP reg v eightBit).widthView = r.widthView := by
  unfold opCMP
  split
  · rw [widthView_setZN8, widthView_setFlagC]
  · rw [widthView_setZN16, widthView_setFlagC]

@[simp] theorem widthView_opBIT (v : BitVec 16) (immediate : Bool) :
    (r.opBIT v immediate).widthView = r.widthView := by
  unfold opBIT
  split
  · rw [widthView_setFlagZ]
  · rw [widthView_setFlagV, widthView_setFlagN, widthView_setFlagZ]

end Regs

@[simp] theorem widthView_applyAcc (op : AccOp) (immediate m8Entry : Bool) (v : BitVec 16)
    (r : Regs) : (op.apply immediate m8Entry v r).widthView = r.widthView := by
  cases op <;> simp [AccOp.apply]

@[simp] theorem widthView_applyRmw (op : RmwOp) (r : Regs) (t : BitVec 16) :
    (op.apply r t).1.widthView = r.widthView := by
  cases op <;> simp [RmwOp.apply]

@[simp] theorem widthView_finishRmw (op : RmwOp) (t : BitVec 16) (r : Regs) :
    (op.finish t r).widthView = r.widthView := by
  cases op <;> simp [RmwOp.finish]

/-! ### Writes of single registers -/

/-- The X bit and emulation mode both force narrow index registers. -/
theorem WidthInv.x8_eq {r : Regs} (h : WidthInv r) :
    r.x8 = true ↔ r.e = true ∨ r.flag flagX = true := by
  rw [h.x8, Regs.computeX8, Bool.or_eq_true]

theorem WidthInv.setX {r : Regs} {v : BitVec 16} (h : WidthInv r) (hv : r.x8 = true → v ≤ 0xFF) :
    WidthInv { r with x := v } :=
  { h with index := fun hx => ⟨hv (h.x8_eq.mpr hx), (h.index hx).2⟩ }

theorem WidthInv.setY {r : Regs} {v : BitVec 16} (h : WidthInv r) (hv : r.x8 = true → v ≤ 0xFF) :
    WidthInv { r with y := v } :=
  { h with index := fun hx => ⟨(h.index hx).1, hv (h.x8_eq.mpr hx)⟩ }

theorem WidthInv.setS {r : Regs} {v : BitVec 16} (h : WidthInv r)
    (hv : r.e = true → 0x0100 ≤ v ∧ v ≤ 0x01FF) : WidthInv { r with s := v } :=
  { h with stack := hv }

theorem narrow_le {r : Regs} (hx : r.x8 = true) (v : BitVec 16) : r.narrow v ≤ 0xFF := by
  rw [Regs.narrow, if_pos hx]
  exact and_low_le v

theorem WidthInv.moveStack {r : Regs} (h : WidthInv r) (s : BitVec 16) :
    WidthInv (moveStack r s) := by
  apply h.setS
  intro he
  rw [if_pos he]
  exact page1_bounds s

theorem flag_or {p mask : Byte} {r : Regs} (h : r.p = p ||| mask) {f : Byte} (hf : mask &&& f = f)
    (hne : f ≠ 0) : r.flag f = true := by
  rw [Regs.flag, h, bne_iff_ne]
  intro hzero
  apply hne
  rw [BitVec.eq_of_getLsbD_eq_iff] at hzero hf ⊢
  intro i hi
  have hz := hzero i hi
  have hb := hf i hi
  rw [BitVec.getLsbD_and, BitVec.getLsbD_or] at hz
  rw [BitVec.getLsbD_and] at hb
  revert hz hb
  cases p.getLsbD i <;> cases mask.getLsbD i <;> cases f.getLsbD i <;> simp

theorem Regs.clip_e (r : Regs) : r.clip.e = r.e := by
  unfold Regs.clip
  split
  · rfl
  · split <;> rfl

/-- `applyE` brings the invariant about. -/
theorem widthInv_applyE (r : Regs) : WidthInv r.applyE where
  stack h := by
    have he : r.e = true := r.clip_e ▸ h
    show _ ≤ r.clip.s ∧ r.clip.s ≤ _
    rw [Regs.clip, if_pos he]
    exact page1_bounds r.s
  wide h := by
    have he : r.e = true := r.clip_e ▸ h
    have hp : r.clip.p = r.p ||| (flagM ||| flagX) := by rw [Regs.clip, if_pos he]
    exact ⟨flag_or hp rfl (by decide), flag_or hp rfl (by decide)⟩
  index h := by
    replace h : r.clip.e = true ∨ r.clip.flag flagX = true := h
    show r.clip.x ≤ _ ∧ r.clip.y ≤ _
    by_cases he : r.e = true
    · rw [Regs.clip, if_pos he]
      exact ⟨and_low_le r.x, and_low_le r.y⟩
    · by_cases hX : r.flag flagX = true
      · rw [Regs.clip, if_neg he, if_pos hX]
        exact ⟨and_low_le r.x, and_low_le r.y⟩
      · rw [Regs.clip, if_neg he, if_neg hX] at h
        exact absurd h (not_or_intro he hX)
  m8 := rfl
  x8 := rfl
  cycKey := rfl

/-! ### Operations on the registers -/

theorem widthInv_applyIndex (op : IndexOp) (x8Entry : Bool) {v : BitVec 16} {r : Regs}
    (h : WidthInv r) (hv : r.x8 = true → v ≤ 0xFF) : WidthInv (op.apply x8Entry v r) := by
  cases op with
  | ldx => exact (h.setX hv).of_view (Regs.widthView_setZNX _ v)
  | ldy => exact (h.setY hv).of_view (Regs.widthView_setZNX _ v)
  | cpx => exact h.of_view (Regs.widthView_opCMP _ _ _ _)
  | cpy => exact h.of_view (Regs.widthView_opCMP _ _ _ _)

theorem Regs.computeCycKey_setD (r : Regs) (m8 x8 : Bool) (v : BitVec 16) :
    (r.computeCycKey m8 x8 &&& ~~~8) ||| (if { r with d := v }.dpUnaligned then 8 else 0) =
      { r with d := v }.computeCycKey m8 x8 := by
  simp only [computeCycKey]
  cases m8 <;> cases x8 <;> cases r.e <;> cases r.dpUnaligned <;>
    cases { r with d := v }.dpUnaligned <;> rfl

/-- The bit of the key that TCD writes is the only one that depends on D. -/
theorem widthInv_tcd {r : Regs} (h : WidthInv r) : WidthInv (RegOp.tcd.apply r) := by
  have hkey := r.computeCycKey_setD r.computeM8 r.computeX8 r.c
  rw [← h.cycKey] at hkey
  let key := (r.cycKey &&& ~~~8) ||| (if { r with d := r.c }.dpUnaligned then 8 else 0)
  have hd : WidthInv { r with d := r.c, cycKey := key } := { h with cycKey := hkey }
  have hview := { r with d := r.c }.widthView_setZN16 r.c
  exact hd.of_view (congrArg (fun v : Regs => { v with cycKey := key }) hview)

theorem widthInv_applyReg (op : RegOp) {r : Regs} (h : WidthInv r) : WidthInv (op.apply r) := by
  have hx (v) : WidthInv ({ r with x := r.narrow v }.setZNX (r.narrow v)) :=
    (h.setX fun hx => narrow_le hx v).of_view (Regs.widthView_setZNX _ _)
  have hy (v) : WidthInv ({ r with y := r.narrow v }.setZNX (r.narrow v)) :=
    (h.setY fun hx => narrow_le hx v).of_view (Regs.widthView_setZNX _ _)
  cases op with
  | tax | tsx | tyx | inx | dex => exact hx _
  | tay | txy | iny | dey => exact hy _
  | txa | tya => exact h.of_view ((Regs.widthView_setZNM _ _).trans rfl)
  | txs | tcs =>
    apply h.setS
    intro he
    rw [if_pos he]
    exact page1_bounds _
  | tcd => exact widthInv_tcd h
  | tdc | tsc => exact h.of_view ((Regs.widthView_setZN16 _ _).trans rfl)
  | xba => exact h.of_view ((Regs.widthView_setZN8 _ _).trans rfl)
  | clc | sec => exact h.of_view (Regs.widthView_setFlagC _ _)
  | cli | sei => exact h.of_view (Regs.widthView_setFlag _ rfl _)
  | clv => exact h.of_view (Regs.widthView_setFlagV _ _)
  | cld | sed => exact h.of_view (Regs.widthView_setFlag _ rfl _)
  | xce => exact widthInv_applyE _
  | nop => exact h

/-! ### Access to the bus -/

section Access

variable {σ α : Type} (bus : CpuBus σ)

theorem keeps_modify_view {f : Regs → Regs} (hf : ∀ r, (f r).widthView = r.widthView) :
    Keeps (OnRegs WidthInv) (modifyRegs f : CoreM Regs σ PUnit) :=
  keeps_modifyRegs fun r h => h.of_view (hf r)

@[simp] theorem establishes_applyE :
    Establishes (OnRegs WidthInv) (modifyRegs Regs.applyE : CoreM Regs σ PUnit) :=
  fun _ => widthInv_applyE _

theorem keeps_getRegs_bind {f : Regs → CoreM Regs σ α}
    (hf : ∀ r, Keeps (OnRegs WidthInv) (f r)) : Keeps (OnRegs WidthInv) (getRegs >>= f) :=
  keeps_bind keeps_getRegs hf

theorem keeps_fetch8 : Keeps (OnRegs WidthInv) (fetch8 bus) := by
  apply keeps_getRegs_bind
  intro r
  apply keeps_bind (keeps_busRead8 bus _)
  intro v
  exact keeps_bind (keeps_modify_view fun _ => rfl) fun _ => keeps_pure v

theorem keeps_fetch16 : Keeps (OnRegs WidthInv) (fetch16 bus) :=
  keeps_bind (keeps_fetch8 bus) fun _ => keeps_bind (keeps_fetch8 bus) fun _ => keeps_pure _

theorem keeps_fetch24 : Keeps (OnRegs WidthInv) (fetch24 bus) :=
  keeps_bind (keeps_fetch16 bus) fun _ => keeps_bind (keeps_fetch8 bus) fun _ => keeps_pure _

theorem keeps_read16Bank0 (addr : BitVec 16) :
    Keeps (OnRegs WidthInv) (read16Bank0 bus addr) :=
  keeps_bind (keeps_busRead8 bus _) fun _ => keeps_bind (keeps_busRead8 bus _) fun _ =>
    keeps_pure _

theorem keeps_readDPPointer (ptr : BitVec 24) :
    Keeps (OnRegs WidthInv) (readDPPointer bus ptr) :=
  keeps_bind (keeps_busRead8 bus _) fun _ => keeps_getRegs_bind fun _ =>
    keeps_bind (keeps_busRead8 bus _) fun _ => keeps_pure _

theorem keeps_eaDirect : Keeps (OnRegs WidthInv) (eaDirect bus) :=
  keeps_bind (keeps_fetch8 bus) fun _ => keeps_getRegs_bind fun _ => keeps_pure _

theorem keeps_eaDirectIndexed (index : BitVec 16) :
    Keeps (OnRegs WidthInv) (eaDirectIndexed bus index) :=
  keeps_bind (keeps_fetch8 bus) fun _ => keeps_getRegs_bind fun _ => keeps_pure _

theorem keeps_eaAbsoluteIndexed (index : BitVec 16) :
    Keeps (OnRegs WidthInv) (eaAbsoluteIndexed bus index) :=
  keeps_bind (keeps_fetch16 bus) fun _ => keeps_getRegs_bind fun _ => keeps_pure _

theorem keeps_eaIndirectLong : Keeps (OnRegs WidthInv) (eaIndirectLong bus) := by
  apply keeps_bind (keeps_eaDirect bus)
  intro ptr
  apply keeps_bind (keeps_busRead8 bus _)
  intro lo
  exact keeps_bind (keeps_busRead8 bus _) fun _ =>
    keeps_bind (keeps_busRead8 bus _) fun _ => keeps_pure _

theorem keeps_eaStackRelative : Keeps (OnRegs WidthInv) (eaStackRelative bus) :=
  keeps_bind (keeps_fetch8 bus) fun _ => keeps_getRegs_bind fun _ => keeps_pure _

theorem keeps_effectiveAddress (mode : Mode) :
    Keeps (OnRegs WidthInv) (effectiveAddress bus mode) := by
  cases mode with
  | direct => exact keeps_eaDirect bus
  | directX | directY => exact keeps_getRegs_bind fun _ => keeps_eaDirectIndexed bus _
  | absolute =>
    exact keeps_bind (keeps_fetch16 bus) fun _ => keeps_getRegs_bind fun _ => keeps_pure _
  | absoluteX | absoluteY => exact keeps_getRegs_bind fun _ => keeps_eaAbsoluteIndexed bus _
  | long => exact keeps_bind (keeps_fetch24 bus) fun _ => keeps_pure _
  | longX =>
    exact keeps_getRegs_bind fun _ => keeps_bind (keeps_fetch24 bus) fun _ => keeps_pure _
  | indirect =>
    exact keeps_bind (keeps_eaDirect bus) fun _ => keeps_bind (keeps_readDPPointer bus _) fun _ =>
      keeps_getRegs_bind fun _ => keeps_pure _
  | indirectX =>
    apply keeps_getRegs_bind
    intro r
    apply keeps_bind (keeps_eaDirectIndexed bus _)
    intro ptr
    exact keeps_bind (keeps_readDPPointer bus _) fun _ => keeps_getRegs_bind fun _ => keeps_pure _
  | indirectY =>
    exact keeps_bind (keeps_eaDirect bus) fun _ => keeps_bind (keeps_readDPPointer bus _) fun _ =>
      keeps_getRegs_bind fun _ => keeps_pure _
  | indirectLong => exact keeps_eaIndirectLong bus
  | indirectLongY =>
    exact keeps_bind (keeps_eaIndirectLong bus) fun _ => keeps_getRegs_bind fun _ => keeps_pure _
  | stackRelative => exact keeps_eaStackRelative bus
  | stackRelativeIndirectY =>
    exact keeps_bind (keeps_eaStackRelative bus) fun _ =>
      keeps_bind (keeps_read16Bank0 bus _) fun _ => keeps_getRegs_bind fun _ => keeps_pure _

theorem keeps_readOperand (narrow : Bool) (ea : EA) :
    Keeps (OnRegs WidthInv) (readOperand bus narrow ea) := by
  cases narrow with
  | true => exact keeps_busRead8 bus _
  | false =>
    exact keeps_bind (keeps_busRead8 bus _) fun _ => keeps_bind (keeps_busRead8 bus _) fun _ =>
      keeps_pure _

theorem keeps_writeOperand (narrow : Bool) (ea : EA) (v : BitVec 16) :
    Keeps (OnRegs WidthInv) (writeOperand bus narrow ea v) := by
  cases narrow with
  | true => exact keeps_busWrite8 bus _ _
  | false => exact keeps_bind (keeps_busWrite8 bus _ _) fun _ => keeps_busWrite8 bus _ _

theorem keeps_immediate (narrow : Bool) : Keeps (OnRegs WidthInv) (immediate bus narrow) := by
  cases narrow with
  | true => exact keeps_fetch8 bus
  | false => exact keeps_fetch16 bus

theorem keeps_rmwWrite (ea : EA) (original v : BitVec 16) :
    Keeps (OnRegs WidthInv) (rmwWrite bus ea original v) := by
  apply keeps_getRegs_bind
  intro r
  apply keeps_ite
  · exact keeps_bind (keeps_busWrite8 bus _ _) fun _ => keeps_busWrite8 bus _ _
  apply keeps_ite
  · exact keeps_busWrite8 bus _ _
  · exact keeps_bind (keeps_busWrite8 bus _ _) fun _ => keeps_busWrite8 bus _ _

theorem keeps_push8 (v : Byte) : Keeps (OnRegs WidthInv) (push8 bus v) := by
  apply keeps_getRegs_bind
  intro r
  exact keeps_bind (keeps_busWrite8 bus _ _) fun _ =>
    keeps_modifyRegs fun r h => h.moveStack (r.s - 1)

theorem keeps_pull8 : Keeps (OnRegs WidthInv) (pull8 bus) :=
  keeps_bind (keeps_modifyRegs fun r h => h.moveStack (r.s + 1)) fun _ =>
    keeps_getRegs_bind fun _ => keeps_busRead8 bus _

theorem keeps_push16 (v : BitVec 16) : Keeps (OnRegs WidthInv) (push16 bus v) :=
  keeps_bind (keeps_push8 bus _) fun _ => keeps_push8 bus _

theorem keeps_pull16 : Keeps (OnRegs WidthInv) (pull16 bus) :=
  keeps_bind (keeps_pull8 bus) fun _ => keeps_bind (keeps_pull8 bus) fun _ => keeps_pure _

theorem keeps_pullAs (narrow : Bool) : Keeps (OnRegs WidthInv) (pullAs bus narrow) := by
  cases narrow with
  | true => exact keeps_pull8 bus
  | false => exact keeps_pull16 bus

/-! ### Operands of index registers -/

/-- With narrow index registers the value is a byte. -/
def IndexSized (v : BitVec 16) (core : Core Regs σ) : Prop := core.regs.x8 = true → v ≤ 0xFF

theorem keepsWith_indexSized {m : Bool → CoreM Regs σ (BitVec 16)}
    (hkeeps : ∀ narrow, Keeps (OnRegs WidthInv) (m narrow))
    (hframe : ∀ narrow core, ((m narrow).run core).2.regs.x8 = core.regs.x8)
    (hvalue : ∀ core, ((m true).run core).1 ≤ 0xFF) :
    KeepsWith (OnRegs WidthInv) IndexSized (getRegs >>= fun r => m r.x8) := by
  intro core h
  refine ⟨hkeeps core.regs.x8 core h, ?_⟩
  intro hx
  have hnarrow : core.regs.x8 = true := (hframe core.regs.x8 core).symm.trans hx
  show ((m core.regs.x8).run core).1 ≤ 0xFF
  rw [hnarrow]
  exact hvalue core

theorem keepsWith_readX (ea : EA) : KeepsWith (OnRegs WidthInv) IndexSized (readX bus ea) := by
  apply keepsWith_indexSized fun narrow => keeps_readOperand bus narrow ea
  · intro narrow core
    cases narrow <;> rfl
  · intro core
    exact setWidth_low_le _

theorem keepsWith_immediateX : KeepsWith (OnRegs WidthInv) IndexSized (immediateX bus) := by
  apply keepsWith_indexSized (keeps_immediate bus)
  · intro narrow core
    cases narrow <;> rfl
  · intro core
    exact setWidth_low_le _

theorem keepsWith_pullX :
    KeepsWith (OnRegs WidthInv) IndexSized (getRegs >>= fun r => pullAs bus r.x8) := by
  apply keepsWith_indexSized (keeps_pullAs bus)
  · intro narrow core
    cases narrow <;> rfl
  · intro core
    exact setWidth_low_le _

/-! ### The cases of the switch -/

theorem keeps_execAcc (op : AccOp) (m8Entry : Bool) (operand : Operand) :
    Keeps (OnRegs WidthInv) (execAcc bus op m8Entry operand) := by
  have hop (immediate v) : Keeps (OnRegs WidthInv)
      (modifyRegs (op.apply immediate m8Entry v) : CoreM Regs σ PUnit) :=
    keeps_modify_view fun r => widthView_applyAcc op immediate m8Entry v r
  cases operand with
  | immediate =>
    exact keeps_bind (keeps_getRegs_bind fun _ => keeps_immediate bus _) fun v =>
      keeps_bind (hop true v) fun _ => keeps_pure _
  | memory mode =>
    apply keeps_bind (keeps_effectiveAddress bus mode)
    intro ea
    exact keeps_bind (keeps_getRegs_bind fun _ => keeps_readOperand bus _ ea) fun v =>
      keeps_bind (hop false v) fun _ => keeps_pure _

theorem keeps_execIndex (op : IndexOp) (x8Entry : Bool) (operand : Operand) :
    Keeps (OnRegs WidthInv) (execIndex bus op x8Entry operand) := by
  cases operand with
  | immediate =>
    apply keeps_bind_of_keepsWith (keepsWith_immediateX bus)
    intro v core h hv
    exact widthInv_applyIndex op x8Entry h hv
  | memory mode =>
    apply keeps_bind (keeps_effectiveAddress bus mode)
    intro ea
    apply keeps_bind_of_keepsWith (keepsWith_readX bus ea)
    intro v core h hv
    exact widthInv_applyIndex op x8Entry h hv

theorem keeps_execStore (op : StoreOp) (mode : Mode) :
    Keeps (OnRegs WidthInv) (execStore bus op mode) := by
  apply keeps_bind (keeps_effectiveAddress bus mode)
  intro ea
  refine keeps_bind (keeps_getRegs_bind fun r => ?_) fun _ => keeps_pure _
  cases op <;> exact keeps_getRegs_bind fun _ => keeps_writeOperand bus _ ea _

theorem keeps_execRmw (op : RmwOp) (mode : Mode) :
    Keeps (OnRegs WidthInv) (execRmw bus op mode) := by
  apply keeps_bind (keeps_effectiveAddress bus mode)
  intro ea
  apply keeps_bind (keeps_getRegs_bind fun _ => keeps_readOperand bus _ ea)
  intro v
  apply keeps_getRegs_bind
  intro r
  apply keeps_bind (keeps_modify_view fun r => widthView_applyRmw op r v)
  intro _
  apply keeps_bind (keeps_rmwWrite bus ea v _)
  intro _
  exact keeps_bind (keeps_modify_view fun r => widthView_finishRmw op _ r) fun _ => keeps_pure _

theorem widthInv_applyAccRmw (op : RmwOp) {r : Regs} (h : WidthInv r) :
    WidthInv (op.applyAcc r) := by
  apply h.of_view
  simp [RmwOp.applyAcc]

theorem keeps_execPush (op : PushOp) : Keeps (OnRegs WidthInv) (execPush bus op) := by
  have hpushAs (narrow v) : Keeps (OnRegs WidthInv) (pushAs bus narrow v) := by
    cases narrow
    · exact keeps_push16 bus v
    · exact keeps_push8 bus _
  apply keeps_getRegs_bind
  intro r
  cases op with
  | pha | phx | phy => exact hpushAs _ _
  | php | phb | phk => exact keeps_push8 bus _
  | phd => exact (establishes_bind fun _ => establishes_applyE).keeps
  | pea => exact (establishes_bind fun _ => establishes_bind fun _ => establishes_applyE).keeps
  | pei =>
    exact (establishes_bind fun _ => establishes_bind fun _ => establishes_bind fun _ =>
      establishes_applyE).keeps
  | per =>
    exact (establishes_bind fun _ => establishes_bind fun _ => establishes_bind fun _ =>
      establishes_applyE).keeps

theorem keeps_execPull (op : PullOp) : Keeps (OnRegs WidthInv) (execPull bus op) := by
  have happly (f : Byte → Regs → Regs) : Keeps (OnRegs WidthInv)
      (pull8 bus >>= fun v => modifyRegs fun r => (f v r).applyE) :=
    (establishes_bind fun _ => fun _ => widthInv_applyE _).keeps
  cases op with
  | pla =>
    apply keeps_getRegs_bind
    intro r
    exact keeps_bind (keeps_pullAs bus _) fun v => keeps_modify_view fun r => by simp
  | plx =>
    intro core h
    obtain ⟨hkeeps, hv⟩ := keepsWith_pullX bus core h
    exact widthInv_applyIndex .ldx true hkeeps hv
  | ply =>
    intro core h
    obtain ⟨hkeeps, hv⟩ := keepsWith_pullX bus core h
    exact widthInv_applyIndex .ldy true hkeeps hv
  | plp => exact keeps_getRegs_bind fun _ => happly fun v r => { r with p := v }
  | plb =>
    apply keeps_getRegs_bind
    intro r
    exact keeps_bind (keeps_pull8 bus) fun v =>
      keeps_modify_view fun r => (Regs.widthView_setZN8 _ v).trans rfl
  | pld => exact keeps_getRegs_bind fun _ => (establishes_bind fun _ _ => widthInv_applyE _).keeps

theorem keeps_setPC (pc : BitVec 16) : Keeps (OnRegs WidthInv) (setPC pc : CoreM Regs σ PUnit) :=
  keeps_modify_view fun _ => rfl

theorem keeps_setLongPC (target : BitVec 24) :
    Keeps (OnRegs WidthInv) (setLongPC target : CoreM Regs σ PUnit) :=
  keeps_modify_view fun _ => rfl

theorem keeps_readProgramPointer (ptr : BitVec 16) :
    Keeps (OnRegs WidthInv) (readProgramPointer bus ptr) :=
  keeps_getRegs_bind fun _ => keeps_bind (keeps_busRead8 bus _) fun _ =>
    keeps_bind (keeps_busRead8 bus _) fun _ => keeps_pure _

theorem keeps_execJump (op : JumpOp) : Keeps (OnRegs WidthInv) (execJump bus op) := by
  cases op with
  | jmp => exact keeps_bind (keeps_fetch16 bus) fun _ => keeps_setPC _
  | jmpIndirect =>
    exact keeps_bind (keeps_fetch16 bus) fun _ => keeps_bind (keeps_read16Bank0 bus _) fun _ =>
      keeps_setPC _
  | jmpIndirectX =>
    apply keeps_bind (keeps_fetch16 bus)
    intro base
    exact keeps_getRegs_bind fun _ => keeps_bind (keeps_readProgramPointer bus _) fun _ =>
      keeps_setPC _
  | jml => exact keeps_bind (keeps_fetch24 bus) fun _ => keeps_setLongPC _
  | jmlIndirect =>
    apply keeps_bind (keeps_fetch16 bus)
    intro ptr
    apply keeps_bind (keeps_read16Bank0 bus _)
    intro target
    exact keeps_bind (keeps_setPC _) fun _ => keeps_bind (keeps_busRead8 bus _) fun _ =>
      keeps_modify_view fun _ => rfl
  | jsr =>
    apply keeps_bind (keeps_fetch16 bus)
    intro target
    exact keeps_bind (keeps_getRegs_bind fun _ => keeps_push16 bus _) fun _ => keeps_setPC _
  | jsrIndirectX | jsl =>
    exact (establishes_bind fun _ => establishes_bind fun _ => establishes_bind fun _ =>
      establishes_bind fun _ => establishes_bind fun _ => establishes_applyE).keeps
  | rts => exact keeps_bind (keeps_pull16 bus) fun _ => keeps_setPC _
  | rtl =>
    exact (establishes_bind fun _ => establishes_bind fun _ => establishes_bind fun _ =>
      establishes_bind fun _ => establishes_applyE).keeps
  | rti =>
    refine (establishes_bind fun p => establishes_bind fun _ => establishes_bind fun target =>
      establishes_bind fun _ => establishes_bind fun r => ?_).keeps
    apply establishes_ite establishes_applyE
    exact establishes_bind fun _ => establishes_bind fun _ => establishes_applyE

theorem Regs.widthView_branchTo (r : Regs) (target : BitVec 16) (cond : Bool) :
    (r.branchTo target cond).widthView = r.widthView := by
  cases cond <;> rfl

theorem keeps_execBranch (cond : Regs → Bool) :
    Keeps (OnRegs WidthInv) (execBranch bus cond) := by
  apply keeps_bind (keeps_fetch8 bus)
  intro disp
  apply keeps_getRegs_bind
  intro r
  exact keeps_bind (keeps_modify_view fun r => r.widthView_branchTo _ _) fun _ => keeps_pure _

theorem keeps_execBlockMove (up : Bool) : Keeps (OnRegs WidthInv) (execBlockMove bus up) := by
  apply keeps_bind (keeps_fetch8 bus)
  intro dstBank
  apply keeps_bind (keeps_fetch8 bus)
  intro srcBank
  apply keeps_getRegs_bind
  intro r
  apply keeps_bind (keeps_busRead8 bus _)
  intro v
  refine keeps_bind (keeps_busWrite8 bus _ _) fun _ => keeps_modifyRegs fun r h => ?_
  exact ((h.setX fun hx => narrow_le hx _).setY fun hx => narrow_le hx _).of_view rfl

theorem establishes_serviceInterrupt (vector : Vector) (isBRKorCOP : Bool) :
    Establishes (OnRegs WidthInv) (serviceInterrupt bus vector isBRKorCOP) :=
  establishes_bind fun _ => establishes_bind fun _ => establishes_bind fun _ =>
    establishes_bind fun _ => establishes_bind fun _ => establishes_applyE

theorem keeps_unpenalised {m : CoreM Regs σ Unit} (hm : Keeps (OnRegs WidthInv) m) :
    Keeps (OnRegs WidthInv) (unpenalised m) :=
  keeps_bind hm fun _ => keeps_pure _

/-- Every case of the generic switch keeps the invariant. -/
theorem keeps_execInstr (m8Entry x8Entry : Bool) (instr : Instr) :
    Keeps (OnRegs WidthInv) (execInstr bus m8Entry x8Entry instr) := by
  cases instr with
  | acc op operand => exact keeps_execAcc bus op m8Entry operand
  | index op operand => exact keeps_execIndex bus op x8Entry operand
  | store op mode => exact keeps_execStore bus op mode
  | rmw op mode => exact keeps_execRmw bus op mode
  | rmwAcc op => exact keeps_unpenalised (keeps_modifyRegs fun _ => widthInv_applyAccRmw op)
  | reg op => exact keeps_unpenalised (keeps_modifyRegs fun _ => widthInv_applyReg op)
  | push op => exact keeps_unpenalised (keeps_execPush bus op)
  | pull op => exact keeps_unpenalised (keeps_execPull bus op)
  | jump op => exact keeps_unpenalised (keeps_execJump bus op)
  | branch flag set => exact keeps_execBranch bus _
  | bra => exact keeps_execBranch bus _
  | brl =>
    exact keeps_unpenalised (keeps_bind (keeps_fetch16 bus) fun _ =>
      keeps_modify_view fun _ => rfl)
  | rep | sep =>
    exact keeps_unpenalised (establishes_bind fun _ _ => widthInv_applyE _).keeps
  | blockMove up => exact keeps_unpenalised (keeps_execBlockMove bus up)
  | brk | cop =>
    exact keeps_unpenalised
      (establishes_bind fun _ => establishes_serviceInterrupt bus _ true).keeps
  | wdm => exact keeps_unpenalised (keeps_bind (keeps_fetch8 bus) fun _ => keeps_pure _)
  | stp | wai => exact keeps_pure _

theorem keeps_execGeneric (opcode : Byte) :
    Keeps (OnRegs WidthInv) (execGeneric bus opcode) :=
  keeps_getRegs_bind fun _ => keeps_bind (keeps_execInstr bus _ _ _) fun _ => keeps_pure _

end Access

end W65C816

end ScpuEmu
