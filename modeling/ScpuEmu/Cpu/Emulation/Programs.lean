import ScpuEmu.Cpu.Emulation.Arithmetic
import ScpuEmu.Library.PairedProgram

/-!
# Addresses and the stack in emulation mode

The helpers of the two processors, side by side on the same memory: fetches, effective
addresses, pushes and pops.
-/

namespace ScpuEmu

namespace W65C816

open Library

open M6502 (rd wr)

/-- A 65C816 that emulates a 6502, but for the flags in `mask`, and has the same bus. -/
structure LockstepBut (mask b : Byte) (core : Core Regs FlatMemory)
    (ref : Core M6502.Regs FlatMemory) : Prop where
  regs : ∃ q, SameBut mask q ref.regs ∧ core.regs = emulate b q
  bus : core.bus = ref.bus

structure Lockstep (b : Byte) (core : Core Regs FlatMemory) (ref : Core M6502.Regs FlatMemory) :
    Prop where
  regs : core.regs = emulate b ref.regs
  bus : core.bus = ref.bus

theorem Lockstep.but {b : Byte} {core : Core Regs FlatMemory} {ref : Core M6502.Regs FlatMemory}
    (h : Lockstep b core ref) (mask : Byte) : LockstepBut mask b core ref :=
  ⟨⟨ref.regs, .rfl, h.regs⟩, h.bus⟩

section Programs

variable {b : Byte} {core : Core Regs FlatMemory} {ref : Core M6502.Regs FlatMemory}

/-! ### Accesses -/

theorem run_getRegs_bind {ρ σ α : Type} (f : ρ → CoreM ρ σ α) (core : Core ρ σ) :
    (getRegs >>= f).run core = (f core.regs).run core := rfl

theorem zero_append (a : BitVec 16) : ((0 : Byte) ++ a : BitVec 24) = bank0 a := by
  apply BitVec.eq_of_toNat_eq
  rw [BitVec.toNat_append]
  show 0 <<< 16 ||| a.toNat = _
  rw [Nat.zero_shiftLeft, Nat.zero_or, bank0, BitVec.toNat_setWidth]
  exact (Nat.mod_eq_of_lt (Nat.lt_trans a.isLt (by decide))).symm

/-- Registers change, and the bus does not. -/
theorem paired_modifyRegs {f : Regs → Regs} {g : M6502.Regs → M6502.Regs}
    (h : Lockstep b core ref) (hfg : f (emulate b ref.regs) = emulate b (g ref.regs)) :
    Paired Eq (Lockstep b) ((modifyRegs f).run core) ((modifyRegs g).run ref) :=
  ⟨rfl, (congrArg f h.regs).trans hfg, h.bus⟩

theorem paired_rd (h : Lockstep b core ref) {addr : BitVec 24} {a : BitVec 16}
    (ha : addr = bank0 a) :
    Paired Eq (Lockstep b) ((busRead8 flatBus addr).run core) ((rd flatBus a).run ref) := by
  refine ⟨?_, h.regs, h.bus⟩
  show core.bus.mem addr = ref.bus.mem (bank0 a)
  rw [h.bus, ha]

theorem paired_wr (h : Lockstep b core ref) {addr : BitVec 24} {a : BitVec 16}
    (ha : addr = bank0 a) {v w : Byte} (hv : v = w) :
    Paired Eq (Lockstep b) ((busWrite8 flatBus addr v).run core) ((wr flatBus a w).run ref) := by
  refine ⟨rfl, h.regs, ?_⟩
  show core.bus.write addr v = ref.bus.write (bank0 a) w
  rw [h.bus, ha, hv]

theorem paired_fetch (h : Lockstep b core ref) :
    Paired Eq (Lockstep b) ((fetch8 flatBus).run core) ((M6502.fetch flatBus).run ref) := by
  have haddr : core.regs.pbr ++ core.regs.pc = bank0 ref.regs.pc := by
    rw [h.regs]
    exact zero_append _
  refine ⟨(paired_rd h haddr).value, ?_, h.bus⟩
  show { core.regs with pc := core.regs.pc + 1 } = _
  rw [h.regs]
  rfl

theorem paired_fetch16 (h : Lockstep b core ref) :
    Paired Eq (Lockstep b) ((fetch16 flatBus).run core) ((M6502.fetch16 flatBus).run ref) := by
  refine (paired_fetch h).bind fun lo core hlo h => ?_
  refine (paired_fetch h).bind fun hi core hhi h => ?_
  exact paired_pure (congrArg₂ (· ++ ·) hhi hlo) h

/-- The two bytes of a word in bank 0. -/
theorem paired_word (h : Lockstep b core ref) {lo hi : BitVec 24} {a a' : BitVec 16}
    (hlo : lo = bank0 a) (hhi : hi = bank0 a') :
    Paired Eq (Lockstep b)
      ((do
        let l ← busRead8 flatBus lo
        let h ← busRead8 flatBus hi
        return (h ++ l : BitVec 16) : CoreM Regs FlatMemory (BitVec 16)).run core)
      ((do
        let l ← rd flatBus a
        let h ← rd flatBus a'
        return (h ++ l : BitVec 16) : CoreM M6502.Regs FlatMemory (BitVec 16)).run ref) := by
  refine (paired_rd h hlo).bind fun l core hl h => ?_
  refine (paired_rd h hhi).bind fun h' core hh h => ?_
  exact paired_pure (congrArg₂ (· ++ ·) hh hl) h

/-- The direct page is aligned, so that sums wrap in it. -/
theorem wraps_emulate (q : M6502.Regs) :
    ((emulate b q).e && !(emulate b q).dpUnaligned) = true := by
  have haligned : ((0 : BitVec 16) &&& 0xFF != 0) = false := by decide
  show (true && !((0 : BitVec 16) &&& 0xFF != 0)) = true
  rw [haligned]
  rfl

theorem dpPointerNext_emulate (q : M6502.Regs) (z : Byte) :
    dpPointerNext (emulate b q) (z.setWidth 16) = (z + 1).setWidth 16 := by
  have hwrap (z : Byte) : (0 &&& 0xFF00) ||| ((z.setWidth 16 + 1) &&& 0xFF) =
      ((z + 1).setWidth 16 : BitVec 16) := by
    rw [and_low_eq_setWidth, low_add_one]
    exact BitVec.zero_or
  rw [dpPointerNext, if_pos (wraps_emulate q)]
  exact hwrap z

/-- A pointer of the direct page wraps in it. -/
theorem paired_zpPointer (h : Lockstep b core ref) {ptr : BitVec 24} {z : Byte}
    (hptr : ptr = bank0 (z.setWidth 16)) :
    Paired Eq (Lockstep b) ((readDPPointer flatBus ptr).run core)
      ((M6502.zpPointer flatBus z).run ref) := by
  rw [readDPPointer, M6502.zpPointer, hptr, setWidth_bank0]
  refine (paired_rd h rfl).bind fun lo core hlo h => ?_
  rw [run_getRegs_bind, h.regs, dpPointerNext_emulate]
  refine (paired_rd h rfl).bind fun hi core hhi h => ?_
  exact paired_pure (congrArg₂ (· ++ ·) hhi hlo) h

/-! ### The stack -/

theorem moveStack_emulate (q : M6502.Regs) {s : BitVec 16} {s' : Byte} (hs : s.setWidth 8 = s') :
    moveStack (emulate b q) s = emulate b { q with s := s' } := by
  have hpage : 0x0100 ||| (s &&& 0xFF) = M6502.stackAddr s' := by
    rw [and_low_eq_setWidth, hs]
    rfl
  exact congrArg (fun s => { emulate b q with s := s }) hpage

theorem stackAddr_eq_add (s : Byte) : M6502.stackAddr s = 0x0100 + s.setWidth 16 := by
  have hs := s.isLt
  apply BitVec.eq_of_toNat_eq
  rw [M6502.stackAddr, ← setWidth_and_low, toNat_page1, setWidth_and_low]
  bv_omega

theorem low_stack_sub_one (s : Byte) : (M6502.stackAddr s - 1).setWidth 8 = s - 1 := by
  rw [stackAddr_eq_add]
  bv_omega

theorem low_stack_add_one (s : Byte) : (M6502.stackAddr s + 1).setWidth 8 = s + 1 := by
  rw [stackAddr_eq_add]
  bv_omega

theorem paired_push (h : Lockstep b core ref) {v w : Byte} (hv : v = w) :
    Paired Eq (Lockstep b) ((push8 flatBus v).run core) ((M6502.push flatBus w).run ref) := by
  rw [push8, M6502.push, run_getRegs_bind, run_getRegs_bind, h.regs]
  refine (paired_wr h rfl hv).bind fun _ core _ h => ?_
  exact paired_modifyRegs h (moveStack_emulate _ (low_stack_sub_one _))

theorem paired_pop (h : Lockstep b core ref) :
    Paired Eq (Lockstep b) ((pull8 flatBus).run core) ((M6502.pop flatBus).run ref) := by
  rw [pull8, M6502.pop]
  refine (paired_modifyRegs h (moveStack_emulate _ (low_stack_add_one _))).bind
    fun _ core _ h => ?_
  rw [run_getRegs_bind, run_getRegs_bind, h.regs]
  exact paired_rd h rfl

theorem paired_push16 (h : Lockstep b core ref) {v w : BitVec 16} (hv : v = w) :
    Paired Eq (Lockstep b) ((push16 flatBus v).run core) ((M6502.push16 flatBus w).run ref) := by
  subst hv
  refine (paired_push h rfl).bind fun _ core _ h => ?_
  exact paired_push h rfl

theorem paired_pop16 (h : Lockstep b core ref) :
    Paired Eq (Lockstep b) ((pull16 flatBus).run core) ((M6502.pop16 flatBus).run ref) := by
  refine (paired_pop h).bind fun lo core hlo h => ?_
  refine (paired_pop h).bind fun hi core hhi h => ?_
  exact paired_pure (congrArg₂ (· ++ ·) hhi hlo) h

/-! ### Effective addresses -/

/-- The addressing mode of the 65C816 behind a mode of the 6502. -/
def modeOf : M6502.Mode → Mode
  | .zp => .direct
  | .zpx => .directX
  | .zpy => .directY
  | .abs => .absolute
  | .abxR | .abxW => .absoluteX
  | .abyR | .abyW => .absoluteY
  | .izx => .indirectX
  | .izyR | .izyW => .indirectY

/-- Does the mode count a page that the index crosses? -/
def countsCross : M6502.Mode → Bool
  | .abxR | .abyR | .izyR => true
  | _ => false

/-- The same address in bank 0, and the cycles for a crossed page where the mode counts it. -/
structure SameEA (counts : Bool) (ea : EA) (ea' : M6502.EA) : Prop where
  addr : ea.addr = bank0 ea'.addr
  cyc : ea'.cyc = (counts && ea.pageCross).toNat

/-- The index does not take the effective address past $FFFF. -/
def InBank (ref : Core M6502.Regs FlatMemory) : M6502.Mode → Prop
  | .abxR | .abxW => ((M6502.fetch16 flatBus).run ref).1.toNat + ref.regs.x.toNat < 2 ^ 16
  | .abyR | .abyW => ((M6502.fetch16 flatBus).run ref).1.toNat + ref.regs.y.toNat < 2 ^ 16
  | .izyR | .izyW => ((M6502.izyBase flatBus).run ref).1.toNat + ref.regs.y.toNat < 2 ^ 16
  | _ => True

theorem bank0_add_zero (off : Byte) : bank0 (off.setWidth 16 + 0) = bank0 (off.setWidth 16) :=
  congrArg bank0 (BitVec.add_zero _)

theorem directIndexed_emulate (q : M6502.Regs) (off index : Byte) :
    directIndexed (emulate b q) off (index.setWidth 16) = bank0 ((off + index).setWidth 16) := by
  have hsum : (off.setWidth 16 + index.setWidth 16 : BitVec 16).setWidth 8 = off + index := by
    have ho := off.isLt
    have hi := index.isLt
    bv_omega
  rw [directIndexed, if_pos (wraps_emulate q), hsum]
  exact BitVec.add_zero _

theorem dataIndexed_emulate (q : M6502.Regs) (base : BitVec 16) (index : Byte)
    (h : base.toNat + index.toNat < 2 ^ 16) :
    (dataIndexed (emulate b q) base (index.setWidth 16)).addr =
      bank0 (base + index.setWidth 16) := by
  have hbase := zero_append base
  show ((0 : Byte) ++ base) + (index.setWidth 16).setWidth 24 = _
  rw [hbase]
  apply BitVec.eq_of_toNat_eq
  have hindex := index.isLt
  simp only [bank0, BitVec.toNat_add, BitVec.toNat_setWidth]
  omega

theorem pageCrossed_eq (base target : BitVec 16) :
    M6502.pageCrossed base target = (crossesPage base target).toNat := by
  rw [M6502.pageCrossed, crossesPage]
  cases (base ^^^ target) &&& 0xFF00 != 0 <;> rfl

theorem sameEA_indexed (q : M6502.Regs) {base : BitVec 16} {index : Byte}
    (h : base.toNat + index.toNat < 2 ^ 16) :
    SameEA true (dataIndexed (emulate b q) base (index.setWidth 16))
        (M6502.indexedR base index) ∧
      SameEA false (dataIndexed (emulate b q) base (index.setWidth 16))
        (M6502.indexedW base index) :=
  ⟨⟨dataIndexed_emulate q base index h, pageCrossed_eq _ _⟩,
    ⟨dataIndexed_emulate q base index h, rfl⟩⟩

theorem paired_eaDirect (h : Lockstep b core ref) :
    Paired (fun ea z => ea = ⟨bank0 (z.setWidth 16), true, false⟩) (Lockstep b)
      ((eaDirect flatBus).run core) ((M6502.fetch flatBus).run ref) := by
  have hpure : (M6502.fetch flatBus).run ref = (M6502.fetch flatBus >>= pure).run ref := rfl
  rw [hpure, eaDirect]
  refine (paired_fetch h).bind fun off core hoff h => ?_
  rw [run_getRegs_bind, h.regs, hoff]
  exact paired_pure (congrArg (fun a => EA.mk a true false) (bank0_add_zero _)) h

theorem paired_eaZeroPage (h : Lockstep b core ref) {index : BitVec 16}
    {index' : M6502.Regs → Byte}
    (hindex : index = (index' ((M6502.fetch flatBus).run ref).2.regs).setWidth 16) :
    Paired (SameEA false) (Lockstep b) ((eaDirectIndexed flatBus index).run core)
      ((M6502.eaZeroPage flatBus index').run ref) := by
  rw [eaDirectIndexed, M6502.eaZeroPage]
  refine (paired_fetch h).bind fun off core hoff h => ?_
  rw [run_getRegs_bind, run_getRegs_bind, h.regs, hoff, hindex]
  exact paired_pure ⟨directIndexed_emulate _ _ _, rfl⟩ h

/-- The pointer of `(zp),Y`. -/
theorem paired_izyBase (h : Lockstep b core ref) :
    Paired Eq (Lockstep b)
      ((eaDirect flatBus >>= fun ptr => readDPPointer flatBus ptr.addr).run core)
      ((M6502.izyBase flatBus).run ref) :=
  (paired_eaDirect h).bind fun _ _ hptr h => paired_zpPointer h (congrArg EA.addr hptr)

/-- How the two processors compute the address of an indexed operand. -/
theorem paired_indexed {counts : Bool} {indexed : BitVec 16 → Byte → M6502.EA}
    {m : CoreM Regs FlatMemory (BitVec 16)} {n : CoreM M6502.Regs FlatMemory (BitVec 16)}
    (index : Regs → BitVec 16) {index' : M6502.Regs → Byte} {i : Byte}
    (hm : Paired Eq (Lockstep b) (m.run core) (n.run ref))
    (hindex : index (emulate b (n.run ref).2.regs) = i.setWidth 16)
    (hindex' : index' (n.run ref).2.regs = i)
    (hea : ∀ q, SameEA counts (dataIndexed (emulate b q) (n.run ref).1 (i.setWidth 16))
      (indexed (n.run ref).1 i)) :
    Paired (SameEA counts) (Lockstep b)
      ((m >>= fun base => getRegs >>= fun r => pure (dataIndexed r base (index r))).run core)
      ((n >>= fun base => getRegs >>= fun r => pure (indexed base (index' r))).run ref) := by
  refine hm.bind fun base core hbase h => ?_
  rw [run_getRegs_bind, run_getRegs_bind, h.regs, hbase, hindex, hindex']
  exact paired_pure (hea _) h

theorem paired_eaAbsolute {counts : Bool} {indexed : BitVec 16 → Byte → M6502.EA}
    {index : BitVec 16} {index' : M6502.Regs → Byte} {i : Byte} (h : Lockstep b core ref)
    (hindex : index = i.setWidth 16)
    (hindex' : index' ((M6502.fetch16 flatBus).run ref).2.regs = i)
    (hea : ∀ q, SameEA counts (dataIndexed (emulate b q) ((M6502.fetch16 flatBus).run ref).1
      (i.setWidth 16)) (indexed ((M6502.fetch16 flatBus).run ref).1 i)) :
    Paired (SameEA counts) (Lockstep b) ((eaAbsoluteIndexed flatBus index).run core)
      ((M6502.eaAbsolute flatBus indexed index').run ref) :=
  paired_indexed (fun _ => index) (paired_fetch16 h) hindex hindex' hea

theorem paired_eaIndirectY {counts : Bool} {indexed : BitVec 16 → Byte → M6502.EA}
    (h : Lockstep b core ref)
    (hea : ∀ q, SameEA counts (dataIndexed (emulate b q) ((M6502.izyBase flatBus).run ref).1
      (ref.regs.y.setWidth 16)) (indexed ((M6502.izyBase flatBus).run ref).1 ref.regs.y)) :
    Paired (SameEA counts) (Lockstep b) ((eaIndirectY flatBus).run core)
      ((M6502.eaIndirectY flatBus indexed).run ref) := by
  have hassoc : (eaIndirectY flatBus).run core =
      ((eaDirect flatBus >>= fun ptr => readDPPointer flatBus ptr.addr) >>= fun base =>
        getRegs >>= fun r => pure (dataIndexed r base r.getY)).run core := rfl
  rw [hassoc]
  exact paired_indexed Regs.getY (paired_izyBase h) (getY_emulate b _) rfl hea

theorem paired_effectiveAddress (mode : M6502.Mode) (h : Lockstep b core ref)
    (hbank : InBank ref mode) :
    Paired (SameEA (countsCross mode)) (Lockstep b)
      ((effectiveAddress flatBus (modeOf mode)).run core)
      ((M6502.effectiveAddress flatBus mode).run ref) := by
  have hX : core.regs.getX = ref.regs.x.setWidth 16 := by rw [h.regs, getX_emulate]
  have hY : core.regs.getY = ref.regs.y.setWidth 16 := by rw [h.regs, getY_emulate]
  cases mode with
  | zp =>
      rw [modeOf, effectiveAddress, M6502.effectiveAddress]
      refine (paired_eaDirect h).pure_right fun ea hea => ?_
      rw [hea]
      exact ⟨rfl, rfl⟩
  | zpx =>
      rw [modeOf, effectiveAddress, run_getRegs_bind]
      exact paired_eaZeroPage h hX
  | zpy =>
      rw [modeOf, effectiveAddress, run_getRegs_bind]
      exact paired_eaZeroPage h hY
  | abs =>
      rw [modeOf, effectiveAddress, eaAbsolute, M6502.effectiveAddress]
      refine (paired_fetch16 h).bind fun a core ha h => ?_
      rw [run_getRegs_bind, h.regs, ha]
      exact paired_pure ⟨zero_append _, rfl⟩ h
  | abxR =>
      rw [modeOf, effectiveAddress, run_getRegs_bind]
      exact paired_eaAbsolute h hX rfl fun q => (sameEA_indexed q hbank).1
  | abxW =>
      rw [modeOf, effectiveAddress, run_getRegs_bind]
      exact paired_eaAbsolute h hX rfl fun q => (sameEA_indexed q hbank).2
  | abyR =>
      rw [modeOf, effectiveAddress, run_getRegs_bind]
      exact paired_eaAbsolute h hY rfl fun q => (sameEA_indexed q hbank).1
  | abyW =>
      rw [modeOf, effectiveAddress, run_getRegs_bind]
      exact paired_eaAbsolute h hY rfl fun q => (sameEA_indexed q hbank).2
  | izx =>
      rw [modeOf, effectiveAddress, eaIndirectX, run_getRegs_bind, hX, eaDirectIndexed, bind_assoc,
        M6502.effectiveAddress]
      refine (paired_fetch h).bind fun off core hoff h => ?_
      rw [bind_assoc, run_getRegs_bind, pure_bind, run_getRegs_bind, h.regs, hoff]
      refine (paired_zpPointer h (directIndexed_emulate _ _ _)).bind fun a core ha h => ?_
      rw [run_getRegs_bind, h.regs, ha]
      exact paired_pure ⟨zero_append _, rfl⟩ h
  | izyR => exact paired_eaIndirectY h fun q => (sameEA_indexed q hbank).1
  | izyW => exact paired_eaIndirectY h fun q => (sameEA_indexed q hbank).2

end Programs

end W65C816

end ScpuEmu
