import ScpuEmu.Cpu.Emulation.Instructions
import ScpuEmu.Cpu.M6502.Step
import ScpuEmu.Cpu.W65C816.Batch
import ScpuEmu.Cpu.W65C816.RunLength
import Mathlib.Data.List.GetD

/-!
# Opcodes in emulation mode

The two processors decode an opcode of the 6502 to the same instruction and count the same
cycles for it.
-/

namespace ScpuEmu

namespace W65C816

open Library

/-! ### The opcode tables -/

deriving instance DecidableEq for Mode, Operand, AccOp, IndexOp, StoreOp, RmwOp, RegOp, PushOp,
  PullOp, JumpOp, Instr

/-- The cycles of an opcode in emulation mode, on an aligned direct page. -/
def emuCycles (op : SW65Opcode) (penalty : Penalty) : ℕ :=
  op.baseCycles + (op.has cycP && penalty.pageCross).toNat
    + (op.has cycBR && penalty.branchTaken).toNat
    + (op.has cycBR && penalty.branchTaken && penalty.pageCross).toNat
    + (op.has cycPE && penalty.pageCross).toNat

theorem cyclesUsed_emuKey (opcode : Byte) (penalty : Penalty) :
    cyclesUsed (emuKey false) opcode penalty = emuCycles (w65c816Opcode opcode) penalty := by
  have hkey : (emuKey false &&& 1 != 0) = true ∧ (emuKey false &&& 2 != 0) = true ∧
      (emuKey false &&& 4 != 0) = true ∧ (emuKey false &&& 8 != 0) = false := by
    decide
  rw [cyclesUsed_eq, hkey.1, hkey.2.1, hkey.2.2.1, hkey.2.2.2]
  simp [w65c816Cycles, emuCycles]

/-- The rows of the two processors mean the same: the same instruction, and as many cycles. -/
def rowAgrees (row : Option M6502.Instr × Instr × M6502.OpcodeInfo × SW65Opcode) : Bool :=
  row.1.all fun instr => row.2.1 == instrOf instr && encodable instr &&
    decide (∀ crossed taken, emuCycles row.2.2.2 ⟨crossed, taken⟩ =
      row.2.2.1.cycles + extraCycles instr ⟨crossed, taken⟩)

/-- The rows of all opcodes. -/
def rows : List (Option M6502.Instr × Instr × M6502.OpcodeInfo × SW65Opcode) :=
  M6502.instructions.zip (instructions.zip (M6502.opcodes.zip w65c816Opcodes))

theorem rows_agree : rows.all rowAgrees = true := by decide +kernel

theorem getElem_mem_zip {α β γ δ : Type} {as : List α} {bs : List β} {cs : List γ} {ds : List δ}
    {n : ℕ} (ha : n < as.length) (hb : n < bs.length) (hc : n < cs.length) (hd : n < ds.length) :
    (as[n], bs[n], cs[n], ds[n]) ∈ as.zip (bs.zip (cs.zip ds)) := by
  have hn : n < (as.zip (bs.zip (cs.zip ds))).length := by
    simp only [List.length_zip, Nat.lt_min]
    exact ⟨ha, hb, hc, hd⟩
  have hmem := List.getElem_mem hn
  simpa only [List.getElem_zip] using hmem

theorem mem_rows (opcode : Byte) :
    (M6502.decode opcode, decode opcode, M6502.opcodeInfo opcode, w65c816Opcode opcode) ∈ rows := by
  have hlength : M6502.instructions.length = 2 ^ 8 ∧ instructions.length = 2 ^ 8 ∧
      M6502.opcodes.length = 2 ^ 8 ∧ w65c816Opcodes.length = 2 ^ 8 := by
    decide +kernel
  obtain ⟨href, hinstr, hinfo, hop⟩ := hlength
  have hlt := opcode.isLt
  rw [M6502.decode, decode, M6502.opcodeInfo, w65c816Opcode, List.getD_eq_getElem _ _ (href ▸ hlt),
    List.getD_eq_getElem _ _ (hinstr ▸ hlt), List.getD_eq_getElem _ _ (hinfo ▸ hlt),
    List.getD_eq_getElem _ _ (hop ▸ hlt)]
  exact getElem_mem_zip _ _ _ _

/-- The two processors decode the opcodes of the 6502 alike, and count the same cycles. -/
theorem row_of_decode {opcode : Byte} {instr : M6502.Instr}
    (h : M6502.decode opcode = some instr) : decode opcode = instrOf instr ∧
      encodable instr = true ∧ ∀ penalty, cyclesUsed (emuKey false) opcode penalty =
        (M6502.opcodeInfo opcode).cycles + extraCycles instr penalty := by
  have hrow := List.all_eq_true.mp rows_agree _ (mem_rows opcode)
  rw [h] at hrow
  obtain ⟨hinstr, hcycles⟩ := (Bool.and_eq_true_iff.mp hrow :)
  obtain ⟨hdecode, hencodable⟩ := Bool.and_eq_true_iff.mp hinstr
  refine ⟨eq_of_beq hdecode, hencodable, fun penalty => ?_⟩
  rw [cyclesUsed_emuKey]
  exact of_decide_eq_true hcycles penalty.pageCross penalty.branchTaken

/-- The switch has a case for the documented opcodes, and for no other. -/
theorem undocumented_eq (opcode : Byte) :
    (M6502.opcodeInfo opcode).undocumented = (M6502.decode opcode).isNone := by
  have htables : M6502.opcodes.map M6502.OpcodeInfo.undocumented =
      M6502.instructions.map Option.isNone := by
    decide +kernel
  calc (M6502.opcodeInfo opcode).undocumented
      = (M6502.opcodes.map M6502.OpcodeInfo.undocumented).getD opcode.toNat true :=
        (List.getD_map _ _ M6502.OpcodeInfo.undocumented).symm
    _ = (M6502.instructions.map Option.isNone).getD opcode.toNat true := by rw [htables]
    _ = (M6502.decode opcode).isNone := List.getD_map _ none Option.isNone

/-! ### One instruction -/

section Execute

variable {b : Byte} {core : Core Regs FlatMemory} {ref : Core M6502.Regs FlatMemory}

theorem widthInv_emulate (q : M6502.Regs) : WidthInv (emulate b q) := by
  have hfixed : (emulate b q).applyE = emulate b q := by
    refine (applyE_emulate q (q.p ||| 0x30)).trans ?_
    rw [BitVec.or_assoc, BitVec.or_self]
    rfl
  rw [← hfixed]
  exact widthInv_applyE _

theorem paired_execOpcode {opcode : Byte} {instr : M6502.Instr}
    (hinstr : M6502.decode opcode = some instr) (h : Lockstep b core ref)
    (haddr : SameAddress ref instr) :
    Paired Eq (LockstepBut (exempt instr ref.regs) b) ((execOpcode flatBus opcode).run core)
      ((M6502.execOpcode flatBus true opcode).run ref) := by
  have hinv : WidthInv core.regs := h.regs ▸ widthInv_emulate _
  have hkey : core.regs.cycKey = emuKey false := by
    rw [h.regs]
    rfl
  have hwidths : (core.regs.cycKey &&& 1 != 0) = true ∧ (core.regs.cycKey &&& 2 != 0) = true := by
    rw [hkey]
    decide
  have hpaired := paired_execInstr (row_of_decode hinstr).2.1 h haddr
  rw [run_execOpcode flatBus opcode hinv,
    run_execGeneric flatBus (row_of_decode hinstr).1 hwidths.1 hwidths.2, hkey,
    M6502.execOpcode, hinstr]
  refine ⟨?_, hpaired.state⟩
  rw [(row_of_decode hinstr).2.2]
  exact congrArg (_ + ·) hpaired.value.symm

/-- The processor between the fetch of an opcode and its execution. -/
def afterFetch (ref : Core M6502.Regs FlatMemory) : Core M6502.Regs FlatMemory :=
  ((M6502.fetch flatBus).run ref).2

def opcodeAt (ref : Core M6502.Regs FlatMemory) : Byte := ((M6502.fetch flatBus).run ref).1

theorem exempt_congr (instr : M6502.Instr) {q q' : M6502.Regs} (h : q'.p = q.p) :
    exempt instr q' = exempt instr q := by
  cases instr with
  | read op operand => exact readExempt_congr op h
  | flow op => cases op <;> rfl
  | _ => rfl

theorem paired_fetchExec {instr : M6502.Instr}
    (hinstr : M6502.decode (opcodeAt ref) = some instr) (h : Lockstep b core ref)
    (haddr : SameAddress (afterFetch ref) instr) :
    Paired Eq (LockstepBut (exempt instr ref.regs) b) ((Cpu.fetchExec flatBus).run core)
      ((M6502.Cpu.fetchExec flatBus true).run ref) := by
  rw [Cpu.fetchExec, M6502.Cpu.fetchExec]
  refine (paired_fetch h).bind fun opcode core hopcode h => ?_
  subst hopcode
  have hflags : exempt instr (afterFetch ref).regs = exempt instr ref.regs := exempt_congr instr rfl
  have hexec := paired_execOpcode hinstr h haddr
  rw [← hflags]
  refine hexec.bind fun used core hused h => ?_
  exact paired_pure (congrArg (Prod.mk _) hused) h

end Execute

end W65C816

end ScpuEmu
