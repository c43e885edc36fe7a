import ScpuEmu.Cpu.Memory
import ScpuEmu.Cpu.W65C816.WidthInvariant

/-!
# Bytes on the stack and in the instruction stream

Where the bytes of an instruction and of a stack frame lie, with all wraps made: the
program counter in its bank, the stack pointer in bank 0 and, in emulation mode, in
page 1. Fetches, pushes and pulls read and write these bytes.
-/

namespace ScpuEmu

namespace W65C816

open Library

namespace Regs

variable (r : Regs)

/-- The program counter, `n` bytes on. -/
def past (n : ℕ) : Regs := { r with pc := r.pc + BitVec.ofNat 16 n }

theorem past_zero : r.past 0 = r := by
  rw [past, BitVec.add_zero]

theorem past_succ (n : ℕ) : { r.past n with pc := (r.past n).pc + 1 } = r.past (n + 1) := by
  rw [past, past, BitVec.ofNat_add, BitVec.add_assoc]
  rfl

/-- The address of an instruction byte, counted from the program counter. -/
def codeByte (n : ℕ) : BitVec 24 := r.pbr ++ (r.pc + BitVec.ofNat 16 n)

/-- The stack pointer after `n` pushes of a byte. -/
def stackAt (n : ℕ) : BitVec 16 :=
  if r.e then 0x0100 ||| ((r.s - BitVec.ofNat 16 n) &&& 0xFF) else r.s - BitVec.ofNat 16 n

/-- The address that the push of a byte writes, after `n` pushes before it. -/
def stackByte (n : ℕ) : BitVec 24 := bank0 (r.stackAt n)

def down (n : ℕ) : Regs := { r with s := r.stackAt n }

theorem page1_sub_one (s : BitVec 16) (n : ℕ) :
    (0x0100 ||| (((0x0100 ||| ((s - BitVec.ofNat 16 n) &&& 0xFF)) - 1) &&& 0xFF) : BitVec 16) =
      0x0100 ||| ((s - BitVec.ofNat 16 (n + 1)) &&& 0xFF) := by
  have hone : (1 : BitVec 16).toNat = 1 := rfl
  apply BitVec.eq_of_toNat_eq
  rw [toNat_page1, toNat_page1, BitVec.toNat_sub, toNat_page1, BitVec.toNat_sub, BitVec.toNat_sub,
    BitVec.toNat_ofNat, BitVec.toNat_ofNat, hone]
  omega

theorem page1_add_one (s : BitVec 16) (n : ℕ) :
    (0x0100 ||| (((0x0100 ||| ((s - BitVec.ofNat 16 (n + 1)) &&& 0xFF)) + 1) &&& 0xFF) :
      BitVec 16) = 0x0100 ||| ((s - BitVec.ofNat 16 n) &&& 0xFF) := by
  have hone : (1 : BitVec 16).toNat = 1 := rfl
  apply BitVec.eq_of_toNat_eq
  rw [toNat_page1, toNat_page1, BitVec.toNat_add, toNat_page1, BitVec.toNat_sub, BitVec.toNat_sub,
    BitVec.toNat_ofNat, BitVec.toNat_ofNat, hone]
  omega

theorem moveStack_push (n : ℕ) :
    moveStack (r.down n) ((r.down n).s - 1) = r.down (n + 1) := by
  unfold moveStack down stackAt
  cases he : r.e
  · simp only [Bool.false_eq_true, if_false, Regs.mk.injEq, and_true, true_and]
    bv_omega
  · simp only [if_true, Regs.mk.injEq, and_true, true_and]
    exact page1_sub_one r.s n

theorem moveStack_pull (n : ℕ) :
    moveStack (r.down (n + 1)) ((r.down (n + 1)).s + 1) = r.down n := by
  unfold moveStack down stackAt
  cases he : r.e
  · simp only [Bool.false_eq_true, if_false, Regs.mk.injEq, and_true, true_and]
    bv_omega
  · simp only [if_true, Regs.mk.injEq, and_true, true_and]
    exact page1_add_one r.s n

theorem moveStack_native (he : r.e = false) (s : BitVec 16) :
    moveStack r s = { r with s := s } := by
  rw [moveStack, if_neg (by rw [he]; exact Bool.false_ne_true)]

/-- The bytes of a page of pushes are all different. -/
theorem stackByte_inj {m n : ℕ} (hm : m < 256) (hn : n < 256) :
    r.stackByte m = r.stackByte n ↔ m = n := by
  refine ⟨fun h => ?_, fun h => congrArg _ h⟩
  have hat : r.stackAt m = r.stackAt n := by
    have := congrArg BitVec.toNat h
    unfold stackByte bank0 at this
    bv_omega
  have hnat := congrArg BitVec.toNat hat
  unfold stackAt at hnat
  split at hnat
  · rw [toNat_page1, toNat_page1, BitVec.toNat_sub, BitVec.toNat_sub, BitVec.toNat_ofNat,
      BitVec.toNat_ofNat] at hnat
    omega
  · rw [BitVec.toNat_sub, BitVec.toNat_sub, BitVec.toNat_ofNat, BitVec.toNat_ofNat] at hnat
    omega

/-! ### Frames -/

/-- The memory after pushes of some bytes, with `n` pushes before them. -/
def pushed : ℕ → List Byte → (BitVec 24 → Byte) → BitVec 24 → Byte
  | _, [], mem => mem
  | n, b :: bytes, mem => pushed (n + 1) bytes (Function.update mem (r.stackByte n) b)

theorem pushed_past (m : ℕ) (bytes : List Byte) : ∀ (n : ℕ) (mem : BitVec 24 → Byte),
    (r.past m).pushed n bytes mem = r.pushed n bytes mem := by
  induction bytes with
  | nil => exact fun _ _ => rfl
  | cons b bytes ih => exact fun n _ => ih (n + 1) _

theorem pushed_of_ne {a : BitVec 24} (bytes : List Byte) : ∀ (n : ℕ) (mem : BitVec 24 → Byte),
    (∀ k, n ≤ k → k < n + bytes.length → a ≠ r.stackByte k) → r.pushed n bytes mem a = mem a := by
  induction bytes with
  | nil => exact fun _ _ _ => rfl
  | cons b bytes ih =>
    intro n mem h
    rw [List.length_cons] at h
    rw [pushed, ih (n + 1) _ fun k hnk hk => h k (by omega) (by omega)]
    exact Function.update_of_ne (h n (Nat.le_refl n) (by omega)) _ _

/-- A frame holds what was pushed. -/
theorem pushed_stackByte (bytes : List Byte) : ∀ (n : ℕ) (mem : BitVec 24 → Byte),
    n + bytes.length ≤ 256 → ∀ k (hk : k < bytes.length),
    r.pushed n bytes mem (r.stackByte (n + k)) = bytes[k] := by
  induction bytes with
  | nil => exact fun _ _ _ _ hk => absurd hk (Nat.not_lt_zero _)
  | cons b bytes ih =>
    intro n mem hn k hk
    rw [List.length_cons] at hn hk
    rw [pushed]
    cases k with
    | zero =>
      rw [pushed_of_ne]
      · exact Function.update_self _ _ _
      · intro j hnj hj heq
        have := (r.stackByte_inj (by omega) (by omega)).mp heq
        omega
    | succ k =>
      have hbyte := ih (n + 1) (Function.update mem (r.stackByte n) b) (by omega) k (by omega)
      rw [Nat.add_assoc, Nat.add_comm 1] at hbyte
      exact hbyte

end Regs

section Access

variable {σ : Type} {bus : CpuBus σ} {M : bus.Memory} {core : Core Regs σ} {r : Regs}
  {mem : BitVec 24 → Byte}

open CpuBus.Memory

/-! ### Fetches -/

theorem ends_fetch8 {n : ℕ} (h : M.At core (r.past n) mem) (hcode : r.codeByte n ∈ M.cells) :
    M.Ends ((fetch8 bus).run core) (mem (r.codeByte n)) (r.past (n + 1)) mem := by
  have hregs := ends_getRegs h
  have hread := ends_busRead8 hregs.2 hcode
  have hpast := ends_modifyRegs hread.2 fun r => { r with pc := r.pc + 1 }
  rw [Regs.past_succ] at hpast
  exact hregs.bind (hread.bind (hpast.bind (ends_pure hpast.2 _)))

theorem ends_fetch16 {n : ℕ} (h : M.At core (r.past n) mem) (hlo : r.codeByte n ∈ M.cells)
    (hhi : r.codeByte (n + 1) ∈ M.cells) :
    M.Ends ((fetch16 bus).run core) (mem (r.codeByte (n + 1)) ++ mem (r.codeByte n))
      (r.past (n + 2)) mem := by
  have hlow := ends_fetch8 h hlo
  have hhigh := ends_fetch8 hlow.2 hhi
  exact hlow.bind (hhigh.bind (ends_pure hhigh.2 _))

theorem ends_fetch24 {n : ℕ} (h : M.At core (r.past n) mem) (hlo : r.codeByte n ∈ M.cells)
    (hhi : r.codeByte (n + 1) ∈ M.cells) (hbank : r.codeByte (n + 2) ∈ M.cells) :
    M.Ends ((fetch24 bus).run core)
      (mem (r.codeByte (n + 2)) ++ (mem (r.codeByte (n + 1)) ++ mem (r.codeByte n)))
      (r.past (n + 3)) mem := by
  have hlow := ends_fetch16 h hlo hhi
  have hhigh := ends_fetch8 hlow.2 hbank
  exact hlow.bind (hhigh.bind (ends_pure hhigh.2 _))

/-! ### Pushes and pulls -/

theorem ends_push8 {n : ℕ} (h : M.At core (r.down n) mem) (hram : r.stackByte n ∈ M.ram)
    (v : Byte) :
    M.Ends ((push8 bus v).run core) () (r.down (n + 1))
      (Function.update mem (r.stackByte n) v) := by
  have hregs := ends_getRegs h
  have hwrite := ends_busWrite8 hregs.2 hram v
  have hmove := ends_modifyRegs hwrite.2 fun r => moveStack r (r.s - 1)
  rw [Regs.moveStack_push] at hmove
  exact hregs.bind (hwrite.bind hmove)

theorem ends_pull8 {n : ℕ} (h : M.At core (r.down (n + 1)) mem)
    (hcell : r.stackByte n ∈ M.cells) :
    M.Ends ((pull8 bus).run core) (mem (r.stackByte n)) (r.down n) mem := by
  have hmove := ends_modifyRegs h fun r => moveStack r (r.s + 1)
  rw [Regs.moveStack_pull] at hmove
  have hregs := ends_getRegs hmove.2
  exact hmove.bind (hregs.bind (ends_busRead8 hregs.2 hcell))

theorem ends_push16 {n : ℕ} (h : M.At core (r.down n) mem) (hhi : r.stackByte n ∈ M.ram)
    (hlo : r.stackByte (n + 1) ∈ M.ram) (v : BitVec 16) :
    M.Ends ((push16 bus v).run core) () (r.down (n + 2))
      (r.pushed n [(v >>> 8).setWidth 8, v.setWidth 8] mem) := by
  have hhigh := ends_push8 h hhi ((v >>> 8).setWidth 8)
  exact hhigh.bind (ends_push8 hhigh.2 hlo _)

theorem ends_pull16 {n : ℕ} (h : M.At core (r.down (n + 2)) mem)
    (hlo : r.stackByte (n + 1) ∈ M.cells) (hhi : r.stackByte n ∈ M.cells) :
    M.Ends ((pull16 bus).run core) (mem (r.stackByte n) ++ mem (r.stackByte (n + 1)))
      (r.down n) mem := by
  have hlow := ends_pull8 h hlo
  have hhigh := ends_pull8 hlow.2 hhi
  exact hlow.bind (hhigh.bind (ends_pure hhigh.2 _))

/-! In native mode the "new" stack accesses are the "old" ones. -/

theorem run_push8New (he : core.regs.e = false) (v : Byte) :
    (push8New bus v).run core = (push8 bus v).run core := by
  unfold push8New push8 busWrite8
  simp only [run_bind, run_getRegs, run_modifyRegs, regs_busReply, Regs.moveStack_native _ he]

theorem run_pull8New (he : core.regs.e = false) :
    (pull8New bus).run core = (pull8 bus).run core := by
  unfold pull8New pull8
  simp only [run_bind, run_getRegs, run_modifyRegs, Regs.moveStack_native _ he]

theorem ends_push8New {n : ℕ} (h : M.At core (r.down n) mem) (he : r.e = false)
    (hram : r.stackByte n ∈ M.ram) (v : Byte) :
    M.Ends ((push8New bus v).run core) () (r.down (n + 1))
      (Function.update mem (r.stackByte n) v) := by
  rw [run_push8New (by rw [h.regs]; exact he)]
  exact ends_push8 h hram v

theorem ends_pull8New {n : ℕ} (h : M.At core (r.down (n + 1)) mem) (he : r.e = false)
    (hcell : r.stackByte n ∈ M.cells) :
    M.Ends ((pull8New bus).run core) (mem (r.stackByte n)) (r.down n) mem := by
  rw [run_pull8New (by rw [h.regs]; exact he)]
  exact ends_pull8 h hcell

theorem ends_push16New {n : ℕ} (h : M.At core (r.down n) mem) (he : r.e = false)
    (hhi : r.stackByte n ∈ M.ram) (hlo : r.stackByte (n + 1) ∈ M.ram) (v : BitVec 16) :
    M.Ends ((push16New bus v).run core) () (r.down (n + 2))
      (r.pushed n [(v >>> 8).setWidth 8, v.setWidth 8] mem) := by
  have hhigh := ends_push8New h he hhi ((v >>> 8).setWidth 8)
  exact hhigh.bind (ends_push8New hhigh.2 he hlo _)

theorem ends_pull16New {n : ℕ} (h : M.At core (r.down (n + 2)) mem) (he : r.e = false)
    (hlo : r.stackByte (n + 1) ∈ M.cells) (hhi : r.stackByte n ∈ M.cells) :
    M.Ends ((pull16New bus).run core) (mem (r.stackByte n) ++ mem (r.stackByte (n + 1)))
      (r.down n) mem := by
  have hlow := ends_pull8New h he hlo
  have hhigh := ends_pull8New hlow.2 he hhi
  exact hlow.bind (hhigh.bind (ends_pure hhigh.2 _))

end Access

end W65C816

end ScpuEmu
