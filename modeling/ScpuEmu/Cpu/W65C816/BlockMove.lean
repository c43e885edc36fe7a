import ScpuEmu.Cpu.W65C816.RoundTrips
import ScpuEmu.Cpu.W65C816.Reachable

/-!
# Block moves

MVN and MVP copy one byte an execution and stay on their opcode until the count has
run out. The move of a block is the run of these executions. An interrupt between
two of them finds the whole state of the move in the registers.
-/

namespace ScpuEmu

namespace W65C816

open Library

/-! ### The copy of a block -/

/-- An index register of a block move after `k` bytes, in its width. -/
def Regs.indexAt (r : Regs) (up : Bool) (v : BitVec 16) (k : ℕ) : BitVec 16 :=
  r.narrow (if up then v + BitVec.ofNat 16 k else v - BitVec.ofNat 16 k)

/-- The banks of a block move. -/
structure Banks where
  target : Byte
  source : Byte

namespace Banks

variable (banks : Banks) (r : Regs) (up : Bool)

def sourceAt (k : ℕ) : BitVec 24 := banks.source ++ r.indexAt up r.x k

def targetAt (k : ℕ) : BitVec 24 := banks.target ++ r.indexAt up r.y k

/-- The memory after `k` copies of a byte, one after the other. -/
def copied (mem : BitVec 24 → Byte) : ℕ → BitVec 24 → Byte
  | 0 => mem
  | k + 1 => Function.update (copied mem k) (banks.targetAt r up k)
      (copied mem k (banks.sourceAt r up k))

theorem copied_of_ne {mem : BitVec 24 → Byte} {a : BitVec 24} {k : ℕ}
    (ha : ∀ j < k, a ≠ banks.targetAt r up j) : banks.copied r up mem k a = mem a := by
  induction k with
  | zero => rfl
  | succ k ih =>
    rw [copied, Function.update_of_ne (ha k (Nat.lt_succ_self k))]
    exact ih fun j hj => ha j (Nat.lt_succ_of_lt hj)

end Banks

/-! ### The registers in the course of a move -/

namespace Regs

variable (r : Regs) (up : Bool)

/-- The registers after `k` bytes. -/
def moved (target : Byte) (k : ℕ) : Regs :=
  { r with
    c := r.c - BitVec.ofNat 16 k
    x := if k = 0 then r.x else r.indexAt up r.x k
    y := if k = 0 then r.y else r.indexAt up r.y k
    dbr := if k = 0 then r.dbr else target
    pc := if k ≤ r.c.toNat then r.pc else r.pc + 3 }

/-- The registers after the last byte. -/
def afterMove (target : Byte) : Regs :=
  { r with
    c := 0xFFFF
    x := r.indexAt up r.x (r.c.toNat + 1)
    y := r.indexAt up r.y (r.c.toNat + 1)
    dbr := target
    pc := r.pc + 3 }

theorem narrow_congr {v w : BitVec 16} (h : r.narrow v = r.narrow w) :
    r.narrow (blockStep up v) = r.narrow (blockStep up w) := by
  unfold narrow at h ⊢
  split at h
  next hx =>
    rw [if_pos hx, if_pos hx]
    have hlow : v.toNat % 2 ^ 8 = w.toNat % 2 ^ 8 := by
      rw [← toNat_and_low, ← toNat_and_low, h]
    clear h
    apply BitVec.eq_of_toNat_eq
    rw [toNat_and_low, toNat_and_low]
    cases up with
    | true =>
      show (v + 1).toNat % 2 ^ 8 = (w + 1).toNat % 2 ^ 8
      bv_omega
    | false =>
      show (v - 1).toNat % 2 ^ 8 = (w - 1).toNat % 2 ^ 8
      bv_omega
  next => rw [h]

theorem narrow_narrow (v : BitVec 16) : r.narrow (r.narrow v) = r.narrow v := by
  unfold narrow
  split
  · rw [BitVec.and_assoc, BitVec.and_self]
  · rfl

theorem indexAt_succ (v : BitVec 16) (k : ℕ) :
    r.indexAt up v (k + 1) = r.narrow (blockStep up (r.indexAt up v k)) := by
  have hstep : (if up then v + BitVec.ofNat 16 (k + 1) else v - BitVec.ofNat 16 (k + 1)) =
      blockStep up (if up then v + BitVec.ofNat 16 k else v - BitVec.ofNat 16 k) := by
    cases up with
    | true =>
      show v + BitVec.ofNat 16 (k + 1) = v + BitVec.ofNat 16 k + 1
      bv_omega
    | false =>
      show v - BitVec.ofNat 16 (k + 1) = v - BitVec.ofNat 16 k - 1
      bv_omega
  rw [indexAt, indexAt, hstep]
  exact narrow_congr r up (narrow_narrow r _).symm

theorem indexAt_zero (v : BitVec 16) : r.indexAt up v 0 = r.narrow v := by
  cases up <;> simp only [indexAt, BitVec.add_zero, BitVec.sub_zero, ite_self]

theorem moved_zero (target : Byte) : r.moved up target 0 = r := by
  simp only [moved, BitVec.sub_zero, if_true, Nat.zero_le]

/-- An index register is read in its width, so a move can start from any contents. -/
theorem narrow_index (v : BitVec 16) (k : ℕ) :
    r.narrow (if k = 0 then v else r.indexAt up v k) = r.indexAt up v k := by
  split
  next hk => rw [hk, indexAt_zero]
  next => exact narrow_narrow r _

theorem narrow_blockStep (v : BitVec 16) (k : ℕ) :
    r.narrow (blockStep up (if k = 0 then v else r.indexAt up v k)) = r.indexAt up v (k + 1) := by
  rw [indexAt_succ]
  apply narrow_congr
  rw [narrow_index]
  exact (narrow_narrow r _).symm

/-- One more byte: the program counter goes back to the opcode, unless the count ran out. -/
theorem finishMove_moved (target : Byte) {k : ℕ} (hk : k ≤ r.c.toNat) :
    ((r.moved up target k).past 3).finishMove up target = r.moved up target (k + 1) := by
  have hc : r.c - BitVec.ofNat 16 k - 1 = r.c - BitVec.ofNat 16 (k + 1) := by bv_omega
  have hpc : (if r.c - BitVec.ofNat 16 k - 1 != 0xFFFF then
      (if k ≤ r.c.toNat then r.pc else r.pc + 3) + 3 - 3
      else (if k ≤ r.c.toNat then r.pc else r.pc + 3) + 3) =
      if k + 1 ≤ r.c.toNat then r.pc else r.pc + 3 := by
    have hlast : (r.c - BitVec.ofNat 16 k - 1 != 0xFFFF) = true ↔ k + 1 ≤ r.c.toNat := by
      rw [bne_iff_ne]
      bv_omega
    rw [if_pos hk, BitVec.add_sub_cancel]
    exact if_congr hlast rfl rfl
  exact Regs.ext hc (narrow_blockStep r up r.x k) (narrow_blockStep r up r.y k) rfl rfl hpc rfl
    rfl rfl rfl rfl rfl rfl

theorem moved_total (target : Byte) :
    r.moved up target (r.c.toNat + 1) = r.afterMove up target := by
  have hc : r.c - BitVec.ofNat 16 (r.c.toNat + 1) = 0xFFFF := by bv_omega
  exact Regs.ext hc rfl rfl rfl rfl (if_neg (Nat.not_succ_le_self _)) rfl rfl rfl rfl rfl rfl rfl

end Regs

/-! ### One execution -/

section Access

open CpuBus.Memory

variable {σ : Type} {bus : CpuBus σ} {M : bus.Memory} {core : Core Regs σ} {r : Regs}
  {mem : BitVec 24 → Byte}

theorem ends_execBlockMove (up : Bool) (h : M.At core (r.past 1) mem)
    (hfirst : r.codeByte 1 ∈ M.cells) (hsecond : r.codeByte 2 ∈ M.cells)
    (hsource : mem (r.codeByte 2) ++ r.getX ∈ M.cells)
    (htarget : mem (r.codeByte 1) ++ r.getY ∈ M.ram) :
    M.Ends ((execBlockMove bus up).run core) ()
      ((r.past 3).finishMove up (mem (r.codeByte 1)))
      (Function.update mem (mem (r.codeByte 1) ++ r.getY)
        (mem (mem (r.codeByte 2) ++ r.getX))) := by
  have hdst := ends_fetch8 h hfirst
  have hsrc := ends_fetch8 hdst.2 hsecond
  have hregs := ends_getRegs hsrc.2
  have hread := ends_busRead8 hregs.2 hsource
  have hwrite := ends_busWrite8 hread.2 htarget (mem (mem (r.codeByte 2) ++ r.getX))
  have hfinish := ends_modifyRegs hwrite.2 fun r' => r'.finishMove up (mem (r.codeByte 1))
  exact hdst.bind (hsrc.bind (hregs.bind (hread.bind (hwrite.bind hfinish))))

end Access

/-- MVN counts up and MVP down. -/
def moveOpcode (up : Bool) : Byte := if up then 0x54 else 0x44

theorem decode_moveOpcode (up : Bool) : decode (moveOpcode up) = .blockMove up := by
  cases up <;> rfl

theorem cyclesUsed_moveOpcode (up : Bool) (cycKey : Byte) :
    cyclesUsed cycKey (moveOpcode up) noPenalty = 7 := by
  revert up cycKey
  decide +kernel

namespace Cpu

open CpuBus.Memory

variable {σ : Type} {bus : CpuBus σ} {M : bus.Memory} {cpu : Cpu σ}

/-- The banks that follow the opcode. -/
def banks (cpu : Cpu σ) (M : bus.Memory) : Banks where
  target := M.byte cpu.core.bus (cpu.regs.codeByte 1)
  source := M.byte cpu.core.bus (cpu.regs.codeByte 2)

theorem execInstr_moveOpcode (up m8 x8 : Bool) :
    execInstr bus m8 x8 (decode (moveOpcode up)) = unpenalised (execBlockMove bus up) := by
  rw [decode_moveOpcode]
  rfl

theorem fastSwitch_moveOpcode (up : Bool) : fastSwitch bus (moveOpcode up) = none := by
  cases up <;> rfl

theorem at_blockMove {up : Bool} (hnext : cpu.Before M (moveOpcode up) 3)
    (hsource : (cpu.banks M).source ++ cpu.regs.getX ∈ M.cells)
    (htarget : (cpu.banks M).target ++ cpu.regs.getY ∈ M.ram) :
    M.At (cpu.dispatch bus).2.core ((cpu.regs.past 3).finishMove up (cpu.banks M).target)
      (Function.update (M.byte cpu.core.bus) ((cpu.banks M).target ++ cpu.regs.getY)
        (M.byte cpu.core.bus ((cpu.banks M).source ++ cpu.regs.getX))) := by
  obtain ⟨core, hcore, heq⟩ := dispatch_core hnext (Or.inr (fastSwitch_moveOpcode up))
    (execInstr_moveOpcode up)
  rw [heq]
  exact (ends_execBlockMove up hcore (hnext.cells 1 (by decide)) (hnext.cells 2 (by decide))
    hsource htarget).2

theorem cycles_blockMove {up : Bool} (hnext : cpu.Before M (moveOpcode up) 3) :
    (cpu.dispatch bus).2.cycles = cpu.cycles + 7 := by
  obtain ⟨core, -, hrun⟩ := run_fetchExec hnext (Or.inr (fastSwitch_moveOpcode up))
    (execInstr_moveOpcode up)
  have hused : ((fetchExec bus).run cpu.core).1.2 = 7 := by
    rw [hrun]
    exact cyclesUsed_moveOpcode up _
  show (park _ _).cycles + ((fetchExec bus).run cpu.core).1.2 = _
  rw [hused]
  congr 1
  cases decode _ <;> rfl

/-! ### The run of a move -/

/-- A block move can start: the bytes it reads are memory, those it writes are plain RAM, and
none of the latter belongs to the instruction. -/
structure CanMove (cpu : Cpu σ) (M : bus.Memory) (up : Bool) : Prop where
  before : cpu.Before M (moveOpcode up) 3
  source : ∀ k ≤ cpu.regs.c.toNat, (cpu.banks M).sourceAt cpu.regs up k ∈ M.cells
  target : ∀ k ≤ cpu.regs.c.toNat, (cpu.banks M).targetAt cpu.regs up k ∈ M.ram
  apart : ∀ k ≤ cpu.regs.c.toNat, ∀ j < 3,
    (cpu.banks M).targetAt cpu.regs up k ≠ cpu.regs.codeByte j

/-- `now` is the state of the move of `start` after `k` bytes, but for some bytes elsewhere. -/
structure Moving (start : Cpu σ) (M : bus.Memory) (up : Bool) (elsewhere : Set (BitVec 24))
    (k : ℕ) (now : Cpu σ) : Prop where
  regs : now.regs = start.regs.moved up (start.banks M).target k
  byte : ∀ a ∈ M.cells, a ∉ elsewhere →
    M.byte now.core.bus a = (start.banks M).copied start.regs up (M.byte start.core.bus) k a

section Run

variable {start : Cpu σ} {up : Bool} {elsewhere : Set (BitVec 24)} {k : ℕ}

/-- What the execution after `k` bytes reads is not elsewhere. -/
structure Legible (start : Cpu σ) (M : bus.Memory) (up : Bool) (elsewhere : Set (BitVec 24))
    (k : ℕ) : Prop where
  source : (start.banks M).sourceAt start.regs up k ∉ elsewhere
  code : ∀ j < 3, start.regs.codeByte j ∉ elsewhere

/-- The instruction is whole until its move is over. -/
theorem Moving.codeByte (hcan : start.CanMove M up) (hlegible : start.Legible M up elsewhere k)
    (hnow : start.Moving M up elsewhere k cpu) (hk : k ≤ start.regs.c.toNat) {j : ℕ} (hj : j < 3) :
    cpu.regs.codeByte j = start.regs.codeByte j ∧
      M.byte cpu.core.bus (start.regs.codeByte j) =
        M.byte start.core.bus (start.regs.codeByte j) := by
  refine ⟨?_, ?_⟩
  · have hpc : cpu.regs.pc = start.regs.pc := by
      rw [hnow.regs]
      exact if_pos hk
    have hpbr : cpu.regs.pbr = start.regs.pbr := by
      rw [hnow.regs]
      rfl
    rw [Regs.codeByte, Regs.codeByte, hpc, hpbr]
  · rw [hnow.byte _ (hcan.before.cells j hj) (hlegible.code j hj)]
    exact Banks.copied_of_ne _ _ _ fun i hi =>
      (hcan.apart i (Nat.le_trans (Nat.le_of_lt hi) hk) j hj).symm

theorem Moving.before (hcan : start.CanMove M up) (hlegible : start.Legible M up elsewhere k)
    (hnow : start.Moving M up elsewhere k cpu) (hk : k ≤ start.regs.c.toNat) :
    cpu.Before M (moveOpcode up) 3 ∧ cpu.banks M = start.banks M := by
  have hcode {j : ℕ} (hj : j < 3) := hnow.codeByte hcan hlegible hk hj
  refine ⟨⟨fun j hj => ?_, ?_⟩, ?_⟩
  · rw [(hcode hj).1]
    exact hcan.before.cells j hj
  · rw [(hcode (by decide)).1, (hcode (by decide)).2]
    exact hcan.before.opcode
  · rw [banks, (hcode (by decide)).1, (hcode (by decide)).2, (hcode (by decide)).1,
      (hcode (by decide)).2]
    rfl

/-- One execution copies the next byte. -/
theorem Moving.dispatch (hcan : start.CanMove M up) (hlegible : start.Legible M up elsewhere k)
    (hnow : start.Moving M up elsewhere k cpu) (hk : k ≤ start.regs.c.toNat) :
    start.Moving M up elsewhere (k + 1) (cpu.dispatch bus).2 := by
  obtain ⟨hbefore, hbanks⟩ := hnow.before hcan hlegible hk
  have hsource : (cpu.banks M).source ++ cpu.regs.getX =
      (start.banks M).sourceAt start.regs up k := by
    rw [hbanks, hnow.regs]
    exact congrArg _ (Regs.narrow_index start.regs up start.regs.x k)
  have htarget : (cpu.banks M).target ++ cpu.regs.getY =
      (start.banks M).targetAt start.regs up k := by
    rw [hbanks, hnow.regs]
    exact congrArg _ (Regs.narrow_index start.regs up start.regs.y k)
  have hdone := at_blockMove hbefore (hsource ▸ hcan.source k hk) (htarget ▸ hcan.target k hk)
  rw [hsource, htarget, hbanks, hnow.regs, Regs.finishMove_moved _ _ _ hk] at hdone
  refine ⟨hdone.regs, fun a ha hout => ?_⟩
  have hread := hnow.byte _ (hcan.source k hk) hlegible.source
  rw [hdone.byte a ha, Banks.copied, hread, Function.update_apply, Function.update_apply,
    hnow.byte a ha hout]

/-- Run `n` executions. -/
def executions (bus : CpuBus σ) (n : ℕ) (cpu : Cpu σ) : Cpu σ :=
  (fun cpu => (cpu.dispatch bus).2)^[n] cpu

theorem executions_succ (n : ℕ) (cpu : Cpu σ) :
    executions bus (n + 1) cpu = ((executions bus n cpu).dispatch bus).2 :=
  Function.iterate_succ_apply' _ _ _

theorem moving_zero (start : Cpu σ) (M : bus.Memory) (up : Bool) (elsewhere : Set (BitVec 24)) :
    start.Moving M up elsewhere 0 start :=
  ⟨(start.regs.moved_zero up _).symm, fun _ _ _ => rfl⟩

theorem moving_executions (hcan : start.CanMove M up) (hk : k ≤ start.regs.c.toNat + 1) :
    start.Moving M up ∅ k (executions bus k start) ∧
      (executions bus k start).cycles = start.cycles + 7 * k := by
  have hlegible (k : ℕ) : start.Legible M up ∅ k := ⟨id, fun _ _ => id⟩
  induction k with
  | zero => exact ⟨moving_zero start M up ∅, rfl⟩
  | succ k ih =>
    obtain ⟨hnow, hcycles⟩ := ih (Nat.le_of_succ_le hk)
    have hlast : k ≤ start.regs.c.toNat := Nat.le_of_succ_le_succ hk
    rw [executions_succ]
    refine ⟨hnow.dispatch hcan (hlegible k) hlast, ?_⟩
    rw [cycles_blockMove (hnow.before hcan (hlegible k) hlast).1, hcycles, Nat.mul_succ,
      Nat.add_assoc]

/-! ### Interrupts between the bytes -/

/-- `resumed` is a state after `cpu` has taken a hardware interrupt and its handler has
returned. The frame and the bytes that the handler changes lie `elsewhere`. -/
inductive Interruption (M : bus.Memory) (elsewhere : Set (BitVec 24)) (cpu : Cpu σ) :
    Cpu σ → Prop
  | rti (entry : Entry) (handled : Cpu σ) (hardware : entry.opcode = none)
      (canEnter : cpu.CanEnter M entry)
      (frame : ∀ k < cpu.regs.frameLength, cpu.regs.stackByte k ∈ elsewhere)
      (returns : cpu.Handled M (entry.enter bus cpu) handled)
      (keeps : ∀ a ∈ M.cells, a ∉ elsewhere →
        M.byte handled.core.bus a = M.byte (entry.enter bus cpu).core.bus a) :
      Interruption M elsewhere cpu (handled.dispatch bus).2

/-- `final` is a state after `n` executions from `cpu`, with interrupts before any of them. An
interrupt with `n` executions still to come touches bytes of `elsewhere n`. -/
inductive InterruptedRun (M : bus.Memory) (elsewhere : ℕ → Set (BitVec 24)) :
    ℕ → Cpu σ → Cpu σ → Prop
  | done (cpu : Cpu σ) : InterruptedRun M elsewhere 0 cpu cpu
  | execute {n : ℕ} {cpu final : Cpu σ} :
      InterruptedRun M elsewhere n (cpu.dispatch bus).2 final →
      InterruptedRun M elsewhere (n + 1) cpu final
  | interrupt {n : ℕ} {cpu resumed final : Cpu σ} :
      Interruption M (elsewhere n) cpu resumed → InterruptedRun M elsewhere n resumed final →
      InterruptedRun M elsewhere n cpu final

/-- The interrupts of a move touch no byte that it writes, none that is still to be copied and,
until it is over, none of the instruction. -/
structure Apart (start : Cpu σ) (M : bus.Memory) (up : Bool) (elsewhere : ℕ → Set (BitVec 24)) :
    Prop where
  source : ∀ k ≤ start.regs.c.toNat, ∀ n, start.regs.c.toNat < k + n →
    (start.banks M).sourceAt start.regs up k ∉ elsewhere n
  target : ∀ k ≤ start.regs.c.toNat, ∀ n,
    (start.banks M).targetAt start.regs up k ∉ elsewhere n
  code : ∀ j < 3, ∀ n, 0 < n → start.regs.codeByte j ∉ elsewhere n

/-- What interrupts may have touched when `n` executions are still to come. -/
def touched (elsewhere : ℕ → Set (BitVec 24)) (n : ℕ) : Set (BitVec 24) :=
  {a | ∃ m, n ≤ m ∧ a ∈ elsewhere m}

theorem Apart.legible {elsewhere : ℕ → Set (BitVec 24)} (hapart : start.Apart M up elsewhere)
    {n : ℕ} (hk : k ≤ start.regs.c.toNat) (hn : start.regs.c.toNat < k + n) :
    start.Legible M up (touched elsewhere n) k where
  source := by
    rintro ⟨m, hm, hmem⟩
    exact hapart.source k hk m (by omega) hmem
  code j hj := by
    rintro ⟨m, hm, hmem⟩
    exact hapart.code j hj m (by omega) hmem

theorem Moving.mono {elsewhere' : Set (BitVec 24)} (hnow : start.Moving M up elsewhere k cpu)
    (hsub : elsewhere ⊆ elsewhere') : start.Moving M up elsewhere' k cpu :=
  ⟨hnow.regs, fun a ha hout => hnow.byte a ha fun hmem => hout (hsub hmem)⟩

theorem Interruption.mono {elsewhere' : Set (BitVec 24)} {resumed : Cpu σ}
    (h : Interruption M elsewhere cpu resumed) (hsub : elsewhere ⊆ elsewhere') :
    Interruption M elsewhere' cpu resumed := by
  obtain ⟨entry, handled, hhardware, hcan, hframe, hhandled, hkeeps⟩ := h
  exact .rti entry handled hhardware hcan (fun k hk => hsub (hframe k hk)) hhandled
    fun a ha hout => hkeeps a ha fun hmem => hout (hsub hmem)

/-- The interrupted move goes on where it was. -/
theorem Moving.interruption (hwidths : WidthInv cpu.regs) (hnative : cpu.regs.e = false)
    (hnow : start.Moving M up elsewhere k cpu) {resumed : Cpu σ}
    (hresumed : Interruption M elsewhere cpu resumed) :
    start.Moving M up elsewhere k resumed ∧ resumed.regs = cpu.regs := by
  obtain ⟨entry, handled, hhardware, hcan, hframe, hhandled, hkeeps⟩ := hresumed
  have hmode : cpu.regs.e = true → cpu.regs.pbr = 0 ∧ entry.opcode = none := by
    rw [hnative]
    exact fun h => absurd h Bool.false_ne_true
  have hback := at_rti hwidths hcan hmode hhandled
  have hlength : entry.length = 0 := by
    rw [Entry.length, hhardware]
    rfl
  rw [hlength, Regs.past_zero] at hback
  refine ⟨⟨?_, fun a ha hout => ?_⟩, hback.regs⟩
  · rw [← hnow.regs]
    exact hback.regs
  · obtain ⟨target, hentered⟩ := at_enter hwidths hcan
    rw [hback.byte a ha, hkeeps a ha hout, hentered.byte a ha, ← hnow.byte a ha hout]
    apply Regs.pushed_of_ne
    intro j _ hj heq
    rw [Regs.length_frame, Nat.zero_add] at hj
    exact hout (heq ▸ hframe j hj)

theorem moving_interruptedRun {elsewhere : ℕ → Set (BitVec 24)} (hcan : start.CanMove M up)
    (hapart : start.Apart M up elsewhere) (hnative : start.regs.e = false) {n : ℕ} {final : Cpu σ}
    (hrun : InterruptedRun M elsewhere n cpu final) : ∀ k, k + n = start.regs.c.toNat + 1 →
    WidthInv cpu.regs → start.Moving M up (touched elsewhere n) k cpu →
    start.Moving M up (touched elsewhere 0) (start.regs.c.toNat + 1) final := by
  induction hrun with
  | done cpu =>
    intro k hk _ hnow
    rw [← hk]
    exact hnow
  | execute _ ih =>
    intro k hk hwidths hnow
    have hlast : k ≤ start.regs.c.toNat := by omega
    have hnext := hnow.dispatch hcan (hapart.legible hlast (by omega)) hlast
    refine ih (k + 1) (by omega) (widthInv_dispatch bus hwidths) (hnext.mono ?_)
    rintro a ⟨m, hm, hmem⟩
    exact ⟨m, Nat.le_of_succ_le hm, hmem⟩
  | @interrupt n cpu _ _ hresumed _ ih =>
    intro k hk hwidths hnow
    have hmode : cpu.regs.e = false := by
      rw [hnow.regs]
      exact hnative
    have htouched : elsewhere n ⊆ touched elsewhere n := fun a ha => ⟨n, le_rfl, ha⟩
    obtain ⟨hmoving, hregs⟩ := hnow.interruption hwidths hmode (hresumed.mono htouched)
    exact ih k hk (hregs ▸ hwidths) hmoving

end Run

/-- A block move makes `C + 1` copies of a byte, in order and one an execution, and is then
past its operands. Interrupts between its bytes change neither the registers it ends with nor
the moved bytes, as long as neither their frames nor their handlers write the instruction, a
byte that is still to be copied or one that the move writes. -/
theorem block_move_completes (M : bus.Memory) (up : Bool) (cpu : Cpu σ)
    (hcan : cpu.CanMove M up) :
    let count := cpu.regs.c.toNat + 1
    let moved := (cpu.banks M).copied cpu.regs up (M.byte cpu.core.bus)
    let done := cpu.regs.afterMove up (cpu.banks M).target
    (∀ k < count, (executions bus k cpu).regs.pc = cpu.regs.pc ∧
      ∀ a ∈ M.cells, M.byte (executions bus k cpu).core.bus a = moved k a) ∧
    (executions bus count cpu).regs = done ∧
    (∀ a ∈ M.cells, M.byte (executions bus count cpu).core.bus a = moved count a) ∧
    (executions bus count cpu).cycles = cpu.cycles + 7 * count ∧
    (WidthInv cpu.regs → cpu.regs.e = false → ∀ elsewhere, cpu.Apart M up elsewhere →
      ∀ final, InterruptedRun M elsewhere count cpu final →
        final.regs = done ∧
          ∀ a ∈ M.cells, (∀ n, a ∉ elsewhere n) → M.byte final.core.bus a = moved count a) := by
  intro count moved done
  have hmoving (k : ℕ) (hk : k ≤ count) := @moving_executions _ bus _ _ _ k hcan hk
  refine ⟨fun k hk => ?_, ?_, ?_, (hmoving count le_rfl).2, ?_⟩
  · have hnow := (hmoving k (Nat.le_of_lt hk)).1
    refine ⟨?_, fun a ha => hnow.byte a ha id⟩
    rw [hnow.regs]
    exact if_pos (Nat.le_of_lt_succ hk)
  · exact (hmoving count le_rfl).1.regs.trans (Regs.moved_total _ _ _)
  · exact fun a ha => (hmoving count le_rfl).1.byte a ha id
  · intro hwidths hnative elsewhere hapart final hrun
    have hfinal := moving_interruptedRun hcan hapart hnative hrun 0 (Nat.zero_add _) hwidths
      (moving_zero cpu M up _)
    refine ⟨hfinal.regs.trans (Regs.moved_total _ _ _), fun a ha hout => hfinal.byte a ha ?_⟩
    rintro ⟨m, -, hmem⟩
    exact hout m hmem

/-- A move of two bytes from `$0001FE` to bank 3, with the stack pointer at `s` and an IRQ
handler that is nothing but an RTI. -/
def moveTwo (s : BitVec 16) : Cpu FlatMemory :=
  let mem : BitVec 24 → Byte := fun a =>
    if a = 0x020000 then 0x54 else if a = 0x020001 then 0x03
    else if a = 0x00FFEF then 0x80 else if a = 0x008000 then 0x40
    else if a = 0x0001FF then 0x55 else 0x00
  let cpu := onFlatBus mem 0x02 0x0000 s
  { cpu with core.regs.c := 1, core.regs.x := 0x01FE, core.regs.y := 0 }

/-- The frame of the interrupt lies on the byte that has been copied. -/
theorem block_move_completes_two :
    let start := moveTwo 0x01FE
    let entered := ((executions flatBus 1 start).takeIRQ flatBus).2
    (executions flatBus 2 start).regs = start.regs.afterMove true 0x03 ∧
      (executions flatBus 2 entered).regs = start.regs.afterMove true 0x03 := by
  intro start entered
  have hcan : start.CanMove flatMemory true :=
    ⟨⟨fun _ _ => trivial, by decide +kernel⟩, fun _ _ => trivial, fun _ _ => trivial,
      by decide +kernel⟩
  let frame : List (BitVec 24) := (List.range 4).map start.regs.stackByte
  let elsewhere : ℕ → Set (BitVec 24) := fun n => {a | n = 1 ∧ a ∈ frame}
  have hapart : start.Apart flatMemory true elsewhere := by
    have hsource : ∀ k ≤ start.regs.c.toNat, start.regs.c.toNat < k + 1 →
        (start.banks flatMemory).sourceAt start.regs true k ∉ frame := by decide +kernel
    have htarget : ∀ k ≤ start.regs.c.toNat,
        (start.banks flatMemory).targetAt start.regs true k ∉ frame := by decide +kernel
    have hcode : ∀ j < 3, start.regs.codeByte j ∉ frame := by decide +kernel
    constructor
    · rintro k hk n hn ⟨rfl, hmem⟩
      exact hsource k hk hn hmem
    · rintro k hk n ⟨-, hmem⟩
      exact htarget k hk hmem
    · rintro j hj n - ⟨-, hmem⟩
      exact hcode j hj hmem
  have hcanEnter : (executions flatBus 1 start).CanEnter flatMemory .irq :=
    ⟨fun _ h => absurd h (Option.not_mem_none _), trivial, trivial, fun _ _ => trivial⟩
  have hhandled : (executions flatBus 1 start).Handled flatMemory entered entered :=
    ⟨⟨⟨fun _ _ => trivial, by decide +kernel⟩, rfl, rfl, fun _ _ => rfl⟩, rfl, rfl, rfl, rfl, rfl,
      fun _ => rfl⟩
  have hframe : ∀ k < (executions flatBus 1 start).regs.frameLength,
      (executions flatBus 1 start).regs.stackByte k ∈ elsewhere 1 := by
    have hstack : ∀ k < (executions flatBus 1 start).regs.frameLength,
        (executions flatBus 1 start).regs.stackByte k ∈ frame := by decide +kernel
    exact fun k hk => ⟨rfl, hstack k hk⟩
  have hwidths : WidthInv start.regs :=
    ⟨by decide +kernel, by decide +kernel, by decide +kernel, by decide +kernel,
      by decide +kernel, by decide +kernel⟩
  have htarget : (start.banks flatMemory).target = 0x03 := by decide +kernel
  have hrun : InterruptedRun flatMemory elsewhere 2 start (executions flatBus 2 entered) :=
    .execute (.interrupt (.rti .irq entered rfl hcanEnter hframe hhandled fun _ _ _ => rfl)
      (.execute (.done _)))
  have hmove := block_move_completes flatMemory true start hcan
  rw [htarget] at hmove
  obtain ⟨-, hregs, -, -, hinterrupted⟩ := hmove
  exact ⟨hregs, (hinterrupted hwidths rfl elsewhere hapart _ hrun).1⟩

/-- With the stack pointer on the last byte of the source, the frame of an interrupt replaces
that byte before it is copied. The moved bytes lie in bank 3, where there is nothing else. -/
theorem interrupt_changes_source :
    let start := moveTwo 0x01FF
    let halfway := executions flatBus 1 start
    let entered := (halfway.takeIRQ flatBus).2
    let final := executions flatBus 2 entered
    start.CanMove flatMemory true ∧
      (∀ k ≤ start.regs.c.toNat, (start.banks flatMemory).targetAt start.regs true k ∉
        0x008000 :: 0x00FFEE :: 0x00FFEF :: (List.range 4).map start.regs.stackByte) ∧
      halfway.Handled flatMemory entered entered ∧
      flatMemory.byte final.core.bus 0x030001 = 0x02 ∧
      flatMemory.byte (executions flatBus 2 start).core.bus 0x030001 = 0x55 := by
  refine ⟨⟨⟨fun _ _ => trivial, by decide +kernel⟩, fun _ _ => trivial, fun _ _ => trivial,
    by decide +kernel⟩, by decide +kernel, ?_, by decide +kernel, by decide +kernel⟩
  exact ⟨⟨⟨fun _ _ => trivial, by decide +kernel⟩, rfl, rfl, fun _ _ => rfl⟩, rfl, rfl, rfl, rfl,
    rfl, fun _ => rfl⟩

end Cpu

end W65C816

end ScpuEmu
