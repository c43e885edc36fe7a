import ScpuEmu.Cpu.W65C816.CallFrames

/-!
# Calls, interrupts and their returns

What a subroutine call or an interrupt puts on the stack, the matching return takes
back. In native mode this holds for any stack pointer and in any bank; in emulation
mode the bank is not saved, so it holds for code in bank 0.
-/

namespace ScpuEmu

namespace W65C816

open Library

/-! ### Steps of the processor -/

namespace Cpu

open CpuBus.Memory

variable {σ : Type} {bus : CpuBus σ} {M : bus.Memory} {cpu : Cpu σ} {r : Regs}
  {mem : BitVec 24 → Byte}

/-- The instruction `opcode`, `length` bytes long, comes next. -/
structure Before (cpu : Cpu σ) (M : bus.Memory) (opcode : Byte) (length : ℕ) : Prop where
  cells : ∀ k < length, cpu.regs.codeByte k ∈ M.cells
  opcode : M.byte cpu.core.bus (cpu.regs.codeByte 0) = opcode

theorem run_execOpcode_plain {opcode : Byte} {core : Core Regs σ}
    (hplain : core.regs.e = false ∨ fastSwitch bus opcode = none) :
    (execOpcode bus opcode).run core = (execGeneric bus opcode).run core := by
  show (if core.regs.e then (fastSwitch bus opcode).getD (execGeneric bus opcode)
    else execGeneric bus opcode).run core = _
  split
  next he =>
    rw [hplain.resolve_left (by rw [he]; exact Bool.true_eq_false.mp)]
    rfl
  next => rfl

/-- An instruction of the generic switch runs after its opcode is fetched. -/
theorem run_fetchExec {opcode : Byte} {length : ℕ} (hnext : cpu.Before M opcode (length + 1))
    (hplain : cpu.regs.e = false ∨ fastSwitch bus opcode = none) {m : CoreM Regs σ Unit}
    (hm : ∀ m8 x8, execInstr bus m8 x8 (decode opcode) = unpenalised m) :
    ∃ core, M.At core (cpu.regs.past 1) (M.byte cpu.core.bus) ∧
      (fetchExec bus).run cpu.core =
        ((opcode, cyclesUsed core.regs.cycKey opcode noPenalty), (m.run core).2) := by
  have hself : M.At cpu.core (cpu.regs.past 0) (M.byte cpu.core.bus) := by
    rw [Regs.past_zero]
    exact at_self M cpu.core
  obtain ⟨hvalue, hfetched⟩ := ends_fetch8 hself (hnext.cells 0 (Nat.succ_pos length))
  have he : ((fetch8 bus).run cpu.core).2.regs.e = cpu.regs.e := by rw [hfetched.regs]; rfl
  refine ⟨_, hfetched, ?_⟩
  unfold fetchExec
  rw [run_bind, hvalue, hnext.opcode, run_bind, run_execOpcode_plain (by rw [he]; exact hplain)]
  unfold execGeneric
  rw [run_bind, run_getRegs, run_bind, hm]
  rfl

theorem dispatch_core {opcode : Byte} {length : ℕ} (hnext : cpu.Before M opcode (length + 1))
    (hplain : cpu.regs.e = false ∨ fastSwitch bus opcode = none) {m : CoreM Regs σ Unit}
    (hm : ∀ m8 x8, execInstr bus m8 x8 (decode opcode) = unpenalised m) :
    ∃ core, M.At core (cpu.regs.past 1) (M.byte cpu.core.bus) ∧
      (cpu.dispatch bus).2.core = (m.run core).2 := by
  obtain ⟨core, hcore, hrun⟩ := run_fetchExec hnext hplain hm
  refine ⟨core, hcore, ?_⟩
  show (park _ _).core = _
  rw [core_park]
  exact congrArg Prod.snd hrun

end Cpu

/-! ### Ways into a handler -/

inductive Entry
  | irq | nmi | brk | cop

namespace Entry

variable {σ : Type} (bus : CpuBus σ) (entry : Entry)

def enter (cpu : Cpu σ) : Cpu σ :=
  match entry with
  | .irq => (cpu.takeIRQ bus).2
  | .nmi => (cpu.takeNMI bus).2
  | .brk | .cop => (cpu.dispatch bus).2

/-- The opcode, of an entry by an instruction. -/
def opcode : Option Byte :=
  match entry with
  | .irq | .nmi => none
  | .brk => some 0x00
  | .cop => some 0x02

/-- The bytes of the instruction, with the signature. -/
def length : ℕ := if entry.opcode.isSome then 2 else 0

def vector : Vector :=
  match entry with
  | .irq => vecIRQ
  | .nmi => vecNMI
  | .brk => vecBRK
  | .cop => vecCOP

def vectorAt (e : Bool) : BitVec 16 := if e then entry.vector.emulation else entry.vector.native

end Entry

namespace Cpu

open CpuBus.Memory

variable {σ : Type} {bus : CpuBus σ} {M : bus.Memory} {cpu : Cpu σ}

/-- An entry is possible, its vector can be read, and the frame goes to plain RAM. -/
structure CanEnter (cpu : Cpu σ) (M : bus.Memory) (entry : Entry) : Prop where
  before : ∀ opcode ∈ entry.opcode, cpu.Before M opcode 2
  vector_low : bank0 (entry.vectorAt cpu.regs.e) ∈ M.cells
  vector_high : bank0 (entry.vectorAt cpu.regs.e + 1) ∈ M.cells
  ram : ∀ k < cpu.regs.frameLength, cpu.regs.stackByte k ∈ M.ram

theorem down_zero {r : Regs} (h : WidthInv r) : r.down 0 = r := by
  have hs : r.stackAt 0 = r.s := by
    unfold Regs.stackAt
    rw [BitVec.sub_zero]
    split
    next he => exact page1_of_bounds (h.stack he).1 (h.stack he).2
    next => rfl
  rw [Regs.down, hs]

/-- BRK and COP skip a signature byte. -/
theorem at_software (h : WidthInv cpu.regs) {opcode : Byte} {vector : Vector}
    (hnext : cpu.Before M opcode 2) (hfast : fastSwitch bus opcode = none)
    (hm : ∀ m8 x8, execInstr bus m8 x8 (decode opcode) = unpenalised do
      let _ ← fetch8 bus
      serviceInterrupt bus vector true)
    (hlow : bank0 (if cpu.regs.e then vector.emulation else vector.native) ∈ M.cells)
    (hhigh : bank0 ((if cpu.regs.e then vector.emulation else vector.native) + 1) ∈ M.cells)
    (hram : ∀ k < cpu.regs.frameLength, cpu.regs.stackByte k ∈ M.ram) :
    ∃ target, M.At (cpu.dispatch bus).2.core (cpu.regs.entered target)
      (cpu.regs.pushed 0 ((cpu.regs.past 2).frame true) (M.byte cpu.core.bus)) := by
  obtain ⟨core, hcore, heq⟩ := dispatch_core hnext (Or.inr hfast) hm
  have hsignature := ends_fetch8 hcore (hnext.cells 1 (by decide))
  have hpast : WidthInv (cpu.regs.past 2) :=
    ⟨h.stack, h.wide, h.index, h.m8, h.x8, h.cycKey⟩
  rw [← down_zero hpast] at hsignature
  obtain ⟨target, hdone⟩ := ends_serviceInterrupt hsignature.2 hpast true hram hlow hhigh
  refine ⟨target, ?_⟩
  rw [Regs.pushed_past] at hdone
  rw [heq]
  exact (hsignature.bind hdone).2

theorem at_enter (h : WidthInv cpu.regs) {entry : Entry} (hcan : cpu.CanEnter M entry) :
    ∃ target, M.At (entry.enter bus cpu).core (cpu.regs.entered target)
      (cpu.regs.pushed 0 ((cpu.regs.past entry.length).frame entry.opcode.isSome)
        (M.byte cpu.core.bus)) := by
  obtain ⟨hbefore, hlow, hhigh, hram⟩ := hcan
  have hself : M.At cpu.core (cpu.regs.down 0) (M.byte cpu.core.bus) := by
    rw [down_zero h]
    exact at_self M cpu.core
  have hhardware (isBRKorCOP : Bool) :
      (cpu.regs.past 0).frame isBRKorCOP = cpu.regs.frame isBRKorCOP := by
    rw [Regs.past_zero]
  cases entry with
  | irq =>
    obtain ⟨target, hdone⟩ := ends_serviceInterrupt hself h false hram hlow hhigh
    rw [← hhardware] at hdone
    exact ⟨target, hdone.2⟩
  | nmi =>
    have hnoted : M.At ((busReply bus.noteNMITaken).run cpu.core).2 (cpu.regs.down 0)
        (M.byte cpu.core.bus) :=
      ⟨hself.regs, fun b hb => M.noteNMITaken_byte cpu.core.bus b hb⟩
    obtain ⟨target, hdone⟩ := ends_serviceInterrupt hnoted h false hram hlow hhigh
    rw [← hhardware] at hdone
    exact ⟨target, hdone.2⟩
  | brk => exact at_software h (hbefore 0x00 rfl) rfl (fun _ _ => rfl) hlow hhigh hram
  | cop => exact at_software h (hbefore 0x02 rfl) rfl (fun _ _ => rfl) hlow hhigh hram

/-! ### Ways back -/

/-- `later` is a state after `entered` with the instruction `opcode` next, the stack pointer
of `entered`, and unchanged the `n` bytes that the stack of `cpu` then grew by. -/
structure Resumes (cpu : Cpu σ) (M : bus.Memory) (n : ℕ) (opcode : Byte)
    (entered later : Cpu σ) : Prop where
  before : later.Before M opcode 1
  e : later.regs.e = entered.regs.e
  s : later.regs.s = entered.regs.s
  frame : ∀ k < n, M.byte later.core.bus (cpu.regs.stackByte k) =
    M.byte entered.core.bus (cpu.regs.stackByte k)

/-- A handler that ends in RTI has put back the registers that are not in the frame. In
emulation mode the program bank is one of them. -/
structure Handled (cpu : Cpu σ) (M : bus.Memory) (entered handled : Cpu σ) : Prop extends
    cpu.Resumes M cpu.regs.frameLength 0x40 entered handled where
  c : handled.regs.c = entered.regs.c
  x : handled.regs.x = entered.regs.x
  y : handled.regs.y = entered.regs.y
  d : handled.regs.d = entered.regs.d
  dbr : handled.regs.dbr = entered.regs.dbr
  pbr : cpu.regs.e = true → handled.regs.pbr = entered.regs.pbr

/-- The registers `later`, past an opcode, with the stack pointer of `before`. -/
def unwound (before later : Regs) : Regs := { later with s := before.s }.past 1

theorem stackAt_unwound {before later : Regs} (he : later.e = before.e) (n : ℕ) :
    (unwound before later).stackAt n = before.stackAt n := by
  show (if later.e then _ else _) = if before.e then _ else _
  rw [he]
  rfl

theorem stackByte_unwound {before later : Regs} (he : later.e = before.e) (n : ℕ) :
    (unwound before later).stackByte n = before.stackByte n :=
  congrArg bank0 (stackAt_unwound he n)

theorem past_eq_down_unwound {before later : Regs} {n : ℕ} (he : later.e = before.e)
    (hs : later.s = before.stackAt n) : later.past 1 = (unwound before later).down n := by
  rw [Regs.down, stackAt_unwound he, ← hs]
  rfl

/-- The instruction that `later` resumes with finds its stack as the entry left it. -/
theorem Resumes.core {n : ℕ} {opcode : Byte} {entered later : Cpu σ}
    (hlater : cpu.Resumes M n opcode entered later) (he : entered.regs.e = cpu.regs.e)
    (hs : entered.regs.s = cpu.regs.stackAt n)
    (hplain : later.regs.e = false ∨ fastSwitch bus opcode = none) {m : CoreM Regs σ Unit}
    (hm : ∀ m8 x8, execInstr bus m8 x8 (decode opcode) = unpenalised m) :
    ∃ core, M.At core ((unwound cpu.regs later.regs).down n) (M.byte later.core.bus) ∧
      (later.dispatch bus).2.core = (m.run core).2 := by
  rw [← past_eq_down_unwound (hlater.e.trans he) (hlater.s.trans hs)]
  exact dispatch_core hlater.before hplain hm

theorem append_bytes (v : BitVec 16) :
    ((v >>> 8).setWidth 8 : Byte) ++ (v.setWidth 8 : Byte) = v := by
  ext i hi
  simp only [BitVec.getElem_append, BitVec.getElem_setWidth, BitVec.getLsbD_ushiftRight]
  split
  · rfl
  · rw [Nat.add_sub_cancel' (by omega)]
    rfl

theorem applyE_without_flagB {r : Regs} (he : r.e = true) :
    { r with p := r.p &&& ~~~flagB }.applyE = r.applyE := by
  have hp : (r.p &&& ~~~flagB) ||| (flagM ||| flagX) = r.p ||| (flagM ||| flagX) := by
    generalize r.p = p
    revert p
    decide
  have hclip : { r with p := r.p &&& ~~~flagB }.clip = r.clip := by
    unfold Regs.clip
    rw [if_pos he, if_pos he]
    dsimp only
    rw [hp]
  rw [Regs.applyE, Regs.applyE, hclip]

/-- A frame with the bytes of `source` on it gives back its registers. -/
theorem returned_frame {r source : Regs} {mem : BitVec 24 → Byte} (he : source.e = r.e)
    (hmem : ∀ k < r.frameLength, mem (r.stackByte k) = (source.frame false).getD k 0) :
    r.returned mem = { r.down 0 with
      p := if r.e then source.p &&& ~~~flagB else source.p
      pc := source.pc
      pbr := if r.e then r.pbr else source.pbr } := by
  unfold Regs.frameLength Regs.frame at hmem
  unfold Regs.returned
  rw [he] at hmem
  split
  next he =>
    rw [if_pos he, if_pos he] at hmem
    have hp : mem (r.stackByte 2) = source.p &&& ~~~flagB := hmem 2 (by decide)
    have hpc : mem (r.stackByte 0) ++ mem (r.stackByte 1) = source.pc := by
      rw [hmem 0 (by decide), hmem 1 (by decide)]
      exact append_bytes source.pc
    rw [hp, hpc]
    rfl
  next he =>
    rw [if_neg he, if_neg he] at hmem
    have hp : mem (r.stackByte 3) = source.p := hmem 3 (by decide)
    have hpbr : mem (r.stackByte 0) = source.pbr := hmem 0 (by decide)
    have hpc : mem (r.stackByte 1) ++ mem (r.stackByte 2) = source.pc := by
      rw [hmem 1 (by decide), hmem 2 (by decide)]
      exact append_bytes source.pc
    rw [hp, hpc, hpbr]

theorem frame_native {r : Regs} (he : r.e = false) (isBRKorCOP : Bool) :
    r.frame isBRKorCOP = r.frame false := by
  unfold Regs.frame
  rw [he]
  rfl

/-- The bytes pushed at the entry are still there at the return. -/
theorem Resumes.byte {n : ℕ} {bytes : List Byte} {opcode : Byte} {entered later : Cpu σ}
    {r : Regs} {mem : BitVec 24 → Byte} (hlater : cpu.Resumes M n opcode entered later)
    (hentered : M.At entered.core r (cpu.regs.pushed 0 bytes mem)) (hlong : bytes.length = n)
    (hram : ∀ k < n, cpu.regs.stackByte k ∈ M.ram) (hshort : n ≤ 256) :
    ∀ k < n, M.byte later.core.bus (cpu.regs.stackByte k) = bytes.getD k 0 := by
  intro k hk
  rw [← hlong] at hk hshort
  have hpushed := cpu.regs.pushed_stackByte bytes 0 mem (by omega) k hk
  rw [Nat.zero_add] at hpushed
  rw [hlater.frame k (hlong ▸ hk), hentered.byte _ (M.ram_subset (hram k (hlong ▸ hk))), hpushed,
    List.getD_eq_getElem _ _ hk]

/-- The registers outside the frame are those of the interrupted program. -/
theorem applyE_returned {handled interrupted : Regs} (h : WidthInv interrupted)
    (hc : handled.c = interrupted.c) (hx : handled.x = interrupted.x)
    (hy : handled.y = interrupted.y) (hs : handled.s = interrupted.s)
    (hd : handled.d = interrupted.d) (hdbr : handled.dbr = interrupted.dbr)
    (he : handled.e = interrupted.e) :
    { handled with
      p := if handled.e then interrupted.p &&& ~~~flagB else interrupted.p
      pc := interrupted.pc
      pbr := interrupted.pbr }.applyE = interrupted := by
  let stale : Regs :=
    { interrupted with m8 := handled.m8, x8 := handled.x8, cycKey := handled.cycKey }
  have hstale : stale.applyE = interrupted := h.applyE_eq _ _ _
  split
  next hemulation =>
    have hwithout := @applyE_without_flagB stale (he ▸ hemulation)
    refine (congrArg Regs.applyE ?_).trans (hwithout.trans hstale)
    exact Regs.ext hc hx hy hs hd rfl rfl hdbr rfl he rfl rfl rfl
  next =>
    refine (congrArg Regs.applyE ?_).trans hstale
    exact Regs.ext hc hx hy hs hd rfl rfl hdbr rfl he rfl rfl rfl

section Interrupt

variable {entry : Entry} {handled : Cpu σ} {target : BitVec 16}

/-- The frame of an interrupt, read back. -/
theorem returned_handled (hcan : cpu.CanEnter M entry)
    (hentered : M.At (entry.enter bus cpu).core (cpu.regs.entered target)
      (cpu.regs.pushed 0 ((cpu.regs.past entry.length).frame entry.opcode.isSome)
        (M.byte cpu.core.bus)))
    (hbank : cpu.regs.e = true → cpu.regs.pbr = 0 ∧ entry.opcode = none)
    (hhandled : cpu.Handled M (entry.enter bus cpu) handled)
    (he : handled.regs.e = cpu.regs.e) :
    (unwound cpu.regs handled.regs).returned (M.byte handled.core.bus) =
      { (unwound cpu.regs handled.regs).down 0 with
        p := if handled.regs.e then cpu.regs.p &&& ~~~flagB else cpu.regs.p
        pc := (cpu.regs.past entry.length).pc
        pbr := cpu.regs.pbr } := by
  let source := cpu.regs.past entry.length
  have hlong : (source.frame false).length = cpu.regs.frameLength := source.length_frame false
  have hhardware : source.frame entry.opcode.isSome = source.frame false := by
    cases hmode : cpu.regs.e with
    | false => exact @frame_native source hmode _
    | true => rw [(hbank hmode).2]; rfl
  have hbytes := hhandled.byte (hhardware ▸ hentered) hlong hcan.ram
    (by rw [Regs.frameLength]; split <;> decide)
  have hlength : (unwound cpu.regs handled.regs).frameLength = cpu.regs.frameLength := by
    show (if handled.regs.e then 3 else 4) = if cpu.regs.e then 3 else 4
    rw [he]
  have hreturned := @returned_frame (unwound cpu.regs handled.regs) source
    (M.byte handled.core.bus) he.symm fun k hk => by
      rw [stackByte_unwound he]
      exact hbytes k (hlength ▸ hk)
  rw [hreturned]
  have hpbr : (if handled.regs.e then handled.regs.pbr else cpu.regs.pbr) = cpu.regs.pbr := by
    split
    next hmode =>
      rw [he] at hmode
      have hregs : (entry.enter bus cpu).regs = cpu.regs.entered target := hentered.regs
      rw [hhandled.pbr hmode, hregs, (hbank hmode).1]
      rfl
    next => rfl
  exact congrArg (fun pbr : Byte => { (unwound cpu.regs handled.regs).down 0 with
    p := if handled.regs.e then cpu.regs.p &&& ~~~flagB else cpu.regs.p
    pc := source.pc
    pbr := pbr }) hpbr

/-- RTI gives the interrupted program its registers back, and writes nothing. -/
theorem at_rti (h : WidthInv cpu.regs) (hcan : cpu.CanEnter M entry)
    (hbank : cpu.regs.e = true → cpu.regs.pbr = 0 ∧ entry.opcode = none)
    (hhandled : cpu.Handled M (entry.enter bus cpu) handled) :
    M.At (handled.dispatch bus).2.core (cpu.regs.past entry.length)
      (M.byte handled.core.bus) := by
  obtain ⟨target, hentered⟩ := at_enter h hcan
  have hregs : (entry.enter bus cpu).regs = cpu.regs.entered target := hentered.regs
  have he : handled.regs.e = cpu.regs.e := hhandled.e.trans (by rw [hregs]; rfl)
  have hlength : (unwound cpu.regs handled.regs).frameLength = cpu.regs.frameLength := by
    show (if handled.regs.e then 3 else 4) = if cpu.regs.e then 3 else 4
    rw [he]
  obtain ⟨core, hcore, heq⟩ := hhandled.core (by rw [hregs]; rfl) (by rw [hregs]; rfl)
    (Or.inr rfl) (fun _ _ => rfl : ∀ m8 x8, execInstr bus m8 x8 (decode 0x40) =
      unpenalised (execJump bus .rti))
  rw [← hlength] at hcore
  have hreturned := ends_rti hcore fun k hk => by
    rw [stackByte_unwound he]
    exact M.ram_subset (hcan.ram k (hlength ▸ hk))
  have hzero : (unwound cpu.regs handled.regs).stackAt 0 = cpu.regs.s :=
    (stackAt_unwound he 0).trans (congrArg Regs.s (down_zero h))
  have hpast : WidthInv (cpu.regs.past entry.length) :=
    ⟨h.stack, h.wide, h.index, h.m8, h.x8, h.cycKey⟩
  have hrestored := @applyE_returned ((unwound cpu.regs handled.regs).down 0) _ hpast
    (hhandled.c.trans (congrArg Regs.c hregs :)) (hhandled.x.trans (congrArg Regs.x hregs :))
    (hhandled.y.trans (congrArg Regs.y hregs :)) hzero
    (hhandled.d.trans (congrArg Regs.d hregs :)) (hhandled.dbr.trans (congrArg Regs.dbr hregs :)) he
  rw [heq, ← hrestored]
  rw [returned_handled hcan hentered hbank hhandled he] at hreturned
  exact hreturned.2

end Interrupt

/-! ### Calls -/

theorem applyE_native {r : Regs} (he : r.e = false) :
    r.applyE.pc = r.pc ∧ r.applyE.pbr = r.pbr ∧ r.applyE.s = r.s ∧ r.applyE.e = false := by
  have hclip : r.clip.pc = r.pc ∧ r.clip.pbr = r.pbr ∧ r.clip.s = r.s ∧ r.clip.e = r.e := by
    unfold Regs.clip
    rw [if_neg (by rw [he]; exact Bool.false_ne_true)]
    split <;> exact ⟨rfl, rfl, rfl, rfl⟩
  rw [he] at hclip
  exact hclip

/-- The word that a call pushes, plus one, is where the next instruction lies. -/
theorem returnWord_succ (r : Regs) :
    (r.returnWord.getD 0 0 ++ r.returnWord.getD 1 0 : BitVec 16) + 1 = r.pc := by
  have hword : (r.returnWord.getD 0 0 ++ r.returnWord.getD 1 0 : BitVec 16) = r.pc - 1 :=
    append_bytes (r.pc - 1)
  rw [hword, BitVec.sub_add_cancel]

theorem at_jsr (h : WidthInv cpu.regs) (he : cpu.regs.e = false) (hnext : cpu.Before M 0x20 3)
    (hram : ∀ k < 2, cpu.regs.stackByte k ∈ M.ram) :
    ∃ target, M.At (cpu.dispatch bus).2.core { cpu.regs.down 2 with pc := target }
      (cpu.regs.pushed 0 (cpu.regs.past 3).returnWord (M.byte cpu.core.bus)) := by
  obtain ⟨core, hcore, heq⟩ := dispatch_core hnext (Or.inl he)
    (fun _ _ => rfl : ∀ m8 x8, execInstr bus m8 x8 (decode 0x20) = unpenalised (execJump bus .jsr))
  rw [← down_zero h] at hcore
  have hcalled := ends_jsr hcore (hnext.cells 1 (by decide)) (hnext.cells 2 (by decide)) hram
  rw [heq]
  exact ⟨_, hcalled.2⟩

theorem at_jsrIndirectX (h : WidthInv cpu.regs) (he : cpu.regs.e = false)
    (hnext : cpu.Before M 0xFC 3)
    (hlow : cpu.regs.pbr ++ cpu.regs.callPointer (M.byte cpu.core.bus) ∈ M.cells)
    (hhigh : cpu.regs.pbr ++ (cpu.regs.callPointer (M.byte cpu.core.bus) + 1) ∈ M.cells)
    (hram : ∀ k < 2, cpu.regs.stackByte k ∈ M.ram) :
    ∃ target, M.At (cpu.dispatch bus).2.core { cpu.regs.down 2 with pc := target }.applyE
      (cpu.regs.pushed 0 (cpu.regs.past 3).returnWord (M.byte cpu.core.bus)) := by
  obtain ⟨core, hcore, heq⟩ := dispatch_core hnext (Or.inl he)
    (fun _ _ => rfl : ∀ m8 x8, execInstr bus m8 x8 (decode 0xFC) =
      unpenalised (execJump bus .jsrIndirectX))
  rw [← down_zero h] at hcore
  obtain ⟨target, hcalled⟩ := ends_jsrIndirectX hcore he hnext.cells hlow hhigh hram
  rw [heq]
  exact ⟨target, hcalled.2⟩

theorem at_jsl (h : WidthInv cpu.regs) (he : cpu.regs.e = false) (hnext : cpu.Before M 0x22 4)
    (hram : ∀ k < 3, cpu.regs.stackByte k ∈ M.ram) :
    ∃ (pc : BitVec 16) (pbr : Byte),
      M.At (cpu.dispatch bus).2.core { cpu.regs.down 3 with pc := pc, pbr := pbr }.applyE
        (cpu.regs.pushed 0 (cpu.regs.pbr :: (cpu.regs.past 4).returnWord)
          (M.byte cpu.core.bus)) := by
  obtain ⟨core, hcore, heq⟩ := dispatch_core hnext (Or.inl he)
    (fun _ _ => rfl : ∀ m8 x8, execInstr bus m8 x8 (decode 0x22) = unpenalised (execJump bus .jsl))
  rw [← down_zero h] at hcore
  obtain ⟨target, hcalled⟩ := ends_jsl hcore he hnext.cells hram
  rw [heq]
  exact ⟨_, _, hcalled.2⟩

/-- A call pushes the word below the next instruction, and RTS adds one to it. -/
theorem regs_rts (h : WidthInv cpu.regs) (he : cpu.regs.e = false) {length : ℕ} {callee : Regs}
    (hram : ∀ k < 2, cpu.regs.stackByte k ∈ M.ram)
    (hcalled : M.At (cpu.dispatch bus).2.core callee
      (cpu.regs.pushed 0 (cpu.regs.past length).returnWord (M.byte cpu.core.bus)))
    (hpbr : callee.pbr = cpu.regs.pbr) (hs : callee.s = cpu.regs.stackAt 2)
    (hnative : callee.e = false) {later : Cpu σ}
    (hlater : cpu.Resumes M 2 0x60 (cpu.dispatch bus).2 later)
    (hbank : later.regs.pbr = (cpu.dispatch bus).2.regs.pbr) :
    (later.dispatch bus).2.regs.pc = (cpu.regs.past length).pc ∧
      (later.dispatch bus).2.regs.pbr = cpu.regs.pbr ∧
      (later.dispatch bus).2.regs.s = cpu.regs.s := by
  have hregs : (cpu.dispatch bus).2.regs = callee := hcalled.regs
  have hcallee : (cpu.dispatch bus).2.regs.e = cpu.regs.e := by rw [hregs, hnative, he]
  have hmode : later.regs.e = cpu.regs.e := hlater.e.trans hcallee
  obtain ⟨core, hcore, heq⟩ := hlater.core hcallee (by rw [hregs]; exact hs)
    (Or.inl (hmode.trans he)) (fun _ _ => rfl : ∀ m8 x8, execInstr bus m8 x8 (decode 0x60) =
      unpenalised (execJump bus .rts))
  have hreturned := ends_rts hcore fun k hk => by
    rw [stackByte_unwound hmode]
    exact M.ram_subset (hram k hk)
  have hbytes := hlater.byte hcalled rfl hram (by decide)
  have hreturn : (later.dispatch bus).2.regs = _ := heq ▸ hreturned.2.regs
  rw [hreturn, stackByte_unwound hmode, stackByte_unwound hmode, hbytes 0 (by decide),
    hbytes 1 (by decide)]
  refine ⟨returnWord_succ _, ?_, ?_⟩
  · exact hbank.trans ((congrArg Regs.pbr hregs).trans hpbr)
  · exact (stackAt_unwound hmode 0).trans (congrArg Regs.s (down_zero h))

/-- JSL pushes the bank as well. -/
theorem regs_rtl (h : WidthInv cpu.regs) (he : cpu.regs.e = false) (hnext : cpu.Before M 0x22 4)
    (hram : ∀ k < 3, cpu.regs.stackByte k ∈ M.ram) {later : Cpu σ}
    (hlater : cpu.Resumes M 3 0x6B (cpu.dispatch bus).2 later) :
    (later.dispatch bus).2.regs.pc = (cpu.regs.past 4).pc ∧
      (later.dispatch bus).2.regs.pbr = cpu.regs.pbr ∧
      (later.dispatch bus).2.regs.s = cpu.regs.s := by
  obtain ⟨pc, pbr, hcalled⟩ := at_jsl h he hnext hram
  have hregs : (cpu.dispatch bus).2.regs = _ := hcalled.regs
  have hnative := @applyE_native { cpu.regs.down 3 with pc := pc, pbr := pbr } he
  have hcallee : (cpu.dispatch bus).2.regs.e = false := (congrArg Regs.e hregs).trans hnative.2.2.2
  have hmode : later.regs.e = cpu.regs.e := (hlater.e.trans hcallee).trans he.symm
  obtain ⟨core, hcore, heq⟩ := hlater.core (hcallee.trans he.symm)
    ((congrArg Regs.s hregs).trans hnative.2.2.1) (Or.inl (hmode.trans he))
    (fun _ _ => rfl : ∀ m8 x8, execInstr bus m8 x8 (decode 0x6B) =
      unpenalised (execJump bus .rtl))
  have hreturned := ends_rtl hcore (hmode.trans he) fun k hk => by
    rw [stackByte_unwound hmode]
    exact M.ram_subset (hram k hk)
  have hbytes := hlater.byte hcalled rfl hram (by decide)
  have hreturn : (later.dispatch bus).2.regs = _ := heq ▸ hreturned.2.regs
  rw [hreturn, stackByte_unwound hmode, stackByte_unwound hmode, stackByte_unwound hmode,
    hbytes 0 (by decide), hbytes 1 (by decide), hbytes 2 (by decide)]
  have hback := @applyE_native { (unwound cpu.regs later.regs).down 0 with
    pc := (cpu.regs.past 4).returnWord.getD 0 0 ++ (cpu.regs.past 4).returnWord.getD 1 0 + 1
    pbr := cpu.regs.pbr } (hmode.trans he)
  have hzero : (unwound cpu.regs later.regs).stackAt 0 = cpu.regs.s :=
    (stackAt_unwound hmode 0).trans (congrArg Regs.s (down_zero h))
  exact ⟨hback.1.trans (returnWord_succ _), hback.2.1, hback.2.2.1.trans hzero⟩

/-- In native mode an interrupt and the RTI of its handler leave the registers as they were,
past the signature of a BRK or COP, and a call and its return lead to the next instruction
with the bank and the stack pointer restored. In emulation mode the first holds of a hardware
interrupt of a program in bank 0; RTI sets the B bit again that the entry takes out of P. -/
theorem calls_and_interrupts_return (M : bus.Memory) (cpu : Cpu σ) (h : WidthInv cpu.regs) :
    (cpu.regs.e = false →
      (∀ entry : Entry, cpu.CanEnter M entry →
        ∀ handled, cpu.Handled M (entry.enter bus cpu) handled →
          (handled.dispatch bus).2.regs = cpu.regs.past entry.length) ∧
      (cpu.Before M 0x20 3 → (∀ k < 2, cpu.regs.stackByte k ∈ M.ram) →
        ∀ later, cpu.Resumes M 2 0x60 (cpu.dispatch bus).2 later →
          later.regs.pbr = (cpu.dispatch bus).2.regs.pbr →
          (later.dispatch bus).2.regs.pc = (cpu.regs.past 3).pc ∧
            (later.dispatch bus).2.regs.pbr = cpu.regs.pbr ∧
            (later.dispatch bus).2.regs.s = cpu.regs.s) ∧
      (cpu.Before M 0xFC 3 →
        cpu.regs.pbr ++ cpu.regs.callPointer (M.byte cpu.core.bus) ∈ M.cells →
        cpu.regs.pbr ++ (cpu.regs.callPointer (M.byte cpu.core.bus) + 1) ∈ M.cells →
        (∀ k < 2, cpu.regs.stackByte k ∈ M.ram) →
        ∀ later, cpu.Resumes M 2 0x60 (cpu.dispatch bus).2 later →
          later.regs.pbr = (cpu.dispatch bus).2.regs.pbr →
          (later.dispatch bus).2.regs.pc = (cpu.regs.past 3).pc ∧
            (later.dispatch bus).2.regs.pbr = cpu.regs.pbr ∧
            (later.dispatch bus).2.regs.s = cpu.regs.s) ∧
      (cpu.Before M 0x22 4 → (∀ k < 3, cpu.regs.stackByte k ∈ M.ram) →
        ∀ later, cpu.Resumes M 3 0x6B (cpu.dispatch bus).2 later →
          (later.dispatch bus).2.regs.pc = (cpu.regs.past 4).pc ∧
            (later.dispatch bus).2.regs.pbr = cpu.regs.pbr ∧
            (later.dispatch bus).2.regs.s = cpu.regs.s)) ∧
    (cpu.regs.e = true → cpu.regs.pbr = 0 →
      ∀ entry : Entry, entry.opcode = none → cpu.CanEnter M entry →
        ∀ handled, cpu.Handled M (entry.enter bus cpu) handled →
          (handled.dispatch bus).2.regs = cpu.regs) := by
  refine ⟨fun he => ⟨?_, ?_, ?_, ?_⟩, ?_⟩
  · intro entry hcan handled hhandled
    have hnative : ¬ cpu.regs.e = true := by
      rw [he]
      exact Bool.false_ne_true
    exact (at_rti h hcan (fun hmode => absurd hmode hnative) hhandled).regs
  · intro hnext hram later hlater hbank
    obtain ⟨target, hcalled⟩ := at_jsr h he hnext hram
    exact regs_rts h he hram hcalled rfl rfl he hlater hbank
  · intro hnext hlow hhigh hram later hlater hbank
    obtain ⟨target, hcalled⟩ := at_jsrIndirectX h he hnext hlow hhigh hram
    obtain ⟨-, hpbr, hs, hnative⟩ := @applyE_native { cpu.regs.down 2 with pc := target } he
    exact regs_rts h he hram hcalled hpbr hs hnative hlater hbank
  · exact fun hnext hram later hlater => regs_rtl h he hnext hram hlater
  · intro he hpbr entry hhardware hcan handled hhandled
    have hrestored := (at_rti h hcan (fun _ => ⟨hpbr, hhardware⟩) hhandled).regs
    have hlength : entry.length = 0 := by
      rw [Entry.length, hhardware]
      rfl
    rw [hlength, Regs.past_zero] at hrestored
    exact hrestored

/-- A processor in native mode that runs code from `pbr` and `pc` on the flat bus. -/
def onFlatBus (mem : BitVec 24 → Byte) (pbr : Byte) (pc s : BitVec 16) : Cpu FlatMemory :=
  let bus : FlatMemory := ⟨mem, false, false, []⟩
  { construct bus 0 with
    core :=
      { regs := Regs.applyE
          { c := 0x1234, x := 0x5678, y := 0x9ABC, s := s, d := 0, pc := pc, pbr := pbr, dbr := 3
            p := 0, e := false, m8 := false, x8 := false, cycKey := 0 }
        bus := bus
        runBreak := false } }

/-- A BRK on the last byte of bank 2, with its frame on both ends of bank 0. -/
theorem calls_and_interrupts_return_brk :
    let mem : BitVec 24 → Byte := fun a =>
      if a = 0x00FFE7 then 0x80 else if a = 0x008000 then 0x40 else 0x00
    let cpu := onFlatBus mem 0x02 0xFFFF 0x0001
    (((cpu.dispatch flatBus).2).dispatch flatBus).2.regs = cpu.regs.past 2 := by
  intro mem cpu
  have hwidths : WidthInv cpu.regs := widthInv_applyE _
  have hbefore : cpu.Before flatMemory 0x00 2 := ⟨fun _ _ => trivial, by decide +kernel⟩
  have hcan : cpu.CanEnter flatMemory .brk :=
    ⟨fun _ hopcode => Option.some.inj hopcode ▸ hbefore, trivial, trivial, fun _ _ => trivial⟩
  refine ((calls_and_interrupts_return flatMemory cpu hwidths).1 rfl).1 .brk hcan _ ?_
  exact ⟨⟨⟨fun _ _ => trivial, by decide +kernel⟩, rfl, rfl, fun _ _ => rfl⟩, rfl, rfl, rfl, rfl,
    rfl, fun _ => rfl⟩

end Cpu

end W65C816

end ScpuEmu
