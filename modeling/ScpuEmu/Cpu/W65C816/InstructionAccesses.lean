import ScpuEmu.Cpu.W65C816.AddressClasses

/-!
# The accesses of an instruction

From any registers whose widths fit their mode, every instruction makes the accesses of its
class.
-/

namespace ScpuEmu

namespace W65C816

section Helpers

variable {σ : Type} {bus : CpuBus σ} {r : Regs}

theorem emits_read (place : Place) {address : BitVec 24} {Q : List Access → Regs → Byte → Prop}
    (haddr : address = place.address) (h : ∀ v, Q [.read place v] r v) :
    Emits Access.onBus (busRead8 bus.logged address) r Q :=
  emits_busRead8 (Access.read place) (fun v => congrArg (BusAccess.read · v) haddr.symm) h

theorem emits_write (place : Place) {address : BitVec 24} {v : Byte}
    {Q : List Access → Regs → Unit → Prop} (haddr : address = place.address)
    (h : Q [.write place v] r ⟨⟩) :
    Emits Access.onBus (busWrite8 bus.logged address v) r Q :=
  emits_busWrite8 (Access.write place v) (congrArg (BusAccess.write · v) haddr.symm) h

/-! ### The instruction stream -/

theorem emits_fetch8 {Q : List Access → Regs → Byte → Prop}
    (h : ∀ v, Q (fetches r.pbr r.pc [v]) { r with pc := r.pc + 1 } v) :
    Emits Access.onBus (fetch8 bus.logged) r Q := by
  apply emits_getRegs_bind
  apply emits_bind
  apply emits_read (.fetch r.pbr r.pc) rfl
  intro v
  apply emits_modifyRegs_bind
  exact emits_pure (h v)

theorem emits_fetch16 {Q : List Access → Regs → BitVec 16 → Prop}
    (h : ∀ lo hi : Byte,
      Q (fetches r.pbr r.pc [lo, hi]) { r with pc := r.pc + 1 + 1 } (hi ++ lo)) :
    Emits Access.onBus (fetch16 bus.logged) r Q := by
  apply emits_bind
  apply emits_fetch8
  intro lo
  apply emits_bind
  apply emits_fetch8
  intro hi
  exact emits_pure (h lo hi)

theorem emits_fetch24 {Q : List Access → Regs → BitVec 24 → Prop}
    (h : ∀ lo mid bank : Byte,
      Q (fetches r.pbr r.pc [lo, mid, bank]) { r with pc := r.pc + 1 + 1 + 1 }
        (bank ++ (mid ++ lo))) :
    Emits Access.onBus (fetch24 bus.logged) r Q := by
  apply emits_bind
  apply emits_fetch16
  intro lo mid
  apply emits_bind
  apply emits_fetch8
  intro bank
  exact emits_pure (h lo mid bank)

/-! ### Pointers -/

theorem emits_read16Bank0 {offset : BitVec 16} {Q : List Access → Regs → BitVec 16 → Prop}
    (h : ∀ lo hi : Byte, Q (pointer offset [lo, hi]) r (hi ++ lo)) :
    Emits Access.onBus (read16Bank0 bus.logged offset) r Q := by
  apply emits_bind
  apply emits_read (.bankZero .pointer offset) (bank0_eq _ _)
  intro lo
  apply emits_bind
  apply emits_read (.bankZero .pointer (offset + 1)) (bank0_eq _ _)
  intro hi
  exact emits_pure (h lo hi)

theorem emits_readDPPointer {sum : BitVec 16} {Q : List Access → Regs → BitVec 16 → Prop}
    (h : ∀ lo hi : Byte, Q (directPointer r sum lo hi) r (hi ++ lo)) :
    Emits Access.onBus (readDPPointer bus.logged (bank0 (directPage r sum))) r Q := by
  apply emits_bind
  apply emits_read (.bankZero .pointer (directPage r sum))
  · rw [setWidth_bank0]
    exact bank0_eq _ _
  intro lo
  apply emits_getRegs_bind
  apply emits_bind
  apply emits_read (.bankZero .pointer (directPage r (sum + 1)))
  · rw [setWidth_bank0, dpPointerNext_eq]
    exact bank0_eq _ _
  intro hi
  exact emits_pure (h lo hi)

/-! ### The stack -/

theorem moveStack_eq (s : BitVec 16) : moveStack r s = { r with s := stackMove r.e false s } := by
  simp [moveStack, stackMove]

theorem stackMove_new (e : Bool) (s : BitVec 16) : stackMove e true s = s := by simp [stackMove]

theorem emits_push8 {v : Byte} {Q : List Access → Regs → Unit → Prop}
    (h : Q (pushes r.e false r.s [v]) { r with s := stackMove r.e false (r.s - 1) } ⟨⟩) :
    Emits Access.onBus (push8 bus.logged v) r Q := by
  apply emits_getRegs_bind
  apply emits_bind
  apply emits_write (.bankZero .stack r.s) (bank0_eq _ _)
  apply emits_modifyRegs
  rw [moveStack_eq]
  exact h

theorem emits_push8New {v : Byte} {Q : List Access → Regs → Unit → Prop}
    (h : Q (pushes r.e true r.s [v]) { r with s := stackMove r.e true (r.s - 1) } ⟨⟩) :
    Emits Access.onBus (push8New bus.logged v) r Q := by
  apply emits_getRegs_bind
  apply emits_bind
  apply emits_write (.bankZero .stack r.s) (bank0_eq _ _)
  apply emits_modifyRegs
  rw [stackMove_new] at h
  exact h

theorem emits_pull8 {Q : List Access → Regs → Byte → Prop}
    (h : ∀ v, Q (pulls r.e false r.s [v]) { r with s := stackMove r.e false (r.s + 1) } v) :
    Emits Access.onBus (pull8 bus.logged) r Q := by
  apply emits_modifyRegs_bind
  rw [moveStack_eq]
  apply emits_getRegs_bind
  exact emits_read (.bankZero .stack (stackMove r.e false (r.s + 1))) (bank0_eq _ _) h

theorem emits_pull8New {Q : List Access → Regs → Byte → Prop}
    (h : ∀ v, Q (pulls r.e true r.s [v]) { r with s := stackMove r.e true (r.s + 1) } v) :
    Emits Access.onBus (pull8New bus.logged) r Q := by
  apply emits_modifyRegs_bind
  apply emits_getRegs_bind
  simp only [pulls, stackMove_new] at h
  exact emits_read (.bankZero .stack (r.s + 1)) (bank0_eq _ _) h

theorem emits_push16 {v : BitVec 16} {Q : List Access → Regs → Unit → Prop}
    (h : ∀ hi lo : Byte, Q (pushes r.e false r.s [hi, lo])
      { r with s := stackMove r.e false (stackMove r.e false (r.s - 1) - 1) } ⟨⟩) :
    Emits Access.onBus (push16 bus.logged v) r Q := by
  apply emits_bind
  apply emits_push8
  apply emits_push8
  exact h _ _

theorem emits_push16New {v : BitVec 16} {Q : List Access → Regs → Unit → Prop}
    (h : ∀ hi lo : Byte, Q (pushes r.e true r.s [hi, lo])
      { r with s := stackMove r.e true (stackMove r.e true (r.s - 1) - 1) } ⟨⟩) :
    Emits Access.onBus (push16New bus.logged v) r Q := by
  apply emits_bind
  apply emits_push8New
  apply emits_push8New
  exact h _ _

theorem emits_pull16 {Q : List Access → Regs → BitVec 16 → Prop}
    (h : ∀ lo hi : Byte, Q (pulls r.e false r.s [lo, hi])
      { r with s := stackMove r.e false (stackMove r.e false (r.s + 1) + 1) } (hi ++ lo)) :
    Emits Access.onBus (pull16 bus.logged) r Q := by
  apply emits_bind
  apply emits_pull8
  intro lo
  apply emits_bind
  apply emits_pull8
  intro hi
  exact emits_pure (h lo hi)

theorem emits_pull16New {Q : List Access → Regs → BitVec 16 → Prop}
    (h : ∀ lo hi : Byte, Q (pulls r.e true r.s [lo, hi])
      { r with s := stackMove r.e true (stackMove r.e true (r.s + 1) + 1) } (hi ++ lo)) :
    Emits Access.onBus (pull16New bus.logged) r Q := by
  apply emits_bind
  apply emits_pull8New
  intro lo
  apply emits_bind
  apply emits_pull8New
  intro hi
  exact emits_pure (h lo hi)

/-! ### Operands -/

/-- A place in memory found by an addressing mode: the registers that it leaves, and where the
operand is. In emulation mode there is no second byte. -/
structure Located (r : Regs) (w : Word) (r' : Regs) (ea : EA) : Prop where
  regs : ∃ pc, r' = { r with pc := pc }
  low : ea.addr = w.low.address
  high : r.e = false → operandNext ea = w.high.address

theorem located_bankZero {pc low : BitVec 16} {use : BankZero} {crossed : Bool} :
    Located r (bankZeroWord use low (low + 1)) { r with pc := pc } ⟨bank0 low, true, crossed⟩ where
  regs := ⟨pc, rfl⟩
  low := bank0_eq _ _
  high _ := by
    show bank0 ((bank0 low).setWidth 16 + 1) = _
    rw [setWidth_bank0]
    exact bank0_eq _ _

theorem located_page {pc sum : BitVec 16} {crossed : Bool} :
    Located r (bankZeroWord .direct (directPage r sum) (directPage r (sum + 1)))
      { r with pc := pc } ⟨bank0 (directPage r sum), true, crossed⟩ where
  regs := ⟨pc, rfl⟩
  low := bank0_eq _ _
  high he := by
    show bank0 ((bank0 _).setWidth 16 + 1) = _
    rw [setWidth_bank0]
    simp only [directPage, he]
    exact bank0_eq _ _

theorem located_data {pc offset index : BitVec 16} {bank : Byte} {crossed : Bool} :
    Located r (dataWord bank offset index) { r with pc := pc }
      ⟨(bank ++ offset) + index.setWidth 24, false, crossed⟩ where
  regs := ⟨pc, rfl⟩
  low := data_address _ _ _
  high _ := by
    show (bank ++ offset : BitVec 24) + index.setWidth 24 + 1 = _
    rw [data_address, data_address_next]
    rfl

theorem located_unindexed {pc offset : BitVec 16} {bank : Byte} {crossed : Bool} :
    Located r (dataWord bank offset 0) { r with pc := pc } ⟨bank ++ offset, false, crossed⟩ := by
  have hsum : (bank ++ offset : BitVec 24) + (0 : BitVec 16).setWidth 24 = bank ++ offset :=
    BitVec.add_zero _
  rw [← hsum]
  exact located_data

theorem emits_eaDirect {Q : List Access → Regs → EA → Prop}
    (h : ∀ off : Byte, Q (fetches r.pbr r.pc [off]) { r with pc := r.pc + 1 }
      ⟨bank0 (off.setWidth 16 + r.d), true, false⟩) :
    Emits Access.onBus (eaDirect bus.logged) r Q := by
  apply emits_bind
  apply emits_fetch8
  intro off
  apply emits_getRegs_bind
  exact emits_pure (h off)

theorem emits_eaDirectIndexed {index : BitVec 16} {Q : List Access → Regs → EA → Prop}
    (h : ∀ off : Byte, Q (fetches r.pbr r.pc [off]) { r with pc := r.pc + 1 }
      ⟨bank0 (directPage r (off.setWidth 16 + index + r.d)), true, false⟩) :
    Emits Access.onBus (eaDirectIndexed bus.logged index) r Q := by
  apply emits_bind
  apply emits_fetch8
  intro off
  apply emits_getRegs_bind
  apply emits_pure
  rw [directIndexed_eq]
  exact h off

theorem emits_eaAbsoluteIndexed {index : BitVec 16} {Q : List Access → Regs → EA → Prop}
    (h : ∀ lo hi : Byte, Q (fetches r.pbr r.pc [lo, hi]) { r with pc := r.pc + 1 + 1 }
      (dataIndexed r (hi ++ lo) index)) :
    Emits Access.onBus (eaAbsoluteIndexed bus.logged index) r Q := by
  apply emits_bind
  apply emits_fetch16
  intro lo hi
  apply emits_getRegs_bind
  exact emits_pure (h lo hi)

/-- The sum of an aligned page and an offset is in the page, so the pointers of `(dp)` and
`(dp),Y` start where `emits_readDPPointer` wants them. -/
theorem directPage_direct (off : Byte) :
    directPage r (off.setWidth 16 + r.d) = off.setWidth 16 + r.d := by
  by_cases h : r.e = true ∧ r.d &&& 0xFF = 0
  · exact directPage_of_page h off
  · exact if_neg h

theorem emits_eaIndirectLong {Q : List Access → Regs → EA → Prop}
    (h : ∀ off lo mid bank : Byte,
      Q (fetches r.pbr r.pc [off] ++ pointer (off.setWidth 16 + r.d) [lo, mid, bank])
        { r with pc := r.pc + 1 } ⟨bank ++ (mid ++ lo), false, false⟩) :
    Emits Access.onBus (eaIndirectLong bus.logged) r Q := by
  apply emits_bind
  apply emits_eaDirect
  intro off
  simp only [setWidth_bank0]
  apply emits_bind
  apply emits_read (.bankZero .pointer (off.setWidth 16 + r.d)) (bank0_eq _ _)
  intro lo
  apply emits_bind
  apply emits_read (.bankZero .pointer (off.setWidth 16 + r.d + 1)) (bank0_eq _ _)
  intro mid
  apply emits_bind
  apply emits_read (.bankZero .pointer (off.setWidth 16 + r.d + 1 + 1))
  · rw [BitVec.add_assoc _ 1 1]
    exact bank0_eq _ _
  intro bank
  exact emits_pure (h off lo mid bank)

theorem emits_effectiveAddress (mode : Mode) :
    Emits Access.onBus (effectiveAddress bus.logged mode) r
      fun t r' ea => ∃ w, mode.Reaches r t w ∧ Located r w r' ea := by
  cases mode with
  | direct =>
    apply emits_eaDirect
    intro off
    exact ⟨_, ⟨off, rfl, rfl⟩, located_bankZero⟩
  | directX | directY =>
    apply emits_getRegs_bind
    apply emits_eaDirectIndexed
    intro off
    exact ⟨_, ⟨off, rfl, rfl⟩, located_page⟩
  | absolute =>
    apply emits_bind
    apply emits_fetch16
    intro lo hi
    apply emits_getRegs_bind
    exact emits_pure ⟨_, ⟨lo, hi, rfl, rfl⟩, located_unindexed⟩
  | absoluteX | absoluteY =>
    apply emits_getRegs_bind
    apply emits_eaAbsoluteIndexed
    intro lo hi
    exact ⟨_, ⟨lo, hi, rfl, rfl⟩, located_data⟩
  | long =>
    apply emits_bind
    apply emits_fetch24
    intro lo mid bank
    exact emits_pure ⟨_, ⟨lo, mid, bank, rfl, rfl⟩, located_unindexed⟩
  | longX =>
    apply emits_getRegs_bind
    apply emits_bind
    apply emits_fetch24
    intro lo mid bank
    exact emits_pure ⟨_, ⟨lo, mid, bank, rfl, rfl⟩, located_data⟩
  | indirect =>
    apply emits_bind
    apply emits_eaDirect
    intro off
    rw [← directPage_direct]
    apply emits_bind
    apply emits_readDPPointer (r := { r with pc := r.pc + 1 })
    intro lo hi
    apply emits_getRegs_bind
    exact emits_pure ⟨_, ⟨off, lo, hi, rfl, rfl⟩, located_unindexed⟩
  | indirectX =>
    apply emits_getRegs_bind
    apply emits_bind
    apply emits_eaDirectIndexed
    intro off
    apply emits_bind
    apply emits_readDPPointer (r := { r with pc := r.pc + 1 })
    intro lo hi
    apply emits_getRegs_bind
    exact emits_pure ⟨_, ⟨off, lo, hi, rfl, rfl⟩, located_unindexed⟩
  | indirectY =>
    apply emits_bind
    apply emits_eaDirect
    intro off
    rw [← directPage_direct]
    apply emits_bind
    apply emits_readDPPointer (r := { r with pc := r.pc + 1 })
    intro lo hi
    apply emits_getRegs_bind
    exact emits_pure ⟨_, ⟨off, lo, hi, rfl, rfl⟩, located_data⟩
  | indirectLong =>
    apply emits_eaIndirectLong
    intro off lo mid bank
    exact ⟨_, ⟨off, lo, mid, bank, rfl, rfl⟩, located_unindexed⟩
  | indirectLongY =>
    apply emits_bind
    apply emits_eaIndirectLong
    intro off lo mid bank
    apply emits_getRegs_bind
    exact emits_pure ⟨_, ⟨off, lo, mid, bank, rfl, rfl⟩, located_data⟩
  | stackRelative =>
    apply emits_bind
    apply emits_fetch8
    intro off
    apply emits_getRegs_bind
    exact emits_pure ⟨_, ⟨off, rfl, rfl⟩, located_bankZero⟩
  | stackRelativeIndirectY =>
    apply emits_bind
    apply emits_bind
    apply emits_fetch8
    intro off
    apply emits_getRegs_bind
    apply emits_pure
    simp only [setWidth_bank0]
    apply emits_bind
    apply emits_read16Bank0
    intro lo hi
    apply emits_getRegs_bind
    exact emits_pure ⟨_, ⟨off, lo, hi, rfl, rfl⟩, located_data⟩

/-- In emulation mode operands are bytes. -/
def Narrow (r : Regs) : Prop := r.e = true → r.m8 = true ∧ r.x8 = true

theorem WidthInv.narrow (h : WidthInv r) : Narrow r := by
  intro he
  rw [h.m8, h.x8]
  simp [Regs.computeM8, Regs.computeX8, he]

theorem Narrow.native_of_m8 (h : Narrow r) (hm : r.m8 = false) : r.e = false := by
  cases he : r.e with
  | false => rfl
  | true => exact absurd (h he).1 (by simp [hm])

theorem Narrow.native_of_x8 (h : Narrow r) (hx : r.x8 = false) : r.e = false := by
  cases he : r.e with
  | false => rfl
  | true => exact absurd (h he).2 (by simp [hx])

theorem emits_readOperand {narrow : Bool} {ea : EA} {w : Word}
    (hlow : ea.addr = w.low.address) (hhigh : narrow = false → operandNext ea = w.high.address) :
    Emits Access.onBus (readOperand bus.logged narrow ea) r
      fun t r' _ => w.Read narrow t ∧ r' = r := by
  cases narrow with
  | true =>
    apply emits_map
    apply emits_read w.low hlow
    intro v
    exact ⟨⟨v, rfl⟩, rfl⟩
  | false =>
    apply emits_bind
    apply emits_read w.low hlow
    intro lo
    apply emits_bind
    apply emits_read w.high (hhigh rfl)
    intro hi
    exact emits_pure ⟨⟨lo, hi, rfl⟩, rfl⟩

theorem emits_writeOperand {narrow : Bool} {ea : EA} {v : BitVec 16} {w : Word}
    (hlow : ea.addr = w.low.address) (hhigh : narrow = false → operandNext ea = w.high.address) :
    Emits Access.onBus (writeOperand bus.logged narrow ea v) r
      fun t _ _ => w.Written narrow t := by
  cases narrow with
  | true => exact emits_write w.low hlow ⟨_, rfl⟩
  | false =>
    apply emits_bind
    apply emits_write w.low hlow
    apply emits_write w.high (hhigh rfl)
    exact ⟨_, _, rfl⟩

theorem emits_rmwWrite {ea : EA} {original v : BitVec 16} {w : Word}
    (hlow : ea.addr = w.low.address) (hhigh : r.m8 = false → operandNext ea = w.high.address) :
    Emits Access.onBus (rmwWrite bus.logged ea original v) r fun t _ _ => w.Modified r t := by
  apply emits_getRegs_bind
  apply emits_ite
  · intro he
    apply emits_bind
    apply emits_write w.low hlow
    apply emits_write w.low hlow
    simp only [Word.Modified, he]
    exact ⟨_, _, rfl⟩
  intro he
  apply emits_ite
  · intro hm
    apply emits_write w.low hlow
    simp only [Word.Modified, he, hm]
    exact ⟨_, rfl⟩
  · intro hm
    apply emits_bind
    apply emits_write w.high (hhigh (by simpa using hm))
    apply emits_write w.low hlow
    simp only [Word.Modified, he, hm]
    exact ⟨_, _, rfl⟩

theorem emits_immediate {narrow : Bool} :
    Emits Access.onBus (immediate bus.logged narrow) r
      fun t _ _ => Fetched r (if narrow then 1 else 2) t := by
  cases narrow with
  | true =>
    apply emits_map
    apply emits_fetch8
    intro v
    exact ⟨[v], rfl, rfl⟩
  | false =>
    apply emits_fetch16
    intro lo hi
    exact ⟨[lo, hi], rfl, rfl⟩

end Helpers

section Execute

variable {σ : Type} {bus : CpuBus σ} {r : Regs}

theorem emits_execAcc (op : AccOp) (m8Entry : Bool) (operand : Operand) (h : Narrow r) :
    Emits Access.onBus (execAcc bus.logged op m8Entry operand) r
      fun t _ _ => (Instr.acc op operand).Accesses r t := by
  cases operand with
  | immediate =>
    refine Emits.then_silent ?_ fun _ _ => silent_modifyRegs _
    apply emits_getRegs_bind
    exact emits_immediate
  | memory mode =>
    apply emits_bind
    apply (emits_effectiveAddress mode).mono
    rintro found r' ea ⟨w, hfound, ⟨pc, rfl⟩, hlow, hhigh⟩
    refine Emits.then_silent ?_ fun _ _ => silent_modifyRegs _
    apply emits_getRegs_bind
    apply (emits_readOperand hlow fun hm => hhigh (h.native_of_m8 hm)).mono
    rintro operand _ _ ⟨hread, rfl⟩
    exact ⟨found, operand, w, hfound, hread, rfl⟩

theorem emits_execIndex (op : IndexOp) (x8Entry : Bool) (operand : Operand) (h : Narrow r) :
    Emits Access.onBus (execIndex bus.logged op x8Entry operand) r
      fun t _ _ => (Instr.index op operand).Accesses r t := by
  cases operand with
  | immediate =>
    refine Emits.then_silent ?_ fun _ _ => silent_modifyRegs _
    apply emits_getRegs_bind
    exact emits_immediate
  | memory mode =>
    apply emits_bind
    apply (emits_effectiveAddress mode).mono
    rintro found r' ea ⟨w, hfound, ⟨pc, rfl⟩, hlow, hhigh⟩
    refine Emits.then_silent ?_ fun _ _ => silent_modifyRegs _
    apply emits_getRegs_bind
    apply (emits_readOperand hlow fun hx => hhigh (h.native_of_x8 hx)).mono
    rintro operand _ _ ⟨hread, rfl⟩
    exact ⟨found, operand, w, hfound, hread, rfl⟩

theorem emits_storeOperand (op : StoreOp) {ea : EA} {w : Word} (h : Narrow r)
    (hlow : ea.addr = w.low.address) (hhigh : r.e = false → operandNext ea = w.high.address) :
    Emits Access.onBus (storeOperand bus.logged op ea) r
      fun t _ _ => w.Written (op.narrow r) t := by
  apply emits_getRegs_bind
  cases op with
  | sta | stz =>
    apply emits_getRegs_bind
    exact emits_writeOperand hlow fun hm => hhigh (h.native_of_m8 hm)
  | stx | sty =>
    apply emits_getRegs_bind
    exact emits_writeOperand hlow fun hx => hhigh (h.native_of_x8 hx)

theorem emits_execStore (op : StoreOp) (mode : Mode) (h : Narrow r) :
    Emits Access.onBus (execStore bus.logged op mode) r
      fun t _ _ => (Instr.store op mode).Accesses r t := by
  apply emits_bind
  apply (emits_effectiveAddress mode).mono
  rintro found r' ea ⟨w, hfound, ⟨pc, rfl⟩, hlow, hhigh⟩
  refine Emits.then_silent ?_ fun _ _ => emits_pure rfl
  apply (emits_storeOperand op (r := { r with pc := pc }) h hlow hhigh).mono
  intro operand _ _ hwritten
  exact ⟨found, operand, w, hfound, hwritten, rfl⟩

theorem emits_execRmw (op : RmwOp) (mode : Mode) (h : Narrow r) :
    Emits Access.onBus (execRmw bus.logged op mode) r
      fun t _ _ => (Instr.rmw op mode).Accesses r t := by
  apply emits_bind
  apply (emits_effectiveAddress mode).mono
  rintro found r' ea ⟨w, hfound, ⟨pc, rfl⟩, hlow, hhigh⟩
  apply emits_bind
  apply emits_getRegs_bind
  have hwide := fun hm => hhigh (h.native_of_m8 hm)
  apply (emits_readOperand hlow hwide).mono
  rintro operand _ v ⟨hread, rfl⟩
  apply emits_getRegs_bind
  apply emits_modifyRegs_bind
  -- the operation leaves the mode and the widths
  have hview := widthView_applyRmw op { r with pc := pc } v
  generalize op.apply { r with pc := pc } v = applied at hview ⊢
  have he : applied.1.e = r.e := (congrArg Regs.e hview :)
  have hm : applied.1.m8 = r.m8 := (congrArg Regs.m8 hview :)
  refine Emits.then_silent (P := fun t => (Instr.rmw op mode).Accesses r (found ++ (operand ++ t)))
    ?_ fun _ _ => silent_modifyRegs _
  apply (emits_rmwWrite hlow fun hm' => hwide (hm ▸ hm')).mono
  intro back _ _ hback
  refine ⟨found, operand, back, w, hfound, hread, ?_, (List.append_assoc _ _ _).symm⟩
  simpa only [Word.Modified, he, hm] using hback

/-! ### The stack -/

theorem emits_pushAs {narrow : Bool} {v : BitVec 16} :
    Emits Access.onBus (pushAs bus.logged narrow v) r
      fun t _ _ => Pushed r false (if narrow then 1 else 2) t := by
  cases narrow with
  | true =>
    apply emits_push8
    exact ⟨_, rfl, rfl⟩
  | false =>
    apply emits_push16
    intro hi lo
    exact ⟨[hi, lo], rfl, rfl⟩

theorem emits_execPush (op : PushOp) :
    Emits Access.onBus (execPush bus.logged op) r fun t _ _ => op.Accesses r t := by
  apply emits_getRegs_bind
  cases op with
  | pha | phx | phy => exact emits_pushAs
  | php | phb | phk =>
    apply emits_push8
    exact ⟨_, rfl, rfl⟩
  | phd =>
    apply emits_bind
    apply emits_push16New
    intro hi lo
    exact emits_modifyRegs ⟨[hi, lo], rfl, rfl⟩
  | pea =>
    apply emits_bind
    apply emits_fetch16
    intro lo hi
    apply emits_bind
    apply emits_push16New
    intro hi' lo'
    exact emits_modifyRegs ⟨_, _, ⟨[lo, hi], rfl, rfl⟩, ⟨[hi', lo'], rfl, rfl⟩, rfl⟩
  | pei =>
    apply emits_bind
    apply emits_eaDirect
    intro off
    simp only [setWidth_bank0]
    apply emits_bind
    apply emits_read16Bank0
    intro lo hi
    apply emits_bind
    apply emits_push16New
    intro hi' lo'
    exact emits_modifyRegs ⟨off, lo, hi, _, ⟨[hi', lo'], rfl, rfl⟩, rfl⟩
  | per =>
    apply emits_bind
    apply emits_fetch16
    intro lo hi
    apply emits_getRegs_bind
    apply emits_bind
    apply emits_push16New
    intro hi' lo'
    exact emits_modifyRegs ⟨_, _, ⟨[lo, hi], rfl, rfl⟩, ⟨[hi', lo'], rfl, rfl⟩, rfl⟩

theorem emits_pullAs {narrow : Bool} :
    Emits Access.onBus (pullAs bus.logged narrow) r
      fun t _ _ => Pulled r false (if narrow then 1 else 2) t := by
  cases narrow with
  | true =>
    apply emits_map
    apply emits_pull8
    intro v
    exact ⟨[v], rfl, rfl⟩
  | false =>
    apply emits_pull16
    intro lo hi
    exact ⟨[lo, hi], rfl, rfl⟩

theorem emits_execPull (op : PullOp) :
    Emits Access.onBus (execPull bus.logged op) r fun t _ _ => op.Accesses r t := by
  apply emits_getRegs_bind
  cases op with
  | pla | plx | ply => exact Emits.then_silent emits_pullAs fun _ _ => emits_modifyRegs rfl
  | plp | plb =>
    apply emits_bind
    apply emits_pull8
    intro v
    exact emits_modifyRegs ⟨[v], rfl, rfl⟩
  | pld =>
    apply emits_bind
    apply emits_pull16New
    intro lo hi
    exact emits_modifyRegs ⟨[lo, hi], rfl, rfl⟩

/-! ### Jumps and branches -/

theorem emits_readProgramPointer {offset : BitVec 16}
    {Q : List Access → Regs → BitVec 16 → Prop}
    (h : ∀ lo hi : Byte, Q (programPointer r offset lo hi) r (hi ++ lo)) :
    Emits Access.onBus (readProgramPointer bus.logged offset) r Q := by
  apply emits_getRegs_bind
  apply emits_bind
  apply emits_read (.programPointer r.pbr offset) rfl
  intro lo
  apply emits_bind
  apply emits_read (.programPointer r.pbr (offset + 1)) rfl
  intro hi
  exact emits_pure (h lo hi)

theorem emits_execJump (op : JumpOp) :
    Emits Access.onBus (execJump bus.logged op) r fun t _ _ => op.Accesses r t := by
  cases op with
  | jmp =>
    apply emits_bind
    apply emits_fetch16
    intro lo hi
    exact emits_modifyRegs ⟨[lo, hi], rfl, rfl⟩
  | jmpIndirect =>
    apply emits_bind
    apply emits_fetch16
    intro lo hi
    apply emits_bind
    apply emits_read16Bank0
    intro lo' hi'
    exact emits_modifyRegs ⟨lo, hi, lo', hi', rfl⟩
  | jmpIndirectX =>
    apply emits_bind
    apply emits_fetch16
    intro lo hi
    apply emits_getRegs_bind
    apply emits_bind
    apply emits_readProgramPointer
    intro lo' hi'
    exact emits_modifyRegs ⟨lo, hi, lo', hi', rfl⟩
  | jml =>
    apply emits_bind
    apply emits_fetch24
    intro lo mid bank
    exact emits_modifyRegs ⟨[lo, mid, bank], rfl, rfl⟩
  | jmlIndirect =>
    apply emits_bind
    apply emits_fetch16
    intro lo hi
    apply emits_bind
    apply emits_read16Bank0
    intro lo' hi'
    apply emits_modifyRegs_bind
    apply emits_bind
    apply emits_read (.bankZero .pointer (hi ++ lo + 1 + 1))
    · rw [BitVec.add_assoc _ 1 1]
      exact bank0_eq _ _
    intro bank
    exact emits_modifyRegs ⟨lo, hi, lo', hi', bank, rfl⟩
  | jsr =>
    apply emits_bind
    apply emits_fetch16
    intro lo hi
    apply emits_bind
    apply emits_getRegs_bind
    apply emits_push16
    intro hi' lo'
    exact emits_modifyRegs ⟨_, _, ⟨[lo, hi], rfl, rfl⟩, ⟨[hi', lo'], rfl, rfl⟩, rfl⟩
  | jsrIndirectX =>
    apply emits_bind
    apply emits_fetch16
    intro lo hi
    apply emits_getRegs_bind
    apply emits_bind
    apply emits_getRegs_bind
    apply emits_push16New
    intro high low
    apply emits_bind
    apply emits_readProgramPointer
    intro lo' hi'
    apply emits_modifyRegs_bind
    exact emits_modifyRegs ⟨lo, hi, lo', hi', _, ⟨[high, low], rfl, rfl⟩, rfl⟩
  | jsl =>
    apply emits_bind
    apply emits_fetch24
    intro lo mid bank
    apply emits_getRegs_bind
    apply emits_bind
    apply emits_push8New
    apply emits_bind
    apply emits_getRegs_bind
    apply emits_push16New
    intro hi' lo'
    apply emits_modifyRegs_bind
    exact emits_modifyRegs ⟨_, _, ⟨[lo, mid, bank], rfl, rfl⟩, ⟨[r.pbr, hi', lo'], rfl, rfl⟩, rfl⟩
  | rts =>
    apply emits_bind
    apply emits_pull16
    intro lo hi
    exact emits_modifyRegs ⟨[lo, hi], rfl, rfl⟩
  | rtl =>
    apply emits_bind
    apply emits_pull16New
    intro lo hi
    apply emits_modifyRegs_bind
    apply emits_bind
    apply emits_pull8New
    intro bank
    apply emits_modifyRegs_bind
    exact emits_modifyRegs ⟨[lo, hi, bank], rfl, rfl⟩
  | rti =>
    apply emits_bind
    apply emits_pull8
    intro p
    apply emits_modifyRegs_bind
    apply emits_bind
    apply emits_pull16
    intro lo hi
    apply emits_modifyRegs_bind
    apply emits_getRegs_bind
    apply emits_ite
    · intro he
      exact emits_modifyRegs ⟨[p, lo, hi], (if_pos he).symm, rfl⟩
    · intro he
      apply emits_bind
      apply emits_pull8
      intro bank
      apply emits_modifyRegs_bind
      exact emits_modifyRegs ⟨[p, lo, hi, bank], (if_neg he).symm, rfl⟩

theorem emits_execBranch (cond : Regs → Bool) :
    Emits Access.onBus (execBranch bus.logged cond) r fun t _ _ => Fetched r 1 t := by
  apply emits_bind
  apply emits_fetch8
  intro disp
  apply emits_getRegs_bind
  apply emits_modifyRegs_bind
  exact emits_pure ⟨[disp], rfl, rfl⟩

theorem emits_execBlockMove (up : Bool) :
    Emits Access.onBus (execBlockMove bus.logged up) r
      fun t _ _ => (Instr.blockMove up).Accesses r t := by
  apply emits_bind
  apply emits_fetch8
  intro dst
  apply emits_bind
  apply emits_fetch8
  intro src
  apply emits_getRegs_bind
  apply emits_bind
  apply emits_read (.data src r.getX 0 false)
  · exact (BitVec.add_zero _).symm.trans (data_address src r.getX 0)
  intro v
  apply emits_bind
  apply emits_write (.data dst r.getY 0 false)
  · exact (BitVec.add_zero _).symm.trans (data_address dst r.getY 0)
  exact emits_modifyRegs ⟨dst, src, v, rfl⟩

/-! ### Interrupts -/

theorem emits_pushFrame (isBRKorCOP : Bool) :
    Emits Access.onBus (pushFrame bus.logged isBRKorCOP) r
      fun t r' _ => Pushed r false (if r.e then 3 else 4) t ∧ r'.e = r.e := by
  apply emits_getRegs_bind
  apply emits_ite
  · intro he
    apply emits_bind
    apply emits_push16
    intro hi lo
    apply emits_push8
    exact ⟨⟨[hi, lo, _], (if_pos he).symm, rfl⟩, rfl⟩
  · intro he
    apply emits_bind
    apply emits_push8
    apply emits_bind
    apply emits_push16
    intro hi lo
    apply emits_push8
    exact ⟨⟨[_, hi, lo, _], (if_neg he).symm, rfl⟩, rfl⟩

theorem emits_readVector {vec : BitVec 16} {Q : List Access → Regs → BitVec 16 → Prop}
    (hrerouted : ∀ target, Q [] r target)
    (hread : ∀ lo hi : Byte, Q (pointer vec [lo, hi]) r (hi ++ lo)) :
    Emits Access.onBus (readVector bus.logged vec) r Q := by
  apply emits_get_bind
  intro core hregs
  apply emits_ite
  · intro _
    apply emits_silent
    rintro core rfl
    exact ⟨rfl, hrerouted _⟩
  · intro _
    exact emits_read16Bank0 hread

theorem emits_serviceInterrupt (vector : Vector) (isBRKorCOP : Bool) :
    Emits Access.onBus (serviceInterrupt bus.logged vector isBRKorCOP) r
      fun t _ _ => InterruptAccesses r vector t := by
  apply emits_bind
  apply (emits_pushFrame isBRKorCOP).mono
  rintro stacked r' _ ⟨hpushed, he⟩
  apply emits_modifyRegs_bind
  apply emits_getRegs_bind
  simp only [he]
  refine Emits.then_silent (P := fun t => InterruptAccesses r vector (stacked ++ t)) ?_ ?_
  · apply emits_readVector
    · intro target
      exact ⟨stacked, [], hpushed, Or.inl rfl, rfl⟩
    · intro lo hi
      exact ⟨stacked, _, hpushed, Or.inr ⟨lo, hi, rfl⟩, rfl⟩
  · intro target r'
    apply emits_modifyRegs_bind
    exact emits_modifyRegs rfl

theorem emits_signature_serviceInterrupt (vector : Vector) :
    Emits Access.onBus (fetch8 bus.logged >>= fun _ => serviceInterrupt bus.logged vector true) r
      fun t _ _ => ∃ signature rest, Fetched r 1 signature ∧ InterruptAccesses r vector rest ∧
        t = signature ++ rest := by
  apply emits_bind
  apply emits_fetch8
  intro signature
  apply (emits_serviceInterrupt vector true).mono
  intro rest _ _ hrest
  exact ⟨_, rest, ⟨[signature], rfl, rfl⟩, hrest, rfl⟩

/-! ### The switch -/

theorem emits_unpenalised {m : CoreM Regs (Logged σ) Unit} {P : List Access → Prop}
    (h : Emits Access.onBus m r fun t _ _ => P t) :
    Emits Access.onBus (unpenalised m) r fun t _ _ => P t :=
  h.then_silent fun _ _ => emits_pure rfl

theorem emits_fetch8_modifyRegs {f : Byte → Regs → Regs} :
    Emits Access.onBus (fetch8 bus.logged >>= fun v => modifyRegs (f v)) r
      fun t _ _ => Fetched r 1 t := by
  apply emits_bind
  apply emits_fetch8
  intro v
  exact emits_modifyRegs ⟨[v], rfl, rfl⟩

theorem emits_execInstr (m8Entry x8Entry : Bool) (instr : Instr) (h : Narrow r) :
    Emits Access.onBus (execInstr bus.logged m8Entry x8Entry instr) r
      fun t _ _ => instr.Accesses r t := by
  cases instr with
  | acc op operand => exact emits_execAcc op m8Entry operand h
  | index op operand => exact emits_execIndex op x8Entry operand h
  | store op mode => exact emits_execStore op mode h
  | rmw op mode => exact emits_execRmw op mode h
  | rmwAcc op => exact emits_unpenalised (emits_modifyRegs rfl)
  | reg op => exact emits_unpenalised (emits_modifyRegs rfl)
  | push op => exact emits_unpenalised (emits_execPush op)
  | pull op => exact emits_unpenalised (emits_execPull op)
  | jump op => exact emits_unpenalised (emits_execJump op)
  | branch | bra => exact emits_execBranch _
  | brl =>
    apply emits_unpenalised
    apply emits_bind
    apply emits_fetch16
    intro lo hi
    exact emits_modifyRegs ⟨[lo, hi], rfl, rfl⟩
  | rep | sep => exact emits_unpenalised emits_fetch8_modifyRegs
  | blockMove up => exact emits_unpenalised (emits_execBlockMove up)
  | brk => exact emits_unpenalised (emits_signature_serviceInterrupt vecBRK)
  | cop => exact emits_unpenalised (emits_signature_serviceInterrupt vecCOP)
  | wdm =>
    apply emits_unpenalised
    apply emits_bind
    apply emits_fetch8
    intro v
    exact emits_pure ⟨[v], rfl, rfl⟩
  | stp | wai => exact emits_pure rfl

theorem emits_execOpcode (opcode : Byte) (h : WidthInv r) :
    Emits Access.onBus (execOpcode bus.logged opcode) r
      fun t _ _ => (decode opcode).Accesses r t := by
  rintro core rfl
  rw [run_execOpcode bus.logged opcode h]
  have hgeneric : Emits Access.onBus (execGeneric bus.logged opcode) core.regs
      fun t _ _ => (decode opcode).Accesses core.regs t := by
    apply emits_getRegs_bind
    exact (emits_execInstr _ _ (decode opcode) h.narrow).then_silent fun _ _ => emits_pure rfl
  exact hgeneric core rfl

end Execute

namespace Cpu

variable {σ : Type} {bus : CpuBus σ}

/-- Every instruction fetches its opcode and makes the accesses of its class, each at the
address of its place, whichever of the two switches executes it. -/
theorem dispatch_accesses (cpu : Cpu (Logged σ)) (h : WidthInv cpu.regs) :
    ∃ (opcode : Byte) (rest : List Access),
      (cpu.dispatch bus.logged).2.core.bus.log = cpu.core.bus.log ++
        (fetches cpu.regs.pbr cpu.regs.pc [opcode] ++ rest).map Access.onBus ∧
      (decode opcode).Accesses { cpu.regs with pc := cpu.regs.pc + 1 } rest := by
  have hemits : Emits Access.onBus (fetchExec bus.logged) cpu.regs fun t _ _ =>
      ∃ (opcode : Byte) (rest : List Access),
        t = fetches cpu.regs.pbr cpu.regs.pc [opcode] ++ rest ∧
        (decode opcode).Accesses { cpu.regs with pc := cpu.regs.pc + 1 } rest := by
    apply emits_bind
    apply emits_fetch8
    intro opcode
    have hfetched : WidthInv { cpu.regs with pc := cpu.regs.pc + 1 } := h.of_view rfl
    apply emits_bind
    apply (emits_execOpcode opcode hfetched).mono
    intro rest _ _ hrest
    exact emits_pure ⟨opcode, rest, by rw [List.append_nil], hrest⟩
  obtain ⟨trace, hlog, opcode, rest, rfl, hrest⟩ := hemits cpu.core rfl
  refine ⟨opcode, rest, ?_, hrest⟩
  rw [← hlog]
  exact congrArg (fun core : Core Regs (Logged σ) => core.bus.log) (core_park _ _)

/-- A program that runs over the end of bank 2. -/
def pageCrossCpu : Cpu (Logged FlatMemory) :=
  { construct pageCrossCore.bus 0 with core := pageCrossCore }

theorem pageCrossCpu_dispatch_accesses :
    ∃ (opcode : Byte) (rest : List Access),
      (pageCrossCpu.dispatch flatBus.logged).2.core.bus.log = pageCrossCpu.core.bus.log ++
        (fetches pageCrossCpu.regs.pbr pageCrossCpu.regs.pc [opcode] ++ rest).map
          Access.onBus ∧
      (decode opcode).Accesses { pageCrossCpu.regs with pc := pageCrossCpu.regs.pc + 1 } rest :=
  dispatch_accesses pageCrossCpu (widthInv_applyE _)

end Cpu

end W65C816

end ScpuEmu
