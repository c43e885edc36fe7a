import ScpuEmu.Cpu.W65C816.StackFrames

/-!
# Programs that use the stack

What interrupt entries, calls and returns do, as functions of the registers and of the
bytes of the stack. An entry or a call pushes a list of bytes, and a return reads its
registers from the places where such a list lies.
-/

namespace ScpuEmu

namespace W65C816

open Library

/-! ### Widths that are up to date -/

theorem and_low_of_le {v : BitVec 16} (h : v ≤ 0xFF) : v &&& 0xFF = v := by
  apply BitVec.eq_of_toNat_eq
  rw [toNat_and_low]
  exact Nat.mod_eq_of_lt (Nat.lt_of_le_of_lt h (by decide))

theorem page1_of_bounds {s : BitVec 16} (hlow : 0x0100 ≤ s) (hhigh : s ≤ 0x01FF) :
    0x0100 ||| (s &&& 0xFF) = s := by
  apply BitVec.eq_of_toNat_eq
  rw [toNat_page1]
  bv_omega

theorem or_wide {p : Byte} (hM : p &&& flagM ≠ 0) (hX : p &&& flagX ≠ 0) :
    p ||| (flagM ||| flagX) = p := by
  revert p
  decide

theorem clip_eq {r : Regs} (hstack : r.e = true → 0x0100 ≤ r.s ∧ r.s ≤ 0x01FF)
    (hwide : r.e = true → r.flag flagM = true ∧ r.flag flagX = true)
    (hindex : r.e = true ∨ r.flag flagX = true → r.x ≤ 0xFF ∧ r.y ≤ 0xFF) : r.clip = r := by
  unfold Regs.clip
  split
  next he =>
    obtain ⟨hM, hX⟩ := hwide he
    obtain ⟨hx, hy⟩ := hindex (Or.inl he)
    obtain ⟨hlow, hhigh⟩ := hstack he
    have hp := or_wide (bne_iff_ne.mp hM) (bne_iff_ne.mp hX)
    have hs : (0x0100 ||| (r.s &&& 0x00FF) : BitVec 16) = r.s := page1_of_bounds hlow hhigh
    rw [hp, hs, and_low_of_le hx, and_low_of_le hy]
  next he =>
    split
    next hX =>
      obtain ⟨hx, hy⟩ := hindex (Or.inr hX)
      rw [and_low_of_le hx, and_low_of_le hy]
    next => rfl

/-- With the invariant `applyE` has nothing to do but to refresh the cached widths. -/
theorem WidthInv.applyE_eq {r : Regs} (h : WidthInv r) (m8 x8 : Bool) (cycKey : Byte) :
    { r with m8 := m8, x8 := x8, cycKey := cycKey }.applyE = r := by
  have hclip : { r with m8 := m8, x8 := x8, cycKey := cycKey }.clip = _ :=
    clip_eq h.stack h.wide h.index
  rw [Regs.applyE, hclip]
  exact Regs.ext rfl rfl rfl rfl rfl rfl rfl rfl rfl rfl h.m8.symm h.x8.symm h.cycKey.symm

/-! ### Entries and returns -/

section Access

open CpuBus.Memory

variable {σ : Type} {bus : CpuBus σ} {M : bus.Memory} {core : Core Regs σ} {r : Regs}
  {mem : BitVec 24 → Byte}

/-- The bytes that an interrupt pushes, in their order. -/
def Regs.frame (r : Regs) (isBRKorCOP : Bool) : List Byte :=
  if r.e then
    [(r.pc >>> 8).setWidth 8, r.pc.setWidth 8,
      if isBRKorCOP then r.p ||| flagB else r.p &&& ~~~flagB]
  else [r.pbr, (r.pc >>> 8).setWidth 8, r.pc.setWidth 8, r.p]

/-- The program bank is part of the frame in native mode only. -/
def Regs.frameLength (r : Regs) : ℕ := if r.e then 3 else 4

theorem Regs.length_frame (r : Regs) (isBRKorCOP : Bool) :
    (r.frame isBRKorCOP).length = r.frameLength := by
  unfold Regs.frame Regs.frameLength
  split <;> rfl

theorem ends_pushFrame (h : M.At core (r.down 0) mem) (isBRKorCOP : Bool)
    (hram : ∀ k < r.frameLength, r.stackByte k ∈ M.ram) :
    M.Ends ((pushFrame bus isBRKorCOP).run core) () (r.down r.frameLength)
      (r.pushed 0 (r.frame isBRKorCOP) mem) := by
  have hregs := ends_getRegs h
  refine hregs.bind ?_
  have he : (r.down 0).e = r.e := rfl
  unfold Regs.frameLength at hram ⊢
  unfold Regs.frame
  rw [he]
  split
  next he =>
    rw [if_pos he] at hram
    have hpc := ends_push16 hregs.2 (hram 0 (by decide)) (hram 1 (by decide)) r.pc
    exact hpc.bind (ends_push8 hpc.2 (hram 2 (by decide)) _)
  next he =>
    rw [if_neg he] at hram
    have hpbr := ends_push8 hregs.2 (hram 0 (by decide)) r.pbr
    have hpc := ends_push16 hpbr.2 (hram 1 (by decide)) (hram 2 (by decide)) r.pc
    exact hpbr.bind (hpc.bind (ends_push8 hpc.2 (hram 3 (by decide)) _))

theorem ends_read16Bank0 (h : M.At core r mem) {addr : BitVec 16} (hlo : bank0 addr ∈ M.cells)
    (hhi : bank0 (addr + 1) ∈ M.cells) :
    M.Ends ((read16Bank0 bus addr).run core) (mem (bank0 (addr + 1)) ++ mem (bank0 addr)) r
      mem := by
  have hlow := ends_busRead8 h hlo
  have hhigh := ends_busRead8 hlow.2 hhi
  exact hlow.bind (hhigh.bind (ends_pure hhigh.2 _))

theorem ends_readVector (h : M.At core r mem) {vec : BitVec 16} (hlo : bank0 vec ∈ M.cells)
    (hhi : bank0 (vec + 1) ∈ M.cells) :
    ∃ target, M.Ends ((readVector bus vec).run core) target r mem := by
  refine ⟨_, rfl, ?_⟩
  unfold readVector
  rw [run_bind, run_get]
  dsimp only
  split
  · refine ⟨h.regs, fun b hb => ?_⟩
    exact (M.rerouteVector_byte core.bus vec b hb).trans (h.byte b hb)
  · exact (ends_read16Bank0 h hlo hhi).2

/-- The registers at the first instruction of a handler. -/
def Regs.entered (r : Regs) (target : BitVec 16) : Regs :=
  { r.down r.frameLength with p := (r.p ||| flagI) &&& ~~~flagD, pbr := 0, pc := target }

theorem WidthInv.entered (h : WidthInv r) (target : BitVec 16) : WidthInv (r.entered target) := by
  have hdown : WidthInv (r.down r.frameLength) := by
    apply h.setS
    intro he
    rw [Regs.stackAt, if_pos he]
    exact page1_bounds _
  have hp : ((r.p ||| flagI) &&& ~~~flagD) &&& 0x30 = r.p &&& 0x30 := by
    generalize r.p = p
    revert p
    decide
  exact hdown.of_view (congrArg (fun p => { (r.down r.frameLength).widthView with p := p }) hp)

theorem ends_serviceInterrupt (h : M.At core (r.down 0) mem) (hwidths : WidthInv r)
    {vector : Vector} (isBRKorCOP : Bool) (hram : ∀ k < r.frameLength, r.stackByte k ∈ M.ram)
    (hlo : bank0 (if r.e then vector.emulation else vector.native) ∈ M.cells)
    (hhi : bank0 ((if r.e then vector.emulation else vector.native) + 1) ∈ M.cells) :
    ∃ target, M.Ends ((serviceInterrupt bus vector isBRKorCOP).run core) () (r.entered target)
      (r.pushed 0 (r.frame isBRKorCOP) mem) := by
  have hframe := ends_pushFrame h isBRKorCOP hram
  have hflags := ends_modifyRegs hframe.2 fun r =>
    { r with p := (r.p ||| flagI) &&& ~~~flagD, pbr := 0 }
  have hregs := ends_getRegs hflags.2
  obtain ⟨target, hvector⟩ := ends_readVector hregs.2 hlo hhi
  have hpc := ends_modifyRegs hvector.2 fun r => { r with pc := target }
  have hwide := ends_modifyRegs hpc.2 Regs.applyE
  have hentered : Regs.applyE _ = r.entered target :=
    (hwidths.entered target).applyE_eq r.m8 r.x8 r.cycKey
  refine ⟨target, ?_⟩
  rw [← hentered]
  exact hframe.bind (hflags.bind (hregs.bind (hvector.bind (hpc.bind hwide))))

/-- RTI takes the program bank off the stack in native mode only. -/
def Regs.returned (r : Regs) (mem : BitVec 24 → Byte) : Regs :=
  if r.e then
    { r.down 0 with p := mem (r.stackByte 2), pc := mem (r.stackByte 0) ++ mem (r.stackByte 1) }
  else
    { r.down 0 with
      p := mem (r.stackByte 3)
      pc := mem (r.stackByte 1) ++ mem (r.stackByte 2)
      pbr := mem (r.stackByte 0) }

theorem ends_rti (h : M.At core (r.down r.frameLength) mem)
    (hcells : ∀ k < r.frameLength, r.stackByte k ∈ M.cells) :
    M.Ends ((execJump bus .rti).run core) () (r.returned mem).applyE mem := by
  unfold Regs.frameLength at h hcells
  unfold Regs.returned
  split at h
  next he =>
    rw [if_pos he] at hcells ⊢
    have hp := ends_pull8 h (hcells 2 (by decide))
    have hflags : M.Ends _ _ ({ r with p := mem (r.stackByte 2) }.down 2) mem :=
      ends_modifyRegs hp.2 fun r' => { r' with p := mem (r.stackByte 2) }
    have hpc := ends_pull16 hflags.2 (hcells 1 (by decide)) (hcells 0 (by decide))
    have hjump := ends_modifyRegs hpc.2 fun r' =>
      { r' with pc := mem (r.stackByte 0) ++ mem (r.stackByte 1) }
    have hregs := ends_getRegs hjump.2
    have hwide := ends_modifyRegs hregs.2 Regs.applyE
    refine hp.bind (hflags.bind (hpc.bind (hjump.bind (hregs.bind ?_))))
    show M.Ends ((if r.e = true then _ else _ : CoreM Regs σ Unit).run _) _ _ _
    rw [if_pos he]
    exact hwide
  next he =>
    rw [if_neg he] at hcells ⊢
    have hp := ends_pull8 h (hcells 3 (by decide))
    have hflags : M.Ends _ _ ({ r with p := mem (r.stackByte 3) }.down 3) mem :=
      ends_modifyRegs hp.2 fun r' => { r' with p := mem (r.stackByte 3) }
    have hpc := ends_pull16 hflags.2 (hcells 2 (by decide)) (hcells 1 (by decide))
    have hjump : M.Ends _ _ ({ r with
        p := mem (r.stackByte 3)
        pc := mem (r.stackByte 1) ++ mem (r.stackByte 2) }.down 1) mem :=
      ends_modifyRegs hpc.2 fun r' => { r' with pc := mem (r.stackByte 1) ++ mem (r.stackByte 2) }
    have hregs := ends_getRegs hjump.2
    have hpull := ends_pull8 hregs.2 (hcells 0 (by decide))
    have hbank := ends_modifyRegs hpull.2 fun r' => { r' with pbr := mem (r.stackByte 0) }
    have hwide := ends_modifyRegs hbank.2 Regs.applyE
    refine hp.bind (hflags.bind (hpc.bind (hjump.bind (hregs.bind ?_))))
    show M.Ends ((if r.e = true then _ else _ : CoreM Regs σ Unit).run _) _ _ _
    rw [if_neg he]
    exact hpull.bind (hbank.bind hwide)

/-- What a call pushes of the program counter: the last byte of its own instruction. -/
def Regs.returnWord (r : Regs) : List Byte :=
  [((r.pc - 1) >>> 8).setWidth 8, (r.pc - 1).setWidth 8]

theorem ends_pushPC {n : ℕ} (h : M.At core (r.down n) mem) (hhi : r.stackByte n ∈ M.ram)
    (hlo : r.stackByte (n + 1) ∈ M.ram) :
    M.Ends ((pushPC bus).run core) () (r.down (n + 2)) (r.pushed n r.returnWord mem) := by
  have hregs := ends_getRegs h
  exact hregs.bind (ends_push16 hregs.2 hhi hlo _)

theorem ends_pushPCNew {n : ℕ} (h : M.At core (r.down n) mem) (he : r.e = false)
    (hhi : r.stackByte n ∈ M.ram) (hlo : r.stackByte (n + 1) ∈ M.ram) :
    M.Ends ((pushPCNew bus).run core) () (r.down (n + 2)) (r.pushed n r.returnWord mem) := by
  have hregs := ends_getRegs h
  exact hregs.bind (ends_push16New hregs.2 he hhi hlo _)

theorem ends_jsr (h : M.At core ((r.down 0).past 1) mem) (hlo : r.codeByte 1 ∈ M.cells)
    (hhi : r.codeByte 2 ∈ M.cells) (hram : ∀ k < 2, r.stackByte k ∈ M.ram) :
    M.Ends ((execJump bus .jsr).run core) ()
      { r.down 2 with pc := mem (r.codeByte 2) ++ mem (r.codeByte 1) }
      (r.pushed 0 (r.past 3).returnWord mem) := by
  have hfetch := ends_fetch16 h hlo hhi
  have hpush := @ends_pushPC _ _ _ _ (r.past 3) _ 0 hfetch.2 (hram 0 (by decide))
    (hram 1 (by decide))
  have hjump := ends_modifyRegs hpush.2 fun r' =>
    { r' with pc := mem (r.codeByte 2) ++ mem (r.codeByte 1) }
  exact hfetch.bind (hpush.bind hjump)

theorem ends_readProgramPointer (h : M.At core r mem) {ptr : BitVec 16}
    (hlo : r.pbr ++ ptr ∈ M.cells) (hhi : r.pbr ++ (ptr + 1) ∈ M.cells) :
    M.Ends ((readProgramPointer bus ptr).run core)
      (mem (r.pbr ++ (ptr + 1)) ++ mem (r.pbr ++ ptr)) r mem := by
  have hregs := ends_getRegs h
  have hlow := ends_busRead8 hregs.2 hlo
  have hhigh := ends_busRead8 hlow.2 hhi
  exact hregs.bind (hlow.bind (hhigh.bind (ends_pure hhigh.2 _)))

/-- Where JSR (abs,X) finds its target, in the program bank. -/
def Regs.callPointer (r : Regs) (mem : BitVec 24 → Byte) : BitVec 16 :=
  (mem (r.codeByte 2) ++ mem (r.codeByte 1)) + r.getX

/-- The pointer is read after the push, so it is what the push has left there. -/
theorem ends_jsrIndirectX (h : M.At core ((r.down 0).past 1) mem) (he : r.e = false)
    (hcode : ∀ k < 3, r.codeByte k ∈ M.cells) (hlo : r.pbr ++ r.callPointer mem ∈ M.cells)
    (hhi : r.pbr ++ (r.callPointer mem + 1) ∈ M.cells) (hram : ∀ k < 2, r.stackByte k ∈ M.ram) :
    ∃ target : BitVec 16, M.Ends ((execJump bus .jsrIndirectX).run core) ()
      { r.down 2 with pc := target }.applyE (r.pushed 0 (r.past 3).returnWord mem) := by
  have hfetch := ends_fetch16 h (hcode 1 (by decide)) (hcode 2 (by decide))
  have hregs := ends_getRegs hfetch.2
  have hpush := @ends_pushPCNew _ _ _ _ (r.past 3) _ 0 hregs.2 he (hram 0 (by decide))
    (hram 1 (by decide))
  have hpointer := ends_readProgramPointer hpush.2 hlo hhi
  let target : BitVec 16 :=
    r.pushed 0 (r.past 3).returnWord mem (r.pbr ++ (r.callPointer mem + 1)) ++
      r.pushed 0 (r.past 3).returnWord mem (r.pbr ++ r.callPointer mem)
  have hjump := ends_modifyRegs hpointer.2 fun r' => { r' with pc := target }
  have hwide := ends_modifyRegs hjump.2 Regs.applyE
  exact ⟨target, hfetch.bind (hregs.bind (hpush.bind (hpointer.bind (hjump.bind hwide))))⟩

theorem ends_rts (h : M.At core (r.down 2) mem) (hcells : ∀ k < 2, r.stackByte k ∈ M.cells) :
    M.Ends ((execJump bus .rts).run core) ()
      { r.down 0 with pc := mem (r.stackByte 0) ++ mem (r.stackByte 1) + 1 } mem := by
  have hpc := ends_pull16 h (hcells 1 (by decide)) (hcells 0 (by decide))
  exact hpc.bind (ends_modifyRegs hpc.2 _)

theorem ends_jsl (h : M.At core ((r.down 0).past 1) mem) (he : r.e = false)
    (hcode : ∀ k < 4, r.codeByte k ∈ M.cells) (hram : ∀ k < 3, r.stackByte k ∈ M.ram) :
    ∃ target : BitVec 24, M.Ends ((execJump bus .jsl).run core) ()
      { r.down 3 with pc := target.setWidth 16, pbr := (target >>> 16).setWidth 8 }.applyE
      (r.pushed 0 (r.pbr :: (r.past 4).returnWord) mem) := by
  have hfetch := ends_fetch24 h (hcode 1 (by decide)) (hcode 2 (by decide)) (hcode 3 (by decide))
  have hregs := ends_getRegs hfetch.2
  have hbank := @ends_push8New _ _ _ _ (r.past 4) _ 0 hregs.2 he (hram 0 (by decide)) r.pbr
  have hpush := ends_pushPCNew hbank.2 he (hram 1 (by decide)) (hram 2 (by decide))
  refine ⟨mem (r.codeByte 3) ++ (mem (r.codeByte 2) ++ mem (r.codeByte 1)), ?_⟩
  have hjump := ends_modifyRegs hpush.2 fun r' =>
    let target := mem (r.codeByte 3) ++ (mem (r.codeByte 2) ++ mem (r.codeByte 1))
    { r' with pc := target.setWidth 16, pbr := (target >>> 16).setWidth 8 }
  have hwide := ends_modifyRegs hjump.2 Regs.applyE
  exact hfetch.bind (hregs.bind (hbank.bind (hpush.bind (hjump.bind hwide))))

theorem ends_rtl (h : M.At core (r.down 3) mem) (he : r.e = false)
    (hcells : ∀ k < 3, r.stackByte k ∈ M.cells) :
    M.Ends ((execJump bus .rtl).run core) ()
      { r.down 0 with
        pc := mem (r.stackByte 1) ++ mem (r.stackByte 2) + 1
        pbr := mem (r.stackByte 0) }.applyE mem := by
  have hpc := ends_pull16New h he (hcells 2 (by decide)) (hcells 1 (by decide))
  have hjump : M.Ends _ _
      ({ r with pc := mem (r.stackByte 1) ++ mem (r.stackByte 2) + 1 }.down 1) mem :=
    ends_modifyRegs hpc.2 fun r' =>
      { r' with pc := mem (r.stackByte 1) ++ mem (r.stackByte 2) + 1 }
  have hpull := ends_pull8New hjump.2 he (hcells 0 (by decide))
  have hbank := ends_modifyRegs hpull.2 fun r' => { r' with pbr := mem (r.stackByte 0) }
  have hwide := ends_modifyRegs hbank.2 Regs.applyE
  exact hpc.bind (hjump.bind (hpull.bind (hbank.bind hwide)))

end Access

end W65C816

end ScpuEmu
