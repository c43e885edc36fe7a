import ScpuEmu.C64.FetchRules

/-!
# The derived fetch state is coherent

What the VIC would read its pointers from and which blocks they select, said from the
registers, RAM and the relocation table alone, and the caches that the memory keeps of
it. Every operation brings the caches up to date but a reset, which derives them before
it clears the registers that they depend on.
-/

namespace ScpuEmu

open Library

namespace Fetch

variable (f : Fetch) (ram : Addr → Byte)

/-- The row of the pointers, or no row where it lies under I/O out of reach. -/
def pointerBase : BitVec 32 :=
  if f.ramUnderIOAccessible = false ∧ (f.activeVICScreenBase + 0x3F8#32) &&& 0xF000#32 = 0xD000 then
    noBase
  else f.activeVICScreenBase + 0x3F8#32

/-- The pointer that is delivered for `v`. -/
def deliveredPointer (v : Byte) : Byte :=
  if f.relocEnable = true ∧ f.vicBank = 3 ∧ 0x40#8 ≤ v ∧ v < 0x80#8 ∧
      f.relocation.ptrReloc (v.toNat - 0x40) ≠ 0xFF#8 then
    f.relocation.ptrReloc (v.toNat - 0x40)
  else v

/-- The pointer of sprite `n` in RAM. -/
def pointerByte (n : ℕ) : Byte :=
  ram ((f.activeVICScreenBase + 0x3F8#32 + BitVec.ofNat 32 n).setWidth 16)

/-- An enabled sprite shows the block. -/
def Shows (block : ℕ) : Prop :=
  ∃ n < 8, (f.vicRegShadow 0x15).getLsbD n = true ∧
    f.vicBank.toNat * 256 + (f.deliveredPointer (f.pointerByte ram n)).toNat = block

/-- The caches say what the registers, RAM and the relocation table say. -/
structure Coherent : Prop where
  base : f.spritePtrBase = f.pointerBase
  hot : ∀ block, f.hotShapeBlocks.test block = true ↔ f.spritePtrBase ≠ noBase ∧ f.Shows ram block

/-! ### The row -/

@[simp] theorem spritePtrBase_updateSpritePtrBase :
    f.updateSpritePtrBase.spritePtrBase = f.updateSpritePtrBase.pointerBase := rfl

theorem vicBank_lt : f.vicBank.toNat < 4 := by
  rw [vicBank]
  split
  · rw [BitVec.toNat_and]
    exact Nat.lt_succ_of_le Nat.and_le_right
  · exact Nat.zero_lt_succ 3

theorem toNat_screenRow :
    (f.activeVICScreenBase + 0x3F8#32).toNat =
      f.vicBank.toNat * 0x4000 + f.lastD018.toNat / 16 * 0x400 + 0x3F8 := by
  have hbank := f.vicBank_lt
  have hscreen := f.lastD018.isLt
  rw [activeVICScreenBase, activeVICBankBase]
  simp only [BitVec.toNat_add, BitVec.toNat_shiftLeft, BitVec.toNat_setWidth,
    BitVec.toNat_ushiftRight,
    Nat.shiftLeft_eq, Nat.shiftRight_eq_div_pow, BitVec.toNat_ofNat]
  omega

theorem screenRow_ne_noBase : f.activeVICScreenBase + 0x3F8#32 ≠ noBase := by
  have hbank := f.vicBank_lt
  have hscreen := f.lastD018.isLt
  intro h
  have hrow := f.toNat_screenRow
  have hnone : noBase.toNat = 0xFFFFFFFF := rfl
  rw [h, hnone] at hrow
  omega

variable {f ram}

theorem eq_screenRow (hbase : f.spritePtrBase = f.pointerBase) (h : f.spritePtrBase ≠ noBase) :
    f.spritePtrBase = f.activeVICScreenBase + 0x3F8#32 := by
  rw [hbase, pointerBase] at h ⊢
  split at h
  · exact absurd rfl h
  · next hreach => rw [if_neg hreach]

theorem toNat_bankOfRow :
    ((f.activeVICScreenBase + 0x3F8#32) >>> 14 &&& 3#32).toNat = f.vicBank.toNat := by
  have hbank := f.vicBank_lt
  have hscreen := f.lastD018.isLt
  rw [BitVec.toNat_and, BitVec.toNat_ushiftRight, toNat_screenRow, Nat.shiftRight_eq_div_pow]
  change _ &&& (2 ^ 2 - 1) = _
  rw [Nat.and_two_pow_sub_one_eq_mod]
  omega

theorem shapeBlock_eq (hrow : f.spritePtrBase = f.activeVICScreenBase + 0x3F8#32) (n : ℕ) :
    f.shapeBlock ram n =
      f.vicBank.toNat * 256 + (f.deliveredPointer (f.pointerByte ram n)).toNat := by
  have hthree : f.vicBank.toNat = 3 ↔ f.vicBank = 3 :=
    ⟨fun h => BitVec.eq_of_toNat_eq h, fun h => by rw [h]; rfl⟩
  rw [shapeBlock, hrow, toNat_bankOfRow, deliveredPointer, pointerByte]
  simp only [hthree]

theorem toNat_and_not_seven (a : Addr) : (a &&& ~~~7#16).toNat = a.toNat / 8 * 8 := by
  have hshift : a &&& ~~~7#16 = a >>> 3 <<< 3 := by
    apply BitVec.eq_of_getLsbD_eq
    intro i hi
    have hmask : (7#16).getLsbD i = decide (i < 3) := by
      rw [BitVec.getLsbD_ofNat, show (7 : ℕ) = 2 ^ 3 - 1 from rfl, Nat.testBit_two_pow_sub_one,
        decide_eq_true hi, Bool.true_and]
    rw [BitVec.getLsbD_and, BitVec.getLsbD_not, hmask, BitVec.getLsbD_shiftLeft,
      BitVec.getLsbD_ushiftRight, decide_eq_true hi]
    by_cases h : i < 3
    · simp [h]
    · simp [h, Nat.add_sub_cancel' (Nat.le_of_not_lt h)]
  have hlt := a.isLt
  rw [hshift, BitVec.toNat_shiftLeft, BitVec.toNat_ushiftRight, Nat.shiftLeft_eq,
    Nat.shiftRight_eq_div_pow]
  omega

/-- The row is aligned, so a byte of it is found by its upper bits. -/
theorem inRow_of_eq {a : Addr} {n : ℕ} (hn : n < 8)
    (hrow : f.spritePtrBase = f.activeVICScreenBase + 0x3F8#32)
    (ha : (f.activeVICScreenBase + 0x3F8#32 + BitVec.ofNat 32 n).setWidth 16 = a) : f.InRow a := by
  have hbank := f.vicBank_lt
  have hscreen := f.lastD018.isLt
  have hnat := f.toNat_screenRow
  have htoNat := congrArg BitVec.toNat ha
  rw [BitVec.toNat_setWidth, BitVec.toNat_add, hnat, BitVec.toNat_ofNat] at htoNat
  rw [InRow, hrow]
  apply BitVec.eq_of_toNat_eq
  rw [BitVec.toNat_setWidth, toNat_and_not_seven, hnat]
  omega

/-- The row never lies over the registers of the processor port. -/
theorem not_inRow_port {a : Addr} (ha : a ≤ 1) (hbase : f.spritePtrBase = f.pointerBase) :
    ¬ f.InRow a := by
  intro h
  have hle : a.toNat ≤ 1 := ha
  have hrow := congrArg BitVec.toNat h
  have hnat := f.toNat_screenRow
  rw [BitVec.toNat_setWidth, toNat_and_not_seven] at hrow
  have hzero : f.spritePtrBase.toNat = 0 := by omega
  have hsome : f.spritePtrBase ≠ noBase := fun hnone => by rw [hnone] at hzero; cases hzero
  rw [eq_screenRow hbase hsome] at hzero
  omega

/-! ### Refreshes -/

/-- A rebuild of the blocks makes them coherent over the base. -/
theorem coherent_updateHotShapeBlocks (hbase : f.spritePtrBase = f.pointerBase) :
    (f.updateHotShapeBlocks ram).Coherent ram where
  base := hbase
  hot block := by
    show WordBitmap.test (if f.spritePtrBase = noBase then _ else _) block = true ↔
      f.spritePtrBase ≠ noBase ∧ f.Shows ram block
    split
    · next hnone => simp [hnone]
    · next hrow =>
      have heq := eq_screenRow hbase hrow
      rw [WordBitmap.test_foldl_insert_if (by decide)]
      simp only [shapeBlock_eq heq, Shows, List.mem_range, WordBitmap.test_empty, or_false,
        ne_eq, hrow, not_false_iff, true_and, Bool.false_eq_true]

theorem coherent_refresh : (f.updateSpritePtrBase.updateHotShapeBlocks ram).Coherent ram :=
  coherent_updateHotShapeBlocks rfl

theorem afterPointer_base (f : Fetch) (v : Byte) :
    (f.afterPointer v).spritePtrBase = f.spritePtrBase ∧
      (f.afterPointer v).pointerBase = f.pointerBase := by
  rw [afterPointer]
  split
  · exact ⟨rfl, rfl⟩
  split
  · exact ⟨rfl, rfl⟩
  · cases f.freeRelocBlock <;> exact ⟨rfl, rfl⟩

/-- A store outside the row changes no pointer. -/
theorem Coherent.store (h : f.Coherent ram) {a : Addr} (ha : ¬ f.InRow a) (v : Byte) :
    f.Coherent (Function.update ram a v) where
  base := h.base
  hot block := by
    rw [h.hot]
    refine and_congr_right fun hrow => ?_
    refine exists_congr fun n => and_congr_right fun hn => ?_
    have hne : (f.activeVICScreenBase + 0x3F8#32 + BitVec.ofNat 32 n).setWidth 16 ≠ a :=
      fun heq => ha (inRow_of_eq hn (eq_screenRow h.base hrow) heq)
    rw [pointerByte, pointerByte, Function.update_of_ne hne]

/-- Every elementary change of the memory keeps the caches coherent. -/
theorem coherent_invariant : FetchInvariant Coherent where
  sampleSerial _ _ _ h := ⟨h.base, h.hot⟩
  portA _ _ _ _ := coherent_refresh
  screen _ _ _ _ := coherent_refresh
  direction _ _ _ _ := coherent_refresh
  accessible _ _ _ _ := coherent_refresh
  register f ram reg v hreg h := by
    refine ⟨h.base, fun block => ?_⟩
    rw [h.hot, Shows, Shows]
    simp only [Function.update_of_ne (Ne.symm hreg)]
    exact Iff.rfl
  enable _ _ _ h := coherent_updateHotShapeBlocks h.base
  port _ _ _ v ha h := h.store (not_inRow_port ha h.base) v
  store _ _ _ v ha h := h.store ha v
  count _ _ h := ⟨h.base, h.hot⟩
  commit _ _ _ _ _ h := coherent_updateHotShapeBlocks h.base
  deliver f _ _ v _ h := by
    obtain ⟨hbase, hpointer⟩ := afterPointer_base f v
    exact coherent_updateHotShapeBlocks (by rw [hbase, hpointer, h.base])

/-! ### Reset -/

/-- A reset finds bank 0 selected, once the latch is clear, and no sprite enabled. -/
def ResetsCleanly (f : Fetch) : Prop :=
  { f with cia2PortALatch := 0 }.vicBank = 0 ∧ f.vicRegShadow 0x15 = 0

theorem vicBank_cases (f : Fetch) :
    f.vicBank = 0 ∨ f.vicBank = 1 ∨ f.vicBank = 2 ∨ f.vicBank = 3 := by
  have hbank := f.vicBank_lt
  have hvalue : ∀ k < 4, f.vicBank.toNat = k → f.vicBank = BitVec.ofNat 8 k := by
    intro k _ hk
    rw [← hk, BitVec.ofNat_toNat, BitVec.setWidth_eq]
  rcases h : f.vicBank.toNat with _ | _ | _ | _ | n
  · exact Or.inl (hvalue 0 (by decide) h)
  · exact Or.inr (Or.inl (hvalue 1 (by decide) h))
  · exact Or.inr (Or.inr (Or.inl (hvalue 2 (by decide) h)))
  · exact Or.inr (Or.inr (Or.inr (hvalue 3 (by decide) h)))
  · omega

/-- With the screen that the KERNAL selects, the row is out of the I/O window. -/
theorem pointerBase_of_reset_screen (h : f.lastD018 = 0x14) :
    f.pointerBase = f.activeVICScreenBase + 0x3F8#32 := by
  rw [pointerBase, if_neg]
  rintro ⟨-, hunder⟩
  rw [activeVICScreenBase, activeVICBankBase, h] at hunder
  rcases f.vicBank_cases with hbank | hbank | hbank | hbank <;> rw [hbank] at hunder <;>
    exact absurd hunder (by decide)

/-- The fields as a reset first sets them. -/
def resetRow (f : Fetch) : Fetch :=
  { f with
    cia2PortALatch := 0
    lastCIA2PortARead := 0
    lastD018 := 0x14
    spritePtrBase := noBase
    previousSpritePtrBase := noBase
    relocation := noRelocation }

theorem toNat_pointerBase_of_reset_screen (h : f.lastD018 = 0x14) :
    f.pointerBase.toNat = f.vicBank.toNat * 0x4000 + 0x7F8 := by
  rw [pointerBase_of_reset_screen h, toNat_screenRow, h]
  rfl

/-- The row that a reset derives is the one of the bank that was selected before it. -/
theorem toNat_reset_spritePtrBase (f : Fetch) (ram : Addr → Byte) :
    (f.reset ram).spritePtrBase.toNat = f.resetRow.vicBank.toNat * 0x4000 + 0x7F8 :=
  toNat_pointerBase_of_reset_screen (f := f.resetRow) rfl

theorem toNat_reset_pointerBase (f : Fetch) (ram : Addr → Byte) :
    (f.reset ram).pointerBase.toNat = 0x7F8 := by
  rw [toNat_pointerBase_of_reset_screen rfl]
  have hbank : (f.reset ram).vicBank = 0 := rfl
  rw [hbank]
  rfl

theorem reset_spritePtrBase_ne_noBase (f : Fetch) (ram : Addr → Byte) :
    (f.reset ram).spritePtrBase ≠ noBase := by
  have hbank := f.resetRow.vicBank_lt
  have hbase := f.toNat_reset_spritePtrBase ram
  intro h
  rw [h] at hbase
  change 0xFFFFFFFF = _ at hbase
  omega

/-- The blocks after a reset are those of the sprites that were enabled before it. -/
theorem test_reset_hotShapeBlocks (f : Fetch) (ram : Addr → Byte) (block : ℕ) :
    (f.reset ram).hotShapeBlocks.test block = true ↔ f.resetRow.Shows ram block := by
  refine (coherent_refresh (f := f.resetRow).hot block).trans ?_
  exact and_iff_right (f.reset_spritePtrBase_ne_noBase ram)

/-- A reset leaves the caches coherent exactly if it finds them as it would leave them. -/
theorem coherent_reset_iff (f : Fetch) (ram : Addr → Byte) :
    (f.reset ram).Coherent (fun _ => 0) ↔ f.ResetsCleanly := by
  have hbase := f.toNat_reset_spritePtrBase ram
  have hpointer := f.toNat_reset_pointerBase ram
  have hshows : ∀ block, ¬ (f.reset ram).Shows (fun _ => 0) block := by
    rintro block ⟨n, hn, henabled, -⟩
    exact absurd henabled (by simp [reset])
  constructor
  · intro h
    constructor
    · rw [h.base, hpointer] at hbase
      have hzero : f.resetRow.vicBank.toNat = 0 := by omega
      exact BitVec.eq_of_toNat_eq hzero
    · apply BitVec.eq_of_getLsbD_eq
      intro n hn
      have hdisabled : (f.vicRegShadow 0x15).getLsbD n ≠ true := fun henabled =>
        hshows _ ((h.hot _).mp ((f.test_reset_hotShapeBlocks ram _).mpr ⟨n, hn, henabled, rfl⟩)).2
      simpa using hdisabled
  · rintro ⟨hbank, henabled⟩
    constructor
    · apply BitVec.eq_of_toNat_eq
      have hbank' : f.resetRow.vicBank = 0 := hbank
      rw [hbase, hpointer, hbank']
      rfl
    · intro block
      rw [test_reset_hotShapeBlocks]
      refine iff_of_false ?_ fun h => hshows block h.2
      rintro ⟨n, -, hn, -⟩
      have hoff : (f.vicRegShadow 0x15).getLsbD n = true := hn
      rw [henabled] at hoff
      exact absurd hoff (by simp)

end Fetch

/-- The condition on one operation. -/
def ResetsCleanly {ω : Type} (s : Machine ω) : MemoryOp ω → Prop
  | .reset => s.memory.fetch.ResetsCleanly
  | _ => True

section Runs

variable {ρ : Type} (board : Board ρ) (depth : ℕ)

/-- The caches of the machine. -/
def FetchCoherent {ω : Type} (s : Machine ω) : Prop := s.memory.fetch.Coherent s.memory.ram

theorem coherent_reset_step_iff (s : Machine (WithREU ρ)) :
    FetchCoherent (memoryStep (board.env depth) s .reset) ↔ s.memory.fetch.ResetsCleanly := by
  obtain ⟨hf, hr⟩ := reset_spec (board.env depth) s
  rw [FetchCoherent, memoryStep, MemoryOp.program, hf, hr]
  exact Fetch.coherent_reset_iff _ _

theorem coherent_step_iff (s : Machine (WithREU ρ)) (op : MemoryOp (WithREU ρ))
    (h : FetchCoherent s) :
    FetchCoherent (memoryStep (board.env depth) s op) ↔ ResetsCleanly s op := by
  by_cases hop : op = .reset
  · subst hop
    exact coherent_reset_step_iff board depth s
  · refine iff_of_true ?_ (by cases op <;> trivial)
    exact onFetch_program Fetch.coherent_invariant
      (env_keeps board Fetch.coherent_invariant.keptByAccesses depth) hop s h

/-- All along a run that begins with a reset, the caches are coherent exactly if every
reset finds bank 0 selected and no sprite enabled. -/
theorem fetch_coherent_iff (s : Machine (WithREU ρ)) (ops : List (MemoryOp (WithREU ρ))) :
    (∀ n, FetchCoherent (run (memoryStep (board.env depth)) s (.reset :: ops.take n))) ↔
      AllSteps (memoryStep (board.env depth)) ResetsCleanly s (.reset :: ops) := by
  obtain ⟨s', hs'⟩ : ∃ s', s' = memoryStep (board.env depth) s .reset := ⟨_, rfl⟩
  have hfirst : FetchCoherent s' ↔ s.memory.fetch.ResetsCleanly := by
    rw [hs']
    exact coherent_reset_step_iff board depth s
  simp only [run_cons, allSteps_cons, ← hs']
  constructor
  · intro h
    have hs : FetchCoherent s' := h 0
    refine ⟨hfirst.mp hs, ?_⟩
    exact (forall_take_iff_allSteps _ (coherent_step_iff board depth) s' ops hs).mp h
  · rintro ⟨hclean, hops⟩
    exact (forall_take_iff_allSteps _ (coherent_step_iff board depth) s' ops
      (hfirst.mpr hclean)).mpr
      hops

/-- Bank 3 is selected, and then a reset keeps the row of bank 3. -/
theorem reset_keeps_bank :
    let done := run (memoryStep (emptyBoard.env 0)) emptyMachine
      [.reset, .write8 0xDD02 0x3F, .write8 0xDD00 0x00, .reset]
    done.memory.fetch.spritePtrBase = 0xC7F8 ∧ done.memory.fetch.pointerBase = 0x07F8 ∧
      ¬ FetchCoherent done := by
  intro done
  have hcached : done.memory.fetch.spritePtrBase = 0xC7F8 := by decide +kernel
  have hbase : done.memory.fetch.pointerBase = 0x07F8 := by decide +kernel
  refine ⟨hcached, hbase, fun h => ?_⟩
  have heq := h.base
  rw [hcached, hbase] at heq
  exact absurd heq (by decide)

end Runs

end ScpuEmu
