import ScpuEmu.C64.FetchCoherence
import ScpuEmu.SuperCpu.Frame
import ScpuEmu.SuperCpu.WriteBuffer.RelocatedBlocks

/-!
# What a claimed block may be showing

A block of 64 bytes is claimed as the home of a relocated shape on the ground that the VIC is
not showing it as anything else. Of what the VIC can be showing in $C000-$CBFF the search
looks at the matrix, at the matrix before it and at the bitmap. The character set and the
shapes that lie there themselves go unlooked at.
-/

namespace ScpuEmu

open Library

namespace Fetch

variable (f : Fetch) (ram : Addr → Byte)

/-- The address lies in a region that starts at a base, if it has one. -/
def InSpan (base : BitVec 32) (length : ℕ) (a : Addr) : Prop :=
  base ≠ noBase ∧ base.toNat ≤ a.toNat ∧ a.toNat < base.toNat + length

/-- The matrix that was active before the active one. -/
def previousScreenBase : BitVec 32 :=
  if f.previousSpritePtrBase = noBase then noBase
  else (f.previousSpritePtrBase - 0x3F8#32) &&& 0xFFFF#32

/-- What the VIC is showing, by its registers, RAM and the relocation table, and the matrix
that may be flipped back to. -/
inductive Displays (a : Addr) : Prop
  | matrix (h : InSpan f.activeVICScreenBase 0x400 a)
  | previousMatrix (h : InSpan f.previousScreenBase 0x400 a)
  | bitmap (h : InSpan f.activeBitmapBase 0x2000 a)
  | charset (h : InSpan f.activeCharsetBase 0x800 a)
  | shape (h : f.Shows ram (a.toNat / 64))

/-- An enabled sprite selects the block in $C000-$CBFF as it is. -/
def SelectsRaw (r : ℕ) : Prop :=
  f.vicBank = 3 ∧ ∃ n < 8, (f.vicRegShadow 0x15).getLsbD n = true ∧
    f.pointerByte ram n = BitVec.ofNat 8 r

/-- The VIC draws characters from the block. -/
def DrawsCharacters (r : ℕ) : Prop := InSpan f.activeCharsetBase 0x800 (blockByte r 0)

/-- The row of pointers of a matrix, or none. -/
def IsRow (base : BitVec 32) : Prop :=
  base = noBase ∨ ∃ k < 64, base.toNat = k * 0x400 + 0x3F8

/-- The row is the one of the registers, or bank 0 is selected, as after a reset. The tables are
inverse to each other. -/
structure PoolSound : Prop where
  row : f.spritePtrBase = f.pointerBase ∨ f.vicBank = 0
  active : IsRow f.spritePtrBase
  previous : IsRow f.previousSpritePtrBase
  inverse : f.relocation.Inverse

variable {f ram}

/-! ### Reachable states -/

theorem inverse_afterPointer (h : f.relocation.Inverse) (v : Byte) :
    (f.afterPointer v).relocation.Inverse := by
  rw [afterPointer]
  split
  · exact h
  next hrelocates =>
    split
    · exact h
    next hsource =>
      cases hfree : f.freeRelocBlock with
      | none => exact h
      | some r =>
          have hr := List.mem_of_find?_eq_some hfree
          have husable := List.find?_some hfree
          rw [relocUsable] at husable
          simp only [relocates, Bool.not_eq_false, Bool.and_eq_true, decide_eq_true_eq,
            not_not] at hrelocates hsource husable
          exact h.claim (BitVec.le_def.mp hrelocates.1.1.1.2) (BitVec.lt_def.mp hrelocates.1.1.2)
            (List.mem_range.mp hr) hsource husable.1.1.1

theorem PoolSound.afterPointer (h : f.PoolSound) (v : Byte) : (f.afterPointer v).PoolSound := by
  obtain ⟨hbase, hpointer⟩ := afterPointer_base f v
  have hbank : (f.afterPointer v).vicBank = f.vicBank ∧
      (f.afterPointer v).previousSpritePtrBase = f.previousSpritePtrBase := by
    rw [Fetch.afterPointer]
    split
    · exact ⟨rfl, rfl⟩
    split
    · exact ⟨rfl, rfl⟩
    · cases f.freeRelocBlock <;> exact ⟨rfl, rfl⟩
  refine ⟨?_, hbase ▸ h.active, hbank.2 ▸ h.previous, inverse_afterPointer h.inverse v⟩
  rw [hbase, hpointer, hbank.1]
  exact h.row

theorem isRow_pointerBase (f : Fetch) : IsRow f.pointerBase := by
  have hbank := f.vicBank_lt
  have hscreen := f.lastD018.isLt
  rw [pointerBase]
  split
  · exact .inl rfl
  · refine .inr ⟨f.vicBank.toNat * 16 + f.lastD018.toNat / 16, by omega, ?_⟩
    rw [toNat_screenRow]
    omega

/-- A change of the row takes both rows along. -/
theorem PoolSound.updateSpritePtrBase (hactive : IsRow f.spritePtrBase)
    (hprevious : IsRow f.previousSpritePtrBase) (hinverse : f.relocation.Inverse) :
    f.updateSpritePtrBase.PoolSound := by
  have hcases : f.updateSpritePtrBase.previousSpritePtrBase = f.spritePtrBase ∨
      f.updateSpritePtrBase.previousSpritePtrBase = f.previousSpritePtrBase := ite_eq_or_eq _ _ _
  refine ⟨.inl rfl, isRow_pointerBase f, ?_, hinverse⟩
  obtain hcase | hcase := hcases <;> rw [hcase]
  · exact hactive
  · exact hprevious

theorem PoolSound.updateHotShapeBlocks (h : f.PoolSound) (ram : Addr → Byte) :
    (f.updateHotShapeBlocks ram).PoolSound := ⟨h.row, h.active, h.previous, h.inverse⟩

theorem PoolSound.refreshed (hactive : IsRow f.spritePtrBase)
    (hprevious : IsRow f.previousSpritePtrBase) (hinverse : f.relocation.Inverse)
    (ram : Addr → Byte) : (f.updateSpritePtrBase.updateHotShapeBlocks ram).PoolSound :=
  (PoolSound.updateSpritePtrBase hactive hprevious hinverse).updateHotShapeBlocks ram

theorem poolSound_invariant : FetchInvariant fun f _ => f.PoolSound where
  sampleSerial _ _ _ h := ⟨h.row, h.active, h.previous, h.inverse⟩
  portA _ ram _ h := by
    apply PoolSound.refreshed
    exacts [h.active, h.previous, h.inverse]
  screen _ ram _ h := by
    apply PoolSound.refreshed
    exacts [h.active, h.previous, h.inverse]
  direction _ ram _ h := by
    apply PoolSound.refreshed
    exacts [h.active, h.previous, h.inverse]
  accessible _ ram _ h := by
    apply PoolSound.refreshed
    exacts [h.active, h.previous, h.inverse]
  register _ _ _ _ _ h := ⟨h.row, h.active, h.previous, h.inverse⟩
  enable _ _ _ h := ⟨h.row, h.active, h.previous, h.inverse⟩
  port _ _ _ _ _ h := h
  store _ _ _ _ _ h := h
  count _ _ h := ⟨h.row, h.active, h.previous, h.inverse⟩
  commit _ _ _ _ _ h := h.updateHotShapeBlocks _
  deliver _ _ _ v _ h := (h.afterPointer v).updateHotShapeBlocks _

theorem poolSound_reset (f : Fetch) (ram : Addr → Byte) : (f.reset ram).PoolSound := by
  have hrow : f.resetRow.updateSpritePtrBase.PoolSound :=
    PoolSound.updateSpritePtrBase (.inl rfl) (.inl rfl) Relocation.inverse_none
  exact ⟨.inr rfl, hrow.active, hrow.previous, hrow.inverse⟩

/-! ### The search -/

theorem freeRelocBlock_eq_some_iff {r : ℕ} :
    f.freeRelocBlock = some r ↔
      r < 0x30 ∧ f.relocUsable r = true ∧ ∀ r' < r, f.relocUsable r' = false := by
  rw [freeRelocBlock, List.find?_range_eq_some]
  simp only [List.mem_range, Bool.not_eq_eq_eq_not, Bool.not_true]
  tauto

/-- The first address of a matrix, as the search computes it from its row of pointers. -/
def matrixOf (row : BitVec 32) : ℕ := ((row - 0x3F8#32) &&& 0xFFFF#32).toNat

theorem matrixOf_lt (row : BitVec 32) : matrixOf row < 0x10000 := by
  rw [matrixOf, BitVec.toNat_and]
  exact Nat.lt_succ_of_le Nat.and_le_right

theorem matrixOf_eq {row : BitVec 32} {base : ℕ} (hrow : row.toNat = base + 0x3F8)
    (hbase : base < 0x10000) : matrixOf row = base := by
  have hmask := Nat.and_two_pow_sub_one_eq_mod (row - 0x3F8#32).toNat 16
  rw [matrixOf, BitVec.toNat_and]
  refine hmask.trans ?_
  rw [BitVec.toNat_sub, hrow]
  simp only [BitVec.toNat_ofNat]
  omega

theorem relocUsable_iff {r : ℕ} (hr : r < 0x30) :
    f.relocUsable r = true ↔
      f.relocation.inUse r = 0xFF#8 ∧
        ¬ (matrixOf f.spritePtrBase ≤ 0xC000 + r * 64 ∧
          0xC000 + r * 64 < matrixOf f.spritePtrBase + 0x400) ∧
        (f.previousSpritePtrBase ≠ noBase →
          ¬ (matrixOf f.previousSpritePtrBase ≤ 0xC000 + r * 64 ∧
            0xC000 + r * 64 < matrixOf f.previousSpritePtrBase + 0x400)) ∧
        ¬ (f.vicRegShadow 0x11 &&& 0x20#8 ≠ 0 ∧ f.lastD018 &&& 0x08#8 = 0) := by
  have haddr : (0xC000#32 + BitVec.ofNat 32 r <<< 6).toNat = 0xC000 + r * 64 := by
    rw [BitVec.toNat_add, BitVec.toNat_shiftLeft]
    simp [Nat.shiftLeft_eq]
    omega
  have hstart (row : BitVec 32) : ((row - 0x3F8#32) &&& 0xFFFF#32).toNat = matrixOf row := rfl
  have hend (row : BitVec 32) :
      (((row - 0x3F8#32) &&& 0xFFFF#32) + 0x400#32).toNat = matrixOf row + 0x400 := by
    have hlt := matrixOf_lt row
    rw [BitVec.toNat_add, hstart]
    simp only [BitVec.toNat_ofNat]
    omega
  rw [relocUsable]
  simp only [Bool.and_eq_true, decide_eq_true_eq, Bool.not_eq_true', Bool.and_eq_false_iff,
    decide_eq_false_iff_not, BitVec.le_def, BitVec.lt_def, haddr, hstart, hend, bne_eq_false_iff_eq,
    beq_eq_false_iff_ne, and_assoc, or_assoc]
  refine and_congr_right fun _ => and_congr not_and_or.symm (and_congr ?_ ?_)
  · rw [← not_and_or, ← imp_iff_not_or]
  · rw [not_and_or, not_not]

/-! ### What a usable block may be showing -/

theorem toNat_activeVICScreenBase :
    f.activeVICScreenBase.toNat = f.vicBank.toNat * 0x4000 + f.lastD018.toNat / 16 * 0x400 := by
  have hbank := f.vicBank_lt
  have hscreen := f.lastD018.isLt
  rw [activeVICScreenBase, activeVICBankBase]
  simp only [BitVec.toNat_add, BitVec.toNat_shiftLeft, BitVec.toNat_setWidth,
    BitVec.toNat_ushiftRight, Nat.shiftLeft_eq, Nat.shiftRight_eq_div_pow]
  omega

/-- The search looks at the active matrix. -/
theorem not_matrix_of_usable (h : f.PoolSound) {r i : ℕ} (hr : r < 0x30) (hi : i < 64)
    (husable : f.relocUsable r = true) :
    ¬ InSpan f.activeVICScreenBase 0x400 (blockByte r i) := by
  rintro ⟨-, hlow, hhigh⟩
  rw [toNat_blockByte (by omega) hi, toNat_activeVICScreenBase] at hlow hhigh
  have hscreen := f.lastD018.isLt
  obtain hrow | hbank := h.row
  · obtain ⟨-, hmatrix, -⟩ := (relocUsable_iff hr).mp husable
    have hbank := f.vicBank_lt
    by_cases hnone : f.spritePtrBase = noBase
    · -- without a row the matrix lies under the I/O window
      have hunder := hrow.symm.trans hnone
      rw [pointerBase] at hunder
      split at hunder
      next hwindow =>
        have hle : ((f.activeVICScreenBase + 0x3F8#32) &&& 0xF000#32).toNat ≤
            (f.activeVICScreenBase + 0x3F8#32).toNat := by
          rw [BitVec.toNat_and]
          exact Nat.and_le_left
        rw [hwindow.2, toNat_screenRow] at hle
        change 0xD000 ≤ _ at hle
        omega
      · exact screenRow_ne_noBase f hunder
    · have hbase : matrixOf f.spritePtrBase =
          f.vicBank.toNat * 0x4000 + f.lastD018.toNat / 16 * 0x400 := by
        refine matrixOf_eq ?_ (by omega)
        rw [eq_screenRow hrow hnone, toNat_screenRow]
      omega
  · rw [hbank] at hlow hhigh
    simp at hhigh
    omega

/-- The search looks at the matrix before it. -/
theorem not_previousMatrix_of_usable (h : f.PoolSound) {r i : ℕ} (hr : r < 0x30) (hi : i < 64)
    (husable : f.relocUsable r = true) :
    ¬ InSpan f.previousScreenBase 0x400 (blockByte r i) := by
  rintro ⟨hsome, hlow, hhigh⟩
  rw [toNat_blockByte (by omega) hi] at hlow hhigh
  obtain ⟨-, -, hprevious, -⟩ := (relocUsable_iff hr).mp husable
  rw [previousScreenBase] at hsome hlow hhigh
  split at hsome
  · exact hsome rfl
  next hrow =>
    rw [if_neg hrow] at hlow hhigh
    change matrixOf f.previousSpritePtrBase ≤ _ at hlow
    change _ < matrixOf f.previousSpritePtrBase + 0x400 at hhigh
    obtain hnone | ⟨k, hk, hbase⟩ := h.previous
    · exact hrow hnone
    have hmatrix := hprevious hrow
    rw [matrixOf_eq hbase (by omega)] at hlow hhigh hmatrix
    omega

theorem toNat_activeVICBankBase : f.activeVICBankBase.toNat = f.vicBank.toNat * 0x4000 := by
  have hbank := f.vicBank_lt
  rw [activeVICBankBase]
  simp only [BitVec.toNat_shiftLeft, BitVec.toNat_setWidth, Nat.shiftLeft_eq]
  omega

/-- The search looks at the bitmap. -/
theorem not_bitmap_of_usable {r i : ℕ} (hr : r < 0x30) (hi : i < 64)
    (husable : f.relocUsable r = true) :
    ¬ InSpan f.activeBitmapBase 0x2000 (blockByte r i) := by
  rintro ⟨hsome, hlow, hhigh⟩
  rw [toNat_blockByte (by omega) hi] at hlow hhigh
  obtain ⟨-, -, -, hbitmap⟩ := (relocUsable_iff hr).mp husable
  have hbank := f.vicBank_lt
  rw [activeBitmapBase] at hsome hlow hhigh
  split at hsome
  · exact hsome rfl
  next hmode =>
    rw [if_neg hmode, BitVec.toNat_add, toNat_activeVICBankBase] at hlow hhigh
    have hhalf : ¬ f.lastD018 &&& 0x08 = 0 := fun h => hbitmap ⟨hmode, h⟩
    rw [if_pos hhalf] at hlow hhigh
    have hoffset : (0x2000 : BitVec 32).toNat = 0x2000 := rfl
    omega

theorem charset_aligned : f.activeCharsetBase = noBase ∨ f.activeCharsetBase.toNat % 64 = 0 := by
  rw [activeCharsetBase]
  split
  · exact .inl rfl
  dsimp only
  split
  · exact .inl rfl
  · right
    rw [BitVec.toNat_add, BitVec.toNat_shiftLeft, BitVec.toNat_shiftLeft, Nat.shiftLeft_eq,
      Nat.shiftLeft_eq]
    omega

/-- A block is in the character set with all its bytes or with none. -/
theorem charset_iff {r i : ℕ} (hr : r < 0x30) (hi : i < 64) :
    InSpan f.activeCharsetBase 0x800 (blockByte r i) ↔ f.DrawsCharacters r := by
  rw [DrawsCharacters, InSpan, InSpan, toNat_blockByte (by omega) hi,
    toNat_blockByte (by omega) (by decide)]
  refine and_congr_right fun hsome => ?_
  have haligned := charset_aligned.resolve_left hsome
  omega

/-- A sprite shows a free block only if it selects it as it is: the home of a relocated shape
is not free. -/
theorem shows_iff (h : f.PoolSound) {r i : ℕ} (hr : r < 0x30) (hi : i < 64)
    (hfree : f.relocation.inUse r = 0xFF#8) :
    f.Shows ram ((blockByte r i).toNat / 64) ↔ f.SelectsRaw ram r := by
  have hblock : (blockByte r i).toNat / 64 = 3 * 256 + r := by
    rw [toNat_blockByte (by omega) hi]
    omega
  have hthree : f.vicBank.toNat = 3 ↔ f.vicBank = 3 :=
    ⟨fun h => BitVec.eq_of_toNat_eq h, fun h => by rw [h]; rfl⟩
  have hpointer (v : Byte) : (f.deliveredPointer v).toNat = r ↔ v = BitVec.ofNat 8 r := by
    have hbyte (v : Byte) : v.toNat = r ↔ v = BitVec.ofNat 8 r := by
      rw [← BitVec.toNat_inj, BitVec.toNat_ofNat, Nat.mod_eq_of_lt (by omega)]
    rw [deliveredPointer]
    split
    next hmoved =>
      obtain ⟨-, -, hlow, hhigh, -⟩ := hmoved
      have hlow : 0x40 ≤ v.toNat := BitVec.le_def.mp hlow
      have hhigh : v.toNat < 0x80 := BitVec.lt_def.mp hhigh
      refine iff_of_false (fun hhome => ?_) fun hraw => ?_
      · have hused := (h.inverse.inverse (v.toNat - 0x40) (by omega) r hr).mp ((hbyte _).mp hhome)
        exact Relocation.ofNat_ne_free (by omega) (hused.symm.trans hfree)
      · have := (hbyte v).mpr hraw
        omega
    · exact hbyte v
  rw [hblock, Shows, SelectsRaw]
  constructor
  · rintro ⟨n, hn, henabled, hshown⟩
    have hlt := (f.deliveredPointer (f.pointerByte ram n)).isLt
    have hbank := f.vicBank_lt
    exact ⟨hthree.mp (by omega), n, hn, henabled, (hpointer _).mp (by omega)⟩
  · rintro ⟨hbank, n, hn, henabled, hraw⟩
    refine ⟨n, hn, henabled, ?_⟩
    rw [hthree.mpr hbank, (hpointer _).mpr hraw]

/-- A usable block shows characters or a shape of its own, or nothing. -/
theorem displays_usable_iff (h : f.PoolSound) {r i : ℕ} (hr : r < 0x30) (hi : i < 64)
    (husable : f.relocUsable r = true) :
    f.Displays ram (blockByte r i) ↔ f.DrawsCharacters r ∨ f.SelectsRaw ram r := by
  have hfree := ((relocUsable_iff hr).mp husable).1
  constructor
  · intro hshown
    cases hshown with
    | matrix hspan => exact absurd hspan (not_matrix_of_usable h hr hi husable)
    | previousMatrix hspan => exact absurd hspan (not_previousMatrix_of_usable h hr hi husable)
    | bitmap hspan => exact absurd hspan (not_bitmap_of_usable hr hi husable)
    | charset hspan => exact .inl ((charset_iff hr hi).mp hspan)
    | shape hshape => exact .inr ((shows_iff h hr hi hfree).mp hshape)
  · rintro (hdraws | hselects)
    · exact .charset ((charset_iff hr hi).mpr hdraws)
    · exact .shape ((shows_iff h hr hi hfree).mpr hselects)

end Fetch

section Runs

variable {ρ : Type} (board : Board ρ) (depth : ℕ)

/-- Every state of a run that begins with a reset is sound. -/
theorem poolSound_run (s : Machine (WithREU ρ)) (ops : List (MemoryOp (WithREU ρ))) :
    (run (memoryStep (board.env depth)) s (.reset :: ops)).memory.fetch.PoolSound := by
  have hreset (s : Machine (WithREU ρ)) :
      (memoryStep (board.env depth) s .reset).memory.fetch.PoolSound := by
    obtain ⟨hf, -⟩ := reset_spec (board.env depth) s
    rw [memoryStep, MemoryOp.program, hf]
    exact Fetch.poolSound_reset _ _
  rw [run_cons]
  refine run_invariant (P := fun s : Machine (WithREU ρ) => s.memory.fetch.PoolSound) _ ?_ _ ops
    (hreset s)
  intro s op h
  by_cases hop : op = .reset
  · subst hop
    exact hreset s
  · exact onFetch_program Fetch.poolSound_invariant
      (env_keeps board Fetch.poolSound_invariant.keptByAccesses depth) hop s h

/-- In every reachable state, claiming a block takes nothing that the VIC shows, exactly if each
usable block that is part of the character set, or that an enabled sprite selects as it is,
comes after another usable block. -/
theorem claim_spares_display_iff (s : Machine (WithREU ρ)) (ops : List (MemoryOp (WithREU ρ))) :
    let reached := run (memoryStep (board.env depth)) s (.reset :: ops)
    let f := reached.memory.fetch
    (∀ v, 0x40#8 ≤ v → v < 0x80#8 →
        let r := ((allocRelocBlock (board.env depth) v).run reached).1
        r ≠ 0xFF#8 → ∀ i < 64, ¬ f.Displays reached.memory.ram (blockByte r.toNat i)) ↔
      ∀ r < 0x30, f.relocUsable r = true →
        f.DrawsCharacters r ∨ f.SelectsRaw reached.memory.ram r →
          ∃ r' < r, f.relocUsable r' = true := by
  intro reached f
  have hsound : f.PoolSound := poolSound_run board depth s ops
  constructor
  · intro hspares r hr husable hshown
    by_contra hnone
    have hfirst : f.freeRelocBlock = some r := by
      refine Fetch.freeRelocBlock_eq_some_iff.mpr ⟨hr, husable, fun r' hr' => ?_⟩
      rw [← Bool.not_eq_true]
      exact fun husable' => hnone ⟨r', hr', husable'⟩
    obtain ⟨⟨hfree, -⟩ | ⟨r', hfree, hvalue, -⟩, -⟩ :=
      allocRelocBlock_spec (board.env depth) 0x40#8 reached
    · exact absurd (hfirst.symm.trans hfree) (Option.some_ne_none r)
    · obtain rfl : r = r' := Option.some.inj (hfirst.symm.trans hfree)
      have hblock := hspares 0x40#8 (by decide) (by decide)
      rw [hvalue] at hblock
      have htoNat : (BitVec.ofNat 8 r).toNat = r := by
        rw [BitVec.toNat_ofNat, Nat.mod_eq_of_lt (by omega)]
      refine hblock (relocBlock_ne_none hr) 0 (by decide) ?_
      rw [htoNat]
      exact (Fetch.displays_usable_iff hsound hr (by decide) husable).mpr hshown
  · intro hcondition v hlow hhigh r hr i hi hshown
    obtain ⟨⟨-, hvalue, -⟩ | ⟨r', hfree, hvalue, -⟩, -⟩ :=
      allocRelocBlock_spec (board.env depth) v reached
    · exact hr hvalue
    · obtain ⟨hr', husable, hfirst⟩ := Fetch.freeRelocBlock_eq_some_iff.mp hfree
      have htoNat : r.toNat = r' := by
        change ((allocRelocBlock (board.env depth) v).run reached).1.toNat = r'
        rw [hvalue, BitVec.toNat_ofNat, Nat.mod_eq_of_lt (by omega)]
      rw [htoNat] at hshown
      obtain ⟨r'', hbefore, husable'⟩ := hcondition r' hr' husable
        ((Fetch.displays_usable_iff hsound hr' hi husable).mp hshown)
      have hunusable : f.relocUsable r'' = false := hfirst r'' hbefore
      rw [husable'] at hunusable
      cases hunusable

/-- Text in bank 3 with the matrix at $CC00 and the characters at $C000: the first block that is
claimed is that of the first characters. -/
theorem claim_takes_characters :
    let shown := run (memoryStep (emptyBoard.env 0)) emptyMachine
      [.reset, .write8 0xDD02 0x3F, .write8 0xDD00 0x00, .write8 0xD018 0x30]
    ((allocRelocBlock (emptyBoard.env 0) 0x40).run shown).1 = 0 ∧
      shown.memory.fetch.Displays shown.memory.ram (blockByte 0 0) := by
  intro shown
  have hcharset : shown.memory.fetch.activeCharsetBase = 0xC000 := by decide +kernel
  refine ⟨by decide +kernel, .charset ?_⟩
  rw [hcharset]
  exact ⟨by decide, by decide, by decide⟩

end Runs

end ScpuEmu
