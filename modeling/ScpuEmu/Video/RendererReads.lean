import ScpuEmu.Video.SpriteSequencer

/-!
# What the renderer reads

The reads of a row are those of its forty graphics cells, when the row shows
graphics, followed by those of the sprites that show a line on it. Drawing pixels
reads nothing.
-/

namespace ScpuEmu

open Library

namespace RowOutput

@[simp] theorem reads_set (out : RowOutput) (x : ℕ) (value : Byte) :
    (out.set x value).reads = out.reads := rfl

@[simp] theorem reads_memcpy (out : RowOutput) (x count : ℕ) (source : ℕ → Byte) :
    (out.memcpy x count source).reads = out.reads :=
  foldl_keeps (fun (out : RowOutput) i => out.set (x + i) (source i)) RowOutput.reads
    (fun _ _ => rfl) out (List.range count)

@[simp] theorem reads_memset (out : RowOutput) (x count : ℕ) (value : Byte) :
    (out.memset x count value).reads = out.reads :=
  reads_memcpy out x count _

@[simp] theorem reads_read (out : RowOutput) (reads : List VICRead) :
    (out.read reads).reads = out.reads ++ reads := rfl

end RowOutput

theorem reads_drawCell (state : VICRenderState) (context : VICRenderContext) (aperture : Aperture)
    (cellRow glyphLine : ℕ) (acc : RowOutput × (ℕ → Byte)) (col : ℕ) :
    (drawCell state context aperture cellRow glyphLine acc col).1.reads =
      acc.1.reads ++ (decodeGraphicsCell state context (cellRow * 40 + col) glyphLine).reads := by
  rw [drawCell]
  dsimp only
  split_ifs <;> simp

namespace VICRenderState

variable (state : VICRenderState) (context : VICRenderContext)

theorem reads_detectCollision (aperture : Aperture) (opaqueCells : ℕ → Byte) (y n x : ℕ)
    (acc : SpriteRow) :
    (state.detectCollision context aperture opaqueCells y n x acc).out.reads = acc.out.reads := by
  rw [detectCollision]
  split
  · rfl
  · split <;> rfl

theorem reads_drawSpritePixel (aperture : Aperture) (opaqueCells : ℕ → Byte) (y : ℕ)
    (drawRow : Bool) (n left : ℕ) (bits : BitVec 32) (acc : SpriteRow) (outputPixel : ℕ) :
    (state.drawSpritePixel context aperture opaqueCells y drawRow n left bits acc
      outputPixel).out.reads = acc.out.reads := by
  rw [drawSpritePixel]
  split
  · rfl
  · split
    · exact state.reads_detectCollision context aperture opaqueCells y n _ acc
    · split <;> exact state.reads_detectCollision context aperture opaqueCells y n _ acc

/-- The reads of one pass of the sprite loop. -/
def spriteReads (y n : ℕ) : List VICRead :=
  match state.spriteLine y n with
  | none => []
  | some line => state.fetchReads n line

theorem reads_drawSprite (aperture : Aperture) (opaqueCells : ℕ → Byte) (y : ℕ) (drawRow : Bool)
    (acc : SpriteRow) (n : ℕ) :
    (state.drawSprite context aperture opaqueCells y drawRow acc n).out.reads =
      acc.out.reads ++ state.spriteReads y n := by
  rw [drawSprite, spriteReads]
  cases state.spriteLine y n with
  | none => exact (List.append_nil _).symm
  | some line =>
      exact foldl_keeps _ (fun acc : SpriteRow => acc.out.reads)
        (state.reads_drawSpritePixel context aperture opaqueCells y drawRow n _ _) _ _

/-- The reads of the sprite loop on a row. -/
def spriteRowReads (y : ℕ) : List VICRead :=
  if state.vic 0x15 = 0 ∨ state.ram.isNone ∨ 0x10000 ≤ state.screenBase then []
  else (List.range 8).reverse.flatMap (state.spriteReads y)

theorem reads_renderSpritesOnRow (aperture : Aperture) (opaqueCells : ℕ → Byte) (y : ℕ)
    (drawRow : Bool) (out : RowOutput) :
    (state.renderSpritesOnRow context aperture opaqueCells y drawRow out).reads =
      out.reads ++ state.spriteRowReads y := by
  rw [renderSpritesOnRow, spriteRowReads]
  split
  · exact (List.append_nil _).symm
  · exact foldl_log _ (fun acc : SpriteRow => acc.out.reads) (state.spriteReads y)
      (state.reads_drawSprite context aperture opaqueCells y drawRow) _ _

theorem forall_mem_spriteRowReads {state : VICRenderState} (hram : state.ram.isNone = false)
    (hscreen : state.screenBase < 0x10000) (y : ℕ) (P : VICRead → Prop) :
    (∀ r ∈ state.spriteRowReads y, P r) ↔ ∀ n < 8, ∀ r ∈ state.spriteReads y n, P r := by
  rw [spriteRowReads]
  by_cases hnone : state.vic 0x15 = 0
  · rw [if_pos (.inl hnone)]
    refine iff_of_true (by simp) fun n _ r hr => ?_
    have hdisabled : state.spriteEnabled n = false := by
      rw [spriteEnabled, hnone]
      exact BitVec.getLsbD_zero
    rw [spriteReads, spriteLine, if_pos hdisabled] at hr
    cases hr
  · rw [if_neg (not_or.mpr ⟨hnone, by simp [hram, hscreen]⟩)]
    constructor
    · intro h n hn r hr
      exact h r (List.mem_flatMap.mpr ⟨n, by simpa using hn, hr⟩)
    · intro h r hr
      obtain ⟨n, hn, hr⟩ := List.mem_flatMap.mp hr
      exact h n (by simpa using hn) r hr

/-- The reads of the column loop on a row. -/
def graphicsReads (y : ℕ) : List VICRead :=
  let sourceY : ℤ := y - state.originY
  if context.mode.hasGraphics ∧ 0 ≤ sourceY ∧ sourceY < vicRenderDisplayH then
    (List.range 40).flatMap fun col =>
      (decodeGraphicsCell state context (sourceY.toNat / 8 * 40 + col)
        (sourceY.toNat % 8)).reads
  else []

theorem reads_renderGraphics (y : ℕ) (out : RowOutput) :
    (state.renderGraphics context y out).1.reads =
      out.reads ++ state.graphicsReads context y := by
  rw [renderGraphics, graphicsReads]
  split
  · rw [foldl_log _ (fun acc : RowOutput × (ℕ → Byte) => acc.1.reads) _
      (reads_drawCell state context state.aperture _ _)]
    simp
  · simp

/-- The reads of a row, its sprites drawn with the registers of `spriteState`. -/
def rowReads (spriteState : VICRenderState) (y : ℕ) : List VICRead :=
  (if context.mode = .blank ∨ y < state.aperture.top ∨ state.aperture.bottom ≤ y then []
    else state.graphicsReads context y) ++ spriteState.spriteRowReads y

theorem reads_renderRow (spriteState : VICRenderState) (y : ℕ) (out : RowOutput) :
    (state.renderRow context spriteState y out).reads =
      out.reads ++ state.rowReads context spriteState y := by
  rw [renderRow, rowReads]
  split
  · rw [reads_renderSpritesOnRow, RowOutput.reads_memset, List.nil_append]
  · rw [reads_renderSpritesOnRow, reads_renderGraphics, List.append_assoc]

end VICRenderState

section Graphics

variable {state : VICRenderState}

theorem makeContext_mode (state : VICRenderState) :
    state.makeContext.mode = .blank ∧ state.vic 0x11 &&& 0x10 = 0 ∨
      state.makeContext.mode = .unsupported ∨
      state.makeContext.mode = state.selectedMode ∧ state.vic 0x11 &&& 0x10 ≠ 0 := by
  rw [VICRenderState.makeContext]
  split
  · rename_i hblank
    exact .inl ⟨rfl, hblank⟩
  · rename_i hdisplay
    right
    dsimp only
    split_ifs <;> first | exact .inl rfl | exact .inr ⟨rfl, hdisplay⟩

theorem makeContext_patterns (h : state.makeContext.patterns = .ram) :
    state.makeContext.patternBase = state.charsetBase ∧ state.charsetBase ≠ charROMBase := by
  rw [VICRenderState.makeContext] at h ⊢
  split at h
  · cases h
  · rename_i hdisplay
    rw [if_neg hdisplay]
    dsimp only at h ⊢
    split_ifs at h ⊢ with _ _ hcharROM
    exact ⟨rfl, hcharROM⟩

/-- A RAM read of the pattern of a character lies in the character set. -/
theorem ram_mem_patternRead {a : Addr} {code glyphLine : ℕ} (hcode : code < 256)
    (hglyph : glyphLine < 8)
    (h : VICRead.ram a ∈ state.makeContext.patternRead
      (state.makeContext.patternBase + code * 8 + glyphLine)) :
    state.charsetBase ≠ charROMBase ∧
      ∃ i < 2048, a = BitVec.ofNat 16 (state.charsetBase + i) := by
  rw [VICRenderContext.patternRead] at h
  cases hpatterns : state.makeContext.patterns with
  | null =>
      rw [hpatterns] at h
      cases h
  | charROM =>
      rw [hpatterns] at h
      simp at h
  | ram =>
      obtain ⟨hbase, hrom⟩ := makeContext_patterns hpatterns
      rw [hpatterns, hbase] at h
      rw [List.mem_singleton, VICRead.ram.injEq] at h
      exact ⟨hrom, code * 8 + glyphLine, by omega, by rw [h, Nat.add_assoc]⟩

/-- A RAM read of a cell is its matrix byte, a byte of the character set or of the bitmap. -/
theorem ram_mem_decodeGraphicsCell {a : Addr} {cell glyphLine : ℕ} (hglyph : glyphLine < 8)
    (h : VICRead.ram a ∈ (decodeGraphicsCell state state.makeContext cell glyphLine).reads) :
    a = BitVec.ofNat 16 (state.screenBase + cell) ∨
      (state.makeContext.mode.isText ∧ state.charsetBase ≠ charROMBase ∧
        ∃ i < 2048, a = BitVec.ofNat 16 (state.charsetBase + i)) ∨
      state.makeContext.mode.isBitmap ∧
        a = BitVec.ofNat 16 (state.bitmapBase + cell * 8 + glyphLine) := by
  have hcell : ∀ reads : List VICRead, VICRead.ram a ∈ state.cellReads cell ++ reads →
      a = BitVec.ofNat 16 (state.screenBase + cell) ∨ VICRead.ram a ∈ reads := by
    intro reads hmem
    rw [List.mem_append, VICRenderState.cellReads, List.mem_cons, VICRead.ram.injEq] at hmem
    rcases hmem with (heq | hcolour) | hmem
    · exact .inl heq
    · split at hcolour
      · simp at hcolour
      · cases hcolour
    · exact .inr hmem
  have hscreen := (state.ramByte (state.screenBase + cell)).isLt
  have hcode := (state.ramByte (state.screenBase + cell) &&& 0x3F).isLt
  rw [decodeGraphicsCell] at h
  cases hmode : state.makeContext.mode with
  | standardText =>
      rw [hmode] at h
      rcases hcell _ h with heq | hmem
      · exact .inl heq
      · exact .inr (.inl ⟨rfl, ram_mem_patternRead hscreen hglyph hmem⟩)
  | multicolorText =>
      rw [hmode] at h
      have hmem := by
        refine hcell (state.makeContext.patternRead (state.makeContext.patternBase +
          (state.ramByte (state.screenBase + cell)).toNat * 8 + glyphLine)) ?_
        dsimp only at h
        split at h <;> exact h
      rcases hmem with heq | hmem
      · exact .inl heq
      · exact .inr (.inl ⟨rfl, ram_mem_patternRead hscreen hglyph hmem⟩)
  | extendedText =>
      rw [hmode] at h
      rcases hcell _ h with heq | hmem
      · exact .inl heq
      · exact .inr (.inl ⟨rfl, ram_mem_patternRead hcode hglyph hmem⟩)
  | standardBitmap =>
      rw [hmode] at h
      rcases hcell _ h with heq | hmem
      · exact .inl heq
      · rw [List.mem_singleton, VICRead.ram.injEq] at hmem
        exact .inr (.inr ⟨rfl, hmem⟩)
  | multicolorBitmap =>
      rw [hmode] at h
      rcases hcell _ h with heq | hmem
      · exact .inl heq
      · rw [List.mem_singleton, VICRead.ram.injEq] at hmem
        exact .inr (.inr ⟨rfl, hmem⟩)
  | blank | invalid | unsupported =>
      rw [hmode] at h
      rcases hcell [] (by rw [List.append_nil]; exact h) with heq | hmem
      · exact .inl heq
      · cases hmem

/-- A RAM read of a row's graphics, with the cell it is for. -/
theorem ram_mem_graphicsReads {a : Addr} {y : ℕ}
    (h : VICRead.ram a ∈ state.graphicsReads state.makeContext y) :
    state.makeContext.mode.hasGraphics = true ∧ ∃ cell < 1000, ∃ glyphLine < 8,
      VICRead.ram a ∈ (decodeGraphicsCell state state.makeContext cell glyphLine).reads := by
  rw [VICRenderState.graphicsReads] at h
  split at h
  · rename_i hrow
    obtain ⟨col, hcol, hread⟩ := List.mem_flatMap.mp h
    rw [List.mem_range] at hcol
    obtain ⟨hgraphics, hlow, hhigh⟩ := hrow
    have hlines : ((y : ℤ) - state.originY).toNat < 200 := by
      simp only [vicRenderDisplayH] at hhigh
      omega
    exact ⟨hgraphics, _, by omega, _, Nat.mod_lt _ (by decide), hread⟩
  · cases h

end Graphics

end ScpuEmu
