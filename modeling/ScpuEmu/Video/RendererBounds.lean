import ScpuEmu.Video.BandedRendering
import ScpuEmu.Video.RendererReads

/-!
# Where the renderer reads and writes

Whatever the registers hold, the renderer reads inside the memories it was given
and writes inside the first `vicRenderWidth` bytes of the rows it was asked for.
-/

namespace ScpuEmu

open Library

/-- The byte exists: a memory that was given, and an index inside it. -/
def VICRead.InBounds (state : VICRenderState) : VICRead → Prop
  | .ram address => state.ram.isSome ∧ address.toNat < 0x10000
  | .charROM index => state.charROM.isSome ∧ index < 0x1000
  | .colourRAM index => state.colourRAM.isSome ∧ index < 0x400

namespace RowOutput

/-- Between two outputs only pixels of the row were written, and those are logged. -/
def Draws (out done : RowOutput) : Prop :=
  ∃ added, done.writes = out.writes ++ added ∧ (∀ x ∈ added, x < vicRenderWidth) ∧
    ∀ x ∉ added, done.dst x = out.dst x

theorem Draws.refl (out : RowOutput) : out.Draws out :=
  ⟨[], (List.append_nil _).symm, by simp, fun _ _ => rfl⟩

theorem Draws.trans {out drawn done : RowOutput} (h : out.Draws drawn) (h' : drawn.Draws done) :
    out.Draws done := by
  obtain ⟨added, hwrites, hbound, hkept⟩ := h
  obtain ⟨added', hwrites', hbound', hkept'⟩ := h'
  refine ⟨added ++ added', ?_, ?_, ?_⟩
  · rw [hwrites', hwrites, List.append_assoc]
  · intro x hx
    exact (List.mem_append.mp hx).elim (hbound x) (hbound' x)
  · intro x hx
    rw [List.mem_append, not_or] at hx
    rw [hkept' x hx.2, hkept x hx.1]

/-- Output that differs in its reads and collisions only. -/
theorem draws_of_eq {out done : RowOutput} (hwrites : done.writes = out.writes)
    (hdst : done.dst = out.dst) : out.Draws done :=
  ⟨[], by rw [hwrites, List.append_nil], by simp, fun x _ => congrFun hdst x⟩

theorem draws_set (out : RowOutput) {x : ℕ} (hx : x < vicRenderWidth) (value : Byte) :
    out.Draws (out.set x value) := by
  refine ⟨[x], rfl, ?_, ?_⟩
  · intro x' hx'
    rw [List.mem_singleton.mp hx']
    exact hx
  · intro x' hx'
    exact Function.update_of_ne (fun h => hx' (List.mem_singleton.mpr h)) value out.dst

theorem draws_memcpy (out : RowOutput) {x count : ℕ} (hcount : x + count ≤ vicRenderWidth)
    (source : ℕ → Byte) : out.Draws (out.memcpy x count source) := by
  refine foldl_related _ Draws.refl Draws.trans (List.range count) ?_ out
  intro out i hi
  rw [List.mem_range] at hi
  exact out.draws_set (by omega) (source i)

theorem draws_memset (out : RowOutput) {x count : ℕ} (hcount : x + count ≤ vicRenderWidth)
    (value : Byte) : out.Draws (out.memset x count value) :=
  out.draws_memcpy hcount _

theorem draws_read (out : RowOutput) (reads : List VICRead) : out.Draws (out.read reads) :=
  draws_of_eq rfl rfl

end RowOutput

namespace VICRenderState

open RowOutput

variable (state : VICRenderState) (context : VICRenderContext) {aperture : Aperture}

/-- The aperture lies inside the row. -/
theorem aperture_le : state.aperture.left ≤ state.aperture.right ∧
    state.aperture.right ≤ vicRenderWidth := by
  simp only [aperture, vicRenderDisplayX, vicRenderDisplayW, vicRenderWidth]
  split <;> omega

theorem draws_drawCell (hright : aperture.right ≤ vicRenderWidth) (cellRow glyphLine : ℕ)
    (acc : RowOutput × (ℕ → Byte)) (col : ℕ) :
    acc.1.Draws (drawCell state context aperture cellRow glyphLine acc col).1 := by
  have hcopyRight : (if aperture.right < state.originX + col * 8 + 8 then aperture.right
      else state.originX + col * 8 + 8) ≤ vicRenderWidth := by
    split <;> omega
  rw [drawCell]
  dsimp only
  generalize (if aperture.right < state.originX + col * 8 + 8 then aperture.right
    else state.originX + col * 8 + 8) = copyRight at hcopyRight ⊢
  generalize (if state.originX + col * 8 < aperture.left then aperture.left
    else state.originX + col * 8) = copyLeft
  split
  next hcopy => exact (acc.1.draws_read _).trans (draws_memcpy _ (by omega) _)
  next => exact acc.1.draws_read _

theorem draws_detectCollision (opaqueCells : ℕ → Byte) (y n x : ℕ) (acc : SpriteRow) :
    acc.out.Draws (state.detectCollision context aperture opaqueCells y n x acc).out := by
  rw [detectCollision]
  split
  · exact Draws.refl _
  · split
    · exact Draws.refl _
    · exact draws_of_eq rfl rfl

/-- The border clips what a sprite draws, and it begins inside the row. -/
theorem draws_drawSpritePixel (hright : aperture.right ≤ vicRenderWidth) (opaqueCells : ℕ → Byte)
    (y : ℕ) (drawRow : Bool) (n left : ℕ) (bits : BitVec 32) (acc : SpriteRow) (pixel : ℕ) :
    acc.out.Draws (state.drawSpritePixel context aperture opaqueCells y drawRow n left bits acc
      pixel).out := by
  have hdetected : acc.out.Draws
      (state.detectCollision context aperture opaqueCells y n (left + pixel) acc).out :=
    state.draws_detectCollision context opaqueCells y n (left + pixel) acc
  rw [drawSpritePixel]
  split
  next => exact Draws.refl _
  next =>
    dsimp only
    split
    next => exact hdetected
    next hshown =>
      split
      next => exact hdetected
      next =>
        rw [not_or, not_or, not_le] at hshown
        exact hdetected.trans (draws_set _ (hshown.2.2.trans_le hright) _)

theorem draws_drawSprite (hright : aperture.right ≤ vicRenderWidth) (opaqueCells : ℕ → Byte)
    (y : ℕ) (drawRow : Bool) (acc : SpriteRow) (n : ℕ) :
    acc.out.Draws (state.drawSprite context aperture opaqueCells y drawRow acc n).out := by
  rw [drawSprite]
  split
  next => exact Draws.refl _
  next line hline =>
    refine (acc.out.draws_read (state.fetchReads n line)).trans ?_
    exact foldl_related _ (R := fun a b : SpriteRow => a.out.Draws b.out) (fun _ => Draws.refl _)
      Draws.trans _ (fun acc pixel _ => state.draws_drawSpritePixel context hright opaqueCells y
        drawRow n _ _ acc pixel) _

theorem draws_renderSpritesOnRow (hright : aperture.right ≤ vicRenderWidth)
    (opaqueCells : ℕ → Byte) (y : ℕ) (drawRow : Bool) (out : RowOutput) :
    out.Draws (state.renderSpritesOnRow context aperture opaqueCells y drawRow out) := by
  rw [renderSpritesOnRow]
  split
  next => exact Draws.refl _
  next =>
    exact foldl_related _ (R := fun a b : SpriteRow => a.out.Draws b.out) (fun _ => Draws.refl _)
      Draws.trans _ (fun acc n _ => state.draws_drawSprite context hright opaqueCells y drawRow
        acc n) ⟨fun _ => 0, out⟩

theorem draws_renderGraphics (y : ℕ) (out : RowOutput) :
    out.Draws (state.renderGraphics context y out).1 := by
  obtain ⟨hleft, hright⟩ := state.aperture_le
  have hborder : out.Draws (((out.memset 0 state.aperture.left (state.vicColour 0x20)).memset
      state.aperture.right (vicRenderWidth - state.aperture.right) (state.vicColour 0x20)).memset
      state.aperture.left (state.aperture.right - state.aperture.left)
      (if context.mode = .invalid then 0 else state.vicColour 0x21)) :=
    ((out.draws_memset (by omega) _).trans (draws_memset _ (by omega) _)).trans
      (draws_memset _ (by omega) _)
  rw [renderGraphics]
  split
  next =>
    refine hborder.trans ?_
    exact foldl_related _ (R := fun a b : RowOutput × (ℕ → Byte) => a.1.Draws b.1)
      (fun _ => Draws.refl _) Draws.trans _
      (fun acc col _ => state.draws_drawCell context hright _ _ acc col) _
  next => exact hborder

theorem draws_renderRow (spriteState : VICRenderState) (y : ℕ) (out : RowOutput) :
    out.Draws (state.renderRow context spriteState y out) := by
  have hright := state.aperture_le.2
  rw [renderRow]
  dsimp only
  split
  next =>
    exact (out.draws_memset (Nat.le_of_eq (Nat.zero_add _)) _).trans
      (spriteState.draws_renderSpritesOnRow context hright _ y false _)
  next =>
    exact (state.draws_renderGraphics context y out).trans
      (spriteState.draws_renderSpritesOnRow context hright _ y true _)

end VICRenderState

section Reads

variable {state : VICRenderState}

theorem inBounds_ram (hram : state.ram.isSome) (address : Addr) :
    (VICRead.ram address).InBounds state := ⟨hram, address.isLt⟩

/-- Graphics are shown from RAM that was given. -/
theorem isSome_ram_of_hasGraphics (h : state.makeContext.mode.hasGraphics = true)
    (hblank : state.makeContext.mode ≠ .blank) : state.ram.isSome := by
  rw [VICRenderState.makeContext] at h hblank
  split at h
  next hoff =>
    rw [if_pos hoff] at hblank
    exact absurd rfl hblank
  next =>
    dsimp only at h
    split at h
    next => cases h
    next hunsupported =>
      rw [Bool.or_eq_true, not_or, Bool.not_eq_true] at hunsupported
      exact Option.isNone_eq_false_iff.mp hunsupported.1

/-- Patterns from the character ROM come from one of its two halves. -/
theorem makeContext_charROM (h : state.makeContext.patterns = .charROM) :
    state.charROM.isSome ∧ state.makeContext.patternBase ≤ 0x0800 := by
  rw [VICRenderState.makeContext] at h ⊢
  split at h
  · cases h
  · rename_i hdisplay
    rw [if_neg hdisplay]
    dsimp only at h ⊢
    split_ifs at h ⊢ with _ _ _ hrom hhalf
    · exact ⟨Option.isSome_iff_ne_none.mpr fun hnone => hrom (by rw [hnone]; rfl), le_refl _⟩
    · exact ⟨Option.isSome_iff_ne_none.mpr fun hnone => hrom (by rw [hnone]; rfl), Nat.zero_le _⟩

theorem inBounds_patternRead {code glyphLine : ℕ} (hram : state.ram.isSome) (hcode : code < 256)
    (hglyph : glyphLine < 8) : ∀ r ∈ state.makeContext.patternRead
      (state.makeContext.patternBase + code * 8 + glyphLine), r.InBounds state := by
  intro r hr
  rw [VICRenderContext.patternRead] at hr
  cases hpatterns : state.makeContext.patterns with
  | null =>
      rw [hpatterns] at hr
      cases hr
  | charROM =>
      obtain ⟨hrom, hbase⟩ := makeContext_charROM hpatterns
      rw [hpatterns, List.mem_singleton] at hr
      subst hr
      exact ⟨hrom, lt_of_le_of_lt (Nat.mod_le _ _) (by omega)⟩
  | ram =>
      rw [hpatterns, List.mem_singleton] at hr
      subst hr
      exact inBounds_ram hram _

theorem inBounds_cellReads (hram : state.ram.isSome) (cell : ℕ) :
    ∀ r ∈ state.cellReads cell, r.InBounds state := by
  intro r hr
  rw [VICRenderState.cellReads, List.mem_cons] at hr
  rcases hr with rfl | hr
  · exact inBounds_ram hram _
  · split at hr
    next hcolours =>
      rw [List.mem_singleton] at hr
      subst hr
      exact ⟨hcolours, Nat.mod_lt _ (by decide)⟩
    next => cases hr

theorem inBounds_decodeGraphicsCell (hram : state.ram.isSome) {cell glyphLine : ℕ}
    (hglyph : glyphLine < 8) :
    ∀ r ∈ (decodeGraphicsCell state state.makeContext cell glyphLine).reads, r.InBounds state := by
  have hscreen := (state.ramByte (state.screenBase + cell)).isLt
  have hcode := (state.ramByte (state.screenBase + cell) &&& 0x3F).isLt
  have happend : ∀ {reads : List VICRead}, (∀ r ∈ reads, r.InBounds state) →
      ∀ r ∈ state.cellReads cell ++ reads, r.InBounds state := by
    intro reads hreads r hr
    exact (List.mem_append.mp hr).elim (inBounds_cellReads hram cell r) (hreads r)
  have hbitmap : ∀ r ∈ [VICRead.ram (BitVec.ofNat 16 (state.bitmapBase + cell * 8 + glyphLine))],
      r.InBounds state := by
    intro r hr
    rw [List.mem_singleton.mp hr]
    exact inBounds_ram hram _
  rw [decodeGraphicsCell]
  cases state.makeContext.mode with
  | standardText => exact happend (inBounds_patternRead hram hscreen hglyph)
  | multicolorText =>
      dsimp only
      split <;> exact happend (inBounds_patternRead hram hscreen hglyph)
  | extendedText => exact happend (inBounds_patternRead hram hcode hglyph)
  | standardBitmap => exact happend hbitmap
  | multicolorBitmap => exact happend hbitmap
  | blank | invalid | unsupported => exact inBounds_cellReads hram cell

theorem inBounds_graphicsReads {y : ℕ} (hblank : state.makeContext.mode ≠ .blank) :
    ∀ r ∈ state.graphicsReads state.makeContext y, r.InBounds state := by
  intro r hr
  rw [VICRenderState.graphicsReads] at hr
  split at hr
  next hrow =>
    obtain ⟨col, -, hread⟩ := List.mem_flatMap.mp hr
    exact inBounds_decodeGraphicsCell (isSome_ram_of_hasGraphics hrow.1 hblank)
      (Nat.mod_lt _ (by decide)) r hread
  next => cases hr

theorem inBounds_fetchReads (hram : state.ram.isSome) (spriteState : VICRenderState)
    (n line : ℕ) : ∀ r ∈ spriteState.fetchReads n line, r.InBounds state := by
  intro r hr
  rw [VICRenderState.fetchReads, List.mem_append] at hr
  rcases hr with hpointer | hshape
  · rw [VICRenderState.pointerReads] at hpointer
    split at hpointer
    next => cases hpointer
    next =>
      rw [List.mem_singleton.mp hpointer]
      exact inBounds_ram hram _
  · simp only [List.mem_cons, List.not_mem_nil, or_false] at hshape
    rcases hshape with rfl | rfl | rfl <;> exact inBounds_ram hram _

/-- Sprites read nothing but RAM. -/
theorem inBounds_spriteRowReads {spriteState : VICRenderState}
    (hram : spriteState.ram = state.ram) (y : ℕ) :
    ∀ r ∈ spriteState.spriteRowReads y, r.InBounds state := by
  intro r hr
  rw [VICRenderState.spriteRowReads] at hr
  split at hr
  next => cases hr
  next hshown =>
    rw [not_or, not_or, Bool.not_eq_true, hram] at hshown
    obtain ⟨n, -, hread⟩ := List.mem_flatMap.mp hr
    rw [VICRenderState.spriteReads] at hread
    split at hread
    next => cases hread
    next line hline =>
      exact inBounds_fetchReads (Option.isNone_eq_false_iff.mp hshown.2.1) spriteState n line r
        hread

/-- The reads of a row, its sprites drawn from the RAM of `state`. -/
theorem inBounds_rowReads {spriteState : VICRenderState} (hram : spriteState.ram = state.ram)
    (y : ℕ) : ∀ r ∈ state.rowReads state.makeContext spriteState y, r.InBounds state := by
  intro r hr
  rw [VICRenderState.rowReads, List.mem_append] at hr
  rcases hr with hgraphics | hsprites
  · split at hgraphics
    next => cases hgraphics
    next hshown =>
      rw [not_or] at hshown
      exact inBounds_graphicsReads hshown.1 r hgraphics
  · exact inBounds_spriteRowReads hram y r hsprites

end Reads

/-- Between two targets only bytes of rows at the given offsets were written, those are
logged, and what was read lies in the memories. -/
def RenderTarget.Draws (state : VICRenderState) (AtRow : ℕ → Prop) (target done : RenderTarget) :
    Prop :=
  (∃ reads, done.reads = target.reads ++ reads ∧ ∀ r ∈ reads, r.InBounds state) ∧
    ∃ writes, done.writes = target.writes ++ writes ∧
      (∀ i ∈ writes, ∃ base, AtRow base ∧ ∃ x < vicRenderWidth, i = base + x) ∧
      ∀ i ∉ writes, done.pixels i = target.pixels i

section Rows

variable {state : VICRenderState} {AtRow : ℕ → Prop} {pitch : ℕ}

theorem RenderTarget.Draws.refl (target : RenderTarget) : target.Draws state AtRow target :=
  ⟨⟨[], (List.append_nil _).symm, by simp⟩, [], (List.append_nil _).symm, by simp,
    fun _ _ => rfl⟩

theorem RenderTarget.Draws.trans {target drawn done : RenderTarget}
    (h : target.Draws state AtRow drawn) (h' : drawn.Draws state AtRow done) :
    target.Draws state AtRow done := by
  obtain ⟨⟨reads, hreads, hinside⟩, writes, hwrites, hbound, hkept⟩ := h
  obtain ⟨⟨reads', hreads', hinside'⟩, writes', hwrites', hbound', hkept'⟩ := h'
  refine ⟨⟨reads ++ reads', ?_, ?_⟩, writes ++ writes', ?_, ?_, ?_⟩
  · rw [hreads', hreads, List.append_assoc]
  · intro r hr
    exact (List.mem_append.mp hr).elim (hinside r) (hinside' r)
  · rw [hwrites', hwrites, List.append_assoc]
  · intro i hi
    exact (List.mem_append.mp hi).elim (hbound i) (hbound' i)
  · intro i hi
    rw [List.mem_append, not_or] at hi
    rw [hkept' i hi.2, hkept i hi.1]

theorem RenderTarget.Draws.mono {AtPlace : ℕ → Prop} {target done : RenderTarget}
    (h : target.Draws state AtRow done) (hmono : ∀ base, AtRow base → AtPlace base) :
    target.Draws state AtPlace done := by
  obtain ⟨hreads, writes, hwrites, hbound, hkept⟩ := h
  refine ⟨hreads, writes, hwrites, fun i hi => ?_, hkept⟩
  obtain ⟨base, hbase, hx⟩ := hbound i hi
  exact ⟨base, hmono base hbase, hx⟩

/-- A row drawn at its offset and put back. -/
theorem draws_setRow {spriteState : VICRenderState} (hram : spriteState.ram = state.ram)
    {base : ℕ} (hbase : AtRow base) (y : ℕ) (target : RenderTarget)
    (sprites : Option VICRenderSpriteSequencer) :
    target.Draws state AtRow (target.setRow base
      (state.renderRow state.makeContext spriteState y (target.row base)) sprites) := by
  obtain ⟨added, hwrites, hbound, hkept⟩ :=
    state.draws_renderRow state.makeContext spriteState y (target.row base)
  have hreads := state.reads_renderRow state.makeContext spriteState y (target.row base)
  refine ⟨⟨_, hreads, inBounds_rowReads hram y⟩, added.map (base + ·), ?_, ?_, ?_⟩
  · show target.writes ++ _ = _
    rw [hwrites]
    rfl
  · intro i hi
    obtain ⟨x, hx, rfl⟩ := List.mem_map.mp hi
    exact ⟨base, hbase, x, hbound x hx, rfl⟩
  · intro i hi
    show (if base ≤ i then _ else target.pixels i) = _
    split
    next hle =>
      have hoff : i - base ∉ added := fun hmem =>
        hi (List.mem_map.mpr ⟨i - base, hmem, Nat.add_sub_cancel' hle⟩)
      rw [hkept _ hoff]
      exact congrArg target.pixels (Nat.add_sub_cancel' hle)
    next => rfl

theorem draws_renderRowInto {firstRow y : ℕ} (hbase : AtRow (rowOffset pitch firstRow y))
    (target : RenderTarget) :
    target.Draws state AtRow
      (renderRowInto state state.makeContext pitch firstRow target y) := by
  rw [renderRowInto]
  split
  next => exact draws_setRow rfl hbase y target none
  next sprites hsprites =>
    have hram : (state.prepareSpriteRow y sprites).2.ram = state.ram := rfl
    exact draws_setRow hram hbase y target _

theorem draws_renderRows (state : VICRenderState) (pitch firstRow rowCount : ℕ)
    (target : RenderTarget) :
    target.Draws state (fun base => ∃ row < rowCount, firstRow + row < vicRenderHeight ∧
        base = row * pitch % 0x100000000)
      (renderRows state pitch firstRow rowCount target).2 := by
  rw [renderRows]
  split
  next => exact RenderTarget.Draws.refl target
  next =>
    dsimp only
    refine foldl_related _ RenderTarget.Draws.refl RenderTarget.Draws.trans _ ?_ target
    intro target y hy
    rw [List.mem_range'_1] at hy
    refine draws_renderRowInto ⟨y - firstRow, ?_, ?_, rfl⟩ target
    · split_ifs at hy <;> omega
    · split_ifs at hy <;> omega

/-- Whatever is asked for, the renderer reads inside its memories and writes rows of the frame
at the offsets that 32 bits give them, which are the offsets of the requested rows as long as
the last of them has one of 32 bits. -/
theorem renderRows_bounds (state : VICRenderState) (pitch firstRow rowCount : ℕ)
    (target : RenderTarget) :
    let done := (renderRows state pitch firstRow rowCount target).2
    target.Draws state (fun base => ∃ row < rowCount, firstRow + row < vicRenderHeight ∧
        base = row * pitch % 0x100000000) done ∧
      ((rowCount - 1) * pitch < 0x100000000 →
        target.Draws state (fun base => ∃ row < rowCount, firstRow + row < vicRenderHeight ∧
          base = row * pitch) done) := by
  intro done
  have hdone := draws_renderRows state pitch firstRow rowCount target
  refine ⟨hdone, fun hfits => hdone.mono ?_⟩
  rintro base ⟨row, hrow, hframe, rfl⟩
  have hlast : row * pitch ≤ (rowCount - 1) * pitch := Nat.mul_le_mul_right pitch (by omega)
  exact ⟨row, hrow, hframe, Nat.mod_eq_of_lt (hlast.trans_lt hfits)⟩

/-- With a pitch over two gigabytes the third row lands between the first two. -/
theorem third_row_lands_off :
    ¬∀ (state : VICRenderState) (pitch firstRow rowCount : ℕ) (target : RenderTarget),
      vicRenderWidth ≤ pitch → pitch < 0x100000000 → firstRow + rowCount ≤ vicRenderHeight →
      ∀ i ∈ (renderRows state pitch firstRow rowCount target).2.writes, i ∉ target.writes →
        ∃ row < rowCount, ∃ x < vicRenderWidth, i = row * pitch + x := by
  intro h
  have hwritten : 0x2000 ∈
      (renderRows { oneSpriteState with vic := fun _ => 0 } 0x80001000 0 3
        emptyTarget).2.writes := by
    decide +kernel
  obtain ⟨row, hrow, x, hx, hplace⟩ := h _ _ _ _ _ (by decide) (by decide) (by decide) _ hwritten
    (by simp [emptyTarget])
  simp only [vicRenderWidth] at hx
  omega

end Rows

end ScpuEmu
