import ScpuEmu.Video.SpriteSequencer
import ScpuEmu.Library.Tiling

/-!
# A frame in bands

While the registers stand still, the sequencer shows a sprite on the rows that its Y position
covers, with the line of its shape that belongs there. So a frame comes out the same with a
sequencer and without one, and the same whole and in bands that follow each other.
-/

namespace ScpuEmu

open Library

/-! ### Drawing with the registers of a row -/

namespace VICRenderState

variable (state : VICRenderState) (s : VICRenderSpriteSequencer)

/-- The sequencer has a say in the enable bits, the Y expansion and the Y positions. -/
theorem vic_rowState {reg : ℕ} (henable : reg ≠ 0x15) (hexpand : reg ≠ 0x17)
    (hposition : ∀ n < 8, reg ≠ n * 2 + 1) : (state.rowState s).vic reg = state.vic reg := by
  rw [rowState_vic_of_ne state s hposition, Function.update_of_ne hexpand,
    Function.update_of_ne henable]

theorem vic_rowState_of_le {reg : ℕ} (hreg : 0x18 ≤ reg) :
    (state.rowState s).vic reg = state.vic reg :=
  state.vic_rowState s (by omega) (by omega) fun n hn => by omega

theorem vicColour_rowState {reg : ℕ} (hlow : 0x18 ≤ reg) (hhigh : reg < 0x40) :
    (state.rowState s).vicColour reg = state.vicColour reg := by
  rw [vicColour, vicColour, Nat.mod_eq_of_lt hhigh, vic_rowState_of_le state s hlow]

theorem foregroundAt_rowState (aperture : Aperture) (opaqueCells : ℕ → Byte) (x y : ℕ) :
    (state.rowState s).foregroundAt aperture opaqueCells x y =
      state.foregroundAt aperture opaqueCells x y := by
  have hx : (state.rowState s).originX = state.originX := by
    rw [originX, originX, state.vic_rowState s (by decide) (by decide) fun n hn => by omega]
  have hy : (state.rowState s).originY = state.originY := by
    rw [originY, originY, state.vic_rowState s (by decide) (by decide) fun n hn => by omega]
    rfl
  rw [foregroundAt, foregroundAt, outputToSource, outputToSource, hx, hy]

theorem detectCollision_rowState (context : VICRenderContext) (aperture : Aperture)
    (opaqueCells : ℕ → Byte) (y n x : ℕ) (acc : SpriteRow) :
    (state.rowState s).detectCollision context aperture opaqueCells y n x acc =
      state.detectCollision context aperture opaqueCells y n x acc := by
  rw [detectCollision, detectCollision, foregroundAt_rowState]

theorem drawSpritePixel_rowState (context : VICRenderContext) (aperture : Aperture)
    (opaqueCells : ℕ → Byte) (y : ℕ) (drawRow : Bool) {n : ℕ} (hn : n < 8) (left : ℕ)
    (bits : BitVec 32) :
    (state.rowState s).drawSpritePixel context aperture opaqueCells y drawRow n left bits =
      state.drawSpritePixel context aperture opaqueCells y drawRow n left bits := by
  have hvalue (outputPixel : ℕ) : (state.rowState s).spriteValue n bits outputPixel =
      state.spriteValue n bits outputPixel := by
    rw [spriteValue, spriteValue, vic_rowState_of_le state s (by decide),
      vic_rowState_of_le state s (by decide)]
  have hcolour (multicolor : Bool) (value : Byte) :
      (state.rowState s).spritePixelColour multicolor n value =
        state.spritePixelColour multicolor n value := by
    rw [spritePixelColour, spritePixelColour, vicColour_rowState state s (by decide) (by decide),
      vicColour_rowState state s (by omega) (by omega),
      vicColour_rowState state s (by decide) (by decide)]
  funext acc outputPixel
  rw [drawSpritePixel, drawSpritePixel, hvalue, detectCollision_rowState, foregroundAt_rowState,
    hcolour, vic_rowState_of_le state s (by decide), vic_rowState_of_le state s (by decide)]

theorem drawSprite_rowState (context : VICRenderContext) (aperture : Aperture)
    (opaqueCells : ℕ → Byte) (y : ℕ) (drawRow : Bool) (acc : SpriteRow) {n : ℕ} (hn : n < 8)
    (hline : (state.rowState s).spriteLine y n = state.spriteLine y n) :
    (state.rowState s).drawSprite context aperture opaqueCells y drawRow acc n =
      state.drawSprite context aperture opaqueCells y drawRow acc n := by
  have hx : (state.rowState s).vic (n * 2) = state.vic (n * 2) :=
    state.vic_rowState s (by omega) (by omega) fun m hm => by omega
  have hmsb : (state.rowState s).vic 0x10 = state.vic 0x10 :=
    state.vic_rowState s (by decide) (by decide) fun m hm => by omega
  rw [drawSprite, drawSprite, hline, hx, hmsb, vic_rowState_of_le state s (by decide)]
  cases state.spriteLine y n with
  | none => rfl
  | some line =>
      dsimp only
      rw [drawSpritePixel_rowState state s context aperture opaqueCells y drawRow hn]
      rfl

/-- Sprites that show no line on a row leave it as it is. -/
theorem foldl_drawSprite_of_none (context : VICRenderContext) (aperture : Aperture)
    (opaqueCells : ℕ → Byte) (y : ℕ) (drawRow : Bool) (acc : SpriteRow) {l : List ℕ}
    (h : ∀ n ∈ l, state.spriteLine y n = none) :
    l.foldl (state.drawSprite context aperture opaqueCells y drawRow) acc = acc := by
  induction l generalizing acc with
  | nil => rfl
  | cons n l ih =>
      have hnone := h n List.mem_cons_self
      rw [List.foldl_cons, drawSprite, hnone]
      exact ih acc fun m hm => h m (List.mem_cons_of_mem n hm)

theorem spriteLine_of_disabled {y n : ℕ} (h : state.vic 0x15 = 0) :
    state.spriteLine y n = none := by
  have hdisabled : state.spriteEnabled n = false := by
    rw [spriteEnabled, h]
    exact BitVec.getLsbD_zero
  rw [spriteLine, if_pos hdisabled]

/-- Where the same sprites show the same lines, the row comes out the same. -/
theorem renderSpritesOnRow_rowState (context : VICRenderContext) (aperture : Aperture)
    (opaqueCells : ℕ → Byte) (y : ℕ) (drawRow : Bool) (out : RowOutput)
    (hline : ∀ n < 8, (state.rowState s).spriteLine y n = state.spriteLine y n) :
    (state.rowState s).renderSpritesOnRow context aperture opaqueCells y drawRow out =
      state.renderSpritesOnRow context aperture opaqueCells y drawRow out := by
  have hmem {n : ℕ} (hn : n ∈ (List.range 8).reverse) : n < 8 :=
    List.mem_range.mp (List.mem_reverse.mp hn)
  have hloop (acc : SpriteRow) :
      (List.range 8).reverse.foldl
          ((state.rowState s).drawSprite context aperture opaqueCells y drawRow) acc =
        (List.range 8).reverse.foldl
          (state.drawSprite context aperture opaqueCells y drawRow) acc := by
    refine List.foldl_ext _ _ acc fun acc n hn => ?_
    exact state.drawSprite_rowState s context aperture opaqueCells y drawRow acc (hmem hn)
      (hline n (hmem hn))
  have hsource : (state.rowState s).ram = state.ram ∧
      (state.rowState s).screenBase = state.screenBase := ⟨rfl, rfl⟩
  rw [renderSpritesOnRow, renderSpritesOnRow, hsource.1, hsource.2]
  by_cases hrefused : state.ram.isNone ∨ 0x10000 ≤ state.screenBase
  · rw [if_pos (Or.inr hrefused), if_pos (Or.inr hrefused)]
  have hgoes {vic : Registers} (h : ¬vic 0x15 = 0) :
      ¬(vic 0x15 = 0 ∨ state.ram.isNone ∨ 0x10000 ≤ state.screenBase) :=
    not_or.mpr ⟨h, hrefused⟩
  have hempty (h : ∀ n < 8, state.spriteLine y n = none) :
      ((List.range 8).reverse.foldl (state.drawSprite context aperture opaqueCells y drawRow)
        ⟨fun _ => 0, out⟩).out = out := by
    rw [foldl_drawSprite_of_none state context aperture opaqueCells y drawRow _
      fun n hn => h n (hmem hn)]
  rw [hloop]
  by_cases hrow : (state.rowState s).vic 0x15 = 0
  · rw [if_pos (Or.inl hrow)]
    split
    · rfl
    · exact (hempty fun n hn => (hline n hn).symm.trans
        (spriteLine_of_disabled (state.rowState s) hrow)).symm
  · rw [if_neg (hgoes hrow)]
    split
    next hstate =>
      have hdisabled := hstate.resolve_right hrefused
      exact hempty fun n _ => spriteLine_of_disabled state hdisabled
    next => rfl

end VICRenderState

/-! ### Registers that stand still -/

section Static

variable {state : VICRenderState} {n row k : ℕ}

/-- What the sequencer has latched of an active sprite is what the registers still say. -/
def SpriteDMA.Copies (d : SpriteDMA) (state : VICRenderState) (n : ℕ) : Prop :=
  d.active = true → d.y = state.spriteY n ∧ d.expanded = state.spriteExpanded n

theorem SpriteDMA.copies_seedDMA {d : SpriteDMA} (hidle : d.active = false)
    (hexpanded : d.expanded = false) : (state.seedDMA row n d).Copies state n := by
  intro hactive
  unfold VICRenderState.seedDMA at hactive ⊢
  dsimp only at hactive ⊢
  split_ifs at hactive ⊢
  · rw [hidle] at hactive
    exact absurd hactive Bool.false_ne_true
  · rw [hidle] at hactive
    exact absurd hactive Bool.false_ne_true
  · exact ⟨rfl, by rw [hexpanded, Bool.or_false]⟩

theorem SpriteDMA.Copies.triggerDMA {d : SpriteDMA} (h : d.Copies state n) :
    (state.triggerDMA row n d).Copies state n := by
  unfold VICRenderState.triggerDMA
  split_ifs
  · exact h
  · exact h
  · exact fun _ => ⟨rfl, rfl⟩

theorem SpriteDMA.Copies.finish {d : SpriteDMA} (h : d.Copies state n) :
    d.finish.Copies state n := by
  unfold SpriteDMA.finish
  split_ifs
  · exact h
  · exact fun hactive => absurd hactive Bool.false_ne_true
  · exact h

/-- Preparing a row latches nothing but what the registers say. -/
theorem copies_prepareSpriteRow {s : VICRenderSpriteSequencer}
    (h : s.primed = true → ∀ n < 8, (s.sprite n).Copies state n) (hn : n < 8) :
    ((state.prepareSpriteRow row s).1.sprite n).Copies state n := by
  unfold VICRenderState.prepareSpriteRow
  dsimp only
  split
  next hcontinuous =>
    have hprimed : s.primed = true := (Bool.and_eq_true_iff.mp hcontinuous).1
    have htrigger := foldl_range_component (state.triggerSprite row)
      VICRenderSpriteSequencer.sprite (state.triggerDMA row) (state.sprite_triggerSprite row) s hn
    have hcopies : (state.triggerDMA row n (s.sprite n)).Copies state n :=
      (h hprimed n hn).triggerDMA
    rw [← htrigger] at hcopies
    exact hcopies
  next =>
    have hseed := foldl_range_component (state.seedSprite row) VICRenderSpriteSequencer.sprite
      (state.seedDMA row) (state.sprite_seedSprite row) { s with active := 0, expanded := 0 } hn
    have hcopies : (state.seedDMA row n (VICRenderSpriteSequencer.sprite
        { s with active := 0, expanded := 0 } n)).Copies state n :=
      SpriteDMA.copies_seedDMA BitVec.getLsbD_zero BitVec.getLsbD_zero
    rw [← hseed] at hcopies
    exact hcopies

/-- The rows that a sprite still has to show, if nobody writes to the registers. -/
theorem spriteRowsLeft_static (vic : Registers) (n k : ℕ) :
    spriteRowsLeft (fun _ => vic) n k =
      if (vic 0x15).getLsbD n ∧ spriteTop (vic (n * 2 + 1)) ≤ k then
        (spriteTop (vic (n * 2 + 1)) + spriteHeight ((vic 0x17).getLsbD n) - k).toNat
      else 0 := by
  have hpos := spriteHeight_pos ((vic 0x17).getLsbD n)
  induction k with
  | zero =>
      rw [spriteRowsLeft]
      simp only [Nat.cast_zero, sub_zero]
  | succ k ih =>
      rw [spriteRowsLeft, ih]
      generalize spriteTop (vic (n * 2 + 1)) = top
      generalize spriteHeight ((vic 0x17).getLsbD n) = height at hpos
      by_cases henabled : (vic 0x15).getLsbD n = true
      · simp only [henabled, true_and]
        split_ifs <;> omega
      · simp only [henabled, Bool.false_eq_true, false_and, if_false, Nat.zero_sub, ne_eq,
          not_true_eq_false]

/-- The sequencer shows the line that the registers alone would show. -/
theorem spriteLine_rowState_static {s : VICRenderSpriteSequencer} (hn : n < 8)
    (hshows : (s.sprite n).Shows k (spriteRowsLeft (fun _ => state.vic) n k))
    (hcopies : (s.sprite n).Copies state n) :
    (state.rowState s).spriteLine k n = state.spriteLine k n := by
  have hactive : s.active.getLsbD n = _ := hshows.active_eq
  rw [spriteRowsLeft_static] at hactive
  rw [VICRenderState.spriteLine, VICRenderState.spriteLine,
    VICRenderState.spriteEnabled_rowState]
  cases henabled : state.spriteEnabled n with
  | false => rfl
  | true =>
      cases hon : s.active.getLsbD n with
      | true =>
          obtain ⟨hy, hexpanded⟩ := hcopies hon
          have hy : s.y n = state.spriteY n := hy
          have hexpanded : s.expanded.getLsbD n = state.spriteExpanded n := hexpanded
          rw [VICRenderState.spriteY_rowState state s hn hon,
            VICRenderState.spriteExpanded_rowState state s hon, hy, hexpanded]
          rfl
      | false =>
          -- a sprite without rows left does not cover the row
          have henabled' : (state.vic 0x15).getLsbD n = true := henabled
          have hnone : (if (state.vic 0x15).getLsbD n ∧ spriteTop (state.spriteY n) ≤ k then
              (spriteTop (state.spriteY n) + spriteHeight (state.spriteExpanded n) - k).toNat
            else 0) = 0 := by
            rw [hon] at hactive
            exact not_not.mp (of_decide_eq_false hactive.symm)
          simp only [henabled', true_and] at hnone
          rw [if_pos (Bool.and_false _), if_neg Bool.false_ne_true.symm]
          dsimp only
          rw [if_pos]
          split_ifs at hnone <;> omega

/-- The sequencer stands before a row, and has latched what the registers say. -/
structure Steady (state : VICRenderState) (s : VICRenderSpriteSequencer) (k : ℕ) : Prop where
  atRow : s.AtRow (fun _ => state.vic) k
  copies : s.primed = true → ∀ n < 8, (s.sprite n).Copies state n

theorem steady_zero (state : VICRenderState) : Steady state .zero 0 :=
  ⟨rfl, fun h => absurd h Bool.false_ne_true⟩

/-- A row of a steady frame comes out as if there were no sequencer, and the frame stays
steady. -/
theorem Steady.renderRow {s : VICRenderSpriteSequencer} (h : Steady state s k) (hk : k + 1 < 2 ^ 16)
    (context : VICRenderContext) (out : RowOutput) :
    state.renderRow context (state.prepareSpriteRow k s).2 k out =
        state.renderRow context state k out ∧
      Steady state (finishSpriteRow (state.prepareSpriteRow k s).1) (k + 1) := by
  obtain ⟨prepared, heq, -, hshows⟩ := VICRenderState.shows_prepareSpriteRow h.atRow rfl
  have hcopies {n : ℕ} (hn : n < 8) : ((state.prepareSpriteRow k s).1.sprite n).Copies state n :=
    copies_prepareSpriteRow h.copies hn
  have hline {n : ℕ} (hn : n < 8) :
      (state.rowState prepared).spriteLine k n = state.spriteLine k n := by
    have hlatched := hcopies hn
    rw [heq] at hlatched
    exact spriteLine_rowState_static hn (hshows n hn) hlatched
  constructor
  · rw [heq]
    dsimp only
    rw [VICRenderState.renderRow, VICRenderState.renderRow]
    dsimp only
    split
    · exact state.renderSpritesOnRow_rowState prepared context _ _ k false _ fun n hn => hline hn
    · exact state.renderSpritesOnRow_rowState prepared context _ _ k true _ fun n hn => hline hn
  · refine ⟨VICRenderState.atRow_finishSpriteRow h.atRow rfl hk, fun _ n hn => ?_⟩
    rw [sprite_finishSpriteRow _ hn]
    exact (hcopies hn).finish

end Static

/-- Rows drawn with a steady sequencer are those drawn without one. -/
theorem Steady.rows {state : VICRenderState} {s : VICRenderSpriteSequencer} {k : ℕ}
    (h : Steady state s k) (context : VICRenderContext) (pitch m : ℕ) (hm : k + m < 2 ^ 16)
    (target : RenderTarget) :
    ∃ s', (List.range' k m).foldl (renderRowInto state context pitch 0)
        { target with sprites := some s } =
      { (List.range' k m).foldl (renderRowInto state context pitch 0)
          { target with sprites := none } with sprites := some s' } := by
  induction m generalizing k s target with
  | zero => exact ⟨s, rfl⟩
  | succ m ih =>
      obtain ⟨hrow, hsteady⟩ :=
        h.renderRow (by omega) context (target.row (rowOffset pitch 0 k))
      obtain ⟨s', hrest⟩ := ih hsteady (by omega)
        (target.setRow (rowOffset pitch 0 k)
          (state.renderRow context state k (target.row (rowOffset pitch 0 k))) none)
      refine ⟨s', ?_⟩
      rw [List.range'_succ, List.foldl_cons, List.foldl_cons]
      refine Eq.trans (congrArg (fun t => (List.range' (k + 1) m).foldl _ t) ?_) hrest
      show RenderTarget.setRow _ _ (state.renderRow context (state.prepareSpriteRow k s).2 k
        (target.row (rowOffset pitch 0 k))) _ = _
      rw [hrow]
      rfl

/-! ### Bands -/

namespace RenderTarget

variable (target part : RenderTarget)

/-- The buffers from an offset of the picture on. -/
def startingAt (base : ℕ) : RenderTarget :=
  { target with pixels := fun i => target.pixels (base + i), writes := [] }

/-- Put the part of the picture from an offset on back into it. -/
def putBack (base : ℕ) : RenderTarget :=
  { part with
    pixels := fun i => if base ≤ i then part.pixels (i - base) else target.pixels i
    writes := target.writes ++ part.writes.map (base + ·) }

theorem putBack_startingAt (base : ℕ) : target.putBack (target.startingAt base) base = target := by
  have hpixels : (fun i => if base ≤ i then target.pixels (base + (i - base))
      else target.pixels i) = target.pixels := by
    funext i
    split
    next h => rw [Nat.add_sub_cancel' h]
    next => rfl
  show RenderTarget.mk (fun i => if base ≤ i then target.pixels (base + (i - base))
    else target.pixels i) (target.writes ++ []) target.reads target.collisions target.sprites = _
  rw [hpixels, List.append_nil]

theorem row_putBack (base offset : ℕ) :
    (target.putBack part base).row (base + offset) = part.row offset := by
  have hpixels : (fun x => if base ≤ base + offset + x then part.pixels (base + offset + x - base)
      else target.pixels (base + offset + x)) = fun x => part.pixels (offset + x) := by
    funext x
    rw [if_pos (by omega), show base + offset + x - base = offset + x by omega]
  show RowOutput.mk (fun x => if base ≤ base + offset + x then _ else _) _ _ _ = _
  rw [hpixels]
  rfl

theorem setRow_putBack (base offset : ℕ) (out : RowOutput)
    (sprites : Option VICRenderSpriteSequencer) :
    (target.putBack part base).setRow (base + offset) out sprites =
      target.putBack (part.setRow offset out sprites) base := by
  have hpixels : (fun i => if base + offset ≤ i then out.dst (i - (base + offset))
      else if base ≤ i then part.pixels (i - base) else target.pixels i) =
      fun i => if base ≤ i then
        if offset ≤ i - base then out.dst (i - base - offset) else part.pixels (i - base)
      else target.pixels i := by
    funext i
    by_cases hbase : base ≤ i
    · rw [if_pos hbase, if_pos hbase]
      by_cases hoffset : offset ≤ i - base
      · rw [if_pos hoffset, if_pos (by omega), Nat.sub_sub]
      · rw [if_neg hoffset, if_neg (by omega)]
    · rw [if_neg hbase, if_neg hbase, if_neg (by omega)]
  have hwrites : target.writes ++ part.writes.map (base + ·) ++
      out.writes.map (base + offset + ·) =
      target.writes ++ (part.writes ++ out.writes.map (offset + ·)).map (base + ·) := by
    rw [List.map_append, List.map_map, List.append_assoc]
    refine congrArg (fun l => target.writes ++ (part.writes.map (base + ·) ++ l)) ?_
    exact List.map_congr_left fun x _ => Nat.add_assoc base offset x
  show RenderTarget.mk _ _ _ _ _ = RenderTarget.mk _ _ _ _ _
  rw [RenderTarget.mk.injEq]
  exact ⟨hpixels, hwrites, rfl, rfl, rfl⟩

end RenderTarget

section Bands

variable (state : VICRenderState) (pitch : ℕ)

theorem renderRows_of_lt (hpitch : pitch < vicRenderWidth) (first count : ℕ)
    (target : RenderTarget) : (renderRows state pitch first count target).2 = target := by
  rw [renderRows, if_pos hpitch]

theorem renderRows_of_le (hpitch : ¬pitch < vicRenderWidth) {first count : ℕ}
    (hrows : first + count ≤ vicRenderHeight) (target : RenderTarget) :
    (renderRows state pitch first count target).2 = (List.range' first count).foldl
      (renderRowInto state state.makeContext pitch first) target := by
  have hcount : (if vicRenderHeight ≤ first then 0
      else if vicRenderHeight - first < count then vicRenderHeight - first else count) =
      count := by
    split_ifs <;> omega
  rw [renderRows, if_neg hpitch, hcount]

/-- Render a band of rows to its place in the picture. -/
def renderBand (target : RenderTarget) (band : ℕ × ℕ) : RenderTarget :=
  let base := band.1 * pitch
  target.putBack (renderRows state pitch band.1 band.2 (target.startingAt base)).2 base

/-- Every row of the frame has its place in the buffer. -/
def FitsBuffer : Prop := vicRenderHeight * pitch ≤ 0x100000000

theorem rowOffset_eq {first y : ℕ} (hfits : FitsBuffer pitch) (hy : y < vicRenderHeight)
    (hpitch : 0 < pitch) : rowOffset pitch first y = (y - first) * pitch := by
  refine Nat.mod_eq_of_lt (lt_of_lt_of_le ?_ hfits)
  exact Nat.mul_lt_mul_of_pos_right (lt_of_le_of_lt (Nat.sub_le y first) hy) hpitch

theorem putBack_renderRowInto (context : VICRenderContext) (hfits : FitsBuffer pitch)
    (hpitch : 0 < pitch) {first y : ℕ} (hy : first ≤ y) (hend : y < vicRenderHeight)
    (target part : RenderTarget) :
    target.putBack (renderRowInto state context pitch first part y) (first * pitch) =
      renderRowInto state context pitch 0 (target.putBack part (first * pitch)) y := by
  have hbase : rowOffset pitch 0 y = first * pitch + rowOffset pitch first y := by
    rw [rowOffset_eq pitch hfits hend hpitch, rowOffset_eq pitch hfits hend hpitch, Nat.sub_zero,
      ← Nat.add_mul, Nat.add_sub_cancel' hy]
  rw [renderRowInto, renderRowInto, hbase]
  dsimp only
  have hsprites : (target.putBack part (first * pitch)).sprites = part.sprites := rfl
  rw [hsprites, RenderTarget.row_putBack]
  cases part.sprites with
  | none => exact (RenderTarget.setRow_putBack target part _ _ _ _).symm
  | some sprites => exact (RenderTarget.setRow_putBack target part _ _ _ _).symm

/-- A band inside the frame is its rows, one after another. -/
theorem renderBand_eq (hfits : FitsBuffer pitch) (hpitch : ¬pitch < vicRenderWidth)
    (target : RenderTarget) {band : ℕ × ℕ} (hband : band.1 + band.2 ≤ vicRenderHeight) :
    renderBand state pitch target band = (List.range' band.1 band.2).foldl
      (renderRowInto state state.makeContext pitch 0) target := by
  have hpos : 0 < pitch := lt_of_lt_of_le (by decide) (not_lt.mp hpitch)
  have hloop : ∀ (l : List ℕ) (part : RenderTarget),
      (∀ y ∈ l, band.1 ≤ y ∧ y < vicRenderHeight) →
      target.putBack (l.foldl (renderRowInto state state.makeContext pitch band.1) part)
          (band.1 * pitch) =
        l.foldl (renderRowInto state state.makeContext pitch 0)
          (target.putBack part (band.1 * pitch)) := by
    intro l
    induction l with
    | nil => exact fun _ _ => rfl
    | cons y l ih =>
        intro part hl
        rw [List.foldl_cons, List.foldl_cons, ih _ fun z hz => hl z (List.mem_cons_of_mem y hz),
          putBack_renderRowInto state pitch _ hfits hpos (hl y List.mem_cons_self).1
            (hl y List.mem_cons_self).2]
  have hrows : ∀ y ∈ List.range' band.1 band.2, band.1 ≤ y ∧ y < vicRenderHeight := by
    intro y hy
    have hmem := List.mem_range'_1.mp hy
    exact ⟨hmem.1, lt_of_lt_of_le hmem.2 hband⟩
  rw [renderBand, renderRows_of_le state pitch hpitch hband, hloop _ _ hrows,
    RenderTarget.putBack_startingAt]

theorem renderBand_of_narrow (hpitch : pitch < vicRenderWidth) (target : RenderTarget)
    (band : ℕ × ℕ) : renderBand state pitch target band = target := by
  rw [renderBand, renderRows_of_lt state pitch hpitch, RenderTarget.putBack_startingAt]

/-- Bands that tile the frame are the frame. -/
theorem foldl_renderBand (hfits : FitsBuffer pitch) {bands : List (ℕ × ℕ)}
    (h : Tiles 0 bands vicRenderHeight) (target : RenderTarget) :
    bands.foldl (renderBand state pitch) target =
      (renderRows state pitch 0 vicRenderHeight target).2 := by
  by_cases hpitch : pitch < vicRenderWidth
  · rw [renderRows_of_lt state pitch hpitch]
    exact foldl_keeps _ id (fun t band => renderBand_of_narrow state pitch hpitch t band) target
      bands
  · have hrows : bands.foldl (renderBand state pitch) target =
        bands.foldl (fun t band => (List.range' band.1 band.2).foldl
          (renderRowInto state state.makeContext pitch 0) t) target := by
      refine List.foldl_ext _ _ target fun t band hmem => ?_
      exact renderBand_eq state pitch hfits hpitch t (h.span_le hmem)
    rw [hrows, ← List.foldl_flatMap, h.flatMap_range',
      renderRows_of_le state pitch hpitch (Nat.le_of_eq (Nat.zero_add _)), Nat.sub_zero]

/-- While the registers stand still, a frame has the same pixels and collisions rendered whole
with a sprite sequencer, whole without one, and in bands that tile it, with one sequencer
carried from band to band or without any. -/
theorem bands_render_frame (hfits : FitsBuffer pitch) {bands : List (ℕ × ℕ)}
    (h : Tiles 0 bands vicRenderHeight) (target : RenderTarget) :
    let cleared := { target with collisions := target.collisions.map fun _ => ⟨0, 0⟩ }
    let banded := bands.foldl (renderBand state pitch) { cleared with sprites := some .zero }
    let plain := bands.foldl (renderBand state pitch) { cleared with sprites := none }
    let sequenced := (render state pitch { target with sprites := some .zero }).2
    let whole := (render state pitch { target with sprites := none }).2
    (banded.pixels = sequenced.pixels ∧ banded.collisions = sequenced.collisions) ∧
      (banded.pixels = whole.pixels ∧ banded.collisions = whole.collisions) ∧
      plain.pixels = whole.pixels ∧ plain.collisions = whole.collisions := by
  intro cleared banded plain sequenced whole
  have hbanded : banded = sequenced := foldl_renderBand state pitch hfits h _
  have hplain : plain = whole := foldl_renderBand state pitch hfits h _
  have hsame : sequenced.pixels = whole.pixels ∧ sequenced.collisions = whole.collisions := by
    by_cases hpitch : pitch < vicRenderWidth
    · have hsequenced : sequenced = { cleared with sprites := some .zero } :=
        renderRows_of_lt state pitch hpitch _ _ _
      have hwhole : whole = { cleared with sprites := none } :=
        renderRows_of_lt state pitch hpitch _ _ _
      rw [hsequenced, hwhole]
      exact ⟨rfl, rfl⟩
    · obtain ⟨s', hrows⟩ := (steady_zero state).rows state.makeContext pitch vicRenderHeight
        (by decide) cleared
      have hframe := renderRows_of_le state pitch hpitch
        (Nat.le_of_eq (Nat.zero_add vicRenderHeight))
      have hsequenced := (hframe { cleared with sprites := some .zero }).trans hrows
      have hwhole := hframe { cleared with sprites := none }
      rw [← hwhole] at hsequenced
      have hpixels := congrArg RenderTarget.pixels hsequenced
      have hcollisions := congrArg RenderTarget.collisions hsequenced
      exact ⟨hpixels, hcollisions⟩
  rw [hbanded, hplain]
  exact ⟨⟨rfl, rfl⟩, hsame, rfl, rfl⟩

end Bands

/-- A text screen with one expanded sprite on it. -/
def oneSpriteState : VICRenderState where
  ram := some fun _ => 0xFF
  charROM := some fun _ => 0
  colourRAM := none
  bankBase := 0
  screenBase := 0x0400
  charsetBase := charROMBase
  bitmapBase := 0
  yScrollVaries := false
  vic := fun r => if r = 0x11 then 0x1B else if r = 0 ∨ r = 1 then 100
    else if r = 0x15 ∨ r = 0x17 then 1 else 0
  spritePointers := none

def emptyTarget : RenderTarget := ⟨fun _ => 0, [], [], some ⟨0, 0⟩, none⟩

theorem bands_render_frame_split :
    ([(0, 90), (90, 1), (91, 181)].foldl (renderBand oneSpriteState 384)
        { emptyTarget with sprites := some .zero }).collisions =
      (render oneSpriteState 384 emptyTarget).2.collisions :=
  have htiles : Tiles 0 [(0, 90), (90, 1), (91, 181)] vicRenderHeight :=
    ⟨rfl, by decide, rfl, by decide, rfl, by decide, rfl⟩
  (bands_render_frame oneSpriteState 384 (by unfold FitsBuffer; decide) htiles emptyTarget).2.1.2

end ScpuEmu
