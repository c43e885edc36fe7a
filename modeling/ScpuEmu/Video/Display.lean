import ScpuEmu.Video.RendererReads
import ScpuEmu.Video.PageSelection
import ScpuEmu.Video.ReplayPlan

/-!
# What the display copies and what it reads

The display copies the selected pages of live RAM and renders the bands of the
plan from the copy, row by row, with one sprite sequencer. The graphics of a band
read selected pages only. The sprites read the page of the pointer that the band
tracks, while the pages were selected by the pointers in live RAM and by no band
whose display is off.
-/

namespace ScpuEmu

open Library

namespace VICRasterReplayBand

variable (band : VICRasterReplayBand)

/-- The state the display renders a band with. -/
def renderState (yScrollVaries : Bool) (vicRAM : Addr → Byte) (charROM : Option (ℕ → Byte))
    (colours : ℕ → Byte) : VICRenderState where
  ram := some vicRAM
  charROM := charROM
  colourRAM := some colours
  bankBase := band.bankBase
  screenBase := band.screenBase
  charsetBase := if band.usesCharROM then charROMBase else band.bankBase + band.charset
  bitmapBase := band.bitmapBase
  yScrollVaries := yScrollVaries
  vic := band.state.vic
  spritePointers := if band.state.spritePtrValid then some band.state.spritePtr else none

/-- The pages a band with its display on asks for. -/
def SelectsPage (ram : Addr → Byte) (m : ℕ) : Prop :=
  band.displayEnabled = true ∧
    ((band.screenBase / 256 ≤ m ∧ m ≤ (band.screenBase + 1023) / 256) ∨
      (band.invalidMode = false ∧ band.bmm = true ∧
        band.bitmapBase / 256 ≤ m ∧ m ≤ (band.bitmapBase + 8191) / 256) ∨
      (band.invalidMode = false ∧ band.bmm = false ∧ band.usesCharROM = false ∧
        (band.bankBase + band.charset) / 256 ≤ m ∧
        m ≤ (band.bankBase + band.charset + 2047) / 256) ∨
      ∃ n < 8, band.spriteEnabled n = true ∧ m = band.shapeBase (band.livePointer ram n) / 256)

theorem test_selectGraphics (p : PageSelection) (m : ℕ) :
    (band.selectGraphics p).pageMask.test m = true ↔
      (band.invalidMode = false ∧ band.bmm = true ∧
        band.bitmapBase / 256 ≤ m ∧ m ≤ (band.bitmapBase + 8191) / 256) ∨
      (band.invalidMode = false ∧ band.bmm = false ∧ band.usesCharROM = false ∧
        (band.bankBase + band.charset) / 256 ≤ m ∧
        m ≤ (band.bankBase + band.charset + 2047) / 256) ∨
      p.pageMask.test m = true := by
  have hbank := band.bankBase_le
  have hbitmap := band.bitmapBase_le
  have hcharset := band.charset_le
  rw [selectGraphics]
  cases band.invalidMode with
  | true => simp
  | false =>
      cases band.bmm with
      | true =>
          rw [if_neg (by decide), if_pos rfl,
            PageSelection.test_selectRange _ _ _ _ (by decide) (by omega), Bool.or_eq_true,
            decide_eq_true_iff]
          simp
      | false =>
          cases band.usesCharROM with
          | true => simp
          | false =>
              rw [if_neg (by decide), if_neg (by decide), if_neg (by decide),
                PageSelection.test_selectRange _ _ _ _ (by decide) (by omega), Bool.or_eq_true,
                decide_eq_true_iff]
              simp

theorem test_foldl_selectSprite (ram : Addr → Byte) (l : List ℕ) (p : PageSelection) (m : ℕ) :
    (l.foldl (band.selectSprite ram) p).pageMask.test m = true ↔
      (∃ n ∈ l, band.spriteEnabled n = true ∧
        m = band.shapeBase (band.livePointer ram n) / 256) ∨ p.pageMask.test m = true := by
  induction l generalizing p with
  | nil => simp
  | cons n l ih =>
      have hone : (band.selectSprite ram p n).pageMask.test m = true ↔
          (band.spriteEnabled n = true ∧ m = band.shapeBase (band.livePointer ram n) / 256) ∨
            p.pageMask.test m = true := by
        rw [selectSprite]
        split
        · rename_i henabled
          have htest := p.test_selectRange (band.shapeBase (band.livePointer ram n)) 64 m
            (by decide) (band.shapeBase_le _)
          rw [band.shapeBase_page] at htest
          refine Iff.trans (Bool.eq_iff_iff.mp htest) ?_
          rw [Bool.or_eq_true, decide_eq_true_iff]
          refine or_congr ?_ Iff.rfl
          constructor
          · exact fun h => ⟨henabled, le_antisymm h.2 h.1⟩
          · exact fun h => ⟨ge_of_eq h.2, le_of_eq h.2⟩
        · rename_i hdisabled
          simp [hdisabled]
      rw [List.foldl_cons, ih, hone, List.exists_mem_cons_iff, or_left_comm, or_assoc]

theorem test_selectPages (ram : Addr → Byte) (p : PageSelection) (m : ℕ) :
    (band.selectPages (some ram) p).pageMask.test m = true ↔
      band.SelectsPage ram m ∨ p.pageMask.test m = true := by
  have hbank := band.bankBase_le
  have hscreen := band.screenBase_le
  have hlast : band.screenBase + 1024 - 1 = band.screenBase + 1023 := by omega
  have hrotate : ∀ a b c d e : Prop, a ∨ b ∨ c ∨ d ∨ e ↔ (d ∨ b ∨ c ∨ a) ∨ e :=
    fun _ _ _ _ _ => iff_of_eq (by ac_rfl)
  rw [selectPages, SelectsPage]
  cases band.displayEnabled with
  | false => simp
  | true =>
      rw [if_neg (by decide)]
      dsimp only
      rw [test_foldl_selectSprite, test_selectGraphics,
        PageSelection.test_selectRange _ _ _ _ (by decide) (by omega), Bool.or_eq_true,
        decide_eq_true_iff, hlast]
      simp only [List.mem_range, true_and]
      exact hrotate _ _ _ _ _

end VICRasterReplayBand

theorem test_collectPages (bands : List VICRasterReplayBand) (ram : Addr → Byte) (m : ℕ) :
    (VICRasterReplay.collectPages bands (some ram)).pageMask.test m = true ↔
      ∃ band ∈ bands, band.SelectsPage ram m := by
  have hfold : ∀ p : PageSelection,
      (bands.foldl (fun p band => band.selectPages (some ram) p) p).pageMask.test m = true ↔
        (∃ band ∈ bands, band.SelectsPage ram m) ∨ p.pageMask.test m = true := by
    induction bands with
    | nil => simp
    | cons band bands ih =>
        intro p
        rw [List.foldl_cons, ih, VICRasterReplayBand.test_selectPages,
          List.exists_mem_cons_iff, or_left_comm, or_assoc]
  rw [VICRasterReplay.collectPages, hfold]
  simp [PageSelection.empty]

/-- What a frame is drawn from: live RAM, the copy the frame before left behind, the
character ROM and the copied colours. -/
structure DisplayMemory where
  liveRAM : Addr → Byte
  vicRAM : Addr → Byte
  charROM : Option (ℕ → Byte)
  colours : ℕ → Byte

namespace VICRasterReplayPlan

variable (plan : VICRasterReplayPlan) (memory : DisplayMemory)

/-- The copy of RAM after the selected pages were copied. -/
def copyPages : Addr → Byte := fun a =>
  if plan.pages.pageMask.test (a.toNat / 256) then memory.liveRAM a else memory.vicRAM a

def renderState (band : VICRasterReplayBand) : VICRenderState :=
  band.renderState plan.yScrollVaries (plan.copyPages memory) memory.charROM memory.colours

/-- One pass of the display's row loop. -/
def renderBandRow (band : VICRasterReplayBand) (target : RenderTarget) (row : ℕ) : RenderTarget :=
  (renderRows (plan.renderState memory band) vicRenderWidth row 1 target).2

def renderBand (target : RenderTarget) (band : VICRasterReplayBand) : RenderTarget :=
  (List.range' band.firstRow.toNat band.rowCount.toNat).foldl
    (plan.renderBandRow memory band) target

/-- The bands of `CHDMIDisplay::renderFrame`, rendered one row at a time into the row
buffer. -/
def renderFrame (pixels : ℕ → Byte) : RenderTarget :=
  plan.bands.foldl (plan.renderBand memory)
    ⟨pixels, [], [], some ⟨0, 0⟩, some VICRenderSpriteSequencer.zero⟩

end VICRasterReplayPlan

/-- The rows in the order they are rendered, with their bands. -/
def displayRows (bands : List VICRasterReplayBand) : List (VICRasterReplayBand × ℕ) :=
  bands.flatMap fun band =>
    (List.range' band.firstRow.toNat band.rowCount.toNat).map fun row => (band, row)

/-- The registers a row is rendered with. -/
def rowRegisters (bands : List VICRasterReplayBand) (row : ℕ) : Registers :=
  match (displayRows bands)[row]? with
  | some (band, _) => band.state.vic
  | none => fun _ => 0

/-- The row shows a line of the sprite. -/
def ShowsSprite (vic : ℕ → Registers) (n row : ℕ) : Prop :=
  (vic row 0x15).getLsbD n = true ∧ spriteRowsLeft vic n row ≠ 0

/-- The pointer a sprite of the band is drawn with: tracked, or read from the matrix. -/
def VICRasterReplayBand.drawnPointer (band : VICRasterReplayBand) (ram : Addr → Byte) (n : ℕ) :
    Byte :=
  if band.state.spritePtrValid then band.state.spritePtr n else band.livePointer ram n

/-- Some band with its display on asks for the page of each shape the frame shows, and,
where the pointers are not tracked, for the page of the pointer. -/
def SpritePagesSelected (bands : List VICRasterReplayBand) (ram : Addr → Byte) : Prop :=
  ∀ x ∈ displayRows bands, ∀ n < 8, ShowsSprite (rowRegisters bands) n x.2 →
    (x.1.state.spritePtrValid = false →
      ∃ band ∈ bands, band.SelectsPage ram ((x.1.screenBase + 0x3F8 + n) / 256)) ∧
    ∃ band ∈ bands, band.SelectsPage ram (x.1.shapeBase (x.1.drawnPointer ram n) / 256)

/-- A read of RAM lies in a selected page. -/
def VICRead.Covered (pages : PageSelection) : VICRead → Prop
  | .ram a => pages.pageMask.test (a.toNat / 256) = true
  | _ => True

theorem covered_ram_ofNat {pages : PageSelection} {x : ℕ} (hx : x < 0x10000) :
    (VICRead.ram (BitVec.ofNat 16 x)).Covered pages ↔ pages.pageMask.test (x / 256) = true := by
  rw [VICRead.Covered, BitVec.toNat_ofNat, Nat.mod_eq_of_lt hx]

section Rows

variable {pages : PageSelection} {plan : VICRasterReplayPlan} {memory : DisplayMemory}

theorem ofBits_isText (ecm bmm mcm : Bool) : (VICRenderMode.ofBits ecm bmm mcm).isText = true →
    (ecm && (bmm || mcm)) = false ∧ bmm = false := by
  cases ecm <;> cases bmm <;> cases mcm <;> decide

theorem ofBits_isBitmap (ecm bmm mcm : Bool) :
    (VICRenderMode.ofBits ecm bmm mcm).isBitmap = true →
      (ecm && (bmm || mcm)) = false ∧ bmm = true := by
  cases ecm <;> cases bmm <;> cases mcm <;> decide

/-- The graphics of a selected band read selected pages. -/
theorem covered_graphicsReads {ram : Addr → Byte} {bands : List VICRasterReplayBand}
    {band : VICRasterReplayBand} (hband : band ∈ bands) {y : ℕ} {r : VICRead}
    (hblank : (plan.renderState memory band).makeContext.mode ≠ .blank)
    (h : r ∈ (plan.renderState memory band).graphicsReads
      (plan.renderState memory band).makeContext y) :
    r.Covered (VICRasterReplay.collectPages bands (some ram)) := by
  have hbank := band.bankBase_le
  have hscreen := band.screenBase_le
  have hbitmap := band.bitmapBase_le
  have hcharset := band.charset_le
  cases r with
  | charROM index => trivial
  | colourRAM index => trivial
  | ram a =>
      obtain ⟨hgraphics, cell, hcell, glyphLine, hglyph, hread⟩ := ram_mem_graphicsReads h
      have hmode : (plan.renderState memory band).makeContext.mode =
          (plan.renderState memory band).selectedMode ∧ band.displayEnabled = true := by
        rcases makeContext_mode (plan.renderState memory band) with h | h | ⟨hmode, hdisplay⟩
        · exact absurd h.1 hblank
        · rw [h] at hgraphics
          cases hgraphics
        · exact ⟨hmode, decide_eq_true hdisplay⟩
      have hcovers : ∀ x < 0x10000, band.SelectsPage ram (x / 256) →
          (VICRead.ram (BitVec.ofNat 16 x)).Covered
            (VICRasterReplay.collectPages bands (some ram)) := fun x hx hpage =>
        (covered_ram_ofNat hx).mpr ((test_collectPages bands ram _).mpr ⟨band, hband, hpage⟩)
      rcases ram_mem_decodeGraphicsCell hglyph hread with rfl | ⟨htext, hrom, i, hi, rfl⟩ |
        ⟨hbitmapMode, rfl⟩
      · refine hcovers _ ?_ ⟨hmode.2, .inl ⟨?_, ?_⟩⟩
        · change band.screenBase + cell < 0x10000
          omega
        · exact Nat.div_le_div_right (Nat.le_add_right _ _)
        · exact Nat.div_le_div_right (Nat.add_le_add_left (by omega) _)
      · rw [hmode.1] at htext
        obtain ⟨hvalid, hbmm⟩ := ofBits_isText band.ecm band.bmm band.mcm htext
        have huses : band.usesCharROM = false := by
          by_contra huses
          exact hrom (if_pos (by simpa using huses))
        have hbase : (plan.renderState memory band).charsetBase = band.bankBase + band.charset :=
          if_neg (by simp [huses])
        rw [hbase]
        refine hcovers _ (by omega) ⟨hmode.2, .inr (.inr (.inl ⟨hvalid, hbmm, huses, ?_, ?_⟩))⟩
        · exact Nat.div_le_div_right (Nat.le_add_right _ _)
        · exact Nat.div_le_div_right (Nat.add_le_add_left (by omega) _)
      · rw [hmode.1] at hbitmapMode
        obtain ⟨hvalid, hbmm⟩ := ofBits_isBitmap band.ecm band.bmm band.mcm hbitmapMode
        have hbase : (plan.renderState memory band).bitmapBase = band.bitmapBase := rfl
        rw [hbase]
        refine hcovers _ (by omega) ⟨hmode.2, .inr (.inl ⟨hvalid, hbmm, ?_, ?_⟩)⟩
        · exact Nat.div_le_div_right (by omega)
        · exact Nat.div_le_div_right (by omega)

/-- The bytes fetched for a line of a sprite lie in selected pages. -/
def VICRasterReplayBand.FetchCovered (band : VICRasterReplayBand) (pages : PageSelection)
    (ram : Addr → Byte) (n : ℕ) : Prop :=
  (band.state.spritePtrValid = false →
      pages.pageMask.test ((band.screenBase + 0x3F8 + n) / 256) = true) ∧
    pages.pageMask.test (band.shapeBase (band.drawnPointer ram n) / 256) = true

theorem spritePointers_renderState (plan : VICRasterReplayPlan) (memory : DisplayMemory)
    (band : VICRasterReplayBand) :
    (plan.renderState memory band).spritePointers =
      if band.state.spritePtrValid then some band.state.spritePtr else none := rfl

theorem spritePointer_renderState (plan : VICRasterReplayPlan) (memory : DisplayMemory)
    (band : VICRasterReplayBand) (n : ℕ) :
    (plan.renderState memory band).spritePointer n =
      band.drawnPointer (plan.copyPages memory) n := by
  rw [VICRenderState.spritePointer, VICRasterReplayBand.drawnPointer, spritePointers_renderState]
  cases band.state.spritePtrValid <;> rfl

theorem covered_fetchReads_iff {band : VICRasterReplayBand} {n line : ℕ} (hn : n < 8)
    (hline : line < 21) :
    (∀ r ∈ (plan.renderState memory band).fetchReads n line, r.Covered pages) ↔
      band.FetchCovered pages (plan.copyPages memory) n := by
  have hshape := spritePointer_renderState plan memory band n
  generalize hpointer : band.drawnPointer (plan.copyPages memory) n = pointer at hshape
  have hend := band.shapeBase_le pointer
  have hpage := band.shapeBase_page pointer
  have haddr : (plan.renderState memory band).shapeAddr n line =
      band.shapeBase pointer + line * 3 := by
    rw [VICRenderState.shapeAddr, hshape]
    rfl
  have hbyte :
      ∀ i < 3, (VICRead.ram (BitVec.ofNat 16 (band.shapeBase pointer + line * 3 + i))).Covered
      pages ↔ pages.pageMask.test (band.shapeBase pointer / 256) = true := by
    intro i hi
    have hsame : (band.shapeBase pointer + line * 3 + i) / 256 = band.shapeBase pointer / 256 := by
      omega
    rw [covered_ram_ofNat (by omega), hsame]
  have hpointers : (∀ r ∈ (plan.renderState memory band).pointerReads n, r.Covered pages) ↔
      (band.state.spritePtrValid = false →
        pages.pageMask.test ((band.screenBase + 0x3F8 + n) / 256) = true) := by
    have hbank := band.bankBase_le
    have hscreen := band.screenBase_le
    have hlist : (plan.renderState memory band).pointerAddr n = band.screenBase + 0x3F8 + n := rfl
    rw [VICRenderState.pointerReads, spritePointers_renderState, hlist]
    cases band.state.spritePtrValid with
    | true => simp
    | false =>
        rw [if_neg (by decide)]
        dsimp only
        rw [List.forall_mem_singleton, covered_ram_ofNat (by omega)]
        simp
  rw [VICRenderState.fetchReads, haddr, List.forall_mem_append, hpointers,
    VICRasterReplayBand.FetchCovered, hpointer]
  refine and_congr Iff.rfl ?_
  rw [List.forall_mem_cons, List.forall_mem_cons, List.forall_mem_singleton, hbyte 1 (by decide),
    hbyte 2 (by decide), and_self, ← hbyte 0 (by decide), Nat.add_zero, and_self]

/-- The reads of a row are covered exactly when the fetches of its sprites are. -/
theorem covered_rowReads_iff {ram : Addr → Byte} {bands : List VICRasterReplayBand}
    {band : VICRasterReplayBand} (hband : band ∈ bands) {vic : ℕ → Registers} {y : ℕ}
    {prepared : VICRenderSpriteSequencer} (hvic : vic y = band.state.vic)
    (hshows : ∀ n < 8, (prepared.sprite n).Shows y (spriteRowsLeft vic n y)) :
    (∀ r ∈ (plan.renderState memory band).rowReads (plan.renderState memory band).makeContext
        ((plan.renderState memory band).rowState prepared) y,
        r.Covered (VICRasterReplay.collectPages bands (some ram))) ↔
      ∀ n < 8, ShowsSprite vic n y → band.FetchCovered
        (VICRasterReplay.collectPages bands (some ram)) (plan.copyPages memory) n := by
  have hscreen : ((plan.renderState memory band).rowState prepared).screenBase < 0x10000 := by
    have hbank := band.bankBase_le
    have hle := band.screenBase_le
    change band.screenBase < 0x10000
    omega
  rw [VICRenderState.rowReads, List.forall_mem_append,
    VICRenderState.forall_mem_spriteRowReads rfl hscreen, and_iff_right]
  · refine forall₂_congr fun n hn => ?_
    have hline := (plan.renderState memory band).spriteLine_rowState hn (hshows n hn)
    have henabled : (plan.renderState memory band).spriteEnabled n = (vic y 0x15).getLsbD n := by
      rw [hvic]
      rfl
    rw [henabled] at hline
    rw [VICRenderState.spriteReads]
    split at hline
    · rename_i hshown
      obtain ⟨line, hlt, hline⟩ := hline
      rw [hline]
      refine (covered_fetchReads_iff hn hlt).trans ?_
      exact ⟨fun h _ => h, fun h => h hshown⟩
    · rename_i hhidden
      rw [hline]
      exact iff_of_true (by simp) fun hshown => absurd hshown hhidden
  · intro r hr
    split at hr
    · cases hr
    · rename_i hrow
      exact covered_graphicsReads hband (fun hblank => hrow (.inl hblank)) hr

theorem renderBandRow_eq (plan : VICRasterReplayPlan) (memory : DisplayMemory)
    (band : VICRasterReplayBand) {target : RenderTarget} {row : ℕ}
    {s : VICRenderSpriteSequencer} (hrow : row < vicRenderHeight)
    (hsprites : target.sprites = some s) :
    (plan.renderBandRow memory band target row).reads = target.reads ++
        (plan.renderState memory band).rowReads (plan.renderState memory band).makeContext
          ((plan.renderState memory band).prepareSpriteRow row s).2 row ∧
      (plan.renderBandRow memory band target row).sprites =
        some (finishSpriteRow ((plan.renderState memory band).prepareSpriteRow row s).1) := by
  have hcount : (if vicRenderHeight ≤ row then 0
      else if vicRenderHeight - row < 1 then vicRenderHeight - row else 1) = 1 := by
    rw [if_neg (by omega), if_neg (by omega)]
  rw [VICRasterReplayPlan.renderBandRow, renderRows, if_neg (lt_irrefl _), hcount]
  dsimp only
  rw [List.range'_one, List.foldl_cons, List.foldl_nil, renderRowInto, hsprites]
  refine ⟨?_, rfl⟩
  dsimp only
  rw [RenderTarget.setRow]
  exact VICRenderState.reads_renderRow _ _ _ _ _

/-- The reads of a stretch of rows, from a row that the sequencer stands before. -/
theorem covered_foldl_iff (plan : VICRasterReplayPlan) (memory : DisplayMemory)
    (ram : Addr → Byte) {bands : List VICRasterReplayBand} {vic : ℕ → Registers}
    (rows : List (VICRasterReplayBand × ℕ)) (k : ℕ) (target : RenderTarget)
    (s : VICRenderSpriteSequencer) (hsprites : target.sprites = some s) (hs : s.AtRow vic k)
    (hrows : rows.map Prod.snd = List.range' k rows.length)
    (hend : k + rows.length ≤ vicRenderHeight)
    (hbands : ∀ x ∈ rows, x.1 ∈ bands) (hvic : ∀ x ∈ rows, vic x.2 = x.1.state.vic) :
    (∀ r ∈ (rows.foldl (fun target x => plan.renderBandRow memory x.1 target x.2) target).reads,
        r.Covered (VICRasterReplay.collectPages bands (some ram))) ↔
      (∀ r ∈ target.reads, r.Covered (VICRasterReplay.collectPages bands (some ram))) ∧
        ∀ x ∈ rows, ∀ n < 8, ShowsSprite vic n x.2 → x.1.FetchCovered
          (VICRasterReplay.collectPages bands (some ram)) (plan.copyPages memory) n := by
  induction rows generalizing k target s with
  | nil => simp
  | cons x rows ih =>
      rw [List.map_cons, List.length_cons, List.range'_succ, List.cons.injEq] at hrows
      obtain ⟨rfl, hrest⟩ := hrows
      rw [List.length_cons] at hend
      have hrow : x.2 < vicRenderHeight := by omega
      have hregs := hvic x List.mem_cons_self
      have hstate : (plan.renderState memory x.1).vic = vic x.2 := hregs.symm
      obtain ⟨hreads, hnext⟩ := renderBandRow_eq plan memory x.1 hrow hsprites
      obtain ⟨prepared, hprepared, -, hshows⟩ := VICRenderState.shows_prepareSpriteRow hs hstate
      have hat := VICRenderState.atRow_finishSpriteRow hs hstate
        (by simp only [vicRenderHeight] at hrow; omega)
      rw [List.foldl_cons, ih (x.2 + 1) _ _ hnext hat hrest (by omega)
        (fun y hy => hbands y (List.mem_cons_of_mem x hy))
        (fun y hy => hvic y (List.mem_cons_of_mem x hy)), hreads, List.forall_mem_append,
        hprepared, covered_rowReads_iff (hbands x List.mem_cons_self) hregs hshows,
        List.forall_mem_cons, and_assoc]

/-- Where the fetch of a sprite is covered, the copy has the live pointer. -/
theorem fetchCovered_copyPages {band : VICRasterReplayBand} {n : ℕ} (hn : n < 8) :
    band.FetchCovered plan.pages (plan.copyPages memory) n ↔
      band.FetchCovered plan.pages memory.liveRAM n := by
  have hbank := band.bankBase_le
  have hscreen := band.screenBase_le
  refine and_congr_right fun hpointer => ?_
  have hsame : band.drawnPointer (plan.copyPages memory) n =
      band.drawnPointer memory.liveRAM n := by
    rw [VICRasterReplayBand.drawnPointer, VICRasterReplayBand.drawnPointer]
    cases htracked : band.state.spritePtrValid with
    | true => rfl
    | false =>
        have hcopied := hpointer htracked
        rw [if_neg (by decide), if_neg (by decide), VICRasterReplayBand.livePointer,
          VICRasterReplayPlan.copyPages, BitVec.toNat_ofNat,
          Nat.mod_eq_of_lt (by omega), if_pos hcopied]
        rfl
  rw [hsame]

theorem renderFrame_eq (plan : VICRasterReplayPlan) (memory : DisplayMemory) (pixels : ℕ → Byte) :
    plan.renderFrame memory pixels =
      (displayRows plan.bands).foldl
        (fun target x => plan.renderBandRow memory x.1 target x.2)
        ⟨pixels, [], [], some ⟨0, 0⟩, some VICRenderSpriteSequencer.zero⟩ := by
  rw [VICRasterReplayPlan.renderFrame, displayRows, List.foldl_flatMap]
  congr 1
  funext target band
  rw [List.foldl_map]
  rfl

end Rows

theorem rows_displayRows (bands : List VICRasterReplayBand) :
    (displayRows bands).map Prod.snd =
      (bands.map VICRasterReplayBand.rows).flatMap fun span => List.range' span.1 span.2 := by
  rw [displayRows, List.map_flatMap, List.flatMap_map]
  refine congrArg (fun f => bands.flatMap f) ?_
  funext band
  rw [List.map_map]
  exact List.map_id _

/-- A row's registers are those of the band it is rendered with. -/
theorem rowRegisters_of_mem {bands : List VICRasterReplayBand} {rows : ℕ}
    (hrows : (displayRows bands).map Prod.snd = List.range rows)
    {x : VICRasterReplayBand × ℕ} (hx : x ∈ displayRows bands) :
    rowRegisters bands x.2 = x.1.state.vic := by
  obtain ⟨i, hi, hget⟩ := List.getElem_of_mem hx
  have hindex : x.2 = i := by
    have hsnd : ((displayRows bands).map Prod.snd)[i]? = some x.2 := by
      rw [List.getElem?_map, List.getElem?_eq_getElem hi, hget]
      rfl
    have hlen := congrArg List.length hrows
    rw [List.length_map, List.length_range] at hlen
    rw [hrows, List.getElem?_range (by omega), Option.some.injEq] at hsnd
    exact hsnd.symm
  rw [rowRegisters, hindex, List.getElem?_eq_getElem hi, hget]

/-- A plan whose pages were collected for its bands and whose bands follow one another
covers the reads of its frame exactly when the pages of the shapes were selected. -/
theorem renderFrame_covered_iff {plan : VICRasterReplayPlan} (memory : DisplayMemory)
    (pixels : ℕ → Byte) {rows : ℕ}
    (hpages : plan.pages = VICRasterReplay.collectPages plan.bands (some memory.liveRAM))
    (hrows : (displayRows plan.bands).map Prod.snd = List.range rows)
    (hheight : rows ≤ vicRenderHeight) :
    (∀ r ∈ (plan.renderFrame memory pixels).reads, r.Covered plan.pages) ↔
      SpritePagesSelected plan.bands memory.liveRAM := by
  have hlen : (displayRows plan.bands).length = rows := by
    have hlen := congrArg List.length hrows
    rwa [List.length_map, List.length_range] at hlen
  have hmem : ∀ x ∈ displayRows plan.bands, x.1 ∈ plan.bands := by
    intro x hx
    obtain ⟨band, hband, hx⟩ := List.mem_flatMap.mp hx
    obtain ⟨row, -, rfl⟩ := List.mem_map.mp hx
    exact hband
  have hfold := covered_foldl_iff plan memory memory.liveRAM (displayRows plan.bands) 0
    ⟨pixels, [], [], some ⟨0, 0⟩, some VICRenderSpriteSequencer.zero⟩ _ rfl rfl
    (by rw [hrows, hlen, List.range_eq_range']) (by omega) hmem
    (fun x hx => rowRegisters_of_mem hrows hx)
  rw [renderFrame_eq, hpages, hfold, and_iff_right (by simp), SpritePagesSelected]
  refine forall₂_congr fun x hx => forall₂_congr fun n hn => imp_congr_right fun _ => ?_
  rw [← hpages, fetchCovered_copyPages hn, VICRasterReplayBand.FetchCovered, hpages,
    test_collectPages, test_collectPages]

/-- Where every band has its display on and draws its sprites with the pointers in RAM, the
pages of the shapes are selected. -/
theorem spritePagesSelected_of_live {bands : List VICRasterReplayBand} {ram : Addr → Byte}
    {rows : ℕ} (hrows : (displayRows bands).map Prod.snd = List.range rows)
    (h : ∀ band ∈ bands, band.displayEnabled = true ∧ ∀ n < 8, band.spriteEnabled n = true →
      band.drawnPointer ram n = band.livePointer ram n) :
    SpritePagesSelected bands ram := by
  intro x hx n hn hshows
  obtain ⟨band, hband, hrow⟩ := List.mem_flatMap.mp hx
  obtain ⟨row, -, rfl⟩ := List.mem_map.mp hrow
  obtain ⟨hdisplay, hlive⟩ := h band hband
  have henabled : band.spriteEnabled n = true := by
    have hbit := hshows.1
    rw [rowRegisters_of_mem hrows hx] at hbit
    exact hbit
  constructor
  · intro _
    refine ⟨band, hband, hdisplay, .inl ⟨?_, ?_⟩⟩
    · exact Nat.div_le_div_right (by dsimp only; omega)
    · exact Nat.div_le_div_right (by dsimp only; omega)
  · exact ⟨band, hband, hdisplay, .inr (.inr (.inr ⟨n, hn, henabled, by rw [hlive n hn henabled]⟩))⟩

namespace VICRasterReplay

/-- The pages of a plan are collected for its bands, and its bands follow one another. -/
theorem build_plan (s : VICRasterReplay) (input : BuildInput)
    (hheight : input.timing.frameRows.toNat ≤ vicRenderHeight) :
    (s.build input).2.pages = collectPages (s.build input).2.bands input.live.ram ∧
      ∃ rows ≤ vicRenderHeight,
        (displayRows (s.build input).2.bands).map Prod.snd = List.range rows := by
  have hrows : input.timing.frameRows.toNat < 2 ^ 16 := lt_of_le_of_lt hheight (by decide)
  have hstatic : ∀ result fallback,
      (makeStaticPlan result input fallback).pages =
          collectPages (makeStaticPlan result input fallback).bands input.live.ram ∧
        ∃ rows ≤ vicRenderHeight,
          (displayRows (makeStaticPlan result input fallback).bands).map Prod.snd =
            List.range rows := by
    intro result fallback
    refine ⟨rfl, _, hheight, ?_⟩
    rw [rows_displayRows, List.range_eq_range']
    change List.range' 0 (input.timing.frameRows.setWidth 16).toNat ++ [] = _
    rw [List.append_nil, BitVec.toNat_setWidth, Nat.mod_eq_of_lt hrows]
  rcases s.build_cases input with hbuild | ⟨-, ⟨-, hbuild⟩ | ⟨log, hlog, hframe, hbuild⟩⟩
  · rw [hbuild]
    exact hstatic _ _
  · rw [hbuild]
    exact ⟨rfl, 0, Nat.zero_le _, rfl⟩
  · obtain ⟨hspec, -, -, -⟩ := replay_of_timelineBuild hrows hlog hframe
    obtain ⟨-, hbands, hfallback, -⟩ := replayFrame_eq (s.timelineBuild input).1 hspec
    rw [hbuild]
    cases hcase : (s.replayFrame log input (s.timelineBuild input).1
        (s.timelineBuild input).2).2.fallback with
    | true =>
        rw [hfallback hcase]
        exact hstatic _ _
    | false =>
        refine ⟨?_, _, hheight, ?_⟩
        · rw [replayFrame] at hcase ⊢
          dsimp only at hcase ⊢
          split at hcase
          · rename_i hfits
            rw [if_pos hfits]
          · cases hcase
        · rw [hbands hcase, rows_displayRows, rows_framedBands, hspec.tiles.flatMap_range',
            List.range_eq_range', Nat.sub_zero]

/-- The display reads selected pages only exactly when each sprite it shows has its page
selected. -/
theorem reads_covered_iff (s : VICRasterReplay) (input : BuildInput) (memory : DisplayMemory)
    (pixels : ℕ → Byte) (hram : input.live.ram = some memory.liveRAM)
    (hheight : input.timing.frameRows.toNat ≤ vicRenderHeight) :
    (∀ r ∈ ((s.build input).2.renderFrame memory pixels).reads,
        r.Covered (s.build input).2.pages) ↔
      SpritePagesSelected (s.build input).2.bands memory.liveRAM := by
  obtain ⟨hpages, rows, hle, hrows⟩ := s.build_plan input hheight
  rw [hram] at hpages
  exact renderFrame_covered_iff memory pixels hpages hrows hle

/-- Registers of a text screen with sprite 0 at the top of the picture. -/
def spriteScreen : Registers := fun reg =>
  if reg = 0x01 then 15 else if reg = 0x11 then 0x1B else if reg = 0x15 then 0x01
  else if reg = 0x18 then 0x14 else 0

/-- A replay that tracks `$90` as the pointer of sprite 0. -/
def tracking : VICRasterReplay := ⟨⟨0, true⟩, ⟨spriteScreen, 0, fun _ => 0x90, true⟩, 0, true⟩

/-- Live RAM with the pointer of sprite 0 at `$90`. -/
def pointerRAM : Addr → Byte := fun a => if a = 0x07F8 then 0x90 else 0

/-- A frame in which the pointer of sprite 0 changes on line 20 and again on line 120. -/
def pointerInput (first second : Byte) : BuildInput where
  log := some fun n => if n = 0 then ⟨0, 0x4050, first, 20⟩ else ⟨6300, 0x4050, second, 120⟩
  head := 2
  now := 100000
  anchor := 1#64 <<< 63
  generation := 0
  timing := palTiming
  live := ⟨some spriteScreen, 0, some pointerRAM⟩

def pointerMemory : DisplayMemory := ⟨pointerRAM, fun _ => 0, none, fun _ => 0⟩

theorem reads_covered_iff_steady :
    (tracking.build (pointerInput 0x90 0x90)).2.result = .replay ∧
      ∀ r ∈ ((tracking.build (pointerInput 0x90 0x90)).2.renderFrame pointerMemory
          fun _ => 0).reads,
        r.Covered (tracking.build (pointerInput 0x90 0x90)).2.pages := by
  refine ⟨by decide +kernel, ?_⟩
  obtain ⟨-, rows, -, hrows⟩ := tracking.build_plan (pointerInput 0x90 0x90) (by decide)
  refine (reads_covered_iff tracking (pointerInput 0x90 0x90) pointerMemory (fun _ => 0) rfl
    (by decide)).mpr (spritePagesSelected_of_live hrows ?_)
  exact List.forall_iff_forall_mem.mp (by decide +kernel)

/-- A sprite that is shown with two shapes needs the pages of both, and only the page of
the pointer left in RAM is selected. -/
theorem multiplexed_shape_not_copied :
    ¬∀ (s : VICRasterReplay) (input : BuildInput) (memory : DisplayMemory) (pixels : ℕ → Byte),
      input.live.ram = some memory.liveRAM →
      input.timing.frameRows.toNat ≤ vicRenderHeight →
      (s.build input).2.fallback = false →
      ∀ r ∈ ((s.build input).2.renderFrame memory pixels).reads,
        r.Covered (s.build input).2.pages := by
  intro h
  have hcovered := h tracking (pointerInput 0x80 0x90) pointerMemory (fun _ => 0) rfl (by decide)
    (by decide +kernel)
  obtain ⟨hpages, rows, hle, hrows⟩ := tracking.build_plan (pointerInput 0x80 0x90) (by decide)
  rw [renderFrame_covered_iff pointerMemory (fun _ => 0) hpages hrows hle] at hcovered
  have hband : ∃ band ∈ (tracking.build (pointerInput 0x80 0x90)).2.bands,
      band.rows = (5, 100) ∧ band.shapeBase (band.drawnPointer pointerRAM 0) / 256 = 0x20 := by
    decide +kernel
  have hshows :
      ShowsSprite (rowRegisters (tracking.build (pointerInput 0x80 0x90)).2.bands) 0 5 := by
    refine ⟨by decide +kernel, by decide +kernel⟩
  have hmissing : (collectPages (tracking.build (pointerInput 0x80 0x90)).2.bands
      (some pointerRAM)).pageMask.test 0x20 = false := by
    decide +kernel
  obtain ⟨band, hmem, hspan, hpage⟩ := hband
  have hrow : (band, 5) ∈ displayRows (tracking.build (pointerInput 0x80 0x90)).2.bands := by
    refine List.mem_flatMap.mpr ⟨band, hmem, List.mem_map.mpr ⟨5, ?_, rfl⟩⟩
    obtain ⟨hfirst, hcount⟩ := Prod.mk.inj hspan
    rw [hfirst, hcount]
    decide
  have hselected : ∃ other ∈ (tracking.build (pointerInput 0x80 0x90)).2.bands,
      other.SelectsPage pointerRAM (band.shapeBase (band.drawnPointer pointerRAM 0) / 256) :=
    (hcovered (band, 5) hrow 0 (by decide) hshows).2
  rw [hpage, ← test_collectPages] at hselected
  rw [hselected] at hmissing
  cases hmissing

end VICRasterReplay

end ScpuEmu
