import ScpuEmu.Video.RasterReplay

/-!
# The picture renderer

`CVICRenderer` turns a VIC state into rows of colour indices, one byte a pixel.
The output of a row records, beside the pixels, which offsets were written and
which bytes of memory were read on the way, in the order of the source.
-/

namespace ScpuEmu

abbrev vicRenderWidth : ℕ := 384
abbrev vicRenderHeight : ℕ := 272
abbrev vicRenderDisplayX : ℕ := 32
abbrev vicRenderDisplayY : ℕ := 35
abbrev vicRenderDisplayW : ℕ := 320
abbrev vicRenderDisplayH : ℕ := 200

inductive VICRenderMode
  | blank
  | standardText
  | multicolorText
  | extendedText
  | standardBitmap
  | multicolorBitmap
  | invalid
  | unsupported
  deriving DecidableEq, Repr

namespace VICRenderMode

def isText (mode : VICRenderMode) : Bool :=
  mode = standardText || mode = multicolorText || mode = extendedText

def isBitmap (mode : VICRenderMode) : Bool :=
  mode = standardBitmap || mode = multicolorBitmap

/-- The mode has foreground graphics that sprites can touch or hide behind. -/
def hasGraphics (mode : VICRenderMode) : Bool :=
  mode ≠ unsupported && mode ≠ invalid

/-- The mode that the three mode bits select. -/
def ofBits (ecm bmm mcm : Bool) : VICRenderMode :=
  if !ecm && !bmm then if mcm then .multicolorText else .standardText
  else if ecm && !bmm && !mcm then .extendedText
  else if !ecm && bmm then if mcm then .multicolorBitmap else .standardBitmap
  else .invalid

end VICRenderMode

structure VICRenderCollisions where
  spriteSprite : Byte
  spriteBackground : Byte
  deriving DecidableEq, Repr

/-- Y position and Y expansion of a sprite are sampled when its comparison triggers. -/
structure VICRenderSpriteSequencer where
  active : Byte
  expanded : Byte
  y : Registers
  rowsLeft : Registers
  nextRow : BitVec 16
  primed : Bool

/-- The state every frame starts with. -/
def VICRenderSpriteSequencer.zero : VICRenderSpriteSequencer :=
  ⟨0, 0, fun _ => 0, fun _ => 0, 0, false⟩

/-- `VICRenderState`, null pointers as `none`. -/
structure VICRenderState where
  ram : Option (Addr → Byte)
  charROM : Option (ℕ → Byte)
  colourRAM : Option (ℕ → Byte)
  bankBase : ℕ
  screenBase : ℕ
  charsetBase : ℕ
  bitmapBase : ℕ
  yScrollVaries : Bool
  vic : Registers
  spritePointers : Option Registers

/-- The base that stands for the character ROM. -/
abbrev charROMBase : ℕ := 0xFFFFFFFF

/-- One byte the renderer reads, with its index. -/
inductive VICRead
  | ram (address : Addr)
  | charROM (index : ℕ)
  | colourRAM (index : ℕ)
  deriving DecidableEq, Repr

/-- What `context.patterns` points to. -/
inductive VICPatterns
  | null
  | charROM
  | ram
  deriving DecidableEq, Repr

structure VICRenderContext where
  mode : VICRenderMode
  patterns : VICPatterns
  patternBase : ℕ
  background : ℕ → Byte

namespace VICRenderState

variable (state : VICRenderState)

def vicColour (reg : ℕ) : Byte := state.vic (reg % 0x40) &&& 0x0F

/-- The byte of RAM at an address cut to 16 bits. -/
def ramByte (address : ℕ) : Byte := (state.ram.getD fun _ => 0) (BitVec.ofNat 16 address)

def selectedMode : VICRenderMode :=
  VICRenderMode.ofBits (decide (state.vic 0x11 &&& 0x40 ≠ 0)) (decide (state.vic 0x11 &&& 0x20 ≠ 0))
    (decide (state.vic 0x16 &&& 0x10 ≠ 0))

def makeContext : VICRenderContext :=
  let background := fun i => state.vicColour (0x21 + i)
  if state.vic 0x11 &&& 0x10 = 0 then ⟨.blank, .null, 0, background⟩
  else
    let mode := state.selectedMode
    if state.ram.isNone || decide (0x10000 ≤ state.screenBase) then
      ⟨.unsupported, .null, 0, background⟩
    else if mode.isText then
      if state.charsetBase = charROMBase then
        let patternBase := if state.vic 0x18 &&& 0x02 ≠ 0 then 0x0800 else 0
        if state.charROM.isNone then ⟨.unsupported, .null, patternBase, background⟩
        else ⟨mode, .charROM, patternBase, background⟩
      else if state.charsetBase < 0x10000 then ⟨mode, .ram, state.charsetBase, background⟩
      else ⟨.unsupported, .null, 0, background⟩
    else if mode.isBitmap && decide (0x10000 ≤ state.bitmapBase) then
      ⟨.unsupported, .null, 0, background⟩
    else ⟨mode, .null, 0, background⟩

/-- The colour of a cell, light blue without colour RAM. -/
def cellColour (cell : ℕ) : Byte :=
  match state.colourRAM with
  | some colours => colours (cell % 0x400) &&& 0x0F
  | none => 14

/-- The reads of the matrix and colour bytes of a cell. -/
def cellReads (cell : ℕ) : List VICRead :=
  .ram (BitVec.ofNat 16 (state.screenBase + cell)) ::
    if state.colourRAM.isSome then [.colourRAM (cell % 0x400)] else []

/-- A pattern byte, by an index cut to 16 bits. -/
def patternByte (context : VICRenderContext) (index : ℕ) : Byte :=
  match context.patterns with
  | .null => 0
  | .charROM => (state.charROM.getD fun _ => 0) (index % 0x10000)
  | .ram => state.ramByte index

end VICRenderState

def VICRenderContext.patternRead (context : VICRenderContext) (index : ℕ) : List VICRead :=
  match context.patterns with
  | .null => []
  | .charROM => [.charROM (index % 0x10000)]
  | .ram => [.ram (BitVec.ofNat 16 index)]

/-- The output of `decodeGraphicsCell`: eight pixels and which of them are foreground. -/
structure GraphicsCell where
  pixels : ℕ → Byte
  opaqueMask : Byte
  reads : List VICRead

/-- One colour for set bits, one for clear bits. -/
def hiresPixels (bits set clear : Byte) (pixel : ℕ) : Byte :=
  if bits &&& (0x80#8 >>> pixel) ≠ 0 then set else clear

/-- The two-bit value of a pixel pair. -/
def pairValue (bits : Byte) (pair : ℕ) : Byte := (bits >>> (6 - pair * 2)) &&& 3

def multicolorPixels (bits c0 c1 c2 c3 : Byte) (pixel : ℕ) : Byte :=
  let value := pairValue bits (pixel / 2)
  if value = 0 then c0 else if value = 1 then c1 else if value = 2 then c2 else c3

/-- Values 10 and 11 are foreground. -/
def multicolorOpaque (bits : Byte) : Byte :=
  (List.range 4).foldl
    (fun mask pair => if 2 ≤ pairValue bits pair then mask ||| (0xC0#8 >>> (pair * 2)) else mask) 0

def decodeGraphicsCell (state : VICRenderState) (context : VICRenderContext)
    (cell glyphLine : ℕ) : GraphicsCell :=
  let screen := state.ramByte (state.screenBase + cell)
  let cellColour := state.cellColour cell
  let cellReads := state.cellReads cell
  let glyph := context.patternBase + screen.toNat * 8 + glyphLine
  let ecmGlyph := context.patternBase + (screen &&& 0x3F).toNat * 8 + glyphLine
  let bitmap := state.bitmapBase + cell * 8 + glyphLine
  let bitmapRead : List VICRead := [.ram (BitVec.ofNat 16 bitmap)]
  let background := context.background
  match context.mode with
  | .standardText =>
      let bits := state.patternByte context glyph
      ⟨hiresPixels bits cellColour (background 0), bits, cellReads ++ context.patternRead glyph⟩
  | .multicolorText =>
      let bits := state.patternByte context glyph
      if cellColour &&& 0x08 = 0 then
        ⟨hiresPixels bits (cellColour &&& 0x07) (background 0), bits,
          cellReads ++ context.patternRead glyph⟩
      else
        ⟨multicolorPixels bits (background 0) (background 1) (background 2) (cellColour &&& 0x07),
          multicolorOpaque bits, cellReads ++ context.patternRead glyph⟩
  | .extendedText =>
      let bits := state.patternByte context ecmGlyph
      ⟨hiresPixels bits cellColour (background (screen.toNat / 64)), bits,
        cellReads ++ context.patternRead ecmGlyph⟩
  | .standardBitmap =>
      let bits := state.ramByte bitmap
      ⟨hiresPixels bits (screen >>> 4) (screen &&& 0x0F), bits, cellReads ++ bitmapRead⟩
  | .multicolorBitmap =>
      let bits := state.ramByte bitmap
      ⟨multicolorPixels bits (background 0) (screen >>> 4) (screen &&& 0x0F) cellColour,
        multicolorOpaque bits, cellReads ++ bitmapRead⟩
  | _ => ⟨fun _ => background 0, 0, cellReads⟩

/-- The part of the frame the border leaves open. -/
structure Aperture where
  left : ℕ
  right : ℕ
  top : ℕ
  bottom : ℕ

namespace VICRenderState

variable (state : VICRenderState)

/-- 38 columns lose seven pixels on the left and nine on the right. -/
def aperture : Aperture :=
  let columns40 := state.vic 0x16 &&& 0x08 ≠ 0
  let rows25 := state.vic 0x11 &&& 0x08 ≠ 0
  { left := vicRenderDisplayX + if columns40 then 0 else 7
    right := vicRenderDisplayX + vicRenderDisplayW - if columns40 then 0 else 9
    top := vicRenderDisplayY + if rows25 then 0 else 4
    bottom := vicRenderDisplayY + vicRenderDisplayH - if rows25 then 0 else 4 }

def originX : ℕ := vicRenderDisplayX + (state.vic 0x16 &&& 7).toNat

def originY : ℤ :=
  vicRenderDisplayY + if state.yScrollVaries then 0 else ((state.vic 0x11 &&& 7).toNat : ℤ) - 3

/-- The point of the display window under an output pixel. -/
def outputToSource (aperture : Aperture) (x y : ℕ) : Option (ℕ × ℕ) :=
  if x < aperture.left ∨ aperture.right ≤ x ∨ y < aperture.top ∨ aperture.bottom ≤ y then none
  else
    let sx : ℤ := x - state.originX
    let sy : ℤ := y - state.originY
    if sx < 0 ∨ vicRenderDisplayW ≤ sx ∨ sy < 0 ∨ vicRenderDisplayH ≤ sy then none
    else some (sx.toNat, sy.toNat)

/-- A foreground pixel lies under the output pixel. -/
def foregroundAt (aperture : Aperture) (opaqueCells : ℕ → Byte) (x y : ℕ) : Bool :=
  match state.outputToSource aperture x y with
  | none => false
  | some (sourceX, _) => decide (opaqueCells (sourceX / 8) &&& (0x80#8 >>> (sourceX % 8)) ≠ 0)

end VICRenderState

/-- What the code of one row has written and read so far. -/
structure RowOutput where
  dst : ℕ → Byte
  writes : List ℕ
  reads : List VICRead
  collisions : Option VICRenderCollisions

namespace RowOutput

def set (out : RowOutput) (x : ℕ) (value : Byte) : RowOutput :=
  { out with dst := Function.update out.dst x value, writes := out.writes ++ [x] }

def memcpy (out : RowOutput) (x count : ℕ) (source : ℕ → Byte) : RowOutput :=
  (List.range count).foldl (fun out i => out.set (x + i) (source i)) out

def memset (out : RowOutput) (x count : ℕ) (value : Byte) : RowOutput :=
  out.memcpy x count fun _ => value

def read (out : RowOutput) (reads : List VICRead) : RowOutput :=
  { out with reads := out.reads ++ reads }

end RowOutput

/-- One pass of the column loop: decode a cell and copy its visible part. -/
def drawCell (state : VICRenderState) (context : VICRenderContext) (aperture : Aperture)
    (cellRow glyphLine : ℕ) (acc : RowOutput × (ℕ → Byte)) (col : ℕ) : RowOutput × (ℕ → Byte) :=
  let cell := decodeGraphicsCell state context (cellRow * 40 + col) glyphLine
  let out := acc.1.read cell.reads
  let cellLeft := state.originX + col * 8
  let copyLeft := if cellLeft < aperture.left then aperture.left else cellLeft
  let copyRight := if aperture.right < cellLeft + 8 then aperture.right else cellLeft + 8
  (if copyLeft < copyRight then
      out.memcpy copyLeft (copyRight - copyLeft) fun i => cell.pixels (copyLeft - cellLeft + i)
    else out,
    Function.update acc.2 col cell.opaqueMask)

/-- The first output row of a sprite, which is negative above the picture. -/
def spriteTop (y : Byte) : ℤ := y.toNat - 15

def spriteHeight (expanded : Bool) : ℕ := if expanded then 42 else 21

namespace VICRenderState

variable (state : VICRenderState)

def spriteEnabled (n : ℕ) : Bool := (state.vic 0x15).getLsbD n

def spriteExpanded (n : ℕ) : Bool := (state.vic 0x17).getLsbD n

def spriteY (n : ℕ) : Byte := state.vic (n * 2 + 1)

/-- Seed a sprite whose extent covers the row. -/
def seedSprite (row : ℕ) (s : VICRenderSpriteSequencer) (n : ℕ) : VICRenderSpriteSequencer :=
  let top := spriteTop (state.spriteY n)
  let height := spriteHeight (state.spriteExpanded n)
  if state.spriteEnabled n = false then s
  else if row < top ∨ top + height ≤ row then s
  else
    { s with
      active := s.active ||| (1#8 <<< n)
      expanded := if state.spriteExpanded n then s.expanded ||| (1#8 <<< n) else s.expanded
      y := Function.update s.y n (state.spriteY n)
      rowsLeft := Function.update s.rowsLeft n (BitVec.ofInt 8 (top + height - row)) }

/-- Start an inactive sprite whose comparison triggers on the row. -/
def triggerSprite (row : ℕ) (s : VICRenderSpriteSequencer) (n : ℕ) : VICRenderSpriteSequencer :=
  if s.active.getLsbD n = true ∨ state.spriteEnabled n = false then s
  else if spriteTop (state.spriteY n) ≠ row then s
  else
    { s with
      active := s.active ||| (1#8 <<< n)
      expanded :=
        if state.spriteExpanded n then s.expanded ||| (1#8 <<< n)
        else s.expanded &&& ~~~(1#8 <<< n)
      y := Function.update s.y n (state.spriteY n)
      rowsLeft := Function.update s.rowsLeft n
        (BitVec.ofNat 8 (spriteHeight (state.spriteExpanded n))) }

/-- The registers a row is drawn with: enable and Y expansion cut to the active sprites,
and the Y positions they were triggered with. -/
def rowState (s : VICRenderSpriteSequencer) : VICRenderState :=
  let vic := Function.update (Function.update state.vic 0x15 (state.vic 0x15 &&& s.active)) 0x17
    ((state.vic 0x17 &&& ~~~s.active) ||| (s.expanded &&& s.active))
  { state with
    vic := (List.range 8).foldl
      (fun vic n =>
        if s.active.getLsbD n then Function.update vic (n * 2 + 1) (s.y n) else vic) vic }

def prepareSpriteRow (row : ℕ) (s : VICRenderSpriteSequencer) :
    VICRenderSpriteSequencer × VICRenderState :=
  let continuous := s.primed && decide (s.nextRow.toNat = row)
  let prepared :=
    if continuous then (List.range 8).foldl (state.triggerSprite row) s
    else
      { (List.range 8).foldl (state.seedSprite row) { s with active := 0, expanded := 0 } with
        primed := true }
  ({ prepared with nextRow := BitVec.ofNat 16 (row + 1) }, state.rowState prepared)

end VICRenderState

/-- A row counter one row later. -/
def nextRowsLeft (left : Byte) : Byte := if left ≠ 0 then left - 1 else left

/-- One sprite at the end of a row. -/
def finishSprite (s : VICRenderSpriteSequencer) (n : ℕ) : VICRenderSpriteSequencer :=
  if s.active.getLsbD n = false then s
  else if nextRowsLeft (s.rowsLeft n) = 0 then
    { s with
      rowsLeft := Function.update s.rowsLeft n (nextRowsLeft (s.rowsLeft n))
      active := s.active &&& ~~~(1#8 <<< n)
      expanded := s.expanded &&& ~~~(1#8 <<< n) }
  else { s with rowsLeft := Function.update s.rowsLeft n (nextRowsLeft (s.rowsLeft n)) }

def finishSpriteRow (s : VICRenderSpriteSequencer) : VICRenderSpriteSequencer :=
  (List.range 8).foldl finishSprite s

/-- The sprites drawn on a row so far, by pixel. -/
structure SpriteRow where
  coverage : ℕ → Byte
  out : RowOutput

/-- `SpriteCoverageWidth`. -/
abbrev spriteCoverageWidth : ℕ := 568

/-- The value of a sprite pixel, zero when it is transparent. -/
def spritePixelValue (multicolor : Bool) (bits : BitVec 32) (sourcePixel : ℕ) : Byte :=
  if multicolor then (bits >>> (22 - sourcePixel / 2 * 2)).setWidth 8 &&& 3
  else if bits &&& (1#32 <<< (23 - sourcePixel)) ≠ 0 then 1 else 0

namespace VICRenderState

variable (state : VICRenderState)

def spritePixelColour (multicolor : Bool) (n : ℕ) (value : Byte) : Byte :=
  if multicolor then
    if value = 1 then state.vicColour 0x25
    else if value = 2 then state.vicColour (0x27 + n)
    else state.vicColour 0x26
  else state.vicColour (0x27 + n)

/-- Collision detection at one opaque sprite pixel. -/
def detectCollision (context : VICRenderContext) (aperture : Aperture) (opaqueCells : ℕ → Byte)
    (y n x : ℕ) (acc : SpriteRow) : SpriteRow :=
  match acc.out.collisions with
  | none => acc
  | some collisions =>
      if spriteCoverageWidth ≤ x then acc
      else
        let mask := 1#8 <<< n
        let previous := acc.coverage x
        let touched := context.mode.hasGraphics && state.foregroundAt aperture opaqueCells x y
        { coverage := Function.update acc.coverage x (previous ||| mask)
          out := { acc.out with
            collisions := some
              { spriteSprite :=
                  if previous ≠ 0 then collisions.spriteSprite ||| (previous ||| mask)
                  else collisions.spriteSprite
                spriteBackground :=
                  if touched then collisions.spriteBackground ||| mask
                  else collisions.spriteBackground } } }

/-- The value of an output pixel; X expansion shows each source pixel twice. -/
def spriteValue (n : ℕ) (bits : BitVec 32) (outputPixel : ℕ) : Byte :=
  let sourcePixel := if (state.vic 0x1D).getLsbD n then outputPixel / 2 else outputPixel
  spritePixelValue ((state.vic 0x1C).getLsbD n) bits sourcePixel

/-- One pass of the pixel loop. Detection happens anywhere, the border clips drawing. -/
def drawSpritePixel (context : VICRenderContext) (aperture : Aperture) (opaqueCells : ℕ → Byte)
    (y : ℕ) (drawRow : Bool) (n left : ℕ) (bits : BitVec 32) (acc : SpriteRow)
    (outputPixel : ℕ) : SpriteRow :=
  let x := left + outputPixel
  let value := state.spriteValue n bits outputPixel
  if value = 0 then acc
  else
    let detected := state.detectCollision context aperture opaqueCells y n x acc
    if drawRow = false ∨ x < aperture.left ∨ aperture.right ≤ x then detected
    else if (state.vic 0x1B).getLsbD n && context.mode.hasGraphics
        && state.foregroundAt aperture opaqueCells x y then detected
    else
      { detected with
        out := detected.out.set x
          (state.spritePixelColour ((state.vic 0x1C).getLsbD n) n value) }

/-- The address of a sprite pointer in the matrix. -/
def pointerAddr (n : ℕ) : ℕ := state.screenBase + 0x3F8 + n

/-- The pointer of a sprite: tracked, or read from the matrix. -/
def spritePointer (n : ℕ) : Byte :=
  match state.spritePointers with
  | some pointers => pointers n
  | none => state.ramByte (state.pointerAddr n)

def pointerReads (n : ℕ) : List VICRead :=
  match state.spritePointers with
  | some _ => []
  | none => [.ram (BitVec.ofNat 16 (state.pointerAddr n))]

/-- The address of a line of a sprite's shape. -/
def shapeAddr (n spriteLine : ℕ) : ℕ :=
  state.bankBase + (state.spritePointer n).toNat * 64 + spriteLine * 3

def shapeBits (n spriteLine : ℕ) : BitVec 32 :=
  let shape := state.shapeAddr n spriteLine
  ((state.ramByte shape).setWidth 32 <<< 16) ||| ((state.ramByte (shape + 1)).setWidth 32 <<< 8)
    ||| (state.ramByte (shape + 2)).setWidth 32

/-- The bytes read to fetch a line of a sprite. -/
def fetchReads (n spriteLine : ℕ) : List VICRead :=
  let shape := state.shapeAddr n spriteLine
  state.pointerReads n ++ [.ram (BitVec.ofNat 16 shape), .ram (BitVec.ofNat 16 (shape + 1)),
    .ram (BitVec.ofNat 16 (shape + 2))]

/-- The line of its shape that a sprite shows on a row, if any. -/
def spriteLine (y n : ℕ) : Option ℕ :=
  if state.spriteEnabled n = false then none
  else
    let outputLine : ℤ := y - spriteTop (state.spriteY n)
    if outputLine < 0 ∨ spriteHeight (state.spriteExpanded n) ≤ outputLine then none
    else some (if state.spriteExpanded n then outputLine.toNat / 2 else outputLine.toNat)

/-- One pass of the sprite loop. -/
def drawSprite (context : VICRenderContext) (aperture : Aperture) (opaqueCells : ℕ → Byte)
    (y : ℕ) (drawRow : Bool) (acc : SpriteRow) (n : ℕ) : SpriteRow :=
  match state.spriteLine y n with
  | none => acc
  | some line =>
      let spriteX := (state.vic (n * 2)).toNat + if (state.vic 0x10).getLsbD n then 256 else 0
      let outputWidth := if (state.vic 0x1D).getLsbD n then 48 else 24
      (List.range outputWidth).foldl
        (state.drawSpritePixel context aperture opaqueCells y drawRow n (spriteX + 8)
          (state.shapeBits n line))
        { acc with out := acc.out.read (state.fetchReads n line) }

/-- Sprite zero has the highest priority, so it is drawn last. -/
def renderSpritesOnRow (context : VICRenderContext) (aperture : Aperture)
    (opaqueCells : ℕ → Byte) (y : ℕ) (drawRow : Bool) (out : RowOutput) : RowOutput :=
  if state.vic 0x15 = 0 ∨ state.ram.isNone ∨ 0x10000 ≤ state.screenBase then out
  else
    ((List.range 8).reverse.foldl (state.drawSprite context aperture opaqueCells y drawRow)
      ⟨fun _ => 0, out⟩).out

/-- Border, background and graphics of a row inside the aperture. -/
def renderGraphics (context : VICRenderContext) (y : ℕ) (out : RowOutput) :
    RowOutput × (ℕ → Byte) :=
  let aperture := state.aperture
  let border := state.vicColour 0x20
  let graphicsFill := if context.mode = .invalid then 0 else state.vicColour 0x21
  let out := out.memset 0 aperture.left border
  let out := out.memset aperture.right (vicRenderWidth - aperture.right) border
  let out := out.memset aperture.left (aperture.right - aperture.left) graphicsFill
  let sourceY : ℤ := y - state.originY
  if context.mode.hasGraphics ∧ 0 ≤ sourceY ∧ sourceY < vicRenderDisplayH then
    (List.range 40).foldl
      (drawCell state context aperture (sourceY.toNat / 8) (sourceY.toNat % 8)) (out, fun _ => 0)
  else (out, fun _ => 0)

/-- One pass of the row loop, without the sprite sequencer. The sprites are drawn with
the registers of `spriteState`. -/
def renderRow (context : VICRenderContext) (spriteState : VICRenderState) (y : ℕ)
    (out : RowOutput) : RowOutput :=
  let aperture := state.aperture
  if context.mode = .blank ∨ y < aperture.top ∨ aperture.bottom ≤ y then
    spriteState.renderSpritesOnRow context aperture (fun _ => 0) y false
      (out.memset 0 vicRenderWidth (state.vicColour 0x20))
  else
    let drawn := state.renderGraphics context y out
    spriteState.renderSpritesOnRow context aperture drawn.2 y true drawn.1

end VICRenderState

/-- The buffers a call renders into, and everything read and written so far. -/
structure RenderTarget where
  pixels : ℕ → Byte
  writes : List ℕ
  reads : List VICRead
  collisions : Option VICRenderCollisions
  sprites : Option VICRenderSpriteSequencer

namespace RenderTarget

/-- The row that starts at an offset of the buffer. -/
def row (target : RenderTarget) (base : ℕ) : RowOutput :=
  ⟨fun x => target.pixels (base + x), [], target.reads, target.collisions⟩

/-- Put a row back. -/
def setRow (target : RenderTarget) (base : ℕ) (out : RowOutput)
    (sprites : Option VICRenderSpriteSequencer) : RenderTarget where
  pixels := fun i => if base ≤ i then out.dst (i - base) else target.pixels i
  writes := target.writes ++ out.writes.map (base + ·)
  reads := out.reads
  collisions := out.collisions
  sprites := sprites

end RenderTarget

/-- The offset of a row in the buffer, a product of 32 bits. -/
def rowOffset (pitch firstRow y : ℕ) : ℕ := (y - firstRow) * pitch % 0x100000000

/-- One pass of the row loop. -/
def renderRowInto (state : VICRenderState) (context : VICRenderContext) (pitch firstRow : ℕ)
    (target : RenderTarget) (y : ℕ) : RenderTarget :=
  let base := rowOffset pitch firstRow y
  match target.sprites with
  | none => target.setRow base (state.renderRow context state y (target.row base)) none
  | some sprites =>
      let prepared := state.prepareSpriteRow y sprites
      target.setRow base (state.renderRow context prepared.2 y (target.row base))
        (some (finishSpriteRow prepared.1))

/-- `CVICRenderer::renderRows` into a buffer that is not null. -/
def renderRows (state : VICRenderState) (pitch firstRow rowCount : ℕ) (target : RenderTarget) :
    VICRenderMode × RenderTarget :=
  if pitch < vicRenderWidth then (.blank, target)
  else
    let rowCount :=
      if vicRenderHeight ≤ firstRow then 0
      else if vicRenderHeight - firstRow < rowCount then vicRenderHeight - firstRow
      else rowCount
    let context := state.makeContext
    (context.mode,
      (List.range' firstRow rowCount).foldl (renderRowInto state context pitch firstRow) target)

/-- `CVICRenderer::render`: the whole frame, with the collisions cleared. -/
def render (state : VICRenderState) (pitch : ℕ) (target : RenderTarget) :
    VICRenderMode × RenderTarget :=
  renderRows state pitch 0 vicRenderHeight
    { target with collisions := target.collisions.map fun _ => ⟨0, 0⟩ }

end ScpuEmu
