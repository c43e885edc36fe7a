import ScpuEmu.Video.RasterTimeline
import ScpuEmu.Library.WordBitmap

/-!
# Replaying the event log

The replay owns the register state at the timeline's tail. For a completed frame
it applies the events band by band, records the state of each band, and plans
which 256-byte pages of RAM the display has to copy before it renders the bands.
-/

namespace ScpuEmu

open Library

/-- A register file `u8 vic[0x40]`, a pointer row, or RAM, by index. -/
abbrev Registers := ℕ → Byte

/-- The VIC-visible state that events change. -/
structure RasterState where
  vic : Registers
  bank : Byte
  spritePtr : Registers
  spritePtrValid : Bool

namespace RasterState

/-- `CVICRasterReplay::applyEvent`. -/
def applyEvent (s : RasterState) (event : VICRegWrite) : RasterState :=
  let reg := event.register
  if reg < 0x40 then
    let moved := reg = 0x18 ∧ (s.vic 0x18 ^^^ event.value) &&& 0xF0 ≠ 0
    { s with
      spritePtrValid := if moved then false else s.spritePtrValid
      vic := Function.update s.vic reg event.value }
  else if reg = 0x40 then
    { s with
      spritePtrValid := if s.bank ^^^ (event.value &&& 3) ≠ 0 then false else s.spritePtrValid
      bank := event.value &&& 3 }
  else if event.isSpritePointer then
    { s with spritePtr := Function.update s.spritePtr (reg - vicLogRegSprptr) event.value }
  else s

/-- Apply the events of a range of the log. -/
def applyRange (log : VICLog) (s : RasterState) (range : List (BitVec 32)) : RasterState :=
  range.foldl (fun s i => s.applyEvent (rasterEvent log i)) s

/-- Where the sprite pointers of this state live in RAM. -/
def spritePtrAddr (s : RasterState) : ℕ :=
  (s.bank &&& 3).toNat * 0x4000 + (s.vic 0x18).toNat / 16 * 1024 + 0x3F8

/-- Read the pointers from the live matrix. -/
def seedPointers (s : RasterState) (ram : Addr → Byte) : RasterState :=
  { s with
    spritePtr := fun n => ram (BitVec.ofNat 16 (s.spritePtrAddr + n))
    spritePtrValid := true }

end RasterState

/-- `VICRasterReplayBand`. -/
structure VICRasterReplayBand where
  firstRow : BitVec 16
  rowCount : BitVec 16
  state : RasterState

/-- The pages selected so far and their number. -/
structure PageSelection where
  pageMask : WordBitmap 8
  pageCount : ℕ

namespace PageSelection

def empty : PageSelection := ⟨WordBitmap.empty 8, 0⟩

/-- `rasterSelectPage`. -/
def selectPage (p : PageSelection) (page : ℕ) : PageSelection :=
  let page := page % 256
  if p.pageMask.test page then p else ⟨p.pageMask.insert page, p.pageCount + 1⟩

/-- `rasterSelectRange`. A range that passes the end of RAM goes on at page 0. -/
def selectRange (p : PageSelection) (address count : ℕ) : PageSelection :=
  if count = 0 then p
  else
    let first := address % 0x10000 / 256
    let last := (address + count - 1) % 0x10000 / 256
    if first ≤ last then (List.range' first (last + 1 - first)).foldl selectPage p
    else
      (List.range (last + 1)).foldl selectPage
        ((List.range' first (256 - first)).foldl selectPage p)

end PageSelection

namespace VICRasterReplayBand

variable (band : VICRasterReplayBand)

def displayEnabled : Bool := decide (band.state.vic 0x11 &&& 0x10 ≠ 0)

def bankBase : ℕ := (band.state.bank &&& 3).toNat * 0x4000

def screenBase : ℕ := band.bankBase + (band.state.vic 0x18).toNat / 16 * 1024

def bitmapBase : ℕ := band.bankBase + if band.state.vic 0x18 &&& 0x08 ≠ 0 then 0x2000 else 0

/-- The offset of the character set in the bank. -/
def charset : ℕ := (band.state.vic 0x18 &&& 0x0E).toNat * 1024

def usesCharROM : Bool :=
  decide (band.state.bank &&& 1 = 0) && decide (0x1000 ≤ band.charset)
    && decide (band.charset < 0x2000)

def ecm : Bool := decide (band.state.vic 0x11 &&& 0x40 ≠ 0)

def bmm : Bool := decide (band.state.vic 0x11 &&& 0x20 ≠ 0)

def mcm : Bool := decide (band.state.vic 0x16 &&& 0x10 ≠ 0)

def invalidMode : Bool := band.ecm && (band.bmm || band.mcm)

def spriteEnabled (sprite : ℕ) : Bool := (band.state.vic 0x15).getLsbD sprite

/-- The pages of the bitmap or of a character set in RAM. -/
def selectGraphics (p : PageSelection) : PageSelection :=
  if band.invalidMode then p
  else if band.bmm then p.selectRange band.bitmapBase 8192
  else if band.usesCharROM then p
  else p.selectRange (band.bankBase + band.charset) 2048

/-- The page of the shape that the pointer byte in live RAM selects. -/
def selectSprite (ram : Addr → Byte) (p : PageSelection) (sprite : ℕ) : PageSelection :=
  if band.spriteEnabled sprite then
    let pointer := ram (BitVec.ofNat 16 (band.screenBase + 0x3F8 + sprite))
    p.selectRange (band.bankBase + pointer.toNat * 64) 64
  else p

/-- The pages of one band. -/
def selectPages (ram : Option (Addr → Byte)) (p : PageSelection) : PageSelection :=
  if band.displayEnabled = false then p
  else
    let p := band.selectGraphics (p.selectRange band.screenBase 1024)
    match ram with
    | none => p
    | some ram => (List.range 8).foldl (band.selectSprite ram) p

end VICRasterReplayBand

/-- `VICRasterReplayPlan`. -/
structure VICRasterReplayPlan where
  result : VICRasterFrameResult
  fallback : Bool
  yScrollVaries : Bool
  bands : List VICRasterReplayBand
  pages : PageSelection

/-- `VIC_RASTER_MAX_SNAPSHOT_PAGES`. -/
abbrev vicRasterMaxSnapshotPages : ℕ := 96

/-- `CVICRasterReplay`. Its counters of resyncs and fallbacks are left out. -/
structure VICRasterReplay where
  timeline : VICRasterTimeline
  state : RasterState
  generation : BitVec 32
  primed : Bool

/-- The live machine state a build is given, null pointers as `none`. -/
structure LiveVIC where
  vic : Option Registers
  bank : Byte
  ram : Option (Addr → Byte)

/-- The registers a null pointer stands for are zero. -/
def LiveVIC.registers (live : LiveVIC) : Registers := live.vic.getD fun _ => 0

/-- The other arguments of a build. -/
structure BuildInput where
  log : Option VICLog
  head : BitVec 32
  now : BitVec 32
  anchor : BitVec 64
  generation : BitVec 32
  timing : VICRasterTiming
  live : LiveVIC

namespace VICRasterReplay

/-- The constructor. -/
def construct : VICRasterReplay where
  timeline := ⟨0, false⟩
  state := ⟨fun _ => 0, 0, fun _ => 0, false⟩
  generation := 0
  primed := false

def invalidate (s : VICRasterReplay) : VICRasterReplay :=
  { s with primed := false, timeline := s.timeline.invalidate }

/-- The union of the pages of all bands. -/
def collectPages (bands : List VICRasterReplayBand) (ram : Option (Addr → Byte)) :
    PageSelection :=
  bands.foldl (fun p band => band.selectPages ram p) PageSelection.empty

/-- The register state of the live machine, without pointers. -/
def liveState (live : LiveVIC) : RasterState :=
  ⟨live.registers, live.bank &&& 3, fun _ => 0, false⟩

def rePrime (input : BuildInput) : VICRasterReplay where
  timeline := VICRasterTimeline.prime input.head
  state :=
    match input.live.ram with
    | none => liveState input.live
    | some ram => (liveState input.live).seedPointers ram
  generation := input.generation
  primed := true

/-- One band over the whole frame with the live registers. -/
def makeStaticPlan (result : VICRasterFrameResult) (input : BuildInput) (fallback : Bool) :
    VICRasterReplayPlan :=
  let band := ⟨0, input.timing.frameRows.setWidth 16, liveState input.live⟩
  ⟨result, fallback, false, [band], collectPages [band] input.live.ram⟩

/-- Apply the events of each band and record the state it is drawn with. -/
def replayBands (log : VICLog) :
    List VICRasterBand → RasterState → List VICRasterReplayBand × RasterState
  | [], s => ([], s)
  | source :: rest, s =>
      let s := s.applyRange log (cyclicRange source.applyBegin source.applyEnd)
      let later := replayBands log rest s
      (⟨source.firstRow, source.rowCount, s⟩ :: later.1, later.2)

/-- A state that lost track of the pointers reads them again. -/
def reseed (s : RasterState) (ram : Option (Addr → Byte)) : RasterState :=
  match ram with
  | none => s
  | some ram => if s.spritePtrValid then s else s.seedPointers ram

/-- The plan of nothing to draw. -/
def holdPlan : VICRasterReplayPlan := ⟨.hold, false, false, [], PageSelection.empty⟩

/-- The replay of a completed frame. -/
def replayFrame (s : VICRasterReplay) (log : VICLog) (input : BuildInput)
    (timeline : VICRasterTimeline) (frame : VICRasterFrame) :
    VICRasterReplay × VICRasterReplayPlan :=
  let start := s.state.applyRange log (cyclicRange s.timeline.tail frame.drawStart)
  let yScrollVaries := VICRasterTimeline.yScrollVariesInDisplay log input.anchor input.timing
    frame (start.vic 0x11)
  let replayed := replayBands log frame.bands s.state
  let final := replayed.2.applyRange log (cyclicRange frame.finishBegin frame.finishEnd)
  let pages := collectPages replayed.1 input.live.ram
  ({ s with timeline := timeline, state := reseed final input.live.ram },
    if pages.pageCount ≤ vicRasterMaxSnapshotPages then
      ⟨.replay, false, yScrollVaries, replayed.1, pages⟩
    else makeStaticPlan .replay input true)

/-- The timeline's part of a build. -/
def timelineBuild (s : VICRasterReplay) (input : BuildInput) :
    VICRasterTimeline × VICRasterFrame :=
  VICRasterTimeline.build input.anchor input.timing s.timeline input.log input.head input.now

/-- `CVICRasterReplay::build`. -/
def build (s : VICRasterReplay) (input : BuildInput) : VICRasterReplay × VICRasterReplayPlan :=
  let generationChanged := s.primed && decide (input.generation ≠ s.generation)
  let lost := s.primed && !generationChanged
    && decide (vicLogSize < (input.head - s.timeline.tail).toNat)
  if s.primed = false ∨ generationChanged = true ∨ lost = true then
    (rePrime input, makeStaticPlan .snapshot input false)
  else
    let framed := s.timelineBuild input
    match framed.2.result, input.log with
    | .hold, _ => ({ s with timeline := framed.1 }, holdPlan)
    | .replay, some log => s.replayFrame log input framed.1 framed.2
    | _, _ => (rePrime input, makeStaticPlan .snapshot input false)

end VICRasterReplay

end ScpuEmu
