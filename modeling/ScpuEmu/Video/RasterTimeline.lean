import ScpuEmu.Types
import ScpuEmu.Library.CyclicRange

/-!
# Completed frames in the VIC event log

The log is a ring of timestamped register writes, indexed by a 32-bit sequence
number. From the unread part of the log the timeline picks the newest completed
frame and cuts its output rows into bands: rows between two events that take
effect on different rows share one register state.

`u32` quantities that are only counted are natural numbers here, and `s32` ones
are integers. The fixed band array of the source is a list; that it never grows
past the array is a theorem about the frames it can be built for.
-/

namespace ScpuEmu

open Library

/-- `VICRegWrite`: one VIC-visible state change. -/
structure VICRegWrite where
  cycle : BitVec 32
  reg : BitVec 16
  value : Byte
  lineLow : Byte
  deriving DecidableEq, Repr

/-- `SCPU_VIC_LOG_SIZE`. -/
abbrev vicLogSize : ℕ := 2048

/-- `VIC_RASTER_MAX_BANDS`. -/
abbrev vicRasterMaxBands : ℕ := 273

/-- `VIC_LOG_REG_SPRPTR`. -/
abbrev vicLogRegSprptr : ℕ := 0x50

def VICRegWrite.register (event : VICRegWrite) : ℕ := (event.reg &&& 0x07FF#16).toNat

def VICRegWrite.hasRasterLine (event : VICRegWrite) : Bool :=
  decide (event.reg &&& 0x4000#16 ≠ 0)

def VICRegWrite.rasterLine (event : VICRegWrite) : ℕ :=
  event.lineLow.toNat + if event.reg &&& 0x8000#16 ≠ 0 then 0x100 else 0

/-- The event writes one of the eight sprite pointers. -/
def VICRegWrite.isSpritePointer (event : VICRegWrite) : Bool :=
  decide (vicLogRegSprptr ≤ event.register) && decide (event.register < vicLogRegSprptr + 8)

/-- The log array. -/
abbrev VICLog := ℕ → VICRegWrite

/-- `rasterEvent`: the slot of a sequence number. -/
def rasterEvent (log : VICLog) (index : BitVec 32) : VICRegWrite :=
  log (index &&& 0x7FF#32).toNat

structure VICRasterTiming where
  cyclesPerLine : BitVec 32
  rasterLines : BitVec 32
  frameRows : BitVec 32
  topRaster : ℤ
  displayFirstRow : BitVec 32
  displayRows : BitVec 32

/-- The timing of a PAL machine. -/
def palTiming : VICRasterTiming := ⟨63, 312, 272, 16, 35, 200⟩

/-- The band covers `rowCount` rows from `firstRow`. The events with numbers from
`applyBegin` up to `applyEnd` are applied before it is rendered. -/
structure VICRasterBand where
  firstRow : BitVec 16
  rowCount : BitVec 16
  applyBegin : BitVec 32
  applyEnd : BitVec 32
  deriving DecidableEq, Repr

inductive VICRasterFrameResult
  | snapshot
  | hold
  | replay
  deriving DecidableEq, Repr

structure VICRasterFrame where
  result : VICRasterFrameResult
  drawStart : BitVec 32
  drawEnd : BitVec 32
  tailAfter : BitVec 32
  bands : List VICRasterBand
  finishBegin : BitVec 32
  finishEnd : BitVec 32
  deriving DecidableEq, Repr

/-- `CVICRasterTimeline`. -/
structure VICRasterTimeline where
  tail : BitVec 32
  primed : Bool

namespace VICRasterTimeline

def prime (head : BitVec 32) : VICRasterTimeline := ⟨head, true⟩

def invalidate (t : VICRasterTimeline) : VICRasterTimeline := { t with primed := false }

variable (log : VICLog) (anchor : BitVec 64) (timing : VICRasterTiming)

/-- The raster line of a cycle stamp, `-1` without a valid anchor. -/
def lineOfCycle (cycle : BitVec 32) : ℤ :=
  if timing.cyclesPerLine = 0 ∨ timing.rasterLines = 0 ∨ anchor >>> 63 = 0 then -1
  else
    let anchorCycle := (anchor >>> 16).setWidth 32
    let anchorLine := (anchor &&& 0x1FF#64).toNat
    let delta := (cycle - anchorCycle).toInt
    let lines := delta.tdiv timing.cyclesPerLine.toInt
    -- C++ division truncates toward zero; the source corrects it to the floor
    let lines :=
      if delta < 0 ∧ delta.tmod timing.cyclesPerLine.toInt ≠ 0 then lines - 1 else lines
    let line := ((anchorLine : ℤ) + lines).tmod timing.rasterLines.toInt
    if line < 0 then line + timing.rasterLines.toInt else line

def lineOfEvent (event : VICRegWrite) : ℤ :=
  if event.hasRasterLine then
    if timing.rasterLines ≠ 0 then (event.rasterLine % timing.rasterLines.toNat : ℕ) else -1
  else lineOfCycle anchor timing event.cycle

/-- The line an event shows from. A sprite pointer is fetched before its line begins. -/
def effectLine (event : VICRegWrite) : ℤ :=
  if event.isSpritePointer then lineOfEvent anchor timing event + 1
  else lineOfEvent anchor timing event

def clampRow (row : ℤ) : ℕ :=
  if row < 0 then 0
  else if timing.frameRows.toInt < row then timing.frameRows.toNat
  else row.toNat

/-- The output row an event shows from. -/
def rowOfEvent (event : VICRegWrite) : ℕ :=
  if lineOfEvent anchor timing event < 0 then timing.frameRows.toNat
  else
    let row := effectLine anchor timing event - timing.topRaster
    clampRow timing (if row < 0 then row + timing.rasterLines.toInt else row)

/-- The variables of the frame scan. -/
structure Scan where
  frameStart : BitVec 32
  previousStart : BitVec 32
  previousLine : ℤ
  previousCycle : BitVec 32

def frameCycles : BitVec 32 := timing.cyclesPerLine * timing.rasterLines

/-- An event opens a new frame when its line falls back or the gap to the event
before it is nearly a frame. The first event scanned opens none. -/
def Scan.next (tail i : BitVec 32) (event : VICRegWrite) (line : ℤ) (s : Scan) : Scan :=
  if i ≠ tail ∧ (line < s.previousLine ∨
      frameCycles timing - timing.cyclesPerLine ≤ event.cycle - s.previousCycle) then
    ⟨i, s.frameStart, line, event.cycle⟩
  else ⟨s.frameStart, s.previousStart, line, event.cycle⟩

/-- The scan over the unread events; `none` when an event has no line. -/
def scanFrames (tail : BitVec 32) : List (BitVec 32) → Scan → Option Scan
  | [], s => some s
  | i :: rest, s =>
      let event := rasterEvent log i
      let line := lineOfEvent anchor timing event
      if line < 0 then none else scanFrames tail rest (s.next timing tail i event line)

/-- The variables of the band loop. -/
structure BandState where
  bands : List VICRasterBand
  bandRow : ℕ
  applyBegin : BitVec 32

/-- Close the band before an event that shows on a later row. -/
def BandState.next (s : BandState) (i : BitVec 32) : BandState :=
  let row := rowOfEvent anchor timing (rasterEvent log i)
  if s.bandRow < row then
    ⟨s.bands ++ [⟨BitVec.ofNat 16 s.bandRow, BitVec.ofNat 16 (row - s.bandRow), s.applyBegin, i⟩],
      row, i⟩
  else s

def bandLoop (tail drawStart drawEnd : BitVec 32) : BandState :=
  (cyclicRange drawStart drawEnd).foldl (BandState.next log anchor timing) ⟨[], 0, tail⟩

/-- The band from the last event to the bottom row. -/
def BandState.close (s : BandState) (drawEnd : BitVec 32) : BandState :=
  if s.bandRow < timing.frameRows.toNat then
    ⟨s.bands ++ [⟨BitVec.ofNat 16 s.bandRow,
        BitVec.ofNat 16 (timing.frameRows.toNat - s.bandRow), s.applyBegin, drawEnd⟩],
      s.bandRow, drawEnd⟩
  else s

def snapshotFrame (head : BitVec 32) (bands : List VICRasterBand) : VICRasterFrame :=
  ⟨.snapshot, 0, 0, head, bands, 0, 0⟩

/-- The frame to draw, from the scan: the open one when the log went stale, else the
newest completed one. -/
def chooseFrame (tail head now : BitVec 32) (s : Scan) : Option (BitVec 32 × BitVec 32) :=
  let newestCycle := (rasterEvent log (head - 1)).cycle
  if frameCycles timing * 3 / 2 < now - newestCycle then some (s.frameStart, head)
  else if s.frameStart ≠ tail then some (s.previousStart, s.frameStart)
  else none

/-- `CVICRasterTimeline::build`. A null log is `none`. -/
def build (t : VICRasterTimeline) (log : Option VICLog) (head now : BitVec 32) :
    VICRasterTimeline × VICRasterFrame :=
  let wholeSnapshot :=
    snapshotFrame head [⟨0, timing.frameRows.setWidth 16, head, head⟩]
  match log with
  | none => (prime head, snapshotFrame head [])
  | some log =>
      if timing.cyclesPerLine = 0 ∨ timing.rasterLines = 0 ∨ timing.frameRows = 0 then
        (prime head, snapshotFrame head [])
      else if t.primed = false ∨ vicLogSize < (head - t.tail).toNat then
        (prime head, wholeSnapshot)
      else if head = t.tail then
        (t, ⟨.replay, t.tail, t.tail, t.tail,
          [⟨0, timing.frameRows.setWidth 16, t.tail, t.tail⟩], t.tail, t.tail⟩)
      else
        match scanFrames log anchor timing t.tail (cyclicRange t.tail head)
            ⟨t.tail, t.tail, -1, 0⟩ with
        | none => (prime head, wholeSnapshot)
        | some scan =>
            match chooseFrame log timing t.tail head now scan with
            | none => (t, ⟨.hold, 0, 0, t.tail, [], 0, 0⟩)
            | some (drawStart, drawEnd) =>
                let s := (bandLoop log anchor timing t.tail drawStart drawEnd).close timing drawEnd
                ({ t with tail := drawEnd },
                  ⟨.replay, drawStart, drawEnd, drawEnd, s.bands, s.applyBegin, drawEnd⟩)

/-- `yScrollVariesInDisplay`: a visible write changes the vertical scroll. -/
def yScrollVariesLoop : List (BitVec 32) → Byte → Bool
  | [], _ => false
  | i :: rest, yScroll =>
      let event := rasterEvent log i
      if event.register ≠ 0x11 then yScrollVariesLoop rest yScroll
      else
        let next := event.value &&& 7
        let row := rowOfEvent anchor timing event
        let displayEnd := (timing.displayFirstRow + timing.displayRows).toNat
        if timing.displayFirstRow.toNat ≤ row ∧ row < displayEnd ∧ next ≠ yScroll then true
        else yScrollVariesLoop rest next

def yScrollVariesInDisplay (frame : VICRasterFrame) (initialD011 : Byte) : Bool :=
  if frame.result ≠ .replay then false
  else
    yScrollVariesLoop log anchor timing (cyclicRange frame.drawStart frame.drawEnd)
      (initialD011 &&& 7)

end VICRasterTimeline

end ScpuEmu
