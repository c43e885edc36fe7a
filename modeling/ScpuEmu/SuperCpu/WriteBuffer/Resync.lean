import ScpuEmu.SuperCpu.WriteBuffer.Flush

/-!
# Re-delivering clean bytes

Two paths send bytes that are not queued. The background sweep walks a cursor
over the mirrored range, and the targeted repair walks the memory the VIC is
displaying: the screen matrix, the bitmap or character set, and the blocks of
the active sprites, one of these regions in turn at each call.
-/

namespace ScpuEmu

open Library

/-- The region one call of the targeted repair walks. -/
inductive ScrubRegion
  | matrix
  | graphics
  | sprites

/-- Adopt the bases of this call; a changed base restarts its region. -/
def DisplayScrub.retarget (d : DisplayScrub) (screenBase graphicsBase graphicsLength : ℕ) :
    DisplayScrub :=
  let d :=
    if screenBase ≠ d.screenBase then { d with screenBase := screenBase, screenOffset := 0 } else d
  if graphicsBase ≠ d.graphicsBase ∨ graphicsLength ≠ d.graphicsLength then
    { d with
      graphicsBase := graphicsBase
      graphicsLength := graphicsLength
      graphicsOffset := 0 }
  else d

def ScrubRegion.offset (d : DisplayScrub) : ScrubRegion → ℕ
  | .matrix => d.screenOffset
  | .graphics => d.graphicsOffset
  | .sprites => d.spriteOffset

def ScrubRegion.setOffset (d : DisplayScrub) (offset : ℕ) : ScrubRegion → DisplayScrub
  | .matrix => { d with screenOffset := offset }
  | .graphics => { d with graphicsOffset := offset }
  | .sprites => { d with spriteOffset := offset }

/-- The address at the current place of a region. -/
def ScrubRegion.place (d : DisplayScrub) (hot : List ℕ) : ScrubRegion → Addr
  | .matrix => BitVec.ofNat 16 (d.screenBase + d.screenOffset)
  | .graphics => BitVec.ofNat 16 (d.graphicsBase + d.graphicsOffset)
  | .sprites => BitVec.ofNat 16 (hot.getD (d.spriteOffset / 64) 0 * 64 + d.spriteOffset % 64)

namespace WriteBuffer

variable (b : WriteBuffer) (w : View)

def advanceResyncCursor : WriteBuffer :=
  { b with
    resyncCursor := if b.resyncCursor = b.rangeHi then b.rangeLo else b.resyncCursor + 1 }

def healed (ram : Addr → Byte) (a : Addr) : C64BusWrite :=
  ⟨a, deliverValue w a (authoritativeShadowValue w ram a)⟩

/-- The lap of `resyncSweep`: at most `guard` places of the cursor, with the burst so far. -/
def resyncSweepLoop (ram : Addr → Byte) (maxBytes : ℕ) :
    ℕ → WriteBuffer → List C64BusWrite → WriteBuffer × List C64BusWrite
  | 0, b, burst => (b, burst)
  | guard + 1, b, burst =>
      if maxBytes ≤ burst.length then (b, burst)
      else
        let a := b.resyncCursor
        let b := b.advanceResyncCursor
        if b.shouldMirror a = false ∨ b.isDirty a = true then
          resyncSweepLoop ram maxBytes guard b burst
        else
          let b := b.setSynced a
          let burst := burst ++ [healed w ram a]
          if burst.length = chunk then (b, burst)
          else resyncSweepLoop ram maxBytes guard b burst

def burstCall (burst : List C64BusWrite) : List BusCall :=
  if burst.length = 0 then [] else [.writeBurst burst]

def resyncSweep (maxBytes : ℕ) : WriteBuffer × List BusCall :=
  match w.ram with
  | none => (b, [])
  | some ram =>
      if b.bus = false ∨ maxBytes = 0 then (b, [])
      else
        let lap := resyncSweepLoop w ram maxBytes 0x10000 b []
        (lap.1, burstCall lap.2)

/-- The first eight hot blocks. -/
def firstHotBlocks : List ℕ :=
  match w.hotBlocks with
  | none => []
  | some blocks => ((List.range 1024).filter fun block => blocks.test block).take 8

/-- The flags of one targeted repair call. -/
structure ScrubFlags where
  masked : Bool
  repair : Bool
  sample : Bool

/-- The candidate test of the targeted repair. -/
def scrubSkips (flags : ScrubFlags) (a : Addr) : Bool :=
  (flags.masked && decide (a &&& 0x000A#16 ≠ 0x0008#16)) || !b.shouldMirror a || b.isDirty a

/-- The walk over at most `left` places. `candidates` and the burst grow as it goes;
sampled reads are returned in `calls`. -/
def scrubLoop (ram : Addr → Byte) (region : ScrubRegion) (hot : List ℕ) (length maxBytes : ℕ)
    (flags : ScrubFlags) :
    ℕ → ℕ → WriteBuffer → List C64BusWrite → List BusCall →
      WriteBuffer × List C64BusWrite × List BusCall
  | 0, _, b, burst, calls => (b, burst, calls)
  | left + 1, candidates, b, burst, calls =>
      if maxBytes ≤ candidates then (b, burst, calls)
      else
        let a := region.place b.displayScrub hot
        let next := (region.offset b.displayScrub + 1) % length
        let b := { b with displayScrub := region.setOffset b.displayScrub next }
        if b.scrubSkips flags a then
          scrubLoop ram region hot length maxBytes flags left candidates b burst calls
        else
          let calls := if flags.sample then calls ++ [.readRAM a] else calls
          if flags.repair = false ∨ b.isDirty a = true then
            scrubLoop ram region hot length maxBytes flags left (candidates + 1) b burst calls
          else
            scrubLoop ram region hot length maxBytes flags left (candidates + 1)
              (b.setSynced a) (burst ++ [healed w ram a]) calls

/-- The slots the turn counts through: the matrix, each 1K of graphics, the sprites. -/
def scrubSlots (haveScreen : Bool) (graphicsLength : ℕ) (hot : List ℕ) : ℕ :=
  (if haveScreen then 1 else 0) + graphicsLength / 1024 + (if hot.length ≠ 0 then 1 else 0)

/-- The region whose turn it is, and its length. -/
def scrubRegion (turn : ℕ) (haveScreen : Bool) (graphicsLength : ℕ) (hot : List ℕ) :
    ScrubRegion × ℕ :=
  let screenSlots := if haveScreen then 1 else 0
  if turn < screenSlots then (.matrix, 1024)
  else if turn < screenSlots + graphicsLength / 1024 then (.graphics, graphicsLength)
  else (.sprites, hot.length * 64)

/-- The graphics length the repair honours: a character set, a bitmap, or nothing. -/
def scrubGraphicsLength (graphicsBase graphicsLength : ℕ) : ℕ :=
  if 0x10000 ≤ graphicsBase then 0
  else if graphicsLength = 2048 ∨ graphicsLength = 8192 then graphicsLength
  else 0

def withScrub (d : DisplayScrub) : WriteBuffer := { b with displayScrub := d }

/-- The number of bytes it returns is the length of the burst it sends. -/
def resyncDisplayed (screenBase graphicsBase graphicsLength maxBytes : ℕ) (flags : ScrubFlags) :
    WriteBuffer × List BusCall :=
  match w.ram with
  | none => (b, [])
  | some ram =>
      if b.bus = false ∨ maxBytes = 0 then (b, [])
      else
        let graphicsLength := scrubGraphicsLength graphicsBase graphicsLength
        let d := b.displayScrub.retarget screenBase graphicsBase graphicsLength
        let haveScreen := decide (screenBase < 0x10000)
        let hot := firstHotBlocks w
        let totalSlots := scrubSlots haveScreen graphicsLength hot
        if totalSlots = 0 then (b.withScrub d, [])
        else
          let turn := if totalSlots ≤ d.turn then 0 else d.turn
          let region := scrubRegion turn haveScreen graphicsLength hot
          let spriteOffset :=
            match region.1 with
            | .sprites => if region.2 ≤ d.spriteOffset then 0 else d.spriteOffset
            | _ => d.spriteOffset
          let d := { d with turn := turn, spriteOffset := spriteOffset }
          let walk := scrubLoop w ram region.1 hot region.2 (min maxBytes chunk) flags
            region.2 0 (b.withScrub d) [] []
          let d := { walk.1.displayScrub with turn := (turn + 1) % totalSlots }
          (walk.1.withScrub d, walk.2.2 ++ burstCall walk.2.1)

end WriteBuffer

end ScpuEmu
