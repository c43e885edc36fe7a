import ScpuEmu.Video.RasterTimeline

/-!
# The producer of the VIC event log

Register writes go into the log with a stamp of the C64's clock. A write of the raster
compare tells on which line the beam is; events just before and just after it are
tagged with that line.
-/

namespace ScpuEmu

/-- The fields of `CC64Memory` that deal with the log. -/
structure RasterCapture where
  vicLog : VICLog
  vicLogHead : BitVec 32
  vicLogGeneration : BitVec 32
  vicLogEnabled : Bool
  rasterAnchor : BitVec 64
  lastPreciseAnchor : BitVec 32
  rasterCompare : BitVec 16
  lastCompareWrite : BitVec 32
  lastPreciseLine : BitVec 16

namespace RasterCapture

variable (c : RasterCapture) (now : BitVec 32)

/-- The initial values of the fields. The log array is left uninitialised. -/
def construct (vicLog : VICLog) : RasterCapture :=
  ⟨vicLog, 0, 0, false, 0, 0x80000000, 0, 0x80000000, 0xFFFF⟩

/-- Switching the log on begins an epoch. -/
def enableVICLog (enabled : Bool) : RasterCapture :=
  if enabled = true ∧ c.vicLogEnabled = false then
    { c with
      vicLogHead := 0
      lastPreciseAnchor := 0x80000000
      lastCompareWrite := 0x80000000
      lastPreciseLine := 0xFFFF
      rasterAnchor := 0
      vicLogGeneration := c.vicLogGeneration + 1
      vicLogEnabled := true }
  else { c with vicLogEnabled := enabled }

def appendVICLog (reg : BitVec 16) (value : Byte) : RasterCapture :=
  if c.vicLogEnabled = false then c
  else
    let tagged := decide (c.lastPreciseLine ≠ 0xFFFF) && decide (now - c.lastPreciseAnchor < 48#32)
    let high : BitVec 16 := if c.lastPreciseLine &&& 0x100#16 ≠ 0 then 0x8000 else 0
    let event : VICRegWrite :=
      { cycle := now
        reg := (reg &&& 0x07FF#16) ||| if tagged then 0x4000#16 ||| high else 0
        value := value
        lineLow := if tagged then c.lastPreciseLine.setWidth 8 else 0 }
    { c with
      vicLog := Function.update c.vicLog (c.vicLogHead &&& 0x7FF#32).toNat event
      vicLogHead := c.vicLogHead + 1 }

/-- Tag the events of the handler that is running, newest first: at most eight, and none
older than a line. The answer is also the stamp of the oldest. -/
def tagBack (perLine : BitVec 32) (exact : BitVec 16) (head : BitVec 32) :
    ℕ → BitVec 32 → VICLog → BitVec 32 → VICLog × BitVec 32
  | 0, _, log, lineStart => (log, lineStart)
  | left + 1, back, log, lineStart =>
      if head < back then (log, lineStart)
      else
        let slot := ((head - back) &&& 0x7FF#32).toNat
        let e := log slot
        if perLine ≤ now - e.cycle then (log, lineStart)
        else
          let high : BitVec 16 := if exact &&& 0x100#16 ≠ 0 then 0x8000 else 0
          let tagged : VICRegWrite :=
            { e with
              lineLow := exact.setWidth 8
              reg := (e.reg &&& 0x07FF#16) ||| 0x4000#16 ||| high }
          let log := if e.hasRasterLine then log else Function.update log slot tagged
          tagBack perLine exact head left (back + 1) log e.cycle

def noteRasterPrecise (perLine : BitVec 32) (line : BitVec 16) : RasterCapture :=
  let exact := line &&& 0x1FF#16
  let (log, lineStart) := tagBack now perLine exact c.vicLogHead 8 1 c.vicLog now
  { c with
    vicLog := log
    lastPreciseAnchor := now
    lastPreciseLine := exact
    rasterAnchor := 1#64 <<< 63 ||| lineStart.setWidth 64 <<< 16 ||| exact.setWidth 64 }

/-- What a write of a VIC register tells about the beam, before the register changes. -/
def noteCompare (perLine : BitVec 32) (vicReg : BitVec 6) (value d011 : Byte) : RasterCapture :=
  if c.vicLogEnabled = false then c
  else
    let compareWrite := decide (vicReg = 0x12) ||
      decide (vicReg = 0x11) && (value ^^^ d011) &&& 0x80#8 != 0
    let settled := decide (256#32 ≤ now - c.lastCompareWrite)
    if compareWrite then
      let c := if settled then c.noteRasterPrecise now perLine c.rasterCompare else c
      { c with lastCompareWrite := now }
    else if vicReg = 0x19 ∧ value &&& 0x01#8 ≠ 0 ∧ settled then
      c.noteRasterPrecise now perLine c.rasterCompare
    else c

def reset : RasterCapture :=
  { c with
    rasterCompare := 0
    lastCompareWrite := 0x80000000
    lastPreciseAnchor := 0x80000000
    lastPreciseLine := 0xFFFF
    rasterAnchor := 0
    vicLogHead := 0
    vicLogGeneration := c.vicLogGeneration + 1 }

end RasterCapture

end ScpuEmu
