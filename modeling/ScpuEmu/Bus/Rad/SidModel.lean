import ScpuEmu.Types
import ScpuEmu.SuperCpu.Frame
import Mathlib.Data.BitVec

/-!
# A stand-in for the third voice

Where the bus cannot sample the SID, the oscillator of voice 3 is advanced from the clock of
the ARM whenever the program looks at it or writes to it, and the paddles are taken from many
samples.
-/

namespace ScpuEmu

/-- `SCPU_ARM_CLOCK_HZ`. -/
def armClockHz : ℕ := 1400000000

/-- The clock of the SID. -/
def sidHz (video : C64VideoStandard) : ℕ := if video = .pal then 985248 else 1022727

/-- The fields `m_SIDModel…`. -/
structure SIDModel where
  freq : BitVec 16
  control : Byte
  phase : BitVec 32
  lastHost : BitVec 64
  remainder : BitVec 64
  deriving DecidableEq

namespace SIDModel

/-- As constructed. -/
def construct : SIDModel := ⟨0, 0, 0, 0, 0⟩

def test (m : SIDModel) : Bool := decide (m.control &&& 0x08 ≠ 0)

/-- `sidModelAdvance`. -/
def advance (m : SIDModel) (now : BitVec 64) (video : C64VideoStandard) : SIDModel :=
  if m.lastHost = 0 then { m with lastHost := now }
  else
    let elapsed := now - m.lastHost
    let scaled := elapsed * BitVec.ofNat 64 (sidHz video) + m.remainder
    let sidClocks := scaled / BitVec.ofNat 64 armClockHz
    { m with
      lastHost := now
      remainder := scaled % BitVec.ofNat 64 armClockHz
      phase :=
        if m.test then m.phase
        else (m.phase.setWidth 64 + sidClocks * m.freq.setWidth 64).setWidth 32 &&& 0xFFFFFF }

/-- `sidObserveWrite`, for the registers that it observes. -/
def observeWrite (m : SIDModel) (now : BitVec 64) (video : C64VideoStandard) (addr : Addr)
    (value : Byte) : SIDModel :=
  let m := m.advance now video
  if addr = 0xD40E then { m with freq := m.freq &&& 0xFF00 ||| value.setWidth 16 }
  else if addr = 0xD40F then
    { m with freq := m.freq &&& 0x00FF ||| value.setWidth 16 <<< 8 }
  else
    { m with control := value, phase := if value &&& 0x08 ≠ 0 then 0 else m.phase }

/-- `sidReadOSC3Model`. -/
def readOSC3 (now : BitVec 64) (video : C64VideoStandard) (m : SIDModel) : Byte × SIDModel :=
  let m := m.advance now video
  (if m.test ∨ m.control &&& 0xF0 = 0 then 0 else (m.phase >>> 16).setWidth 8, m)

end SIDModel

/-! ### The paddles -/

/-- The distance of two coordinates. -/
def potDistance (v previous : Byte) : ℕ :=
  if previous < v then v.toNat - previous.toNat else previous.toNat - v.toNat

/-- One value of the histogram against the best so far. -/
def potChallenge (previous : Byte) (values : List Byte) (best : ℕ × Byte) (v : Byte) : ℕ × Byte :=
  if best.1 < values.count v then (values.count v, v)
  else if values.count v = best.1 ∧ best.1 ≠ 0 ∧
      potDistance v previous < potDistance best.2 previous then (best.1, v)
  else best

/-- The value that `sidReadPOTFiltered` settles on after the values that it has sampled. -/
def potFiltered (previous : Byte) (values : List Byte) : Byte :=
  let best :=
    ((List.range 256).map (BitVec.ofNat 8)).foldl (potChallenge previous values) (0, previous)
  if 3 ≤ best.1 then best.2 else previous

end ScpuEmu
