import ScpuEmu.Types
import ScpuEmu.Library.CString
import Mathlib.Data.BitVec

/-!
# The configuration file

A text file of lines, each a name and a number. `readConfig` copies one line at a time
into a buffer of its own, takes the first word of it and compares that with the table
of names.

Every step that C leaves undefined is a fault here: a read past the terminator of the
file, a line that does not fit its buffer, a null pointer given to `strcmp`, and `int`
arithmetic that overflows. A loop that has not ended after as many rounds as the file
buffer has bytes is a fault as well. Strings are lists of characters without the zero
that ends them.
-/

namespace ScpuEmu

open Library

namespace Config

inductive Fault
  | unfinished
  | pastTerminator
  | lineOverrun
  | nullToken
  | overflow
  deriving DecidableEq, Repr

/-- `sizeof cfg`. -/
abbrev cfgSize : ℕ := 65536

/-- `sizeof curLine`. -/
abbrev curLineSize : ℕ := 2048

abbrev newline : Byte := 10

abbrev carriageReturn : Byte := 13

abbrev quote : Byte := 0x22

/-- A blank or a tab. -/
def isBlank (c : Byte) : Bool := decide (c = 0x20 ∨ c = 9)

/-- The delimiters of the first word. -/
abbrev blanks : List Byte := [0x20, 9]

/-- The characters of a literal. -/
def chars (s : String) : List Byte := s.toList.map fun c => BitVec.ofNat 8 c.toNat

/-- `timingNames`. -/
def timingNames : List (List Byte) :=
  ["WAIT_FOR_SIGNALS", "WAIT_CYCLE_READ", "WAIT_CYCLE_WRITEDATA", "WAIT_CYCLE_READ_BADLINE",
    "WAIT_CYCLE_READ_VIC2", "WAIT_CYCLE_WRITEDATA_VIC2", "WAIT_CYCLE_MULTIPLEXER",
    "WAIT_CYCLE_MULTIPLEXER_VIC2", "WAIT_TRIGGER_DMA", "WAIT_RELEASE_DMA", "WAIT_OFFSET_CBTD",
    "WAIT_DATA_HOLD", "TIMING_TRIGGER_DMA", "WAIT_ENABLE_ADDRLATCH", "WAIT_READ_BA_WRITING",
    "WAIT_ENABLE_RW_ADDRLATCH", "WAIT_ENABLE_DATA_WRITING", "WAIT_BA_SIGNAL_AVAIL",
    "CACHING_L1_WINDOW_KB", "CACHING_L2_OFFSET_KB", "CACHING_L2_PRELOADS_PER_CYCLE", "CPU_CORE",
    "BOOTMAP", "JIFFYDOS", "MIRROR_DISPLAY_BYTES", "WAIT_CYCLE_READ_SID", "BOOT_ANIMATION",
    "MIRROR_HALT_AFTER_S", "MIRROR_D000_RELOCATE", "HEARTBEAT", "NMI_RETIME", "VECTOR_REROUTE",
    "IO_STRETCH", "NMI_NATIVE_DEFER", "MIRROR_STRETCH", "C128_MODE", "BUS_HALT_AFTER_S",
    "BUS_ACCESS_SENTINEL", "DISPLAY_SCRUB", "DISPLAY_SCRUB_MASK", "DISPLAY_SCRUB_PERIOD_S",
    "VIDEO_MODE", "REUSIZE"].map chars

/-! ## Numbers -/

/-- A result of `int` arithmetic. -/
def int (x : ℤ) : Except Fault ℤ :=
  if -2 ^ 31 ≤ x ∧ x < 2 ^ 31 then .ok x else .error .overflow

def isDigit (c : Byte) : Bool := decide (0x30 ≤ c ∧ c ≤ 0x39)

/-- `res * 10 + c - '0'`. -/
def appendDigit (res : ℤ) (c : Byte) : Except Fault ℤ := do
  let scaled ← int (res * 10)
  let shifted ← int (scaled + c.toNat)
  int (shifted - 0x30)

def atoiLoop : List Byte → ℤ → Except Fault ℤ
  | [], res => .ok res
  | c :: str, res =>
      if c = newline ∨ c = carriageReturn then .ok res
      else if isDigit c then do
        let res ← appendDigit res c
        atoiLoop str res
      else atoiLoop str res

/-- `atoi`. What is no digit is passed over. -/
def atoi (str : List Byte) : Except Fault ℤ := atoiLoop str 0

/-! ## Lines -/

section Lines

variable (cfg : List Byte)

/-- `cfg[ i ]`. -/
def cfgAt (i : ℕ) : Except Fault Byte := peek .pastTerminator cfg i

/-- The loop to the end of the line. -/
def lineEnd (cfgPos : ℕ) : ℕ → ℕ → Except Fault ℕ
  | 0, _ => .error .unfinished
  | fuel + 1, ep => do
      let c ← cfgAt cfg (cfgPos + ep)
      if c ≠ 0 ∧ c ≠ newline then lineEnd cfgPos fuel (ep + 1) else .ok ep

/-- The loop over the blanks a line starts with. -/
def skipBlanks (cfgPos ep : ℕ) : ℕ → ℕ → Except Fault ℕ
  | 0, _ => .error .unfinished
  | fuel + 1, sp =>
      if sp < ep then do
        let c ← cfgAt cfg (cfgPos + sp)
        if isBlank c then skipBlanks cfgPos ep fuel (sp + 1) else .ok sp
      else .ok sp

/-- The length of a line without a carriage return at its end. -/
def trimReturn (start len : ℕ) : Except Fault ℕ :=
  if 0 < len then do
    let c ← cfgAt cfg (start + (len - 1))
    .ok (if c = carriageReturn then len - 1 else len)
  else .ok len

/-- What `strncpy` copies: up to `len` characters, none from a zero on. -/
def copyChars (start : ℕ) : ℕ → Except Fault (List Byte)
  | 0 => .ok []
  | len + 1 => do
      let c ← cfgAt cfg start
      if c = 0 then .ok []
      else do
        let rest ← copyChars (start + 1) len
        .ok (c :: rest)

/-- `strncpy` into the cleared `curLine`, with room for the zero behind it. -/
def copyLine (start len : ℕ) : Except Fault (List Byte) :=
  if curLineSize ≤ len then .error .lineOverrun else copyChars cfg start len

/-- What `getNextLine` returns and leaves behind. -/
structure NextLine where
  result : ℕ
  curLine : List Byte
  cfgPos : ℕ
  deriving DecidableEq, Repr

/-- `getNextLine`. -/
def getNextLine (cfgPos : ℕ) : Except Fault NextLine := do
  let ep ← lineEnd cfg cfgPos cfgSize 0
  let sp ← skipBlanks cfg cfgPos ep cfgSize 0
  let len ← trimReturn cfg (cfgPos + sp) (ep - sp)
  let curLine ←
    copyLine cfg (cfgPos + sp) (if curLineSize - 1 < len then curLineSize - 1 else len)
  let c ← cfgAt cfg (cfgPos + ep)
  .ok ⟨ep - sp, curLine, cfgPos + (ep + if c = newline then 1 else 0)⟩

end Lines

/-! ## Names and values -/

/-- `timingValues` and the flags of the names that were seen, by their place in the table. -/
structure Parsed where
  timingValues : ℕ → ℤ
  seen : ℕ → Bool

/-- The names for which `readConfig` keeps a flag. -/
def hasSeenFlag (i : ℕ) : Bool :=
  decide (21 ≤ i ∧ i ≤ 24) || decide (i = 26) || decide (28 ≤ i ∧ i ≤ 42)

def Parsed.assign (s : Parsed) (i : ℕ) (value : ℤ) : Parsed where
  timingValues := Function.update s.timingValues i value
  seen := if hasSeenFlag i then Function.update s.seen i true else s.seen

/-- The loop over the table from name `i` on. When a name matches but has no value, `ptr`
is null and the loop goes on. -/
def matchNames : List (List Byte) → ℕ → Option (List Byte) → List Byte → Parsed →
    Except Fault Parsed
  | [], _, _, _, s => .ok s
  | _ :: _, _, none, _, _ => .error .nullToken
  | name :: names, i, some ptr, rest, s =>
      if ptr = name then
        match strtok [quote] rest with
        | (none, rest) => matchNames names (i + 1) none rest s
        | (some value, _) => do
            let number ← atoi value
            .ok (s.assign i number)
      else matchNames names (i + 1) (some ptr) rest s

/-- The body of the loop over the lines, for a line that is not empty. -/
def parseLine (curLine : List Byte) (s : Parsed) : Except Fault Parsed :=
  match strtok blanks curLine with
  | (none, _) => .ok s
  | (some ptr, rest) => matchNames timingNames 0 (some ptr) rest s

/-- What `readConfig` does with a line. An empty one is left out. -/
def readLine (line : NextLine) (s : Parsed) : Except Fault Parsed :=
  if line.result ≠ 0 ∧ line.curLine ≠ [] then parseLine line.curLine s else .ok s

/-- The loop over the lines. -/
def readLines (cfg : List Byte) : ℕ → ℕ → Parsed → Except Fault Parsed
  | 0, _, _ => .error .unfinished
  | fuel + 1, cfgPos, s => do
      let c ← cfgAt cfg cfgPos
      if c = 0 then .ok s
      else do
        let line ← getNextLine cfg cfgPos
        let s ← readLine line s
        readLines cfg fuel line.cfgPos s

/-! ## Settings -/

/-- The `cfg` variables. -/
structure Settings where
  cfgCPUCore : ℤ
  cfgBootmap : ℤ
  cfgJiffyDOS : ℤ
  cfgMirrorDisplayBytes : ℤ
  cfgBootAnimation : ℤ
  cfgMirrorHaltAfterS : ℤ
  cfgMirrorD000Relocate : ℤ
  cfgHeartbeat : ℤ
  cfgNMIRetime : ℤ
  cfgVectorReroute : ℤ
  cfgIOStretch : ℤ
  cfgNMINativeDefer : ℤ
  cfgMirrorStretch : ℤ
  cfgC128Mode : ℤ
  cfgBusHaltAfterS : ℤ
  cfgBusAccessSentinel : ℤ
  cfgDisplayScrub : ℤ
  cfgDisplayScrubMask : ℤ
  cfgDisplayScrubPeriodS : ℤ
  cfgVideoMode : ℤ
  cfgREUSize : ℤ
  deriving DecidableEq, Repr

/-- The built-in defaults. -/
def Settings.default : Settings where
  cfgCPUCore := 1
  cfgBootmap := 1
  cfgJiffyDOS := 1
  cfgMirrorDisplayBytes := 1024
  cfgBootAnimation := 1
  cfgMirrorHaltAfterS := 0
  cfgMirrorD000Relocate := 1
  cfgHeartbeat := 0
  cfgNMIRetime := 1
  cfgVectorReroute := 1
  cfgIOStretch := 0
  cfgNMINativeDefer := 1
  cfgMirrorStretch := 0
  cfgC128Mode := 0
  cfgBusHaltAfterS := 0
  cfgBusAccessSentinel := 0
  cfgDisplayScrub := 0
  cfgDisplayScrubMask := 1
  cfgDisplayScrubPeriodS := 0
  cfgVideoMode := 0
  cfgREUSize := 1

namespace Parsed

variable (s : Parsed)

/-- A flag: a value other than 0 switches it on. -/
def flag (i : ℕ) (current : ℤ) : ℤ :=
  if s.seen i then if s.timingValues i ≠ 0 then 1 else 0 else current

/-- A selector: a value out of range selects `fallback`. -/
def selector (i : ℕ) (low high fallback current : ℤ) : ℤ :=
  if s.seen i then
    if s.timingValues i < low ∨ high < s.timingValues i then fallback else s.timingValues i
  else current

/-- A number of seconds that 0 does not set. -/
def seconds (i : ℕ) (current : ℤ) : ℤ :=
  if s.seen i = true ∧ 0 < s.timingValues i then s.timingValues i else current

/-- What the lines read make of the settings. -/
def settings (current : Settings) : Settings where
  cfgCPUCore := s.flag 21 current.cfgCPUCore
  cfgBootmap := s.flag 22 current.cfgBootmap
  cfgJiffyDOS := s.flag 23 current.cfgJiffyDOS
  -- a byte count: 0 is a value
  cfgMirrorDisplayBytes :=
    if s.seen 24 = true ∧ 0 ≤ s.timingValues 24 then s.timingValues 24
    else current.cfgMirrorDisplayBytes
  cfgBootAnimation := s.flag 26 current.cfgBootAnimation
  -- the one number of seconds without a flag of its own
  cfgMirrorHaltAfterS :=
    if 0 < s.timingValues 27 then s.timingValues 27 else current.cfgMirrorHaltAfterS
  cfgMirrorD000Relocate := s.flag 28 current.cfgMirrorD000Relocate
  cfgHeartbeat := s.flag 29 current.cfgHeartbeat
  cfgNMIRetime := s.flag 30 current.cfgNMIRetime
  cfgVectorReroute := s.flag 31 current.cfgVectorReroute
  cfgIOStretch := s.flag 32 current.cfgIOStretch
  cfgNMINativeDefer := s.flag 33 current.cfgNMINativeDefer
  cfgMirrorStretch := s.flag 34 current.cfgMirrorStretch
  cfgC128Mode := s.selector 35 0 2 0 current.cfgC128Mode
  cfgBusHaltAfterS := s.seconds 36 current.cfgBusHaltAfterS
  cfgBusAccessSentinel := s.selector 37 0 13 0 current.cfgBusAccessSentinel
  cfgDisplayScrub := s.flag 38 current.cfgDisplayScrub
  cfgDisplayScrubMask := s.flag 39 current.cfgDisplayScrubMask
  cfgDisplayScrubPeriodS := s.seconds 40 current.cfgDisplayScrubPeriodS
  cfgVideoMode := s.selector 41 0 2 0 current.cfgVideoMode
  cfgREUSize := s.selector 42 1 7 1 current.cfgREUSize

/-- The `WAIT_`, `TIMING_` and `CACHING_` variables, by the place of their names in the
table. A value of 0 leaves a variable as it is. -/
def timings (current : ℕ → BitVec 32) (i : ℕ) : BitVec 32 :=
  if (i ≤ 20 ∨ i = 25) ∧ s.timingValues i ≠ 0 then BitVec.ofInt 32 (s.timingValues i)
  else current i

end Parsed

/-- `readFile`: the content of a file that fits the buffer. -/
def readFile (file : Option (List Byte)) (maxSize : ℕ) : Option (List Byte) :=
  file.filter fun content => decide (content.length ≤ maxSize)

structure ReadConfig where
  result : ℕ
  settings : Settings
  timings : ℕ → BitVec 32

/-- `readConfig`, with the file on the card, if there is one. -/
def readConfig (timings : ℕ → BitVec 32) (file : Option (List Byte)) : Except Fault ReadConfig :=
  match readFile file (cfgSize - 1) with
  | none => .ok ⟨0, Settings.default, timings⟩
  | some cfg => do
      let s ← readLines cfg cfgSize 0 ⟨fun _ => 0, fun _ => false⟩
      .ok ⟨1, s.settings Settings.default, s.timings timings⟩

end Config

end ScpuEmu
