import ScpuEmu.Types
import Mathlib.Tactic.SplitIfs

/-!
# What the PLA maps where

The processor port of the 6510 and the two cartridge lines choose, for each page of
4K, between DRAM, the ROMs, the chips and the cartridge.
-/

namespace ScpuEmu

/-- `REG_*`. -/
inductive C64Region
  | ram
  | basic
  | kernal
  | charROM
  | io
  | cartROML
  | cartROMH
  | openBus
  deriving DecidableEq, Repr

/-- The levels of the port lines and of the cartridge lines, of which one is inactive. -/
structure C64BankConfig where
  port01 : Byte
  game : Bool
  exrom : Bool

/-- LORAM, HIRAM, CHAREN, GAME and EXROM, from bit 0 on. -/
def c64BankMode (cfg : C64BankConfig) : Byte :=
  (cfg.port01 &&& 0x07#8) ||| (if cfg.game then 0x08#8 else 0) ||| (if cfg.exrom then 0x10#8 else 0)

/-- The banking lines: driven ones take the latch, floating ones read high. -/
def c64PortEffective (ddr00 port01 : Byte) : Byte :=
  ((port01 &&& ddr00) ||| ~~~ddr00) &&& 0x07#8

/-- The byte that software reads back from $0001. -/
def c64PortRead (ddr00 port01 : Byte) : Byte :=
  ((port01 &&& ddr00) ||| (0x17#8 &&& ~~~ddr00)) &&& 0x3F#8

/-- One entry of `c64RegionTable`. -/
def c64RegionTable (mode : Byte) (page : ℕ) : C64Region :=
  let loram := mode.getLsbD 0
  let hiram := mode.getLsbD 1
  let charen := mode.getLsbD 2
  let game := mode.getLsbD 3
  let exrom := mode.getLsbD 4
  if !game && exrom then
    -- Ultimax
    if page = 0x0 then .ram
    else if 0x8 ≤ page ∧ page ≤ 0x9 then .cartROML
    else if page = 0xD then .io
    else if 0xE ≤ page then .cartROMH
    else .openBus
  else
    match page with
    | 0x8 | 0x9 => if !exrom && loram && hiram then .cartROML else .ram
    | 0xA | 0xB =>
        if !game && !exrom && loram && hiram then .cartROMH
        else if game && loram && hiram then .basic
        else .ram
    | 0xD => if !loram && !hiram then .ram else if !charen then .charROM else .io
    | 0xE | 0xF => if hiram then .kernal else .ram
    | _ => .ram

def c64MapRead (addr : Addr) (mode : Byte) : C64Region :=
  c64RegionTable mode (addr >>> 12).toNat

/-- Writes never land in ROM; only the chips keep them from DRAM. -/
def c64WriteIsIO (addr : Addr) (mode : Byte) : Bool := decide (c64MapRead addr mode = .io)

/-- The chips stand in page $D, in every configuration. -/
theorem page_of_io {addr : Addr} {mode : Byte} (h : c64MapRead addr mode = .io) :
    (addr >>> 12).toNat = 0xD := by
  unfold c64MapRead c64RegionTable at h
  generalize (addr >>> 12).toNat = page at h ⊢
  dsimp only at h
  split at h
  · split_ifs at h
    assumption
  · split at h
    all_goals first | split_ifs at h | cases h
    rfl

end ScpuEmu
