import ScpuEmu.SuperCpu.WriteBuffer.Definitions

/-!
# What the VIC fetches

The shadow of the VIC's registers and of port A of CIA 2, and what is derived from them
for the delivery of sprites: the row of the sprite pointers in the active screen, the
blocks of 64 bytes that enabled sprites show, and the blocks under the I/O window that
were moved to where the VIC can be fed.
-/

namespace ScpuEmu

open Library

/-- The fields of `CC64Memory` that deal with what the VIC fetches. -/
structure Fetch where
  cia2PortALatch : Byte
  lastCIA2PortARead : Byte
  cia2DDRA : Byte
  haveCIA2PortALatch : Bool
  haveCIA2PortARead : Bool
  haveCIA2DDRA : Bool
  spritePtrBase : BitVec 32
  previousSpritePtrBase : BitVec 32
  lastD018 : Byte
  ramUnderIOAccessible : Bool
  ptrRowWrites : ℕ
  relocEnable : Bool
  relocation : Relocation
  relocAllocs : ℕ
  relocDelivered : ℕ
  relocExhausted : ℕ
  hotShapeBlocks : WordBitmap 64
  hotShapeGeneration : BitVec 32
  vicRegShadow : BitVec 6 → Byte

/-- The base of no row: the screen lies under the I/O window. -/
abbrev noBase : BitVec 32 := 0xFFFFFFFF

namespace Fetch

variable (f : Fetch)

def noRelocation : Relocation where
  ptrReloc _ := 0xFF
  inUse _ := 0xFF
  count := 0

/-- The constructor. The fields it leaves uninitialised are its arguments. -/
def construct (spritePtrBase previousSpritePtrBase : BitVec 32) (lastD018 : Byte)
    (vicRegShadow : BitVec 6 → Byte) : Fetch where
  cia2PortALatch := 0
  lastCIA2PortARead := 0
  cia2DDRA := 0
  haveCIA2PortALatch := false
  haveCIA2PortARead := false
  haveCIA2DDRA := false
  spritePtrBase := spritePtrBase
  previousSpritePtrBase := previousSpritePtrBase
  lastD018 := lastD018
  ramUnderIOAccessible := false
  ptrRowWrites := 0
  relocEnable := true
  relocation := noRelocation
  relocAllocs := 0
  relocDelivered := 0
  relocExhausted := 0
  hotShapeBlocks := WordBitmap.empty 64
  hotShapeGeneration := 0
  vicRegShadow := vicRegShadow

/-- PA0 and PA1 select the bank through inverters; input pins float high. -/
def vicBank : Byte :=
  let outputs : Byte := if f.haveCIA2DDRA then f.cia2DDRA else 0x03
  if f.haveCIA2PortALatch then ~~~f.cia2PortALatch &&& outputs &&& 3#8 else 0

def activeVICBankBase : BitVec 32 := f.vicBank.setWidth 32 <<< 14

def activeVICScreenBase : BitVec 32 :=
  f.activeVICBankBase + (f.lastD018 >>> 4).setWidth 32 <<< 10

def updateSpritePtrBase : Fetch :=
  let base := f.vicBank.setWidth 32 <<< 14 + (f.lastD018 >>> 4).setWidth 32 <<< 10 + 0x3F8#32
  let next :=
    if f.ramUnderIOAccessible = false ∧ base &&& 0xF000#32 = 0xD000 then noBase else base
  { f with
    previousSpritePtrBase :=
      if next ≠ f.spritePtrBase then f.spritePtrBase else f.previousSpritePtrBase
    spritePtrBase := next }

/-- The block that the pointer of sprite `n` selects, where it is delivered. -/
def shapeBlock (ram : Addr → Byte) (n : ℕ) : ℕ :=
  let bank := ((f.spritePtrBase >>> 14) &&& 3#32).toNat
  let v := ram ((f.spritePtrBase + BitVec.ofNat 32 n).setWidth 16)
  let moved := f.relocation.ptrReloc (v.toNat - 0x40)
  let v :=
    if f.relocEnable = true ∧ bank = 3 ∧ 0x40#8 ≤ v ∧ v < 0x80#8 ∧ moved ≠ 0xFF#8 then moved else v
  bank * 256 + v.toNat

def updateHotShapeBlocks (ram : Addr → Byte) : Fetch :=
  let enabled := f.vicRegShadow 0x15
  { f with
    hotShapeGeneration := f.hotShapeGeneration + 1
    hotShapeBlocks :=
      if f.spritePtrBase = noBase then WordBitmap.empty 64
      else
        (List.range 8).foldl
          (fun blocks n => if enabled.getLsbD n then blocks.insert (f.shapeBlock ram n) else blocks)
          (WordBitmap.empty 64) }

def setRAMUnderIOAccessible (ram : Addr → Byte) (accessible : Bool) : Fetch :=
  ({ f with
    ramUnderIOAccessible := accessible
    relocEnable :=
      if accessible then false else f.relocEnable }.updateSpritePtrBase).updateHotShapeBlocks
      ram

/-! ### Relocation -/

/-- A block that is free, and that the VIC cannot be showing as anything else. -/
def relocUsable (r : ℕ) : Bool :=
  let screenBase := (f.spritePtrBase - 0x3F8#32) &&& 0xFFFF#32
  let previousScreenBase := (f.previousSpritePtrBase - 0x3F8#32) &&& 0xFFFF#32
  let lowBitmap := f.vicRegShadow 0x11 &&& 0x20#8 != 0 && f.lastD018 &&& 0x08#8 == 0
  let addr := 0xC000#32 + BitVec.ofNat 32 r <<< 6
  decide (f.relocation.inUse r = 0xFF#8) &&
    !(decide (screenBase ≤ addr) && decide (addr < screenBase + 0x400#32)) &&
    !(decide (f.previousSpritePtrBase ≠ noBase) && decide (previousScreenBase ≤ addr) &&
      decide (addr < previousScreenBase + 0x400#32)) &&
    !lowBitmap

/-- The first block that `allocRelocBlock` accepts. -/
def freeRelocBlock : Option ℕ := (List.range 0x30).find? f.relocUsable

/-- Block `r` becomes the home of the shape that pointer `v` selects. -/
def claimReloc (v : Byte) (r : ℕ) : Fetch :=
  { f with
    relocation :=
      { ptrReloc := Function.update f.relocation.ptrReloc (v.toNat - 0x40) (BitVec.ofNat 8 r)
        inUse := Function.update f.relocation.inUse r v
        count := f.relocation.count + 1 }
    relocAllocs := f.relocAllocs + 1 }

/-- The pointer selects a block under the I/O window from the active row in bank 3. -/
def relocates (v : Byte) : Bool :=
  f.relocEnable && decide (0x40#8 ≤ v) && decide (v < 0x80#8) &&
    decide (0xC000#32 ≤ f.spritePtrBase) && decide (f.spritePtrBase ≠ noBase)

/-! ### Reset -/

/-- The fields in the order in which `reset` sets them: the caches are derived before the
shadows they depend on are cleared. -/
def reset (ram : Addr → Byte) : Fetch :=
  let f :=
    { f with
      cia2PortALatch := 0
      lastCIA2PortARead := 0
      lastD018 := 0x14
      spritePtrBase := noBase
      previousSpritePtrBase := noBase
      relocation := noRelocation }
  let f := f.updateSpritePtrBase.updateHotShapeBlocks ram
  { f with
    vicRegShadow := fun _ => 0
    cia2DDRA := 0
    haveCIA2PortALatch := false
    haveCIA2PortARead := false
    haveCIA2DDRA := false }

end Fetch

end ScpuEmu
