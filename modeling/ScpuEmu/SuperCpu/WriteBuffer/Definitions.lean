import ScpuEmu.Types
import ScpuEmu.Library.RingBuffer
import ScpuEmu.Library.WordBitmap

/-!
# The mirror write buffer

Guest writes that the VIC could see are queued here until a burst carries them
to the C64's own DRAM. The queue is a ring of addresses in which every address
stands at most once; a dirty bitmap repeats its contents for constant-time
membership, and a synced bitmap marks the addresses delivered at least once
since the last attach or discard.

The buffer holds pointers to guest RAM, to the bitmap of hot sprite blocks and
to the relocation tables, all owned by the memory model. A `View` is what these
pointers reach during one call. The statistics counters are left out: nothing
reads them back.
-/

namespace ScpuEmu

open Library

/-- Mirroring policies, `SCPU_OPT_*` in the source. -/
inductive SCPUOptMode
  | none
  | default
  | basic
  | vicBank0
  | vicBank1
  | vicBank2
  | vicBank3
  | full
  deriving DecidableEq, Repr

/-- `C64BusWrite`: one byte of a burst. -/
structure C64BusWrite where
  addr : Addr
  value : Byte
  deriving DecidableEq, Repr

/-- The relocation tables: `m_PtrReloc`, `m_RelocInUse` and `m_RelocCount`. -/
structure Relocation where
  ptrReloc : ℕ → Byte
  inUse : ℕ → Byte
  count : Byte

/-- What the attached pointers reach, `none` standing for a null pointer. -/
structure View where
  ram : Option (Addr → Byte)
  hotBlocks : Option (WordBitmap 64)
  hotBlocksGeneration : Option (BitVec 32)
  relocation : Option Relocation

/-- The tables while at least one block is relocated. -/
def View.armed (w : View) : Option Relocation :=
  w.relocation.filter fun t => t.count ≠ 0#8

/-- The rotating position of the targeted repair (`m_DisplayScrub*`). -/
structure DisplayScrub where
  screenBase : ℕ
  graphicsBase : ℕ
  graphicsLength : ℕ
  screenOffset : ℕ
  graphicsOffset : ℕ
  spriteOffset : ℕ
  turn : ℕ

/-- The position after construction and after each `attach`. -/
def DisplayScrub.reset : DisplayScrub where
  screenBase := 0xFFFFFFFF
  graphicsBase := 0xFFFFFFFF
  graphicsLength := 0
  screenOffset := 0
  graphicsOffset := 0
  spriteOffset := 0
  turn := 0

/-- The last policy scan that sent nothing (`m_NoProgress*`). -/
structure NoProgress where
  valid : Bool
  deferHot : Bool
  queueGeneration : BitVec 32
  hotGeneration : BitVec 32
  screenBase : ℕ
  bitmapBase : ℕ

/-- `SCPU_WRITEBUF_CAPACITY`. -/
abbrev capacity : ℕ := 0x10000

/-- `SCPU_WRITEBUF_CHUNK`. -/
abbrev chunk : ℕ := 512

/-- `CWriteBuffer`. Counts, budgets and bases are `u32` values. -/
structure WriteBuffer where
  bus : Bool
  mode : SCPUOptMode
  excludeZPStack : Bool
  deliveryEnabled : Bool
  ramUnderIOAccessible : Bool
  rangeLo : Addr
  rangeHi : Addr
  dirty : WordBitmap 64
  synced : WordBitmap 64
  resyncCursor : Addr
  displayScrub : DisplayScrub
  pendingValue : Addr → Byte
  queue : RingBuffer Addr
  queueGeneration : BitVec 32
  noProgress : NoProgress

namespace WriteBuffer

variable (b : WriteBuffer) (w : View)

/-- The queued addresses, oldest first. -/
def entries : List Addr := b.queue.toList capacity

def isDirty (a : Addr) : Bool := b.dirty.test a.toNat

def isSynced (a : Addr) : Bool := b.synced.test a.toNat

def setDirty (a : Addr) : WriteBuffer := { b with dirty := b.dirty.insert a.toNat }

def setSynced (a : Addr) : WriteBuffer := { b with synced := b.synced.insert a.toNat }

def clearSynced (a : Addr) : WriteBuffer := { b with synced := b.synced.erase a.toNat }

/-- `m_QueueGeneration++; m_NoProgressValid = false`. -/
def touchQueue : WriteBuffer :=
  { b with
    queueGeneration := b.queueGeneration + 1
    noProgress := { b.noProgress with valid := false } }

/-- The range of addresses that a mode mirrors, as inclusive bounds. -/
def modeRange : SCPUOptMode → Addr × Addr
  | .basic => (0x0400, 0x07FF)
  | .vicBank0 => (0x0000, 0x3FFF)
  | .vicBank1 => (0x4000, 0x7FFF)
  | .vicBank2 => (0x8000, 0xBFFF)
  | .vicBank3 => (0xC000, 0xFFFF)
  | .full => (0xFFFF, 0x0000)
  | .none => (0x0000, 0xFFFF)
  | .default => (0x0000, 0xFFFF)

def setOptMode (mode : SCPUOptMode) : WriteBuffer :=
  { b with mode := mode, rangeLo := (modeRange mode).1, rangeHi := (modeRange mode).2 }

def setDeliveryEnabled (enabled : Bool) : WriteBuffer := { b with deliveryEnabled := enabled }

def setRAMUnderIOAccessible (accessible : Bool) : WriteBuffer :=
  if b.ramUnderIOAccessible = accessible then b
  else
    { b with
      ramUnderIOAccessible := accessible
      noProgress := { b.noProgress with valid := false } }

def setExcludeZeroPageStack (exclude : Bool) : WriteBuffer := { b with excludeZPStack := exclude }

/-- The pointers themselves are part of the `View`; attaching them voids the cached scan. -/
def attachHotShapeBlocks : WriteBuffer :=
  { b with noProgress := { b.noProgress with valid := false } }

/-- The constructor. The arrays it leaves uninitialised are its arguments. -/
def construct (pendingValue : Addr → Byte) (list : ℕ → Addr) : WriteBuffer where
  bus := false
  mode := .default
  excludeZPStack := true
  deliveryEnabled := true
  ramUnderIOAccessible := false
  rangeLo := (modeRange .default).1
  rangeHi := (modeRange .default).2
  dirty := WordBitmap.empty 64
  synced := WordBitmap.empty 64
  resyncCursor := 0
  displayScrub := DisplayScrub.reset
  pendingValue := pendingValue
  queue := ⟨list, 0, 0⟩
  queueGeneration := 0
  noProgress := ⟨false, false, 0, 0, 0xFFFFFFFF, 0xFFFFFFFF⟩

def attach (bus : Bool) : WriteBuffer :=
  { b with
    bus := bus
    synced := WordBitmap.empty 64
    displayScrub := DisplayScrub.reset }.touchQueue

def discard : WriteBuffer :=
  { b with
    dirty := WordBitmap.empty 64
    synced := WordBitmap.empty 64
    queue := { b.queue with head := 0, count := 0 } }.touchQueue

/-- The policy decision on one address. -/
def shouldMirror (a : Addr) : Bool :=
  if b.mode = .full then false
  else if b.mode ≠ .none ∧ b.excludeZPStack = true ∧ a < 0x0200#16 then false
  else if b.ramUnderIOAccessible = false ∧ 0xD000#16 ≤ a ∧ a ≤ 0xDFFF#16 then false
  else decide (b.rangeLo ≤ a) && decide (a ≤ b.rangeHi)

/-- The last eight bytes of a 1K screen slot. -/
def isPotentialVICSpritePointer (a : Addr) : Bool := decide (0x03F8#16 ≤ a &&& 0x03FF#16)

/-- Move the entry of `a` behind everything queued. -/
def moveDirtyToTail (a : Addr) : WriteBuffer :=
  if b.queue.count < 2 then b
  else
    let position := b.entries.idxOf a
    if b.queue.count ≤ position ∨ position + 1 = b.queue.count then b
    else { b with queue := b.queue.moveToBack capacity position a }

/-- Where a relocated guest write goes. -/
inductive Routed
  | forward (a : Addr)
  | shielded

/-- Under-I/O shape relocation: a write into a relocated block is forwarded to
its deliverable copy, one into the copy's own address is shielded. -/
def relocateWrite (a : Addr) : WriteBuffer × Routed :=
  match w.armed with
  | none => (b, .forward a)
  | some t =>
      if 0xD000#16 ≤ a then
        let r := t.ptrReloc ((a >>> 6) &&& 0x3F#16).toNat
        if a ≤ 0xDFFF#16 ∧ r ≠ 0xFF#8 then
          let target := 0xC000#16 + (r.zeroExtend 16 <<< 6) + (a &&& 63#16)
          (b.clearSynced target, .forward target)
        else (b, .forward a)
      else if 0xC000#16 ≤ a ∧ a < 0xCC00#16 ∧ t.inUse ((a.toNat - 0xC000) / 64) ≠ 0xFF#8 then
        (b.clearSynced a, .shielded)
      else (b, .forward a)

/-- The write changes nothing that DRAM does not hold already. -/
def eliminates (a : Addr) (v : Byte) : Bool :=
  w.ram.any (fun ram => v == ram a) && !b.isDirty a && b.isSynced a

/-- Queue an address that is not dirty. -/
def append (a : Addr) : WriteBuffer :=
  if b.queue.count < capacity then
    { b with
      queue := b.queue.push capacity a
      queueGeneration := b.queueGeneration + 1 }
  else b

/-- Stage the value of an accepted write and queue its address. -/
def accept (a : Addr) (v : Byte) : WriteBuffer :=
  let staged := { b with pendingValue := Function.update b.pendingValue a v }
  if staged.isDirty a then
    if isPotentialVICSpritePointer a then staged.moveDirtyToTail a else staged
  else (staged.setDirty a).append a

/-- The mirror sink. It runs before the guest store, so that RAM still holds the old byte. -/
def onRamWrite (a : Addr) (v : Byte) : WriteBuffer × Bool :=
  if b.deliveryEnabled = false then (b, b.shouldMirror a)
  else
    match b.relocateWrite w a with
    | (b', .shielded) => (b', false)
    | (b', .forward a') =>
        if b'.shouldMirror a' = false then (b'.clearSynced a', false)
        else if b'.eliminates w a' v then (b', false)
        else (b'.accept a' v, true)

/-- Mark a range dirty with the bytes RAM holds. -/
def invalidateRange (a : Addr) (length : ℕ) : WriteBuffer :=
  (List.range length).foldl
    (fun b i =>
      let a' := a + BitVec.ofNat 16 i
      (b.onRamWrite w a' ((w.ram.map fun ram => ram a').getD 0)).1)
    b

end WriteBuffer

end ScpuEmu
