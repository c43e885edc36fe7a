import ScpuEmu.SuperCpu.WriteBuffer.Definitions

/-!
# Flushing the queue

The policy flush and the range flush consume queue entries in chunks and hand
each chunk to the bus as one burst. Both return the bus calls they make, in
order. Their loops end because every round that goes on has consumed an entry:
the fuel of a loop is the number of entries it starts with.
-/

namespace ScpuEmu

open Library

/-- The calls the buffer makes on the bus. -/
inductive BusCall
  | writeBurst (burst : List C64BusWrite)
  | readRAM (a : Addr)
  deriving DecidableEq, Repr

namespace WriteBuffer

variable (b : WriteBuffer) (w : View)

/-- Deliver-time translation of sprite-pointer bytes that select an under-I/O block. -/
def deliverValue (a : Addr) (v : Byte) : Byte :=
  match w.armed with
  | none => v
  | some t =>
      if 0xC000#16 ≤ a ∧ a < 0xCC00#16 ∧ t.inUse ((a.toNat - 0xC000) / 64) ≠ 0xFF#8 then v
      else if 0xC000#16 ≤ a ∧ 0x3F8#16 ≤ a &&& 0x3FF#16 ∧ 0x40#8 ≤ v ∧ v < 0x80#8 then
        let r := t.ptrReloc (v.toNat - 0x40)
        if r ≠ 0xFF#8 then r else v
      else v

/-- The byte an address is healed from: a stolen block from its under-I/O source. -/
def authoritativeShadowValue (ram : Addr → Byte) (a : Addr) : Byte :=
  match w.armed with
  | none => ram a
  | some t =>
      if 0xC000#16 ≤ a ∧ a < 0xCC00#16 then
        let source := t.inUse ((a.toNat - 0xC000) / 64)
        if source ≠ 0xFF#8 then
          ram (BitVec.ofNat 16 (0xC000 + source.toNat * 64 + a.toNat % 64))
        else ram a
      else ram a

def addressInRange (a : Addr) (base len : ℕ) : Bool :=
  decide (base < 0x10000) && decide (len ≠ 0) && decide (base ≤ a.toNat)
    && decide (a.toNat - base < len)

/-- Some dirty bit lies in the range. The sum `base + len` wraps at 32 bits. -/
def hasPendingInRange (base len : ℕ) : Bool :=
  if 0x10000 ≤ base ∨ len = 0 then false
  else
    let sum := (base + len) % 2 ^ 32
    let stop := if 0x10000 < sum then 0x10000 else sum
    let first := base / 64
    let last := (stop + (2 ^ 32 - 1)) % 2 ^ 32 / 64
    (List.range' first (last + 1 - first)).any fun word =>
      let bits := b.dirty word
      let bits := if word = first then bits &&& (BitVec.allOnes 64 <<< (base % 64)) else bits
      let bits :=
        if word = last ∧ stop % 64 ≠ 0 then bits &&& ((1#64 <<< (stop % 64)) - 1) else bits
      decide (bits ≠ 0)

def isHot (a : Addr) : Bool := w.hotBlocks.any fun blocks => blocks.test (a.toNat / 64)

/-- What one flush is allowed to take from the queue. -/
structure Selection where
  deferHot : Bool
  displayBase : ℕ
  displayLen : ℕ
  displayOnly : Bool
  displayBase2 : ℕ
  displayLen2 : ℕ

def Selection.take (sel : Selection) (a : Addr) : Bool :=
  let inDisplay := addressInRange a sel.displayBase sel.displayLen
    || addressInRange a sel.displayBase2 sel.displayLen2
  if sel.displayOnly then inDisplay else !inDisplay && !(sel.deferHot && isHot w a)

def stage (a : Addr) : C64BusWrite := ⟨a, deliverValue w a (b.pendingValue a)⟩

/-- One burst: a pass over the queue that consumes selected entries and rotates the
others. The returned burst is empty when nothing was sent. -/
def flushSelectedChunk (sel : Selection) (maxBytes : ℕ) : WriteBuffer × List C64BusWrite :=
  if b.queue.count = 0 ∨ maxBytes = 0 ∨ b.bus = false then (b, [])
  else
    let pass := b.queue.drain capacity (sel.take w) b.queue.count (min maxBytes chunk)
    let burst := pass.2.map (b.stage w)
    if burst.length = 0 then ({ b with queue := pass.1 }, [])
    else
      let sent := burst.map fun x => x.addr.toNat
      ({ b with
          queue := pass.1
          dirty := sent.foldl WordBitmap.erase b.dirty
          synced := sent.foldl WordBitmap.insert b.synced }.touchQueue, burst)

def canCacheNoProgress (deferHot : Bool) : Bool :=
  !deferHot || w.hotBlocks.isNone || w.hotBlocksGeneration.isSome

def noProgressCacheMatches (deferHot : Bool) (screenBase bitmapBase : ℕ) : Bool :=
  b.noProgress.valid && b.noProgress.queueGeneration == b.queueGeneration
    && b.noProgress.deferHot == deferHot && b.noProgress.screenBase == screenBase
    && b.noProgress.bitmapBase == bitmapBase
    && (!deferHot || w.hotBlocks.isNone
      || w.hotBlocksGeneration.any fun g => b.noProgress.hotGeneration == g)

def rememberNoProgress (deferHot : Bool) (screenBase bitmapBase : ℕ) : WriteBuffer :=
  if canCacheNoProgress w deferHot then
    { b with
      noProgress :=
        ⟨true, deferHot, b.queueGeneration, w.hotBlocksGeneration.getD 0, screenBase, bitmapBase⟩ }
  else b

def displaySelection (deferHot : Bool) (screenBase bitmapBase : ℕ) : Selection :=
  ⟨deferHot, screenBase, 1000, false, bitmapBase, 8000⟩

/-- The rounds of `flushUpToPolicy`; `budget` is `maxBytes - sent`. -/
def flushPolicyLoop (deferHot : Bool) (screenBase bitmapBase : ℕ) :
    ℕ → ℕ → WriteBuffer → WriteBuffer × List BusCall
  | 0, _, b => (b, [])
  | fuel + 1, budget, b =>
      if b.queue.count = 0 ∨ budget = 0 then (b, [])
      else
        let round :=
          b.flushSelectedChunk w (displaySelection deferHot screenBase bitmapBase) budget
        if round.2.length = 0 then
          (round.1.rememberNoProgress w deferHot screenBase bitmapBase, [])
        else
          let rest :=
            flushPolicyLoop deferHot screenBase bitmapBase fuel (budget - round.2.length) round.1
          (rest.1, .writeBurst round.2 :: rest.2)

/-- Without a bus the queue is dropped. -/
def dropQueue : WriteBuffer :=
  { b with
    dirty := WordBitmap.empty 64
    queue := { b.queue with head := 0, count := 0 } }.touchQueue

/-- The remaining count it returns is the `queue.count` of the buffer it leaves. -/
def flushUpToPolicy (maxBytes : ℕ) (deferHot : Bool) (screenBase bitmapBase : ℕ) :
    WriteBuffer × List BusCall :=
  if b.queue.count = 0 ∨ maxBytes = 0 then (b, [])
  else if b.noProgressCacheMatches w deferHot screenBase bitmapBase then (b, [])
  else if b.bus = false then (b.dropQueue, [])
  else flushPolicyLoop w deferHot screenBase bitmapBase b.queue.count maxBytes b

def flushUpTo (maxBytes : ℕ) : WriteBuffer × List BusCall :=
  b.flushUpToPolicy w maxBytes false 0xFFFFFFFF 0xFFFFFFFF

def rangeSelection (base len : ℕ) : Selection := ⟨false, base, len, true, 0xFFFFFFFF, 0⟩

def flushRangeLoop (base len : ℕ) : ℕ → ℕ → WriteBuffer → WriteBuffer × List BusCall
  | 0, _, b => (b, [])
  | fuel + 1, budget, b =>
      if b.queue.count = 0 ∨ budget = 0 ∨ b.hasPendingInRange base len = false then (b, [])
      else
        let round := b.flushSelectedChunk w (rangeSelection base len) budget
        if round.2.length = 0 then (round.1, [])
        else
          let rest := flushRangeLoop base len fuel (budget - round.2.length) round.1
          (rest.1, .writeBurst round.2 :: rest.2)

def flushRangeUpTo (base len maxBytes : ℕ) : WriteBuffer × List BusCall :=
  flushRangeLoop w base len b.queue.count maxBytes b

/-- The rounds of `flush`, each a `flushUpTo` of eight chunks. -/
def flushLoop : ℕ → WriteBuffer → WriteBuffer × List BusCall
  | 0, b => (b, [])
  | fuel + 1, b =>
      let round := b.flushUpTo w (chunk * 8)
      if round.1.queue.count = 0 then round
      else
        let rest := flushLoop fuel round.1
        (rest.1, round.2 ++ rest.2)

def flush : WriteBuffer × List BusCall := flushLoop w b.queue.count b

end WriteBuffer

end ScpuEmu
