import ScpuEmu.SuperCpu.WriteBuffer.Progress

/-!
# Mirror coherence

The elimination of same-value writes rests on one belief: a byte that was
delivered and is not queued is the same in RAM and in the C64's DRAM. The belief
holds as long as the value queued for an address is the value RAM holds there.
It is lost when the policy stops mirroring an address that is still queued and
the guest then stores another value: the queue keeps the older one, its delivery
sets the synced bit, and the address counts as coherent although it is not.
-/

namespace ScpuEmu

open Library WriteBuffer

/-- A buffer in the delivery mode, the memories on both sides of it, and what its
pointers reach. No block is relocated. -/
structure Mirror where
  buffer : WriteBuffer
  ram : Addr → Byte
  dram : Addr → Byte
  hotBlocks : Option (WordBitmap 64)
  hotBlocksGeneration : Option (BitVec 32)
  relocation : Option Relocation
  unallocated : ∀ t ∈ relocation, t.count = 0#8

namespace Mirror

def view (s : Mirror) : View := ⟨some s.ram, s.hotBlocks, s.hotBlocksGeneration, s.relocation⟩

/-- A constructed buffer attached to a bus. -/
def fresh (pendingValue : Addr → Byte) (list : ℕ → Addr) (ram dram : Addr → Byte) : Mirror where
  buffer := (construct pendingValue list).attach true
  ram := ram
  dram := dram
  hotBlocks := none
  hotBlocksGeneration := none
  relocation := none
  unallocated := by simp

inductive Op
  | store (a : Addr) (v : Byte)
  | setOptMode (mode : SCPUOptMode)
  | setExcludeZeroPageStack (exclude : Bool)
  | setRAMUnderIOAccessible (accessible : Bool)
  | selectHotBlocks (blocks : Option (WordBitmap 64)) (generation : Option (BitVec 32))
  | flushUpTo (maxBytes : ℕ)
  | flushUpToPolicy (maxBytes : ℕ) (deferHot : Bool) (screenBase bitmapBase : ℕ)
  | flushRangeUpTo (base len maxBytes : ℕ)
  | flush
  | resyncSweep (maxBytes : ℕ)
  | resyncDisplayed (screenBase graphicsBase graphicsLength maxBytes : ℕ) (flags : ScrubFlags)
  | discard

/-- The buffer after a delivery, with its bus calls carried out. -/
def delivered (s : Mirror) (result : WriteBuffer × List BusCall) : Mirror :=
  { s with buffer := result.1, dram := runCalls s.dram result.2 }

/-- One operation. A guest store runs the sink first and writes RAM after it. -/
def step (s : Mirror) : Op → Mirror
  | .store a v =>
      { s with
        buffer := (s.buffer.onRamWrite s.view a v).1
        ram := Function.update s.ram a v }
  | .setOptMode mode => { s with buffer := s.buffer.setOptMode mode }
  | .setExcludeZeroPageStack exclude =>
      { s with buffer := s.buffer.setExcludeZeroPageStack exclude }
  | .setRAMUnderIOAccessible accessible =>
      { s with buffer := s.buffer.setRAMUnderIOAccessible accessible }
  | .selectHotBlocks blocks generation =>
      { s with hotBlocks := blocks, hotBlocksGeneration := generation }
  | .flushUpTo n => s.delivered (s.buffer.flushUpTo s.view n)
  | .flushUpToPolicy n deferHot screenBase bitmapBase =>
      s.delivered (s.buffer.flushUpToPolicy s.view n deferHot screenBase bitmapBase)
  | .flushRangeUpTo base len n => s.delivered (s.buffer.flushRangeUpTo s.view base len n)
  | .flush => s.delivered (s.buffer.flush s.view)
  | .resyncSweep n => s.delivered (s.buffer.resyncSweep s.view n)
  | .resyncDisplayed screenBase graphicsBase graphicsLength n flags =>
      s.delivered
        (s.buffer.resyncDisplayed s.view screenBase graphicsBase graphicsLength n flags)
  | .discard => { s with buffer := s.buffer.discard }

/-- Every clean synced address agrees with DRAM. -/
def Coherent (s : Mirror) : Prop :=
  ∀ a, s.buffer.isSynced a = true → s.buffer.isDirty a = false → s.dram a = s.ram a

/-- A store to a queued address that the policy no longer mirrors repeats the queued value. -/
def KeepsQueuedValue (s : Mirror) : Op → Prop
  | .store a v =>
      s.buffer.isDirty a = true → s.buffer.shouldMirror a = false → v = s.buffer.pendingValue a
  | _ => True

end Mirror

/-- What delivery relies on: queued values are current, clean synced bytes agree. -/
structure Faithful (ram : Addr → Byte) (b : WriteBuffer) (dram : Addr → Byte) : Prop where
  represents : Represents b
  attached : b.bus = true
  enabled : b.deliveryEnabled = true
  staged : ∀ a, b.isDirty a = true → b.pendingValue a = ram a
  coherent : ∀ a, b.isSynced a = true → b.isDirty a = false → dram a = ram a

section Delivery

variable {ram dram : Addr → Byte} {b : WriteBuffer} {w : View}

theorem Faithful.of_frame (h : Faithful ram b dram) {b' : WriteBuffer} (hr : Represents b')
    (hb : b'.bus = b.bus) (he : b'.deliveryEnabled = b.deliveryEnabled) (hd : b'.dirty = b.dirty)
    (hs : b'.synced = b.synced) (hp : b'.pendingValue = b.pendingValue) :
    Faithful ram b' dram := by
  refine ⟨hr, hb.trans h.attached, he.trans h.enabled, fun a ha => ?_, fun a ha hclean => ?_⟩
  · rw [hp]
    rw [isDirty, hd] at ha
    exact h.staged a ha
  · rw [isSynced, hs] at ha
    rw [isDirty, hd] at hclean
    exact h.coherent a ha hclean

/-- With nothing queued and nothing synced there is nothing to rely on. -/
theorem faithful_of_empty (hr : Represents b) (hb : b.bus = true)
    (he : b.deliveryEnabled = true) (hd : b.dirty = WordBitmap.empty 64)
    (hs : b.synced = WordBitmap.empty 64) : Faithful ram b dram := by
  refine ⟨hr, hb, he, fun a ha => ?_, fun a ha => ?_⟩
  · rw [isDirty, hd, test_empty_toNat] at ha
    cases ha
  · rw [isSynced, hs, test_empty_toNat] at ha
    cases ha

theorem deliverValue_of_unarmed (hw : w.armed = none) (a : Addr) (v : Byte) :
    deliverValue w a v = v := by
  rw [deliverValue, hw]

theorem healed_of_unarmed (hw : w.armed = none) (ram : Addr → Byte) (a : Addr) :
    healed w ram a = ⟨a, ram a⟩ := by
  rw [healed, deliverValue_of_unarmed hw, authoritativeShadowValue, hw]

theorem isDirty_of_chunkSelection (h : Represents b) (w : View) (sel : Selection) (n : ℕ)
    (a : Addr) (ha : a ∈ b.chunkSelection w sel n) : b.isDirty a = true := by
  rw [chunkSelection] at ha
  split at ha
  · cases ha
  · exact (h.mem_iff a).mp (mem_selected _ _ _ a ha).1

theorem Faithful.flushSelectedChunk (h : Faithful ram b dram) (hw : w.armed = none)
    (sel : Selection) (n : ℕ) :
    Faithful ram (b.flushSelectedChunk w sel n).1
      (deliver dram (b.flushSelectedChunk w sel n).2) := by
  have hkept := h.represents.flushSelectedChunk w sel n
  obtain ⟨q, g, np, heq, -, -, -⟩ := flushSelectedChunk_cases h.represents w sel n
  have hsent : ∀ x ∈ (b.chunkSelection w sel n).map (b.stage w), x.value = ram x.addr := by
    intro x hx
    obtain ⟨a, ha, rfl⟩ := List.mem_map.mp hx
    have hdirty := isDirty_of_chunkSelection h.represents w sel n a ha
    exact (deliverValue_of_unarmed hw a _).trans (h.staged a hdirty)
  have haddr : ((b.chunkSelection w sel n).map (b.stage w)).map C64BusWrite.addr =
      b.chunkSelection w sel n := by
    rw [List.map_map]
    exact List.map_id _
  rw [heq] at hkept ⊢
  refine ⟨hkept, h.attached, h.enabled, fun a ha => ?_, fun a hs hclean => ?_⟩
  · change WordBitmap.test (List.foldl _ _ _) a.toNat = true at ha
    rw [WordBitmap.test_foldl_erase (by decide), Bool.and_eq_true] at ha
    exact h.staged a ha.2
  · rw [deliver_apply dram ram _ hsent a, haddr]
    by_cases hin : a ∈ b.chunkSelection w sel n
    · rw [if_pos hin]
    · rw [if_neg hin]
      change WordBitmap.test (List.foldl _ _ _) a.toNat = true at hs
      change WordBitmap.test (List.foldl _ _ _) a.toNat = false at hclean
      have hbit : ¬a.toNat ∈ (b.chunkSelection w sel n).map BitVec.toNat :=
        fun hm => hin ((toNat_mem_map a _).mp hm)
      rw [WordBitmap.test_foldl_insert (by decide), decide_eq_false hbit, Bool.false_or] at hs
      rw [WordBitmap.test_foldl_erase (by decide), decide_eq_false hbit, Bool.not_false,
        Bool.true_and] at hclean
      exact h.coherent a hs hclean

/-- A clean byte sent again is coherent from then on. -/
theorem Faithful.heal (h : Faithful ram b dram) (a : Addr) :
    Faithful ram (b.setSynced a) (Function.update dram a (ram a)) := by
  refine ⟨h.represents.of_frame rfl rfl fun _ => rfl, h.attached, h.enabled, h.staged,
    fun x hs hclean => ?_⟩
  by_cases hx : x = a
  · subst hx
    exact Function.update_self x _ _
  · rw [Function.update_of_ne hx]
    rw [isSynced_setSynced, decide_eq_false (Ne.symm hx), Bool.false_or] at hs
    exact h.coherent x hs hclean

theorem faithful_deliveryInvariant (hw : w.armed = none) (hram : w.ram = some ram) :
    DeliveryInvariant w (Faithful ram) where
  chunk b d sel n h := h.flushSelectedChunk hw sel n
  remember b d deferHot screenBase bitmapBase n h hcount hn hbus := by
    intro round hnone
    have hround : Faithful ram round.1 (deliver d round.2) := h.flushSelectedChunk hw _ n
    have hkept := (represents_deliveryInvariant w).remember b d deferHot screenBase bitmapBase n
      h.represents hcount hn hbus hnone
    rw [hnone, deliver_nil] at hround
    have hframe : ∃ np, round.1.rememberNoProgress w deferHot screenBase bitmapBase =
        { round.1 with noProgress := np } := by
      rw [rememberNoProgress]
      split
      · exact ⟨_, rfl⟩
      · exact ⟨round.1.noProgress, rfl⟩
    obtain ⟨np, hnp⟩ := hframe
    change Represents (round.1.rememberNoProgress w deferHot screenBase bitmapBase) at hkept
    rw [hnp] at hkept ⊢
    exact hround.of_frame hkept rfl rfl rfl rfl rfl
  drop b d hbus h := by
    rw [h.attached] at hbus
    cases hbus
  cursor b d h :=
    h.of_frame ((represents_deliveryInvariant w).cursor b d h.represents) rfl rfl rfl rfl rfl
  scrub b d s h :=
    h.of_frame ((represents_deliveryInvariant w).scrub b d s h.represents) rfl rfl rfl rfl rfl
  heal b d ram' a hram' hclean h := by
    rw [hram, Option.some.injEq] at hram'
    subst hram'
    rw [healed_of_unarmed hw]
    exact h.heal a

end Delivery

section Stores

variable {ram dram : Addr → Byte} {b : WriteBuffer} {w : View}

/-- A store that leaves the buffer alone, at an address whose bits allow it. -/
theorem Faithful.writeRam (h : Faithful ram b dram) (a : Addr) (v : Byte)
    (hstaged : b.isDirty a = true → b.pendingValue a = v)
    (hclean : b.isSynced a = true → b.isDirty a = false → dram a = v) :
    Faithful (Function.update ram a v) b dram := by
  refine ⟨h.represents, h.attached, h.enabled, fun x hx => ?_, fun x hs hx => ?_⟩
  · by_cases hxa : x = a
    · subst hxa
      rw [Function.update_self]
      exact hstaged hx
    · rw [Function.update_of_ne hxa]
      exact h.staged x hx
  · by_cases hxa : x = a
    · subst hxa
      rw [Function.update_self]
      exact hclean hs hx
    · rw [Function.update_of_ne hxa]
      exact h.coherent x hs hx

theorem Faithful.clearSynced (h : Faithful ram b dram) (a : Addr) :
    Faithful ram (b.clearSynced a) dram := by
  refine ⟨h.represents.clearSynced a, h.attached, h.enabled, h.staged, fun x hs hx => ?_⟩
  rw [isSynced_clearSynced, Bool.and_eq_true] at hs
  exact h.coherent x hs.2 hx

theorem accept_frame (b : WriteBuffer) (a : Addr) (v : Byte) :
    (b.accept a v).bus = b.bus ∧ (b.accept a v).deliveryEnabled = b.deliveryEnabled ∧
      (b.accept a v).pendingValue = Function.update b.pendingValue a v ∧
      ∀ x, (b.accept a v).isDirty x = (decide (a = x) || b.isDirty x) ∧
        (b.accept a v).isSynced x = b.isSynced x := by
  rw [accept]
  split
  · rename_i hdirty
    have hdirty : b.isDirty a = true := hdirty
    have hbits : ∀ x, b.isDirty x = (decide (a = x) || b.isDirty x) := by
      intro x
      by_cases hax : a = x
      · subst hax
        simp [hdirty]
      · simp [hax]
    split
    · obtain ⟨q, hq, -⟩ :=
        moveDirtyToTail_frame { b with pendingValue := Function.update b.pendingValue a v } a
      rw [hq]
      exact ⟨rfl, rfl, rfl, fun x => ⟨hbits x, rfl⟩⟩
    · exact ⟨rfl, rfl, rfl, fun x => ⟨hbits x, rfl⟩⟩
  · rw [append]
    split
    · exact ⟨rfl, rfl, rfl, fun x => ⟨isDirty_setDirty _ a x, rfl⟩⟩
    · exact ⟨rfl, rfl, rfl, fun x => ⟨isDirty_setDirty _ a x, rfl⟩⟩

/-- An accepted store is queued with the value RAM takes. -/
theorem Faithful.accept (h : Faithful ram b dram) (a : Addr) (v : Byte) :
    Faithful (Function.update ram a v) (b.accept a v) dram := by
  obtain ⟨hbus, henabled, hpending, hbits⟩ := accept_frame b a v
  refine ⟨h.represents.accept a v, hbus.trans h.attached, henabled.trans h.enabled,
    fun x hx => ?_, fun x hs hx => ?_⟩
  · rw [hpending]
    by_cases hxa : x = a
    · rw [hxa, Function.update_self, Function.update_self]
    · rw [Function.update_of_ne hxa, Function.update_of_ne hxa]
      rw [(hbits x).1, decide_eq_false (Ne.symm hxa), Bool.false_or] at hx
      exact h.staged x hx
  · rw [(hbits x).1, Bool.or_eq_false_iff, decide_eq_false_iff_not] at hx
    rw [(hbits x).2] at hs
    rw [Function.update_of_ne (Ne.symm hx.1)]
    exact h.coherent x hs hx.2

theorem relocateWrite_of_unarmed (hw : w.armed = none) (a : Addr) :
    b.relocateWrite w a = (b, .forward a) := by
  rw [relocateWrite, hw]

/-- A guest store keeps delivery faithful unless it changes a queued byte that the
policy no longer mirrors. -/
theorem Faithful.onRamWrite (h : Faithful ram b dram) (hw : w.armed = none)
    (hram : w.ram = some ram) (a : Addr) (v : Byte)
    (hkeep : b.isDirty a = true → b.shouldMirror a = false → v = b.pendingValue a) :
    Faithful (Function.update ram a v) (b.onRamWrite w a v).1 dram := by
  rw [WriteBuffer.onRamWrite, if_neg (by simp [h.enabled]), relocateWrite_of_unarmed hw]
  dsimp only
  split
  · rename_i hexcluded
    refine (h.clearSynced a).writeRam a v (fun hdirty => (hkeep hdirty hexcluded).symm)
      fun hs _ => ?_
    rw [isSynced_clearSynced] at hs
    simp at hs
  · split
    · rename_i heliminates
      rw [eliminates, hram, Option.any_some, Bool.and_eq_true, Bool.and_eq_true, beq_iff_eq,
        Bool.not_eq_true'] at heliminates
      obtain ⟨⟨hv, hclean⟩, -⟩ := heliminates
      refine h.writeRam a v (fun hdirty => ?_) fun hs hx => ?_
      · rw [hclean] at hdirty
        cases hdirty
      · rw [hv]
        exact h.coherent a hs hx
    · exact h.accept a v

end Stores

namespace Mirror

def Kept (s : Mirror) : Prop := Faithful s.ram s.buffer s.dram

theorem view_armed (s : Mirror) : s.view.armed = none := by
  rw [View.armed, Option.filter_eq_none_iff]
  intro t ht
  simpa using s.unallocated t ht

theorem kept_fresh (pendingValue : Addr → Byte) (list : ℕ → Addr) (ram dram : Addr → Byte) :
    (fresh pendingValue list ram dram).Kept :=
  faithful_of_empty (represents_of_empty rfl rfl rfl rfl) rfl rfl rfl rfl

theorem Kept.setRAMUnderIOAccessible {s : Mirror} (h : s.Kept) (accessible : Bool) :
    (s.step (.setRAMUnderIOAccessible accessible)).Kept := by
  have hkept := h.represents.setRAMUnderIOAccessible accessible
  have hframe : ∃ r np, s.buffer.setRAMUnderIOAccessible accessible =
      { s.buffer with ramUnderIOAccessible := r, noProgress := np } := by
    rw [WriteBuffer.setRAMUnderIOAccessible]
    split
    · exact ⟨s.buffer.ramUnderIOAccessible, s.buffer.noProgress, rfl⟩
    · exact ⟨_, _, rfl⟩
  obtain ⟨r, np, heq⟩ := hframe
  change Faithful _ (s.buffer.setRAMUnderIOAccessible accessible) _
  rw [heq] at hkept ⊢
  exact h.of_frame hkept rfl rfl rfl rfl rfl

/-- One operation that keeps the queued value keeps delivery faithful. -/
theorem Kept.step {s : Mirror} (h : s.Kept) (op : Op) (hop : s.KeepsQueuedValue op) :
    (s.step op).Kept := by
  have hrule : DeliveryInvariant s.view (Faithful s.ram) :=
    faithful_deliveryInvariant s.view_armed rfl
  cases op with
  | store a v => exact Faithful.onRamWrite h s.view_armed rfl a v hop
  | setOptMode mode =>
      exact h.of_frame (h.represents.of_frame rfl rfl fun _ => rfl) rfl rfl rfl rfl rfl
  | setExcludeZeroPageStack exclude =>
      exact h.of_frame (h.represents.of_frame rfl rfl fun _ => rfl) rfl rfl rfl rfl rfl
  | setRAMUnderIOAccessible accessible => exact h.setRAMUnderIOAccessible accessible
  | selectHotBlocks blocks generation => exact h
  | flushUpTo n => exact flushUpTo_rule hrule s.buffer s.dram n h
  | flushUpToPolicy n deferHot screenBase bitmapBase =>
      exact flushUpToPolicy_rule hrule s.buffer s.dram n deferHot screenBase bitmapBase h
  | flushRangeUpTo base len n => exact flushRangeUpTo_rule hrule s.buffer s.dram base len n h
  | flush => exact flush_rule hrule s.buffer s.dram h
  | resyncSweep n => exact resyncSweep_rule hrule s.buffer s.dram n h
  | resyncDisplayed screenBase graphicsBase graphicsLength n flags =>
      exact resyncDisplayed_rule hrule s.buffer s.dram screenBase graphicsBase graphicsLength n
        flags h
  | discard =>
      exact faithful_of_empty (represents_of_empty rfl rfl rfl rfl) h.attached h.enabled rfl rfl

/-- In a run that never changes a queued byte behind the policy's back, every clean
synced byte agrees with DRAM, and an eliminated store leaves it agreeing. -/
theorem coherent_of_keepsQueuedValue (pendingValue : Addr → Byte) (list : ℕ → Addr)
    (ram dram : Addr → Byte) (ops : List Op)
    (hops : AllSteps step KeepsQueuedValue (fresh pendingValue list ram dram) ops) :
    let s := run step (fresh pendingValue list ram dram) ops
    s.Coherent ∧
      ∀ a v, s.buffer.eliminates s.view a v = true →
        (s.step (.store a v)).dram a = (s.step (.store a v)).ram a := by
  intro s
  have h : s.Kept := run_invariant_of_allSteps step (fun _ op hs hop => hs.step op hop) _ ops
    (kept_fresh pendingValue list ram dram) hops
  refine ⟨h.coherent, fun a v heliminates => ?_⟩
  rw [eliminates, view, Option.any_some, Bool.and_eq_true, Bool.and_eq_true, beq_iff_eq,
    Bool.not_eq_true'] at heliminates
  obtain ⟨⟨hv, hclean⟩, hsynced⟩ := heliminates
  calc
    s.dram a = s.ram a := h.coherent a hsynced hclean
    _ = v := hv.symm
    _ = Function.update s.ram a v a := (Function.update_self a v s.ram).symm

/-- The guest repeats the queued value after the policy stopped mirroring its address. -/
def repeatedRun : List Op :=
  [.setOptMode .none, .store 0x0010 1, .setOptMode .default, .store 0x0010 1, .flush]

theorem repeatedRun_coherent :
    (run step (fresh (fun _ => 0) (fun _ => 0) (fun _ => 0) fun _ => 0) repeatedRun).Coherent :=
  (coherent_of_keepsQueuedValue (fun _ => 0) (fun _ => 0) (fun _ => 0) (fun _ => 0) repeatedRun
    ⟨trivial, fun h => absurd h (by decide), trivial, fun _ _ => by decide, trivial,
      trivial⟩).1

/-- A second value is stored after the policy stopped mirroring a queued address. -/
def staleRun : List Op :=
  [.setOptMode .none, .store 0x0010 1, .setOptMode .default, .store 0x0010 2, .flush]

/-- After `staleRun` the address counts as coherent while DRAM holds the older byte,
and under the first policy the store that would repair it is eliminated. -/
theorem staleRun_incoherent :
    ¬(∀ pendingValue list ram dram ops,
        (run step (fresh pendingValue list ram dram) ops).Coherent) ∧
      ¬∀ pendingValue list ram dram ops a v,
        let s := run step (fresh pendingValue list ram dram) ops
        s.buffer.shouldMirror a = true → s.buffer.eliminates s.view a v = true →
          (s.step (.store a v)).dram a = (s.step (.store a v)).ram a := by
  constructor
  · intro h
    have hstale := h (fun _ => 0) (fun _ => 0) (fun _ => 0) (fun _ => 0) staleRun 0x0010
      (by decide) (by decide)
    exact absurd hstale (by decide)
  · intro h
    have hstale := h (fun _ => 0) (fun _ => 0) (fun _ => 0) (fun _ => 0)
      (staleRun ++ [.setOptMode .none]) 0x0010 2 (by decide) (by decide)
    exact absurd hstale (by decide)

end Mirror

end ScpuEmu
