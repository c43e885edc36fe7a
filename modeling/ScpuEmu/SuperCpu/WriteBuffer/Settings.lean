import ScpuEmu.SuperCpu.WriteBuffer.Representation

/-!
# What writes and deliveries leave alone

The bus, the policy and the switches of the buffer change through their own operations
only.
-/

namespace ScpuEmu

open Library

namespace WriteBuffer

/-- The part of the buffer that others set. -/
structure Settings where
  bus : Bool
  mode : SCPUOptMode
  excludeZPStack : Bool
  deliveryEnabled : Bool
  ramUnderIOAccessible : Bool
  rangeLo : Addr
  rangeHi : Addr

def settings (b : WriteBuffer) : Settings :=
  ⟨b.bus, b.mode, b.excludeZPStack, b.deliveryEnabled, b.ramUnderIOAccessible, b.rangeLo, b.rangeHi⟩

/-- The mode, whether zero page and stack are excluded, and the bounds of the range. -/
def policy (b : WriteBuffer) : SCPUOptMode × Bool × Addr × Addr :=
  (b.mode, b.excludeZPStack, b.rangeLo, b.rangeHi)

variable {b : WriteBuffer}

theorem shouldMirror_congr {b' : WriteBuffer} (h : b'.settings = b.settings) (a : Addr) :
    b'.shouldMirror a = b.shouldMirror a := by
  simp only [settings, Settings.mk.injEq] at h
  obtain ⟨-, hmode, hexclude, -, haccessible, hlo, hhi⟩ := h
  simp only [shouldMirror, hmode, hexclude, haccessible, hlo, hhi]

theorem setRAMUnderIOAccessible_frame (b : WriteBuffer) (on : Bool) :
    ∃ r np, b.setRAMUnderIOAccessible on =
      { b with ramUnderIOAccessible := r, noProgress := np } := by
  unfold WriteBuffer.setRAMUnderIOAccessible
  split
  · exact ⟨b.ramUnderIOAccessible, b.noProgress, rfl⟩
  · exact ⟨_, _, rfl⟩

theorem settings_moveDirtyToTail (b : WriteBuffer) (a : Addr) :
    (b.moveDirtyToTail a).settings = b.settings := by
  obtain ⟨q, hq, -⟩ := moveDirtyToTail_frame b a
  rw [hq]
  rfl

theorem settings_accept (b : WriteBuffer) (a : Addr) (v : Byte) :
    (b.accept a v).settings = b.settings := by
  unfold accept append
  dsimp only
  split
  · split
    · exact settings_moveDirtyToTail _ a
    · rfl
  · split <;> rfl

theorem settings_relocateWrite (b : WriteBuffer) (w : View) (a : Addr) :
    (b.relocateWrite w a).1.settings = b.settings := by
  unfold relocateWrite
  split
  · rfl
  · dsimp only
    split_ifs <;> rfl

theorem settings_onRamWrite (b : WriteBuffer) (w : View) (a : Addr) (v : Byte) :
    (b.onRamWrite w a v).1.settings = b.settings := by
  have hroute := settings_relocateWrite b w a
  unfold onRamWrite
  split
  · rfl
  generalize b.relocateWrite w a = r at hroute
  obtain ⟨b', routed⟩ := r
  cases routed with
  | shielded => exact hroute
  | forward a' =>
      dsimp only
      split_ifs
      · exact hroute
      · exact hroute
      · exact (settings_accept b' a' v).trans hroute

theorem settings_invalidateRange (b : WriteBuffer) (w : View) (a : Addr) (length : ℕ) :
    (b.invalidateRange w a length).settings = b.settings := by
  unfold invalidateRange
  generalize List.range length = places
  induction places generalizing b with
  | nil => rfl
  | cons i places ih => exact (ih _).trans (settings_onRamWrite b w _ _)

theorem settings_flushSelectedChunk (b : WriteBuffer) (w : View) (sel : Selection) (n : ℕ) :
    (b.flushSelectedChunk w sel n).1.settings = b.settings := by
  unfold flushSelectedChunk
  split
  · rfl
  · dsimp only
    split <;> rfl

/-- Every delivery leaves the settings alone. -/
theorem settings_deliveryInvariant (w : View) (settings : Settings) :
    DeliveryInvariant w fun b _ => b.settings = settings where
  chunk b _ sel n h := (settings_flushSelectedChunk b w sel n).trans h
  remember b _ deferHot screenBase bitmapBase n h _ _ _ := by
    intro round _
    have hround : round.1.settings = settings := (settings_flushSelectedChunk b w _ n).trans h
    rw [rememberNoProgress]
    split <;> exact hround
  drop _ _ _ h := h
  cursor _ _ h := h
  scrub _ _ _ h := h
  heal _ _ _ _ _ _ h := h

/-- The operation is not one that selects a policy. -/
def Op.LeavesPolicy : Op → Prop
  | .setOptMode _ | .setExcludeZeroPageStack _ => False
  | _ => True

theorem policy_step (b : WriteBuffer) {op : Op} (hop : op.LeavesPolicy) :
    (b.step op).policy = b.policy := by
  have hpolicy {b' : WriteBuffer} (h : b'.settings = b.settings) : b'.policy = b.policy :=
    congrArg (fun s : Settings => (s.mode, s.excludeZPStack, s.rangeLo, s.rangeHi)) h
  have dram : Addr → Byte := fun _ => 0
  have hrule (w : View) := settings_deliveryInvariant w b.settings
  cases op with
  | attach | setDeliveryEnabled | attachHotShapeBlocks | discard => rfl
  | setOptMode | setExcludeZeroPageStack => exact hop.elim
  | setRAMUnderIOAccessible accessible =>
      show (b.setRAMUnderIOAccessible accessible).policy = b.policy
      unfold WriteBuffer.setRAMUnderIOAccessible
      split <;> rfl
  | onRamWrite w a v => exact hpolicy (settings_onRamWrite b w a v)
  | moveDirtyToTail a => exact hpolicy (settings_moveDirtyToTail b a)
  | invalidateRange w a length => exact hpolicy (settings_invalidateRange b w a length)
  | flushUpTo w n => exact hpolicy (flushUpTo_rule (hrule w) b dram n rfl)
  | flushUpToPolicy w n deferHot screenBase bitmapBase =>
      exact hpolicy (flushUpToPolicy_rule (hrule w) b dram n deferHot screenBase bitmapBase rfl)
  | flushRangeUpTo w base len n =>
      exact hpolicy (flushRangeUpTo_rule (hrule w) b dram base len n rfl)
  | flush w => exact hpolicy (flush_rule (hrule w) b dram rfl)
  | resyncSweep w n => exact hpolicy (resyncSweep_rule (hrule w) b dram n rfl)
  | resyncDisplayed w screenBase graphicsBase graphicsLength n flags =>
      exact hpolicy
        (resyncDisplayed_rule (hrule w) b dram screenBase graphicsBase graphicsLength n flags rfl)

end WriteBuffer

end ScpuEmu
