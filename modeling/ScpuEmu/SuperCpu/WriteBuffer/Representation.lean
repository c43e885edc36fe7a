import ScpuEmu.SuperCpu.WriteBuffer.Delivery
import ScpuEmu.Library.TransitionSystem
import Mathlib.Data.List.Perm.Subperm

/-!
# The ring and the bitmap describe one set

The queue lists each queued address once, and an address is queued exactly when
its dirty bit is set. Both are kept by every operation: a write appends a clean
address, a pointer commit moves an entry to the back, a flush removes what it
sends from both, and everything else leaves both alone.

A cached scan that sent nothing also stays honest about one point: it was never
made under the policy that takes every entry. Hence a complete flush is not cut
short by the cache and empties the queue.
-/

namespace ScpuEmu

open Library

namespace WriteBuffer

/-- The representation invariant. -/
structure Represents (b : WriteBuffer) : Prop where
  nodup : b.entries.Nodup
  mem_iff : ∀ a, a ∈ b.entries ↔ b.isDirty a = true
  head_lt : b.queue.head < capacity
  refuses : b.noProgress.valid = true →
    b.noProgress.deferHot = true ∨ b.noProgress.screenBase < 0x10000 ∨
      b.noProgress.bitmapBase < 0x10000

variable {b : WriteBuffer}

@[simp] theorem length_entries (b : WriteBuffer) : b.entries.length = b.queue.count :=
  RingBuffer.length_toList b.queue

/-- A list of distinct addresses fits the address space. -/
theorem length_le_capacity {l : List Addr} (h : l.Nodup) : l.length ≤ capacity := by
  have hnodup : (l.map BitVec.toNat).Nodup :=
    h.map fun x y hxy => BitVec.eq_of_toNat_eq hxy
  have hsub : l.map BitVec.toNat ⊆ List.range capacity := by
    intro n hn
    obtain ⟨a, -, rfl⟩ := List.mem_map.mp hn
    exact List.mem_range.mpr a.isLt
  simpa using (List.subperm_of_subset hnodup hsub).length_le

theorem Represents.count_le (h : Represents b) : b.queue.count ≤ capacity := by
  rw [← length_entries]
  exact length_le_capacity h.nodup

/-- A clean address leaves room in the ring. -/
theorem Represents.count_lt (h : Represents b) {a : Addr} (ha : b.isDirty a = false) :
    b.queue.count < capacity := by
  have hnew : (a :: b.entries).Nodup := by
    refine List.nodup_cons.mpr ⟨fun hmem => ?_, h.nodup⟩
    rw [(h.mem_iff a).mp hmem] at ha
    cases ha
  have hlen := length_le_capacity hnew
  rwa [List.length_cons, length_entries] at hlen

theorem Represents.of_frame (h : Represents b) {b' : WriteBuffer} (hq : b'.queue = b.queue)
    (hd : b'.dirty = b.dirty)
    (hn : b'.noProgress.valid = true → b'.noProgress = b.noProgress) : Represents b' := by
  constructor
  · rw [entries, hq]
    exact h.nodup
  · intro a
    rw [entries, hq, isDirty, hd]
    exact h.mem_iff a
  · rw [hq]
    exact h.head_lt
  · intro hv
    have hsame := hn hv
    rw [hsame] at hv ⊢
    exact h.refuses hv

section Bits

theorem toNat_mem_map (a : Addr) (l : List Addr) : a.toNat ∈ l.map BitVec.toNat ↔ a ∈ l := by
  constructor
  · intro h
    obtain ⟨x, hx, hxa⟩ := List.mem_map.mp h
    rwa [← BitVec.eq_of_toNat_eq hxa]
  · exact fun h => List.mem_map_of_mem h

theorem test_empty_toNat (a : Addr) : (WordBitmap.empty 64).test a.toNat = false :=
  WordBitmap.test_empty a.toNat

@[simp] theorem isDirty_setDirty (b : WriteBuffer) (a x : Addr) :
    (b.setDirty a).isDirty x = (decide (a = x) || b.isDirty x) := by
  simp [setDirty, isDirty, BitVec.toNat_inj]

@[simp] theorem isSynced_setSynced (b : WriteBuffer) (a x : Addr) :
    (b.setSynced a).isSynced x = (decide (a = x) || b.isSynced x) := by
  simp [setSynced, isSynced, BitVec.toNat_inj]

@[simp] theorem isSynced_clearSynced (b : WriteBuffer) (a x : Addr) :
    (b.clearSynced a).isSynced x = (!decide (a = x) && b.isSynced x) := by
  simp [clearSynced, isSynced, BitVec.toNat_inj]

@[simp] theorem isDirty_setSynced (b : WriteBuffer) (a x : Addr) :
    (b.setSynced a).isDirty x = b.isDirty x := rfl

@[simp] theorem isDirty_clearSynced (b : WriteBuffer) (a x : Addr) :
    (b.clearSynced a).isDirty x = b.isDirty x := rfl

@[simp] theorem isSynced_setDirty (b : WriteBuffer) (a x : Addr) :
    (b.setDirty a).isSynced x = b.isSynced x := rfl

end Bits

section Writes

theorem Represents.append (h : Represents b) {a : Addr} (ha : b.isDirty a = false) :
    Represents ((b.setDirty a).append a) := by
  have hroom : (b.setDirty a).queue.count < capacity := h.count_lt ha
  have hentries : ((b.setDirty a).append a).entries = b.entries ++ [a] := by
    rw [WriteBuffer.append, if_pos hroom]
    exact RingBuffer.toList_push b.queue a hroom
  have hdirty : ∀ x, ((b.setDirty a).append a).isDirty x = (b.setDirty a).isDirty x := by
    intro x
    rw [WriteBuffer.append, if_pos hroom]
    rfl
  have hnew : a ∉ b.entries := by
    rw [h.mem_iff, ha]
    exact Bool.false_ne_true
  constructor
  · rw [hentries, List.nodup_append_comm]
    exact List.nodup_cons.mpr ⟨hnew, h.nodup⟩
  · intro x
    rw [hentries, hdirty, isDirty_setDirty, List.mem_append, h.mem_iff, List.mem_singleton,
      Bool.or_eq_true, decide_eq_true_iff, or_comm, eq_comm]
  · rw [WriteBuffer.append, if_pos hroom]
    exact h.head_lt
  · rw [WriteBuffer.append, if_pos hroom]
    exact h.refuses

/-- A pointer commit rearranges the queue. -/
theorem moveDirtyToTail_perm (h : Represents b) (a : Addr) :
    (b.moveDirtyToTail a).entries.Perm b.entries := by
  rw [moveDirtyToTail]
  split
  · exact List.Perm.refl _
  · dsimp only
    split
    · exact List.Perm.refl _
    · rename_i hpos
      have hlt : b.entries.idxOf a < b.queue.count := by omega
      have hidx : b.entries.idxOf a < b.entries.length := by simpa using hlt
      have hmove := RingBuffer.toList_moveToBack b.queue (b.entries.idxOf a) a hlt h.count_le
      have hget : b.entries[b.entries.idxOf a] = a := List.getElem_idxOf hidx
      have hperm := List.getElem_cons_eraseIdx_perm hidx
      rw [hget] at hperm
      rw [entries, hmove]
      exact (List.perm_append_singleton _ _).trans hperm

theorem moveDirtyToTail_frame (b : WriteBuffer) (a : Addr) :
    ∃ q : RingBuffer Addr, b.moveDirtyToTail a = { b with queue := q } ∧ q.head = b.queue.head := by
  rw [moveDirtyToTail]
  split
  · exact ⟨b.queue, rfl, rfl⟩
  · dsimp only
    split
    · exact ⟨b.queue, rfl, rfl⟩
    · exact ⟨_, rfl, RingBuffer.moveToBack_head _ _ _⟩

theorem Represents.moveDirtyToTail (h : Represents b) (a : Addr) :
    Represents (b.moveDirtyToTail a) := by
  have hperm := moveDirtyToTail_perm h a
  obtain ⟨q, hq, hhead⟩ := moveDirtyToTail_frame b a
  rw [hq] at hperm ⊢
  refine ⟨hperm.nodup_iff.mpr h.nodup, fun x => ?_, ?_, h.refuses⟩
  · exact hperm.mem_iff.trans (h.mem_iff x)
  · exact hhead ▸ h.head_lt

theorem Represents.accept (h : Represents b) (a : Addr) (v : Byte) :
    Represents (b.accept a v) := by
  have hstaged : Represents { b with pendingValue := Function.update b.pendingValue a v } :=
    h.of_frame rfl rfl fun _ => rfl
  rw [WriteBuffer.accept]
  split
  · split
    · exact hstaged.moveDirtyToTail a
    · exact hstaged
  · rename_i hclean
    exact hstaged.append (Bool.not_eq_true _ ▸ hclean)

theorem isDirty_append (b : WriteBuffer) (a x : Addr) :
    (b.append a).isDirty x = b.isDirty x := by
  rw [WriteBuffer.append]
  split <;> rfl

theorem isDirty_moveDirtyToTail (b : WriteBuffer) (a x : Addr) :
    (b.moveDirtyToTail a).isDirty x = b.isDirty x := by
  obtain ⟨q, hq, -⟩ := moveDirtyToTail_frame b a
  rw [hq]
  rfl

theorem isDirty_accept (b : WriteBuffer) (a : Addr) (v : Byte) :
    (b.accept a v).isDirty a = true := by
  rw [WriteBuffer.accept]
  split
  · rename_i hdirty
    split
    · rw [isDirty_moveDirtyToTail]
      exact hdirty
    · exact hdirty
  · rw [isDirty_append, isDirty_setDirty]
    simp

theorem Represents.clearSynced (h : Represents b) (a : Addr) : Represents (b.clearSynced a) :=
  h.of_frame rfl rfl fun _ => rfl

theorem Represents.relocateWrite (h : Represents b) (w : View) (a : Addr) :
    Represents (b.relocateWrite w a).1 := by
  rw [WriteBuffer.relocateWrite]
  split
  · exact h
  · dsimp only
    split
    · split
      · exact h.clearSynced _
      · exact h
    · split
      · exact h.clearSynced _
      · exact h

theorem Represents.onRamWrite (h : Represents b) (w : View) (a : Addr) (v : Byte) :
    Represents (b.onRamWrite w a v).1 := by
  have hrouted := h.relocateWrite w a
  rw [WriteBuffer.onRamWrite]
  split
  · exact h
  · split
    · rename_i b' hb'
      rwa [hb'] at hrouted
    · rename_i b' a' hb'
      rw [hb'] at hrouted
      split
      · exact hrouted.clearSynced a'
      · split
        · exact hrouted
        · exact hrouted.accept a' v

/-- An accepted write is queued at the address it was routed to. -/
theorem onRamWrite_queued (h : Represents b) (w : View) (a : Addr) (v : Byte)
    (henabled : b.deliveryEnabled = true) (haccepted : (b.onRamWrite w a v).2 = true) :
    ∃ a', (b.relocateWrite w a).2 = .forward a' ∧ a' ∈ (b.onRamWrite w a v).1.entries := by
  have hkept := h.onRamWrite w a v
  rw [WriteBuffer.onRamWrite, if_neg (by simp [henabled])] at haccepted hkept ⊢
  cases hroute : b.relocateWrite w a with
  | mk b' routed =>
      rw [hroute] at haccepted hkept
      cases routed with
      | shielded => cases haccepted
      | forward a' =>
          refine ⟨a', rfl, ?_⟩
          dsimp only at haccepted hkept ⊢
          split at haccepted
          · cases haccepted
          · split at haccepted
            · cases haccepted
            · rename_i hmirror heliminates
              rw [if_neg hmirror, if_neg heliminates] at hkept ⊢
              exact (hkept.mem_iff a').mpr (isDirty_accept b' a' v)

theorem Represents.invalidateRange (h : Represents b) (w : View) (a : Addr) (length : ℕ) :
    Represents (b.invalidateRange w a length) := by
  rw [WriteBuffer.invalidateRange]
  generalize List.range length = places
  induction places generalizing b with
  | nil => exact h
  | cons i places ih => exact ih (h.onRamWrite w _ _)

end Writes

section Flushes

/-- The addresses one chunk sends. -/
def chunkSelection (b : WriteBuffer) (w : View) (sel : Selection) (maxBytes : ℕ) : List Addr :=
  if b.queue.count = 0 ∨ maxBytes = 0 ∨ b.bus = false then []
  else selected (sel.take w) (min maxBytes chunk) b.entries

/-- All that one chunk does: it sends the selected addresses with their staged
values, moves them from dirty to synced, and keeps every other entry. -/
theorem flushSelectedChunk_cases (h : Represents b) (w : View) (sel : Selection)
    (maxBytes : ℕ) :
    ∃ q g np,
      b.flushSelectedChunk w sel maxBytes =
        ({ b with
            queue := q
            dirty := ((b.chunkSelection w sel maxBytes).map BitVec.toNat).foldl
              WordBitmap.erase b.dirty
            synced := ((b.chunkSelection w sel maxBytes).map BitVec.toNat).foldl
              WordBitmap.insert b.synced
            queueGeneration := g
            noProgress := np }, (b.chunkSelection w sel maxBytes).map (b.stage w)) ∧
      (b.chunkSelection w sel maxBytes ++ q.toList capacity).Perm b.entries ∧
      q.head < capacity ∧ (np.valid = true → np = b.noProgress) := by
  rw [flushSelectedChunk, chunkSelection]
  split
  · exact ⟨b.queue, b.queueGeneration, b.noProgress, rfl, List.Perm.refl _, h.head_lt,
      fun _ => rfl⟩
  · obtain ⟨hsel, hlist, hhead⟩ := RingBuffer.toList_drain_count (sel.take w)
      (min maxBytes chunk) b.queue h.count_le h.head_lt
    have hperm := selected_untouched_deferred_perm (sel.take w) (min maxBytes chunk) b.entries
    have hsent : ∀ l : List Addr,
        (l.map (b.stage w)).map (fun x => x.addr.toNat) = l.map BitVec.toNat := by
      intro l
      rw [List.map_map]
      rfl
    change _ = untouched _ _ b.entries ++ deferred _ _ b.entries at hlist
    change _ = selected _ _ b.entries at hsel
    rw [← hlist] at hperm
    dsimp only
    rw [hsel, List.length_map, hsent]
    split
    · rename_i hnone
      have hnil : selected (sel.take w) (min maxBytes chunk) b.entries = [] :=
        List.length_eq_zero_iff.mp hnone
      refine ⟨_, b.queueGeneration, b.noProgress, ?_, hperm, hhead, fun _ => rfl⟩
      rw [hnil]
      rfl
    · exact ⟨_, _, _, rfl, hperm, hhead, fun hv => by cases hv⟩

theorem Represents.flushSelectedChunk (h : Represents b) (w : View) (sel : Selection)
    (maxBytes : ℕ) : Represents (b.flushSelectedChunk w sel maxBytes).1 := by
  obtain ⟨q, g, np, heq, hperm, hhead, hnp⟩ := flushSelectedChunk_cases h w sel maxBytes
  rw [heq]
  have hnodup := hperm.nodup_iff.mpr h.nodup
  rw [List.nodup_append] at hnodup
  refine ⟨hnodup.2.1, fun a => ?_, hhead, fun hv => ?_⟩
  · have hmem := hperm.mem_iff (a := a)
    rw [List.mem_append, h.mem_iff] at hmem
    change a ∈ q.toList capacity ↔ WordBitmap.test (List.foldl _ _ _) a.toNat = true
    rw [WordBitmap.test_foldl_erase (by decide), Bool.and_eq_true, Bool.not_eq_true',
      decide_eq_false_iff_not, toNat_mem_map]
    constructor
    · intro hq
      exact ⟨fun hs => hnodup.2.2 a hs a hq rfl, hmem.mp (.inr hq)⟩
    · rintro ⟨hs, hd⟩
      exact (hmem.mpr hd).resolve_left hs
  · have hsame := hnp hv
    subst hsame
    exact h.refuses hv

/-- A policy under which a whole scan sends nothing has something to refuse. -/
theorem displaySelection_refuses (h : Represents b) (w : View) (deferHot : Bool)
    (screenBase bitmapBase n : ℕ) (hcount : b.queue.count ≠ 0) (hn : n ≠ 0)
    (hbus : b.bus = true)
    (hnone : (b.flushSelectedChunk w (displaySelection deferHot screenBase bitmapBase) n).2 = []) :
    deferHot = true ∨ screenBase < 0x10000 ∨ bitmapBase < 0x10000 := by
  by_contra hall
  have hdefer : deferHot = false := Bool.not_eq_true _ ▸ fun hd => hall (.inl hd)
  have hscreen : ¬screenBase < 0x10000 := fun hs => hall (.inr (.inl hs))
  have hbitmap : ¬bitmapBase < 0x10000 := fun hs => hall (.inr (.inr hs))
  obtain ⟨q, g, np, heq, -, -, -⟩ :=
    flushSelectedChunk_cases h w (displaySelection deferHot screenBase bitmapBase) n
  rw [heq, List.map_eq_nil_iff, chunkSelection, if_neg (by simp [hcount, hn, hbus])] at hnone
  obtain ⟨a, l, hl⟩ := List.exists_cons_of_length_pos
    (l := b.entries) (by rw [length_entries]; omega)
  obtain ⟨k, hk⟩ : ∃ k, min n chunk = k + 1 := ⟨min n 512 - 1, by rw [chunk]; omega⟩
  have htake : (displaySelection deferHot screenBase bitmapBase).take w a = true := by
    simp [Selection.take, displaySelection, addressInRange, hdefer, hscreen, hbitmap]
  rw [hl, hk, selected, if_pos htake] at hnone
  cases hnone

theorem Represents.rememberNoProgress (h : Represents b) (w : View) (deferHot : Bool)
    (screenBase bitmapBase : ℕ)
    (hrefuses : deferHot = true ∨ screenBase < 0x10000 ∨ bitmapBase < 0x10000) :
    Represents (b.rememberNoProgress w deferHot screenBase bitmapBase) := by
  rw [WriteBuffer.rememberNoProgress]
  split
  · exact ⟨h.nodup, h.mem_iff, h.head_lt, fun _ => hrefuses⟩
  · exact h

theorem represents_of_empty {b' : WriteBuffer} (hq : b'.queue.count = 0)
    (hh : b'.queue.head = 0) (hd : b'.dirty = WordBitmap.empty 64)
    (hn : b'.noProgress.valid = false) : Represents b' := by
  have hnil : b'.entries = [] := RingBuffer.toList_eq_nil b'.queue hq
  refine ⟨by simp [hnil], fun a => ?_, by simp [hh], fun hv => ?_⟩
  · rw [hnil, isDirty, hd, test_empty_toNat]
    simp
  · rw [hn] at hv
    cases hv

theorem represents_deliveryInvariant (w : View) :
    DeliveryInvariant w fun b _ => Represents b where
  chunk b _ sel n h := h.flushSelectedChunk w sel n
  remember b _ deferHot screenBase bitmapBase n h hcount hn hbus := by
    intro round hnone
    exact (h.flushSelectedChunk w _ n).rememberNoProgress w deferHot screenBase bitmapBase
      (displaySelection_refuses h w deferHot screenBase bitmapBase n hcount hn hbus hnone)
  drop _ _ _ _ := represents_of_empty rfl rfl rfl rfl
  cursor _ _ h := h.of_frame rfl rfl fun _ => rfl
  scrub _ _ _ h := h.of_frame rfl rfl fun _ => rfl
  heal _ _ _ _ _ _ h := h.of_frame rfl rfl fun _ => rfl

end Flushes

section Runs

/-- The operations on a buffer. Each that reads guest memory or the sprite tables
comes with what the pointers reach at that moment. -/
inductive Op
  | attach (bus : Bool)
  | setOptMode (mode : SCPUOptMode)
  | setDeliveryEnabled (enabled : Bool)
  | setRAMUnderIOAccessible (accessible : Bool)
  | setExcludeZeroPageStack (exclude : Bool)
  | attachHotShapeBlocks
  | onRamWrite (w : View) (a : Addr) (v : Byte)
  | moveDirtyToTail (a : Addr)
  | invalidateRange (w : View) (a : Addr) (length : ℕ)
  | flushUpTo (w : View) (maxBytes : ℕ)
  | flushUpToPolicy (w : View) (maxBytes : ℕ) (deferHot : Bool) (screenBase bitmapBase : ℕ)
  | flushRangeUpTo (w : View) (base len maxBytes : ℕ)
  | flush (w : View)
  | resyncSweep (w : View) (maxBytes : ℕ)
  | resyncDisplayed (w : View) (screenBase graphicsBase graphicsLength maxBytes : ℕ)
      (flags : ScrubFlags)
  | discard

/-- One operation. -/
def step (b : WriteBuffer) : Op → WriteBuffer
  | .attach bus => b.attach bus
  | .setOptMode mode => b.setOptMode mode
  | .setDeliveryEnabled enabled => b.setDeliveryEnabled enabled
  | .setRAMUnderIOAccessible accessible => b.setRAMUnderIOAccessible accessible
  | .setExcludeZeroPageStack exclude => b.setExcludeZeroPageStack exclude
  | .attachHotShapeBlocks => b.attachHotShapeBlocks
  | .onRamWrite w a v => (b.onRamWrite w a v).1
  | .moveDirtyToTail a => b.moveDirtyToTail a
  | .invalidateRange w a length => b.invalidateRange w a length
  | .flushUpTo w n => (b.flushUpTo w n).1
  | .flushUpToPolicy w n deferHot screenBase bitmapBase =>
      (b.flushUpToPolicy w n deferHot screenBase bitmapBase).1
  | .flushRangeUpTo w base len n => (b.flushRangeUpTo w base len n).1
  | .flush w => (b.flush w).1
  | .resyncSweep w n => (b.resyncSweep w n).1
  | .resyncDisplayed w screenBase graphicsBase graphicsLength n flags =>
      (b.resyncDisplayed w screenBase graphicsBase graphicsLength n flags).1
  | .discard => b.discard

theorem represents_construct (pendingValue : Addr → Byte) (list : ℕ → Addr) :
    Represents (construct pendingValue list) :=
  represents_of_empty rfl rfl rfl rfl

theorem Represents.setRAMUnderIOAccessible (h : Represents b) (accessible : Bool) :
    Represents (b.setRAMUnderIOAccessible accessible) := by
  rw [WriteBuffer.setRAMUnderIOAccessible]
  split
  · exact h
  · exact h.of_frame rfl rfl fun hv => by cases hv

/-- Every operation keeps the representation. -/
theorem Represents.step (h : Represents b) (op : Op) : Represents (b.step op) := by
  have hrule := represents_deliveryInvariant
  have d : Addr → Byte := fun _ => 0
  cases op with
  | attach bus => exact h.of_frame rfl rfl fun hv => by cases hv
  | setOptMode mode => exact h.of_frame rfl rfl fun _ => rfl
  | setDeliveryEnabled enabled => exact h.of_frame rfl rfl fun _ => rfl
  | setRAMUnderIOAccessible accessible => exact h.setRAMUnderIOAccessible accessible
  | setExcludeZeroPageStack exclude => exact h.of_frame rfl rfl fun _ => rfl
  | attachHotShapeBlocks => exact h.of_frame rfl rfl fun hv => by cases hv
  | onRamWrite w a v => exact h.onRamWrite w a v
  | moveDirtyToTail a => exact h.moveDirtyToTail a
  | invalidateRange w a length => exact h.invalidateRange w a length
  | flushUpTo w n => exact flushUpTo_rule (hrule w) b d n h
  | flushUpToPolicy w n deferHot screenBase bitmapBase =>
      exact flushUpToPolicy_rule (hrule w) b d n deferHot screenBase bitmapBase h
  | flushRangeUpTo w base len n => exact flushRangeUpTo_rule (hrule w) b d base len n h
  | flush w => exact flush_rule (hrule w) b d h
  | resyncSweep w n => exact resyncSweep_rule (hrule w) b d n h
  | resyncDisplayed w screenBase graphicsBase graphicsLength n flags =>
      exact resyncDisplayed_rule (hrule w) b d screenBase graphicsBase graphicsLength n flags h
  | discard => exact represents_of_empty rfl rfl rfl rfl

theorem represents_run (pendingValue : Addr → Byte) (list : ℕ → Addr) (ops : List Op) :
    Represents (run step (construct pendingValue list) ops) :=
  run_invariant step (fun _ op h => h.step op) _ ops (represents_construct pendingValue list)

theorem flushSelectedChunk_perm (h : Represents b) (w : View) (sel : Selection)
    (maxBytes : ℕ) :
    ((b.flushSelectedChunk w sel maxBytes).2.map C64BusWrite.addr ++
      (b.flushSelectedChunk w sel maxBytes).1.entries).Perm b.entries := by
  obtain ⟨q, g, np, heq, hperm, -, -⟩ := flushSelectedChunk_cases h w sel maxBytes
  have haddr : ((b.chunkSelection w sel maxBytes).map (b.stage w)).map C64BusWrite.addr =
      b.chunkSelection w sel maxBytes := by
    rw [List.map_map]
    exact List.map_id _
  rw [heq, haddr]
  exact hperm

/-- In every state a run reaches, the ring lists exactly the dirty addresses, each
once. So there is room for every accepted write, and rotation loses nothing. -/
theorem ring_lists_dirty_addresses (pendingValue : Addr → Byte) (list : ℕ → Addr)
    (ops : List Op) :
    let b := run step (construct pendingValue list) ops
    b.entries.Nodup ∧ (∀ a, a ∈ b.entries ↔ b.isDirty a = true) ∧
      b.queue.count ≤ capacity ∧ (∀ a, b.isDirty a = false → b.queue.count < capacity) ∧
      (∀ w a v, b.deliveryEnabled = true → (b.onRamWrite w a v).2 = true →
        ∃ a', (b.relocateWrite w a).2 = .forward a' ∧ a' ∈ (b.onRamWrite w a v).1.entries) ∧
      (∀ a, (b.moveDirtyToTail a).entries.Perm b.entries) ∧
      ∀ w sel maxBytes,
        ((b.flushSelectedChunk w sel maxBytes).2.map C64BusWrite.addr ++
          (b.flushSelectedChunk w sel maxBytes).1.entries).Perm b.entries := by
  intro b
  have h : Represents b := represents_run pendingValue list ops
  exact ⟨h.nodup, h.mem_iff, h.count_le, fun a => h.count_lt, onRamWrite_queued h,
    moveDirtyToTail_perm h, flushSelectedChunk_perm h⟩

end Runs

end WriteBuffer

end ScpuEmu
