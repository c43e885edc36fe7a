import ScpuEmu.SuperCpu.WriteBuffer.PointerOrder

/-!
# The scan that sent nothing is not repeated

A flush that finds nothing it may send remembers the policy it scanned under and the
generations of the queue and of the hot blocks. As long as they match, a flush returns at
once. What the cache remembers stays true: an entry that it does not speak of was appended
since, and has moved the generation of the queue.
-/

namespace ScpuEmu

open Library

namespace NoProgress

variable (np : NoProgress)

/-- What was remembered under deferral of hot blocks still speaks of the view. -/
def Current (w : View) : Prop :=
  np.deferHot = false ∨ w.hotBlocks = none ∨ w.hotBlocksGeneration = some np.hotGeneration

def selection : WriteBuffer.Selection :=
  WriteBuffer.displaySelection np.deferHot np.screenBase np.bitmapBase

end NoProgress

namespace WriteBuffer

/-! ### The pointers to the hot blocks -/

/-- Which of the two pointers to the hot blocks are attached. -/
structure HotWiring where
  blocks : Bool
  generation : Bool

/-- The view is what the pointers reach at some moment. The counter tells which blocks are
hot: it differs where they do. -/
structure HotWiring.Reaches (wiring : HotWiring) (shape : BitVec 32 → WordBitmap 64) (w : View) :
    Prop where
  blocks : w.hotBlocks.isSome = wiring.blocks
  generation : w.hotBlocksGeneration.isSome = wiring.generation
  counter : ∀ blocks g, w.hotBlocks = some blocks → w.hotBlocksGeneration = some g →
    blocks = shape g

/-- The view an operation reads. -/
def Op.view : Op → Option View
  | .onRamWrite w _ _ => some w
  | .invalidateRange w _ _ => some w
  | .flushUpTo w _ => some w
  | .flushUpToPolicy w _ _ _ _ => some w
  | .flushRangeUpTo w _ _ _ => some w
  | .flush w => some w
  | .resyncSweep w _ => some w
  | .resyncDisplayed w _ _ _ _ _ => some w
  | _ => none

/-- Every operation of the list reads what the pointers reach, which are exchanged by
`attachHotShapeBlocks` only. -/
def HotWiring.Serves (shape : BitVec 32 → WordBitmap 64) : HotWiring → List Op → Prop
  | _, [] => True
  | wiring, op :: ops =>
      (∀ w ∈ op.view, wiring.Reaches shape w) ∧
        ∃ wiring' : HotWiring, (op ≠ .attachHotShapeBlocks → wiring' = wiring) ∧
          HotWiring.Serves shape wiring' ops

/-! ### What the cache remembers -/

/-- The remembered policy takes no entry but those appended since, and each of these has
moved the generation of the queue. -/
def Remembered (wiring : HotWiring) (shape : BitVec 32 → WordBitmap 64) (b : WriteBuffer)
    (appended : List Addr) : Prop :=
  appended.length ≤ b.queue.count ∧
    b.queueGeneration = b.noProgress.queueGeneration + BitVec.ofNat 32 appended.length ∧
    ∀ w, wiring.Reaches shape w → b.noProgress.Current w →
      ∀ a ∈ b.entries, a ∈ appended ∨ b.noProgress.selection.take w a = false

structure CacheSound (wiring : HotWiring) (shape : BitVec 32 → WordBitmap 64) (b : WriteBuffer) :
    Prop where
  represents : Represents b
  attached : b.noProgress.valid = true → b.bus = true
  remembered : b.noProgress.valid = true → ∃ appended, Remembered wiring shape b appended

section Sound

variable {wiring : HotWiring} {shape : BitVec 32 → WordBitmap 64} {b : WriteBuffer}

/-- A buffer whose cache is void remembers nothing. -/
theorem cacheSound_of_void (h : Represents b) (hvoid : b.noProgress.valid = false) :
    CacheSound wiring shape b := by
  refine ⟨h, fun hvalid => ?_, fun hvalid => ?_⟩ <;>
  · rw [hvoid] at hvalid
    cases hvalid

theorem CacheSound.of_perm (h : CacheSound wiring shape b) {b' : WriteBuffer}
    (hrepresents : Represents b') (hbus : b'.bus = b.bus)
    (hgeneration : b'.queueGeneration = b.queueGeneration) (hnp : b'.noProgress = b.noProgress)
    (hentries : b'.entries.Perm b.entries) : CacheSound wiring shape b' := by
  refine ⟨hrepresents, fun hvalid => ?_, fun hvalid => ?_⟩
  · rw [hnp] at hvalid
    exact hbus.trans (h.attached hvalid)
  · rw [hnp] at hvalid
    obtain ⟨appended, hlength, hmoved, htaken⟩ := h.remembered hvalid
    refine ⟨appended, ?_, ?_, fun w hw hcurrent a ha => ?_⟩
    · rwa [← length_entries, hentries.length_eq, length_entries]
    · rw [hgeneration, hnp, hmoved]
    · rw [hnp] at hcurrent ⊢
      exact htaken w hw hcurrent a (hentries.mem_iff.mp ha)

/-- A new entry joins those that the cache does not speak of. -/
theorem CacheSound.of_append (h : CacheSound wiring shape b) {b' : WriteBuffer} {a : Addr}
    (hrepresents : Represents b') (hbus : b'.bus = b.bus)
    (hgeneration : b'.queueGeneration = b.queueGeneration + 1)
    (hnp : b'.noProgress = b.noProgress) (hentries : b'.entries = b.entries ++ [a]) :
    CacheSound wiring shape b' := by
  have hcount : b'.queue.count = b.queue.count + 1 := by
    rw [← length_entries, hentries, List.length_append, length_entries]
    rfl
  refine ⟨hrepresents, fun hvalid => ?_, fun hvalid => ?_⟩
  · rw [hnp] at hvalid
    exact hbus.trans (h.attached hvalid)
  · rw [hnp] at hvalid
    obtain ⟨appended, hlength, hmoved, htaken⟩ := h.remembered hvalid
    refine ⟨a :: appended, ?_, ?_, fun w hw hcurrent x hx => ?_⟩
    · rw [hcount]
      exact Nat.succ_le_succ hlength
    · rw [hgeneration, hnp, hmoved, List.length_cons, BitVec.ofNat_add, BitVec.add_assoc]
      rfl
    · rw [hnp] at hcurrent ⊢
      rw [hentries, List.mem_append] at hx
      rcases hx with hold | hnew
      · exact (htaken w hw hcurrent x hold).imp_left (List.mem_cons_of_mem _)
      · exact .inl (List.mem_cons.mpr (.inl (List.mem_singleton.mp hnew)))

theorem accept_cache (h : Represents b) (a : Addr) (v : Byte) :
    (b.accept a v).noProgress = b.noProgress ∧
      ((b.accept a v).queueGeneration = b.queueGeneration ∧
          (b.accept a v).entries.Perm b.entries ∨
        (b.accept a v).queueGeneration = b.queueGeneration + 1 ∧
          ∃ a', (b.accept a v).entries = b.entries ++ [a']) := by
  obtain ⟨staged, hstaged⟩ :
      ∃ staged, staged = { b with pendingValue := Function.update b.pendingValue a v } := ⟨_, rfl⟩
  have hrepresents : Represents staged := hstaged ▸ h.of_frame rfl rfl fun _ => rfl
  have hsame : staged.noProgress = b.noProgress ∧ staged.queueGeneration = b.queueGeneration ∧
      staged.entries = b.entries := by
    rw [hstaged]
    exact ⟨rfl, rfl, rfl⟩
  rw [accept, ← hstaged, ← hsame.1, ← hsame.2.1, ← hsame.2.2]
  split
  next hdirty =>
    split
    · have hperm := moveDirtyToTail_perm hrepresents a
      obtain ⟨q, hq, -⟩ := moveDirtyToTail_frame staged a
      rw [hq] at hperm ⊢
      exact ⟨rfl, .inl ⟨rfl, hperm⟩⟩
    · exact ⟨rfl, .inl ⟨rfl, .refl _⟩⟩
  next hclean =>
    have hroom : (staged.setDirty a).queue.count < capacity :=
      hrepresents.count_lt (Bool.eq_false_iff.mpr hclean)
    have hentries := entries_append (a := a) hroom
    unfold append at hentries ⊢
    rw [if_pos hroom] at hentries ⊢
    exact ⟨rfl, .inr ⟨rfl, a, hentries⟩⟩

/-- What a write leaves of the cache and of the generation. -/
theorem onRamWrite_cache (h : Represents b) (w : View) (a : Addr) (v : Byte) :
    (b.onRamWrite w a v).1.noProgress = b.noProgress ∧
      ((b.onRamWrite w a v).1.queueGeneration = b.queueGeneration ∧
          (b.onRamWrite w a v).1.entries.Perm b.entries ∨
        (b.onRamWrite w a v).1.queueGeneration = b.queueGeneration + 1 ∧
          ∃ a', (b.onRamWrite w a v).1.entries = b.entries ++ [a']) := by
  have hroute : (b.relocateWrite w a).1.noProgress = b.noProgress ∧
      (b.relocateWrite w a).1.queueGeneration = b.queueGeneration := by
    unfold relocateWrite
    dsimp only
    split
    · exact ⟨rfl, rfl⟩
    · split_ifs <;> exact ⟨rfl, rfl⟩
  have hrouted := h.relocateWrite w a
  have hentries := entries_relocateWrite (b := b) w a
  unfold onRamWrite
  split
  · exact ⟨rfl, .inl ⟨rfl, .refl _⟩⟩
  generalize b.relocateWrite w a = r at hroute hrouted hentries
  obtain ⟨b', routed⟩ := r
  obtain ⟨hnp, hgeneration⟩ := hroute
  dsimp only at hnp hgeneration hrouted hentries
  rw [← hnp, ← hgeneration, ← hentries]
  cases routed with
  | shielded => exact ⟨rfl, .inl ⟨rfl, .refl _⟩⟩
  | forward a' =>
      dsimp only
      split_ifs
      · exact ⟨rfl, .inl ⟨rfl, .refl _⟩⟩
      · exact ⟨rfl, .inl ⟨rfl, .refl _⟩⟩
      · exact accept_cache hrouted a' v

theorem CacheSound.onRamWrite (h : CacheSound wiring shape b) (w : View) (a : Addr) (v : Byte) :
    CacheSound wiring shape (b.onRamWrite w a v).1 := by
  have hrepresents := h.represents.onRamWrite w a v
  have hbus := bus_onRamWrite (b := b) w a v
  obtain ⟨hnp, ⟨hgeneration, hperm⟩ | ⟨hgeneration, a', hentries⟩⟩ :=
    onRamWrite_cache h.represents w a v
  · exact h.of_perm hrepresents hbus hgeneration hnp hperm
  · exact h.of_append hrepresents hbus hgeneration hnp hentries

theorem CacheSound.moveDirtyToTail (h : CacheSound wiring shape b) (a : Addr) :
    CacheSound wiring shape (b.moveDirtyToTail a) := by
  have hrepresents := h.represents.moveDirtyToTail a
  have hperm := moveDirtyToTail_perm h.represents a
  obtain ⟨q, hq, -⟩ := moveDirtyToTail_frame b a
  rw [hq] at hrepresents hperm ⊢
  exact h.of_perm hrepresents rfl rfl rfl hperm

theorem CacheSound.invalidateRange (h : CacheSound wiring shape b) (w : View) (a : Addr)
    (length : ℕ) : CacheSound wiring shape (b.invalidateRange w a length) := by
  rw [WriteBuffer.invalidateRange]
  generalize List.range length = places
  induction places generalizing b with
  | nil => exact h
  | cons i places ih => exact ih (h.onRamWrite w _ _)

/-- A chunk that sends nothing takes none of the entries. -/
theorem refused_of_nothing_sent (h : Represents b) (w : View) (sel : Selection) {n : ℕ}
    (hcount : b.queue.count ≠ 0) (hn : n ≠ 0) (hbus : b.bus = true)
    (hnone : (b.flushSelectedChunk w sel n).2 = []) : ∀ a ∈ b.entries, sel.take w a = false := by
  obtain ⟨hsent, -⟩ := entries_flushSelectedChunk h w sel n
  rw [hnone, chunkSelection, if_neg (by simp [hcount, hn, hbus])] at hsent
  have hlength := length_selected (sel.take w) (min n chunk) b.entries
  rw [← hsent] at hlength
  have hzero : b.entries.countP (sel.take w) = 0 := by
    have hpositive : 0 < min n chunk := by
      rw [chunk]
      omega
    simp only [List.map_nil, List.length_nil] at hlength
    omega
  intro a ha
  exact Bool.eq_false_iff.mpr (List.countP_eq_zero.mp hzero a ha)

/-- A chunk that sends nothing has turned the queue once around; any other voids the cache. -/
theorem flushSelectedChunk_cache (h : Represents b) (w : View) (sel : Selection) (n : ℕ) :
    (b.flushSelectedChunk w sel n).2 = [] ∧
        (b.flushSelectedChunk w sel n).1.noProgress = b.noProgress ∧
        (b.flushSelectedChunk w sel n).1.queueGeneration = b.queueGeneration ∧
        (b.flushSelectedChunk w sel n).1.entries.Perm b.entries ∨
      (b.flushSelectedChunk w sel n).1.noProgress.valid = false := by
  have hperm := flushSelectedChunk_perm h w sel n
  unfold flushSelectedChunk at hperm ⊢
  dsimp only at hperm ⊢
  split
  · exact .inl ⟨rfl, rfl, rfl, .refl _⟩
  next hgo =>
    rw [if_neg hgo] at hperm
    split
    next hnone =>
      rw [if_pos hnone] at hperm
      exact .inl ⟨rfl, rfl, rfl, hperm⟩
    next => exact .inr rfl

theorem CacheSound.flushSelectedChunk (h : CacheSound wiring shape b) (w : View)
    (sel : Selection) (n : ℕ) : CacheSound wiring shape (b.flushSelectedChunk w sel n).1 := by
  have hrepresents := h.represents.flushSelectedChunk w sel n
  rcases flushSelectedChunk_cache h.represents w sel n with
    ⟨-, hnp, hgeneration, hperm⟩ | hvoid
  · exact h.of_perm hrepresents (flushSelectedChunk_bus b w sel n) hgeneration hnp hperm
  · exact cacheSound_of_void hrepresents hvoid

/-- The policy decides on an entry alike under two views of the same hot blocks. -/
theorem take_congr {w w' : View} {deferHot : Bool} {screenBase bitmapBase : ℕ}
    (h : deferHot = false ∨ w.hotBlocks = w'.hotBlocks) (a : Addr) :
    (displaySelection deferHot screenBase bitmapBase).take w a =
      (displaySelection deferHot screenBase bitmapBase).take w' a := by
  unfold Selection.take displaySelection isHot
  rcases h with hplain | hblocks
  · rw [hplain]
    simp
  · rw [hblocks]

/-- Where the remembered scan still speaks of a view, the hot blocks are the same. -/
theorem hotBlocks_of_current {w w' : View} (hw : wiring.Reaches shape w)
    (hw' : wiring.Reaches shape w') {deferHot : Bool}
    (hcurrent : deferHot = false ∨ w'.hotBlocks = none ∨
      w'.hotBlocksGeneration = some (w.hotBlocksGeneration.getD 0)) :
    deferHot = false ∨ w.hotBlocks = w'.hotBlocks := by
  have hattached := hw.blocks.trans hw'.blocks.symm
  have hcounted := hw.generation.trans hw'.generation.symm
  rcases hcurrent with hplain | hnone | hsame
  · exact .inl hplain
  · rw [hnone, Option.isSome_none, Option.isSome_eq_false_iff, Option.isNone_iff_eq_none]
      at hattached
    exact .inr (hattached.trans hnone.symm)
  · refine .inr ?_
    rw [hsame, Option.isSome_some, Option.isSome_iff_exists] at hcounted
    obtain ⟨g, hg⟩ := hcounted
    rw [hg, Option.getD_some] at hsame
    cases hblocks : w.hotBlocks with
    | none =>
        rw [hblocks] at hattached
        exact (Option.not_isSome_iff_eq_none.mp (by simp [← hattached])).symm
    | some blocks =>
        rw [hblocks, Option.isSome_some, eq_comm, Option.isSome_iff_exists] at hattached
        obtain ⟨blocks', hblocks'⟩ := hattached
        rw [hblocks', hw.counter _ _ hblocks hg, hw'.counter _ _ hblocks' hsame]

theorem CacheSound.rememberNoProgress (h : CacheSound wiring shape b) {w : View}
    (hw : wiring.Reaches shape w) {deferHot : Bool} {screenBase bitmapBase : ℕ}
    (hrepresents : Represents (b.rememberNoProgress w deferHot screenBase bitmapBase))
    (hbus : b.bus = true)
    (hrefused : ∀ a ∈ b.entries,
      (displaySelection deferHot screenBase bitmapBase).take w a = false) :
    CacheSound wiring shape (b.rememberNoProgress w deferHot screenBase bitmapBase) := by
  unfold WriteBuffer.rememberNoProgress at hrepresents ⊢
  split
  next hcache =>
    rw [if_pos hcache] at hrepresents
    refine ⟨hrepresents, fun _ => hbus, fun _ => ⟨[], Nat.zero_le _, ?_, ?_⟩⟩
    · exact (BitVec.add_zero _).symm
    · intro w' hw' hcurrent a ha
      refine .inr ?_
      have hblocks := hotBlocks_of_current hw hw' hcurrent
      exact (take_congr hblocks a).symm.trans (hrefused a ha)
  next => exact h

theorem cacheSound_deliveryInvariant {w : View} (hw : wiring.Reaches shape w) :
    DeliveryInvariant w fun b _ => CacheSound wiring shape b where
  chunk _ _ sel n h := h.flushSelectedChunk w sel n
  remember b d deferHot screenBase bitmapBase n h hcount hn hbus := by
    intro round hnone
    have hround : CacheSound wiring shape round.1 := h.flushSelectedChunk w _ n
    have hkept := (represents_deliveryInvariant w).remember b d deferHot screenBase bitmapBase n
      h.represents hcount hn hbus hnone
    have hperm := flushSelectedChunk_perm h.represents w
      (displaySelection deferHot screenBase bitmapBase) n
    rw [hnone, List.map_nil, List.nil_append] at hperm
    refine hround.rememberNoProgress hw hkept
      ((flushSelectedChunk_bus b w _ n).trans hbus) fun a ha => ?_
    exact refused_of_nothing_sent h.represents w _ hcount hn hbus hnone a (hperm.mem_iff.mp ha)
  drop _ _ _ h := cacheSound_of_void ((represents_deliveryInvariant w).drop _ (fun _ => 0) ‹_›
    h.represents) rfl
  cursor _ d h :=
    h.of_perm ((represents_deliveryInvariant w).cursor _ d h.represents) rfl rfl rfl (.refl _)
  scrub _ d s h :=
    h.of_perm ((represents_deliveryInvariant w).scrub _ d s h.represents) rfl rfl rfl (.refl _)
  heal _ d ram a hram hclean h :=
    h.of_perm ((represents_deliveryInvariant w).heal _ d ram a hram hclean h.represents) rfl rfl
      rfl (.refl _)

/-- Whoever matches the cache finds nothing to send. -/
theorem CacheSound.refuses (h : CacheSound wiring shape b) {w : View}
    (hw : wiring.Reaches shape w) {deferHot : Bool} {screenBase bitmapBase : ℕ}
    (hmatch : b.noProgressCacheMatches w deferHot screenBase bitmapBase = true) :
    ∀ a ∈ b.entries, (displaySelection deferHot screenBase bitmapBase).take w a = false := by
  unfold noProgressCacheMatches at hmatch
  simp only [Bool.and_eq_true, beq_iff_eq] at hmatch
  obtain ⟨⟨⟨⟨⟨hvalid, hgeneration⟩, hdefer⟩, hscreen⟩, hbitmap⟩, hhot⟩ := hmatch
  obtain ⟨appended, hlength, hmoved, htaken⟩ := h.remembered hvalid
  -- fewer entries were appended than the generation counts before it repeats
  have hnil : appended = [] := by
    rw [← List.length_eq_zero_iff]
    have hcount := h.represents.count_le
    have hzero : BitVec.ofNat 32 appended.length = 0#32 := by
      rw [hgeneration] at hmoved
      simpa using hmoved
    have hmod := congrArg BitVec.toNat hzero
    rw [BitVec.toNat_ofNat, Nat.mod_eq_of_lt (by rw [capacity] at hcount; omega)] at hmod
    exact hmod
  have hcurrent : b.noProgress.Current w := by
    rw [NoProgress.Current, hdefer]
    rcases Bool.or_eq_true_iff.mp hhot with hplain | hcounted
    · rcases Bool.or_eq_true_iff.mp hplain with hplain | hnone
      · exact .inl (by simpa using hplain)
      · exact .inr (.inl (Option.isNone_iff_eq_none.mp hnone))
    · obtain ⟨g, hg, hsame⟩ := (Option.any_eq_true _ _).mp hcounted
      rw [beq_iff_eq] at hsame
      exact .inr (.inr (hsame ▸ hg))
  intro a ha
  have hrefused := (htaken w hw hcurrent a ha).resolve_left (by simp [hnil])
  rwa [NoProgress.selection, hdefer, hscreen, hbitmap] at hrefused

theorem CacheSound.step (h : CacheSound wiring shape b) (op : Op)
    (hview : ∀ w ∈ op.view, wiring.Reaches shape w) {wiring' : HotWiring}
    (hwiring : op ≠ .attachHotShapeBlocks → wiring' = wiring) :
    CacheSound wiring' shape (b.step op) := by
  have hrepresents := h.represents.step op
  have d : Addr → Byte := fun _ => 0
  have hrule {w : View} (hw : wiring.Reaches shape w) := cacheSound_deliveryInvariant hw
  by_cases hattach : op = .attachHotShapeBlocks
  · subst hattach
    exact cacheSound_of_void hrepresents rfl
  rw [hwiring hattach]
  cases op with
  | attach bus => exact cacheSound_of_void hrepresents rfl
  | setOptMode mode => exact h.of_perm hrepresents rfl rfl rfl (.refl _)
  | setDeliveryEnabled enabled => exact h.of_perm hrepresents rfl rfl rfl (.refl _)
  | setRAMUnderIOAccessible accessible =>
      show CacheSound wiring shape (b.setRAMUnderIOAccessible accessible)
      unfold WriteBuffer.setRAMUnderIOAccessible
      split
      · exact h
      · exact cacheSound_of_void (h.represents.of_frame rfl rfl fun hv => by cases hv) rfl
  | setExcludeZeroPageStack exclude => exact h.of_perm hrepresents rfl rfl rfl (.refl _)
  | attachHotShapeBlocks => exact absurd rfl hattach
  | onRamWrite w a v => exact h.onRamWrite w a v
  | moveDirtyToTail a => exact h.moveDirtyToTail a
  | invalidateRange w a length => exact h.invalidateRange w a length
  | flushUpTo w n => exact flushUpTo_rule (hrule (hview w rfl)) b d n h
  | flushUpToPolicy w n deferHot screenBase bitmapBase =>
      exact flushUpToPolicy_rule (hrule (hview w rfl)) b d n deferHot screenBase bitmapBase h
  | flushRangeUpTo w base len n =>
      exact flushRangeUpTo_rule (hrule (hview w rfl)) b d base len n h
  | flush w => exact flush_rule (hrule (hview w rfl)) b d h
  | resyncSweep w n => exact resyncSweep_rule (hrule (hview w rfl)) b d n h
  | resyncDisplayed w screenBase graphicsBase graphicsLength n flags =>
      exact resyncDisplayed_rule (hrule (hview w rfl)) b d screenBase graphicsBase
        graphicsLength n flags h
  | discard => exact cacheSound_of_void hrepresents rfl

/-- A run leaves the cache sound, and the rest of the operations served. -/
theorem cacheSound_run (ops later : List Op) (h : CacheSound wiring shape b)
    (hserves : wiring.Serves shape (ops ++ later)) :
    ∃ wiring', CacheSound wiring' shape (run WriteBuffer.step b ops) ∧
      wiring'.Serves shape later := by
  induction ops generalizing wiring b with
  | nil => exact ⟨wiring, h, hserves⟩
  | cons op ops ih =>
      obtain ⟨hview, wiring', hwiring, hrest⟩ := hserves
      exact ih (h.step op hview hwiring) hrest

end Sound

/-! ### Buffers that differ in the cache -/

/-- The buffer without its queue and its cache. -/
def core (b : WriteBuffer) : WriteBuffer :=
  { b with queue := ⟨fun _ => 0, 0, 0⟩, noProgress := ⟨false, false, 0, 0, 0, 0⟩ }

/-- The queues list the same entries, and the rest is the same but for the cache. -/
structure Alike (b b' : WriteBuffer) : Prop where
  core : b'.core = b.core
  entries : b'.entries = b.entries

section Alike

variable {b b' : WriteBuffer}

theorem Alike.refl (b : WriteBuffer) : Alike b b := ⟨rfl, rfl⟩

theorem Alike.count (h : Alike b b') : b'.queue.count = b.queue.count := by
  rw [← length_entries, h.entries, length_entries]

theorem Alike.bus (h : Alike b b') : b'.bus = b.bus := (congrArg WriteBuffer.bus h.core :)

theorem Alike.dirty (h : Alike b b') : b'.dirty = b.dirty := (congrArg WriteBuffer.dirty h.core :)

theorem Alike.synced (h : Alike b b') : b'.synced = b.synced :=
  (congrArg WriteBuffer.synced h.core :)

theorem core_moveDirtyToTail (b : WriteBuffer) (a : Addr) :
    (b.moveDirtyToTail a).core = b.core := by
  obtain ⟨q, hq, -⟩ := moveDirtyToTail_frame b a
  rw [hq]
  rfl

theorem moveDirtyToTail_of_notMem {a : Addr} (ha : a ∉ b.entries) : b.moveDirtyToTail a = b := by
  have hidx : b.entries.idxOf a = b.queue.count := by
    rw [List.idxOf_of_notMem ha, length_entries]
  rw [WriteBuffer.moveDirtyToTail]
  split
  · rfl
  · dsimp only
    rw [if_pos (.inl hidx.ge)]

theorem Alike.moveDirtyToTail (h : Represents b) (h' : Represents b') (hb : Alike b b')
    (a : Addr) : Alike (b.moveDirtyToTail a) (b'.moveDirtyToTail a) := by
  by_cases ha : a ∈ b.entries
  · refine ⟨?_, ?_⟩
    · rw [core_moveDirtyToTail, core_moveDirtyToTail, hb.core]
    · rw [entries_moveDirtyToTail h ha, entries_moveDirtyToTail h' (hb.entries ▸ ha), hb.entries]
  · rwa [moveDirtyToTail_of_notMem ha, moveDirtyToTail_of_notMem (hb.entries ▸ ha)]

theorem core_accept (h : Represents b) (a : Addr) (v : Byte) :
    (b.accept a v).core = (b.core.accept a v).core := by
  obtain ⟨staged, hstaged⟩ :
      ∃ staged, staged = { b with pendingValue := Function.update b.pendingValue a v } := ⟨_, rfl⟩
  have hcore : { b.core with pendingValue := Function.update b.core.pendingValue a v } =
      staged.core := by
    rw [hstaged]
    rfl
  have hroom (hclean : staged.isDirty a = false) : staged.queue.count < capacity := by
    rw [hstaged] at hclean ⊢
    exact h.count_lt hclean
  have hsame : staged.core.isDirty a = staged.isDirty a := rfl
  rw [accept, accept, ← hstaged, hcore, hsame]
  split
  · split
    · rw [core_moveDirtyToTail, core_moveDirtyToTail]
      rfl
    · rfl
  next hclean =>
    have hfree : (staged.setDirty a).queue.count < capacity := hroom (Bool.eq_false_iff.mpr hclean)
    have hfree' : (staged.core.setDirty a).queue.count < capacity := Nat.zero_lt_succ 0xFFFF
    rw [append, append, if_pos hfree, if_pos hfree']
    rfl

theorem relocateWrite_core (b : WriteBuffer) (w : View) (a : Addr) :
    (b.core.relocateWrite w a) = ((b.relocateWrite w a).1.core, (b.relocateWrite w a).2) := by
  unfold relocateWrite
  split
  · rfl
  · dsimp only
    split_ifs <;> rfl

theorem core_onRamWrite (h : Represents b) (w : View) (a : Addr) (v : Byte) :
    (b.onRamWrite w a v).1.core = (b.core.onRamWrite w a v).1.core := by
  have hrouted := h.relocateWrite w a
  have hcore := relocateWrite_core b w a
  unfold onRamWrite
  by_cases hdelivery : b.deliveryEnabled = false
  · have hdelivery' : b.core.deliveryEnabled = false := hdelivery
    rw [if_pos hdelivery, if_pos hdelivery']
    rfl
  · have hdelivery' : ¬ b.core.deliveryEnabled = false := hdelivery
    rw [if_neg hdelivery, if_neg hdelivery', hcore]
    generalize b.relocateWrite w a = r at hrouted
    obtain ⟨r, routed⟩ := r
    dsimp only at hrouted
    cases routed with
    | shielded => rfl
    | forward a' =>
        have hmirror : r.core.shouldMirror a' = r.shouldMirror a' := rfl
        have heliminates : r.core.eliminates w a' v = r.eliminates w a' v := rfl
        dsimp only
        rw [hmirror, heliminates]
        split
        · rfl
        split
        · rfl
        · exact core_accept hrouted a' v

theorem commits_core (b : WriteBuffer) (w : View) (a : Addr) (v : Byte) :
    b.core.commits w a v = b.commits w a v := by
  unfold commits
  rw [relocateWrite_core]
  generalize b.relocateWrite w a = r
  obtain ⟨r, routed⟩ := r
  cases routed <;> rfl

theorem Alike.onRamWrite (h : Represents b) (h' : Represents b') (hb : Alike b b') (w : View)
    (a : Addr) (v : Byte) : Alike (b.onRamWrite w a v).1 (b'.onRamWrite w a v).1 := by
  refine ⟨?_, ?_⟩
  · rw [core_onRamWrite h, core_onRamWrite h', hb.core]
  · rw [entries_onRamWrite h, entries_onRamWrite h', ← commits_core b', hb.core, commits_core,
      hb.entries]

theorem Alike.invalidateRange (h : Represents b) (h' : Represents b') (hb : Alike b b') (w : View)
    (a : Addr) (length : ℕ) :
    Alike (b.invalidateRange w a length) (b'.invalidateRange w a length) := by
  unfold WriteBuffer.invalidateRange
  generalize List.range length = places
  induction places generalizing b b' with
  | nil => exact hb
  | cons i places ih =>
      exact ih (h.onRamWrite w _ _) (h'.onRamWrite w _ _) (hb.onRamWrite h h' w _ _)

/-! ### Flushes of buffers that differ in the cache -/

theorem Alike.flushSelectedChunk (h : Represents b) (h' : Represents b') (hb : Alike b b')
    (w : View) (sel : Selection) (n : ℕ) :
    Alike (b.flushSelectedChunk w sel n).1 (b'.flushSelectedChunk w sel n).1 ∧
      (b'.flushSelectedChunk w sel n).2 = (b.flushSelectedChunk w sel n).2 := by
  by_cases hstop : b.queue.count = 0 ∨ n = 0 ∨ b.bus = false
  · have hstop' : b'.queue.count = 0 ∨ n = 0 ∨ b'.bus = false := by
      rwa [hb.count, hb.bus]
    unfold WriteBuffer.flushSelectedChunk
    rw [if_pos hstop, if_pos hstop']
    exact ⟨hb, rfl⟩
  have hstop' : ¬ (b'.queue.count = 0 ∨ n = 0 ∨ b'.bus = false) := by
    rwa [hb.count, hb.bus]
  obtain ⟨hsel, hlist, -⟩ := RingBuffer.toList_drain_count (sel.take w) (min n chunk) b.queue
    h.count_le h.head_lt
  obtain ⟨hsel', hlist', -⟩ := RingBuffer.toList_drain_count (sel.take w) (min n chunk) b'.queue
    h'.count_le h'.head_lt
  have hentries : b'.queue.toList capacity = b.queue.toList capacity := hb.entries
  rw [hentries] at hsel' hlist'
  have hstage : b'.stage w = b.stage w := by
    funext a
    exact (congrArg (fun c : WriteBuffer => c.stage w a) hb.core :)
  unfold WriteBuffer.flushSelectedChunk
  rw [if_neg hstop, if_neg hstop']
  generalize b.queue.drain capacity (sel.take w) b.queue.count (min n chunk) = pass at hsel hlist
  generalize b'.queue.drain capacity (sel.take w) b'.queue.count (min n chunk) = pass'
    at hsel' hlist'
  dsimp only
  rw [hstage, hsel', ← hsel]
  split
  · refine ⟨⟨hb.core, hlist'.trans hlist.symm⟩, rfl⟩
  · refine ⟨⟨?_, hlist'.trans hlist.symm⟩, rfl⟩
    have hcore := congrArg (fun c : WriteBuffer => { c with
      dirty := ((pass.2.map (b.stage w)).map fun x : C64BusWrite => x.addr.toNat).foldl
        WordBitmap.erase c.dirty
      synced := ((pass.2.map (b.stage w)).map fun x : C64BusWrite => x.addr.toNat).foldl
        WordBitmap.insert c.synced
      queueGeneration := c.queueGeneration + 1 }) hb.core
    exact hcore

theorem rememberNoProgress_alike (b : WriteBuffer) (w : View) (deferHot : Bool)
    (screenBase bitmapBase : ℕ) :
    Alike (b.rememberNoProgress w deferHot screenBase bitmapBase) b := by
  unfold rememberNoProgress
  split
  · exact ⟨rfl, rfl⟩
  · exact .refl b

theorem Alike.symm (h : Alike b b') : Alike b' b := ⟨h.core.symm, h.entries.symm⟩

theorem Alike.trans {b'' : WriteBuffer} (h : Alike b b') (h' : Alike b' b'') : Alike b b'' :=
  ⟨h'.core.trans h.core, h'.entries.trans h.entries⟩

theorem Alike.rememberNoProgress (hb : Alike b b') (w : View) (deferHot : Bool)
    (screenBase bitmapBase : ℕ) :
    Alike (b.rememberNoProgress w deferHot screenBase bitmapBase)
      (b'.rememberNoProgress w deferHot screenBase bitmapBase) :=
  ((rememberNoProgress_alike b w deferHot screenBase bitmapBase).trans hb).trans
    (rememberNoProgress_alike b' w deferHot screenBase bitmapBase).symm

theorem Alike.flushPolicyLoop (h : Represents b) (h' : Represents b') (hb : Alike b b') (w : View)
    (deferHot : Bool) (screenBase bitmapBase fuel budget : ℕ) :
    Alike (flushPolicyLoop w deferHot screenBase bitmapBase fuel budget b).1
        (flushPolicyLoop w deferHot screenBase bitmapBase fuel budget b').1 ∧
      (flushPolicyLoop w deferHot screenBase bitmapBase fuel budget b').2 =
        (flushPolicyLoop w deferHot screenBase bitmapBase fuel budget b).2 := by
  induction fuel generalizing budget b b' with
  | zero => exact ⟨hb, rfl⟩
  | succ fuel ih =>
      rw [WriteBuffer.flushPolicyLoop, WriteBuffer.flushPolicyLoop, hb.count]
      split
      · exact ⟨hb, rfl⟩
      obtain ⟨hround, hburst⟩ := hb.flushSelectedChunk h h' w
        (displaySelection deferHot screenBase bitmapBase) budget
      have hkept := h.flushSelectedChunk w (displaySelection deferHot screenBase bitmapBase) budget
      have hkept' :=
        h'.flushSelectedChunk w (displaySelection deferHot screenBase bitmapBase) budget
      dsimp only
      rw [hburst]
      split
      · exact ⟨hround.rememberNoProgress w _ _ _, rfl⟩
      · obtain ⟨hrest, hcalls⟩ := ih hkept hkept' hround (budget - _)
        exact ⟨hrest, by rw [hcalls]⟩

theorem Alike.flushRangeUpTo (h : Represents b) (h' : Represents b') (hb : Alike b b') (w : View)
    (base len maxBytes : ℕ) :
    Alike (b.flushRangeUpTo w base len maxBytes).1 (b'.flushRangeUpTo w base len maxBytes).1 ∧
      (b'.flushRangeUpTo w base len maxBytes).2 = (b.flushRangeUpTo w base len maxBytes).2 := by
  unfold WriteBuffer.flushRangeUpTo
  rw [hb.count]
  generalize b.queue.count = fuel
  induction fuel generalizing maxBytes b b' with
  | zero => exact ⟨hb, rfl⟩
  | succ fuel ih =>
      have hpending : b'.hasPendingInRange base len = b.hasPendingInRange base len :=
        (congrArg (fun c : WriteBuffer => c.hasPendingInRange base len) hb.core :)
      rw [flushRangeLoop, flushRangeLoop, hb.count, hpending]
      split
      · exact ⟨hb, rfl⟩
      obtain ⟨hround, hburst⟩ := hb.flushSelectedChunk h h' w (rangeSelection base len) maxBytes
      have hkept := h.flushSelectedChunk w (rangeSelection base len) maxBytes
      have hkept' := h'.flushSelectedChunk w (rangeSelection base len) maxBytes
      dsimp only
      rw [hburst]
      split
      · exact ⟨hround, rfl⟩
      · obtain ⟨hrest, hcalls⟩ := ih hkept hkept' hround (maxBytes - _)
        exact ⟨hrest, by rw [hcalls]⟩

end Alike

/-! ### The flushes without the cache -/

section Uncached

variable (b : WriteBuffer) (w : View)

def flushUpToPolicyUncached (maxBytes : ℕ) (deferHot : Bool) (screenBase bitmapBase : ℕ) :
    WriteBuffer × List BusCall :=
  if b.queue.count = 0 ∨ maxBytes = 0 then (b, [])
  else if b.bus = false then (b.dropQueue, [])
  else flushPolicyLoop w deferHot screenBase bitmapBase b.queue.count maxBytes b

def flushUpToUncached (maxBytes : ℕ) : WriteBuffer × List BusCall :=
  b.flushUpToPolicyUncached w maxBytes false 0xFFFFFFFF 0xFFFFFFFF

def flushLoopUncached : ℕ → WriteBuffer → WriteBuffer × List BusCall
  | 0, b => (b, [])
  | fuel + 1, b =>
      let round := b.flushUpToUncached w (chunk * 8)
      if round.1.queue.count = 0 then round
      else
        let rest := flushLoopUncached fuel round.1
        (rest.1, round.2 ++ rest.2)

def flushUncached : WriteBuffer × List BusCall := flushLoopUncached w b.queue.count b

end Uncached

section Agreement

variable {wiring : HotWiring} {shape : BitVec 32 → WordBitmap 64} {b b' : WriteBuffer} {w : View}

/-- A round that may take nothing leaves all as it was. -/
theorem flushPolicyLoop_of_refused (h : Represents b) (hbus : b.bus = true) {deferHot : Bool}
    {screenBase bitmapBase budget : ℕ} (fuel : ℕ) (hcount : b.queue.count ≠ 0)
    (hbudget : budget ≠ 0)
    (hrefused : ∀ a ∈ b.entries,
      (displaySelection deferHot screenBase bitmapBase).take w a = false) :
    Alike b (flushPolicyLoop w deferHot screenBase bitmapBase (fuel + 1) budget b).1 ∧
      (flushPolicyLoop w deferHot screenBase bitmapBase (fuel + 1) budget b).2 = [] := by
  have hbudget' : min budget chunk ≠ 0 := by
    rw [chunk]
    omega
  obtain ⟨hselected, huntouched, hdeferred⟩ := pass_none hbudget' hrefused
  obtain ⟨-, hentries⟩ :=
    entries_flushSelectedChunk h w (displaySelection deferHot screenBase bitmapBase) budget
  have hlist := hentries hcount hbudget hbus
  rw [huntouched, hdeferred, List.nil_append] at hlist
  have hround : (b.flushSelectedChunk w (displaySelection deferHot screenBase bitmapBase) budget).2
        = [] ∧
      (b.flushSelectedChunk w (displaySelection deferHot screenBase bitmapBase) budget).1.core =
        b.core := by
    obtain ⟨hsel, -, -⟩ := RingBuffer.toList_drain_count
      ((displaySelection deferHot screenBase bitmapBase).take w) (min budget chunk) b.queue
      h.count_le h.head_lt
    change _ = selected _ _ b.entries at hsel
    rw [hselected] at hsel
    unfold flushSelectedChunk
    rw [if_neg (by simp [hcount, hbudget, hbus])]
    dsimp only
    rw [hsel, List.map_nil, if_pos List.length_nil]
    exact ⟨rfl, rfl⟩
  rw [flushPolicyLoop, if_neg (by simp [hcount, hbudget])]
  dsimp only
  rw [hround.1, if_pos List.length_nil]
  exact ⟨Alike.trans ⟨hround.2, hlist⟩ (rememberNoProgress_alike _ w _ _ _).symm, rfl⟩

theorem Alike.flushUpToPolicy (h : CacheSound wiring shape b) (h' : Represents b')
    (hb : Alike b b') (hw : wiring.Reaches shape w) (n : ℕ) (deferHot : Bool)
    (screenBase bitmapBase : ℕ) :
    Alike (b.flushUpToPolicy w n deferHot screenBase bitmapBase).1
        (b'.flushUpToPolicyUncached w n deferHot screenBase bitmapBase).1 ∧
      (b'.flushUpToPolicyUncached w n deferHot screenBase bitmapBase).2 =
        (b.flushUpToPolicy w n deferHot screenBase bitmapBase).2 := by
  unfold WriteBuffer.flushUpToPolicy flushUpToPolicyUncached
  rw [hb.count, hb.bus]
  split
  · exact ⟨hb, rfl⟩
  next hgo =>
    rw [not_or] at hgo
    split
    next hmatch =>
      -- the cached scan would have sent nothing
      have hrefused := h.refuses hw hmatch
      have hattached : b.bus = true := by
        refine h.attached ?_
        unfold noProgressCacheMatches at hmatch
        simp only [Bool.and_eq_true] at hmatch
        exact hmatch.1.1.1.1.1
      obtain ⟨fuel, hfuel⟩ := Nat.exists_eq_succ_of_ne_zero hgo.1
      rw [if_neg (by rw [hattached]; nofun), hfuel]
      obtain ⟨hsame, hnone⟩ := flushPolicyLoop_of_refused h' (hb.bus.trans hattached) fuel
        (by rw [hb.count]; exact hgo.1) hgo.2 (hb.entries.symm ▸ hrefused)
      exact ⟨hb.trans hsame, hnone⟩
    next =>
      split
      · refine ⟨⟨?_, ?_⟩, rfl⟩
        · exact (congrArg (fun c : WriteBuffer => { c with
            dirty := WordBitmap.empty 64
            queueGeneration := c.queueGeneration + 1 }) hb.core :)
        · exact (RingBuffer.toList_eq_nil _ rfl).trans (RingBuffer.toList_eq_nil _ rfl).symm
      · exact hb.flushPolicyLoop h.represents h' w deferHot screenBase bitmapBase _ n

theorem represents_flushUpToPolicyUncached (h : Represents b) (w : View) (n : ℕ) (deferHot : Bool)
    (screenBase bitmapBase : ℕ) :
    Represents (b.flushUpToPolicyUncached w n deferHot screenBase bitmapBase).1 := by
  have hrule := represents_deliveryInvariant w
  unfold flushUpToPolicyUncached
  split
  · exact h
  split
  next hbus => exact hrule.drop b (fun _ => 0) hbus h
  next hbus =>
    exact flushPolicyLoop_rule hrule _ _ _ _ _ b (fun _ => 0) (Bool.not_eq_false _ ▸ hbus) h

theorem Alike.flushLoop (h : CacheSound wiring shape b) (h' : Represents b') (hb : Alike b b')
    (hw : wiring.Reaches shape w) (fuel : ℕ) :
    Alike (flushLoop w fuel b).1 (flushLoopUncached w fuel b').1 ∧
      (flushLoopUncached w fuel b').2 = (flushLoop w fuel b).2 := by
  induction fuel generalizing b b' with
  | zero => exact ⟨hb, rfl⟩
  | succ fuel ih =>
      obtain ⟨hround, hcalls⟩ := hb.flushUpToPolicy h h' hw (chunk * 8) false 0xFFFFFFFF 0xFFFFFFFF
      have hsound : CacheSound wiring shape (b.flushUpTo w (chunk * 8)).1 :=
        flushUpTo_rule (cacheSound_deliveryInvariant hw) b (fun _ => 0) _ h
      have hkept := represents_flushUpToPolicyUncached h' w (chunk * 8) false 0xFFFFFFFF 0xFFFFFFFF
      rw [WriteBuffer.flushLoop, flushLoopUncached]
      dsimp only
      unfold flushUpToUncached flushUpTo at *
      rw [hround.count]
      split
      · exact ⟨hround, hcalls⟩
      · obtain ⟨hrest, hlater⟩ := ih hsound hkept hround
        exact ⟨hrest, by rw [hcalls, hlater]⟩

end Agreement

/-! ### Repairs of buffers that differ in the cache -/

section Repairs

variable (q : RingBuffer Addr) (np : NoProgress) (w : View)

def withQueue (b : WriteBuffer) : WriteBuffer := { b with queue := q, noProgress := np }

theorem resyncSweepLoop_withQueue (ram : Addr → Byte) (maxBytes guard : ℕ) (b : WriteBuffer)
    (burst : List C64BusWrite) :
    resyncSweepLoop w ram maxBytes guard (b.withQueue q np) burst =
      ((resyncSweepLoop w ram maxBytes guard b burst).1.withQueue q np,
        (resyncSweepLoop w ram maxBytes guard b burst).2) := by
  induction guard generalizing b burst with
  | zero => rfl
  | succ guard ih =>
      rw [resyncSweepLoop, resyncSweepLoop]
      split
      · rfl
      dsimp only
      by_cases hskip : b.advanceResyncCursor.shouldMirror b.resyncCursor = false ∨
          b.advanceResyncCursor.isDirty b.resyncCursor = true
      · refine (if_pos hskip).trans ?_
        rw [if_pos hskip]
        exact ih b.advanceResyncCursor burst
      · refine (if_neg hskip).trans ?_
        rw [if_neg hskip]
        by_cases hfull : (burst ++ [healed w ram b.resyncCursor]).length = chunk
        · refine (if_pos hfull).trans ?_
          rw [if_pos hfull]
          rfl
        · refine (if_neg hfull).trans ?_
          rw [if_neg hfull]
          exact ih (b.advanceResyncCursor.setSynced b.resyncCursor) _

theorem resyncSweep_withQueue (b : WriteBuffer) (n : ℕ) :
    (b.withQueue q np).resyncSweep w n =
      ((b.resyncSweep w n).1.withQueue q np, (b.resyncSweep w n).2) := by
  unfold resyncSweep
  cases w.ram with
  | none => rfl
  | some ram =>
      dsimp only
      by_cases hstop : b.bus = false ∨ n = 0
      · refine (if_pos hstop).trans ?_
        rw [if_pos hstop]
      · refine (if_neg hstop).trans ?_
        rw [if_neg hstop, resyncSweepLoop_withQueue]

theorem scrubLoop_withQueue (ram : Addr → Byte) (region : ScrubRegion) (hot : List ℕ)
    (length maxBytes : ℕ) (flags : ScrubFlags) (left candidates : ℕ) (b : WriteBuffer)
    (burst : List C64BusWrite) (calls : List BusCall) :
    scrubLoop w ram region hot length maxBytes flags left candidates (b.withQueue q np) burst
        calls =
      ((scrubLoop w ram region hot length maxBytes flags left candidates b burst calls).1.withQueue
          q np,
        (scrubLoop w ram region hot length maxBytes flags left candidates b burst calls).2) := by
  induction left generalizing candidates b burst calls with
  | zero => rfl
  | succ left ih =>
      rw [scrubLoop, scrubLoop]
      split
      · rfl
      dsimp only
      obtain ⟨moved, hmoved⟩ : ∃ moved, moved = { b with
          displayScrub := region.setOffset b.displayScrub
            ((region.offset b.displayScrub + 1) % length) } := ⟨_, rfl⟩
      rw [← hmoved]
      have hmoved' : moved.withQueue q np = { b.withQueue q np with
          displayScrub := region.setOffset (b.withQueue q np).displayScrub
            ((region.offset (b.withQueue q np).displayScrub + 1) % length) } := by
        rw [hmoved]
        rfl
      rw [← hmoved']
      have hplace : region.place (b.withQueue q np).displayScrub hot =
          region.place b.displayScrub hot := rfl
      have hskips (a : Addr) :
          (moved.withQueue q np).scrubSkips flags a = moved.scrubSkips flags a := rfl
      have hdirty (a : Addr) : (moved.withQueue q np).isDirty a = moved.isDirty a := rfl
      rw [hplace, hskips, hdirty]
      split
      · exact ih _ moved burst calls
      split
      · exact ih _ moved burst _
      · exact ih _ (moved.setSynced _) _ _

theorem resyncDisplayed_withQueue (b : WriteBuffer)
    (screenBase graphicsBase graphicsLength n : ℕ) (flags : ScrubFlags) :
    (b.withQueue q np).resyncDisplayed w screenBase graphicsBase graphicsLength n flags =
      ((b.resyncDisplayed w screenBase graphicsBase graphicsLength n flags).1.withQueue q np,
        (b.resyncDisplayed w screenBase graphicsBase graphicsLength n flags).2) := by
  unfold resyncDisplayed
  cases w.ram with
  | none => rfl
  | some ram =>
      dsimp only
      by_cases hstop : b.bus = false ∨ n = 0
      · refine (if_pos hstop).trans ?_
        rw [if_pos hstop]
      refine (if_neg hstop).trans ?_
      rw [if_neg hstop]
      have hscrub : (b.withQueue q np).displayScrub = b.displayScrub := rfl
      rw [hscrub]
      split
      · rfl
      · have hwith (d : DisplayScrub) :
            (b.withQueue q np).withScrub d = (b.withScrub d).withQueue q np := rfl
        rw [hwith, scrubLoop_withQueue]
        rfl

variable {b b' : WriteBuffer}

/-- A repair that has no use for the queue and the cache works alike on both buffers. -/
theorem Alike.of_withQueue (op : WriteBuffer → WriteBuffer × List BusCall)
    (hop : ∀ q np b, op (b.withQueue q np) = ((op b).1.withQueue q np, (op b).2))
    (hb : Alike b b') : Alike (op b).1 (op b').1 ∧ (op b').2 = (op b).2 := by
  have hqueue (c : WriteBuffer) : (op c).1.queue = c.queue := by
    have hsame := hop c.queue c.noProgress c
    exact (congrArg (fun r : WriteBuffer × List BusCall => r.1.queue) hsame :)
  have hcore (c : WriteBuffer) : op c.core = ((op c).1.core, (op c).2) := hop _ _ c
  have hsame := hcore b'
  rw [hb.core, hcore b, Prod.mk.injEq] at hsame
  refine ⟨⟨hsame.1.symm, ?_⟩, hsame.2.symm⟩
  show (op b').1.queue.toList capacity = (op b).1.queue.toList capacity
  rw [hqueue, hqueue]
  exact hb.entries

end Repairs

/-! ### Runs -/

/-- A buffer with the calls that it has made on the bus. -/
structure Sending where
  buffer : WriteBuffer
  calls : List BusCall

/-- One operation, with the calls it makes. -/
def perform (b : WriteBuffer) : Op → WriteBuffer × List BusCall
  | .flushUpTo w n => b.flushUpTo w n
  | .flushUpToPolicy w n deferHot screenBase bitmapBase =>
      b.flushUpToPolicy w n deferHot screenBase bitmapBase
  | .flushRangeUpTo w base len n => b.flushRangeUpTo w base len n
  | .flush w => b.flush w
  | .resyncSweep w n => b.resyncSweep w n
  | .resyncDisplayed w screenBase graphicsBase graphicsLength n flags =>
      b.resyncDisplayed w screenBase graphicsBase graphicsLength n flags
  | op => (b.step op, [])

/-- The same, where no flush looks at the cache. -/
def performUncached (b : WriteBuffer) : Op → WriteBuffer × List BusCall
  | .flushUpTo w n => b.flushUpToUncached w n
  | .flushUpToPolicy w n deferHot screenBase bitmapBase =>
      b.flushUpToPolicyUncached w n deferHot screenBase bitmapBase
  | .flush w => b.flushUncached w
  | op => b.perform op

def Sending.step (s : Sending) (op : Op) : Sending :=
  ⟨(s.buffer.perform op).1, s.calls ++ (s.buffer.perform op).2⟩

def Sending.stepUncached (s : Sending) (op : Op) : Sending :=
  ⟨(s.buffer.performUncached op).1, s.calls ++ (s.buffer.performUncached op).2⟩

section Runs

variable {wiring : HotWiring} {shape : BitVec 32 → WordBitmap 64} {b b' : WriteBuffer}

theorem perform_fst (b : WriteBuffer) (op : Op) : (b.perform op).1 = b.step op := by
  cases op <;> rfl

theorem Alike.perform (h : CacheSound wiring shape b) (h' : Represents b') (hb : Alike b b')
    (op : Op) (hview : ∀ w ∈ op.view, wiring.Reaches shape w) :
    Alike (b.perform op).1 (b'.performUncached op).1 ∧
      (b'.performUncached op).2 = (b.perform op).2 := by
  have hset (f : WriteBuffer → WriteBuffer)
      (hf : ∀ q np c, (f (c.withQueue q np)).core = (f c).core)
      (hqueue : ∀ c, (f c).entries = c.entries) :
      Alike (f b) (f b') ∧ ([] : List BusCall) = [] := by
    refine ⟨⟨?_, ?_⟩, rfl⟩
    · have hcore (c : WriteBuffer) : (f c.core).core = (f c).core := hf _ _ c
      rw [← hcore b', hb.core, hcore b]
    · rw [hqueue, hqueue, hb.entries]
  cases op with
  | attach bus => exact hset (fun c => c.attach bus) (fun _ _ _ => rfl) fun _ => rfl
  | setOptMode mode => exact hset (fun c => c.setOptMode mode) (fun _ _ _ => rfl) fun _ => rfl
  | setDeliveryEnabled on =>
      exact hset (fun c => c.setDeliveryEnabled on) (fun _ _ _ => rfl) fun _ => rfl
  | setRAMUnderIOAccessible on =>
      refine hset (fun c => c.setRAMUnderIOAccessible on) (fun q np c => ?_) fun c => ?_
      · unfold WriteBuffer.setRAMUnderIOAccessible
        by_cases hsame : c.ramUnderIOAccessible = on
        · rw [if_pos hsame, if_pos (show (c.withQueue q np).ramUnderIOAccessible = on from hsame)]
          rfl
        · rw [if_neg hsame,
            if_neg (show ¬ (c.withQueue q np).ramUnderIOAccessible = on from hsame)]
          rfl
      · unfold WriteBuffer.setRAMUnderIOAccessible
        split <;> rfl
  | setExcludeZeroPageStack exclude =>
      exact hset (fun c => c.setExcludeZeroPageStack exclude) (fun _ _ _ => rfl) fun _ => rfl
  | attachHotShapeBlocks =>
      exact hset (fun c => c.attachHotShapeBlocks) (fun _ _ _ => rfl) fun _ => rfl
  | onRamWrite w a v => exact ⟨hb.onRamWrite h.represents h' w a v, rfl⟩
  | moveDirtyToTail a => exact ⟨hb.moveDirtyToTail h.represents h' a, rfl⟩
  | invalidateRange w a length => exact ⟨hb.invalidateRange h.represents h' w a length, rfl⟩
  | flushUpTo w n => exact hb.flushUpToPolicy h h' (hview w rfl) n false 0xFFFFFFFF 0xFFFFFFFF
  | flushUpToPolicy w n deferHot screenBase bitmapBase =>
      exact hb.flushUpToPolicy h h' (hview w rfl) n deferHot screenBase bitmapBase
  | flushRangeUpTo w base len n => exact hb.flushRangeUpTo h.represents h' w base len n
  | flush w =>
      have hcount := hb.count
      show Alike (b.flush w).1 (b'.flushUncached w).1 ∧ (b'.flushUncached w).2 = (b.flush w).2
      unfold flush flushUncached
      rw [hcount]
      exact hb.flushLoop h h' (hview w rfl) _
  | resyncSweep w n =>
      exact Alike.of_withQueue (fun c => c.resyncSweep w n)
        (fun q np c => resyncSweep_withQueue q np w c n) hb
  | resyncDisplayed w screenBase graphicsBase graphicsLength n flags =>
      exact Alike.of_withQueue
        (fun c => c.resyncDisplayed w screenBase graphicsBase graphicsLength n flags)
        (fun q np c =>
          resyncDisplayed_withQueue q np w c screenBase graphicsBase graphicsLength n flags) hb
  | discard =>
      refine ⟨⟨?_, ?_⟩, rfl⟩
      · exact (congrArg (fun c : WriteBuffer => { c with
          dirty := WordBitmap.empty 64
          synced := WordBitmap.empty 64
          queueGeneration := c.queueGeneration + 1 }) hb.core :)
      · exact (RingBuffer.toList_eq_nil _ rfl).trans (RingBuffer.toList_eq_nil _ rfl).symm

theorem represents_flushUncached (h : Represents b) (w : View) (fuel : ℕ) :
    Represents (flushLoopUncached w fuel b).1 := by
  induction fuel generalizing b with
  | zero => exact h
  | succ fuel ih =>
      have hround := represents_flushUpToPolicyUncached h w (chunk * 8) false 0xFFFFFFFF 0xFFFFFFFF
      rw [flushLoopUncached]
      dsimp only
      split
      · exact hround
      · exact ih hround

theorem represents_performUncached (h : Represents b) (op : Op) :
    Represents (b.performUncached op).1 := by
  have hother : Represents (b.perform op).1 := by
    rw [perform_fst]
    exact h.step op
  cases op with
  | flushUpTo w n => exact represents_flushUpToPolicyUncached h w n false 0xFFFFFFFF 0xFFFFFFFF
  | flushUpToPolicy w n deferHot screenBase bitmapBase =>
      exact represents_flushUpToPolicyUncached h w n deferHot screenBase bitmapBase
  | flush w => exact represents_flushUncached h w _
  | _ => exact hother

theorem alike_run (later : List Op) (s s' : Sending) (h : CacheSound wiring shape s.buffer)
    (h' : Represents s'.buffer) (hb : Alike s.buffer s'.buffer) (hcalls : s'.calls = s.calls)
    (hserves : wiring.Serves shape later) :
    Alike (run Sending.step s later).buffer (run Sending.stepUncached s' later).buffer ∧
      (run Sending.stepUncached s' later).calls = (run Sending.step s later).calls := by
  induction later generalizing wiring s s' with
  | nil => exact ⟨hb, hcalls⟩
  | cons op later ih =>
      obtain ⟨hview, wiring', hwiring, hrest⟩ := hserves
      obtain ⟨hnext, hmade⟩ := hb.perform h h' op hview
      have hsound : CacheSound wiring' shape (s.step op).buffer := by
        show CacheSound wiring' shape (s.buffer.perform op).1
        rw [perform_fst]
        exact h.step op hview hwiring
      refine ih _ _ hsound (represents_performUncached h' op) hnext ?_ hrest
      show s'.calls ++ (s'.buffer.performUncached op).2 = s.calls ++ (s.buffer.perform op).2
      rw [hcalls, hmade]

/-- Whenever the cache matches, no queued entry may be sent; and from every state that a run
reaches, the flushes without the cache make the same calls and leave the same queue and the
same bits. -/
theorem noProgressCache_transparent (wiring : HotWiring) (shape : BitVec 32 → WordBitmap 64)
    (pendingValue : Addr → Byte) (list : ℕ → Addr) (ops : List Op) :
    let b := run WriteBuffer.step (construct pendingValue list) ops
    (∀ w n deferHot screenBase bitmapBase,
      wiring.Serves shape (ops ++ [.flushUpToPolicy w n deferHot screenBase bitmapBase]) →
        b.noProgressCacheMatches w deferHot screenBase bitmapBase = true →
          ∀ a ∈ b.entries, (displaySelection deferHot screenBase bitmapBase).take w a = false) ∧
      ∀ later, wiring.Serves shape (ops ++ later) →
        let cached := run Sending.step ⟨b, []⟩ later
        let uncached := run Sending.stepUncached ⟨b, []⟩ later
        uncached.calls = cached.calls ∧
          uncached.buffer.queue.count = cached.buffer.queue.count ∧
          uncached.buffer.entries = cached.buffer.entries ∧
          uncached.buffer.dirty = cached.buffer.dirty ∧
          uncached.buffer.synced = cached.buffer.synced := by
  intro b
  have hstart : CacheSound wiring shape (construct pendingValue list) :=
    cacheSound_of_void (represents_construct pendingValue list) rfl
  refine ⟨fun w n deferHot screenBase bitmapBase hserves hmatch => ?_, fun later hserves => ?_⟩
  · obtain ⟨wiring', hsound, hview, -⟩ := cacheSound_run ops _ hstart hserves
    exact hsound.refuses (hview w rfl) hmatch
  · obtain ⟨wiring', hsound, hlater⟩ := cacheSound_run ops later hstart hserves
    obtain ⟨halike, hcalls⟩ := alike_run later ⟨b, []⟩ ⟨b, []⟩ hsound hsound.represents
      (.refl b) rfl hlater
    exact ⟨hcalls, halike.count, halike.entries, halike.dirty, halike.synced⟩

/-- Hot blocks that never change: the block of $2000. -/
def hotView : View :=
  ⟨none, some ((WordBitmap.empty 64).insert 0x80), some 0, none⟩

/-- A byte of the hot block, and a flush that defers it. -/
def deferredByte : List Op :=
  [.attachHotShapeBlocks, .attach true, .onRamWrite hotView 0x2000 1,
    .flushUpToPolicy hotView 8 true 0xFFFFFFFF 0xFFFFFFFF]

theorem hotView_served (ops : List Op) (h : ∀ op ∈ ops, op.view = none ∨ op.view = some hotView) :
    HotWiring.Serves (fun _ => (WordBitmap.empty 64).insert 0x80) ⟨true, true⟩ ops := by
  induction ops with
  | nil => exact trivial
  | cons op ops ih =>
      rw [List.forall_mem_cons] at h
      refine ⟨fun w hw => ?_, ⟨true, true⟩, fun _ => rfl, ih h.2⟩
      rcases h.1 with hnone | hsome
      · rw [hnone] at hw
        cases hw
      · rw [hsome] at hw
        cases hw
        refine ⟨rfl, rfl, fun blocks g hblocks hg => ?_⟩
        cases hblocks
        rfl

/-- The flush is repeated, from the cache and without it. -/
theorem noProgressCache_transparent_hot :
    let b := run WriteBuffer.step (construct (fun _ => 0) fun _ => 0) deferredByte
    let later := [Op.flushUpToPolicy hotView 8 true 0xFFFFFFFF 0xFFFFFFFF, .flush hotView]
    b.noProgressCacheMatches hotView true 0xFFFFFFFF 0xFFFFFFFF = true ∧
      (run Sending.stepUncached ⟨b, []⟩ later).calls = (run Sending.step ⟨b, []⟩ later).calls := by
  have htransparent := noProgressCache_transparent ⟨true, true⟩
    (fun _ => (WordBitmap.empty 64).insert 0x80) (fun _ => 0) (fun _ => 0) deferredByte
  exact ⟨by decide +kernel, (htransparent.2
    [.flushUpToPolicy hotView 8 true 0xFFFFFFFF 0xFFFFFFFF, .flush hotView]
    (hotView_served _ (by simp [deferredByte, Op.view]))).1⟩

end Runs

end WriteBuffer

end ScpuEmu
