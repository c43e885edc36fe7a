import ScpuEmu.SuperCpu.WriteBuffer.Resync

/-!
# Invariants across delivery

The C64's DRAM is an array of bytes that only bursts change. A property of the
buffer and this DRAM that the elementary moves of delivery keep is kept by every
flush and every repair, whatever its budget: this is shown once here, by
induction on each loop of the source.
-/

namespace ScpuEmu

open Library

/-- Store a burst, in order. -/
def deliver (dram : Addr → Byte) (burst : List C64BusWrite) : Addr → Byte :=
  burst.foldl (fun d x => Function.update d x.addr x.value) dram

/-- The DRAM after a list of bus calls. -/
def runCalls (dram : Addr → Byte) (calls : List BusCall) : Addr → Byte :=
  calls.foldl
    (fun d call =>
      match call with
      | .writeBurst burst => deliver d burst
      | .readRAM _ => d)
    dram

@[simp] theorem deliver_nil (d : Addr → Byte) : deliver d [] = d := rfl

theorem deliver_append (d : Addr → Byte) (xs ys : List C64BusWrite) :
    deliver d (xs ++ ys) = deliver (deliver d xs) ys :=
  List.foldl_append

@[simp] theorem runCalls_nil (d : Addr → Byte) : runCalls d [] = d := rfl

@[simp] theorem runCalls_writeBurst (d : Addr → Byte) (burst : List C64BusWrite)
    (calls : List BusCall) :
    runCalls d (.writeBurst burst :: calls) = runCalls (deliver d burst) calls := rfl

theorem runCalls_append (d : Addr → Byte) (xs ys : List BusCall) :
    runCalls d (xs ++ ys) = runCalls (runCalls d xs) ys :=
  List.foldl_append

/-- A burst whose bytes are given by the address leaves these bytes where it went
and nothing elsewhere. -/
theorem deliver_apply (d g : Addr → Byte) (burst : List C64BusWrite)
    (h : ∀ x ∈ burst, x.value = g x.addr) (a : Addr) :
    deliver d burst a = if a ∈ burst.map C64BusWrite.addr then g a else d a := by
  induction burst generalizing d with
  | nil => simp
  | cons x burst ih =>
      have hx : x.value = g x.addr := h x List.mem_cons_self
      have hrest := ih (Function.update d x.addr x.value)
        (fun y hy => h y (List.mem_cons_of_mem x hy))
      rw [deliver, List.foldl_cons]
      refine hrest.trans ?_
      by_cases hin : a ∈ burst.map C64BusWrite.addr
      · rw [if_pos hin, List.map_cons, if_pos (List.mem_cons_of_mem _ hin)]
      · by_cases ha : a = x.addr
        · subst ha
          simp [hin, hx]
        · rw [if_neg hin, if_neg (by simpa [ha] using hin), Function.update_of_ne ha]

namespace WriteBuffer

/-- What each elementary move of delivery has to keep. -/
structure DeliveryInvariant (w : View) (P : WriteBuffer → (Addr → Byte) → Prop) : Prop where
  chunk : ∀ b d sel n, P b d →
    P (b.flushSelectedChunk w sel n).1 (deliver d (b.flushSelectedChunk w sel n).2)
  remember : ∀ b d deferHot screenBase bitmapBase n, P b d →
    b.queue.count ≠ 0 → n ≠ 0 → b.bus = true →
    let round := b.flushSelectedChunk w (displaySelection deferHot screenBase bitmapBase) n
    round.2 = [] → P (round.1.rememberNoProgress w deferHot screenBase bitmapBase) d
  drop : ∀ b d, b.bus = false → P b d → P b.dropQueue d
  cursor : ∀ b d, P b d → P b.advanceResyncCursor d
  scrub : ∀ b d s, P b d → P (b.withScrub s) d
  heal : ∀ b d ram a, w.ram = some ram → b.isDirty a = false → P b d →
    P (b.setSynced a) (Function.update d a (healed w ram a).value)

variable {w : View} {P : WriteBuffer → (Addr → Byte) → Prop}

theorem flushSelectedChunk_bus (b : WriteBuffer) (w : View) (sel : Selection) (n : ℕ) :
    (b.flushSelectedChunk w sel n).1.bus = b.bus := by
  rw [flushSelectedChunk]
  split
  · rfl
  · dsimp only
    split <;> rfl

theorem flushPolicyLoop_rule (hP : DeliveryInvariant w P) (deferHot : Bool)
    (screenBase bitmapBase fuel budget : ℕ) (b : WriteBuffer) (d : Addr → Byte)
    (hbus : b.bus = true) (h : P b d) :
    P (flushPolicyLoop w deferHot screenBase bitmapBase fuel budget b).1
      (runCalls d (flushPolicyLoop w deferHot screenBase bitmapBase fuel budget b).2) := by
  induction fuel generalizing budget b d with
  | zero => exact h
  | succ fuel ih =>
      rw [flushPolicyLoop]
      by_cases hstop : b.queue.count = 0 ∨ budget = 0
      · rw [if_pos hstop]
        exact h
      · rw [if_neg hstop]
        have hround := hP.chunk b d (displaySelection deferHot screenBase bitmapBase) budget h
        have hbus' := (flushSelectedChunk_bus b w
          (displaySelection deferHot screenBase bitmapBase) budget).trans hbus
        dsimp only
        split
        · rename_i hnone
          exact hP.remember b d deferHot screenBase bitmapBase budget h (fun hc => hstop (.inl hc))
            (fun hn => hstop (.inr hn)) hbus (List.length_eq_zero_iff.mp hnone)
        · exact ih _ _ _ hbus' hround

theorem flushUpToPolicy_rule (hP : DeliveryInvariant w P) (b : WriteBuffer) (d : Addr → Byte)
    (maxBytes : ℕ) (deferHot : Bool) (screenBase bitmapBase : ℕ) (h : P b d) :
    P (b.flushUpToPolicy w maxBytes deferHot screenBase bitmapBase).1
      (runCalls d (b.flushUpToPolicy w maxBytes deferHot screenBase bitmapBase).2) := by
  rw [flushUpToPolicy]
  split
  · exact h
  · split
    · exact h
    · split
      · rename_i hbus
        exact hP.drop b d hbus h
      · rename_i hbus
        exact flushPolicyLoop_rule hP _ _ _ _ _ b d (Bool.not_eq_false _ ▸ hbus) h

theorem flushUpTo_rule (hP : DeliveryInvariant w P) (b : WriteBuffer) (d : Addr → Byte)
    (maxBytes : ℕ) (h : P b d) :
    P (b.flushUpTo w maxBytes).1 (runCalls d (b.flushUpTo w maxBytes).2) :=
  flushUpToPolicy_rule hP b d maxBytes _ _ _ h

theorem flushRangeUpTo_rule (hP : DeliveryInvariant w P) (b : WriteBuffer) (d : Addr → Byte)
    (base len maxBytes : ℕ) (h : P b d) :
    P (b.flushRangeUpTo w base len maxBytes).1
      (runCalls d (b.flushRangeUpTo w base len maxBytes).2) := by
  rw [flushRangeUpTo]
  generalize b.queue.count = fuel
  induction fuel generalizing maxBytes b d with
  | zero => exact h
  | succ fuel ih =>
      rw [flushRangeLoop]
      split
      · exact h
      · have hround := hP.chunk b d (rangeSelection base len) maxBytes h
        dsimp only
        split
        · rename_i hnone
          rwa [List.length_eq_zero_iff.mp hnone, deliver_nil] at hround
        · exact ih _ _ _ hround

theorem flush_rule (hP : DeliveryInvariant w P) (b : WriteBuffer) (d : Addr → Byte) (h : P b d) :
    P (b.flush w).1 (runCalls d (b.flush w).2) := by
  rw [flush]
  generalize b.queue.count = fuel
  induction fuel generalizing b d with
  | zero => exact h
  | succ fuel ih =>
      rw [flushLoop]
      have hround := flushUpTo_rule hP b d (ScpuEmu.chunk * 8) h
      dsimp only
      split
      · exact hround
      · rw [runCalls_append]
        exact ih _ _ hround

theorem resyncSweepLoop_rule (hP : DeliveryInvariant w P) (ram : Addr → Byte)
    (hram : w.ram = some ram) (maxBytes guard : ℕ) (b : WriteBuffer) (burst : List C64BusWrite)
    (d : Addr → Byte) (h : P b (deliver d burst)) :
    P (resyncSweepLoop w ram maxBytes guard b burst).1
      (deliver d (resyncSweepLoop w ram maxBytes guard b burst).2) := by
  induction guard generalizing b burst with
  | zero => exact h
  | succ guard ih =>
      rw [resyncSweepLoop]
      split
      · exact h
      · have hcursor := hP.cursor b _ h
        dsimp only
        split
        · exact ih _ _ hcursor
        · rename_i hskip
          have hclean : b.advanceResyncCursor.isDirty b.resyncCursor = false := by
            simpa using fun hd => hskip (.inr hd)
          have hheal := hP.heal _ _ ram b.resyncCursor hram hclean hcursor
          have hsent : P (b.advanceResyncCursor.setSynced b.resyncCursor)
              (deliver d (burst ++ [healed w ram b.resyncCursor])) := by
            rw [deliver_append]
            exact hheal
          split
          · exact hsent
          · exact ih _ _ hsent

theorem runCalls_burstCall (d : Addr → Byte) (burst : List C64BusWrite) :
    runCalls d (burstCall burst) = deliver d burst := by
  rw [burstCall]
  split
  · rename_i h
    rw [List.length_eq_zero_iff.mp h]
    rfl
  · rfl

theorem resyncSweep_rule (hP : DeliveryInvariant w P) (b : WriteBuffer) (d : Addr → Byte)
    (maxBytes : ℕ) (h : P b d) :
    P (b.resyncSweep w maxBytes).1 (runCalls d (b.resyncSweep w maxBytes).2) := by
  rw [resyncSweep]
  split
  · exact h
  · rename_i ram hram
    split
    · exact h
    · rw [runCalls_burstCall]
      exact resyncSweepLoop_rule hP ram hram maxBytes _ b [] d h

/-- The calls made during the walk are reads. -/
theorem scrubLoop_rule (hP : DeliveryInvariant w P) (ram : Addr → Byte)
    (hram : w.ram = some ram) (region : ScrubRegion) (hot : List ℕ) (length maxBytes : ℕ)
    (flags : ScrubFlags) (left candidates : ℕ) (b : WriteBuffer) (burst : List C64BusWrite)
    (calls : List BusCall) (d : Addr → Byte) (hcalls : runCalls d calls = d)
    (h : P b (deliver d burst)) :
    let walk := scrubLoop w ram region hot length maxBytes flags left candidates b burst calls
    P walk.1 (deliver d walk.2.1) ∧ runCalls d walk.2.2 = d := by
  induction left generalizing candidates b burst calls with
  | zero => exact ⟨h, hcalls⟩
  | succ left ih =>
      rw [scrubLoop]
      split
      · exact ⟨h, hcalls⟩
      · have hmoved := hP.scrub b _ (region.setOffset b.displayScrub
          ((region.offset b.displayScrub + 1) % length)) h
        dsimp only
        split
        · exact ih _ _ _ _ hcalls hmoved
        · have hreads : runCalls d (if flags.sample = true then
              calls ++ [.readRAM (region.place b.displayScrub hot)] else calls) = d := by
            split
            · rw [runCalls_append, hcalls]
              rfl
            · exact hcalls
          split
          · exact ih _ _ _ _ hreads hmoved
          · rename_i hskip
            refine ih _ _ _ _ hreads ?_
            rw [deliver_append]
            refine hP.heal _ _ ram _ hram ?_ hmoved
            simpa using fun hd => hskip (.inr hd)

theorem resyncDisplayed_rule (hP : DeliveryInvariant w P) (b : WriteBuffer) (d : Addr → Byte)
    (screenBase graphicsBase graphicsLength maxBytes : ℕ) (flags : ScrubFlags) (h : P b d) :
    P (b.resyncDisplayed w screenBase graphicsBase graphicsLength maxBytes flags).1
      (runCalls d (b.resyncDisplayed w screenBase graphicsBase graphicsLength maxBytes flags).2)
    := by
  rw [resyncDisplayed]
  split
  · exact h
  · rename_i ram hram
    split
    · exact h
    · dsimp only
      split
      · exact hP.scrub b d _ h
      · obtain ⟨hwalk, hreads⟩ := scrubLoop_rule hP ram hram _ (firstHotBlocks w) _
          (min maxBytes ScpuEmu.chunk) flags _ 0 (b.withScrub _) [] [] d rfl (hP.scrub b d _ h)
        rw [runCalls_append, runCalls_burstCall, hreads]
        exact hP.scrub _ _ _ hwalk

end WriteBuffer

end ScpuEmu
