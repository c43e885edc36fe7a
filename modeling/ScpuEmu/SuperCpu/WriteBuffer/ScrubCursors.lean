import ScpuEmu.SuperCpu.WriteBuffer.DisplayedRepair

/-!
# Where the targeted repair stands

Only the targeted repair moves its cursors, and it keeps each inside its region.
-/

namespace ScpuEmu

open Library

namespace WriteBuffer

variable (b : WriteBuffer) (w : View)

theorem displayScrub_onRamWrite (a : Addr) (v : Byte) :
    (b.onRamWrite w a v).1.displayScrub = b.displayScrub := by
  have hroute : (b.relocateWrite w a).1.displayScrub = b.displayScrub := by
    unfold relocateWrite
    split
    · rfl
    · dsimp only
      split_ifs <;> rfl
  have haccept (b : WriteBuffer) (a : Addr) : (b.accept a v).displayScrub = b.displayScrub := by
    obtain ⟨q, hq, -⟩ := moveDirtyToTail_frame
      { b with pendingValue := Function.update b.pendingValue a v } a
    unfold accept append
    dsimp only
    split_ifs <;> first | rfl | rw [hq]
  unfold onRamWrite
  split
  · rfl
  generalize b.relocateWrite w a = r at hroute
  obtain ⟨b', routed⟩ := r
  cases routed with
  | shielded => exact hroute
  | forward a' =>
      dsimp only
      split_ifs
      · exact hroute
      · exact hroute
      · exact (haccept b' a').trans hroute

theorem displayScrub_invalidateRange (a : Addr) (length : ℕ) :
    (b.invalidateRange w a length).displayScrub = b.displayScrub := by
  unfold invalidateRange
  generalize List.range length = places
  induction places generalizing b with
  | nil => rfl
  | cons i places ih => exact (ih _).trans (displayScrub_onRamWrite b w _ _)

theorem displayScrub_flushSelectedChunk (sel : Selection) (n : ℕ) :
    (b.flushSelectedChunk w sel n).1.displayScrub = b.displayScrub := by
  unfold flushSelectedChunk
  split
  · rfl
  · dsimp only
    split <;> rfl

theorem displayScrub_flushUpToPolicy (n : ℕ) (deferHot : Bool) (screenBase bitmapBase : ℕ) :
    (b.flushUpToPolicy w n deferHot screenBase bitmapBase).1.displayScrub = b.displayScrub := by
  have hloop (fuel : ℕ) :
      (flushPolicyLoop w deferHot screenBase bitmapBase fuel n b).1.displayScrub =
        b.displayScrub := by
    induction fuel generalizing n b with
    | zero => rfl
    | succ fuel ih =>
        have hround := displayScrub_flushSelectedChunk b w
          (displaySelection deferHot screenBase bitmapBase) n
        unfold flushPolicyLoop rememberNoProgress
        dsimp only
        split_ifs
        · rfl
        · exact hround
        · exact hround
        · exact (ih _ _).trans hround
  unfold flushUpToPolicy
  split_ifs
  · rfl
  · rfl
  · rfl
  · exact hloop _

theorem displayScrub_flushRangeUpTo (base len n : ℕ) :
    (b.flushRangeUpTo w base len n).1.displayScrub = b.displayScrub := by
  unfold flushRangeUpTo
  generalize b.queue.count = fuel
  induction fuel generalizing n b with
  | zero => rfl
  | succ fuel ih =>
      have hround := displayScrub_flushSelectedChunk b w (rangeSelection base len) n
      unfold flushRangeLoop
      dsimp only
      split_ifs
      · rfl
      · exact hround
      · exact (ih _ _).trans hround

theorem displayScrub_flush : (b.flush w).1.displayScrub = b.displayScrub := by
  unfold flush
  generalize b.queue.count = fuel
  induction fuel generalizing b with
  | zero => rfl
  | succ fuel ih =>
      have hround : (b.flushUpTo w (chunk * 8)).1.displayScrub = b.displayScrub :=
        displayScrub_flushUpToPolicy b w _ _ _ _
      unfold flushLoop
      dsimp only
      split_ifs
      · exact hround
      · exact (ih _).trans hround

theorem displayScrub_resyncSweep (n : ℕ) : (b.resyncSweep w n).1.displayScrub = b.displayScrub := by
  have hloop (ram : Addr → Byte) (guard : ℕ) (burst : List C64BusWrite) :
      (resyncSweepLoop w ram n guard b burst).1.displayScrub = b.displayScrub := by
    induction guard generalizing b burst with
    | zero => rfl
    | succ guard ih =>
        unfold resyncSweepLoop
        dsimp only
        split_ifs
        · rfl
        · exact ih _ _
        · rfl
        · exact ih _ _
  unfold resyncSweep
  split
  · rfl
  · split_ifs
    · rfl
    · exact hloop _ _ _

theorem displayScrub_scrubLoop (ram : Addr → Byte) (r : ScrubRegion) (hot : List ℕ) {L : ℕ}
    (m : ℕ) (flags : ScrubFlags) (left candidates : ℕ) (burst : List C64BusWrite)
    (calls : List BusCall) (hL : 0 < L) (ho : r.offset b.displayScrub < L) :
    ∃ o < L, (scrubLoop w ram r hot L m flags left candidates b burst calls).1.displayScrub =
      r.setOffset b.displayScrub o := by
  induction left generalizing candidates b burst calls with
  | zero => exact ⟨_, ho, (r.setOffset_offset _).symm⟩
  | succ left ih =>
      rw [scrubLoop]
      split
      · exact ⟨_, ho, (r.setOffset_offset _).symm⟩
      · have hnext (b' : WriteBuffer) (candidates : ℕ) (burst : List C64BusWrite)
            (calls : List BusCall) (hb' : b'.displayScrub =
              r.setOffset b.displayScrub ((r.offset b.displayScrub + 1) % L)) :
            ∃ o < L, (scrubLoop w ram r hot L m flags left candidates b' burst
              calls).1.displayScrub = r.setOffset b.displayScrub o := by
          obtain ⟨o, ho', heq⟩ := ih b' candidates burst calls
            (by rw [hb', ScrubRegion.offset_setOffset]; exact Nat.mod_lt _ hL)
          rw [hb', ScrubRegion.setOffset_setOffset] at heq
          exact ⟨o, ho', heq⟩
        dsimp only
        split_ifs <;> exact hnext _ _ _ _ rfl

theorem inRange_resyncDisplayed (h : b.displayScrub.InRange)
    (screenBase graphicsBase graphicsLength n : ℕ) (flags : ScrubFlags) :
    (b.resyncDisplayed w screenBase graphicsBase graphicsLength n
      flags).1.displayScrub.InRange := by
  let p : Picture := ⟨screenBase, graphicsBase, graphicsLength, firstHotBlocks w⟩
  have hidle (hd : b.displayScrub.InRange)
      (h : w.ram = none ∨ b.bus = false ∨ n = 0) :
      (b.resyncDisplayed w screenBase graphicsBase graphicsLength n flags).1 = b := by
    rw [resyncDisplayed]
    split
    · rfl
    next ram hram => rw [if_pos (by simpa [hram] using h)]
  cases hram : w.ram with
  | none => rwa [hidle h (.inl hram)]
  | some ram =>
      by_cases hstop : b.bus = false ∨ n = 0
      · rwa [hidle h (.inr hstop)]
      by_cases hslots : p.slots = 0
      · have hnone : (b.resyncDisplayed w screenBase graphicsBase graphicsLength n flags).1 =
            b.withScrub (b.displayScrub.retarget p.screenBase p.graphicsBase p.honoured) := by
          rw [resyncDisplayed, hram]
          dsimp only
          rw [if_neg hstop]
          exact congrArg Prod.fst (if_pos hslots)
        rw [hnone]
        exact p.inRange_retarget b.displayScrub h
      obtain ⟨hbus, hn⟩ := not_or.mp hstop
      have hlength := p.length_region_pos (p.turn_lt b.displayScrub hslots)
      have hcursor := p.cursor_lt b.displayScrub h hlength
      obtain ⟨o, ho, heq⟩ := displayScrub_scrubLoop (b.withScrub (p.aimed b.displayScrub)) w ram
        (p.region (p.turn b.displayScrub)) p.hot (min n chunk) flags
        (p.length (p.region (p.turn b.displayScrub))) 0 [] [] hlength
        ((p.offset_aimed b.displayScrub).trans_lt hcursor)
      have hcall := resyncDisplayed_eq p hram (Bool.not_eq_false _ ▸ hbus) hslots rfl hn flags
      have hleft : (b.resyncDisplayed w screenBase graphicsBase graphicsLength n
          flags).1.displayScrub = p.left b.displayScrub o := by
        change (b.resyncDisplayed w p.screenBase p.graphicsBase p.graphicsLength n
          flags).1.displayScrub = _
        rw [hcall]
        exact congrArg (fun d : DisplayScrub =>
          { d with turn := (p.turn b.displayScrub + 1) % p.slots }) heq
      rw [hleft]
      exact p.inRange_left b.displayScrub h ho

/-- In every state a run reaches, the cursors are inside their regions. -/
theorem inRange_step (h : b.displayScrub.InRange) (op : Op) : (b.step op).displayScrub.InRange := by
  have hkept {b' : WriteBuffer} (hb' : b'.displayScrub = b.displayScrub) :
      b'.displayScrub.InRange := hb' ▸ h
  cases op with
  | attach bus => exact DisplayScrub.inRange_reset
  | setOptMode | setDeliveryEnabled | setExcludeZeroPageStack | attachHotShapeBlocks | discard =>
      exact h
  | setRAMUnderIOAccessible accessible =>
      obtain ⟨r, np, heq⟩ := setRAMUnderIOAccessible_frame b accessible
      refine hkept ?_
      change (b.setRAMUnderIOAccessible accessible).displayScrub = _
      rw [heq]
  | onRamWrite w a v => exact hkept (displayScrub_onRamWrite b w a v)
  | moveDirtyToTail a =>
      obtain ⟨q, hq, -⟩ := moveDirtyToTail_frame b a
      refine hkept ?_
      change (b.moveDirtyToTail a).displayScrub = _
      rw [hq]
  | invalidateRange w a length => exact hkept (displayScrub_invalidateRange b w a length)
  | flushUpTo w n => exact hkept (displayScrub_flushUpToPolicy b w n _ _ _)
  | flushUpToPolicy w n deferHot screenBase bitmapBase =>
      exact hkept (displayScrub_flushUpToPolicy b w n deferHot screenBase bitmapBase)
  | flushRangeUpTo w base len n => exact hkept (displayScrub_flushRangeUpTo b w base len n)
  | flush w => exact hkept (displayScrub_flush b w)
  | resyncSweep w n => exact hkept (displayScrub_resyncSweep b w n)
  | resyncDisplayed w screenBase graphicsBase graphicsLength n flags =>
      exact inRange_resyncDisplayed b w h screenBase graphicsBase graphicsLength n flags

theorem inRange_run (pendingValue : Addr → Byte) (list : ℕ → Addr) (ops : List Op) :
    (run step (construct pendingValue list) ops).displayScrub.InRange :=
  run_invariant (P := fun b => b.displayScrub.InRange) step
    (fun b op h => inRange_step b h op) _ ops DisplayScrub.inRange_reset

end WriteBuffer

end ScpuEmu
