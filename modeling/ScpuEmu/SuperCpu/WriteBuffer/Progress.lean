import ScpuEmu.SuperCpu.WriteBuffer.Representation

/-!
# The flush loops end

Each round of a flush loop that goes on has sent at least one entry, so the
number of entries at the start bounds the rounds: more fuel than that changes
nothing. A complete flush leaves an empty queue.
-/

namespace ScpuEmu

open Library

namespace WriteBuffer

variable {b : WriteBuffer}

theorem flushSelectedChunk_count (h : Represents b) (w : View) (sel : Selection) (n : ℕ) :
    (b.flushSelectedChunk w sel n).2.length + (b.flushSelectedChunk w sel n).1.queue.count =
      b.queue.count := by
  have hlen := (flushSelectedChunk_perm h w sel n).length_eq
  simpa using hlen

theorem flushPolicyLoop_fuel (h : Represents b) (w : View) (deferHot : Bool)
    (screenBase bitmapBase budget fuel fuel' : ℕ) (hf : b.queue.count ≤ fuel)
    (hf' : b.queue.count ≤ fuel') :
    flushPolicyLoop w deferHot screenBase bitmapBase fuel budget b =
      flushPolicyLoop w deferHot screenBase bitmapBase fuel' budget b := by
  induction fuel generalizing b budget fuel' with
  | zero => cases fuel' <;> simp [flushPolicyLoop, Nat.le_zero.mp hf]
  | succ fuel ih =>
      cases fuel' with
      | zero => simp [flushPolicyLoop, Nat.le_zero.mp hf']
      | succ fuel' =>
          have hcount := flushSelectedChunk_count h w
            (displaySelection deferHot screenBase bitmapBase) budget
          have hround := h.flushSelectedChunk w
            (displaySelection deferHot screenBase bitmapBase) budget
          rw [flushPolicyLoop, flushPolicyLoop]
          split
          · rfl
          · dsimp only
            split
            · rfl
            · rw [ih hround _ fuel' (by omega) (by omega)]

theorem flushRangeLoop_fuel (h : Represents b) (w : View) (base len budget fuel fuel' : ℕ)
    (hf : b.queue.count ≤ fuel) (hf' : b.queue.count ≤ fuel') :
    flushRangeLoop w base len fuel budget b = flushRangeLoop w base len fuel' budget b := by
  induction fuel generalizing b budget fuel' with
  | zero => cases fuel' <;> simp [flushRangeLoop, Nat.le_zero.mp hf]
  | succ fuel ih =>
      cases fuel' with
      | zero => simp [flushRangeLoop, Nat.le_zero.mp hf']
      | succ fuel' =>
          have hcount := flushSelectedChunk_count h w (rangeSelection base len) budget
          have hround := h.flushSelectedChunk w (rangeSelection base len) budget
          rw [flushRangeLoop, flushRangeLoop]
          split
          · rfl
          · dsimp only
            split
            · rfl
            · rw [ih hround _ fuel' (by omega) (by omega)]

/-- No flush path grows the queue. -/
theorem countLe_deliveryInvariant (w : View) (bound : ℕ) :
    DeliveryInvariant w fun b _ => Represents b ∧ b.queue.count ≤ bound where
  chunk b _ sel n h := by
    have hcount := flushSelectedChunk_count h.1 w sel n
    exact ⟨h.1.flushSelectedChunk w sel n, by omega⟩
  remember b d deferHot screenBase bitmapBase n h hc hn hbus := by
    intro round hnone
    have hcount : round.2.length + round.1.queue.count = b.queue.count :=
      flushSelectedChunk_count h.1 w (displaySelection deferHot screenBase bitmapBase) n
    have hqueue : (round.1.rememberNoProgress w deferHot screenBase bitmapBase).queue =
        round.1.queue := by
      rw [rememberNoProgress]
      split <;> rfl
    refine ⟨(represents_deliveryInvariant w).remember b d deferHot screenBase bitmapBase n h.1 hc
      hn hbus hnone, ?_⟩
    rw [hqueue]
    exact le_trans (by omega) h.2
  drop b d hbus h := ⟨(represents_deliveryInvariant w).drop b d hbus h.1, Nat.zero_le _⟩
  cursor b d h := ⟨(represents_deliveryInvariant w).cursor b d h.1, h.2⟩
  scrub b d s h := ⟨(represents_deliveryInvariant w).scrub b d s h.1, h.2⟩
  heal b d ram a hram hclean h :=
    ⟨(represents_deliveryInvariant w).heal b d ram a hram hclean h.1, h.2⟩

theorem noProgressCache_misses (h : Represents b) (w : View) :
    b.noProgressCacheMatches w false 0xFFFFFFFF 0xFFFFFFFF = false := by
  by_contra hmatch
  simp only [noProgressCacheMatches, Bool.not_eq_false, Bool.and_eq_true, beq_iff_eq] at hmatch
  obtain ⟨⟨⟨⟨⟨hvalid, -⟩, hdefer⟩, hscreen⟩, hbitmap⟩, -⟩ := hmatch
  rcases h.refuses hvalid with hd | hs | hb
  · rw [hdefer] at hd
    cases hd
  · omega
  · omega

/-- A flush without display policy sends something as long as something is queued. -/
theorem flushUpTo_count_lt (h : Represents b) (w : View) (n : ℕ) (hcount : b.queue.count ≠ 0)
    (hn : n ≠ 0) : (b.flushUpTo w n).1.queue.count < b.queue.count := by
  rw [flushUpTo, flushUpToPolicy, if_neg (by simp [hcount, hn]),
    if_neg (by simp [noProgressCache_misses h w])]
  split
  · exact Nat.pos_of_ne_zero hcount
  · rename_i hbus
    have hbus : b.bus = true := Bool.not_eq_false _ ▸ hbus
    obtain ⟨fuel, hfuel⟩ : ∃ fuel, b.queue.count = fuel + 1 := ⟨b.queue.count - 1, by omega⟩
    have hround := flushSelectedChunk_count h w (displaySelection false 0xFFFFFFFF 0xFFFFFFFF) n
    have hkept := h.flushSelectedChunk w (displaySelection false 0xFFFFFFFF 0xFFFFFFFF) n
    have hsent : (b.flushSelectedChunk w (displaySelection false 0xFFFFFFFF 0xFFFFFFFF) n).2 ≠ []
        := by
      intro hnone
      have hrefuses :=
        displaySelection_refuses h w false 0xFFFFFFFF 0xFFFFFFFF n hcount hn hbus hnone
      simp at hrefuses
    have hpos := List.length_pos_of_ne_nil hsent
    rw [hfuel, flushPolicyLoop, if_neg (by simp [hcount, hn]), ← hfuel]
    dsimp only
    rw [if_neg (by omega)]
    have hrest := flushPolicyLoop_rule
      (countLe_deliveryInvariant w
        (b.flushSelectedChunk w (displaySelection false 0xFFFFFFFF 0xFFFFFFFF) n).1.queue.count)
      false 0xFFFFFFFF 0xFFFFFFFF fuel
      (n - (b.flushSelectedChunk w (displaySelection false 0xFFFFFFFF 0xFFFFFFFF) n).2.length)
      _ (fun _ => 0) ((flushSelectedChunk_bus b w _ n).trans hbus) ⟨hkept, le_refl _⟩
    exact lt_of_le_of_lt hrest.2 (by omega)

theorem flushLoop_empties (h : Represents b) (w : View) (fuel : ℕ) (hf : b.queue.count ≤ fuel) :
    (flushLoop w fuel b).1.queue.count = 0 := by
  induction fuel generalizing b with
  | zero => exact Nat.le_zero.mp hf
  | succ fuel ih =>
      rw [flushLoop]
      dsimp only
      split
      · assumption
      · rename_i hleft
        have hround : Represents (b.flushUpTo w (chunk * 8)).1 :=
          flushUpTo_rule (represents_deliveryInvariant w) b (fun _ => 0) _ h
        have hcount : b.queue.count ≠ 0 := by
          intro hzero
          rw [flushUpTo, flushUpToPolicy, if_pos (.inl hzero)] at hleft
          exact hleft hzero
        have hlt := flushUpTo_count_lt h w (chunk * 8) hcount (by decide)
        exact ih hround (by omega)

/-- A complete flush leaves nothing queued. -/
theorem flush_empties (h : Represents b) (w : View) : (b.flush w).1.queue.count = 0 :=
  flushLoop_empties h w _ (le_refl _)

end WriteBuffer

end ScpuEmu
