import ScpuEmu.SuperCpu.WriteBuffer.SelectiveFlush

/-!
# How much a flush sends

Whatever queue a flush finds, with or without a bus, it sends no more than its budget and
nothing that its selection refuses; every burst carries a byte, and every byte sent leaves
the queue.
-/

namespace ScpuEmu

open Library

namespace WriteBuffer

variable {b b' : WriteBuffer} {w : View} {take : Addr → Bool}

/-- The calls of a flush: within its budget, of its selection, out of the queue. -/
structure SendsWithin (b : WriteBuffer) (take : Addr → Bool) (n : ℕ) (b' : WriteBuffer)
    (calls : List BusCall) : Prop where
  budget : (writes calls).length ≤ n
  taken : ∀ x ∈ writes calls, take x.addr = true
  count : (writes calls).length + b'.queue.count ≤ b.queue.count
  bursts : calls.length ≤ (writes calls).length

theorem sendsWithin_nil (h : b'.queue.count ≤ b.queue.count) (n : ℕ) :
    SendsWithin b take n b' [] where
  budget := Nat.zero_le n
  taken _ hx := nomatch hx
  count := by rwa [writes_nil, List.length_nil, Nat.zero_add]
  bursts := le_refl _

theorem flushSelectedChunk_within (h : Represents b) (w : View) (sel : Selection) (n : ℕ) :
    (b.flushSelectedChunk w sel n).2.length ≤ n ∧
      ∀ x ∈ (b.flushSelectedChunk w sel n).2, sel.take w x.addr = true := by
  obtain ⟨q, g, np, heq, -, -, -⟩ := flushSelectedChunk_cases h w sel n
  rw [heq, chunkSelection]
  split
  next => exact ⟨Nat.zero_le n, fun x hx => absurd hx List.not_mem_nil⟩
  next =>
    rw [selected_eq_take_filter]
    constructor
    · rw [List.length_map, List.length_take]
      omega
    · intro x hx
      obtain ⟨a, ha, rfl⟩ := List.mem_map.mp hx
      exact (List.mem_filter.mp (List.mem_of_mem_take ha)).2

/-- One burst that carries something, then the others. -/
theorem SendsWithin.cons (h : Represents b) {sel : Selection} {n : ℕ} {calls : List BusCall}
    (hsent : (b.flushSelectedChunk w sel n).2.length ≠ 0)
    (hrest : SendsWithin (b.flushSelectedChunk w sel n).1 (sel.take w)
      (n - (b.flushSelectedChunk w sel n).2.length) b' calls) :
    SendsWithin b (sel.take w) n b'
      (.writeBurst (b.flushSelectedChunk w sel n).2 :: calls) := by
  obtain ⟨hlength, htaken⟩ := flushSelectedChunk_within h w sel n
  have hcount := flushSelectedChunk_count h w sel n
  have hbudget := hrest.budget
  have hbursts := hrest.bursts
  have hqueue := hrest.count
  constructor
  · rw [writes_writeBurst, List.length_append]
    omega
  · intro x hx
    rw [writes_writeBurst, List.mem_append] at hx
    exact hx.elim (htaken x) (hrest.taken x)
  · rw [writes_writeBurst, List.length_append]
    omega
  · rw [writes_writeBurst, List.length_append, List.length_cons]
    omega

theorem flushPolicyLoop_within (h : Represents b) (w : View) (deferHot : Bool)
    (screenBase bitmapBase fuel n : ℕ) :
    SendsWithin b ((displaySelection deferHot screenBase bitmapBase).take w) n
      (flushPolicyLoop w deferHot screenBase bitmapBase fuel n b).1
      (flushPolicyLoop w deferHot screenBase bitmapBase fuel n b).2 := by
  induction fuel generalizing n b with
  | zero => exact sendsWithin_nil (le_refl _) n
  | succ fuel ih =>
      rw [flushPolicyLoop]
      split
      next => exact sendsWithin_nil (le_refl _) n
      next =>
        dsimp only
        split
        next =>
          obtain ⟨np, hnp⟩ := entries_rememberNoProgress
            (b.flushSelectedChunk w (displaySelection deferHot screenBase bitmapBase) n).1 w
            deferHot screenBase bitmapBase
          have hcount := flushSelectedChunk_count h w
            (displaySelection deferHot screenBase bitmapBase) n
          rw [hnp]
          exact sendsWithin_nil (by dsimp only; omega) n
        next hsent => exact SendsWithin.cons h hsent (ih (h.flushSelectedChunk w _ n) _)

theorem flushRangeLoop_within (h : Represents b) (w : View) (base len fuel n : ℕ) :
    SendsWithin b (fun a => addressInRange a base len) n (flushRangeLoop w base len fuel n b).1
      (flushRangeLoop w base len fuel n b).2 := by
  rw [← take_range w]
  induction fuel generalizing n b with
  | zero => exact sendsWithin_nil (le_refl _) n
  | succ fuel ih =>
      rw [flushRangeLoop]
      split
      next => exact sendsWithin_nil (le_refl _) n
      next =>
        have hcount := flushSelectedChunk_count h w (rangeSelection base len) n
        dsimp only
        split
        next => exact sendsWithin_nil (by dsimp only; omega) n
        next hsent => exact SendsWithin.cons h hsent (ih (h.flushSelectedChunk w _ n) _)

theorem flushUpToPolicy_within (h : Represents b) (w : View) (n : ℕ) (deferHot : Bool)
    (screenBase bitmapBase : ℕ) :
    SendsWithin b ((displaySelection deferHot screenBase bitmapBase).take w) n
      (b.flushUpToPolicy w n deferHot screenBase bitmapBase).1
      (b.flushUpToPolicy w n deferHot screenBase bitmapBase).2 := by
  rw [flushUpToPolicy]
  split
  next => exact sendsWithin_nil (le_refl _) n
  next =>
    split
    next => exact sendsWithin_nil (le_refl _) n
    next =>
      split
      next => exact sendsWithin_nil (Nat.zero_le _) n
      next => exact flushPolicyLoop_within h w deferHot screenBase bitmapBase _ n

/-- What the policy refuses: the first 1000 bytes of the matrix, the first 8000 of the bitmap
and, if so asked, the hot blocks. -/
theorem take_displaySelection {deferHot : Bool} {screenBase bitmapBase : ℕ} {a : Addr}
    (h : (displaySelection deferHot screenBase bitmapBase).take w a = true) :
    ¬(screenBase ≤ a.toNat ∧ a.toNat < screenBase + 1000) ∧
      ¬(bitmapBase ≤ a.toNat ∧ a.toNat < bitmapBase + 8000) ∧
      (deferHot = true → isHot w a = false) := by
  rw [Selection.take, displaySelection] at h
  simp only [Bool.false_eq_true, if_false, Bool.and_eq_true, Bool.not_eq_true',
    Bool.or_eq_false_iff, Bool.and_eq_false_iff] at h
  obtain ⟨⟨hscreen, hbitmap⟩, hhot⟩ := h
  rw [← Bool.not_eq_true, addressInRange_iff] at hscreen hbitmap
  refine ⟨hscreen, hbitmap, fun hdefer => ?_⟩
  rcases hhot with hhot | hhot
  · rw [hdefer] at hhot
    cases hhot
  · exact hhot

end WriteBuffer

end ScpuEmu
