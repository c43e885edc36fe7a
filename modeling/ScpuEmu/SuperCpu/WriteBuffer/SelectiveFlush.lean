import ScpuEmu.SuperCpu.WriteBuffer.BoundedDelivery
import ScpuEmu.SuperCpu.WriteBuffer.Coherence
import ScpuEmu.SuperCpu.WriteBuffer.NoProgressCache
import ScpuEmu.SuperCpu.WriteBuffer.Settings

/-!
# Flushing a selection of the queue

A flush by display policy or by range takes the entries that it may send from the front of
the queue, in bursts of at most 512 bytes, and keeps the others. What one burst takes and
leaves is stated once; two flushes in a row take what one with both budgets takes, and from
this follows what the two loops of bursts do.
-/

namespace ScpuEmu

open Library

/-- The bytes that bus calls write, in order. -/
def writes (calls : List BusCall) : List C64BusWrite :=
  calls.flatMap fun call =>
    match call with
    | .writeBurst burst => burst
    | .readRAM _ => []

@[simp] theorem writes_nil : writes [] = [] := rfl

@[simp] theorem writes_writeBurst (burst : List C64BusWrite) (calls : List BusCall) :
    writes (.writeBurst burst :: calls) = burst ++ writes calls := rfl

namespace WriteBuffer

/-! ### The first entries of a selection -/

/-- The queue entries that `take` selects, in order. -/
def eligible (b : WriteBuffer) (take : Addr → Bool) : List Addr := b.entries.filter take

/-- The first `n` entries that `take` selects are sent with their staged values, in bursts,
and no longer queued; everything else is. -/
structure SendsFirst (b : WriteBuffer) (w : View) (take : Addr → Bool) (n : ℕ)
    (b' : WriteBuffer) (calls : List BusCall) : Prop where
  sent : writes calls = ((b.eligible take).take n).map (b.stage w)
  bursts : ∀ call ∈ calls, ∃ burst, call = .writeBurst burst ∧ burst.length ≤ chunk
  perm : ((b.eligible take).take n ++ b'.entries).Perm b.entries
  rest : b'.eligible take = (b.eligible take).drop n
  cleared : ∀ a, b'.isDirty a = (b.isDirty a && !decide (a ∈ (b.eligible take).take n))
  staged : b'.pendingValue = b.pendingValue

section Selective

variable {b b₁ b₂ : WriteBuffer} {w : View} {take : Addr → Bool}

theorem sendsFirst_of_nil {n : ℕ} (h : (b.eligible take).take n = [])
    (hrest : (b.eligible take).drop n = b.eligible take) : SendsFirst b w take n b [] := by
  constructor
  · rw [h]
    rfl
  · intro call hcall
    cases hcall
  · rw [h]
    exact .refl _
  · exact hrest.symm
  · intro a
    rw [h]
    simp
  · rfl

/-- A spent budget sends nothing. -/
theorem sendsFirst_zero : SendsFirst b w take 0 b [] :=
  sendsFirst_of_nil rfl rfl

/-- Where nothing may be sent, no budget sends anything. -/
theorem sendsFirst_of_refused (h : ∀ a ∈ b.entries, take a = false) (n : ℕ) :
    SendsFirst b w take n b [] := by
  have hnil : b.eligible take = [] := List.filter_eq_nil_iff.mpr fun a ha => by simp [h a ha]
  exact sendsFirst_of_nil (by rw [hnil, List.take_nil]) (by rw [hnil, List.drop_nil])

theorem SendsFirst.trans {n k : ℕ} {calls calls' : List BusCall}
    (h : SendsFirst b w take n b₁ calls) (h' : SendsFirst b₁ w take k b₂ calls') :
    SendsFirst b w take (n + k) b₂ (calls ++ calls') := by
  have htake : (b.eligible take).take (n + k) =
      (b.eligible take).take n ++ (b₁.eligible take).take k := by
    rw [h.rest, List.take_add]
  have hstage : b₁.stage w = b.stage w := by
    funext a
    rw [stage, stage, h.staged]
  constructor
  · rw [writes, List.flatMap_append, htake, List.map_append, ← h.sent, ← hstage, ← h'.sent]
    rfl
  · intro call hcall
    rcases List.mem_append.mp hcall with hcall | hcall
    · exact h.bursts call hcall
    · exact h'.bursts call hcall
  · rw [htake, List.append_assoc]
    exact (h'.perm.append_left _).trans h.perm
  · rw [h'.rest, h.rest, List.drop_drop]
  · intro a
    rw [h'.cleared, h.cleared, htake]
    simp only [List.mem_append, Bool.decide_or, Bool.not_or, Bool.and_assoc]
  · exact h'.staged.trans h.staged

/-! ### One burst -/

/-- One chunk sends the first eligible entries, as many as fit. -/
theorem flushSelectedChunk_sends (h : Represents b) (w : View) (sel : Selection) {n : ℕ}
    (hcount : b.queue.count ≠ 0) (hn : n ≠ 0) (hbus : b.bus = true) :
    let round := b.flushSelectedChunk w sel n
    round.2.length = min (min n chunk) (b.eligible (sel.take w)).length ∧
      SendsFirst b w (sel.take w) round.2.length round.1 [.writeBurst round.2] := by
  intro round
  obtain ⟨q, g, np, heq, hperm, -, -⟩ := flushSelectedChunk_cases h w sel n
  obtain ⟨-, hentries⟩ := entries_flushSelectedChunk h w sel n
  have hselection : b.chunkSelection w sel n = (b.eligible (sel.take w)).take (min n chunk) := by
    rw [chunkSelection, if_neg (by simp [hcount, hn, hbus]), selected_eq_take_filter]
    rfl
  have hlength : round.2.length = min (min n chunk) (b.eligible (sel.take w)).length := by
    change (b.flushSelectedChunk w sel n).2.length = _
    rw [heq, List.length_map, hselection, List.length_take]
  have htake : (b.eligible (sel.take w)).take round.2.length = b.chunkSelection w sel n := by
    rw [hlength, hselection, List.take_eq_take_iff]
    omega
  refine ⟨hlength, ?_, ?_, ?_, ?_, ?_, ?_⟩
  · rw [htake, writes_writeBurst, writes_nil, List.append_nil]
    exact congrArg Prod.snd heq
  · intro call hcall
    refine ⟨round.2, List.mem_singleton.mp hcall, ?_⟩
    rw [hlength]
    omega
  · rw [htake]
    change (_ ++ (b.flushSelectedChunk w sel n).1.entries).Perm _
    rw [heq]
    exact hperm
  · change (b.flushSelectedChunk w sel n).1.entries.filter (sel.take w) = _
    rw [hentries hcount hn hbus, List.filter_append, filter_untouched, filter_deferred,
      List.append_nil, hlength]
    change List.drop _ (b.eligible (sel.take w)) = _
    rcases Nat.le_total (min n chunk) (b.eligible (sel.take w)).length with hle | hle
    · rw [Nat.min_eq_left hle]
    · rw [Nat.min_eq_right hle, List.drop_of_length_le hle, List.drop_of_length_le le_rfl]
  · intro a
    rw [htake]
    change (b.flushSelectedChunk w sel n).1.isDirty a = _
    rw [heq]
    change WordBitmap.test (List.foldl _ _ _) a.toNat = _
    rw [WordBitmap.test_foldl_erase (by decide), Bool.and_comm]
    simp only [toNat_mem_map]
    rfl
  · change (b.flushSelectedChunk w sel n).1.pendingValue = _
    rw [heq]

/-! ### The loops of bursts -/

/-- One burst, then what the rest of the budget sends. -/
theorem SendsFirst.cons {n r : ℕ} {burst : List C64BusWrite} {calls : List BusCall} (hr : r ≤ n)
    (h : SendsFirst b w take r b₁ [.writeBurst burst])
    (h' : SendsFirst b₁ w take (n - r) b₂ calls) :
    SendsFirst b w take n b₂ (.writeBurst burst :: calls) := by
  have hboth := h.trans h'
  rwa [Nat.add_sub_cancel' hr] at hboth

/-- A burst of no bytes had nothing to send. -/
theorem sendsFirst_of_empty_round {n : ℕ} {round : List C64BusWrite} (hn : n ≠ 0)
    (hlength : round.length = min (min n chunk) (b.eligible take).length)
    (hround : SendsFirst b w take round.length b₁ [.writeBurst round])
    (hnone : round.length = 0) (k : ℕ) : SendsFirst b w take k b₁ [] := by
  have hnil : b.eligible take = [] := by
    rw [← List.length_eq_zero_iff]
    rw [chunk] at hlength
    omega
  have hempty : round = [] := List.length_eq_zero_iff.mp hnone
  obtain ⟨hsent, -, hperm, hrest, hcleared, hstaged⟩ := hround
  rw [hnil, List.take_nil] at hperm hcleared
  rw [hnil, List.drop_nil] at hrest
  refine ⟨?_, by simp, ?_, ?_, ?_, hstaged⟩
  · rw [hnil, List.take_nil]
    rfl
  · rwa [hnil, List.take_nil]
  · rwa [hnil, List.drop_nil]
  · rwa [hnil, List.take_nil]

theorem entries_rememberNoProgress (b : WriteBuffer) (w : View) (deferHot : Bool)
    (screenBase bitmapBase : ℕ) :
    ∃ np, b.rememberNoProgress w deferHot screenBase bitmapBase = { b with noProgress := np } := by
  rw [rememberNoProgress]
  split
  · exact ⟨_, rfl⟩
  · exact ⟨b.noProgress, rfl⟩

/-- Remembering that nothing was sent leaves the queue alone. -/
theorem SendsFirst.remember {n : ℕ} {calls : List BusCall} (h : SendsFirst b w take n b₁ calls)
    (deferHot : Bool) (screenBase bitmapBase : ℕ) :
    SendsFirst b w take n (b₁.rememberNoProgress w deferHot screenBase bitmapBase) calls := by
  obtain ⟨np, hnp⟩ := entries_rememberNoProgress b₁ w deferHot screenBase bitmapBase
  rw [hnp]
  exact ⟨h.sent, h.bursts, h.perm, h.rest, h.cleared, h.staged⟩

theorem sendsFirst_of_stop {n : ℕ} (h : b.queue.count = 0 ∨ n = 0) :
    SendsFirst b w take n b [] := by
  rcases h with hempty | hspent
  · have hnil : b.entries = [] := RingBuffer.toList_eq_nil b.queue hempty
    exact sendsFirst_of_refused (by rw [hnil]; nofun) n
  · rw [hspent]
    exact sendsFirst_zero

theorem flushPolicyLoop_sends (w : View) (deferHot : Bool) (screenBase bitmapBase fuel n : ℕ)
    (h : Represents b) (hbus : b.bus = true) (hfuel : b.queue.count ≤ fuel) :
    let flushed := flushPolicyLoop w deferHot screenBase bitmapBase fuel n b
    SendsFirst b w ((displaySelection deferHot screenBase bitmapBase).take w) n flushed.1
      flushed.2 := by
  induction fuel generalizing n b with
  | zero => exact sendsFirst_of_stop (.inl (Nat.le_zero.mp hfuel))
  | succ fuel ih =>
      rw [flushPolicyLoop]
      by_cases hstop : b.queue.count = 0 ∨ n = 0
      · rw [if_pos hstop]
        exact sendsFirst_of_stop hstop
      rw [if_neg hstop]
      rw [not_or] at hstop
      obtain ⟨hlength, hround⟩ := flushSelectedChunk_sends h w
        (displaySelection deferHot screenBase bitmapBase) hstop.1 hstop.2 hbus
      have hkept := h.flushSelectedChunk w (displaySelection deferHot screenBase bitmapBase) n
      have hattached := (flushSelectedChunk_bus b w
        (displaySelection deferHot screenBase bitmapBase) n).trans hbus
      have hcount := flushSelectedChunk_count h w
        (displaySelection deferHot screenBase bitmapBase) n
      generalize b.flushSelectedChunk w (displaySelection deferHot screenBase bitmapBase) n =
        round at *
      dsimp only
      split
      next hnone =>
        exact (sendsFirst_of_empty_round hstop.2 hlength hround hnone n).remember _ _ _
      next hsome =>
        refine hround.cons (by omega) (ih (n - round.2.length) hkept hattached ?_)
        omega

/-- A flush by display policy sends the first entries that the policy lets through. -/
theorem flushUpToPolicy_sends {wiring : HotWiring} {shape : BitVec 32 → WordBitmap 64}
    (h : CacheSound wiring shape b) (hw : wiring.Reaches shape w) (hbus : b.bus = true) (n : ℕ)
    (deferHot : Bool) (screenBase bitmapBase : ℕ) :
    let flushed := b.flushUpToPolicy w n deferHot screenBase bitmapBase
    SendsFirst b w ((displaySelection deferHot screenBase bitmapBase).take w) n flushed.1
      flushed.2 := by
  intro flushed
  change SendsFirst b w _ n (b.flushUpToPolicy w n deferHot screenBase bitmapBase).1
    (b.flushUpToPolicy w n deferHot screenBase bitmapBase).2
  rw [flushUpToPolicy]
  split
  next hstop => exact sendsFirst_of_stop hstop
  next =>
    split
    next hmatch => exact sendsFirst_of_refused (h.refuses hw hmatch) n
    next =>
      rw [if_neg (by simp [hbus])]
      exact flushPolicyLoop_sends w deferHot screenBase bitmapBase _ n h.represents hbus le_rfl

/-! ### Pending bytes of a range -/

theorem addressInRange_iff {a : Addr} {base len : ℕ} :
    addressInRange a base len = true ↔ base ≤ a.toNat ∧ a.toNat < base + len := by
  simp only [addressInRange, Bool.and_eq_true, decide_eq_true_eq]
  have ha := a.isLt
  omega

theorem getLsbD_highMask (bits : BitVec 64) (k i : ℕ) (hi : i < 64) :
    (bits &&& (BitVec.allOnes 64 <<< k)).getLsbD i = (bits.getLsbD i && decide (k ≤ i)) := by
  rw [BitVec.getLsbD_and, BitVec.getLsbD_shiftLeft, BitVec.getLsbD_allOnes]
  by_cases hk : k ≤ i
  · simp [hi, hk, Nat.not_lt.mpr hk, show i - k < 64 by omega]
  · simp [hk, Nat.lt_of_not_le hk]

theorem getLsbD_lowMask (bits : BitVec 64) (k i : ℕ) (hk : k < 64) :
    (bits &&& ((1#64 <<< k) - 1)).getLsbD i = (bits.getLsbD i && decide (i < k)) := by
  have hmask : ((1#64 <<< k) - 1#64).toNat = 2 ^ k - 1 := by
    have hpow : 2 ^ k < 2 ^ 64 := Nat.pow_lt_pow_right (by omega) hk
    have hone : 1 ≤ 2 ^ k := Nat.one_le_two_pow
    rw [BitVec.toNat_sub, BitVec.toNat_shiftLeft, BitVec.toNat_ofNat, Nat.shiftLeft_eq]
    rw [Nat.mod_eq_of_lt (a := 1) (by omega), Nat.one_mul, Nat.mod_eq_of_lt hpow]
    omega
  rw [BitVec.getLsbD_and]
  congr 1
  change (BitVec.toNat ((1#64 <<< k) - 1#64)).testBit i = _
  rw [hmask, Nat.testBit_two_pow_sub_one]

/-- The two masks cut a word down to the bits of the range. -/
theorem getLsbD_window (bits : BitVec 64) (p q : Prop) [Decidable p] [Decidable q] (k m i : ℕ)
    (hm : m < 64) (hi : i < 64) :
    (if q then (if p then bits &&& (BitVec.allOnes 64 <<< k) else bits) &&& ((1#64 <<< m) - 1)
      else if p then bits &&& (BitVec.allOnes 64 <<< k) else bits).getLsbD i = true ↔
      bits.getLsbD i = true ∧ (p → k ≤ i) ∧ (q → i < m) := by
  have hhigh : (if p then bits &&& (BitVec.allOnes 64 <<< k) else bits).getLsbD i = true ↔
      bits.getLsbD i = true ∧ (p → k ≤ i) := by
    split
    next hp =>
      rw [getLsbD_highMask bits k i hi, Bool.and_eq_true, decide_eq_true_iff]
      simp only [hp, forall_const]
    next hp => simp only [hp, false_imp_iff, and_true]
  split
  next hq =>
    rw [getLsbD_lowMask _ m i hm, Bool.and_eq_true, hhigh, decide_eq_true_iff, and_assoc]
    simp only [hq, forall_const]
  next hq =>
    rw [hhigh]
    simp only [hq, false_imp_iff, and_true]

theorem ne_zero_iff_getLsbD (bits : BitVec 64) :
    bits ≠ 0 ↔ ∃ i, i < 64 ∧ bits.getLsbD i = true := by
  constructor
  · intro hne
    by_contra hall
    apply hne
    apply BitVec.eq_of_getLsbD_eq
    intro i hi
    have hbit : ¬bits.getLsbD i = true := fun h => hall ⟨i, hi, h⟩
    simpa using hbit
  · rintro ⟨i, -, hbit⟩ rfl
    simp at hbit

/-- Some byte of the range is queued, as the words of the bitmap tell. -/
theorem hasPendingInRange_iff (b : WriteBuffer) {base len : ℕ} (hsum : base + len < 2 ^ 32) :
    b.hasPendingInRange base len = true ↔
      ∃ a : Addr, b.isDirty a = true ∧ base ≤ a.toNat ∧ a.toNat < base + len := by
  rw [hasPendingInRange]
  by_cases houtside : 0x10000 ≤ base ∨ len = 0
  · rw [if_pos houtside]
    constructor
    · nofun
    · rintro ⟨a, -, hlow, hhigh⟩
      have ha := a.isLt
      omega
  rw [if_neg houtside]
  dsimp only
  rw [Nat.mod_eq_of_lt hsum]
  generalize hstop : (if 0x10000 < base + len then 0x10000 else base + len) = stop
  have hlast : (stop + (2 ^ 32 - 1)) % 2 ^ 32 = stop - 1 := by
    split at hstop <;> omega
  rw [hlast, List.any_eq_true]
  constructor
  · rintro ⟨word, hword, hbits⟩
    rw [List.mem_range'_1] at hword
    rw [decide_eq_true_iff, ne_zero_iff_getLsbD] at hbits
    obtain ⟨i, hi, hbit⟩ := hbits
    rw [getLsbD_window _ _ _ _ _ i (Nat.mod_lt _ (by omega)) hi] at hbit
    obtain ⟨hbit, hfirst, hfinal⟩ := hbit
    have hplace : (word * 64 + i) / 64 = word ∧ (word * 64 + i) % 64 = i := by omega
    have hbounds : base ≤ word * 64 + i ∧ word * 64 + i < stop := by
      split at hstop <;> omega
    have hnat : (BitVec.ofNat 16 (word * 64 + i)).toNat = word * 64 + i := by
      rw [BitVec.toNat_ofNat, Nat.mod_eq_of_lt]
      split at hstop <;> omega
    refine ⟨BitVec.ofNat 16 (word * 64 + i), ?_, ?_, ?_⟩
    · rw [isDirty, hnat, WordBitmap.test_eq_getLsbD, hplace.1, hplace.2]
      exact hbit
    · omega
    · rw [hnat]
      split at hstop <;> omega
  · rintro ⟨a, hdirty, hlow, hhigh⟩
    have ha := a.isLt
    have hbelow : a.toNat < stop := by
      split at hstop <;> omega
    refine ⟨a.toNat / 64, ?_, ?_⟩
    · rw [List.mem_range'_1]
      omega
    rw [decide_eq_true_iff, ne_zero_iff_getLsbD]
    refine ⟨a.toNat % 64, Nat.mod_lt _ (by omega), ?_⟩
    rw [getLsbD_window _ _ _ _ _ _ (Nat.mod_lt _ (by omega)) (Nat.mod_lt _ (by omega))]
    rw [isDirty, WordBitmap.test_eq_getLsbD] at hdirty
    exact ⟨hdirty, by omega, by omega⟩

theorem take_range (w : View) (base len : ℕ) :
    (rangeSelection base len).take w = fun a => addressInRange a base len :=
  funext take_rangeSelection

/-- A range without pending bytes holds no queue entry. -/
theorem eligible_of_not_pending (h : Represents b) {base len : ℕ} (hsum : base + len < 2 ^ 32)
    (hnone : b.hasPendingInRange base len = false) :
    ∀ a ∈ b.entries, addressInRange a base len = false := by
  intro a ha
  by_contra hin
  rw [Bool.not_eq_false, addressInRange_iff] at hin
  have hpending := (hasPendingInRange_iff b hsum).mpr ⟨a, (h.mem_iff a).mp ha, hin⟩
  rw [hnone] at hpending
  cases hpending

/-- A flush of a range sends the first entries of the range. -/
theorem flushRangeLoop_sends (w : View) {base len : ℕ} (hsum : base + len < 2 ^ 32) (fuel n : ℕ)
    (h : Represents b) (hbus : b.bus = true) (hfuel : b.queue.count ≤ fuel) :
    let flushed := flushRangeLoop w base len fuel n b
    SendsFirst b w (fun a => addressInRange a base len) n flushed.1 flushed.2 := by
  induction fuel generalizing n b with
  | zero => exact sendsFirst_of_stop (.inl (Nat.le_zero.mp hfuel))
  | succ fuel ih =>
      rw [flushRangeLoop]
      by_cases hstop : b.queue.count = 0 ∨ n = 0
      · rw [if_pos (hstop.imp_right Or.inl)]
        exact sendsFirst_of_stop hstop
      by_cases hpending : b.hasPendingInRange base len = false
      · rw [if_pos (.inr (.inr hpending))]
        exact sendsFirst_of_refused (eligible_of_not_pending h hsum hpending) n
      rw [if_neg (by tauto)]
      rw [not_or] at hstop
      obtain ⟨hlength, hround⟩ :=
        flushSelectedChunk_sends h w (rangeSelection base len) hstop.1 hstop.2 hbus
      have hkept := h.flushSelectedChunk w (rangeSelection base len) n
      have hattached := (flushSelectedChunk_bus b w (rangeSelection base len) n).trans hbus
      have hcount := flushSelectedChunk_count h w (rangeSelection base len) n
      rw [take_range] at hlength hround
      generalize b.flushSelectedChunk w (rangeSelection base len) n = round at *
      dsimp only
      split
      next hnone => exact sendsFirst_of_empty_round hstop.2 hlength hround hnone n
      next hsome =>
        refine hround.cons (by omega) (ih (n - round.2.length) hkept hattached ?_)
        omega

/-! ### A complete flush -/

theorem flushUpTo_sends (h : Represents b) (w : View) (hbus : b.bus = true) (n : ℕ) :
    SendsFirst b w (fun _ => true) n (b.flushUpTo w n).1 (b.flushUpTo w n).2 := by
  have htake : (displaySelection false 0xFFFFFFFF 0xFFFFFFFF).take w = fun _ => true :=
    funext take_fifo
  rw [flushUpTo, flushUpToPolicy]
  split
  next hstop => exact sendsFirst_of_stop hstop
  next =>
    rw [noProgressCache_misses h w, if_neg (by simp), if_neg (by simp [hbus]), ← htake]
    exact flushPolicyLoop_sends w false 0xFFFFFFFF 0xFFFFFFFF _ n h hbus le_rfl

theorem flushLoop_sends (w : View) (fuel : ℕ) (h : Represents b) (hbus : b.bus = true) :
    ∃ n, SendsFirst b w (fun _ => true) n (flushLoop w fuel b).1 (flushLoop w fuel b).2 := by
  induction fuel generalizing b with
  | zero => exact ⟨0, sendsFirst_zero⟩
  | succ fuel ih =>
      have d : Addr → Byte := fun _ => 0
      have hround := flushUpTo_sends h w hbus (chunk * 8)
      have hkept := flushUpTo_rule (represents_deliveryInvariant w) b d (chunk * 8) h
      have hattached : (b.flushUpTo w (chunk * 8)).1.bus = true :=
        flushUpTo_rule (bus_deliveryInvariant w true) b d (chunk * 8) hbus
      rw [flushLoop]
      dsimp only
      split
      · exact ⟨_, hround⟩
      · obtain ⟨n, hrest⟩ := ih hkept hattached
        exact ⟨_, hround.trans hrest⟩

/-- A complete flush writes every queued byte, in order. -/
theorem writes_flush (h : Represents b) (w : View) (hbus : b.bus = true) :
    writes (b.flush w).2 = b.entries.map (b.stage w) := by
  obtain ⟨n, hsends⟩ := flushLoop_sends w b.queue.count h hbus
  have hall : b.eligible (fun _ => true) = b.entries := List.filter_true b.entries
  have hempty : (b.flush w).1.entries = [] := RingBuffer.toList_eq_nil _ (flush_empties h w)
  have hperm := hsends.perm
  change (_ ++ (b.flush w).1.entries).Perm _ at hperm
  rw [hall, hempty, List.append_nil] at hperm
  have htake : b.entries.take n = b.entries := by
    have hlength := hperm.length_eq
    rw [List.length_take] at hlength
    exact List.take_of_length_le (by omega)
  have hsent := hsends.sent
  rwa [hall, htake] at hsent

/-! ### The values that writes commit -/

/-- A write queues the address it commits to, with its value, and nothing else. -/
theorem onRamWrite_commits (b : WriteBuffer) (w : View) (a : Addr) (v : Byte) :
    (∀ x, (b.onRamWrite w a v).1.isDirty x =
        (decide (b.commits w a v = some x) || b.isDirty x)) ∧
      (b.onRamWrite w a v).1.pendingValue =
        (b.commits w a v).elim b.pendingValue fun target =>
          Function.update b.pendingValue target v := by
  have hframe : (b.relocateWrite w a).1.pendingValue = b.pendingValue ∧
      (b.relocateWrite w a).1.dirty = b.dirty := by
    rw [relocateWrite]
    split
    · exact ⟨rfl, rfl⟩
    · dsimp only
      split_ifs <;> exact ⟨rfl, rfl⟩
  rw [onRamWrite, commits]
  split
  · simp
  cases hroute : b.relocateWrite w a with
  | mk b' routed =>
      rw [hroute] at hframe
      obtain ⟨hpending, hdirty⟩ := hframe
      have hbits : ∀ x, b'.isDirty x = b.isDirty x := fun x => by rw [isDirty, isDirty, hdirty]
      cases routed with
      | shielded => exact ⟨fun x => by simpa using hbits x, hpending⟩
      | forward a' =>
          dsimp only at hpending ⊢
          by_cases hmirror : b'.shouldMirror a' = false
          · simp only [hmirror, if_true, Bool.false_eq_true, false_and, if_false, Option.elim,
              reduceCtorEq, decide_false, Bool.false_or]
            exact ⟨hbits, hpending⟩
          by_cases heliminates : b'.eliminates w a' v = true
          · simp only [hmirror, heliminates, if_true, Bool.true_eq_false, and_false, if_false,
              Option.elim, reduceCtorEq, decide_false, Bool.false_or]
            exact ⟨hbits, hpending⟩
          obtain ⟨-, -, hvalues, haccept⟩ := accept_frame b' a' v
          rw [Bool.not_eq_false] at hmirror
          rw [Bool.not_eq_true] at heliminates
          simp only [hmirror, heliminates, Bool.true_eq_false, Bool.false_eq_true, and_self,
            if_true, if_false, Option.elim, Option.some.injEq]
          exact ⟨fun x => by rw [(haccept x).1, hbits], by rw [hvalues, hpending]⟩

/-- The buffer with the value that the last accepted write left for each address. -/
structure Accepting where
  buffer : WriteBuffer
  accepted : Addr → Option Byte

/-- One guest write. An accepted one is recorded where relocation sent it. -/
def Accepting.write (s : Accepting) (w : View) (a : Addr) (v : Byte) : Accepting where
  buffer := (s.buffer.onRamWrite w a v).1
  accepted :=
    (s.buffer.commits w a v).elim s.accepted fun target =>
      Function.update s.accepted target (some v)

def Accepting.step (s : Accepting) : Op → Accepting
  | .onRamWrite w a v => s.write w a v
  | .invalidateRange w a length =>
      (List.range length).foldl
        (fun s i =>
          let a' := a + BitVec.ofNat 16 i
          s.write w a' ((w.ram.map fun ram => ram a').getD 0))
        s
  | op => { s with buffer := s.buffer.step op }

/-- A queued value is the last one accepted. -/
def Accepting.Staged (s : Accepting) : Prop :=
  ∀ a, s.buffer.isDirty a = true → s.accepted a = some (s.buffer.pendingValue a)

section Accepting

variable {s : Accepting}

theorem buffer_step (s : Accepting) (op : Op) : (s.step op).buffer = s.buffer.step op := by
  cases op with
  | invalidateRange w a length =>
      change (List.foldl _ s (List.range length)).buffer = List.foldl _ s.buffer (List.range length)
      generalize List.range length = places
      induction places generalizing s with
      | nil => rfl
      | cons i places ih => exact ih _
  | _ => rfl

theorem buffer_run (s : Accepting) (ops : List Op) :
    (run Accepting.step s ops).buffer = run WriteBuffer.step s.buffer ops := by
  induction ops generalizing s with
  | nil => rfl
  | cons op ops ih => rw [run_cons, run_cons, ih, buffer_step]

theorem Accepting.Staged.write (h : s.Staged) (w : View) (a : Addr) (v : Byte) :
    (s.write w a v).Staged := by
  obtain ⟨hdirty, hpending⟩ := onRamWrite_commits s.buffer w a v
  intro x hx
  change (s.buffer.onRamWrite w a v).1.isDirty x = true at hx
  change (s.buffer.commits w a v).elim s.accepted _ x =
    some ((s.buffer.onRamWrite w a v).1.pendingValue x)
  rw [hdirty] at hx
  rw [hpending]
  cases hcommit : s.buffer.commits w a v with
  | none =>
      rw [hcommit] at hx
      exact h x (by simpa using hx)
  | some target =>
      rw [Option.elim_some, Option.elim_some]
      by_cases hx' : x = target
      · rw [hx', Function.update_self, Function.update_self]
      · rw [Function.update_of_ne hx', Function.update_of_ne hx']
        rw [hcommit] at hx
        exact h x (by simpa [Ne.symm hx'] using hx)

/-- What leaves the staged values alone and queues nothing keeps them the last accepted. -/
theorem Accepting.Staged.of_frame (h : s.Staged) {b : WriteBuffer}
    (hdirty : ∀ a, b.isDirty a = true → s.buffer.isDirty a = true)
    (hpending : b.pendingValue = s.buffer.pendingValue) :
    Accepting.Staged { s with buffer := b } := by
  intro a ha
  change _ = some (b.pendingValue a)
  rw [hpending]
  exact h a (hdirty a ha)

/-- No delivery queues an address or changes a staged value. -/
theorem staged_deliveryInvariant (w : View) (accepted : Addr → Option Byte) :
    DeliveryInvariant w fun b _ => Represents b ∧ Accepting.Staged ⟨b, accepted⟩ where
  chunk b _ sel n h := by
    obtain ⟨q, g, np, heq, -, -, -⟩ := flushSelectedChunk_cases h.1 w sel n
    refine ⟨h.1.flushSelectedChunk w sel n, h.2.of_frame (fun a ha => ?_) ?_⟩
    · rw [heq] at ha
      change WordBitmap.test (List.foldl _ _ _) a.toNat = true at ha
      rw [WordBitmap.test_foldl_erase (by decide), Bool.and_eq_true] at ha
      exact ha.2
    · rw [heq]
  remember b d deferHot screenBase bitmapBase n h hcount hn hbus := by
    intro round hnone
    have hkept := (represents_deliveryInvariant w).remember b d deferHot screenBase bitmapBase n
      h.1 hcount hn hbus hnone
    obtain ⟨q, g, np, heq, -, -, -⟩ :=
      flushSelectedChunk_cases h.1 w (displaySelection deferHot screenBase bitmapBase) n
    obtain ⟨np', hnp⟩ := entries_rememberNoProgress round.1 w deferHot screenBase bitmapBase
    refine ⟨hkept, h.2.of_frame (fun a ha => ?_) ?_⟩
    · rw [hnp] at ha
      change round.1.isDirty a = true at ha
      rw [show round = _ from heq] at ha
      change WordBitmap.test (List.foldl _ _ _) a.toNat = true at ha
      rw [WordBitmap.test_foldl_erase (by decide), Bool.and_eq_true] at ha
      exact ha.2
    · rw [hnp]
      change round.1.pendingValue = _
      rw [show round = _ from heq]
  drop b d hbus h := by
    refine ⟨(represents_deliveryInvariant w).drop b d hbus h.1, h.2.of_frame (fun a ha => ?_) rfl⟩
    change WordBitmap.test (WordBitmap.empty 64) a.toNat = true at ha
    rw [test_empty_toNat] at ha
    cases ha
  cursor b d h := ⟨(represents_deliveryInvariant w).cursor b d h.1, h.2⟩
  scrub b d s h := ⟨(represents_deliveryInvariant w).scrub b d s h.1, h.2⟩
  heal b d ram a hram hclean h :=
    ⟨(represents_deliveryInvariant w).heal b d ram a hram hclean h.1, h.2⟩

theorem Accepting.Staged.step (h : s.Staged) (hrepresents : Represents s.buffer) (op : Op) :
    (s.step op).Staged := by
  have d : Addr → Byte := fun _ => 0
  have hrule (w : View) := staged_deliveryInvariant w s.accepted
  have hnone {b : WriteBuffer} (hdirty : b.dirty = WordBitmap.empty 64) :
      Accepting.Staged ⟨b, s.accepted⟩ := by
    intro a ha
    change b.isDirty a = true at ha
    rw [isDirty, hdirty, test_empty_toNat] at ha
    cases ha
  cases op with
  | attach | setOptMode | setDeliveryEnabled | setExcludeZeroPageStack | attachHotShapeBlocks =>
      exact h
  | setRAMUnderIOAccessible accessible =>
      obtain ⟨r, np, heq⟩ := setRAMUnderIOAccessible_frame s.buffer accessible
      change Accepting.Staged ⟨s.buffer.setRAMUnderIOAccessible accessible, s.accepted⟩
      rw [heq]
      exact h
  | onRamWrite w a v => exact h.write w a v
  | moveDirtyToTail a =>
      obtain ⟨q, hq, -⟩ := moveDirtyToTail_frame s.buffer a
      change Accepting.Staged ⟨s.buffer.moveDirtyToTail a, s.accepted⟩
      rw [hq]
      exact h
  | invalidateRange w a length =>
      change Accepting.Staged (List.foldl _ s (List.range length))
      generalize List.range length = places
      clear hrepresents hnone hrule
      induction places generalizing s with
      | nil => exact h
      | cons i places ih => exact ih (h.write w _ _)
  | flushUpTo w n => exact (flushUpTo_rule (hrule w) s.buffer d n ⟨hrepresents, h⟩).2
  | flushUpToPolicy w n deferHot screenBase bitmapBase =>
      exact (flushUpToPolicy_rule (hrule w) s.buffer d n deferHot screenBase bitmapBase
        ⟨hrepresents, h⟩).2
  | flushRangeUpTo w base len n =>
      exact (flushRangeUpTo_rule (hrule w) s.buffer d base len n ⟨hrepresents, h⟩).2
  | flush w => exact (flush_rule (hrule w) s.buffer d ⟨hrepresents, h⟩).2
  | resyncSweep w n => exact (resyncSweep_rule (hrule w) s.buffer d n ⟨hrepresents, h⟩).2
  | resyncDisplayed w screenBase graphicsBase graphicsLength n flags =>
      exact (resyncDisplayed_rule (hrule w) s.buffer d screenBase graphicsBase graphicsLength n
        flags ⟨hrepresents, h⟩).2
  | discard => exact hnone rfl

/-- In a run every queued value is the last one accepted for its address. -/
theorem staged_run (pendingValue : Addr → Byte) (list : ℕ → Addr) (ops : List Op) :
    (run Accepting.step ⟨construct pendingValue list, fun _ => none⟩ ops).Staged := by
  have hstart : Represents (construct pendingValue list) ∧
      Accepting.Staged ⟨construct pendingValue list, fun _ => none⟩ := by
    refine ⟨represents_construct pendingValue list, fun a ha => ?_⟩
    change (WordBitmap.empty 64).test a.toNat = true at ha
    rw [test_empty_toNat] at ha
    cases ha
  refine (run_invariant Accepting.step (P := fun s => Represents s.buffer ∧ s.Staged)
    (fun s op h => ⟨?_, h.2.step h.1 op⟩) _ ops hstart).2
  rw [buffer_step]
  exact h.1.step op

end Accepting

/-! ### Every reachable queue -/

/-- From every queue that a run reaches, a flush by display policy or by range sends exactly
the first bytes that it may send, each with the value last accepted for it as relocation
translates it, and leaves the others queued; and the words of the bitmap tell whether a range
has a pending byte. -/
theorem selective_flush_exact (wiring : HotWiring) (shape : BitVec 32 → WordBitmap 64)
    (pendingValue : Addr → Byte) (list : ℕ → Addr) (ops : List Op) :
    let s := run Accepting.step ⟨construct pendingValue list, fun _ => none⟩ ops
    let b := s.buffer
    b = run WriteBuffer.step (construct pendingValue list) ops ∧
      (b.bus = true →
        (∀ a ∈ b.entries, s.accepted a = some (b.pendingValue a)) ∧ b.entries.Nodup ∧
          (∀ w n deferHot screenBase bitmapBase,
            wiring.Serves shape (ops ++ [.flushUpToPolicy w n deferHot screenBase bitmapBase]) →
              let flushed := b.flushUpToPolicy w n deferHot screenBase bitmapBase
              SendsFirst b w ((displaySelection deferHot screenBase bitmapBase).take w) n
                flushed.1 flushed.2) ∧
          ∀ w base len n, base + len < 2 ^ 32 →
            let flushed := b.flushRangeUpTo w base len n
            SendsFirst b w (fun a => addressInRange a base len) n flushed.1 flushed.2) ∧
      ∀ base len, base + len < 2 ^ 32 →
        (b.hasPendingInRange base len = true ↔
          ∃ a : Addr, b.isDirty a = true ∧ base ≤ a.toNat ∧ a.toNat < base + len) := by
  intro s b
  have hbuffer : b = run WriteBuffer.step (construct pendingValue list) ops := buffer_run _ ops
  have hstaged : s.Staged := staged_run pendingValue list ops
  have hrepresents : Represents b := by
    rw [hbuffer]
    exact represents_run pendingValue list ops
  refine ⟨hbuffer, fun hbus => ⟨?_, hrepresents.nodup, ?_, ?_⟩, ?_⟩
  · exact fun a ha => hstaged a ((hrepresents.mem_iff a).mp ha)
  · intro w n deferHot screenBase bitmapBase hserves
    have hstart : CacheSound wiring shape (construct pendingValue list) :=
      cacheSound_of_void (represents_construct pendingValue list) rfl
    obtain ⟨wiring', hsound, hview, -⟩ := cacheSound_run ops _ hstart hserves
    rw [← hbuffer] at hsound
    exact flushUpToPolicy_sends hsound (hview w rfl) hbus n deferHot screenBase bitmapBase
  · intro w base len n hsum
    exact flushRangeLoop_sends w hsum _ n hrepresents hbus le_rfl
  · exact fun base len hsum => hasPendingInRange_iff b hsum

/-- Two bytes outside a range, one of them written twice, and one inside. -/
def mixedQueue : List Op :=
  [.attachHotShapeBlocks, .attach true, .onRamWrite hotView 0x2000 1,
    .onRamWrite hotView 0x4000 2, .onRamWrite hotView 0x5000 3, .onRamWrite hotView 0x4000 4]

/-- With the block of $2000 hot, a flush of one byte sends $4000; a flush of the range from
$5000 sends the byte there. -/
theorem selective_flush_exact_mixed :
    let b := run WriteBuffer.step (construct (fun _ => 0) fun _ => 0) mixedQueue
    writes (b.flushUpToPolicy hotView 1 true 0xFFFFFFFF 0xFFFFFFFF).2 = [⟨0x4000, 4⟩] ∧
      writes (b.flushRangeUpTo hotView 0x5000 16 8).2 = [⟨0x5000, 3⟩] ∧
      b.hasPendingInRange 0x2000 1 = true := by
  intro b
  obtain ⟨hb, hflush, hpending⟩ := selective_flush_exact ⟨true, true⟩
    (fun _ => (WordBitmap.empty 64).insert 0x80) (fun _ => 0) (fun _ => 0) mixedQueue
  obtain ⟨-, -, hpolicy, hrange⟩ := hflush (by rw [hb]; decide +kernel)
  have hsent := (hpolicy hotView 1 true 0xFFFFFFFF 0xFFFFFFFF
    (hotView_served _ (by simp [mixedQueue, Op.view]))).sent
  have hinside := (hrange hotView 0x5000 16 8 (by decide)).sent
  have hqueued := (hpending 0x2000 1 (by decide)).mpr
    ⟨0x2000, by rw [hb]; decide +kernel, by decide, by decide⟩
  rw [hb] at hsent hinside hqueued
  exact ⟨hsent.trans (by decide +kernel), hinside.trans (by decide +kernel), hqueued⟩

end Selective

end WriteBuffer

end ScpuEmu
