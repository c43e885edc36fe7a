import ScpuEmu.C64.Fetch
import ScpuEmu.SuperCpu.WriteBuffer.Coherence
import ScpuEmu.SuperCpu.WriteBuffer.Settings
import Mathlib.Data.Finset.Card

/-!
# Relocated blocks in the write buffer

The relocation tables pair blocks under the I/O window with blocks below it. A store to a
byte of a source goes to the byte of its target, one to a target's own address goes nowhere,
and whatever delivers a target delivers the byte of its source.
-/

namespace ScpuEmu

open Library

/-- Byte `i` of block `n`, where block 0 starts at `$C000`. -/
def blockByte (n i : ℕ) : Addr := BitVec.ofNat 16 (0xC000 + n * 64 + i)

theorem toNat_blockByte {n i : ℕ} (hn : n < 128) (hi : i < 64) :
    (blockByte n i).toNat = 0xC000 + n * 64 + i := by
  rw [blockByte, BitVec.toNat_ofNat]
  omega

theorem eq_blockByte {a : Addr} (ha : 0xC000 ≤ a.toNat) :
    a = blockByte ((a.toNat - 0xC000) / 64) (a.toNat % 64) := by
  apply BitVec.eq_of_toNat_eq
  have := a.isLt
  rw [blockByte, BitVec.toNat_ofNat]
  omega

theorem blockByte_inj {n n' i i' : ℕ} (hn : n < 128) (hn' : n' < 128) (hi : i < 64)
    (hi' : i' < 64) (h : blockByte n i = blockByte n' i') : n = n' ∧ i = i' := by
  have hnat := congrArg BitVec.toNat h
  rw [toNat_blockByte hn hi, toNat_blockByte hn' hi'] at hnat
  omega

namespace Relocation

/-- The tables are inverse to each other as partial injections, and of the size that is
counted. -/
structure Inverse (t : Relocation) : Prop where
  inverse : ∀ k < 64, ∀ r < 48, t.ptrReloc k = BitVec.ofNat 8 r ↔
    t.inUse r = BitVec.ofNat 8 (k + 64)
  target : ∀ k < 64, t.ptrReloc k ≠ 0xFF#8 → (t.ptrReloc k).toNat < 48
  source : ∀ r < 48, t.inUse r ≠ 0xFF#8 → 64 ≤ (t.inUse r).toNat ∧ (t.inUse r).toNat < 128
  targets : t.count.toNat = ((Finset.range 48).filter fun r => t.inUse r ≠ 0xFF#8).card
  sources : t.count.toNat = ((Finset.range 64).filter fun k => t.ptrReloc k ≠ 0xFF#8).card

/-- Address `a` is the home of the byte at `b`. -/
def Relays (t : Relocation) (a b : Addr) : Prop :=
  ∃ r < 48, ∃ i < 64, t.inUse r ≠ 0xFF#8 ∧ a = blockByte r i ∧ b = blockByte (t.inUse r).toNat i

theorem ofNat_byte_inj {m n : ℕ} (hm : m < 256) (hn : n < 256)
    (h : BitVec.ofNat 8 m = BitVec.ofNat 8 n) : m = n := by
  have hnat := congrArg BitVec.toNat h
  rwa [BitVec.toNat_ofNat, BitVec.toNat_ofNat, Nat.mod_eq_of_lt hm, Nat.mod_eq_of_lt hn] at hnat

theorem ofNat_ne_free {n : ℕ} (hn : n < 255) : BitVec.ofNat 8 n ≠ 0xFF#8 := by
  intro h
  exact absurd (ofNat_byte_inj (by omega) (by omega) h) (Nat.ne_of_lt hn)

theorem inverse_none : Fetch.noRelocation.Inverse where
  inverse k hk r hr :=
    ⟨fun h => absurd h.symm (ofNat_ne_free (by omega)),
      fun h => absurd h.symm (ofNat_ne_free (by omega))⟩
  target _ _ h := absurd rfl h
  source _ _ h := absurd rfl h
  targets := by simp [Fetch.noRelocation]
  sources := by simp [Fetch.noRelocation]

/-- One more entry of a table. -/
theorem card_update {f : ℕ → Byte} {v : Byte} {n k : ℕ} (hk : k < n) (hfree : f k = 0xFF#8)
    (hv : v ≠ 0xFF#8) :
    ((Finset.range n).filter fun j => Function.update f k v j ≠ 0xFF#8).card =
      ((Finset.range n).filter fun j => f j ≠ 0xFF#8).card + 1 := by
  have hinsert : ((Finset.range n).filter fun j => Function.update f k v j ≠ 0xFF#8) =
      insert k ((Finset.range n).filter fun j => f j ≠ 0xFF#8) := by
    ext j
    by_cases hj : j = k
    · subst hj
      simp [hk, hv]
    · simp [hj]
  rw [hinsert, Finset.card_insert_of_notMem]
  simp [hfree]

variable {t : Relocation}

theorem Inverse.count_le (h : t.Inverse) : t.count.toNat ≤ 48 := by
  rw [h.targets]
  refine (Finset.card_filter_le _ _).trans ?_
  simp

/-- A free source gets a free target. -/
theorem Inverse.claim (h : t.Inverse) {v : Byte} {r : ℕ} (hlo : 64 ≤ v.toNat) (hhi : v.toNat < 128)
    (hr : r < 48) (hsource : t.ptrReloc (v.toNat - 64) = 0xFF#8) (htarget : t.inUse r = 0xFF#8) :
    Inverse
      { ptrReloc := Function.update t.ptrReloc (v.toNat - 64) (BitVec.ofNat 8 r)
        inUse := Function.update t.inUse r v
        count := t.count + 1 } := by
  have hv : v = BitVec.ofNat 8 (v.toNat - 64 + 64) := by
    rw [Nat.sub_add_cancel hlo, BitVec.ofNat_toNat, BitVec.setWidth_eq]
  have hvfree : v ≠ 0xFF#8 := by
    rw [hv]
    exact ofNat_ne_free (by omega)
  have hcount : (t.count + 1).toNat = t.count.toNat + 1 := by
    have := h.count_le
    rw [BitVec.toNat_add]
    simp
    omega
  generalize hk : v.toNat - 64 = k at *
  have hk64 : k < 64 := by omega
  refine ⟨fun k' hk' r' hr' => ?_, fun k' hk' hne => ?_, fun r' hr' hne => ?_, ?_, ?_⟩
  · simp only [Function.update_apply]
    split <;> split
    next hkk hrr =>
      subst hkk hrr
      exact ⟨fun _ => hv, fun _ => rfl⟩
    next hkk hrr =>
      subst hkk
      constructor
      · intro heq
        exact absurd (ofNat_byte_inj (by omega) (by omega) heq).symm hrr
      · intro heq
        have hold := (h.inverse k' hk' r' hr').mpr heq
        rw [hsource] at hold
        exact absurd hold.symm (ofNat_ne_free (by omega))
    next hkk hrr =>
      subst hrr
      constructor
      · intro heq
        have hold := (h.inverse k' hk' r' hr').mp heq
        rw [htarget] at hold
        exact absurd hold.symm (ofNat_ne_free (by omega))
      · intro heq
        rw [hv] at heq
        exact absurd (Nat.add_right_cancel (ofNat_byte_inj (by omega) (by omega) heq)).symm hkk
    next => exact h.inverse k' hk' r' hr'
  · simp only [Function.update_apply] at hne ⊢
    split at hne
    next hkk =>
      rw [if_pos hkk, BitVec.toNat_ofNat]
      omega
    next hkk =>
      rw [if_neg hkk]
      exact h.target k' hk' hne
  · simp only [Function.update_apply] at hne ⊢
    split at hne
    next hrr =>
      rw [if_pos hrr]
      exact ⟨hlo, hhi⟩
    next hrr =>
      rw [if_neg hrr]
      exact h.source r' hr' hne
  · rw [hcount, h.targets, card_update hr htarget hvfree]
  · rw [hcount, h.sources, card_update hk64 hsource (ofNat_ne_free (by omega))]

/-! ### Which bytes are relocated -/

theorem Relays.target_bounds {a b : Addr} (h : t.Relays a b) :
    0xC000 ≤ a.toNat ∧ a.toNat < 0xCC00 := by
  obtain ⟨r, hr, i, hi, -, rfl, -⟩ := h
  rw [toNat_blockByte (by omega) hi]
  omega

theorem Inverse.source_bounds (h : t.Inverse) {a b : Addr} (hab : t.Relays a b) :
    0xD000 ≤ b.toNat ∧ b.toNat < 0xE000 := by
  obtain ⟨r, hr, i, hi, hused, -, rfl⟩ := hab
  obtain ⟨hlo, hhi⟩ := h.source r hr hused
  rw [toNat_blockByte hhi hi]
  omega

theorem Relays.source_unique {a b b' : Addr} (h : t.Relays a b) (h' : t.Relays a b') : b = b' := by
  obtain ⟨r, hr, i, hi, -, rfl, rfl⟩ := h
  obtain ⟨r', hr', i', hi', -, ha, rfl⟩ := h'
  obtain ⟨rfl, rfl⟩ := blockByte_inj (by omega) (by omega) hi hi' ha
  rfl

theorem Inverse.ptrReloc_inUse (h : t.Inverse) {r : ℕ} (hr : r < 48) (hused : t.inUse r ≠ 0xFF#8) :
    t.ptrReloc ((t.inUse r).toNat - 64) = BitVec.ofNat 8 r := by
  obtain ⟨hlo, hhi⟩ := h.source r hr hused
  apply (h.inverse _ (by omega) r hr).mpr
  rw [Nat.sub_add_cancel hlo, BitVec.ofNat_toNat, BitVec.setWidth_eq]

theorem Inverse.ptrReloc_home (h : t.Inverse) {k : ℕ} (hk : k < 64)
    (hused : t.ptrReloc k ≠ 0xFF#8) :
    (t.ptrReloc k).toNat < 48 ∧ t.inUse (t.ptrReloc k).toNat = BitVec.ofNat 8 (k + 64) := by
  have hr := h.target k hk hused
  refine ⟨hr, (h.inverse k hk _ hr).mp ?_⟩
  rw [BitVec.ofNat_toNat, BitVec.setWidth_eq]

/-- Different targets have different sources. -/
theorem Inverse.target_unique (h : t.Inverse) {a a' b : Addr} (hab : t.Relays a b)
    (hab' : t.Relays a' b) : a = a' := by
  obtain ⟨r, hr, i, hi, hused, rfl, hb⟩ := hab
  obtain ⟨r', hr', i', hi', hused', rfl, rfl⟩ := hab'
  obtain ⟨hlo, hhi⟩ := h.source r hr hused
  obtain ⟨hlo', hhi'⟩ := h.source r' hr' hused'
  obtain ⟨hblock, rfl⟩ := blockByte_inj hhi hhi' hi hi' hb.symm
  have hr_eq : BitVec.ofNat 8 r = BitVec.ofNat 8 r' := by
    rw [← h.ptrReloc_inUse hr hused, hblock, h.ptrReloc_inUse hr' hused']
  rw [ofNat_byte_inj (by omega) (by omega) hr_eq]

/-- A claim relocates the bytes of one more block. -/
theorem relays_claim {v n : Byte} {r : ℕ} {p : ℕ → Byte} {a a' : Addr}
    (h : Relays { ptrReloc := p, inUse := Function.update t.inUse r v, count := n } a a') :
    t.Relays a a' ∨ ∃ i < 64, a = blockByte r i ∧ a' = blockByte v.toNat i := by
  obtain ⟨r', hr', i, hi, hused, rfl, rfl⟩ := h
  by_cases hrr : r' = r
  · subst hrr
    right
    exact ⟨i, hi, rfl, by simp⟩
  · left
    simp only [Function.update_of_ne hrr] at hused ⊢
    exact ⟨r', hr', i, hi, hused, rfl, rfl⟩

end Relocation

namespace WriteBuffer

variable {b : WriteBuffer} {w : View} {t : Relocation}

/-! ### Where a store goes -/

theorem armed_of_relays (hw : w.relocation = some t) (h : t.Inverse) {a a' : Addr}
    (hrelays : t.Relays a a') : w.armed = some t := by
  obtain ⟨r, hr, -, -, hused, -, -⟩ := hrelays
  have hmem : r ∈ (Finset.range 48).filter fun r => t.inUse r ≠ 0xFF#8 := by simp [hr, hused]
  have hpos := Finset.card_pos.mpr ⟨r, hmem⟩
  have hcount : t.count ≠ 0#8 := by
    intro hzero
    rw [← h.targets, hzero] at hpos
    exact absurd hpos (Nat.lt_irrefl 0)
  rw [View.armed, hw, Option.filter_some, if_pos (by simpa using hcount)]

theorem and_63 (n : ℕ) : n &&& 63 = n % 64 := Nat.and_two_pow_sub_one_eq_mod n 6

theorem blockByte_block {n i : ℕ} (hlo : 64 ≤ n) (hn : n < 128) (hi : i < 64) :
    ((blockByte n i >>> 6) &&& 0x3F#16).toNat = n - 64 := by
  rw [BitVec.toNat_and, BitVec.toNat_ushiftRight, toNat_blockByte hn hi, Nat.shiftRight_eq_div_pow]
  show _ &&& 63 = _
  rw [and_63]
  omega

theorem blockByte_place {n i : ℕ} (hn : n < 128) (hi : i < 64) :
    (blockByte n i &&& 63#16).toNat = i := by
  rw [BitVec.toNat_and, toNat_blockByte hn hi]
  show _ &&& 63 = _
  rw [and_63]
  omega

theorem blockByte_target {r n i : ℕ} (hr : r < 48) (hn : n < 128) (hi : i < 64) :
    0xC000#16 + ((BitVec.ofNat 8 r).zeroExtend 16 <<< 6) + (blockByte n i &&& 63#16) =
      blockByte r i := by
  apply BitVec.eq_of_toNat_eq
  rw [toNat_blockByte (by omega) hi, BitVec.toNat_add, BitVec.toNat_add, blockByte_place hn hi,
    BitVec.toNat_shiftLeft]
  simp [Nat.shiftLeft_eq]
  omega

/-- A store to a source goes to its target. -/
theorem relocateWrite_source (hw : w.relocation = some t) (h : t.Inverse) {a a' : Addr}
    (hrelays : t.Relays a a') : b.relocateWrite w a' = (b.clearSynced a, .forward a) := by
  have harmed := armed_of_relays hw h hrelays
  obtain ⟨hlow, hhigh⟩ := h.source_bounds hrelays
  obtain ⟨r, hr, i, hi, hused, rfl, rfl⟩ := hrelays
  obtain ⟨hlo, hhi⟩ := h.source r hr hused
  have hptr := h.ptrReloc_inUse hr hused
  have hfree : BitVec.ofNat 8 r ≠ 0xFF#8 := Relocation.ofNat_ne_free (by omega)
  unfold relocateWrite
  rw [harmed]
  dsimp only
  rw [blockByte_block hlo hhi hi, hptr, blockByte_target hr hhi hi]
  have hfirst : 0xD000#16 ≤ blockByte (t.inUse r).toNat i := BitVec.le_def.mpr hlow
  have hlast : blockByte (t.inUse r).toNat i ≤ 0xDFFF#16 :=
    BitVec.le_def.mpr (Nat.le_of_lt_succ hhigh)
  rw [if_pos hfirst, if_pos ⟨hlast, hfree⟩]

/-- A store to a target goes nowhere. -/
theorem relocateWrite_target (hw : w.relocation = some t) (h : t.Inverse) {a a' : Addr}
    (hrelays : t.Relays a a') : b.relocateWrite w a = (b.clearSynced a, .shielded) := by
  have harmed := armed_of_relays hw h hrelays
  obtain ⟨hlow, hhigh⟩ := hrelays.target_bounds
  obtain ⟨r, hr, i, hi, hused, rfl, rfl⟩ := hrelays
  have hblock : ((blockByte r i).toNat - 0xC000) / 64 = r := by
    rw [toNat_blockByte (by omega) hi]
    omega
  unfold relocateWrite
  rw [harmed]
  dsimp only
  rw [if_neg (by rw [BitVec.le_def]; exact Nat.not_le.mpr (Nat.lt_trans hhigh (by decide))), hblock,
    if_pos ⟨BitVec.le_def.mpr hlow, BitVec.lt_def.mpr hhigh, hused⟩]

/-- Any other store stays where it is. -/
theorem relocateWrite_other (hw : w.relocation = some t) (h : t.Inverse) {a : Addr}
    (hsource : ∀ a', ¬ t.Relays a' a) (htarget : ∀ a', ¬ t.Relays a a') :
    b.relocateWrite w a = (b, .forward a) := by
  unfold relocateWrite
  cases harmed : w.armed with
  | none => rfl
  | some t' =>
      have ht : t' = t := by
        rw [View.armed, hw, Option.filter_some] at harmed
        split at harmed
        · exact (Option.some.inj harmed).symm
        · cases harmed
      subst ht
      dsimp only
      split
      next hfirst =>
        have hlow : 0xD000 ≤ a.toNat := BitVec.le_def.mp hfirst
        rw [if_neg]
        rintro ⟨hlast, hused⟩
        have hhigh : a.toNat ≤ 0xDFFF := BitVec.le_def.mp hlast
        obtain ⟨n, hn⟩ : ∃ n, n = (a.toNat - 0xC000) / 64 := ⟨_, rfl⟩
        have ha := eq_blockByte (show 0xC000 ≤ a.toNat by omega)
        rw [← hn] at ha
        rw [ha, blockByte_block (by omega) (by omega) (Nat.mod_lt _ (by decide))] at hused
        apply hsource (blockByte (t'.ptrReloc (n - 64)).toNat (a.toNat % 64))
        have hhome := h.ptrReloc_home (show n - 64 < 64 by omega) hused
        refine ⟨_, hhome.1, _, Nat.mod_lt _ (by decide), ?_, rfl, ?_⟩
        · rw [hhome.2]
          exact Relocation.ofNat_ne_free (by omega)
        · rw [hhome.2, Nat.sub_add_cancel (by omega), BitVec.toNat_ofNat,
            Nat.mod_eq_of_lt (by omega)]
          exact ha
      next =>
        rw [if_neg]
        rintro ⟨hfirst, hlast, hused⟩
        have hlow : 0xC000 ≤ a.toNat := BitVec.le_def.mp hfirst
        have hhigh : a.toNat < 0xCC00 := BitVec.lt_def.mp hlast
        exact htarget _ ⟨_, by omega, _, Nat.mod_lt _ (by decide), hused, eq_blockByte hlow, rfl⟩

/-- With the target mirrored, a store to a source is accepted at the target. -/
theorem onRamWrite_source (henabled : b.deliveryEnabled = true) (hw : w.relocation = some t)
    (h : t.Inverse) {a a' : Addr} (hrelays : t.Relays a a') (hmirrored : b.shouldMirror a = true)
    (v : Byte) : (b.onRamWrite w a' v).1 = (b.clearSynced a).accept a v := by
  have hcover : (b.clearSynced a).shouldMirror a = true := hmirrored
  have hunsynced : (b.clearSynced a).eliminates w a v = false := by simp [eliminates]
  unfold onRamWrite
  rw [if_neg (by simp [henabled]), relocateWrite_source hw h hrelays]
  dsimp only
  rw [if_neg (by simp [hcover]), if_neg (by simp [hunsynced])]

/-- Any other store leaves what is staged for targets alone. -/
theorem onRamWrite_other (hw : w.relocation = some t) (h : t.Inverse) {a : Addr}
    (hsource : ∀ x, ¬ t.Relays x a) (v : Byte) {x y : Addr} (hrelays : t.Relays x y) :
    (b.onRamWrite w a v).1.isDirty x = b.isDirty x ∧
      (b.onRamWrite w a v).1.pendingValue x = b.pendingValue x := by
  unfold onRamWrite
  split
  · exact ⟨rfl, rfl⟩
  by_cases htarget : ∃ a', t.Relays a a'
  · obtain ⟨a', ha'⟩ := htarget
    rw [relocateWrite_target hw h ha']
    exact ⟨rfl, rfl⟩
  · have hx : a ≠ x := by
      rintro rfl
      exact htarget ⟨y, hrelays⟩
    rw [relocateWrite_other hw h hsource fun a' ha' => htarget ⟨a', ha'⟩]
    dsimp only
    split_ifs
    · exact ⟨rfl, rfl⟩
    · exact ⟨rfl, rfl⟩
    · obtain ⟨-, -, hpending, hbits⟩ := accept_frame b a v
      rw [(hbits x).1, hpending, Function.update_of_ne (Ne.symm hx), decide_eq_false hx]
      exact ⟨rfl, rfl⟩

/-- With all targets mirrored, a target waits for the last store to its source, and no other
store touches it. -/
theorem onRamWrite_relays (henabled : b.deliveryEnabled = true) (hw : w.relocation = some t)
    (h : t.Inverse) (hmirrored : ∀ x y, t.Relays x y → b.shouldMirror x = true)
    (a : Addr) (v : Byte)
    {x y : Addr} (hrelays : t.Relays x y) :
    (b.onRamWrite w a v).1.isDirty x = (decide (y = a) || b.isDirty x) ∧
      (b.onRamWrite w a v).1.pendingValue x = if y = a then v else b.pendingValue x := by
  by_cases hsource : ∃ a', t.Relays a' a
  · obtain ⟨a', ha'⟩ := hsource
    rw [onRamWrite_source henabled hw h ha' (hmirrored a' a ha')]
    obtain ⟨-, -, hpending, hbits⟩ := accept_frame (b.clearSynced a') a' v
    rw [(hbits x).1, hpending, isDirty_clearSynced]
    by_cases hy : y = a
    · subst hy
      obtain rfl := h.target_unique hrelays ha'
      simp
    · have hx : a' ≠ x := by
        rintro rfl
        exact hy (hrelays.source_unique ha')
      rw [decide_eq_false hx, decide_eq_false hy, if_neg hy, Function.update_of_ne (Ne.symm hx)]
      exact ⟨rfl, rfl⟩
  · have hy : y ≠ a := by
      rintro rfl
      exact hsource ⟨x, hrelays⟩
    rw [decide_eq_false hy, if_neg hy]
    exact onRamWrite_other hw h (fun a' ha' => hsource ⟨a', ha'⟩) v hrelays

/-! ### What delivers a target -/

theorem target_block {a a' : Addr} (hrelays : t.Relays a a') :
    0xC000#16 ≤ a ∧ a < 0xCC00#16 ∧ t.inUse ((a.toNat - 0xC000) / 64) ≠ 0xFF#8 ∧
      a' = blockByte (t.inUse ((a.toNat - 0xC000) / 64)).toNat (a.toNat % 64) := by
  obtain ⟨hlow, hhigh⟩ := hrelays.target_bounds
  obtain ⟨r, hr, i, hi, hused, rfl, rfl⟩ := hrelays
  have hnat := toNat_blockByte (show r < 128 by omega) hi
  have hblock : ((blockByte r i).toNat - 0xC000) / 64 = r := by omega
  have hplace : (blockByte r i).toNat % 64 = i := by omega
  rw [hblock, hplace]
  exact ⟨BitVec.le_def.mpr hlow, BitVec.lt_def.mpr hhigh, hused, rfl⟩

theorem deliverValue_target (hw : w.relocation = some t) (h : t.Inverse) {a a' : Addr}
    (hrelays : t.Relays a a') (v : Byte) : deliverValue w a v = v := by
  obtain ⟨hlow, hhigh, hused, -⟩ := target_block hrelays
  unfold deliverValue
  rw [armed_of_relays hw h hrelays]
  exact if_pos ⟨hlow, hhigh, hused⟩

/-- A target is healed from its source. -/
theorem healed_target (hw : w.relocation = some t) (h : t.Inverse) {a a' : Addr}
    (hrelays : t.Relays a a') (ram : Addr → Byte) : healed w ram a = ⟨a, ram a'⟩ := by
  obtain ⟨hlow, hhigh, hused, ha'⟩ := target_block hrelays
  unfold healed
  rw [deliverValue_target hw h hrelays, authoritativeShadowValue, armed_of_relays hw h hrelays]
  dsimp only
  rw [if_pos ⟨hlow, hhigh⟩, if_pos hused, ha']
  rfl

/-- A byte of a target is queued with the byte of its source, or DRAM holds that byte. What a
delivery leaves in DRAM was there before or comes from the source. -/
structure Relayed (ram : Addr → Byte) (t : Relocation) (dram₀ : Addr → Byte) (b : WriteBuffer)
    (dram : Addr → Byte) : Prop where
  represents : Represents b
  attached : b.bus = true
  staged : ∀ a a', t.Relays a a' → b.isDirty a = true → b.pendingValue a = ram a'
  current : ∀ a a', t.Relays a a' → b.isDirty a = false → dram a = ram a'
  sent : ∀ a a', t.Relays a a' → dram a = dram₀ a ∨ dram a = ram a'

section Relayed

variable {ram dram₀ dram : Addr → Byte}

theorem Relayed.of_frame (h : Relayed ram t dram₀ b dram) {b' : WriteBuffer} (hr : Represents b')
    (hb : b'.bus = b.bus) (hp : b'.pendingValue = b.pendingValue)
    (hd : ∀ a, b'.isDirty a = b.isDirty a) : Relayed ram t dram₀ b' dram := by
  refine ⟨hr, hb.trans h.attached, ?_, ?_, h.sent⟩
  · intro a a' hrelays hdirty
    rw [hp]
    exact h.staged a a' hrelays (hd a ▸ hdirty)
  · intro a a' hrelays hclean
    exact h.current a a' hrelays (hd a ▸ hclean)

theorem Relayed.flushSelectedChunk (h : Relayed ram t dram₀ b dram) (hw : w.relocation = some t)
    (hinverse : t.Inverse) (sel : Selection) (n : ℕ) :
    Relayed ram t dram₀ (b.flushSelectedChunk w sel n).1
      (deliver dram (b.flushSelectedChunk w sel n).2) := by
  have hkept := h.represents.flushSelectedChunk w sel n
  obtain ⟨q, g, np, heq, -, -, -⟩ := flushSelectedChunk_cases h.represents w sel n
  have hsent : ∀ x ∈ (b.chunkSelection w sel n).map (b.stage w),
      x.value = deliverValue w x.addr (b.pendingValue x.addr) := by
    intro x hx
    obtain ⟨a, -, rfl⟩ := List.mem_map.mp hx
    rfl
  have haddr : ((b.chunkSelection w sel n).map (b.stage w)).map C64BusWrite.addr =
      b.chunkSelection w sel n := by
    rw [List.map_map]
    exact List.map_id _
  have hbits : ∀ a, (b.flushSelectedChunk w sel n).1.isDirty a =
      (!decide (a ∈ b.chunkSelection w sel n) && b.isDirty a) := by
    intro a
    rw [heq]
    show WordBitmap.test (List.foldl _ _ _) a.toNat = _
    rw [WordBitmap.test_foldl_erase (by decide)]
    simp only [toNat_mem_map]
    rfl
  -- what is sent to a target is the byte of its source
  have hvalue : ∀ a a', t.Relays a a' → a ∈ b.chunkSelection w sel n →
      deliverValue w a (b.pendingValue a) = ram a' := by
    intro a a' hrelays hin
    rw [deliverValue_target hw hinverse hrelays]
    exact h.staged a a' hrelays (isDirty_of_chunkSelection h.represents w sel n a hin)
  have hburst : (b.flushSelectedChunk w sel n).2 = (b.chunkSelection w sel n).map (b.stage w) :=
    congrArg Prod.snd heq
  have hdram := deliver_apply dram (fun a => deliverValue w a (b.pendingValue a)) _ hsent
  rw [haddr, ← hburst] at hdram
  refine ⟨hkept, ?_, fun a a' hrelays hdirty => ?_, fun a a' hrelays hclean => ?_,
    fun a a' hrelays => ?_⟩
  · rw [flushSelectedChunk_bus]
    exact h.attached
  · rw [hbits, Bool.and_eq_true] at hdirty
    rw [heq]
    exact h.staged a a' hrelays hdirty.2
  · rw [hdram]
    split
    next hin => exact hvalue a a' hrelays hin
    next hin =>
      rw [hbits, decide_eq_false hin, Bool.not_false, Bool.true_and] at hclean
      exact h.current a a' hrelays hclean
  · rw [hdram]
    split
    next hin => exact Or.inr (hvalue a a' hrelays hin)
    next => exact h.sent a a' hrelays

/-- Whatever the buffer delivers, the targets follow their sources. -/
theorem relayed_deliveryInvariant (hw : w.relocation = some t) (hram : w.ram = some ram)
    (hinverse : t.Inverse) (dram₀ : Addr → Byte) :
    DeliveryInvariant w (Relayed ram t dram₀) where
  chunk b d sel n h := h.flushSelectedChunk hw hinverse sel n
  remember b d deferHot screenBase bitmapBase n h hcount hn hbus := by
    intro round hnone
    have hround : Relayed ram t dram₀ round.1 (deliver d round.2) :=
      h.flushSelectedChunk hw hinverse _ n
    have hkept := (represents_deliveryInvariant w).remember b d deferHot screenBase bitmapBase n
      h.represents hcount hn hbus hnone
    rw [hnone, deliver_nil] at hround
    obtain ⟨np, hnp⟩ : ∃ np, round.1.rememberNoProgress w deferHot screenBase bitmapBase =
        { round.1 with noProgress := np } := by
      rw [rememberNoProgress]
      split
      · exact ⟨_, rfl⟩
      · exact ⟨round.1.noProgress, rfl⟩
    change Represents (round.1.rememberNoProgress w deferHot screenBase bitmapBase) at hkept
    rw [hnp] at hkept ⊢
    exact hround.of_frame hkept rfl rfl fun _ => rfl
  drop b d hbus h := by
    rw [h.attached] at hbus
    cases hbus
  cursor b d h := h.of_frame ((represents_deliveryInvariant w).cursor b d h.represents) rfl rfl
    fun _ => rfl
  scrub b d s h := h.of_frame ((represents_deliveryInvariant w).scrub b d s h.represents) rfl rfl
    fun _ => rfl
  heal b d ram' a hram' hclean h := by
    obtain rfl : ram = ram' := Option.some.inj (hram.symm.trans hram')
    have hkept : Relayed ram t dram₀ (b.setSynced a) d := h.of_frame
      ((represents_deliveryInvariant w).heal b d ram a hram hclean h.represents) rfl
        rfl fun _ => rfl
    refine ⟨hkept.represents, hkept.attached, hkept.staged, fun x x' hrelays hx => ?_,
      fun x x' hrelays => ?_⟩
    · by_cases hxa : x = a
      · subst hxa
        rw [Function.update_self, healed_target hw hinverse hrelays]
      · rw [Function.update_of_ne hxa]
        exact hkept.current x x' hrelays hx
    · by_cases hxa : x = a
      · subst hxa
        rw [Function.update_self, healed_target hw hinverse hrelays]
        exact Or.inr rfl
      · rw [Function.update_of_ne hxa]
        exact h.sent x x' hrelays

end Relayed

end WriteBuffer

end ScpuEmu
