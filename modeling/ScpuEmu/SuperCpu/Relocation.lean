import ScpuEmu.SuperCpu.NativeAccess
import ScpuEmu.SuperCpu.WriteBuffer.RelocatedBlocks

/-!
# Relocated blocks mirror their source

A shape under the I/O window gets a home below it when a pointer in the active row selects it.
While the policy mirrors the homes and the row stays where it is, a home holds, or waits for,
the bytes that RAM holds at its source, whatever the order of stores, claims and deliveries.
-/

namespace ScpuEmu

open Library WriteBuffer

namespace Fetch

variable {f : Fetch}

theorem relocation_chipWritten (ram : Addr → Byte) (a : Addr) (v : Byte) :
    (f.chipWritten ram a v).relocation = f.relocation := by
  have hchip : (f.trackedChip ram a v).relocation = f.relocation := by
    unfold Fetch.trackedChip
    split_ifs <;> rfl
  unfold Fetch.chipWritten
  dsimp only
  split
  · unfold Fetch.trackedVIC
    dsimp only
    split <;> exact hchip
  · exact hchip

/-- A usable block is free, and the active row is elsewhere. -/
theorem not_inRow_of_relocUsable {r i : ℕ} (hr : r < 48) (husable : f.relocUsable r = true)
    (hi : i < 64) :
    ¬ f.InRow (blockByte r i) := by
  intro hrow
  have hnat := congrArg BitVec.toNat hrow
  rw [BitVec.toNat_setWidth, toNat_and_not_seven, toNat_blockByte (by omega) hi] at hnat
  have hbase : ((f.spritePtrBase - 0x3F8#32) &&& 0xFFFF#32).toNat =
      (0xC000 + r * 64 + i) / 8 * 8 - 0x3F8 := by
    rw [BitVec.toNat_and, BitVec.toNat_sub, ← hnat]
    simp only [BitVec.toNat_ofNat]
    have hmask := Nat.and_two_pow_sub_one_eq_mod
      ((2 ^ 32 - 0x3F8 % 2 ^ 32 + (0xC000 + r * 64 + i) / 8 * 8 % 2 ^ 32) % 2 ^ 32) 16
    refine hmask.trans ?_
    omega
  have haddr : (0xC000#32 + BitVec.ofNat 32 r <<< 6).toNat = 0xC000 + r * 64 := by
    rw [BitVec.toNat_add, BitVec.toNat_shiftLeft]
    simp [Nat.shiftLeft_eq]
    omega
  unfold relocUsable at husable
  simp only [Bool.and_eq_true, decide_eq_true_eq, Bool.not_eq_true', Bool.and_eq_false_iff,
    decide_eq_false_iff_not, BitVec.le_def, BitVec.lt_def, BitVec.toNat_add, hbase,
    haddr] at husable
  obtain ⟨⟨⟨-, hscreen⟩, -⟩, -⟩ := husable
  rcases hscreen with hbefore | hbehind
  · omega
  · simp at hbehind
    omega

theorem freeRelocBlock_spec {r : ℕ} (h : f.freeRelocBlock = some r) :
    r < 48 ∧ f.relocUsable r = true ∧ f.relocation.inUse r = 0xFF#8 := by
  have hmem := List.mem_of_find?_eq_some h
  have husable := List.find?_some h
  refine ⟨List.mem_range.mp hmem, husable, ?_⟩
  unfold relocUsable at husable
  simp only [Bool.and_eq_true, decide_eq_true_eq] at husable
  exact husable.1.1.1

end Fetch

namespace MirrorState

variable {x : MirrorState}

/-! ### The tables -/

theorem replay_frame (v : Byte) (n : ℕ) (x : MirrorState) :
    (replay v n x).fetch = x.fetch ∧ (replay v n x).ram = x.ram := by
  induction n generalizing x with
  | zero => exact ⟨rfl, rfl⟩
  | succ n ih =>
      obtain ⟨hfetch, hram⟩ := ih (x.tell _ _)
      exact ⟨hfetch, hram⟩

theorem inverse_claim (h : x.fetch.relocation.Inverse) {v : Byte} {r : ℕ}
    (he : (MirrorEvent.claim v r).Enabled x) : (x.fetch.claimReloc v r).relocation.Inverse := by
  obtain ⟨hrelocates, hsource, hfree⟩ := he
  obtain ⟨hr, -, htarget⟩ := Fetch.freeRelocBlock_spec hfree
  unfold Fetch.relocates at hrelocates
  simp only [Bool.and_eq_true, decide_eq_true_eq] at hrelocates
  exact h.claim (BitVec.le_def.mp hrelocates.1.1.1.2) (BitVec.lt_def.mp hrelocates.1.1.2) hr hsource
    htarget

/-- The tables stay inverse to each other, whatever happens. -/
theorem keptBy_inverse (L : MirrorEvent → Prop) : KeptBy L fun x => x.fetch.relocation.Inverse := by
  intro x e _ he h
  cases e with
  | note | busWrite | sampleSerial | policy | store | countRow | countDelivered | countExhausted
  | pointer | refreshBlocks | accessible | discard => exact h
  | chipWrite a v =>
      show (x.fetch.chipWritten x.ram a v).relocation.Inverse
      rw [Fetch.relocation_chipWritten]
      exact h
  | claim v r =>
      show (replay v 64 _).fetch.relocation.Inverse
      rw [(replay_frame v 64 _).1]
      exact inverse_claim h he
  | reset => exact Relocation.inverse_none
  | work work =>
      obtain ⟨-, hfetch⟩ := serveAll_frame
        ({ x with buffer := (work.perform x.buffer x.view).1 }.note .mirrorWork)
        (work.perform x.buffer x.view).2
      exact hfetch ▸ h

/-! ### The bytes -/

/-- What an event leaves in the C64's memory. A write of a chip does not reach it. -/
def delivered (x : MirrorState) (dram : Addr → Byte) : MirrorEvent → Addr → Byte
  | .busWrite a v | .pointer a v => Function.update dram a v
  | .work work => runCalls dram (work.perform x.buffer x.view).2
  | _ => dram

/-- The policy covers where homes are, the row stays, and nothing that waits is dropped. -/
def Steady (x : MirrorState) (e : MirrorEvent) : Prop :=
  (∀ a, 0xC000#16 ≤ a → a ≤ 0xCFFF#16 → x.buffer.shouldMirror a = true) ∧
    (x.apply e).fetch.spritePtrBase = x.fetch.spritePtrBase ∧ e ≠ .discard

/-- The homes follow their sources, away from the active row. -/
structure Mirrors (x : MirrorState) (dram : Addr → Byte) : Prop where
  enabled : x.buffer.deliveryEnabled = true
  inverse : x.fetch.relocation.Inverse
  apart : ∀ a a', x.fetch.relocation.Relays a a' → ¬ x.fetch.InRow a
  relayed : Relayed x.ram x.fetch.relocation dram x.buffer dram

variable {dram : Addr → Byte}

theorem mirrored_of_steady {e : MirrorEvent} (hs : x.Steady e) {a : Addr} (hlow : 0xC000 ≤ a.toNat)
    (hhigh : a.toNat < 0xCC00) : x.buffer.shouldMirror a = true := by
  apply hs.1 a (BitVec.le_def.mpr hlow)
  exact BitVec.le_def.mpr (Nat.le_trans (Nat.le_of_lt hhigh) (by decide))

/-- Only the buffer and what does not concern relocation changes. -/
theorem Mirrors.of_frame (h : x.Mirrors dram) {y : MirrorState} (hram : y.ram = x.ram)
    (hrelocation : y.fetch.relocation = x.fetch.relocation)
    (hbase : y.fetch.spritePtrBase = x.fetch.spritePtrBase) (hr : Represents y.buffer)
    (hsettings : y.buffer.deliveryEnabled = x.buffer.deliveryEnabled ∧ y.buffer.bus = x.buffer.bus)
    (hp : y.buffer.pendingValue = x.buffer.pendingValue)
    (hd : ∀ a, y.buffer.isDirty a = x.buffer.isDirty a) : y.Mirrors dram := by
  refine ⟨hsettings.1.trans h.enabled, hrelocation ▸ h.inverse, fun a a' hrelays => ?_, ?_⟩
  · unfold Fetch.InRow
    rw [hbase]
    exact h.apart a a' (hrelocation ▸ hrelays)
  · rw [hram, hrelocation]
    exact h.relayed.of_frame hr hsettings.2 hp hd

/-- DRAM changes where no home is. -/
theorem Mirrors.write (h : x.Mirrors dram) {a : Addr} (v : Byte)
    (ha : ∀ a', ¬ x.fetch.relocation.Relays a a') : x.Mirrors (Function.update dram a v) := by
  refine ⟨h.enabled, h.inverse, h.apart, h.relayed.represents, h.relayed.attached, h.relayed.staged,
    fun b b' hrelays hclean => ?_, fun _ _ _ => Or.inl rfl⟩
  rw [Function.update_of_ne]
  · exact h.relayed.current b b' hrelays hclean
  · rintro rfl
    exact ha b' hrelays

theorem settings_tell (x : MirrorState) (a : Addr) (v : Byte) :
    (x.tell a v).buffer.settings = x.buffer.settings := settings_onRamWrite x.buffer x.view a v

/-- A store to a source waits at its home, and any other store leaves the homes alone. -/
theorem Mirrors.store (h : x.Mirrors dram) (a : Addr) (v : Byte)
    (hmirrored : ∀ b b', x.fetch.relocation.Relays b b' → x.buffer.shouldMirror b = true) :
    (x.apply (.store a v)).Mirrors dram := by
  have hbits {b b' : Addr} (hrelays : x.fetch.relocation.Relays b b') :=
    onRamWrite_relays (w := x.view) h.enabled rfl h.inverse hmirrored a v hrelays
  refine ⟨(congrArg Settings.deliveryEnabled (settings_tell x a v)).trans h.enabled,
    h.inverse, h.apart,
    h.relayed.represents.onRamWrite x.view a v,
    (congrArg Settings.bus (settings_tell x a v)).trans h.relayed.attached,
    fun b b' hrelays hdirty => ?_, fun b b' hrelays hclean => ?_, fun _ _ _ => Or.inl rfl⟩
  · show (x.buffer.onRamWrite x.view a v).1.pendingValue b = Function.update x.ram a v b'
    change (x.buffer.onRamWrite x.view a v).1.isDirty b = true at hdirty
    rw [(hbits hrelays).1] at hdirty
    rw [(hbits hrelays).2, Function.update_apply]
    split
    next => rfl
    next hb =>
      rw [decide_eq_false hb, Bool.false_or] at hdirty
      exact h.relayed.staged b b' hrelays hdirty
  · show dram b = Function.update x.ram a v b'
    change (x.buffer.onRamWrite x.view a v).1.isDirty b = false at hclean
    rw [(hbits hrelays).1, Bool.or_eq_false_iff, decide_eq_false_iff_not] at hclean
    rw [Function.update_of_ne hclean.1]
    exact h.relayed.current b b' hrelays hclean.2

/-! ### Claims -/

theorem replay_place {v : Byte} (hv : v.toNat < 128) {n : ℕ} (hn : n < 64) :
    0xC000#16 + v.setWidth 16 <<< 6 + BitVec.ofNat 16 n = blockByte v.toNat n := by
  apply BitVec.eq_of_toNat_eq
  rw [toNat_blockByte hv hn, BitVec.toNat_add, BitVec.toNat_add, BitVec.toNat_shiftLeft]
  simp [Nat.shiftLeft_eq]
  omega

/-- A replay makes the homes of its bytes wait for what RAM holds. -/
theorem replay_spec {v : Byte} (hv : v.toNat < 128) {n : ℕ} (hn : n ≤ 64)
    (henabled : x.buffer.deliveryEnabled = true) (hinverse : x.fetch.relocation.Inverse)
    (hmirrored : ∀ b b', x.fetch.relocation.Relays b b' → x.buffer.shouldMirror b = true)
    (hrepresents : Represents x.buffer) :
    Represents (replay v n x).buffer ∧ (replay v n x).buffer.settings = x.buffer.settings ∧
      ∀ b b', x.fetch.relocation.Relays b b' →
        ((replay v n x).buffer.isDirty b = true ∧ (replay v n x).buffer.pendingValue b = x.ram b') ∨
          (∀ i < 64, 64 - n ≤ i → b' ≠ blockByte v.toNat i) ∧
            (replay v n x).buffer.isDirty b = x.buffer.isDirty b ∧
            (replay v n x).buffer.pendingValue b = x.buffer.pendingValue b := by
  induction n generalizing x with
  | zero =>
      refine ⟨hrepresents, rfl, fun b b' _ => Or.inr ⟨fun i hi hle => ?_, rfl, rfl⟩⟩
      exact absurd hle (Nat.not_le.mpr hi)
  | succ n ih =>
      obtain ⟨a, ha⟩ : ∃ a, a =
          0xC000#16 + v.setWidth 16 <<< 6 + BitVec.ofNat 16 (63 - n) := ⟨_, rfl⟩
      have hstep : replay v (n + 1) x = replay v n (x.tell a (x.ram a)) := by rw [ha]; rfl
      rw [replay_place hv (by omega)] at ha
      have hsettings := settings_tell x a (x.ram a)
      have hmirrored' : ∀ b b', x.fetch.relocation.Relays b b' →
          (x.tell a (x.ram a)).buffer.shouldMirror b = true := by
        intro b b' hrelays
        rw [shouldMirror_congr hsettings]
        exact hmirrored b b' hrelays
      obtain ⟨hr, hs, hbits⟩ := ih (x := x.tell a (x.ram a)) (by omega)
        ((congrArg Settings.deliveryEnabled hsettings).trans henabled) hinverse hmirrored'
        (hrepresents.onRamWrite x.view a (x.ram a))
      rw [hstep]
      refine ⟨hr, hs.trans hsettings, fun b b' hrelays => ?_⟩
      obtain ⟨hdirty, hpending⟩ :=
        onRamWrite_relays (w := x.view) henabled rfl hinverse hmirrored a (x.ram a) hrelays
      rcases hbits b b' hrelays with hreplayed | ⟨hrest, hdirty', hpending'⟩
      · exact Or.inl hreplayed
      · have hdirty' := hdirty'.trans hdirty
        have hpending' := hpending'.trans hpending
        by_cases hb : b' = a
        · subst hb
          left
          rw [hdirty', hpending']
          simp
        · rw [decide_eq_false hb, Bool.false_or] at hdirty'
          rw [if_neg hb] at hpending'
          refine Or.inr ⟨fun i hi hle => ?_, hdirty', hpending'⟩
          by_cases hin : 64 - n ≤ i
          · exact hrest i hi hin
          · have hi' : i = 63 - n := by omega
            rw [hi', ← ha]
            exact hb

theorem Mirrors.claim (h : x.Mirrors dram) {v : Byte} {r : ℕ}
    (he : (MirrorEvent.claim v r).Enabled x)
    (hmirrored : ∀ a : Addr, 0xC000 ≤ a.toNat → a.toNat < 0xCC00 → x.buffer.shouldMirror a = true) :
    (x.apply (.claim v r)).Mirrors dram := by
  have hinverse := inverse_claim h.inverse he
  obtain ⟨hrelocates, hsource, hfree⟩ := he
  obtain ⟨hr, husable, htarget⟩ := Fetch.freeRelocBlock_spec hfree
  have hv : v.toNat < 128 := by
    unfold Fetch.relocates at hrelocates
    simp only [Bool.and_eq_true, decide_eq_true_eq] at hrelocates
    exact BitVec.lt_def.mp hrelocates.1.1.2
  obtain ⟨y, hy⟩ : ∃ y : MirrorState, y = { x with fetch := x.fetch.claimReloc v r } := ⟨_, rfl⟩
  have happly : x.apply (.claim v r) = replay v 64 y := by rw [hy]; rfl
  have hrelocation : y.fetch.relocation = (x.fetch.claimReloc v r).relocation := by rw [hy]
  have hnew {b b' : Addr} (hrelays : y.fetch.relocation.Relays b b') :
      x.fetch.relocation.Relays b b' ∨ ∃ i < 64, b = blockByte r i ∧ b' = blockByte v.toNat i := by
    rw [hrelocation] at hrelays
    exact Relocation.relays_claim hrelays
  obtain ⟨hfetch, hram⟩ := replay_frame v 64 y
  have hbuffer : y.buffer = x.buffer := by rw [hy]
  have hramy : y.ram = x.ram := by rw [hy]
  obtain ⟨hrepresents, hsettings, hbits⟩ := replay_spec (x := y) hv (Nat.le_refl 64)
    (by rw [hbuffer]; exact h.enabled) (by rw [hrelocation]; exact hinverse)
    (fun b b' hrelays => by
      obtain ⟨hlow, hhigh⟩ := hrelays.target_bounds
      rw [hbuffer]
      exact hmirrored b hlow hhigh)
    (by rw [hbuffer]; exact h.relayed.represents)
  -- what the replay leaves alone was relocated before
  have hold {b b' : Addr} (hrelays : y.fetch.relocation.Relays b b')
      (hother : ∀ i < 64, 64 - 64 ≤ i → b' ≠ blockByte v.toNat i) :
      x.fetch.relocation.Relays b b' := by
    rcases hnew hrelays with hrelays | ⟨i, hi, -, hb'⟩
    · exact hrelays
    · exact absurd hb' (hother i hi (Nat.zero_le i))
  have hrow (b : Addr) : y.fetch.InRow b ↔ x.fetch.InRow b := by
    rw [hy]
    exact Iff.rfl
  rw [happly]
  generalize replay v 64 y = z at *
  refine ⟨?_, ?_, fun b b' hrelays => ?_, hrepresents, ?_, fun b b' hrelays hdirty => ?_,
    fun b b' hrelays hclean => ?_, fun _ _ _ => Or.inl rfl⟩
  · have henabled := congrArg Settings.deliveryEnabled hsettings
    exact henabled.trans (hbuffer ▸ h.enabled)
  · rw [hfetch, hrelocation]
    exact hinverse
  · rw [hfetch] at hrelays ⊢
    rw [hrow]
    rcases hnew hrelays with hrelays | ⟨i, hi, rfl, -⟩
    · exact h.apart b b' hrelays
    · exact Fetch.not_inRow_of_relocUsable hr husable hi
  · have hbus := congrArg Settings.bus hsettings
    exact hbus.trans (hbuffer ▸ h.relayed.attached)
  · rw [hfetch] at hrelays
    rw [hram]
    rcases hbits b b' hrelays with ⟨-, hpending⟩ | ⟨hother, hdirty', hpending⟩
    · exact hpending
    · rw [hdirty', hbuffer] at hdirty
      rw [hpending, hbuffer, hramy]
      exact h.relayed.staged b b' (hold hrelays hother) hdirty
  · rw [hfetch] at hrelays
    rw [hram]
    rcases hbits b b' hrelays with ⟨hdirty, -⟩ | ⟨hother, hdirty, -⟩
    · rw [hdirty] at hclean
      cases hclean
    · rw [hdirty, hbuffer] at hclean
      rw [hramy]
      exact h.relayed.current b b' (hold hrelays hother) hclean

/-! ### Any event -/

theorem serveAll_ram (x : MirrorState) (calls : List BusCall) :
    (calls.foldl serve x).ram = x.ram := by
  induction calls generalizing x with
  | nil => rfl
  | cons call calls ih =>
      refine (ih (x.serve call)).trans ?_
      cases call with
      | readRAM a => rfl
      | writeBurst burst =>
          unfold serve
          dsimp only
          induction burst generalizing x with
          | nil => rfl
          | cons y burst ihb => exact ihb (x.note (.write y.addr y.value))

/-- What an event leaves at a home was there before, or comes from the source. -/
def Undisturbed (x : MirrorState) (dram : Addr → Byte) (e : MirrorEvent) : Prop :=
  ∀ a a', x.fetch.relocation.Relays a a' →
    x.delivered dram e a = dram a ∨ x.delivered dram e a = x.ram a'

theorem not_relays_busWrite {a : Addr} {v : Byte} (he : (MirrorEvent.busWrite a v).Enabled x)
    (a' : Addr) : ¬ x.fetch.relocation.Relays a a' := by
  intro hrelays
  obtain ⟨hlow, hhigh⟩ := hrelays.target_bounds
  rcases he with hdecoded | rfl
  · simp only [isHostDecoded, Bool.or_eq_true, Bool.and_eq_true, decide_eq_true_eq,
      BitVec.le_def] at hdecoded
    simp at hdecoded
    omega
  · exact absurd hlow (by decide)

theorem Mirrors.step (h : x.Mirrors dram) {e : MirrorEvent} (he : e.Enabled x) (hs : x.Steady e) :
    (x.apply e).Mirrors (x.delivered dram e) ∧ x.Undisturbed dram e := by
  have hmirrored {a : Addr} := mirrored_of_steady (a := a) hs
  have hquiet (hsame : x.delivered dram e = dram) : x.Undisturbed dram e :=
    fun a _ _ => Or.inl (congrFun hsame a)
  have hwrite {a : Addr} {v : Byte} (ha : ∀ a', ¬ x.fetch.relocation.Relays a a')
      (hsame : x.delivered dram e = Function.update dram a v) : x.Undisturbed dram e := by
    intro b b' hrelays
    rw [hsame]
    apply Or.inl
    apply Function.update_of_ne
    rintro rfl
    exact ha b' hrelays
  cases e with
  | note | sampleSerial | countRow | countDelivered | countExhausted | refreshBlocks =>
      exact ⟨h.of_frame rfl rfl rfl h.relayed.represents ⟨rfl, rfl⟩ rfl fun _ => rfl, hquiet rfl⟩
  | busWrite a v =>
      have ha := not_relays_busWrite he
      have hwritten := h.write v ha
      exact ⟨hwritten.of_frame rfl rfl rfl h.relayed.represents ⟨rfl, rfl⟩ rfl fun _ => rfl,
        hwrite ha rfl⟩
  | pointer a v =>
      have ha : ∀ a', ¬ x.fetch.relocation.Relays a a' := fun a' hrelays => h.apart a a' hrelays he
      have hwritten := h.write v ha
      exact ⟨hwritten.of_frame rfl rfl rfl h.relayed.represents ⟨rfl, rfl⟩ rfl fun _ => rfl,
        hwrite ha rfl⟩
  | chipWrite a v =>
      refine ⟨h.of_frame rfl ?_ hs.2.1 h.relayed.represents ⟨rfl, rfl⟩ rfl fun _ => rfl, hquiet rfl⟩
      exact Fetch.relocation_chipWritten x.ram a v
  | policy mode exclude =>
      have hrepresents := (h.relayed.represents.step (.setExcludeZeroPageStack exclude)).step
        (.setOptMode mode)
      exact ⟨h.of_frame rfl rfl rfl hrepresents ⟨rfl, rfl⟩ rfl fun _ => rfl, hquiet rfl⟩
  | store a v =>
      refine ⟨h.store a v fun b b' hrelays => ?_, hquiet rfl⟩
      obtain ⟨hlow, hhigh⟩ := hrelays.target_bounds
      exact hmirrored hlow hhigh
  | claim v r => exact ⟨h.claim he fun a hlow hhigh => hmirrored hlow hhigh, hquiet rfl⟩
  | accessible on =>
      obtain ⟨r, np, hframe⟩ := setRAMUnderIOAccessible_frame x.buffer on
      have hrepresents := h.relayed.represents.setRAMUnderIOAccessible on
      rw [hframe] at hrepresents
      have happly : x.apply (.accessible on) =
          { x with
            fetch := x.fetch.setRAMUnderIOAccessible x.ram on
            buffer := { x.buffer with ramUnderIOAccessible := r, noProgress := np } } :=
        congrArg (fun b => { x with
          fetch := x.fetch.setRAMUnderIOAccessible x.ram on
          buffer := b }) hframe
      have hbase := hs.2.1
      rw [happly] at hbase ⊢
      exact ⟨h.of_frame rfl rfl hbase hrepresents ⟨rfl, rfl⟩ rfl fun _ => rfl, hquiet rfl⟩
  | discard => exact absurd rfl hs.2.2
  | reset =>
      have hnone : ∀ a a', ¬ Fetch.noRelocation.Relays a a' := by
        rintro a a' ⟨r, -, i, -, hused, -⟩
        exact hused rfl
      refine ⟨⟨h.enabled, Relocation.inverse_none, fun a a' hrelays => absurd hrelays (hnone a a'),
        h.relayed.represents, h.relayed.attached, fun a a' hrelays => absurd hrelays (hnone a a'),
        fun a a' hrelays => absurd hrelays (hnone a a'), fun _ _ _ => Or.inl rfl⟩, hquiet rfl⟩
  | work work =>
      obtain ⟨y, hy⟩ : ∃ y, y = x.apply (.work work) := ⟨_, rfl⟩
      obtain ⟨hbuffer, hfetch⟩ :
          y.buffer = (work.perform x.buffer x.view).1 ∧ y.fetch = x.fetch := by
        rw [hy]
        exact serveAll_frame _ _
      have hram : y.ram = x.ram := by
        rw [hy]
        exact serveAll_ram _ _
      have hdone := perform_rule
        (relayed_deliveryInvariant (w := x.view) rfl rfl h.inverse dram) work x.buffer
          dram h.relayed
      have hsettings := perform_rule
        (settings_deliveryInvariant x.view x.buffer.settings) work x.buffer dram rfl
      rw [← hy]
      refine ⟨⟨?_, ?_, fun a a' hrelays => ?_, ?_⟩, hdone.sent⟩
      · rw [hbuffer]
        exact (congrArg Settings.deliveryEnabled hsettings).trans h.enabled
      · rw [hfetch]
        exact h.inverse
      · rw [hfetch] at hrelays ⊢
        exact h.apart a a' hrelays
      · rw [hbuffer, hfetch, hram]
        exact ⟨hdone.represents, hdone.attached, hdone.staged, hdone.current,
          fun _ _ _ => Or.inl rfl⟩

/-! ### Runs of events -/

/-- What the mirror sees and the C64's memory, after an event. -/
def relay (p : MirrorState × (Addr → Byte)) (e : MirrorEvent) : MirrorState × (Addr → Byte) :=
  (p.1.apply e, p.1.delivered p.2 e)

/-- Before the first claim there is nothing to mirror. -/
theorem mirrors_of_unallocated (hdelivers : x.buffer.Delivers) (hbus : x.buffer.bus = true)
    (hinverse : x.fetch.relocation.Inverse) (hcount : x.fetch.relocation.count = 0)
    (dram : Addr → Byte) : x.Mirrors dram := by
  have hnone : ∀ a a', ¬ x.fetch.relocation.Relays a a' := by
    intro a a' hrelays
    have harmed := armed_of_relays (w := x.view) rfl hinverse hrelays
    unfold View.armed view at harmed
    simp [hcount] at harmed
  exact ⟨hdelivers.enabled, hinverse, fun a a' hrelays => absurd hrelays (hnone a a'),
    hdelivers.represents, hbus, fun a a' hrelays => absurd hrelays (hnone a a'),
    fun a a' hrelays => absurd hrelays (hnone a a'), fun _ _ _ => Or.inl rfl⟩

/-- With nothing queued, every home holds the bytes of its source. -/
theorem Mirrors.drained (h : x.Mirrors dram) (hcount : x.buffer.queue.count = 0) {a a' : Addr}
    (hrelays : x.fetch.relocation.Relays a a') : dram a = x.ram a' := by
  apply h.relayed.current a a' hrelays
  rw [← Bool.not_eq_true, ← h.relayed.represents.mem_iff]
  rw [entries, RingBuffer.toList_eq_nil x.buffer.queue hcount]
  exact List.not_mem_nil

theorem Mirrors.steady_run (h : x.Mirrors dram) (events : List MirrorEvent)
    (hsteady : AllSteps relay (fun p e => e.Enabled p.1 ∧ p.1.Steady e) (x, dram) events) :
    AllSteps relay (fun p e => p.1.Undisturbed p.2 e) (x, dram) events ∧
      (Library.run relay (x, dram) events).1.Mirrors (Library.run relay (x, dram) events).2 := by
  have hstep : ∀ (p : MirrorState × (Addr → Byte)) e, p.1.Mirrors p.2 →
      (e.Enabled p.1 ∧ p.1.Steady e) → (relay p e).1.Mirrors (relay p e).2 ∧
      p.1.Undisturbed p.2 e :=
    fun p e hp he => hp.step he.1 he.2
  exact ⟨allSteps_of_invariant relay hstep (x, dram) events h hsteady,
    run_invariant_of_allSteps (P := fun p => p.1.Mirrors p.2) relay
      (fun p e hp he => (hstep p e hp he).1) (x, dram) events h hsteady⟩

theorem settings_replay (v : Byte) (n : ℕ) (x : MirrorState) :
    (replay v n x).buffer.settings = x.buffer.settings := by
  induction n generalizing x with
  | zero => rfl
  | succ n ih => exact (ih (x.tell _ _)).trans (settings_tell x _ _)

/-- The buffer stays attached. -/
theorem keptBy_attached (L : MirrorEvent → Prop) : KeptBy L fun x => x.buffer.bus = true := by
  intro x e _ _ h
  cases e with
  | note | busWrite | sampleSerial | chipWrite | policy | countRow | countDelivered | countExhausted
  | pointer | refreshBlocks | discard | reset => exact h
  | store a v => exact (congrArg Settings.bus (settings_tell x a v)).trans h
  | claim v r =>
      show (replay v 64 _).buffer.bus = true
      generalize 64 = n
      exact (congrArg Settings.bus (settings_replay v n _)).trans h
  | accessible on =>
      obtain ⟨r, np, hframe⟩ := setRAMUnderIOAccessible_frame x.buffer on
      exact (congrArg WriteBuffer.bus hframe).trans h
  | work work =>
      have hsettings := perform_rule
        (settings_deliveryInvariant x.view x.buffer.settings) work x.buffer (fun _ => 0) rfl
      obtain ⟨hbuffer, -⟩ := serveAll_frame
        ({ x with buffer := (work.perform x.buffer x.view).1 }.note .mirrorWork)
        (work.perform x.buffer x.view).2
      exact (congrArg WriteBuffer.bus hbuffer).trans ((congrArg Settings.bus hsettings).trans h)

end MirrorState

section Runs

variable {ρ : Type}

/-- The tables are inverse to each other in every reachable state. From one without relocated
blocks, and as long as the policy mirrors the homes, the row of pointers stays and nothing is
discarded, only bytes of its source reach a home, and a drained queue leaves all of them
there. A run of the accelerator is a sequence of such events. -/
theorem relocated_blocks_mirror_source (c : SuperCpu ρ) (depth : ℕ) (s : System ρ)
    (pendingValue : Addr → Byte) (list : ℕ → Addr)
    (hfresh : s.accelerator.buffer = (construct pendingValue list).attach true)
    (htables : s.memory.fetch.relocation = Fetch.noRelocation) (ops : List (SystemOp ρ)) :
    let reached := Library.run (c.step depth) s ops
    reached.memory.fetch.relocation.Inverse ∧
      (∀ later, ∃ events, AllSteps MirrorState.apply (fun x e => e.Enabled x)
          (System.mirrorState reached) events ∧
        Library.run MirrorState.apply (System.mirrorState reached) events =
          System.mirrorState (Library.run (c.step depth) reached later)) ∧
      (reached.memory.fetch.relocation.count = 0 → ∀ dram events,
        AllSteps MirrorState.relay (fun p e => e.Enabled p.1 ∧ p.1.Steady e)
          (System.mirrorState reached, dram) events →
        let final := Library.run MirrorState.relay (System.mirrorState reached, dram) events
        AllSteps MirrorState.relay (fun p e => p.1.Undisturbed p.2 e)
            (System.mirrorState reached, dram) events ∧
          (final.1.buffer.queue.count = 0 →
            ∀ a a', final.1.fetch.relocation.Relays a a' → final.2 a = final.1.ram a')) := by
  intro reached
  have hkept {J : MirrorState → Prop} (hJ : KeptBy (fun _ => True) J) (hs : J s.mirrorState) :
      J (System.mirrorState reached) :=
    run_invariant (P := fun s : System ρ => J s.mirrorState) (c.step depth)
      (fun s op h => mirror_step (admits_all c) hJ depth s (within_all op) h) s ops hs
  have hinverse : reached.memory.fetch.relocation.Inverse := by
    refine hkept (MirrorState.keptBy_inverse fun _ => True) ?_
    show s.memory.fetch.relocation.Inverse
    rw [htables]
    exact Relocation.inverse_none
  have hbuffer : s.mirrorState.buffer = (construct pendingValue list).attach true := hfresh
  have hdelivers : (System.mirrorState reached).buffer.Delivers :=
    hkept (MirrorState.keptBy_delivers fun _ => True)
      (hbuffer ▸ delivers_construct pendingValue list true)
  have hbus : (System.mirrorState reached).buffer.bus = true :=
    hkept (MirrorState.keptBy_attached fun _ => True) (by rw [hbuffer]; rfl)
  refine ⟨hinverse, fun later => ?_, fun hcount dram events hsteady => ?_⟩
  · obtain ⟨events, -, hevents, hfinal⟩ :=
      run_traces (admits_all c) depth reached fun op (_ : op ∈ later) => within_all op
    exact ⟨events, hevents, hfinal⟩
  · have hstart := MirrorState.mirrors_of_unallocated hdelivers hbus hinverse hcount dram
    obtain ⟨hundisturbed, hmirrors⟩ := hstart.steady_run events hsteady
    exact ⟨hundisturbed, fun hdrained a a' hrelays => hmirrors.drained hdrained hrelays⟩

/-- Sprites in bank 3, with the screen at $C000. -/
def selectBank3 : List (SystemOp Unit) :=
  [.access (.write8 0xDD02 0x3F), .access (.write8 0xDD00 0x00), .access (.write8 0xD018 0x00)]

def bank3State : MirrorState :=
  (Library.run (quietSuperCpu.step 0) quietSystem selectBank3).mirrorState

/-- A block at $D000 gets its home at $C400, its first byte changes, and the queue is drained. -/
def firstShape : List MirrorEvent :=
  [.claim 0x40 16, .store 0xD000 0x55, .work (.flushUpToPolicy 0x1000 false 0xFFFFFFFF 0xFFFFFFFF)]

theorem shouldMirror_default {b : WriteBuffer} (h : b.policy = (.default, true, 0x0000, 0xFFFF))
    {a : Addr} (hlow : 0xC000#16 ≤ a) (hhigh : a ≤ 0xCFFF#16) : b.shouldMirror a = true := by
  simp only [WriteBuffer.policy, Prod.mk.injEq] at h
  obtain ⟨hmode, -, hlo, hhi⟩ := h
  have hlow : 0xC000 ≤ a.toNat := BitVec.le_def.mp hlow
  have hhigh : a.toNat ≤ 0xCFFF := BitVec.le_def.mp hhigh
  have hstack : ¬ a < 0x0200#16 := by
    rw [BitVec.lt_def]
    exact Nat.not_lt.mpr (Nat.le_trans (by decide) hlow)
  have hwindow : ¬ 0xD000#16 ≤ a := by
    rw [BitVec.le_def]
    exact Nat.not_le.mpr (Nat.lt_of_le_of_lt hhigh (by decide))
  have hfirst : 0x0000#16 ≤ a := BitVec.le_def.mpr (Nat.zero_le _)
  have hlast : a ≤ 0xFFFF#16 := BitVec.le_def.mpr (Nat.le_of_lt_succ a.isLt)
  simp [shouldMirror, hmode, hlo, hhi, hstack, hwindow, hfirst, hlast]

theorem firstShape_steady :
    AllSteps MirrorState.relay (fun p e => e.Enabled p.1 ∧ p.1.Steady e)
      (bank3State, fun _ => 0) firstShape := by
  refine ⟨⟨?_, ?_, ?_, ?_⟩, ⟨?_, ?_, ?_, ?_⟩, ⟨?_, ?_, ?_, ?_⟩, trivial⟩
  · refine ⟨?_, ?_, ?_⟩ <;> decide +kernel
  · exact fun a => shouldMirror_default (by decide +kernel)
  · decide +kernel
  · exact MirrorEvent.noConfusion
  · trivial
  · exact fun a => shouldMirror_default (by decide +kernel)
  · decide +kernel
  · exact MirrorEvent.noConfusion
  · trivial
  · exact fun a => shouldMirror_default (by decide +kernel)
  · decide +kernel
  · exact MirrorEvent.noConfusion

theorem firstShape_mirrored :
    (Library.run MirrorState.relay (bank3State, fun _ => 0) firstShape).2 0xC400 = 0x55 := by
  obtain ⟨-, -, hmirrored⟩ :=
    relocated_blocks_mirror_source quietSuperCpu 0 quietSystem (fun _ => 0)
    (fun _ => 0) rfl rfl selectBank3
  have hcount : (Library.run (quietSuperCpu.step 0) quietSystem
      selectBank3).memory.fetch.relocation.count = 0 := by decide +kernel
  have hreached : (Library.run (quietSuperCpu.step 0) quietSystem selectBank3).mirrorState =
      bank3State := rfl
  rw [hreached] at hmirrored
  obtain ⟨-, hfinal⟩ := hmirrored hcount (fun _ => 0) firstShape firstShape_steady
  have hdrained : (Library.run MirrorState.relay (bank3State, fun _ => 0)
      firstShape).1.buffer.queue.count = 0 := by decide +kernel
  have hrelays : (Library.run MirrorState.relay (bank3State, fun _ => 0)
      firstShape).1.fetch.relocation.Relays 0xC400 0xD000 :=
    ⟨16, by decide, 0, by decide, by decide +kernel, by decide, by decide +kernel⟩
  have hram : (Library.run MirrorState.relay (bank3State, fun _ => 0)
      firstShape).1.ram 0xD000 = 0x55 := by decide +kernel
  exact (hfinal hdrained _ _ hrelays).trans hram

end Runs

end ScpuEmu
