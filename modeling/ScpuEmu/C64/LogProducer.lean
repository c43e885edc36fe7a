import ScpuEmu.C64.RasterCapture
import ScpuEmu.Video.Consumption

/-!
# The producer of the VIC event log, one store at a time

The emulation core changes a VIC-visible byte, writes a slot of the log, and publishes
the new head. Between those stores, and at any other time, it tags slots with a raster
line. The history keeps every event in the order it was written: the log still holds the
newest 2048 of them, and the shadow bytes are the ones they lead to.
-/

namespace ScpuEmu

open Library

/-- A change of VIC-visible state that is logged. -/
inductive VICChange
  | register (reg : BitVec 6) (value : Byte)
  | bank (base : BitVec 2)
  | pointer (sprite : BitVec 3) (value : Byte)
  deriving DecidableEq, Repr

namespace VICChange

/-- The code and the value `appendVICLog` is called with. -/
def code : VICChange → BitVec 16
  | register reg _ => reg.setWidth 16
  | bank _ => 0x40
  | pointer sprite _ => 0x50 + sprite.setWidth 16

def value : VICChange → Byte
  | register _ value => value
  | bank base => base.setWidth 8
  | pointer _ value => value

end VICChange

namespace RasterCapture

variable (c : RasterCapture) (now : BitVec 32)

/-- The event of an append, tagged if it follows a raster compare closely. -/
def event (reg : BitVec 16) (value : Byte) : VICRegWrite :=
  let tagged := decide (c.lastPreciseLine ≠ 0xFFFF) && decide (now - c.lastPreciseAnchor < 48#32)
  let high : BitVec 16 := if c.lastPreciseLine &&& 0x100#16 ≠ 0 then 0x8000 else 0
  { cycle := now
    reg := (reg &&& 0x07FF#16) ||| if tagged then 0x4000#16 ||| high else 0
    value := value
    lineLow := if tagged then c.lastPreciseLine.setWidth 8 else 0 }

/-- The first half of `appendVICLog`. -/
def writeSlot (reg : BitVec 16) (value : Byte) : RasterCapture :=
  { c with
    vicLog := Function.update c.vicLog (c.vicLogHead &&& 0x7FF#32).toNat (c.event now reg value) }

/-- The second half of `appendVICLog`. -/
def publish : RasterCapture := { c with vicLogHead := c.vicLogHead + 1 }

theorem appendVICLog_eq (henabled : c.vicLogEnabled = true) (reg : BitVec 16) (value : Byte) :
    c.appendVICLog now reg value = (c.writeSlot now reg value).publish := by
  rw [appendVICLog, if_neg (by simp [henabled])]
  rfl

/-- Another raster line for an event, or a part of one: its cycle, register and value
stay. -/
def retagged (e : VICRegWrite) (lineLow : Byte) (tag : BitVec 16) : VICRegWrite :=
  { e with lineLow := lineLow, reg := (e.reg &&& 0x07FF#16) ||| (tag &&& 0xC000#16) }

def retag (slot : ℕ) (lineLow : Byte) (tag : BitVec 16) : RasterCapture :=
  { c with vicLog := Function.update c.vicLog slot (retagged (c.vicLog slot) lineLow tag) }

end RasterCapture

/-- The same event, line tags aside. -/
structure VICRegWrite.Matches (e e' : VICRegWrite) : Prop where
  cycle : e.cycle = e'.cycle
  register : e.register = e'.register
  value : e.value = e'.value

theorem VICRegWrite.Matches.refl (e : VICRegWrite) : e.Matches e := ⟨rfl, rfl, rfl⟩

theorem VICRegWrite.Matches.trans {e e' e'' : VICRegWrite} (h : e.Matches e')
    (h' : e'.Matches e'') : e.Matches e'' :=
  ⟨h.cycle.trans h'.cycle, h.register.trans h'.register, h.value.trans h'.value⟩

/-- Tags stand above the register code. -/
theorem and_mask_or_tag (reg tag : BitVec 16) :
    ((reg &&& 0x07FF#16) ||| (tag &&& 0xC000#16)) &&& 0x07FF#16 = reg &&& 0x07FF#16 := by
  ext i hi
  simp only [BitVec.getElem_and, BitVec.getElem_or]
  have hmask : (0xC000#16)[i] = true → (0x07FF#16)[i] = false := by
    revert i
    decide
  cases h : (0xC000#16)[i] with
  | false => simp
  | true => simp [hmask h]

theorem RasterCapture.matches_retagged (e : VICRegWrite) (lineLow : Byte) (tag : BitVec 16) :
    (retagged e lineLow tag).Matches e :=
  ⟨rfl, congrArg BitVec.toNat (and_mask_or_tag e.reg tag), rfl⟩

/-- A register code and the value written. -/
abbrev VICWrite := ℕ × Byte

def VICRegWrite.write (e : VICRegWrite) : VICWrite := (e.register, e.value)

def VICChange.write (change : VICChange) : VICWrite := (change.code.toNat, change.value)

/-- One byte of the state that events change: a register, or the bank. -/
inductive VICCell
  | register (reg : BitVec 6)
  | bank
  deriving DecidableEq, Repr

namespace VICCell

def of (x : Scalars) : VICCell → Byte
  | register reg => x.1 reg.toNat
  | bank => x.2

/-- The register code of the writes that change this cell. -/
def code : VICCell → ℕ
  | register reg => reg.toNat
  | bank => 0x40

/-- What such a write leaves in it. -/
def stored (value : Byte) : VICCell → Byte
  | register _ => value
  | bank => value &&& 3

end VICCell

/-- The register or bank change of one write. -/
def applyWrite (x : Scalars) (w : VICWrite) : Scalars :=
  if w.1 < 0x40 then (Function.update x.1 w.1 w.2, x.2)
  else if w.1 = 0x40 then (x.1, w.2 &&& 3)
  else x

theorem applyScalar_eq (x : Scalars) (e : VICRegWrite) : applyScalar x e = applyWrite x e.write :=
  rfl

theorem cell_applyWrite (x : Scalars) (w : VICWrite) (cell : VICCell) :
    cell.of (applyWrite x w) = if w.1 = cell.code then cell.stored w.2 else cell.of x := by
  rw [applyWrite]
  by_cases hcode : w.1 = cell.code
  · rw [if_pos hcode]
    cases cell with
    | register reg =>
        have hcode : w.1 = reg.toNat := hcode
        have hreg := reg.isLt
        rw [if_pos (by omega), hcode]
        exact Function.update_self _ _ _
    | bank =>
        have hcode : w.1 = 0x40 := hcode
        rw [if_neg (by omega), if_pos hcode]
        rfl
  · rw [if_neg hcode]
    cases cell with
    | register reg =>
        split
        · exact Function.update_of_ne (Ne.symm hcode) _ _
        · split <;> rfl
    | bank =>
        have hcode : ¬ w.1 = 0x40 := hcode
        rw [if_neg hcode]
        split <;> rfl

/-- The values after the first `n` writes. -/
def valuesAfter (base : Scalars) (writes : List VICWrite) (n : ℕ) : Scalars :=
  (writes.take n).foldl applyWrite base

theorem valuesAfter_length (base : Scalars) (writes : List VICWrite) :
    valuesAfter base writes writes.length = writes.foldl applyWrite base := by
  rw [valuesAfter, List.take_length]

theorem valuesAfter_succ (base : Scalars) (writes : List VICWrite) {n : ℕ} {w : VICWrite}
    (h : writes[n]? = some w) :
    valuesAfter base writes (n + 1) = applyWrite (valuesAfter base writes n) w := by
  rw [valuesAfter, List.take_add_one, h, Option.toList_some, List.foldl_append]
  rfl

theorem valuesAfter_of_prefix_eq (base : Scalars) {writes writes' : List VICWrite} {n : ℕ}
    (h : writes <+: writes') (hn : n ≤ writes.length) :
    valuesAfter base writes' n = valuesAfter base writes n := by
  obtain ⟨l, rfl⟩ := h
  rw [valuesAfter, List.take_append_of_le_length hn, valuesAfter]

/-- A cell that no write of a stretch changes keeps its value over it. -/
theorem cell_valuesAfter_of_untouched (base : Scalars) {writes : List VICWrite} (cell : VICCell)
    {m n : ℕ} (hmn : m ≤ n) (hn : n ≤ writes.length)
    (h : ∀ k w, m ≤ k → k < n → writes[k]? = some w → w.1 ≠ cell.code) :
    cell.of (valuesAfter base writes n) = cell.of (valuesAfter base writes m) := by
  induction n, hmn using Nat.le_induction with
  | base => rfl
  | succ n hmn ih =>
      have hget : writes[n]? = some writes[n] := List.getElem?_eq_getElem hn
      rw [valuesAfter_succ base writes hget, cell_applyWrite,
        if_neg (h n _ hmn (Nat.lt_succ_self n) hget)]
      exact ih (by omega) fun k w hk hkn => h k w hk (by omega)

/-- The codes of changes fit under the tags. -/
theorem VICChange.code_and_mask (change : VICChange) :
    change.code &&& 0x07FF#16 = change.code := by
  cases change with
  | register reg value =>
      have hreg : ∀ reg : BitVec 6, reg.setWidth 16 &&& 0x07FF#16 = reg.setWidth 16 := by decide
      exact hreg reg
  | bank base =>
      change 0x40#16 &&& 0x07FF#16 = 0x40#16
      decide
  | pointer sprite value =>
      have hsprite : ∀ sprite : BitVec 3,
          (0x50#16 + sprite.setWidth 16) &&& 0x07FF#16 = 0x50#16 + sprite.setWidth 16 := by decide
      exact hsprite sprite

/-- The event an append writes is the one its change asks for. -/
theorem RasterCapture.write_event (c : RasterCapture) (now : BitVec 32) (change : VICChange) :
    (c.event now change.code change.value).write = change.write := by
  have htag : ∀ tag : BitVec 16, tag &&& 0xC000#16 = tag →
      ((change.code &&& 0x07FF#16) ||| tag) &&& 0x07FF#16 = change.code := by
    intro tag htag
    rw [← htag, and_mask_or_tag, change.code_and_mask]
  refine Prod.ext (congrArg BitVec.toNat (htag _ ?_)) rfl
  split
  · split <;> rfl
  · rfl

/-- Where the emulation core stands in an append. -/
inductive AppendPhase
  | idle
  | stored (change : VICChange)
  | written (change : VICChange)
  deriving DecidableEq, Repr

/-- The memory object as far as the display core reads it. `appended` is no part of it:
it is the history of the events written. -/
structure VICProducer where
  capture : RasterCapture
  vicRegShadow : BitVec 6 → Byte
  vicBank : BitVec 2
  phase : AppendPhase
  appended : List VICRegWrite

namespace VICProducer

inductive Op
  | store (change : VICChange)
  | writeSlot (now : BitVec 32)
  | publish
  | retag (slot : ℕ) (lineLow : Byte) (tag : BitVec 16)
  | notePrecise (now : BitVec 32) (line : BitVec 16)

variable (p : VICProducer)

/-- The store of the shadow byte. A pointer lives in RAM. -/
def storeShadow : VICChange → VICProducer
  | .register reg value => { p with vicRegShadow := Function.update p.vicRegShadow reg value }
  | .bank base => { p with vicBank := base }
  | .pointer _ _ => p

/-- One atomic store of the emulation core; those of an append come in their order. -/
def step : Op → VICProducer
  | .store change =>
      match p.phase with
      | .idle => { p.storeShadow change with phase := .stored change }
      | _ => p
  | .writeSlot now =>
      match p.phase with
      | .stored change =>
          { p with
            capture := p.capture.writeSlot now change.code change.value
            phase := .written change
            appended := p.appended ++ [p.capture.event now change.code change.value] }
      | _ => p
  | .publish =>
      match p.phase with
      | .written _ => { p with capture := p.capture.publish, phase := .idle }
      | _ => p
  | .retag slot lineLow tag => { p with capture := p.capture.retag slot lineLow tag }
  | .notePrecise now line =>
      { p with
        capture := { p.capture with lastPreciseAnchor := now, lastPreciseLine := line } }

/-- The registers and the bank as the display core would read them. -/
def live : Scalars := (fun n => p.vicRegShadow (BitVec.ofNat 6 n), p.vicBank.setWidth 8)

/-- The change that is stored and not yet published. -/
def pending : Option VICChange :=
  match p.phase with
  | .idle => none
  | .stored change => some change
  | .written change => some change

/-- The number of events published. -/
def published : ℕ :=
  match p.phase with
  | .written _ => p.appended.length - 1
  | _ => p.appended.length

/-- The writes of shadow bytes, in their order: those of the events written, and the one
whose event is still to come. -/
def writes : List VICWrite :=
  match p.phase with
  | .stored change => p.appended.map VICRegWrite.write ++ [change.write]
  | _ => p.appended.map VICRegWrite.write

/-- What holds between the history and the memory object. -/
structure Sound (base : Scalars) (p : VICProducer) : Prop where
  head : p.capture.vicLogHead = BitVec.ofNat 32 p.published
  kept : ∀ n e, p.appended[n]? = some e → p.appended.length ≤ n + vicLogSize →
    (p.capture.vicLog (n % vicLogSize)).Matches e
  live : ∀ cell : VICCell, cell.of p.live = cell.of (valuesAfter base p.writes p.writes.length)
  written : ∀ change, p.phase = .written change →
    ∃ events e, p.appended = events ++ [e] ∧ e.write = change.write

section Counting

theorem getElem?_of_prefix {α : Type*} {l l' : List α} (h : l <+: l') {n : ℕ} {a : α}
    (hn : l[n]? = some a) : l'[n]? = some a := by
  obtain ⟨t, rfl⟩ := h
  rw [List.getElem?_append_left (List.getElem?_eq_some_iff.mp hn).1, hn]

theorem map_appended_prefix : p.appended.map VICRegWrite.write <+: p.writes := by
  rw [writes]
  split
  · exact List.prefix_append _ _
  · exact List.prefix_rfl

/-- The write of an event. -/
theorem writes_of_appended {n : ℕ} {e : VICRegWrite} (h : p.appended[n]? = some e) :
    p.writes[n]? = some e.write := by
  refine getElem?_of_prefix p.map_appended_prefix ?_
  rw [List.getElem?_map, h, Option.map_some]

/-- The values after the first events are those after the first writes. -/
theorem foldl_take_appended (base : Scalars) {n : ℕ} (h : n ≤ p.appended.length) :
    (p.appended.take n).foldl applyScalar base = valuesAfter base p.writes n := by
  have hmap : (p.appended.map VICRegWrite.write).length = p.appended.length := List.length_map _
  rw [valuesAfter_of_prefix_eq base p.map_appended_prefix (hmap ▸ h), valuesAfter, ← List.map_take,
    List.foldl_map]
  rfl

theorem length_appended_le : p.appended.length ≤ p.writes.length := by
  have h := p.map_appended_prefix.length_le
  rwa [List.length_map] at h

theorem published_le : p.published ≤ p.appended.length := by
  rw [published]
  split
  · exact Nat.sub_le _ _
  · exact le_refl _

variable {p} {base : Scalars}

theorem Sound.length_writes_le (h : p.Sound base) : p.writes.length ≤ p.published + 1 := by
  rw [writes, published]
  cases hphase : p.phase with
  | idle => simp
  | stored change => simp
  | written change =>
      obtain ⟨events, e, happended, -⟩ := h.written change hphase
      simp [happended]

/-- A write that is not published belongs to the append in progress. -/
theorem Sound.pending_of_lt (h : p.Sound base) (hlt : p.published < p.writes.length) :
    ∃ change, p.pending = some change ∧ p.writes[p.published]? = some change.write := by
  rw [writes, published] at hlt ⊢
  rw [pending]
  cases hphase : p.phase with
  | idle => simp [hphase] at hlt
  | stored change => exact ⟨change, rfl, by simp⟩
  | written change =>
      obtain ⟨events, e, happended, hwrite⟩ := h.written change hphase
      exact ⟨change, rfl, by simp [happended, hwrite]⟩

theorem Sound.writes_of_pending (h : p.Sound base) {change : VICChange}
    (hpending : p.pending = some change) : p.writes[p.published]? = some change.write := by
  obtain ⟨change', hpending', hwrite⟩ := h.pending_of_lt (by
    rw [pending] at hpending
    rw [writes, published]
    cases hphase : p.phase with
    | idle => simp [hphase] at hpending
    | stored change => simp
    | written change =>
        obtain ⟨events, e, happended, -⟩ := h.written change hphase
        simp [happended])
  rw [hpending, Option.some.injEq] at hpending'
  rw [hwrite, hpending']

end Counting

section Steps

variable {p}

/-- What one store of the emulation core can do to the history. -/
structure Follows (p p' : VICProducer) : Prop where
  appended : p.appended <+: p'.appended
  writes : p.writes <+: p'.writes
  published : p.published ≤ p'.published
  generation : p'.capture.vicLogGeneration = p.capture.vicLogGeneration

theorem Follows.refl (p : VICProducer) : p.Follows p :=
  ⟨List.prefix_rfl, List.prefix_rfl, le_refl _, rfl⟩

theorem Follows.trans {p p' p'' : VICProducer} (h : p.Follows p') (h' : p'.Follows p'') :
    p.Follows p'' :=
  ⟨h.appended.trans h'.appended, h.writes.trans h'.writes, h.published.trans h'.published,
    h'.generation.trans h.generation⟩

theorem follows_step (op : Op) : p.Follows (p.step op) := by
  cases op with
  | store change =>
      rw [step]
      split
      · next hphase =>
          refine ⟨?_, ?_, ?_, ?_⟩
          all_goals cases change <;> simp [storeShadow, writes, published, hphase]
      · exact Follows.refl p
  | writeSlot now =>
      rw [step]
      split
      · next change hphase =>
          refine ⟨List.prefix_append _ _, ?_, ?_, rfl⟩
          · simp [writes, hphase, RasterCapture.write_event]
          · simp [published, hphase]
      · exact Follows.refl p
  | publish =>
      rw [step]
      split
      · next change hphase =>
          refine ⟨List.prefix_rfl, ?_, ?_, rfl⟩
          · simp [writes, hphase]
          · simp [published, hphase]
      · exact Follows.refl p
  | retag slot lineLow tag => exact ⟨List.prefix_rfl, List.prefix_rfl, le_refl _, rfl⟩
  | notePrecise now line => exact ⟨List.prefix_rfl, List.prefix_rfl, le_refl _, rfl⟩

@[simp] theorem of_live_register (reg : BitVec 6) :
    (VICCell.register reg).of p.live = p.vicRegShadow reg := by
  change p.vicRegShadow (BitVec.ofNat 6 reg.toNat) = p.vicRegShadow reg
  rw [BitVec.ofNat_toNat, BitVec.setWidth_eq]

@[simp] theorem of_live_bank : VICCell.bank.of p.live = p.vicBank.setWidth 8 := rfl

/-- Storing a shadow byte is the write of its change. -/
theorem of_live_storeShadow (change : VICChange) (cell : VICCell) :
    cell.of (p.storeShadow change).live = cell.of (applyWrite p.live change.write) := by
  rw [cell_applyWrite]
  cases change with
  | register reg value =>
      have hcode : (reg.setWidth 16).toNat = reg.toNat := by
        rw [BitVec.toNat_setWidth, Nat.mod_eq_of_lt (lt_trans reg.isLt (by decide))]
      cases cell with
      | register r =>
          have hiff : (VICChange.register reg value).write.1 = (VICCell.register r).code ↔
              r = reg := by
            rw [BitVec.toNat_inj.symm, ← hcode]
            exact eq_comm
          rw [if_congr hiff rfl rfl, of_live_register, of_live_register]
          exact Function.update_apply _ _ _ _
      | bank =>
          have hne : (VICChange.register reg value).write.1 ≠ VICCell.bank.code := by
            change (reg.setWidth 16).toNat ≠ 0x40
            have hreg := reg.isLt
            omega
          rw [if_neg hne]
          rfl
  | bank base =>
      cases cell with
      | register r =>
          have hne : (VICChange.bank base).write.1 ≠ (VICCell.register r).code :=
            Nat.ne_of_gt r.isLt
          rw [if_neg hne]
          rfl
      | bank =>
          have hmask : ∀ base : BitVec 2, base.setWidth 8 = base.setWidth 8 &&& 3#8 := by decide
          rw [if_pos (show (VICChange.bank base).write.1 = VICCell.bank.code from rfl)]
          exact hmask base
  | pointer sprite value =>
      have hcode : ∀ sprite : BitVec 3, 0x40 < (0x50#16 + sprite.setWidth 16).toNat := by decide
      have hne : (VICChange.pointer sprite value).write.1 ≠ cell.code := by
        refine Nat.ne_of_gt (lt_of_le_of_lt ?_ (hcode sprite))
        cases cell with
        | register r => exact r.isLt.le
        | bank => exact le_refl _
      rw [if_neg hne]
      rfl

theorem Sound.store {base : Scalars} (h : p.Sound base) (change : VICChange)
    (hphase : p.phase = .idle) :
    ({ p.storeShadow change with phase := .stored change } : VICProducer).Sound base := by
  have hcapture : (p.storeShadow change).capture = p.capture := by cases change <;> rfl
  have happended : (p.storeShadow change).appended = p.appended := by cases change <;> rfl
  have hwrites : p.writes = p.appended.map VICRegWrite.write := by rw [writes, hphase]
  have hpublished : p.published = p.appended.length := by rw [published, hphase]
  refine ⟨?_, ?_, ?_, ?_⟩
  · change (p.storeShadow change).capture.vicLogHead = _
    rw [hcapture, h.head, hpublished, published, happended]
  · change ∀ n e, (p.storeShadow change).appended[n]? = some e →
      (p.storeShadow change).appended.length ≤ _ →
        ((p.storeShadow change).capture.vicLog _).Matches e
    rw [hcapture, happended]
    exact h.kept
  · intro cell
    have hstored : ({ p.storeShadow change with phase := .stored change } : VICProducer).writes =
        p.writes ++ [change.write] := by
      rw [hwrites, writes, happended]
    have hlive := h.live cell
    rw [hstored, valuesAfter_length, List.foldl_append]
    rw [valuesAfter_length] at hlive
    refine (of_live_storeShadow change cell).trans ?_
    rw [cell_applyWrite, hlive]
    exact (cell_applyWrite _ _ cell).symm
  · intro change' hwritten
    cases hwritten

/-- Writing the slot of event `n` leaves the 2047 events before it. -/
theorem Sound.writeSlot {base : Scalars} (h : p.Sound base) (now : BitVec 32) (change : VICChange)
    (hphase : p.phase = .stored change) :
    ({ p with
        capture := p.capture.writeSlot now change.code change.value
        phase := .written change
        appended := p.appended ++ [p.capture.event now change.code change.value] } :
      VICProducer).Sound base := by
  have hpublished : p.published = p.appended.length := by rw [published, hphase]
  have hslot : (p.capture.vicLogHead &&& 0x7FF#32).toNat = p.appended.length % vicLogSize := by
    rw [h.head, hpublished, slot_ofNat]
  refine ⟨?_, ?_, ?_, ?_⟩
  · change p.capture.vicLogHead = _
    rw [h.head, hpublished, published]
    simp
  · intro n e hn hlen
    rw [List.length_append, List.length_singleton] at hlen
    change (Function.update p.capture.vicLog (p.capture.vicLogHead &&& 0x7FF#32).toNat
      (p.capture.event now change.code change.value) (n % vicLogSize)).Matches e
    rw [hslot]
    by_cases hlast : n = p.appended.length
    · rw [hlast, List.getElem?_concat_length, Option.some.injEq] at hn
      rw [hlast, Function.update_self, hn]
      exact VICRegWrite.Matches.refl e
    · have hlt : n < p.appended.length := by
        have hlt := (List.getElem?_eq_some_iff.mp hn).1
        rw [List.length_append, List.length_singleton] at hlt
        omega
      have hne : n % vicLogSize ≠ p.appended.length % vicLogSize := by
        simp only [vicLogSize] at hlen ⊢
        omega
      rw [List.getElem?_append_left hlt] at hn
      rw [Function.update_of_ne hne]
      exact h.kept n e hn (by omega)
  · intro cell
    have hwrites : ({ p with
        capture := p.capture.writeSlot now change.code change.value
        phase := .written change
        appended := p.appended ++ [p.capture.event now change.code change.value] } :
          VICProducer).writes = p.writes := by
      rw [writes, writes, hphase]
      simp [RasterCapture.write_event]
    rw [hwrites]
    exact h.live cell
  · intro change' hwritten
    obtain rfl := AppendPhase.written.inj hwritten
    exact ⟨p.appended, _, rfl, RasterCapture.write_event _ _ _⟩

theorem Sound.publish {base : Scalars} (h : p.Sound base) (change : VICChange)
    (hphase : p.phase = .written change) :
    ({ p with capture := p.capture.publish, phase := .idle } : VICProducer).Sound base := by
  obtain ⟨events, e, happended, -⟩ := h.written change hphase
  have hpublished : p.published = events.length := by
    rw [published, hphase, happended]
    simp
  refine ⟨?_, h.kept, ?_, ?_⟩
  · change p.capture.vicLogHead + 1 = _
    rw [h.head, hpublished, published, happended, List.length_append, BitVec.ofNat_add]
    rfl
  · have hwrites : ({ p with capture := p.capture.publish, phase := .idle } : VICProducer).writes =
        p.writes := by
      rw [writes, writes, hphase]
    rw [hwrites]
    exact h.live
  · intro change' hwritten
    cases hwritten

theorem Sound.retag {base : Scalars} (h : p.Sound base) (slot : ℕ) (lineLow : Byte)
    (tag : BitVec 16) :
    ({ p with capture := p.capture.retag slot lineLow tag } : VICProducer).Sound base := by
  refine ⟨h.head, ?_, h.live, h.written⟩
  intro n e hn hlen
  change (Function.update p.capture.vicLog slot _ (n % vicLogSize)).Matches e
  by_cases hslot : n % vicLogSize = slot
  · rw [hslot, Function.update_self]
    rw [← hslot]
    exact (RasterCapture.matches_retagged _ _ _).trans (h.kept n e hn hlen)
  · rw [Function.update_of_ne hslot]
    exact h.kept n e hn hlen

/-- No store of the emulation core breaks the tie between the history and the memory. -/
theorem Sound.step {base : Scalars} (h : p.Sound base) (op : Op) : (p.step op).Sound base := by
  cases op with
  | store change =>
      rw [VICProducer.step]
      split
      · next hphase => exact h.store change hphase
      · exact h
  | writeSlot now =>
      rw [VICProducer.step]
      split
      · next change hphase => exact h.writeSlot now change hphase
      · exact h
  | publish =>
      rw [VICProducer.step]
      split
      · next change hphase => exact h.publish change hphase
      · exact h
  | retag slot lineLow tag => exact h.retag slot lineLow tag
  | notePrecise now line => exact ⟨h.head, h.kept, h.live, h.written⟩

end Steps

end VICProducer

end ScpuEmu
