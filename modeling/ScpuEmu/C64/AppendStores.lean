import ScpuEmu.C64.FetchCoherence
import ScpuEmu.C64.LogProducer
import ScpuEmu.C64.Memory

/-!
# A register write as a run of stores

The memory model writes a VIC register, tags the log and appends to it in one go. Here
that is one run of the producer's stores, so whatever holds between any two stores of
the producer holds throughout such a write.
-/

namespace ScpuEmu

open Library

namespace VICProducer

variable {p : VICProducer}

section Sequential

/-- Between two writes of the emulation core, the object as its own code sees it. -/
structure Shows (p : VICProducer) (c : RasterCapture) (shadow : BitVec 6 → Byte) (bank : Byte) :
    Prop where
  log : p.capture.vicLog = c.vicLog
  head : p.capture.vicLogHead = c.vicLogHead
  generation : p.capture.vicLogGeneration = c.vicLogGeneration
  preciseAnchor : p.capture.lastPreciseAnchor = c.lastPreciseAnchor
  preciseLine : p.capture.lastPreciseLine = c.lastPreciseLine
  shadow : p.vicRegShadow = shadow
  bank : p.vicBank.setWidth 8 = bank
  idle : p.phase = .idle

variable {c : RasterCapture} {shadow : BitVec 6 → Byte} {bank : Byte}

/-- An append is its three stores. -/
theorem Shows.appendVICLog (h : p.Shows c shadow bank) (henabled : c.vicLogEnabled = true)
    (change : VICChange) (now : BitVec 32) :
    (run step p [.store change, .writeSlot now, .publish]).Shows
      (c.appendVICLog now change.code change.value) (p.storeShadow change).vicRegShadow
      ((p.storeShadow change).vicBank.setWidth 8) := by
  have hcapture : (p.storeShadow change).capture = p.capture := by cases change <;> rfl
  have hrun : run step p [.store change, .writeSlot now, .publish] =
      { p.storeShadow change with
        capture := (p.capture.writeSlot now change.code change.value).publish
        phase := .idle
        appended := (p.storeShadow change).appended ++
          [p.capture.event now change.code change.value] } := by
    rw [run_cons, step, h.idle, ← hcapture]
    rfl
  have hevent : p.capture.event now change.code change.value =
      c.event now change.code change.value := by
    rw [RasterCapture.event, RasterCapture.event, h.preciseAnchor, h.preciseLine]
  rw [hrun, c.appendVICLog_eq now henabled]
  refine ⟨?_, ?_, h.generation, h.preciseAnchor, h.preciseLine, rfl, rfl, rfl⟩
  · change Function.update p.capture.vicLog _ (p.capture.event now change.code change.value) = _
    rw [hevent, h.log, h.head]
    rfl
  · change p.capture.vicLogHead + 1 = c.vicLogHead + 1
    rw [h.head]

/-- Tagging the events before a raster compare is one store after the other. -/
theorem exists_run_tagBack (now perLine : BitVec 32) (exact : BitVec 16) (head : BitVec 32)
    (left : ℕ) (back lineStart : BitVec 32) (p : VICProducer) :
    ∃ ops, run step p ops = { p with capture := { p.capture with
      vicLog := (RasterCapture.tagBack now perLine exact head left back p.capture.vicLog
        lineStart).1 } } := by
  induction left generalizing back lineStart p with
  | zero => exact ⟨[], rfl⟩
  | succ left ih =>
      rw [RasterCapture.tagBack]
      split
      · exact ⟨[], rfl⟩
      · dsimp only
        split
        · exact ⟨[], rfl⟩
        · split
          · exact ih _ _ p
          · set slot := ((head - back) &&& 0x7FF#32).toNat with hslot
            set high : BitVec 16 := if exact &&& 0x100#16 ≠ 0 then 0x8000 else 0 with hhigh
            have htag : (0x4000#16 ||| high) &&& 0xC000#16 = 0x4000#16 ||| high := by
              rw [hhigh]
              split <;> decide
            obtain ⟨ops, hops⟩ := ih (back + 1) (p.capture.vicLog slot).cycle
              (p.step (.retag slot (exact.setWidth 8) (0x4000#16 ||| high)))
            refine ⟨.retag slot (exact.setWidth 8) (0x4000#16 ||| high) :: ops, ?_⟩
            rw [run_cons, hops]
            change ({ p with capture := { p.capture with
              vicLog := (RasterCapture.tagBack now perLine exact head left (back + 1)
                (Function.update p.capture.vicLog slot
                  (RasterCapture.retagged (p.capture.vicLog slot) (exact.setWidth 8)
                    (0x4000#16 ||| high))) (p.capture.vicLog slot).cycle).1 } } :
              VICProducer) = _
            rw [RasterCapture.retagged, htag, ← BitVec.or_assoc]

theorem Shows.noteRasterPrecise (h : p.Shows c shadow bank) (now perLine : BitVec 32)
    (line : BitVec 16) :
    ∃ ops, (run step p ops).Shows (c.noteRasterPrecise now perLine line) shadow bank := by
  obtain ⟨ops, hops⟩ := exists_run_tagBack now perLine (line &&& 0x1FF#16) c.vicLogHead 8 1 now p
  refine ⟨ops ++ [.notePrecise now (line &&& 0x1FF#16)], ?_⟩
  rw [run_append, hops, h.log]
  exact ⟨rfl, h.head, h.generation, rfl, rfl, h.shadow, h.bank, h.idle⟩

theorem Shows.noteCompare (h : p.Shows c shadow bank) (now perLine : BitVec 32) (vicReg : BitVec 6)
    (value d011 : Byte) :
    ∃ ops, (run step p ops).Shows (c.noteCompare now perLine vicReg value d011) shadow bank := by
  have hsettled : ∀ settled : Bool, ∃ ops, (run step p ops).Shows
      (if settled then c.noteRasterPrecise now perLine c.rasterCompare else c) shadow bank := by
    intro settled
    cases settled with
    | true => exact h.noteRasterPrecise now perLine _
    | false => exact ⟨[], h⟩
  rw [RasterCapture.noteCompare]
  split
  · exact ⟨[], h⟩
  · dsimp only
    split
    · obtain ⟨ops, hops⟩ := hsettled (decide (256#32 ≤ now - c.lastCompareWrite))
      exact ⟨ops, hops.log, hops.head, hops.generation, hops.preciseAnchor, hops.preciseLine,
        hops.shadow, hops.bank, hops.idle⟩
    · split
      · exact h.noteRasterPrecise now perLine _
      · exact ⟨[], h⟩

theorem vicLogEnabled_noteCompare (now perLine : BitVec 32) (vicReg : BitVec 6)
    (value d011 : Byte) :
    (c.noteCompare now perLine vicReg value d011).vicLogEnabled = c.vicLogEnabled := by
  rw [RasterCapture.noteCompare]
  split
  · rfl
  · dsimp only
    split
    · split <;> rfl
    · split <;> rfl

variable {m : CC64Memory}

/-- A write of a VIC register is a run of such stores: tags, then an append. -/
theorem Shows.trackVICWrite (h : p.Shows m.capture m.fetch.vicRegShadow bank)
    (henabled : m.capture.vicLogEnabled = true) (perLine : BitVec 32) (vicReg : BitVec 6)
    (value : Byte) :
    ∃ ops, (run step p ops).Shows (ScpuEmu.trackVICWrite perLine vicReg value m).capture
      (ScpuEmu.trackVICWrite perLine vicReg value m).fetch.vicRegShadow bank := by
  obtain ⟨ops, hops⟩ := h.noteCompare m.stamp perLine vicReg value (m.fetch.vicRegShadow 0x11)
  set compared := m.capture.noteCompare m.stamp perLine vicReg value (m.fetch.vicRegShadow 0x11)
    with hcompared
  have hcomparedEnabled : compared.vicLogEnabled = true := by
    rw [hcompared, vicLogEnabled_noteCompare, henabled]
  set shadow := Function.update m.fetch.vicRegShadow vicReg value with hshadow
  set aimed : RasterCapture :=
    if vicReg = 0x11 ∨ vicReg = 0x12 then
      { compared with
        rasterCompare := (shadow 0x12).setWidth 16 |||
          if shadow 0x11 &&& 0x80#8 ≠ 0 then 0x100 else 0 }
    else compared with haimed
  have hshows : (run step p ops).Shows aimed m.fetch.vicRegShadow bank := by
    rw [haimed]
    split
    · exact ⟨hops.log, hops.head, hops.generation, hops.preciseAnchor, hops.preciseLine,
        hops.shadow, hops.bank, hops.idle⟩
    · exact hops
  have haimedEnabled : aimed.vicLogEnabled = true := by
    rw [haimed]
    split <;> exact hcomparedEnabled
  have htrack : (ScpuEmu.trackVICWrite perLine vicReg value m).capture =
      aimed.appendVICLog m.stamp (vicReg.setWidth 16) value ∧
        (ScpuEmu.trackVICWrite perLine vicReg value m).fetch.vicRegShadow = shadow := by
    rw [ScpuEmu.trackVICWrite, haimed]
    split <;> split <;> exact ⟨rfl, rfl⟩
  refine ⟨ops ++ [.store (.register vicReg value), .writeSlot m.stamp, .publish], ?_⟩
  rw [run_append, htrack.1, htrack.2]
  have hdone := hshows.appendVICLog haimedEnabled (.register vicReg value) m.stamp
  rw [storeShadow, hops.shadow, hops.bank] at hdone
  exact hdone

/-- So is the log of a bank that may have changed. -/
theorem Shows.logVICBank (h : p.Shows m.capture m.fetch.vicRegShadow bank)
    (henabled : m.capture.vicLogEnabled = true) :
    ∃ ops, (run step p ops).Shows m.logVICBank.capture m.fetch.vicRegShadow m.fetch.vicBank := by
  have hbank : ((m.fetch.vicBank.setWidth 2 : BitVec 2).setWidth 8) = m.fetch.vicBank := by
    have hlt := m.fetch.vicBank_lt
    refine BitVec.eq_of_toNat_eq ?_
    rw [BitVec.toNat_setWidth, BitVec.toNat_setWidth]
    omega
  have hdone := h.appendVICLog henabled (.bank (m.fetch.vicBank.setWidth 2)) m.stamp
  rw [storeShadow, h.shadow] at hdone
  refine ⟨[.store (.bank (m.fetch.vicBank.setWidth 2)), .writeSlot m.stamp, .publish], ?_⟩
  rw [VICChange.value, hbank] at hdone
  exact hdone

end Sequential

end VICProducer

end ScpuEmu
