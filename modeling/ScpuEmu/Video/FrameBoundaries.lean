import ScpuEmu.Video.Bands
import ScpuEmu.Video.Renderer
import ScpuEmu.Library.Sweep

/-!
# Frame boundaries in the event log

Events without a line tag are placed by their cycle stamps. The anchor says where
the beam was at one stamp, so a stamp less than `2 ^ 31` cycles away fixes the line
and the frame of an event. The scan takes a falling line or a gap of nearly a frame
for a new frame.

It misses no frame. It splits one in two when its only events lie on the first and
on the last line, at least `rasterLines - 1` lines apart: the gap is then long enough
although the beam has not passed line 0.
-/

namespace ScpuEmu

open Library

namespace VICRasterTiming

/-- `CHDMIDisplay::setVideoTiming`. A timing out of range is ignored. -/
def setVideoTiming (timing : VICRasterTiming)
    (cyclesPerLine rasterLines displayFirstLine : BitVec 32) : VICRasterTiming :=
  if cyclesPerLine < 48 ∨ 80 < cyclesPerLine ∨ rasterLines < 240 ∨ 320 < rasterLines then timing
  else
    { cyclesPerLine
      rasterLines
      frameRows := BitVec.ofNat 32 vicRenderHeight
      topRaster := displayFirstLine.toInt - vicRenderDisplayY
      displayFirstRow := BitVec.ofNat 32 vicRenderDisplayY
      displayRows := BitVec.ofNat 32 vicRenderDisplayH }

/-- A frame has more than one line of more than one cycle, and its cycles fit an `s32`. -/
structure FrameFits (timing : VICRasterTiming) : Prop where
  two_le_cycles : 2 ≤ timing.cyclesPerLine.toNat
  two_le_lines : 2 ≤ timing.rasterLines.toNat
  frame_lt : timing.cyclesPerLine.toNat * timing.rasterLines.toNat < 2 ^ 31

theorem setVideoTiming_frameFits {timing : VICRasterTiming} (h : timing.FrameFits)
    (cyclesPerLine rasterLines displayFirstLine : BitVec 32) :
    (timing.setVideoTiming cyclesPerLine rasterLines displayFirstLine).FrameFits := by
  rw [setVideoTiming]
  split
  · exact h
  · rename_i hrange
    simp only [not_or, BitVec.not_lt, BitVec.le_def] at hrange
    obtain ⟨hcycles, hcycles', hlines, hlines'⟩ := hrange
    have hframe := Nat.mul_le_mul hcycles' hlines'
    exact ⟨le_trans (by decide) hcycles, le_trans (by decide) hlines,
      lt_of_le_of_lt hframe (by decide)⟩

variable {timing : VICRasterTiming}

theorem FrameFits.cycles_lt (h : timing.FrameFits) : timing.cyclesPerLine.toNat < 2 ^ 31 :=
  lt_of_le_of_lt (Nat.le_mul_of_pos_right _ (by have := h.two_le_lines; omega)) h.frame_lt

theorem FrameFits.lines_lt (h : timing.FrameFits) : timing.rasterLines.toNat < 2 ^ 31 :=
  lt_of_le_of_lt (Nat.le_mul_of_pos_left _ (by have := h.two_le_cycles; omega)) h.frame_lt

end VICRasterTiming

namespace VICRasterTimeline

/-- The cycle stamp at the anchor. -/
def anchorCycle (anchor : BitVec 64) : BitVec 32 := (anchor >>> 16).setWidth 32

/-- The line the beam enters at the anchor. -/
def anchorLine (anchor : BitVec 64) : ℕ := (anchor &&& 0x1FF#64).toNat

variable (log : VICLog) (anchor : BitVec 64) (timing : VICRasterTiming)

/-- Cycles from the start of line 0 of the anchor's frame, `t` cycles after the anchor. -/
def beamTime (t : ℤ) : ℤ := t + anchorLine anchor * timing.cyclesPerLine.toNat

/-- The beam enters line 0 after the time `s` and no later than `t`. Times count from the
anchor. -/
def PassesLineZero (s t : ℤ) : Prop :=
  ∃ k : ℤ, s < (k * timing.rasterLines.toNat - anchorLine anchor) * timing.cyclesPerLine.toNat ∧
    (k * timing.rasterLines.toNat - anchorLine anchor) * timing.cyclesPerLine.toNat ≤ t

/-- The times `s` and `t` lie on the first and on the last line, less than a frame apart
but at least a frame less one line. -/
def SpansFrame (s t : ℤ) : Prop :=
  EndToEnd timing.cyclesPerLine.toNat timing.rasterLines.toNat (beamTime anchor timing s)
    (beamTime anchor timing t)

/-- The unread events are untagged, and event `i` happened `time i` cycles after the
anchor. -/
structure UntaggedLog (tail head : BitVec 32) (time : BitVec 32 → ℤ) : Prop where
  untagged : ∀ i ∈ cyclicRange tail head, (rasterEvent log i).hasRasterLine = false
  stamp : ∀ i ∈ cyclicRange tail head,
    (rasterEvent log i).cycle = anchorCycle anchor + BitVec.ofInt 32 (time i)
  lower : ∀ i ∈ cyclicRange tail head, -2 ^ 31 ≤ time i
  upper : ∀ i ∈ cyclicRange tail head, time i < 2 ^ 31
  mono : ∀ i ∈ cyclicRange tail head, i ≠ tail → time (i - 1#32) ≤ time i

/-- The scan takes event `i` for the first of a new frame. -/
def Detects (tail i : BitVec 32) : Prop :=
  ∃ s, scanFrames log anchor timing tail (cyclicRange tail (i + 1#32)) ⟨tail, tail, -1, 0⟩ =
      some s ∧ s.frameStart = i

/-- The boundaries detected are the passages through line 0. -/
def BoundariesExact (tail head : BitVec 32) (time : BitVec 32 → ℤ) : Prop :=
  ∀ i ∈ cyclicRange tail head, i ≠ tail →
    (Detects log anchor timing tail i ↔ PassesLineZero anchor timing (time (i - 1#32)) (time i))

variable {log anchor timing}

/-- The line of a stamp is the line of the beam at that time. -/
theorem lineOfCycle_eq (hvalid : anchor >>> 63 ≠ 0) (hfits : timing.FrameFits) {cycle : BitVec 32}
    {t : ℤ} (hcycle : cycle = anchorCycle anchor + BitVec.ofInt 32 t) (hlo : -2 ^ 31 ≤ t)
    (hhi : t < 2 ^ 31) :
    lineOfCycle anchor timing cycle =
      sweepLine timing.cyclesPerLine.toNat timing.rasterLines.toNat (beamTime anchor timing t) := by
  have hcycles := hfits.two_le_cycles
  have hlines := hfits.two_le_lines
  have hdelta : (cycle - (anchor >>> 16).setWidth 32).toInt = t := by
    rw [hcycle, anchorCycle, add_sub_cancel_left,
      BitVec.toInt_ofInt_eq_self (by decide) (by omega) (by omega)]
  have hw : timing.cyclesPerLine.toInt = timing.cyclesPerLine.toNat :=
    BitVec.toInt_eq_toNat_of_lt (by have := hfits.cycles_lt; omega)
  have hn : timing.rasterLines.toInt = timing.rasterLines.toNat :=
    BitVec.toInt_eq_toNat_of_lt (by have := hfits.lines_lt; omega)
  have hvalid' : ¬(timing.cyclesPerLine = 0 ∨ timing.rasterLines = 0 ∨ anchor >>> 63 = 0) := by
    rintro (hzero | hzero | hzero)
    · rw [hzero] at hcycles
      exact absurd hcycles (by decide)
    · rw [hzero] at hlines
      exact absurd hlines (by decide)
    · exact hvalid hzero
  have hpos : (0 : ℤ) < timing.cyclesPerLine.toNat := by omega
  have hpos' : (0 : ℤ) < timing.rasterLines.toNat := by omega
  rw [lineOfCycle, if_neg hvalid']
  simp only [hdelta, hw, hn]
  rw [tdiv_corrected hpos, tmod_corrected hpos', sweepLine, beamTime, anchorLine,
    Int.add_mul_ediv_right _ _ hpos.ne', Int.add_comm]

theorem passesLineZero_iff (hfits : timing.FrameFits) {s t : ℤ} :
    PassesLineZero anchor timing s t ↔
      sweepCount timing.cyclesPerLine.toNat timing.rasterLines.toNat (beamTime anchor timing s) <
        sweepCount timing.cyclesPerLine.toNat timing.rasterLines.toNat
          (beamTime anchor timing t) := by
  have hcycles := hfits.two_le_cycles
  have hlines := hfits.two_le_lines
  rw [sweepCount_lt_iff (by omega) (by omega), PassesLineZero]
  refine exists_congr fun k => ?_
  rw [beamTime, beamTime, sub_mul, lt_sub_iff_add_lt, sub_le_iff_le_add]

/-! ## The scan, one event at a time -/

theorem scanFrames_append (tail : BitVec 32) (l l' : List (BitVec 32)) (s : Scan) :
    scanFrames log anchor timing tail (l ++ l') s =
      (scanFrames log anchor timing tail l s).bind (scanFrames log anchor timing tail l') := by
  induction l generalizing s with
  | nil => rfl
  | cons i rest ih =>
      rw [List.cons_append, scanFrames, scanFrames]
      split
      · rfl
      · exact ih _

theorem scanFrames_singleton {tail i : BitVec 32} {s : Scan}
    (hline : 0 ≤ lineAt log anchor timing i) :
    scanFrames log anchor timing tail [i] s =
      some (s.next timing tail i (rasterEvent log i) (lineAt log anchor timing i)) := by
  rw [scanFrames, scanFrames]
  exact if_neg (not_lt.mpr hline)

/-- Over events that have lines the scan goes through, and a frame starts at one of them. -/
theorem scanFrames_run (tail : BitVec 32) (l : List (BitVec 32)) (s : Scan)
    (hlines : ∀ i ∈ l, 0 ≤ lineAt log anchor timing i) :
    ∃ s', scanFrames log anchor timing tail l s = some s' ∧
      (s'.frameStart = s.frameStart ∨ s'.frameStart ∈ l) := by
  induction l generalizing s with
  | nil => exact ⟨s, rfl, .inl rfl⟩
  | cons i rest ih =>
      obtain ⟨hline, hrest⟩ := List.forall_mem_cons.mp hlines
      obtain ⟨s', hs', hstart⟩ :=
        ih (s.next timing tail i (rasterEvent log i) (lineAt log anchor timing i)) hrest
      refine ⟨s', ?_, ?_⟩
      · rw [scanFrames]
        exact (if_neg (not_lt.mpr hline)).trans hs'
      · rcases hstart with hstart | hstart
        · rw [hstart, Scan.next]
          split
          · exact .inr (List.mem_cons_self ..)
          · exact .inl rfl
        · exact .inr (List.mem_cons_of_mem _ hstart)

/-- A boundary is detected from the lines and the stamps of two neighbours. -/
theorem detects_iff {tail head i : BitVec 32}
    (hlines : ∀ j ∈ cyclicRange tail head, 0 ≤ lineAt log anchor timing j)
    (hi : i ∈ cyclicRange tail head) (hne : i ≠ tail) :
    Detects log anchor timing tail i ↔
      lineAt log anchor timing i < lineAt log anchor timing (i - 1#32) ∨
        frameCycles timing - timing.cyclesPerLine ≤
          (rasterEvent log i).cycle - (rasterEvent log (i - 1#32)).cycle := by
  obtain ⟨hpred, hbefore⟩ := pred_mem_cyclicRange hi hne
  have hsplit : cyclicRange tail i = cyclicRange tail (i - 1#32) ++ [i - 1#32] := by
    have hconcat := cyclicRange_concat hpred
    rwa [BitVec.sub_add_cancel] at hconcat
  have hsub : ∀ j ∈ cyclicRange tail i, j ∈ cyclicRange tail head := by
    intro j hj
    rw [mem_cyclicRange] at hj hi ⊢
    omega
  have hearlier : ∀ j ∈ cyclicRange tail (i - 1#32), 0 ≤ lineAt log anchor timing j := by
    intro j hj
    refine hlines j (hsub j ?_)
    rw [hsplit]
    exact List.mem_append_left _ hj
  obtain ⟨s, hs, hstart⟩ := scanFrames_run tail _ ⟨tail, tail, -1, 0⟩ hearlier
  set s' := s.next timing tail (i - 1#32) (rasterEvent log (i - 1#32))
    (lineAt log anchor timing (i - 1#32)) with hs'
  have hscan : scanFrames log anchor timing tail (cyclicRange tail (i + 1#32)) ⟨tail, tail, -1, 0⟩ =
      some (s'.next timing tail i (rasterEvent log i) (lineAt log anchor timing i)) := by
    rw [cyclicRange_concat hi, hsplit, scanFrames_append, scanFrames_append, hs, Option.bind_some,
      scanFrames_singleton (hlines _ hpred), Option.bind_some, scanFrames_singleton (hlines i hi)]
  -- the event before is the one the scan compares with
  have hprevious : s'.previousLine = lineAt log anchor timing (i - 1#32) ∧
      s'.previousCycle = (rasterEvent log (i - 1#32)).cycle := by
    rw [hs', Scan.next]
    split <;> exact ⟨rfl, rfl⟩
  have hfresh : s'.frameStart ≠ i := by
    have hmem : s'.frameStart = tail ∨ s'.frameStart ∈ cyclicRange tail i := by
      rw [hs', Scan.next, hsplit]
      split
      · exact .inr (List.mem_append_right _ (List.mem_singleton_self _))
      · exact hstart.imp_right (List.mem_append_left _)
    intro heq
    rw [heq] at hmem
    rcases hmem with hmem | hmem
    · exact hne hmem
    · exact (between_of_mem hmem).2 rfl
  rw [Detects]
  constructor
  · rintro ⟨t, ht, hti⟩
    rw [hscan, Option.some.injEq] at ht
    rw [← ht, Scan.next] at hti
    split at hti
    · rename_i hnew
      rw [hprevious.1, hprevious.2] at hnew
      exact hnew.2
    · exact absurd hti hfresh
  · intro hnew
    refine ⟨_, hscan, ?_⟩
    rw [Scan.next, if_pos ⟨hne, by rw [hprevious.1, hprevious.2]; exact hnew⟩]

namespace UntaggedLog

variable {tail head : BitVec 32} {time : BitVec 32 → ℤ}

theorem lineAt_eq (h : UntaggedLog log anchor tail head time) (hvalid : anchor >>> 63 ≠ 0)
    (hfits : timing.FrameFits) {i : BitVec 32} (hi : i ∈ cyclicRange tail head) :
    lineAt log anchor timing i =
      sweepLine timing.cyclesPerLine.toNat timing.rasterLines.toNat
        (beamTime anchor timing (time i)) := by
  rw [lineAt, lineOfEvent, h.untagged i hi, if_neg Bool.false_ne_true]
  exact lineOfCycle_eq hvalid hfits (h.stamp i hi) (h.lower i hi) (h.upper i hi)

/-- The gap the scan compares is the time between the events. -/
theorem gap_eq (h : UntaggedLog log anchor tail head time) {i : BitVec 32}
    (hi : i ∈ cyclicRange tail head) (hne : i ≠ tail) :
    (((rasterEvent log i).cycle - (rasterEvent log (i - 1#32)).cycle).toNat : ℤ) =
      time i - time (i - 1#32) := by
  have hpred := (pred_mem_cyclicRange hi hne).1
  have hmono := h.mono i hi hne
  have hlo := h.lower _ hpred
  have hhi := h.upper i hi
  have hsum : BitVec.ofInt 32 (time i) =
      BitVec.ofInt 32 (time i - time (i - 1#32)) + BitVec.ofInt 32 (time (i - 1#32)) := by
    rw [← BitVec.ofInt_add, sub_add_cancel]
  rw [h.stamp i hi, h.stamp _ hpred, add_sub_add_left_eq_sub, hsum, add_sub_cancel_right,
    BitVec.toNat_ofInt, Int.toNat_of_nonneg (by omega)]
  exact Int.emod_eq_of_lt (by omega) (by omega)

/-- A boundary is detected where the beam passes line 0, and between two events at the
ends of one frame. -/
theorem detects_iff (h : UntaggedLog log anchor tail head time) (hvalid : anchor >>> 63 ≠ 0)
    (hfits : timing.FrameFits) {i : BitVec 32} (hi : i ∈ cyclicRange tail head) (hne : i ≠ tail) :
    Detects log anchor timing tail i ↔
      PassesLineZero anchor timing (time (i - 1#32)) (time i) ∨
        SpansFrame anchor timing (time (i - 1#32)) (time i) := by
  have hcycles := hfits.two_le_cycles
  have hlines := hfits.two_le_lines
  have hpred := (pred_mem_cyclicRange hi hne).1
  have hmono := h.mono i hi hne
  have hthreshold : ((frameCycles timing - timing.cyclesPerLine).toNat : ℤ) =
      ((timing.rasterLines.toNat : ℤ) - 1) * timing.cyclesPerLine.toNat := by
    have hframe : (frameCycles timing).toNat =
        timing.cyclesPerLine.toNat * timing.rasterLines.toNat := by
      rw [frameCycles, BitVec.toNat_mul]
      exact Nat.mod_eq_of_lt (lt_trans hfits.frame_lt (by decide))
    have hle : timing.cyclesPerLine.toNat ≤
        timing.cyclesPerLine.toNat * timing.rasterLines.toNat :=
      Nat.le_mul_of_pos_right _ (by omega)
    rw [BitVec.toNat_sub_of_le (by rw [BitVec.le_def, hframe]; exact hle), hframe,
      Nat.cast_sub hle]
    push_cast
    rw [sub_mul, one_mul, mul_comm (timing.cyclesPerLine.toNat : ℤ)]
  have hgap : frameCycles timing - timing.cyclesPerLine ≤
        (rasterEvent log i).cycle - (rasterEvent log (i - 1#32)).cycle ↔
      ((timing.rasterLines.toNat : ℤ) - 1) * timing.cyclesPerLine.toNat ≤
        beamTime anchor timing (time i) - beamTime anchor timing (time (i - 1#32)) := by
    rw [BitVec.le_def, ← Int.ofNat_le, hthreshold, h.gap_eq hi hne, beamTime, beamTime,
      add_sub_add_right_eq_sub]
  have hnonneg : ∀ j ∈ cyclicRange tail head, 0 ≤ lineAt log anchor timing j := by
    intro j hj
    rw [h.lineAt_eq hvalid hfits hj]
    exact sweepLine_nonneg (by omega)
  rw [VICRasterTimeline.detects_iff hnonneg hi hne, h.lineAt_eq hvalid hfits hi,
    h.lineAt_eq hvalid hfits hpred, hgap, passesLineZero_iff hfits]
  exact line_falls_or_gap_iff (by omega) (by omega) (by rw [beamTime, beamTime]; omega)

end UntaggedLog

/-- The beam does not pass line 0 between two events at the ends of one frame. -/
theorem SpansFrame.not_passesLineZero (hfits : timing.FrameFits) {s t : ℤ} (hst : s ≤ t)
    (h : SpansFrame anchor timing s t) : ¬PassesLineZero anchor timing s t := by
  have hcycles := hfits.two_le_cycles
  have hlines := hfits.two_le_lines
  have hsame := EndToEnd.sweepCount_eq (by omega) (by omega)
    (by rw [beamTime, beamTime]; omega) h
  rw [passesLineZero_iff hfits, hsame]
  exact lt_irrefl _

/-- The boundaries detected are the passages through line 0 exactly when no two
neighbours lie at the ends of one frame. -/
theorem boundariesExact_iff {tail head : BitVec 32} {time : BitVec 32 → ℤ}
    (h : UntaggedLog log anchor tail head time) (hvalid : anchor >>> 63 ≠ 0)
    (hfits : timing.FrameFits) :
    BoundariesExact log anchor timing tail head time ↔
      ∀ i ∈ cyclicRange tail head, i ≠ tail →
        ¬SpansFrame anchor timing (time (i - 1#32)) (time i) := by
  refine forall₃_congr fun i hi hne => ?_
  rw [h.detects_iff hvalid hfits hi hne]
  constructor
  · intro hexact hspans
    exact hspans.not_passesLineZero hfits (h.mono i hi hne) (hexact.mp (.inr hspans))
  · intro hspans
    exact or_iff_left hspans

instance (w n s t : ℤ) : Decidable (EndToEnd w n s t) :=
  inferInstanceAs (Decidable (_ ∧ _ ∧ _ ∧ _))

instance (anchor : BitVec 64) (timing : VICRasterTiming) (s t : ℤ) :
    Decidable (SpansFrame anchor timing s t) := inferInstanceAs (Decidable (EndToEnd _ _ _ _))

theorem palTiming_frameFits : palTiming.FrameFits := ⟨by decide, by decide, by decide⟩

/-- Two untagged writes of the border colour. -/
def twoWrites (first second : BitVec 32) : VICLog := fun n =>
  if n = 0 then ⟨first, 0x20, 2, 0⟩ else ⟨second, 0x20, 6, 0⟩

/-- Their times, from an anchor at stamp 0. -/
def twoTimes (first second : BitVec 32) (i : BitVec 32) : ℤ :=
  if i = 0 then first.toInt else second.toInt

theorem mem_twoWrites {i : BitVec 32} (h : i ∈ cyclicRange (0 : BitVec 32) 2) : i = 0 ∨ i = 1 := by
  have hrange : cyclicRange (0 : BitVec 32) 2 = [0, 1] := by decide
  rw [hrange, List.mem_cons, List.mem_singleton] at h
  exact h

theorem twoWrites_untagged {first second : BitVec 32} (h : first.toInt ≤ second.toInt) :
    UntaggedLog (twoWrites first second) (1#64 <<< 63) 0 2 (twoTimes first second) := by
  have hlo : ∀ stamp : BitVec 32, -2 ^ 31 ≤ stamp.toInt := BitVec.le_toInt
  have hhi : ∀ stamp : BitVec 32, stamp.toInt < 2 ^ 31 := fun stamp => BitVec.toInt_lt
  refine ⟨?_, ?_, ?_, ?_, ?_⟩ <;> intro i hi <;> rcases mem_twoWrites hi with rfl | rfl
  · simp [twoWrites, rasterEvent, VICRegWrite.hasRasterLine]
  · simp [twoWrites, rasterEvent, VICRegWrite.hasRasterLine]
  · simp [twoWrites, twoTimes, rasterEvent, anchorCycle]
  · simp [twoWrites, twoTimes, rasterEvent, anchorCycle]
  · exact hlo first
  · exact hlo second
  · exact hhi first
  · exact hhi second
  · exact fun hne => absurd rfl hne
  · exact fun _ => h

/-- A write on the same line of two frames in a row. -/
theorem boundariesExact_fixedLine :
    BoundariesExact (twoWrites 6300 25956) (1#64 <<< 63) palTiming 0 2 (twoTimes 6300 25956) := by
  have hspans : ¬SpansFrame (1#64 <<< 63) palTiming (twoTimes 6300 25956 (1#32 - 1#32))
      (twoTimes 6300 25956 1#32) := by decide
  refine (boundariesExact_iff (twoWrites_untagged (by decide)) (by decide)
    palTiming_frameFits).mpr fun i hi hne => ?_
  rcases mem_twoWrites hi with rfl | rfl
  · exact absurd rfl hne
  · exact hspans

/-- Writes at the start of line 0 and at the start of line 311 of one frame are taken for
two frames, and the one still open is given out for replay. -/
theorem open_frame_split :
    UntaggedLog (twoWrites 0 19593) (1#64 <<< 63) 0 2 (twoTimes 0 19593) ∧
      ¬BoundariesExact (twoWrites 0 19593) (1#64 <<< 63) palTiming 0 2 (twoTimes 0 19593) ∧
      (build (1#64 <<< 63) palTiming (prime 0) (some (twoWrites 0 19593)) 2 19600).2.result =
        .replay := by
  have hlog : UntaggedLog (twoWrites 0 19593) (1#64 <<< 63) 0 2 (twoTimes 0 19593) :=
    twoWrites_untagged (by decide)
  have hmem : 1#32 ∈ cyclicRange (0 : BitVec 32) 2 := by decide
  refine ⟨hlog, fun hexact => ?_, by decide⟩
  have hspans : SpansFrame (1#64 <<< 63) palTiming (twoTimes 0 19593 (1#32 - 1#32))
      (twoTimes 0 19593 1#32) := by decide
  have hdetects := (hlog.detects_iff (by decide) palTiming_frameFits hmem (by decide)).mpr
    (.inr hspans)
  exact hspans.not_passesLineZero palTiming_frameFits (by decide)
    ((hexact 1#32 hmem (by decide)).mp hdetects)

end VICRasterTimeline

end ScpuEmu
