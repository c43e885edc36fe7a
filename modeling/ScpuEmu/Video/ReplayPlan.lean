import ScpuEmu.Video.Bands
import ScpuEmu.Video.RasterReplay

/-!
# What a build returns

A build either primes itself again from the live machine, or holds, or replays
a frame. In a replayed plan the state of a band is the persistent state with all
events applied from the old tail up to the end of the band's apply range.
-/

namespace ScpuEmu

open Library VICRasterTimeline

namespace RasterState

@[simp] theorem applyRange_nil (log : VICLog) (s : RasterState) : s.applyRange log [] = s := rfl

theorem applyRange_append (log : VICLog) (s : RasterState) (l l' : List (BitVec 32)) :
    s.applyRange log (l ++ l') = (s.applyRange log l).applyRange log l' :=
  List.foldl_append

end RasterState

/-- The output rows of a band, as a span. -/
def VICRasterReplayBand.rows (band : VICRasterReplayBand) : ℕ × ℕ :=
  (band.firstRow.toNat, band.rowCount.toNat)

namespace VICRasterReplay

/-- The three ways a build can end. -/
theorem build_cases (s : VICRasterReplay) (input : BuildInput) :
    s.build input = (rePrime input, makeStaticPlan .snapshot input false) ∨
      s.primed = true ∧
        ((s.timelineBuild input).2.result = .hold ∧
            s.build input = ({ s with timeline := (s.timelineBuild input).1 }, holdPlan) ∨
          ∃ log, input.log = some log ∧ (s.timelineBuild input).2.result = .replay ∧
            s.build input =
              s.replayFrame log input (s.timelineBuild input).1 (s.timelineBuild input).2) := by
  rw [build]
  dsimp only
  split
  · exact .inl rfl
  · rename_i hprime
    have hprimed : s.primed = true := by
      simpa using fun h => hprime (.inl h)
    split
    · rename_i hresult
      exact .inr ⟨hprimed, .inl ⟨hresult, rfl⟩⟩
    · rename_i log hresult hlog
      exact .inr ⟨hprimed, .inr ⟨log, hlog, hresult, rfl⟩⟩
    · exact .inl rfl

/-- The replay loop computes each band's state from the state at the origin. -/
theorem replayBands_spec (log : VICLog) (s : RasterState) {origin a z : BitVec 32}
    {bands : List VICRasterBand} (h : Chains origin a bands z) :
    replayBands log bands (s.applyRange log (cyclicRange origin a)) =
      (bands.map fun band =>
          ⟨band.firstRow, band.rowCount, s.applyRange log (cyclicRange origin band.applyEnd)⟩,
        s.applyRange log (cyclicRange origin z)) := by
  induction bands generalizing a with
  | nil =>
      rw [Chains] at h
      rw [replayBands, h]
      rfl
  | cons band bands ih =>
      obtain ⟨hbegin, hend, hrest⟩ := h
      have hstate : (s.applyRange log (cyclicRange origin a)).applyRange log
          (cyclicRange band.applyBegin band.applyEnd) =
            s.applyRange log (cyclicRange origin band.applyEnd) := by
        rw [hbegin, ← RasterState.applyRange_append, cyclicRange_append hend]
      rw [replayBands, hstate, ih hrest]
      rfl

/-- The bands of a replayed frame, with their states. -/
def framedBands (s : VICRasterReplay) (log : VICLog) (frame : VICRasterFrame) :
    List VICRasterReplayBand :=
  frame.bands.map fun band =>
    ⟨band.firstRow, band.rowCount,
      s.state.applyRange log (cyclicRange s.timeline.tail band.applyEnd)⟩

variable {log : VICLog} {s : VICRasterReplay} {input : BuildInput} {frame : VICRasterFrame}

/-- A frame within its specification is replayed from the persistent state: the bands
get their states, and the final state has all events up to the frame's end applied. -/
theorem replayFrame_eq (timeline : VICRasterTimeline)
    (h : ReplaySpec log input.anchor input.timing s.timeline.tail input.head frame) :
    (s.replayFrame log input timeline frame).1 =
        { s with
          timeline := timeline
          state := reseed (s.state.applyRange log (cyclicRange s.timeline.tail frame.drawEnd))
            input.live.ram } ∧
      ((s.replayFrame log input timeline frame).2.fallback = false →
        (s.replayFrame log input timeline frame).2.bands = s.framedBands log frame) ∧
      ((s.replayFrame log input timeline frame).2.fallback = true →
        (s.replayFrame log input timeline frame).2 = makeStaticPlan .replay input true) ∧
      (s.replayFrame log input timeline frame).2.result = .replay := by
  have hbands := replayBands_spec log s.state h.chains
  rw [cyclicRange_self, RasterState.applyRange_nil] at hbands
  have hfinish : (s.state.applyRange log (cyclicRange s.timeline.tail frame.finishBegin)).applyRange
      log (cyclicRange frame.finishBegin frame.finishEnd) =
        s.state.applyRange log (cyclicRange s.timeline.tail frame.drawEnd) := by
    rw [h.finishEnd_eq, ← RasterState.applyRange_append, cyclicRange_append h.finish_le]
  rw [replayFrame, hbands]
  dsimp only
  rw [hfinish]
  refine ⟨rfl, ?_, ?_, ?_⟩
  · split
    · exact fun _ => rfl
    · intro hfallback
      cases hfallback
  · split
    · intro hfallback
      cases hfallback
    · exact fun _ => rfl
  · split <;> rfl

theorem rows_framedBands (s : VICRasterReplay) (log : VICLog) (frame : VICRasterFrame) :
    (s.framedBands log frame).map VICRasterReplayBand.rows =
      frame.bands.map VICRasterBand.rows := by
  rw [framedBands, List.map_map]
  rfl

/-- What the timeline guarantees of a frame it gives out for replay. -/
theorem replay_of_timelineBuild (hrows : input.timing.frameRows.toNat < 2 ^ 16)
    (hlog : input.log = some log) (hresult : (s.timelineBuild input).2.result = .replay) :
    ReplaySpec log input.anchor input.timing s.timeline.tail input.head
        (s.timelineBuild input).2 ∧
      (s.timelineBuild input).1.tail = (s.timelineBuild input).2.drawEnd ∧
      (s.timelineBuild input).1.primed = s.timeline.primed ∧ input.timing.frameRows ≠ 0 := by
  rw [timelineBuild, hlog] at hresult ⊢
  obtain ⟨hspec, htail, hprimed⟩ := build_replay_spec hrows s.timeline input.now hresult
  refine ⟨hspec, htail, hprimed, fun hzero => ?_⟩
  rw [VICRasterTimeline.build] at hresult
  dsimp only at hresult
  rw [if_pos (.inr (.inr hzero))] at hresult
  cases hresult

/-- The pieces of a build that replays a frame. -/
theorem replay_of_build (hresult : (s.build input).2.result = .replay)
    (hlog : input.log = some log) (hrows : input.timing.frameRows.toNat < 2 ^ 16) :
    (ReplaySpec log input.anchor input.timing s.timeline.tail input.head
        (s.timelineBuild input).2 ∧ input.timing.frameRows ≠ 0) ∧
      s.build input =
        s.replayFrame log input (s.timelineBuild input).1 (s.timelineBuild input).2 := by
  rcases s.build_cases input with hbuild | ⟨-, ⟨-, hbuild⟩ | ⟨log', hlog', hframe, hbuild⟩⟩
  · rw [hbuild] at hresult
    cases hresult
  · rw [hbuild] at hresult
    cases hresult
  · rw [hlog, Option.some.injEq] at hlog'
    subst hlog'
    obtain ⟨hspec, -, -, hne⟩ := replay_of_timelineBuild hrows hlog hframe
    exact ⟨⟨hspec, hne⟩, hbuild⟩

end VICRasterReplay

end ScpuEmu
