import ScpuEmu.Video.RasterReplay
import ScpuEmu.Library.AtomicProgram

/-!
# The display core, one read at a time

The display builds its frame while the emulation goes on. Here its build is a program
that asks for one slot of the log at a time, and the latch before it asks for the head
of the log and for one register at a time. While nothing else moves, the program
computes what the build on a log computes.
-/

namespace ScpuEmu

open Library AtomicProgram

/-- What the display core reads of the memory object. A slot is read to find the frame
and its rows, or to apply its event to the persistent state. `rePrime` reads nothing: it
marks where a build gives that state up. -/
inductive VICQuery
  | generation
  | head
  | register (reg : BitVec 6)
  | bank
  | slot (applied : Bool) (index : BitVec 32)
  | rePrime
  deriving DecidableEq

def VICQuery.Answer : VICQuery → Type
  | .generation => BitVec 32
  | .head => BitVec 32
  | .register _ => Byte
  | .bank => Byte
  | .slot _ _ => VICRegWrite
  | .rePrime => PUnit

abbrev DisplayM := AtomicProgram VICQuery.Answer

def vicLogGeneration : DisplayM (BitVec 32) := query VICQuery.generation

def vicLogHead : DisplayM (BitVec 32) := query VICQuery.head

def vicRegister (reg : BitVec 6) : DisplayM Byte := query (VICQuery.register reg)

def activeVICBank : DisplayM Byte := query VICQuery.bank

/-- `rasterEvent`, as a read of the shared log. -/
def readSlot (applied : Bool) (index : BitVec 32) : DisplayM VICRegWrite :=
  query (VICQuery.slot applied index)

namespace VICRasterTimeline

variable (anchor : BitVec 64) (timing : VICRasterTiming)

def scanFramesM (tail : BitVec 32) : List (BitVec 32) → Scan → DisplayM (Option Scan)
  | [], s => pure (some s)
  | i :: rest, s => do
      let event ← readSlot false i
      let line := lineOfEvent anchor timing event
      if line < 0 then pure none else scanFramesM tail rest (s.next timing tail i event line)

-- a step that reads one slot sees a log of that slot only
def chooseFrameM (tail head now : BitVec 32) (s : Scan) :
    DisplayM (Option (BitVec 32 × BitVec 32)) := do
  let newest ← readSlot false (head - 1)
  pure (chooseFrame (fun _ => newest) timing tail head now s)

def bandLoopM (tail drawStart drawEnd : BitVec 32) : DisplayM BandState :=
  (cyclicRange drawStart drawEnd).foldlM
    (fun s i => do
      let event ← readSlot false i
      pure (BandState.next (fun _ => event) anchor timing s i)) ⟨[], 0, tail⟩

def drawFrameM (t : VICRasterTimeline) (drawStart drawEnd : BitVec 32) :
    DisplayM (VICRasterTimeline × VICRasterFrame) := do
  let s ← bandLoopM anchor timing t.tail drawStart drawEnd
  let s := s.close timing drawEnd
  pure ({ t with tail := drawEnd },
    ⟨.replay, drawStart, drawEnd, drawEnd, s.bands, s.applyBegin, drawEnd⟩)

/-- `CVICRasterTimeline::build`. -/
def buildM (t : VICRasterTimeline) (head now : BitVec 32) :
    DisplayM (VICRasterTimeline × VICRasterFrame) :=
  let wholeSnapshot :=
    snapshotFrame head [⟨0, timing.frameRows.setWidth 16, head, head⟩]
  if timing.cyclesPerLine = 0 ∨ timing.rasterLines = 0 ∨ timing.frameRows = 0 then
    pure (prime head, snapshotFrame head [])
  else if t.primed = false ∨ vicLogSize < (head - t.tail).toNat then
    pure (prime head, wholeSnapshot)
  else if head = t.tail then
    pure (t, ⟨.replay, t.tail, t.tail, t.tail,
      [⟨0, timing.frameRows.setWidth 16, t.tail, t.tail⟩], t.tail, t.tail⟩)
  else do
    let scan ← scanFramesM anchor timing t.tail (cyclicRange t.tail head) ⟨t.tail, t.tail, -1, 0⟩
    match scan with
    | none => pure (prime head, wholeSnapshot)
    | some scan => do
        let chosen ← chooseFrameM timing t.tail head now scan
        match chosen with
        | none => pure (t, ⟨.hold, 0, 0, t.tail, [], 0, 0⟩)
        | some (drawStart, drawEnd) => drawFrameM anchor timing t drawStart drawEnd

def yScrollVariesLoopM : List (BitVec 32) → Byte → DisplayM Bool
  | [], _ => pure false
  | i :: rest, yScroll => do
      let event ← readSlot false i
      if event.register ≠ 0x11 then yScrollVariesLoopM rest yScroll
      else
        let next := event.value &&& 7
        let row := rowOfEvent anchor timing event
        let displayEnd := (timing.displayFirstRow + timing.displayRows).toNat
        if timing.displayFirstRow.toNat ≤ row ∧ row < displayEnd ∧ next ≠ yScroll then pure true
        else yScrollVariesLoopM rest next

def yScrollVariesInDisplayM (frame : VICRasterFrame) (initialD011 : Byte) : DisplayM Bool :=
  if frame.result ≠ .replay then pure false
  else
    yScrollVariesLoopM anchor timing (cyclicRange frame.drawStart frame.drawEnd)
      (initialD011 &&& 7)

end VICRasterTimeline

/-- Read and apply the events of a range. -/
def RasterState.applyRangeM (applied : Bool) (s : RasterState) (range : List (BitVec 32)) :
    DisplayM RasterState :=
  range.foldlM (fun s i => do
    let event ← readSlot applied i
    pure (s.applyEvent event)) s

namespace VICRasterReplay

def replayBandsM :
    List VICRasterBand → RasterState → DisplayM (List VICRasterReplayBand × RasterState)
  | [], s => pure ([], s)
  | source :: rest, s => do
      let s ← s.applyRangeM true (cyclicRange source.applyBegin source.applyEnd)
      let later ← replayBandsM rest s
      pure (⟨source.firstRow, source.rowCount, s⟩ :: later.1, later.2)

/-- The persistent state over the frame, and the states of its bands. -/
def replayEventsM (s : RasterState) (frame : VICRasterFrame) :
    DisplayM (List VICRasterReplayBand × RasterState) := do
  let replayed ← replayBandsM frame.bands s
  let final ← replayed.2.applyRangeM true (cyclicRange frame.finishBegin frame.finishEnd)
  pure (replayed.1, final)

def replayFrameM (s : VICRasterReplay) (input : BuildInput) (timeline : VICRasterTimeline)
    (frame : VICRasterFrame) : DisplayM (VICRasterReplay × VICRasterReplayPlan) := do
  let start ← s.state.applyRangeM false (cyclicRange s.timeline.tail frame.drawStart)
  let yScrollVaries ← VICRasterTimeline.yScrollVariesInDisplayM input.anchor input.timing frame
    (start.vic 0x11)
  let replayed ← replayEventsM s.state frame
  let pages := collectPages replayed.1 input.live.ram
  pure ({ s with timeline := timeline, state := reseed replayed.2 input.live.ram },
    if pages.pageCount ≤ vicRasterMaxSnapshotPages then
      ⟨.replay, false, yScrollVaries, replayed.1, pages⟩
    else makeStaticPlan .replay input true)

def rePrimeM (input : BuildInput) : DisplayM (VICRasterReplay × VICRasterReplayPlan) := do
  let _ ← query VICQuery.rePrime
  pure (rePrime input, makeStaticPlan .snapshot input false)

/-- What a build does once the timeline has chosen its frame. -/
def followM (s : VICRasterReplay) (input : BuildInput)
    (framed : VICRasterTimeline × VICRasterFrame) :
    DisplayM (VICRasterReplay × VICRasterReplayPlan) :=
  match framed.2.result with
  | .hold => pure ({ s with timeline := framed.1 }, holdPlan)
  | .replay => s.replayFrameM input framed.1 framed.2
  | .snapshot => rePrimeM input

/-- `CVICRasterReplay::build`. -/
def buildM (s : VICRasterReplay) (input : BuildInput) :
    DisplayM (VICRasterReplay × VICRasterReplayPlan) :=
  let generationChanged := s.primed && decide (input.generation ≠ s.generation)
  let lost := s.primed && !generationChanged
    && decide (vicLogSize < (input.head - s.timeline.tail).toNat)
  if s.primed = false ∨ generationChanged = true ∨ lost = true then rePrimeM input
  else do
    let framed ← s.timeline.buildM input.anchor input.timing input.head input.now
    s.followM input framed

end VICRasterReplay

/-- What `renderFrame` latches. -/
structure VICLatch where
  generation : BitVec 32
  head : BitVec 32
  liveVIC : Registers
  liveBank : Byte

namespace VICLatch

def readRegisters (liveVIC : Registers) : DisplayM Registers :=
  (List.range 0x40).foldlM
    (fun vic i => do
      let value ← vicRegister (BitVec.ofNat 6 i)
      pure (Function.update vic i value)) liveVIC

/-- One attempt, and whether both samples of the head and of the generation agreed. -/
def attemptM (latch : VICLatch) : DisplayM (Bool × VICLatch) := do
  let generationBefore ← vicLogGeneration
  let headBefore ← vicLogHead
  let liveVIC ← readRegisters latch.liveVIC
  let liveBank ← activeVICBank
  let headAfter ← vicLogHead
  let generationAfter ← vicLogGeneration
  pure (decide (headBefore = headAfter) && decide (generationBefore = generationAfter),
    ⟨generationAfter, headAfter, liveVIC, liveBank⟩)

/-- The attempts that are left. The last one counts even if its samples differ. -/
def latchM : ℕ → VICLatch → DisplayM VICLatch
  | 0, latch => pure latch
  | left + 1, latch => do
      let (agreed, latch) ← attemptM latch
      if agreed then pure latch else latchM left latch

end VICLatch

/-- What a frame takes from elsewhere: the clock, the raster anchor, the timing of the
machine, and the RAM as this frame sees it. -/
structure FrameInput where
  now : BitVec 32
  anchor : BitVec 64
  timing : VICRasterTiming
  ram : Option (Addr → Byte)

def FrameInput.build (frame : FrameInput) (log : Option VICLog) (latch : VICLatch) :
    BuildInput where
  log := log
  head := latch.head
  now := frame.now
  anchor := frame.anchor
  generation := latch.generation
  timing := frame.timing
  live := ⟨some latch.liveVIC, latch.liveBank, frame.ram⟩

/-- `renderFrame` up to the end of its build. -/
def renderFrameM (s : VICRasterReplay) (frame : FrameInput) :
    DisplayM (VICRasterReplay × VICRasterReplayPlan) := do
  let latch ← VICLatch.latchM 4 ⟨0, 0, fun _ => 0, 0⟩
  s.buildM (frame.build none latch)

section StandingStill

variable (log : VICLog) (latch : VICLatch)

/-- The answers of a store that stands still. -/
def standing : (q : VICQuery) → q.Answer
  | .generation => latch.generation
  | .head => latch.head
  | .register reg => latch.liveVIC reg.toNat
  | .bank => latch.liveBank
  | .slot _ i => rasterEvent log i
  | .rePrime => ⟨⟩

namespace VICRasterTimeline

variable (anchor : BitVec 64) (timing : VICRasterTiming)

theorem runOn_scanFramesM (tail : BitVec 32) (l : List (BitVec 32)) (s : Scan) :
    (scanFramesM anchor timing tail l s).runOn (standing log latch) =
      scanFrames log anchor timing tail l s := by
  induction l generalizing s with
  | nil => rfl
  | cons i l ih =>
      rw [scanFramesM, runOn_bind, runOn_ite, ih]
      rfl

theorem runOn_bandLoopM (tail drawStart drawEnd : BitVec 32) :
    (bandLoopM anchor timing tail drawStart drawEnd).runOn (standing log latch) =
      bandLoop log anchor timing tail drawStart drawEnd := by
  rw [bandLoopM, runOn_foldlM]
  rfl

theorem runOn_buildM (t : VICRasterTimeline) (head now : BitVec 32) :
    (buildM anchor timing t head now).runOn (standing log latch) =
      build anchor timing t (some log) head now := by
  rw [buildM, build]
  split
  · rfl
  · dsimp only
    split
    · rfl
    · split
      · rfl
      · rw [runOn_bind, runOn_scanFramesM]
        cases scanFrames log anchor timing t.tail (cyclicRange t.tail head)
            ⟨t.tail, t.tail, -1, 0⟩ with
        | none => rfl
        | some scan =>
            have hchoose : (chooseFrameM timing t.tail head now scan).runOn (standing log latch) =
                chooseFrame log timing t.tail head now scan := rfl
            dsimp only
            rw [runOn_bind, hchoose]
            cases chooseFrame log timing t.tail head now scan with
            | none => rfl
            | some ends =>
                dsimp only
                rw [drawFrameM, runOn_bind, runOn_bandLoopM]
                rfl

theorem runOn_yScrollVariesInDisplayM (frame : VICRasterFrame) (initialD011 : Byte) :
    (yScrollVariesInDisplayM anchor timing frame initialD011).runOn (standing log latch) =
      yScrollVariesInDisplay log anchor timing frame initialD011 := by
  have hloop : ∀ l yScroll,
      (yScrollVariesLoopM anchor timing l yScroll).runOn (standing log latch) =
        yScrollVariesLoop log anchor timing l yScroll := by
    intro l
    induction l with
    | nil => exact fun _ => rfl
    | cons i l ih =>
        intro yScroll
        rw [yScrollVariesLoopM, runOn_bind, runOn_ite, ih, runOn_ite, ih]
        rfl
  rw [yScrollVariesInDisplayM, runOn_ite, hloop]
  rfl

end VICRasterTimeline

theorem RasterState.runOn_applyRangeM (applied : Bool) (s : RasterState)
    (range : List (BitVec 32)) :
    (s.applyRangeM applied range).runOn (standing log latch) = s.applyRange log range := by
  rw [applyRangeM, runOn_foldlM]
  rfl

namespace VICRasterReplay

theorem runOn_replayBandsM (bands : List VICRasterBand) (s : RasterState) :
    (replayBandsM bands s).runOn (standing log latch) = replayBands log bands s := by
  induction bands generalizing s with
  | nil => rfl
  | cons band bands ih =>
      rw [replayBandsM, runOn_bind, RasterState.runOn_applyRangeM, runOn_bind, ih]
      rfl

/-- On a log that stands still, the program replays the frame. -/
theorem runOn_replayFrameM (s : VICRasterReplay) (input : FrameInput)
    (timeline : VICRasterTimeline) (frame : VICRasterFrame) :
    (s.replayFrameM (input.build none latch) timeline frame).runOn (standing log latch) =
      s.replayFrame log (input.build (some log) latch) timeline frame := by
  rw [replayFrameM, runOn_bind, RasterState.runOn_applyRangeM, runOn_bind,
    VICRasterTimeline.runOn_yScrollVariesInDisplayM, runOn_bind, replayEventsM, runOn_bind,
    runOn_replayBandsM, runOn_bind, RasterState.runOn_applyRangeM]
  rfl

/-- On a log that stands still, the program is the build on that log. -/
theorem runOn_buildM (s : VICRasterReplay) (frame : FrameInput) :
    (s.buildM (frame.build none latch)).runOn (standing log latch) =
      s.build (frame.build (some log) latch) := by
  have hframed : (s.timeline.buildM frame.anchor frame.timing latch.head frame.now).runOn
      (standing log latch) = s.timelineBuild (frame.build (some log) latch) :=
    VICRasterTimeline.runOn_buildM log latch frame.anchor frame.timing s.timeline latch.head
      frame.now
  rw [buildM, build, runOn_ite, runOn_bind]
  refine if_congr Iff.rfl rfl ?_
  change (s.followM (frame.build none latch) ((s.timeline.buildM frame.anchor frame.timing
    latch.head frame.now).runOn (standing log latch))).runOn (standing log latch) = _
  rw [hframed, followM]
  dsimp only
  cases hresult : (s.timelineBuild (frame.build (some log) latch)).2.result with
  | snapshot => rfl
  | hold => rfl
  | replay => exact runOn_replayFrameM log latch s frame _ _

end VICRasterReplay

/-- The latch reads the registers over whatever the array held. -/
theorem VICLatch.runOn_readRegisters (liveVIC : Registers) :
    (readRegisters liveVIC).runOn (standing log latch) =
      fun n => if n < 0x40 then latch.liveVIC n else liveVIC n := by
  have hloop : ∀ k, k ≤ 0x40 → (List.range k).foldl
      (fun vic i => Function.update vic i (latch.liveVIC (BitVec.ofNat 6 i).toNat)) liveVIC =
        fun n => if n < k then latch.liveVIC n else liveVIC n := by
    intro k
    induction k with
    | zero => simp
    | succ k ih =>
        intro hk
        have hindex : (BitVec.ofNat 6 k).toNat = k := by
          rw [BitVec.toNat_ofNat, Nat.mod_eq_of_lt (by omega)]
        rw [List.range_succ, List.foldl_append, ih (by omega), List.foldl_cons, List.foldl_nil,
          hindex]
        funext n
        by_cases hn : n = k
        · rw [hn, Function.update_self, if_pos (Nat.lt_succ_self k)]
        · have hlt : n < k + 1 ↔ n < k := by omega
          rw [Function.update_of_ne hn, if_congr hlt rfl rfl]
  rw [readRegisters, runOn_foldlM]
  exact hloop 0x40 (le_refl _)

/-- While nothing else moves, a frame is one build on the log and the registers as they
are. -/
theorem runOn_renderFrameM (s : VICRasterReplay) (frame : FrameInput) :
    (renderFrameM s frame).runOn (standing log latch) = s.build (frame.build (some log)
      { latch with liveVIC := fun n => if n < 0x40 then latch.liveVIC n else 0 }) := by
  set held : VICLatch :=
    { latch with liveVIC := fun n => if n < 0x40 then latch.liveVIC n else 0 } with hheld
  have hattempt : ∀ start : VICLatch, start.liveVIC = (fun _ => 0) →
      (VICLatch.attemptM start).runOn (standing log latch) = (true, held) := by
    intro start hstart
    rw [VICLatch.attemptM, runOn_bind, runOn_bind, runOn_bind, runOn_bind, runOn_bind, runOn_bind,
      VICLatch.runOn_readRegisters, hstart, runOn_pure, decide_eq_true rfl, decide_eq_true rfl]
    rfl
  have hlatch : (VICLatch.latchM 4 ⟨0, 0, fun _ => 0, 0⟩).runOn (standing log latch) = held := by
    rw [VICLatch.latchM, runOn_bind, hattempt _ rfl]
    rfl
  have hstanding : standing log latch = standing log held := by
    funext q
    cases q with
    | register reg => exact (if_pos reg.isLt).symm
    | _ => rfl
  rw [renderFrameM, runOn_bind, hlatch, hstanding]
  exact VICRasterReplay.runOn_buildM log held s frame

end StandingStill

end ScpuEmu
