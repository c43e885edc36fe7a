import Mathlib.Data.List.Chain
import ScpuEmu.Library.BoundedLoop
import ScpuEmu.Library.Stride

/-!
# The raster-line scheduler of the C128 refresh service

Once a raster transition has been committed, core 3 admits traffic once in each physical
line and moves the phase of that opening by a fixed step from line to line. A line that
closes late is followed by recovery lines without traffic; origin, phase, target and the
predicted raster line are then advanced together for every line that is skipped.

Times are readings of the 64-bit cycle counter, as natural numbers: the counter takes
four hundred years to wrap, and the 32-bit count of skipped lines more than two days
within a single line.
-/

namespace ScpuEmu

namespace C128Refresh

open Library

def lineInitialRefreshPulses : ℕ := 24

def lineTrafficCycles : ℕ := 8

section PermutationStep

def c128GCD (a b : ℕ) : ℕ :=
  (whileLoop (fun s : ℕ × ℕ => s.2 ≠ 0) (fun s => (s.2, s.1 % s.2)) (b + 1) (a, b)).1

def c128PermutationStep (lineCycles : ℕ) : ℕ :=
  if lineCycles < 2 then 1
  else
    match (List.range' 17 (lineCycles - 17)).find? fun step => c128GCD step lineCycles = 1 with
    | some step => step
    | none =>
      match (List.range' 1 (min 17 lineCycles - 1)).find? fun step =>
        c128GCD step lineCycles = 1 with
      | some step => step
      | none => 1

/-- Euclid's loop, its divisor falling and the gcd of the pair staying. -/
theorem c128GCD_eq_gcd (a b : ℕ) : c128GCD a b = Nat.gcd a b := by
  have hkeep : ∀ s : ℕ × ℕ, Nat.gcd s.1 s.2 = Nat.gcd a b → s.2 ≠ 0 →
      Nat.gcd s.2 (s.1 % s.2) = Nat.gcd a b := by
    intro s hs _
    rw [← hs, Nat.gcd_comm s.2, ← Nat.gcd_rec, Nat.gcd_comm]
  have hends : LoopEnds (fun s : ℕ × ℕ => s.2 ≠ 0) (fun s => (s.2, s.1 % s.2)) (a, b)
      (whileLoop _ _ (b + 1) (a, b)) :=
    whileLoop_ends (P := fun s => Nat.gcd s.1 s.2 = Nat.gcd a b) hkeep (m := Prod.snd)
      (fun s _ hs => Nat.mod_lt _ (Nat.pos_of_ne_zero hs)) rfl (Nat.lt_succ_self b)
  have hgcd := hends.keeps (P := fun s => Nat.gcd s.1 s.2 = Nat.gcd a b) hkeep rfl
  obtain ⟨-, -, -, hzero⟩ := hends
  rw [not_not] at hzero
  rw [hzero, Nat.gcd_zero_right] at hgcd
  exact hgcd

theorem coprime_of_find {l : List ℕ} {step lineCycles : ℕ}
    (h : l.find? (fun step => c128GCD step lineCycles = 1) = some step) :
    step ∈ l ∧ Nat.Coprime step lineCycles := by
  have hfound := List.find?_some h
  rw [decide_eq_true_eq, c128GCD_eq_gcd] at hfound
  exact ⟨List.mem_of_find?_eq_some h, hfound⟩

theorem c128PermutationStep_spec {lineCycles : ℕ} (h : 2 ≤ lineCycles) :
    c128PermutationStep lineCycles < lineCycles ∧
      Nat.Coprime (c128PermutationStep lineCycles) lineCycles := by
  rw [c128PermutationStep, if_neg (by omega)]
  split
  next step hstep =>
    obtain ⟨hmem, hcoprime⟩ := coprime_of_find hstep
    rw [List.mem_range'_1] at hmem
    exact ⟨by omega, hcoprime⟩
  next =>
    split
    next step hstep =>
      obtain ⟨hmem, hcoprime⟩ := coprime_of_find hstep
      rw [List.mem_range'_1] at hmem
      exact ⟨by omega, hcoprime⟩
    next => exact ⟨by omega, Nat.coprime_one_left _⟩

theorem c128PermutationStep_pos (lineCycles : ℕ) : 0 < c128PermutationStep lineCycles := by
  rw [c128PermutationStep]
  split
  next => exact Nat.one_pos
  next =>
    split
    next step hstep =>
      have hmem := List.mem_range'_1.mp (coprime_of_find hstep).1
      omega
    next =>
      split
      next step hstep =>
        have hmem := List.mem_range'_1.mp (coprime_of_find hstep).1
        omega
      next => exact Nat.one_pos

end PermutationStep

section Definitions

/-- A committed line synchronisation. -/
structure LineSync where
  lineCycles : ℕ
  rasterLines : ℕ
  syncRaster : ℕ
  cycles_wide : 48 ≤ lineCycles
  raster_lt : syncRaster < rasterLines

/-- What `c128RefreshBeginLineSync` and then `c128RefreshCommitLineSync` let through. -/
def lineSync (cyclesPerLine rasterLines rasterLine : ℕ) : Option LineSync :=
  if h : (48 ≤ cyclesPerLine ∧ cyclesPerLine ≤ 80) ∧
      (240 ≤ rasterLines ∧ rasterLines ≤ 320) ∧ rasterLine < rasterLines then
    some
      { lineCycles := cyclesPerLine
        rasterLines
        syncRaster := rasterLine
        cycles_wide := h.1.1
        raster_lt := h.2.2 }
  else none

/-- With the length of the PHI2 period, as measured over the initial pulses. -/
structure LineTiming extends LineSync where
  phiCycles : ℕ
  phi_long : 1000 ≤ phiCycles

/-- The average period of the initial pulses, a 32-bit word. -/
def averagePhi (firstEdge lastEdge : ℕ) : ℕ :=
  (lastEdge - firstEdge) / (lineInitialRefreshPulses - 1) % 2 ^ 32

def phiTrusted (firstEdge lastEdge : ℕ) : Prop :=
  1000 ≤ averagePhi firstEdge lastEdge ∧ averagePhi firstEdge lastEdge ≤ 1800

instance (firstEdge lastEdge : ℕ) : Decidable (phiTrusted firstEdge lastEdge) :=
  inferInstanceAs (Decidable (_ ∧ _))

/-- A bad measurement falls back to 1400 and refuses traffic. -/
def LineSync.measure (sync : LineSync) (firstEdge lastEdge : ℕ) : LineTiming :=
  if h : phiTrusted firstEdge lastEdge then
    { sync with phiCycles := averagePhi firstEdge lastEdge, phi_long := h.1 }
  else { sync with phiCycles := 1400, phi_long := by decide }

/-- The diagnostic counters of the scheduler. -/
structure LineStatistics where
  trafficEpochs : ℕ
  refreshEpochs : ℕ
  phaseOpenCount : ℕ → ℕ
  phaseOverrunCount : ℕ → ℕ
  phaseMaxOverrunCycles : ℕ → ℕ
  overrunCount : ℕ
  totalOverrunCycles : ℕ
  maxLateCycles : ℕ
  deadlineMisses : ℕ
  recoveryLines : ℕ

/-- What one line hands to the next. -/
structure LineState where
  lineOrigin : ℕ
  openEdge : ℕ
  permutationPhase : ℕ
  predictedRaster : ℕ
  statistics : LineStatistics

/-- Traffic opens. -/
def LineState.openTraffic (s : LineState) : LineState :=
  { s with
    statistics :=
      { s.statistics with
        trafficEpochs := s.statistics.trafficEpochs + 1
        phaseOpenCount := Function.update s.statistics.phaseOpenCount s.permutationPhase
          (s.statistics.phaseOpenCount s.permutationPhase + 1) } }

/-- What core 3 meets in one line: the time at which traffic was closed, the two requests it
samples after that, and the falling edges from there on. -/
structure LineInput where
  closed : ℕ
  requested : Bool
  forceContinuous : Bool
  edges : List ℕ

/-- The line in which traffic is going to open next. -/
structure NextLine where
  lineOrigin : ℕ
  phase : ℕ
  openTarget : ℕ
  linesAdvanced : ℕ
  deadlineLate : Bool
  deadlineMisses : ℕ

namespace LineTiming

variable (t : LineTiming)

def permutationStep : ℕ := c128PermutationStep t.lineCycles

def linePeriod : ℕ := t.phiCycles * t.lineCycles

def nextPhase (phase : ℕ) : ℕ :=
  if phase + t.permutationStep ≥ t.lineCycles then phase + t.permutationStep - t.lineCycles
  else phase + t.permutationStep

def initialPhase : ℕ :=
  whileLoop (fun phase => phase ≥ t.lineCycles) (fun phase => phase - t.lineCycles)
    lineInitialRefreshPulses (lineInitialRefreshPulses - 1)

def initialState (firstEdge lastEdge : ℕ) (statistics : LineStatistics) : LineState :=
  { lineOrigin := firstEdge
    openEdge := lastEdge
    permutationPhase := t.initialPhase
    predictedRaster := t.syncRaster
    statistics }

def closeTarget (s : LineState) : ℕ := s.openEdge + t.phiCycles * lineTrafficCycles

def overrun (s : LineState) (closed : ℕ) : ℕ :=
  if closed > t.closeTarget s then closed - t.closeTarget s else 0

/-- The counters of an overrun; the largest of a phase is kept as a 32-bit word. -/
def recordOverrun (s : LineState) (closed : ℕ) : LineStatistics :=
  let late := t.overrun s closed
  let phase := s.permutationPhase
  if late = 0 then s.statistics
  else
    { s.statistics with
      overrunCount := s.statistics.overrunCount + 1
      totalOverrunCycles := s.statistics.totalOverrunCycles + late
      phaseOverrunCount := Function.update s.statistics.phaseOverrunCount phase
        (s.statistics.phaseOverrunCount phase + 1)
      phaseMaxOverrunCycles := Function.update s.statistics.phaseMaxOverrunCycles phase
        (max (s.statistics.phaseMaxOverrunCycles phase) (min late (2 ^ 32 - 1)))
      maxLateCycles := max s.statistics.maxLateCycles late }

/-- The line after `s`, as every line begins. -/
def followingLine (s : LineState) (late : Bool) (deadlineMisses : ℕ) : NextLine :=
  { lineOrigin := s.lineOrigin + t.linePeriod
    phase := t.nextPhase s.permutationPhase
    openTarget := s.lineOrigin + t.linePeriod + t.nextPhase s.permutationPhase * t.phiCycles
    linesAdvanced := 1
    deadlineLate := late
    deadlineMisses := deadlineMisses + late.toNat }

/-- One line further, without traffic. -/
def skipLine (n : NextLine) : NextLine :=
  { n with
    lineOrigin := n.lineOrigin + t.linePeriod
    phase := t.nextPhase n.phase
    openTarget := n.lineOrigin + t.linePeriod + t.nextPhase n.phase * t.phiCycles
    linesAdvanced := n.linesAdvanced + 1 }

def behind (now : ℕ) (n : NextLine) : Prop := n.openTarget ≤ now + t.phiCycles / 2

instance (now : ℕ) : DecidablePred (t.behind now) := fun n =>
  inferInstanceAs (Decidable (n.openTarget ≤ _))

/-- A round of the catch-up loop. The first one of a line in time counts a missed deadline. -/
def catchUpRound (n : NextLine) : NextLine :=
  t.skipLine
    (if n.deadlineLate then n
    else { n with deadlineLate := true, deadlineMisses := n.deadlineMisses + 1 })

def catchUp (now : ℕ) (n : NextLine) : NextLine :=
  whileLoop (t.behind now) t.catchUpRound (now + t.phiCycles / 2 + 2) n

/-- The line that is due after a close at `now`: a missed deadline costs at least one more. -/
def dueLine (s : LineState) (now : ℕ) : NextLine :=
  let late := decide (t.overrun s now > t.phiCycles * 12)
  let n := t.followingLine s late s.statistics.deadlineMisses
  if late then t.skipLine n else n

/-- Traffic may open at the first edge that has come to the target. -/
def openingEdge (n : NextLine) (edges : List ℕ) : Option ℕ :=
  edges.find? fun edge => edge + t.phiCycles / 2 ≥ n.openTarget

/-- The line's origin is taken from the edge itself. -/
def lineOriginAt (n : NextLine) (edge : ℕ) : ℕ :=
  if edge ≥ n.phase * t.phiCycles then edge - n.phase * t.phiCycles else n.lineOrigin

def predictRaster (predictedRaster linesAdvanced : ℕ) : ℕ :=
  if t.rasterLines ≠ 0 then (predictedRaster + linesAdvanced) % t.rasterLines
  else predictedRaster + linesAdvanced

/-- One round of the permutation loop, with the number of lines it advanced. It yields
nothing where the scheduler leaves the loop. -/
def runLine (s : LineState) (i : LineInput) : Option (LineState × ℕ) :=
  let s := s.openTraffic
  if !i.requested then none
  else
    let statistics := t.recordOverrun s i.closed
    if i.forceContinuous then none
    else
      let n := t.catchUp i.closed (t.dueLine s i.closed)
      match t.openingEdge n i.edges with
      | none => none
      | some edge =>
        some
          ({ lineOrigin := t.lineOriginAt n edge
             openEdge := edge
             permutationPhase := n.phase
             predictedRaster := t.predictRaster s.predictedRaster n.linesAdvanced
             statistics :=
               { statistics with
                 refreshEpochs := statistics.refreshEpochs + 1
                 deadlineMisses := n.deadlineMisses
                 recoveryLines :=
                   if n.linesAdvanced > 1 then statistics.recoveryLines + (n.linesAdvanced - 1)
                   else statistics.recoveryLines } }, n.linesAdvanced)

/-- An opening of traffic, with the lines advanced since the first one. -/
structure Opening where
  phase : ℕ
  predictedRaster : ℕ
  lines : ℕ
  deriving DecidableEq, Repr

/-- The openings of the loop from `s`, `lines` lines into the run. -/
def openingsFrom (s : LineState) (lines : ℕ) : List LineInput → List Opening
  | [] => []
  | i :: is =>
    ⟨s.permutationPhase, s.predictedRaster, lines⟩ ::
      match t.runLine s i with
      | none => []
      | some (s', advanced) => openingsFrom s' (lines + advanced) is

end LineTiming

/-- The openings of one run of the scheduler. -/
def LineSync.openings (sync : LineSync) (firstEdge lastEdge : ℕ) (statistics : LineStatistics)
    (inputs : List LineInput) : List LineTiming.Opening :=
  if phiTrusted firstEdge lastEdge then
    let t := sync.measure firstEdge lastEdge
    t.openingsFrom (t.initialState firstEdge lastEdge statistics) 0 inputs
  else []

end Definitions

section Permutation

variable (t : LineTiming)

theorem LineTiming.lineCycles_pos : 0 < t.lineCycles :=
  lt_of_lt_of_le (by decide) t.cycles_wide

theorem LineTiming.permutationStep_spec :
    t.permutationStep < t.lineCycles ∧ Nat.Coprime t.permutationStep t.lineCycles :=
  c128PermutationStep_spec (le_trans (by decide) t.cycles_wide)

theorem LineTiming.nextPhase_eq {phase : ℕ} (h : phase < t.lineCycles) :
    t.nextPhase phase = strideAt t.lineCycles t.permutationStep phase 1 := by
  rw [strideAt_one h t.permutationStep_spec.1]
  rfl

theorem LineTiming.initialPhase_eq : t.initialPhase = 23 := by
  have hwide := t.cycles_wide
  rw [LineTiming.initialPhase, lineInitialRefreshPulses, whileLoop, if_neg (by omega)]

theorem LineTiming.predictRaster_eq (predicted advanced : ℕ) :
    t.predictRaster predicted advanced = (predicted + advanced) % t.rasterLines := by
  have hpos := t.raster_lt
  rw [LineTiming.predictRaster, if_pos (by omega)]

/-- The phase of the next line belongs to the lines it has advanced from `phase`. -/
def LineTiming.InStep (phase : ℕ) (n : NextLine) : Prop :=
  n.phase = strideAt t.lineCycles t.permutationStep phase n.linesAdvanced

/-- Its target lies at its phase. -/
def LineTiming.Aimed (n : NextLine) : Prop := n.openTarget = n.lineOrigin + n.phase * t.phiCycles

variable {t}

theorem LineTiming.inStep_followingLine {s : LineState} (h : s.permutationPhase < t.lineCycles)
    (late : Bool) (misses : ℕ) :
    t.InStep s.permutationPhase (t.followingLine s late misses) := t.nextPhase_eq h

theorem LineTiming.InStep.skipLine {phase : ℕ} {n : NextLine} (h : t.InStep phase n) :
    t.InStep phase (t.skipLine n) := by
  have hlt : n.phase < t.lineCycles := by
    rw [h]
    exact strideAt_lt t.lineCycles_pos _ _
  change t.nextPhase n.phase = strideAt _ _ phase (n.linesAdvanced + 1)
  rw [t.nextPhase_eq hlt, h, strideAt_add]

theorem LineTiming.InStep.catchUpRound {phase : ℕ} {n : NextLine} (h : t.InStep phase n) :
    t.InStep phase (t.catchUpRound n) := by
  rw [LineTiming.catchUpRound]
  split
  next => exact h.skipLine
  next => exact LineTiming.InStep.skipLine (n := { n with deadlineLate := true, .. }) h

theorem LineTiming.inStep_dueLine {s : LineState} (h : s.permutationPhase < t.lineCycles)
    (now : ℕ) : t.InStep s.permutationPhase (t.dueLine s now) := by
  have hfollowing := t.inStep_followingLine h (decide (t.overrun s now > t.phiCycles * 12))
    s.statistics.deadlineMisses
  rw [LineTiming.dueLine]
  split
  next => exact hfollowing.skipLine
  next => exact hfollowing

theorem LineTiming.aimed_dueLine (s : LineState) (now : ℕ) : t.Aimed (t.dueLine s now) := by
  rw [LineTiming.dueLine]
  split <;> rfl

theorem LineTiming.aimed_catchUpRound (n : NextLine) : t.Aimed (t.catchUpRound n) := by
  rw [LineTiming.catchUpRound]
  split <;> rfl

/-- Every line skipped puts the target off. -/
theorem LineTiming.Aimed.openTarget_lt {n : NextLine} (h : t.Aimed n) :
    n.openTarget < (t.catchUpRound n).openTarget := by
  have hphi : 0 < t.phiCycles := lt_of_lt_of_le (by decide) t.phi_long
  have hstep := c128PermutationStep_pos t.lineCycles
  have hless : n.phase < t.lineCycles + t.nextPhase n.phase := by
    rw [LineTiming.nextPhase, LineTiming.permutationStep]
    split <;> omega
  have hmul := Nat.mul_lt_mul_of_pos_right hless hphi
  rw [Nat.add_mul, Nat.mul_comm t.lineCycles] at hmul
  have hround : (t.catchUpRound n).openTarget =
      n.lineOrigin + t.phiCycles * t.lineCycles + t.nextPhase n.phase * t.phiCycles := by
    rw [LineTiming.catchUpRound]
    split <;> rfl
  rw [h, hround]
  omega

theorem LineTiming.Aimed.catchUp_ends {n : NextLine} (h : t.Aimed n) (now : ℕ) :
    LoopEnds (t.behind now) t.catchUpRound n (t.catchUp now n) := by
  refine whileLoop_ends (P := t.Aimed)
    (m := fun n => now + t.phiCycles / 2 + 1 - n.openTarget)
    (fun n _ _ => LineTiming.aimed_catchUpRound n) (fun n hn hbehind => ?_) h (by omega)
  have hlater := hn.openTarget_lt
  rw [LineTiming.behind] at hbehind
  omega

theorem LineTiming.inStep_catchUp {s : LineState} (h : s.permutationPhase < t.lineCycles)
    (now : ℕ) : t.InStep s.permutationPhase (t.catchUp now (t.dueLine s now)) :=
  ((LineTiming.aimed_dueLine s now).catchUp_ends now).keeps (fun _ hn _ => hn.catchUpRound)
    (LineTiming.inStep_dueLine h now)

/-- One line moves phase and predicted raster line by the lines it advanced. -/
theorem LineTiming.runLine_spec {s s' : LineState} {i : LineInput} {advanced : ℕ}
    (hs : s.permutationPhase < t.lineCycles) (h : t.runLine s i = some (s', advanced)) :
    s'.permutationPhase = strideAt t.lineCycles t.permutationStep s.permutationPhase advanced ∧
      s'.predictedRaster = (s.predictedRaster + advanced) % t.rasterLines := by
  have hphase := LineTiming.inStep_catchUp (s := s.openTraffic) hs i.closed
  simp only [LineTiming.runLine] at h
  split at h
  next => exact absurd h (by simp)
  split at h
  next => exact absurd h (by simp)
  split at h
  next => exact absurd h (by simp)
  next edge _ =>
    obtain ⟨rfl, rfl⟩ := Prod.mk.inj (Option.some.inj h)
    exact ⟨hphase, t.predictRaster_eq _ _⟩

/-- Where the scheduler stands `lines` lines into a run. -/
structure LineTiming.Standing (t : LineTiming) (lines phase predictedRaster : ℕ) : Prop where
  phase_eq : phase = strideAt t.lineCycles t.permutationStep t.initialPhase lines
  raster_eq : predictedRaster = (t.syncRaster + lines) % t.rasterLines

theorem LineTiming.standing_initial (firstEdge lastEdge : ℕ) (statistics : LineStatistics) :
    t.Standing 0 (t.initialState firstEdge lastEdge statistics).permutationPhase
      (t.initialState firstEdge lastEdge statistics).predictedRaster where
  phase_eq := by
    have hwide := t.cycles_wide
    rw [strideAt_zero (by rw [t.initialPhase_eq]; omega)]
    rfl
  raster_eq := (Nat.mod_eq_of_lt t.raster_lt).symm

theorem LineTiming.Standing.phase_lt {lines phase predicted : ℕ}
    (h : t.Standing lines phase predicted) : phase < t.lineCycles := by
  rw [h.phase_eq]
  exact strideAt_lt t.lineCycles_pos _ _

theorem LineTiming.Standing.runLine {lines advanced : ℕ} {s s' : LineState} {i : LineInput}
    (h : t.Standing lines s.permutationPhase s.predictedRaster)
    (hline : t.runLine s i = some (s', advanced)) :
    t.Standing (lines + advanced) s'.permutationPhase s'.predictedRaster := by
  obtain ⟨hphase, hraster⟩ := LineTiming.runLine_spec h.phase_lt hline
  constructor
  · rw [hphase, h.phase_eq, strideAt_add]
  · rw [hraster, h.raster_eq, Nat.mod_add_mod, Nat.add_assoc]

theorem LineTiming.Standing.openings {s : LineState} {lines : ℕ} (inputs : List LineInput)
    (h : t.Standing lines s.permutationPhase s.predictedRaster) :
    ∀ o ∈ t.openingsFrom s lines inputs, t.Standing o.lines o.phase o.predictedRaster := by
  induction inputs generalizing s lines with
  | nil => simp [LineTiming.openingsFrom]
  | cons i inputs ih =>
      intro o ho
      rw [LineTiming.openingsFrom, List.mem_cons] at ho
      rcases ho with rfl | ho
      · exact h
      · split at ho
        next => simp at ho
        next s' advanced hline => exact ih (h.runLine hline) o ho

/-- A lap of lines without recovery opens traffic once at every phase. -/
theorem LineTiming.lap_perm {window : List LineTiming.Opening} {first : ℕ}
    (hstanding : ∀ o ∈ window, t.Standing o.lines o.phase o.predictedRaster)
    (hlines : window.map LineTiming.Opening.lines =
      (List.range t.lineCycles).map (first + ·)) :
    (window.map LineTiming.Opening.phase).Perm (List.range t.lineCycles) := by
  have hphases : window.map LineTiming.Opening.phase =
      (window.map LineTiming.Opening.lines).map
        (strideAt t.lineCycles t.permutationStep t.initialPhase) := by
    rw [List.map_map]
    exact List.map_congr_left fun o ho => (hstanding o ho).phase_eq
  rw [hphases, hlines, List.map_map]
  have hshift : strideAt t.lineCycles t.permutationStep t.initialPhase ∘ (first + ·) =
      strideAt t.lineCycles t.permutationStep
        (strideAt t.lineCycles t.permutationStep t.initialPhase first) := by
    funext k
    exact strideAt_add _ _ _
  rw [hshift]
  exact strideAt_perm t.permutationStep_spec.2 _

/-- Counting by ones from the first entry. -/
theorem map_lines_of_isChain {window : List LineTiming.Opening} {o : LineTiming.Opening}
    (h : (o :: window).IsChain fun a b => b.lines = a.lines + 1) :
    (o :: window).map LineTiming.Opening.lines =
      (List.range (window.length + 1)).map (o.lines + ·) := by
  induction window generalizing o with
  | nil => simp
  | cons p window ih =>
      rw [List.isChain_cons_cons] at h
      rw [List.map_cons, ih h.2, List.length_cons, List.range_succ_eq_map (n := window.length + 1),
        List.map_cons, List.map_map, h.1, Nat.add_zero]
      congr 1
      exact List.map_congr_left fun k _ => by simp only [Function.comp_apply]; omega

@[simp] theorem LineSync.measure_toLineSync (sync : LineSync) (firstEdge lastEdge : ℕ) :
    (sync.measure firstEdge lastEdge).toLineSync = sync := by
  rw [LineSync.measure]
  split <;> rfl

theorem LineSync.openings_standing (sync : LineSync) (firstEdge lastEdge : ℕ)
    (statistics : LineStatistics) (inputs : List LineInput) :
    ∀ o ∈ sync.openings firstEdge lastEdge statistics inputs,
      (sync.measure firstEdge lastEdge).Standing o.lines o.phase o.predictedRaster := by
  rw [LineSync.openings]
  split
  next => exact (LineTiming.standing_initial _ _ _).openings inputs
  next => simp

/-- The counters of the phases are arrays of 80 words. -/
theorem LineSync.phase_in_table {cyclesPerLine rasterLines rasterLine : ℕ} {sync : LineSync}
    (h : lineSync cyclesPerLine rasterLines rasterLine = some sync) (firstEdge lastEdge : ℕ)
    (statistics : LineStatistics) (inputs : List LineInput) :
    ∀ o ∈ sync.openings firstEdge lastEdge statistics inputs, o.phase < 80 := by
  intro o ho
  have hlt := (sync.openings_standing firstEdge lastEdge statistics inputs o ho).phase_lt
  rw [sync.measure_toLineSync] at hlt
  rw [lineSync] at h
  split at h
  next hbounds =>
    have hcycles := congrArg LineSync.lineCycles (Option.some.inj h)
    simp only at hcycles
    omega
  next => exact absurd h (by simp)

/-- Every run of the scheduler: the step is coprime to the line, the phase of every opening and
the predicted raster line are those of the same number of lines, the catch-up loop ends by
its own condition, and a lap of lines without recovery opens traffic once at every phase. -/
theorem phase_permutation (sync : LineSync) (firstEdge lastEdge : ℕ)
    (statistics : LineStatistics) (inputs : List LineInput) :
    let step := c128PermutationStep sync.lineCycles
    let opened := sync.openings firstEdge lastEdge statistics inputs
    let t := sync.measure firstEdge lastEdge
    (step < sync.lineCycles ∧ Nat.Coprime step sync.lineCycles) ∧
    (∀ o ∈ opened, o.phase < sync.lineCycles ∧
      o.phase = (lineInitialRefreshPulses - 1 + o.lines * step) % sync.lineCycles ∧
      o.predictedRaster = (sync.syncRaster + o.lines) % sync.rasterLines) ∧
    (∀ (s : LineState) (now : ℕ),
      LoopEnds (t.behind now) t.catchUpRound (t.dueLine s now)
        (t.catchUp now (t.dueLine s now))) ∧
    (∀ window, window <:+: opened → window.length = sync.lineCycles →
      (window.IsChain fun a b => b.lines = a.lines + 1) →
      (window.map LineTiming.Opening.phase).Perm (List.range sync.lineCycles)) := by
  intro step opened t
  have hsync : t.toLineSync = sync := sync.measure_toLineSync firstEdge lastEdge
  have hstanding := sync.openings_standing firstEdge lastEdge statistics inputs
  refine ⟨c128PermutationStep_spec (le_trans (by decide) sync.cycles_wide), ?_, ?_, ?_⟩
  · intro o ho
    have h := hstanding o ho
    have hlt := h.phase_lt
    have hphase := h.phase_eq
    have hraster := h.raster_eq
    rw [t.initialPhase_eq, strideAt, LineTiming.permutationStep] at hphase
    rw [hsync] at hlt hphase hraster
    exact ⟨hlt, hphase, hraster⟩
  · intro s now
    exact (LineTiming.aimed_dueLine s now).catchUp_ends now
  · intro window hpart hlength hchain
    cases window with
    | nil => simp at hlength; rw [← hlength]; simp
    | cons o window =>
        have hlines := map_lines_of_isChain hchain
        rw [List.length_cons] at hlength
        rw [hlength, ← hsync] at hlines
        rw [← hsync]
        exact LineTiming.lap_perm (fun p hp => hstanding p (hpart.subset hp)) hlines

/-- Lines of 48 cycles that close in time. -/
theorem phase_permutation_lap :
    let sync : LineSync := ⟨48, 263, 0, by decide, by decide⟩
    let edge (k : ℕ) : ℕ := k * 48000 + (23 + k * 17) % 48 * 1000
    let inputs := (List.range 48).map fun k =>
      { closed := edge k + 8000, requested := true, forceContinuous := false
        edges := [edge k + 9000, edge (k + 1)] : LineInput }
    let statistics : LineStatistics := ⟨0, 0, fun _ => 0, fun _ => 0, fun _ => 0, 0, 0, 0, 0, 0⟩
    ((sync.openings 0 23000 statistics inputs).map LineTiming.Opening.phase).Perm
      (List.range 48) := by
  intro sync edge inputs statistics
  exact (phase_permutation sync 0 23000 statistics inputs).2.2.2 _ List.infix_rfl
    (by decide +kernel) (by decide +kernel)

end Permutation

end C128Refresh

end ScpuEmu
