import ScpuEmu.Bus.Rad.Port

/-!
# The calibration of reads

The bus reads known bytes at one sampling point after another. Whatever the machine answers, it
settles on the middle of the first of the longest runs of points without an error, and on what
was configured if every point had one.
-/

namespace ScpuEmu

open Library

namespace CRADBus

variable {σ : Type} (p : RadPort σ)

/-! ### The measurement -/

def firstSample : ℕ := 300

/-- `READ_TIMING_SCORE_COUNT`: the points up to the last, 620. -/
def readTimingScoreCount : ℕ := 65

/-- `READ_TIMING_REPETITIONS`. -/
def readTimingRepetitions : ℕ := 12

def setWaitCycleRead (sample : BitVec 16) : RadM σ PUnit :=
  modify fun s => { s with
    busTiming := { s.busTiming with waitCycleRead := sample, waitCycleRead2 := sample + 20 } }

def mixedPass (r : ℕ) : RadM σ MixedPass := do
  let ram ← collect (fun i => speek p (patternAddr i)) (rotated r)
  let border ← speek p 0xD020
  return ⟨ram, border⟩

/-- The reads at a sampling point. The first of the VIC alone and the first of the RAM alone do
not count. -/
def scoreSample (sample : ℕ) : RadM σ ReadTimingScore := do
  setWaitCycleRead (BitVec.ofNat 16 sample)
  let mixed ← collect (mixedPass p) (List.range readTimingRepetitions)
  let _ ← speek p 0xD020
  let isolatedVIC ← collect (fun _ => speek p 0xD020) (List.range readTimingRepetitions)
  let _ ← speek p (patternAddr 0)
  let ramOnly ← collect (fun _ => collect (fun i => speek p (patternAddr i)) (List.range 6))
    (List.range readTimingRepetitions)
  countReads (readTimingRepetitions * (6 * 2 + 2) + 2)
  return ⟨mixed, isolatedVIC, ramOnly⟩

/-- The first `n` points, with the runs of those without an error. -/
def scoreSamples : ℕ → RadM σ (List ReadTimingScore × EyeScan)
  | 0 => pure ([], EyeScan.start)
  | n + 1 => do
      let (scores, e) ← scoreSamples n
      let sample := EyeScan.point firstSample n
      let o ← scoreSample p sample
      return (scores ++ [o], e.note sample (decide (o.errors = 0)))

def seedPatterns : RadM σ PUnit := do
  spoke p 0x02FE 0xA6
  let _ ← collect (fun i => spoke p (patternAddr i) (patterns.getD i 0)) (List.range 6)
  spoke p 0xD020 0x06
  countWrites (6 + 2)

def settle (configured : BitVec 16) (scores : List ReadTimingScore) (e : EyeScan) : RadM σ PUnit :=
  if e.bestRunSamples ≠ 0 then do
    let chosen := BitVec.ofNat 16 e.chosen
    setWaitCycleRead chosen
    modify fun s => { s with readTiming := ⟨configured, e.bestStart, e.bestEnd, chosen, scores⟩ }
  else do
    setWaitCycleRead configured
    modify fun s => { s with readTiming := ⟨configured, 0, 0, configured, scores⟩ }

def calibrateReadTiming : RadM σ PUnit := do
  let s ← get
  seedPatterns p
  let (scores, e) ← scoreSamples p readTimingScoreCount
  settle s.busTiming.waitCycleRead scores e.endRun
  spoke p 0xD020 0x0E
  countWrites 1

/-! ### What it settles on -/

/-- The point with a number had no error. -/
def errorFree (scores : List ReadTimingScore) (k : ℕ) : Bool :=
  scores[k]?.any fun o => decide (o.errors = 0)

/-- The timing lies in the middle of the first of the longest runs of points without an error. -/
structure Centred (s : CRADBus σ) (r : ℕ × ℕ) : Prop where
  longest : IsLongestRun (errorFree s.readTiming.scores) readTimingScoreCount r
  start : s.readTiming.readTimingStart = EyeScan.point firstSample r.1
  stop : s.readTiming.readTimingEnd = EyeScan.point firstSample r.2
  sample : s.busTiming.waitCycleRead =
    BitVec.ofNat 16 (EyeScan.point firstSample (r.1 + (r.2 - r.1) / 2))

/-- No point was without an error, and the timing is as before. -/
structure Retained (configured : BitVec 16) (s : CRADBus σ) : Prop where
  erroneous : ∀ k < readTimingScoreCount, errorFree s.readTiming.scores k = false
  start : s.readTiming.readTimingStart = 0
  stop : s.readTiming.readTimingEnd = 0
  sample : s.busTiming.waitCycleRead = configured

/-- What calibration leaves behind. -/
structure Settled (configured : BitVec 16) (s : CRADBus σ) : Prop where
  scored : s.readTiming.scores.length = readTimingScoreCount
  settled : (∃ r, s.Centred r) ∨ s.Retained configured
  selected : s.readTiming.readTimingSelected = s.busTiming.waitCycleRead
  second : s.busTiming.waitCycleRead2 = s.busTiming.waitCycleRead + 20

theorem errorFree_append_of_lt {scores : List ReadTimingScore} {k : ℕ} (h : k < scores.length)
    (o : ReadTimingScore) : errorFree (scores ++ [o]) k = errorFree scores k := by
  rw [errorFree, errorFree, List.getElem?_append_left h]

theorem errorFree_append_length (scores : List ReadTimingScore) (o : ReadTimingScore) :
    errorFree (scores ++ [o]) scores.length = decide (o.errors = 0) := by
  rw [errorFree, List.getElem?_concat_length, Option.any_some]

/-- The points are scored one by one, and the runs are those of the scores. -/
theorem returns_scoreSamples (n : ℕ) : Returns
    (fun r => r.1.length = n ∧ r.2 = EyeScan.scanned firstSample (errorFree r.1) n)
    (scoreSamples p n) := by
  induction n with
  | zero => exact returns_pure ⟨rfl, rfl⟩
  | succ n ih =>
      refine ih.bind fun r h => returns_bind fun o => returns_pure ⟨?_, ?_⟩
      · rw [List.length_append, h.1]
        rfl
      · have hnew := errorFree_append_length r.1 o
        rw [h.1] at hnew
        rw [EyeScan.scanned, hnew, h.2]
        refine congrArg (EyeScan.note · _ _) (EyeScan.scanned_congr fun k hk => ?_)
        exact (errorFree_append_of_lt (h.1 ▸ hk) o).symm

theorem settled_settle (configured : BitVec 16) {scores : List ReadTimingScore}
    (hscored : scores.length = readTimingScoreCount) (s : CRADBus σ) :
    ((settle configured scores
      (EyeScan.scanned firstSample (errorFree scores) readTimingScoreCount).endRun).run s).2.Settled
        configured := by
  have hfirst : 0 < firstSample := by decide
  unfold settle
  obtain ⟨hfound, r, heye⟩ | ⟨hnone, hall⟩ :=
    EyeScan.eye_scanned hfirst (errorFree scores) readTimingScoreCount
  · rw [if_pos hfound]
    refine ⟨hscored, .inl ⟨r, heye.longest, heye.bestStart, heye.bestEnd, ?_⟩, rfl, rfl⟩
    exact congrArg (BitVec.ofNat 16) heye.chosen
  · rw [if_neg (not_not.mpr hnone)]
    exact ⟨hscored, .inr ⟨hall, rfl, rfl, rfl⟩, rfl, rfl⟩

theorem Settled.keeps_spoke {configured : BitVec 16} {s : CRADBus σ} (h : s.Settled configured)
    (addr : Addr) (value : Byte) (n : ℕ) :
    ((do spoke p addr value; countWrites n : RadM σ PUnit).run s).2.Settled configured := by
  obtain ⟨hscored, hsettled, hselected, hsecond⟩ := h
  refine ⟨hscored, ?_, hselected, hsecond⟩
  obtain ⟨r, hlongest, hstart, hstop, hsample⟩ | ⟨herroneous, hstart, hstop, hsample⟩ := hsettled
  · exact .inl ⟨r, hlongest, hstart, hstop, hsample⟩
  · exact .inr ⟨herroneous, hstart, hstop, hsample⟩

/-- The start, the selected point and the end of the eye, each once. -/
def verificationPoints (t : ReadTiming) : List (BitVec 16) :=
  [BitVec.ofNat 16 t.readTimingStart, t.readTimingSelected, BitVec.ofNat 16 t.readTimingEnd].foldl
    (fun points c => if c ∈ points then points else points ++ [c]) []

/-- Two reads that do not count and three that do. -/
def observeDDRA (sample : BitVec 16) : RadM σ (List Byte) := do
  setWaitCycleRead sample
  let _ ← collect (fun _ => speek p 0xDD02) (List.range 2)
  collect (fun _ => speek p 0xDD02) (List.range 3)

def restoreReadTiming (saved : BusTiming) : RadM σ PUnit :=
  modify fun s => { s with
    busTiming :=
      { s.busTiming with
        waitCycleRead := saved.waitCycleRead
        waitCycleRead2 := saved.waitCycleRead2 } }

def verifyC64CIA2DDRA (expected : Byte) : RadM σ Bool := do
  let s ← get
  let t := s.readTiming
  let points := verificationPoints t
  if t.readTimingStart = 0 ∨ t.readTimingEnd < t.readTimingStart then pure false
  else if points.length < 2 then pure false
  else do
    let observed ← collect (observeDDRA p) points
    countReads (points.length * 5)
    restoreReadTiming s.busTiming
    return observed.all fun values => values.all fun v => decide (v = expected)

/-- The timings of writes and of the SID are as they were. -/
def OtherTimings (saved : BusTiming) (s : CRADBus σ) : Prop :=
  { s.busTiming with
    waitCycleRead := saved.waitCycleRead
    waitCycleRead2 := saved.waitCycleRead2 } = saved

theorem keeps_speek (saved : BusTiming) (addr : Addr) :
    Keeps (OtherTimings saved) (speek p addr) := fun _ h => h

theorem keeps_observeDDRA (saved : BusTiming) (sample : BitVec 16) :
    Keeps (OtherTimings saved) (observeDDRA p sample) := by
  have hset : Keeps (OtherTimings saved) (setWaitCycleRead (σ := σ) sample) := fun _ h => h
  refine keeps_bind hset fun _ => keeps_bind ?_ fun _ => ?_
  · exact keeps_collect (fun _ => keeps_speek p saved 0xDD02) _
  · exact keeps_collect (fun _ => keeps_speek p saved 0xDD02) _

/-- Verification leaves the timings as they were. -/
theorem busTiming_verifyC64CIA2DDRA (expected : Byte) (s : CRADBus σ) :
    ((verifyC64CIA2DDRA p expected).run s).2.busTiming = s.busTiming := by
  rw [verifyC64CIA2DDRA, run_bind, run_get]
  dsimp only
  split
  · rfl
  · split
    · rfl
    · exact keeps_collect (keeps_observeDDRA p s.busTiming) (verificationPoints s.readTiming) s rfl

/-- After calibration, only an eye of two points or more lets the register be verified. -/
theorem eye_of_verified {configured : BitVec 16} {s : CRADBus σ} (h : s.Settled configured)
    {expected : Byte} (hverified : ((verifyC64CIA2DDRA p expected).run s).1 = true) :
    ∃ r, s.Centred r ∧ r.1 < r.2 := by
  rw [verifyC64CIA2DDRA, run_bind, run_get] at hverified
  dsimp only at hverified
  split at hverified
  next => exact absurd hverified Bool.false_ne_true
  next heye =>
    obtain ⟨r, hr⟩ | hretained := h.settled
    · refine ⟨r, hr, lt_of_le_of_ne hr.longest.run.ordered fun hsame => ?_⟩
      have hselected := h.selected.trans hr.sample
      have hstart := hr.start
      have hstop := hr.stop
      rw [← hsame] at hstop hselected
      rw [Nat.sub_self, Nat.zero_div, Nat.add_zero] at hselected
      have hpoints : verificationPoints s.readTiming =
          [BitVec.ofNat 16 (EyeScan.point firstSample r.1)] := by
        rw [verificationPoints, hstart, hstop, hselected]
        simp
      rw [hpoints, List.length_singleton, if_pos Nat.one_lt_two] at hverified
      exact absurd hverified Bool.false_ne_true
    · exact absurd (Or.inl hretained.start) heye

end CRADBus

end ScpuEmu
