import ScpuEmu.Library.Champion
import ScpuEmu.Library.LongestRun
import ScpuEmu.Types
import Mathlib.Algebra.GroupWithZero.Nat

/-!
# The eye of a sampling point

Calibration tries one sampling point after another on a grid and keeps the longest run of good
ones. It settles on the middle of that run, on the grid.
-/

namespace ScpuEmu

open Library

/-! ### What calibration measures -/

/-- The bytes that the RAM is seeded with. -/
def patterns : List Byte := [0x3C, 0xC3, 0x5A, 0xA5, 0x69, 0x96]

def patternAddr (i : ℕ) : Addr := 0x0334 + BitVec.ofNat 16 i

/-- The numbers of the patterns in the order of a repetition, which starts one further on each
time. -/
def rotated (r : ℕ) : List ℕ := (List.range 6).map fun position => (r + position) % 6

/-- The bytes that differ from the patterns with the given numbers. -/
def mismatches (values : List Byte) (numbers : List ℕ) : ℕ :=
  (values.zip numbers).countP fun x => x.1 ≠ patterns.getD x.2 0

/-- The border colour, of which four bits can be read. -/
def isBorder (v : Byte) : Bool := decide (v &&& 0x0F = 0x06)

/-- A repetition that goes from the RAM to the VIC. -/
structure MixedPass where
  ram : List Byte
  border : Byte

/-- What the reads at a sampling point gave: mixed, of the VIC alone and of the RAM alone. -/
structure ReadTimingScore where
  mixed : List MixedPass
  isolatedVIC : List Byte
  ramOnly : List (List Byte)

namespace ReadTimingScore

variable (o : ReadTimingScore)

def ramErrors : ℕ := (o.mixed.zipIdx.map fun x => mismatches x.1.ram (rotated x.2)).sum

def mixedVICErrors : ℕ := o.mixed.countP fun x => !isBorder x.border

def isolatedVICErrors : ℕ := o.isolatedVIC.countP fun v => !isBorder v

def ramOnlyErrors : ℕ := (o.ramOnly.map fun values => mismatches values (rotated 0)).sum

/-- The score that the choice goes by. -/
def errors : ℕ := o.ramErrors + o.mixedVICErrors

end ReadTimingScore

/-- The members `m_ReadTiming…`. The arrays of the source are functions of `scores`. -/
structure ReadTiming where
  readTimingConfigured : BitVec 16
  readTimingStart : ℕ
  readTimingEnd : ℕ
  readTimingSelected : BitVec 16
  scores : List ReadTimingScore

/-! ### Runs of good points -/

/-- The locals that follow the runs of good points. A start of zero is none. -/
structure EyeScan where
  runStart : ℕ
  runEnd : ℕ
  bestStart : ℕ
  bestEnd : ℕ
  bestRunSamples : ℕ
  deriving DecidableEq

namespace EyeScan

def start : EyeScan := ⟨0, 0, 0, 0, 0⟩

/-- The grids of both calibrations step by five cycles. -/
def sampleStep : ℕ := 5

/-- A run has ended. -/
def endRun (e : EyeScan) : EyeScan :=
  if e.runStart ≠ 0 then
    let runSamples := (e.runEnd - e.runStart) / sampleStep + 1
    if e.bestRunSamples < runSamples then
      { e with bestRunSamples := runSamples, bestStart := e.runStart, bestEnd := e.runEnd }
    else e
  else e

def note (e : EyeScan) (sample : ℕ) (valid : Bool) : EyeScan :=
  if valid then
    { e with runStart := if e.runStart = 0 then sample else e.runStart, runEnd := sample }
  else if e.runStart ≠ 0 then { e.endRun with runStart := 0, runEnd := 0 }
  else e

/-- The middle of the longest run. -/
def chosen (e : EyeScan) : ℕ :=
  e.bestStart + (e.bestEnd - e.bestStart) / sampleStep / 2 * sampleStep

/-- The point of the grid with a number. -/
def point (firstSample k : ℕ) : ℕ := firstSample + sampleStep * k

/-! ### The first of the longest runs -/

variable {first n : ℕ} {valid : ℕ → Bool} {e : EyeScan} {s : RunScan}

theorem point_sub (first i j : ℕ) : (point first j - point first i) / sampleStep = j - i := by
  unfold point sampleStep
  omega

theorem point_ne_zero (hfirst : 0 < first) (k : ℕ) : point first k ≠ 0 := by
  unfold point
  omega

/-- The locals hold the best run that a scan by number remembers. -/
structure HoldsBest (first : ℕ) (e : EyeScan) (best : Option (ℕ × ℕ)) : Prop where
  unset : best = none → e.bestRunSamples = 0
  set : ∀ r ∈ best, e.bestStart = point first r.1 ∧ e.bestEnd = point first r.2 ∧
    e.bestRunSamples = r.2 - r.1 + 1

/-- The locals hold all that it remembers. -/
structure Follows (first : ℕ) (e : EyeScan) (s : RunScan) : Prop where
  closed : s.current = none → e.runStart = 0
  current : ∀ r ∈ s.current, e.runStart = point first r.1 ∧ e.runEnd = point first r.2
  best : e.HoldsBest first s.best

theorem Follows.endRun (hfirst : 0 < first) (h : e.Follows first s) :
    e.endRun.HoldsBest first s.close.best := by
  obtain ⟨hclosed, hcurrent, hunset, hset⟩ := h
  rw [EyeScan.endRun, RunScan.close]
  cases hopen : s.current with
  | none =>
      rw [if_neg (not_not.mpr (hclosed hopen))]
      exact ⟨hunset, hset⟩
  | some c =>
      obtain ⟨hstart, hend⟩ := hcurrent c hopen
      rw [if_pos (hstart ▸ point_ne_zero hfirst c.1), hstart, hend, point_sub]
      cases hbest : s.best with
      | none =>
          dsimp only
          rw [hunset hbest, if_pos (Nat.zero_lt_succ _)]
          refine ⟨by simp, ?_⟩
          rintro r ⟨⟩
          exact ⟨rfl, rfl, rfl⟩
      | some b =>
          obtain ⟨hbestStart, hbestEnd, hsamples⟩ := hset b hbest
          dsimp only [Option.elim]
          rw [hsamples, RunScan.longer]
          refine ⟨by simp, ?_⟩
          by_cases hless : b.2 - b.1 < c.2 - c.1
          · rw [if_pos hless, if_pos (Nat.succ_lt_succ hless)]
            rintro r ⟨⟩
            exact ⟨rfl, rfl, rfl⟩
          · rw [if_neg hless, if_neg (fun h => hless (Nat.lt_of_succ_lt_succ h))]
            rintro r ⟨⟩
            exact ⟨hbestStart, hbestEnd, hsamples⟩

theorem Follows.note (hfirst : 0 < first) (h : e.Follows first s) (k : ℕ) (hit : Bool) :
    (e.note (point first k) hit).Follows first (s.note k hit) := by
  obtain ⟨hclosed, hcurrent, hbest⟩ := id h
  cases hit with
  | true =>
      refine ⟨by simp [RunScan.note], ?_, ⟨hbest.unset, hbest.set⟩⟩
      rintro r ⟨⟩
      refine ⟨?_, rfl⟩
      cases hopen : s.current with
      | none => exact if_pos (hclosed hopen)
      | some c =>
          have hstart := (hcurrent c hopen).1
          exact (if_neg (hstart ▸ point_ne_zero hfirst c.1)).trans hstart
  | false =>
      have hend := h.endRun hfirst
      rw [EyeScan.note, RunScan.note, if_neg Bool.false_ne_true, if_neg Bool.false_ne_true]
      cases hopen : s.current with
      | none =>
          have hsame : s.close = s := by rw [RunScan.close, hopen]
          rw [if_neg (not_not.mpr (hclosed hopen)), hsame]
          exact h
      | some c =>
          have hgone : s.close.current = none := by rw [RunScan.close, hopen]
          rw [if_pos ((hcurrent c hopen).1 ▸ point_ne_zero hfirst c.1)]
          exact ⟨fun _ => rfl, by simp [hgone], ⟨hend.unset, hend.set⟩⟩

/-- The scan of the first `n` points, told which are good. -/
def scanned (first : ℕ) (valid : ℕ → Bool) : ℕ → EyeScan
  | 0 => start
  | n + 1 => (scanned first valid n).note (point first n) (valid n)

theorem scanned_congr {valid' : ℕ → Bool} (h : ∀ k < n, valid k = valid' k) :
    scanned first valid n = scanned first valid' n := by
  induction n with
  | zero => rfl
  | succ n ih =>
      rw [scanned, scanned, ih fun k hk => h k (hk.trans (Nat.lt_succ_self n)),
        h n (Nat.lt_succ_self n)]

theorem follows_scanned (hfirst : 0 < first) (valid : ℕ → Bool) (n : ℕ) :
    (scanned first valid n).Follows first (RunScan.scan valid n) := by
  induction n with
  | zero => exact ⟨fun _ => rfl, by simp [RunScan.scan, RunScan.start], fun _ => rfl,
      by simp [RunScan.scan, RunScan.start]⟩
  | succ n ih => exact ih.note hfirst n (valid n)

/-- What calibration settles on: the middle of the first of the longest runs of good points. -/
structure Eye (first n : ℕ) (valid : ℕ → Bool) (e : EyeScan) (r : ℕ × ℕ) : Prop where
  longest : IsLongestRun valid n r
  bestStart : e.bestStart = point first r.1
  bestEnd : e.bestEnd = point first r.2
  chosen : e.chosen = point first (r.1 + (r.2 - r.1) / 2)

/-- A finished scan has found an eye, or no point was good. -/
theorem eye_scanned (hfirst : 0 < first) (valid : ℕ → Bool) (n : ℕ) :
    let e := (scanned first valid n).endRun
    (e.bestRunSamples ≠ 0 ∧ ∃ r, e.Eye first n valid r) ∨
      e.bestRunSamples = 0 ∧ ∀ k < n, valid k = false := by
  intro e
  obtain ⟨hunset, hset⟩ := (follows_scanned hfirst valid n).endRun hfirst
  obtain ⟨hlongest, hnone⟩ := RunScan.scan_longest valid n
  cases hbest : (RunScan.scan valid n).close.best with
  | none => exact .inr ⟨hunset hbest, hnone hbest⟩
  | some r =>
      obtain ⟨hstart, hend, hsamples⟩ := hset r hbest
      have hfound : (scanned first valid n).endRun.bestRunSamples ≠ 0 :=
        ne_of_eq_of_ne hsamples (Nat.succ_ne_zero _)
      refine .inl ⟨hfound, r, hlongest r hbest, hstart, hend, ?_⟩
      rw [EyeScan.chosen, hstart, hend, point_sub, point, point, Nat.mul_add,
        Nat.mul_comm _ sampleStep, Nat.add_assoc]

end EyeScan

end ScpuEmu
