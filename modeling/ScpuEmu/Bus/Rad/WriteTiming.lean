import ScpuEmu.Bus.Rad.Port
import ScpuEmu.Library.Champion

/-!
# The calibration of writes

The bus writes known bytes with one timing after another and reads them back. Of the timings
that lost none it takes the one with the most of them around it, and of those the closest to
what was configured.
-/

namespace ScpuEmu

open Library

/-! ### The grid -/

namespace WriteGrid

def addrCount : ℕ := 19

def dataCount : ℕ := 27

def addrTiming (ai : ℕ) : ℕ := 340 + ai * 10

def dataTiming (di : ℕ) : ℕ := 540 + di * 10

/-- The points in the order of the scan. -/
def points : List (ℕ × ℕ) :=
  (List.range addrCount).flatMap fun ai => (List.range dataCount).map fun di => (ai, di)

def timing (x : ℕ × ℕ) : WritePoints :=
  ⟨BitVec.ofNat 16 (addrTiming x.1), BitVec.ofNat 16 (dataTiming x.2)⟩

/-- The errors at the points, which are kept in the order of the scan. -/
def ofScores (scores : List ℕ) (x : ℕ × ℕ) : ℕ := scores.getD (x.1 * dataCount + x.2) 0

variable (grid : ℕ × ℕ → ℕ)

/-- The steps to a neighbour, from two below to two above in each dimension. -/
def offsets : List (ℕ × ℕ) :=
  (List.range 5).flatMap fun da => (List.range 5).map fun dd => (da, dd)

/-- The points without errors around a point, itself among them. -/
def score (x : ℕ × ℕ) : ℕ :=
  offsets.countP fun o => decide
    (2 ≤ x.1 + o.1 ∧ 2 ≤ x.2 + o.2 ∧ x.1 + o.1 - 2 < addrCount ∧ x.2 + o.2 - 2 < dataCount ∧
      grid (x.1 + o.1 - 2, x.2 + o.2 - 2) = 0)

/-- The square of the distance, in 32 bits. -/
def distance (configured : WritePoints) (x : ℕ × ℕ) : ℕ :=
  let ad : ℤ := addrTiming x.1 - configured.addrLatch.toNat
  let dtd : ℤ := dataTiming x.2 - configured.data.toNat
  ((ad * ad + dtd * dtd) % 0x100000000).toNat

/-- The locals of the choice. -/
structure Choice where
  bestScore : ℕ
  bestDistance : ℕ
  best : ℕ × ℕ

namespace Choice

def start : Choice := ⟨0, 0xFFFFFFFF, (0, 0)⟩

def consider (configured : WritePoints) (c : Choice) (x : ℕ × ℕ) : Choice :=
  if grid x ≠ 0 then c
  else if c.bestScore < score grid x ∨
      score grid x = c.bestScore ∧ distance configured x < c.bestDistance then
    ⟨score grid x, distance configured x, x⟩
  else c

end Choice

def select (configured : WritePoints) : ℕ × ℕ :=
  (points.foldl (Choice.consider grid configured) Choice.start).best

/-! ### The best point -/

/-- A point without errors, with no fewer of them around it than around any other, and no farther
from what was configured than any with as many. -/
structure Best (configured : WritePoints) (x : ℕ × ℕ) : Prop where
  fits : x ∈ points
  errorFree : grid x = 0
  safest : ∀ y ∈ points, grid y = 0 → score grid y ≤ score grid x
  closest : ∀ y ∈ points, grid y = 0 → score grid y = score grid x →
    distance configured x ≤ distance configured y

variable {grid} {configured : WritePoints}

theorem mem_points {x : ℕ × ℕ} : x ∈ points ↔ x.1 < addrCount ∧ x.2 < dataCount := by
  obtain ⟨ai, di⟩ := x
  simp [points]

theorem score_pos {x : ℕ × ℕ} (hx : x ∈ points) (h : grid x = 0) : 0 < score grid x := by
  obtain ⟨hai, hdi⟩ := mem_points.mp hx
  refine List.countP_pos_iff.mpr ⟨(2, 2), by decide, decide_eq_true ?_⟩
  exact ⟨Nat.le_add_left 2 x.1, Nat.le_add_left 2 x.2, hai, hdi, h⟩

/-- What the choice goes by. -/
def choiceKey : Choice → ℕ ×ₗ ℕᵒᵈ := gainThenCost Choice.bestScore Choice.bestDistance

/-- A point as the choice records it. -/
def candidate (grid : ℕ × ℕ → ℕ) (configured : WritePoints) (x : ℕ × ℕ) : Choice :=
  ⟨score grid x, distance configured x, x⟩

theorem foldl_consider (c : Choice) : points.foldl (Choice.consider grid configured) c =
    ((points.filter fun x => decide (grid x = 0)).map (candidate grid configured)).foldl
      (challenge choiceKey) c := by
  rw [List.foldl_map, List.foldl_filter]
  congr 1
  funext c x
  unfold Choice.consider challenge choiceKey
  simp only [gainThenCost_lt_iff, decide_eq_true_eq, ite_not]
  split
  next =>
    congr 1
    simp only [candidate, eq_comm]
  next => rfl

/-- The choice is best where there is one. -/
theorem best_select {x₀ : ℕ × ℕ} (hx₀ : x₀ ∈ points) (herrorFree : grid x₀ = 0) :
    Best grid configured (select grid configured) := by
  have hmem : ∀ y ∈ points, grid y = 0 → candidate grid configured y ∈
      (points.filter fun x => decide (grid x = 0)).map (candidate grid configured) :=
    fun y hy hzero => List.mem_map.mpr ⟨y, List.mem_filter.mpr ⟨hy, decide_eq_true hzero⟩, rfl⟩
  obtain ⟨before, after, h⟩ := foldl_challenge choiceKey Choice.start
    ((points.filter fun x => decide (grid x = 0)).map (candidate grid configured))
  have hbeaten : ∀ y ∈ points, grid y = 0 → choiceKey (candidate grid configured y) ≤ _ :=
    fun y hy hzero => h.key_le _ (List.mem_cons_of_mem _ (hmem y hy hzero))
  have hchampion := h.mem
  rw [← foldl_consider] at hbeaten hchampion
  -- a point without errors is one of its own neighbours, so the start is beaten
  obtain hstart | hchosen := List.mem_cons.mp hchampion
  · have hworse := hbeaten x₀ hx₀ herrorFree
    rw [hstart] at hworse
    obtain hless | ⟨hsame, -⟩ := gainThenCost_le_iff.mp hworse
    · exact absurd hless (Nat.not_lt_zero _)
    · exact absurd hsame (score_pos hx₀ herrorFree).ne'
  · obtain ⟨x, hx, hcandidate⟩ := List.mem_map.mp hchosen
    obtain ⟨hfits, hzero⟩ := List.mem_filter.mp hx
    have hselect : select grid configured = x := (congrArg Choice.best hcandidate).symm
    rw [← hcandidate] at hbeaten
    rw [hselect]
    refine ⟨hfits, of_decide_eq_true hzero, fun y hy hy0 => ?_, fun y hy hy0 hsame => ?_⟩
    · exact (gainThenCost_le_iff.mp (hbeaten y hy hy0)).elim le_of_lt fun h => h.1.le
    · obtain hless | ⟨-, hclose⟩ := gainThenCost_le_iff.mp (hbeaten y hy hy0)
      · exact absurd hsame hless.ne
      · exact hclose

end WriteGrid

namespace CRADBus

open WriteGrid

variable {σ : Type} (p : RadPort σ)

/-! ### The measurement -/

def setWritePoints (points : WritePoints) : RadM σ PUnit :=
  modify fun s => { s with
    busTiming :=
      { s.busTiming with
        timingEnableRWOutAddrLatchWriting := points.addrLatch
        timingEnableDataWriting := points.data } }

def p0 : List Byte := [0x96, 0x69, 0x3C, 0xC3]

def p1 : List Byte := [0x5A, 0xA5, 0x0F, 0xF0]

def writesAt (addr : Addr) (values : List Byte) : List C64BusWrite :=
  values.zipIdx.map fun x => ⟨addr + BitVec.ofNat 16 x.2, x.1⟩

/-- Whether a byte reads back otherwise than written. -/
def lost (w : C64BusWrite) : RadM σ Bool := do
  let got ← speek p w.addr
  return decide (got ≠ w.value)

/-- A write and a read by turns. -/
def lostInPairs (values : List Byte) : RadM σ (List Bool) :=
  collect (fun w : C64BusWrite => do
    spoke p w.addr w.value
    lost p w) (writesAt 0x0340 values)

def lostInBurst (values : List Byte) : RadM σ (List Bool) := do
  writeBurst p (writesAt 0x0348 values)
  collect (lost p) (writesAt 0x0348 values)

def scoreWritePoints (x : ℕ × ℕ) : RadM σ ℕ := do
  setWritePoints (timing x)
  let first ← lostInPairs p p0
  let second ← lostInPairs p p1
  let third ← lostInBurst p p1
  let fourth ← lostInBurst p p0
  return min 254 ((first ++ second ++ third ++ fourth).count true)

def calibrateWriteTiming : RadM σ PUnit := do
  let s ← get
  let scores ← collect (scoreWritePoints p) points
  if scores.count 0 ≠ 0 then
    setWritePoints (timing (select (ofScores scores) s.writePoints))
  else setWritePoints s.writePoints

/-- What calibration settles on, as it is told the errors. -/
structure WritesSettled (configured : WritePoints) (scores : List ℕ) (chosen : WritePoints) :
    Prop where
  best : ∀ x ∈ points, ofScores scores x = 0 →
    ∃ y, Best (ofScores scores) configured y ∧ chosen = timing y
  retained : (∀ x ∈ points, ofScores scores x ≠ 0) → chosen = configured

theorem ofScores_index (scores : List ℕ) {i : ℕ} (h : i < addrCount * dataCount) :
    ∃ x ∈ points, ofScores scores x = scores.getD i 0 := by
  refine ⟨(i / dataCount, i % dataCount), mem_points.mpr ⟨?_, ?_⟩, ?_⟩
  · exact Nat.div_lt_of_lt_mul (Nat.mul_comm addrCount dataCount ▸ h)
  · exact Nat.mod_lt i (by decide)
  · rw [ofScores, Nat.div_add_mod']

theorem index_lt {x : ℕ × ℕ} (hx : x ∈ points) : x.1 * dataCount + x.2 < addrCount * dataCount := by
  obtain ⟨hai, hdi⟩ := mem_points.mp hx
  calc x.1 * dataCount + x.2 < x.1 * dataCount + dataCount := Nat.add_lt_add_left hdi _
    _ = (x.1 + 1) * dataCount := (Nat.succ_mul x.1 dataCount).symm
    _ ≤ addrCount * dataCount := Nat.mul_le_mul_right _ hai

/-- The scores have a zero where a point of the grid has one. -/
theorem count_zero_ne_zero_iff {scores : List ℕ} (hlength : scores.length = addrCount * dataCount) :
    scores.count 0 ≠ 0 ↔ ∃ x ∈ points, ofScores scores x = 0 := by
  rw [Nat.ne_zero_iff_zero_lt, List.count_pos_iff]
  constructor
  · intro hmem
    obtain ⟨i, hi, hzero⟩ := List.mem_iff_getElem.mp hmem
    obtain ⟨x, hx, hscore⟩ := ofScores_index scores (hlength ▸ hi)
    exact ⟨x, hx, by rw [hscore, List.getD_eq_getElem _ _ hi, hzero]⟩
  · rintro ⟨x, hx, hzero⟩
    have hi : x.1 * dataCount + x.2 < scores.length := hlength ▸ index_lt hx
    rw [ofScores, List.getD_eq_getElem _ _ hi] at hzero
    exact List.mem_iff_getElem.mpr ⟨_, hi, hzero⟩

theorem length_points : points.length = addrCount * dataCount := by
  simp only [points, List.length_flatMap, List.length_map, List.length_range, List.map_const',
    List.sum_replicate_nat]

theorem writePoints_setWritePoints (t : WritePoints) (s : CRADBus σ) :
    ((setWritePoints t).run s).2.writePoints = t := rfl

/-- Whatever the machine answers, calibration settles the timing of writes. -/
theorem calibrateWriteTiming_settles (s : CRADBus σ) :
    WritesSettled s.writePoints ((collect (scoreWritePoints p) points).run s).1
      ((calibrateWriteTiming p).run s).2.writePoints := by
  have hlength :
      ((collect (scoreWritePoints p) points).run s).1.length = addrCount * dataCount := by
    rw [length_collect, length_points]
  have hzero := count_zero_ne_zero_iff hlength
  rw [calibrateWriteTiming, run_bind, run_get, run_bind]
  dsimp only
  generalize (collect (scoreWritePoints p) points).run s = r at hzero ⊢
  obtain ⟨scores, s'⟩ := r
  split
  next hpassing =>
    rw [writePoints_setWritePoints]
    refine ⟨fun x hx h => ⟨_, best_select hx h, rfl⟩, fun hnone => ?_⟩
    obtain ⟨x, hx, h⟩ := hzero.mp hpassing
    exact absurd h (hnone x hx)
  next hpassing =>
    rw [writePoints_setWritePoints]
    exact ⟨fun x hx h => absurd (hzero.mpr ⟨x, hx, h⟩) hpassing, fun _ => rfl⟩

end CRADBus

end ScpuEmu
