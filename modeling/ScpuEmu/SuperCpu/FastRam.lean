import ScpuEmu.Types
import ScpuEmu.Library.AlignedBlocks
import ScpuEmu.Library.TransitionSystem
import Mathlib.Tactic.IntervalCases

/-!
# The SIMM

SuperRAM is a block of memory in a module that is addressed by rows. How many address lines
are decoded, and how long a row is, is a matter of its configuration; an access costs by how
it follows the one before.
-/

namespace ScpuEmu

open Library

/-- `CFastRAM`. The block that was allocated has `size` bytes; without a module, it has none. -/
structure CFastRAM where
  ram : BitVec 32 → Byte
  size : BitVec 32
  decodeMask : BitVec 32
  rowMask : BitVec 32
  lastCell : BitVec 32
  config : Byte

namespace CFastRAM

def construct : CFastRAM where
  ram _ := 0
  size := 0
  decodeMask := 0
  rowMask := ~~~(8192#32 - 1)
  lastCell := 0
  config := 4

variable (s : CFastRAM)

def present : Bool := decide (s.size ≠ 0)

/-- What a configuration decodes, and how long its rows are, in bytes. -/
def configured (value : Byte) : BitVec 32 × BitVec 32 :=
  if value &&& 7 = 0 then (1#32 <<< 20, 2048)
  else if value &&& 7 = 1 then (4#32 <<< 20, 4096)
  else if value &&& 7 = 2 then (8#32 <<< 20, 4096)
  else if value &&& 7 = 3 then (16#32 <<< 20, 4096)
  else (16#32 <<< 20, 8192)

/-- The mask of what is decoded of a module. -/
def decodeMaskOf (size configuredBytes : BitVec 32) : BitVec 32 :=
  let decoded := if size ≠ 0 ∧ size < configuredBytes then size else configuredBytes
  if decoded ≠ 0 then decoded - 1 else 0

def setConfig (value : Byte) : CFastRAM :=
  { s with
    config := value
    decodeMask := decodeMaskOf s.size (configured value).1
    rowMask := ~~~((configured value).2 - 1)
    lastCell := 0 }

/-- The sizes that the hardware accepts, in megabytes. -/
def accepted (megabytes : BitVec 32) : BitVec 32 :=
  if 16 ≤ megabytes then 16
  else if 8 ≤ megabytes then 8
  else if 4 ≤ megabytes then 4
  else if 1 ≤ megabytes then 1
  else 0

/-- `malloc` succeeds or not. -/
def init (megabytes : BitVec 32) (allocated : Bool) : Bool × CFastRAM :=
  let s := { s with size := 0, decodeMask := 0 }
  let mb := accepted megabytes
  if mb = 0 then (true, s)
  else if allocated = false then (false, s)
  else (true, { s with ram := fun _ => 0, size := mb <<< 20 }.setConfig 4)

/-- The byte of the block that an offset reaches. -/
def cell (offset : BitVec 32) : BitVec 32 := offset &&& s.decodeMask

def read (offset : BitVec 32) : Byte := if s.size ≠ 0 then s.ram (s.cell offset) else 0

def write (offset : BitVec 32) (value : Byte) : CFastRAM :=
  if s.size ≠ 0 then { s with ram := Function.update s.ram (s.cell offset) value } else s

def accessPenaltyHalfCycles (offset : BitVec 32) (write : Bool) : ℕ × CFastRAM :=
  let addr := s.cell offset
  if s.size = 0 then (0, s)
  else if write then
    (if (s.lastCell ^^^ addr) &&& s.rowMask ≠ 0 then 4 else 2, { s with lastCell := addr })
  else if (s.lastCell ^^^ addr) &&& ~~~3#32 = 0 then (0, s)
  else if (s.lastCell ^^^ addr) &&& s.rowMask ≠ 0 then (5, { s with lastCell := addr })
  else if ((s.lastCell + 4) ^^^ addr) &&& ~~~3#32 = 0 then (0, { s with lastCell := addr })
  else (2, { s with lastCell := addr })

/-! ### The geometry -/

/-- The lengths of a module, in bytes. -/
def moduleSizes : List (BitVec 32) := [1#32 <<< 20, 4#32 <<< 20, 8#32 <<< 20, 16#32 <<< 20]

/-- What is decoded of a module. -/
def decodedBytes : BitVec 32 :=
  if s.size < (configured s.config).1 then s.size else (configured s.config).1

def rowBytes : ℕ := (configured s.config).2.toNat

/-- The masks are those of the configuration, and the latest access lies in the block. -/
structure Geometry : Prop where
  size : s.size ≠ 0 → s.size ∈ moduleSizes
  decode : s.size ≠ 0 → s.decodeMask = s.decodedBytes - 1
  rows : s.rowMask = ~~~((configured s.config).2 - 1)
  last : s.size ≠ 0 → s.lastCell ≤ s.decodeMask

/-- What happens to a module. -/
inductive Op
  | init (megabytes : BitVec 32) (allocated : Bool)
  | setConfig (value : Byte)
  | write (offset : BitVec 32) (value : Byte)
  | access (offset : BitVec 32) (write : Bool)

def step (s : CFastRAM) : Op → CFastRAM
  | .init megabytes allocated => (s.init megabytes allocated).2
  | .setConfig value => s.setConfig value
  | .write offset value => s.write offset value
  | .access offset write => (s.accessPenaltyHalfCycles offset write).2

variable {s}

theorem configured_cases (value : Byte) :
    configured value = (1#32 <<< 20, 2048) ∨ configured value = (4#32 <<< 20, 4096) ∨
      configured value = (8#32 <<< 20, 4096) ∨ configured value = (16#32 <<< 20, 4096) ∨
      configured value = (16#32 <<< 20, 8192) := by
  unfold configured
  split_ifs <;> simp

theorem geometry_construct : construct.Geometry :=
  ⟨fun h => absurd rfl h, fun h => absurd rfl h, rfl, fun h => absurd rfl h⟩

theorem accepted_cases (megabytes : BitVec 32) :
    accepted megabytes = 0 ∨ accepted megabytes <<< 20 ∈ moduleSizes := by
  unfold accepted
  split_ifs <;> simp [moduleSizes]

theorem configured_ne_zero (value : Byte) : (configured value).1 ≠ 0 := by
  rcases configured_cases value with h | h | h | h | h <;> rw [h] <;> decide

theorem decodeMaskOf_eq {size configuredBytes : BitVec 32} (hsize : size ≠ 0)
    (hconfigured : configuredBytes ≠ 0) :
    decodeMaskOf size configuredBytes =
      (if size < configuredBytes then size else configuredBytes) - 1 := by
  have hdecoded : (if size < configuredBytes then size else configuredBytes) ≠ 0 := by
    split_ifs <;> assumption
  simp only [decodeMaskOf, hsize, ne_eq, not_false_eq_true, true_and]
  exact if_pos hdecoded

theorem geometry_setConfig (value : Byte) (hsize : s.size ≠ 0 → s.size ∈ moduleSizes) :
    (s.setConfig value).Geometry where
  size := hsize
  decode h := decodeMaskOf_eq h (configured_ne_zero value)
  rows := rfl
  last _ := Nat.zero_le _

theorem init_cases (megabytes : BitVec 32) (allocated : Bool) :
    (s.init megabytes allocated).2 = { s with size := 0, decodeMask := 0 } ∨
      ∃ size ∈ moduleSizes, (s.init megabytes allocated).2 =
        { s with ram := fun _ => 0, size := size, decodeMask := 0 }.setConfig 4 := by
  unfold init
  dsimp only
  split_ifs with hnone hfailed
  · exact .inl rfl
  · exact .inl rfl
  · exact .inr ⟨_, (accepted_cases megabytes).resolve_left hnone, rfl⟩

theorem geometry_init (h : s.Geometry) (megabytes : BitVec 32) (allocated : Bool) :
    (s.init megabytes allocated).2.Geometry := by
  rcases s.init_cases megabytes allocated with heq | ⟨size, hsize, heq⟩ <;> rw [heq]
  · exact ⟨fun h => absurd rfl h, fun h => absurd rfl h, h.rows, fun h => absurd rfl h⟩
  · exact geometry_setConfig 4 fun _ => hsize

theorem geometry_write (h : s.Geometry) (offset : BitVec 32) (value : Byte) :
    (s.write offset value).Geometry := by
  unfold write
  split_ifs
  · exact ⟨h.size, h.decode, h.rows, h.last⟩
  · exact h

/-- An access leaves everything but the latest cell, which is where it was or the one accessed. -/
theorem access_cases (offset : BitVec 32) (write : Bool) :
    (s.accessPenaltyHalfCycles offset write).2 = s ∨
      (s.accessPenaltyHalfCycles offset write).2 = { s with lastCell := s.cell offset } := by
  unfold accessPenaltyHalfCycles
  dsimp only
  split_ifs <;> simp

theorem geometry_access (h : s.Geometry) (offset : BitVec 32) (write : Bool) :
    (s.accessPenaltyHalfCycles offset write).2.Geometry := by
  rcases s.access_cases offset write with heq | heq <;> rw [heq]
  · exact h
  · refine ⟨h.size, h.decode, h.rows, fun _ => ?_⟩
    rw [cell, BitVec.le_def, BitVec.toNat_and]
    exact Nat.and_le_right

theorem geometry_step (h : s.Geometry) (op : Op) : (s.step op).Geometry := by
  cases op with
  | init megabytes allocated => exact geometry_init h megabytes allocated
  | setConfig value => exact geometry_setConfig value h.size
  | write offset value => exact geometry_write h offset value
  | access offset write => exact geometry_access h offset write

/-! ### What is decoded -/

theorem decodedBytes_cases (h : s.Geometry) (hpresent : s.size ≠ 0) :
    ∃ k, 20 ≤ k ∧ k ≤ 24 ∧ s.decodedBytes = BitVec.ofNat 32 (2 ^ k) := by
  have hmodule := h.size hpresent
  have hsize : s.size = BitVec.ofNat 32 (2 ^ 20) ∨ s.size = BitVec.ofNat 32 (2 ^ 22) ∨
      s.size = BitVec.ofNat 32 (2 ^ 23) ∨ s.size = BitVec.ofNat 32 (2 ^ 24) := by
    simpa [moduleSizes] using hmodule
  unfold decodedBytes
  split_ifs
  · rcases hsize with h | h | h | h
    · exact ⟨20, by decide, by decide, h⟩
    · exact ⟨22, by decide, by decide, h⟩
    · exact ⟨23, by decide, by decide, h⟩
    · exact ⟨24, by decide, by decide, h⟩
  · rcases configured_cases s.config with h | h | h | h | h <;> rw [h]
    · exact ⟨20, by decide, by decide, rfl⟩
    · exact ⟨22, by decide, by decide, rfl⟩
    · exact ⟨23, by decide, by decide, rfl⟩
    · exact ⟨24, by decide, by decide, rfl⟩
    · exact ⟨24, by decide, by decide, rfl⟩

theorem decodedBytes_le (s : CFastRAM) : s.decodedBytes ≤ s.size := by
  unfold decodedBytes
  split_ifs with hlt
  · exact Nat.le_refl _
  · exact Nat.le_of_not_lt hlt

/-- The decoded address lines keep the rest of an offset by the decoded bytes. -/
theorem toNat_cell (h : s.Geometry) (hpresent : s.size ≠ 0) (offset : BitVec 32) :
    (s.cell offset).toNat = offset.toNat % s.decodedBytes.toNat := by
  obtain ⟨k, -, hk, hdecoded⟩ := decodedBytes_cases h hpresent
  have hpow : 2 ^ k < 2 ^ 32 := Nat.pow_lt_pow_right (by decide) (by omega)
  have hmask : s.decodeMask = placeMask 32 k := by
    rw [h.decode hpresent, hdecoded]
    interval_cases k <;> rfl
  rw [cell, hmask, toNat_and_placeMask offset (by omega), hdecoded, BitVec.toNat_ofNat,
    Nat.mod_eq_of_lt hpow]

theorem toNat_decodedBytes (s : CFastRAM) :
    s.decodedBytes.toNat = min s.size.toNat (configured s.config).1.toNat := by
  unfold decodedBytes
  split_ifs with hlt
  · exact (min_eq_left (Nat.le_of_lt hlt)).symm
  · exact (min_eq_right (Nat.le_of_not_lt hlt)).symm

theorem cell_lt (h : s.Geometry) (hpresent : s.size ≠ 0) (offset : BitVec 32) :
    s.cell offset < s.size := by
  obtain ⟨k, -, hk, hdecoded⟩ := decodedBytes_cases h hpresent
  have hpos : 0 < s.decodedBytes.toNat := by
    rw [hdecoded, BitVec.toNat_ofNat,
      Nat.mod_eq_of_lt (Nat.pow_lt_pow_right (by decide) (by omega))]
    exact Nat.two_pow_pos k
  rw [BitVec.lt_def, toNat_cell h hpresent]
  exact lt_of_lt_of_le (Nat.mod_lt _ hpos) s.decodedBytes_le

/-- Whatever happens to a module, in any order, an access stays within the block that is
allocated, and two offsets share a byte exactly if they leave the same rest by the decoded
bytes: those of the configuration, or those of the block if it is smaller. -/
theorem decode_within_block (ops : List Op) :
    let s := run step construct ops
    s.size ≠ 0 → s.decodedBytes.toNat = min s.size.toNat (configured s.config).1.toNat ∧
      ∀ offset, s.cell offset < s.size ∧
        ∀ other, s.cell offset = s.cell other ↔
          offset.toNat % s.decodedBytes.toNat = other.toNat % s.decodedBytes.toNat := by
  intro s hpresent
  have h : s.Geometry :=
    run_invariant (P := Geometry) step (fun _ op h => geometry_step h op) construct ops
      geometry_construct
  refine ⟨s.toNat_decodedBytes, fun offset => ⟨cell_lt h hpresent offset, fun other => ?_⟩⟩
  rw [← toNat_cell h hpresent, ← toNat_cell h hpresent, BitVec.toNat_inj]

theorem decode_within_block_fiveMB :
    let s := run step construct [.init 5 true, .setConfig 0]
    s.decodedBytes.toNat = 2 ^ 20 ∧ s.cell 0x123456 < s.size := by
  have h := decode_within_block [.init 5 true, .setConfig 0] (by decide)
  exact ⟨h.1, (h.2 0x123456).1⟩

/-! ### Bursts -/

/-- Accesses of neighbouring offsets, from the natural number `a` on. -/
def burst (s : CFastRAM) (write : Bool) (a : ℕ) : ℕ → ℕ × CFastRAM
  | 0 => (0, s)
  | n + 1 =>
      let first := s.accessPenaltyHalfCycles (BitVec.ofNat 32 a) write
      let rest := burst first.2 write (a + 1) n
      (first.1 + rest.1, rest.2)

/-- The module is addressed within its words of four bytes, the place of the natural number
`a` being the latest. -/
structure At (s : CFastRAM) (a : ℕ) : Prop where
  geometry : s.Geometry
  present : s.size ≠ 0
  word : block 2 s.lastCell = block 2 (s.cell (BitVec.ofNat 32 a))

theorem rows_cases (h : s.Geometry) :
    ∃ j, 11 ≤ j ∧ j ≤ 13 ∧ s.rowMask = ~~~placeMask 32 j ∧ s.rowBytes = 2 ^ j := by
  rw [h.rows, rowBytes]
  rcases configured_cases s.config with h | h | h | h | h <;> rw [h]
  · exact ⟨11, by decide, by decide, rfl, rfl⟩
  · exact ⟨12, by decide, by decide, rfl, rfl⟩
  · exact ⟨12, by decide, by decide, rfl, rfl⟩
  · exact ⟨12, by decide, by decide, rfl, rfl⟩
  · exact ⟨13, by decide, by decide, rfl, rfl⟩

/-- What an access costs, told by the words and rows that the masks stand for. -/
def pageCost (rowBytes last cell : ℕ) (write : Bool) : ℕ :=
  if write then (if last / rowBytes ≠ cell / rowBytes then 4 else 2)
  else if last / 4 = cell / 4 then 0
  else if last / rowBytes ≠ cell / rowBytes then 5
  else if last / 4 + 1 = cell / 4 then 0
  else 2

theorem lastCell_lt (h : s.Geometry) (hpresent : s.size ≠ 0) : s.lastCell.toNat < 2 ^ 24 := by
  have hlast := h.last hpresent
  obtain ⟨k, hk, hk', hdecoded⟩ := decodedBytes_cases h hpresent
  rw [h.decode hpresent, hdecoded, BitVec.le_def] at hlast
  interval_cases k <;> exact lt_of_le_of_lt hlast (by decide)

/-- The masks compute the cost by words and rows. -/
theorem cost_eq (h : s.Geometry) (hpresent : s.size ≠ 0) (offset : BitVec 32) (write : Bool) :
    (s.accessPenaltyHalfCycles offset write).1 =
      pageCost s.rowBytes s.lastCell.toNat (s.cell offset).toNat write := by
  obtain ⟨j, -, -, hmask, hrow⟩ := rows_cases h
  have hlt := lastCell_lt h hpresent
  have hsame (x y : BitVec 32) : (x ^^^ y) &&& ~~~3#32 = 0 ↔ x.toNat / 4 = y.toNat / 4 :=
    xor_and_not_placeMask_eq_zero_iff (j := 2) x y
  have hrows : (s.lastCell ^^^ s.cell offset) &&& s.rowMask ≠ 0 ↔
      s.lastCell.toNat / s.rowBytes ≠ (s.cell offset).toNat / s.rowBytes := by
    rw [hmask, hrow]
    exact not_congr (xor_and_not_placeMask_eq_zero_iff s.lastCell (s.cell offset))
  have hnext : (s.lastCell + 4).toNat / 4 = s.lastCell.toNat / 4 + 1 := by
    rw [BitVec.toNat_add]
    have hfour : (4 : BitVec 32).toNat = 4 := rfl
    omega
  simp only [accessPenaltyHalfCycles, if_neg hpresent, hsame, hnext, hrows, pageCost]
  split_ifs <;> rfl

theorem size_access (offset : BitVec 32) (write : Bool) :
    (s.accessPenaltyHalfCycles offset write).2.size = s.size := by
  rcases s.access_cases offset write with heq | heq <;> rw [heq]

theorem rowBytes_access (offset : BitVec 32) (write : Bool) :
    (s.accessPenaltyHalfCycles offset write).2.rowBytes = s.rowBytes := by
  rcases s.access_cases offset write with heq | heq <;> rw [heq]
  rfl

/-- After an access the latest cell is in its word. -/
theorem at_access (h : s.Geometry) (hpresent : s.size ≠ 0) (a : ℕ) (write : Bool) :
    (s.accessPenaltyHalfCycles (BitVec.ofNat 32 a) write).2.At a := by
  refine ⟨geometry_access h _ _, (size_access _ _).trans_ne hpresent, ?_⟩
  have hsame (x y : BitVec 32) : (x ^^^ y) &&& ~~~3#32 = 0 ↔ block 2 x = block 2 y :=
    xor_and_not_placeMask_eq_zero_iff (j := 2) x y
  by_cases hword : block 2 s.lastCell = block 2 (s.cell (BitVec.ofNat 32 a))
  · rcases s.access_cases (BitVec.ofNat 32 a) write with heq | heq <;> rw [heq]
    · exact hword
    · rfl
  · simp only [accessPenaltyHalfCycles, if_neg hpresent, hsame, if_neg hword]
    split_ifs <;> rfl

/-- The cost of the next cell of `R * m` cells in rows of `R`, where the word of the cell before
it is at hand. -/
theorem pageCost_next {R m a last : ℕ} (hR : R = 2 ^ 11 ∨ R = 2 ^ 12 ∨ R = 2 ^ 13) (hm : 2 ≤ m)
    (hword : last / 4 = a % (R * m) / 4) (write : Bool) :
    pageCost R last ((a + 1) % (R * m)) write =
      (if write then 2 else 0) + (if write then 2 else 5) * ((a + 1) / R - a / R) := by
  have hplace : R * (m * (a / (R * m))) + a % (R * m) = a := by
    rw [← Nat.mul_assoc]
    exact Nat.div_add_mod a (R * m)
  have hlt : a % (R * m) < R * m := Nat.mod_lt _ (by rcases hR with rfl | rfl | rfl <;> omega)
  have hnext : (a + 1) % (R * m) = if a % (R * m) + 1 = R * m then 0 else a % (R * m) + 1 := by
    rw [← Nat.mod_add_mod]
    split_ifs with hlast
    · rw [hlast, Nat.mod_self]
    · exact Nat.mod_eq_of_lt (by omega)
  rw [hnext]
  generalize a % (R * m) = place at *
  generalize m * (a / (R * m)) = rounds at hplace
  subst hplace
  unfold pageCost
  rcases hR with rfl | rfl | rfl <;> cases write <;>
    simp only [Nat.reducePow, Bool.false_eq_true, if_true, if_false] at * <;> split_ifs <;> omega

/-- What the next offset costs: a row is opened exactly at its first byte. -/
theorem next_cost {a : ℕ} (h : s.At a) (write : Bool) :
    (s.accessPenaltyHalfCycles (BitVec.ofNat 32 (a + 1)) write).1 =
      (if write then 2 else 0) +
        (if write then 2 else 5) * ((a + 1) / s.rowBytes - a / s.rowBytes) := by
  obtain ⟨k, hk, hk', hdecoded⟩ := decodedBytes_cases h.geometry h.present
  obtain ⟨j, hj, hj', -, hrow⟩ := rows_cases h.geometry
  have hcell (b : ℕ) : (s.cell (BitVec.ofNat 32 b)).toNat = b % (2 ^ j * 2 ^ (k - j)) := by
    rw [toNat_cell h.geometry h.present, hdecoded, BitVec.toNat_ofNat, BitVec.toNat_ofNat,
      Nat.mod_eq_of_lt (Nat.pow_lt_pow_right (by decide) (by omega) : 2 ^ k < 2 ^ 32),
      Nat.mod_mod_of_dvd b (Nat.pow_dvd_pow 2 (by omega)), ← Nat.pow_add,
      Nat.add_sub_cancel' (by omega)]
  have hword : s.lastCell.toNat / 4 = a % (2 ^ j * 2 ^ (k - j)) / 4 := by
    rw [← hcell]
    exact h.word
  have hrows : 2 ^ j = 2 ^ 11 ∨ 2 ^ j = 2 ^ 12 ∨ 2 ^ j = 2 ^ 13 := by
    interval_cases j <;> decide
  have hmany : 2 ≤ 2 ^ (k - j) := Nat.le_self_pow (by omega) 2
  rw [cost_eq h.geometry h.present, hcell, hrow, pageCost_next hrows hmany hword]

/-- A burst that follows an access in the same row costs a write two half cycles an access and a
read nothing, and every row that it opens costs it two or five more. -/
theorem burst_cost (s : CFastRAM) (h : s.Geometry) (hpresent : s.size ≠ 0) (write : Bool)
    (a n : ℕ) :
    (s.burst write a (n + 1)).1 = (s.accessPenaltyHalfCycles (BitVec.ofNat 32 a) write).1 +
      (if write then 2 else 0) * n +
        (if write then 2 else 5) * ((a + n) / s.rowBytes - a / s.rowBytes) := by
  induction n generalizing s a with
  | zero => simp [burst]
  | succ n ih =>
      have hat := at_access h hpresent a write
      have hnext := next_cost hat write
      have hrest := ih _ hat.geometry hat.present (a + 1)
      have hrow := rowBytes_access (s := s) (BitVec.ofNat 32 a) write
      rw [hrow] at hnext hrest
      have hlow : a / s.rowBytes ≤ (a + 1) / s.rowBytes := Nat.div_le_div_right (Nat.le_succ a)
      have hhigh : (a + 1) / s.rowBytes ≤ (a + 1 + n) / s.rowBytes :=
        Nat.div_le_div_right (Nat.le_add_right _ n)
      rw [burst]
      dsimp only
      rw [hrest, hnext, show a + (n + 1) = a + 1 + n by omega]
      cases write <;> simp only [Bool.false_eq_true, if_true, if_false] <;> omega

/-- A module of 1 MB, as it is after a reset: eight thousand bytes open two rows. -/
theorem burst_cost_oneMB :
    ((construct.init 1 true).2.burst false 0x1000 8192).1 = 7 := by
  have h := burst_cost (construct.init 1 true).2 (geometry_init geometry_construct 1 true)
    (by decide) false 0x1000 8191
  exact h.trans (by decide)

end CFastRAM

end ScpuEmu
