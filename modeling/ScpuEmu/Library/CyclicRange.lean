import Mathlib.Data.BitVec

/-!
# Ranges of a wrapping counter

`cyclicRange a b` lists what the loop `for (i = a; i != b; i++)` visits when the
counter wraps at `w` bits. Ranges that meet at a point between their ends
concatenate, so a chain of such points cuts a range into consecutive pieces.
-/

namespace ScpuEmu

namespace Library

variable {w : ℕ}

def cyclicRange (a b : BitVec w) : List (BitVec w) :=
  (List.range (b - a).toNat).map fun k => a + BitVec.ofNat w k

/-- Counting up from `a`, the point `b` comes no later than `c`. -/
def Between (a b c : BitVec w) : Prop := (b - a).toNat ≤ (c - a).toNat

theorem between_left (a c : BitVec w) : Between a a c := by
  simp [Between]

theorem between_right (a c : BitVec w) : Between a c c := le_refl _

theorem between_trans {a b c d : BitVec w} (h : Between a b c) (h' : Between a c d) :
    Between a b d := le_trans h h'

/-- The stretch from `b` to `c` is what is left of the one from `a`. -/
theorem toNat_sub_of_between {a b c : BitVec w} (h : Between a b c) :
    (c - b).toNat = (c - a).toNat - (b - a).toNat := by
  rw [← sub_sub_sub_cancel_right c b a, BitVec.toNat_sub_of_le (BitVec.le_def.mpr h)]

/-- A point between `b` and `d` is reached from `a` by way of `b`. -/
theorem toNat_sub_of_between_right {a b c d : BitVec w} (h : Between a b d)
    (h' : Between b c d) : (c - a).toNat = (b - a).toNat + (c - b).toNat := by
  have hsum : (b - a).toNat + (c - b).toNat ≤ (d - a).toNat := by
    rw [Between, toNat_sub_of_between h] at h'
    rw [Between] at h
    omega
  rw [← sub_add_sub_cancel' b a c, BitVec.toNat_add]
  exact Nat.mod_eq_of_lt (lt_of_le_of_lt hsum (d - a).isLt)

theorem between_of_between_right {a b c d : BitVec w} (h : Between a b d)
    (h' : Between b c d) : Between a b c := by
  rw [Between, toNat_sub_of_between_right h h']
  exact Nat.le_add_right _ _

@[simp] theorem cyclicRange_self (a : BitVec w) : cyclicRange a a = [] := by
  simp [cyclicRange]

@[simp] theorem length_cyclicRange (a b : BitVec w) :
    (cyclicRange a b).length = (b - a).toNat := by
  simp [cyclicRange]

theorem cyclicRange_append {a b c : BitVec w} (h : Between a b c) :
    cyclicRange a b ++ cyclicRange b c = cyclicRange a c := by
  have hlen : (c - a).toNat = (b - a).toNat + (c - b).toNat := by
    rw [toNat_sub_of_between h]
    exact (Nat.add_sub_cancel' h).symm
  have hshift : ∀ k, b + BitVec.ofNat w k = a + BitVec.ofNat w ((b - a).toNat + k) := by
    intro k
    rw [BitVec.ofNat_add, BitVec.ofNat_toNat, BitVec.setWidth_eq, ← BitVec.add_assoc,
      BitVec.add_comm a, BitVec.sub_add_cancel]
  rw [cyclicRange, cyclicRange, cyclicRange, hlen, List.range_add, List.map_append, List.map_map]
  congr 1
  exact List.map_congr_left fun k _ => hshift k

/-- What stands before an index of a range is the range up to that index. -/
theorem eq_cyclicRange_of_append {a b i : BitVec w} {pre post : List (BitVec w)}
    (h : cyclicRange a b = pre ++ i :: post) : pre = cyclicRange a i ∧ Between a i b := by
  have hlen : pre.length < (b - a).toNat := by
    have hlen := congrArg List.length h
    rw [length_cyclicRange, List.length_append, List.length_cons] at hlen
    omega
  have hi : i = a + BitVec.ofNat w pre.length := by
    have hget : (pre ++ i :: post)[pre.length]? = some i := by simp
    rw [← h, cyclicRange, List.getElem?_map, List.getElem?_range hlen, Option.map_some,
      Option.some.injEq] at hget
    exact hget.symm
  have hpos : (i - a).toNat = pre.length := by
    rw [hi, add_sub_cancel_left, BitVec.toNat_ofNat]
    exact Nat.mod_eq_of_lt (lt_trans hlen (b - a).isLt)
  refine ⟨?_, by rw [Between, hpos]; exact hlen.le⟩
  have htake : pre = (cyclicRange a b).take pre.length := by simp [h]
  rw [htake, cyclicRange, cyclicRange, hpos, ← List.map_take, List.take_range,
    Nat.min_eq_left hlen.le]

/-- One step from a point that is not the last. -/
theorem toNat_sub_succ {a b : BitVec w} (h : a ≠ b) :
    (b - (a + 1#w)).toNat + 1 = (b - a).toNat := by
  have hne : (b - a).toNat ≠ 0 := by
    intro hzero
    exact h (sub_eq_zero.mp (BitVec.eq_of_toNat_eq (by simpa using hzero))).symm
  have hone : (1#w).toNat = 1 := by
    have hlt := (b - a).isLt
    rw [BitVec.toNat_ofNat, Nat.mod_eq_of_lt (by omega)]
  have hle : 1#w ≤ b - a := by
    rw [BitVec.le_def, hone]
    omega
  rw [← sub_sub, BitVec.toNat_sub_of_le hle, hone]
  omega

/-- A range that is not empty starts with its first point. -/
theorem cyclicRange_cons {a b : BitVec w} (h : a ≠ b) :
    cyclicRange a b = a :: cyclicRange (a + 1#w) b := by
  rw [cyclicRange, ← toNat_sub_succ h, List.range_succ_eq_map, List.map_cons, List.map_map,
    cyclicRange]
  congr 1
  · exact BitVec.add_zero a
  · refine List.map_congr_left fun k _ => ?_
    rw [Function.comp_apply, Nat.succ_eq_add_one, BitVec.ofNat_add, BitVec.add_assoc,
      BitVec.add_comm 1#w]

/-- The point after one that comes before `b`. -/
theorem between_succ {a i b : BitVec w} (h : Between a i b) (hne : i ≠ b) :
    Between a (i + 1#w) b ∧ (i + 1#w - a).toNat = (i - a).toNat + 1 := by
  have hone : (i + 1#w - i).toNat = 1 := by
    have hlt := (b - i).isLt
    have hsucc := toNat_sub_succ hne
    rw [add_sub_cancel_left, BitVec.toNat_ofNat, Nat.mod_eq_of_lt (by omega)]
  have hright : Between i (i + 1#w) b := by
    have hsucc := toNat_sub_succ hne
    rw [Between, hone]
    omega
  have hcount := toNat_sub_of_between_right h hright
  refine ⟨?_, by rw [hcount, hone]⟩
  have hrest := toNat_sub_of_between h
  rw [Between] at hright h ⊢
  omega

theorem mem_cyclicRange {a b i : BitVec w} :
    i ∈ cyclicRange a b ↔ (i - a).toNat < (b - a).toNat := by
  rw [cyclicRange, List.mem_map]
  constructor
  · rintro ⟨k, hk, rfl⟩
    have hk := List.mem_range.mp hk
    rw [add_sub_cancel_left, BitVec.toNat_ofNat, Nat.mod_eq_of_lt (lt_trans hk (b - a).isLt)]
    exact hk
  · intro hlt
    refine ⟨(i - a).toNat, List.mem_range.mpr hlt, ?_⟩
    rw [BitVec.ofNat_toNat, BitVec.setWidth_eq, add_sub_cancel]

theorem between_of_mem {a b i : BitVec w} (h : i ∈ cyclicRange a b) : Between a i b ∧ i ≠ b := by
  have hlt := mem_cyclicRange.mp h
  refine ⟨hlt.le, ?_⟩
  rintro rfl
  exact lt_irrefl _ hlt

/-- The range up to and with an index. -/
theorem cyclicRange_concat {a b i : BitVec w} (h : i ∈ cyclicRange a b) :
    cyclicRange a (i + 1#w) = cyclicRange a i ++ [i] := by
  obtain ⟨hi, hne⟩ := between_of_mem h
  have hcount := (between_succ hi hne).2
  have hself : i ≠ i + 1#w := by
    intro heq
    rw [← heq] at hcount
    omega
  rw [← cyclicRange_append (b := i) (by rw [Between, hcount]; exact Nat.le_succ _),
    cyclicRange_cons hself, cyclicRange_self]

/-- The index before one that is not the first. -/
theorem pred_mem_cyclicRange {a b i : BitVec w} (h : i ∈ cyclicRange a b) (hne : i ≠ a) :
    i - 1#w ∈ cyclicRange a b ∧ i - 1#w ∈ cyclicRange a i := by
  have hlt := mem_cyclicRange.mp h
  have hpred := toNat_sub_succ hne.symm
  rw [← sub_sub, sub_right_comm] at hpred
  rw [mem_cyclicRange, mem_cyclicRange]
  omega

/-- Induction along a range, from its end. -/
theorem between_induction {a b : BitVec w} {motive : ∀ i, Between a i b → Prop}
    (last : motive b (between_right a b))
    (step : ∀ i (hi : Between a i b) (hne : i ≠ b), motive (i + 1#w) (between_succ hi hne).1 →
      motive i hi) (i : BitVec w) (hi : Between a i b) : motive i hi := by
  induction hn : (b - i).toNat generalizing i with
  | zero =>
      have heq : b - i = 0 := BitVec.eq_of_toNat_eq (by simpa using hn)
      obtain rfl := sub_eq_zero.mp heq
      exact last
  | succ n ih =>
      have hne : i ≠ b := by
        rintro rfl
        simp at hn
      have hsucc := toNat_sub_succ hne
      exact step i hi hne (ih _ (between_succ hi hne).1 (by omega))

end Library

end ScpuEmu
