import Mathlib.Data.Nat.ModEq
import Mathlib.Data.List.Nodup
import Mathlib.Data.List.Perm.Basic

/-!
# Equal strides around a cycle

A walk around a cycle of `n` places that moves by the same stride each time. Where the
stride is coprime to `n`, any `n` consecutive stops visit every place once.
-/

namespace ScpuEmu

namespace Library

section Stride

variable {n stride : ℕ}

/-- Where the walk from `start` stands after `k` strides. -/
def strideAt (n stride start k : ℕ) : ℕ := (start + k * stride) % n

theorem strideAt_zero {start : ℕ} (h : start < n) : strideAt n stride start 0 = start := by
  rw [strideAt, Nat.zero_mul, Nat.add_zero, Nat.mod_eq_of_lt h]

theorem strideAt_lt (h : 0 < n) (start k : ℕ) : strideAt n stride start k < n :=
  Nat.mod_lt _ h

theorem strideAt_add (start k l : ℕ) :
    strideAt n stride start (k + l) = strideAt n stride (strideAt n stride start k) l := by
  rw [strideAt, strideAt, strideAt, Nat.mod_add_mod, Nat.add_mul, Nat.add_assoc]

/-- The wrap-around by one conditional subtraction. -/
theorem strideAt_one {place : ℕ} (hplace : place < n) (hstride : stride < n) :
    strideAt n stride place 1 =
      if place + stride ≥ n then place + stride - n else place + stride := by
  rw [strideAt, Nat.one_mul]
  split
  next h => rw [Nat.mod_eq_sub_mod h, Nat.mod_eq_of_lt (by omega)]
  next h => rw [Nat.mod_eq_of_lt (by omega)]

theorem strideAt_injOn (h : Nat.Coprime stride n) (start : ℕ) {k l : ℕ} (hk : k < n) (hl : l < n)
    (heq : strideAt n stride start k = strideAt n stride start l) : k = l := by
  have hmul : k * stride ≡ l * stride [MOD n] := Nat.ModEq.add_left_cancel' start heq
  have hmod : k ≡ l [MOD n] := Nat.ModEq.cancel_right_of_coprime h.symm hmul
  exact Nat.ModEq.eq_of_lt_of_lt hmod hk hl

/-- One lap in coprime strides is a permutation of the places. -/
theorem strideAt_perm (h : Nat.Coprime stride n) (start : ℕ) :
    ((List.range n).map (strideAt n stride start)).Perm (List.range n) := by
  have hnodup : ((List.range n).map (strideAt n stride start)).Nodup :=
    List.Nodup.map_on (fun k hk l hl heq =>
      strideAt_injOn h start (List.mem_range.mp hk) (List.mem_range.mp hl) heq) List.nodup_range
  have hsub : (List.range n).map (strideAt n stride start) ⊆ List.range n := by
    intro place hplace
    obtain ⟨k, hk, rfl⟩ := List.mem_map.mp hplace
    exact List.mem_range.mpr (strideAt_lt (by have := List.mem_range.mp hk; omega) start k)
  exact (List.subperm_of_subset hnodup hsub).perm_of_length_le (by simp)

end Stride

end Library

end ScpuEmu
