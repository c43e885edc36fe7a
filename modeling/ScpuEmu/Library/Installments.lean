import Mathlib.Data.List.Rotate

/-!
# A lap walked in installments

A cursor goes around a list and stops once it has met a given number of the entries that
pass a test, so that the next installment goes on from there. Several lists are walked side
by side, each with its own cursor. What a series of visits has met of a list is a prefix of
what was in front of its cursor, and as long as the visits to that list are many.
-/

namespace ScpuEmu

namespace Library

section Laps

variable {α : Type} (f : ℕ → α) (L : ℕ)

/-- The next `n` entries of a cycle of `L`, from an offset on. -/
def lapFrom (o n : ℕ) : List α := (List.range n).map fun i => f ((o + i) % L)

theorem lapFrom_succ (o n : ℕ) :
    lapFrom f L o (n + 1) = f (o % L) :: lapFrom f L ((o + 1) % L) n := by
  rw [lapFrom, lapFrom, List.range_succ_eq_map, List.map_cons, List.map_map, Nat.add_zero]
  congr 1
  refine List.map_congr_left fun i _ => ?_
  rw [Function.comp_apply, Nat.mod_add_mod, Nat.succ_eq_add_one, Nat.add_comm i 1, Nat.add_assoc]

/-- A lap from an offset is the list from its start, rotated. -/
theorem lapFrom_lap (o : ℕ) : lapFrom f L o L = ((List.range L).map f).rotate o := by
  refine List.ext_getElem (by simp [lapFrom]) fun i hi _ => ?_
  simp [lapFrom, List.getElem_rotate, Nat.add_comm]

end Laps

section Walk

variable {α : Type} (q : α → Bool)

/-- The entries that a walk goes past until it has met `m` that pass. -/
def walked : ℕ → List α → ℕ
  | _, [] => 0
  | 0, _ :: _ => 0
  | m + 1, x :: l => (if q x then walked m l else walked (m + 1) l) + 1

theorem walked_le (m : ℕ) (l : List α) : walked q m l ≤ l.length := by
  induction l generalizing m with
  | nil => simp [walked]
  | cons x l ih =>
      cases m with
      | zero => simp [walked]
      | succ m =>
          rw [walked, List.length_cons]
          split
          · exact Nat.succ_le_succ (ih m)
          · exact Nat.succ_le_succ (ih (m + 1))

/-- A walk meets the first entries that pass. -/
theorem filter_take_walked (m : ℕ) (l : List α) :
    (l.take (walked q m l)).filter q = (l.filter q).take m := by
  induction l generalizing m with
  | nil => simp
  | cons x l ih =>
      cases m with
      | zero => simp [walked]
      | succ m =>
          rw [walked, List.take_succ_cons]
          by_cases hx : q x = true
          · rw [if_pos hx, List.filter_cons_of_pos hx, List.filter_cons_of_pos hx, ih,
              List.take_succ_cons]
          · rw [if_neg hx, List.filter_cons_of_neg hx, List.filter_cons_of_neg hx, ih]

theorem filter_rotate {l : List α} {k : ℕ} (hk : k ≤ l.length) :
    (l.rotate k).filter q = (l.filter q).rotate ((l.take k).filter q).length := by
  have hsplit : l.filter q = (l.take k).filter q ++ (l.drop k).filter q := by
    rw [← List.filter_append, List.take_append_drop]
  rw [hsplit, List.rotate_append_length_eq, List.rotate_eq_drop_append_take hk,
    List.filter_append]

/-- After a walk, what it has met is at the back. -/
theorem filter_rotate_walked (m : ℕ) (l : List α) :
    (l.rotate (walked q m l)).filter q = (l.filter q).rotate (min m (l.filter q).length) := by
  rw [filter_rotate q (walked_le q m l), filter_take_walked, List.length_take]

end Walk

section Visits

variable {ι α : Type} [DecidableEq ι] (m : ℕ)

/-- A visit meets the first `m` entries of one list and moves them to its back. -/
def visit (fronts : ι → List α) (i : ι) : ι → List α :=
  Function.update fronts i ((fronts i).rotate (min m (fronts i).length))

/-- What a series of visits meets. -/
def met : (ι → List α) → List ι → List α
  | _, [] => []
  | fronts, i :: visits => (fronts i).take m ++ met (visit m fronts i) visits

theorem mem_take_or_rotate (l : List α) (k : ℕ) (x : α) :
    x ∈ l.take m ∨ x ∈ (l.rotate (min m l.length)).take k ↔ x ∈ l.take (m + k) := by
  by_cases hm : m ≤ l.length
  · rw [Nat.min_eq_left hm, List.rotate_eq_drop_append_take hm, List.take_append, List.take_add,
      List.mem_append, List.mem_append]
    have hback : x ∈ (l.take m).take (k - (l.drop m).length) → x ∈ l.take m := List.mem_of_mem_take
    tauto
  · have hlen : l.length ≤ m := by omega
    have hback : x ∈ (l.rotate (min m l.length)).take k → x ∈ l :=
      fun h => List.mem_rotate.mp (List.mem_of_mem_take h)
    have hall : l.take (m + k) = l := List.take_of_length_le (by omega)
    rw [List.take_of_length_le hlen, hall]
    exact ⟨fun h => h.elim id hback, .inl⟩

/-- A series of visits meets a prefix of each list. -/
theorem mem_met (fronts : ι → List α) (visits : List ι) (x : α) :
    x ∈ met m fronts visits ↔ ∃ i, x ∈ (fronts i).take (m * visits.count i) := by
  induction visits generalizing fronts with
  | nil => simp [met]
  | cons j visits ih =>
      have hother : ∀ i, i ≠ j → (visit m fronts j i = fronts i ∧
          (j :: visits).count i = visits.count i) := by
        intro i hi
        exact ⟨Function.update_of_ne hi _ _, List.count_cons_of_ne (Ne.symm hi)⟩
      have hthis : x ∈ (fronts j).take (m * (j :: visits).count j) ↔
          x ∈ (fronts j).take m ∨ x ∈ (visit m fronts j j).take (m * visits.count j) := by
        rw [visit, Function.update_self, mem_take_or_rotate, List.count_cons_self, Nat.mul_succ,
          Nat.add_comm]
      rw [met, List.mem_append, ih]
      constructor
      · rintro (h | ⟨i, hi⟩)
        · exact ⟨j, hthis.mpr (.inl h)⟩
        · by_cases hij : i = j
          · subst hij
            exact ⟨i, hthis.mpr (.inr hi)⟩
          · obtain ⟨hfront, hcount⟩ := hother i hij
            rw [hfront, ← hcount] at hi
            exact ⟨i, hi⟩
      · rintro ⟨i, hi⟩
        by_cases hij : i = j
        · subst hij
          exact (hthis.mp hi).imp id fun h => ⟨i, h⟩
        · obtain ⟨hfront, hcount⟩ := hother i hij
          rw [← hfront, hcount] at hi
          exact .inr ⟨i, hi⟩

end Visits

end Library

end ScpuEmu
