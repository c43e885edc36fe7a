import Mathlib.Data.List.Basic

/-!
# Consecutive spans

A span is a start and a length. Spans tile a stretch when each is non-empty and
starts where the one before it ends.
-/

namespace ScpuEmu

namespace Library

/-- The spans cover the numbers from `first` to `last` without gap or overlap. -/
def Tiles : ℕ → List (ℕ × ℕ) → ℕ → Prop
  | first, [], last => first = last
  | first, span :: spans, last =>
      span.1 = first ∧ 0 < span.2 ∧ Tiles (first + span.2) spans last

namespace Tiles

variable {first last : ℕ} {spans : List (ℕ × ℕ)}

theorem concat (h : Tiles first spans last) (n : ℕ) (hn : 0 < n) :
    Tiles first (spans ++ [(last, n)]) (last + n) := by
  induction spans generalizing first with
  | nil =>
      rw [Tiles] at h
      subst h
      exact ⟨rfl, hn, rfl⟩
  | cons span spans ih => exact ⟨h.1, h.2.1, ih h.2.2⟩

theorem length_le (h : Tiles first spans last) : first + spans.length ≤ last := by
  induction spans generalizing first with
  | nil => exact Nat.le_of_eq h
  | cons span spans ih =>
      have hrest := ih h.2.2
      have hpos := h.2.1
      rw [List.length_cons]
      omega

/-- The numbers of the spans, one after another, are those of the stretch. -/
theorem flatMap_range' (h : Tiles first spans last) :
    (spans.flatMap fun span => List.range' span.1 span.2) = List.range' first (last - first) := by
  induction spans generalizing first with
  | nil =>
      rw [Tiles] at h
      simp [h]
  | cons span spans ih =>
      obtain ⟨hspan, -, hrest⟩ := h
      have hle := hrest.length_le
      have hjoin : List.range' first span.2 ++ List.range' (first + span.2)
          (last - (first + span.2)) = _ := List.range'_append_1
      rw [List.flatMap_cons, ih hrest, hspan, hjoin]
      congr 1
      omega

/-- Every number of a tiled stretch lies in one of the spans. -/
theorem exists_span (h : Tiles first spans last) (r : ℕ) (hfirst : first ≤ r) (hlast : r < last) :
    ∃ span ∈ spans, span.1 ≤ r ∧ r < span.1 + span.2 := by
  induction spans generalizing first with
  | nil =>
      rw [Tiles] at h
      omega
  | cons span spans ih =>
      obtain ⟨hspan, hpos, hrest⟩ := h
      by_cases hin : r < first + span.2
      · exact ⟨span, List.mem_cons_self, by omega, by omega⟩
      · obtain ⟨found, hmem, hfound⟩ := ih hrest (by omega)
        exact ⟨found, List.mem_cons_of_mem span hmem, hfound⟩

/-- No span reaches beyond the stretch. -/
theorem span_le (h : Tiles first spans last) {span : ℕ × ℕ} (hmem : span ∈ spans) :
    span.1 + span.2 ≤ last := by
  induction spans generalizing first with
  | nil => exact absurd hmem List.not_mem_nil
  | cons head spans ih =>
      obtain ⟨hhead, -, hrest⟩ := h
      rcases List.mem_cons.mp hmem with rfl | hmem
      · have hle := hrest.length_le
        omega
      · exact ih hrest hmem

end Tiles

end Library

end ScpuEmu
