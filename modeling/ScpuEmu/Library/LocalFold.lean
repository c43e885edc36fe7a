import Mathlib.Data.List.Range

/-!
# Loops over independent components

A loop `for (i = 0; i < k; i++)` whose `i`-th pass touches only component `i`
acts on each component once. A loop whose passes append to a log leaves the
appended pieces in the log one after another.
-/

namespace ScpuEmu

namespace Library

variable {S T α β : Type*}

/-- Each component of the result is changed by its own pass. -/
theorem foldl_range_component (f : S → ℕ → S) (get : S → ℕ → T) (g : ℕ → T → T) {k : ℕ}
    (h : ∀ s i n, i < k → n < k → get (f s i) n = if n = i then g n (get s n) else get s n)
    (s : S) {n : ℕ} (hn : n < k) :
    get ((List.range k).foldl f s) n = g n (get s n) := by
  have hloop : ∀ j ≤ k, get ((List.range j).foldl f s) n =
      if n < j then g n (get s n) else get s n := by
    intro j
    induction j with
    | zero => simp
    | succ j ih =>
        intro hj
        rw [List.range_succ, List.foldl_append, List.foldl_cons, List.foldl_nil,
          h _ j n hj hn, ih (Nat.le_of_succ_le hj)]
        rcases lt_trichotomy n j with hlt | rfl | hgt
        · rw [if_neg (Nat.ne_of_lt hlt), if_pos hlt, if_pos (Nat.lt_succ_of_lt hlt)]
        · rw [if_pos rfl, if_neg (lt_irrefl n), if_pos (Nat.lt_succ_self n)]
        · rw [if_neg (Nat.ne_of_gt hgt), if_neg (not_lt.mpr hgt.le),
            if_neg (not_lt.mpr (Nat.succ_le_of_lt hgt))]
  rw [hloop k (le_refl k), if_pos hn]

/-- Passes that append to a log. -/
theorem foldl_log (f : S → α → S) (log : S → List β) (piece : α → List β)
    (h : ∀ s a, log (f s a) = log s ++ piece a) (s : S) (l : List α) :
    log (l.foldl f s) = log s ++ l.flatMap piece := by
  induction l generalizing s with
  | nil => simp
  | cons a l ih => rw [List.foldl_cons, ih, h, List.flatMap_cons, List.append_assoc]

/-- Passes that leave the log alone. -/
theorem foldl_keeps (f : S → α → S) (get : S → T) (h : ∀ s a, get (f s a) = get s) (s : S)
    (l : List α) : get (l.foldl f s) = get s := by
  induction l generalizing s with
  | nil => rfl
  | cons a l ih => rw [List.foldl_cons, ih, h]

/-- Passes that each relate the state before to the state after. -/
theorem foldl_related (f : S → α → S) {R : S → S → Prop} (hrefl : ∀ s, R s s)
    (htrans : ∀ {s t u}, R s t → R t u → R s u) (l : List α) (h : ∀ s, ∀ a ∈ l, R s (f s a))
    (s : S) : R s (l.foldl f s) := by
  induction l generalizing s with
  | nil => exact hrefl s
  | cons a l ih =>
      exact htrans (h s a List.mem_cons_self)
        (ih (fun t b hb => h t b (List.mem_cons_of_mem a hb)) (f s a))

end Library

end ScpuEmu
