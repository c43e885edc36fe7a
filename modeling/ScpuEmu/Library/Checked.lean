import Mathlib.Data.Nat.Notation

/-!
# Computations that may fail

A computation in `Except` either gives a value or stops with a fault. A fold of such
steps goes through when each step does, where that depends on the element alone, and a
fault of the fold is a fault of one of its steps.
-/

namespace ScpuEmu

namespace Library

universe u v

variable {ε : Type u} {α β σ : Type v}

@[simp] theorem ok_bind (a : α) (f : α → Except ε β) : (Except.ok a >>= f) = f a := rfl

@[simp] theorem error_bind (e : ε) (f : α → Except ε β) : (Except.error e >>= f) = .error e := rfl

theorem bind_eq_ok_iff {x : Except ε α} {f : α → Except ε β} {b : β} :
    (x >>= f) = .ok b ↔ ∃ a, x = .ok a ∧ f a = .ok b := by
  cases x with
  | error e => simp
  | ok a => simp

theorem bind_eq_error_iff {x : Except ε α} {f : α → Except ε β} {e : ε} :
    (x >>= f) = .error e ↔ x = .error e ∨ ∃ a, x = .ok a ∧ f a = .error e := by
  cases x with
  | error e' => simp
  | ok a => simp

/-- The computation goes through. -/
def Succeeds (x : Except ε α) : Prop := ∃ a, x = .ok a

@[simp] theorem succeeds_ok (a : α) : Succeeds (Except.ok a : Except ε α) := ⟨a, rfl⟩

@[simp] theorem not_succeeds_error (e : ε) : ¬Succeeds (Except.error e : Except ε α) := by
  rintro ⟨a, ha⟩
  cases ha

theorem succeeds_bind {x : Except ε α} {f : α → Except ε β} :
    Succeeds (x >>= f) ↔ ∃ a, x = .ok a ∧ Succeeds (f a) := by
  cases x with
  | error e => simp
  | ok a => simp

theorem foldlM_succeeds_iff {f : σ → α → Except ε σ} {P : α → Prop}
    (hP : ∀ s a, Succeeds (f s a) ↔ P a) (l : List α) (s : σ) :
    Succeeds (l.foldlM f s) ↔ ∀ a ∈ l, P a := by
  induction l generalizing s with
  | nil => exact iff_of_true (succeeds_ok s) (by simp)
  | cons a l ih =>
      rw [List.foldlM_cons, succeeds_bind, List.forall_mem_cons, ← hP s a]
      constructor
      · rintro ⟨s', hs', hrest⟩
        exact ⟨⟨s', hs'⟩, (ih s').mp hrest⟩
      · rintro ⟨⟨s', hs'⟩, hrest⟩
        exact ⟨s', hs', (ih s').mpr hrest⟩

theorem foldlM_fault {f : σ → α → Except ε σ} {Q : ε → Prop}
    (hQ : ∀ s a e, f s a = .error e → Q e) {l : List α} {s : σ} {e : ε}
    (h : l.foldlM f s = .error e) : Q e := by
  induction l generalizing s with
  | nil => cases h
  | cons a l ih =>
      rw [List.foldlM_cons, bind_eq_error_iff] at h
      rcases h with h | ⟨s', -, h⟩
      · exact hQ s a e h
      · exact ih h

end Library

end ScpuEmu
