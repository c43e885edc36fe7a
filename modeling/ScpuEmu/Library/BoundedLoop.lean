import Mathlib.Logic.Function.Iterate

/-!
# Loops with a descending measure

`whileLoop c body fuel s` runs `body` while `c` holds, for at most `fuel` rounds. It stops
after some number of rounds with `c` true before each of them; where a measure falls with
every round from a state in the loop's invariant, fuel for that measure is enough for the
loop to end by itself.
-/

namespace ScpuEmu

namespace Library

section BoundedLoop

variable {S : Type*} (c : S → Prop) (body : S → S)

def whileLoop [DecidablePred c] : ℕ → S → S
  | 0, s => s
  | fuel + 1, s => if c s then whileLoop fuel (body s) else s

/-- `s'` is where the loop from `s` ends by its own condition. -/
def LoopEnds (s s' : S) : Prop :=
  ∃ rounds, s' = body^[rounds] s ∧ (∀ i < rounds, c (body^[i] s)) ∧ ¬ c s'

variable {c body} {s s' : S}

theorem LoopEnds.of_not (h : ¬ c s) : LoopEnds c body s s :=
  ⟨0, rfl, fun _ hi => absurd hi (Nat.not_lt_zero _), h⟩

theorem LoopEnds.of_body (h : c s) (hrest : LoopEnds c body (body s) s') :
    LoopEnds c body s s' := by
  obtain ⟨rounds, heq, hbefore, hend⟩ := hrest
  refine ⟨rounds + 1, heq, fun i hi => ?_, hend⟩
  cases i with
  | zero => exact h
  | succ i => exact hbefore i (by omega)

theorem whileLoop_ends [DecidablePred c] {P : S → Prop} (hkeep : ∀ s, P s → c s → P (body s))
    {m : S → ℕ} (hfall : ∀ s, P s → c s → m (body s) < m s) {fuel : ℕ} (hs : P s)
    (hfuel : m s < fuel) : LoopEnds c body s (whileLoop c body fuel s) := by
  induction fuel generalizing s with
  | zero => omega
  | succ fuel ih =>
      rw [whileLoop]
      split
      next h =>
        have hless := hfall s hs h
        exact LoopEnds.of_body h (ih (hkeep s hs h) (by omega))
      next h => exact LoopEnds.of_not h

/-- What every round keeps holds where the loop ends. -/
theorem LoopEnds.keeps {P : S → Prop} (hkeep : ∀ s, P s → c s → P (body s))
    (h : LoopEnds c body s s') (hs : P s) : P s' := by
  obtain ⟨rounds, rfl, hbefore, -⟩ := h
  have hrounds : ∀ i ≤ rounds, P (body^[i] s) := by
    intro i hi
    induction i with
    | zero => exact hs
    | succ i ih =>
        rw [Function.iterate_succ_apply']
        exact hkeep _ (ih (by omega)) (hbefore i hi)
  exact hrounds rounds (Nat.le_refl _)

end BoundedLoop

end Library

end ScpuEmu
