import Mathlib.Data.List.Basic

/-!
# Runs of a deterministic transition system

A system takes one operation after another. A run is the fold of the step
function over a list of operations, and a property of single steps lifts to
runs by induction on that list, whether the operations are arbitrary or all
meet a condition in the state they are taken in.
-/

namespace ScpuEmu

namespace Library

variable {S Op : Type*} (step : S → Op → S)

def run (s : S) (ops : List Op) : S := ops.foldl step s

@[simp] theorem run_nil (s : S) : run step s [] = s := rfl

@[simp] theorem run_cons (s : S) (op : Op) (ops : List Op) :
    run step s (op :: ops) = run step (step s op) ops := rfl

theorem run_append (s : S) (ops ops' : List Op) :
    run step s (ops ++ ops') = run step (run step s ops) ops' :=
  List.foldl_append

/-- Every operation of the list meets `ok` in the state it is taken in. -/
def AllSteps (ok : S → Op → Prop) : S → List Op → Prop
  | _, [] => True
  | s, op :: ops => ok s op ∧ AllSteps ok (step s op) ops

@[simp] theorem allSteps_nil (ok : S → Op → Prop) (s : S) : AllSteps step ok s [] := trivial

@[simp] theorem allSteps_cons (ok : S → Op → Prop) (s : S) (op : Op) (ops : List Op) :
    AllSteps step ok s (op :: ops) ↔ ok s op ∧ AllSteps step ok (step s op) ops := Iff.rfl

instance (ok : S → Op → Prop) [∀ s op, Decidable (ok s op)] (s : S) (ops : List Op) :
    Decidable (AllSteps step ok s ops) :=
  match ops with
  | [] => isTrue trivial
  | op :: ops => by
      have := instDecidableAllSteps ok (step s op) ops
      exact inferInstanceAs (Decidable (_ ∧ _))

theorem allSteps_append (ok : S → Op → Prop) (s : S) (ops ops' : List Op) :
    AllSteps step ok s (ops ++ ops') ↔
      AllSteps step ok s ops ∧ AllSteps step ok (run step s ops) ops' := by
  induction ops generalizing s with
  | nil => simp
  | cons op ops ih => simp [ih, and_assoc]

theorem allSteps_and {ok ok' : S → Op → Prop} (s : S) (ops : List Op) :
    AllSteps step (fun s op => ok s op ∧ ok' s op) s ops ↔
      AllSteps step ok s ops ∧ AllSteps step ok' s ops := by
  induction ops generalizing s with
  | nil => simp
  | cons op ops ih => simp only [allSteps_cons, ih, and_and_and_comm]

/-- A run whose steps all meet `ok` keeps what such steps keep. -/
theorem run_invariant_of_allSteps {ok : S → Op → Prop} {P : S → Prop}
    (hstep : ∀ s op, P s → ok s op → P (step s op)) (s : S) (ops : List Op)
    (hs : P s) (hops : AllSteps step ok s ops) : P (run step s ops) := by
  induction ops generalizing s with
  | nil => exact hs
  | cons op ops ih => exact ih (step s op) (hstep s op hs hops.1) hops.2

/-- Where a step keeps a property exactly under a condition, the property holds all along a
run exactly if every step meets the condition. -/
theorem forall_take_iff_allSteps {ok : S → Op → Prop} {P : S → Prop}
    (hstep : ∀ s op, P s → (P (step s op) ↔ ok s op)) (s : S) (ops : List Op) (hs : P s) :
    (∀ n, P (run step s (ops.take n))) ↔ AllSteps step ok s ops := by
  induction ops generalizing s with
  | nil => simp [hs]
  | cons op ops ih =>
      rw [allSteps_cons]
      constructor
      · intro h
        have hnext : P (step s op) := h 1
        exact ⟨(hstep s op hs).mp hnext, (ih _ hnext).mp fun n => h (n + 1)⟩
      · rintro ⟨hop, hops⟩ n
        cases n with
        | zero => exact hs
        | succ n => exact (ih _ ((hstep s op hs).mpr hop)).mpr hops n

/-- Along a run with an invariant, the steps meet what single steps meet under it. -/
theorem allSteps_of_invariant {ok ok' : S → Op → Prop} {P : S → Prop}
    (hstep : ∀ s op, P s → ok s op → P (step s op) ∧ ok' s op) (s : S) (ops : List Op)
    (hs : P s) (hops : AllSteps step ok s ops) : AllSteps step ok' s ops := by
  induction ops generalizing s with
  | nil => trivial
  | cons op ops ih =>
      obtain ⟨hnext, hok⟩ := hstep s op hs hops.1
      exact ⟨hok, ih _ hnext hops.2⟩

/-- A run keeps what every step keeps. -/
theorem run_invariant {P : S → Prop} (hstep : ∀ s op, P s → P (step s op))
    (s : S) (ops : List Op) (hs : P s) : P (run step s ops) := by
  induction ops generalizing s with
  | nil => exact hs
  | cons op ops ih => exact ih (step s op) (hstep s op hs)

end Library

end ScpuEmu
