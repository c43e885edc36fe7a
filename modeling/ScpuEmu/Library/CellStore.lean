import Mathlib.Logic.Function.Basic
import ScpuEmu.Library.TransitionSystem

/-!
# Cells that a run stores to

Some steps of a system store a value in one of its cells, and no step changes a cell
otherwise. Whatever decides which cell a step reaches, and however that changes in the
course of a run, a cell holds what was stored in it last.
-/

namespace ScpuEmu

namespace Library

variable {S Op C V : Type*} [DecidableEq C]

/-- The cells after a store, if there is one. -/
def storeCell (cells : C → V) : Option (C × V) → C → V
  | none => cells
  | some (c, v) => Function.update cells c v

/-- A step changes the cells by its store and by nothing else. -/
def StoresBy (step : S → Op → S) (cells : S → C → V) (store : S → Op → Option (C × V)) : Prop :=
  ∀ s op, cells (step s op) = storeCell (cells s) (store s op)

/-- The step stores nothing in the cell. -/
def Spares (store : S → Op → Option (C × V)) (c : C) (s : S) (op : Op) : Prop :=
  ∀ v, store s op ≠ some (c, v)

section Runs

variable {step : S → Op → S} {cells : S → C → V} {store : S → Op → Option (C × V)}

theorem StoresBy.stored (h : StoresBy step cells store) {s : S} {op : Op} {c : C} {v : V}
    (hstore : store s op = some (c, v)) : cells (step s op) c = v := by
  rw [h s op, hstore]
  exact Function.update_self c v (cells s)

theorem StoresBy.spared (h : StoresBy step cells store) {s : S} {op : Op} {c : C}
    (hspares : Spares store c s op) : cells (step s op) c = cells s c := by
  rw [h s op]
  cases hstore : store s op with
  | none => rfl
  | some stored =>
      obtain ⟨c', v⟩ := stored
      have hne : c ≠ c' := by
        rintro rfl
        exact hspares v hstore
      exact Function.update_of_ne hne v (cells s)

/-- After a run a cell holds what it held at first, if no step stored to it, and else the
value that the latest of these steps stored. -/
theorem StoresBy.run_latest (h : StoresBy step cells store) (s : S) (ops : List Op) (c : C) :
    (AllSteps step (Spares store c) s ops ∧ cells (run step s ops) c = cells s c) ∨
      ∃ before op after, ops = before ++ op :: after ∧
        store (run step s before) op = some (c, cells (run step s ops) c) ∧
        AllSteps step (Spares store c) (step (run step s before) op) after := by
  induction ops generalizing s with
  | nil => exact .inl ⟨trivial, rfl⟩
  | cons op ops ih =>
      rcases ih (step s op) with ⟨hspared, hkept⟩ | ⟨before, op', after, rfl, hstore, hspared⟩
      · by_cases hop : Spares store c s op
        · exact .inl ⟨⟨hop, hspared⟩, hkept.trans (h.spared hop)⟩
        · simp only [Spares, not_forall, not_not] at hop
          obtain ⟨v, hv⟩ := hop
          refine .inr ⟨[], op, ops, rfl, ?_, hspared⟩
          rw [run_nil, run_cons, hkept, h.stored hv]
          exact hv
      · exact .inr ⟨op :: before, op', after, rfl, hstore, hspared⟩

end Runs

end Library

end ScpuEmu
