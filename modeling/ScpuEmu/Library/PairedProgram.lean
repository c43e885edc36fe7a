import ScpuEmu.Library.StateProgram
import Mathlib.Data.Nat.Notation
import Mathlib.Logic.Function.Iterate

/-!
# Two programs side by side

How to compare two `StateM` programs over different states. Their outcomes are paired if
the values that they return are related, and the states that they end in; the rules
follow the structure that the two programs share.
-/

namespace ScpuEmu

namespace Library

variable {S T α β γ δ : Type} {R R' : S → T → Prop} {V W : α → β → Prop} {s : S} {t : T}

/-- Outcomes of two programs with related values and related states. -/
structure Paired (V : α → β → Prop) (R : S → T → Prop) (out : α × S) (out' : β × T) : Prop where
  value : V out.1 out'.1
  state : R out.2 out'.2

theorem paired_pure {a : α} {b : β} (hv : V a b) (h : R s t) :
    Paired V R ((pure a : StateM S α).run s) ((pure b : StateM T β).run t) := ⟨hv, h⟩

/-- The second program may use what the first one returned and the state it left. -/
theorem Paired.bind {U : γ → δ → Prop} {m : StateM S α} {n : StateM T β} {f : α → StateM S γ}
    {g : β → StateM T δ} (h : Paired V R (m.run s) (n.run t))
    (hf : ∀ a s', V a (n.run t).1 → R s' (n.run t).2 →
      Paired U R' ((f a).run s') ((g (n.run t).1).run (n.run t).2)) :
    Paired U R' ((m >>= f).run s) ((n >>= g).run t) := hf _ _ h.value h.state

/-- The second program goes on to change its value. -/
theorem Paired.pure_right {U : α → δ → Prop} {out : α × S} {n : StateM T β} {g : β → δ}
    (h : Paired V R out (n.run t)) (hg : ∀ a, V a (n.run t).1 → U a (g (n.run t).1)) :
    Paired U R out ((n >>= fun b => pure (g b)).run t) := ⟨hg _ h.value, h.state⟩

theorem Paired.map_left {U : γ → β → Prop} {m : StateM S α} {out : β × T} {f : α → γ}
    (h : Paired V R (m.run s) out) (hf : ∀ a, V a out.1 → U (f a) out.1) :
    Paired U R ((f <$> m).run s) out := ⟨hf _ h.value, h.state⟩

theorem Paired.mono {out : α × S} {out' : β × T} (h : Paired V R out out')
    (hv : ∀ a b, V a b → W a b) (hr : ∀ s t, R s t → R' s t) : Paired W R' out out' :=
  ⟨hv _ _ h.value, hr _ _ h.state⟩

/-- Related states stay related while both sides take steps that keep them so. -/
theorem iterate_related {f : S → S} {g : T → T} (ok : T → Prop)
    (hstep : ∀ s t, R s t → ok t → R (f s) (g t)) (h : R s t) (n : ℕ)
    (hok : ∀ k < n, ok (g^[k] t)) : R (f^[n] s) (g^[n] t) := by
  induction n with
  | zero => exact h
  | succ n ih =>
      rw [Function.iterate_succ_apply', Function.iterate_succ_apply']
      exact hstep _ _ (ih fun k hk => hok k (Nat.lt_succ_of_lt hk)) (hok n (Nat.lt_succ_self n))

end Library

end ScpuEmu
