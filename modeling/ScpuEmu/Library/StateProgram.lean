import Mathlib.Init

/-!
# Programs that read and change a state

How to reason about `StateM` programs. A program keeps an invariant when it leads from
states with the invariant to states with it, and it may establish a property, lead from
one to another or return values with one; the rules follow the structure of the program.
-/

namespace ScpuEmu

namespace Library

variable {S α β : Type}

@[simp] theorem run_pure (a : α) (s : S) : (pure a : StateM S α).run s = (a, s) := rfl

@[simp] theorem run_bind (m : StateM S α) (f : α → StateM S β) (s : S) :
    (m >>= f).run s = (f (m.run s).1).run (m.run s).2 := rfl

theorem run_bind_congr {m m' : StateM S α} {s : S} (h : m.run s = m'.run s) (f : α → StateM S β) :
    (m >>= f).run s = (m' >>= f).run s := by
  rw [run_bind, run_bind, h]

@[simp] theorem run_get (s : S) : (get : StateM S S).run s = (s, s) := rfl

@[simp] theorem run_set (s s' : S) : (set s' : StateM S PUnit).run s = (⟨⟩, s') := rfl

@[simp] theorem run_modify (f : S → S) (s : S) : (modify f : StateM S PUnit).run s = (⟨⟩, f s) :=
  rfl

@[simp] theorem run_map (f : α → β) (m : StateM S α) (s : S) :
    (f <$> m).run s = (f (m.run s).1, (m.run s).2) := rfl

/-- Run a program if a condition holds. -/
def onlyIf (c : Prop) [Decidable c] (m : StateM S PUnit) : StateM S PUnit :=
  if c then m else pure ⟨⟩

theorem run_onlyIf_pos {c : Prop} [Decidable c] (h : c) (m : StateM S PUnit) (s : S) :
    (onlyIf c m).run s = m.run s := by
  rw [onlyIf, if_pos h]

theorem run_onlyIf_neg {c : Prop} [Decidable c] (h : ¬ c) (m : StateM S PUnit) (s : S) :
    (onlyIf c m).run s = (⟨⟩, s) := by
  rw [onlyIf, if_neg h]
  rfl

/-- One after another, with what each returns. -/
def collect {ι : Type} (f : ι → StateM S β) : List ι → StateM S (List β)
  | [] => pure []
  | i :: l => do
      let b ← f i
      let bs ← collect f l
      return b :: bs

theorem length_collect {ι : Type} (f : ι → StateM S β) (l : List ι) (s : S) :
    ((collect f l).run s).1.length = l.length := by
  induction l generalizing s with
  | nil => rfl
  | cons i l ih => exact congrArg (· + 1) (ih _)

/-- The program leads from states with the invariant to states with it. -/
def Keeps (I : S → Prop) (m : StateM S α) : Prop := ∀ s, I s → I (m.run s).2

/-- The program ends in states with the property, wherever it starts. -/
def Establishes (I : S → Prop) (m : StateM S α) : Prop := ∀ s, I (m.run s).2

section Keeps

variable {I : S → Prop}

@[simp] theorem keeps_pure (a : α) : Keeps I (pure a : StateM S α) := fun _ h => h

@[simp] theorem keeps_bind {m : StateM S α} {f : α → StateM S β} (hm : Keeps I m)
    (hf : ∀ a, Keeps I (f a)) : Keeps I (m >>= f) := fun s h => hf _ _ (hm s h)

@[simp] theorem keeps_get : Keeps I (get : StateM S S) := fun _ h => h

@[simp] theorem keeps_modify {f : S → S} (hf : ∀ s, I s → I (f s)) :
    Keeps I (modify f : StateM S PUnit) := hf

@[simp] theorem keeps_ite {c : Prop} [Decidable c] {m n : StateM S α} (hm : Keeps I m)
    (hn : Keeps I n) : Keeps I (if c then m else n) := by
  split
  · exact hm
  · exact hn

@[simp] theorem keeps_onlyIf {c : Prop} [Decidable c] {m : StateM S PUnit} (hm : Keeps I m) :
    Keeps I (onlyIf c m) := keeps_ite hm (keeps_pure _)

theorem keeps_collect {ι : Type} {f : ι → StateM S β} (hf : ∀ i, Keeps I (f i)) (l : List ι) :
    Keeps I (collect f l) := by
  induction l with
  | nil => exact keeps_pure _
  | cons i l ih => exact keeps_bind (hf i) fun _ => keeps_bind ih fun _ => keeps_pure _

theorem Establishes.keeps {m : StateM S α} (h : Establishes I m) : Keeps I m := fun s _ => h s

/-- What a program ends with, it ends with after anything. -/
theorem establishes_bind {m : StateM S α} {f : α → StateM S β} (hf : ∀ a, Establishes I (f a)) :
    Establishes I (m >>= f) := fun _ => hf _ _

theorem establishes_ite {c : Prop} [Decidable c] {m n : StateM S α} (hm : Establishes I m)
    (hn : Establishes I n) : Establishes I (if c then m else n) := by
  split
  · exact hm
  · exact hn

theorem Establishes.bind {m : StateM S α} {f : α → StateM S β} (hm : Establishes I m)
    (hf : ∀ a, Keeps I (f a)) : Establishes I (m >>= f) := fun s => hf _ _ (hm s)

/-- A program that keeps the invariant and returns values with a property. -/
def KeepsWith (I : S → Prop) (Q : α → S → Prop) (m : StateM S α) : Prop :=
  ∀ s, I s → I (m.run s).2 ∧ Q (m.run s).1 (m.run s).2

theorem keeps_bind_of_keepsWith {Q : α → S → Prop} {m : StateM S α} {f : α → StateM S β}
    (hm : KeepsWith I Q m) (hf : ∀ a s, I s → Q a s → I ((f a).run s).2) : Keeps I (m >>= f) :=
  fun s hs => hf _ _ (hm s hs).1 (hm s hs).2

end Keeps

/-- The program leads from states with one property to states with another. -/
def Leads (I J : S → Prop) (m : StateM S α) : Prop := ∀ s, I s → J (m.run s).2

theorem Keeps.leads_bind {I J : S → Prop} {m : StateM S α} {f : α → StateM S β} (hm : Keeps I m)
    (hf : ∀ a, Leads I J (f a)) : Leads I J (m >>= f) := fun s h => hf _ _ (hm s h)

/-- The program returns values with a property, wherever it starts. -/
def Returns (P : α → Prop) (m : StateM S α) : Prop := ∀ s, P (m.run s).1

theorem returns_pure {P : α → Prop} {a : α} (h : P a) : Returns P (pure a : StateM S α) :=
  fun _ => h

/-- What a program returns, it returns after anything. -/
theorem returns_bind {P : β → Prop} {m : StateM S α} {f : α → StateM S β}
    (hf : ∀ a, Returns P (f a)) : Returns P (m >>= f) := fun _ => hf _ _

theorem Returns.bind {P : α → Prop} {Q : β → Prop} {m : StateM S α} {f : α → StateM S β}
    (hm : Returns P m) (hf : ∀ a, P a → Returns Q (f a)) : Returns Q (m >>= f) :=
  fun s => hf _ (hm s) _

end Library

end ScpuEmu
