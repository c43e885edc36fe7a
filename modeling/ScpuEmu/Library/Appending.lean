import ScpuEmu.Library.StateProgram
import Mathlib.Data.List.Basic

/-!
# Programs that append to a record

A program leaves part of its state as it is and appends to a record. What it appends may depend
on the part that it leaves, and on nothing else. The rules follow the structure of the program.
-/

namespace ScpuEmu

namespace Library

variable {S α β κ ω ι : Type} {kept : S → κ} {record : S → List ω}

/-- In states where the kept part is the given one, the program appends the list. -/
def Appends (kept : S → κ) (record : S → List ω) (k : κ) (l : List ω) (m : StateM S α) : Prop :=
  ∀ s, kept s = k → kept (m.run s).2 = k ∧ record (m.run s).2 = record s ++ l

variable {k : κ} {l l' : List ω}

theorem appends_pure (a : α) : Appends kept record k [] (pure a) :=
  fun _ h => ⟨h, (List.append_nil _).symm⟩

theorem appends_modify {f : S → S} (hkept : ∀ s, kept (f s) = kept s)
    (hrecord : ∀ s, record (f s) = record s) : Appends kept record k [] (modify f) :=
  fun s h => ⟨(hkept s).trans h, (hrecord s).trans (List.append_nil _).symm⟩

theorem Appends.bind {m : StateM S α} {f : α → StateM S β} (hm : Appends kept record k l m)
    (hf : ∀ a, Appends kept record k l' (f a)) : Appends kept record k (l ++ l') (m >>= f) := by
  intro s h
  obtain ⟨hkept, hrecord⟩ := hm s h
  obtain ⟨hkept', hrecord'⟩ := hf (m.run s).1 _ hkept
  refine ⟨hkept', ?_⟩
  rw [run_bind, hrecord', hrecord, List.append_assoc]

/-- After a program that appends nothing. -/
theorem Appends.silent_bind {m : StateM S α} {f : α → StateM S β}
    (hm : Appends kept record k [] m) (hf : ∀ a, Appends kept record k l (f a)) :
    Appends kept record k l (m >>= f) := hm.bind hf

/-- Before a program that appends nothing. -/
theorem Appends.bind_silent {m : StateM S α} {f : α → StateM S β} (hm : Appends kept record k l m)
    (hf : ∀ a, Appends kept record k [] (f a)) : Appends kept record k l (m >>= f) := by
  have h := hm.bind hf
  rwa [List.append_nil] at h

/-- A program may look at its state. -/
theorem appends_get_bind {f : S → StateM S β}
    (hf : ∀ s, kept s = k → Appends kept record k l (f s)) :
    Appends kept record k l (get >>= f) := fun s h => hf s h s h

theorem appends_ite {c : Prop} [Decidable c] {m n : StateM S α} (hm : c → Appends kept record k l m)
    (hn : ¬ c → Appends kept record k l n) : Appends kept record k l (if c then m else n) := by
  split
  · exact hm ‹_›
  · exact hn ‹_›

/-- Two programs that append differently. -/
theorem appends_ite_ite {c : Prop} [Decidable c] {m n : StateM S α}
    (hm : Appends kept record k l m) (hn : Appends kept record k l' n) :
    Appends kept record k (if c then l else l') (if c then m else n) := by
  split
  · exact hm
  · exact hn

theorem appends_onlyIf {c : Prop} [Decidable c] {m : StateM S PUnit}
    (hm : c → Appends kept record k [] m) : Appends kept record k [] (onlyIf c m) :=
  appends_ite hm fun _ => appends_pure _

theorem appends_collect {f : ι → StateM S β} {g : ι → List ω}
    (hf : ∀ i, Appends kept record k (g i) (f i)) (is : List ι) :
    Appends kept record k (is.flatMap g) (collect f is) := by
  induction is with
  | nil => exact appends_pure _
  | cons i is ih =>
      rw [List.flatMap_cons]
      exact (hf i).bind fun _ => ih.bind_silent fun _ => appends_pure _

end Library

end ScpuEmu
