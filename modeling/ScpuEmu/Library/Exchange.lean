import Mathlib.Data.List.Nodup
import Mathlib.Logic.Function.Basic

/-!
# Two memories along a list of pairs

Values carried between two memories, place by place along a list that pairs the places of the
one with those of the other. Where no place is named twice, the order of the list does not
matter, and each direction undoes what the other needs undone.
-/

namespace ScpuEmu

namespace Library

section Exchange

variable {α β γ : Type*} [DecidableEq β]

/-- Copy into the second memory. -/
def copyAlong (f : α → γ) : List (α × β) → (β → γ) → β → γ
  | [], g => g
  | p :: pairs, g => copyAlong f pairs (Function.update g p.2 (f p.1))

theorem copyAlong_of_not_mem (f : α → γ) {pairs : List (α × β)} (g : β → γ) {b : β}
    (h : b ∉ pairs.map Prod.snd) : copyAlong f pairs g b = g b := by
  induction pairs generalizing g with
  | nil => rfl
  | cons p pairs ih =>
      rw [List.map_cons, List.mem_cons, not_or] at h
      rw [copyAlong, ih _ h.2, Function.update_of_ne h.1]

theorem copyAlong_of_mem (f : α → γ) {pairs : List (α × β)} (g : β → γ)
    (hnodup : (pairs.map Prod.snd).Nodup) {p : α × β} (hp : p ∈ pairs) :
    copyAlong f pairs g p.2 = f p.1 := by
  induction pairs generalizing g with
  | nil => exact absurd hp List.not_mem_nil
  | cons q pairs ih =>
      rw [List.map_cons, List.nodup_cons] at hnodup
      rcases List.mem_cons.mp hp with rfl | hp
      · rw [copyAlong, copyAlong_of_not_mem f _ hnodup.1, Function.update_self]
      · exact ih _ hnodup.2 hp

section Exchanged

variable [DecidableEq α]

/-- Exchange between the memories. -/
def exchangeAlong : List (α × β) → (α → γ) × (β → γ) → (α → γ) × (β → γ)
  | [], m => m
  | p :: pairs, m =>
      exchangeAlong pairs
        (Function.update m.1 p.1 (m.2 p.2), Function.update m.2 p.2 (m.1 p.1))

variable {pairs : List (α × β)}

theorem exchangeAlong_fst_of_not_mem (m : (α → γ) × (β → γ)) {a : α}
    (h : a ∉ pairs.map Prod.fst) : (exchangeAlong pairs m).1 a = m.1 a := by
  induction pairs generalizing m with
  | nil => rfl
  | cons p pairs ih =>
      rw [List.map_cons, List.mem_cons, not_or] at h
      exact (ih _ h.2).trans (Function.update_of_ne h.1 _ _)

theorem exchangeAlong_snd_of_not_mem (m : (α → γ) × (β → γ)) {b : β}
    (h : b ∉ pairs.map Prod.snd) : (exchangeAlong pairs m).2 b = m.2 b := by
  induction pairs generalizing m with
  | nil => rfl
  | cons p pairs ih =>
      rw [List.map_cons, List.mem_cons, not_or] at h
      exact (ih _ h.2).trans (Function.update_of_ne h.1 _ _)

theorem exchangeAlong_of_mem (m : (α → γ) × (β → γ)) (hfst : (pairs.map Prod.fst).Nodup)
    (hsnd : (pairs.map Prod.snd).Nodup) {p : α × β} (hp : p ∈ pairs) :
    (exchangeAlong pairs m).1 p.1 = m.2 p.2 ∧ (exchangeAlong pairs m).2 p.2 = m.1 p.1 := by
  induction pairs generalizing m with
  | nil => exact absurd hp List.not_mem_nil
  | cons q pairs ih =>
      rw [List.map_cons, List.nodup_cons] at hfst hsnd
      rw [exchangeAlong]
      rcases List.mem_cons.mp hp with rfl | hp
      · rw [exchangeAlong_fst_of_not_mem _ hfst.1, exchangeAlong_snd_of_not_mem _ hsnd.1]
        exact ⟨Function.update_self _ _ _, Function.update_self _ _ _⟩
      · have hne₁ : p.1 ≠ q.1 := fun h => hfst.1 (h ▸ List.mem_map_of_mem hp)
        have hne₂ : p.2 ≠ q.2 := fun h => hsnd.1 (h ▸ List.mem_map_of_mem hp)
        obtain ⟨h₁, h₂⟩ := ih (Function.update m.1 q.1 (m.2 q.2), Function.update m.2 q.2 (m.1 q.1))
          hfst.2 hsnd.2 hp
        rw [h₁, h₂]
        exact ⟨Function.update_of_ne hne₂ _ _, Function.update_of_ne hne₁ _ _⟩

/-- A second exchange undoes the first. -/
theorem exchangeAlong_exchangeAlong (m : (α → γ) × (β → γ)) (hfst : (pairs.map Prod.fst).Nodup)
    (hsnd : (pairs.map Prod.snd).Nodup) : exchangeAlong pairs (exchangeAlong pairs m) = m := by
  refine Prod.ext (funext fun a => ?_) (funext fun b => ?_)
  · by_cases h : a ∈ pairs.map Prod.fst
    · obtain ⟨p, hp, rfl⟩ := List.mem_map.mp h
      rw [(exchangeAlong_of_mem _ hfst hsnd hp).1, (exchangeAlong_of_mem m hfst hsnd hp).2]
    · rw [exchangeAlong_fst_of_not_mem _ h, exchangeAlong_fst_of_not_mem m h]
  · by_cases h : b ∈ pairs.map Prod.snd
    · obtain ⟨p, hp, rfl⟩ := List.mem_map.mp h
      rw [(exchangeAlong_of_mem _ hfst hsnd hp).2, (exchangeAlong_of_mem m hfst hsnd hp).1]
    · rw [exchangeAlong_snd_of_not_mem _ h, exchangeAlong_snd_of_not_mem m h]

end Exchanged

/-- What was copied out comes back, whatever the first memory holds by then. -/
theorem copyAlong_copyAlong [DecidableEq α] {pairs : List (α × β)} (f f' : α → γ) (g : β → γ)
    (hfst : (pairs.map Prod.fst).Nodup) (hsnd : (pairs.map Prod.snd).Nodup) {p : α × β}
    (hp : p ∈ pairs) :
    copyAlong (copyAlong f pairs g) (pairs.map Prod.swap) f' p.1 = f p.1 := by
  have hback : ((pairs.map Prod.swap).map Prod.snd).Nodup := by
    rw [List.map_map]
    exact hfst
  have hswap : p.swap ∈ pairs.map Prod.swap := List.mem_map_of_mem hp
  exact (copyAlong_of_mem _ f' hback hswap).trans (copyAlong_of_mem f g hsnd hp)

end Exchange

end Library

end ScpuEmu
