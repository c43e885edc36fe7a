import Mathlib.Data.List.Basic
import Mathlib.Data.Prod.Lex
import Mathlib.Order.Lattice
import Mathlib.Order.OrderDual

/-!
# The best so far

A loop keeps a champion, which a candidate replaces if its key is greater. It ends with the
first of the entries whose key is greatest.
-/

namespace ScpuEmu

namespace Library

variable {α κ : Type*} [LinearOrder κ] (key : α → κ)

def challenge (champion candidate : α) : α :=
  if key champion < key candidate then candidate else champion

variable {key}

theorem challenge_of_lt {a c : α} (h : key a < key c) : challenge key a c = c := if_pos h

theorem challenge_of_le {a c : α} (h : key c ≤ key a) : challenge key a c = a := if_neg h.not_gt

/-- What stands before an entry has a smaller key, and what stands behind it none greater. -/
structure IsChampion (key : α → κ) (l : List α) (m : α) (before after : List α) : Prop where
  place : l = before ++ m :: after
  less : ∀ x ∈ before, key x < key m
  le : ∀ x ∈ after, key x ≤ key m

theorem IsChampion.key_le {l before after : List α} {m : α} (h : IsChampion key l m before after) :
    ∀ x ∈ l, key x ≤ key m := by
  intro x hx
  rw [h.place, List.mem_append, List.mem_cons] at hx
  obtain hx | rfl | hx := hx
  · exact (h.less x hx).le
  · exact le_rfl
  · exact h.le x hx

theorem IsChampion.mem {l before after : List α} {m : α} (h : IsChampion key l m before after) :
    m ∈ l := by
  simp [h.place]

theorem foldl_challenge (key : α → κ) (a : α) (l : List α) :
    ∃ before after, IsChampion key (a :: l) (l.foldl (challenge key) a) before after := by
  induction l generalizing a with
  | nil => exact ⟨[], [], rfl, by simp, by simp⟩
  | cons c l ih =>
      rw [List.foldl_cons]
      obtain hless | hle := lt_or_ge (key a) (key c)
      · rw [challenge_of_lt hless]
        obtain ⟨before, after, h⟩ := ih c
        refine ⟨a :: before, after, by rw [h.place, List.cons_append], ?_, h.le⟩
        exact List.forall_mem_cons.mpr ⟨hless.trans_le (h.key_le c List.mem_cons_self), h.less⟩
      · rw [challenge_of_le hle]
        obtain ⟨before, after, h⟩ := ih a
        generalize l.foldl (challenge key) a = m at h ⊢
        cases before with
        | nil =>
            obtain ⟨hchampion, hrest⟩ := List.cons.inj h.place
            refine ⟨[], c :: l, by rw [← hchampion]; rfl, by simp, ?_⟩
            rw [← hchampion]
            refine List.forall_mem_cons.mpr ⟨hle, fun x hx => ?_⟩
            exact (h.key_le x (List.mem_cons_of_mem _ hx)).trans_eq (congrArg key hchampion.symm)
        | cons b before =>
            obtain ⟨rfl, hrest⟩ := List.cons.inj h.place
            obtain ⟨hlow, hless⟩ := List.forall_mem_cons.mp h.less
            refine ⟨a :: c :: before, after, by rw [hrest]; rfl, ?_, h.le⟩
            exact List.forall_mem_cons.mpr
              ⟨hlow, List.forall_mem_cons.mpr ⟨hle.trans_lt hlow, hless⟩⟩

section GainThenCost

variable {gain cost : α → ℕ} {a c : α}

/-- More gain counts more, and then less cost. -/
def gainThenCost (gain cost : α → ℕ) (a : α) : ℕ ×ₗ ℕᵒᵈ :=
  toLex (gain a, OrderDual.toDual (cost a))

theorem gainThenCost_lt_iff : gainThenCost gain cost a < gainThenCost gain cost c ↔
    gain a < gain c ∨ gain a = gain c ∧ cost c < cost a :=
  Prod.Lex.toLex_lt_toLex

theorem gainThenCost_le_iff : gainThenCost gain cost a ≤ gainThenCost gain cost c ↔
    gain a < gain c ∨ gain a = gain c ∧ cost c ≤ cost a :=
  Prod.Lex.toLex_le_toLex

end GainThenCost

end Library

end ScpuEmu
