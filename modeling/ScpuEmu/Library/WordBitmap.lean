import Mathlib.Data.Nat.Basic
import Mathlib.Logic.Function.Basic

/-!
# Bit sets packed into machine words

A set of numbers kept as an array of words of width `w`: member `i` is bit
`i % w` of word `i / w`. Testing, inserting and erasing are the shifts and
masks a program writes, and the lemmas below give back membership.
-/

namespace ScpuEmu

namespace Library

abbrev WordBitmap (w : ℕ) := ℕ → BitVec w

namespace WordBitmap

variable {w : ℕ}

def empty (w : ℕ) : WordBitmap w := fun _ => 0#w

def test (b : WordBitmap w) (i : ℕ) : Bool := (b (i / w) >>> (i % w)).getLsbD 0

def insert (b : WordBitmap w) (i : ℕ) : WordBitmap w :=
  Function.update b (i / w) (b (i / w) ||| 1#w <<< (i % w))

def erase (b : WordBitmap w) (i : ℕ) : WordBitmap w :=
  Function.update b (i / w) (b (i / w) &&& ~~~(1#w <<< (i % w)))

theorem test_eq_getLsbD (b : WordBitmap w) (i : ℕ) :
    b.test i = (b (i / w)).getLsbD (i % w) := by
  simp [test]

@[simp] theorem test_empty (i : ℕ) : (empty w).test i = false := by
  simp [test, empty]

/-- A number is its word and its bit in the word. -/
theorem eq_of_div_of_mod {i j : ℕ} (hd : i / w = j / w) (hm : i % w = j % w) : i = j := by
  rw [← Nat.div_add_mod i w, ← Nat.div_add_mod j w, hd, hm]

theorem getLsbD_one_shift (hw : 0 < w) (i j : ℕ) :
    (1#w <<< (i % w)).getLsbD (j % w) = decide (i % w = j % w) := by
  have hj : j % w < w := Nat.mod_lt j hw
  by_cases hij : i % w = j % w
  · simp [hij, hj]
  · by_cases hlt : j % w < i % w
    · simp [hij, hlt]
    · have hne : j % w - i % w ≠ 0 := by omega
      simp [hij, hlt, hne, BitVec.getLsbD_one]

@[simp] theorem test_insert (hw : 0 < w) (b : WordBitmap w) (i j : ℕ) :
    (b.insert i).test j = (decide (i = j) || b.test j) := by
  rw [test_eq_getLsbD, test_eq_getLsbD, insert]
  by_cases hd : j / w = i / w
  · rw [hd, Function.update_self, BitVec.getLsbD_or, getLsbD_one_shift hw, Bool.or_comm]
    congr 1
    exact decide_eq_decide.mpr ⟨eq_of_div_of_mod hd.symm, fun h => by rw [h]⟩
  · have hne : i ≠ j := fun h => hd (by rw [h])
    simp [Function.update_of_ne hd, hne]

@[simp] theorem test_erase (hw : 0 < w) (b : WordBitmap w) (i j : ℕ) :
    (b.erase i).test j = (!decide (i = j) && b.test j) := by
  rw [test_eq_getLsbD, test_eq_getLsbD, erase]
  have hj : j % w < w := Nat.mod_lt j hw
  by_cases hd : j / w = i / w
  · rw [hd, Function.update_self, BitVec.getLsbD_and, BitVec.getLsbD_not,
      getLsbD_one_shift hw, Bool.and_comm, decide_eq_true hj, Bool.true_and]
    congr 2
    exact decide_eq_decide.mpr ⟨eq_of_div_of_mod hd.symm, fun h => by rw [h]⟩
  · have hne : i ≠ j := fun h => hd (by rw [h])
    simp [Function.update_of_ne hd, hne]

theorem test_foldl_insert (hw : 0 < w) (l : List ℕ) (b : WordBitmap w) (j : ℕ) :
    (l.foldl insert b).test j = (decide (j ∈ l) || b.test j) := by
  induction l generalizing b with
  | nil => simp
  | cons i l ih =>
      rw [List.foldl_cons, ih, test_insert hw]
      by_cases hij : i = j
      · simp [hij]
      · simp [hij, Ne.symm hij]

/-- The set that a loop with a condition in its body collects. -/
theorem test_foldl_insert_if (hw : 0 < w) (l : List ℕ) (p : ℕ → Bool) (g : ℕ → ℕ) (b : WordBitmap w)
    (j : ℕ) :
    (l.foldl (fun b i => if p i then b.insert (g i) else b) b).test j = true ↔
      (∃ i ∈ l, p i = true ∧ g i = j) ∨ b.test j = true := by
  induction l generalizing b with
  | nil => simp
  | cons i l ih =>
      rw [List.foldl_cons, ih]
      cases hp : p i with
      | true => simp [test_insert hw, hp, or_assoc, or_left_comm]
      | false => simp [hp]

theorem test_foldl_erase (hw : 0 < w) (l : List ℕ) (b : WordBitmap w) (j : ℕ) :
    (l.foldl erase b).test j = (!decide (j ∈ l) && b.test j) := by
  induction l generalizing b with
  | nil => simp
  | cons i l ih =>
      rw [List.foldl_cons, ih, test_erase hw]
      by_cases hij : i = j
      · simp [hij]
      · simp [hij, Ne.symm hij]

end WordBitmap

end Library

end ScpuEmu
