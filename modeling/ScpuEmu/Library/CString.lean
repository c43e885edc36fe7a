import Mathlib.Data.List.TakeWhile

/-!
# Zero-terminated text

A buffer is a list of cells with zeros behind it, and its text is what stands before
the first zero. A checked read fails past the terminator, so a program whose reads are
all checked and do not fail never looks beyond its text. A position in the text is
followed by what remains of the text from there.

`strtok` is one call of the tokenizer of the C library on what remains of a string.
-/

namespace ScpuEmu

namespace Library

section Drop

variable {α : Type*} {i : ℕ}

theorem drop_succ {l rest : List α} {c : α} (h : l.drop i = c :: rest) : l.drop (i + 1) = rest := by
  rw [← List.drop_drop, h, List.drop_succ_cons, List.drop_zero]

/-- Where nothing remains, the position is at the terminator. -/
theorem eq_length_of_drop_nil {l : List α} (hi : i ≤ l.length) (h : l.drop i = []) :
    i = l.length :=
  le_antisymm hi (List.drop_eq_nil_iff.mp h)

end Drop

section Terminated

variable {α ε : Type*} [Zero α] [DecidableEq α] {past : ε} {buffer : List α} {i : ℕ}

/-- What stands before the first zero. -/
def zText (buffer : List α) : List α := buffer.takeWhile fun c => decide (c ≠ 0)

/-- A read no later than the terminator. -/
def peek (past : ε) (buffer : List α) (i : ℕ) : Except ε α :=
  if (zText buffer).length < i then .error past else .ok (buffer.getD i 0)

theorem length_zText_le (buffer : List α) : (zText buffer).length ≤ buffer.length :=
  (List.takeWhile_sublist _).length_le

theorem ne_zero_of_mem_zText {c : α} (h : c ∈ zText buffer) : c ≠ 0 := by
  have hc := List.mem_takeWhile_imp h
  simpa using hc

/-- The cell behind the text is zero. -/
theorem getD_length_zText (buffer : List α) : buffer.getD (zText buffer).length 0 = 0 := by
  induction buffer with
  | nil => rfl
  | cons c rest ih =>
      rw [zText, List.takeWhile_cons]
      by_cases hc : c = 0
      · simp [hc]
      · rw [decide_eq_true hc, if_pos rfl, List.length_cons, List.getD_cons_succ]
        exact ih

theorem peek_end (past : ε) (buffer : List α) : peek past buffer (zText buffer).length = .ok 0 := by
  rw [peek, if_neg (lt_irrefl _), getD_length_zText]

/-- A read in the text gives the next character of what remains. -/
theorem peek_of_drop {c : α} {rest : List α} (h : (zText buffer).drop i = c :: rest) :
    peek past buffer i = .ok c := by
  have hlt : i < (zText buffer).length := by
    have hlen := congrArg List.length h
    rw [List.length_drop, List.length_cons] at hlen
    omega
  have htext : (zText buffer)[i]? = some c := by
    rw [← List.head?_drop, h, List.head?_cons]
  have hcell : buffer[i]? = some c := by
    obtain ⟨behind, hbehind⟩ : zText buffer <+: buffer := List.takeWhile_prefix _
    rw [← hbehind, List.getElem?_append_left hlt, htext]
  rw [peek, if_neg (not_lt.mpr hlt.le), List.getD_eq_getElem?_getD, hcell, Option.getD_some]

theorem mem_zText_of_drop {c : α} {rest : List α} (h : (zText buffer).drop i = c :: rest) :
    c ∈ zText buffer :=
  List.mem_of_mem_drop (i := i) (by rw [h]; exact List.mem_cons_self ..)

end Terminated

section Tokens

variable {α : Type*} [DecidableEq α] {delims s : List α}

/-- One call of the tokenizer: the first run of characters that are no delimiters, and
what remains behind the delimiter that ends it. -/
def strtok (delims s : List α) : Option (List α) × List α :=
  match s.dropWhile fun c => decide (c ∈ delims) with
  | [] => (none, [])
  | c :: rest =>
      (some ((c :: rest).takeWhile fun c => decide (c ∉ delims)),
        ((c :: rest).dropWhile fun c => decide (c ∉ delims)).tail)

/-- The first run of characters that are no delimiters. -/
def token (delims s : List α) : List α :=
  (s.dropWhile fun c => decide (c ∈ delims)).takeWhile fun c => decide (c ∉ delims)

/-- What remains behind the delimiter after the first token. -/
def afterToken (delims s : List α) : List α :=
  ((s.dropWhile fun c => decide (c ∈ delims)).dropWhile fun c => decide (c ∉ delims)).tail

/-- Nothing remains behind the delimiters where all characters are delimiters. -/
theorem dropWhile_delims_eq_nil_iff :
    s.dropWhile (fun c => decide (c ∈ delims)) = [] ↔ ∀ c ∈ s, c ∈ delims := by
  rw [List.dropWhile_eq_nil_iff]
  exact forall₂_congr fun c _ => decide_eq_true_iff

theorem strtok_eq_none (h : ∀ c ∈ s, c ∈ delims) : strtok delims s = (none, []) := by
  rw [strtok, dropWhile_delims_eq_nil_iff.mpr h]

theorem token_eq_nil (h : ∀ c ∈ s, c ∈ delims) : token delims s = [] := by
  rw [token, dropWhile_delims_eq_nil_iff.mpr h, List.takeWhile_nil]

theorem strtok_eq_some (h : ∃ c ∈ s, c ∉ delims) :
    strtok delims s = (some (token delims s), afterToken delims s) := by
  rw [strtok, token, afterToken]
  cases hs : s.dropWhile fun c => decide (c ∈ delims) with
  | nil =>
      obtain ⟨c, hmem, hc⟩ := h
      exact absurd (dropWhile_delims_eq_nil_iff.mp hs c hmem) hc
  | cons c rest => rfl

end Tokens

end Library

end ScpuEmu
