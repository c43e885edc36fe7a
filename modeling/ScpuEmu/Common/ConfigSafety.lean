import ScpuEmu.Common.Config
import ScpuEmu.Library.Checked
import Mathlib.Data.Nat.Digits.Defs

/-!
# What configuration files are read safely

The lines of a file are what a split at the newlines gives, up to the first zero. Each
is read whole or cut to the length of the line buffer, and the position ends at the
terminator, whatever the file holds.

What remains to be asked of a line concerns its value. A name without one leaves a null
pointer to be compared with the next name of the table, so only the last name may stand
alone. A number has to stay clear of the largest `int` by the code of the digit `0`,
which is added before it is taken off again.
-/

namespace ScpuEmu

open Library

namespace Config

/-! ## Lines -/

/-- One carriage return at the end of a line is dropped. -/
def dropReturn (line : List Byte) : List Byte :=
  if line.getLast? = some carriageReturn then line.dropLast else line

/-- The part of a line that reaches the line buffer. -/
def lineText (line : List Byte) : List Byte :=
  (dropReturn (line.dropWhile isBlank)).take (curLineSize - 1)

/-- The lines of the text before the first zero. -/
def configLines (cfg : List Byte) : List (List Byte) := (zText cfg).splitOn newline

section Lines

variable {cfg : List Byte} {cfgPos : ℕ}

/-- The scan from `ep` on stops at the end of the line. -/
theorem lineEnd_spec (t : List Byte) {fuel ep : ℕ} (ht : (zText cfg).drop (cfgPos + ep) = t)
    (hpos : cfgPos + ep ≤ (zText cfg).length) (hfuel : t.length < fuel) :
    lineEnd cfg cfgPos fuel ep = .ok (ep + (t.takeWhile fun c => decide (c ≠ newline)).length) := by
  induction t generalizing fuel ep with
  | nil =>
      obtain ⟨fuel, rfl⟩ := Nat.exists_eq_add_of_lt hfuel
      rw [lineEnd, cfgAt, eq_length_of_drop_nil hpos ht, peek_end, ok_bind,
        if_neg (fun h => h.1 rfl), List.takeWhile_nil, List.length_nil, Nat.add_zero]
  | cons c t ih =>
      obtain ⟨fuel, rfl⟩ : ∃ n, fuel = n + 1 := ⟨fuel - 1, by omega⟩
      have hc : c ≠ 0 := ne_zero_of_mem_zText (mem_zText_of_drop ht)
      have hlen := congrArg List.length ht
      rw [List.length_drop, List.length_cons] at hlen
      rw [List.length_cons] at hfuel
      have hrest : (zText cfg).drop (cfgPos + (ep + 1)) = t := drop_succ ht
      rw [lineEnd, cfgAt, peek_of_drop ht, ok_bind, List.takeWhile_cons]
      by_cases hnew : c = newline
      · rw [if_neg (fun h => h.2 hnew), if_neg (by simp [hnew]), List.length_nil, Nat.add_zero]
      · rw [if_pos ⟨hc, hnew⟩, if_pos (decide_eq_true hnew), List.length_cons,
          ih hrest (by omega) (by omega), Nat.add_right_comm, Nat.add_assoc]

/-- The scan from `sp` on passes the blanks in front of the line. -/
theorem skipBlanks_spec (line rest : List Byte) {fuel ep sp : ℕ}
    (ht : (zText cfg).drop (cfgPos + sp) = line ++ rest) (hep : sp + line.length = ep)
    (hfuel : line.length < fuel) :
    skipBlanks cfg cfgPos ep fuel sp = .ok (sp + (line.takeWhile isBlank).length) := by
  induction line generalizing fuel sp with
  | nil =>
      obtain ⟨fuel, rfl⟩ := Nat.exists_eq_add_of_lt hfuel
      rw [List.length_nil] at hep
      rw [skipBlanks, if_neg (by omega), List.takeWhile_nil, List.length_nil, Nat.add_zero]
  | cons c line ih =>
      obtain ⟨fuel, rfl⟩ : ∃ n, fuel = n + 1 := ⟨fuel - 1, by omega⟩
      rw [List.length_cons] at hep hfuel
      rw [List.cons_append] at ht
      have hrest : (zText cfg).drop (cfgPos + (sp + 1)) = line ++ rest := drop_succ ht
      rw [skipBlanks, if_pos (by omega), cfgAt, peek_of_drop ht, ok_bind, List.takeWhile_cons]
      by_cases hblank : isBlank c = true
      · rw [if_pos hblank, if_pos hblank, List.length_cons,
          ih hrest (by omega) (by omega), Nat.add_right_comm, Nat.add_assoc]
      · rw [if_neg hblank, if_neg hblank, List.length_nil, Nat.add_zero]

theorem copyChars_spec (t : List Byte) {start : ℕ} (len : ℕ) (ht : (zText cfg).drop start = t)
    (hstart : start ≤ (zText cfg).length) : copyChars cfg start len = .ok (t.take len) := by
  induction len generalizing t start with
  | zero => rfl
  | succ len ih =>
      cases t with
      | nil =>
          rw [copyChars, cfgAt, eq_length_of_drop_nil hstart ht, peek_end, ok_bind, if_pos rfl,
            List.take_nil]
      | cons c t =>
          have hc : c ≠ 0 := ne_zero_of_mem_zText (mem_zText_of_drop ht)
          have hlen := congrArg List.length ht
          rw [List.length_drop, List.length_cons] at hlen
          rw [copyChars, cfgAt, peek_of_drop ht, ok_bind, if_neg hc,
            ih t (drop_succ ht) (by omega), ok_bind, List.take_succ_cons]

theorem dropReturn_prefix (line : List Byte) : dropReturn line <+: line := by
  rw [dropReturn]
  split
  · exact List.dropLast_prefix line
  · exact List.prefix_refl line

theorem trimReturn_spec {line rest : List Byte} {start : ℕ}
    (ht : (zText cfg).drop start = line ++ rest) :
    trimReturn cfg start line.length = .ok (dropReturn line).length := by
  rcases List.eq_nil_or_concat line with rfl | ⟨front, c, rfl⟩
  · rfl
  · rw [List.concat_eq_append] at ht ⊢
    have hlast : (zText cfg).drop (start + front.length) = c :: rest := by
      rw [← List.drop_drop, ht, List.append_assoc, List.drop_left, List.singleton_append]
    have hlen : (front ++ [c]).length = front.length + 1 := List.length_append
    rw [trimReturn, hlen, if_pos (Nat.succ_pos _), Nat.add_sub_cancel, cfgAt,
      peek_of_drop hlast, ok_bind, dropReturn, List.getLast?_concat, List.dropLast_concat]
    by_cases hreturn : c = carriageReturn
    · rw [if_pos hreturn, if_pos (congrArg some hreturn)]
    · rw [if_neg hreturn, if_neg fun heq => hreturn (Option.some.inj heq), hlen]

/-- One line is taken, and the position goes on behind its newline, or stays at the
terminator. -/
theorem getNextLine_spec {line rest : List Byte} (hsize : (zText cfg).length < cfgSize)
    (hpos : cfgPos ≤ (zText cfg).length) (ht : (zText cfg).drop cfgPos = line ++ rest)
    (hline : newline ∉ line) (hrest : rest = [] ∨ ∃ rest', rest = newline :: rest') :
    getNextLine cfg cfgPos =
      .ok ⟨(line.dropWhile isBlank).length, lineText line,
        cfgPos + (line.length + if rest = [] then 0 else 1)⟩ := by
  have hlen := congrArg List.length ht
  rw [List.length_drop, List.length_append] at hlen
  have hzero : (zText cfg).drop (cfgPos + 0) = line ++ rest := ht
  have hend : lineEnd cfg cfgPos cfgSize 0 = .ok line.length := by
    have htake : ((line ++ rest).takeWhile fun c => decide (c ≠ newline)) = line := by
      have hall : ∀ c ∈ line, decide (c ≠ newline) = true := by
        intro c hc
        refine decide_eq_true fun heq => ?_
        rw [heq] at hc
        exact hline hc
      rw [List.takeWhile_append_of_pos hall]
      rcases hrest with rfl | ⟨rest', rfl⟩ <;> simp
    rw [lineEnd_spec _ hzero hpos (by rw [List.length_append]; omega), htake,
      Nat.zero_add]
  set front := (line.takeWhile isBlank).length with hfront
  set stripped := line.dropWhile isBlank with hstripped
  have hsplit : front + stripped.length = line.length := by
    rw [hfront, hstripped, ← List.length_append, List.takeWhile_append_dropWhile]
  have hstart : (zText cfg).drop (cfgPos + front) = stripped ++ rest := by
    rw [← List.drop_drop, ht, ← List.takeWhile_append_dropWhile (p := isBlank) (l := line),
      List.append_assoc, List.drop_left]
  have hblanks : skipBlanks cfg cfgPos line.length cfgSize 0 = .ok front := by
    rw [skipBlanks_spec line rest hzero (Nat.zero_add _) (by omega), Nat.zero_add]
  have hcut : dropReturn stripped <+: stripped := dropReturn_prefix stripped
  have hcopy : copyLine cfg (cfgPos + front)
      (if curLineSize - 1 < (dropReturn stripped).length then curLineSize - 1
        else (dropReturn stripped).length) = .ok (lineText line) := by
    have hsizeof : curLineSize = 2048 := rfl
    have hlength := hcut.length_le
    have hmin : (if curLineSize - 1 < (dropReturn stripped).length then curLineSize - 1
        else (dropReturn stripped).length) =
          min (curLineSize - 1) (dropReturn stripped).length := by
      split <;> omega
    rw [hmin, copyLine, if_neg (by omega), copyChars_spec _ _ hstart (by omega),
      List.take_append_of_le_length (by omega), ← List.take_take,
      ← List.prefix_iff_eq_take.mp hcut, lineText]
  have hnext : cfgAt cfg (cfgPos + line.length) = .ok (if rest = [] then 0 else newline) := by
    have hbehind : (zText cfg).drop (cfgPos + line.length) = rest := by
      rw [← List.drop_drop, ht, List.drop_left]
    rcases hrest with rfl | ⟨rest', rfl⟩
    · rw [cfgAt, eq_length_of_drop_nil (by omega) hbehind, peek_end]
      rfl
    · rw [cfgAt, peek_of_drop hbehind]
      rfl
  rw [getNextLine, hend, ok_bind, hblanks, ok_bind, ← hsplit, Nat.add_sub_cancel_left,
    trimReturn_spec hstart, ok_bind, hcopy, ok_bind, hsplit, hnext, ok_bind]
  split <;> rfl

theorem readLine_eq (line : List Byte) (pos : ℕ) (s : Parsed) :
    readLine ⟨(line.dropWhile isBlank).length, lineText line, pos⟩ s =
      parseLine (lineText line) s := by
  rw [readLine]
  by_cases hempty : lineText line = []
  · rw [if_neg fun h => h.2 hempty, hempty]
    rfl
  · refine if_pos ⟨fun hlen => hempty ?_, hempty⟩
    rw [lineText, List.length_eq_zero_iff.mp hlen]
    rfl

/-- The lines are read one after another, to the terminator. -/
theorem readLines_spec (t : List Byte) {fuel : ℕ} (s : Parsed)
    (hsize : (zText cfg).length < cfgSize) (hpos : cfgPos ≤ (zText cfg).length)
    (ht : (zText cfg).drop cfgPos = t) (hfuel : t.length < fuel) :
    readLines cfg fuel cfgPos s =
      (t.splitOn newline).foldlM (fun s line => parseLine (lineText line) s) s := by
  induction fuel generalizing t cfgPos s with
  | zero => omega
  | succ fuel ih =>
      cases t with
      | nil =>
          rw [readLines, cfgAt, eq_length_of_drop_nil hpos ht, peek_end, ok_bind, if_pos rfl]
          rfl
      | cons c t =>
          have hc : c ≠ 0 := ne_zero_of_mem_zText (mem_zText_of_drop ht)
          rw [readLines, cfgAt, peek_of_drop ht, ok_bind, if_neg hc]
          have hlen := congrArg List.length ht
          rw [List.length_drop] at hlen
          by_cases hlast : newline ∈ c :: t
          · obtain ⟨line, rest, hsplit, hline⟩ := List.eq_append_cons_of_mem hlast
            rw [hsplit] at ht hlen hfuel ⊢
            rw [List.length_append, List.length_cons] at hlen hfuel
            have hnext : (zText cfg).drop (cfgPos + (line.length + 1)) = rest := by
              rw [← List.drop_drop, ht, ← List.drop_drop, List.drop_left]
              rfl
            have hle : cfgPos + (line.length + 1) ≤ (zText cfg).length := by omega
            rw [getNextLine_spec hsize hpos ht hline (.inr ⟨rest, rfl⟩), ok_bind, readLine_eq,
              List.splitOn_append_cons_self_of_not_mem hline, List.foldlM_cons]
            refine bind_congr fun s' => ?_
            rw [if_neg (List.cons_ne_nil _ _)]
            exact ih rest s' hle hnext (by omega)
          · have hnext : (zText cfg).drop (cfgPos + ((c :: t).length + 0)) = [] := by
              rw [← List.drop_drop, ht, Nat.add_zero, List.drop_length]
            have hle : cfgPos + ((c :: t).length + 0) ≤ (zText cfg).length := by omega
            have hmore : ([] : List Byte).length < fuel := by
              rw [List.length_cons] at hfuel
              rw [List.length_nil]
              omega
            rw [getNextLine_spec hsize hpos (ht.trans (List.append_nil _).symm) hlast (.inl rfl),
              ok_bind, readLine_eq, List.splitOn_eq_singleton hlast, List.foldlM_cons]
            refine bind_congr fun s' => ?_
            rw [if_pos rfl]
            exact ih [] s' hle hnext hmore

end Lines

/-! ## Values -/

/-- The digits `atoi` reads. -/
def valueDigits (str : List Byte) : List ℕ :=
  ((str.takeWhile fun c => decide (c ≠ newline ∧ c ≠ carriageReturn)).filter isDigit).map
    fun c => c.toNat - 0x30

/-- The number they write. -/
def decimal (str : List Byte) : ℕ := Nat.ofDigits 10 (valueDigits str).reverse

/-- The largest number `atoi` reads without overflow. -/
def maxNumber : ℕ := 2 ^ 31 - 1 - 0x30

theorem isDigit_iff {c : Byte} : isDigit c = true ↔ 0x30 ≤ c.toNat ∧ c.toNat ≤ 0x39 :=
  decide_eq_true_iff

theorem int_of_lt {x : ℤ} (hlo : -2 ^ 31 ≤ x) (hhi : x < 2 ^ 31) : int x = .ok x :=
  if_pos ⟨hlo, hhi⟩

theorem int_of_le {x : ℤ} (h : 2 ^ 31 ≤ x) : int x = .error .overflow :=
  if_neg fun hx => not_lt.mpr h hx.2

theorem appendDigit_eq {n : ℕ} {c : Byte} (hc : isDigit c = true) :
    appendDigit n c =
      if c.toNat - 0x30 + 10 * n ≤ maxNumber then .ok ((c.toNat - 0x30 + 10 * n : ℕ) : ℤ)
      else .error .overflow := by
  have hmax : maxNumber = 2147483599 := rfl
  obtain ⟨hlo, hhi⟩ := isDigit_iff.mp hc
  rw [appendDigit]
  by_cases hfits : c.toNat - 0x30 + 10 * n ≤ maxNumber
  · rw [if_pos hfits, int_of_lt (by omega) (by omega), ok_bind, int_of_lt (by omega) (by omega),
      ok_bind, int_of_lt (by omega) (by omega)]
    congr 1
    omega
  · rw [if_neg hfits]
    by_cases hscaled : (n : ℤ) * 10 < 2 ^ 31
    · rw [int_of_lt (by omega) hscaled, ok_bind, int_of_le (by omega), error_bind]
    · rw [int_of_le (not_lt.mp hscaled), error_bind]

/-- The digits after the number `n`. -/
def extend (n : ℕ) (digits : List ℕ) : ℕ := digits.foldl (fun n d => d + 10 * n) n

theorem le_extend (n : ℕ) (digits : List ℕ) : n ≤ extend n digits := by
  induction digits generalizing n with
  | nil => exact le_refl n
  | cons d digits ih =>
      have hstep := ih (d + 10 * n)
      rw [extend, List.foldl_cons, ← extend]
      omega

theorem decimal_eq (str : List Byte) : decimal str = extend 0 (valueDigits str) := by
  rw [decimal, Nat.ofDigits_eq_foldr, List.foldr_reverse, extend]
  rfl

theorem valueDigits_cons (c : Byte) (str : List Byte) :
    valueDigits (c :: str) =
      if c = newline ∨ c = carriageReturn then []
      else if isDigit c then (c.toNat - 0x30) :: valueDigits str else valueDigits str := by
  rw [valueDigits, List.takeWhile_cons]
  by_cases hstop : c = newline ∨ c = carriageReturn
  · rw [if_pos hstop, if_neg (by rw [decide_eq_true_iff, ← not_or]; exact not_not.mpr hstop)]
    rfl
  · rw [if_neg hstop, if_pos (by rw [decide_eq_true_iff, ← not_or]; exact hstop), List.filter_cons]
    split <;> rfl

/-- The loop reads the digits that are left onto a number that fits. -/
theorem atoiLoop_eq (str : List Byte) {n : ℕ} (hn : n ≤ maxNumber) :
    atoiLoop str n =
      if extend n (valueDigits str) ≤ maxNumber then .ok (extend n (valueDigits str) : ℤ)
      else .error .overflow := by
  induction str generalizing n with
  | nil => exact (if_pos hn).symm
  | cons c str ih =>
      rw [atoiLoop, valueDigits_cons]
      by_cases hstop : c = newline ∨ c = carriageReturn
      · rw [if_pos hstop, if_pos hstop]
        exact (if_pos hn).symm
      · rw [if_neg hstop, if_neg hstop]
        by_cases hdigit : isDigit c = true
        · rw [if_pos hdigit, if_pos hdigit, appendDigit_eq hdigit, extend, List.foldl_cons,
            ← extend]
          by_cases hfits : c.toNat - 0x30 + 10 * n ≤ maxNumber
          · rw [if_pos hfits, ok_bind, ih hfits]
          · have hmore := le_extend (c.toNat - 0x30 + 10 * n) (valueDigits str)
            rw [if_neg hfits, error_bind, if_neg (by omega)]
        · rw [if_neg hdigit, if_neg hdigit, ih hn]

theorem atoi_eq (str : List Byte) :
    atoi str = if decimal str ≤ maxNumber then .ok (decimal str : ℤ) else .error .overflow := by
  rw [decimal_eq]
  exact atoiLoop_eq str (Nat.zero_le _)

/-! ## Names -/

/-- A name other than the last of the table has a value, and the value of a name is a
number that fits. -/
structure ProperSetting (names : List (List Byte)) (ptr rest : List Byte) : Prop where
  has_value : ptr ∈ names.dropLast → ∃ c ∈ rest, c ≠ quote
  fits : ptr ∈ names → decimal (token [quote] rest) ≤ maxNumber

instance (names : List (List Byte)) (ptr rest : List Byte) :
    Decidable (ProperSetting names ptr rest) :=
  decidable_of_iff ((ptr ∈ names.dropLast → ∃ c ∈ rest, c ≠ quote) ∧
      (ptr ∈ names → decimal (token [quote] rest) ≤ maxNumber))
    ⟨fun h => ⟨h.1, h.2⟩, fun h => ⟨h.has_value, h.fits⟩⟩

/-- What is asked of the text of a line. -/
def ProperLine (curLine : List Byte) : Prop :=
  ProperSetting timingNames (token blanks curLine) (afterToken blanks curLine)

instance (curLine : List Byte) : Decidable (ProperLine curLine) :=
  inferInstanceAs (Decidable (ProperSetting _ _ _))

/-- Past the matching name, a null pointer is compared unless the table ends. -/
theorem matchNames_null (names : List (List Byte)) (i : ℕ) (rest : List Byte) (s : Parsed) :
    matchNames names i none rest s = if names = [] then .ok s else .error .nullToken := by
  cases names with
  | nil => rfl
  | cons name names => rfl

/-- At the matching name, the value decides. -/
theorem matchNames_at (name : List Byte) (names : List (List Byte)) (i : ℕ) (rest : List Byte)
    (s : Parsed) :
    matchNames (name :: names) i (some name) rest s =
      if ∀ c ∈ rest, c = quote then matchNames names (i + 1) none [] s
      else if decimal (token [quote] rest) ≤ maxNumber then
        .ok (s.assign i (decimal (token [quote] rest)))
      else .error .overflow := by
  rw [matchNames, if_pos rfl]
  by_cases hquotes : ∀ c ∈ rest, c = quote
  · rw [if_pos hquotes, strtok_eq_none fun c hc => List.mem_singleton.mpr (hquotes c hc)]
  · rw [if_neg hquotes]
    push Not at hquotes
    have hvalue : ∃ c ∈ rest, c ∉ [quote] := by
      simpa only [List.mem_singleton] using hquotes
    rw [strtok_eq_some hvalue]
    dsimp only
    rw [atoi_eq]
    split <;> rfl

theorem matchNames_succeeds_iff (names : List (List Byte)) (i : ℕ) (ptr rest : List Byte)
    (s : Parsed) :
    Succeeds (matchNames names i (some ptr) rest s) ↔ ProperSetting names ptr rest := by
  induction names generalizing i with
  | nil => exact iff_of_true (succeeds_ok s) ⟨by simp, by simp⟩
  | cons name names ih =>
      by_cases hname : ptr = name
      · subst hname
        have hlast : ptr ∈ (ptr :: names).dropLast ↔ names ≠ [] := by
          cases names <;> simp
        rw [matchNames_at]
        by_cases hquotes : ∀ c ∈ rest, c = quote
        · have hzero : decimal (token [quote] rest) = 0 := by
            rw [token_eq_nil fun c hc => List.mem_singleton.mpr (hquotes c hc)]
            rfl
          have hno : ¬∃ c ∈ rest, c ≠ quote := by
            push Not
            exact hquotes
          rw [if_pos hquotes, matchNames_null]
          constructor
          · intro hok
            refine ⟨fun hmem => ?_, fun _ => by rw [hzero]; exact Nat.zero_le _⟩
            rw [if_neg (hlast.mp hmem)] at hok
            exact absurd hok (not_succeeds_error _)
          · intro hproper
            have hend : names = [] := by
              by_contra hne
              exact hno (hproper.has_value (hlast.mpr hne))
            rw [if_pos hend]
            exact succeeds_ok s
        · rw [if_neg hquotes]
          push Not at hquotes
          constructor
          · intro hok
            refine ⟨fun _ => hquotes, fun _ => ?_⟩
            by_contra hfits
            rw [if_neg hfits] at hok
            exact not_succeeds_error _ hok
          · intro hproper
            rw [if_pos (hproper.fits (List.mem_cons_self ..))]
            exact succeeds_ok _
      · have hmem : ptr ∈ name :: names ↔ ptr ∈ names := by simp [hname]
        have hlast : ptr ∈ (name :: names).dropLast ↔ ptr ∈ names.dropLast := by
          cases names <;> simp [hname]
        rw [matchNames, if_neg hname, ih]
        constructor
        · intro hproper
          exact ⟨fun h => hproper.has_value (hlast.mp h), fun h => hproper.fits (hmem.mp h)⟩
        · intro hproper
          exact ⟨fun h => hproper.has_value (hlast.mpr h), fun h => hproper.fits (hmem.mpr h)⟩

/-- The faults the loop over the table can end in. -/
theorem matchNames_fault {names : List (List Byte)} {i : ℕ} {ptr rest : List Byte} {s : Parsed}
    {fault : Fault} (h : matchNames names i (some ptr) rest s = .error fault) :
    fault = .nullToken ∨ fault = .overflow := by
  induction names generalizing i with
  | nil => cases h
  | cons name names ih =>
      by_cases hname : ptr = name
      · subst hname
        rw [matchNames_at, matchNames_null] at h
        split at h
        · split at h
          · cases h
          · cases h
            exact .inl rfl
        · split at h
          · cases h
          · cases h
            exact .inr rfl
      · rw [matchNames, if_neg hname] at h
        exact ih h

theorem parseLine_of_blank {curLine : List Byte} (h : ∀ c ∈ curLine, c ∈ blanks) (s : Parsed) :
    parseLine curLine s = .ok s := by
  rw [parseLine, strtok_eq_none h]

theorem parseLine_of_word {curLine : List Byte} (h : ∃ c ∈ curLine, c ∉ blanks) (s : Parsed) :
    parseLine curLine s =
      matchNames timingNames 0 (some (token blanks curLine)) (afterToken blanks curLine) s := by
  rw [parseLine, strtok_eq_some h]

theorem parseLine_succeeds_iff (s : Parsed) (curLine : List Byte) :
    Succeeds (parseLine curLine s) ↔ ProperLine curLine := by
  by_cases hblank : ∀ c ∈ curLine, c ∈ blanks
  · have hword : token blanks curLine ∉ timingNames := by
      rw [token_eq_nil hblank]
      decide +kernel
    rw [parseLine_of_blank hblank]
    exact iff_of_true (succeeds_ok s)
      ⟨fun h => absurd (List.dropLast_subset _ h) hword, fun h => absurd h hword⟩
  · push Not at hblank
    rw [parseLine_of_word hblank]
    exact matchNames_succeeds_iff ..

theorem parseLine_fault {curLine : List Byte} {s : Parsed} {fault : Fault}
    (h : parseLine curLine s = .error fault) : fault = .nullToken ∨ fault = .overflow := by
  by_cases hblank : ∀ c ∈ curLine, c ∈ blanks
  · rw [parseLine_of_blank hblank] at h
    cases h
  · push Not at hblank
    rw [parseLine_of_word hblank] at h
    exact matchNames_fault h

/-! ## Files -/

theorem readFile_of_le {file : List Byte} (hsize : file.length ≤ 65535) :
    readFile (some file) (cfgSize - 1) = some file :=
  Option.filter_some_pos (decide_eq_true hsize)

/-- Reading a file is reading its lines, one after another. -/
theorem readLines_config {cfg : List Byte} (hsize : cfg.length ≤ 65535) (s : Parsed) :
    readLines cfg cfgSize 0 s =
      (configLines cfg).foldlM (fun s line => parseLine (lineText line) s) s := by
  have hlen := length_zText_le cfg
  have hcfg : cfgSize = 65536 := rfl
  exact readLines_spec (zText cfg) s (by omega) (Nat.zero_le _) List.drop_zero (by omega)

theorem readConfig_of_le (timings : ℕ → BitVec 32) {file : List Byte}
    (hsize : file.length ≤ 65535) :
    readConfig timings (some file) =
      ((configLines file).foldlM (fun s line => parseLine (lineText line) s)
        ⟨fun _ => 0, fun _ => false⟩ >>= fun s =>
          .ok ⟨1, s.settings Settings.default, s.timings timings⟩) := by
  rw [readConfig, readFile_of_le hsize]
  dsimp only
  rw [readLines_config hsize]

/-- Reading ends, stays before the terminator and within the line buffer, whatever the
file; no null pointer is compared and no number overflows exactly when every line is
proper. -/
theorem readConfig_safe_iff (timings : ℕ → BitVec 32) {file : List Byte}
    (hsize : file.length ≤ 65535) :
    (∀ fault, readConfig timings (some file) = .error fault →
        fault = .nullToken ∨ fault = .overflow) ∧
      (Succeeds (readConfig timings (some file)) ↔
        ∀ line ∈ configLines file, ProperLine (lineText line)) := by
  rw [readConfig_of_le timings hsize]
  constructor
  · intro fault h
    rcases bind_eq_error_iff.mp h with h | ⟨s, -, h⟩
    · exact foldlM_fault (fun s line fault => parseLine_fault) h
    · cases h
  · have hline : ∀ s line, Succeeds (parseLine (lineText line) s) ↔ ProperLine (lineText line) :=
      fun s line => parseLine_succeeds_iff s (lineText line)
    rw [succeeds_bind, ← foldlM_succeeds_iff hline (configLines file)
      ⟨fun _ => 0, fun _ => false⟩]
    exact exists_congr fun s => and_iff_left (succeeds_ok _)

/-- A name with its value, and one line feed after a carriage return. -/
theorem readConfig_safe_cpuCore :
    Succeeds (readConfig (fun _ => 0) (some (chars "CPU_CORE 1" ++ [13, 10]))) := by
  have hlines : ∀ line ∈ configLines (chars "CPU_CORE 1" ++ [13, 10]),
      ProperLine (lineText line) := by decide +kernel
  exact (readConfig_safe_iff (fun _ => 0) (by decide +kernel)).2.mpr hlines

/-- A name that ends its line is compared with the next name as a null pointer. -/
theorem cpuCore_without_value :
    readConfig (fun _ => 0) (some (chars "CPU_CORE" ++ [10])) = .error .nullToken := by
  rfl

/-! ## Settings -/

/-- The values the settings may have. -/
structure Settings.InRange (s : Settings) : Prop where
  flags : ∀ x ∈ [s.cfgCPUCore, s.cfgBootmap, s.cfgJiffyDOS, s.cfgBootAnimation,
    s.cfgMirrorD000Relocate, s.cfgHeartbeat, s.cfgNMIRetime, s.cfgVectorReroute, s.cfgIOStretch,
    s.cfgNMINativeDefer, s.cfgMirrorStretch, s.cfgDisplayScrub, s.cfgDisplayScrubMask],
      x = 0 ∨ x = 1
  counts : ∀ x ∈ [s.cfgMirrorDisplayBytes, s.cfgMirrorHaltAfterS, s.cfgBusHaltAfterS,
    s.cfgDisplayScrubPeriodS], 0 ≤ x
  c128Mode : 0 ≤ s.cfgC128Mode ∧ s.cfgC128Mode ≤ 2
  sentinel : 0 ≤ s.cfgBusAccessSentinel ∧ s.cfgBusAccessSentinel ≤ 13
  videoMode : 0 ≤ s.cfgVideoMode ∧ s.cfgVideoMode ≤ 2
  reuSize : 1 ≤ s.cfgREUSize ∧ s.cfgREUSize ≤ 7

namespace Parsed

variable (s : Parsed) (i : ℕ)

theorem flag_range {current : ℤ} (h : current = 0 ∨ current = 1) :
    s.flag i current = 0 ∨ s.flag i current = 1 := by
  rw [flag]
  split
  · split
    · exact .inr rfl
    · exact .inl rfl
  · exact h

theorem selector_range {low high fallback current : ℤ}
    (hfallback : low ≤ fallback ∧ fallback ≤ high) (h : low ≤ current ∧ current ≤ high) :
    low ≤ s.selector i low high fallback current ∧
      s.selector i low high fallback current ≤ high := by
  rw [selector]
  split
  · split
    · exact hfallback
    · rename_i hrange
      exact ⟨not_lt.mp fun hlow => hrange (.inl hlow), not_lt.mp fun hhigh => hrange (.inr hhigh)⟩
  · exact h

theorem seconds_nonneg {current : ℤ} (h : 0 ≤ current) : 0 ≤ s.seconds i current := by
  rw [seconds]
  split
  · rename_i hset
    exact hset.2.le
  · exact h

/-- Whatever was read, settings in range stay so. -/
theorem settings_inRange {current : Settings} (h : current.InRange) :
    (s.settings current).InRange := by
  obtain ⟨hflags, hcounts, hc128, hsentinel, hvideo, hreu⟩ := h
  simp only [List.forall_mem_cons, List.not_mem_nil, false_implies, implies_true, and_true]
    at hflags hcounts
  obtain ⟨hcore, hbootmap, hjiffy, hanimation, hreloc, hbeat, hretime, hreroute, hio, hdefer,
    hstretch, hscrub, hmask⟩ := hflags
  obtain ⟨hbytes, hhalt, hbusHalt, hperiod⟩ := hcounts
  refine ⟨?_, ?_, ?_, ?_, ?_, ?_⟩
  · simp only [settings, List.forall_mem_cons, List.not_mem_nil, false_implies, implies_true,
      and_true]
    exact ⟨s.flag_range 21 hcore, s.flag_range 22 hbootmap, s.flag_range 23 hjiffy,
      s.flag_range 26 hanimation, s.flag_range 28 hreloc, s.flag_range 29 hbeat,
      s.flag_range 30 hretime, s.flag_range 31 hreroute, s.flag_range 32 hio,
      s.flag_range 33 hdefer, s.flag_range 34 hstretch, s.flag_range 38 hscrub,
      s.flag_range 39 hmask⟩
  · simp only [settings, List.forall_mem_cons, List.not_mem_nil, false_implies, implies_true,
      and_true]
    refine ⟨?_, ?_, s.seconds_nonneg 36 hbusHalt, s.seconds_nonneg 40 hperiod⟩
    · split
      · rename_i hset
        exact hset.2
      · exact hbytes
    · split
      · rename_i hset
        exact hset.le
      · exact hhalt
  · exact selector_range s 35 (by decide) hc128
  · exact selector_range s 37 (by decide) hsentinel
  · exact selector_range s 41 (by decide) hvideo
  · exact selector_range s 42 (by decide) hreu

end Parsed

theorem default_inRange : Settings.default.InRange :=
  ⟨by decide, by decide, by decide, by decide, by decide, by decide⟩

/-- The settings are in range after every reading, also of a file that is not there. -/
theorem readConfig_inRange {timings : ℕ → BitVec 32} {file : Option (List Byte)} {r : ReadConfig}
    (h : readConfig timings file = .ok r) : r.settings.InRange := by
  rw [readConfig] at h
  split at h
  · cases h
    exact default_inRange
  · obtain ⟨s, -, h⟩ := bind_eq_ok_iff.mp h
    cases h
    exact s.settings_inRange default_inRange

end Config

end ScpuEmu
