import Mathlib.Data.Nat.Basic
import Mathlib.Order.Basic

/-!
# The longest run of hits

A scan visits the places from `0` on and tells hits from misses. It remembers the run of hits
that it is in and the longest of those that have ended, which only a longer one replaces. What
it ends with is the first of the longest runs.
-/

namespace ScpuEmu

namespace Library

/-- Consecutive hits among the first `n` places, from the one to the other. -/
structure IsRun (hit : ℕ → Bool) (n : ℕ) (r : ℕ × ℕ) : Prop where
  ordered : r.1 ≤ r.2
  within : r.2 < n
  hits : ∀ k, r.1 ≤ k → k ≤ r.2 → hit k = true

theorem IsRun.mono {hit : ℕ → Bool} {n m : ℕ} {r : ℕ × ℕ} (h : IsRun hit n r) (hnm : n ≤ m) :
    IsRun hit m r := ⟨h.ordered, h.within.trans_le hnm, h.hits⟩

/-- The one run is longer than the other, or as long and no later. -/
def Outlasts (r r' : ℕ × ℕ) : Prop :=
  r'.2 - r'.1 < r.2 - r.1 ∨ r'.2 - r'.1 = r.2 - r.1 ∧ r.1 ≤ r'.1

/-- The first of the longest runs. -/
structure IsLongestRun (hit : ℕ → Bool) (n : ℕ) (r : ℕ × ℕ) : Prop where
  run : IsRun hit n r
  outlasts : ∀ r', IsRun hit n r' → Outlasts r r'

/-- What a scan remembers. -/
structure RunScan where
  current : Option (ℕ × ℕ)
  best : Option (ℕ × ℕ)

namespace RunScan

def start : RunScan := ⟨none, none⟩

/-- The longer of two runs, the first of them if they are equally long. -/
def longer (b c : ℕ × ℕ) : ℕ × ℕ := if b.2 - b.1 < c.2 - c.1 then c else b

/-- The run that the scan is in ends. -/
def close (s : RunScan) : RunScan :=
  match s.current with
  | none => s
  | some c => ⟨none, some (s.best.elim c fun b => longer b c)⟩

def note (s : RunScan) (k : ℕ) (hit : Bool) : RunScan :=
  if hit then { s with current := some (s.current.elim k Prod.fst, k) } else s.close

/-- The scan of the first `n` places. -/
def scan (hit : ℕ → Bool) : ℕ → RunScan
  | 0 => start
  | n + 1 => (scan hit n).note n (hit n)

variable {hit : ℕ → Bool} {n : ℕ} {s : RunScan} {b c r : ℕ × ℕ}

/-- What the scan remembers of the first `n` places. -/
structure Scanned (hit : ℕ → Bool) (n : ℕ) (s : RunScan) : Prop where
  current : ∀ c ∈ s.current, IsRun hit n c ∧ c.2 + 1 = n ∧ (c.1 = 0 ∨ hit (c.1 - 1) = false)
  closed : s.current = none → n = 0 ∨ hit (n - 1) = false
  best : ∀ b ∈ s.best, IsRun hit n b
  apart : ∀ b ∈ s.best, ∀ c ∈ s.current, b.1 < c.1
  covered : ∀ r, IsRun hit n r → (∃ b ∈ s.best, Outlasts b r) ∨ ∃ c ∈ s.current, c.1 ≤ r.1

theorem scanned_start : start.Scanned hit 0 :=
  ⟨by simp [start], fun _ => .inl rfl, by simp [start], by simp [start],
    fun _ h => absurd h.within (Nat.not_lt_zero _)⟩

/-- A run that stays within the place before the last. -/
theorem isRun_of_miss (h : IsRun hit (n + 1) r) (hmiss : hit n = false) : IsRun hit n r := by
  refine ⟨h.ordered, ?_, h.hits⟩
  have hlast := h.within
  by_contra hn
  have hend : r.2 = n := by omega
  exact absurd (h.hits n (hend ▸ h.ordered) hend.ge) (by simp [hmiss])

theorem Scanned.note_hit (h : s.Scanned hit n) (hhit : hit n = true) :
    (s.note n true).Scanned hit (n + 1) := by
  obtain ⟨hcurrent, hclosed, hbest, hapart, hcovered⟩ := h
  rw [note, if_pos rfl]
  refine ⟨?_, by simp, fun b hb => (hbest b hb).mono (Nat.le_succ n), ?_, ?_⟩
  · rintro c ⟨⟩
    cases hopen : s.current with
    | none =>
        refine ⟨⟨le_rfl, Nat.lt_succ_self n, fun k hlow hhigh => ?_⟩, rfl, hclosed hopen⟩
        rwa [Nat.le_antisymm hhigh hlow]
    | some c =>
        obtain ⟨hrun, hend, hbefore⟩ := hcurrent c hopen
        have hordered := hrun.ordered
        refine ⟨⟨by dsimp; omega, Nat.lt_succ_self n, fun k hlow hhigh => ?_⟩, rfl, hbefore⟩
        dsimp at hlow hhigh
        by_cases hlast : k = n
        · rwa [hlast]
        · exact hrun.hits k hlow (by omega)
  · rintro b hb c ⟨⟩
    cases hopen : s.current with
    | none => exact ((hbest b hb).ordered).trans_lt (hbest b hb).within
    | some c => exact hapart b hb c hopen
  · intro r hr
    by_cases hend : r.2 = n
    · refine .inr ⟨_, rfl, ?_⟩
      by_contra hlow
      cases hopen : s.current with
      | none =>
          rw [hopen] at hlow
          dsimp at hlow
          obtain hzero | hmiss := hclosed hopen
          · omega
          · exact absurd (hr.hits (n - 1) (by omega) (by omega)) (by simp [hmiss])
      | some c =>
          rw [hopen] at hlow
          dsimp at hlow
          obtain ⟨hrun, hlast, hzero | hmiss⟩ := hcurrent c hopen
          · omega
          · have hordered := hrun.ordered
            exact absurd (hr.hits (c.1 - 1) (by omega) (by omega)) (by simp [hmiss])
    · have hwithin := hr.within
      refine (hcovered r ⟨hr.ordered, by omega, hr.hits⟩).imp id ?_
      rintro ⟨c, hc, hle⟩
      rw [Option.mem_def] at hc
      exact ⟨_, rfl, by simpa [hc] using hle⟩

/-- What a scan has found once the run that it is in has ended. -/
theorem Scanned.longest (h : s.Scanned hit n) :
    (∀ r ∈ s.close.best, IsLongestRun hit n r) ∧
      (s.close.best = none → ∀ k < n, hit k = false) ∧ s.close.current = none := by
  obtain ⟨hcurrent, -, hbest, hapart, hcovered⟩ := h
  have hone {k : ℕ} (hk : k < n) (hhit : hit k = true) : IsRun hit n (k, k) :=
    ⟨le_rfl, hk, fun j hlow hhigh => Nat.le_antisymm hhigh hlow ▸ hhit⟩
  cases hopen : s.current with
  | none =>
      have hsame : s.close = s := by rw [close, hopen]
      rw [hsame]
      refine ⟨fun r hr => ⟨hbest r hr, fun r' hr' => ?_⟩, fun hnone k hk => ?_, hopen⟩
      · obtain ⟨b, hb, hle⟩ | ⟨c, hc, -⟩ := hcovered r' hr'
        · rwa [Option.mem_unique hr hb]
        · exact absurd (hopen.symm.trans hc) (by simp)
      · by_contra hhit
        obtain ⟨b, hb, -⟩ | ⟨c, hc, -⟩ := hcovered _ (hone hk (by simpa using hhit))
        · exact absurd (hnone.symm.trans hb) (by simp)
        · exact absurd (hopen.symm.trans hc) (by simp)
  | some c =>
      obtain ⟨hrun, hend, -⟩ := hcurrent c hopen
      have hclose : s.close = ⟨none, some (s.best.elim c fun b => longer b c)⟩ := by
        rw [close, hopen]
      -- a run that starts in the one that ends is no longer than it
      have hinside : ∀ r, IsRun hit n r → c.1 ≤ r.1 → Outlasts c r := by
        intro r hr hle
        have := hr.ordered
        have := hr.within
        unfold Outlasts
        omega
      rw [hclose]
      refine ⟨?_, fun hnone => absurd hnone (by simp), rfl⟩
      rintro r ⟨⟩
      cases hold : s.best with
      | none =>
          refine ⟨hrun, fun r' hr' => ?_⟩
          obtain ⟨b, hb, -⟩ | ⟨c', hc', hle⟩ := hcovered r' hr'
          · exact absurd (hold.symm.trans hb) (by simp)
          · exact hinside r' hr' (Option.mem_unique hc' hopen ▸ hle)
      | some b =>
          have hbefore := hapart b hold c hopen
          show IsLongestRun hit n (longer b c)
          unfold longer
          split
          next hless =>
            refine ⟨hrun, fun r' hr' => ?_⟩
            obtain ⟨b', hb', hle⟩ | ⟨c', hc', hle⟩ := hcovered r' hr'
            · rw [Option.mem_unique hb' hold] at hle
              unfold Outlasts at hle ⊢
              omega
            · exact hinside r' hr' (Option.mem_unique hc' hopen ▸ hle)
          next hmore =>
            refine ⟨hbest b hold, fun r' hr' => ?_⟩
            obtain ⟨b', hb', hle⟩ | ⟨c', hc', hle⟩ := hcovered r' hr'
            · rwa [Option.mem_unique hb' hold] at hle
            · have hc := hinside r' hr' (Option.mem_unique hc' hopen ▸ hle)
              unfold Outlasts at hc ⊢
              omega

theorem Scanned.note_miss (h : s.Scanned hit n) (hmiss : hit n = false) :
    (s.note n false).Scanned hit (n + 1) := by
  obtain ⟨hlongest, hnone, hclosed⟩ := h.longest
  rw [note, if_neg Bool.false_ne_true]
  refine ⟨?_, fun _ => .inr hmiss, fun b hb => (hlongest b hb).run.mono (Nat.le_succ n), ?_, ?_⟩
  · rw [hclosed]
    rintro c ⟨⟩
  · rw [hclosed]
    rintro b - c ⟨⟩
  · intro r hr
    have hr' := isRun_of_miss hr hmiss
    cases hfound : s.close.best with
    | none =>
        have hmissed := hnone hfound r.1 (hr'.ordered.trans_lt hr'.within)
        exact absurd (hr'.hits r.1 le_rfl hr'.ordered) (by simp [hmissed])
    | some b => exact .inl ⟨b, rfl, (hlongest b hfound).outlasts r hr'⟩

theorem scanned_scan (hit : ℕ → Bool) (n : ℕ) : (scan hit n).Scanned hit n := by
  induction n with
  | zero => exact scanned_start
  | succ n ih =>
      rw [scan]
      cases hhit : hit n with
      | false => exact ih.note_miss hhit
      | true => exact ih.note_hit hhit

/-- A finished scan has found the first of the longest runs, or there was no hit. -/
theorem scan_longest (hit : ℕ → Bool) (n : ℕ) :
    (∀ r ∈ (scan hit n).close.best, IsLongestRun hit n r) ∧
      ((scan hit n).close.best = none → ∀ k < n, hit k = false) :=
  ⟨(scanned_scan hit n).longest.1, (scanned_scan hit n).longest.2.1⟩

end RunScan

end Library

end ScpuEmu
