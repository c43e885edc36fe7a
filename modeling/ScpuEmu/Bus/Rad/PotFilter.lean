import ScpuEmu.Bus.Rad.SidModel
import ScpuEmu.Library.Champion

/-!
# The filter of the paddles

A group of samples settles on its most frequent value, on the one closest to the coordinate
before where several are, and counts if that value came three times.
-/

namespace ScpuEmu

open Library

/-- The value that a group of samples settles on. -/
structure Settles (previous : Byte) (values : List Byte) (v : Byte) : Prop where
  frequent : ∀ w, values.count w ≤ values.count v
  near : ∀ w, values.count w = values.count v → potDistance v previous ≤ potDistance w previous
  low : ∀ w, values.count w = values.count v → potDistance w previous = potDistance v previous →
    v ≤ w

/-- More frequent counts more, and then closer. -/
def potKey (previous : Byte) : ℕ × Byte → ℕ ×ₗ ℕᵒᵈ :=
  gainThenCost Prod.fst fun b => potDistance b.2 previous

variable {previous : Byte} {values : List Byte} {v w : Byte}

theorem potKey_lt_iff {b c : ℕ × Byte} : potKey previous b < potKey previous c ↔
    b.1 < c.1 ∨ b.1 = c.1 ∧ potDistance c.2 previous < potDistance b.2 previous :=
  gainThenCost_lt_iff

theorem potKey_le_iff {b c : ℕ × Byte} : potKey previous b ≤ potKey previous c ↔
    b.1 < c.1 ∨ b.1 = c.1 ∧ potDistance c.2 previous ≤ potDistance b.2 previous :=
  gainThenCost_le_iff

theorem potDistance_self (v : Byte) : potDistance v v = 0 := by
  simp [potDistance]

theorem Settles.unique (hv : Settles previous values v) (hw : Settles previous values w) :
    v = w := by
  have hcount := Nat.le_antisymm (hv.frequent w) (hw.frequent v)
  have hdistance := Nat.le_antisymm (hv.near w hcount) (hw.near v hcount.symm)
  exact BitVec.le_antisymm (hv.low w hcount hdistance.symm) (hw.low v hcount.symm hdistance)

/-- A step of the loop is a challenge: before the first sample counts, the best so far is the
coordinate before, and none is closer. -/
theorem potChallenge_eq {best : ℕ × Byte} (h : best.1 = 0 → best.2 = previous) (v : Byte) :
    potChallenge previous values best v = challenge (potKey previous) best (values.count v, v) := by
  unfold potChallenge challenge
  simp only [potKey_lt_iff]
  split
  next hmore => rw [if_pos (.inl hmore)]
  next hmore =>
    split
    next hcloser =>
      rw [if_pos (.inr ⟨hcloser.1.symm, hcloser.2.2⟩), hcloser.1]
    next hfar =>
      rw [if_neg]
      rintro (hless | ⟨hsame, hcloser⟩)
      · exact hmore hless
      · refine hfar ⟨hsame.symm, fun hzero => ?_, hcloser⟩
        rw [h hzero, potDistance_self] at hcloser
        exact Nat.not_lt_zero _ hcloser

theorem foldl_potChallenge (l : List Byte) {best : ℕ × Byte} (h : best.1 = 0 → best.2 = previous) :
    l.foldl (potChallenge previous values) best =
      (l.map fun v => (values.count v, v)).foldl (challenge (potKey previous)) best := by
  induction l generalizing best with
  | nil => rfl
  | cons v l ih =>
      rw [List.foldl_cons, List.map_cons, List.foldl_cons, ← potChallenge_eq h]
      refine ih fun hzero => ?_
      rw [potChallenge_eq h] at hzero ⊢
      unfold challenge at hzero ⊢
      split at hzero
      next hbetter =>
        obtain hless | ⟨hsame, hcloser⟩ := potKey_lt_iff.mp hbetter
        · exact absurd hzero (Nat.ne_of_gt (Nat.zero_lt_of_lt hless))
        · rw [h (hsame.trans hzero), potDistance_self] at hcloser
          exact absurd hcloser (Nat.not_lt_zero _)
      next hkept => rw [if_neg hkept, h hzero]

/-- The bytes in order. -/
def allBytes : List Byte := (List.range 256).map (BitVec.ofNat 8)

theorem mem_allBytes (v : Byte) : v ∈ allBytes :=
  List.mem_map.mpr ⟨v.toNat, List.mem_range.mpr v.isLt, by simp⟩

theorem pairwise_allBytes : allBytes.Pairwise (· < ·) := by
  refine List.pairwise_map.mpr (List.pairwise_lt_range.imp_of_mem fun {a b} ha hb hlt => ?_)
  have hb' := List.mem_range.mp hb
  bv_omega

theorem settles_foldl (previous : Byte) (hsampled : values ≠ []) {best : ℕ × Byte}
    (hbest : allBytes.foldl (potChallenge previous values) (0, previous) = best) :
    Settles previous values best.2 ∧ best.1 = values.count best.2 := by
  obtain ⟨before, after, h⟩ := foldl_challenge (potKey previous) (0, previous)
    (allBytes.map fun v => (values.count v, v))
  have hfold : allBytes.foldl (potChallenge previous values) (0, previous) = _ :=
    foldl_potChallenge allBytes fun _ => rfl
  rw [← hfold, hbest] at h
  have hbeaten : ∀ w, potKey previous (values.count w, w) ≤ potKey previous best := fun w =>
    h.key_le _ (List.mem_cons_of_mem _ (List.mem_map.mpr ⟨w, mem_allBytes w, rfl⟩))
  have hmost : ∀ w, values.count w ≤ best.1 := fun w =>
    (potKey_le_iff.mp (hbeaten w)).elim le_of_lt fun h => h.1.le
  have hsome : 0 < best.1 := by
    obtain ⟨v, rest, hvalues⟩ := List.exists_cons_of_ne_nil hsampled
    exact (List.count_pos_iff.mpr (hvalues ▸ List.mem_cons_self)).trans_le (hmost v)
  -- the champion is one of the bytes, so it stands behind the coordinate before
  obtain ⟨before, rfl⟩ : ∃ rest, before = (0, previous) :: rest := by
    cases before with
    | nil =>
        have hhead := (List.cons.inj h.place).1
        rw [← hhead] at hsome
        exact absurd hsome (Nat.lt_irrefl 0)
    | cons b before => exact ⟨before, by rw [(List.cons.inj h.place).1]⟩
  have hplace : allBytes.map (fun v => (values.count v, v)) = before ++ best :: after :=
    (List.cons.inj h.place).2
  have hmem : best ∈ allBytes.map fun v => (values.count v, v) := by simp [hplace]
  obtain ⟨v, -, hv⟩ := List.mem_map.mp hmem
  have hcount : best.1 = values.count best.2 := by rw [← hv]
  refine ⟨⟨fun w => hcount ▸ hmost w, fun w hw => ?_, fun w hw hdistance => ?_⟩, hcount⟩
  · obtain hless | ⟨-, hnear⟩ := potKey_le_iff.mp (hbeaten w)
    · exact absurd (hcount.trans hw.symm) hless.ne'
    · exact hnear
  · have hw' : (values.count w, w) ∈ before ++ best :: after :=
      hplace ▸ List.mem_map.mpr ⟨w, mem_allBytes w, rfl⟩
    have hsame : potKey previous (values.count w, w) = potKey previous best := by
      rw [potKey, gainThenCost, gainThenCost, hw, hdistance, hcount]
    have hsorted : (before ++ best :: after).Pairwise fun b c => b.2 < c.2 :=
      hplace ▸ List.pairwise_map.mpr pairwise_allBytes
    obtain hbefore | hrest := List.mem_append.mp hw'
    · exact absurd hsame (h.less _ (List.mem_cons_of_mem _ hbefore)).ne
    · obtain heq | hafter := List.mem_cons.mp hrest
      · exact BitVec.le_of_eq (congrArg Prod.snd heq).symm
      · exact BitVec.le_of_lt
          ((List.pairwise_cons.mp (List.pairwise_append.mp hsorted).2.1).1 _ hafter)

/-- A group of samples gives the value that it settles on if that came three times, and the
coordinate before if not. -/
theorem potFiltered_iff (hsampled : values ≠ []) :
    potFiltered previous values = w ↔ ∃ v, Settles previous values v ∧
      w = if 3 ≤ values.count v then v else previous := by
  obtain ⟨hsettles, hcount⟩ := settles_foldl previous hsampled rfl
  rw [potFiltered, ← allBytes, hcount]
  constructor
  · rintro rfl
    exact ⟨_, hsettles, rfl⟩
  · rintro ⟨v, hv, rfl⟩
    rw [hsettles.unique hv]

/-- Six samples of the coordinate and six of the open bus: the closer one wins. -/
theorem potFiltered_iff_residue :
    potFiltered 0x42 [0x40, 0xFF, 0x40, 0xFF, 1, 0x40, 0xFF, 2, 0x40, 0xFF, 3, 0x40, 0xFF, 4, 0x40,
      0xFF, 5] = 0x40 := by
  refine (potFiltered_iff (by decide)).mpr ⟨0x40, ⟨?_, ?_, ?_⟩, by decide⟩
  all_goals decide

end ScpuEmu
