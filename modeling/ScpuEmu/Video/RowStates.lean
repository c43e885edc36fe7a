import ScpuEmu.Video.ReplayPlan

/-!
# The state a row is rendered with

Row `r` ought to be rendered with every event applied that shows by raster line
`topRaster + r`. The band loop applies the events up to the first one that shows
on a later row. The two agree exactly when no event of the frame shows above the
window, because such an event is mapped below it and closes the frame at once,
and when no register write follows a sprite-pointer write of the same line,
because the pointer shows one line later and holds the register back with it.
-/

namespace ScpuEmu

open Library VICRasterTimeline

/-- A prefix cut equals a filter when nothing rejected stands before anything accepted. -/
theorem takeWhile_eq_filter_iff {α : Type*} (p : α → Bool) (l : List α) :
    l.takeWhile p = l.filter p ↔ l.Pairwise fun i j => p j = true → p i = true := by
  induction l with
  | nil => simp
  | cons a l ih =>
      by_cases ha : p a = true
      · rw [List.takeWhile_cons_of_pos ha, List.filter_cons_of_pos ha, List.cons_inj_right, ih,
          List.pairwise_cons, and_iff_right fun _ _ _ => ha]
      · rw [List.takeWhile_cons_of_neg ha, List.filter_cons_of_neg ha, List.pairwise_cons]
        constructor
        · intro hnil
          have hrejected := List.filter_eq_nil_iff.mp hnil.symm
          exact ⟨fun j hj hpj => absurd hpj (hrejected j hj),
            List.pairwise_of_forall_mem_list fun _ _ j hj hpj => absurd hpj (hrejected j hj)⟩
        · intro h
          exact (List.filter_eq_nil_iff.mpr fun j hj hpj => ha (h.1 j hj hpj)).symm

theorem takeWhile_congr_of_mem {α : Type*} {p q : α → Bool} (l : List α)
    (h : ∀ i ∈ l, p i = q i) : l.takeWhile p = l.takeWhile q := by
  induction l with
  | nil => rfl
  | cons a l ih =>
      have ha := h a List.mem_cons_self
      have hrest := ih fun i hi => h i (List.mem_cons_of_mem a hi)
      rw [List.takeWhile_cons, List.takeWhile_cons, ha, hrest]

namespace VICRasterTimeline

section Rows

variable (log : VICLog) (anchor : BitVec 64) (timing : VICRasterTiming)

/-- The line the event with number `i` shows from. -/
def effectAt (i : BitVec 32) : ℤ := effectLine anchor timing (rasterEvent log i)

/-- The events of a frame that show by output row `r`. -/
def eventsDue (l : List (BitVec 32)) (r : ℕ) : List (BitVec 32) :=
  l.filter fun i => decide (effectAt log anchor timing i ≤ timing.topRaster + r)

/-- Event `j` is a register write held back by the pointer write `i` of its line. -/
def HoldsBack (i j : BitVec 32) : Prop :=
  (rasterEvent log i).isSpritePointer = true ∧ (rasterEvent log j).isSpritePointer = false ∧
    lineAt log anchor timing i = lineAt log anchor timing j ∧
    lineAt log anchor timing j < timing.topRaster + timing.frameRows.toNat

instance (i j : BitVec 32) : Decidable (HoldsBack log anchor timing i j) :=
  inferInstanceAs (Decidable (_ ∧ _ ∧ _ ∧ _))

/-- No event of the frame shows above the window, and none is held back. -/
def InWindowOrder (l : List (BitVec 32)) : Prop :=
  (∀ i ∈ l, timing.topRaster ≤ effectAt log anchor timing i) ∧
    l.Pairwise fun i j => ¬HoldsBack log anchor timing i j

variable {log anchor timing}

theorem effectAt_cases (i : BitVec 32) :
    effectAt log anchor timing i =
      lineAt log anchor timing i + if (rasterEvent log i).isSpritePointer then 1 else 0 := by
  rw [effectAt, effectLine, lineAt]
  split <;> simp

theorem rowAt_of_line (i : BitVec 32) (hline : 0 ≤ lineAt log anchor timing i) :
    rowAt log anchor timing i =
      clampRow timing
        (if effectAt log anchor timing i - timing.topRaster < 0 then
          effectAt log anchor timing i - timing.topRaster + timing.rasterLines.toInt
        else effectAt log anchor timing i - timing.topRaster) :=
  if_neg (not_lt.mpr hline)

/-- An event in or below the window shows by row `r` when its line has been reached. -/
theorem rowAt_le_iff (hrows : timing.frameRows.toNat < 2 ^ 16) (i : BitVec 32) (r : ℕ)
    (hline : 0 ≤ lineAt log anchor timing i)
    (hr : r < timing.frameRows.toNat)
    (hbelow : timing.topRaster ≤ effectAt log anchor timing i) :
    rowAt log anchor timing i ≤ r ↔ effectAt log anchor timing i ≤ timing.topRaster + r := by
  have hfr : timing.frameRows.toInt = timing.frameRows.toNat :=
    BitVec.toInt_eq_toNat_of_lt (by omega)
  rw [rowAt_of_line i hline, if_neg (by omega), clampRow, if_neg (by omega), hfr]
  split <;> omega

section Timing

variable (hwindow : timing.topRaster + timing.frameRows.toNat ≤ timing.rasterLines.toNat)
  (hlines : timing.rasterLines.toNat < 2 ^ 31) (hrows : timing.frameRows.toNat < 2 ^ 16)
include hwindow hlines hrows

/-- An event above the window is mapped below it. -/
theorem rowAt_of_above (i : BitVec 32) (hline : 0 ≤ lineAt log anchor timing i)
    (habove : effectAt log anchor timing i < timing.topRaster) :
    rowAt log anchor timing i = timing.frameRows.toNat := by
  have heffect : 0 ≤ effectAt log anchor timing i := by
    rw [effectAt_cases]
    split <;> omega
  have hrl : timing.rasterLines.toInt = timing.rasterLines.toNat :=
    BitVec.toInt_eq_toNat_of_lt (by omega)
  have hfr : timing.frameRows.toInt = timing.frameRows.toNat :=
    BitVec.toInt_eq_toNat_of_lt (by omega)
  rw [rowAt_of_line i hline, if_pos (by omega), hrl, clampRow, if_neg (by omega), hfr]
  split <;> omega

/-- The events applied are the events due, on every row, exactly when the frame is in
window order. -/
theorem eventsBefore_eq_eventsDue_iff (l : List (BitVec 32))
    (hpos : 0 < timing.frameRows.toNat) (hnonneg : ∀ i ∈ l, 0 ≤ lineAt log anchor timing i)
    (hrise : LinesRise log anchor timing l) :
    (∀ r < timing.frameRows.toNat,
        eventsBefore log anchor timing l r = eventsDue log anchor timing l r) ↔
      InWindowOrder log anchor timing l := by
  have hcut : (∀ i ∈ l, timing.topRaster ≤ effectAt log anchor timing i) →
      ∀ r < timing.frameRows.toNat,
        eventsBefore log anchor timing l r =
          l.takeWhile fun i => decide (effectAt log anchor timing i ≤ timing.topRaster + r) := by
    intro hbelow r hr
    refine takeWhile_congr_of_mem l fun i hi => ?_
    exact decide_eq_decide.mpr
      (rowAt_le_iff hrows i r (hnonneg i hi) hr (hbelow i hi))
  constructor
  · intro h
    have hbelow : ∀ i ∈ l, timing.topRaster ≤ effectAt log anchor timing i := by
      intro i hi
      by_contra habove
      have habove : effectAt log anchor timing i < timing.topRaster := not_le.mp habove
      have hdue : i ∈ eventsDue log anchor timing l 0 :=
        List.mem_filter.mpr ⟨hi, decide_eq_true (by omega)⟩
      rw [← h 0 hpos, eventsBefore] at hdue
      have hrow : rowAt log anchor timing i ≤ 0 := by
        simpa using List.mem_takeWhile_imp hdue
      rw [rowAt_of_above hwindow hlines hrows i (hnonneg i hi) habove] at hrow
      omega
    refine ⟨hbelow, List.pairwise_iff_forall_sublist.mpr fun {i j} hij => ?_⟩
    rintro ⟨hi, hj, hline, hlast⟩
    have hjmem : j ∈ l := hij.subset (by simp)
    have heffi : effectAt log anchor timing i = _ := effectAt_cases i
    have heffj : effectAt log anchor timing j = _ := effectAt_cases j
    rw [hi, if_pos rfl] at heffi
    rw [hj, if_neg Bool.false_ne_true] at heffj
    have hj' := hbelow j hjmem
    -- the row of the held-back write
    obtain ⟨r, hr⟩ := Int.eq_ofNat_of_zero_le (a := lineAt log anchor timing j - timing.topRaster)
      (by omega)
    have hrlt : r < timing.frameRows.toNat := by omega
    have heq := h r hrlt
    rw [hcut hbelow r hrlt] at heq
    have hpair := List.pairwise_iff_forall_sublist.mp ((takeWhile_eq_filter_iff _ l).mp heq) hij
      (decide_eq_true (by omega))
    have hle := of_decide_eq_true hpair
    omega
  · rintro ⟨hbelow, horder⟩ r hr
    rw [hcut hbelow r hr]
    refine (takeWhile_eq_filter_iff _ l).mpr ?_
    refine List.pairwise_iff_forall_sublist.mpr fun {i j} hij hdue => decide_eq_true ?_
    have hj' := hbelow j (hij.subset (by simp))
    have hdue := of_decide_eq_true hdue
    have hle := List.pairwise_iff_forall_sublist.mp hrise hij
    have hheld := List.pairwise_iff_forall_sublist.mp horder hij
    have heffi : effectAt log anchor timing i = _ := effectAt_cases i
    have heffj : effectAt log anchor timing j = _ := effectAt_cases j
    cases hi : (rasterEvent log i).isSpritePointer with
    | false =>
        rw [hi, if_neg Bool.false_ne_true] at heffi
        split at heffj <;> omega
    | true =>
        cases hj : (rasterEvent log j).isSpritePointer with
        | true =>
            rw [hi, if_pos rfl] at heffi
            rw [hj, if_pos rfl] at heffj
            omega
        | false =>
            rw [hi, if_pos rfl] at heffi
            rw [hj, if_neg Bool.false_ne_true] at heffj
            have hne : ¬(lineAt log anchor timing i = lineAt log anchor timing j) := fun heq =>
              hheld ⟨hi, hj, heq, by omega⟩
            omega

end Timing

end Rows

end VICRasterTimeline

def VICRasterReplayBand.covers (band : VICRasterReplayBand) (r : ℕ) : Prop :=
  band.rows.1 ≤ r ∧ r < band.rows.1 + band.rows.2

namespace VICRasterReplay

variable (s : VICRasterReplay) (input : BuildInput) (log : VICLog)

/-- The numbers of the events of the drawn frame. -/
def drawnEvents : List (BitVec 32) :=
  cyclicRange (s.timelineBuild input).2.drawStart (s.timelineBuild input).2.drawEnd

/-- The numbers of the unread events before the drawn frame. -/
def olderEvents : List (BitVec 32) :=
  cyclicRange s.timeline.tail (s.timelineBuild input).2.drawStart

/-- The numbers of the events the build applies before it renders row `r`: those of the
apply ranges of the bands down to the one that covers the row. -/
def appliedEvents (r : ℕ) : List (BitVec 32) :=
  ((s.timelineBuild input).2.bands.takeWhile fun band => decide (band.rows.1 ≤ r)).flatMap
    fun band => cyclicRange band.applyBegin band.applyEnd

/-- The numbers of the events due when row `r` is rendered. -/
def dueEvents (r : ℕ) : List (BitVec 32) :=
  s.olderEvents input ++ eventsDue log input.anchor input.timing (s.drawnEvents input) r

/-- Row `r` is covered, and rendered with exactly the events of `l` applied. -/
def RendersRowWith (plan : VICRasterReplayPlan) (r : ℕ) (l : List (BitVec 32)) : Prop :=
  (∃ band ∈ plan.bands, band.covers r) ∧
    ∀ band ∈ plan.bands, band.covers r → band.state = s.state.applyRange log l

/-- The apply ranges down to row `r` end where the range of its band ends. -/
theorem flatMap_takeWhile_eq {origin a z : BitVec 32} {first last : ℕ}
    {bands : List VICRasterBand} (htiles : Tiles first (bands.map VICRasterBand.rows) last)
    (hchains : Chains origin a bands z) (r : ℕ) (hfirst : first ≤ r) (hlast : r < last) :
    ∃ band ∈ bands,
      (band.rows.1 ≤ r ∧ r < band.rows.1 + band.rows.2) ∧
      cyclicRange origin a ++
          (bands.takeWhile fun band => decide (band.rows.1 ≤ r)).flatMap
            (fun band => cyclicRange band.applyBegin band.applyEnd) =
        cyclicRange origin band.applyEnd := by
  induction bands generalizing first a with
  | nil =>
      rw [List.map_nil, Tiles] at htiles
      omega
  | cons b bands ih =>
      obtain ⟨hb, hpos, hrest⟩ := htiles
      obtain ⟨hbegin, hend, hchain⟩ := hchains
      rw [List.takeWhile_cons_of_pos (by simpa [hb] using hfirst), List.flatMap_cons, hbegin,
        ← List.append_assoc, cyclicRange_append hend]
      by_cases hin : r < first + b.rows.2
      · refine ⟨b, List.mem_cons_self, by omega, ?_⟩
        have hnone : (bands.takeWhile fun band => decide (band.rows.1 ≤ r)) = [] := by
          cases bands with
          | nil => rfl
          | cons c bands =>
              have hc := hrest.1
              exact List.takeWhile_cons_of_neg (by simp; omega)
        rw [hnone, List.flatMap_nil, List.append_nil]
      · obtain ⟨band, hmem, hband, heq⟩ := ih hrest hchain (by omega)
        exact ⟨band, List.mem_cons_of_mem b hmem, hband, heq⟩

variable {s input log}

/-- Each row of a replayed plan is rendered with the events applied down to it. These
are the events due on every row exactly when the drawn frame is in window order. -/
theorem row_states_exact (hresult : (s.build input).2.result = .replay)
    (hfallback : (s.build input).2.fallback = false) (hlog : input.log = some log)
    (hwindow : input.timing.topRaster + input.timing.frameRows.toNat ≤
      input.timing.rasterLines.toNat)
    (hlines : input.timing.rasterLines.toNat < 2 ^ 31)
    (hrows : input.timing.frameRows.toNat < 2 ^ 16) :
    (∀ r < input.timing.frameRows.toNat,
      s.RendersRowWith log (s.build input).2 r (s.appliedEvents input r)) ∧
    ((∀ r < input.timing.frameRows.toNat, s.appliedEvents input r = s.dueEvents input log r) ↔
      InWindowOrder log input.anchor input.timing (s.drawnEvents input)) := by
  obtain ⟨⟨hspec, hpos⟩, hbuild⟩ := replay_of_build hresult hlog hrows
  have hpos : 0 < input.timing.frameRows.toNat :=
    Nat.pos_of_ne_zero fun h => hpos (BitVec.eq_of_toNat_eq h)
  have hbands : (s.build input).2.bands = s.framedBands log (s.timelineBuild input).2 := by
    rw [hbuild] at hfallback ⊢
    exact (replayFrame_eq _ hspec).2.1 hfallback
  have happlied : ∀ r < input.timing.frameRows.toNat,
      ∀ band ∈ (s.timelineBuild input).2.bands,
        band.rows.1 ≤ r → r < band.rows.1 + band.rows.2 →
        cyclicRange s.timeline.tail band.applyEnd = s.olderEvents input ++
          eventsBefore log input.anchor input.timing (s.drawnEvents input) r :=
    fun r _ band hband hr hr' => hspec.applies band hband r hr hr'
  have heq : ∀ r < input.timing.frameRows.toNat, s.appliedEvents input r =
      s.olderEvents input ++
        eventsBefore log input.anchor input.timing (s.drawnEvents input) r := by
    intro r hr
    obtain ⟨band, hmem, hband, hrange⟩ :=
      flatMap_takeWhile_eq hspec.tiles hspec.chains r (Nat.zero_le r) hr
    rw [cyclicRange_self, List.nil_append] at hrange
    exact hrange.trans (happlied r hr band hmem hband.1 hband.2)
  constructor
  · intro r hr
    constructor
    · obtain ⟨span, hspan, hband⟩ := hspec.tiles.exists_span r (Nat.zero_le r) hr
      obtain ⟨band, hmem, rfl⟩ := List.mem_map.mp hspan
      rw [hbands]
      exact ⟨_, List.mem_map_of_mem hmem, hband⟩
    · intro band hmem hcovers
      rw [hbands] at hmem
      obtain ⟨source, hsource, rfl⟩ := List.mem_map.mp hmem
      rw [heq r hr, ← happlied r hr source hsource hcovers.1 hcovers.2]
  · rw [← eventsBefore_eq_eventsDue_iff hwindow hlines hrows (s.drawnEvents input) hpos hspec.lines
      hspec.rise]
    refine forall₂_congr fun r hr => ?_
    rw [heq r hr, dueEvents, List.append_cancel_left_eq]

/-- Two border-colour writes, tagged with their raster lines. -/
def borderLog (first second : Byte) : VICLog := fun n =>
  if n = 0 then ⟨0, 0x4020, 2, first⟩ else ⟨63, 0x4020, 6, second⟩

/-- A PAL frame with two writes in a log whose last event is more than a frame old. -/
def borderInput (first second : Byte) : BuildInput where
  log := some (borderLog first second)
  head := 2
  now := 100000
  anchor := 1#64 <<< 63
  generation := 0
  timing := palTiming
  live := ⟨none, 0, none⟩

/-- A primed replay with cleared registers and nothing read. -/
def cleared : VICRasterReplay := ⟨⟨0, true⟩, construct.state, 0, true⟩

theorem row_states_exact_border :
    (cleared.build (borderInput 60 200)).2.result = .replay ∧
      ∀ r < (borderInput 60 200).timing.frameRows.toNat,
        cleared.appliedEvents (borderInput 60 200) r =
          cleared.dueEvents (borderInput 60 200) (borderLog 60 200) r := by
  have hresult : (cleared.build (borderInput 60 200)).2.result = .replay := by decide +kernel
  have hfallback : (cleared.build (borderInput 60 200)).2.fallback = false := by decide +kernel
  have horder : InWindowOrder (borderLog 60 200) (borderInput 60 200).anchor
      (borderInput 60 200).timing (cleared.drawnEvents (borderInput 60 200)) :=
    ⟨List.forall_iff_forall_mem.mp (by decide +kernel), by decide +kernel⟩
  exact ⟨hresult, (row_states_exact hresult hfallback rfl (by decide) (by decide)
    (by decide)).2.mpr horder⟩

/-- A write in the top border is kept out of every row, and the later write on line 200
with it. -/
theorem topBorder_write_lost :
    ¬∀ (s : VICRasterReplay) (input : BuildInput) (log : VICLog),
      (s.build input).2.result = .replay → (s.build input).2.fallback = false →
      input.log = some log →
      input.timing.topRaster + input.timing.frameRows.toNat ≤ input.timing.rasterLines.toNat →
      ∀ r < input.timing.frameRows.toNat,
        s.RendersRowWith log (s.build input).2 r (s.dueEvents input log r) := by
  intro h
  have hresult : (cleared.build (borderInput 5 200)).2.result = .replay := by decide +kernel
  have hfallback : (cleared.build (borderInput 5 200)).2.fallback = false := by decide +kernel
  have hdrawn : ∀ band ∈ (cleared.build (borderInput 5 200)).2.bands,
      band.state.vic 0x20 = 0 := by decide +kernel
  have hdue : (cleared.state.applyRange (borderLog 5 200)
      (cleared.dueEvents (borderInput 5 200) (borderLog 5 200) 271)).vic 0x20 = 6 := by
    decide +kernel
  obtain ⟨⟨band, hmem, hcovers⟩, hstate⟩ :=
    h cleared (borderInput 5 200) _ hresult hfallback rfl (by decide) 271 (by decide)
  rw [← hstate band hmem hcovers, hdrawn band hmem] at hdue
  exact absurd hdue (by decide)

end VICRasterReplay

end ScpuEmu
