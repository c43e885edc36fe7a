import ScpuEmu.Video.RasterTimeline
import ScpuEmu.Library.Tiling
import Mathlib.Data.List.TakeWhile

/-!
# What a completed frame looks like

The scan cuts the unread events into frames whose raster lines do not fall, and
the band loop cuts one frame into bands. The bands tile the rows of the output,
their apply ranges follow one another from the old tail on, and the events
applied before a row is rendered are those up to the first one that shows on a
later row.
-/

namespace ScpuEmu

open Library

/-- The output rows of a band, as a span. -/
def VICRasterBand.rows (band : VICRasterBand) : ℕ × ℕ :=
  (band.firstRow.toNat, band.rowCount.toNat)

namespace VICRasterTimeline

/-- The apply ranges follow one another from `a` to `z`, counting up from `origin`. -/
def Chains (origin : BitVec 32) : BitVec 32 → List VICRasterBand → BitVec 32 → Prop
  | a, [], z => a = z
  | a, band :: bands, z =>
      band.applyBegin = a ∧ Between origin a band.applyEnd ∧ Chains origin band.applyEnd bands z

theorem Chains.concat {origin a z : BitVec 32} {bands : List VICRasterBand}
    (h : Chains origin a bands z) (band : VICRasterBand) (hbegin : band.applyBegin = z)
    (hend : Between origin z band.applyEnd) :
    Chains origin a (bands ++ [band]) band.applyEnd := by
  induction bands generalizing a with
  | nil =>
      rw [Chains] at h
      subst h
      exact ⟨hbegin, hend, rfl⟩
  | cons b bands ih => exact ⟨h.1, h.2.1, ih h.2.2⟩

/-- Chained apply ranges make up the range from the first point to the last. -/
theorem Chains.flatMap_eq {origin a z : BitVec 32} {bands : List VICRasterBand}
    (h : Chains origin a bands z) :
    cyclicRange origin a ++
        bands.flatMap (fun band => cyclicRange band.applyBegin band.applyEnd) =
      cyclicRange origin z := by
  induction bands generalizing a with
  | nil =>
      rw [Chains] at h
      simp [h]
  | cons b bands ih =>
      obtain ⟨hbegin, hend, hrest⟩ := h
      rw [List.flatMap_cons, ← List.append_assoc, hbegin, cyclicRange_append hend]
      exact ih hrest

section Scan

variable (log : VICLog) (anchor : BitVec 64) (timing : VICRasterTiming)

/-- The raster line of the event with number `i`. -/
def lineAt (i : BitVec 32) : ℤ := lineOfEvent anchor timing (rasterEvent log i)

/-- The output row of the event with number `i`. -/
def rowAt (i : BitVec 32) : ℕ := rowOfEvent anchor timing (rasterEvent log i)

/-- The lines of these events do not fall. -/
def LinesRise (l : List (BitVec 32)) : Prop :=
  l.Pairwise fun i j => lineAt log anchor timing i ≤ lineAt log anchor timing j

variable {log anchor timing}

theorem rowAt_le (i : BitVec 32) : rowAt log anchor timing i ≤ timing.frameRows.toNat := by
  have hrows : timing.frameRows.toInt ≤ timing.frameRows.toNat := by
    rw [BitVec.toInt_eq_toNat_cond]
    split <;> omega
  have hclamp : ∀ row, clampRow timing row ≤ timing.frameRows.toNat := by
    intro row
    rw [clampRow]
    split
    · exact Nat.zero_le _
    · split
      · exact le_refl _
      · omega
  rw [rowAt, rowOfEvent]
  split
  · exact le_refl _
  · exact hclamp _

/-- Where the scan stands after the events `pre`: they end with one whole frame and
the open one, and lines do not fall in either. -/
structure ScanInv (log : VICLog) (anchor : BitVec 64) (timing : VICRasterTiming)
    (tail head : BitVec 32) (old mid new : List (BitVec 32)) (s : Scan) : Prop where
  old_eq : old = cyclicRange tail s.previousStart
  mid_eq : old ++ mid = cyclicRange tail s.frameStart
  start_le : Between tail s.frameStart head
  mid_rise : LinesRise log anchor timing mid
  new_rise : LinesRise log anchor timing new
  new_le : ∀ i ∈ new, lineAt log anchor timing i ≤ s.previousLine

theorem scanFrames_spec {tail head : BitVec 32} (rest old mid new : List (BitVec 32)) (s s' : Scan)
    (hsplit : cyclicRange tail head = old ++ mid ++ new ++ rest)
    (h : ScanInv log anchor timing tail head old mid new s)
    (hs : scanFrames log anchor timing tail rest s = some s') :
    (∃ old' mid' new', cyclicRange tail head = old' ++ mid' ++ new' ∧
      ScanInv log anchor timing tail head old' mid' new' s') ∧
      ∀ i ∈ rest, 0 ≤ lineAt log anchor timing i := by
  induction rest generalizing old mid new s with
  | nil =>
      rw [scanFrames, Option.some.injEq] at hs
      subst hs
      rw [List.append_nil] at hsplit
      exact ⟨⟨old, mid, new, hsplit, h⟩, by simp⟩
  | cons i rest ih =>
      rw [scanFrames] at hs
      split at hs
      · cases hs
      · rename_i hline
        have hline : 0 ≤ lineAt log anchor timing i := not_lt.mp hline
        obtain ⟨hpre, hbetween⟩ := eq_cyclicRange_of_append hsplit
        have hnext : ∀ old' mid' new', old' ++ mid' ++ new' = old ++ mid ++ new ++ [i] →
            ScanInv log anchor timing tail head old' mid' new'
              (s.next timing tail i (rasterEvent log i)
                (lineOfEvent anchor timing (rasterEvent log i))) →
            (∃ old' mid' new', cyclicRange tail head = old' ++ mid' ++ new' ∧
              ScanInv log anchor timing tail head old' mid' new' s') ∧
              ∀ j ∈ i :: rest, 0 ≤ lineAt log anchor timing j := by
          intro old' mid' new' heq hinv
          have hsplit' : cyclicRange tail head = old' ++ mid' ++ new' ++ rest := by
            rw [heq, hsplit, List.append_assoc _ [i], List.singleton_append]
          obtain ⟨hfound, hrest⟩ := ih old' mid' new' _ hsplit' hinv hs
          exact ⟨hfound, List.forall_mem_cons.mpr ⟨hline, hrest⟩⟩
        by_cases hnew : i ≠ tail ∧ (lineOfEvent anchor timing (rasterEvent log i) < s.previousLine ∨
            frameCycles timing - timing.cyclesPerLine ≤
              (rasterEvent log i).cycle - s.previousCycle)
        · refine hnext (old ++ mid) new [i] rfl ?_
          rw [Scan.next, if_pos hnew]
          exact ⟨h.mid_eq, hpre, hbetween, h.new_rise, List.pairwise_singleton _ i,
            by simp [lineAt]⟩
        · refine hnext old mid (new ++ [i]) (by rw [List.append_assoc _ new]) ?_
          rw [Scan.next, if_neg hnew]
          have hle : ∀ j ∈ new, lineAt log anchor timing j ≤ lineAt log anchor timing i := by
            intro j hj
            have hne : i ≠ tail := by
              intro heq
              rw [heq, cyclicRange_self] at hpre
              have hnil := (List.append_eq_nil_iff.mp hpre).2
              rw [hnil] at hj
              cases hj
            have hrise : s.previousLine ≤ lineAt log anchor timing i :=
              not_lt.mp fun hlt => hnew ⟨hne, .inl hlt⟩
            exact le_trans (h.new_le j hj) hrise
          refine ⟨h.old_eq, h.mid_eq, h.start_le, h.mid_rise, ?_, ?_⟩
          · exact List.pairwise_append.mpr ⟨h.new_rise, List.pairwise_singleton _ i,
              fun j hj k hk => by rw [List.mem_singleton.mp hk]; exact hle j hj⟩
          · intro j hj
            rcases List.mem_append.mp hj with hj | hj
            · exact hle j hj
            · rw [List.mem_singleton.mp hj]
              exact le_refl _

/-- A chosen frame lies in the unread part of the log, and its lines do not fall. -/
theorem chooseFrame_spec {tail head now : BitVec 32} {s : Scan} {a b : BitVec 32}
    (hs : scanFrames log anchor timing tail (cyclicRange tail head) ⟨tail, tail, -1, 0⟩ = some s)
    (hchoose : chooseFrame log timing tail head now s = some (a, b)) :
    Between tail a b ∧ Between tail b head ∧
      LinesRise log anchor timing (cyclicRange a b) ∧
      ∀ i ∈ cyclicRange a b, 0 ≤ lineAt log anchor timing i := by
  have hinit : ScanInv log anchor timing tail head [] [] [] ⟨tail, tail, -1, 0⟩ :=
    ⟨by simp, by simp, between_left tail head, List.Pairwise.nil, List.Pairwise.nil, by simp⟩
  obtain ⟨⟨old, mid, new, hsplit, hinv⟩, hlines⟩ :=
    scanFrames_spec (cyclicRange tail head) [] [] [] _ s (by simp) hinit hs
  have hstart : Between tail s.previousStart s.frameStart := by
    have hlen := congrArg List.length hinv.mid_eq
    rw [hinv.old_eq, List.length_append, length_cyclicRange, length_cyclicRange] at hlen
    exact Nat.le_of_add_right_le (le_of_eq hlen)
  have hmid : mid = cyclicRange s.previousStart s.frameStart := by
    have heq := hinv.mid_eq
    rw [hinv.old_eq, ← cyclicRange_append hstart] at heq
    exact List.append_cancel_left heq
  have hnew : new = cyclicRange s.frameStart head := by
    rw [hinv.mid_eq, ← cyclicRange_append hinv.start_le] at hsplit
    exact (List.append_cancel_left hsplit).symm
  have hsub : ∀ i, i ∈ mid ∨ i ∈ new → 0 ≤ lineAt log anchor timing i := by
    intro i hi
    refine hlines i ?_
    rw [hsplit]
    rcases hi with hi | hi
    · exact List.mem_append_left _ (List.mem_append_right _ hi)
    · exact List.mem_append_right _ hi
  rw [chooseFrame] at hchoose
  split at hchoose
  · rw [Option.some.injEq, Prod.mk.injEq] at hchoose
    obtain ⟨rfl, rfl⟩ := hchoose
    rw [← hnew]
    exact ⟨hinv.start_le, between_right _ _, hinv.new_rise, fun i hi => hsub i (.inr hi)⟩
  · split at hchoose
    · rw [Option.some.injEq, Prod.mk.injEq] at hchoose
      obtain ⟨rfl, rfl⟩ := hchoose
      rw [← hmid]
      exact ⟨hstart, hinv.start_le, hinv.mid_rise, fun i hi => hsub i (.inl hi)⟩
    · cases hchoose

end Scan

section BandLoop

variable {log : VICLog} {anchor : BitVec 64} {timing : VICRasterTiming}

/-- The events up to the first one that shows below row `r`. -/
def eventsBefore (log : VICLog) (anchor : BitVec 64) (timing : VICRasterTiming)
    (l : List (BitVec 32)) (r : ℕ) : List (BitVec 32) :=
  l.takeWhile fun i => decide (rowAt log anchor timing i ≤ r)

theorem eventsBefore_of_le (l : List (BitVec 32)) (r : ℕ)
    (h : ∀ i ∈ l, rowAt log anchor timing i ≤ r) : eventsBefore log anchor timing l r = l :=
  List.takeWhile_eq_self_iff.mpr fun i hi => decide_eq_true (h i hi)

theorem eventsBefore_append_of_lt (l l' : List (BitVec 32)) (i : BitVec 32) (r : ℕ)
    (h : ∀ j ∈ l, rowAt log anchor timing j ≤ r) (hi : r < rowAt log anchor timing i) :
    eventsBefore log anchor timing (l ++ i :: l') r = l := by
  rw [eventsBefore, List.takeWhile_append_of_pos fun j hj => decide_eq_true (h j hj),
    List.takeWhile_cons_of_neg (by simpa using hi), List.append_nil]

/-- A band is drawn with the events before each of its rows applied. -/
def AppliesEvents (log : VICLog) (anchor : BitVec 64) (timing : VICRasterTiming)
    (tail drawStart drawEnd : BitVec 32) (band : VICRasterBand) : Prop :=
  ∀ r, band.rows.1 ≤ r → r < band.rows.1 + band.rows.2 →
    cyclicRange tail band.applyEnd =
      cyclicRange tail drawStart ++
        eventsBefore log anchor timing (cyclicRange drawStart drawEnd) r

/-- Where the band loop stands after the events `pre` of the frame. -/
structure BandInv (log : VICLog) (anchor : BitVec 64) (timing : VICRasterTiming)
    (tail drawStart drawEnd : BitVec 32) (pre : List (BitVec 32)) (s : BandState) : Prop where
  tiles : Tiles 0 (s.bands.map VICRasterBand.rows) s.bandRow
  chains : Chains tail tail s.bands s.applyBegin
  begin_le : (s.applyBegin - tail).toNat ≤ (drawStart - tail).toNat + pre.length
  row_le : s.bandRow ≤ timing.frameRows.toNat
  rows : ∀ i ∈ pre, rowAt log anchor timing i ≤ s.bandRow
  applies : ∀ band ∈ s.bands, AppliesEvents log anchor timing tail drawStart drawEnd band

variable {tail drawStart drawEnd : BitVec 32}

/-- Closing a band at the point `i`, up to which the events `pre` stand. -/
theorem BandInv.close_band {pre post : List (BitVec 32)} {s : BandState}
    (h : BandInv log anchor timing tail drawStart drawEnd pre s)
    (hrows : timing.frameRows.toNat < 2 ^ 16) (row : ℕ) (i : BitVec 32) (hrow : s.bandRow < row)
    (hle : row ≤ timing.frameRows.toNat) (hsplit : cyclicRange drawStart drawEnd = pre ++ post)
    (hpre : pre = cyclicRange drawStart i) (hstart : Between tail drawStart i)
    (hpost : ∀ r, s.bandRow ≤ r → r < row →
      eventsBefore log anchor timing (pre ++ post) r = pre) :
    let band : VICRasterBand :=
      ⟨BitVec.ofNat 16 s.bandRow, BitVec.ofNat 16 (row - s.bandRow), s.applyBegin, i⟩
    Tiles 0 ((s.bands ++ [band]).map VICRasterBand.rows) row ∧
    Chains tail tail (s.bands ++ [band]) i ∧
      ∀ b ∈ s.bands ++ [band], AppliesEvents log anchor timing tail drawStart drawEnd b := by
  intro band
  have hspan : band.rows = (s.bandRow, row - s.bandRow) := by
    rw [VICRasterBand.rows, BitVec.toNat_ofNat, BitVec.toNat_ofNat, Nat.mod_eq_of_lt (by omega),
      Nat.mod_eq_of_lt (by omega)]
  have hbetween : Between tail s.applyBegin i := by
    have hlen : pre.length = (i - tail).toNat - (drawStart - tail).toNat := by
      rw [hpre, length_cyclicRange, toNat_sub_of_between hstart]
    have hbegin := h.begin_le
    rw [Between] at hstart ⊢
    omega
  refine ⟨?_, h.chains.concat band rfl hbetween, ?_⟩
  · have htiles := h.tiles.concat (row - s.bandRow) (by omega)
    rw [Nat.add_sub_cancel' hrow.le] at htiles
    rwa [List.map_append, List.map_singleton, hspan]
  · intro b hb
    rcases List.mem_append.mp hb with hb | hb
    · exact h.applies b hb
    · rw [List.mem_singleton.mp hb]
      intro r hr hr'
      rw [hspan] at hr hr'
      rw [hsplit, hpost r hr (by omega), hpre]
      exact (cyclicRange_append hstart).symm

theorem BandInv.next {pre rest : List (BitVec 32)} {s : BandState} {i : BitVec 32}
    (h : BandInv log anchor timing tail drawStart drawEnd pre s)
    (hrows : timing.frameRows.toNat < 2 ^ 16)
    (hsplit : cyclicRange drawStart drawEnd = pre ++ i :: rest)
    (hdrawn : Between tail drawStart drawEnd) :
    BandInv log anchor timing tail drawStart drawEnd (pre ++ [i]) (s.next log anchor timing i) := by
  obtain ⟨hpre, hbetween⟩ := eq_cyclicRange_of_append hsplit
  have hstart : Between tail drawStart i := between_of_between_right hdrawn hbetween
  have hrow : rowOfEvent anchor timing (rasterEvent log i) = rowAt log anchor timing i := rfl
  rw [BandState.next, hrow]
  by_cases hlater : s.bandRow < rowAt log anchor timing i
  · rw [if_pos hlater]
    have hpost : ∀ r, s.bandRow ≤ r → r < rowAt log anchor timing i →
        eventsBefore log anchor timing (pre ++ i :: rest) r = pre := fun r hr hr' =>
      eventsBefore_append_of_lt pre rest i r (fun j hj => le_trans (h.rows j hj) hr) hr'
    obtain ⟨htiles, hchains, happlies⟩ := h.close_band hrows _ i hlater (rowAt_le i) hsplit hpre
      hstart hpost
    refine ⟨htiles, hchains, ?_, rowAt_le i, ?_, happlies⟩
    · have hlen := toNat_sub_of_between hstart
      rw [Between] at hstart
      change (i - tail).toNat ≤ _
      rw [List.length_append, hpre, length_cyclicRange]
      omega
    · intro j hj
      rcases List.mem_append.mp hj with hj | hj
      · exact le_trans (h.rows j hj) hlater.le
      · rw [List.mem_singleton.mp hj]
  · rw [if_neg hlater]
    refine ⟨h.tiles, h.chains, ?_, h.row_le, ?_, h.applies⟩
    · rw [List.length_append]
      exact le_trans h.begin_le (Nat.add_le_add_left (Nat.le_add_right _ _) _)
    · intro j hj
      rcases List.mem_append.mp hj with hj | hj
      · exact h.rows j hj
      · rw [List.mem_singleton.mp hj]
        exact not_lt.mp hlater

theorem BandInv.foldl {pre rest : List (BitVec 32)} {s : BandState}
    (h : BandInv log anchor timing tail drawStart drawEnd pre s)
    (hrows : timing.frameRows.toNat < 2 ^ 16)
    (hsplit : cyclicRange drawStart drawEnd = pre ++ rest)
    (hdrawn : Between tail drawStart drawEnd) :
    BandInv log anchor timing tail drawStart drawEnd (pre ++ rest)
      (rest.foldl (BandState.next log anchor timing) s) := by
  induction rest generalizing pre s with
  | nil => simpa using h
  | cons i rest ih =>
      have hsplit' : cyclicRange drawStart drawEnd = (pre ++ [i]) ++ rest := by
        rw [hsplit, List.append_assoc, List.singleton_append]
      have hnext := ih (h.next hrows hsplit hdrawn) hsplit'
      rwa [List.append_assoc, List.singleton_append] at hnext

end BandLoop

/-- What holds of every frame the timeline gives out for replay. -/
structure ReplaySpec (log : VICLog) (anchor : BitVec 64) (timing : VICRasterTiming)
    (tail head : BitVec 32) (frame : VICRasterFrame) : Prop where
  start_le : Between tail frame.drawStart frame.drawEnd
  end_le : Between tail frame.drawEnd head
  finish_le : Between tail frame.finishBegin frame.drawEnd
  finishEnd_eq : frame.finishEnd = frame.drawEnd
  tailAfter_eq : frame.tailAfter = frame.drawEnd
  tiles : Tiles 0 (frame.bands.map VICRasterBand.rows) timing.frameRows.toNat
  chains : Chains tail tail frame.bands frame.finishBegin
  applies : ∀ band ∈ frame.bands,
    AppliesEvents log anchor timing tail frame.drawStart frame.drawEnd band
  rise : LinesRise log anchor timing (cyclicRange frame.drawStart frame.drawEnd)
  lines : ∀ i ∈ cyclicRange frame.drawStart frame.drawEnd, 0 ≤ lineAt log anchor timing i

section Build

variable {log : VICLog} {anchor : BitVec 64} {timing : VICRasterTiming}
variable {tail head drawStart drawEnd : BitVec 32}

/-- The loop and the closing band together. -/
theorem bandLoop_spec (log : VICLog) (anchor : BitVec 64) (hrows : timing.frameRows.toNat < 2 ^ 16)
    (hdrawn : Between tail drawStart drawEnd) :
    let s := (bandLoop log anchor timing tail drawStart drawEnd).close timing drawEnd
    Tiles 0 (s.bands.map VICRasterBand.rows) timing.frameRows.toNat ∧
      Chains tail tail s.bands s.applyBegin ∧
      Between tail s.applyBegin drawEnd ∧
      ∀ band ∈ s.bands, AppliesEvents log anchor timing tail drawStart drawEnd band := by
  have hinit : BandInv log anchor timing tail drawStart drawEnd [] ⟨[], 0, tail⟩ :=
    ⟨rfl, rfl, by simp, Nat.zero_le _, by simp, by simp⟩
  have h := hinit.foldl hrows (List.nil_append _).symm hdrawn
  rw [List.nil_append] at h
  change BandInv log anchor timing tail drawStart drawEnd (cyclicRange drawStart drawEnd)
    (bandLoop log anchor timing tail drawStart drawEnd) at h
  generalize bandLoop log anchor timing tail drawStart drawEnd = s at h
  rw [BandState.close]
  by_cases hlast : s.bandRow < timing.frameRows.toNat
  · rw [if_pos hlast]
    have hpost : ∀ r, s.bandRow ≤ r → r < timing.frameRows.toNat →
        eventsBefore log anchor timing (cyclicRange drawStart drawEnd ++ []) r =
          cyclicRange drawStart drawEnd := by
      intro r hr _
      rw [List.append_nil]
      exact eventsBefore_of_le _ r fun j hj => le_trans (h.rows j hj) hr
    obtain ⟨htiles, hchains, happlies⟩ := h.close_band hrows _ drawEnd hlast (le_refl _)
      (List.append_nil _).symm rfl hdrawn hpost
    exact ⟨htiles, hchains, between_right _ _, happlies⟩
  · rw [if_neg hlast]
    have hfull : s.bandRow = timing.frameRows.toNat := le_antisymm h.row_le (not_lt.mp hlast)
    refine ⟨hfull ▸ h.tiles, h.chains, ?_, h.applies⟩
    have hbegin := h.begin_le
    rw [length_cyclicRange, toNat_sub_of_between hdrawn] at hbegin
    rw [Between] at hdrawn ⊢
    omega

theorem tiles_whole (hrows : timing.frameRows.toNat < 2 ^ 16) (hpos : timing.frameRows ≠ 0)
    (a b : BitVec 32) :
    Tiles 0 [(⟨0, timing.frameRows.setWidth 16, a, b⟩ : VICRasterBand).rows]
      timing.frameRows.toNat := by
  have hcount : (timing.frameRows.setWidth 16).toNat = timing.frameRows.toNat := by
    rw [BitVec.toNat_setWidth]
    exact Nat.mod_eq_of_lt hrows
  have hne : timing.frameRows.toNat ≠ 0 := fun h => hpos (BitVec.eq_of_toNat_eq h)
  rw [VICRasterBand.rows, hcount]
  exact ⟨rfl, Nat.pos_of_ne_zero hne, Nat.zero_add _⟩

/-- Every frame given out for replay meets its specification. -/
theorem build_replay_spec (hrows : timing.frameRows.toNat < 2 ^ 16) (t : VICRasterTimeline)
    (now : BitVec 32) (hresult : (build anchor timing t (some log) head now).2.result = .replay) :
    ReplaySpec log anchor timing t.tail head (build anchor timing t (some log) head now).2 ∧
      (build anchor timing t (some log) head now).1.tail =
        (build anchor timing t (some log) head now).2.drawEnd ∧
      (build anchor timing t (some log) head now).1.primed = t.primed := by
  rw [build] at hresult ⊢
  dsimp only at hresult ⊢
  split at hresult
  · cases hresult
  · rename_i htiming
    rw [if_neg htiming]
    split at hresult
    · cases hresult
    · rename_i hprimed
      rw [if_neg hprimed]
      split at hresult
      · rename_i hempty
        rw [if_pos hempty]
        refine ⟨⟨between_left _ _, between_left _ _, between_left _ _, rfl, rfl,
          tiles_whole hrows (fun h => htiming (.inr (.inr h))) _ _, ?_, ?_, ?_, ?_⟩, rfl, rfl⟩
        · exact ⟨rfl, between_left _ _, rfl⟩
        · intro band hband r _ _
          rw [List.mem_singleton.mp hband]
          simp [eventsBefore]
        · simp [LinesRise]
        · simp
      · rename_i hempty
        rw [if_neg hempty]
        cases hscan : scanFrames log anchor timing t.tail (cyclicRange t.tail head)
            ⟨t.tail, t.tail, -1, 0⟩ with
        | none =>
            rw [hscan] at hresult
            cases hresult
        | some scan =>
            rw [hscan] at hresult
            dsimp only at hresult ⊢
            cases hchoose : chooseFrame log timing t.tail head now scan with
            | none =>
                rw [hchoose] at hresult
                cases hresult
            | some drawn =>
                obtain ⟨a, b⟩ := drawn
                obtain ⟨hstart, hend, hrise, hlines⟩ := chooseFrame_spec hscan hchoose
                obtain ⟨htiles, hchains, hfinish, happlies⟩ := bandLoop_spec log anchor hrows hstart
                exact ⟨⟨hstart, hend, hfinish, rfl, rfl, htiles, hchains, happlies, hrise, hlines⟩,
                  rfl, rfl⟩

/-- A timeline that holds is unchanged. -/
theorem build_hold {t : VICRasterTimeline} {log : Option VICLog} {now : BitVec 32}
    (hresult : (build anchor timing t log head now).2.result = .hold) :
    (build anchor timing t log head now).1 = t := by
  cases log with
  | none => cases hresult
  | some log =>
      rw [build] at hresult ⊢
      dsimp only at hresult ⊢
      split at hresult
      · cases hresult
      · rename_i htiming
        rw [if_neg htiming]
        split at hresult
        · cases hresult
        · rename_i hprimed
          rw [if_neg hprimed]
          split at hresult
          · cases hresult
          · rename_i hempty
            rw [if_neg hempty]
            cases hscan : scanFrames log anchor timing t.tail (cyclicRange t.tail head)
                ⟨t.tail, t.tail, -1, 0⟩ with
            | none =>
                rw [hscan] at hresult
                cases hresult
            | some scan =>
                rw [hscan] at hresult
                dsimp only at hresult ⊢
                cases hchoose : chooseFrame log timing t.tail head now scan with
                | none => rfl
                | some drawn =>
                    rw [hchoose] at hresult
                    cases hresult

end Build

end VICRasterTimeline

end ScpuEmu
