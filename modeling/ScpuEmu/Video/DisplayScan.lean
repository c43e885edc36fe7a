import ScpuEmu.Video.Bands
import ScpuEmu.Video.DisplayProgram

/-!
# What a scan can find

The scan of the unread events reads slots that may change under it. Whatever it reads,
the frame it draws ends between the tail and the head, and the apply ranges of its bands
follow one another from the tail to that end.
-/

namespace ScpuEmu

open Library AtomicProgram

/-- The questions of a scan. -/
def Scans : VICQuery → Prop
  | .slot false _ => True
  | _ => False

namespace VICRasterTimeline

variable {anchor : BitVec 64} {timing : VICRasterTiming}

/-- Chained apply ranges end no earlier than they begin. -/
theorem Chains.le {origin a z : BitVec 32} {bands : List VICRasterBand}
    (h : Chains origin a bands z) : Between origin a z := by
  induction bands generalizing a with
  | nil =>
      obtain rfl : a = z := h
      exact le_refl _
  | cons band bands ih => exact between_trans h.2.1 (ih h.2.2)

/-- A scan has passed `count` events from the tail. -/
structure ScanReach (tail : BitVec 32) (count : ℕ) (s : Scan) : Prop where
  previous_le : Between tail s.previousStart s.frameStart
  start_le : (s.frameStart - tail).toNat ≤ count

theorem ScanReach.next {tail : BitVec 32} {count : ℕ} {s : Scan} (h : ScanReach tail count s)
    {i : BitVec 32} (hi : (i - tail).toNat = count) (event : VICRegWrite) (line : ℤ) :
    ScanReach tail (count + 1) (s.next timing tail i event line) := by
  rw [Scan.next]
  split
  · exact ⟨h.start_le.trans hi.ge, hi.le.trans (Nat.le_succ count)⟩
  · exact ⟨h.previous_le, h.start_le.trans (Nat.le_succ count)⟩

theorem yields_scanFramesM {tail head i : BitVec 32} {s : Scan} (hi : Between tail i head)
    (h : ScanReach tail (i - tail).toNat s) :
    (scanFramesM anchor timing tail (cyclicRange i head) s).Yields Scans
      (fun result => ∀ s, result = some s → ScanReach tail (head - tail).toNat s) := by
  induction i, hi using between_induction generalizing s with
  | last =>
      rw [cyclicRange_self]
      exact yields_pure fun s' hs' => Option.some.inj hs' ▸ h
  | step i hi hne ih =>
      rw [cyclicRange_cons hne, scanFramesM]
      refine yields_query_bind trivial fun event => ?_
      dsimp only
      split
      · exact yields_pure fun s' hs' => by cases hs'
      · refine ih ?_
        rw [(between_succ hi hne).2]
        exact h.next rfl event _

/-- The bands so far, when the loop has come to the event `i`. -/
structure BandReach (tail i : BitVec 32) (s : BandState) : Prop where
  chains : Chains tail tail s.bands s.applyBegin
  begin_le : Between tail s.applyBegin i

theorem BandReach.next {tail i j : BitVec 32} {s : BandState} (h : BandReach tail i s)
    (hij : Between tail i j) (event : VICRegWrite) :
    BandReach tail j (s.next (fun _ => event) anchor timing i) := by
  rw [BandState.next]
  split
  · exact ⟨h.chains.concat _ rfl h.begin_le, hij⟩
  · exact ⟨h.chains, h.begin_le.trans hij⟩

theorem BandReach.close (timing : VICRasterTiming) {tail i : BitVec 32} {s : BandState}
    (h : BandReach tail i s) :
    BandReach tail i (s.close timing i) := by
  rw [BandState.close]
  split
  · exact ⟨h.chains.concat _ rfl h.begin_le, between_right tail i⟩
  · exact h

theorem yields_bandLoopM {tail drawStart drawEnd : BitVec 32} (h : Between tail drawStart drawEnd) :
    (bandLoopM anchor timing tail drawStart drawEnd).Yields Scans (BandReach tail drawEnd) := by
  refine yields_foldlM_cyclicRange (BandReach tail) (a := tail) ?_ h ?_
  · intro i s hi hne hs
    refine yields_query_bind trivial fun event => yields_pure ?_
    exact hs.next (by rw [Between, (between_succ hi hne).2]; exact Nat.le_succ _) event
  · exact ⟨rfl, between_left tail drawStart⟩

/-- Whatever it reads, the timeline draws events between its tail and the head. -/
structure Draws (t : VICRasterTimeline) (head : BitVec 32)
    (framed : VICRasterTimeline × VICRasterFrame) : Prop where
  hold : framed.2.result = .hold → framed.1 = t
  tail : framed.2.result = .replay → framed.1.tail = framed.2.finishEnd
  chains : framed.2.result = .replay → Chains t.tail t.tail framed.2.bands framed.2.finishBegin
  finish : framed.2.result = .replay → Between t.tail framed.2.finishBegin framed.2.finishEnd
  finish_le : framed.2.result = .replay → Between t.tail framed.2.finishEnd head
  near : framed.2.result = .replay → (head - t.tail).toNat ≤ vicLogSize

theorem draws_snapshot (t : VICRasterTimeline) (head head' : BitVec 32) (bands : List VICRasterBand)
    (t' : VICRasterTimeline) : t.Draws head (t', snapshotFrame head' bands) := by
  refine ⟨?_, ?_, ?_, ?_, ?_, ?_⟩
  all_goals exact fun h => nomatch h

/-- A frame that the scan can choose. -/
theorem between_of_chooseFrame {log : VICLog} {tail head now a b : BitVec 32} {s : Scan}
    (h : ScanReach tail (head - tail).toNat s)
    (hchoose : chooseFrame log timing tail head now s = some (a, b)) :
    Between tail a b ∧ Between tail b head := by
  rw [chooseFrame] at hchoose
  split at hchoose
  · rw [Option.some.injEq, Prod.mk.injEq] at hchoose
    obtain ⟨rfl, rfl⟩ := hchoose
    exact ⟨h.start_le, between_right _ _⟩
  · split at hchoose
    · rw [Option.some.injEq, Prod.mk.injEq] at hchoose
      obtain ⟨rfl, rfl⟩ := hchoose
      exact ⟨h.previous_le, h.start_le⟩
    · cases hchoose

theorem yields_chooseFrameM {tail head : BitVec 32} (now : BitVec 32) {s : Scan}
    (h : ScanReach tail (head - tail).toNat s) :
    (chooseFrameM timing tail head now s).Yields Scans
      (fun chosen => ∀ a b, chosen = some (a, b) → Between tail a b ∧ Between tail b head) :=
  yields_query_bind trivial fun _ => yields_pure fun _ _ => between_of_chooseFrame h

theorem yields_buildM (t : VICRasterTimeline) (head now : BitVec 32) :
    (buildM anchor timing t head now).Yields Scans (t.Draws head) := by
  rw [buildM]
  split
  · exact yields_pure (draws_snapshot t head _ _ _)
  · split
    · exact yields_pure (draws_snapshot t head _ _ _)
    · next hprimed =>
        have hnear : (head - t.tail).toNat ≤ vicLogSize :=
          Nat.le_of_not_lt fun hlost => hprimed (.inr hlost)
        split
        · next hhead =>
            refine yields_pure ⟨fun h => (by cases h), fun _ => rfl, ?_, ?_, ?_, fun _ => hnear⟩
            · exact fun _ => ⟨rfl, between_left _ _, rfl⟩
            · exact fun _ => between_left _ _
            · exact fun _ => between_left _ _
        · have hscan : ScanReach t.tail (t.tail - t.tail).toNat ⟨t.tail, t.tail, -1, 0⟩ :=
            ⟨between_left _ _, le_refl _⟩
          refine (yields_scanFramesM (between_left t.tail head) hscan).bind fun scan hscan => ?_
          cases scan with
          | none => exact yields_pure (draws_snapshot t head _ _ _)
          | some scan =>
              refine (yields_chooseFrameM now (hscan scan rfl)).bind fun chosen hchosen => ?_
              cases chosen with
              | none =>
                  refine yields_pure ⟨fun _ => rfl, ?_, ?_, ?_, ?_, ?_⟩
                  all_goals
                    intro h
                    cases h
              | some ends =>
                  obtain ⟨hstart, hend⟩ := hchosen _ _ rfl
                  refine (yields_bandLoopM hstart).bind fun s hs => yields_pure ?_
                  have hclose := hs.close timing
                  exact ⟨fun h => (by cases h), fun _ => rfl, fun _ => hclose.chains,
                    fun _ => hclose.begin_le, fun _ => hend, fun _ => hnear⟩

end VICRasterTimeline

theorem RasterState.yields_applyRangeM (s : RasterState) {a b : BitVec 32} :
    (s.applyRangeM false (cyclicRange a b)).Yields Scans fun _ => True :=
  yields_foldlM_cyclicRange (a := a) (fun _ _ => True)
    (fun _ _ _ _ _ => yields_query_bind trivial fun _ => yields_pure trivial) (between_left a b)
    trivial

theorem VICRasterTimeline.yields_yScrollVariesInDisplayM (anchor : BitVec 64)
    (timing : VICRasterTiming) (frame : VICRasterFrame) (d011 : Byte) :
    (yScrollVariesInDisplayM anchor timing frame d011).Yields Scans fun _ => True := by
  have hloop : ∀ l yScroll, (yScrollVariesLoopM anchor timing l yScroll).Yields Scans
      fun _ => True := by
    intro l
    induction l with
    | nil => exact fun _ => trivial
    | cons i l ih =>
        intro yScroll
        rw [yScrollVariesLoopM]
        refine yields_query_bind trivial fun event => ?_
        dsimp only
        split
        · exact ih _
        · split
          · exact yields_pure trivial
          · exact ih _
  rw [yScrollVariesInDisplayM]
  split
  · exact yields_pure trivial
  · exact hloop _ _

end ScpuEmu
