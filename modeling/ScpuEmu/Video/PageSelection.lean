import ScpuEmu.Video.RasterReplay
import Mathlib.Data.Finset.Card
import Mathlib.Data.Finset.Filter

/-!
# The selected pages

The page count is the number of bits set in the mask, a selected range adds
exactly the pages it touches, and one band adds at most 44: four for the screen
matrix, thirty-two for the bitmap and one for each sprite.
-/

namespace ScpuEmu

open Library

namespace PageSelection

/-- The page count is the number of bits set in the mask. -/
def Counted (p : PageSelection) : Prop :=
  p.pageCount = ((Finset.range 256).filter fun page => p.pageMask.test page = true).card

theorem counted_empty : empty.Counted := by
  simp [Counted, empty]

theorem test_selectPage (p : PageSelection) (page m : ℕ) :
    (p.selectPage page).pageMask.test m = (decide (page % 256 = m) || p.pageMask.test m) := by
  rw [selectPage]
  split
  · rename_i hset
    by_cases hm : page % 256 = m
    · subst hm
      simp [hset]
    · simp [hm]
  · exact WordBitmap.test_insert (by decide) _ _ _

theorem Counted.selectPage {p : PageSelection} (h : p.Counted) (page : ℕ) :
    (p.selectPage page).Counted := by
  rw [PageSelection.selectPage]
  split
  · exact h
  · rename_i hclear
    have hinsert : ((Finset.range 256).filter fun m =>
        (p.pageMask.insert (page % 256)).test m = true) =
          insert (page % 256)
            ((Finset.range 256).filter fun m => p.pageMask.test m = true) := by
      ext m
      rw [Finset.mem_filter, WordBitmap.test_insert (by decide), Finset.mem_insert,
        Finset.mem_filter, Bool.or_eq_true, decide_eq_true_iff, Finset.mem_range]
      have hlt : page % 256 < 256 := Nat.mod_lt _ (by decide)
      constructor
      · rintro ⟨hm, heq | htest⟩
        · exact .inl heq.symm
        · exact .inr ⟨hm, htest⟩
      · rintro (rfl | ⟨hm, htest⟩)
        · exact ⟨hlt, .inl rfl⟩
        · exact ⟨hm, .inr htest⟩
    rw [Counted, hinsert, Finset.card_insert_of_notMem (by simp [hclear]), ← h]

theorem Counted.foldl {p : PageSelection} (h : p.Counted) (l : List ℕ) :
    (l.foldl PageSelection.selectPage p).Counted := by
  induction l generalizing p with
  | nil => exact h
  | cons page l ih => exact ih (h.selectPage page)

theorem pageCount_selectPage_le (p : PageSelection) (page : ℕ) :
    (p.selectPage page).pageCount ≤ p.pageCount + 1 := by
  rw [selectPage]
  split
  · exact Nat.le_succ _
  · exact le_refl _

theorem pageCount_foldl_le (p : PageSelection) (l : List ℕ) :
    (l.foldl selectPage p).pageCount ≤ p.pageCount + l.length := by
  induction l generalizing p with
  | nil => exact le_refl _
  | cons page l ih =>
      have hstep := p.pageCount_selectPage_le page
      have hrest := ih (p.selectPage page)
      rw [List.foldl_cons, List.length_cons]
      omega

theorem test_foldl_selectPage (p : PageSelection) (l : List ℕ) (m : ℕ) :
    (l.foldl selectPage p).pageMask.test m =
      (decide (m ∈ l.map (· % 256)) || p.pageMask.test m) := by
  induction l generalizing p with
  | nil => simp
  | cons page l ih =>
      rw [List.foldl_cons, ih, test_selectPage, List.map_cons]
      by_cases hm : page % 256 = m
      · simp [hm]
      · simp [hm, Ne.symm hm]

/-- A range that ends within RAM selects the pages from its first to its last byte. -/
theorem selectRange_eq (p : PageSelection) (address count : ℕ) (hcount : count ≠ 0)
    (hend : address + count ≤ 0x10000) :
    p.selectRange address count =
      (List.range' (address / 256) ((address + count - 1) / 256 + 1 - address / 256)).foldl
        selectPage p := by
  have hfirst : address % 0x10000 = address := Nat.mod_eq_of_lt (by omega)
  have hlast : (address + count - 1) % 0x10000 = address + count - 1 :=
    Nat.mod_eq_of_lt (by omega)
  have hle : address / 256 ≤ (address + count - 1) / 256 := Nat.div_le_div_right (by omega)
  rw [selectRange, if_neg hcount, hfirst, hlast, if_pos hle]

theorem Counted.selectRange {p : PageSelection} (h : p.Counted) (address count : ℕ) :
    (p.selectRange address count).Counted := by
  rw [PageSelection.selectRange]
  split
  · exact h
  · dsimp only
    split
    · exact h.foldl _
    · exact (h.foldl _).foldl _

/-- The page of each byte of the range, and no other, is selected. -/
theorem test_selectRange (p : PageSelection) (address count m : ℕ) (hcount : count ≠ 0)
    (hend : address + count ≤ 0x10000) :
    (p.selectRange address count).pageMask.test m =
      (decide (address / 256 ≤ m ∧ m ≤ (address + count - 1) / 256) || p.pageMask.test m) := by
  rw [selectRange_eq p address count hcount hend, test_foldl_selectPage]
  congr 1
  refine decide_eq_decide.mpr ?_
  rw [List.mem_map]
  constructor
  · rintro ⟨page, hpage, rfl⟩
    rw [List.mem_range'_1] at hpage
    omega
  · rintro ⟨hlow, hhigh⟩
    refine ⟨m, List.mem_range'_1.mpr (by omega), ?_⟩
    omega

theorem pageCount_selectRange_le (p : PageSelection) (address count : ℕ) (hcount : count ≠ 0)
    (hend : address + count ≤ 0x10000) :
    (p.selectRange address count).pageCount ≤
      p.pageCount + ((address + count - 1) / 256 + 1 - address / 256) := by
  rw [selectRange_eq p address count hcount hend]
  refine (p.pageCount_foldl_le _).trans ?_
  rw [List.length_range']

end PageSelection

namespace VICRasterReplayBand

variable (band : VICRasterReplayBand)

theorem toNat_and_three (b : Byte) : (b &&& 3).toNat ≤ 3 := by
  rw [BitVec.toNat_and]
  exact Nat.and_le_right

theorem bankBase_le : band.bankBase ≤ 3 * 0x4000 :=
  Nat.mul_le_mul_right _ (toNat_and_three _)

theorem screenBase_le : band.screenBase ≤ band.bankBase + 15 * 1024 := by
  have hmatrix : (band.state.vic 0x18).toNat / 16 ≤ 15 := by
    have hlt := (band.state.vic 0x18).isLt
    omega
  exact Nat.add_le_add_left (Nat.mul_le_mul_right _ hmatrix) _

theorem bitmapBase_le : band.bitmapBase ≤ band.bankBase + 0x2000 := by
  rw [bitmapBase]
  split <;> omega

theorem charset_le : band.charset ≤ 14 * 1024 := by
  refine Nat.mul_le_mul_right _ ?_
  rw [BitVec.toNat_and]
  exact Nat.and_le_right

theorem dvd_bankBase : 256 ∣ band.bankBase := by
  rw [bankBase]
  omega

theorem dvd_screenBase : 256 ∣ band.screenBase := by
  rw [screenBase, bankBase]
  omega

theorem dvd_bitmapBase : 256 ∣ band.bitmapBase := by
  rw [bitmapBase, bankBase]
  split <;> omega

/-- The sprite pointer byte of the live matrix. -/
def livePointer (ram : Addr → Byte) (sprite : ℕ) : Byte :=
  ram (BitVec.ofNat 16 (band.screenBase + 0x3F8 + sprite))

/-- Where the shape with this pointer begins. -/
def shapeBase (pointer : Byte) : ℕ := band.bankBase + pointer.toNat * 64

theorem shapeBase_le (pointer : Byte) : band.shapeBase pointer + 64 ≤ 0x10000 := by
  have hbank := band.bankBase_le
  have hpointer := pointer.isLt
  rw [shapeBase]
  omega

/-- A shape lies in one page. -/
theorem shapeBase_page (pointer : Byte) :
    (band.shapeBase pointer + 64 - 1) / 256 = band.shapeBase pointer / 256 := by
  obtain ⟨k, hk⟩ := band.dvd_bankBase
  rw [shapeBase, hk]
  omega

section Counts

variable {band} {p : PageSelection}

theorem counted_selectGraphics (h : p.Counted) : (band.selectGraphics p).Counted := by
  rw [selectGraphics]
  split
  · exact h
  · split
    · exact h.selectRange _ _
    · split
      · exact h
      · exact h.selectRange _ _

theorem counted_selectSprite (h : p.Counted) (ram : Addr → Byte) (sprite : ℕ) :
    (band.selectSprite ram p sprite).Counted := by
  rw [selectSprite]
  split
  · exact h.selectRange _ _
  · exact h

theorem counted_selectPages (h : p.Counted) (ram : Option (Addr → Byte)) :
    (band.selectPages ram p).Counted := by
  have hsprites : ∀ (ram : Addr → Byte) (l : List ℕ) (p : PageSelection), p.Counted →
      (l.foldl (band.selectSprite ram) p).Counted := by
    intro ram l
    induction l with
    | nil => exact fun _ hp => hp
    | cons sprite l ih => exact fun p hp => ih _ (counted_selectSprite hp ram sprite)
  have hmatrix : (band.selectGraphics (p.selectRange band.screenBase 1024)).Counted :=
    counted_selectGraphics (h.selectRange band.screenBase 1024)
  rw [selectPages]
  split
  · exact h
  · cases ram with
    | none => exact hmatrix
    | some ram => exact hsprites ram (List.range 8) _ hmatrix

theorem pageCount_selectGraphics_le (band : VICRasterReplayBand) (p : PageSelection) :
    (band.selectGraphics p).pageCount ≤ p.pageCount + 32 := by
  have hbank := band.bankBase_le
  have hbitmap := band.bitmapBase_le
  have hcharset := band.charset_le
  obtain ⟨k, hk⟩ := band.dvd_bitmapBase
  rw [selectGraphics]
  split
  · exact Nat.le_add_right _ _
  · split
    · have hrange := p.pageCount_selectRange_le band.bitmapBase 8192 (by decide) (by omega)
      omega
    · split
      · exact Nat.le_add_right _ _
      · have hrange := p.pageCount_selectRange_le (band.bankBase + band.charset) 2048 (by decide)
          (by omega)
        omega

theorem pageCount_selectSprite_le (band : VICRasterReplayBand) (ram : Addr → Byte)
    (p : PageSelection) (sprite : ℕ) :
    (band.selectSprite ram p sprite).pageCount ≤ p.pageCount + 1 := by
  rw [selectSprite]
  split
  · have hpage := band.shapeBase_page (band.livePointer ram sprite)
    have hrange := p.pageCount_selectRange_le (band.shapeBase (band.livePointer ram sprite)) 64
      (by decide) (band.shapeBase_le _)
    rw [hpage] at hrange
    refine hrange.trans ?_
    omega
  · exact Nat.le_succ _

/-- One band selects at most 44 pages. -/
theorem pageCount_selectPages_le (band : VICRasterReplayBand) (ram : Option (Addr → Byte))
    (p : PageSelection) : (band.selectPages ram p).pageCount ≤ p.pageCount + 44 := by
  have hsprites : ∀ (ram : Addr → Byte) (l : List ℕ) (p : PageSelection),
      (l.foldl (band.selectSprite ram) p).pageCount ≤ p.pageCount + l.length := by
    intro ram l
    induction l with
    | nil => exact fun _ => le_refl _
    | cons sprite l ih =>
        intro p
        have hstep := pageCount_selectSprite_le band ram p sprite
        have hrest := ih (band.selectSprite ram p sprite)
        rw [List.foldl_cons, List.length_cons]
        omega
  have hbank := band.bankBase_le
  have hscreen := band.screenBase_le
  obtain ⟨k, hk⟩ := band.dvd_screenBase
  have hmatrix := p.pageCount_selectRange_le band.screenBase 1024 (by decide) (by omega)
  have hgraphics := pageCount_selectGraphics_le band (p.selectRange band.screenBase 1024)
  rw [selectPages]
  split
  · exact Nat.le_add_right _ _
  · cases ram with
    | none =>
        change (band.selectGraphics _).pageCount ≤ _
        omega
    | some ram =>
        have hall := hsprites ram (List.range 8)
          (band.selectGraphics (p.selectRange band.screenBase 1024))
        rw [List.length_range] at hall
        change ((List.range 8).foldl (band.selectSprite ram) _).pageCount ≤ _
        omega

end Counts

end VICRasterReplayBand

namespace VICRasterReplay

theorem counted_collectPages (bands : List VICRasterReplayBand) (ram : Option (Addr → Byte)) :
    (collectPages bands ram).Counted := by
  have hfold : ∀ p : PageSelection, p.Counted →
      (bands.foldl (fun p band => band.selectPages ram p) p).Counted := by
    induction bands with
    | nil => exact fun _ hp => hp
    | cons band bands ih =>
        exact fun p hp => ih _ (VICRasterReplayBand.counted_selectPages hp ram)
  exact hfold _ PageSelection.counted_empty

/-- A static plan always fits. -/
theorem pageCount_makeStaticPlan_le (result : VICRasterFrameResult) (input : BuildInput)
    (fallback : Bool) :
    (makeStaticPlan result input fallback).pages.pageCount ≤ vicRasterMaxSnapshotPages := by
  refine (VICRasterReplayBand.pageCount_selectPages_le _ _ PageSelection.empty).trans ?_
  decide

theorem counted_replayFrame (s : VICRasterReplay) (log : VICLog) (input : BuildInput)
    (timeline : VICRasterTimeline) (frame : VICRasterFrame) :
    (s.replayFrame log input timeline frame).2.pages.Counted := by
  rw [replayFrame]
  split <;> exact counted_collectPages _ _

/-- A replayed plan keeps to the cap, by falling back to the static plan. -/
theorem pageCount_replayFrame_le (s : VICRasterReplay) (log : VICLog) (input : BuildInput)
    (timeline : VICRasterTimeline) (frame : VICRasterFrame) :
    (s.replayFrame log input timeline frame).2.pages.pageCount ≤ vicRasterMaxSnapshotPages := by
  rw [replayFrame]
  split
  · assumption
  · exact pageCount_makeStaticPlan_le _ _ _

end VICRasterReplay

end ScpuEmu
