import ScpuEmu.Video.Renderer
import ScpuEmu.Library.LocalFold

/-!
# The sprite sequencer, sprite by sprite

The loops of the sequencer treat the eight sprites independently. In a frame that
is rendered from its first row on, the rows a sprite still has to show follow
from the register files of the rows alone, and an active sprite always has the
row that is drawn inside its height.
-/

namespace ScpuEmu

open Library

/-- What the sequencer knows of one sprite. -/
@[ext]
structure SpriteDMA where
  active : Bool
  expanded : Bool
  y : Byte
  rowsLeft : Byte

def VICRenderSpriteSequencer.sprite (s : VICRenderSpriteSequencer) (n : ℕ) : SpriteDMA :=
  ⟨s.active.getLsbD n, s.expanded.getLsbD n, s.y n, s.rowsLeft n⟩

theorem getLsbD_mask {i n : ℕ} (hi : i < 8) :
    (1#8 <<< i).getLsbD n = decide (n = i) := by
  rw [BitVec.getLsbD_shiftLeft, BitVec.getLsbD_one]
  by_cases hne : n = i
  · simp [hne, hi]
  · simp only [hne, decide_false]
    rcases Nat.lt_or_ge n i with hlt | hge
    · simp [hlt]
    · have hpos : n - i ≠ 0 := by omega
      simp [hpos]

theorem getLsbD_setMask (v : Byte) {i n : ℕ} (hi : i < 8) :
    (v ||| (1#8 <<< i)).getLsbD n = if n = i then true else v.getLsbD n := by
  rw [BitVec.getLsbD_or, getLsbD_mask hi]
  by_cases h : n = i <;> simp [h]

theorem getLsbD_clearMask (v : Byte) {i n : ℕ} (hi : i < 8) (hn : n < 8) :
    (v &&& ~~~(1#8 <<< i)).getLsbD n = if n = i then false else v.getLsbD n := by
  rw [BitVec.getLsbD_and, BitVec.getLsbD_not, getLsbD_mask hi]
  by_cases h : n = i <;> simp [h, hn]

namespace VICRenderState

variable (state : VICRenderState)

/-- A pass of the seeding loop, on the sprite it is about. -/
def seedDMA (row : ℕ) (n : ℕ) (d : SpriteDMA) : SpriteDMA :=
  let top := spriteTop (state.spriteY n)
  let height := spriteHeight (state.spriteExpanded n)
  if state.spriteEnabled n = false then d
  else if row < top ∨ top + height ≤ row then d
  else ⟨true, state.spriteExpanded n || d.expanded, state.spriteY n,
    BitVec.ofInt 8 (top + height - row)⟩

/-- A pass of the trigger loop, on the sprite it is about. -/
def triggerDMA (row : ℕ) (n : ℕ) (d : SpriteDMA) : SpriteDMA :=
  if d.active = true ∨ state.spriteEnabled n = false then d
  else if spriteTop (state.spriteY n) ≠ row then d
  else ⟨true, state.spriteExpanded n, state.spriteY n,
    BitVec.ofNat 8 (spriteHeight (state.spriteExpanded n))⟩

theorem sprite_seedSprite (row : ℕ) (s : VICRenderSpriteSequencer) (i n : ℕ) (hi : i < 8)
    (hn : n < 8) :
    (state.seedSprite row s i).sprite n =
      if n = i then state.seedDMA row n (s.sprite n) else s.sprite n := by
  by_cases h : n = i
  · subst h
    rw [if_pos rfl, seedSprite, seedDMA]
    split
    · rfl
    · split
      · rfl
      · ext1
        · simp [VICRenderSpriteSequencer.sprite, getLsbD_setMask _ hn]
        · by_cases hexp : state.spriteExpanded n <;>
            simp [VICRenderSpriteSequencer.sprite, getLsbD_setMask _ hn, hexp]
        · simp [VICRenderSpriteSequencer.sprite]
        · simp [VICRenderSpriteSequencer.sprite]
  · rw [if_neg h, seedSprite]
    split
    · rfl
    · split
      · rfl
      · ext1
        · simp [VICRenderSpriteSequencer.sprite, getLsbD_setMask _ hi, h]
        · by_cases hexp : state.spriteExpanded i <;>
            simp [VICRenderSpriteSequencer.sprite, getLsbD_setMask _ hi, h, hexp]
        · simp [VICRenderSpriteSequencer.sprite, h]
        · simp [VICRenderSpriteSequencer.sprite, h]

theorem sprite_triggerSprite (row : ℕ) (s : VICRenderSpriteSequencer) (i n : ℕ) (hi : i < 8)
    (hn : n < 8) :
    (state.triggerSprite row s i).sprite n =
      if n = i then state.triggerDMA row n (s.sprite n) else s.sprite n := by
  by_cases h : n = i
  · subst h
    rw [if_pos rfl, triggerSprite, triggerDMA]
    split
    · rename_i hidle
      exact (if_pos hidle).symm
    · rename_i hidle
      refine Eq.trans ?_ (if_neg hidle).symm
      split
      · rfl
      · ext1
        · simp [VICRenderSpriteSequencer.sprite, getLsbD_setMask _ hn]
        · by_cases hexp : state.spriteExpanded n <;>
            simp [VICRenderSpriteSequencer.sprite, getLsbD_setMask _ hn,
              getLsbD_clearMask _ hn hn, hexp]
        · simp [VICRenderSpriteSequencer.sprite]
        · simp [VICRenderSpriteSequencer.sprite]
  · rw [if_neg h, triggerSprite]
    split
    · rfl
    · split
      · rfl
      · ext1
        · simp [VICRenderSpriteSequencer.sprite, getLsbD_setMask _ hi, h]
        · by_cases hexp : state.spriteExpanded i <;>
            simp [VICRenderSpriteSequencer.sprite, getLsbD_setMask _ hi,
              getLsbD_clearMask _ hi hn, h, hexp]
        · simp [VICRenderSpriteSequencer.sprite, h]
        · simp [VICRenderSpriteSequencer.sprite, h]

end VICRenderState

/-- One sprite at the end of a row. -/
def SpriteDMA.finish (d : SpriteDMA) : SpriteDMA :=
  if d.active = false then d
  else if nextRowsLeft d.rowsLeft = 0 then ⟨false, false, d.y, nextRowsLeft d.rowsLeft⟩
  else { d with rowsLeft := nextRowsLeft d.rowsLeft }

theorem sprite_finishSprite (s : VICRenderSpriteSequencer) (i n : ℕ) (hi : i < 8) (hn : n < 8) :
    (finishSprite s i).sprite n = if n = i then (s.sprite n).finish else s.sprite n := by
  by_cases h : n = i
  · subst h
    rw [if_pos rfl, finishSprite, SpriteDMA.finish]
    split
    · rename_i hidle
      exact (if_pos hidle).symm
    · rename_i hidle
      refine Eq.trans ?_ (if_neg hidle).symm
      split
      · rename_i hlast
        refine Eq.trans ?_ (if_pos hlast).symm
        ext1 <;> simp [VICRenderSpriteSequencer.sprite, getLsbD_clearMask _ hn hn]
      · rename_i hlast
        refine Eq.trans ?_ (if_neg hlast).symm
        ext1 <;> simp [VICRenderSpriteSequencer.sprite]
  · rw [if_neg h, finishSprite]
    split
    · rfl
    · split
      · ext1 <;> simp [VICRenderSpriteSequencer.sprite, getLsbD_clearMask _ hi hn, h]
      · ext1 <;> simp [VICRenderSpriteSequencer.sprite, h]

theorem sprite_finishSpriteRow (s : VICRenderSpriteSequencer) {n : ℕ} (hn : n < 8) :
    (finishSpriteRow s).sprite n = (s.sprite n).finish :=
  foldl_range_component finishSprite VICRenderSpriteSequencer.sprite (fun _ => SpriteDMA.finish)
    sprite_finishSprite s hn

section Frame

variable (vic : ℕ → Registers)

/-- The rows a sprite still has to show when row `r` is drawn, that row included, if the
frame is rendered from row 0 on and row `r` has the registers `vic r`. -/
def spriteRowsLeft (n : ℕ) : ℕ → ℕ
  | 0 =>
      let top := spriteTop (vic 0 (n * 2 + 1))
      if (vic 0 0x15).getLsbD n ∧ top ≤ 0 then
        (top + spriteHeight ((vic 0 0x17).getLsbD n)).toNat
      else 0
  | r + 1 =>
      if spriteRowsLeft n r - 1 ≠ 0 then spriteRowsLeft n r - 1
      else if (vic (r + 1) 0x15).getLsbD n ∧ spriteTop (vic (r + 1) (n * 2 + 1)) = r + 1 then
        spriteHeight ((vic (r + 1) 0x17).getLsbD n)
      else 0

/-- The sequencer knows that a sprite has `left` rows to show from `row` on. -/
structure SpriteDMA.Shows (d : SpriteDMA) (row left : ℕ) : Prop where
  active_eq : d.active = decide (left ≠ 0)
  rowsLeft_eq : left ≠ 0 → d.rowsLeft.toNat = left
  extent : left ≠ 0 → spriteTop d.y + spriteHeight d.expanded = row + left
  top_le : left ≠ 0 → spriteTop d.y ≤ row

theorem SpriteDMA.shows_zero {d : SpriteDMA} (row : ℕ) (h : d.active = false) : d.Shows row 0 :=
  ⟨h, fun h => absurd rfl h, fun h => absurd rfl h, fun h => absurd rfl h⟩

theorem spriteHeight_le (expanded : Bool) : spriteHeight expanded ≤ 42 := by
  cases expanded <;> decide

theorem spriteHeight_pos (expanded : Bool) : 0 < spriteHeight expanded := by
  cases expanded <;> decide

variable {vic} {state : VICRenderState}

theorem VICRenderState.shows_seedDMA {n : ℕ} {d : SpriteDMA} (hstate : state.vic = vic 0)
    (hidle : d.active = false) (hexp : d.expanded = false) :
    (state.seedDMA 0 n d).Shows 0 (spriteRowsLeft vic n 0) := by
  have hregs : (vic 0 0x15).getLsbD n = state.spriteEnabled n ∧
      vic 0 (n * 2 + 1) = state.spriteY n ∧
      (vic 0 0x17).getLsbD n = state.spriteExpanded n := by
    rw [← hstate]
    exact ⟨rfl, rfl, rfl⟩
  rw [spriteRowsLeft, seedDMA, hregs.1, hregs.2.1, hregs.2.2]
  by_cases henabled : state.spriteEnabled n = true
  · rw [if_neg (by simp [henabled])]
    by_cases hcovers : ((0 : ℕ) : ℤ) < spriteTop (state.spriteY n) ∨
        spriteTop (state.spriteY n) + spriteHeight (state.spriteExpanded n) ≤ (0 : ℕ)
    · rw [if_pos hcovers]
      have hnone : (if state.spriteEnabled n = true ∧ spriteTop (state.spriteY n) ≤ 0 then
          (spriteTop (state.spriteY n) + spriteHeight (state.spriteExpanded n)).toNat else 0) =
            0 := by
        split <;> omega
      rw [hnone]
      exact SpriteDMA.shows_zero 0 hidle
    · rw [if_neg hcovers, if_pos ⟨henabled, by omega⟩]
      have hheight := spriteHeight_le (state.spriteExpanded n)
      generalize hleft : spriteTop (state.spriteY n) +
        spriteHeight (state.spriteExpanded n) = left at hcovers ⊢
      obtain ⟨left, rfl⟩ : ∃ k : ℕ, left = k := ⟨left.toNat, by omega⟩
      refine ⟨?_, fun _ => ?_, fun _ => ?_, fun _ => ?_⟩
      · simp only [Int.toNat_natCast, true_eq_decide_iff]
        omega
      · simp only [Int.toNat_natCast, Nat.cast_zero, sub_zero, BitVec.ofInt_natCast,
          BitVec.toNat_ofNat]
        omega
      · dsimp only
        rw [hexp, Bool.or_false, hleft]
        simp
      · dsimp only
        omega
  · rw [if_pos (by simpa using henabled), if_neg (fun h => henabled h.1)]
    exact SpriteDMA.shows_zero 0 hidle

theorem VICRenderState.shows_triggerDMA {n r : ℕ} {d : SpriteDMA}
    (hstate : state.vic = vic (r + 1)) (h : d.Shows (r + 1) (spriteRowsLeft vic n r - 1)) :
    (state.triggerDMA (r + 1) n d).Shows (r + 1) (spriteRowsLeft vic n (r + 1)) := by
  have hregs : (vic (r + 1) 0x15).getLsbD n = state.spriteEnabled n ∧
      vic (r + 1) (n * 2 + 1) = state.spriteY n ∧
      (vic (r + 1) 0x17).getLsbD n = state.spriteExpanded n := by
    rw [← hstate]
    exact ⟨rfl, rfl, rfl⟩
  rw [spriteRowsLeft, triggerDMA, hregs.1, hregs.2.1, hregs.2.2]
  generalize spriteRowsLeft vic n r - 1 = left at h
  by_cases hleft : left = 0
  · subst hleft
    rw [if_neg (not_not.mpr rfl)]
    have hidle : d.active = false := h.active_eq
    by_cases hstart : state.spriteEnabled n = true ∧ spriteTop (state.spriteY n) = r + 1
    · rw [if_pos hstart, if_neg (by simp [hidle, hstart.1]), if_neg (by simp [hstart.2])]
      have hpos := spriteHeight_pos (state.spriteExpanded n)
      have hle := spriteHeight_le (state.spriteExpanded n)
      refine ⟨?_, fun _ => ?_, fun _ => ?_, fun _ => ?_⟩
      · simp only [true_eq_decide_iff]
        omega
      · dsimp only
        rw [BitVec.toNat_ofNat]
        omega
      · dsimp only
        rw [hstart.2]
        simp
      · dsimp only
        rw [hstart.2]
        simp
    · rw [if_neg hstart]
      have hsame : (if d.active = true ∨ state.spriteEnabled n = false then d
          else if spriteTop (state.spriteY n) ≠ ((r + 1 : ℕ) : ℤ) then d
          else ⟨true, state.spriteExpanded n, state.spriteY n,
            BitVec.ofNat 8 (spriteHeight (state.spriteExpanded n))⟩) = d := by
        split
        · rfl
        · rename_i hidle'
          rw [if_pos]
          intro htop
          refine hstart ⟨?_, by simpa using htop⟩
          simpa using fun he => hidle' (.inr he)
      rw [hsame]
      exact h
  · rw [if_pos hleft, if_pos (.inl (by simpa [hleft] using h.active_eq))]
    exact h

theorem SpriteDMA.Shows.finish {d : SpriteDMA} {row left : ℕ} (h : d.Shows row left) :
    d.finish.Shows (row + 1) (left - 1) := by
  rw [SpriteDMA.finish]
  by_cases hleft : left = 0
  · subst hleft
    have hidle : d.active = false := h.active_eq
    rw [if_pos hidle]
    exact SpriteDMA.shows_zero (row + 1) hidle
  · have hactive : d.active = true := by simpa [hleft] using h.active_eq
    have hrows := h.rowsLeft_eq hleft
    have hextent := h.extent hleft
    have htop := h.top_le hleft
    have hne : d.rowsLeft ≠ 0 := by
      intro hzero
      rw [hzero] at hrows
      exact hleft hrows.symm
    have hnext : (nextRowsLeft d.rowsLeft).toNat = left - 1 := by
      rw [nextRowsLeft, if_pos hne, BitVec.toNat_sub_of_le, hrows]
      · rfl
      · rw [BitVec.le_def, hrows]
        exact Nat.one_le_iff_ne_zero.mpr hleft
    rw [if_neg (by simp [hactive])]
    split
    · rename_i hlast
      rw [hlast] at hnext
      rw [← hnext]
      exact SpriteDMA.shows_zero (row + 1) rfl
    · rename_i hlast
      have hmore : left - 1 ≠ 0 := by
        intro hzero
        rw [hzero] at hnext
        exact hlast (BitVec.eq_of_toNat_eq hnext)
      refine ⟨by simpa [hmore] using hactive, fun _ => hnext, fun _ => ?_, fun _ => ?_⟩
      · dsimp only
        omega
      · dsimp only
        omega

variable (vic)

/-- The sequencer before row `k` of a frame rendered from its first row on. -/
def VICRenderSpriteSequencer.AtRow (s : VICRenderSpriteSequencer) : ℕ → Prop
  | 0 => s.primed = false
  | r + 1 =>
      s.primed = true ∧ s.nextRow.toNat = r + 1 ∧
        ∀ n < 8, (s.sprite n).Shows (r + 1) (spriteRowsLeft vic n r - 1)

variable {vic} {s : VICRenderSpriteSequencer} {k : ℕ}

/-- Preparing a row brings every sprite up to it. -/
theorem VICRenderState.shows_prepareSpriteRow (hs : s.AtRow vic k) (hstate : state.vic = vic k) :
    ∃ prepared : VICRenderSpriteSequencer,
      state.prepareSpriteRow k s =
        ({ prepared with nextRow := BitVec.ofNat 16 (k + 1) }, state.rowState prepared) ∧
      prepared.primed = true ∧
      ∀ n < 8, (prepared.sprite n).Shows k (spriteRowsLeft vic n k) := by
  cases k with
  | zero =>
      have hprimed : s.primed = false := hs
      refine ⟨{ (List.range 8).foldl (state.seedSprite 0) { s with active := 0, expanded := 0 } with
        primed := true }, ?_, rfl, ?_⟩
      · rw [prepareSpriteRow, hprimed, Bool.false_and]
        rfl
      · intro n hn
        have hseed := foldl_range_component (state.seedSprite 0) VICRenderSpriteSequencer.sprite
          (state.seedDMA 0) (state.sprite_seedSprite 0) { s with active := 0, expanded := 0 } hn
        have hempty :
            (VICRenderSpriteSequencer.sprite
              { s with active := 0, expanded := 0 } n).active = false ∧
            (VICRenderSpriteSequencer.sprite
              { s with active := 0, expanded := 0 } n).expanded = false := by
          constructor <;> exact BitVec.getLsbD_zero
        have hshows := shows_seedDMA (n := n) hstate hempty.1 hempty.2
        rw [← hseed] at hshows
        exact hshows
  | succ r =>
      obtain ⟨hprimed, hnext, hsprites⟩ := hs
      have hkeeps : ((List.range 8).foldl (state.triggerSprite (r + 1)) s).primed = s.primed := by
        refine foldl_keeps _ _ ?_ _ _
        intro s n
        rw [triggerSprite]
        split
        · rfl
        · split <;> rfl
      refine ⟨(List.range 8).foldl (state.triggerSprite (r + 1)) s, ?_, hkeeps.trans hprimed, ?_⟩
      · rw [prepareSpriteRow, hprimed, hnext]
        simp
      · intro n hn
        rw [foldl_range_component (state.triggerSprite (r + 1)) VICRenderSpriteSequencer.sprite
          (state.triggerDMA (r + 1)) (state.sprite_triggerSprite (r + 1)) s hn]
        exact shows_triggerDMA hstate (hsprites n hn)

/-- After row `k` the sequencer stands before row `k + 1`. -/
theorem VICRenderState.atRow_finishSpriteRow (hs : s.AtRow vic k) (hstate : state.vic = vic k)
    (hk : k + 1 < 2 ^ 16) :
    (finishSpriteRow (state.prepareSpriteRow k s).1).AtRow vic (k + 1) := by
  obtain ⟨prepared, heq, hprimed, hshows⟩ := shows_prepareSpriteRow hs hstate
  have hfinish : ∀ (s : VICRenderSpriteSequencer) (n : ℕ),
      (finishSprite s n).primed = s.primed ∧ (finishSprite s n).nextRow = s.nextRow := by
    intro s n
    rw [finishSprite]
    split
    · exact ⟨rfl, rfl⟩
    · split <;> exact ⟨rfl, rfl⟩
  rw [heq]
  refine ⟨?_, ?_, ?_⟩
  · exact (foldl_keeps finishSprite _ (fun s n => (hfinish s n).1) _ _).trans hprimed
  · have hnext := foldl_keeps finishSprite _ (fun s n => (hfinish s n).2)
      { prepared with nextRow := BitVec.ofNat 16 (k + 1) } (List.range 8)
    rw [finishSpriteRow, hnext]
    exact Nat.mod_eq_of_lt hk
  · intro n hn
    rw [sprite_finishSpriteRow _ hn]
    exact (hshows n hn).finish

section RowState

variable (state)

/-- The register file of a row, before the Y positions are put in. -/
theorem VICRenderState.rowState_vic_of_ne (s : VICRenderSpriteSequencer) {reg : ℕ}
    (hreg : ∀ n < 8, reg ≠ n * 2 + 1) :
    (state.rowState s).vic reg =
      Function.update (Function.update state.vic 0x15 (state.vic 0x15 &&& s.active)) 0x17
        ((state.vic 0x17 &&& ~~~s.active) ||| (s.expanded &&& s.active)) reg := by
  have hkeeps : ∀ (l : List ℕ) (vic : Registers), (∀ n ∈ l, n < 8) →
      l.foldl (fun vic n =>
        if s.active.getLsbD n then Function.update vic (n * 2 + 1) (s.y n) else vic) vic reg =
        vic reg := by
    intro l
    induction l with
    | nil => exact fun _ _ => rfl
    | cons n l ih =>
        intro vic hl
        rw [List.foldl_cons, ih _ fun m hm => hl m (List.mem_cons_of_mem n hm)]
        split
        · exact Function.update_of_ne (hreg n (hl n List.mem_cons_self)) _ _
        · rfl
  exact hkeeps _ _ fun n hn => List.mem_range.mp hn

theorem VICRenderState.rowState_vic_of_gt (s : VICRenderSpriteSequencer) {reg : ℕ}
    (hreg : 16 ≤ reg) :
    (state.rowState s).vic reg =
      Function.update (Function.update state.vic 0x15 (state.vic 0x15 &&& s.active)) 0x17
        ((state.vic 0x17 &&& ~~~s.active) ||| (s.expanded &&& s.active)) reg :=
  state.rowState_vic_of_ne s fun n hn => by omega

theorem VICRenderState.spriteEnabled_rowState (s : VICRenderSpriteSequencer) (n : ℕ) :
    (state.rowState s).spriteEnabled n = (state.spriteEnabled n && s.active.getLsbD n) := by
  rw [spriteEnabled, rowState_vic_of_gt state s (by decide), Function.update_of_ne (by decide),
    Function.update_self, BitVec.getLsbD_and]
  rfl

theorem VICRenderState.spriteExpanded_rowState (s : VICRenderSpriteSequencer) {n : ℕ}
    (hactive : s.active.getLsbD n = true) :
    (state.rowState s).spriteExpanded n = s.expanded.getLsbD n := by
  rw [spriteExpanded, rowState_vic_of_gt state s (by decide), Function.update_self,
    BitVec.getLsbD_or, BitVec.getLsbD_and, BitVec.getLsbD_not, BitVec.getLsbD_and, hactive]
  simp

theorem VICRenderState.spriteY_rowState (s : VICRenderSpriteSequencer) {n : ℕ} (hn : n < 8)
    (hactive : s.active.getLsbD n = true) : (state.rowState s).spriteY n = s.y n := by
  have hpass : ∀ (vic : Registers) (i m : ℕ), i < 8 → m < 8 →
      (if s.active.getLsbD i then Function.update vic (i * 2 + 1) (s.y i) else vic) (m * 2 + 1) =
        if m = i then (if s.active.getLsbD m then s.y m else vic (m * 2 + 1))
        else vic (m * 2 + 1) := by
    intro vic i m _ _
    by_cases h : m = i
    · subst h
      rw [if_pos rfl]
      split
      · exact Function.update_self _ _ _
      · rfl
    · rw [if_neg h]
      split
      · exact Function.update_of_ne (by omega) _ _
      · rfl
  have hfold := foldl_range_component
    (fun vic n => if s.active.getLsbD n then Function.update vic (n * 2 + 1) (s.y n) else vic)
    (fun vic n => vic (n * 2 + 1)) (fun m y => if s.active.getLsbD m then s.y m else y) hpass
    (Function.update (Function.update state.vic 0x15 (state.vic 0x15 &&& s.active)) 0x17
      ((state.vic 0x17 &&& ~~~s.active) ||| (s.expanded &&& s.active))) hn
  rw [if_pos hactive] at hfold
  exact hfold

end RowState

/-- A sprite shows a line of its shape on exactly the rows on which it is enabled and has
rows left. -/
theorem VICRenderState.spriteLine_rowState (state : VICRenderState) {n left : ℕ} (hn : n < 8)
    (h : (s.sprite n).Shows k left) :
    if state.spriteEnabled n = true ∧ left ≠ 0 then
      ∃ line < 21, (state.rowState s).spriteLine k n = some line
    else (state.rowState s).spriteLine k n = none := by
  have hactive : s.active.getLsbD n = decide (left ≠ 0) := h.active_eq
  rw [spriteLine, spriteEnabled_rowState, hactive]
  split
  · rename_i hshown
    have hactive : s.active.getLsbD n = true := by rw [hactive, decide_eq_true hshown.2]
    rw [spriteY_rowState state s hn hactive, spriteExpanded_rowState state s hactive]
    have hextent : spriteTop (s.y n) + spriteHeight (s.expanded.getLsbD n) = k + left :=
      h.extent hshown.2
    have htop : spriteTop (s.y n) ≤ k := h.top_le hshown.2
    have hpos := Nat.pos_of_ne_zero hshown.2
    rw [if_neg (by simp [hshown.1, hshown.2])]
    dsimp only
    rw [if_neg (by omega)]
    refine ⟨_, ?_, rfl⟩
    cases hexp : s.expanded.getLsbD n with
    | false =>
        rw [hexp] at hextent
        simp only [spriteHeight, Bool.false_eq_true, if_false] at hextent ⊢
        omega
    | true =>
        rw [hexp] at hextent
        simp only [spriteHeight, if_true] at hextent ⊢
        omega
  · rename_i hhidden
    rw [if_pos]
    by_cases henabled : state.spriteEnabled n = true
    · have hleft : left = 0 := not_not.mp fun hne => hhidden ⟨henabled, hne⟩
      simp [hleft]
    · simp [henabled]

end Frame

end ScpuEmu
