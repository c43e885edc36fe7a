import ScpuEmu.Library.Installments
import ScpuEmu.SuperCpu.WriteBuffer.Settings

/-!
# The targeted repair on a picture that stays as it is

Each call of the repair serves one region, and takes up its lap where the call before it on
that region broke off. What a series of calls sends of a region is therefore a prefix of what
there was to send from its cursor on, 64 bytes for each call that was its turn.
-/

namespace ScpuEmu

open Library

deriving instance DecidableEq for ScrubRegion

/-- The cursors are inside their regions. -/
structure DisplayScrub.InRange (d : DisplayScrub) : Prop where
  screen : d.screenOffset < 1024
  graphics : d.graphicsLength ≠ 0 → d.graphicsOffset < d.graphicsLength

theorem DisplayScrub.inRange_reset : DisplayScrub.reset.InRange :=
  ⟨by decide, fun h => absurd rfl h⟩

@[simp] theorem ScrubRegion.offset_setOffset (r : ScrubRegion) (d : DisplayScrub) (o : ℕ) :
    r.offset (r.setOffset d o) = o := by
  cases r <;> rfl

@[simp] theorem ScrubRegion.setOffset_setOffset (r : ScrubRegion) (d : DisplayScrub) (o o' : ℕ) :
    r.setOffset (r.setOffset d o) o' = r.setOffset d o' := by
  cases r <;> rfl

@[simp] theorem ScrubRegion.setOffset_offset (r : ScrubRegion) (d : DisplayScrub) :
    r.setOffset d (r.offset d) = d := by
  cases r <;> rfl

/-- What the calls of the repair are told about the picture: the bases, the length of the
graphics, and the blocks of the active sprites. -/
structure Picture where
  screenBase : ℕ
  graphicsBase : ℕ
  graphicsLength : ℕ
  hot : List ℕ

namespace Picture

variable (p : Picture) (d : DisplayScrub)

def haveScreen : Bool := decide (p.screenBase < 0x10000)

/-- The length that the repair honours. -/
def honoured : ℕ := WriteBuffer.scrubGraphicsLength p.graphicsBase p.graphicsLength

def slots : ℕ := WriteBuffer.scrubSlots p.haveScreen p.honoured p.hot

def screenSlots : ℕ := if p.haveScreen then 1 else 0

def region (turn : ℕ) : ScrubRegion :=
  (WriteBuffer.scrubRegion turn p.haveScreen p.honoured p.hot).1

def length : ScrubRegion → ℕ
  | .matrix => if p.haveScreen then 1024 else 0
  | .graphics => p.honoured
  | .sprites => p.hot.length * 64

def place : ScrubRegion → ℕ → Addr
  | .matrix, k => BitVec.ofNat 16 (p.screenBase + k)
  | .graphics, k => BitVec.ofNat 16 (p.graphicsBase + k)
  | .sprites, k => BitVec.ofNat 16 (p.hot.getD (k / 64) 0 * 64 + k % 64)

/-- The addresses of a region, in the order of its cursor. -/
def places (r : ScrubRegion) : List Addr := (List.range (p.length r)).map (p.place r)

/-- Where the next call that serves a region starts. A changed base restarts it. -/
def cursor : ScrubRegion → ℕ
  | .matrix => if p.screenBase ≠ d.screenBase then 0 else d.screenOffset
  | .graphics =>
      if p.graphicsBase ≠ d.graphicsBase ∨ p.honoured ≠ d.graphicsLength then 0
      else d.graphicsOffset
  | .sprites => if p.hot.length * 64 ≤ d.spriteOffset then 0 else d.spriteOffset

/-- The turn of the next call. -/
def turn : ℕ := if p.slots ≤ d.turn then 0 else d.turn

/-- The regions that the next calls serve. -/
def schedule (calls : ℕ) : List ScrubRegion :=
  (List.range calls).map fun i => p.region ((p.turn d + i) % p.slots)

/-- The bytes of a region that the buffer may deliver, in the order in which the next calls
come to them. -/
def front (b : WriteBuffer) (r : ScrubRegion) : List Addr :=
  ((p.places r).rotate (p.cursor b.displayScrub r)).filter b.shouldMirror

/-- The bytes of a region that the next calls send. -/
def reached (b : WriteBuffer) (calls : ℕ) (r : ScrubRegion) : List Addr :=
  (p.front b r).take (64 * (p.schedule b.displayScrub calls).count r)

theorem region_eq (turn : ℕ) :
    p.region turn =
      (if turn < p.screenSlots then (ScrubRegion.matrix, 1024)
        else if turn < p.screenSlots + p.honoured / 1024 then (.graphics, p.honoured)
        else (.sprites, p.hot.length * 64)).1 := rfl

variable {p} in
theorem region_matrix {turn : ℕ} (h : turn < p.screenSlots) : p.region turn = .matrix := by
  rw [region_eq, if_pos h]

variable {p} in
theorem region_graphics {turn : ℕ} (h : p.screenSlots ≤ turn)
    (hturn : turn < p.screenSlots + p.honoured / 1024) : p.region turn = .graphics := by
  rw [region_eq, if_neg (Nat.not_lt.mpr h), if_pos hturn]

variable {p} in
theorem region_sprites {turn : ℕ} (h : p.screenSlots + p.honoured / 1024 ≤ turn) :
    p.region turn = .sprites := by
  rw [region_eq, if_neg (Nat.not_lt.mpr (le_trans (Nat.le_add_right _ _) h)),
    if_neg (Nat.not_lt.mpr h)]

/-- The region of a turn with its length. -/
theorem scrubRegion_eq (turn : ℕ) :
    WriteBuffer.scrubRegion turn p.haveScreen p.honoured p.hot =
      (p.region turn, p.length (p.region turn)) := by
  rw [region]
  cases h : p.haveScreen with
  | false =>
      rw [WriteBuffer.scrubRegion]
      split_ifs <;> first | contradiction | rfl
  | true =>
      rw [WriteBuffer.scrubRegion]
      split_ifs <;> simp [length, h]

theorem turn_lt (h : p.slots ≠ 0) : p.turn d < p.slots := by
  rw [turn]
  split <;> omega

theorem honoured_le : p.honoured = 0 ∨ p.honoured = 2048 ∨ p.honoured = 8192 := by
  rw [honoured, WriteBuffer.scrubGraphicsLength]
  split
  · exact .inl rfl
  · split
    next h => exact .inr h
    · exact .inl rfl

/-- A turn within the count belongs to a region that has places. -/
theorem length_region_pos {turn : ℕ} (h : turn < p.slots) : 0 < p.length (p.region turn) := by
  have hhonoured := p.honoured_le
  rcases Nat.lt_or_ge turn p.screenSlots with hscreen | hscreen
  · rw [region_matrix hscreen, length]
    rw [screenSlots] at hscreen
    split_ifs at hscreen ⊢ <;> omega
  rcases Nat.lt_or_ge turn (p.screenSlots + p.honoured / 1024) with hgraphics | hgraphics
  · rw [region_graphics hscreen hgraphics, length]
    omega
  · change turn < p.screenSlots + p.honoured / 1024 + (if p.hot.length ≠ 0 then 1 else 0) at h
    rw [region_sprites hgraphics, length]
    split at h <;> omega

theorem cursor_lt (h : d.InRange) {r : ScrubRegion} (hlength : 0 < p.length r) :
    p.cursor d r < p.length r := by
  cases r with
  | matrix =>
      have hscreen := h.screen
      simp only [length, cursor] at hlength ⊢
      split_ifs at hlength ⊢ <;> omega
  | graphics =>
      have hgraphics := h.graphics
      simp only [length, cursor] at hlength ⊢
      split_ifs with hnew
      · exact hlength
      · have hsame : p.honoured = d.graphicsLength := by tauto
        rw [hsame] at hlength ⊢
        exact hgraphics (by omega)
  | sprites =>
      simp only [length, cursor] at hlength ⊢
      split_ifs <;> omega

/-- The cursors as a call sets them before its walk. -/
def aimed : DisplayScrub where
  screenBase := p.screenBase
  graphicsBase := p.graphicsBase
  graphicsLength := p.honoured
  screenOffset := p.cursor d .matrix
  graphicsOffset := p.cursor d .graphics
  spriteOffset :=
    if p.region (p.turn d) = .sprites then p.cursor d .sprites else d.spriteOffset
  turn := p.turn d

theorem retarget_eq :
    d.retarget p.screenBase p.graphicsBase p.honoured =
      { screenBase := p.screenBase
        graphicsBase := p.graphicsBase
        graphicsLength := p.honoured
        screenOffset := p.cursor d .matrix
        graphicsOffset := p.cursor d .graphics
        spriteOffset := d.spriteOffset
        turn := d.turn } := by
  simp only [DisplayScrub.retarget, cursor]
  split_ifs <;> simp_all

theorem offset_aimed :
    (p.region (p.turn d)).offset (p.aimed d) = p.cursor d (p.region (p.turn d)) := by
  cases h : p.region (p.turn d) with
  | matrix => rfl
  | graphics => rfl
  | sprites => exact if_pos h

theorem place_aimed (r : ScrubRegion) :
    (fun k => r.place (r.setOffset (p.aimed d) k) p.hot) = p.place r := by
  cases r <;> rfl

/-- The cursors after a call that leaves its region at `o`. -/
def left (o : ℕ) : DisplayScrub :=
  { (p.region (p.turn d)).setOffset (p.aimed d) o with turn := (p.turn d + 1) % p.slots }

theorem turn_left (h : p.slots ≠ 0) (o : ℕ) : p.turn (p.left d o) = (p.turn d + 1) % p.slots := by
  have hturn : (p.left d o).turn = (p.turn d + 1) % p.slots := rfl
  rw [turn, hturn, if_neg (Nat.not_le.mpr (Nat.mod_lt _ (Nat.pos_of_ne_zero h)))]

theorem cursor_left {o : ℕ} (ho : o < p.length (p.region (p.turn d))) (r : ScrubRegion) :
    p.cursor (p.left d o) r = if r = p.region (p.turn d) then o else p.cursor d r := by
  cases h : p.region (p.turn d) <;> rw [h] at ho <;> cases r <;>
    simp_all [cursor, left, aimed, length, ScrubRegion.setOffset]

theorem cursor_matrix_lt (hd : d.InRange) : p.cursor d .matrix < 1024 := by
  rw [cursor]
  split
  · omega
  · exact hd.screen

theorem cursor_graphics_lt (hd : d.InRange) (h : p.honoured ≠ 0) :
    p.cursor d .graphics < p.honoured :=
  p.cursor_lt d hd (r := .graphics) (Nat.pos_of_ne_zero h)

theorem inRange_retarget (hd : d.InRange) :
    (d.retarget p.screenBase p.graphicsBase p.honoured).InRange := by
  rw [p.retarget_eq]
  exact ⟨p.cursor_matrix_lt d hd, p.cursor_graphics_lt d hd⟩

theorem inRange_left (hd : d.InRange) {o : ℕ} (ho : o < p.length (p.region (p.turn d))) :
    (p.left d o).InRange := by
  have hscreen := p.cursor_matrix_lt d hd
  have hgraphics := p.cursor_graphics_lt d hd
  cases h : p.region (p.turn d) <;> rw [h] at ho <;> simp only [length] at ho
  case matrix =>
    refine ⟨?_, by simpa [left, aimed, h, ScrubRegion.setOffset] using hgraphics⟩
    split at ho
    · simpa [left, aimed, h, ScrubRegion.setOffset] using ho
    · omega
  case graphics =>
    exact ⟨by simpa [left, aimed, h, ScrubRegion.setOffset] using hscreen,
      by simpa [left, aimed, h, ScrubRegion.setOffset] using fun _ => ho⟩
  case sprites =>
    exact ⟨by simpa [left, aimed, h, ScrubRegion.setOffset] using hscreen,
      by simpa [left, aimed, h, ScrubRegion.setOffset] using hgraphics⟩

theorem schedule_left (h : p.slots ≠ 0) (o calls : ℕ) :
    p.schedule d (calls + 1) = p.region (p.turn d) :: p.schedule (p.left d o) calls := by
  rw [schedule, schedule, List.range_succ_eq_map, List.map_cons, List.map_map, turn_left p d h,
    Nat.add_zero, Nat.mod_eq_of_lt (p.turn_lt d h)]
  congr 1
  refine List.map_congr_left fun i _ => ?_
  rw [Function.comp_apply, Nat.mod_add_mod, Nat.succ_eq_add_one, Nat.add_comm i 1, Nat.add_assoc]

end Picture

namespace WriteBuffer

variable (w : View)

/-- The flags of a repair: every byte, and rewritten without a look at what DRAM holds. -/
abbrev repairFlags : ScrubFlags := ⟨false, true, false⟩

/-- All that a call of the repair changes. -/
def scrubbed (b : WriteBuffer) (d : DisplayScrub) (synced : WordBitmap 64) : WriteBuffer :=
  { b with displayScrub := d, synced := synced }

section Scrubbed

variable (b : WriteBuffer) (d d' : DisplayScrub) (s s' : WordBitmap 64)

@[simp] theorem displayScrub_scrubbed : (b.scrubbed d s).displayScrub = d := rfl

@[simp] theorem synced_scrubbed : (b.scrubbed d s).synced = s := rfl

@[simp] theorem bus_scrubbed : (b.scrubbed d s).bus = b.bus := rfl

@[simp] theorem queue_scrubbed : (b.scrubbed d s).queue = b.queue := rfl

@[simp] theorem shouldMirror_scrubbed : (b.scrubbed d s).shouldMirror = b.shouldMirror := rfl

@[simp] theorem isDirty_scrubbed : (b.scrubbed d s).isDirty = b.isDirty := rfl

@[simp] theorem scrubbed_scrubbed : (b.scrubbed d s).scrubbed d' s' = b.scrubbed d' s' := rfl

theorem scrubbed_self : b.scrubbed b.displayScrub b.synced = b := rfl

end Scrubbed

section Walks

variable (ram : Addr → Byte) (r : ScrubRegion) (hot : List ℕ) {L m : ℕ} (candidates : ℕ)
  {b : WriteBuffer} (hclean : ∀ a, b.isDirty a = false)

include hclean

/-- The byte at the cursor is sent, where the buffer may deliver it. -/
theorem scrubLoop_repair_succ (left : ℕ) (burst : List C64BusWrite) (hm : candidates < m) :
    let a := r.place b.displayScrub hot
    let d := r.setOffset b.displayScrub ((r.offset b.displayScrub + 1) % L)
    scrubLoop w ram r hot L m repairFlags (left + 1) candidates b burst [] =
      if b.shouldMirror a then
        scrubLoop w ram r hot L m repairFlags left (candidates + 1)
          (b.scrubbed d (b.setSynced a).synced) (burst ++ [healed w ram a]) []
      else
        scrubLoop w ram r hot L m repairFlags left candidates (b.scrubbed d b.synced) burst [] := by
  intro a d
  have hskips : (b.scrubbed d b.synced).scrubSkips repairFlags a = !b.shouldMirror a := by
    simp [scrubSkips, hclean]
  rw [scrubLoop, if_neg (Nat.not_le.mpr hm)]
  change (if (b.scrubbed d b.synced).scrubSkips repairFlags a = true then _ else _) = _
  rw [hskips]
  cases b.shouldMirror a with
  | false => rfl
  | true =>
      have hstill : ¬(repairFlags.repair = false ∨ (b.scrubbed d b.synced).isDirty a = true) := by
        simp [hclean]
      exact if_neg hstill

/-- The walk sends the next bytes of the lap that the buffer may deliver. -/
theorem scrubLoop_repair (left : ℕ) (burst : List C64BusWrite)
    (ho : r.offset b.displayScrub < L) :
    let lap := lapFrom (fun k => r.place (r.setOffset b.displayScrub k) hot) L
      (r.offset b.displayScrub) left
    ∃ synced,
      scrubLoop w ram r hot L m repairFlags left candidates b burst [] =
        (b.scrubbed
            (r.setOffset b.displayScrub
              ((r.offset b.displayScrub + walked b.shouldMirror (m - candidates) lap) % L)) synced,
          burst ++ ((lap.filter b.shouldMirror).take (m - candidates)).map (healed w ram), []) := by
  induction left generalizing candidates b burst with
  | zero =>
      refine ⟨b.synced, ?_⟩
      simp [scrubLoop, lapFrom, walked, Nat.mod_eq_of_lt ho, scrubbed_self]
  | succ left ih =>
      rw [lapFrom_succ, Nat.mod_eq_of_lt ho, ScrubRegion.setOffset_offset]
      by_cases hm : m ≤ candidates
      · refine ⟨b.synced, ?_⟩
        rw [scrubLoop, if_pos hm, Nat.sub_eq_zero_of_le hm]
        simp [walked, Nat.mod_eq_of_lt ho, scrubbed_self]
      obtain ⟨n, hn⟩ : ∃ n, m - candidates = n + 1 := ⟨m - candidates - 1, by omega⟩
      have hn' : m - (candidates + 1) = n := by omega
      have hnext : (r.offset b.displayScrub + 1) % L < L := Nat.mod_lt _ (by omega)
      have hadvance (k : ℕ) : (r.offset b.displayScrub + (k + 1)) % L =
          ((r.offset b.displayScrub + 1) % L + k) % L := by
        rw [Nat.mod_add_mod, Nat.add_assoc, Nat.add_comm 1 k]
      have hmoved (s : WordBitmap 64) (candidates : ℕ) (burst : List C64BusWrite) :=
        ih candidates
          (b := b.scrubbed (r.setOffset b.displayScrub ((r.offset b.displayScrub + 1) % L)) s)
          hclean burst (by simpa using hnext)
      simp only [displayScrub_scrubbed, ScrubRegion.offset_setOffset,
        ScrubRegion.setOffset_setOffset, shouldMirror_scrubbed, scrubbed_scrubbed] at hmoved
      rw [scrubLoop_repair_succ w ram r hot candidates hclean left burst (by omega), hn]
      by_cases hmirror : b.shouldMirror (r.place b.displayScrub hot) = true
      · obtain ⟨synced, hrest⟩ := hmoved (b.setSynced (r.place b.displayScrub hot)).synced
          (candidates + 1) (burst ++ [healed w ram (r.place b.displayScrub hot)])
        refine ⟨synced, ?_⟩
        rw [if_pos hmirror, hrest, List.filter_cons_of_pos hmirror, walked, if_pos hmirror,
          List.take_succ_cons, List.map_cons, hadvance (walked _ _ _), hn', List.append_assoc]
        rfl
      · obtain ⟨synced, hrest⟩ := hmoved b.synced candidates burst
        refine ⟨synced, ?_⟩
        rw [if_neg hmirror, hrest, List.filter_cons_of_neg hmirror, walked, if_neg hmirror,
          hadvance (walked _ _ _), hn]

end Walks

section Calls

variable (p : Picture) {ram : Addr → Byte} {b : WriteBuffer} {w}
  (hram : w.ram = some ram) (hbus : b.bus = true) (hslots : p.slots ≠ 0)
  (hhot : p.hot = firstHotBlocks w)

include hram hbus hslots hhot

theorem resyncDisplayed_eq {n : ℕ} (hn : n ≠ 0) (flags : ScrubFlags) :
    let d := b.displayScrub
    let r := p.region (p.turn d)
    let walk := scrubLoop w ram r p.hot (p.length r) (min n chunk) flags (p.length r) 0
      (b.withScrub (p.aimed d)) [] []
    b.resyncDisplayed w p.screenBase p.graphicsBase p.graphicsLength n flags =
      (walk.1.withScrub { walk.1.displayScrub with turn := (p.turn d + 1) % p.slots },
        walk.2.2 ++ burstCall walk.2.1) := by
  have hhonoured : scrubGraphicsLength p.graphicsBase p.graphicsLength = p.honoured := rfl
  have hscreen : decide (p.screenBase < 0x10000) = p.haveScreen := rfl
  have hcount : scrubSlots p.haveScreen p.honoured p.hot = p.slots := rfl
  generalize hd : b.displayScrub = d
  have hturn : (if p.slots ≤ d.turn then 0 else d.turn) = p.turn d := rfl
  rw [resyncDisplayed, hram]
  dsimp only
  rw [if_neg (by simp [hbus, hn]), ← hhot, hd, hhonoured, hscreen, hcount, if_neg hslots,
    p.retarget_eq]
  dsimp only
  rw [hturn, p.scrubRegion_eq, Picture.aimed]
  dsimp only
  cases p.region (p.turn d) <;> rfl

variable (hclean : ∀ a, b.isDirty a = false) (hd : b.displayScrub.InRange)

include hclean hd

/-- A call sends the next 64 bytes of the region whose turn it is. -/
theorem resyncDisplayed_repair :
    let r := p.region (p.turn b.displayScrub)
    ∃ o synced,
      b.resyncDisplayed w p.screenBase p.graphicsBase p.graphicsLength 64 repairFlags =
        (b.scrubbed (p.left b.displayScrub o) synced,
          burstCall (((p.front b r).take 64).map (healed w ram))) ∧
      o < p.length r ∧
      p.front (b.scrubbed (p.left b.displayScrub o) synced) = visit 64 (p.front b) r := by
  intro r
  have hlength : 0 < p.length r := p.length_region_pos (p.turn_lt _ hslots)
  have hcursor : p.cursor b.displayScrub r < p.length r := p.cursor_lt _ hd hlength
  have hoffset : r.offset (b.withScrub (p.aimed b.displayScrub)).displayScrub =
      p.cursor b.displayScrub r := p.offset_aimed b.displayScrub
  obtain ⟨synced, hwalk⟩ := scrubLoop_repair w ram r p.hot (m := 64) 0
    (b := b.withScrub (p.aimed b.displayScrub)) hclean (p.length r) [] (hoffset ▸ hcursor)
  have hlap : lapFrom
      (fun k => r.place (r.setOffset (b.withScrub (p.aimed b.displayScrub)).displayScrub k) p.hot)
      (p.length r) (p.cursor b.displayScrub r) (p.length r) =
        (p.places r).rotate (p.cursor b.displayScrub r) :=
    (congrArg (lapFrom · _ _ _) (p.place_aimed b.displayScrub r)).trans (lapFrom_lap _ _ _)
  rw [hoffset] at hwalk
  change _ = (b.scrubbed (r.setOffset (p.aimed b.displayScrub) ((p.cursor b.displayScrub r +
      walked b.shouldMirror 64 (lapFrom _ _ _ _)) % p.length r)) synced,
    (((lapFrom _ _ _ _).filter b.shouldMirror).take 64).map (healed w ram), []) at hwalk
  rw [hlap] at hwalk
  refine ⟨_, synced, ?_, Nat.mod_lt (p.cursor b.displayScrub r +
    walked b.shouldMirror 64 ((p.places r).rotate (p.cursor b.displayScrub r))) hlength, ?_⟩
  · have hbudget : min 64 chunk = 64 := by decide
    rw [resyncDisplayed_eq p hram hbus hslots hhot (by decide), hbudget, hwalk]
    rfl
  · funext r'
    rw [visit, Picture.front, displayScrub_scrubbed, shouldMirror_scrubbed,
      p.cursor_left _ (Nat.mod_lt _ hlength)]
    by_cases hr : r' = r
    · have hlen : (p.places r).length = p.length r := by simp [Picture.places]
      subst hr
      rw [if_pos rfl, Function.update_self, ← hlen, List.rotate_mod, ← List.rotate_rotate,
        filter_rotate_walked]
      rfl
    · rw [if_neg hr, Function.update_of_ne hr]
      rfl

end Calls

end WriteBuffer

end ScpuEmu
