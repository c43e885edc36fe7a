import ScpuEmu.SuperCpu.RasterAwareFlush
import ScpuEmu.SuperCpu.Silence
import ScpuEmu.Video.Renderer

/-!
# Sprites and the guard of a drain

A drain keeps off the lines that its guard takes for sprite fetches. The guard counts
twenty-one lines to every sprite, and the renderer shows a sprite of double height for
forty-two. So the guard covers a line on which a sprite is fetched unless only the lower
halves of such sprites are fetched on it.
-/

namespace ScpuEmu

open Library WriteBuffer

/-- The Y position of a sprite. -/
def spriteYOf (vic : BitVec 6 → Byte) (n : ℕ) : ℕ := (vic (BitVec.ofNat 6 (1 + 2 * n))).toNat

/-- A sprite is fetched on a line: from three lines ahead for as long as it is shown. -/
def FetchesSprite (vic : BitVec 6 → Byte) (n line : ℕ) : Prop :=
  (vic 0x15).getLsbD n = true ∧ spriteYOf vic n ≤ line + 3 ∧
    line < spriteYOf vic n + spriteHeight ((vic 0x17).getLsbD n)

/-- The guard counts the sprite among those fetched on the line. -/
def Guards (vic : BitVec 6 → Byte) (n line : ℕ) : Prop :=
  (vic 0x15).getLsbD n = true ∧ spriteYOf vic n ≤ line + 3 ∧ line < spriteYOf vic n + 21

/-- Lines in the lower half of a sprite of double height. -/
def InLowerHalf (vic : BitVec 6 → Byte) (n line : ℕ) : Prop :=
  (vic 0x15).getLsbD n = true ∧ (vic 0x17).getLsbD n = true ∧ spriteYOf vic n + 21 ≤ line ∧
    line < spriteYOf vic n + 42

section Guard

variable {vic : BitVec 6 → Byte} {n line : ℕ}

theorem c64LineInSpriteFetchSpan_iff :
    c64LineInSpriteFetchSpan vic line = true ↔ ∃ n < 8, Guards vic n line := by
  rw [c64LineInSpriteFetchSpan, List.any_eq_true]
  simp only [List.mem_range, Bool.and_eq_true, decide_eq_true_eq, and_assoc]
  rfl

/-- The guard sees a fetch, or the sprite is in its lower half. -/
theorem fetchesSprite_iff :
    FetchesSprite vic n line ↔ Guards vic n line ∨ InLowerHalf vic n line := by
  rw [FetchesSprite, Guards, InLowerHalf, spriteHeight]
  by_cases hexpanded : (vic 0x17).getLsbD n = true
  · rw [if_pos hexpanded]
    constructor
    · rintro ⟨henabled, htop, hbottom⟩
      by_cases hupper : line < spriteYOf vic n + 21
      · exact .inl ⟨henabled, htop, hupper⟩
      · exact .inr ⟨henabled, hexpanded, not_lt.mp hupper, hbottom⟩
    · rintro (⟨henabled, htop, hbottom⟩ | ⟨henabled, -, htop, hbottom⟩)
      · exact ⟨henabled, htop, by omega⟩
      · exact ⟨henabled, by omega, hbottom⟩
  · rw [if_neg hexpanded]
    exact ⟨.inl, fun h => h.elim id fun hlower => absurd hlower.2.1 hexpanded⟩

end Guard

/-- Only lower halves are fetched on the line: of one sprite at least, and of no sprite what
the guard counts. -/
def OnlyLowerHalves (vic : BitVec 6 → Byte) (line : ℕ) : Prop :=
  (∃ n < 8, InLowerHalf vic n line) ∧ ∀ n < 8, ¬Guards vic n line

theorem onlyLowerHalves_iff {vic : BitVec 6 → Byte} {line : ℕ} :
    OnlyLowerHalves vic line ↔
      (∃ n < 8, FetchesSprite vic n line) ∧ c64LineInSpriteFetchSpan vic line = false := by
  rw [← Bool.not_eq_true, c64LineInSpriteFetchSpan_iff, OnlyLowerHalves]
  simp only [not_exists, not_and]
  constructor
  · rintro ⟨⟨n, hn, hlower⟩, hnone⟩
    exact ⟨⟨n, hn, fetchesSprite_iff.mpr (.inr hlower)⟩, hnone⟩
  · rintro ⟨⟨n, hn, hfetch⟩, hnone⟩
    exact ⟨⟨n, hn, (fetchesSprite_iff.mp hfetch).resolve_left (hnone n hn)⟩, hnone⟩

namespace CSuperCPU

variable {κ β : Type} (core : ICpu κ (System (Fitted β))) (b : Host β)

/-- What holds of the slot of every pass holds of every slot of a drain. -/
theorem forall_flushSlots {P : Slot → Prop} {m : CC64Memory}
    (hpass : ∀ left s, s.memory core = m → Represents (s.writeBuffer core) →
      ∀ slot ∈ (flushPass core b (s.screenBase core) (s.bitmapBase core) left s).slot, P slot)
    (fuel : ℕ) {left : Rations} {s : CSuperCPU κ} (hmemory : s.memory core = m)
    (h : Represents (s.writeBuffer core)) :
    ∀ slot ∈ flushSlots core b (s.screenBase core) (s.bitmapBase core) fuel left s, P slot := by
  induction fuel generalizing left s with
  | zero => exact fun slot hslot => nomatch hslot
  | succ fuel ih =>
      have hsound := sound_flushPass core b left h
      have hfirst := hpass left s hmemory h
      rw [flushSlots]
      generalize flushPass core b (s.screenBase core) (s.bitmapBase core) left s = pass
        at hsound hfirst ⊢
      intro slot hslot
      rcases List.mem_append.mp hslot with hslot | hslot
      · exact hfirst slot (Option.mem_toList.mp hslot)
      · cases hleft : pass.left with
        | none =>
            rw [hleft] at hslot
            cases hslot
        | some left' =>
            rw [hleft, ← hsound.bases.1, ← hsound.bases.2] at hslot
            exact ih (hsound.memory.trans hmemory) hsound.represents slot hslot

/-- A pass sends inside the picture only where the guard sees no sprite. -/
theorem guarded_flushPass {screenBase bitmapBase : ℕ} (left : Rations) (s : CSuperCPU κ) :
    ∀ slot ∈ (flushPass core b screenBase bitmapBase left s).slot, slot.InPicture b.video →
      slot.calls ≠ [] →
        c64LineInSpriteFetchSpan (s.memory core).fetch.vicRegShadow slot.line = false := by
  intro slot hslot hinside hsent
  have hmemory := memory_rasterLine core b s
  rw [flushPass] at hslot
  split at hslot
  next => cases hslot
  dsimp only at hslot
  generalize (rasterLine core b).run s = sampled at hmemory hslot
  cases hi : installment b.video (sampled.2.memory core).fetch.vicRegShadow
      (sampled.2.writeBuffer core) screenBase bitmapBase sampled.1 left with
  | none =>
      rw [hi] at hslot
      cases hslot
      exact absurd rfl hsent
  | some i =>
      rw [hi] at hslot
      dsimp only at hslot
      split at hslot
      next =>
        cases hslot
        exact absurd rfl hsent
      next =>
        cases hslot
        obtain ⟨-, -, -, hdisplay, hpicture⟩ := installment_spec screenBase bitmapBase hi
        rw [hmemory] at hdisplay
        exact (hdisplay (hpicture.mpr hinside)).2

/-- A pass inside the picture, where no sprite is in the way. -/
theorem flushPass_display {screenBase bitmapBase : ℕ} {left : Rations} {s : CSuperCPU κ}
    {line : ℕ} (hdrained : s.drained core = false) (hdisplay : left.displayLeft ≠ 0)
    (htransfer : left.transferLeft ≠ 0) (hline : ((rasterLine core b).run s).1 = line)
    (hinside : c64DisplayFirstLine b.video ≤ line ∧ line ≤ c64DisplayLastLine b.video)
    (hguard : c64LineInSpriteFetchSpan (s.memory core).fetch.vicRegShadow line = false) :
    let n := min (min left.displayLeft left.transferLeft) 64
    (flushPass core b screenBase bitmapBase left s).slot =
      some ⟨line, some (.flushUpToPolicy n true screenBase bitmapBase),
        ((s.writeBuffer core).flushUpToPolicy (s.memory core).view n true screenBase
          bitmapBase).2⟩ := by
  intro n
  have hlast : line < c64RasterLines b.video := by
    refine lt_of_le_of_lt hinside.2 ?_
    cases b.video <;> decide
  have hexposed : ¬c64RasterIsSafeForBulkTransfer b.video line = true := fun hsafe =>
    (c64RasterIsSafeForBulkTransfer_iff.mp hsafe).2 hinside
  have hn : ¬n = 0 := by omega
  rw [flushPass, if_neg (by simp [hdrained, htransfer])]
  have hmemory := memory_rasterLine core b s
  have hbuffer := writeBuffer_rasterLine core b s
  generalize (rasterLine core b).run s = sampled at hline hmemory hbuffer ⊢
  obtain ⟨sample, sampled⟩ := sampled
  dsimp only at hline hmemory hbuffer ⊢
  subst hline
  rw [hmemory, hbuffer, installment, if_neg hexposed, if_pos ⟨hlast, hdisplay, htransfer, hguard⟩]
  dsimp only
  rw [if_neg hn]
  rfl

end CSuperCPU

open CSuperCPU

/-- Some drain, with something queued and something left of its budgets, sends inside the
picture on the line. -/
def StartsTransfer (video : C64VideoStandard) (vic : BitVec 6 → Byte) (line : ℕ) : Prop :=
  ∃ (κ β : Type) (core : ICpu κ (System (Fitted β))) (b : Host β) (start : CSuperCPU κ)
    (pendingValue : Addr → Byte) (list : ℕ → Addr) (ops : List WriteBuffer.Op) (left : Rations),
    let s := start.withBuffer core (run WriteBuffer.step (construct pendingValue list) ops)
    b.video = video ∧ (s.memory core).fetch.vicRegShadow = vic ∧
      ∃ slot ∈ flushSlots core b (s.screenBase core) (s.bitmapBase core)
          (s.writeBuffer core).queue.count left s,
        slot.line = line ∧ slot.InPicture video ∧ slot.calls ≠ []

/-- A drain sends on a line of the picture only where the guard sees no sprite. -/
theorem guarded_of_startsTransfer {video : C64VideoStandard} {vic : BitVec 6 → Byte} {line : ℕ}
    (h : StartsTransfer video vic line) : c64LineInSpriteFetchSpan vic line = false ∧
      c64DisplayFirstLine video ≤ line ∧ line ≤ c64DisplayLastLine video := by
  obtain ⟨κ, β, core, b, start, pendingValue, list, ops, left, rfl, hvic, slot, hslot, rfl,
    hinside, hsent⟩ := h
  have hbuffer : Represents ((start.withBuffer core
      (run WriteBuffer.step (construct pendingValue list) ops)).writeBuffer core) := by
    rw [writeBuffer_withBuffer]
    exact represents_run pendingValue list ops
  have hguarded := forall_flushSlots core b
    (P := fun slot => slot.InPicture b.video → slot.calls ≠ [] →
      c64LineInSpriteFetchSpan vic slot.line = false)
    (fun left s hmemory _ slot hslot => by
      have hpass := guarded_flushPass core b left s slot hslot
      rw [hmemory, hvic] at hpass
      exact hpass) _ rfl hbuffer slot hslot
  exact ⟨hguarded hinside hsent, hinside⟩

/-! ### A drain that sends -/

/-- A C64 whose beam stands still. -/
def beamAt (video : C64VideoStandard) (line : ℕ) : Host Unit where
  bus := quietBus
  hdmiActive _ := true
  takeSpriteSpriteCollision r := (0, r)
  takeSpriteBackgroundCollision r := (0, r)
  clearCollisions r := r
  machine := .c64
  video := video
  rasterLine r := (BitVec.ofNat 16 line, r)

/-- A core that runs nothing. -/
def idleCore : ICpu (System (Fitted Unit)) (System (Fitted Unit)) where
  bus s := s
  setBus _ s := s
  run cpu n := (n, cpu)
  bus_setBus _ _ := rfl
  run_pos _ _ hn := hn
  run_le _ n := Nat.le_add_right n 8

/-- An accelerator as it is constructed, with the registers of the VIC that it has seen. -/
def idleAccelerator (vic : BitVec 6 → Byte) : CSuperCPU (System (Fitted Unit)) where
  cpu :=
    { memory := CC64Memory.construct 0 0 0 vic fun _ => ⟨0, 0, 0, 0⟩
      outside :=
        { rest := ⟨⟨.construct, ()⟩, quietSystem.outside.rest.buffer, false, []⟩
          unit := CREU.construct
          touched := []
          started := 0
          exhausted := false } }
  frameTickDebt := 0
  mirrorDisplayBudget := 0
  scrub := ⟨false, false, 0, false, 0, 0, false⟩
  diagnostic := ⟨false, false, .idle, 0, 0, 0, false, 0⟩
  log := []

/-- A bus, and one byte queued. -/
def oneByte : List WriteBuffer.Op :=
  [.attach true, .onRamWrite ⟨none, none, none, none⟩ 0x8000 1]

theorem count_oneByte :
    (run WriteBuffer.step (construct (fun _ => 0) fun _ => 0) oneByte).queue.count = 1 := by
  decide +kernel

theorem calls_oneByte : ∀ bitmapBase ∈ [0xFFFFFFFF, 0],
    ((run WriteBuffer.step (construct (fun _ => 0) fun _ => 0) oneByte).flushUpToPolicy
      quietSystem.memory.view 1 true 0xFFFFFC08 bitmapBase).2 ≠ [] := by
  decide +kernel

theorem bases_idleAccelerator (vic : BitVec 6 → Byte) :
    (idleAccelerator vic).screenBase idleCore = 0xFFFFFC08 ∧
      (idleAccelerator vic).bitmapBase idleCore ∈ [0xFFFFFFFF, 0] := by
  refine ⟨rfl, ?_⟩
  show (if vic 0x11 &&& 0x20 = 0 then noBase else _).toNat ∈ _
  split
  · exact List.mem_cons_self
  · show (0#32 + if (0 : Byte) &&& 8 ≠ 0 then 0x2000 else 0).toNat ∈ _
    decide

/-- Where the guard sees no sprite, a drain with something to send sends it. -/
theorem startsTransfer_of_guard {video : C64VideoStandard} {vic : BitVec 6 → Byte} {line : ℕ}
    (hguard : c64LineInSpriteFetchSpan vic line = false)
    (hinside : c64DisplayFirstLine video ≤ line ∧ line ≤ c64DisplayLastLine video) :
    StartsTransfer video vic line := by
  refine ⟨_, Unit, idleCore, beamAt video line, idleAccelerator vic, fun _ => 0, fun _ => 0,
    oneByte, ⟨1, 1, 0⟩, rfl, rfl, ?_⟩
  obtain ⟨s, hs⟩ : ∃ s, s = (idleAccelerator vic).withBuffer idleCore
    (run WriteBuffer.step (construct (fun _ => 0) fun _ => 0) oneByte) := ⟨_, rfl⟩
  have hbuffer : s.writeBuffer idleCore =
      run WriteBuffer.step (construct (fun _ => 0) fun _ => 0) oneByte := by
    rw [hs, writeBuffer_withBuffer]
  have hcount : (s.writeBuffer idleCore).queue.count = 1 := hbuffer ▸ count_oneByte
  have hmemory : s.memory idleCore = (idleAccelerator vic).memory idleCore := by rw [hs]; rfl
  obtain ⟨hscreen, hbitmap⟩ := bases_idleAccelerator vic
  have hline : ((rasterLine idleCore (beamAt video line)).run s).1 = line := by
    refine Nat.mod_eq_of_lt (lt_of_le_of_lt hinside.2 ?_)
    cases video <;> decide
  have hdrained : s.drained idleCore = false := by
    rw [drained, hcount]
    rfl
  have hscreen' : s.screenBase idleCore = 0xFFFFFC08 :=
    (congrArg (fun m : CC64Memory => m.fetch.activeScreenBase.toNat) hmemory).trans hscreen
  have hbitmap' : s.bitmapBase idleCore = (idleAccelerator vic).bitmapBase idleCore :=
    congrArg (fun m : CC64Memory => m.fetch.activeBitmapBase.toNat) hmemory
  have hview : (s.memory idleCore).view = quietSystem.memory.view := by rw [hmemory]; rfl
  have hsent := calls_oneByte _ hbitmap
  rw [← hbitmap', ← hscreen', ← hview, ← hbuffer] at hsent
  have hslot := @flushPass_display _ _ idleCore (beamAt video line) (s.screenBase idleCore)
    (s.bitmapBase idleCore) ⟨1, 1, 0⟩ s line hdrained one_ne_zero one_ne_zero hline hinside
    (by rw [hmemory]; exact hguard)
  rw [← hs, hcount]
  exact ⟨_, List.mem_append_left _ (Option.mem_toList.mpr hslot), rfl, hinside, hsent⟩

/-- The guard keeps the drains off a line on which sprites are fetched, exactly if the line is
not one of the picture on which only lower halves are. -/
theorem sprite_guard_iff (video : C64VideoStandard) (vic : BitVec 6 → Byte) (line : ℕ) :
    ((∃ n < 8, FetchesSprite vic n line) → ¬StartsTransfer video vic line) ↔
      ¬(c64DisplayFirstLine video ≤ line ∧ line ≤ c64DisplayLastLine video ∧
        OnlyLowerHalves vic line) := by
  rw [onlyLowerHalves_iff]
  constructor
  · rintro hcovers ⟨hfirst, hlast, hfetch, hguard⟩
    exact hcovers hfetch (startsTransfer_of_guard hguard ⟨hfirst, hlast⟩)
  · intro hexcept hfetch hstarts
    obtain ⟨hguard, hfirst, hlast⟩ := guarded_of_startsTransfer hstarts
    exact hexcept ⟨hfirst, hlast, hfetch, hguard⟩

/-- Sprite 0 of double height at Y 100. -/
def tallSprite (r : BitVec 6) : Byte := if r = 1 then 100 else if r = 0x15 ∨ r = 0x17 then 1 else 0

/-- Line 125 shows its lower half, and a drain sends on it. -/
theorem sends_on_lower_half :
    ¬∀ (video : C64VideoStandard) (vic : BitVec 6 → Byte) (line : ℕ),
      c64DisplayFirstLine video ≤ line → line ≤ c64DisplayLastLine video →
        (∃ n < 8, FetchesSprite vic n line) → ¬StartsTransfer video vic line := by
  intro h
  have hfetch : FetchesSprite tallSprite 0 125 :=
    ⟨by decide, by unfold spriteYOf; decide, by unfold spriteYOf spriteHeight; decide⟩
  refine h .pal tallSprite 125 (by decide) (by decide) ⟨0, by decide, hfetch⟩ ?_
  exact startsTransfer_of_guard (by decide) (by decide)

end ScpuEmu
