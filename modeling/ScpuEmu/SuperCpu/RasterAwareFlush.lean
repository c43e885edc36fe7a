import ScpuEmu.SuperCpu.DiagnosticRepair
import ScpuEmu.SuperCpu.WriteBuffer.BoundedFlush

/-!
# A drain steered by the beam

A drain of the mirror samples the beam before every burst. Each pass of its loop is a slot:
the line it sampled, the work it asked of the write buffer, if the line allowed any, and the
calls on the bus that came of it. Wherever the samples place the beam, the slots keep to the
budgets of the drain, and those inside the picture leave alone what the picture is made of.
-/

namespace ScpuEmu

open Library WriteBuffer

/-- A pass of a drain. -/
structure Slot where
  line : ℕ
  work : Option MirrorWork
  calls : List BusCall

namespace Slot

variable (slot : Slot)

/-- The bytes that it sends. -/
def sent : ℕ := (writes slot.calls).length

/-- The bytes that it sends by policy. -/
def generalSent : ℕ :=
  match slot.work with
  | some (.flushUpToPolicy _ _ _ _) => slot.sent
  | _ => 0

/-- The bytes that it sends out of a range that takes precedence. -/
def prioritySent : ℕ :=
  match slot.work with
  | some (.flushRangeUpTo _ _ _) => slot.sent
  | _ => 0

/-- The sampled line is one of the picture. -/
def InPicture (video : C64VideoStandard) : Prop :=
  c64DisplayFirstLine video ≤ slot.line ∧ slot.line ≤ c64DisplayLastLine video

instance (video : C64VideoStandard) : Decidable (slot.InPicture video) :=
  inferInstanceAs (Decidable (_ ∧ _))

def pictureSent (video : C64VideoStandard) : ℕ := if slot.InPicture video then slot.sent else 0

/-- Its entry of the record. -/
def event? (serial : Bool) : Option FrameEvent :=
  slot.work.map fun work => .mirror serial work slot.calls

/-- Inside the picture it sends nothing of the matrix, the bitmap and the hot blocks. -/
def SparesPicture (m : CC64Memory) : Prop :=
  ∀ x ∈ writes slot.calls,
    let screenBase := m.fetch.activeScreenBase.toNat
    let bitmapBase := m.fetch.activeBitmapBase.toNat
    ¬(screenBase ≤ x.addr.toNat ∧ x.addr.toNat < screenBase + 1000) ∧
      ¬(bitmapBase ≤ x.addr.toNat ∧ x.addr.toNat < bitmapBase + 8000) ∧
      isHot m.view x.addr = false

end Slot

theorem c64RasterIsSafeForBulkTransfer_iff {video : C64VideoStandard} {line : ℕ} :
    c64RasterIsSafeForBulkTransfer video line = true ↔ line < c64RasterLines video ∧
      ¬(c64DisplayFirstLine video ≤ line ∧ line ≤ c64DisplayLastLine video) := by
  rw [c64RasterIsSafeForBulkTransfer, Bool.and_eq_true, Bool.or_eq_true, decide_eq_true_iff,
    decide_eq_true_iff, decide_eq_true_iff, not_and_or, not_le, not_le]

namespace CSuperCPU

variable {κ β : Type} (core : ICpu κ (System (Fitted β))) (b : Host β)

/-! ### Samples and calls -/

theorem memory_rasterLine (s : CSuperCPU κ) :
    ((rasterLine core b).run s).2.memory core = s.memory core :=
  (congrArg (fun x : System (Fitted β) => x.memory) (core.bus_setBus _ _)).trans rfl

theorem writeBuffer_rasterLine (s : CSuperCPU κ) :
    ((rasterLine core b).run s).2.writeBuffer core = s.writeBuffer core :=
  (congrArg (fun x : System (Fitted β) => x.accelerator.buffer) (core.bus_setBus _ _)).trans rfl

theorem memory_mirror (work : MirrorWork) (s : CSuperCPU κ) :
    ((mirror core b work).run s).2.memory core = s.memory core :=
  (congrArg (fun x : System (Fitted β) => x.memory) (core.bus_setBus _ _)).trans rfl

theorem log_mirror (work : MirrorWork) (s : CSuperCPU κ) :
    ((mirror core b work).run s).2.log = .mirror (s.memory core).timing.iecBusActive work
      (work.perform (s.writeBuffer core) (s.memory core).view).2 :: s.log := rfl

/-! ### Passes -/

/-- The slot of a pass, if it samples the beam, the state it leaves, and what is left of the
budgets if the drain goes on. -/
structure Pass (κ : Type) where
  slot : Option Slot
  next : CSuperCPU κ
  left : Option Rations

variable (screenBase bitmapBase : ℕ)

def flushPass (left : Rations) (s : CSuperCPU κ) : Pass κ :=
  if s.drained core = true ∨ left.transferLeft = 0 ∧ left.screenLeft = 0 then ⟨none, s, none⟩
  else
    let line := ((rasterLine core b).run s).1
    let s := ((rasterLine core b).run s).2
    match installment b.video (s.memory core).fetch.vicRegShadow (s.writeBuffer core) screenBase
        bitmapBase line left with
    | none => ⟨some ⟨line, none, []⟩, s, none⟩
    | some i =>
        let chunk := min i.bytes 64
        if chunk = 0 then ⟨some ⟨line, none, []⟩, s, none⟩
        else
          let work := i.work screenBase bitmapBase chunk
          let slot : Slot :=
            ⟨line, some work, (work.perform (s.writeBuffer core) (s.memory core).view).2⟩
          let next := ((mirror core b work).run s).2
          let before := (s.writeBuffer core).queue.count
          let after := (next.writeBuffer core).queue.count
          ⟨some slot, next, if before ≤ after then none else some (left.spend i (before - after))⟩

/-- The slots of a drain. -/
def flushSlots : ℕ → Rations → CSuperCPU κ → List Slot
  | 0, _, _ => []
  | fuel + 1, left, s =>
      let pass := flushPass core b screenBase bitmapBase left s
      pass.slot.toList ++ pass.left.elim [] fun left => flushSlots fuel left pass.next

/-- The loop takes one pass after another. -/
theorem run_flushLoop_succ (fuel : ℕ) (left : Rations) (s : CSuperCPU κ) :
    (CSuperCPU.flushLoop core b screenBase bitmapBase (fuel + 1) left).run s =
      ((flushPass core b screenBase bitmapBase left s).left.elim (pure ⟨⟩)
        (CSuperCPU.flushLoop core b screenBase bitmapBase fuel)).run
        (flushPass core b screenBase bitmapBase left s).next := by
  rw [CSuperCPU.flushLoop, flushPass, run_bind, run_get]
  by_cases hstop : s.drained core = true ∨ left.transferLeft = 0 ∧ left.screenLeft = 0
  · rw [if_pos hstop, if_pos hstop]
    rfl
  rw [if_neg hstop, if_neg hstop, run_bind, run_bind, run_get]
  dsimp only
  generalize (rasterLine core b).run s = sampled
  cases installment b.video (sampled.2.memory core).fetch.vicRegShadow
      (sampled.2.writeBuffer core) screenBase bitmapBase sampled.1 left with
  | none => rfl
  | some i =>
      dsimp only
      by_cases hchunk : min i.bytes 64 = 0
      · rw [if_pos hchunk, if_pos hchunk]
        rfl
      rw [if_neg hchunk, if_neg hchunk, run_bind, run_bind, run_get]
      dsimp only
      split <;> rfl

/-! ### What a pass does -/

/-- A line allows an installment within the budgets, inside the picture only away from
sprites. -/
theorem installment_spec {video : C64VideoStandard} {vic : BitVec 6 → Byte} {buffer : WriteBuffer}
    {line : ℕ} {left : Rations} {i : Installment}
    (h : installment video vic buffer screenBase bitmapBase line left = some i) :
    line < c64RasterLines video ∧
      (i.displayPriority.isSome → i.inDisplay = false ∧ i.bytes ≤ left.screenLeft) ∧
      (i.displayPriority.isSome = false → i.bytes ≤ left.transferLeft) ∧
      (i.inDisplay = true → i.bytes ≤ left.displayLeft ∧
        c64LineInSpriteFetchSpan vic line = false) ∧
      (i.inDisplay = true ↔
        c64DisplayFirstLine video ≤ line ∧ line ≤ c64DisplayLastLine video) := by
  rw [installment] at h
  split at h
  next hsafe =>
    obtain ⟨hline, hborder⟩ := c64RasterIsSafeForBulkTransfer_iff.mp hsafe
    dsimp only at h
    split at h
    next =>
      split at h
      next => cases h
      next =>
        cases h
        exact ⟨hline, fun _ => ⟨rfl, Nat.min_le_right _ _⟩, nofun, nofun,
          iff_of_false nofun hborder⟩
    next =>
      split at h
      next => cases h
      next =>
        cases h
        exact ⟨hline, nofun, fun _ => Nat.min_le_right _ _, nofun, iff_of_false nofun hborder⟩
  next hexposed =>
    rw [c64RasterIsSafeForBulkTransfer_iff, not_and, not_not] at hexposed
    split at h
    next hdisplay =>
      cases h
      exact ⟨hdisplay.1, nofun, fun _ => Nat.min_le_right _ _,
        fun _ => ⟨Nat.min_le_left _ _, hdisplay.2.2.2⟩, iff_of_true rfl (hexposed hdisplay.1)⟩
    next => cases h

/-- What a pass does: the slot it adds to the record, how much of the queue and of the budgets
it takes, and when it ends the drain. -/
structure Pass.Sound (left : Rations) (s : CSuperCPU κ) (pass : Pass κ) : Prop where
  memory : pass.next.memory core = s.memory core
  represents : Represents (pass.next.writeBuffer core)
  log : pass.next.log =
    (pass.slot.bind fun slot => slot.event? (s.memory core).timing.iecBusActive).toList ++ s.log
  bursts : (pass.slot.elim [] Slot.calls).length ≤ pass.slot.elim 0 Slot.sent
  queue : pass.slot.elim 0 Slot.sent + (pass.next.writeBuffer core).queue.count ≤
    (s.writeBuffer core).queue.count
  general : pass.slot.elim 0 Slot.generalSent + pass.left.elim 0 Rations.transferLeft ≤
    left.transferLeft
  priority : pass.slot.elim 0 Slot.prioritySent + pass.left.elim 0 Rations.screenLeft ≤
    left.screenLeft
  picture : (pass.slot.elim 0 fun slot => slot.pictureSent b.video) +
    pass.left.elim 0 Rations.displayLeft ≤ left.displayLeft
  spares : ∀ slot ∈ pass.slot, slot.InPicture b.video → slot.SparesPicture (s.memory core)
  unusable : ∀ slot ∈ pass.slot, c64RasterLines b.video ≤ slot.line →
    slot.calls = [] ∧ pass.left = none
  asked : pass.slot.isSome → 0 < (s.writeBuffer core).queue.count
  goesOn : pass.left.isSome → (pass.next.writeBuffer core).queue.count <
    (s.writeBuffer core).queue.count

/-- A pass that asks for nothing. -/
theorem sound_idle {left : Rations} {s next : CSuperCPU κ} {slot : Option Slot}
    (h : Represents (s.writeBuffer core)) (hslot : ∀ x ∈ slot, x.work = none ∧ x.calls = [])
    (hasked : slot.isSome → 0 < (s.writeBuffer core).queue.count)
    (hmemory : next.memory core = s.memory core)
    (hbuffer : next.writeBuffer core = s.writeBuffer core) (hlog : next.log = s.log) :
    Pass.Sound core b left s ⟨slot, next, none⟩ := by
  have hzero : slot.elim 0 Slot.sent = 0 ∧ slot.elim [] Slot.calls = [] ∧
      slot.elim 0 Slot.generalSent = 0 ∧ slot.elim 0 Slot.prioritySent = 0 ∧
      (slot.elim 0 fun slot => slot.pictureSent b.video) = 0 ∧
      (slot.bind fun slot => slot.event? (s.memory core).timing.iecBusActive) = none := by
    cases slot with
    | none => exact ⟨rfl, rfl, rfl, rfl, rfl, rfl⟩
    | some x =>
        obtain ⟨line, work, calls⟩ := x
        obtain ⟨rfl, rfl⟩ : work = none ∧ calls = [] := hslot _ rfl
        exact ⟨rfl, rfl, rfl, rfl, ite_self 0, rfl⟩
  obtain ⟨hsent, hcalls, hgeneral, hpriority, hpicture, hevent⟩ := hzero
  constructor
  case memory => exact hmemory
  case represents => exact hbuffer ▸ h
  case log => rw [hevent, hlog]; rfl
  case bursts => rw [hcalls]; exact Nat.zero_le _
  case queue => rw [hsent, hbuffer, Nat.zero_add]
  case general => rw [hgeneral]; exact Nat.zero_le _
  case priority => rw [hpriority]; exact Nat.zero_le _
  case picture => rw [hpicture]; exact Nat.zero_le _
  case spares =>
    intro x hx _ y hy
    rw [(hslot x hx).2] at hy
    cases hy
  case unusable => exact fun x hx _ => ⟨(hslot x hx).2, rfl⟩
  case asked => exact hasked
  case goesOn => exact nofun

/-- The calls of an installment: as many bytes as it asks for, and inside the picture none that
the policy protects. -/
theorem sendsWithin_work {buffer : WriteBuffer} (h : Represents buffer) (w : View)
    (i : Installment) (n : ℕ) :
    let done := (i.work screenBase bitmapBase n).perform buffer w
    ∃ take, SendsWithin buffer take n done.1 done.2 ∧ Represents done.1 ∧
      (i.displayPriority.isSome = false → i.inDisplay = true →
        take = (displaySelection true screenBase bitmapBase).take w) := by
  intro done
  have d : Addr → Byte := fun _ => 0
  have hkept := represents_deliveryInvariant w
  cases hpriority : i.displayPriority with
  | some range =>
      have hwork : i.work screenBase bitmapBase n = .flushRangeUpTo range.1 range.2 n := by
        rw [Installment.work, hpriority]
      refine ⟨fun a => addressInRange a range.1 range.2, ?_, ?_, nofun⟩
      · show SendsWithin _ _ _ ((i.work screenBase bitmapBase n).perform buffer w).1
          ((i.work screenBase bitmapBase n).perform buffer w).2
        rw [hwork]
        exact flushRangeLoop_within h w range.1 range.2 _ n
      · show Represents ((i.work screenBase bitmapBase n).perform buffer w).1
        rw [hwork]
        exact flushRangeUpTo_rule hkept buffer d range.1 range.2 n h
  | none =>
      have hwork : i.work screenBase bitmapBase n = .flushUpToPolicy n i.inDisplay
          (if i.inDisplay then screenBase else 0xFFFFFFFF)
          (if i.inDisplay then bitmapBase else 0xFFFFFFFF) := by
        rw [Installment.work, hpriority]
      refine ⟨(displaySelection i.inDisplay (if i.inDisplay then screenBase else 0xFFFFFFFF)
        (if i.inDisplay then bitmapBase else 0xFFFFFFFF)).take w, ?_, ?_, fun _ hinside => ?_⟩
      · show SendsWithin _ _ _ ((i.work screenBase bitmapBase n).perform buffer w).1
          ((i.work screenBase bitmapBase n).perform buffer w).2
        rw [hwork]
        exact flushUpToPolicy_within h w n _ _ _
      · show Represents ((i.work screenBase bitmapBase n).perform buffer w).1
        rw [hwork]
        exact flushUpToPolicy_rule hkept buffer d n _ _ _ h
      · rw [hinside, if_pos rfl, if_pos rfl]

/-- A slot within its installment is within the budgets, and they are charged for it. -/
theorem sent_spend {video : C64VideoStandard} {vic : BitVec 6 → Byte} {buffer : WriteBuffer}
    {left : Rations} {i : Installment} {slot : Slot} {n spent : ℕ}
    (hi : installment video vic buffer screenBase bitmapBase slot.line left = some i)
    (hwork : slot.work = some (i.work screenBase bitmapBase n)) (hbudget : slot.sent ≤ i.bytes)
    (hspent : slot.sent ≤ spent) :
    slot.generalSent + (left.spend i spent).transferLeft ≤ left.transferLeft ∧
      slot.prioritySent + (left.spend i spent).screenLeft ≤ left.screenLeft ∧
      slot.pictureSent video + (left.spend i spent).displayLeft ≤ left.displayLeft := by
  obtain ⟨-, hpriority, hgeneral, hdisplay, hpicture⟩ := installment_spec screenBase bitmapBase hi
  rw [Slot.generalSent, Slot.prioritySent, Slot.pictureSent, hwork, Installment.work, Rations.spend]
  cases hrange : i.displayPriority with
  | some range =>
      rw [hrange] at hpriority
      obtain ⟨hborder, hbytes⟩ := hpriority rfl
      have hout : ¬slot.InPicture video := fun h => by
        rw [hpicture.mpr h] at hborder
        cases hborder
      rw [if_neg hout, Option.isSome_some, if_pos rfl]
      dsimp only
      omega
  | none =>
      rw [hrange] at hgeneral
      have hbytes := hgeneral rfl
      rw [Option.isSome_none, if_neg Bool.false_ne_true]
      dsimp only
      by_cases hinside : i.inDisplay = true
      · have hration := (hdisplay hinside).1
        rw [if_pos hinside]
        split <;> omega
      · have hout : ¬slot.InPicture video := fun h => hinside (hpicture.mpr h)
        rw [if_neg hout, if_neg hinside]
        omega

/-- A pass that sends an installment. -/
theorem sound_sends {left : Rations} {s next : CSuperCPU κ} {line n : ℕ} {i : Installment}
    (h : Represents (s.writeBuffer core)) (hasked : 0 < (s.writeBuffer core).queue.count)
    (hi : installment b.video (s.memory core).fetch.vicRegShadow (s.writeBuffer core)
      (s.screenBase core) (s.bitmapBase core) line left = some i) (hn : n ≤ i.bytes) :
    let work := i.work (s.screenBase core) (s.bitmapBase core) n
    let done := work.perform (s.writeBuffer core) (s.memory core).view
    let before := (s.writeBuffer core).queue.count
    let after := (next.writeBuffer core).queue.count
    next.memory core = s.memory core → next.writeBuffer core = done.1 →
      next.log = .mirror (s.memory core).timing.iecBusActive work done.2 :: s.log →
      Pass.Sound core b left s ⟨some ⟨line, some work, done.2⟩, next,
        if before ≤ after then none else some (left.spend i (before - after))⟩ := by
  intro work done before after hmemory hbuffer hlog
  obtain ⟨hline, hranged, -, -, hpicture⟩ :=
    installment_spec (s.screenBase core) (s.bitmapBase core) hi
  obtain ⟨take, hsends, hrepresents, htake⟩ := sendsWithin_work (s.screenBase core)
    (s.bitmapBase core) h (s.memory core).view i n
  change SendsWithin _ _ _ done.1 done.2 at hsends
  have hcount : (writes done.2).length ≤ before - after := by
    have hqueue := hsends.count
    rw [← hbuffer] at hqueue
    exact Nat.le_sub_of_add_le hqueue
  obtain ⟨hgeneral, hpriority, hdisplay⟩ := @sent_spend (s.screenBase core) (s.bitmapBase core)
    b.video _ _ left i ⟨line, some work, done.2⟩ n _ hi rfl (hsends.budget.trans hn) hcount
  have hleft : ∀ f : Rations → ℕ, (if before ≤ after then none
      else some (left.spend i (before - after))).elim 0 f ≤ f (left.spend i (before - after)) := by
    intro f
    split
    · exact Nat.zero_le _
    · exact le_refl _
  constructor
  case memory => exact hmemory
  case represents => exact hbuffer ▸ hrepresents
  case log => exact hlog
  case bursts => exact hsends.bursts
  case queue =>
    rw [hbuffer]
    exact hsends.count
  case general => exact (Nat.add_le_add_left (hleft _) _).trans hgeneral
  case priority => exact (Nat.add_le_add_left (hleft _) _).trans hpriority
  case picture => exact (Nat.add_le_add_left (hleft _) _).trans hdisplay
  case spares =>
    intro slot hslot hinside x hx
    cases hslot
    have hdisplay := hpicture.mpr hinside
    have hpolicy : i.displayPriority.isSome = false := by
      rw [← Bool.not_eq_true]
      intro hrange
      rw [(hranged hrange).1] at hdisplay
      cases hdisplay
    have htaken := hsends.taken x hx
    rw [htake hpolicy hdisplay] at htaken
    obtain ⟨hmatrix, hbitmap, hhot⟩ := take_displaySelection htaken
    exact ⟨hmatrix, hbitmap, hhot rfl⟩
  case unusable =>
    intro slot hslot hout
    cases hslot
    exact absurd hline (not_lt.mpr hout)
  case asked => exact fun _ => hasked
  case goesOn =>
    intro hgoes
    by_contra hstuck
    dsimp only at hgoes
    rw [if_pos (not_lt.mp hstuck)] at hgoes
    cases hgoes

theorem sound_flushPass (left : Rations) {s : CSuperCPU κ} (h : Represents (s.writeBuffer core)) :
    (flushPass core b (s.screenBase core) (s.bitmapBase core) left s).Sound core b left s := by
  rw [flushPass]
  split
  next => exact sound_idle core b h nofun nofun rfl rfl rfl
  next hstop =>
  have hcount : 0 < (s.writeBuffer core).queue.count := by
    rw [not_or, drained, decide_eq_true_iff] at hstop
    exact Nat.pos_of_ne_zero hstop.1
  have hmemory := memory_rasterLine core b s
  have hbuffer := writeBuffer_rasterLine core b s
  have hlog : ((rasterLine core b).run s).2.log = s.log := rfl
  generalize (rasterLine core b).run s = sampled at hmemory hbuffer hlog ⊢
  obtain ⟨line, sampled⟩ := sampled
  dsimp only at hmemory hbuffer hlog ⊢
  rw [hmemory, hbuffer]
  cases hi : installment b.video (s.memory core).fetch.vicRegShadow (s.writeBuffer core)
      (s.screenBase core) (s.bitmapBase core) line left with
  | none => exact sound_idle core b h (by simp) (fun _ => hcount) hmemory hbuffer hlog
  | some i =>
      dsimp only
      split
      next => exact sound_idle core b h (by simp) (fun _ => hcount) hmemory hbuffer hlog
      next =>
        refine sound_sends core b h hcount hi (Nat.min_le_left _ _) ?_ ?_ ?_
        · rw [memory_mirror, hmemory]
        · rw [writeBuffer_mirror, hmemory, hbuffer]
        · rw [log_mirror, hmemory, hbuffer, hlog]

/-! ### The whole drain -/

/-- What the slots of a drain do, together. -/
structure DrainsWithin (left : Rations) (s : CSuperCPU κ) (slots : List Slot) : Prop where
  passes : slots.length ≤ (s.writeBuffer core).queue.count
  bursts : (slots.flatMap Slot.calls).length ≤ (s.writeBuffer core).queue.count
  general : (slots.map Slot.generalSent).sum ≤ left.transferLeft
  priority : (slots.map Slot.prioritySent).sum ≤ left.screenLeft
  picture : (slots.map fun slot => slot.pictureSent b.video).sum ≤ left.displayLeft
  spares : ∀ slot ∈ slots, slot.InPicture b.video → slot.SparesPicture (s.memory core)
  unusable : ∀ before slot after, slots = before ++ slot :: after →
    c64RasterLines b.video ≤ slot.line → slot.calls = [] ∧ after = []

theorem drainsWithin_nil (left : Rations) (s : CSuperCPU κ) : DrainsWithin core b left s [] := by
  refine ⟨Nat.zero_le _, Nat.zero_le _, Nat.zero_le _, Nat.zero_le _, Nat.zero_le _, ?_, ?_⟩
  · exact fun slot hslot => nomatch hslot
  · intro before slot after hslots
    simp at hslots

theorem sum_toList_append (f : Slot → ℕ) (slot : Option Slot) (slots : List Slot) :
    ((slot.toList ++ slots).map f).sum = slot.elim 0 f + (slots.map f).sum := by
  cases slot <;> simp

variable {core b} in
/-- A pass and the drain that goes on after it. -/
theorem Pass.Sound.drainsWithin {left : Rations} {s : CSuperCPU κ} {pass : Pass κ}
    (h : pass.Sound core b left s) {slots : List Slot}
    (hrest : ∀ left', pass.left = some left' → DrainsWithin core b left' pass.next slots)
    (hend : pass.left = none → slots = []) :
    DrainsWithin core b left s (pass.slot.toList ++ slots) := by
  have hwithin : ∀ (f : Slot → ℕ) (g : Rations → ℕ), pass.slot.elim 0 f + pass.left.elim 0 g ≤
      g left → (∀ left', pass.left = some left' → (slots.map f).sum ≤ g left') →
      ((pass.slot.toList ++ slots).map f).sum ≤ g left := by
    intro f g hpass hslots
    rw [sum_toList_append]
    refine (Nat.add_le_add_left ?_ _).trans hpass
    cases hleft : pass.left with
    | none => rw [hend hleft]; exact Nat.zero_le _
    | some left' => exact hslots left' hleft
  have hqueue := h.queue
  have hbursts := h.bursts
  constructor
  case passes =>
    have hone : pass.slot.toList.length ≤ 1 ∧
        pass.slot.toList.length ≤ (s.writeBuffer core).queue.count := by
      cases hslot : pass.slot with
      | none => exact ⟨Nat.zero_le _, Nat.zero_le _⟩
      | some slot => exact ⟨le_refl _, h.asked (by rw [hslot]; rfl)⟩
    rw [List.length_append]
    cases hleft : pass.left with
    | none =>
        rw [hend hleft]
        exact hone.2
    | some left' =>
        have hgoes := h.goesOn (by rw [hleft]; rfl)
        have hpasses := (hrest left' hleft).passes
        omega
  case bursts =>
    have hfirst : (pass.slot.toList.flatMap Slot.calls) = pass.slot.elim [] Slot.calls := by
      cases pass.slot <;> simp
    rw [List.flatMap_append, List.length_append, hfirst]
    cases hleft : pass.left with
    | none =>
        rw [hend hleft, List.flatMap_nil, List.length_nil]
        omega
    | some left' =>
        have hlater := (hrest left' hleft).bursts
        omega
  case general => exact hwithin _ _ h.general fun left' hleft => (hrest left' hleft).general
  case priority => exact hwithin _ _ h.priority fun left' hleft => (hrest left' hleft).priority
  case picture => exact hwithin _ _ h.picture fun left' hleft => (hrest left' hleft).picture
  case spares =>
    intro slot hslot hinside
    rcases List.mem_append.mp hslot with hfirst | hlater
    · exact h.spares slot (Option.mem_toList.mp hfirst) hinside
    · cases hleft : pass.left with
      | none => rw [hend hleft] at hlater; cases hlater
      | some left' => exact h.memory ▸ (hrest left' hleft).spares slot hlater hinside
  case unusable =>
    intro before slot after hslots hout
    have hlater : ∀ before, slots = before ++ slot :: after → slot.calls = [] ∧ after = [] := by
      intro before hslots
      cases hleft : pass.left with
      | none =>
          rw [hend hleft] at hslots
          simp at hslots
      | some left' => exact (hrest left' hleft).unusable before slot after hslots hout
    cases hslot : pass.slot with
    | none =>
        rw [hslot] at hslots
        exact hlater before hslots
    | some first =>
        rw [hslot] at hslots
        cases before with
        | nil =>
            obtain ⟨rfl, rfl⟩ := List.cons.inj hslots
            obtain ⟨hcalls, hleft⟩ := h.unusable first hslot hout
            exact ⟨hcalls, hend hleft⟩
        | cons other before => exact hlater before (List.cons.inj hslots).2

variable {core b} in
/-- The bases do not move during a drain. -/
theorem Pass.Sound.bases {left : Rations} {s : CSuperCPU κ} {pass : Pass κ}
    (h : pass.Sound core b left s) : pass.next.screenBase core = s.screenBase core ∧
      pass.next.bitmapBase core = s.bitmapBase core := by
  rw [CSuperCPU.screenBase, CSuperCPU.screenBase, CSuperCPU.bitmapBase, CSuperCPU.bitmapBase,
    h.memory]
  exact ⟨rfl, rfl⟩

theorem drainsWithin_flushSlots (fuel : ℕ) {left : Rations} {s : CSuperCPU κ}
    (h : Represents (s.writeBuffer core)) :
    DrainsWithin core b left s
      (flushSlots core b (s.screenBase core) (s.bitmapBase core) fuel left s) := by
  induction fuel generalizing left s with
  | zero => exact drainsWithin_nil core b left s
  | succ fuel ih =>
      have hpass := sound_flushPass core b left h
      rw [flushSlots]
      generalize flushPass core b (s.screenBase core) (s.bitmapBase core) left s = pass at hpass ⊢
      refine hpass.drainsWithin ?_ ?_
      · intro left' hleft
        rw [hleft, ← hpass.bases.1, ← hpass.bases.2]
        exact ih hpass.represents
      · intro hleft
        rw [hleft]
        rfl

theorem run_flushLoop_of_empty {s : CSuperCPU κ} (h : (s.writeBuffer core).queue.count = 0)
    (fuel : ℕ) (left : Rations) :
    (CSuperCPU.flushLoop core b screenBase bitmapBase fuel left).run s = (⟨⟩, s) := by
  cases fuel with
  | zero => rfl
  | succ fuel =>
      have hdrained : s.drained core = true := by
        rw [drained, h]
        rfl
      rw [CSuperCPU.flushLoop, run_bind, run_get, if_pos (.inl hdrained)]
      rfl

/-- More fuel than there are bytes queued changes nothing. -/
theorem run_flushLoop_fuel {left : Rations} {s : CSuperCPU κ}
    (h : Represents (s.writeBuffer core)) {fuel fuel' : ℕ}
    (hfuel : (s.writeBuffer core).queue.count ≤ fuel)
    (hfuel' : (s.writeBuffer core).queue.count ≤ fuel') :
    (CSuperCPU.flushLoop core b (s.screenBase core) (s.bitmapBase core) fuel left).run s =
      (CSuperCPU.flushLoop core b (s.screenBase core) (s.bitmapBase core) fuel' left).run s := by
  induction fuel generalizing fuel' left s with
  | zero =>
      have hempty := Nat.le_zero.mp hfuel
      rw [run_flushLoop_of_empty core b _ _ hempty, run_flushLoop_of_empty core b _ _ hempty]
  | succ fuel ih =>
      cases fuel' with
      | zero =>
          have hempty := Nat.le_zero.mp hfuel'
          rw [run_flushLoop_of_empty core b _ _ hempty, run_flushLoop_of_empty core b _ _ hempty]
      | succ fuel' =>
          have hpass := sound_flushPass core b left h
          rw [run_flushLoop_succ, run_flushLoop_succ]
          generalize flushPass core b (s.screenBase core) (s.bitmapBase core) left s = pass
            at hpass ⊢
          cases hleft : pass.left with
          | none => rfl
          | some left' =>
              have hgoes := hpass.goesOn (by rw [hleft]; rfl)
              rw [← hpass.bases.1, ← hpass.bases.2]
              exact ih hpass.represents (by omega) (by omega)

/-- The drain puts its slots on record. -/
theorem log_flushLoop (fuel : ℕ) {left : Rations} {s : CSuperCPU κ}
    (h : Represents (s.writeBuffer core)) :
    ((CSuperCPU.flushLoop core b (s.screenBase core) (s.bitmapBase core) fuel left).run s).2.log =
      ((flushSlots core b (s.screenBase core) (s.bitmapBase core) fuel left s).filterMap
        fun slot => slot.event? (s.memory core).timing.iecBusActive).reverse ++ s.log := by
  induction fuel generalizing left s with
  | zero => rfl
  | succ fuel ih =>
      have hpass := sound_flushPass core b left h
      rw [run_flushLoop_succ, flushSlots]
      generalize flushPass core b (s.screenBase core) (s.bitmapBase core) left s = pass at hpass ⊢
      have hevent : (pass.slot.toList.filterMap fun slot =>
          slot.event? (s.memory core).timing.iecBusActive).reverse =
          (pass.slot.bind fun slot => slot.event? (s.memory core).timing.iecBusActive).toList := by
        cases pass.slot with
        | none => rfl
        | some slot =>
            cases hslot : slot.event? (s.memory core).timing.iecBusActive <;> simp [hslot]
      rw [List.filterMap_append, List.reverse_append, hevent, List.append_assoc, ← hpass.log]
      cases hleft : pass.left with
      | none => rfl
      | some left' =>
          have hrest := @ih left' _ hpass.represents
          rw [hpass.bases.1, hpass.bases.2, hpass.memory] at hrest
          exact hrest

/-- With another write buffer. -/
def withBuffer (s : CSuperCPU κ) (buffer : WriteBuffer) : CSuperCPU κ :=
  { s with
    cpu :=
      core.setBus s.cpu ((core.bus s.cpu).mapAccelerator fun o => { o with buffer := buffer }) }

theorem writeBuffer_withBuffer (s : CSuperCPU κ) (buffer : WriteBuffer) :
    (s.withBuffer core buffer).writeBuffer core = buffer :=
  (congrArg (fun x : System (Fitted β) => x.accelerator.buffer) (core.bus_setBus _ _)).trans rfl

end CSuperCPU

open CSuperCPU

/-- Whatever is queued and wherever the beam is sampled, a drain ends by itself, with no more
bursts than bytes were queued, and keeps to its budgets. Inside the picture it sends nothing
that the picture is made of, and after a sample that is no line of the frame nothing at all. -/
theorem flushMirrorsRasterAware_bounded {κ β : Type} (core : ICpu κ (System (Fitted β)))
    (b : Host β) (start : CSuperCPU κ) (pendingValue : Addr → Byte) (list : ℕ → Addr)
    (ops : List WriteBuffer.Op) (left : Rations) :
    let s := start.withBuffer core (run WriteBuffer.step (construct pendingValue list) ops)
    let queued := (s.writeBuffer core).queue.count
    let slots := flushSlots core b (s.screenBase core) (s.bitmapBase core) queued left s
    ((flushMirrorsRasterAware core b left).run s).2.log =
        (slots.filterMap fun slot =>
          slot.event? (s.memory core).timing.iecBusActive).reverse ++ s.log ∧
      (∀ fuel, queued ≤ fuel →
        (CSuperCPU.flushLoop core b (s.screenBase core) (s.bitmapBase core) fuel left).run s =
          (flushMirrorsRasterAware core b left).run s) ∧
      DrainsWithin core b left s slots := by
  intro s queued slots
  have h : Represents (s.writeBuffer core) := by
    rw [writeBuffer_withBuffer]
    exact represents_run pendingValue list ops
  refine ⟨log_flushLoop core b _ h, fun fuel hfuel => ?_, drainsWithin_flushSlots core b _ h⟩
  exact run_flushLoop_fuel core b h hfuel (le_refl _)

end ScpuEmu
