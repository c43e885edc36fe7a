import ScpuEmu.SuperCpu.FrameRecord
import ScpuEmu.Library.TransitionSystem
import Mathlib.Algebra.BigOperators.Group.List.Basic

/-!
# The ticks of a frame

A frame owes 20 MHz ticks for a picture of the C64. Its slices run until what the frame
before ran ahead and what they run themselves have used these up, and the last of them may go
past the end by less than nine cycles. The run towards the border is carried to the next frame.
-/

namespace ScpuEmu

open Library

/-! ### The books -/

namespace FrameEvent

def slice? : FrameEvent → Option RunCall
  | .slice call => some call
  | _ => none

def approach? : FrameEvent → Option RunCall
  | .approach call => some call
  | _ => none

end FrameEvent

/-- The runs in the slices of a record, the latest first. -/
def slices (log : List FrameEvent) : List RunCall := log.filterMap FrameEvent.slice?

/-- The runs towards the border. -/
def approaches (log : List FrameEvent) : List RunCall := log.filterMap FrameEvent.approach?

def totalTicks (calls : List RunCall) : ℕ := (calls.map RunCall.ticks).sum

def totalRan (calls : List RunCall) : ℕ := (calls.map RunCall.ran).sum

/-- A run at one of the two speeds, with a budget. It advances, and overshoots the budget by
eight cycles at most. -/
structure RunCall.Sound (call : RunCall) : Prop where
  ticksPerCycle : call.ticksPerCycle = 1 ∨ call.ticksPerCycle = 20
  budget : 0 < call.budget
  advances : 0 < call.ran
  overshoots : call.ran ≤ call.budget + 8

/-- What the books say of a frame: the debt that it repays, its part of the record, by how
many ticks its slices overshoot, and the debt that it carries on. -/
structure FrameAccount where
  repaid : ℕ
  events : List FrameEvent
  overshoot : ℕ
  carried : ℕ

/-- The cycles that the core ran in a frame. -/
def FrameAccount.ran (account : FrameAccount) : ℕ :=
  totalRan (slices account.events) + totalRan (approaches account.events)

/-- The books of a frame balance. -/
structure FrameAccount.Balanced (account : FrameAccount) (frameTicks : ℕ) : Prop where
  granted : account.repaid + totalTicks (slices account.events) = frameTicks + account.overshoot
  last : ∃ call, (slices account.events).head? = some call ∧
    account.overshoot < 9 * call.ticksPerCycle
  carried : account.carried = totalTicks (approaches account.events)
  repaid_lt : account.repaid < frameTicks
  carried_lt : account.carried < frameTicks
  sound : ∀ call ∈ slices account.events ++ approaches account.events, call.Sound

@[simp] theorem slices_append (l l' : List FrameEvent) : slices (l ++ l') = slices l ++ slices l' :=
  List.filterMap_append

@[simp] theorem approaches_append (l l' : List FrameEvent) :
    approaches (l ++ l') = approaches l ++ approaches l' := List.filterMap_append

@[simp] theorem totalTicks_append (l l' : List RunCall) :
    totalTicks (l ++ l') = totalTicks l + totalTicks l' := by
  simp [totalTicks]

@[simp] theorem slices_slice (call : RunCall) (l : List FrameEvent) :
    slices (.slice call :: l) = call :: slices l := rfl

@[simp] theorem approaches_slice (call : RunCall) (l : List FrameEvent) :
    approaches (.slice call :: l) = approaches l := rfl

@[simp] theorem totalTicks_cons (call : RunCall) (l : List RunCall) :
    totalTicks (call :: l) = call.ticks + totalTicks l := by
  simp [totalTicks]

@[simp] theorem totalTicks_nil : totalTicks [] = 0 := rfl

@[simp] theorem totalRan_append (l l' : List RunCall) :
    totalRan (l ++ l') = totalRan l + totalRan l' := by
  simp [totalRan]

@[simp] theorem totalRan_cons (call : RunCall) (l : List RunCall) :
    totalRan (call :: l) = call.ran + totalRan l := by
  simp [totalRan]

@[simp] theorem totalRan_nil : totalRan [] = 0 := rfl

namespace CSuperCPU

variable {κ β α : Type} (core : ICpu κ (System (Fitted β))) (b : Host β)

/-! ### Programs that run nothing -/

/-- Entries without a run of the core. -/
structure NoRuns (works : List FrameEvent) : Prop where
  noSlice : slices works = []
  noApproach : approaches works = []

theorem NoRuns.append {works works' : List FrameEvent} (h : NoRuns works) (h' : NoRuns works') :
    NoRuns (works ++ works') := by
  constructor
  · rw [slices_append, h.noSlice, h'.noSlice, List.append_nil]
  · rw [approaches_append, h.noApproach, h'.noApproach, List.append_nil]

/-- A record to which no run was added, and a debt that stayed. -/
def Unran (before : List FrameEvent) (owed : ℕ) (log : List FrameEvent) (debt : ℕ) : Prop :=
  (∃ works, log = works ++ before ∧ NoRuns works) ∧ debt = owed

theorem admitsWork_unran (before : List FrameEvent) (owed : ℕ) :
    AdmitsWork (Unran before owed) := by
  rintro log debt work calls ⟨⟨works, rfl, hworks⟩, rfl⟩
  exact ⟨⟨_ :: works, rfl, hworks.noSlice, hworks.noApproach⟩, rfl⟩

/-- The program adds no run to the record, and leaves the debt alone. -/
def RunsNothing (m : FrameM κ α) : Prop := ∀ before owed, Keeps (OnBooks (Unran before owed)) m

theorem RunsNothing.run {m : FrameM κ α} (h : RunsNothing m) (s : CSuperCPU κ) :
    (∃ works, (m.run s).2.log = works ++ s.log ∧ NoRuns works) ∧
      (m.run s).2.frameTickDebt = s.frameTickDebt :=
  h s.log s.frameTickDebt s ⟨⟨[], rfl, rfl, rfl⟩, rfl⟩

/-! ### The slices -/

theorem frameTicks_pos : 0 < frameTicks b := by
  unfold frameTicks
  cases b.video <;> decide

theorem ticksPerCycle_eq (throttled : Bool) (r : CSuperCPURegisters) :
    ticksPerCycle throttled r.currentClockHz = 1 ∨
    ticksPerCycle throttled r.currentClockHz = 20 := by
  unfold ticksPerCycle CSuperCPURegisters.currentClockHz
  cases throttled <;> cases r.fastMode <;> decide

theorem returns_paceSlice : Returns (fun n => n = 1 ∨ n = 20) (paceSlice core b) := by
  intro s
  exact ticksPerCycle_eq _ _

/-- The ticks that slices have used and the ticks they overshoot the frame by. -/
structure Sliced (frameTicks used : ℕ) (added : List FrameEvent) (overshoot : ℕ) : Prop where
  granted : used + totalTicks (slices added) = frameTicks + overshoot
  last : ∃ call, (slices added).head? = some call ∧ overshoot < 9 * call.ticksPerCycle
  noApproach : approaches added = []
  sound : ∀ call ∈ slices added, call.Sound

/-- A slice is given a budget, and its run goes past the end of the frame by less than nine
cycles. -/
theorem sliceBudget_bounds {used perCycle ran : ℕ} (hperCycle : perCycle = 1 ∨ perCycle = 20)
    (hused : used < frameTicks b) (hran : ran ≤ sliceBudget b used perCycle + 8) :
    0 < sliceBudget b used perCycle ∧ used + ran * perCycle < frameTicks b + 9 * perCycle := by
  have hframe : 128 * 20 ≤ frameTicks b := by
    unfold frameTicks
    cases b.video <;> decide
  unfold sliceBudget at hran ⊢
  rcases hperCycle with rfl | rfl <;> omega

/-- The last slice of a frame, and the works around it. -/
theorem sliced_last {frameTicks used : ℕ} {call : RunCall} {works works' : List FrameEvent}
    (hsound : call.Sound) (hover : frameTicks ≤ used + call.ticks)
    (hlast : used + call.ticks < frameTicks + 9 * call.ticksPerCycle)
    (hworks : NoRuns works) (hworks' : NoRuns works') :
    Sliced frameTicks used (works' ++ .slice call :: works) (used + call.ticks - frameTicks) := by
  have hslices : slices (works' ++ .slice call :: works) = [call] := by
    simp [hworks.noSlice, hworks'.noSlice]
  refine ⟨?_, ⟨call, ?_, by omega⟩, ?_, ?_⟩
  · rw [hslices, totalTicks_cons, totalTicks_nil]
    omega
  · rw [hslices]
    rfl
  · simp [hworks.noApproach, hworks'.noApproach]
  · simpa [hslices] using hsound

/-- A slice before the others. -/
theorem Sliced.after {frameTicks used overshoot : ℕ} {call : RunCall}
    {added works works' : List FrameEvent}
    (h : Sliced frameTicks (used + call.ticks) added overshoot)
    (hsound : call.Sound) (hworks : NoRuns works) (hworks' : NoRuns works') :
    Sliced frameTicks used (added ++ (works' ++ .slice call :: works)) overshoot := by
  have hslices : slices (added ++ (works' ++ .slice call :: works)) = slices added ++ [call] := by
    simp [hworks.noSlice, hworks'.noSlice]
  obtain ⟨last, hlast, hovershoot⟩ := h.last
  refine ⟨?_, ⟨last, ?_, hovershoot⟩, ?_, ?_⟩
  · have hgranted := h.granted
    rw [hslices, totalTicks_append, totalTicks_cons, totalTicks_nil]
    omega
  · rw [hslices]
    simp [hlast]
  · simp [h.noApproach, hworks.noApproach, hworks'.noApproach]
  · rw [hslices]
    simpa [or_imp, forall_and, hsound] using h.sound

theorem run_runCpu (event : RunCall → FrameEvent) (budget perCycle : ℕ) (s : CSuperCPU κ) :
    (runCpu core event budget perCycle).run s =
      ((core.run s.cpu budget).1,
        { s with
          cpu := (core.run s.cpu budget).2
          log := event ⟨budget, perCycle, (core.run s.cpu budget).1⟩ :: s.log }) := rfl

/-- One round of the loop: a slice of the core, and works before and after it. -/
theorem frameLoop_round (left : Rations) (fuel used executed : ℕ) (sawIEC : Bool)
    (hused : used < frameTicks b) (s : CSuperCPU κ) :
    ∃ call works works' s' sawIEC',
      (frameLoop core b left (fuel + 1) used executed sawIEC).run s =
        (frameLoop core b left fuel (used + call.ticks) (executed + call.ran) sawIEC').run s' ∧
      s'.log = works' ++ .slice call :: works ++ s.log ∧ s'.frameTickDebt = s.frameTickDebt ∧
      call.Sound ∧ used + call.ticks < frameTicks b + 9 * call.ticksPerCycle ∧
      NoRuns works ∧ NoRuns works' := by
  have hscrub :
      RunsNothing (updateDisplayScrubPhase core b (decide (s.bitmapBase core < 0x10000))) :=
    fun _ _ => keeps_updateDisplayScrubPhase core b _
  have hpace : RunsNothing (paceSlice core b) := fun _ _ => keeps_paceSlice core b
  have hdrain (ticksUsed : ℕ) : RunsNothing (flushOpportunity core b left ticksUsed) :=
    fun before owed => keeps_flushOpportunity core b (admitsWork_unran before owed) left ticksUsed
  have hrepair (ticksUsed : ℕ) :
      RunsNothing (scrubOpportunity core b (s.bitmapBase core) ticksUsed) :=
    fun before owed => keeps_scrubOpportunity core b (admitsWork_unran before owed) _ ticksUsed
  rw [frameLoop, if_neg (Nat.not_le_of_lt hused), run_bind, run_get, run_bind, run_bind]
  obtain ⟨⟨works₁, hlog₁, hworks₁⟩, hdebt₁⟩ := hscrub.run s
  generalize ((updateDisplayScrubPhase core b _).run s).2 = s₁ at hlog₁ hdebt₁ ⊢
  obtain ⟨⟨works₂, hlog₂, hworks₂⟩, hdebt₂⟩ := hpace.run s₁
  have hperCycle := returns_paceSlice core b s₁
  generalize (paceSlice core b).run s₁ = x at hlog₂ hdebt₂ hperCycle ⊢
  obtain ⟨perCycle, s₂⟩ := x
  have hran := core.run_le s₂.cpu (sliceBudget b used perCycle)
  obtain ⟨hbudget, hover⟩ := sliceBudget_bounds b hperCycle hused hran
  have hpos := core.run_pos s₂.cpu _ hbudget
  dsimp only at hlog₂ hdebt₂ hperCycle hbudget hover hpos
  rw [run_bind, run_runCpu, run_bind, run_get]
  dsimp only
  obtain ⟨call, hcall⟩ : ∃ call : RunCall, call =
      ⟨sliceBudget b used perCycle, perCycle, (core.run s₂.cpu (sliceBudget b used perCycle)).1⟩ :=
    ⟨_, rfl⟩
  have hticks : used + (core.run s₂.cpu (sliceBudget b used perCycle)).1 * perCycle =
      used + call.ticks := by rw [hcall, RunCall.ticks]
  have hexecuted : executed + (core.run s₂.cpu (sliceBudget b used perCycle)).1 =
      executed + call.ran := by rw [hcall]
  obtain ⟨s₃, hs₃⟩ : ∃ s₃ : CSuperCPU κ, s₃ =
      { s₂ with
        cpu := (core.run s₂.cpu (sliceBudget b used perCycle)).2
        log := .slice call :: s₂.log } :=
    ⟨_, rfl⟩
  rw [← hcall, ← hs₃, hticks, hexecuted, run_bind, run_bind]
  obtain ⟨⟨works₄, hlog₄, hworks₄⟩, hdebt₄⟩ := (hdrain (used + call.ticks)).run s₃
  generalize ((flushOpportunity core b left (used + call.ticks)).run s₃).2 = s₄ at hlog₄ hdebt₄ ⊢
  obtain ⟨⟨works₅, hlog₅, hworks₅⟩, hdebt₅⟩ := (hrepair (used + call.ticks)).run s₄
  generalize ((scrubOpportunity core b (s.bitmapBase core) (used + call.ticks)).run s₄).2 = s₅
    at hlog₅ hdebt₅ ⊢
  refine ⟨call, works₂ ++ works₁, works₅ ++ works₄, s₅, _, rfl, ?_, ?_, ?_, ?_,
    hworks₂.append hworks₁, hworks₅.append hworks₄⟩
  · rw [hlog₅, hlog₄, hs₃]
    dsimp only
    rw [hlog₂, hlog₁]
    simp
  · rw [hdebt₅, hdebt₄, hs₃]
    exact hdebt₂.trans hdebt₁
  · rw [hcall]
    exact ⟨hperCycle, hbudget, hpos, hran⟩
  · rw [← hticks, hcall]
    exact hover

/-- The slices of a frame, until the ticks are used up: the fuel lasts. -/
theorem frameLoop_slices (left : Rations) (fuel used executed : ℕ) (sawIEC : Bool)
    (hused : used < frameTicks b) (hfuel : frameTicks b ≤ used + fuel) (s : CSuperCPU κ) :
    ∃ added overshoot,
      ((frameLoop core b left fuel used executed sawIEC).run s).2.log = added ++ s.log ∧
      ((frameLoop core b left fuel used executed sawIEC).run s).2.frameTickDebt = s.frameTickDebt ∧
      ((frameLoop core b left fuel used executed sawIEC).run s).1.1 =
        executed + totalRan (slices added) ∧
      Sliced (frameTicks b) used added overshoot := by
  induction fuel generalizing used executed sawIEC s with
  | zero => omega
  | succ fuel ih =>
      obtain ⟨call, works, works', s', sawIEC', hrun, hlog, hdebt, hsound, hlast, hworks,
        hworks'⟩ := frameLoop_round core b left fuel used executed sawIEC hused s
      have hticks : 0 < call.ticks :=
        Nat.mul_pos hsound.advances
          (by rcases hsound.ticksPerCycle with h | h <;> rw [h] <;> decide)
      rw [hrun]
      by_cases hover : frameTicks b ≤ used + call.ticks
      · have hdone : (frameLoop core b left fuel (used + call.ticks) (executed + call.ran)
            sawIEC').run s' = ((executed + call.ran, sawIEC'), s') := by
          cases fuel with
          | zero => rfl
          | succ fuel =>
              rw [frameLoop, if_pos hover]
              rfl
        rw [hdone]
        refine ⟨works' ++ .slice call :: works, used + call.ticks - frameTicks b, hlog, hdebt, ?_,
          sliced_last hsound hover hlast hworks hworks'⟩
        simp [hworks.noSlice, hworks'.noSlice]
      · obtain ⟨added, overshoot, hlog', hdebt', hran, hsliced⟩ :=
          ih (used + call.ticks) (executed + call.ran) sawIEC'
            (Nat.lt_of_not_le hover) (by omega) s'
        refine ⟨added ++ (works' ++ .slice call :: works), overshoot, ?_, hdebt'.trans hdebt, ?_,
          hsliced.after hsound hworks hworks'⟩
        · rw [hlog', hlog]
          simp
        · rw [hran]
          simp [hworks.noSlice, hworks'.noSlice, Nat.add_assoc, Nat.add_comm]

/-! ### The run towards the border -/

/-- The ticks that a run towards the border adds to the debt are fewer than those of a frame. -/
structure Approached (frameTicks : ℕ) (added : List FrameEvent) : Prop where
  noSlice : slices added = []
  lt : totalTicks (approaches added) < frameTicks
  sound : ∀ call ∈ approaches added, call.Sound

theorem NoRuns.approached {frameTicks : ℕ} {works : List FrameEvent} (h : NoRuns works)
    (hframe : 0 < frameTicks) : Approached frameTicks works := by
  refine ⟨h.noSlice, ?_, ?_⟩ <;> simp [h.noApproach, hframe]

theorem Approached.around {frameTicks : ℕ} {added works works' : List FrameEvent}
    (h : Approached frameTicks added) (hworks : NoRuns works) (hworks' : NoRuns works') :
    Approached frameTicks (works' ++ added ++ works) := by
  have happroaches : approaches (works' ++ added ++ works) = approaches added := by
    simp [hworks.noApproach, hworks'.noApproach]
  refine ⟨?_, ?_, ?_⟩
  · simp [h.noSlice, hworks.noSlice, hworks'.noSlice]
  · rw [happroaches]
    exact h.lt
  · rw [happroaches]
    exact h.sound

/-- Inside the picture, the border is at least one line away, and never a frame. -/
theorem approachTicks_bounds {line perCycle : ℕ} (hperCycle : perCycle = 1 ∨ perCycle = 20)
    (hline : line < c64RasterLines b.video)
    (hinside : c64RasterIsSafeForBulkTransfer b.video line = false) :
    let ticks := (c64DisplayLastLine b.video + 1 - line) * c64CyclesPerLine b.video * 20
    0 < ticks / perCycle ∧ (ticks / perCycle + 8) * perCycle < frameTicks b := by
  have hwindow : c64DisplayFirstLine b.video ≤ line ∧ line ≤ c64DisplayLastLine b.video := by
    simpa [c64RasterIsSafeForBulkTransfer, hline] using hinside
  unfold frameTicks
  revert hwindow
  rcases hperCycle with rfl | rfl <;> cases b.video <;>
    simp only [c64DisplayFirstLine, c64DisplayLastLine, c64CyclesPerLine, c64RasterLines,
      reduceCtorEq, if_true, if_false] <;> omega

theorem approachBorder_books (line : ℕ) (s : CSuperCPU κ) :
    ∃ added, ((approachBorder core b line).run s).2.log = added ++ s.log ∧
      ((approachBorder core b line).run s).2.frameTickDebt =
        s.frameTickDebt + totalTicks (approaches added) ∧
      ((approachBorder core b line).run s).1 = totalRan (approaches added) ∧
      Approached (frameTicks b) added := by
  have hframe := frameTicks_pos b
  unfold approachBorder
  split
  next hinside =>
    have hperCycle := ticksPerCycle_eq (s.memory core).timing.iecActive (s.registers core)
    rw [run_bind, run_get, run_bind, run_runCpu, run_bind, run_modify]
    dsimp only
    generalize ticksPerCycle (s.memory core).timing.iecActive (s.registers core).currentClockHz =
      perCycle at hperCycle ⊢
    obtain ⟨hbudget, hlt⟩ := approachTicks_bounds b hperCycle hinside.1 hinside.2
    generalize (c64DisplayLastLine b.video + 1 - line) * c64CyclesPerLine b.video * 20 / perCycle =
      budget at hbudget hlt ⊢
    have hran := core.run_le s.cpu budget
    refine ⟨[.approach ⟨budget, perCycle, (core.run s.cpu budget).1⟩], rfl, rfl, rfl, rfl, ?_, ?_⟩
    · exact (Nat.mul_le_mul_right perCycle hran).trans_lt hlt
    · simpa [approaches, FrameEvent.approach?] using
        (⟨hperCycle, hbudget, core.run_pos _ _ hbudget, hran⟩ : RunCall.Sound _)
  next =>
    have hnone : NoRuns [] := ⟨rfl, rfl⟩
    exact ⟨[], rfl, rfl, rfl, hnone.approached hframe⟩

theorem drainInBorder_books (left : Rations) (s : CSuperCPU κ) :
    ∃ added, ((drainInBorder core b left).run s).2.log = added ++ s.log ∧
      ((drainInBorder core b left).run s).2.frameTickDebt =
        s.frameTickDebt + totalTicks (approaches added) ∧
      ((drainInBorder core b left).run s).1 = totalRan (approaches added) ∧
      Approached (frameTicks b) added := by
  have hframe := frameTicks_pos b
  have hline : RunsNothing (rasterLine core b) := fun _ _ => keeps_rasterLine core b
  have hwork : RunsNothing (borderWork core b left) :=
    fun before owed => keeps_borderWork core b (admitsWork_unran before owed) left
  rw [drainInBorder, run_bind, run_get]
  split
  · rw [run_bind, run_bind, run_bind]
    obtain ⟨⟨works₁, hlog₁, hworks₁⟩, hdebt₁⟩ := hline.run s
    generalize (rasterLine core b).run s = x at hlog₁ hdebt₁ ⊢
    obtain ⟨line, s₁⟩ := x
    obtain ⟨added, hlog₂, hdebt₂, hran, happroached⟩ := approachBorder_books core b line s₁
    generalize (approachBorder core b line).run s₁ = y at hlog₂ hdebt₂ hran ⊢
    obtain ⟨ran, s₂⟩ := y
    obtain ⟨⟨works₃, hlog₃, hworks₃⟩, hdebt₃⟩ := hwork.run s₂
    generalize ((borderWork core b left).run s₂).2 = s₃ at hlog₃ hdebt₃ ⊢
    refine ⟨works₃ ++ added ++ works₁, ?_, ?_, ?_, happroached.around hworks₁ hworks₃⟩
    · show s₃.log = _
      rw [hlog₃, hlog₂, hlog₁]
      simp
    · show s₃.frameTickDebt = _
      rw [hdebt₃, hdebt₂, hdebt₁]
      simp [hworks₁.noApproach, hworks₃.noApproach]
    · refine hran.trans ?_
      simp [hworks₁.noApproach, hworks₃.noApproach]
  · have hnone : NoRuns [] := ⟨rfl, rfl⟩
    exact ⟨[], rfl, rfl, rfl, hnone.approached hframe⟩

/-! ### Frames -/

/-- The books of one frame balance. -/
theorem runFrame_balanced (s : CSuperCPU κ) (hdebt : s.frameTickDebt < frameTicks b) :
    ∃ account : FrameAccount, account.repaid = s.frameTickDebt ∧
      ((runFrame core b).run s).2.log = account.events ++ s.log ∧
      ((runFrame core b).run s).2.frameTickDebt = account.carried ∧
      ((runFrame core b).run s).1 = account.ran ∧ account.Balanced (frameTicks b) := by
  have hdiagnose (sawIEC : Bool) : RunsNothing (updateResyncDiagnostic core b sawIEC) :=
    fun _ _ => keeps_updateResyncDiagnostic core b sawIEC
  have hafter : RunsNothing (do
      runResyncDiagnosticRepair core b
      noteRasterCoarse core b) := fun before owed =>
    keeps_bind (keeps_runResyncDiagnosticRepair core b (admitsWork_unran before owed)) fun _ =>
      keeps_noteRasterCoarse core b
  rw [runFrame, run_bind, run_get, run_bind, run_modify, run_bind]
  dsimp only
  rw [Nat.min_eq_left hdebt.le, Nat.sub_self]
  obtain ⟨sliced, overshoot, hlog₁, hdebt₁, hran₁, hsliced⟩ := frameLoop_slices core b
    (rations s.mirrorDisplayBudget) (frameTicks b) s.frameTickDebt 0 (s.iecBusActive core) hdebt
    (Nat.le_add_left _ _) { s with frameTickDebt := 0 }
  generalize (frameLoop core b (rations s.mirrorDisplayBudget) (frameTicks b) s.frameTickDebt 0
    (s.iecBusActive core)).run { s with frameTickDebt := 0 } = x at hlog₁ hdebt₁ hran₁ ⊢
  obtain ⟨⟨executed, sawIEC⟩, s₁⟩ := x
  rw [run_bind, run_bind]
  obtain ⟨⟨works₂, hlog₂, hworks₂⟩, hdebt₂⟩ := (hdiagnose sawIEC).run s₁
  generalize ((updateResyncDiagnostic core b sawIEC).run s₁).2 = s₂ at hlog₂ hdebt₂ ⊢
  obtain ⟨added, hlog₃, hdebt₃, hran₃, happroached⟩ := drainInBorder_books core b
    (rations s.mirrorDisplayBudget) s₂
  generalize (drainInBorder core b (rations s.mirrorDisplayBudget)).run s₂ = y
    at hlog₃ hdebt₃ hran₃ ⊢
  obtain ⟨ran, s₃⟩ := y
  obtain ⟨⟨works₄, hlog₄, hworks₄⟩, hdebt₄⟩ := hafter.run s₃
  obtain ⟨final, hfinal⟩ : ∃ final, final = ((do
      runResyncDiagnosticRepair core b
      noteRasterCoarse core b : FrameM κ PUnit).run s₃).2 := ⟨_, rfl⟩
  rw [← hfinal] at hlog₄ hdebt₄
  have hslices : slices (works₄ ++ (added ++ (works₂ ++ sliced))) = slices sliced := by
    simp [hworks₄.noSlice, happroached.noSlice, hworks₂.noSlice]
  have happroaches : approaches (works₄ ++ (added ++ (works₂ ++ sliced))) = approaches added := by
    simp [hworks₄.noApproach, hworks₂.noApproach, hsliced.noApproach]
  have hcarried : final.frameTickDebt = totalTicks (approaches added) := by
    rw [hdebt₄, hdebt₃, hdebt₂]
    show s₁.frameTickDebt + _ = _
    rw [show s₁.frameTickDebt = 0 from hdebt₁, Nat.zero_add]
  refine ⟨⟨s.frameTickDebt, works₄ ++ (added ++ (works₂ ++ sliced)), overshoot,
    totalTicks (approaches added)⟩, rfl, ?_, ?_, ?_, ?_⟩
  · refine (congrArg CSuperCPU.log hfinal.symm).trans ?_
    rw [hlog₄, hlog₃, hlog₂]
    show _ ++ (_ ++ (_ ++ s₁.log)) = _
    rw [show s₁.log = sliced ++ s.log from hlog₁]
    simp
  · exact (congrArg CSuperCPU.frameTickDebt hfinal.symm).trans hcarried
  · rw [FrameAccount.ran, hslices, happroaches]
    show executed + ran = _
    rw [show executed = _ from hran₁, show ran = _ from hran₃, Nat.zero_add]
  · refine ⟨?_, ?_, ?_, hdebt, happroached.lt, ?_⟩
    · rw [hslices]
      exact hsliced.granted
    · rw [hslices]
      exact hsliced.last
    · rw [happroaches]
    · rw [hslices, happroaches]
      simpa [or_imp, forall_and] using ⟨hsliced.sound, happroached.sound⟩

/-! ### Runs -/

/-- What happens between two frames: anything to the core and to what it runs on, and changes
of the settings. -/
structure Interlude (κ : Type) where
  cpu : κ → κ
  mirrorDisplayBudget : BitVec 32 → BitVec 32
  scrub : ScrubTrial → ScrubTrial
  diagnostic : ResyncDiagnostic → ResyncDiagnostic

def after (s : CSuperCPU κ) (i : Interlude κ) : CSuperCPU κ :=
  { s with
    cpu := i.cpu s.cpu
    mirrorDisplayBudget := i.mirrorDisplayBudget s.mirrorDisplayBudget
    scrub := i.scrub s.scrub
    diagnostic := i.diagnostic s.diagnostic }

/-- A call of `runFrame` or of `reset`. -/
inductive ScheduleOp (κ : Type)
  | frame (before : Interlude κ)
  | reset (before : Interlude κ)

def scheduleStep (s : CSuperCPU κ) : ScheduleOp κ → CSuperCPU κ
  | .frame i => ((runFrame core b).run (s.after i)).2
  | .reset i => { s.after i with frameTickDebt := 0 }

/-- What the calls of `runFrame` return, in their order. -/
def frameResults (s : CSuperCPU κ) : List (Interlude κ) → List ℕ
  | [] => []
  | i :: interludes =>
      ((runFrame core b).run (s.after i)).1 ::
        frameResults (scheduleStep core b s (.frame i)) interludes

theorem frameResults_append_singleton (s : CSuperCPU κ) (interludes : List (Interlude κ))
    (i : Interlude κ) :
    frameResults core b s (interludes ++ [i]) = frameResults core b s interludes ++
      [((runFrame core b).run
        ((run (scheduleStep core b) s (interludes.map .frame)).after i)).1] := by
  induction interludes generalizing s with
  | nil => rfl
  | cons first interludes ih => exact congrArg (List.cons _) (ih _)

/-- The debt goes from each frame to the next. The latest account comes first. -/
def Carries (first : ℕ) : List FrameAccount → ℕ → Prop
  | [], last => last = first
  | account :: older, last => last = account.carried ∧ Carries first older account.repaid

theorem debt_lt (s : CSuperCPU κ) (hdebt : s.frameTickDebt < frameTicks b)
    (ops : List (ScheduleOp κ)) :
    (run (scheduleStep core b) s ops).frameTickDebt < frameTicks b := by
  refine run_invariant (P := fun s : CSuperCPU κ => s.frameTickDebt < frameTicks b)
    (scheduleStep core b) ?_ s ops hdebt
  intro s op hdebt
  cases op with
  | frame i =>
      obtain ⟨account, -, -, hcarried, -, hbalanced⟩ := runFrame_balanced core b (s.after i) hdebt
      show ((runFrame core b).run (s.after i)).2.frameTickDebt < _
      exact hcarried ▸ hbalanced.carried_lt
  | reset => exact frameTicks_pos b

/-- The accounts of a run of frames. -/
theorem frames_accounts (s : CSuperCPU κ) (hdebt : s.frameTickDebt < frameTicks b)
    (interludes : List (Interlude κ)) :
    ∃ accounts : List FrameAccount, accounts.length = interludes.length ∧
      (run (scheduleStep core b) s (interludes.map .frame)).log =
        accounts.flatMap FrameAccount.events ++ s.log ∧
      (accounts.map FrameAccount.ran).reverse = frameResults core b s interludes ∧
      (∀ account ∈ accounts, account.Balanced (frameTicks b)) ∧
      Carries s.frameTickDebt accounts
        (run (scheduleStep core b) s (interludes.map .frame)).frameTickDebt := by
  induction interludes using List.reverseRecOn with
  | nil => exact ⟨[], rfl, rfl, rfl, by simp, rfl⟩
  | append_singleton interludes i ih =>
      obtain ⟨accounts, hlength, hlog, hresults, hbalanced, hcarries⟩ := ih
      have hreached := debt_lt core b s hdebt (interludes.map .frame)
      rw [List.map_append, run_append, frameResults_append_singleton]
      generalize run (scheduleStep core b) s (interludes.map .frame) = s'
        at hlog hcarries hreached ⊢
      obtain ⟨account, hrepaid, hadded, hcarried, hran, hbalance⟩ :=
        runFrame_balanced core b (s'.after i) hreached
      refine ⟨account :: accounts, ?_, ?_, ?_, ?_, hcarried, ?_⟩
      · simp [hlength]
      · rw [List.flatMap_cons, List.append_assoc, ← hlog]
        exact hadded
      · rw [List.map_cons, List.reverse_cons, hresults, hran]
      · simpa [hbalance] using hbalanced
      · rw [hrepaid]
        exact hcarries

/-- What the frames ran in all. -/
theorem Carries.total {frameTicks first last : ℕ} {accounts : List FrameAccount}
    (h : Carries first accounts last)
    (hbalanced : ∀ account ∈ accounts, account.Balanced frameTicks) :
    totalTicks (slices (accounts.flatMap FrameAccount.events)) +
        totalTicks (approaches (accounts.flatMap FrameAccount.events)) + first =
      accounts.length * frameTicks + last + (accounts.map FrameAccount.overshoot).sum := by
  induction accounts generalizing last with
  | nil =>
      rw [show last = first from h]
      simp [slices, approaches]
  | cons account older ih =>
      obtain ⟨rfl, hcarries⟩ := h
      obtain ⟨hbalance, holder⟩ := List.forall_mem_cons.mp hbalanced
      have holder' := ih hcarries holder
      have hgranted := hbalance.granted
      have hcarried := hbalance.carried
      rw [List.flatMap_cons, slices_append, approaches_append, totalTicks_append, totalTicks_append,
        List.map_cons, List.sum_cons, List.length_cons, Nat.add_one_mul]
      omega

/-- What a number of frames, with anything in between, leaves in the books. -/
def FramesAccounted (interludes : List (Interlude κ)) (s final : CSuperCPU κ) : Prop :=
  ∃ accounts : List FrameAccount, accounts.length = interludes.length ∧
    final.log = accounts.flatMap FrameAccount.events ++ s.log ∧
    (accounts.map FrameAccount.ran).reverse = frameResults core b s interludes ∧
    (∀ account ∈ accounts, account.Balanced (frameTicks b)) ∧
    Carries s.frameTickDebt accounts final.frameTickDebt ∧
    final.frameTickDebt < frameTicks b ∧
    totalTicks (slices (accounts.flatMap FrameAccount.events)) +
        totalTicks (approaches (accounts.flatMap FrameAccount.events)) + s.frameTickDebt =
      interludes.length * frameTicks b + final.frameTickDebt +
        (accounts.map FrameAccount.overshoot).sum

theorem framesAccounted (s : CSuperCPU κ) (hdebt : s.frameTickDebt < frameTicks b)
    (interludes : List (Interlude κ)) :
    FramesAccounted core b interludes s (run (scheduleStep core b) s (interludes.map .frame)) := by
  obtain ⟨accounts, hlength, hlog, hresults, hbalanced, hcarries⟩ :=
    frames_accounts core b s hdebt interludes
  refine ⟨accounts, hlength, hlog, hresults, hbalanced, hcarries, debt_lt core b s hdebt _, ?_⟩
  rw [← hlength]
  exact hcarries.total hbalanced

end CSuperCPU

open CSuperCPU

/-- In any number of frames, from any state that the accelerator reaches, the ticks that the
65C816 is run for are those of the frames, up to the change of the debt and to what the last
slice of each frame overshoots. The cycles on record are those that each frame returns. The
debt stays below a frame, and the next frame repays it. -/
theorem frames_account_for_ticks {β : Type} (bus : CpuBus (System (Fitted β))) (b : Host β)
    (start : CSuperCPU (W65C816.Cpu (System (Fitted β))))
    (before : List (ScheduleOp (W65C816.Cpu (System (Fitted β)))))
    (interludes : List (Interlude (W65C816.Cpu (System (Fitted β))))) :
    let step := scheduleStep (W65C816.iCpu bus) b
    let s := run step { start with frameTickDebt := 0 } before
    FramesAccounted (W65C816.iCpu bus) b interludes s (run step s (interludes.map .frame)) :=
  framesAccounted (W65C816.iCpu bus) b _
    (debt_lt (W65C816.iCpu bus) b { start with frameTickDebt := 0 } (frameTicks_pos b) before)
    interludes

end ScpuEmu
