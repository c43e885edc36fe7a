import ScpuEmu.Video.SelectionHistory

/-!
# A steady request is honoured

While the program asks for one display, the serial bus is quiet and core 1 presents the frames
that it begins, the display comes to be the one asked for. The number of calls it takes is
bounded by a measure that each call brings down: what the debounce holds up, at most twice,
and the two calls that act.
-/

namespace ScpuEmu

open Library

namespace VideoSelection

/-- The calls that the debounce holds up from now on. -/
def lag (s : VideoSelection) : ℕ :=
  if s.videoHasSwitched = true then
    30 - (s.countFrame.videoFrames - s.videoLastSwitchFrame).toNat
  else 0

/-- The frames presented since the request was accepted, as far as the counter tells. -/
def shown (s : VideoSelection) : ℕ :=
  (s.words.presentedFrames - s.videoTransitionFrame).toNat

/-- The calls that it takes until the display is the one asked for. -/
def remaining (s : VideoSelection) (wantHDMI : Bool) : ℕ :=
  match s.hook with
  | .readFrames | .enable => 31
  | .idle =>
      match s.videoTransition with
      | .toHDMI => if wantHDMI = true then s.lag + 1 else 1
      | .toVIC => if wantHDMI = false then s.lag + 1 else 1
      | .none => if s.hdmiExclusive = wantHDMI then 0 else s.lag + 32

variable {s : VideoSelection}

theorem shown_of_eq (h : s.words.presentedFrames = s.videoTransitionFrame) : s.shown = 0 := by
  rw [shown, h, BitVec.sub_self]
  rfl

theorem lag_le (s : VideoSelection) : s.lag ≤ 30 := by
  unfold lag
  split <;> omega

theorem remaining_le (s : VideoSelection) (wantHDMI : Bool) : s.remaining wantHDMI ≤ 62 := by
  have hlag := s.lag_le
  unfold remaining
  split <;> try omega
  split <;> split <;> omega

theorem debounceDone_iff : s.countFrame.debounceDone = true ↔ s.lag = 0 := by
  have hswitched : s.countFrame.videoHasSwitched = s.videoHasSwitched := rfl
  have hlast : s.countFrame.videoLastSwitchFrame = s.videoLastSwitchFrame := rfl
  rw [debounceDone, lag, hswitched, hlast]
  cases s.videoHasSwitched with
  | false => simp
  | true =>
      rw [Bool.not_true, Bool.false_or, decide_eq_true_eq, if_pos rfl, BitVec.le_def,
        Nat.sub_eq_zero_iff_le]
      rfl

/-- A call that the debounce holds up is one of them. -/
theorem lag_countFrame (h : s.lag ≠ 0) : s.countFrame.lag = s.lag - 1 := by
  have hframes : s.countFrame.countFrame.videoFrames - s.countFrame.videoLastSwitchFrame =
      s.countFrame.videoFrames - s.videoLastSwitchFrame + 1 := add_sub_right_comm _ _ _
  have hswitched : s.countFrame.videoHasSwitched = s.videoHasSwitched := rfl
  unfold lag at h ⊢
  rw [hswitched, hframes]
  split
  next hyes =>
    rw [if_pos hyes] at h
    have hone : (1 : BitVec 32).toNat = 1 := rfl
    rw [BitVec.toNat_add_of_lt (by omega)]
    omega
  next hno => exact absurd (if_neg hno) h

/-- The measure is used up where the display is the one asked for. -/
theorem settled_of_remaining {wantHDMI : Bool} (h : s.remaining wantHDMI = 0) :
    s.hook = .idle ∧ s.videoTransition = .none ∧ s.hdmiExclusive = wantHDMI := by
  unfold remaining at h
  cases hhook : s.hook <;> simp only [hhook] at h <;> try omega
  cases htransition : s.videoTransition <;> simp only [htransition] at h
  · split at h
    · exact ⟨rfl, rfl, ‹_›⟩
    · omega
  · split at h <;> omega
  · split at h <;> omega

/-- A settled selection needs no call. -/
theorem remaining_settled {wantHDMI : Bool} (hidle : s.hook = .idle)
    (htransition : s.videoTransition = .none) (hexclusive : s.hdmiExclusive = wantHDMI) (n : ℕ) :
    s.remaining wantHDMI ≤ n := by
  rw [remaining, hidle, htransition]
  exact (if_pos hexclusive).trans_le (Nat.zero_le n)

/-- A transition that has begun. -/
theorem remaining_transition {wantHDMI : Bool} (hidle : s.hook = .idle)
    (htransition : s.videoTransition ≠ .none) : s.remaining wantHDMI ≤ 31 := by
  have hlag := s.lag_le
  rw [remaining, hidle]
  cases hcase : s.videoTransition
  case none => exact absurd hcase htransition
  all_goals
    dsimp only
    split <;> omega

/-- A call that the debounce holds up is one of those that it takes. -/
theorem remaining_countFrame {wantHDMI : Bool} (hidle : s.hook = .idle) (hlag : s.lag ≠ 0)
    (htoHDMI : s.videoTransition = .toHDMI → wantHDMI = true)
    (htoVIC : s.videoTransition = .toVIC → wantHDMI = false) :
    s.countFrame.remaining wantHDMI ≤ s.remaining wantHDMI - 1 := by
  have hidle' : s.countFrame.hook = .idle := hidle
  have hexclusive : s.countFrame.hdmiExclusive = s.hdmiExclusive := rfl
  have hsame : s.countFrame.videoTransition = s.videoTransition := rfl
  have hlag' := lag_countFrame hlag
  unfold remaining
  rw [hidle, hidle', hsame, hexclusive]
  cases htransition : s.videoTransition <;> dsimp only
  case none => split <;> omega
  case toHDMI =>
    rw [if_pos (htoHDMI htransition), if_pos (htoHDMI htransition)]
    omega
  case toVIC =>
    rw [if_pos (htoVIC htransition), if_pos (htoVIC htransition)]
    omega

end VideoSelection

namespace RendererPc

/-- The steps of core 1 until it has parked, with the picture disabled. -/
def parkDistance : RendererPc → ℕ
  | .park => 1
  | .loopHead => 2
  | .wait | .present => 3
  | .collide => 4
  | .draw => 5
  | .unpark => 6

/-- The steps of core 1 until it has presented a frame, with the picture enabled. -/
def showDistance : RendererPc → ℕ
  | .present => 1
  | .collide => 2
  | .draw => 3
  | .unpark => 4
  | .loopHead => 5
  | .wait => 6
  | .park => 7

theorem parkDistance_le (pc : RendererPc) : pc.parkDistance ≤ 6 := by
  cases pc <;> decide

theorem showDistance_le (pc : RendererPc) : pc.showDistance ≤ 7 := by
  cases pc <;> decide

end RendererPc

namespace VideoCores

/-- The hook is called with a steady request and the serial bus quiet, after eight steps of core 1
at least. Core 1 presents the frames that it begins, and makes at most `2 ^ 24` steps between two
of core 0. -/
def Paced (wantHDMI : Bool) (s : VideoCores) : VideoAction → Prop
  | .hook want iecBusActive =>
      want = wantHDMI ∧ iecBusActive = false ∧
        (s.selection.hook = .idle → 8 ≤ s.history.steps)
  | .renderer outcome => outcome.presented = true ∧ s.history.steps < 2 ^ 24

instance (wantHDMI : Bool) (s : VideoCores) : ∀ a, Decidable (s.Paced wantHDMI a)
  | .hook _ _ => @instDecidableAnd _ _ _ (@instDecidableAnd _ _ _ (forall_prop_decidable _))
  | .renderer _ => instDecidableAnd

/-- Core 1 comes to park where the hook waits for it. -/
def Parks (s : VideoCores) : Prop :=
  s.selection.videoTransition = .toVIC →
    s.selection.words.pictureParked = true ∧ s.selection.renderer ≠ .unpark ∨
      s.history.steps + s.selection.renderer.parkDistance ≤ 6

/-- Core 1 comes to present a frame where the hook waits for it, and so few that their counter
does not come round. -/
structure Shows (wantHDMI : Bool) (s : VideoCores) : Prop where
  steps : s.selection.videoTransition = .toHDMI ∨ s.selection.hook ≠ .idle →
    s.history.steps ≤ 2 ^ 24
  frame : s.selection.videoTransition = .toHDMI → wantHDMI = true →
    0 < s.selection.shown ∨ s.history.steps + s.selection.renderer.showDistance ≤ 7
  few : s.selection.videoTransition = .toHDMI → wantHDMI = true →
    s.selection.shown ≤ 2 ^ 24 * (32 - s.selection.remaining wantHDMI) + s.history.steps

/-! ### The answers of core 1 -/

section Renderer

variable {s : VideoSelection} {outcome : FrameOutcome}

/-- With the picture disabled core 1 parks, or comes closer to it. -/
theorem parkDistance_step (hoff : s.words.pictureEnabled = false) :
    (s.rendererStep outcome).words.pictureParked = true ∧
        (s.rendererStep outcome).renderer ≠ .unpark ∨
      (s.rendererStep outcome).renderer.parkDistance + 1 ≤ s.renderer.parkDistance := by
  rw [VideoSelection.rendererStep]
  cases hpc : s.renderer
  case park => exact .inl ⟨rfl, by simp⟩
  case loopHead => exact .inr (by simp [hoff, RendererPc.parkDistance])
  case draw =>
    refine .inr ?_
    dsimp only
    split <;> decide
  all_goals exact .inr le_rfl

/-- Parked, it stays so. -/
theorem parked_step (hoff : s.words.pictureEnabled = false) (hparked : s.words.pictureParked = true)
    (hunpark : s.renderer ≠ .unpark) :
    (s.rendererStep outcome).words.pictureParked = true ∧
      (s.rendererStep outcome).renderer ≠ .unpark := by
  refine ⟨?_, fun hnext => absurd (hoff.symm.trans (enabled_of_unpark hnext)) (by simp)⟩
  rw [VideoSelection.rendererStep]
  cases hpc : s.renderer
  case park => rfl
  case unpark => exact absurd hpc hunpark
  all_goals exact hparked

/-- With the picture enabled core 1 presents a frame, or comes closer to it. -/
theorem showDistance_step (hon : s.words.pictureEnabled = true)
    (hpresented : outcome.presented = true) :
    s.renderer = .present ∨
      (s.rendererStep outcome).renderer.showDistance + 1 ≤ s.renderer.showDistance := by
  rw [VideoSelection.rendererStep]
  cases hpc : s.renderer
  case present => exact .inl rfl
  case loopHead => exact .inr (by simp [hon, RendererPc.showDistance])
  case draw => exact .inr (by simp [hpresented, RendererPc.showDistance])
  all_goals exact .inr le_rfl

/-- A step of core 1 counts a frame at most, short of the end of the counter. -/
theorem shown_step (hroom : s.shown + 1 < 2 ^ 32) :
    s.shown ≤ (s.rendererStep outcome).shown ∧ (s.rendererStep outcome).shown ≤ s.shown + 1 ∧
      (s.renderer = .present → (s.rendererStep outcome).shown = s.shown + 1) := by
  rw [VideoSelection.rendererStep]
  cases hpc : s.renderer
  case present =>
    have hone : (1 : BitVec 32).toNat = 1 := rfl
    have hnext : (s.words.presentedFrames + 1 - s.videoTransitionFrame).toNat = s.shown + 1 := by
      have hcount : s.words.presentedFrames + 1 - s.videoTransitionFrame =
          s.words.presentedFrames - s.videoTransitionFrame + 1 := add_sub_right_comm _ _ _
      rw [hcount, BitVec.toNat_add_of_lt hroom]
      rfl
    exact ⟨(Nat.le_succ s.shown).trans hnext.ge, hnext.le, fun _ => hnext⟩
  all_goals exact ⟨le_rfl, Nat.le_succ _, fun hpresent => absurd hpresent (by simp)⟩

theorem steps_rendererStep (h : VideoHistory) (s : VideoSelection) :
    (h.rendererStep s).steps = h.steps + 1 := by
  rw [VideoHistory.rendererStep]
  cases s.renderer <;> rfl

theorem steps_hookStep (h : VideoHistory) (s s' : VideoSelection) :
    (h.hookStep s s').steps = 0 := by
  rw [VideoHistory.hookStep]
  cases s.hook <;> rfl

end Renderer

section Answers

variable {s : VideoCores} {wantHDMI : Bool}

theorem Parks.step (hmodes : s.Modes) (h : s.Parks) (a : VideoAction) : (s.step a).Parks := by
  intro htoVIC
  cases a with
  | hook want iecBusActive =>
      have hsteps : (s.step (.hook want iecBusActive)).history.steps = 0 := steps_hookStep _ _ _
      have hpark := (s.step (.hook want iecBusActive)).selection.renderer.parkDistance_le
      exact .inr (by omega)
  | renderer outcome =>
      obtain ⟨words, renderer, hselection, -⟩ := rendererStep_keeps s.selection outcome
      have hpark := @parkDistance_step s.selection outcome
      have hparked := @parked_step s.selection outcome
      have hcases : s.step (.renderer outcome) = { s with
          selection := s.selection.rendererStep outcome
          history := s.history.rendererStep s.selection } := rfl
      rw [hselection] at hpark hparked hcases
      rw [hcases] at htoVIC ⊢
      have hoff := (hmodes.toVIC htoVIC).2
      have hstep := steps_rendererStep s.history s.selection
      rw [hstep]
      obtain ⟨hdone, hunpark⟩ | hleft := h htoVIC
      · exact .inl (hparked hoff hdone hunpark)
      · exact (hpark hoff).imp id fun hcloser => by
          dsimp only at hcloser ⊢
          omega

theorem parks_run (actions : List VideoAction) : (run step start actions).Parks := by
  have hparks : start.Parks := fun htoVIC => absurd htoVIC (by simp [start])
  exact (run_invariant VideoCores.step (P := fun s => s.Sound ∧ s.Parks)
    (fun _ a h => ⟨h.1.step a, h.2.step h.1.modes a⟩) start actions ⟨sound_start, hparks⟩).2

/-- Where a request is pending the measure is one more than the debounce. -/
theorem remaining_toHDMI (hmodes : s.Modes) (htransition : s.selection.videoTransition = .toHDMI)
    (hwant : wantHDMI = true) :
    s.selection.hook = .idle ∧ s.selection.remaining wantHDMI = s.selection.lag + 1 := by
  have hidle : s.selection.hook = .idle := by
    by_contra hbusy
    exact absurd ((hmodes.accepting hbusy).1.symm.trans htransition) (by simp)
  refine ⟨hidle, ?_⟩
  rw [VideoSelection.remaining, hidle, htransition]
  exact if_pos hwant

theorem Shows.renderer (hmodes : s.Modes) (h : s.Shows wantHDMI) {outcome : FrameOutcome}
    (hpresented : outcome.presented = true) (hsteps : s.history.steps < 2 ^ 24) :
    (s.step (.renderer outcome)).Shows wantHDMI := by
  obtain ⟨-, hframe, hfew⟩ := h
  have hstep := steps_rendererStep s.history s.selection
  have hshow := @showDistance_step s.selection outcome
  have hcount := @shown_step s.selection outcome
  obtain ⟨words, renderer, hselection, -⟩ := rendererStep_keeps s.selection outcome
  have hcases : s.step (.renderer outcome) = { s with
      selection := s.selection.rendererStep outcome
      history := s.history.rendererStep s.selection } := rfl
  rw [hselection] at hshow hcount hcases
  rw [hcases]
  have hroom (htoHDMI : s.selection.videoTransition = .toHDMI) (hwant : wantHDMI = true) :
      s.selection.shown + 1 < 2 ^ 32 := by
    have hbound := hfew htoHDMI hwant
    omega
  refine ⟨fun _ => ?_, fun htoHDMI hwant => ?_, fun htoHDMI hwant => ?_⟩
  · rw [hstep]
    exact hsteps
  · obtain ⟨hmore, -, hpresent⟩ := hcount (hroom htoHDMI hwant)
    rw [hstep]
    obtain hdone | hleft := hframe htoHDMI hwant
    · exact .inl (hdone.trans_le hmore)
    · obtain hnow | hcloser := hshow (hmodes.toHDMI htoHDMI).2 hpresented
      · exact .inl ((hpresent hnow).symm ▸ Nat.succ_pos _)
      · refine .inr ?_
        dsimp only at hcloser ⊢
        omega
  · obtain ⟨-, hone, -⟩ := hcount (hroom htoHDMI hwant)
    have hbefore := hfew htoHDMI hwant
    rw [hstep]
    exact hone.trans (Nat.succ_le_succ hbefore)

/-- Right after the hook, with no frame presented. -/
theorem shows_of_shown_eq_zero (hsteps : s.history.steps = 0) (hnone : s.selection.shown = 0) :
    s.Shows wantHDMI := by
  have hshow := s.selection.renderer.showDistance_le
  exact ⟨fun _ => by omega, fun _ _ => .inr (by omega), fun _ _ => by omega⟩

/-- After eight steps of core 1 it is the debounce that holds a call up, or no frame was presented
for a request to select HDMI. -/
theorem lag_of_waits (hparks : s.Parks) (hidle : s.selection.hook = .idle)
    (hsteps : 8 ≤ s.history.steps) (hremaining : s.selection.remaining wantHDMI ≠ 0)
    (hwaits : s.selection.Waits wantHDMI false) :
    s.selection.lag ≠ 0 ∨ s.selection.videoTransition = .toHDMI ∧ s.selection.shown = 0 := by
  obtain hdebounce | hquiet | hreason := hwaits
  · refine .inl fun hlag => ?_
    exact absurd (hdebounce.symm.trans (VideoSelection.debounceDone_iff.mpr hlag)) (by simp)
  · exact absurd hquiet (by simp)
  cases htransition : s.selection.videoTransition <;> rw [htransition] at hreason
  case none =>
    have hsettled := VideoSelection.remaining_settled hidle htransition hreason.symm 0
    exact absurd (Nat.le_zero.mp hsettled) hremaining
  case toVIC =>
    obtain ⟨hparked, -⟩ | hleft := hparks htransition
    · exact absurd (hreason.symm.trans hparked) (by simp)
    · omega
  case toHDMI =>
    exact .inr ⟨rfl, VideoSelection.shown_of_eq hreason⟩

/-- A call brings the measure down, unless it still waits for a frame. -/
theorem remaining_call (hsound : s.Sound) (hparks : s.Parks) (hidle : s.selection.hook = .idle)
    (hsteps : 8 ≤ s.history.steps) :
    (s.step (.hook wantHDMI false)).selection.remaining wantHDMI ≤
        s.selection.remaining wantHDMI - 1 ∨
      wantHDMI = true ∧ s.selection.videoTransition = .toHDMI ∧ s.selection.shown = 0 ∧
        (s.step (.hook wantHDMI false)).selection = s.selection.countFrame := by
  obtain ⟨r, hmove, hstep⟩ := s.step_hook wantHDMI false
  rw [hstep]
  cases hmove with
  | stay _ htoHDMI htoVIC hwaits =>
      by_cases hremaining : s.selection.remaining wantHDMI = 0
      · obtain ⟨-, htransition, hexclusive⟩ := VideoSelection.settled_of_remaining hremaining
        refine .inl (VideoSelection.remaining_settled ?_ ?_ ?_ _)
        exacts [hidle, htransition, hexclusive]
      obtain hlag | ⟨htransition, hnone⟩ := lag_of_waits hparks hidle hsteps hremaining hwaits
      · exact .inl (VideoSelection.remaining_countFrame hidle hlag htoHDMI htoVIC)
      · exact .inr ⟨htoHDMI htransition, htransition, hnone, rfl⟩
  | resume _ htransition hwant =>
      have hexclusive := (hsound.modes.toVIC htransition).1.trans hwant.symm
      refine .inl (VideoSelection.remaining_settled ?_ ?_ ?_ _)
      exacts [hidle, rfl, hexclusive]
  | cancel _ htransition hwant =>
      have hexclusive := (hsound.modes.toHDMI htransition).1.trans hwant.symm
      refine .inl (VideoSelection.remaining_settled ?_ ?_ ?_ _)
      exacts [hidle, rfl, hexclusive]
  | handBack _ _ hwant =>
      refine .inl (VideoSelection.remaining_settled ?_ ?_ ?_ _)
      exacts [hidle, rfl, hwant.symm]
  | handOver _ _ hwant =>
      refine .inl (VideoSelection.remaining_settled ?_ ?_ ?_ _)
      exacts [hidle, rfl, hwant.symm]
  | accept _ htransition hwant hexclusive =>
      have hbefore : s.selection.remaining wantHDMI = s.selection.lag + 32 := by
        rw [VideoSelection.remaining, hidle, htransition]
        exact if_neg (by simp [hwant, hexclusive])
      rw [hbefore]
      exact .inl (Nat.le_add_left 31 _)
  | stop _ htransition hwant hexclusive =>
      have hbefore : s.selection.remaining wantHDMI = s.selection.lag + 32 := by
        rw [VideoSelection.remaining, hidle, htransition]
        exact if_neg (by simp [hwant, hexclusive])
      rw [hbefore]
      refine .inl (le_trans (VideoSelection.remaining_transition ?_ ?_) (Nat.le_add_left 31 _))
      · exact hidle
      · exact fun hnone => absurd hnone (by simp)
  | readFrames hhook => exact absurd (hidle.symm.trans hhook) (by simp)
  | enable hhook => exact absurd (hidle.symm.trans hhook) (by simp)

/-- The further steps of the hook keep it. -/
theorem remaining_rest (hbusy : s.selection.hook ≠ .idle) :
    (s.step (.hook wantHDMI false)).selection.remaining wantHDMI ≤
      s.selection.remaining wantHDMI := by
  obtain ⟨r, hmove, hstep⟩ := s.step_hook wantHDMI false
  rw [hstep]
  cases hmove with
  | readFrames hhook =>
      rw [VideoSelection.remaining, VideoSelection.remaining, hhook]
  | enable hhook =>
      have hbefore : s.selection.remaining wantHDMI = 31 := by
        rw [VideoSelection.remaining, hhook]
      rw [hbefore]
      exact VideoSelection.remaining_transition rfl (by simp)
  | stay hidle | resume hidle | handBack hidle | cancel hidle | handOver hidle | accept hidle
  | stop hidle => exact absurd hidle hbusy

/-- The frames stay few over a call that the debounce holds up. -/
theorem few_countFrame (hmodes : s.Modes) (h : s.Shows wantHDMI)
    (htransition : s.selection.videoTransition = .toHDMI) (hwant : wantHDMI = true)
    (hlag : s.selection.lag ≠ 0) :
    s.selection.countFrame.shown ≤
      2 ^ 24 * (32 - s.selection.countFrame.remaining wantHDMI) := by
  have hfew := h.few htransition hwant
  have hsteps := h.steps (.inl htransition)
  have hbound := s.selection.lag_le
  obtain ⟨hidle, hremaining⟩ := remaining_toHDMI hmodes htransition hwant
  have hless : s.selection.countFrame.remaining wantHDMI ≤ s.selection.remaining wantHDMI - 1 :=
    VideoSelection.remaining_countFrame hidle hlag (fun _ => hwant) fun htoVIC =>
      absurd (htransition.symm.trans htoVIC) (by simp)
  have hshown : s.selection.countFrame.shown = s.selection.shown := rfl
  omega

/-- The frames that came between the two steps of an accepted request are few. -/
theorem few_enable (hsound : s.Sound) (h : s.Shows wantHDMI)
    (hhook : s.selection.hook = .enable) : s.selection.shown ≤ 2 ^ 24 := by
  have hframes := hsound.framed.frames (.inr hhook)
  have hcompleted := hsound.framed.accepting hhook
  have hsteps := h.steps (.inr (by simp [hhook]))
  have hshown : s.selection.shown = s.history.completed % 2 ^ 32 := by
    rw [VideoSelection.shown, hframes, add_sub_cancel_left, BitVec.toNat_ofNat]
  have hmod := Nat.mod_le s.history.completed (2 ^ 32)
  omega

theorem Shows.hook (hsound : s.Sound) (h : s.Shows wantHDMI) :
    (s.step (.hook wantHDMI false)).Shows wantHDMI := by
  have hsteps : (s.step (.hook wantHDMI false)).history.steps = 0 := steps_hookStep _ _ _
  have hshow := (s.step (.hook wantHDMI false)).selection.renderer.showDistance_le
  refine ⟨fun _ => by omega, fun _ _ => .inr (by omega), fun htoHDMI hwant => ?_⟩
  rw [hsteps, Nat.add_zero]
  obtain ⟨r, hmove, hstep⟩ := s.step_hook wantHDMI false
  rw [hstep] at htoHDMI ⊢
  cases hmove with
  | stay hidle hkeeps htoVIC hwaits =>
      by_cases hlag : s.selection.lag = 0
      · -- it waits for a frame
        have hdone := VideoSelection.debounceDone_iff.mpr hlag
        obtain hdebounce | hquiet | hreason := hwaits
        · exact absurd (hdebounce.symm.trans hdone) (by simp)
        · exact absurd hquiet (by simp)
        have htransition : s.selection.videoTransition = .toHDMI := htoHDMI
        rw [htransition] at hreason
        have hnone : s.selection.countFrame.shown = 0 := VideoSelection.shown_of_eq hreason
        exact hnone.trans_le (Nat.zero_le _)
      · exact few_countFrame hsound.modes h htoHDMI hwant hlag
  | enable hhook =>
      have hfew := few_enable hsound h hhook
      have hremaining : VideoSelection.remaining
          { s.selection.setPictureEnabled true with videoTransition := .toHDMI, hook := .idle }
          wantHDMI ≤ 31 := VideoSelection.remaining_transition rfl (by simp)
      refine le_trans ?_ (Nat.mul_le_mul_left (2 ^ 24) (Nat.sub_le_sub_left hremaining 32))
      exact hfew
  | accept hidle htransition => exact absurd (htransition.symm.trans htoHDMI) (by simp)
  | readFrames hhook =>
      have hnone := (hsound.modes.accepting (by simp [hhook])).1
      exact absurd (hnone.symm.trans htoHDMI) (by simp)
  | resume | handBack | cancel | handOver | stop =>
      exact absurd htoHDMI (by simp [VideoSelection.switched])

end Answers

/-! ### Runs -/

/-- What a paced run keeps: the calls so far and those that remain. Of a request that was pending
at the start it is not known how many frames were presented, until a call has waited for one. -/
structure OnTheWay (wantHDMI : Bool) (calls : ℕ) (s : VideoCores) : Prop where
  sound : s.Sound
  parks : s.Parks
  started : calls ≤ s.history.calls
  remaining :
    s.Shows wantHDMI ∧ s.selection.remaining wantHDMI ≤ 62 - (s.history.calls - calls) ∨
      s.selection.remaining wantHDMI ≤ 31 - (s.history.calls - calls)

theorem onTheWay_of_sound {s : VideoCores} (hsound : s.Sound) (hparks : s.Parks)
    (wantHDMI : Bool) : s.OnTheWay wantHDMI s.history.calls := by
  refine ⟨hsound, hparks, le_rfl, ?_⟩
  rw [Nat.sub_self]
  by_cases hidle : s.selection.hook = .idle
  · by_cases htransition : s.selection.videoTransition = .none
    · have hnone : s.selection.videoTransition ≠ .toHDMI := by simp [htransition]
      refine .inl ⟨⟨fun hwaiting => ?_, ?_, ?_⟩, s.selection.remaining_le wantHDMI⟩
      · exact absurd hidle (hwaiting.resolve_left hnone)
      · exact fun htoHDMI => absurd htoHDMI hnone
      · exact fun htoHDMI => absurd htoHDMI hnone
    · exact .inr (VideoSelection.remaining_transition hidle htransition)
  · refine .inr (Nat.le_of_eq ?_)
    rw [VideoSelection.remaining]
    cases hhook : s.selection.hook
    · exact absurd hhook hidle
    · rfl
    · rfl

section Calls

variable {s : VideoCores} {wantHDMI : Bool} {calls : ℕ}

/-- A call is one of the 62. -/
theorem OnTheWay.call (h : s.OnTheWay wantHDMI calls) (hidle : s.selection.hook = .idle)
    (hpace : 8 ≤ s.history.steps) : (s.step (.hook wantHDMI false)).OnTheWay wantHDMI calls := by
  obtain ⟨hsound, hparks, hstarted, hremaining⟩ := h
  have hcalls : (s.step (.hook wantHDMI false)).history.calls = s.history.calls + 1 := by
    show (s.history.hookStep s.selection _).calls = _
    rw [hookStep_call hidle]
  refine ⟨hsound.step _, hparks.step hsound.modes _, by omega, ?_⟩
  rw [hcalls]
  obtain hcall | ⟨hwant, htransition, hnone, hselection⟩ :=
    @remaining_call s wantHDMI hsound hparks hidle hpace
  · exact hremaining.imp (fun hfew => ⟨hfew.1.hook hsound, by omega⟩) fun hle => by omega
  · have hmeasure := (remaining_toHDMI hsound.modes htransition hwant).2
    obtain ⟨hshows, -⟩ | hle := hremaining
    · have hframe := hshows.frame htransition hwant
      omega
    · -- the first call that waits for a frame comes early
      have hnone' : (s.step (.hook wantHDMI false)).selection.shown = 0 := by
        rw [hselection]
        exact hnone
      have hrest : (s.step (.hook wantHDMI false)).selection.remaining wantHDMI ≤ 31 := by
        rw [hselection]
        refine VideoSelection.remaining_transition ?_ ?_
        · exact hidle
        · exact fun hidle' => absurd (htransition.symm.trans hidle') (by simp)
      exact .inl ⟨shows_of_shown_eq_zero (steps_hookStep _ _ _) hnone', by omega⟩

theorem OnTheWay.rest (h : s.OnTheWay wantHDMI calls) (hbusy : s.selection.hook ≠ .idle) :
    (s.step (.hook wantHDMI false)).OnTheWay wantHDMI calls := by
  obtain ⟨hsound, hparks, hstarted, hremaining⟩ := h
  have hcalls : (s.step (.hook wantHDMI false)).history.calls = s.history.calls := by
    show (s.history.hookStep s.selection _).calls = _
    rw [VideoHistory.hookStep]
    cases hhook : s.selection.hook
    · exact absurd hhook hbusy
    · rfl
    · rfl
  have hrest := @remaining_rest s wantHDMI hbusy
  refine ⟨hsound.step _, hparks.step hsound.modes _, hcalls ▸ hstarted, ?_⟩
  rw [hcalls]
  exact hremaining.imp (fun hfew => ⟨hfew.1.hook hsound, hrest.trans hfew.2⟩) hrest.trans

theorem OnTheWay.step (h : s.OnTheWay wantHDMI calls) {a : VideoAction}
    (ha : s.Paced wantHDMI a) : (s.step a).OnTheWay wantHDMI calls := by
  cases a with
  | hook want iecBusActive =>
      obtain ⟨rfl, rfl, hpace⟩ := ha
      by_cases hidle : s.selection.hook = .idle
      · exact h.call hidle (hpace hidle)
      · exact h.rest hidle
  | renderer outcome =>
      obtain ⟨hsound, hparks, hstarted, hremaining⟩ := h
      obtain ⟨words, renderer, hstep, -⟩ := rendererStep_keeps s.selection outcome
      have hcalls : (s.step (.renderer outcome)).history.calls = s.history.calls := by
        show (s.history.rendererStep s.selection).calls = _
        rw [VideoHistory.rendererStep]
        cases s.selection.renderer <;> rfl
      have hsame : (s.step (.renderer outcome)).selection.remaining wantHDMI =
          s.selection.remaining wantHDMI := by
        show (s.selection.rendererStep outcome).remaining wantHDMI = _
        rw [hstep]
        rfl
      refine ⟨hsound.step _, hparks.step hsound.modes _, hcalls ▸ hstarted, ?_⟩
      rw [hcalls, hsame]
      exact hremaining.imp
        (fun hfew => ⟨hfew.1.renderer hsound.modes ha.1 ha.2, hfew.2⟩) id

end Calls

/-- From any reachable state a steady request is honoured within 62 calls. -/
theorem steady_request_honoured (wantHDMI : Bool) (before actions : List VideoAction) :
    let s := run step start before
    AllSteps step (Paced wantHDMI) s actions →
      s.history.calls + 62 ≤ (run step s actions).history.calls →
      (run step s actions).selection.hook = .idle ∧
        (run step s actions).selection.videoTransition = .none ∧
        (run step s actions).selection.hdmiExclusive = wantHDMI := by
  intro s hpaced hcalls
  have hstart := onTheWay_of_sound (sound_run before) (parks_run before) wantHDMI
  obtain ⟨-, -, -, hremaining⟩ : (run step s actions).OnTheWay wantHDMI s.history.calls :=
    run_invariant_of_allSteps VideoCores.step (fun _ _ h ha => h.step ha) s actions hstart hpaced
  refine VideoSelection.settled_of_remaining ?_
  obtain ⟨-, hle⟩ | hle := hremaining
  · omega
  · omega

/-- A step of the hook after each pass of core 1. -/
def pacedRequest : List VideoAction :=
  (List.replicate 64 (List.replicate 8 shownFrame ++ [.hook true false])).flatten

theorem steady_request_honoured_hdmi :
    (run step (run step start []) pacedRequest).selection.hdmiExclusive = true :=
  (steady_request_honoured true [] pacedRequest (by decide +kernel) (by decide +kernel)).2.2

end VideoCores

end ScpuEmu
