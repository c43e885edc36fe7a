import Mathlib.Tactic.SplitIfs
import ScpuEmu.Video.Selection

/-!
# What holds while the display is selected

The switches of the accelerator follow the display that is selected, the mirror is halted
only after a frame of core 1, and it is resumed only while core 1 is parked. The last needs
that core 1 is not held up for a whole frame between the load of the switch and the store of
its flag, since the flag that core 0 reads may be an old one.
-/

namespace ScpuEmu

open Library

namespace VideoSelection

/-! ### The moves of core 0 -/

/-- What keeps a call from going on. -/
def Waits (s : VideoSelection) (wantHDMI iecBusActive : Bool) : Prop :=
  s.countFrame.debounceDone = false ∨ iecBusActive = true ∨
    match s.videoTransition with
    | .none => wantHDMI = s.hdmiExclusive
    | .toHDMI => s.words.presentedFrames = s.videoTransitionFrame
    | .toVIC => s.words.pictureParked = false

/-- What a step in the hook can do. -/
inductive HookMove (s : VideoSelection) (wantHDMI iecBusActive : Bool) :
    VideoSelection × List VideoCommand → Prop
  | stay (hidle : s.hook = .idle) (htoHDMI : s.videoTransition = .toHDMI → wantHDMI = true)
      (htoVIC : s.videoTransition = .toVIC → wantHDMI = false)
      (hwaits : s.Waits wantHDMI iecBusActive) :
      HookMove s wantHDMI iecBusActive (s.countFrame, [])
  | resume (hidle : s.hook = .idle) (htransition : s.videoTransition = .toVIC)
      (hwant : wantHDMI = true) :
      HookMove s wantHDMI iecBusActive
        ({ s.countFrame.setPictureEnabled true with videoTransition := .none }, [])
  | handBack (hidle : s.hook = .idle) (htransition : s.videoTransition = .toVIC)
      (hwant : wantHDMI = false) (hparked : s.words.pictureParked = true)
      (hquiet : iecBusActive = false) (hdone : s.countFrame.debounceDone = true) :
      HookMove s wantHDMI iecBusActive
        (s.countFrame.switched false,
          [.enableBusKeepalive false, .enablePhysicalMirror, .enableVICLog false])
  | cancel (hidle : s.hook = .idle) (htransition : s.videoTransition = .toHDMI)
      (hwant : wantHDMI = false) :
      HookMove s wantHDMI iecBusActive
        ({ s.countFrame.setPictureEnabled false with videoTransition := .none },
          [.enableVICLog false])
  | handOver (hidle : s.hook = .idle) (htransition : s.videoTransition = .toHDMI)
      (hwant : wantHDMI = true) (hpresented : s.words.presentedFrames ≠ s.videoTransitionFrame)
      (hquiet : iecBusActive = false) (hdone : s.countFrame.debounceDone = true) :
      HookMove s wantHDMI iecBusActive
        (s.countFrame.switched true, [.enableBusKeepalive true, .disablePhysicalMirror])
  | accept (hidle : s.hook = .idle) (htransition : s.videoTransition = .none)
      (hwant : wantHDMI = true) (hexclusive : s.hdmiExclusive = false) :
      HookMove s wantHDMI iecBusActive
        ({ s.countFrame.resetCollisionLatches with hook := .readFrames }, [.enableVICLog true])
  | stop (hidle : s.hook = .idle) (htransition : s.videoTransition = .none)
      (hwant : wantHDMI = false) (hexclusive : s.hdmiExclusive = true) :
      HookMove s wantHDMI iecBusActive
        ({ s.countFrame.setPictureEnabled false with videoTransition := .toVIC }, [])
  | readFrames (hhook : s.hook = .readFrames) :
      HookMove s wantHDMI iecBusActive
        ({ s with videoTransitionFrame := s.words.presentedFrames, hook := .enable }, [])
  | enable (hhook : s.hook = .enable) :
      HookMove s wantHDMI iecBusActive
        ({ s.setPictureEnabled true with videoTransition := .toHDMI, hook := .idle }, [])

theorem hookMove_call {s : VideoSelection} (hidle : s.hook = .idle) (wantHDMI iecBusActive : Bool) :
    HookMove s wantHDMI iecBusActive (s.scpuUpdateVideoSelection wantHDMI iecBusActive) := by
  have hwaits : s.Waits wantHDMI iecBusActive ↔
      (s.countFrame.debounceDone = false ∨ iecBusActive = true ∨
        match s.countFrame.videoTransition with
        | .none => wantHDMI = s.countFrame.hdmiExclusive
        | .toHDMI => s.countFrame.words.presentedFrames = s.countFrame.videoTransitionFrame
        | .toVIC => s.countFrame.words.pictureParked = false) := Iff.rfl
  unfold scpuUpdateVideoSelection
  dsimp only
  cases htransition : s.countFrame.videoTransition with
  | toVIC =>
      rw [htransition] at hwaits
      have hsame : s.videoTransition = .toVIC := htransition
      dsimp only
      split_ifs with hwant hwait
      · exact .resume hidle hsame hwant
      · refine .stay hidle (fun htoHDMI => absurd (hsame.symm.trans htoHDMI) (by simp))
          (fun _ => by simpa using hwant) (hwaits.mpr ?_)
        simp only [Bool.or_eq_true, Bool.not_eq_eq_eq_not, Bool.not_true] at hwait
        tauto
      · simp only [Bool.or_eq_true, Bool.not_eq_eq_eq_not, Bool.not_true, not_or,
          Bool.not_eq_false, Bool.not_eq_true] at hwait
        exact .handBack hidle hsame (by simpa using hwant) hwait.1.1 hwait.1.2 hwait.2
  | toHDMI =>
      rw [htransition] at hwaits
      have hsame : s.videoTransition = .toHDMI := htransition
      dsimp only
      split_ifs with hwant hwait
      · exact .cancel hidle hsame (by simpa using hwant)
      · refine .stay hidle (fun _ => by simpa using hwant)
          (fun htoVIC => absurd (hsame.symm.trans htoVIC) (by simp)) (hwaits.mpr ?_)
        simp only [Bool.or_eq_true, beq_iff_eq, Bool.not_eq_eq_eq_not, Bool.not_true] at hwait
        tauto
      · simp only [Bool.or_eq_true, beq_iff_eq, Bool.not_eq_eq_eq_not, Bool.not_true, not_or,
          Bool.not_eq_false, Bool.not_eq_true] at hwait
        exact .handOver hidle hsame (by simpa using hwant) hwait.1.1 hwait.1.2 hwait.2
  | none =>
      rw [htransition] at hwaits
      have hsame : s.videoTransition = .none := htransition
      dsimp only
      split_ifs with hwait hwant
      · refine .stay hidle (fun htoHDMI => absurd (hsame.symm.trans htoHDMI) (by simp))
          (fun htoVIC => absurd (hsame.symm.trans htoVIC) (by simp)) (hwaits.mpr ?_)
        simp only [Bool.or_eq_true, beq_iff_eq, Bool.not_eq_eq_eq_not, Bool.not_true] at hwait
        tauto
      · simp only [hwant, Bool.or_eq_true, beq_iff_eq, not_or] at hwait
        exact .accept hidle hsame hwant (by simpa [countFrame] using Ne.symm hwait.1.1)
      · simp only [hwant, Bool.or_eq_true, beq_iff_eq, not_or] at hwait
        exact .stop hidle hsame (by simpa using hwant) (by simpa [countFrame] using hwait.1.1)

theorem hookMove (s : VideoSelection) (wantHDMI iecBusActive : Bool) :
    HookMove s wantHDMI iecBusActive (s.hookStep wantHDMI iecBusActive) := by
  unfold hookStep
  cases hhook : s.hook with
  | idle => exact hookMove_call hhook wantHDMI iecBusActive
  | readFrames => exact .readFrames hhook
  | enable => exact .enable hhook

end VideoSelection

namespace VideoCores

theorem step_hook (s : VideoCores) (wantHDMI iecBusActive : Bool) :
    ∃ r, s.selection.HookMove wantHDMI iecBusActive r ∧
      s.step (.hook wantHDMI iecBusActive) =
        ⟨r.1, r.2.foldl VideoSwitches.perform s.switches, s.history.hookStep s.selection r.1⟩ :=
  ⟨_, s.selection.hookMove wantHDMI iecBusActive, rfl⟩

/-! ### The modes -/

/-- The switches and the picture, by the display that is selected and by where the hook is. -/
structure Modes (s : VideoCores) : Prop where
  mirror : s.switches.mirrorHalted = s.selection.hdmiExclusive
  keepalive : s.switches.busKeepalive = s.selection.hdmiExclusive
  toHDMI : s.selection.videoTransition = .toHDMI →
    s.selection.hdmiExclusive = false ∧ s.selection.words.pictureEnabled = true
  toVIC : s.selection.videoTransition = .toVIC →
    s.selection.hdmiExclusive = true ∧ s.selection.words.pictureEnabled = false
  shown : s.selection.videoTransition = .none → s.selection.hdmiExclusive = true →
    s.selection.words.pictureEnabled = true
  log : s.selection.hook = .idle → s.switches.vicLogEnabled =
    (s.selection.words.pictureEnabled || s.selection.hdmiExclusive)
  accepting : s.selection.hook ≠ .idle → s.selection.videoTransition = .none ∧
    s.selection.hdmiExclusive = false ∧ s.switches.vicLogEnabled = true

theorem modes_start : start.Modes := by
  constructor <;> simp [start]

theorem Modes.hook {s : VideoCores} (h : s.Modes) (wantHDMI iecBusActive : Bool) :
    (s.step (.hook wantHDMI iecBusActive)).Modes := by
  obtain ⟨r, hmove, hstep⟩ := s.step_hook wantHDMI iecBusActive
  rw [hstep]
  cases hmove with
  | stay hidle =>
      exact ⟨h.mirror, h.keepalive, h.toHDMI, h.toVIC, h.shown, h.log, h.accepting⟩
  | resume hidle htransition =>
      obtain ⟨hexclusive, hoff⟩ := h.toVIC htransition
      have hlog := h.log hidle
      rw [hexclusive, Bool.or_true] at hlog
      exact ⟨h.mirror, h.keepalive, by simp, by simp, fun _ _ => rfl, fun _ => hlog,
        fun hbusy => absurd hidle hbusy⟩
  | handBack hidle htransition =>
      obtain ⟨hexclusive, hoff⟩ := h.toVIC htransition
      have hlog : false = (s.selection.words.pictureEnabled || false) := by rw [hoff]; rfl
      exact ⟨rfl, rfl, by simp [VideoSelection.switched], by simp [VideoSelection.switched],
        by simp [VideoSelection.switched], fun _ => hlog, fun hbusy => absurd hidle hbusy⟩
  | cancel hidle htransition =>
      obtain ⟨hexclusive, hon⟩ := h.toHDMI htransition
      refine ⟨h.mirror, h.keepalive, by simp, by simp, fun _ hshown => ?_, fun _ => ?_,
        fun hbusy => absurd hidle hbusy⟩
      · exact absurd (hexclusive.symm.trans hshown) (by simp)
      · exact hexclusive.symm
  | handOver hidle htransition =>
      obtain ⟨hexclusive, hon⟩ := h.toHDMI htransition
      have hlog : s.switches.vicLogEnabled = (s.selection.words.pictureEnabled || true) := by
        rw [h.log hidle, hon, Bool.true_or, Bool.true_or]
      exact ⟨rfl, rfl, by simp [VideoSelection.switched], by simp [VideoSelection.switched],
        fun _ _ => hon, fun _ => hlog, fun hbusy => absurd hidle hbusy⟩
  | accept hidle htransition hwant hexclusive =>
      exact ⟨h.mirror, h.keepalive, h.toHDMI, h.toVIC, h.shown, by simp,
        fun _ => ⟨htransition, hexclusive, rfl⟩⟩
  | stop hidle htransition hwant hexclusive =>
      have hlog := h.log hidle
      rw [hexclusive, Bool.or_true] at hlog
      exact ⟨h.mirror, h.keepalive, by simp, fun _ => ⟨hexclusive, rfl⟩, by simp,
        fun _ => hlog.trans hexclusive.symm, fun hbusy => absurd hidle hbusy⟩
  | readFrames hhook =>
      obtain ⟨htransition, hexclusive, hlog⟩ := h.accepting (by simp [hhook])
      exact ⟨h.mirror, h.keepalive, h.toHDMI, h.toVIC, h.shown, by simp,
        fun _ => ⟨htransition, hexclusive, hlog⟩⟩
  | enable hhook =>
      obtain ⟨htransition, hexclusive, hlog⟩ := h.accepting (by simp [hhook])
      exact ⟨h.mirror, h.keepalive, fun _ => ⟨hexclusive, rfl⟩, by simp, by simp, fun _ => hlog,
        by simp⟩

/-- Core 1 stores the flag, the count and the collisions only. -/
theorem rendererStep_keeps (s : VideoSelection) (outcome : FrameOutcome) :
    ∃ words renderer, s.rendererStep outcome = { s with words := words, renderer := renderer } ∧
      words.pictureEnabled = s.words.pictureEnabled := by
  unfold VideoSelection.rendererStep
  split <;> exact ⟨_, _, rfl, rfl⟩

theorem Modes.renderer {s : VideoCores} (h : s.Modes) (outcome : FrameOutcome) :
    (s.step (.renderer outcome)).Modes := by
  obtain ⟨words, renderer, hstep, henabled⟩ := rendererStep_keeps s.selection outcome
  rw [step, hstep]
  constructor <;> simp only [henabled]
  · exact h.mirror
  · exact h.keepalive
  · exact h.toHDMI
  · exact h.toVIC
  · exact h.shown
  · exact h.log
  · exact h.accepting

theorem Modes.step {s : VideoCores} (h : s.Modes) (a : VideoAction) : (s.step a).Modes := by
  cases a with
  | hook wantHDMI iecBusActive => exact h.hook wantHDMI iecBusActive
  | renderer outcome => exact h.renderer outcome

/-- In every reachable state the switches and the picture are those of the mode. -/
theorem modes_run (actions : List VideoAction) : (run step start actions).Modes :=
  run_invariant step (fun _ a h => h.step a) start actions modes_start

/-! ### The flag of core 1 -/

/-- In a frame the flag is clear. Where a stop finds core 1 about to clear it, a call came in
between. -/
structure Flagged (s : VideoCores) : Prop where
  inFrame : s.selection.renderer.inFrame = true → s.selection.words.pictureParked = false
  stale : s.selection.videoTransition = .toVIC → s.selection.renderer = .unpark →
    s.history.crossed = true

theorem flagged_start : start.Flagged := by
  constructor <;> simp [start]

theorem crossed_call {s : VideoCores} (hidle : s.selection.hook = .idle) (s' : VideoSelection) :
    (s.history.hookStep s.selection s').crossed = true := by
  rw [VideoHistory.hookStep, hidle]

theorem Flagged.hook {s : VideoCores} (hmodes : s.Modes) (h : s.Flagged)
    (wantHDMI iecBusActive : Bool) : (s.step (.hook wantHDMI iecBusActive)).Flagged := by
  obtain ⟨r, hmove, hstep⟩ := s.step_hook wantHDMI iecBusActive
  rw [hstep]
  cases hmove with
  | readFrames hhook =>
      have hnone := (hmodes.accepting (by simp [hhook])).1
      exact ⟨h.inFrame, fun htoVIC => absurd (hnone.symm.trans htoVIC) (by simp)⟩
  | enable => exact ⟨h.inFrame, by simp⟩
  | stay hidle | resume hidle | handBack hidle | cancel hidle | handOver hidle | accept hidle
  | stop hidle => exact ⟨h.inFrame, fun _ _ => crossed_call hidle _⟩

/-- Core 1 comes to the store with the picture enabled only. -/
theorem enabled_of_unpark {s : VideoSelection} {outcome : FrameOutcome}
    (h : (s.rendererStep outcome).renderer = .unpark) : s.words.pictureEnabled = true := by
  rw [VideoSelection.rendererStep] at h
  cases hpc : s.renderer <;> simp only [hpc] at h
  case loopHead =>
    by_contra hoff
    simp [hoff] at h
  case draw => split at h <;> simp at h
  all_goals simp at h

theorem Flagged.renderer {s : VideoCores} (hmodes : s.Modes) (h : s.Flagged)
    (outcome : FrameOutcome) : (s.step (.renderer outcome)).Flagged := by
  constructor
  · show (s.selection.rendererStep outcome).renderer.inFrame = true →
      (s.selection.rendererStep outcome).words.pictureParked = false
    have hframe := h.inFrame
    unfold VideoSelection.rendererStep
    cases hpc : s.selection.renderer <;> rw [hpc] at hframe
    case loopHead =>
      dsimp only
      split <;> simp [RendererPc.inFrame]
    case draw | collide => exact fun _ => hframe rfl
    case unpark => exact fun _ => rfl
    case park | present | wait => simp [RendererPc.inFrame]
  · intro htoVIC hunpark
    have hon := enabled_of_unpark hunpark
    obtain ⟨words, renderer, hstep, -⟩ := rendererStep_keeps s.selection outcome
    have htoVIC : s.selection.videoTransition = .toVIC := by
      rw [step, hstep] at htoVIC
      exact htoVIC
    exact absurd ((hmodes.toVIC htoVIC).2.symm.trans hon) (by simp)

theorem Flagged.step {s : VideoCores} (hmodes : s.Modes) (h : s.Flagged) (a : VideoAction) :
    (s.step a).Flagged := by
  cases a with
  | hook wantHDMI iecBusActive => exact h.hook hmodes wantHDMI iecBusActive
  | renderer outcome => exact h.renderer hmodes outcome

theorem modes_flagged_run (actions : List VideoAction) :
    (run step start actions).Modes ∧ (run step start actions).Flagged :=
  run_invariant VideoCores.step (P := fun s => s.Modes ∧ s.Flagged)
    (fun _ a h => ⟨h.1.step a, h.2.step h.1 a⟩) start actions ⟨modes_start, flagged_start⟩

/-- Outside of a frame, and not on the way into one. -/
def Resting (s : VideoCores) : Prop :=
  s.selection.renderer.inFrame = false ∧ s.selection.renderer ≠ .unpark

/-- With the picture disabled core 1 keeps to the rest of its loop. -/
theorem Resting.step {s : VideoCores} (h : s.Resting) (a : VideoAction)
    (hoff : s.selection.words.pictureEnabled = false) : (s.step a).Resting := by
  cases a with
  | hook wantHDMI iecBusActive =>
      obtain ⟨r, hmove, hstep⟩ := s.step_hook wantHDMI iecBusActive
      rw [hstep]
      cases hmove <;> exact h
  | renderer outcome =>
      obtain ⟨hframe, hunpark⟩ := h
      have hnext : (s.selection.rendererStep outcome).renderer ≠ .unpark := fun hunpark =>
        absurd (hoff.symm.trans (enabled_of_unpark hunpark)) (by simp)
      refine ⟨?_, hnext⟩
      show (s.selection.rendererStep outcome).renderer.inFrame = false
      rw [VideoSelection.rendererStep]
      cases hpc : s.selection.renderer <;> rw [hpc] at hframe hunpark
      case loopHead => simp [hoff, RendererPc.inFrame]
      case unpark => exact absurd rfl hunpark
      case park | wait => rfl
      all_goals simp [RendererPc.inFrame] at hframe

theorem Resting.run {s : VideoCores} (h : s.Resting) {actions : List VideoAction}
    (hoff : s.selection.words.pictureEnabled = false)
    (hdisabled : AllSteps VideoCores.step
      (fun s a => (s.step a).selection.words.pictureEnabled = false) s actions) :
        (run VideoCores.step s actions).Resting := by
  induction actions generalizing s with
  | nil => exact h
  | cons a actions ih => exact ih (h.step a hoff) hdisabled.1 hdisabled.2

/-- The mirror is resumed by a hand-back only. -/
theorem handBack_of_resumed {s : VideoCores} (hmodes : s.Modes) {a : VideoAction}
    (hhalted : s.switches.mirrorHalted = true)
    (hresumed : (s.step a).switches.mirrorHalted = false) :
    (∃ wantHDMI iecBusActive, a = .hook wantHDMI iecBusActive) ∧ s.selection.hook = .idle ∧
      s.selection.videoTransition = .toVIC ∧ s.selection.words.pictureParked = true ∧
      (s.step a).selection.renderer = s.selection.renderer ∧
      (s.step a).selection.words.pictureEnabled = false := by
  cases a with
  | hook wantHDMI iecBusActive =>
      obtain ⟨r, hmove, hstep⟩ := s.step_hook wantHDMI iecBusActive
      rw [hstep] at hresumed ⊢
      cases hmove with
      | handBack hidle htransition hwant hparked =>
          exact ⟨⟨_, _, rfl⟩, hidle, htransition, hparked, rfl, (hmodes.toVIC htransition).2⟩
      | stay | resume | cancel | accept | stop | readFrames | enable =>
          exact absurd (hhalted.symm.trans hresumed) (by simp)
      | handOver => exact absurd hresumed (by simp [VideoSwitches.perform])
  | renderer outcome => exact absurd (hhalted.symm.trans hresumed) (by simp)

/-- A frame that is presented, without collisions. -/
def shownFrame : VideoAction := .renderer ⟨true, 0, 0⟩

/-- HDMI is requested, and core 1 presents a frame. -/
def requested : List VideoAction :=
  List.replicate 3 (.hook true false) ++ List.replicate 5 shownFrame

/-- After the debounce the request is withdrawn, and core 1 parks. -/
def withdrawn : List VideoAction :=
  List.replicate 30 (.hook false false) ++ List.replicate 2 shownFrame

/-- Held up after the load of a switch that is turned off again at once, core 1 begins a frame
with the mirror resumed. -/
example :
    let s := run step start (requested ++ .hook true false :: withdrawn ++
      [.hook true false, shownFrame, shownFrame, .hook false false, .hook false false, shownFrame])
    s.switches.mirrorHalted = false ∧ s.selection.words.pictureEnabled = false ∧
      s.selection.renderer.inFrame = true := by
  decide

end VideoCores

end ScpuEmu
