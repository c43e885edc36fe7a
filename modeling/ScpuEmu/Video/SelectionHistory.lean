import ScpuEmu.Video.SelectionSafety

/-!
# When the display is switched

The counters of the hook and of core 1 are words of 32 bits, the history counts without
bound. As long as the counters agree with the history up to their width, a difference of
words that is large enough tells that so many calls have passed, and words that differ tell
that a frame has been presented.
-/

namespace ScpuEmu

open Library

/-- The difference of two counters is at most that of what they count. -/
theorem toNat_ofNat_sub_le {m n : ℕ} (h : m ≤ n) :
    (BitVec.ofNat 32 n - BitVec.ofNat 32 m).toNat ≤ n - m := by
  have hsub : BitVec.ofNat 32 n - BitVec.ofNat 32 m = BitVec.ofNat 32 (n - m) := by
    rw [sub_eq_iff_eq_add, ← BitVec.ofNat_add, Nat.sub_add_cancel h]
  rw [hsub, BitVec.toNat_ofNat]
  exact Nat.mod_le _ _

namespace VideoCores

/-! ### The counters -/

/-- The words of core 0 agree with the history. -/
structure Clocked (s : VideoCores) : Prop where
  calls : s.selection.videoFrames = BitVec.ofNat 32 s.history.calls
  lastSwitch : s.selection.videoHasSwitched = true →
    s.selection.videoLastSwitchFrame = BitVec.ofNat 32 s.history.lastSwitch
  past : s.history.lastSwitch ≤ s.history.calls

theorem clocked_start : start.Clocked := by
  constructor <;> simp [start]

theorem calls_call {s : VideoCores} (h : s.Clocked) :
    s.selection.countFrame.videoFrames = BitVec.ofNat 32 (s.history.calls + 1) := by
  show s.selection.videoFrames + 1 = _
  rw [h.calls, BitVec.ofNat_add]
  rfl

theorem hookStep_call {s : VideoCores} (hidle : s.selection.hook = .idle) (s' : VideoSelection) :
    s.history.hookStep s.selection s' =
      { s.history with
        steps := 0
        calls := s.history.calls + 1
        lastSwitch :=
          if s'.hdmiExclusive = s.selection.hdmiExclusive then s.history.lastSwitch
          else s.history.calls + 1
        crossed := true } := by
  rw [VideoHistory.hookStep, hidle]

/-- A call that leaves the display as it is. -/
theorem Clocked.stay {s : VideoCores} (h : s.Clocked) (hidle : s.selection.hook = .idle)
    {s' : VideoSelection} (switches : VideoSwitches)
    (hexclusive : s'.hdmiExclusive = s.selection.hdmiExclusive)
    (hframes : s'.videoFrames = s.selection.countFrame.videoFrames)
    (hlast : s'.videoLastSwitchFrame = s.selection.videoLastSwitchFrame)
    (hswitched : s'.videoHasSwitched = s.selection.videoHasSwitched) :
    Clocked ⟨s', switches, s.history.hookStep s.selection s'⟩ := by
  rw [hookStep_call hidle, if_pos hexclusive]
  exact ⟨hframes.trans (calls_call h),
    fun hdone => hlast.trans (h.lastSwitch (hswitched.symm.trans hdone)),
    h.past.trans (Nat.le_succ _)⟩

/-- A call that switches it. -/
theorem Clocked.switched {s : VideoCores} (h : s.Clocked) (hidle : s.selection.hook = .idle)
    (switches : VideoSwitches) {exclusive : Bool}
    (hexclusive : exclusive ≠ s.selection.hdmiExclusive) :
    Clocked ⟨s.selection.countFrame.switched exclusive, switches,
      s.history.hookStep s.selection (s.selection.countFrame.switched exclusive)⟩ := by
  have hcalls := calls_call h
  have hflip : (s.selection.countFrame.switched exclusive).hdmiExclusive ≠
    s.selection.hdmiExclusive := hexclusive
  rw [hookStep_call hidle, if_neg hflip]
  exact ⟨hcalls, fun _ => hcalls, le_rfl⟩

theorem Clocked.step {s : VideoCores} (hmodes : s.Modes) (h : s.Clocked) (a : VideoAction) :
    (s.step a).Clocked := by
  cases a with
  | hook wantHDMI iecBusActive =>
      obtain ⟨r, hmove, hstep⟩ := s.step_hook wantHDMI iecBusActive
      rw [hstep]
      cases hmove with
      | handBack hidle htransition =>
          exact h.switched hidle _ (by simp [(hmodes.toVIC htransition).1])
      | handOver hidle htransition =>
          exact h.switched hidle _ (by simp [(hmodes.toHDMI htransition).1])
      | stay hidle | resume hidle | cancel hidle | accept hidle | stop hidle =>
          exact h.stay hidle _ rfl rfl rfl rfl
      | readFrames hhook =>
          rw [VideoHistory.hookStep, hhook]
          exact ⟨h.calls, h.lastSwitch, h.past⟩
      | enable hhook =>
          rw [VideoHistory.hookStep, hhook]
          exact ⟨h.calls, h.lastSwitch, h.past⟩
  | renderer outcome =>
      obtain ⟨words, renderer, hstep, -⟩ := rendererStep_keeps s.selection outcome
      have hhistory : (s.history.rendererStep s.selection).calls = s.history.calls ∧
          (s.history.rendererStep s.selection).lastSwitch = s.history.lastSwitch := by
        rw [VideoHistory.rendererStep]
        cases s.selection.renderer <;> exact ⟨rfl, rfl⟩
      refine ⟨?_, ?_, ?_⟩
      · show (s.selection.rendererStep outcome).videoFrames = _
        rw [hstep, VideoCores.step, hhistory.1]
        exact h.calls
      · show (s.selection.rendererStep outcome).videoHasSwitched = true →
          (s.selection.rendererStep outcome).videoLastSwitchFrame = _
        rw [hstep, VideoCores.step, hhistory.2]
        exact h.lastSwitch
      · show (s.history.rendererStep s.selection).lastSwitch ≤
          (s.history.rendererStep s.selection).calls
        rw [hhistory.1, hhistory.2]
        exact h.past

/-! ### The frames since a request was accepted -/

/-- The count of frames moves on with the history while an accepted request waits. Only the
frame that core 1 was in at the time can have been begun before. -/
structure Framed (s : VideoCores) : Prop where
  frames : s.selection.videoTransition = .toHDMI ∨ s.selection.hook = .enable →
    s.selection.words.presentedFrames =
      s.selection.videoTransitionFrame + BitVec.ofNat 32 s.history.completed
  earlier : s.selection.renderer.inFrame = true → s.history.begun = false →
    s.history.midFrame = true ∧ s.history.completed = 0 ∧ s.history.whole = 0
  whole : s.history.completed ≤ s.history.whole + s.history.midFrame.toNat
  accepting : s.selection.hook = .enable → s.history.completed ≤ s.history.steps

theorem framed_start : start.Framed := by
  constructor <;> simp [start, RendererPc.inFrame]

/-- A call leaves the frames as they are, and accepts no request in full. -/
theorem Framed.call {s : VideoCores} (h : s.Framed) (hidle : s.selection.hook = .idle)
    {s' : VideoSelection} (switches : VideoSwitches)
    (htransition : s'.videoTransition = .toHDMI → s.selection.videoTransition = .toHDMI)
    (hhook : s'.hook ≠ .enable)
    (hpresented : s'.words.presentedFrames = s.selection.words.presentedFrames)
    (hframe : s'.videoTransitionFrame = s.selection.videoTransitionFrame)
    (hrenderer : s'.renderer = s.selection.renderer) :
    Framed ⟨s', switches, s.history.hookStep s.selection s'⟩ := by
  rw [hookStep_call hidle]
  refine ⟨fun hwaiting => ?_, ?_, h.whole, fun henable => absurd henable hhook⟩
  · rw [hpresented, hframe]
    exact h.frames (.inl (htransition (hwaiting.resolve_right hhook)))
  · rw [hrenderer]
    exact h.earlier

theorem Framed.hook {s : VideoCores} (h : s.Framed) (wantHDMI iecBusActive : Bool) :
    (s.step (.hook wantHDMI iecBusActive)).Framed := by
  obtain ⟨r, hmove, hstep⟩ := s.step_hook wantHDMI iecBusActive
  rw [hstep]
  cases hmove with
  | stay hidle | cancel hidle | resume hidle | handBack hidle | handOver hidle | stop hidle =>
      refine h.call hidle _ ?_ ?_ rfl rfl rfl
      · first | exact id | exact fun hnone => absurd hnone (by simp [VideoSelection.switched])
      · simpa [VideoSelection.countFrame, VideoSelection.switched,
          VideoSelection.setPictureEnabled] using fun hbusy =>
            absurd (hidle.symm.trans hbusy) (by simp)
  | accept hidle htransition =>
      refine h.call hidle _ (fun htoHDMI => ?_) (by simp) rfl rfl rfl
      exact absurd (htransition.symm.trans htoHDMI) (by simp)
  | readFrames hhook =>
      rw [VideoHistory.hookStep, hhook]
      exact ⟨fun _ => (BitVec.add_zero _).symm, fun hframe _ => ⟨hframe, rfl, rfl⟩, Nat.zero_le _,
        fun _ => le_rfl⟩
  | enable hhook =>
      have hframes := h.frames (.inr hhook)
      rw [VideoHistory.hookStep, hhook]
      exact ⟨fun _ => hframes, h.earlier, h.whole, by simp⟩

theorem Framed.renderer {s : VideoCores} (h : s.Framed) (outcome : FrameOutcome) :
    (s.step (.renderer outcome)).Framed := by
  obtain ⟨hframes, hearlier, hwhole, haccepting⟩ := h
  have hlater (hhook : s.selection.hook = .enable) : s.history.completed ≤ s.history.steps + 1 :=
    (haccepting hhook).trans (Nat.le_succ _)
  have hcases : (s.step (.renderer outcome)) = { s with
      selection := s.selection.rendererStep outcome
      history := s.history.rendererStep s.selection } := rfl
  rw [hcases, VideoSelection.rendererStep, VideoHistory.rendererStep]
  cases hpc : s.selection.renderer <;> rw [hpc] at hearlier
  case loopHead =>
    refine ⟨hframes, fun hframe => ?_, hwhole, hlater⟩
    dsimp only at hframe
    split at hframe <;> simp [RendererPc.inFrame] at hframe
  case park | wait => exact ⟨hframes, by simp [RendererPc.inFrame], hwhole, hlater⟩
  case unpark => exact ⟨hframes, fun _ hbegun => absurd hbegun (by simp), hwhole, hlater⟩
  case draw => exact ⟨hframes, fun _ => hearlier rfl, hwhole, hlater⟩
  case collide => exact ⟨hframes, fun _ => hearlier rfl, hwhole, hlater⟩
  case present =>
    refine ⟨fun hwaiting => ?_, by simp [RendererPc.inFrame], ?_,
      fun hhook => Nat.succ_le_succ (haccepting hhook)⟩
    · show s.selection.words.presentedFrames + 1 =
        s.selection.videoTransitionFrame + BitVec.ofNat 32 (s.history.completed + 1)
      rw [hframes hwaiting, BitVec.ofNat_add, BitVec.add_assoc]
      rfl
    · show s.history.completed + 1 ≤
        (if s.history.begun then s.history.whole + 1 else s.history.whole) +
          s.history.midFrame.toNat
      cases hbegun : s.history.begun with
      | true =>
          rw [if_pos rfl]
          omega
      | false =>
          obtain ⟨hmid, hcompleted, hnone⟩ := hearlier rfl hbegun
          rw [hmid, hcompleted, hnone]
          decide

/-! ### Runs -/

/-- All that holds of the cores. -/
structure Sound (s : VideoCores) : Prop where
  modes : s.Modes
  flagged : s.Flagged
  clocked : s.Clocked
  framed : s.Framed

theorem sound_start : start.Sound := ⟨modes_start, flagged_start, clocked_start, framed_start⟩

theorem Sound.step {s : VideoCores} (h : s.Sound) (a : VideoAction) : (s.step a).Sound where
  modes := h.modes.step a
  flagged := h.flagged.step h.modes a
  clocked := h.clocked.step h.modes a
  framed := by
    cases a with
    | hook wantHDMI iecBusActive => exact h.framed.hook wantHDMI iecBusActive
    | renderer outcome => exact h.framed.renderer outcome

theorem sound_run (actions : List VideoAction) : (run step start actions).Sound :=
  run_invariant VideoCores.step (fun _ a h => h.step a) start actions sound_start

/-- What a step does that changes the display. -/
theorem switch_cases {s : VideoCores} (h : s.Sound) {a : VideoAction}
    (hswitch : (s.step a).selection.hdmiExclusive ≠ s.selection.hdmiExclusive) :
    (∃ wantHDMI, a = .hook wantHDMI false) ∧ s.selection.hook = .idle ∧
      s.selection.countFrame.debounceDone = true ∧
      (s.step a).selection.videoHasSwitched = true ∧
      (s.step a).history.calls = s.history.calls + 1 ∧
      (s.step a).history.lastSwitch = s.history.calls + 1 ∧
      (s.selection.hdmiExclusive = false → s.selection.videoTransition = .toHDMI ∧
        s.selection.words.presentedFrames ≠ s.selection.videoTransitionFrame) := by
  cases a with
  | hook wantHDMI iecBusActive =>
      obtain ⟨r, hmove, hstep⟩ := s.step_hook wantHDMI iecBusActive
      rw [hstep] at hswitch ⊢
      have hcounted (hidle : s.selection.hook = .idle) :
          (s.history.hookStep s.selection r.1).calls =
          s.history.calls + 1 ∧ (s.history.hookStep s.selection r.1).lastSwitch =
          s.history.calls + 1 := by
        rw [hookStep_call hidle]
        exact ⟨rfl, if_neg hswitch⟩
      cases hmove with
      | handBack hidle htransition hwant hparked hquiet hdone =>
          have hexclusive := (h.modes.toVIC htransition).1
          exact ⟨⟨wantHDMI, by rw [hquiet]⟩, hidle, hdone, rfl, (hcounted hidle).1,
            (hcounted hidle).2, fun hoff => absurd (hexclusive.symm.trans hoff) (by simp)⟩
      | handOver hidle htransition hwant hpresented hquiet hdone =>
          exact ⟨⟨wantHDMI, by rw [hquiet]⟩, hidle, hdone, rfl, (hcounted hidle).1,
            (hcounted hidle).2, fun _ => ⟨htransition, hpresented⟩⟩
      | stay | resume | cancel | accept | stop | readFrames | enable => exact absurd rfl hswitch
  | renderer outcome =>
      obtain ⟨words, renderer, hstep, -⟩ := rendererStep_keeps s.selection outcome
      rw [VideoCores.step, hstep] at hswitch
      exact absurd rfl hswitch

/-- Whenever the hook halts the mirror, core 1 has presented a frame since the request was
accepted, with the picture enabled and the log switched on. If core 1 was in no frame at the
time, it has also begun one since that it presented. -/
theorem mirror_halted_after_frame (before : List VideoAction) (a : VideoAction) :
    let s := run step start before
    s.switches.mirrorHalted = false → (s.step a).switches.mirrorHalted = true →
      0 < s.history.completed ∧ (s.history.midFrame = false → 0 < s.history.whole) ∧
        s.selection.words.pictureEnabled = true ∧ s.switches.vicLogEnabled = true := by
  intro s hrunning hhalted
  have h : s.Sound := sound_run before
  have hexclusive : s.selection.hdmiExclusive = false := h.modes.mirror.symm.trans hrunning
  have hswitched := (h.modes.step a).mirror.symm.trans hhalted
  obtain ⟨-, hidle, -, -, -, -, hover⟩ := switch_cases h (a := a) (by simp [hswitched, hexclusive])
  obtain ⟨htransition, hpresented⟩ := hover hexclusive
  have hon := (h.modes.toHDMI htransition).2
  have hcompleted : 0 < s.history.completed := by
    refine Nat.pos_of_ne_zero fun hzero => hpresented ?_
    rw [h.framed.frames (.inl htransition), hzero]
    exact BitVec.add_zero _
  refine ⟨hcompleted, fun hmid => ?_, hon, ?_⟩
  · have hwhole := h.framed.whole
    rw [hmid] at hwhole
    exact hcompleted.trans_le hwhole
  · rw [h.modes.log hidle, hon, Bool.true_or]

theorem mirror_halted_after_frame_requested :
    0 < (run step start requested).history.completed :=
  (mirror_halted_after_frame requested (.hook true false) (by decide) (by decide)).1

/-- The display, once switched, counts as switched. -/
theorem videoHasSwitched_step {s : VideoCores} (h : s.selection.videoHasSwitched = true)
    (a : VideoAction) : (s.step a).selection.videoHasSwitched = true := by
  cases a with
  | hook wantHDMI iecBusActive =>
      obtain ⟨r, hmove, hstep⟩ := s.step_hook wantHDMI iecBusActive
      rw [hstep]
      cases hmove with
      | handBack | handOver => rfl
      | stay | resume | cancel | accept | stop | readFrames | enable => exact h
  | renderer outcome =>
      obtain ⟨words, renderer, hstep, -⟩ := rendererStep_keeps s.selection outcome
      rw [VideoCores.step, hstep]
      exact h

/-- The last call that switched does not move back. -/
theorem lastSwitch_step {s : VideoCores} (h : s.Clocked) (a : VideoAction) :
    s.history.lastSwitch ≤ (s.step a).history.lastSwitch := by
  have hpast := h.past
  cases a with
  | hook wantHDMI iecBusActive =>
      show _ ≤ (s.history.hookStep s.selection _).lastSwitch
      rw [VideoHistory.hookStep]
      split
      · dsimp only
        split <;> omega
      · exact le_rfl
      · exact le_rfl
  | renderer outcome =>
      show _ ≤ (s.history.rendererStep s.selection).lastSwitch
      rw [VideoHistory.rendererStep]
      split <;> exact le_rfl

/-- A call that the debounce lets pass is thirty calls after the last that switched. -/
theorem Clocked.debounced {s : VideoCores} (h : s.Clocked)
    (hswitched : s.selection.videoHasSwitched = true)
    (hdone : s.selection.countFrame.debounceDone = true) :
    s.history.lastSwitch + 30 ≤ s.history.calls + 1 := by
  have hlast : s.selection.countFrame.videoLastSwitchFrame =
      BitVec.ofNat 32 s.history.lastSwitch := h.lastSwitch hswitched
  have hhas : s.selection.countFrame.videoHasSwitched = true := hswitched
  rw [VideoSelection.debounceDone, calls_call h, hlast, hhas, Bool.not_true, Bool.false_or,
    decide_eq_true_eq] at hdone
  have hword := BitVec.le_def.mp hdone
  have hdistance := toNat_ofNat_sub_le (h.past.trans (Nat.le_add_right _ 1))
  have hthirty : (30#32).toNat = 30 := rfl
  omega

/-- The display is switched in no call that finds the serial bus active, and the next switch
comes at least thirty calls later. -/
theorem switches_apart (before : List VideoAction) (a : VideoAction) :
    let s := run step start before
    (s.step a).selection.hdmiExclusive ≠ s.selection.hdmiExclusive →
      (∃ wantHDMI, a = .hook wantHDMI false) ∧
      ∀ (between : List VideoAction) (b : VideoAction),
        let s' := run step (s.step a) between
        (s'.step b).selection.hdmiExclusive ≠ s'.selection.hdmiExclusive →
          (s.step a).history.calls + 30 ≤ (s'.step b).history.calls := by
  intro s hfirst
  have h : s.Sound := sound_run before
  obtain ⟨hquiet, -, -, hswitched, hcalls, hlast, -⟩ := switch_cases h hfirst
  refine ⟨hquiet, fun between b => ?_⟩
  intro s' hsecond
  -- the display has been switched, and the last time was not before the first call
  have hkept : s'.Sound ∧ s'.selection.videoHasSwitched = true ∧
      (s.step a).history.calls ≤ s'.history.lastSwitch :=
    run_invariant VideoCores.step
      (P := fun t => t.Sound ∧ t.selection.videoHasSwitched = true ∧
        (s.step a).history.calls ≤ t.history.lastSwitch)
      (fun t c ht => ⟨ht.1.step c, videoHasSwitched_step ht.2.1 c,
        ht.2.2.trans (lastSwitch_step ht.1.clocked c)⟩)
      _ between ⟨h.step a, hswitched, (hcalls.trans hlast.symm).le⟩
  obtain ⟨h', hswitched', hle⟩ := hkept
  obtain ⟨-, -, hdone, -, hcalls', -, -⟩ := switch_cases h' hsecond
  have hthirty := h'.clocked.debounced hswitched' hdone
  rw [hcalls']
  omega

theorem switches_apart_withdrawn :
    ((run step start requested).step (.hook true false)).history.calls + 30 ≤
      ((run step ((run step start requested).step (.hook true false)) withdrawn).step
        (.hook false false)).history.calls :=
  (switches_apart requested (.hook true false) (by decide)).2 withdrawn (.hook false false)
    (by decide)

end VideoCores

end ScpuEmu
