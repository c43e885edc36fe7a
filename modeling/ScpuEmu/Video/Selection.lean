import Mathlib.Data.BitVec
import ScpuEmu.Library.TransitionSystem

/-!
# Selecting the display at run time

The physical VIC and the renderer of core 1 take turns in presenting the picture. Core 0
calls a hook at the end of each frame, which brings the display in line with the request of
the program. Core 1 parks while the picture is disabled and renders frames while it is
enabled. Each load and each store of the words that steer the display is one step of either
core. The two collision latches steer nothing: a step clears both, and a step collects in both.

The request, the state of the serial bus and the outcome of a frame are read off the step,
so they may be anything at any time. Beside the state stands a history, which nothing reads.
-/

namespace ScpuEmu

section State

/-- `SCPURuntimeVideoTransition`. -/
inductive VideoTransition
  | none
  | toHDMI
  | toVIC
  deriving DecidableEq, Repr

/-- What the hook tells the rest of the accelerator. -/
inductive VideoCommand
  | enableVICLog (enabled : Bool)
  | enableBusKeepalive (on : Bool)
  | enablePhysicalMirror
  | disablePhysicalMirror
  deriving DecidableEq, Repr

/-- What the commands switch. -/
structure VideoSwitches where
  vicLogEnabled : Bool
  busKeepalive : Bool
  mirrorHalted : Bool
  deriving DecidableEq, Repr

def VideoSwitches.perform (s : VideoSwitches) : VideoCommand → VideoSwitches
  | .enableVICLog enabled => { s with vicLogEnabled := enabled }
  | .enableBusKeepalive on => { s with busKeepalive := on }
  | .enablePhysicalMirror => { s with mirrorHalted := false }
  | .disablePhysicalMirror => { s with mirrorHalted := true }

/-- The words of the display that both cores reach. -/
structure DisplayWords where
  pictureEnabled : Bool
  pictureParked : Bool
  presentedFrames : BitVec 32
  spriteSpriteCollision : BitVec 32
  spriteBackgroundCollision : BitVec 32
  deriving DecidableEq, Repr

/-- Where core 1 is in `CHDMIDisplay::run`. -/
inductive RendererPc
  | loopHead
  | park
  | unpark
  -- `renderFrame`
  | draw
  | collide
  | present
  -- until the end of the frame
  | wait
  deriving DecidableEq, Repr

/-- Where core 0 is in the hook. Only an accepted request is more than one step. -/
inductive HookPc
  | idle
  | readFrames
  | enable
  deriving DecidableEq, Repr

/-- The state of the selection, with the program counters of the cores. -/
structure VideoSelection where
  hdmiExclusive : Bool
  videoTransition : VideoTransition
  videoTransitionFrame : BitVec 32
  videoFrames : BitVec 32
  videoLastSwitchFrame : BitVec 32
  videoHasSwitched : Bool
  words : DisplayWords
  hook : HookPc
  renderer : RendererPc
  deriving DecidableEq, Repr

/-- What a frame of core 1 comes to: whether it is presented, neither held nor torn by a
reset, and the collisions seen in it. -/
structure FrameOutcome where
  presented : Bool
  spriteSprite : BitVec 8
  spriteBackground : BitVec 8

/-- In a frame. -/
def RendererPc.inFrame : RendererPc → Bool
  | .draw | .collide | .present => true
  | .loopHead | .park | .unpark | .wait => false

end State

namespace VideoSelection

variable (s : VideoSelection)

def setPictureEnabled (enabled : Bool) : VideoSelection :=
  { s with words.pictureEnabled := enabled }

def resetCollisionLatches : VideoSelection :=
  { s with words.spriteSpriteCollision := 0, words.spriteBackgroundCollision := 0 }

def countFrame : VideoSelection := { s with videoFrames := s.videoFrames + 1 }

/-- The display was switched in this call. -/
def switched (exclusive : Bool) : VideoSelection :=
  { s with
    hdmiExclusive := exclusive
    videoTransition := .none
    videoLastSwitchFrame := s.videoFrames
    videoHasSwitched := true }

def debounceDone : Bool :=
  !s.videoHasSwitched || decide (30#32 ≤ s.videoFrames - s.videoLastSwitchFrame)

/-- `scpuUpdateVideoSelection`, up to its first load where a request is accepted. -/
def scpuUpdateVideoSelection (wantHDMI iecBusActive : Bool) :
    VideoSelection × List VideoCommand :=
  let s := s.countFrame
  match s.videoTransition with
  | .toVIC =>
      if wantHDMI then ({ s.setPictureEnabled true with videoTransition := .none }, [])
      else if !s.words.pictureParked || iecBusActive || !s.debounceDone then (s, [])
      else
        (s.switched false,
          [.enableBusKeepalive false, .enablePhysicalMirror, .enableVICLog false])
  | .toHDMI =>
      if !wantHDMI then
        ({ s.setPictureEnabled false with videoTransition := .none }, [.enableVICLog false])
      else if s.words.presentedFrames == s.videoTransitionFrame || iecBusActive ||
          !s.debounceDone then (s, [])
      else (s.switched true, [.enableBusKeepalive true, .disablePhysicalMirror])
  | .none =>
      if wantHDMI == s.hdmiExclusive || !s.debounceDone || iecBusActive then (s, [])
      else if wantHDMI then
        ({ s.resetCollisionLatches with hook := .readFrames }, [.enableVICLog true])
      else ({ s.setPictureEnabled false with videoTransition := .toVIC }, [])

/-- One step of core 0 in the hook. -/
def hookStep (wantHDMI iecBusActive : Bool) : VideoSelection × List VideoCommand :=
  match s.hook with
  | .idle => s.scpuUpdateVideoSelection wantHDMI iecBusActive
  | .readFrames =>
      ({ s with videoTransitionFrame := s.words.presentedFrames, hook := .enable }, [])
  | .enable =>
      ({ s.setPictureEnabled true with videoTransition := .toHDMI, hook := .idle }, [])

/-- One step of core 1. -/
def rendererStep (outcome : FrameOutcome) : VideoSelection :=
  match s.renderer with
  | .loopHead => { s with renderer := if s.words.pictureEnabled then .unpark else .park }
  | .park => { s with words.pictureParked := true, renderer := .wait }
  | .unpark => { s with words.pictureParked := false, renderer := .draw }
  | .draw => { s with renderer := if outcome.presented then .collide else .wait }
  | .collide =>
      { s with
        words.spriteSpriteCollision :=
          s.words.spriteSpriteCollision ||| outcome.spriteSprite.setWidth 32
        words.spriteBackgroundCollision :=
          s.words.spriteBackgroundCollision ||| outcome.spriteBackground.setWidth 32
        renderer := .present }
  | .present =>
      { s with words.presentedFrames := s.words.presentedFrames + 1, renderer := .loopHead }
  | .wait => { s with renderer := .loopHead }

end VideoSelection

section Runs

/-- What happened, counted from the start or from the last load of a request that was
accepted. -/
structure VideoHistory where
  /-- Calls of the hook. -/
  calls : ℕ
  /-- The call that switched the display last. -/
  lastSwitch : ℕ
  /-- A call came after the last step of core 1. -/
  crossed : Bool
  /-- Steps of core 1 after the last step of core 0. -/
  steps : ℕ
  /-- Core 1 was in a frame when the request was accepted. -/
  midFrame : Bool
  /-- The frame that core 1 is in was begun since. -/
  begun : Bool
  /-- Frames presented since. -/
  completed : ℕ
  /-- Those of them that were begun since. -/
  whole : ℕ
  deriving DecidableEq, Repr

/-- The cores, the switches and the history. -/
structure VideoCores where
  selection : VideoSelection
  switches : VideoSwitches
  history : VideoHistory
  deriving DecidableEq, Repr

namespace VideoHistory

variable (h : VideoHistory)

def hookStep (s s' : VideoSelection) : VideoHistory :=
  let h := { h with steps := 0 }
  match s.hook with
  | .idle =>
      { h with
        calls := h.calls + 1
        lastSwitch :=
          if s'.hdmiExclusive = s.hdmiExclusive then h.lastSwitch else h.calls + 1
        crossed := true }
  | .readFrames =>
      { h with midFrame := s.renderer.inFrame, begun := false, completed := 0, whole := 0 }
  | .enable => h

def rendererStep (s : VideoSelection) : VideoHistory :=
  let h := { h with crossed := false, steps := h.steps + 1 }
  match s.renderer with
  | .unpark => { h with begun := true }
  | .present =>
      { h with completed := h.completed + 1, whole := if h.begun then h.whole + 1 else h.whole }
  | .loopHead | .park | .draw | .collide | .wait => h

end VideoHistory

inductive VideoAction
  | hook (wantHDMI iecBusActive : Bool)
  | renderer (outcome : FrameOutcome)

namespace VideoCores

/-- The renderer is registered, and nothing was called yet. -/
def start : VideoCores where
  selection :=
    { hdmiExclusive := false
      videoTransition := .none
      videoTransitionFrame := 0
      videoFrames := 0
      videoLastSwitchFrame := 0
      videoHasSwitched := false
      words := ⟨true, false, 0, 0, 0⟩
      hook := .idle
      renderer := .loopHead }
  switches := ⟨true, false, false⟩
  history := ⟨0, 0, false, 0, false, false, 0, 0⟩

def step (s : VideoCores) : VideoAction → VideoCores
  | .hook wantHDMI iecBusActive =>
      let (selection, commands) := s.selection.hookStep wantHDMI iecBusActive
      { selection := selection
        switches := commands.foldl VideoSwitches.perform s.switches
        history := s.history.hookStep s.selection selection }
  | .renderer outcome =>
      { s with
        selection := s.selection.rendererStep outcome
        history := s.history.rendererStep s.selection }

/-- Core 1 comes from the load of the switch to the store of the flag before the hook is
called twice. -/
def Prompt (s : VideoCores) : VideoAction → Prop
  | .hook _ _ => s.selection.hook = .idle → s.selection.renderer = .unpark →
      s.history.crossed = false
  | .renderer _ => True

instance (s : VideoCores) (a : VideoAction) : Decidable (s.Prompt a) := by
  cases a with
  | hook => exact inferInstanceAs (Decidable (_ → _ → _))
  | renderer => exact isTrue trivial

end VideoCores

end Runs

end ScpuEmu
