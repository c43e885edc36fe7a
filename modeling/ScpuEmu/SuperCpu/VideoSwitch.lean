import ScpuEmu.SuperCpu.HandOver
import ScpuEmu.SuperCpu.Silence
import ScpuEmu.SuperCpu.SystemFrames
import ScpuEmu.Video.SelectionHistory

/-!
# The display is switched in the running accelerator

Between two calls of the frame hook the accelerator runs; in a call the commands of the hook
are carried out on it, while core 1 goes on. The mirror runs exactly while the physical VIC
presents the picture, whatever the program, the settings and core 1 do in the meantime.
-/

namespace ScpuEmu

open Library WriteBuffer

/-- The accelerator, and the selection of its display. -/
structure VideoMachine (ρ : Type) where
  system : System ρ
  selection : VideoSelection

/-- A step of the accelerator between two calls, one of the hook, or one of core 1. -/
inductive VideoMachineOp (ρ : Type)
  | system (op : SystemOp ρ)
  | hook (wantHDMI : Bool)
  | renderer (outcome : FrameOutcome)

namespace VideoMachine

variable {ρ : Type}

/-- A command of the hook. The record starts anew where the mirror is disabled. -/
def perform (c : SuperCpu ρ) (depth : ℕ) (s : System ρ) : VideoCommand → System ρ
  | .enableVICLog enabled => ⟨s.memory.mapCapture fun r => r.enableVICLog enabled, s.outside⟩
  | .enableBusKeepalive on =>
      ⟨s.memory.mapTiming fun t => { t with busKeepalive := on }, s.outside⟩
  | .enablePhysicalMirror => SuperCpu.enablePhysicalMirror (c.board.env depth) s
  | .disablePhysicalMirror => SuperCpu.disablePhysicalMirror s.startRecord

/-- One step. Core 0 is in the hook or in the accelerator. -/
def step (c : SuperCpu ρ) (depth : ℕ) (m : VideoMachine ρ) : VideoMachineOp ρ → VideoMachine ρ
  | .system op =>
      if m.selection.hook = .idle then { m with system := c.step depth m.system op } else m
  | .hook wantHDMI =>
      let (selection, commands) :=
        m.selection.hookStep wantHDMI m.system.memory.timing.iecBusActive
      ⟨commands.foldl (perform c depth) m.system, selection⟩
  | .renderer outcome => { m with selection := m.selection.rendererStep outcome }

/-! ### The cores of a run -/

/-- The selection is in a state that the cores can reach. -/
def Reached (v : VideoSelection) : Prop :=
  ∃ actions, (run VideoCores.step VideoCores.start actions).selection = v

theorem Reached.hook {v : VideoSelection} (h : Reached v) (wantHDMI iecBusActive : Bool) :
    Reached (v.hookStep wantHDMI iecBusActive).1 := by
  obtain ⟨actions, rfl⟩ := h
  refine ⟨actions ++ [.hook wantHDMI iecBusActive], ?_⟩
  rw [run_append]
  rfl

theorem Reached.renderer {v : VideoSelection} (h : Reached v) (outcome : FrameOutcome) :
    Reached (v.rendererStep outcome) := by
  obtain ⟨actions, rfl⟩ := h
  refine ⟨actions ++ [.renderer outcome], ?_⟩
  rw [run_append]
  rfl

theorem Reached.exclusive {v : VideoSelection} (h : Reached v) :
    (v.videoTransition = .toHDMI → v.hdmiExclusive = false) ∧
      (v.videoTransition = .toVIC → v.hdmiExclusive = true) := by
  obtain ⟨actions, rfl⟩ := h
  have hmodes := VideoCores.modes_run actions
  exact ⟨fun htransition => (hmodes.toHDMI htransition).1,
    fun htransition => (hmodes.toVIC htransition).1⟩

/-! ### The mirror -/

/-- What is said of the accelerator while HDMI presents the picture, and while the VIC does. -/
structure Follows (s : System ρ) (hdmiExclusive : Bool) : Prop where
  consistent : s.mirrorState.Consistent
  exclusive : hdmiExclusive = true → ∃ mode, OnRecord mode (Quiet mode) s
  physical : hdmiExclusive = false →
    s.accelerator.mirrorHalted = false ∧ s.accelerator.buffer.deliveryEnabled = true

/-- Nothing but the hook halts or resumes the mirror. -/
theorem spares_mirrorHalted (c : SuperCpu ρ) (halted : Bool) :
    c.Spares fun o => o.mirrorHalted = halted where
  around _ _ _ h := h
  buffer _ _ h := h
  note _ _ h := h
  registerRead _ _ _ h := h
  registerWrite o lines a v h := by
    show (o.applyPolicy (c.policy o.rest lines a v)).mirrorHalted = halted
    cases c.policy o.rest lines a v <;> exact h

theorem mirrorHalted_step (c : SuperCpu ρ) (depth : ℕ) (s : System ρ) (op : SystemOp ρ) :
    (c.step depth s op).accelerator.mirrorHalted = s.accelerator.mirrorHalted := by
  have hstart : OnAccelerator (fun o => o.mirrorHalted = s.accelerator.mirrorHalted) s := rfl
  refine accelerator_step (spares_mirrorHalted c _) depth (fun _ _ h => h) (fun o policy h => ?_)
    s op hstart
  cases policy <;> exact h

theorem Follows.system {s : System ρ} {hdmiExclusive : Bool} (h : Follows s hdmiExclusive)
    (c : SuperCpu ρ) (depth : ℕ) (op : SystemOp ρ) :
    Follows (c.step depth s op) hdmiExclusive where
  consistent := consistent_displayStep c depth s (.system op) h.consistent
  exclusive hexclusive := by
    obtain ⟨mode, hrecord⟩ := h.exclusive hexclusive
    exact ⟨mode, quiet_step c depth s op hrecord⟩
  physical hphysical := by
    obtain ⟨hrunning, henabled⟩ := h.physical hphysical
    refine ⟨(mirrorHalted_step c depth s op).trans hrunning, ?_⟩
    have hdelivers : s.mirrorState.buffer.Delivers := ⟨h.consistent.represents, henabled⟩
    exact WriteBuffer.Delivers.enabled (mirror_step (admits_all c)
      (MirrorState.keptBy_delivers fun _ => True) depth s (within_all op) hdelivers)

/-- The log and the keep-alive do not concern the mirror. -/
theorem Follows.setting {s : System ρ} {hdmiExclusive : Bool} (h : Follows s hdmiExclusive)
    (c : SuperCpu ρ) (depth : ℕ) {command : VideoCommand}
    (hcommand : (∃ enabled, command = .enableVICLog enabled) ∨
      ∃ on, command = .enableBusKeepalive on) :
    Follows (perform c depth s command) hdmiExclusive := by
  obtain ⟨enabled, rfl⟩ | ⟨on, rfl⟩ := hcommand
  · exact ⟨h.consistent, fun hexclusive => (h.exclusive hexclusive).imp fun _ hrecord =>
      hrecord.onward ⟨le_rfl, rfl⟩, h.physical⟩
  · exact ⟨h.consistent, fun hexclusive => (h.exclusive hexclusive).imp fun _ hrecord =>
      hrecord.onward ⟨le_rfl, rfl⟩, h.physical⟩

theorem Follows.disable {s : System ρ} {hdmiExclusive : Bool} (h : Follows s hdmiExclusive)
    (c : SuperCpu ρ) (depth : ℕ) : Follows (perform c depth s .disablePhysicalMirror) true where
  consistent := by
    have hrecord : s.startRecord.mirrorState.Consistent :=
      ⟨h.consistent.represents, h.consistent.attached, h.consistent.inverse,
        h.consistent.accessible, h.consistent.range⟩
    exact consistent_displayStep c depth s.startRecord .disablePhysicalMirror hrecord
  exclusive _ := ⟨s.memory.scpu128Mode, ⟨rfl, rfl, rfl⟩, rfl, fun _ => trivial⟩
  physical hphysical := absurd hphysical (by simp)

theorem Follows.enable {s : System ρ} {hdmiExclusive : Bool} (h : Follows s hdmiExclusive)
    (c : SuperCpu ρ) (depth : ℕ) : Follows (perform c depth s .enablePhysicalMirror) false where
  consistent := consistent_displayStep c depth s .enablePhysicalMirror h.consistent
  exclusive hexclusive := absurd hexclusive (by simp)
  physical _ := by
    refine ⟨rfl, ?_⟩
    have hbuffer : (perform c depth s .enablePhysicalMirror).accelerator.buffer =
        (s.accelerator.buffer.discard.setDeliveryEnabled true).invalidateDisplayed s.memory :=
      congrArg MirrorState.buffer (enablePhysicalMirror_mirrorState c depth s)
    rw [hbuffer, invalidateDisplayed_eq_restage]
    exact congrArg Settings.deliveryEnabled (settings_restage _ _)

/-- The accelerator follows the display in every step. -/
theorem Follows.step {m : VideoMachine ρ} (hreached : Reached m.selection)
    (h : Follows m.system m.selection.hdmiExclusive) (c : SuperCpu ρ) (depth : ℕ)
    (op : VideoMachineOp ρ) :
    Reached (m.step c depth op).selection ∧
      Follows (m.step c depth op).system (m.step c depth op).selection.hdmiExclusive := by
  cases op with
  | system op =>
      by_cases hidle : m.selection.hook = .idle
      · rw [VideoMachine.step, if_pos hidle]
        exact ⟨hreached, h.system c depth op⟩
      · rw [VideoMachine.step, if_neg hidle]
        exact ⟨hreached, h⟩
  | hook wantHDMI =>
      refine ⟨hreached.hook _ _, ?_⟩
      have hmove := m.selection.hookMove wantHDMI m.system.memory.timing.iecBusActive
      unfold VideoMachine.step
      dsimp only
      generalize m.selection.hookStep wantHDMI m.system.memory.timing.iecBusActive = r at hmove
      cases hmove with
      | stay | resume | stop | readFrames | enable => exact h
      | cancel | accept => exact h.setting c depth (.inl ⟨_, rfl⟩)
      | handBack =>
          exact (((h.setting c depth (.inr ⟨_, rfl⟩)).enable c depth).setting c depth
            (.inl ⟨_, rfl⟩))
      | handOver => exact (h.setting c depth (.inr ⟨_, rfl⟩)).disable c depth
  | renderer outcome =>
      refine ⟨hreached.renderer outcome, ?_⟩
      obtain ⟨words, renderer, hstep, -⟩ := VideoCores.rendererStep_keeps m.selection outcome
      show Follows m.system (m.selection.rendererStep outcome).hdmiExclusive
      rw [hstep]
      exact h

/-- In every reachable state the mirror is halted, and delivery disabled, exactly while HDMI
presents the picture. Then no byte waits for delivery, and as long as no store of RAM changes
a byte of the active row of sprite pointers, none has been behind a write on the physical bus
since the display was switched. -/
theorem mirror_follows_display (c : SuperCpu ρ) (depth : ℕ) (s : System ρ)
    (pendingValue : Addr → Byte) (list : ℕ → Addr) (row previousRow : BitVec 32) (d018 : Byte)
    (registers : BitVec 6 → Byte)
    (hbuffer : s.accelerator.buffer = (WriteBuffer.construct pendingValue list).attach true)
    (hfetch : s.memory.fetch = Fetch.construct row previousRow d018 registers)
    (hrunning : s.accelerator.mirrorHalted = false) (ops : List (VideoMachineOp ρ)) :
    let m := run (step c depth) ⟨s, VideoCores.start.selection⟩ ops
    m.system.accelerator.mirrorHalted = m.selection.hdmiExclusive ∧
      m.system.accelerator.buffer.deliveryEnabled = !m.selection.hdmiExclusive ∧
      (m.selection.hdmiExclusive = true → m.system.accelerator.buffer.queue.count = 0 ∧
        (BusEvent.NoCommit m.system.accelerator.events →
          BusEvent.Silent m.system.memory.scpu128Mode m.system.accelerator.events)) := by
  intro m
  have henabled : s.accelerator.buffer.deliveryEnabled = true := by
    rw [hbuffer]
    rfl
  have hstart : Follows s false :=
    ⟨consistent_construct hbuffer hfetch, fun h => absurd h (by simp), fun _ =>
      ⟨hrunning, henabled⟩⟩
  obtain ⟨-, hfollows⟩ : Reached m.selection ∧ Follows m.system m.selection.hdmiExclusive :=
    run_invariant (P := fun m : VideoMachine ρ =>
        Reached m.selection ∧ Follows m.system m.selection.hdmiExclusive) (step c depth)
      (fun m op h => h.2.step h.1 c depth op) _ ops ⟨⟨[], rfl⟩, hstart⟩
  generalize m.selection.hdmiExclusive = hdmiExclusive at hfollows ⊢
  cases hdmiExclusive with
  | false =>
      obtain ⟨hmirror, hdelivery⟩ := hfollows.physical rfl
      exact ⟨hmirror, hdelivery, fun h => absurd h (by simp)⟩
  | true =>
      obtain ⟨mode, hrecord⟩ := hfollows.exclusive rfl
      have hmode : m.system.memory.scpu128Mode = mode := hrecord.mode
      rw [hmode]
      exact ⟨hrecord.halted.halted, hrecord.halted.delivery,
        fun _ => ⟨hrecord.halted.drained, hrecord.events⟩⟩

/-- HDMI is requested and presents a frame, the display is switched, and the program stores. -/
def switchedOps : List (VideoMachineOp Unit) :=
  [.system (.access (.writeFast 0x0400 1)), .hook true, .hook true, .hook true] ++
    List.replicate 5 (.renderer ⟨true, 0, 0⟩) ++
    [.hook true, .system (.access (.writeFast 0x0401 2))]

theorem mirror_follows_display_switched :
    (run (step quietSuperCpu 0) ⟨quietSystem, VideoCores.start.selection⟩
      switchedOps).system.accelerator.buffer.queue.count = 0 :=
  ((mirror_follows_display quietSuperCpu 0 quietSystem _ _ _ _ _ _ rfl rfl rfl switchedOps).2.2
    (by decide +kernel)).1

end VideoMachine

end ScpuEmu
