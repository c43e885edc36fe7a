import ScpuEmu.C64.FrameRules
import ScpuEmu.SuperCpu.Presentation

/-!
# What the steps of the accelerator keep

A property of the accelerator that neither the bus around it nor the write buffer nor the
record can change is kept by every step, as far as the register file keeps it.
-/

namespace ScpuEmu

open Library

namespace SuperCpu

variable {ρ : Type}

/-- What a call of the bus or of a latch makes of the rest. -/
inductive Around (c : SuperCpu ρ) (r : ρ) : ρ → Prop
  | read (a : Addr) : Around c r (c.bus.read r a).2
  | write (a : Addr) (v : Byte) : Around c r (c.bus.write r a v)
  | writeRAM (a : Addr) (v : Byte) : Around c r (c.bus.writeRAM r a v)
  | sampleInterrupts : Around c r (c.bus.sampleInterrupts r).2
  | hostCycles : Around c r (c.bus.hostCycles r).2
  | hostCyclesPast (anchor owed : BitVec 64) : Around c r (c.bus.hostCyclesPast r anchor owed).2
  | spriteSprite : Around c r (c.takeSpriteSpriteCollision r).2
  | spriteBackground : Around c r (c.takeSpriteBackgroundCollision r).2
  | clearCollisions : Around c r (c.clearCollisions r)

/-- All but the register file leave the property alone, and so do its answers. -/
structure Spares (c : SuperCpu ρ) (K : Accelerator ρ → Prop) : Prop where
  around : ∀ o r, c.Around o.rest r → K o → K { o with rest := r }
  buffer : ∀ o b, K o → K { o with buffer := b }
  note : ∀ o event, K o → K (o.note event)
  registerRead : ∀ o lines a, K o → K (c.cartridge.ioRead o lines a).2.2
  registerWrite : ∀ o lines a v, K o → K (c.cartridge.ioWrite o lines a v).state

end SuperCpu

/-- A property of the accelerator, as one of the machine. -/
def OnAccelerator {ρ : Type} (K : Accelerator ρ → Prop) (s : System ρ) : Prop := K s.outside.rest

section Steps

variable {ρ : Type} {c : SuperCpu ρ} {K : Accelerator ρ → Prop} (hK : c.Spares K)

include hK

theorem accelerator_callOutside {α : Type}
    {op : WithREU (Accelerator ρ) → α × WithREU (Accelerator ρ)}
    (hop : ∀ o, ∃ r, c.Around o.rest.rest r ∧
      (op o).2 = { o with rest := { o.rest with rest := r } }) :
    Keeps (OnAccelerator K) (callOutside op) := by
  intro s h
  obtain ⟨r, haround, hr⟩ := hop s.outside
  show K (op s.outside).2.rest
  rw [hr]
  exact hK.around s.outside.rest r haround h

theorem accelerator_framesTime (env : Surroundings (WithREU (Accelerator ρ)))
    (hbus : env.bus = some c.bus.recorded.withREU) : env.FramesTime (OnAccelerator K) where
  memory _ _ _ h := h
  hostCycles bus hb m o h := by
    obtain rfl := Option.some.inj (hbus.symm.trans hb)
    exact hK.around o.rest _ .hostCycles h

theorem accelerator_frames (host : IREUHost (HostSide (Accelerator ρ))) :
    (c.board.surroundings host).Frames (OnAccelerator K) where
  toFramesTime := accelerator_framesTime hK _ rfl
  read bus hbus m o a h := by
    obtain rfl := Option.some.inj hbus
    exact hK.around o.rest _ (.read a) h
  mirror sink hsink s a v h := by
    obtain rfl := Option.some.inj hsink
    exact hK.note _ _ (hK.buffer s.outside.rest _ h)
  spriteSprite _ o h := hK.around o.rest _ .spriteSprite h
  spriteBackground _ o h := hK.around o.rest _ .spriteBackground h
  write bus hbus m o a v h := by
    obtain rfl := Option.some.inj hbus
    exact hK.note _ _ (hK.around o.rest _ (.write a v) h)
  writeRAM bus hbus m o a v h := by
    obtain rfl := Option.some.inj hbus
    exact hK.note _ _ (hK.around o.rest _ (.writeRAM a v) h)

theorem accelerator_keepsAccesses :
    c.board.KeepsAccesses fun h : HostSide (Accelerator ρ) => K h.rest where
  read8 host hkeeps a := frames_read8 (accelerator_frames hK host).toFramesReads hkeeps.ioRead a
  write8 host hkeeps a v := frames_write8 (accelerator_frames hK host) hkeeps a v
  registerRead s a h := hK.registerRead s.outside.rest s.memory.mapLines a h
  registerWrite s a v h := by
    refine frames_selectSpeeds (accelerator_framesTime hK c.board.bare rfl) _ _ ?_
    exact hK.registerWrite s.outside.rest s.memory.mapLines a v h
  cutOff _ h := h

variable (depth : ℕ)

theorem accelerator_env : (c.board.env depth).Keeps (OnAccelerator K) :=
  (accelerator_keepsAccesses hK).env depth

theorem accelerator_access (access : GuestAccess) :
    Keeps (OnAccelerator K) (access.program (c.board.env depth)) := by
  have hframes : (c.board.env depth).Frames (OnAccelerator K) := accelerator_frames hK _
  have henv := accelerator_env hK depth
  cases access with
  | read8 a => exact frames_read8 hframes.toFramesReads henv.ioRead a
  | write8 a v => exact frames_write8 hframes henv a v
  | readFast a => exact frames_readFast hframes.toFramesReads henv.ioRead a
  | writeFast a v => exact frames_writeFast hframes henv a v

theorem accelerator_sampleIRQNMIFast :
    Keeps (OnAccelerator K) (sampleIRQNMIFast (c.board.env depth)) := by
  have htime : (c.board.env depth).FramesTime (OnAccelerator K) := accelerator_framesTime hK _ rfl
  refine keeps_bind ?_ fun _ => keeps_getMemory_bind fun _ => keeps_pure _
  refine keeps_bind (frames_modifyTiming htime _) fun _ => ?_
  refine keeps_getMemory_bind fun m => keeps_onlyIf ?_
  refine keeps_bind ?_ fun _ => frames_modifyTiming htime _
  exact accelerator_callOutside hK fun o => ⟨_, .sampleInterrupts, rfl⟩

theorem accelerator_tickFast (n : ℕ) :
    Keeps (OnAccelerator K) (tickFast (c.board.env depth) n) := by
  have htime : (c.board.env depth).FramesTime (OnAccelerator K) := accelerator_framesTime hK _ rfl
  refine keeps_getMemory_bind fun m => ?_
  refine keeps_bind (frames_modifyTiming htime _) fun _ => ?_
  refine keeps_getMemory_bind fun m' => ?_
  refine keeps_ite (keeps_pure _) ?_
  refine keeps_bind (frames_modifyTiming htime _) fun _ => keeps_onlyIf ?_
  refine keeps_bind (accelerator_callOutside hK fun o => ⟨_, .hostCycles, rfl⟩) fun now => ?_
  refine keeps_bind ?_ fun now' => ?_
  · refine keeps_getMemory_bind fun m'' => ?_
    refine keeps_ite ?_ (keeps_pure _)
    refine keeps_bind (fun s h => hK.note _ _ (hK.around s.outside.rest _ (.write _ _) h))
      fun _ => ?_
    refine keeps_bind (accelerator_callOutside hK fun o => ⟨_, .hostCycles, rfl⟩) fun _ => ?_
    refine keeps_get_bind' fun s => ?_
    exact keeps_bind (frames_modifyTiming htime _) fun _ => keeps_pure _
  · refine keeps_getMemory_bind fun m'' => ?_
    refine keeps_bind (keeps_ite (keeps_pure _) ?_) fun _ => frames_modifyTiming htime _
    exact accelerator_callOutside hK fun o => ⟨_, .hostCyclesPast _ _, rfl⟩

theorem accelerator_mirrorWork (works : List MirrorWork) (s : System ρ)
    (h : OnAccelerator K s) : OnAccelerator K (c.mirrorWork works s) := by
  have hserve (calls : List BusCall) (o : Accelerator ρ) (ho : K o) :
      K (calls.foldl c.bus.recorded.serve o) := by
    induction calls generalizing o with
    | nil => exact ho
    | cons call calls ih =>
        apply ih
        cases call with
        | readRAM a => exact hK.around o _ (.read a) ho
        | writeBurst burst =>
            show K (burst.foldl _ o)
            induction burst generalizing o with
            | nil => exact ho
            | cons x burst ih' => exact ih' _ (hK.note _ _ (hK.around o _ (.write _ _) ho))
  unfold SuperCpu.mirrorWork
  induction works generalizing s with
  | nil => exact h
  | cons work works ih =>
      apply ih
      dsimp only
      split
      · exact h
      · exact hserve _ _ (hK.note _ _ (hK.buffer s.outside.rest _ h))

/-- A reset keeps the property as far as it does what is done to the register file. -/
theorem accelerator_reset (registers : ρ → ρ) (policy : SCPUOptMode × Bool) (seed : MapLines)
    (hregisters : ∀ o : Accelerator ρ, K o → K ((o.mapRest registers).applyPolicy (some policy)))
    (s : System ρ) (h : OnAccelerator K s) :
    OnAccelerator K (SuperCpu.reset (c.board.env depth) registers policy seed s) := by
  have htime : (c.board.env depth).FramesTime (OnAccelerator K) := accelerator_framesTime hK _ rfl
  have hmemory : Keeps (OnAccelerator K) (ScpuEmu.reset (c.board.env depth)) := by
    refine keeps_bind (fun _ h => h) fun _ => ?_
    refine keeps_bind (accelerator_callOutside hK fun o => ⟨_, .clearCollisions, rfl⟩) fun _ => ?_
    refine keeps_bind (frames_resyncPacing htime) fun _ => ?_
    refine keeps_bind (fun _ h => h) fun _ => ?_
    exact keeps_bind (fun _ h => h) fun _ _ h => h
  have hdone := hmemory (s.mapAccelerator fun o => { o with buffer := o.buffer.discard })
    (hK.buffer s.outside.rest _ h)
  unfold SuperCpu.reset
  dsimp only
  generalize ((ScpuEmu.reset (c.board.env depth)).run _).2 = s' at hdone
  refine frames_resyncPacing htime _ ?_
  exact hregisters s'.outside.rest hdone

/-- Every step keeps a property that what is done to the rest and to the policy keeps. -/
theorem accelerator_step (hrest : ∀ (o : Accelerator ρ) f, K o → K (o.mapRest f))
    (hpolicy : ∀ (o : Accelerator ρ) policy, K o → K (o.applyPolicy policy)) (s : System ρ)
    (op : SystemOp ρ) (h : OnAccelerator K s) : OnAccelerator K (c.step depth s op) := by
  have htime : (c.board.env depth).FramesTime (OnAccelerator K) := accelerator_framesTime hK _ rfl
  cases op with
  | access access => exact accelerator_access hK depth access s h
  | sampleIRQNMIFast => exact accelerator_sampleIRQNMIFast hK depth s h
  | tick n => exact accelerator_tickFast hK depth n _ (hK.note s.outside.rest .time h)
  | setPacing host hz => exact frames_setPacing htime host hz s h
  | setPolicy mode exclude => exact hpolicy s.outside.rest (some (mode, exclude)) h
  | setTiming f => exact h
  | setCapture f => exact h
  | setRAMUnderIOAccessible on => exact hK.buffer s.outside.rest _ h
  | setLines lines => exact h
  | mirrorWork works => exact accelerator_mirrorWork hK works s h
  | reset registers policy seed =>
      exact accelerator_reset hK depth registers policy seed
        (fun o ho => hpolicy _ _ (hrest o registers ho)) s h
  | rest f => exact hrest s.outside.rest f h

end Steps

end ScpuEmu
