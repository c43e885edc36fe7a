import ScpuEmu.SuperCpu.Presentation
import ScpuEmu.Reu.Reentrancy

/-!
# Silence while the mirror is disabled

Once delivery is disabled and the mirror halted, a store of RAM reaches the physical bus
only through the active row of sprite pointers, which is delivered at once and asks for
neither. As long as no store changes a byte of that row, all that the stores of a program
and of its transfers write on the bus goes to the registers of the chips.
-/

namespace ScpuEmu

open Library

/-! ### What the record tells -/

namespace BusEvent

/-- What a write on the bus goes back to: the latest entry that is no write. -/
def cause : List BusEvent → Option BusEvent
  | [] => none
  | .write _ _ :: older => cause older
  | event :: _ => some event

/-- A write on the bus is the store to a chip that the register file has just declined, or
the one that keeps the bus warm as time passes; the SCPU128 also writes the registers that
its host decodes. -/
def Licensed (scpu128Mode : Bool) (a : Addr) (v : Byte) (cause : Option BusEvent) : Prop :=
  cause = some (.register a v) ∧ 0xD000 ≤ a ∧ a ≤ 0xDFFF ∨ cause = some .time ∧ a = 0x02FE ∨
    scpu128Mode = true ∧ isHostDecoded a = true

instance (scpu128Mode : Bool) (a : Addr) (v : Byte) (cause : Option BusEvent) :
    Decidable (Licensed scpu128Mode a v cause) := inferInstanceAs (Decidable (_ ∨ _ ∨ _))

/-- No store of RAM is behind a write on the bus. -/
def Silent (scpu128Mode : Bool) : List BusEvent → Prop
  | [] => True
  | .write a v :: older => Licensed scpu128Mode a v (cause older) ∧ Silent scpu128Mode older
  | _ :: older => Silent scpu128Mode older

def decideSilent (scpu128Mode : Bool) :
    (events : List BusEvent) → Decidable (Silent scpu128Mode events)
  | [] => isTrue trivial
  | .write _ _ :: older => by
      have := decideSilent scpu128Mode older
      exact inferInstanceAs (Decidable (_ ∧ _))
  | .storeRAM _ _ _ :: older => decideSilent scpu128Mode older
  | .register _ _ :: older => decideSilent scpu128Mode older
  | .mirrorWork :: older => decideSilent scpu128Mode older
  | .time :: older => decideSilent scpu128Mode older

instance (scpu128Mode : Bool) (events : List BusEvent) : Decidable (Silent scpu128Mode events) :=
  decideSilent scpu128Mode events

def commits : BusEvent → Bool
  | .storeRAM _ _ commits => commits
  | _ => false

/-- No store of RAM changes a byte of the active row of sprite pointers. -/
def NoCommit (events : List BusEvent) : Prop := ∀ event ∈ events, event.commits = false

instance (events : List BusEvent) : Decidable (NoCommit events) :=
  inferInstanceAs (Decidable (∀ event ∈ events, event.commits = false))

theorem NoCommit.of_cons {event : BusEvent} {events : List BusEvent}
    (h : NoCommit (event :: events)) : NoCommit events :=
  fun event' hmem => h event' (List.mem_cons_of_mem event hmem)

end BusEvent

open BusEvent

/-! ### The invariant -/

section Invariant

variable {ρ : Type}

/-- No byte waits for delivery, and none will. -/
structure Accelerator.Halted (o : Accelerator ρ) : Prop where
  delivery : o.buffer.deliveryEnabled = false
  drained : o.buffer.queue.count = 0
  halted : o.mirrorHalted = true

/-- The mirror is halted, and the record has a property. -/
structure Recorded (mode : Bool) (Q : List BusEvent → Prop) (m : CC64Memory)
    (o : Accelerator ρ) : Prop where
  halted : o.Halted
  mode : m.scpu128Mode = mode
  events : Q o.events

/-- Silence, unless a pointer was committed. -/
def Quiet (mode : Bool) (events : List BusEvent) : Prop := NoCommit events → Silent mode events

/-- Silence, with an entry that the next write goes back to. -/
def QuietAfter (mode : Bool) (event : BusEvent) (events : List BusEvent) : Prop :=
  Quiet mode events ∧ cause events = some event

/-- A pointer was committed. -/
def Spoilt (events : List BusEvent) : Prop := ¬ NoCommit events

/-- A property of the record, as one of the machine. -/
def OnRecord (mode : Bool) (Q : List BusEvent → Prop) (s : System ρ) : Prop :=
  Recorded mode Q s.memory s.outside.rest

/-- A property of the record, as one of the host side of a transfer. -/
def OnHostRecord (mode : Bool) (Q : List BusEvent → Prop) (h : HostSide (Accelerator ρ)) : Prop :=
  Recorded mode Q h.memory h.rest

variable {mode : Bool} {Q Q' : List BusEvent → Prop} {m : CC64Memory} {o : Accelerator ρ}

theorem Recorded.mono (h : Recorded mode Q m o) (hQ : ∀ events, Q events → Q' events) :
    Recorded mode Q' m o := ⟨h.halted, h.mode, hQ _ h.events⟩

theorem Recorded.onward (h : Recorded mode Q m o) {m' : CC64Memory} (hm : m.Onward m') :
    Recorded mode Q m' o := ⟨h.halted, hm.scpu128Mode.trans h.mode, h.events⟩

theorem Recorded.rest (h : Recorded mode Q m o) (r : ρ) : Recorded mode Q m { o with rest := r } :=
  ⟨⟨h.halted.delivery, h.halted.drained, h.halted.halted⟩, h.mode, h.events⟩

theorem Recorded.note (h : Recorded mode Q m o) {event : BusEvent}
    (hevent : Q o.events → Q' (event :: o.events)) : Recorded mode Q' m (o.note event) :=
  ⟨⟨h.halted.delivery, h.halted.drained, h.halted.halted⟩, h.mode, hevent h.events⟩

theorem Quiet.of_spoilt {events : List BusEvent} (h : Spoilt events) : Quiet mode events :=
  fun hclean => absurd hclean h

theorem Spoilt.cons {events : List BusEvent} (h : Spoilt events) (event : BusEvent) :
    Spoilt (event :: events) := fun hclean => h hclean.of_cons

theorem Quiet.storeRAM {events : List BusEvent} (h : Quiet mode events) (a : Addr) (v : Byte)
    (commits : Bool) : Quiet mode (.storeRAM a v commits :: events) :=
      fun hclean => h hclean.of_cons

theorem spoilt_storeRAM (a : Addr) (v : Byte) (events : List BusEvent) :
    Spoilt (.storeRAM a v true :: events) := fun hclean =>
  Bool.noConfusion (hclean _ List.mem_cons_self)

theorem Quiet.register {events : List BusEvent} (h : Quiet mode events) (a : Addr) (v : Byte) :
    QuietAfter mode (.register a v) (.register a v :: events) :=
  ⟨fun hclean => h hclean.of_cons, rfl⟩

theorem Quiet.time {events : List BusEvent} (h : Quiet mode events) :
    QuietAfter mode .time (.time :: events) := ⟨fun hclean => h hclean.of_cons, rfl⟩

theorem Quiet.write {events : List BusEvent} (h : Quiet mode events) {a : Addr} {v : Byte}
    (hlicensed : Licensed mode a v (cause events)) : Quiet mode (.write a v :: events) :=
  fun hclean => ⟨hlicensed, h hclean.of_cons⟩

theorem QuietAfter.write {events : List BusEvent} {event : BusEvent}
    (h : QuietAfter mode event events) {a : Addr} {v : Byte}
    (hlicensed : Licensed mode a v (some event)) :
    QuietAfter mode event (.write a v :: events) :=
  ⟨h.1.write (h.2.symm ▸ hlicensed), h.2⟩

end Invariant

/-! ### What the accesses leave alone -/

section Frames

variable {ρ : Type} {mode : Bool} {Q : List BusEvent → Prop} (c : SuperCpu ρ)
  (host : IREUHost (HostSide (Accelerator ρ)))

theorem record_framesTime (env : Surroundings (WithREU (Accelerator ρ)))
    (hbus : env.bus = some c.bus.recorded.withREU) : env.FramesTime (OnRecord mode Q) where
  memory _ _ hm h := h.onward hm
  hostCycles bus hb m o h := by
    obtain rfl := Option.some.inj (hbus.symm.trans hb)
    exact h.rest _

/-- A halted buffer stays as it is, and the store goes on record. -/
theorem Recorded.onRamWrite {s : Machine (Accelerator ρ)} {Q' : List BusEvent → Prop}
    (h : Recorded mode Q s.memory s.outside) (a : Addr) (v : Byte)
    (hevent : Q s.outside.events →
      Q' (.storeRAM a v (s.memory.commitsPointer a v) :: s.outside.events)) :
    Recorded mode Q' s.memory (ScpuEmu.onRamWrite s a v).2 := by
  have hbuffer : (s.outside.buffer.onRamWrite s.memory.view a v).1 = s.outside.buffer := by
    rw [WriteBuffer.onRamWrite, if_pos h.halted.delivery]
  unfold ScpuEmu.onRamWrite
  dsimp only
  rw [hbuffer]
  exact h.note hevent

theorem record_framesReads
    (hstore : ∀ a v commits events, Q events → Q (.storeRAM a v commits :: events)) :
    (c.board.surroundings host).FramesReads (OnRecord mode Q) where
  toFramesTime := record_framesTime c _ rfl
  read bus hbus m o a h := by
    obtain rfl := Option.some.inj hbus
    exact h.rest _
  mirror sink hsink s a v h := by
    obtain rfl := Option.some.inj hsink
    have hrecorded : Recorded mode Q s.withoutREU.memory s.withoutREU.outside := h
    exact hrecorded.onRamWrite a v (hstore a v _ _)
  spriteSprite _ _ h := h.rest _
  spriteBackground _ _ h := h.rest _

theorem record_frames
    (hstore : ∀ a v commits events, Q events → Q (.storeRAM a v commits :: events))
    (hwrite : ∀ a v events, Q events → Q (.write a v :: events)) :
    (c.board.surroundings host).Frames (OnRecord mode Q) where
  toFramesReads := record_framesReads c host hstore
  write bus hbus m o a v h := by
    obtain rfl := Option.some.inj hbus
    exact (h.rest _).note (hwrite a v _)
  writeRAM bus hbus m o a v h := by
    obtain rfl := Option.some.inj hbus
    exact (h.rest _).note (hwrite a v _)

theorem quiet_framesReads : (c.board.surroundings host).FramesReads (OnRecord mode (Quiet mode)) :=
  record_framesReads c host fun a v commits _ h => h.storeRAM a v commits

theorem spoilt_frames : (c.board.surroundings host).Frames (OnRecord mode Spoilt) :=
  record_frames c host (fun _ _ _ _ h => h.cons _) fun _ _ _ h => h.cons _

end Frames

/-! ### Stores -/

section Stores

variable {ρ : Type} {mode : Bool} (c : SuperCpu ρ) (host : IREUHost (HostSide (Accelerator ρ)))

/-- The sink hears of a store, and may open the slot of the posted write. -/
theorem run_mirrorWrite (s : System ρ) (a : Addr) (v : Byte) :
    ∃ t, ((mirrorWrite (c.board.surroundings host) a v).run s).2 =
      ⟨s.memory.mapTiming fun _ => t,
        { s.outside with rest := (onRamWrite s.withoutREU a v).2 }⟩ := by
  show ∃ t, ((onlyIf ((onRamWrite s.withoutREU a v).1 = true)
    (modifyTiming Timing.noteMirrorWrite)).run (⟨s.memory,
      { s.outside with rest := (onRamWrite s.withoutREU a v).2 }⟩ : System ρ)).2 = _
  unfold onlyIf
  split
  · exact ⟨s.memory.timing.noteMirrorWrite, rfl⟩
  · exact ⟨s.memory.timing, rfl⟩

theorem quiet_storeRAM {a : Addr} (ha : 1 < a) (v : Byte)
    (hhook : Keeps (OnRecord mode (Quiet mode)) (callFF00Hook (c.board.surroundings host))) :
    Keeps (OnRecord mode (Quiet mode)) (storeRAM (c.board.surroundings host) a v) := by
  intro s h
  rw [storeRAM, run_bind, run_getMemory, run_bind, run_modifyMemory, run_bind, run_bind,
    run_modifyMemory, noteRAMWriteSideEffects, run_bind, run_getMemory, run_bind]
  refine keeps_onlyIf hhook _ ?_
  obtain ⟨s₁, hs₁⟩ : ∃ s₁ : System ρ,
      s₁ = ⟨{ s.memory with ramWrites := s.memory.ramWrites + 1 }, s.outside⟩ := ⟨_, rfl⟩
  have h₁ : Recorded mode (Quiet mode) s₁.memory s₁.outside.rest := by
    rw [hs₁]
    exact h.onward ⟨Nat.le_succ _, rfl⟩
  have hram : s.memory.ram = s₁.memory.ram := by rw [hs₁]
  rw [← hs₁, hram]
  obtain ⟨t, hmirrored⟩ := run_mirrorWrite c host s₁ a v
  rw [hmirrored]
  have hrecord {Q : List BusEvent → Prop}
      (hevent : Q (.storeRAM a v (s₁.memory.commitsPointer a v) :: s₁.outside.rest.events)) :
      OnRecord mode Q ⟨{ s₁.memory.mapTiming fun _ => t with
          ram := Function.update (s₁.memory.mapTiming fun _ => t).ram a v },
        { s₁.outside with rest := (onRamWrite s₁.withoutREU a v).2 }⟩ := by
    have hsunk := Recorded.onRamWrite (s := s₁.withoutREU) h₁ a v fun _ => hevent
    exact hsunk.onward ⟨le_rfl, rfl⟩
  by_cases hcommits : s₁.memory.commitsPointer a v = true
  · have hframes : (c.board.surroundings host).Frames (OnRecord mode Spoilt) := spoilt_frames c host
    refine Recorded.mono (Q := Spoilt) ?_ fun _ => Quiet.of_spoilt
    refine keeps_onlyIf (frames_noteSpritePointerWrite hframes a (s₁.memory.ram a) v) _ (hrecord ?_)
    rw [hcommits]
    exact spoilt_storeRAM a v _
  · have hquiet := hrecord (h₁.events.storeRAM a v _)
    unfold onlyIf
    split
    next hrow =>
      have hsame : s₁.memory.ram a = v := by
        by_contra hne
        refine hcommits ?_
        simp only [CC64Memory.commitsPointer, Bool.and_eq_true, decide_eq_true_eq]
        exact ⟨⟨ha, hrow⟩, hne⟩
      rw [hsame]
      exact frames_noteSpritePointerWrite_same (quiet_framesReads c host) a v _ hquiet
    next => exact hquiet

/-- A write of a chip, once the register file has declined it. -/
theorem quiet_chipWrite {a : Addr} (hwindow : 0xD000 ≤ a ∧ a ≤ 0xDFFF) (v : Byte) :
    Leads (OnRecord mode (QuietAfter mode (.register a v))) (OnRecord mode (Quiet mode))
      (chipWrite (c.board.surroundings host) a v) := by
  have htime : (c.board.surroundings host).FramesTime
      (OnRecord mode (QuietAfter mode (.register a v))) := record_framesTime c _ rfl
  refine (frames_trackChipWrite htime a v).leads_bind fun _ => ?_
  refine (frames_modifyMemory (g := fun m => { m with ioWrites := m.ioWrites + 1 }) htime
    fun _ => ⟨le_rfl, rfl⟩).leads_bind fun _ => ?_
  refine (keeps_get : Keeps _ (get : StateM (System ρ) (System ρ))).leads_bind fun s => ?_
  refine (keeps_onlyIf (frames_modifyMemory htime (onward_trackVICWrite _ _ v))).leads_bind
    fun _ => ?_
  refine (keeps_get : Keeps _ (get : StateM (System ρ) (System ρ))).leads_bind fun s' => ?_
  refine (frames_modifyTiming htime _).leads_bind fun _ => ?_
  intro s h
  exact (h.rest _).note fun hafter => hafter.1.write (hafter.2.symm ▸ Or.inl ⟨rfl, hwindow⟩)

theorem Recorded.applyPolicy {Q : List BusEvent → Prop} {m : CC64Memory} {o : Accelerator ρ}
    (h : Recorded mode Q m o) (policy : Option (SCPUOptMode × Bool)) :
    Recorded mode Q m (o.applyPolicy policy) := by
  cases policy with
  | none => exact h
  | some policy => exact ⟨⟨h.halted.delivery, h.halted.drained, h.halted.halted⟩, h.mode, h.events⟩

theorem quiet_registerWrite {s : System ρ} (h : OnRecord mode (Quiet mode) s) (a : Addr)
    (v : Byte) : OnRecord mode (QuietAfter mode (.register a v))
    (c.board.registerWrite s a v).2 := by
  have htime : c.board.bare.FramesTime (OnRecord mode (QuietAfter mode (.register a v))) :=
    record_framesTime c _ rfl
  refine frames_selectSpeeds htime _ _ ?_
  exact (((Recorded.applyPolicy h _).rest _).note fun hquiet => hquiet.register a v).onward
    ⟨le_rfl, rfl⟩

variable {host}

/-- The devices answer a store, or the register file declined it last. -/
theorem quiet_chain (hhost : REUMachine.HostKeeps host (OnHostRecord mode (Quiet mode)))
    {s : System ρ} (h : OnRecord mode (Quiet mode) s) (a : Addr) (v : Byte) :
    OnRecord mode (Quiet mode) ((c.board.chain host).ioWrite s a v).2 ∧
      (((c.board.chain host).ioWrite s a v).1 = false →
        OnRecord mode (QuietAfter mode (.register a v))
          ((c.board.chain host).ioWrite s a v).2) := by
  have hregisters := quiet_registerWrite c h a v
  have hquiet : OnRecord mode (Quiet mode) (c.board.registerWrite s a v).2 :=
    hregisters.mono fun _ hafter => hafter.1
  rw [Board.chain_ioWrite]
  split
  · exact ⟨hquiet, nofun⟩
  · unfold reuWrite
    split
    next m hunit =>
      have hmoved := REUMachine.host_write hhost (c.board.registerWrite s a v).2.toREU a v hquiet
        m hunit
      exact ⟨hmoved, nofun⟩
    next => exact ⟨hquiet, fun _ => hregisters⟩

theorem quiet_ioWrite (hhost : REUMachine.HostKeeps host (OnHostRecord mode (Quiet mode)))
    {a : Addr} (hwindow : 0xD000 ≤ a ∧ a ≤ 0xDFFF) (v : Byte) :
    Keeps (OnRecord mode (Quiet mode)) (ioWrite (c.board.surroundings host) a v) := by
  intro s h
  have htime : (c.board.surroundings host).FramesTime (OnRecord mode (Quiet mode)) :=
    (quiet_framesReads c host).toFramesTime
  obtain ⟨hquiet, hdeclined⟩ := quiet_chain c hhost h a v
  show OnRecord mode (Quiet mode) ((if ((c.board.chain host).ioWrite s a v).1 = true then _
    else chipWrite (c.board.surroundings host) a v : MemoryM _ PUnit).run
      ((c.board.chain host).ioWrite s a v).2).2
  split
  next =>
    refine keeps_get_bind' (fun s' => ?_) _ hquiet
    refine keeps_bind (frames_modifyTiming htime _) fun _ => ?_
    exact keeps_onlyIf (frames_modifyTiming htime _)
  next hfalse => exact quiet_chipWrite c host hwindow v _ (hdeclined (Bool.not_eq_true _ ▸ hfalse))

end Stores

/-! ### Accesses, at every depth of nesting -/

section Accesses

variable {ρ : Type} {mode : Bool} (c : SuperCpu ρ) {host : IREUHost (HostSide (Accelerator ρ))}

theorem window_of_io {a : Addr} {bankMode : Byte} (h : c64MapRead a bankMode = .io) :
    0xD000 ≤ a ∧ a ≤ 0xDFFF := by
  have hpage := page_of_io h
  rw [BitVec.toNat_ushiftRight, Nat.shiftRight_eq_div_pow] at hpage
  constructor
  · show (0xD000#16).toNat ≤ a.toNat
    simp only [BitVec.toNat_ofNat]
    omega
  · show a.toNat ≤ (0xDFFF#16).toNat
    simp only [BitVec.toNat_ofNat]
    omega

theorem quiet_surroundings (hhost : REUMachine.HostKeeps host (OnHostRecord mode (Quiet mode))) :
    (c.board.surroundings host).Keeps (OnRecord mode (Quiet mode)) where
  ioRead io hio s a h := by
    obtain rfl : c.board.chain host = io := Option.some.inj hio
    have hregisters : OnRecord mode (Quiet mode) (c.board.registerRead s a).2 :=
      (h.rest _).onward ⟨le_rfl, rfl⟩
    rw [Board.chain_ioRead]
    split
    · exact hregisters
    · unfold reuRead
      split <;> exact hregisters
  ioWrite io hio s a v h := by
    obtain rfl : c.board.chain host = io := Option.some.inj hio
    exact (quiet_chain c hhost h a v).1
  ff00Hook hook hhook s h := by
    obtain rfl := Option.some.inj hhook
    exact REUMachine.host_noteFF00Write hhost s.toREU h

theorem quiet_read8
    (hhost : REUMachine.HostKeeps host (OnHostRecord mode (Quiet mode))) (a : Addr) :
    Keeps (OnRecord mode (Quiet mode)) (read8 (c.board.surroundings host) a) :=
  frames_read8 (quiet_framesReads c host) (quiet_surroundings c hhost).ioRead a

theorem quiet_write8 (hhost : REUMachine.HostKeeps host (OnHostRecord mode (Quiet mode)))
    (a : Addr) (v : Byte) :
    Keeps (OnRecord mode (Quiet mode)) (write8 (c.board.surroundings host) a v) := by
  intro s h
  have hkeeps := quiet_surroundings c hhost
  refine frames_write8_of (quiet_framesReads c host) h (fun hdecoded s' h' => ?_)
    (fun hreaches => ?_) fun hstores => ?_
  · have hmode : mode = true := h.mode.symm.trans hdecoded.1
    exact (h'.rest _).note fun hquiet => hquiet.write (Or.inr (Or.inr ⟨hmode, hdecoded.2⟩))
  · have hio : c64MapRead a s.memory.bankMode = .io := of_decide_eq_true hreaches.2.2.2
    exact quiet_ioWrite c hhost (window_of_io hio) v s h
  · have ha : 1 < a := BitVec.not_le.mp hstores.1
    exact quiet_storeRAM c host ha v (keeps_callFF00Hook hkeeps) s h

theorem quiet_hostAt (depth : ℕ) :
    REUMachine.HostKeeps (c.board.hostAt depth) (OnHostRecord mode (Quiet mode)) := by
  induction depth with
  | zero => exact ⟨fun _ _ h => h, fun _ _ _ h => h⟩
  | succ depth ih =>
      exact ⟨fun m a h => quiet_read8 c ih a m.toMachine h,
        fun m a v h => quiet_write8 c ih a v m.toMachine h⟩

theorem quiet_access (depth : ℕ) (access : GuestAccess) :
    Keeps (OnRecord mode (Quiet mode)) (access.program (c.board.env depth)) := by
  have hhost : REUMachine.HostKeeps (c.board.hostAt depth) (OnHostRecord mode (Quiet mode)) :=
    quiet_hostAt c depth
  cases access with
  | read8 a => exact quiet_read8 c hhost a
  | write8 a v => exact quiet_write8 c hhost a v
  | readFast a =>
      refine keeps_get_bind' fun s => ?_
      refine keeps_ite (keeps_pure _) ?_
      exact keeps_ite (keeps_pure _) (quiet_read8 c hhost a)
  | writeFast a v =>
      intro s h
      have hshadow : Keeps (OnRecord mode (Quiet mode))
          (writeShadow a v : MemoryM (WithREU (Accelerator ρ)) PUnit) :=
        frames_modifyMemory (quiet_framesReads c (c.board.hostAt depth)).toFramesTime
          fun _ => ⟨le_rfl, rfl⟩
      show OnRecord mode (Quiet mode) ((if _ then _ else if 1 < a ∧ _ then _ else _ :
        MemoryM (WithREU (Accelerator ρ)) PUnit).run s).2
      split
      · exact hshadow s h
      split
      next ha =>
        exact quiet_storeRAM c _ ha.1 v (keeps_callFF00Hook (quiet_surroundings c hhost)) s h
      next => exact quiet_write8 c hhost a v s h

end Accesses

/-! ### Steps and runs -/

section Runs

variable {ρ : Type} {mode : Bool} {Q : List BusEvent → Prop} (c : SuperCpu ρ) (depth : ℕ)

/-- The write that keeps the bus warm belongs to the time that passes. -/
theorem quiet_tick (n : ℕ) :
    Keeps (OnRecord mode (QuietAfter mode .time)) (tickFast (c.board.env depth) n) := by
  have htime : (c.board.env depth).FramesTime (OnRecord mode (QuietAfter mode .time)) :=
    record_framesTime c _ rfl
  have hclock {α : Type} {op : WithREU (Accelerator ρ) → α × WithREU (Accelerator ρ)}
      (hop : ∀ o, ∃ r, (op o).2 = { o with rest := { o.rest with rest := r } }) :
      Keeps (OnRecord mode (QuietAfter mode .time)) (callOutside op) := by
    intro s h
    obtain ⟨r, hr⟩ := hop s.outside
    show OnRecord _ _ ⟨s.memory, (op s.outside).2⟩
    rw [hr]
    exact Recorded.rest h r
  refine keeps_getMemory_bind fun m => ?_
  refine keeps_bind (frames_modifyTiming htime _) fun _ => ?_
  refine keeps_getMemory_bind fun m' => ?_
  refine keeps_ite (keeps_pure _) ?_
  refine keeps_bind (frames_modifyTiming htime _) fun _ => keeps_onlyIf ?_
  refine keeps_bind (hclock fun _ => ⟨_, rfl⟩) fun now => ?_
  refine keeps_bind ?_ fun now' => ?_
  · refine keeps_getMemory_bind fun m'' => ?_
    refine keeps_ite ?_ (keeps_pure _)
    refine keeps_bind (fun s h => ?_) fun _ => ?_
    · exact (Recorded.rest h _).note fun hafter => hafter.write (Or.inr (Or.inl ⟨rfl, rfl⟩))
    refine keeps_bind (hclock fun _ => ⟨_, rfl⟩) fun _ => ?_
    refine keeps_get_bind' fun s => ?_
    exact keeps_bind (frames_modifyTiming htime _) fun _ => keeps_pure _
  · refine keeps_getMemory_bind fun m'' => ?_
    refine keeps_bind (keeps_ite (keeps_pure _) (hclock fun _ => ⟨_, rfl⟩)) fun _ => ?_
    exact frames_modifyTiming htime _

theorem record_sampleIRQNMIFast :
    Keeps (OnRecord mode Q) (sampleIRQNMIFast (c.board.env depth)) := by
  have htime : (c.board.env depth).FramesTime (OnRecord mode Q) := record_framesTime c _ rfl
  refine keeps_bind ?_ fun _ => keeps_getMemory_bind fun _ => keeps_pure _
  refine keeps_bind (frames_modifyTiming htime _) fun _ => ?_
  refine keeps_getMemory_bind fun m => keeps_onlyIf ?_
  refine keeps_bind (fun s h => ?_) fun _ => frames_modifyTiming htime _
  exact Recorded.rest h _

theorem Accelerator.Halted.discard {o : Accelerator ρ} (h : o.Halted) :
    Accelerator.Halted { o with buffer := o.buffer.discard } := ⟨h.delivery, rfl, h.halted⟩

/-- Changes of the memory that leave the mode of the machine alone. -/
theorem record_memory {g : CC64Memory → CC64Memory}
    (hg : ∀ m, (g m).scpu128Mode = m.scpu128Mode) :
    Keeps (OnRecord mode Q) (modifyMemory g : MemoryM (WithREU (Accelerator ρ)) PUnit) :=
  fun s h => ⟨h.halted, (hg s.memory).trans h.mode, h.events⟩

theorem record_reset (registers : ρ → ρ) (policy : SCPUOptMode × Bool) (seed : MapLines)
    (s : System ρ) (h : OnRecord mode Q s) :
    OnRecord mode Q (SuperCpu.reset (c.board.env depth) registers policy seed s) := by
  have htime : (c.board.env depth).FramesTime (OnRecord mode Q) := record_framesTime c _ rfl
  have hreset : Keeps (OnRecord mode Q) (ScpuEmu.reset (c.board.env depth)) := by
    refine keeps_bind (record_memory fun _ => rfl) fun _ => ?_
    refine keeps_bind (fun s h => Recorded.rest h _) fun _ => ?_
    refine keeps_bind (frames_resyncPacing htime) fun _ => ?_
    refine keeps_bind (record_memory fun _ => rfl) fun _ => ?_
    exact keeps_bind (fun s h => ⟨h.halted, h.mode, h.events⟩) fun _ => record_memory fun _ => rfl
  have hdiscarded : OnRecord mode Q
      (s.mapAccelerator fun o => { o with buffer := o.buffer.discard }) :=
    ⟨h.halted.discard, h.mode, h.events⟩
  have hdone := hreset _ hdiscarded
  unfold SuperCpu.reset
  dsimp only
  generalize ((ScpuEmu.reset (c.board.env depth)).run _).2 = s' at hdone
  refine frames_resyncPacing htime _ ?_
  have hseeded : Recorded mode Q (s'.memory.setMapLines seed) s'.outside.rest :=
    hdone.onward ⟨le_rfl, rfl⟩
  exact (hseeded.rest (registers s'.outside.rest.rest)).applyPolicy (some policy)

/-- A halted mirror does no work. -/
theorem mirrorWork_of_halted (works : List MirrorWork) {s : System ρ}
    (h : s.accelerator.mirrorHalted = true) : c.mirrorWork works s = s := by
  unfold SuperCpu.mirrorWork
  induction works with
  | nil => rfl
  | cons work works ih =>
      rw [List.foldl_cons, if_pos h]
      exact ih

theorem quiet_step (s : System ρ) (op : SystemOp ρ) (h : OnRecord mode (Quiet mode) s) :
    OnRecord mode (Quiet mode) (c.step depth s op) := by
  have htime : (c.board.env depth).FramesTime (OnRecord mode (Quiet mode)) :=
    record_framesTime c _ rfl
  cases op with
  | access access => exact quiet_access c depth access s h
  | sampleIRQNMIFast => exact record_sampleIRQNMIFast c depth s h
  | tick n =>
      have hmarked : OnRecord mode (QuietAfter mode .time)
          (s.mapAccelerator fun o => o.note .time) := Recorded.note h fun hquiet => hquiet.time
      have hticked := quiet_tick c depth n _ hmarked
      show OnRecord mode (Quiet mode)
        ((tickFast (c.board.env depth) n).run (s.mapAccelerator fun o => o.note .time)).2
      generalize ((tickFast (c.board.env depth) n).run _).2 = s' at hticked
      exact hticked.mono fun _ hafter => hafter.1
  | setPacing host hz => exact frames_setPacing htime host hz s h
  | setPolicy policyMode exclude => exact Recorded.applyPolicy h (some (policyMode, exclude))
  | setTiming f => exact h.onward ⟨le_rfl, rfl⟩
  | setCapture f => exact h.onward ⟨le_rfl, rfl⟩
  | setRAMUnderIOAccessible on =>
      have hbuffer (b : WriteBuffer) :
          (b.setRAMUnderIOAccessible on).deliveryEnabled = b.deliveryEnabled ∧
            (b.setRAMUnderIOAccessible on).queue.count = b.queue.count := by
        unfold WriteBuffer.setRAMUnderIOAccessible
        split <;> exact ⟨rfl, rfl⟩
      obtain ⟨hdelivery, hcount⟩ := hbuffer s.accelerator.buffer
      exact ⟨⟨hdelivery.trans h.halted.delivery, hcount.trans h.halted.drained, h.halted.halted⟩,
        h.mode, h.events⟩
  | setLines lines => exact h.onward ⟨le_rfl, rfl⟩
  | mirrorWork works =>
      show OnRecord mode (Quiet mode) (c.mirrorWork works s)
      rw [mirrorWork_of_halted c works h.halted.halted]
      exact h
  | reset registers policy seed => exact record_reset c depth registers policy seed s h
  | rest f => exact Recorded.rest h _

/-- The record starts where the mirror is disabled. -/
def System.startRecord (s : System ρ) : System ρ :=
  s.mapAccelerator fun o => { o with events := [] }

/-- After `disablePhysicalMirror`, whatever the program, the frames and the settings do, no
byte waits for delivery, and as long as no store of RAM changes a byte of the active row of
sprite pointers, no store of RAM is behind a write on the physical bus. -/
theorem silent_while_disabled (c : SuperCpu ρ) (depth : ℕ) (s : System ρ)
    (ops : List (SystemOp ρ)) :
    let final := Library.run (c.step depth) (SuperCpu.disablePhysicalMirror s.startRecord) ops
    final.accelerator.Halted ∧
      (NoCommit final.accelerator.events →
        Silent s.memory.scpu128Mode final.accelerator.events) := by
  intro final
  have hstart : OnRecord s.memory.scpu128Mode (Quiet s.memory.scpu128Mode)
      (SuperCpu.disablePhysicalMirror s.startRecord) :=
    ⟨⟨rfl, rfl, rfl⟩, rfl, fun _ => trivial⟩
  have hfinal := run_invariant (P := OnRecord s.memory.scpu128Mode (Quiet s.memory.scpu128Mode))
    (c.step depth) (quiet_step c depth) _ ops hstart
  exact ⟨hfinal.halted, hfinal.events⟩

/-- A physical machine on whose bus nothing happens. -/
def quietBus : C64Bus Unit where
  read o _ := (0xFF, o)
  write o _ _ := o
  writeRAM o _ _ := o
  verifyC64CIA2DDRA o _ := (true, o)
  sampleInterrupts o := ((false, false), o)
  hostCycles o := (0, o)
  hostCyclesPast o anchor owed := (anchor + owed, o)
  hostCyclesPerSec _ := 0
  gameAsserted _ := false
  exromAsserted _ := false
  cyclesPerLine _ := 63

def quietSuperCpu : SuperCpu Unit where
  bus := quietBus
  registers := idleRegisters
  policy _ _ _ _ := none
  hdmiActive _ := true
  takeSpriteSpriteCollision r := (0, r)
  takeSpriteBackgroundCollision r := (0, r)
  clearCollisions r := r

def quietSystem : System Unit where
  memory := CC64Memory.construct 0 0 0 (fun _ => 0) fun _ => ⟨0, 0, 0, 0⟩
  outside :=
    { rest := ⟨(), (WriteBuffer.construct (fun _ => 0) fun _ => 0).attach true, false, []⟩
      unit := CREU.construct
      touched := []
      started := 0
      exhausted := false }

/-- After a reset, a store to the screen and one to a register. -/
theorem silent_while_disabled_screen :
    Silent false (Library.run (quietSuperCpu.step 0)
      (SuperCpu.disablePhysicalMirror quietSystem.startRecord)
      [.reset id (.default, true) ⟨false, 0xE000, none⟩, .access (.writeFast 0x0400 1),
        .access (.writeFast 0xD020 2)]).accelerator.events :=
  (silent_while_disabled quietSuperCpu 0 quietSystem _).2 (by decide +kernel)

/-- The first pointer of the default screen goes to the bus at once. -/
theorem pointer_breaks_silence :
    ¬ Silent false (Library.run (quietSuperCpu.step 0)
      (SuperCpu.disablePhysicalMirror quietSystem.startRecord)
      [.reset id (.default, true) ⟨false, 0xE000, none⟩, .access (.writeFast 0x07F8 1)]
      ).accelerator.events := by
  decide +kernel

end Runs

end ScpuEmu
