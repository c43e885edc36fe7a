import ScpuEmu.SuperCpu.Silence
import ScpuEmu.Reu.Reentrancy

/-!
# The trigger on $FF00

A command that waits for a write of $FF00 leaves two traces in the unit: the flag that is
looked at on that write, and the execute bit of the command register. They agree until the
command register is written while they are set, with the execute bit clear, which resets the
bit and not the flag, or until a transfer writes a command into its own register.
-/

namespace ScpuEmu

open Library

/-! ### What the record and the unit show -/

section Frames

variable {ρ : Type} {Q : List BusEvent → CREU → ℕ → Prop}

/-- A property of the record and of the unit. -/
def OnRecordAndUnit (Q : List BusEvent → CREU → ℕ → Prop) (s : System ρ) : Prop :=
  Q s.outside.rest.events s.outside.unit s.outside.started

/-- New entries of the record leave the property alone. -/
def GrowsWith (Q : List BusEvent → CREU → ℕ → Prop) : Prop :=
  ∀ event events u started, Q events u started → Q (event :: events) u started

variable (c : SuperCpu ρ)

theorem recordAndUnit_framesTime (env : Surroundings (WithREU (Accelerator ρ)))
    (hbus : env.bus = some c.bus.recorded.withREU) : env.FramesTime (OnRecordAndUnit Q) where
  memory _ _ _ h := h
  hostCycles bus hb m o h := by
    obtain rfl := Option.some.inj (hbus.symm.trans hb)
    exact h

theorem recordAndUnit_frames (hQ : GrowsWith Q) (host : IREUHost (HostSide (Accelerator ρ))) :
    (c.board.surroundings host).Frames (OnRecordAndUnit Q) where
  toFramesTime := recordAndUnit_framesTime c _ rfl
  read bus hbus m o a h := by
    obtain rfl := Option.some.inj hbus
    exact h
  mirror sink hsink s a v h := by
    obtain rfl := Option.some.inj hsink
    exact hQ _ _ _ _ h
  spriteSprite _ _ h := h
  spriteBackground _ _ h := h
  write bus hbus m o a v h := by
    obtain rfl := Option.some.inj hbus
    exact hQ _ _ _ _ h
  writeRAM bus hbus m o a v h := by
    obtain rfl := Option.some.inj hbus
    exact hQ _ _ _ _ h

/-- The register file puts a store on record, and goes on to select speeds. -/
theorem recordAndUnit_registerWrite {s : System ρ} (a : Addr) (v : Byte)
    (h : Q (.register a v :: s.outside.rest.events) s.outside.unit s.outside.started) :
    OnRecordAndUnit Q (c.board.registerWrite s a v).2 := by
  have htime : c.board.bare.FramesTime (OnRecordAndUnit Q) := recordAndUnit_framesTime c _ rfl
  refine frames_selectSpeeds htime _ _ ?_
  have hpolicy (o : Accelerator ρ) (policy : Option (SCPUOptMode × Bool)) :
      (o.applyPolicy policy).events = o.events := by
    cases policy <;> rfl
  show Q (.register a v :: (Accelerator.applyPolicy s.outside.rest _).events) _ _
  rw [hpolicy]
  exact h

/-- What the devices keep, provided that the unit keeps it at its own addresses. -/
theorem recordAndUnit_keeps (hQ : GrowsWith Q) {host : IREUHost (HostSide (Accelerator ρ))}
    (hread : ∀ s : System ρ, ∀ a, OnRecordAndUnit Q s → OnRecordAndUnit Q (reuRead s a).2)
    (hwrite : ∀ s : System ρ, ∀ a v, OnRecordAndUnit Q s → .register a v ∈ s.outside.rest.events →
      OnRecordAndUnit Q (reuWrite host s a v).2)
    (hhook : ∀ s : System ρ, OnRecordAndUnit Q s →
      OnRecordAndUnit Q (s.toREU.noteFF00Write host).toMachine) :
    (c.board.surroundings host).Keeps (OnRecordAndUnit Q) where
  ioRead io hio s a h := by
    obtain rfl : c.board.chain host = io := Option.some.inj hio
    rw [Board.chain_ioRead]
    split
    · exact h
    · exact hread _ a h
  ioWrite io hio s a v h := by
    obtain rfl : c.board.chain host = io := Option.some.inj hio
    have hregisters := recordAndUnit_registerWrite c a v (hQ (.register a v) _ _ _ h)
    have hnoted : OnRecordAndUnit (fun events _ _ => .register a v ∈ events)
        (c.board.registerWrite s a v).2 :=
      recordAndUnit_registerWrite c a v List.mem_cons_self
    rw [Board.chain_ioWrite]
    split
    · exact hregisters
    · exact hwrite _ a v hregisters hnoted
  ff00Hook hook hh s h := by
    obtain rfl := Option.some.inj hh
    exact hhook s h

end Frames

/-! ### The record only grows -/

section Record

variable {ρ : Type} (c : SuperCpu ρ)

/-- A record that goes back to an earlier one. -/
def Since (earlier : List BusEvent) (h : HostSide (Accelerator ρ)) : Prop :=
  earlier <:+ h.rest.events

theorem grows_suffix (earlier : List BusEvent) :
    GrowsWith fun events _ _ => earlier <:+ events :=
  fun event _ _ _ h => h.trans (List.suffix_cons event _)

theorem since_surroundings (earlier : List BusEvent) {host : IREUHost (HostSide (Accelerator ρ))}
    (hhost : REUMachine.HostKeeps host (Since earlier)) :
    (c.board.surroundings host).Keeps
      (OnRecordAndUnit fun events _ _ => earlier <:+ events) := by
  refine recordAndUnit_keeps c (grows_suffix earlier) (fun s a h => ?_) (fun s a v h _ => ?_)
    fun s h => REUMachine.host_noteFF00Write hhost s.toREU h
  · unfold reuRead
    split <;> exact h
  · unfold reuWrite
    split
    next m hm => exact REUMachine.host_write hhost s.toREU a v h m hm
    next => exact h

theorem since_hostAt (earlier : List BusEvent) (depth : ℕ) :
    REUMachine.HostKeeps (c.board.hostAt depth) (Since earlier) := by
  induction depth with
  | zero => exact ⟨fun _ _ h => h, fun _ _ _ h => h⟩
  | succ depth ih =>
      have hframes := recordAndUnit_frames c (grows_suffix earlier) (c.board.hostAt depth)
      have hkeeps := since_surroundings c earlier ih
      exact ⟨fun m a h => frames_read8 hframes.toFramesReads hkeeps.ioRead a m.toMachine h,
        fun m a v h => frames_write8 hframes hkeeps a v m.toMachine h⟩

end Record

/-! ### The unit during a transfer -/

/-- No transfer wrote a command to be executed into the register of the unit. -/
def Undisturbed (events : List BusEvent) : Prop :=
  ∀ v, .register 0xDF01 v ∈ events → CREU.executes v = false

instance (events : List BusEvent) : Decidable (Undisturbed events) :=
  inferInstanceAs (Decidable (∀ _ : Byte, _ → _))

theorem Undisturbed.of_suffix {earlier events : List BusEvent} (h : Undisturbed events)
    (hsuffix : earlier <:+ events) : Undisturbed earlier :=
  fun v hv => h v (hsuffix.subset hv)

/-- While nothing disturbs it, the unit of a given size waits for nothing, and no transfer
starts. -/
def Idle (size : BitVec 32) (started : ℕ) (events : List BusEvent) (u : CREU) (n : ℕ) : Prop :=
  Undisturbed events → u.pendingFF00 = false ∧ u.size = size ∧ n = started

theorem grows_idle (size : BitVec 32) (started : ℕ) : GrowsWith (Idle size started) :=
  fun event _ _ _ h hevents => h (hevents.of_suffix (List.suffix_cons event _))

namespace REUMachine

section Writes

variable {ω : Type} (host : IREUHost ω) (m : REUMachine ω) {a : Addr} {v : Byte}

/-- What a write of a register does, by the command it holds, if it holds one. -/
theorem write_cases : ∀ m' ∈ m.write host a v,
    a ≠ 0xDF01 ∧ m' = m.mapUnit (fun u => u.writeRegister a v) ∨
    a = 0xDF01 ∧ CREU.executes v = false ∧ m' = m.mapUnit (fun u => { u with command := v }) ∨
    a = 0xDF01 ∧ CREU.executes v = true ∧
      (m' = executeTransfer host (m.mapUnit fun u => { u with command := v }) ∨
        m' = m.mapUnit fun u => { u with command := v, pendingFF00 := true }) := by
  intro m' hm'
  unfold write at hm'
  dsimp only at hm'
  split at hm'
  · cases hm'
  split at hm'
  next ha =>
    split at hm'
    next hexecutes =>
      refine .inr (.inr ⟨ha, hexecutes, ?_⟩)
      split at hm' <;> cases hm'
      · exact .inl rfl
      · exact .inr rfl
    next hexecutes =>
      cases hm'
      exact .inr (.inl ⟨ha, Bool.eq_false_iff.mpr hexecutes, rfl⟩)
  next ha =>
    cases hm'
    exact .inl ⟨ha, rfl⟩

end Writes

end REUMachine

theorem CREU.writeRegister_same (u : CREU) (a : Addr) (v : Byte) :
    (u.writeRegister a v).command = u.command ∧
      (u.writeRegister a v).pendingFF00 = u.pendingFF00 ∧
      (u.writeRegister a v).size = u.size := by
  unfold writeRegister
  split_ifs <;> exact ⟨rfl, rfl, rfl⟩

section Transfers

variable {ρ : Type} (c : SuperCpu ρ) {size : BitVec 32} {started : ℕ}

/-- A property of the record and of the unit, on the side of the unit. -/
def UnitShows (Q : List BusEvent → CREU → ℕ → Prop) (m : REUMachine (HostSide (Accelerator ρ))) :
    Prop :=
  Q m.host.rest.events m.unit m.started

theorem idle_read {s : System ρ} (a : Addr) (h : OnRecordAndUnit (Idle size started) s) :
    OnRecordAndUnit (Idle size started) (reuRead s a).2 := by
  unfold reuRead
  split
  next v unit hread =>
    intro hevents
    show unit.pendingFF00 = false ∧ unit.size = size ∧ s.outside.started = started
    rcases CREU.unit_of_read _ a _ hread with hunit | hunit
    · rw [show unit = s.outside.unit from hunit]
      exact h hevents
    · rw [show unit = s.outside.unit.acknowledge from hunit]
      exact h hevents
  next => exact h

theorem idle_write {host : IREUHost (HostSide (Accelerator ρ))}
    (hhost : ∀ earlier, REUMachine.HostKeeps host (Since earlier)) {s : System ρ} {a : Addr}
    {v : Byte} (h : OnRecordAndUnit (Idle size started) s)
    (hnoted : .register a v ∈ s.outside.rest.events) :
    OnRecordAndUnit (Idle size started) (reuWrite host s a v).2 := by
  unfold reuWrite
  split
  next m hm =>
    intro hevents
    have hsince : s.outside.rest.events <:+ m.host.rest.events :=
      REUMachine.host_write (hhost _) s.toREU a v List.suffix_rfl m hm
    have hidle := h (hevents.of_suffix hsince)
    rcases REUMachine.write_cases host s.toREU m hm with
      ⟨-, rfl⟩ | ⟨-, -, rfl⟩ | ⟨rfl, hexecutes, -⟩
    · obtain ⟨-, hpending, hsize⟩ := s.outside.unit.writeRegister_same a v
      exact ⟨hpending.trans hidle.1, hsize.trans hidle.2.1, hidle.2.2⟩
    · exact hidle
    · -- the command that executes is on the record
      have hnot := hevents v (hsince.subset hnoted)
      rw [hexecutes] at hnot
      cases hnot
  next => exact h

theorem idle_hook {host : IREUHost (HostSide (Accelerator ρ))}
    (hhost : ∀ earlier, REUMachine.HostKeeps host (Since earlier)) {s : System ρ}
    (h : OnRecordAndUnit (Idle size started) s) :
    OnRecordAndUnit (Idle size started) (s.toREU.noteFF00Write host).toMachine := by
  intro hevents
  have hsince : s.outside.rest.events <:+ (s.toREU.noteFF00Write host).host.rest.events :=
    REUMachine.host_noteFF00Write (hhost _) s.toREU List.suffix_rfl
  have hidle := h (hevents.of_suffix hsince)
  have hwaits : ¬ s.toREU.unit.Waits := fun hwaits => by
    have hpending : s.outside.unit.pendingFF00 = true := hwaits.2
    rw [hidle.1] at hpending
    cases hpending
  rw [REUMachine.noteFF00Write_of_not_waits host hwaits]
  exact hidle

/-- Bytes that move leave the unit idle, at every depth of nesting. -/
theorem idle_hostAt (size : BitVec 32) (started depth : ℕ) :
    (∀ m a, UnitShows (Idle size started) m →
      UnitShows (Idle size started) ((c.board.hostAt depth).read m a).2) ∧
    ∀ m a v, UnitShows (Idle size started) m →
      UnitShows (Idle size started) ((c.board.hostAt depth).write m a v) := by
  cases depth with
  | zero => exact ⟨fun _ _ h => h, fun _ _ _ h => h⟩
  | succ depth =>
      have hhost (earlier : List BusEvent) := since_hostAt c earlier depth
      have hframes := recordAndUnit_frames c (grows_idle size started) (c.board.hostAt depth)
      have hkeeps : (c.board.surroundings (c.board.hostAt depth)).Keeps
          (OnRecordAndUnit (Idle size started)) :=
        recordAndUnit_keeps c (grows_idle size started) (fun _ a h => idle_read a h)
          (fun _ _ _ h hnoted => idle_write hhost h hnoted) fun _ h => idle_hook hhost h
      exact ⟨fun m a h => frames_read8 hframes.toFramesReads hkeeps.ioRead a m.toMachine h,
        fun m a v h => frames_write8 hframes hkeeps a v m.toMachine h⟩

theorem idle_transferByte (depth : ℕ) (type : Transfer) (c64 : Addr) (reu : BitVec 32)
    {m : REUMachine (HostSide (Accelerator ρ))} (h : UnitShows (Idle size started) m) :
    UnitShows (Idle size started)
      (REUMachine.transferByte (c.board.hostAt depth) type c64 reu m).2 := by
  obtain ⟨hread, hwrite⟩ := idle_hostAt c size started depth
  cases type with
  | stash => exact hread _ _ h
  | fetch => exact hwrite _ _ _ h
  | swap => exact hwrite _ _ _ (hread _ _ h)
  | verify => exact hread _ _ h

theorem idle_transferLoop (depth : ℕ) (type : Transfer) (fixC64 fixREU : Bool) (n : ℕ)
    (cursor : TransferCursor) (m : REUMachine (HostSide (Accelerator ρ)))
    (h : UnitShows (Idle size started) m) :
    UnitShows (Idle size started)
      (REUMachine.transferLoop (c.board.hostAt depth) type fixC64 fixREU n cursor m).2 := by
  induction n generalizing cursor m with
  | zero => exact h
  | succ n ih =>
      have hbyte := idle_transferByte c depth type cursor.c64 cursor.reu h
      rw [REUMachine.transferLoop]
      dsimp only
      split
      · exact hbyte
      · exact ih _ _ hbyte

theorem CREU.executes_finishTransfer (u : CREU) (fault : Bool) :
    CREU.executes (u.finishTransfer fault).command = false := by
  show ((u.command &&& ~~~0x80#8) &&& 0x80#8 != 0) = false
  rw [BitVec.and_assoc]
  simp

theorem REUMachine.settle_same (cursor : TransferCursor) (u : CREU) :
    (settle cursor u).pendingFF00 = u.pendingFF00 ∧ (settle cursor u).size = u.size := by
  unfold settle
  dsimp only
  split <;> exact ⟨rfl, rfl⟩

/-- An undisturbed transfer is the only one, and leaves the unit waiting for nothing, with the
execute bit clear. -/
theorem idle_executeTransfer (depth : ℕ) (m : REUMachine (HostSide (Accelerator ρ))) :
    let done := REUMachine.executeTransfer (c.board.hostAt depth) m
    CREU.executes done.unit.command = false ∧
      UnitShows (Idle m.unit.size (m.started + 1)) done := by
  intro done
  have hstart : UnitShows (Idle m.unit.size (m.started + 1))
      { m with started := m.started + 1, unit := { m.unit with pendingFF00 := false } } :=
    fun _ => ⟨rfl, rfl, rfl⟩
  show CREU.executes (REUMachine.executeTransfer (c.board.hostAt depth) m).unit.command = false ∧
    UnitShows _ (REUMachine.executeTransfer (c.board.hostAt depth) m)
  rw [REUMachine.executeTransfer]
  dsimp only
  split
  · exact ⟨CREU.executes_finishTransfer _ _, hstart⟩
  · refine ⟨CREU.executes_finishTransfer _ _, fun hevents => ?_⟩
    obtain ⟨hpending, hsize, hstarted⟩ := idle_transferLoop c depth _ _ _ _ _ _ hstart hevents
    obtain ⟨hpending', hsize'⟩ := REUMachine.settle_same _ _
    exact ⟨hpending'.trans hpending, hsize'.trans hsize, hstarted⟩

end Transfers

/-! ### Runs of the unit -/

/-- What happens to the unit: its registers are read and written, and a write of $FF00 is
noted. -/
inductive UnitOp
  | read (a : Addr)
  | write (a : Addr) (value : Byte)
  | noteFF00Write
  deriving DecidableEq

namespace REUMachine

variable {ω : Type} (host : IREUHost ω)

def apply (m : REUMachine ω) : UnitOp → REUMachine ω
  | .read a =>
      match m.unit.read a with
      | some (_, unit) => { m with unit := unit }
      | none => m
  | .write a v => (m.write host a v).getD m
  | .noteFF00Write => m.noteFF00Write host

end REUMachine

section Runs

variable {ρ : Type} (c : SuperCpu ρ) (depth : ℕ)

/-- A step that no transfer disturbs, and that writes no command to be left alone while the
unit waits for $FF00. -/
def Orderly (m : REUMachine (HostSide (Accelerator ρ))) (op : UnitOp) : Prop :=
  (∀ v, op = .write 0xDF01 v → CREU.executes v = false → m.unit.pendingFF00 = false) ∧
    Undisturbed (m.apply (c.board.hostAt depth) op).host.rest.events

instance (m : REUMachine (HostSide (Accelerator ρ))) (op : UnitOp) :
    Decidable (Orderly c depth m op) := inferInstanceAs (Decidable (_ ∧ _))

/-- The flag and the execute bit agree on a unit that is fitted. -/
structure Armed (u : CREU) : Prop where
  fitted : u.size ≠ 0
  agree : u.pendingFF00 = CREU.executes u.command

variable {c depth}

theorem armed_read {m : REUMachine (HostSide (Accelerator ρ))} (a : Addr) (h : Armed m.unit) :
    Armed (m.apply (c.board.hostAt depth) (.read a)).unit := by
  unfold REUMachine.apply
  dsimp only
  split
  next v unit hread =>
    rcases CREU.unit_of_read _ a _ hread with hunit | hunit
    · rw [show unit = m.unit from hunit]
      exact h
    · rw [show unit = m.unit.acknowledge from hunit]
      exact ⟨h.fitted, h.agree⟩
  next => exact h

/-- After a transfer nothing waits. -/
theorem armed_executeTransfer {m : REUMachine (HostSide (Accelerator ρ))} (hsize : m.unit.size ≠ 0)
    (hevents : Undisturbed
      (REUMachine.executeTransfer (c.board.hostAt depth) m).host.rest.events) :
    Armed (REUMachine.executeTransfer (c.board.hostAt depth) m).unit := by
  obtain ⟨hcommand, hidle⟩ := idle_executeTransfer c depth m
  obtain ⟨hpending, hfitted, -⟩ := hidle hevents
  exact ⟨hfitted ▸ hsize, hpending.trans hcommand.symm⟩

theorem armed_step (m : REUMachine (HostSide (Accelerator ρ))) (op : UnitOp) (h : Armed m.unit)
    (hop : Orderly c depth m op) : Armed (m.apply (c.board.hostAt depth) op).unit := by
  obtain ⟨hcommands, hevents⟩ := hop
  cases op with
  | read a => exact armed_read a h
  | write a v =>
      unfold REUMachine.apply at hevents ⊢
      dsimp only at hevents ⊢
      cases hwrite : m.write (c.board.hostAt depth) a v with
      | none => exact h
      | some m' =>
          rw [hwrite] at hevents
          rcases REUMachine.write_cases _ m m' hwrite with
            ⟨-, rfl⟩ | ⟨rfl, hexecutes, rfl⟩ | ⟨-, hexecutes, rfl | rfl⟩
          · obtain ⟨hcommand, hpending, hsize⟩ := m.unit.writeRegister_same a v
            refine ⟨hsize.symm ▸ h.fitted, hpending.trans (h.agree.trans ?_)⟩
            exact congrArg CREU.executes hcommand.symm
          · exact ⟨h.fitted, (hcommands v rfl hexecutes).trans hexecutes.symm⟩
          · exact armed_executeTransfer h.fitted hevents
          · exact ⟨h.fitted, hexecutes.symm⟩
  | noteFF00Write =>
      unfold REUMachine.apply REUMachine.noteFF00Write at hevents ⊢
      dsimp only at hevents ⊢
      split at hevents
      next hnone => rwa [if_pos hnone]
      next hsome =>
        rw [if_neg hsome]
        exact armed_executeTransfer h.fitted hevents

variable (c depth) in
theorem since_apply (m : REUMachine (HostSide (Accelerator ρ))) (op : UnitOp) :
    m.host.rest.events <:+ (m.apply (c.board.hostAt depth) op).host.rest.events := by
  have hhost := since_hostAt c m.host.rest.events depth
  cases op with
  | read a =>
      unfold REUMachine.apply
      dsimp only
      split <;> exact List.suffix_rfl
  | write a v =>
      unfold REUMachine.apply
      dsimp only
      cases hwrite : m.write (c.board.hostAt depth) a v with
      | none => exact List.suffix_rfl
      | some m' => exact REUMachine.host_write hhost m a v List.suffix_rfl m' hwrite
  | noteFF00Write => exact REUMachine.host_noteFF00Write hhost m List.suffix_rfl

/-- A command waits, or the transfer that it asked for is the last that started. -/
def Once (started : ℕ) (events : List BusEvent) (u : CREU) (n : ℕ) : Prop :=
  Undisturbed events → u.size ≠ 0 ∧
    (u.pendingFF00 = true ∧ n = started ∨ u.pendingFF00 = false ∧ n = started + 1)

/-- A step that writes no command. -/
def Uncommanding (op : UnitOp) : Prop := ∀ v, op ≠ .write 0xDF01 v

theorem once_noteFF00Write {m : REUMachine (HostSide (Accelerator ρ))} {started : ℕ}
    (h : UnitShows (Once started) m)
    (hevents : Undisturbed (m.noteFF00Write (c.board.hostAt depth)).host.rest.events) :
    (m.noteFF00Write (c.board.hostAt depth)).unit.size ≠ 0 ∧
      (m.noteFF00Write (c.board.hostAt depth)).unit.pendingFF00 = false ∧
      (m.noteFF00Write (c.board.hostAt depth)).started = started + 1 := by
  have hsince := since_apply c depth m .noteFF00Write
  obtain ⟨hsize, ⟨hpending, hstarted⟩ | ⟨hpending, hstarted⟩⟩ := h (hevents.of_suffix hsince)
  · rw [REUMachine.noteFF00Write_of_waits _ ⟨hsize, hpending⟩] at hevents ⊢
    obtain ⟨-, hidle⟩ := idle_executeTransfer c depth
      (m.mapUnit fun u => { u with pendingFF00 := false })
    obtain ⟨hclear, hfitted, hcount⟩ := hidle hevents
    exact ⟨fun hzero => hsize (hfitted.symm.trans hzero), hclear,
      hcount.trans (congrArg (· + 1) hstarted)⟩
  · have hwaits : ¬ m.unit.Waits := fun hwaits => by
      rw [hwaits.2] at hpending
      cases hpending
    rw [REUMachine.noteFF00Write_of_not_waits _ hwaits]
    exact ⟨hsize, hpending, hstarted⟩

theorem once_step {started : ℕ} (m : REUMachine (HostSide (Accelerator ρ))) (op : UnitOp)
    (h : UnitShows (Once started) m) (hop : Uncommanding op) :
    UnitShows (Once started) (m.apply (c.board.hostAt depth) op) := by
  cases op with
  | read a =>
      unfold REUMachine.apply
      dsimp only
      split
      next v unit hread =>
        show Once started m.host.rest.events unit m.started
        rcases CREU.unit_of_read _ a _ hread with hunit | hunit
        · rw [show unit = m.unit from hunit]
          exact h
        · rw [show unit = m.unit.acknowledge from hunit]
          exact h
      next => exact h
  | write a v =>
      unfold REUMachine.apply
      dsimp only
      cases hwrite : m.write (c.board.hostAt depth) a v with
      | none => exact h
      | some m' =>
          have ha : a ≠ 0xDF01 := fun ha => hop v (congrArg (UnitOp.write · v) ha)
          rcases REUMachine.write_cases _ m m' hwrite with ⟨-, rfl⟩ | ⟨hcommand, -⟩ | ⟨hcommand, -⟩
          · obtain ⟨-, hpending, hsize⟩ := m.unit.writeRegister_same a v
            show Once started m.host.rest.events (m.unit.writeRegister a v) m.started
            unfold Once
            rw [hpending, hsize]
            exact h
          · exact absurd hcommand ha
          · exact absurd hcommand ha
  | noteFF00Write =>
      intro hevents
      obtain ⟨hsize, hpending, hstarted⟩ := once_noteFF00Write h hevents
      exact ⟨hsize, .inr ⟨hpending, hstarted⟩⟩

/-- A command that waits for $FF00 is executed once. -/
theorem started_of_armed {m : REUMachine (HostSide (Accelerator ρ))} (hsize : m.unit.size ≠ 0)
    {v : Byte} (hexecutes : CREU.executes v = true) (hwaits : CREU.immediate v = false)
    {between : List UnitOp} (hbetween : ∀ op ∈ between, Uncommanding op) :
    let done := run (REUMachine.apply (c.board.hostAt depth)) m
      (.write 0xDF01 v :: between ++ [.noteFF00Write])
    Undisturbed done.host.rest.events → done.started = m.started + 1 := by
  intro done hevents
  have harmed : UnitShows (Once m.started) (m.apply (c.board.hostAt depth) (.write 0xDF01 v)) := by
    unfold REUMachine.apply REUMachine.write
    dsimp only
    have hclaims : m.unit.claims 0xDF01 = true := by
      unfold CREU.claims
      simpa using hsize
    rw [if_neg (by rw [hclaims]; nofun), if_pos rfl]
    rw [if_pos hexecutes, if_neg (by rw [hwaits]; nofun)]
    exact fun _ => ⟨hsize, .inl ⟨rfl, rfl⟩⟩
  have hafter : UnitShows (Once m.started) (run (REUMachine.apply (c.board.hostAt depth))
      (m.apply (c.board.hostAt depth) (.write 0xDF01 v)) between) := by
    have hsteps (m' : REUMachine (HostSide (Accelerator ρ))) :
        AllSteps (REUMachine.apply (c.board.hostAt depth)) (fun _ op => Uncommanding op) m'
          between := by
      clear hevents
      induction between generalizing m' with
      | nil => exact trivial
      | cons op ops ih =>
          rw [List.forall_mem_cons] at hbetween
          exact ⟨hbetween.1, ih hbetween.2 _⟩
    exact run_invariant_of_allSteps (P := UnitShows (Once m.started)) _ once_step _ between harmed
      (hsteps _)
  have hdone : done = (run (REUMachine.apply (c.board.hostAt depth))
      (m.apply (c.board.hostAt depth) (.write 0xDF01 v)) between).noteFF00Write
        (c.board.hostAt depth) := by
    show run _ m _ = _
    rw [List.cons_append, run_cons, run_append]
    rfl
  rw [hdone] at hevents ⊢
  exact (once_noteFF00Write hafter hevents).2.2

/-- After an orderly run, the flag and the execute bit as read back agree. Where the bit reads
clear, a write of $FF00 starts nothing. A command that waits starts one transfer, and a
command to be left alone disarms the unit exactly if it was not armed. -/
theorem ff00_trigger_agrees (c : SuperCpu ρ) (depth : ℕ)
    (m : REUMachine (HostSide (Accelerator ρ))) (u : CREU) (selector : Byte) (ops : List UnitOp)
    (hfitted : reuSizeFromSelector selector ≠ 0) (hunit : m.unit = u.init selector)
    (horderly : AllSteps (REUMachine.apply (c.board.hostAt depth)) (Orderly c depth) m ops) :
    let host := c.board.hostAt depth
    let m' := run (REUMachine.apply host) m ops
    ∃ value, m'.unit.read 0xDF01 = some (value, m'.unit) ∧
      m'.unit.pendingFF00 = CREU.executes value ∧
      (CREU.executes value = false → m'.apply host .noteFF00Write = m') ∧
      (∀ v between, CREU.executes v = true → CREU.immediate v = false →
        (∀ op ∈ between, Uncommanding op) →
        let done := run (REUMachine.apply host) m' (.write 0xDF01 v :: between ++ [.noteFF00Write])
        Undisturbed done.host.rest.events → done.started = m'.started + 1) ∧
      ∀ v, CREU.executes v = false →
        ((m'.apply host (.write 0xDF01 v)).unit.pendingFF00 = false ↔
          m'.unit.pendingFF00 = false) := by
  intro host m'
  have hinit : Armed m.unit := by
    rw [hunit]
    unfold CREU.init
    rw [if_neg hfitted]
    exact ⟨hfitted, show false = CREU.executes 0 by decide⟩
  have harmed : Armed m'.unit :=
    run_invariant_of_allSteps (P := fun m => Armed m.unit) _ armed_step m ops hinit horderly
  have hclaims : m'.unit.claims 0xDF01 = true := by
    unfold CREU.claims
    simpa using harmed.fitted
  have hread : CREU.executes (m'.unit.command ||| 0x4C#8) = CREU.executes m'.unit.command := by
    unfold CREU.executes
    rw [BitVec.and_or_distrib_right]
    simp
  refine ⟨m'.unit.command ||| 0x4C#8, ?_, harmed.agree.trans hread.symm, fun hclear => ?_,
    fun v between hexecutes hwaits hbetween =>
      started_of_armed harmed.fitted hexecutes hwaits hbetween, fun v hexecutes => ?_⟩
  · unfold CREU.read
    rw [if_neg (by rw [hclaims]; nofun), if_neg (by decide), if_pos rfl]
  · refine REUMachine.noteFF00Write_of_not_waits host fun hwaits => ?_
    have hpending := hwaits.2
    rw [harmed.agree, ← hread, hclear] at hpending
    cases hpending
  · unfold REUMachine.apply REUMachine.write
    dsimp only
    rw [if_neg (by rw [hclaims]; nofun), if_pos rfl]
    rw [if_neg (by rw [hexecutes]; nofun)]
    rfl

/-- The smallest unit, in a machine on whose bus nothing happens. -/
def fittedMachine : REUMachine (HostSide (Accelerator Unit)) where
  unit := CREU.construct.init 2
  host := ⟨quietSystem.memory, quietSystem.outside.rest, false⟩
  touched := []
  started := 0

/-- One byte is stashed at the write of $FF00. -/
theorem ff00_trigger_agrees_stash :
    let host := quietSuperCpu.board.hostAt 1
    let m := run (REUMachine.apply host) fittedMachine
      [.write 0xDF07 1, .write 0xDF01 0x80, .noteFF00Write]
    ∃ value, m.unit.read 0xDF01 = some (value, m.unit) ∧
      m.unit.pendingFF00 = CREU.executes value := by
  have hagrees := ff00_trigger_agrees quietSuperCpu 1 fittedMachine CREU.construct 2
    [.write 0xDF07 1, .write 0xDF01 0x80, .noteFF00Write] (by decide) rfl (by decide +kernel)
  exact hagrees.imp fun _ h => ⟨h.1, h.2.1⟩

/-- A command to be left alone, written while another waits: the bit reads clear, the flag
stays, and the next write of $FF00 starts a transfer. -/
theorem rewritten_command_stays_armed :
    let host := quietSuperCpu.board.hostAt 1
    let m := run (REUMachine.apply host) fittedMachine
      [.write 0xDF07 1, .write 0xDF01 0x80, .write 0xDF01 0x00]
    (m.unit.read 0xDF01).map Prod.fst = some 0x4C#8 ∧ CREU.executes 0x4C#8 = false ∧
      m.unit.pendingFF00 = true ∧ (m.apply host .noteFF00Write).started = m.started + 1 := by
  decide +kernel

end Runs

end ScpuEmu
