import ScpuEmu.C64.SerialWindow
import ScpuEmu.SuperCpu.ReadResidue

/-!
# Polls of an idle serial bus

Reads of port A of CIA 2 open the window of serial activity only where they give evidence of
a transfer. A program that polls an idle bus sustains the hold of the speed, but the window
closes, and with it ends the blackout of the mirror.
-/

namespace ScpuEmu

open Library

namespace Fetch

variable (f : Fetch)

/-- PA6 and PA7 where they are inputs. -/
def inputPins : Byte := 0xC0#8 &&& if f.haveCIA2DDRA then ~~~f.cia2DDRA else 0xFF

/-- The inputs are high, as they were in the last sample. -/
def ShowsIdle (v : Byte) : Prop :=
  v &&& f.inputPins = f.inputPins ∧
    (f.haveCIA2PortARead = true → (f.lastCIA2PortARead ^^^ v) &&& f.inputPins = 0)

instance (v : Byte) : Decidable (f.ShowsIdle v) := inferInstanceAs (Decidable (_ ∧ _))

end Fetch

section Chip

variable {ω : Type} {env : Surroundings ω}

theorem memory_chipValue (a : Addr) (s : Machine ω) :
    ((chipValue env a).run s).2.memory = s.memory := by
  rw [chipValue, run_bind, run_get]
  dsimp only
  split
  · rfl
  split
  · rfl
  split
  · rfl
  · rw [run_bind]
    split
    · exact memory_busRead
    split <;> exact memory_busRead

/-- An idle sample is no evidence of a transfer. -/
theorem timing_sampleSerialLines {v : Byte} {s : Machine ω} (hidle : s.memory.fetch.ShowsIdle v) :
    ((sampleSerialLines v).run s).2.memory.timing = s.memory.timing := by
  obtain ⟨hhigh, hsame⟩ := hidle
  have hnone : ¬ ((s.memory.fetch.haveCIA2PortARead &&
      (s.memory.fetch.lastCIA2PortARead ^^^ v) &&& s.memory.fetch.inputPins != 0) ||
        v &&& s.memory.fetch.inputPins != s.memory.fetch.inputPins) = true := by
    rw [hhigh]
    simpa using hsame
  rw [sampleSerialLines, run_bind, run_getMemory, run_bind, run_modifyMemory]
  exact congrArg (fun x : PUnit × Machine ω => x.2.memory.timing) (run_onlyIf_neg hnone _ _)

/-- A read of a register of port A that shows no activity. -/
theorem activityView_chipRead {a : Addr} (ha : a = 0xDD00 ∨ a = 0xDD02) (s : Machine ω)
    (hidle : a = 0xDD00 → s.memory.fetch.ShowsIdle ((chipRead env a).run s).1) :
    ((chipRead env a).run s).2.memory.timing.activityView = s.memory.timing.activityView := by
  rw [chipRead, run_bind, run_modifyMemory, run_bind, run_modifyTiming, run_bind] at hidle ⊢
  have hmemory := @memory_chipValue ω env a
    ⟨{ s.memory with ioReads := s.memory.ioReads + 1 }.mapTiming fun t => t.noteBusAccess a false,
      s.outside⟩
  generalize (chipValue env a).run _ = x at hidle hmemory ⊢
  obtain ⟨v, s₁⟩ := x
  change s₁.memory = _ at hmemory
  have hfetch : s₁.memory.fetch = s.memory.fetch := by
    rw [hmemory]
    rfl
  have hnoted : s₁.memory.timing.notePollHold.activityView = s.memory.timing.activityView := by
    rw [Timing.activityView_notePollHold, hmemory]
    exact Timing.activityView_noteBusAccess _ a false
  have hacknowledge : a ≠ 0xDD0D := by rcases ha with rfl | rfl <;> decide
  rw [run_bind, run_onlyIf_pos ha, run_modifyTiming, run_bind, run_bind,
    run_onlyIf_neg hacknowledge]
  by_cases hport : a = 0xDD00
  · rw [run_onlyIf_pos hport]
    refine (congrArg Timing.activityView (timing_sampleSerialLines ?_)).trans hnoted
    have hshown := hidle hport
    rw [← hfetch] at hshown
    exact hshown
  · rw [run_onlyIf_neg hport]
    exact hnoted

end Chip

/-! ### Polls and ticks -/

/-- A read of port A of CIA 2 or of its direction, on either path, or the passing of time. -/
inductive Poll
  | port (fast : Bool)
  | direction (fast : Bool)
  | tick (nCycles : ℕ)

namespace Poll

variable {ω : Type} (env : Surroundings ω)

def program : Poll → MemoryM ω PUnit
  | .port fast => (fun _ => ⟨⟩) <$> if fast then readFast env 0xDD00 else read8 env 0xDD00
  | .direction fast => (fun _ => ⟨⟩) <$> if fast then readFast env 0xDD02 else read8 env 0xDD02
  | .tick n => tickFast env n

def step (s : Machine ω) (op : Poll) : Machine ω := ((op.program env).run s).2

/-- Port A answers with its inputs high, as they were last sampled. -/
def Idle (s : Machine ω) : Poll → Prop
  | .port _ => c64MapRead 0xDD00 s.memory.bankMode = .io →
      s.memory.fetch.ShowsIdle ((read8 env 0xDD00).run s).1
  | _ => True

instance (s : Machine ω) (op : Poll) : Decidable (op.Idle env s) := by
  cases op with
  | port => exact inferInstanceAs (Decidable (_ → _))
  | direction | tick => exact isTrue trivial

end Poll

section Runs

variable {ω : Type} {env : Surroundings ω} (hpass : ∀ a, PassedOn a → env.PassesOn a)
include hpass

theorem activityView_read8 {a : Addr} (ha : a = 0xDD00 ∨ a = 0xDD02) (s : Machine ω)
    (hidle : a = 0xDD00 → c64MapRead a s.memory.bankMode = .io →
      s.memory.fetch.ShowsIdle ((read8 env a).run s).1) :
    ((read8 env a).run s).2.memory.timing.activityView = s.memory.timing.activityView := by
  have hlatch : LatchRegister a := ha.imp_right Or.inl
  by_cases hmap : c64MapRead a s.memory.bankMode = .io
  · rw [hlatch.read8_eq s hmap] at hidle ⊢
    obtain ⟨s', hrun, ⟨lines, hmemory⟩, -⟩ := (hpass a hlatch.passedOn).run_ioRead s
    rw [hrun] at hidle ⊢
    refine (activityView_chipRead ha s' fun hport => ?_).trans ?_
    · rw [hmemory]
      exact hidle hport hmap
    · rw [hmemory]
      rfl
  · obtain ⟨g, hg, hread⟩ := @LatchRegister.read8_plain ω env a hlatch s hmap
    rw [hread]
    rcases hg with rfl | rfl
    · rfl
    · exact Timing.activityView_noteBusAccess _ a false

theorem activityView_readFast {a : Addr} (ha : a = 0xDD00 ∨ a = 0xDD02) (fast : Bool)
    (s : Machine ω) (hidle : a = 0xDD00 → c64MapRead a s.memory.bankMode = .io →
      s.memory.fetch.ShowsIdle ((read8 env a).run s).1) :
    ((if fast then readFast env a else read8 env a).run s).2.memory.timing.activityView =
      s.memory.timing.activityView := by
  have hlatch : LatchRegister a := ha.imp_right Or.inl
  have hread : (readFast env a).run s = (read8 env a).run s :=
    run_readFast_eq_read8 fun h => hlatch.not_hostDecoded s.memory h.2.1
  cases fast with
  | false => exact activityView_read8 hpass ha s hidle
  | true =>
      rw [if_pos rfl, hread]
      exact activityView_read8 hpass ha s hidle

/-- An idle poll takes nothing from the window, and a tick takes what the clock advances. -/
theorem Poll.step_activity (s : Machine ω) (op : Poll) (hidle : op.Idle env s) :
    ∃ k, (op.step env s).memory.timing.activityView =
      (s.memory.timing.iecActivityCycles - k, s.memory.timing.emuCycles + k) := by
  cases op with
  | port fast =>
      exact ⟨0, activityView_readFast hpass (Or.inl rfl) fast s fun _ => hidle⟩
  | direction fast =>
      exact ⟨0, activityView_readFast hpass (Or.inr rfl) fast s fun h => absurd h (by decide)⟩
  | tick n =>
      refine ⟨s.memory.timing.tickCycles n, ?_⟩
      exact timing_tickFast (C := fun t => t.activityView = _) (fun t _ _ _ _ _ h => h) s n
        (Timing.activityView_tickFast s.memory.timing n)

theorem Poll.run_activity (s : Machine ω) (ops : List Poll)
    (hidle : AllSteps (Poll.step env) (fun s op => op.Idle env s) s ops) :
    ∃ k, (run (Poll.step env) s ops).memory.timing.activityView =
      (s.memory.timing.iecActivityCycles - k, s.memory.timing.emuCycles + k) := by
  induction ops generalizing s with
  | nil => exact ⟨0, rfl⟩
  | cons op ops ih =>
      obtain ⟨k, hk⟩ := Poll.step_activity hpass s op hidle.1
      obtain ⟨l, hl⟩ := ih _ hidle.2
      simp only [Timing.activityView, Prod.mk.injEq] at hk
      refine ⟨k + l, ?_⟩
      rw [run_cons, hl, hk.1, hk.2, Nat.sub_sub, Nat.add_assoc]

end Runs

/-- From every state that the memory reaches, polls of an idle bus never open the window
again: it loses what the clock advances, and is closed after 2000 cycles. -/
theorem idle_polls_close_window {β : Type} (b : Chassis β) (depth : ℕ)
    (spritePtrBase previousSpritePtrBase : BitVec 32) (lastD018 : Byte)
    (vicRegShadow : BitVec 6 → Byte) (vicLog : VICLog)
    (outside : WithREU (Accelerator (Fitted β)))
    (before : List (MemoryOp (WithREU (Accelerator (Fitted β))))) (polls : List Poll) :
    let env := b.superCpu.board.env depth
    let s := run (memoryStep env)
      ⟨CC64Memory.construct spritePtrBase previousSpritePtrBase lastD018 vicRegShadow
        vicLog, outside⟩
      before
    let final := run (Poll.step env) s polls
    AllSteps (Poll.step env) (fun s op => op.Idle env s) s polls →
      final.memory.timing.iecActivityCycles = s.memory.timing.iecActivityCycles -
          (final.memory.timing.emuCycles - s.memory.timing.emuCycles) ∧
        (s.memory.timing.emuCycles + 2000 ≤ final.memory.timing.emuCycles →
          final.memory.timing.iecBusActive = false) := by
  intro env s final hidle
  have hbound : s.memory.timing.iecActivityCycles ≤ 2000 :=
    window_bounded b.superCpu.board depth _ (Nat.zero_le _) before
  obtain ⟨k, hk⟩ := Poll.run_activity (fun a ha => b.passesOn ha depth) s polls hidle
  simp only [Timing.activityView, Prod.mk.injEq] at hk
  obtain ⟨hactivity, hclock⟩ := hk
  have hfinal : final.memory.timing.iecActivityCycles = s.memory.timing.iecActivityCycles -
      (final.memory.timing.emuCycles - s.memory.timing.emuCycles) := by
    rw [hclock, Nat.add_sub_cancel_left, hactivity]
  refine ⟨hfinal, fun helapsed => ?_⟩
  have hclosed : final.memory.timing.iecActivityCycles = 0 := by
    rw [hfinal]
    exact Nat.sub_eq_zero_of_le (hbound.trans (Nat.le_sub_of_add_le' helapsed))
  simp [Timing.iecBusActive, hclosed]

/-- The lines of port A float high after the set-up, which opens the window. -/
def pollSetup : List (MemoryOp (WithREU (Accelerator (Fitted Unit)))) :=
  [.write8 0xDD02 0x3F, .write8 0xDD00 0x07, .write8 0xDD00 0x17]

def pollLoop : List Poll :=
  [.port false, .tick 10, .direction true, .port true, .tick 3000]

def floatingAccelerator : WithREU (Accelerator (Fitted Unit)) where
  rest := ⟨⟨CSuperCPURegisters.construct, ()⟩,
    (WriteBuffer.construct (fun _ => 0) fun _ => 0).attach true, false, []⟩
  unit := CREU.construct
  touched := []
  started := 0
  exhausted := false

theorem pollLoop_closes_window :
    (run (Poll.step (floatingChassis.superCpu.board.env 0))
      (run (memoryStep (floatingChassis.superCpu.board.env 0))
        ⟨CC64Memory.construct 0 0 0 (fun _ => 0) fun _ => ⟨0, 0, 0, 0⟩, floatingAccelerator⟩
        pollSetup) pollLoop).memory.timing.iecBusActive = false :=
  (idle_polls_close_window floatingChassis 0 0 0 0 (fun _ => 0) (fun _ => ⟨0, 0, 0, 0⟩)
    floatingAccelerator pollSetup pollLoop
    ⟨by decide +kernel, trivial, trivial, by decide +kernel, trivial, trivial⟩).2
      (by decide +kernel)

end ScpuEmu
