import ScpuEmu.Cpu.W65C816.Reachable
import ScpuEmu.Cpu.W65C816.Accesses

/-!
# Batches of instructions

The loop of `CW65C816::run` goes through the prologue of an instruction only when the
pending byte says so, and samples the interrupt lines once a batch. On a bus whose lines
keep their levels between ticks nothing is lost by it: the loop visits the states that a
loop visits which rebuilds the pending byte for every instruction.
-/

namespace ScpuEmu

namespace W65C816

open Library

variable {σ : Type}

/-- A sample of the lines answers these levels, and does nothing else. -/
def Settled (bus : CpuBus σ) (levels : Bool × Bool) (s : σ) : Prop :=
  bus.sampleInterrupts s = ⟨levels, false, s⟩

/-- A sample settles the lines, and until the next tick no access moves them. -/
structure LevelsHold (bus : CpuBus σ) : Prop where
  sampled : ∀ s, Settled bus (bus.sampleInterrupts s).value (bus.sampleInterrupts s).state
  kept : ∀ levels, bus.AccessKeeps (Settled bus levels)

theorem settled_logged {bus : CpuBus σ} {levels : Bool × Bool} {s : Logged σ} :
    Settled bus.logged levels s ↔ Settled bus levels s.state := by
  obtain ⟨state, log⟩ := s
  constructor
  · intro h
    have hvalue := congrArg BusReply.value h
    have hbreak := congrArg BusReply.requestRunBreak h
    have hstate := congrArg (fun r => r.state.state) h
    cases hreply : bus.sampleInterrupts state
    rw [Settled, hreply]
    simp_all [CpuBus.logged, BusReply.logged]
  · intro h
    simp only [Settled, CpuBus.logged, BusReply.logged] at h ⊢
    rw [h]

theorem LevelsHold.logged {bus : CpuBus σ} (h : LevelsHold bus) : LevelsHold bus.logged where
  sampled s := settled_logged.mpr (h.sampled s.state)
  kept levels :=
    { read8 := fun s a hs =>
        settled_logged.mpr ((h.kept levels).read8 s.state a (settled_logged.mp hs))
      write8 := fun s a v hs =>
        settled_logged.mpr ((h.kept levels).write8 s.state a v (settled_logged.mp hs))
      rerouteVector := fun s vec hs =>
        settled_logged.mpr ((h.kept levels).rerouteVector s.state vec (settled_logged.mp hs))
      noteNMITaken := fun s hs =>
        settled_logged.mpr ((h.kept levels).noteNMITaken s.state (settled_logged.mp hs)) }

theorem levelsHold_flatBus : LevelsHold flatBus where
  sampled _ := rfl
  kept _ := ⟨fun _ _ h => h, fun _ _ _ h => by cases h; rfl, fun _ _ h => h, fun _ h => h⟩

namespace Cpu

variable (bus : CpuBus σ) {cpu : Cpu σ}

/-! ### The loop that samples at every instruction -/

def referenceBatch : ℕ → Cpu σ → List (Cpu σ)
  | 0, _ => []
  | n + 1, cpu =>
    let next := (cpu.stepNoTick bus).2
    next :: if next.sliceEnds bus then [] else referenceBatch n next

def referenceSlice (cpu : Cpu σ) (remaining : ℕ) : Slice σ :=
  let visited := referenceBatch bus (batchLimit remaining) cpu
  ⟨visited, cpu.tickAfter bus visited⟩

def referenceLoop (start n : ℕ) : ℕ → Cpu σ → List (Slice σ)
  | 0, _ => []
  | fuel + 1, cpu =>
    if cpu.cycles - start < n ∧ cpu.core.runBreak = false then
      let slice := referenceSlice bus cpu (n - (cpu.cycles - start))
      slice :: if slice.ticked.stopped then [] else referenceLoop start n fuel slice.ticked
    else []

/-- The slices of a run in which every instruction goes through the whole prologue, with the
ticks at the same instructions. -/
def referenceSlices (cpu : Cpu σ) (n : ℕ) : List (Slice σ) :=
  referenceLoop bus cpu.cycles n n cpu.beginRun

/-- All but the pending byte, which only caches the latches and the lines. -/
def forget (cpu : Cpu σ) : Cpu σ := { cpu with pending := 0 }

/-! ### The pending byte -/

/-- The byte that the latches, the last sample and a due one call for. -/
def pendingByte (stopped waiting nmi irq due : Bool) : Byte :=
  pendingOf stopped waiting nmi ||| (if irq then pendIRQLine else 0) |||
    (if due then pendSample else 0)

/-- A sample is due, and the latches are told apart from it. -/
def Due (cpu : Cpu σ) : Prop :=
  ∃ nmi irq, cpu.pending = pendingByte cpu.stopped cpu.waiting nmi irq true

/-- The lines were sampled since the last tick. -/
structure Sampled (irq : Bool) (cpu : Cpu σ) : Prop where
  pending : cpu.pending = pendingByte cpu.stopped cpu.waiting cpu.nmiPending irq false
  settled : Settled bus (irq, cpu.nmiPrevLevel) cpu.core.bus

/-- What holds at every boundary in a run. -/
def Ready (cpu : Cpu σ) : Prop := cpu.Due ∨ ∃ irq, Sampled bus irq cpu

theorem due_rebuildPending (cpu : Cpu σ) : cpu.rebuildPending.Due := by
  have hbyte : ∀ s w m : Bool, pendingOf s w m ||| pendSample = pendingByte s w m false true := by
    decide
  exact ⟨cpu.nmiPending, false, hbyte _ _ _⟩

theorem Ready.due_after_tick (h : cpu.Ready bus) (n : ℕ) :
    Due { cpu.busTick bus n with pending := cpu.pending ||| pendSample } := by
  have hset : ∀ s w m i d : Bool,
      pendingByte s w m i d ||| pendSample = pendingByte s w m i true := by decide
  rcases h with ⟨nmi, irq, hpending⟩ | ⟨irq, hpending, -⟩
  · exact ⟨nmi, irq, by rw [hpending, hset]; rfl⟩
  · exact ⟨cpu.nmiPending, irq, by rw [hpending, hset]; rfl⟩

theorem Ready.pending_ne_zero_of_stopped (h : cpu.Ready bus) (hstopped : cpu.stopped = true) :
    cpu.pending ≠ 0 := by
  have hbit : ∀ w m i d : Bool, pendingByte true w m i d ≠ 0 := by decide
  rcases h with ⟨nmi, irq, hpending⟩ | ⟨irq, hpending, -⟩
  · rw [hpending, hstopped]
    exact hbit _ _ _ _
  · rw [hpending, hstopped]
    exact hbit _ _ _ _

/-- The state after a sample, whatever was pending before it. -/
def afterSample (cpu : Cpu σ) : Bool × Cpu σ :=
  let ((irq, nmiLevel), next) := cpu.exec (busReply bus.sampleInterrupts)
  let nmi := cpu.nmiPending || (nmiLevel && !cpu.nmiPrevLevel)
  (irq, { next with
    nmiPending := nmi
    nmiPrevLevel := nmiLevel
    pending := pendingByte cpu.stopped cpu.waiting nmi irq false })

theorem Due.sample_eq (h : cpu.Due) : cpu.sample bus = cpu.afterSample bus := by
  obtain ⟨nmi, irq, hpending⟩ := h
  have hdue : ∀ s w m i : Bool, (pendingByte s w m i true &&& pendSample != 0) = true := by decide
  have hlatch : ∀ s w m i m' i' : Bool,
      (pendingByte s w m i true &&& ~~~(pendSample ||| pendIRQLine ||| pendNMI)) |||
          (if i' then pendIRQLine else 0) ||| (if m' then pendNMI else 0) =
        pendingByte s w m' i' false := by decide
  have hsampled : (cpu.pending &&& pendSample != 0) = true := by
    rw [hpending]
    exact hdue _ _ _ _
  rw [sample, if_pos hsampled]
  unfold afterSample latch
  dsimp only [exec]
  rw [hpending, hlatch]

/-- Without a tick in between, another sample changes nothing. -/
theorem Sampled.afterSample_eq {irq : Bool} (h : Sampled bus irq cpu) :
    cpu.afterSample bus = (irq, cpu) := by
  obtain ⟨hpending, hsettled⟩ := h
  have hread : (busReply bus.sampleInterrupts : CoreM Regs σ (Bool × Bool)).run cpu.core =
      ((irq, cpu.nmiPrevLevel), cpu.core) := by
    show (_, _) = _
    rw [hsettled]
    simp
  unfold afterSample exec
  rw [hread]
  simp only [Bool.and_not_self, Bool.or_false]
  rw [← hpending]

theorem sampled_afterSample (h : LevelsHold bus) (cpu : Cpu σ) :
    Sampled bus (cpu.afterSample bus).1 (cpu.afterSample bus).2 :=
  ⟨rfl, h.sampled cpu.core.bus⟩

/-! ### What keeps the sample -/

theorem sampled_dispatch (h : LevelsHold bus) {irq : Bool} (hs : Sampled bus irq cpu) :
    Sampled bus irq (cpu.dispatch bus).2 := by
  obtain ⟨hpending, hsettled⟩ := hs
  have hstop : ∀ s w m i : Bool,
      pendingByte s w m i false ||| pendStopped = pendingByte true w m i false := by decide
  have hwait : ∀ s w m i : Bool,
      pendingByte s w m i false ||| pendWaiting = pendingByte s true m i false := by decide
  have hstopped : cpu.pending ||| pendStopped =
      pendingByte true cpu.waiting cpu.nmiPending irq false := by rw [hpending, hstop]
  have hwaiting : cpu.pending ||| pendWaiting =
      pendingByte cpu.stopped true cpu.nmiPending irq false := by rw [hpending, hwait]
  have hbus := onBus_fetchExec (h.kept (irq, cpu.nmiPrevLevel)) cpu.core hsettled
  unfold dispatch exec
  dsimp only
  generalize decode _ = instr
  cases instr with
  | stp => exact ⟨hstopped, hbus⟩
  | wai => exact ⟨hwaiting, hbus⟩
  | _ => exact ⟨hpending, hbus⟩

theorem Sampled.wake {irq : Bool} (hs : Sampled bus irq cpu) : Sampled bus irq cpu.wake := by
  obtain ⟨hpending, hsettled⟩ := hs
  have hclear : ∀ s w m i : Bool,
      pendingByte s w m i false &&& ~~~pendWaiting = pendingByte s false m i false := by decide
  unfold Cpu.wake
  split
  · have hawake : cpu.pending &&& ~~~pendWaiting =
        pendingByte cpu.stopped false cpu.nmiPending irq false := by rw [hpending, hclear]
    exact ⟨hawake, hsettled⟩
  · exact ⟨hpending, hsettled⟩

theorem Sampled.countDeferred {irq : Bool} (hs : Sampled bus irq cpu) :
    Sampled bus irq cpu.countDeferred := by
  unfold Cpu.countDeferred
  split
  · exact ⟨hs.pending, hs.settled⟩
  · exact hs

theorem sampled_interrupts (h : LevelsHold bus) {irq : Bool} (hs : Sampled bus irq cpu) :
    Sampled bus irq (cpu.interrupts bus irq).2 := by
  have hclear : ∀ s w m i : Bool, pendingByte s w m i false &&& ~~~(pendNMI ||| pendWaiting) =
      pendingByte s false false i false := by decide
  unfold interrupts
  split
  · refine ⟨?_, onBus_takeNMICore (h.kept (irq, cpu.nmiPrevLevel)) cpu.core hs.settled⟩
    show cpu.pending &&& ~~~(pendNMI ||| pendWaiting) = _
    rw [hs.pending, hclear]
    rfl
  have hcounted := hs.countDeferred
  generalize cpu.countDeferred = cpu at hcounted
  unfold afterNMI
  split
  · exact ⟨hcounted.pending, hcounted.settled⟩
  have hwoken := hcounted.wake
  split
  · have hbus := onBus_serviceInterrupt (h.kept (irq, cpu.wake.nmiPrevLevel)) vecIRQ false
      cpu.wake.core hwoken.settled
    exact ⟨hwoken.pending, hbus⟩
  · exact sampled_dispatch bus h hwoken

/-! ### One instruction -/

theorem stepNoTick_eq (hrunning : cpu.stopped = false) : cpu.stepNoTick bus =
    (cpu.afterSample bus).2.interrupts bus (cpu.afterSample bus).1 := by
  have hpending : cpu.rebuildPending.pending ≠ 0 := by
    have hbit : ∀ s w m : Bool, pendingOf s w m ||| pendSample ≠ 0 := by decide
    exact hbit _ _ _
  have hrunning' : ¬ cpu.rebuildPending.stopped = true := by
    show ¬ cpu.stopped = true
    rw [hrunning]
    nofun
  rw [stepNoTick, stepInner, if_neg hpending, if_neg hrunning',
    (due_rebuildPending cpu).sample_eq]
  rfl

/-- An instruction of a run goes as it would with the whole prologue. -/
theorem stepInner_eq (h : cpu.Ready bus) (hrunning : cpu.stopped = false) :
    cpu.stepInner bus = (cpu.afterSample bus).2.interrupts bus (cpu.afterSample bus).1 := by
  have hrunning' : ¬ cpu.stopped = true := by
    rw [hrunning]
    nofun
  rcases h with hdue | ⟨irq, hsampled⟩
  · have hpending : cpu.pending ≠ 0 := by
      obtain ⟨nmi, irq, hpending⟩ := hdue
      have hbit : ∀ s w m i : Bool, pendingByte s w m i true ≠ 0 := by decide
      rw [hpending]
      exact hbit _ _ _ _
    rw [stepInner, if_neg hpending, if_neg hrunning', hdue.sample_eq]
  · rw [hsampled.afterSample_eq]
    have hpending := hsampled.pending
    by_cases hnone : cpu.pending = 0
    · have hidle : ∀ s w m i : Bool,
          pendingByte s w m i false = 0 → w = false ∧ m = false ∧ i = false := by decide
      obtain ⟨hwaiting, hnmi, rfl⟩ := hidle _ _ _ _ (hpending.symm.trans hnone)
      have hawake : cpu.wake = cpu := by
        rw [Cpu.wake, if_neg (by rw [hwaiting]; nofun)]
      have hquiet : cpu.countDeferred = cpu := by
        rw [Cpu.countDeferred, if_neg (by rw [hnmi]; nofun)]
      rw [stepInner, if_pos hnone, interrupts, hnmi, if_neg (by nofun), hquiet, afterNMI, hwaiting,
        if_neg (by nofun), if_neg (by nofun), hawake]
    · have hlast : ∀ s w m i : Bool, (pendingByte s w m i false &&& pendSample != 0) = false ∧
          (pendingByte s w m i false &&& pendIRQLine != 0) = i := by decide
      have hsample : cpu.sample bus = (irq, cpu) := by
        rw [sample, hpending, (hlast _ _ _ _).1, if_neg (by nofun), (hlast _ _ _ _).2]
      rw [stepInner, if_neg hnone, if_neg hrunning', hsample]

theorem Ready.stepInner_of_stopped (h : cpu.Ready bus) (hstopped : cpu.stopped = true) :
    cpu.stepInner bus = cpu.consume 1 := by
  rw [stepInner, if_neg (h.pending_ne_zero_of_stopped bus hstopped), if_pos hstopped]

theorem Ready.stepInner (hbus : LevelsHold bus) (h : cpu.Ready bus) :
    (cpu.stepInner bus).2.Ready bus := by
  cases hrunning : cpu.stopped with
  | true =>
      rw [h.stepInner_of_stopped bus hrunning]
      exact h.imp (fun hdue => hdue) fun ⟨irq, hs⟩ => ⟨irq, hs.pending, hs.settled⟩
  | false =>
      rw [stepInner_eq bus h hrunning]
      exact Or.inr ⟨_, sampled_interrupts bus hbus (sampled_afterSample bus hbus cpu)⟩

/-! ### The whole run -/

variable {bus} {reference : Cpu σ}

theorem eq_of_forget (h : reference.forget = cpu.forget) :
    reference = { cpu with pending := reference.pending } := by
  cases reference
  cases cpu
  simp only [forget, Cpu.mk.injEq] at h ⊢
  simp [h]

theorem step_forget (h : cpu.Ready bus) (hr : reference.forget = cpu.forget) :
    (reference.stepNoTick bus).2.forget = (cpu.stepInner bus).2.forget := by
  have heq := eq_of_forget hr
  have hstopped : reference.stopped = cpu.stopped := (congrArg Cpu.stopped hr :)
  cases hrunning : cpu.stopped with
  | true =>
      have hpending : reference.rebuildPending.pending ≠ 0 := by
        have hbit : ∀ s w m : Bool, pendingOf s w m ||| pendSample ≠ 0 := by decide
        exact hbit _ _ _
      have hstop : reference.rebuildPending.stopped = true := hstopped.trans hrunning
      rw [h.stepInner_of_stopped bus hrunning, stepNoTick, Cpu.stepInner, if_neg hpending,
        if_pos hstop, heq]
      rfl
  | false =>
      have hsample : reference.afterSample bus = cpu.afterSample bus := by
        rw [heq]
        rfl
      rw [stepInner_eq bus h hrunning, stepNoTick_eq bus (hstopped.trans hrunning), hsample]

theorem batch_forget (hbus : LevelsHold bus) (n : ℕ) (h : cpu.Ready bus)
    (hr : reference.forget = cpu.forget) :
    (referenceBatch bus n reference).map forget = (batch bus n cpu).map forget := by
  induction n generalizing cpu reference with
  | zero => rfl
  | succ n ih =>
      have hstep := step_forget h hr
      have hends : (reference.stepNoTick bus).2.sliceEnds bus =
          (cpu.stepInner bus).2.sliceEnds bus :=
        (congrArg (fun c : Cpu σ => c.sliceEnds bus) hstep :)
      rw [referenceBatch, batch, List.map_cons, List.map_cons, hstep, hends]
      split
      · rfl
      · rw [ih (h.stepInner bus hbus) hstep]

theorem ready_batch (hbus : LevelsHold bus) (n : ℕ) (h : cpu.Ready bus) :
    ∀ visited ∈ batch bus n cpu, visited.Ready bus := by
  induction n generalizing cpu with
  | zero => exact fun _ hmem => absurd hmem List.not_mem_nil
  | succ n ih =>
      have hnext := h.stepInner bus hbus
      intro visited hmem
      rw [batch, List.mem_cons] at hmem
      rcases hmem with rfl | hrest
      · exact hnext
      · split at hrest
        · exact absurd hrest List.not_mem_nil
        · exact ih hnext visited hrest

theorem getLastD_forget (visited : List (Cpu σ)) (cpu : Cpu σ) :
    (visited.getLastD cpu).forget = (visited.map forget).getLastD cpu.forget := by
  rw [List.getLastD_eq_getLast?, List.getLastD_eq_getLast?, List.getLast?_map]
  cases visited.getLast? <;> rfl

/-- The slice without the pending bytes. -/
def Slice.forget (slice : Slice σ) : Slice σ :=
  ⟨slice.visited.map Cpu.forget, slice.ticked.forget⟩

theorem slice_forget (hbus : LevelsHold bus) (remaining : ℕ) (h : cpu.Ready bus)
    (hr : reference.forget = cpu.forget) :
    (referenceSlice bus reference remaining).forget = (cpu.slice bus remaining).forget := by
  have hvisited := batch_forget hbus (batchLimit remaining) h hr
  have htick (c : Cpu σ) (visited : List (Cpu σ)) : (c.tickAfter bus visited).forget =
      (c.forget.tickAfter bus (visited.map forget)).forget := by
    unfold tickAfter
    dsimp only
    rw [← getLastD_forget]
    rfl
  unfold Slice.forget referenceSlice slice
  dsimp only
  rw [hvisited, htick, hr, hvisited, ← htick]
  rfl

theorem ready_slice (hbus : LevelsHold bus) (remaining : ℕ) (h : cpu.Ready bus) :
    (cpu.slice bus remaining).ticked.Ready bus := by
  have hlast : ((batch bus (batchLimit remaining) cpu).getLastD cpu).Ready bus := by
    rcases getLastD_mem_or (batch bus (batchLimit remaining) cpu) cpu with hmem | heq
    · exact ready_batch hbus _ h _ hmem
    · rw [heq]
      exact h
  exact Or.inl (hlast.due_after_tick bus _)

theorem loop_forget (hbus : LevelsHold bus) (start n fuel : ℕ) (h : cpu.Ready bus)
    (hr : reference.forget = cpu.forget) :
    (referenceLoop bus start n fuel reference).map Slice.forget =
      (runLoop bus start n fuel cpu).map Slice.forget := by
  induction fuel generalizing cpu reference with
  | zero => rfl
  | succ fuel ih =>
      have hcycles : reference.cycles = cpu.cycles := (congrArg Cpu.cycles hr :)
      have hbreak : reference.core.runBreak = cpu.core.runBreak :=
        (congrArg (fun c : Cpu σ => c.core.runBreak) hr :)
      have hslice := slice_forget hbus (n - (cpu.cycles - start)) h hr
      have hticked := congrArg Slice.ticked hslice
      have hstopped : (referenceSlice bus reference (n - (cpu.cycles - start))).ticked.stopped =
          (cpu.slice bus (n - (cpu.cycles - start))).ticked.stopped :=
        (congrArg Cpu.stopped hticked :)
      rw [referenceLoop, runLoop, hcycles, hbreak]
      dsimp only
      split
      · rw [List.map_cons, List.map_cons, hslice, hstopped]
        split
        · rfl
        · rw [ih (ready_slice hbus _ h) hticked]
      · rfl

end Cpu

/-- On a bus whose lines keep their levels between ticks, a run visits, instruction by
instruction, the states and makes the accesses that a loop visits and makes which goes
through the whole prologue each time. -/
theorem run_loses_no_interrupt (bus : CpuBus σ) (hbus : LevelsHold bus)
    (cpu : Cpu (Logged σ)) (n : ℕ) :
    (cpu.runSlices bus.logged n).map Cpu.Slice.forget =
      (cpu.referenceSlices bus.logged n).map Cpu.Slice.forget := by
  have hready : cpu.beginRun.Ready bus.logged := Or.inl (Cpu.due_rebuildPending _)
  exact (Cpu.loop_forget hbus.logged cpu.cycles n n hready rfl).symm

/-- An NMI, and instructions that fill a batch and stop. -/
def parkedProgram : FlatMemory :=
  { mem := fun a => if a.toNat < 4 then 0xE8 else 0xDB
    irq := false, nmi := true, writes := [] }

theorem run_loses_no_interrupt_flat :
    ((Cpu.construct ⟨parkedProgram, []⟩ 0).runSlices flatBus.logged 100).map Cpu.Slice.forget =
      ((Cpu.construct ⟨parkedProgram, []⟩ 0).referenceSlices flatBus.logged 100).map
        Cpu.Slice.forget :=
  run_loses_no_interrupt flatBus levelsHold_flatBus _ 100

end W65C816

end ScpuEmu
