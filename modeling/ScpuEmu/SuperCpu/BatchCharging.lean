import ScpuEmu.C64.EventQueue
import ScpuEmu.Cpu.W65C816.Accesses
import ScpuEmu.Cpu.W65C816.RunBudget

/-!
# The bus time of a run

A run ticks the bus once a batch, so the accesses of a batch wait for its tick. The clock
advances as if every batch were one instruction: by the cycles of its instructions, and then
by each of their accesses.
-/

namespace ScpuEmu

open Library Timing

namespace W65C816

variable {σ : Type}

/-- A bus with the clock of the C64's memory. What an access of the core does to the clock are
elementary changes, and a tick of the bus is a tick of the clock. -/
structure ClockedBy (bus : CpuBus σ) (timing : σ → Timing) : Prop where
  read8 : ∀ s a, ∃ reports, (timing s).Acts reports (timing (bus.read8 s a).state)
  write8 : ∀ s a v, ∃ reports, (timing s).Acts reports (timing (bus.write8 s a v).state)
  rerouteVector : ∀ s vec, ∃ reports,
    (timing s).Acts reports (timing (bus.rerouteVector s vec).state)
  noteNMITaken : ∀ s, ∃ reports, (timing s).Acts reports (timing (bus.noteNMITaken s).state)
  sampleInterrupts : ∀ s, ∃ reports, (timing s).Acts reports (timing (bus.sampleInterrupts s).state)
  tick : ∀ s n, ((timing s).tickFast n).Acts [] (timing (bus.tick s n).state)
  fineTicksRequired : ∀ s, bus.fineTicksRequired s = (timing s).fineTicksRequired

namespace Cpu

variable (bus : CpuBus σ) (timing : σ → Timing)

def clock (cpu : Cpu σ) : Timing := timing cpu.core.bus

/-- The instruction leads from one state of the core to the next. -/
structure Executes (cpu next : Cpu σ) (i : Instruction) : Prop where
  reports : (cpu.clock timing).Acts i.reports (next.clock timing)
  cycles : next.cycles = cpu.cycles + i.cycles

inductive ExecutesAll : Cpu σ → List (Cpu σ) → List Instruction → Prop
  | nil (cpu : Cpu σ) : ExecutesAll cpu [] []
  | cons {cpu next : Cpu σ} {visited : List (Cpu σ)} {i : Instruction} {is : List Instruction} :
    Executes timing cpu next i → ExecutesAll next visited is →
      ExecutesAll cpu (next :: visited) (i :: is)

/-- The instructions of a slice, all but the last of which let the batch go on. -/
structure Slice.Batches (cpu : Cpu σ) (slice : Slice σ) (batch : List Instruction) : Prop where
  executes : ExecutesAll timing cpu slice.visited batch
  nonempty : batch ≠ []
  goesOn : ∀ state ∈ slice.visited.dropLast, (state.clock timing).fineTicksRequired = false

/-- The instructions of a run, slice by slice. -/
inductive RunBatches : Cpu σ → List (Slice σ) → List (List Instruction) → Prop
  | nil (cpu : Cpu σ) : RunBatches cpu [] []
  | cons {cpu : Cpu σ} {slice : Slice σ} {slices : List (Slice σ)} {batch : List Instruction}
      {batches : List (List Instruction)} :
    slice.Batches timing cpu batch → RunBatches slice.ticked slices batches →
      RunBatches cpu (slice :: slices) (batch :: batches)

section Instructions

variable {bus timing} (h : ClockedBy bus timing)

include h

theorem acts_accesses (t : Timing) :
    bus.AccessKeeps fun s => ∃ reports, t.Acts reports (timing s) where
  read8 s a hacts := acts_trans hacts (h.read8 s a)
  write8 s a v hacts := acts_trans hacts (h.write8 s a v)
  rerouteVector s vec hacts := acts_trans hacts (h.rerouteVector s vec)
  noteNMITaken s hacts := acts_trans hacts (h.noteNMITaken s)

/-- An instruction of a run, or an interrupt, accesses the bus and takes some cycles. -/
theorem executes_stepInner (cpu : Cpu σ) :
    ∃ i, Executes timing cpu (cpu.stepInner bus).2 i := by
  have hacts : ∃ reports, (cpu.clock timing).Acts reports ((cpu.stepInner bus).2.clock timing) := by
    apply onBus_stepInner (acts_accesses h (cpu.clock timing))
    · exact fun s hacts => acts_trans hacts (h.sampleInterrupts s)
    · exact ⟨[], .refl _⟩
  obtain ⟨reports, hreports⟩ := hacts
  exact ⟨⟨reports, _⟩, hreports, (counts_stepInner bus cpu).2⟩

theorem executesAll_batch (n : ℕ) (cpu : Cpu σ) :
    ∃ is, ExecutesAll timing cpu (batch bus n cpu) is := by
  induction n generalizing cpu with
  | zero => exact ⟨[], .nil cpu⟩
  | succ n ih =>
      obtain ⟨i, hi⟩ := executes_stepInner h cpu
      rw [batch]
      split
      · exact ⟨[i], .cons hi (.nil _)⟩
      · obtain ⟨is, his⟩ := ih (cpu.stepInner bus).2
        exact ⟨i :: is, .cons hi his⟩

omit h in
/-- The instructions of a batch, as one instruction. -/
theorem ExecutesAll.last {cpu : Cpu σ} {visited : List (Cpu σ)} {is : List Instruction}
    (his : ExecutesAll timing cpu visited is) :
    Executes timing cpu (visited.getLastD cpu) (.merge is) := by
  induction his with
  | nil cpu => exact ⟨.refl _, rfl⟩
  | cons hi his ih =>
      rw [List.getLastD_cons]
      refine ⟨hi.reports.trans ih.reports, ?_⟩
      rw [ih.cycles, hi.cycles, Nat.add_assoc]
      rfl

omit h in
variable (bus) in
/-- A batch goes on after all of its instructions but the last. -/
theorem goesOn_batch (n : ℕ) (cpu : Cpu σ) :
    ∀ state ∈ (batch bus n cpu).dropLast, state.sliceEnds bus = false := by
  induction n generalizing cpu with
  | zero => exact fun state hstate => absurd hstate List.not_mem_nil
  | succ n ih =>
      rw [batch]
      split
      · exact fun state hstate => absurd hstate List.not_mem_nil
      · next hgoes =>
        intro state hstate
        cases hrest : batch bus n (cpu.stepInner bus).2 with
        | nil => simp [hrest] at hstate
        | cons next rest =>
            rw [hrest, List.dropLast_cons_of_ne_nil (by simp)] at hstate
            rcases List.mem_cons.mp hstate with rfl | hstate
            · exact Bool.eq_false_iff.mpr hgoes
            · exact ih _ state (hrest ▸ hstate)

theorem batches_slice (cpu : Cpu σ) (remaining : ℕ) :
    ∃ batch, (cpu.slice bus remaining).Batches timing cpu batch := by
  obtain ⟨is, his⟩ := executesAll_batch h (batchLimit remaining) cpu
  refine ⟨is, his, ?_, ?_⟩
  · have hvisited : batch bus (batchLimit remaining) cpu ≠ [] := by
      unfold batchLimit
      split <;> simp [batch]
    rintro rfl
    cases hnone : batch bus (batchLimit remaining) cpu with
    | nil => exact hvisited hnone
    | cons next rest =>
        rw [hnone] at his
        cases his
  · intro state hstate
    have hgoes := goesOn_batch bus (batchLimit remaining) cpu state hstate
    simp only [sliceEnds, Bool.or_eq_false_iff] at hgoes
    rw [clock, ← h.fineTicksRequired]
    exact hgoes.2

omit h in
theorem Slice.Batches.last_steady {F : ℕ} {cpu : Cpu σ} {slice : Slice σ} {batch : List Instruction}
    (hbatch : slice.Batches timing cpu batch)
    (hsteady : ∀ state ∈ slice.visited.getLast?, (state.clock timing).Steady F) :
    ((slice.visited.getLastD cpu).clock timing).Steady F := by
  have hvisited : slice.visited ≠ [] := by
    intro hnone
    have hexecutes := hbatch.executes
    rw [hnone] at hexecutes
    cases hexecutes
    exact hbatch.nonempty rfl
  apply hsteady
  rw [List.getLastD_eq_getLast?, List.getLast?_eq_some_getLast hvisited]
  rfl

/-- The tick of a slice is the tick of its batch. -/
theorem dues_slice {F : ℕ} {u : Timing} {cpu : Cpu σ} {remaining : ℕ} {batch : List Instruction}
    (hbatch : (cpu.slice bus remaining).Batches timing cpu batch) (hu : u.Steady F)
    (hdues : (cpu.clock timing).dues = u.dues)
    (hsteady : (((cpu.slice bus remaining).visited.getLastD cpu).clock timing).Steady F) :
    ((cpu.slice bus remaining).ticked.clock timing).dues = (u.instruction (.merge batch)).dues := by
  have hlast := hbatch.executes.last
  obtain ⟨last, heq⟩ : ∃ last, last = (cpu.slice bus remaining).visited.getLastD cpu := ⟨_, rfl⟩
  rw [← heq] at hlast hsteady
  have htick := (h.tick last.core.bus (last.cycles - cpu.cycles)).dues rfl
  have hticked : (cpu.slice bus remaining).ticked.clock timing =
      timing (bus.tick last.core.bus (last.cycles - cpu.cycles)).state := by
    rw [heq]
    rfl
  have hcycles : last.cycles - cpu.cycles = (Instruction.merge batch).cycles := by
    rw [hlast.cycles, Nat.add_sub_cancel_left]
  have hreported : (last.clock timing).dues = (u.reported (.merge batch)).dues :=
    hlast.reports.dues hdues
  rw [hticked, htick, hcycles, instruction_eq, List.map_nil, run_nil]
  exact dues_tick_congr hsteady (steady_reported hu _) hreported _

/-- A run ticks the clock once a batch. -/
theorem dues_runLoop {F : ℕ} (start n fuel : ℕ) {u : Timing} (cpu : Cpu σ) (hu : u.Steady F)
    (hdues : (cpu.clock timing).dues = u.dues)
    (hsteady : ∀ slice ∈ runLoop bus start n fuel cpu, ∀ state ∈ slice.visited.getLast?,
      (state.clock timing).Steady F) :
    ∃ batches, RunBatches timing cpu (runLoop bus start n fuel cpu) batches ∧
      ((cpu.endOf (runLoop bus start n fuel cpu)).clock timing).dues =
        (Library.run instruction u (batches.map .merge)).dues := by
  induction fuel generalizing cpu u with
  | zero => exact ⟨[], .nil cpu, hdues⟩
  | succ fuel ih =>
      rw [runLoop] at hsteady ⊢
      split at hsteady
      next hgoes =>
        rw [if_pos hgoes]
        dsimp only at hsteady ⊢
        obtain ⟨hfirst, hrest⟩ := List.forall_mem_cons.mp hsteady
        obtain ⟨batch, hbatch⟩ := batches_slice h cpu (n - (cpu.cycles - start))
        have hticked := dues_slice h hbatch hu hdues (hbatch.last_steady hfirst)
        generalize cpu.slice bus (n - (cpu.cycles - start)) = slice at hbatch hticked hrest ⊢
        rw [endOf_cons]
        split at hrest
        next hstopped =>
          rw [if_pos hstopped]
          refine ⟨[batch], .cons hbatch (.nil _), ?_⟩
          rw [List.map_cons, List.map_nil, run_cons, run_nil]
          exact hticked
        next hruns =>
          rw [if_neg hruns]
          obtain ⟨batches, hbatches, hend⟩ :=
            ih slice.ticked (steady_instruction hu (.merge batch)) hticked hrest
          refine ⟨batch :: batches, .cons hbatch hbatches, ?_⟩
          rw [List.map_cons, run_cons]
          exact hend
      next hends =>
        rw [if_neg hends]
        exact ⟨[], .nil cpu, hdues⟩

omit h in
theorem RunBatches.nonempty {cpu : Cpu σ} {slices : List (Slice σ)}
    {batches : List (List Instruction)} (hbatches : RunBatches timing cpu slices batches) :
    ∀ batch ∈ batches, batch ≠ [] := by
  induction hbatches with
  | nil => exact List.forall_mem_nil _
  | cons hbatch _ ih => exact List.forall_mem_cons.mpr ⟨hbatch.nonempty, ih⟩

end Instructions

variable {bus timing}

/-- With the stretch on and at a constant turbo factor, a run over any budget advances the
clock as if each of its batches were one instruction. The tick of a batch charges all of its
accesses, each once and in program order, as long as the queue holds them. Where only the last
instruction of each batch makes accesses, a tick after every instruction gives the same clock. -/
theorem run_charges_batches (hbus : ClockedBy bus timing) {F : ℕ} (cpu : Cpu σ) (n : ℕ)
    (hstart : (cpu.clock timing).Steady F) (hempty : (cpu.clock timing).busEvents = [])
    (hsteady : ∀ slice ∈ cpu.runSlices bus n, ∀ state ∈ slice.visited.getLast?,
      (state.clock timing).Steady F) :
    ∃ batches, RunBatches timing cpu.beginRun (cpu.runSlices bus n) batches ∧
      let start := cpu.clock timing
      let clock := ((cpu.run bus n).2.clock timing).emuCycles
      clock = (Library.run instruction start (batches.map .merge)).emuCycles ∧
      (∀ before batch after, batches = before ++ batch :: after →
        (batch.flatMap start.events).length ≤ busEventCapacity →
        let t := Library.run instruction start (before.map .merge)
        (t.instruction (.merge batch)).emuCycles =
          ((batch.flatMap start.events).foldl (chargeEvent F)
            ((t.reported (.merge batch)).advance (Instruction.merge batch).cycles)).emuCycles) ∧
      ((∀ batch ∈ batches, start.QuietBeforeLast batch) →
        clock = (Library.run instruction start batches.flatten).emuCycles) := by
  obtain ⟨batches, hbatches, hend⟩ :=
    dues_runLoop hbus cpu.cycles n n cpu.beginRun hstart rfl hsteady
  have hclock : ((cpu.run bus n).2.clock timing).emuCycles =
      (Library.run instruction (cpu.clock timing) (batches.map .merge)).emuCycles :=
    congrArg Dues.emuCycles hend
  refine ⟨batches, hbatches, hclock, ?_, ?_⟩
  · intro before batch after _ hroom t
    obtain ⟨hqueue, hevents⟩ := run_instruction hstart hempty (before.map .merge)
    have hsteady' : t.Steady F := (accounted_run hstart _).2
    rw [← hevents] at hroom ⊢
    exact emuCycles_batch hsteady' hqueue hroom
  · intro hquiet
    have hflat := dues_batches hstart hstart rfl hempty fun batch hbatch =>
      ⟨hbatches.nonempty batch hbatch, hquiet batch hbatch⟩
    exact hclock.trans (congrArg Dues.emuCycles hflat)

end Cpu

/-! A bus whose I/O area makes every access one to the C64's bus, and a program of eight
instructions, the first of which writes $D020. -/

structure ClockedMemory where
  mem : BitVec 24 → Byte
  timing : Timing

def ClockedMemory.note (s : ClockedMemory) (a : BitVec 24) (write : Bool) : ClockedMemory :=
  if 0xD000 ≤ a.toNat ∧ a.toNat < 0xE000 then
    { s with timing := s.timing.noteBusAccess (a.setWidth 16) write }
  else s

def ClockedMemory.write (s : ClockedMemory) (a : BitVec 24) (v : Byte) : ClockedMemory :=
  { s.note a true with mem := fun b => if b = a then v else s.mem b }

def clockedBus : CpuBus ClockedMemory where
  read8 s a := ⟨s.mem a, false, s.note a false⟩
  write8 s a v := ⟨(), false, s.write a v⟩
  irqAsserted s := ⟨false, false, s⟩
  nmiAsserted s := ⟨false, false, s⟩
  sampleInterrupts s := ⟨(false, false), false, s⟩
  tick s n := ⟨(), false, { s with timing := s.timing.tickFast n }⟩
  fineTicksRequired s := s.timing.fineTicksRequired
  interruptRerouteActive _ _ := false
  rerouteVector s vec := ⟨vec, false, s⟩
  noteNMITaken s := ⟨(), false, s⟩

theorem acts_note (s : ClockedMemory) (a : BitVec 24) (write : Bool) :
    ∃ reports, s.timing.Acts reports (s.note a write).timing := by
  unfold ClockedMemory.note
  split
  · exact ⟨_, [.noteBusAccess _ write], ⟨trivial, trivial⟩, rfl, rfl⟩
  · exact ⟨_, .refl _⟩

theorem clockedBy_clockedBus : ClockedBy clockedBus ClockedMemory.timing where
  read8 s a := acts_note s a false
  write8 s a _ := acts_note s a true
  rerouteVector s _ := ⟨[], .refl s.timing⟩
  noteNMITaken s := ⟨[], .refl s.timing⟩
  sampleInterrupts s := ⟨[], .refl s.timing⟩
  tick s n := by
    dsimp only [clockedBus]
    exact .refl _
  fineTicksRequired _ := rfl

/-- STA $D020, seven NOPs, and STP. -/
def borderProgram (a : BitVec 24) : Byte :=
  match a.toNat with
  | 0 => 0x8D
  | 1 => 0x20
  | 2 => 0xD0
  | 10 => 0xDB
  | _ => 0xEA

def borderCpu : Cpu ClockedMemory :=
  .construct ⟨borderProgram, { Timing.construct with pacingCheckCycles := 20 }⟩ 0

theorem run_charges_batches_border :
    ∃ batches, Cpu.RunBatches ClockedMemory.timing borderCpu.beginRun
        (borderCpu.runSlices clockedBus 100) batches ∧
      ((borderCpu.run clockedBus 100).2.clock ClockedMemory.timing).emuCycles =
        (Library.run instruction (borderCpu.clock ClockedMemory.timing)
          (batches.map .merge)).emuCycles := by
  have hstart : (borderCpu.clock ClockedMemory.timing).Steady 20 := ⟨rfl, by decide, rfl⟩
  have hsteady : ∀ slice ∈ borderCpu.runSlices clockedBus 100, ∀ state ∈ slice.visited.getLast?,
      (state.clock ClockedMemory.timing).Steady 20 := by
    decide +kernel
  obtain ⟨batches, hbatches, hclock, -⟩ :=
    Cpu.run_charges_batches clockedBy_clockedBus borderCpu 100 hstart rfl hsteady
  exact ⟨batches, hbatches, hclock⟩

/-- The program ends at 23 when it is run, and at 37 when it is stepped: the write completes a
cycle of the C64 that the NOPs of its batch have filled. -/
theorem batch_hides_stretch :
    let ran := (borderCpu.run clockedBus 100).2
    let stepped := (fun cpu => (cpu.step clockedBus).2)^[9] borderCpu
    ran.regs.pc = stepped.regs.pc ∧ ran.stopped = true ∧ stepped.stopped = true ∧
      ran.cycles = stepped.cycles ∧ (ran.clock ClockedMemory.timing).emuCycles = 23 ∧
      (stepped.clock ClockedMemory.timing).emuCycles = 37 := by
  decide +kernel

end W65C816

end ScpuEmu
