import ScpuEmu.C64.FetchCoherence
import ScpuEmu.C64.FrameRules
import ScpuEmu.SuperCpu.Presentation

/-!
# The accelerator as the mirror sees it

What the write buffer depends on: the fetch state of the memory, RAM, the buffer itself and
the record. Each of them changes by a few kinds of events only, and a step of the accelerator
is a sequence of such events, whatever the program, the transfers it starts and their nesting.
-/

namespace ScpuEmu

open Library

structure MirrorState where
  fetch : Fetch
  ram : Addr → Byte
  buffer : WriteBuffer
  events : List BusEvent

/-- An event that changes what the mirror sees. -/
inductive MirrorEvent
  | note (event : BusEvent)
  | busWrite (a : Addr) (value : Byte)
  | sampleSerial (value : Byte)
  | chipWrite (a : Addr) (value : Byte)
  | policy (mode : SCPUOptMode) (exclude : Bool)
  | store (a : Addr) (value : Byte)
  | countRow
  | countDelivered
  | countExhausted
  | claim (v : Byte) (r : ℕ)
  | pointer (a : Addr) (value : Byte)
  | refreshBlocks
  | accessible (on : Bool)
  | discard
  | reset
  | work (work : MirrorWork)

namespace Fetch

variable (f : Fetch) (ram : Addr → Byte)

/-- After any change of what the pointer row depends on. -/
def refreshed : Fetch := f.updateSpritePtrBase.updateHotShapeBlocks ram

/-- What `trackChipWrite` does to these fields. -/
def trackedChip (a : Addr) (v : Byte) : Fetch :=
  if a = 0xDD00 then { f with cia2PortALatch := v, haveCIA2PortALatch := true }.refreshed ram
  else if 0xD000#16 ≤ a ∧ a < 0xD200#16 ∧ a.setWidth 6 = 0x18#6 then
    { f with lastD018 := v }.refreshed ram
  else if a = 0xDD02 then { f with cia2DDRA := v, haveCIA2DDRA := true }.refreshed ram
  else f

/-- What `trackVICWrite` does to these fields. -/
def trackedVIC (reg : BitVec 6) (v : Byte) : Fetch :=
  let f := { f with vicRegShadow := Function.update f.vicRegShadow reg v }
  if reg = 0x15 then f.updateHotShapeBlocks ram else f

def chipWritten (a : Addr) (v : Byte) : Fetch :=
  let f := f.trackedChip ram a v
  if 0xD000#16 ≤ a ∧ a < 0xD200#16 then f.trackedVIC ram (a.setWidth 6) v else f

end Fetch

section ChipWrites

variable {ω : Type}

theorem trackChipWrite_spec (a : Addr) (v : Byte) (s : Machine ω) :
    ((trackChipWrite a v).run s).2.memory.fetch = s.memory.fetch.trackedChip s.memory.ram a v ∧
      ((trackChipWrite a v).run s).2.memory.ram = s.memory.ram ∧
      ((trackChipWrite a v).run s).2.outside = s.outside := by
  have hnote (P : Prop) [Decidable P] (g : Timing → Timing) (s : Machine ω) :
      ((onlyIf P (modifyTiming g)).run s).2.memory.fetch = s.memory.fetch ∧
        ((onlyIf P (modifyTiming g)).run s).2.memory.ram = s.memory.ram ∧
        ((onlyIf P (modifyTiming g)).run s).2.outside = s.outside := by
    unfold onlyIf
    split <;> exact ⟨rfl, rfl, rfl⟩
  rw [trackChipWrite, run_bind, run_getMemory, Fetch.trackedChip]
  dsimp only
  split
  · exact hnote _ _ _
  split
  · exact ⟨rfl, rfl, rfl⟩
  split
  · exact hnote _ _ _
  · exact hnote _ _ _

theorem trackVICWrite_fetch (perLine : BitVec 32) (reg : BitVec 6) (v : Byte) (m : CC64Memory) :
    (trackVICWrite perLine reg v m).fetch = m.fetch.trackedVIC m.ram reg v := by
  rw [(trackVICWrite_spec perLine reg v m).1, Fetch.trackedVIC]

/-- A write of a chip. Of all that stands around, it concerns the bus. -/
theorem chipWrite_spec (env : Surroundings ω) (a : Addr) (v : Byte) (s : Machine ω) :
    ∃ m : CC64Memory, m.fetch = s.memory.fetch.chipWritten s.memory.ram a v ∧
      m.ram = s.memory.ram ∧
      ((chipWrite env a v).run s).2 = ((busWrite env a v).run ⟨m, s.outside⟩).2 := by
  obtain ⟨hfetch, hram, houtside⟩ := trackChipWrite_spec a v s
  rw [chipWrite, run_bind]
  generalize ((trackChipWrite a v).run s).2 = s' at hfetch hram houtside ⊢
  rw [run_bind, run_modifyMemory, run_bind, run_get, run_bind, Fetch.chipWritten, ← hfetch, ← hram,
    ← houtside]
  obtain ⟨m, hm⟩ : ∃ m, m = { s'.memory with ioWrites := s'.memory.ioWrites + 1 } := ⟨_, rfl⟩
  rw [← hm, show s'.memory.fetch = m.fetch by rw [hm], show s'.memory.ram = m.ram by rw [hm]]
  unfold onlyIf
  split
  · obtain ⟨-, hkept⟩ := trackVICWrite_spec (cyclesPerLine env s'.outside) (a.setWidth 6) v m
    rw [← trackVICWrite_fetch (cyclesPerLine env s'.outside), ← hkept]
    refine ⟨_, ?_, ?_, rfl⟩ <;> rfl
  · refine ⟨_, ?_, ?_, rfl⟩ <;> rfl

end ChipWrites

namespace MirrorState

variable (x : MirrorState)

/-- What the sink of stores reaches of the memory. -/
def view : View where
  ram := some x.ram
  hotBlocks := some x.fetch.hotShapeBlocks
  hotBlocksGeneration := some x.fetch.hotShapeGeneration
  relocation := some x.fetch.relocation

def commitsPointer (a : Addr) (v : Byte) : Bool :=
  decide (1 < a) && decide ((a &&& ~~~7#16).setWidth 32 = x.fetch.spritePtrBase) &&
    decide (x.ram a ≠ v)

def note (event : BusEvent) : MirrorState := { x with events := event :: x.events }

/-- The sink hears of a store. -/
def tell (a : Addr) (v : Byte) : MirrorState :=
  { x with
    buffer := (x.buffer.onRamWrite x.view a v).1
    events := .storeRAM a v (x.commitsPointer a v) :: x.events }

def put (a : Addr) (v : Byte) : MirrorState := { x with ram := Function.update x.ram a v }

/-- The sink hears of the last bytes of a shape again. -/
def replay (v : Byte) : ℕ → MirrorState → MirrorState
  | 0, x => x
  | left + 1, x =>
      let a := 0xC000#16 + v.setWidth 16 <<< 6 + BitVec.ofNat 16 (63 - left)
      replay v left (x.tell a (x.ram a))

/-- A call of the write buffer, as the record shows it. -/
def serve : BusCall → MirrorState
  | .writeBurst burst => burst.foldl (fun x y => x.note (.write y.addr y.value)) x
  | .readRAM _ => x

def apply (x : MirrorState) : MirrorEvent → MirrorState
  | .note event => x.note event
  | .busWrite a v => x.note (.write a v)
  | .sampleSerial v =>
      { x with fetch := { x.fetch with lastCIA2PortARead := v, haveCIA2PortARead := true } }
  | .chipWrite a v => { x with fetch := x.fetch.chipWritten x.ram a v }.note (.write a v)
  | .policy mode exclude =>
      { x with buffer := (x.buffer.setExcludeZeroPageStack exclude).setOptMode mode }
  | .store a v => (x.tell a v).put a v
  | .countRow => { x with fetch := { x.fetch with ptrRowWrites := x.fetch.ptrRowWrites + 1 } }
  | .countDelivered =>
      { x with fetch := { x.fetch with relocDelivered := x.fetch.relocDelivered + 1 } }
  | .countExhausted =>
      { x with fetch := { x.fetch with relocExhausted := x.fetch.relocExhausted + 1 } }
  | .claim v r => replay v 64 { x with fetch := x.fetch.claimReloc v r }
  | .pointer a v => x.note (.write a v)
  | .refreshBlocks => { x with fetch := x.fetch.updateHotShapeBlocks x.ram }
  | .accessible on =>
      { x with
        fetch := x.fetch.setRAMUnderIOAccessible x.ram on
        buffer := x.buffer.setRAMUnderIOAccessible on }
  | .discard => { x with buffer := x.buffer.discard }
  | .reset => { x with fetch := x.fetch.reset x.ram, ram := fun _ => 0 }
  | .work work =>
      let (buffer, calls) := work.perform x.buffer x.view
      calls.foldl serve ({ x with buffer := buffer }.note .mirrorWork)

end MirrorState

namespace MirrorEvent

/-- When an event can happen. -/
def Enabled (x : MirrorState) : MirrorEvent → Prop
  | .note event => (∃ a v, event = .register a v) ∨ event = .time
  | .busWrite a _ => isHostDecoded a = true ∨ a = 0x02FE
  | .claim v r => x.fetch.relocates v = true ∧
      x.fetch.relocation.ptrReloc (v.toNat - 0x40) = 0xFF#8 ∧
      x.fetch.freeRelocBlock = some r
  | .pointer a _ => x.fetch.InRow a
  | _ => True

/-- The events of an access, changes of the policy apart. -/
def OfAccess : MirrorEvent → Prop
  | .policy _ _ | .accessible _ | .discard | .reset | .work _ => False
  | _ => True

end MirrorEvent

/-- Events of a kind lead from one state to another. -/
def MirrorState.Traces (L : MirrorEvent → Prop) (x y : MirrorState) : Prop :=
  ∃ events : List MirrorEvent, (∀ e ∈ events, L e) ∧
    AllSteps MirrorState.apply MirrorEvent.Enabled x events ∧ run MirrorState.apply x events = y

namespace MirrorState.Traces

variable {L : MirrorEvent → Prop} {x y : MirrorState}

theorem refl (x : MirrorState) : Traces L x x := ⟨[], by simp, trivial, rfl⟩

theorem snoc (h : Traces L x y) {e : MirrorEvent} (hL : L e) (he : e.Enabled y) :
    Traces L x (y.apply e) := by
  obtain ⟨events, hevents, hsteps, rfl⟩ := h
  refine ⟨events ++ [e], ?_, ?_, ?_⟩
  · simp only [List.mem_append, List.mem_singleton]
    rintro e' (he' | rfl)
    · exact hevents e' he'
    · exact hL
  · exact (allSteps_append _ _ _ _ _).mpr ⟨hsteps, he, trivial⟩
  · exact run_append _ _ _ _

end MirrorState.Traces

namespace System

variable {ρ : Type} (s : System ρ)

/-- What the mirror sees of the accelerator. -/
def mirrorState : MirrorState :=
  ⟨s.memory.fetch, s.memory.ram, s.accelerator.buffer, s.accelerator.events⟩

theorem view_mirrorState : s.mirrorState.view = s.memory.view := rfl

end System

section Quiet

variable {ρ : Type} (c : SuperCpu ρ) (host : IREUHost (HostSide (Accelerator ρ)))
  {J : MirrorState → Prop} {α : Type}

/-- A property of what the mirror sees. -/
def OnMirror (J : MirrorState → Prop) (h : HostSide (Accelerator ρ)) : Prop :=
  J ⟨h.memory.fetch, h.memory.ram, h.rest.buffer, h.rest.events⟩

/-! ### What the mirror does not see -/

theorem mirror_modifyMemory {g : CC64Memory → CC64Memory} (hf : ∀ m, (g m).fetch = m.fetch)
    (hr : ∀ m, (g m).ram = m.ram) :
    Keeps (OnHost (OnMirror J)) (modifyMemory g : MemoryM (WithREU (Accelerator ρ)) PUnit) := by
  intro s h
  show J ⟨(g s.memory).fetch, (g s.memory).ram, s.outside.rest.buffer, s.outside.rest.events⟩
  rw [hf, hr]
  exact h

theorem mirror_modifyTiming (g : Timing → Timing) :
    Keeps (OnHost (OnMirror J)) (modifyTiming g : MemoryM (WithREU (Accelerator ρ)) PUnit) :=
  fun _ h => h

theorem mirror_callOutside {op : WithREU (Accelerator ρ) → α × WithREU (Accelerator ρ)}
    (hbuffer : ∀ o, (op o).2.rest.buffer = o.rest.buffer)
    (hevents : ∀ o, (op o).2.rest.events = o.rest.events) :
    Keeps (OnHost (OnMirror J)) (callOutside op) := by
  intro s h
  show J ⟨s.memory.fetch, s.memory.ram, (op s.outside).2.rest.buffer, (op s.outside).2.rest.events⟩
  rw [hbuffer, hevents]
  exact h

theorem mirror_busRead (a : Addr) :
    Keeps (OnHost (OnMirror J)) (busRead (c.board.surroundings host) a) :=
  mirror_callOutside (fun _ => rfl) fun _ => rfl

theorem mirror_resyncPacing :
    Keeps (OnHost (OnMirror J)) (resyncPacing (c.board.surroundings host)) := by
  refine keeps_bind (mirror_modifyTiming _) fun _ => ?_
  exact keeps_bind (mirror_callOutside (fun _ => rfl) fun _ => rfl) fun _ => mirror_modifyTiming _

theorem mirror_setPacing (hostRate : BitVec 64) (hz : ℕ) :
    Keeps (OnHost (OnMirror J)) (setPacing (c.board.surroundings host) hostRate hz) := by
  refine keeps_bind (mirror_modifyTiming _) fun _ => ?_
  apply keeps_ite
  · exact mirror_modifyTiming _
  · exact keeps_bind (mirror_modifyTiming _) fun _ => mirror_resyncPacing c host

theorem mirror_selectSpeeds (speeds : List (BitVec 64 × ℕ)) :
    Keeps (OnHost (OnMirror J)) (selectSpeeds c.board.bare speeds) := by
  induction speeds with
  | nil => exact keeps_pure _
  | cons speed speeds ih =>
      have hpacing : Keeps (OnHost (OnMirror J)) (setPacing c.board.bare speed.1 speed.2) :=
        mirror_setPacing c ⟨fun m _ => (0, m), fun m _ _ => m⟩ speed.1 speed.2
      exact keeps_bind hpacing fun _ => keeps_bind (mirror_modifyTiming _) fun _ => ih

theorem mirror_sampleIRQNMIFast :
    Keeps (OnHost (OnMirror J)) (sampleIRQNMIFast (c.board.surroundings host)) := by
  refine keeps_bind ?_ fun _ => keeps_getMemory_bind fun _ => keeps_pure _
  refine keeps_bind (mirror_modifyTiming _) fun _ => ?_
  refine keeps_getMemory_bind fun m => keeps_onlyIf ?_
  exact keeps_bind (mirror_callOutside (fun _ => rfl) fun _ => rfl) fun _ => mirror_modifyTiming _

theorem mirror_chipValue (a : Addr) :
    Keeps (OnHost (OnMirror J)) (chipValue (c.board.surroundings host) a) := by
  refine keeps_get_bind' fun s => ?_
  refine keeps_ite (mirror_callOutside (fun _ => rfl) fun _ => rfl) ?_
  refine keeps_ite (mirror_callOutside (fun _ => rfl) fun _ => rfl) ?_
  refine keeps_ite (keeps_pure _) ?_
  refine keeps_bind (mirror_busRead c host a) fun v => ?_
  exact keeps_ite (keeps_pure _) (keeps_ite (keeps_pure _) (keeps_pure _))

end Quiet

/-! ### What the mirror sees -/

namespace SuperCpu

variable {ρ : Type} (c : SuperCpu ρ)

/-- Some write of a register selects a policy. -/
def Selects (mode : SCPUOptMode) (exclude : Bool) : Prop :=
  ∃ r lines a v, c.policy r lines a v = some (mode, exclude)

/-- What the events of accesses keep. -/
structure KeptByEvents (J : MirrorState → Prop) : Prop where
  access : ∀ x (e : MirrorEvent), e.OfAccess → e.Enabled x → J x → J (x.apply e)
  policy : ∀ x mode exclude, c.Selects mode exclude → J x → J (x.apply (.policy mode exclude))

end SuperCpu

section Events

variable {ρ : Type} {c : SuperCpu ρ} (host : IREUHost (HostSide (Accelerator ρ)))
  {J : MirrorState → Prop} (hJ : c.KeptByEvents J)
include hJ

theorem mirror_busWrite {a : Addr} (ha : isHostDecoded a = true ∨ a = 0x02FE) (v : Byte) :
    Keeps (OnHost (OnMirror J)) (busWrite (c.board.surroundings host) a v) :=
  fun _ h => hJ.access _ (.busWrite a v) trivial ha h

theorem mirror_tickFast (n : ℕ) :
    Keeps (OnHost (OnMirror J)) (tickFast (c.board.surroundings host) n) := by
  refine keeps_getMemory_bind fun m => ?_
  refine keeps_bind (mirror_modifyTiming _) fun _ => ?_
  refine keeps_getMemory_bind fun m' => ?_
  refine keeps_ite (keeps_pure _) ?_
  refine keeps_bind (mirror_modifyTiming _) fun _ => keeps_onlyIf ?_
  refine keeps_bind (mirror_callOutside (fun _ => rfl) fun _ => rfl) fun now => ?_
  refine keeps_bind ?_ fun now' => ?_
  · refine keeps_getMemory_bind fun m'' => ?_
    refine keeps_ite ?_ (keeps_pure _)
    refine keeps_bind
      (fun s h => hJ.access _ (.busWrite 0x02FE 0xA6) trivial (Or.inr rfl) h) fun _ => ?_
    refine keeps_bind (mirror_callOutside (fun _ => rfl) fun _ => rfl) fun _ => ?_
    refine keeps_get_bind' fun s => ?_
    exact keeps_bind (mirror_modifyTiming _) fun _ => keeps_pure _
  · refine keeps_getMemory_bind fun m'' => ?_
    refine keeps_bind (keeps_ite (keeps_pure _) (mirror_callOutside (fun _ => rfl) fun _ => rfl))
      fun _ => ?_
    exact mirror_modifyTiming _

/-! ### Stores -/

omit hJ in
theorem replayShape_mirrorState (v : Byte) (n : ℕ) (s : System ρ) :
    System.mirrorState ((replayShape (c.board.surroundings host) v n).run s).2 =
      MirrorState.replay v n s.mirrorState := by
  induction n generalizing s with
  | zero => rfl
  | succ n ih =>
      rw [replayShape, run_bind, ih]
      rfl

theorem mirror_allocRelocBlock {v : Byte} {s : System ρ}
    (hrelocates : s.memory.fetch.relocates v = true)
    (hfresh : s.memory.fetch.relocation.ptrReloc (v.toNat - 0x40) = 0xFF#8)
    (h : OnHost (OnMirror J) s) :
    OnHost (OnMirror J) ((allocRelocBlock (c.board.surroundings host) v).run s).2 := by
  rw [allocRelocBlock, run_bind, run_getMemory]
  dsimp only
  cases hfree : s.memory.fetch.freeRelocBlock with
  | none => exact h
  | some r =>
      have hclaimed := hJ.access s.mirrorState (.claim v r) trivial ⟨hrelocates, hfresh, hfree⟩ h
      rw [MirrorState.apply] at hclaimed
      dsimp only
      generalize 64 = n at hclaimed ⊢
      have hreplayed := replayShape_mirrorState (c := c) host v n
        ⟨s.memory.mapFetch fun f => f.claimReloc v r, s.outside⟩
      rw [run_bind, run_modifyMemory, run_bind]
      show J (System.mirrorState ((replayShape (c.board.surroundings host) v n).run
        ⟨s.memory.mapFetch fun f => f.claimReloc v r, s.outside⟩).2)
      rw [hreplayed]
      exact hclaimed

theorem mirror_relocPointerValue (v : Byte) :
    Keeps (OnHost (OnMirror J)) (relocPointerValue (c.board.surroundings host) v) := by
  have hdelivered : Keeps (OnHost (OnMirror J))
      (noteRelocDelivered : MemoryM (WithREU (Accelerator ρ)) PUnit) :=
    fun _ h => hJ.access _ .countDelivered trivial trivial h
  have hexhausted : Keeps (OnHost (OnMirror J))
      (noteRelocExhausted : MemoryM (WithREU (Accelerator ρ)) PUnit) :=
    fun _ h => hJ.access _ .countExhausted trivial trivial h
  intro s h
  rw [relocPointerValue, run_bind, run_getMemory]
  dsimp only
  split
  · exact h
  next hrelocates =>
    rw [Bool.not_eq_false] at hrelocates
    split
    · exact keeps_bind hdelivered (fun _ => keeps_pure _) s h
    next hfresh =>
      rw [not_not] at hfresh
      have halloc := mirror_allocRelocBlock host hJ hrelocates hfresh h
      rw [run_bind]
      generalize (allocRelocBlock (c.board.surroundings host) v).run s = done at halloc ⊢
      split
      · exact keeps_bind hexhausted (fun _ => keeps_pure _) _ halloc
      · exact keeps_bind hdelivered (fun _ => keeps_pure _) _ halloc

omit hJ in
theorem onMirror_busWrite (a : Addr) (v : Byte) (s : System ρ) :
    OnHost (OnMirror J) ((busWrite (c.board.surroundings host) a v).run s).2 ↔
      J (s.mirrorState.note (.write a v)) := Iff.rfl

omit hJ in
theorem onMirror_busWriteRAM (a : Addr) (v : Byte) (s : System ρ) :
    OnHost (OnMirror J) ((busWriteRAM (c.board.surroundings host) a v).run s).2 ↔
      J (s.mirrorState.note (.write a v)) := Iff.rfl

omit hJ in
/-- There is a bus. -/
theorem deliverPointer_eq (a : Addr) (v : Byte) :
    deliverPointer (c.board.surroundings host) a v = (do
      let delivered ← relocPointerValue (c.board.surroundings host) v
      let m ← getMemory
      if m.fetch.ramUnderIOAccessible = true ∧ 0xD000#16 ≤ a ∧ a ≤ 0xDFFF#16 then
        busWriteRAM (c.board.surroundings host) a delivered
      else busWrite (c.board.surroundings host) a delivered) := rfl

theorem mirror_commitPointer {a : Addr} (v : Byte) {s : System ρ} (hrow : s.memory.fetch.InRow a)
    (h : OnHost (OnMirror J) s) :
    OnHost (OnMirror J) ((commitPointer (c.board.surroundings host) a v).run s).2 := by
  have hvalue := mirror_relocPointerValue host hJ v s h
  obtain ⟨hfetch, -⟩ := relocPointerValue_spec (c.board.surroundings host) v s
  have hdelivered :
      OnHost (OnMirror J) ((deliverPointer (c.board.surroundings host) a v).run s).2 := by
    rw [deliverPointer_eq, run_bind]
    generalize (relocPointerValue (c.board.surroundings host) v).run s = done at hvalue hfetch ⊢
    have hrow' : done.2.memory.fetch.InRow a := by
      unfold Fetch.InRow
      rw [hfetch, (Fetch.afterPointer_base _ v).1]
      exact hrow
    have hsent := hJ.access (System.mirrorState done.2) (.pointer a done.1) trivial hrow' hvalue
    rw [run_bind, run_getMemory]
    dsimp only
    split
    · exact (onMirror_busWriteRAM host a done.1 done.2).mpr hsent
    · exact (onMirror_busWrite host a done.1 done.2).mpr hsent
  have hrefresh : Keeps (OnHost (OnMirror J)) (modifyMemory fun m => m.mapFetch fun f =>
      f.updateHotShapeBlocks m.ram : MemoryM (WithREU (Accelerator ρ)) PUnit) :=
    fun _ h => hJ.access _ .refreshBlocks trivial trivial h
  rw [commitPointer, run_bind, run_bind]
  generalize (deliverPointer (c.board.surroundings host) a v).run s = done at hdelivered ⊢
  have hrefreshed := hrefresh _ hdelivered
  exact mirror_modifyMemory (fun _ => rfl) (fun _ => rfl) _ hrefreshed

omit hJ in
theorem mirrorWrite_mirrorState (a : Addr) (v : Byte) (s : System ρ) :
    System.mirrorState ((mirrorWrite (c.board.surroundings host) a v).run s).2 =
      s.mirrorState.tell a v := by
  show System.mirrorState ((get >>= fun s' => callOutside (fun _ => _) >>= fun accepted =>
    onlyIf _ (modifyTiming Timing.noteMirrorWrite) :
      MemoryM (WithREU (Accelerator ρ)) PUnit).run s).2 = _
  rw [run_bind, run_get, run_bind, run_callOutside]
  unfold onlyIf
  split <;> rfl

theorem mirror_storeByte (a : Addr) (v : Byte) :
    Keeps (OnHost (OnMirror J)) (mirrorWrite (c.board.surroundings host) a v >>= fun _ =>
      modifyMemory fun m => { m with ram := Function.update m.ram a v }) := by
  intro s h
  have hstored := hJ.access (System.mirrorState s) (.store a v) trivial trivial h
  rw [MirrorState.apply, ← mirrorWrite_mirrorState (c := c) host] at hstored
  exact hstored

theorem mirror_noteSpritePointerWrite {a : Addr} (old v : Byte) {s : System ρ}
    (hrow : s.memory.fetch.InRow a) (h : OnHost (OnMirror J) s) :
    OnHost (OnMirror J) ((noteSpritePointerWrite (c.board.surroundings host) a old v).run s).2 := by
  have hcounted := hJ.access s.mirrorState .countRow trivial trivial h
  rw [noteSpritePointerWrite, run_bind, run_modifyMemory]
  unfold onlyIf
  split
  · exact mirror_commitPointer host hJ v hrow hcounted
  · exact hcounted

variable (hhook : Keeps (OnHost (OnMirror J)) (callFF00Hook (c.board.surroundings host)))
include hhook

theorem mirror_storeRAM (a : Addr) (v : Byte) :
    Keeps (OnHost (OnMirror J)) (storeRAM (c.board.surroundings host) a v) := by
  intro s h
  have hcounted : OnHost (OnMirror J)
      ⟨{ s.memory with ramWrites := s.memory.ramWrites + 1 }, s.outside⟩ := h
  have hstored := mirror_storeByte host hJ a v _ hcounted
  rw [storeRAM, run_bind, run_getMemory, run_bind, run_modifyMemory]
  rw [run_bind] at hstored
  rw [run_bind, run_bind]
  generalize ((mirrorWrite (c.board.surroundings host) a v).run _).2 = s' at hstored ⊢
  rw [run_modifyMemory] at hstored ⊢
  generalize (⟨_, s'.outside⟩ : System ρ) = s'' at hstored ⊢
  rw [noteRAMWriteSideEffects, run_bind, run_getMemory, run_bind]
  apply keeps_onlyIf hhook
  unfold onlyIf
  split
  next hrow => exact mirror_noteSpritePointerWrite host hJ _ v hrow hstored
  next => exact hstored

/-! ### The chips -/

omit hhook in
theorem mirror_chipRead (a : Addr) :
    Keeps (OnHost (OnMirror J)) (chipRead (c.board.surroundings host) a) := by
  refine keeps_bind (mirror_modifyMemory (fun _ => rfl) fun _ => rfl) fun _ => ?_
  refine keeps_bind (mirror_modifyTiming _) fun _ => ?_
  refine keeps_bind (mirror_chipValue c host a) fun v => ?_
  refine keeps_bind (keeps_onlyIf (mirror_modifyTiming _)) fun _ => ?_
  refine keeps_bind (keeps_onlyIf ?_) fun _ => ?_
  · refine keeps_getMemory_bind fun m => ?_
    refine keeps_bind (fun _ h => hJ.access _ (.sampleSerial v) trivial trivial h) fun _ => ?_
    exact keeps_onlyIf (mirror_modifyTiming _)
  · exact keeps_bind (keeps_onlyIf (mirror_modifyTiming _)) fun _ => keeps_pure v

omit hJ hhook in
theorem chipWrite_mirrorState (a : Addr) (v : Byte) (s : System ρ) :
    System.mirrorState ((chipWrite (c.board.surroundings host) a v).run s).2 =
      s.mirrorState.apply (.chipWrite a v) := by
  obtain ⟨m, hfetch, hram, hrun⟩ := chipWrite_spec (c.board.surroundings host) a v s
  rw [hrun]
  exact congrArg₂ (fun f ram => MirrorState.note ⟨f, ram, s.outside.rest.buffer,
    s.outside.rest.events⟩ (.write a v)) hfetch hram

omit hhook in
theorem mirror_chipWrite (a : Addr) (v : Byte) :
    Keeps (OnHost (OnMirror J)) (chipWrite (c.board.surroundings host) a v) := by
  intro s h
  show J (System.mirrorState ((chipWrite (c.board.surroundings host) a v).run s).2)
  rw [chipWrite_mirrorState]
  exact hJ.access (System.mirrorState s) (.chipWrite a v) trivial trivial h

omit hhook in
theorem mirror_writePort (a : Addr) (v : Byte) :
    Keeps (OnHost (OnMirror J)) (writePort (c.board.surroundings host) a v) := by
  refine keeps_bind ?_ fun _ => ?_
  · exact mirror_modifyMemory (fun m => by split <;> rfl) fun m => by split <;> rfl
  refine keeps_bind (fun _ h => h) fun _ => ?_
  exact mirror_storeByte host hJ a v

end Events

/-! ### With the devices -/

section Devices

variable {ρ : Type} {c : SuperCpu ρ} {host : IREUHost (HostSide (Accelerator ρ))}
  {J : MirrorState → Prop} (hJ : c.KeptByEvents J)
  (henv : (c.board.surroundings host).Keeps (OnHost (OnMirror J)))
include hJ henv

omit hJ in
theorem mirror_callFF00Hook :
    Keeps (OnHost (OnMirror J)) (callFF00Hook (c.board.surroundings host)) :=
  keeps_modify (henv.ff00Hook _ rfl)

theorem mirror_ioRead (a : Addr) :
    Keeps (OnHost (OnMirror J)) (ioRead (c.board.surroundings host) a) := by
  refine keeps_bind (fun s h => henv.ioRead _ rfl s a h) fun answer => ?_
  cases answer with
  | none => exact mirror_chipRead host hJ a
  | some v =>
      refine keeps_get_bind' fun s => ?_
      exact keeps_bind (keeps_onlyIf (mirror_modifyTiming _)) fun _ => keeps_pure v

theorem mirror_ioWrite (a : Addr) (v : Byte) :
    Keeps (OnHost (OnMirror J)) (ioWrite (c.board.surroundings host) a v) := by
  refine keeps_bind (fun s h => henv.ioWrite _ rfl s a v h) fun handled => ?_
  refine keeps_ite ?_ (mirror_chipWrite host hJ a v)
  refine keeps_get_bind' fun s => ?_
  exact keeps_bind (mirror_modifyTiming _) fun _ => keeps_onlyIf (mirror_modifyTiming _)

theorem mirror_read8 (a : Addr) :
    Keeps (OnHost (OnMirror J)) (read8 (c.board.surroundings host) a) := by
  refine keeps_get_bind' fun s => ?_
  refine keeps_ite (keeps_pure _) ?_
  refine keeps_ite (keeps_pure _) ?_
  apply keeps_ite
  · refine keeps_bind (mirror_modifyMemory (fun _ => rfl) fun _ => rfl) fun _ => ?_
    exact keeps_bind (mirror_modifyTiming _) fun _ => mirror_busRead c host a
  refine keeps_ite (keeps_bind (mirror_modifyTiming _) fun _ => keeps_pure _) ?_
  refine keeps_ite (keeps_bind (mirror_modifyTiming _) fun _ => keeps_pure _) ?_
  cases c64MapRead a s.memory.bankMode with
  | ram | basic | kernal | cartROML | cartROMH | openBus => exact keeps_pure _
  | charROM => exact keeps_bind (mirror_modifyTiming _) fun _ => keeps_pure _
  | io => exact mirror_ioRead hJ henv a

theorem mirror_write8 (a : Addr) (v : Byte) :
    Keeps (OnHost (OnMirror J)) (write8 (c.board.surroundings host) a v) := by
  refine keeps_get_bind' fun s => ?_
  apply keeps_ite
  · exact mirror_writePort host hJ a v
  refine keeps_ite (mirror_modifyMemory (fun _ => rfl) fun _ => rfl) ?_
  by_cases hhost : (s.memory.scpu128Mode && isHostDecoded a) = true
  · have hdecoded : isHostDecoded a = true := (Bool.and_eq_true_iff.mp hhost).2
    simp only [if_pos hhost]
    refine keeps_bind (mirror_modifyMemory (fun _ => rfl) fun _ => rfl) fun _ => ?_
    exact keeps_bind (mirror_modifyTiming _) fun _ => mirror_busWrite host hJ (Or.inl hdecoded) v
  simp only [if_neg hhost]
  exact keeps_ite (mirror_ioWrite hJ henv a v)
    (mirror_storeRAM host hJ (mirror_callFF00Hook henv) a v)

theorem mirror_readFast (a : Addr) :
    Keeps (OnHost (OnMirror J)) (readFast (c.board.surroundings host) a) := by
  refine keeps_get_bind' fun s => ?_
  exact keeps_ite (keeps_pure _) (keeps_ite (keeps_pure _) (mirror_read8 hJ henv a))

theorem mirror_writeFast (a : Addr) (v : Byte) :
    Keeps (OnHost (OnMirror J)) (writeFast (c.board.surroundings host) a v) := by
  refine keeps_get_bind' fun s => ?_
  refine keeps_ite (mirror_modifyMemory (fun _ => rfl) fun _ => rfl) ?_
  exact keeps_ite (mirror_storeRAM host hJ (mirror_callFF00Hook henv) a v)
    (mirror_write8 hJ henv a v)

end Devices

section Steps

variable {ρ : Type} {c : SuperCpu ρ} {J : MirrorState → Prop}

theorem keepsAccesses_mirror (hJ : c.KeptByEvents J) : c.board.KeepsAccesses (OnMirror J) where
  read8 _ henv := mirror_read8 hJ henv
  write8 _ henv := mirror_write8 hJ henv
  registerRead _ _ h := h
  registerWrite s a v h := by
    refine mirror_selectSpeeds c _ _ ?_
    have hpolicy : J (MirrorState.mk s.memory.fetch s.memory.ram
        (s.outside.rest.applyPolicy (c.policy s.outside.rest.rest s.memory.mapLines a v)).buffer
        (s.outside.rest.applyPolicy
          (c.policy s.outside.rest.rest s.memory.mapLines a v)).events) := by
      cases hselected : c.policy s.outside.rest.rest s.memory.mapLines a v with
      | none => exact h
      | some policy =>
          exact hJ.policy _ policy.1 policy.2 ⟨_, _, a, v, hselected⟩ h
    exact hJ.access _ (.note (.register a v)) trivial (Or.inl ⟨a, v, rfl⟩) hpolicy
  cutOff _ h := h

/-- The accelerator, seen over a memory. -/
def Accelerator.mirrorState (f : Fetch) (ram : Addr → Byte) (o : Accelerator ρ) : MirrorState :=
  ⟨f, ram, o.buffer, o.events⟩

theorem serve_mirrorState (f : Fetch) (ram : Addr → Byte) (o : Accelerator ρ) (call : BusCall) :
    (o.mirrorState f ram).serve call = (c.bus.recorded.serve o call).mirrorState f ram := by
  cases call with
  | writeBurst burst => exact List.foldl_hom (Accelerator.mirrorState f ram) fun _ _ => rfl
  | readRAM a => rfl

theorem serveAll_mirrorState (f : Fetch) (ram : Addr → Byte) (o : Accelerator ρ)
    (calls : List BusCall) :
    calls.foldl MirrorState.serve (o.mirrorState f ram) =
      (calls.foldl c.bus.recorded.serve o).mirrorState f ram :=
  List.foldl_hom (Accelerator.mirrorState f ram) (serve_mirrorState f ram)

theorem mirror_mirrorWork {works : List MirrorWork}
    (hwork : ∀ work ∈ works, ∀ x, J x → J (x.apply (.work work))) (s : System ρ)
    (h : OnHost (OnMirror J) s) : OnHost (OnMirror J) (c.mirrorWork works s) := by
  unfold SuperCpu.mirrorWork
  induction works generalizing s with
  | nil => exact h
  | cons work works ih =>
      refine ih (fun work' h' => hwork work' (List.mem_cons_of_mem _ h')) _ ?_
      dsimp only
      split
      · exact h
      · have hdone := hwork work List.mem_cons_self (System.mirrorState s) h
        rw [MirrorState.apply, System.view_mirrorState] at hdone
        have hserved := serveAll_mirrorState (c := c) s.memory.fetch s.memory.ram
          ({ s.accelerator with
            buffer := (work.perform s.accelerator.buffer s.memory.view).1 }.note .mirrorWork)
          (work.perform s.accelerator.buffer s.memory.view).2
        exact (congrArg J hserved).mp hdone

theorem mirror_access (hJ : c.KeptByEvents J) (depth : ℕ) (access : GuestAccess) :
    Keeps (OnHost (OnMirror J)) (access.program (c.board.env depth)) := by
  have henv := (keepsAccesses_mirror hJ).env depth
  cases access with
  | read8 a => exact mirror_read8 hJ henv a
  | write8 a v => exact mirror_write8 hJ henv a v
  | readFast a => exact mirror_readFast hJ henv a
  | writeFast a v => exact mirror_writeFast hJ henv a v

/-- The step may do the events of a kind. -/
def SystemOp.Within (L : MirrorEvent → Prop) : SystemOp ρ → Prop
  | .setPolicy mode exclude => L (.policy mode exclude)
  | .setRAMUnderIOAccessible on => L (.accessible on)
  | .mirrorWork works => ∀ work ∈ works, L (.work work)
  | .reset _ policy _ => L .discard ∧ L .reset ∧ L (.policy policy.1 policy.2)
  | _ => True

/-- What the events of a kind keep. -/
def KeptBy (L : MirrorEvent → Prop) (J : MirrorState → Prop) : Prop :=
  ∀ x e, L e → e.Enabled x → J x → J (x.apply e)

/-- The kind includes the events of accesses, and the policies that registers select. -/
structure SuperCpu.Admits (c : SuperCpu ρ) (L : MirrorEvent → Prop) : Prop where
  access : ∀ e : MirrorEvent, e.OfAccess → L e
  policy : ∀ mode exclude, c.Selects mode exclude → L (.policy mode exclude)

theorem SuperCpu.Admits.keptByEvents {L : MirrorEvent → Prop} (hL : c.Admits L) (hJ : KeptBy L J) :
    c.KeptByEvents J where
  access x e he := hJ x e (hL.access e he)
  policy x mode exclude hselected := hJ x _ (hL.policy mode exclude hselected) trivial

theorem reset_mirrorState (depth : ℕ) (s : System ρ) :
    System.mirrorState ((ScpuEmu.reset (c.board.env depth)).run s).2 =
      s.mirrorState.apply .reset := by
  have hkept : Keeps (OnHost (OnMirror fun x => x.buffer = s.accelerator.buffer ∧
      x.events = s.accelerator.events)) (ScpuEmu.reset (c.board.env depth)) := by
    refine keeps_bind (fun _ h => h) fun _ => ?_
    refine keeps_bind (mirror_callOutside (fun _ => rfl) fun _ => rfl) fun _ => ?_
    refine keeps_bind (mirror_resyncPacing c _) fun _ => ?_
    exact keeps_bind (fun _ h => h) fun _ => keeps_bind (fun _ h => h) fun _ _ h => h
  obtain ⟨hfetch, hram⟩ := reset_spec (c.board.env depth) s
  obtain ⟨hbuffer, hevents⟩ := hkept s ⟨rfl, rfl⟩
  generalize ((ScpuEmu.reset (c.board.env depth)).run s).2 = s' at hfetch hram hbuffer hevents ⊢
  unfold System.mirrorState
  rw [hfetch, hram]
  exact congrArg₂ (MirrorState.mk _ _) hbuffer hevents

theorem mirror_reset {L : MirrorEvent → Prop} (hJ : KeptBy L J) (depth : ℕ) (registers : ρ → ρ)
    {policy : SCPUOptMode × Bool} (seed : MapLines) (s : System ρ)
    (hdiscard : L .discard) (hreset : L .reset) (hpolicy : L (.policy policy.1 policy.2))
    (h : OnHost (OnMirror J) s) :
    OnHost (OnMirror J) (SuperCpu.reset (c.board.env depth) registers policy seed s) := by
  have hdiscarded := hJ s.mirrorState .discard hdiscard trivial h
  have hcleared := hJ _ .reset hreset trivial hdiscarded
  have hdone := reset_mirrorState (c := c) depth
    (s.mapAccelerator fun o => { o with buffer := o.buffer.discard })
  change _ = (s.mirrorState.apply .discard).apply .reset at hdone
  rw [← hdone] at hcleared
  unfold SuperCpu.reset
  dsimp only
  generalize ((ScpuEmu.reset (c.board.env depth)).run _).2 = s' at hcleared
  refine mirror_resyncPacing c _ _ ?_
  exact hJ (System.mirrorState s') (.policy policy.1 policy.2) hpolicy trivial hcleared

/-- What the events that a step may do keep, the step keeps. -/
theorem mirror_step {L : MirrorEvent → Prop} (hL : c.Admits L) (hJ : KeptBy L J) (depth : ℕ)
    (s : System ρ) {op : SystemOp ρ} (hop : op.Within L) (h : OnHost (OnMirror J) s) :
    OnHost (OnMirror J) (c.step depth s op) := by
  have hevents := hL.keptByEvents hJ
  cases op with
  | access access => exact mirror_access hevents depth access s h
  | sampleIRQNMIFast => exact mirror_sampleIRQNMIFast c _ s h
  | tick n =>
      have hmarked : OnHost (OnMirror J) (s.mapAccelerator fun o => o.note .time) :=
        hevents.access s.mirrorState (.note .time) trivial (Or.inr rfl) h
      have hticked := mirror_tickFast (c.board.hostAt depth) hevents n _ hmarked
      exact hticked
  | setPacing host hz => exact mirror_setPacing c _ host hz s h
  | setPolicy mode exclude => exact hJ s.mirrorState (.policy mode exclude) hop trivial h
  | setTiming f => exact h
  | setCapture f => exact h
  | setRAMUnderIOAccessible on => exact hJ s.mirrorState (.accessible on) hop trivial h
  | setLines lines => exact h
  | mirrorWork works =>
      exact mirror_mirrorWork (fun work hwork x => hJ x _ (hop work hwork) trivial) s h
  | reset registers policy seed =>
      exact mirror_reset hJ depth registers seed s hop.1 hop.2.1 hop.2.2 h
  | rest f => exact h

theorem keptBy_traces (L : MirrorEvent → Prop) (x : MirrorState) :
    KeptBy L (MirrorState.Traces L x) := fun _ _ hL he h => h.snoc hL he

/-- A run is a sequence of events. -/
theorem run_traces {L : MirrorEvent → Prop} (hL : c.Admits L) (depth : ℕ) (s : System ρ)
    {ops : List (SystemOp ρ)} (hops : ∀ op ∈ ops, op.Within L) :
    MirrorState.Traces L s.mirrorState (System.mirrorState (Library.run (c.step depth) s ops)) := by
  have hstart : OnHost (OnMirror (MirrorState.Traces L s.mirrorState)) s :=
    MirrorState.Traces.refl _
  generalize s.mirrorState = x at hstart ⊢
  induction ops generalizing s with
  | nil => exact hstart
  | cons op ops ih =>
      refine ih _ (fun op' h' => hops op' (List.mem_cons_of_mem _ h')) ?_
      exact mirror_step hL (keptBy_traces L x) depth s (hops op List.mem_cons_self) hstart

end Steps

end ScpuEmu
