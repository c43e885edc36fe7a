import ScpuEmu.Reu.Wiring

/-!
# What the operations do to the fetch state

The shadows of the VIC and of CIA 2, the caches derived from them and the bytes of RAM
that these depend on. Most programs leave all of them alone. The others are told here in
terms of the elementary changes, so that a property that those keep is kept by every
operation except a reset.
-/

namespace ScpuEmu

open Library

namespace Fetch

/-- What `relocPointerValue` leaves of these fields. -/
def afterPointer (f : Fetch) (v : Byte) : Fetch :=
  if f.relocates v = false then f
  else if f.relocation.ptrReloc (v.toNat - 0x40) ≠ 0xFF#8 then
    { f with relocDelivered := f.relocDelivered + 1 }
  else
    match f.freeRelocBlock with
    | none => { f with relocExhausted := f.relocExhausted + 1 }
    | some r => { f.claimReloc v r with relocDelivered := f.relocDelivered + 1 }

/-- The row of the pointer at an address, as far as the store looks. -/
def InRow (f : Fetch) (a : Addr) : Prop := (a &&& ~~~7#16).setWidth 32 = f.spritePtrBase

instance (f : Fetch) (a : Addr) : Decidable (f.InRow a) :=
  inferInstanceAs (Decidable (_ = _))

end Fetch

variable {ω : Type}

/-- A property of the fetch state over RAM, as one of the machine. -/
abbrev OnFetch (P : Fetch → (Addr → Byte) → Prop) (s : Machine ω) : Prop :=
  OnMemory (fun m => P m.fetch m.ram) s

/-- What the memory does to the fetch state and RAM, one elementary change after the
other. -/
structure FetchInvariant (P : Fetch → (Addr → Byte) → Prop) : Prop where
  sampleSerial : ∀ f ram v, P f ram →
    P { f with lastCIA2PortARead := v, haveCIA2PortARead := true } ram
  portA : ∀ f ram v, P f ram →
    P (({ f with cia2PortALatch := v, haveCIA2PortALatch := true
      }.updateSpritePtrBase).updateHotShapeBlocks ram) ram
  screen : ∀ f ram v, P f ram →
    P (({ f with lastD018 := v }.updateSpritePtrBase).updateHotShapeBlocks ram) ram
  direction : ∀ f ram v, P f ram →
    P (({ f with cia2DDRA := v, haveCIA2DDRA := true
      }.updateSpritePtrBase).updateHotShapeBlocks ram) ram
  accessible : ∀ f ram on, P f ram → P (f.setRAMUnderIOAccessible ram on) ram
  register : ∀ f ram reg v, reg ≠ 0x15 → P f ram →
    P { f with vicRegShadow := Function.update f.vicRegShadow reg v } ram
  enable : ∀ f ram v, P f ram →
    P ({ f with vicRegShadow := Function.update f.vicRegShadow 0x15 v
      }.updateHotShapeBlocks ram) ram
  port : ∀ f ram a v, a ≤ 1 → P f ram → P f (Function.update ram a v)
  store : ∀ f ram a v, ¬ f.InRow a → P f ram → P f (Function.update ram a v)
  count : ∀ f ram, P f ram → P { f with ptrRowWrites := f.ptrRowWrites + 1 } ram
  commit : ∀ f ram a v, f.InRow a → P f ram →
    P (f.updateHotShapeBlocks (Function.update ram a v)) (Function.update ram a v)
  deliver : ∀ f ram a v, f.InRow a → P f ram →
    P ((f.afterPointer v).updateHotShapeBlocks (Function.update ram a v)) (Function.update ram a v)

section Untouched

variable {P : Fetch → (Addr → Byte) → Prop} {env : Surroundings ω} {α : Type}

theorem onFetch_modifyTiming (g : Timing → Timing) :
    Keeps (OnFetch P) (modifyTiming g : MemoryM ω PUnit) := fun _ h => h

theorem onFetch_modifyMemory {g : CC64Memory → CC64Memory} (hf : ∀ m, (g m).fetch = m.fetch)
    (hr : ∀ m, (g m).ram = m.ram) : Keeps (OnFetch P) (modifyMemory g : MemoryM ω PUnit) := by
  intro s h
  show P (g s.memory).fetch (g s.memory).ram
  rw [hf, hr]
  exact h

theorem onFetch_callOutside (op : ω → α × ω) : Keeps (OnFetch P) (callOutside op) := fun _ h => h

theorem onFetch_busRead (a : Addr) : Keeps (OnFetch P) (busRead env a) := by
  unfold busRead
  cases env.bus with
  | none => exact keeps_pure _
  | some bus => exact onFetch_callOutside _

theorem onFetch_busWrite (a : Addr) (v : Byte) : Keeps (OnFetch P) (busWrite env a v) := by
  unfold busWrite
  cases env.bus with
  | none => exact keeps_pure _
  | some bus => exact onFetch_callOutside _

theorem onFetch_busWriteRAM (a : Addr) (v : Byte) : Keeps (OnFetch P) (busWriteRAM env a v) := by
  unfold busWriteRAM
  cases env.bus with
  | none => exact keeps_pure _
  | some bus => exact onFetch_callOutside _

theorem onFetch_mirrorWrite (a : Addr) (v : Byte) : Keeps (OnFetch P) (mirrorWrite env a v) := by
  unfold mirrorWrite
  cases env.mirror with
  | none => exact keeps_pure _
  | some onRamWrite =>
      refine keeps_get_bind' fun s => ?_
      exact keeps_bind (onFetch_callOutside _) fun _ => keeps_onlyIf (onFetch_modifyTiming _)

theorem onFetch_replayShape (v : Byte) (n : ℕ) : Keeps (OnFetch P) (replayShape env v n) := by
  induction n with
  | zero => exact keeps_pure _
  | succ n ih =>
      apply keeps_bind ?_ fun _ => ih
      unfold replayByte
      cases env.mirror with
      | none => exact keeps_pure _
      | some onRamWrite => exact keeps_get_bind' fun _ => onFetch_callOutside _

/-! ### Time -/

theorem onFetch_resyncPacing : Keeps (OnFetch P) (resyncPacing env) := by
  unfold resyncPacing
  cases env.bus with
  | none => exact onFetch_modifyTiming _
  | some bus =>
      refine keeps_bind (onFetch_modifyTiming _) fun _ => ?_
      exact keeps_bind (onFetch_callOutside _) fun _ => onFetch_modifyTiming _

theorem onFetch_setPacing (host : BitVec 64) (hz : ℕ) :
    Keeps (OnFetch P) (setPacing env host hz) := by
  refine keeps_bind (onFetch_modifyTiming _) fun _ => ?_
  apply keeps_ite
  · exact onFetch_modifyTiming _
  · exact keeps_bind (onFetch_modifyTiming _) fun _ => onFetch_resyncPacing

theorem onFetch_selectSpeeds (speeds : List (BitVec 64 × ℕ)) :
    Keeps (OnFetch P) (selectSpeeds env speeds) := by
  induction speeds with
  | nil => exact keeps_pure _
  | cons speed speeds ih =>
      refine keeps_bind (onFetch_setPacing speed.1 speed.2) fun _ => ?_
      exact keeps_bind (onFetch_modifyTiming _) fun _ => ih

theorem onFetch_tickSettle (bus : C64Bus ω) (iecActive : Bool) :
    Keeps (OnFetch P) (tickSettle bus iecActive) := by
  refine keeps_bind (onFetch_callOutside _) fun now => ?_
  apply keeps_bind
  · refine keeps_getMemory_bind fun m => ?_
    refine keeps_ite ?_ (keeps_pure _)
    refine keeps_bind (onFetch_callOutside _) fun _ => ?_
    refine keeps_bind (onFetch_callOutside _) fun now' => ?_
    refine keeps_get_bind' fun s => ?_
    exact keeps_bind (onFetch_modifyTiming _) fun _ => keeps_pure _
  · intro now'
    refine keeps_getMemory_bind fun m => ?_
    exact keeps_bind (keeps_ite (keeps_pure _) (onFetch_callOutside _)) fun _ =>
      onFetch_modifyTiming _

theorem onFetch_tickFast (n : ℕ) : Keeps (OnFetch P) (tickFast env n) := by
  refine keeps_getMemory_bind fun m => ?_
  refine keeps_bind (onFetch_modifyTiming _) fun _ => ?_
  unfold settleDebt
  cases env.bus with
  | none => exact keeps_pure _
  | some bus =>
      refine keeps_getMemory_bind fun m => ?_
      refine keeps_ite (keeps_pure _) ?_
      exact keeps_bind (onFetch_modifyTiming _) fun _ => keeps_onlyIf (onFetch_tickSettle bus _)

theorem onFetch_refreshInterruptsIfDue : Keeps (OnFetch P) (refreshInterruptsIfDue env) := by
  refine keeps_bind (onFetch_modifyTiming _) fun _ => ?_
  refine keeps_getMemory_bind fun m => ?_
  apply keeps_onlyIf
  unfold sampleLines
  cases env.bus with
  | none => exact keeps_pure _
  | some bus => exact keeps_bind (onFetch_callOutside _) fun _ => onFetch_modifyTiming _

theorem onFetch_chipValue (a : Addr) : Keeps (OnFetch P) (chipValue env a) := by
  refine keeps_get_bind' fun s => ?_
  refine keeps_ite (onFetch_callOutside _) ?_
  refine keeps_ite (onFetch_callOutside _) ?_
  refine keeps_ite (keeps_pure _) ?_
  refine keeps_bind (onFetch_busRead a) fun v => ?_
  exact keeps_ite (keeps_pure _) (keeps_ite (keeps_pure _) (keeps_pure _))

end Untouched

/-! ### Pointers -/

section Pointers

variable (env : Surroundings ω)

/-- The fetch state and RAM after a program, where it changes them by a function. -/
theorem fetch_and_ram_of_keeps {α : Type} {m : MemoryM ω α} {s : Machine ω}
    (h : Keeps (OnFetch fun f ram => f = s.memory.fetch ∧ ram = s.memory.ram) m) :
    (m.run s).2.memory.fetch = s.memory.fetch ∧ (m.run s).2.memory.ram = s.memory.ram :=
  h s ⟨rfl, rfl⟩

theorem lt_of_freeRelocBlock {f : Fetch} {r : ℕ} (h : f.freeRelocBlock = some r) : r < 0x30 :=
  List.mem_range.mp (List.mem_of_find?_eq_some h)

theorem relocBlock_ne_none {r : ℕ} (hr : r < 0x30) : BitVec.ofNat 8 r ≠ 0xFF#8 := by
  intro h
  have htoNat := congrArg BitVec.toNat h
  rw [BitVec.toNat_ofNat, Nat.mod_eq_of_lt (by omega)] at htoNat
  exact absurd htoNat (Nat.ne_of_lt (hr.trans (by decide)))

/-- Allocation answers `$FF` exactly if no block is free. -/
theorem allocRelocBlock_spec (v : Byte) (s : Machine ω) :
    let done := (allocRelocBlock env v).run s
    (s.memory.fetch.freeRelocBlock = none ∧ done.1 = 0xFF#8 ∧ done.2.memory.fetch = s.memory.fetch ∨
        ∃ r, s.memory.fetch.freeRelocBlock = some r ∧ done.1 = BitVec.ofNat 8 r ∧
          done.2.memory.fetch = s.memory.fetch.claimReloc v r) ∧
      done.2.memory.ram = s.memory.ram := by
  intro done
  obtain ⟨done', hdone⟩ : ∃ done', done' = done := ⟨_, rfl⟩
  rw [← hdone]
  change done' = (allocRelocBlock env v).run s at hdone
  rw [allocRelocBlock, run_bind, run_getMemory] at hdone
  dsimp only at hdone
  cases hfree : s.memory.fetch.freeRelocBlock with
  | none =>
      rw [hfree] at hdone
      subst hdone
      exact ⟨Or.inl ⟨rfl, rfl, rfl⟩, rfl⟩
  | some r =>
      rw [hfree] at hdone
      obtain ⟨hf, hram⟩ := fetch_and_ram_of_keeps (m := replayShape env v 64)
        (s := ⟨s.memory.mapFetch fun f => f.claimReloc v r, s.outside⟩) (onFetch_replayShape v 64)
      subst hdone
      exact ⟨Or.inr ⟨r, rfl, rfl, hf⟩, hram⟩

theorem relocPointerValue_spec (v : Byte) (s : Machine ω) :
    ((relocPointerValue env v).run s).2.memory.fetch = s.memory.fetch.afterPointer v ∧
      ((relocPointerValue env v).run s).2.memory.ram = s.memory.ram := by
  rw [relocPointerValue, run_bind, run_getMemory, Fetch.afterPointer]
  dsimp only
  split
  · exact ⟨rfl, rfl⟩
  split
  · exact ⟨rfl, rfl⟩
  rw [run_bind]
  obtain ⟨halloc, hram⟩ := allocRelocBlock_spec env v s
  obtain ⟨done, hdone⟩ : ∃ done, done = (allocRelocBlock env v).run s := ⟨_, rfl⟩
  rw [← hdone] at halloc hram ⊢
  rcases halloc with ⟨hfree, hvalue, hf⟩ | ⟨r, hfree, hvalue, hf⟩
  · rw [hfree, hvalue, if_pos rfl]
    exact ⟨congrArg (fun f : Fetch => { f with relocExhausted := f.relocExhausted + 1 }) hf, hram⟩
  · rw [hfree, hvalue, if_neg (relocBlock_ne_none (lt_of_freeRelocBlock hfree))]
    exact ⟨congrArg (fun f : Fetch => { f with relocDelivered := f.relocDelivered + 1 }) hf, hram⟩

theorem deliverPointer_spec (a : Addr) (v : Byte) (s : Machine ω) :
    ((deliverPointer env a v).run s).2.memory.fetch =
        (if env.bus.isSome then s.memory.fetch.afterPointer v else s.memory.fetch) ∧
      ((deliverPointer env a v).run s).2.memory.ram = s.memory.ram := by
  unfold deliverPointer
  cases env.bus with
  | none => exact ⟨rfl, rfl⟩
  | some bus =>
      obtain ⟨hf, hram⟩ := relocPointerValue_spec env v s
      rw [run_bind, run_bind, run_getMemory, ← hf, ← hram]
      dsimp only
      exact fetch_and_ram_of_keeps (keeps_ite (onFetch_busWriteRAM a _) (onFetch_busWrite a _))

end Pointers

section Rules

variable {P : Fetch → (Addr → Byte) → Prop} {env : Surroundings ω} (hP : FetchInvariant P)
include hP

/-- The refresh of the pointer row: a store that changes a byte of it. -/
theorem onFetch_commitPointer {s : Machine ω} {ram : Addr → Byte} {a : Addr} {v : Byte}
    (hram : s.memory.ram = Function.update ram a v) (hrow : s.memory.fetch.InRow a)
    (h : P s.memory.fetch ram) : OnFetch P ((commitPointer env a v).run s).2 := by
  rw [commitPointer, run_bind, run_bind, run_modifyMemory, run_modifyMemory]
  obtain ⟨hf, hr⟩ := deliverPointer_spec env a v s
  generalize ((deliverPointer env a v).run s).2 = s' at hf hr ⊢
  show P (s'.memory.fetch.updateHotShapeBlocks s'.memory.ram) s'.memory.ram
  rw [hf, hr, hram]
  split
  · exact hP.deliver _ _ a v hrow h
  · exact hP.commit _ _ a v hrow h

variable (henv : env.Keeps (OnFetch P))
include henv

theorem onFetch_storeRAM (a : Addr) (v : Byte) : Keeps (OnFetch P) (storeRAM env a v) := by
  intro s h
  rw [storeRAM, run_bind, run_getMemory, run_bind, run_modifyMemory, run_bind, run_bind,
    run_modifyMemory]
  obtain ⟨hf, hr⟩ := fetch_and_ram_of_keeps (m := mirrorWrite env a v)
    (s := ⟨{ s.memory with ramWrites := s.memory.ramWrites + 1 }, s.outside⟩)
    (onFetch_mirrorWrite a v)
  obtain ⟨s', hs'⟩ : ∃ s', s' = ((mirrorWrite env a v).run
      ⟨{ s.memory with ramWrites := s.memory.ramWrites + 1 }, s.outside⟩).2 := ⟨_, rfl⟩
  dsimp only
  rw [← hs'] at hf hr ⊢
  rw [noteRAMWriteSideEffects, run_bind, run_getMemory, run_bind]
  apply keeps_onlyIf
  · unfold callFF00Hook
    cases hhook : env.ff00Hook with
    | none => exact keeps_pure _
    | some hook => exact keeps_modify (henv.ff00Hook hook hhook)
  dsimp only [CC64Memory.mapFetch] at hf hr ⊢
  rw [hf, hr]
  unfold onlyIf
  split
  · next hrow =>
    rw [noteSpritePointerWrite, run_bind, run_modifyMemory]
    unfold onlyIf
    split
    · have hbefore : P _ s.memory.ram := hP.count _ _ h
      apply onFetch_commitPointer hP ?_ ?_ hbefore
      · rfl
      · exact hrow
    · next hold =>
      rw [not_not] at hold
      subst hold
      show P { s.memory.fetch with ptrRowWrites := _ } (Function.update s.memory.ram a _)
      rw [Function.update_eq_self]
      exact hP.count _ _ h
  · next hrow =>
    exact hP.store _ _ a v hrow h

/-! ### The chips -/

omit henv in
theorem onFetch_chipRead (a : Addr) : Keeps (OnFetch P) (chipRead env a) := by
  refine keeps_bind (onFetch_modifyMemory (fun _ => rfl) fun _ => rfl) fun _ => ?_
  refine keeps_bind (onFetch_modifyTiming _) fun _ => ?_
  refine keeps_bind (onFetch_chipValue a) fun v => ?_
  refine keeps_bind (keeps_onlyIf (onFetch_modifyTiming _)) fun _ => ?_
  refine keeps_bind (keeps_onlyIf ?_) fun _ => ?_
  · refine keeps_getMemory_bind fun m => ?_
    refine keeps_bind (fun s h => hP.sampleSerial _ _ v h) fun _ => ?_
    exact keeps_onlyIf (onFetch_modifyTiming _)
  · exact keeps_bind (keeps_onlyIf (onFetch_modifyTiming _)) fun _ => keeps_pure v

theorem onFetch_ioRead (a : Addr) : Keeps (OnFetch P) (ioRead env a) := by
  unfold ioRead
  cases hio : env.io with
  | none => exact onFetch_chipRead hP a
  | some io =>
      refine keeps_bind (fun s h => henv.ioRead io hio s a h) fun answer => ?_
      cases answer with
      | none => exact onFetch_chipRead hP a
      | some v =>
          refine keeps_get_bind' fun s => ?_
          exact keeps_bind (keeps_onlyIf (onFetch_modifyTiming _)) fun _ => keeps_pure v

omit henv in
theorem onFetch_trackChipWrite (a : Addr) (v : Byte) :
    Keeps (OnFetch P) (trackChipWrite a v : MemoryM ω PUnit) := by
  refine keeps_getMemory_bind fun m => ?_
  apply keeps_ite
  · exact keeps_bind (fun s h => hP.portA _ _ v h) fun _ => keeps_onlyIf (onFetch_modifyTiming _)
  apply keeps_ite
  · exact fun s h => hP.screen _ _ v h
  apply keeps_ite
  · exact keeps_bind (fun s h => hP.direction _ _ v h) fun _ =>
      keeps_onlyIf (onFetch_modifyTiming _)
  · exact keeps_onlyIf (onFetch_modifyTiming _)

omit hP henv in
theorem trackVICWrite_spec (perLine : BitVec 32) (reg : BitVec 6) (v : Byte) (m : CC64Memory) :
    (trackVICWrite perLine reg v m).fetch =
        (if reg = 0x15 then
          { m.fetch with
            vicRegShadow := Function.update m.fetch.vicRegShadow reg v }.updateHotShapeBlocks m.ram
        else { m.fetch with vicRegShadow := Function.update m.fetch.vicRegShadow reg v }) ∧
      (trackVICWrite perLine reg v m).ram = m.ram := by
  simp only [trackVICWrite, CC64Memory.appendVICLog, apply_ite CC64Memory.fetch,
    apply_ite CC64Memory.ram, CC64Memory.fetch_mapFetch, CC64Memory.fetch_mapCapture,
    CC64Memory.ram_mapFetch, CC64Memory.ram_mapCapture, ite_self, and_self]

omit henv in
theorem onFetch_trackVICWrite (perLine : BitVec 32) (reg : BitVec 6) (v : Byte) :
    Keeps (OnFetch P) (modifyMemory (trackVICWrite perLine reg v) : MemoryM ω PUnit) := by
  intro s h
  obtain ⟨hf, hr⟩ := trackVICWrite_spec perLine reg v s.memory
  show P (trackVICWrite perLine reg v s.memory).fetch (trackVICWrite perLine reg v s.memory).ram
  rw [hf, hr]
  split
  · next hreg =>
    rw [hreg]
    exact hP.enable _ _ v h
  · next hreg => exact hP.register _ _ reg v hreg h

omit henv in
theorem onFetch_chipWrite (a : Addr) (v : Byte) : Keeps (OnFetch P) (chipWrite env a v) := by
  refine keeps_bind (onFetch_trackChipWrite hP a v) fun _ => ?_
  refine keeps_bind (onFetch_modifyMemory (fun _ => rfl) fun _ => rfl) fun _ => ?_
  refine keeps_get_bind' fun s => ?_
  refine keeps_bind (keeps_onlyIf (onFetch_trackVICWrite hP _ _ v)) fun _ => ?_
  refine keeps_get_bind' fun s' => ?_
  exact keeps_bind (onFetch_modifyTiming _) fun _ => onFetch_busWrite a v

theorem onFetch_ioWrite (a : Addr) (v : Byte) : Keeps (OnFetch P) (ioWrite env a v) := by
  unfold ioWrite
  cases hio : env.io with
  | none => exact onFetch_chipWrite hP a v
  | some io =>
      refine keeps_bind (fun s h => henv.ioWrite io hio s a v h) fun handled => ?_
      refine keeps_ite ?_ (onFetch_chipWrite hP a v)
      refine keeps_get_bind' fun s => ?_
      exact keeps_bind (onFetch_modifyTiming _) fun _ => keeps_onlyIf (onFetch_modifyTiming _)

/-! ### Both paths -/

theorem onFetch_read8 (a : Addr) : Keeps (OnFetch P) (read8 env a) := by
  refine keeps_get_bind' fun s => ?_
  refine keeps_ite (keeps_pure _) ?_
  refine keeps_ite (keeps_pure _) ?_
  apply keeps_ite
  · refine keeps_bind (onFetch_modifyMemory (fun _ => rfl) fun _ => rfl) fun _ => ?_
    exact keeps_bind (onFetch_modifyTiming _) fun _ => onFetch_busRead a
  refine keeps_ite (keeps_bind (onFetch_modifyTiming _) fun _ => keeps_pure _) ?_
  refine keeps_ite (keeps_bind (onFetch_modifyTiming _) fun _ => keeps_pure _) ?_
  cases c64MapRead a s.memory.bankMode with
  | ram | basic | kernal | cartROML | cartROMH | openBus => exact keeps_pure _
  | charROM => exact keeps_bind (onFetch_modifyTiming _) fun _ => keeps_pure _
  | io => exact onFetch_ioRead hP henv a

omit henv in
theorem onFetch_writePort {a : Addr} (ha : a ≤ 1) (v : Byte) :
    Keeps (OnFetch P) (writePort env a v) := by
  refine keeps_bind ?_ fun _ => ?_
  · exact onFetch_modifyMemory (fun m => by split <;> rfl) fun m => by split <;> rfl
  refine keeps_bind (fun _ h => h) fun _ => ?_
  exact keeps_bind (onFetch_mirrorWrite a v) fun _ s h => hP.port _ _ a v ha h

theorem onFetch_write8 (a : Addr) (v : Byte) : Keeps (OnFetch P) (write8 env a v) := by
  refine keeps_get_bind' fun s => ?_
  by_cases ha : a ≤ 1
  · simp only [if_pos ha]
    exact onFetch_writePort hP ha v
  simp only [if_neg ha]
  refine keeps_ite (onFetch_modifyMemory (fun _ => rfl) fun _ => rfl) ?_
  apply keeps_ite
  · refine keeps_bind (onFetch_modifyMemory (fun _ => rfl) fun _ => rfl) fun _ => ?_
    exact keeps_bind (onFetch_modifyTiming _) fun _ => onFetch_busWrite a v
  exact keeps_ite (onFetch_ioWrite hP henv a v) (onFetch_storeRAM hP henv a v)

theorem onFetch_readFast (a : Addr) : Keeps (OnFetch P) (readFast env a) := by
  refine keeps_get_bind' fun s => ?_
  exact keeps_ite (keeps_pure _) (keeps_ite (keeps_pure _) (onFetch_read8 hP henv a))

theorem onFetch_writeFast (a : Addr) (v : Byte) : Keeps (OnFetch P) (writeFast env a v) := by
  refine keeps_get_bind' fun s => ?_
  refine keeps_ite (onFetch_modifyMemory (fun _ => rfl) fun _ => rfl) ?_
  exact keeps_ite (onFetch_storeRAM hP henv a v) (onFetch_write8 hP henv a v)

omit henv in
theorem onFetch_initializeC64CIA2 : Keeps (OnFetch P) (initializeC64CIA2 env) := by
  unfold initializeC64CIA2
  cases env.bus with
  | none => exact keeps_pure _
  | some bus =>
      refine keeps_bind (onFetch_busWrite _ _) fun _ => ?_
      refine keeps_bind (onFetch_busWrite _ _) fun _ => ?_
      refine keeps_bind (onFetch_callOutside _) fun verified => ?_
      exact keeps_bind (keeps_onlyIf fun s h => hP.direction _ _ 0x3F h) fun _ =>
        keeps_pure verified

/-- Every operation but a reset. -/
theorem onFetch_program {op : MemoryOp ω} (hop : op ≠ .reset) :
    Keeps (OnFetch P) (op.program env) := by
  cases op with
  | read8 a => exact onFetch_read8 hP henv a
  | write8 a v => exact onFetch_write8 hP henv a v
  | readFast a => exact onFetch_readFast hP henv a
  | writeFast a v => exact onFetch_writeFast hP henv a v
  | irqFast | nmiFast | sampleIRQNMIFast =>
      exact keeps_bind onFetch_refreshInterruptsIfDue fun _ =>
        keeps_getMemory_bind fun _ => keeps_pure _
  | tick n => exact onFetch_tickFast n
  | setPacing host hz => exact onFetch_setPacing host hz
  | resyncPacing => exact onFetch_resyncPacing
  | reset => exact absurd rfl hop
  | initializeC64CIA2 => exact onFetch_initializeC64CIA2 hP
  | setRAMUnderIOAccessible on => exact fun s h => hP.accessible _ _ on h
  | setNMIRetime | setIECThrottle | setIOStretch | setMirrorStretch | enableBusKeepalive |
      enablePostedWriteTiming | noteFastHalfCycles | takeRunBreak => exact onFetch_modifyTiming _
  | surroundings f => exact onFetch_callOutside _

end Rules

theorem FetchInvariant.keptByAccesses {ρ : Type} {P : Fetch → (Addr → Byte) → Prop}
    (hP : FetchInvariant P) : KeptByAccesses ρ fun m => P m.fetch m.ram where
  lines _ _ h := h
  speeds _ := onFetch_selectSpeeds
  read _ a henv := onFetch_read8 hP henv a
  write _ a v henv := onFetch_write8 hP henv a v

/-- A reset leaves these fields to its own order. -/
theorem reset_spec (env : Surroundings ω) (s : Machine ω) :
    ((reset env).run s).2.memory.fetch = s.memory.fetch.reset s.memory.ram ∧
      ((reset env).run s).2.memory.ram = fun _ => 0 := by
  rw [reset, run_bind, run_modifyMemory, run_bind, run_callOutside, run_bind]
  obtain ⟨hf, -⟩ := fetch_and_ram_of_keeps (m := resyncPacing env) (s := ⟨{ s.memory with
      port00 := 0x2F
      port01 := 0x37
      ioReads := 0
      ioWrites := 0
      ramWrites := 0
      fetch := s.memory.fetch.reset s.memory.ram
      timing := s.memory.timing.reset }, env.clearCollisions s.outside⟩) onFetch_resyncPacing
  exact ⟨hf, rfl⟩

end ScpuEmu
