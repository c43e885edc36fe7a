import ScpuEmu.Cpu.Bus

/-!
# Programs of a core and the accesses that they make

From registers `r`, a program on a logged bus adds accesses to the log, whatever the bus
answers. The accesses carry labels, of which `view` shows what the bus sees. The rules follow
the structure of the program.
-/

namespace ScpuEmu

variable {κ ρ σ α β : Type} {view : κ → BusAccess}

variable (view) in
/-- From registers `r` the program adds a trace to the log, and the trace, the registers and
the value that it ends with have a property. -/
def Emits (m : CoreM ρ (Logged σ) α) (r : ρ) (Q : List κ → ρ → α → Prop) : Prop :=
  ∀ core : Core ρ (Logged σ), core.regs = r →
    ∃ trace : List κ, (m.run core).2.bus.log = core.bus.log ++ trace.map view ∧
      Q trace (m.run core).2.regs (m.run core).1

section Rules

variable {r : ρ} {bus : CpuBus σ}

theorem Emits.mono {m : CoreM ρ (Logged σ) α} {Q Q' : List κ → ρ → α → Prop}
    (h : Emits view m r Q) (hQ : ∀ trace r' a, Q trace r' a → Q' trace r' a) :
    Emits view m r Q' := by
  intro core hregs
  obtain ⟨trace, hlog, hend⟩ := h core hregs
  exact ⟨trace, hlog, hQ _ _ _ hend⟩

/-- What adds nothing to the log. -/
theorem emits_silent {m : CoreM ρ (Logged σ) α} {Q : List κ → ρ → α → Prop}
    (hm : ∀ core : Core ρ (Logged σ), core.regs = r →
      (m.run core).2.bus.log = core.bus.log ∧ Q [] (m.run core).2.regs (m.run core).1) :
    Emits view m r Q := by
  intro core hregs
  obtain ⟨hlog, hend⟩ := hm core hregs
  exact ⟨[], hlog.trans (List.append_nil _).symm, hend⟩

theorem emits_pure {a : α} {Q : List κ → ρ → α → Prop} (h : Q [] r a) :
    Emits view (pure a : CoreM ρ (Logged σ) α) r Q := by
  apply emits_silent
  rintro core rfl
  exact ⟨rfl, h⟩

/-- What follows starts with the registers that the first program ends with, and its trace
comes after that of the first. -/
theorem emits_bind {m : CoreM ρ (Logged σ) α} {f : α → CoreM ρ (Logged σ) β}
    {Q : List κ → ρ → β → Prop}
    (h : Emits view m r fun trace r' a => Emits view (f a) r' fun trace' => Q (trace ++ trace')) :
    Emits view (m >>= f) r Q := by
  intro core hregs
  obtain ⟨trace, hlog, hrest⟩ := h core hregs
  obtain ⟨trace', hlog', hend⟩ := hrest (m.run core).2 rfl
  refine ⟨trace ++ trace', ?_, hend⟩
  rw [List.map_append, ← List.append_assoc, ← hlog]
  exact hlog'

theorem emits_map {m : CoreM ρ (Logged σ) α} {f : α → β} {Q : List κ → ρ → β → Prop}
    (h : Emits view m r fun trace r' a => Q trace r' (f a)) : Emits view (f <$> m) r Q := h

theorem emits_ite {c : Prop} [Decidable c] {m n : CoreM ρ (Logged σ) α}
    {Q : List κ → ρ → α → Prop} (hm : c → Emits view m r Q) (hn : ¬ c → Emits view n r Q) :
    Emits view (if c then m else n) r Q := by
  split
  next h => exact hm h
  next h => exact hn h

theorem emits_get_bind {f : Core ρ (Logged σ) → CoreM ρ (Logged σ) β} {Q : List κ → ρ → β → Prop}
    (h : ∀ core, core.regs = r → Emits view (f core) r Q) : Emits view (get >>= f) r Q :=
  fun core hregs => h core hregs core hregs

theorem emits_getRegs_bind {f : ρ → CoreM ρ (Logged σ) β} {Q : List κ → ρ → β → Prop}
    (h : Emits view (f r) r Q) : Emits view (getRegs >>= f) r Q := by
  rintro core rfl
  exact h core rfl

theorem emits_modifyRegs {f : ρ → ρ} {Q : List κ → ρ → PUnit → Prop} (h : Q [] (f r) ⟨⟩) :
    Emits view (modifyRegs f : CoreM ρ (Logged σ) PUnit) r Q := by
  apply emits_silent
  rintro core rfl
  exact ⟨rfl, h⟩

theorem emits_modifyRegs_bind {f : ρ → ρ} {g : PUnit → CoreM ρ (Logged σ) β}
    {Q : List κ → ρ → β → Prop} (h : Emits view (g ⟨⟩) (f r) Q) :
    Emits view (modifyRegs f >>= g) r Q := by
  rintro core rfl
  exact h { core with regs := f core.regs } rfl

theorem emits_busRead8 (label : Byte → κ) {address : BitVec 24} {Q : List κ → ρ → Byte → Prop}
    (hview : ∀ v, view (label v) = .read address v) (h : ∀ v, Q [label v] r v) :
    Emits view (busRead8 bus.logged address : CoreM ρ (Logged σ) Byte) r Q := by
  rintro core rfl
  refine ⟨[label (bus.read8 core.bus.state address).value], ?_, h _⟩
  rw [List.map_singleton, hview]
  rfl

theorem emits_busWrite8 (label : κ) {address : BitVec 24} {v : Byte}
    {Q : List κ → ρ → Unit → Prop} (hview : view label = .write address v)
    (h : Q [label] r ⟨⟩) :
    Emits view (busWrite8 bus.logged address v : CoreM ρ (Logged σ) Unit) r Q := by
  rintro core rfl
  refine ⟨[label], ?_, h⟩
  rw [List.map_singleton, hview]
  rfl

/-- What only computes after a program leaves its trace as it is. -/
theorem Emits.then_silent {m : CoreM ρ (Logged σ) α} {f : α → CoreM ρ (Logged σ) β}
    {P : List κ → Prop} (h : Emits view m r fun t _ _ => P t)
    (hf : ∀ a r', Emits view (f a) r' fun t _ _ => t = []) :
    Emits view (m >>= f) r fun t _ _ => P t := by
  apply emits_bind
  apply h.mono
  intro t r' a ht
  apply (hf a r').mono
  rintro t' _ _ rfl
  rw [List.append_nil]
  exact ht

theorem silent_modifyRegs {f : ρ → ρ} (a : α) :
    Emits view (modifyRegs f >>= fun _ => pure a : CoreM ρ (Logged σ) α) r fun t _ _ => t = [] := by
  apply emits_modifyRegs_bind
  exact emits_pure rfl

end Rules

end ScpuEmu
