import ScpuEmu.SuperCpu.Frame

/-!
# What a frame does on an idle serial bus

Of the programs that a frame is made of, only the runs of the core and the calls of the write
buffer go on record, and the write buffer is called only where no serial transfer is under
way: whatever the core did before, each call is behind a look at the window of activity.
-/

namespace ScpuEmu

open Library

namespace CSuperCPU

variable {κ β α : Type} (core : ICpu κ (System (Fitted β))) (b : Host β)
  {J : List FrameEvent → ℕ → Prop}

/-- A property of the record and of the debt. -/
def OnBooks (J : List FrameEvent → ℕ → Prop) (s : CSuperCPU κ) : Prop := J s.log s.frameTickDebt

/-- It holds, and no serial transfer is under way. -/
structure IdleBooks (J : List FrameEvent → ℕ → Prop) (s : CSuperCPU κ) : Prop where
  books : OnBooks J s
  idle : s.iecBusActive core = false

/-- A call of the write buffer while no transfer is under way keeps the property. -/
def AdmitsWork (J : List FrameEvent → ℕ → Prop) : Prop :=
  ∀ log debt work calls, J log debt → J (.mirror false work calls :: log) debt

/-! ### Idle programs -/

theorem keeps_onSystem (op : System (Fitted β) → α × System (Fitted β)) :
    Keeps (OnBooks J) (onSystem core op) := fun _ h => h

theorem idle_onHost (op : β → α × β) : Keeps (IdleBooks core J) (onHost core op) := by
  intro s h
  refine ⟨h.books, ?_⟩
  show (core.bus (core.setBus s.cpu _)).memory.timing.iecBusActive = false
  rw [core.bus_setBus]
  exact h.idle

theorem idle_rasterLine : Keeps (IdleBooks core J) (rasterLine core b) :=
  keeps_bind (idle_onHost core b.rasterLine) fun _ => keeps_pure _

variable (hwork : AdmitsWork J)
include hwork

theorem idle_mirror (work : MirrorWork) : Keeps (IdleBooks core J) (mirror core b work) := by
  intro s h
  have hidle : (core.bus s.cpu).memory.timing.iecBusActive = false := h.idle
  constructor
  · show J (.mirror (core.bus s.cpu).memory.timing.iecBusActive work _ :: s.log) s.frameTickDebt
    rw [hidle]
    exact hwork _ _ _ _ h.books
  · show (core.bus (core.setBus s.cpu _)).memory.timing.iecBusActive = false
    rw [core.bus_setBus]
    exact hidle

theorem idle_flushLoop (screenBase bitmapBase fuel : ℕ) (left : Rations) :
    Keeps (IdleBooks core J) (flushLoop core b screenBase bitmapBase fuel left) := by
  induction fuel generalizing left with
  | zero => exact keeps_pure _
  | succ fuel ih =>
      refine keeps_bind keeps_get fun s => keeps_ite (keeps_pure _) ?_
      refine keeps_bind (idle_rasterLine core b) fun line => keeps_bind keeps_get fun s => ?_
      split
      · exact keeps_pure _
      · refine keeps_ite (keeps_pure _) (keeps_bind (idle_mirror core b hwork _) fun _ => ?_)
        exact keeps_bind keeps_get fun _ => keeps_ite (keeps_pure _) (ih _)

theorem idle_flushMirrorsRasterAware (left : Rations) :
    Keeps (IdleBooks core J) (flushMirrorsRasterAware core b left) :=
  keeps_bind keeps_get fun _ => idle_flushLoop core b hwork _ _ _ left

theorem idle_sweepBorder (transferPerOpportunity : ℕ) :
    Keeps (IdleBooks core J) (sweepBorder core b transferPerOpportunity) := by
  refine keeps_bind keeps_get fun s => keeps_onlyIf ?_
  exact keeps_bind (idle_rasterLine core b) fun _ => keeps_onlyIf (idle_mirror core b hwork _)

/-! ### Behind a look at the window -/

omit hwork in
/-- What runs only where no transfer is under way may rely on it. -/
theorem keeps_whenIdle {P : CSuperCPU κ → Prop} [DecidablePred P]
    {m : CSuperCPU κ → FrameM κ PUnit} (hP : ∀ s, P s → s.iecBusActive core = false)
    (hm : ∀ s, Keeps (IdleBooks core J) (m s)) :
    Keeps (OnBooks J) (get >>= fun s => onlyIf (P s) (m s)) := by
  intro s h
  rw [run_bind, run_get]
  by_cases hs : P s
  · rw [run_onlyIf_pos hs]
    exact (hm s s ⟨h, hP s hs⟩).books
  · rw [run_onlyIf_neg hs]
    exact h

theorem keeps_flushOpportunity (rations : Rations) (ticksUsed : ℕ) :
    Keeps (OnBooks J) (flushOpportunity core b rations ticksUsed) :=
  keeps_whenIdle core (fun _ h => h.2.1) fun _ => idle_flushMirrorsRasterAware core b hwork rations

theorem keeps_scrubOpportunity (scrubBitmapBase ticksUsed : ℕ) :
    Keeps (OnBooks J) (scrubOpportunity core b scrubBitmapBase ticksUsed) := by
  refine keeps_whenIdle core (fun _ h => h.2.2.2.2.2.1) fun _ => ?_
  refine keeps_bind (idle_rasterLine core b) fun _ => keeps_bind keeps_get fun _ => ?_
  exact keeps_onlyIf (idle_mirror core b hwork _)

theorem keeps_borderWork (rations : Rations) :
    Keeps (OnBooks J) (borderWork core b rations) := by
  refine keeps_whenIdle core (fun _ h => h.2) fun _ => ?_
  exact keeps_bind (idle_flushMirrorsRasterAware core b hwork rations) fun _ =>
    idle_sweepBorder core b hwork _

theorem keeps_runResyncDiagnosticRepair :
    Keeps (OnBooks J) (runResyncDiagnosticRepair core b) := by
  intro s h
  rw [runResyncDiagnosticRepair, run_bind, run_get]
  split
  · exact h
  next hasked =>
    have hidle : s.iecBusActive core = false := by
      rw [← Bool.not_eq_true]
      exact fun hactive => hasked (Or.inr (Or.inr (Or.inr (Or.inl hactive))))
    have hrepair : Keeps (IdleBooks core J) (do
        let line ← rasterLine core b
        if c64RasterIsSafeForBulkTransfer b.video line = false then pure ⟨⟩
        else
          mirror core b (.resyncDisplayed (s.screenBase core) (s.graphics core).1
            (s.graphics core).2 64 ⟨false, true, false⟩)
          modify fun s => { s with diagnostic := s.diagnostic.afterRepair }) := by
      refine keeps_bind (idle_rasterLine core b) fun _ => keeps_ite (keeps_pure _) ?_
      exact keeps_bind (idle_mirror core b hwork _) fun _ => keeps_modify fun _ h => ⟨h.1, h.2⟩
    exact (hrepair s ⟨h, hidle⟩).books

omit hwork

/-! ### What does not go on record -/

theorem keeps_updateDisplayScrubPhase (bitmapActive : Bool) :
    Keeps (OnBooks J) (updateDisplayScrubPhase core b bitmapActive) := by
  refine keeps_bind keeps_get fun s => keeps_ite ?_ (keeps_modify fun _ h => h)
  exact keeps_bind (keeps_onSystem core _) fun _ => keeps_modify fun _ h => h

theorem keeps_paceSlice : Keeps (OnBooks J) (paceSlice core b) := by
  refine keeps_bind keeps_get fun s => keeps_bind (keeps_onSystem core _) fun _ => ?_
  refine keeps_bind (keeps_onlyIf (keeps_onSystem core _)) fun _ => ?_
  exact keeps_bind keeps_get fun _ => keeps_pure _

theorem keeps_updateResyncDiagnostic (sawIEC : Bool) :
    Keeps (OnBooks J) (updateResyncDiagnostic core b sawIEC) := keeps_modify fun _ h => h

theorem keeps_rasterLine : Keeps (OnBooks J) (rasterLine core b) :=
  keeps_bind (keeps_onSystem core _) fun _ => keeps_pure _

theorem keeps_noteRasterCoarse : Keeps (OnBooks J) (noteRasterCoarse core b) := by
  refine keeps_bind keeps_get fun s => keeps_onlyIf ?_
  exact keeps_bind (keeps_onSystem core _) fun _ => keeps_onlyIf (keeps_onSystem core _)

/-! ### Serial transfers are left alone -/

theorem keeps_runCpu {event : RunCall → FrameEvent}
    (hrun : ∀ log debt call, J log debt → J (event call :: log) debt) (budget perCycle : ℕ) :
    Keeps (OnBooks J) (runCpu core event budget perCycle) := fun _ h => hrun _ _ _ h

theorem keeps_frameLoop (hwork : AdmitsWork J)
    (hslice : ∀ log debt call, J log debt → J (.slice call :: log) debt) (rations : Rations)
    (fuel ticksUsed executed : ℕ) (sawIEC : Bool) :
    Keeps (OnBooks J) (frameLoop core b rations fuel ticksUsed executed sawIEC) := by
  induction fuel generalizing ticksUsed executed sawIEC with
  | zero => exact keeps_pure _
  | succ fuel ih =>
      refine keeps_ite (keeps_pure _) (keeps_bind keeps_get fun s => ?_)
      refine keeps_bind (keeps_updateDisplayScrubPhase core b _) fun _ => ?_
      refine keeps_bind (keeps_paceSlice core b) fun perCycle => ?_
      refine keeps_bind (keeps_runCpu core hslice _ perCycle) fun ran => ?_
      refine keeps_bind keeps_get fun s => ?_
      refine keeps_bind (keeps_flushOpportunity core b hwork rations _) fun _ => ?_
      exact keeps_bind (keeps_scrubOpportunity core b hwork _ _) fun _ => ih _ _ _

/-- The entry is no work on the mirror during a serial transfer. -/
def Undisturbed : FrameEvent → Prop
  | .mirror serial _ _ => serial = false
  | _ => True

/-- A record to which only such entries were added. -/
def Undisturbing (before log : List FrameEvent) (_debt : ℕ) : Prop :=
  ∃ added, log = added ++ before ∧ ∀ event ∈ added, Undisturbed event

theorem Undisturbing.cons {before log : List FrameEvent} {debt debt' : ℕ} {event : FrameEvent}
    (h : Undisturbing before log debt) (hevent : Undisturbed event) :
    Undisturbing before (event :: log) debt' := by
  obtain ⟨added, rfl, hadded⟩ := h
  refine ⟨event :: added, rfl, ?_⟩
  simpa [hevent] using hadded

theorem undisturbing_drainInBorder (before : List FrameEvent) (rations : Rations) :
    Keeps (OnBooks (Undisturbing before)) (drainInBorder core b rations) := by
  have hwork : AdmitsWork (Undisturbing before) := fun _ _ _ _ h => h.cons rfl
  refine keeps_bind keeps_get fun s => keeps_ite ?_ (keeps_pure _)
  refine keeps_bind (keeps_rasterLine core b) fun line => ?_
  refine keeps_bind ?_ fun ran => ?_
  · refine keeps_ite (keeps_bind keeps_get fun s => ?_) (keeps_pure _)
    refine keeps_bind (keeps_runCpu core (fun _ _ _ h => h.cons trivial) _ _) fun ran => ?_
    exact keeps_bind (keeps_modify fun _ h => h) fun _ => keeps_pure _
  · exact keeps_bind (keeps_borderWork core b hwork rations) fun _ => keeps_pure _

end CSuperCPU

open CSuperCPU

/-- Whatever the core does in its slices, a frame works on the mirror only while no serial
transfer is under way. -/
theorem frame_leaves_serial_bus_alone {κ β : Type} (core : ICpu κ (System (Fitted β)))
    (b : Host β) (s : CSuperCPU κ) :
    ∃ added, ((runFrame core b).run s).2.log = added ++ s.log ∧
      ∀ serial work calls, FrameEvent.mirror serial work calls ∈ added → serial = false := by
  have hwork : AdmitsWork (Undisturbing s.log) := fun _ _ _ _ h => h.cons rfl
  have hframe : Keeps (OnBooks (Undisturbing s.log)) (runFrame core b) := by
    refine keeps_bind keeps_get fun x => keeps_bind (keeps_modify fun _ h => h) fun _ => ?_
    refine keeps_bind (keeps_frameLoop core b hwork (fun _ _ _ h => h.cons trivial) _ _ _ _ _)
      fun outcome => ?_
    refine keeps_bind (keeps_updateResyncDiagnostic core b _) fun _ => ?_
    refine keeps_bind (undisturbing_drainInBorder core b s.log _) fun ran => ?_
    refine keeps_bind (keeps_runResyncDiagnosticRepair core b hwork) fun _ => ?_
    exact keeps_bind (keeps_noteRasterCoarse core b) fun _ => keeps_pure _
  obtain ⟨added, hlog, hadded⟩ := hframe s ⟨[], rfl, by simp⟩
  exact ⟨added, hlog, fun serial work calls hmem => hadded _ hmem⟩

end ScpuEmu
