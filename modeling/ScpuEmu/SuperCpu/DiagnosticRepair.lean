import ScpuEmu.Library.Stride
import ScpuEmu.SuperCpu.Frame
import ScpuEmu.SuperCpu.WriteBuffer.ScrubCursors

/-!
# The repair that ends an observation of the mirror

After an observation the picture is rewritten from the shadow, one call of the targeted
repair at the end of each frame that allows it. The phase counts its calls: sixteen for the
matrix and for each 1K of graphics. The repair itself deals out its calls in turn, also to
the blocks of active sprites. What the phase rewrites is therefore a matter of how many of
its calls were the turn of each region.
-/

namespace ScpuEmu

open Library

/-- `CSuperCPU.graphics` of a machine whose fetches are known. -/
def Fetch.graphics (f : Fetch) : ℕ × ℕ :=
  let charset := f.activeCharsetBase.toNat
  if f.activeBitmapBase.toNat < 0x10000 then (f.activeBitmapBase.toNat, 8192)
  else (charset, if charset < 0x10000 then 2048 else 0)

/-- The picture that the repair is told of. -/
def Fetch.picture (f : Fetch) (w : View) : Picture where
  screenBase := f.activeScreenBase.toNat
  graphicsBase := f.graphics.1
  graphicsLength := f.graphics.2
  hot := WriteBuffer.firstHotBlocks w

/-- The calls that the phase counts. -/
def Fetch.repairCalls (f : Fetch) : ℕ := 16 * (1 + f.graphics.2 / 1024)

/-- What the repair sees at the end of a frame. -/
structure FrameEnd where
  mirrorHalted : Bool
  iecBusActive : Bool
  line : ℕ

/-- What the repair works on, with the calls of the bus that it made. -/
structure Repairing where
  buffer : WriteBuffer
  diagnostic : ResyncDiagnostic
  calls : List BusCall

/-- `runResyncDiagnosticRepair` on a picture that stays as it is. -/
def repairFrame (video : C64VideoStandard) (f : Fetch) (w : View) (s : Repairing) (e : FrameEnd) :
    Repairing :=
  if s.diagnostic.phase ≠ .repairing ∨ s.diagnostic.repairCallsRemaining = 0 ∨
      e.mirrorHalted = true ∨ e.iecBusActive = true ∨
      decide (s.buffer.queue.count = 0) = false then s
  else if c64RasterIsSafeForBulkTransfer video e.line = false then s
  else
    let sent := s.buffer.resyncDisplayed w f.activeScreenBase.toNat f.graphics.1 f.graphics.2 64
      ⟨false, true, false⟩
    { buffer := sent.1
      diagnostic := s.diagnostic.afterRepair
      calls := s.calls ++ sent.2 }

/-- A byte went out in one of the bursts. -/
def Rewrites (calls : List BusCall) (x : C64BusWrite) : Prop :=
  ∃ burst, .writeBurst burst ∈ calls ∧ x ∈ burst

theorem rewrites_append (calls calls' : List BusCall) (x : C64BusWrite) :
    Rewrites (calls ++ calls') x ↔ Rewrites calls x ∨ Rewrites calls' x := by
  simp only [Rewrites, List.mem_append, or_and_right, exists_or]

theorem rewrites_burstCall (burst : List C64BusWrite) (x : C64BusWrite) :
    Rewrites (WriteBuffer.burstCall burst) x ↔ x ∈ burst := by
  rw [WriteBuffer.burstCall]
  split
  next h => simp [Rewrites, List.length_eq_zero_iff.mp h]
  · simp [Rewrites]

/-! ### The phase of the frame loop -/

section Frames

variable {κ β : Type} (core : ICpu κ (System (Fitted β))) (b : Host β)

namespace CSuperCPU

/-- The calls of the bus on record, oldest first. -/
def sentCalls (log : List FrameEvent) : List BusCall :=
  log.reverse.flatMap fun
    | .slice _ => []
    | .approach _ => []
    | .mirror _ _ calls => calls

def repairing (s : CSuperCPU κ) : Repairing where
  buffer := s.writeBuffer core
  diagnostic := s.diagnostic
  calls := sentCalls s.log

/-- The phase begins with its calls counted. -/
theorem repairCallsRemaining_begins (video : C64VideoStandard) (sawIEC : Bool) (s : CSuperCPU κ)
    (hbefore : s.diagnostic.phase ≠ .repairing)
    (hafter : (s.resyncDiagnosticAfter core video sawIEC).phase = .repairing) :
    (s.resyncDiagnosticAfter core video sawIEC).repairCallsRemaining =
      (s.memory core).fetch.repairCalls := by
  unfold resyncDiagnosticAfter at hafter ⊢
  dsimp only at hafter ⊢
  split_ifs at hafter ⊢ <;> first | contradiction | rfl

/-- What the buffer asks of the bus leaves the buffer alone. -/
theorem buffer_serve {ρ : Type} (bus : C64Bus ρ) (o : Accelerator ρ) (calls : List BusCall) :
    (calls.foldl bus.recorded.serve o).buffer = o.buffer := by
  have hburst (burst : List C64BusWrite) (o : Accelerator ρ) :
      (bus.recorded.writeBurst o burst).buffer = o.buffer := by
    induction burst generalizing o with
    | nil => rfl
    | cons x burst ih => exact ih _
  induction calls generalizing o with
  | nil => rfl
  | cons call calls ih =>
      refine (ih _).trans ?_
      cases call with
      | writeBurst burst => exact hburst burst o
      | readRAM a => rfl

/-- A call of the write buffer leaves behind what the call makes of the buffer. -/
theorem writeBuffer_mirror (work : MirrorWork) (s : CSuperCPU κ) :
    ((mirror core b work).run s).2.writeBuffer core =
      (work.perform (s.writeBuffer core) (s.memory core).view).1 := by
  refine (congrArg (fun x : System (Fitted β) => x.accelerator.buffer)
    (core.bus_setBus _ _)).trans ?_
  exact buffer_serve b.superCpu.bus _ _

theorem repairing_mirror (work : MirrorWork) (s : CSuperCPU κ) :
    let sent := work.perform (s.writeBuffer core) (s.memory core).view
    ((mirror core b work).run s).2.repairing core =
      ⟨sent.1, s.diagnostic, sentCalls s.log ++ sent.2⟩ := by
  intro sent
  have hbuffer : ((mirror core b work).run s).2.writeBuffer core = sent.1 :=
    writeBuffer_mirror core b work s
  have hlog : sentCalls ((mirror core b work).run s).2.log = sentCalls s.log ++ sent.2 := by
    change sentCalls (.mirror _ work sent.2 :: s.log) = _
    rw [sentCalls, List.reverse_cons, List.flatMap_append]
    exact congrArg _ (List.append_nil _)
  rw [repairing, hbuffer, hlog]
  rfl

/-- The end of a frame does what `repairFrame` does. -/
theorem repairing_runResyncDiagnosticRepair (s : CSuperCPU κ) :
    ∃ line, ((runResyncDiagnosticRepair core b).run s).2.repairing core =
      repairFrame b.video (s.memory core).fetch (s.memory core).view (s.repairing core)
        ⟨s.mirrorHalted core, s.iecBusActive core, line⟩ := by
  have hsample : ∃ line t, (rasterLine core b).run s = (line, t) ∧
      t.writeBuffer core = s.writeBuffer core ∧ t.memory core = s.memory core ∧
      t.diagnostic = s.diagnostic ∧ t.log = s.log := by
    refine ⟨_, _, rfl, ?_, ?_, rfl, rfl⟩
    · exact (congrArg (fun x : System (Fitted β) => x.accelerator.buffer)
        (core.bus_setBus _ _)).trans rfl
    · exact (congrArg (fun x : System (Fitted β) => x.memory) (core.bus_setBus _ _)).trans rfl
  obtain ⟨line, t, hline, hbuffer, hmemory, hdiagnostic, hlog⟩ := hsample
  refine ⟨line, ?_⟩
  rw [runResyncDiagnosticRepair, run_bind, run_get]
  split
  next h => exact (if_pos h).symm
  next h =>
    refine Eq.trans ?_ (if_neg h).symm
    rw [run_bind, hline]
    dsimp only
    split
    next => rw [run_pure, repairing, repairing, hbuffer, hdiagnostic, hlog]
    next =>
      have hsent := repairing_mirror core b (.resyncDisplayed (s.screenBase core)
        (s.graphics core).1 (s.graphics core).2 64 ⟨false, true, false⟩) t
      rw [hbuffer, hmemory, hdiagnostic, hlog] at hsent
      exact congrArg (fun x : Repairing => { x with diagnostic := x.diagnostic.afterRepair }) hsent

end CSuperCPU

end Frames

/-! ### Runs of the phase -/

section Runs

variable (video : C64VideoStandard) (f : Fetch) {w : View} {ram : Addr → Byte} {s : Repairing}

/-- One call of the repair. -/
def Repairing.repair (f : Fetch) (w : View) (s : Repairing) : Repairing :=
  let p := f.picture w
  let sent := s.buffer.resyncDisplayed w p.screenBase p.graphicsBase p.graphicsLength 64
    WriteBuffer.repairFlags
  ⟨sent.1, s.diagnostic.afterRepair, s.calls ++ sent.2⟩

theorem repairFrame_cases (w : View) (s : Repairing) (e : FrameEnd) :
    repairFrame video f w s e = s ∨
      s.diagnostic.phase = .repairing ∧ s.diagnostic.repairCallsRemaining ≠ 0 ∧
        s.buffer.queue.count = 0 ∧ repairFrame video f w s e = s.repair f w := by
  unfold repairFrame
  split
  next => exact .inl rfl
  next h =>
    simp only [not_or, not_not] at h
    obtain ⟨hphase, hcalls, -, -, hempty⟩ := h
    split
    next => exact .inl rfl
    next => exact .inr ⟨hphase, hcalls, by simpa using hempty, rfl⟩

/-- Outside its phase the repair does nothing. -/
theorem run_repairFrame_of_phase_ne (h : s.diagnostic.phase ≠ .repairing)
    (frames : List FrameEnd) : run (repairFrame video f w) s frames = s := by
  refine run_invariant (P := fun s' => s' = s) (repairFrame video f w) ?_ s frames rfl
  rintro s' e rfl
  exact if_pos (.inl h)

/-- Nor does it while bytes are queued. -/
theorem run_repairFrame_of_queued (h : s.buffer.queue.count ≠ 0) (frames : List FrameEnd) :
    run (repairFrame video f w) s frames = s := by
  refine run_invariant (P := fun s' => s' = s) (repairFrame video f w) ?_ s frames rfl
  rintro s' e rfl
  exact if_pos (.inr (.inr (.inr (.inr (decide_eq_false h)))))

/-- The buffer is at rest. -/
structure Repairing.Settled (s : Repairing) : Prop where
  bus : s.buffer.bus = true
  clean : ∀ a, s.buffer.isDirty a = false
  cursors : s.buffer.displayScrub.InRange

/-- A call sends what its region has in front, and the calls after it what they would have
sent behind it. -/
theorem Repairing.Settled.repair (h : s.Settled) (hram : w.ram = some ram)
    (hslots : (f.picture w).slots ≠ 0) (calls : ℕ) :
    let p := f.picture w
    (s.repair f w).Settled ∧ (s.repair f w).buffer.queue.count = s.buffer.queue.count ∧
      ∃ sent, (s.repair f w).calls =
          s.calls ++ WriteBuffer.burstCall (sent.map (WriteBuffer.healed w ram)) ∧
        met 64 (p.front s.buffer) (p.schedule s.buffer.displayScrub (calls + 1)) =
          sent ++ met 64 (p.front (s.repair f w).buffer)
            (p.schedule (s.repair f w).buffer.displayScrub calls) := by
  intro p
  obtain ⟨o, synced, heq, ho, hfront⟩ :=
    WriteBuffer.resyncDisplayed_repair p hram h.bus hslots rfl h.clean h.cursors
  have hbuffer : (s.repair f w).buffer =
      s.buffer.scrubbed (p.left s.buffer.displayScrub o) synced := congrArg Prod.fst heq
  have hcalls : (s.repair f w).calls = s.calls ++ WriteBuffer.burstCall
      (((p.front s.buffer (p.region (p.turn s.buffer.displayScrub))).take 64).map
        (WriteBuffer.healed w ram)) := by
    rw [Repairing.repair, heq]
  refine ⟨⟨?_, ?_, ?_⟩, ?_, _, hcalls, ?_⟩
  · rw [hbuffer]
    exact h.bus
  · rw [hbuffer]
    exact h.clean
  · rw [hbuffer]
    exact p.inRange_left _ h.cursors ho
  · rw [hbuffer]
    rfl
  · rw [p.schedule_left _ hslots o, hbuffer, hfront]
    rfl

/-- A phase that completes has sent what its calls come to, and nothing else. -/
theorem rewrites_run (h : s.Settled) (hram : w.ram = some ram)
    (hslots : (f.picture w).slots ≠ 0) (hphase : s.diagnostic.phase = .repairing)
    (frames : List FrameEnd)
    (hdone : (run (repairFrame video f w) s frames).diagnostic.phase = .complete) (a : Addr) :
    let p := f.picture w
    Rewrites (run (repairFrame video f w) s frames).calls (WriteBuffer.healed w ram a) ↔
      Rewrites s.calls (WriteBuffer.healed w ram a) ∨
        a ∈ met 64 (p.front s.buffer)
          (p.schedule s.buffer.displayScrub s.diagnostic.repairCallsRemaining) := by
  intro p
  induction frames generalizing s with
  | nil =>
      rw [run_nil, hphase] at hdone
      cases hdone
  | cons e frames ih =>
      rw [run_cons] at hdone ⊢
      obtain hsame | ⟨-, hcalls, -, hcall⟩ := repairFrame_cases video f w s e
      · rw [hsame] at hdone ⊢
        exact ih h hphase hdone
      obtain ⟨calls, hcount⟩ := Nat.exists_eq_succ_of_ne_zero hcalls
      obtain ⟨hsettled, -, sent, hsent, hmet⟩ := h.repair f hram hslots calls
      have hmem : Rewrites (s.repair f w).calls (WriteBuffer.healed w ram a) ↔
          Rewrites s.calls (WriteBuffer.healed w ram a) ∨ a ∈ sent := by
        rw [hsent, rewrites_append, rewrites_burstCall, List.mem_map]
        have hinj (x : Addr) : WriteBuffer.healed w ram x = WriteBuffer.healed w ram a ↔ x = a :=
          ⟨congrArg C64BusWrite.addr, congrArg _⟩
        simp only [hinj, exists_eq_right]
      rw [hcall] at hdone ⊢
      rw [hcount, hmet, List.mem_append, ← or_assoc, ← hmem]
      have hafter : (s.repair f w).diagnostic = s.diagnostic.afterRepair := rfl
      by_cases hlast : calls = 0
      · subst hlast
        have hcomplete : (s.repair f w).diagnostic.phase ≠ .repairing := by
          rw [hafter, ResyncDiagnostic.afterRepair, hcount]
          simp
        rw [run_repairFrame_of_phase_ne video f hcomplete]
        simp [Picture.schedule, met]
      · have hgoes : (s.repair f w).diagnostic.phase = .repairing ∧
            (s.repair f w).diagnostic.repairCallsRemaining = calls := by
          rw [hafter, ResyncDiagnostic.afterRepair, hcount]
          simp [hlast, hphase]
        rw [ih hsettled hgoes.1 hdone, hgoes.2]

/-- A frame on which nothing stands in the way of the repair. -/
def FrameEnd.Admits (video : C64VideoStandard) (e : FrameEnd) : Prop :=
  e.mirrorHalted = false ∧ e.iecBusActive = false ∧
    c64RasterIsSafeForBulkTransfer video e.line = true

/-- The phase completes after as many such frames as it has calls. -/
theorem run_repairFrame_completes (h : s.Settled) (hram : w.ram = some ram)
    (hslots : (f.picture w).slots ≠ 0) (hphase : s.diagnostic.phase = .repairing)
    (hempty : s.buffer.queue.count = 0) (frames : List FrameEnd)
    (hadmitted : ∀ e ∈ frames, e.Admits video) (hne : frames ≠ [])
    (hcalls : s.diagnostic.repairCallsRemaining = frames.length) :
    (run (repairFrame video f w) s frames).diagnostic.phase = .complete := by
  induction frames generalizing s with
  | nil => exact absurd rfl hne
  | cons e frames ih =>
      obtain ⟨hhalted, hidle, hsafe⟩ := hadmitted e List.mem_cons_self
      have hcall : repairFrame video f w s e = s.repair f w := by
        unfold repairFrame
        rw [if_neg (by simp [hphase, hcalls, hhalted, hidle, hempty]), if_neg (by simp [hsafe])]
        rfl
      have hafter : (s.repair f w).diagnostic = s.diagnostic.afterRepair := rfl
      rw [run_cons, hcall]
      cases frames with
      | nil =>
          rw [run_nil, hafter, ResyncDiagnostic.afterRepair, hcalls]
          rfl
      | cons e' frames =>
          obtain ⟨hsettled, hqueue, -⟩ := h.repair f hram hslots 0
          have hleft : s.diagnostic.repairCallsRemaining - 1 = frames.length + 1 := by
            simp [hcalls]
          refine ih hsettled ?_ (hqueue.trans hempty)
            (fun x hx => hadmitted x (List.mem_cons_of_mem _ hx)) (by simp) ?_
          · rw [hafter, ResyncDiagnostic.afterRepair, hleft, if_neg (Nat.succ_ne_zero _)]
            exact hphase
          · rw [hafter, ResyncDiagnostic.afterRepair, hleft, if_neg (Nat.succ_ne_zero _)]
            rfl

/-- The addresses of the active matrix, and of the active bitmap or character set. -/
def Picture.shown (p : Picture) : List Addr := p.places .matrix ++ p.places .graphics

theorem Picture.shown_of_no_slots (p : Picture) (h : p.slots = 0) : p.shown = [] := by
  change p.screenSlots + p.honoured / 1024 + _ = 0 at h
  have hhonoured : p.honoured = 0 := by
    have := p.honoured_le
    omega
  have hscreen : p.haveScreen = false := by
    by_contra hscreen
    rw [screenSlots, if_pos (Bool.not_eq_false _ ▸ hscreen)] at h
    omega
  simp [shown, places, length, hscreen, hhonoured]

theorem settled_of_reachable (pendingValue : Addr → Byte) (list : ℕ → Addr)
    (ops : List WriteBuffer.Op) (d : ResyncDiagnostic)
    (hbus : (run WriteBuffer.step (.construct pendingValue list) ops).bus = true)
    (hempty : (run WriteBuffer.step (.construct pendingValue list) ops).queue.count = 0) :
    Repairing.Settled ⟨run WriteBuffer.step (.construct pendingValue list) ops, d, []⟩ := by
  refine ⟨hbus, fun a => ?_, WriteBuffer.inRange_run pendingValue list ops⟩
  have hnone := List.length_eq_zero_iff.mp ((WriteBuffer.length_entries _).trans hempty)
  have hmem := (WriteBuffer.represents_run pendingValue list ops).mem_iff a
  rw [hnone] at hmem
  simpa using hmem

/-- In a phase that completes, the picture has been rewritten exactly if each of its bytes is
among those that the calls of some region come to. -/
theorem covers_iff (pendingValue : Addr → Byte) (list : ℕ → Addr) (ops : List WriteBuffer.Op)
    (d : ResyncDiagnostic) (frames : List FrameEnd) (hram : w.ram = some ram) :
    let b := run WriteBuffer.step (.construct pendingValue list) ops
    let p := f.picture w
    let last := run (repairFrame video f w) ⟨b, d, []⟩ frames
    b.bus = true → d.phase = .repairing → last.diagnostic.phase = .complete →
      ((∀ a ∈ p.shown, b.shouldMirror a = true →
          Rewrites last.calls (WriteBuffer.healed w ram a)) ↔
        ∀ a ∈ p.shown, b.shouldMirror a = true →
          ∃ r, a ∈ p.reached b d.repairCallsRemaining r) := by
  intro b p last hbus hphase hdone
  by_cases hslots : p.slots = 0
  · rw [p.shown_of_no_slots hslots]
    simp
  have hempty : b.queue.count = 0 := by
    by_contra hqueued
    have hsame : last = ⟨b, d, []⟩ := run_repairFrame_of_queued video f hqueued frames
    rw [hsame] at hdone
    exact absurd (hphase.symm.trans hdone) (by decide)
  have hsettled : Repairing.Settled ⟨b, d, []⟩ :=
    settled_of_reachable pendingValue list ops d hbus hempty
  refine forall₃_congr fun a _ _ => ?_
  refine (rewrites_run video f hsettled hram hslots hphase frames hdone a).trans ?_
  rw [mem_met]
  simp [Rewrites, Picture.reached, p]

end Runs

section Laps

variable (p : Picture) (d : DisplayScrub)

/-- One round of the turns. -/
theorem regions_round (h : p.hot = []) :
    (List.range p.slots).map p.region =
      List.replicate p.screenSlots .matrix ++ List.replicate (p.honoured / 1024) .graphics := by
  have hslots : p.slots = p.screenSlots + p.honoured / 1024 := by
    change p.screenSlots + p.honoured / 1024 + (if p.hot.length ≠ 0 then 1 else 0) = _
    rw [h]
    rfl
  rw [hslots, List.range_add, List.map_append, List.map_map]
  congr 1
  · refine List.eq_replicate_iff.mpr ⟨by simp, fun r hr => ?_⟩
    obtain ⟨turn, hturn, rfl⟩ := List.mem_map.mp hr
    exact Picture.region_matrix (List.mem_range.mp hturn)
  · refine List.eq_replicate_iff.mpr ⟨by simp, fun r hr => ?_⟩
    obtain ⟨turn, hturn, rfl⟩ := List.mem_map.mp hr
    exact Picture.region_graphics (Nat.le_add_right _ _)
      (Nat.add_lt_add_left (List.mem_range.mp hturn) _)

/-- Each round of the turns serves each region equally often. -/
theorem count_schedule_rounds (rounds : ℕ) (r : ScrubRegion) :
    (p.schedule d (rounds * p.slots)).count r =
      rounds * ((List.range p.slots).map p.region).count r := by
  have hround : ((List.range p.slots).map fun i => p.region ((p.turn d + i) % p.slots)).Perm
      ((List.range p.slots).map p.region) := by
    have hcoprime : Nat.Coprime 1 p.slots := Nat.coprime_one_left _
    have hperm := strideAt_perm hcoprime (p.turn d)
    simpa [strideAt, List.map_map, Function.comp_def] using hperm.map p.region
  induction rounds with
  | zero => simp [Picture.schedule]
  | succ rounds ih =>
      have hshift (i : ℕ) : (p.turn d + (rounds * p.slots + i)) % p.slots =
          (p.turn d + i) % p.slots := by
        rw [Nat.add_left_comm, Nat.mul_add_mod']
      rw [Nat.succ_mul, Picture.schedule, List.range_add, List.map_append, List.map_map,
        List.count_append, Nat.succ_mul, ← ih, ← hround.count_eq]
      simp only [Function.comp_def, hshift]
      rfl

theorem count_schedule_mono {calls calls' : ℕ} (h : calls ≤ calls') (r : ScrubRegion) :
    (p.schedule d calls).count r ≤ (p.schedule d calls').count r :=
  ((List.range_sublist.mpr h).map _).count_le r

/-- Where the beam shows no sprite, sixteen rounds come to the whole picture. -/
theorem reached_of_no_sprites (b : WriteBuffer) (hhot : p.hot = []) {calls : ℕ}
    (hcalls : 16 * p.slots ≤ calls) {a : Addr} (ha : a ∈ p.shown)
    (hmirror : b.shouldMirror a = true) : ∃ r, a ∈ p.reached b calls r := by
  have hreached (r : ScrubRegion)
      (hlength : p.length r ≤ 1024 * ((List.range p.slots).map p.region).count r)
      (hplace : a ∈ p.places r) : a ∈ p.reached b calls r := by
    have hcount := count_schedule_mono p b.displayScrub hcalls r
    rw [count_schedule_rounds] at hcount
    have hfront : (p.front b r).length ≤ p.length r := by
      refine (List.length_filter_le _ _).trans ?_
      simp [Picture.places]
    rw [Picture.reached, List.take_of_length_le (by omega)]
    exact List.mem_filter.mpr ⟨List.mem_rotate.mpr hplace, hmirror⟩
  obtain hmatrix | hgraphics := List.mem_append.mp ha
  · refine ⟨.matrix, hreached _ ?_ hmatrix⟩
    rw [regions_round p hhot]
    simp only [Picture.length, Picture.screenSlots, List.count_append, List.count_replicate]
    split <;> simp
  · refine ⟨.graphics, hreached _ ?_ hgraphics⟩
    have hhonoured := p.honoured_le
    rw [regions_round p hhot]
    simp only [Picture.length, List.count_append, List.count_replicate]
    simp only [beq_self_eq_true, if_true]
    omega

/-- The calls of the phase are sixteen rounds, where the beam shows no sprite. -/
theorem rounds_le_repairCalls (f : Fetch) {w : View} (hhot : (f.picture w).hot = []) :
    16 * (f.picture w).slots ≤ f.repairCalls := by
  have hscreen : (f.picture w).screenSlots ≤ 1 := by
    rw [Picture.screenSlots]
    split <;> omega
  have hhonoured : (f.picture w).honoured ≤ f.graphics.2 := by
    change WriteBuffer.scrubGraphicsLength f.graphics.1 f.graphics.2 ≤ _
    rw [WriteBuffer.scrubGraphicsLength]
    split_ifs <;> omega
  have hgraphics := Nat.div_le_div_right (c := 1024) hhonoured
  have hslots : (f.picture w).slots =
      (f.picture w).screenSlots + (f.picture w).honoured / 1024 + 0 := by
    change _ + (if (f.picture w).hot.length ≠ 0 then 1 else 0) = _
    rw [hhot]
    rfl
  rw [hslots, Fetch.repairCalls]
  omega

end Laps

section Covers

variable (pendingValue : Addr → Byte) (list : ℕ → Addr) (ops : List WriteBuffer.Op)
  (video : C64VideoStandard) (f : Fetch) {w : View} {ram : Addr → Byte} (d : ResyncDiagnostic)
  (frames : List FrameEnd)

/-- A phase that completes has rewritten the bytes of the picture that are mirrored, exactly if
each of them is within reach of its calls: among the first 64 bytes per call from the cursor of
a region on, the calls dealt out in turn to the matrix, to each 1K of graphics and to the
sprites. -/
theorem repair_phase_covers_iff (hram : View.ram w = some ram) :
    let b := run WriteBuffer.step (.construct pendingValue list) ops
    let p := f.picture w
    let last := run (repairFrame video f w) ⟨b, d, []⟩ frames
    b.bus = true → d.phase = .repairing → d.repairCallsRemaining = f.repairCalls →
      last.diagnostic.phase = .complete →
        ((∀ a ∈ p.shown, b.shouldMirror a = true →
            Rewrites last.calls (WriteBuffer.healed w ram a)) ↔
          ∀ a ∈ p.shown, b.shouldMirror a = true → ∃ r, a ∈ p.reached b f.repairCalls r) := by
  intro b p last hbus hphase hcalls hdone
  rw [← hcalls]
  exact covers_iff video f pendingValue list ops d frames hram hbus hphase hdone

/-- Where the beam shows no sprite, a phase that completes has rewritten the picture. -/
theorem repair_phase_covers_without_sprites (hram : w.ram = some ram)
    (hhot : (f.picture w).hot = []) :
    let b := run WriteBuffer.step (.construct pendingValue list) ops
    let last := run (repairFrame video f w) ⟨b, d, []⟩ frames
    b.bus = true → d.phase = .repairing → d.repairCallsRemaining = f.repairCalls →
      last.diagnostic.phase = .complete →
        ∀ a ∈ (f.picture w).shown, b.shouldMirror a = true →
          Rewrites last.calls (WriteBuffer.healed w ram a) := by
  intro b last hbus hphase hcalls hdone
  have hiff := covers_iff video f pendingValue list ops d frames hram hbus hphase hdone
  have hrounds : 16 * (f.picture w).slots ≤ d.repairCallsRemaining := by
    rw [hcalls]
    exact rounds_le_repairCalls f hhot
  exact hiff.mpr fun a ha hmirror => reached_of_no_sprites (f.picture w) b hhot hrounds ha hmirror

end Covers

section Phase

variable {κ β : Type} (core : ICpu κ (System (Fitted β))) (b : Host β) {f : Fetch} {w : View}
  {ram : Addr → Byte} {s u : CSuperCPU κ}

/-- The machine at the ends of frames that show one picture. Between two of them nothing else
touches the write buffer, the phase or the bus. -/
inductive CSuperCPU.RepairFrames (f : Fetch) (w : View) : CSuperCPU κ → CSuperCPU κ → Prop
  | refl (s : CSuperCPU κ) : RepairFrames f w s s
  | frame {s t u : CSuperCPU κ} (hfetch : (s.memory core).fetch = f)
      (hview : (s.memory core).view = w)
      (hnext : t.repairing core =
        ((CSuperCPU.runResyncDiagnosticRepair core b).run s).2.repairing core)
      (rest : RepairFrames f w t u) : RepairFrames f w s u

/-- The machine does over the frames what `repairFrame` does over what it sees of them. -/
theorem CSuperCPU.repairing_repairFrames (h : RepairFrames core b f w s u) :
    ∃ frames, u.repairing core = run (repairFrame b.video f w) (s.repairing core) frames := by
  induction h with
  | refl s => exact ⟨[], rfl⟩
  | @frame s t u hfetch hview hnext rest ih =>
      obtain ⟨frames, hframes⟩ := ih
      obtain ⟨line, hline⟩ := CSuperCPU.repairing_runResyncDiagnosticRepair core b s
      refine ⟨⟨s.mirrorHalted core, s.iecBusActive core, line⟩ :: frames, ?_⟩
      rw [hframes, run_cons, hnext, hline, hfetch, hview]

/-- Over the frames of a phase that completes, what goes out is what the regions reach. -/
theorem CSuperCPU.rewrites_repairFrames (h : RepairFrames core b f w s u) (hram : w.ram = some ram)
    (hsettled : (s.repairing core).Settled) (hslots : (f.picture w).slots ≠ 0)
    (hphase : s.diagnostic.phase = .repairing) (hdone : u.diagnostic.phase = .complete) (a : Addr) :
    Rewrites (sentCalls u.log) (WriteBuffer.healed w ram a) ↔
      Rewrites (sentCalls s.log) (WriteBuffer.healed w ram a) ∨
        ∃ r, a ∈ (f.picture w).reached (s.writeBuffer core)
          s.diagnostic.repairCallsRemaining r := by
  obtain ⟨frames, hframes⟩ := repairing_repairFrames core b h
  have hlast : (run (repairFrame b.video f w) (s.repairing core) frames).diagnostic.phase =
      .complete := hframes ▸ hdone
  have hrun := rewrites_run b.video f hsettled hram hslots hphase frames hlast a
  dsimp only at hrun
  rw [← hframes, mem_met] at hrun
  exact hrun

end Phase

/-! Text of the built-in character set with the matrix at $0400, and sprite 0 on the block at
$0340 where it is enabled. -/

def textRam : Addr → Byte := fun a => if a = 0x07F8#16 then 13 else 0

def textFetch (enabled : Byte) : Fetch :=
  (Fetch.construct 0 0 0x14 fun r => if r = 0x15 then enabled else 0).updateSpritePtrBase
    |>.updateHotShapeBlocks textRam

def textView (enabled : Byte) : View where
  ram := some textRam
  hotBlocks := some (textFetch enabled).hotShapeBlocks
  hotBlocksGeneration := some (textFetch enabled).hotShapeGeneration
  relocation := some (textFetch enabled).relocation

/-- The phase at its start, with sixteen calls, over a buffer that is attached and empty. -/
def textRepair : Repairing where
  buffer := run WriteBuffer.step (.construct (fun _ => 0) fun _ => 0) [.attach true]
  diagnostic := ⟨false, false, .repairing, 0, 0, 0, false, 16⟩
  calls := []

def borderFrames : List FrameEnd := List.replicate 16 ⟨false, false, 0⟩

def textRepaired (enabled : Byte) : Repairing :=
  run (repairFrame .pal (textFetch enabled) (textView enabled)) textRepair borderFrames

theorem ram_textView (enabled : Byte) : (textView enabled).ram = some textRam := rfl

theorem textRepair_eq :
    textRepair = ⟨run WriteBuffer.step (.construct (fun _ => 0) fun _ => 0) [.attach true],
      textRepair.diagnostic, []⟩ := rfl

theorem settled_textRepair : textRepair.Settled := settled_of_reachable _ _ _ _ rfl rfl

theorem textRepaired_complete (enabled : Byte)
    (hslots : ((textFetch enabled).picture (textView enabled)).slots ≠ 0) :
    (textRepaired enabled).diagnostic.phase = .complete := by
  have hadmitted : ∀ e ∈ borderFrames, e.Admits .pal := by
    intro e he
    rw [List.eq_of_mem_replicate he]
    exact ⟨rfl, rfl, by decide⟩
  unfold textRepaired
  exact run_repairFrame_completes .pal (textFetch enabled) settled_textRepair (ram_textView enabled)
    hslots rfl rfl borderFrames hadmitted (by decide) rfl

/-- Without the sprite all of the matrix is rewritten. -/
theorem repair_phase_covers_text :
    (textRepaired 0).diagnostic.phase = .complete ∧
      ∀ a ∈ ((textFetch 0).picture (textView 0)).shown,
        textRepair.buffer.shouldMirror a = true →
          Rewrites (textRepaired 0).calls (WriteBuffer.healed (textView 0) textRam a) := by
  have hslots : ((textFetch 0).picture (textView 0)).slots ≠ 0 := by decide +kernel
  have hhot : ((textFetch 0).picture (textView 0)).hot = [] := by decide +kernel
  have hdone := textRepaired_complete 0 hslots
  unfold textRepaired at hdone ⊢
  rw [textRepair_eq] at hdone ⊢
  have hiff := repair_phase_covers_iff (fun _ => 0) (fun _ => 0) [.attach true] .pal (textFetch 0)
    textRepair.diagnostic borderFrames (ram_textView 0) rfl rfl
    (by decide +kernel) hdone
  refine ⟨hdone, hiff.mpr fun a ha hmirror => ?_⟩
  exact reached_of_no_sprites ((textFetch 0).picture (textView 0)) _ hhot
    (rounds_le_repairCalls (textFetch 0) hhot) ha hmirror

/-- With the sprite every other call goes to the sprite, and the lower half of the matrix is
not rewritten. -/
theorem repair_phase_leaves_matrix :
    (textRepaired 1).diagnostic.phase = .complete ∧
      0x0600#16 ∈ ((textFetch 1).picture (textView 1)).shown ∧
      textRepair.buffer.shouldMirror 0x0600 = true ∧
      ¬ Rewrites (textRepaired 1).calls (WriteBuffer.healed (textView 1) textRam 0x0600) := by
  have hslots : ((textFetch 1).picture (textView 1)).slots ≠ 0 := by decide +kernel
  have hdone := textRepaired_complete 1 hslots
  have hshown : 0x0600#16 ∈ ((textFetch 1).picture (textView 1)).shown :=
    List.mem_append_left _ (List.mem_map.mpr ⟨512, by decide +kernel, by decide +kernel⟩)
  have hnot : ∀ r, 0x0600#16 ∉
      ((textFetch 1).picture (textView 1)).reached textRepair.buffer 16 r := by
    intro r
    cases r <;> decide +kernel
  unfold textRepaired at hdone ⊢
  refine ⟨hdone, hshown, by decide, fun hsent => ?_⟩
  have hrun := (rewrites_run .pal (textFetch 1) settled_textRepair (ram_textView 1) hslots rfl
    borderFrames hdone _).mp hsent
  rw [mem_met] at hrun
  obtain ⟨burst, hburst, -⟩ | ⟨r, hr⟩ := hrun
  · cases hburst
  · exact hnot r hr

end ScpuEmu
