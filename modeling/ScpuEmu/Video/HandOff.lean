import ScpuEmu.Video.HandOffStore

/-!
# Handing the event log to the display core

The emulation core stores, writes and publishes while the display core latches, scans
and replays, in any order. An event is applied as it was appended if its slot was not
overwritten before that read. In runs that keep to this, and whose primes keep to theirs,
the persistent registers are those of the log up to the tail.
-/

namespace ScpuEmu

open Library AtomicProgram SharedStore

namespace HandOffStore

/-- A replay of the events from the tail to `head` has come to the event `i`. -/
structure Replaying (base : Scalars) (replay : VICRasterReplay) (head : BitVec 32) (start : ℕ)
    (i : BitVec 32) (s : HandOffStore) (x : Scalars) : Prop where
  sound : s.Sound base
  generation : replay.generation = s.producer.capture.vicLogGeneration
  start_le : start ≤ s.history.latched
  tail_eq : replay.timeline.tail = BitVec.ofNat 32 start
  head_eq : head = BitVec.ofNat 32 s.history.latched
  near : (head - replay.timeline.tail).toNat ≤ vicLogSize
  next_eq : s.history.next = start + (i - replay.timeline.tail).toNat
  next_le : s.history.next ≤ s.producer.published
  current : ∀ cell, Current base s x cell

section Replay

variable {s s' : HandOffStore} {base : Scalars} {replay : VICRasterReplay} {head i : BitVec 32}
  {start : ℕ} {x : Scalars}

theorem Replaying.later (h : Replaying base replay head start i s x) (hlater : Later s s') :
    Replaying base replay head start i s' x := by
  have hhistory := hlater.1
  refine ⟨h.sound.later hlater, h.generation.trans hlater.follows.generation.symm, ?_, h.tail_eq,
    ?_, h.near, ?_, ?_, ?_⟩
  · rw [hhistory]
    exact h.start_le
  · rw [hhistory]
    exact h.head_eq
  · rw [hhistory]
    exact h.next_eq
  · rw [hhistory]
    exact h.next_le.trans hlater.follows.published
  · exact fun cell => (h.current cell).later h.next_le hlater

theorem Replaying.index (h : Replaying base replay head start i s x) :
    i = BitVec.ofNat 32 s.history.next := by
  rw [h.next_eq, BitVec.ofNat_add, ← h.tail_eq, BitVec.ofNat_toNat, BitVec.setWidth_eq,
    add_sub_cancel]

/-- If the next slot is not overwritten, the head cannot have gone round the counter, and
the slot holds the next event. -/
theorem Replaying.promised (h : Replaying base replay head start i s x)
    (hlt : (i - replay.timeline.tail).toNat < (head - replay.timeline.tail).toNat)
    (hallowed : s.Allowed (.slot true i)) : s.Promised (.slot true i) := by
  have hallowed : s.producer.appended.length ≤ s.history.next + vicLogSize := hallowed
  have hpublished := s.producer.published_le
  have hlatched := h.sound.latched_le
  have hnear := h.near
  have hnext := h.next_eq
  have hdist : (head - replay.timeline.tail).toNat = s.history.latched - start := by
    rw [h.head_eq, h.tail_eq]
    refine toNat_ofNat_sub h.start_le ?_
    simp only [vicLogSize] at hallowed hnear
    omega
  have hnextlt : s.history.next < s.producer.published := by omega
  obtain ⟨e, hget⟩ : ∃ e, s.producer.appended[s.history.next]? = some e :=
    ⟨_, List.getElem?_eq_getElem (hnextlt.trans_le hpublished)⟩
  refine ⟨h.index, hnextlt, e, hget, ?_⟩
  rw [h.index, rasterEvent_ofNat]
  exact h.sound.producer.kept _ _ hget hallowed

/-- Applying the next event moves the registers on with the log. -/
theorem Replaying.apply (h : Replaying base replay head start i s x)
    (hdist : (i - replay.timeline.tail).toNat < (head - replay.timeline.tail).toNat)
    (hallowed : s.Allowed (.slot true i)) :
    Replaying base replay head start (i + 1#32) (s.note (.slot true i))
      (applyScalar x (rasterEvent s.producer.capture.vicLog i)) := by
  obtain ⟨hindex, hlt, e, hget, hmatches⟩ := h.promised hdist hallowed
  have hwrite : (rasterEvent s.producer.capture.vicLog i).write = e.write :=
    Prod.ext hmatches.register hmatches.value
  refine ⟨h.sound.note _, h.generation, h.start_le, h.tail_eq, h.head_eq, h.near, ?_, hlt,
    fun cell => ?_⟩
  · change s.history.next + 1 = _
    have hne : i ≠ head := by
      rintro rfl
      exact lt_irrefl _ hdist
    rw [(between_succ hdist.le hne).2, h.next_eq, Nat.add_assoc]
  · have hfold : (s.producer.appended.take (s.history.next + 1)).foldl applyScalar base =
        applyScalar ((s.producer.appended.take s.history.next).foldl applyScalar base) e := by
      rw [List.take_add_one, hget, Option.toList_some, List.foldl_append]
      rfl
    change cell.of _ = cell.of ((s.producer.appended.take (s.history.next + 1)).foldl
      applyScalar base) ∨ s.history.next + 1 = s.history.primed ∧ _
    rw [hfold, applyScalar_eq, applyScalar_eq, hwrite, cell_applyWrite, cell_applyWrite]
    refine .inl ?_
    by_cases hcode : e.write.1 = cell.code
    · rw [if_pos hcode, if_pos hcode]
    · rw [if_neg hcode, if_neg hcode]
      rcases h.current cell with hcurrent | ⟨hprimed, change, hexempt, hchange, -⟩
      · exact hcurrent
      · -- the change that was in progress at the prime is the next event, and it has this code
        have hpending := h.sound.exempt change hexempt
        rw [← hprimed, VICProducer.writes_of_appended _ hget, Option.some.injEq] at hpending
        exact absurd (hpending ▸ hchange) hcode

theorem ensures_applyRangeM {a b : BitVec 32} {y : RasterState}
    (h : Replaying base replay head start a s y.scalars) (hab : Between replay.timeline.tail a b)
    (hb : Between replay.timeline.tail b head) :
    shared.Ensures (y.applyRangeM true (cyclicRange a b))
      (fun s y => Replaying base replay head start b s y.scalars) s := by
  refine ensures_foldlM_cyclicRange
    (fun i s (y : RasterState) => Replaying base replay head start i s y.scalars) ?_ ?_ hab h
  · exact fun h hlater => h.later hlater
  · intro i s y hi hne hreplaying
    have hdist : (i - replay.timeline.tail).toNat < (head - replay.timeline.tail).toNat := by
      obtain ⟨hsucc, hcount⟩ := between_succ hi hne
      rw [Between, hcount] at hsucc
      exact Nat.lt_of_lt_of_le hsucc hb
    refine ensures_query_bind fun s' hs' hallowed => ?_
    have hs := hreplaying.later hs'
    refine ⟨hs.promised hdist hallowed, ensures_pure fun s'' hs'' => ?_⟩
    have happly := hs.apply hdist hallowed
    rw [← scalars_applyEvent] at happly
    exact happly.later hs''

theorem ensures_replayBandsM {bands : List VICRasterBand} {a z : BitVec 32} {y : RasterState}
    (h : Replaying base replay head start a s y.scalars)
    (hchains : VICRasterTimeline.Chains replay.timeline.tail a bands z)
    (hz : Between replay.timeline.tail z head) :
    shared.Ensures (VICRasterReplay.replayBandsM bands y)
      (fun s r => Replaying base replay head start z s r.2.scalars) s := by
  induction bands generalizing a y s with
  | nil =>
      obtain rfl : a = z := hchains
      exact ensures_pure fun s' hs' => h.later hs'
  | cons band bands ih =>
      obtain ⟨hbegin, hend, hrest⟩ := hchains
      rw [← hbegin] at h hend
      have hle := between_trans hrest.le hz
      refine (ensures_applyRangeM h hend hle).bind fun s' y' h' => ?_
      refine (ih h' hrest).bind fun s'' r h'' => ensures_pure fun s₃ h₃ => h''.later h₃

theorem ensures_replayEventsM {frame : VICRasterFrame} {y : RasterState}
    (h : Replaying base replay head start replay.timeline.tail s y.scalars)
    (hchains : VICRasterTimeline.Chains replay.timeline.tail replay.timeline.tail frame.bands
      frame.finishBegin)
    (hfinish : Between replay.timeline.tail frame.finishBegin frame.finishEnd)
    (hhead : Between replay.timeline.tail frame.finishEnd head) :
    shared.Ensures (VICRasterReplay.replayEventsM y frame)
      (fun s r => Replaying base replay head start frame.finishEnd s r.2.scalars) s := by
  refine (ensures_replayBandsM h hchains (between_trans hfinish hhead)).bind fun s' r h' => ?_
  refine (ensures_applyRangeM h' hfinish hhead).bind fun s'' y' h'' => ?_
  exact ensures_pure fun s₃ h₃ => h''.later h₃

theorem note_of_scans {q : VICQuery} (hq : Scans q) : s.note q = s := by
  cases q with
  | slot applied i =>
      cases applied with
      | false => rfl
      | true => exact hq.elim
  | _ => exact hq.elim

theorem promised_of_scans {q : VICQuery} (hq : Scans q) : s.Promised q := by
  cases q with
  | slot applied i =>
      cases applied with
      | false => trivial
      | true => exact hq.elim
  | _ => exact hq.elim

/-- A scan leaves the store to the emulation core. -/
theorem ensures_of_scans {α : Type} {p : DisplayM α} {post : α → Prop} (inv : HandOffStore → Prop)
    (hyields : p.Yields Scans post) (hlater : ∀ {s s'}, inv s → Later s s' → inv s')
    (hs : inv s) : shared.Ensures p (fun s a => post a ∧ inv s) s :=
  ensures_of_yields hyields (fun _ _ hq => promised_of_scans hq) hlater
    (fun hq h => by rw [show shared.note _ _ = _ from note_of_scans hq]; exact h) hs

theorem ensures_replayFrameM {frame : FrameInput} {latch : VICLatch}
    {framed : VICRasterTimeline × VICRasterFrame}
    (h : Replaying base replay head start replay.timeline.tail s replay.state.scalars)
    (hprimed : replay.primed = true) (hframed : replay.timeline.Draws head framed)
    (hreplay : framed.2.result = .replay) :
    shared.Ensures (replay.replayFrameM (frame.build none latch) framed.1 framed.2)
      (fun s r => s.HandsOver base r.1) s := by
  have hscan : ∀ {α : Type} {p : DisplayM α} {s : HandOffStore}, p.Yields Scans (fun _ => True) →
      Replaying base replay head start replay.timeline.tail s replay.state.scalars →
        shared.Ensures p (fun s _ => True ∧ Replaying base replay head start
          replay.timeline.tail s replay.state.scalars) s := fun hyields hs =>
    ensures_of_scans (fun s => Replaying base replay head start replay.timeline.tail s
      replay.state.scalars) hyields (fun h hlater => h.later hlater) hs
  refine (hscan (RasterState.yields_applyRangeM _) h).bind fun s₁ startState h₁ => ?_
  refine (hscan (VICRasterTimeline.yields_yScrollVariesInDisplayM _ _ _ _) h₁.2).bind
    fun s₂ varies h₂ => ?_
  refine (ensures_replayEventsM h₂.2 (hframed.chains hreplay) (hframed.finish hreplay)
    (hframed.finish_le hreplay)).bind fun s₃ r h₃ => ?_
  refine ensures_pure fun s₄ h₄ => HandsOver.later ?_ h₄
  refine ⟨hprimed, h₃.generation, (hframed.tail hreplay).trans h₃.index, h₃.next_le,
    fun cell => ?_⟩
  rw [scalars_reseed]
  exact h₃.current cell

end Replay

section Build

variable {s : HandOffStore} {base : Scalars} {x : VICRasterReplay}

/-- A build on what was latched, from where the last one left the replay. -/
theorem ensures_buildM {latch : VICLatch} (h : Resting base x s) (hlatched : Latched base s latch)
    (hahead : Ahead x s) (frame : FrameInput) :
    shared.Ensures (x.buildM (frame.build none latch)) (fun s r => s.HandsOver base r.1) s := by
  rw [VICRasterReplay.buildM]
  split
  · exact ensures_rePrimeM h.sound hlatched frame
  · next hkeep =>
      have hprimed : x.primed = true := by
        by_contra hprimed
        exact hkeep (.inl (Bool.not_eq_true _ ▸ hprimed))
      have hlatch : latch.generation = x.generation := by
        by_contra hne
        refine hkeep (.inr (.inl ?_))
        rw [hprimed, Bool.true_and]
        exact decide_eq_true hne
      refine (ensures_of_scans (fun s => Resting base x s ∧ Latched base s latch ∧ Ahead x s)
        (VICRasterTimeline.yields_buildM x.timeline latch.head frame.now)
        (fun hs hlater => ⟨hs.1.later hlater, hs.2.1.later hlater, hs.2.2.later hlater⟩)
        ⟨h, hlatched, hahead⟩).bind fun s' framed h' => ?_
      obtain ⟨hframed, hrest, hlatched', hahead'⟩ := h'
      have hgeneration : x.generation = s'.producer.capture.vicLogGeneration :=
        hlatch.symm.trans hlatched'.generation
      have hx := hrest.handsOver hprimed hgeneration
      rw [VICRasterReplay.followM]
      cases hresult : framed.2.result with
      | hold =>
          refine ensures_pure fun s'' hs'' => ?_
          rw [hframed.hold hresult]
          exact hx.later hs''
      | snapshot => exact ensures_rePrimeM hrest.sound hlatched' frame
      | replay =>
          have hstart : Replaying base x latch.head s'.history.next x.timeline.tail s'
              x.state.scalars :=
            ⟨hrest.sound, hgeneration, hahead' hprimed hgeneration, hx.tail, hlatched'.head,
              hframed.near hresult, by simp, hx.next_le, hx.current⟩
          exact ensures_replayFrameM hstart hprimed hframed hresult

/-- A frame hands the events over, whatever the emulation core does meanwhile. -/
theorem ensures_renderFrameM (h : Resting base x s) (frame : FrameInput) :
    shared.Ensures (renderFrameM x frame) (fun s r => s.HandsOver base r.1) s :=
  (ensures_latchM h 3 _).bind fun _ _ h' => ensures_buildM h'.1 h'.2.1 h'.2.2 frame

end Build

end HandOffStore

/-- Both cores: what they share, the replay between two frames, the rest of the frame in
progress, and the number of builds done. -/
structure VICHandOff where
  store : HandOffStore
  replay : VICRasterReplay
  frame : Option (DisplayM (VICRasterReplay × VICRasterReplayPlan))
  builds : ℕ

namespace VICHandOff

inductive Op
  | produce (op : VICProducer.Op)
  | frame (input : FrameInput)
  | read

/-- One atomic step of either core. -/
def step (s : VICHandOff) : Op → VICHandOff
  | .produce op => { s with store := { s.store with producer := s.store.producer.step op } }
  | .frame input =>
      match s.frame with
      | none => { s with frame := some (renderFrameM s.replay input) }
      | some _ => s
  | .read =>
      match s.frame with
      | none => s
      | some (.done result) => { s with replay := result.1, frame := none, builds := s.builds + 1 }
      | some (.ask q next) =>
          { s with store := s.store.note q, frame := some (next (s.store.answer q)) }

/-- The next read of the frame in progress is allowed. -/
def ReadAllowed (store : HandOffStore) :
    Option (DisplayM (VICRasterReplay × VICRasterReplayPlan)) → Prop
  | some (.ask q _) => store.Allowed q
  | _ => True

instance (store : HandOffStore)
    (frame : Option (DisplayM (VICRasterReplay × VICRasterReplayPlan))) :
    Decidable (ReadAllowed store frame) :=
  match frame with
  | some (.ask q _) => inferInstanceAs (Decidable (store.Allowed q))
  | some (.done _) => isTrue trivial
  | none => isTrue trivial

/-- No slot is overwritten before its event is applied, and no byte is changed between its
sample and the sample of the head that a prime takes it for. -/
def Kept (s : VICHandOff) : Op → Prop
  | .read => ReadAllowed s.store s.frame
  | _ => True

instance (s : VICHandOff) (op : Op) : Decidable (s.Kept op) :=
  match op with
  | .read => inferInstanceAs (Decidable (ReadAllowed s.store s.frame))
  | .produce _ => isTrue trivial
  | .frame _ => isTrue trivial

/-- The start of a generation: nothing is appended yet. -/
structure Starts (p : VICProducer) : Prop where
  head : p.capture.vicLogHead = 0
  idle : p.phase = .idle
  appended : p.appended = []

def start (p : VICProducer) (replay : VICRasterReplay) : VICHandOff where
  store := ⟨p, ⟨fun _ => 0, 0, none, 0, 0, none, []⟩⟩
  replay := replay
  frame := none
  builds := 0

/-- Events are applied in order, and every build leaves the registers of the log up to the
tail. -/
structure Delivers (base : Scalars) (s : VICHandOff) : Prop where
  applied : s.store.AppliedInOrder
  built : s.frame = none → 0 < s.builds → s.store.HandsOver base s.replay

/-- The invariant: a frame in progress is going to hand over. -/
structure Holds (base : Scalars) (s : VICHandOff) : Prop where
  sound : s.store.Sound base
  delivers : s.Delivers base
  resting : s.frame = none → s.store.Resting base s.replay
  running : ∀ p, s.frame = some p →
    HandOffStore.shared.Ensures p (fun store r => store.HandsOver base r.1) s.store

variable {s : VICHandOff} {base : Scalars}

theorem holds_start {p : VICProducer} {replay : VICRasterReplay} (hp : Starts p)
    (hreplay : replay.primed = true → replay.generation ≠ p.capture.vicLogGeneration) :
    (start p replay).Holds p.live := by
  have hpublished : p.published = 0 := by rw [VICProducer.published, hp.idle, hp.appended]; rfl
  have hwrites : p.writes = [] := by rw [VICProducer.writes, hp.idle, hp.appended]; rfl
  have hsound : (start p replay).store.Sound p.live := by
    refine ⟨⟨?_, ?_, ?_, ?_⟩, Nat.zero_le _, ?_, ?_⟩
    · exact hp.head.trans (congrArg (BitVec.ofNat 32) hpublished.symm)
    · intro n e hn
      simp [start, hp.appended] at hn
    · intro cell
      rw [show (start p replay).store.producer.writes = [] from hwrites]
      rfl
    · intro change hphase
      rw [show (start p replay).store.producer.phase = .idle from hp.idle] at hphase
      cases hphase
    · intro _ h
      cases h
    · intro _ h
      cases h
  refine ⟨hsound, ⟨fun a ha => (by cases ha), fun _ h => absurd h (lt_irrefl 0)⟩,
    fun _ => ⟨hsound, ?_⟩, fun _ h => by cases h⟩
  exact fun hprimed hgeneration => absurd hgeneration (hreplay hprimed)

/-- The emulation core keeps everything that the display core relies on. -/
theorem Holds.produce (h : s.Holds base) (op : VICProducer.Op) :
    (s.step (.produce op)).Holds base := by
  have hlater : s.store.Later (s.step (.produce op)).store := ⟨rfl, [op], rfl⟩
  refine ⟨h.sound.later hlater, ⟨h.delivers.applied.later hlater, fun hframe hbuilds => ?_⟩,
    fun hframe => ?_, fun p hp => ?_⟩
  · exact (h.delivers.built hframe hbuilds).later hlater
  · exact (h.resting hframe).later hlater
  · exact (h.running p hp).later hlater

theorem Holds.frame (h : s.Holds base) (input : FrameInput) :
    (s.step (.frame input)).Holds base := by
  rw [step]
  split
  · next hframe =>
      refine ⟨h.sound, ⟨h.delivers.applied, (fun hnone => nomatch hnone)⟩,
        (fun hnone => nomatch hnone), fun p hp => ?_⟩
      rw [← Option.some.inj hp]
      exact HandOffStore.ensures_renderFrameM (h.resting hframe) input
  · exact h

/-- One read of the display core. -/
theorem Holds.read (h : s.Holds base) (hkept : s.Kept .read) : (s.step .read).Holds base := by
  rw [step]
  split
  · exact h
  · next result hframe =>
      have hdone : s.store.HandsOver base result.1 :=
        h.running _ hframe s.store (HandOffStore.shared.refl s.store)
      exact ⟨h.sound, ⟨h.delivers.applied, fun _ _ => hdone⟩, fun _ => ⟨h.sound, fun _ _ => hdone⟩,
        fun _ hp => nomatch hp⟩
  · next q next hframe =>
      have hallowed : s.store.Allowed q := by
        rw [Kept, hframe] at hkept
        exact hkept
      obtain ⟨hpromised, hnext⟩ :=
        h.running _ hframe s.store (HandOffStore.shared.refl s.store) hallowed
      refine ⟨h.sound.note q, ⟨h.delivers.applied.note hpromised, (fun hnone => nomatch hnone)⟩,
        (fun hnone => nomatch hnone), fun p hp => ?_⟩
      rw [← Option.some.inj hp]
      exact hnext

theorem Holds.step (h : s.Holds base) (op : Op) (hkept : s.Kept op) :
    (s.step op).Holds base := by
  cases op with
  | produce op => exact h.produce op
  | frame input => exact h.frame input
  | read => exact h.read hkept

/-- Over one generation and any interleaving of the two cores: as long as no event is
overwritten before it is applied, and no prime takes a byte from before an event that its
head counts, every event is applied as it was appended, and every build leaves the
registers and the bank of the events up to its tail. -/
theorem delivers_run (p : VICProducer) (replay : VICRasterReplay) (hp : Starts p)
    (hreplay : replay.primed = true → replay.generation ≠ p.capture.vicLogGeneration)
    (ops : List Op) (hops : AllSteps step Kept (start p replay) ops) :
    (run step (start p replay) ops).Delivers p.live :=
  (run_invariant_of_allSteps step (P := Holds p.live) (fun _ op h hop => h.step op hop)
    (start p replay) ops (holds_start hp hreplay) hops).delivers

/-- A core that has not stored anything yet. -/
def quietProducer : VICProducer where
  capture := { RasterCapture.construct (fun _ => ⟨0, 0, 0, 0⟩) with vicLogEnabled := true }
  vicRegShadow _ := 0
  vicBank := 0
  phase := .idle
  appended := []

theorem starts_quietProducer : Starts quietProducer := ⟨rfl, rfl, rfl⟩

/-- The stores of one append. -/
def append (change : VICChange) (now : BitVec 32) : List Op :=
  [.produce (.store change), .produce (.writeSlot now), .produce .publish]

def reads (n : ℕ) : List Op := List.replicate n .read

/-- A frame long after the last event, with the beam known. -/
def lateFrame : FrameInput := ⟨100000, 1#64 <<< 63, palTiming, none⟩

/-- A frame that primes, two border colours, and a frame that replays them. -/
def borderRun : List Op :=
  .frame lateFrame :: reads 71 ++ append (.register 0x20 1) 63 ++ append (.register 0x20 2) 126 ++
    .frame lateFrame :: reads 79

theorem delivers_borderRun :
    (run step (start quietProducer VICRasterReplay.construct) borderRun).builds = 2 ∧
      (run step (start quietProducer VICRasterReplay.construct) borderRun).Delivers
        quietProducer.live := by
  refine ⟨by decide +kernel, delivers_run quietProducer VICRasterReplay.construct
    starts_quietProducer (fun h => nomatch h) borderRun ?_⟩
  decide +kernel

/-- Four attempts, each overtaken by the append of a border colour after the registers are
sampled, and the build that primes itself from the last. -/
def tornRun : List Op :=
  .frame lateFrame ::
    (List.range 4).flatMap (fun k =>
      reads 66 ++ append (.register 0x20 (BitVec.ofNat 8 (k + 1))) 0 ++ reads 3) ++ reads 2

def tornState : VICHandOff := run step (start quietProducer VICRasterReplay.construct) tornRun

/-- Then the head counts the last colour, and the replay never learns of it. -/
theorem torn_latch_loses_event :
    ¬ ∀ (p : VICProducer) (replay : VICRasterReplay), Starts p →
      (replay.primed = true → replay.generation ≠ p.capture.vicLogGeneration) →
      ∀ ops, (run step (start p replay) ops).Delivers p.live := by
  intro h
  have hdelivers : tornState.Delivers quietProducer.live :=
    h quietProducer VICRasterReplay.construct starts_quietProducer (fun h => nomatch h) tornRun
  have hbuilt : tornState.frame.isNone = true ∧ 0 < tornState.builds := by decide +kernel
  have hexempt : tornState.store.history.exempt.isNone = true := by decide +kernel
  have hvalue : (VICCell.register 0x20).of tornState.replay.state.scalars ≠
      (VICCell.register 0x20).of ((tornState.store.producer.appended.take
        tornState.store.history.next).foldl applyScalar quietProducer.live) := by decide +kernel
  rcases (hdelivers.built (Option.isNone_iff_eq_none.mp hbuilt.1) hbuilt.2).current
    (.register 0x20) with hcurrent | ⟨-, change, hchange, -⟩
  · exact hvalue hcurrent
  · rw [Option.isNone_iff_eq_none.mp hexempt] at hchange
    cases hchange

end VICHandOff

end ScpuEmu
