import ScpuEmu.Video.ReplayPlan
import ScpuEmu.Video.PageSelection
import ScpuEmu.Library.TransitionSystem

/-!
# Every event is consumed once

The producer appends events without end, and the log keeps the last 2048 of
them under 32-bit numbers. A cursor follows the replay with unbounded numbers:
where it was primed, how far it has read, and how far the log has grown. As long
as the log is never overrun, the registers and the bank of the replay are those
it was primed with, changed by every event from there to the tail.
-/

namespace ScpuEmu

open Library VICRasterTimeline VICRasterReplay

/-- Registers and bank, which events change without looking at the sprite pointers. -/
abbrev Scalars := Registers × Byte

def RasterState.scalars (s : RasterState) : Scalars := (s.vic, s.bank)

/-- The register or bank change of one event. -/
def applyScalar (x : Scalars) (event : VICRegWrite) : Scalars :=
  if event.register < 0x40 then (Function.update x.1 event.register event.value, x.2)
  else if event.register = 0x40 then (x.1, event.value &&& 3)
  else x

theorem scalars_applyEvent (s : RasterState) (event : VICRegWrite) :
    (s.applyEvent event).scalars = applyScalar s.scalars event := by
  rw [RasterState.applyEvent, applyScalar]
  split
  · rfl
  · split
    · rfl
    · split <;> rfl

theorem scalars_applyRange (log : VICLog) (s : RasterState) (l : List (BitVec 32)) :
    (s.applyRange log l).scalars = (l.map (rasterEvent log)).foldl applyScalar s.scalars := by
  induction l generalizing s with
  | nil => rfl
  | cons i l ih =>
      refine (ih _).trans ?_
      rw [scalars_applyEvent]
      rfl

theorem scalars_reseed (s : RasterState) (ram : Option (Addr → Byte)) :
    (reseed s ram).scalars = s.scalars := by
  cases ram with
  | none => rfl
  | some ram =>
      rw [reseed]
      split <;> rfl

theorem scalars_rePrime (input : BuildInput) :
    (rePrime input).state.scalars = (input.live.registers, input.live.bank &&& 3) := by
  rw [rePrime]
  dsimp only
  split <;> rfl

/-- Two events make the same change; their raster lines may differ. -/
def SameWrite (event event' : VICRegWrite) : Prop :=
  event.register = event'.register ∧ event.value = event'.value

theorem applyScalar_congr (x : Scalars) {event event' : VICRegWrite}
    (h : SameWrite event event') : applyScalar x event = applyScalar x event' := by
  rw [applyScalar, applyScalar, h.1, h.2]

/-- The registers and bank after the events with numbers from `p` up to `t`. -/
def foldEvents (events : ℕ → VICRegWrite) (x : Scalars) (p t : ℕ) : Scalars :=
  ((List.range' p (t - p)).map events).foldl applyScalar x

theorem foldEvents_append (events : ℕ → VICRegWrite) (x : Scalars) {p t t' : ℕ} (hp : p ≤ t)
    (ht : t ≤ t') :
    foldEvents events (foldEvents events x p t) t t' = foldEvents events x p t' := by
  have hsplit : List.range' p (t' - p) = List.range' p (t - p) ++ List.range' t (t' - t) := by
    have hjoin : List.range' p (t - p) ++ List.range' (p + (t - p)) (t' - t) = _ :=
      List.range'_append_1
    rw [Nat.add_sub_cancel' hp] at hjoin
    rw [hjoin]
    congr 1
    omega
  rw [foldEvents, foldEvents, foldEvents, hsplit, List.map_append, List.foldl_append]

/-- The slot a number of the unbounded sequence is kept in. -/
theorem slot_ofNat (n : ℕ) : (BitVec.ofNat 32 n &&& 0x7FF#32).toNat = n % vicLogSize := by
  rw [BitVec.toNat_and, BitVec.toNat_ofNat]
  change n % 2 ^ 32 &&& (2 ^ 11 - 1) = n % 2 ^ 11
  rw [Nat.and_two_pow_sub_one_eq_mod]
  exact Nat.mod_mod_of_dvd n (Dvd.intro (2 ^ 21) rfl)

theorem rasterEvent_ofNat (log : VICLog) (n : ℕ) :
    rasterEvent log (BitVec.ofNat 32 n) = log (n % vicLogSize) := by
  rw [rasterEvent, slot_ofNat]

/-- The counter keeps short distances. -/
theorem toNat_ofNat_sub {t t' : ℕ} (h : t ≤ t') (hlt : t' - t < 2 ^ 32) :
    (BitVec.ofNat 32 t' - BitVec.ofNat 32 t).toNat = t' - t := by
  have hsum : BitVec.ofNat 32 t' = BitVec.ofNat 32 t + BitVec.ofNat 32 (t' - t) := by
    rw [← BitVec.ofNat_add, Nat.add_sub_cancel' h]
  rw [hsum, add_sub_cancel_left, BitVec.toNat_ofNat, Nat.mod_eq_of_lt hlt]

/-- A short stretch of unbounded numbers is a range of the 32-bit counter. -/
theorem cyclicRange_ofNat {t t' : ℕ} (h : t ≤ t') (hlt : t' - t < 2 ^ 32) :
    cyclicRange (BitVec.ofNat 32 t) (BitVec.ofNat 32 t') =
      (List.range' t (t' - t)).map (BitVec.ofNat 32) := by
  rw [cyclicRange, toNat_ofNat_sub h hlt, List.range'_eq_map_range, List.map_map]
  exact List.map_congr_left fun k _ => (BitVec.ofNat_add t k).symm

/-- The log keeps the last 2048 of the first `head` events. -/
def LogHolds (events : ℕ → VICRegWrite) (log : VICLog) (head : ℕ) : Prop :=
  ∀ n, n < head → head ≤ n + vicLogSize → SameWrite (log (n % vicLogSize)) (events n)

/-- Folding over a range of the log is folding over the events it numbers. -/
theorem foldl_cyclicRange (events : ℕ → VICRegWrite) (log : VICLog) (x : Scalars)
    {t t' head : ℕ} (hlog : LogHolds events log head) (htt : t ≤ t') (ht : t' ≤ head)
    (hwindow : head ≤ t + vicLogSize) :
    ((cyclicRange (BitVec.ofNat 32 t) (BitVec.ofNat 32 t')).map (rasterEvent log)).foldl
        applyScalar x =
      foldEvents events x t t' := by
  have hsmall : t' - t < 2 ^ 32 := by
    have hsize : vicLogSize = 2048 := rfl
    omega
  rw [cyclicRange_ofNat htt hsmall, foldEvents, List.map_map]
  have hmem : ∀ n ∈ List.range' t (t' - t), n < head ∧ head ≤ n + vicLogSize := by
    intro n hn
    rw [List.mem_range'_1] at hn
    omega
  generalize List.range' t (t' - t) = l at hmem
  induction l generalizing x with
  | nil => rfl
  | cons n l ih =>
      obtain ⟨hlt, hge⟩ := hmem n List.mem_cons_self
      rw [List.map_cons, List.map_cons, List.foldl_cons, List.foldl_cons, Function.comp_apply,
        rasterEvent_ofNat, applyScalar_congr x (hlog n hlt hge)]
      exact ih _ fun m hm => hmem m (List.mem_cons_of_mem n hm)

/-- Where a replay stands in the unbounded sequence: primed with `base` after `prime`
events, read up to `tail`, and last called when the log had grown to `head`. -/
structure Cursor where
  prime : ℕ
  tail : ℕ
  head : ℕ
  base : Scalars

/-- One call of `build`, with an unbounded head. -/
structure BuildCall where
  log : Option VICLog
  head : ℕ
  now : BitVec 32
  anchor : BitVec 64
  timing : VICRasterTiming
  live : LiveVIC

def BuildCall.input (call : BuildCall) (generation : BitVec 32) : BuildInput where
  log := call.log
  head := BitVec.ofNat 32 call.head
  now := call.now
  anchor := call.anchor
  generation := generation
  timing := call.timing
  live := call.live

/-- A replay and its cursor. -/
abbrev Consumer := VICRasterReplay × Cursor

namespace Consumer

variable (events : ℕ → VICRegWrite) (generation : BitVec 32)

/-- The cursor after a call: moved to the head when the replay primed itself, kept when
it held, and moved on with the 32-bit tail when it replayed. -/
def nextCursor (c : Cursor) (call : BuildCall) (result : VICRasterReplay × VICRasterReplayPlan) :
    Cursor :=
  match result.2.result with
  | .snapshot =>
      ⟨call.head, call.head, call.head, (call.live.registers, call.live.bank &&& 3)⟩
  | .hold => { c with head := call.head }
  | .replay =>
      { c with
        tail := c.tail + (result.1.timeline.tail - BitVec.ofNat 32 c.tail).toNat
        head := call.head }

def step (x : Consumer) (call : BuildCall) : Consumer :=
  let result := x.1.build (call.input generation)
  (result.1, nextCursor x.2 call result)

/-- The log only grows, it holds the newest events, it was not overrun since the last
call, and the frame has at most 272 rows. -/
structure Valid (x : Consumer) (call : BuildCall) : Prop where
  grows : x.2.head ≤ call.head
  holds : ∀ log, call.log = some log → LogHolds events log call.head
  window : x.1.primed = true → call.head ≤ x.2.tail + vicLogSize
  rows : call.timing.frameRows.toNat ≤ 272

/-- The replay has consumed each event from the prime point to the tail once. -/
structure Consumed (x : Consumer) : Prop where
  generation_eq : x.1.generation = generation
  primed : x.1.timeline.primed = true
  tail_eq : x.1.timeline.tail = BitVec.ofNat 32 x.2.tail
  prime_le : x.2.prime ≤ x.2.tail
  tail_le : x.2.tail ≤ x.2.head
  scalars_eq : x.1.state.scalars = foldEvents events x.2.base x.2.prime x.2.tail

/-- Once primed, the replay keeps to its cursor. -/
def Tracks (x : Consumer) : Prop := x.1.primed = true → Consumed events generation x

/-- What a replayed plan and the frame under it look like: the bands tile the rows, and
the apply ranges with the finish range number the events from `tail` to `tail'`. -/
structure ReplayedPlan (frame : VICRasterFrame) (plan : VICRasterReplayPlan) (rows tail tail' : ℕ) :
    Prop where
  tail_le : tail ≤ tail'
  tiles : Tiles 0 (plan.bands.map VICRasterReplayBand.rows) rows
  bandCount_le : plan.bands.length ≤ vicRasterMaxBands
  frameTiles : Tiles 0 (frame.bands.map VICRasterBand.rows) rows
  frameBandCount_le : frame.bands.length ≤ vicRasterMaxBands
  partition : frame.bands.flatMap (fun band => cyclicRange band.applyBegin band.applyEnd) ++
      cyclicRange frame.finishBegin frame.finishEnd =
    (List.range' tail (tail' - tail)).map (BitVec.ofNat 32)

/-- What one call guarantees. -/
structure CallSpec (x : Consumer) (call : BuildCall) : Prop where
  primed : (x.step generation call).1.primed = true
  consumed : Consumed events generation (x.step generation call)
  counted : (x.1.build (call.input generation)).2.pages.Counted
  pageCount_le :
    (x.1.build (call.input generation)).2.pages.pageCount ≤ vicRasterMaxSnapshotPages
  hold : (x.1.build (call.input generation)).2.result = .hold →
    (x.step generation call).1.timeline.tail = x.1.timeline.tail ∧
      (x.step generation call).1.state = x.1.state
  replay : (x.1.build (call.input generation)).2.result = .replay →
    ReplayedPlan (x.1.timelineBuild (call.input generation)).2
      (x.1.build (call.input generation)).2 call.timing.frameRows.toNat x.2.tail
      (x.step generation call).2.tail

section Calls

variable {events generation} {x : Consumer} {call : BuildCall}

theorem foldEvents_self (y : Scalars) (t : ℕ) : foldEvents events y t t = y := by
  simp [foldEvents]

/-- A call that primes again leaves nothing to consume. -/
theorem callSpec_rePrime (h : x.1.build (call.input generation) =
    (rePrime (call.input generation), makeStaticPlan .snapshot (call.input generation) false)) :
    CallSpec events generation x call := by
  have hstep : x.step generation call = (rePrime (call.input generation),
      ⟨call.head, call.head, call.head, (call.live.registers, call.live.bank &&& 3)⟩) := by
    rw [step, h]
    rfl
  refine ⟨by rw [hstep]; rfl, ?_, ?_, ?_, ?_, ?_⟩
  · rw [hstep]
    refine ⟨rfl, rfl, rfl, le_refl _, le_refl _, ?_⟩
    rw [foldEvents_self]
    exact scalars_rePrime _
  · rw [h]
    exact counted_collectPages _ _
  · rw [h]
    exact pageCount_makeStaticPlan_le _ _ _
  · intro hresult
    rw [h] at hresult
    cases hresult
  · intro hresult
    rw [h] at hresult
    cases hresult

/-- A call that holds keeps the replay. -/
theorem callSpec_hold (hprimed : x.1.primed = true) (hx : Consumed events generation x)
    (hvalid : Valid events x call)
    (hresult : (x.1.timelineBuild (call.input generation)).2.result = .hold)
    (h : x.1.build (call.input generation) =
      ({ x.1 with timeline := (x.1.timelineBuild (call.input generation)).1 }, holdPlan)) :
    CallSpec events generation x call := by
  rw [timelineBuild, build_hold hresult] at h
  have hstep : x.step generation call = (x.1, { x.2 with head := call.head }) := by
    rw [step, h]
    rfl
  refine ⟨by rw [hstep]; exact hprimed, ?_, ?_, ?_, ?_, ?_⟩
  · rw [hstep]
    exact ⟨hx.generation_eq, hx.primed, hx.tail_eq, hx.prime_le,
      le_trans hx.tail_le hvalid.grows, hx.scalars_eq⟩
  · rw [h]
    exact PageSelection.counted_empty
  · rw [h]
    exact Nat.zero_le _
  · intro _
    rw [hstep]
    exact ⟨rfl, rfl⟩
  · intro hreplay
    rw [h] at hreplay
    cases hreplay

/-- A call that replays consumes the events up to the end of the frame. -/
theorem callSpec_replay (hprimed : x.1.primed = true) (hx : Consumed events generation x)
    (hvalid : Valid events x call) {log : VICLog} (hlog : call.log = some log)
    (hframe : (x.1.timelineBuild (call.input generation)).2.result = .replay)
    (hbuild : x.1.build (call.input generation) =
      x.1.replayFrame log (call.input generation)
        (x.1.timelineBuild (call.input generation)).1
        (x.1.timelineBuild (call.input generation)).2) :
    CallSpec events generation x call := by
  have hrows : (call.input generation).timing.frameRows.toNat < 2 ^ 16 :=
    lt_of_le_of_lt hvalid.rows (by decide)
  obtain ⟨hspec, htail, htprimed, hne⟩ := replay_of_timelineBuild hrows hlog hframe
  obtain ⟨hstate, hbands, hstatic, hreplay⟩ := replayFrame_eq
    (x.1.timelineBuild (call.input generation)).1 hspec
  generalize hfr : (x.1.timelineBuild (call.input generation)).2 = frame at *
  -- the tail in unbounded numbers
  have hle : x.2.tail ≤ call.head := le_trans hx.tail_le hvalid.grows
  have hwindow := hvalid.window hprimed
  have hdist : (BitVec.ofNat 32 call.head - x.1.timeline.tail).toNat = call.head - x.2.tail := by
    rw [hx.tail_eq]
    exact toNat_ofNat_sub hle (by simp only [vicLogSize] at hwindow; omega)
  set moved := (frame.drawEnd - x.1.timeline.tail).toNat with hmoved
  have hmoved_le : moved ≤ call.head - x.2.tail := by
    have hend := hspec.end_le
    rw [Between] at hend
    exact le_of_le_of_eq hend hdist
  have hdrawEnd : frame.drawEnd = BitVec.ofNat 32 (x.2.tail + moved) := by
    rw [BitVec.ofNat_add, ← hx.tail_eq, hmoved, BitVec.ofNat_toNat, BitVec.setWidth_eq,
      add_sub_cancel]
  have hstep : x.step generation call =
      (⟨(x.1.timelineBuild (call.input generation)).1,
          reseed (x.1.state.applyRange log (cyclicRange x.1.timeline.tail frame.drawEnd))
            call.live.ram, x.1.generation, x.1.primed⟩,
        ⟨x.2.prime, x.2.tail + moved, call.head, x.2.base⟩) := by
    rw [step, hbuild, nextCursor, hreplay, hstate, htail, ← hx.tail_eq]
    rfl
  refine ⟨by rw [hstep]; exact hprimed, ?_, ?_, ?_, ?_, ?_⟩
  · rw [hstep]
    refine ⟨hx.generation_eq, htprimed.trans hx.primed, htail.trans hdrawEnd,
      le_trans hx.prime_le (Nat.le_add_right _ _), by dsimp only; omega, ?_⟩
    dsimp only
    rw [scalars_reseed, scalars_applyRange, hx.scalars_eq, hx.tail_eq, hdrawEnd,
      foldl_cyclicRange events log _ (hvalid.holds log hlog) (Nat.le_add_right _ _) (by omega)
        hwindow]
    exact foldEvents_append events x.2.base hx.prime_le (Nat.le_add_right _ _)
  · rw [hbuild]
    exact counted_replayFrame _ _ _ _ _
  · rw [hbuild]
    exact pageCount_replayFrame_le _ _ _ _ _
  · intro hhold
    rw [hbuild, hreplay] at hhold
    cases hhold
  · intro _
    rw [hstep, hbuild, hfr]
    have hframeLen := (hspec.tiles.length_le.trans hvalid.rows).trans (by decide : 272 ≤ 273)
    have htiles : Tiles 0 ((x.1.replayFrame log (call.input generation)
        (x.1.timelineBuild (call.input generation)).1 frame).2.bands.map VICRasterReplayBand.rows)
        call.timing.frameRows.toNat := by
      cases hfallback : (x.1.replayFrame log (call.input generation)
          (x.1.timelineBuild (call.input generation)).1 frame).2.fallback with
      | false =>
          rw [hbands hfallback, rows_framedBands]
          exact hspec.tiles
      | true =>
          rw [hstatic hfallback]
          exact tiles_whole hrows hne 0 0
    have hlen := (htiles.length_le.trans hvalid.rows).trans (by decide : 272 ≤ 273)
    refine ⟨Nat.le_add_right _ _, htiles, ?_, hspec.tiles, ?_, ?_⟩
    · rwa [Nat.zero_add, List.length_map] at hlen
    · rwa [Nat.zero_add, List.length_map] at hframeLen
    · have hchains := hspec.chains.flatMap_eq
      rw [cyclicRange_self, List.nil_append] at hchains
      rw [hchains, hspec.finishEnd_eq, cyclicRange_append hspec.finish_le, hx.tail_eq, hdrawEnd]
      exact cyclicRange_ofNat (Nat.le_add_right _ _) (by simp only [vicLogSize] at hwindow; omega)

/-- Every valid call meets its specification. -/
theorem callSpec (hx : Tracks events generation x) (hvalid : Valid events x call) :
    CallSpec events generation x call := by
  rcases x.1.build_cases (call.input generation) with
    h | ⟨hprimed, ⟨hresult, h⟩ | ⟨log, hlog, hresult, h⟩⟩
  · exact callSpec_rePrime h
  · exact callSpec_hold hprimed (hx hprimed) hvalid hresult h
  · exact callSpec_replay hprimed (hx hprimed) hvalid hlog hresult h

end Calls

/-- A replay that was just constructed. -/
def initial : Consumer := (construct, ⟨0, 0, 0, (fun _ => 0, 0)⟩)

/-- Over any sequence of calls on a growing log that is never overrun, every call meets
its specification. -/
theorem consumes_once (calls : List BuildCall) (call : BuildCall)
    (hcalls : AllSteps (step generation) (Valid events) initial (calls ++ [call])) :
    CallSpec events generation (run (step generation) initial calls) call := by
  rw [allSteps_append] at hcalls
  have hstep : ∀ x op, Tracks events generation x → Valid events x op →
      Tracks events generation (step generation x op) :=
    fun x op hx hop _ => (callSpec hx hop).consumed
  have hinitial : Tracks events generation initial := by
    intro hprimed
    cases hprimed
  have htracks := run_invariant_of_allSteps (step generation) hstep initial calls hinitial hcalls.1
  exact callSpec htracks hcalls.2.1

/-- One border colour after the other, from raster line 20 on. -/
def borderEvents (n : ℕ) : VICRegWrite :=
  ⟨BitVec.ofNat 32 (63 * n), 0x4020, BitVec.ofNat 8 (20 + n), BitVec.ofNat 8 n⟩

/-- A call when the log has grown to `head`, long after its last event. -/
def borderCall (head : ℕ) : BuildCall :=
  ⟨some borderEvents, head, 100000, 1#64 <<< 63, palTiming, ⟨none, 0, none⟩⟩

theorem valid_borderCall {x : Consumer} {head : ℕ} (hgrows : x.2.head ≤ head)
    (hhead : head ≤ vicLogSize) : Valid borderEvents x (borderCall head) := by
  refine ⟨hgrows, ?_, fun _ => le_trans hhead (Nat.le_add_left _ _), le_refl 272⟩
  intro log hlog n hn _
  have heq : borderEvents = log := Option.some.inj hlog
  rw [← heq, Nat.mod_eq_of_lt (lt_of_lt_of_le hn hhead)]
  exact ⟨rfl, rfl⟩

theorem consumes_once_border :
    ((run (step 0) initial [borderCall 1]).1.build ((borderCall 4).input 0)).2.result = .replay ∧
      CallSpec borderEvents 0 (run (step 0) initial [borderCall 1]) (borderCall 4) := by
  refine ⟨by decide +kernel,
    consumes_once borderEvents 0 [borderCall 1] (borderCall 4) ⟨?_, ?_, trivial⟩⟩
  · exact valid_borderCall (by decide) (by decide)
  · exact valid_borderCall (by decide +kernel) (by decide)

end Consumer

end ScpuEmu
