import ScpuEmu.SuperCpu.MirrorTrace
import ScpuEmu.SuperCpu.Silence
import ScpuEmu.SuperCpu.WriteBuffer.Coherence

/-!
# Native access to the RAM under the I/O window

`setRAMUnderIOAccessible` switches relocation off, but it leaves the relocation tables as
they are, and the write buffer looks at the tables only. So relocation ends there exactly if
no block has been relocated yet.
-/

namespace ScpuEmu

open Library

namespace Fetch

/-- No block is relocated, and none will be. -/
def Unrelocated (f : Fetch) : Prop := f.relocEnable = false ∧ f.relocation.count = 0

variable {f : Fetch}

theorem Unrelocated.refreshed (h : f.Unrelocated) (ram : Addr → Byte) :
    (f.refreshed ram).Unrelocated :=
  h

theorem Unrelocated.chipWritten (h : f.Unrelocated) (ram : Addr → Byte) (a : Addr) (v : Byte) :
    (f.chipWritten ram a v).Unrelocated := by
  have hchip : (f.trackedChip ram a v).Unrelocated := by
    unfold Fetch.trackedChip
    split_ifs <;> exact h
  unfold Fetch.chipWritten
  dsimp only
  split
  · unfold Fetch.trackedVIC
    dsimp only
    split <;> exact hchip
  · exact hchip

theorem Unrelocated.accessible (h : f.Unrelocated) (ram : Addr → Byte) (on : Bool) :
    (f.setRAMUnderIOAccessible ram on).Unrelocated := by
  cases on with
  | false => exact h
  | true => exact ⟨rfl, h.2⟩

theorem not_relocates (h : f.Unrelocated) (v : Byte) : ¬ f.relocates v = true := by
  intro hrelocates
  unfold relocates at hrelocates
  rw [h.1] at hrelocates
  cases hrelocates

end Fetch

namespace WriteBuffer

variable {b : WriteBuffer} {w : View}

/-- The buffer represents its queue, and delivers. -/
structure Delivers (b : WriteBuffer) : Prop where
  represents : Represents b
  enabled : b.deliveryEnabled = true

theorem deliveryEnabled_onRamWrite (b : WriteBuffer) (w : View) (a : Addr) (v : Byte) :
    (b.onRamWrite w a v).1.deliveryEnabled = b.deliveryEnabled := by
  have hroute : (b.relocateWrite w a).1.deliveryEnabled = b.deliveryEnabled := by
    unfold relocateWrite
    split
    · rfl
    · dsimp only
      split_ifs <;> rfl
  unfold onRamWrite
  split
  · rfl
  generalize b.relocateWrite w a = r at hroute
  obtain ⟨b', routed⟩ := r
  cases routed with
  | shielded => exact hroute
  | forward a' =>
      dsimp only
      split_ifs
      · exact hroute
      · exact hroute
      · exact (accept_frame b' a' v).2.1.trans hroute

theorem Delivers.onRamWrite (h : Delivers b) (w : View) (a : Addr) (v : Byte) :
    Delivers (b.onRamWrite w a v).1 :=
  ⟨h.represents.onRamWrite w a v, (deliveryEnabled_onRamWrite b w a v).trans h.enabled⟩

theorem delivers_construct (pendingValue : Addr → Byte) (list : ℕ → Addr) (bus : Bool) :
    Delivers ((construct pendingValue list).attach bus) :=
  ⟨(represents_construct pendingValue list).step (.attach bus), rfl⟩

theorem Delivers.setRAMUnderIOAccessible (h : Delivers b) (on : Bool) :
    Delivers (b.setRAMUnderIOAccessible on) := by
  refine ⟨h.represents.setRAMUnderIOAccessible on, ?_⟩
  unfold WriteBuffer.setRAMUnderIOAccessible
  split <;> exact h.enabled

theorem Delivers.policy (h : Delivers b) (mode : SCPUOptMode) (exclude : Bool) :
    Delivers ((b.setExcludeZeroPageStack exclude).setOptMode mode) :=
  ⟨(h.represents.step (.setExcludeZeroPageStack exclude)).step (.setOptMode mode), h.enabled⟩

theorem delivers_deliveryInvariant (w : View) : DeliveryInvariant w fun b _ => Delivers b where
  chunk b _ sel n h := by
    have hkept := h.represents.flushSelectedChunk w sel n
    obtain ⟨q, g, np, heq, -, -, -⟩ := flushSelectedChunk_cases h.represents w sel n
    refine ⟨hkept, ?_⟩
    rw [heq]
    exact h.enabled
  remember b d deferHot screenBase bitmapBase n h hcount hn hbus := by
    intro round hnone
    refine ⟨(represents_deliveryInvariant w).remember b d deferHot screenBase bitmapBase n
      h.represents hcount hn hbus hnone, ?_⟩
    obtain ⟨q, g, np, heq, -, -, -⟩ := flushSelectedChunk_cases h.represents w
      (displaySelection deferHot screenBase bitmapBase) n
    have hround : round.1.deliveryEnabled = true := by
      change (b.flushSelectedChunk w _ n).1.deliveryEnabled = true
      rw [heq]
      exact h.enabled
    rw [rememberNoProgress]
    split <;> exact hround
  drop b d hbus h := ⟨(represents_deliveryInvariant w).drop b d hbus h.represents, h.enabled⟩
  cursor b d h := ⟨(represents_deliveryInvariant w).cursor b d h.represents, h.enabled⟩
  scrub b d s h := ⟨(represents_deliveryInvariant w).scrub b d s h.represents, h.enabled⟩
  heal b d ram a hram hclean h :=
    ⟨(represents_deliveryInvariant w).heal b d ram a hram hclean h.represents, h.enabled⟩

/-- What the elementary moves of delivery keep, the work of a frame keeps. -/
theorem perform_rule {P : WriteBuffer → (Addr → Byte) → Prop} (hP : DeliveryInvariant w P)
    (work : MirrorWork) (b : WriteBuffer) (dram : Addr → Byte) (h : P b dram) :
    P (work.perform b w).1 (runCalls dram (work.perform b w).2) := by
  cases work with
  | flushUpToPolicy n deferHot screenBase bitmapBase =>
      exact flushUpToPolicy_rule hP b dram n deferHot screenBase bitmapBase h
  | flushRangeUpTo base len n => exact flushRangeUpTo_rule hP b dram base len n h
  | resyncDisplayed screenBase graphicsBase graphicsLength n flags =>
      exact resyncDisplayed_rule hP b dram screenBase graphicsBase graphicsLength n flags h
  | resyncSweep n => exact resyncSweep_rule hP b dram n h

theorem Delivers.perform (h : Delivers b) (w : View) (work : MirrorWork) :
    Delivers (work.perform b w).1 :=
  perform_rule (delivers_deliveryInvariant w) work b (fun _ => 0) h

/-- What a delivery does: the values staged stay, and a byte of DRAM stays or becomes the
byte staged for its address, if it is queued, or the byte that RAM holds at its address. -/
structure Sends (ram : Addr → Byte) (b₀ : WriteBuffer) (dram₀ : Addr → Byte) (b : WriteBuffer)
    (dram : Addr → Byte) : Prop where
  delivers : Delivers b
  staged : b.pendingValue = b₀.pendingValue
  queued : ∀ a, b.isDirty a = true → b₀.isDirty a = true
  sent : ∀ a, dram a = dram₀ a ∨ b₀.isDirty a = true ∧ dram a = b₀.pendingValue a ∨ dram a = ram a

section Sends

variable {ram dram₀ dram : Addr → Byte} {b₀ : WriteBuffer}

theorem Sends.of_frame (h : Sends ram b₀ dram₀ b dram) {b' : WriteBuffer} (hr : Represents b')
    (he : b'.deliveryEnabled = b.deliveryEnabled) (hp : b'.pendingValue = b.pendingValue)
    (hd : ∀ a, b'.isDirty a = true → b.isDirty a = true) : Sends ram b₀ dram₀ b' dram :=
  ⟨⟨hr, he.trans h.delivers.enabled⟩, hp.trans h.staged, fun a ha => h.queued a (hd a ha), h.sent⟩

theorem Sends.flushSelectedChunk (h : Sends ram b₀ dram₀ b dram) (hw : w.armed = none)
    (sel : Selection) (n : ℕ) :
    Sends ram b₀ dram₀ (b.flushSelectedChunk w sel n).1
      (deliver dram (b.flushSelectedChunk w sel n).2) := by
  have hkept := h.delivers.represents.flushSelectedChunk w sel n
  obtain ⟨q, g, np, heq, -, -, -⟩ := flushSelectedChunk_cases h.delivers.represents w sel n
  have hsent : ∀ x ∈ (b.chunkSelection w sel n).map (b.stage w), x.value =
      b₀.pendingValue x.addr := by
    intro x hx
    obtain ⟨a, -, rfl⟩ := List.mem_map.mp hx
    exact (deliverValue_of_unarmed hw a _).trans (congrFun h.staged a)
  have haddr : ((b.chunkSelection w sel n).map (b.stage w)).map C64BusWrite.addr =
      b.chunkSelection w sel n := by
    rw [List.map_map]
    exact List.map_id _
  rw [heq] at hkept ⊢
  refine ⟨⟨hkept, h.delivers.enabled⟩, h.staged, fun a ha => ?_, fun a => ?_⟩
  · change WordBitmap.test (List.foldl _ _ _) a.toNat = true at ha
    rw [WordBitmap.test_foldl_erase (by decide), Bool.and_eq_true] at ha
    exact h.queued a ha.2
  · rw [deliver_apply dram b₀.pendingValue _ hsent a, haddr]
    split
    next hin =>
      have hdirty := isDirty_of_chunkSelection h.delivers.represents w sel n a hin
      exact Or.inr (Or.inl ⟨h.queued a hdirty, rfl⟩)
    next => exact h.sent a

theorem sends_deliveryInvariant (b₀ : WriteBuffer) (dram₀ : Addr → Byte) (hw : w.armed = none)
    (hram : w.ram = some ram) :
    DeliveryInvariant w (Sends ram b₀ dram₀) where
  chunk b d sel n h := h.flushSelectedChunk hw sel n
  remember b d deferHot screenBase bitmapBase n h hcount hn hbus := by
    intro round hnone
    have hround : Sends ram b₀ dram₀ round.1 (deliver d round.2) := h.flushSelectedChunk hw _ n
    have hkept := (represents_deliveryInvariant w).remember b d deferHot screenBase bitmapBase n
      h.delivers.represents hcount hn hbus hnone
    rw [hnone, deliver_nil] at hround
    obtain ⟨np, hnp⟩ : ∃ np, round.1.rememberNoProgress w deferHot screenBase bitmapBase =
        { round.1 with noProgress := np } := by
      rw [rememberNoProgress]
      split
      · exact ⟨_, rfl⟩
      · exact ⟨round.1.noProgress, rfl⟩
    change Represents (round.1.rememberNoProgress w deferHot screenBase bitmapBase) at hkept
    rw [hnp] at hkept ⊢
    exact hround.of_frame hkept rfl rfl fun _ ha => ha
  drop b d hbus h := by
    refine h.of_frame ((represents_deliveryInvariant w).drop b d hbus h.delivers.represents) rfl rfl
      fun a ha => ?_
    change (WordBitmap.empty 64).test a.toNat = true at ha
    rw [test_empty_toNat] at ha
    cases ha
  cursor b d h := h.of_frame
    ((represents_deliveryInvariant w).cursor b d h.delivers.represents) rfl rfl fun _ ha => ha
  scrub b d s h := h.of_frame
    ((represents_deliveryInvariant w).scrub b d s h.delivers.represents) rfl rfl fun _ ha => ha
  heal b d ram' a hram' hclean h := by
    obtain rfl : ram = ram' := Option.some.inj (hram.symm.trans hram')
    have hkept : Sends ram b₀ dram₀ (b.setSynced a) d := h.of_frame
      ((represents_deliveryInvariant w).heal b d ram a hram hclean h.delivers.represents) rfl rfl
      fun _ ha => ha
    refine ⟨hkept.delivers, hkept.staged, hkept.queued, fun x => ?_⟩
    rw [healed_of_unarmed hw]
    by_cases hx : x = a
    · rw [hx, Function.update_self]
      exact Or.inr (Or.inr rfl)
    · rw [Function.update_of_ne hx]
      exact h.sent x

theorem sends_perform (ram : Addr → Byte) (h : Delivers b) (hw : w.armed = none)
    (hram : w.ram = some ram)
    (work : MirrorWork) (dram₀ : Addr → Byte) :
    Sends ram b dram₀ (work.perform b w).1 (runCalls dram₀ (work.perform b w).2) := by
  have hstart : Sends ram b dram₀ b dram₀ := ⟨h, rfl, fun _ ha => ha, fun _ => Or.inl rfl⟩
  exact perform_rule (sends_deliveryInvariant b dram₀ hw hram) work b dram₀ hstart

end Sends

/-- A store that the buffer hears of, where no block is relocated. -/
theorem pendingValue_onRamWrite (h : Delivers b) (hw : w.armed = none) (a : Addr) (v : Byte) :
    if (b.onRamWrite w a v).2 = true then
      a ∈ (b.onRamWrite w a v).1.entries ∧
        (b.onRamWrite w a v).1.pendingValue = Function.update b.pendingValue a v
    else (b.onRamWrite w a v).1.pendingValue = b.pendingValue := by
  have henabled : ¬ b.deliveryEnabled = false := by
    rw [h.enabled]
    exact Bool.true_eq_false.mp
  have hrepresents := h.represents.onRamWrite w a v
  unfold onRamWrite at hrepresents ⊢
  rw [if_neg henabled, relocateWrite_of_unarmed hw] at hrepresents ⊢
  dsimp only at hrepresents ⊢
  by_cases hmirror : b.shouldMirror a = false
  · simp [hmirror, clearSynced]
  by_cases heliminates : b.eliminates w a v = true
  · simp [hmirror, heliminates]
  simp only [if_neg hmirror, if_neg heliminates, if_true] at hrepresents ⊢
  exact ⟨(hrepresents.mem_iff a).mpr (isDirty_accept b a v), (accept_frame b a v).2.2.1⟩

end WriteBuffer

/-! ### The events of a run -/

namespace MirrorState

/-- The write buffer delivers, and nothing is or will be relocated. -/
structure Native (x : MirrorState) : Prop where
  delivers : x.buffer.Delivers
  unrelocated : x.fetch.Unrelocated

/-- What an event does to the bytes that wait for delivery: a store that is accepted waits at
its own address with its own value, no block gets another home, and a delivery sends what was
staged, or what is in RAM, to its own address. Nothing else changes what is staged. -/
def Untranslated (x : MirrorState) : MirrorEvent → Prop
  | .store a v =>
      if (x.buffer.onRamWrite x.view a v).2 = true then
        a ∈ (x.apply (.store a v)).buffer.entries ∧
          (x.apply (.store a v)).buffer.pendingValue = Function.update x.buffer.pendingValue a v
      else (x.apply (.store a v)).buffer.pendingValue = x.buffer.pendingValue
  | .claim _ _ => False
  | .work work =>
      (x.apply (.work work)).buffer.pendingValue = x.buffer.pendingValue ∧
        ∀ dram a, let sent := runCalls dram (work.perform x.buffer x.view).2 a
          sent = dram a ∨ x.buffer.isDirty a = true ∧ sent = x.buffer.pendingValue a ∨
          sent = x.ram a
  | event => (x.apply event).buffer.pendingValue = x.buffer.pendingValue

variable {x : MirrorState}

/-- A store that is accepted but waits elsewhere was translated. -/
theorem not_untranslated {a : Addr} {v : Byte}
    (haccepted : (x.buffer.onRamWrite x.view a v).2 = true)
    (helsewhere : a ∉ (x.buffer.onRamWrite x.view a v).1.entries) :
    ¬ x.Untranslated (.store a v) := by
  intro h
  unfold Untranslated at h
  dsimp only at h
  rw [if_pos haccepted] at h
  exact helsewhere h.1

theorem armed_of_unrelocated (h : x.fetch.Unrelocated) : x.view.armed = none := by
  unfold View.armed view
  simp [h.2]

theorem serveAll_frame (x : MirrorState) (calls : List BusCall) :
    (calls.foldl serve x).buffer = x.buffer ∧ (calls.foldl serve x).fetch = x.fetch := by
  induction calls generalizing x with
  | nil => exact ⟨rfl, rfl⟩
  | cons call calls ih =>
      have hcall : (x.serve call).buffer = x.buffer ∧ (x.serve call).fetch = x.fetch := by
        cases call with
        | readRAM a => exact ⟨rfl, rfl⟩
        | writeBurst burst =>
            unfold serve
            dsimp only
            induction burst generalizing x with
            | nil => exact ⟨rfl, rfl⟩
            | cons y burst ihb => exact ihb (x.note (.write y.addr y.value))
      obtain ⟨hbuffer, hfetch⟩ := ih (x.serve call)
      exact ⟨hbuffer.trans hcall.1, hfetch.trans hcall.2⟩

theorem delivers_replay (v : Byte) (n : ℕ) (h : x.buffer.Delivers) :
    (replay v n x).buffer.Delivers := by
  induction n generalizing x with
  | zero => exact h
  | succ n ih => exact ih (h.onRamWrite _ _ _)

/-- Every event leaves a buffer that delivers. -/
theorem keptBy_delivers (L : MirrorEvent → Prop) : KeptBy L fun x => x.buffer.Delivers := by
  intro x e _ _ h
  cases e with
  | note | busWrite | sampleSerial | chipWrite | countRow | countDelivered | countExhausted
  | pointer | refreshBlocks | reset => exact h
  | policy mode exclude => exact h.policy mode exclude
  | store a v => exact h.onRamWrite x.view a v
  | claim v r => exact delivers_replay (x := { x with fetch := x.fetch.claimReloc v r }) v 64 h
  | accessible on => exact h.setRAMUnderIOAccessible on
  | discard => exact ⟨h.represents.step .discard, h.enabled⟩
  | work work =>
      obtain ⟨hbuffer, -⟩ := serveAll_frame
        ({ x with buffer := (work.perform x.buffer x.view).1 }.note .mirrorWork)
        (work.perform x.buffer x.view).2
      exact hbuffer ▸ h.perform x.view work

theorem Native.step (h : x.Native) {e : MirrorEvent} (he : e.Enabled x) :
    (x.apply e).Native ∧ x.Untranslated e := by
  have harmed := armed_of_unrelocated h.unrelocated
  cases e with
  | note event | busWrite a v | sampleSerial v | countRow | countDelivered | countExhausted
  | pointer a v | refreshBlocks => exact ⟨⟨h.delivers, h.unrelocated⟩, rfl⟩
  | chipWrite a v => exact ⟨⟨h.delivers, h.unrelocated.chipWritten x.ram a v⟩, rfl⟩
  | policy mode exclude =>
      exact ⟨⟨h.delivers.policy mode exclude, h.unrelocated⟩, rfl⟩
  | store a v =>
      exact ⟨⟨h.delivers.onRamWrite x.view a v, h.unrelocated⟩,
        WriteBuffer.pendingValue_onRamWrite h.delivers harmed a v⟩
  | claim v r => exact absurd he.1 (Fetch.not_relocates h.unrelocated v)
  | accessible on =>
      refine ⟨⟨h.delivers.setRAMUnderIOAccessible on, h.unrelocated.accessible x.ram on⟩, ?_⟩
      show (x.buffer.setRAMUnderIOAccessible on).pendingValue = x.buffer.pendingValue
      unfold WriteBuffer.setRAMUnderIOAccessible
      split <;> rfl
  | discard =>
      exact ⟨⟨⟨h.delivers.represents.step .discard, h.delivers.enabled⟩, h.unrelocated⟩, rfl⟩
  | reset => exact ⟨⟨h.delivers, h.unrelocated.1, rfl⟩, rfl⟩
  | work work =>
      obtain ⟨hbuffer, hfetch⟩ := serveAll_frame
        ({ x with buffer := (work.perform x.buffer x.view).1 }.note .mirrorWork)
        (work.perform x.buffer x.view).2
      have hsends := WriteBuffer.sends_perform x.ram h.delivers harmed rfl work
      refine ⟨⟨?_, ?_⟩, ?_, fun dram a => (hsends dram).sent a⟩
      · exact hbuffer ▸ (hsends x.ram).delivers
      · exact hfetch ▸ h.unrelocated
      · exact (congrArg WriteBuffer.pendingValue hbuffer).trans (hsends x.ram).staged

end MirrorState

section Runs

variable {ρ : Type}

theorem admits_all (c : SuperCpu ρ) : c.Admits fun _ => True :=
  ⟨fun _ _ => trivial, fun _ _ _ => trivial⟩

theorem within_all (op : SystemOp ρ) : op.Within fun _ => True := by
  cases op with
  | reset => exact ⟨trivial, trivial, trivial⟩
  | mirrorWork => exact fun _ _ => trivial
  | _ => trivial

/-- Where no block is relocated when native access is switched on, nothing is translated from
then on. -/
theorem native_access_ends_relocation (c : SuperCpu ρ) (depth : ℕ) (s : System ρ)
    (pendingValue : Addr → Byte) (list : ℕ → Addr) (bus : Bool)
    (hfresh : s.accelerator.buffer = (WriteBuffer.construct pendingValue list).attach bus)
    (before later : List (SystemOp ρ))
    (hcount : (Library.run (c.step depth) s before).memory.fetch.relocation.count = 0) :
    let native := c.step depth (Library.run (c.step depth) s before) (.setRAMUnderIOAccessible true)
    let final := Library.run (c.step depth) native later
    final.memory.view.armed = none ∧
      ∃ events, AllSteps MirrorState.apply (fun x e => e.Enabled x ∧ x.Untranslated e)
          (System.mirrorState native) events ∧
        Library.run MirrorState.apply (System.mirrorState native) events =
          System.mirrorState final := by
  intro native final
  have hstart : s.mirrorState.buffer.Delivers := by
    show s.accelerator.buffer.Delivers
    rw [hfresh]
    exact WriteBuffer.delivers_construct pendingValue list bus
  have hdelivers : (System.mirrorState (Library.run (c.step depth) s before)).buffer.Delivers :=
    run_invariant (c.step depth) (fun s op h => mirror_step (admits_all c)
      (MirrorState.keptBy_delivers fun _ => True) depth s (within_all op) h) s before hstart
  have hnative : (System.mirrorState native).Native :=
    ⟨hdelivers.setRAMUnderIOAccessible true, rfl, hcount⟩
  obtain ⟨events, -, hevents, hfinal⟩ :=
    run_traces (admits_all c) depth native fun op (_ : op ∈ later) => within_all op
  have hkept : (System.mirrorState final).Native := hfinal ▸ run_invariant_of_allSteps _
    (fun x e h he => (h.step he).1) _ events hnative hevents
  refine ⟨MirrorState.armed_of_unrelocated hkept.unrelocated, events, ?_, hfinal⟩
  exact allSteps_of_invariant _ (fun x e h he => ⟨(h.step he).1, he, (h.step he).2⟩) _
    events hnative
    hevents

/-- Sprites in bank 3, and native access before the first pointer to a block under the window. -/
theorem native_access_ends_relocation_early :
    let native := quietSuperCpu.step 0 (Library.run (quietSuperCpu.step 0) quietSystem
      [.access (.write8 0xDD02 0x3F), .access (.write8 0xDD00 0x00), .access (.write8 0xD018 0x00)])
      (.setRAMUnderIOAccessible true)
    let final := Library.run (quietSuperCpu.step 0) native [.access (.writeFast 0xC3F8 0x40),
      .access (.write8 0x0001 0x34), .access (.writeFast 0xD000 0x55)]
    final.memory.view.armed = none ∧
      ∃ events, AllSteps MirrorState.apply (fun x e => e.Enabled x ∧ x.Untranslated e)
          (System.mirrorState native) events ∧
        Library.run MirrorState.apply (System.mirrorState native) events =
          System.mirrorState final :=
  native_access_ends_relocation quietSuperCpu 0 quietSystem (fun _ => 0) (fun _ => 0) true rfl _ _
    (by decide +kernel)

/-- The pointer came first, and RAM is mapped under the window. -/
def relocatedSystem : System Unit := Library.run (quietSuperCpu.step 0) quietSystem
  [.access (.write8 0xDD02 0x3F), .access (.write8 0xDD00 0x00), .access (.write8 0xD018 0x00),
    .access (.writeFast 0xC3F8 0x40), .setRAMUnderIOAccessible true, .access (.write8 0x0001 0x34)]

/-- A store at $D000 still goes to the block that was its home. -/
theorem relocation_survives_native_access :
    (∃ stored, stored = (quietSuperCpu.step 0 relocatedSystem
          (.access (.writeFast 0xD000 0x55))).accelerator.buffer ∧
        stored.isDirty 0xD000 = false ∧ stored.isDirty 0xC400 = true ∧
        stored.pendingValue 0xC400 = 0x55) ∧
      ¬ (System.mirrorState relocatedSystem).Untranslated (.store 0xD000 0x55) := by
  refine ⟨⟨_, rfl, by decide +kernel⟩, ?_⟩
  exact MirrorState.not_untranslated (by decide +kernel) (by decide +kernel)

end Runs

end ScpuEmu
