import ScpuEmu.SuperCpu.Relocation
import ScpuEmu.SuperCpu.RelocationPool
import ScpuEmu.SuperCpu.WriteBuffer.Rebuild

/-!
# Handing the picture back to the C64

While the accelerator presents the picture itself, nothing is delivered. When it hands the
picture back, it empties the write buffer and tells it again what the VIC is showing: the
matrix, the bitmap or the characters, and the shapes of the enabled sprites. Once all of it is
delivered, the C64 shows what RAM says, whatever its memory held before, as long as no byte is
shown from where relocation keeps it from arriving, and none that is taken for a pointer.
-/

namespace ScpuEmu

open Library WriteBuffer

namespace Fetch

variable (f : Fetch)

/-- The address of the pointer of sprite `n`. -/
def pointerPlace (n : ℕ) : Addr :=
  (f.activeVICScreenBase + 0x3F8#32 + BitVec.ofNat 32 n).setWidth 16

/-- Byte `i` of the block that pointer `v` selects. -/
def shapePlace (v : Byte) (i : ℕ) : Addr :=
  BitVec.ofNat 16 (f.vicBank.toNat * 0x4000 + v.toNat * 64 + i)

/-- The active matrix, and the bitmap or the characters in RAM. -/
def Draws (a : Addr) : Prop :=
  InSpan f.activeVICScreenBase 0x400 a ∨ InSpan f.activeBitmapBase 0x2000 a ∨
    InSpan f.activeCharsetBase 0x800 a

/-- A pointer of the active matrix. -/
def InPointerRow (a : Addr) : Prop := ∃ n < 8, a = f.pointerPlace n

end Fetch

/-! ### The hand-over -/

section Operation

variable {ω : Type}

/-- `clearPhysicalVICCollisionLatches`: reading them clears them. -/
def clearPhysicalVICCollisionLatches (env : Surroundings ω) : MemoryM ω PUnit := do
  let _ ← busRead env 0xD01E
  let _ ← busRead env 0xD01F

end Operation

namespace WriteBuffer

/-- A region that has a base. -/
def invalidateSpan (b : WriteBuffer) (w : View) (base : BitVec 32) (length : ℕ) : WriteBuffer :=
  if base < 0x10000#32 then b.invalidateRange w (base.setWidth 16) length else b

/-- What `enablePhysicalMirror` queues. -/
def invalidateDisplayed (b : WriteBuffer) (m : CC64Memory) : WriteBuffer :=
  let b := b.invalidateSpan m.view m.fetch.activeScreenBase 1024
  let b :=
    if m.fetch.activeBitmapBase < 0x10000#32 then
      b.invalidateSpan m.view m.fetch.activeBitmapBase 8192
    else b.invalidateSpan m.view m.fetch.activeCharsetBase 2048
  let enabled := m.fetch.vicRegShadow 0x15
  (List.range 8).foldl
    (fun b sprite =>
      if enabled.getLsbD sprite = false then b
      else
        let pointer := m.ram
          ((m.fetch.activeVICScreenBase + 0x3F8#32 + BitVec.ofNat 32 sprite).setWidth 16)
        b.invalidateSpan m.view (m.fetch.activeVICBankBase + pointer.setWidth 32 * 64) 64)
    b

end WriteBuffer

namespace SuperCpu

variable {ρ : Type} (c : SuperCpu ρ)

/-- `enablePhysicalMirror`. -/
def enablePhysicalMirror (env : Surroundings (WithREU (Accelerator ρ))) (s : System ρ) : System ρ :=
  let s : System ρ := ((clearPhysicalVICCollisionLatches env).run s).2
  let s := s.mapAccelerator fun o => { o with buffer := o.buffer.discard.setDeliveryEnabled true }
  let s : System ρ := ⟨s.memory.mapTiming fun t => t.enablePostedWriteTiming false, s.outside⟩
  s.mapAccelerator fun o =>
    { o with buffer := o.buffer.invalidateDisplayed s.memory, mirrorHalted := false }

end SuperCpu

/-- The steps of the accelerator, with the picture handed back and forth. -/
inductive DisplayOp (ρ : Type)
  | system (op : SystemOp ρ)
  | disablePhysicalMirror
  | enablePhysicalMirror

/-- One step, where nesting of transfers is followed to a depth. -/
def SuperCpu.displayStep {ρ : Type} (c : SuperCpu ρ) (depth : ℕ) (s : System ρ) :
    DisplayOp ρ → System ρ
  | .system op => c.step depth s op
  | .disablePhysicalMirror => SuperCpu.disablePhysicalMirror s
  | .enablePhysicalMirror => SuperCpu.enablePhysicalMirror (c.board.env depth) s

/-! ### What is told again -/

namespace CC64Memory

variable (m : CC64Memory)

/-- The addresses of a region that has a base. -/
def spanPlaces (base : BitVec 32) (length : ℕ) : List Addr :=
  if base < 0x10000#32 then rangePlaces (base.setWidth 16) length else []

def graphicsPlaces : List Addr :=
  if m.fetch.activeBitmapBase < 0x10000#32 then spanPlaces m.fetch.activeBitmapBase 8192
  else spanPlaces m.fetch.activeCharsetBase 2048

def spritePlaces (n : ℕ) : List Addr :=
  if (m.fetch.vicRegShadow 0x15).getLsbD n = false then []
  else spanPlaces (m.fetch.activeVICBankBase + (m.fetch.pointerByte m.ram n).setWidth 32 * 64) 64

/-- All that is told again, in order. -/
def displayedPlaces : List Addr :=
  spanPlaces m.fetch.activeScreenBase 1024 ++ m.graphicsPlaces ++
    (List.range 8).flatMap m.spritePlaces

end CC64Memory

section Places

open CC64Memory

variable {m : CC64Memory} {b : WriteBuffer}

theorem restage_append (w : View) (ram : Addr → Byte) (b : WriteBuffer)
    (places places' : List Addr) :
    restage w ram b (places ++ places') = restage w ram (restage w ram b places) places' :=
  List.foldl_append

theorem invalidateSpan_eq_restage (b : WriteBuffer) (base : BitVec 32) (length : ℕ) :
    b.invalidateSpan m.view base length = restage m.view m.ram b (spanPlaces base length) := by
  rw [invalidateSpan, spanPlaces]
  split
  · exact invalidateRange_eq_restage rfl b _ length
  · rfl

theorem invalidateDisplayed_eq_restage (b : WriteBuffer) :
    b.invalidateDisplayed m = restage m.view m.ram b m.displayedPlaces := by
  have hsprites (l : List ℕ) (b : WriteBuffer) :
      l.foldl (fun b n => if (m.fetch.vicRegShadow 0x15).getLsbD n = false then b
        else b.invalidateSpan m.view
          (m.fetch.activeVICBankBase + (m.fetch.pointerByte m.ram n).setWidth 32 * 64) 64) b =
        restage m.view m.ram b (l.flatMap m.spritePlaces) := by
    induction l generalizing b with
    | nil => rfl
    | cons n l ih =>
        rw [List.foldl_cons, List.flatMap_cons, restage_append, ih]
        congr 1
        rw [spritePlaces]
        split
        · rfl
        · exact invalidateSpan_eq_restage b _ 64
  rw [displayedPlaces, restage_append, restage_append, ← hsprites, ← invalidateSpan_eq_restage,
    graphicsPlaces]
  unfold invalidateDisplayed
  dsimp only
  congr 1
  split
  · exact invalidateSpan_eq_restage _ _ _
  · exact invalidateSpan_eq_restage _ _ _

theorem mem_rangePlaces {base a : Addr} {length : ℕ} (hlow : base.toNat ≤ a.toNat)
    (hhigh : a.toNat < base.toNat + length) : a ∈ rangePlaces base length := by
  refine List.mem_map.mpr ⟨a.toNat - base.toNat, List.mem_range.mpr (by omega), ?_⟩
  apply BitVec.eq_of_toNat_eq
  have := a.isLt
  rw [BitVec.toNat_add, BitVec.toNat_ofNat]
  omega

theorem mem_spanPlaces {base : BitVec 32} {a : Addr} {length : ℕ} (h : Fetch.InSpan base length a) :
    a ∈ spanPlaces base length := by
  obtain ⟨-, hlow, hhigh⟩ := h
  have ha := a.isLt
  have hbase : base < 0x10000#32 := BitVec.lt_def.mpr (by simp; omega)
  have hwidth : (base.setWidth 16).toNat = base.toNat := by
    rw [BitVec.toNat_setWidth]
    omega
  rw [spanPlaces, if_pos hbase]
  exact mem_rangePlaces (by omega) (by omega)

end Places

/-! ### What has to arrive -/

namespace CC64Memory

variable (m : CC64Memory) (covers : Addr → Bool)

/-- The VIC draws from the address, the policy covers it, and no relocated shape lives there. -/
def DrawsOwn (a : Addr) : Prop :=
  m.fetch.Draws a ∧ covers a = true ∧ ∀ y, ¬m.view.Relays a y

/-- The bytes of the block that pointer `v` selects have homes that the policy covers, or the
policy covers them and no relocated shape lives there. -/
def Deliverable (v : Byte) : Prop :=
  (∀ i < 64, ∃ x, m.view.Relays x (m.fetch.shapePlace v i) ∧ covers x = true) ∨
    ∀ i < 64, covers (m.fetch.shapePlace v i) = true ∧
      ∀ y, ¬m.view.Relays (m.fetch.shapePlace v i) y

/-- Sprite `n` is enabled, the policy covers its pointer, and its block can be delivered. -/
def ShowsSprite (n : ℕ) : Prop :=
  n < 8 ∧ (m.fetch.vicRegShadow 0x15).getLsbD n = true ∧ covers (m.fetch.pointerPlace n) = true ∧
    m.Deliverable covers (m.fetch.pointerByte m.ram n)

/-- The C64's memory holds what the VIC draws, with its pointers translated, and the shapes that
its pointers select are those that the pointers of RAM select. -/
structure HandedOver (dram : Addr → Byte) : Prop where
  pointer : ∀ a, m.DrawsOwn covers a → m.fetch.InPointerRow a →
    dram a = deliverValue m.view a (m.ram a)
  data : ∀ a, m.DrawsOwn covers a → ¬m.fetch.InPointerRow a → dram a = m.ram a
  shape : ∀ n, m.ShowsSprite covers n → ∀ i < 64,
    dram (m.fetch.shapePlace (dram (m.fetch.pointerPlace n)) i) =
      m.ram (m.fetch.shapePlace (m.fetch.pointerByte m.ram n) i)

/-- The row of pointers is the one of the registers. What the VIC draws is not relocated, a
pointer does not lie where a relocated shape lives, and no other byte that is shown is taken for
a pointer. -/
structure Presentable : Prop where
  row : m.fetch.spritePtrBase = m.fetch.pointerBase
  inPlace : ∀ a, m.DrawsOwn covers a → ∀ x, ¬m.view.Relays x a
  data : ∀ a, m.DrawsOwn covers a → ¬m.fetch.InPointerRow a → ¬m.view.TakenForPointer a (m.ram a)
  pointer : ∀ n, m.ShowsSprite covers n → ∀ y, ¬m.view.Relays (m.fetch.pointerPlace n) y
  shape : ∀ n, m.ShowsSprite covers n → ∀ i < 64,
    let a := m.fetch.shapePlace (m.fetch.pointerByte m.ram n) i
    (∀ x, ¬m.view.Relays x a) → ¬m.view.TakenForPointer a (m.ram a)

end CC64Memory

/-- The C64's memory after the hand-over and a complete flush. -/
def CC64Memory.afterHandOver (m : CC64Memory) (b : WriteBuffer) (dram : Addr → Byte) :
    Addr → Byte :=
  runCalls dram (((b.discard.setDeliveryEnabled true).invalidateDisplayed m).flush m.view).2

/-! ### Where pointers and shapes are -/

namespace Fetch

variable {f : Fetch} {ram : Addr → Byte}

theorem toNat_pointerPlace {n : ℕ} (hn : n < 8) :
    (f.pointerPlace n).toNat =
      f.vicBank.toNat * 0x4000 + f.lastD018.toNat / 16 * 0x400 + 0x3F8 + n := by
  have hbank := f.vicBank_lt
  have hscreen := f.lastD018.isLt
  rw [pointerPlace, BitVec.toNat_setWidth, BitVec.toNat_add, toNat_screenRow, BitVec.toNat_ofNat]
  omega

theorem draws_pointerPlace {n : ℕ} (hn : n < 8) : f.Draws (f.pointerPlace n) := by
  have hplace := toNat_pointerPlace (f := f) hn
  have hbase := toNat_activeVICScreenBase (f := f)
  refine .inl ⟨?_, by omega, by omega⟩
  intro hnone
  have hbank := f.vicBank_lt
  have hscreen := f.lastD018.isLt
  have hvalue : noBase.toNat = 0xFFFFFFFF := rfl
  rw [hnone, hvalue] at hbase
  omega

theorem toNat_shapePlace {v : Byte} {i : ℕ} (hi : i < 64) :
    (f.shapePlace v i).toNat = f.vicBank.toNat * 0x4000 + v.toNat * 64 + i := by
  have hbank := f.vicBank_lt
  have hpointer := v.isLt
  rw [shapePlace, BitVec.toNat_ofNat]
  omega

theorem shapePlace_eq_blockByte (hbank : f.vicBank.toNat = 3) (v : Byte) (i : ℕ) :
    f.shapePlace v i = blockByte v.toNat i := by
  rw [shapePlace, blockByte, hbank]

/-- In bank 3 a pointer is where some matrix of the bank has its pointers. -/
theorem pointerPlace_shape {n : ℕ} (hn : n < 8) (hbank : f.vicBank.toNat = 3) :
    0xC000#16 ≤ f.pointerPlace n ∧ 0x3F8#16 ≤ f.pointerPlace n &&& 0x3FF#16 := by
  have hplace := toNat_pointerPlace (f := f) hn
  refine ⟨BitVec.le_def.mpr (by rw [hplace, hbank]; simp; omega), BitVec.le_def.mpr ?_⟩
  rw [BitVec.toNat_and]
  have hmask := Nat.and_two_pow_sub_one_eq_mod (f.pointerPlace n).toNat 10
  have heq : (f.pointerPlace n).toNat &&& (0x3FF#16).toNat =
      (f.pointerPlace n).toNat % 1024 := hmask
  rw [heq, hplace]
  simp
  omega

/-- Where the pointer row is kept as out of reach, the matrix lies under the I/O window. -/
theorem under_of_noBase (hrow : f.spritePtrBase = f.pointerBase) (hnone : f.spritePtrBase = noBase)
    {a : Addr} (ha : InSpan f.activeVICScreenBase 0x400 a) :
    f.ramUnderIOAccessible = false ∧ 0xD000#16 ≤ a ∧ a ≤ 0xDFFF#16 := by
  obtain ⟨-, hlow, hhigh⟩ := ha
  have hunder := hrow.symm.trans hnone
  rw [pointerBase] at hunder
  split at hunder
  next hwindow =>
    have hbank := f.vicBank_lt
    have hscreen := f.lastD018.isLt
    have hbase := toNat_activeVICScreenBase (f := f)
    have hrowNat := f.toNat_screenRow
    obtain ⟨k, hk⟩ : ∃ k, k = f.vicBank.toNat * 16 + f.lastD018.toNat / 16 := ⟨_, rfl⟩
    have hrow' : f.activeVICScreenBase + 0x3F8#32 = BitVec.ofNat 32 (k * 0x400 + 0x3F8) := by
      apply BitVec.eq_of_toNat_eq
      rw [hrowNat, BitVec.toNat_ofNat]
      omega
    have hslot : ∀ k < 64, BitVec.ofNat 32 (k * 0x400 + 0x3F8) &&& 0xF000#32 = 0xD000 →
        52 ≤ k ∧ k < 56 := by decide
    rw [hrow'] at hwindow
    obtain ⟨hfirst, hlast⟩ := hslot k (by omega) hwindow.2
    exact ⟨hwindow.1, BitVec.le_def.mpr (by simp; omega), BitVec.le_def.mpr (by simp; omega)⟩
  next => exact absurd hunder (screenRow_ne_noBase f)

end Fetch

/-! ### States between steps -/

/-- What holds of the mirror between steps, whether it delivers or not. -/
structure MirrorState.Consistent (x : MirrorState) : Prop where
  represents : Represents x.buffer
  attached : x.buffer.bus = true
  inverse : x.fetch.relocation.Inverse
  accessible : x.buffer.ramUnderIOAccessible = x.fetch.ramUnderIOAccessible
  range : (x.buffer.rangeLo, x.buffer.rangeHi) = modeRange x.buffer.mode

namespace MirrorState

variable {x : MirrorState}

/-- Writes and deliveries leave the settings alone. -/
theorem Consistent.of_settings (h : x.Consistent) {y : MirrorState}
    (hsettings : y.buffer.settings = x.buffer.settings) (hr : Represents y.buffer)
    (hinverse : y.fetch.relocation.Inverse)
    (haccessible : y.fetch.ramUnderIOAccessible = x.fetch.ramUnderIOAccessible) : y.Consistent where
  represents := hr
  attached := (congrArg Settings.bus hsettings).trans h.attached
  inverse := hinverse
  accessible := by
    rw [haccessible, ← h.accessible]
    exact congrArg Settings.ramUnderIOAccessible hsettings
  range := by
    have hrange := congrArg (fun t : Settings => (t.rangeLo, t.rangeHi)) hsettings
    have hmode := congrArg Settings.mode hsettings
    exact hrange.trans (h.range.trans (congrArg modeRange hmode.symm))

theorem represents_replay (v : Byte) (n : ℕ) (h : Represents x.buffer) :
    Represents (replay v n x).buffer ∧ (replay v n x).buffer.settings = x.buffer.settings := by
  induction n generalizing x with
  | zero => exact ⟨h, rfl⟩
  | succ n ih =>
      obtain ⟨hr, hsettings⟩ := ih (x := x.tell _ _) (h.onRamWrite _ _ _)
      exact ⟨hr, hsettings.trans (settings_tell x _ _)⟩

theorem accessible_chipWritten (f : Fetch) (ram : Addr → Byte) (a : Addr) (v : Byte) :
    (f.chipWritten ram a v).ramUnderIOAccessible = f.ramUnderIOAccessible := by
  have hchip : (f.trackedChip ram a v).ramUnderIOAccessible = f.ramUnderIOAccessible := by
    unfold Fetch.trackedChip
    split_ifs <;> rfl
  unfold Fetch.chipWritten
  dsimp only
  split
  · unfold Fetch.trackedVIC
    dsimp only
    split <;> exact hchip
  · exact hchip

theorem keptBy_consistent (L : MirrorEvent → Prop) : KeptBy L Consistent := by
  intro x e hL he h
  have hinverse : (x.apply e).fetch.relocation.Inverse := keptBy_inverse L x e hL he h.inverse
  cases e with
  | note | busWrite | sampleSerial | countRow | countDelivered | countExhausted | pointer
  | refreshBlocks => exact h.of_settings rfl h.represents hinverse rfl
  | chipWrite a v =>
      exact h.of_settings rfl h.represents hinverse (accessible_chipWritten x.fetch x.ram a v)
  | policy mode exclude =>
      exact ⟨(h.represents.step (.setExcludeZeroPageStack exclude)).step
        (.setOptMode mode), h.attached,
        hinverse, h.accessible, rfl⟩
  | store a v =>
      exact h.of_settings (settings_tell x a v) (h.represents.onRamWrite x.view a v) hinverse rfl
  | claim v r =>
      obtain ⟨hr, hsettings⟩ :=
        represents_replay (x := { x with fetch := x.fetch.claimReloc v r }) v 64
        h.represents
      refine h.of_settings hsettings hr hinverse ?_
      show (replay v 64 _).fetch.ramUnderIOAccessible = _
      rw [(replay_frame v 64 _).1]
      rfl
  | accessible on =>
      obtain ⟨r, np, hframe⟩ := setRAMUnderIOAccessible_frame x.buffer on
      have hon : (x.buffer.setRAMUnderIOAccessible on).ramUnderIOAccessible = on := by
        unfold WriteBuffer.setRAMUnderIOAccessible
        split
        next hsame => exact hsame
        next => rfl
      refine ⟨h.represents.setRAMUnderIOAccessible on, ?_, hinverse, hon, ?_⟩
      · show (x.buffer.setRAMUnderIOAccessible on).bus = true
        rw [hframe]
        exact h.attached
      · show ((x.buffer.setRAMUnderIOAccessible on).rangeLo,
          (x.buffer.setRAMUnderIOAccessible on).rangeHi) =
            modeRange (x.buffer.setRAMUnderIOAccessible on).mode
        rw [hframe]
        exact h.range
  | discard => exact h.of_settings rfl (h.represents.step .discard) hinverse rfl
  | reset => exact h.of_settings rfl h.represents hinverse rfl
  | work work =>
      obtain ⟨hbuffer, hfetch⟩ := serveAll_frame
        ({ x with buffer := (work.perform x.buffer x.view).1 }.note .mirrorWork)
        (work.perform x.buffer x.view).2
      have hr := perform_rule (represents_deliveryInvariant x.view) work x.buffer x.ram h.represents
      have hsettings :=
        perform_rule (settings_deliveryInvariant x.view x.buffer.settings) work x.buffer
        x.ram rfl
      refine h.of_settings ?_ ?_ hinverse (congrArg Fetch.ramUnderIOAccessible hfetch)
      · exact (congrArg settings hbuffer).trans hsettings
      · exact hbuffer ▸ hr

end MirrorState

/-! ### What arrives -/

/-- Where the policy covers an address under the I/O window, it covers the homes. -/
theorem WriteBuffer.shouldMirror_home {b : WriteBuffer}
    (hrange : (b.rangeLo, b.rangeHi) = modeRange b.mode) {a x : Addr} (hlow : 0xD000 ≤ a.toNat)
    (hhigh : a.toNat < 0xE000) (hx : 0xC000 ≤ x.toNat)
    (hx' : x.toNat < 0xCC00) (h : b.shouldMirror a = true) : b.shouldMirror x = true := by
  obtain ⟨hlo, hhi⟩ := Prod.mk.inj hrange
  have hexcluded : ¬x < 0x0200#16 := by
    rw [BitVec.lt_def]
    simp
    omega
  have hwindow : ¬0xD000#16 ≤ x := by
    rw [BitVec.le_def]
    simp
    omega
  unfold shouldMirror at h ⊢
  rw [hlo, hhi] at h ⊢
  simp only [hexcluded, hwindow, and_false, false_and, if_false]
  cases hmode : b.mode <;> rw [hmode] at h <;>
    simp [BitVec.le_def] at h ⊢ <;> omega

namespace CC64Memory

variable {m : CC64Memory} {b : WriteBuffer} {e : List BusEvent}

/-- The memory and the buffer, as the mirror sees them. -/
abbrev mirrored (m : CC64Memory) (b : WriteBuffer) : MirrorState := ⟨m.fetch, m.ram, b, []⟩

theorem paired (h : (m.mirrored b).Consistent) : m.view.Paired := by
  intro t ht
  obtain rfl := Option.some.inj ht
  exact h.inverse

/-- All that the VIC draws, and that the policy covers, is told again. -/
theorem mem_displayedPlaces_of_draws (h : (m.mirrored b).Consistent)
    (hrow : m.fetch.spritePtrBase = m.fetch.pointerBase) {a : Addr} (ha : m.fetch.Draws a)
    (hcovers : b.shouldMirror a = true) : a ∈ m.displayedPlaces := by
  rw [displayedPlaces, List.mem_append, List.mem_append]
  obtain hmatrix | hbitmap | hcharset := ha
  · refine .inl (.inl (mem_spanPlaces ?_))
    by_cases hnone : m.fetch.spritePtrBase = noBase
    · obtain ⟨hunder, hfirst, hlast⟩ := Fetch.under_of_noBase hrow hnone hmatrix
      have hbuffer : b.ramUnderIOAccessible = false := h.accessible.trans hunder
      rw [shouldMirror] at hcovers
      simp [hbuffer, hfirst, hlast] at hcovers
    · have hscreen : m.fetch.activeScreenBase = m.fetch.activeVICScreenBase := by
        rw [Fetch.activeScreenBase, if_neg hnone, Fetch.eq_screenRow hrow hnone]
        exact BitVec.add_sub_cancel _ _
      rw [hscreen]
      exact hmatrix
  · have hplaces := mem_spanPlaces hbitmap
    refine .inl (.inr ?_)
    rw [graphicsPlaces]
    split
    · exact hplaces
    next hbase =>
      rw [spanPlaces, if_neg hbase] at hplaces
      cases hplaces
  · have hplaces := mem_spanPlaces hcharset
    refine .inl (.inr ?_)
    have htext : m.fetch.activeBitmapBase = noBase := by
      obtain ⟨hsome, -, -⟩ := hcharset
      rw [Fetch.activeCharsetBase] at hsome
      rw [Fetch.activeBitmapBase]
      by_cases hmode : m.fetch.vicRegShadow 0x11 &&& 0x20 = 0
      · rw [if_pos hmode]
      · exact absurd (if_pos hmode) hsome
    rw [graphicsPlaces, htext, if_neg (by decide)]
    exact hplaces

/-- And the shapes of the enabled sprites. -/
theorem mem_displayedPlaces_of_shape {n i : ℕ} (hn : n < 8) (hi : i < 64)
    (henabled : (m.fetch.vicRegShadow 0x15).getLsbD n = true) :
    m.fetch.shapePlace (m.fetch.pointerByte m.ram n) i ∈ m.displayedPlaces := by
  refine List.mem_append_right _ (List.mem_flatMap.mpr ⟨n, List.mem_range.mpr hn, ?_⟩)
  rw [spritePlaces, henabled, if_neg Bool.noConfusion]
  apply mem_spanPlaces
  have hbank := m.fetch.vicBank_lt
  have hpointer := (m.fetch.pointerByte m.ram n).isLt
  have hbase : (m.fetch.activeVICBankBase + (m.fetch.pointerByte m.ram n).setWidth 32 * 64).toNat =
      m.fetch.vicBank.toNat * 0x4000 + (m.fetch.pointerByte m.ram n).toNat * 64 := by
    rw [BitVec.toNat_add, BitVec.toNat_mul, Fetch.toNat_activeVICBankBase, BitVec.toNat_setWidth]
    simp
    omega
  have hplace := Fetch.toNat_shapePlace (f := m.fetch) (v := m.fetch.pointerByte m.ram n) hi
  refine ⟨fun hnone => ?_, by omega, by omega⟩
  have hvalue : noBase.toNat = 0xFFFFFFFF := rfl
  rw [hnone, hvalue] at hbase
  omega

/-! ### A complete hand-over -/

variable {dram : Addr → Byte}

/-- What a byte that is told again leaves in the C64's memory. -/
theorem arrived (h : (m.mirrored b).Consistent) {a x : Addr} (hcovers : b.shouldMirror x = true)
    (ha : a ∈ m.displayedPlaces) (htakes : Takes m.view x a) (dram : Addr → Byte) :
    m.afterHandOver b dram x = deliverValue m.view x (m.ram a) := by
  rw [afterHandOver, invalidateDisplayed_eq_restage]
  exact (h.represents.emptied h.attached).rebuilt_taken (paired h) rfl hcovers ha htakes

theorem arrived_own (h : (m.mirrored b).Consistent)
    (hrow : m.fetch.spritePtrBase = m.fetch.pointerBase) {a : Addr}
    (ha : m.DrawsOwn b.shouldMirror a) (hplace : ∀ x, ¬m.view.Relays x a) (dram : Addr → Byte) :
    m.afterHandOver b dram a = deliverValue m.view a (m.ram a) :=
  arrived h ha.2.1 (mem_displayedPlaces_of_draws h hrow ha.1 ha.2.1)
    (.inr ⟨rfl, fun x => ⟨hplace x, ha.2.2 x⟩⟩) dram

/-- A relocated block is selected from bank 3, by a pointer that the tables translate. -/
theorem moved_of_relays (h : (m.mirrored b).Consistent) {v : Byte} {i : ℕ} {x : Addr} (hi : i < 64)
    (hrelays : m.view.Relays x (m.fetch.shapePlace v i)) :
    m.fetch.vicBank.toNat = 3 ∧ 0x40#8 ≤ v ∧ v < 0x80#8 ∧
      m.fetch.relocation.ptrReloc (v.toNat - 0x40) ≠ 0xFF#8 := by
  have hbounds := (paired h).source_bounds hrelays
  rw [Fetch.toNat_shapePlace hi] at hbounds
  have hbank : m.fetch.vicBank.toNat = 3 := by
    have := m.fetch.vicBank_lt
    have := v.isLt
    omega
  obtain ⟨t, ht, hrelays⟩ := hrelays
  obtain rfl := Option.some.inj ht
  rw [Fetch.shapePlace_eq_blockByte hbank] at hrelays
  obtain ⟨hlow, hhigh, hmoved⟩ := h.inverse.ptrReloc_of_relays v.isLt hi hrelays
  exact ⟨hbank, BitVec.le_def.mpr hlow, BitVec.lt_def.mpr hhigh, hmoved⟩

/-- The pointer to a block that is not relocated is delivered as it is. -/
theorem deliverValue_pointerPlace (h : (m.mirrored b).Consistent) {n i : ℕ}
    (hn : n < 8) (hi : i < 64)
    {v : Byte} (hown : ∀ x, ¬m.view.Relays x (m.fetch.shapePlace v i)) :
    deliverValue m.view (m.fetch.pointerPlace n) v = v := by
  apply deliverValue_of_data
  rintro ⟨hplace, -, hlow, hhigh, t, ht, hmoved⟩
  obtain rfl := Option.some.inj ht
  have hbank : m.fetch.vicBank.toNat = 3 := by
    have hplace : 0xC000 ≤ (m.fetch.pointerPlace n).toNat := BitVec.le_def.mp hplace
    have := m.fetch.vicBank_lt
    have := m.fetch.lastD018.isLt
    rw [Fetch.toNat_pointerPlace hn] at hplace
    omega
  rw [Fetch.shapePlace_eq_blockByte hbank] at hown
  exact hown _
    ⟨_, rfl, h.inverse.relays_of_ptrReloc (BitVec.le_def.mp hlow) (BitVec.lt_def.mp hhigh)
    hi hmoved⟩

/-- A block that is not relocated is one that the policy covers where it is. -/
theorem Deliverable.own {v : Byte} {i : ℕ} (h : m.Deliverable b.shouldMirror v) (hi : i < 64)
    (hown : ∀ x, ¬m.view.Relays x (m.fetch.shapePlace v i)) :
    b.shouldMirror (m.fetch.shapePlace v i) = true ∧ m.view.Unmoved (m.fetch.shapePlace v i) := by
  obtain hhomes | hcovered := h
  · obtain ⟨x, hx, -⟩ := hhomes i hi
    exact absurd hx (hown x)
  · exact ⟨(hcovered i hi).1, fun x => ⟨hown x, (hcovered i hi).2 x⟩⟩

/-- The shape of a sprite with a relocated block arrives at its home, which the pointer selects. -/
theorem shape_arrived_home (h : (m.mirrored b).Consistent)
    (hp : m.Presentable b.shouldMirror) {n : ℕ}
    (hn : m.ShowsSprite b.shouldMirror n) {i : ℕ} (hi : i < 64) {x : Addr}
    (hrelays : m.view.Relays x (m.fetch.shapePlace (m.fetch.pointerByte m.ram n) i))
    (hpointer : m.afterHandOver b dram (m.fetch.pointerPlace n) =
      deliverValue m.view (m.fetch.pointerPlace n) (m.fetch.pointerByte m.ram n)) :
    m.afterHandOver b dram
        (m.fetch.shapePlace (m.afterHandOver b dram (m.fetch.pointerPlace n)) i) =
      m.ram (m.fetch.shapePlace (m.fetch.pointerByte m.ram n) i) := by
  obtain ⟨hbank, hlow, hhigh, hmoved⟩ := moved_of_relays h hi hrelays
  obtain ⟨hplace, hshape⟩ := Fetch.pointerPlace_shape hn.1 hbank
  have hhome : ∀ y, ¬m.fetch.relocation.Relays (m.fetch.pointerPlace n) y := fun y hy =>
    hp.pointer n hn y ⟨_, rfl, hy⟩
  rw [hpointer, deliverValue_pointer rfl h.inverse hplace hshape hhome hlow hhigh hmoved]
  have htold := mem_displayedPlaces_of_shape hn.1 hi hn.2.1
  have hdeliverable := hn.2.2.2
  generalize m.fetch.pointerByte m.ram n = v at *
  have hhomeByte : m.view.Relays
      (m.fetch.shapePlace (m.fetch.relocation.ptrReloc (v.toNat - 0x40)) i)
      (m.fetch.shapePlace v i) := by
    rw [Fetch.shapePlace_eq_blockByte hbank, Fetch.shapePlace_eq_blockByte hbank]
    exact ⟨_, rfl, h.inverse.relays_of_ptrReloc (BitVec.le_def.mp hlow) (BitVec.lt_def.mp hhigh) hi
      hmoved⟩
  have hcovers : b.shouldMirror
      (m.fetch.shapePlace (m.fetch.relocation.ptrReloc (v.toNat - 0x40)) i) = true := by
    obtain hhomes | hown := hdeliverable
    · obtain ⟨y, hy, hcovers⟩ := hhomes i hi
      rwa [(paired h).target_unique hhomeByte hy]
    · obtain ⟨hfirst, hlast⟩ := (paired h).source_bounds hhomeByte
      obtain ⟨hfirst', hlast'⟩ := hhomeByte.target_bounds
      exact shouldMirror_home h.range hfirst hlast hfirst' hlast' (hown i hi).1
  rw [arrived h hcovers htold (.inl hhomeByte), deliverValue_home (paired h) hhomeByte]

/-- The shape of any other sprite arrives where it is, and so does its pointer. -/
theorem shape_arrived_own (h : (m.mirrored b).Consistent)
    (hp : m.Presentable b.shouldMirror) {n : ℕ}
    (hn : m.ShowsSprite b.shouldMirror n) {i : ℕ} (hi : i < 64)
    (hown : ∀ x, ¬m.view.Relays x (m.fetch.shapePlace (m.fetch.pointerByte m.ram n) i))
    (hpointer : m.afterHandOver b dram (m.fetch.pointerPlace n) =
      deliverValue m.view (m.fetch.pointerPlace n) (m.fetch.pointerByte m.ram n)) :
    m.afterHandOver b dram
        (m.fetch.shapePlace (m.afterHandOver b dram (m.fetch.pointerPlace n)) i) =
      m.ram (m.fetch.shapePlace (m.fetch.pointerByte m.ram n) i) := by
  obtain ⟨hcovers, hunmoved⟩ := hn.2.2.2.own hi hown
  rw [hpointer, deliverValue_pointerPlace h hn.1 hi hown,
    arrived h hcovers (mem_displayedPlaces_of_shape hn.1 hi hn.2.1) (.inr ⟨rfl, hunmoved⟩),
    deliverValue_of_data (hp.shape n hn i hi hown)]

/-- From a presentable state the hand-over is complete, whatever the C64's memory holds. -/
theorem Presentable.handedOver (h : (m.mirrored b).Consistent) (hp : m.Presentable b.shouldMirror)
    (dram : Addr → Byte) : m.HandedOver b.shouldMirror (m.afterHandOver b dram) where
  pointer a ha _ := arrived_own h hp.row ha (hp.inPlace a ha) dram
  data a ha hrow := by
    rw [arrived_own h hp.row ha (hp.inPlace a ha) dram, deliverValue_of_data (hp.data a ha hrow)]
  shape n hn i hi := by
    have hrow : m.DrawsOwn b.shouldMirror (m.fetch.pointerPlace n) :=
      ⟨Fetch.draws_pointerPlace hn.1, hn.2.2.1, hp.pointer n hn⟩
    have hpointer := arrived_own h hp.row hrow (hp.inPlace _ hrow) dram
    by_cases hmoved : ∃ x, m.view.Relays x (m.fetch.shapePlace (m.fetch.pointerByte m.ram n) i)
    · obtain ⟨x, hrelays⟩ := hmoved
      exact shape_arrived_home h hp hn hi hrelays hpointer
    · exact shape_arrived_own h hp hn hi (not_exists.mp hmoved) hpointer

/-! ### Where it is not complete -/

/-- An address that takes no byte that is told again holds what it held. -/
theorem kept (h : (m.mirrored b).Consistent) {x : Addr}
    (hnone : ∀ a ∈ m.displayedPlaces, ¬Takes m.view x a) (dram : Addr → Byte) :
    m.afterHandOver b dram x = dram x := by
  rw [afterHandOver, invalidateDisplayed_eq_restage]
  exact (h.represents.emptied h.attached).rebuilt_kept (paired h) rfl hnone

/-- A byte that has its home elsewhere does not arrive where it is drawn from. -/
theorem kept_of_relays (h : (m.mirrored b).Consistent) {a x : Addr} (ha : ∀ y, ¬m.view.Relays a y)
    (hrelays : m.view.Relays x a) (dram : Addr → Byte) : m.afterHandOver b dram a = dram a := by
  refine kept h (fun y _ htakes => ?_) dram
  obtain hhome | ⟨rfl, hunmoved⟩ := htakes
  · exact ha y hhome
  · exact (hunmoved x).1 hrelays

/-- A byte that is taken for a pointer is not delivered as it is. -/
theorem deliverValue_ne (h : (m.mirrored b).Consistent) {a : Addr} {v : Byte}
    (ha : ∀ y, ¬m.view.Relays a y) (htaken : m.view.TakenForPointer a v) :
    deliverValue m.view a v ≠ v := by
  obtain ⟨hplace, hshape, hlow, hhigh, t, ht, hmoved⟩ := htaken
  obtain rfl := Option.some.inj ht
  have hhome : ∀ y, ¬m.fetch.relocation.Relays a y := fun y hy => ha y ⟨_, rfl, hy⟩
  rw [deliverValue_pointer rfl h.inverse hplace hshape hhome hlow hhigh hmoved]
  have hlow' : 0x40 ≤ v.toNat := BitVec.le_def.mp hlow
  have hhigh' : v.toNat < 0x80 := BitVec.lt_def.mp hhigh
  have hhome := h.inverse.target (v.toNat - 0x40) (by omega) hmoved
  intro heq
  rw [heq] at hhome
  omega

/-- Nor does a shape arrive that has such a byte and stays where it is. -/
theorem not_handedOver_of_taken (h : (m.mirrored b).Consistent)
    (hrow : m.fetch.spritePtrBase = m.fetch.pointerBase) {n i : ℕ}
    (hn : m.ShowsSprite b.shouldMirror n) (hplace : m.view.Unmoved (m.fetch.pointerPlace n))
    (hi : i < 64)
    (hown : ∀ x, ¬m.view.Relays x (m.fetch.shapePlace (m.fetch.pointerByte m.ram n) i))
    (htaken : m.view.TakenForPointer (m.fetch.shapePlace (m.fetch.pointerByte m.ram n) i)
      (m.ram (m.fetch.shapePlace (m.fetch.pointerByte m.ram n) i)))
    (dram : Addr → Byte) : ¬m.HandedOver b.shouldMirror (m.afterHandOver b dram) := by
  intro hcomplete
  obtain ⟨hcovers, hunmoved⟩ := hn.2.2.2.own hi hown
  have hin : m.DrawsOwn b.shouldMirror (m.fetch.pointerPlace n) :=
    ⟨Fetch.draws_pointerPlace hn.1, hn.2.2.1, fun y => (hplace y).2⟩
  have hshape := hcomplete.shape n hn i hi
  rw [arrived_own h hrow hin fun x => (hplace x).1] at hshape
  change m.afterHandOver b dram (m.fetch.shapePlace
    (deliverValue m.view (m.fetch.pointerPlace n) (m.fetch.pointerByte m.ram n)) i) = _ at hshape
  rw [deliverValue_pointerPlace h hn.1 hi hown,
    arrived h hcovers (mem_displayedPlaces_of_shape hn.1 hi hn.2.1)
      (.inr ⟨rfl, hunmoved⟩)] at hshape
  exact deliverValue_ne h (fun y => (hunmoved y).2) htaken hshape

/-- Where the pointers themselves arrive, only presentable states are handed over completely. -/
theorem presentable_of_handedOver (h : (m.mirrored b).Consistent)
    (hrow : m.fetch.spritePtrBase = m.fetch.pointerBase)
    (hpointer : ∀ n, m.ShowsSprite b.shouldMirror n →
      ∀ y, ¬m.view.Relays (m.fetch.pointerPlace n) y)
    (hcomplete : ∀ dram, m.HandedOver b.shouldMirror (m.afterHandOver b dram)) :
    m.Presentable b.shouldMirror := by
  have hplace (a : Addr) (ha : m.DrawsOwn b.shouldMirror a) (x : Addr) : ¬m.view.Relays x a := by
    intro hrelays
    obtain ⟨v, hv⟩ : ∃ v, ∀ dram, m.afterHandOver b dram a = v := by
      by_cases hin : m.fetch.InPointerRow a
      · exact ⟨_, fun dram => (hcomplete dram).pointer a ha hin⟩
      · exact ⟨_, fun dram => (hcomplete dram).data a ha hin⟩
    -- nothing arrives at `a`, whatever was there
    have hkept := kept_of_relays h ha.2.2 hrelays fun _ => v + 1
    rw [hv] at hkept
    bv_omega
  refine ⟨hrow, hplace, fun a ha hin htaken => ?_, hpointer, fun n hn i hi hown htaken => ?_⟩
  · have hdata := (hcomplete m.ram).data a ha hin
    rw [arrived_own h hrow ha (hplace a ha)] at hdata
    exact deliverValue_ne h ha.2.2 htaken hdata
  · have hin : m.DrawsOwn b.shouldMirror (m.fetch.pointerPlace n) :=
      ⟨Fetch.draws_pointerPlace hn.1, hn.2.2.1, hpointer n hn⟩
    exact not_handedOver_of_taken h hrow hn (fun x => ⟨hplace _ hin x, hpointer n hn x⟩)
      hi hown htaken
      m.ram (hcomplete m.ram)

end CC64Memory

/-- No relocated shape comes from or goes to an address outside the homes and the I/O window. -/
theorem unmoved_of_outside {w : View} (hw : w.Paired) {a : Addr}
    (hhome : ¬(0xC000 ≤ a.toNat ∧ a.toNat < 0xCC00))
    (hwindow : ¬(0xD000 ≤ a.toNat ∧ a.toNat < 0xE000)) : w.Unmoved a :=
  fun _ => ⟨fun h => hwindow (hw.source_bounds h), fun h => hhome h.target_bounds⟩

/-- Without native access no byte that the policy covers has its home elsewhere. -/
theorem in_place_of_covered {m : CC64Memory} {b : WriteBuffer} (h : (m.mirrored b).Consistent)
    (hoff : b.ramUnderIOAccessible = false) {a : Addr} (ha : b.shouldMirror a = true) (x : Addr) :
    ¬m.view.Relays x a := by
  intro hrelays
  obtain ⟨hlow, hhigh⟩ := (CC64Memory.paired h).source_bounds hrelays
  have hfirst : 0xD000#16 ≤ a := BitVec.le_def.mpr hlow
  have hlast : a ≤ 0xDFFF#16 := BitVec.le_def.mpr (Nat.le_of_lt_succ hhigh)
  rw [shouldMirror] at ha
  simp [hoff, hfirst, hlast] at ha

/-! ### Every reachable state -/

section Runs

variable {ρ : Type}

/-- The hand-over changes the buffer and nothing else that the mirror sees. In particular it
writes nothing on the bus. -/
theorem enablePhysicalMirror_mirrorState (c : SuperCpu ρ) (depth : ℕ) (s : System ρ) :
    System.mirrorState (SuperCpu.enablePhysicalMirror (c.board.env depth) s) =
      { s.mirrorState with
        buffer :=
          (s.accelerator.buffer.discard.setDeliveryEnabled true).invalidateDisplayed s.memory } :=
  rfl

/-- The picture is handed back and all that is queued then is delivered. The C64's memory, which
held `dram`, then holds what the VIC is to show. -/
def SuperCpu.HandsOver (c : SuperCpu ρ) (depth : ℕ) (s : System ρ) (dram : Addr → Byte) : Prop :=
  let shown := c.displayStep depth s .enablePhysicalMirror
  shown.memory.HandedOver shown.accelerator.buffer.shouldMirror
    (runCalls dram (shown.accelerator.buffer.flush shown.memory.view).2)

def System.Presentable (s : System ρ) : Prop :=
  s.memory.Presentable s.accelerator.buffer.shouldMirror

theorem handsOver_iff (c : SuperCpu ρ) (depth : ℕ) (s : System ρ) (dram : Addr → Byte) :
    c.HandsOver depth s dram ↔
      s.memory.HandedOver s.accelerator.buffer.shouldMirror
        (s.memory.afterHandOver s.accelerator.buffer dram) := by
  rw [SuperCpu.HandsOver]
  have hbuffer : (c.displayStep depth s .enablePhysicalMirror).accelerator.buffer =
      (s.accelerator.buffer.discard.setDeliveryEnabled true).invalidateDisplayed s.memory :=
    congrArg MirrorState.buffer (enablePhysicalMirror_mirrorState c depth s)
  have hcovers : (c.displayStep depth s .enablePhysicalMirror).accelerator.buffer.shouldMirror =
      s.accelerator.buffer.shouldMirror := by
    funext a
    rw [hbuffer, invalidateDisplayed_eq_restage]
    exact shouldMirror_congr (settings_restage _ _) a
  rw [hcovers, hbuffer]
  exact ⟨fun ⟨hpointer, hdata, hshape⟩ => ⟨hpointer, hdata, hshape⟩,
    fun ⟨hpointer, hdata, hshape⟩ => ⟨hpointer, hdata, hshape⟩⟩

/-- The record does not matter. -/
theorem MirrorState.Consistent.mirrored {s : System ρ} (h : s.mirrorState.Consistent) :
    (s.memory.mirrored s.accelerator.buffer).Consistent :=
  ⟨h.represents, h.attached, h.inverse, h.accessible, h.range⟩

theorem consistent_displayStep (c : SuperCpu ρ) (depth : ℕ) (s : System ρ) (op : DisplayOp ρ)
    (h : s.mirrorState.Consistent) :
    (System.mirrorState (c.displayStep depth s op)).Consistent := by
  have hswitched (on : Bool) : MirrorState.Consistent { s.mirrorState with
      buffer := s.accelerator.buffer.discard.setDeliveryEnabled on } :=
    ⟨(h.represents.step .discard).step (.setDeliveryEnabled on), h.attached,
      h.inverse, h.accessible,
      h.range⟩
  cases op with
  | system op =>
      exact mirror_step (admits_all c) (MirrorState.keptBy_consistent fun _ => True) depth s
        (within_all op) h
  | disablePhysicalMirror => exact hswitched false
  | enablePhysicalMirror =>
      show (System.mirrorState (SuperCpu.enablePhysicalMirror (c.board.env depth) s)).Consistent
      rw [enablePhysicalMirror_mirrorState]
      refine (hswitched true).of_settings ?_ ?_ h.inverse rfl
      · show (invalidateDisplayed _ s.memory).settings = _
        rw [invalidateDisplayed_eq_restage]
        exact settings_restage _ _
      · show Represents (invalidateDisplayed _ s.memory)
        rw [invalidateDisplayed_eq_restage]
        exact (hswitched true).represents.restage _ _ _

/-- As constructed, on the bus, nothing is relocated and the memory and the buffer agree. -/
theorem consistent_construct {s : System ρ} {pendingValue : Addr → Byte} {list : ℕ → Addr}
    {row previousRow : BitVec 32} {d018 : Byte} {registers : BitVec 6 → Byte}
    (hbuffer : s.accelerator.buffer = (construct pendingValue list).attach true)
    (hfetch : s.memory.fetch = Fetch.construct row previousRow d018 registers) :
    s.mirrorState.Consistent := by
  have hstate : s.mirrorState = ⟨Fetch.construct row previousRow d018 registers, s.memory.ram,
      (construct pendingValue list).attach true, s.accelerator.events⟩ := by
    rw [System.mirrorState, hbuffer, hfetch]
  rw [hstate]
  exact ⟨(represents_construct pendingValue list).step (.attach true), rfl,
    Relocation.inverse_none, rfl,
    rfl⟩

theorem consistent_run (c : SuperCpu ρ) (depth : ℕ) {s : System ρ} (h : s.mirrorState.Consistent)
    (ops : List (DisplayOp ρ)) :
    (System.mirrorState (Library.run (c.displayStep depth) s ops)).Consistent :=
  run_invariant (P := fun s : System ρ => s.mirrorState.Consistent) (c.displayStep depth)
    (fun s op h => consistent_displayStep c depth s op h) s ops h

/-- In every reachable state that is presentable the hand-over is complete, whatever the C64's
memory held. -/
theorem hand_over_complete (c : SuperCpu ρ) (depth : ℕ) (s : System ρ)
    (pendingValue : Addr → Byte) (list : ℕ → Addr) (row previousRow : BitVec 32) (d018 : Byte)
    (registers : BitVec 6 → Byte)
    (hbuffer : s.accelerator.buffer = (construct pendingValue list).attach true)
    (hfetch : s.memory.fetch = Fetch.construct row previousRow d018 registers)
    (ops : List (DisplayOp ρ)) (dram : Addr → Byte)
    (hpresentable : (Library.run (c.displayStep depth) s ops).Presentable) :
    c.HandsOver depth (Library.run (c.displayStep depth) s ops) dram := by
  have hreached := consistent_run c depth (consistent_construct hbuffer hfetch) ops
  generalize Library.run (c.displayStep depth) s ops = reached at hpresentable hreached ⊢
  exact (handsOver_iff c depth reached dram).mpr
    (CC64Memory.Presentable.handedOver hreached.mirrored hpresentable dram)

/-- A sprite in bank 3 whose shape lies under the I/O window, and stores to its shape and to the
matrix while nothing is delivered. -/
def relocatedSprite : List (DisplayOp Unit) :=
  [.system (.access (.write8 0xDD02 0x3F)), .system (.access (.write8 0xDD00 0x00)),
    .system (.access (.write8 0xD018 0x3C)), .system (.access (.write8 0xD015 0x01)),
    .system (.access (.writeFast 0xCFF8 0x40)), .disablePhysicalMirror,
    .system (.access (.writeFast 0xCC00 0x01)), .system (.access (.write8 0x0001 0x34)),
    .system (.access (.writeFast 0xD000 0x55))]

theorem presentable_relocatedSprite :
    (Library.run (quietSuperCpu.displayStep 0) quietSystem relocatedSprite).Presentable := by
  obtain ⟨reached, hrun⟩ : ∃ reached,
      reached = Library.run (quietSuperCpu.displayStep 0) quietSystem relocatedSprite := ⟨_, rfl⟩
  have hrow : reached.memory.fetch.spritePtrBase = reached.memory.fetch.pointerBase := by
    rw [hrun]; decide +kernel
  have hbank : reached.memory.fetch.vicBank.toNat = 3 := by rw [hrun]; decide +kernel
  have hd018 : reached.memory.fetch.lastD018.toNat = 0x3C := by rw [hrun]; decide +kernel
  have hbitmap : reached.memory.fetch.activeBitmapBase = noBase := by rw [hrun]; decide +kernel
  have hcharset : reached.memory.fetch.activeCharsetBase = 0xF000 := by rw [hrun]; decide +kernel
  have hsprites : ∀ n < 8, (reached.memory.fetch.vicRegShadow 0x15).getLsbD n = true → n = 0 := by
    rw [hrun]; decide +kernel
  have hpointer : reached.memory.fetch.pointerByte reached.memory.ram 0 = 0x40 := by
    rw [hrun]; decide +kernel
  have hoff : reached.accelerator.buffer.ramUnderIOAccessible = false := by
    rw [hrun]; decide +kernel
  have hmoved : reached.memory.fetch.relocation.ptrReloc 0 ≠ 0xFF := by rw [hrun]; decide +kernel
  have hdata :
      ∀ k < 2, ∀ n < 8, reached.memory.ram (BitVec.ofNat 16 (0xF3F8 + k * 0x400 + n)) = 0 := by
    rw [hrun]; decide +kernel
  have hreached := consistent_run quietSuperCpu 0 (consistent_construct (s := quietSystem) rfl rfl)
    relocatedSprite
  rw [← hrun] at hreached ⊢
  have h := hreached.mirrored
  refine ⟨hrow, fun a ha => in_place_of_covered h hoff ha.2.1, fun a ha hin htaken => ?_,
    fun n hn y hy => ?_, fun n hn i hi hown _ => ?_⟩
  · obtain ⟨-, hshape, hlow, -⟩ := htaken
    have hslot : 0x3F8 ≤ a.toNat % 1024 := by
      have hmask : (a &&& 0x3FF#16).toNat = a.toNat % 1024 := by
        rw [BitVec.toNat_and]
        exact Nat.and_two_pow_sub_one_eq_mod a.toNat 10
      rw [← hmask]
      exact BitVec.le_def.mp hshape
    obtain hmatrix | hspan | hspan := ha.1
    · obtain ⟨-, hlow, hhigh⟩ := hmatrix
      rw [Fetch.toNat_activeVICScreenBase, hbank, hd018] at hlow hhigh
      refine hin ⟨a.toNat - 0xCFF8, by omega, BitVec.eq_of_toNat_eq ?_⟩
      rw [Fetch.toNat_pointerPlace (by omega), hbank, hd018]
      omega
    · exact hspan.1 hbitmap
    · obtain ⟨-, hfirst, hlast⟩ := hspan
      rw [hcharset] at hfirst hlast
      simp at hfirst hlast
      have hzero := hdata ((a.toNat - 0xF000) / 1024) (by omega) (a.toNat % 1024 - 0x3F8) (by omega)
      have ha : BitVec.ofNat 16 (0xF3F8 + (a.toNat - 0xF000) / 1024 * 0x400 +
          (a.toNat % 1024 - 0x3F8)) = a := by
        apply BitVec.eq_of_toNat_eq
        rw [BitVec.toNat_ofNat]
        omega
      rw [ha] at hzero
      rw [hzero] at hlow
      exact absurd hlow (by decide)
  · have hhigh := hy.target_bounds.2
    rw [Fetch.toNat_pointerPlace hn.1, hbank, hd018] at hhigh
    omega
  · obtain rfl := hsprites n hn.1 hn.2.1
    rw [hpointer, Fetch.shapePlace_eq_blockByte hbank] at hown
    exact hown _ ⟨_, rfl, h.inverse.relays_of_ptrReloc (by decide) (by decide) hi hmoved⟩

theorem hand_over_complete_relocated :
    quietSuperCpu.HandsOver 0
      (Library.run (quietSuperCpu.displayStep 0) quietSystem relocatedSprite)
      fun _ => 0xFF :=
  hand_over_complete quietSuperCpu 0 quietSystem (fun _ => 0) (fun _ => 0) 0 0 0
    (fun _ => 0) rfl rfl
    relocatedSprite _ presentable_relocatedSprite

/-- Conversely, where the row is current and no pointer that is shown lies in a home, only a
presentable state is handed over completely. -/
theorem presentable_of_handsOver (c : SuperCpu ρ) (depth : ℕ) {s : System ρ}
    (h : s.mirrorState.Consistent)
    (hrow : s.memory.fetch.spritePtrBase = s.memory.fetch.pointerBase)
    (hpointer : ∀ n, s.memory.ShowsSprite s.accelerator.buffer.shouldMirror n →
      ∀ y, ¬s.memory.view.Relays (s.memory.fetch.pointerPlace n) y)
    (hcomplete : ∀ dram, c.HandsOver depth s dram) : s.Presentable :=
  CC64Memory.presentable_of_handedOver h.mirrored hrow hpointer fun dram =>
    (handsOver_iff c depth s dram).mp (hcomplete dram)

/-- Two sprites in bank 3. The first selects a block under the I/O window, and the last bytes of
the block that the second selects are where a matrix at $E000 would have its pointers. -/
def twoSprites : List (DisplayOp Unit) :=
  [.write8 0xDD02 0x3F, .write8 0xDD00 0x00, .write8 0xD018 0x3C, .write8 0xD015 0x03,
    .writeFast 0xCFF8 0x40, .writeFast 0xCFF9 0x8F, .writeFast 0xE3F8 0x40].map
      fun access => .system (.access access)

/-- A byte of the second shape is taken for a pointer. -/
theorem shape_taken_for_pointer :
    ¬quietSuperCpu.HandsOver 0 (Library.run (quietSuperCpu.displayStep 0) quietSystem twoSprites)
      fun _ => 0 := by
  obtain ⟨reached, hrun⟩ : ∃ reached,
      reached = Library.run (quietSuperCpu.displayStep 0) quietSystem twoSprites := ⟨_, rfl⟩
  have hpointer : reached.memory.fetch.pointerByte reached.memory.ram 1 = 0x8F := by
    rw [hrun]; decide +kernel
  have hbank : reached.memory.fetch.vicBank.toNat = 3 := by rw [hrun]; decide +kernel
  have hplace : reached.memory.fetch.pointerPlace 1 = 0xCFF9 := by rw [hrun]; decide +kernel
  have hrow : reached.memory.fetch.spritePtrBase = reached.memory.fetch.pointerBase := by
    rw [hrun]; decide +kernel
  have henabled : (reached.memory.fetch.vicRegShadow 0x15).getLsbD 1 = true := by
    rw [hrun]; decide +kernel
  have hcovers : reached.accelerator.buffer.shouldMirror 0xCFF9 = true := by
    rw [hrun]; decide +kernel
  have hshape : ∀ i < 64, reached.accelerator.buffer.shouldMirror (blockByte 0x8F i) = true := by
    rw [hrun]; decide +kernel
  have hram : reached.memory.ram (blockByte 0x8F 0x38) = 0x40 := by rw [hrun]; decide +kernel
  have hmoved : reached.memory.fetch.relocation.ptrReloc 0 ≠ 0xFF := by rw [hrun]; decide +kernel
  have hreached := consistent_run quietSuperCpu 0 (consistent_construct (s := quietSystem) rfl rfl)
    twoSprites
  rw [← hrun] at hreached ⊢
  have h := hreached.mirrored
  have hshapePlace (i : ℕ) : reached.memory.fetch.shapePlace
      (reached.memory.fetch.pointerByte reached.memory.ram 1) i = blockByte 0x8F i := by
    rw [hpointer, Fetch.shapePlace_eq_blockByte hbank]
    rfl
  have hunmoved (i : ℕ) (hi : i < 64) : reached.memory.view.Unmoved (blockByte 0x8F i) := by
    have hnat : (blockByte 0x8F i).toNat = 0xE3C0 + i := by
      rw [blockByte, BitVec.toNat_ofNat]
      omega
    exact unmoved_of_outside (CC64Memory.paired h) (by omega) (by omega)
  have hsprite : reached.memory.ShowsSprite reached.accelerator.buffer.shouldMirror 1 := by
    refine ⟨by decide, henabled, hplace ▸ hcovers, .inr fun i hi => ?_⟩
    rw [hshapePlace]
    exact ⟨hshape i hi, fun y => (hunmoved i hi y).2⟩
  rw [handsOver_iff]
  refine CC64Memory.not_handedOver_of_taken h hrow hsprite ?_ (show 0x38 < 64 by decide) ?_ ?_ _
  · rw [hplace]
    exact unmoved_of_outside (CC64Memory.paired h) (by decide) (by decide)
  · rw [hshapePlace]
    exact fun x => (hunmoved 0x38 (by decide) x).1
  · rw [hshapePlace, hram]
    exact ⟨by decide, by decide, by decide, by decide, _, rfl, hmoved⟩

/-- Bank 3, and a reset. -/
def resetInBank3 : List (DisplayOp Unit) :=
  [.system (.access (.write8 0xDD02 0x3F)), .system (.access (.write8 0xDD00 0x00)),
    .system (.reset id (.default, true) ⟨false, 0xE000, none⟩)]

/-- The row of pointers is still that of bank 3, and the matrix is not told again. -/
theorem matrix_left_behind :
    ¬quietSuperCpu.HandsOver 0 (Library.run (quietSuperCpu.displayStep 0) quietSystem resetInBank3)
      fun _ => 1 := by
  obtain ⟨reached, hrun⟩ : ∃ reached,
      reached = Library.run (quietSuperCpu.displayStep 0) quietSystem resetInBank3 := ⟨_, rfl⟩
  have hscreen : reached.memory.fetch.activeVICScreenBase = 0x400 := by rw [hrun]; decide +kernel
  have hbank : reached.memory.fetch.vicBank.toNat = 0 := by rw [hrun]; decide +kernel
  have hd018 : reached.memory.fetch.lastD018.toNat = 0x14 := by rw [hrun]; decide +kernel
  have hcovers : reached.accelerator.buffer.shouldMirror 0x400 = true := by
    rw [hrun]; decide +kernel
  have hram : reached.memory.ram 0x400 = 0 := by rw [hrun]; decide +kernel
  have huntold : (0x400 : Addr) ∉ reached.memory.displayedPlaces := by rw [hrun]; decide +kernel
  have hreached := consistent_run quietSuperCpu 0 (consistent_construct (s := quietSystem) rfl rfl)
    resetInBank3
  rw [← hrun] at hreached ⊢
  have h := hreached.mirrored
  have hunmoved : reached.memory.view.Unmoved 0x400 :=
    unmoved_of_outside (CC64Memory.paired h) (by decide) (by decide)
  have hdraws : reached.memory.DrawsOwn reached.accelerator.buffer.shouldMirror 0x400 :=
    ⟨.inl (by rw [hscreen]; exact ⟨by decide, by decide, by decide⟩), hcovers, fun y =>
      (hunmoved y).2⟩
  have hdata : ¬reached.memory.fetch.InPointerRow 0x400 := by
    rintro ⟨n, hn, ha⟩
    have hnat := congrArg BitVec.toNat ha
    rw [Fetch.toNat_pointerPlace hn, hbank, hd018] at hnat
    simp at hnat
    omega
  rw [handsOver_iff]
  intro hcomplete
  have harrived := hcomplete.data 0x400 hdraws hdata
  rw [CC64Memory.kept h, hram] at harrived
  · exact absurd harrived (by decide)
  · rintro a ha (hhome | ⟨rfl, -⟩)
    · exact (hunmoved a).2 hhome
    · exact huntold ha

/-- A hand-over is not complete where shape data is taken for a pointer, nor where a reset has left
the row of pointers behind. -/
theorem hand_over_incomplete :
    ¬quietSuperCpu.HandsOver 0 (Library.run (quietSuperCpu.displayStep 0) quietSystem twoSprites)
        (fun _ => 0) ∧
      ¬quietSuperCpu.HandsOver 0
        (Library.run (quietSuperCpu.displayStep 0) quietSystem resetInBank3)
        fun _ => 1 :=
  ⟨shape_taken_for_pointer, matrix_left_behind⟩

end Runs

end ScpuEmu
