import ScpuEmu.SuperCpu.WriteBuffer.Invalidation

/-!
# Rebuilding the C64's memory from RAM

An emptied buffer takes every byte that it is told again, and a complete flush then writes
what it took, whatever the C64's memory held before. A byte that was told has then arrived,
save for the translation of pointers to relocated shapes.
-/

namespace ScpuEmu

open Library

/-- `v` points to a relocated block, and `a` is where some matrix of bank 3 has its pointers. -/
def View.TakenForPointer (w : View) (a : Addr) (v : Byte) : Prop :=
  0xC000#16 ≤ a ∧ 0x3F8#16 ≤ a &&& 0x3FF#16 ∧ 0x40#8 ≤ v ∧ v < 0x80#8 ∧
    ∃ t ∈ w.relocation, t.ptrReloc (v.toNat - 0x40) ≠ 0xFF#8

namespace Relocation.Inverse

variable {t : Relocation}

/-- A pointer that the tables translate selects a block whose bytes are relocated. -/
theorem relays_of_ptrReloc (h : t.Inverse) {n i : ℕ} (hlow : 64 ≤ n) (hhigh : n < 128) (hi : i < 64)
    (hmoved : t.ptrReloc (n - 64) ≠ 0xFF#8) :
    t.Relays (blockByte (t.ptrReloc (n - 64)).toNat i) (blockByte n i) := by
  obtain ⟨hr, hused⟩ := h.ptrReloc_home (by omega) hmoved
  rw [Nat.sub_add_cancel hlow] at hused
  refine ⟨_, hr, i, hi, ?_, rfl, ?_⟩
  · rw [hused]
    exact ofNat_ne_free (by omega)
  · rw [hused, BitVec.toNat_ofNat, Nat.mod_eq_of_lt (by omega)]

/-- And the tables translate the pointer to a block with a relocated byte. -/
theorem ptrReloc_of_relays (h : t.Inverse) {n i : ℕ} {x : Addr} (hn : n < 256) (hi : i < 64)
    (hrelays : t.Relays x (blockByte n i)) :
    64 ≤ n ∧ n < 128 ∧ t.ptrReloc (n - 64) ≠ 0xFF#8 := by
  obtain ⟨r, hr, i', hi', hused, -, hsource⟩ := hrelays
  obtain ⟨hlow, hhigh⟩ := h.source r hr hused
  have hblock := congrArg BitVec.toNat hsource
  rw [toNat_blockByte hhigh hi', blockByte, BitVec.toNat_ofNat] at hblock
  obtain rfl : n = (t.inUse r).toNat := by omega
  refine ⟨hlow, hhigh, ?_⟩
  rw [h.ptrReloc_inUse hr hused]
  exact ofNat_ne_free (by omega)

end Relocation.Inverse

namespace WriteBuffer

variable {b : WriteBuffer} {w : View} {t : Relocation} {ram : Addr → Byte} {a x : Addr}

/-! ### What is delivered for a byte -/

theorem deliverValue_of_data {v : Byte} (h : ¬w.TakenForPointer a v) : deliverValue w a v = v := by
  unfold deliverValue
  split
  · rfl
  next t harmed =>
    have ht : t ∈ w.relocation := (Option.mem_filter_iff.mp harmed).1
    split
    · rfl
    split
    next hrow =>
      dsimp only
      split
      next hmoved =>
        obtain ⟨hbank, hshape, hlow, hhigh⟩ := hrow
        exact absurd ⟨hbank, hshape, hlow, hhigh, t, ht, hmoved⟩ h
      next => rfl
    next => rfl

theorem deliverValue_home (hw : w.Paired) (h : w.Relays x a) (v : Byte) :
    deliverValue w x v = v := by
  obtain ⟨t, ht, h⟩ := h
  exact deliverValue_target ht (hw t ht) h v

/-- Outside the homes, a pointer to a relocated block is delivered as the pointer to its home. -/
theorem deliverValue_pointer (ht : w.relocation = some t) (h : t.Inverse) {v : Byte}
    (hbank : 0xC000#16 ≤ a) (hrow : 0x3F8#16 ≤ a &&& 0x3FF#16) (hhome : ∀ y, ¬t.Relays a y)
    (hlow : 0x40#8 ≤ v) (hhigh : v < 0x80#8) (hmoved : t.ptrReloc (v.toNat - 0x40) ≠ 0xFF#8) :
    deliverValue w a v = t.ptrReloc (v.toNat - 0x40) := by
  have hrelays := h.relays_of_ptrReloc (BitVec.le_def.mp hlow) (BitVec.lt_def.mp hhigh)
    (Nat.zero_lt_succ 63) hmoved
  unfold deliverValue
  rw [armed_of_relays ht h hrelays]
  dsimp only
  rw [if_neg, if_pos ⟨hbank, hrow, hlow, hhigh⟩, if_pos hmoved]
  rintro ⟨hfirst, hlast, hused⟩
  have hfirst : 0xC000 ≤ a.toNat := BitVec.le_def.mp hfirst
  have hlast : a.toNat < 0xCC00 := BitVec.lt_def.mp hlast
  exact hhome _ ⟨_, by omega, _, Nat.mod_lt _ (by decide), hused, eq_blockByte hfirst, rfl⟩

/-! ### An emptied buffer -/

/-- The buffer is on the bus and delivers, nothing is queued and nothing counts as delivered. -/
structure Emptied (b : WriteBuffer) : Prop where
  represents : Represents b
  attached : b.bus = true
  enabled : b.deliveryEnabled = true
  clean : ∀ a, b.isDirty a = false
  unsynced : ∀ a, b.isSynced a = false

theorem Represents.emptied (h : Represents b) (hbus : b.bus = true) :
    (b.discard.setDeliveryEnabled true).Emptied where
  represents := (h.step .discard).step (.setDeliveryEnabled true)
  attached := hbus
  enabled := rfl
  clean := test_empty_toNat
  unsynced := test_empty_toNat

theorem Emptied.accepts (h : b.Emptied) (hmirror : b.shouldMirror x = true) : b.Accepts w x :=
  ⟨h.enabled, hmirror, fun _ => .inr (h.unsynced x)⟩

/-! ### What a complete flush leaves behind -/

theorem runCalls_eq_deliver (dram : Addr → Byte) (calls : List BusCall) :
    runCalls dram calls = deliver dram (writes calls) := by
  induction calls generalizing dram with
  | nil => rfl
  | cons call calls ih =>
      cases call with
      | writeBurst burst =>
          rw [runCalls_writeBurst, ih, writes_writeBurst, deliver_append]
      | readRAM a => exact ih dram

/-- The C64's memory after a complete flush. -/
theorem runCalls_flush (h : Represents b) (w : View) (hbus : b.bus = true) (dram : Addr → Byte)
    (x : Addr) :
    runCalls dram (b.flush w).2 x =
      if b.isDirty x = true then deliverValue w x (b.pendingValue x) else dram x := by
  have hsent : ∀ y ∈ b.entries.map (b.stage w),
      y.value = deliverValue w y.addr (b.pendingValue y.addr) := by
    intro y hy
    obtain ⟨a, -, rfl⟩ := List.mem_map.mp hy
    rfl
  have haddr : (b.entries.map (b.stage w)).map C64BusWrite.addr = b.entries := by
    rw [List.map_map]
    exact List.map_id _
  rw [runCalls_eq_deliver, writes_flush h w hbus,
    deliver_apply dram (fun a => deliverValue w a (b.pendingValue a)) _ hsent, haddr]
  simp only [h.mem_iff]

theorem Represents.restage (h : Represents b) (w : View) (ram : Addr → Byte) (places : List Addr) :
    Represents (restage w ram b places) := by
  induction places generalizing b with
  | nil => exact h
  | cons a places ih => exact ih (h.onRamWrite w a (ram a))

/-- What the C64's memory holds once the bytes at `places` are told to a buffer and flushed. -/
def rebuilt (w : View) (ram : Addr → Byte) (b : WriteBuffer) (places : List Addr)
    (dram : Addr → Byte) :
    Addr → Byte :=
  runCalls dram ((restage w ram b places).flush w).2

section Rebuilt

variable {places : List Addr} {dram : Addr → Byte}

theorem Emptied.rebuilt_apply (h : b.Emptied) :
    rebuilt w ram b places dram x =
      if (restage w ram b places).isDirty x = true then
        deliverValue w x ((restage w ram b places).pendingValue x)
      else dram x :=
  runCalls_flush (h.represents.restage w ram places) w
    ((congrArg Settings.bus (settings_restage places b)).trans h.attached) dram x

/-- An address that takes one of the bytes and that the policy covers holds that byte. -/
theorem Emptied.rebuilt_taken (h : b.Emptied) (hw : w.Paired) (hram : w.ram = some ram)
    (hmirror : b.shouldMirror x = true) (ha : a ∈ places) (htakes : Takes w x a) :
    rebuilt w ram b places dram x = deliverValue w x (ram a) := by
  obtain ⟨hdirty, hpending⟩ := restage_taken hw hram places b (h.accepts hmirror) ha htakes
  rw [h.rebuilt_apply, if_pos hdirty, hpending]

/-- An address that takes none of the bytes holds what it held. -/
theorem Emptied.rebuilt_kept (h : b.Emptied) (hw : w.Paired) (hram : w.ram = some ram)
    (hnone : ∀ a ∈ places, ¬Takes w x a) : rebuilt w ram b places dram x = dram x := by
  obtain ⟨hdirty, -⟩ := restage_kept hw hram places b fun _ => hnone
  rw [h.rebuilt_apply, hdirty, h.clean, if_neg Bool.false_ne_true]

end Rebuilt

end WriteBuffer

end ScpuEmu
