import ScpuEmu.SuperCpu.WriteBuffer.RelocatedBlocks
import ScpuEmu.SuperCpu.WriteBuffer.SelectiveFlush

/-!
# Invalidating a range

Invalidation tells the sink about the bytes of a range again, as if the guest had stored what
RAM holds. Each of these writes goes the way of a guest write. A byte that counts as delivered
is eliminated like any other store that changes nothing, so that invalidation stages exactly
the bytes that are queued or were never delivered.
-/

namespace ScpuEmu

open Library

/-! ### Relocation as a view shows it -/

/-- Address `a` is the home of the byte at `a'`. -/
def View.Relays (w : View) (a a' : Addr) : Prop := ∃ t ∈ w.relocation, t.Relays a a'

/-- The tables that the view shows are inverse to each other. -/
def View.Paired (w : View) : Prop := ∀ t ∈ w.relocation, t.Inverse

/-- Relocation takes no byte to `a` and none from there. -/
def View.Unmoved (w : View) (a : Addr) : Prop := ∀ x, ¬w.Relays x a ∧ ¬w.Relays a x

section View

variable {w : View} {a x y : Addr}

theorem View.Paired.target_unique (h : w.Paired) (hx : w.Relays x a) (hy : w.Relays y a) :
    x = y := by
  obtain ⟨t, ht, hx⟩ := hx
  obtain ⟨t', ht', hy⟩ := hy
  obtain rfl : t = t' := Option.mem_unique ht ht'
  exact (h t ht).target_unique hx hy

theorem View.Relays.source_unique (hx : w.Relays a x) (hy : w.Relays a y) : x = y := by
  obtain ⟨t, ht, hx⟩ := hx
  obtain ⟨t', ht', hy⟩ := hy
  obtain rfl : t = t' := Option.mem_unique ht ht'
  exact hx.source_unique hy

theorem View.Relays.target_bounds (h : w.Relays a x) : 0xC000 ≤ a.toNat ∧ a.toNat < 0xCC00 := by
  obtain ⟨t, -, h⟩ := h
  exact h.target_bounds

theorem View.Paired.source_bounds (hw : w.Paired) (h : w.Relays a x) :
    0xD000 ≤ x.toNat ∧ x.toNat < 0xE000 := by
  obtain ⟨t, ht, h⟩ := h
  exact (hw t ht).source_bounds h

theorem unmoved_of_none (h : w.relocation = none) (a : Addr) : w.Unmoved a := by
  intro x
  constructor <;>
  · rintro ⟨t, ht, -⟩
    rw [h] at ht
    cases ht

/-- A home is no source of another. -/
theorem View.Paired.not_relays (hw : w.Paired) (h : w.Relays a x) : ¬w.Relays y a := by
  intro hsource
  have hlow := (hw.source_bounds hsource).1
  have hhigh := h.target_bounds.2
  omega

end View

namespace WriteBuffer

variable {b : WriteBuffer} {w : View} {ram : Addr → Byte} {a x : Addr}

/-! ### One byte told again -/

theorem relocateWrite_relayed (hw : w.Paired) (h : w.Relays x a) :
    b.relocateWrite w a = (b.clearSynced x, .forward x) := by
  obtain ⟨t, ht, h⟩ := h
  exact relocateWrite_source ht (hw t ht) h

theorem relocateWrite_shielded (hw : w.Paired) (h : w.Relays a x) :
    b.relocateWrite w a = (b.clearSynced a, .shielded) := by
  obtain ⟨t, ht, h⟩ := h
  exact relocateWrite_target ht (hw t ht) h

theorem relocateWrite_unmoved (hw : w.Paired) (h : w.Unmoved a) :
    b.relocateWrite w a = (b, .forward a) := by
  cases ht : w.relocation with
  | none =>
      rw [relocateWrite, View.armed, ht]
      rfl
  | some t =>
      exact relocateWrite_other ht (hw t ht) (fun x hx => (h x).1 ⟨t, ht, hx⟩)
        fun x hx => (h x).2 ⟨t, ht, hx⟩

/-- An address is a home, has one, or is left alone. -/
theorem relayed_cases (w : View) (a : Addr) :
    (∃ x, w.Relays x a) ∨ (∃ x, w.Relays a x) ∨ w.Unmoved a := by
  by_cases hsource : ∃ x, w.Relays x a
  · exact .inl hsource
  by_cases htarget : ∃ x, w.Relays a x
  · exact .inr (.inl htarget)
  · exact .inr (.inr fun x => ⟨fun hx => hsource ⟨x, hx⟩, fun hx => htarget ⟨x, hx⟩⟩)

/-- `x` takes the byte of `a`: it is the home of that byte, or the byte has no other. -/
def Takes (w : View) (x a : Addr) : Prop := w.Relays x a ∨ x = a ∧ w.Unmoved a

/-- A byte is eliminated at its own address when it counts as delivered. A home never counts. -/
def Restaged (b : WriteBuffer) (w : View) (x : Addr) : Prop :=
  w.Unmoved x → b.isDirty x = true ∨ b.isSynced x = false

theorem commits_again (hw : w.Paired) (hram : w.ram = some ram) (b : WriteBuffer) (a x : Addr) :
    b.commits w a (ram a) = some x ↔
      b.deliveryEnabled = true ∧ b.shouldMirror x = true ∧ Takes w x a ∧ b.Restaged w x := by
  rw [commits]
  by_cases henabled : b.deliveryEnabled = false
  · simp [henabled]
  rw [if_neg henabled]
  rw [Bool.not_eq_false] at henabled
  simp only [henabled, true_and]
  rcases relayed_cases w a with ⟨y, hy⟩ | ⟨y, hy⟩ | hplain
  · rw [relocateWrite_relayed hw hy]
    have hkept : (b.clearSynced y).eliminates w y (ram a) = false := by simp [eliminates]
    have hcover : (b.clearSynced y).shouldMirror y = b.shouldMirror y := rfl
    dsimp only
    rw [hkept, hcover]
    constructor
    · intro h
      split at h
      next hmirror =>
        obtain rfl := Option.some.inj h
        exact ⟨hmirror.1, .inl hy, fun hunmoved => absurd hy (hunmoved a).2⟩
      next => cases h
    · rintro ⟨hmirror, htakes, -⟩
      have hx : x = y := by
        rcases htakes with hx | ⟨rfl, hunmoved⟩
        · exact hw.target_unique hx hy
        · exact absurd hy (hunmoved y).1
      rw [hx] at hmirror ⊢
      rw [if_pos ⟨hmirror, rfl⟩]
  · rw [relocateWrite_shielded hw hy]
    dsimp only
    constructor
    · intro h
      cases h
    · rintro ⟨-, hx | ⟨rfl, hunmoved⟩, -⟩
      · exact absurd hx (hw.not_relays hy)
      · exact absurd hy (hunmoved y).2
  · rw [relocateWrite_unmoved hw hplain]
    dsimp only
    have heliminates : b.eliminates w a (ram a) = false ↔ b.isDirty a = true ∨
        b.isSynced a = false := by
      simp [eliminates, hram]
      cases b.isDirty a <;> simp
    constructor
    · intro h
      split at h
      next hmirror =>
        obtain rfl := Option.some.inj h
        exact ⟨hmirror.1, .inr ⟨rfl, hplain⟩, fun _ => heliminates.mp hmirror.2⟩
      next => cases h
    · rintro ⟨hmirror, htakes, hrestaged⟩
      have hx : x = a := by
        rcases htakes with hx | ⟨rfl, -⟩
        · exact absurd hx (hplain x).1
        · rfl
      subst hx
      rw [if_pos ⟨hmirror, heliminates.mpr (hrestaged hplain)⟩]

/-- Only homes and bytes that the policy excludes stop counting as delivered. -/
theorem isSynced_onRamWrite (hw : w.Paired) (b : WriteBuffer) (a : Addr) (v : Byte)
    (hplain : w.Unmoved x) (hmirror : b.shouldMirror x = true) :
    (b.onRamWrite w a v).1.isSynced x = b.isSynced x := by
  have hforward : ∀ c : WriteBuffer, c.isSynced x = b.isSynced x →
      c.shouldMirror x = true → ∀ y,
        (if c.shouldMirror y = false then (c.clearSynced y, false)
          else if c.eliminates w y v = true then (c, false)
          else (c.accept y v, true)).1.isSynced x = b.isSynced x := by
    intro c hsynced hcover y
    split
    next hexcluded =>
      have hy : y ≠ x := by
        rintro rfl
        rw [hcover] at hexcluded
        cases hexcluded
      rw [isSynced_clearSynced, decide_eq_false hy]
      exact hsynced
    next =>
      split
      · exact hsynced
      · exact ((accept_frame c y v).2.2.2 x).2.trans hsynced
  rw [onRamWrite]
  split
  · rfl
  rcases relayed_cases w a with ⟨y, hy⟩ | ⟨y, hy⟩ | hunmoved
  · rw [relocateWrite_relayed hw hy]
    have hne : y ≠ x := by
      rintro rfl
      exact (hplain a).2 hy
    exact hforward (b.clearSynced y) (by rw [isSynced_clearSynced, decide_eq_false hne]; rfl)
      hmirror y
  · rw [relocateWrite_shielded hw hy]
    have hne : a ≠ x := by
      rintro rfl
      exact (hplain y).2 hy
    dsimp only
    rw [isSynced_clearSynced, decide_eq_false hne]
    rfl
  · rw [relocateWrite_unmoved hw hunmoved]
    exact hforward b rfl hmirror a

/-! ### A range told again -/

/-- The bytes of RAM at the given addresses are told again. -/
def restage (w : View) (ram : Addr → Byte) (b : WriteBuffer) (places : List Addr) : WriteBuffer :=
  places.foldl (fun b a => (b.onRamWrite w a (ram a)).1) b

/-- The addresses of a range, which may run past the last one. -/
def rangePlaces (a : Addr) (length : ℕ) : List Addr :=
  (List.range length).map fun i => a + BitVec.ofNat 16 i

theorem invalidateRange_eq_restage (hram : w.ram = some ram) (b : WriteBuffer) (a : Addr)
    (length : ℕ) : b.invalidateRange w a length = restage w ram b (rangePlaces a length) := by
  rw [invalidateRange, restage, rangePlaces, List.foldl_map, hram]
  rfl

theorem takes_unique {a' : Addr} (h : Takes w x a) (h' : Takes w x a') : a = a' := by
  rcases h with h | ⟨rfl, hplain⟩ <;> rcases h' with h' | ⟨rfl, hplain'⟩
  · exact h.source_unique h'
  · exact absurd h (hplain' a).2
  · exact absurd h' (hplain a').2
  · rfl

/-- `x` is staged when its byte is told again. -/
def Accepts (b : WriteBuffer) (w : View) (x : Addr) : Prop :=
  b.deliveryEnabled = true ∧ b.shouldMirror x = true ∧ b.Restaged w x

theorem settings_restage (places : List Addr) (b : WriteBuffer) :
    (restage w ram b places).settings = b.settings := by
  induction places generalizing b with
  | nil => rfl
  | cons a places ih => exact (ih _).trans (settings_onRamWrite b w a _)

/-- Telling a byte again does not change what will be staged. -/
theorem accepts_write (hw : w.Paired) (hram : w.ram = some ram) (b : WriteBuffer) (a x : Addr) :
    (b.onRamWrite w a (ram a)).1.Accepts w x ↔ b.Accepts w x := by
  have hsettings := settings_onRamWrite b w a (ram a)
  have henabled : (b.onRamWrite w a (ram a)).1.deliveryEnabled = b.deliveryEnabled :=
    congrArg Settings.deliveryEnabled hsettings
  rw [Accepts, Accepts, henabled, shouldMirror_congr hsettings]
  refine and_congr_right fun hon => and_congr_right fun hmirror => forall_congr' fun hplain => ?_
  rw [isSynced_onRamWrite hw b a _ hplain hmirror, (onRamWrite_commits b w a _).1, Bool.or_eq_true,
    decide_eq_true_iff]
  constructor
  · rintro ((hcommit | hdirty) | hsynced)
    · exact ((commits_again hw hram b a x).mp hcommit).2.2.2 hplain
    · exact .inl hdirty
    · exact .inr hsynced
  · exact fun h => h.imp_left Or.inr

theorem commits_iff_takes (hw : w.Paired) (hram : w.ram = some ram) (hx : b.Accepts w x) :
    b.commits w a (ram a) = some x ↔ Takes w x a := by
  rw [commits_again hw hram]
  exact ⟨fun h => h.2.2.1, fun h => ⟨hx.1, hx.2.1, h, hx.2.2⟩⟩

/-- Nothing is staged for an address that takes none of the bytes, or does not accept them. -/
theorem restage_kept (hw : w.Paired) (hram : w.ram = some ram) (places : List Addr)
    (b : WriteBuffer) (hkept : b.Accepts w x → ∀ a ∈ places, ¬Takes w x a) :
    (restage w ram b places).isDirty x = b.isDirty x ∧
      (restage w ram b places).pendingValue x = b.pendingValue x := by
  induction places generalizing b with
  | nil => exact ⟨rfl, rfl⟩
  | cons a places ih =>
      obtain ⟨hdirty, hpending⟩ := onRamWrite_commits b w a (ram a)
      have hcommit : b.commits w a (ram a) ≠ some x := by
        intro h
        obtain ⟨hon, hmirror, htakes, hrestaged⟩ := (commits_again hw hram b a x).mp h
        exact hkept ⟨hon, hmirror, hrestaged⟩ a List.mem_cons_self htakes
      obtain ⟨hdirty', hpending'⟩ := ih (b.onRamWrite w a (ram a)).1 fun haccepts y hy =>
        hkept ((accepts_write hw hram b a x).mp haccepts) y (List.mem_cons_of_mem a hy)
      rw [hdirty, decide_eq_false hcommit, Bool.false_or] at hdirty'
      refine ⟨hdirty', hpending'.trans ?_⟩
      rw [hpending]
      cases hsome : b.commits w a (ram a) with
      | none => rfl
      | some target =>
          have hne : x ≠ target := fun h => hcommit (h ▸ hsome)
          rw [Option.elim_some, Function.update_of_ne hne]

/-- The byte that an address takes is staged there. -/
theorem restage_taken (hw : w.Paired) (hram : w.ram = some ram) (places : List Addr)
    (b : WriteBuffer) (haccepts : b.Accepts w x) (ha : a ∈ places) (htakes : Takes w x a) :
    (restage w ram b places).isDirty x = true ∧
      (restage w ram b places).pendingValue x = ram a := by
  -- once it is staged, it is only staged again
  have hstays : ∀ (l : List Addr) (c : WriteBuffer), c.isDirty x = true → c.pendingValue x = ram a →
      (restage w ram c l).isDirty x = true ∧ (restage w ram c l).pendingValue x = ram a := by
    intro l
    induction l with
    | nil => exact fun c hdirty hpending => ⟨hdirty, hpending⟩
    | cons y l ih =>
        intro c hdirty hpending
        obtain ⟨hdirty', hpending'⟩ := onRamWrite_commits c w y (ram y)
        refine ih _ ?_ ?_
        · rw [hdirty', hdirty, Bool.or_true]
        · rw [hpending']
          cases hsome : c.commits w y (ram y) with
          | none => exact hpending
          | some target =>
              rw [Option.elim_some]
              by_cases hx : x = target
              · rw [hx] at htakes ⊢
                rw [Function.update_self,
                  takes_unique ((commits_again hw hram c y target).mp hsome).2.2.1 htakes]
              · rw [Function.update_of_ne hx]
                exact hpending
  induction places generalizing b with
  | nil => cases ha
  | cons y places ih =>
      rcases List.mem_cons.mp ha with rfl | ha
      · obtain ⟨hdirty, hpending⟩ := onRamWrite_commits b w a (ram a)
        have hcommit := (commits_iff_takes hw hram haccepts).mpr htakes
        rw [hcommit] at hpending
        refine hstays places _ ?_ ?_
        · rw [hdirty, hcommit]
          simp
        · rw [hpending, Option.elim_some, Function.update_self]
      · exact ih _ ((accepts_write hw hram b y x).mpr haccepts) ha

/-! ### Which bytes wait afterwards -/

/-- The byte at `a` is queued with the value of RAM. -/
def Waits (b : WriteBuffer) (ram : Addr → Byte) (a : Addr) : Prop :=
  b.isDirty a = true ∧ b.pendingValue a = ram a

/-- Telling the bytes at `places` again leaves `a` queued with the value of RAM: `a` accepts one
of them and it is the same, or `a` is queued so already and accepts none. -/
def LeftWaiting (b : WriteBuffer) (w : View) (ram : Addr → Byte) (places : List Addr) (a : Addr) :
    Prop :=
  (b.Accepts w a ∧ ∃ y ∈ places, Takes w a y ∧ ram y = ram a) ∨
    (b.Waits ram a ∧ (b.Accepts w a → ∀ y ∈ places, ¬Takes w a y))

theorem restage_waits_iff (hw : w.Paired) (hram : w.ram = some ram) (b : WriteBuffer)
    (places : List Addr) (a : Addr) :
    (restage w ram b places).Waits ram a ↔ b.LeftWaiting w ram places a := by
  by_cases hfed : b.Accepts w a ∧ ∃ y ∈ places, Takes w a y
  · obtain ⟨haccepts, y, hy, htakes⟩ := hfed
    obtain ⟨hdirty, hpending⟩ := restage_taken hw hram places b haccepts hy htakes
    rw [Waits, hdirty, hpending]
    constructor
    · rintro ⟨-, hsame⟩
      exact .inl ⟨haccepts, y, hy, htakes, hsame⟩
    · rintro (⟨-, y', hy', htakes', hsame⟩ | ⟨-, hnone⟩)
      · rw [takes_unique htakes htakes']
        exact ⟨rfl, hsame⟩
      · exact absurd htakes (hnone haccepts y hy)
  · have hkept : b.Accepts w a → ∀ y ∈ places, ¬Takes w a y := fun haccepts y hy htakes =>
      hfed ⟨haccepts, y, hy, htakes⟩
    obtain ⟨hdirty, hpending⟩ := restage_kept hw hram places b hkept
    rw [Waits, hdirty, hpending]
    constructor
    · exact fun hwaits => .inr ⟨hwaits, hkept⟩
    · rintro (⟨haccepts, y, hy, htakes, -⟩ | ⟨hwaits, -⟩)
      · exact absurd htakes (hkept haccepts y hy)
      · exact hwaits

/-- Without relocation a byte of the range is left waiting where delivery is on and it is queued
or was never delivered, or where it is queued with the value of RAM and delivery is off. -/
theorem leftWaiting_of_unmoved {places : List Addr} (hplain : w.Unmoved a) (ha : a ∈ places)
    (hmirror : b.shouldMirror a = true) :
    b.LeftWaiting w ram places a ↔
      if b.deliveryEnabled = true then b.isDirty a = true ∨ b.isSynced a = false
      else b.Waits ram a := by
  have hself : Takes w a a := .inr ⟨rfl, hplain⟩
  have haccepts : b.Accepts w a ↔
      b.deliveryEnabled = true ∧ (b.isDirty a = true ∨ b.isSynced a = false) :=
    ⟨fun h => ⟨h.1, h.2.2 hplain⟩, fun h => ⟨h.1, hmirror, fun _ => h.2⟩⟩
  rw [LeftWaiting, haccepts]
  split
  next hon =>
    constructor
    · rintro (⟨⟨-, hkept⟩, -⟩ | ⟨hwaits, -⟩)
      · exact hkept
      · exact .inl hwaits.1
    · exact fun hkept => .inl ⟨⟨hon, hkept⟩, a, ha, hself, rfl⟩
  next hoff =>
    constructor
    · rintro (⟨⟨hon, -⟩, -⟩ | ⟨hwaits, -⟩)
      · exact absurd hon hoff
      · exact hwaits
    · exact fun hwaits => .inr ⟨hwaits, fun h => absurd h.1 hoff⟩

/-! ### Every reachable buffer -/

/-- After a range is invalidated in a state that a run reaches, its mirrored bytes are all queued
with the value of RAM exactly if each of them is left waiting. A complete flush then writes them
all. -/
theorem invalidateRange_restages_iff (pendingValue : Addr → Byte) (list : ℕ → Addr)
    (ops : List Op) (w : View) (ram : Addr → Byte) (hram : w.ram = some ram) (hw : w.Paired)
    (a : Addr) (length : ℕ) :
    let b := run WriteBuffer.step (construct pendingValue list) ops
    let b' := b.invalidateRange w a length
    ((∀ x ∈ rangePlaces a length, b.shouldMirror x = true →
          b'.isDirty x = true ∧ b'.pendingValue x = ram x) ↔
        ∀ x ∈ rangePlaces a length, b.shouldMirror x = true →
          b.LeftWaiting w ram (rangePlaces a length) x) ∧
      (b.bus = true → ∀ x, b'.isDirty x = true ∧ b'.pendingValue x = ram x →
        ⟨x, deliverValue w x (ram x)⟩ ∈ writes (b'.flush w).2) := by
  intro b b'
  have hb' : b' = restage w ram b (rangePlaces a length) :=
    invalidateRange_eq_restage hram b a length
  refine ⟨?_, fun hbus x hx => ?_⟩
  · rw [hb']
    exact forall_congr' fun x => imp_congr_right fun _ => imp_congr_right fun _ =>
      restage_waits_iff hw hram b _ x
  · have hrepresents : Represents b' :=
      (represents_run pendingValue list ops).invalidateRange w a length
    have hattached : b'.bus = true :=
      (congrArg Settings.bus (settings_invalidateRange b w a length)).trans hbus
    rw [writes_flush hrepresents w hattached, List.mem_map]
    refine ⟨x, (hrepresents.mem_iff x).mpr hx.1, ?_⟩
    rw [stage, hx.2]

/-- RAM as in the runs below. -/
def onesView : View := ⟨some fun _ => 1, none, none, none⟩

theorem onesView_paired : onesView.Paired := by nofun

/-- A byte that was never delivered is staged. -/
theorem invalidateRange_restages_fresh :
    let b := run WriteBuffer.step (construct (fun _ => 0) fun _ => 0) [.attach true]
    (b.invalidateRange onesView 0xFFFF 2).isDirty 0xFFFF = true := by
  intro b
  obtain ⟨hiff, -⟩ := invalidateRange_restages_iff (fun _ => 0) (fun _ => 0) [.attach true] onesView
    (fun _ => 1) rfl onesView_paired 0xFFFF 2
  refine (hiff.mpr (fun x hx hmirror => ?_) 0xFFFF (by decide) (by decide)).1
  exact (leftWaiting_of_unmoved (unmoved_of_none rfl x) hx hmirror).mpr (.inr (test_empty_toNat x))

/-- A byte that was delivered. -/
def deliveredByte : List Op := [.attach true, .onRamWrite onesView 0x2000 1, .flush onesView]

/-- It is not staged again, and a complete flush writes nothing. -/
theorem invalidateRange_skips_delivered :
    let b := run WriteBuffer.step (construct (fun _ => 0) fun _ => 0) deliveredByte
    let b' := b.invalidateRange onesView 0x2000 1
    b.bus = true ∧ (0x2000 : Addr) ∈ rangePlaces 0x2000 1 ∧ b.shouldMirror 0x2000 = true ∧
      b'.isDirty 0x2000 = false ∧ writes (b'.flush onesView).2 = [] := by
  decide +kernel

end WriteBuffer

end ScpuEmu
