import ScpuEmu.C64.FrameRules

/-!
# Transfers that start transfers

A transfer writes its bytes through the ordinary accesses of bank 0, so a byte may reach
the command register of the unit, or $FF00 while a command waits for it, and start another
transfer before the first is over. A write of a register starts one transfer at most
exactly if no byte of it does that.
-/

namespace ScpuEmu

open Library

variable {ρ : Type}

/-- A property of the unit and of what transfers did. -/
def OnUnit (Q : CREU → ℕ → Bool → Prop) (s : Machine (WithREU ρ)) : Prop :=
  Q s.outside.unit s.outside.started s.outside.exhausted

section Frames

variable (board : Board ρ) (Q : CREU → ℕ → Bool → Prop)

theorem bare_frames : board.bare.Frames (OnUnit Q) where
  memory _ _ _ h := h
  read bus hbus m o a h := by
    obtain ⟨b, -, rfl⟩ := Option.map_eq_some_iff.mp hbus
    exact h
  write bus hbus m o a v h := by
    obtain ⟨b, -, rfl⟩ := Option.map_eq_some_iff.mp hbus
    exact h
  writeRAM bus hbus m o a v h := by
    obtain ⟨b, -, rfl⟩ := Option.map_eq_some_iff.mp hbus
    exact h
  hostCycles bus hbus m o h := by
    obtain ⟨b, -, rfl⟩ := Option.map_eq_some_iff.mp hbus
    exact h
  mirror onRamWrite hmirror s a v h := by
    obtain ⟨sink, -, rfl⟩ := Option.map_eq_some_iff.mp hmirror
    exact h
  spriteSprite _ _ h := h
  spriteBackground _ _ h := h

theorem surroundings_frames (host : IREUHost (HostSide ρ)) :
    (board.surroundings host).Frames (OnUnit Q) :=
  have h := bare_frames board Q
  ⟨⟨⟨h.memory, h.hostCycles⟩, h.read, h.mirror, h.spriteSprite, h.spriteBackground⟩, h.write,
    h.writeRAM⟩

/-- The register file does nothing to the unit. -/
theorem onUnit_registerWrite {s : Machine (WithREU ρ)} (a : Addr) (v : Byte) (h : OnUnit Q s) :
    OnUnit Q (board.registerWrite s a v).2 :=
  frames_selectSpeeds (bare_frames board Q).toFramesTime _ _ h

theorem onUnit_registerRead {s : Machine (WithREU ρ)} (a : Addr) (h : OnUnit Q s) :
    OnUnit Q (board.registerRead s a).2 := h

end Frames

/-! ### What a write starts -/

namespace CREU

/-- The write of a register executes a command at once. -/
def StartsOn (u : CREU) (a : Addr) (v : Byte) : Prop :=
  u.claims a = true ∧ a = 0xDF01 ∧ executes v = true ∧ immediate v = true

instance (u : CREU) (a : Addr) (v : Byte) : Decidable (u.StartsOn a v) :=
  inferInstanceAs (Decidable (_ ∧ _ ∧ _ ∧ _))

/-- A command waits for the write of $FF00. -/
def Waits (u : CREU) : Prop := u.size ≠ 0 ∧ u.pendingFF00 = true

instance (u : CREU) : Decidable u.Waits := inferInstanceAs (Decidable (_ ∧ _))

/-- A read leaves the unit alone, or acknowledges its status. -/
theorem unit_of_read (u : CREU) (a : Addr) : ∀ r ∈ u.read a, r.2 = u ∨ r.2 = u.acknowledge := by
  have hanswer (value : Byte) : ∀ r ∈ some (value, u), r.2 = u ∨ r.2 = u.acknowledge := by
    rintro r ⟨⟩
    exact .inl rfl
  have hite {c : Prop} [Decidable c] {x y : Option (Byte × CREU)}
      (hx : ∀ r ∈ x, r.2 = u ∨ r.2 = u.acknowledge)
      (hy : ∀ r ∈ y, r.2 = u ∨ r.2 = u.acknowledge) :
      ∀ r ∈ if c then x else y, r.2 = u ∨ r.2 = u.acknowledge := by
    split
    · exact hx
    · exact hy
  unfold read
  refine hite nofun (hite ?_ ?_)
  · rintro r ⟨⟩
    exact .inr rfl
  iterate 9 refine hite (hanswer _) ?_
  exact hanswer _

theorem bytesMoved_read (u : CREU) (a : Addr) : ∀ r ∈ u.read a, r.2.bytesMoved = u.bytesMoved := by
  intro r hr
  rcases unit_of_read u a r hr with h | h <;> rw [h]
  rfl

theorem bytesMoved_writeRegister (u : CREU) (a : Addr) (v : Byte) :
    (u.writeRegister a v).bytesMoved = u.bytesMoved := by
  unfold writeRegister
  split_ifs <;> rfl

end CREU

namespace REUMachine

variable {ω : Type} (host : IREUHost ω) {m : REUMachine ω} {a : Addr} {v : Byte}

theorem write_of_startsOn (h : m.unit.StartsOn a v) :
    m.write host a v =
      some (executeTransfer host (m.mapUnit fun u => { u with command := v })) := by
  obtain ⟨hclaims, ha, hexec, himm⟩ := h
  rw [write, if_neg (by simp [hclaims]), if_pos ha]
  dsimp only
  rw [if_pos hexec, if_pos himm]

/-- Any other write changes a register or nothing. -/
theorem write_of_not_startsOn (h : ¬ m.unit.StartsOn a v) :
    ∀ m' ∈ m.write host a v, ∃ u, m' = { m with unit := u } ∧ u.bytesMoved = m.unit.bytesMoved := by
  intro m' hm'
  unfold write at hm'
  dsimp only at hm'
  split at hm'
  · cases hm'
  next hclaims =>
  split at hm'
  · next ha =>
    split at hm'
    · next hexec =>
      split at hm'
      · next himm => exact absurd ⟨Bool.eq_true_of_not_eq_false hclaims, ha, hexec, himm⟩ h
      · cases hm'
        exact ⟨_, rfl, rfl⟩
    · cases hm'
      exact ⟨_, rfl, rfl⟩
  · cases hm'
    exact ⟨_, rfl, CREU.bytesMoved_writeRegister _ _ _⟩

theorem noteFF00Write_of_not_waits (h : ¬ m.unit.Waits) : m.noteFF00Write host = m := by
  unfold noteFF00Write
  rw [if_pos]
  by_contra hnot
  rw [not_or] at hnot
  exact h ⟨hnot.1, Bool.eq_true_of_not_eq_false hnot.2⟩

theorem noteFF00Write_of_waits (h : m.unit.Waits) : m.noteFF00Write host =
    executeTransfer host (m.mapUnit fun u => { u with pendingFF00 := false }) := by
  unfold noteFF00Write
  rw [if_neg]
  rintro (hsize | hpending)
  · exact h.1 hsize
  · rw [h.2] at hpending
    cases hpending

/-! ### The number of transfers never falls -/

structure Counting (host : IREUHost ω) : Prop where
  read : ∀ k m a, k ≤ m.started → k ≤ (host.read m a).2.started
  write : ∀ k m a v, k ≤ m.started → k ≤ (host.write m a v).started

variable {host} {k : ℕ}

theorem started_transferByte (hhost : Counting host) (type : Transfer) (c64 : Addr)
    (reu : BitVec 32) (h : k ≤ m.started) : k ≤ (transferByte host type c64 reu m).2.started := by
  cases type with
  | stash => exact hhost.read _ _ _ h
  | fetch => exact hhost.write _ _ _ _ h
  | swap => exact hhost.write _ _ _ _ (hhost.read _ _ _ h)
  | verify => exact hhost.read _ _ _ h

theorem started_transferLoop (hhost : Counting host) (type : Transfer) (fixC64 fixREU : Bool)
    (n : ℕ) (c : TransferCursor) (h : k ≤ m.started) :
    k ≤ (transferLoop host type fixC64 fixREU n c m).2.started := by
  induction n generalizing c m with
  | zero => exact h
  | succ n ih =>
      have hbyte := started_transferByte hhost type c.c64 c.reu h
      rw [transferLoop]
      dsimp only
      split
      · exact hbyte
      · exact ih _ hbyte

theorem started_executeTransfer (hhost : Counting host) (m : REUMachine ω) :
    m.started + 1 ≤ (executeTransfer host m).started := by
  rw [executeTransfer]
  dsimp only
  split
  · exact le_rfl
  · exact started_transferLoop hhost _ _ _ _ _ le_rfl

theorem started_write (hhost : Counting host) (h : k ≤ m.started) (a : Addr) (v : Byte) :
    ∀ m' ∈ m.write host a v, k ≤ m'.started := by
  intro m' hm'
  by_cases hstarts : m.unit.StartsOn a v
  · rw [write_of_startsOn host hstarts] at hm'
    cases hm'
    exact (h.trans (Nat.le_succ _)).trans (started_executeTransfer hhost (m.mapUnit _))
  · obtain ⟨u, rfl, -⟩ := write_of_not_startsOn host hstarts m' hm'
    exact h

theorem started_noteFF00Write (hhost : Counting host) (h : k ≤ m.started) :
    k ≤ (m.noteFF00Write host).started := by
  by_cases hwaits : m.unit.Waits
  · rw [noteFF00Write_of_waits host hwaits]
    exact (h.trans (Nat.le_succ _)).trans (started_executeTransfer hhost (m.mapUnit _))
  · rw [noteFF00Write_of_not_waits host hwaits]
    exact h

end REUMachine

/-! ### The number at every depth -/

section Depth

variable (board : Board ρ) {k : ℕ}

theorem counting_keeps {host : IREUHost (HostSide ρ)} (hhost : REUMachine.Counting host) :
    (board.surroundings host).Keeps (OnUnit fun _ started _ => k ≤ started) where
  ioRead io hio s a h := by
    obtain rfl : board.chain host = io := Option.some.inj hio
    have hregisters := onUnit_registerRead board (fun _ started _ => k ≤ started) a h
    rw [Board.chain_ioRead]
    split
    · exact hregisters
    · unfold reuRead
      split <;> exact hregisters
  ioWrite io hio s a v h := by
    obtain rfl : board.chain host = io := Option.some.inj hio
    have hregisters := onUnit_registerWrite board (fun _ started _ => k ≤ started) a v h
    rw [Board.chain_ioWrite]
    split
    · exact hregisters
    · unfold reuWrite
      split
      · next m hm => exact REUMachine.started_write hhost hregisters a v m hm
      · exact hregisters
  ff00Hook hook hhook s h := by
    obtain rfl := Option.some.inj hhook
    exact REUMachine.started_noteFF00Write hhost h

theorem counting_hostAt (depth : ℕ) : REUMachine.Counting (board.hostAt depth) := by
  induction depth with
  | zero => exact ⟨fun _ _ _ h => h, fun _ _ _ _ h => h⟩
  | succ depth ih =>
      refine ⟨fun k m a h => ?_, fun k m a v h => ?_⟩
      · have henv := counting_keeps board ih (k := k)
        exact frames_read8 (surroundings_frames board _ _).toFramesReads henv.ioRead a m.toMachine h
      · have henv := counting_keeps board ih (k := k)
        exact frames_write8 (surroundings_frames board _ _) henv a v m.toMachine h

end Depth

/-! ### Writes that start no transfer, and writes that do -/

section Writes

variable (board : Board ρ) (host : IREUHost (HostSide ρ))

/-- A write of bank 0 starts a transfer: it executes a command at once, or stores to $FF00
while one waits. -/
def Board.Triggers (s : Machine (WithREU ρ)) (a : Addr) (v : Byte) : Prop :=
  (board.surroundings host).ReachesDevices s a ∧ (board.registerWrite s a v).1 = false ∧
      s.outside.unit.StartsOn a v ∨
    (board.surroundings host).StoresRAM s a ∧ a = 0xFF00 ∧ s.outside.unit.Waits

instance (s : Machine (WithREU ρ)) (a : Addr) (v : Byte) : Decidable (board.Triggers host s a v) :=
  inferInstanceAs (Decidable (_ ∨ _))

/-- As many transfers and bytes as before, and no deeper nesting. -/
def SameCounts (m m' : REUMachine (HostSide ρ)) : Prop :=
  m'.started = m.started ∧ m'.host.exhausted = m.host.exhausted ∧
    m'.unit.bytesMoved = m.unit.bytesMoved

/-- The machine in which the transfer starts that a command asks for. -/
def Board.commanded (s : Machine (WithREU ρ)) (a : Addr) (v : Byte) : REUMachine (HostSide ρ) :=
  (board.registerWrite s a v).2.toREU.mapUnit fun u => { u with command := v }

variable {board host} {s : Machine (WithREU ρ)} {a : Addr} {v : Byte}

theorem SameCounts.trans {m m' m'' : REUMachine (HostSide ρ)} (h : SameCounts m m')
    (h' : SameCounts m' m'') : SameCounts m m'' :=
  ⟨h'.1.trans h.1, h'.2.1.trans h.2.1, h'.2.2.trans h.2.2⟩

variable (board host) in
/-- The counts, as a property that the memory leaves alone. -/
theorem sameCounts_frames (m : REUMachine (HostSide ρ)) :
    (board.surroundings host).Frames fun s => SameCounts m s.toREU :=
  surroundings_frames board (fun u started exhausted => started = m.started ∧
    exhausted = m.host.exhausted ∧ u.bytesMoved = m.unit.bytesMoved) host

variable (board) in
theorem unit_registerWrite (s : Machine (WithREU ρ)) (a : Addr) (v : Byte) :
    (board.registerWrite s a v).2.outside.unit = s.outside.unit ∧
      (board.registerWrite s a v).2.outside.started = s.outside.started ∧
      (board.registerWrite s a v).2.outside.exhausted = s.outside.exhausted :=
  onUnit_registerWrite board (fun u started exhausted => u = s.outside.unit ∧
    started = s.outside.started ∧ exhausted = s.outside.exhausted) a v ⟨rfl, rfl, rfl⟩

variable (board) in
theorem sameCounts_registerWrite (s : Machine (WithREU ρ)) (a : Addr) (v : Byte) :
    SameCounts s.toREU (board.registerWrite s a v).2.toREU := by
  obtain ⟨hunit, hstarted, hexhausted⟩ := unit_registerWrite board s a v
  exact ⟨hstarted, hexhausted, congrArg CREU.bytesMoved hunit⟩

/-- What the devices do with a write that executes no command. -/
theorem sameCounts_chain
    (h : (board.registerWrite s a v).1 = false → ¬ s.outside.unit.StartsOn a v) :
    SameCounts s.toREU ((board.chain host).ioWrite s a v).2.toREU := by
  have hsame := sameCounts_registerWrite board s a v
  have hunit := (unit_registerWrite board s a v).1
  rw [Board.chain_ioWrite]
  split
  · exact hsame
  · next hdeclined =>
    refine hsame.trans ?_
    unfold reuWrite
    split
    · next m hm =>
      have hquiet : ¬ (board.registerWrite s a v).2.toREU.unit.StartsOn a v := fun hstarts =>
        h (Bool.eq_false_iff.mpr hdeclined) (hunit ▸ hstarts)
      obtain ⟨u, rfl, hu⟩ := REUMachine.write_of_not_startsOn host hquiet m hm
      exact ⟨rfl, rfl, hu⟩
    · exact ⟨rfl, rfl, rfl⟩

theorem chain_of_startsOn (hdeclined : (board.registerWrite s a v).1 = false)
    (h : s.outside.unit.StartsOn a v) : ((board.chain host).ioWrite s a v).2 =
      (REUMachine.executeTransfer host (board.commanded s a v)).toMachine := by
  have hunit := (unit_registerWrite board s a v).1
  unfold Board.commanded
  have hstarts : (board.registerWrite s a v).2.toREU.unit.StartsOn a v := by
    change (board.registerWrite s a v).2.outside.unit.StartsOn a v
    rwa [hunit]
  rw [Board.chain_ioWrite, if_neg (by simp [hdeclined]), reuWrite,
    REUMachine.write_of_startsOn host hstarts]

/-- The unit and the counts as they were. -/
def Untouched (s s' : Machine (WithREU ρ)) : Prop :=
  s'.outside.unit = s.outside.unit ∧ s'.outside.started = s.outside.started ∧
    s'.outside.exhausted = s.outside.exhausted

variable (board host) in
theorem untouched_frames (s : Machine (WithREU ρ)) :
    (board.surroundings host).Frames (Untouched s) :=
  surroundings_frames board (fun u started exhausted => u = s.outside.unit ∧
    started = s.outside.started ∧ exhausted = s.outside.exhausted) host

theorem sameCounts_write8 (h : ¬ board.Triggers host s a v) :
    SameCounts s.toREU ((write8 (board.surroundings host) a v).run s).2.toREU := by
  rw [Board.Triggers, not_or] at h
  refine frames_write8_at (sameCounts_frames board host s.toREU) ⟨rfl, rfl, rfl⟩
    (fun hreaches => ?_)
    fun hstores => ?_
  · refine frames_after_devices (sameCounts_frames board host s.toREU) rfl (sameCounts_chain ?_)
    exact fun hdeclined hstarts => h.1 ⟨hreaches, hdeclined, hstarts⟩
  · have hhook (ha : a = 0xFF00) :
        Keeps (Untouched s) (callFF00Hook (board.surroundings host)) := by
      have hwaits : ¬ s.outside.unit.Waits := fun hw => h.2 ⟨hstores, ha, hw⟩
      intro s' hs'
      have hsame : s'.toREU.noteFF00Write host = s'.toREU :=
        REUMachine.noteFF00Write_of_not_waits host fun hw => hwaits (hs'.1 ▸ hw)
      show Untouched s (s'.toREU.noteFF00Write host).toMachine
      rw [hsame]
      exact hs'
    have huntouched := frames_storeRAM_of (untouched_frames board host s) hhook v s ⟨rfl, rfl, rfl⟩
    exact ⟨huntouched.2.1, huntouched.2.2, congrArg CREU.bytesMoved huntouched.1⟩

theorem started_write8 (hhost : REUMachine.Counting host) (h : board.Triggers host s a v) :
    s.outside.started + 1 ≤
      ((write8 (board.surroundings host) a v).run s).2.outside.started := by
  have hframes :=
    surroundings_frames board (fun _ started _ => s.outside.started + 1 ≤ started) host
  rcases h with ⟨hreaches, hdeclined, hstarts⟩ | ⟨hstores, ha, hwaits⟩
  · rw [hreaches.write8_eq]
    refine frames_after_devices hframes rfl ?_
    rw [chain_of_startsOn hdeclined hstarts]
    have hstarted := REUMachine.started_executeTransfer hhost (board.commanded s a v)
    have hbefore : (board.commanded s a v).started = s.outside.started :=
      (unit_registerWrite board s a v).2.1
    rwa [hbefore] at hstarted
  · rw [hstores.write8_eq]
    obtain ⟨s', hs', heq⟩ := storeRAM_split (untouched_frames board host s) a v
      ⟨rfl, rfl, rfl⟩
    rw [heq, onlyIf, if_pos ha]
    show _ ≤ (s'.toREU.noteFF00Write host).started
    have hw : s'.toREU.unit.Waits := by
      change s'.outside.unit.Waits
      rwa [hs'.1]
    rw [REUMachine.noteFF00Write_of_waits host hw, ← hs'.2.1]
    exact REUMachine.started_executeTransfer hhost (s'.toREU.mapUnit _)

variable (board host) in
theorem sameCounts_read8 (s : Machine (WithREU ρ)) (a : Addr) :
    SameCounts s.toREU ((read8 (board.surroundings host) a).run s).2.toREU := by
  refine frames_read8 (sameCounts_frames board host s.toREU).toFramesReads ?_ a s ⟨rfl, rfl, rfl⟩
  intro io hio s' a' h
  obtain rfl : board.chain host = io := Option.some.inj hio
  have hregisters : SameCounts s.toREU (board.registerRead s' a').2.toREU := h
  rw [Board.chain_ioRead]
  split
  · exact hregisters
  · unfold reuRead
    split
    · next v unit hunit =>
      have hbytes : unit.bytesMoved = (board.registerRead s' a').2.outside.unit.bytesMoved :=
        CREU.bytesMoved_read _ _ _ hunit
      exact ⟨hregisters.1, hregisters.2.1, hbytes.trans hregisters.2.2⟩
    · exact hregisters

end Writes

/-! ### The bytes of a transfer -/

section Bytes

variable (board : Board ρ) (depth : ℕ)

/-- The byte starts a transfer on its way to the C64. -/
def Board.ByteTriggers (type : Transfer) (c64 : Addr) (reu : BitVec 32)
    (m : REUMachine (HostSide ρ)) : Prop :=
  let offset := reu &&& m.unit.addressMask
  let m := { m with touched := m.touched ++ [offset] }
  match type with
  | .stash => False
  | .fetch => board.Triggers (board.hostAt depth) m.toMachine c64 (m.unit.ram offset)
  | .swap =>
      let m := ((memoryHost (board.env depth)).read m c64).2
      board.Triggers (board.hostAt depth) m.toMachine c64 (m.unit.ram offset)
  | .verify => False

/-- No byte of the loop starts a transfer. -/
def Board.QuietLoop (type : Transfer) (fixC64 fixREU : Bool) :
    ℕ → TransferCursor → REUMachine (HostSide ρ) → Prop
  | 0, _, _ => True
  | remaining + 1, c, m =>
      ¬ board.ByteTriggers depth type c.c64 c.reu m ∧
        let (fault, m) := REUMachine.transferByte (memoryHost (board.env depth)) type c.c64 c.reu m
        let c := { c with moved := c.moved + 1, remaining := remaining }
        fault = true ∨ Board.QuietLoop type fixC64 fixREU remaining (c.advance fixC64 fixREU) m

/-- No byte of the transfer that would start here starts another. -/
def Board.QuietTransfer (m : REUMachine (HostSide ρ)) : Prop :=
  let m := { m with started := m.started + 1, unit := { m.unit with pendingFF00 := false } }
  let u := m.unit
  board.QuietLoop depth (.ofCommand u.command) u.fixC64 u.fixREU u.count
    ⟨u.c64Base, u.reuBase, false, 0, u.count⟩ m

variable {board depth} {type : Transfer} {fixC64 fixREU : Bool}

theorem sameCounts_transferByte {c64 : Addr} {reu : BitVec 32} {m : REUMachine (HostSide ρ)}
    (h : ¬ board.ByteTriggers depth type c64 reu m) : SameCounts m
      (REUMachine.transferByte (memoryHost (board.env depth)) type c64 reu m).2 := by
  obtain ⟨m', hm'⟩ : ∃ m', m' = { m with touched := m.touched ++ [reu &&& m.unit.addressMask] } :=
    ⟨_, rfl⟩
  have hsame : SameCounts m m' := by
    rw [hm']
    exact ⟨rfl, rfl, rfl⟩
  have hread := hsame.trans (sameCounts_read8 board (board.hostAt depth) m'.toMachine c64)
  rw [hm'] at hsame hread
  cases type with
  | stash => exact hread
  | fetch => exact hsame.trans (sameCounts_write8 h)
  | swap => exact hread.trans (sameCounts_write8 h)
  | verify => exact hread

theorem started_transferByte_of_triggers {c64 : Addr} {reu : BitVec 32}
    {m : REUMachine (HostSide ρ)} (h : board.ByteTriggers depth type c64 reu m) :
    m.started + 1 ≤
      (REUMachine.transferByte (memoryHost (board.env depth)) type c64 reu m).2.started := by
  have hhost := counting_hostAt board depth
  cases type with
  | stash => exact absurd h id
  | fetch => exact started_write8 hhost h
  | swap =>
      have hwritten := started_write8 hhost h
      have hread := (counting_hostAt board (depth + 1)).read m.started
        { m with touched := m.touched ++ [reu &&& m.unit.addressMask] } c64 le_rfl
      exact (Nat.succ_le_succ hread).trans hwritten
  | verify => exact absurd h id

theorem sameCounts_transferLoop (n : ℕ) (c : TransferCursor) (m : REUMachine (HostSide ρ))
    (h : board.QuietLoop depth type fixC64 fixREU n c m) :
    let done := REUMachine.transferLoop (memoryHost (board.env depth)) type fixC64 fixREU n c m
    SameCounts m done.2 ∧ done.1.moved ≤ c.moved + n := by
  induction n generalizing c m with
  | zero => exact ⟨⟨rfl, rfl, rfl⟩, le_rfl⟩
  | succ n ih =>
      obtain ⟨hbyte, hrest⟩ := h
      have hsame := sameCounts_transferByte hbyte
      rw [REUMachine.transferLoop]
      dsimp only at hrest ⊢
      split
      · exact ⟨hsame, Nat.add_le_add_left (Nat.le_add_left 1 n) _⟩
      · next hfault =>
        obtain ⟨hloop, hmoved⟩ := ih _ _ (hrest.resolve_left hfault)
        refine ⟨hsame.trans hloop, hmoved.trans ?_⟩
        show c.moved + 1 + n ≤ c.moved + (n + 1)
        rw [Nat.add_assoc, Nat.add_comm 1 n]

theorem started_transferLoop_of_not_quiet (n : ℕ) (c : TransferCursor)
    (m : REUMachine (HostSide ρ)) (h : ¬ board.QuietLoop depth type fixC64 fixREU n c m) :
    m.started + 1 ≤ (REUMachine.transferLoop (memoryHost (board.env depth)) type fixC64 fixREU n c
      m).2.started := by
  have hhost := counting_hostAt board (depth + 1)
  induction n generalizing c m with
  | zero => exact absurd trivial h
  | succ n ih =>
      rw [REUMachine.transferLoop]
      dsimp only
      by_cases htriggers : board.ByteTriggers depth type c.c64 c.reu m
      · have hbyte := started_transferByte_of_triggers htriggers
        split
        · exact hbyte
        · exact REUMachine.started_transferLoop hhost _ _ _ _ _ hbyte
      · have hsame := sameCounts_transferByte htriggers
        have hrest : ¬ _ := fun hrest => h ⟨htriggers, hrest⟩
        dsimp only at hrest
        rw [not_or] at hrest
        rw [if_neg hrest.1, ← hsame.1]
        exact ih _ _ hrest.2

/-- Only the command register and $FF00 start transfers. -/
theorem byteTriggers_address {c64 : Addr} {reu : BitVec 32} {m : REUMachine (HostSide ρ)}
    (h : board.ByteTriggers depth type c64 reu m) : c64 = 0xDF01 ∨ c64 = 0xFF00 := by
  cases type with
  | stash | verify => exact absurd h id
  | fetch | swap => exact h.imp (fun hdevices => hdevices.2.2.2.1) fun hRAM => hRAM.2.1

/-- A loop whose addresses avoid both is quiet. -/
theorem quietLoop_of_avoids (n : ℕ) (c : TransferCursor) (m : REUMachine (HostSide ρ))
    (h : ∀ i < n, ∀ a, a = (if fixC64 then c.c64 else c.c64 + BitVec.ofNat 16 i) →
      a ≠ 0xDF01 ∧ a ≠ 0xFF00) : board.QuietLoop depth type fixC64 fixREU n c m := by
  induction n generalizing c m with
  | zero => trivial
  | succ n ih =>
      have hfirst := h 0 (Nat.succ_pos n) c.c64 (by simp)
      refine ⟨fun htriggers => (byteTriggers_address htriggers).elim hfirst.1 hfirst.2, Or.inr ?_⟩
      apply ih
      intro i hi a ha
      refine h (i + 1) (Nat.succ_lt_succ hi) a (ha.trans ?_)
      cases fixC64 with
      | true => rfl
      | false =>
          show c.c64 + 1 + BitVec.ofNat 16 i = c.c64 + BitVec.ofNat 16 (i + 1)
          rw [BitVec.ofNat_add, BitVec.add_assoc, BitVec.add_comm 1]
          rfl

/-- A transfer from or to addresses that are neither the command register nor $FF00. -/
theorem quietTransfer_of_avoids {m : REUMachine (HostSide ρ)}
    (h : ∀ i < m.unit.count, ∀ a,
      a = (if m.unit.fixC64 then m.unit.c64Base else m.unit.c64Base + BitVec.ofNat 16 i) →
        a ≠ 0xDF01 ∧ a ≠ 0xFF00) : board.QuietTransfer depth m :=
  quietLoop_of_avoids _ _ _ h

theorem count_le (u : CREU) : u.count ≤ 0x10000 := by
  unfold CREU.count
  split
  · exact le_rfl
  · exact u.length.isLt.le

variable (board depth) in
/-- A transfer stays the only one, and within 64K, exactly if it is quiet. -/
theorem executeTransfer_single_iff {m : REUMachine (HostSide ρ)} (hsize : m.unit.size ≠ 0) :
    let done := REUMachine.executeTransfer (memoryHost (board.env depth)) m
    (done.started ≤ m.started + 1 ∧ done.host.exhausted = m.host.exhausted ∧
        done.unit.bytesMoved ≤ m.unit.bytesMoved + 0x10000) ↔ board.QuietTransfer depth m := by
  intro done
  obtain ⟨m', hm'⟩ : ∃ m', m' = { m with
    started := m.started + 1, unit := { m.unit with pendingFF00 := false } } := ⟨_, rfl⟩
  obtain ⟨r, hr⟩ : ∃ r, r = REUMachine.transferLoop (memoryHost (board.env depth))
    (.ofCommand m'.unit.command) m'.unit.fixC64 m'.unit.fixREU m'.unit.count
      ⟨m'.unit.c64Base, m'.unit.reuBase, false, 0, m'.unit.count⟩ m' := ⟨_, rfl⟩
  have hdone : done = r.2.mapUnit (REUMachine.settle r.1) := by
    rw [hr, hm']
    exact if_neg hsize
  have hquiet : board.QuietTransfer depth m ↔ board.QuietLoop depth (.ofCommand m'.unit.command)
      m'.unit.fixC64 m'.unit.fixREU m'.unit.count
        ⟨m'.unit.c64Base, m'.unit.reuBase, false, 0, m'.unit.count⟩ m' := by
    rw [hm']
    rfl
  have hbytes : done.unit.bytesMoved = r.2.unit.bytesMoved + r.1.moved := by
    rw [hdone]
    show (REUMachine.settle r.1 r.2.unit).bytesMoved = _
    unfold REUMachine.settle
    dsimp only
    split <;> rfl
  have hstarted : done.started = r.2.started := by
    rw [hdone]
    rfl
  have hexhausted : done.host.exhausted = r.2.host.exhausted := by
    rw [hdone]
    rfl
  have hbefore : m'.started = m.started + 1 ∧ m'.host.exhausted = m.host.exhausted ∧
      m'.unit.bytesMoved = m.unit.bytesMoved := by
    rw [hm']
    exact ⟨rfl, rfl, rfl⟩
  rw [hquiet, hstarted, hexhausted, hbytes, ← hbefore.1, ← hbefore.2.1, ← hbefore.2.2]
  constructor
  · rintro ⟨hle, -, -⟩
    by_contra hloud
    have hmore := started_transferLoop_of_not_quiet _ _ _ hloud
    rw [← hr] at hmore
    exact absurd (hmore.trans hle) (Nat.not_succ_le_self _)
  · intro h
    obtain ⟨⟨hsame, hnest, hmoved⟩, hcount⟩ := sameCounts_transferLoop _ _ _ h
    rw [← hr] at hsame hnest hmoved hcount
    refine ⟨hsame.le, hnest, ?_⟩
    rw [hmoved]
    refine Nat.add_le_add_left (hcount.trans ?_) _
    rw [Nat.zero_add]
    exact count_le _

end Bytes

/-! ### Writes of the registers -/

section Guest

variable (board : Board ρ) (depth : ℕ) {s : Machine (WithREU ρ)} {a : Addr}

/-- One transfer at most was started, it moved 64K at most, and nothing nested out of sight. -/
def SingleTransfer (s s' : Machine (WithREU ρ)) : Prop :=
  s'.outside.started ≤ s.outside.started + 1 ∧ s'.outside.exhausted = s.outside.exhausted ∧
    s'.outside.unit.bytesMoved ≤ s.outside.unit.bytesMoved + 0x10000

theorem SameCounts.single {s' : Machine (WithREU ρ)} (h : SameCounts s.toREU s'.toREU) :
    SingleTransfer s s' :=
  ⟨h.1.le.trans (Nat.le_succ _), h.2.1, h.2.2.le.trans (Nat.le_add_right _ _)⟩

theorem single_congr {m : REUMachine (HostSide ρ)} {s' : Machine (WithREU ρ)}
    (h : SameCounts m s'.toREU) : SingleTransfer s s' ↔
      m.started ≤ s.outside.started + 1 ∧ m.host.exhausted = s.outside.exhausted ∧
        m.unit.bytesMoved ≤ s.outside.unit.bytesMoved + 0x10000 := by
  obtain ⟨hstarted, hexhausted, hmoved⟩ := h
  rw [← hstarted, ← hexhausted, ← hmoved]
  rfl

variable {board depth}

theorem write8_single_iff (ha : a ≠ 0xFF00) (v : Byte) :
    SingleTransfer s ((write8 (board.env (depth + 1)) a v).run s).2 ↔
      (board.Triggers (board.hostAt (depth + 1)) s a v →
        board.QuietTransfer depth (board.commanded s a v)) := by
  by_cases htriggers : board.Triggers (board.hostAt (depth + 1)) s a v
  · rcases htriggers with hdevices | ⟨-, hstores, -⟩
    · obtain ⟨hreaches, hdeclined, hstarts⟩ := hdevices
      obtain ⟨m, hm⟩ : ∃ m, m = board.commanded s a v := ⟨_, rfl⟩
      have hunit := unit_registerWrite board s a v
      have hbefore : m.unit.size = s.outside.unit.size ∧ m.started = s.outside.started ∧
          m.host.exhausted = s.outside.exhausted ∧
          m.unit.bytesMoved = s.outside.unit.bytesMoved := by
        have hsize := congrArg CREU.size hunit.1
        have hbytes := congrArg CREU.bytesMoved hunit.1
        rw [hm]
        exact ⟨hsize, hunit.2.1, hunit.2.2, hbytes⟩
      have hclaims := hstarts.1
      rw [CREU.claims, Bool.and_eq_true] at hclaims
      have hsize : m.unit.size ≠ 0 := hbefore.1 ▸ of_decide_eq_true hclaims.2
      have hafter : SameCounts (REUMachine.executeTransfer (board.hostAt (depth + 1)) m)
          ((write8 (board.env (depth + 1)) a v).run s).2.toREU := by
        have hrun : (write8 (board.env (depth + 1)) a v).run s =
            (ioWrite (board.env (depth + 1)) a v).run s := hreaches.write8_eq v
        rw [hrun]
        refine frames_after_devices (sameCounts_frames board _ _) rfl ?_
        rw [chain_of_startsOn hdeclined hstarts, ← hm]
        exact ⟨rfl, rfl, rfl⟩
      have hsingle := executeTransfer_single_iff board depth hsize
      dsimp only at hsingle
      rw [hbefore.2.1, hbefore.2.2.1, hbefore.2.2.2] at hsingle
      have hquiet : (board.Triggers (board.hostAt (depth + 1)) s a v →
          board.QuietTransfer depth m) ↔ board.QuietTransfer depth m :=
        ⟨fun h => h (Or.inl ⟨hreaches, hdeclined, hstarts⟩), fun h _ => h⟩
      rw [← hm, hquiet, ← hsingle]
      exact single_congr hafter
    · exact absurd hstores ha
  · exact iff_of_true (sameCounts_write8 htriggers).single fun h => absurd h htriggers

theorem not_dosExtension_of_register (env : Surroundings ω) (s : Machine ω) (h : 0xDF00#16 ≤ a) :
    dosExtensionMapsBank1 env s a = false := by
  have hlow : decide (a ≤ 0x5FFF) = false := decide_eq_false (by bv_omega)
  have hhigh : decide (a ≤ 0x9FFF) = false := decide_eq_false (by bv_omega)
  rw [dosExtensionMapsBank1, hlow, hhigh, Bool.and_false, Bool.and_false, Bool.or_false,
    Bool.false_and, Bool.false_and, Bool.false_and]

/-- The fast path differs where the address maps to RAM, and then starts nothing. -/
theorem writeFast_single_iff (hlow : 0xDF00#16 ≤ a) (hhigh : a ≤ 0xDF0A#16) (v : Byte) :
    SingleTransfer s ((writeFast (board.env (depth + 1)) a v).run s).2 ↔
      (board.Triggers (board.hostAt (depth + 1)) s a v →
        board.QuietTransfer depth (board.commanded s a v)) := by
  have ha : a ≠ 0xFF00 := by
    rintro rfl
    exact absurd hhigh (by decide)
  have hdos := not_dosExtension_of_register (board.env (depth + 1)) s hlow
  by_cases hmap : c64MapRead a s.memory.bankMode = .io
  · have hsame : (writeFast (board.env (depth + 1)) a v).run s =
        (write8 (board.env (depth + 1)) a v).run s := by
      rw [writeFast, run_bind, run_get]
      dsimp only
      rw [if_neg (by rw [hdos]; nofun), if_neg fun h => h.2 hmap]
    rw [hsame]
    exact write8_single_iff ha v
  · have hstore : (writeFast (board.env (depth + 1)) a v).run s =
        (storeRAM (board.env (depth + 1)) a v).run s := by
      rw [writeFast, run_bind, run_get]
      dsimp only
      rw [if_neg (by rw [hdos]; nofun), if_pos ⟨by bv_omega, hmap⟩]
    have hquiet : ¬ board.Triggers (board.hostAt (depth + 1)) s a v := by
      rintro (⟨⟨-, -, -, hdevices⟩, -⟩ | ⟨-, hstores, -⟩)
      · exact hmap (of_decide_eq_true hdevices)
      · exact ha hstores
    have hkept := frames_storeRAM_of (sameCounts_frames board
      (board.hostAt (depth + 1)) s.toREU) (fun h => absurd h ha) v s ⟨rfl, rfl, rfl⟩
    rw [hstore]
    exact iff_of_true (SameCounts.single hkept) fun h => absurd h hquiet

/-- A write of one of the unit's registers, on either path, starts one transfer at most, which
moves 64K at most and ends, exactly if no byte of a transfer that it starts starts another. -/
theorem register_write_single_iff (board : Board ρ) (depth : ℕ) (s : Machine (WithREU ρ)) (a : Addr)
    (v : Byte) (fast : Bool) (hlow : 0xDF00#16 ≤ a) (hhigh : a ≤ 0xDF0A#16) :
    SingleTransfer s (memoryStep (board.env (depth + 1)) s
        (if fast then .writeFast a v else .write8 a v)) ↔
      (board.Triggers (board.hostAt (depth + 1)) s a v →
        board.QuietTransfer depth (board.commanded s a v)) := by
  have ha : a ≠ 0xFF00 := by
    rintro rfl
    exact absurd hhigh (by decide)
  cases fast with
  | true => exact writeFast_single_iff hlow hhigh v
  | false => exact write8_single_iff ha v

/-- A unit with 128K of $91 in it, and what its registers say. -/
def filledUnit (c64Base : Addr) (length : BitVec 16) (addressControl : Byte) :
    Machine (WithREU Unit) :=
  { emptyMachine with
    outside :=
      { emptyMachine.outside with
        unit :=
          { CREU.construct.init 2 with
            ram := fun _ => 0x91
            c64Base := c64Base
            length := length
            addressControl := addressControl } } }

/-- Fetching 8K to $4000 is one transfer. -/
theorem fetch_bitmap_single :
    SingleTransfer (filledUnit 0x4000 0x2000 0) (memoryStep (emptyBoard.env 1)
      (filledUnit 0x4000 0x2000 0)
        (if true then .writeFast 0xDF01 0x91 else .write8 0xDF01 0x91)) := by
  refine (register_write_single_iff emptyBoard 0 (filledUnit 0x4000 0x2000 0) 0xDF01 0x91 true
    (by decide) (by decide)).mpr fun _ => quietTransfer_of_avoids ?_
  intro i hi a ha
  change i < 0x2000 at hi
  change a = 0x4000#16 + BitVec.ofNat 16 i at ha
  constructor <;> bv_omega

/-- Each byte that is fetched to the command register starts the next transfer. -/
theorem fetch_restarts_transfer :
    let done := memoryStep (emptyBoard.env 3) (filledUnit 0xDF01 1 0x80) (.write8 0xDF01 0x91)
    done.outside.started = 4 ∧ done.outside.exhausted = true ∧
      ¬ SingleTransfer (filledUnit 0xDF01 1 0x80) done := by
  intro done
  have hstarted : done.outside.started = 4 := by decide +kernel
  refine ⟨hstarted, by decide +kernel, fun h => ?_⟩
  have hle := h.1
  rw [hstarted] at hle
  exact absurd hle (by decide)

end Guest

end ScpuEmu
