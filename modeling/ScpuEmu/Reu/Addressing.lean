import ScpuEmu.Reu.Transfer
import Mathlib.Tactic.IntervalCases

/-!
# Expansion addresses

Which cells a transfer touches, and how far the registers can name them. The host of
this file owns the C64's memory and does not come back to the unit. Three widths meet:
the bank register keeps and shows three bits, the end of a transfer keeps 23 bits, and a
fitted unit decodes up to 24.
-/

namespace ScpuEmu

/-- A host apart from the unit. -/
structure PlainHost (ω : Type) where
  read : ω → Addr → Byte × ω
  write : ω → Addr → Byte → ω

def PlainHost.toHost {ω : Type} (host : PlainHost ω) : IREUHost ω where
  read m a := ((host.read m.host a).1, { m with host := (host.read m.host a).2 })
  write m a v := { m with host := host.write m.host a v }

/-- A unit of one of the supported sizes. -/
structure CREU.Fitted (u : CREU) (selector : Byte) : Prop where
  size_eq : u.size = reuSizeFromSelector selector
  mask_eq : u.addressMask = u.size - 1
  present : u.size ≠ 0

section Sizes

theorem reuSize_eq (selector : Byte) (h : reuSizeFromSelector selector ≠ 0) :
    ∃ k, 17 ≤ k ∧ k ≤ 24 ∧ (k ≤ 19 ∨ 21 ≤ k) ∧
      (reuSizeFromSelector selector).toNat = 2 ^ k := by
  unfold reuSizeFromSelector at *
  split_ifs at * with h₁ h₂ h₃ h₄ h₅ h₆
  · exact ⟨17, by simp⟩
  · exact ⟨18, by simp⟩
  · exact ⟨19, by simp⟩
  · exact ⟨21, by simp⟩
  · exact ⟨22, by simp⟩
  · exact ⟨24, by simp⟩
  · exact absurd rfl h

theorem fitted_init (u : CREU) (selector : Byte) (h : reuSizeFromSelector selector ≠ 0) :
    (u.init selector).Fitted selector := by
  rw [CREU.init, if_neg h]
  exact ⟨rfl, rfl, h⟩

variable {u : CREU} {selector : Byte}

theorem CREU.Fitted.toNat_cell (h : u.Fitted selector) (x : BitVec 32) :
    (x &&& u.addressMask).toNat = x.toNat % u.size.toNat := by
  obtain ⟨k, hlo, hhi, -, hsize⟩ := reuSize_eq selector (h.size_eq ▸ h.present)
  rw [← h.size_eq] at hsize
  have hmask : u.addressMask.toNat = 2 ^ k - 1 := by
    have hone : (1#32).toNat ≤ u.size.toNat := by
      rw [hsize]
      exact Nat.one_le_two_pow
    show (u.addressMask).toNat = 2 ^ k - (1#32).toNat
    rw [h.mask_eq, ← hsize]
    exact BitVec.toNat_sub_of_le (BitVec.le_def.mpr hone)
  rw [BitVec.toNat_and, hmask, hsize, Nat.and_two_pow_sub_one_eq_mod]

/-- Sizes divide the range of the address counter, so the counter may wrap. -/
theorem CREU.Fitted.toNat_cell_add (h : u.Fitted selector) (x : BitVec 32) (i : ℕ) :
    ((x + BitVec.ofNat 32 i) &&& u.addressMask).toNat = (x.toNat + i) % u.size.toNat := by
  obtain ⟨k, hlo, hhi, -, hsize⟩ := reuSize_eq selector (h.size_eq ▸ h.present)
  rw [← h.size_eq] at hsize
  have hdvd : u.size.toNat ∣ 2 ^ 32 := hsize ▸ Nat.pow_dvd_pow 2 (by omega)
  rw [h.toNat_cell, BitVec.toNat_add, BitVec.toNat_ofNat, Nat.add_mod_mod,
    Nat.mod_mod_of_dvd _ hdvd]

end Sizes

namespace REUMachine

variable {ω : Type} (host : PlainHost ω)

/-- A guest write to a register of the unit. -/
def store (m : REUMachine ω) (addr : Addr) (value : Byte) : REUMachine ω :=
  (m.write host.toHost addr value).getD m

/-- Program $DF04-$DF06 with the bytes of an offset. -/
def programOffset (m : REUMachine ω) (o : BitVec 32) : REUMachine ω :=
  let m := m.store host 0xDF04 (o.setWidth 8)
  let m := m.store host 0xDF05 ((o >>> 8).setWidth 8)
  m.store host 0xDF06 ((o >>> 16).setWidth 8)

/-- Read $DF04-$DF06 and write the bytes back unchanged. -/
def rewriteOffset (m : REUMachine ω) : REUMachine ω :=
  let shown (addr : Addr) : Byte := ((m.unit.read addr).map Prod.fst).getD 0xFF
  let low := shown 0xDF04
  let middle := shown 0xDF05
  let bank := shown 0xDF06
  let m := m.store host 0xDF04 low
  let m := m.store host 0xDF05 middle
  m.store host 0xDF06 bank

/-- Command a transfer: at once, or armed and then released by a write of $FF00. -/
def issue (m : REUMachine ω) (command : Byte) : REUMachine ω :=
  let m := m.store host 0xDF01 command
  if CREU.immediate command then m else m.noteFF00Write host.toHost

/-- Program a length and start a transfer. -/
def continueWith (m : REUMachine ω) (low high command : Byte) : REUMachine ω :=
  let m := m.store host 0xDF07 low
  let m := m.store host 0xDF08 high
  m.issue host command

/-- How many of the next `n` bytes the host answers as the expansion RAM holds them. -/
def agreement (ram : BitVec 32 → Byte) (mask : BitVec 32) (fixC64 : Bool) :
    ℕ → ω → Addr → BitVec 32 → ℕ
  | 0, _, _, _ => 0
  | n + 1, h, c64, reu =>
      if (host.read h c64).1 = ram (reu &&& mask) then
        agreement ram mask fixC64 n (host.read h c64).2 (if fixC64 then c64 else c64 + 1)
          (reu + 1) + 1
      else 0

/-- How many cells a transfer of `n` bytes leaves behind: a comparison stays at the first
difference. -/
def reach (type : Transfer) (u : CREU) (h : ω) (n : ℕ) (c64 : Addr) (reu : BitVec 32) : ℕ :=
  match type with
  | .verify => agreement host u.ram u.addressMask u.fixC64 n h c64 reu
  | _ => n

/-! ### The loop -/

section Loop

variable {host} {type : Transfer} {fixC64 : Bool}

theorem add_ofNat_succ (x : BitVec 32) (i : ℕ) :
    x + BitVec.ofNat 32 (i + 1) = x + 1 + BitVec.ofNat 32 i := by
  rw [BitVec.ofNat_add, BitVec.add_comm (BitVec.ofNat 32 i), ← BitVec.add_assoc]
  rfl

/-- The cells of `n` bytes from an expansion address on. -/
def cellsFrom (mask reu : BitVec 32) (n : ℕ) : List (BitVec 32) :=
  (List.range n).map fun i => (reu + BitVec.ofNat 32 i) &&& mask

theorem cellsFrom_succ (mask reu : BitVec 32) (n : ℕ) :
    cellsFrom mask reu (n + 1) = (reu &&& mask) :: cellsFrom mask (reu + 1) n := by
  simp only [cellsFrom, List.range_succ_eq_map, List.map_cons, List.map_map]
  congr 1
  · simp
  · apply List.map_congr_left
    intro i _
    exact congrArg (· &&& mask) (add_ofNat_succ reu i)

/-- All that a transfer does to the machine around the host. -/
structure Touches (m m' : REUMachine ω) (cells : List (BitVec 32)) : Prop where
  touched : m'.touched = m.touched ++ cells
  unit : ∃ ram, m'.unit = { m.unit with ram := ram }

theorem Touches.refl (m : REUMachine ω) : Touches m m [] := ⟨by simp, m.unit.ram, rfl⟩

theorem Touches.trans {m m' m'' : REUMachine ω} {cells cells' : List (BitVec 32)}
    (h : Touches m m' cells) (h' : Touches m' m'' cells') : Touches m m'' (cells ++ cells') := by
  obtain ⟨ram, hunit⟩ := h.unit
  obtain ⟨ram', hunit'⟩ := h'.unit
  exact ⟨by rw [h'.touched, h.touched, List.append_assoc], ram', by rw [hunit', hunit]⟩

variable (host) in
theorem touches_transferByte (type : Transfer) (c64 : Addr) (reu : BitVec 32)
    (m : REUMachine ω) :
    Touches m (transferByte host.toHost type c64 reu m).2 [reu &&& m.unit.addressMask] := by
  cases type with
  | stash => exact ⟨rfl, _, rfl⟩
  | fetch => exact ⟨rfl, _, rfl⟩
  | swap => exact ⟨rfl, _, rfl⟩
  | verify => exact ⟨rfl, _, rfl⟩

variable (host fixC64) in
theorem transferLoop_moves (htype : type ≠ .verify) (n : ℕ) (c : TransferCursor)
    (m : REUMachine ω) :
    let done := transferLoop host.toHost type fixC64 false n c m
    Touches m done.2 (cellsFrom m.unit.addressMask c.reu n) ∧
      done.1.reu = c.reu + BitVec.ofNat 32 n := by
  induction n generalizing c m with
  | zero => exact ⟨Touches.refl m, by simp [transferLoop]⟩
  | succ n ih =>
      have hbyte := touches_transferByte host type c.c64 c.reu m
      have hmask : (transferByte host.toHost type c.c64 c.reu m).2.unit.addressMask =
          m.unit.addressMask := by
        obtain ⟨ram, hunit⟩ := hbyte.unit
        rw [hunit]
      have hfault : (transferByte host.toHost type c.c64 c.reu m).1 = false := by
        cases type with
        | stash => rfl
        | fetch => rfl
        | swap => rfl
        | verify => exact absurd rfl htype
      obtain ⟨hrest, hreu⟩ := ih
        ({ c with moved := c.moved + 1, remaining := n }.advance fixC64 false)
        (transferByte host.toHost type c.c64 c.reu m).2
      rw [transferLoop]
      dsimp only
      rw [hfault, if_neg Bool.false_ne_true, cellsFrom_succ]
      rw [hmask] at hrest
      exact ⟨hbyte.trans hrest, hreu.trans (add_ofNat_succ c.reu n).symm⟩

variable (host fixC64) in
theorem transferLoop_verifies (n : ℕ) (c : TransferCursor) (m : REUMachine ω) :
    let done := transferLoop host.toHost .verify fixC64 false n c m
    let agreed := agreement host m.unit.ram m.unit.addressMask fixC64 n m.host c.c64 c.reu
    Touches m done.2 (cellsFrom m.unit.addressMask c.reu (min n (agreed + 1))) ∧
      done.1.reu = c.reu + BitVec.ofNat 32 agreed := by
  induction n generalizing c m with
  | zero => exact ⟨Touches.refl m, by simp [transferLoop, agreement]⟩
  | succ n ih =>
      have hbyte := touches_transferByte host .verify c.c64 c.reu m
      rw [transferLoop, agreement]
      by_cases hsame : (host.read m.host c.c64).1 = m.unit.ram (c.reu &&& m.unit.addressMask)
      · have hfault : (transferByte host.toHost .verify c.c64 c.reu m).1 = false := by
          simpa [transferByte, PlainHost.toHost] using hsame
        obtain ⟨hrest, hreu⟩ := ih
          ({ c with moved := c.moved + 1, remaining := n }.advance fixC64 false)
          (transferByte host.toHost .verify c.c64 c.reu m).2
        dsimp only
        rw [hfault, if_neg Bool.false_ne_true, if_pos hsame, Nat.succ_min_succ, cellsFrom_succ]
        exact ⟨hbyte.trans hrest, hreu.trans (add_ofNat_succ c.reu _).symm⟩
      · have hfault : (transferByte host.toHost .verify c.c64 c.reu m).1 = true := by
          simpa [transferByte, PlainHost.toHost] using hsame
        dsimp only
        rw [hfault, if_pos rfl, if_neg hsame, Nat.succ_min_succ, Nat.min_zero, cellsFrom_succ]
        refine ⟨hbyte, ?_⟩
        simp

end Loop

/-! ### Registers and transfers -/

section Registers

variable {host} {m : REUMachine ω} {selector : Byte}

theorem claims_of_present {u : CREU} (hsize : u.size ≠ 0) {addr : Addr}
    (haddr : 0xDF00#16 ≤ addr ∧ addr ≤ 0xDF0A#16) : u.claims addr = true := by
  rw [CREU.claims, decide_eq_true haddr.1, decide_eq_true haddr.2, decide_eq_true hsize]
  rfl

theorem store_register (hsize : m.unit.size ≠ 0) {addr : Addr} (value : Byte)
    (haddr : 0xDF00#16 ≤ addr ∧ addr ≤ 0xDF0A#16) (hne : addr ≠ 0xDF01) :
    m.store host addr value = m.mapUnit fun u => u.writeRegister addr value := by
  rw [store, write, if_neg (by simp [claims_of_present hsize haddr]), if_neg hne]
  rfl

/-- Three bytes in $DF04-$DF06, of which the last counts with its low three bits. -/
theorem store_offset (hsize : m.unit.size ≠ 0) (o : BitVec 32) (bank : Byte)
    (hbank : bank.setWidth 32 &&& 0x07#32 = (o >>> 16) &&& 0x07#32) :
    ((m.store host 0xDF04 (o.setWidth 8)).store host 0xDF05 ((o >>> 8).setWidth 8)).store host
        0xDF06 bank = m.mapUnit fun u => u.setREUBase (o &&& 0x7FFFF#32) := by
  have hbits :
      ((((m.unit.reuBase &&& 0xFFFF00#32) ||| (o.setWidth 8).setWidth 32) &&& 0xFF00FF#32) |||
      ((o >>> 8).setWidth 8).setWidth 32 <<< 8) &&& 0x00FFFF#32 |||
      (bank.setWidth 32 &&& 0x07#32) <<< 16 = o &&& 0x7FFFF#32 := by
    rw [hbank]
    apply BitVec.eq_of_getLsbD_eq
    intro i hi
    interval_cases i <;> simp
  have hstore (m' : REUMachine ω) (hsize' : m'.unit.size ≠ 0) (addr : Addr) (v : Byte)
      (haddr : 0xDF00#16 ≤ addr ∧ addr ≤ 0xDF0A#16) (hne : addr ≠ 0xDF01) :
      m'.store host addr v = m'.mapUnit fun u => u.writeRegister addr v :=
    store_register hsize' v haddr hne
  obtain ⟨m₁, h₁⟩ : ∃ m₁, m₁ = m.mapUnit fun u => u.writeRegister 0xDF04 (o.setWidth 8) :=
    ⟨_, rfl⟩
  obtain ⟨m₂, h₂⟩ :
      ∃ m₂, m₂ = m₁.mapUnit fun u => u.writeRegister 0xDF05 ((o >>> 8).setWidth 8) := ⟨_, rfl⟩
  rw [hstore m hsize 0xDF04 _ (by decide) (by decide), ← h₁,
    hstore m₁ (h₁ ▸ hsize) 0xDF05 _ (by decide) (by decide), ← h₂,
    hstore m₂ (h₂ ▸ h₁ ▸ hsize) 0xDF06 _ (by decide) (by decide), h₂, h₁, ← hbits]
  rfl

theorem programOffset_eq (hsize : m.unit.size ≠ 0) (o : BitVec 32) :
    m.programOffset host o = m.mapUnit fun u => u.setREUBase (o &&& 0x7FFFF#32) := by
  refine store_offset hsize o _ ?_
  apply BitVec.eq_of_getLsbD_eq
  intro i hi
  interval_cases i <;> simp

theorem rewriteOffset_eq (hsize : m.unit.size ≠ 0) :
    m.rewriteOffset host = m.mapUnit fun u => u.setREUBase (u.reuBase &&& 0x7FFFF#32) := by
  have hlow : m.unit.read 0xDF04 = some (m.unit.reuBase.setWidth 8, m.unit) := by
    rw [CREU.read, if_neg (by simp [claims_of_present hsize])]
    rfl
  have hmiddle : m.unit.read 0xDF05 = some ((m.unit.reuBase >>> 8).setWidth 8, m.unit) := by
    rw [CREU.read, if_neg (by simp [claims_of_present hsize])]
    rfl
  have hbank : m.unit.read 0xDF06 =
      some (((m.unit.reuBase >>> 16) &&& 0x07#32).setWidth 8 ||| 0xF8#8, m.unit) := by
    rw [CREU.read, if_neg (by simp [claims_of_present hsize])]
    rfl
  rw [rewriteOffset]
  dsimp only
  rw [hlow, hmiddle, hbank]
  refine store_offset hsize m.unit.reuBase _ ?_
  apply BitVec.eq_of_getLsbD_eq
  intro i hi
  interval_cases i <;> simp

theorem noteFF00Write_of_armed (hsize : m.unit.size ≠ 0) (command : Byte) :
    (m.mapUnit fun u => { u with command := command, pendingFF00 := true }).noteFF00Write
        host.toHost =
      executeTransfer host.toHost (m.mapUnit fun u => { u with command := command }) :=
  if_neg (not_or.mpr ⟨hsize, Bool.noConfusion⟩)

/-- What starts a transfer: a command to execute, or the release of one armed before. -/
theorem issue_cases (hsize : m.unit.size ≠ 0) (command : Byte) : m.issue host command =
    if CREU.executes command || (!CREU.immediate command && m.unit.pendingFF00) then
      executeTransfer host.toHost (m.mapUnit fun u => { u with command := command })
    else m.mapUnit fun u => { u with command := command } := by
  have hclaims : ¬ m.unit.claims 0xDF01 = false := by simp [claims_of_present hsize]
  cases hexec : CREU.executes command with
  | true =>
      rw [issue, store, write, if_neg hclaims, if_pos rfl, hexec]
      cases CREU.immediate command with
      | true => rfl
      | false => exact noteFF00Write_of_armed hsize command
  | false =>
      have hstore : m.store host 0xDF01 command =
          m.mapUnit fun u => { u with command := command } := by
        rw [store, write, if_neg hclaims, if_pos rfl, hexec]
        rfl
      rw [issue, hstore]
      cases CREU.immediate command with
      | true => rfl
      | false =>
          show (m.mapUnit fun u => { u with command := command }).noteFF00Write host.toHost = _
          cases hpending : m.unit.pendingFF00 with
          | false => exact if_pos (.inr hpending)
          | true => exact if_neg (not_or.mpr ⟨hsize, fun h => by simp [mapUnit, hpending] at h⟩)

/-- The start of a transfer, as one step of the machine. -/
theorem issue_eq (hsize : m.unit.size ≠ 0) {command : Byte} (hexec : CREU.executes command = true) :
    m.issue host command =
      executeTransfer host.toHost (m.mapUnit fun u => { u with command := command }) := by
  rw [issue_cases hsize, hexec]
  rfl

theorem fixed_settle (c : TransferCursor) (u : CREU) :
    (settle c u).size = u.size ∧ (settle c u).addressMask = u.addressMask ∧
      (settle c u).addressControl = u.addressControl := by
  rw [settle]
  dsimp only [CREU.finishTransfer]
  split <;> exact ⟨rfl, rfl, rfl⟩

theorem reuBase_settle {u : CREU} (c : TransferCursor) (h : u.autoload = false) :
    (settle c u).reuBase = c.reu &&& 0x07FFFFF#32 := by
  have hload : CREU.autoload { u with
      bytesMoved := u.bytesMoved + c.moved, lastTransferCycles := c.moved } = false := h
  rw [settle]
  dsimp only
  rw [hload]
  rfl

theorem reach_of_moves {type : Transfer} (htype : type ≠ .verify) (u : CREU) (h : ω) (n : ℕ)
    (c64 : Addr) (reu : BitVec 32) : reach host type u h n c64 reu = n := by
  cases type with
  | verify => exact absurd rfl htype
  | stash => rfl
  | fetch => rfl
  | swap => rfl

variable (host) in
/-- What one transfer does: it touches the cells from the base on, and without autoload
leaves the base behind the last of them. -/
theorem executeTransfer_spec (hsize : m.unit.size ≠ 0) (hfix : m.unit.fixREU = false) :
    let type := Transfer.ofCommand m.unit.command
    let passed := reach host type m.unit m.host m.unit.count m.unit.c64Base m.unit.reuBase
    let done := executeTransfer host.toHost m
    done.touched = m.touched ++
        cellsFrom m.unit.addressMask m.unit.reuBase (min m.unit.count (passed + 1)) ∧
      (m.unit.autoload = false →
        done.unit.reuBase = (m.unit.reuBase + BitVec.ofNat 32 passed) &&& 0x07FFFFF#32) ∧
      done.unit.size = m.unit.size ∧ done.unit.addressMask = m.unit.addressMask ∧
      done.unit.addressControl = m.unit.addressControl := by
  intro type passed done
  obtain ⟨armed, harmed⟩ : ∃ armed : REUMachine ω, armed =
      { m with started := m.started + 1, unit := { m.unit with pendingFF00 := false } } :=
    ⟨_, rfl⟩
  obtain ⟨cursor, hcursor⟩ : ∃ cursor : TransferCursor, cursor =
      ⟨m.unit.c64Base, m.unit.reuBase, false, 0, m.unit.count⟩ := ⟨_, rfl⟩
  have hdone : done = (transferLoop host.toHost type m.unit.fixC64 false m.unit.count cursor
      armed).2.mapUnit (settle (transferLoop host.toHost type m.unit.fixC64 false m.unit.count
        cursor armed).1) := by
    show executeTransfer host.toHost m = _
    rw [executeTransfer]
    dsimp only
    rw [if_neg hsize, harmed, hcursor, ← hfix]
    rfl
  have hloop : Touches armed (transferLoop host.toHost type m.unit.fixC64 false m.unit.count cursor
      armed).2 (cellsFrom m.unit.addressMask m.unit.reuBase (min m.unit.count (passed + 1))) ∧
      (transferLoop host.toHost type m.unit.fixC64 false m.unit.count cursor armed).1.reu =
        m.unit.reuBase + BitVec.ofNat 32 passed := by
    by_cases htype : type = .verify
    · have hpassed : passed = agreement host m.unit.ram m.unit.addressMask m.unit.fixC64
          m.unit.count m.host m.unit.c64Base m.unit.reuBase := by
        show reach host type _ _ _ _ _ = _
        rw [htype]
        rfl
      have hspec := transferLoop_verifies host m.unit.fixC64 m.unit.count
        cursor armed
      rw [htype, hpassed]
      rw [hcursor, harmed] at hspec ⊢
      exact hspec
    · have hpassed : passed = m.unit.count :=
        reach_of_moves htype m.unit m.host m.unit.count m.unit.c64Base m.unit.reuBase
      have hspec := transferLoop_moves host m.unit.fixC64 htype m.unit.count
        cursor armed
      rw [hpassed, Nat.min_eq_left (Nat.le_succ _)]
      rw [hcursor, harmed] at hspec ⊢
      exact hspec
  obtain ⟨⟨htouched, ram, hunit⟩, hreu⟩ := hloop
  have hfixed := fixed_settle (transferLoop host.toHost type m.unit.fixC64 false m.unit.count cursor
    armed).1 (transferLoop host.toHost type m.unit.fixC64 false m.unit.count cursor armed).2.unit
  rw [hunit] at hfixed
  rw [hdone]
  refine ⟨?_, fun hload => ?_, ?_⟩
  · show (transferLoop _ _ _ _ _ _ _).2.touched = _
    rw [htouched, harmed]
  · show (settle _ (transferLoop _ _ _ _ _ _ _).2.unit).reuBase = _
    rw [reuBase_settle _ (by rw [hunit, harmed]; exact hload), hreu]
  · show (settle _ (transferLoop _ _ _ _ _ _ _).2.unit).size = _ ∧
      (settle _ (transferLoop _ _ _ _ _ _ _).2.unit).addressMask = _ ∧
      (settle _ (transferLoop _ _ _ _ _ _ _).2.unit).addressControl = _
    rw [hunit]
    rw [harmed] at hfixed ⊢
    exact hfixed

end Registers

/-! ### Addresses with the same cells -/

section Cells

variable {host} {u : CREU} {selector : Byte}

theorem cell_add (hfit : u.Fitted selector) {x y : BitVec 32}
    (h : x &&& u.addressMask = y &&& u.addressMask) (i : ℕ) :
    (x + BitVec.ofNat 32 i) &&& u.addressMask = (y + BitVec.ofNat 32 i) &&& u.addressMask := by
  have hmod : x.toNat % u.size.toNat = y.toNat % u.size.toNat := by
    rw [← hfit.toNat_cell, ← hfit.toNat_cell, h]
  apply BitVec.eq_of_toNat_eq
  rw [hfit.toNat_cell_add, hfit.toNat_cell_add, Nat.add_mod, hmod, ← Nat.add_mod]

theorem cellsFrom_congr (hfit : u.Fitted selector) {x y : BitVec 32}
    (h : x &&& u.addressMask = y &&& u.addressMask) (n : ℕ) :
    cellsFrom u.addressMask x n = cellsFrom u.addressMask y n :=
  List.map_congr_left fun i _ => cell_add hfit h i

theorem agreement_congr (hfit : u.Fitted selector) (ram : BitVec 32 → Byte) (fixC64 : Bool)
    (n : ℕ) (h : ω) (c64 : Addr) {x y : BitVec 32}
    (hxy : x &&& u.addressMask = y &&& u.addressMask) :
    agreement host ram u.addressMask fixC64 n h c64 x =
      agreement host ram u.addressMask fixC64 n h c64 y := by
  induction n generalizing h c64 x y with
  | zero => rfl
  | succ n ih =>
      have hnext : (x + 1) &&& u.addressMask = (y + 1) &&& u.addressMask := cell_add hfit hxy 1
      rw [agreement, agreement, hxy, ih _ _ hnext]

variable (host) in
theorem reach_congr (hfit : u.Fitted selector) (type : Transfer) (h : ω) (n : ℕ) (c64 : Addr)
    {x y : BitVec 32} (hxy : x &&& u.addressMask = y &&& u.addressMask) :
    reach host type u h n c64 x = reach host type u h n c64 y := by
  cases type with
  | verify => exact agreement_congr hfit u.ram u.fixC64 n h c64 hxy
  | stash => rfl
  | fetch => rfl
  | swap => rfl

end Cells

/-! ### Offsets that the registers can name -/

/-- How far the transfer of a command gets from an offset. -/
def passedFrom (m : REUMachine ω) (o : BitVec 32) (command : Byte) : ℕ :=
  reach host (.ofCommand command) m.unit m.host m.unit.count m.unit.c64Base o

/-- The registers name the cells from an offset on: a transfer started there touches them,
and without autoload the registers then name the next cell, also after they are read and
written back. -/
structure NamesCells (m : REUMachine ω) (o : BitVec 32) (command : Byte) : Prop where
  touches : ((m.programOffset host o).issue host command).touched.map BitVec.toNat =
    m.touched.map BitVec.toNat ++
      (List.range (min m.unit.count (m.passedFrom host o command + 1))).map fun i =>
        (o.toNat + i) % m.unit.size.toNat
  continues : command &&& 0x20#8 = 0 →
    let done := (m.programOffset host o).issue host command
    ((done.rewriteOffset host).unit.reuBase.toNat % m.unit.size.toNat =
        (o.toNat + m.passedFrom host o command) % m.unit.size.toNat) ∧
      ∀ low high command',
        ((done.rewriteOffset host).continueWith host low high command').touched =
          (done.continueWith host low high command').touched

section Naming

variable {host} {m : REUMachine ω} {selector : Byte} {o : BitVec 32} {command : Byte}

theorem agreement_le (ram : BitVec 32 → Byte) (mask : BitVec 32) (fixC64 : Bool) (n : ℕ) (h : ω)
    (c64 : Addr) (reu : BitVec 32) : agreement host ram mask fixC64 n h c64 reu ≤ n := by
  induction n generalizing h c64 reu with
  | zero => exact Nat.le_refl 0
  | succ n ih =>
      rw [agreement]
      split
      · exact Nat.succ_le_succ (ih _ _ _)
      · exact Nat.zero_le _

variable (host) in
theorem passedFrom_le (m : REUMachine ω) (o : BitVec 32) (command : Byte) :
    m.passedFrom host o command ≤ m.unit.count := by
  unfold passedFrom reach
  split
  · exact agreement_le _ _ _ _ _ _ _
  · exact Nat.le_refl _

theorem count_pos (u : CREU) : 0 < u.count ∧ u.count ≤ 0x10000 := by
  rw [CREU.count]
  split
  · simp
  · rename_i h
    have hlt := u.length.isLt
    have hne : u.length.toNat ≠ 0 := fun hz => h (BitVec.eq_of_toNat_eq hz)
    omega

variable (host) in
/-- The transfer that a command starts at a programmed offset. -/
theorem start_spec (hfit : m.unit.Fitted selector) (hfix : m.unit.fixREU = false)
    (hexec : CREU.executes command = true) (o : BitVec 32) :
    let base := o &&& 0x7FFFF#32
    let passed := m.passedFrom host base command
    let done := (m.programOffset host o).issue host command
    done.touched = m.touched ++
        cellsFrom m.unit.addressMask base (min m.unit.count (passed + 1)) ∧
      (command &&& 0x20#8 = 0 →
        done.unit.reuBase = (base + BitVec.ofNat 32 passed) &&& 0x07FFFFF#32) ∧
      done.unit.Fitted selector ∧ done.unit.fixREU = false := by
  intro base passed done
  obtain ⟨s, hs⟩ : ∃ s, s = m.mapUnit fun u => { u.setREUBase base with command := command } :=
    ⟨_, rfl⟩
  have hstart : done = executeTransfer host.toHost s := by
    show (m.programOffset host o).issue host command = _
    rw [programOffset_eq hfit.present o, hs]
    exact issue_eq (m := m.mapUnit fun u => u.setREUBase base) hfit.present hexec
  have hpassed : reach host (.ofCommand s.unit.command) s.unit s.host s.unit.count s.unit.c64Base
      s.unit.reuBase = passed := by
    show _ = reach host (.ofCommand command) m.unit m.host m.unit.count m.unit.c64Base base
    rw [hs]
    show reach host (.ofCommand command) _ m.host m.unit.count m.unit.c64Base base = _
    cases Transfer.ofCommand command <;> rfl
  have hsize : s.unit.size = m.unit.size := by rw [hs]; rfl
  have hmask : s.unit.addressMask = m.unit.addressMask := by rw [hs]; rfl
  have hcount : s.unit.count = m.unit.count := by rw [hs]; rfl
  have hbase : s.unit.reuBase = base := by rw [hs]; rfl
  have htouch : s.touched = m.touched := by rw [hs]; rfl
  have hcontrol : s.unit.addressControl = m.unit.addressControl := by rw [hs]; rfl
  have hload (h : command &&& 0x20#8 = 0) : s.unit.autoload = false := by
    rw [hs]
    show (command &&& 0x20#8 != 0) = false
    rw [h]
    rfl
  have hspec := executeTransfer_spec host (m := s) (hsize ▸ hfit.present)
    (by rw [CREU.fixREU, hcontrol]; exact hfix)
  dsimp only at hspec
  rw [hpassed, hsize, hmask, hcount, hbase, htouch, hcontrol, ← hstart] at hspec
  obtain ⟨htouched, hnext, hsize', hmask', hcontrol'⟩ := hspec
  refine ⟨htouched, fun h => hnext (hload h), ⟨?_, ?_, ?_⟩, ?_⟩
  · rw [hsize', hfit.size_eq]
  · rw [hmask', hsize', hfit.mask_eq]
  · rw [hsize']
    exact hfit.present
  · rw [CREU.fixREU, hcontrol']
    exact hfix

/-- The cells that a command touches. -/
theorem touched_issue (hsize : m.unit.size ≠ 0) (hfix : m.unit.fixREU = false) (command : Byte) :
    (m.issue host command).touched = m.touched ++
      if CREU.executes command || (!CREU.immediate command && m.unit.pendingFF00) then
        cellsFrom m.unit.addressMask m.unit.reuBase (min m.unit.count
          (reach host (.ofCommand command) m.unit m.host m.unit.count m.unit.c64Base
            m.unit.reuBase + 1))
      else [] := by
  rw [issue_cases hsize]
  split
  · refine (executeTransfer_spec host
      (m := m.mapUnit fun u => { u with command := command }) hsize hfix).1.trans ?_
    show m.touched ++ cellsFrom _ _ (min m.unit.count
      (reach host (.ofCommand command) _ m.host m.unit.count m.unit.c64Base _ + 1)) = _
    cases Transfer.ofCommand command <;> rfl
  · exact (List.append_nil _).symm

/-- A length in $DF07 and $DF08. -/
theorem continueWith_eq (hsize : m.unit.size ≠ 0) (low high command : Byte) :
    let length := low.setWidth 16 ||| high.setWidth 16 <<< 8
    m.continueWith host low high command =
      (m.mapUnit fun u => u.setLength length).issue host command := by
  intro length
  have hbits : (((m.unit.length &&& 0xFF00#16) ||| low.setWidth 16) &&& 0x00FF#16) |||
      high.setWidth 16 <<< 8 = low.setWidth 16 ||| high.setWidth 16 <<< 8 := by
    apply BitVec.eq_of_getLsbD_eq
    intro i hi
    interval_cases i <;> simp
  obtain ⟨m₁, h₁⟩ : ∃ m₁, m₁ = m.mapUnit fun u => u.writeRegister 0xDF07 low := ⟨_, rfl⟩
  have hlow : m.store host 0xDF07 low = m₁ := by
    rw [store_register hsize low (by decide) (by decide), h₁]
  have hhigh : m₁.store host 0xDF08 high = m.mapUnit fun u => u.setLength length := by
    rw [store_register (h₁ ▸ hsize) high (by decide) (by decide), h₁,
      show length = _ from hbits.symm]
    rfl
  show ((m.store host 0xDF07 low).store host 0xDF08 high).issue host command = _
  rw [hlow, hhigh]

/-- Continuing from another address with the same cell touches the same cells. -/
theorem touched_continueWith_setREUBase (hfit : m.unit.Fitted selector)
    (hfix : m.unit.fixREU = false) {x : BitVec 32}
    (hx : x &&& m.unit.addressMask = m.unit.reuBase &&& m.unit.addressMask)
    (low high command : Byte) :
    ((m.mapUnit fun u => u.setREUBase x).continueWith host low high command).touched =
      (m.continueWith host low high command).touched := by
  obtain ⟨length, hlength⟩ :
      ∃ length, length = low.setWidth 16 ||| high.setWidth 16 <<< 8 := ⟨_, rfl⟩
  obtain ⟨moved, hmoved⟩ : ∃ moved, moved = m.mapUnit fun u => u.setREUBase x := ⟨_, rfl⟩
  have hcount : (moved.mapUnit fun u => u.setLength length).unit.count =
      (m.mapUnit fun u => u.setLength length).unit.count := by rw [hmoved]; rfl
  have hfitLength : (m.mapUnit fun u => u.setLength length).unit.Fitted selector :=
    ⟨hfit.size_eq, hfit.mask_eq, hfit.present⟩
  have hreach : reach host (.ofCommand command) (moved.mapUnit fun u => u.setLength length).unit
      m.host (m.mapUnit fun u => u.setLength length).unit.count m.unit.c64Base x =
      reach host (.ofCommand command) (m.mapUnit fun u => u.setLength length).unit
      m.host (m.mapUnit fun u => u.setLength length).unit.count m.unit.c64Base m.unit.reuBase := by
    refine Eq.trans ?_ (reach_congr host
      hfitLength (.ofCommand command) m.host _ _ hx)
    rw [hmoved]
    cases Transfer.ofCommand command <;> rfl
  rw [← hmoved, continueWith_eq (hmoved ▸ hfit.present), continueWith_eq hfit.present, ← hlength,
    touched_issue (m := moved.mapUnit fun u => u.setLength length)
      (hmoved ▸ hfit.present) (hmoved ▸ hfix),
    touched_issue (m := m.mapUnit fun u => u.setLength length) hfit.present hfix, hcount]
  have hcells := cellsFrom_congr hfit hx
  rw [hmoved] at hreach ⊢
  refine congrArg (m.touched ++ ·) (if_congr Iff.rfl ?_ rfl)
  refine (congrArg (fun n => cellsFrom m.unit.addressMask x (min _ (n + 1))) hreach).trans ?_
  exact hcells _

theorem toNat_base (o : BitVec 32) : (o &&& 0x7FFFF#32).toNat = o.toNat % 2 ^ 19 := by
  rw [BitVec.toNat_and]
  exact Nat.and_two_pow_sub_one_eq_mod o.toNat 19

theorem base_eq_self {o : BitVec 32} (h : o.toNat < 2 ^ 19) : o &&& 0x7FFFF#32 = o := by
  apply BitVec.eq_of_toNat_eq
  rw [toNat_base, Nat.mod_eq_of_lt h]

theorem map_toNat_cellsFrom (hfit : m.unit.Fitted selector) (o : BitVec 32) (n : ℕ) :
    (cellsFrom m.unit.addressMask o n).map BitVec.toNat =
      (List.range n).map fun i => (o.toNat + i) % m.unit.size.toNat := by
  rw [cellsFrom, List.map_map]
  exact List.map_congr_left fun i _ => hfit.toNat_cell_add o i

/-- What a transfer without autoload leaves in the base. -/
theorem toNat_passed {o : BitVec 32} (h : o.toNat < 2 ^ 19) {n : ℕ} (hn : n ≤ 0x10000) :
    ((o + BitVec.ofNat 32 n) &&& 0x07FFFFF#32).toNat = o.toNat + n := by
  have hadd : (o + BitVec.ofNat 32 n).toNat = o.toNat + n := by
    rw [BitVec.toNat_add, BitVec.toNat_ofNat]
    omega
  rw [BitVec.toNat_and, hadd]
  refine (Nat.and_two_pow_sub_one_eq_mod _ 23).trans (Nat.mod_eq_of_lt ?_)
  omega

/-- The low nineteen bits of an address name its cell in a unit of up to 512K. -/
theorem low_bits_mod (hfit : m.unit.Fitted selector) (n : ℕ) (hn : n < 2 ^ 20) :
    n % 2 ^ 19 % m.unit.size.toNat = n % m.unit.size.toNat ↔
      m.unit.size.toNat ≤ 2 ^ 19 ∨ n < 2 ^ 19 := by
  obtain ⟨k, -, -, hk, hsize⟩ := reuSize_eq selector (hfit.size_eq ▸ hfit.present)
  rw [← hfit.size_eq] at hsize
  rw [hsize]
  rcases hk with hk | hk
  · have hdvd : 2 ^ k ∣ 2 ^ 19 := Nat.pow_dvd_pow 2 hk
    exact ⟨fun _ => Or.inl (Nat.pow_le_pow_right (by decide) hk), fun _ =>
      Nat.mod_mod_of_dvd n hdvd⟩
  · have hbig : 2 ^ 21 ≤ 2 ^ k := Nat.pow_le_pow_right (by decide) hk
    have hlow : n % 2 ^ 19 < 2 ^ 19 := Nat.mod_lt _ (by decide)
    rw [Nat.mod_eq_of_lt (lt_of_lt_of_le hlow (le_trans (by decide) hbig)),
      Nat.mod_eq_of_lt (lt_of_lt_of_le hn (le_trans (by decide) hbig))]
    constructor
    · intro h
      exact Or.inr (h ▸ hlow)
    · rintro (h | h)
      · omega
      · exact Nat.mod_eq_of_lt h

/-- Continuing after the registers were read and written back touches the same cells. -/
theorem touched_continueWith_rewriteOffset (hfit : m.unit.Fitted selector)
    (hfix : m.unit.fixREU = false)
    (hbase : (m.unit.reuBase.toNat % 2 ^ 19) % m.unit.size.toNat =
      m.unit.reuBase.toNat % m.unit.size.toNat) (low high command : Byte) :
    ((m.rewriteOffset host).continueWith host low high command).touched =
      (m.continueWith host low high command).touched := by
  rw [rewriteOffset_eq hfit.present]
  refine touched_continueWith_setREUBase hfit hfix (BitVec.eq_of_toNat_eq ?_) low high command
  rw [hfit.toNat_cell, hfit.toNat_cell, toNat_base]
  exact hbase

/-- The first cell of a transfer tells whether the offset was understood. -/
theorem offset_of_touches (hfit : m.unit.Fitted selector) (ho : o.toNat < m.unit.size.toNat)
    {n n' : ℕ} (hn : 0 < n) (hn' : 0 < n')
    (h : (cellsFrom m.unit.addressMask (o &&& 0x7FFFF#32) n).map BitVec.toNat =
      (List.range n').map fun i => (o.toNat + i) % m.unit.size.toNat) : o.toNat < 2 ^ 19 := by
  obtain ⟨n, rfl⟩ := Nat.exists_eq_succ_of_ne_zero hn.ne'
  obtain ⟨n', rfl⟩ := Nat.exists_eq_succ_of_ne_zero hn'.ne'
  rw [map_toNat_cellsFrom hfit, List.range_succ_eq_map, List.range_succ_eq_map, List.map_cons,
    List.map_cons, List.cons.injEq, toNat_base, Nat.add_zero, Nat.add_zero,
    Nat.mod_eq_of_lt ho] at h
  have hle : o.toNat % 2 ^ 19 % m.unit.size.toNat ≤ o.toNat % 2 ^ 19 := Nat.mod_le _ _
  have hlt : o.toNat % 2 ^ 19 < 2 ^ 19 := Nat.mod_lt _ (by decide)
  omega

/-- The registers name the cells from an offset on exactly if the bank register can hold it,
and can still hold the address that the transfer leaves behind. -/
theorem names_cells_iff (hfit : m.unit.Fitted selector) (hfix : m.unit.fixREU = false)
    (ho : o.toNat < m.unit.size.toNat) (hexec : CREU.executes command = true) :
    NamesCells host m o command ↔
      o.toNat < 2 ^ 19 ∧ (command &&& 0x20#8 = 0 →
        m.unit.size.toNat ≤ 2 ^ 19 ∨ o.toNat + m.passedFrom host o command < 2 ^ 19) := by
  obtain ⟨htouched, hnext, hfit', hfix'⟩ := start_spec host hfit hfix hexec o
  obtain ⟨hpos, hcount⟩ := count_pos m.unit
  have hpassed := passedFrom_le host m o command
  obtain ⟨done, hdone⟩ :
      ∃ done, done = (m.programOffset host o).issue host command := ⟨_, rfl⟩
  rw [← hdone] at htouched hnext hfit' hfix'
  have hsize : done.unit.size = m.unit.size := hfit'.size_eq.trans hfit.size_eq.symm
  have hnamed (hlow : o.toNat < 2 ^ 19) (hload : command &&& 0x20#8 = 0) :
      done.unit.reuBase.toNat = o.toNat + m.passedFrom host o command := by
    rw [hnext hload, base_eq_self hlow, toNat_passed hlow (le_trans hpassed hcount)]
  have hshown : (done.rewriteOffset host).unit.reuBase.toNat =
      done.unit.reuBase.toNat % 2 ^ 19 := by
    rw [rewriteOffset_eq hfit'.present]
    exact toNat_base _
  constructor
  · rintro ⟨htouches, hcontinues⟩
    rw [← hdone, htouched, List.map_append, List.append_cancel_left_eq] at htouches
    have hlow := offset_of_touches hfit ho (lt_min hpos (Nat.succ_pos _))
      (lt_min hpos (Nat.succ_pos _)) htouches
    refine ⟨hlow, fun hload => ?_⟩
    have hsame := (hcontinues hload).1
    rw [← hdone, hshown, hnamed hlow hload] at hsame
    exact (low_bits_mod hfit _ (by omega)).mp hsame
  · rintro ⟨hlow, hreach⟩
    refine ⟨?_, fun hload => ?_⟩
    · rw [← hdone, htouched, List.map_append, base_eq_self hlow, map_toNat_cellsFrom hfit]
    · have hsame := (low_bits_mod hfit _ (by omega)).mpr (hreach hload)
      rw [← hnamed hlow hload] at hsame
      rw [← hdone]
      refine ⟨?_, touched_continueWith_rewriteOffset hfit' hfix' (hsize ▸ hsame)⟩
      rw [hshown, hsame, hnamed hlow hload]

/-- A unit of 2 MB, fitted and reset, next to a blank memory. -/
def blankMachine : REUMachine Unit where
  unit := CREU.construct.init 5
  host := ()
  touched := []
  started := 0

/-- A memory that holds nothing. -/
def blankHost : PlainHost Unit where
  read _ _ := (0, ())
  write _ _ _ := ()

/-- A stash of one byte to the offset $001000 and on. -/
def oneByteMachine : REUMachine Unit :=
  blankMachine.mapUnit fun u => u.setLength 1

theorem fitted_oneByteMachine : oneByteMachine.unit.Fitted 5 := ⟨rfl, rfl, by decide⟩

/-- Commanded at once, or released by a write of $FF00. -/
theorem names_cells_low :
    NamesCells blankHost oneByteMachine 0x1000 0x90 ∧
      NamesCells blankHost oneByteMachine 0x1000 0x80 := by
  have hfar : (0x1000#32).toNat + 1 < 2 ^ 19 := by decide
  exact ⟨(names_cells_iff fitted_oneByteMachine rfl (by decide) (by decide)).mpr
      ⟨by decide, fun _ => Or.inr hfar⟩,
    (names_cells_iff fitted_oneByteMachine rfl (by decide) (by decide)).mpr
      ⟨by decide, fun _ => Or.inr hfar⟩⟩

/-- The byte 512K into a unit of 2 MB has no name: a stash there touches the first cell. -/
theorem not_names_cells_upper :
    (0x80000#32).toNat < oneByteMachine.unit.size.toNat ∧
      ((oneByteMachine.programOffset blankHost 0x80000).issue blankHost 0x90).touched =
        [0x00000] ∧
      ¬ NamesCells blankHost oneByteMachine 0x80000 0x90 := by
  have htouched :
      ((oneByteMachine.programOffset blankHost 0x80000).issue blankHost 0x90).touched =
        [0x00000] := by decide
  refine ⟨by decide, htouched, fun h => ?_⟩
  have hcells := h.touches
  rw [htouched] at hcells
  exact absurd hcells (by decide)

end Naming

end REUMachine

end ScpuEmu
