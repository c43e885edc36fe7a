import ScpuEmu.Reu.Addressing
import ScpuEmu.Library.Exchange

/-!
# Transfers as blocks of pairs

A transfer is about a list of pairs, each of a C64 address and an expansion cell. Next to a C64
of plain memory, a stash, a fetch or a swap carries the bytes along the list, and a verify
compares them up to the first that differ.
-/

namespace ScpuEmu

open Library

/-- A C64 of 64K of plain memory, with a record of the addresses that were read. -/
structure FlatC64 where
  mem : Addr → Byte
  reads : List Addr

def flatC64 : PlainHost FlatC64 where
  read h a := (h.mem a, { h with reads := h.reads ++ [a] })
  write h a v := { h with mem := Function.update h.mem a v }

/-- Address `i` of a block that starts at `x`, or stays there. -/
def blockAddress {w : ℕ} (fixed : Bool) (x : BitVec w) (i : ℕ) : BitVec w :=
  if fixed then x else x + BitVec.ofNat w i

section Blocks

variable {w : ℕ} {fixed : Bool} {x : BitVec w}

@[simp] theorem blockAddress_zero : blockAddress fixed x 0 = x := by
  cases fixed with
  | false => exact BitVec.add_zero x
  | true => rfl

theorem blockAddress_succ (fixed : Bool) (x : BitVec w) (i : ℕ) :
    blockAddress fixed x (i + 1) = blockAddress fixed (if fixed then x else x + 1) i := by
  cases fixed with
  | false =>
      show x + BitVec.ofNat w (i + 1) = x + 1 + BitVec.ofNat w i
      rw [BitVec.ofNat_add, BitVec.add_comm (BitVec.ofNat w i), ← BitVec.add_assoc]
      rfl
  | true => rfl

end Blocks

/-- The pairs of `n` bytes from a C64 address and an expansion address on. -/
def blockPairs (mask : BitVec 32) (fixC64 fixREU : Bool) (c64 : Addr) (reu : BitVec 32) (n : ℕ) :
    List (Addr × BitVec 32) :=
  (List.range n).map fun i => (blockAddress fixC64 c64 i, blockAddress fixREU reu i &&& mask)

theorem blockPairs_succ (mask : BitVec 32) (fixC64 fixREU : Bool) (c64 : Addr) (reu : BitVec 32)
    (n : ℕ) : blockPairs mask fixC64 fixREU c64 reu (n + 1) = (c64, reu &&& mask) ::
      blockPairs mask fixC64 fixREU (if fixC64 then c64 else c64 + 1)
        (if fixREU then reu else reu + 1) n := by
  rw [blockPairs, blockPairs, List.range_succ_eq_map, List.map_cons, List.map_map,
    blockAddress_zero, blockAddress_zero]
  refine congrArg _ (List.map_congr_left fun i _ => ?_)
  exact Prod.ext (blockAddress_succ fixC64 c64 i)
    (congrArg (· &&& mask) (blockAddress_succ fixREU reu i))

/-- The pairs that the registers of a unit stand for. -/
def CREU.pairs (u : CREU) : List (Addr × BitVec 32) :=
  blockPairs u.addressMask u.fixC64 u.fixREU u.c64Base u.reuBase u.count

/-- What the C64 and the unit hold. -/
abbrev Memories := (Addr → Byte) × (BitVec 32 → Byte)

def Transfer.carry : Transfer → List (Addr × BitVec 32) → Memories → Memories
  | .stash, pairs, m => (m.1, copyAlong m.1 pairs m.2)
  | .fetch, pairs, m => (copyAlong m.2 (pairs.map Prod.swap) m.1, m.2)
  | .swap, pairs, m => exchangeAlong pairs m
  | .verify, _, m => m

theorem Transfer.carry_nil (type : Transfer) (m : Memories) : type.carry [] m = m := by
  cases type <;> rfl

theorem Transfer.carry_cons (type : Transfer) (p : Addr × BitVec 32)
    (pairs : List (Addr × BitVec 32)) (m : Memories) :
    type.carry (p :: pairs) m = type.carry pairs (type.carry [p] m) := by
  cases type <;> rfl

/-- Whether a pair of places holds different bytes. -/
def Differs (m : Memories) (p : Addr × BitVec 32) : Bool := m.1 p.1 != m.2 p.2

namespace REUMachine

def memories (m : REUMachine FlatC64) : Memories := (m.host.mem, m.unit.ram)

/-! ### The loop -/

section Loop

variable {type : Transfer} {fixC64 fixREU : Bool}

theorem memories_transferByte (type : Transfer) (c64 : Addr) (reu : BitVec 32)
    (m : REUMachine FlatC64) : (transferByte flatC64.toHost type c64 reu m).2.memories =
      type.carry [(c64, reu &&& m.unit.addressMask)] m.memories := by
  have hpoke (u : CREU) (offset : BitVec 32) (value : Byte) :
      (u.poke offset value).ram = Function.update u.ram offset value :=
    funext fun i => (Function.update_apply u.ram offset value i).symm
  cases type with
  | stash => exact Prod.ext rfl (hpoke _ _ _)
  | fetch => rfl
  | swap => exact Prod.ext rfl (hpoke _ _ _)
  | verify => rfl

/-- A transfer that moves bytes carries them along all of its pairs. -/
theorem transferLoop_carries (htype : type ≠ .verify) (n : ℕ) (c : TransferCursor)
    (m : REUMachine FlatC64) :
    let pairs := blockPairs m.unit.addressMask fixC64 fixREU c.c64 c.reu n
    let done := transferLoop flatC64.toHost type fixC64 fixREU n c m
    done.2.memories = type.carry pairs m.memories ∧ Touches m done.2 (pairs.map Prod.snd) ∧
      done.1.c64 = blockAddress fixC64 c.c64 n ∧ done.1.reu = blockAddress fixREU c.reu n ∧
      done.1.fault = c.fault := by
  induction n generalizing c m with
  | zero =>
      exact ⟨(type.carry_nil _).symm, Touches.refl m, blockAddress_zero.symm,
        blockAddress_zero.symm, rfl⟩
  | succ n ih =>
      have hbyte := touches_transferByte flatC64 type c.c64 c.reu m
      have hmemories := memories_transferByte type c.c64 c.reu m
      have hmask : (transferByte flatC64.toHost type c.c64 c.reu m).2.unit.addressMask =
          m.unit.addressMask := by
        obtain ⟨ram, hunit⟩ := hbyte.unit
        rw [hunit]
      have hfault : (transferByte flatC64.toHost type c.c64 c.reu m).1 = false := by
        cases type with
        | stash => rfl
        | fetch => rfl
        | swap => rfl
        | verify => exact absurd rfl htype
      obtain ⟨hcarried, htouched, hc64, hreu, hclear⟩ := ih
        ({ c with moved := c.moved + 1, remaining := n }.advance fixC64 fixREU)
        (transferByte flatC64.toHost type c.c64 c.reu m).2
      rw [hmask, hmemories] at hcarried
      rw [hmask] at htouched
      rw [transferLoop]
      dsimp only
      rw [hfault, if_neg Bool.false_ne_true, blockPairs_succ, Transfer.carry_cons]
      exact ⟨hcarried, hbyte.trans htouched, hc64.trans (blockAddress_succ fixC64 c.c64 n).symm,
        hreu.trans (blockAddress_succ fixREU c.reu n).symm, hclear⟩

/-- The machine once pairs have been compared. -/
def compared (m : REUMachine FlatC64) (pairs : List (Addr × BitVec 32)) : REUMachine FlatC64 :=
  { m with
    host := { m.host with reads := m.host.reads ++ pairs.map Prod.fst }
    touched := m.touched ++ pairs.map Prod.snd }

theorem compared_compared (m : REUMachine FlatC64) (p : Addr × BitVec 32)
    (pairs : List (Addr × BitVec 32)) :
    (m.compared [p]).compared pairs = m.compared (p :: pairs) := by
  simp only [compared, List.map_cons, List.map_nil, List.append_assoc, List.singleton_append]

theorem transferByte_verify (c64 : Addr) (reu : BitVec 32) (m : REUMachine FlatC64) :
    transferByte flatC64.toHost .verify c64 reu m =
      (Differs m.memories (c64, reu &&& m.unit.addressMask),
        m.compared [(c64, reu &&& m.unit.addressMask)]) := rfl

/-- A comparison passes the pairs before the first that differs, and stays there. -/
theorem transferLoop_compares (n : ℕ) (c : TransferCursor) (m : REUMachine FlatC64)
    (hclear : c.fault = false) :
    let pairs := blockPairs m.unit.addressMask fixC64 fixREU c.c64 c.reu n
    let passed := pairs.findIdx (Differs m.memories)
    let done := transferLoop flatC64.toHost .verify fixC64 fixREU n c m
    done.2 = m.compared (pairs.take (passed + 1)) ∧
      done.1.c64 = blockAddress fixC64 c.c64 passed ∧
      done.1.reu = blockAddress fixREU c.reu passed ∧ done.1.fault = decide (passed < n) ∧
      (passed < n → done.1.remaining + 1 = n - passed) := by
  induction n generalizing c m with
  | zero =>
      refine ⟨?_, blockAddress_zero.symm, blockAddress_zero.symm, hclear, fun h => ?_⟩
      · show m = m.compared []
        simp only [compared, List.map_nil, List.append_nil]
      · exact absurd h (Nat.not_lt_zero _)
  | succ n ih =>
      rw [transferLoop, transferByte_verify, blockPairs_succ]
      dsimp only
      rw [List.findIdx_cons]
      cases hdiffers : Differs m.memories (c.c64, c.reu &&& m.unit.addressMask) with
      | true =>
          rw [if_pos rfl, cond_true]
          refine ⟨rfl, blockAddress_zero.symm, blockAddress_zero.symm, ?_, fun _ => rfl⟩
          exact (decide_eq_true (Nat.succ_pos n)).symm
      | false =>
          rw [if_neg Bool.false_ne_true, cond_false]
          obtain ⟨hdone, hc64, hreu, hfault, hremaining⟩ := ih
            ({ c with moved := c.moved + 1, remaining := n }.advance fixC64 fixREU)
            (m.compared [(c.c64, c.reu &&& m.unit.addressMask)]) hclear
          refine ⟨?_, hc64.trans (blockAddress_succ fixC64 c.c64 _).symm,
            hreu.trans (blockAddress_succ fixREU c.reu _).symm, ?_, fun h => ?_⟩
          · rw [hdone, compared_compared]
            rfl
          · rw [hfault]
            exact decide_eq_decide.mpr Nat.succ_lt_succ_iff.symm
          · rw [hremaining (Nat.lt_of_succ_lt_succ h), Nat.succ_sub_succ]
            rfl

end Loop

/-! ### Whole transfers -/

/-- What a transfer leaves in the unit besides its RAM and its statistics. -/
structure Settles (c : TransferCursor) (u done : CREU) : Prop where
  size : done.size = u.size
  addressMask : done.addressMask = u.addressMask
  addressControl : done.addressControl = u.addressControl
  irqMask : done.irqMask = u.irqMask
  c64Base : done.c64Base = if u.autoload then u.c64Shadow else c.c64
  reuBase : done.reuBase = if u.autoload then u.reuShadow else c.reu &&& 0x07FFFFF#32
  length : done.length =
    if u.autoload then u.lengthShadow
    else if c.fault then BitVec.ofNat 16 (c.remaining + 1) else 1
  c64Shadow : done.c64Shadow = u.c64Shadow
  reuShadow : done.reuShadow = u.reuShadow
  lengthShadow : done.lengthShadow = u.lengthShadow
  endOfBlock : done.endOfBlock = !c.fault
  fault : done.fault = c.fault
  irqPending : done.irqPending = (u.irqPending || (u.irqMask &&& 0x80#8 != 0 &&
    (!c.fault && u.irqMask &&& 0x40#8 != 0 || c.fault && u.irqMask &&& 0x20#8 != 0)))

theorem settles_settle (c : TransferCursor) (u : CREU) : Settles c u (settle c u) := by
  cases hload : u.autoload with
  | false =>
      have hload' : CREU.autoload { u with
          bytesMoved := u.bytesMoved + c.moved, lastTransferCycles := c.moved } = false := hload
      constructor <;> rw [settle] <;> dsimp only <;> rw [hload'] <;> first | rfl | rw [hload]; rfl
  | true =>
      have hload' : CREU.autoload { u with
          bytesMoved := u.bytesMoved + c.moved, lastTransferCycles := c.moved } = true := hload
      constructor <;> rw [settle] <;> dsimp only <;> rw [hload'] <;> first | rfl | rw [hload]; rfl

theorem ram_settle (c : TransferCursor) (u : CREU) : (settle c u).ram = u.ram := by
  rw [settle]
  dsimp only [CREU.finishTransfer]
  split <;> rfl

section Issue

variable {m : REUMachine FlatC64} {command : Byte}

/-- The state in which the loop of a transfer starts. -/
def armed (m : REUMachine FlatC64) : REUMachine FlatC64 :=
  { m with started := m.started + 1, unit := { m.unit with pendingFF00 := false } }

theorem executeTransfer_eq (hsize : m.unit.size ≠ 0) :
    let done := transferLoop flatC64.toHost (.ofCommand m.unit.command) m.unit.fixC64
      m.unit.fixREU m.unit.count ⟨m.unit.c64Base, m.unit.reuBase, false, 0, m.unit.count⟩ m.armed
    executeTransfer flatC64.toHost m = done.2.mapUnit (settle done.1) := by
  rw [executeTransfer]
  dsimp only
  rw [if_neg hsize]
  rfl

/-- A stash, a fetch or a swap carries the bytes along the programmed pairs. -/
theorem executeTransfer_carries (hsize : m.unit.size ≠ 0)
    (htype : Transfer.ofCommand m.unit.command ≠ .verify) :
    let done := executeTransfer flatC64.toHost m
    done.memories = (Transfer.ofCommand m.unit.command).carry m.unit.pairs m.memories ∧
      done.touched = m.touched ++ m.unit.pairs.map Prod.snd ∧
      ∃ c : TransferCursor, c.fault = false ∧
        c.c64 = blockAddress m.unit.fixC64 m.unit.c64Base m.unit.count ∧
        c.reu = blockAddress m.unit.fixREU m.unit.reuBase m.unit.count ∧
        Settles c m.unit done.unit := by
  intro done
  have hloop := @transferLoop_carries _ m.unit.fixC64 m.unit.fixREU htype m.unit.count
    ⟨m.unit.c64Base, m.unit.reuBase, false, 0, m.unit.count⟩ m.armed
  have hdone : done = _ := executeTransfer_eq hsize
  dsimp only at hloop hdone
  generalize transferLoop flatC64.toHost _ _ _ _ _ _ = looped at hloop hdone
  obtain ⟨hmemories, ⟨htouched, ram, hunit⟩, hc64, hreu, hclear⟩ := hloop
  have hsettles := settles_settle looped.1 looped.2.unit
  refine ⟨?_, ?_, looped.1, hclear, hc64, hreu, ?_⟩
  · have hkept : (looped.2.mapUnit (settle looped.1)).memories = looped.2.memories :=
      Prod.ext rfl (ram_settle looped.1 looped.2.unit)
    rw [hdone, hkept, hmemories]
    rfl
  · rw [hdone]
    exact htouched
  · rw [hdone]
    show Settles _ _ (settle looped.1 looped.2.unit)
    rw [hunit] at hsettles ⊢
    exact { hsettles with }

/-- A verify compares the programmed pairs up to the first that differs. -/
theorem executeTransfer_compares (hsize : m.unit.size ≠ 0)
    (htype : Transfer.ofCommand m.unit.command = .verify) :
    let done := executeTransfer flatC64.toHost m
    let passed := m.unit.pairs.findIdx (Differs m.memories)
    done.memories = m.memories ∧
      done.host.reads = m.host.reads ++ (m.unit.pairs.take (passed + 1)).map Prod.fst ∧
      done.touched = m.touched ++ (m.unit.pairs.take (passed + 1)).map Prod.snd ∧
      ∃ c : TransferCursor, c.fault = decide (passed < m.unit.count) ∧
        c.c64 = blockAddress m.unit.fixC64 m.unit.c64Base passed ∧
        c.reu = blockAddress m.unit.fixREU m.unit.reuBase passed ∧
        (passed < m.unit.count → c.remaining + 1 = m.unit.count - passed) ∧
        Settles c m.unit done.unit := by
  intro done passed
  have hloop := @transferLoop_compares m.unit.fixC64 m.unit.fixREU m.unit.count
    ⟨m.unit.c64Base, m.unit.reuBase, false, 0, m.unit.count⟩ m.armed rfl
  have hdone : done = _ := executeTransfer_eq hsize
  rw [htype] at hdone
  dsimp only at hloop hdone
  generalize transferLoop flatC64.toHost _ _ _ _ _ _ = looped at hloop hdone
  obtain ⟨hlooped, hc64, hreu, hfault, hremaining⟩ := hloop
  have hsettles := settles_settle looped.1 looped.2.unit
  have hunit : looped.2.unit = m.armed.unit := by
    rw [hlooped]
    rfl
  rw [hunit] at hsettles
  refine ⟨?_, ?_, ?_, looped.1, hfault, hc64, hreu, hremaining, ?_⟩
  · rw [hdone]
    refine Prod.ext ?_ ?_
    · show looped.2.host.mem = _
      rw [hlooped]
      rfl
    · show (settle looped.1 looped.2.unit).ram = _
      rw [ram_settle, hunit]
      rfl
  · rw [hdone]
    show looped.2.host.reads = _
    rw [hlooped]
    rfl
  · rw [hdone]
    show looped.2.touched = _
    rw [hlooped]
    rfl
  · rw [hdone]
    show Settles _ _ (settle looped.1 looped.2.unit)
    rw [hunit]
    exact { hsettles with }

end Issue

end REUMachine

end ScpuEmu
