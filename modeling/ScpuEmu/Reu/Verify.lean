import ScpuEmu.Reu.RoundTrip

/-!
# Verifying, and going on from a mismatch

A verify compares two blocks and stops at the first pair that differs, with the registers on
that pair, so that the same command goes on from there. The expansion address keeps 23 bits of
what was passed, and a unit of 16 MB decodes 24.
-/

namespace ScpuEmu

open Library

/-- The places of pair `i` of the programmed transfer. -/
def CREU.pairAt (u : CREU) (i : ℕ) : Addr × BitVec 32 :=
  (blockAddress u.fixC64 u.c64Base i, blockAddress u.fixREU u.reuBase i &&& u.addressMask)

theorem drop_blockPairs (mask : BitVec 32) (fixC64 fixREU : Bool) (c64 : Addr) (reu : BitVec 32)
    (n k : ℕ) : (blockPairs mask fixC64 fixREU c64 reu n).drop k = blockPairs mask fixC64 fixREU
      (blockAddress fixC64 c64 k) (blockAddress fixREU reu k) (n - k) := by
  induction k generalizing n c64 reu with
  | zero => rw [List.drop_zero, blockAddress_zero, blockAddress_zero, Nat.sub_zero]
  | succ k ih =>
      cases n with
      | zero =>
          rw [Nat.zero_sub]
          exact List.drop_nil
      | succ n =>
          rw [blockPairs_succ, List.drop_succ_cons, ih, blockAddress_succ, blockAddress_succ,
            Nat.succ_sub_succ]

namespace REUMachine

variable {m : REUMachine FlatC64} {selector command : Byte} {k : ℕ}

/-- Pair `k` is the first of the programmed pairs that differs. -/
structure FirstDifference (m : REUMachine FlatC64) (k : ℕ) : Prop where
  lt : k < m.unit.count
  differs : Differs m.memories (m.unit.pairAt k) = true
  agree : ∀ j < k, Differs m.memories (m.unit.pairAt j) = false

theorem length_pairs (u : CREU) : u.pairs.length = u.count := by
  rw [CREU.pairs, blockPairs, List.length_map, List.length_range]

theorem getElem_pairs (u : CREU) {i : ℕ} (hi : i < u.pairs.length) : u.pairs[i] = u.pairAt i := by
  simp only [CREU.pairs, blockPairs, List.getElem_map, List.getElem_range, CREU.pairAt]

theorem FirstDifference.findIdx_eq (h : FirstDifference m k) :
    m.unit.pairs.findIdx (Differs m.memories) = k := by
  have hlt : k < m.unit.pairs.length := by
    rw [length_pairs]
    exact h.lt
  refine (List.findIdx_eq hlt).mpr ⟨?_, fun j hj => ?_⟩
  · rw [getElem_pairs]
    exact h.differs
  · rw [getElem_pairs]
    exact h.agree j hj

theorem firstDifference_findIdx
    (h : m.unit.pairs.findIdx (Differs m.memories) < m.unit.count) :
    FirstDifference m (m.unit.pairs.findIdx (Differs m.memories)) := by
  rw [← length_pairs] at h
  refine ⟨?_, ?_, fun j hj => ?_⟩
  · rw [← length_pairs]
    exact h
  · rw [← getElem_pairs _ h]
    exact List.findIdx_getElem (w := h)
  · rw [← getElem_pairs _ (Nat.lt_trans hj h)]
    exact List.not_of_lt_findIdx hj

theorem findIdx_lt_iff : m.unit.pairs.findIdx (Differs m.memories) < m.unit.count ↔
    ∃ i < m.unit.count, Differs m.memories (m.unit.pairAt i) = true := by
  constructor
  · intro h
    exact ⟨_, h, (firstDifference_findIdx h).differs⟩
  · rintro ⟨i, hi, hdiffers⟩
    rw [← length_pairs] at hi ⊢
    refine List.findIdx_lt_length_of_exists ⟨_, List.getElem_mem hi, ?_⟩
    rw [getElem_pairs]
    exact hdiffers

/-- Any bytes may come to stand in the memories between two commands. -/
def withMemories (m : REUMachine FlatC64) (memories : Memories) : REUMachine FlatC64 :=
  { m with
    host := { m.host with mem := memories.1 }
    unit := { m.unit with ram := memories.2 } }

/-- The transfer advances both addresses and leaves them behind. -/
def Advances (m : REUMachine FlatC64) (command : Byte) : Prop :=
  command &&& 0x20#8 = 0 ∧ m.unit.fixC64 = false ∧ m.unit.fixREU = false

/-- What a verify does, and what the same command does after it stopped at a mismatch. -/
structure VerifyLaw (m : REUMachine FlatC64) (command : Byte) : Prop where
  memories : (m.issue flatC64 command).memories = m.memories
  fault : (m.issue flatC64 command).unit.fault = true ↔
    ∃ i < m.unit.count, Differs m.memories (m.unit.pairAt i) = true
  endOfBlock : (m.issue flatC64 command).unit.endOfBlock = true ↔
    (m.issue flatC64 command).unit.fault = false
  irqPending : (m.issue flatC64 command).unit.irqPending = (m.unit.irqPending ||
    (m.unit.irqMask &&& 0x80#8 != 0 &&
      ((m.issue flatC64 command).unit.endOfBlock && m.unit.irqMask &&& 0x40#8 != 0 ||
        (m.issue flatC64 command).unit.fault && m.unit.irqMask &&& 0x20#8 != 0)))
  stops : m.Advances command → ∀ k, FirstDifference m k →
    (m.issue flatC64 command).unit.c64Base = m.unit.c64Base + BitVec.ofNat 16 k ∧
      (m.issue flatC64 command).unit.reuBase.toNat = (m.unit.reuBase.toNat + k) % 2 ^ 23 ∧
      (m.issue flatC64 command).unit.length.toNat = (m.unit.count - k) % 2 ^ 16
  matched : m.Advances command → (∀ i < m.unit.count,
      Differs m.memories (m.unit.pairAt i) = false) →
    (m.issue flatC64 command).unit.c64Base = m.unit.c64Base + BitVec.ofNat 16 m.unit.count ∧
      (m.issue flatC64 command).unit.reuBase.toNat =
        (m.unit.reuBase.toNat + m.unit.count) % 2 ^ 23 ∧
      (m.issue flatC64 command).unit.length = 1
  resumes : m.Advances command → ∀ k, FirstDifference m k → ∀ memories : Memories,
    let stopped := (m.issue flatC64 command).withMemories memories
    let rest := m.unit.pairs.drop k
    let examined := rest.take (rest.findIdx (Differs memories) + 1)
    (stopped.issue flatC64 command).host.reads = stopped.host.reads ++ examined.map Prod.fst ∧
      (stopped.issue flatC64 command).touched = stopped.touched ++ examined.map Prod.snd

/-- A mismatch of a transfer that leaves its addresses behind lies where 23 bits of expansion
address lead. -/
def Nameable (m : REUMachine FlatC64) (command : Byte) : Prop :=
  m.Advances command → ∀ k, FirstDifference m k →
    m.unit.size.toNat ≤ 2 ^ 23 ∨ (m.unit.reuBase.toNat + k) % 2 ^ 24 < 2 ^ 23

/-! ### One command -/

section Issued

variable (hsize : m.unit.size ≠ 0) (hexec : CREU.executes command = true)
  (hverify : Transfer.ofCommand command = .verify)

include hsize hexec hverify

theorem issue_compares :
    let done := m.issue flatC64 command
    let passed := m.unit.pairs.findIdx (Differs m.memories)
    done.memories = m.memories ∧
      done.host.reads = m.host.reads ++ (m.unit.pairs.take (passed + 1)).map Prod.fst ∧
      done.touched = m.touched ++ (m.unit.pairs.take (passed + 1)).map Prod.snd ∧
      ∃ c : TransferCursor, c.fault = decide (passed < m.unit.count) ∧
        c.c64 = blockAddress m.unit.fixC64 m.unit.c64Base passed ∧
        c.reu = blockAddress m.unit.fixREU m.unit.reuBase passed ∧
        (passed < m.unit.count → c.remaining + 1 = m.unit.count - passed) ∧
        Settles c { m.unit with command := command } done.unit := by
  intro done
  have hdone : done = executeTransfer flatC64.toHost
      (m.mapUnit fun u => { u with command := command }) := issue_eq hsize hexec
  rw [hdone]
  exact executeTransfer_compares (m := m.mapUnit fun u => { u with command := command }) hsize
    hverify

theorem fault_issue : (m.issue flatC64 command).unit.fault =
    decide (m.unit.pairs.findIdx (Differs m.memories) < m.unit.count) := by
  obtain ⟨-, -, -, c, hfault, -, -, -, hsettles⟩ := issue_compares hsize hexec hverify
  rw [hsettles.fault, hfault]

/-- Where the registers stand after a verify that leaves them behind. -/
theorem registers_issue (h : m.Advances command) :
    let done := m.issue flatC64 command
    let passed := m.unit.pairs.findIdx (Differs m.memories)
    done.unit.c64Base = m.unit.c64Base + BitVec.ofNat 16 passed ∧
      done.unit.reuBase = (m.unit.reuBase + BitVec.ofNat 32 passed) &&& 0x07FFFFF#32 ∧
      done.unit.length = if passed < m.unit.count then BitVec.ofNat 16 (m.unit.count - passed)
        else 1 := by
  intro done passed
  obtain ⟨hload, hc64, hreu⟩ := h
  obtain ⟨-, -, -, c, hfault, hcursor, hcell, hremaining, hsettles⟩ :=
    issue_compares hsize hexec hverify
  have hauto : CREU.autoload { m.unit with command := command } = false := by
    show (command &&& 0x20#8 != 0) = false
    rw [hload]
    rfl
  have hbase := hsettles.c64Base
  have hexpansion := hsettles.reuBase
  have hlength := hsettles.length
  rw [hauto, if_neg Bool.false_ne_true] at hbase hexpansion hlength
  rw [hcursor, hc64] at hbase
  rw [hcell, hreu] at hexpansion
  refine ⟨hbase, hexpansion, hlength.trans ?_⟩
  rw [hfault]
  by_cases hlt : passed < m.unit.count
  · rw [if_pos (decide_eq_true hlt), if_pos hlt, hremaining hlt]
  · rw [if_neg (by rw [decide_eq_false hlt]; exact Bool.false_ne_true), if_neg hlt]

end Issued

theorem toNat_passed_mod (x : BitVec 32) (k : ℕ) :
    ((x + BitVec.ofNat 32 k) &&& 0x07FFFFF#32).toNat = (x.toNat + k) % 2 ^ 23 := by
  have hdvd : 2 ^ 23 ∣ 2 ^ 32 := Nat.pow_dvd_pow 2 (by decide)
  rw [BitVec.toNat_and, BitVec.toNat_add, BitVec.toNat_ofNat, Nat.add_mod_mod]
  refine (Nat.and_two_pow_sub_one_eq_mod _ 23).trans (Nat.mod_mod_of_dvd _ hdvd)

/-- A count survives its encoding in sixteen bits. -/
theorem count_setLength {n : ℕ} (hpos : 0 < n) (hle : n ≤ 0x10000) :
    (if BitVec.ofNat 16 n = 0 then 0x10000 else (BitVec.ofNat 16 n).toNat) = n := by
  rcases Nat.lt_or_eq_of_le hle with hlt | rfl
  · have hvalue : (BitVec.ofNat 16 n).toNat = n := by
      rw [BitVec.toNat_ofNat]
      exact Nat.mod_eq_of_lt hlt
    have hne : BitVec.ofNat 16 n ≠ 0 := by
      intro hzero
      rw [hzero] at hvalue
      exact absurd hvalue (Nat.ne_of_lt hpos)
    rw [if_neg hne, hvalue]
  · rfl

/-! ### Going on -/

theorem drop_pairs (hadvances : m.Advances command) (k : ℕ) : m.unit.pairs.drop k =
    blockPairs m.unit.addressMask false false (m.unit.c64Base + BitVec.ofNat 16 k)
      (m.unit.reuBase + BitVec.ofNat 32 k) (m.unit.count - k) := by
  rw [CREU.pairs, drop_blockPairs, hadvances.2.1, hadvances.2.2]
  rfl

section Resumed

variable (hfit : m.unit.Fitted selector) (hexec : CREU.executes command = true)
  (hverify : Transfer.ofCommand command = .verify)

include hfit hexec hverify

/-- The pairs that a stopped unit stands for are the rest of the block, if its expansion address
leads to the cell of the mismatch. -/
theorem pairs_stopped (hadvances : m.Advances command) (hk : FirstDifference m k) :
    (m.issue flatC64 command).unit.pairs =
      blockPairs m.unit.addressMask false false (m.unit.c64Base + BitVec.ofNat 16 k)
        ((m.unit.reuBase + BitVec.ofNat 32 k) &&& 0x07FFFFF#32) (m.unit.count - k) := by
  obtain ⟨-, -, -, c, -, -, -, -, hsettles⟩ := issue_compares hfit.present hexec hverify
  obtain ⟨hc64, hreu, hlength⟩ := registers_issue hfit.present hexec hverify hadvances
  have hle := (count_pos m.unit).2
  have hlt := hk.lt
  rw [hk.findIdx_eq] at hc64 hreu hlength
  rw [if_pos hlt] at hlength
  rw [CREU.pairs, CREU.fixC64, CREU.fixREU, CREU.count, hsettles.addressMask,
    hsettles.addressControl, hc64, hreu, hlength, count_setLength (by omega) (by omega)]
  show blockPairs m.unit.addressMask m.unit.fixC64 m.unit.fixREU _ _ _ = _
  rw [hadvances.2.1, hadvances.2.2]

/-- Bytes that change in between do not change what the registers stand for. -/
theorem resumed_examines (memories : Memories) :
    let stopped := (m.issue flatC64 command).withMemories memories
    let rest := (m.issue flatC64 command).unit.pairs
    let examined := rest.take (rest.findIdx (Differs memories) + 1)
    (stopped.issue flatC64 command).host.reads = stopped.host.reads ++ examined.map Prod.fst ∧
      (stopped.issue flatC64 command).touched = stopped.touched ++ examined.map Prod.snd := by
  intro stopped
  obtain ⟨-, -, -, c, -, -, -, -, hsettles⟩ := issue_compares hfit.present hexec hverify
  have hsize : stopped.unit.size ≠ 0 := by
    show (m.issue flatC64 command).unit.size ≠ 0
    rw [hsettles.size]
    exact hfit.present
  obtain ⟨-, hreads, htouched, -⟩ := issue_compares hsize hexec hverify
  exact ⟨hreads, htouched⟩

theorem resumes_of_nameable (hadvances : m.Advances command) (hk : FirstDifference m k)
    (hnamed : m.unit.size.toNat ≤ 2 ^ 23 ∨ (m.unit.reuBase.toNat + k) % 2 ^ 24 < 2 ^ 23) :
    (m.issue flatC64 command).unit.pairs = m.unit.pairs.drop k := by
  have hcell : ((m.unit.reuBase + BitVec.ofNat 32 k) &&& 0x07FFFFF#32) &&& m.unit.addressMask =
      (m.unit.reuBase + BitVec.ofNat 32 k) &&& m.unit.addressMask := by
    obtain ⟨j, -, hj, -, hsize⟩ := reuSize_eq selector (hfit.size_eq ▸ hfit.present)
    rw [← hfit.size_eq] at hsize
    apply BitVec.eq_of_toNat_eq
    rw [hfit.toNat_cell, hfit.toNat_cell_add, toNat_passed_mod]
    rcases hnamed with hsmall | hlow
    · have hdvd : m.unit.size.toNat ∣ 2 ^ 23 := by
        rw [hsize] at hsmall ⊢
        exact Nat.pow_dvd_pow 2 ((Nat.pow_le_pow_iff_right (by decide)).mp hsmall)
      exact Nat.mod_mod_of_dvd _ hdvd
    · have hdvd : m.unit.size.toNat ∣ 2 ^ 24 := hsize ▸ Nat.pow_dvd_pow 2 hj
      have hsame : (m.unit.reuBase.toNat + k) % 2 ^ 23 = (m.unit.reuBase.toNat + k) % 2 ^ 24 := by
        omega
      rw [hsame, Nat.mod_mod_of_dvd _ hdvd]
  rw [pairs_stopped hfit hexec hverify hadvances hk, drop_pairs hadvances]
  refine List.map_congr_left fun i _ => ?_
  exact Prod.ext rfl (cell_add hfit hcell i)

/-- The first pair examined again tells whether the registers were on the mismatch. -/
theorem nameable_of_resumes (hadvances : m.Advances command) (hk : FirstDifference m k)
    (hresumes : ∀ memories : Memories,
      let stopped := (m.issue flatC64 command).withMemories memories
      let rest := m.unit.pairs.drop k
      let examined := rest.take (rest.findIdx (Differs memories) + 1)
      (stopped.issue flatC64 command).touched = stopped.touched ++ examined.map Prod.snd) :
    m.unit.size.toNat ≤ 2 ^ 23 ∨ (m.unit.reuBase.toNat + k) % 2 ^ 24 < 2 ^ 23 := by
  obtain ⟨j, -, hj, -, hsize⟩ := reuSize_eq selector (hfit.size_eq ▸ hfit.present)
  rw [← hfit.size_eq] at hsize
  obtain ⟨-, htouched⟩ := resumed_examines hfit hexec hverify m.memories
  have hexamined := List.append_cancel_left (htouched.symm.trans (hresumes m.memories))
  obtain ⟨n, hn⟩ : ∃ n, m.unit.count - k = n + 1 := ⟨_, (Nat.succ_pred_eq_of_pos
    (Nat.sub_pos_of_lt hk.lt)).symm⟩
  rw [pairs_stopped hfit hexec hverify hadvances hk, drop_pairs hadvances, hn,
    blockPairs_succ, blockPairs_succ, List.take_succ_cons, List.take_succ_cons, List.map_cons,
    List.map_cons, List.cons.injEq] at hexamined
  have hcell := congrArg BitVec.toNat hexamined.1
  dsimp only at hcell
  rw [hfit.toNat_cell, hfit.toNat_cell_add, toNat_passed_mod, hsize] at hcell
  rcases Nat.lt_or_eq_of_le hj with hlt | rfl
  · left
    rw [hsize]
    exact Nat.pow_le_pow_right (by decide) (Nat.le_of_lt_succ hlt)
  · right
    omega

/-- A verify does what it should exactly if a mismatch at which it leaves its addresses behind
lies where 23 bits of expansion address lead. -/
theorem verify_law_iff : VerifyLaw m command ↔ Nameable m command := by
  constructor
  · intro hlaw hadvances k hk
    exact nameable_of_resumes hfit hexec hverify hadvances hk fun memories =>
      (hlaw.resumes hadvances k hk memories).2
  · intro hnameable
    have hfault := fault_issue hfit.present hexec hverify
    obtain ⟨hmemories, -, -, c, -, -, -, -, hsettles⟩ := issue_compares hfit.present hexec hverify
    have hend : (m.issue flatC64 command).unit.endOfBlock =
        !(m.issue flatC64 command).unit.fault := by
      rw [hsettles.endOfBlock, hsettles.fault]
    constructor
    · exact hmemories
    · rw [hfault, decide_eq_true_iff]
      exact findIdx_lt_iff
    · rw [hend]
      exact Iff.of_eq (Bool.not_eq_true' _)
    · rw [hend, hsettles.irqPending, hsettles.fault]
    · intro hadvances k hk
      obtain ⟨hc64, hreu, hlength⟩ := registers_issue hfit.present hexec hverify hadvances
      rw [hk.findIdx_eq] at hc64 hreu hlength
      rw [if_pos hk.lt] at hlength
      rw [hreu, hlength]
      exact ⟨hc64, toNat_passed_mod _ _, BitVec.toNat_ofNat _ _⟩
    · intro hadvances hagree
      have hpassed : m.unit.pairs.findIdx (Differs m.memories) = m.unit.count := by
        rw [← length_pairs]
        refine List.findIdx_eq_length_of_false fun p hp => ?_
        obtain ⟨i, hi, rfl⟩ := List.mem_iff_getElem.mp hp
        rw [getElem_pairs]
        rw [length_pairs] at hi
        exact hagree i hi
      obtain ⟨hc64, hreu, hlength⟩ := registers_issue hfit.present hexec hverify hadvances
      rw [hpassed] at hc64 hreu hlength
      rw [if_neg (Nat.lt_irrefl _)] at hlength
      rw [hreu]
      exact ⟨hc64, toNat_passed_mod _ _, hlength⟩
    · intro hadvances k hk memories
      have hrest := resumes_of_nameable hfit hexec hverify hadvances hk
        (hnameable hadvances k hk)
      have hexamines := resumed_examines hfit hexec hverify memories
      rw [hrest] at hexamines
      exact hexamines

end Resumed

/-! ### Across the eighth megabyte -/

/-- A unit of 16 MB, next to a C64 whose memory is blank but for one byte. -/
def largeREU : REUMachine FlatC64 where
  unit := CREU.construct.init 7
  host := ⟨fun a => if a = 1 then 1 else 0, []⟩
  touched := []
  started := 0

/-- A verify of two bytes, of which the second differs. -/
theorem verify_law_low : VerifyLaw (largeREU.programmed 0 0 2) 0x93 :=
  (@verify_law_iff (largeREU.programmed 0 0 2) 7 _ ⟨rfl, rfl, by decide⟩
    (by decide) (by decide)).mpr fun _ k hk => Or.inr (by
      have hlt : k < 2 := hk.lt
      show (0 + k) % 2 ^ 24 < 2 ^ 23
      omega)

/-- The unit after stashes of 64K each, one behind the other from the highest offset that its
registers can be given. -/
def climb : ℕ → REUMachine FlatC64
  | 0 => largeREU.programOffset flatC64 0x7FFFF
  | n + 1 => (climb n).continueWith flatC64 0 0 0x90

structure Climbed (n : ℕ) (m : REUMachine FlatC64) : Prop where
  fitted : m.unit.Fitted 7
  addressControl : m.unit.addressControl = 0
  c64Base : m.unit.c64Base = 0
  reuBase : m.unit.reuBase = BitVec.ofNat 32 (0x7FFFF + n * 0x10000)
  mem : m.host.mem = largeREU.host.mem
  blank : m.unit.ram 0x7FFFFF = 0 ∧ m.unit.ram 0x800000 = 0

theorem climbed_climb {n : ℕ} (hn : n ≤ 120) : Climbed n (climb n) := by
  induction n with
  | zero =>
      rw [climb, programOffset_eq (by decide)]
      exact ⟨⟨rfl, rfl, by decide⟩, rfl, rfl, by decide, rfl, rfl, rfl⟩
  | succ n ih =>
      have h := ih (Nat.le_of_succ_le hn)
      obtain ⟨m, hm⟩ : ∃ m, m = climb n := ⟨_, rfl⟩
      rw [← hm] at h
      obtain ⟨start, hstart⟩ : ∃ start : REUMachine FlatC64, start =
          m.mapUnit fun u => { u.setLength 0 with command := 0x90 } := ⟨_, rfl⟩
      have hdone : climb (n + 1) = executeTransfer flatC64.toHost start := by
        rw [climb, ← hm, continueWith_eq h.fitted.present, hstart]
        exact issue_eq (m := m.mapUnit fun u => u.setLength 0) h.fitted.present (by decide)
      have hfit : start.unit.Fitted 7 := hstart ▸ ⟨h.fitted.1, h.fitted.2, h.fitted.3⟩
      have hcontrol : start.unit.addressControl = 0 := hstart ▸ h.addressControl
      have hcommand : start.unit.command = 0x90 := hstart ▸ rfl
      have hcount : start.unit.count = 0x10000 := hstart ▸ rfl
      have hc64 : start.unit.c64Base = 0 := hstart ▸ h.c64Base
      have hreu : start.unit.reuBase = BitVec.ofNat 32 (0x7FFFF + n * 0x10000) :=
        hstart ▸ h.reuBase
      have hmem : start.host.mem = largeREU.host.mem := hstart ▸ h.mem
      have hram : start.unit.ram = m.unit.ram := hstart ▸ rfl
      have hfixC64 : start.unit.fixC64 = false := by rw [CREU.fixC64, hcontrol]; rfl
      have hfixREU : start.unit.fixREU = false := by rw [CREU.fixREU, hcontrol]; rfl
      have hauto : start.unit.autoload = false := by rw [CREU.autoload, hcommand]; rfl
      have htype : Transfer.ofCommand start.unit.command = .stash := by rw [hcommand]; rfl
      obtain ⟨hmemories, -, c, -, hcursor, hcell, hsettles⟩ :=
        executeTransfer_carries hfit.present (by rw [htype]; decide)
      -- the block ends below the cells that stay blank
      have houtside {b : BitVec 32} (hb : 0x7FFFFF ≤ b.toNat) (hb' : b.toNat ≤ 0x800000) :
          b ∉ start.unit.pairs.map Prod.snd := by
        rw [CREU.mem_snd_pairs hfixREU]
        rintro ⟨i, hi, rfl⟩
        rw [hfit.toNat_cell_add, hfit.size_eq, hreu, BitVec.toNat_ofNat] at hb hb'
        have hsize : (reuSizeFromSelector 7).toNat = 0x1000000 := rfl
        rw [hsize] at hb hb'
        omega
      rw [htype] at hmemories
      rw [← hdone] at hmemories hsettles
      have hbase := hsettles.c64Base
      have hexpansion := hsettles.reuBase
      rw [hauto, if_neg Bool.false_ne_true] at hbase hexpansion
      refine ⟨⟨?_, ?_, ?_⟩, ?_, ?_, ?_, ?_, ?_, ?_⟩
      · rw [hsettles.size, hfit.size_eq]
      · rw [hsettles.addressMask, hsettles.size, hfit.mask_eq]
      · rw [hsettles.size]
        exact hfit.present
      · rw [hsettles.addressControl, hcontrol]
      · rw [hbase, hcursor, hfixC64, hc64, hcount]
        rfl
      · rw [hexpansion, hcell, hfixREU, hreu, hcount]
        apply BitVec.eq_of_toNat_eq
        show ((BitVec.ofNat 32 (0x7FFFF + n * 0x10000) + BitVec.ofNat 32 0x10000) &&&
          0x07FFFFF#32).toNat = _
        rw [toNat_passed_mod, BitVec.toNat_ofNat, BitVec.toNat_ofNat]
        omega
      · rw [← hmem]
        exact congrArg Prod.fst hmemories
      · rw [← h.blank.1, ← hram]
        exact (congrFun (congrArg Prod.snd hmemories) _).trans
          (Transfer.carry_snd_of_not_mem .stash start.memories (houtside (by decide) (by decide)))
      · rw [← h.blank.2, ← hram]
        exact (congrFun (congrArg Prod.snd hmemories) _).trans
          (Transfer.carry_snd_of_not_mem .stash start.memories (houtside (by decide) (by decide)))

theorem resumes_elsewhere_of_climbed {top : REUMachine FlatC64} (h : Climbed 120 top) :
    let m := top.mapUnit fun u => u.setLength 2
    FirstDifference m 1 ∧ (m.unit.pairAt 1).2 = 0x800000 ∧
      (m.issue flatC64 0x93).unit.reuBase = 0 ∧ ¬VerifyLaw m 0x93 := by
  intro m
  have hfit : m.unit.Fitted 7 := ⟨h.fitted.1, h.fitted.2, h.fitted.3⟩
  have hfixC64 : m.unit.fixC64 = false := by
    show (top.unit.addressControl &&& 0x80#8 != 0) = false
    rw [h.addressControl]
    rfl
  have hfixREU : m.unit.fixREU = false := by
    show (top.unit.addressControl &&& 0x40#8 != 0) = false
    rw [h.addressControl]
    rfl
  have hadvances : m.Advances 0x93 := ⟨by decide, hfixC64, hfixREU⟩
  have hpair (i : ℕ) : m.unit.pairAt i =
      (0 + BitVec.ofNat 16 i, (0x7FFFFF#32 + BitVec.ofNat 32 i) &&& 0xFFFFFF#32) := by
    show (blockAddress m.unit.fixC64 top.unit.c64Base i,
      blockAddress m.unit.fixREU top.unit.reuBase i &&& top.unit.addressMask) = _
    rw [hfixC64, hfixREU, h.c64Base, h.reuBase, h.fitted.mask_eq, h.fitted.size_eq]
    rfl
  have hdiffers (p : Addr × BitVec 32) :
      Differs m.memories p = (largeREU.host.mem p.1 != top.unit.ram p.2) := by
    show (top.host.mem p.1 != _) = _
    rw [h.mem]
    rfl
  have hcount : m.unit.count = 2 := rfl
  have hsecond : (m.unit.pairAt 1).2 = 0x800000 := by
    rw [hpair]
    decide
  have hfirst : FirstDifference m 1 := by
    refine ⟨?_, ?_, fun j hj => ?_⟩
    · rw [hcount]
      exact Nat.one_lt_two
    · rw [hdiffers, hsecond, h.blank.2, hpair]
      decide
    · obtain rfl : j = 0 := Nat.lt_one_iff.mp hj
      have hcell : (m.unit.pairAt 0).2 = 0x7FFFFF := by
        rw [hpair]
        decide
      rw [hdiffers, hcell, h.blank.1, hpair]
      decide
  refine ⟨hfirst, hsecond, ?_, fun hlaw => ?_⟩
  · obtain ⟨-, hreu, -⟩ := registers_issue hfit.present (by decide) (by decide) hadvances
    have hbase : m.unit.reuBase = 0x7FFFFF#32 := h.reuBase
    rw [hreu, hfirst.findIdx_eq, hbase]
    decide
  · have hnamed := nameable_of_resumes hfit (by decide) (by decide) hadvances hfirst fun memories =>
      (hlaw.resumes hadvances 1 hfirst memories).2
    have hbase : m.unit.reuBase = 0x7FFFFF#32 := h.reuBase
    rw [hfit.size_eq, hbase] at hnamed
    revert hnamed
    decide

/-- After 120 stashes of 64K the unit stands on the last byte of its first 8 MB. A verify of two
bytes there stops at the second, and the same command goes on at the wrong end of the unit. -/
theorem verify_resumes_elsewhere :
    let m := (climb 120).mapUnit fun u => u.setLength 2
    FirstDifference m 1 ∧ (m.unit.pairAt 1).2 = 0x800000 ∧
      (m.issue flatC64 0x93).unit.reuBase = 0 ∧ ¬VerifyLaw m 0x93 :=
  resumes_elsewhere_of_climbed (climbed_climb (Nat.le_refl _))

end REUMachine

end ScpuEmu
