import ScpuEmu.Reu.Blocks
import Mathlib.Data.Nat.ModEq

/-!
# What transfers undo

No transfer without a fixed address names a place twice: it moves at most 64K, and a unit holds
128K or more. So a fetch brings back what a stash took away, a swap undoes a swap, and the rest
of both memories is left alone. With autoload the registers are as they were programmed.
-/

namespace ScpuEmu

open Library

/-! ### The places of a block -/

section Places

variable {u : CREU} {selector : Byte}

theorem CREU.mem_fst_pairs (hc64 : u.fixC64 = false) {a : Addr} :
    a ∈ u.pairs.map Prod.fst ↔ ∃ i < u.count, a = u.c64Base + BitVec.ofNat 16 i := by
  simp only [CREU.pairs, blockPairs, List.map_map, List.mem_map, List.mem_range, hc64,
    Function.comp_apply, blockAddress, Bool.false_eq_true, if_false, eq_comm]

theorem CREU.mem_snd_pairs (hreu : u.fixREU = false) {b : BitVec 32} :
    b ∈ u.pairs.map Prod.snd ↔
      ∃ i < u.count, b = (u.reuBase + BitVec.ofNat 32 i) &&& u.addressMask := by
  simp only [CREU.pairs, blockPairs, List.map_map, List.mem_map, List.mem_range, hreu,
    Function.comp_apply, blockAddress, Bool.false_eq_true, if_false, eq_comm]

/-- A block of up to 64K does not come round to its own start in the C64. -/
theorem CREU.nodup_fst_pairs (hc64 : u.fixC64 = false) : (u.pairs.map Prod.fst).Nodup := by
  rw [CREU.pairs, blockPairs, List.map_map, hc64]
  refine List.Nodup.map_on (fun i hi j hj heq => ?_) List.nodup_range
  have hcount := (REUMachine.count_pos u).2
  have hi := List.mem_range.mp hi
  have hj := List.mem_range.mp hj
  have heq : u.c64Base + BitVec.ofNat 16 i = u.c64Base + BitVec.ofNat 16 j := heq
  have hword := congrArg BitVec.toNat ((BitVec.add_right_inj _).mp heq)
  rw [BitVec.toNat_ofNat, BitVec.toNat_ofNat, Nat.mod_eq_of_lt (by omega),
    Nat.mod_eq_of_lt (by omega)] at hword
  exact hword

/-- Nor in the expansion, of which every unit has more. -/
theorem CREU.Fitted.nodup_snd_pairs (hfit : u.Fitted selector) (hreu : u.fixREU = false) :
    (u.pairs.map Prod.snd).Nodup := by
  obtain ⟨k, hk, -, -, hsize⟩ := reuSize_eq selector (hfit.size_eq ▸ hfit.present)
  rw [← hfit.size_eq] at hsize
  have hlarge : 2 ^ 17 ≤ u.size.toNat := hsize ▸ Nat.pow_le_pow_right (by decide) hk
  have hcount := (REUMachine.count_pos u).2
  rw [CREU.pairs, blockPairs, List.map_map, hreu]
  refine List.Nodup.map_on (fun i hi j hj heq => ?_) List.nodup_range
  have hi := List.mem_range.mp hi
  have hj := List.mem_range.mp hj
  have hcell : (u.reuBase.toNat + i) % u.size.toNat = (u.reuBase.toNat + j) % u.size.toNat := by
    rw [← hfit.toNat_cell_add, ← hfit.toNat_cell_add]
    exact congrArg BitVec.toNat heq
  have hmod : i ≡ j [MOD u.size.toNat] := Nat.ModEq.add_left_cancel' _ hcell
  exact Nat.ModEq.eq_of_lt_of_lt hmod (by omega) (by omega)

end Places

/-! ### Carrying there and back -/

section Carry

variable {pairs : List (Addr × BitVec 32)}

theorem Transfer.carry_fst_of_not_mem (type : Transfer) (m : Memories) {a : Addr}
    (h : a ∉ pairs.map Prod.fst) : (type.carry pairs m).1 a = m.1 a := by
  cases type with
  | stash => rfl
  | fetch =>
      refine copyAlong_of_not_mem m.2 m.1 ?_
      rw [List.map_map]
      exact h
  | swap => exact exchangeAlong_fst_of_not_mem m h
  | verify => rfl

theorem Transfer.carry_snd_of_not_mem (type : Transfer) (m : Memories) {b : BitVec 32}
    (h : b ∉ pairs.map Prod.snd) : (type.carry pairs m).2 b = m.2 b := by
  cases type with
  | stash => exact copyAlong_of_not_mem m.1 m.2 h
  | fetch => rfl
  | swap => exact exchangeAlong_snd_of_not_mem m h
  | verify => rfl

end Carry

namespace REUMachine

variable {ω : Type} {m : REUMachine FlatC64} {selector command : Byte}

/-- The addresses and the length freshly programmed. -/
def programmed (m : REUMachine ω) (c64 : Addr) (reu : BitVec 32) (length : BitVec 16) :
    REUMachine ω :=
  m.mapUnit fun u => ((u.setC64Base c64).setREUBase reu).setLength length

/-- Program the addresses and the length, byte by byte. -/
def program (host : PlainHost ω) (m : REUMachine ω) (c64 : Addr) (reu : BitVec 32)
    (length : BitVec 16) : REUMachine ω :=
  let m := m.store host 0xDF02 (c64.setWidth 8)
  let m := m.store host 0xDF03 ((c64 >>> 8).setWidth 8)
  let m := m.programOffset host reu
  let m := m.store host 0xDF07 (length.setWidth 8)
  m.store host 0xDF08 ((length >>> 8).setWidth 8)

theorem two_bytes (before v : BitVec 16) :
    (((before &&& 0xFF00#16) ||| (v.setWidth 8).setWidth 16) &&& 0x00FF#16) |||
      ((v >>> 8).setWidth 8).setWidth 16 <<< 8 = v := by
  apply BitVec.eq_of_getLsbD_eq
  intro i hi
  interval_cases i <;> simp

/-- The bytes of an address that the bank register can hold program that address. -/
theorem program_eq {host : PlainHost ω} {m : REUMachine ω} (hsize : m.unit.size ≠ 0) (c64 : Addr)
    {reu : BitVec 32} (hreu : reu.toNat < 2 ^ 19) (length : BitVec 16) :
    m.program host c64 reu length = m.programmed c64 reu length := by
  have hstore (m : REUMachine ω) (hsize : m.unit.size ≠ 0) (addr : Addr) (v : Byte)
      (haddr : 0xDF00#16 ≤ addr ∧ addr ≤ 0xDF0A#16) (hne : addr ≠ 0xDF01) :
      m.store host addr v = m.mapUnit fun u => u.writeRegister addr v :=
    store_register hsize v haddr hne
  obtain ⟨m₁, h₁⟩ : ∃ m₁, m₁ = m.mapUnit fun u => u.setC64Base c64 := ⟨_, rfl⟩
  obtain ⟨m₂, h₂⟩ : ∃ m₂, m₂ = m₁.mapUnit fun u => u.setREUBase reu := ⟨_, rfl⟩
  have hsize₁ : m₁.unit.size ≠ 0 := h₁ ▸ hsize
  have hsize₂ : m₂.unit.size ≠ 0 := h₂ ▸ hsize₁
  have hc64 : (m.store host 0xDF02 (c64.setWidth 8)).store host 0xDF03 ((c64 >>> 8).setWidth 8) =
      m₁ := by
    obtain ⟨low, hlow⟩ :
        ∃ low, low = m.mapUnit fun u => u.writeRegister 0xDF02 (c64.setWidth 8) := ⟨_, rfl⟩
    rw [hstore m hsize 0xDF02 _ (by decide) (by decide), ← hlow,
      hstore low (hlow ▸ hsize) 0xDF03 _ (by decide) (by decide), hlow, h₁]
    exact congrArg (fun v => m.mapUnit fun u => u.setC64Base v) (two_bytes m.unit.c64Base c64)
  have hlength : (m₂.store host 0xDF07 (length.setWidth 8)).store host 0xDF08
      ((length >>> 8).setWidth 8) = m₂.mapUnit fun u => u.setLength length := by
    obtain ⟨low, hlow⟩ :
        ∃ low, low = m₂.mapUnit fun u => u.writeRegister 0xDF07 (length.setWidth 8) := ⟨_, rfl⟩
    rw [hstore m₂ hsize₂ 0xDF07 _ (by decide) (by decide), ← hlow,
      hstore low (hlow ▸ hsize₂) 0xDF08 _ (by decide) (by decide), hlow]
    exact congrArg (fun v => m₂.mapUnit fun u => u.setLength v) (two_bytes m₂.unit.length length)
  have hbase : m₁.programOffset host reu = m₂ := by
    rw [programOffset_eq hsize₁, base_eq_self hreu, h₂]
  show (((((m.store host _ _).store host _ _).programOffset host reu).store host _ _).store host
    _ _) = _
  rw [hc64, hbase, hlength, h₂, h₁]
  rfl

/-- What any command does to the memories and to the unit. -/
theorem issue_spec (hsize : m.unit.size ≠ 0) (hexec : CREU.executes command = true) :
    let done := m.issue flatC64 command
    done.memories = (Transfer.ofCommand command).carry m.unit.pairs m.memories ∧
      ∃ c, Settles c { m.unit with command := command } done.unit := by
  intro done
  have hdone : done = executeTransfer flatC64.toHost
      (m.mapUnit fun u => { u with command := command }) := issue_eq hsize hexec
  obtain ⟨commanded, hcommanded⟩ :
      ∃ commanded, commanded = m.mapUnit fun u => { u with command := command } := ⟨_, rfl⟩
  have htype : commanded.unit.command = command := by rw [hcommanded]; rfl
  have hsize' : commanded.unit.size ≠ 0 := hcommanded ▸ hsize
  rw [← hcommanded] at hdone
  by_cases hverify : Transfer.ofCommand command = .verify
  · obtain ⟨hmemories, -, -, c, -, -, -, -, hsettles⟩ :=
      executeTransfer_compares hsize' (htype.symm ▸ hverify)
    rw [← hdone] at hmemories hsettles
    rw [hmemories, hverify]
    subst hcommanded
    exact ⟨rfl, c, hsettles⟩
  · obtain ⟨hmemories, -, c, -, -, -, hsettles⟩ :=
      executeTransfer_carries hsize' (htype.symm ▸ hverify)
    rw [← hdone] at hmemories hsettles
    rw [hmemories, htype]
    subst hcommanded
    exact ⟨rfl, c, hsettles⟩

theorem fitted_issue (hfit : m.unit.Fitted selector) (hexec : CREU.executes command = true) :
    (m.issue flatC64 command).unit.Fitted selector := by
  obtain ⟨-, c, hsettles⟩ := issue_spec hfit.present hexec
  constructor
  · rw [hsettles.size]
    exact hfit.size_eq
  · rw [hsettles.addressMask, hsettles.size]
    exact hfit.mask_eq
  · rw [hsettles.size]
    exact hfit.present

section Programmed

variable (c64 : Addr) (reu : BitVec 32) (length : BitVec 16)

/-- The same registers stand for the same pairs again after a command. -/
theorem pairs_programmed_issue (hsize : m.unit.size ≠ 0) (hexec : CREU.executes command = true)
    (host : FlatC64) :
    (REUMachine.programmed { m.issue flatC64 command with host := host } c64 reu
      length).unit.pairs =
      (m.programmed c64 reu length).unit.pairs := by
  obtain ⟨-, c, hsettles⟩ := issue_spec hsize hexec
  show blockPairs (m.issue flatC64 command).unit.addressMask
    (m.issue flatC64 command).unit.fixC64 (m.issue flatC64 command).unit.fixREU c64 reu
    (if length = 0 then 0x10000 else length.toNat) = _
  rw [CREU.fixC64, CREU.fixREU, hsettles.addressMask, hsettles.addressControl]
  rfl

theorem stash_fetch (hfit : m.unit.Fitted selector) (hc64 : m.unit.fixC64 = false)
    (hreu : m.unit.fixREU = false) {stash fetch : Byte} (hstash : CREU.executes stash = true)
    (hstashes : Transfer.ofCommand stash = .stash) (hfetch : CREU.executes fetch = true)
    (hfetches : Transfer.ofCommand fetch = .fetch) (host : FlatC64) {i : ℕ}
    (hi : i < (m.programmed c64 reu length).unit.count) :
    ((REUMachine.programmed
        { (m.programmed c64 reu length).issue flatC64 stash with host := host } c64 reu
        length).issue flatC64 fetch).host.mem (c64 + BitVec.ofNat 16 i) =
      m.host.mem (c64 + BitVec.ofNat 16 i) := by
  have hfit' : (m.programmed c64 reu length).unit.Fitted selector := ⟨hfit.1, hfit.2, hfit.3⟩
  have hc64' : (m.programmed c64 reu length).unit.fixC64 = false := hc64
  obtain ⟨hstashed, -⟩ := issue_spec hfit'.present hstash
  have hpairs := pairs_programmed_issue (m := m.programmed c64 reu length) c64 reu length
    hfit'.present hstash host
  have hfit₁ := fitted_issue hfit' hstash
  obtain ⟨p, hp, hplace⟩ : ∃ p ∈ (m.programmed c64 reu length).unit.pairs,
      p.1 = c64 + BitVec.ofNat 16 i :=
    List.mem_map.mp ((CREU.mem_fst_pairs hc64').mpr ⟨i, hi, rfl⟩)
  generalize (m.programmed c64 reu length).issue flatC64 stash = stashed at *
  have hfit₂ : (REUMachine.programmed { stashed with host := host } c64 reu
      length).unit.size ≠ 0 := hfit₁.present
  obtain ⟨hfetched, -⟩ := issue_spec hfit₂ hfetch
  rw [hstashes] at hstashed
  rw [hfetches, hpairs] at hfetched
  rw [← hplace]
  refine (congrFun (congrArg Prod.fst hfetched) p.1).trans ?_
  have hram : stashed.unit.ram =
      copyAlong m.host.mem (m.programmed c64 reu length).unit.pairs m.unit.ram :=
    congrArg Prod.snd hstashed
  show copyAlong stashed.unit.ram _ host.mem p.1 = _
  rw [hram]
  exact copyAlong_copyAlong m.host.mem host.mem m.unit.ram (CREU.nodup_fst_pairs hc64')
    (hfit'.nodup_snd_pairs hreu) hp

theorem swap_swap (hfit : m.unit.Fitted selector) (hc64 : m.unit.fixC64 = false)
    (hreu : m.unit.fixREU = false) {swap swap' : Byte} (hswap : CREU.executes swap = true)
    (hswaps : Transfer.ofCommand swap = .swap) (hswap' : CREU.executes swap' = true)
    (hswaps' : Transfer.ofCommand swap' = .swap) :
    ((((m.programmed c64 reu length).issue flatC64 swap).programmed c64 reu length).issue flatC64
      swap').memories = m.memories := by
  have hfit' : (m.programmed c64 reu length).unit.Fitted selector := ⟨hfit.1, hfit.2, hfit.3⟩
  have hc64' : (m.programmed c64 reu length).unit.fixC64 = false := hc64
  obtain ⟨hfirst, -⟩ := issue_spec hfit'.present hswap
  have hpairs := pairs_programmed_issue (m := m.programmed c64 reu length) c64 reu length
    hfit'.present hswap ((m.programmed c64 reu length).issue flatC64 swap).host
  have hfit₁ := fitted_issue hfit' hswap
  generalize (m.programmed c64 reu length).issue flatC64 swap = swapped at *
  have hsize : (swapped.programmed c64 reu length).unit.size ≠ 0 := hfit₁.present
  obtain ⟨hsecond, -⟩ := issue_spec hsize hswap'
  have hagain : (swapped.programmed c64 reu length).unit.pairs =
      (m.programmed c64 reu length).unit.pairs := hpairs
  have hbetween : (swapped.programmed c64 reu length).memories = swapped.memories := rfl
  rw [hsecond, hswaps', hagain, hbetween, hfirst, hswaps]
  exact exchangeAlong_exchangeAlong m.memories (CREU.nodup_fst_pairs hc64')
    (hfit'.nodup_snd_pairs hreu)

/-- With autoload a command leaves the registers as they were programmed. -/
theorem autoload_keeps (hsize : m.unit.size ≠ 0) (hexec : CREU.executes command = true)
    (hload : command &&& 0x20#8 ≠ 0) :
    let start := m.programmed c64 reu length
    let done := start.issue flatC64 command
    (done.unit.c64Base = c64 ∧ done.unit.reuBase = reu ∧ done.unit.length = length) ∧
      done.unit.pairs = start.unit.pairs := by
  intro start done
  obtain ⟨-, c, hsettles⟩ := issue_spec (m := start) hsize hexec
  have hauto : CREU.autoload { start.unit with command := command } = true :=
    bne_iff_ne.mpr hload
  have hbase := hsettles.c64Base
  have hreu := hsettles.reuBase
  have hlength := hsettles.length
  rw [hauto, if_pos rfl] at hbase hreu hlength
  refine ⟨⟨hbase, hreu, hlength⟩, ?_⟩
  rw [CREU.pairs, CREU.fixC64, CREU.fixREU, CREU.count, hsettles.addressMask,
    hsettles.addressControl, hbase, hreu, hlength]
  rfl

/-- Next to a C64 of plain memory, with no fixed address: a fetch brings back what a stash of
the same block has taken, a second swap undoes a swap, no transfer touches a byte outside its two
blocks, and under autoload a command leaves the registers standing for the same transfer. -/
theorem transfer_round_trips (m : REUMachine FlatC64) (hfit : m.unit.Fitted selector)
    (hc64 : m.unit.fixC64 = false) (hreu : m.unit.fixREU = false) (c64 : Addr) (reu : BitVec 32)
    (length : BitVec 16) :
    let start := m.programmed c64 reu length
    let n := start.unit.count
    (reu.toNat < 2 ^ 19 → m.program flatC64 c64 reu length = start) ∧
      (∀ stash fetch, CREU.executes stash = true → Transfer.ofCommand stash = .stash →
        CREU.executes fetch = true → Transfer.ofCommand fetch = .fetch → ∀ host : FlatC64,
        ∀ i < n, ((REUMachine.programmed { start.issue flatC64 stash with host := host } c64 reu
          length).issue flatC64 fetch).host.mem (c64 + BitVec.ofNat 16 i) =
            m.host.mem (c64 + BitVec.ofNat 16 i)) ∧
      (∀ swap swap', CREU.executes swap = true → Transfer.ofCommand swap = .swap →
        CREU.executes swap' = true → Transfer.ofCommand swap' = .swap →
        (((start.issue flatC64 swap).programmed c64 reu length).issue flatC64 swap').memories =
          m.memories) ∧
      (∀ command, CREU.executes command = true →
        (∀ a, (∀ i < n, a ≠ c64 + BitVec.ofNat 16 i) →
          (start.issue flatC64 command).host.mem a = m.host.mem a) ∧
        ∀ b, (∀ i < n, b ≠ (reu + BitVec.ofNat 32 i) &&& m.unit.addressMask) →
          (start.issue flatC64 command).unit.ram b = m.unit.ram b) ∧
      (∀ command, CREU.executes command = true → command &&& 0x20#8 ≠ 0 →
        let done := start.issue flatC64 command
        (done.unit.c64Base = c64 ∧ done.unit.reuBase = reu ∧ done.unit.length = length) ∧
          done.memories = (Transfer.ofCommand command).carry start.unit.pairs start.memories ∧
          (done.issue flatC64 command).memories =
            (Transfer.ofCommand command).carry start.unit.pairs done.memories) := by
  intro start n
  have hsize : start.unit.size ≠ 0 := hfit.present
  refine ⟨fun h => program_eq hfit.present c64 h length, ?_, ?_, ?_, ?_⟩
  · intro stash fetch hstash hstashes hfetch hfetches host i hi
    exact stash_fetch c64 reu length hfit hc64 hreu hstash hstashes hfetch hfetches host hi
  · intro swap swap' hswap hswaps hswap' hswaps'
    exact swap_swap c64 reu length hfit hc64 hreu hswap hswaps hswap' hswaps'
  · intro command hexec
    obtain ⟨hmemories, -⟩ := issue_spec hsize hexec
    have hstartC64 : start.unit.fixC64 = false := hc64
    have hstartREU : start.unit.fixREU = false := hreu
    constructor
    · intro a houtside
      refine (congrFun (congrArg Prod.fst hmemories) a).trans
        (Transfer.carry_fst_of_not_mem _ _ fun ha => ?_)
      obtain ⟨i, hi, heq⟩ := (CREU.mem_fst_pairs hstartC64).mp ha
      exact houtside i hi heq
    · intro b houtside
      refine (congrFun (congrArg Prod.snd hmemories) b).trans
        (Transfer.carry_snd_of_not_mem _ _ fun hb => ?_)
      obtain ⟨i, hi, heq⟩ := (CREU.mem_snd_pairs hstartREU).mp hb
      exact houtside i hi heq
  · intro command hexec hload done
    obtain ⟨hregisters, hpairs⟩ := autoload_keeps c64 reu length hfit.present hexec hload
    obtain ⟨hmemories, -⟩ := issue_spec hsize hexec
    have hsize' : done.unit.size ≠ 0 := (fitted_issue (m := start) ⟨hfit.1, hfit.2, hfit.3⟩
      hexec).present
    obtain ⟨hagain, -⟩ := issue_spec hsize' hexec
    rw [hpairs] at hagain
    exact ⟨hregisters, hmemories, hagain⟩

end Programmed

/-- A unit of 128K next to a C64, with other bytes in each cell of a page and other bytes
on the two sides. -/
def patternedREU : REUMachine FlatC64 where
  unit := { CREU.construct.init 2 with ram := fun b => 0xA5 ^^^ b.setWidth 8 }
  host := ⟨fun a => a.setWidth 8, []⟩
  touched := []
  started := 0

theorem fitted_patternedREU : patternedREU.unit.Fitted 2 := ⟨rfl, rfl, by decide⟩

/-- A block that wraps on both sides comes back into a blank C64, and survives two swaps. -/
theorem transfer_round_trips_wrapping :
    (∀ i < (patternedREU.programmed 0xFFFF 0x1FFFF 2).unit.count,
      ((REUMachine.programmed
        { (patternedREU.programmed 0xFFFF 0x1FFFF 2).issue flatC64 0x90 with
          host := ⟨fun _ => 0, []⟩ } 0xFFFF 0x1FFFF 2).issue flatC64 0x91).host.mem
            (0xFFFF + BitVec.ofNat 16 i) =
        patternedREU.host.mem (0xFFFF + BitVec.ofNat 16 i)) ∧
      ((((patternedREU.programmed 0xFFFF 0x1FFFF 2).issue flatC64 0x92).programmed 0xFFFF
        0x1FFFF 2).issue flatC64 0x82).memories = patternedREU.memories := by
  obtain ⟨-, hfetch, hswap, -⟩ :=
    transfer_round_trips patternedREU fitted_patternedREU rfl rfl 0xFFFF 0x1FFFF 2
  exact ⟨hfetch 0x90 0x91 (by decide) (by decide) (by decide) (by decide) ⟨fun _ => 0, []⟩,
    hswap 0x92 0x82 (by decide) (by decide) (by decide) (by decide)⟩

end REUMachine

end ScpuEmu
