import ScpuEmu.Bus.Rad.ReadTiming
import ScpuEmu.Library.Appending
import ScpuEmu.Library.TransitionSystem

/-!
# What reaches a register

Reading a register of the C64 may clear it, and so may writing it twice. Whatever the bus does
between, each register is accessed on the port when the program accesses it, once and in the
same order.
-/

namespace ScpuEmu

open Library

/-- A call of the bus. -/
inductive BusOp
  | read (addr : Addr)
  | write (addr : Addr) (value : Byte)
  | readRAM (addr : Addr)
  | writeRAM (addr : Addr) (value : Byte)
  | writeBurst (writes : List C64BusWrite)
  | readBlock (addr : Addr) (length : ℕ)
  | sampleInterrupts
  | rasterLine
  | verifyC64CIA2DDRA (expected : Byte)
  | setTrafficHalted (halted : Bool)

/-- An access to an address on a cycle of its own: a byte that is written, or a read. -/
def PortCycle.accessAt (a : Addr) : PortCycle → Option (Option Byte)
  | .read b _ _ => if b = a then some none else none
  | .write b v _ _ _ => if b = a then some (some v) else none
  | .beginBurst _ | .burst _ _ _ | .endBurst => none

namespace CRADBus

variable {σ : Type} (p : RadPort σ)

def step (s : CRADBus σ) : BusOp → CRADBus σ
  | .read a => ((read p a).run s).2
  | .write a v => ((write p a v).run s).2
  | .readRAM a => ((readRAM p a).run s).2
  | .writeRAM a v => ((writeRAM p a v).run s).2
  | .writeBurst writes => ((writeBurst p writes).run s).2
  | .readBlock a n => ((readBlock p a n).run s).2
  | .sampleInterrupts => ((sampleInterrupts p).run s).2
  | .rasterLine => ((rasterLine p).run s).2
  | .verifyC64CIA2DDRA expected => ((verifyC64CIA2DDRA p expected).run s).2
  | .setTrafficHalted halted => { s with trafficHalted := halted }

/-- The accesses to an address on record. -/
def accessesAt (a : Addr) (s : CRADBus σ) : List (Option Byte) := s.log.filterMap (·.accessAt a)

/-- The points at which the direction register is verified, of an eye that has two or more. -/
def verifiedPoints (t : ReadTiming) : List (BitVec 16) :=
  let points := verificationPoints t
  if t.readTimingStart = 0 ∨ t.readTimingEnd < t.readTimingStart ∨ points.length < 2 then []
  else points

end CRADBus

/-- What decides how a call is carried out. -/
structure BusMode where
  halted : Bool
  reliable : Bool
  epoch : Bool
  verified : List (BitVec 16)

def CRADBus.mode {σ : Type} (s : CRADBus σ) : BusMode :=
  ⟨s.trafficHalted, s.sidPhysicalReliable, s.c128EpochEnabled, verifiedPoints s.readTiming⟩

/-- The addresses of a block. -/
def blockAddrs (addr : Addr) (length : ℕ) : List Addr :=
  match length with
  | 0 => []
  | n + 1 =>
      addr :: ((if addr = 0xE000 ∨ addr = 0xA000 then [addr] else []) ++
        (List.range n).map fun i => addr + BitVec.ofNat 16 (i + 1))

/-- The accesses to an address that a call asks for. A paddle that the bus cannot sample well is
sampled seventeen times, and the oscillator is not looked at. Bursts go to the RAM, but for those
that are carried out byte by byte. -/
def BusOp.asks (k : BusMode) (a : Addr) : BusOp → List (Option Byte)
  | .read b =>
      if !k.reliable && decide (b = 0xD41B) then []
      else if !k.reliable && (decide (b = 0xD419) || decide (b = 0xD41A)) then
        if b = a then List.replicate 17 none else []
      else if b = a then [none]
      else []
  | .readRAM b => if b = a then [none] else []
  | .write b v | .writeRAM b v => if b = a then [some v] else []
  | .writeBurst writes =>
      if k.epoch then writes.flatMap fun w => if w.addr = a then [some w.value] else [] else []
  | .readBlock b n => (blockAddrs b n).flatMap fun x => if x = a then [none] else []
  | .verifyC64CIA2DDRA _ =>
      k.verified.flatMap fun _ => if 0xDD02 = a then List.replicate 5 none else []
  | .sampleInterrupts | .rasterLine | .setTrafficHalted _ => []

/-- While traffic is halted no call is carried out but the verification, which does not ask. -/
def BusOp.carriedOut (k : BusMode) (a : Addr) : BusOp → List (Option Byte)
  | .verifyC64CIA2DDRA expected => (BusOp.verifyC64CIA2DDRA expected).asks k a
  | op => if k.halted then [] else op.asks k a

def BusMode.after (k : BusMode) : BusOp → BusMode
  | .setTrafficHalted halted => { k with halted := halted }
  | _ => k

/-- The accesses to an address that a series of calls asks for. -/
def BusOp.asked (a : Addr) : BusMode → List BusOp → List (Option Byte)
  | _, [] => []
  | k, op :: ops => op.carriedOut k a ++ asked a (k.after op) ops

namespace CRADBus

variable {σ : Type} {p : RadPort σ} {k : BusMode} {a b : Addr} {v : Byte}

/-- In a mode, a program accesses an address so. -/
abbrev Makes {α : Type} (k : BusMode) (a : Addr) (l : List (Option Byte)) (m : RadM σ α) : Prop :=
  Appends mode (accessesAt a) k l m

theorem makes_cycle (c : PortCycle) : Makes k a (c.accessAt a).toList (cycle p c) := by
  intro s h
  refine ⟨h, ?_⟩
  show (s.log ++ [c]).filterMap _ = s.log.filterMap _ ++ _
  rw [List.filterMap_append]
  congr 1

theorem silent_turnaround (needed : Bool) :
    Makes k a [] (modify fun s : CRADBus σ => { s with busWriteTurnaroundNeeded := needed }) :=
  appends_modify (fun _ => rfl) fun _ => rfl

theorem makes_radDirectRead (forceRAM : Bool) :
    Makes k a (if b = a then [none] else []) (radDirectRead p b forceRAM) := by
  refine appends_get_bind fun s _ => ?_
  have hcycle := makes_cycle (p := p) (k := k) (a := a)
    (.read b (s.samplePoint b) (s.ioSelected b forceRAM))
  rw [PortCycle.accessAt, apply_ite Option.toList] at hcycle
  exact hcycle.bind_silent fun v => (silent_turnaround true).silent_bind fun _ => appends_pure v

theorem makes_radDirectWrite (forceRAM : Bool) :
    Makes k a (if b = a then [some v] else []) (radDirectWrite p b v forceRAM) := by
  refine appends_get_bind fun s _ => ?_
  have hcycle := makes_cycle (p := p) (k := k) (a := a)
    (.write b v s.writePoints s.idlePasses (s.ioSelected b forceRAM))
  rw [PortCycle.accessAt, apply_ite Option.toList] at hcycle
  exact hcycle.bind_silent fun _ => silent_turnaround false

theorem makes_speek : Makes k a (if b = a then [none] else []) (speek p b) :=
  makes_radDirectRead false

theorem makes_spoke : Makes k a (if b = a then [some v] else []) (spoke p b v) :=
  makes_radDirectWrite false

/-! ### What touches no register -/

theorem silent_read (hb : b ≠ a) (forceRAM : Bool) : Makes k a [] (radDirectRead p b forceRAM) := by
  have h := makes_radDirectRead (p := p) (k := k) (a := a) (b := b) forceRAM
  rwa [if_neg hb] at h

theorem silent_write (hb : b ≠ a) (forceRAM : Bool) :
    Makes k a [] (radDirectWrite p b v forceRAM) := by
  have h := makes_radDirectWrite (p := p) (k := k) (a := a) (b := b) (v := v) forceRAM
  rwa [if_neg hb] at h

theorem silent_hostCycles : Makes k a [] (hostCycles p) :=
  fun _ h => ⟨h, (List.append_nil _).symm⟩

theorem silent_countTransfers (n : ℕ) : Makes k a [] (countTransfers n : RadM σ PUnit) :=
  appends_modify (fun _ => rfl) fun _ => rfl

theorem silent_countReads (n : ℕ) : Makes k a [] (countReads n : RadM σ PUnit) :=
  appends_modify (fun _ => rfl) fun _ => rfl

theorem silent_countWrites (n : ℕ) : Makes k a [] (countWrites n : RadM σ PUnit) :=
  appends_modify (fun _ => rfl) fun _ => rfl

theorem silent_countPrime : Makes k a [] (countPrime : RadM σ PUnit) :=
  appends_modify (fun _ => rfl) fun _ => rfl

theorem silent_countSerial : Makes k a [] (countSerial b : RadM σ PUnit) :=
  appends_onlyIf fun _ => appends_modify (fun _ => rfl) fun _ => rfl

theorem silent_noteTransfer : Makes k a [] (noteTransfer p) :=
  silent_hostCycles.silent_bind fun _ => appends_modify (fun _ => rfl) fun _ => rfl

theorem silent_onSIDModel {α : Type}
    (op : BitVec 64 → C64VideoStandard → SIDModel → α × SIDModel) :
    Makes k a [] (onSIDModel p op) :=
  fun _ h => ⟨h, (List.append_nil _).symm⟩

theorem silent_primeAfterIdle (ha : 0x02FE ≠ a) : Makes k a [] (primeAfterIdle p) := by
  refine silent_hostCycles.silent_bind fun now => appends_get_bind fun s _ => ?_
  refine Appends.silent_bind (appends_onlyIf fun _ => ?_) fun _ =>
    appends_modify (fun _ => rfl) fun _ => rfl
  exact (silent_read ha false).silent_bind fun _ => silent_countPrime

theorem silent_primeWrite (ha : 0x02FE ≠ a) (forceRAM : Bool) :
    Makes k a [] (primeWrite p forceRAM) := by
  refine silent_hostCycles.silent_bind fun now => appends_get_bind fun s _ => ?_
  exact appends_onlyIf fun _ => (silent_write ha forceRAM).silent_bind fun _ => silent_countPrime

theorem silent_sidObserveWrite : Makes k a [] (sidObserveWrite p b v) :=
  appends_onlyIf fun _ => silent_onSIDModel _

theorem silent_sampleInterrupts : Makes k a [] (sampleInterrupts p) :=
  fun _ h => ⟨h, (List.append_nil _).symm⟩

theorem silent_rasterAttempts (hhigh : 0xD011 ≠ a) (hlow : 0xD012 ≠ a) (n : ℕ) :
    Makes k a [] (rasterAttempts p n) := by
  induction n with
  | zero => exact appends_pure _
  | succ n ih =>
      refine (silent_read hhigh false).silent_bind fun hiBefore => ?_
      refine (silent_read hlow false).silent_bind fun lo => ?_
      refine (silent_read hhigh false).silent_bind fun hiAfter => ?_
      refine (silent_countReads 3).silent_bind fun _ => ?_
      refine (silent_countTransfers 3).silent_bind fun _ => ?_
      refine silent_noteTransfer.silent_bind fun _ => appends_ite (fun _ => ih) fun _ => ?_
      refine appends_get_bind fun s _ => appends_ite (fun _ => ?_) fun _ => ih
      exact Appends.silent_bind (appends_onlyIf fun _ => appends_modify (fun _ => rfl) fun _ => rfl)
        fun _ => appends_pure _

/-! ### The calls -/

/-- What the bus accesses for its own ends lies elsewhere. -/
structure Elsewhere (a : Addr) : Prop where
  prime : 0x02FE ≠ a
  high : 0xD011 ≠ a
  low : 0xD012 ≠ a

/-- A call that does nothing while traffic is halted. -/
theorem makes_unless_halted {α : Type} {l : List (Option Byte)} {x : α} {m : CRADBus σ → RadM σ α}
    (hm : ∀ s, s.mode = k → Makes k a l (m s)) :
    Makes k a (if k.halted then [] else l) (do
      let s ← get
      if s.trafficHalted then pure x else m s) := by
  refine appends_get_bind fun s hs => ?_
  have hhalted : s.trafficHalted = k.halted := congrArg BusMode.halted hs
  rw [hhalted]
  exact appends_ite_ite (appends_pure x) (hm s hs)

variable (ha : Elsewhere a)

theorem makes_pot : Makes k a (if b = a then List.replicate 17 none else [])
    (sidReadPOTFiltered p b) := by
  have hcollect := appends_collect (fun x => makes_speek (p := p) (k := k) (a := a) (b := x))
    (List.replicate 17 b)
  have hreads : (List.replicate 17 b).flatMap (fun x => if x = a then [none] else []) =
      if b = a then List.replicate 17 (none : Option Byte) else [] := by
    split
    next h => simp [h]
    next h => simp [h]
  rw [hreads] at hcollect
  refine hcollect.bind_silent fun values => (silent_countReads 16).silent_bind fun _ => ?_
  exact fun s h => ⟨h, (List.append_nil _).symm⟩

include ha in
theorem makes_readRegister : Makes k a (if b = a then [none] else []) (readRegister p b) := by
  refine (silent_primeAfterIdle ha.prime).silent_bind fun _ => makes_speek.bind_silent fun v => ?_
  exact (silent_countTransfers 1).silent_bind fun _ => silent_countSerial.silent_bind fun _ =>
    appends_pure v

include ha

theorem makes_read : Makes k a ((BusOp.read b).carriedOut k a) (read p b) := by
  refine makes_unless_halted fun s hs => ?_
  refine Appends.bind_silent (appends_get_bind fun s hs => ?_) fun v =>
    (silent_countReads 1).silent_bind fun _ => appends_pure v
  have hreliable : s.sidPhysicalReliable = k.reliable := congrArg BusMode.reliable hs
  rw [hreliable]
  exact appends_ite_ite (silent_onSIDModel _) (appends_ite_ite makes_pot (makes_readRegister ha))

theorem makes_readRAM : Makes k a ((BusOp.readRAM b).carriedOut k a) (readRAM p b) := by
  refine makes_unless_halted fun s hs => ?_
  refine (silent_primeAfterIdle ha.prime).silent_bind fun _ => ?_
  refine (makes_radDirectRead true).bind_silent fun v => silent_noteTransfer.silent_bind fun _ => ?_
  exact (silent_countTransfers 1).silent_bind fun _ => (silent_countReads 1).silent_bind fun _ =>
    appends_pure v

theorem makes_writeRAM : Makes k a ((BusOp.writeRAM b v).carriedOut k a) (writeRAM p b v) := by
  refine makes_unless_halted fun s hs => ?_
  refine (silent_primeWrite ha.prime true).silent_bind fun _ => ?_
  refine (makes_radDirectWrite true).bind_silent fun _ => ?_
  refine silent_noteTransfer.silent_bind fun _ => ?_
  exact (silent_countTransfers 1).silent_bind fun _ => silent_countWrites 1

theorem makes_write : Makes k a ((BusOp.write b v).carriedOut k a) (write p b v) := by
  refine makes_unless_halted fun s hs => ?_
  refine silent_sidObserveWrite.silent_bind fun _ => ?_
  refine (silent_primeWrite ha.prime false).silent_bind fun _ => ?_
  refine makes_spoke.bind_silent fun _ => silent_noteTransfer.silent_bind fun _ => ?_
  exact (silent_countTransfers 1).silent_bind fun _ => silent_countSerial.silent_bind fun _ =>
    silent_countWrites 1

omit ha in
theorem silent_burst (w : C64BusWrite) : Makes k a [] (burstPoke p w) :=
  appends_get_bind fun _ _ => (makes_cycle _).bind_silent fun _ => appends_pure _

omit ha in
theorem silent_burstRun (w : C64BusWrite) (ws : List C64BusWrite) :
    Makes k a [] (burstRun p w ws) := by
  refine appends_get_bind fun s _ => ?_
  refine Appends.silent_bind (appends_get_bind fun s _ => ?_) fun _ => ?_
  · exact (makes_cycle _).silent_bind fun _ => silent_turnaround false
  · refine (silent_burst w).silent_bind fun _ => ?_
    refine (appends_onlyIf fun _ => silent_burst w).silent_bind fun _ => ?_
    have hrest := appends_collect (fun w => silent_burst (p := p) (k := k) (a := a) w) ws
    rw [List.flatMap_eq_nil_iff.mpr fun _ _ => rfl] at hrest
    exact hrest.silent_bind fun _ => (makes_cycle _).bind_silent fun _ => appends_pure _

omit ha in
theorem silent_countBurst (n : ℕ) : Makes k a [] (countBurst p n) :=
  Appends.silent_bind (appends_modify (fun _ => rfl) fun _ => rfl) fun _ =>
    silent_noteTransfer.silent_bind fun _ => silent_countTransfers n

omit ha in
theorem makes_writeBurst (writes : List C64BusWrite) :
    Makes k a ((BusOp.writeBurst writes).carriedOut k a) (writeBurst p writes) := by
  refine appends_get_bind fun s hs => ?_
  have hhalted : s.trafficHalted = k.halted := congrArg BusMode.halted hs
  have hepoch : s.c128EpochEnabled = k.epoch := congrArg BusMode.epoch hs
  cases writes with
  | nil =>
      have hasks : (BusOp.writeBurst []).asks k a = [] := ite_self _
      have hnone : (BusOp.writeBurst []).carriedOut k a = [] := by
        show (if k.halted then [] else (BusOp.writeBurst []).asks k a) = []
        rw [hasks, ite_self]
      rw [hnone]
      exact appends_pure _
  | cons w ws =>
      dsimp only
      rw [hhalted, hepoch]
      refine appends_ite_ite (appends_pure _) (appends_ite_ite ?_
        ((silent_burstRun w ws).silent_bind fun _ => silent_countBurst _))
      exact (appends_collect (fun w => makes_spoke) (w :: ws)).bind_silent fun _ =>
        silent_countBurst _

omit ha in
theorem makes_rereadROM : Makes k a
    ((if b = 0xE000 ∨ b = 0xA000 then [b] else []).flatMap fun x => if x = a then [none] else [])
    (rereadROM p b) := by
  unfold rereadROM onlyIf
  split
  · rw [List.flatMap_singleton]
    exact makes_speek.bind_silent fun _ => silent_countReads 1
  · exact appends_pure _

omit ha in
theorem makes_readBlock (n : ℕ) :
    Makes k a ((BusOp.readBlock b n).carriedOut k a) (readBlock p b n) := by
  refine makes_unless_halted fun s hs => ?_
  cases n with
  | zero => exact appends_pure _
  | succ n =>
      rw [BusOp.asks, blockAddrs, List.flatMap_cons, List.flatMap_append, List.flatMap_map]
      refine makes_speek.bind fun v => makes_rereadROM.bind fun _ => ?_
      refine (appends_collect (fun i => makes_speek) (List.range n)).bind_silent fun vs => ?_
      exact (silent_countReads (n + 1)).silent_bind fun _ => appends_pure _

theorem makes_rasterLine : Makes k a (BusOp.rasterLine.carriedOut k a) (rasterLine p) := by
  refine makes_unless_halted fun s _ => ?_
  exact (silent_primeAfterIdle ha.prime).silent_bind fun _ => silent_rasterAttempts ha.high ha.low 4

omit ha in
theorem makes_repeated (n : ℕ) : Makes k a (if b = a then List.replicate n none else [])
    (collect (fun _ => speek p b) (List.range n)) := by
  have hcollect := appends_collect
    (fun _ : ℕ => makes_speek (p := p) (k := k) (a := a) (b := b)) (List.range n)
  have hreads : (List.range n).flatMap (fun _ => if b = a then [none] else []) =
      if b = a then List.replicate n (none : Option Byte) else [] := by
    by_cases h : b = a
    · simp only [if_pos h]
      rw [← List.map_eq_flatMap, List.map_const', List.length_range]
    · simp [h]
  rwa [hreads] at hcollect

omit ha in
/-- Two reads at a point that do not count, and three that do. -/
theorem makes_observeDDRA (sample : BitVec 16) :
    Makes k a (if 0xDD02 = a then List.replicate 5 none else []) (observeDDRA p sample) := by
  have hset : Makes k a [] (setWaitCycleRead (σ := σ) sample) :=
    appends_modify (fun _ => rfl) fun _ => rfl
  have hfive : (if 0xDD02 = a then List.replicate 2 none else []) ++
      (if 0xDD02 = a then List.replicate 3 none else []) =
        if 0xDD02 = a then List.replicate 5 (none : Option Byte) else [] := by
    split <;> rfl
  rw [← hfive]
  exact hset.silent_bind fun _ => (makes_repeated 2).bind fun _ => makes_repeated 3

omit ha in
theorem makes_verifyC64CIA2DDRA (expected : Byte) :
    Makes k a ((BusOp.verifyC64CIA2DDRA expected).carriedOut k a)
      (verifyC64CIA2DDRA p expected) := by
  refine appends_get_bind fun s hs => ?_
  have hpoints : verifiedPoints s.readTiming = k.verified := congrArg BusMode.verified hs
  have hasks : (BusOp.verifyC64CIA2DDRA expected).carriedOut k a =
      (verifiedPoints s.readTiming).flatMap fun _ =>
        if 0xDD02 = a then List.replicate 5 none else [] := by
    rw [hpoints]
    rfl
  rw [hasks]
  by_cases heye : s.readTiming.readTimingStart = 0 ∨
      s.readTiming.readTimingEnd < s.readTiming.readTimingStart
  · have hnone : verifiedPoints s.readTiming = [] := if_pos (heye.imp_right .inl)
    rw [hnone, if_pos heye]
    exact appends_pure _
  by_cases hfew : (verificationPoints s.readTiming).length < 2
  · have hnone : verifiedPoints s.readTiming = [] := if_pos (.inr (.inr hfew))
    rw [hnone, if_neg heye, if_pos hfew]
    exact appends_pure _
  · have hall : verifiedPoints s.readTiming = verificationPoints s.readTiming := by
      refine if_neg fun h => ?_
      exact h.elim (fun h => heye (.inl h)) fun h => h.elim (fun h => heye (.inr h)) hfew
    rw [hall, if_neg heye, if_neg hfew]
    refine (appends_collect makes_observeDDRA _).bind_silent fun observed => ?_
    refine (silent_countReads _).silent_bind fun _ => ?_
    exact Appends.silent_bind (appends_modify (fun _ => rfl) fun _ => rfl) fun _ => appends_pure _

/-! ### Runs -/

/-- A call changes the mode only if it is meant to, and makes the accesses that it stands for. -/
theorem makes_step (s : CRADBus σ) (op : BusOp) :
    (step p s op).mode = s.mode.after op ∧
      accessesAt a (step p s op) = accessesAt a s ++ op.carriedOut s.mode a := by
  have hnone : (if s.mode.halted then [] else ([] : List (Option Byte))) = [] := ite_self _
  cases op with
  | read b => exact makes_read ha s rfl
  | write b v => exact makes_write ha s rfl
  | readRAM b => exact makes_readRAM ha s rfl
  | writeRAM b v => exact makes_writeRAM ha s rfl
  | writeBurst writes => exact makes_writeBurst writes s rfl
  | readBlock b n => exact makes_readBlock n s rfl
  | rasterLine => exact makes_rasterLine ha s rfl
  | sampleInterrupts =>
      rw [show BusOp.sampleInterrupts.carriedOut s.mode a = [] from hnone]
      exact silent_sampleInterrupts s rfl
  | verifyC64CIA2DDRA expected => exact makes_verifyC64CIA2DDRA expected s rfl
  | setTrafficHalted halted =>
      rw [show (BusOp.setTrafficHalted halted).carriedOut s.mode a = [] from hnone,
        List.append_nil]
      exact ⟨rfl, rfl⟩

/-- Over any calls, an address that the bus does not access for its own ends is accessed as often
as they ask for, in their order and with their values. -/
theorem accessesAt_run (s : CRADBus σ) (ops : List BusOp) :
    accessesAt a (run (step p) s ops) = accessesAt a s ++ BusOp.asked a s.mode ops := by
  induction ops generalizing s with
  | nil => exact (List.append_nil _).symm
  | cons op ops ih =>
      obtain ⟨hmode, haccesses⟩ := makes_step (p := p) ha s op
      rw [run_cons, ih, hmode, haccesses, List.append_assoc, BusOp.asked]

/-- A port with nothing behind it. -/
def openPort : RadPort Unit where
  perform _ _ := (0xFF, ⟨⟩)
  levels _ := ((false, false), ⟨⟩)
  hostCycles _ := (1, ⟨⟩)
  hostCyclesPast _ _ _ := (1, ⟨⟩)
  observeRaster _ _ := ⟨⟩

omit ha in
/-- The interrupt register of a CIA, which a read clears, between accesses to other addresses. -/
theorem accessesAt_run_icr :
    accessesAt 0xDC0D (run (step openPort) (acquired ⟨⟩)
      [.read 0xDC0D, .rasterLine, .write 0xDC0D 0x7F, .setTrafficHalted true, .read 0xDC0D,
        .setTrafficHalted false, .read 0xD419, .readBlock 0xDC0C 2]) =
      [none, some 0x7F, none] := by
  have helsewhere : Elsewhere 0xDC0D := ⟨by decide, by decide, by decide⟩
  rw [accessesAt_run helsewhere]
  rfl

end CRADBus

end ScpuEmu
