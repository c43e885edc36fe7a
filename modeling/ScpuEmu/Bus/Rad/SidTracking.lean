import ScpuEmu.Bus.Rad.SidModel
import Mathlib.Data.List.Basic
import Mathlib.Logic.Function.Iterate

/-!
# The stand-in keeps time

The chip clocks its oscillator once a cycle. The stand-in catches up whenever it is looked at,
keeps the part of a cycle that is left over, and so never drifts from the chip, however often
the program polls it.
-/

namespace ScpuEmu

/-- Voice 3 of the chip. -/
structure Voice where
  freq : BitVec 16
  control : Byte
  phase : BitVec 24

/-- The registers that change it. -/
inductive VoiceRegister
  | freqLow
  | freqHigh
  | control

namespace VoiceRegister

def addr : VoiceRegister → Addr
  | freqLow => 0xD40E
  | freqHigh => 0xD40F
  | control => 0xD412

end VoiceRegister

namespace Voice

def test (v : Voice) : Bool := decide (v.control &&& 0x08 ≠ 0)

/-- A clock of the chip. -/
def tick (v : Voice) : Voice :=
  if v.test then v else { v with phase := v.phase + v.freq.setWidth 24 }

def write (v : Voice) : VoiceRegister → Byte → Voice
  | .freqLow, value => { v with freq := v.freq &&& 0xFF00 ||| value.setWidth 16 }
  | .freqHigh, value => { v with freq := v.freq &&& 0x00FF ||| value.setWidth 16 <<< 8 }
  | .control, value =>
      { v with control := value, phase := if value &&& 0x08 ≠ 0 then 0 else v.phase }

/-- The top of the accumulator, where a waveform is selected. -/
def osc3 (v : Voice) : Byte :=
  if v.test ∨ v.control &&& 0xF0 = 0 then 0 else (v.phase >>> 16).setWidth 8

theorem iterate_tick (v : Voice) (n : ℕ) : tick^[n] v =
    if v.test then v else { v with phase := v.phase + BitVec.ofNat 24 n * v.freq.setWidth 24 } := by
  induction n with
  | zero => simp
  | succ n ih =>
      rw [Function.iterate_succ_apply', ih]
      split
      next htest => exact if_pos htest
      next htest =>
        refine (if_neg htest).trans ?_
        rw [BitVec.ofNat_add, BitVec.add_mul, ← BitVec.add_assoc, BitVec.one_mul]

end Voice

/-- An access to the voice at a time in cycles of the ARM: a write, or a look at it. -/
structure VoiceAccess where
  time : ℕ
  write : Option (VoiceRegister × Byte)

/-- The accesses follow one another within `2 ^ 44` cycles, before the counter wraps. -/
def Timely : ℕ → List VoiceAccess → Prop
  | _, [] => True
  | last, e :: rest =>
      last ≤ e.time ∧ e.time ≤ last + 2 ^ 44 ∧ e.time < 2 ^ 64 ∧ Timely e.time rest

namespace Voice

/-- The clocks of the chip that are over at a time, counted from another. -/
def clocks (video : C64VideoStandard) (origin time : ℕ) : ℕ :=
  (time - origin) * sidHz video / armClockHz

def apply (v : Voice) : Option (VoiceRegister × Byte) → Voice
  | none => v
  | some (register, value) => v.write register value

/-- The chip through a series of accesses. -/
def follow (video : C64VideoStandard) (origin : ℕ) : ℕ → List VoiceAccess → Voice → Voice
  | _, [], v => v
  | last, e :: rest, v =>
      follow video origin e.time rest
        ((tick^[clocks video origin e.time - clocks video origin last] v).apply e.write)

end Voice

namespace SIDModel

def voice (m : SIDModel) : Voice := ⟨m.freq, m.control, m.phase.setWidth 24⟩

/-- One access. -/
def access (video : C64VideoStandard) (m : SIDModel) (e : VoiceAccess) : SIDModel :=
  match e.write with
  | none => (m.readOSC3 (BitVec.ofNat 64 e.time) video).2
  | some (register, value) => m.observeWrite (BitVec.ofNat 64 e.time) video register.addr value

/-- The stand-in has caught up with a time, counted from another. -/
structure UpTo (m : SIDModel) (video : C64VideoStandard) (origin time : ℕ) : Prop where
  begun : 0 < origin
  later : origin ≤ time
  inRange : time < 2 ^ 64
  lastHost : m.lastHost = BitVec.ofNat 64 time
  remainder : m.remainder.toNat = (time - origin) * sidHz video % armClockHz

variable {m : SIDModel} {video : C64VideoStandard} {origin time : ℕ}

/-- A division in two steps, with the rest carried over. -/
theorem carried_div (a b h : ℕ) (hpos : 0 < h) :
    (b + a % h) / h = (a + b) / h - a / h ∧ (b + a % h) % h = (a + b) % h := by
  have hsplit : a + b = b + a % h + h * (a / h) := by
    have := Nat.mod_add_div a h
    omega
  rw [hsplit, Nat.add_mul_div_left _ _ hpos, Nat.add_mul_mod_self_left]
  exact ⟨(Nat.add_sub_cancel _ _).symm, rfl⟩

theorem sidHz_le (video : C64VideoStandard) : sidHz video ≤ 1022727 := by
  unfold sidHz
  split <;> omega

/-- The accumulator has 24 bits. -/
theorem phase_advance (phase : BitVec 32) (n : BitVec 64) (freq : BitVec 16) :
    ((phase.setWidth 64 + n * freq.setWidth 64).setWidth 32 &&& 0xFFFFFF).setWidth 24 =
      phase.setWidth 24 + n.setWidth 24 * freq.setWidth 24 := by
  have hmask (x : BitVec 32) : (x &&& 0xFFFFFF).setWidth 24 = x.setWidth 24 := by
    apply BitVec.eq_of_toNat_eq
    rw [BitVec.toNat_setWidth, BitVec.toNat_and, BitVec.toNat_setWidth]
    exact (congrArg (· % 2 ^ 24) (Nat.and_two_pow_sub_one_eq_mod _ 24)).trans (Nat.mod_mod _ _)
  rw [hmask, BitVec.setWidth_setWidth_of_le _ (by decide), BitVec.setWidth_add _ _ (by decide),
    BitVec.setWidth_mul _ _ (by decide), BitVec.setWidth_setWidth_of_le _ (by decide),
    BitVec.setWidth_setWidth_of_le _ (by decide)]

/-- What catching up does, in exact arithmetic. -/
theorem UpTo.advance (h : m.UpTo video origin time) {now : ℕ} (hlate : time ≤ now)
    (hsoon : now ≤ time + 2 ^ 44) (hrange : now < 2 ^ 64) :
    (m.advance (BitVec.ofNat 64 now) video).UpTo video origin now ∧
      (m.advance (BitVec.ofNat 64 now) video).voice =
        Voice.tick^[Voice.clocks video origin now - Voice.clocks video origin time] m.voice := by
  obtain ⟨hbegun, hlater, hinRange, hlast, hremainder⟩ := h
  have hstarted : m.lastHost ≠ 0 := by
    rw [hlast]
    intro hzero
    have hmod := congrArg BitVec.toNat hzero
    rw [BitVec.toNat_ofNat, Nat.mod_eq_of_lt hinRange] at hmod
    exact absurd hmod (by simp; omega)
  have hscaled : ((BitVec.ofNat 64 now - m.lastHost) * BitVec.ofNat 64 (sidHz video) +
      m.remainder).toNat =
        (now - time) * sidHz video + (time - origin) * sidHz video % armClockHz := by
    have helapsed : (BitVec.ofNat 64 now - m.lastHost).toNat = now - time := by
      rw [hlast]
      bv_omega
    have hhz := sidHz_le video
    have hproduct : (now - time) * sidHz video ≤ 2 ^ 44 * 1022727 :=
      Nat.mul_le_mul (by omega) hhz
    have hrest : (time - origin) * sidHz video % armClockHz < armClockHz :=
      Nat.mod_lt _ (by decide)
    have hclock : armClockHz = 1400000000 := rfl
    rw [BitVec.toNat_add, BitVec.toNat_mul, helapsed, BitVec.toNat_ofNat, hremainder,
      Nat.mod_eq_of_lt (show sidHz video < 2 ^ 64 by omega), Nat.mod_eq_of_lt (by omega),
      Nat.mod_eq_of_lt (by omega)]
  have hsum : (time - origin) * sidHz video + (now - time) * sidHz video =
      (now - origin) * sidHz video := by
    rw [← Nat.add_mul]
    congr 1
    omega
  obtain ⟨hclocks, hrest⟩ := carried_div ((time - origin) * sidHz video)
    ((now - time) * sidHz video) armClockHz (by decide)
  rw [hsum] at hclocks hrest
  have hhertz : (BitVec.ofNat 64 armClockHz).toNat = armClockHz := rfl
  rw [SIDModel.advance, if_neg hstarted]
  refine ⟨⟨hbegun, by omega, hrange, rfl, ?_⟩, ?_⟩
  · rw [BitVec.toNat_umod, hscaled, hhertz]
    exact hrest
  · have hquotient : (((BitVec.ofNat 64 now - m.lastHost) * BitVec.ofNat 64 (sidHz video) +
        m.remainder) / BitVec.ofNat 64 armClockHz).toNat =
          Voice.clocks video origin now - Voice.clocks video origin time := by
      rw [BitVec.toNat_udiv, hscaled, hhertz]
      exact hclocks
    rw [Voice.iterate_tick, ← hquotient]
    have hsame : m.voice.test = m.test := rfl
    rw [hsame]
    by_cases htest : m.test = true
    · simp only [voice, if_pos htest]
    · simp only [voice, if_neg htest, phase_advance, BitVec.ofNat_toNat]

/-- One access brings the stand-in to where the chip is. -/
theorem UpTo.access (h : m.UpTo video origin time) {e : VoiceAccess} (hlate : time ≤ e.time)
    (hsoon : e.time ≤ time + 2 ^ 44) (hrange : e.time < 2 ^ 64) :
    (access video m e).UpTo video origin e.time ∧ (access video m e).voice =
      (Voice.tick^[Voice.clocks video origin e.time - Voice.clocks video origin time]
        m.voice).apply e.write := by
  obtain ⟨hupTo, hvoice⟩ := h.advance hlate hsoon hrange
  rw [SIDModel.access]
  rw [← hvoice]
  cases hwrite : e.write with
  | none => exact ⟨hupTo, rfl⟩
  | some w =>
      obtain ⟨register, value⟩ := w
      obtain ⟨hbegun, hlater, hinRange, hlast, hremainder⟩ := hupTo
      cases register with
      | freqLow => exact ⟨⟨hbegun, hlater, hinRange, hlast, hremainder⟩, rfl⟩
      | freqHigh => exact ⟨⟨hbegun, hlater, hinRange, hlast, hremainder⟩, rfl⟩
      | control =>
          exact ⟨⟨hbegun, hlater, hinRange, hlast, hremainder⟩,
            congrArg (Voice.mk _ value) (apply_ite (BitVec.setWidth 24) _ _ _)⟩

theorem UpTo.run (h : m.UpTo video origin time) (accesses : List VoiceAccess)
    (htimely : Timely time accesses) :
    (accesses.foldl (SIDModel.access video) m).voice =
      Voice.follow video origin time accesses m.voice := by
  induction accesses generalizing m time with
  | nil => rfl
  | cons e rest ih =>
      obtain ⟨hlate, hsoon, hrange, hrest⟩ := htimely
      obtain ⟨hupTo, hvoice⟩ := h.access hlate hsoon hrange
      rw [List.foldl_cons, Voice.follow, ← hvoice]
      exact ih hupTo hrest

end SIDModel

/-! ### Looks do not matter -/

namespace Voice

variable {video : C64VideoStandard} {origin last : ℕ}

theorem clocks_mono {a b : ℕ} (h : a ≤ b) : clocks video origin a ≤ clocks video origin b :=
  Nat.div_le_div_right (Nat.mul_le_mul_right _ (Nat.sub_le_sub_right h _))

/-- A chip that has been clocked up to a time in between. -/
theorem follow_from {between : ℕ} (hlast : last ≤ between) {e : VoiceAccess} (he : between ≤ e.time)
    (rest : List VoiceAccess) (v : Voice) :
    follow video origin between (e :: rest)
        (tick^[clocks video origin between - clocks video origin last] v) =
      follow video origin last (e :: rest) v := by
  have hlow : clocks video origin last ≤ clocks video origin between := clocks_mono hlast
  have hhigh : clocks video origin between ≤ clocks video origin e.time := clocks_mono he
  rw [follow, follow, ← Function.iterate_add_apply]
  congr 3
  omega

theorem le_of_timely {accesses : List VoiceAccess} (h : Timely last accesses) :
    ∀ e ∈ accesses, last ≤ e.time := by
  induction accesses generalizing last with
  | nil => simp
  | cons e rest ih =>
      exact List.forall_mem_cons.mpr ⟨h.1, fun e' he' => h.1.trans (ih h.2.2.2 e' he')⟩

/-- The chip depends on the writes alone. -/
theorem follow_writes (accesses : List VoiceAccess) {time : ℕ}
    (h : Timely last (accesses ++ [⟨time, none⟩])) (v : Voice) :
    follow video origin last (accesses ++ [⟨time, none⟩]) v =
      follow video origin last (accesses.filter (·.write.isSome) ++ [⟨time, none⟩]) v := by
  induction accesses generalizing last v with
  | nil => rfl
  | cons e rest ih =>
      obtain ⟨hlate, -, -, hrest⟩ := h
      rw [List.cons_append, follow, ih hrest]
      cases hwrite : e.write with
      | some w =>
          rw [List.filter_cons_of_pos (by simp [hwrite]), List.cons_append, follow, hwrite]
      | none =>
          rw [List.filter_cons_of_neg (by simp [hwrite]), apply]
          have hlater := le_of_timely hrest
          cases hwrites : rest.filter (·.write.isSome) with
          | nil => exact follow_from hlate (hlater ⟨time, none⟩ (by simp)) [] v
          | cons e' rest' =>
              have hmem : e' ∈ rest := List.mem_of_mem_filter (hwrites ▸ List.mem_cons_self)
              exact follow_from hlate (hlater e' (List.mem_append_left _ hmem)) _ v

end Voice

namespace SIDModel

theorem osc3_voice (m : SIDModel) :
    (if m.test ∨ m.control &&& 0xF0 = 0 then (0 : Byte) else (m.phase >>> 16).setWidth 8) =
      m.voice.osc3 := by
  have hbyte : (m.phase >>> 16).setWidth 8 = (m.phase.setWidth 24 >>> 16).setWidth 8 := by
    ext i hi
    simp
    omega
  rw [hbyte]
  rfl

/-- Whatever the program wrote to the voice and however often it looked, what it sees is what a
chip shows that was clocked all the time and only saw the writes. -/
theorem osc3_follows_writes (video : C64VideoStandard) {origin time : ℕ} (hbegun : 0 < origin)
    (accesses : List VoiceAccess) (h : Timely origin (accesses ++ [⟨time, none⟩])) :
    let m := accesses.foldl (access video) (construct.advance (BitVec.ofNat 64 origin) video)
    (m.readOSC3 (BitVec.ofNat 64 time) video).1 =
      (Voice.follow video origin origin (accesses.filter (·.write.isSome) ++ [⟨time, none⟩])
        ⟨0, 0, 0⟩).osc3 := by
  intro m
  have hrange : origin < 2 ^ 64 := by
    cases accesses with
    | nil => exact h.1.trans_lt h.2.2.1
    | cons e rest => exact h.1.trans_lt h.2.2.1
  have hstart : (construct.advance (BitVec.ofNat 64 origin) video).UpTo video origin origin :=
    ⟨hbegun, le_rfl, hrange, rfl, by simp [advance, construct]⟩
  have hvoice := hstart.run (accesses ++ [⟨time, none⟩]) h
  rw [List.foldl_append, Voice.follow_writes accesses h] at hvoice
  exact (osc3_voice _).trans (congrArg Voice.osc3 hvoice)

/-- A sawtooth that goes around in 256 clocks, after a millisecond and four looks. -/
def sawAccesses : List VoiceAccess :=
  [⟨1000, some (.freqHigh, 0xFF)⟩, ⟨1500, some (.freqLow, 0xFF)⟩, ⟨2000, some (.control, 0x20)⟩,
    ⟨3000, none⟩, ⟨400000, none⟩, ⟨400001, none⟩, ⟨1000000, none⟩]

theorem osc3_follows_writes_saw :
    (Voice.follow .pal 1000 1000 (sawAccesses.filter (·.write.isSome) ++ [⟨1401000, none⟩])
      ⟨0, 0, 0⟩).osc3 = 0xD8 := by
  have htimely : Timely 1000 (sawAccesses ++ [⟨1401000, none⟩]) := by simp [sawAccesses, Timely]
  exact (osc3_follows_writes .pal (by decide) sawAccesses htimely).symm.trans (by decide)

end SIDModel

end ScpuEmu
