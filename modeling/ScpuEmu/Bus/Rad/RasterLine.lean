import ScpuEmu.Bus.Rad.Port

/-!
# Reading the beam

The line has nine bits in two registers, and the beam moves on between the reads. The high bit
is read before and after the low ones: if it is the same, and the beam has not gone through all
the lines that have it, it goes with the low ones.
-/

namespace ScpuEmu

open Library

/-- The line that the beam is in after so many cycles. -/
def beamLine (video : C64VideoStandard) (t : ℕ) : ℕ :=
  t / c64CyclesPerLine video % c64RasterLines video

/-- The cycles of the lines whose high bit is set. -/
def highCycles (video : C64VideoStandard) : ℕ :=
  (c64RasterLines video - 256) * c64CyclesPerLine video

variable {video : C64VideoStandard}

/-- A beam that is in the same half before and after was there between. -/
theorem beamLine_between {t₁ t₂ t₃ : ℕ} (h₁₂ : t₁ ≤ t₂) (h₂₃ : t₂ ≤ t₃)
    (hshort : t₃ < t₁ + highCycles video)
    (hsame : 256 ≤ beamLine video t₁ ↔ 256 ≤ beamLine video t₃) :
    256 ≤ beamLine video t₂ ↔ 256 ≤ beamLine video t₃ := by
  cases video <;>
    simp only [beamLine, highCycles, c64RasterLines, c64CyclesPerLine] at * <;> omega

theorem beamLine_lt (video : C64VideoStandard) (t : ℕ) : beamLine video t < 512 := by
  have hlt : beamLine video t < c64RasterLines video := Nat.mod_lt _ (by cases video <;> decide)
  exact hlt.trans (by cases video <;> decide)

/-- The nine bits of a line. -/
theorem low_or_high {l : ℕ} (h : l < 512) :
    (BitVec.ofNat 8 l).setWidth 16 ||| (if 256 ≤ l then 0x100 else 0) = BitVec.ofNat 16 l := by
  split
  next hhigh =>
    have hsum : l = 2 ^ 8 * 1 + l % 2 ^ 8 := by omega
    have hor : 2 ^ 8 * 1 + l % 2 ^ 8 = 2 ^ 8 * 1 ||| l % 2 ^ 8 :=
      Nat.two_pow_add_eq_or_of_lt (Nat.mod_lt l (by decide)) 1
    apply BitVec.eq_of_toNat_eq
    rw [BitVec.toNat_or, Nat.or_comm, BitVec.toNat_setWidth, BitVec.toNat_ofNat, BitVec.toNat_ofNat,
      Nat.mod_eq_of_lt ((Nat.mod_lt l (by decide)).trans (by decide) : l % 2 ^ 8 < 2 ^ 16)]
    exact hor.symm.trans (by omega)
  next hlow =>
    have hzero : (BitVec.ofNat 8 l).setWidth 16 ||| 0 = (BitVec.ofNat 8 l).setWidth 16 :=
      BitVec.or_zero
    rw [hzero]
    bv_omega

def bracketedLine (lo hi : Byte) : BitVec 16 :=
  lo.setWidth 16 ||| if hi &&& 0x80 ≠ 0 then 0x100 else 0

theorem bracketedLine_eq {l : ℕ} {hi : Byte} (h : l < 512) (hhalf : hi &&& 0x80 ≠ 0 ↔ 256 ≤ l) :
    bracketedLine (BitVec.ofNat 8 l) hi = BitVec.ofNat 16 l := by
  rw [bracketedLine, if_congr hhalf rfl rfl]
  exact low_or_high h

/-- The machine shows its beam in the two registers, at the end of each read, and a read takes at
most `d` cycles. -/
structure ShowsBeam {σ : Type} (p : RadPort σ) (video : C64VideoStandard) (time : σ → ℕ)
    (d : ℕ) : Prop where
  high : ∀ st sample io, (p.perform (.read 0xD011 sample io) st).1 &&& 0x80 ≠ 0 ↔
    256 ≤ beamLine video (time (p.perform (.read 0xD011 sample io) st).2)
  low : ∀ st sample io, (p.perform (.read 0xD012 sample io) st).1 =
    BitVec.ofNat 8 (beamLine video (time (p.perform (.read 0xD012 sample io) st).2))
  onward : ∀ a sample io st, time st ≤ time (p.perform (.read a sample io) st).2
  prompt : ∀ a sample io st, time (p.perform (.read a sample io) st).2 ≤ time st + d
  clock : ∀ st, time st ≤ time (p.hostCycles st).2
  observed : ∀ line st, time st ≤ time (p.observeRaster line st)

namespace CRADBus

variable {σ : Type} {p : RadPort σ} {time : σ → ℕ} {d : ℕ}

/-- A line that the beam was in from a time on, or none. -/
def Seen (video : C64VideoStandard) (time : σ → ℕ) (origin : ℕ) (r : BitVec 16 × CRADBus σ) :
    Prop :=
  r.1 = 0xFFFF ∨ ∃ t, origin ≤ t ∧ t ≤ time r.2.port ∧ r.1 = BitVec.ofNat 16 (beamLine video t)

theorem Seen.mono {origin origin' : ℕ} {r : BitVec 16 × CRADBus σ}
    (h : Seen video time origin r) (hle : origin' ≤ origin) : Seen video time origin' r :=
  h.imp_right fun ⟨t, hfrom, hrest⟩ => ⟨t, hle.trans hfrom, hrest⟩

/-- A read passes time, and no more than `d` cycles. -/
theorem passes_speek (h : ShowsBeam p video time d) (a : Addr) (s : CRADBus σ) :
    time s.port ≤ time ((speek p a).run s).2.port ∧
      time ((speek p a).run s).2.port ≤ time s.port + d :=
  ⟨h.onward a _ _ s.port, h.prompt a _ _ s.port⟩

theorem high_speek (h : ShowsBeam p video time d) (s : CRADBus σ) :
    ((speek p 0xD011).run s).1 &&& 0x80 ≠ 0 ↔
      256 ≤ beamLine video (time ((speek p 0xD011).run s).2.port) := h.high s.port _ _

theorem low_speek (h : ShowsBeam p video time d) (s : CRADBus σ) :
    ((speek p 0xD012).run s).1 =
      BitVec.ofNat 8 (beamLine video (time ((speek p 0xD012).run s).2.port)) := h.low s.port _ _

/-- The bookkeeping after the three reads. -/
def noteAttempt (p : RadPort σ) : RadM σ PUnit := do
  countReads 3
  countTransfers 3
  noteTransfer p

/-- What an attempt makes of the three bytes. -/
def judge (p : RadPort σ) (n : ℕ) (hiBefore lo hiAfter : Byte) : RadM σ (BitVec 16) :=
  if (hiBefore ^^^ hiAfter) &&& 0x80 ≠ 0 then rasterAttempts p n
  else do
    let s ← get
    let line := bracketedLine lo hiAfter
    if line.toNat < c64RasterLines s.signals.video then
      onlyIf (s.signals.machine = .c128)
        (modify fun s => { s with port := p.observeRaster line s.port })
      return line
    else rasterAttempts p n

theorem rasterAttempts_succ (n : ℕ) : rasterAttempts p (n + 1) = (do
    let hiBefore ← speek p 0xD011
    let lo ← speek p 0xD012
    let hiAfter ← speek p 0xD011
    noteAttempt p
    judge p n hiBefore lo hiAfter) := rfl

theorem same_half {b c : Byte} (h : ¬ (b ^^^ c) &&& 0x80 ≠ 0) :
    b &&& 0x80 ≠ 0 ↔ c &&& 0x80 ≠ 0 := by
  have hzero : (b ^^^ c) &&& 0x80 = 0 := not_not.mp h
  have hxor : (b &&& 0x80) ^^^ (c &&& 0x80) = 0 := by
    rw [← hzero]
    ext i
    simp [Bool.and_xor_distrib_right]
  rw [BitVec.xor_eq_zero_iff.mp hxor]

variable (h : ShowsBeam p video time d) (hshort : 2 * d < highCycles video)

include h hshort

theorem rasterAttempts_seen (n : ℕ) (s : CRADBus σ) :
    Seen video time (time s.port) ((rasterAttempts p n).run s) := by
  induction n generalizing s with
  | zero => exact .inl rfl
  | succ n ih =>
      rw [rasterAttempts_succ, run_bind, run_bind, run_bind, run_bind]
      have hhighBefore := high_speek h s
      obtain ⟨hbefore, hbefore'⟩ := passes_speek h 0xD011 s
      generalize (speek p 0xD011).run s = before at *
      have hlow := low_speek h before.2
      obtain ⟨hmiddle, hmiddle'⟩ := passes_speek h 0xD012 before.2
      generalize (speek p 0xD012).run before.2 = middle at *
      have hhighAfter := high_speek h middle.2
      obtain ⟨hafter, hafter'⟩ := passes_speek h 0xD011 middle.2
      generalize (speek p 0xD011).run middle.2 = after at *
      have hnoted : time after.2.port ≤ time ((noteAttempt p).run after.2).2.port :=
        h.clock after.2.port
      generalize ((noteAttempt p).run after.2).2 = noted at *
      have hstart : time s.port ≤ time noted.port :=
        hbefore.trans (hmiddle.trans (hafter.trans hnoted))
      unfold judge
      split
      next => exact (ih noted).mono hstart
      next hsame =>
        rw [run_bind, run_get]
        dsimp only
        split
        next =>
          refine .inr ⟨time middle.2.port, hbefore.trans hmiddle, ?_, ?_⟩
          · rw [run_bind]
            refine (hafter.trans hnoted).trans ?_
            unfold onlyIf
            split
            · exact h.observed _ _
            · exact le_rfl
          · have hhalf := beamLine_between hmiddle hafter (by omega)
              (hhighBefore.symm.trans ((same_half hsame).trans hhighAfter))
            show bracketedLine middle.1 after.1 = _
            rw [hlow]
            exact bracketedLine_eq (beamLine_lt video _) (hhighAfter.trans hhalf.symm)
        next => exact (ih noted).mono hstart

/-- A line that the bus returns is the one that the beam was in at some time during the call. -/
theorem rasterLine_seen (s : CRADBus σ) :
    Seen video time (time s.port) ((rasterLine p).run s) := by
  rw [rasterLine, run_bind, run_get]
  dsimp only
  split
  next => exact .inl rfl
  next =>
    have hprimed : Keeps (fun t : CRADBus σ => time s.port ≤ time t.port) (primeAfterIdle p) := by
      refine keeps_bind (fun t ht => ht.trans (h.clock t.port)) fun now => ?_
      refine keeps_bind keeps_get fun t => keeps_bind (keeps_onlyIf ?_) fun _ => ?_
      · refine keeps_bind (fun t ht => ht.trans (passes_speek h 0x02FE t).1) fun _ => ?_
        exact keeps_modify fun _ ht => ht
      · exact keeps_modify fun _ ht => ht
    exact (rasterAttempts_seen h hshort 4 _).mono (hprimed s le_rfl)

omit h hshort

/-- What a PAL machine shows of its beam. -/
def beamByte (t : ℕ) : PortCycle → Byte
  | .read a _ _ =>
      if a = 0xD011 then if 256 ≤ beamLine .pal t then 0x9B else 0x1B
      else if a = 0xD012 then BitVec.ofNat 8 (beamLine .pal t)
      else 0xFF
  | .write .. | .beginBurst _ | .burst .. | .endBurst => 0xFF

/-- A machine whose time is the cycles of the port. -/
def beamPort : RadPort ℕ where
  perform c t := (beamByte (t + 1) c, t + 1)
  levels t := ((false, false), t)
  hostCycles t := (1, t)
  hostCyclesPast t _ _ := (1, t)
  observeRaster _ t := t

theorem showsBeam_beamPort : ShowsBeam beamPort .pal id 1 where
  high t _ _ := by
    show (if 256 ≤ beamLine .pal (t + 1) then (0x9B : Byte) else 0x1B) &&& 0x80 ≠ 0 ↔
      256 ≤ beamLine .pal (t + 1)
    split
    next h => exact iff_of_true (by decide) h
    next h => exact iff_of_false (by decide) h
  low _ _ _ := rfl
  onward _ _ _ t := Nat.le_succ t
  prompt _ _ _ _ := le_rfl
  clock _ := le_rfl
  observed _ _ := le_rfl

/-- The beam enters line 256 between the reads, and the second attempt tells. -/
theorem rasterLine_seen_seam : ∃ t, 16126 ≤ t ∧
    t ≤ ((rasterLine beamPort).run (acquired 16126)).2.port ∧
    ((rasterLine beamPort).run (acquired 16126)).1 = BitVec.ofNat 16 (beamLine .pal t) := by
  have hseen := rasterLine_seen showsBeam_beamPort (by decide) (acquired 16126)
  have hline : ((rasterLine beamPort).run (acquired 16126)).1 ≠ 0xFFFF := by decide +kernel
  exact hseen.resolve_left hline

end CRADBus

end ScpuEmu
