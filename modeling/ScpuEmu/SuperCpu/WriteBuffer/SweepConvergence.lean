import ScpuEmu.Library.RangeCursor
import ScpuEmu.SuperCpu.WriteBuffer.Coherence
import ScpuEmu.SuperCpu.WriteBuffer.Settings

/-!
# The background sweep converges

A sweep takes its cursor over the mirrored range and sends the bytes it meets there. Each
call moves the cursor by at least one place, so that as many calls as there are addresses
have visited the whole range, wherever the cursor stood at first.
-/

namespace ScpuEmu

open Library

namespace WriteBuffer

variable {b b₁ b₂ : WriteBuffer} {w : View} {ram d d₁ d₂ : Addr → Byte}

/-- The cursor after `k` places. -/
def cursorAfter (b : WriteBuffer) (k : ℕ) : Addr :=
  (rangeCursor b.rangeLo b.rangeHi)^[k] b.resyncCursor

/-! ### What a sweep sends -/

/-- The bytes of a burst may be sent: the policy mirrors them and none is queued. -/
def Sendable (b : WriteBuffer) (burst : List C64BusWrite) : Prop :=
  burst.length ≤ chunk ∧ ∀ x ∈ burst, b.shouldMirror x.addr = true ∧ b.isDirty x.addr = false

theorem Sendable.concat {burst : List C64BusWrite} (h : Sendable b burst) {x : C64BusWrite}
    (hlength : burst.length ≠ chunk) (hmirror : b.shouldMirror x.addr = true)
    (hclean : b.isDirty x.addr = false) : Sendable b (burst ++ [x]) := by
  refine ⟨?_, ?_⟩
  · have hle := h.1
    rw [List.length_append, List.length_singleton]
    omega
  · intro y hy
    rcases List.mem_append.mp hy with hy | hy
    · exact h.2 y hy
    · rw [List.mem_singleton.mp hy]
      exact ⟨hmirror, hclean⟩

/-- The walk so far has moved the cursor by `k` places and put what it met into the burst. -/
structure Walked (ram : Addr → Byte) (w : View) (b : WriteBuffer) (k : ℕ) (b' : WriteBuffer)
    (burst : List C64BusWrite) : Prop where
  frame : ∃ synced, b' = { b with resyncCursor := b.cursorAfter k, synced := synced }
  sendable : Sendable b burst
  healed : ∀ x ∈ burst, x = healed w ram x.addr
  met : ∀ i < k, b.shouldMirror (b.cursorAfter i) = true → b.isDirty (b.cursorAfter i) = false →
    b.cursorAfter i ∈ burst.map C64BusWrite.addr

theorem walked_start (ram : Addr → Byte) (w : View) (b : WriteBuffer) : Walked ram w b 0 b [] where
  frame := ⟨b.synced, rfl⟩
  sendable := ⟨Nat.zero_le _, by nofun⟩
  healed := by nofun
  met := by nofun

theorem cursorAfter_succ (b : WriteBuffer) (k : ℕ) :
    b.cursorAfter (k + 1) = rangeCursor b.rangeLo b.rangeHi (b.cursorAfter k) :=
  Function.iterate_succ_apply' _ _ _

section Walk

variable {b' : WriteBuffer} {burst : List C64BusWrite} {k : ℕ}

theorem Walked.skip (h : Walked ram w b k b' burst)
    (hskip : b.shouldMirror (b.cursorAfter k) = false ∨ b.isDirty (b.cursorAfter k) = true) :
    Walked ram w b (k + 1) b'.advanceResyncCursor burst := by
  obtain ⟨synced, rfl⟩ := h.frame
  refine ⟨⟨synced, ?_⟩, h.sendable, h.healed, fun i hi hmirror hclean => ?_⟩
  · rw [cursorAfter_succ]
    rfl
  · rcases Nat.lt_succ_iff_lt_or_eq.mp hi with hlt | rfl
    · exact h.met i hlt hmirror hclean
    · rw [hmirror, hclean] at hskip
      simp at hskip

theorem Walked.send (h : Walked ram w b k b' burst) (hroom : burst.length ≠ chunk)
    (hmirror : b.shouldMirror (b.cursorAfter k) = true)
    (hclean : b.isDirty (b.cursorAfter k) = false) :
    Walked ram w b (k + 1) (b'.advanceResyncCursor.setSynced (b.cursorAfter k))
      (burst ++ [WriteBuffer.healed w ram (b.cursorAfter k)]) := by
  obtain ⟨synced, rfl⟩ := h.frame
  refine ⟨⟨synced.insert (b.cursorAfter k).toNat, ?_⟩, h.sendable.concat hroom hmirror hclean,
    fun x hx => ?_, fun i hi hmirror hclean => ?_⟩
  · rw [cursorAfter_succ]
    rfl
  · rcases List.mem_append.mp hx with hx | hx
    · exact h.healed x hx
    · rw [List.mem_singleton.mp hx]
      rfl
  · rw [List.map_append, List.mem_append]
    rcases Nat.lt_succ_iff_lt_or_eq.mp hi with hlt | rfl
    · exact .inl (h.met i hlt hmirror hclean)
    · exact .inr (List.mem_singleton.mpr rfl)

/-- The lap of a sweep: it goes on from where the walk stands, by at least one place if it
has guard and budget for it. -/
theorem resyncSweepLoop_walks (maxBytes guard : ℕ) (h : Walked ram w b k b' burst)
    (hroom : burst.length ≠ chunk) :
    let lap := resyncSweepLoop w ram maxBytes guard b' burst
    ∃ k', k ≤ k' ∧ (guard ≠ 0 → burst.length < maxBytes → k < k') ∧ Walked ram w b k' lap.1 lap.2
    := by
  induction guard generalizing k b' burst with
  | zero => exact ⟨k, le_rfl, fun hguard => absurd rfl hguard, h⟩
  | succ guard ih =>
      rw [resyncSweepLoop]
      split
      next hspent => exact ⟨k, le_rfl, fun _ hbudget => absurd hspent (by omega), h⟩
      next hbudget =>
        obtain ⟨synced, hframe⟩ := h.frame
        have hcursor : b'.resyncCursor = b.cursorAfter k := by rw [hframe]
        have hmirror : b'.advanceResyncCursor.shouldMirror b'.resyncCursor =
            b.shouldMirror (b.cursorAfter k) := by rw [hframe]; rfl
        have hdirty : b'.advanceResyncCursor.isDirty b'.resyncCursor =
            b.isDirty (b.cursorAfter k) := by rw [hframe]; rfl
        dsimp only
        rw [hmirror, hdirty, hcursor]
        split
        next hskip =>
          obtain ⟨k', hk', -, hlap⟩ := ih (h.skip hskip) hroom
          exact ⟨k', by omega, fun _ _ => by omega, hlap⟩
        next hsend =>
          rw [not_or, Bool.not_eq_false, Bool.not_eq_true] at hsend
          have hsent := h.send hroom hsend.1 hsend.2
          split
          next => exact ⟨k + 1, by omega, fun _ _ => by omega, hsent⟩
          next hmore =>
            obtain ⟨k', hk', -, hlap⟩ := ih hsent hmore
            exact ⟨k', by omega, fun _ _ => by omega, hlap⟩

/-- A call of the sweep is one walk. -/
theorem resyncSweep_walks (hram : w.ram = some ram) (hbus : b.bus = true) {n : ℕ} (hn : n ≠ 0) :
    ∃ k burst, 0 < k ∧ Walked ram w b k (b.resyncSweep w n).1 burst ∧
      (b.resyncSweep w n).2 = burstCall burst := by
  obtain ⟨k, -, hmoved, hlap⟩ := resyncSweepLoop_walks n 0x10000 (walked_start ram w b) (by decide)
  have hsweep : b.resyncSweep w n = ((resyncSweepLoop w ram n 0x10000 b []).1,
      burstCall (resyncSweepLoop w ram n 0x10000 b []).2) := by
    rw [resyncSweep, hram]
    dsimp only
    rw [if_neg (by simp [hbus, hn])]
  refine ⟨k, (resyncSweepLoop w ram n 0x10000 b []).2,
    hmoved (by decide) (Nat.pos_of_ne_zero hn), ?_, ?_⟩
  · rw [hsweep]
    exact hlap
  · rw [hsweep]

end Walk

/-- A sweep sends no address that the policy excludes, none that is queued, and at most 512
bytes in one burst. -/
theorem resyncSweep_sendable (b : WriteBuffer) (w : View) (n : ℕ) :
    ∀ call ∈ (b.resyncSweep w n).2, ∃ burst, call = .writeBurst burst ∧ Sendable b burst := by
  intro call hcall
  cases hram : w.ram with
  | none =>
      rw [resyncSweep, hram] at hcall
      cases hcall
  | some ram =>
      by_cases hrun : b.bus = false ∨ n = 0
      · rw [resyncSweep, hram] at hcall
        dsimp only at hcall
        rw [if_pos hrun] at hcall
        cases hcall
      rw [not_or, Bool.not_eq_false] at hrun
      obtain ⟨k, burst, -, hwalked, hcalls⟩ := resyncSweep_walks (n := n) hram hrun.1 hrun.2
      rw [hcalls, burstCall] at hcall
      split at hcall
      · cases hcall
      · exact ⟨burst, List.mem_singleton.mp hcall, hwalked.sendable⟩

/-! ### What sweeps leave in DRAM -/

/-- Between the two states the cursor has moved by `k` places, and every byte it met that could
be sent is now the same in DRAM as in RAM. -/
structure Swept (ram : Addr → Byte) (k : ℕ) (b : WriteBuffer) (d : Addr → Byte) (b' : WriteBuffer)
    (d' : Addr → Byte) : Prop where
  frame : ∃ synced, b' = { b with resyncCursor := b.cursorAfter k, synced := synced }
  reached : ∀ i < k, b.shouldMirror (b.cursorAfter i) = true →
    b.isDirty (b.cursorAfter i) = false → d' (b.cursorAfter i) = ram (b.cursorAfter i)
  kept : ∀ a, d a = ram a → d' a = ram a

theorem swept_refl (ram : Addr → Byte) (b : WriteBuffer) (d : Addr → Byte) :
    Swept ram 0 b d b d where
  frame := ⟨b.synced, rfl⟩
  reached := by nofun
  kept _ h := h

theorem Swept.trans {k k' : ℕ} (h : Swept ram k b d b₁ d₁) (h' : Swept ram k' b₁ d₁ b₂ d₂) :
    Swept ram (k + k') b d b₂ d₂ := by
  obtain ⟨synced, hb₁⟩ := h.frame
  obtain ⟨synced', hb₂⟩ := h'.frame
  have hcursor : ∀ i, b₁.cursorAfter i = b.cursorAfter (k + i) := by
    intro i
    rw [hb₁, Nat.add_comm]
    exact (Function.iterate_add_apply _ _ _ _).symm
  refine ⟨⟨synced', ?_⟩, fun i hi hmirror hclean => ?_, fun a ha => h'.kept a (h.kept a ha)⟩
  · rw [hb₂, hcursor, hb₁]
  · by_cases hbefore : i < k
    · exact h'.kept _ (h.reached i hbefore hmirror hclean)
    · have hafter : b.cursorAfter i = b₁.cursorAfter (i - k) := by
        rw [hcursor, Nat.add_sub_cancel' (Nat.le_of_not_lt hbefore)]
      rw [hafter] at hmirror hclean ⊢
      rw [hb₁] at hmirror hclean
      rw [hb₁] at h' ⊢
      exact h'.reached (i - k) (by omega) hmirror hclean

/-- One call, with no block relocated. -/
theorem swept_resyncSweep (hw : w.armed = none) (hram : w.ram = some ram) (hbus : b.bus = true)
    (d : Addr → Byte) {n : ℕ} (hn : n ≠ 0) :
    ∃ k, 0 < k ∧
      Swept ram k b d (b.resyncSweep w n).1 (runCalls d (b.resyncSweep w n).2) := by
  obtain ⟨k, burst, hk, hwalked, hcalls⟩ := resyncSweep_walks hram hbus hn
  have hvalue : ∀ x ∈ burst, x.value = ram x.addr := by
    intro x hx
    rw [hwalked.healed x hx, healed_of_unarmed hw]
  have hdram := deliver_apply d ram burst hvalue
  refine ⟨k, hk, hwalked.frame, fun i hi hmirror hclean => ?_, fun a ha => ?_⟩
  · rw [hcalls, runCalls_burstCall, hdram, if_pos (hwalked.met i hi hmirror hclean)]
  · rw [hcalls, runCalls_burstCall, hdram]
    split
    · rfl
    · exact ha

/-- A buffer and the DRAM after one call of the sweep. -/
def sweepStep (w : View) (s : WriteBuffer × (Addr → Byte)) (n : ℕ) : WriteBuffer × (Addr → Byte) :=
  ((s.1.resyncSweep w n).1, runCalls s.2 (s.1.resyncSweep w n).2)

theorem swept_run (hw : w.armed = none) (hram : w.ram = some ram) (budgets : List ℕ)
    (hbudgets : ∀ n ∈ budgets, n ≠ 0) (s : WriteBuffer × (Addr → Byte)) (hbus : s.1.bus = true) :
    ∃ k, budgets.length ≤ k ∧
      Swept ram k s.1 s.2 (run (sweepStep w) s budgets).1 (run (sweepStep w) s budgets).2 := by
  induction budgets generalizing s with
  | nil => exact ⟨0, le_rfl, swept_refl ram s.1 s.2⟩
  | cons n budgets ih =>
      rw [List.forall_mem_cons] at hbudgets
      obtain ⟨k, hk, hfirst⟩ := swept_resyncSweep hw hram hbus s.2 hbudgets.1
      have hattached : (sweepStep w s n).1.bus = true := by
        obtain ⟨synced, hframe⟩ := hfirst.frame
        change (s.1.resyncSweep w n).1.bus = true
        rw [hframe]
        exact hbus
      obtain ⟨k', hk', hrest⟩ := ih hbudgets.2 (sweepStep w s n) hattached
      refine ⟨k + k', ?_, hfirst.trans hrest⟩
      rw [List.length_cons]
      omega

/-- The bounds that a policy admits are those of its mode. -/
theorem within_range_of_mirrored {a : Addr} (h : b.shouldMirror a = true) :
    b.rangeLo ≤ a ∧ a ≤ b.rangeHi := by
  rw [shouldMirror] at h
  split_ifs at h
  simpa using h

/-- From any place of the cursor and after any change of mode, as many calls of the sweep as
there are addresses leave every mirrored byte the same in DRAM as in RAM, when nothing is queued
or relocated. Whatever is queued or relocated, no call sends an excluded or a queued address, or
more than 512 bytes in a burst. -/
theorem sweep_converges (b : WriteBuffer) (cursor : Addr) (mode : SCPUOptMode) (w : View)
    (ram dram : Addr → Byte) (budgets : List ℕ) :
    let moved := { b with resyncCursor := cursor }.setOptMode mode
    (moved.bus = true → w.ram = some ram → w.armed = none → (∀ a, moved.isDirty a = false) →
        (∀ n ∈ budgets, 1 ≤ n) → 0x10000 ≤ budgets.length →
          ∀ a, moved.shouldMirror a = true →
            (run (sweepStep w) (moved, dram) budgets).2 a = ram a) ∧
      ∀ n, ∀ call ∈ (moved.resyncSweep w n).2,
        ∃ burst, call = .writeBurst burst ∧ burst.length ≤ 512 ∧
          ∀ x ∈ burst, moved.shouldMirror x.addr = true ∧ moved.isDirty x.addr = false := by
  intro moved
  refine ⟨fun hbus hram hw hclean hbudgets hlength a hmirror => ?_, resyncSweep_sendable moved w⟩
  obtain ⟨k, hk, hswept⟩ := swept_run hw hram budgets
    (fun n hn => Nat.ne_of_gt (hbudgets n hn)) (moved, dram) hbus
  obtain ⟨hlo, hhi⟩ := within_range_of_mirrored hmirror
  obtain ⟨i, hi, hvisit⟩ := rangeCursor_visits moved.resyncCursor hlo hhi
  have hplace : moved.cursorAfter i = a := hvisit
  have hreached := hswept.reached i (by omega)
  rw [hplace] at hreached
  exact hreached hmirror (hclean a)

/-- From a cursor outside the range of the new mode, one byte at a time. -/
theorem sweep_converges_screen :
    ∃ budgets : List ℕ, (∀ n ∈ budgets, n = 1) ∧ budgets.length = 0x10000 ∧
      (run (sweepStep ⟨some fun _ => 7, none, none, none⟩)
        ({ (construct (fun _ => 0) fun _ => 0).attach true with resyncCursor := 0x9000 }.setOptMode
          .basic, fun _ => 0) budgets).2 0x0400 = 7 := by
  obtain ⟨calls, hcalls⟩ : ∃ calls, calls = 0x10000 := ⟨_, rfl⟩
  have hones : ∀ n ∈ List.replicate calls 1, n = 1 := fun n hn => List.eq_of_mem_replicate hn
  have hlength : (List.replicate calls 1).length = 0x10000 := by rw [List.length_replicate, hcalls]
  exact ⟨_, hones, hlength,
    (sweep_converges ((construct (fun _ => 0) fun _ => 0).attach true) 0x9000
    .basic ⟨some fun _ => 7, none, none, none⟩ (fun _ => 7) (fun _ => 0) _).1 rfl rfl rfl
    (fun a => test_empty_toNat a) (fun n hn => Nat.le_of_eq (hones n hn).symm)
    (Nat.le_of_eq hlength.symm) 0x0400 (by decide)⟩

end WriteBuffer

end ScpuEmu
