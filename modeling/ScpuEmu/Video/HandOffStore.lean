import ScpuEmu.C64.LogProducer
import ScpuEmu.Video.DisplayScan

/-!
# What both cores share

The store that the display core reads while the emulation core writes it, with the
history of both: what was appended, what was sampled when, and what was applied. A latch
takes every byte as it was between two writes, and a prime takes the registers of the
latched head if none of the events it counts changed one after it was sampled.
-/

namespace ScpuEmu

open Library AtomicProgram SharedStore

/-- An event applied to the persistent state, and the number it was applied as. -/
structure AppliedEvent where
  number : ℕ
  index : BitVec 32
  event : VICRegWrite

/-- The history of the reads: how many writes of shadow bytes had been made when a byte was
sampled last, how many events were published at the last sample of the head, the change
in progress then, the number of the event to apply next, the head and the change in
progress at the last prime, and the events applied. -/
structure ReadHistory where
  sampled : VICCell → ℕ
  latched : ℕ
  pending : Option VICChange
  next : ℕ
  primed : ℕ
  exempt : Option VICChange
  applied : List AppliedEvent

/-- What both cores share, with its history. -/
structure HandOffStore where
  producer : VICProducer
  history : ReadHistory

namespace HandOffStore

variable (s : HandOffStore)

def answer : (q : VICQuery) → q.Answer
  | .generation => s.producer.capture.vicLogGeneration
  | .head => s.producer.capture.vicLogHead
  | .register reg => s.producer.vicRegShadow reg
  | .bank => s.producer.vicBank.setWidth 8
  | .slot _ i => rasterEvent s.producer.capture.vicLog i
  | .rePrime => ⟨⟩

def note : VICQuery → HandOffStore
  | .head =>
      { s with
        history :=
          { s.history with latched := s.producer.published, pending := s.producer.pending } }
  | .register reg =>
      { s with
        history :=
          { s.history with
            sampled := Function.update s.history.sampled (.register reg)
              s.producer.writes.length } }
  | .bank =>
      { s with
        history :=
          { s.history with
            sampled := Function.update s.history.sampled .bank s.producer.writes.length } }
  | .slot true i =>
      { s with
        history :=
          { s.history with
            next := s.history.next + 1
            applied := s.history.applied ++
              [⟨s.history.next, i, rasterEvent s.producer.capture.vicLog i⟩] } }
  | .rePrime =>
      { s with
        history :=
          { s.history with
            next := s.history.latched
            primed := s.history.latched
            exempt := s.history.pending } }
  | _ => s

/-- The slot of the event to apply is not overwritten yet, and no event that the latched
head counts changed a byte after it was sampled. -/
def Allowed : VICQuery → Prop
  | .slot true _ => s.producer.appended.length ≤ s.history.next + vicLogSize
  | .rePrime => ∀ cell n e, s.history.sampled cell ≤ n → n < s.history.latched →
      s.producer.appended[n]? = some e → e.register ≠ cell.code
  | _ => True

/-- The promise of a prime, as a check of the events it counts. -/
def primesAllowed : Bool :=
  (List.range s.history.latched).all fun n =>
    (s.producer.appended[n]?).all fun e =>
      decide (∀ reg : BitVec 6, s.history.sampled (.register reg) ≤ n → e.register ≠ reg.toNat) &&
        decide (s.history.sampled .bank ≤ n → e.register ≠ 0x40)

theorem primesAllowed_iff : s.primesAllowed = true ↔ s.Allowed .rePrime := by
  rw [primesAllowed, List.all_eq_true]
  simp only [List.mem_range, Option.all_eq_true, Bool.and_eq_true, decide_eq_true_eq]
  constructor
  · intro h cell n e hsampled hn hget
    cases cell with
    | register reg => exact (h n hn e hget).1 reg hsampled
    | bank => exact (h n hn e hget).2 hsampled
  · intro h n hn e hget
    exact ⟨fun reg hsampled => h (.register reg) n e hsampled hn hget,
      fun hsampled => h .bank n e hsampled hn hget⟩

instance (q : VICQuery) : Decidable (s.Allowed q) :=
  match q with
  | .slot true _ => inferInstanceAs (Decidable (_ ≤ _))
  | .rePrime => decidable_of_iff _ s.primesAllowed_iff
  | .slot false _ => isTrue trivial
  | .generation => isTrue trivial
  | .head => isTrue trivial
  | .register _ => isTrue trivial
  | .bank => isTrue trivial

/-- The slot read to apply event `n` is that of number `n`, and it holds that event. -/
def Promised : VICQuery → Prop
  | .slot true i => i = BitVec.ofNat 32 s.history.next ∧ s.history.next < s.producer.published ∧
      ∃ e, s.producer.appended[s.history.next]? = some e ∧
        (rasterEvent s.producer.capture.vicLog i).Matches e
  | _ => True

/-- The display core reads, and the emulation core goes on. -/
def Later (s s' : HandOffStore) : Prop :=
  s'.history = s.history ∧ ∃ ops, s'.producer = run VICProducer.step s.producer ops

def shared : SharedStore VICQuery.Answer HandOffStore where
  answer := answer
  note := note
  Later := Later
  Allowed := Allowed
  Promised := Promised
  refl _ := ⟨rfl, [], rfl⟩
  trans := by
    rintro s s' s'' ⟨hhistory, ops, hops⟩ ⟨hhistory', ops', hops'⟩
    exact ⟨hhistory'.trans hhistory, ops ++ ops', by rw [run_append, ← hops, hops']⟩

/-- What the histories of both cores have to do with each other. -/
structure Sound (base : Scalars) (s : HandOffStore) : Prop where
  producer : s.producer.Sound base
  latched_le : s.history.latched ≤ s.producer.published
  pending : ∀ change, s.history.pending = some change →
    s.producer.writes[s.history.latched]? = some change.write
  exempt : ∀ change, s.history.exempt = some change →
    s.producer.writes[s.history.primed]? = some change.write

/-- The byte is that of the log up to the tail. At the point of the last prime it may be
newer, if its store was then made and not yet published. -/
def Current (base : Scalars) (s : HandOffStore) (x : Scalars) (cell : VICCell) : Prop :=
  cell.of x = cell.of ((s.producer.appended.take s.history.next).foldl applyScalar base) ∨
    s.history.next = s.history.primed ∧ ∃ change, s.history.exempt = some change ∧
      change.write.1 = cell.code ∧ cell.of x = cell.stored change.value

/-- The replay stands at its tail with the registers and the bank of the log so far. -/
structure HandsOver (base : Scalars) (s : HandOffStore) (x : VICRasterReplay) : Prop where
  primed : x.primed = true
  generation : x.generation = s.producer.capture.vicLogGeneration
  tail : x.timeline.tail = BitVec.ofNat 32 s.history.next
  next_le : s.history.next ≤ s.producer.published
  current : ∀ cell, Current base s x.state.scalars cell

/-- Every event applied as number `n` was read under that number, and is the one appended
as number `n`. -/
def AppliedInOrder (s : HandOffStore) : Prop :=
  ∀ a ∈ s.history.applied, a.index = BitVec.ofNat 32 a.number ∧
    a.number < s.producer.published ∧
      ∃ e, s.producer.appended[a.number]? = some e ∧ a.event.Matches e

section Later

variable {s} {s' : HandOffStore} {base : Scalars}

theorem Later.follows (h : Later s s') : s.producer.Follows s'.producer := by
  obtain ⟨-, ops, hops⟩ := h
  rw [hops]
  exact run_invariant VICProducer.step (P := s.producer.Follows)
    (fun _ op hp => hp.trans (VICProducer.follows_step op)) s.producer ops
      (VICProducer.Follows.refl _)

theorem Sound.later (h : s.Sound base) (hlater : Later s s') : s'.Sound base := by
  have hfollows := hlater.follows
  obtain ⟨hhistory, ops, hops⟩ := hlater
  refine ⟨?_, ?_, ?_, ?_⟩
  · rw [hops]
    exact run_invariant VICProducer.step (P := fun p => p.Sound base)
      (fun _ op hp => hp.step op) s.producer ops h.producer
  · rw [hhistory]
    exact h.latched_le.trans hfollows.published
  · rw [hhistory]
    exact fun change hchange =>
      VICProducer.getElem?_of_prefix hfollows.writes (h.pending change hchange)
  · rw [hhistory]
    exact fun change hchange =>
      VICProducer.getElem?_of_prefix hfollows.writes (h.exempt change hchange)

theorem Current.later {x : Scalars} {cell : VICCell} (h : Current base s x cell)
    (hnext : s.history.next ≤ s.producer.published) (hlater : Later s s') :
    Current base s' x cell := by
  have htake : s'.producer.appended.take s.history.next =
      s.producer.appended.take s.history.next := by
    obtain ⟨t, ht⟩ := hlater.follows.appended
    rw [← ht, List.take_append_of_le_length (hnext.trans s.producer.published_le)]
  rw [Current, hlater.1, htake]
  exact h

theorem HandsOver.later {x : VICRasterReplay} (h : s.HandsOver base x) (hlater : Later s s') :
    s'.HandsOver base x := by
  have hfollows := hlater.follows
  refine ⟨h.primed, h.generation.trans hfollows.generation.symm, ?_, ?_, ?_⟩
  · rw [hlater.1]
    exact h.tail
  · rw [hlater.1]
    exact h.next_le.trans hfollows.published
  · exact fun cell => (h.current cell).later h.next_le hlater

theorem AppliedInOrder.later (h : s.AppliedInOrder) (hlater : Later s s') : s'.AppliedInOrder := by
  have hfollows := hlater.follows
  rw [AppliedInOrder, hlater.1]
  intro a ha
  obtain ⟨hindex, hlt, e, happended, hmatches⟩ := h a ha
  exact ⟨hindex, hlt.trans_le hfollows.published, e,
    VICProducer.getElem?_of_prefix hfollows.appended happended, hmatches⟩

end Later

section Note

variable {s} {base : Scalars}

@[simp] theorem producer_note (q : VICQuery) : (s.note q).producer = s.producer := by
  cases q with
  | slot applied i => cases applied <;> rfl
  | _ => rfl

theorem Sound.note (h : s.Sound base) (q : VICQuery) : (s.note q).Sound base := by
  cases q with
  | generation => exact h
  | head =>
      exact ⟨h.producer, le_refl _, fun _ hchange => h.producer.writes_of_pending hchange,
        h.exempt⟩
  | register reg => exact ⟨h.producer, h.latched_le, h.pending, h.exempt⟩
  | bank => exact ⟨h.producer, h.latched_le, h.pending, h.exempt⟩
  | slot applied i =>
      cases applied with
      | false => exact h
      | true => exact ⟨h.producer, h.latched_le, h.pending, h.exempt⟩
  | rePrime => exact ⟨h.producer, h.latched_le, h.pending, h.pending⟩

/-- A read that keeps its promise adds one more event in order. -/
theorem AppliedInOrder.note (h : s.AppliedInOrder) {q : VICQuery} (hq : s.Promised q) :
    (s.note q).AppliedInOrder := by
  cases q with
  | slot applied i =>
      cases applied with
      | false => exact h
      | true =>
          intro a ha
          rcases List.mem_append.mp ha with ha | ha
          · exact h a ha
          · rw [List.mem_singleton.mp ha]
            exact hq
  | _ => exact h

end Note

/-- The questions of a latch. -/
def Samples : VICQuery → Prop
  | .slot _ _ => False
  | .rePrime => False
  | _ => True

/-- Once event `n + 2048` is written, its slot no longer holds event `n`. -/
theorem Sound.answer_overrun {s : HandOffStore} {base : Scalars} (h : s.Sound base) {n : ℕ}
    {e : VICRegWrite} (hget : s.producer.appended[n + vicLogSize]? = some e)
    (hlen : s.producer.appended.length ≤ n + 2 * vicLogSize) :
    (rasterEvent s.producer.capture.vicLog (BitVec.ofNat 32 n)).Matches e := by
  rw [rasterEvent_ofNat, ← Nat.add_mod_right n vicLogSize]
  exact h.producer.kept _ e hget (by omega)

/-- The replay as a frame finds it and as a hold leaves it. -/
structure Resting (base : Scalars) (x : VICRasterReplay) (s : HandOffStore) : Prop where
  sound : s.Sound base
  handsOver : x.primed = true → x.generation = s.producer.capture.vicLogGeneration →
    s.HandsOver base x

/-- A byte sampled between two writes of shadow bytes. The append in progress may have
made its store already. -/
structure Sampled (base : Scalars) (s : HandOffStore) (cell : VICCell) (value : Byte) : Prop where
  value_eq : value = cell.of (valuesAfter base s.producer.writes (s.history.sampled cell))
  le_writes : s.history.sampled cell ≤ s.producer.writes.length
  le_published : s.history.sampled cell ≤ s.producer.published + 1

/-- What a latch has, whether its samples agreed or not. -/
structure Latched (base : Scalars) (s : HandOffStore) (latch : VICLatch) : Prop where
  generation : latch.generation = s.producer.capture.vicLogGeneration
  head : latch.head = BitVec.ofNat 32 s.history.latched
  bank : latch.liveBank &&& 3 = latch.liveBank
  value_eq : ∀ cell : VICCell, cell.of (latch.liveVIC, latch.liveBank) =
    cell.of (valuesAfter base s.producer.writes (s.history.sampled cell))
  le_writes : ∀ cell, s.history.sampled cell ≤ s.producer.writes.length
  le_latched : ∀ cell, s.history.sampled cell ≤ s.history.latched + 1
  pending : (∃ cell, s.history.sampled cell = s.history.latched + 1) →
    ∃ change, s.history.pending = some change

section Latch

variable {s s' : HandOffStore} {base : Scalars} {x : VICRasterReplay}

theorem Resting.later (h : Resting base x s) (hlater : Later s s') : Resting base x s' := by
  refine ⟨h.sound.later hlater, fun hprimed hgeneration => ?_⟩
  exact (h.handsOver hprimed (hgeneration.trans hlater.follows.generation)).later hlater

/-- A sample or a scan leaves what the tail stands for. -/
theorem HandsOver.note (h : s.HandsOver base x) {q : VICQuery} (hq : Samples q ∨ Scans q) :
    (s.note q).HandsOver base x := by
  have hhistory : (s.note q).history.next = s.history.next ∧
      (s.note q).history.primed = s.history.primed ∧
        (s.note q).history.exempt = s.history.exempt := by
    cases q with
    | slot applied i =>
        cases applied with
        | false => exact ⟨rfl, rfl, rfl⟩
        | true => exact hq.elim False.elim False.elim
    | rePrime => exact hq.elim False.elim False.elim
    | _ => exact ⟨rfl, rfl, rfl⟩
  obtain ⟨hnext, hprimed, hexempt⟩ := hhistory
  refine ⟨h.primed, ?_, ?_, ?_, fun cell => ?_⟩
  · rw [producer_note]
    exact h.generation
  · rw [hnext]
    exact h.tail
  · rw [producer_note, hnext]
    exact h.next_le
  · rw [Current, producer_note, hnext, hprimed, hexempt]
    exact h.current cell

theorem Resting.note (h : Resting base x s) {q : VICQuery} (hq : Samples q ∨ Scans q) :
    Resting base x (s.note q) := by
  refine ⟨h.sound.note q, fun hprimed hgeneration => ?_⟩
  rw [producer_note] at hgeneration
  exact (h.handsOver hprimed hgeneration).note hq

theorem Sampled.later {cell : VICCell} {value : Byte} (h : Sampled base s cell value)
    (hlater : Later s s') : Sampled base s' cell value := by
  have hfollows := hlater.follows
  refine ⟨?_, ?_, ?_⟩
  · rw [hlater.1, valuesAfter_of_prefix_eq base hfollows.writes h.le_writes]
    exact h.value_eq
  · rw [hlater.1]
    exact h.le_writes.trans hfollows.writes.length_le
  · rw [hlater.1]
    exact h.le_published.trans (Nat.add_le_add_right hfollows.published 1)

/-- A byte as it is read. -/
theorem Sound.sampled (h : s.Sound base) (cell : VICCell)
    (hsampled : s.history.sampled cell = s.producer.writes.length) :
    Sampled base s cell (cell.of s.producer.live) := by
  refine ⟨?_, hsampled.le, ?_⟩
  · rw [hsampled]
    exact h.producer.live cell
  · rw [hsampled]
    exact h.producer.length_writes_le

/-- Sampling another byte changes nothing about this one. -/
theorem Sampled.note {cell : VICCell} {value : Byte} (h : Sampled base s cell value) {q : VICQuery}
    (hq : (s.note q).history.sampled cell = s.history.sampled cell) :
    Sampled base (s.note q) cell value := by
  refine ⟨?_, ?_, ?_⟩
  · rw [producer_note, hq]
    exact h.value_eq
  · rw [producer_note, hq]
    exact h.le_writes
  · rw [producer_note, hq]
    exact h.le_published

/-- The registers are sampled one after the other; those still to come may hold anything. -/
theorem ensures_readRegisters (h : Resting base x s) (liveVIC : Registers) :
    shared.Ensures (VICLatch.readRegisters liveVIC)
      (fun s vic => Resting base x s ∧ ∀ r : BitVec 6, Sampled base s (.register r) (vic r.toNat))
      s := by
  refine (ensures_foldlM (fun rest s vic => Resting base x s ∧ (∀ i ∈ rest, i < 0x40) ∧
    ∀ r : BitVec 6, r.toNat ∉ rest → Sampled base s (.register r) (vic r.toNat)) ?_ ?_
    (List.range 0x40) liveVIC s ?_).mono
      fun s vic hs => ⟨hs.1, fun r => hs.2.2 r List.not_mem_nil⟩
  · rintro vic s s' ⟨hrest, hlt, hsampled⟩ hlater
    exact ⟨hrest.later hlater, hlt, fun r hr => (hsampled r hr).later hlater⟩
  · rintro i l s vic ⟨hrest, hlt, hsampled⟩
    refine ensures_query_bind fun s' hs' _ => ⟨trivial, ensures_pure fun s'' hs'' => ?_⟩
    have hi : i < 0x40 := hlt i List.mem_cons_self
    have hrest' := hrest.later hs'
    refine ⟨(hrest'.note (q := .register (BitVec.ofNat 6 i)) (.inl trivial)).later hs'', fun k hk =>
      hlt k (List.mem_cons_of_mem i hk),
      fun r hr => ?_⟩
    refine Sampled.later ?_ hs''
    change Sampled base (s'.note (.register (BitVec.ofNat 6 i))) (.register r)
      (Function.update vic i (s'.producer.vicRegShadow (BitVec.ofNat 6 i)) r.toNat)
    by_cases hri : r.toNat = i
    · have hr : BitVec.ofNat 6 i = r := by
        rw [← hri, BitVec.ofNat_toNat, BitVec.setWidth_eq]
      rw [hri, Function.update_self, hr]
      have hread := (hrest'.sound.note (.register r)).sampled (.register r)
        (Function.update_self _ _ _)
      rw [VICProducer.of_live_register, producer_note] at hread
      exact hread
    · rw [Function.update_of_ne hri]
      refine Sampled.note
        ((hsampled r fun hmem => (List.mem_cons.mp hmem).elim hri hr).later hs') ?_
      refine Function.update_of_ne ?_ _ _
      intro heq
      refine hri ?_
      rw [VICCell.register.inj heq, BitVec.toNat_ofNat, Nat.mod_eq_of_lt hi]
  · exact ⟨h, fun i hi => List.mem_range.mp hi, fun r hr => absurd (List.mem_range.mpr r.isLt) hr⟩

theorem Latched.later {latch : VICLatch} (h : Latched base s latch) (hlater : Later s s') :
    Latched base s' latch := by
  have hfollows := hlater.follows
  refine ⟨h.generation.trans hfollows.generation.symm, ?_, h.bank, ?_, ?_, ?_, ?_⟩
  · rw [hlater.1]
    exact h.head
  · intro cell
    rw [hlater.1, valuesAfter_of_prefix_eq base hfollows.writes (h.le_writes cell)]
    exact h.value_eq cell
  · intro cell
    rw [hlater.1]
    exact (h.le_writes cell).trans hfollows.writes.length_le
  · rw [hlater.1]
    exact h.le_latched
  · rw [hlater.1]
    exact h.pending

/-- The second sample of the head closes a latch. -/
theorem latched_note_head (latch : VICLatch) (hsound : s.Sound base)
    (hgeneration : latch.generation = s.producer.capture.vicLogGeneration)
    (hhead : latch.head = s.producer.capture.vicLogHead)
    (hbank : latch.liveBank &&& 3 = latch.liveBank)
    (hsampled : ∀ cell : VICCell,
      Sampled base s cell (cell.of (latch.liveVIC, latch.liveBank))) :
    Latched base (s.note .head) latch := by
  refine ⟨hgeneration, hhead.trans hsound.producer.head, hbank, fun cell =>
    (hsampled cell).value_eq,
    fun cell => (hsampled cell).le_writes, fun cell => (hsampled cell).le_published, ?_⟩
  -- a sample of more writes than events are published met the store of the append in progress
  rintro ⟨cell, hcell⟩
  have hcell : s.history.sampled cell = s.producer.published + 1 := hcell
  have hlt : s.producer.published < s.producer.writes.length := by
    have hle := (hsampled cell).le_writes
    omega
  obtain ⟨change, hchange, -⟩ := hsound.producer.pending_of_lt hlt
  exact ⟨change, hchange⟩

/-- The tail a frame starts from is not ahead of the head it latched. -/
def Ahead (x : VICRasterReplay) (s : HandOffStore) : Prop :=
  x.primed = true → x.generation = s.producer.capture.vicLogGeneration →
    s.history.next ≤ s.history.latched

theorem Ahead.later (h : Ahead x s) (hlater : Later s s') : Ahead x s' := by
  intro hprimed hgeneration
  rw [hlater.1]
  exact h hprimed (hgeneration.trans hlater.follows.generation)

theorem ensures_attemptM (h : Resting base x s) (latch : VICLatch) :
    shared.Ensures (VICLatch.attemptM latch)
      (fun s r => Resting base x s ∧ Latched base s r.2 ∧ Ahead x s) s := by
  rw [VICLatch.attemptM]
  refine ensures_query_bind fun s₁ h₁ _ => ⟨trivial, ?_⟩
  refine ensures_query_bind fun s₂ h₂ _ => ⟨trivial, ?_⟩
  have hrest := ((h.later h₁).later h₂).note (q := .head) (.inl trivial)
  refine (ensures_readRegisters hrest latch.liveVIC).bind fun s₃ vic h₃ => ?_
  obtain ⟨hrest₃, hvic⟩ := h₃
  refine ensures_query_bind fun s₄ h₄ _ => ⟨trivial, ?_⟩
  have hrest₄ := (hrest₃.later h₄).note (q := .bank) (.inl trivial)
  have hbank := hrest₄.sound.sampled .bank rfl
  have hvic₄ : ∀ r : BitVec 6, Sampled base (s₄.note .bank) (.register r) (vic r.toNat) :=
    fun r => ((hvic r).later h₄).note (q := .bank) rfl
  refine ensures_query_bind fun s₅ h₅ _ => ⟨trivial, ?_⟩
  have hrest₅ := hrest₄.later h₅
  refine ensures_query_bind fun s₆ h₆ _ => ⟨trivial, ?_⟩
  refine ensures_pure fun s₇ h₇ => ?_
  have hmask : ∀ base : BitVec 2, base.setWidth 8 &&& 3#8 = base.setWidth 8 := by decide
  have hlatched := latched_note_head ⟨s₆.producer.capture.vicLogGeneration,
    s₅.producer.capture.vicLogHead, vic, s₄.producer.vicBank.setWidth 8⟩ hrest₅.sound
    (Later.follows h₆).generation rfl (hmask _) ?_
  · refine ⟨((hrest₅.note (q := .head) (.inl trivial)).later h₆).later h₇,
      (hlatched.later h₆).later h₇, ?_⟩
    refine Ahead.later (Ahead.later ?_ h₆) h₇
    exact fun hprimed hgeneration => (hrest₅.handsOver hprimed hgeneration).next_le
  · intro cell
    cases cell with
    | register r => exact (hvic₄ r).later h₅
    | bank => exact hbank.later h₅

/-- Agreeing or not, the last attempt is what a latch has. -/
theorem ensures_latchM (h : Resting base x s) (left : ℕ) (latch : VICLatch) :
    shared.Ensures (VICLatch.latchM (left + 1) latch)
      (fun s latch => Resting base x s ∧ Latched base s latch ∧ Ahead x s) s := by
  have hstop : ∀ s latch, Resting base x s ∧ Latched base s latch ∧ Ahead x s →
      shared.Ensures (pure latch)
        (fun s latch => Resting base x s ∧ Latched base s latch ∧ Ahead x s) s :=
    fun s latch hs => ensures_pure fun s' hs' =>
      ⟨hs.1.later hs', hs.2.1.later hs', hs.2.2.later hs'⟩
  induction left generalizing s latch with
  | zero =>
      refine (ensures_attemptM h latch).bind fun s r hr => ?_
      dsimp only
      split
      · exact hstop s r.2 hr
      · exact hstop s r.2 hr
  | succ left ih =>
      refine (ensures_attemptM h latch).bind fun s r hr => ?_
      dsimp only
      split
      · exact hstop s r.2 hr
      · exact ih hr.1 r.2

/-- The prime takes the registers of the latched head, but for the store of an append in
progress. -/
theorem ensures_rePrimeM (h : s.Sound base) {latch : VICLatch} (hlatched : Latched base s latch)
    (frame : FrameInput) :
    shared.Ensures (VICRasterReplay.rePrimeM (frame.build none latch))
      (fun s r => s.HandsOver base r.1) s := by
  refine ensures_query_bind fun s' hs' hallowed => ⟨trivial, ensures_pure fun s'' hs'' => ?_⟩
  refine HandsOver.later ?_ hs''
  replace h := h.later hs'
  replace hlatched := hlatched.later hs'
  have hle := h.latched_le.trans s'.producer.published_le
  have hwrites := s'.producer.length_appended_le
  refine ⟨rfl, hlatched.generation, hlatched.head, h.latched_le, fun cell => ?_⟩
  have hvalue : cell.of (VICRasterReplay.rePrime (frame.build none latch)).state.scalars =
      cell.of (valuesAfter base s'.producer.writes (s'.history.sampled cell)) := by
    rw [scalars_rePrime]
    change cell.of (latch.liveVIC, latch.liveBank &&& 3) = _
    rw [hlatched.bank]
    exact hlatched.value_eq cell
  have htake : cell.of ((s'.producer.appended.take s'.history.latched).foldl applyScalar base) =
      cell.of (valuesAfter base s'.producer.writes s'.history.latched) := by
    rw [s'.producer.foldl_take_appended base hle]
  by_cases hsampled : s'.history.sampled cell ≤ s'.history.latched
  · -- nothing that the head counts changed the byte after it was sampled
    refine .inl (hvalue.trans (Eq.trans ?_ htake.symm))
    refine (cell_valuesAfter_of_untouched base cell hsampled (hle.trans hwrites) ?_).symm
    intro n w hn hlt hw
    have hget : s'.producer.appended[n]? = some (s'.producer.appended.get ⟨n, by omega⟩) :=
      List.getElem?_eq_getElem _
    rw [VICProducer.writes_of_appended _ hget, Option.some.injEq] at hw
    rw [← hw]
    exact hallowed cell n _ hn hlt hget
  · -- the sample met the store of the append in progress
    have hsucc : s'.history.sampled cell = s'.history.latched + 1 :=
      le_antisymm (hlatched.le_latched cell) (Nat.lt_of_not_le hsampled)
    obtain ⟨change, hchange⟩ := hlatched.pending ⟨cell, hsucc⟩
    rw [hsucc, valuesAfter_succ base _ (h.pending change hchange), cell_applyWrite] at hvalue
    split at hvalue
    · next hcode => exact .inr ⟨rfl, change, hchange, hcode, hvalue⟩
    · exact .inl (hvalue.trans htake.symm)

end Latch

end HandOffStore

end ScpuEmu
