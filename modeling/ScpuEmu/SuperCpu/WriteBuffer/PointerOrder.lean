import ScpuEmu.SuperCpu.WriteBuffer.Representation

/-!
# Pointer commits and what was queued before them

A sprite pointer is queued behind the shape it selects. What carries the order is
the relation `QueuedAhead` between two entries of the queue: a pointer commit
establishes it, and a pass over the queue keeps it as long as its budget does not
run out between the two entries. A pass that stops between them has already
rotated the first entry to the back, and the second is now ahead.
-/

namespace ScpuEmu

open Library

/-- `a` stands before `p` in the list. -/
def QueuedAhead {α : Type*} (l : List α) (a p : α) : Prop := List.Sublist [a, p] l

namespace QueuedAhead

variable {α : Type*} {l : List α} {a p : α}

theorem of_append {l₁ l₂ l₃ : List α} (a p : α) :
    QueuedAhead (l₁ ++ a :: (l₂ ++ p :: l₃)) a p := by
  have hp : List.Sublist [p] (l₂ ++ p :: l₃) := List.singleton_sublist.mpr (by simp)
  exact (hp.cons_cons a).trans (List.sublist_append_right l₁ _)

theorem split (h : QueuedAhead l a p) : ∃ l₁ l₂ l₃, l = l₁ ++ a :: (l₂ ++ p :: l₃) := by
  obtain ⟨r₁, r₂, rfl, ha, hp⟩ := List.cons_sublist_iff.mp h
  obtain ⟨l₁, l₂, rfl⟩ := List.append_of_mem ha
  obtain ⟨l₃, l₄, rfl⟩ := List.append_of_mem (List.singleton_sublist.mp hp)
  exact ⟨l₁, l₂ ++ l₃, l₄, by simp⟩

theorem ne (h : QueuedAhead l a p) (hl : l.Nodup) : a ≠ p := by
  have hpair := h.nodup hl
  simpa using hpair

theorem of_mem_append (ha : a ∈ l) (p : α) : QueuedAhead (l ++ [p]) a p :=
  (List.singleton_sublist.mpr ha).append (List.Sublist.refl [p])

theorem append (h : QueuedAhead l a p) (l' : List α) : QueuedAhead (l ++ l') a p :=
  h.trans (List.sublist_append_left l l')

theorem erase [DecidableEq α] (h : QueuedAhead l a p) {x : α} (ha : x ≠ a) (hp : x ≠ p) :
    QueuedAhead (l.erase x) a p := by
  have hsub := List.Sublist.erase x h
  rwa [List.erase_of_not_mem (by simp [ha, hp])] at hsub

end QueuedAhead

namespace WriteBuffer

variable {b : WriteBuffer}

/-! ### One pass -/

section Pass

variable {take : Addr → Bool} {a p : Addr} {l₁ l₂ l₃ : List Addr}

/-- A pass that stops before both entries leaves them where they are. -/
theorem pass_before {budget : ℕ} (h : budget ≤ l₁.countP take) (a p : Addr) (l₂ l₃ : List Addr) :
    selected take budget (l₁ ++ a :: (l₂ ++ p :: l₃)) = selected take budget l₁ ∧
      untouched take budget (l₁ ++ a :: (l₂ ++ p :: l₃)) ++
          deferred take budget (l₁ ++ a :: (l₂ ++ p :: l₃)) =
        untouched take budget l₁ ++ a :: (l₂ ++ p :: (l₃ ++ deferred take budget l₁)) := by
  obtain ⟨hs, hd, hu⟩ := pass_append_of_le take h (a :: (l₂ ++ p :: l₃))
  rw [hs, hd, hu]
  simp

/-- A pass that meets a selected entry sends it, behind what it selected before. -/
theorem pass_sends {budget : ℕ} (h : l₁.countP take < budget) (ha : take a = true)
    (l' : List Addr) :
    ∃ rest, selected take budget (l₁ ++ a :: l') = l₁.filter take ++ a :: rest := by
  obtain ⟨hs, -, -⟩ := pass_append_of_lt take h (a :: l')
  obtain ⟨n, hn⟩ := Nat.exists_eq_succ_of_ne_zero (Nat.sub_ne_zero_of_lt h)
  rw [hs, hn, selected, if_pos ha]
  exact ⟨_, rfl⟩

/-- A pass that meets both entries and selects neither defers them in order. -/
theorem pass_after {budget : ℕ} (h : (l₁ ++ a :: l₂).countP take < budget) (ha : take a = false)
    (hp : take p = false) :
    ∃ rest, untouched take budget (l₁ ++ a :: (l₂ ++ p :: l₃)) ++
        deferred take budget (l₁ ++ a :: (l₂ ++ p :: l₃)) =
      untouched take (budget - (l₁ ++ a :: l₂).countP take) l₃ ++
        (l₁.filter (fun x => !take x) ++
          a :: (l₂.filter (fun x => !take x) ++ p :: rest)) := by
  have hlist : l₁ ++ a :: (l₂ ++ p :: l₃) = (l₁ ++ a :: l₂) ++ p :: l₃ := by simp
  have hpos : 0 < budget - (l₁ ++ a :: l₂).countP take := Nat.sub_pos_of_lt h
  have hnone : [p].countP take < budget - (l₁ ++ a :: l₂).countP take := by simpa [hp] using hpos
  obtain ⟨-, hd, hu⟩ := pass_append_of_lt take h (p :: l₃)
  obtain ⟨-, hd', hu'⟩ := pass_append_of_lt take hnone l₃
  rw [List.singleton_append] at hd' hu'
  rw [hlist, hd, hu, hd', hu']
  simp [ha, hp]

end Pass

/-! ### Commits -/

section Commits

theorem entries_moveDirtyToTail (h : Represents b) {p : Addr} (hp : p ∈ b.entries) :
    (b.moveDirtyToTail p).entries = b.entries.erase p ++ [p] := by
  have hidx : b.entries.idxOf p < b.entries.length := List.idxOf_lt_length_of_mem hp
  have hlt : b.entries.idxOf p < b.queue.count := by rwa [length_entries] at hidx
  have hget : b.entries[b.entries.idxOf p] = p := List.getElem_idxOf hidx
  have herase : b.entries.erase p = b.entries.eraseIdx (b.entries.idxOf p) :=
    List.erase_eq_eraseIdx_of_idxOf rfl
  have hlast : b.entries.idxOf p + 1 = b.queue.count →
      b.entries = b.entries.erase p ++ [p] := by
    intro hend
    rw [herase, List.eraseIdx_eq_take_drop_succ,
      List.drop_of_length_le (by rw [length_entries]; omega), List.append_nil]
    have hall : b.entries.take (b.entries.idxOf p + 1) = b.entries :=
      List.take_of_length_le (by rw [length_entries]; omega)
    have htake := List.take_append_getElem hidx
    rw [hget, hall] at htake
    exact htake.symm
  rw [WriteBuffer.moveDirtyToTail]
  split
  · exact hlast (by omega)
  · dsimp only
    split
    · rename_i hend
      exact hlast (hend.resolve_left (by omega))
    · rw [herase]
      exact RingBuffer.toList_moveToBack b.queue _ p hlt h.count_le

theorem entries_append {a : Addr} (h : b.queue.count < capacity) :
    (b.append a).entries = b.entries ++ [a] := by
  rw [WriteBuffer.append, if_pos h]
  exact RingBuffer.toList_push b.queue a h

/-- The queue after an accepted write: unchanged, or with the address at its end. -/
theorem entries_accept (h : Represents b) (a : Addr) (v : Byte) :
    (b.accept a v).entries =
      if a ∈ b.entries ∧ isPotentialVICSpritePointer a = false then b.entries
      else b.entries.erase a ++ [a] := by
  rw [WriteBuffer.accept]
  obtain ⟨staged, hstaged⟩ :
      ∃ staged, staged = { b with pendingValue := Function.update b.pendingValue a v } := ⟨_, rfl⟩
  have hentries : b.entries = staged.entries := by rw [hstaged]; rfl
  have hrep : Represents staged := hstaged ▸ h.of_frame rfl rfl fun _ => rfl
  rw [← hstaged, hentries]
  by_cases hdirty : a ∈ staged.entries
  · rw [if_pos ((hrep.mem_iff a).mp hdirty)]
    cases hptr : isPotentialVICSpritePointer a with
    | false => simp [hdirty]
    | true =>
        rw [if_pos rfl, if_neg (by simp)]
        exact entries_moveDirtyToTail hrep hdirty
  · have hclean : staged.isDirty a = false := by
      rw [hrep.mem_iff] at hdirty
      exact Bool.not_eq_true _ ▸ hdirty
    rw [if_neg (by simp [hclean]), if_neg (by simp [hdirty]), List.erase_of_not_mem hdirty]
    have hroom : (staged.setDirty a).queue.count < capacity := hrep.count_lt hclean
    exact entries_append hroom

theorem entries_relocateWrite (w : View) (a : Addr) :
    (b.relocateWrite w a).1.entries = b.entries := by
  rw [WriteBuffer.relocateWrite]
  split
  · rfl
  · dsimp only
    split
    · split <;> rfl
    · split <;> rfl

/-- The address that a guest write commits to the queue, if it commits one. -/
def commits (b : WriteBuffer) (w : View) (a : Addr) (v : Byte) : Option Addr :=
  if b.deliveryEnabled = false then none
  else
    match b.relocateWrite w a with
    | (_, .shielded) => none
    | (b', .forward a') =>
        if b'.shouldMirror a' = true ∧ b'.eliminates w a' v = false then some a' else none

theorem entries_onRamWrite (h : Represents b) (w : View) (a : Addr) (v : Byte) :
    (b.onRamWrite w a v).1.entries =
      match b.commits w a v with
      | none => b.entries
      | some a' =>
          if a' ∈ b.entries ∧ isPotentialVICSpritePointer a' = false then b.entries
          else b.entries.erase a' ++ [a'] := by
  have hrouted := h.relocateWrite w a
  have hentries := entries_relocateWrite (b := b) w a
  rw [WriteBuffer.onRamWrite, commits]
  split
  · rfl
  · cases hroute : b.relocateWrite w a with
    | mk b' routed =>
        rw [hroute] at hrouted hentries
        cases routed with
        | shielded => exact hentries
        | forward a' =>
            dsimp only at hrouted hentries ⊢
            rw [← hentries]
            cases hmirror : b'.shouldMirror a' with
            | false => rfl
            | true =>
                cases heliminates : b'.eliminates w a' v with
                | true => rfl
                | false => exact entries_accept hrouted a' v

theorem bus_onRamWrite (w : View) (a : Addr) (v : Byte) :
    (b.onRamWrite w a v).1.bus = b.bus := by
  have hmove : ∀ (c : WriteBuffer) (x : Addr), (c.moveDirtyToTail x).bus = c.bus := by
    intro c x
    obtain ⟨q, hq, -⟩ := moveDirtyToTail_frame c x
    rw [hq]
  have haccept : ∀ (c : WriteBuffer) (x : Addr), (c.accept x v).bus = c.bus := by
    intro c x
    simp only [WriteBuffer.accept, WriteBuffer.append]
    split_ifs <;> simp [hmove, setDirty]
  have hroute : (b.relocateWrite w a).1.bus = b.bus := by
    rw [WriteBuffer.relocateWrite]
    split
    · rfl
    · dsimp only
      split_ifs <;> rfl
  rw [WriteBuffer.onRamWrite]
  split
  · rfl
  · split
    · rename_i b' hb'
      rw [← hroute, hb']
    · rename_i b' a' hb'
      rw [hb'] at hroute
      split_ifs
      · exact hroute
      · exact hroute
      · rw [haccept, ← hroute]

end Commits

/-! ### Runs after a commit -/

section Runs

/-- The addresses that bus calls deliver to, in order. -/
def deliveries (calls : List BusCall) : List Addr :=
  calls.flatMap fun call =>
    match call with
    | .writeBurst burst => burst.map C64BusWrite.addr
    | .readRAM _ => []

@[simp] theorem deliveries_nil : deliveries [] = [] := rfl

@[simp] theorem deliveries_writeBurst (burst : List C64BusWrite) (calls : List BusCall) :
    deliveries (.writeBurst burst :: calls) = burst.map C64BusWrite.addr ++ deliveries calls := rfl

/-- A buffer with the addresses delivered since a commit. -/
structure Delivering where
  buffer : WriteBuffer
  delivered : List Addr

/-- The calls that may follow a commit. -/
inductive LaterCall
  | onRamWrite (w : View) (a : Addr) (v : Byte)
  | flushUpTo (w : View) (maxBytes : ℕ)
  | flushRangeUpTo (w : View) (base len maxBytes : ℕ)

def Delivering.step (s : Delivering) : LaterCall → Delivering
  | .onRamWrite w a v => ⟨(s.buffer.onRamWrite w a v).1, s.delivered⟩
  | .flushUpTo w maxBytes =>
      let (buffer, calls) := s.buffer.flushUpTo w maxBytes
      ⟨buffer, s.delivered ++ deliveries calls⟩
  | .flushRangeUpTo w base len maxBytes =>
      let (buffer, calls) := s.buffer.flushRangeUpTo w base len maxBytes
      ⟨buffer, s.delivered ++ deliveries calls⟩

/-- The calls that a pointer at `p`, queued behind `a`, has to survive: writes to other
addresses, flushes, and flushes of ranges without `p`. -/
def LaterCall.Spares (a p : Addr) : LaterCall → Prop
  | .onRamWrite _ x _ => x ≠ p ∧ x ≠ a
  | .flushUpTo _ _ => True
  | .flushRangeUpTo _ base len _ => addressInRange p base len = false

/-- How many entries of the range stand ahead of `a`. -/
def rangeAhead (b : WriteBuffer) (base len : ℕ) (a : Addr) : ℕ :=
  (b.entries.takeWhile (· ≠ a)).countP fun x => addressInRange x base len

/-- No pass of a flush of the range runs out of budget between the two entries: a pass
ends after every 512 bytes and when the budget is used up. -/
def PassesClear (ahead aheadP maxBytes : ℕ) : Prop :=
  ∀ sent, sent ≤ maxBytes → sent = maxBytes ∨ chunk ∣ sent → ahead < sent → aheadP < sent

/-- The call does not move `a` behind `p`: no relocated write commits to `a` when `a` is
itself a pointer, and no pass over a range without `a` ends between the two. -/
def Delivering.Steady (a p : Addr) (s : Delivering) : LaterCall → Prop
  | .onRamWrite w x v =>
      a ∈ s.delivered ∨
        ¬(s.buffer.commits w x v = some a ∧ isPotentialVICSpritePointer a = true)
  | .flushUpTo _ _ => True
  | .flushRangeUpTo _ base len maxBytes =>
      a ∈ s.delivered ∨ addressInRange a base len = true ∨
        PassesClear (s.buffer.rangeAhead base len a) (s.buffer.rangeAhead base len p) maxBytes

/-- `a` has been delivered before any `p`, or it is still ahead of `p` in the queue. -/
structure Delivering.Ordered (a p : Addr) (s : Delivering) : Prop where
  represents : Represents s.buffer
  order : (∃ before after, s.delivered = before ++ a :: after ∧ p ∉ before) ∨
    (p ∉ s.delivered ∧ (s.buffer.bus = false ∨ QueuedAhead s.buffer.entries a p))

theorem entries_flushSelectedChunk (h : Represents b) (w : View) (sel : Selection) (n : ℕ) :
    (b.flushSelectedChunk w sel n).2.map C64BusWrite.addr = b.chunkSelection w sel n ∧
      (b.queue.count ≠ 0 → n ≠ 0 → b.bus = true →
        (b.flushSelectedChunk w sel n).1.entries =
          untouched (sel.take w) (min n chunk) b.entries ++
            deferred (sel.take w) (min n chunk) b.entries) := by
  constructor
  · obtain ⟨q, g, np, heq, -, -, -⟩ := flushSelectedChunk_cases h w sel n
    rw [heq, List.map_map]
    exact List.map_id _
  · intro hcount hn hbus
    obtain ⟨-, hlist, -⟩ := RingBuffer.toList_drain_count (sel.take w) (min n chunk) b.queue
      h.count_le h.head_lt
    rw [flushSelectedChunk, if_neg (by simp [hcount, hn, hbus])]
    dsimp only
    split <;> exact hlist

/-- The list reaches `a` before any `p`. -/
def ReachesFirst (a p : Addr) (l : List Addr) : Prop :=
  ∃ before after, l = before ++ a :: after ∧ p ∉ before

theorem ReachesFirst.append {a p : Addr} {l : List Addr} (h : ReachesFirst a p l)
    (l' : List Addr) : ReachesFirst a p (l ++ l') := by
  obtain ⟨before, after, rfl, hp⟩ := h
  exact ⟨before, after ++ l', by simp, hp⟩

theorem reachesFirst_of_mem {a p : Addr} {l : List Addr} (ha : a ∈ l) (hp : p ∉ l) :
    ReachesFirst a p l := by
  obtain ⟨before, after, rfl⟩ := List.append_of_mem ha
  exact ⟨before, after, rfl, fun hmem => hp (List.mem_append_left _ hmem)⟩

theorem ReachesFirst.append_left {a p : Addr} {l l' : List Addr} (hp : p ∉ l)
    (h : ReachesFirst a p l') : ReachesFirst a p (l ++ l') := by
  obtain ⟨before, after, rfl, hbefore⟩ := h
  refine ⟨l ++ before, after, by simp, ?_⟩
  simp [hp, hbefore]

/-- Whoever is reached first stands before every `p`. -/
theorem ReachesFirst.mem_before {a p : Addr} {l before after : List Addr}
    (h : ReachesFirst a p l) (hl : l = before ++ p :: after) : a ∈ before ∨ a = p := by
  obtain ⟨front, back, heq, hp⟩ := h
  rw [heq, List.append_eq_append_iff] at hl
  rcases hl with ⟨mid, rfl, htail⟩ | ⟨mid, rfl, htail⟩
  · cases mid with
    | nil =>
        rw [List.nil_append, List.cons.injEq] at htail
        exact .inr htail.1
    | cons x mid =>
        rw [List.cons_append, List.cons.injEq] at htail
        exact .inl (by simp [htail.1])
  · cases mid with
    | nil =>
        rw [List.nil_append, List.cons.injEq] at htail
        exact .inr htail.1.symm
    | cons x mid =>
        rw [List.cons_append, List.cons.injEq] at htail
        simp [htail.1] at hp

section Range

variable {w : View} {base len : ℕ} {a p : Addr}

theorem take_rangeSelection (x : Addr) :
    (rangeSelection base len).take w x = addressInRange x base len := by
  have hnone : addressInRange x 0xFFFFFFFF 0 = false := rfl
  rw [Selection.take, rangeSelection, hnone, Bool.or_false]
  rfl

theorem flushRangeLoop_spares (hp : addressInRange p base len = false) (fuel budget : ℕ)
    (h : Represents b) :
    Represents (flushRangeLoop w base len fuel budget b).1 ∧
      p ∉ deliveries (flushRangeLoop w base len fuel budget b).2 := by
  induction fuel generalizing budget b with
  | zero => exact ⟨h, List.not_mem_nil⟩
  | succ fuel ih =>
      rw [flushRangeLoop]
      split
      · exact ⟨h, List.not_mem_nil⟩
      · have hround := h.flushSelectedChunk w (rangeSelection base len) budget
        obtain ⟨hsent, -⟩ := entries_flushSelectedChunk h w (rangeSelection base len) budget
        dsimp only
        split
        · exact ⟨hround, List.not_mem_nil⟩
        · obtain ⟨hrest, hspared⟩ := ih (budget - _) hround
          refine ⟨hrest, ?_⟩
          rw [deliveries_writeBurst, hsent, List.mem_append, chunkSelection]
          rintro (hmem | hmem)
          · split at hmem
            · exact List.not_mem_nil hmem
            · have htaken := (mem_selected _ _ _ _ hmem).2
              rw [take_rangeSelection, hp] at htaken
              cases htaken
          · exact hspared hmem

theorem bus_flushRangeUpTo (w : View) (base len maxBytes : ℕ) :
    (b.flushRangeUpTo w base len maxBytes).1.bus = b.bus := by
  rw [flushRangeUpTo]
  generalize b.queue.count = fuel
  induction fuel generalizing maxBytes b with
  | zero => rfl
  | succ fuel ih =>
      rw [flushRangeLoop]
      split
      · rfl
      · dsimp only
        split
        · exact flushSelectedChunk_bus b w _ _
        · exact (ih _).trans (flushSelectedChunk_bus b w _ _)

/-- A flush of a range without `p`, none of whose passes ends between `a` and `p`, delivers
`a` or leaves it ahead. -/
theorem flushRangeLoop_ordered (hp : addressInRange p base len = false) (fuel budget : ℕ)
    {l₁ l₂ l₃ : List Addr} (h : Represents b) (hl : b.entries = l₁ ++ a :: (l₂ ++ p :: l₃))
    (hclear : addressInRange a base len = true ∨
      PassesClear (l₁.countP fun x => addressInRange x base len)
        ((l₁ ++ a :: l₂).countP fun x => addressInRange x base len) budget) :
    a ∈ deliveries (flushRangeLoop w base len fuel budget b).2 ∨
      QueuedAhead (flushRangeLoop w base len fuel budget b).1.entries a p := by
  have hahead : QueuedAhead b.entries a p := hl ▸ QueuedAhead.of_append a p
  induction fuel generalizing budget b l₁ l₂ l₃ with
  | zero => exact .inr hahead
  | succ fuel ih =>
      rw [flushRangeLoop]
      split
      · exact .inr hahead
      rename_i hgo
      have hcount : b.queue.count ≠ 0 := fun hc => hgo (.inl hc)
      have hbudget : budget ≠ 0 := fun hb => hgo (.inr (.inl hb))
      have htake : (rangeSelection base len).take w = fun x => addressInRange x base len :=
        funext take_rangeSelection
      have hround := h.flushSelectedChunk w (rangeSelection base len) budget
      obtain ⟨hsent, hentries⟩ := entries_flushSelectedChunk h w (rangeSelection base len) budget
      cases hbus : b.bus with
      | false =>
          have hnone : b.flushSelectedChunk w (rangeSelection base len) budget = (b, []) := by
            rw [flushSelectedChunk, if_pos (by simp [hbus])]
          rw [hnone]
          exact .inr hahead
      | true =>
          have hlist := hentries hcount hbudget hbus
          have hlength : (b.flushSelectedChunk w (rangeSelection base len) budget).2.length =
              min (min budget chunk) (b.entries.countP fun x => addressInRange x base len) := by
            rw [← List.length_map C64BusWrite.addr, hsent, chunkSelection,
              if_neg (by simp [hcount, hbudget, hbus]), length_selected, htake]
          rw [chunkSelection, if_neg (by simp [hcount, hbudget, hbus])] at hsent
          rw [htake, hl] at hsent hlist
          rw [hl] at hlength
          rcases Nat.lt_or_ge (l₁.countP fun x => addressInRange x base len)
            (min budget chunk) with hlt | hge
          · cases ha : addressInRange a base len with
            | true =>
                obtain ⟨rest, hrest⟩ := pass_sends hlt ha (l₂ ++ p :: l₃)
                rw [hrest] at hsent
                have hmem : a ∈ (b.flushSelectedChunk w (rangeSelection base len) budget).2.map
                    C64BusWrite.addr := by
                  rw [hsent]
                  simp
                dsimp only
                split
                · rename_i hempty
                  rw [List.length_eq_zero_iff.mp hempty] at hmem
                  exact absurd hmem List.not_mem_nil
                · rw [deliveries_writeBurst]
                  exact .inl (List.mem_append_left _ hmem)
            | false =>
                have hpasses := hclear.resolve_left (by simp [ha])
                have hmet : (l₁ ++ a :: l₂).countP (fun x => addressInRange x base len) <
                    min budget chunk := by
                  refine hpasses _ (Nat.min_le_left _ _) ?_ hlt
                  rcases Nat.le_total budget chunk with hle | hle
                  · exact .inl (Nat.min_eq_left hle)
                  · exact .inr (by rw [Nat.min_eq_right hle])
                obtain ⟨rest, hrest⟩ := pass_after hmet ha hp
                rw [hrest, ← List.append_assoc] at hlist
                have hnext := hlist ▸ QueuedAhead.of_append a p
                dsimp only
                split
                · exact .inr hnext
                · rw [deliveries_writeBurst]
                  refine (ih (budget - _) hround hlist (.inr ?_) hnext).imp_left
                    (List.mem_append_right _)
                  intro sent _ _ hsent
                  simpa [List.countP_append, ha, List.countP_filter] using hsent
          · obtain ⟨hsel, hrest⟩ := pass_before hge a p l₂ l₃
            rw [hrest] at hlist
            have hnext := hlist ▸ QueuedAhead.of_append a p
            have hused : min (min budget chunk)
                ((l₁ ++ a :: (l₂ ++ p :: l₃)).countP fun x => addressInRange x base len) =
                min budget chunk := by
              refine Nat.min_eq_left (hge.trans ?_)
              rw [List.countP_append]
              exact Nat.le_add_right _ _
            dsimp only
            split
            · exact .inr hnext
            · rw [deliveries_writeBurst, hlength, hused]
              refine (ih (budget - min budget chunk) hround hlist (hclear.imp_right ?_)
                hnext).imp_left (List.mem_append_right _)
              intro hpasses sent hle hend hless
              rw [countP_untouched] at hless
              rw [List.countP_append, countP_untouched]
              have hstep : l₁.countP (fun x => addressInRange x base len) <
                  sent + min budget chunk := by omega
              have hmore := hpasses (sent + min budget chunk) (by omega) ?_ hstep
              · rw [List.countP_append] at hmore
                omega
              · rcases Nat.le_total budget chunk with hb | hb
                · exact .inl (by omega)
                · rw [Nat.min_eq_right hb] at hend hle ⊢
                  rcases hend with hend | hend
                  · exact .inl (by omega)
                  · exact .inr (Nat.dvd_add hend (Nat.dvd_refl _))

end Range

section Fifo

theorem QueuedAhead.rememberNoProgress {a p : Addr} (h : QueuedAhead b.entries a p) (w : View)
    (deferHot : Bool) (screenBase bitmapBase : ℕ) :
    QueuedAhead (b.rememberNoProgress w deferHot screenBase bitmapBase).entries a p := by
  rw [WriteBuffer.rememberNoProgress]
  split <;> exact h

variable {w : View} {a p : Addr}

theorem take_fifo (x : Addr) :
    (displaySelection false 0xFFFFFFFF 0xFFFFFFFF).take w x = true := rfl

/-- A flush of everything delivers `a` before `p`, or leaves it ahead. -/
theorem flushPolicyLoop_ordered (fuel budget : ℕ) (h : Represents b)
    (hahead : QueuedAhead b.entries a p) :
    let flushed := flushPolicyLoop w false 0xFFFFFFFF 0xFFFFFFFF fuel budget b
    ReachesFirst a p (deliveries flushed.2) ∨
      (p ∉ deliveries flushed.2 ∧ QueuedAhead flushed.1.entries a p) := by
  induction fuel generalizing budget b with
  | zero => exact .inr ⟨List.not_mem_nil, hahead⟩
  | succ fuel ih =>
      rw [flushPolicyLoop]
      split
      · exact .inr ⟨List.not_mem_nil, hahead⟩
      rename_i hgo
      have hcount : b.queue.count ≠ 0 := fun hc => hgo (.inl hc)
      have hbudget : budget ≠ 0 := fun hb => hgo (.inr hb)
      have hround := h.flushSelectedChunk w (displaySelection false 0xFFFFFFFF 0xFFFFFFFF) budget
      obtain ⟨hsent, hentries⟩ :=
        entries_flushSelectedChunk h w (displaySelection false 0xFFFFFFFF 0xFFFFFFFF) budget
      cases hbus : b.bus with
      | false =>
          have hnone : b.flushSelectedChunk w (displaySelection false 0xFFFFFFFF 0xFFFFFFFF)
              budget = (b, []) := by
            rw [flushSelectedChunk, if_pos (by simp [hbus])]
          rw [hnone]
          exact .inr ⟨List.not_mem_nil, QueuedAhead.rememberNoProgress hahead w _ _ _⟩
      | true =>
          have hlist := hentries hcount hbudget hbus
          rw [chunkSelection, if_neg (by simp [hcount, hbudget, hbus])] at hsent
          obtain ⟨l₁, l₂, l₃, hl⟩ := hahead.split
          have hnodup := h.nodup
          rw [hl] at hsent hlist hnodup
          have hp : p ∉ l₁ := by
            intro hmem
            have hdisjoint := (List.nodup_append.mp hnodup).2.2 p hmem p (by simp)
            exact hdisjoint rfl
          rcases Nat.lt_or_ge
            (l₁.countP ((displaySelection false 0xFFFFFFFF 0xFFFFFFFF).take w))
            (min budget chunk) with hlt | hge
          · obtain ⟨rest, hrest⟩ := pass_sends hlt (take_fifo (w := w) a) (l₂ ++ p :: l₃)
            rw [hrest] at hsent
            have hreach : ReachesFirst a p ((b.flushSelectedChunk w
                (displaySelection false 0xFFFFFFFF 0xFFFFFFFF) budget).2.map C64BusWrite.addr) :=
              ⟨_, rest, hsent, fun hmem => hp (List.mem_of_mem_filter hmem)⟩
            dsimp only
            split
            · rename_i hempty
              rw [List.length_eq_zero_iff.mp hempty] at hreach
              obtain ⟨before, after, hnil, -⟩ := hreach
              simp at hnil
            · rw [deliveries_writeBurst]
              exact .inl (hreach.append _)
          · obtain ⟨hsel, hrest⟩ := pass_before hge a p l₂ l₃
            rw [hrest] at hlist
            rw [hsel] at hsent
            have hnext := hlist ▸ QueuedAhead.of_append a p
            have hspared : p ∉ (b.flushSelectedChunk w
                (displaySelection false 0xFFFFFFFF 0xFFFFFFFF) budget).2.map
                C64BusWrite.addr := by
              rw [hsent]
              exact fun hmem => hp (mem_selected _ _ _ _ hmem).1
            dsimp only
            split
            · exact .inr ⟨List.not_mem_nil, QueuedAhead.rememberNoProgress hnext w _ _ _⟩
            · rw [deliveries_writeBurst]
              rcases ih (budget - _) hround hnext with hreach | ⟨hlater, hkept⟩
              · exact .inl (hreach.append_left hspared)
              · refine .inr ⟨?_, hkept⟩
                rw [List.mem_append]
                exact fun hmem => hmem.elim hspared hlater

end Fifo

section Steps

variable {a p : Addr} {s : Delivering}

theorem Delivering.Ordered.onRamWrite (h : s.Ordered a p) (w : View) (x : Addr) (v : Byte)
    (hsteady : s.Steady a p (.onRamWrite w x v)) : (s.step (.onRamWrite w x v)).Ordered a p := by
  refine ⟨h.represents.onRamWrite w x v, ?_⟩
  rcases h.order with hreach | ⟨hp, hqueue⟩
  · exact .inl hreach
  rcases hsteady with hdelivered | hsteady
  · exact .inl (reachesFirst_of_mem hdelivered hp)
  refine .inr ⟨hp, ?_⟩
  rcases hqueue with hbus | hahead
  · exact .inl ((bus_onRamWrite w x v).trans hbus)
  refine .inr ?_
  have hmem : a ∈ s.buffer.entries := hahead.subset (by simp)
  have hne := hahead.ne h.represents.nodup
  show QueuedAhead (s.buffer.onRamWrite w x v).1.entries a p
  rw [entries_onRamWrite h.represents w x v]
  cases hcommit : s.buffer.commits w x v with
  | none => exact hahead
  | some target =>
      dsimp only
      split
      · exact hahead
      rename_i hmoves
      by_cases hta : target = a
      · subst hta
        cases hptr : isPotentialVICSpritePointer target with
        | false => exact absurd ⟨hmem, hptr⟩ hmoves
        | true => exact absurd ⟨hcommit, hptr⟩ hsteady
      · by_cases htp : target = p
        · subst htp
          refine QueuedAhead.of_mem_append ?_ target
          exact (List.mem_erase_of_ne hne).mpr hmem
        · exact (hahead.erase hta htp).append _

theorem Delivering.Ordered.flushUpTo (h : s.Ordered a p) (w : View) (maxBytes : ℕ) :
    (s.step (.flushUpTo w maxBytes)).Ordered a p := by
  have hrep : Represents (s.buffer.flushUpTo w maxBytes).1 :=
    flushUpTo_rule (represents_deliveryInvariant w) s.buffer (fun _ => 0) maxBytes h.represents
  refine ⟨hrep, ?_⟩
  rcases h.order with hreach | ⟨hp, hqueue⟩
  · exact .inl (ReachesFirst.append hreach _)
  show ReachesFirst a p _ ∨ _
  dsimp only [Delivering.step]
  rw [WriteBuffer.flushUpTo, flushUpToPolicy]
  split
  · exact .inr ⟨by simpa using hp, hqueue⟩
  split
  · exact .inr ⟨by simpa using hp, hqueue⟩
  split
  · rename_i hbus
    exact .inr ⟨by simpa using hp, .inl hbus⟩
  · rename_i hbus
    rcases flushPolicyLoop_ordered s.buffer.queue.count maxBytes h.represents
      (hqueue.resolve_left hbus) (w := w) with hreach | ⟨hlater, hkept⟩
    · exact .inl (hreach.append_left hp)
    · refine .inr ⟨?_, .inr hkept⟩
      rw [List.mem_append]
      exact fun hmem => hmem.elim hp hlater

theorem rangeAhead_split {base len : ℕ} {l₁ l₂ : List Addr} (hl : b.entries = l₁ ++ a :: l₂)
    (h : a ∉ l₁) : b.rangeAhead base len a = l₁.countP fun x => addressInRange x base len := by
  have hpass : ∀ x ∈ l₁, decide (x ≠ a) = true := by
    intro x hx
    exact decide_eq_true fun hxa => h (hxa ▸ hx)
  rw [rangeAhead, hl, List.takeWhile_append_of_pos hpass]
  simp

theorem Delivering.Ordered.flushRangeUpTo (h : s.Ordered a p) (w : View)
    (base len maxBytes : ℕ) (hspares : addressInRange p base len = false)
    (hsteady : s.Steady a p (.flushRangeUpTo w base len maxBytes)) :
    (s.step (.flushRangeUpTo w base len maxBytes)).Ordered a p := by
  obtain ⟨hrep, hspared⟩ := flushRangeLoop_spares (w := w) hspares s.buffer.queue.count maxBytes
    h.represents
  refine ⟨hrep, ?_⟩
  rcases h.order with hreach | ⟨hp, hqueue⟩
  · exact .inl (ReachesFirst.append hreach _)
  rcases hsteady with hdelivered | hclear
  · exact .inl (ReachesFirst.append (reachesFirst_of_mem hdelivered hp) _)
  have hp' : p ∉ (s.step (.flushRangeUpTo w base len maxBytes)).delivered := by
    show p ∉ _ ++ _
    rw [List.mem_append]
    exact fun hmem => hmem.elim hp hspared
  rcases hqueue with hbus | hahead
  · exact .inr ⟨hp', .inl ((bus_flushRangeUpTo w base len maxBytes).trans hbus)⟩
  obtain ⟨l₁, l₂, l₃, hl⟩ := hahead.split
  have hnodup := h.represents.nodup
  rw [hl] at hnodup
  have ha₁ : a ∉ l₁ := by
    intro hmem
    exact (List.nodup_append.mp hnodup).2.2 a hmem a (by simp) rfl
  have hp₁ : p ∉ l₁ ++ a :: l₂ := by
    rw [← List.cons_append, ← List.append_assoc] at hnodup
    intro hmem
    exact (List.nodup_append.mp hnodup).2.2 p hmem p (by simp) rfl
  have hl' : s.buffer.entries = (l₁ ++ a :: l₂) ++ p :: l₃ := by simp [hl]
  rw [rangeAhead_split hl ha₁, rangeAhead_split hl' hp₁] at hclear
  rcases flushRangeLoop_ordered hspares s.buffer.queue.count maxBytes h.represents hl hclear
    (w := w) with hmem | hkept
  · exact .inl (reachesFirst_of_mem (List.mem_append_right _ hmem) hp')
  · exact .inr ⟨hp', .inr hkept⟩

theorem Delivering.Ordered.step (h : s.Ordered a p) (call : LaterCall) (hspares : call.Spares a p)
    (hsteady : s.Steady a p call) : (s.step call).Ordered a p := by
  cases call with
  | onRamWrite w x v => exact h.onRamWrite w x v hsteady
  | flushUpTo w maxBytes => exact h.flushUpTo w maxBytes
  | flushRangeUpTo w base len maxBytes =>
      exact h.flushRangeUpTo w base len maxBytes hspares hsteady

end Steps

/-- The buffer after a guest write, with nothing delivered since. -/
def afterWrite (b : WriteBuffer) (w : View) (x : Addr) (v : Byte) : Delivering :=
  ⟨(b.onRamWrite w x v).1, []⟩

theorem ordered_afterWrite (h : Represents b) {w : View} {x : Addr} {v : Byte} {a p : Addr}
    (hptr : isPotentialVICSpritePointer p = true) (hcommit : b.commits w x v = some p)
    (ha : b.isDirty a = true) (hne : a ≠ p) : (b.afterWrite w x v).Ordered a p := by
  refine ⟨h.onRamWrite w x v, .inr ⟨List.not_mem_nil, .inr ?_⟩⟩
  show QueuedAhead (b.onRamWrite w x v).1.entries a p
  rw [entries_onRamWrite h w x v, hcommit]
  dsimp only
  rw [if_neg (by simp [hptr])]
  exact QueuedAhead.of_mem_append ((List.mem_erase_of_ne hne).mpr ((h.mem_iff a).mpr ha)) p

/-- Whenever `p` is delivered, `a` has been delivered before. -/
def DeliveredFirst (a p : Addr) (delivered : List Addr) : Prop :=
  ∀ before after, delivered = before ++ p :: after → a ∈ before

/-- What was dirty when a pointer was committed is delivered before the pointer, in every
run whose calls do not move it behind the pointer. -/
theorem pointer_commit_ordered (pendingValue : Addr → Byte) (list : ℕ → Addr) (ops : List Op)
    (w : View) (x : Addr) (v : Byte) (a p : Addr) (later : List LaterCall) :
    let b := Library.run WriteBuffer.step (construct pendingValue list) ops
    let start := b.afterWrite w x v
    isPotentialVICSpritePointer p = true → b.commits w x v = some p →
      b.isDirty a = true → a ≠ p →
      AllSteps Delivering.step (fun _ call => call.Spares a p) start later →
      AllSteps Delivering.step (Delivering.Steady a p) start later →
      DeliveredFirst a p (Library.run Delivering.step start later).delivered := by
  intro b start hptr hcommit ha hne hspares hsteady before after hdelivered
  have hstart : start.Ordered a p :=
    ordered_afterWrite (represents_run pendingValue list ops) hptr hcommit ha hne
  have hend : (Library.run Delivering.step start later).Ordered a p :=
    run_invariant_of_allSteps Delivering.step
      (fun s call h hcall => h.step call hcall.1 hcall.2) start later hstart
      ((allSteps_and Delivering.step start later).mpr ⟨hspares, hsteady⟩)
  rcases hend.order with hreach | ⟨hp, -⟩
  · exact (ReachesFirst.mem_before hreach hdelivered).resolve_right hne
  · rw [hdelivered] at hp
    exact absurd (by simp) hp

section Overtaken

/-- A shape byte and a byte of another range, queued before a pointer. -/
def shapeThenPointer : WriteBuffer :=
  Library.run WriteBuffer.step (construct (fun _ => 0) fun _ => 0)
    [.attach true, .onRamWrite ⟨none, none, none, none⟩ 0x2000 1,
      .onRamWrite ⟨none, none, none, none⟩ 0x4000 1]

/-- A range flush of one byte stops between the shape byte and the pointer. -/
def partialRangeFlush : List LaterCall :=
  [.flushRangeUpTo ⟨none, none, none, none⟩ 0x4000 1 1,
    .flushUpTo ⟨none, none, none, none⟩ 1]

/-- A range flush with a byte of budget left examines the whole queue. -/
def wholeRangeFlush : List LaterCall :=
  [.flushRangeUpTo ⟨none, none, none, none⟩ 0x4000 1 2,
    .flushUpTo ⟨none, none, none, none⟩ 8]

theorem passesClear_wholeRange : PassesClear 0 1 2 := by
  intro sent hsent hends hpos
  rcases hends with rfl | hchunk
  · omega
  · exact absurd (Nat.le_of_dvd hpos hchunk) (by have : chunk = 512 := rfl; omega)

theorem pointer_commit_ordered_fullPass :
    DeliveredFirst 0x2000 0x07F8
      (Library.run Delivering.step
        (shapeThenPointer.afterWrite ⟨none, none, none, none⟩ 0x07F8 1)
        wholeRangeFlush).delivered := by
  have hspares : addressInRange 0x07F8 0x4000 1 = false := by decide
  have hahead : (shapeThenPointer.afterWrite ⟨none, none, none, none⟩ 0x07F8 1).buffer.rangeAhead
      0x4000 1 0x2000 = 0 := by decide +kernel
  have haheadPtr : (shapeThenPointer.afterWrite ⟨none, none, none, none⟩ 0x07F8
      1).buffer.rangeAhead 0x4000 1 0x07F8 = 1 := by decide +kernel
  refine pointer_commit_ordered (fun _ => 0) (fun _ => 0)
    [.attach true, .onRamWrite ⟨none, none, none, none⟩ 0x2000 1,
      .onRamWrite ⟨none, none, none, none⟩ 0x4000 1]
    ⟨none, none, none, none⟩ 0x07F8 1 0x2000 0x07F8 wholeRangeFlush
    (by decide) (by decide +kernel) (by decide +kernel) (by decide) ⟨hspares, trivial, trivial⟩
    ⟨.inr (.inr ?_), trivial, trivial⟩
  show PassesClear (WriteBuffer.rangeAhead _ _ _ _) (WriteBuffer.rangeAhead _ _ _ _) 2
  exact hahead.symm ▸ haheadPtr.symm ▸ passesClear_wholeRange

/-- The pointer overtakes the shape byte. -/
theorem pointer_overtakes_shape :
    let start := shapeThenPointer.afterWrite ⟨none, none, none, none⟩ 0x07F8 1
    isPotentialVICSpritePointer 0x07F8 = true ∧
      shapeThenPointer.commits ⟨none, none, none, none⟩ 0x07F8 1 = some 0x07F8 ∧
      shapeThenPointer.isDirty 0x2000 = true ∧
      AllSteps Delivering.step (fun _ call => call.Spares 0x2000 0x07F8) start
        partialRangeFlush ∧
      ¬DeliveredFirst 0x2000 0x07F8
        (Library.run Delivering.step start partialRangeFlush).delivered := by
  intro start
  have hspares : addressInRange 0x07F8 0x4000 1 = false := by decide
  have hdelivered : (Library.run Delivering.step start partialRangeFlush).delivered =
      [0x4000] ++ 0x07F8 :: [] := by decide +kernel
  refine ⟨by decide, by decide +kernel, by decide +kernel, ⟨hspares, trivial, trivial⟩, ?_⟩
  intro hfirst
  exact absurd (hfirst [0x4000] [] hdelivered) (by decide)

end Overtaken

end Runs

end WriteBuffer

end ScpuEmu
