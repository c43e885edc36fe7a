import ScpuEmu.SuperCpu.WriteBuffer.PointerOrder
import ScpuEmu.SuperCpu.WriteBuffer.Progress

/-!
# A queued byte waits for what is ahead of it

A flush without display policy takes the queue from its head, so a queued byte is delivered
when the budgets exceed its position. New writes go to the tail, and a repeated write stays
where it is. Only a byte of a sprite pointer gives up its place: each accepted write of it
moves it behind everything that is queued, to arrive after the shape it selects.
-/

namespace ScpuEmu

open Library

namespace WriteBuffer

/-! ### Positions -/

section Positions

variable {α : Type*} [DecidableEq α] {l : List α} {a x : α}

theorem idxOf_erase_le (h : x ≠ a) (l : List α) : (l.erase x).idxOf a ≤ l.idxOf a := by
  induction l with
  | nil => exact le_rfl
  | cons y l ih =>
      by_cases hy : y = x
      · subst hy
        rw [List.erase_cons_head, List.idxOf_cons_ne l h]
        exact Nat.le_succ _
      · rw [List.erase_cons_tail (by simpa using hy)]
        by_cases hya : y = a
        · rw [hya, List.idxOf_cons_self]
          exact Nat.zero_le _
        · rw [List.idxOf_cons_ne _ hya, List.idxOf_cons_ne _ hya]
          exact Nat.succ_le_succ ih

theorem idxOf_drop (hmem : a ∈ l) {n : ℕ} (h : a ∉ l.take n) :
    a ∈ l.drop n ∧ n + (l.drop n).idxOf a = l.idxOf a := by
  have hsplit := List.take_append_drop n l
  have hdrop : a ∈ l.drop n := by
    rw [← hsplit, List.mem_append] at hmem
    exact hmem.resolve_left h
  have hlength : (l.take n).length = n := by
    rw [List.length_take]
    refine Nat.min_eq_left (Nat.le_of_lt ?_)
    rw [← Nat.sub_pos_iff_lt, ← List.length_drop]
    exact List.length_pos_of_mem hdrop
  have hidx : (l.take n ++ l.drop n).idxOf a = (l.take n).length + (l.drop n).idxOf a :=
    List.idxOf_append_of_notMem h
  rw [hsplit, hlength] at hidx
  exact ⟨hdrop, hidx.symm⟩

end Positions

/-! ### One flush -/

section Flush

variable {b : WriteBuffer}

theorem fifo_of_empty (h : b.queue.count = 0) (n : ℕ) :
    [] = b.entries.take n ∧ b.entries = b.entries.drop n := by
  have hnil : b.entries = [] := RingBuffer.toList_eq_nil b.queue h
  simp [hnil]

/-- One chunk under no policy takes the head of the queue. -/
theorem flushSelectedChunk_fifo (h : Represents b) (w : View) (hcount : b.queue.count ≠ 0)
    {n : ℕ} (hn : n ≠ 0) (hbus : b.bus = true) :
    let round := b.flushSelectedChunk w (displaySelection false 0xFFFFFFFF 0xFFFFFFFF) n
    round.2.map C64BusWrite.addr = b.entries.take (min n chunk) ∧
      round.1.entries = b.entries.drop (min n chunk) := by
  have htake : (displaySelection false 0xFFFFFFFF 0xFFFFFFFF).take w = fun _ => true :=
    funext take_fifo
  obtain ⟨hsent, hentries⟩ :=
    entries_flushSelectedChunk h w (displaySelection false 0xFFFFFFFF 0xFFFFFFFF) n
  have hlist := hentries hcount hn hbus
  obtain ⟨hselected, huntouched, hdeferred⟩ := pass_all (min n chunk) b.entries
  rw [chunkSelection, if_neg (by simp [hcount, hn, hbus]), htake, hselected] at hsent
  rw [htake, huntouched, hdeferred, List.append_nil] at hlist
  exact ⟨hsent, hlist⟩

theorem flushPolicyLoop_fifo (w : View) (fuel budget : ℕ) (h : Represents b)
    (hbus : b.bus = true) (hfuel : b.queue.count ≤ fuel) :
    let flushed := flushPolicyLoop w false 0xFFFFFFFF 0xFFFFFFFF fuel budget b
    deliveries flushed.2 = b.entries.take budget ∧
      flushed.1.entries = b.entries.drop budget := by
  induction fuel generalizing budget b with
  | zero =>
      exact fifo_of_empty (Nat.le_zero.mp hfuel) budget
  | succ fuel ih =>
      rw [flushPolicyLoop]
      by_cases hstop : b.queue.count = 0 ∨ budget = 0
      · rw [if_pos hstop]
        rcases hstop with hempty | hspent
        · exact fifo_of_empty hempty budget
        · rw [hspent]
          exact ⟨rfl, rfl⟩
      rw [if_neg hstop]
      rw [not_or] at hstop
      obtain ⟨hsent, hentries⟩ := flushSelectedChunk_fifo h w hstop.1 hstop.2 hbus
      have hround := h.flushSelectedChunk w (displaySelection false 0xFFFFFFFF 0xFFFFFFFF) budget
      have hattached := (flushSelectedChunk_bus b w
        (displaySelection false 0xFFFFFFFF 0xFFFFFFFF) budget).trans hbus
      have hcount := flushSelectedChunk_count h w
        (displaySelection false 0xFFFFFFFF 0xFFFFFFFF) budget
      generalize b.flushSelectedChunk w (displaySelection false 0xFFFFFFFF 0xFFFFFFFF) budget =
        round at *
      have hlength : round.2.length = min (min budget chunk) b.queue.count := by
        rw [← List.length_map C64BusWrite.addr, hsent, List.length_take, length_entries]
      have hpositive : 0 < round.2.length := by
        rw [hlength, chunk]
        omega
      dsimp only
      rw [if_neg hpositive.ne']
      obtain ⟨hlater, hleft⟩ := ih (budget - round.2.length) hround hattached (by omega)
      rw [deliveries_writeBurst, hsent, hlater, hleft, hentries]
      -- where the queue ends first, the rest of both is empty
      rcases Nat.le_total (min budget chunk) b.queue.count with hle | hle
      · rw [hlength, Nat.min_eq_left hle, List.drop_drop, ← List.take_add]
        have hbudget : min budget chunk + (budget - min budget chunk) = budget := by omega
        rw [hbudget]
        exact ⟨rfl, rfl⟩
      · have hall : b.entries.length ≤ min budget chunk := by rwa [length_entries]
        have hbudget : b.entries.length ≤ budget := hall.trans (Nat.min_le_left _ _)
        rw [List.drop_of_length_le hall, List.take_of_length_le hall, List.take_nil,
          List.drop_nil, List.append_nil, List.take_of_length_le hbudget,
          List.drop_of_length_le hbudget]
        exact ⟨rfl, rfl⟩

/-- A flush without display policy delivers the head of the queue, as far as the budget goes. -/
theorem flushUpTo_fifo (h : Represents b) (w : View) (hbus : b.bus = true) (n : ℕ) :
    deliveries (b.flushUpTo w n).2 = b.entries.take n ∧
      (b.flushUpTo w n).1.entries = b.entries.drop n := by
  rw [flushUpTo, flushUpToPolicy]
  split
  next hstop =>
    rcases hstop with hempty | hspent
    · exact fifo_of_empty hempty n
    · rw [hspent]
      exact ⟨rfl, rfl⟩
  next =>
    rw [noProgressCache_misses h w, if_neg (by simp), if_neg (by simp [hbus])]
    exact flushPolicyLoop_fifo w _ n h hbus le_rfl

/-- No way of delivery detaches the bus. -/
theorem bus_deliveryInvariant (w : View) (bus : Bool) :
    DeliveryInvariant w fun b _ => b.bus = bus where
  chunk b _ sel n h := (flushSelectedChunk_bus b w sel n).trans h
  remember b _ deferHot screenBase bitmapBase n h _ _ _ := by
    intro round _
    have hround : round.1.bus = bus := (flushSelectedChunk_bus b w _ n).trans h
    rw [rememberNoProgress]
    split <;> exact hround
  drop _ _ _ h := h
  cursor _ _ h := h
  scrub _ _ _ h := h
  heal _ _ _ _ _ _ h := h

end Flush

/-! ### Runs -/

/-- What may come between: guest writes, and flushes without display policy. -/
inductive FifoCall
  | onRamWrite (w : View) (a : Addr) (v : Byte)
  | flushUpTo (w : View) (maxBytes : ℕ)

namespace FifoCall

def toLater : FifoCall → LaterCall
  | .onRamWrite w a v => .onRamWrite w a v
  | .flushUpTo w maxBytes => .flushUpTo w maxBytes

def budget : FifoCall → ℕ
  | .onRamWrite _ _ _ => 0
  | .flushUpTo _ maxBytes => maxBytes

/-- The call is no accepted write of `a`, or `a` is no byte of a sprite pointer, or it has
been delivered. -/
def Leaves (a : Addr) (s : Delivering) : FifoCall → Prop
  | .onRamWrite w x v =>
      a ∈ s.delivered ∨ isPotentialVICSpritePointer a = false ∨ s.buffer.commits w x v ≠ some a
  | .flushUpTo _ _ => True

end FifoCall

def Delivering.fifoStep (s : Delivering) (call : FifoCall) : Delivering := s.step call.toLater

/-- `a` has been delivered, or what is ahead of it has shrunk by the budgets so far. -/
structure Advanced (a : Addr) (k sent : ℕ) (s : Delivering) : Prop where
  represents : Represents s.buffer
  attached : s.buffer.bus = true
  waits : a ∈ s.delivered ∨ a ∈ s.buffer.entries ∧ s.buffer.entries.idxOf a + sent ≤ k

section Runs

variable {a : Addr} {k sent : ℕ} {s : Delivering}

/-- An entry that is not moved keeps what was ahead of it, or less. -/
theorem idxOf_onRamWrite {b : WriteBuffer} (h : Represents b) (hmem : a ∈ b.entries) (w : View)
    (x : Addr) (v : Byte)
    (hleaves : isPotentialVICSpritePointer a = false ∨ b.commits w x v ≠ some a) :
    a ∈ (b.onRamWrite w x v).1.entries ∧
      (b.onRamWrite w x v).1.entries.idxOf a ≤ b.entries.idxOf a := by
  rw [entries_onRamWrite h w x v]
  cases hcommit : b.commits w x v with
  | none => exact ⟨hmem, le_rfl⟩
  | some target =>
      dsimp only
      split
      next => exact ⟨hmem, le_rfl⟩
      next hmoves =>
        have hne : target ≠ a := by
          rintro rfl
          rcases hleaves with hplain | hother
          · exact hmoves ⟨hmem, hplain⟩
          · exact hother hcommit
        have hkept : a ∈ b.entries.erase target := (List.mem_erase_of_ne hne.symm).mpr hmem
        refine ⟨List.mem_append_left _ hkept, ?_⟩
        rw [List.idxOf_append_of_mem hkept]
        exact idxOf_erase_le hne b.entries

theorem Advanced.step (h : Advanced a k sent s) (call : FifoCall) (hcall : call.Leaves a s) :
    Advanced a k (sent + call.budget) (s.fifoStep call) := by
  cases call with
  | onRamWrite w x v =>
      refine ⟨h.represents.onRamWrite w x v, (bus_onRamWrite w x v).trans h.attached, ?_⟩
      rcases h.waits with hdelivered | ⟨hmem, hahead⟩
      · exact .inl hdelivered
      rcases hcall with hdelivered | hleaves
      · exact .inl hdelivered
      obtain ⟨hkept, hidx⟩ := idxOf_onRamWrite h.represents hmem w x v hleaves
      exact .inr ⟨hkept, (Nat.add_le_add_right hidx _).trans hahead⟩
  | flushUpTo w n =>
      obtain ⟨hsent, hleft⟩ := flushUpTo_fifo h.represents w h.attached n
      have hkept : Represents (s.buffer.flushUpTo w n).1 :=
        flushUpTo_rule (represents_deliveryInvariant w) s.buffer (fun _ => 0) n h.represents
      have hattached : (s.buffer.flushUpTo w n).1.bus = true :=
        flushUpTo_rule (bus_deliveryInvariant w true) s.buffer (fun _ => 0) n h.attached
      refine ⟨hkept, hattached, ?_⟩
      show a ∈ s.delivered ++ deliveries (s.buffer.flushUpTo w n).2 ∨
        a ∈ (s.buffer.flushUpTo w n).1.entries ∧
          (s.buffer.flushUpTo w n).1.entries.idxOf a + (sent + n) ≤ k
      rw [hsent, List.mem_append]
      rcases h.waits with hdelivered | ⟨hmem, hahead⟩
      · exact .inl (.inl hdelivered)
      by_cases htaken : a ∈ s.buffer.entries.take n
      · exact .inl (.inr htaken)
      obtain ⟨hdrop, hidx⟩ := idxOf_drop hmem htaken
      rw [hleft]
      exact .inr ⟨hdrop, by omega⟩

theorem Advanced.run (h : Advanced a k sent s) (calls : List FifoCall)
    (hcalls : AllSteps Delivering.fifoStep (fun s call => call.Leaves a s) s calls) :
    Advanced a k (sent + (calls.map FifoCall.budget).sum)
      (Library.run Delivering.fifoStep s calls) := by
  induction calls generalizing s sent with
  | nil => exact h
  | cons call calls ih =>
      have hrest := ih (h.step call hcalls.1) hcalls.2
      rwa [Nat.add_assoc, ← List.sum_cons, ← List.map_cons] at hrest

/-- A queued byte is delivered once the budgets exceed its position, whatever is written
meanwhile, unless it is a byte of a sprite pointer that is written again. -/
theorem delivered_within_budget (pendingValue : Addr → Byte) (list : ℕ → Addr) (ops : List Op)
    (a : Addr) (calls : List FifoCall) :
    let b := Library.run WriteBuffer.step (construct pendingValue list) ops
    b.bus = true → b.isDirty a = true →
      AllSteps Delivering.fifoStep (fun s call => call.Leaves a s) ⟨b, []⟩ calls →
      b.entries.idxOf a + 1 ≤ (calls.map FifoCall.budget).sum →
      a ∈ (Library.run Delivering.fifoStep ⟨b, []⟩ calls).delivered := by
  intro b hbus hdirty hcalls hbudget
  have hrepresents : Represents b := represents_run pendingValue list ops
  have hmem : a ∈ b.entries := (hrepresents.mem_iff a).mpr hdirty
  have hstart : Advanced a (b.entries.idxOf a) 0 ⟨b, []⟩ :=
    ⟨hrepresents, hbus, .inr ⟨hmem, le_rfl⟩⟩
  rcases (hstart.run calls hcalls).waits with hdelivered | ⟨-, hahead⟩
  · exact hdelivered
  · omega

end Runs

/-- A pointer byte and another byte, queued in this order. -/
def pointerAtHead : List Op :=
  [.attach true, .onRamWrite ⟨none, none, none, none⟩ 0x07F8 1,
    .onRamWrite ⟨none, none, none, none⟩ 0x2000 1]

theorem delivered_within_budget_head :
    (0x07F8 : Addr) ∈ (Library.run Delivering.fifoStep
      ⟨Library.run WriteBuffer.step (construct (fun _ => 0) fun _ => 0) pointerAtHead, []⟩
      [.onRamWrite ⟨none, none, none, none⟩ 0x2000 2,
        .flushUpTo ⟨none, none, none, none⟩ 1]).delivered :=
  delivered_within_budget (fun _ => 0) (fun _ => 0) pointerAtHead 0x07F8 _ (by decide +kernel)
    (by decide +kernel) ⟨.inr (.inr (by decide +kernel)), trivial, trivial⟩ (by decide +kernel)

/-- Writes that keep a pointer byte behind the rest of the queue. -/
def postpone (round : ℕ) : List FifoCall :=
  [.onRamWrite ⟨none, none, none, none⟩ 0x07F8 (BitVec.ofNat 8 round),
    .flushUpTo ⟨none, none, none, none⟩ 1,
    .onRamWrite ⟨none, none, none, none⟩ 0x2000 (BitVec.ofNat 8 round)]

/-- The byte at the head is written again, and three flushes of one byte pass it by. -/
theorem pointer_write_postpones_delivery :
    let b := Library.run WriteBuffer.step (construct (fun _ => 0) fun _ => 0) pointerAtHead
    b.bus = true ∧ b.isDirty 0x07F8 = true ∧ b.entries.idxOf 0x07F8 = 0 ∧
      ((postpone 1 ++ postpone 2 ++ postpone 3).map FifoCall.budget).sum = 3 ∧
      (0x07F8 : Addr) ∉ (Library.run Delivering.fifoStep ⟨b, []⟩
        (postpone 1 ++ postpone 2 ++ postpone 3)).delivered := by
  decide +kernel

end WriteBuffer

end ScpuEmu
