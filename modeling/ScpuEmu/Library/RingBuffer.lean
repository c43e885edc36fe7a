import Mathlib.Data.List.Nodup
import Mathlib.Data.List.Perm.Basic
import Mathlib.Data.Nat.ModEq

/-!
# Ring buffers in a masked array

A ring of capacity `cap` is an array of slots read modulo `cap`, a head index
and a count. Its contents are the `count` slots that start at the head, in the
order they are met, and every operation is described by what it does to that
list. Three operations go beyond a plain queue. `rotate` moves the front entry
to the back and stays correct when the ring is full, where the slot behind the
tail is the head itself. `moveToBack` closes the gap an entry leaves and
appends it again. `drain` consumes the entries a predicate selects, up to a
budget, and rotates the others, so that one pass is a stable filter.
-/

namespace ScpuEmu

namespace Library

structure RingBuffer (α : Type*) where
  slots : ℕ → α
  head : ℕ
  count : ℕ

namespace RingBuffer

variable {α : Type*} {cap : ℕ}

def get (cap : ℕ) (r : RingBuffer α) (i : ℕ) : α := r.slots ((r.head + i) % cap)

def set (cap : ℕ) (r : RingBuffer α) (i : ℕ) (a : α) : RingBuffer α :=
  { r with slots := Function.update r.slots ((r.head + i) % cap) a }

/-- The entries from the head on. -/
def toList (cap : ℕ) (r : RingBuffer α) : List α := (List.range r.count).map (r.get cap)

def push (cap : ℕ) (r : RingBuffer α) (a : α) : RingBuffer α :=
  { r.set cap r.count a with count := r.count + 1 }

def pop (cap : ℕ) (r : RingBuffer α) : RingBuffer α :=
  { r with head := (r.head + 1) % cap, count := r.count - 1 }

def rotate (cap : ℕ) (r : RingBuffer α) : RingBuffer α :=
  { r.set cap r.count (r.slots r.head) with head := (r.head + 1) % cap }

@[simp] theorem length_toList (r : RingBuffer α) : (r.toList cap).length = r.count := by
  simp [toList]

@[simp] theorem set_count (r : RingBuffer α) (i : ℕ) (a : α) :
    (r.set cap i a).count = r.count := rfl

@[simp] theorem set_head (r : RingBuffer α) (i : ℕ) (a : α) :
    (r.set cap i a).head = r.head := rfl

@[simp] theorem push_count (r : RingBuffer α) (a : α) :
    (r.push cap a).count = r.count + 1 := rfl

@[simp] theorem pop_count (r : RingBuffer α) : (r.pop cap).count = r.count - 1 := rfl

@[simp] theorem rotate_count (r : RingBuffer α) : (r.rotate cap).count = r.count := rfl

theorem getElem_toList (r : RingBuffer α) (i : ℕ) (hi : i < (r.toList cap).length) :
    (r.toList cap)[i] = r.get cap i := by
  simp [toList]

theorem toList_eq_nil (r : RingBuffer α) (h : r.count = 0) : r.toList cap = [] := by
  simp [toList, h]

theorem index_inj (h i j : ℕ) (hi : i < cap) (hj : j < cap)
    (he : (h + i) % cap = (h + j) % cap) : i = j := by
  have hm : i ≡ j [MOD cap] := Nat.ModEq.add_left_cancel' h he
  rwa [Nat.ModEq, Nat.mod_eq_of_lt hi, Nat.mod_eq_of_lt hj] at hm

theorem get_set (r : RingBuffer α) (i j : ℕ) (a : α) (hi : i < cap) (hj : j < cap) :
    (r.set cap i a).get cap j = if i = j then a else r.get cap j := by
  by_cases hij : i = j
  · subst hij
    simp [get, set]
  · have hne : (r.head + j) % cap ≠ (r.head + i) % cap := fun he =>
      hij (index_inj r.head i j hi hj he.symm)
    simp [get, set, hij, Function.update_of_ne hne]

theorem get_head_succ (r : RingBuffer α) (s : ℕ → α) (n i : ℕ) :
    get cap ⟨s, (r.head + 1) % cap, n⟩ i = get cap ⟨s, r.head, n⟩ (i + 1) := by
  simp only [get, Nat.mod_add_mod]
  congr 2
  omega

theorem toList_push (r : RingBuffer α) (a : α) (h : r.count < cap) :
    (r.push cap a).toList cap = r.toList cap ++ [a] := by
  apply List.ext_getElem
  · simp
  · intro i h₁ h₂
    have hi : i < r.count + 1 := by simpa using h₁
    rw [getElem_toList]
    have hget : (r.push cap a).get cap i = (r.set cap r.count a).get cap i := rfl
    rw [hget, get_set r r.count i a h (by omega)]
    by_cases hic : r.count = i
    · subst hic
      simp
    · have hlt : i < (r.toList cap).length := by simp; omega
      rw [if_neg hic, List.getElem_append_left hlt, getElem_toList]

theorem toList_pop (r : RingBuffer α) (h : 0 < r.count) (hhead : r.head < cap) :
    r.toList cap = r.slots r.head :: (r.pop cap).toList cap := by
  apply List.ext_getElem
  · simp
    omega
  · intro i h₁ h₂
    rw [getElem_toList]
    cases i with
    | zero => simp [get, Nat.mod_eq_of_lt hhead]
    | succ i =>
        rw [List.getElem_cons_succ, getElem_toList]
        exact (get_head_succ r r.slots (r.count - 1) i).symm

/-- Rotation moves the front entry to the back, a full ring included. -/
theorem toList_rotate (r : RingBuffer α) (h : 0 < r.count) (hc : r.count ≤ cap) :
    (r.rotate cap).toList cap = (r.pop cap).toList cap ++ [r.slots r.head] := by
  apply List.ext_getElem
  · simp
    omega
  · intro i h₁ h₂
    have hi : i < r.count := by simpa using h₁
    rw [getElem_toList]
    have hrot : (r.rotate cap).get cap i = (r.set cap r.count (r.slots r.head)).get cap (i + 1) :=
      get_head_succ r _ _ i
    rw [hrot]
    by_cases hlast : i + 1 = r.count
    · have hval : (r.set cap r.count (r.slots r.head)).get cap (i + 1) = r.slots r.head := by
        simp [get, set, hlast]
      rw [hval, List.getElem_append_right (by simp; omega)]
      simp
    · have hlt : i < ((r.pop cap).toList cap).length := by simp; omega
      have hne : (r.head + (i + 1)) % cap ≠ (r.head + r.count) % cap := by
        intro he
        rcases Nat.lt_or_ge r.count cap with hfull | hfull
        · exact hlast (index_inj r.head _ _ (by omega) hfull he)
        · -- a full ring: the slot behind the tail is the head
          have hcap : r.count = cap := le_antisymm hc hfull
          have h0 : (r.head + (i + 1)) % cap = (r.head + 0) % cap := by
            rw [he, hcap, Nat.add_mod_right, Nat.add_zero]
          exact absurd (index_inj r.head _ _ (by omega) (by omega) h0) (by omega)
      rw [List.getElem_append_left hlt, getElem_toList]
      simp only [get, set, Function.update_of_ne hne]
      exact (get_head_succ r r.slots (r.count - 1) i).symm

/-- Shift the `k` entries behind place `p` one place forward, front to back. -/
def closeGap (cap : ℕ) (r : RingBuffer α) (p : ℕ) : ℕ → RingBuffer α
  | 0 => r
  | k + 1 => (closeGap cap r p k).set cap (p + k) ((closeGap cap r p k).get cap (p + k + 1))

/-- Close the gap at place `p` and put `a` into the last place. -/
def moveToBack (cap : ℕ) (r : RingBuffer α) (p : ℕ) (a : α) : RingBuffer α :=
  (r.closeGap cap p (r.count - 1 - p)).set cap (r.count - 1) a

@[simp] theorem closeGap_count (r : RingBuffer α) (p k : ℕ) :
    (r.closeGap cap p k).count = r.count := by
  induction k with
  | zero => rfl
  | succ k ih => exact ih

@[simp] theorem closeGap_head (r : RingBuffer α) (p k : ℕ) :
    (r.closeGap cap p k).head = r.head := by
  induction k with
  | zero => rfl
  | succ k ih => exact ih

@[simp] theorem moveToBack_count (r : RingBuffer α) (p : ℕ) (a : α) :
    (r.moveToBack cap p a).count = r.count := by
  simp [moveToBack]

@[simp] theorem moveToBack_head (r : RingBuffer α) (p : ℕ) (a : α) :
    (r.moveToBack cap p a).head = r.head := by
  simp [moveToBack]

theorem get_closeGap (r : RingBuffer α) (p k i : ℕ) (hk : p + k < cap) (hi : i < cap) :
    (r.closeGap cap p k).get cap i =
      if p ≤ i ∧ i < p + k then r.get cap (i + 1) else r.get cap i := by
  induction k generalizing i with
  | zero => rw [closeGap, if_neg (by omega)]
  | succ k ih =>
      rw [closeGap, get_set _ _ _ _ (by omega) hi]
      by_cases hlast : p + k = i
      · rw [if_pos hlast, ih (p + k + 1) (by omega) (by omega), if_neg (by omega),
          if_pos (by omega), hlast]
      · rw [if_neg hlast, ih i (by omega) hi]
        by_cases hin : p ≤ i ∧ i < p + k
        · rw [if_pos hin, if_pos (by omega)]
        · rw [if_neg hin, if_neg (by omega)]

theorem toList_moveToBack (r : RingBuffer α) (p : ℕ) (a : α) (hp : p < r.count)
    (hc : r.count ≤ cap) :
    (r.moveToBack cap p a).toList cap = (r.toList cap).eraseIdx p ++ [a] := by
  have hlen : ((r.toList cap).eraseIdx p).length = r.count - 1 := by
    rw [List.length_eraseIdx_of_lt (by simpa using hp), length_toList]
  apply List.ext_getElem
  · rw [length_toList, moveToBack_count, List.length_append, hlen]
    simp
    omega
  · intro i h₁ h₂
    have hi : i < r.count := by simpa using h₁
    rw [getElem_toList, moveToBack, get_set _ _ _ _ (by omega) (by omega)]
    by_cases hlast : r.count - 1 = i
    · rw [if_pos hlast, List.getElem_append_right (by omega)]
      simp
    · rw [if_neg hlast, List.getElem_append_left (by omega),
        get_closeGap r p _ i (by omega) (by omega), List.getElem_eraseIdx]
      by_cases hip : i < p
      · rw [if_neg (by omega), dif_pos hip, getElem_toList]
      · rw [if_pos (by omega), dif_neg hip, getElem_toList]

/-- One pass over at most `fuel` entries. The entries that `take` selects are
consumed, up to `budget`, and every other entry met is rotated to the back. -/
def drain (cap : ℕ) (take : α → Bool) : ℕ → ℕ → RingBuffer α → RingBuffer α × List α
  | 0, _, r => (r, [])
  | _, 0, r => (r, [])
  | fuel + 1, budget + 1, r =>
      if r.count = 0 then (r, [])
      else if take (r.slots r.head) then
        let (r', selected) := drain cap take fuel budget (r.pop cap)
        (r', r.slots r.head :: selected)
      else drain cap take fuel (budget + 1) (r.rotate cap)

end RingBuffer

section Selection

variable {α : Type*} (take : α → Bool)

/-- The entries a pass with the given budget consumes. -/
def selected : ℕ → List α → List α
  | 0, _ => []
  | _, [] => []
  | budget + 1, a :: l =>
      if take a then a :: selected budget l else selected (budget + 1) l

/-- The entries a pass meets and leaves, in order. -/
def deferred : ℕ → List α → List α
  | 0, _ => []
  | _, [] => []
  | budget + 1, a :: l =>
      if take a then deferred budget l else a :: deferred (budget + 1) l

/-- The entries behind the point where the budget ran out. -/
def untouched : ℕ → List α → List α
  | 0, l => l
  | _, [] => []
  | budget + 1, a :: l =>
      if take a then untouched budget l else untouched (budget + 1) l

@[simp] theorem selected_zero (l : List α) : selected take 0 l = [] := by
  cases l <;> rfl

@[simp] theorem selected_nil (budget : ℕ) : selected take budget [] = [] := by
  cases budget <;> rfl

@[simp] theorem deferred_zero (l : List α) : deferred take 0 l = [] := by
  cases l <;> rfl

@[simp] theorem deferred_nil (budget : ℕ) : deferred take budget [] = [] := by
  cases budget <;> rfl

@[simp] theorem untouched_zero (l : List α) : untouched take 0 l = l := by
  cases l <;> rfl

@[simp] theorem untouched_nil (budget : ℕ) : untouched take budget [] = [] := by
  cases budget <;> rfl

theorem selected_cons (budget : ℕ) (a : α) (l : List α) :
    selected take (budget + 1) (a :: l) =
      if take a then a :: selected take budget l else selected take (budget + 1) l := rfl

theorem deferred_cons (budget : ℕ) (a : α) (l : List α) :
    deferred take (budget + 1) (a :: l) =
      if take a then deferred take budget l else a :: deferred take (budget + 1) l := rfl

theorem untouched_cons (budget : ℕ) (a : α) (l : List α) :
    untouched take (budget + 1) (a :: l) =
      if take a then untouched take budget l else untouched take (budget + 1) l := rfl

theorem length_selected (budget : ℕ) (l : List α) :
    (selected take budget l).length = min budget (l.countP take) := by
  induction l generalizing budget with
  | nil => simp
  | cons a l ih =>
      cases budget with
      | zero => simp
      | succ budget =>
          by_cases ha : take a
          · rw [selected_cons, if_pos ha, List.countP_cons_of_pos ha, List.length_cons, ih,
              Nat.succ_min_succ]
          · rw [selected_cons, if_neg ha, List.countP_cons_of_neg ha, ih]

/-- A pass that selects everything splits the list at its budget. -/
theorem pass_all (budget : ℕ) (l : List α) :
    selected (fun _ => true) budget l = l.take budget ∧
      untouched (fun _ => true) budget l = l.drop budget ∧
      deferred (fun _ => true) budget l = [] := by
  induction l generalizing budget with
  | nil => simp
  | cons a l ih =>
      cases budget with
      | zero => simp
      | succ budget =>
          obtain ⟨hs, hu, hd⟩ := ih budget
          refine ⟨?_, ?_, ?_⟩
          · rw [selected_cons, if_pos rfl, hs, List.take_succ_cons]
          · rw [untouched_cons, if_pos rfl, hu, List.drop_succ_cons]
          · rw [deferred_cons, if_pos rfl, hd]

/-- A pass that selects nothing defers everything. -/
theorem pass_none {take : α → Bool} {budget : ℕ} (hbudget : budget ≠ 0) {l : List α}
    (h : ∀ a ∈ l, take a = false) :
    selected take budget l = [] ∧ untouched take budget l = [] ∧ deferred take budget l = l := by
  obtain ⟨budget, rfl⟩ := Nat.exists_eq_succ_of_ne_zero hbudget
  induction l with
  | nil => simp
  | cons a l ih =>
      have ha : ¬ take a = true := by simp [h a List.mem_cons_self]
      obtain ⟨hs, hu, hd⟩ := ih fun x hx => h x (List.mem_cons_of_mem a hx)
      refine ⟨?_, ?_, ?_⟩
      · rw [selected_cons, if_neg ha, hs]
      · rw [untouched_cons, if_neg ha, hu]
      · rw [deferred_cons, if_neg ha, hd]

/-- A pass loses nothing and invents nothing. -/
theorem selected_untouched_deferred_perm (budget : ℕ) (l : List α) :
    (selected take budget l ++ (untouched take budget l ++ deferred take budget l)).Perm l := by
  induction l generalizing budget with
  | nil => simp
  | cons a l ih =>
      cases budget with
      | zero => simp
      | succ budget =>
          by_cases ha : take a
          · simpa [selected_cons, untouched_cons, deferred_cons, ha] using ih budget
          · simp only [selected_cons, untouched_cons, deferred_cons, ha,
              Bool.false_eq_true, if_false]
            rw [← List.append_assoc]
            refine List.perm_middle.trans ?_
            rw [List.append_assoc]
            exact (ih (budget + 1)).cons a

theorem mem_selected (budget : ℕ) (l : List α) (a : α) (h : a ∈ selected take budget l) :
    a ∈ l ∧ take a = true := by
  induction l generalizing budget with
  | nil => simp at h
  | cons b l ih =>
      cases budget with
      | zero => simp at h
      | succ budget =>
          by_cases hb : take b
          · rw [selected_cons, if_pos hb, List.mem_cons] at h
            rcases h with rfl | h
            · exact ⟨List.mem_cons_self, hb⟩
            · exact (ih budget h).imp (List.mem_cons_of_mem b) id
          · rw [selected_cons, if_neg hb] at h
            exact (ih (budget + 1) h).imp (List.mem_cons_of_mem b) id

/-- A pass consumes the first entries that `take` selects, as many as the budget allows. -/
theorem selected_eq_take_filter (budget : ℕ) (l : List α) :
    selected take budget l = (l.filter take).take budget := by
  induction l generalizing budget with
  | nil => simp
  | cons a l ih =>
      cases budget with
      | zero => simp
      | succ budget =>
          by_cases ha : take a
          · rw [selected_cons, if_pos ha, List.filter_cons_of_pos ha, List.take_succ_cons, ih]
          · rw [selected_cons, if_neg ha, List.filter_cons_of_neg ha, ih]

theorem filter_deferred (budget : ℕ) (l : List α) : (deferred take budget l).filter take = [] := by
  induction l generalizing budget with
  | nil => simp
  | cons a l ih =>
      cases budget with
      | zero => simp
      | succ budget =>
          by_cases ha : take a
          · rw [deferred_cons, if_pos ha, ih]
          · rw [deferred_cons, if_neg ha, List.filter_cons_of_neg ha, ih]

/-- What the next pass may consume is what this one left of it, in the same order. -/
theorem filter_untouched (budget : ℕ) (l : List α) :
    (untouched take budget l).filter take = (l.filter take).drop budget := by
  induction l generalizing budget with
  | nil => simp
  | cons a l ih =>
      cases budget with
      | zero => simp
      | succ budget =>
          by_cases ha : take a
          · rw [untouched_cons, if_pos ha, List.filter_cons_of_pos ha, List.drop_succ_cons, ih]
          · rw [untouched_cons, if_neg ha, List.filter_cons_of_neg ha, ih]

/-- A pass whose budget the first part uses up does not reach the second. -/
theorem pass_append_of_le {budget : ℕ} {l : List α} (h : budget ≤ l.countP take) (l' : List α) :
    selected take budget (l ++ l') = selected take budget l ∧
      deferred take budget (l ++ l') = deferred take budget l ∧
      untouched take budget (l ++ l') = untouched take budget l ++ l' := by
  induction l generalizing budget with
  | nil =>
      obtain rfl : budget = 0 := by simpa using h
      simp
  | cons a l ih =>
      cases budget with
      | zero => simp
      | succ budget =>
          by_cases ha : take a
          · rw [List.countP_cons_of_pos ha] at h
            obtain ⟨hs, hd, hu⟩ := ih (Nat.le_of_succ_le_succ h)
            simp [selected_cons, deferred_cons, untouched_cons, ha, hs, hd, hu]
          · rw [List.countP_cons_of_neg ha] at h
            obtain ⟨hs, hd, hu⟩ := ih h
            simp [selected_cons, deferred_cons, untouched_cons, ha, hs, hd, hu]

/-- A pass with budget to spare filters the first part and goes on with the second. -/
theorem pass_append_of_lt {budget : ℕ} {l : List α} (h : l.countP take < budget) (l' : List α) :
    selected take budget (l ++ l') =
        l.filter take ++ selected take (budget - l.countP take) l' ∧
      deferred take budget (l ++ l') =
        l.filter (fun a => !take a) ++ deferred take (budget - l.countP take) l' ∧
      untouched take budget (l ++ l') = untouched take (budget - l.countP take) l' := by
  induction l generalizing budget with
  | nil => simp
  | cons a l ih =>
      obtain ⟨budget, rfl⟩ := Nat.exists_eq_succ_of_ne_zero (Nat.ne_of_gt (Nat.zero_lt_of_lt h))
      by_cases ha : take a
      · rw [List.countP_cons_of_pos ha] at h ⊢
        obtain ⟨hs, hd, hu⟩ := ih (Nat.lt_of_succ_lt_succ h)
        simp [selected_cons, deferred_cons, untouched_cons, ha, hs, hd, hu]
      · rw [List.countP_cons_of_neg ha] at h ⊢
        obtain ⟨hs, hd, hu⟩ := ih h
        simp [selected_cons, deferred_cons, untouched_cons, ha, hs, hd, hu]

theorem countP_untouched (budget : ℕ) (l : List α) :
    (untouched take budget l).countP take = l.countP take - budget := by
  induction l generalizing budget with
  | nil => simp
  | cons a l ih =>
      cases budget with
      | zero => simp
      | succ budget =>
          by_cases ha : take a
          · rw [untouched_cons, if_pos ha, ih, List.countP_cons_of_pos ha, Nat.add_sub_add_right]
          · rw [untouched_cons, if_neg ha, ih, List.countP_cons_of_neg ha]

end Selection

namespace RingBuffer

variable {α : Type*} {cap : ℕ}

/-- The pass over a ring is the pass over its list: the consumed entries come
out in queue order, and the deferred ones end up behind the untouched ones. -/
theorem toList_drain (take : α → Bool) (budget : ℕ) (r : RingBuffer α)
    (ahead behind : List α) (hl : r.toList cap = ahead ++ behind) (hc : r.count ≤ cap)
    (hhead : r.head < cap) :
    (r.drain cap take ahead.length budget).2 = selected take budget ahead ∧
      (r.drain cap take ahead.length budget).1.toList cap =
        untouched take budget ahead ++ (behind ++ deferred take budget ahead) ∧
      (r.drain cap take ahead.length budget).1.head < cap := by
  induction ahead generalizing r budget behind with
  | nil => simpa [drain] using ⟨hl, hhead⟩
  | cons a ahead ih =>
      cases budget with
      | zero => simpa [drain] using ⟨hl, hhead⟩
      | succ budget =>
          have hcount : 0 < r.count := by
            have hlen : (r.toList cap).length = r.count := length_toList r
            rw [← hlen, hl]
            simp
          have hsplit : r.toList cap = _ := toList_pop r hcount hhead
          rw [hl, List.cons_append, List.cons.injEq] at hsplit
          obtain ⟨hfront, hrest⟩ := hsplit
          have hnext : (r.head + 1) % cap < cap := Nat.mod_lt _ (by omega)
          rw [List.length_cons, drain, if_neg (by omega), ← hfront]
          by_cases ha : take a
          · have hpop := ih budget (r.pop cap) behind hrest.symm
              (by rw [pop_count]; omega) hnext
            simpa [selected, untouched, deferred, ha] using hpop
          · have hrot : (r.rotate cap).toList cap = ahead ++ (behind ++ [a]) := by
              rw [toList_rotate r hcount hc, ← hrest, hfront, List.append_assoc]
            have hrec := ih (budget + 1) (r.rotate cap) (behind ++ [a]) hrot hc hnext
            simpa [selected, untouched, deferred, ha] using hrec

theorem toList_drain_count (take : α → Bool) (budget : ℕ) (r : RingBuffer α)
    (hc : r.count ≤ cap) (hhead : r.head < cap) :
    (r.drain cap take r.count budget).2 = selected take budget (r.toList cap) ∧
      (r.drain cap take r.count budget).1.toList cap =
        untouched take budget (r.toList cap) ++ deferred take budget (r.toList cap) ∧
      (r.drain cap take r.count budget).1.head < cap := by
  have h := toList_drain take budget r (r.toList cap) [] (by simp) hc hhead
  simpa using h

end RingBuffer

end Library

end ScpuEmu
