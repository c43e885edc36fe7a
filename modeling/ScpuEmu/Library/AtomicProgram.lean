import ScpuEmu.Library.CyclicRange

/-!
# Programs that ask a shared store

A program asks one question at a time and goes on with the answer. On a store that
stands still it is a function of the answers. On a store that its environment changes
between two questions, a specification holds of every interleaving: it speaks about
whatever the environment may have done before each question and before the end.
-/

namespace ScpuEmu

namespace Library

/-- A program with questions of `Q`, answered in `A`. -/
inductive AtomicProgram {Q : Type} (A : Q → Type) (α : Type) : Type
  | done (a : α)
  | ask (q : Q) (next : A q → AtomicProgram A α)

namespace AtomicProgram

variable {Q : Type} {A : Q → Type} {α β σ ι : Type}

def bind : AtomicProgram A α → (α → AtomicProgram A β) → AtomicProgram A β
  | done a, f => f a
  | ask q next, f => ask q fun r => (next r).bind f

instance : Monad (AtomicProgram A) where
  pure := done
  bind := bind

/-- One question. -/
def query (q : Q) : AtomicProgram A (A q) := ask q done

/-- The value of a program on a store that stands still. -/
def runOn (answer : (q : Q) → A q) : AtomicProgram A α → α
  | done a => a
  | ask q next => (next (answer q)).runOn answer

section StandingStill

variable (answer : (q : Q) → A q)

@[simp] theorem runOn_pure (a : α) : (pure a : AtomicProgram A α).runOn answer = a := rfl

@[simp] theorem runOn_query (q : Q) :
    (query q : AtomicProgram A (A q)).runOn answer = answer q := rfl

@[simp] theorem runOn_bind (p : AtomicProgram A α) (f : α → AtomicProgram A β) :
    (p >>= f).runOn answer = (f (p.runOn answer)).runOn answer := by
  change (p.bind f).runOn answer = _
  induction p with
  | done a => rfl
  | ask q next ih => exact ih (answer q)

theorem runOn_ite (c : Prop) [Decidable c] (p p' : AtomicProgram A α) :
    (if c then p else p').runOn answer = if c then p.runOn answer else p'.runOn answer := by
  split <;> rfl

theorem runOn_foldlM (f : σ → ι → AtomicProgram A σ) (l : List ι) (x : σ) :
    (l.foldlM f x).runOn answer = l.foldl (fun x i => (f x i).runOn answer) x := by
  induction l generalizing x with
  | nil => rfl
  | cons i l ih => rw [List.foldlM_cons, runOn_bind, ih, List.foldl_cons]

end StandingStill

/-- Whatever it is answered, the program asks such questions only and ends with such a
value. -/
def Yields (ok : Q → Prop) : AtomicProgram A α → (α → Prop) → Prop
  | done a, post => post a
  | ask q next, post => ok q ∧ ∀ r, (next r).Yields ok post

section Yields

variable {ok : Q → Prop}

theorem yields_pure {a : α} {post : α → Prop} (h : post a) :
    (pure a : AtomicProgram A α).Yields ok post := h

theorem yields_query_bind {q : Q} {f : A q → AtomicProgram A β} {post : β → Prop} (hq : ok q)
    (h : ∀ r, (f r).Yields ok post) : (query q >>= f).Yields ok post := ⟨hq, h⟩

theorem Yields.bind {p : AtomicProgram A α} {f : α → AtomicProgram A β} {mid : α → Prop}
    {post : β → Prop} (h : p.Yields ok mid) (hf : ∀ a, mid a → (f a).Yields ok post) :
    (p >>= f).Yields ok post := by
  change (p.bind f).Yields ok post
  induction p with
  | done a => exact hf a h
  | ask q next ih => exact ⟨h.1, fun r => ih r (h.2 r)⟩

/-- A loop over a range keeps an invariant of the point it has come to. -/
theorem yields_foldlM_cyclicRange {w : ℕ} {f : σ → BitVec w → AtomicProgram A σ} {a b : BitVec w}
    (inv : BitVec w → σ → Prop)
    (hstep : ∀ i x, Between a i b → i ≠ b → inv i x → (f x i).Yields ok (inv (i + 1#w)))
    {i : BitVec w} (hi : Between a i b) {x : σ} (h : inv i x) :
    ((cyclicRange i b).foldlM f x).Yields ok (inv b) := by
  induction i, hi using between_induction generalizing x with
  | last =>
      rw [cyclicRange_self]
      exact h
  | step i hi hne ih =>
      rw [cyclicRange_cons hne, List.foldlM_cons]
      exact (hstep i x hi hne h).bind fun x' h' => ih h'

end Yields

end AtomicProgram

open AtomicProgram

/-- A store with an environment: what it answers, what asking changes, and what the
environment can have done after a while. A program may assume that it asks in `Allowed`
states only, and has to show that it asks what it promised. -/
structure SharedStore {Q : Type} (A : Q → Type) (S : Type*) where
  answer : S → (q : Q) → A q
  note : S → Q → S
  Later : S → S → Prop
  Allowed : S → Q → Prop
  Promised : S → Q → Prop
  refl : ∀ s, Later s s
  trans : ∀ {s s' s''}, Later s s' → Later s' s'' → Later s s''

namespace SharedStore

variable {Q : Type} {A : Q → Type} {S : Type*} {α β σ ι : Type} (store : SharedStore A S)

/-- Started in the state `s`, with the environment interfering between any two steps and
every question allowed, the program asks what it promised and ends as told. -/
def Ensures : AtomicProgram A α → (S → α → Prop) → S → Prop
  | .done a, post, s => ∀ s', store.Later s s' → post s' a
  | .ask q next, post, s => ∀ s', store.Later s s' → store.Allowed s' q →
      store.Promised s' q ∧ Ensures (next (store.answer s' q)) post (store.note s' q)

variable {store}

/-- The environment may act before the program starts. -/
theorem Ensures.later {p : AtomicProgram A α} {post : S → α → Prop} {s s' : S}
    (h : store.Ensures p post s) (hs : store.Later s s') : store.Ensures p post s' := by
  cases p with
  | done a => exact fun s'' hs' => h s'' (store.trans hs hs')
  | ask q next => exact fun s'' hs' => h s'' (store.trans hs hs')

theorem ensures_pure {a : α} {post : S → α → Prop} {s : S}
    (h : ∀ s', store.Later s s' → post s' a) : store.Ensures (pure a) post s := h

/-- One question, and the program that goes on with its answer. -/
theorem ensures_query_bind {q : Q} {f : A q → AtomicProgram A β} {post : S → β → Prop} {s : S}
    (h : ∀ s', store.Later s s' → store.Allowed s' q → store.Promised s' q ∧
      store.Ensures (f (store.answer s' q)) post (store.note s' q)) :
    store.Ensures (query q >>= f) post s := h

theorem Ensures.mono {p : AtomicProgram A α} {post post' : S → α → Prop} {s : S}
    (h : store.Ensures p post s) (hpost : ∀ s a, post s a → post' s a) :
    store.Ensures p post' s := by
  induction p generalizing s with
  | done a => exact fun s' hs' => hpost s' a (h s' hs')
  | ask q next ih =>
      intro s' hs' hq
      obtain ⟨hpromised, hnext⟩ := h s' hs' hq
      exact ⟨hpromised, ih _ hnext⟩

theorem Ensures.bind {p : AtomicProgram A α} {f : α → AtomicProgram A β} {mid : S → α → Prop}
    {post : S → β → Prop} {s : S} (h : store.Ensures p mid s)
    (hf : ∀ s a, mid s a → store.Ensures (f a) post s) : store.Ensures (p >>= f) post s := by
  change store.Ensures (p.bind f) post s
  induction p generalizing s with
  | done a => exact hf s a (h s (store.refl s))
  | ask q next ih =>
      intro s' hs' hq
      obtain ⟨hpromised, hnext⟩ := h s' hs' hq
      exact ⟨hpromised, ih _ hnext⟩

/-- A loop keeps an invariant of what is left of its list. -/
theorem ensures_foldlM {f : σ → ι → AtomicProgram A σ} (inv : List ι → S → σ → Prop)
    (hlater : ∀ {x s s'}, inv [] s x → store.Later s s' → inv [] s' x)
    (hstep : ∀ i l s x, inv (i :: l) s x → store.Ensures (f x i) (inv l) s)
    (l : List ι) (x : σ) (s : S) (h : inv l s x) : store.Ensures (l.foldlM f x) (inv []) s := by
  induction l generalizing x s with
  | nil => exact ensures_pure fun s' hs' => hlater h hs'
  | cons i l ih =>
      rw [List.foldlM_cons]
      exact (hstep i l s x h).bind fun s' x' h' => ih x' s' h'

/-- A loop over a range keeps an invariant of the point it has come to. -/
theorem ensures_foldlM_cyclicRange {w : ℕ} {f : σ → BitVec w → AtomicProgram A σ} {a b : BitVec w}
    (inv : BitVec w → S → σ → Prop)
    (hlater : ∀ {x s s'}, inv b s x → store.Later s s' → inv b s' x)
    (hstep : ∀ i s x, Between a i b → i ≠ b → inv i s x →
      store.Ensures (f x i) (inv (i + 1#w)) s)
    {i : BitVec w} (hi : Between a i b) {x : σ} {s : S} (h : inv i s x) :
    store.Ensures ((cyclicRange i b).foldlM f x) (inv b) s := by
  induction i, hi using between_induction generalizing x s with
  | last =>
      rw [cyclicRange_self]
      exact ensures_pure fun s' hs' => hlater h hs'
  | step i hi hne ih =>
      rw [cyclicRange_cons hne, List.foldlM_cons]
      exact (hstep i s x hi hne h).bind fun s' x' h' => ih h'

/-- Questions that promise nothing keep what they and the environment do not touch. -/
theorem ensures_of_yields {p : AtomicProgram A α} {ok : Q → Prop}
    {post : α → Prop} {inv : S → Prop} {s : S} (hyields : p.Yields ok post)
    (hok : ∀ s q, ok q → store.Promised s q)
    (hlater : ∀ {s s'}, inv s → store.Later s s' → inv s')
    (hnote : ∀ {s q}, ok q → inv s → inv (store.note s q)) (hs : inv s) :
    store.Ensures p (fun s a => post a ∧ inv s) s := by
  induction p generalizing s with
  | done a => exact fun s' hs' => ⟨hyields, hlater hs hs'⟩
  | ask q next ih =>
      intro s' hs' _
      exact ⟨hok s' q hyields.1, ih _ (hyields.2 _) (hnote hyields.1 (hlater hs hs'))⟩

end SharedStore

end Library

end ScpuEmu
