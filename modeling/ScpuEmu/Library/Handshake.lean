import ScpuEmu.Library.TransitionSystem

/-!
# A gate between a keeper and a guest

The guest claims a flag, looks at the gate once more, and enters only if it is still open.
The keeper shuts the gate, waits for the flag to fall, and locks the place. Whoever came
second sees the other, so the keeper never locks the place with the guest inside.
-/

namespace ScpuEmu

namespace Library

inductive Keeper
  | away
  | closing
  | locked
  deriving DecidableEq, Repr

inductive Guest
  | outside
  | claiming
  | inside
  deriving DecidableEq, Repr

structure Handshake where
  gateOpen : Bool
  busy : Bool
  keeper : Keeper
  guest : Guest
  deriving DecidableEq, Repr

namespace Handshake

/-- One atomic step of either side. Anyone may shut the gate. -/
inductive Step : Handshake → Handshake → Prop
  | stutter (h : Handshake) : Step h h
  | shut (h : Handshake) : Step h { h with gateOpen := false }
  | close (h : Handshake) : Step h { h with gateOpen := false, keeper := .closing }
  | lock (h : Handshake) (hkeeper : h.keeper = .closing) (hbusy : h.busy = false) :
      Step h { h with keeper := .locked }
  | reopen (h : Handshake) : Step h { h with gateOpen := true, keeper := .away }
  | retire (h : Handshake) : Step h { h with keeper := .away }
  | claim (h : Handshake) : Step h { h with busy := true, guest := .claiming }
  | enter (h : Handshake) (hguest : h.guest = .claiming) (hgate : h.gateOpen = true) :
      Step h { h with guest := .inside }
  | leave (h : Handshake) : Step h { h with busy := false, guest := .outside }

/-- The flag tells where the guest is, the keeper's gate is shut, and the two are apart. -/
structure Sound (h : Handshake) : Prop where
  busy_iff : h.busy = true ↔ h.guest ≠ .outside
  shut : h.keeper ≠ .away → h.gateOpen = false
  apart : h.keeper = .locked → h.guest ≠ .inside

theorem Sound.step {h h' : Handshake} (hs : h.Sound) (hstep : h.Step h') : h'.Sound := by
  obtain ⟨hbusy, hshut, hapart⟩ := hs
  cases hstep with
  | stutter => exact ⟨hbusy, hshut, hapart⟩
  | shut => exact ⟨hbusy, fun _ => rfl, hapart⟩
  | close => exact ⟨hbusy, fun _ => rfl, by simp⟩
  | lock hkeeper hfree =>
      have houtside : h.guest = .outside := by
        rw [hfree] at hbusy
        simpa using hbusy
      exact ⟨hbusy, fun _ => hshut (by simp [hkeeper]), by simp [houtside]⟩
  | reopen => exact ⟨hbusy, by simp, by simp⟩
  | retire => exact ⟨hbusy, by simp, by simp⟩
  | claim => exact ⟨by simp, hshut, by simp⟩
  | enter hguest hgate =>
      -- an open gate means that the keeper is away
      have haway : h.keeper = .away := by
        by_contra hkeeper
        rw [hshut hkeeper] at hgate
        exact absurd hgate (by simp)
      exact ⟨by rw [hbusy, hguest]; simp, hshut, by simp [haway]⟩
  | leave => exact ⟨by simp, hshut, by simp⟩

section Refinement

variable {S Op : Type*} (step : S → Op → S) (view : S → Handshake)

/-- A system is sound throughout its runs when, under an invariant of its own, every step
is one of the handshake. -/
theorem sound_run {I : S → Prop} (hkeep : ∀ s op, I s → I (step s op))
    (hrefines : ∀ s op, I s → (view s).Step (view (step s op))) {s : S} (hs : I s)
    (hsound : (view s).Sound) (ops : List Op) :
    I (run step s ops) ∧ (view (run step s ops)).Sound :=
  run_invariant step (P := fun s => I s ∧ (view s).Sound)
    (fun s op h => ⟨hkeep s op h.1, h.2.step (hrefines s op h.1)⟩) s ops ⟨hs, hsound⟩

end Refinement

end Handshake

end Library

end ScpuEmu
