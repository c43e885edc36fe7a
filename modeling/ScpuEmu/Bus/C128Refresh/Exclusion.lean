import ScpuEmu.Bus.C128Refresh.Cores
import ScpuEmu.Library.Handshake

/-!
# Bus traffic and DRAM refresh exclude each other

Core 3 is the keeper of the traffic gate and core 0 its guest. While the service is
requested, the two run the handshake of a gate; while it is not, core 3 is outside of its
refresh loops, or core 0 waits in a stop for it to come out.
-/

namespace ScpuEmu

namespace C128Refresh

open Library

section View

/-- Outside of the loop that runs while refresh is requested. -/
def ServicePc.outOfLoop (pc : ServicePc) : Prop :=
  pc ∈ [.announce, .idle, .activate, .loopHead, .ackClear, .ackState, .ackActive]

/-- Before the store that sets the active flag, or after the one that clears it. -/
def ServicePc.inactive (pc : ServicePc) : Prop := pc ∈ [.announce, .idle, .activate]

def Guard.keeper : Guard → Keeper
  | .commit => .away
  | .windowLead | .exposureLine | .exposurePhase | .windowHold | .permutation | .failSafe => .locked

/-- What core 3 keeps of the gate. With the epoch open it keeps nothing. -/
def ServicePc.keeper : ServicePc → Keeper
  | .announce | .idle | .activate | .loopHead | .lineCheck => .away
  | .epochRefresh | .epochRequested | .epochLineSync | .epochElapsed | .epochClear | .epochDone
  | .epochLine | .epochTraffic => .locked
  | .epochWait | .ackClear | .ackState | .ackActive => .away
  | .close _ => .away
  | .closeRequested _ | .closeBusy _ => .closing
  | .closed _ => .locked
  | .edgeHigh _ | .edgeTest _ | .edgeLow _ | .edgeReturn _ | .pulse _ | .pulseHold _ => .locked
  | .guardRequested loop | .guardLineSync loop | .guardRest loop => loop.keeper
  | .syncTraffic | .syncReady | .syncRequested | .syncLine | .syncDrop => .away
  | .anchorRefresh | .anchorPredict | .anchorFallback | .measureNext | .measured | .lineActivate
  | .windowTest | .windowRefresh | .exposureSelect | .lineTraffic => .locked
  | .lineWait | .lineElapsed => .away
  | .forceTest | .forceFallback | .lineRefresh | .failSafe | .lineInactive => .locked

/-- The hold counts while the service is requested. -/
def ServicePc.holds : Bool → ServicePc → Keeper
  | true, pc => pc.keeper
  | false, _ => .away

/-- Between the set and the clear of a pulse. -/
def ServicePc.inPulse (pc : ServicePc) : Prop := ∃ site, pc = .pulseHold site

/-- A transaction of a service that is off takes no part. -/
def HostPc.guest (enabled : Bool) (pc : HostPc) : Guest :=
  if pc.claiming then .claiming
  else if pc.inTransaction && enabled then .inside
  else .outside

def EpochState.isTraffic : EpochState → Bool
  | .traffic => true
  | .stopped | .closing | .refresh => false

def System.view (s : System) : Handshake where
  gateOpen := s.words.epochState.isTraffic
  busy := s.words.trafficBusy
  keeper := s.service.holds s.words.refreshRequested
  guest := s.host.guest s.words.epochEnabled

/-- Places that core 0 reaches only with the service enabled. -/
def HostPc.needsEnabled : HostPc → Bool
  | .tryState _ | .claim _ | .recheck _ | .backOut _ | .startRequested => true
  | _ => false

/-- A stop that has withdrawn the request and not yet disabled the service. -/
def HostPc.stopping : HostPc → Bool
  | .stopWait | .stopDisable => true
  | _ => false

/-- How the places of the two cores and the request words go together. -/
structure System.Control (s : System) : Prop where
  enabled : s.words.refreshRequested = true → s.words.epochEnabled = true
  active : ¬ s.service.inactive → s.words.refreshActive = true
  requested : ¬ s.service.outOfLoop → s.words.refreshRequested = true ∨ s.host = .stopWait
  granted : s.host.needsEnabled = true → s.words.epochEnabled = true
  withdrawn : s.host.stopping = true → s.words.refreshRequested = false
  pulse : s.words.dmaReleased = true → s.service.inPulse

end View

section Service

variable (choice : Bool) (w : Words) (pc : ServicePc)

attribute [local simp] serviceStep

/-- Core 3 leaves the words of core 0 alone. -/
theorem serviceStep_frame :
    (serviceStep choice w pc).2.trafficBusy = w.trafficBusy ∧
      (serviceStep choice w pc).2.epochEnabled = w.epochEnabled ∧
      (serviceStep choice w pc).2.refreshRequested = w.refreshRequested := by
  cases pc <;> simp [apply_ite]

variable {w pc}

theorem serviceStep_outOfLoop (hr : w.refreshRequested = false) (h : pc.outOfLoop) :
    (serviceStep choice w pc).1.outOfLoop := by
  simp only [ServicePc.outOfLoop, List.mem_cons, List.not_mem_nil, or_false] at h
  rcases h with rfl | rfl | rfl | rfl | rfl | rfl | rfl <;>
    simp [ServicePc.outOfLoop, hr]

theorem serviceStep_active (hactive : ¬ pc.inactive → w.refreshActive = true)
    (h : ¬ (serviceStep choice w pc).1.inactive) :
    (serviceStep choice w pc).2.refreshActive = true := by
  cases pc <;> grind [serviceStep, ServicePc.inactive]

theorem serviceStep_pulse (hpulse : w.dmaReleased = true → pc.inPulse)
    (h : (serviceStep choice w pc).2.dmaReleased = true) :
    (serviceStep choice w pc).1.inPulse := by
  cases pc with
  | pulse site => exact ⟨site, rfl⟩
  | pulseHold site =>
    cases choice with
    | false => exact ⟨site, rfl⟩
    | true => cases h
  | epochClear | ackClear => cases h
  | measured =>
    obtain ⟨_, hsite⟩ := hpulse (by simpa [apply_ite] using h)
    cases hsite
  | _ =>
    obtain ⟨_, hsite⟩ := hpulse h
    cases hsite

theorem keeper_next (site : CloseSite) : site.next.keeper = .locked := by
  cases site <;> rfl

theorem keeper_missed (site : EdgeSite) :
    site.missed.keeper = .locked ∨ site.missed.keeper = .away := by
  cases site <;> simp [EdgeSite.missed, ServicePc.keeper]

theorem keeper_pulsed (site : EdgeSite) : site.pulsed.keeper = .locked := by
  cases site <;> rfl

theorem keeper_caught (site : EdgeSite) (choice : Bool) :
    (site.caught choice).keeper = .locked := by
  cases site <;> cases choice <;> rfl

theorem keeper_enter (loop : Guard) : loop.enter.keeper = loop.keeper := by
  cases loop <;> rfl

theorem keeper_leave (loop : Guard) : loop.leave.keeper = loop.keeper := by
  cases loop <;> rfl

variable (pc)

/-- What one step of core 3 can do to the gate: keep its hold, begin to close, lock with the
flag down, or let go. -/
theorem serviceStep_gate (hr : w.refreshRequested = true) :
    let r := serviceStep choice w pc
    (r.1.keeper = pc.keeper ∧ (r.2.epochState = w.epochState ∨ r.2.epochState ≠ .traffic)) ∨
    (r.1.keeper = .closing ∧ r.2.epochState = .closing) ∨
    (r.1.keeper = .locked ∧ r.2.epochState = w.epochState ∧ pc.keeper = .closing ∧
      w.trafficBusy = false) ∨
    (r.1.keeper = .away ∧ (r.2.epochState = w.epochState ∨ r.2.epochState = .traffic)) := by
  cases pc <;>
    grind [serviceStep, ServicePc.keeper, Guard.keeper, keeper_next, keeper_missed,
      keeper_pulsed, keeper_caught, keeper_enter, keeper_leave]

end Service

section Host

variable (choice : Bool) (request : Request) {w : Words} {pc : HostPc}

attribute [local simp] hostStep

/-- A call begins outside of everything that the two cores share. -/
theorem entry_plain (request : Request) :
    request.entry.needsEnabled = false ∧ request.entry.stopping = false ∧
      request.entry.claiming = false ∧ request.entry.inTransaction = false := by
  cases request <;> simp [Request.entry, HostPc.needsEnabled, HostPc.stopping, HostPc.claiming,
    HostPc.inTransaction]

theorem tryFailed_plain (spin : Bool) :
    (tryFailed spin).needsEnabled = false ∧ (tryFailed spin).stopping = false ∧
      (tryFailed spin).claiming = false ∧ (tryFailed spin).inTransaction = false := by
  cases spin <;> simp [tryFailed, HostPc.needsEnabled, HostPc.stopping, HostPc.claiming,
    HostPc.inTransaction]

theorem guest_outside (enabled : Bool) (hclaiming : pc.claiming = false)
    (hinside : pc.inTransaction = false) : pc.guest enabled = .outside := by
  simp [HostPc.guest, hclaiming, hinside]

/-- Core 0 leaves the words of core 3 alone. -/
theorem hostStep_frame (w : Words) (pc : HostPc) :
    (hostStep choice request w pc).2.refreshActive = w.refreshActive ∧
      (hostStep choice request w pc).2.dmaReleased = w.dmaReleased := by
  cases pc <;> simp

theorem hostStep_enabled (henabled : w.refreshRequested = true → w.epochEnabled = true)
    (hgranted : pc.needsEnabled = true → w.epochEnabled = true)
    (hwithdrawn : pc.stopping = true → w.refreshRequested = false)
    (h : (hostStep choice request w pc).2.refreshRequested = true) :
    (hostStep choice request w pc).2.epochEnabled = true := by
  cases pc with
  | startEnabled => rfl
  | startRequested => exact hgranted rfl
  | stopWithdraw => cases h
  | stopDisable => exact absurd h (Bool.eq_false_iff.mp (hwithdrawn rfl))
  | _ => exact henabled h

theorem hostStep_granted (hgranted : pc.needsEnabled = true → w.epochEnabled = true)
    (h : (hostStep choice request w pc).1.needsEnabled = true) :
    (hostStep choice request w pc).2.epochEnabled = true := by
  cases pc with
  | startEnabled => rfl
  | tryState _ | claim _ | recheck _ | backOut _ | startRequested => exact hgranted rfl
  | tryEnabled spin =>
    by_contra hdisabled
    have hoff : w.epochEnabled = false := Bool.eq_false_iff.mpr hdisabled
    simp [hoff, HostPc.needsEnabled] at h
  | outside => exact absurd h (by simp [entry_plain])
  | _ =>
    simp only [hostStep, apply_ite HostPc.needsEnabled] at h
    simp [HostPc.needsEnabled] at h

theorem hostStep_withdrawn (hwithdrawn : pc.stopping = true → w.refreshRequested = false)
    (h : (hostStep choice request w pc).1.stopping = true) :
    (hostStep choice request w pc).2.refreshRequested = false := by
  cases pc with
  | stopWithdraw => rfl
  | stopWait | stopDisable => exact hwithdrawn rfl
  | outside => exact absurd h (by simp [entry_plain])
  | backOut spin => exact absurd h (by simp [tryFailed_plain])
  | tryState spin =>
    simp only [hostStep, apply_ite HostPc.stopping, tryFailed_plain] at h
    simp [HostPc.stopping] at h
  | _ =>
    simp only [hostStep, apply_ite HostPc.stopping] at h
    simp [HostPc.stopping] at h

/-- The request goes only into a stop that waits for core 3. -/
theorem hostStep_requested (hactive : w.refreshActive = true)
    (h : w.refreshRequested = true ∨ pc = .stopWait) :
    (hostStep choice request w pc).2.refreshRequested = true ∨
      (hostStep choice request w pc).1 = .stopWait := by
  cases pc <;> grind [hostStep]

/-- What one step of core 0 can do at the gate: nothing, or shut it; claim; enter; or take the
flag down outside. -/
theorem hostStep_gate (hgranted : pc.needsEnabled = true → w.epochEnabled = true) :
    let r := hostStep choice request w pc
    let guest := pc.guest w.epochEnabled
    let guest' := r.1.guest r.2.epochEnabled
    (r.2.trafficBusy = w.trafficBusy ∧ guest' = guest ∧
      (r.2.epochState = w.epochState ∨ r.2.epochState ≠ .traffic)) ∨
    (r.2.trafficBusy = true ∧ guest' = .claiming ∧ r.2.epochState = w.epochState) ∨
    (r.2.trafficBusy = w.trafficBusy ∧ guest' = .inside ∧ r.2.epochState = w.epochState ∧
      guest = .claiming ∧ w.epochState = .traffic) ∨
    (r.2.trafficBusy = false ∧ guest' = .outside ∧ r.2.epochState = w.epochState) := by
  cases pc with
  | claim _ => exact .inr (.inl ⟨rfl, rfl, rfl⟩)
  | recheck spin =>
    have henabled : w.epochEnabled = true := hgranted rfl
    by_cases htraffic : w.epochState = .traffic
    · refine .inr (.inr (.inl ⟨rfl, ?_, rfl, rfl, htraffic⟩))
      simp [htraffic, henabled, HostPc.guest, HostPc.claiming, HostPc.inTransaction]
    · refine .inl ⟨rfl, ?_, .inl rfl⟩
      simp [htraffic, HostPc.guest, HostPc.claiming]
  | backOut spin =>
    refine .inr (.inr (.inr ⟨rfl, ?_, rfl⟩))
    exact guest_outside _ (tryFailed_plain spin).2.2.1 (tryFailed_plain spin).2.2.2
  | endStore | startBusy | stopBusy => exact .inr (.inr (.inr ⟨rfl, rfl, rfl⟩))
  | startState | stopState => exact .inl ⟨rfl, rfl, .inr (by simp)⟩
  | outside =>
    refine .inl ⟨rfl, ?_, .inl rfl⟩
    exact guest_outside _ (entry_plain request).2.2.1 (entry_plain request).2.2.2
  | tryState spin =>
    refine .inl ⟨rfl, ?_, .inl rfl⟩
    have hfailed := guest_outside w.epochEnabled (tryFailed_plain spin).2.2.1
      (tryFailed_plain spin).2.2.2
    simp only [hostStep, apply_ite (HostPc.guest w.epochEnabled), hfailed]
    simp [HostPc.guest, HostPc.claiming, HostPc.inTransaction]
  -- with the service off, a transaction is outside of the gate as well
  | beginEnabled | tryEnabled _ | endEnabled =>
    refine .inl ⟨rfl, ?_, .inl rfl⟩
    cases henabled : w.epochEnabled <;>
      simp [henabled, HostPc.guest, HostPc.claiming, HostPc.inTransaction]
  | _ =>
    refine .inl ⟨rfl, ?_, .inl rfl⟩
    simp only [hostStep, apply_ite (HostPc.guest _)]
    simp [HostPc.guest, HostPc.claiming, HostPc.inTransaction]

end Host

section Runs

theorem System.control_initial : System.initial.Control where
  enabled := by simp [System.initial]
  active h := absurd (by simp [System.initial, ServicePc.inactive]) h
  requested h := absurd (by simp [System.initial, ServicePc.outOfLoop]) h
  granted := by simp [System.initial, HostPc.needsEnabled]
  withdrawn := by simp [System.initial, HostPc.stopping]
  pulse := by simp [System.initial]

theorem ServicePc.active_of_inLoop {s : System} (h : s.Control) (hloop : ¬ s.service.outOfLoop) :
    s.words.refreshActive = true := by
  refine h.active fun hinactive => hloop ?_
  simp only [ServicePc.inactive, List.mem_cons, List.not_mem_nil, or_false] at hinactive
  rcases hinactive with heq | heq | heq <;> simp [ServicePc.outOfLoop, heq]

theorem System.Control.service {s : System} (h : s.Control) (choice : Bool) :
    (s.step (.service choice)).Control := by
  obtain ⟨hbusy, henabled, hrequested⟩ := serviceStep_frame choice s.words s.service
  constructor
  case enabled =>
    simp only [System.step, henabled, hrequested]
    exact h.enabled
  case active => exact serviceStep_active choice h.active
  case requested =>
    intro hloop
    simp only [System.step, hrequested] at hloop ⊢
    cases hr : s.words.refreshRequested with
    | true => exact .inl rfl
    | false =>
        -- without a request core 3 does not come back into the loop
        have hbefore : ¬ s.service.outOfLoop := fun hout =>
          hloop (serviceStep_outOfLoop choice hr hout)
        simpa [hr] using h.requested hbefore
  case granted =>
    simp only [System.step, henabled]
    exact h.granted
  case withdrawn =>
    simp only [System.step, hrequested]
    exact h.withdrawn
  case pulse => exact serviceStep_pulse choice h.pulse

theorem System.Control.host {s : System} (h : s.Control) (choice : Bool) (request : Request) :
    (s.step (.host choice request)).Control := by
  obtain ⟨hactive, hreleased⟩ := hostStep_frame choice request s.words s.host
  constructor
  case enabled => exact hostStep_enabled choice request h.enabled h.granted h.withdrawn
  case active =>
    simp only [System.step, hactive]
    exact h.active
  case requested =>
    intro hloop
    exact hostStep_requested choice request (ServicePc.active_of_inLoop h hloop)
      (h.requested hloop)
  case granted => exact hostStep_granted choice request h.granted
  case withdrawn => exact hostStep_withdrawn choice request h.withdrawn
  case pulse =>
    simp only [System.step, hreleased]
    exact h.pulse

theorem System.Control.step {s : System} (h : s.Control) (a : Action) : (s.step a).Control := by
  cases a with
  | service choice => exact h.service choice
  | host choice request => exact h.host choice request

/-- A store of the epoch state that opens nothing. -/
theorem gate_shut {state state' : EpochState} (h : state' = state ∨ state' ≠ .traffic)
    (busy : Bool) (keeper : Keeper) (guest : Guest) :
    Handshake.Step ⟨state.isTraffic, busy, keeper, guest⟩
      ⟨state'.isTraffic, busy, keeper, guest⟩ := by
  rcases h with rfl | h
  · exact .stutter _
  · have hshut : state'.isTraffic = false := by
      cases state' <;> first | rfl | contradiction
    rw [hshut]
    exact .shut _

/-- A store of the epoch state by core 3 outside of its hold. -/
theorem gate_away (state state' : EpochState) (busy : Bool) (guest : Guest) :
    Handshake.Step ⟨state.isTraffic, busy, .away, guest⟩
      ⟨state'.isTraffic, busy, .away, guest⟩ := by
  by_cases h : state' = .traffic
  · rw [h]
    exact .reopen _
  · exact gate_shut (.inr h) _ _ _

theorem System.service_refines (s : System) (choice : Bool) :
    s.view.Step (s.step (.service choice)).view := by
  obtain ⟨hbusy, henabled, hrequested⟩ := serviceStep_frame choice s.words s.service
  simp only [System.view, System.step, hbusy, henabled, hrequested]
  cases hr : s.words.refreshRequested with
  | false => exact gate_away _ _ _ _
  | true =>
      simp only [ServicePc.holds]
      rcases serviceStep_gate choice s.service hr with ⟨hkeeper, hstate⟩ | ⟨hkeeper, hstate⟩ |
        ⟨hkeeper, hstate, hclosing, hfree⟩ | ⟨hkeeper, hstate⟩
      · rw [hkeeper]
        exact gate_shut hstate _ _ _
      · rw [hkeeper, hstate]
        exact .close _
      · rw [hkeeper, hstate]
        exact .lock _ hclosing hfree
      · rw [hkeeper]
        rcases hstate with hstate | hstate
        · rw [hstate]
          exact .retire _
        · rw [hstate]
          exact .reopen _

theorem keeper_outOfLoop {pc : ServicePc} (h : pc.outOfLoop) : pc.keeper = .away := by
  simp only [ServicePc.outOfLoop, List.mem_cons, List.not_mem_nil, or_false] at h
  rcases h with rfl | rfl | rfl | rfl | rfl | rfl | rfl <;> rfl

/-- Only a start and a stop change the request. -/
theorem hostStep_request (choice : Bool) (request : Request) (w : Words) (pc : HostPc)
    (hstart : pc ≠ .startRequested) (hstop : pc ≠ .stopWithdraw) :
    (hostStep choice request w pc).2.refreshRequested = w.refreshRequested := by
  cases pc <;> simp [hostStep] at hstart hstop ⊢

theorem System.host_refines {s : System} (h : s.Control) (choice : Bool) (request : Request) :
    s.view.Step (s.step (.host choice request)).view := by
  simp only [System.view, System.step]
  by_cases hstart : s.host = .startRequested
  · -- core 3 is out of its loop, or the request stands already
    have hkeeper : s.service.holds s.words.refreshRequested = s.service.keeper := by
      cases hr : s.words.refreshRequested with
      | true => rfl
      | false =>
          by_cases hout : s.service.outOfLoop
          · exact (keeper_outOfLoop hout).symm
          · have hcontradiction := h.requested hout
            simp [hr, hstart] at hcontradiction
    rw [hstart, hkeeper]
    exact .stutter _
  by_cases hstop : s.host = .stopWithdraw
  · rw [hstop]
    exact .retire _
  rw [hostStep_request choice request s.words s.host hstart hstop]
  rcases hostStep_gate choice request h.granted with ⟨hbusy, hguest, hstate⟩ |
    ⟨hbusy, hguest, hstate⟩ | ⟨hbusy, hguest, hstate, hclaiming, hopen⟩ |
    ⟨hbusy, hguest, hstate⟩
  · rw [hbusy, hguest]
    exact gate_shut hstate _ _ _
  · rw [hbusy, hguest, hstate]
    exact .claim _
  · rw [hbusy, hguest, hstate]
    exact .enter _ hclaiming (by rw [hopen]; rfl)
  · rw [hbusy, hguest, hstate]
    exact .leave _

/-- The two cores run the handshake of the gate. -/
theorem System.step_refines {s : System} (h : s.Control) (a : Action) :
    s.view.Step (s.step a).view := by
  cases a with
  | service choice => exact s.service_refines choice
  | host choice request => exact System.host_refines h choice request

theorem System.run_sound (actions : List Action) :
    (run System.step .initial actions).Control ∧
      (run System.step .initial actions).view.Sound :=
  Handshake.sound_run System.step System.view (fun _ a h => h.step a)
    (fun _ a h => System.step_refines h a) System.control_initial
    ⟨by simp [System.view, System.initial, HostPc.guest, HostPc.claiming, HostPc.inTransaction],
      by simp [System.view, System.initial, ServicePc.holds],
      by simp [System.view, System.initial, ServicePc.holds]⟩ actions

theorem HostPc.guest_ne_outside_iff (enabled : Bool) (pc : HostPc) :
    pc.guest enabled ≠ .outside ↔
      pc.inTransaction = true ∧ enabled = true ∨ pc.claiming = true := by
  rw [HostPc.guest]
  split
  next hclaiming => simp [hclaiming]
  next hclaiming => cases hinside : pc.inTransaction <;> cases enabled <;> simp [hclaiming]

theorem HostPc.guest_inside {pc : HostPc} (h : pc.inTransaction = true) :
    pc.guest true = .inside := by
  revert h
  cases pc <;> simp [HostPc.inTransaction, HostPc.guest, HostPc.claiming]

/-- During a transaction no pulse is on: with the service off core 3 is out of its loop, and
with the service on it has not locked the gate. -/
theorem System.apart {s : System} (hcontrol : s.Control) (hsound : s.view.Sound)
    (htransaction : s.host.inTransaction = true) : ¬ s.service.inPulse := by
  rintro ⟨site, hsite⟩
  have hloop : ¬ s.service.outOfLoop := by simp [hsite, ServicePc.outOfLoop]
  have hrequested : s.words.refreshRequested = true := by
    rcases hcontrol.requested hloop with hrequested | hstop
    · exact hrequested
    · simp [hstop, HostPc.inTransaction] at htransaction
  have hkeeper : s.view.keeper = .locked := by
    simp [System.view, ServicePc.holds, hrequested, hsite, ServicePc.keeper]
  have hguest : s.view.guest = .inside := by
    simp only [System.view, hcontrol.enabled hrequested]
    exact HostPc.guest_inside htransaction
  exact hsound.apart hkeeper hguest

/-- In every interleaving of the two cores /DMA is never released during a transaction, and the
busy flag stands exactly for an enabled transaction or a tentative claim. -/
theorem traffic_excludes_refresh (actions : List Action) :
    let s := run System.step .initial actions
    ¬ ((s.words.dmaReleased = true ∨ s.service.inPulse) ∧ s.host.inTransaction = true) ∧
    (s.words.trafficBusy = true ↔
      s.host.inTransaction = true ∧ s.words.epochEnabled = true ∨ s.host.claiming = true) := by
  intro s
  obtain ⟨hcontrol, hsound⟩ := System.run_sound actions
  constructor
  · rintro ⟨hreleased | hpulse, htransaction⟩
    · exact System.apart hcontrol hsound htransaction (hcontrol.pulse hreleased)
    · exact System.apart hcontrol hsound htransaction hpulse
  · exact hsound.busy_iff.trans (HostPc.guest_ne_outside_iff _ _)

/-- Both sides get their turn: a pulse of the first refresh epoch, and a transaction in the
traffic epoch after it. -/
example :
    let started := Action.service true :: List.replicate 14 (.host true .refreshStart)
    let pulsing := run System.step .initial (started ++ List.replicate 16 (.service true))
    let inside := run System.step .initial (started ++ List.replicate 22 (.service true) ++
      List.replicate 5 (.host true .trafficTryBegin))
    pulsing.words.dmaReleased = true ∧
      inside.host = .inside ∧ inside.words.trafficBusy = true := by
  decide

end Runs

end C128Refresh

end ScpuEmu
