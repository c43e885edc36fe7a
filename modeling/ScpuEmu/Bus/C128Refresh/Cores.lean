import ScpuEmu.Library.TransitionSystem

/-!
# The two cores of the C128 refresh service

Core 3 runs the service loop, with the coarse epochs and the line scheduler; core 0 makes
bus transactions and starts, stops and configures the service between them. Each load and
each store of the words that the cores share is one step of either core.

What a core decides from the clock, from GPIO, from its pulse counters or from the
geometry of a window scan is read off the step's `choice`, so every such decision may fall
either way at any time. That covers the end of every wait and the timeout of the bounded
ones.
-/

namespace ScpuEmu

namespace C128Refresh

section Words

/-- `g_C128EpochState`, in the order of its values. -/
inductive EpochState
  | stopped
  | traffic
  | closing
  | refresh
  deriving DecidableEq, Repr

structure Words where
  epochEnabled : Bool
  epochState : EpochState
  trafficBusy : Bool
  refreshReady : Bool
  refreshRequested : Bool
  refreshActive : Bool
  forceContinuousRefresh : Bool
  lineSyncRequested : Bool
  lineSyncReady : Bool
  lineSyncCommitted : Bool
  lineSyncRaster : ℕ
  linePredictedRaster : ℕ
  lineCycles : ℕ
  lineRasterLines : ℕ
  lineActive : Bool
  lineFallback : Bool
  windowScanEnabled : Bool
  /-- The level of /DMA at the output latch. -/
  dmaReleased : Bool
  deriving DecidableEq, Repr

end Words

section Service

/-- The calls of `c128WaitFallingEdge`, most of them followed by a pulse. -/
inductive EdgeSite
  | epoch
  | measure
  | windowLead
  | windowProtected
  | windowBare
  | windowHold
  | permutation
  | failSafe
  deriving DecidableEq, Repr

/-- The calls of `c128CloseTraffic`; the coarse loop has the same code in line. -/
inductive CloseSite
  | epoch
  | anchor
  | permutation
  deriving DecidableEq, Repr

/-- The loops that run while both refresh and line sync are requested. -/
inductive Guard
  | commit
  | windowLead
  | exposureLine
  | exposurePhase
  | windowHold
  | permutation
  | failSafe
  deriving DecidableEq, Repr

/-- Where core 3 is. -/
inductive ServicePc
  -- the service loop
  | announce
  | idle
  | activate
  | loopHead
  | lineCheck
  -- a coarse epoch of refresh, then one of traffic
  | epochRefresh
  | epochRequested
  | epochLineSync
  | epochElapsed
  | epochClear
  | epochDone
  | epochLine
  | epochTraffic
  | epochWait
  -- the acknowledgement of a stop
  | ackClear
  | ackState
  | ackActive
  -- `c128CloseTraffic`
  | close (site : CloseSite)
  | closeRequested (site : CloseSite)
  | closeBusy (site : CloseSite)
  | closed (site : CloseSite)
  -- `c128WaitFallingEdge`
  | edgeHigh (site : EdgeSite)
  | edgeTest (site : EdgeSite)
  | edgeLow (site : EdgeSite)
  | edgeReturn (site : EdgeSite)
  -- `c128PulseDMA`
  | pulse (site : EdgeSite)
  | pulseHold (site : EdgeSite)
  -- the line scheduler
  | guardRequested (loop : Guard)
  | guardLineSync (loop : Guard)
  | guardRest (loop : Guard)
  | syncTraffic
  | syncReady
  | syncRequested
  | syncLine
  | syncDrop
  | anchorRefresh
  | anchorPredict
  | anchorFallback
  | measureNext
  | measured
  | lineActivate
  | windowTest
  | windowRefresh
  | exposureSelect
  | lineTraffic
  | lineWait
  | lineElapsed
  | forceTest
  | forceFallback
  | lineRefresh
  | failSafe
  | lineInactive
  deriving DecidableEq, Repr

/-- After a close with refresh still requested. -/
def CloseSite.next : CloseSite → ServicePc
  | .epoch => .epochRefresh
  | .anchor => .anchorRefresh
  | .permutation => .forceTest

/-- After a close that the end of the request cut short. -/
def CloseSite.abandon : CloseSite → ServicePc
  | .epoch => .ackClear
  | .anchor => .loopHead
  | .permutation => .failSafe

/-- After an edge. The permutation loop leaves the first edge at its target to traffic. -/
def EdgeSite.caught (site : EdgeSite) (choice : Bool) : ServicePc :=
  match site with
  | .windowBare => .guardRequested .exposurePhase
  | .permutation => if choice then .guardRequested .permutation else .pulse .permutation
  | site => .pulse site

/-- After a wait that the end of the request cut short. -/
def EdgeSite.missed : EdgeSite → ServicePc
  | .epoch => .epochClear
  | .windowHold | .failSafe => .lineInactive
  | .measure | .windowLead | .windowProtected | .windowBare | .permutation => .loopHead

def EdgeSite.pulsed : EdgeSite → ServicePc
  | .epoch => .epochElapsed
  | .measure => .measureNext
  | .windowLead => .guardRequested .windowLead
  | .windowProtected | .windowBare => .guardRequested .exposurePhase
  | .windowHold => .guardRequested .windowHold
  | .permutation => .edgeHigh .permutation
  | .failSafe => .guardRequested .failSafe

/-- The rest of a loop's condition. -/
def Guard.rest (loop : Guard) (choice : Bool) (w : Words) : Bool :=
  match loop with
  | .commit => !w.lineSyncCommitted
  | .windowLead | .exposureLine | .exposurePhase => choice
  | .windowHold => w.windowScanEnabled
  | .permutation => !w.lineFallback
  | .failSafe => true

def Guard.enter : Guard → ServicePc
  | .commit => .guardRequested .commit
  | .windowLead => .edgeHigh .windowLead
  | .exposureLine => .guardRequested .exposurePhase
  | .exposurePhase => .exposureSelect
  | .windowHold => .edgeHigh .windowHold
  | .permutation => .lineTraffic
  | .failSafe => .edgeHigh .failSafe

def Guard.leave : Guard → ServicePc
  | .commit => .syncRequested
  | .windowLead | .exposurePhase => .guardRequested .exposureLine
  | .exposureLine => .guardRequested .windowHold
  | .windowHold | .failSafe => .lineInactive
  | .permutation => .failSafe

/-- One step of `CC128RefreshService::Run` on core 3. -/
def serviceStep (choice : Bool) (w : Words) : ServicePc → ServicePc × Words
  | .announce => (.idle, { w with refreshReady := true })
  | .idle => (if w.refreshRequested then .activate else .idle, w)
  | .activate => (.loopHead, { w with refreshActive := true })
  | .loopHead => (if w.refreshRequested then .lineCheck else .ackClear, w)
  | .lineCheck => (if w.lineSyncRequested then .syncTraffic else .close .epoch, w)
  | .epochRefresh => (.epochRequested, { w with epochState := .refresh })
  | .epochRequested => (if w.refreshRequested then .epochLineSync else .epochClear, w)
  | .epochLineSync => (if w.lineSyncRequested then .epochClear else .edgeHigh .epoch, w)
  | .epochElapsed =>
    (if !w.forceContinuousRefresh && choice then .epochClear else .epochRequested, w)
  | .epochClear => (.epochDone, { w with dmaReleased := false })
  | .epochDone => (if w.refreshRequested then .epochLine else .ackClear, w)
  | .epochLine => (if w.lineSyncRequested then .loopHead else .epochTraffic, w)
  | .epochTraffic => (.epochWait, { w with epochState := .traffic })
  | .epochWait => (if w.refreshRequested && !choice then .epochWait else .loopHead, w)
  | .ackClear => (.ackState, { w with dmaReleased := false })
  | .ackState => (.ackActive, { w with epochState := .stopped })
  | .ackActive => (.idle, { w with refreshActive := false })
  | .close site => (.closeRequested site, { w with epochState := .closing })
  | .closeRequested site => (if w.refreshRequested then .closeBusy site else .closed site, w)
  | .closeBusy site => (if w.trafficBusy then .closeRequested site else .closed site, w)
  | .closed site => (if w.refreshRequested then site.next else site.abandon, w)
  | .edgeHigh site => (if w.refreshRequested && !choice then .edgeHigh site else .edgeTest site, w)
  | .edgeTest site => (if w.refreshRequested then .edgeLow site else site.missed, w)
  | .edgeLow site => (if w.refreshRequested && !choice then .edgeLow site else .edgeReturn site, w)
  | .edgeReturn site => (if w.refreshRequested then site.caught choice else site.missed, w)
  | .pulse site => (.pulseHold site, { w with dmaReleased := true })
  | .pulseHold site =>
    if choice then (site.pulsed, { w with dmaReleased := false }) else (.pulseHold site, w)
  | .guardRequested loop => (if w.refreshRequested then .guardLineSync loop else loop.leave, w)
  | .guardLineSync loop => (if w.lineSyncRequested then .guardRest loop else loop.leave, w)
  | .guardRest loop => (if loop.rest choice w then loop.enter else loop.leave, w)
  | .syncTraffic => (.syncReady, { w with epochState := .traffic })
  | .syncReady => (.guardRequested .commit, { w with lineSyncReady := true })
  | .syncRequested => (if w.refreshRequested then .syncLine else .syncDrop, w)
  | .syncLine => (if w.lineSyncRequested then .close .anchor else .syncDrop, w)
  -- this return leaves the epoch open
  | .syncDrop => (.loopHead, { w with lineSyncReady := false })
  | .anchorRefresh => (.anchorPredict, { w with epochState := .refresh })
  | .anchorPredict => (.anchorFallback, { w with linePredictedRaster := w.lineSyncRaster })
  | .anchorFallback => (.edgeHigh .measure, { w with lineFallback := false })
  | .measureNext => (if choice then .measured else .edgeHigh .measure, w)
  -- a bad measurement of the PHI2 period refuses traffic
  | .measured => (.lineActivate, if choice then { w with lineFallback := true } else w)
  | .lineActivate => (.windowTest, { w with lineActive := true })
  | .windowTest => (if w.windowScanEnabled then .windowRefresh else .guardRequested .permutation, w)
  | .windowRefresh => (.guardRequested .windowLead, { w with epochState := .refresh })
  | .exposureSelect => (.edgeHigh (if choice then .windowProtected else .windowBare), w)
  | .lineTraffic => (.lineWait, { w with epochState := .traffic })
  | .lineWait => (if w.refreshRequested then .lineElapsed else .close .permutation, w)
  | .lineElapsed =>
    (if !w.forceContinuousRefresh && !choice then .lineWait else .close .permutation, w)
  | .forceTest => (if w.forceContinuousRefresh then .forceFallback else .lineRefresh, w)
  | .forceFallback => (.failSafe, { w with lineFallback := true })
  | .lineRefresh => (.edgeHigh .permutation, { w with epochState := .refresh })
  | .failSafe => (.guardRequested .failSafe, { w with epochState := .refresh })
  | .lineInactive => (.loopHead, { w with lineActive := false })

end Service

section Host

/-- What core 0 may turn to outside of transactions. -/
inductive Request
  | trafficTryBegin
  | trafficBegin
  | refreshStart
  | refreshStop
  | forceContinuous (enable : Bool)
  | beginLineSync (cyclesPerLine rasterLines : ℕ)
  | commitLineSync (rasterLine : ℕ)
  | cancelLineSync
  | configureWindowScan
  deriving DecidableEq, Repr

/-- Where core 0 is. Inside `c128TrafficBegin` a failed claim goes back to `spin`. -/
inductive HostPc
  | outside
  -- `c128TrafficBegin` around `c128TrafficTryBegin`
  | beginEnabled
  | beginSpin
  | tryEnabled (spin : Bool)
  | tryState (spin : Bool)
  | claim (spin : Bool)
  | recheck (spin : Bool)
  | backOut (spin : Bool)
  -- the transaction and `c128TrafficEnd`
  | inside
  | endEnabled
  | endStore
  -- `c128RefreshStart`
  | startSpin
  | startReady
  | startBusy
  | startLineSync
  | startLineReady
  | startCommitted
  | startScan
  | startLineActive
  | startState
  | startEnabled
  | startRequested
  | startWait
  | startReturn
  -- `c128RefreshStop`
  | stopRequested
  | stopActive
  | stopLineSync
  | stopCommitted
  | stopWithdraw
  | stopWait
  | stopDisable
  | stopState
  | stopBusy
  | stopLineReady
  | stopLineActive
  -- the remaining calls
  | force (enable : Bool)
  | beginActive (cyclesPerLine rasterLines : ℕ)
  | beginGeometry (cyclesPerLine rasterLines : ℕ)
  | beginReady
  | beginCommitted
  | beginReset
  | beginRequest
  | beginWait
  | beginReturn
  | commitReady (rasterLine : ℕ)
  | commitRaster (rasterLine : ℕ)
  | commitStore
  | commitWait
  | cancelRequest
  | cancelCommitted
  | cancelWait
  | cancelScan
  | scanActive
  | scanLineActive
  | scanLineSync
  | scanEnable
  deriving DecidableEq, Repr

def Request.entry : Request → HostPc
  | .trafficTryBegin => .tryEnabled false
  | .trafficBegin => .beginEnabled
  | .refreshStart => .startSpin
  | .refreshStop => .stopRequested
  | .forceContinuous enable => .force enable
  | .beginLineSync cyclesPerLine rasterLines => .beginActive cyclesPerLine rasterLines
  | .commitLineSync rasterLine => .commitReady rasterLine
  | .cancelLineSync => .cancelRequest
  | .configureWindowScan => .scanActive

/-- Where a failed claim returns to. -/
def tryFailed (spin : Bool) : HostPc := if spin then .beginSpin else .outside

/-- The bounds of `c128RefreshBeginLineSync`. -/
def lineGeometry (cyclesPerLine rasterLines : ℕ) : Bool :=
  !(cyclesPerLine < 48 || cyclesPerLine > 80 || rasterLines < 240 || rasterLines > 320)

/-- One step of core 0. -/
def hostStep (choice : Bool) (request : Request) (w : Words) : HostPc → HostPc × Words
  | .outside => (request.entry, w)
  | .beginEnabled => (if w.epochEnabled then .beginSpin else .inside, w)
  | .beginSpin => (if w.epochState = .traffic then .tryEnabled true else .beginSpin, w)
  | .tryEnabled spin => (if w.epochEnabled then .tryState spin else .inside, w)
  | .tryState spin => (if w.epochState = .traffic then .claim spin else tryFailed spin, w)
  | .claim spin => (.recheck spin, { w with trafficBusy := true })
  | .recheck spin => (if w.epochState = .traffic then .inside else .backOut spin, w)
  | .backOut spin => (tryFailed spin, { w with trafficBusy := false })
  | .inside => (if choice then .endEnabled else .inside, w)
  | .endEnabled => (if w.epochEnabled then .endStore else .outside, w)
  | .endStore => (.outside, { w with trafficBusy := false })
  | .startSpin => (if w.refreshReady || choice then .startReady else .startSpin, w)
  | .startReady => (if w.refreshReady then .startBusy else .outside, w)
  | .startBusy => (.startLineSync, { w with trafficBusy := false })
  | .startLineSync => (.startLineReady, { w with lineSyncRequested := false })
  | .startLineReady => (.startCommitted, { w with lineSyncReady := false })
  | .startCommitted => (.startScan, { w with lineSyncCommitted := false })
  | .startScan => (.startLineActive, { w with windowScanEnabled := false })
  | .startLineActive => (.startState, { w with lineActive := false, lineFallback := false })
  | .startState => (.startEnabled, { w with epochState := .refresh })
  | .startEnabled => (.startRequested, { w with epochEnabled := true })
  | .startRequested => (.startWait, { w with refreshRequested := true })
  | .startWait => (if w.refreshActive || choice then .startReturn else .startWait, w)
  | .startReturn => (.outside, w)
  | .stopRequested => (if w.refreshRequested then .stopLineSync else .stopActive, w)
  | .stopActive => (if w.refreshActive then .stopLineSync else .outside, w)
  | .stopLineSync => (.stopCommitted, { w with lineSyncRequested := false })
  | .stopCommitted => (.stopWithdraw, { w with lineSyncCommitted := false })
  | .stopWithdraw => (.stopWait, { w with refreshRequested := false })
  | .stopWait => (if w.refreshActive then .stopWait else .stopDisable, w)
  | .stopDisable => (.stopState, { w with epochEnabled := false })
  | .stopState => (.stopBusy, { w with epochState := .stopped })
  | .stopBusy => (.stopLineReady, { w with trafficBusy := false })
  | .stopLineReady => (.stopLineActive, { w with lineSyncReady := false })
  | .stopLineActive => (.outside, { w with lineActive := false })
  | .force enable => (.outside, { w with forceContinuousRefresh := enable })
  | .beginActive cyclesPerLine rasterLines =>
    (if w.refreshActive && lineGeometry cyclesPerLine rasterLines then
      .beginGeometry cyclesPerLine rasterLines
    else .outside, w)
  | .beginGeometry cyclesPerLine rasterLines =>
    (.beginReady, { w with lineCycles := cyclesPerLine, lineRasterLines := rasterLines })
  | .beginReady => (.beginCommitted, { w with lineSyncReady := false })
  | .beginCommitted => (.beginReset, { w with lineSyncCommitted := false })
  | .beginReset => (.beginRequest, { w with lineActive := false, lineFallback := false })
  | .beginRequest => (.beginWait, { w with lineSyncRequested := true })
  | .beginWait => (if w.lineSyncReady || choice then .beginReturn else .beginWait, w)
  | .beginReturn => (.outside, w)
  | .commitReady rasterLine =>
    (if w.lineSyncReady && rasterLine < w.lineRasterLines then .commitRaster rasterLine
    else .outside, w)
  | .commitRaster rasterLine => (.commitStore, { w with lineSyncRaster := rasterLine })
  | .commitStore => (.commitWait, { w with lineSyncCommitted := true })
  | .commitWait =>
    (if w.lineActive || w.lineFallback || choice then .outside else .commitWait, w)
  | .cancelRequest => (.cancelCommitted, { w with lineSyncRequested := false })
  | .cancelCommitted => (.cancelWait, { w with lineSyncCommitted := false })
  | .cancelWait => (if !w.lineActive || choice then .cancelScan else .cancelWait, w)
  | .cancelScan => (.outside, { w with windowScanEnabled := false })
  | .scanActive => (if w.refreshActive then .scanLineActive else .outside, w)
  | .scanLineActive => (if w.lineActive then .outside else .scanLineSync, w)
  -- the width of the scan may also be refused
  | .scanLineSync => (if w.lineSyncRequested || choice then .outside else .scanEnable, w)
  | .scanEnable => (.outside, { w with windowScanEnabled := true })

/-- From a successful begin to the store that ends the transaction. -/
def HostPc.inTransaction : HostPc → Bool
  | .inside | .endEnabled | .endStore => true
  | _ => false

/-- From the tentative claim to the decision, or to the end of the back-out. -/
def HostPc.claiming : HostPc → Bool
  | .recheck _ | .backOut _ => true
  | _ => false

end Host

section System

structure System where
  words : Words
  service : ServicePc
  host : HostPc
  deriving DecidableEq, Repr

/-- The step of a core, with what it finds there. -/
inductive Action
  | service (choice : Bool)
  | host (choice : Bool) (request : Request)
  deriving DecidableEq, Repr

def System.step (s : System) : Action → System
  | .service choice =>
    let (pc, words) := serviceStep choice s.words s.service
    { s with service := pc, words }
  | .host choice request =>
    let (pc, words) := hostStep choice request s.words s.host
    { s with host := pc, words }

/-- At power-up, /DMA asserted. -/
def System.initial : System where
  words :=
    { epochEnabled := false
      epochState := .stopped
      trafficBusy := false
      refreshReady := false
      refreshRequested := false
      refreshActive := false
      forceContinuousRefresh := false
      lineSyncRequested := false
      lineSyncReady := false
      lineSyncCommitted := false
      lineSyncRaster := 0
      linePredictedRaster := 0
      lineCycles := 65
      lineRasterLines := 263
      lineActive := false
      lineFallback := false
      windowScanEnabled := false
      dmaReleased := false }
  service := .announce
  host := .outside

end System

end C128Refresh

end ScpuEmu
