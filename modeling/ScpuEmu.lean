import ScpuEmu.SuperCpu.WriteBuffer.Coherence
import ScpuEmu.Video.RowStates
import ScpuEmu.Video.Consumption
import ScpuEmu.Video.Display
import ScpuEmu.Cpu.Bus
import ScpuEmu.Cpu.W65C816.Addressing
import ScpuEmu.Cpu.W65C816.Instructions
import ScpuEmu.Cpu.W65C816.FastPath
import ScpuEmu.Cpu.W65C816.Step
import ScpuEmu.Cpu.W65C816.WidthInvariant
import ScpuEmu.Cpu.W65C816.FastAgreement
import ScpuEmu.Cpu.W65C816.Reachable
import ScpuEmu.Cpu.W65C816.Accesses
import ScpuEmu.SuperCpu.WriteBuffer.PointerOrder
import ScpuEmu.Reu.Transfer
import ScpuEmu.Reu.Addressing
import ScpuEmu.C64.Banking
import ScpuEmu.C64.RasterCapture
import ScpuEmu.C64.Fetch
import ScpuEmu.C64.Timing
import ScpuEmu.C64.StoppedTimers
import ScpuEmu.C64.FetchRules
import ScpuEmu.C64.FetchCoherence
import ScpuEmu.C64.AccessPaths
import ScpuEmu.C64.TimingRuns
import ScpuEmu.C64.TimerAccuracy
import ScpuEmu.Reu.Reentrancy
import ScpuEmu.Cpu.W65C816.Batch
import ScpuEmu.SuperCpu.Presentation
import ScpuEmu.SuperCpu.Silence
import ScpuEmu.Reu.Arming
import ScpuEmu.SuperCpu.WriteBuffer.BoundedDelivery
import ScpuEmu.SuperCpu.WriteBuffer.NoProgressCache
import ScpuEmu.SuperCpu.MirrorTrace
import ScpuEmu.SuperCpu.NativeAccess
import ScpuEmu.SuperCpu.RegisterRuns
import ScpuEmu.SuperCpu.RegisterBoard
import ScpuEmu.SuperCpu.ReadResidue
import ScpuEmu.C64.SerialWindow
import ScpuEmu.SuperCpu.IdlePolling
import ScpuEmu.Cpu.W65C816.RunBudget
import ScpuEmu.Cpu.W65C816.Decimal
import ScpuEmu.Reu.RoundTrip
import ScpuEmu.Reu.Verify
import ScpuEmu.SuperCpu.Frame
import ScpuEmu.SuperCpu.FrameRecord
import ScpuEmu.SuperCpu.FrameAccounting
import ScpuEmu.Cpu.AccessTrace
import ScpuEmu.Cpu.W65C816.AddressClasses
import ScpuEmu.Cpu.W65C816.InstructionAccesses
import ScpuEmu.SuperCpu.Relocation
import ScpuEmu.SuperCpu.WriteBuffer.SelectiveFlush
import ScpuEmu.SuperCpu.WriteBuffer.SweepConvergence
import ScpuEmu.SuperCpu.WriteBuffer.Invalidation
import ScpuEmu.Bus.C128Refresh.LineScheduler
import ScpuEmu.Bus.C128Refresh.Exclusion
import ScpuEmu.C64.StretchAccounting
import ScpuEmu.SuperCpu.DiagnosticRepair
import ScpuEmu.SuperCpu.RelocationPool
import ScpuEmu.Library.AtomicProgram
import ScpuEmu.Video.DisplayProgram
import ScpuEmu.C64.LogProducer
import ScpuEmu.C64.AppendStores
import ScpuEmu.Video.HandOff
import ScpuEmu.SuperCpu.HandOver
import ScpuEmu.Video.BandedRendering
import ScpuEmu.Video.RendererBounds
import ScpuEmu.SuperCpu.SpriteFetchGuard
import ScpuEmu.Cpu.W65C816.RoundTrips
import ScpuEmu.Cpu.W65C816.BlockMove
import ScpuEmu.SuperCpu.BatchCharging
import ScpuEmu.SuperCpu.MapBus
import ScpuEmu.Video.FrameBoundaries
import ScpuEmu.Common.ConfigSafety
import ScpuEmu.Cpu.Emulation.Step
import ScpuEmu.SuperCpu.SimmRegister
import ScpuEmu.SuperCpu.FastAccesses
import ScpuEmu.SuperCpu.VideoSwitch
import ScpuEmu.Video.SelectionProgress
import ScpuEmu.Library.LongestRun
import ScpuEmu.Library.Champion
import ScpuEmu.Bus.Rad.SidTracking
import ScpuEmu.Bus.Rad.Transfers
import ScpuEmu.Bus.Rad.PotFilter
import ScpuEmu.Bus.Rad.ReadTiming
import ScpuEmu.Bus.Rad.WriteTiming
import ScpuEmu.Bus.Rad.RasterLine
