import Rl78Sim.Cluster.ActionRuns
import Rl78Sim.Cluster.ActionWire
import Rl78Sim.Cluster.AnalogLink
import Rl78Sim.Cluster.Backlog
import Rl78Sim.Cluster.CatalogRuns
import Rl78Sim.Cluster.GdbStep
import Rl78Sim.Cluster.HostLine
import Rl78Sim.Cluster.Isolation
import Rl78Sim.Cluster.LogFlush
import Rl78Sim.Cluster.ProbeFeedRuns
import Rl78Sim.Cluster.ServerSim
import Rl78Sim.Cluster.Session
import Rl78Sim.Cluster.StartupEnds
import Rl78Sim.Cluster.StatusWire
import Rl78Sim.Cluster.StepReply
import Rl78Sim.Cluster.TextFields
import Rl78Sim.Cluster.UartPacing
import Rl78Sim.Cluster.ViewerRuns
import Rl78Sim.Dsl.EmbedElfs
import Rl78Sim.Dsl.Flatten
import Rl78Sim.Gdb.Attach
import Rl78Sim.Gdb.Breakpoints
import Rl78Sim.Gdb.Registers
import Rl78Sim.Gdb.StopReason
import Rl78Sim.Gdb.TargetLaws
import Rl78Sim.Hw.AdcRange
import Rl78Sim.Hw.BreakpointSync
import Rl78Sim.Hw.DirectMap
import Rl78Sim.Hw.Durations
import Rl78Sim.Hw.G23Clock
import Rl78Sim.Hw.G23Fire
import Rl78Sim.Hw.G23Reset
import Rl78Sim.Hw.Gpio
import Rl78Sim.Hw.GuestRuns
import Rl78Sim.Hw.HoldSwitch
import Rl78Sim.Hw.IrqWords
import Rl78Sim.Hw.RxLine
import Rl78Sim.Hw.SauFlow
import Rl78Sim.Hw.SauLoopback
import Rl78Sim.Hw.Semihosting
import Rl78Sim.Hw.TauGrid
import Rl78Sim.Hw.Uart0
import Rl78Sim.Kernel.AliasChains
import Rl78Sim.Kernel.Aliases
import Rl78Sim.Kernel.DueEvents
import Rl78Sim.Kernel.ElfLoad
import Rl78Sim.Kernel.EventRuns
import Rl78Sim.Kernel.IdleBudget
import Rl78Sim.Kernel.Inspection
import Rl78Sim.Kernel.PlantGrid
import Rl78Sim.Kernel.Slicing
import Rl78Sim.Kernel.StepControl
import Rl78Sim.Kernel.Wiring
import Rl78Sim.Probe.CoarseRuns
import Rl78Sim.Probe.ControlPlane
import Rl78Sim.Probe.CsvFile
import Rl78Sim.Probe.Hang
import Rl78Sim.Probe.History
import Rl78Sim.Probe.Live
import Rl78Sim.Probe.LogRuns
import Rl78Sim.Probe.LongExport
import Rl78Sim.Probe.PutWatch
import Rl78Sim.Probe.UartStream
import Rl78Sim.Probe.ViewerSeries
