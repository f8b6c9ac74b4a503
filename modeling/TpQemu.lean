import TpQemu.Backup.CloneImages
import TpQemu.Backup.Copyif
import TpQemu.Balloon.Boundary
import TpQemu.BlockCopy.Finished
import TpQemu.BlockCopy.Steady
import TpQemu.BlockPerformance.SelectDisk
import TpQemu.BlockPlug.Separation
import TpQemu.BlockPlug.Threads
import TpQemu.BlockPlug.Unplug
import TpQemu.Cdrom.Tray
import TpQemu.Cgroup.Cpusets
import TpQemu.CpuFlags.Command
import TpQemu.CpuFlags.CpuMap
import TpQemu.Cpuid.Accessors
import TpQemu.Cpuid.Compare
import TpQemu.Cpuid.RoundTrip
import TpQemu.Ethtool.Restore
import TpQemu.Heartbeat.Gaps
import TpQemu.Hostdev.Functions
import TpQemu.Hostdev.Setup
import TpQemu.HotplugMem.Restore
import TpQemu.InputEvent.Agent
import TpQemu.InputEvent.Deltas
import TpQemu.InputEvent.Keys
import TpQemu.InputEvent.Listing
import TpQemu.InputEvent.Pointer
import TpQemu.InputEvent.Startup
import TpQemu.InputEvent.WellFormed
import TpQemu.InputEvent.Windows
import TpQemu.JobUtils.Completion
import TpQemu.JobUtils.Transactions
import TpQemu.Ksm.Sizing
import TpQemu.Ksm.Split
import TpQemu.Lib.Chunks
import TpQemu.Lib.Grouping
import TpQemu.Lib.MixedRadix
import TpQemu.Lib.Recency
import TpQemu.Lib.Tokens
import TpQemu.MessageQueue.Client
import TpQemu.MonotonicTime.Verdict
import TpQemu.NbdExport.Cycles
import TpQemu.NcVsock.Relay
import TpQemu.NumaCpu.Grouping
import TpQemu.NumaCpu.Topology
import TpQemu.PciDevices.Compare
import TpQemu.PciDevices.Placement
import TpQemu.PciHotplug.Listings
import TpQemu.Performance.Monitor
import TpQemu.Performance.Rows
import TpQemu.QmpCommand.Check
import TpQemu.QmpCommand.QueryBlock
import TpQemu.Qsd.Identities
import TpQemu.Qsd.Nbd
import TpQemu.ScsiMq.Affinity
import TpQemu.ScsiMq.Pinning
import TpQemu.Sgx.Sections
import TpQemu.Slof.Polls
import TpQemu.Steps.Barrier
import TpQemu.StgParams.Agreement
import TpQemu.StgParams.Configure
import TpQemu.StgParams.Escapes
import TpQemu.StgParams.Ranges
import TpQemu.Throttle.Output
import TpQemu.Throttle.Start
import TpQemu.Throttle.Tightest
import TpQemu.Timedrift.AdjustTime
import TpQemu.TscCheck.Accuracy
import TpQemu.TscCheck.Check
import TpQemu.TscCheck.CpuSet
import TpQemu.TscCheck.Ending
import TpQemu.TscCheck.Verdict
import TpQemu.VirtStorage.Acquire
import TpQemu.VirtStorage.Graph
import TpQemu.VirtStorage.Refresh
import TpQemu.VirtioConsole.Loopback
import TpQemu.VirtioSerial.Transfer
import TpQemu.VirtioTrace.Data
import TpQemu.VirtioTrace.Orders
import TpQemu.WinSerial.Platforms
