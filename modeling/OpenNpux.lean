import OpenNpux.Bridge.CustomMac
import OpenNpux.Bridge.DeferredPath
import OpenNpux.Bridge.DmaSlot
import OpenNpux.Bridge.Handle
import OpenNpux.Bridge.LocalExtmem
import OpenNpux.Bridge.MacGating
import OpenNpux.Bridge.MasterDrivers
import OpenNpux.Bridge.ReadBeats
import OpenNpux.Bridge.ReadCapture
import OpenNpux.Bridge.RequestBuilder
import OpenNpux.Bridge.ResponseDelivery
import OpenNpux.Bridge.ServedClock
import OpenNpux.Bridge.SlavePort
import OpenNpux.Bridge.WriteCapture
import OpenNpux.Device.Batches
import OpenNpux.Device.Batching
import OpenNpux.Device.CacheTransparency
import OpenNpux.Device.CoralBackend
import OpenNpux.Device.Counters
import OpenNpux.Device.DirtyPages
import OpenNpux.Device.Drain
import OpenNpux.Device.Entry
import OpenNpux.Device.FastMode
import OpenNpux.Device.FirmwareLoader
import OpenNpux.Device.FlushFrame
import OpenNpux.Device.HaltVisibility
import OpenNpux.Device.HostWindow
import OpenNpux.Device.NPUDevice
import OpenNpux.Device.PageCache
import OpenNpux.Device.ResetControl
import OpenNpux.Device.RtlMachine
import OpenNpux.Device.Rules
import OpenNpux.Device.Shell
import OpenNpux.Device.SimulatedTime
import OpenNpux.Device.StageABackend
import OpenNpux.Device.StageAWindows
import OpenNpux.Device.TimeShift
import OpenNpux.Device.TimingRun
import OpenNpux.Device.TwinMachines
import OpenNpux.Device.VerilatedBackend
import OpenNpux.Device.Wakeup
import OpenNpux.Driver.Completion
import OpenNpux.Driver.Coral
import OpenNpux.Driver.Mutex
import OpenNpux.Driver.Ownership
import OpenNpux.Driver.Progress
import OpenNpux.Driver.RunningFlag
import OpenNpux.Firmware.Command
import OpenNpux.Firmware.CommandWindow
import OpenNpux.Firmware.ConvNode
import OpenNpux.Firmware.CustomAdd
import OpenNpux.Firmware.NodeFigures
import OpenNpux.Firmware.Offload
import OpenNpux.Firmware.StagedNode
import OpenNpux.Firmware.Staging
import OpenNpux.Firmware.StagingArena
import OpenNpux.Firmware.Traffic
import OpenNpux.Firmware.VectorAdd
import OpenNpux.Gemmini.Buffers
import OpenNpux.Gemmini.Device
import OpenNpux.Gemmini.Driver
import OpenNpux.Gemmini.Kernels
import OpenNpux.Gemmini.Lowering
import OpenNpux.Gemmini.Pooling
import OpenNpux.Gemmini.Sizes
import OpenNpux.Host.ModelFile
import OpenNpux.Host.ModelImage
import OpenNpux.Host.ModelParser
import OpenNpux.Host.ModelRun
import OpenNpux.Host.Runtime
import OpenNpux.Host.VectorAdd
import OpenNpux.Hybrid.Atomic
import OpenNpux.Hybrid.BlockFilter
import OpenNpux.Hybrid.Checks
import OpenNpux.Hybrid.Conv
import OpenNpux.Hybrid.ConvExact
import OpenNpux.Hybrid.ConvFrame
import OpenNpux.Hybrid.ConvResult
import OpenNpux.Hybrid.ConvValue
import OpenNpux.Hybrid.Dense
import OpenNpux.Hybrid.DenseExact
import OpenNpux.Hybrid.Descriptor
import OpenNpux.Hybrid.Dispatch
import OpenNpux.Hybrid.FloatKernels
import OpenNpux.Hybrid.Kernel
import OpenNpux.Hybrid.Rounding
import OpenNpux.Hybrid.ShiftChecks
import OpenNpux.Hybrid.ShiftOverlap
import OpenNpux.Hybrid.Values
import OpenNpux.Lib.Buffer
import OpenNpux.Lib.Bytes
import OpenNpux.Lib.CInt
import OpenNpux.Lib.Channel
import OpenNpux.Lib.Fill
import OpenNpux.Lib.Journal
import OpenNpux.Lib.Lockstep
import OpenNpux.Lib.Nearest
import OpenNpux.Lib.Prog
import OpenNpux.Lib.Repeat
import OpenNpux.Lib.Responder
import OpenNpux.Lib.Run
import OpenNpux.Lib.WriteBack
import OpenNpux.Lib.WriteLog
import OpenNpux.Ndp.Attribution
import OpenNpux.Ndp.Delivery
import OpenNpux.Ndp.Engine
import OpenNpux.Ndp.Progress
import OpenNpux.Ndp.Responses
import OpenNpux.Ndp.SearchDevice
import OpenNpux.Ndp.Splitting
