import Xadma.Theory.Word
import Xadma.Theory.Cyclic
import Xadma.Theory.Prog
import Xadma.Theory.RelyGuarantee
import Xadma.Theory.Contract
import Xadma.Theory.Machine
import Xadma.Theory.SideBySide
import Xadma.Theory.Jobs
import Xadma.Theory.InOrder
import Xadma.Theory.History
import Xadma.Theory.Ledger
import Xadma.Theory.Memory
import Xadma.Libxdma.Reg
import Xadma.Libxdma.PcieCommon
import Xadma.Libxdma.DmaEngine
import Xadma.Libxdma.EngineRegs
import Xadma.Libxdma.Interrupt
import Xadma.Libxdma.InterruptSetup
import Xadma.Libxdma.Device
import Xadma.Libxdma.InterruptHandles
import Xadma.Libxdma.EngineProbe
import Xadma.Libxdma.MessageInterrupt
import Xadma.Libxdma.Ring
import Xadma.Libxdma.Transfer
import Xadma.Libxdma.BufferAccess
import Xadma.Sys.FileIo
import Xadma.Sys.BarFiles
import Xadma.Sys.RingSession
import Xadma.Sys.TransferQueue
import Xadma.Sys.UserEvent
import Xadma.Sys.EntryQueue
import Xadma.Sys.AddressMode
import Xadma.Device.Descriptors
import Xadma.Libadma.Engine
import Xadma.Libadma.DescriptorTable
import Xadma.Libadma.Dispatcher
import Xadma.Libadma.Device
import Xadma.Libadma.EntryPoints
import Xadma.Sys.FileName
import Xadma.Avsadma.CaptureDevice
import Xadma.Avsadma.CapturePin
import Xadma.Avsadma.StatusRegister
import Xadma.Avsadma.VideoFormat
import Xadma.Avsadma.FormatIntersection
import Xadma.Avsadma.HardwareSimulation
import Xadma.Avsadma.PinState
import Xadma.Avsadma.SimulationThreads
import Xadma.Avsadma.StreamPointer
import Xadma.Avsadma.PinOwnership
import Xadma.Avsadma.ResourceRounds
import Xadma.Exe.XdmaRw
import Xadma.Exe.HexDump
import Xadma.Exe.XdmaRwMain
import Xadma.Device.Altera
import Xadma.Verify.Optimize
import Xadma.Verify.Chain
import Xadma.Verify.Split
import Xadma.Verify.FetchPlan
import Xadma.Verify.Bar
import Xadma.Verify.InterruptService
import Xadma.Verify.RingInvariant
import Xadma.Verify.RingRuns
import Xadma.Verify.BufferBounds
import Xadma.Verify.RingStream
import Xadma.Verify.DescriptorBuffer
import Xadma.Verify.Arbitration
import Xadma.Verify.ArbitrationRuns
import Xadma.Verify.PollTransfer
import Xadma.Verify.CompletionStatus
import Xadma.Verify.InterruptMask
import Xadma.Verify.InterruptRouting
import Xadma.Verify.InterruptHandles
import Xadma.Verify.DeviceBars
import Xadma.Verify.UserEvent
import Xadma.Verify.EntryQueue
import Xadma.Verify.AddressMode
import Xadma.Verify.AdmaProgram
import Xadma.Verify.Dispatcher
import Xadma.Verify.AdmaWindows
import Xadma.Verify.AdmaPointers
import Xadma.Verify.CaptureStart
import Xadma.Verify.CaptureInterrupt
import Xadma.Verify.CaptureRuns
import Xadma.Verify.Acknowledge
import Xadma.Verify.FrameBuffer
import Xadma.Verify.CaptureDescriptors
import Xadma.Verify.SimulationQueue
import Xadma.Verify.SimulationStop
import Xadma.Verify.FrameRelease
import Xadma.Verify.PartialClone
import Xadma.Verify.PinOwnership
import Xadma.Verify.PinTransitions
import Xadma.Verify.RingSignal
import Xadma.Verify.RingPoll
import Xadma.Verify.RingSession
import Xadma.Verify.RingCopyFailure
import Xadma.Verify.Writeback
import Xadma.Verify.Alignment
import Xadma.Verify.Perf
import Xadma.Verify.FetchOptimal
import Xadma.Verify.PollLoop
import Xadma.Verify.BarTiling
import Xadma.Verify.Capability
import Xadma.Verify.RingLayout
import Xadma.Verify.AdmaSlots
import Xadma.Verify.ResourceRounds
import Xadma.Verify.RingScan
import Xadma.Verify.ErrorStatus
import Xadma.Verify.FileName
import Xadma.Verify.CommandLine
import Xadma.Device.ScatterGather
import Xadma.Device.ParallelEngines
import Xadma.Verify.SgEngine
import Xadma.Verify.DmaRequests
import Xadma.Verify.DmaRuns
import Xadma.Verify.DmaMemory
import Xadma.Verify.ParallelEngines
import Xadma.Verify.EngineProbe
import Xadma.Verify.MessageService
import Xadma.Verify.BarFiles
import Xadma.Verify.FormatIntersection
import Xadma.Verify.HexDump
import Xadma.Verify.XdmaRwMain
import Xadma.Verify.CardCopy
