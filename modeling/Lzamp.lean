import Lzamp.Lib.Trace
import Lzamp.Lib.Circular
import Lzamp.Lib.Bus
import Lzamp.Lib.Hiword
import Lzamp.Lib.Bytes
import Lzamp.Lib.Words
import Lzamp.Lib.Counter
import Lzamp.Lib.Rounding
import Lzamp.Lib.Rank
import Lzamp.Lib.Crc
import Lzamp.Lib.Loop
import Lzamp.Lib.Seqlock
import Lzamp.Lib.SideBySide
import Lzamp.Lib.Matching
import Lzamp.Lib.Logged
import Lzamp.Lib.Unwind
import Lzamp.Lib.PyText
import Lzamp.Lib.PyJson
import Lzamp.Lib.PyJsonErrors
import Lzamp.Lib.PyJsonValues
import Lzamp.Lib.PyJsonDumps
import Lzamp.Mailmsg.Protocol
import Lzamp.Mailmsg.RingSteps
import Lzamp.Mailmsg.RingContents
import Lzamp.Mailmsg.FrameCrc
import Lzamp.Mailmsg.Endpoint
import Lzamp.Mailmsg.SendAtomic
import Lzamp.Mailmsg.Traffic
import Lzamp.Mailmsg.Statistics
import Lzamp.Mailmsg.SessionFrames
import Lzamp.R1Amp.Driver
import Lzamp.R1Amp.Lifecycle
import Lzamp.R1Amp.DataPlane
import Lzamp.R1Amp.FaultInjection
import Lzamp.R1Amp.Geometry
import Lzamp.R1Amp.World
import Lzamp.R1Amp.SequenceNumbers
import Lzamp.R1Amp.DrainLoops
import Lzamp.R1Amp.Session
import Lzamp.R1Amp.SessionRefinement
import Lzamp.R1Amp.ImageUpload
import Lzamp.R1Amp.LifecycleSafety
import Lzamp.R1Amp.StopPreflight
import Lzamp.R1Amp.StopReply
import Lzamp.R1Amp.Ownership
import Lzamp.R1Amp.Requests
import Lzamp.R1Amp.ReaderClaim
import Lzamp.R1Amp.ExclusiveReader
import Lzamp.R1Amp.Wakeups
import Lzamp.R1Amp.StopOwner
import Lzamp.R1Amp.SessionPage
import Lzamp.R1Amp.Probe
import Lzamp.Cpu3.Service
import Lzamp.Cpu3.Drain
import Lzamp.Cpu3.Replies
import Lzamp.Cpu3.Desk
import Lzamp.Cpu3.Threads
import Lzamp.Cpu3.SingleProducer
import Lzamp.Cpu3.ReplyOrder
import Lzamp.Cpu3.Drivers
import Lzamp.Cpu3.PeripheralService
import Lzamp.Cpu3.DriverSpecs
import Lzamp.Cpu3.HardwareOwnership
import Lzamp.Cpu3.PeripheralResults
import Lzamp.Cpu3.BusRelease
import Lzamp.Cpu3.AdcInterrupt
import Lzamp.Cpu3.GpioShadow
import Lzamp.Cpu3.ClockTree
import Lzamp.Cpu3.PwmTicks
import Lzamp.Cpu3.Dividers
import Lzamp.Cpu3.I2cPacking
import Lzamp.Cpu3.Boot
import Lzamp.Cpu3.Usable
import Lzamp.Agent.Frames
import Lzamp.Agent.Calls
import Lzamp.Agent.Decision
import Lzamp.Agent.Allowlist
import Lzamp.Agent.Rejections
import Lzamp.Agent.NativeSyntax
import Lzamp.Agent.ModelRequest
import Lzamp.Agent.Main
import Lzamp.Tools.WindowBench
import Lzamp.System.Power
import Lzamp.System.Doorbell
import Lzamp.System.Wakeup
import Lzamp.System.OrphanDoorbell
import Lzamp.System.BringUp
import Lzamp.System.BlockedReader
import Lzamp.System.Observations
import Lzamp.System.StopAuthority
import Lzamp.System.SessionAgreement
import Lzamp.System.ServicePass
import Lzamp.System.StatusCodes
import Lzamp.System.RpcCodec
import Lzamp.System.ToolMeaning
import Lzamp.System.ToolStatus
import Lzamp.System.ResultForm
import Lzamp.System.ToolCalls
