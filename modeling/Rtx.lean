import Rtx.Lib.Chain
import Rtx.Lib.Run
import Rtx.Lib.Places
import Rtx.Lib.Circular
import Rtx.Lib.Records
import Rtx.Lib.LevelQueue
import Rtx.Lib.Fields
import Rtx.Lib.Digits
import Rtx.Lib.Deadlines
import Rtx.Coldfire.Structs
import Rtx.Coldfire.Mem
import Rtx.Coldfire.Pong
import Rtx.Coldfire.MsgEnvQueue
import Rtx.Coldfire.ProcQueue
import Rtx.Coldfire.Scheduler
import Rtx.Coldfire.SchedQueues
import Rtx.Coldfire.AbsSched
import Rtx.Coldfire.SchedRefine
import Rtx.Coldfire.SchedBoot
import Rtx.Coldfire.SchedFrame
import Rtx.Coldfire.Ipc
import Rtx.Coldfire.DelayLog
import Rtx.Coldfire.TimeoutQueue
import Rtx.Coldfire.IpcMoves
import Rtx.Coldfire.Envelopes
import Rtx.Coldfire.Effects
import Rtx.Coldfire.Primitives
import Rtx.Coldfire.IProcesses
import Rtx.Coldfire.PrimitiveCases
import Rtx.Coldfire.System
import Rtx.Coldfire.Acts
import Rtx.Coldfire.Steps
import Rtx.Coldfire.SchedRuns
import Rtx.Coldfire.Ownership
import Rtx.Coldfire.Delivery
import Rtx.Coldfire.Delays
import Rtx.Coldfire.TimerRuns
import Rtx.Coldfire.DelayService
import Rtx.Coldfire.WakeUps
import Rtx.Coldfire.Location
import Rtx.Coldfire.Dispatch
import Rtx.Coldfire.ConsoleMask
import Rtx.Coldfire.ErrorAtomic
import Rtx.Coldfire.Exhaustion
import Rtx.Coldfire.InputBuffer
import Rtx.Coldfire.Bodies
import Rtx.Coldfire.InputLines
import Rtx.Coldfire.ChangePriority
import Rtx.Coldfire.TraceHistory
import Rtx.Coldfire.TraceHead
import Rtx.Coldfire.Tokens
import Rtx.Coldfire.Strtok
import Rtx.Coldfire.StringBounds
import Rtx.Coldfire.Sprintf
import Rtx.Coldfire.Dbug
import Rtx.Coldfire.Atoi
import Rtx.Coldfire.Wallclock
import Rtx.Coldfire.Cci
import Rtx.Coldfire.CciOrder
import Rtx.Unix.ProcQueue
import Rtx.Unix.TimeoutQueue
import Rtx.ProcPqRuns
import Rtx.TimeoutOrder
import Rtx.Unix.TimeoutRuns
import Rtx.Unix.Signals
import Rtx.Unix.AtomicRuns
import Rtx.Unix.Crt
import Rtx.Unix.CrtRuns
import Rtx.Unix.Keyboard
import Rtx.Unix.KeyboardBounds
import Rtx.MsgEnvQueues
import Rtx.Unix.Abc
import Rtx.Unix.AbcOwnership
import Rtx.Unix.AbcTurns
import Rtx.Unix.TraceDisplay
import Rtx.Unix.Wallclock
import Rtx.Unix.Scheduler
import Rtx.Unix.SchedLinks
import Rtx.Unix.SchedRefine
import Rtx.Unix.Interrupts
import Rtx.Unix.Ipc
import Rtx.Unix.Primitives
import Rtx.Unix.System
import Rtx.Unix.Mail
import Rtx.Unix.MailKeeps
import Rtx.Unix.SchedFrame
import Rtx.Unix.Acts
import Rtx.Unix.Turns
import Rtx.Unix.Steps
import Rtx.Unix.Boot
import Rtx.Unix.Conservation
import Rtx.Unix.Delivery
import Rtx.Unix.Services
import Rtx.Unix.SchedBoot
import Rtx.Unix.SchedSteps
import Rtx.Unix.SchedRuns
import Rtx.Unix.Dispatch
import Rtx.Unix.WakeUps
import Rtx.Unix.Faults
import Rtx.Unix.Progress
import Rtx.Unix.Delays
