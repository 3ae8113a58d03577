import Libesf.Base.Transition
import Libesf.Base.SetIteration
import Libesf.Base.OnePlaceBuffer
import Libesf.Base.Pool
import Libesf.Base.CString
import Libesf.Base.Decimal
import Libesf.Base.Bytes
import Libesf.Base.Framing
import Libesf.Base.LockFile
import Libesf.Json.Template
import Libesf.Json.Tree
import Libesf.Json.Object
import Libesf.Ipc.Exception
import Libesf.Ipc.Endpoint
import Libesf.Ipc.Conservation
import Libesf.Ipc.HandOff
import Libesf.Ipc.Accounting
import Libesf.Ipc.SendFailure
import Libesf.Ipc.Action
import Libesf.Ipc.ActiveHandlers
import Libesf.Ipc.ActionProtocol
import Libesf.Ipc.Placement
import Libesf.Ipc.Correlation
import Libesf.Ipc.Operating
import Libesf.Ipc.ActionThreads
import Libesf.Ipc.Progress
import Libesf.Ipc.Session
import Libesf.Ipc.Answering
import Libesf.Ipc.MessageFactory
import Libesf.Ipc.Dispatch
import Libesf.Ipc.StartUp
import Libesf.Ipc.TypedChannel
import Libesf.Ipc.ActionMessages
import Libesf.Ipc.Registration
import Libesf.Ipc.EndpointLifetimes
import Libesf.Daemon.Daemonize
import Libesf.Daemon.Process
import Libesf.Daemon.SingleInstance
import Libesf.Daemon.SignalHandling
import Libesf.Log.Wire
import Libesf.Log.Client
import Libesf.Log.Delivery
import Libesf.Log.Reconnect
import Libesf.Log.Streams
import Libesf.Log.Scheduled
import Libesf.Log.Server
import Libesf.Log.SessionView
import Libesf.Log.HeaderRange
import Libesf.Log.Pipeline
import Libesf.Log.Notified
import Libesf.Log.Serving
import Libesf.Log.Isolation
import Libesf.Log.Logger
import Libesf.Log.FallbackFile
import Libesf.Log.Shutdown
import Libesf.Log.TimePoint
import Libesf.Log.Message
import Libesf.Log.Subscribers
import Libesf.Log.Formatter
import Libesf.Log.StackTrace
