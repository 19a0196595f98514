import TinyWebServer.Library.ParseLoop
import TinyWebServer.Http.Containment
import TinyWebServer.Http.Chunking
import TinyWebServer.Http.Framing
import TinyWebServer.Http.HalfClose
import TinyWebServer.Http.Persistence
import TinyWebServer.Http.WholeResponse
import TinyWebServer.Http2.Reassembly
import TinyWebServer.Http2.LiteralFields
import TinyWebServer.Http2.StreamLife
import TinyWebServer.Http2.ControlFrames
import TinyWebServer.Net.OutgoingStream
import TinyWebServer.Net.Reentry
import TinyWebServer.Net.Dispatch
import TinyWebServer.Net.TimerPace
import TinyWebServer.Net.Registration
import TinyWebServer.Net.TimerFlags
import TinyWebServer.Net.ReadInterest
import TinyWebServer.Net.LoopTasks
import TinyWebServer.Net.ConnectionTable
import TinyWebServer.Net.ReusePort
import TinyWebServer.Net.Lifecycle
import TinyWebServer.Net.ForeignCalls
import TinyWebServer.Net.RequestLedger
import TinyWebServer.Log.Durability
import TinyWebServer.Log.LogMessage
import TinyWebServer.Config.ServerConfig
import TinyWebServer.Http2.StreamClosing
import TinyWebServer.Http2.ConnectionLife
import TinyWebServer.Http2.Transitions
import TinyWebServer.Http2.HpackTable
import TinyWebServer.Http2.HpackCounters
import TinyWebServer.Http2.HpackLimit
import TinyWebServer.Http2.HpackReference
import TinyWebServer.Config.IdleTimeout
import TinyWebServer.Config.Reload
import TinyWebServer.Http.ResourceCache
import TinyWebServer.Http.CacheLimit
import TinyWebServer.Http.CacheRefinement
import TinyWebServer.Memory.MemoryPool
import TinyWebServer.Memory.PoolLedger
import TinyWebServer.Net.ExpiredTimers
import TinyWebServer.Net.TimerHeap
import TinyWebServer.Net.TimerRuns
import TinyWebServer.Net.TimerExpiry
import TinyWebServer.Http.QueryString
import TinyWebServer.Http.BodyLimit
import TinyWebServer.Net.ThreadPool
import TinyWebServer.Net.WheelRuns
import TinyWebServer.Net.WheelBounds
import TinyWebServer.Net.WheelStatistics
import TinyWebServer.Net.WheelSchedule
import TinyWebServer.Net.WheelFirings
import TinyWebServer.Net.WheelCancel
import TinyWebServer.Http.RootCheck
import TinyWebServer.Http.RequestPrinting
import TinyWebServer.Http.FsmParser
import TinyWebServer.Http.Precedence
import TinyWebServer.Http2.FrameSending
import TinyWebServer.Net.EventGrouping
import TinyWebServer.Library.Decimal
import TinyWebServer.Http.EntityTags
import TinyWebServer.Http2.HpackInsertion
import TinyWebServer.Library.Lru
import TinyWebServer.Http.CacheLru
import TinyWebServer.Library.Stock
import TinyWebServer.Memory.PoolGrowth
import TinyWebServer.Library.Calendar
import TinyWebServer.Http.PosixTime
import TinyWebServer.Http.HttpDate
import TinyWebServer.Net.ByteQueue
import TinyWebServer.Http2.IntegerCoding
import TinyWebServer.Library.Utf8
import TinyWebServer.Config.Document
import TinyWebServer.Config.RoundTrip
import TinyWebServer.Config.IntegerFields
import TinyWebServer.Library.Cursor
import TinyWebServer.Http2.HpackCursor
import TinyWebServer.Library.JsonText
import TinyWebServer.Log.StructuredLog
import TinyWebServer.Log.JsonRecord
import TinyWebServer.Log.FaithfulRecord
import TinyWebServer.Library.Exchange
import TinyWebServer.Http2.Conversation
import TinyWebServer.Library.Progress
import TinyWebServer.Net.LoopThreads
import TinyWebServer.Library.Descriptors
import TinyWebServer.Net.ListenSockets
import TinyWebServer.Library.Messages
import TinyWebServer.Net.OutputLedger
import TinyWebServer.Http.ResponseStream
import TinyWebServer.Http.ClientView
import TinyWebServer.Library.Lines
import TinyWebServer.Log.StructuredLogger
import TinyWebServer.Log.LogFiles
import TinyWebServer.Log.FlushWaiting
import TinyWebServer.Log.StopCost
import TinyWebServer.Net.PoolNotification
import TinyWebServer.Http.ParserAgreement
import TinyWebServer.Net.TimerDeadline
