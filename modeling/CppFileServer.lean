import CppFileServer.Theory.Search
import CppFileServer.Theory.Loop
import CppFileServer.Theory.TwoRuns
import CppFileServer.Theory.Decoder
import CppFileServer.Theory.Run
import CppFileServer.Theory.Refinement
import CppFileServer.Theory.Machine
import CppFileServer.Theory.Parts
import CppFileServer.Theory.Serial
import CppFileServer.Theory.Settling
import CppFileServer.Theory.SortedSet
import CppFileServer.Theory.Pieces
import CppFileServer.Theory.Splice
import CppFileServer.Theory.WholePieces
import CppFileServer.Theory.Framing
import CppFileServer.Theory.Memo
import CppFileServer.Theory.Walk
import CppFileServer.Cpp.Basic
import CppFileServer.Cpp.Stoul
import CppFileServer.Cpp.Decimal
import CppFileServer.Http.HttpRequest
import CppFileServer.Http.HttpContext
import CppFileServer.Http.HeaderLines
import CppFileServer.Http.RequestDecoder
import CppFileServer.Http.Segmentation
import CppFileServer.Http.Encoding
import CppFileServer.Utils.Buffer
import CppFileServer.Utils.BufferQueue
import CppFileServer.Utils.FileHandler
import CppFileServer.Utils.AsyncLogger
import CppFileServer.Utils.LogDelivery
import CppFileServer.Utils.LogOrder
import CppFileServer.Utils.LogStream
import CppFileServer.Utils.LogWrites
import CppFileServer.Utils.LogFlush
import CppFileServer.Utils.LogNumerals
import CppFileServer.Utils.LogRecord
import CppFileServer.Theory.WriteOnce
import CppFileServer.Utils.Disk
import CppFileServer.Utils.Directories
import CppFileServer.Utils.FileTransfer
import CppFileServer.Http.FileStore
import CppFileServer.Http.Deletion
import CppFileServer.Http.Listing
import CppFileServer.Utils.TimerQueue
import CppFileServer.Utils.TimerConservation
import CppFileServer.Utils.TimerArming
import CppFileServer.Tcp.Channel
import CppFileServer.Tcp.Epoller
import CppFileServer.Tcp.TcpConnection
import CppFileServer.Tcp.SendPath
import CppFileServer.Tcp.WriteInterest
import CppFileServer.Tcp.MessageSizes
import CppFileServer.Tcp.EventLoop
import CppFileServer.Http.HttpResponse
import CppFileServer.Http.HttpServer
import CppFileServer.Http.FileServer
import CppFileServer.Http.FileReplies
import CppFileServer.Http.Delimiting
import CppFileServer.Http.RangeDownload
import CppFileServer.Http.Serialization
import CppFileServer.Http.IdleTimer
import CppFileServer.Tcp.TcpServer
import CppFileServer.Tcp.TimerThreads
import CppFileServer.Tcp.Callbacks
import CppFileServer.Tcp.Ownership
import CppFileServer.Tcp.Lifecycle
import CppFileServer.Http.KeepAlive
import CppFileServer.Http.Teardown
import CppFileServer.Http.EndOfStream
import CppFileServer.Http.ChunkForm
import CppFileServer.Http.ContentLength
import CppFileServer.Http.ChunkedSoundness
import CppFileServer.Http.ChunkLoop
import CppFileServer.Http.ChunkSizes
import CppFileServer.Http.ParserFaults
import CppFileServer.Http.HeaderFields
import CppFileServer.Http.RequestLine
import CppFileServer.Http.PhaseInvariant
import CppFileServer.Http.LetterCase
import CppFileServer.Tcp.Asserts
import CppFileServer.Tcp.Sessions
import CppFileServer.Tcp.Rest
import CppFileServer.Tcp.Draining
import CppFileServer.Tcp.EventLoopThreadPool
import CppFileServer.Tcp.Dispatch
import CppFileServer.Tcp.EchoServer
import CppFileServer.Utils.TimerSpacing
import CppFileServer.Http.IdleServer
import CppFileServer.Http.Replies
import CppFileServer.Http.Exchange
import CppFileServer.Http.Served
import CppFileServer.Http.Unsent
import CppFileServer.Http.SharedServer
import CppFileServer.Http.SharedStore
import CppFileServer.Utils.OpenFiles
import CppFileServer.Http.ConcurrentFiles
import CppFileServer.Http.ConcurrentDownloads
import CppFileServer.Http.FileCallsAlone
import CppFileServer.Utils.LogHeader
