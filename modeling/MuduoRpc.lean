import MuduoRpc.Lib.Transition
import MuduoRpc.Lib.Slice
import MuduoRpc.Lib.Flags
import MuduoRpc.Lib.Framing
import MuduoRpc.Lib.Ledger
import MuduoRpc.Lib.Decimal
import MuduoRpc.Lib.Table
import MuduoRpc.Lib.RollingSum
import MuduoRpc.Lib.History
import MuduoRpc.Lib.HeapIndex
import MuduoRpc.Lib.LazySum
import MuduoRpc.Lib.TotalRun
import MuduoRpc.Lib.Tracing
import MuduoRpc.Lib.SlidingWindow
import MuduoRpc.Lib.Records
import MuduoRpc.Lib.LengthPrefix
import MuduoRpc.Lib.Varint
import MuduoRpc.Lib.Message
import MuduoRpc.Lib.Interleaving
import MuduoRpc.Net.Endian
import MuduoRpc.Net.Buffer
import MuduoRpc.Net.ByteQueue
import MuduoRpc.Net.ByteDeque
import MuduoRpc.Net.ReadFd
import MuduoRpc.Net.BufferWindow
import MuduoRpc.Net.NetworkOrder
import MuduoRpc.Net.InetAddress
import MuduoRpc.Net.SockaddrUnion
import MuduoRpc.Net.Errno
import MuduoRpc.Net.Channel
import MuduoRpc.Net.Poller
import MuduoRpc.Net.Interest
import MuduoRpc.Net.EpollSet
import MuduoRpc.Net.ChannelSet
import MuduoRpc.Net.StaleEvents
import MuduoRpc.Net.Bookkeeping
import MuduoRpc.Net.Removal
import MuduoRpc.Net.Acceptor
import MuduoRpc.Net.AcceptFailures
import MuduoRpc.Rpc.Protobuf
import MuduoRpc.Rpc.WireFormat
import MuduoRpc.Rpc.RpcMessage
import MuduoRpc.Rpc.Codec
import MuduoRpc.Rpc.Runtime
import MuduoRpc.Rpc.PrependReserve
import MuduoRpc.Rpc.Stream
import MuduoRpc.Rpc.ReceiveBuffer
import MuduoRpc.Rpc.RoundTrip
import MuduoRpc.Rpc.WellFormed
import MuduoRpc.Rpc.SubRanges
import MuduoRpc.Rpc.Corruption
import MuduoRpc.Rpc.Lengths
import MuduoRpc.Rpc.Conforming
import MuduoRpc.Rpc.RpcChannel
import MuduoRpc.Rpc.OutstandingCalls
import MuduoRpc.Loop.PendingQueue
import MuduoRpc.Loop.EventLoop
import MuduoRpc.Loop.Steps
import MuduoRpc.Loop.Functors
import MuduoRpc.Loop.Wakeup
import MuduoRpc.Loop.Dispatch
import MuduoRpc.Loop.ThreadConfinement
import MuduoRpc.Loop.EventLoopThread
import MuduoRpc.Loop.Joining
import MuduoRpc.Loop.EventLoopThreadPool
import MuduoRpc.Tcp.Connector
import MuduoRpc.Tcp.ConnectorOwnership
import MuduoRpc.Tcp.ConnectorAssertions
import MuduoRpc.Tcp.TcpServer
import MuduoRpc.Tcp.ConnectionTable
import MuduoRpc.Tcp.TcpConnection
import MuduoRpc.Tcp.Steps
import MuduoRpc.Tcp.OutputStream
import MuduoRpc.Tcp.SentMessages
import MuduoRpc.Tcp.InputStream
import MuduoRpc.Tcp.Shutdown
import MuduoRpc.Tcp.ArmedOutput
import MuduoRpc.Tcp.WriteComplete
import MuduoRpc.Tcp.Lifecycle
import MuduoRpc.Tcp.Deaf
import MuduoRpc.Tcp.ForceClose
import MuduoRpc.Tcp.HalfClosed
import MuduoRpc.Tcp.TcpClient
import MuduoRpc.Tcp.ClientNames
import MuduoRpc.Tcp.ClientSteps
import MuduoRpc.Tcp.ClientTeardown
import MuduoRpc.Tcp.ClientStop
import MuduoRpc.Tcp.ClientAttempts
import MuduoRpc.Tcp.Process
import MuduoRpc.Tcp.Removals
import MuduoRpc.Tcp.DeferredRemoval
import MuduoRpc.System.Serving
import MuduoRpc.System.Pipe
import MuduoRpc.System.CallPath
import MuduoRpc.System.Requests
import MuduoRpc.DataStructure.TiredTree
import MuduoRpc.DataStructure.ArrayRefinement
import MuduoRpc.DataStructure.PlainQuery
import MuduoRpc.DataStructure.TreeBounds
