import DpdkNet.Lib.ArrayVec
import DpdkNet.Lib.Channel
import DpdkNet.Lib.Delivery
import DpdkNet.Lib.Fields
import DpdkNet.Lib.Grouped
import DpdkNet.Lib.Protocol
import DpdkNet.Lib.Refine
import DpdkNet.Lib.Runs
import DpdkNet.Lib.RustStr
import DpdkNet.Lib.Tally
import DpdkNet.Lib.Text
import DpdkNet.Lib.Window
import DpdkNet.Lib.Wire
import DpdkNet.Lib.WriteLog
import DpdkNet.Device.Mbuf
import DpdkNet.Device.ArpCache
import DpdkNet.Device.DpdkDevice
import DpdkNet.Device.ArpInjection
import DpdkNet.Device.Machine
import DpdkNet.Device.RxOrder
import DpdkNet.Device.ArpConvergence
import DpdkNet.Device.ArpFrames
import DpdkNet.Device.ArpLearning
import DpdkNet.Device.ArpVersion
import DpdkNet.Device.Eal
import DpdkNet.Device.EthDev
import DpdkNet.Device.EthDevBuilder
import DpdkNet.Device.MbufOwnership
import DpdkNet.Device.MbufWindow
import DpdkNet.Device.MultiQueue
import DpdkNet.Device.TxPath
import DpdkNet.Socket.SocketSet
import DpdkNet.Socket.Tcp
import DpdkNet.Socket.Backlog
import DpdkNet.Socket.Futures
import DpdkNet.Socket.Ownership
import DpdkNet.Socket.Handshake
import DpdkNet.Socket.SendFuture
import DpdkNet.Socket.StreamLink
import DpdkNet.Socket.Teardown
import DpdkNet.Socket.UdpSend
import DpdkNet.Socket.UdpRecv
import DpdkNet.Socket.Wakeups
import DpdkNet.Http.Message
import DpdkNet.Http.Parser
import DpdkNet.Http.WholeStream
import DpdkNet.Http.ReadBoundaries
import DpdkNet.Http.Chunks
import DpdkNet.Http.ChunkedGrammar
import DpdkNet.Http.ChunkedCoding
import DpdkNet.Http.Connection
import DpdkNet.Http.Lockstep
import DpdkNet.Http.Echo
import DpdkNet.Http.Panics
import DpdkNet.Http.Framing
import DpdkNet.Http.HeaderFields
import DpdkNet.Udp.Packet
import DpdkNet.Udp.UdpSocket
import DpdkNet.Udp.Flush
import DpdkNet.Udp.SendSafety
import DpdkNet.Udp.Traffic
import DpdkNet.Runtime.Reactor
import DpdkNet.Server.AsyncEcho
import DpdkNet.Server.EchoClient
import DpdkNet.Server.EchoServer
import DpdkNet.Server.Lifecycle
import DpdkNet.Server.NetworkText
import DpdkNet.Server.Runner
import DpdkNet.Bench.RawClient
import DpdkNet.Bench.Stats
import DpdkNet.Bench.Connection
