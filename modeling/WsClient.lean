import WsClient.AfterClose
import WsClient.AtomicSend
import WsClient.BufferGrowth
import WsClient.BufferQueue
import WsClient.Chat
import WsClient.ClientIds
import WsClient.Closing
import WsClient.Connection
import WsClient.Conversation
import WsClient.Deadlines
import WsClient.DispatchBounds
import WsClient.EndToEnd
import WsClient.Establishment
import WsClient.FastXOR
import WsClient.FirstFrame
import WsClient.Frame
import WsClient.FullBuffer
import WsClient.Handshake
import WsClient.HandshakeAgreement
import WsClient.HandshakeGrammar
import WsClient.InputLine
import WsClient.Keepalive
import WsClient.Library.BigEndian
import WsClient.Library.Block
import WsClient.Library.CString
import WsClient.Library.Framing
import WsClient.Library.Lines
import WsClient.Library.Link
import WsClient.Library.Refinement
import WsClient.Library.Ring
import WsClient.Library.Room
import WsClient.Library.Scan
import WsClient.Library.Transition
import WsClient.Library.Word
import WsClient.Lifecycle
import WsClient.Messages
import WsClient.Observation
import WsClient.PollLoops
import WsClient.Reassembly
import WsClient.Receive
import WsClient.ReferenceParse
import WsClient.RingCalls
import WsClient.RingRuns
import WsClient.SPSC
import WsClient.SenderRuns
import WsClient.Session
import WsClient.SharedDelivery
import WsClient.SharedTransport
import WsClient.ShrinkBuffer
import WsClient.SimpleBuffer
import WsClient.SimpleServer
import WsClient.SocketLifetime
import WsClient.SocketSharedMemory
import WsClient.StateMachine
import WsClient.TestClient
import WsClient.TestSharedMemory
import WsClient.Transmit
import WsClient.UrlParsing
import WsClient.WebSocketImpl
import WsClient.WireFormat
import WsClient.Wsocket
