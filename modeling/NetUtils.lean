import NetUtils.Transition
import NetUtils.Inevitable
import NetUtils.Simulation
import NetUtils.Pool
import NetUtils.Pipes
import NetUtils.SocketPair
import NetUtils.ConnectionIsolation
import NetUtils.BroSockets
import NetUtils.BroService
import NetUtils.EngineRestart
import NetUtils.EngineInit
import NetUtils.EnginePort
import NetUtils.EngineListening
import NetUtils.AcceptLoop
import NetUtils.Bookkeeping
import NetUtils.Ipv6Service
import NetUtils.WorkerPublish
import NetUtils.WorkerClose
import NetUtils.WorkerShutdown
import NetUtils.WorkerWakeup
import NetUtils.WorkerSends
import NetUtils.WorkerLocks
import NetUtils.WorkerPause
import NetUtils.WriterShutdown
import NetUtils.HexDump
import NetUtils.HexTrace
import NetUtils.DumpHex
import NetUtils.IPV4Echo
import NetUtils.IPV6Echo
import NetUtils.EchoAgreement
import NetUtils.HandleQueue
import NetUtils.HandleEnd
import NetUtils.HandleClose
import NetUtils.HandleWaits
import NetUtils.EchoCompletes
import NetUtils.HandleFinish
import NetUtils.EchoServer
import NetUtils.RunThreads
import NetUtils.EchoSockets
import NetUtils.EchoService
import NetUtils.LeftSockets
import NetUtils.UnattendedEngine
import NetUtils.SendRepeats
import NetUtils.WorkerSendBytes
import NetUtils.WorkerCompletes
import NetUtils.WorkerDelivers
import NetUtils.EngineLifetime
import NetUtils.TcpServerReports
