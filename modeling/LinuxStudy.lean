import LinuxStudy.Transition.Runs
import LinuxStudy.Histories.Stack
import LinuxStudy.Posix.DescriptorTable
import LinuxStudy.ConditionVariable.BoundedBuffer
import LinuxStudy.ConditionVariable.Shutdown
import LinuxStudy.EpollTest.Draining
import LinuxStudy.EpollTest.EchoIntegrity
import LinuxStudy.MultiConnThreadsServer.Steps
import LinuxStudy.MultiConnThreadsServer.Handlers
import LinuxStudy.MultiConnProcessServer.Model
import LinuxStudy.MultiConnProcessServer.Steps
import LinuxStudy.MultiConnProcessServer.Ownership
import LinuxStudy.MultiConnProcessServer.Zombies
import LinuxStudy.TcpEcho.Model
import LinuxStudy.TcpEcho.EndToEnd
import LinuxStudy.EpollTest.View
import LinuxStudy.Transition.Projection
import LinuxStudy.EpollTest.Refinement
import LinuxStudy.EpollTest.Isolation
import LinuxStudy.MultiConnThreadsServer.Isolation
import LinuxStudy.FaultIsolation
import LinuxStudy.ConditionVariable.WakeUps
import LinuxStudy.LockedCounter.Model
import LinuxStudy.LockedCounter.Counting
import LinuxStudy.LockedCounter.Completion
import LinuxStudy.LockedCounter.Observations
import LinuxStudy.Sync.Semaphore
import LinuxStudy.UnnamedSemaphore.HandOff
import LinuxStudy.CreateThread.HandOver
import LinuxStudy.EpollTest.NonInterference
import LinuxStudy.MessageQueue.Model
import LinuxStudy.MessageQueue.Steps
import LinuxStudy.MessageQueue.Delivery
import LinuxStudy.MessageQueue.StreamIntegrity
import LinuxStudy.DaemonServer.Model
import LinuxStudy.DaemonServer.Steps
import LinuxStudy.DaemonServer.StopRequest
import LinuxStudy.DaemonServer.PidFile
import LinuxStudy.MultiConnProcessServer.AcceptRetry
import LinuxStudy.UdpConn.OneReplyEach
import LinuxStudy.Posix.Lines
import LinuxStudy.UdpConn.Client
import LinuxStudy.UdpConn.Conversation
import LinuxStudy.UdpConn.Server
import LinuxStudy.DaemonServer.WriteLog
import LinuxStudy.DaemonServer.LogLines
import LinuxStudy.Transition.Relaunch
import LinuxStudy.Sync.NamedSemaphore
import LinuxStudy.NamedSemBinProcess.Model
import LinuxStudy.NamedSemBinProcess.Launches
import LinuxStudy.NamedSemProducerConsumer.Model
import LinuxStudy.NamedSemProducerConsumer.HandOff
import LinuxStudy.NamedSemProducerConsumer.SeparateMemory
import LinuxStudy.NamedSemProducerConsumer.Launches
import LinuxStudy.NamedSemaphores
import LinuxStudy.TcpEcho.Server
import LinuxStudy.TcpEcho.ServerSteps
import LinuxStudy.TcpEcho.ServerBooks
import LinuxStudy.TcpEcho.ClientsLeft
import LinuxStudy.TcpEcho.OneAtATime
import LinuxStudy.DaemonClient.Model
import LinuxStudy.DaemonClient.Typing
import LinuxStudy.DaemonClient.WithEpollTest
import LinuxStudy.DaemonClient.EchoedLines
import LinuxStudy.DaemonClient.WithDaemonServer
import LinuxStudy.DaemonClient.OneReply
import LinuxStudy.DaemonClient.EachAnswered
import LinuxStudy.MultiConnThreadsClient.Model
import LinuxStudy.MultiConnThreadsClient.WithServer
import LinuxStudy.MultiConnThreadsClient.Acknowledgements
import LinuxStudy.Posix.Numerals
import LinuxStudy.DaemonServer.CommandLine
import LinuxStudy.Posix.StringReads
import LinuxStudy.StreamHandlers.Model
import LinuxStudy.StreamHandlers.MessageText
import LinuxStudy.DaemonServer.LogRecords
import LinuxStudy.DaemonServer.ReadBack
import LinuxStudy.Posix.Pipe
import LinuxStudy.UnnamedPipe.Model
import LinuxStudy.UnnamedPipe.Delivery
import LinuxStudy.FifoPipe.Model
import LinuxStudy.FifoPipe.Cuts
import LinuxStudy.FifoPipe.PassingOn
import LinuxStudy.SocketIpc.Model
import LinuxStudy.SocketIpc.Serving
import LinuxStudy.TestDaemon.Model
import LinuxStudy.TestDaemon.StopDaemon
import LinuxStudy.Sync.LostUpdates
import LinuxStudy.UnlockedCounter.Model
import LinuxStudy.UnlockedCounter.Steps
import LinuxStudy.UnlockedCounter.FinalValues
import LinuxStudy.Posix.Pieces
import LinuxStudy.SingleConn.Model
import LinuxStudy.SingleConn.Steps
import LinuxStudy.SingleConn.Delivery
import LinuxStudy.TestDaemon.StartModel
import LinuxStudy.TestDaemon.StartDaemon
import LinuxStudy.FatherSonMq.Model
import LinuxStudy.FatherSonMq.Conservation
import LinuxStudy.FatherSonMq.Launches
import LinuxStudy.Posix.Sessions
import LinuxStudy.CreateDaemon.Model
import LinuxStudy.CreateDaemon.Detached
import LinuxStudy.MultiConnProcessServer.Isolation
import LinuxStudy.Transition.Views
import LinuxStudy.Transition.Assured
import LinuxStudy.TerminateTest.Model
import LinuxStudy.TerminateTest.SharedInput
import LinuxStudy.TerminateTest.Leaving
import LinuxStudy.RwlockKinds.Model
import LinuxStudy.RwlockKinds.Completion
import LinuxStudy.RwlockKinds.Overtaking
import LinuxStudy.RwlockKinds.Passing
import LinuxStudy.UnnamedSemProcess.Model
import LinuxStudy.UnnamedSemProcess.Steps
import LinuxStudy.UnnamedSemProcess.Launches
import LinuxStudy.TcpEcho.ManyClients
import LinuxStudy.TcpEcho.ClientsInTurn
import LinuxStudy.TcpEcho.AllEchoed
import LinuxStudy.SocketIpc.WithClient
import LinuxStudy.SocketIpc.Exchange
import LinuxStudy.SocketIpc.Conversation
import LinuxStudy.EpollTest.Attended
import LinuxStudy.DaemonClient.LinesComeBack
