import OcppClient.Lib.History
import OcppClient.Lib.Transition
import OcppClient.Lib.Correlation
import OcppClient.Lib.Mutex
import OcppClient.Lib.Custody
import OcppClient.Lib.WebSocket
import OcppClient.Lib.Delimited
import OcppClient.Lib.Async
import OcppClient.Lib.AsyncRuns
import OcppClient.Lib.AsyncProgress
import OcppClient.Lib.Switchboard
import OcppClient.Lib.Duplex
import OcppClient.Lib.Ranking
import OcppClient.Lib.Base64
import OcppClient.Lib.Header
import OcppClient.Lib.Polling
import OcppClient.Policy
import OcppClient.Frame
import OcppClient.Errors
import OcppClient.Texts
import OcppClient.Validation
import OcppClient.Sync
import OcppClient.State
import OcppClient.ReadLoop
import OcppClient.Requests
import OcppClient.Keepalive
import OcppClient.Handlers
import OcppClient.Client
import OcppClient.Runtime
import OcppClient.Pair
import OcppClient.Link
import OcppClient.WebSocketTransport
import OcppClient.Connect
import OcppClient.Handshake
import OcppClient.Channel
import OcppClient.Broadcasts
import OcppClient.EmbassyTransport
import OcppClient.EmbassyClient
import OcppClient.EmbassyConnect
import OcppClient.EmbassyRuntime
import OcppClient.Locks
import OcppClient.Proofs.Events
import OcppClient.Proofs.ReadSteps
import OcppClient.Proofs.Footprint
import OcppClient.Proofs.Muted
import OcppClient.Proofs.InertReconnect
import OcppClient.Proofs.Calls
import OcppClient.Proofs.CallCorrelation
import OcppClient.Proofs.HandlerQueues
import OcppClient.Proofs.Desks
import OcppClient.Proofs.Registrations
import OcppClient.Proofs.Staffing
import OcppClient.Proofs.Passage
import OcppClient.Proofs.Shutdown
import OcppClient.Proofs.ForcedExit
import OcppClient.Proofs.PingSteps
import OcppClient.Proofs.SinkMutex
import OcppClient.Proofs.Releases
import OcppClient.Proofs.WaitForReplies
import OcppClient.Proofs.Suspension
import OcppClient.Proofs.Cancel
import OcppClient.Proofs.KeepaliveMisses
import OcppClient.Proofs.WholeFrames
import OcppClient.Proofs.StreamCuts
import OcppClient.Proofs.CancelSafety
import OcppClient.Proofs.Dialling
import OcppClient.Proofs.Redial
import OcppClient.Proofs.Wakeups
import OcppClient.Proofs.Finality
import OcppClient.Proofs.Intervals
import OcppClient.Proofs.PingLog
import OcppClient.Proofs.PingCorrelation
import OcppClient.Proofs.PingRedial
import OcppClient.Proofs.Writes
import OcppClient.Proofs.ClosedSink
import OcppClient.Proofs.Service
import OcppClient.Proofs.Frames
import OcppClient.Proofs.Dispatch
import OcppClient.Proofs.Asks
import OcppClient.Proofs.Replies
import OcppClient.Proofs.ReplySafety
import OcppClient.Proofs.Agreement
import OcppClient.Proofs.LockView
import OcppClient.Proofs.LockSteps
import OcppClient.Proofs.LockHandlers
import OcppClient.Proofs.LockRuns
import OcppClient.Proofs.LockDiscipline
import OcppClient.Proofs.Backoff
import OcppClient.Proofs.PingInterval
import OcppClient.Proofs.Escalation
import OcppClient.Proofs.Channels
import OcppClient.Proofs.Broadcasts
import OcppClient.Proofs.Resyncs
import OcppClient.Proofs.ValidationPaths
import OcppClient.Proofs.Dispatching
import OcppClient.Proofs.Answering
import OcppClient.Proofs.PairRuns
import OcppClient.Proofs.Notices
import OcppClient.Proofs.CallOrder
import OcppClient.Proofs.Pongs
import OcppClient.Proofs.PingAgreement
import OcppClient.Proofs.Endings
import OcppClient.Proofs.WindDown
import OcppClient.Proofs.Wakers
import OcppClient.Proofs.Receptions
import OcppClient.Proofs.SocketRuns
import OcppClient.Proofs.EmbassyRuns
import OcppClient.Proofs.Connecting
import OcppClient.Proofs.Sessions
