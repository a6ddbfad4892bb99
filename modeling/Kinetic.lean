import Kinetic.Yacht.Refinement
import Kinetic.Sink.Framing
import Kinetic.Threadpool.LostWakeups
import Kinetic.Send.Framing
import Kinetic.Bus.Callbacks
import Kinetic.Bus.Replies
import Kinetic.Lib.History
import Kinetic.Listener.Reading
import Kinetic.Listener.Cells
import Kinetic.Bus.Stages
import Kinetic.Bus.Responses
import Kinetic.Bus.Errors
import Kinetic.Bus.Statuses
import Kinetic.Bus.Delivery
import Kinetic.Bus.Answers
import Kinetic.Bus.Queues
import Kinetic.Bus.Authors
import Kinetic.Bus.Identities
import Kinetic.Bus.Assertions
import Kinetic.Session.Unpack
import Kinetic.Session.Model
import Kinetic.Bus.Sockets
import Kinetic.Session.Lock
import Kinetic.Session.Sequence
import Kinetic.Bus.Completions
import Kinetic.Lib.Units
import Kinetic.Session.Outstanding
import Kinetic.Lib.Chain
import Kinetic.Listener.SlotPool
import Kinetic.Lib.Custody
import Kinetic.Listener.SlotOwners
import Kinetic.Listener.FreelistRace
import Kinetic.Lib.Crowd
import Kinetic.Listener.SlotCounter
import Kinetic.Bus.Connections
import Kinetic.Bus.Registration
import Kinetic.Bus.FailedRegistration
import Kinetic.Bus.Registered
import Kinetic.Bus.Engaged
import Kinetic.Bus.FdSet
import Kinetic.Session.Connect
import Kinetic.Session.ConnectSteps
import Kinetic.Session.ConnectCalls
import Kinetic.Session.ConnectInvariant
import Kinetic.Session.FailedConnect
import Kinetic.Session.Reuse
import Kinetic.Session.HashedSessions
import Kinetic.Threadpool.WorkerTable
import Kinetic.Session.PackMessage
import Kinetic.Session.Outcomes
import Kinetic.Threadpool.Shutdown
import Kinetic.Lib.Ledger
import Kinetic.Threadpool.Accounts
import Kinetic.Threadpool.Drain
import Kinetic.Threadpool.Accounting
import Kinetic.Threadpool.LostTasks
import Kinetic.Lib.FreeCells
import Kinetic.Listener.RxShape
import Kinetic.Listener.RxInvariant
import Kinetic.Listener.Timeouts
import Kinetic.Bus.HoldTimeouts
import Kinetic.Listener.SocketInvariant
import Kinetic.Listener.Polling
import Kinetic.Listener.Settled
import Kinetic.Listener.Grounds
import Kinetic.Send.Handoff
import Kinetic.Send.Writes
import Kinetic.Send.Deadline
import Kinetic.Listener.Buffers
import Kinetic.Yacht.Termination
import Kinetic.Yacht.Release
import Kinetic.Session.Wakeups
import Kinetic.Threadpool.Pushback
import Kinetic.Client.ByteBuffer
import Kinetic.Client.Response
import Kinetic.Threadpool.Closing
import Kinetic.Client.Controller
import Kinetic.Client.Entries
import Kinetic.Client.KeyRange
import Kinetic.Client.P2P
import Kinetic.Client.P2PResults
import Kinetic.Acl.Model
import Kinetic.Acl.Reading
import Kinetic.Acl.Scopes
import Kinetic.Acl.Faithful
import Kinetic.Acl.Permissions
import Kinetic.Acl.Loader
import Kinetic.Acl.Files
import Kinetic.Lib.Monitor
import Kinetic.Lib.Progress
import Kinetic.Client.Blocking
import Kinetic.Lib.Blocks
import Kinetic.Session.ResourceWaiter
import Kinetic.Bus.Shutdown
import Kinetic.Client.P2PMemory
import Kinetic.Client.ByteWindow
import Kinetic.Client.LogInfo
import Kinetic.Client.LogInfoMemory
import Kinetic.Listener.Accounts
import Kinetic.Session.Authentication
import Kinetic.Session.SendInLock
import Kinetic.Bus.Freeing
