import Pea2Pea.Lib.Transition
import Pea2Pea.Lib.Pool
import Pea2Pea.Lib.Table
import Pea2Pea.Lib.Mpsc
import Pea2Pea.Addr
import Pea2Pea.Connections
import Pea2Pea.Node
import Pea2Pea.Lifecycle
import Pea2Pea.LifecycleFacts
import Pea2Pea.Ledger
import Pea2Pea.Accounting
import Pea2Pea.Teardown
import Pea2Pea.Writing
import Pea2Pea.Senders
import Pea2Pea.HandlerLoop
import Pea2Pea.HandlerLoopFacts
import Pea2Pea.Lib.Notify
import Pea2Pea.Lib.Tasks
import Pea2Pea.Admission
import Pea2Pea.Drain
import Pea2Pea.Shutdown
import Pea2Pea.ShutdownFacts
import Pea2Pea.ShutdownFinal
import Pea2Pea.Hooks
import Pea2Pea.HooksFacts
import Pea2Pea.Lifetime
import Pea2Pea.Detached
import Pea2Pea.Attached
import Pea2Pea.NodeTasks
import Pea2Pea.Toggle
import Pea2Pea.TaskOwners
import Pea2Pea.Undisturbed
import Pea2Pea.Pairing
import Pea2Pea.Lib.LockOrder
import Pea2Pea.Locks
import Pea2Pea.Lib.Framed
import Pea2Pea.Stats
import Pea2Pea.WriteBatch
import Pea2Pea.WriterTask
import Pea2Pea.Deliveries
import Pea2Pea.ReaderTask
import Pea2Pea.Fifo
import Pea2Pea.Protocols
import Pea2Pea.ProtocolsFacts
import Pea2Pea.Hands
import Pea2Pea.Drivers
import Pea2Pea.ConnTasks
import Pea2Pea.Gating
import Pea2Pea.WindDown
import Pea2Pea.Denials
import Pea2Pea.AbortedHooks
import Pea2Pea.Origins
import Pea2Pea.Budget
import Pea2Pea.Counting
import Pea2Pea.Lib.Logged
import Pea2Pea.Lib.Words
import Pea2Pea.Topology
import Pea2Pea.Lib.Ranges
import Pea2Pea.RandomTargets
import Pea2Pea.TopologyGraphs
import Pea2Pea.Lib.Settles
import Pea2Pea.Quiescence
import Pea2Pea.LoopQuiescence
import Pea2Pea.HookQuiescence
import Pea2Pea.WriterQuiescence
import Pea2Pea.Delivery
import Pea2Pea.Lib.Registry
import Pea2Pea.Slots
import Pea2Pea.FailedDials
import Pea2Pea.Outbound
import Pea2Pea.Routing
import Pea2Pea.Broadcasts
import Pea2Pea.HookWindows
import Pea2Pea.Lib.Semaphore
import Pea2Pea.AcceptLoop
import Pea2Pea.Listening
import Pea2Pea.Lib.Shared
import Pea2Pea.Traffic
