import OpenWorkers.Lib.Machine
import OpenWorkers.Lib.Erase
import OpenWorkers.Pool.Local
import OpenWorkers.Pool.Capacity
import OpenWorkers.Pool.Execute
import OpenWorkers.Pool.Slots
import OpenWorkers.Object.Queue
import OpenWorkers.Scheduler.Loop
import OpenWorkers.Object.Order
import OpenWorkers.Object.Context
import OpenWorkers.Object.OutputGate
import OpenWorkers.Lib.Sorted
import OpenWorkers.Object.Instances
import OpenWorkers.Object.Serve
import OpenWorkers.Object.InputGate
import OpenWorkers.Object.Events
import OpenWorkers.Streams.Manager
import OpenWorkers.Streams.Tasks
import OpenWorkers.Streams.Isolation
import OpenWorkers.Streams.Body
import OpenWorkers.Streams.Truncation
import OpenWorkers.Lib.Log
import OpenWorkers.Pool.Cache
import OpenWorkers.Pool.Contexts
import OpenWorkers.Pool.Reuse
import OpenWorkers.Security.Terminations
import OpenWorkers.Security.MemoryLimit
import OpenWorkers.Security.Watchdog
import OpenWorkers.Scheduler.Timers
import OpenWorkers.Scheduler.Firing
import OpenWorkers.Sockets.Socket
import OpenWorkers.Sockets.System
import OpenWorkers.Sockets.HandOver
import OpenWorkers.Sockets.Closing
import OpenWorkers.Sockets.Frames
import OpenWorkers.Sockets.Delivery
import OpenWorkers.Operations.Dispatch
import OpenWorkers.Operations.System
import OpenWorkers.Operations.Answers
import OpenWorkers.Lib.BoundedChannel
import OpenWorkers.Streams.Pump
import OpenWorkers.Streams.Room
import OpenWorkers.Streams.Lossless
import OpenWorkers.Streams.Calls
import OpenWorkers.Lib.InsertionMap
import OpenWorkers.Lib.Utf16
import OpenWorkers.Object.Storage
import OpenWorkers.Object.Transaction
import OpenWorkers.Object.Wakeups
import OpenWorkers.Foreground.EventLoop
import OpenWorkers.Foreground.Polls
import OpenWorkers.Lib.Tally
import OpenWorkers.Security.Accounting
import OpenWorkers.Security.Budget
import OpenWorkers.Foreground.Attribution
import OpenWorkers.Pool.AsyncWaiter
import OpenWorkers.Pool.Lookup
import OpenWorkers.Pool.Fifo
import OpenWorkers.Pool.Eviction
import OpenWorkers.Foreground.Waiters
import OpenWorkers.Security.Watch
import OpenWorkers.Lib.Ledger
import OpenWorkers.Object.Backlog
import OpenWorkers.Object.SocketTable
import OpenWorkers.Scheduler.Bookkeeping
import OpenWorkers.Object.FailClosed
import OpenWorkers.Operations.Settle
import OpenWorkers.Gc.ExternalMemory
import OpenWorkers.Security.HeapLimit
import OpenWorkers.Security.ArrayBuffers
import OpenWorkers.Lib.Utf8
import OpenWorkers.Snapshot.CodeCache
import OpenWorkers.Pool.Rollout
import OpenWorkers.Lib.Multipart
import OpenWorkers.Lib.Text
import OpenWorkers.Fetch.FormData
import OpenWorkers.Object.StorageCalls
import OpenWorkers.Foreground.Registry
