import GidsStack.Lib.Transition
import GidsStack.Lib.PinCache.Protocol
import GidsStack.Lib.PinCache.Owned
import GidsStack.Lib.PinCache.Slotted
import GidsStack.Lib.PinCache.Counted
import GidsStack.Lib.PinCache.Joined
import GidsStack.Lib.PinCache.Runs
import GidsStack.Lib.PinCache.Assigned
import GidsStack.Lib.PinCache.Exclusive
import GidsStack.Lib.Ledger
import GidsStack.Lib.RowMajor
import GidsStack.Lib.Kernel
import GidsStack.Lib.Cooperative
import GidsStack.Lib.Laps
import GidsStack.Lib.Lock
import GidsStack.Lib.SlotRing
import GidsStack.Lib.PhaseRing
import GidsStack.Lib.ReplyRing
import GidsStack.Lib.Ring
import GidsStack.Lib.Cuts
import GidsStack.Lib.OrderedDict
import GidsStack.Lib.Prog
import GidsStack.Lib.Buffers
import GidsStack.Lib.Family
import GidsStack.PageCache.StateWord
import GidsStack.PageCache.Layout
import GidsStack.PageCache.Machine
import GidsStack.PageCache.Abstraction
import GidsStack.PageCache.Simulation
import GidsStack.PageCache.Runs
import GidsStack.PageCache.Sync
import GidsStack.PageCache.Frame
import GidsStack.PageCache.Wait
import GidsStack.PageCache.Publication
import GidsStack.PageCache.Leader
import GidsStack.PageCache.WindowPins
import GidsStack.PageCache.RefCounts
import GidsStack.PageCache.Accounting
import GidsStack.PageCache.Tlb
import GidsStack.PageCache.WarpCopy
import GidsStack.PageCache.Flush
import GidsStack.PageCache.WriteBack
import GidsStack.PageCache.Fetch
import GidsStack.PageCache.Reads
import GidsStack.Addressing.Stripe
import GidsStack.Addressing.Ranges
import GidsStack.Addressing.GlobalAddress
import GidsStack.Addressing.PrpTables
import GidsStack.Addressing.Command
import GidsStack.Queue.Submission
import GidsStack.Queue.Steps
import GidsStack.Queue.Counters
import GidsStack.Queue.Slots
import GidsStack.Queue.Safety
import GidsStack.Queue.Wrap
import GidsStack.Queue.Geometry
import GidsStack.Queue.SubmitPhase
import GidsStack.Queue.Completion
import GidsStack.Queue.Replies
import GidsStack.Queue.Dequeue
import GidsStack.Queue.FrontPoll
import GidsStack.Queue.Pair
import GidsStack.Queue.Halves
import GidsStack.Queue.Admin
import GidsStack.Requests.Stack
import GidsStack.Requests.Calls
import GidsStack.Requests.Alignment
import GidsStack.Requests.Lifecycle
import GidsStack.Requests.Layout
import GidsStack.Requests.Service
import GidsStack.Requests.Attribution
import GidsStack.Requests.Delivery
import GidsStack.Requests.Lookups
import GidsStack.Requests.Polls
import GidsStack.Requests.Rowctx
import GidsStack.Requests.RowctxCache
import GidsStack.Requests.RowctxRuns
import GidsStack.Requests.Refinement
import GidsStack.Feature.Launch
import GidsStack.Feature.Contexts
import GidsStack.Feature.Read
import GidsStack.Feature.SplitPhase
import GidsStack.Feature.References
import GidsStack.Feature.ReferenceBalance
import GidsStack.Feature.CpuBuffer
import GidsStack.Dataset.Storage
import GidsStack.Dataset.TokenBatch
import GidsStack.Dataset.RoundTrip
import GidsStack.Dataset.Placement
import GidsStack.Dataset.Chunks
import GidsStack.Loader.Batch
import GidsStack.Loader.Merge
import GidsStack.Loader.Epoch
import GidsStack.Loader.Store
import GidsStack.Loader.CidsIterator
import GidsStack.Loader.GidsIterator
import GidsStack.Loader.GidsSplit
import GidsStack.Loader.GidsSplitRun
import GidsStack.Loader.GidsSingle
import GidsStack.Loader.Sequence
import GidsStack.Loader.Isolation
import GidsStack.Loader.SamplePipeline
import GidsStack.Loader.IndexBuffers
import GidsStack.Loader.IndexReuse
import GidsStack.Driver.NodeList
import GidsStack.Driver.Module
import GidsStack.Driver.Books
import GidsStack.Driver.Registry
import GidsStack.Driver.Calls
import GidsStack.Driver.Runs
