import CppArchitecture.Core.Machine
import CppArchitecture.Core.Method
import CppArchitecture.Core.Walk
import CppArchitecture.Core.Search
import CppArchitecture.Core.Integers
import CppArchitecture.Core.BinarySearch
import CppArchitecture.Core.LastWriter
import CppArchitecture.Core.Heap
import CppArchitecture.Core.Ownership
import CppArchitecture.Core.Vec
import CppArchitecture.Core.View
import CppArchitecture.Core.Sorting
import CppArchitecture.Core.Mutex
import CppArchitecture.Core.Counting
import CppArchitecture.Core.Lifetime
import CppArchitecture.Core.Floating
import CppArchitecture.Core.Text
import CppArchitecture.Core.Table
import CppArchitecture.Core.Assignments
import CppArchitecture.Core.Numerals
import CppArchitecture.Core.Streams
import CppArchitecture.Core.Truncated
import CppArchitecture.Core.Bytes
import CppArchitecture.Stock.StateMachine
import CppArchitecture.Stock.History
import CppArchitecture.Stock.Overselling
import CppArchitecture.Stock.Overflow
import CppArchitecture.Reviews.Basic
import CppArchitecture.Reviews.History
import CppArchitecture.Reviews.Trace
import CppArchitecture.Reviews.Consistency
import CppArchitecture.Reviews.Rejection
import CppArchitecture.Reviews.Ratings
import CppArchitecture.Reviews.CustomerStore
import CppArchitecture.Reviews.InitialReviews
import CppArchitecture.OwningArray.Basic
import CppArchitecture.OwningArray.Values
import CppArchitecture.OwningArray.Refinement
import CppArchitecture.OwningArray.Exceptions
import CppArchitecture.Gallery.Basic
import CppArchitecture.Gallery.Featured
import CppArchitecture.Gallery.Ordering
import CppArchitecture.Coroutines.Basic
import CppArchitecture.Coroutines.Append
import CppArchitecture.Temperatures.Imperative
import CppArchitecture.Temperatures.Declarative
import CppArchitecture.Documents.Basic
import CppArchitecture.Documents.Dispatch
import CppArchitecture.Documents.Factory
import CppArchitecture.Builder.Basic
import CppArchitecture.Builder.Chains
import CppArchitecture.Builder.FailedFetch
import CppArchitecture.Dots.Counters
import CppArchitecture.Benchmarks.Searches
import CppArchitecture.Arenas.Basic
import CppArchitecture.Arenas.DefaultResource
import CppArchitecture.Reporting.ThriftSender
import CppArchitecture.Reporting.Packets
import CppArchitecture.Reporting.Delivery
import CppArchitecture.Reporting.RemoteReporter
import CppArchitecture.Reporting.Queue
import CppArchitecture.Reporting.Close
import CppArchitecture.Reporting.Metrics
import CppArchitecture.Redis.Basic
import CppArchitecture.Redis.RoundTrip
import CppArchitecture.Redis.Pipeline
import CppArchitecture.Redis.Accepted
import CppArchitecture.Tracing.Basic
import CppArchitecture.Tracing.TraceContext
import CppArchitecture.Tracing.Uri
import CppArchitecture.Tracing.Propagator
import CppArchitecture.Tracing.Propagation
import CppArchitecture.Tracing.TraceParent
import CppArchitecture.Tracing.BinaryPropagator
import CppArchitecture.Tracing.BinaryRoundTrip
import CppArchitecture.Tracing.Span
import CppArchitecture.Tracing.Tracer
import CppArchitecture.Tracing.Carriers
import CppArchitecture.Tracing.System
import CppArchitecture.Tracing.Reported
import CppArchitecture.Tracing.Counted
