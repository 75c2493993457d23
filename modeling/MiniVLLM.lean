import MiniVLLM.Library.Dict
import MiniVLLM.Library.ErrorState
import MiniVLLM.Library.Floats
import MiniVLLM.Library.OnlineSoftmax
import MiniVLLM.Library.Launch
import MiniVLLM.Library.Run
import MiniVLLM.Library.CInt
import MiniVLLM.Library.Strided
import MiniVLLM.Library.Tiling
import MiniVLLM.Library.Reduction
import MiniVLLM.Library.Pieces
import MiniVLLM.Library.Once
import MiniVLLM.Library.Utf8
import MiniVLLM.Library.Paging
import MiniVLLM.Library.Ragged
import MiniVLLM.Library.Balance
import MiniVLLM.Model.Protocol
import MiniVLLM.Model.Cache
import MiniVLLM.Model.PagedKV
import MiniVLLM.Model.BlockPool
import MiniVLLM.Model.Scheduler
import MiniVLLM.Model.Core
import MiniVLLM.Model.Batch
import MiniVLLM.Model.Worker
import MiniVLLM.Model.Client
import MiniVLLM.Model.Coordinator
import MiniVLLM.Model.System
import MiniVLLM.Model.NativeInts
import MiniVLLM.Model.NativeOps
import MiniVLLM.Model.PagedAttention
import MiniVLLM.Model.ReferenceRuntime
import MiniVLLM.Model.Rotary
import MiniVLLM.Model.Gemm
import MiniVLLM.Model.FlashAttention
import MiniVLLM.Model.CudaGraph
import MiniVLLM.Model.Llama
import MiniVLLM.Model.AttentionBackends
import MiniVLLM.Model.ModelRunner
import MiniVLLM.Model.LlamaTensors
import MiniVLLM.Verification.Cache.Ownership
import MiniVLLM.Verification.Cache.Calls
import MiniVLLM.Verification.Cache.Reserving
import MiniVLLM.Verification.Cache.BlockPool
import MiniVLLM.Verification.Scheduler.Invariant
import MiniVLLM.Verification.Scheduler.Admission
import MiniVLLM.Verification.Scheduler.Scheduling
import MiniVLLM.Verification.Scheduler.Items
import MiniVLLM.Verification.Scheduler.Turns
import MiniVLLM.Verification.Engine.Results
import MiniVLLM.Verification.Engine.Steps
import MiniVLLM.Verification.Engine.Requests
import MiniVLLM.Verification.Engine.Conservation
import MiniVLLM.Verification.Engine.Streams
import MiniVLLM.Verification.Worker.Batch
import MiniVLLM.Verification.Engine.Positions
import MiniVLLM.Verification.Engine.Progress
import MiniVLLM.Verification.Engine.Admissions
import MiniVLLM.Verification.Engine.Seats
import MiniVLLM.Verification.Engine.Overtaking
import MiniVLLM.Verification.Engine.Stops
import MiniVLLM.Verification.Engine.Exits
import MiniVLLM.Verification.Engine.Text
import MiniVLLM.Verification.Engine.Contributions
import MiniVLLM.Verification.Engine.Reports
import MiniVLLM.Verification.Worker.Metadata
import MiniVLLM.Verification.Worker.Graph
import MiniVLLM.Verification.Worker.Decode
import MiniVLLM.Verification.Worker.Contents
import MiniVLLM.Verification.Worker.Store
import MiniVLLM.Verification.Worker.Transparency
import MiniVLLM.Verification.Worker.Serving
import MiniVLLM.Verification.Worker.Greedy
import MiniVLLM.Verification.Worker.Sampling
import MiniVLLM.Verification.Worker.Canned
import MiniVLLM.Verification.Worker.Acceptance
import MiniVLLM.Verification.Worker.Capture
import MiniVLLM.Verification.Worker.Flattening
import MiniVLLM.Verification.Worker.Static
import MiniVLLM.Verification.Worker.AttentionRows
import MiniVLLM.Verification.Worker.Causal
import MiniVLLM.Verification.Worker.Forward
import MiniVLLM.Verification.Worker.Rotary
import MiniVLLM.Verification.Native.Kernels
import MiniVLLM.Verification.Native.Sizes
import MiniVLLM.Verification.Native.Device
import MiniVLLM.Verification.Native.DecodeGraph
import MiniVLLM.Verification.Native.Bootstrap
import MiniVLLM.Verification.Native.TokenRows
import MiniVLLM.Verification.Native.ReferenceWorker
import MiniVLLM.Verification.Native.CudaWorker
import MiniVLLM.Verification.Native.Overflow
import MiniVLLM.Verification.Kernels.Gemm
import MiniVLLM.Verification.Kernels.PagedCache
import MiniVLLM.Verification.Kernels.PagedDecode
import MiniVLLM.Verification.Kernels.FlashTiles
import MiniVLLM.Verification.Kernels.Flash
import MiniVLLM.Verification.Kernels.BlockRow
import MiniVLLM.Verification.Kernels.AttentionProblem
import MiniVLLM.Verification.Kernels.CudaRows
import MiniVLLM.Verification.Kernels.Bounds
import MiniVLLM.Verification.Kernels.TorchRows
import MiniVLLM.Verification.Kernels.Backends
import MiniVLLM.Verification.Kernels.ExactLayers
import MiniVLLM.Verification.Kernels.LlamaWorker
import MiniVLLM.Verification.Client.Submissions
import MiniVLLM.Verification.Client.Calls
import MiniVLLM.Verification.System.Steps
import MiniVLLM.Verification.System.Loads
import MiniVLLM.Verification.System.Balance
import MiniVLLM.Verification.System.Aborts
import MiniVLLM.Verification.System.Deliveries
import MiniVLLM.Verification.System.Order
import MiniVLLM.Verification.System.Metrics
