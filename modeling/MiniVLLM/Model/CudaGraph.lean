import MiniVLLM.Model.Batch
import MiniVLLM.Model.NativeInts

/-! # Choosing a CUDA Graph

The dispatcher of a Worker, and the argument checks of the native runtime it may call. `ctypes`
converts what the adapter passes to `int`. -/

namespace MiniVLLM

open NativeInts

structure CUDAGraphDecision where
  requestedMode : CudaGraphMode
  captureSize : Option ℕ
  deriving DecidableEq, Repr

namespace CUDAGraphDecision

def wantsGraph (decision : CUDAGraphDecision) : Bool := decision.captureSize.isSome

end CUDAGraphDecision

structure CUDAGraphDispatcher where
  mode : CudaGraphMode
  captureSizes : List ℕ

namespace CUDAGraphDispatcher

def dispatch (dispatcher : CUDAGraphDispatcher) (descriptor : BatchDescriptor) :
    CUDAGraphDecision :=
  if dispatcher.mode = .none ∨ descriptor.uniformDecode = false then ⟨.none, none⟩
  else
    let requiredSize := max descriptor.numTokens descriptor.numRequests
    match dispatcher.captureSizes.find? (fun size => requiredSize ≤ size) with
    | none => ⟨.none, none⟩
    | some captureSize => ⟨.fullDecodeOnly, some captureSize⟩

/-- The dispatcher a Worker builds: capture sizes beyond `max_num_seqs` are left out. -/
def ofConfig (config : EngineConfig) : CUDAGraphDispatcher where
  mode := config.cudagraphMode
  captureSizes := config.cudagraphCaptureSizes.filter (fun size => size ≤ config.maxNumSeqs)

end CUDAGraphDispatcher

/-- The sizes the native runtime was created with. -/
structure NativeRuntime where
  numBlocks : ℕ
  blockSize : ℕ
  graphCapacityRequests : ℕ
  graphMaxBlocks : ℕ
  physicalCacheSlots : ℕ
  deriving DecidableEq, Repr

namespace NativeRuntime

/-- `mvllm_create`, for a device that has the memory. There is no runtime where it returns
`nullptr`, nor where an `int` overflows. -/
def create (args : CreateArgs) : Option NativeRuntime :=
  if args.Accepted then do
    let graphMaxBlocks ← args.graphMaxBlocks
    let physicalCacheSlots ← args.physicalCacheSlots
    pure
      { numBlocks := args.numBlocks.toNat
        blockSize := args.blockSize.toNat
        graphCapacityRequests := args.maxNumSeqs.toNat
        graphMaxBlocks := graphMaxBlocks.toNat
        physicalCacheSlots := physicalCacheSlots.toNat }
  else none

/-- The status of `mvllm_attention_batch` before it touches the device. -/
def attentionBatchStatus (runtime : NativeRuntime) (maxBlocks numRequests : ℤ) : ℕ :=
  if numRequests ≤ 0 ∨ runtime.numBlocks < numRequests ∨
      runtime.graphCapacityRequests < numRequests ∨ maxBlocks ≤ 0 then 40
  else 0

/-- The status of `mvllm_execute_decode_graph` before it touches the device. -/
def decodeGraphStatus (runtime : NativeRuntime) (inputMaxBlocks numRequests captureSize : ℤ) : ℕ :=
  if numRequests ≤ 0 ∨ captureSize < numRequests ∨ runtime.graphCapacityRequests < captureSize ∨
      inputMaxBlocks ≤ 0 ∨ runtime.graphMaxBlocks < inputMaxBlocks then 50
  else 0

end NativeRuntime

namespace GPUInputBatch

/-- `len(batch.block_tables[0])`. -/
def tableWidth (batch : GPUInputBatch) : Except PyError ℕ :=
  match batch.blockTables with
  | [] => .error (.indexError "list index out of range")
  | table :: _ => .ok table.length

end GPUInputBatch

/-! ## The adapter of the native runtime -/

namespace CudaKernelRuntime

/-- What the constructor passes to `mvllm_create` for a configuration. -/
def createArgs (config : EngineConfig) (headDim : ℕ) : CreateArgs where
  deviceIndex := CInt.wrap config.dataParallelRank
  numBlocks := CInt.wrap config.numGpuBlocks
  blockSize := CInt.wrap config.blockSize
  headDim := CInt.wrap headDim
  maxNumSeqs := CInt.wrap config.maxNumSeqs
  maxModelLen := CInt.wrap config.maxModelLen

def statusError (status : ℕ) (operation : String) : PyError :=
  .runtimeError s!"CUDA operator {operation} failed with status {status}"

/-- `_check`. -/
def check (status : ℕ) (operation : String) : Except PyError Unit :=
  if status = 0 then .ok () else .error (statusError status operation)

/-- The argument checks on the way of `attention_batch`. -/
def attentionBatch (runtime : NativeRuntime) (batch : GPUInputBatch) : Except PyError Unit := do
  let maxBlocks ← batch.tableWidth
  check (runtime.attentionBatchStatus (CInt.wrap maxBlocks) (CInt.wrap batch.numRequests))
    "attention batch"

/-- The argument checks on the way of `execute_decode_graph`. -/
def executeDecodeGraph (runtime : NativeRuntime) (batch : GPUInputBatch) (captureSize : ℕ) :
    Except PyError Unit := do
  if batch.descriptor.uniformDecode = false then
    throw (.valueError "CUDA Graph execution requires a uniform decode batch")
  else
    let maxBlocks ← batch.tableWidth
    check (runtime.decodeGraphStatus (CInt.wrap maxBlocks) (CInt.wrap batch.numRequests)
      (CInt.wrap captureSize)) "decode graph"

end CudaKernelRuntime

end MiniVLLM
