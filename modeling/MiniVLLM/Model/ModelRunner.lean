import MiniVLLM.Library.ErrorState
import MiniVLLM.Model.Llama
import MiniVLLM.Model.NativeOps
import MiniVLLM.Model.ReferenceRuntime
import MiniVLLM.Model.Worker

/-! # The model runners of a Worker

`create_model_runner` picks one of three runners: the Llama model, or the bootstrap runner over
the reference runtime or over the native one. The loop of the Worker answers each batch with
what its runner sampled, and the engine sees nothing else of it. -/

namespace MiniVLLM

/-! ## A Worker beside its engine core -/

/-- How a runner executes a batch: what it sampled or raised, and what it keeps. -/
abbrev BatchExecution (σ : Type) :=
  σ → GPUInputBatch → Except PyError (Dict RequestId TokenId) × σ

def BatchExecution.ofPy {σ : Type} (executeModel : GPUInputBatch → Py σ (Dict RequestId TokenId)) :
    BatchExecution σ := fun state input =>
  match (executeModel input).run state with
  | .ok sampled state => (.ok sampled, state)
  | .error error state => (.error error, state)

/-- An engine core with what the runner of its Worker keeps. -/
structure WorkerWorld (σ : Type) where
  core : EngineCore
  worker : σ

namespace WorkerWorld

variable {σ : Type}

/-- One turn of the loop of `worker_process_main`. -/
def answer (config : EngineConfig) (rank : ℕ) (execute : BatchExecution σ) (worker : σ)
    (batch : WorkerBatch) : WorkerResult × σ :=
  (Worker.answer config rank (fun input => (execute worker input).1) batch,
    match GPUInputBatch.fromWorkerBatch batch config.blockSize with
    | .ok input => (execute worker input).2
    | .error _ => worker)

/-- The engine and its Worker together: an engine step can only see the answer that the Worker
gives to the batch of this step. -/
def step (config : EngineConfig) (tokenizer : Tokenizer) (execute : BatchExecution σ)
    (w : WorkerWorld σ) (event : EngineCore.Event) :
    Option (WorkerWorld σ × List CoreMessage) :=
  match EngineCore.step config tokenizer w.core event with
  | none => none
  | some (core, messages) =>
      match World.batch? messages, event with
      | none, _ => some (⟨core, w.worker⟩, messages)
      | some batch, .engineStep [result] =>
          if result = (answer config 0 execute w.worker batch).1 then
            some (⟨core, (answer config 0 execute w.worker batch).2⟩, messages)
          else none
      | some _, _ => none

end WorkerWorld

/-! ## Picking a graph -/

/-- `CUDAGraphManager.execute`: a captured graph where the dispatcher picks one and the runner
supports it, and the eager path otherwise. -/
def CUDAGraphManager.execute {ρ : Type} (dispatcher : CUDAGraphDispatcher) (supportsGraph : Bool)
    (executeGraph : GPUInputBatch → ℕ → ρ) (executeModel : GPUInputBatch → ρ)
    (batch : GPUInputBatch) : ρ :=
  match (dispatcher.dispatch batch.descriptor).captureSize with
  | none => executeModel batch
  | some captureSize => if supportsGraph then executeGraph batch captureSize else executeModel batch

/-! ## The Llama runner -/

namespace LlamaModelRunner

variable {Hidden Query KeyValue Attention Logits : Type}

/-- A batch that the Llama runner executes eagerly. -/
def execute (runner : LlamaModelRunner Hidden Query KeyValue Attention Logits) :
    BatchExecution (RunnerState KeyValue Logits) :=
  .ofPy runner.executeModel

end LlamaModelRunner

/-! ## The bootstrap runners -/

/-- `head_dim` of the runtime that `create_kernel_runtime` builds for the CPU. -/
def ReferenceKernelRuntime.defaultHeadDim : ℕ := 8

/-- `head_dim` of the runtime that `create_kernel_runtime` builds for a CUDA device. -/
def CudaKernelRuntime.defaultHeadDim : ℕ := 64

namespace BootstrapModelRunner

/-- `_response`, encoded. -/
def responseTokens : List TokenId := characterTokenizer.encode " mini-vLLM".toList

/-- The token of a request that has generated so many. -/
def responseToken (generatedCount : ℕ) : TokenId :=
  responseTokens.getD generatedCount characterTokenizer.eosTokenId

/-- `_sample`, over the rows of the requests. -/
def sampleRows (batch : GPUInputBatch) :
    List (RequestId × ℕ) → Dict RequestId TokenId → Except PyError (Dict RequestId TokenId)
  | [], sampled => .ok sampled
  | (requestId, index) :: rest, sampled =>
      match batch.sampleIndices[index]? with
      | none => .error (.indexError "list index out of range")
      | some sampleIndex =>
          if sampleIndex < 0 then sampleRows batch rest sampled
          else
            match batch.generatedCounts[index]? with
            | none => .error (.indexError "list index out of range")
            | some generatedCount =>
                sampleRows batch rest (sampled.set requestId (responseToken generatedCount))

def sample (batch : GPUInputBatch) : Except PyError (Dict RequestId TokenId) :=
  sampleRows batch batch.requestIds.zipIdx .empty

/-- `execute_model` over the reference runtime. -/
def executeModel {α : Type} [FloatOps α] (headDim : ℕ) (batch : GPUInputBatch) :
    Py (ReferenceKernelRuntime α) (Dict RequestId TokenId) := do
  ReferenceKernelRuntime.appendKv headDim batch.inputIds
    (batch.slotMapping.map fun slot : ℕ => (slot : ℤ))
  ReferenceKernelRuntime.attentionBatch headDim batch
  EStateM.ofExcept (sample batch)

/-- A batch that the bootstrap runner executes. It has no `execute_cudagraph`. -/
def execute {α : Type} [FloatOps α] (headDim : ℕ) : BatchExecution (ReferenceKernelRuntime α) :=
  .ofPy (executeModel headDim)

end BootstrapModelRunner

namespace CudaBootstrapModelRunner

variable {α : Type} [FloatOps α]

/-- A call of the native runtime, whose status `_check` turns into an error. Nothing is said of
a call that leaves its buffers. -/
def checked {β : Type} (operation : String) (call : Option (ℕ × NativeDevice α))
    (next : NativeDevice α → Option (Except PyError β × NativeDevice α)) :
    Option (Except PyError β × NativeDevice α) :=
  match call with
  | none => none
  | some (status, device) =>
      match CudaKernelRuntime.check status operation with
      | .ok () => next device
      | .error error => some (.error error, device)

/-- `execute_model` over the native runtime. The adapter reads `block_tables[0]` before it calls. -/
def executeModel (schedule schedule' : Launch.Schedule) (device : NativeDevice α)
    (batch : GPUInputBatch) :
    Option (Except PyError (Dict RequestId TokenId) × NativeDevice α) :=
  checked "append"
    (CudaKernelRuntime.appendDevice schedule device batch.inputIds batch.slotMapping) fun device =>
      match batch.tableWidth with
      | .error error => some (.error error, device)
      | .ok _ =>
          checked "attention batch" (CudaKernelRuntime.attentionBatchDevice schedule' device batch)
            fun device => some (BootstrapModelRunner.sample batch, device)

/-- `execute_cudagraph`. -/
def executeCudagraph (schedule schedule' : Launch.Schedule) (device : NativeDevice α)
    (batch : GPUInputBatch) (captureSize : ℕ) :
    Option (Except PyError (Dict RequestId TokenId) × NativeDevice α) :=
  if batch.descriptor.uniformDecode = false then
    some (.error (.valueError "CUDA Graph execution requires a uniform decode batch"), device)
  else
    match batch.tableWidth with
    | .error error => some (.error error, device)
    | .ok _ =>
        checked "decode graph"
          (CudaKernelRuntime.executeDecodeGraphDevice schedule schedule' device batch captureSize)
          fun device => some (BootstrapModelRunner.sample batch, device)

/-- What the Worker of a configuration does with a batch. -/
def execute (config : EngineConfig) (schedule schedule' : Launch.Schedule) (device : NativeDevice α)
    (batch : GPUInputBatch) : Option (Except PyError (Dict RequestId TokenId) × NativeDevice α) :=
  CUDAGraphManager.execute (.ofConfig config) true
    (executeCudagraph schedule schedule' device) (executeModel schedule schedule' device) batch

end CudaBootstrapModelRunner

end MiniVLLM
