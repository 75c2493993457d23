import MiniVLLM.Model.Batch
import MiniVLLM.Model.Core
import MiniVLLM.Library.Paging
import MiniVLLM.Library.Ragged

/-! # A Worker over a slot-indexed store

The Worker writes the input tokens of a batch to their slots and reads back, for each
request, the range of context slots that attention visits. -/

namespace MiniVLLM

/-- For every physical slot, the token last written there. -/
abbrev Store := ℕ → Option TokenId

namespace Worker

/-- The writes of `append_kv`, in order. -/
def kvPairs (input : GPUInputBatch) : List (ℕ × TokenId) :=
  input.slotMapping.zip input.inputIds

def appendKv (store : Store) (input : GPUInputBatch) : Store :=
  Paging.write store (kvPairs input)

/-- The tokens in a request's range of `context_slot_mapping`. A slot that was never written
raises. -/
def contextTokens (store : Store) (input : GPUInputBatch) (index : ℕ) : Option (List TokenId) :=
  Paging.readAll store (Ragged.slice input.contextSlotMapping input.contextStartLoc index)

/-- One token for every request with a sample index, in the order of the batch. -/
def sample (next : List TokenId → TokenId) (store : Store) (input : GPUInputBatch) :
    List ((RequestId × ℤ) × ℕ) → Dict RequestId TokenId → Option (Dict RequestId TokenId)
  | [], sampled => some sampled
  | ((requestId, sampleIndex), index) :: rest, sampled =>
      if sampleIndex < 0 then
        sample next store input rest sampled
      else
        match contextTokens store input index with
        | none => none
        | some tokens => sample next store input rest (sampled.set requestId (next tokens))

/-- What a Worker reports about a batch it executed. -/
def metricsOf (config : EngineConfig) (batch : WorkerBatch) (input : GPUInputBatch) :
    BatchMetrics where
  batchId := batch.batchId
  rank := config.dataParallelRank
  numRequests := input.numRequests
  numScheduledTokens := input.numTokens
  numPrefillTokens := input.numPrefillTokens
  numDecodeTokens := input.numDecodeTokens

/-- One turn of the loop of `worker_process_main`. `execute` is the execution of the batch: the
sampled tokens, or what it raised. -/
def answer (config : EngineConfig) (rank : ℕ)
    (execute : GPUInputBatch → Except PyError (Dict RequestId TokenId)) (batch : WorkerBatch) :
    WorkerResult :=
  let executed := do
    let input ← GPUInputBatch.fromWorkerBatch batch config.blockSize
    let sampled ← execute input
    pure (input, sampled)
  match executed with
  | .ok (input, sampled) =>
      { batchId := batch.batchId
        rank := rank
        sampledTokenIds := sampled
        metrics := some (metricsOf config batch input) }
  | .error error =>
      { batchId := batch.batchId
        rank := rank
        sampledTokenIds := .empty
        error := some s!"worker {rank}: {error.message}" }

/-- The execution of one batch: append, then sample. -/
def execute (next : List TokenId → TokenId) (blockSize : ℕ) (store : Store)
    (batch : WorkerBatch) : Option (Store × Dict RequestId TokenId) :=
  match GPUInputBatch.fromWorkerBatch batch blockSize with
  | .error _ => none
  | .ok input =>
      let store := appendKv store input
      (sample next store input (input.requestIds.zip input.sampleIndices).zipIdx .empty).map
        fun sampled => (store, sampled)

end Worker

/-- An engine core with the store of its Worker. -/
structure World where
  core : EngineCore
  store : Store

namespace World

/-- The batch a step put on the Worker's queue. -/
def batch? (messages : List CoreMessage) : Option WorkerBatch :=
  messages.findSome? fun
    | .batch _ batch => some batch
    | .event _ => none

/-- The engine and its Worker together: an engine step can only see the answer that the
Worker gives to the batch of this step. -/
def step (config : EngineConfig) (tokenizer : Tokenizer) (next : List TokenId → TokenId)
    (w : World) (event : EngineCore.Event) : Option (World × List CoreMessage) :=
  match EngineCore.step config tokenizer w.core event with
  | none => none
  | some (core, messages) =>
      match batch? messages, event with
      | none, _ => some (⟨core, w.store⟩, messages)
      | some batch, .engineStep [result] =>
          match Worker.execute next config.blockSize w.store batch with
          | none => none
          | some (store, sampled) =>
              if result.sampledTokenIds.entries = sampled.entries then
                some (⟨core, store⟩, messages)
              else none
      | some _, _ => none

end World

end MiniVLLM
