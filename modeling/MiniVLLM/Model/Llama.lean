import MiniVLLM.Library.CInt
import MiniVLLM.Library.Dict
import MiniVLLM.Library.ErrorState
import MiniVLLM.Model.CudaGraph

/-! # The Llama runner

Tensors are lists with one entry for each row. The arithmetic of the layers is a parameter:
every operation of the model outside attention acts on each row alone. -/

namespace MiniVLLM

structure AttentionMetadata where
  positions : List ℕ
  slotMapping : List ℤ
  queryStartLoc : List ℕ
  seqLens : List ℕ
  blockTables : List (List ℤ)
  requestIndices : List ℕ
  isDecode : List Bool
  activeMask : List Bool
  blockSize : ℕ
  deriving DecidableEq, Repr

/-- The `RuntimeError` of torch for a value that is out of range. -/
def int32Overflow : PyError :=
  .runtimeError "value cannot be converted to type int32_t without overflow"

/-- `torch.tensor(values, dtype=torch.int32)`. -/
def int32Tensor (values : List ℤ) : Except PyError (List ℤ) :=
  if ∀ value ∈ values, CInt.intMin ≤ value ∧ value ≤ CInt.intMax then .ok values
  else .error int32Overflow

/-- The tensor of values that are never negative. -/
def int32Counts (values : List ℕ) : Except PyError (List ℕ) :=
  if ∀ value ∈ values, (value : ℤ) ≤ CInt.intMax then .ok values else .error int32Overflow

namespace AttentionMetadata

/-- For each token of the batch, the index of its request. -/
def requestIndicesOf (queryStartLoc : List ℕ) (numRequests : ℕ) : List ℕ :=
  (List.range numRequests).flatMap fun request =>
    List.replicate (queryStartLoc.getD (request + 1) 0 - queryStartLoc.getD request 0) request

/-- `max_blocks or len(batch.block_tables[0])`: a width of zero counts as none. -/
def paddedWidth (maxBlocks : Option ℕ) (width : ℕ) : ℕ :=
  match maxBlocks with
  | none => width
  | some maxBlocks => if maxBlocks = 0 then width else maxBlocks

def fromBatch (batch : GPUInputBatch) (blockSize : ℕ) (maxBlocks : Option ℕ) :
    Except PyError AttentionMetadata := do
  let width ← batch.tableWidth
  let tableWidth := paddedWidth maxBlocks width
  if tableWidth < width then
    throw (.valueError "block table exceeds configured metadata width")
  else
    let paddedTables := batch.blockTables.map fun table =>
      table ++ List.replicate (tableWidth - table.length) (-1)
    let positions ← int32Counts batch.positions
    let slotMapping ← int32Tensor (batch.slotMapping.map Nat.cast)
    let queryStartLoc ← int32Counts batch.queryStartLoc
    let seqLens ← int32Counts batch.seqLens
    let blockTables ← paddedTables.mapM int32Tensor
    let requestIndices ← int32Counts (requestIndicesOf batch.queryStartLoc batch.numRequests)
    pure
      { positions := positions
        slotMapping := slotMapping
        queryStartLoc := queryStartLoc
        seqLens := seqLens
        blockTables := blockTables
        requestIndices := requestIndices
        isDecode := batch.isDecode
        activeMask := List.replicate batch.numTokens true
        blockSize := blockSize }

end AttentionMetadata

/-! ## The model -/

/-- What one decoder layer does to a row: norm, projections and rotary embedding at its
position before attention; output projection, residuals and MLP after it. -/
structure LlamaDecoderLayer (Hidden Query KeyValue Attention : Type) where
  project : Hidden → ℕ → Query × KeyValue
  attend : Query → List KeyValue → Attention
  zeros : Attention
  finish : Hidden → Attention → Hidden

/-- The K/V cache of one layer, by physical slot. -/
abbrev LayerCache (KeyValue : Type) := ℕ → KeyValue

structure LlamaForCausalLM (Hidden Query KeyValue Attention Logits : Type) where
  embedTokens : TokenId → Hidden
  layers : List (LlamaDecoderLayer Hidden Query KeyValue Attention)
  lmHead : Hidden → Logits

section Forward

variable {Hidden Query KeyValue Attention Logits : Type}

namespace LlamaDecoderLayer

variable (layer : LlamaDecoderLayer Hidden Query KeyValue Attention)

/-- `append_kv_`: active rows write their slots. -/
def appendKv (cache : LayerCache KeyValue) :
    List ℤ → List Bool → List KeyValue → LayerCache KeyValue
  | slot :: slots, active :: mask, value :: values =>
      appendKv (if active then Function.update cache slot.toNat value else cache) slots mask
        values
  | _, _, _ => cache

/-- The keys and values a query reads: the first `contextLen` positions of a block table. -/
def readContext (cache : LayerCache KeyValue) (blockSize : ℕ) (blockTable : List ℤ)
    (contextLen : ℕ) : List KeyValue :=
  (List.range contextLen).map fun token =>
    cache ((blockTable.getD (token / blockSize) 0).toNat * blockSize + token % blockSize)

/-- `flash_prefill_out`: each active row of a prefill request attends to its positions. -/
def flashPrefill (cache : LayerCache KeyValue) (metadata : AttentionMetadata)
    (queries : List Query) : List Attention :=
  queries.zipIdx.map fun (query, token) =>
    let request := metadata.requestIndices.getD token 0
    if metadata.activeMask.getD token false = false ∨ metadata.isDecode.getD request false then
      layer.zeros
    else
      layer.attend query (readContext cache metadata.blockSize
        (metadata.blockTables.getD request []) (metadata.positions.getD token 0 + 1))

/-- One block of `paged_decode_out`: the first row of a decode request attends to the whole
sequence. -/
def decodeRequest (cache : LayerCache KeyValue) (metadata : AttentionMetadata)
    (queries : List Query) (output : List Attention) (request : ℕ) : List Attention :=
  let token := metadata.queryStartLoc.getD request 0
  match queries[token]? with
  | none => output
  | some query =>
      if metadata.isDecode.getD request false = false ∨
          metadata.activeMask.getD token false = false then output
      else
        output.set token (layer.attend query (readContext cache metadata.blockSize
          (metadata.blockTables.getD request []) (metadata.seqLens.getD request 0)))

/-- `CudaAttentionBackend.forward` after the append. -/
def attention (cache : LayerCache KeyValue) (metadata : AttentionMetadata)
    (queries : List Query) : List Attention :=
  (List.range metadata.seqLens.length).foldl (layer.decodeRequest cache metadata queries)
    (layer.flashPrefill cache metadata queries)

def forward (metadata : AttentionMetadata) (positions : List ℕ) (hidden : List Hidden)
    (cache : LayerCache KeyValue) : List Hidden × LayerCache KeyValue :=
  let projected := List.zipWith layer.project hidden positions
  let cache := appendKv cache metadata.slotMapping metadata.activeMask (projected.map Prod.snd)
  (List.zipWith layer.finish hidden (layer.attention cache metadata (projected.map Prod.fst)),
    cache)

end LlamaDecoderLayer

namespace LlamaForCausalLM

/-- The loop over the layers. -/
def forwardLayers (metadata : AttentionMetadata) (positions : List ℕ) :
    List (LlamaDecoderLayer Hidden Query KeyValue Attention) → List Hidden →
      List (LayerCache KeyValue) → List Hidden × List (LayerCache KeyValue)
  | layer :: layers, hidden, cache :: caches =>
      let (hidden, cache) := layer.forward metadata positions hidden cache
      let (hidden, caches) := forwardLayers metadata positions layers hidden caches
      (hidden, cache :: caches)
  | _, hidden, caches => (hidden, caches)

def forward (model : LlamaForCausalLM Hidden Query KeyValue Attention Logits)
    (inputIds positions : List ℕ) (metadata : AttentionMetadata)
    (caches : List (LayerCache KeyValue)) : List Logits × List (LayerCache KeyValue) :=
  let (hidden, caches) := forwardLayers metadata positions model.layers
    (inputIds.map model.embedTokens) caches
  (hidden.map model.lmHead, caches)

end LlamaForCausalLM

/-! ## The runner -/

/-- The static tensors of one capture size. `captured` says that `graph` is set. -/
structure LlamaCUDAGraphState (Logits : Type) where
  inputIds : List TokenId
  positions : List ℕ
  metadata : AttentionMetadata
  captured : Bool := false
  logits : Option (List Logits) := none

/-- The runner's fixed parts: the model, how a token is picked from logits, and the sizes. -/
structure LlamaModelRunner (Hidden Query KeyValue Attention Logits : Type) where
  model : LlamaForCausalLM Hidden Query KeyValue Attention Logits
  argmax : Logits → TokenId
  multinomial : Logits → ℚ → TokenId
  supportsCudagraph : Bool
  blockSize : ℕ
  maxNumSeqs : ℕ
  maxBlocks : ℕ
  physicalCacheSlots : ℕ

/-- The runner's mutable parts. -/
structure RunnerState (KeyValue Logits : Type) where
  caches : List (LayerCache KeyValue)
  graphStates : Dict ℕ (LlamaCUDAGraphState Logits)

namespace LlamaModelRunner

/-- `__init__`, once the model is loaded. -/
def ofConfig (config : EngineConfig)
    (model : LlamaForCausalLM Hidden Query KeyValue Attention Logits) (argmax : Logits → TokenId)
    (multinomial : Logits → ℚ → TokenId) (supportsCudagraph : Bool) :
    LlamaModelRunner Hidden Query KeyValue Attention Logits where
  model := model
  argmax := argmax
  multinomial := multinomial
  supportsCudagraph := supportsCudagraph
  blockSize := config.blockSize
  maxNumSeqs := config.maxNumSeqs
  maxBlocks := (config.maxModelLen + config.blockSize - 1) / config.blockSize
  physicalCacheSlots := config.numGpuBlocks * config.blockSize

variable (runner : LlamaModelRunner Hidden Query KeyValue Attention Logits)

/-- The first entry of `cache_shape`: the slots of the cache tensors. -/
def cacheSlots : ℕ := runner.physicalCacheSlots + runner.maxNumSeqs

/-- A size error of torch. -/
def sizeMismatch : PyError := .runtimeError "the sizes of the tensors do not match"

/-- `_sample_logits`, at the rows of the sample indices. -/
def sampleLogits (logits : List Logits) :
    List (RequestId × ℤ × ℚ) → Dict RequestId TokenId → Except PyError (Dict RequestId TokenId)
  | [], sampled => .ok sampled
  | (requestId, sampleIndex, temperature) :: rest, sampled =>
      if sampleIndex < 0 then sampleLogits logits rest sampled
      else
        match logits[sampleIndex.toNat]? with
        | none => .error (.indexError "index is out of bounds")
        | some row =>
            let tokenId := if temperature = 0 then runner.argmax row
              else runner.multinomial row temperature
            sampleLogits logits rest (sampled.set requestId tokenId)

/-- What `_sample_logits` reads of each request. -/
def sampleRows (batch : GPUInputBatch) : List (RequestId × ℤ × ℚ) :=
  batch.requestIds.zip (batch.sampleIndices.zip batch.temperatures)

/-- `_metadata`. -/
def metadata (batch : GPUInputBatch) : Except PyError AttentionMetadata :=
  AttentionMetadata.fromBatch batch runner.blockSize (some runner.maxBlocks)

def executeModel (batch : GPUInputBatch) :
    Py (RunnerState KeyValue Logits) (Dict RequestId TokenId) := do
  let metadata ← EStateM.ofExcept (runner.metadata batch)
  let state ← get
  let (logits, caches) := runner.model.forward batch.inputIds batch.positions metadata state.caches
  set { state with caches := caches }
  EStateM.ofExcept (runner.sampleLogits logits (sampleRows batch) .empty)

/-- `emptySlots` is what `torch.empty` finds in memory. -/
def createGraphState (emptySlots : ℕ → ℤ) (captureSize : ℕ) :
    Except PyError (LlamaCUDAGraphState Logits) :=
  if runner.maxNumSeqs < captureSize then
    .error (.valueError "capture size exceeds max_num_seqs")
  else
    .ok
      { inputIds := List.replicate captureSize 0
        positions := List.replicate captureSize 0
        metadata :=
          { positions := List.replicate captureSize 0
            slotMapping := (List.range captureSize).map emptySlots
            queryStartLoc := List.range (captureSize + 1)
            seqLens := List.replicate captureSize 1
            blockTables := List.replicate captureSize (List.replicate runner.maxBlocks 0)
            requestIndices := List.range captureSize
            isDecode := List.replicate captureSize true
            activeMask := List.replicate captureSize false
            blockSize := runner.blockSize } }

/-- `target[:count].copy_(source)`, which broadcasts a source of one row. -/
def copyRows {α : Type} (target : List α) (count : ℕ) (source : List α) :
    Except PyError (List α) :=
  let rows := (target.take count).length
  if source.length = rows then .ok (source ++ target.drop count)
  else
    match source with
    | [value] => .ok (List.replicate rows value ++ target.drop count)
    | _ => .error sizeMismatch

/-- `target[:count, :width].copy_(source)` for block tables. -/
def copyTables (target : List (List ℤ)) (count width : ℕ) (source : List (List ℤ)) :
    Except PyError (List (List ℤ)) := do
  if source.length ≠ (target.take count).length then throw sizeMismatch
  else
    let rows ← ((target.take count).zip source).mapM fun (row, table) => copyRows row width table
    pure (rows ++ target.drop count)

/-- `torch.arange(physical_cache_slots + count, physical_cache_slots + capture_size)` in 32
bits. -/
def paddingSlots (physicalCacheSlots count captureSize : ℕ) : List ℤ :=
  (List.range' count (captureSize - count)).map fun row =>
    CInt.wrap ((physicalCacheSlots + row : ℕ) : ℤ)

/-- `_copy_decode_batch`, one update for each copy. -/
def copyDecodeBatch (batch : GPUInputBatch) : Py (LlamaCUDAGraphState Logits) Unit := do
  if batch.descriptor.uniformDecode = false then
    throw (.valueError "Llama CUDA Graph requires a uniform decode batch")
  else
    let count := batch.numRequests
    let captureSize := (← get).inputIds.length
    if captureSize < count then
      throw (.valueError "batch exceeds CUDA Graph capture size")
    else
      modify fun state =>
        { state with
          inputIds := state.inputIds.map (fun _ => 0)
          positions := state.positions.map (fun _ => 0)
          metadata :=
            { state.metadata with
              positions := state.metadata.positions.map (fun _ => 0)
              seqLens := state.metadata.seqLens.map (fun _ => 1)
              blockTables := state.metadata.blockTables.map (fun table => table.map (fun _ => 0))
              activeMask := state.metadata.activeMask.map (fun _ => false) } }
      EStateM.update fun state => do
        let inputIds ← copyRows state.inputIds count batch.inputIds
        pure { state with inputIds := inputIds }
      EStateM.update fun state => do
        let positions ← copyRows state.positions count batch.positions
        pure { state with positions := positions }
      EStateM.update fun state => do
        let positions ← int32Counts batch.positions
        let positions ← copyRows state.metadata.positions count positions
        pure { state with metadata := { state.metadata with positions := positions } }
      EStateM.update fun state => do
        let slotMapping ← int32Tensor (batch.slotMapping.map Nat.cast)
        let slotMapping ← copyRows state.metadata.slotMapping count slotMapping
        pure { state with metadata := { state.metadata with slotMapping := slotMapping } }
      EStateM.update fun state => do
        let seqLens ← int32Counts batch.seqLens
        let seqLens ← copyRows state.metadata.seqLens count seqLens
        pure { state with metadata := { state.metadata with seqLens := seqLens } }
      EStateM.update fun state => do
        let tableWidth ← batch.tableWidth
        let blockTables ← batch.blockTables.mapM int32Tensor
        let blockTables ← copyTables state.metadata.blockTables count tableWidth blockTables
        pure { state with metadata := { state.metadata with blockTables := blockTables } }
      modify fun state =>
        { state with
          metadata :=
            { state.metadata with
              slotMapping := state.metadata.slotMapping.take count ++
                paddingSlots runner.physicalCacheSlots count captureSize
              activeMask := (state.metadata.activeMask.take count).map (fun _ => true) ++
                state.metadata.activeMask.drop count } }

/-- The model on the static tensors of a graph. -/
def forwardGraph (graph : LlamaCUDAGraphState Logits) (caches : List (LayerCache KeyValue)) :
    List Logits × List (LayerCache KeyValue) :=
  runner.model.forward graph.inputIds graph.positions graph.metadata caches

/-- `_capture_graph`: three runs to warm up, then a recording that executes nothing.
`buffer` is what the recorded output happens to contain. -/
def captureGraph (buffer : ℕ → Logits) (graph : LlamaCUDAGraphState Logits)
    (caches : List (LayerCache KeyValue)) :
    LlamaCUDAGraphState Logits × List (LayerCache KeyValue) :=
  let warmUp := fun caches => (runner.forwardGraph graph caches).2
  ({ graph with
      captured := true
      logits := some ((List.range graph.inputIds.length).map buffer) },
    warmUp (warmUp (warmUp caches)))

/-- `graph.replay()`: the recorded work on the current static tensors. -/
def replayGraph (graph : LlamaCUDAGraphState Logits) (caches : List (LayerCache KeyValue)) :
    LlamaCUDAGraphState Logits × List (LayerCache KeyValue) :=
  let (logits, caches) := runner.forwardGraph graph caches
  ({ graph with logits := some logits }, caches)

/-- Runs an operation on the static tensors of one capture size. -/
def onGraphState {α : Type} (captureSize : ℕ) (x : Py (LlamaCUDAGraphState Logits) α) :
    Py (RunnerState KeyValue Logits) α := do
  let state ← get
  let graph ← EStateM.getOrRaise (.keyError (toString captureSize))
    (state.graphStates.get? captureSize)
  match x.run graph with
  | .ok a graph =>
      set { state with graphStates := state.graphStates.set captureSize graph }
      pure a
  | .error e graph =>
      set { state with graphStates := state.graphStates.set captureSize graph }
      throw e

/-- `emptySlots` and `buffer` are what uninitialised device memory contains in this call. -/
def executeCudagraph (emptySlots : ℕ → ℤ) (buffer : ℕ → Logits) (batch : GPUInputBatch)
    (captureSize : ℕ) : Py (RunnerState KeyValue Logits) (Dict RequestId TokenId) := do
  if runner.supportsCudagraph = false then runner.executeModel batch
  else
    EStateM.update fun state => do
      if (state.graphStates.get? captureSize).isSome then pure state
      else
        let graph ← runner.createGraphState emptySlots captureSize
        pure { state with graphStates := state.graphStates.set captureSize graph }
    onGraphState captureSize (runner.copyDecodeBatch batch)
    let state ← get
    let graph ← EStateM.getOrRaise (.keyError (toString captureSize))
      (state.graphStates.get? captureSize)
    let (graph, caches) := if graph.captured = false then
        runner.captureGraph buffer graph state.caches
      else runner.replayGraph graph state.caches
    set (⟨caches, state.graphStates.set captureSize graph⟩ : RunnerState KeyValue Logits)
    let logits ← EStateM.getOrRaise (.runtimeError "CUDA Graph did not produce logits")
      graph.logits
    EStateM.ofExcept (runner.sampleLogits logits (sampleRows batch) .empty)

end LlamaModelRunner

end Forward

end MiniVLLM
