import MiniVLLM.Model.Protocol

/-! # The flattened batch of a Worker

One pass over the items of a `WorkerBatch` appends to the flat lists the model runner
reads. -/

namespace MiniVLLM

structure BatchDescriptor where
  numTokens : ℕ
  numRequests : ℕ
  uniformDecode : Bool
  deriving DecidableEq, Repr

structure GPUInputBatch where
  batchId : ℕ
  requestIds : List RequestId
  inputIds : List TokenId
  positions : List ℕ
  slotMapping : List ℕ
  queryStartLoc : List ℕ
  seqLens : List ℕ
  blockTables : List (List ℤ)
  contextSlotMapping : List ℕ
  contextStartLoc : List ℕ
  isDecode : List Bool
  sampleIndices : List ℤ
  generatedCounts : List ℕ
  temperatures : List ℚ
  deriving DecidableEq, Repr

/-- The local lists of `from_worker_batch`. -/
structure InputLists where
  requestIds : List RequestId := []
  inputIds : List TokenId := []
  positions : List ℕ := []
  slotMapping : List ℕ := []
  queryStartLoc : List ℕ := [0]
  seqLens : List ℕ := []
  rawBlockTables : List (List ℕ) := []
  contextSlotMapping : List ℕ := []
  contextStartLoc : List ℕ := [0]
  isDecode : List Bool := []
  sampleIndices : List ℤ := []
  generatedCounts : List ℕ := []
  temperatures : List ℚ := []

namespace GPUInputBatch

/-- The slots of the positions under a block table, indexing the table as Python does. -/
def contextSlots (blockSize : ℕ) (blockTable : List ℕ) : List ℕ → Except PyError (List ℕ)
  | [] => pure []
  | position :: positions => do
      match blockTable[position / blockSize]? with
      | none => throw (.indexError "list index out of range")
      | some block =>
          let slots ← contextSlots blockSize blockTable positions
          pure ((block * blockSize + position % blockSize) :: slots)

/-- The checks on one item. Start positions are natural numbers here, so the check that
they are not negative has nothing to do. -/
def checkItem (blockSize : ℕ) (item : WorkerItem) : Except PyError Unit :=
  if item.tokenIds = [] then
    throw (.valueError s!"request {item.requestId} scheduled no tokens")
  else if item.tokenIds.length ≠ item.slotMapping.length then
    throw (.valueError "token_ids and slot_mapping must have equal length")
  else if item.seqLen ≠ item.startPos + item.tokenIds.length then
    throw (.valueError s!"invalid token range for request {item.requestId}")
  else if item.blockTable.length < (item.seqLen + blockSize - 1) / blockSize then
    throw (.valueError s!"incomplete block table for request {item.requestId}")
  else pure ()

/-- One turn of the loop over the items. -/
def appendItem (blockSize : ℕ) (lists : InputLists) (item : WorkerItem) :
    Except PyError InputLists := do
  checkItem blockSize item
  let requiredBlocks := (item.seqLen + blockSize - 1) / blockSize
  let inputIds := lists.inputIds ++ item.tokenIds
  let context ← contextSlots blockSize item.blockTable (List.range item.seqLen)
  let contextSlotMapping := lists.contextSlotMapping ++ context
  pure
    { requestIds := lists.requestIds ++ [item.requestId]
      inputIds := inputIds
      positions := lists.positions ++ List.range' item.startPos (item.seqLen - item.startPos)
      slotMapping := lists.slotMapping ++ item.slotMapping
      queryStartLoc := lists.queryStartLoc ++ [inputIds.length]
      seqLens := lists.seqLens ++ [item.seqLen]
      rawBlockTables := lists.rawBlockTables ++ [item.blockTable.take requiredBlocks]
      contextSlotMapping := contextSlotMapping
      contextStartLoc := lists.contextStartLoc ++ [contextSlotMapping.length]
      isDecode := lists.isDecode ++
        [decide (item.tokenIds.length = 1) && decide (0 < item.generatedCount)]
      sampleIndices := lists.sampleIndices ++
        [if item.shouldSample then (inputIds.length : ℤ) - 1 else -1]
      generatedCounts := lists.generatedCounts ++ [item.generatedCount]
      temperatures := lists.temperatures ++ [item.temperature] }

/-- Rows of block ids, filled up with `-1` to one width. -/
def padTables (rawBlockTables : List (List ℕ)) : List (List ℤ) :=
  let maxBlocks := (rawBlockTables.map List.length).foldl max 0
  rawBlockTables.map fun table =>
    table.map Int.ofNat ++ List.replicate (maxBlocks - table.length) (-1)

def ofLists (batchId : ℕ) (lists : InputLists) : GPUInputBatch where
  batchId := batchId
  requestIds := lists.requestIds
  inputIds := lists.inputIds
  positions := lists.positions
  slotMapping := lists.slotMapping
  queryStartLoc := lists.queryStartLoc
  seqLens := lists.seqLens
  blockTables := padTables lists.rawBlockTables
  contextSlotMapping := lists.contextSlotMapping
  contextStartLoc := lists.contextStartLoc
  isDecode := lists.isDecode
  sampleIndices := lists.sampleIndices
  generatedCounts := lists.generatedCounts
  temperatures := lists.temperatures

def fromWorkerBatch (batch : WorkerBatch) (blockSize : ℕ) : Except PyError GPUInputBatch := do
  if blockSize = 0 then throw (.valueError "block_size must be positive")
  else if batch.items = [] then
    throw (.valueError "worker batch must contain at least one request")
  else
    let lists ← batch.items.foldlM (appendItem blockSize) {}
    pure (ofLists batch.batchId lists)

def numRequests (batch : GPUInputBatch) : ℕ := batch.requestIds.length

def numTokens (batch : GPUInputBatch) : ℕ := batch.inputIds.length

/-- The tokens of the decode items. The remaining ones are prefill tokens. -/
def numDecodeTokens (batch : GPUInputBatch) : ℕ :=
  (batch.isDecode.zipIdx.map fun (decode, index) =>
    if decode then batch.queryStartLoc.getD (index + 1) 0 - batch.queryStartLoc.getD index 0
    else 0).sum

def numPrefillTokens (batch : GPUInputBatch) : ℕ := batch.numTokens - batch.numDecodeTokens

def descriptor (batch : GPUInputBatch) : BatchDescriptor where
  numTokens := batch.numTokens
  numRequests := batch.numRequests
  uniformDecode := batch.isDecode.all id

end GPUInputBatch

end MiniVLLM
