import MiniVLLM.Library.Launch
import MiniVLLM.Library.OnlineSoftmax
import MiniVLLM.Library.Run
import MiniVLLM.Model.CudaGraph

/-! # The native runtime on its device

The C functions a Worker calls through `ctypes`, with the kernels they launch. Host arrays
and device buffers are lists. An access outside of one gives no result, and neither does an `int`
that overflows. The CUDA calls succeed. Every grid here has one dimension, counted in `int`, and
blocks of at most 256 threads, so it can be launched. -/

namespace MiniVLLM

open Launch NativeInts

structure KVCaches (α : Type) where
  keyCache : List α
  valueCache : List α

variable {α : Type}

/-! ## Kernels -/

def appendKernel [FloatOps α] (tokenIds slots : List ℤ) (count headDim : ℕ)
    (caches : KVCaches α) (index : ℕ) : Option (KVCaches α) := do
  let total ← CInt.mul count headDim
  if total ≤ index then pure caches
  else
    let dim : ℤ := (index % headDim : ℕ)
    let cacheIndex ← appendCacheIndex (Buffer.load slots) headDim index
    let tokenId ← Buffer.load tokenIds (index / headDim : ℕ)
    let keyCache ← Buffer.store caches.keyCache cacheIndex
      (FloatOps.sin ((tokenId : α) * 0.01 + (dim : α) * 0.17))
    let valueCache ← Buffer.store caches.valueCache cacheIndex
      (FloatOps.sin ((tokenId : α) * 0.01 + (dim : α) * 0.31))
    pure ⟨keyCache, valueCache⟩

/-- One turn of the loop of the three last-token kernels. The caches are read through
functions, `slotOf` gives the slot of a token. -/
def attendToken [FloatOps α] (keyCache valueCache : ℤ → Option α) (slotOf : ℕ → Option ℤ)
    (headDim : ℕ) (querySlot : ℤ) (row : OnlineSoftmax α ℕ) (token : ℕ) :
    Option (OnlineSoftmax α ℕ) := do
  let slot ← slotOf token
  let score ← (List.range headDim).foldlM
    (fun score (dim : ℕ) => do
      let query ← (cacheIndex querySlot headDim dim).bind keyCache
      let key ← (cacheIndex slot headDim dim).bind keyCache
      pure (score + query * key)) (0 : α)
  let value ← (List.range headDim).mapM fun (dim : ℕ) =>
    (cacheIndex slot headDim dim).bind valueCache
  pure (row.attend (score * FloatOps.rsqrt ((headDim : ℤ) : α)) fun dim => value.getD dim 0)

/-- The body the kernels share: the last of `count` tokens attends to all of them. -/
def lastTokenAttention [FloatOps α] (keyCache valueCache : ℤ → Option α)
    (slotOf : ℕ → Option ℤ) (count headDim : ℕ) : Option (List α) := do
  let querySlot ← slotOf (count - 1)
  let row ← (List.range count).foldlM
    (attendToken keyCache valueCache slotOf headDim querySlot) OnlineSoftmax.start
  pure ((List.range headDim).map fun dim => row.output dim / row.rowSum)

/-- What a row of `batched_last_token_attention_kernel` reads. -/
structure AttentionInputs (α : Type) where
  keyCache : ℤ → Option α
  valueCache : ℤ → Option α
  contextSlots : ℤ → Option ℤ
  contextStartLocs : ℤ → Option ℤ
  blockTables : ℤ → Option ℤ
  maxBlocks : ℕ
  seqLens : ℤ → Option ℤ
  isDecode : ℤ → Option ℤ
  blockSize : ℕ
  headDim : ℕ

namespace AttentionInputs

/-- The slot of a token of a request: decode rows walk their block table, the others read the
dense list of context slots. -/
def slotOf (inputs : AttentionInputs α) (request : ℕ) (denseStart isDecode : ℤ) (token : ℕ) :
    Option ℤ :=
  if isDecode ≠ 0 then
    pagedSlot (fun block => (CInt.index request inputs.maxBlocks block).bind inputs.blockTables)
      inputs.blockSize token
  else (CInt.add denseStart token).bind inputs.contextSlots

/-- The row of a request, unless its sequence is empty. -/
def row [FloatOps α] (inputs : AttentionInputs α) (request : ℕ) : Option (Option (List α)) := do
  let seqLen ← inputs.seqLens request
  if seqLen ≤ 0 then pure none
  else
    let denseStart ← inputs.contextStartLocs request
    let isDecode ← inputs.isDecode request
    let output ← lastTokenAttention inputs.keyCache inputs.valueCache
      (inputs.slotOf request denseStart isDecode) seqLen.toNat inputs.headDim
    pure (some output)

/-- The same inputs with `-1` entries and cache cells from `live` on refused. -/
def guarded (inputs : AttentionInputs α) (live : ℕ) : AttentionInputs α :=
  { inputs with
    keyCache := fun index => if index < live then inputs.keyCache index else none
    valueCache := fun index => if index < live then inputs.valueCache index else none
    blockTables := fun index => (inputs.blockTables index).filter (· ≠ -1) }

end AttentionInputs

/-- Stores a row of `head_dim` cells, behind an offset in `size_t`. -/
def storeRow (outputs : List α) (start : ℕ) (row : List α) : Option (List α) :=
  row.zipIdx.foldlM (fun outputs (value, dim) => Buffer.store outputs (start + dim : ℕ) value)
    outputs

def batchedLastTokenAttentionKernel [FloatOps α] (inputs : AttentionInputs α)
    (numRequests : ℕ) (outputs : List α) (request : ℕ) : Option (List α) :=
  if numRequests ≤ request then some outputs
  else do
    match ← inputs.row request with
    | none => pure outputs
    | some row => storeRow outputs (request * inputs.headDim) row

/-! ## The runtime -/

/-- The arguments a captured graph replays. Its pointers are the buffers of the runtime. -/
structure DecodeGraph where
  appendBlocks : ℕ
  captureSize : ℕ
  headDim : ℕ
  graphMaxBlocks : ℕ
  blockSize : ℕ
  deriving DecidableEq, Repr

/-- `struct Runtime`. -/
structure NativeDevice (α : Type) extends NativeRuntime where
  headDim : ℕ
  caches : KVCaches α
  attentionOutput : List α
  graphTokenIds : List ℤ
  graphSlots : List ℤ
  graphBlockTables : List ℤ
  graphSeqLens : List ℤ
  graphIsDecode : List ℤ
  graphContextSlots : List ℤ
  graphContextStartLocs : List ℤ
  decodeGraphs : Dict ℕ DecodeGraph

namespace NativeDevice

/-- `mvllm_create`. `cudaMalloc` leaves in a buffer what its memory held. `cudaMemset` sets
bytes, so every flag of `graph_is_decode` is `0x01010101`. -/
def create [FloatOps α] (args : CreateArgs) (floats : ℕ → α) (ints : ℕ → ℤ) :
    Option (NativeDevice α) := do
  let sizes ← NativeRuntime.create args
  let elements ← args.elements
  let contextStartLocs ← CInt.add args.maxNumSeqs 1
  let maxNumSeqs := args.maxNumSeqs.toNat
  pure
    { sizes with
      headDim := args.headDim.toNat
      caches := ⟨List.replicate elements 0, List.replicate elements 0⟩
      attentionOutput := (List.range (maxNumSeqs * args.headDim.toNat)).map floats
      graphTokenIds := (List.range maxNumSeqs).map ints
      graphSlots := (List.range maxNumSeqs).map ints
      graphBlockTables := (List.range (maxNumSeqs * sizes.graphMaxBlocks)).map ints
      graphSeqLens := (List.range maxNumSeqs).map ints
      graphIsDecode := List.replicate maxNumSeqs 0x01010101
      graphContextSlots := List.replicate maxNumSeqs 0
      graphContextStartLocs := List.replicate contextStartLocs.toNat 0
      decodeGraphs := .empty }

/-- The blocks of 256 threads that `append_kernel` is launched with for `total` cells. -/
def appendBlocks (total : ℤ) : Option ℕ := (CInt.ceilDiv total 256).map Int.toNat

/-- `mvllm_append`, with the status it returns. -/
def append [FloatOps α] (schedule : Launch.Schedule) (device : NativeDevice α)
    (tokenIds slots : List ℤ) (count : ℤ) : Option (ℕ × NativeDevice α) :=
  if count < 0 then some (10, device)
  else do
    let tokenIds ← Buffer.copy tokenIds count.toNat
    let slots ← Buffer.copy slots count.toNat
    let total ← CInt.mul count device.headDim
    if 0 < total then
      let blocks ← appendBlocks total
      let caches ← schedule.launch (blocks * 256)
        (appendKernel tokenIds slots count.toNat device.headDim) device.caches
      pure (0, { device with caches := caches })
    else pure (0, device)

/-- `mvllm_prefill`: one thread of `dense_last_token_attention_kernel`. -/
def prefill [FloatOps α] (device : NativeDevice α) (slots : List ℤ) (count : ℤ) :
    Option (ℕ × NativeDevice α) :=
  if count < 0 then some (20, device)
  else do
    let slots ← Buffer.copy slots count.toNat
    if count = 0 then pure (0, device)
    else
      let row ← lastTokenAttention (Buffer.load device.caches.keyCache)
        (Buffer.load device.caches.valueCache) (fun token => Buffer.load slots token) count.toNat
        device.headDim
      let outputs ← storeRow device.attentionOutput 0 row
      pure (0, { device with attentionOutput := outputs })

/-- `mvllm_decode`: one thread of `paged_last_token_attention_kernel`. -/
def decode [FloatOps α] (device : NativeDevice α) (blockTable : List ℤ)
    (numTableBlocks seqLen : ℤ) : Option (ℕ × NativeDevice α) :=
  if numTableBlocks < 0 ∨ seqLen < 0 then some (30, device)
  else do
    let blockTable ← Buffer.copy blockTable numTableBlocks.toNat
    if seqLen = 0 then pure (0, device)
    else
      let row ← lastTokenAttention (Buffer.load device.caches.keyCache)
        (Buffer.load device.caches.valueCache)
        (fun token => pagedSlot (Buffer.load blockTable) device.blockSize token) seqLen.toNat
        device.headDim
      let outputs ← storeRow device.attentionOutput 0 row
      pure (0, { device with attentionOutput := outputs })

/-- What the attention rows of a batch read, with its arrays on the device. -/
def attentionInputs (device : NativeDevice α) (contextSlots contextStartLocs blockTables : List ℤ)
    (maxBlocks : ℕ) (seqLens isDecode : List ℤ) : AttentionInputs α where
  keyCache := Buffer.load device.caches.keyCache
  valueCache := Buffer.load device.caches.valueCache
  contextSlots := Buffer.load contextSlots
  contextStartLocs := Buffer.load contextStartLocs
  blockTables := Buffer.load blockTables
  maxBlocks := maxBlocks
  seqLens := Buffer.load seqLens
  isDecode := Buffer.load isDecode
  blockSize := device.blockSize
  headDim := device.headDim

/-- `mvllm_attention_batch`. No device has the memory for a negative count of slots. -/
def attentionBatch [FloatOps α] (schedule : Launch.Schedule) (device : NativeDevice α)
    (contextSlots contextStartLocs blockTables : List ℤ) (maxBlocks : ℤ)
    (seqLens isDecode : List ℤ) (numRequests : ℤ) : Option (ℕ × NativeDevice α) :=
  if device.attentionBatchStatus maxBlocks numRequests ≠ 0 then
    some (device.attentionBatchStatus maxBlocks numRequests, device)
  else do
    let contextCount ← Buffer.load contextStartLocs numRequests
    if contextCount < 0 then pure (41, device)
    else
      let contextSlots ← Buffer.copy contextSlots contextCount.toNat
      let starts ← CInt.add numRequests 1
      let contextStartLocs ← Buffer.copy contextStartLocs starts.toNat
      let entries ← CInt.mul numRequests maxBlocks
      let blockTables ← Buffer.copy blockTables entries.toNat
      let seqLens ← Buffer.copy seqLens numRequests.toNat
      let isDecode ← Buffer.copy isDecode numRequests.toNat
      let outputs ← schedule.launch numRequests.toNat
        (batchedLastTokenAttentionKernel
          (device.attentionInputs contextSlots contextStartLocs blockTables maxBlocks.toNat seqLens
            isDecode) numRequests.toNat) device.attentionOutput
      pure (0, { device with attentionOutput := outputs })

/-! ## The decode graph -/

def recordedGraph (device : NativeDevice α) (captureSize : ℕ) : Option DecodeGraph := do
  let total ← CInt.mul captureSize device.headDim
  let blocks ← appendBlocks total
  pure
    { appendBlocks := blocks
      captureSize := captureSize
      headDim := device.headDim
      graphMaxBlocks := device.graphMaxBlocks
      blockSize := device.blockSize }

/-- `get_or_create_decode_graph`, with the graph `mvllm_execute_decode_graph` then launches. -/
def getOrCreateDecodeGraph (device : NativeDevice α) (captureSize : ℕ) :
    Option (DecodeGraph × NativeDevice α) :=
  match device.decodeGraphs.get? captureSize with
  | some graph => some (graph, device)
  | none => do
      let graph ← device.recordedGraph captureSize
      pure (graph, { device with decodeGraphs := device.decodeGraphs.set captureSize graph })

/-- What the attention rows of a replayed graph read. -/
def graphInputs (device : NativeDevice α) (graph : DecodeGraph) : AttentionInputs α where
  keyCache := Buffer.load device.caches.keyCache
  valueCache := Buffer.load device.caches.valueCache
  contextSlots := Buffer.load device.graphContextSlots
  contextStartLocs := Buffer.load device.graphContextStartLocs
  blockTables := Buffer.load device.graphBlockTables
  maxBlocks := graph.graphMaxBlocks
  seqLens := Buffer.load device.graphSeqLens
  isDecode := Buffer.load device.graphIsDecode
  blockSize := graph.blockSize
  headDim := graph.headDim

/-- `cudaGraphLaunch`: the two captured kernels, one after the other. -/
def launchGraph [FloatOps α] (schedule schedule' : Launch.Schedule) (device : NativeDevice α)
    (graph : DecodeGraph) : Option (NativeDevice α) := do
  let caches ← schedule.launch (graph.appendBlocks * 256)
    (appendKernel device.graphTokenIds device.graphSlots graph.captureSize graph.headDim)
    device.caches
  let device := { device with caches := caches }
  let outputs ← schedule'.launch graph.captureSize
    (batchedLastTokenAttentionKernel (device.graphInputs graph) graph.captureSize)
    device.attentionOutput
  pure { device with attentionOutput := outputs }

/-- The row of the input that a row of the padded batch repeats. -/
def sourceRow (numRequests request : ℕ) : ℕ :=
  if request < numRequests then request else numRequests - 1

/-! The arrays of the padded batch. -/

section Padding

variable (numRequests captureSize : ℕ)

/-- `padded_tokens`, and `padded_seq_lens`. -/
def paddedInts (values : List ℤ) : Option (List ℤ) :=
  (List.range captureSize).mapM fun request => Buffer.load values (sourceRow numRequests request)

/-- `padded_slots`. -/
def paddedSlots (physicalCacheSlots : ℕ) (slots : List ℤ) : Option (List ℤ) :=
  (List.range captureSize).mapM fun request =>
    if request < numRequests then Buffer.load slots (sourceRow numRequests request)
    else CInt.add physicalCacheSlots request

/-- The row of a request in `block_tables`. -/
def tableRow (blockTables : List ℤ) (inputMaxBlocks source : ℕ) : Option (List ℤ) :=
  (List.range inputMaxBlocks).mapM fun (block : ℕ) =>
    (CInt.index source inputMaxBlocks block).bind (Buffer.load blockTables)

/-- `padded_tables`. -/
def paddedTables (graphMaxBlocks inputMaxBlocks : ℕ) (blockTables : List ℤ) :
    Option (List (List ℤ)) :=
  (List.range captureSize).mapM fun request => do
    let table ← tableRow blockTables inputMaxBlocks (sourceRow numRequests request)
    pure (table ++ List.replicate (graphMaxBlocks - inputMaxBlocks) (-1))

end Padding

/-- `mvllm_execute_decode_graph`. -/
def executeDecodeGraph [FloatOps α] (schedule schedule' : Launch.Schedule)
    (device : NativeDevice α) (tokenIds slots blockTables : List ℤ) (inputMaxBlocks : ℤ)
    (seqLens : List ℤ) (numRequests captureSize : ℤ) : Option (ℕ × NativeDevice α) :=
  if device.decodeGraphStatus inputMaxBlocks numRequests captureSize ≠ 0 then
    some (device.decodeGraphStatus inputMaxBlocks numRequests captureSize, device)
  else do
    let tokens ← paddedInts numRequests.toNat captureSize.toNat tokenIds
    let slots ← paddedSlots numRequests.toNat captureSize.toNat device.physicalCacheSlots slots
    let seqLens ← paddedInts numRequests.toNat captureSize.toNat seqLens
    let tables ← paddedTables numRequests.toNat captureSize.toNat device.graphMaxBlocks
      inputMaxBlocks.toNat blockTables
    let graphTokenIds ← Buffer.overwrite device.graphTokenIds tokens
    let graphSlots ← Buffer.overwrite device.graphSlots slots
    let graphSeqLens ← Buffer.overwrite device.graphSeqLens seqLens
    let graphBlockTables ← Buffer.overwrite device.graphBlockTables tables.flatten
    let (graph, device) ← getOrCreateDecodeGraph { device with
      graphTokenIds := graphTokenIds
      graphSlots := graphSlots
      graphSeqLens := graphSeqLens
      graphBlockTables := graphBlockTables } captureSize.toNat
    let device ← launchGraph schedule schedule' device graph
    pure (0, device)

/-! ## The calls of a Worker -/

/-- A call through the C interface, on any schedules. -/
inductive Call where
  | append (schedule : Launch.Schedule) (tokenIds slots : List ℤ) (count : ℤ)
  | prefill (slots : List ℤ) (count : ℤ)
  | decode (blockTable : List ℤ) (numTableBlocks seqLen : ℤ)
  | attentionBatch (schedule : Launch.Schedule) (contextSlots contextStartLocs blockTables : List ℤ)
      (maxBlocks : ℤ) (seqLens isDecode : List ℤ) (numRequests : ℤ)
  | executeDecodeGraph (schedule schedule' : Launch.Schedule) (tokenIds slots blockTables : List ℤ)
      (inputMaxBlocks : ℤ) (seqLens : List ℤ) (numRequests captureSize : ℤ)

def call [FloatOps α] (device : NativeDevice α) : Call → Option (ℕ × NativeDevice α)
  | .append schedule tokenIds slots count => device.append schedule tokenIds slots count
  | .prefill slots count => device.prefill slots count
  | .decode blockTable numTableBlocks seqLen => device.decode blockTable numTableBlocks seqLen
  | .attentionBatch schedule contextSlots contextStartLocs blockTables maxBlocks seqLens isDecode
      numRequests =>
      device.attentionBatch schedule contextSlots contextStartLocs blockTables maxBlocks seqLens
        isDecode numRequests
  | .executeDecodeGraph schedule schedule' tokenIds slots blockTables inputMaxBlocks seqLens
      numRequests captureSize =>
      device.executeDecodeGraph schedule schedule' tokenIds slots blockTables inputMaxBlocks
        seqLens numRequests captureSize

/-- A call that stays within its buffers, and the status it returns. -/
def CallStep [FloatOps α] (device : NativeDevice α) (c : Call) (statuses : List ℕ)
    (device' : NativeDevice α) : Prop :=
  ∃ status, device.call c = some (status, device') ∧ statuses = [status]

end NativeDevice

/-! ## The adapter -/

/-- Natural numbers as integers. -/
def intsOf (values : List ℕ) : List ℤ := values.map fun value : ℕ => (value : ℤ)

namespace CudaKernelRuntime

/-- `_array`. An `int` keeps the low bits of each value. -/
def array (values : List ℤ) : List ℤ := values.map CInt.wrap

/-- `append_kv`. -/
def appendDevice [FloatOps α] (schedule : Launch.Schedule) (device : NativeDevice α)
    (tokenIds slots : List ℕ) : Option (ℕ × NativeDevice α) :=
  device.append schedule (array (intsOf tokenIds)) (array (intsOf slots))
    (CInt.wrap tokenIds.length)

/-- `attention_batch`, for a batch with a request. -/
def attentionBatchDevice [FloatOps α] (schedule : Launch.Schedule) (device : NativeDevice α)
    (batch : GPUInputBatch) : Option (ℕ × NativeDevice α) :=
  device.attentionBatch schedule (array (intsOf batch.contextSlotMapping))
    (array (intsOf batch.contextStartLoc)) (array batch.blockTables.flatten)
    (CInt.wrap (batch.blockTables.headD []).length) (array (intsOf batch.seqLens))
    (array (batch.isDecode.map fun value => if value then 1 else 0))
    (CInt.wrap batch.numRequests)

/-- `execute_decode_graph`, for a uniform decode batch. -/
def executeDecodeGraphDevice [FloatOps α] (schedule schedule' : Launch.Schedule)
    (device : NativeDevice α) (batch : GPUInputBatch) (captureSize : ℕ) :
    Option (ℕ × NativeDevice α) :=
  device.executeDecodeGraph schedule schedule' (array (intsOf batch.inputIds))
    (array (intsOf batch.slotMapping)) (array batch.blockTables.flatten)
    (CInt.wrap (batch.blockTables.headD []).length) (array (intsOf batch.seqLens))
    (CInt.wrap batch.numRequests) (CInt.wrap captureSize)

end CudaKernelRuntime

end MiniVLLM
