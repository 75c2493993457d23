import MiniVLLM.Library.CInt
import MiniVLLM.Library.Reduction
import MiniVLLM.Library.Tiling
import MiniVLLM.Model.NativeOps
import MiniVLLM.Model.PagedKV

/-! # The paged decode kernel

The standalone program for paged decoding: it fills the caches through block tables, decodes
with the warps of a block, and compares with a dense reference. Between two barriers the
threads of a block, or its warps, run in any order; the lanes of a warp move in step. An `int`
that overflows gives no result, and a launch that the device rejects stores nothing. -/

namespace MiniVLLM

namespace PagedAttention

open Launch Reduction Strided

/-- `kWarpSize`. -/
def warpSize : ℕ := 32

structure Shape where
  batchSize : ℕ
  queryHeads : ℕ
  kvHeads : ℕ
  headDim : ℕ
  blockSize : ℕ
  maxSeqLen : ℕ
  maxBlocksPerSeq : ℕ

namespace Shape

variable (shape : Shape)

/-- The K/V head that a query head reads. -/
def kvHead (qHead : ℕ) : ℕ := qHead / (shape.queryHeads / shape.kvHeads)

/-- `((block * size + offset) * kv_heads + kv_head) * head_dim + dim`, for the blocks of the caches
and for the sequences of the dense K/V. -/
def kvIdx (block : ℤ) (size offset kvHead dim : ℕ) : Option ℤ := do
  let slot ← CInt.index block size offset
  let row ← CInt.index slot shape.kvHeads kvHead
  CInt.index row shape.headDim dim

/-- An index of the query and of the output. -/
def rowIdx (seqIdx qHead dim : ℕ) : Option ℤ := do
  let row ← CInt.index seqIdx shape.queryHeads qHead
  CInt.index row shape.headDim dim

end Shape

structure SequenceBlocks where
  length : ℕ
  blocks : List ℕ

/-! ## Block tables -/

/-- `freeBlocks` lists the vector from its end: its head is the block `back()` returns. -/
structure BlockAllocator where
  freeBlocks : List ℕ

namespace BlockAllocator

/-- The constructor. -/
def construct (totalBlocks : ℕ) : Except PagedKV.CppError BlockAllocator :=
  if totalBlocks = 0 then .error (.invalidArgument "total_blocks must be positive")
  else .ok ⟨List.range totalBlocks⟩

def allocate (allocator : BlockAllocator) : Except PagedKV.CppError (ℕ × BlockAllocator) :=
  match allocator.freeBlocks with
  | [] => .error (.runtimeError "paged KV cache OOM: no free physical blocks")
  | block :: freeBlocks => .ok (block, ⟨freeBlocks⟩)

end BlockAllocator

/-- What the loop of `main` over the sequences changes. -/
structure Tables where
  allocator : BlockAllocator
  sequences : List SequenceBlocks
  blockTables : List ℤ

/-- One round of the loop over the logical blocks of a sequence. -/
def allocateLogical (shape : Shape) (batch : ℕ) (state : BlockAllocator × List ℕ × List ℤ)
    (logical : ℕ) : Option (BlockAllocator × List ℕ × List ℤ) := do
  let (physical, allocator) ← state.1.allocate.toOption
  let index ← CInt.index batch shape.maxBlocksPerSeq logical
  let blockTables ← Buffer.store state.2.2 index (physical : ℤ)
  pure (allocator, state.2.1 ++ [physical], blockTables)

/-- One round of the loop over the sequences, each with a length of its own. -/
def allocateSequence (shape : Shape) (lengths : ℕ → ℕ) (tables : Tables) (batch : ℕ) :
    Option Tables := do
  let blocks ← CInt.ceilDiv (lengths batch) shape.blockSize
  let (allocator, blocks, blockTables) ← (List.range blocks.toNat).foldlM
    (allocateLogical shape batch) (tables.allocator, [], tables.blockTables)
  pure ⟨allocator, tables.sequences ++ [⟨lengths batch, blocks⟩], blockTables⟩

/-- The tables `main` builds. -/
def buildTables (shape : Shape) (lengths : ℕ → ℕ) (totalBlocks : ℕ) : Option Tables := do
  let allocator ← (BlockAllocator.construct totalBlocks).toOption
  let entries ← CInt.mul shape.batchSize shape.maxBlocksPerSeq
  (List.range shape.batchSize).foldlM (allocateSequence shape lengths)
    ⟨allocator, [], List.replicate entries.toNat (-1)⟩

/-! ## Filling the caches -/

variable {α : Type}

/-- `append_kv_cache_kernel`. -/
def appendKvCacheKernel (key value : List α) (tokenOffsets : List ℕ) (blockTables : List ℤ)
    (seqIdx : ℕ) (shape : Shape) (totalTokens : ℕ) (caches : KVCaches α) (linear : ℕ) :
    Option (KVCaches α) := do
  let elemsPerToken ← CInt.mul shape.kvHeads shape.headDim
  let totalElems ← CInt.mul totalTokens elemsPerToken
  if totalElems ≤ linear then pure caches
  else
    let tokenIdx := linear / elemsPerToken.toNat
    let within := linear % elemsPerToken.toNat
    let kvHead := within / shape.headDim
    let dim := within % shape.headDim
    let absolutePos ← tokenOffsets[tokenIdx]?
    let physicalBlock ← (CInt.index seqIdx shape.maxBlocksPerSeq
      (absolutePos / shape.blockSize : ℕ)).bind (Buffer.load blockTables)
    let cacheIdx ← shape.kvIdx physicalBlock shape.blockSize (absolutePos % shape.blockSize)
      kvHead dim
    let keyEntry ← Buffer.load key linear
    let valueEntry ← Buffer.load value linear
    let keyCache ← Buffer.store caches.keyCache cacheIdx keyEntry
    let valueCache ← Buffer.store caches.valueCache cacheIdx valueEntry
    pure ⟨keyCache, valueCache⟩

/-- `kv_elems_per_seq`. -/
def Shape.kvElemsPerSeq (shape : Shape) : Option ℤ := do
  let rows ← CInt.mul shape.maxSeqLen shape.kvHeads
  CInt.mul rows shape.headDim

/-- The dense K/V rows of a sequence, as they are copied to the device. -/
def denseRows (kvElems : ℕ) (dense : List α) (batch : ℕ) : Option (List α) :=
  Buffer.copy (dense.drop (batch * kvElems)) kvElems

/-- One round of the loop of `main` that fills the caches. -/
def fillSequence (schedule : ℕ → Launch.Schedule) (shape : Shape) (kvElems appendBlocks : ℕ)
    (key value : List α) (tables : Tables) (caches : KVCaches α) (batch : ℕ) :
    Option (KVCaches α) := do
  let sequence ← tables.sequences[batch]?
  let denseKey ← denseRows kvElems key batch
  let denseValue ← denseRows kvElems value batch
  if (Launch.Shape.row appendBlocks 256).Launchable then
    (schedule batch).launch (appendBlocks * 256)
      (appendKvCacheKernel denseKey denseValue (List.range shape.maxSeqLen) tables.blockTables batch
        shape sequence.length) caches
  else pure caches

def fillCache (schedule : ℕ → Launch.Schedule) (shape : Shape) (key value : List α)
    (tables : Tables) (caches : KVCaches α) : Option (KVCaches α) := do
  let kvElems ← shape.kvElemsPerSeq
  let appendBlocks ← CInt.ceilDiv kvElems 256
  (List.range shape.batchSize).foldlM
    (fillSequence schedule shape kvElems.toNat appendBlocks.toNat key value tables) caches

/-! ## Decoding -/

/-- The launch of `paged_decode_attention_kernel`. -/
def Shape.decodeLaunch (shape : Shape) (warps : ℕ) : Launch.Shape where
  gridX := shape.batchSize
  gridY := shape.queryHeads
  threads := warps * warpSize
  sharedBytes := (shape.headDim + warps * shape.headDim + 2 * warps + 2) * 4

/-- What `paged_decode_attention_kernel` reads. -/
structure DecodeInputs (α : Type) where
  shape : Shape
  query : List α
  kCache : List α
  vCache : List α
  blockTables : List ℤ
  seqLens : List ℕ

/-- What `main` passes to the kernel. -/
def decodeInputs (shape : Shape) (query : List α) (tables : Tables) (caches : KVCaches α) :
    DecodeInputs α :=
  ⟨shape, query, caches.keyCache, caches.valueCache, tables.blockTables,
    tables.sequences.map SequenceBlocks.length⟩

/-- The shared memory of a block. -/
inductive SharedCell where
  | outAccum (dim : ℕ)
  | warpOut (index : ℕ)
  | warpSum (warp : ℕ)
  | warpMax (warp : ℕ)
  | globalStats (index : ℕ)
  deriving DecidableEq

/-- The registers a warp has in common, and the shared memory. Every lane computes its maximum
and its sum from the score that lane zero broadcasts. -/
structure WarpState (α : Type) where
  localMax : α
  localSum : α
  shared : SharedCell → α

section Kernel

variable [FloatOps α]

/-- `warp_sum`. -/
def warpSum (value : ℕ → α) : ℕ → α :=
  (halvings (warpSize / 2)).foldl
    (fun value offset lane => value lane + shflDown warpSize value offset lane) value

/-- The dimensions of a head, as the lanes of a warp take them. -/
def laneDims (headDim : ℕ) : List ℕ :=
  (List.range warpSize).flatMap fun lane => strided lane headDim warpSize

/-- What a thread does before the first barrier, of `warps * 32` threads. -/
def initThread (headDim warps : ℕ) (shared : SharedCell → α) (thread : ℕ) : SharedCell → α :=
  let shared := sweep SharedCell.outAccum (fun _ _ => (0 : α))
    (strided thread headDim (warps * warpSize)) shared
  let shared := if thread < warps then
      Function.update (Function.update shared (.warpSum thread) 0) (.warpMax thread)
        FloatOps.negInfinity
    else shared
  sweep SharedCell.warpOut (fun _ _ => (0 : α))
    (strided thread (warps * headDim) (warps * warpSize)) shared

namespace DecodeInputs

variable (inputs : DecodeInputs α) (seqIdx qHead warps : ℕ)

/-- `k_idx` and `v_idx`, for the head that `qHead` reads. -/
def cacheIdx (physicalBlock : ℤ) (blockOffset dim : ℕ) : Option ℤ :=
  inputs.shape.kvIdx physicalBlock inputs.shape.blockSize blockOffset (inputs.shape.kvHead qHead)
    dim

/-- The part of a score that a lane adds up. -/
def laneScore (physicalBlock : ℤ) (blockOffset lane : ℕ) : Option α :=
  (strided lane inputs.shape.headDim warpSize).foldlM
    (fun score dim => do
      let query ← (inputs.shape.rowIdx seqIdx qHead dim).bind (Buffer.load inputs.query)
      let key ← (inputs.cacheIdx qHead physicalBlock blockOffset dim).bind
        (Buffer.load inputs.kCache)
      pure (score + query * key)) (0 : α)

/-- One turn of the token loop of a warp. -/
def attendToken (warp : ℕ) (state : WarpState α) (token : ℕ) : Option (WarpState α) := do
  let physicalBlock ← (CInt.index seqIdx inputs.shape.maxBlocksPerSeq
    (token / inputs.shape.blockSize : ℕ)).bind (Buffer.load inputs.blockTables)
  let blockOffset := token % inputs.shape.blockSize
  let laneScores ← (List.range warpSize).mapM
    (inputs.laneScore seqIdx qHead physicalBlock blockOffset)
  let score := warpSum (fun lane => laneScores.getD lane 0) 0 *
    FloatOps.rsqrt ((inputs.shape.headDim : ℤ) : α)
  let newMax := max state.localMax score
  let alpha := OnlineSoftmax.decay state.localMax newMax
  let beta := FloatOps.exp (score - newMax)
  let shared ← (laneDims inputs.shape.headDim).foldlM
    (fun shared dim => do
      let value ← (inputs.cacheIdx qHead physicalBlock blockOffset dim).bind
        (Buffer.load inputs.vCache)
      let cell := SharedCell.warpOut (warp * inputs.shape.headDim + dim)
      pure (Function.update shared cell (alpha * shared cell + beta * value))) state.shared
  pure ⟨newMax, alpha * state.localSum + beta, shared⟩

/-- A warp between the first two barriers. -/
def attendWarp (seqLen : ℕ) (shared : SharedCell → α) (warp : ℕ) :
    Option (SharedCell → α) := do
  let state ← (strided warp seqLen warps).foldlM (inputs.attendToken seqIdx qHead warp)
    ⟨FloatOps.negInfinity, 0, shared⟩
  pure (Function.update (Function.update state.shared (.warpSum warp) state.localSum)
    (.warpMax warp) state.localMax)

end DecodeInputs

/-- Thread zero between the second and the third barrier. -/
def mergeThread (warps : ℕ) (shared : SharedCell → α) (thread : ℕ) : SharedCell → α :=
  if thread = 0 then
    let globalMax := (List.range warps).foldl
      (fun globalMax warp => max globalMax (shared (.warpMax warp))) FloatOps.negInfinity
    let globalSum := (List.range warps).foldl
      (fun globalSum warp => if FloatOps.isNegInfinity (shared (.warpMax warp)) then globalSum
        else globalSum + FloatOps.exp (shared (.warpMax warp) - globalMax) *
          shared (.warpSum warp)) 0
    Function.update (Function.update shared (.globalStats 0) globalSum) (.globalStats 1) globalMax
  else shared

namespace DecodeInputs

variable (inputs : DecodeInputs α) (seqIdx qHead warps : ℕ)

/-- The output of a dimension, from the parts of all warps. -/
def mergedOutput (shared : SharedCell → α) (dim : ℕ) : α :=
  (List.range warps).foldl
    (fun value warp => if FloatOps.isNegInfinity (shared (.warpMax warp)) then value
      else value + FloatOps.exp (shared (.warpMax warp) - shared (.globalStats 1)) *
        shared (.warpOut (warp * inputs.shape.headDim + dim))) 0 / shared (.globalStats 0)

/-- A thread after the last barrier. -/
def writeThread (shared : SharedCell → α) (outputs : List α) (thread : ℕ) : Option (List α) :=
  (strided thread inputs.shape.headDim (warps * warpSize)).foldlM
    (fun outputs dim => (inputs.shape.rowIdx seqIdx qHead dim).bind fun index =>
      Buffer.store outputs index (inputs.mergedOutput warps shared dim)) outputs

/-- A block, from the shared memory it finds. `schedule` gives the order of its threads, or of
its warps, before each barrier. -/
def runBlock (schedule : ℕ → Launch.Schedule) (garbage : SharedCell → α) (outputs : List α)
    (block : ℕ) : Option (List α) :=
  let seqIdx := block / inputs.shape.queryHeads
  let qHead := block % inputs.shape.queryHeads
  if inputs.shape.batchSize ≤ seqIdx ∨ inputs.shape.queryHeads ≤ qHead then some outputs
  else do
    let seqLen ← inputs.seqLens[seqIdx]?
    let shared ← (schedule 0).launch (warps * warpSize)
      (fun shared thread => some (initThread inputs.shape.headDim warps shared thread)) garbage
    let shared ← (schedule 1).launch warps (inputs.attendWarp seqIdx qHead warps seqLen) shared
    let shared ← (schedule 2).launch (warps * warpSize)
      (fun shared thread => some (mergeThread warps shared thread)) shared
    (schedule 3).launch (warps * warpSize) (inputs.writeThread seqIdx qHead warps shared) outputs

/-- `paged_decode_attention_kernel`, on its grid of `batch_size` times `query_heads` blocks. -/
def pagedDecodeAttention (blocks : Launch.Schedule) (threads : ℕ → ℕ → Launch.Schedule)
    (garbage : ℕ → SharedCell → α) (outputs : List α) : Option (List α) :=
  if (inputs.shape.decodeLaunch warps).Launchable then
    blocks.launch (inputs.shape.batchSize * inputs.shape.queryHeads)
      (fun outputs block => inputs.runBlock warps (threads block) (garbage block) outputs block)
      outputs
  else some outputs

end DecodeInputs

/-! ## The reference -/

/-- The score of a token and its value row, in the dense K/V. -/
def referenceToken (shape : Shape) (query key value : List α) (batch qHead token : ℕ) :
    Option (α × (ℕ → α)) := do
  let score ← (List.range shape.headDim).foldlM
    (fun score (dim : ℕ) => do
      let query ← (shape.rowIdx batch qHead dim).bind (Buffer.load query)
      let key ← (shape.kvIdx batch shape.maxSeqLen token (shape.kvHead qHead) dim).bind
        (Buffer.load key)
      pure (score + query * key)) (0 : α)
  let row ← (List.range shape.headDim).mapM fun dim =>
    (shape.kvIdx batch shape.maxSeqLen token (shape.kvHead qHead) dim).bind (Buffer.load value)
  pure (score * (1.0 / FloatOps.sqrt ((shape.headDim : ℤ) : α)), fun dim => row.getD dim 0)

def referenceRow (shape : Shape) (query key value : List α) (sequences : List SequenceBlocks)
    (batch qHead : ℕ) : Option (List α) := do
  let sequence ← sequences[batch]?
  let tokens ← (List.range sequence.length).mapM
    (referenceToken shape query key value batch qHead)
  pure ((List.range shape.headDim).map (OnlineSoftmax.twoPass tokens))

/-- `reference_decode`. -/
def referenceDecode (shape : Shape) (query key value : List α) (sequences : List SequenceBlocks) :
    Option (List α) := do
  let rows ← (List.range shape.batchSize).mapM fun batch =>
    (List.range shape.queryHeads).mapM (referenceRow shape query key value sequences batch)
  pure rows.flatten.flatten

end Kernel

end PagedAttention

end MiniVLLM
