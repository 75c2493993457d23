import MiniVLLM.Library.Reduction
import MiniVLLM.Model.Llama
import MiniVLLM.Model.NativeOps

/-! # The attention backends

Attention on the metadata of a flat batch, by PyTorch operations on whole tensors and by the
kernels of the CUDA extension. A tensor is the list of its entries in row-major order. PyTorch
indexes it with 64 bits, the kernels with `int`s. No result means an exception, an access outside
of a tensor, or an `int` that overflows. -/

namespace MiniVLLM

open Launch NativeInts Reduction

/-- The tensors and sizes that `forward` receives, beside the caches. -/
structure AttentionArgs (α : Type) where
  totalTokens : ℕ
  cacheSlots : ℕ
  queryHeads : ℕ
  kvHeads : ℕ
  headDim : ℕ
  query : List α
  key : List α
  value : List α
  metadata : AttentionMetadata

variable {α : Type}

namespace AttentionArgs

variable (args : AttentionArgs α)

/-- The entries of a token in a cache. -/
def elementsPerToken : ℕ := args.kvHeads * args.headDim

/-- Query heads for each K/V head. -/
def groups : ℕ := args.queryHeads / args.kvHeads

/-- An index of the query and of the output. -/
def queryOffset (token queryHead dim : ℕ) : ℕ :=
  (token * args.queryHeads + queryHead) * args.headDim + dim

end AttentionArgs

/-! ## PyTorch -/

/-- What a scaled dot product attention takes and gives: queries, keys and values by head, the
mask by query. -/
abbrev ScaledDotProductAttention (α : Type) :=
  List (List (List α)) → List (List (List α)) → List (List (List α)) → List (List Bool) →
    List (List (List α))

namespace TorchAttentionBackend

/-- One row of a tensor whose rows have `width` entries. -/
def tensorRow (tensor : List α) (width row : ℕ) : Option (List α) :=
  (List.range width).mapM fun i => Buffer.load tensor (row * width + i : ℕ)

/-- `values[mask]`. -/
def maskSelect {β : Type} (values : List β) (mask : List Bool) : Option (List β) :=
  if values.length = mask.length then
    some ((values.zip mask).filterMap fun (value, active) => if active then some value else none)
  else none

/-- `index_copy_(0, slots, rows)`, on a tensor of `size` rows. It takes no negative index. -/
def indexCopy (size width : ℕ) (tensor : List α) (slots : List ℤ) (rows : List (List α)) :
    Option (List α) :=
  if slots.length = rows.length then
    (slots.zip rows).foldlM
      (fun tensor (slot, row) =>
        if 0 ≤ slot ∧ slot < size then storeRow tensor (slot.toNat * width) row else none)
      tensor
  else none

/-- An index of a dimension of `size` entries. Negative ones count from its end. -/
def wrapIndex (size : ℕ) (index : ℤ) : Option ℕ :=
  if 0 ≤ index then if index < size then some index.toNat else none
  else if 0 ≤ size + index then some (size + index).toNat else none

/-- `repeat_interleave`. -/
def repeatInterleave {β : Type} (values : List β) (repeats : ℕ) : List β :=
  values.flatMap (List.replicate repeats)

variable (args : AttentionArgs α)

/-- `block_table[positions // block_size].long() * block_size + positions % block_size`. -/
def slotOf (request position : ℕ) : Option ℤ := do
  let blockTable ← args.metadata.blockTables[request]?
  let block ← blockTable[position / args.metadata.blockSize]?
  pure (block * args.metadata.blockSize + (position % args.metadata.blockSize : ℕ))

/-- `cache[slots]`, repeated for the query heads and transposed. -/
def gatherHeads (cache : List α) (slots : List ℤ) : Option (List (List (List α))) := do
  let slots ← slots.mapM (wrapIndex args.cacheSlots)
  let heads ← (List.range args.kvHeads).mapM fun kvHead =>
    slots.mapM fun slot => tensorRow cache args.headDim (slot * args.kvHeads + kvHead)
  pure (if 1 < args.groups then repeatInterleave heads args.groups else heads)

/-- `query[query_start:query_end].transpose(0, 1)`. -/
def queryRows (start stop : ℕ) : Option (List (List (List α))) :=
  (List.range args.queryHeads).mapM fun queryHead =>
    (List.range' start (stop - start)).mapM fun token =>
      tensorRow args.query args.headDim (token * args.queryHeads + queryHead)

/-- `positions.unsqueeze(0) <= query_positions.unsqueeze(1)`. -/
def causalMask (start stop seqLen : ℕ) : List (List Bool) :=
  ((args.metadata.positions.drop start).take (stop - start)).map fun queryPosition =>
    (List.range seqLen).map fun position => decide (position ≤ queryPosition)

/-- The row of a token and head. -/
def assignRow (start : ℕ) (result : List (List (List α))) (outputs : List α) (place : ℕ × ℕ) :
    Option (List α) := do
  let rows ← result[place.2]?
  let row ← rows[place.1 - start]?
  if row.length = args.headDim then
    storeRow outputs (args.queryOffset place.1 place.2 0) row
  else none

/-- `outputs[query_start:query_end] = result.squeeze(0).transpose(0, 1)`, row by row. -/
def assignRows (start stop : ℕ) (result : List (List (List α))) (outputs : List α) :
    Option (List α) :=
  ((List.range' start (stop - start)).product (List.range args.queryHeads)).foldlM
    (assignRow args start result) outputs

/-- One turn of the loop over the requests. -/
def attendRequest (sdpa : ScaledDotProductAttention α) (caches : KVCaches α) (outputs : List α)
    (request : ℕ) : Option (List α) := do
  let start ← args.metadata.queryStartLoc[request]?
  let stop ← args.metadata.queryStartLoc[request + 1]?
  if start = stop then pure outputs
  else if ((args.metadata.activeMask.drop start).take (stop - start)).any id = false then
    pure outputs
  else
    let seqLen ← args.metadata.seqLens[request]?
    let slots ← (List.range seqLen).mapM (slotOf args request)
    let requestKey ← gatherHeads args caches.keyCache slots
    let requestValue ← gatherHeads args caches.valueCache slots
    let requestQuery ← queryRows args start stop
    assignRows args start stop
      (sdpa requestQuery requestKey requestValue (causalMask args start stop seqLen)) outputs

/-- The two calls of `index_copy_`. -/
def appendKv (caches : KVCaches α) : Option (KVCaches α) := do
  let slots ← maskSelect args.metadata.slotMapping args.metadata.activeMask
  let keys ← (List.range args.totalTokens).mapM (tensorRow args.key args.elementsPerToken)
  let keys ← maskSelect keys args.metadata.activeMask
  let values ← (List.range args.totalTokens).mapM (tensorRow args.value args.elementsPerToken)
  let values ← maskSelect values args.metadata.activeMask
  let keyCache ← indexCopy args.cacheSlots args.elementsPerToken caches.keyCache slots keys
  let valueCache ← indexCopy args.cacheSlots args.elementsPerToken caches.valueCache slots values
  pure ⟨keyCache, valueCache⟩

/-- `forward`. -/
def forward [Zero α] (sdpa : ScaledDotProductAttention α) (caches : KVCaches α) :
    Option (KVCaches α × List α) := do
  let caches ← appendKv args caches
  if args.kvHeads = 0 ∨ args.queryHeads % args.kvHeads ≠ 0 then none
  else
    let outputs ← (List.range args.metadata.seqLens.length).foldlM
      (attendRequest args sdpa caches) (List.replicate args.query.length 0)
    pure (caches, outputs)

end TorchAttentionBackend

/-! ## CUDA -/

namespace CudaAttentionBackend

/-- `kThreads`. -/
def kThreads : ℕ := 256

/-- `append_kv_kernel`. -/
def appendKvKernel (args : AttentionArgs α) (caches : KVCaches α) (linear : ℕ) :
    Option (KVCaches α) := do
  let elementsPerToken ← CInt.mul args.kvHeads args.headDim
  let totalElements ← CInt.mul args.totalTokens elementsPerToken
  if totalElements ≤ linear then pure caches
  else
    let active ← args.metadata.activeMask[linear / args.elementsPerToken]?
    if active = false then pure caches
    else
      let cacheIndex ←
        appendCacheIndex (Buffer.load args.metadata.slotMapping) elementsPerToken linear
      let keyEntry ← Buffer.load args.key linear
      let valueEntry ← Buffer.load args.value linear
      let keyCache ← Buffer.store caches.keyCache cacheIndex keyEntry
      let valueCache ← Buffer.store caches.valueCache cacheIndex valueEntry
      pure ⟨keyCache, valueCache⟩

/-- The registers of the threads of a block, and its shared memory. -/
inductive BlockCell where
  | accumulator (thread : ℕ)
  | rowMax (thread : ℕ)
  | rowSum (thread : ℕ)
  | reduction (index : ℕ)
  | stats (index : ℕ)
  deriving DecidableEq

/-- What the threads of a block do between two barriers. -/
inductive Phase where
  | product
  | halve (stride : ℕ)
  | stats
  | accumulate
  | output
  deriving DecidableEq

/-- The orders of the threads of a block, by turn of the token loop and phase. -/
abbrev BlockSchedule := ℕ → Phase → Launch.Schedule

/-- What `online_paged_attention` reads. -/
structure RowArgs (α : Type) where
  query : List α
  keyCache : List α
  valueCache : List α
  blockTable : ℤ → Option ℤ
  contextLen : ℕ
  blockSize : ℤ
  queryHeads : ℕ
  kvHeads : ℕ
  headDim : ℕ
  queryIndex : ℕ
  queryHead : ℕ

namespace RowArgs

variable (args : RowArgs α)

def kvHead : ℕ := args.queryHead / (args.queryHeads / args.kvHeads)

/-- `query_offset`, and `output_offset`. -/
def queryOffset (dim : ℕ) : Option ℤ := do
  let row ← CInt.index args.queryIndex args.queryHeads args.queryHead
  CInt.index row args.headDim dim

/-- `key_offset`, and `value_offset`. -/
def cacheOffset (slot : ℤ) (dim : ℕ) : Option ℤ := do
  let row ← CInt.index slot args.kvHeads args.kvHead
  CInt.index row args.headDim dim

variable [FloatOps α]

def productThread (token : ℕ) (block : BlockCell → α) (dim : ℕ) : Option (BlockCell → α) := do
  let product ←
    if dim < args.headDim then do
      let slot ← pagedSlot args.blockTable args.blockSize token
      let query ← (args.queryOffset dim).bind (Buffer.load args.query)
      let key ← (args.cacheOffset slot dim).bind (Buffer.load args.keyCache)
      pure (query * key)
    else pure 0
  pure (Function.update block (.reduction dim) product)

def halveThread (stride : ℕ) (block : BlockCell → α) (dim : ℕ) : BlockCell → α :=
  if dim < stride then
    Function.update block (.reduction dim) (block (.reduction dim) + block (.reduction (dim + stride)))
  else block

def statsThread (block : BlockCell → α) (dim : ℕ) : BlockCell → α :=
  if dim = 0 then
    let score := block (.reduction 0) * FloatOps.rsqrt ((args.headDim : ℤ) : α)
    let newMax := max (block (.rowMax 0)) score
    let decay := OnlineSoftmax.decay (block (.rowMax 0)) newMax
    let weight := FloatOps.exp (score - newMax)
    Function.update (Function.update (Function.update (Function.update block
      (.stats 0) decay) (.stats 1) weight) (.stats 2) newMax)
      (.stats 3) (decay * block (.rowSum 0) + weight)
  else block

def accumulateThread (token : ℕ) (block : BlockCell → α) (dim : ℕ) : Option (BlockCell → α) := do
  let block ←
    if dim < args.headDim then do
      let slot ← pagedSlot args.blockTable args.blockSize token
      let value ← (args.cacheOffset slot dim).bind (Buffer.load args.valueCache)
      pure (Function.update block (.accumulator dim)
        (block (.stats 0) * block (.accumulator dim) + block (.stats 1) * value))
    else pure block
  pure (Function.update (Function.update block (.rowMax dim) (block (.stats 2)))
    (.rowSum dim) (block (.stats 3)))

/-- One turn of the token loop: the phases between its barriers. -/
def attendToken (schedule : BlockSchedule) (block : BlockCell → α) (token : ℕ) :
    Option (BlockCell → α) := do
  let block ← (schedule token .product).launch kThreads (args.productThread token) block
  let block ← (halvings (kThreads / 2)).foldlM
    (fun block stride => (schedule token (.halve stride)).launch kThreads
      (fun block dim => some (halveThread stride block dim)) block) block
  let block ← (schedule token .stats).launch kThreads
    (fun block dim => some (args.statsThread block dim)) block
  (schedule token .accumulate).launch kThreads (args.accumulateThread token) block

def outputThread (block : BlockCell → α) (outputs : List α) (dim : ℕ) : Option (List α) :=
  if dim < args.headDim then do
    let outputOffset ← args.queryOffset dim
    Buffer.store outputs outputOffset (block (.accumulator dim) / block (.rowSum dim))
  else some outputs

/-- The registers at the start. The shared memory holds anything. -/
def startBlock (garbage : BlockCell → α) : BlockCell → α
  | .accumulator _ => 0
  | .rowMax _ => FloatOps.negInfinity
  | .rowSum _ => 0
  | cell => garbage cell

/-- `online_paged_attention`. -/
def onlinePagedAttention (schedule : BlockSchedule) (garbage : BlockCell → α) (outputs : List α) :
    Option (List α) := do
  let block ← (List.range args.contextLen).foldlM (args.attendToken schedule) (startBlock garbage)
  (schedule args.contextLen .output).launch kThreads (args.outputThread block) outputs

end RowArgs

variable (args : AttentionArgs α)

/-- The arguments of a row. `block_tables + request * max_blocks` is where its table starts. A
block size is cast to `int`. -/
def rowArgs (caches : KVCaches α) (request contextLen token queryHead : ℕ) : RowArgs α where
  query := args.query
  keyCache := caches.keyCache
  valueCache := caches.valueCache
  blockTable := fun block => do
    let start ← CInt.mul request (args.metadata.blockTables.headD []).length
    Buffer.load args.metadata.blockTables.flatten (start + block)
  contextLen := contextLen
  blockSize := CInt.wrap args.metadata.blockSize
  queryHeads := args.queryHeads
  kvHeads := args.kvHeads
  headDim := args.headDim
  queryIndex := token
  queryHead := queryHead

variable [FloatOps α]

/-- A block of `flash_prefill_kernel`. -/
def flashPrefillKernel (caches : KVCaches α) (schedule : ℕ → BlockSchedule)
    (garbage : ℕ → BlockCell → α) (outputs : List α) (block : ℕ) : Option (List α) :=
  let token := block / args.queryHeads
  let queryHead := block % args.queryHeads
  if args.totalTokens ≤ token ∨ args.queryHeads ≤ queryHead then some outputs
  else do
    let active ← args.metadata.activeMask[token]?
    if active = false then pure outputs
    else
      let request ← args.metadata.requestIndices[token]?
      let decode ← args.metadata.isDecode[request]?
      if decode then pure outputs
      else
        let position ← args.metadata.positions[token]?
        let contextLen ← CInt.add position 1
        (rowArgs args caches request contextLen.toNat token queryHead).onlinePagedAttention
          (schedule block) (garbage block) outputs

/-- A block of `paged_decode_kernel`. -/
def pagedDecodeKernel (caches : KVCaches α) (schedule : ℕ → BlockSchedule)
    (garbage : ℕ → BlockCell → α) (outputs : List α) (block : ℕ) : Option (List α) :=
  let request := block / args.queryHeads
  let queryHead := block % args.queryHeads
  if args.metadata.seqLens.length ≤ request ∨ args.queryHeads ≤ queryHead then some outputs
  else do
    let decode ← args.metadata.isDecode[request]?
    if decode = false then pure outputs
    else
      let queryIndex ← args.metadata.queryStartLoc[request]?
      let active ← args.metadata.activeMask[queryIndex]?
      if active = false then pure outputs
      else
        let seqLen ← args.metadata.seqLens[request]?
        (rowArgs args caches request seqLen queryIndex queryHead).onlinePagedAttention
          (schedule block) (garbage block) outputs

/-- How a device runs the three launches of a call: the orders of their blocks and threads, and
what is in the shared memory of each block. -/
structure Execution (α : Type) where
  append : Launch.Schedule
  prefill : Launch.Schedule
  prefillBlock : ℕ → BlockSchedule
  prefillShared : ℕ → BlockCell → α
  decode : Launch.Schedule
  decodeBlock : ℕ → BlockSchedule
  decodeShared : ℕ → BlockCell → α

/-- The sizes that `check_common` accepts. -/
def checkCommon : Bool :=
  decide (args.headDim ≤ kThreads) && decide (args.kvHeads ≠ 0) &&
    decide (args.queryHeads % args.kvHeads = 0)

def elements : Option ℤ := do
  let rows ← CInt.mul args.totalTokens args.kvHeads
  CInt.mul rows args.headDim

/-- `append_kv_`. A launch that the device rejects is an exception. -/
def appendKv (execution : Execution α) (caches : KVCaches α) : Option (KVCaches α) := do
  let elements ← elements args
  let blocks ← CInt.ceilDiv elements kThreads
  if (Shape.row blocks.toNat kThreads).Launchable then
    execution.append.launch (blocks.toNat * kThreads) (appendKvKernel args) caches
  else none

/-- The launch of either attention kernel. -/
def attentionShape (blocks : ℕ) : Launch.Shape where
  gridX := blocks
  gridY := args.queryHeads
  threads := kThreads
  sharedBytes := (kThreads + 4) * 4

/-- `flash_prefill_out`. -/
def flashPrefillOut (execution : Execution α) (caches : KVCaches α) (outputs : List α) :
    Option (List α) :=
  if checkCommon args = true ∧ (attentionShape args args.totalTokens).Launchable then
    execution.prefill.launch (args.totalTokens * args.queryHeads)
      (flashPrefillKernel args caches execution.prefillBlock execution.prefillShared) outputs
  else none

/-- `paged_decode_out`. -/
def pagedDecodeOut (execution : Execution α) (caches : KVCaches α) (outputs : List α) :
    Option (List α) :=
  if checkCommon args = true ∧
      (attentionShape args args.metadata.seqLens.length).Launchable then
    execution.decode.launch (args.metadata.seqLens.length * args.queryHeads)
      (pagedDecodeKernel args caches execution.decodeBlock execution.decodeShared) outputs
  else none

/-- `forward`. -/
def forward (execution : Execution α) (caches : KVCaches α) :
    Option (KVCaches α × List α) := do
  let output := List.replicate args.query.length 0
  let caches ← appendKv args execution caches
  let output ← flashPrefillOut args execution caches output
  let output ← pagedDecodeOut args execution caches output
  pure (caches, output)

end CudaAttentionBackend

end MiniVLLM
