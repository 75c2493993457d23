import MiniVLLM.Library.CInt
import MiniVLLM.Library.Launch
import MiniVLLM.Library.OnlineSoftmax
import MiniVLLM.Library.Reduction
import MiniVLLM.Library.Tiling

/-! # The fused prefill kernel

The standalone program for tiled attention: a block sweeps the keys of its head tile by tile,
and each of its warps keeps the online softmax of one query row. Between two barriers the
threads of a block run in any order; the lanes of a warp move in step. The stores to the
result are kept in a list, each with its index, so that one made twice shows. An `int` that
overflows gives no result; the rows of a tile are `int`s once the count of the tiles is one. -/

namespace MiniVLLM

namespace FlashAttention

open Launch Reduction Strided Tiling

/-- `warp_size_const`. -/
def warpSize : ℕ := 32

def threadsPerTile : ℕ := 128

def warpCount : ℕ := threadsPerTile / warpSize

/-- The tensors that `temp_Q`, `temp_K` and `temp_V` are tiles of. -/
inductive Tensor where
  | q
  | k
  | v
  deriving DecidableEq

/-- A cell of a shared tile. -/
structure TileCell where
  tensor : Tensor
  row : ℕ
  col : ℕ
  deriving DecidableEq

/-- The arguments of the kernel and of its launch. -/
structure FusedProblem (α : Type) where
  blockSize : ℕ
  batchSize : ℕ
  headNum : ℕ
  maxSeqLen : ℕ
  headDim : ℕ
  dQ : List α
  dK : List α
  dV : List α

/-- The registers of a warp. Every lane computes its maximum and its sum from the score that
lane zero broadcasts; `rowOut` is indexed by the lane and by its local column. -/
structure WarpRow (α : Type) where
  rowMax : α
  rowSum : α
  rowOut : ℕ → ℕ → α

/-- The places of a block where its threads run in any order. -/
inductive Stage where
  | loadQ (qTile : ℕ)
  | loadKV (qTile qBase kvTile : ℕ)
  | store (qTile qBase : ℕ)

variable {α : Type}

namespace FusedProblem

variable (problem : FusedProblem α)

def source : Tensor → List α
  | .q => problem.dQ
  | .k => problem.dK
  | .v => problem.dV

def bhOffset (batchIdx headIdx : ℕ) : Option ℤ := do
  let head ← CInt.index batchIdx problem.headNum headIdx
  let row ← CInt.mul head problem.maxSeqLen
  CInt.mul row problem.headDim

/-- `bh_offset + row * head_dim + col`. -/
def globalIdx (batchIdx headIdx row col : ℕ) : Option ℤ := do
  let bhOffset ← problem.bhOffset batchIdx headIdx
  let start ← CInt.mul row problem.headDim
  let start ← CInt.add bhOffset start
  CInt.add start col

def outIdx (batchIdx headIdx qIdx d : ℕ) : Option ℤ := do
  let head ← CInt.index batchIdx problem.headNum headIdx
  let row ← CInt.index head problem.maxSeqLen qIdx
  CInt.index row problem.headDim d

/-- The launch of `run_flash_attention_kernel`, with three tiles of `float`s in the shared
memory. -/
def shape : Launch.Shape where
  gridX := problem.batchSize
  gridY := problem.headNum
  threads := threadsPerTile
  sharedBytes := 3 * (problem.blockSize * problem.headDim) * 4

end FusedProblem

variable [FloatOps α]

/-- The butterfly over the lanes of a warp. -/
def butterfly (score : ℕ → α) : ℕ → α :=
  (halvings (warpSize / 2)).foldl
    (fun score offset lane => score lane + shflXor score offset lane) score

def WarpRow.start : WarpRow α := ⟨FloatOps.negInfinity, 0, fun _ _ => 0⟩

namespace FusedProblem

variable (problem : FusedProblem α)

/-- An entry of a tile: padding beyond the sequence. -/
def tileEntry (tensor : Tensor) (batchIdx headIdx row col : ℕ) : Option α :=
  if row < problem.maxSeqLen then
    (problem.globalIdx batchIdx headIdx row col).bind (Buffer.load (problem.source tensor))
  else some 0

/-- A thread in the loop that fills one tile of each of some tensors. -/
def loadTile (batchIdx headIdx tile : ℕ) (tensors : List Tensor) (tiles : TileCell → α)
    (thread : ℕ) : Option (TileCell → α) :=
  (strided thread (problem.blockSize * problem.headDim) threadsPerTile).foldlM
    (fun tiles idx => tensors.foldlM
      (fun tiles tensor => do
        let row := idx / problem.headDim
        let col := idx % problem.headDim
        let entry ← problem.tileEntry tensor batchIdx headIdx (tile * problem.blockSize + row) col
        pure (Function.update tiles ⟨tensor, row, col⟩ entry)) tiles) tiles

/-- `score_bcast`: the lanes add up the dot product, and lane zero broadcasts it. -/
def scoreBcast (tiles : TileCell → α) (rowQ rowK : ℕ) : α :=
  butterfly (fun lane => (strided lane problem.headDim warpSize).foldl
    (fun score k => score + tiles ⟨.q, rowQ, k⟩ * tiles ⟨.k, rowK, k⟩) 0) 0 *
      FloatOps.rsqrt ((problem.headDim : ℤ) : α)

/-- One key row joins the row of a warp. -/
def attendKey (tiles : TileCell → α) (rowQ : ℕ) (state : WarpRow α) (rowK : ℕ) : WarpRow α :=
  let score := problem.scoreBcast tiles rowQ rowK
  let newMax := max state.rowMax score
  let alpha := OnlineSoftmax.decay state.rowMax newMax
  let beta := FloatOps.exp (score - newMax)
  { rowMax := newMax
    rowSum := alpha * state.rowSum + beta
    rowOut := fun lane => sweep (· / warpSize)
      (fun d out => alpha * out + beta * tiles ⟨.v, rowK, d⟩)
      (strided lane problem.headDim warpSize) (state.rowOut lane) }

/-- A warp in the loop over the key rows of a tile. -/
def sweepTile (tiles : TileCell → α) (qTile rowQ kvTile : ℕ) (state : WarpRow α) : WarpRow α :=
  if rowQ < problem.blockSize ∧ qTile * problem.blockSize + rowQ < problem.maxSeqLen then
    (List.range problem.blockSize).foldl
      (fun state rowK =>
        if problem.maxSeqLen ≤ kvTile * problem.blockSize + rowK then state
        else problem.attendKey tiles rowQ state rowK) state
  else state

/-- The shared tiles of a block and the registers of its warps. -/
structure BlockState (α : Type) where
  tiles : TileCell → α
  rows : ℕ → WarpRow α

/-- One key tile: the threads load it, and after the barrier every warp sweeps it. -/
def kvStep (schedule : Stage → Launch.Schedule) (batchIdx headIdx qTile qBase : ℕ)
    (state : BlockState α) (kvTile : ℕ) : Option (BlockState α) := do
  let tiles ← (schedule (.loadKV qTile qBase kvTile)).launch threadsPerTile
    (problem.loadTile batchIdx headIdx kvTile [.k, .v]) state.tiles
  pure ⟨tiles, fun warp => problem.sweepTile tiles qTile (qBase + warp) kvTile (state.rows warp)⟩

section Store

variable [LT α] [DecidableLT α]

/-- What a thread stores of the row of its warp. -/
def storeRow (batchIdx headIdx qTile qBase : ℕ) (rows : ℕ → WarpRow α) (thread : ℕ) :
    Option (List (ℤ × α)) :=
  let rowQ := qBase + thread / warpSize
  let qIdx := qTile * problem.blockSize + rowQ
  let row := rows (thread / warpSize)
  if rowQ < problem.blockSize ∧ qIdx < problem.maxSeqLen ∧ 0 < row.rowSum then
    (strided (thread % warpSize) problem.headDim warpSize).mapM fun d => do
      let index ← problem.outIdx batchIdx headIdx qIdx d
      pure (index, row.rowOut (thread % warpSize) (d / warpSize) / row.rowSum)
  else some []

/-- The query rows from `qBase` on, one for each warp. -/
def baseStep (schedule : Stage → Launch.Schedule) (tileCount batchIdx headIdx qTile : ℕ)
    (state : (TileCell → α) × List (ℤ × α)) (qBase : ℕ) :
    Option ((TileCell → α) × List (ℤ × α)) := do
  let swept ← (List.range tileCount).foldlM
    (problem.kvStep schedule batchIdx headIdx qTile qBase) ⟨state.1, fun _ => WarpRow.start⟩
  let stores ← ((schedule (.store qTile qBase)).order threadsPerTile).mapM
    (problem.storeRow batchIdx headIdx qTile qBase swept.rows)
  pure (swept.tiles, state.2 ++ stores.flatten)

/-- One query tile. -/
def qStep (schedule : Stage → Launch.Schedule) (tileCount batchIdx headIdx : ℕ)
    (state : (TileCell → α) × List (ℤ × α)) (qTile : ℕ) :
    Option ((TileCell → α) × List (ℤ × α)) := do
  let tiles ← (schedule (.loadQ qTile)).launch threadsPerTile
    (problem.loadTile batchIdx headIdx qTile [.q]) state.1
  (strided 0 problem.blockSize warpCount).foldlM
    (problem.baseStep schedule tileCount batchIdx headIdx qTile) (tiles, state.2)

/-- A block of `fused_kernel`, with what it stores. `garbage` is what its shared memory held. -/
def runBlock (schedule : Stage → Launch.Schedule) (garbage : TileCell → α) (block : ℕ) :
    Option (List (ℤ × α)) := do
  let tileCount ← CInt.ceilDiv problem.maxSeqLen problem.blockSize
  let state ← (List.range tileCount.toNat).foldlM
    (problem.qStep schedule tileCount.toNat (block / problem.headNum) (block % problem.headNum))
    (garbage, [])
  pure state.2

/-- `fused_kernel` on the grid of `batch_size` times `num_heads` blocks. A launch that the device
rejects stores nothing. -/
def fusedKernel (blocks : Launch.Schedule) (threads : ℕ → Stage → Launch.Schedule)
    (garbage : ℕ → TileCell → α) : Option (List (ℤ × α)) :=
  if problem.shape.Launchable then do
    let stores ← (blocks.order (problem.batchSize * problem.headNum)).mapM fun block =>
      problem.runBlock (threads block) (garbage block) block
    pure stores.flatten
  else some []

/-- `launch_block_size_kernel`. A tile that is not supported is reported, and nothing runs. -/
def launchBlockSizeKernel (blocks : Launch.Schedule) (threads : ℕ → Stage → Launch.Schedule)
    (garbage : ℕ → TileCell → α) : Option (List (ℤ × α)) :=
  if problem.blockSize ∈ [16, 32, 64] then problem.fusedKernel blocks threads garbage
  else some []

def launchHeadDimKernel (blocks : Launch.Schedule) (threads : ℕ → Stage → Launch.Schedule)
    (garbage : ℕ → TileCell → α) : Option (List (ℤ × α)) :=
  if problem.headDim ∈ [32, 64] then problem.launchBlockSizeKernel blocks threads garbage
  else some []

end Store

/-! ## The reference -/

/-- The score of a key row and its values. -/
def referenceToken (b h q kRow : ℕ) : Option (α × (ℕ → α)) := do
  let score ← (List.range problem.headDim).foldlM
    (fun score d => do
      let query ← (problem.globalIdx b h q d).bind (Buffer.load problem.dQ)
      let key ← (problem.globalIdx b h kRow d).bind (Buffer.load problem.dK)
      pure (score + query * key)) (0 : α)
  let row ← (List.range problem.headDim).mapM fun d =>
    (problem.globalIdx b h kRow d).bind (Buffer.load problem.dV)
  pure (score * (1.0 / FloatOps.sqrt ((problem.headDim : ℤ) : α)), fun d => row.getD d 0)

def referenceRow (b h q : ℕ) : Option (List α) := do
  let tokens ← (List.range problem.maxSeqLen).mapM (problem.referenceToken b h q)
  pure ((List.range problem.headDim).map (OnlineSoftmax.twoPass tokens))

/-- `reference_attention`. Its loops run over `h_Out` from the first entry to the last. -/
def referenceAttention : Option (List α) := do
  let rows ← (List.range problem.batchSize).mapM fun b =>
    (List.range problem.headNum).mapM fun h =>
      (List.range problem.maxSeqLen).mapM (problem.referenceRow b h)
  pure rows.flatten.flatten.flatten

end FusedProblem

end FlashAttention

end MiniVLLM
