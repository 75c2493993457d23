import MiniVLLM.Library.CInt
import MiniVLLM.Library.Launch
import MiniVLLM.Library.Tiling

/-! # The GEMM kernels

The naive kernel and the tiled one, over the entries of any ring. Between two barriers the
threads of a block run in any order. The stores to the result are kept in a list, each with
its index, so that one made twice shows. A load outside of a matrix and an `int` that overflows
give no result. -/

namespace MiniVLLM

namespace Gemm

open Launch Tiling

variable {R : Type} [CommRing R]

/-- A thread of `matMul`, with what it stores. -/
def matMul (a b : List R) (m n k row col : ℕ) : Option (List (ℤ × R)) :=
  if row < m ∧ col < n then do
    let sum ← (List.range k).foldlM
      (fun sum (l : ℕ) => do
        let x ← (CInt.index row k l).bind (Buffer.load a)
        let y ← (CInt.index l n col).bind (Buffer.load b)
        pure (sum + x * y)) (0 : R)
    let index ← CInt.index row n col
    pure [(index, sum)]
  else pure []

/-! ## The tiled kernel -/

/-- The arguments of `tiling_matMul`, for an `m x k` matrix `a` and a `k x n` matrix `b`. The sizes
are `int`s. -/
structure TiledProblem (R : Type) where
  n : ℕ
  m : ℕ
  k : ℕ
  a : List R
  b : List R
  tileSize : ℕ
  n_lt : n < 2 ^ 31
  m_lt : m < 2 ^ 31
  k_lt : k < 2 ^ 31
  tileSize_lt : tileSize < 2 ^ 31

/-- The cells of `tile_A` and `tile_B`. -/
inductive TileCell where
  | a (row col : ℕ)
  | b (row col : ℕ)
  deriving DecidableEq

/-- The entries of a 2x2 patch, in the order the kernel names them. -/
def patch : List (ℕ × ℕ) := [(0, 0), (0, 1), (1, 0), (1, 1)]

/-- An entry of a matrix, or zero outside of it. -/
def guardedLoad (matrix : List R) (rows cols : ℕ) (row col : ℤ) : Option R :=
  if row < rows ∧ col < cols then (CInt.index row cols col).bind (Buffer.load matrix) else some 0

/-- The four guarded loads of a thread into one of its tiles. The patch starts at an even row and
column, so the next ones are `int`s too. -/
def loadPatch (matrix : List R) (rows cols : ℕ) (row col : ℤ) (cell : ℕ → ℕ → TileCell)
    (tileRow tileCol : ℕ) (tiles : TileCell → R) : Option (TileCell → R) :=
  patch.foldlM (fun tiles offset => do
    let value ← guardedLoad matrix rows cols (row + offset.1) (col + offset.2)
    pure (Function.update tiles (cell (tileRow + offset.1) (tileCol + offset.2)) value)) tiles

namespace TiledProblem

variable (problem : TiledProblem R)

/-- The block is square: `blockDim.x` and `blockDim.y` are both `tile_size / 2`. -/
def blockDim : ℕ := problem.tileSize / 2

def threadX (thread : ℕ) : ℕ := thread % problem.blockDim

def threadY (thread : ℕ) : ℕ := thread / problem.blockDim

def gridX : ℕ := tileCount problem.n problem.tileSize

def gridY : ℕ := tileCount problem.m problem.tileSize

def blockX (block : ℕ) : ℕ := block % problem.gridX

def blockY (block : ℕ) : ℕ := block / problem.gridX

/-- The first row of the patch of a thread, in unsigned arithmetic. -/
def row (block thread : ℕ) : ℕ :=
  (problem.blockY block * problem.blockDim + problem.threadY thread) * 2

/-- The first column of the patch of a thread, in unsigned arithmetic. -/
def col (block thread : ℕ) : ℕ :=
  (problem.blockX block * problem.blockDim + problem.threadX thread) * 2

/-- `row` as an `int`. -/
def intRow (block thread : ℕ) : ℤ := CInt.wrap (problem.row block thread)

/-- `col` as an `int`. -/
def intCol (block thread : ℕ) : ℤ := CInt.wrap (problem.col block thread)

/-- What a thread loads for tile `t`. -/
def loadTiles (block t : ℕ) (tiles : TileCell → R) (thread : ℕ) : Option (TileCell → R) := do
  let tx := problem.threadX thread
  let ty := problem.threadY thread
  let aCol ← CInt.index t problem.tileSize (tx * 2 : ℕ)
  let tiles ← loadPatch problem.a problem.m problem.k (problem.intRow block thread) aCol
    .a (ty * 2) (tx * 2) tiles
  let bRow ← CInt.index t problem.tileSize (ty * 2 : ℕ)
  loadPatch problem.b problem.k problem.n bRow (problem.intCol block thread)
    .b (ty * 2) (tx * 2) tiles

/-- The loop over a tile: `sum00` to `sum11` are the sums at the offsets of the patch. -/
def accumulate (tiles : TileCell → R) (thread : ℕ) (sums : ℕ → ℕ → R) : ℕ → ℕ → R :=
  (List.range problem.tileSize).foldl
    (fun sums j dr dc => sums dr dc + tiles (.a (problem.threadY thread * 2 + dr) j) *
      tiles (.b j (problem.threadX thread * 2 + dc))) sums

/-- The shared tiles of a block and the sums of its threads. -/
structure BlockState (R : Type) where
  tiles : TileCell → R
  sums : ℕ → ℕ → ℕ → R

/-- One tile: the threads load it, and after the barrier each of them reads it. -/
def tileStep (schedule : Launch.Schedule) (block : ℕ) (state : BlockState R) (t : ℕ) :
    Option (BlockState R) := do
  let tiles ← schedule.launch (problem.blockDim * problem.blockDim) (problem.loadTiles block t)
    state.tiles
  pure ⟨tiles, fun thread => problem.accumulate tiles thread (state.sums thread)⟩

/-- The four guarded stores of a thread. -/
def storePatch (block thread : ℕ) (sums : ℕ → ℕ → R) : Option (List (ℤ × R)) :=
  (patch.filter fun offset => problem.intRow block thread + offset.1 < problem.m ∧
    problem.intCol block thread + offset.2 < problem.n).mapM fun offset => do
      let index ← CInt.index (problem.intRow block thread + offset.1) problem.n
        (problem.intCol block thread + offset.2)
      pure (index, sums offset.1 offset.2)

/-- A block of `tiling_matMul`, with what it stores. `garbage` is what its shared memory held,
and `schedule` gives the order of the threads for each tile and, last, for the stores. -/
def runBlock (schedule : ℕ → Launch.Schedule) (garbage : TileCell → R) (block : ℕ) :
    Option (List (ℤ × R)) := do
  let tileCount ← CInt.ceilDiv problem.k problem.tileSize
  let state ← (List.range tileCount.toNat).foldlM
    (fun state t => problem.tileStep (schedule t) block state t) ⟨garbage, fun _ _ _ => 0⟩
  let stores ← ((schedule tileCount.toNat).order (problem.blockDim * problem.blockDim)).mapM
    fun thread => problem.storePatch block thread (state.sums thread)
  pure stores.flatten

/-- The launch of `GeMMs`, with two tiles of `float`s in the shared memory. -/
def shape : Launch.Shape where
  gridX := problem.gridX
  gridY := problem.gridY
  threads := problem.blockDim * problem.blockDim
  sharedBytes := 2 * (problem.tileSize * problem.tileSize) * 4

/-- The grid `GeMMs` launches, its blocks in any order. A launch that the device rejects stores
nothing. -/
def tilingMatMul (blocks : Launch.Schedule) (threads : ℕ → ℕ → Launch.Schedule)
    (garbage : ℕ → TileCell → R) : Option (List (ℤ × R)) :=
  if problem.shape.Launchable then do
    let stores ← (blocks.order (problem.gridX * problem.gridY)).mapM fun block =>
      problem.runBlock (threads block) (garbage block) block
    pure stores.flatten
  else some []

end TiledProblem

end Gemm

end MiniVLLM
