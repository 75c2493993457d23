import MiniVLLM.Model.Protocol

/-! # Block pool and block tables

The scheduler's allocator. `block_size` and `num_blocks` are fixed when the manager is
built, so they are parameters here. -/

namespace MiniVLLM

/-- `free` lists the Python list from its end: its head is the block `pop()` returns. -/
structure BlockPool where
  free : List ℕ
  used : Finset ℕ

namespace BlockPool

def init (numBlocks : ℕ) : BlockPool := ⟨List.range numBlocks, ∅⟩

def numFreeBlocks (pool : BlockPool) : ℕ := pool.free.length

def allocate (count : ℕ) : Py BlockPool (List ℕ) := do
  let pool ← get
  if pool.free.length < count then
    throw (.memoryError "paged KV cache has no free physical blocks")
  else
    let blocks := pool.free.take count
    set (⟨pool.free.drop count, pool.used ∪ blocks.toFinset⟩ : BlockPool)
    pure blocks

/-- The blocks go back one by one, so a foreign block raises after earlier ones returned. -/
def release : List ℕ → Py BlockPool Unit
  | [] => pure ()
  | block :: blocks => do
      let pool ← get
      if block ∉ pool.used then
        throw (.runtimeError s!"physical block {block} is not allocated")
      else
        set (⟨block :: pool.free, pool.used.erase block⟩ : BlockPool)
        release blocks

end BlockPool

structure KVCacheManager where
  pool : BlockPool
  tables : Dict RequestId (List ℕ)

namespace KVCacheManager

def init (numBlocks : ℕ) : KVCacheManager := ⟨.init numBlocks, .empty⟩

/-- Runs a pool operation inside the manager. -/
def onPool {α : Type} (x : Py BlockPool α) : Py KVCacheManager α :=
  EStateM.zoom KVCacheManager.pool (fun pool m => { m with pool := pool }) x

/-- `self.tables[request_id]`. -/
def table (requestId : RequestId) : Py KVCacheManager (List ℕ) := do
  let m ← get
  EStateM.getOrRaise (.keyError requestId) (m.tables.get? requestId)

def create (requestId : RequestId) : Py KVCacheManager Unit := do
  let m ← get
  if requestId ∈ m.tables.keys then
    throw (.runtimeError s!"request {requestId} already has a block table")
  else
    set { m with tables := m.tables.set requestId [] }

/-- Blocks that hold `tokens` positions. -/
def requiredBlocks (blockSize tokens : ℕ) : ℕ := (tokens + blockSize - 1) / blockSize

def blocksNeeded (blockSize : ℕ) (requestId : RequestId) (targetTokens : ℕ) :
    Py KVCacheManager ℕ := do
  let physicalBlocks ← table requestId
  pure (requiredBlocks blockSize targetTokens - physicalBlocks.length)

def canReserve (blockSize : ℕ) (requestId : RequestId) (targetTokens : ℕ) :
    Py KVCacheManager Bool := do
  let needed ← blocksNeeded blockSize requestId targetTokens
  let m ← get
  pure (decide (needed ≤ m.pool.numFreeBlocks))

def reserve (blockSize : ℕ) (requestId : RequestId) (targetTokens : ℕ) :
    Py KVCacheManager Unit := do
  let count ← blocksNeeded blockSize requestId targetTokens
  let physicalBlocks ← table requestId
  let blocks ← onPool (BlockPool.allocate count)
  modify fun m => { m with tables := m.tables.set requestId (physicalBlocks ++ blocks) }

/-- The slots of `count` positions from the first one on. -/
def slotsFrom (blockSize : ℕ) (physicalBlocks : List ℕ) : List ℕ → Py KVCacheManager (List ℕ)
  | [] => pure []
  | position :: positions => do
      let block ← EStateM.getOrRaise (.indexError "list index out of range")
        physicalBlocks[position / blockSize]?
      let slots ← slotsFrom blockSize physicalBlocks positions
      pure ((block * blockSize + position % blockSize) :: slots)

def slots (blockSize : ℕ) (requestId : RequestId) (start count : ℕ) :
    Py KVCacheManager (List ℕ) := do
  let physicalBlocks ← table requestId
  slotsFrom blockSize physicalBlocks (List.range' start count)

def blockTable (requestId : RequestId) : Py KVCacheManager (List ℕ) :=
  table requestId

def release (requestId : RequestId) : Py KVCacheManager Unit := do
  let m ← get
  match m.tables.get? requestId with
  | none => pure ()
  | some physicalBlocks => do
      set { m with tables := m.tables.erase requestId }
      onPool (BlockPool.release physicalBlocks)

end KVCacheManager

end MiniVLLM
