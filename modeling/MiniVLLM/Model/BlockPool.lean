import MiniVLLM.Model.PagedKV

/-! # The C++ block pool

The sibling of the Python pool for native callers. The free blocks are kept twice, as a stack
and as a set, and the used ones in a second set. -/

namespace MiniVLLM

namespace PagedKV

/-- `freeBlocks` lists the vector from its end: its head is the block `back()` returns. -/
structure PagedKVBlockPool where
  totalBlocks : ℤ
  freeBlocks : List ℤ
  freeSet : Finset ℤ
  usedSet : Finset ℤ
  deriving DecidableEq

namespace PagedKVBlockPool

/-- One round of the loop of the constructor. -/
def addFree (block : ℕ) (pool : PagedKVBlockPool) : PagedKVBlockPool :=
  { pool with
    freeBlocks := (block : ℤ) :: pool.freeBlocks
    freeSet := insert (block : ℤ) pool.freeSet }

/-- The constructor. Its loop runs from the last block down to the first. -/
def construct (totalBlocks : ℤ) : Except CppError PagedKVBlockPool :=
  if totalBlocks ≤ 0 then .error (.invalidArgument "total_blocks must be positive")
  else .ok ((List.range totalBlocks.toNat).foldr addFree ⟨totalBlocks, [], ∅, ∅⟩)

def available (pool : PagedKVBlockPool) : ℤ := pool.freeBlocks.length

def used (pool : PagedKVBlockPool) : ℤ := pool.usedSet.card

def allocate : Cpp PagedKVBlockPool ℤ := do
  let pool ← get
  match pool.freeBlocks with
  | [] => throw (.runtimeError "paged KV cache OOM: no free blocks")
  | block :: freeBlocks => do
      set { pool with
        freeBlocks := freeBlocks
        freeSet := pool.freeSet.erase block
        usedSet := insert block pool.usedSet }
      pure block

/-- The loop of `allocate_many`. -/
def allocateRounds : ℕ → Cpp PagedKVBlockPool (List ℤ)
  | 0 => pure []
  | count + 1 => do
      let block ← allocate
      let blocks ← allocateRounds count
      pure (block :: blocks)

def allocateMany (count : ℤ) : Cpp PagedKVBlockPool (List ℤ) := do
  if count < 0 then
    throw (.invalidArgument "count must be non-negative")
  else
    let pool ← get
    if pool.available < count then
      throw (.runtimeError "paged KV cache OOM: insufficient free blocks")
    else allocateRounds count.toNat

def release (block : ℤ) : Cpp PagedKVBlockPool Unit := do
  let pool ← get
  if block < 0 ∨ pool.totalBlocks ≤ block then
    throw (.invalidArgument "invalid physical block id")
  else if block ∈ pool.freeSet then
    throw (.runtimeError "double free detected")
  else if block ∉ pool.usedSet then
    throw (.runtimeError "block was not allocated by this pool")
  else
    set { pool with
      usedSet := pool.usedSet.erase block
      freeSet := insert block pool.freeSet
      freeBlocks := block :: pool.freeBlocks }

def releaseMany : List ℤ → Cpp PagedKVBlockPool Unit
  | [] => pure ()
  | block :: blocks => do
      release block
      releaseMany blocks

/-! ## Histories of calls -/

inductive Call where
  | allocate
  | allocateMany (count : ℤ)
  | release (block : ℤ)
  | releaseMany (blocks : List ℤ)

/-- What a caller sees happen to a block. -/
inductive BlockEvent where
  | handedOut (block : ℤ)
  | givenBack (block : ℤ)
  deriving DecidableEq

/-- The blocks of a list that `release_many` takes back before it ends or throws. -/
def givenBack (pool : PagedKVBlockPool) : List ℤ → List ℤ
  | [] => []
  | block :: blocks =>
      if ((release block).value? pool).isSome then
        block :: givenBack ((release block).final pool) blocks
      else []

/-- What a call does to the blocks, also where it throws. -/
def events (pool : PagedKVBlockPool) : Call → List BlockEvent
  | .allocate => (allocate.value? pool).toList.map .handedOut
  | .allocateMany count => (((allocateMany count).value? pool).getD []).map .handedOut
  | .release block => (pool.givenBack [block]).map .givenBack
  | .releaseMany blocks => (pool.givenBack blocks).map .givenBack

/-- The pool a call leaves, also where it throws. -/
def afterCall (pool : PagedKVBlockPool) : Call → PagedKVBlockPool
  | .allocate => allocate.final pool
  | .allocateMany count => (allocateMany count).final pool
  | .release block => (release block).final pool
  | .releaseMany blocks => (releaseMany blocks).final pool

def CallStep (pool : PagedKVBlockPool) (c : Call) (out : List BlockEvent)
    (pool' : PagedKVBlockPool) : Prop :=
  pool' = pool.afterCall c ∧ out = pool.events c

end PagedKVBlockPool

end PagedKV

end MiniVLLM
