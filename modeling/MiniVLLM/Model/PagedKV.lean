import MiniVLLM.Library.CInt
import MiniVLLM.Library.Run
import MiniVLLM.Library.Dict
import MiniVLLM.Library.ErrorState

/-! # The C++ cache manager

The sibling of the scheduler's manager for native callers. It takes blocks one at a time,
and its counts are 32-bit `int`s. -/

namespace MiniVLLM

namespace PagedKV

/-- The exceptions of the standard library, with their texts. The last one is no exception:
it marks a signed overflow, after which C++ promises nothing. -/
inductive CppError where
  | invalidArgument (what : String)
  | runtimeError (what : String)
  | overflow
  deriving DecidableEq, Repr

abbrev Cpp (σ α : Type) := EStateM CppError σ α

structure KVCacheConfig where
  numLayers : ℤ := 0
  numKvHeads : ℤ := 0
  headDim : ℤ := 0
  blockSize : ℤ := 16
  maxBlocks : ℤ := 0
  dtypeBytes : ℤ := 2

structure SequenceState where
  length : ℤ := 0
  blockTable : List ℕ := []
  deriving DecidableEq, Repr

/-- `freeBlocks` lists the vector from its end: its head is the block `back()` returns. -/
structure KVCacheManager where
  freeBlocks : List ℕ
  sequences : Dict String SequenceState
  deriving DecidableEq

namespace KVCacheManager

def validateConfig (config : KVCacheConfig) : Except CppError Unit :=
  if config.numLayers ≤ 0 ∨ config.numKvHeads ≤ 0 ∨ config.headDim ≤ 0 ∨ config.blockSize ≤ 0 ∨
      config.maxBlocks ≤ 0 ∨ config.dtypeBytes ≤ 0 then
    .error (.invalidArgument "invalid KV cache config")
  else .ok ()

/-- The constructor. -/
def construct (config : KVCacheConfig) : Except CppError KVCacheManager := do
  validateConfig config
  pure ⟨List.range config.maxBlocks.toNat, .empty⟩

def createSequence (requestId : String) : Cpp KVCacheManager Unit := do
  let m ← get
  if requestId ∈ m.sequences.keys then
    throw (.runtimeError "sequence already exists")
  else
    set { m with sequences := m.sequences.set requestId {} }

def sequenceState (requestId : String) : Cpp KVCacheManager SequenceState := do
  let m ← get
  EStateM.getOrRaise (.runtimeError "unknown sequence") (m.sequences.get? requestId)

def allocateBlock : Cpp KVCacheManager ℕ := do
  let m ← get
  match m.freeBlocks with
  | [] => throw (.runtimeError "paged KV cache OOM: no free blocks")
  | block :: freeBlocks => do
      set { m with freeBlocks := freeBlocks }
      pure block

/-- The `while` loop of `reserve_tokens`. Every round adds one block, so the required number
of rounds is enough. -/
def growTable (requestId : String) (requiredBlocks : ℤ) : ℕ → Cpp KVCacheManager Unit
  | 0 => pure ()
  | fuel + 1 => do
      let sequence ← sequenceState requestId
      if (sequence.blockTable.length : ℤ) < requiredBlocks then
        let block ← allocateBlock
        let grown := { sequence with blockTable := sequence.blockTable ++ [block] }
        modify fun m => { m with sequences := m.sequences.set requestId grown }
        growTable requestId requiredBlocks fuel
      else pure ()

def reserveTokens (config : KVCacheConfig) (requestId : String) (targetLength : ℤ) :
    Cpp KVCacheManager Unit := do
  if targetLength < 0 then
    throw (.invalidArgument "target_length must be non-negative")
  else
    let _ ← sequenceState requestId
    -- The sum is formed before one is subtracted, so it is the sum that overflows.
    if CInt.intMax < targetLength + config.blockSize then
      throw .overflow
    else
      let requiredBlocks := (targetLength + config.blockSize - 1).tdiv config.blockSize
      growTable requestId requiredBlocks requiredBlocks.toNat
      let sequence ← sequenceState requestId
      if sequence.length < targetLength then
        let longer := { sequence with length := targetLength }
        modify fun m => { m with sequences := m.sequences.set requestId longer }
      else pure ()

/-- The blocks go back in table order, so the last one is the next to be taken. -/
def freeSequence (requestId : String) : Cpp KVCacheManager (List ℕ) := do
  let sequence ← sequenceState requestId
  modify fun m => { m with sequences := m.sequences.erase requestId }
  modify fun m => { m with freeBlocks :=
    sequence.blockTable.foldl (fun freeBlocks block => block :: freeBlocks) m.freeBlocks }
  pure sequence.blockTable

end KVCacheManager

end PagedKV

end MiniVLLM
