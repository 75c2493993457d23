import MiniVLLM.Library.CInt

/-! # The `int`s of the native runtime

`mvllm_create` computes the size of its caches in `size_t`, and the kernels compute their
indices in `int`. -/

namespace MiniVLLM

namespace NativeInts

/-- The arguments of `mvllm_create`. -/
structure CreateArgs where
  deviceIndex : ℤ
  numBlocks : ℤ
  blockSize : ℤ
  headDim : ℤ
  maxNumSeqs : ℤ
  maxModelLen : ℤ
  deriving DecidableEq, Repr

namespace CreateArgs

/-- The check that does not return `nullptr`. -/
def Accepted (args : CreateArgs) : Prop :=
  ¬ (args.deviceIndex < 0 ∨ args.numBlocks ≤ 0 ∨ args.blockSize ≤ 0 ∨ args.headDim ≤ 0 ∨
    args.maxNumSeqs ≤ 0 ∨ args.maxModelLen ≤ 0)

instance (args : CreateArgs) : Decidable args.Accepted := inferInstanceAs (Decidable (¬ _))

/-- `runtime->graph_max_blocks`. -/
def graphMaxBlocks (args : CreateArgs) : Option ℤ := CInt.ceilDiv args.maxModelLen args.blockSize

/-- `runtime->physical_cache_slots`. -/
def physicalCacheSlots (args : CreateArgs) : Option ℤ := CInt.mul args.numBlocks args.blockSize

/-- `elements`. The product of a `size_t` below `2 ^ 32` and an `int` fits in 64 bits. -/
def elements (args : CreateArgs) : Option ℕ :=
  args.physicalCacheSlots.map fun physicalCacheSlots =>
    (physicalCacheSlots.toNat + args.maxNumSeqs.toNat) * args.headDim.toNat

end CreateArgs

/-! ## The indices of the kernels -/

/-- `slot * head_dim + dim`. -/
def cacheIndex (slot headDim dim : ℤ) : Option ℤ := do
  let start ← CInt.mul slot headDim
  CInt.add start dim

/-- `cache_index` of a thread of `append_kernel`. -/
def appendCacheIndex (slots : ℤ → Option ℤ) (headDim index : ℤ) : Option ℤ := do
  let token := index.tdiv headDim
  let dim := index.tmod headDim
  let slot ← slots token
  cacheIndex slot headDim dim

/-- The index of `dense_last_token_attention_kernel`, and of the batched kernel for a row that
is no decode row. -/
def denseCacheIndex (slots : ℤ → Option ℤ) (headDim token dim : ℤ) : Option ℤ := do
  let slot ← slots token
  cacheIndex slot headDim dim

/-- The slot of a token under a block table. -/
def pagedSlot (blockTable : ℤ → Option ℤ) (blockSize token : ℤ) : Option ℤ := do
  let block ← blockTable (token.tdiv blockSize)
  let start ← CInt.mul block blockSize
  CInt.add start (token.tmod blockSize)

/-- The index of `paged_last_token_attention_kernel`, and of the batched kernel for a decode
row. -/
def pagedCacheIndex (blockTable : ℤ → Option ℤ) (blockSize headDim token dim : ℤ) :
    Option ℤ := do
  let slot ← pagedSlot blockTable blockSize token
  cacheIndex slot headDim dim

/-- The index of `batched_last_token_attention_kernel`. -/
def batchedCacheIndex (isDecode : ℤ) (contextSlots blockTable : ℤ → Option ℤ)
    (blockSize headDim token dim : ℤ) : Option ℤ :=
  if isDecode ≠ 0 then pagedCacheIndex blockTable blockSize headDim token dim
  else denseCacheIndex contextSlots headDim token dim

end NativeInts

end MiniVLLM
