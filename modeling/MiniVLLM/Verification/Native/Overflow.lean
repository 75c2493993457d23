import MiniVLLM.Model.NativeInts

/-! # Cache indices in 32 bits

The kernels compute the index of a cache cell in `int`, so it is right exactly as long as the
caches have at most `2 ^ 31` cells. Nothing on the way to a kernel checks this. -/

namespace MiniVLLM

namespace NativeInts

def CreateArgs.cacheSlots (args : CreateArgs) : ℤ := args.numBlocks * args.blockSize + args.maxNumSeqs

/-- The `int` computation of a cell has the value `slot * head_dim + dim`, inside the caches. -/
def Exact (args : CreateArgs) (slot dim : ℤ) (computed : Option ℤ) : Prop :=
  computed = some (slot * args.headDim + dim) ∧ 0 ≤ slot * args.headDim + dim ∧
    ∃ elements, args.elements = some elements ∧ slot * args.headDim + dim < elements

/-- Every `int` computation on the way to a cache cell is exact. -/
structure IndexingExact (args : CreateArgs) : Prop where
  physicalCacheSlots : args.physicalCacheSlots = some (args.numBlocks * args.blockSize)
  append : ∀ (slots : ℤ → Option ℤ) (index slot : ℤ), 0 ≤ index →
    slots (index / args.headDim) = some slot → 0 ≤ slot → slot < args.cacheSlots →
    Exact args slot (index % args.headDim) (appendCacheIndex slots args.headDim index)
  dense : ∀ (slots : ℤ → Option ℤ) (token slot dim : ℤ), slots token = some slot →
    0 ≤ slot → slot < args.cacheSlots → 0 ≤ dim → dim < args.headDim →
    Exact args slot dim (denseCacheIndex slots args.headDim token dim)
  paged : ∀ (blockTable : ℤ → Option ℤ) (token block dim : ℤ), 0 ≤ token →
    blockTable (token / args.blockSize) = some block → 0 ≤ block → block < args.numBlocks →
    0 ≤ dim → dim < args.headDim →
    Exact args (block * args.blockSize + token % args.blockSize) dim
      (pagedCacheIndex blockTable args.blockSize args.headDim token dim)
  batchedDense : ∀ (contextSlots blockTable : ℤ → Option ℤ) (token slot dim : ℤ),
    contextSlots token = some slot → 0 ≤ slot → slot < args.cacheSlots → 0 ≤ dim →
    dim < args.headDim →
    Exact args slot dim
      (batchedCacheIndex 0 contextSlots blockTable args.blockSize args.headDim token dim)
  batchedPaged : ∀ (isDecode : ℤ) (contextSlots blockTable : ℤ → Option ℤ) (token block dim : ℤ),
    isDecode ≠ 0 → 0 ≤ token → blockTable (token / args.blockSize) = some block → 0 ≤ block →
    block < args.numBlocks → 0 ≤ dim → dim < args.headDim →
    Exact args (block * args.blockSize + token % args.blockSize) dim
      (batchedCacheIndex isDecode contextSlots blockTable args.blockSize args.headDim token dim)

section Indexing

variable {args : CreateArgs} {slot dim : ℤ}

theorem CreateArgs.Accepted.pos (h : args.Accepted) : 0 < args.numBlocks ∧ 0 < args.blockSize ∧
    0 < args.headDim ∧ 0 < args.maxNumSeqs := by
  rw [CreateArgs.Accepted] at h
  omega

theorem cell_lt (hslot : slot < args.cacheSlots) (hdim : dim < args.headDim)
    (hhead : 0 < args.headDim) :
    slot * args.headDim + dim < args.cacheSlots * args.headDim := by
  calc slot * args.headDim + dim < slot * args.headDim + args.headDim := by omega
    _ = (slot + 1) * args.headDim := by ring
    _ ≤ args.cacheSlots * args.headDim := Int.mul_le_mul_of_nonneg_right hslot hhead.le

theorem paged_lt {block offset : ℤ} (hblock : block < args.numBlocks)
    (hoffset : offset < args.blockSize) (hsize : 0 < args.blockSize) :
    block * args.blockSize + offset < args.numBlocks * args.blockSize := by
  calc block * args.blockSize + offset < block * args.blockSize + args.blockSize := by omega
    _ = (block + 1) * args.blockSize := by ring
    _ ≤ args.numBlocks * args.blockSize := Int.mul_le_mul_of_nonneg_right hblock hsize.le

theorem physicalCacheSlots_eq (h : args.Accepted) (hcells : args.cacheSlots * args.headDim ≤ 2 ^ 31) :
    args.physicalCacheSlots = some (args.numBlocks * args.blockSize) ∧
      args.numBlocks * args.blockSize ≤ CInt.intMax ∧
      args.elements = some (args.cacheSlots * args.headDim).toNat := by
  obtain ⟨hblocks, hsize, hhead, hseqs⟩ := h.pos
  have hphysical : 0 < args.numBlocks * args.blockSize := Int.mul_pos hblocks hsize
  have hslots : args.cacheSlots ≤ args.cacheSlots * args.headDim := by
    have hnonneg : 0 ≤ args.cacheSlots := by
      rw [CreateArgs.cacheSlots]
      omega
    exact le_mul_of_one_le_right hnonneg hhead
  have hmax : args.numBlocks * args.blockSize ≤ CInt.intMax := by
    rw [CreateArgs.cacheSlots] at hslots hcells
    rw [CInt.intMax]
    omega
  have heq : args.physicalCacheSlots = some (args.numBlocks * args.blockSize) :=
    CInt.mul_eq_some hphysical.le hmax
  refine ⟨heq, hmax, ?_⟩
  rw [CreateArgs.elements, heq, Option.map_some, CreateArgs.cacheSlots,
    Int.toNat_mul (by omega) hhead.le, Int.toNat_add hphysical.le hseqs.le]

/-- Below `2 ^ 31` cells the index of a cell fits. -/
theorem exact_cacheIndex (h : args.Accepted) (hcells : args.cacheSlots * args.headDim ≤ 2 ^ 31)
    (hslot : 0 ≤ slot) (hlt : slot < args.cacheSlots) (hdim : 0 ≤ dim) (hdim' : dim < args.headDim) :
    Exact args slot dim (cacheIndex slot args.headDim dim) := by
  obtain ⟨_, _, hhead, _⟩ := h.pos
  have hcell := cell_lt hlt hdim' hhead
  have hstart : 0 ≤ slot * args.headDim := Int.mul_nonneg hslot hhead.le
  have hmax : slot * args.headDim + dim ≤ CInt.intMax := by
    rw [CInt.intMax]
    omega
  obtain ⟨_, _, helements⟩ := physicalCacheSlots_eq h hcells
  refine ⟨?_, by omega, _, helements, by omega⟩
  rw [cacheIndex, CInt.mul_eq_some hstart (by omega), Option.bind_eq_bind, Option.bind_some]
  exact CInt.add_eq_some (by omega) hmax

theorem exact_denseCacheIndex (h : args.Accepted)
    (hcells : args.cacheSlots * args.headDim ≤ 2 ^ 31) {slots : ℤ → Option ℤ} {token : ℤ}
    (hread : slots token = some slot) (hslot : 0 ≤ slot) (hlt : slot < args.cacheSlots)
    (hdim : 0 ≤ dim) (hdim' : dim < args.headDim) :
    Exact args slot dim (denseCacheIndex slots args.headDim token dim) := by
  rw [denseCacheIndex, hread]
  exact exact_cacheIndex h hcells hslot hlt hdim hdim'

/-- The slot under a block table is one of the physical ones, so it fits too. -/
theorem exact_pagedCacheIndex (h : args.Accepted)
    (hcells : args.cacheSlots * args.headDim ≤ 2 ^ 31) {blockTable : ℤ → Option ℤ}
    {token block : ℤ} (htoken : 0 ≤ token)
    (hread : blockTable (token / args.blockSize) = some block) (hblock : 0 ≤ block)
    (hlt : block < args.numBlocks) (hdim : 0 ≤ dim) (hdim' : dim < args.headDim) :
    Exact args (block * args.blockSize + token % args.blockSize) dim
      (pagedCacheIndex blockTable args.blockSize args.headDim token dim) := by
  obtain ⟨_, hsize, _, hseqs⟩ := h.pos
  obtain ⟨_, hmax, _⟩ := physicalCacheSlots_eq h hcells
  have hoffset := Int.emod_nonneg token hsize.ne'
  have hslot := paged_lt hlt (Int.emod_lt_of_pos token hsize) hsize
  have hstart : 0 ≤ block * args.blockSize := Int.mul_nonneg hblock hsize.le
  have hpaged : pagedSlot blockTable args.blockSize token =
      some (block * args.blockSize + token % args.blockSize) := by
    rw [pagedSlot, Int.tdiv_eq_ediv_of_nonneg htoken, Int.tmod_eq_emod_of_nonneg htoken, hread,
      Option.bind_eq_bind, Option.bind_some, CInt.mul_eq_some hstart (by omega),
      Option.bind_some]
    exact CInt.add_eq_some (by omega) (by omega)
  rw [pagedCacheIndex, hpaged]
  exact exact_cacheIndex h hcells (by omega) (by rw [CreateArgs.cacheSlots]; omega) hdim hdim'

theorem le_of_indexingExact (h : args.Accepted) (hexact : IndexingExact args) :
    args.cacheSlots * args.headDim ≤ 2 ^ 31 := by
  obtain ⟨hblocks, hsize, hhead, hseqs⟩ := h.pos
  have hphysical : 0 < args.numBlocks * args.blockSize := Int.mul_pos hblocks hsize
  have hpos : 0 ≤ args.cacheSlots - 1 := by
    rw [CreateArgs.cacheSlots]
    omega
  obtain ⟨hvalue, _⟩ := hexact.dense (fun _ => some (args.cacheSlots - 1)) 0
    (args.cacheSlots - 1) (args.headDim - 1) rfl hpos (by omega) (by omega) (by omega)
  rw [denseCacheIndex, Option.bind_eq_bind, Option.bind_some, cacheIndex] at hvalue
  obtain ⟨start, hstart, hsum⟩ := Option.bind_eq_some_iff.mp hvalue
  obtain ⟨rfl, _, _⟩ := CInt.of_value hstart
  obtain ⟨_, _, hmax⟩ := CInt.of_value hsum
  have hlast : (args.cacheSlots - 1) * args.headDim + (args.headDim - 1) =
      args.cacheSlots * args.headDim - 1 := by ring
  rw [hlast, CInt.intMax] at hmax
  omega

/-- The cache indices are exact as long as the caches have at most `2 ^ 31` cells. -/
theorem indexingExact_iff (h : args.Accepted) :
    IndexingExact args ↔
      (args.numBlocks * args.blockSize + args.maxNumSeqs) * args.headDim ≤ 2 ^ 31 := by
  obtain ⟨_, _, hhead, _⟩ := h.pos
  refine ⟨le_of_indexingExact h, fun hcells => ?_⟩
  refine ⟨(physicalCacheSlots_eq h hcells).1, ?_, ?_, ?_, ?_, ?_⟩
  · intro slots index slot hindex hread hslot hlt
    rw [appendCacheIndex, Int.tdiv_eq_ediv_of_nonneg hindex, Int.tmod_eq_emod_of_nonneg hindex,
      hread]
    exact exact_cacheIndex h hcells hslot hlt (Int.emod_nonneg _ hhead.ne')
      (Int.emod_lt_of_pos _ hhead)
  · intro slots token slot dim hread hslot hlt hdim hdim'
    exact exact_denseCacheIndex h hcells hread hslot hlt hdim hdim'
  · intro blockTable token block dim htoken hread hblock hlt hdim hdim'
    exact exact_pagedCacheIndex h hcells htoken hread hblock hlt hdim hdim'
  · intro contextSlots blockTable token slot dim hread hslot hlt hdim hdim'
    rw [batchedCacheIndex, if_neg (by simp)]
    exact exact_denseCacheIndex h hcells hread hslot hlt hdim hdim'
  · intro isDecode contextSlots blockTable token block dim hflag htoken hread hblock hlt hdim hdim'
    rw [batchedCacheIndex, if_pos hflag]
    exact exact_pagedCacheIndex h hcells htoken hread hblock hlt hdim hdim'

theorem indexingExact_iff_default :
    IndexingExact ⟨0, 256, 16, 64, 32, 2048⟩ ↔ ((256 * 16 + 32) * 64 : ℤ) ≤ 2 ^ 31 :=
  indexingExact_iff (by decide)

/-- The first scratch slot of a cache of `2 ^ 22` slots with rows of 512 has index `2 ^ 31`. -/
theorem indexing_overflows :
    (CreateArgs.mk 0 262144 16 512 32 2048).Accepted ∧
      ¬ IndexingExact (CreateArgs.mk 0 262144 16 512 32 2048) := by
  refine ⟨by decide, fun hexact => ?_⟩
  obtain ⟨hvalue, _⟩ := hexact.dense (fun _ => some 4194304) 0 4194304 0 rfl (by decide)
    (by decide) (by decide) (by decide)
  exact absurd hvalue (by decide)

end Indexing

end NativeInts

end MiniVLLM
