import MiniVLLM.Verification.Kernels.BlockRow
import MiniVLLM.Verification.Native.Kernels
import MiniVLLM.Verification.Worker.AttentionRows

/-! # One call of an attention backend

An accepted batch, its metadata, and tensors of real numbers. Both backends append the same rows
to the caches. -/

namespace MiniVLLM

open Launch NativeInts FloatOps

/-- An accepted batch with tensors of its sizes. -/
structure AttentionProblem where
  blockSize : ℕ
  workerBatch : WorkerBatch
  batch : GPUInputBatch
  maxBlocks : Option ℕ
  metadata : AttentionMetadata
  cacheSlots : ℕ
  queryHeads : ℕ
  kvHeads : ℕ
  headDim : ℕ
  query : List ℝ
  key : List ℝ
  value : List ℝ
  keyCache : List ℝ
  valueCache : List ℝ
  accepted : GPUInputBatch.fromWorkerBatch workerBatch blockSize = .ok batch
  metadata_eq : AttentionMetadata.fromBatch batch blockSize maxBlocks = .ok metadata
  slots_nodup : batch.slotMapping.Nodup
  inCache : workerBatch.InCache blockSize cacheSlots
  queryHeads_pos : 0 < queryHeads
  kvHeads_dvd : kvHeads ∣ queryHeads
  headDim_pos : 0 < headDim
  headDim_le : headDim ≤ 256
  length_query : query.length = batch.numTokens * queryHeads * headDim
  length_key : key.length = batch.numTokens * (kvHeads * headDim)
  length_value : value.length = batch.numTokens * (kvHeads * headDim)
  length_keyCache : keyCache.length = cacheSlots * (kvHeads * headDim)
  length_valueCache : valueCache.length = cacheSlots * (kvHeads * headDim)

/-- The entries of a head in a row of a tensor of `heads` heads. -/
def headRow (tensor : List ℝ) (heads headDim head row dim : ℕ) : ℝ :=
  tensor.getD ((row * heads + head) * headDim + dim) 0

namespace AttentionProblem

variable (problem : AttentionProblem)

noncomputable def args : AttentionArgs EReal where
  totalTokens := problem.batch.numTokens
  cacheSlots := problem.cacheSlots
  queryHeads := problem.queryHeads
  kvHeads := problem.kvHeads
  headDim := problem.headDim
  query := asFloats problem.query
  key := asFloats problem.key
  value := asFloats problem.value
  metadata := problem.metadata

noncomputable def caches : KVCaches EReal := ⟨asFloats problem.keyCache, asFloats problem.valueCache⟩

def request (r : ℕ) : RequestRows := GPUInputBatch.itemRows problem.blockSize problem.workerBatch r

/-- The device takes the launches, and `int`s hold the cells of the slots that are written and read,
the cells of the query, and the entries of the block tables. -/
structure Fits : Prop where
  written_le : ∀ slot ∈ problem.metadata.slots,
    (slot + 1) * (problem.kvHeads * problem.headDim) ≤ 2 ^ 31
  read_le : ∀ r < problem.metadata.seqLens.length, ∀ position < (problem.request r).seqLen,
    ((problem.request r).slot position + 1) * (problem.kvHeads * problem.headDim) ≤ 2 ^ 31
  query_le : problem.batch.numTokens * problem.queryHeads * problem.headDim ≤ 2 ^ 31
  appended_lt : problem.batch.numTokens * (problem.kvHeads * problem.headDim) + 256 < 2 ^ 31
  queryHeads_le : problem.queryHeads ≤ 65535
  tables_lt : (problem.metadata.seqLens.length - 1) *
    (problem.metadata.blockTables.headD []).length < 2 ^ 31
  blockSize_lt : problem.blockSize < 2 ^ 31

def requestOf (token : ℕ) : RequestRows :=
  problem.request (problem.metadata.requestIndices.getD token 0)

/-- The rows of the output: the heads of all tokens. -/
def rows : ℕ := problem.batch.numTokens * problem.queryHeads

/-- The K/V head that a query head reads. -/
def kvHeadOf (queryHead : ℕ) : ℕ := queryHead / (problem.queryHeads / problem.kvHeads)

/-- The attention of a token and head over the positions of its request up to its own, from the
caches `keys` and `values`. -/
noncomputable def attended (keys values : List ℝ) (token queryHead dim : ℕ) : ℝ :=
  OnlineSoftmax.attention problem.headDim
    (headRow problem.query problem.queryHeads problem.headDim queryHead token)
    (fun position => headRow keys problem.kvHeads problem.headDim (problem.kvHeadOf queryHead)
      ((problem.requestOf token).slot position))
    (fun position => headRow values problem.kvHeads problem.headDim (problem.kvHeadOf queryHead)
      ((problem.requestOf token).slot position))
    (List.range (problem.metadata.positions.getD token 0 + 1)) dim

variable {problem}

theorem blockSize_eq : problem.metadata.blockSize = problem.blockSize := by
  obtain ⟨_, _, _, _, hmetadata⟩ := AttentionMetadata.eq_of_fromBatch problem.metadata_eq
  rw [hmetadata]

theorem batchSpec : problem.metadata.BatchSpec problem.batch.numTokens problem.cacheSlots
    problem.request :=
  GPUInputBatch.batchSpec_of_fromBatch problem.accepted problem.metadata_eq problem.slots_nodup
    problem.inCache

theorem kvHeads_pos : 0 < problem.kvHeads :=
  Nat.pos_of_dvd_of_pos problem.kvHeads_dvd problem.queryHeads_pos

theorem groups_pos : 0 < problem.queryHeads / problem.kvHeads :=
  Nat.div_pos (Nat.le_of_dvd problem.queryHeads_pos problem.kvHeads_dvd) kvHeads_pos

theorem kvHeadOf_lt {queryHead : ℕ} (h : queryHead < problem.queryHeads) :
    problem.kvHeadOf queryHead < problem.kvHeads := by
  refine Nat.div_lt_of_lt_mul ?_
  rwa [Nat.div_mul_cancel problem.kvHeads_dvd]

theorem exists_request {token : ℕ} (h : token < problem.batch.numTokens) :
    ∃ r < problem.metadata.seqLens.length,
      problem.metadata.RequestSpec problem.batch.numTokens problem.cacheSlots r
        (problem.request r) ∧
      (problem.request r).start ≤ token ∧ token < (problem.request r).stop ∧
      problem.metadata.requestIndices[token]? = some r ∧
      problem.requestOf token = problem.request r ∧
      problem.metadata.positions[token]? = some (problem.metadata.positions.getD token 0) ∧
      problem.metadata.positions.getD token 0 =
        (problem.request r).seqLen - ((problem.request r).stop - token) := by
  obtain ⟨r, hr, hspec, hle, hlt, howner, hindex, hposition⟩ := batchSpec.exists_request h
  exact ⟨r, hr, hspec, hle, hlt, howner, congrArg problem.request hindex, hposition⟩

/-! ## Appending -/

noncomputable def appended (tensor : List ℝ) (width token i : ℕ) : Option EReal :=
  some (tensor.getD (token * width + i) 0 : EReal)

noncomputable def appendedPair (problem : AttentionProblem) (token i : ℕ) :
    Option EReal × Option EReal :=
  (appended problem.key problem.args.elementsPerToken token i,
    appended problem.value problem.args.elementsPerToken token i)

theorem sized_caches :
    problem.caches.Sized (problem.cacheSlots * problem.args.elementsPerToken) :=
  ⟨(length_asFloats _).trans problem.length_keyCache,
    (length_asFloats _).trans problem.length_valueCache⟩

theorem slot_inj {token token' : ℕ} (h : token < problem.batch.numTokens)
    (h' : token' < problem.batch.numTokens) (heq : problem.metadata.slots.getD token 0 =
      problem.metadata.slots.getD token' 0) : token = token' := by
  have hlt : token < problem.metadata.slots.length := batchSpec.length_slots.symm ▸ h
  have hlt' : token' < problem.metadata.slots.length := batchSpec.length_slots.symm ▸ h'
  rw [List.getD_eq_getElem?_getD, List.getElem?_eq_getElem hlt, List.getD_eq_getElem?_getD,
    List.getElem?_eq_getElem hlt'] at heq
  exact (batchSpec.slots_nodup.getElem_inj_iff).mp heq

theorem active_getElem? {token : ℕ} (h : token < problem.batch.numTokens) :
    problem.metadata.activeMask[token]? = some true := by
  rw [batchSpec.activeMask_eq, List.getElem?_replicate_of_lt h]

theorem load_asFloats {tensor : List ℝ} {i : ℕ} (h : i < tensor.length) :
    Buffer.load (asFloats tensor) (i : ℕ) = some (tensor.getD i 0 : EReal) := by
  rw [Buffer.load_natCast, getElem?_asFloats h]

theorem numTokens_pos : 0 < problem.batch.numTokens :=
  batchSpec.totalTokens_pos

theorem elementsPerToken_pos : 0 < problem.args.elementsPerToken :=
  Nat.mul_pos kvHeads_pos problem.headDim_pos

theorem load_slotMapping {token : ℕ} (h : token < problem.batch.numTokens) :
    Buffer.load problem.args.metadata.slotMapping (token : ℕ) =
      some (problem.metadata.slots.getD token 0 : ℤ) := by
  rw [Buffer.load_natCast, show problem.args.metadata.slotMapping = _ from batchSpec.slotMapping_eq,
    List.getElem?_map, (batchSpec.slot_getD h).1]
  rfl

/-- The cells of a slot of a cache whose cells are all `int`s. -/
theorem slot_le_of_cache_le (hcache : problem.cacheSlots * problem.args.elementsPerToken ≤ 2 ^ 31)
    {slot : ℕ} (hslot : slot < problem.cacheSlots) :
    (slot + 1) * (problem.kvHeads * problem.headDim) ≤ 2 ^ 31 :=
  (Nat.mul_le_mul_right _ hslot).trans hcache

theorem written_le_of_cache_le
    (hcache : problem.cacheSlots * problem.args.elementsPerToken ≤ 2 ^ 31) :
    ∀ slot ∈ problem.metadata.slots, (slot + 1) * (problem.kvHeads * problem.headDim) ≤ 2 ^ 31 :=
  fun slot hslot => slot_le_of_cache_le hcache (batchSpec.slots_lt slot hslot)

theorem read_le_of_cache_le
    (hcache : problem.cacheSlots * problem.args.elementsPerToken ≤ 2 ^ 31) :
    ∀ r < problem.metadata.seqLens.length, ∀ position < (problem.request r).seqLen,
      ((problem.request r).slot position + 1) * (problem.kvHeads * problem.headDim) ≤ 2 ^ 31 :=
  fun r hr position hposition =>
    slot_le_of_cache_le hcache ((batchSpec.rows r hr).slot_lt position hposition)

section Sizes

variable (hlt : problem.args.totalTokens * problem.args.elementsPerToken < 2 ^ 31)

include hlt

theorem elementsPerToken_eq : CInt.mul problem.args.kvHeads problem.args.headDim =
    some (problem.args.elementsPerToken : ℤ) :=
  CInt.mul_natCast ((Nat.le_mul_of_pos_left _ numTokens_pos).trans_lt hlt)

theorem totalElements_eq : CInt.mul problem.args.totalTokens problem.args.elementsPerToken =
    some ((problem.batch.numTokens * problem.args.elementsPerToken : ℕ) : ℤ) :=
  CInt.mul_natCast hlt

theorem elements_eq : CudaAttentionBackend.elements problem.args =
    some ((problem.args.totalTokens * problem.args.elementsPerToken : ℕ) : ℤ) := by
  have htotal : problem.args.totalTokens * problem.args.kvHeads * problem.args.headDim < 2 ^ 31 :=
    (Nat.mul_assoc ..).trans_lt hlt
  have hrows : problem.args.totalTokens * problem.args.kvHeads < 2 ^ 31 :=
    (Nat.le_mul_of_pos_right _ problem.headDim_pos).trans_lt htotal
  rw [CudaAttentionBackend.elements, CInt.mul_natCast hrows, Option.bind_eq_bind, Option.bind_some,
    CInt.mul_natCast htotal, Nat.mul_assoc]
  rfl

end Sizes

theorem Fits.total_lt (hfits : problem.Fits) :
    problem.args.totalTokens * problem.args.elementsPerToken < 2 ^ 31 := by
  have happended : problem.args.totalTokens * problem.args.elementsPerToken + 256 < 2 ^ 31 :=
    hfits.appended_lt
  omega

/-- A thread of `append_kv_kernel` stores its entry of both tensors. -/
theorem appendKvKernel_stores (hfits : problem.Fits) {caches : KVCaches EReal}
    (hsized : caches.Sized (problem.cacheSlots * problem.args.elementsPerToken)) (linear : ℕ) :
    ∃ caches', CudaAttentionBackend.appendKvKernel problem.args caches linear = some caches' ∧
      caches'.Sized (problem.cacheSlots * problem.args.elementsPerToken) ∧
      Stores (rowTarget problem.appendedPair (problem.metadata.slots.getD · 0)
        problem.batch.numTokens problem.args.elementsPerToken linear) caches.cell caches'.cell := by
  rw [CudaAttentionBackend.appendKvKernel, elementsPerToken_eq hfits.total_lt, Option.bind_eq_bind,
    Option.bind_some, totalElements_eq hfits.total_lt, Option.bind_eq_bind, Option.bind_some]
  by_cases hlinear : linear < problem.batch.numTokens * problem.args.elementsPerToken
  · obtain ⟨htoken, hwithin⟩ := div_mod_of_lt hlinear
    obtain ⟨hslot, hroom⟩ := batchSpec.slot_getD htoken
    have hcell := row_lt hroom hwithin
    have hindex := appendCacheIndex_natCast (load_slotMapping htoken)
      ((row_lt (Nat.lt_succ_self _) hwithin).trans_le
        (hfits.written_le _ (List.mem_of_getElem? hslot)))
    have hkey : Buffer.load problem.args.key (linear : ℕ) = some (problem.key.getD linear 0 : EReal) :=
      load_asFloats (problem.length_key.symm ▸ hlinear)
    have hvalue : Buffer.load problem.args.value (linear : ℕ) =
        some (problem.value.getD linear 0 : EReal) :=
      load_asFloats (problem.length_value.symm ▸ hlinear)
    have hactive : problem.args.metadata.activeMask[linear / problem.args.elementsPerToken]? =
        some true := active_getElem? htoken
    refine ⟨caches.set (problem.metadata.slots.getD (linear / problem.args.elementsPerToken) 0 *
        problem.args.elementsPerToken + linear % problem.args.elementsPerToken)
      (problem.key.getD linear 0 : EReal) (problem.value.getD linear 0 : EReal), ?_, hsized.set,
      fun i => ?_⟩
    · rw [if_neg (by omega)]
      simp only [hactive, hindex, hkey, hvalue, Bool.true_eq_false, if_false,
        Buffer.store_natCast _ (hsized.1 ▸ hcell),
        Buffer.store_natCast _ (hsized.2 ▸ hcell), KVCaches.set, Option.bind_eq_bind,
        Option.bind_some, Option.pure_def]
    · rw [hsized.cell_set hcell, rowTarget]
      by_cases hi : i = problem.metadata.slots.getD (linear / problem.args.elementsPerToken) 0 *
          problem.args.elementsPerToken + linear % problem.args.elementsPerToken
      · rw [if_pos hi, if_pos ⟨hlinear, hi⟩, Option.getD_some, appendedPair, appended, appended,
          Nat.div_add_mod']
      · rw [if_neg hi, if_neg (fun h => hi h.2)]
        rfl
  · refine ⟨caches, if_pos (by omega), hsized, fun i => ?_⟩
    rw [rowTarget_eq_none (fun h => hlinear h.1)]
    rfl

/-- A cache with the rows of the batch in their slots. -/
noncomputable def cacheAfter (problem : AttentionProblem) (tensor cache : List ℝ) : List ℝ :=
  (List.range (problem.cacheSlots * problem.args.elementsPerToken)).map fun i =>
    if i / problem.args.elementsPerToken ∈ problem.metadata.slots then
      tensor.getD (problem.metadata.slots.idxOf (i / problem.args.elementsPerToken) *
        problem.args.elementsPerToken + i % problem.args.elementsPerToken) 0
    else cache.getD i 0

noncomputable def keyCacheAfter (problem : AttentionProblem) : List ℝ :=
  problem.cacheAfter problem.key problem.keyCache

noncomputable def valueCacheAfter (problem : AttentionProblem) : List ℝ :=
  problem.cacheAfter problem.value problem.valueCache

noncomputable def cachesAfter (problem : AttentionProblem) : KVCaches EReal :=
  ⟨asFloats problem.keyCacheAfter, asFloats problem.valueCacheAfter⟩

theorem length_cacheAfter (tensor cache : List ℝ) : (problem.cacheAfter tensor cache).length =
    problem.cacheSlots * problem.args.elementsPerToken := by
  rw [cacheAfter, List.length_map, List.length_range]

/-- A cache whose slots hold the rows of the batch is the cache after the batch. -/
theorem eq_cacheAfter {tensor cache : List ℝ} {cache' : List EReal}
    (hcache : cache.length = problem.cacheSlots * problem.args.elementsPerToken)
    (hlength : cache'.length = problem.cacheSlots * problem.args.elementsPerToken)
    (h : RowsStored (appended tensor problem.args.elementsPerToken)
      (problem.metadata.slots.getD · 0) problem.batch.numTokens problem.args.elementsPerToken
      ((asFloats cache)[·]?) (cache'[·]?)) :
    cache' = asFloats (problem.cacheAfter tensor cache) := by
  refine List.ext_getElem? fun i => ?_
  by_cases hi : i < problem.cacheSlots * problem.args.elementsPerToken
  · obtain ⟨_, hwithin⟩ := div_mod_of_lt hi
    rw [asFloats, cacheAfter, List.getElem?_map, List.getElem?_map, List.getElem?_range hi]
    by_cases hslot : i / problem.args.elementsPerToken ∈ problem.metadata.slots
    · have htoken := List.idxOf_lt_length_of_mem hslot
      have hsplit : problem.metadata.slots.getD (problem.metadata.slots.idxOf
          (i / problem.args.elementsPerToken)) 0 * problem.args.elementsPerToken +
            i % problem.args.elementsPerToken = i := by
        rw [List.getD_eq_getElem?_getD, List.getElem?_eq_getElem htoken, Option.getD_some,
          List.getElem_idxOf, Nat.div_add_mod']
      have hstored := h.stored _ (batchSpec.length_slots ▸ htoken) _ hwithin
      rw [hsplit] at hstored
      rw [hstored, Option.map_some, Option.map_some, if_pos hslot]
      rfl
    · have hother : ∀ r < problem.batch.numTokens,
          problem.metadata.slots.getD r 0 ≠ i / problem.args.elementsPerToken :=
        fun r hr heq => hslot (heq ▸ List.mem_of_getElem? (batchSpec.slot_getD hr).1)
      rw [h.kept i hother, Option.map_some, Option.map_some, if_neg hslot,
        getElem?_asFloats (hcache.symm ▸ hi)]
  · rw [List.getElem?_eq_none (hlength ▸ Nat.le_of_not_lt hi), List.getElem?_eq_none (by
      rw [length_asFloats, length_cacheAfter]
      exact Nat.le_of_not_lt hi)]

theorem cuda_appendKv_eq (hfits : problem.Fits)
    (execution : CudaAttentionBackend.Execution EReal) :
    CudaAttentionBackend.appendKv problem.args execution problem.caches =
      some problem.cachesAfter := by
  let total := problem.args.totalTokens * problem.args.elementsPerToken
  have htotal : 0 < total := Nat.mul_pos numTokens_pos elementsPerToken_pos
  have hroom : total + 256 < 2 ^ 31 := hfits.appended_lt
  obtain ⟨caches, hlaunch, hsized, hscattered⟩ := execution.append.exists_launch
    ((total + 256 - 1) / 256 * 256) KVCaches.cell sized_caches
    (fun t _ t' _ hne => rowTarget_apart
      (fun _ hr _ hr' heq => slot_inj hr hr' heq) hne)
    (fun caches linear _ hsized _ => appendKvKernel_stores hfits hsized linear)
  have hstored := hscattered.rowsStored (le_gridThreads _)
  have hkey := eq_cacheAfter problem.length_keyCache hsized.1 (hstored.map Prod.fst)
  have hvalue := eq_cacheAfter problem.length_valueCache hsized.2 (hstored.map Prod.snd)
  have hblocks : CInt.ceilDiv (total : ℤ) CudaAttentionBackend.kThreads =
      some (((total + 256 - 1) / 256 : ℕ) : ℤ) := CInt.ceilDiv_natCast hroom (by decide)
  have hlaunchable : (Shape.row ((total + 256 - 1) / 256)
      CudaAttentionBackend.kThreads).Launchable :=
    Shape.launchable_row ⟨by omega, by omega⟩ (by decide)
  rw [CudaAttentionBackend.appendKv, elements_eq hfits.total_lt, Option.bind_eq_bind, Option.bind_some,
    hblocks, Option.bind_some, Int.toNat_natCast, if_pos hlaunchable]
  refine hlaunch.trans (congrArg some ?_)
  rw [cachesAfter, keyCacheAfter, valueCacheAfter, ← hkey, ← hvalue]

end AttentionProblem

end MiniVLLM
