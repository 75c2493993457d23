import MiniVLLM.Verification.Kernels.Bounds
import MiniVLLM.Verification.Kernels.TorchRows

/-! # The two backends

The CUDA extension computes what PyTorch computes, on every batch, on every cache, and whatever
the order in which the device runs its blocks and threads. -/

namespace MiniVLLM

open FloatOps

namespace AttentionProblem

variable {problem : AttentionProblem}

/-- As long as the kernels' `int`s hold its indices, the two backends leave the same caches and
return the same output: in every row the attention of its token and head over the positions of the
request up to its own. One of the two kernels stores a row, and the other one does not. -/
theorem backends_agree (problem : AttentionProblem) (hfits : problem.Fits)
    (execution : CudaAttentionBackend.Execution EReal) {sdpa : ScaledDotProductAttention EReal}
    (hsdpa : SoftmaxAttention sdpa) :
    CudaAttentionBackend.forward problem.args execution problem.caches =
        some (problem.cachesAfter, asFloats problem.outputAfter) ∧
      TorchAttentionBackend.forward problem.args sdpa problem.caches =
        some (problem.cachesAfter, asFloats problem.outputAfter) ∧
      ∀ i < problem.rows * problem.headDim, Xor
        (∃ block < problem.rows, Writes (CudaAttentionBackend.flashPrefillKernel problem.args
          problem.cachesAfter execution.prefillBlock execution.prefillShared)
          (problem.rows * problem.headDim) block i)
        (∃ block < problem.metadata.seqLens.length * problem.queryHeads,
          Writes (CudaAttentionBackend.pagedDecodeKernel problem.args problem.cachesAfter
            execution.decodeBlock execution.decodeShared) (problem.rows * problem.headDim)
            block i) := by
  refine ⟨cudaForward_eq hfits execution, torchForward_eq hsdpa, fun i hi => ?_⟩
  have hrow := (Launch.div_mod_of_lt hi).1
  have hflash : (∃ block < problem.rows, Writes (CudaAttentionBackend.flashPrefillKernel
      problem.args problem.cachesAfter execution.prefillBlock execution.prefillShared)
        (problem.rows * problem.headDim) block i) ↔
      problem.decodeRow (i / problem.headDim) = false := by
    constructor
    · rintro ⟨block, hblock, hwrites⟩
      exact (flashOwns_iff.mp ((writes_iff (fun outputs hlength => flashPrefillKernel_stores hfits hblock
        _ _ hlength) hi).mp hwrites)).2
    · intro hdecode
      exact ⟨_, hrow, (writes_iff (fun outputs hlength => flashPrefillKernel_stores hfits hrow _ _
        hlength) hi).mpr (flashOwns_iff.mpr ⟨rfl, hdecode⟩)⟩
  have hpaged : (∃ block < problem.metadata.seqLens.length * problem.queryHeads,
      Writes (CudaAttentionBackend.pagedDecodeKernel problem.args problem.cachesAfter
        execution.decodeBlock execution.decodeShared) (problem.rows * problem.headDim) block i) ↔
      problem.decodeRow (i / problem.headDim) = true := by
    constructor
    · rintro ⟨block, hblock, hwrites⟩
      exact ((pagedOwns_iff hblock hrow).mp ((writes_iff (fun outputs hlength =>
        pagedDecodeKernel_stores hfits hblock _ _ hlength) hi).mp hwrites)).1
    · intro hdecode
      obtain ⟨block, hblock, howns⟩ := exists_pagedOwns hrow hdecode
      exact ⟨block, hblock, (writes_iff (fun outputs hlength => pagedDecodeKernel_stores hfits hblock
        _ _ hlength) hi).mpr howns⟩
  rw [hflash, hpaged]
  cases problem.decodeRow (i / problem.headDim) with
  | true => exact Or.inr ⟨rfl, Bool.false_ne_true.symm⟩
  | false => exact Or.inl ⟨rfl, Bool.false_ne_true⟩

/-- The bounds are exact: with a block size that is an `int`, the backends return the same if and
only if the batch is within them. -/
theorem backends_agree_iff_fits (problem : AttentionProblem)
    (hblockSize : problem.blockSize < 2 ^ 31) (execution : CudaAttentionBackend.Execution EReal)
    {sdpa : ScaledDotProductAttention EReal} (hsdpa : SoftmaxAttention sdpa) :
    CudaAttentionBackend.forward problem.args execution problem.caches =
      TorchAttentionBackend.forward problem.args sdpa problem.caches ↔ problem.Fits := by
  rw [torchForward_eq hsdpa]
  exact ⟨fits_of_forward hblockSize, fun hfits => cudaForward_eq hfits execution⟩

end AttentionProblem

/-! ## An exact attention -/

noncomputable def tensorEntry (tensor : List (List (List EReal))) (head row dim : ℕ) : ℝ :=
  (((tensor.getD head []).getD row []).getD dim 0).toReal

noncomputable def exactAttention : ScaledDotProductAttention EReal :=
  fun query key value mask =>
    (List.range query.length).map fun head =>
      (List.range (query.getD head []).length).map fun row =>
        (List.range ((query.getD head []).getD row []).length).map fun dim =>
          ((OnlineSoftmax.attention ((query.getD head []).getD row []).length
            (tensorEntry query head row) (tensorEntry key head) (tensorEntry value head)
            ((List.range (mask.getD row []).length).filter ((mask.getD row []).getD · false)) dim :
              ℝ) : EReal)

theorem getD_map_range {β : Type} {f : ℕ → β} {count i : ℕ} (default : β) (h : i < count) :
    ((List.range count).map f).getD i default = f i := by
  rw [List.getD_eq_getElem?_getD, List.getElem?_map, List.getElem?_range h]
  rfl

theorem tensorEntry_tensorOf {heads rows width head row dim : ℕ} (entry : ℕ → ℕ → ℕ → ℝ)
    (hhead : head < heads) (hrow : row < rows) (hdim : dim < width) :
    tensorEntry (tensorOf heads rows width entry) head row dim = entry head row dim := by
  rw [tensorEntry, tensorOf, getD_map_range _ hhead, getD_map_range _ hrow, getD_map_range _ hdim,
    EReal.toReal_coe]

theorem softmaxAttention_exactAttention : SoftmaxAttention exactAttention := by
  intro heads queries tokens width query key value mask _
  have hlength : (tensorOf heads queries width query).length = heads := by simp [tensorOf]
  rw [exactAttention, hlength]
  refine List.map_congr_left fun head hhead => ?_
  have hhead' := List.mem_range.mp hhead
  rw [show (tensorOf heads queries width query).getD head [] = _ from getD_map_range _ hhead',
    List.length_map, List.length_range]
  refine List.map_congr_left fun row hrow => ?_
  have hrow' := List.mem_range.mp hrow
  rw [getD_map_range _ hrow', List.length_map, List.length_range, getD_map_range _ hrow',
    List.length_map, List.length_range]
  refine List.map_congr_left fun dim hdim => congrArg Real.toEReal ?_
  have hdim' := List.mem_range.mp hdim
  have hmask : (List.range tokens).filter (((List.range tokens).map (mask row)).getD · false) =
      (List.range tokens).filter (mask row) :=
    List.filter_congr fun token htoken => getD_map_range _ (List.mem_range.mp htoken)
  rw [hmask]
  have htokens : ∀ token ∈ (List.range tokens).filter (mask row), token < tokens :=
    fun token htoken => List.mem_range.mp (List.mem_of_mem_filter htoken)
  exact OnlineSoftmax.attention_congr
    (fun dim hdim => tensorEntry_tensorOf query hhead' hrow' hdim)
    (fun token htoken dim hdim => tensorEntry_tensorOf key hhead' (htokens token htoken) hdim)
    (fun token htoken => tensorEntry_tensorOf value hhead' (htokens token htoken) hdim')

/-! ## A mixed batch -/

namespace AttentionProblem

theorem mixed_slots_nodup :
    (GPUInputBatch.ofItems 4 GPUInputBatch.mixedBatch).slotMapping.Nodup := by decide

theorem mixed_inCache : GPUInputBatch.mixedBatch.InCache 4 8 := ⟨by decide, by decide⟩

theorem mixed_kvHeads_dvd : 1 ∣ 2 := one_dvd 2

theorem mixed_headDim_le : 1 ≤ 256 := by decide

/-- A decode token beside a prompt of two tokens, with two query heads for one K/V head. -/
noncomputable def mixed : AttentionProblem where
  blockSize := 4
  workerBatch := GPUInputBatch.mixedBatch
  batch := GPUInputBatch.ofItems 4 GPUInputBatch.mixedBatch
  maxBlocks := none
  metadata :=
    { positions := [2, 0, 1]
      slotMapping := [2, 4, 5]
      queryStartLoc := [0, 1, 3]
      seqLens := [3, 2]
      blockTables := [[0], [1]]
      requestIndices := [0, 1, 1]
      isDecode := [true, false]
      activeMask := [true, true, true]
      blockSize := 4 }
  cacheSlots := 8
  queryHeads := 2
  kvHeads := 1
  headDim := 1
  query := (List.range 6).map fun i => (i : ℝ)
  key := (List.range 3).map fun i => (i : ℝ)
  value := (List.range 3).map fun i => (i : ℝ) + 1
  keyCache := List.replicate 8 0
  valueCache := List.replicate 8 0
  accepted := rfl
  metadata_eq := rfl
  slots_nodup := mixed_slots_nodup
  inCache := mixed_inCache
  queryHeads_pos := Nat.two_pos
  kvHeads_dvd := mixed_kvHeads_dvd
  headDim_pos := Nat.one_pos
  headDim_le := mixed_headDim_le
  length_query := rfl
  length_key := rfl
  length_value := rfl
  length_keyCache := rfl
  length_valueCache := rfl

theorem mixed_fits : mixed.Fits where
  written_le := written_le_of_cache_le (by decide : 8 * (1 * 1) ≤ 2 ^ 31)
  read_le := read_le_of_cache_le (by decide : 8 * (1 * 1) ≤ 2 ^ 31)
  query_le := (by decide : (GPUInputBatch.ofItems 4 GPUInputBatch.mixedBatch).numTokens * 2 * 1 ≤
    2 ^ 31)
  appended_lt := (by decide : (GPUInputBatch.ofItems 4 GPUInputBatch.mixedBatch).numTokens *
    (1 * 1) + 256 < 2 ^ 31)
  queryHeads_le := (by decide : 2 ≤ 65535)
  tables_lt := (by decide : (2 - 1) * 1 < 2 ^ 31)
  blockSize_lt := (by decide : 4 < 2 ^ 31)

/-- A device that runs one thread after the other, with zeros in its shared memory. -/
noncomputable def sequentialExecution : CudaAttentionBackend.Execution EReal where
  append := .sequential
  prefill := .sequential
  prefillBlock := fun _ _ _ => .sequential
  prefillShared := fun _ _ => 0
  decode := .sequential
  decodeBlock := fun _ _ _ => .sequential
  decodeShared := fun _ _ => 0

theorem backends_agree_mixed :
    CudaAttentionBackend.forward mixed.args sequentialExecution mixed.caches =
      TorchAttentionBackend.forward mixed.args exactAttention mixed.caches :=
  (backends_agree mixed mixed_fits sequentialExecution softmaxAttention_exactAttention).1.trans
    (backends_agree mixed mixed_fits sequentialExecution softmaxAttention_exactAttention).2.1.symm

/-! ## A slot that is too far -/

/-- A prompt of one token, in the slot after the first `2 ^ 31` entries of a cache. -/
def farItem : WorkerItem :=
  { requestId := "a"
    tokenIds := [10]
    startPos := 0
    slotMapping := [8388608]
    blockTable := [8388608]
    seqLen := 1
    generatedCount := 0
    shouldSample := true
    temperature := 0 }

theorem far_slots_nodup : (GPUInputBatch.ofItems 1 ⟨0, [farItem]⟩).slotMapping.Nodup :=
  List.nodup_singleton _

theorem far_inCache : (WorkerBatch.mk 0 [farItem]).InCache 1 8388609 := ⟨by decide, by decide⟩

theorem far_kvHeads_dvd : 1 ∣ 1 := one_dvd 1

theorem far_headDim_pos : 0 < 256 := by decide

theorem far_headDim_le : 256 ≤ 256 := le_rfl

/-- A head of 256 entries, so the slot starts at `2 ^ 31`. -/
noncomputable def far : AttentionProblem where
  blockSize := 1
  workerBatch := ⟨0, [farItem]⟩
  batch := GPUInputBatch.ofItems 1 ⟨0, [farItem]⟩
  maxBlocks := none
  metadata :=
    { positions := [0]
      slotMapping := [8388608]
      queryStartLoc := [0, 1]
      seqLens := [1]
      blockTables := [[8388608]]
      requestIndices := [0]
      isDecode := [false]
      activeMask := [true]
      blockSize := 1 }
  cacheSlots := 8388609
  queryHeads := 1
  kvHeads := 1
  headDim := 256
  query := List.replicate 256 1
  key := List.replicate 256 1
  value := List.replicate 256 1
  keyCache := List.replicate (8388609 * (1 * 256)) 0
  valueCache := List.replicate (8388609 * (1 * 256)) 0
  accepted := rfl
  metadata_eq := rfl
  slots_nodup := far_slots_nodup
  inCache := far_inCache
  queryHeads_pos := Nat.one_pos
  kvHeads_dvd := far_kvHeads_dvd
  headDim_pos := far_headDim_pos
  headDim_le := far_headDim_le
  length_query := List.length_replicate
  length_key := List.length_replicate
  length_value := List.length_replicate
  length_keyCache := List.length_replicate
  length_valueCache := List.length_replicate

theorem not_fits_far : ¬ far.Fits := by
  intro hfits
  have hslot : 8388608 ∈ far.metadata.slots := List.mem_singleton_self _
  have hle : (8388608 + 1) * (1 * 256) ≤ 2 ^ 31 := hfits.written_le 8388608 hslot
  omega

theorem backends_agree_iff_fits_far :
    CudaAttentionBackend.forward far.args sequentialExecution far.caches ≠
      TorchAttentionBackend.forward far.args exactAttention far.caches :=
  (backends_agree_iff_fits far (by decide : 1 < 2 ^ 31) sequentialExecution
    softmaxAttention_exactAttention).not.mpr not_fits_far

/-- The kernels' `int`s overflow where PyTorch computes. -/
theorem backends_agree_overflow :
    CudaAttentionBackend.forward far.args sequentialExecution far.caches = none ∧
      ∃ result, TorchAttentionBackend.forward far.args exactAttention far.caches = some result := by
  refine ⟨?_, _, torchForward_eq softmaxAttention_exactAttention⟩
  by_contra hsome
  obtain ⟨result, hrun⟩ := Option.ne_none_iff_exists'.mp hsome
  exact not_fits_far (fits_of_forward (by decide : 1 < 2 ^ 31) hrun)

end AttentionProblem

end MiniVLLM
