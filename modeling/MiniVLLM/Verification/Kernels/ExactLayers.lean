import MiniVLLM.Model.LlamaTensors
import MiniVLLM.Verification.Kernels.TorchRows
import MiniVLLM.Verification.Worker.Causal

/-! # A layer on its tensors

A layer over the rows of its tokens is what a layer over whole tensors does, with either backend:
the tensors have the rows of the tokens, and the cache tensors have a row for every slot. -/

namespace MiniVLLM

open FloatOps

variable {Hidden Logits : Type} {config : LlamaConfig}

/-! ## Exact layers -/

/-- The head counts that the backends support. -/
structure LlamaConfig.Supported (config : LlamaConfig) : Prop where
  heads_pos : 0 < config.numAttentionHeads
  kvHeads_dvd : config.numKeyValueHeads ∣ config.numAttentionHeads
  headDim_pos : 0 < config.headDim
  headDim_le : config.headDim ≤ 256

def LlamaConfig.kvHeadOf (config : LlamaConfig) (queryHead : ℕ) : ℕ :=
  queryHead / (config.numAttentionHeads / config.numKeyValueHeads)

def LlamaConfig.kvWidth (config : LlamaConfig) : ℕ := config.numKeyValueHeads * config.headDim

theorem LlamaConfig.hiddenSize_eq (config : LlamaConfig) :
    config.numAttentionHeads * config.headDim = config.hiddenSize :=
  Nat.mul_div_cancel' config.heads_dvd

/-- What the projections make of a token, in real numbers. -/
structure ProjectedRow (config : LlamaConfig) where
  query : List ℝ
  key : List ℝ
  value : List ℝ
  length_query : query.length = config.hiddenSize
  length_key : key.length = config.kvWidth
  length_value : value.length = config.kvWidth

/-- A layer whose projections are computed exactly. -/
structure ExactLayer (config : LlamaConfig) (Hidden : Type) where
  project : Hidden → ℕ → ProjectedRow config
  finish : Hidden → List EReal → Hidden

/-- Entry `i` of the attention of a token: the softmax attention of its head over the context. -/
noncomputable def exactEntry (config : LlamaConfig) (query : List EReal)
    (context : List (List EReal × List EReal)) (i : ℕ) : ℝ :=
  OnlineSoftmax.attention config.headDim
    (fun dim => (query.getD (i / config.headDim * config.headDim + dim) 0).toReal)
    (fun position dim => ((context.getD position ([], [])).1.getD
      (config.kvHeadOf (i / config.headDim) * config.headDim + dim) 0).toReal)
    (fun position dim => ((context.getD position ([], [])).2.getD
      (config.kvHeadOf (i / config.headDim) * config.headDim + dim) 0).toReal)
    (List.range context.length) (i % config.headDim)

/-- The layer over rows, which attends to the tokens of a request without any cache. -/
noncomputable def ExactLayer.decoder (layer : ExactLayer config Hidden) :
    TensorLayer Hidden EReal where
  project := fun hidden position =>
    (asFloats (layer.project hidden position).query, asFloats (layer.project hidden position).key,
      asFloats (layer.project hidden position).value)
  attend := fun query context =>
    (List.range config.hiddenSize).map fun i => (exactEntry config query context i : EReal)
  zeros := List.replicate config.hiddenSize 0
  finish := layer.finish

/-- The cache tensors of a layer, with real numbers in them. -/
structure ExactCaches (config : LlamaConfig) (cacheSlots : ℕ) where
  keys : List ℝ
  values : List ℝ
  length_keys : keys.length = cacheSlots * config.kvWidth
  length_values : values.length = cacheSlots * config.kvWidth

variable {cacheSlots : ℕ}

namespace ExactCaches

noncomputable def tensors (caches : ExactCaches config cacheSlots) : KVCaches EReal :=
  ⟨asFloats caches.keys, asFloats caches.values⟩

/-- The rows of a slot. -/
noncomputable def rowsOf (caches : ExactCaches config cacheSlots) (slot : ℕ) :
    List EReal × List EReal :=
  (asFloats (Ragged.row caches.keys config.kvWidth slot),
    asFloats (Ragged.row caches.values config.kvWidth slot))

/-- The cache by slots has the rows of the tensors. -/
def Represents (caches : ExactCaches config cacheSlots)
    (cache : LayerCache (List EReal × List EReal)) : Prop :=
  ∀ slot < cacheSlots, cache slot = caches.rowsOf slot

end ExactCaches

/-! ## A batch in the cache -/

/-- A batch that the runner executes, with the metadata it builds. -/
structure CachedBatch (cacheSlots : ℕ) where
  blockSize : ℕ
  workerBatch : WorkerBatch
  batch : GPUInputBatch
  maxBlocks : Option ℕ
  metadata : AttentionMetadata
  accepted : GPUInputBatch.fromWorkerBatch workerBatch blockSize = .ok batch
  metadata_eq : AttentionMetadata.fromBatch batch blockSize maxBlocks = .ok metadata
  slots_nodup : batch.slotMapping.Nodup
  inCache : workerBatch.InCache blockSize cacheSlots

namespace CachedBatch

variable (b : CachedBatch cacheSlots)

structure Rows (b : CachedBatch cacheSlots) (config : LlamaConfig) where
  rows : List (ProjectedRow config)
  length_rows : rows.length = b.batch.numTokens

variable {b} {rows : b.Rows config} {caches : ExactCaches config cacheSlots}

theorem length_flatMap {f : ProjectedRow config → List ℝ} {width : ℕ}
    (hf : ∀ row, (f row).length = width) (rows : b.Rows config) :
    (rows.rows.flatMap f).length = b.batch.numTokens * width := by
  rw [List.flatMap, Ragged.length_flatten_of_width, List.length_map,
    rows.length_rows]
  intro row hrow
  obtain ⟨projected, _, rfl⟩ := List.mem_map.mp hrow
  exact hf projected

/-- One call of a backend. -/
def problem (b : CachedBatch cacheSlots) (hconfig : config.Supported) (rows : b.Rows config)
    (caches : ExactCaches config cacheSlots) : AttentionProblem where
  blockSize := b.blockSize
  workerBatch := b.workerBatch
  batch := b.batch
  maxBlocks := b.maxBlocks
  metadata := b.metadata
  cacheSlots := cacheSlots
  queryHeads := config.numAttentionHeads
  kvHeads := config.numKeyValueHeads
  headDim := config.headDim
  query := rows.rows.flatMap (·.query)
  key := rows.rows.flatMap (·.key)
  value := rows.rows.flatMap (·.value)
  keyCache := caches.keys
  valueCache := caches.values
  accepted := b.accepted
  metadata_eq := b.metadata_eq
  slots_nodup := b.slots_nodup
  inCache := b.inCache
  queryHeads_pos := hconfig.heads_pos
  kvHeads_dvd := hconfig.kvHeads_dvd
  headDim_pos := hconfig.headDim_pos
  headDim_le := hconfig.headDim_le
  length_query := by
    rw [length_flatMap ProjectedRow.length_query rows, Nat.mul_assoc, config.hiddenSize_eq]
  length_key := length_flatMap ProjectedRow.length_key rows
  length_value := length_flatMap ProjectedRow.length_value rows
  length_keyCache := caches.length_keys
  length_valueCache := caches.length_values

/-- The kernels' `int`s hold the sizes of the tensors and the tables of the batch. -/
structure Fits (b : CachedBatch cacheSlots) (config : LlamaConfig) : Prop where
  cache_le : cacheSlots * config.kvWidth ≤ 2 ^ 31
  query_le : b.batch.numTokens * config.hiddenSize ≤ 2 ^ 31
  appended_lt : b.batch.numTokens * config.kvWidth + 256 < 2 ^ 31
  heads_le : config.numAttentionHeads ≤ 65535
  tables_lt : b.metadata.seqLens.length * (b.metadata.blockTables.headD []).length < 2 ^ 31
  blockSize_lt : b.blockSize < 2 ^ 31

theorem Fits.problem (h : b.Fits config) (hconfig : config.Supported) (rows : b.Rows config)
    (caches : ExactCaches config cacheSlots) : (b.problem hconfig rows caches).Fits where
  written_le := AttentionProblem.written_le_of_cache_le h.cache_le
  read_le := AttentionProblem.read_le_of_cache_le h.cache_le
  query_le := by
    rw [Nat.mul_assoc]
    exact config.hiddenSize_eq ▸ h.query_le
  appended_lt := h.appended_lt
  queryHeads_le := h.heads_le
  tables_lt := (Nat.mul_le_mul_right _ (Nat.sub_le _ 1)).trans_lt h.tables_lt
  blockSize_lt := h.blockSize_lt

noncomputable def cachesAfter (b : CachedBatch cacheSlots) (hconfig : config.Supported)
    (rows : b.Rows config) (caches : ExactCaches config cacheSlots) :
    ExactCaches config cacheSlots where
  keys := (b.problem hconfig rows caches).keyCacheAfter
  values := (b.problem hconfig rows caches).valueCacheAfter
  length_keys := AttentionProblem.length_cacheAfter _ _
  length_values := AttentionProblem.length_cacheAfter _ _

/-! ## Appending -/

theorem batchSpec : b.metadata.BatchSpec b.batch.numTokens cacheSlots
    (GPUInputBatch.itemRows b.blockSize b.workerBatch) :=
  GPUInputBatch.batchSpec_of_fromBatch b.accepted b.metadata_eq b.slots_nodup b.inCache

theorem positions_eq : b.batch.positions = b.metadata.positions := by
  obtain ⟨_, _, _, _, hmetadata⟩ := AttentionMetadata.eq_of_fromBatch b.metadata_eq
  rw [hmetadata]

end CachedBatch

namespace AttentionProblem

variable {problem : AttentionProblem}

/-- The output of a token: the attention of its heads. -/
theorem row_outputAfter {hiddenSize token : ℕ}
    (hsize : problem.queryHeads * problem.headDim = hiddenSize)
    (htoken : token < problem.batch.numTokens) :
    Ragged.row (asFloats problem.outputAfter) hiddenSize token =
      (List.range hiddenSize).map fun i =>
        (problem.attended problem.keyCacheAfter problem.valueCacheAfter token (i / problem.headDim)
          (i % problem.headDim) : EReal) := by
  subst hsize
  refine List.ext_getElem? fun i => ?_
  by_cases hi : i < problem.queryHeads * problem.headDim
  · obtain ⟨hhead, hdim⟩ := Launch.div_mod_of_lt hi
    have hsplit : token * (problem.queryHeads * problem.headDim) + i =
        (token * problem.queryHeads + i / problem.headDim) * problem.headDim +
          i % problem.headDim := by
      rw [Nat.add_mul, Nat.mul_assoc, Nat.add_assoc, Nat.div_add_mod']
    have hindex : token * (problem.queryHeads * problem.headDim) + i <
        problem.rows * problem.headDim := by
      rw [hsplit]
      exact Launch.row_lt (Launch.row_lt htoken hhead) hdim
    rw [Ragged.getElem?_row hi, asFloats, outputAfter, List.getElem?_map, List.getElem?_map,
      List.getElem?_range hindex, List.getElem?_map, List.getElem?_range hi, hsplit]
    simp only [Option.map_some, Launch.row_div _ hdim, Launch.row_mod _ hdim,
      Launch.row_div _ hhead, Launch.row_mod _ hhead]
  · have hle := Nat.le_of_not_lt hi
    have hlength : (asFloats problem.outputAfter).length =
        problem.batch.numTokens * (problem.queryHeads * problem.headDim) := by
      rw [length_asFloats, outputAfter, List.length_map, List.length_range, rows, Nat.mul_assoc]
    rw [List.getElem?_eq_none ((Ragged.length_row hlength htoken).trans_le hle),
      List.getElem?_eq_none (by simpa using hle)]

end AttentionProblem

/-! ## A layer -/

/-- An entry of a head, within the row of its token. -/
theorem row_head {heads headDim width : ℕ} (hwidth : heads * headDim = width)
    (row head dim : ℕ) :
    row * width + (head * headDim + dim) = (row * heads + head) * headDim + dim := by
  rw [← hwidth, Nat.add_mul, Nat.mul_assoc, Nat.add_assoc]

theorem toReal_getD_asFloats (values : List ℝ) (i : ℕ) :
    ((asFloats values).getD i 0).toReal = values.getD i 0 := by
  rw [asFloats, List.getD_eq_getElem?_getD, List.getElem?_map, List.getD_eq_getElem?_getD]
  cases values[i]? with
  | none => rfl
  | some value => rfl

namespace CachedBatch

variable {b : CachedBatch cacheSlots} {caches : ExactCaches config cacheSlots}
  {cache : LayerCache (List EReal × List EReal)}

theorem row_flatMap (rows : b.Rows config) {f : ProjectedRow config → List ℝ} {width token : ℕ}
    {row : ProjectedRow config} (hf : ∀ row, (f row).length = width)
    (hrow : rows.rows[token]? = some row) :
    Ragged.row (rows.rows.flatMap f) width token = f row := by
  rw [List.flatMap, Ragged.row_flatten]
  · intro part hpart
    obtain ⟨projected, _, rfl⟩ := List.mem_map.mp hpart
    exact hf projected
  · rw [List.getElem?_map, hrow]
    rfl

theorem attention_eq (hconfig : config.Supported) (layer : ExactLayer config Hidden)
    (rows : b.Rows config) (h : (b.cachesAfter hconfig rows caches).Represents cache) :
    layer.decoder.attention cache b.metadata (rows.rows.map fun row => asFloats row.query) =
      LlamaAttention.reshape (asFloats (b.problem hconfig rows caches).outputAfter)
        config.hiddenSize b.batch.numTokens := by
  have hqueries : (rows.rows.map fun row => asFloats row.query) =
      (List.range b.batch.numTokens).map fun token =>
        asFloats (Ragged.row (rows.rows.flatMap (·.query)) config.hiddenSize token) := by
    refine List.ext_getElem? fun token => ?_
    by_cases htoken : token < b.batch.numTokens
    · have hrow := List.getElem?_eq_getElem (htoken.trans_eq rows.length_rows.symm)
      rw [List.getElem?_map, hrow, List.getElem?_map, List.getElem?_range htoken, Option.map_some,
        Option.map_some, row_flatMap rows ProjectedRow.length_query hrow]
    · have hle := Nat.le_of_not_lt htoken
      rw [List.getElem?_eq_none (by rw [List.length_map, rows.length_rows]; exact hle),
        List.getElem?_eq_none (by simpa using hle)]
  rw [hqueries, LlamaDecoderLayer.attention_eq_batch batchSpec, LlamaAttention.reshape]
  refine List.map_congr_left fun token htoken => ?_
  have htoken' := List.mem_range.mp htoken
  obtain ⟨r, hr, hspec, hle, hlt, _, hindex, _, hposition⟩ := batchSpec.exists_request htoken'
  have hlength := hspec.length_le
  rw [AttentionProblem.row_outputAfter config.hiddenSize_eq htoken']
  refine List.map_congr_left fun i hi => congrArg Real.toEReal ?_
  obtain ⟨hhead, hdim'⟩ := Launch.div_mod_of_lt ((List.mem_range.mp hi).trans_eq
    config.hiddenSize_eq.symm)
  have hkvHead : config.kvHeadOf (i / config.headDim) < config.numKeyValueHeads :=
    @AttentionProblem.kvHeadOf_lt (b.problem hconfig rows caches) _ hhead
  have hslot : ∀ p ∈ List.range (b.metadata.positions.getD token 0 + 1),
      (GPUInputBatch.itemRows b.blockSize b.workerBatch
        (b.metadata.requestIndices.getD token 0)).slot p < cacheSlots := by
    intro p hp
    rw [hindex]
    exact hspec.slot_lt p (by have := List.mem_range.mp hp; omega)
  have hcontext : ∀ p ∈ List.range (b.metadata.positions.getD token 0 + 1),
      (((List.range (b.metadata.positions.getD token 0 + 1)).map fun p =>
        cache ((GPUInputBatch.itemRows b.blockSize b.workerBatch
          (b.metadata.requestIndices.getD token 0)).slot p)).getD p ([], [])) =
        (b.cachesAfter hconfig rows caches).rowsOf ((GPUInputBatch.itemRows b.blockSize
          b.workerBatch (b.metadata.requestIndices.getD token 0)).slot p) := by
    intro p hp
    rw [List.getD_eq_getElem?_getD, List.getElem?_map, List.getElem?_range (List.mem_range.mp hp)]
    exact h _ (hslot p hp)
  rw [exactEntry, List.length_map, List.length_range]
  refine OnlineSoftmax.attention_congr (fun dim hdim => ?_) (fun p hp dim hdim => ?_)
    (fun p hp => ?_)
  · rw [toReal_getD_asFloats, Ragged.getD_row ((Launch.row_lt hhead hdim).trans_eq
      config.hiddenSize_eq)]
    exact congrArg (List.getD _ · 0) (row_head config.hiddenSize_eq token _ dim)
  · rw [hcontext p hp, ExactCaches.rowsOf, toReal_getD_asFloats, Ragged.getD_row
      (show _ < config.kvWidth from Launch.row_lt hkvHead hdim)]
    exact congrArg (List.getD _ · 0) (row_head rfl _ _ dim)
  · rw [hcontext p hp, ExactCaches.rowsOf, toReal_getD_asFloats, Ragged.getD_row
      (show _ < config.kvWidth from Launch.row_lt hkvHead hdim')]
    exact congrArg (List.getD _ · 0) (row_head rfl _ _ _)

def rowsOf (b : CachedBatch cacheSlots) (layer : ExactLayer config Hidden) {hidden : List Hidden}
    (hhidden : hidden.length = b.batch.numTokens) : b.Rows config where
  rows := List.zipWith layer.project hidden b.batch.positions
  length_rows := by
    rw [List.length_zipWith, hhidden, positions_eq, batchSpec.length_positions, Nat.min_self]

end CachedBatch

end MiniVLLM
