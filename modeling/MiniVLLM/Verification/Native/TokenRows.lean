import MiniVLLM.Verification.Native.Bootstrap
import MiniVLLM.Verification.Worker.Serving

/-! # Attention over the tokens of a request

The bootstrap runtimes compute keys and values from token ids. So the output of a request is a
function of its tokens, wherever they are stored. -/

namespace MiniVLLM

open KVCacheManager Scheduler EngineCore

namespace Bootstrap

/-! ## Vectors of tokens -/

noncomputable def tokenKey (tokenId : ℤ) (dim : ℕ) : ℝ :=
  Real.sin (tokenId * 0.01 + dim * 0.17)

noncomputable def tokenValue (tokenId : ℤ) (dim : ℕ) : ℝ :=
  Real.sin (tokenId * 0.01 + dim * 0.31)

/-- The softmax attention of the last of some tokens over all of them. -/
noncomputable def tokenRow (headDim : ℕ) (tokens : List TokenId) : List EReal :=
  softmaxRow headDim (fun token => tokenKey token) (fun token => tokenValue token) tokens

/-- The same over token ids that were converted to `int`. -/
noncomputable def intRow (headDim : ℕ) (tokens : List TokenId) : List EReal :=
  softmaxRow headDim (fun token => tokenKey (CInt.wrap token))
    (fun token => tokenValue (CInt.wrap token)) tokens

theorem sin_eq (tokenId : ℤ) (dim : ℕ) (phase : ℝ) (mantissa exponent : ℕ) (sign : Bool) :
    FloatOps.sin ((tokenId : EReal) * OfScientific.ofScientific mantissa sign exponent +
        ((dim : ℤ) : EReal) * (phase : EReal)) =
      ((Real.sin (tokenId * OfScientific.ofScientific mantissa sign exponent + dim * phase) : ℝ) :
        EReal) := by
  show ((Real.sin (EReal.toReal (((tokenId : ℝ) : EReal) *
    ((OfScientific.ofScientific mantissa sign exponent : ℝ) : EReal) +
      (((dim : ℤ) : ℝ) : EReal) * (phase : EReal))) : ℝ) : EReal) = _
  rw [← EReal.coe_mul, ← EReal.coe_mul, ← EReal.coe_add, EReal.toReal_coe, Int.cast_natCast]

theorem keyEntry_eq (tokenId : ℤ) (dim : ℕ) :
    (keyEntry tokenId dim : EReal) = ((tokenKey tokenId dim : ℝ) : EReal) :=
  sin_eq tokenId dim 0.17 1 2 true

theorem valueEntry_eq (tokenId : ℤ) (dim : ℕ) :
    (valueEntry tokenId dim : EReal) = ((tokenValue tokenId dim : ℝ) : EReal) :=
  sin_eq tokenId dim 0.31 1 2 true

theorem vector_key_eq (headDim : ℕ) (tokenId : TokenId) :
    ReferenceKernelRuntime.vector headDim tokenId (0.17 : EReal) =
      vectorOf headDim (tokenKey tokenId) := by
  rw [ReferenceKernelRuntime.vector, vectorOf, bind_pure_comp, List.map_eq_map, List.map_map]
  exact List.map_congr_left fun dim _ => keyEntry_eq tokenId dim

theorem vector_value_eq (headDim : ℕ) (tokenId : TokenId) :
    ReferenceKernelRuntime.vector headDim tokenId (0.31 : EReal) =
      vectorOf headDim (tokenValue tokenId) := by
  rw [ReferenceKernelRuntime.vector, vectorOf, bind_pure_comp, List.map_eq_map, List.map_map]
  exact List.map_congr_left fun dim _ => valueEntry_eq tokenId dim

theorem softmaxRow_map {headDim : ℕ} {key value : ℕ → ℕ → ℝ} {slots : List ℕ} (f : ℕ → ℕ)
    (hne : slots ≠ []) :
    softmaxRow headDim (fun slot => key (f slot)) (fun slot => value (f slot)) slots =
      softmaxRow headDim key value (slots.map f) := by
  have hlast : (slots.map f).getLastD 0 = f (slots.getLastD 0) := by
    rw [List.getLastD_eq_getLast?, List.getLastD_eq_getLast?, List.getLast?_map,
      List.getLast?_eq_getLast_of_ne_nil hne]
    rfl
  have hscored : scored headDim (fun slot => key (f slot)) (fun slot => value (f slot)) slots =
      scored headDim key value (slots.map f) := by
    rw [scored, scored, List.map_map, hlast]
    rfl
  rw [softmaxRow, softmaxRow, hscored]

end Bootstrap

/-! ## The context of a dispatched batch -/

open GPUInputBatch (ContextSpec exists_contextSpec)

def tokenAt (store : Store) (slot : ℕ) : TokenId := (store slot).getD 0

section Context

variable {config : EngineConfig} {s admitted : Scheduler} {items : List WorkerItem}
  {m' : KVCacheManager} {store : Store}

theorem Scheduler.Scheduled.context_lt (h : Scheduled config s admitted items m') {slot : ℕ}
    (hslot : slot ∈ items.flatMap (GPUInputBatch.contextOf config.blockSize)) :
    slot < config.numGpuBlocks * config.blockSize := by
  obtain ⟨item, hitem, hmem⟩ := List.mem_flatMap.mp hslot
  obtain ⟨p, hp, rfl⟩ := List.mem_map.mp hmem
  exact h.slot_lt hitem (List.mem_range.mp hp)

/-- A batch has no more known positions than the cache has slots. -/
theorem Scheduler.Scheduled.length_context_le (h : Scheduled config s admitted items m') :
    (items.flatMap (GPUInputBatch.contextOf config.blockSize)).length ≤
      config.numGpuBlocks * config.blockSize := by
  have hsubset : items.flatMap (GPUInputBatch.contextOf config.blockSize) ⊆
      List.range (config.numGpuBlocks * config.blockSize) :=
    fun _ hslot => List.mem_range.mpr (h.context_lt hslot)
  simpa using (List.subperm_of_subset h.context_nodup hsubset).length_le

theorem Dispatched.rowSpec (h : Dispatched config s admitted items m' store) (batchId : ℕ)
    {index : ℕ} (hindex : index < items.length) :
    RowSpec config.blockSize (GPUInputBatch.ofItems config.blockSize ⟨batchId, items⟩) index
      items[index] :=
  GPUInputBatch.rowSpec_ofItems config.blockSize_pos h.scheduled.valid
    (List.getElem?_eq_getElem hindex)

theorem Dispatched.decodeBatch (h : Dispatched config s admitted items m' store) (batchId : ℕ)
    (huniform : (GPUInputBatch.ofItems config.blockSize
      ⟨batchId, items⟩).descriptor.uniformDecode = true) :
    DecodeBatch config.blockSize items.length (GPUInputBatch.widthOf config.blockSize items)
      (GPUInputBatch.ofItems config.blockSize ⟨batchId, items⟩) :=
  GPUInputBatch.decodeBatch_ofItems config.blockSize_pos h.ne h.scheduled.valid huniform

theorem Dispatched.exists_context (h : Dispatched config s admitted items m' store) (batchId : ℕ)
    {index : ℕ} (hindex : index < items.length) :
    ∃ r slots, admitted.running.get? items[index].requestId = some r ∧
      ContextSpec config.blockSize (GPUInputBatch.ofItems config.blockSize ⟨batchId, items⟩) index
        slots ∧
      slots.map (Paging.write store (batchPairs items)) =
        (r.allTokenIds.take items[index].seqLen).map some := by
  obtain ⟨r, hr, _⟩ := h.scheduled.issued (List.getElem_mem hindex)
  have hinput := GPUInputBatch.fromWorkerBatch_eq ⟨batchId, items⟩ config.blockSize_pos h.ne
    h.scheduled.valid
  have hrequests : index <
      (GPUInputBatch.ofItems config.blockSize ⟨batchId, items⟩).numRequests := by
    rw [GPUInputBatch.numRequests_ofItems]
    exact hindex
  obtain ⟨_, slots, _, _, hslots⟩ := exists_contextSpec hinput hrequests
  have hread := h.scheduled.contextTokens_eq h.settled h.holds batchId hindex hr
  rw [Worker.contextTokens, hslots.slice_eq] at hread
  exact ⟨r, slots, hr, hslots, Paging.of_readAll hread⟩

theorem tokenAt_map {slots : List ℕ} {tokens : List TokenId}
    (h : slots.map store = tokens.map some) : slots.map (tokenAt store) = tokens := by
  have hget := congrArg (List.map fun token? : Option TokenId => token?.getD 0) h
  rw [List.map_map, List.map_map] at hget
  exact hget.trans (List.map_id tokens)

theorem Dispatched.context_stored (h : Dispatched config s admitted items m' store) (batchId : ℕ)
    {slot : ℕ} (hslot : slot ∈
      (GPUInputBatch.ofItems config.blockSize ⟨batchId, items⟩).contextSlotMapping) :
    Paging.write store (batchPairs items) slot =
      some (tokenAt (Paging.write store (batchPairs items)) slot) := by
  obtain ⟨context, hcontext, hmem⟩ := List.mem_flatten.mp hslot
  obtain ⟨item, hitem, rfl⟩ := List.mem_map.mp hcontext
  obtain ⟨index, hindex, rfl⟩ := List.mem_iff_getElem.mp hitem
  obtain ⟨r, slots, _, hslots, hstored⟩ := h.exists_context batchId hindex
  have hrow := h.rowSpec batchId hindex
  have hsame : slots = GPUInputBatch.contextOf config.blockSize items[index] :=
    hslots.slice_eq.symm.trans hrow.context
  rw [← hsame] at hmem
  have hsome : Paging.write store (batchPairs items) slot ∈
      slots.map (Paging.write store (batchPairs items)) := List.mem_map_of_mem hmem
  rw [hstored] at hsome
  obtain ⟨token, _, htoken⟩ := List.mem_map.mp hsome
  rw [tokenAt, ← htoken]
  rfl

/-- The softmax row over the context slots of a request is that over its known tokens. -/
theorem Dispatched.softmaxRow_eq (h : Dispatched config s admitted items m' store) (batchId : ℕ)
    (headDim : ℕ) (key value : ℕ → ℕ → ℝ) {index : ℕ} (hindex : index < items.length) :
    ∃ r slots, admitted.running.get? items[index].requestId = some r ∧
      ContextSpec config.blockSize (GPUInputBatch.ofItems config.blockSize ⟨batchId, items⟩) index
        slots ∧
      Bootstrap.softmaxRow headDim
          (fun slot => key (tokenAt (Paging.write store (batchPairs items)) slot))
          (fun slot => value (tokenAt (Paging.write store (batchPairs items)) slot)) slots =
        Bootstrap.softmaxRow headDim key value (r.allTokenIds.take items[index].seqLen) := by
  obtain ⟨r, slots, hr, hslots, hstored⟩ := h.exists_context batchId hindex
  refine ⟨r, slots, hr, hslots, ?_⟩
  rw [Bootstrap.softmaxRow_map _ hslots.slots_ne, tokenAt_map hstored]

end Context

/-- What a bootstrap runner does for the item of a batch: it samples the next token of the response
if it is asked to, and the output is the row of the known tokens of the request. -/
def ItemServed (row : List TokenId → List EReal) (s : Scheduler) (sampled : Dict RequestId TokenId)
    (item : WorkerItem) (output : List EReal) : Prop :=
  ∃ r, s.running.get? item.requestId = some r ∧
    sampled.get? item.requestId = (if item.shouldSample then
      some (BootstrapModelRunner.responseToken r.outputTokenIds.length) else none) ∧
    output = row (r.allTokenIds.take item.seqLen)

end MiniVLLM
