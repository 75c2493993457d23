import MiniVLLM.Verification.Worker.Causal

/-! # The forward pass of an accepted batch

The chunks of a batch continue sequences whose earlier positions are in the caches. The model
gives every row the logits of its position in its sequence. -/

namespace MiniVLLM

variable {Hidden Query KeyValue Attention Logits : Type}

namespace WorkerBatch

/-- The chunk of every item stands in the slots of its positions, and no item writes a slot
of an earlier position. -/
structure Appends (blockSize : ℕ) (batch : WorkerBatch) : Prop where
  slotMapping_eq : ∀ item ∈ batch.items, item.slotMapping = (List.range' item.startPos
    (item.seqLen - item.startPos)).map (Paging.slot blockSize item.blockTable)
  slots_nodup : (batch.items.flatMap (·.slotMapping)).Nodup
  computed : ∀ item ∈ batch.items, ∀ p < item.startPos,
    Paging.slot blockSize item.blockTable p ∉ batch.items.flatMap (·.slotMapping)

/-- The items continue the sequences `tokens`. -/
def Continues (batch : WorkerBatch) (tokens : ℕ → List TokenId) : Prop :=
  ∀ r item, batch.items[r]? = some item → item.seqLen ≤ (tokens r).length ∧
    item.tokenIds = ((tokens r).drop item.startPos).take (item.seqLen - item.startPos)

end WorkerBatch

namespace GPUInputBatch

variable {blockSize cacheSlots : ℕ} {batch : WorkerBatch} {input : GPUInputBatch}
  {maxBlocks : Option ℕ} {metadata : AttentionMetadata} {item : WorkerItem} {r : ℕ}

theorem itemRows_computed (h : fromWorkerBatch batch blockSize = .ok input)
    (hitem : batch.items[r]? = some item) :
    (itemRows blockSize batch r).seqLen -
      ((itemRows blockSize batch r).stop - (itemRows blockSize batch r).start) =
        item.startPos := by
  obtain ⟨_, _, hvalid, rfl⟩ := of_fromWorkerBatch h
  obtain ⟨hr, hget⟩ := List.getElem?_eq_some_iff.mp hitem
  have hseqLen := (hvalid item (List.mem_of_getElem? hitem)).seqLen_eq
  have hlength := Ragged.starts_succ_sub
    (show r < (batch.items.map (·.tokenIds)).length by simpa using hr)
  rw [List.getElem_map, hget] at hlength
  rw [itemRows_eq hitem]
  dsimp only
  omega

theorem row_of_chunk (h : fromWorkerBatch batch blockSize = .ok input)
    (hmetadata : AttentionMetadata.fromBatch input blockSize maxBlocks = .ok metadata)
    (hcache : batch.InCache blockSize cacheSlots) (hitem : batch.items[r]? = some item) {j : ℕ}
    (hj : j < item.tokenIds.length) :
    input.queryStartLoc.getD r 0 + j < input.numTokens ∧
      metadata.requestIndices.getD (input.queryStartLoc.getD r 0 + j) 0 = r ∧
      metadata.positions.getD (input.queryStartLoc.getD r 0 + j) 0 = item.startPos + j ∧
      input.inputIds[input.queryStartLoc.getD r 0 + j]? = item.tokenIds[j]? ∧
      metadata.slots[input.queryStartLoc.getD r 0 + j]? = item.slotMapping[j]? := by
  have hspec := requestSpec_of_fromBatch h hmetadata hcache hitem
  have hslots := AttentionMetadata.slots_of_fromBatch hmetadata
  have hcomputed := itemRows_computed h hitem
  obtain ⟨hpos, _, hvalid, rfl⟩ := of_fromWorkerBatch h
  have hrow := rowSpec_ofItems hpos hvalid hitem
  have hmem := hvalid item (List.mem_of_getElem? hitem)
  obtain ⟨_, _, _, _, rfl⟩ := AttentionMetadata.eq_of_fromBatch hmetadata
  have hstart : (itemRows blockSize batch r).start =
      (ofItems blockSize batch).queryStartLoc.getD r 0 := by
    rw [itemRows_eq hitem]
    rfl
  have hseqLen : (itemRows blockSize batch r).seqLen = item.seqLen := by rw [itemRows_eq hitem]
  have hle := hspec.length_le
  have hlt := hspec.start_lt
  have hstop := hspec.stop_le
  have hitemLength := hmem.seqLen_eq
  have hstart' : (itemRows blockSize batch r).start + j < (itemRows blockSize batch r).stop := by
    omega
  rw [← hstart]
  refine ⟨hstart'.trans_le hstop, ?_, ?_, ?_, ?_⟩
  · rw [List.getD_eq_getElem?_getD, hspec.owner_eq _ (Nat.le_add_right _ _) hstart',
      Option.getD_some]
  · rw [List.getD_eq_getElem?_getD, hspec.position_eq _ (Nat.le_add_right _ _) hstart',
      Option.getD_some]
    omega
  · rw [hstart]
    exact Ragged.getElem?_slice hrow.tokenIds hj
  · rw [hstart, hslots]
    exact Ragged.getElem?_slice hrow.slotMapping (hmem.slots_length ▸ hj)

theorem exists_chunk (h : fromWorkerBatch batch blockSize = .ok input) {token : ℕ}
    (htoken : token < input.numTokens) :
    ∃ r item j, batch.items[r]? = some item ∧ j < item.tokenIds.length ∧
      token = input.queryStartLoc.getD r 0 + j := by
  obtain ⟨_, _, _, rfl⟩ := of_fromWorkerBatch h
  obtain ⟨r, hr, hle, hlt⟩ := Ragged.exists_row
    (show token < (batch.items.map (·.tokenIds)).flatten.length from htoken)
  have hr' : r < batch.items.length := by simpa using hr
  have hlength := Ragged.starts_succ_sub hr
  rw [List.getElem_map] at hlength
  exact ⟨r, batch.items[r], token - (Ragged.starts (batch.items.map (·.tokenIds))).getD r 0,
    List.getElem?_eq_getElem hr', by omega, (Nat.add_sub_cancel' hle).symm⟩

theorem appendSpec_of_fromBatch (h : fromWorkerBatch batch blockSize = .ok input)
    (hmetadata : AttentionMetadata.fromBatch input blockSize maxBlocks = .ok metadata)
    (happends : batch.Appends blockSize) (hcache : batch.InCache blockSize cacheSlots) :
    metadata.AppendSpec input.numTokens (itemRows blockSize batch) := by
  have hslots : metadata.slots = batch.items.flatMap (·.slotMapping) := by
    obtain ⟨_, _, _, rfl⟩ := of_fromWorkerBatch h
    exact AttentionMetadata.slots_of_fromBatch hmetadata
  have hseqLens : metadata.seqLens.length = batch.items.length := by
    obtain ⟨_, _, _, rfl⟩ := of_fromWorkerBatch h
    obtain ⟨_, _, _, _, rfl⟩ := AttentionMetadata.eq_of_fromBatch hmetadata
    exact List.length_map ..
  refine ⟨fun token htoken => ?_, fun r hr p hp => ?_⟩
  · obtain ⟨r, item, j, hitem, hj, rfl⟩ := exists_chunk h htoken
    obtain ⟨_, hindex, hposition, _, hslot⟩ := row_of_chunk h hmetadata hcache hitem hj
    obtain ⟨_, _, hvalid, _⟩ := of_fromWorkerBatch h
    have hmem := List.mem_of_getElem? hitem
    have hseqLen := (hvalid item hmem).seqLen_eq
    rw [happends.slotMapping_eq item hmem, List.getElem?_map,
      List.getElem?_range' (by omega), Nat.one_mul] at hslot
    rw [hindex, hposition, itemRows_eq hitem, List.getD_eq_getElem?_getD, hslot]
    rfl
  · rw [hseqLens] at hr
    have hitem := List.getElem?_eq_getElem hr
    rw [itemRows_computed h hitem] at hp
    rw [hslots, itemRows_eq hitem]
    exact happends.computed _ (List.getElem_mem hr) p hp

end GPUInputBatch

namespace LlamaForCausalLM

variable {model : LlamaForCausalLM Hidden Query KeyValue Attention Logits} {blockSize cacheSlots : ℕ}
  {batch : WorkerBatch} {input : GPUInputBatch} {maxBlocks : Option ℕ}
  {metadata : AttentionMetadata} {tokens : ℕ → List TokenId} {caches : List (LayerCache KeyValue)}

/-- The caches hold what the layers keep of the sequences before the chunks of a batch. -/
structure Cached (model : LlamaForCausalLM Hidden Query KeyValue Attention Logits) (blockSize : ℕ)
    (batch : WorkerBatch) (tokens : ℕ → List TokenId) (caches : List (LayerCache KeyValue)) :
    Prop where
  length_eq : caches.length = model.layers.length
  shown : ∀ depth r item, batch.items[r]? = some item → ∀ p < item.startPos,
    cellsOf caches depth (Paging.slot blockSize item.blockTable p) =
      model.content depth (tokens r) p

/-- What the model returns for a batch. -/
structure ForwardSpec (model : LlamaForCausalLM Hidden Query KeyValue Attention Logits)
    (blockSize : ℕ) (batch : WorkerBatch) (input : GPUInputBatch) (tokens : ℕ → List TokenId)
    (caches : List (LayerCache KeyValue)) (logits : List Logits)
    (caches' : List (LayerCache KeyValue)) : Prop where
  length_eq : caches'.length = model.layers.length
  logits_eq : ∀ r item, batch.items[r]? = some item → ∀ j < item.tokenIds.length,
    logits[input.queryStartLoc.getD r 0 + j]? =
      some (model.logitsAt (tokens r) (item.startPos + j))
  shown : ∀ depth r item, batch.items[r]? = some item → ∀ p < item.seqLen,
    cellsOf caches' depth (Paging.slot blockSize item.blockTable p) =
      model.content depth (tokens r) p
  kept : ∀ depth, ∀ slot ∉ batch.items.flatMap (·.slotMapping),
    cellsOf caches' depth slot = cellsOf caches depth slot

/-- Every row of a batch gets the logits of its position in its own sequence, and the caches hold
the sequences up to the ends of the chunks. The other slots are as they were. -/
theorem forwardSpec (h : GPUInputBatch.fromWorkerBatch batch blockSize = .ok input)
    (hmetadata : AttentionMetadata.fromBatch input blockSize maxBlocks = .ok metadata)
    (happends : batch.Appends blockSize) (hcontinues : batch.Continues tokens)
    (hcache : batch.InCache blockSize cacheSlots)
    (hcached : model.Cached blockSize batch tokens caches) :
    ∃ logits caches', model.forward input.inputIds input.positions metadata caches =
      (logits, caches') ∧ model.ForwardSpec blockSize batch input tokens caches logits caches' := by
  have hbatch := GPUInputBatch.batchSpec_of_fromBatch h hmetadata (by
    obtain ⟨_, _, _, rfl⟩ := GPUInputBatch.of_fromWorkerBatch h
    exact happends.slots_nodup) hcache
  have happend := GPUInputBatch.appendSpec_of_fromBatch h hmetadata happends hcache
  have hslots : metadata.slots = batch.items.flatMap (·.slotMapping) := by
    obtain ⟨_, _, _, rfl⟩ := GPUInputBatch.of_fromWorkerBatch h
    exact AttentionMetadata.slots_of_fromBatch hmetadata
  have hseqLens : metadata.seqLens.length = batch.items.length := by
    obtain ⟨_, _, _, rfl⟩ := GPUInputBatch.of_fromWorkerBatch h
    obtain ⟨_, _, _, _, rfl⟩ := AttentionMetadata.eq_of_fromBatch hmetadata
    exact List.length_map ..
  have hpositions : input.positions = metadata.positions := by
    obtain ⟨_, _, _, _, rfl⟩ := AttentionMetadata.eq_of_fromBatch hmetadata
    rfl
  have hembedded : input.inputIds.map model.embedTokens =
      batchRows metadata input.numTokens fun r => model.embedded (tokens r) := by
    refine List.ext_getElem? fun token => ?_
    rw [batchRows, List.getElem?_map, List.getElem?_map]
    by_cases htoken : token < input.numTokens
    · rw [List.getElem?_range htoken, Option.map_some]
      obtain ⟨r, item, j, hitem, hj, rfl⟩ := GPUInputBatch.exists_chunk h htoken
      obtain ⟨_, hindex, hposition, hinput, _⟩ :=
        GPUInputBatch.row_of_chunk h hmetadata hcache hitem hj
      obtain ⟨hle, htokenIds⟩ := hcontinues r item hitem
      obtain ⟨_, _, hvalid, _⟩ := GPUInputBatch.of_fromWorkerBatch h
      have hseqLen := (hvalid item (List.mem_of_getElem? hitem)).seqLen_eq
      rw [hinput, hindex, hposition, embedded, htokenIds, List.getElem?_take_of_lt (by omega),
        List.getElem?_drop, List.getD_eq_getElem?_getD,
        List.getElem?_eq_getElem (show item.startPos + j < (tokens r).length by omega)]
      rfl
    · have hlength : input.inputIds.length ≤ token := Nat.le_of_not_lt htoken
      rw [List.getElem?_eq_none hlength, List.getElem?_eq_none (by
        rw [List.length_range]
        exact hlength)]
      rfl
  have hcaches : ∀ depth, ∀ r < metadata.seqLens.length,
      ∀ p < (GPUInputBatch.itemRows blockSize batch r).seqLen -
        ((GPUInputBatch.itemRows blockSize batch r).stop -
          (GPUInputBatch.itemRows blockSize batch r).start),
        cellsOf caches depth ((GPUInputBatch.itemRows blockSize batch r).slot p) =
          keptAt model.layers (model.embedded (tokens r)) depth p := by
    intro depth r hr p hp
    rw [hseqLens] at hr
    have hitem := List.getElem?_eq_getElem hr
    rw [GPUInputBatch.itemRows_computed h hitem] at hp
    rw [GPUInputBatch.itemRows_eq hitem]
    exact hcached.shown depth r _ hitem p hp
  obtain ⟨caches', hforward, hlength, hshown, hkept⟩ :=
    forwardLayers_eq_causal hbatch happend hcached.length_eq hcaches
  refine ⟨(batchRows metadata input.numTokens fun r => rowsAfter model.layers
      (model.embedded (tokens r))).map model.lmHead, caches', ?_, hlength,
    fun r item hitem j hj => ?_, fun depth r item hitem p hp => ?_, fun depth slot hslot => hkept depth slot (hslots ▸ hslot)⟩
  · rw [forward, hembedded, hpositions, hforward]
  · obtain ⟨htoken, hindex, hposition, _⟩ := GPUInputBatch.row_of_chunk h hmetadata hcache hitem hj
    rw [batchRows, List.map_map, List.getElem?_map, List.getElem?_range htoken, Option.map_some,
      Function.comp_apply, hindex, hposition]
    rfl
  · obtain ⟨hr, _⟩ := List.getElem?_eq_some_iff.mp hitem
    have hcell := hshown depth r (hseqLens ▸ hr) p
    rw [GPUInputBatch.itemRows_eq hitem] at hcell
    exact hcell hp

end LlamaForCausalLM

end MiniVLLM
