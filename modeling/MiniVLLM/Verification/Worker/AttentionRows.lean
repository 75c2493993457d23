import MiniVLLM.Verification.Worker.Flattening

/-! # The rows of attention

What the attention backends find in the metadata of an accepted batch: every token belongs to one
request, and the table of a request leads to the slots of its positions. -/

namespace MiniVLLM

open KVCacheManager

/-- The part of the metadata that belongs to one request. -/
structure RequestRows where
  start : ℕ
  stop : ℕ
  seqLen : ℕ
  decode : Bool
  slot : ℕ → ℕ

namespace AttentionMetadata

variable {metadata : AttentionMetadata} {totalTokens cacheSlots r : ℕ} {rows : RequestRows}

/-- Request `r` of the metadata. -/
structure RequestSpec (metadata : AttentionMetadata) (totalTokens cacheSlots r : ℕ)
    (rows : RequestRows) : Prop where
  start_eq : metadata.queryStartLoc[r]? = some rows.start
  stop_eq : metadata.queryStartLoc[r + 1]? = some rows.stop
  start_lt : rows.start < rows.stop
  stop_le : rows.stop ≤ totalTokens
  length_le : rows.stop - rows.start ≤ rows.seqLen
  seqLen_eq : metadata.seqLens[r]? = some rows.seqLen
  decode_eq : metadata.isDecode[r]? = some rows.decode
  decode_single : rows.decode = true → rows.stop = rows.start + 1
  position_eq : ∀ token, rows.start ≤ token → token < rows.stop →
    metadata.positions[token]? = some (rows.seqLen - (rows.stop - token))
  owner_eq : ∀ token, rows.start ≤ token → token < rows.stop →
    metadata.requestIndices[token]? = some r
  table_eq : ∃ table, metadata.blockTables[r]? = some table ∧ ∀ position < rows.seqLen,
    ∃ block : ℕ, table[position / metadata.blockSize]? = some (block : ℤ) ∧
      block * metadata.blockSize + position % metadata.blockSize = rows.slot position
  slot_lt : ∀ position < rows.seqLen, rows.slot position < cacheSlots

/-- The metadata of an accepted batch whose slots and blocks lie in the cache. -/
structure BatchSpec (metadata : AttentionMetadata) (totalTokens cacheSlots : ℕ)
    (request : ℕ → RequestRows) : Prop where
  slotMapping_eq : metadata.slotMapping = metadata.slots.map Nat.cast
  length_slots : metadata.slots.length = totalTokens
  slots_nodup : metadata.slots.Nodup
  slots_lt : ∀ slot ∈ metadata.slots, slot < cacheSlots
  activeMask_eq : metadata.activeMask = List.replicate totalTokens true
  length_positions : metadata.positions.length = totalTokens
  table_width : ∀ table ∈ metadata.blockTables,
    table.length = (metadata.blockTables.headD []).length
  requests_pos : 0 < metadata.seqLens.length
  seqLens_lt : ∀ seqLen ∈ metadata.seqLens, seqLen < 2 ^ 31
  rows : ∀ r < metadata.seqLens.length,
    RequestSpec metadata totalTokens cacheSlots r (request r)
  owner : ∀ token < totalTokens, ∃ r < metadata.seqLens.length,
    (request r).start ≤ token ∧ token < (request r).stop

namespace BatchSpec

variable {request : ℕ → RequestRows} {token r' : ℕ}

theorem exists_request (h : metadata.BatchSpec totalTokens cacheSlots request)
    (htoken : token < totalTokens) :
    ∃ r < metadata.seqLens.length, RequestSpec metadata totalTokens cacheSlots r (request r) ∧
      (request r).start ≤ token ∧ token < (request r).stop ∧
      metadata.requestIndices[token]? = some r ∧ metadata.requestIndices.getD token 0 = r ∧
      metadata.positions[token]? = some (metadata.positions.getD token 0) ∧
      metadata.positions.getD token 0 = (request r).seqLen - ((request r).stop - token) := by
  obtain ⟨r, hr, hle, hlt⟩ := h.owner token htoken
  have hspec := h.rows r hr
  have howner := hspec.owner_eq token hle hlt
  have hposition := hspec.position_eq token hle hlt
  have hgetD : metadata.positions.getD token 0 =
      (request r).seqLen - ((request r).stop - token) := by
    rw [List.getD_eq_getElem?_getD, hposition, Option.getD_some]
  refine ⟨r, hr, hspec, hle, hlt, howner, ?_, hgetD.symm ▸ hposition, hgetD⟩
  rw [List.getD_eq_getElem?_getD, howner, Option.getD_some]

theorem request_unique (h : metadata.BatchSpec totalTokens cacheSlots request)
    (hr : r < metadata.seqLens.length) (hr' : r' < metadata.seqLens.length)
    (hle : (request r).start ≤ token) (hlt : token < (request r).stop)
    (hle' : (request r').start ≤ token) (hlt' : token < (request r').stop) : r = r' :=
  Option.some.inj (((h.rows r hr).owner_eq token hle hlt).symm.trans
    ((h.rows r' hr').owner_eq token hle' hlt'))

theorem totalTokens_pos (h : metadata.BatchSpec totalTokens cacheSlots request) :
    0 < totalTokens := by
  have hspec := h.rows 0 h.requests_pos
  exact (Nat.zero_lt_of_lt hspec.start_lt).trans_le hspec.stop_le

/-- Every request has a token of its own. -/
theorem requests_le (h : metadata.BatchSpec totalTokens cacheSlots request) :
    metadata.seqLens.length ≤ totalTokens := by
  have hmaps : Set.MapsTo (fun r => (request r).start) (Finset.range metadata.seqLens.length)
      (Finset.range totalTokens) := by
    intro r hr
    have hspec := h.rows r (Finset.mem_range.mp hr)
    exact Finset.mem_coe.mpr (Finset.mem_range.mpr (hspec.start_lt.trans_le hspec.stop_le))
  have hinj : Set.InjOn (fun r => (request r).start) (Finset.range metadata.seqLens.length) := by
    intro r hr r' hr' heq
    have hlt := Finset.mem_range.mp hr
    have hlt' := Finset.mem_range.mp hr'
    have hstart : (request r).start = (request r').start := heq
    exact h.request_unique hlt hlt' le_rfl (h.rows r hlt).start_lt hstart.ge
      (hstart ▸ (h.rows r' hlt').start_lt)
  simpa using Finset.card_le_card_of_injOn _ hmaps hinj

theorem slot_getD (h : metadata.BatchSpec totalTokens cacheSlots request)
    (htoken : token < totalTokens) :
    metadata.slots[token]? = some (metadata.slots.getD token 0) ∧
      metadata.slots.getD token 0 < cacheSlots := by
  have hlt : token < metadata.slots.length := h.length_slots.symm ▸ htoken
  rw [List.getD_eq_getElem?_getD, List.getElem?_eq_getElem hlt]
  exact ⟨rfl, h.slots_lt _ (List.getElem_mem hlt)⟩

theorem slots_eq (h : metadata.BatchSpec totalTokens cacheSlots request) :
    metadata.slots = (List.range totalTokens).map (metadata.slots.getD · 0) := by
  refine List.ext_getElem? fun token => ?_
  by_cases htoken : token < totalTokens
  · rw [(h.slot_getD htoken).1, List.getElem?_map, List.getElem?_range htoken, Option.map_some]
  · rw [List.getElem?_eq_none (by rw [h.length_slots]; omega),
      List.getElem?_eq_none (by rw [List.length_map, List.length_range]; omega)]

theorem slotMapping_range (h : metadata.BatchSpec totalTokens cacheSlots request) :
    metadata.slotMapping =
      (List.range totalTokens).map fun token => (metadata.slots.getD token 0 : ℤ) := by
  conv_lhs => rw [h.slotMapping_eq, h.slots_eq]
  exact List.map_map ..

theorem length_slotMapping (h : metadata.BatchSpec totalTokens cacheSlots request) :
    metadata.slotMapping.length = totalTokens := by
  rw [h.slotMapping_eq, List.length_map, h.length_slots]

theorem positions_eq (h : metadata.BatchSpec totalTokens cacheSlots request) :
    metadata.positions = (List.range totalTokens).map (metadata.positions.getD · 0) := by
  refine List.ext_getElem? fun token => ?_
  by_cases htoken : token < totalTokens
  · obtain ⟨_, _, _, _, _, _, _, hposition, _⟩ := h.exists_request htoken
    rw [hposition, List.getElem?_map, List.getElem?_range htoken, Option.map_some]
  · rw [List.getElem?_eq_none (by rw [h.length_positions]; omega),
      List.getElem?_eq_none (by rw [List.length_map, List.length_range]; omega)]

end BatchSpec

end AttentionMetadata

namespace WorkerBatch

/-- The slots and the blocks of a batch lie in a cache of `cacheSlots` slots. -/
structure InCache (blockSize cacheSlots : ℕ) (batch : WorkerBatch) : Prop where
  slot_lt : ∀ item ∈ batch.items, ∀ slot ∈ item.slotMapping, slot < cacheSlots
  block_le : ∀ item ∈ batch.items, ∀ block ∈ item.blockTable,
    block * blockSize + blockSize ≤ cacheSlots

end WorkerBatch

namespace GPUInputBatch

variable {blockSize cacheSlots : ℕ} {batch : WorkerBatch} {item : WorkerItem} {r : ℕ}

def itemRows (blockSize : ℕ) (batch : WorkerBatch) (r : ℕ) : RequestRows :=
  match batch.items[r]? with
  | none => ⟨0, 0, 0, false, fun _ => 0⟩
  | some item =>
      { start := (Ragged.starts (batch.items.map (·.tokenIds))).getD r 0
        stop := (Ragged.starts (batch.items.map (·.tokenIds))).getD (r + 1) 0
        seqLen := item.seqLen
        decode := decide (item.tokenIds.length = 1) && decide (0 < item.generatedCount)
        slot := Paging.slot blockSize item.blockTable }

theorem slot_lt_of_block (hpos : 0 < blockSize) (hvalid : ValidItem blockSize item)
    (hblocks : ∀ block ∈ item.blockTable, block * blockSize + blockSize ≤ cacheSlots) {p : ℕ}
    (hp : p < item.seqLen) : Paging.slot blockSize item.blockTable p < cacheSlots := by
  have hcovers : Paging.Covers blockSize item.blockTable item.seqLen :=
    (covers_iff hpos).mpr hvalid.table_length
  have hdiv := hcovers.div_lt hp
  have hblock := hblocks _ (List.getElem_mem hdiv)
  have hoffset := Nat.mod_lt p hpos
  rw [Paging.slot_eq_getElem hdiv]
  omega

theorem length_positions_ofItems (h : ∀ item ∈ batch.items, ValidItem blockSize item) :
    (ofItems blockSize batch).positions.length = (ofItems blockSize batch).numTokens := by
  show (batch.items.flatMap fun item =>
      List.range' item.startPos (item.seqLen - item.startPos)).length =
    (batch.items.map (·.tokenIds)).flatten.length
  rw [List.length_flatMap, List.length_flatten, List.map_map]
  refine congrArg List.sum (List.map_congr_left fun item hitem => ?_)
  rw [List.length_range', (h item hitem).seqLen_eq, Nat.add_sub_cancel_left]
  rfl

theorem length_slotMapping_ofItems (h : ∀ item ∈ batch.items, ValidItem blockSize item) :
    (ofItems blockSize batch).slotMapping.length = (ofItems blockSize batch).numTokens := by
  show (batch.items.flatMap (·.slotMapping)).length = (batch.items.map (·.tokenIds)).flatten.length
  rw [List.length_flatMap, List.length_flatten, List.map_map]
  exact congrArg List.sum (List.map_congr_left fun item hitem => (h item hitem).slots_length.symm)

theorem itemRows_eq (hitem : batch.items[r]? = some item) :
    itemRows blockSize batch r =
      { start := (Ragged.starts (batch.items.map (·.tokenIds))).getD r 0
        stop := (Ragged.starts (batch.items.map (·.tokenIds))).getD (r + 1) 0
        seqLen := item.seqLen
        decode := decide (item.tokenIds.length = 1) && decide (0 < item.generatedCount)
        slot := Paging.slot blockSize item.blockTable } := by
  rw [itemRows, hitem]

theorem requestSpec_of_fromBatch {input : GPUInputBatch} {maxBlocks : Option ℕ}
    {metadata : AttentionMetadata} (h : fromWorkerBatch batch blockSize = .ok input)
    (hmetadata : AttentionMetadata.fromBatch input blockSize maxBlocks = .ok metadata)
    (hcache : batch.InCache blockSize cacheSlots) (hitem : batch.items[r]? = some item) :
    metadata.RequestSpec input.numTokens cacheSlots r (itemRows blockSize batch r) := by
  obtain ⟨hpos, _, hvalid, rfl⟩ := of_fromWorkerBatch h
  have hrow := rowSpec_ofItems hpos hvalid hitem
  obtain ⟨width, tableWidth, _, _, rfl⟩ := AttentionMetadata.eq_of_fromBatch hmetadata
  obtain ⟨hr, hget⟩ := List.getElem?_eq_some_iff.mp hitem
  have hmem := hvalid item (List.mem_of_getElem? hitem)
  have htokens := List.length_pos_of_ne_nil hmem.tokenIds_ne
  have hseqLen := hmem.seqLen_eq
  let starts := Ragged.starts (batch.items.map (·.tokenIds))
  have hr' : r < (batch.items.map (·.tokenIds)).length := by simpa using hr
  have hlength : starts.getD (r + 1) 0 - starts.getD r 0 = item.tokenIds.length := by
    rw [Ragged.starts_succ_sub hr', List.getElem_map, hget]
  have hstart : ∀ i ≤ (batch.items.map (·.tokenIds)).length, starts[i]? = some (starts.getD i 0) := by
    intro i hi
    have hlt : i < starts.length := by
      rw [Ragged.length_starts]
      exact Nat.lt_succ_of_le hi
    rw [List.getD_eq_getElem?_getD, List.getElem?_eq_getElem hlt]
    rfl
  have hstop : starts.getD (r + 1) 0 ≤ (ofItems blockSize batch).numTokens := by
    have hmono := Ragged.starts_mono (Nat.succ_le_of_lt hr') le_rfl
    rwa [Ragged.getD_starts le_rfl, List.take_length] at hmono
  rw [itemRows_eq hitem]
  refine ⟨hstart r hr'.le, hstart (r + 1) hr', ?_, hstop, ?_, ?_, ?_, fun hdecode => ?_,
    fun token hle hlt => ?_, fun token hle hlt => ?_, ?_,
    fun p hp => slot_lt_of_block hpos hmem (hcache.block_le item (List.mem_of_getElem? hitem)) hp⟩
  · show starts.getD r 0 < starts.getD (r + 1) 0
    omega
  · show starts.getD (r + 1) 0 - starts.getD r 0 ≤ item.seqLen
    omega
  · exact (List.getElem?_map ..).trans (congrArg (Option.map _) hitem)
  · exact (List.getElem?_map ..).trans (congrArg (Option.map _) hitem)
  · have hsingle : item.tokenIds.length = 1 := by
      simpa using (Bool.and_eq_true_iff.mp hdecode).1
    show starts.getD (r + 1) 0 = starts.getD r 0 + 1
    omega
  · have hle' : starts.getD r 0 ≤ token := hle
    have hlt' : token < starts.getD (r + 1) 0 := hlt
    have hj : token - starts.getD r 0 <
        (List.range' item.startPos (item.seqLen - item.startPos)).length := by
      rw [List.length_range']
      omega
    have hposition : (ofItems blockSize batch).positions[starts.getD r 0 +
        (token - starts.getD r 0)]? = _ := Ragged.getElem?_slice hrow.positions hj
    rw [Nat.add_sub_cancel' hle', List.getElem?_range' (by simpa using hj)] at hposition
    refine hposition.trans (congrArg some ?_)
    show item.startPos + 1 * (token - starts.getD r 0) =
      item.seqLen - (starts.getD (r + 1) 0 - token)
    omega
  · show (AttentionMetadata.requestIndicesOf (ofItems blockSize batch).queryStartLoc
      (ofItems blockSize batch).numRequests)[token]? = some r
    rw [requestIndicesOf_ofItems]
    exact Ragged.getElem?_owners hr' hle hlt
  · obtain ⟨row, hrow', hblocks⟩ := hrow.table
    refine ⟨_, (List.getElem?_map ..).trans (congrArg (Option.map _) hrow'), fun p hp => ?_⟩
    obtain ⟨block, hblock, hslot⟩ := hblocks p hp
    obtain ⟨hlt, _⟩ := List.getElem?_eq_some_iff.mp hblock
    exact ⟨block, (List.getElem?_append_left hlt).trans hblock, hslot⟩

/-- All tables of the metadata have the padded width. -/
theorem length_table_of_fromBatch {input : GPUInputBatch} {maxBlocks : Option ℕ}
    {metadata : AttentionMetadata} (h : fromWorkerBatch batch blockSize = .ok input)
    (hmetadata : AttentionMetadata.fromBatch input blockSize maxBlocks = .ok metadata)
    {table : List ℤ} (htable : table ∈ metadata.blockTables) :
    table.length = AttentionMetadata.paddedWidth maxBlocks (widthOf blockSize batch.items) := by
  obtain ⟨_, hne, hvalid, rfl⟩ := of_fromWorkerBatch h
  obtain ⟨width, hwidth, hle, _, rfl⟩ := AttentionMetadata.fromBatch_eq_ok_iff.mp hmetadata
  obtain rfl := Except.ok.inj ((tableWidth_ofItems hne hvalid).symm.trans hwidth)
  obtain ⟨row, hrow, rfl⟩ := List.mem_map.mp htable
  rw [List.length_append, List.length_replicate, length_of_mem_blockTables hvalid hrow,
    Nat.add_sub_cancel' hle]

/-- The metadata of an accepted batch, request by request. -/
theorem batchSpec_of_fromBatch {input : GPUInputBatch} {maxBlocks : Option ℕ}
    {metadata : AttentionMetadata} (h : fromWorkerBatch batch blockSize = .ok input)
    (hmetadata : AttentionMetadata.fromBatch input blockSize maxBlocks = .ok metadata)
    (hnodup : input.slotMapping.Nodup) (hcache : batch.InCache blockSize cacheSlots) :
    metadata.BatchSpec input.numTokens cacheSlots (itemRows blockSize batch) := by
  have hrequest := fun r item (hitem : batch.items[r]? = some item) =>
    requestSpec_of_fromBatch h hmetadata hcache hitem
  have hslots := AttentionMetadata.slots_of_fromBatch hmetadata
  have hfits := AttentionMetadata.fitsInt32_of_fromBatch hmetadata
  have htables := fun table => @length_table_of_fromBatch _ _ _ _ _ h hmetadata table
  have hnodup' : metadata.slots.Nodup := hslots.symm ▸ hnodup
  obtain ⟨_, hne, hvalid, rfl⟩ := of_fromWorkerBatch h
  obtain ⟨_, _, _, _, rfl⟩ := AttentionMetadata.eq_of_fromBatch hmetadata
  have hseqLens : (ofItems blockSize batch).seqLens.length = batch.items.length :=
    List.length_map ..
  refine ⟨congrArg (List.map Nat.cast) hslots.symm,
    (congrArg List.length hslots).trans (length_slotMapping_ofItems hvalid), hnodup',
    fun slot hslot => ?_, rfl, length_positions_ofItems hvalid, fun table htable => ?_,
    hseqLens.symm ▸ List.length_pos_of_ne_nil hne, hfits.seqLens, fun r hr => ?_,
    fun token htoken => ?_⟩
  · rw [hslots] at hslot
    obtain ⟨item, hitem, hmem⟩ := List.mem_flatMap.mp hslot
    exact hcache.slot_lt item hitem slot hmem
  · have hhead : ∀ {tables : List (List ℤ)}, table ∈ tables → tables.headD [] ∈ tables := by
      intro tables hmem
      cases tables with
      | nil => cases hmem
      | cons first rest => exact List.mem_cons_self
    rw [htables table htable, htables _ (hhead htable)]
  · rw [hseqLens] at hr
    exact hrequest r _ (List.getElem?_eq_getElem hr)
  · obtain ⟨r, hr, hstart, hstop⟩ := Ragged.exists_row
      (show token < (batch.items.map (·.tokenIds)).flatten.length from htoken)
    rw [List.length_map] at hr
    refine ⟨r, hseqLens.symm ▸ hr, ?_⟩
    rw [itemRows_eq (List.getElem?_eq_getElem hr)]
    exact ⟨hstart, hstop⟩

end GPUInputBatch

end MiniVLLM
