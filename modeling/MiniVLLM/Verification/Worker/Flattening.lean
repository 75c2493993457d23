import MiniVLLM.Verification.Worker.Graph

/-! # Reading the flat batch back

The flat lists of `from_worker_batch` follow three conventions: token offsets, context
offsets, and padded block tables. Each of them leads back to the item it came from. -/

namespace MiniVLLM

open KVCacheManager

/-- The flat batch read back at row `r`: the parts cut out there are those of the item. -/
structure RowSpec (blockSize : ℕ) (input : GPUInputBatch) (r : ℕ) (item : WorkerItem) : Prop where
  tokenIds : Ragged.slice input.inputIds input.queryStartLoc r = item.tokenIds
  positions : Ragged.slice input.positions input.queryStartLoc r =
    List.range' item.startPos (item.seqLen - item.startPos)
  slotMapping : Ragged.slice input.slotMapping input.queryStartLoc r = item.slotMapping
  context : Ragged.slice input.contextSlotMapping input.contextStartLoc r =
    (List.range item.seqLen).map (Paging.slot blockSize item.blockTable)
  table : ∃ row, input.blockTables[r]? = some row ∧ ∀ p < item.seqLen, ∃ block : ℕ,
    row[p / blockSize]? = some (block : ℤ) ∧
      block * blockSize + p % blockSize = Paging.slot blockSize item.blockTable p
  sampleIndex : (item.shouldSample = false ∧ input.sampleIndices[r]? = some (-1)) ∨
    (item.shouldSample = true ∧ ∃ last : ℕ, input.sampleIndices[r]? = some (last : ℤ) ∧
      last + 1 = input.queryStartLoc.getD (r + 1) 0 ∧
      input.inputIds[last]? = item.tokenIds.getLast?)

/-- What the flat batch says about the Worker batch it was built from. -/
structure FlattenSpec (blockSize : ℕ) (batch : WorkerBatch) (input : GPUInputBatch) : Prop where
  numRequests : input.numRequests = batch.items.length
  rows : ∀ r item, batch.items[r]? = some item → RowSpec blockSize input r item
  metadata : (∃ metadata, AttentionMetadata.fromBatch input blockSize none = .ok metadata) ↔
    input.FitsInt32
  requestIndices : ∀ maxBlocks metadata,
    AttentionMetadata.fromBatch input blockSize maxBlocks = .ok metadata →
      metadata.requestIndices.length = input.numTokens ∧
      ∀ t < input.numTokens, ∃ r, metadata.requestIndices[t]? = some r ∧
        (r < input.numRequests ∧ input.queryStartLoc.getD r 0 ≤ t ∧
          t < input.queryStartLoc.getD (r + 1) 0) ∧
        ∀ r' < input.numRequests, input.queryStartLoc.getD r' 0 ≤ t →
          t < input.queryStartLoc.getD (r' + 1) 0 → r' = r
  tokens : input.numPrefillTokens + input.numDecodeTokens = input.numTokens
  uniform : input.descriptor.uniformDecode = true →
    input.descriptor.numTokens = input.descriptor.numRequests

/-- What the metadata of a batch is made of fits 32 bits. -/
structure WorkerBatch.FitsInt32 (batch : WorkerBatch) : Prop where
  slotMapping : ∀ item ∈ batch.items, ∀ slot ∈ item.slotMapping, slot < 2 ^ 31
  blockTable : ∀ item ∈ batch.items, ∀ block ∈ item.blockTable, block < 2 ^ 31
  seqLen : ∀ item ∈ batch.items, item.seqLen < 2 ^ 31
  numTokens : (batch.items.map (·.tokenIds.length)).sum < 2 ^ 31

namespace GPUInputBatch

variable {blockSize : ℕ} {batch : WorkerBatch} {item : WorkerItem} {r : ℕ}

/-- A flat list with as many entries for each item as the item has tokens is cut at the
token offsets. -/
theorem slice_queryStartLoc {α : Type} (f : WorkerItem → List α)
    (hf : ∀ item ∈ batch.items, (f item).length = item.tokenIds.length)
    (hitem : batch.items[r]? = some item) :
    Ragged.slice (batch.items.flatMap f) (ofItems blockSize batch).queryStartLoc r = f item := by
  obtain ⟨hr, hget⟩ := List.getElem?_eq_some_iff.mp hitem
  have hlengths : (batch.items.map (·.tokenIds)).map List.length =
      (batch.items.map f).map List.length := by
    rw [List.map_map, List.map_map]
    exact List.map_congr_left fun item hitem => (hf item hitem).symm
  have hstarts : (ofItems blockSize batch).queryStartLoc = Ragged.starts (batch.items.map f) :=
    Ragged.starts_eq_of_lengths hlengths
  rw [hstarts, List.flatMap, Ragged.slice_starts (by simpa using hr), List.getElem_map, hget]

variable (blockSize) in
/-- The padded row starts with the blocks the item needs. -/
theorem getElem?_blockTables (hitem : batch.items[r]? = some item) :
    ∃ padding, (ofItems blockSize batch).blockTables[r]? = some
      ((item.blockTable.take (requiredBlocks blockSize item.seqLen)).map Int.ofNat ++ padding) := by
  have hraw : (listsOf blockSize batch.items).rawBlockTables[r]? =
      some (item.blockTable.take (requiredBlocks blockSize item.seqLen)) := by
    rw [listsOf, List.getElem?_map, hitem, Option.map_some]
  exact ⟨_, by rw [ofItems, ofLists, padTables, List.getElem?_map, hraw, Option.map_some]⟩

/-- Walking the padded row meets the item's own blocks only. -/
theorem walk_blockTables (hpos : 0 < blockSize) (h : ValidItem blockSize item)
    (hitem : batch.items[r]? = some item) :
    ∃ row, (ofItems blockSize batch).blockTables[r]? = some row ∧ ∀ p < item.seqLen,
      ∃ block : ℕ, row[p / blockSize]? = some (block : ℤ) ∧
        block * blockSize + p % blockSize = Paging.slot blockSize item.blockTable p := by
  obtain ⟨padding, hrow⟩ := getElem?_blockTables blockSize hitem
  refine ⟨_, hrow, fun p hp => ?_⟩
  have hcovers : Paging.Covers blockSize item.blockTable item.seqLen :=
    (covers_iff hpos).mpr h.table_length
  have hdiv := hcovers.div_lt hp
  have hneeded : p / blockSize < requiredBlocks blockSize item.seqLen := by
    refine Nat.div_lt_of_lt_mul (hp.trans_le ?_)
    rw [Nat.mul_comm]
    exact (requiredBlocks_le_iff hpos).mp le_rfl
  refine ⟨item.blockTable[p / blockSize], ?_, (Paging.slot_eq_getElem hdiv).symm⟩
  rw [List.getElem?_append_left (by simpa using ⟨hneeded, hdiv⟩), List.getElem?_map,
    List.getElem?_take_of_lt hneeded, List.getElem?_eq_getElem hdiv]
  rfl

variable (blockSize) in
theorem getElem?_sampleIndices (hitem : batch.items[r]? = some item) :
    (ofItems blockSize batch).sampleIndices[r]? = some (if item.shouldSample then
      ((ofItems blockSize batch).queryStartLoc.getD (r + 1) 0 : ℤ) - 1 else -1) := by
  obtain ⟨hr, hget⟩ := List.getElem?_eq_some_iff.mp hitem
  have hstop : (Ragged.starts (batch.items.map (·.tokenIds))).tail[r]? =
      some ((ofItems blockSize batch).queryStartLoc.getD (r + 1) 0) := by
    have hlt : r + 1 < (Ragged.starts (batch.items.map (·.tokenIds))).length := by simpa using hr
    rw [List.getElem?_tail, List.getElem?_eq_getElem hlt]
    show _ = some ((Ragged.starts (batch.items.map (·.tokenIds))).getD (r + 1) 0)
    rw [List.getD_eq_getElem?_getD, List.getElem?_eq_getElem hlt, Option.getD_some]
  show (sampleIndicesOf batch.items)[r]? = _
  have hzip : (batch.items.zip (Ragged.starts (batch.items.map (·.tokenIds))).tail)[r]? =
      some (item, (ofItems blockSize batch).queryStartLoc.getD (r + 1) 0) :=
    List.getElem?_zip_eq_some.mpr ⟨hitem, hstop⟩
  rw [sampleIndicesOf, List.getElem?_map, hzip]
  rfl

theorem getElem?_last (h : ValidItem blockSize item) (hitem : batch.items[r]? = some item) :
    ∃ last, last + 1 = (ofItems blockSize batch).queryStartLoc.getD (r + 1) 0 ∧
      (ofItems blockSize batch).inputIds[last]? = item.tokenIds.getLast? := by
  obtain ⟨hr, hget⟩ := List.getElem?_eq_some_iff.mp hitem
  have hrow : r < (batch.items.map (·.tokenIds)).length := by simpa using hr
  have hlen := Ragged.starts_succ_sub hrow
  have htokens := List.length_pos_of_ne_nil h.tokenIds_ne
  rw [List.getElem_map, hget] at hlen
  set qsl := (ofItems blockSize batch).queryStartLoc with hqsl
  have hstarts : Ragged.starts (batch.items.map (·.tokenIds)) = qsl := rfl
  rw [hstarts] at hlen
  refine ⟨qsl.getD (r + 1) 0 - 1, by omega, ?_⟩
  show (batch.items.map (·.tokenIds)).flatten[_]? = _
  rw [Ragged.getElem?_flatten hrow (by rw [hstarts]; omega) (by rw [hstarts]; omega),
    List.getElem_map, hget, hstarts, List.getLast?_eq_getElem?]
  congr 1
  omega

theorem rowSpec_ofItems (hpos : 0 < blockSize) (h : ∀ item ∈ batch.items, ValidItem blockSize item)
    (hitem : batch.items[r]? = some item) : RowSpec blockSize (ofItems blockSize batch) r item := by
  have hvalid := h item (List.mem_of_getElem? hitem)
  have hsample := getElem?_sampleIndices blockSize hitem
  refine ⟨?_, ?_, ?_, ?_, walk_blockTables hpos hvalid hitem, ?_⟩
  · exact slice_queryStartLoc (·.tokenIds) (fun _ _ => rfl) hitem
  · refine slice_queryStartLoc _ (fun item hmem => ?_) hitem
    rw [List.length_range', (h item hmem).seqLen_eq, Nat.add_sub_cancel_left]
  · exact slice_queryStartLoc (·.slotMapping) (fun item hmem => (h item hmem).slots_length.symm) hitem
  · obtain ⟨hr, hget⟩ := List.getElem?_eq_some_iff.mp hitem
    show Ragged.slice (batch.items.map (contextOf blockSize)).flatten
      (Ragged.starts (batch.items.map (contextOf blockSize))) r = _
    rw [Ragged.slice_starts (by simpa using hr), List.getElem_map, hget]
    rfl
  · cases hshould : item.shouldSample with
    | false => exact Or.inl ⟨rfl, by rw [hsample, hshould]; rfl⟩
    | true =>
        obtain ⟨last, hlast, htoken⟩ := getElem?_last hvalid hitem
        refine Or.inr ⟨rfl, last, ?_, hlast, htoken⟩
        rw [hsample, hshould, ← hlast]
        simp

theorem requestIndicesOf_ofItems (batch : WorkerBatch) :
    AttentionMetadata.requestIndicesOf (ofItems blockSize batch).queryStartLoc
      (ofItems blockSize batch).numRequests = Ragged.owners (batch.items.map (·.tokenIds)) := by
  rw [AttentionMetadata.requestIndicesOf, Ragged.owners, numRequests_ofItems, List.length_map]
  apply List.flatMap_congr
  intro r hr
  have hrow : r < (batch.items.map (·.tokenIds)).length := by simpa using List.mem_range.mp hr
  have hlen := Ragged.starts_succ_sub hrow
  have hget : (batch.items.map (·.tokenIds)).getD r [] = (batch.items.map (·.tokenIds))[r] := by
    rw [List.getD_eq_getElem?_getD, List.getElem?_eq_getElem hrow, Option.getD_some]
  rw [hget, ← hlen]
  rfl

theorem numDecodeTokens_le (batch : WorkerBatch) :
    (ofItems blockSize batch).numDecodeTokens ≤ (ofItems blockSize batch).numTokens := by
  set rows := batch.items.map (·.tokenIds) with hrows
  have hdecode : (ofItems blockSize batch).isDecode.length = rows.length := by
    simp [ofItems, ofLists, listsOf, hrows]
  have hall : ((List.range rows.length).map fun i =>
      (Ragged.starts rows).getD (i + 1) 0 - (Ragged.starts rows).getD i 0) =
        rows.map List.length := by
    apply List.ext_getElem
    · simp
    · intro i hi hi'
      rw [List.getElem_map, List.getElem_range, List.getElem_map,
        Ragged.starts_succ_sub (by simpa using hi')]
  have hindices : (ofItems blockSize batch).isDecode.zipIdx.map Prod.snd =
      List.range rows.length := by
    rw [List.zipIdx_map_snd, hdecode, List.range_eq_range']
  show _ ≤ rows.flatten.length
  rw [List.length_flatten, ← hall, ← hindices, List.map_map, numDecodeTokens]
  apply List.sum_le_sum
  rintro ⟨decode, i⟩ _
  dsimp only
  split
  · exact le_rfl
  · exact Nat.zero_le _

/-- An accepted Worker batch can be read back from the flat one. -/
theorem flattenSpec_of_fromWorkerBatch {input : GPUInputBatch}
    (h : fromWorkerBatch batch blockSize = .ok input) : FlattenSpec blockSize batch input := by
  obtain ⟨hpos, hne, hvalid, rfl⟩ := of_fromWorkerBatch h
  have hwidth := tableWidth_ofItems hne hvalid
  refine ⟨numRequests_ofItems batch, fun r item hitem => rowSpec_ofItems hpos hvalid hitem, ?_, ?_,
    Nat.sub_add_cancel (numDecodeTokens_le batch), ?_⟩
  · exact AttentionMetadata.exists_fromBatch hwidth
  · intro maxBlocks metadata hmetadata
    have hindices : metadata.requestIndices = Ragged.owners (batch.items.map (·.tokenIds)) := by
      rw [AttentionMetadata.requestIndices_of_fromBatch hmetadata]
      exact requestIndicesOf_ofItems batch
    have hrequests : (ofItems blockSize batch).numRequests =
        (batch.items.map (·.tokenIds)).length := by
      rw [numRequests_ofItems, List.length_map]
    rw [hindices, hrequests]
    refine ⟨Ragged.length_owners _, fun t ht => ?_⟩
    obtain ⟨r, hr, hle, hlt⟩ := Ragged.exists_row ht
    exact ⟨r, Ragged.getElem?_owners hr hle hlt, ⟨hr, hle, hlt⟩,
      fun r' hr' hle' hlt' => Ragged.row_unique hr hr' hle hlt hle' hlt'⟩
  · intro huniform
    have hbatch := decodeBatch_ofItems hpos hne hvalid huniform
    exact hbatch.inputIds.trans hbatch.numRequests.symm

/-! ## 32-bit batches -/

theorem fitsInt32_ofItems (hvalid : ∀ item ∈ batch.items, ValidItem blockSize item)
    (h : batch.FitsInt32) : (ofItems blockSize batch).FitsInt32 := by
  have hlength : (batch.items.map (·.tokenIds)).flatten.length < 2 ^ 31 := by
    rw [List.length_flatten, List.map_map]
    exact h.numTokens
  have hrows : batch.items.length ≤ (batch.items.map (·.tokenIds)).flatten.length := by
    rw [List.length_flatten, List.map_map, ← List.length_map (List.length ∘ (·.tokenIds))]
    refine List.length_le_sum_of_one_le _ fun length hlen => ?_
    obtain ⟨item, hitem, rfl⟩ := List.mem_map.mp hlen
    exact List.length_pos_of_ne_nil (hvalid item hitem).tokenIds_ne
  refine ⟨⟨fun position hposition => ?_, fun slot hslot => ?_, fun seqLen hseqLen => ?_,
    fun table htable block hblock => ?_⟩, fun start hstart => ?_, fun request hrequest => ?_⟩
  · obtain ⟨item, hitem, hmem⟩ := List.mem_flatMap.mp hposition
    have hlt := (List.mem_range'_1.mp hmem).2
    have hseqLen := h.seqLen item hitem
    have hstart := (hvalid item hitem).seqLen_eq
    omega
  · obtain ⟨item, hitem, hmem⟩ := List.mem_flatMap.mp hslot
    exact h.slotMapping item hitem slot hmem
  · obtain ⟨item, hitem, rfl⟩ := List.mem_map.mp hseqLen
    exact h.seqLen item hitem
  · obtain ⟨row, hrow, rfl⟩ := List.mem_map.mp htable
    obtain ⟨item, hitem, rfl⟩ := List.mem_map.mp hrow
    refine AttentionMetadata.forall_int32_padded.mpr (fun block hblock => ?_) block hblock
    obtain ⟨id, hid, rfl⟩ := List.mem_map.mp hblock
    exact int32_natCast.mpr (h.blockTable item hitem id (List.mem_of_mem_take hid))
  · exact (Ragged.le_of_mem_starts hstart).trans_lt hlength
  · rw [requestIndicesOf_ofItems] at hrequest
    have hlt := Ragged.lt_of_mem_owners hrequest
    rw [List.length_map] at hlt
    omega

/-! ## The context of a row -/

/-- Where the runtimes find the context of row `r`: its slots stand in the dense list, and the
entries of its block table lead to the same slots. -/
structure ContextSpec (blockSize : ℕ) (input : GPUInputBatch) (r : ℕ) (slots : List ℕ) : Prop where
  slice_eq : Ragged.slice input.contextSlotMapping input.contextStartLoc r = slots
  slots_ne : slots ≠ []
  seqLen_eq : input.seqLens[r]? = some slots.length
  start_eq : input.contextStartLoc[r]? = some (input.contextStartLoc.getD r 0)
  stop_eq : input.contextStartLoc[r + 1]? = some (input.contextStartLoc.getD (r + 1) 0)
  width_eq : ∀ table ∈ input.blockTables, table.length = (input.blockTables.headD []).length
  table_eq : input.blockTables[r]? = some (input.blockTables.getD r [])
  walk : ∀ p < slots.length, ∃ block : ℕ,
    (input.blockTables.getD r [])[p / blockSize]? = some (block : ℤ) ∧
      block * blockSize + p % blockSize = slots.getD p 0

theorem exists_contextSpec {input : GPUInputBatch} (h : fromWorkerBatch batch blockSize = .ok input)
    (hr : r < input.numRequests) : ∃ item slots, batch.items[r]? = some item ∧
      slots = (List.range item.seqLen).map (Paging.slot blockSize item.blockTable) ∧
      ContextSpec blockSize input r slots := by
  obtain ⟨hpos, hne, hvalid, rfl⟩ := of_fromWorkerBatch h
  rw [numRequests_ofItems] at hr
  have hitem : batch.items[r]? = some batch.items[r] := List.getElem?_eq_getElem hr
  have hspec := rowSpec_ofItems hpos hvalid hitem
  have hitem' := hvalid _ (List.mem_of_getElem? hitem)
  have hstarts : (ofItems blockSize batch).contextStartLoc.length = batch.items.length + 1 := by
    show (Ragged.starts _).length = _
    rw [Ragged.length_starts, List.length_map]
  have hget : ∀ {α : Type} (l : List α) (i : ℕ) (a : α), i < l.length →
      l[i]? = some (l.getD i a) := by
    intro α l i a hi
    rw [List.getD_eq_getElem?_getD, List.getElem?_eq_getElem hi, Option.getD_some]
  have htable : (ofItems blockSize batch).blockTables[r]? =
      some ((ofItems blockSize batch).blockTables.getD r []) :=
    hget _ _ _ (by rw [length_blockTables_ofItems]; exact hr)
  have hseqLen : 0 < batch.items[r].seqLen := by
    have := List.length_pos_of_ne_nil hitem'.tokenIds_ne
    rw [hitem'.seqLen_eq]
    omega
  refine ⟨_, _, hitem, rfl, hspec.context, ?_, ?_, hget _ _ _ (by omega), hget _ _ _ (by omega), ?_,
    htable, ?_⟩
  · simpa using hseqLen.ne'
  · rw [List.length_map, List.length_range]
    show (batch.items.map (·.seqLen))[r]? = _
    rw [List.getElem?_map, hitem]
    rfl
  · intro table hmem
    rw [length_of_mem_blockTables hvalid hmem]
    cases hhead : (ofItems blockSize batch).blockTables with
    | nil =>
        rw [hhead] at hmem
        cases hmem
    | cons first rest =>
        refine (length_of_mem_blockTables hvalid ?_).symm
        rw [hhead]
        exact List.mem_cons_self
  · intro p hp
    rw [List.length_map, List.length_range] at hp
    obtain ⟨row, hrow, hwalk⟩ := hspec.table
    obtain rfl := Option.some.inj (hrow.symm.trans htable)
    obtain ⟨block, hblock, hslot⟩ := hwalk p hp
    refine ⟨block, hblock, hslot.trans ?_⟩
    rw [List.getD_eq_getElem?_getD, List.getElem?_map, List.getElem?_range hp]
    rfl

namespace ContextSpec

variable {input : GPUInputBatch} {slots : List ℕ} {p : ℕ}

theorem getElem?_context (h : ContextSpec blockSize input r slots) (hp : p < slots.length) :
    input.contextSlotMapping[input.contextStartLoc.getD r 0 + p]? = some (slots.getD p 0) := by
  rw [Ragged.getElem?_slice h.slice_eq hp, List.getD_eq_getElem?_getD, List.getElem?_eq_getElem hp]
  rfl

theorem getElem?_flatten (h : ContextSpec blockSize input r slots) (hp : p < slots.length) :
    ∃ block : ℕ, input.blockTables.flatten[r * (input.blockTables.headD []).length +
        p / blockSize]? = some (block : ℤ) ∧
      block * blockSize + p % blockSize = slots.getD p 0 := by
  obtain ⟨block, hblock, hslot⟩ := h.walk p hp
  have hlt : p / blockSize < (input.blockTables.headD []).length := by
    rw [← h.width_eq _ (List.mem_of_getElem? h.table_eq)]
    exact (List.getElem?_eq_some_iff.mp hblock).1
  exact ⟨block, by rw [Ragged.getElem?_flatten_of_width h.width_eq h.table_eq hlt, hblock], hslot⟩

end ContextSpec

/-- A decode item beside a prompt of two tokens, with blocks of four. -/
def mixedBatch : WorkerBatch where
  batchId := 7
  items := [⟨"decode", [13], 2, [2], [0], 3, 1, true, 0⟩,
    ⟨"prefill", [20, 21], 0, [4, 5], [1], 2, 0, true, 0⟩]

theorem flattenSpec_of_fromWorkerBatch_mixed :
    ∃ input, fromWorkerBatch mixedBatch 4 = .ok input ∧ FlattenSpec 4 mixedBatch input :=
  ⟨_, rfl, flattenSpec_of_fromWorkerBatch rfl⟩

end GPUInputBatch

end MiniVLLM
