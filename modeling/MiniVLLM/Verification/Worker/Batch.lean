import MiniVLLM.Model.Batch
import MiniVLLM.Library.Ragged
import MiniVLLM.Verification.Scheduler.Items

/-! # Flattening a Worker batch

The loop of `from_worker_batch` in closed form: every flat list is a map or a
concatenation over the items, with the start locations of `Ragged`. -/

namespace MiniVLLM

open KVCacheManager

/-- An item that passes the checks of `from_worker_batch`. -/
structure ValidItem (blockSize : ℕ) (item : WorkerItem) : Prop where
  tokenIds_ne : item.tokenIds ≠ []
  slots_length : item.tokenIds.length = item.slotMapping.length
  seqLen_eq : item.seqLen = item.startPos + item.tokenIds.length
  table_length : requiredBlocks blockSize item.seqLen ≤ item.blockTable.length

namespace GPUInputBatch

variable {blockSize : ℕ} {item : WorkerItem} {items : List WorkerItem}

theorem checkItem_of_valid (h : ValidItem blockSize item) : checkItem blockSize item = .ok () := by
  have htable : ¬ item.blockTable.length < (item.seqLen + blockSize - 1) / blockSize :=
    Nat.not_lt.mpr h.table_length
  rw [checkItem, if_neg h.tokenIds_ne, if_neg (not_not.mpr h.slots_length),
    if_neg (not_not.mpr h.seqLen_eq), if_neg htable]
  rfl

theorem contextSlots_eq {table positions : List ℕ}
    (h : ∀ p ∈ positions, p / blockSize < table.length) :
    contextSlots blockSize table positions = .ok (positions.map (Paging.slot blockSize table)) := by
  induction positions with
  | nil => rfl
  | cons p positions ih =>
      have hp := h p (by simp)
      have hrest := ih (fun q hq => h q (by simp [hq]))
      simp only [contextSlots, List.getElem?_eq_getElem hp, hrest, List.map_cons,
        Paging.slot_eq_getElem hp]
      rfl

def contextOf (blockSize : ℕ) (item : WorkerItem) : List ℕ :=
  (List.range item.seqLen).map (Paging.slot blockSize item.blockTable)

/-- The index of the last token of each item that samples, and `-1` for the others. -/
def sampleIndicesOf (items : List WorkerItem) : List ℤ :=
  (items.zip (Ragged.starts (items.map (·.tokenIds))).tail).map
    fun (item, stop) => if item.shouldSample then (stop : ℤ) - 1 else -1

theorem sampleIndicesOf_append_singleton (items : List WorkerItem) (item : WorkerItem) :
    sampleIndicesOf (items ++ [item]) = sampleIndicesOf items ++
      [if item.shouldSample then
        (((items.map (·.tokenIds)).flatten ++ item.tokenIds).length : ℤ) - 1 else -1] := by
  have hne : Ragged.starts (items.map (·.tokenIds)) ≠ [] := List.ne_nil_of_length_pos (by simp)
  rw [sampleIndicesOf, List.map_append, List.map_singleton, Ragged.starts_append_singleton,
    List.tail_append_of_ne_nil hne, List.zip_append (by simp), List.map_append, List.length_append]
  rfl

/-- The lists after a number of items. -/
def listsOf (blockSize : ℕ) (items : List WorkerItem) : InputLists where
  requestIds := items.map (·.requestId)
  inputIds := (items.map (·.tokenIds)).flatten
  positions := items.flatMap fun item =>
    List.range' item.startPos (item.seqLen - item.startPos)
  slotMapping := items.flatMap (·.slotMapping)
  queryStartLoc := Ragged.starts (items.map (·.tokenIds))
  seqLens := items.map (·.seqLen)
  rawBlockTables := items.map fun item =>
    item.blockTable.take (requiredBlocks blockSize item.seqLen)
  contextSlotMapping := (items.map (contextOf blockSize)).flatten
  contextStartLoc := Ragged.starts (items.map (contextOf blockSize))
  isDecode := items.map fun item =>
    decide (item.tokenIds.length = 1) && decide (0 < item.generatedCount)
  sampleIndices := sampleIndicesOf items
  generatedCounts := items.map (·.generatedCount)
  temperatures := items.map (·.temperature)

theorem appendItem_listsOf (hpos : 0 < blockSize) (h : ValidItem blockSize item) :
    appendItem blockSize (listsOf blockSize items) item =
      .ok (listsOf blockSize (items ++ [item])) := by
  have hcovers : Paging.Covers blockSize item.blockTable item.seqLen :=
    (covers_iff hpos).mpr h.table_length
  have hcontext := contextSlots_eq (fun p (hp : p ∈ List.range item.seqLen) =>
    hcovers.div_lt (List.mem_range.mp hp))
  simp only [appendItem, checkItem_of_valid h, hcontext, listsOf, List.map_append,
    List.map_singleton, sampleIndicesOf_append_singleton, Ragged.starts_append_singleton]
  simp only [bind, Except.bind, pure, Except.pure]
  simp [contextOf, requiredBlocks]

theorem foldlM_appendItem (hpos : 0 < blockSize) (prior items : List WorkerItem)
    (h : ∀ item ∈ items, ValidItem blockSize item) :
    items.foldlM (appendItem blockSize) (listsOf blockSize prior) =
      .ok (listsOf blockSize (prior ++ items)) := by
  induction items generalizing prior with
  | nil => simp [pure, Except.pure]
  | cons item items ih =>
      rw [List.foldlM_cons, appendItem_listsOf hpos (h item (by simp))]
      have hrest := ih (prior ++ [item]) (fun item' hitem' => h item' (by simp [hitem']))
      rw [List.append_assoc] at hrest
      exact hrest

/-- The batch of valid items, in closed form. -/
def ofItems (blockSize : ℕ) (batch : WorkerBatch) : GPUInputBatch :=
  ofLists batch.batchId (listsOf blockSize batch.items)

theorem fromWorkerBatch_eq (batch : WorkerBatch) (hpos : 0 < blockSize) (hne : batch.items ≠ [])
    (h : ∀ item ∈ batch.items, ValidItem blockSize item) :
    fromWorkerBatch batch blockSize = .ok (ofItems blockSize batch) := by
  have hfold := foldlM_appendItem hpos [] batch.items h
  rw [fromWorkerBatch, if_neg hpos.ne', if_neg hne]
  rw [show ({} : InputLists) = listsOf blockSize [] from rfl, hfold]
  rfl

/-! ## What an accepted batch says about its items -/

theorem valid_of_checkItem (h : checkItem blockSize item = .ok ()) : ValidItem blockSize item := by
  unfold checkItem at h
  split at h
  · cases h
  · rename_i hne
    split at h
    · cases h
    · rename_i hslots
      split at h
      · cases h
      · rename_i hseq
        split at h
        · cases h
        · rename_i htable
          exact ⟨hne, not_not.mp hslots, not_not.mp hseq, Nat.not_lt.mp htable⟩

theorem valid_of_foldlM {lists lists' : InputLists}
    (h : items.foldlM (appendItem blockSize) lists = .ok lists') :
    ∀ item ∈ items, ValidItem blockSize item := by
  induction items generalizing lists with
  | nil => simp
  | cons first items ih =>
      rw [List.foldlM_cons] at h
      cases hfirst : appendItem blockSize lists first with
      | error e => simp [hfirst, bind, Except.bind] at h
      | ok next =>
          rw [hfirst] at h
          have hcheck : checkItem blockSize first = .ok () := by
            cases hc : checkItem blockSize first with
            | ok u => rfl
            | error e => simp [appendItem, hc, bind, Except.bind] at hfirst
          intro item hitem
          rcases List.mem_cons.mp hitem with rfl | hitem
          · exact valid_of_checkItem hcheck
          · exact ih h item hitem

/-- `from_worker_batch` succeeds on valid items only, with their closed form. -/
theorem of_fromWorkerBatch {batch : WorkerBatch} {input : GPUInputBatch}
    (h : fromWorkerBatch batch blockSize = .ok input) :
    0 < blockSize ∧ batch.items ≠ [] ∧ (∀ item ∈ batch.items, ValidItem blockSize item) ∧
      input = ofItems blockSize batch := by
  have hpos : 0 < blockSize := by
    by_contra hzero
    rw [fromWorkerBatch, if_pos (Nat.eq_zero_of_not_pos hzero)] at h
    cases h
  have hne : batch.items ≠ [] := by
    intro hnil
    rw [fromWorkerBatch, if_neg hpos.ne', if_pos hnil] at h
    cases h
  have hvalid : ∀ item ∈ batch.items, ValidItem blockSize item := by
    rw [fromWorkerBatch, if_neg hpos.ne', if_neg hne] at h
    cases hfold : batch.items.foldlM (appendItem blockSize) {} with
    | error e => simp [hfold, bind, Except.bind] at h
    | ok lists => exact valid_of_foldlM hfold
  rw [fromWorkerBatch_eq batch hpos hne hvalid] at h
  exact ⟨hpos, hne, hvalid, (Except.ok.inj h).symm⟩

/-! ## Block tables of one width -/

theorem le_foldl_max {l : List ℕ} {a : ℕ} (h : a ∈ l) : a ≤ l.foldl max 0 := by
  rw [List.foldl_eq_foldr]
  exact List.le_max_of_le h le_rfl

theorem foldl_max_le {l : List ℕ} {b : ℕ} (h : ∀ a ∈ l, a ≤ b) : l.foldl max 0 ≤ b := by
  rw [List.foldl_eq_foldr]
  exact List.max_le_of_forall_le l b h

def widthOf (blockSize : ℕ) (items : List WorkerItem) : ℕ :=
  (items.map fun item => requiredBlocks blockSize item.seqLen).foldl max 0

theorem length_of_mem_padTables {raw : List (List ℕ)} {table : List ℤ}
    (h : table ∈ padTables raw) : table.length = (raw.map List.length).foldl max 0 := by
  obtain ⟨row, hrow, rfl⟩ := List.mem_map.mp h
  have hle : row.length ≤ (raw.map List.length).foldl max 0 :=
    le_foldl_max (List.mem_map_of_mem hrow)
  rw [List.length_append, List.length_map, List.length_replicate, Nat.add_sub_cancel' hle]

theorem length_rawBlockTables (h : ∀ item ∈ items, ValidItem blockSize item) :
    (listsOf blockSize items).rawBlockTables.map List.length =
      items.map fun item => requiredBlocks blockSize item.seqLen := by
  rw [listsOf, List.map_map]
  apply List.map_congr_left
  intro item hitem
  exact (List.length_take).trans (Nat.min_eq_left (h item hitem).table_length)

theorem length_of_mem_blockTables {batch : WorkerBatch} {table : List ℤ}
    (h : ∀ item ∈ batch.items, ValidItem blockSize item)
    (htable : table ∈ (ofItems blockSize batch).blockTables) :
    table.length = widthOf blockSize batch.items := by
  rw [length_of_mem_padTables htable,
    length_rawBlockTables h, widthOf]

@[simp] theorem length_blockTables_ofItems (batch : WorkerBatch) :
    (ofItems blockSize batch).blockTables.length = batch.items.length := by
  simp [ofItems, ofLists, padTables, listsOf]

@[simp] theorem numRequests_ofItems (batch : WorkerBatch) :
    (ofItems blockSize batch).numRequests = batch.items.length := by
  simp [numRequests, ofItems, ofLists, listsOf]

end GPUInputBatch

theorem Scheduler.Issued.valid {config : EngineConfig} {m m' : KVCacheManager}
    {request : RequestState} {item : WorkerItem} (h : Scheduler.Issued config m m' request item) :
    ValidItem config.blockSize item where
  tokenIds_ne := List.ne_nil_of_length_pos h.tokenIds_pos
  slots_length := by
    rw [h.length_tokenIds, h.slotMapping_eq, List.length_map, List.length_range']
  seqLen_eq := h.start_add_length.symm
  table_length := (covers_iff config.blockSize_pos).mp h.covers

end MiniVLLM
