import MiniVLLM.Verification.Worker.Batch
import MiniVLLM.Verification.Worker.Metadata

/-! # The static tensors of a graph

A uniform decode batch has one row for each request, so its copy into the static tensors of
a large enough graph raises nothing, and what it leaves depends on the batch alone. -/

namespace MiniVLLM

open KVCacheManager

/-! ## Uniform decode batches -/

/-- A batch of `n` single tokens with block tables of one width. -/
structure DecodeBatch (blockSize n width : ℕ) (batch : GPUInputBatch) : Prop where
  pos : 0 < n
  width_pos : 0 < width
  numRequests : batch.numRequests = n
  inputIds : batch.inputIds.length = n
  positions : batch.positions.length = n
  slotMapping : batch.slotMapping.length = n
  queryStartLoc : batch.queryStartLoc = List.range (n + 1)
  seqLens : batch.seqLens.length = n
  blockTables : batch.blockTables.length = n
  tables : ∀ table ∈ batch.blockTables, table.length = width
  isDecode : batch.isDecode = List.replicate n true
  covered : ∀ seqLen ∈ batch.seqLens, seqLen ≤ width * blockSize
  sampleIndices : batch.sampleIndices.length = n
  temperatures : batch.temperatures.length = n
  samples : ∀ sampleIndex ∈ batch.sampleIndices, sampleIndex < n

namespace GPUInputBatch

variable {blockSize : ℕ} {batch : WorkerBatch}

theorem tableWidth_of_forall {input : GPUInputBatch} {width : ℕ} (hne : input.blockTables ≠ [])
    (h : ∀ table ∈ input.blockTables, table.length = width) : input.tableWidth = .ok width := by
  rw [tableWidth]
  cases htables : input.blockTables with
  | nil => exact absurd htables hne
  | cons table tables =>
      rw [htables] at h
      simp [h table (by simp)]

theorem tableWidth_ofItems (hne : batch.items ≠ [])
    (h : ∀ item ∈ batch.items, ValidItem blockSize item) :
    (ofItems blockSize batch).tableWidth = .ok (widthOf blockSize batch.items) := by
  refine tableWidth_of_forall ?_ (fun table htable => length_of_mem_blockTables h htable)
  rw [← List.length_pos_iff_ne_nil, length_blockTables_ofItems]
  exact List.length_pos_of_ne_nil hne

theorem widthOf_pos (hpos : 0 < blockSize) {items : List WorkerItem} (hne : items ≠ [])
    (h : ∀ item ∈ items, ValidItem blockSize item) : 0 < widthOf blockSize items := by
  obtain ⟨item, hitem⟩ := List.exists_mem_of_ne_nil items hne
  have htokens := List.length_pos_of_ne_nil (h item hitem).tokenIds_ne
  have hseq : 0 < item.seqLen := by rw [(h item hitem).seqLen_eq]; omega
  refine (requiredBlocks_pos hpos hseq).trans_le (le_foldl_max ?_)
  exact List.mem_map_of_mem (f := fun item => requiredBlocks blockSize item.seqLen) hitem

theorem decodeBatch_ofItems (hpos : 0 < blockSize) (hne : batch.items ≠ [])
    (h : ∀ item ∈ batch.items, ValidItem blockSize item)
    (huniform : (ofItems blockSize batch).descriptor.uniformDecode = true) :
    DecodeBatch blockSize batch.items.length (widthOf blockSize batch.items)
      (ofItems blockSize batch) := by
  have hall : ∀ item ∈ batch.items, item.tokenIds.length = 1 ∧ 0 < item.generatedCount := by
    simpa [descriptor, ofItems, ofLists, listsOf] using huniform
  have hsingle : ∀ row ∈ batch.items.map (·.tokenIds), row.length = 1 := by
    intro row hrow
    obtain ⟨item, hitem, rfl⟩ := List.mem_map.mp hrow
    exact (hall item hitem).1
  have hflat : ∀ {β : Type} (f : WorkerItem → List β), (∀ item ∈ batch.items, (f item).length = 1) →
      (batch.items.flatMap f).length = batch.items.length := by
    intro β f hf
    rw [List.flatMap, Ragged.length_flatten_of_singletons (by simpa using hf), List.length_map]
  have hinput : (ofItems blockSize batch).inputIds.length = batch.items.length :=
    hflat _ fun item hitem => (hall item hitem).1
  refine ⟨List.length_pos_of_ne_nil hne, widthOf_pos hpos hne h, numRequests_ofItems batch, hinput,
    hflat _ fun item hitem => ?_, hflat _ fun item hitem => ?_, ?_, List.length_map _,
    length_blockTables_ofItems batch, fun table htable => length_of_mem_blockTables h htable,
    ?_, ?_, ?_, List.length_map _, ?_⟩
  · rw [List.length_range', (h item hitem).seqLen_eq, Nat.add_sub_cancel_left, (hall item hitem).1]
  · rw [← (h item hitem).slots_length, (hall item hitem).1]
  · show Ragged.starts (batch.items.map (·.tokenIds)) = _
    rw [Ragged.starts_of_singletons hsingle, List.length_map]
  · refine List.eq_replicate_iff.mpr ⟨List.length_map _, ?_⟩
    intro decode hdecode
    obtain ⟨item, hitem, rfl⟩ := List.mem_map.mp hdecode
    simpa using hall item hitem
  · intro seqLen hseqLen
    obtain ⟨item, hitem, rfl⟩ := List.mem_map.mp hseqLen
    refine (requiredBlocks_le_iff hpos).mp (le_foldl_max ?_)
    exact List.mem_map_of_mem (f := fun item => requiredBlocks blockSize item.seqLen) hitem
  · simp [ofItems, ofLists, listsOf, sampleIndicesOf]
  · intro sampleIndex hmem
    obtain ⟨⟨item, stop⟩, hzip, rfl⟩ := List.mem_map.mp hmem
    have hstop : stop ∈ List.range (batch.items.length + 1) := by
      have := List.mem_of_mem_tail (List.of_mem_zip hzip).2
      rwa [Ragged.starts_of_singletons hsingle, List.length_map] at this
    have hle := List.mem_range.mp hstop
    dsimp only
    split <;> omega

end GPUInputBatch

/-- A capture size is picked for uniform decode batches only, and it holds the batch. -/
theorem CUDAGraphDispatcher.of_dispatch {config : EngineConfig} {descriptor : BatchDescriptor}
    {captureSize : ℕ}
    (h : ((ofConfig config).dispatch descriptor).captureSize = some captureSize) :
    descriptor.uniformDecode = true ∧ descriptor.numTokens ≤ captureSize ∧
      descriptor.numRequests ≤ captureSize ∧ captureSize ≤ config.maxNumSeqs := by
  unfold dispatch at h
  split at h
  · cases h
  · rename_i hmode
    dsimp only at h
    split at h
    · cases h
    · rename_i size hfind
      obtain rfl : size = captureSize := Option.some.inj h
      have hle : max descriptor.numTokens descriptor.numRequests ≤ size := by
        simpa using List.find?_some hfind
      have hmem : size ∈ (ofConfig config).captureSizes := List.mem_of_find?_eq_some hfind
      refine ⟨by simpa using (not_or.mp hmode).2, (Nat.le_max_left _ _).trans hle,
        (Nat.le_max_right _ _).trans hle, ?_⟩
      simpa using (List.mem_filter.mp hmem).2

/-! ## Copies into a slice -/

section Copies

variable {α : Type}

theorem LlamaModelRunner.copyRows_eq {target source : List α} {count : ℕ}
    (hcount : count ≤ target.length) (hsource : source.length = count) :
    copyRows target count source = .ok (source ++ target.drop count) := by
  have hrows : source.length = (target.take count).length := by
    rw [List.length_take, Nat.min_eq_left hcount, hsource]
  unfold copyRows
  exact if_pos hrows

theorem LlamaModelRunner.length_of_copyRows {target source rows : List α} {count : ℕ}
    (h : copyRows target count source = .ok rows) : rows.length = target.length := by
  have hsplit : (target.take count).length + (target.drop count).length = target.length := by
    rw [← List.length_append, List.take_append_drop]
  unfold copyRows at h
  dsimp only at h
  split at h
  · rename_i hlen
    rw [← Except.ok.inj h, List.length_append, hlen, hsplit]
  · split at h
    · rw [← Except.ok.inj h, List.length_append, List.length_replicate, hsplit]
    · cases h

theorem LlamaModelRunner.copyTables_eq {target source : List (List ℤ)} {count width maxBlocks : ℕ}
    (hcount : count ≤ target.length) (hsource : source.length = count)
    (htarget : ∀ row ∈ target, row = List.replicate maxBlocks 0)
    (htables : ∀ table ∈ source, table.length = width) (hwidth : width ≤ maxBlocks) :
    copyTables target count width source =
      .ok (source.map (fun table => table ++ List.replicate (maxBlocks - width) 0) ++
        target.drop count) := by
  have hrows : source.length = (target.take count).length := by
    rw [List.length_take, Nat.min_eq_left hcount, hsource]
  have hcopy : ∀ pair ∈ (target.take count).zip source,
      copyRows pair.1 width pair.2 = .ok (pair.2 ++ List.replicate (maxBlocks - width) 0) := by
    rintro ⟨row, table⟩ hmem
    obtain ⟨hrow, htable⟩ := List.of_mem_zip hmem
    obtain rfl := htarget row (List.mem_of_mem_take hrow)
    rw [copyRows_eq (by simpa using hwidth) (htables table htable), List.drop_replicate]
  have hmap : ((target.take count).zip source).map
      (fun pair => pair.2 ++ List.replicate (maxBlocks - width) (0 : ℤ)) =
      source.map (fun table => table ++ List.replicate (maxBlocks - width) 0) := by
    conv_rhs => rw [← List.map_snd_zip hrows.le, List.map_map]
    rfl
  rw [copyTables, if_neg (not_not.mpr hrows), Except.mapM_eq_ok hcopy, hmap]
  rfl

theorem LlamaModelRunner.length_of_copyTables {target source rows : List (List ℤ)}
    {count width maxBlocks : ℕ} (htarget : ∀ row ∈ target, row.length = maxBlocks)
    (h : copyTables target count width source = .ok rows) :
    rows.length = target.length ∧ ∀ row ∈ rows, row.length = maxBlocks := by
  unfold copyTables at h
  split at h
  · cases h
  · rename_i hsource
    generalize hcopied : (List.mapM _ _ : Except PyError (List (List ℤ))) = result at h
    cases result with
    | error e => cases h
    | ok copied =>
        obtain rfl := Except.ok.inj h
        obtain ⟨hlen, hmem⟩ := Except.of_mapM hcopied
        have hrows : copied.length = (target.take count).length := by
          rw [hlen, List.length_zip, not_not.mp hsource, Nat.min_self]
        refine ⟨?_, fun row hrow => ?_⟩
        · rw [List.length_append, hrows, ← List.length_append, List.take_append_drop]
        · rcases List.mem_append.mp hrow with hrow | hrow
          · obtain ⟨⟨old, table⟩, hpair, hcopy⟩ := hmem row hrow
            rw [length_of_copyRows hcopy]
            exact htarget old (List.mem_of_mem_take (List.of_mem_zip hpair).1)
          · exact htarget row (List.mem_of_mem_drop hrow)

end Copies

/-! ## The shape of the static tensors -/

section Static

variable {Hidden Query KeyValue Attention Logits : Type}
  {runner : LlamaModelRunner Hidden Query KeyValue Attention Logits}
  {graph : LlamaCUDAGraphState Logits} {captureSize n width : ℕ} {batch : GPUInputBatch}

/-- The static tensors of one capture size: what is never written after creation, and the
sizes of what is. -/
structure LlamaModelRunner.Shaped
    (runner : LlamaModelRunner Hidden Query KeyValue Attention Logits) (captureSize : ℕ)
    (graph : LlamaCUDAGraphState Logits) : Prop where
  inputIds : graph.inputIds.length = captureSize
  positions : graph.positions.length = captureSize
  rowPositions : graph.metadata.positions.length = captureSize
  slotMapping : graph.metadata.slotMapping.length = captureSize
  queryStartLoc : graph.metadata.queryStartLoc = List.range (captureSize + 1)
  seqLens : graph.metadata.seqLens.length = captureSize
  blockTables : graph.metadata.blockTables.length = captureSize
  tables : ∀ table ∈ graph.metadata.blockTables, table.length = runner.maxBlocks
  requestIndices : graph.metadata.requestIndices = List.range captureSize
  isDecode : graph.metadata.isDecode = List.replicate captureSize true
  activeMask : graph.metadata.activeMask.length = captureSize
  blockSize : graph.metadata.blockSize = runner.blockSize

namespace LlamaModelRunner

theorem createGraphState_eq (runner : LlamaModelRunner Hidden Query KeyValue Attention Logits)
    (emptySlots : ℕ → ℤ) (h : captureSize ≤ runner.maxNumSeqs) :
    ∃ graph, runner.createGraphState emptySlots captureSize = .ok graph ∧
      runner.Shaped captureSize graph ∧ graph.captured = false := by
  refine ⟨_, if_neg (Nat.not_lt.mpr h), ?_, rfl⟩
  constructor <;> simp

theorem shaped_of_createGraphState {emptySlots : ℕ → ℤ}
    (h : runner.createGraphState emptySlots captureSize = .ok graph) :
    runner.Shaped captureSize graph := by
  by_cases hsize : captureSize ≤ runner.maxNumSeqs
  · obtain ⟨graph', hgraph', hshaped, _⟩ := runner.createGraphState_eq emptySlots hsize
    obtain rfl := Except.ok.inj (h.symm.trans hgraph')
    exact hshaped
  · rw [createGraphState, if_pos (Nat.lt_of_not_le hsize)] at h
    cases h

/-- The static tensors after a copy: the rows of the batch, then padding rows. -/
def loaded (runner : LlamaModelRunner Hidden Query KeyValue Attention Logits)
    (captureSize n width : ℕ) (batch : GPUInputBatch) (graph : LlamaCUDAGraphState Logits) :
    LlamaCUDAGraphState Logits :=
  { graph with
    inputIds := batch.inputIds ++ List.replicate (captureSize - n) 0
    positions := batch.positions ++ List.replicate (captureSize - n) 0
    metadata :=
      { graph.metadata with
        positions := batch.positions ++ List.replicate (captureSize - n) 0
        slotMapping := batch.slotMapping.map Nat.cast ++
          paddingSlots runner.physicalCacheSlots n captureSize
        seqLens := batch.seqLens ++ List.replicate (captureSize - n) 1
        blockTables :=
          batch.blockTables.map (fun table => table ++ List.replicate (runner.maxBlocks - width) 0)
            ++ List.replicate (captureSize - n) (List.replicate runner.maxBlocks 0)
        activeMask := List.replicate n true ++ List.replicate (captureSize - n) false } }

/-- The copy of a decode batch raises nothing, and no row of an earlier batch survives. -/
theorem run_copyDecodeBatch (hgraph : runner.Shaped captureSize graph)
    (hbatch : DecodeBatch runner.blockSize n width batch) (hsize : n ≤ captureSize)
    (hwidth : width ≤ runner.maxBlocks) (hfits : batch.RowsFitInt32) :
    (runner.copyDecodeBatch batch).run graph =
      .ok () (runner.loaded captureSize n width batch graph) := by
  have huniform : batch.descriptor.uniformDecode = true := by
    rw [GPUInputBatch.descriptor, hbatch.isDecode]
    simp
  have htable : batch.tableWidth = .ok width := by
    refine GPUInputBatch.tableWidth_of_forall ?_ hbatch.tables
    exact List.ne_nil_of_length_pos (hbatch.blockTables ▸ hbatch.pos)
  have hcopy : ∀ (b : ℕ) (source : List ℕ), source.length = n →
      copyRows (List.replicate captureSize b) n source =
        .ok (source ++ List.replicate (captureSize - n) b) := by
    intro b source hsource
    rw [copyRows_eq (by simpa using hsize) hsource, List.drop_replicate]
  have hlength : (batch.slotMapping.map (Nat.cast : ℕ → ℤ)).length = n :=
    (List.length_map _).trans hbatch.slotMapping
  have hslots : copyRows graph.metadata.slotMapping n (batch.slotMapping.map Nat.cast) =
      .ok (batch.slotMapping.map Nat.cast ++ graph.metadata.slotMapping.drop n) :=
    copyRows_eq (hgraph.slotMapping ▸ hsize) hlength
  have hpositions : int32Counts batch.positions = .ok batch.positions :=
    int32Counts_eq_ok_iff.mpr ⟨hfits.positions, rfl⟩
  have hmapping : int32Tensor (batch.slotMapping.map Nat.cast) =
      .ok (batch.slotMapping.map Nat.cast) :=
    int32Tensor_natCast_eq_ok_iff.mpr ⟨hfits.slotMapping, rfl⟩
  have hseqLens : int32Counts batch.seqLens = .ok batch.seqLens :=
    int32Counts_eq_ok_iff.mpr ⟨hfits.seqLens, rfl⟩
  have hconverted : batch.blockTables.mapM int32Tensor = .ok batch.blockTables :=
    mapM_int32Tensor_eq_ok_iff.mpr ⟨hfits.blockTables, rfl⟩
  have hzero : graph.metadata.blockTables.map (fun table => List.replicate table.length (0 : ℤ)) =
      List.replicate captureSize (List.replicate runner.maxBlocks 0) := by
    refine List.eq_replicate_iff.mpr ⟨by rw [List.length_map, hgraph.blockTables], ?_⟩
    intro row hrow
    obtain ⟨table, htable, rfl⟩ := List.mem_map.mp hrow
    rw [hgraph.tables table htable]
  have htables : copyTables (List.replicate captureSize (List.replicate runner.maxBlocks 0)) n width
      batch.blockTables = .ok (batch.blockTables.map
        (fun table => table ++ List.replicate (runner.maxBlocks - width) 0) ++
          List.replicate (captureSize - n) (List.replicate runner.maxBlocks 0)) := by
    rw [copyTables_eq (by simpa using hsize) hbatch.blockTables
      (fun row hrow => (List.mem_replicate.mp hrow).2) hbatch.tables hwidth, List.drop_replicate]
  have hnot : ¬ captureSize < n := Nat.not_lt.mpr hsize
  simp only [copyDecodeBatch, huniform, Bool.true_eq_false, if_false, EStateM.run_bind,
    EStateM.run_get, hnot, EStateM.run_modify, EStateM.update, List.map_const', hgraph.inputIds,
    hgraph.positions, hgraph.rowPositions, hgraph.seqLens, hgraph.activeMask, hbatch.numRequests,
    hcopy 0 _ hbatch.inputIds, hcopy 0 _ hbatch.positions, hcopy 1 _ hbatch.seqLens, hslots,
    hpositions, hmapping, hseqLens, hconverted, hzero, htables, htable, Except.ok_bind,
    Except.pure_eq_ok, EStateM.run_ofExcept_ok, EStateM.run_set, List.take_left' hlength,
    List.take_replicate, List.drop_replicate,
    List.length_replicate, Nat.min_eq_left hsize, loaded]

/-- Where the copy raises in between, the tensors keep their sizes. -/
theorem copyDecodeBatch_leaves (batch : GPUInputBatch) (hgraph : runner.Shaped captureSize graph) :
    EStateM.Leaves (runner.Shaped captureSize) (runner.copyDecodeBatch batch) graph := by
  unfold copyDecodeBatch
  split
  · exact EStateM.leaves_throw _ hgraph
  · refine EStateM.Leaves.bind (EStateM.leaves_get hgraph) (fun start graph hget hstart => ?_)
    obtain ⟨rfl, rfl⟩ := EStateM.Result.ok.inj hget
    dsimp only
    split
    · exact EStateM.leaves_throw _ hgraph
    · rename_i hsize
      refine EStateM.Leaves.bind (EStateM.leaves_modify ?_) (fun _ graph' _ hgraph => ?_)
      · constructor <;> simp [hgraph.inputIds, hgraph.positions, hgraph.rowPositions,
          hgraph.slotMapping, hgraph.queryStartLoc, hgraph.seqLens, hgraph.blockTables,
          hgraph.requestIndices, hgraph.isDecode, hgraph.activeMask, hgraph.blockSize]
        exact hgraph.tables
      refine EStateM.Leaves.bind (EStateM.leaves_update_part hgraph (fun rows hrows => ?_))
        (fun _ _ _ hgraph => ?_)
      · exact { hgraph with inputIds := (length_of_copyRows hrows).trans hgraph.inputIds }
      refine EStateM.Leaves.bind (EStateM.leaves_update_part hgraph (fun rows hrows => ?_))
        (fun _ _ _ hgraph => ?_)
      · exact { hgraph with positions := (length_of_copyRows hrows).trans hgraph.positions }
      refine EStateM.Leaves.bind (EStateM.leaves_update hgraph (fun next h => ?_))
        (fun _ _ _ hgraph => ?_)
      · obtain ⟨_, _, h⟩ := Except.bind_eq_ok_iff.mp h
        obtain ⟨rows, hrows, h⟩ := Except.bind_eq_ok_iff.mp h
        obtain rfl := Except.ok.inj h
        exact { hgraph with rowPositions := (length_of_copyRows hrows).trans hgraph.rowPositions }
      refine EStateM.Leaves.bind (EStateM.leaves_update hgraph (fun next h => ?_))
        (fun _ _ _ hgraph => ?_)
      · obtain ⟨_, _, h⟩ := Except.bind_eq_ok_iff.mp h
        obtain ⟨rows, hrows, h⟩ := Except.bind_eq_ok_iff.mp h
        obtain rfl := Except.ok.inj h
        exact { hgraph with slotMapping := (length_of_copyRows hrows).trans hgraph.slotMapping }
      refine EStateM.Leaves.bind (EStateM.leaves_update hgraph (fun next h => ?_))
        (fun _ _ _ hgraph => ?_)
      · obtain ⟨_, _, h⟩ := Except.bind_eq_ok_iff.mp h
        obtain ⟨rows, hrows, h⟩ := Except.bind_eq_ok_iff.mp h
        obtain rfl := Except.ok.inj h
        exact { hgraph with seqLens := (length_of_copyRows hrows).trans hgraph.seqLens }
      refine EStateM.Leaves.bind (EStateM.leaves_update hgraph (fun next h => ?_))
        (fun _ _ _ hgraph => ?_)
      · obtain ⟨width, _, h⟩ := Except.bind_eq_ok_iff.mp h
        obtain ⟨tables, _, h⟩ := Except.bind_eq_ok_iff.mp h
        obtain ⟨rows, htables, h⟩ := Except.bind_eq_ok_iff.mp h
        obtain rfl := Except.ok.inj h
        obtain ⟨hlen, hrows⟩ := length_of_copyTables hgraph.tables htables
        exact { hgraph with blockTables := hlen.trans hgraph.blockTables, tables := hrows }
      · have hlen : batch.numRequests + (graph.inputIds.length - batch.numRequests) =
            captureSize := by
          rw [Nat.add_sub_cancel' (Nat.not_lt.mp hsize), hstart.inputIds]
        refine EStateM.leaves_modify { hgraph with slotMapping := ?_, activeMask := ?_ }
        · rw [List.length_append, List.length_take, hgraph.slotMapping, paddingSlots,
            List.length_map, List.length_range']
          omega
        · rw [List.length_append, List.length_map, ← List.length_append, List.take_append_drop,
            hgraph.activeMask]

end LlamaModelRunner

end Static

end MiniVLLM
