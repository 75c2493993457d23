import MiniVLLM.Verification.Engine.Positions
import MiniVLLM.Verification.Native.Sizes
import MiniVLLM.Verification.Worker.Flattening

/-! # Every scheduled batch is accepted

The scheduler bounds a batch in one process; the Worker, the native runtime and the graph
runner check it in others, with formulas of their own. Where their 32-bit numbers hold the sizes
of the configuration, they never reject it. -/

namespace MiniVLLM

open KVCacheManager Scheduler EngineCore

/-! ## Bounds of a scheduled batch -/

section Bounds

variable {config : EngineConfig} {s admitted : Scheduler} {items : List WorkerItem}
  {m' : KVCacheManager}

theorem Scheduler.Scheduled.valid (h : Scheduled config s admitted items m') :
    ∀ item ∈ items, ValidItem config.blockSize item := by
  intro item hitem
  obtain ⟨_, _, hissued⟩ := h.issued hitem
  exact hissued.valid

/-- Each item owns a block, and no two items share one. -/
theorem Scheduler.Scheduled.length_le_numGpuBlocks (h : Scheduled config s admitted items m') :
    items.length ≤ config.numGpuBlocks := by
  have howned := h.loop.owned h.settled.owned
  have hfirst : ∀ item ∈ items, ∃ id, m'.tables.get? id = some item.blockTable ∧
      item.requestId = id ∧ item.blockTable.headD 0 ∈ item.blockTable := by
    intro item hitem
    obtain ⟨r, _, hissued⟩ := h.issued hitem
    have hpos : 0 < requiredBlocks config.blockSize item.seqLen :=
      requiredBlocks_pos config.blockSize_pos (Nat.zero_lt_of_lt hissued.start_lt)
    have hne : 0 < item.blockTable.length := hpos.trans_le hissued.valid.table_length
    refine ⟨r.requestId, hissued.table, hissued.requestId_eq, ?_⟩
    obtain ⟨block, table, htable⟩ := List.exists_cons_of_length_pos hne
    simp [htable]
  have hnodup : (items.map (fun item => item.blockTable.headD 0)).Nodup := by
    refine (List.Nodup.of_map _ h.items_nodup).map_on (fun item hitem item' hitem' hhead => ?_)
    obtain ⟨id, hid, hname, hmem⟩ := hfirst item hitem
    obtain ⟨id', hid', hname', hmem'⟩ := hfirst item' hitem'
    refine List.inj_on_of_nodup_map h.items_nodup hitem hitem' ?_
    by_contra hne
    have hdisjoint := howned.tables_disjoint (by rwa [hname, hname'] at hne) hid hid'
    exact hdisjoint hmem (hhead ▸ hmem')
  have hsubset : items.map (fun item => item.blockTable.headD 0) ⊆ List.range config.numGpuBlocks := by
    intro block hblock
    obtain ⟨item, hitem, rfl⟩ := List.mem_map.mp hblock
    obtain ⟨id, hid, _, hmem⟩ := hfirst item hitem
    exact List.mem_range.mpr (howned.table_lt hid _ hmem)
  simpa using (List.subperm_of_subset hnodup hsubset).length_le

theorem Scheduler.Scheduled.length_le_maxNumSeqs (h : Scheduled config s admitted items m') :
    items.length ≤ config.maxNumSeqs := by
  have hle := h.loop.items_sublist.length_le
  rw [List.length_map, List.length_map, Dict.length_values] at hle
  exact hle.trans h.settled.seats

theorem Scheduler.Scheduled.numTokens_le (h : Scheduled config s admitted items m')
    (batchId : ℕ) : (GPUInputBatch.ofItems config.blockSize ⟨batchId, items⟩).inputIds.length ≤
      config.maxNumBatchedTokens :=
  (List.length_flatMap ..).trans_le h.loop.sum_tokens_le

theorem Scheduler.Scheduled.slot_lt (h : Scheduled config s admitted items m') {item : WorkerItem}
    (hitem : item ∈ items) {p : ℕ} (hp : p < item.seqLen) :
    Paging.slot config.blockSize item.blockTable p < config.numGpuBlocks * config.blockSize := by
  obtain ⟨_, _, hissued⟩ := h.issued hitem
  have howned := h.loop.owned h.settled.owned
  exact Paging.slot_lt config.blockSize_pos (howned.table_lt hissued.table)
    (hissued.covers.div_lt hp)

/-- A cache of at most `2 ^ 31` slots, and less than that many tokens in a batch. -/
structure EngineConfig.FitsInt32 (config : EngineConfig) : Prop where
  slots : config.numGpuBlocks * config.blockSize ≤ 2 ^ 31
  tokens : config.maxNumBatchedTokens < 2 ^ 31

theorem Scheduler.Scheduled.fitsInt32 (h : Scheduled config s admitted items m')
    (hfits : config.FitsInt32) (hlimit : ∀ item ∈ items, item.seqLen < config.contextLimit)
    (batchId : ℕ) : (WorkerBatch.mk batchId items).FitsInt32 where
  slotMapping := by
    intro item hitem slot hslot
    obtain ⟨r, _, hissued⟩ := h.issued hitem
    rw [hissued.slotMapping_eq] at hslot
    obtain ⟨p, hp, rfl⟩ := List.mem_map.mp hslot
    have hlt := (List.mem_range'_1.mp hp).2
    have hstart := hissued.start_lt
    exact (h.slot_lt hitem (by omega)).trans_le hfits.slots
  blockTable := by
    intro item hitem block hblock
    obtain ⟨_, _, hissued⟩ := h.issued hitem
    have hlt := (h.loop.owned h.settled.owned).table_lt hissued.table block hblock
    have hle : config.numGpuBlocks ≤ config.numGpuBlocks * config.blockSize :=
      Nat.le_mul_of_pos_right _ config.blockSize_pos
    exact hlt.trans_le (hle.trans hfits.slots)
  seqLen := fun item hitem =>
    (hlimit item hitem).trans_le ((Nat.min_le_right _ _).trans hfits.slots)
  numTokens := h.loop.sum_tokens_le.trans_lt hfits.tokens

end Bounds

theorem EngineCore.HonestTrace.seqLen_lt {config : EngineConfig} {tokenizer : Tokenizer}
    {τs : List CoreTransition} {core : EngineCore} (h : HonestTrace config tokenizer τs core)
    (hloop : core.stopped = false) {admitted : Scheduler} {items : List WorkerItem}
    {m' : KVCacheManager} (hs : Scheduled config core.scheduler admitted items m')
    {item : WorkerItem} (hitem : item ∈ items) : item.seqLen < config.contextLimit := by
  obtain ⟨r, hr, hissued⟩ := hs.issued hitem
  have hsettled := Trace.stable (HonestTrace.trace h) hloop
  have hlive : core.scheduler.request? item.requestId = some r := by
    rw [← hs.admission.request?_eq hsettled hs.settled, request?_of_running hr]
  exact hissued.seqLen_le.trans_lt (HonestTrace.length_lt h _ r hlive)

/-! ## Acceptance -/

/-- What the checks behind the scheduler say about a batch. -/
structure Accepted (config : EngineConfig) (items : List WorkerItem) (input : GPUInputBatch) :
    Prop where
  slotMapping : ∀ index (h : index < items.length), items[index].slotMapping =
    ((Ragged.slice input.contextSlotMapping input.contextStartLoc index).drop
      items[index].startPos).take (items[index].seqLen - items[index].startPos)
  slots : ∀ slot ∈ input.slotMapping, slot < config.numGpuBlocks * config.blockSize
  positions : ∀ position ∈ input.positions, position < config.contextLimit
  tableWidth : ∃ width, input.tableWidth = .ok width ∧
    width ≤ (config.maxModelLen + config.blockSize - 1) / config.blockSize
  metadata : (∃ metadata, AttentionMetadata.fromBatch input config.blockSize
    (some ((config.maxModelLen + config.blockSize - 1) / config.blockSize)) = .ok metadata) ↔
      input.FitsInt32
  fitsInt32 : config.FitsInt32 → input.FitsInt32
  numRequests : input.numRequests ≤ config.numGpuBlocks ∧ input.numRequests ≤ config.maxNumSeqs
  attentionBatch : config.FitsInt → ∀ headDim runtime,
    NativeRuntime.create (CudaKernelRuntime.createArgs config headDim) = some runtime →
      CudaKernelRuntime.attentionBatch runtime input = .ok ()

/-- What the checks on a picked capture size say. -/
structure AcceptedGraph (config : EngineConfig) (input : GPUInputBatch) (captureSize : ℕ) :
    Prop where
  numRequests_le : input.numRequests ≤ captureSize
  captureSize_le : captureSize ≤ config.maxNumSeqs
  native : config.FitsInt → ∀ headDim runtime,
    NativeRuntime.create (CudaKernelRuntime.createArgs config headDim) = some runtime →
      CudaKernelRuntime.executeDecodeGraph runtime input captureSize = .ok ()
  llama : ∀ {Hidden Query KeyValue Attention Logits : Type}
    (model : LlamaForCausalLM Hidden Query KeyValue Attention Logits) (argmax : Logits → TokenId)
    (multinomial : Logits → ℚ → TokenId) (supportsCudagraph : Bool),
    (∀ emptySlots, ∃ graph, (LlamaModelRunner.ofConfig config model argmax multinomial
      supportsCudagraph).createGraphState emptySlots captureSize = .ok graph) ∧
    (input.RowsFitInt32 → ∀ graph, (LlamaModelRunner.ofConfig config model argmax multinomial
        supportsCudagraph).Shaped captureSize graph →
      ∃ graph', ((LlamaModelRunner.ofConfig config model argmax multinomial
        supportsCudagraph).copyDecodeBatch input).run graph = .ok () graph')

section Checks

variable {config : EngineConfig} {s admitted : Scheduler} {items : List WorkerItem}
  {m' : KVCacheManager} {captureSize : ℕ}

theorem widthOf_le (hlimit : ∀ item ∈ items, item.seqLen < config.contextLimit) :
    GPUInputBatch.widthOf config.blockSize items ≤
      (config.maxModelLen + config.blockSize - 1) / config.blockSize := by
  refine GPUInputBatch.foldl_max_le (fun count hcount => ?_)
  obtain ⟨item, hitem, rfl⟩ := List.mem_map.mp hcount
  have hlt := hlimit item hitem
  have hle : config.contextLimit ≤ config.maxModelLen := Nat.min_le_left _ _
  exact requiredBlocks_mono config.blockSize (hlt.le.trans hle)

/-- So they are `int`s where the context limit is one. -/
theorem EngineConfig.FitsInt.width_lt (h : config.FitsInt) {width : ℕ}
    (hle : width ≤ (config.maxModelLen + config.blockSize - 1) / config.blockSize) :
    width < 2 ^ 31 := by
  have hpos := config.blockSize_pos
  have hlen := h.maxModelLen
  have hlt : (config.maxModelLen + config.blockSize - 1) / config.blockSize ≤
      config.maxModelLen := by
    rw [Nat.div_le_iff_le_mul_add_pred hpos]
    have := Nat.le_mul_of_pos_left config.maxModelLen hpos
    omega
  omega

theorem Scheduler.Scheduled.accepted (hs : Scheduled config s admitted items m') (hne : items ≠ [])
    (hlimit : ∀ item ∈ items, item.seqLen < config.contextLimit) (batchId : ℕ) :
    Accepted config items (GPUInputBatch.ofItems config.blockSize ⟨batchId, items⟩) := by
  have hvalid : ∀ item ∈ (WorkerBatch.mk batchId items).items, ValidItem config.blockSize item :=
    hs.valid
  have hwidth : (GPUInputBatch.ofItems config.blockSize ⟨batchId, items⟩).tableWidth =
      .ok (GPUInputBatch.widthOf config.blockSize items) :=
    GPUInputBatch.tableWidth_ofItems hne hvalid
  have hrequests : (GPUInputBatch.ofItems config.blockSize ⟨batchId, items⟩).numRequests =
      items.length := GPUInputBatch.numRequests_ofItems _
  have hle := widthOf_le hlimit
  have hpos : 0 < GPUInputBatch.widthOf config.blockSize items :=
    GPUInputBatch.widthOf_pos config.blockSize_pos hne hvalid
  refine ⟨fun index hindex => ?_, fun slot hslot => ?_, fun position hposition => ?_,
    ⟨_, hwidth, hle⟩, ⟨?_, fun hfits => ?_⟩,
    fun hfits => GPUInputBatch.fitsInt32_ofItems hs.valid (hs.fitsInt32 hfits hlimit batchId), ?_,
    fun hfits headDim runtime hcreate => ?_⟩
  · obtain ⟨r, _, hissued⟩ := hs.issued (List.getElem_mem hindex)
    have hslice : Ragged.slice (items.map (GPUInputBatch.contextOf config.blockSize)).flatten
        (Ragged.starts (items.map (GPUInputBatch.contextOf config.blockSize))) index =
        GPUInputBatch.contextOf config.blockSize items[index] := by
      rw [Ragged.slice_starts (by simpa using hindex), List.getElem_map]
    refine hissued.slotMapping_eq.trans ?_
    rw [show Ragged.slice (GPUInputBatch.ofItems config.blockSize ⟨batchId, items⟩).contextSlotMapping
      (GPUInputBatch.ofItems config.blockSize ⟨batchId, items⟩).contextStartLoc index = _ from hslice,
      GPUInputBatch.contextOf, ← List.map_drop, List.range_eq_range', List.drop_range',
      Nat.mul_one, Nat.zero_add, List.take_of_length_le (by simp)]
  · obtain ⟨item, hitem, hmem⟩ := List.mem_flatMap.mp hslot
    obtain ⟨r, _, hissued⟩ := hs.issued hitem
    rw [hissued.slotMapping_eq] at hmem
    obtain ⟨p, hp, rfl⟩ := List.mem_map.mp hmem
    have hlt := (List.mem_range'_1.mp hp).2
    have hstart := hissued.start_lt
    exact hs.slot_lt hitem (by omega)
  · obtain ⟨item, hitem, hmem⟩ := List.mem_flatMap.mp hposition
    obtain ⟨r, _, hissued⟩ := hs.issued hitem
    have hlt := (List.mem_range'_1.mp hmem).2
    have hstart := hissued.start_lt
    have hend := hlimit item hitem
    omega
  · rintro ⟨_, hmetadata⟩
    exact AttentionMetadata.fitsInt32_of_fromBatch hmetadata
  · have hpadded : GPUInputBatch.widthOf config.blockSize items ≤ AttentionMetadata.paddedWidth
        (some ((config.maxModelLen + config.blockSize - 1) / config.blockSize))
        (GPUInputBatch.widthOf config.blockSize items) := by
      rw [AttentionMetadata.paddedWidth, if_neg (hpos.trans_le hle).ne']
      exact hle
    exact ⟨_, AttentionMetadata.fromBatch_eq_ok_iff.mpr ⟨_, hwidth, hpadded, hfits, rfl⟩⟩
  · rw [hrequests]
    exact ⟨hs.length_le_numGpuBlocks, hs.length_le_maxNumSeqs⟩
  · have hcount := List.length_pos_of_ne_nil hne
    have hblocks := hs.length_le_numGpuBlocks
    have hseats := hs.length_le_maxNumSeqs
    have hint := hfits.width_lt hle
    rw [NativeRuntime.eq_ofConfig hfits hcreate, CudaKernelRuntime.attentionBatch, hwidth,
      Except.ok_bind, hrequests, CInt.wrap_natCast hint,
      CInt.wrap_natCast (hseats.trans_lt hfits.maxNumSeqs), NativeRuntime.attentionBatchStatus,
      if_neg ?_]
    · rfl
    · simp only [NativeRuntime.ofConfig]
      dsimp only at *
      omega

theorem Scheduler.Scheduled.acceptedGraph (hs : Scheduled config s admitted items m')
    (hne : items ≠ []) (hlimit : ∀ item ∈ items, item.seqLen < config.contextLimit) (batchId : ℕ)
    (hdispatch : ((CUDAGraphDispatcher.ofConfig config).dispatch
      (GPUInputBatch.ofItems config.blockSize ⟨batchId, items⟩).descriptor).captureSize =
        some captureSize) :
    AcceptedGraph config (GPUInputBatch.ofItems config.blockSize ⟨batchId, items⟩) captureSize := by
  have hvalid : ∀ item ∈ (WorkerBatch.mk batchId items).items, ValidItem config.blockSize item :=
    hs.valid
  obtain ⟨huniform, _, hsize, hcapture⟩ := CUDAGraphDispatcher.of_dispatch hdispatch
  have hdecode := GPUInputBatch.decodeBatch_ofItems config.blockSize_pos hne hvalid huniform
  have hwidth : (GPUInputBatch.ofItems config.blockSize ⟨batchId, items⟩).tableWidth =
      .ok (GPUInputBatch.widthOf config.blockSize items) :=
    GPUInputBatch.tableWidth_ofItems hne hvalid
  have hrequests : (GPUInputBatch.ofItems config.blockSize ⟨batchId, items⟩).numRequests =
      items.length := GPUInputBatch.numRequests_ofItems _
  have hcount : items.length ≤ captureSize := hrequests ▸ hsize
  have hle := widthOf_le hlimit
  refine ⟨hsize, hcapture, fun hfits headDim runtime hcreate => ?_, ?_⟩
  · have hpositive := List.length_pos_of_ne_nil hne
    have hwidthPos := hdecode.width_pos
    have hint := hfits.width_lt hle
    have hseats := hfits.maxNumSeqs
    rw [NativeRuntime.eq_ofConfig hfits hcreate, CudaKernelRuntime.executeDecodeGraph,
      if_neg (by simp [huniform]), hwidth, Except.ok_bind, hrequests, CInt.wrap_natCast hint,
      CInt.wrap_natCast (by omega), CInt.wrap_natCast (by omega), NativeRuntime.decodeGraphStatus,
      if_neg ?_]
    · rfl
    · simp only [NativeRuntime.ofConfig]
      dsimp only at hwidthPos
      omega
  · intro Hidden Query KeyValue Attention Logits model argmax multinomial supportsCudagraph
    refine ⟨fun emptySlots => ?_, fun hfits graph hgraph => ?_⟩
    · obtain ⟨graph, hcreate, _⟩ := LlamaModelRunner.createGraphState_eq
        (LlamaModelRunner.ofConfig config model argmax multinomial supportsCudagraph) emptySlots
        hcapture
      exact ⟨graph, hcreate⟩
    · exact ⟨_, LlamaModelRunner.run_copyDecodeBatch hgraph hdecode hcount hle hfits⟩

end Checks

def acceptedEvents : List Event :=
  [.command (.add (requestOf "a" [10, 11])), .engineStep [answerOf 1 [("a", 20)]],
    .command (.add (requestOf "b" [12, 13]))]

/-- In every run with honest Workers, what is scheduled passes every check behind it. -/
theorem batches_accepted {config : EngineConfig} {tokenizer : Tokenizer}
    {τs : List CoreTransition} {core : EngineCore} (h : HonestTrace config tokenizer τs core)
    (hloop : core.stopped = false) {schedule : Schedule} {s' : Scheduler}
    (hschedule : (Scheduler.schedule config).run core.scheduler = .ok schedule s')
    {items : List WorkerItem} (hbatch : schedule.byRank.get? (some 0) = some items)
    (batchId : ℕ) :
    ∃ input, GPUInputBatch.fromWorkerBatch ⟨batchId, items⟩ config.blockSize = .ok input ∧
      Accepted config items input ∧
      ∀ captureSize, ((CUDAGraphDispatcher.ofConfig config).dispatch input.descriptor).captureSize =
        some captureSize → AcceptedGraph config input captureSize := by
  have hsettled := Trace.stable (HonestTrace.trace h) hloop
  obtain ⟨admitted, items', m', hs, hrun⟩ := hsettled.run_schedule
  obtain ⟨rfl, rfl⟩ := EStateM.Result.ok.inj (hschedule.symm.trans hrun)
  have hne : items' ≠ [] := by
    rintro rfl
    simp [Dict.get?, Schedule.ofItems_byRank_nil] at hbatch
  rw [Schedule.ofItems_byRank_of_ne hne, Dict.get?_singleton, if_pos rfl] at hbatch
  obtain rfl := Option.some.inj hbatch
  have hlimit : ∀ item ∈ items', item.seqLen < config.contextLimit :=
    fun item hitem => HonestTrace.seqLen_lt h hloop hs hitem
  exact ⟨_, GPUInputBatch.fromWorkerBatch_eq ⟨batchId, items'⟩ config.blockSize_pos hne hs.valid,
    hs.accepted hne hlimit batchId,
    fun captureSize hdispatch => hs.acceptedGraph hne hlimit batchId hdispatch⟩

theorem batches_accepted_mixed : ∃ τs core schedule s' items input runtime,
    HonestTrace smallConfig characterTokenizer τs core ∧
      (Scheduler.schedule smallConfig).run core.scheduler = .ok schedule s' ∧
      items.map (·.requestId) = ["a", "b"] ∧ schedule.byRank.get? (some 0) = some items ∧
      Accepted smallConfig items input ∧ input.FitsInt32 ∧
      NativeRuntime.create (CudaKernelRuntime.createArgs smallConfig 32) = some runtime ∧
      CudaKernelRuntime.attentionBatch runtime input = .ok () := by
  have hsome : (drive smallConfig characterTokenizer acceptedEvents).map
      (fun run => (decide (∀ τ ∈ run.1, HonestEvent τ.pre τ.out τ.event), run.2.stopped,
        match (Scheduler.schedule smallConfig).run run.2.scheduler with
        | .ok schedule _ => (schedule.byRank.get? (some 0)).map
          (fun items => items.map (·.requestId))
        | .error _ _ => none)) = some (true, false, some ["a", "b"]) := by decide +kernel
  obtain ⟨⟨τs, core⟩, hdrive, hrun⟩ := Option.map_eq_some_iff.mp hsome
  simp only [Prod.mk.injEq, decide_eq_true_eq] at hrun
  obtain ⟨hhonest, hloop, hids⟩ := hrun
  have htrace := drive_honest hdrive (by decide) hhonest
  cases hschedule : (Scheduler.schedule smallConfig).run core.scheduler with
  | error e s' => simp [hschedule] at hids
  | ok schedule s' =>
      rw [hschedule] at hids
      obtain ⟨items, hitems, hmap⟩ := Option.map_eq_some_iff.mp hids
      obtain ⟨input, _, haccepted, _⟩ := batches_accepted htrace hloop hschedule hitems 2
      have hcreate : NativeRuntime.create (CudaKernelRuntime.createArgs smallConfig 32) =
          some (NativeRuntime.ofConfig smallConfig) := by decide +kernel
      exact ⟨τs, core, schedule, s', items, input, _, htrace, hschedule, hmap, hitems, haccepted,
        haccepted.fitsInt32 ⟨by decide, by decide⟩, hcreate,
        haccepted.attentionBatch ⟨by decide, by decide, by decide, by decide⟩ 32 _ hcreate⟩

/-- The slots of the batch that is scheduled next, and what `from_batch` raises for it. -/
def raisedFor (config : EngineConfig) (s : Scheduler) : Option (List ℕ × Option PyError) :=
  match (Scheduler.schedule config).run s with
  | .error _ _ => none
  | .ok schedule _ => do
      let items ← schedule.byRank.get? (some 0)
      let input ← (GPUInputBatch.fromWorkerBatch ⟨1, items⟩ config.blockSize).toOption
      match AttentionMetadata.fromBatch input config.blockSize
          (some ((config.maxModelLen + config.blockSize - 1) / config.blockSize)) with
      | .ok _ => pure (input.slotMapping, none)
      | .error e => pure (input.slotMapping, some e)

/-- The second of two requests stands at slot `2 ^ 31`, which no int32 tensor holds. -/
theorem batches_accepted_overflow : ∃ τs core,
    HonestTrace wideConfig characterTokenizer τs core ∧ core.stopped = false ∧
      raisedFor wideConfig core.scheduler = some ([0, 2 ^ 31], some int32Overflow) := by
  have hsome : (drive wideConfig characterTokenizer
      [.command (.add (requestOf "a" [10])), .command (.add (requestOf "b" [11]))]).map
      (fun run => (decide (∀ τ ∈ run.1, HonestEvent τ.pre τ.out τ.event), run.2.stopped,
        raisedFor wideConfig run.2.scheduler)) =
          some (true, false, some ([0, 2 ^ 31], some int32Overflow)) := by decide +kernel
  obtain ⟨⟨τs, core⟩, hdrive, hrun⟩ := Option.map_eq_some_iff.mp hsome
  simp only [Prod.mk.injEq, decide_eq_true_eq] at hrun
  obtain ⟨hhonest, hloop, hraised⟩ := hrun
  exact ⟨τs, core, drive_honest hdrive (by decide) hhonest, hloop, hraised⟩

end MiniVLLM
