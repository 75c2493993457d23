import MiniVLLM.Verification.Cache.Calls
import MiniVLLM.Verification.Engine.Steps
import MiniVLLM.Verification.Worker.Graph

/-! # What a graph reads

A copy into the static tensors leaves nothing of the batches before it: two graph states of
one capture size agree on everything a replay reads. -/

namespace MiniVLLM

open KVCacheManager EngineCore

variable {Hidden Query KeyValue Attention Logits : Type}

/-- The fields of a graph state that a replay reads and `_copy_decode_batch` writes. -/
structure StaticInputs where
  inputIds : List TokenId
  positions : List ℕ
  rowPositions : List ℕ
  slotMapping : List ℤ
  seqLens : List ℕ
  blockTables : List (List ℤ)
  activeMask : List Bool
  deriving DecidableEq, Repr

def LlamaCUDAGraphState.staticInputs (graph : LlamaCUDAGraphState Logits) : StaticInputs where
  inputIds := graph.inputIds
  positions := graph.positions
  rowPositions := graph.metadata.positions
  slotMapping := graph.metadata.slotMapping
  seqLens := graph.metadata.seqLens
  blockTables := graph.metadata.blockTables
  activeMask := graph.metadata.activeMask

namespace LlamaModelRunner

variable {config : EngineConfig} {runner : LlamaModelRunner Hidden Query KeyValue Attention Logits}
  {captureSize width : ℕ} {input : GPUInputBatch}

/-- The static inputs of a batch: its rows first, then padding rows that are inactive and one
token long. -/
structure StaticSpec (runner : LlamaModelRunner Hidden Query KeyValue Attention Logits)
    (captureSize : ℕ) (input : GPUInputBatch) (inputs : StaticInputs) : Prop where
  inputIds : inputs.inputIds =
    input.inputIds ++ List.replicate (captureSize - input.numRequests) 0
  positions : inputs.positions =
    input.positions ++ List.replicate (captureSize - input.numRequests) 0
  rowPositions : inputs.rowPositions = inputs.positions
  slotMapping : inputs.slotMapping.take input.numRequests = input.slotMapping.map Nat.cast
  seqLens : inputs.seqLens = input.seqLens ++ List.replicate (captureSize - input.numRequests) 1
  blockTables : inputs.blockTables.take input.numRequests = input.blockTables.map fun table =>
    table ++ List.replicate (runner.maxBlocks - table.length) 0
  tables : inputs.blockTables.length = captureSize ∧
    ∀ table ∈ inputs.blockTables, table.length = runner.maxBlocks
  activeMask : inputs.activeMask = List.replicate input.numRequests true ++
    List.replicate (captureSize - input.numRequests) false
  padding : (inputs.slotMapping.drop input.numRequests).length = captureSize - input.numRequests

/-- The padding rows stand at scratch slots. -/
structure ScratchSpec (runner : LlamaModelRunner Hidden Query KeyValue Attention Logits)
    (input : GPUInputBatch) (inputs : StaticInputs) : Prop where
  nodup : (inputs.slotMapping.drop input.numRequests).Nodup
  scratch : ∀ slot ∈ inputs.slotMapping.drop input.numRequests,
    (runner.physicalCacheSlots : ℤ) ≤ slot ∧
      slot < runner.physicalCacheSlots + runner.maxNumSeqs ∧ slot < runner.cacheSlots

def staticInputsOf (runner : LlamaModelRunner Hidden Query KeyValue Attention Logits)
    (captureSize : ℕ) (input : GPUInputBatch) : StaticInputs where
  inputIds := input.inputIds ++ List.replicate (captureSize - input.numRequests) 0
  positions := input.positions ++ List.replicate (captureSize - input.numRequests) 0
  rowPositions := input.positions ++ List.replicate (captureSize - input.numRequests) 0
  slotMapping := input.slotMapping.map Nat.cast ++
    paddingSlots runner.physicalCacheSlots input.numRequests captureSize
  seqLens := input.seqLens ++ List.replicate (captureSize - input.numRequests) 1
  blockTables := input.blockTables.map
      (fun table => table ++ List.replicate (runner.maxBlocks - table.length) 0) ++
    List.replicate (captureSize - input.numRequests) (List.replicate runner.maxBlocks 0)
  activeMask := List.replicate input.numRequests true ++
    List.replicate (captureSize - input.numRequests) false

theorem staticInputs_loaded {n : ℕ} (hbatch : DecodeBatch runner.blockSize n width input)
    (graph : LlamaCUDAGraphState Logits) :
    (runner.loaded captureSize n width input graph).staticInputs =
      runner.staticInputsOf captureSize input := by
  have htables : input.blockTables.map
      (fun table => table ++ List.replicate (runner.maxBlocks - width) 0) =
        input.blockTables.map
          (fun table => table ++ List.replicate (runner.maxBlocks - table.length) 0) :=
    List.map_congr_left fun table htable => by rw [hbatch.tables table htable]
  simp only [LlamaCUDAGraphState.staticInputs, loaded, staticInputsOf, hbatch.numRequests, htables]

theorem drop_staticInputsOf {n : ℕ} (hbatch : DecodeBatch runner.blockSize n width input) :
    (runner.staticInputsOf captureSize input).slotMapping.drop input.numRequests =
      paddingSlots runner.physicalCacheSlots n captureSize := by
  rw [staticInputsOf, hbatch.numRequests]
  exact List.drop_left' ((List.length_map _).trans hbatch.slotMapping)

theorem staticSpec_staticInputsOf {n : ℕ} (hbatch : DecodeBatch runner.blockSize n width input)
    (hcount : n ≤ captureSize) (hwidth : width ≤ runner.maxBlocks) :
    StaticSpec runner captureSize input (runner.staticInputsOf captureSize input) := by
  have hn := hbatch.numRequests
  refine ⟨rfl, rfl, rfl, ?_, rfl, ?_, ⟨?_, ?_⟩, rfl, ?_⟩
  · rw [hn]
    exact List.take_left' ((List.length_map _).trans hbatch.slotMapping)
  · rw [hn]
    exact List.take_left' (by rw [List.length_map, hbatch.blockTables])
  · rw [staticInputsOf, List.length_append, List.length_map, List.length_replicate, hn,
      hbatch.blockTables]
    exact Nat.add_sub_cancel' hcount
  · intro table htable
    rcases List.mem_append.mp htable with hrow | hpad
    · obtain ⟨row, hmem, rfl⟩ := List.mem_map.mp hrow
      rw [List.length_append, List.length_replicate, hbatch.tables row hmem]
      exact Nat.add_sub_cancel' hwidth
    · rw [(List.mem_replicate.mp hpad).2, List.length_replicate]
  · rw [drop_staticInputsOf hbatch, paddingSlots, List.length_map, List.length_range', hn]

theorem paddingSlots_eq {physicalCacheSlots : ℕ} (count : ℕ)
    (hfits : physicalCacheSlots + captureSize ≤ 2 ^ 31) :
    paddingSlots physicalCacheSlots count captureSize =
      (List.range' count (captureSize - count)).map
        fun row => ((physicalCacheSlots + row : ℕ) : ℤ) := by
  refine List.map_congr_left fun row hrow => CInt.wrap_natCast ?_
  obtain ⟨hle, hlt⟩ := List.mem_range'_1.mp hrow
  omega

theorem scratchSpec_staticInputsOf {n : ℕ} (hbatch : DecodeBatch runner.blockSize n width input)
    (hsize : captureSize ≤ runner.maxNumSeqs)
    (hfits : runner.physicalCacheSlots + captureSize ≤ 2 ^ 31) :
    ScratchSpec runner input (runner.staticInputsOf captureSize input) := by
  have hdrop := (drop_staticInputsOf hbatch).trans (paddingSlots_eq n hfits)
  refine ⟨?_, fun slot hslot => ?_⟩
  · rw [hdrop]
    exact (List.nodup_range').map fun a b hab => Nat.add_left_cancel (Nat.cast_injective hab)
  · rw [hdrop] at hslot
    obtain ⟨row, hrow, rfl⟩ := List.mem_map.mp hslot
    obtain ⟨hle, hlt⟩ := List.mem_range'_1.mp hrow
    refine ⟨?_, ?_, ?_⟩
    · omega
    · omega
    · rw [cacheSlots]
      omega

/-- After the copy of a uniform decode batch a replay reads the batch and padding rows, whatever
the graph state held before. The slots of the padding rows are scratch slots, which no request
can own, where 32 bits hold them. -/
theorem copyDecodeBatch_static {batch : WorkerBatch}
    {model : LlamaForCausalLM Hidden Query KeyValue Attention Logits} {argmax : Logits → TokenId}
    {multinomial : Logits → ℚ → TokenId} {supportsCudagraph : Bool}
    (hrunner : runner = ofConfig config model argmax multinomial supportsCudagraph)
    (hbatch : GPUInputBatch.fromWorkerBatch batch config.blockSize = .ok input)
    (huniform : input.descriptor.uniformDecode = true) (hsize : captureSize ≤ runner.maxNumSeqs)
    (hcount : input.numRequests ≤ captureSize) (htable : input.tableWidth = .ok width)
    (hwidth : width ≤ runner.maxBlocks) :
    ∃ inputs, StaticSpec runner captureSize input inputs ∧
      (input.RowsFitInt32 → ∀ graph, runner.Shaped captureSize graph → ∃ graph',
        (runner.copyDecodeBatch input).run graph = .ok () graph' ∧
          runner.Shaped captureSize graph' ∧ graph'.staticInputs = inputs) ∧
      (runner.physicalCacheSlots + captureSize ≤ 2 ^ 31 → ScratchSpec runner input inputs ∧
        ∀ τs m, Run (CallStep config.blockSize) (KVCacheManager.init config.numGpuBlocks) τs m →
          ∀ id t p, m.tables.get? id = some t → Paging.Covers config.blockSize t (p + 1) →
            (Paging.slot config.blockSize t p : ℤ) ∉
              inputs.slotMapping.drop input.numRequests) := by
  obtain ⟨hpos, hne, hvalid, rfl⟩ := GPUInputBatch.of_fromWorkerBatch hbatch
  have hdecode := GPUInputBatch.decodeBatch_ofItems hpos hne hvalid huniform
  obtain rfl : width = GPUInputBatch.widthOf config.blockSize batch.items :=
    Except.ok.inj (htable.symm.trans (GPUInputBatch.tableWidth_ofItems hne hvalid))
  have hblock : runner.blockSize = config.blockSize := by rw [hrunner, ofConfig]
  have hphysical : runner.physicalCacheSlots = config.numGpuBlocks * config.blockSize := by
    rw [hrunner, ofConfig]
  rw [← hblock] at hdecode hwidth
  rw [GPUInputBatch.numRequests_ofItems] at hcount
  have hspec := staticSpec_staticInputsOf hdecode hcount hwidth
  rw [hblock] at hspec
  refine ⟨_, hspec, ?_, ?_⟩
  · intro hfits graph hgraph
    rw [← hblock] at hfits
    have hrun := run_copyDecodeBatch hgraph hdecode hcount hwidth hfits
    have hkept := copyDecodeBatch_leaves (GPUInputBatch.ofItems runner.blockSize batch) hgraph
    rw [EStateM.Leaves, EStateM.final_of_ok hrun] at hkept
    rw [← hblock]
    exact ⟨_, hrun, hkept, staticInputs_loaded hdecode graph⟩
  · intro hfits
    have hscratch := scratchSpec_staticInputsOf hdecode hsize hfits
    rw [hblock] at hscratch
    refine ⟨hscratch, ?_⟩
    intro τs m hrun id t p ht hp hmem
    have howned : m.Owned config.numGpuBlocks :=
      hrun.invariant (owned_init _) (fun _ _ _ _ hs hstep => hs.call_step hstep)
    have hlt := (howned.represents hpos).slot_lt id t p ht hp
    have hle := (hscratch.scratch _ hmem).1
    omega

/-- One request at position 2, with blocks of two tokens. -/
def singleDecode : WorkerBatch where
  batchId := 1
  items := [⟨"a", [13], 2, [6], [4, 3], 3, 1, true, 0⟩]

def idleRunner : LlamaModelRunner Unit Unit Unit Unit Unit :=
  ofConfig EngineCore.smallConfig ⟨fun _ => (), [], fun _ => ()⟩ (fun _ => 0) (fun _ _ => 0) true

theorem copyDecodeBatch_static_single :
    ∃ input inputs, GPUInputBatch.fromWorkerBatch singleDecode 2 = .ok input ∧
      StaticSpec idleRunner 4 input inputs ∧ ScratchSpec idleRunner input inputs ∧
      ∀ graph, idleRunner.Shaped 4 graph → ∃ graph',
        (idleRunner.copyDecodeBatch input).run graph = .ok () graph' ∧
          idleRunner.Shaped 4 graph' ∧ graph'.staticInputs = inputs := by
  have hbatch : GPUInputBatch.fromWorkerBatch singleDecode EngineCore.smallConfig.blockSize =
    .ok (GPUInputBatch.ofItems 2 singleDecode) := rfl
  have hsize : 4 ≤ idleRunner.maxNumSeqs := by decide
  have hfits : (GPUInputBatch.ofItems 2 singleDecode).RowsFitInt32 :=
    ⟨by decide, by decide, by decide, by simp only [int32_iff]; decide⟩
  obtain ⟨inputs, hspec, hcopy, hscratch⟩ :=
    copyDecodeBatch_static rfl hbatch rfl hsize (by decide) rfl (by decide)
  exact ⟨_, inputs, rfl, hspec, (hscratch (by decide)).1, hcopy hfits⟩

/-! ## Padding slots that wrap -/

def wideDecode : WorkerBatch where
  batchId := 1
  items := [⟨"a", [13], 1, [1], [0], 2, 1, true, 0⟩]

def wideRunner : LlamaModelRunner Unit Unit Unit Unit Unit :=
  ofConfig wideConfig ⟨fun _ => (), [], fun _ => ()⟩ (fun _ => 0) (fun _ _ => 0) true

/-- The padding row of a second request takes the slot `2 ^ 32 + 1`, which 32 bits hold as the
slot 1 that the first request owns. -/
theorem copyDecodeBatch_static_wraps :
    ∃ input graph graph', GPUInputBatch.fromWorkerBatch wideDecode wideConfig.blockSize =
        .ok input ∧ input.descriptor.uniformDecode = true ∧ input.numRequests = 1 ∧
      2 ≤ wideRunner.maxNumSeqs ∧ input.tableWidth = .ok 1 ∧ 1 ≤ wideRunner.maxBlocks ∧
      wideRunner.createGraphState (fun _ => 0) 2 = .ok graph ∧
      (wideRunner.copyDecodeBatch input).run graph = .ok () graph' ∧
      graph'.staticInputs.slotMapping = [1, 1] ∧
      ∃ τs m t, Run (CallStep wideConfig.blockSize) (KVCacheManager.init wideConfig.numGpuBlocks)
          τs m ∧ m.tables.get? "a" = some t ∧ Paging.Covers wideConfig.blockSize t 2 ∧
        Paging.slot wideConfig.blockSize t 1 = 1 := by
  have hsize : (2 : ℕ) ≤ wideRunner.maxNumSeqs := by decide
  obtain ⟨graph, hgraph, hshaped, _⟩ := wideRunner.createGraphState_eq (fun _ => 0) hsize
  have hbatch : GPUInputBatch.fromWorkerBatch wideDecode wideConfig.blockSize =
    .ok (GPUInputBatch.ofItems wideConfig.blockSize wideDecode) := rfl
  obtain ⟨hpos, hne, hvalid, _⟩ := GPUInputBatch.of_fromWorkerBatch hbatch
  have hdecode := GPUInputBatch.decodeBatch_ofItems hpos hne hvalid rfl
  have hfits : (GPUInputBatch.ofItems wideConfig.blockSize wideDecode).RowsFitInt32 :=
    ⟨by decide, by decide, by decide, by simp only [int32_iff]; decide⟩
  have hrun := run_copyDecodeBatch hshaped hdecode (by decide) (by decide) hfits
  have hstep : ∀ (m : KVCacheManager) (call : KVCacheManager.Call),
      CallStep wideConfig.blockSize m call []
        ((call.execute wideConfig.blockSize).final m) := fun _ _ => ⟨rfl, rfl⟩
  have hcalls : Run (CallStep wideConfig.blockSize) (KVCacheManager.init wideConfig.numGpuBlocks)
    _ _ := .snoc (.snoc .nil (hstep _ (.create "a"))) (hstep _ (.reserve "a" 2))
  refine ⟨_, graph, _, hbatch, rfl, rfl, hsize, rfl, by decide, hgraph, hrun, ?_, _, _, [0], hcalls,
    ?_, ?_, ?_⟩
  · rw [staticInputs_loaded hdecode]
    decide +kernel
  · decide +kernel
  · unfold Paging.Covers
    decide
  · decide

end LlamaModelRunner

end MiniVLLM
