import MiniVLLM.Verification.Engine.Steps
import MiniVLLM.Verification.Worker.Decode

/-! # Graph execution against eager execution

A replayed graph computes what the eager model computes. The first hit of a capture size
records the model without running it, so it samples from a buffer nobody filled. -/

namespace MiniVLLM

open KVCacheManager

variable {Hidden Query KeyValue Attention Logits : Type}

namespace LlamaModelRunner

variable {runner : LlamaModelRunner Hidden Query KeyValue Attention Logits}

/-! ## Eager and static metadata -/

section Metadata

variable {n width captureSize : ℕ} {batch : GPUInputBatch} {graph : LlamaCUDAGraphState Logits}

theorem requestIndicesOf_range (n : ℕ) :
    AttentionMetadata.requestIndicesOf (List.range (n + 1)) n = List.range n := by
  have hone : ∀ request ∈ List.range n,
      List.replicate ((List.range (n + 1)).getD (request + 1) 0 -
        (List.range (n + 1)).getD request 0) request = [request] := by
    intro request hrequest
    have hlt := List.mem_range.mp hrequest
    rw [LlamaDecoderLayer.getD_range (Nat.succ_lt_succ hlt),
      LlamaDecoderLayer.getD_range (Nat.lt_succ_of_lt hlt)]
    simp
  rw [AttentionMetadata.requestIndicesOf, List.flatMap_congr hone]
  simp

/-- What the metadata of an eager decode batch is, and what it takes to have any. -/
theorem of_metadata (hbatch : DecodeBatch runner.blockSize n width batch)
    (hpos : 0 < runner.maxBlocks) {metadata : AttentionMetadata}
    (h : runner.metadata batch = .ok metadata) :
    width ≤ runner.maxBlocks ∧ batch.FitsInt32 ∧ metadata =
      { positions := batch.positions
        slotMapping := batch.slotMapping.map Nat.cast
        queryStartLoc := batch.queryStartLoc
        seqLens := batch.seqLens
        blockTables := batch.blockTables.map fun table =>
          table ++ List.replicate (runner.maxBlocks - table.length) (-1)
        requestIndices := List.range n
        isDecode := batch.isDecode
        activeMask := List.replicate n true
        blockSize := runner.blockSize } := by
  have htable : batch.tableWidth = .ok width := by
    refine GPUInputBatch.tableWidth_of_forall ?_ hbatch.tables
    exact List.ne_nil_of_length_pos (hbatch.blockTables ▸ hbatch.pos)
  have htokens : batch.numTokens = n := hbatch.inputIds
  have hpadded : AttentionMetadata.paddedWidth (some runner.maxBlocks) width = runner.maxBlocks :=
    if_neg hpos.ne'
  obtain ⟨width', hwidth', hle, hfits, hmetadata⟩ := AttentionMetadata.fromBatch_eq_ok_iff.mp h
  obtain rfl := Except.ok.inj (htable.symm.trans hwidth')
  rw [hpadded] at hle hmetadata
  refine ⟨hle, hfits, hmetadata.trans ?_⟩
  rw [hbatch.numRequests, hbatch.queryStartLoc, requestIndicesOf_range, htokens]

/-- The static tensors hold the eager metadata and padding rows after it. -/
theorem loaded_padded (hgraph : runner.Shaped captureSize graph)
    (hbatch : DecodeBatch runner.blockSize n width batch) (hsize : n ≤ captureSize)
    (hpos : 0 < runner.maxBlocks) {metadata : AttentionMetadata}
    (hmetadata : runner.metadata batch = .ok metadata) :
    PaddedRows n (captureSize - n) metadata
      (runner.loaded captureSize n width batch graph).metadata := by
  obtain ⟨hwidth, _, rfl⟩ := of_metadata hbatch hpos hmetadata
  have htotal : n + (captureSize - n) = captureSize := Nat.add_sub_cancel' hsize
  refine ⟨⟨hbatch.queryStartLoc, rfl, hbatch.isDecode, hbatch.seqLens⟩, ⟨?_, ?_, ?_, ?_⟩, rfl, rfl,
    (List.length_map _).trans hbatch.slotMapping, ⟨_, rfl⟩, hgraph.blockSize, ?_, ?_⟩
  · rw [htotal]
    exact hgraph.queryStartLoc
  · rw [htotal]
    exact hgraph.requestIndices
  · rw [htotal]
    exact hgraph.isDecode
  · simp [loaded, hbatch.seqLens]
  · intro row hrow
    simp only [loaded, List.getD_eq_getElem?_getD]
    rw [List.getElem?_append_left (hbatch.seqLens.symm ▸ hrow)]
  · intro row hrow token htoken
    have hlt : row < batch.blockTables.length := hbatch.blockTables.symm ▸ hrow
    have hrowLen : row < batch.seqLens.length := hbatch.seqLens.symm ▸ hrow
    have hlen := hbatch.tables _ (List.getElem_mem hlt)
    have hcovered := hbatch.covered _ (List.getElem_mem hrowLen)
    have hblock : token / runner.blockSize < batch.blockTables[row].length := by
      rw [hlen]
      refine Nat.div_lt_of_lt_mul ?_
      rw [List.getD_eq_getElem?_getD, List.getElem?_eq_getElem hrowLen, Option.getD_some] at htoken
      rw [Nat.mul_comm]
      exact htoken.trans_le hcovered
    simp only [loaded, List.getD_eq_getElem?_getD]
    rw [List.getElem?_append_left (by simpa using hlt), List.getElem?_map, List.getElem?_map,
      List.getElem?_eq_getElem hlt]
    simp only [Option.map_some, Option.getD_some]
    rw [List.getElem?_append_left hblock, List.getElem?_append_left hblock]

end Metadata

/-! ## One call -/

/-- The graph of this size was captured by an earlier call. -/
def Captured (state : RunnerState KeyValue Logits) (captureSize : ℕ) : Prop :=
  ∃ graph, state.graphStates.get? captureSize = some graph ∧ graph.captured = true

def Ready (runner : LlamaModelRunner Hidden Query KeyValue Attention Logits)
    (state : RunnerState KeyValue Logits) : Prop :=
  ∀ captureSize graph, state.graphStates.get? captureSize = some graph →
    runner.Shaped captureSize graph

section Calls

variable {n width captureSize : ℕ} {batch : GPUInputBatch} {state : RunnerState KeyValue Logits}

theorem run_executeModel {metadata : AttentionMetadata}
    (hmetadata : runner.metadata batch = .ok metadata) :
    (runner.executeModel batch).run state =
      (EStateM.ofExcept (runner.sampleLogits
        (runner.model.forward batch.inputIds batch.positions metadata state.caches).1
        (sampleRows batch) .empty)).run
      { state with
        caches := (runner.model.forward batch.inputIds batch.positions metadata state.caches).2 } := by
  simp only [executeModel, hmetadata, EStateM.run_bind, EStateM.run_ofExcept_ok, EStateM.run_get,
    EStateM.run_set]

/-- Three warm-up runs leave the caches of one. -/
theorem captureGraph_caches (runner : LlamaModelRunner Hidden Query KeyValue Attention Logits)
    (buffer : ℕ → Logits) (graph : LlamaCUDAGraphState Logits)
    (caches : List (LayerCache KeyValue)) :
    (runner.captureGraph buffer graph caches).2 = (runner.forwardGraph graph caches).2 := by
  simp only [captureGraph, forwardGraph, runner.model.forward_idem]

theorem run_onGraphState {α : Type} {graph graph' : LlamaCUDAGraphState Logits} {a : α}
    {x : Py (LlamaCUDAGraphState Logits) α} (hget : state.graphStates.get? captureSize = some graph)
    (hx : x.run graph = .ok a graph') :
    (onGraphState captureSize x).run state =
      .ok a { state with graphStates := state.graphStates.set captureSize graph' } := by
  simp only [onGraphState, EStateM.run_bind, EStateM.run_get, hget, EStateM.run_getOrRaise_some, hx,
    EStateM.run_set, EStateM.run_pure]

/-- The static tensors of a size exist already, or they are created with their shape. -/
theorem ensureGraphState_eq (hready : runner.Ready state)
    (hcapture : captureSize ≤ runner.maxNumSeqs) (emptySlots : ℕ → ℤ) :
    ∃ graph, runner.Shaped captureSize graph ∧
      (graph.captured = true ↔ Captured state captureSize) ∧
      ∃ state', state'.graphStates.get? captureSize = some graph ∧
        state'.caches = state.caches ∧
        (do if (state.graphStates.get? captureSize).isSome then pure state
            else
              let graph ← runner.createGraphState emptySlots captureSize
              pure { state with graphStates := state.graphStates.set captureSize graph } :
          Except PyError (RunnerState KeyValue Logits)) = .ok state' := by
  cases hget : state.graphStates.get? captureSize with
  | some graph =>
      refine ⟨graph, hready _ _ hget, ?_, state, hget, rfl, by simp [pure, Except.pure]⟩
      constructor
      · exact fun hcaptured => ⟨graph, hget, hcaptured⟩
      · rintro ⟨graph', hget', hcaptured⟩
        obtain rfl := Option.some.inj (hget.symm.trans hget')
        exact hcaptured
  | none =>
      obtain ⟨graph, hcreate, hshaped, hfresh⟩ :=
        runner.createGraphState_eq emptySlots hcapture
      refine ⟨graph, hshaped, ?_,
        { state with graphStates := state.graphStates.set captureSize graph },
        Dict.get?_set_self _ _ _, rfl, ?_⟩
      · constructor
        · intro hcaptured
          rw [hfresh] at hcaptured
          cases hcaptured
        · rintro ⟨graph', hget', _⟩
          rw [hget] at hget'
          cases hget'
      · simp [hcreate, Except.ok_bind, Except.pure_eq_ok]

/-- A graph call on a decode batch that fits: the model runs on the loaded tensors, but the
logits are those of the run only where the graph was captured before. -/
theorem run_executeCudagraph (hsupports : runner.supportsCudagraph = true)
    (hready : runner.Ready state) (hbatch : DecodeBatch runner.blockSize n width batch)
    (hsize : n ≤ captureSize) (hcapture : captureSize ≤ runner.maxNumSeqs)
    (hwidth : width ≤ runner.maxBlocks) (hfits : batch.RowsFitInt32) (emptySlots : ℕ → ℤ)
    (buffer : ℕ → Logits) :
    ∃ graph final, runner.Shaped captureSize graph ∧
      (graph.captured = true ↔ Captured state captureSize) ∧
      final.caches = (runner.forwardGraph (runner.loaded captureSize n width batch graph)
        state.caches).2 ∧
      (runner.executeCudagraph emptySlots buffer batch captureSize).run state =
        (EStateM.ofExcept (runner.sampleLogits
          (if graph.captured = true then
            (runner.forwardGraph (runner.loaded captureSize n width batch graph) state.caches).1
          else (List.range captureSize).map buffer) (sampleRows batch) .empty)).run final := by
  obtain ⟨graph, hshaped, hcaptured, state', hget, hcaches, hensure⟩ :=
    ensureGraphState_eq hready hcapture emptySlots
  have hcopy := run_onGraphState hget (run_copyDecodeBatch hshaped hbatch hsize hwidth hfits)
  have hloaded : (runner.loaded captureSize n width batch graph).captured = graph.captured := rfl
  have hrows : (runner.loaded captureSize n width batch graph).inputIds.length = captureSize := by
    simp [loaded, hbatch.inputIds, Nat.add_sub_cancel' hsize]
  rw [executeCudagraph, hsupports, if_neg (by simp),
    EStateM.run_bind_of_ok (EStateM.run_update_of_ok hensure), EStateM.run_bind_of_ok hcopy]
  simp only [EStateM.run_bind, EStateM.run_get, Dict.get?_set_self, EStateM.run_getOrRaise_some,
    hloaded, hcaches]
  generalize hgraph : runner.loaded captureSize n width batch graph = inputs at hloaded hrows ⊢
  cases hg : graph.captured with
  | true =>
      refine ⟨graph, ⟨(runner.replayGraph inputs state.caches).2,
        (state'.graphStates.set captureSize inputs).set captureSize
          (runner.replayGraph inputs state.caches).1⟩, hshaped, hcaptured, ?_, ?_⟩
      · rw [hgraph]
        rfl
      · rw [hgraph, hg]
        rfl
  | false =>
      refine ⟨graph, ⟨(runner.captureGraph buffer inputs state.caches).2,
        (state'.graphStates.set captureSize inputs).set captureSize
          (runner.captureGraph buffer inputs state.caches).1⟩, hshaped, hcaptured, ?_, ?_⟩
      · rw [hgraph]
        exact runner.captureGraph_caches buffer inputs state.caches
      · rw [hg, ← hrows]
        rfl

end Calls

/-! ## Sampling -/

section Sampling

def sampleAll (token : TokenId) (rows : List (RequestId × ℤ × ℚ))
    (sampled : Dict RequestId TokenId) : Dict RequestId TokenId :=
  rows.foldl (fun sampled row => if row.2.1 < 0 then sampled else sampled.set row.1 token) sampled

variable {logits : List Logits} {rows : List (RequestId × ℤ × ℚ)}
  {sampled : Dict RequestId TokenId} {token : TokenId}

/-- Sampling reads no logits beyond the largest sample index. -/
theorem sampleLogits_append (rest : List Logits) (h : ∀ row ∈ rows, row.2.1 < logits.length) :
    runner.sampleLogits (logits ++ rest) rows sampled = runner.sampleLogits logits rows sampled := by
  induction rows generalizing sampled with
  | nil => rfl
  | cons row rows ih =>
      obtain ⟨requestId, sampleIndex, temperature⟩ := row
      have hlt : sampleIndex < logits.length := h (requestId, sampleIndex, temperature) (by simp)
      have hrest : ∀ row ∈ rows, row.2.1 < logits.length :=
        fun row hrow => h row (List.mem_cons_of_mem _ hrow)
      by_cases hneg : sampleIndex < 0
      · rw [sampleLogits, sampleLogits, if_pos hneg, if_pos hneg, ih hrest]
      · have hindex : sampleIndex.toNat < logits.length := by omega
        rw [sampleLogits, sampleLogits, if_neg hneg, if_neg hneg,
          List.getElem?_append_left hindex, List.getElem?_eq_getElem hindex]
        exact ih hrest

theorem sampleLogits_const (hindex : ∀ row ∈ rows, row.2.1 < logits.length)
    (hgreedy : ∀ row ∈ rows, row.2.2 = 0) (htoken : ∀ l ∈ logits, runner.argmax l = token) :
    runner.sampleLogits logits rows sampled = .ok (sampleAll token rows sampled) := by
  induction rows generalizing sampled with
  | nil => rfl
  | cons row rows ih =>
      obtain ⟨requestId, sampleIndex, temperature⟩ := row
      have hlt : sampleIndex < logits.length :=
        hindex (requestId, sampleIndex, temperature) (by simp)
      obtain rfl : temperature = 0 := hgreedy (requestId, sampleIndex, temperature) (by simp)
      have hrest : ∀ sampled, runner.sampleLogits logits rows sampled =
          .ok (sampleAll token rows sampled) := fun _ =>
        ih (fun row hrow => hindex row (List.mem_cons_of_mem _ hrow))
          (fun row hrow => hgreedy row (List.mem_cons_of_mem _ hrow))
      by_cases hneg : sampleIndex < 0
      · rw [sampleLogits, if_pos hneg, hrest]
        simp only [sampleAll, List.foldl_cons, hneg, if_true]
      · have hlen : sampleIndex.toNat < logits.length := by omega
        rw [sampleLogits, if_neg hneg, List.getElem?_eq_getElem hlen]
        simp only [if_true, htoken _ (List.getElem_mem hlen), hrest, sampleAll, List.foldl_cons,
          hneg, if_false]

theorem sampleAll_of_sampleLogits {result : Dict RequestId TokenId}
    (hgreedy : ∀ row ∈ rows, row.2.2 = 0) (htoken : ∀ l, runner.argmax l = token)
    (h : runner.sampleLogits logits rows sampled = .ok result) :
    result = sampleAll token rows sampled := by
  induction rows generalizing sampled with
  | nil => exact (Except.ok.inj h).symm
  | cons row rows ih =>
      obtain ⟨requestId, sampleIndex, temperature⟩ := row
      obtain rfl : temperature = 0 := hgreedy (requestId, sampleIndex, temperature) (by simp)
      have hrest : ∀ row ∈ rows, row.2.2 = 0 := fun row hrow =>
        hgreedy row (List.mem_cons_of_mem _ hrow)
      by_cases hneg : sampleIndex < 0
      · rw [sampleLogits, if_pos hneg] at h
        simp only [sampleAll, List.foldl_cons, hneg, if_true]
        exact ih hrest h
      · rw [sampleLogits, if_neg hneg] at h
        cases hl : logits[sampleIndex.toNat]? with
        | none => rw [hl] at h; cases h
        | some l =>
            rw [hl] at h
            simp only [if_true, htoken l] at h
            simp only [sampleAll, List.foldl_cons, hneg, if_false]
            exact ih hrest h

theorem sampleLogits_of_none (logits : List Logits) (h : ∀ row ∈ rows, row.2.1 < 0) :
    runner.sampleLogits logits rows sampled = .ok sampled := by
  induction rows with
  | nil => rfl
  | cons row rows ih =>
      obtain ⟨requestId, sampleIndex, temperature⟩ := row
      rw [sampleLogits, if_pos (h (requestId, sampleIndex, temperature) (by simp))]
      exact ih (fun row hrow => h row (List.mem_cons_of_mem _ hrow))

theorem sampleAll_get? {requestId : RequestId}
    (h : sampled.get? requestId = some token ∨ ∃ row ∈ rows, row.1 = requestId ∧ 0 ≤ row.2.1) :
    (sampleAll token rows sampled).get? requestId = some token := by
  induction rows generalizing sampled with
  | nil =>
      rcases h with h | ⟨row, hrow, _⟩
      · exact h
      · simp at hrow
  | cons first rows ih =>
      rw [sampleAll, List.foldl_cons]
      refine ih ?_
      rcases h with h | ⟨row, hrow, hid, hsample⟩
      · left
        split
        · exact h
        · rw [Dict.get?_set]
          split <;> simp_all
      · rcases List.mem_cons.mp hrow with rfl | hrow
        · left
          rw [if_neg (by omega), hid, Dict.get?_set_self]
        · exact Or.inr ⟨row, hrow, hid, hsample⟩

end Sampling

/-! ## Histories -/

/-- One call of the runner. A graph call meets its own contents of uninitialised memory. -/
inductive Call (Logits : Type) where
  | eager (batch : GPUInputBatch)
  | graph (emptySlots : ℕ → ℤ) (buffer : ℕ → Logits) (batch : GPUInputBatch) (captureSize : ℕ)

def call (runner : LlamaModelRunner Hidden Query KeyValue Attention Logits) :
    Call Logits → Py (RunnerState KeyValue Logits) (Dict RequestId TokenId)
  | .eager batch => runner.executeModel batch
  | .graph emptySlots buffer batch captureSize =>
      runner.executeCudagraph emptySlots buffer batch captureSize

def after (runner : LlamaModelRunner Hidden Query KeyValue Attention Logits)
    (calls : List (Call Logits)) (state : RunnerState KeyValue Logits) :
    RunnerState KeyValue Logits :=
  calls.foldl (fun state c => (runner.call c).final state) state

section Histories

variable {state : RunnerState KeyValue Logits} {captureSize : ℕ}

theorem Ready.set (hready : runner.Ready state) {graph : LlamaCUDAGraphState Logits}
    (hgraph : runner.Shaped captureSize graph) (caches : List (LayerCache KeyValue)) :
    runner.Ready ⟨caches, state.graphStates.set captureSize graph⟩ := by
  intro size graph' hget
  rw [Dict.get?_set] at hget
  split at hget
  · rename_i hsize
    obtain rfl := Option.some.inj hget
    exact hsize ▸ hgraph
  · exact hready size graph' hget

theorem executeModel_leaves (batch : GPUInputBatch) (hready : runner.Ready state) :
    EStateM.Leaves runner.Ready (runner.executeModel batch) state := by
  refine EStateM.Leaves.bind (EStateM.leaves_ofExcept _ hready) (fun metadata _ _ hready => ?_)
  refine EStateM.Leaves.bind (EStateM.leaves_get hready) (fun state _ hget hready => ?_)
  obtain ⟨rfl, rfl⟩ := EStateM.Result.ok.inj hget
  refine EStateM.Leaves.bind (EStateM.leaves_set ?_) (fun _ _ _ hready => ?_)
  · exact hready
  · exact EStateM.leaves_ofExcept _ hready

theorem onGraphState_leaves {α : Type} {x : Py (LlamaCUDAGraphState Logits) α}
    (hready : runner.Ready state)
    (hx : ∀ graph, runner.Shaped captureSize graph →
      EStateM.Leaves (runner.Shaped captureSize) x graph) :
    EStateM.Leaves runner.Ready (onGraphState captureSize x) state := by
  refine EStateM.Leaves.bind (EStateM.leaves_get hready) (fun state _ hget hready => ?_)
  obtain ⟨rfl, rfl⟩ := EStateM.Result.ok.inj hget
  refine EStateM.Leaves.bind (EStateM.leaves_getOrRaise _ _ hready) (fun graph _ hrun hready => ?_)
  obtain ⟨hgraph, rfl⟩ := EStateM.of_run_getOrRaise hrun
  have hleaves := hx graph (hready _ _ hgraph)
  cases hresult : x.run graph with
  | ok a graph' =>
      rw [EStateM.Leaves, EStateM.final_of_ok hresult] at hleaves
      exact .bind (EStateM.leaves_set (hready.set hleaves _)) (fun _ _ _ h => EStateM.leaves_pure _ h)
  | error e graph' =>
      rw [EStateM.Leaves, EStateM.final_of_error hresult] at hleaves
      exact .bind (EStateM.leaves_set (hready.set hleaves _)) (fun _ _ _ h => EStateM.leaves_throw _ h)

theorem executeCudagraph_leaves (emptySlots : ℕ → ℤ) (buffer : ℕ → Logits) (batch : GPUInputBatch)
    (hready : runner.Ready state) :
    EStateM.Leaves runner.Ready
      (runner.executeCudagraph emptySlots buffer batch captureSize) state := by
  unfold executeCudagraph
  split
  · exact executeModel_leaves batch hready
  · refine EStateM.Leaves.bind (EStateM.leaves_update hready (fun next h => ?_))
      (fun _ state _ hready => ?_)
    · split at h
      · obtain rfl := Except.ok.inj h
        exact hready
      · cases hcreate : runner.createGraphState emptySlots captureSize with
        | error e => simp [hcreate, bind, Except.bind] at h
        | ok graph =>
            rw [hcreate] at h
            obtain rfl := Except.ok.inj h
            exact hready.set (shaped_of_createGraphState hcreate) _
    refine EStateM.Leaves.bind (onGraphState_leaves hready
      (fun graph hgraph => copyDecodeBatch_leaves batch hgraph)) (fun _ _ _ hready => ?_)
    refine EStateM.Leaves.bind (EStateM.leaves_get hready) (fun state _ hget hready => ?_)
    obtain ⟨rfl, rfl⟩ := EStateM.Result.ok.inj hget
    refine EStateM.Leaves.bind (EStateM.leaves_getOrRaise _ _ hready)
      (fun graph _ hrun hready => ?_)
    obtain ⟨hgraph, rfl⟩ := EStateM.of_run_getOrRaise hrun
    have hshaped := hready _ _ hgraph
    have hnext : ∀ caches, runner.Shaped captureSize (if graph.captured = false then
        runner.captureGraph buffer graph caches else runner.replayGraph graph caches).1 := by
      intro caches
      split
      · exact { hshaped with }
      · exact { hshaped with }
    refine EStateM.Leaves.bind (EStateM.leaves_set (hready.set (hnext _) _)) (fun _ _ _ hready => ?_)
    exact EStateM.Leaves.bind (EStateM.leaves_getOrRaise _ _ hready)
      (fun _ _ _ hready => EStateM.leaves_ofExcept _ hready)

theorem ready_after (runner : LlamaModelRunner Hidden Query KeyValue Attention Logits)
    (calls : List (Call Logits)) (caches : List (LayerCache KeyValue)) :
    runner.Ready (runner.after calls ⟨caches, .empty⟩) := by
  refine List.foldlRecOn calls _ (fun _ _ hget => by simp at hget) (fun state hready c _ => ?_)
  cases c with
  | eager batch => exact executeModel_leaves batch hready
  | graph emptySlots buffer batch captureSize =>
      exact executeCudagraph_leaves emptySlots buffer batch hready

end Histories

/-! ## Agreement -/

section Agreement

variable {n width captureSize : ℕ} {batch : GPUInputBatch} {state eager : RunnerState KeyValue Logits}
  {tokens : Dict RequestId TokenId}

/-- The caches have the same contents in every slot below `slots`. -/
def SameSlots (slots : ℕ) (caches caches' : List (LayerCache KeyValue)) : Prop :=
  List.Forall₂ (fun cache cache' => ∀ slot < slots, cache slot = cache' slot) caches caches'

/-- Whatever uninitialised memory contains, graph execution returns the tokens and leaves the
caches of the eager execution. -/
def Agrees (runner : LlamaModelRunner Hidden Query KeyValue Attention Logits)
    (state : RunnerState KeyValue Logits) (batch : GPUInputBatch) (captureSize : ℕ)
    (tokens : Dict RequestId TokenId) (eager : RunnerState KeyValue Logits) : Prop :=
  ∀ (emptySlots : ℕ → ℤ) (buffer : ℕ → Logits), ∃ graph : RunnerState KeyValue Logits,
    (runner.executeCudagraph emptySlots buffer batch captureSize).run state = .ok tokens graph ∧
      SameSlots runner.physicalCacheSlots eager.caches graph.caches

theorem sameSlots_refl (slots : ℕ) (caches : List (LayerCache KeyValue)) :
    SameSlots slots caches caches :=
  List.forall₂_same.mpr fun _ _ _ _ => rfl

theorem of_run_ofExcept {x : Except PyError (Dict RequestId TokenId)}
    (h : (EStateM.ofExcept x).run state = .ok tokens eager) : x = .ok tokens ∧ state = eager := by
  cases x with
  | error e => cases h
  | ok a =>
      obtain ⟨rfl, rfl⟩ := EStateM.Result.ok.inj h
      exact ⟨rfl, rfl⟩

/-- The eager execution of a decode batch, in parts. -/
theorem of_executeModel (h : (runner.executeModel batch).run state = .ok tokens eager) :
    ∃ metadata, runner.metadata batch = .ok metadata ∧
      runner.sampleLogits
        (runner.model.forward batch.inputIds batch.positions metadata state.caches).1
        (sampleRows batch) .empty = .ok tokens ∧
      eager.caches =
        (runner.model.forward batch.inputIds batch.positions metadata state.caches).2 := by
  cases hmetadata : runner.metadata batch with
  | error e =>
      rw [executeModel, hmetadata] at h
      cases h
  | ok metadata =>
      rw [run_executeModel hmetadata] at h
      obtain ⟨hsample, rfl⟩ := of_run_ofExcept h
      exact ⟨metadata, rfl, hsample, rfl⟩

theorem mem_sampleRows {row : RequestId × ℤ × ℚ} (h : row ∈ sampleRows batch) :
    row.2.1 ∈ batch.sampleIndices ∧ row.2.2 ∈ batch.temperatures :=
  ⟨(List.of_mem_zip (List.of_mem_zip h).2).1, (List.of_mem_zip (List.of_mem_zip h).2).2⟩

theorem exists_sampleRow {blockSize : ℕ} (hbatch : DecodeBatch blockSize n width batch)
    {sampleIndex : ℤ} (h : sampleIndex ∈ batch.sampleIndices) :
    ∃ row ∈ sampleRows batch, row.2.1 = sampleIndex := by
  obtain ⟨row, hrow, rfl⟩ := List.mem_iff_getElem.mp h
  have hids : row < batch.requestIds.length := by
    rw [show batch.requestIds.length = n from hbatch.numRequests, ← hbatch.sampleIndices]
    exact hrow
  have htemps : row < batch.temperatures.length := by
    rw [hbatch.temperatures, ← hbatch.sampleIndices]
    exact hrow
  refine ⟨(batch.requestIds[row], batch.sampleIndices[row], batch.temperatures[row]), ?_, rfl⟩
  rw [sampleRows]
  refine List.mem_iff_getElem.mpr ⟨row, by simp [hrow, hids, htemps], by simp⟩

/-- The graph execution of a greedy decode batch against the eager one: the caches are the
same, and the logits are those of the eager run only where the graph was captured before. -/
theorem run_against_eager (hsupports : runner.supportsCudagraph = true)
    (hready : runner.Ready state) (hbatch : DecodeBatch runner.blockSize n width batch)
    (hsize : n ≤ captureSize) (hcapture : captureSize ≤ runner.maxNumSeqs)
    (hpos : 0 < runner.maxBlocks)
    (heager : (runner.executeModel batch).run state = .ok tokens eager) (emptySlots : ℕ → ℤ)
    (buffer : ℕ → Logits) :
    ∃ final : RunnerState KeyValue Logits, final.caches = eager.caches ∧
      (Captured state captureSize →
        (runner.executeCudagraph emptySlots buffer batch captureSize).run state =
          .ok tokens final) ∧
      (¬ Captured state captureSize →
        (runner.executeCudagraph emptySlots buffer batch captureSize).run state =
          (EStateM.ofExcept (runner.sampleLogits ((List.range captureSize).map buffer)
            (sampleRows batch) .empty)).run final) := by
  obtain ⟨metadata, hmetadata, hsample, hcaches⟩ := of_executeModel heager
  obtain ⟨hwidth, hfits, _⟩ := of_metadata hbatch hpos hmetadata
  obtain ⟨graph, final, hshaped, hcaptured, hfinal, hrun⟩ := run_executeCudagraph hsupports hready
    hbatch hsize hcapture hwidth hfits.toRowsFitInt32 emptySlots buffer
  have hpadded := loaded_padded hshaped hbatch hsize hpos hmetadata
  obtain ⟨hlength, rest, hforward⟩ := runner.model.forward_padded hpadded hbatch.inputIds
    hbatch.positions (List.length_replicate (a := 0)) (List.length_replicate (a := 0)) state.caches
  have hgraph : runner.forwardGraph (runner.loaded captureSize n width batch graph) state.caches =
      ((runner.model.forward batch.inputIds batch.positions metadata state.caches).1 ++ rest,
        (runner.model.forward batch.inputIds batch.positions metadata state.caches).2) := hforward
  rw [hgraph] at hfinal hrun
  refine ⟨final, hfinal.trans hcaches.symm, fun h => ?_, fun h => ?_⟩
  · rw [hrun, if_pos (hcaptured.mpr h), sampleLogits_append rest, hsample]
    · rfl
    · intro row hrow
      rw [hlength]
      exact hbatch.samples _ (mem_sampleRows hrow).1
  · rw [hrun, if_neg (fun hg => h (hcaptured.mp hg))]

end Agreement

end LlamaModelRunner

open LlamaModelRunner

/-- After every history, graph execution agrees with eager execution if and only if the
capture size was captured before, or the batch samples nothing, or there is one token to
sample at all. -/
theorem graph_agrees_iff {config : EngineConfig}
    {model : LlamaForCausalLM Hidden Query KeyValue Attention Logits} {argmax : Logits → TokenId}
    {multinomial : Logits → ℚ → TokenId} {calls : List (Call Logits)}
    {caches : List (LayerCache KeyValue)} {items : WorkerBatch} {batch : GPUInputBatch}
    (hbatch : GPUInputBatch.fromWorkerBatch items config.blockSize = .ok batch)
    (hgreedy : ∀ temperature ∈ batch.temperatures, temperature = 0) {captureSize : ℕ}
    (hdispatch : ((CUDAGraphDispatcher.ofConfig config).dispatch batch.descriptor).captureSize =
      some captureSize)
    {tokens : Dict RequestId TokenId} {eager : RunnerState KeyValue Logits}
    (heager : ((ofConfig config model argmax multinomial true).executeModel batch).run
      ((ofConfig config model argmax multinomial true).after calls ⟨caches, .empty⟩) =
        .ok tokens eager) :
    (ofConfig config model argmax multinomial true).Agrees
        ((ofConfig config model argmax multinomial true).after calls ⟨caches, .empty⟩) batch
        captureSize tokens eager ↔
      (Captured ((ofConfig config model argmax multinomial true).after calls ⟨caches, .empty⟩)
          captureSize ∨
        (∀ sampleIndex ∈ batch.sampleIndices, sampleIndex < 0) ∨
        ∀ logits logits', argmax logits = argmax logits') := by
  have hready := ready_after (ofConfig config model argmax multinomial true) calls caches
  generalize (ofConfig config model argmax multinomial true).after calls ⟨caches, .empty⟩ = state
    at heager hready ⊢
  obtain ⟨huniform, _, hsize, hcapture⟩ := CUDAGraphDispatcher.of_dispatch hdispatch
  obtain ⟨hpos, hne, hvalid, rfl⟩ := GPUInputBatch.of_fromWorkerBatch hbatch
  have hdecode := GPUInputBatch.decodeBatch_ofItems hpos hne hvalid huniform
  have hmax : 0 < (ofConfig config model argmax multinomial true).maxBlocks :=
    requiredBlocks_pos config.blockSize_pos config.maxModelLen_pos
  have hcount : items.items.length ≤ captureSize := by
    exact (GPUInputBatch.numRequests_ofItems items).symm.le.trans hsize
  have hagainst := run_against_eager rfl hready hdecode hcount hcapture hmax heager
  have hgreedyRows : ∀ row ∈ sampleRows (GPUInputBatch.ofItems config.blockSize items),
      row.2.2 = 0 := fun row hrow => hgreedy _ (mem_sampleRows hrow).2
  have hfilled : ∀ (buffer : ℕ → Logits) (token : TokenId), (∀ row, argmax (buffer row) = token) →
      (ofConfig config model argmax multinomial true).sampleLogits
        ((List.range captureSize).map buffer)
        (sampleRows (GPUInputBatch.ofItems config.blockSize items)) .empty =
          .ok (sampleAll token (sampleRows (GPUInputBatch.ofItems config.blockSize items)) .empty) := by
    intro buffer token htoken
    refine sampleLogits_const (fun row hrow => ?_) hgreedyRows (fun l hl => ?_)
    · have hlt := hdecode.samples _ (mem_sampleRows hrow).1
      rw [List.length_map, List.length_range]
      omega
    · obtain ⟨row, _, rfl⟩ := List.mem_map.mp hl
      exact htoken row
  constructor
  · intro hagrees
    by_contra hno
    obtain ⟨hfresh, hsamples, hdiffer⟩ : ¬ Captured state captureSize ∧
        (∃ sampleIndex ∈ (GPUInputBatch.ofItems config.blockSize items).sampleIndices,
          0 ≤ sampleIndex) ∧ ∃ logits logits', argmax logits ≠ argmax logits' := by
      simpa only [not_or, not_forall, not_lt, exists_prop] using hno
    obtain ⟨sampleIndex, hmem, hsample⟩ := hsamples
    obtain ⟨row, hrow, rfl⟩ := exists_sampleRow hdecode hmem
    -- A buffer full of one row of logits decides what the first hit samples.
    have hsampled : ∀ logits, tokens.get? row.1 = some (argmax logits) := by
      intro logits
      obtain ⟨final, _, _, hrun⟩ := hagainst (fun _ => 0) (fun _ => logits)
      obtain ⟨graph, hgraph, _⟩ := hagrees (fun _ => 0) (fun _ => logits)
      have hok := hgraph.symm.trans (hrun hfresh)
      rw [hfilled _ (argmax logits) (fun _ => rfl)] at hok
      obtain ⟨rfl, _⟩ := EStateM.Result.ok.inj hok
      exact sampleAll_get? (Or.inr ⟨row, hrow, rfl, hsample⟩)
    obtain ⟨logits, logits', hne⟩ := hdiffer
    exact hne (Option.some.inj ((hsampled logits).symm.trans (hsampled logits')))
  · intro hcond emptySlots buffer
    obtain ⟨final, hcaches, hcaptured, hfresh⟩ := hagainst emptySlots buffer
    refine ⟨final, ?_, hcaches ▸ sameSlots_refl _ _⟩
    obtain ⟨metadata, _, hsample, _⟩ := of_executeModel heager
    by_cases hcapt : Captured state captureSize
    · exact hcaptured hcapt
    · rw [hfresh hcapt]
      rcases hcond with hcond | hnone | hconst
      · exact absurd hcond hcapt
      · have hrows : ∀ row ∈ sampleRows (GPUInputBatch.ofItems config.blockSize items),
            row.2.1 < 0 := fun row hrow => hnone _ (mem_sampleRows hrow).1
        rw [sampleLogits_of_none _ hrows] at hsample ⊢
        rw [← Except.ok.inj hsample]
        rfl
      · rw [hfilled buffer (argmax (buffer 0)) (fun row => hconst _ _),
          sampleAll_of_sampleLogits hgreedyRows (fun l => hconst l (buffer 0)) hsample]
        rfl

/-- One layer that adds up what it reads, over numbers. -/
def sumModel : LlamaForCausalLM ℕ ℕ ℕ ℕ ℕ where
  embedTokens := id
  layers := [⟨fun hidden position => (hidden, hidden + position),
    fun query context => query + context.sum, 0, fun hidden attention => hidden + attention⟩]
  lmHead := id

def graphConfig : EngineConfig := { EngineConfig.defaults with
  cudagraphMode := .fullDecodeOnly
  cudagraphCaptureSizes := [1, 2]
  captureSizes_ne_nil := by decide
  captureSizes_pos := by decide
  captureSizes_sorted := by decide }

def decodeItems : WorkerBatch where
  batchId := 2
  items :=
    [{ requestId := "a", tokenIds := [5], startPos := 1, slotMapping := [1], blockTable := [0]
       seqLen := 2, generatedCount := 1, shouldSample := true }]

def sumRunner : LlamaModelRunner ℕ ℕ ℕ ℕ ℕ :=
  .ofConfig graphConfig sumModel (fun logits => logits) (fun logits _ => logits) true

def sampledEntries : EStateM.Result PyError (RunnerState ℕ ℕ) (Dict RequestId TokenId) →
    List (RequestId × TokenId)
  | .ok tokens _ => tokens.entries
  | .error _ _ => []

/-- The first batch of a size samples what the recorded buffer happens to contain. -/
theorem not_agrees_first_hit : ∃ batch tokens eager,
    GPUInputBatch.fromWorkerBatch decodeItems graphConfig.blockSize = .ok batch ∧
      (∀ temperature ∈ batch.temperatures, temperature = 0) ∧
      ((CUDAGraphDispatcher.ofConfig graphConfig).dispatch batch.descriptor).captureSize = some 1 ∧
      (sumRunner.executeModel batch).run (sumRunner.after [] ⟨[fun _ => 0], .empty⟩) =
        .ok tokens eager ∧
      ¬ sumRunner.Agrees (sumRunner.after [] ⟨[fun _ => 0], .empty⟩) batch 1 tokens eager := by
  have hvalid : GPUInputBatch.fromWorkerBatch decodeItems graphConfig.blockSize =
      .ok (GPUInputBatch.ofItems graphConfig.blockSize decodeItems) := by decide
  have heager : sampledEntries ((sumRunner.executeModel
      (GPUInputBatch.ofItems graphConfig.blockSize decodeItems)).run
        (sumRunner.after [] ⟨[fun _ => 0], .empty⟩)) = [("a", 16)] := by decide +kernel
  have hgraph : sampledEntries ((sumRunner.executeCudagraph (fun _ => 0) (fun _ => 7)
      (GPUInputBatch.ofItems graphConfig.blockSize decodeItems) 1).run
        (sumRunner.after [] ⟨[fun _ => 0], .empty⟩)) = [("a", 7)] := by decide +kernel
  cases hrun : (sumRunner.executeModel (GPUInputBatch.ofItems graphConfig.blockSize decodeItems)).run
      (sumRunner.after [] ⟨[fun _ => 0], .empty⟩) with
  | error e eager => rw [hrun] at heager; cases heager
  | ok tokens eager =>
      refine ⟨_, tokens, eager, hvalid, by decide, by decide, hrun, fun hagrees => ?_⟩
      obtain ⟨graph, hsame, _⟩ := hagrees (fun _ => 0) (fun _ => 7)
      rw [hrun] at heager
      rw [hsame] at hgraph
      exact absurd (heager.symm.trans hgraph) (by decide)

def nextItems : WorkerBatch where
  batchId := 3
  items :=
    [{ requestId := "a", tokenIds := [16], startPos := 2, slotMapping := [2], blockTable := [0]
       seqLen := 3, generatedCount := 2, shouldSample := true }]

def capturedState : RunnerState ℕ ℕ :=
  sumRunner.after [.graph (fun _ => 0) (fun _ => 7)
    (GPUInputBatch.ofItems graphConfig.blockSize decodeItems) 1] ⟨[fun _ => 0], .empty⟩

/-- The second batch of the size agrees. -/
theorem graph_agrees_iff_second_hit : ∃ batch tokens eager,
    GPUInputBatch.fromWorkerBatch nextItems graphConfig.blockSize = .ok batch ∧
      LlamaModelRunner.Captured capturedState 1 ∧
      (sumRunner.Agrees capturedState batch 1 tokens eager ↔
        (LlamaModelRunner.Captured capturedState 1 ∨
          (∀ sampleIndex ∈ batch.sampleIndices, sampleIndex < 0) ∨
          ∀ logits logits' : ℕ, logits = logits')) := by
  have hvalid : GPUInputBatch.fromWorkerBatch nextItems graphConfig.blockSize =
      .ok (GPUInputBatch.ofItems graphConfig.blockSize nextItems) := by decide
  have hcaptured : (capturedState.graphStates.get? 1).map (·.captured) = some true := by
    decide +kernel
  have heager : sampledEntries ((sumRunner.executeModel
      (GPUInputBatch.ofItems graphConfig.blockSize nextItems)).run capturedState) =
        [("a", 56)] := by decide +kernel
  cases hrun : (sumRunner.executeModel (GPUInputBatch.ofItems graphConfig.blockSize nextItems)).run
      capturedState with
  | error e eager => rw [hrun] at heager; cases heager
  | ok tokens eager =>
      refine ⟨_, tokens, eager, hvalid, ?_, graph_agrees_iff hvalid (by decide) (by decide) hrun⟩
      obtain ⟨graph, hgraph, hset⟩ := Option.map_eq_some_iff.mp hcaptured
      exact ⟨graph, hgraph, hset⟩

end MiniVLLM
