import MiniVLLM.Verification.Native.Kernels
import MiniVLLM.Verification.Native.Sizes

/-! # The runtime between its calls

Whatever calls a Worker has made, the buffers keep the sizes they were created with, the flags
that no call writes keep their values, and a graph that was recorded replays the arguments it
would be recorded with now. -/

namespace MiniVLLM

open Launch NativeInts

variable {α : Type}

/-! ## Kernels keep sizes -/

theorem length_of_storeRow {outputs outputs' row : List α} {start : ℕ}
    (h : storeRow outputs start row = some outputs') : outputs'.length = outputs.length :=
  foldlM_invariant (P := fun buffer : List α => buffer.length = outputs.length) rfl h
    fun _ _ _ hlength hstore => (Buffer.length_of_store hstore).trans hlength

variable [FloatOps α]

theorem length_of_batchedKernel {inputs : AttentionInputs α} {numRequests request : ℕ}
    {outputs outputs' : List α}
    (h : batchedLastTokenAttentionKernel inputs numRequests outputs request = some outputs') :
    outputs'.length = outputs.length := by
  rw [batchedLastTokenAttentionKernel] at h
  split at h
  · rw [Option.some.inj h]
  · obtain ⟨row, _, hrow⟩ := Option.bind_eq_some_iff.mp h
    cases row with
    | none => rw [← Option.some.inj hrow]
    | some row => exact length_of_storeRow hrow

theorem sized_of_appendKernel {tokenIds slots : List ℤ} {count headDim cells index : ℕ}
    {caches caches' : KVCaches α} (hsized : caches.Sized cells)
    (h : appendKernel tokenIds slots count headDim caches index = some caches') :
    caches'.Sized cells := by
  obtain ⟨total, _, h⟩ := Option.bind_eq_some_iff.mp h
  split at h
  · rwa [← Option.some.inj h]
  · obtain ⟨cacheIndex, _, h⟩ := Option.bind_eq_some_iff.mp h
    obtain ⟨tokenId, _, h⟩ := Option.bind_eq_some_iff.mp h
    obtain ⟨keyCache, hkey, h⟩ := Option.bind_eq_some_iff.mp h
    obtain ⟨valueCache, hvalue, h⟩ := Option.bind_eq_some_iff.mp h
    rw [← Option.some.inj h]
    exact ⟨(Buffer.length_of_store hkey).trans hsized.1,
      (Buffer.length_of_store hvalue).trans hsized.2⟩

namespace NativeDevice

variable {device device' : NativeDevice α} {sizes : NativeRuntime} {headDim : ℕ}

/-- A runtime of some sizes, as its calls leave it. -/
structure Intact (sizes : NativeRuntime) (headDim : ℕ) (device : NativeDevice α) : Prop where
  sizes_eq : device.toNativeRuntime = sizes
  headDim_eq : device.headDim = headDim
  caches : device.caches.Sized
    ((sizes.physicalCacheSlots + sizes.graphCapacityRequests) * headDim)
  attentionOutput : device.attentionOutput.length = sizes.graphCapacityRequests * headDim
  graphTokenIds : device.graphTokenIds.length = sizes.graphCapacityRequests
  graphSlots : device.graphSlots.length = sizes.graphCapacityRequests
  graphBlockTables :
    device.graphBlockTables.length = sizes.graphCapacityRequests * sizes.graphMaxBlocks
  graphSeqLens : device.graphSeqLens.length = sizes.graphCapacityRequests
  graphIsDecode : device.graphIsDecode = List.replicate sizes.graphCapacityRequests 0x01010101
  graphContextStartLocs :
    device.graphContextStartLocs = List.replicate (sizes.graphCapacityRequests + 1) 0
  decodeGraphs : ∀ captureSize graph, device.decodeGraphs.get? captureSize = some graph →
    device.recordedGraph captureSize = some graph

theorem toNativeRuntime_of_create {args : CreateArgs} {floats : ℕ → α} {ints : ℕ → ℤ}
    (h : create args floats ints = some device) :
    NativeRuntime.create args = some device.toNativeRuntime := by
  obtain ⟨sizes, hsizes, h⟩ := Option.bind_eq_some_iff.mp h
  obtain ⟨_, _, h⟩ := Option.bind_eq_some_iff.mp h
  obtain ⟨_, _, h⟩ := Option.bind_eq_some_iff.mp h
  obtain rfl := Option.some.inj h
  exact hsizes

theorem intact_create {args : CreateArgs} {floats : ℕ → α} {ints : ℕ → ℤ}
    (h : create args floats ints = some device) :
    NativeRuntime.MadeFrom args device.toNativeRuntime ∧ (device.headDim : ℤ) = args.headDim ∧
      Intact device.toNativeRuntime device.headDim device := by
  obtain ⟨sizes, hsizes, h⟩ := Option.bind_eq_some_iff.mp h
  obtain ⟨elements, helements, h⟩ := Option.bind_eq_some_iff.mp h
  obtain ⟨starts, hstarts, h⟩ := Option.bind_eq_some_iff.mp h
  obtain rfl := Option.some.inj h
  have hmade := NativeRuntime.madeFrom_of_create hsizes
  have haccepted := hmade.accepted
  rw [CreateArgs.Accepted] at haccepted
  have hseqs : args.maxNumSeqs.toNat = sizes.graphCapacityRequests := by
    rw [← hmade.maxNumSeqs, Int.toNat_natCast]
  have hcells : elements = (sizes.physicalCacheSlots + sizes.graphCapacityRequests) *
      args.headDim.toNat := by
    obtain ⟨physical, hphysical, rfl⟩ := Option.map_eq_some_iff.mp helements
    obtain ⟨rfl, _, _⟩ := CInt.of_value hphysical
    rw [hmade.physicalCacheSlots, ← hmade.numBlocks, ← hmade.blockSize, hseqs,
      ← Nat.cast_mul, Int.toNat_natCast]
  have hcount : starts.toNat = sizes.graphCapacityRequests + 1 := by
    obtain ⟨rfl, _, _⟩ := CInt.of_value hstarts
    omega
  have hhead : (args.headDim.toNat : ℤ) = args.headDim := by omega
  refine ⟨hmade, hhead, ⟨rfl, rfl, ⟨?_, ?_⟩, ?_, ?_, ?_, ?_, ?_, ?_, ?_,
    fun captureSize graph hgraph => ?_⟩⟩
  · rw [List.length_replicate, hcells]
  · rw [List.length_replicate, hcells]
  · rw [List.length_map, List.length_range, hseqs]
  · rw [List.length_map, List.length_range, hseqs]
  · rw [List.length_map, List.length_range, hseqs]
  · rw [List.length_map, List.length_range, hseqs]
  · rw [List.length_map, List.length_range, hseqs]
  · rw [hseqs]
  · rw [hcount]
  · rw [Dict.get?_empty] at hgraph
    cases hgraph

/-- Arguments whose sums and products an `int` holds make a runtime with caches of zeros. -/
theorem exists_create {deviceIndex numBlocks blockSize maxNumSeqs maxModelLen : ℕ}
    (floats : ℕ → α) (ints : ℕ → ℤ) (hblocks : 0 < numBlocks) (hsize : 0 < blockSize)
    (hhead : 0 < headDim) (hseqs : 0 < maxNumSeqs) (hlen : 0 < maxModelLen)
    (hslots : numBlocks * blockSize < 2 ^ 31) (hmodelLen : maxModelLen + blockSize < 2 ^ 31)
    (hstarts : maxNumSeqs + 1 < 2 ^ 31) :
    ∃ device, create ⟨deviceIndex, numBlocks, blockSize, headDim, maxNumSeqs, maxModelLen⟩ floats
        ints = some device ∧
      device.toNativeRuntime = ⟨numBlocks, blockSize, maxNumSeqs,
        (maxModelLen + blockSize - 1) / blockSize, numBlocks * blockSize⟩ ∧
      device.headDim = headDim ∧
      device.caches =
        ⟨List.replicate ((numBlocks * blockSize + maxNumSeqs) * headDim) 0,
          List.replicate ((numBlocks * blockSize + maxNumSeqs) * headDim) 0⟩ := by
  have haccepted : CreateArgs.Accepted
      ⟨deviceIndex, numBlocks, blockSize, headDim, maxNumSeqs, maxModelLen⟩ := by
    simp only [CreateArgs.Accepted]
    omega
  have hphysical : CInt.mul (numBlocks : ℤ) (blockSize : ℤ) = some ((numBlocks * blockSize : ℕ) : ℤ) :=
    CInt.mul_natCast hslots
  have hgraph : CInt.ceilDiv (maxModelLen : ℤ) (blockSize : ℤ) =
      some (((maxModelLen + blockSize - 1) / blockSize : ℕ) : ℤ) :=
    CInt.ceilDiv_natCast hmodelLen hsize
  have hcount : CInt.add (maxNumSeqs : ℤ) 1 = some ((maxNumSeqs + 1 : ℕ) : ℤ) :=
    CInt.add_natCast hstarts
  have hsizes : NativeRuntime.create
      ⟨deviceIndex, numBlocks, blockSize, headDim, maxNumSeqs, maxModelLen⟩ =
        some ⟨numBlocks, blockSize, maxNumSeqs, (maxModelLen + blockSize - 1) / blockSize,
          numBlocks * blockSize⟩ := by
    rw [NativeRuntime.create, if_pos haccepted]
    simp only [CreateArgs.graphMaxBlocks, CreateArgs.physicalCacheSlots, hgraph, hphysical,
      Option.bind_eq_bind, Option.bind_some, Int.toNat_natCast, Option.pure_def]
  rw [create, hsizes]
  simp only [CreateArgs.elements, CreateArgs.physicalCacheSlots, hphysical, hcount,
    Option.bind_eq_bind, Option.bind_some, Option.map_some, Int.toNat_natCast]
  exact ⟨_, rfl, rfl, rfl, rfl⟩

theorem ready_of_create {args : CreateArgs} {floats : ℕ → α} {ints : ℕ → ℤ}
    (h : create args floats ints = some device)
    (hfits : device.toNativeRuntime.Fits device.headDim) :
    device.toNativeRuntime.Ready device.headDim := by
  obtain ⟨hmade, hhead, _⟩ := intact_create h
  have haccepted := hmade.accepted
  rw [CreateArgs.Accepted] at haccepted
  exact ⟨hfits, by omega, hmade.blockSize_pos, hmade.physicalCacheSlots⟩

/-- The caches have as many cells as `size_t` counts. -/
theorem elements_eq_length {args : CreateArgs} {floats : ℕ → α} {ints : ℕ → ℤ}
    (h : create args floats ints = some device) :
    args.elements = some device.caches.keyCache.length := by
  obtain ⟨sizes, _, h⟩ := Option.bind_eq_some_iff.mp h
  obtain ⟨elements, helements, h⟩ := Option.bind_eq_some_iff.mp h
  obtain ⟨starts, _, h⟩ := Option.bind_eq_some_iff.mp h
  obtain rfl := Option.some.inj h
  rw [helements, List.length_replicate]

def graphFor (sizes : NativeRuntime) (headDim captureSize : ℕ) : DecodeGraph where
  appendBlocks := (captureSize * headDim + 256 - 1) / 256
  captureSize := captureSize
  headDim := headDim
  graphMaxBlocks := sizes.graphMaxBlocks
  blockSize := sizes.blockSize

omit [FloatOps α] in
theorem Intact.recordedGraph_eq (h : Intact sizes headDim device) {captureSize : ℕ}
    (hblocks : captureSize * headDim + 256 < 2 ^ 31) :
    device.recordedGraph captureSize = some (graphFor sizes headDim captureSize) := by
  rw [recordedGraph, h.headDim_eq, CInt.mul_natCast (by omega), Option.bind_eq_bind,
    Option.bind_some, appendBlocks_natCast hblocks, Option.bind_eq_bind, Option.bind_some,
    h.sizes_eq]
  rfl

omit [FloatOps α] in
theorem Intact.exists_getOrCreateDecodeGraph (h : Intact sizes headDim device) {captureSize : ℕ}
    (hblocks : captureSize * headDim + 256 < 2 ^ 31) : ∃ graph device',
      device.getOrCreateDecodeGraph captureSize = some (graph, device') := by
  rw [getOrCreateDecodeGraph]
  cases device.decodeGraphs.get? captureSize with
  | some graph => exact ⟨_, _, rfl⟩
  | none =>
      rw [h.recordedGraph_eq hblocks]
      exact ⟨_, _, rfl⟩

omit [FloatOps α] in
/-- The graph that is launched is the one that would be recorded now. -/
theorem Intact.of_getOrCreateDecodeGraph (h : Intact sizes headDim device) {captureSize : ℕ}
    {graph : DecodeGraph} (hgraph : device.getOrCreateDecodeGraph captureSize = some (graph, device')) :
    device.recordedGraph captureSize = some graph ∧ ∃ graphs,
      device' = { device with decodeGraphs := graphs } ∧
      graphs.get? captureSize = some graph ∧ Intact sizes headDim device' := by
  rw [getOrCreateDecodeGraph] at hgraph
  cases hget : device.decodeGraphs.get? captureSize with
  | some recorded =>
      rw [hget] at hgraph
      obtain ⟨rfl, rfl⟩ := Prod.mk.inj (Option.some.inj hgraph)
      exact ⟨h.decodeGraphs captureSize _ hget, device.decodeGraphs, rfl, hget, h⟩
  | none =>
      rw [hget] at hgraph
      obtain ⟨recorded, hrecorded, hgraph⟩ := Option.bind_eq_some_iff.mp hgraph
      obtain ⟨rfl, rfl⟩ := Prod.mk.inj (Option.some.inj hgraph)
      have hgraphs : ∀ size graph, (device.decodeGraphs.set captureSize recorded).get? size =
          some graph → device.recordedGraph size = some graph := by
        intro size graph hgraph
        rw [Dict.get?_set] at hgraph
        by_cases hsize : size = captureSize
        · rw [if_pos hsize] at hgraph
          rw [hsize, hrecorded, hgraph]
        · rw [if_neg hsize] at hgraph
          exact h.decodeGraphs size graph hgraph
      exact ⟨hrecorded, _, rfl, by rw [Dict.get?_set, if_pos rfl], { h with decodeGraphs := hgraphs }⟩

/-! The three ways in which a call writes to the caches and the output. -/

theorem Intact.launch_append (h : Intact sizes headDim device) {schedule : Launch.Schedule}
    {threads count dims : ℕ} {tokenIds slots : List ℤ} {caches : KVCaches α}
    (hcaches : schedule.launch threads (appendKernel tokenIds slots count dims) device.caches =
      some caches) : Intact sizes headDim { device with caches := caches } :=
  { h with
    caches := schedule.launch_invariant h.caches hcaches
      fun _ _ _ hsized hkernel => sized_of_appendKernel hsized hkernel }

theorem Intact.launch_attention (h : Intact sizes headDim device) {schedule : Launch.Schedule}
    {blocks numRequests : ℕ} {inputs : AttentionInputs α} {outputs : List α}
    (houtputs : schedule.launch blocks (batchedLastTokenAttentionKernel inputs numRequests)
      device.attentionOutput = some outputs) :
    Intact sizes headDim { device with attentionOutput := outputs } := by
  have hlength := schedule.launch_invariant
    (P := fun outputs : List α => outputs.length = device.attentionOutput.length) rfl houtputs
    fun _ _ _ hlength hkernel => (length_of_batchedKernel hkernel).trans hlength
  exact { h with attentionOutput := hlength.trans h.attentionOutput }

omit [FloatOps α] in
theorem Intact.store_row (h : Intact sizes headDim device) {start : ℕ} {row outputs : List α}
    (hstore : storeRow device.attentionOutput start row = some outputs) :
    Intact sizes headDim { device with attentionOutput := outputs } :=
  { h with attentionOutput := (length_of_storeRow hstore).trans h.attentionOutput }

theorem Intact.launchGraph (h : Intact sizes headDim device) {schedule schedule' : Launch.Schedule}
    {graph : DecodeGraph}
    (hlaunch : launchGraph schedule schedule' device graph = some device') :
    Intact sizes headDim device' := by
  obtain ⟨caches, hcaches, hlaunch⟩ := Option.bind_eq_some_iff.mp hlaunch
  obtain ⟨outputs, houtputs, hlaunch⟩ := Option.bind_eq_some_iff.mp hlaunch
  rw [← Option.some.inj hlaunch]
  exact (h.launch_append hcaches).launch_attention houtputs

/-! One lemma for each call. -/

theorem Intact.of_append (h : Intact sizes headDim device) {schedule : Launch.Schedule}
    {tokenIds slots : List ℤ} {count : ℤ} {status : ℕ}
    (hcall : device.append schedule tokenIds slots count = some (status, device')) :
    Intact sizes headDim device' := by
  rw [append] at hcall
  split at hcall
  · obtain rfl := (Prod.mk.inj (Option.some.inj hcall)).2
    exact h
  · obtain ⟨tokenIds', _, hcall⟩ := Option.bind_eq_some_iff.mp hcall
    obtain ⟨slots', _, hcall⟩ := Option.bind_eq_some_iff.mp hcall
    obtain ⟨total, _, hcall⟩ := Option.bind_eq_some_iff.mp hcall
    split at hcall
    · obtain ⟨blocks, _, hcall⟩ := Option.bind_eq_some_iff.mp hcall
      obtain ⟨caches, hcaches, hcall⟩ := Option.bind_eq_some_iff.mp hcall
      obtain rfl := (Prod.mk.inj (Option.some.inj hcall)).2
      exact h.launch_append hcaches
    · obtain rfl := (Prod.mk.inj (Option.some.inj hcall)).2
      exact h

theorem Intact.of_prefill (h : Intact sizes headDim device) {slots : List ℤ} {count : ℤ} {status : ℕ}
    (hcall : device.prefill slots count = some (status, device')) :
    Intact sizes headDim device' := by
  rw [prefill] at hcall
  split at hcall
  · obtain rfl := (Prod.mk.inj (Option.some.inj hcall)).2
    exact h
  · obtain ⟨slots', _, hcall⟩ := Option.bind_eq_some_iff.mp hcall
    split at hcall
    · obtain rfl := (Prod.mk.inj (Option.some.inj hcall)).2
      exact h
    · obtain ⟨row, _, hcall⟩ := Option.bind_eq_some_iff.mp hcall
      obtain ⟨outputs, hstore, hcall⟩ := Option.bind_eq_some_iff.mp hcall
      obtain rfl := (Prod.mk.inj (Option.some.inj hcall)).2
      exact h.store_row hstore

theorem Intact.of_decode (h : Intact sizes headDim device) {blockTable : List ℤ}
    {numTableBlocks seqLen : ℤ} {status : ℕ}
    (hcall : device.decode blockTable numTableBlocks seqLen = some (status, device')) :
    Intact sizes headDim device' := by
  rw [decode] at hcall
  split at hcall
  · obtain rfl := (Prod.mk.inj (Option.some.inj hcall)).2
    exact h
  · obtain ⟨blockTable', _, hcall⟩ := Option.bind_eq_some_iff.mp hcall
    split at hcall
    · obtain rfl := (Prod.mk.inj (Option.some.inj hcall)).2
      exact h
    · obtain ⟨row, _, hcall⟩ := Option.bind_eq_some_iff.mp hcall
      obtain ⟨outputs, hstore, hcall⟩ := Option.bind_eq_some_iff.mp hcall
      obtain rfl := (Prod.mk.inj (Option.some.inj hcall)).2
      exact h.store_row hstore

theorem Intact.of_attentionBatch (h : Intact sizes headDim device) {schedule : Launch.Schedule}
    {contextSlots contextStartLocs blockTables seqLens isDecode : List ℤ}
    {maxBlocks numRequests : ℤ} {status : ℕ}
    (hcall : device.attentionBatch schedule contextSlots contextStartLocs blockTables maxBlocks
      seqLens isDecode numRequests = some (status, device')) : Intact sizes headDim device' := by
  rw [attentionBatch] at hcall
  split at hcall
  · obtain rfl := (Prod.mk.inj (Option.some.inj hcall)).2
    exact h
  · obtain ⟨contextCount, _, hcall⟩ := Option.bind_eq_some_iff.mp hcall
    split at hcall
    · obtain rfl := (Prod.mk.inj (Option.some.inj hcall)).2
      exact h
    · obtain ⟨contextSlots', _, hcall⟩ := Option.bind_eq_some_iff.mp hcall
      obtain ⟨starts, _, hcall⟩ := Option.bind_eq_some_iff.mp hcall
      obtain ⟨contextStartLocs', _, hcall⟩ := Option.bind_eq_some_iff.mp hcall
      obtain ⟨entries, _, hcall⟩ := Option.bind_eq_some_iff.mp hcall
      obtain ⟨blockTables', _, hcall⟩ := Option.bind_eq_some_iff.mp hcall
      obtain ⟨seqLens', _, hcall⟩ := Option.bind_eq_some_iff.mp hcall
      obtain ⟨isDecode', _, hcall⟩ := Option.bind_eq_some_iff.mp hcall
      obtain ⟨outputs, houtputs, hcall⟩ := Option.bind_eq_some_iff.mp hcall
      obtain rfl := (Prod.mk.inj (Option.some.inj hcall)).2
      exact h.launch_attention houtputs

theorem Intact.of_executeDecodeGraph (h : Intact sizes headDim device)
    {schedule schedule' : Launch.Schedule} {tokenIds slots blockTables seqLens : List ℤ}
    {inputMaxBlocks numRequests captureSize : ℤ} {status : ℕ}
    (hcall : device.executeDecodeGraph schedule schedule' tokenIds slots blockTables inputMaxBlocks
      seqLens numRequests captureSize = some (status, device')) : Intact sizes headDim device' := by
  rw [executeDecodeGraph] at hcall
  split at hcall
  · obtain rfl := (Prod.mk.inj (Option.some.inj hcall)).2
    exact h
  · obtain ⟨tokens, _, hcall⟩ := Option.bind_eq_some_iff.mp hcall
    obtain ⟨paddedSlots, _, hcall⟩ := Option.bind_eq_some_iff.mp hcall
    obtain ⟨paddedSeqLens, _, hcall⟩ := Option.bind_eq_some_iff.mp hcall
    obtain ⟨paddedTables, _, hcall⟩ := Option.bind_eq_some_iff.mp hcall
    obtain ⟨graphTokenIds, htokens, hcall⟩ := Option.bind_eq_some_iff.mp hcall
    obtain ⟨graphSlots, hslots, hcall⟩ := Option.bind_eq_some_iff.mp hcall
    obtain ⟨graphSeqLens, hseqLens, hcall⟩ := Option.bind_eq_some_iff.mp hcall
    obtain ⟨graphBlockTables, htables, hcall⟩ := Option.bind_eq_some_iff.mp hcall
    have hloaded : Intact sizes headDim { device with
        graphTokenIds := graphTokenIds
        graphSlots := graphSlots
        graphSeqLens := graphSeqLens
        graphBlockTables := graphBlockTables } :=
      { h with
        graphTokenIds := (Buffer.length_of_overwrite htokens).trans h.graphTokenIds
        graphSlots := (Buffer.length_of_overwrite hslots).trans h.graphSlots
        graphSeqLens := (Buffer.length_of_overwrite hseqLens).trans h.graphSeqLens
        graphBlockTables := (Buffer.length_of_overwrite htables).trans h.graphBlockTables }
    obtain ⟨⟨graph, recorded⟩, hgraph, hcall⟩ := Option.bind_eq_some_iff.mp hcall
    obtain ⟨_, _, _, _, hrecorded⟩ := hloaded.of_getOrCreateDecodeGraph hgraph
    obtain ⟨launched, hlaunch, hcall⟩ := Option.bind_eq_some_iff.mp hcall
    obtain rfl := (Prod.mk.inj (Option.some.inj hcall)).2
    exact hrecorded.launchGraph hlaunch

/-- Every call keeps the runtime intact. -/
theorem Intact.step (h : Intact sizes headDim device) {c : Call} {statuses : List ℕ}
    (hstep : device.CallStep c statuses device') : Intact sizes headDim device' := by
  obtain ⟨status, hcall, _⟩ := hstep
  cases c with
  | append => exact h.of_append hcall
  | prefill => exact h.of_prefill hcall
  | decode => exact h.of_decode hcall
  | attentionBatch => exact h.of_attentionBatch hcall
  | executeDecodeGraph => exact h.of_executeDecodeGraph hcall

/-- Every runtime a Worker can have is intact. -/
theorem intact_of_run {args : CreateArgs} {floats : ℕ → α} {ints : ℕ → ℤ}
    {device₀ : NativeDevice α} {τs : List (Transition (NativeDevice α) Call ℕ)}
    (hcreate : create args floats ints = some device₀) (hrun : Run CallStep device₀ τs device) :
    Intact device₀.toNativeRuntime device₀.headDim device :=
  hrun.invariant (intact_create hcreate).2.2 fun _ _ _ _ h hstep => h.step hstep

end NativeDevice

end MiniVLLM
