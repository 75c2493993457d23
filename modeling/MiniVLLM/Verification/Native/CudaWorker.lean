import MiniVLLM.Verification.Native.DecodeGraph
import MiniVLLM.Verification.Native.ReferenceWorker
import MiniVLLM.Verification.Worker.Capture

/-! # A Worker over the native runtime

The device caches refine the store of tokens, on any order of threads and in both modes, as long
as no `int` overflows. So no call of a run leaves its buffers or fails, and each output row is the
attention over the tokens of its request. -/

namespace MiniVLLM

open KVCacheManager Scheduler EngineCore Launch

/-! ## Sizes in range -/

/-- No `int` overflows in the runtime of a configuration, nor while `append_kernel` stores a batch
as large as the token budget. -/
structure EngineConfig.FitsNative (config : EngineConfig) (headDim : ℕ) : Prop
    extends NativeRuntime.Fits (NativeRuntime.ofConfig config) headDim where
  maxModelLen : config.maxModelLen < 2 ^ 31
  append : config.maxNumBatchedTokens * headDim + 256 < 2 ^ 31

section Sizes

variable {config : EngineConfig} {headDim : ℕ} {s admitted : Scheduler} {items : List WorkerItem}
  {m' : KVCacheManager} {store : Store}

namespace EngineConfig.FitsNative

variable (h : config.FitsNative headDim) (hpos : 0 < headDim)

include h hpos

theorem ready : (NativeRuntime.ofConfig config).Ready headDim :=
  ⟨h.toFits, hpos, config.blockSize_pos, rfl⟩

theorem slots_le : config.numGpuBlocks * config.blockSize + config.maxNumSeqs ≤ 2 ^ 31 :=
  (h.ready hpos).slots_le

theorem fitsInt : config.FitsInt := by
  have hslots := h.slots_le hpos
  have hseqs := config.maxNumSeqs_pos
  have hblocks : config.numGpuBlocks ≤ config.numGpuBlocks * config.blockSize :=
    Nat.le_mul_of_pos_right _ config.blockSize_pos
  have hsize : config.blockSize ≤ config.numGpuBlocks * config.blockSize :=
    Nat.le_mul_of_pos_left _ config.numGpuBlocks_pos
  have hlive : 0 < config.numGpuBlocks * config.blockSize :=
    Nat.mul_pos config.numGpuBlocks_pos config.blockSize_pos
  exact ⟨by omega, by omega, by omega, h.maxModelLen⟩

theorem fitsInt32 : config.FitsInt32 where
  slots := (Nat.le_add_right _ _).trans (h.slots_le hpos)
  tokens := by
    have htokens : config.maxNumBatchedTokens ≤ config.maxNumBatchedTokens * headDim :=
      Nat.le_mul_of_pos_right _ hpos
    have happend := h.append
    omega

omit hpos in
theorem headDim_lt : headDim < 2 ^ 31 := by
  have hcells := h.cells
  have hlive : 0 < config.numGpuBlocks * config.blockSize :=
    Nat.mul_pos config.numGpuBlocks_pos config.blockSize_pos
  have hslots : 2 ≤ config.numGpuBlocks * config.blockSize + config.maxNumSeqs :=
    Nat.add_le_add hlive config.maxNumSeqs_pos
  have hle : 2 * headDim ≤ 2 ^ 31 := (Nat.mul_le_mul_right headDim hslots).trans hcells
  omega

end EngineConfig.FitsNative

namespace CudaKernelRuntime

theorem array_eq {values : List ℤ} (h : ∀ value ∈ values, Int32 value) : array values = values :=
  (List.map_congr_left fun value hvalue => CInt.wrap_eq (h value hvalue).1 (h value hvalue).2).trans
    (List.map_id _)

theorem array_intsOf {values : List ℕ} (h : ∀ value ∈ values, value < 2 ^ 31) :
    array (intsOf values) = intsOf values :=
  array_eq fun _ hvalue => by
    obtain ⟨value, hmem, rfl⟩ := List.mem_map.mp hvalue
    exact int32_natCast.mpr (h value hmem)

theorem array_flags (flags : List Bool) :
    array (flags.map fun value => if value then 1 else 0) =
      flags.map fun value => if value then 1 else 0 :=
  array_eq fun _ hvalue => by
    obtain ⟨value, _, rfl⟩ := List.mem_map.mp hvalue
    cases value
    · exact int32_natCast.mpr (show 0 < 2 ^ 31 by decide)
    · exact int32_natCast.mpr (show 1 < 2 ^ 31 by decide)

end CudaKernelRuntime

end Sizes

namespace NativeDevice

open Bootstrap

/-- An intact runtime whose live cells have the keys and values of the tokens of a store, as `int`s
keep them. -/
structure Mirrors (config : EngineConfig) (headDim : ℕ) (store : Store)
    (device : NativeDevice EReal) : Prop where
  fits : config.FitsNative headDim
  headDim_pos : 0 < headDim
  intact : Intact (.ofConfig config) headDim device
  held : ∀ slot token, store slot = some token →
    slot < config.numGpuBlocks * config.blockSize ∧ ∀ dim < headDim,
      device.caches.cell (slot * headDim + dim) =
        (some (keyEntry (CInt.wrap token) dim), some (valueEntry (CInt.wrap token) dim))

section Mirroring

variable {config : EngineConfig} {headDim : ℕ} {store : Store} {device : NativeDevice EReal}
  {s admitted : Scheduler} {items : List WorkerItem} {m' : KVCacheManager}

theorem mirrors_create {floats : ℕ → EReal} {ints : ℕ → ℤ} (hfits : config.FitsNative headDim)
    (h : create (CudaKernelRuntime.createArgs config headDim) floats ints = some device) :
    Mirrors config headDim (fun _ => none) device := by
  obtain ⟨hmade, hhead, hintact⟩ := intact_create h
  have haccepted := hmade.accepted
  have hwrap : (CudaKernelRuntime.createArgs config headDim).headDim = headDim := by
    rw [CudaKernelRuntime.createArgs, CInt.wrap_natCast hfits.headDim_lt]
  rw [NativeInts.CreateArgs.Accepted, hwrap] at haccepted
  rw [hwrap, Nat.cast_inj] at hhead
  have hpos : 0 < headDim := by omega
  rw [NativeRuntime.eq_ofConfig (hfits.fitsInt hpos) (toNativeRuntime_of_create h), hhead] at hintact
  refine ⟨hfits, hpos, hintact, fun _ _ hstore => ?_⟩
  cases hstore

/-- Rows stored to the slots of a batch extend the store. -/
theorem Mirrors.of_rowsStored (h : Mirrors config headDim store device) {tokens slots : List ℕ}
    (hlength : slots.length = tokens.length)
    (hlt : ∀ slot ∈ slots, slot < config.numGpuBlocks * config.blockSize)
    {cells : ℕ → Option EReal × Option EReal}
    (hrows : RowsStored (cacheEntry ((CudaKernelRuntime.array (intsOf tokens)).getD · 0))
      (slots.getD · 0) slots.length headDim device.caches.cell cells)
    {device' : NativeDevice EReal} (hintact : Intact (.ofConfig config) headDim device')
    (hcells : ∀ i < config.numGpuBlocks * config.blockSize * headDim,
      device'.caches.cell i = cells i) :
    Mirrors config headDim (Paging.write store (slots.zip tokens)) device' := by
  refine ⟨h.fits, h.headDim_pos, hintact, fun slot token hwrite => ?_⟩
  rcases Paging.of_write_eq_some hwrite with hmem | ⟨hother, hstore⟩
  · obtain ⟨r, hr⟩ := List.mem_iff_getElem?.mp hmem
    obtain ⟨hslot, htoken⟩ := List.getElem?_zip_eq_some.mp hr
    have hlive := hlt slot (List.mem_of_getElem? hslot)
    refine ⟨hlive, fun dim hdim => ?_⟩
    have hstored := hrows.stored r (List.getElem?_eq_some_iff.mp hslot).1 dim hdim
    rw [List.getD_eq_getElem?_getD, hslot, Option.getD_some, cacheEntry,
      List.getD_eq_getElem?_getD, CudaKernelRuntime.array, intsOf, List.getElem?_map,
      List.getElem?_map, htoken, Option.map_some, Option.map_some, Option.getD_some] at hstored
    rw [hcells _ (row_lt hlive hdim)]
    exact hstored
  · obtain ⟨hlive, hheld⟩ := h.held slot token hstore
    refine ⟨hlive, fun dim hdim => ?_⟩
    rw [List.map_fst_zip hlength.le] at hother
    rw [hcells _ (row_lt hlive hdim), hrows.kept _ fun r hr hsame => ?_, hheld dim hdim]
    rw [row_div _ hdim, List.getD_eq_getElem _ _ hr] at hsame
    exact hother (hsame ▸ List.getElem_mem hr)

theorem Mirrors.deviceHolds
    (h : Mirrors config headDim (Paging.write store (batchPairs items)) device)
    (hdispatched : Dispatched config s admitted items m' store) (batchId : ℕ) :
    DeviceHolds config.blockSize headDim
      (fun slot => tokenKey (CInt.wrap (tokenAt (Paging.write store (batchPairs items)) slot)))
      (fun slot => tokenValue (CInt.wrap (tokenAt (Paging.write store (batchPairs items)) slot)))
      (GPUInputBatch.ofItems config.blockSize ⟨batchId, items⟩).contextSlotMapping device := by
  have hcell : ∀ slot ∈
      (GPUInputBatch.ofItems config.blockSize ⟨batchId, items⟩).contextSlotMapping,
      ∀ dim < headDim, device.caches.cell (slot * headDim + dim) =
        (some ((tokenKey (CInt.wrap (tokenAt (Paging.write store (batchPairs items)) slot)) dim :
          ℝ) : EReal),
        some ((tokenValue (CInt.wrap (tokenAt (Paging.write store (batchPairs items)) slot)) dim :
          ℝ) : EReal)) := by
    intro slot hslot dim hdim
    rw [(h.held slot _ (hdispatched.context_stored batchId hslot)).2 dim hdim, keyEntry_eq,
      valueEntry_eq]
  refine ⟨congrArg NativeRuntime.blockSize h.intact.sizes_eq, h.intact.headDim_eq, h.headDim_pos,
    ⟨?_, ?_⟩⟩
  · intro slot hslot dim hdim
    exact_mod_cast (Buffer.load_natCast ..).trans (congrArg Prod.fst (hcell slot hslot dim hdim))
  · intro slot hslot dim hdim
    exact_mod_cast (Buffer.load_natCast ..).trans (congrArg Prod.snd (hcell slot hslot dim hdim))

/-! ## What the calls are handed -/

/-- The lengths of the arrays that the adapter hands to `mvllm_attention_batch`. -/
structure ArraysFit (blockSize : ℕ) (items : List WorkerItem) (input : GPUInputBatch) : Prop where
  contextStartLoc : input.contextStartLoc.length = input.numRequests + 1
  context : input.contextStartLoc[input.numRequests]? = some input.contextSlotMapping.length
  tables : ∀ table ∈ input.blockTables, table.length = GPUInputBatch.widthOf blockSize items
  width : (input.blockTables.headD []).length = GPUInputBatch.widthOf blockSize items
  blockTables : input.blockTables.length = input.numRequests
  seqLens : input.seqLens.length = input.numRequests
  isDecode : input.isDecode.length = input.numRequests

theorem arraysFit_ofItems {blockSize : ℕ} (batchId : ℕ) (hne : items ≠ [])
    (hvalid : ∀ item ∈ items, ValidItem blockSize item) :
    ArraysFit blockSize items (GPUInputBatch.ofItems blockSize ⟨batchId, items⟩) := by
  have hrequests : (GPUInputBatch.ofItems blockSize ⟨batchId, items⟩).numRequests = items.length :=
    GPUInputBatch.numRequests_ofItems _
  have htables : ∀ table ∈ (GPUInputBatch.ofItems blockSize ⟨batchId, items⟩).blockTables,
      table.length = GPUInputBatch.widthOf blockSize items :=
    fun table htable => GPUInputBatch.length_of_mem_blockTables hvalid htable
  have hlength : (GPUInputBatch.ofItems blockSize ⟨batchId, items⟩).blockTables.length =
      items.length := GPUInputBatch.length_blockTables_ofItems _
  refine ⟨?_, ?_, htables, ?_, hlength.trans hrequests.symm, hrequests ▸ List.length_map ..,
    hrequests ▸ List.length_map ..⟩
  · rw [hrequests]
    exact (Ragged.length_starts _).trans (congrArg (· + 1) (List.length_map ..))
  · rw [hrequests]
    exact (congrArg _ (List.length_map ..).symm).trans (Ragged.getElem?_starts_last _)
  · cases hhead : (GPUInputBatch.ofItems blockSize ⟨batchId, items⟩).blockTables with
    | nil =>
        rw [hhead] at hlength
        exact absurd (List.length_eq_zero_iff.mp hlength.symm) hne
    | cons table tables =>
        rw [hhead] at htables
        exact htables table List.mem_cons_self

/-- What the adapter hands to the runtime for a batch, and what the kernels compute from it, are
`int`s. -/
structure IntBatch (headDim : ℕ) (input : GPUInputBatch) : Prop
    extends GPUInputBatch.FitsInt32 input, IntsFit headDim input where
  tokens_pos : 0 < input.inputIds.length * headDim
  append : input.inputIds.length * headDim + 256 < 2 ^ 31
  numRequests : input.numRequests + 1 < 2 ^ 31
  width : (input.blockTables.headD []).length < 2 ^ 31
  entries : input.numRequests * (input.blockTables.headD []).length < 2 ^ 31

theorem IntBatch.numTokens_lt {input : GPUInputBatch} (h : IntBatch headDim input)
    (hpos : 0 < headDim) : input.inputIds.length < 2 ^ 31 := by
  have happend := h.append
  have htokens : input.inputIds.length ≤ input.inputIds.length * headDim :=
    Nat.le_mul_of_pos_right _ hpos
  omega

theorem IntBatch.array_tables {input : GPUInputBatch} (h : IntBatch headDim input) :
    CudaKernelRuntime.array input.blockTables.flatten = input.blockTables.flatten :=
  CudaKernelRuntime.array_eq fun block hblock => by
    obtain ⟨table, htable, hmem⟩ := List.mem_flatten.mp hblock
    exact h.blockTables table htable block hmem

theorem intBatch_of_dispatched (hdispatched : Dispatched config s admitted items m' store)
    (hfits : config.FitsNative headDim) (hpos : 0 < headDim) (batchId : ℕ) :
    IntBatch headDim (GPUInputBatch.ofItems config.blockSize ⟨batchId, items⟩) := by
  have hs := hdispatched.scheduled
  have haccepted := hs.accepted hdispatched.ne hdispatched.limit batchId
  have hready := hfits.ready hpos
  have hfit := arraysFit_ofItems batchId hdispatched.ne hs.valid
  have htokens := hs.numTokens_le batchId
  have hcontext : (GPUInputBatch.ofItems config.blockSize
      ⟨batchId, items⟩).contextSlotMapping.length ≤ config.numGpuBlocks * config.blockSize :=
    hs.length_context_le
  have hslots := hfits.slots_le hpos
  have hcapacity : config.maxNumSeqs + 256 < 2 ^ 31 := hready.capacity_lt
  have hpositive := config.maxNumSeqs_pos
  have hseats := haccepted.numRequests.2
  have hwidth := widthOf_le hdispatched.limit
  have hentries := (Nat.mul_le_mul hseats hwidth).trans_lt hready.tables
  have htables : (GPUInputBatch.ofItems config.blockSize
      ⟨batchId, items⟩).blockTables.flatten.length =
        (GPUInputBatch.ofItems config.blockSize ⟨batchId, items⟩).numRequests *
          GPUInputBatch.widthOf config.blockSize items := by
    rw [Ragged.length_flatten_of_width hfit.tables, hfit.blockTables]
  have hne : (GPUInputBatch.ofItems config.blockSize ⟨batchId, items⟩).inputIds ≠ [] := by
    obtain ⟨item, hitem⟩ := List.exists_mem_of_ne_nil _ hdispatched.ne
    exact fun hnil => (hs.valid item hitem).tokenIds_ne (List.flatMap_eq_nil_iff.mp hnil item hitem)
  refine ⟨haccepted.fitsInt32 (hfits.fitsInt32 hpos), ⟨fun slot hslot => ?_, by omega,
    htables.trans_lt hentries⟩, Nat.mul_pos (List.length_pos_of_ne_nil hne) hpos, ?_, by omega, ?_,
    ?_⟩
  · calc slot * headDim + headDim = (slot + 1) * headDim := by rw [Nat.add_mul, Nat.one_mul]
      _ ≤ (config.numGpuBlocks * config.blockSize + config.maxNumSeqs) * headDim :=
        Nat.mul_le_mul_right _ ((hs.context_lt hslot).trans_le (Nat.le_add_right _ _))
      _ ≤ 2 ^ 31 := hfits.cells
  · exact (Nat.add_le_add_right (Nat.mul_le_mul_right headDim htokens) 256).trans_lt hfits.append
  · rw [hfit.width]
    exact (hfits.fitsInt hpos).width_lt hwidth
  · rw [hfit.width]
    exact hentries

/-! ## The eager calls -/

/-- `append_kv` stores the tokens of a dispatched batch. -/
theorem Mirrors.exists_append (h : Mirrors config headDim store device)
    (hdispatched : Dispatched config s admitted items m' store) (batchId : ℕ)
    (schedule : Launch.Schedule) :
    ∃ caches, CudaKernelRuntime.appendDevice schedule device
        (GPUInputBatch.ofItems config.blockSize ⟨batchId, items⟩).inputIds
        (GPUInputBatch.ofItems config.blockSize ⟨batchId, items⟩).slotMapping =
          some (0, { device with caches := caches }) ∧
      caches.Sized ((config.numGpuBlocks * config.blockSize + config.maxNumSeqs) * headDim) ∧
      RowsStored (cacheEntry ((CudaKernelRuntime.array (intsOf
          (GPUInputBatch.ofItems config.blockSize ⟨batchId, items⟩).inputIds)).getD · 0))
        ((GPUInputBatch.ofItems config.blockSize ⟨batchId, items⟩).slotMapping.getD · 0)
        (GPUInputBatch.ofItems config.blockSize ⟨batchId, items⟩).slotMapping.length headDim
        device.caches.cell caches.cell ∧
      Mirrors config headDim (Paging.write store (batchPairs items))
        { device with caches := caches } := by
  have hs := hdispatched.scheduled
  have haccepted := hs.accepted hdispatched.ne hdispatched.limit batchId
  have hints := intBatch_of_dispatched hdispatched h.fits h.headDim_pos batchId
  have hpairs := kvPairs_ofItems ⟨batchId, items⟩ hs.valid
  have hlength : (GPUInputBatch.ofItems config.blockSize ⟨batchId, items⟩).slotMapping.length =
      (GPUInputBatch.ofItems config.blockSize ⟨batchId, items⟩).inputIds.length :=
    GPUInputBatch.length_slotMapping_ofItems hs.valid
  have hnodup : (GPUInputBatch.ofItems config.blockSize ⟨batchId, items⟩).slotMapping.Nodup :=
    hs.slots_nodup
  rw [Worker.kvPairs] at hpairs
  generalize GPUInputBatch.ofItems config.blockSize ⟨batchId, items⟩ = input at *
  have happend := hints.append
  have htotal := hints.tokens_pos
  have hcount := hints.numTokens_lt h.headDim_pos
  rw [← hlength] at happend htotal hcount
  have hready := h.fits.ready h.headDim_pos
  have hinputIds : (CudaKernelRuntime.array (intsOf input.inputIds)).length =
      input.slotMapping.length := by rw [length_array, length_intsOf, hlength]
  obtain ⟨caches, hlaunch, hsized, hrows⟩ := exists_launch_appendKernel schedule
    (fun r hr => load_getD (hinputIds.symm ▸ hr)) (fun r hr => load_intsOf_getD hr)
    (fun r hr r' hr' hsame => by
      rw [List.getD_eq_getElem _ _ hr, List.getD_eq_getElem _ _ hr'] at hsame
      exact hnodup.getElem_inj_iff.mp hsame)
    (fun r hr => by
      rw [List.getD_eq_getElem _ _ hr]
      exact (haccepted.slots _ (List.getElem_mem hr)).trans_le
        (Nat.le_add_right _ config.maxNumSeqs))
    hready.capacity_le (by omega) h.intact.caches
  have hintact : Intact (.ofConfig config) headDim { device with caches := caches } :=
    { h.intact with caches := hsized }
  refine ⟨caches, ?_, hsized, hrows,
    hpairs ▸ h.of_rowsStored hlength haccepted.slots hrows hintact fun _ _ => rfl⟩
  rw [CudaKernelRuntime.appendDevice, ← hlength, CInt.wrap_natCast hcount,
    CudaKernelRuntime.array_intsOf hints.slotMapping,
    h.intact.append_eq hinputIds.symm (length_intsOf _).symm htotal happend, hlaunch]
  rfl

theorem length_flags {items : List WorkerItem} {blockSize : ℕ} {input : GPUInputBatch}
    (hfit : ArraysFit blockSize items input) : (CudaKernelRuntime.array (input.isDecode.map
      fun value => if value then 1 else 0)).length = input.numRequests :=
  (length_array _).trans ((List.length_map ..).trans hfit.isDecode)

/-- A call that is not refused is one launch on the arrays of the batch. -/
theorem attentionBatchDevice_eq {items : List WorkerItem} {blockSize : ℕ} {input : GPUInputBatch}
    (hfit : ArraysFit blockSize items input) (hints : IntBatch headDim input)
    (hstatus : device.attentionBatchStatus (input.blockTables.headD []).length
      input.numRequests = 0) (schedule : Launch.Schedule) :
    CudaKernelRuntime.attentionBatchDevice schedule device input =
      (schedule.launch input.numRequests (batchedLastTokenAttentionKernel (batchInputs device input
        (CudaKernelRuntime.array (input.isDecode.map fun value => if value then 1 else 0)))
          input.numRequests) device.attentionOutput).bind
        fun outputs => some (0, { device with attentionOutput := outputs }) := by
  have htables : input.blockTables.flatten.length =
      input.numRequests * (input.blockTables.headD []).length := by
    rw [Ragged.length_flatten_of_width hfit.tables, hfit.blockTables, hfit.width]
  have hcontext : Buffer.load (CudaKernelRuntime.array (intsOf input.contextStartLoc))
      (input.numRequests : ℕ) = some (input.contextSlotMapping.length : ℤ) :=
    load_array hfit.context hints.context
  have hstarts : CInt.add (input.numRequests : ℤ) 1 =
      some ((input.numRequests + 1 : ℕ) : ℤ) := CInt.add_natCast hints.numRequests
  have hslots : Buffer.copy (CudaKernelRuntime.array (intsOf input.contextSlotMapping))
      input.contextSlotMapping.length =
        some (CudaKernelRuntime.array (intsOf input.contextSlotMapping)) :=
    Buffer.copy_eq ((length_array _).trans (length_intsOf _)).symm
  rw [CudaKernelRuntime.attentionBatchDevice, CInt.wrap_natCast hints.width,
    CInt.wrap_natCast (Nat.lt_of_succ_lt hints.numRequests), attentionBatch,
    if_neg (not_not.mpr hstatus), hcontext, Option.bind_eq_bind, Option.bind_some,
    if_neg (by omega), hstarts, CInt.mul_natCast hints.entries]
  simp only [Option.bind_eq_bind, Option.bind_some, Int.toNat_natCast, hslots,
    Buffer.copy_eq (((length_array _).trans (length_intsOf _)).trans hfit.contextStartLoc).symm,
    Buffer.copy_eq ((length_array _).trans htables).symm,
    Buffer.copy_eq (((length_array _).trans (length_intsOf _)).trans hfit.seqLens).symm,
    Buffer.copy_eq (length_flags hfit).symm]
  rfl

/-- `attention_batch` attends to the known tokens of every request. -/
theorem Mirrors.exists_attend
    (h : Mirrors config headDim (Paging.write store (batchPairs items)) device)
    (hdispatched : Dispatched config s admitted items m' store) (batchId : ℕ)
    (schedule : Launch.Schedule) :
    ∃ outputs, CudaKernelRuntime.attentionBatchDevice schedule device
        (GPUInputBatch.ofItems config.blockSize ⟨batchId, items⟩) =
          some (0, { device with attentionOutput := outputs }) ∧
      outputs.length = device.attentionOutput.length ∧
      ∀ index (hindex : index < items.length), ∃ r,
        admitted.running.get? items[index].requestId = some r ∧ ∀ dim < headDim,
          outputs[index * headDim + dim]? =
            (intRow headDim (r.allTokenIds.take items[index].seqLen))[dim]? := by
  have hs := hdispatched.scheduled
  have hpos := List.length_pos_of_ne_nil hdispatched.ne
  have hinput := GPUInputBatch.fromWorkerBatch_eq ⟨batchId, items⟩ config.blockSize_pos
    hdispatched.ne hs.valid
  have hfit := arraysFit_ofItems batchId hdispatched.ne hs.valid
  have hwidth : 0 < GPUInputBatch.widthOf config.blockSize items :=
    GPUInputBatch.widthOf_pos config.blockSize_pos hdispatched.ne hs.valid
  have hspecs : ∀ index < (GPUInputBatch.ofItems config.blockSize ⟨batchId, items⟩).numRequests,
      ∃ slots, GPUInputBatch.ContextSpec config.blockSize
        (GPUInputBatch.ofItems config.blockSize ⟨batchId, items⟩) index slots := by
    intro index hindex
    obtain ⟨_, slots, _, _, hslots⟩ := GPUInputBatch.exists_contextSpec hinput hindex
    exact ⟨slots, hslots⟩
  have hints := intBatch_of_dispatched hdispatched h.fits h.headDim_pos batchId
  have hholds := h.deviceHolds hdispatched batchId
  have hrows := fun index (hindex : index < items.length) => hdispatched.softmaxRow_eq batchId
    headDim (fun token => tokenKey (CInt.wrap token)) (fun token => tokenValue (CInt.wrap token))
      hindex
  have hrequests : (GPUInputBatch.ofItems config.blockSize ⟨batchId, items⟩).numRequests =
      items.length := GPUInputBatch.numRequests_ofItems _
  generalize GPUInputBatch.ofItems config.blockSize ⟨batchId, items⟩ = input at *
  have hroom : input.numRequests * headDim ≤ device.attentionOutput.length := by
    rw [h.intact.attentionOutput, hrequests]
    exact Nat.mul_le_mul_right _ hs.length_le_maxNumSeqs
  have hlaunch : ∀ index < items.length, ∀ slots,
      GPUInputBatch.ContextSpec config.blockSize input index slots → ∃ outputs,
        schedule.launch input.numRequests (batchedLastTokenAttentionKernel (batchInputs device input
          (CudaKernelRuntime.array (input.isDecode.map fun value => if value then 1 else 0)))
            input.numRequests) device.attentionOutput = some outputs ∧
        ∀ dim < headDim, outputs[index * headDim + dim]? = (softmaxRow headDim
          (fun slot => tokenKey (CInt.wrap (tokenAt (Paging.write store (batchPairs items)) slot)))
          (fun slot => tokenValue
            (CInt.wrap (tokenAt (Paging.write store (batchPairs items)) slot))) slots)[dim]? :=
    fun index hindex slots hslots => launch_batched config.blockSize_pos hspecs hints.toIntsFit
      hholds (length_flags hfit) hroom (hrequests.symm ▸ hindex) hslots
  obtain ⟨_, slots, _, hslots, _⟩ := hrows 0 hpos
  obtain ⟨outputs, hrun, _⟩ := hlaunch 0 hpos slots hslots
  have hstatus : device.attentionBatchStatus (input.blockTables.headD []).length
      input.numRequests = 0 := by
    have hblocks := hs.length_le_numGpuBlocks
    have hseats := hs.length_le_maxNumSeqs
    rw [NativeRuntime.attentionBatchStatus, h.intact.sizes_eq, hrequests, hfit.width, if_neg ?_]
    simp only [NativeRuntime.ofConfig]
    omega
  refine ⟨outputs, ?_, ?_, fun index hindex => ?_⟩
  · rw [attentionBatchDevice_eq hfit hints hstatus, hrun]
    rfl
  · exact (h.intact.launch_attention hrun).attentionOutput.trans h.intact.attentionOutput.symm
  · obtain ⟨r, slots, hr, hslots, hrow⟩ := hrows index hindex
    obtain ⟨outputs', hrun', hcells⟩ := hlaunch index hindex slots hslots
    obtain rfl := Option.some.inj (hrun.symm.trans hrun')
    refine ⟨r, hr, fun dim hdim => ?_⟩
    rw [intRow, ← hrow]
    exact hcells dim hdim

/-- What a bootstrap runner leaves on its device for the items of a batch. -/
def BatchServed (headDim : ℕ) (s : Scheduler) (sampled : Dict RequestId TokenId)
    (items : List WorkerItem) (device : NativeDevice EReal) : Prop :=
  ∀ index (hindex : index < items.length), ∃ row,
    (∀ dim < headDim, device.attentionOutput[index * headDim + dim]? = row[dim]?) ∧
      ItemServed (intRow headDim) s sampled items[index] row

theorem checked_of_eq {β : Type} {operation : String} {call : Option (ℕ × NativeDevice EReal)}
    {next : NativeDevice EReal → Option (Except PyError β × NativeDevice EReal)}
    {device : NativeDevice EReal} (h : call = some (0, device)) :
    CudaBootstrapModelRunner.checked operation call next = next device := by
  rw [h]
  rfl

/-- `execute_model` on a dispatched batch. -/
theorem Mirrors.exists_executeModel (h : Mirrors config headDim store device)
    (hdispatched : Dispatched config s admitted items m' store) (batchId : ℕ)
    (schedule schedule' : Launch.Schedule) :
    ∃ sampled device', CudaBootstrapModelRunner.executeModel schedule schedule' device
        (GPUInputBatch.ofItems config.blockSize ⟨batchId, items⟩) = some (.ok sampled, device') ∧
      BootstrapModelRunner.sample (GPUInputBatch.ofItems config.blockSize ⟨batchId, items⟩) =
        .ok sampled ∧
      Mirrors config headDim (Paging.write store (batchPairs items)) device' ∧
      BatchServed headDim (admitted.withCache m') sampled items device' := by
  have hs := hdispatched.scheduled
  obtain ⟨caches, happend, _, _, happended⟩ := h.exists_append hdispatched batchId schedule
  obtain ⟨outputs, hattend, hlength, hrows⟩ :=
    happended.exists_attend hdispatched batchId schedule'
  obtain ⟨sampled, hsampled, htokens⟩ :=
    BootstrapModelRunner.exists_sample_dispatched hdispatched batchId
  refine ⟨sampled, { device with caches := caches, attentionOutput := outputs }, ?_, hsampled,
    { happended with
      intact := { happended.intact with
        attentionOutput := hlength.trans happended.intact.attentionOutput } },
    fun index hindex => ?_⟩
  · have hwidth : (GPUInputBatch.ofItems config.blockSize ⟨batchId, items⟩).tableWidth =
        .ok (GPUInputBatch.widthOf config.blockSize items) :=
      GPUInputBatch.tableWidth_ofItems hdispatched.ne hs.valid
    rw [CudaBootstrapModelRunner.executeModel, checked_of_eq happend]
    simp only [hwidth, checked_of_eq hattend, hsampled]
  · obtain ⟨r, hr, hcells⟩ := hrows index hindex
    exact ⟨_, hcells, r, hr, htokens _ (List.getElem_mem hindex) r hr, rfl⟩

/-! ## The decode graph -/

theorem decodeBatch_of_dispatched (hdispatched : Dispatched config s admitted items m' store)
    (batchId : ℕ)
    (huniform : (GPUInputBatch.ofItems config.blockSize
      ⟨batchId, items⟩).descriptor.uniformDecode = true) :
    DecodeBatch (.ofConfig config)
      (CudaKernelRuntime.array (intsOf
        (GPUInputBatch.ofItems config.blockSize ⟨batchId, items⟩).inputIds))
      (GPUInputBatch.ofItems config.blockSize ⟨batchId, items⟩).slotMapping
      (GPUInputBatch.ofItems config.blockSize ⟨batchId, items⟩).blockTables
      (GPUInputBatch.widthOf config.blockSize items)
      (GPUInputBatch.ofItems config.blockSize ⟨batchId, items⟩).seqLens := by
  have hs := hdispatched.scheduled
  have haccepted := hs.accepted hdispatched.ne hdispatched.limit batchId
  have hdecode := hdispatched.decodeBatch batchId huniform
  have hslots := hdecode.slotMapping
  refine ⟨?_, ?_, ?_, ?_, ?_, ?_, hs.slots_nodup, haccepted.slots, hdecode.tables,
    widthOf_le hdispatched.limit, fun request hrequest block hblock => ?_⟩
  · rw [hslots]
    exact hdecode.pos
  · rw [hslots]
    exact hs.length_le_numGpuBlocks
  · rw [length_array, length_intsOf, hslots, hdecode.inputIds]
  · rw [hslots, hdecode.seqLens]
  · rw [hslots, hdecode.blockTables]
  · intro seqLen hseqLen
    obtain ⟨item, hitem, rfl⟩ := List.mem_map.mp hseqLen
    have htokens := List.length_pos_of_ne_nil (hs.valid item hitem).tokenIds_ne
    have hseq := (hs.valid item hitem).seqLen_eq
    omega
  · rw [hslots] at hrequest
    obtain ⟨row, htable, hwalk⟩ := (hdispatched.rowSpec batchId hrequest).table
    have hseqLen : (GPUInputBatch.ofItems config.blockSize ⟨batchId, items⟩).seqLens.getD request 0 =
        items[request].seqLen := by
      show (items.map (·.seqLen)).getD request 0 = _
      rw [List.getD_eq_getElem _ _ (by simpa using hrequest), List.getElem_map]
    rw [hseqLen] at hblock
    have hlt : block * config.blockSize < items[request].seqLen :=
      (Tiling.lt_tileCount_iff config.blockSize_pos).mp hblock
    obtain ⟨id, hid, hslot⟩ := hwalk _ hlt
    rw [Nat.mul_div_cancel _ config.blockSize_pos] at hid
    refine ⟨id, ?_, ?_⟩
    · have hcache := hs.slot_lt (List.getElem_mem hrequest) hlt
      rw [← hslot, Nat.mul_mod_left, Nat.add_zero] at hcache
      exact Nat.lt_of_mul_lt_mul_right hcache
    · rw [List.getD_eq_getElem?_getD, htable]
      exact hid

/-- The rows of the decode graph are those of the eager call. -/
theorem Mirrors.entryOf_eq {caches : KVCaches EReal}
    (h : Mirrors config headDim (Paging.write store (batchPairs items))
      { device with caches := caches })
    (hdispatched : Dispatched config s admitted items m' store) (batchId : ℕ)
    (huniform : (GPUInputBatch.ofItems config.blockSize
      ⟨batchId, items⟩).descriptor.uniformDecode = true)
    {index : ℕ} (hindex : index < items.length) :
    ∃ r, admitted.running.get? items[index].requestId = some r ∧ ∀ dim < headDim,
      some (entryOf (.ofConfig config) headDim caches
          (GPUInputBatch.ofItems config.blockSize ⟨batchId, items⟩).blockTables
          (GPUInputBatch.ofItems config.blockSize ⟨batchId, items⟩).seqLens index dim) =
        (intRow headDim (r.allTokenIds.take items[index].seqLen))[dim]? := by
  have hs := hdispatched.scheduled
  have hbatch := decodeBatch_of_dispatched hdispatched batchId huniform
  have hdecode := hdispatched.decodeBatch batchId huniform
  have hfit := arraysFit_ofItems batchId hdispatched.ne hs.valid
  have hints := intBatch_of_dispatched hdispatched h.fits h.headDim_pos batchId
  obtain ⟨outputs, hattend, _, hrows⟩ := h.exists_attend hdispatched batchId .sequential
  obtain ⟨r, hr, hcells⟩ := hrows index hindex
  have hslots : (GPUInputBatch.ofItems config.blockSize ⟨batchId, items⟩).slotMapping.length =
      (GPUInputBatch.ofItems config.blockSize ⟨batchId, items⟩).numRequests :=
    hdecode.slotMapping.trans hdecode.numRequests.symm
  have hflags := hdecode.isDecode
  rw [← hdecode.numRequests] at hflags
  have hrequest : index < (GPUInputBatch.ofItems config.blockSize ⟨batchId, items⟩).numRequests :=
    hdecode.numRequests.symm ▸ hindex
  refine ⟨r, hr, fun dim hdim => ?_⟩
  generalize GPUInputBatch.ofItems config.blockSize ⟨batchId, items⟩ = input at *
  have hcontext : (CudaKernelRuntime.array (intsOf input.contextStartLoc))[
      input.slotMapping.length]? =
        some ((CudaKernelRuntime.array (intsOf input.contextSlotMapping)).length : ℤ) := by
    rw [← Buffer.load_natCast, hslots, load_array hfit.context hints.context, length_array,
      length_intsOf]
  have hstarts : (CudaKernelRuntime.array (intsOf input.contextStartLoc)).length =
      input.slotMapping.length + 1 := by
    rw [length_array, length_intsOf, hfit.contextStartLoc, hslots]
  obtain ⟨outputs', heager, hstored⟩ := h.intact.exists_attentionBatch
    (h.fits.ready h.headDim_pos) hbatch
    (hslots.trans_le (hdecode.numRequests.trans_le hs.length_le_maxNumSeqs)) .sequential hstarts
    hcontext
  rw [CudaKernelRuntime.attentionBatchDevice, hints.array_tables,
    CudaKernelRuntime.array_intsOf hints.seqLens, CudaKernelRuntime.array_flags,
    CInt.wrap_natCast hints.width, CInt.wrap_natCast (Nat.lt_of_succ_lt hints.numRequests),
    hfit.width, hflags, List.map_replicate] at hattend
  rw [hslots] at heager hstored
  obtain rfl : outputs = outputs' :=
    congrArg (fun pair : ℕ × NativeDevice EReal => pair.2.attentionOutput)
      (Option.some.inj (hattend.symm.trans heager))
  rw [← hcells dim hdim, ← hstored.stored index hrequest dim hdim]
  rfl

theorem Mirrors.exists_executeCudagraph (h : Mirrors config headDim store device)
    (hdispatched : Dispatched config s admitted items m' store) (batchId : ℕ) {captureSize : ℕ}
    (hdispatch : ((CUDAGraphDispatcher.ofConfig config).dispatch
      (GPUInputBatch.ofItems config.blockSize ⟨batchId, items⟩).descriptor).captureSize =
        some captureSize) (schedule schedule' : Launch.Schedule) :
    ∃ sampled device', CudaBootstrapModelRunner.executeCudagraph schedule schedule' device
        (GPUInputBatch.ofItems config.blockSize ⟨batchId, items⟩) captureSize =
          some (.ok sampled, device') ∧
      BootstrapModelRunner.sample (GPUInputBatch.ofItems config.blockSize ⟨batchId, items⟩) =
        .ok sampled ∧
      Mirrors config headDim (Paging.write store (batchPairs items)) device' ∧
      BatchServed headDim (admitted.withCache m') sampled items device' := by
  have hs := hdispatched.scheduled
  have haccepted := hs.accepted hdispatched.ne hdispatched.limit batchId
  obtain ⟨huniform, _, hsize, hcapture⟩ := CUDAGraphDispatcher.of_dispatch hdispatch
  have hsize' : (GPUInputBatch.ofItems config.blockSize ⟨batchId, items⟩).numRequests ≤
      captureSize := hsize
  have hbatch := decodeBatch_of_dispatched hdispatched batchId huniform
  have hdecode := hdispatched.decodeBatch batchId huniform
  have hfit := arraysFit_ofItems batchId hdispatched.ne hs.valid
  have hints := intBatch_of_dispatched hdispatched h.fits h.headDim_pos batchId
  have hpairs := kvPairs_ofItems ⟨batchId, items⟩ hs.valid
  have hslots : (GPUInputBatch.ofItems config.blockSize ⟨batchId, items⟩).slotMapping.length =
      (GPUInputBatch.ofItems config.blockSize ⟨batchId, items⟩).numRequests :=
    hdecode.slotMapping.trans hdecode.numRequests.symm
  have htokens : (GPUInputBatch.ofItems config.blockSize ⟨batchId, items⟩).slotMapping.length =
      (GPUInputBatch.ofItems config.blockSize ⟨batchId, items⟩).inputIds.length :=
    hdecode.slotMapping.trans hdecode.inputIds.symm
  obtain ⟨caches, _, hsized, hstored, happended⟩ :=
    h.exists_append hdispatched batchId .sequential
  have hentries := fun index (hindex : index < items.length) =>
    happended.entryOf_eq hdispatched batchId huniform hindex
  obtain ⟨sampled, hsampled, hresponse⟩ :=
    BootstrapModelRunner.exists_sample_dispatched hdispatched batchId
  rw [Worker.kvPairs] at hpairs
  generalize GPUInputBatch.ofItems config.blockSize ⟨batchId, items⟩ = input at *
  have hready := h.fits.ready h.headDim_pos
  have hcaptureLt : captureSize < 2 ^ 31 :=
    hcapture.trans_lt (h.fits.fitsInt h.headDim_pos).maxNumSeqs
  have hscratch : config.numGpuBlocks * config.blockSize + captureSize ≤ 2 ^ 31 :=
    (Nat.add_le_add_left hcapture _).trans hready.slots_le
  have hcapacity := (hslots.trans_le hsize').trans hcapture
  obtain ⟨loaded, hloaded, hcaches, _, hexecute⟩ := h.intact.exists_loaded hbatch
    config.blockSize_pos (hslots.trans_le hsize') hcapture hscratch (hready.count_lt hcapture)
    (hbatch.entries_lt hready hcapacity) schedule schedule'
  obtain ⟨graphCaches, outputs, hlaunch, hreplayed, hcells, hrows⟩ :=
    hloaded.exists_launchGraph hbatch hready (hslots.trans_le hsize') hcapture hsized
      (hcaches.symm ▸ hstored) schedule schedule'
  refine ⟨sampled, _, ?_, hsampled, hpairs ▸ h.of_rowsStored htokens haccepted.slots hstored
    hreplayed.intact hcells, fun index hindex => ?_⟩
  · rw [CudaBootstrapModelRunner.executeCudagraph, huniform, if_neg (by decide),
      GPUInputBatch.tableWidth_of_forall ?_ hfit.tables]
    · rw [hlaunch] at hexecute
      dsimp only
      rw [CudaKernelRuntime.executeDecodeGraphDevice, CudaKernelRuntime.array_intsOf
        hints.slotMapping, hints.array_tables, CudaKernelRuntime.array_intsOf hints.seqLens,
        CInt.wrap_natCast hints.width, CInt.wrap_natCast (Nat.lt_of_succ_lt hints.numRequests),
        CInt.wrap_natCast hcaptureLt, hfit.width, ← hslots, checked_of_eq hexecute, hsampled]
    · rw [← List.length_pos_iff_ne_nil, hdecode.blockTables]
      exact hdecode.pos
  · obtain ⟨r, hr, hentry⟩ := hentries index hindex
    have hrequest : index < input.slotMapping.length := hdecode.slotMapping.symm ▸ hindex
    refine ⟨_, fun dim hdim => ?_, r, hr, hresponse _ (List.getElem_mem hindex) r hr, rfl⟩
    rw [← hentry dim hdim]
    have hcell := hrows.stored index (hrequest.trans_le (hslots.trans_le hsize')) dim hdim
    rwa [id, show sourceRow input.slotMapping.length index = index from if_pos hrequest] at hcell

/-- What the Worker of a configuration does with a dispatched batch, in the mode the dispatcher
picks for it. -/
theorem Mirrors.exists_execute (h : Mirrors config headDim store device)
    (hdispatched : Dispatched config s admitted items m' store) (batchId : ℕ)
    (schedule schedule' : Launch.Schedule) :
    ∃ sampled device', CudaBootstrapModelRunner.execute config schedule schedule' device
        (GPUInputBatch.ofItems config.blockSize ⟨batchId, items⟩) = some (.ok sampled, device') ∧
      BootstrapModelRunner.sample (GPUInputBatch.ofItems config.blockSize ⟨batchId, items⟩) =
        .ok sampled ∧
      Mirrors config headDim (Paging.write store (batchPairs items)) device' ∧
      BatchServed headDim (admitted.withCache m') sampled items device' := by
  rw [CudaBootstrapModelRunner.execute, CUDAGraphManager.execute]
  cases hdispatch : ((CUDAGraphDispatcher.ofConfig config).dispatch
      (GPUInputBatch.ofItems config.blockSize ⟨batchId, items⟩).descriptor).captureSize with
  | none =>
      dsimp only
      exact h.exists_executeModel hdispatched batchId schedule schedule'
  | some captureSize =>
      simp only [if_true]
      exact h.exists_executeCudagraph hdispatched batchId hdispatch schedule schedule'

end Mirroring

end NativeDevice

namespace CudaBootstrapModelRunner

/-- The ways in which the runner may execute a batch: one for each order of the threads. -/
def Executes (config : EngineConfig) : BatchRelation (NativeDevice EReal) :=
  fun device input outcome device' => ∃ schedule schedule',
    execute config schedule schedule' device input = some (outcome, device')

theorem refines (config : EngineConfig) (headDim : ℕ) :
    (Executes config).Refines config BootstrapModelRunner.sample
      (NativeDevice.Mirrors config headDim) := by
  constructor
  · intro s admitted items m' store device device' outcome batchId h hmirrors hexecutes
    obtain ⟨schedule, schedule', hexecute⟩ := hexecutes
    obtain ⟨sampled, device'', hexecute', hsampled, hmirrors', _⟩ :=
      hmirrors.exists_execute h batchId schedule schedule'
    obtain ⟨rfl, rfl⟩ := Prod.mk.inj (Option.some.inj (hexecute'.symm.trans hexecute))
    exact ⟨hsampled.symm, hmirrors'⟩
  · intro s admitted items m' store device batchId h hmirrors
    obtain ⟨sampled, device', hexecute, _⟩ :=
      hmirrors.exists_execute h batchId .sequential .sequential
    exact ⟨_, device', .sequential, .sequential, hexecute⟩

end CudaBootstrapModelRunner

section Runs

variable {config : EngineConfig} {tokenizer : Tokenizer} {headDim : ℕ} {floats : ℕ → EReal}
  {ints : ℕ → ℤ} {device : NativeDevice EReal} {τs : List (WorkerTransition (NativeDevice EReal))}
  {w : WorkerWorld (NativeDevice EReal)}

/-- As long as the kernels' `int`s hold the sizes, in every run with a Worker over the native
runtime, on any order of the threads, the next batch is executed within the buffers and without an
error, eagerly or as a graph: every item that samples gets the next token of the response, and every
output row is the softmax attention over the known tokens of its own request. -/
theorem cuda_worker_attends
    (hcreate : NativeDevice.create (CudaKernelRuntime.createArgs config headDim) floats ints =
      some device) (hfits : config.FitsNative headDim)
    (h : WorkerTrace config tokenizer (CudaBootstrapModelRunner.Executes config) device τs w)
    (hloop : w.core.stopped = false) {schedule : Schedule} {s' : Scheduler}
    (hschedule : (Scheduler.schedule config).run w.core.scheduler = .ok schedule s')
    {items : List WorkerItem} (hbatch : schedule.byRank.get? (some 0) = some items)
    (batchId : ℕ) :
    ∃ input, GPUInputBatch.fromWorkerBatch ⟨batchId, items⟩ config.blockSize = .ok input ∧
      ∀ threads threads' : Launch.Schedule, ∃ sampled device',
        CudaBootstrapModelRunner.execute config threads threads' w.worker input =
          some (.ok sampled, device') ∧
        NativeDevice.BatchServed headDim s' sampled items device' := by
  have hserved := WorkerTrace.served h (CudaBootstrapModelRunner.refines config headDim)
    BootstrapModelRunner.samplesAsked (NativeDevice.mirrors_create hfits hcreate)
  obtain ⟨store, admitted, m', hdispatched, hmirrors, rfl⟩ :=
    hserved.dispatched BootstrapModelRunner.samplesAsked hloop hschedule hbatch
  refine ⟨_, GPUInputBatch.fromWorkerBatch_eq ⟨batchId, items⟩ config.blockSize_pos hdispatched.ne
    hdispatched.scheduled.valid, fun threads threads' => ?_⟩
  obtain ⟨sampled, device', hexecute, _, _, hrows⟩ :=
    hmirrors.exists_execute hdispatched batchId threads threads'
  exact ⟨sampled, device', hexecute, hrows⟩

/-- Over a device whose `int`s hold the sizes, a request that ended with STOP or LENGTH got the
response, cut where its stop strings, its token limit or the context limit first cut it. -/
theorem cuda_worker_responds {τs : List (WorkerTransition (NativeDevice EReal))}
    {w : WorkerWorld (NativeDevice EReal)}
    (hcreate : NativeDevice.create (CudaKernelRuntime.createArgs config headDim) floats ints =
      some device) (hfits : config.FitsNative headDim)
    (h : WorkerTrace config characterTokenizer (CudaBootstrapModelRunner.Executes config) device τs
      w)
    (honce : (addedIds (τs.map (Transition.map WorkerWorld.core))).Nodup) {request : EngineRequest}
    (hrequest : request ∈ addedRequests (τs.map (Transition.map WorkerWorld.core)))
    {output : RequestOutput}
    (houtput : output ∈ emitted request.requestId (τs.map (Transition.map WorkerWorld.core)))
    {reason : FinishReason} (hreason : output.finishReason = some reason)
    (hends : reason = .stop ∨ reason = .length) :
    (tokensOf (emitted request.requestId (τs.map (Transition.map WorkerWorld.core))), reason) =
      BootstrapModelRunner.response config request.samplingParams
        request.promptTokenIds.length := by
  have hserved := WorkerTrace.served h (CudaBootstrapModelRunner.refines config headDim)
    BootstrapModelRunner.samplesAsked (NativeDevice.mirrors_create hfits hcreate)
  exact ReportedTrace.response_eq hserved.reported honce hrequest houtput hreason hends

end Runs

/-! ## A graph -/

def respondedAlone : List Event :=
  [.command (.add (requestOf "a" [10, 11])), .engineStep [executedOf 1 1 2 0 [("a", 35)]]]

/-- The ids of a batch, and the size of the graph that is picked for it. -/
def pickedFor (config : EngineConfig) (items : List WorkerItem) :
    List RequestId × Option (Option ℕ) :=
  (items.map (·.requestId),
    (GPUInputBatch.fromWorkerBatch ⟨2, items⟩ config.blockSize).toOption.map fun input =>
      ((CUDAGraphDispatcher.ofConfig config).dispatch input.descriptor).captureSize)

theorem exists_responded_alone : ∃ τs core schedule s' items,
    ReportedTrace graphConfig characterTokenizer BootstrapModelRunner.sample τs core ∧
      core.stopped = false ∧ (Scheduler.schedule graphConfig).run core.scheduler = .ok schedule s' ∧
      schedule.byRank.get? (some 0) = some items ∧
      pickedFor graphConfig items = (["a"], some (some 1)) :=
  exists_responded_of respondedAlone (by decide +kernel) (by decide)

theorem exists_graphDevice : graphConfig.FitsNative CudaKernelRuntime.defaultHeadDim ∧
    ∃ device : NativeDevice EReal,
      NativeDevice.create (CudaKernelRuntime.createArgs graphConfig
        CudaKernelRuntime.defaultHeadDim) (fun _ => 0) (fun _ => 0) = some device := by
  have hargs : CudaKernelRuntime.createArgs graphConfig CudaKernelRuntime.defaultHeadDim =
      ⟨(0 : ℕ), (graphConfig.numGpuBlocks : ℕ), (graphConfig.blockSize : ℕ),
        (CudaKernelRuntime.defaultHeadDim : ℕ), (graphConfig.maxNumSeqs : ℕ),
        (graphConfig.maxModelLen : ℕ)⟩ := by decide
  obtain ⟨device, hcreate, _⟩ := NativeDevice.exists_create (fun _ => (0 : EReal)) (fun _ => 0)
    graphConfig.numGpuBlocks_pos graphConfig.blockSize_pos
    (by decide : 0 < CudaKernelRuntime.defaultHeadDim) graphConfig.maxNumSeqs_pos
    graphConfig.maxModelLen_pos (by decide) (by decide) (by decide)
  exact ⟨⟨⟨by decide, by decide, by decide⟩, by decide, by decide⟩, device, hargs ▸ hcreate⟩

theorem cuda_worker_attends_graph : ∃ device τs w schedule s' items input,
    WorkerTrace graphConfig characterTokenizer (CudaBootstrapModelRunner.Executes graphConfig)
        device τs w ∧
      (Scheduler.schedule graphConfig).run w.core.scheduler = .ok schedule s' ∧
      pickedFor graphConfig items = (["a"], some (some 1)) ∧
      GPUInputBatch.fromWorkerBatch ⟨2, items⟩ graphConfig.blockSize = .ok input ∧
      ∀ threads threads' : Launch.Schedule, ∃ sampled device',
        CudaBootstrapModelRunner.execute graphConfig threads threads' w.worker input =
          some (.ok sampled, device') ∧
        NativeDevice.BatchServed CudaKernelRuntime.defaultHeadDim s' sampled items device' := by
  obtain ⟨hfits, device, hcreate⟩ := exists_graphDevice
  obtain ⟨τs, core, schedule, s', items, hreported, hloop, hschedule, hbatch, hpicked⟩ :=
    exists_responded_alone
  obtain ⟨ωs, w, hrun, rfl, rfl⟩ := ((CudaBootstrapModelRunner.refines graphConfig
    CudaKernelRuntime.defaultHeadDim).exists_workerTrace_iff
      BootstrapModelRunner.samplesAsked (NativeDevice.mirrors_create hfits hcreate)).mpr hreported
  obtain ⟨input, hinput, hexecute⟩ :=
    cuda_worker_attends hcreate hfits hrun hloop hschedule hbatch 2
  exact ⟨device, ωs, w, schedule, s', items, input, hrun, hschedule, hpicked, hinput, hexecute⟩

/-- A request that ends after two tokens, as its graph is replayed. -/
def respondedTwice : List Event :=
  [.command (.add { requestOf "a" [10, 11] with
      samplingParams := { SamplingParams.defaults with
        maxTokens := 2
        maxTokens_pos := Nat.two_pos } }),
    .engineStep [executedOf 1 1 2 0 [("a", 35)]], .engineStep [executedOf 2 1 0 1 [("a", 112)]]]

theorem cuda_worker_responds_twice : ∃ device τs w,
    ∃ request ∈ addedRequests (τs.map (Transition.map WorkerWorld.core)),
      WorkerTrace graphConfig characterTokenizer (CudaBootstrapModelRunner.Executes graphConfig)
        device τs w ∧
      request.requestId = "a" ∧
      (tokensOf (emitted request.requestId (τs.map (Transition.map WorkerWorld.core))), .length) =
        BootstrapModelRunner.response graphConfig request.samplingParams
          request.promptTokenIds.length := by
  have hsome : (driveWorker graphConfig characterTokenizer samplingRunner () respondedTwice).map
      (fun run => ((addedRequests (run.1.map (Transition.map WorkerWorld.core))).map
          (·.requestId),
        (emitted "a" (run.1.map (Transition.map WorkerWorld.core))).any
          (fun output => output.finishReason = some .length))) = some (["a"], true) := by
    decide +kernel
  obtain ⟨hfits, device, hcreate⟩ := exists_graphDevice
  obtain ⟨⟨τs, w⟩, hdrive, hrun⟩ := Option.map_eq_some_iff.mp hsome
  obtain ⟨hadded, hlength⟩ := Prod.mk.inj hrun
  dsimp only at hadded hlength
  have hreported := reported_of_samplingRunner hdrive (by decide)
  obtain ⟨ωs, w', htrace, hhistory, _⟩ := ((CudaBootstrapModelRunner.refines graphConfig
    CudaKernelRuntime.defaultHeadDim).exists_workerTrace_iff
      BootstrapModelRunner.samplesAsked (NativeDevice.mirrors_create hfits hcreate)).mpr hreported
  rw [← hhistory] at hadded hlength
  obtain ⟨output, houtput, hreason⟩ := List.any_eq_true.mp hlength
  have hmem : "a" ∈ (addedRequests (ωs.map (Transition.map WorkerWorld.core))).map
      (·.requestId) := hadded ▸ List.mem_cons_self
  obtain ⟨request, hrequest, hid⟩ := List.mem_map.mp hmem
  have honce : (addedIds (ωs.map (Transition.map WorkerWorld.core))).Nodup := by
    rw [addedIds_eq, hadded]
    decide
  exact ⟨device, ωs, w', request, hrequest, htrace, hid, cuda_worker_responds hcreate hfits htrace honce
    hrequest (hid.symm ▸ houtput) (of_decide_eq_true hreason) (Or.inr rfl)⟩

end MiniVLLM
