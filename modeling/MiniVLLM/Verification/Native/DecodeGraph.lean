import MiniVLLM.Library.Ragged
import MiniVLLM.Library.Tiling
import MiniVLLM.Verification.Native.Device

/-! # The decode graph against the eager calls

Both paths store the same tokens to the same slots, and both read the same slots for a row. The
rows of the padding repeat the last request, and what they store stays in scratch slots. -/

namespace MiniVLLM

open Launch NativeInts

variable {α : Type} [FloatOps α]

/-! ## Paged rows -/

namespace AttentionInputs

variable {inputs : AttentionInputs α} {request seqLen live : ℕ} {start flag : ℤ}
  {blockId : ℕ → ℕ} {key value : ℕ → ℕ → α}

def blockSlot (blockSize : ℕ) (blockId : ℕ → ℕ) (token : ℕ) : ℕ :=
  blockId (token / blockSize) * blockSize + token % blockSize

/-- What a decode row reads. -/
structure PagedRow (inputs : AttentionInputs α) (request seqLen : ℕ) (blockId : ℕ → ℕ)
    (key value : ℕ → ℕ → α) : Prop where
  seqLen_eq : inputs.seqLens request = some (seqLen : ℤ)
  seqLen_pos : 0 < seqLen
  start_eq : ∃ start, inputs.contextStartLocs request = some start
  flag_eq : ∃ flag ≠ 0, inputs.isDecode request = some flag
  block_eq : ∀ token < seqLen,
    (CInt.index request inputs.maxBlocks (token / inputs.blockSize : ℕ)).bind inputs.blockTables =
      some (blockId (token / inputs.blockSize) : ℤ)
  slot_lt : ∀ token < seqLen, blockSlot inputs.blockSize blockId token < 2 ^ 31
  cell_lt : ∀ token < seqLen, ∀ dim < inputs.headDim,
    blockSlot inputs.blockSize blockId token * inputs.headDim + dim < 2 ^ 31
  key_eq : ∀ token < seqLen, ∀ dim < inputs.headDim,
    inputs.keyCache (blockSlot inputs.blockSize blockId token * inputs.headDim + dim : ℕ) =
      some (key (blockSlot inputs.blockSize blockId token) dim)
  value_eq : ∀ token < seqLen, ∀ dim < inputs.headDim,
    inputs.valueCache (blockSlot inputs.blockSize blockId token * inputs.headDim + dim : ℕ) =
      some (value (blockSlot inputs.blockSize blockId token) dim)

def pagedEntry (blockSize headDim seqLen : ℕ) (blockId : ℕ → ℕ) (key value : ℕ → ℕ → α)
    (dim : ℕ) : α :=
  lastTokenRow (fun token => key (blockSlot blockSize blockId token))
    (fun token => value (blockSlot blockSize blockId token)) seqLen headDim dim

theorem PagedRow.row_eq (h : inputs.PagedRow request seqLen blockId key value) :
    inputs.row request = some (some ((List.range inputs.headDim).map
      (pagedEntry inputs.blockSize inputs.headDim seqLen blockId key value))) := by
  obtain ⟨start, hstart⟩ := h.start_eq
  obtain ⟨flag, hne, hflag⟩ := h.flag_eq
  have hslot : ∀ token < seqLen, inputs.slotOf request start flag token =
      some (blockSlot inputs.blockSize blockId token : ℤ) := by
    intro token htoken
    rw [slotOf, if_pos hne]
    exact pagedSlot_natCast (h.block_eq token htoken) (h.slot_lt token htoken)
  have hkey : ∀ token < seqLen, ∀ dim < inputs.headDim,
      (cacheIndex (blockSlot inputs.blockSize blockId token) inputs.headDim dim).bind
        inputs.keyCache = some (key (blockSlot inputs.blockSize blockId token) dim) := by
    intro token htoken dim hdim
    rw [cacheIndex_natCast (h.cell_lt token htoken dim hdim)]
    exact h.key_eq token htoken dim hdim
  have hvalue : ∀ token < seqLen, ∀ dim < inputs.headDim,
      (cacheIndex (blockSlot inputs.blockSize blockId token) inputs.headDim dim).bind
        inputs.valueCache = some (value (blockSlot inputs.blockSize blockId token) dim) := by
    intro token htoken dim hdim
    rw [cacheIndex_natCast (h.cell_lt token htoken dim hdim)]
    exact h.value_eq token htoken dim hdim
  exact AttentionInputs.row_eq h.seqLen_eq h.seqLen_pos hstart hflag hslot hkey hvalue

omit [FloatOps α] in
/-- A row whose blocks are live reads no `-1` entry and no cell behind the live ones. -/
theorem PagedRow.guarded {slots : ℕ} (h : inputs.PagedRow request seqLen blockId key value)
    (hlive : ∀ token < seqLen, blockSlot inputs.blockSize blockId token < slots) :
    (inputs.guarded (slots * inputs.headDim)).PagedRow request seqLen blockId key value where
  seqLen_eq := h.seqLen_eq
  seqLen_pos := h.seqLen_pos
  start_eq := h.start_eq
  flag_eq := h.flag_eq
  block_eq := fun token htoken => by
    obtain ⟨entry, hentry, hread⟩ := Option.bind_eq_some_iff.mp (h.block_eq token htoken)
    refine Option.bind_eq_some_iff.mpr ⟨entry, hentry, ?_⟩
    refine Option.filter_eq_some_iff.mpr ⟨hread, decide_eq_true ?_⟩
    omega
  slot_lt := h.slot_lt
  cell_lt := h.cell_lt
  key_eq := fun token htoken dim hdim =>
    (if_pos (by exact_mod_cast row_lt (hlive token htoken) hdim)).trans
      (h.key_eq token htoken dim hdim)
  value_eq := fun token htoken dim hdim =>
    (if_pos (by exact_mod_cast row_lt (hlive token htoken) hdim)).trans
      (h.value_eq token htoken dim hdim)

end AttentionInputs

/-! ## Batches -/

namespace NativeDevice

variable {sizes : NativeRuntime} {headDim inputMaxBlocks captureSize : ℕ} {tokenIds : List ℤ}
  {slots seqLens : List ℕ} {tables : List (List ℤ)}

/-- A uniform decode batch as the scheduler produces it, in blocks of the runtime. -/
structure DecodeBatch (sizes : NativeRuntime) (tokenIds : List ℤ) (slots : List ℕ)
    (tables : List (List ℤ)) (inputMaxBlocks : ℕ) (seqLens : List ℕ) : Prop where
  requests_pos : 1 ≤ slots.length
  requests_le : slots.length ≤ sizes.numBlocks
  length_tokenIds : tokenIds.length = slots.length
  length_seqLens : seqLens.length = slots.length
  length_tables : tables.length = slots.length
  seqLen_pos : ∀ seqLen ∈ seqLens, 1 ≤ seqLen
  slots_nodup : slots.Nodup
  slot_lt : ∀ slot ∈ slots, slot < sizes.numBlocks * sizes.blockSize
  table_width : ∀ table ∈ tables, table.length = inputMaxBlocks
  inputMaxBlocks_le : inputMaxBlocks ≤ sizes.graphMaxBlocks
  entry : ∀ request < slots.length,
    ∀ block < (seqLens.getD request 0 + sizes.blockSize - 1) / sizes.blockSize,
      ∃ id < sizes.numBlocks, (tables.getD request [])[block]? = some ((id : ℕ) : ℤ)

/-- The blocks of a request. -/
def blockIdOf (tables : List (List ℤ)) (request block : ℕ) : ℕ :=
  ((tables.getD request []).getD block 0).toNat

namespace DecodeBatch

variable {request block : ℕ}

theorem seqLen_getD_pos (h : DecodeBatch sizes tokenIds slots tables inputMaxBlocks seqLens)
    (hrequest : request < slots.length) : 0 < seqLens.getD request 0 := by
  rw [← h.length_seqLens] at hrequest
  rw [List.getD_eq_getElem?_getD, List.getElem?_eq_getElem hrequest]
  exact h.seqLen_pos _ (List.getElem_mem hrequest)

theorem getElem?_table (h : DecodeBatch sizes tokenIds slots tables inputMaxBlocks seqLens)
    (hsize : 0 < sizes.blockSize) (hrequest : request < slots.length) {token : ℕ}
    (htoken : token < seqLens.getD request 0) :
    (tables.getD request [])[token / sizes.blockSize]? =
        some (blockIdOf tables request (token / sizes.blockSize) : ℤ) ∧
      blockIdOf tables request (token / sizes.blockSize) < sizes.numBlocks := by
  obtain ⟨id, hid, hentry⟩ :=
    h.entry request hrequest _ (Tiling.div_lt_tileCount hsize htoken)
  have hblock : blockIdOf tables request (token / sizes.blockSize) = id := by
    rw [blockIdOf, List.getD_eq_getElem?_getD, hentry]
    rfl
  rw [hblock]
  exact ⟨hentry, hid⟩

theorem blockSlot_lt (h : DecodeBatch sizes tokenIds slots tables inputMaxBlocks seqLens)
    (hsize : 0 < sizes.blockSize) (hrequest : request < slots.length) {token : ℕ}
    (htoken : token < seqLens.getD request 0) :
    AttentionInputs.blockSlot sizes.blockSize (blockIdOf tables request) token <
      sizes.numBlocks * sizes.blockSize :=
  row_lt (h.getElem?_table hsize hrequest htoken).2 (Nat.mod_lt _ hsize)

theorem table_mem (h : DecodeBatch sizes tokenIds slots tables inputMaxBlocks seqLens)
    (hrequest : request < slots.length) :
    tables[request]? = some (tables.getD request []) ∧
      (tables.getD request []).length = inputMaxBlocks := by
  rw [← h.length_tables] at hrequest
  rw [List.getD_eq_getElem?_getD, List.getElem?_eq_getElem hrequest]
  exact ⟨rfl, h.table_width _ (List.getElem_mem hrequest)⟩

theorem inputMaxBlocks_pos (h : DecodeBatch sizes tokenIds slots tables inputMaxBlocks seqLens)
    (hsize : 0 < sizes.blockSize) : 0 < inputMaxBlocks := by
  have hrequest : 0 < slots.length := h.requests_pos
  have hentry := (h.getElem?_table hsize hrequest (h.seqLen_getD_pos hrequest)).1
  obtain ⟨hlt, _⟩ := List.getElem?_eq_some_iff.mp hentry
  rw [(h.table_mem hrequest).2] at hlt
  exact Nat.zero_lt_of_lt hlt

theorem slot_getD_lt (h : DecodeBatch sizes tokenIds slots tables inputMaxBlocks seqLens)
    (hrequest : request < slots.length) :
    slots.getD request 0 < sizes.numBlocks * sizes.blockSize := by
  rw [List.getD_eq_getElem?_getD, List.getElem?_eq_getElem hrequest]
  exact h.slot_lt _ (List.getElem_mem hrequest)

theorem slot_getD_inj (h : DecodeBatch sizes tokenIds slots tables inputMaxBlocks seqLens)
    {request' : ℕ} (hrequest : request < slots.length) (hrequest' : request' < slots.length)
    (heq : slots.getD request 0 = slots.getD request' 0) : request = request' := by
  rw [List.getD_eq_getElem?_getD, List.getElem?_eq_getElem hrequest, List.getD_eq_getElem?_getD,
    List.getElem?_eq_getElem hrequest'] at heq
  exact (h.slots_nodup.getElem_inj_iff).mp heq

end DecodeBatch

/-! ## The eager calls -/

section Eager

variable {device : NativeDevice α} {request : ℕ}

def keyAt (caches : KVCaches α) (headDim slot dim : ℕ) : α :=
  caches.keyCache.getD (slot * headDim + dim) 0

def valueAt (caches : KVCaches α) (headDim slot dim : ℕ) : α :=
  caches.valueCache.getD (slot * headDim + dim) 0

theorem cell_eq {caches : KVCaches α} {capacity slot dim : ℕ}
    (hsized : caches.Sized (capacity * headDim)) (hslot : slot < capacity) (hdim : dim < headDim) :
    caches.cell (slot * headDim + dim) =
      (some (keyAt caches headDim slot dim), some (valueAt caches headDim slot dim)) := by
  have hcell := row_lt hslot hdim
  have hkey := hsized.1.symm ▸ hcell
  have hvalue := hsized.2.symm ▸ hcell
  rw [KVCaches.cell, keyAt, valueAt, List.getD_eq_getElem?_getD, List.getD_eq_getElem?_getD,
    List.getElem?_eq_getElem hkey, List.getElem?_eq_getElem hvalue]
  rfl

theorem length_intsOf (values : List ℕ) : (intsOf values).length = values.length :=
  List.length_map ..

theorem getD_intsOf (values : List ℕ) (i : ℕ) : (intsOf values).getD i 0 = (values.getD i 0 : ℤ) := by
  rw [List.getD_eq_getElem?_getD, List.getD_eq_getElem?_getD, intsOf, List.getElem?_map]
  cases values[i]? <;> rfl

theorem load_getD {values : List ℤ} {i : ℕ} (h : i < values.length) :
    Buffer.load values (i : ℕ) = some (values.getD i 0) := by
  rw [Buffer.load_natCast, List.getElem?_eq_getElem h, List.getD_eq_getElem?_getD,
    List.getElem?_eq_getElem h]
  rfl

theorem load_intsOf_getD {values : List ℕ} {i : ℕ} (h : i < values.length) :
    Buffer.load (intsOf values) (i : ℕ) = some (values.getD i 0 : ℤ) := by
  rw [load_getD ((length_intsOf values).symm ▸ h), getD_intsOf]

/-- `mvllm_append` launches its kernel on copies of its arrays. -/
theorem Intact.append_eq (h : Intact sizes headDim device) {count : ℕ} {slots : List ℤ}
    (htokens : count = tokenIds.length) (hslots : count = slots.length)
    (hpos : 0 < count * headDim) (hblocks : count * headDim + 256 < 2 ^ 31)
    (schedule : Launch.Schedule) :
    device.append schedule tokenIds slots count =
      (schedule.launch ((count * headDim + 256 - 1) / 256 * 256)
        (appendKernel tokenIds slots count headDim) device.caches).map
          fun caches => (0, { device with caches := caches }) := by
  have htotal : CInt.mul (count : ℤ) (headDim : ℤ) = some ((count * headDim : ℕ) : ℤ) :=
    CInt.mul_natCast (by omega)
  rw [append, if_neg (by omega), Int.toNat_natCast, Buffer.copy_eq htokens, Buffer.copy_eq hslots,
    h.headDim_eq]
  simp only [Option.bind_eq_bind, Option.bind_some, htotal]
  rw [if_pos (by omega), appendBlocks_natCast hblocks, Option.bind_some]
  exact Option.map_eq_bind.symm

/-- `mvllm_append` stores the tokens of the batch to their slots. -/
theorem Intact.exists_append (h : Intact sizes headDim device) (hready : sizes.Ready headDim)
    (hbatch : DecodeBatch sizes tokenIds slots tables inputMaxBlocks seqLens)
    (hcapacity : slots.length ≤ sizes.graphCapacityRequests) (schedule : Launch.Schedule) :
    ∃ caches, device.append schedule tokenIds (intsOf slots) slots.length =
        some (0, { device with caches := caches }) ∧
      caches.Sized ((sizes.physicalCacheSlots + sizes.graphCapacityRequests) * headDim) ∧
      RowsStored (cacheEntry (tokenIds.getD · 0)) (slots.getD · 0) slots.length headDim
        device.caches.cell caches.cell := by
  have hcount := hready.count_lt hcapacity
  obtain ⟨caches, hlaunch, hsized, hrows⟩ := exists_launch_appendKernel schedule
    (fun r hr => load_getD (hbatch.length_tokenIds.symm ▸ hr))
    (fun r hr => load_intsOf_getD hr)
    (fun r hr r' hr' heq => hbatch.slot_getD_inj hr hr' heq)
    (fun r hr => (hready.physical_eq.symm ▸ hbatch.slot_getD_lt hr :
      _ < sizes.physicalCacheSlots).trans_le (Nat.le_add_right _ sizes.graphCapacityRequests))
    hready.capacity_le (by omega) h.caches
  have htotal : 0 < slots.length * headDim := Nat.mul_pos hbatch.requests_pos hready.headDim_pos
  refine ⟨caches, ?_, hsized, hrows⟩
  rw [h.append_eq hbatch.length_tokenIds.symm (length_intsOf slots).symm htotal hcount, hlaunch]
  rfl

variable {contextSlots contextStartLocs : List ℤ}

/-- A row that finds the table and the length of a request, and the cells of `caches`, reads what
the request holds. -/
theorem DecodeBatch.pagedRow {inputs : AttentionInputs α} {caches : KVCaches α}
    {source request : ℕ}
    (hbatch : DecodeBatch sizes tokenIds slots tables inputMaxBlocks seqLens)
    (hready : sizes.Ready headDim) (hsource : source < slots.length)
    (hblockSize : inputs.blockSize = sizes.blockSize) (hheadDim : inputs.headDim = headDim)
    (hsized : caches.Sized ((sizes.physicalCacheSlots + sizes.graphCapacityRequests) * headDim))
    (hcells : ∀ i < sizes.numBlocks * sizes.blockSize * headDim,
      (inputs.keyCache (i : ℕ), inputs.valueCache (i : ℕ)) = caches.cell i)
    (hseqLen : inputs.seqLens request = some (seqLens.getD source 0 : ℤ))
    (hstart : ∃ start, inputs.contextStartLocs request = some start)
    (hflag : ∃ flag ≠ 0, inputs.isDecode request = some flag)
    (hindex : ∀ block < inputMaxBlocks, request * inputs.maxBlocks + block < 2 ^ 31)
    (htable : ∀ block < inputMaxBlocks,
      inputs.blockTables (request * inputs.maxBlocks + block : ℕ) =
        (tables.getD source [])[block]?) :
    inputs.PagedRow request (seqLens.getD source 0) (blockIdOf tables source)
      (keyAt caches headDim) (valueAt caches headDim) := by
  have hsize := hready.blockSize_pos
  have hphysical := hready.physical_eq
  have hslot : ∀ token < seqLens.getD source 0,
      AttentionInputs.blockSlot sizes.blockSize (blockIdOf tables source) token <
        sizes.physicalCacheSlots + sizes.graphCapacityRequests := by
    intro token htoken
    have hlt := hbatch.blockSlot_lt hsize hsource htoken
    omega
  have hread : ∀ token < seqLens.getD source 0, ∀ dim < headDim,
      (inputs.keyCache ((AttentionInputs.blockSlot sizes.blockSize (blockIdOf tables source) token *
          headDim + dim : ℕ) : ℤ),
        inputs.valueCache ((AttentionInputs.blockSlot sizes.blockSize (blockIdOf tables source)
          token * headDim + dim : ℕ) : ℤ)) =
        (some (keyAt caches headDim
          (AttentionInputs.blockSlot sizes.blockSize (blockIdOf tables source) token) dim),
        some (valueAt caches headDim
          (AttentionInputs.blockSlot sizes.blockSize (blockIdOf tables source) token) dim)) := by
    intro token htoken dim hdim
    rw [hcells _ (row_lt (hbatch.blockSlot_lt hsize hsource htoken) hdim)]
    exact cell_eq hsized (hslot token htoken) hdim
  refine ⟨hseqLen, hbatch.seqLen_getD_pos hsource, hstart, hflag, fun token htoken => ?_,
    fun token htoken => ?_, fun token htoken dim hdim => ?_, fun token htoken dim hdim => ?_,
    fun token htoken dim hdim => ?_⟩
  · have hentry := (hbatch.getElem?_table hsize hsource htoken).1
    have hlt := (List.getElem?_eq_some_iff.mp hentry).1
    rw [(hbatch.table_mem hsource).2] at hlt
    rw [hblockSize, CInt.index_natCast (hindex _ hlt), Option.bind_some, htable _ hlt, hentry]
  · rw [hblockSize]
    exact (hslot token htoken).trans_le hready.slots_le
  · rw [hblockSize, hheadDim]
    exact (row_lt (hslot token htoken) (hheadDim ▸ hdim)).trans_le hready.capacity_le
  · rw [hblockSize, hheadDim]
    exact congrArg Prod.fst (hread token htoken dim (hheadDim ▸ hdim))
  · rw [hblockSize, hheadDim]
    exact congrArg Prod.snd (hread token htoken dim (hheadDim ▸ hdim))

def eagerInputs (device : NativeDevice α) (contextSlots contextStartLocs : List ℤ)
    (tables : List (List ℤ)) (inputMaxBlocks : ℕ) (seqLens : List ℕ) (numRequests : ℕ) :
    AttentionInputs α :=
  device.attentionInputs contextSlots contextStartLocs tables.flatten inputMaxBlocks
    (intsOf seqLens) (List.replicate numRequests 1)

theorem DecodeBatch.entries_lt
    (hbatch : DecodeBatch sizes tokenIds slots tables inputMaxBlocks seqLens)
    (hready : sizes.Ready headDim) (hcapacity : slots.length ≤ sizes.graphCapacityRequests) :
    slots.length * inputMaxBlocks < 2 ^ 31 :=
  (Nat.mul_le_mul hcapacity hbatch.inputMaxBlocks_le).trans_lt hready.tables

theorem Intact.eager_pagedRow (h : Intact sizes headDim device) (hready : sizes.Ready headDim)
    (hbatch : DecodeBatch sizes tokenIds slots tables inputMaxBlocks seqLens)
    (hcapacity : slots.length ≤ sizes.graphCapacityRequests)
    (hstarts : contextStartLocs.length = slots.length + 1) (hrequest : request < slots.length) :
    (device.eagerInputs contextSlots contextStartLocs tables inputMaxBlocks seqLens
      slots.length).PagedRow request (seqLens.getD request 0) (blockIdOf tables request)
      (keyAt device.caches headDim) (valueAt device.caches headDim) := by
  refine hbatch.pagedRow hready hrequest (congrArg NativeRuntime.blockSize h.sizes_eq) h.headDim_eq
    h.caches (fun i _ => ?_) (load_intsOf_getD (hbatch.length_seqLens.symm ▸ hrequest))
    ⟨_, load_getD (by omega)⟩ ⟨1, one_ne_zero, ?_⟩ (fun block hblock => ?_)
    (fun block hblock => ?_)
  · exact Prod.ext (Buffer.load_natCast ..) (Buffer.load_natCast ..)
  · show Buffer.load (List.replicate slots.length (1 : ℤ)) (request : ℕ) = _
    rw [Buffer.load_natCast, List.getElem?_replicate_of_lt hrequest]
  · exact (row_lt hrequest hblock).trans (hbatch.entries_lt hready hcapacity)
  · exact (Buffer.load_natCast ..).trans
      (Ragged.getElem?_flatten_of_width hbatch.table_width (hbatch.table_mem hrequest).1 hblock)

/-- The output of a request, from the caches. -/
def entryOf (sizes : NativeRuntime) (headDim : ℕ) (caches : KVCaches α) (tables : List (List ℤ))
    (seqLens : List ℕ) (request dim : ℕ) : α :=
  AttentionInputs.pagedEntry sizes.blockSize headDim (seqLens.getD request 0)
    (blockIdOf tables request) (keyAt caches headDim) (valueAt caches headDim) dim

theorem Intact.exists_attentionBatch (h : Intact sizes headDim device)
    (hready : sizes.Ready headDim)
    (hbatch : DecodeBatch sizes tokenIds slots tables inputMaxBlocks seqLens)
    (hcapacity : slots.length ≤ sizes.graphCapacityRequests) (schedule : Launch.Schedule)
    (hstarts : contextStartLocs.length = slots.length + 1)
    (hcontext : contextStartLocs[slots.length]? = some (contextSlots.length : ℤ)) :
    ∃ outputs, device.attentionBatch schedule contextSlots contextStartLocs tables.flatten
        inputMaxBlocks (intsOf seqLens) (List.replicate slots.length 1) slots.length =
          some (0, { device with attentionOutput := outputs }) ∧
      RowsStored (fun r dim => some (entryOf sizes headDim device.caches tables seqLens r dim)) id
        slots.length headDim (device.attentionOutput[·]?) (outputs[·]?) := by
  have hblockSize : device.blockSize = sizes.blockSize :=
    congrArg NativeRuntime.blockSize h.sizes_eq
  have hrows : ∀ request < slots.length,
      (device.eagerInputs contextSlots contextStartLocs tables inputMaxBlocks seqLens
        slots.length).row request = some (some ((List.range device.headDim).map
          (entryOf sizes headDim device.caches tables seqLens request))) := by
    intro request hrequest
    rw [(h.eager_pagedRow hready hbatch hcapacity hstarts hrequest).row_eq]
    show some (some ((List.range device.headDim).map (AttentionInputs.pagedEntry device.blockSize
      device.headDim _ _ _ _))) = _
    rw [hblockSize, h.headDim_eq]
    rfl
  have hroom : slots.length * device.headDim ≤ device.attentionOutput.length := by
    rw [h.attentionOutput, h.headDim_eq]
    exact Nat.mul_le_mul_right _ hcapacity
  obtain ⟨outputs, hlaunch, _, hstored⟩ :=
    AttentionInputs.exists_launch_attention schedule hrows hroom
  have hstatus : device.attentionBatchStatus inputMaxBlocks slots.length = 0 := by
    have hpos := hbatch.inputMaxBlocks_pos hready.blockSize_pos
    have hrequests := hbatch.requests_pos
    have hblocks := hbatch.requests_le
    rw [NativeRuntime.attentionBatchStatus, h.sizes_eq, if_neg (by omega)]
  have htables : tables.flatten.length = slots.length * inputMaxBlocks := by
    rw [List.length_flatten, List.map_congr_left hbatch.table_width, List.map_const',
      List.sum_replicate, hbatch.length_tables, smul_eq_mul]
  have hstart : CInt.add (slots.length : ℤ) 1 = some ((slots.length + 1 : ℕ) : ℤ) := by
    have hlimit := hready.capacity_lt
    have hlt : slots.length + 1 < 2 ^ 31 := by omega
    exact CInt.add_natCast hlt
  refine ⟨outputs, ?_, h.headDim_eq ▸ hstored⟩
  rw [attentionBatch, if_neg (not_not.mpr hstatus), Buffer.load_natCast, hcontext,
    Option.bind_eq_bind, Option.bind_some, if_neg (by omega), hstart,
    CInt.mul_natCast (hbatch.entries_lt hready hcapacity)]
  simp only [Option.bind_eq_bind, Option.bind_some, Int.toNat_natCast,
    Buffer.copy_eq (rfl : contextSlots.length = contextSlots.length), Buffer.copy_eq hstarts.symm,
    Buffer.copy_eq htables.symm,
    Buffer.copy_eq ((length_intsOf seqLens).trans hbatch.length_seqLens).symm,
    Buffer.copy_eq List.length_replicate.symm]
  exact congrArg (fun run : Option (List α) => run.bind fun outputs =>
    some (0, { device with attentionOutput := outputs })) hlaunch

end Eager

/-! ## The graph -/

section Graph

variable {device : NativeDevice α} {request : ℕ}

/-- The slot that a row of the padded batch stores to. -/
def paddedSlot (sizes : NativeRuntime) (slots : List ℕ) (request : ℕ) : ℕ :=
  if request < slots.length then slots.getD request 0 else sizes.physicalCacheSlots + request

/-- A runtime whose static buffers hold the padded batch. -/
structure Loaded (sizes : NativeRuntime) (headDim captureSize : ℕ) (tokenIds : List ℤ)
    (slots : List ℕ) (tables : List (List ℤ)) (inputMaxBlocks : ℕ) (seqLens : List ℕ)
    (device : NativeDevice α) : Prop where
  intact : Intact sizes headDim device
  graph_eq : device.decodeGraphs.get? captureSize = some (graphFor sizes headDim captureSize)
  token_eq : ∀ request < captureSize, device.graphTokenIds[request]? =
    some (tokenIds.getD (sourceRow slots.length request) 0)
  slot_eq : ∀ request < captureSize, device.graphSlots[request]? =
    some (paddedSlot sizes slots request : ℤ)
  seqLen_eq : ∀ request < captureSize, device.graphSeqLens[request]? =
    some (seqLens.getD (sourceRow slots.length request) 0 : ℤ)
  table_eq : ∀ request < captureSize, ∀ block < inputMaxBlocks,
    device.graphBlockTables[request * sizes.graphMaxBlocks + block]? =
      (tables.getD (sourceRow slots.length request) [])[block]?

theorem sourceRow_lt {numRequests : ℕ} (hpos : 1 ≤ numRequests) (request : ℕ) :
    sourceRow numRequests request < numRequests := by
  rw [sourceRow]
  split <;> omega

/-- A static buffer with an entry of its own for each row of the padded batch. -/
theorem exists_overwrite_rows (entry : ℕ → ℤ) {buffer : List ℤ}
    (hroom : captureSize ≤ buffer.length) :
    ∃ buffer', Buffer.overwrite buffer ((List.range captureSize).map entry) = some buffer' ∧
      buffer'.length = buffer.length ∧
      ∀ request < captureSize, buffer'[request]? = some (entry request) := by
  have hlength : ((List.range captureSize).map entry).length = captureSize :=
    (List.length_map ..).trans List.length_range
  obtain ⟨buffer', hwrite, hcells⟩ := Buffer.exists_overwrite (hlength.trans_le hroom)
  refine ⟨buffer', hwrite, Buffer.length_of_overwrite hwrite, fun request hrequest => ?_⟩
  rw [hcells request (hlength.symm ▸ hrequest), List.getElem?_map, List.getElem?_range hrequest]
  rfl

theorem exists_paddedInts {values buffer : List ℤ} {numRequests : ℕ}
    (hvalues : values.length = numRequests) (hpos : 1 ≤ numRequests)
    (hroom : captureSize ≤ buffer.length) :
    ∃ padded buffer', paddedInts numRequests captureSize values = some padded ∧
      Buffer.overwrite buffer padded = some buffer' ∧ buffer'.length = buffer.length ∧
      ∀ request < captureSize,
        buffer'[request]? = some (values.getD (sourceRow numRequests request) 0) := by
  obtain ⟨buffer', hspec⟩ := exists_overwrite_rows
    (fun request => values.getD (sourceRow numRequests request) 0) hroom
  exact ⟨_, buffer', Option.mapM_eq_some fun request _ =>
    load_getD (hvalues.symm ▸ sourceRow_lt hpos request), hspec⟩

theorem exists_paddedSlots {buffer : List ℤ}
    (hscratch : sizes.physicalCacheSlots + captureSize ≤ 2 ^ 31)
    (hroom : captureSize ≤ buffer.length) :
    ∃ padded buffer', paddedSlots slots.length captureSize sizes.physicalCacheSlots
        (intsOf slots) = some padded ∧
      Buffer.overwrite buffer padded = some buffer' ∧ buffer'.length = buffer.length ∧
      ∀ request < captureSize, buffer'[request]? = some (paddedSlot sizes slots request : ℤ) := by
  obtain ⟨buffer', hspec⟩ := exists_overwrite_rows
    (fun request => (paddedSlot sizes slots request : ℤ)) hroom
  refine ⟨_, buffer', Option.mapM_eq_some fun request hrequest => ?_, hspec⟩
  have hlt := List.mem_range.mp hrequest
  rw [paddedSlot]
  by_cases hlive : request < slots.length
  · rw [if_pos hlive, if_pos hlive, sourceRow, if_pos hlive]
    exact load_intsOf_getD hlive
  · rw [if_neg hlive, if_neg hlive]
    exact CInt.add_natCast (by omega)

theorem tableRow_eq (hbatch : DecodeBatch sizes tokenIds slots tables inputMaxBlocks seqLens)
    (hentries : slots.length * inputMaxBlocks < 2 ^ 31) (hrequest : request < slots.length) :
    tableRow tables.flatten inputMaxBlocks request = some (tables.getD request []) := by
  obtain ⟨hmem, hlength⟩ := hbatch.table_mem hrequest
  have hentry : ∀ block ∈ List.range inputMaxBlocks,
      (CInt.index request inputMaxBlocks (block : ℕ)).bind (Buffer.load tables.flatten) =
        some ((tables.getD request []).getD block 0) := by
    intro block hblock
    have hlt := List.mem_range.mp hblock
    rw [CInt.index_natCast ((row_lt hrequest hlt).trans hentries), Option.bind_some,
      Buffer.load_natCast, Ragged.getElem?_flatten_of_width hbatch.table_width hmem hlt,
      ← Buffer.load_natCast]
    exact load_getD (hlength.symm ▸ hlt)
  rw [tableRow, Option.mapM_eq_some hentry]
  refine congrArg some (List.ext_getElem? fun block => ?_)
  rw [List.getElem?_map]
  by_cases hblock : block < inputMaxBlocks
  · rw [List.getElem?_range hblock, Option.map_some, ← load_getD (hlength.symm ▸ hblock),
      Buffer.load_natCast]
  · rw [List.getElem?_eq_none (by simpa using hblock), List.getElem?_eq_none (by omega),
      Option.map_none]

def paddedRow (sizes : NativeRuntime) (tables : List (List ℤ)) (inputMaxBlocks source : ℕ) :
    List ℤ :=
  tables.getD source [] ++ List.replicate (sizes.graphMaxBlocks - inputMaxBlocks) (-1)

theorem length_paddedRow
    (hbatch : DecodeBatch sizes tokenIds slots tables inputMaxBlocks seqLens)
    (hrequest : request < slots.length) :
    (paddedRow sizes tables inputMaxBlocks request).length = sizes.graphMaxBlocks := by
  have hwidth := hbatch.inputMaxBlocks_le
  rw [paddedRow, List.length_append, List.length_replicate, (hbatch.table_mem hrequest).2]
  omega

theorem exists_paddedTables {buffer : List ℤ}
    (hbatch : DecodeBatch sizes tokenIds slots tables inputMaxBlocks seqLens)
    (hentries : slots.length * inputMaxBlocks < 2 ^ 31)
    (hroom : captureSize * sizes.graphMaxBlocks ≤ buffer.length) :
    ∃ padded buffer', paddedTables slots.length captureSize sizes.graphMaxBlocks inputMaxBlocks
        tables.flatten = some padded ∧
      Buffer.overwrite buffer padded.flatten = some buffer' ∧ buffer'.length = buffer.length ∧
      ∀ request < captureSize, ∀ block < inputMaxBlocks,
        buffer'[request * sizes.graphMaxBlocks + block]? =
          (tables.getD (sourceRow slots.length request) [])[block]? := by
  have hsource : ∀ request, sourceRow slots.length request < slots.length :=
    sourceRow_lt hbatch.requests_pos
  have hpadded : paddedTables slots.length captureSize sizes.graphMaxBlocks inputMaxBlocks
      tables.flatten = some ((List.range captureSize).map fun request =>
        paddedRow sizes tables inputMaxBlocks (sourceRow slots.length request)) := by
    refine Option.mapM_eq_some fun request _ => ?_
    rw [tableRow_eq hbatch hentries (hsource request)]
    rfl
  have hwidths : ∀ table ∈ (List.range captureSize).map fun request =>
      paddedRow sizes tables inputMaxBlocks (sourceRow slots.length request),
      table.length = sizes.graphMaxBlocks := by
    intro table htable
    obtain ⟨request, _, rfl⟩ := List.mem_map.mp htable
    exact length_paddedRow hbatch (hsource request)
  have hlength := Ragged.length_flatten_of_width hwidths
  rw [List.length_map, List.length_range] at hlength
  obtain ⟨buffer', hwrite, hcells⟩ := Buffer.exists_overwrite (hlength.trans_le hroom)
  refine ⟨_, buffer', hpadded, hwrite, Buffer.length_of_overwrite hwrite,
    fun request hrequest block hblock => ?_⟩
  have hblock' : block < sizes.graphMaxBlocks := hblock.trans_le hbatch.inputMaxBlocks_le
  have hrow : ((List.range captureSize).map fun request =>
      paddedRow sizes tables inputMaxBlocks (sourceRow slots.length request))[request]? =
        some (paddedRow sizes tables inputMaxBlocks (sourceRow slots.length request)) := by
    rw [List.getElem?_map, List.getElem?_range hrequest]
    rfl
  rw [hcells _ (hlength.symm ▸ row_lt hrequest hblock'),
    Ragged.getElem?_flatten_of_width hwidths hrow hblock', paddedRow,
    List.getElem?_append_left ((hbatch.table_mem (hsource request)).2.symm ▸ hblock)]

/-- `mvllm_execute_decode_graph` loads the padded batch and launches the graph of its bucket. -/
theorem Intact.exists_loaded (h : Intact sizes headDim device)
    (hbatch : DecodeBatch sizes tokenIds slots tables inputMaxBlocks seqLens)
    (hsize : 0 < sizes.blockSize) (hrequests : slots.length ≤ captureSize)
    (hcapture : captureSize ≤ sizes.graphCapacityRequests)
    (hscratch : sizes.physicalCacheSlots + captureSize ≤ 2 ^ 31)
    (hblocks : captureSize * headDim + 256 < 2 ^ 31)
    (hentries : slots.length * inputMaxBlocks < 2 ^ 31)
    (schedule schedule' : Launch.Schedule) :
    ∃ loaded, Loaded sizes headDim captureSize tokenIds slots tables inputMaxBlocks seqLens
        loaded ∧
      loaded.caches = device.caches ∧
      loaded.attentionOutput = device.attentionOutput ∧
      device.executeDecodeGraph schedule schedule' tokenIds (intsOf slots) tables.flatten
          inputMaxBlocks (intsOf seqLens) slots.length captureSize =
        (NativeDevice.launchGraph schedule schedule' loaded
          (graphFor sizes headDim captureSize)).map fun device => (0, device) := by
  have hpos := hbatch.inputMaxBlocks_pos hsize
  have hcount := hbatch.requests_pos
  have hwidth := hbatch.inputMaxBlocks_le
  obtain ⟨paddedTokens, graphTokenIds, htokens, hwriteTokens, hlengthTokens, htoken⟩ :=
    exists_paddedInts hbatch.length_tokenIds hcount (h.graphTokenIds.symm ▸ hcapture)
  obtain ⟨padded, graphSlots, hslots, hwriteSlots, hlengthSlots, hslot⟩ :=
    exists_paddedSlots hscratch (h.graphSlots.symm ▸ hcapture)
  obtain ⟨paddedSeqLens, graphSeqLens, hseqLens, hwriteSeqLens, hlengthSeqLens, hseqLen⟩ :=
    exists_paddedInts ((length_intsOf seqLens).trans hbatch.length_seqLens) hcount
      (h.graphSeqLens.symm ▸ hcapture)
  obtain ⟨paddedTables, graphBlockTables, htables, hwriteTables, hlengthTables, htable⟩ :=
    exists_paddedTables hbatch hentries
      (h.graphBlockTables.symm ▸ Nat.mul_le_mul_right sizes.graphMaxBlocks hcapture)
  have hloaded : Intact sizes headDim { device with
      graphTokenIds := graphTokenIds
      graphSlots := graphSlots
      graphSeqLens := graphSeqLens
      graphBlockTables := graphBlockTables } :=
    { h with
      graphTokenIds := hlengthTokens.trans h.graphTokenIds
      graphSlots := hlengthSlots.trans h.graphSlots
      graphSeqLens := hlengthSeqLens.trans h.graphSeqLens
      graphBlockTables := hlengthTables.trans h.graphBlockTables }
  obtain ⟨graph, loaded, hgraph⟩ := hloaded.exists_getOrCreateDecodeGraph hblocks
  obtain ⟨hrecorded, graphs, rfl, hget, hintact⟩ := hloaded.of_getOrCreateDecodeGraph hgraph
  obtain rfl := Option.some.inj (hrecorded.symm.trans (hloaded.recordedGraph_eq hblocks))
  refine ⟨_, ⟨hintact, hget, htoken, hslot, fun request hrequest => ?_, htable⟩, rfl, rfl, ?_⟩
  · rw [← getD_intsOf]
    exact hseqLen request hrequest
  · have hstatus : device.decodeGraphStatus inputMaxBlocks slots.length captureSize = 0 := by
      rw [NativeRuntime.decodeGraphStatus, h.sizes_eq, if_neg (by omega)]
    have hphysical : device.physicalCacheSlots = sizes.physicalCacheSlots :=
      congrArg NativeRuntime.physicalCacheSlots h.sizes_eq
    have hmaxBlocks : device.graphMaxBlocks = sizes.graphMaxBlocks :=
      congrArg NativeRuntime.graphMaxBlocks h.sizes_eq
    rw [executeDecodeGraph, if_neg (not_not.mpr hstatus)]
    simp only [Int.toNat_natCast, hphysical, hmaxBlocks, htokens, hslots, hseqLens, htables,
      hwriteTokens, hwriteSlots, hwriteSeqLens, hwriteTables, Option.bind_eq_bind,
      Option.bind_some]
    rw [hgraph]
    exact Option.map_eq_bind.symm

/-! ### Padded slots -/

theorem paddedSlot_of_lt (h : request < slots.length) :
    paddedSlot sizes slots request = slots.getD request 0 :=
  if_pos h

theorem paddedSlot_of_le (h : slots.length ≤ request) :
    paddedSlot sizes slots request = sizes.physicalCacheSlots + request :=
  if_neg (Nat.not_lt.mpr h)

theorem paddedSlot_lt (hbatch : DecodeBatch sizes tokenIds slots tables inputMaxBlocks seqLens)
    (hphysical : sizes.physicalCacheSlots = sizes.numBlocks * sizes.blockSize)
    (hcapacity : request < sizes.graphCapacityRequests) :
    paddedSlot sizes slots request < sizes.physicalCacheSlots + sizes.graphCapacityRequests := by
  by_cases hrequest : request < slots.length
  · have hslot := hbatch.slot_getD_lt hrequest
    rw [paddedSlot_of_lt hrequest]
    omega
  · rw [paddedSlot_of_le (Nat.le_of_not_lt hrequest)]
    omega

/-- Two rows of the padded batch never store to one slot. -/
theorem paddedSlot_inj (hbatch : DecodeBatch sizes tokenIds slots tables inputMaxBlocks seqLens)
    (hphysical : sizes.physicalCacheSlots = sizes.numBlocks * sizes.blockSize) {request' : ℕ}
    (heq : paddedSlot sizes slots request = paddedSlot sizes slots request') :
    request = request' := by
  by_cases hrequest : request < slots.length
  · have hslot := hbatch.slot_getD_lt hrequest
    by_cases hrequest' : request' < slots.length
    · rw [paddedSlot_of_lt hrequest, paddedSlot_of_lt hrequest'] at heq
      exact hbatch.slot_getD_inj hrequest hrequest' heq
    · rw [paddedSlot_of_lt hrequest, paddedSlot_of_le (Nat.le_of_not_lt hrequest')] at heq
      omega
  · by_cases hrequest' : request' < slots.length
    · have hslot := hbatch.slot_getD_lt hrequest'
      rw [paddedSlot_of_le (Nat.le_of_not_lt hrequest), paddedSlot_of_lt hrequest'] at heq
      omega
    · rw [paddedSlot_of_le (Nat.le_of_not_lt hrequest),
        paddedSlot_of_le (Nat.le_of_not_lt hrequest')] at heq
      omega

/-! ### Launching -/

/-- The graph appends what the eager call appends, and the padding to scratch slots. -/
theorem Loaded.exists_launch_append
    (h : Loaded sizes headDim captureSize tokenIds slots tables inputMaxBlocks seqLens device)
    (hbatch : DecodeBatch sizes tokenIds slots tables inputMaxBlocks seqLens)
    (hready : sizes.Ready headDim) (hcapture : captureSize ≤ sizes.graphCapacityRequests)
    (schedule : Launch.Schedule) :
    ∃ caches, schedule.launch ((graphFor sizes headDim captureSize).appendBlocks * 256)
        (appendKernel device.graphTokenIds device.graphSlots captureSize headDim) device.caches =
          some caches ∧
      caches.Sized ((sizes.physicalCacheSlots + sizes.graphCapacityRequests) * headDim) ∧
      RowsStored (cacheEntry fun r => tokenIds.getD (sourceRow slots.length r) 0)
        (paddedSlot sizes slots) captureSize headDim device.caches.cell caches.cell :=
  exists_launch_appendKernel schedule
    (fun r hr => (Buffer.load_natCast ..).trans (h.token_eq r hr))
    (fun r hr => (Buffer.load_natCast ..).trans (h.slot_eq r hr))
    (fun _ _ _ _ heq => paddedSlot_inj hbatch hready.physical_eq heq)
    (fun _ hr => paddedSlot_lt hbatch hready.physical_eq (hr.trans_le hcapture))
    hready.capacity_le ((Nat.le_add_right _ 256).trans_lt (hready.count_lt hcapture))
    h.intact.caches

/-- A thread of a padding row stores to the scratch slot of its row only. -/
theorem Loaded.appendKernel_padding
    (h : Loaded sizes headDim captureSize tokenIds slots tables inputMaxBlocks seqLens device)
    (hbatch : DecodeBatch sizes tokenIds slots tables inputMaxBlocks seqLens)
    (hready : sizes.Ready headDim)
    (hcapture : captureSize ≤ sizes.graphCapacityRequests) {caches caches' : KVCaches α} {dim : ℕ}
    (hsized : caches.Sized ((sizes.physicalCacheSlots + sizes.graphCapacityRequests) * headDim))
    (hrequest : slots.length ≤ request) (hdim : dim < headDim)
    (hkernel : appendKernel device.graphTokenIds device.graphSlots captureSize headDim caches
      (request * headDim + dim) = some caches') {i : ℕ}
    (hi : i / headDim ≠ sizes.physicalCacheSlots + request) :
    caches'.cell i = caches.cell i := by
  obtain ⟨stored, hstored, _, hstores⟩ := appendKernel_stores
    (fun r hr => (Buffer.load_natCast ..).trans (h.token_eq r hr))
    (fun r hr => (Buffer.load_natCast ..).trans (h.slot_eq r hr))
    (fun r hr => paddedSlot_lt hbatch hready.physical_eq (hr.trans_le hcapture))
    hready.capacity_le ((Nat.le_add_right _ 256).trans_lt (hready.count_lt hcapture)) hsized
    (request * headDim + dim)
  obtain rfl := Option.some.inj (hstored.symm.trans hkernel)
  rw [hstores i, rowTarget_eq_none]
  · rfl
  · rintro ⟨_, rfl⟩
    rw [row_div _ hdim, row_mod _ hdim, row_div _ hdim] at hi
    exact hi (paddedSlot_of_le hrequest)

/-- The live cells after the graph appended are those after the eager call appended. -/
theorem cell_eq_of_rowsStored
    (hphysical : sizes.physicalCacheSlots = sizes.numBlocks * sizes.blockSize)
    (hrequests : slots.length ≤ captureSize) {m eager graph : ℕ → Option α × Option α}
    (heager : RowsStored (cacheEntry (tokenIds.getD · 0)) (slots.getD · 0) slots.length headDim m
      eager)
    (hgraph : RowsStored (cacheEntry fun r => tokenIds.getD (sourceRow slots.length r) 0)
      (paddedSlot sizes slots) captureSize headDim m graph) {i : ℕ}
    (hi : i < sizes.numBlocks * sizes.blockSize * headDim) : graph i = eager i := by
  obtain ⟨hslot, hdim⟩ := div_mod_of_lt hi
  by_cases hstored : ∃ r < slots.length, slots.getD r 0 = i / headDim
  · obtain ⟨r, hr, hrow⟩ := hstored
    have hsplit : slots.getD r 0 * headDim + i % headDim = i := by
      rw [hrow]
      exact Nat.div_add_mod' i headDim
    have heager' := heager.stored r hr _ hdim
    have hgraph' := hgraph.stored r (hr.trans_le hrequests) _ hdim
    rw [paddedSlot_of_lt hr, hsplit] at hgraph'
    rw [hsplit] at heager'
    rw [hgraph', heager', cacheEntry, cacheEntry, show sourceRow slots.length r = r from if_pos hr]
  · have hother : ∀ r < slots.length, slots.getD r 0 ≠ i / headDim :=
      fun r hr heq => hstored ⟨r, hr, heq⟩
    rw [heager.kept i hother, hgraph.kept i fun r _ heq => ?_]
    by_cases hr : r < slots.length
    · rw [paddedSlot_of_lt hr] at heq
      exact hother r hr heq
    · rw [paddedSlot_of_le (Nat.le_of_not_lt hr)] at heq
      omega

/-- What the rows of the graph read: the cells of the eager caches. -/
theorem Loaded.graph_pagedRow
    (h : Loaded sizes headDim captureSize tokenIds slots tables inputMaxBlocks seqLens device)
    (hbatch : DecodeBatch sizes tokenIds slots tables inputMaxBlocks seqLens)
    (hready : sizes.Ready headDim)
    (hcapture : captureSize ≤ sizes.graphCapacityRequests) {caches : KVCaches α}
    (hsized : caches.Sized ((sizes.physicalCacheSlots + sizes.graphCapacityRequests) * headDim))
    (hcells : ∀ i < sizes.numBlocks * sizes.blockSize * headDim,
      device.caches.cell i = caches.cell i) (hrequest : request < captureSize) :
    (device.graphInputs (graphFor sizes headDim captureSize)).PagedRow request
      (seqLens.getD (sourceRow slots.length request) 0)
      (blockIdOf tables (sourceRow slots.length request)) (keyAt caches headDim)
      (valueAt caches headDim) := by
  refine hbatch.pagedRow hready (sourceRow_lt hbatch.requests_pos request) rfl rfl hsized
    (fun i hi => ?_) ((Buffer.load_natCast ..).trans (h.seqLen_eq request hrequest)) ⟨0, ?_⟩
    ⟨0x01010101, by decide, ?_⟩ (fun block hblock => ?_) (fun block hblock => ?_)
  · rw [← hcells i hi]
    exact Prod.ext (Buffer.load_natCast ..) (Buffer.load_natCast ..)
  · show Buffer.load device.graphContextStartLocs (request : ℕ) = _
    rw [Buffer.load_natCast, h.intact.graphContextStartLocs,
      List.getElem?_replicate_of_lt (by omega)]
  · show Buffer.load device.graphIsDecode (request : ℕ) = _
    rw [Buffer.load_natCast, h.intact.graphIsDecode, List.getElem?_replicate_of_lt (by omega)]
  · exact (row_lt (hrequest.trans_le hcapture)
      (hblock.trans_le hbatch.inputMaxBlocks_le)).trans hready.tables
  · exact (Buffer.load_natCast ..).trans (h.table_eq request hrequest block hblock)

/-- No row of the graph reads a `-1` entry or a scratch slot. -/
theorem Loaded.exists_guarded_row
    (h : Loaded sizes headDim captureSize tokenIds slots tables inputMaxBlocks seqLens device)
    (hbatch : DecodeBatch sizes tokenIds slots tables inputMaxBlocks seqLens)
    (hready : sizes.Ready headDim)
    (hcapture : captureSize ≤ sizes.graphCapacityRequests) (hrequest : request < captureSize) :
    ∃ row, ((device.graphInputs (graphFor sizes headDim captureSize)).guarded
      (sizes.numBlocks * sizes.blockSize * headDim)).row request = some (some row) := by
  have hpaged := h.graph_pagedRow hbatch hready hcapture h.intact.caches (fun _ _ => rfl) hrequest
  exact ⟨_, (hpaged.guarded fun token htoken => hbatch.blockSlot_lt hready.blockSize_pos
    (sourceRow_lt hbatch.requests_pos request) htoken).row_eq⟩

/-- A launch leaves the live cells of the eager caches, and a row of them for each row of the
padded batch. -/
theorem Loaded.exists_launchGraph
    (h : Loaded sizes headDim captureSize tokenIds slots tables inputMaxBlocks seqLens device)
    (hbatch : DecodeBatch sizes tokenIds slots tables inputMaxBlocks seqLens)
    (hready : sizes.Ready headDim)
    (hrequests : slots.length ≤ captureSize) (hcapture : captureSize ≤ sizes.graphCapacityRequests)
    {eager : KVCaches α}
    (heager : eager.Sized ((sizes.physicalCacheSlots + sizes.graphCapacityRequests) * headDim))
    (hstored : RowsStored (cacheEntry (tokenIds.getD · 0)) (slots.getD · 0) slots.length headDim
      device.caches.cell eager.cell) (schedule schedule' : Launch.Schedule) :
    ∃ caches outputs, NativeDevice.launchGraph schedule schedule' device
        (graphFor sizes headDim captureSize) =
          some { device with caches := caches, attentionOutput := outputs } ∧
      Loaded sizes headDim captureSize tokenIds slots tables inputMaxBlocks seqLens
        { device with caches := caches, attentionOutput := outputs } ∧
      (∀ i < sizes.numBlocks * sizes.blockSize * headDim, caches.cell i = eager.cell i) ∧
      RowsStored (fun r dim =>
          some (entryOf sizes headDim eager tables seqLens (sourceRow slots.length r) dim)) id
        captureSize headDim (device.attentionOutput[·]?) (outputs[·]?) := by
  obtain ⟨caches, happend, hsized, hgraph⟩ :=
    h.exists_launch_append hbatch hready hcapture schedule
  have hcells : ∀ i < sizes.numBlocks * sizes.blockSize * headDim, caches.cell i = eager.cell i :=
    fun i hi => cell_eq_of_rowsStored hready.physical_eq hrequests hstored hgraph hi
  have hfilled : Loaded sizes headDim captureSize tokenIds slots tables inputMaxBlocks seqLens
      { device with caches := caches } :=
    { h with intact := { h.intact with caches := hsized } }
  have hrows : ∀ request < captureSize,
      (({ device with caches := caches } : NativeDevice α).graphInputs
        (graphFor sizes headDim captureSize)).row request =
          some (some ((List.range headDim).map
            (entryOf sizes headDim eager tables seqLens (sourceRow slots.length request)))) :=
    fun request hrequest =>
      (hfilled.graph_pagedRow hbatch hready hcapture heager hcells hrequest).row_eq
  have hroom : captureSize * headDim ≤ device.attentionOutput.length := by
    rw [h.intact.attentionOutput]
    exact Nat.mul_le_mul_right _ hcapture
  obtain ⟨outputs, hattend, hlength, houtputs⟩ :=
    AttentionInputs.exists_launch_attention schedule' hrows hroom
  refine ⟨caches, outputs, ?_, { hfilled with intact := { hfilled.intact with
    attentionOutput := hlength.trans h.intact.attentionOutput } }, hcells, houtputs⟩
  rw [NativeDevice.launchGraph]
  refine (congrArg (fun run : Option (KVCaches α) => run.bind _) happend).trans ?_
  exact congrArg (fun run : Option (List α) => run.bind fun outputs =>
    some { device with caches := caches, attentionOutput := outputs }) hattend

/-- What `mvllm_execute_decode_graph` leaves, beside what the eager calls leave. -/
structure ReplaySpec (numRequests captureSize maxNumSeqs : ℕ) (eager replayed : NativeDevice α) :
    Prop where
  cell_eq : ∀ i < eager.numBlocks * eager.blockSize * eager.headDim,
    replayed.caches.cell i = eager.caches.cell i
  output_eq : ∀ i < numRequests * eager.headDim, ∃ value,
    replayed.attentionOutput[i]? = some value ∧ eager.attentionOutput[i]? = some value
  scratch : ∀ request, numRequests ≤ request → request < captureSize →
    replayed.graphSlots[request]? =
        some ((eager.numBlocks * eager.blockSize + request : ℕ) : ℤ) ∧
      request < maxNumSeqs
  padding : ∀ request, numRequests ≤ request → ∀ dim < eager.headDim,
    ∀ caches caches' : KVCaches α,
      caches.Sized ((eager.numBlocks * eager.blockSize + maxNumSeqs) * eager.headDim) →
      appendKernel replayed.graphTokenIds replayed.graphSlots captureSize eager.headDim caches
        (request * eager.headDim + dim) = some caches' →
      ∀ i, i / eager.headDim ≠ eager.numBlocks * eager.blockSize + request →
        caches'.cell i = caches.cell i
  reads : ∃ graph, replayed.decodeGraphs.get? captureSize = some graph ∧
    ∀ request < captureSize, ∃ row, ((replayed.graphInputs graph).guarded
      (eager.numBlocks * eager.blockSize * eager.headDim)).row request = some (some row)

/-- `mvllm_execute_decode_graph` leaves the live cells and the rows of the eager calls, after
whatever calls came before, as long as no `int` overflows. -/
theorem executeDecodeGraph_eq_eager {args : CreateArgs} {floats : ℕ → α} {ints : ℕ → ℤ}
    {device₀ device : NativeDevice α} {τs : List (Transition (NativeDevice α) Call ℕ)}
    (hcreate : create args floats ints = some device₀)
    (hfits : device₀.toNativeRuntime.Fits device₀.headDim)
    (hrun : Run CallStep device₀ τs device)
    (hbatch : DecodeBatch device₀.toNativeRuntime tokenIds slots tables inputMaxBlocks seqLens)
    (hrequests : slots.length ≤ captureSize)
    (hcapture : captureSize ≤ device₀.graphCapacityRequests)
    {contextSlots contextStartLocs : List ℤ} (hstarts : contextStartLocs.length = slots.length + 1)
    (hcontext : contextStartLocs[slots.length]? = some (contextSlots.length : ℤ))
    (schedule₁ schedule₂ schedule₃ schedule₄ : Launch.Schedule) :
    ∃ appended eager replayed,
      device.append schedule₁ tokenIds (intsOf slots) slots.length = some (0, appended) ∧
      appended.attentionBatch schedule₂ contextSlots contextStartLocs tables.flatten inputMaxBlocks
          (intsOf seqLens) (List.replicate slots.length 1) slots.length = some (0, eager) ∧
      device.executeDecodeGraph schedule₃ schedule₄ tokenIds (intsOf slots) tables.flatten
          inputMaxBlocks (intsOf seqLens) slots.length captureSize = some (0, replayed) ∧
      ReplaySpec slots.length captureSize device₀.graphCapacityRequests eager replayed := by
  have hready := ready_of_create hcreate hfits
  have hintact := intact_of_run hcreate hrun
  have hcapacity := hrequests.trans hcapture
  have hphysical := hready.physical_eq
  obtain ⟨caches, happend, hsized, hstored⟩ :=
    hintact.exists_append hready hbatch hcapacity schedule₁
  have happended : Intact device₀.toNativeRuntime device₀.headDim
      { device with caches := caches } := { hintact with caches := hsized }
  obtain ⟨outputs, hattend, houtputs⟩ := happended.exists_attentionBatch hready hbatch hcapacity
    schedule₂ hstarts hcontext
  have hscratch : device₀.physicalCacheSlots + captureSize ≤ 2 ^ 31 :=
    (Nat.add_le_add_left hcapture _).trans hready.slots_le
  obtain ⟨loaded, hloaded, hcaches, houtput, hexecute⟩ :=
    hintact.exists_loaded hbatch hready.blockSize_pos hrequests hcapture hscratch
      (hready.count_lt hcapture) (hbatch.entries_lt hready hcapacity) schedule₃ schedule₄
  obtain ⟨graphCaches, graphOutputs, hlaunch, hreplayed, hcells, hgraphOutputs⟩ :=
    hloaded.exists_launchGraph hbatch hready hrequests hcapture hsized
      (hcaches.symm ▸ hstored) schedule₃ schedule₄
  rw [hlaunch] at hexecute
  have hnumBlocks : device.numBlocks = device₀.numBlocks :=
    congrArg NativeRuntime.numBlocks hintact.sizes_eq
  have hblockSize : device.blockSize = device₀.blockSize :=
    congrArg NativeRuntime.blockSize hintact.sizes_eq
  have hheadDim := hintact.headDim_eq
  refine ⟨_, _, _, happend, hattend, hexecute, ⟨?_, ?_, ?_, ?_, ?_⟩⟩
  · rw [hnumBlocks, hblockSize, hheadDim]
    exact hcells
  · intro i hi
    rw [hheadDim] at hi
    obtain ⟨hrow, hdim⟩ := div_mod_of_lt hi
    have heager := houtputs.stored _ hrow _ hdim
    have hgraph := hgraphOutputs.stored _ (hrow.trans_le hrequests) _ hdim
    rw [id, Nat.div_add_mod'] at heager hgraph
    rw [show sourceRow slots.length (i / device₀.headDim) = i / device₀.headDim from
      if_pos hrow] at hgraph
    exact ⟨_, hgraph, heager⟩
  · intro request hle hlt
    have hslot := hreplayed.slot_eq request hlt
    rw [paddedSlot_of_le hle, hphysical] at hslot
    rw [hnumBlocks, hblockSize]
    exact ⟨hslot, hlt.trans_le hcapture⟩
  · rw [hnumBlocks, hblockSize, hheadDim]
    intro request hle dim hdim before after hbefore hkernel i hi
    rw [← hphysical] at hbefore hi
    exact hreplayed.appendKernel_padding hbatch hready hcapture hbefore hle hdim hkernel hi
  · rw [hnumBlocks, hblockSize, hheadDim]
    exact ⟨_, hreplayed.graph_eq, fun request hrequest =>
      hreplayed.exists_guarded_row hbatch hready hcapture hrequest⟩

omit [FloatOps α] in
/-- A graph that was replayed before, for another token of the request. -/
theorem executeDecodeGraph_eq_eager_replayed :
    ∃ device₀ device appended eager replayed : NativeDevice EReal,
      create ⟨0, 2, 2, 1, 2, 4⟩ (fun _ => 0) (fun _ => 0) = some device₀ ∧
      device₀.executeDecodeGraph .sequential .sequential [5] [0] [0] 1 [1] 1 2 =
        some (0, device) ∧
      device.append .sequential [7] [1] 1 = some (0, appended) ∧
      appended.attentionBatch .sequential [0, 1] [0, 2] [0] 1 [2] [1] 1 = some (0, eager) ∧
      device.executeDecodeGraph .sequential .sequential [7] [1] [0] 1 [2] 1 2 =
        some (0, replayed) ∧
      ReplaySpec 1 2 2 eager replayed := by
  have hfirst : DecodeBatch ⟨2, 2, 2, 2, 4⟩ [5] [0] [[0]] 1 [1] :=
    ⟨by decide, by decide, rfl, rfl, rfl, by decide, by decide, by decide, by decide, by decide,
      by decide⟩
  have hsecond : DecodeBatch ⟨2, 2, 2, 2, 4⟩ [7] [1] [[0]] 1 [2] :=
    ⟨by decide, by decide, rfl, rfl, rfl, by decide, by decide, by decide, by decide, by decide,
      by decide⟩
  have hfits : NativeRuntime.Fits ⟨2, 2, 2, 2, 4⟩ 1 := ⟨by decide, by decide, by decide⟩
  have hrequests : [1].length ≤ 2 := by decide
  have hone : ([0, 1] : List ℤ)[[0].length]? = some (([0] : List ℤ).length : ℤ) := rfl
  have htwo : ([0, 2] : List ℤ)[[1].length]? = some (([0, 1] : List ℤ).length : ℤ) := rfl
  obtain ⟨device₀, hcreate, hsizes, hhead⟩ : ∃ device : NativeDevice EReal,
      create ⟨0, 2, 2, 1, 2, 4⟩ (fun _ => 0) (fun _ => 0) = some device ∧
        device.toNativeRuntime = ⟨2, 2, 2, 2, 4⟩ ∧ device.headDim = 1 := ⟨_, rfl, rfl, rfl⟩
  have hcapacity : 2 ≤ device₀.graphCapacityRequests := by rw [hsizes]
  rw [← hsizes] at hfirst hsecond
  rw [← hsizes, ← hhead] at hfits
  obtain ⟨_, _, device, _, _, hreplayed, _⟩ := executeDecodeGraph_eq_eager hcreate hfits .nil hfirst
    hrequests hcapacity rfl hone .sequential .sequential .sequential .sequential
  have hrun : Run CallStep device₀ ([] ++ [⟨device₀, .executeDecodeGraph .sequential .sequential
      [5] [0] [0] 1 [1] 1 2, [0], device⟩]) device := .snoc .nil ⟨0, hreplayed, rfl⟩
  obtain ⟨appended, eager, replayed, happend, hattend, hreplay, hspec⟩ :=
    executeDecodeGraph_eq_eager hcreate hfits hrun hsecond hrequests hcapacity rfl htwo .sequential
      .sequential .sequential .sequential
  rw [show device₀.graphCapacityRequests = 2 from congrArg NativeRuntime.graphCapacityRequests
    hsizes] at hspec
  exact ⟨device₀, device, appended, eager, replayed, hcreate, hreplayed, happend, hattend, hreplay,
    hspec⟩

/-- A padding row whose scratch slot has a cell that no `int` names. -/
theorem Loaded.launchGraph_eq_none
    (h : Loaded sizes headDim captureSize tokenIds slots tables inputMaxBlocks seqLens device)
    (hhead : 0 < headDim) (hblocks : captureSize * headDim + 256 < 2 ^ 31)
    (hpadding : slots.length ≤ request) (hrequest : request < captureSize)
    (hcell : 2 ^ 31 ≤ (sizes.physicalCacheSlots + request) * headDim)
    (schedule schedule' : Launch.Schedule) :
    NativeDevice.launchGraph schedule schedule' device (graphFor sizes headDim captureSize) =
      none := by
  have hread : Buffer.load device.graphSlots (request * headDim / headDim : ℕ) =
      some ((sizes.physicalCacheSlots + request : ℕ) : ℤ) := by
    rw [Nat.mul_div_cancel _ hhead, Buffer.load_natCast, h.slot_eq request hrequest,
      paddedSlot_of_le hpadding]
  have htotal : CInt.mul (captureSize : ℤ) (headDim : ℤ) =
      some ((captureSize * headDim : ℕ) : ℤ) := CInt.mul_natCast (by omega)
  have hindex : request * headDim < captureSize * headDim :=
    Nat.mul_lt_mul_of_pos_right hrequest hhead
  have hthread : ∀ caches : KVCaches α, appendKernel device.graphTokenIds device.graphSlots
      captureSize headDim caches (request * headDim) = none := by
    intro caches
    rw [appendKernel, htotal, Option.bind_eq_bind, Option.bind_some, if_neg (by omega),
      appendCacheIndex_eq_none hread (Nat.le_add_right_of_le hcell)]
    rfl
  have hlaunch := schedule.launch_eq_none (hindex.trans_le (le_gridThreads _)) hthread device.caches
  exact congrArg (fun run : Option (KVCaches α) => run.bind _) hlaunch

omit [FloatOps α] in
/-- A cache of `2 ^ 22` slots with rows of 512 floats: the padding row stores behind cell
`2 ^ 31`. -/
theorem executeDecodeGraph_overflows :
    ∃ device : NativeDevice EReal,
      create ⟨0, 262144, 16, 512, 32, 2048⟩ (fun _ => 0) (fun _ => 0) = some device ∧
      DecodeBatch device.toNativeRuntime [7] [0] [[0]] 1 [1] ∧
      ∀ schedule schedule' : Launch.Schedule,
        device.executeDecodeGraph schedule schedule' [7] [0] [0] 1 [1] 1 2 = none := by
  have hbatch : DecodeBatch ⟨262144, 16, 32, 128, 4194304⟩ [7] [0] [[0]] 1 [1] := by
    refine ⟨by decide, by decide, rfl, rfl, rfl, by decide, by decide, by decide, by decide,
      by decide, fun request hrequest block hblock => ⟨0, by decide, ?_⟩⟩
    obtain rfl : request = 0 := by simpa using hrequest
    obtain rfl : block = 0 := by simpa using hblock
    rfl
  obtain ⟨device, hcreate, hsizes, hhead, _⟩ : ∃ device : NativeDevice EReal,
      create ⟨0, 262144, 16, 512, 32, 2048⟩ (fun _ => 0) (fun _ => 0) = some device ∧
        device.toNativeRuntime = ⟨262144, 16, 32, 128, 4194304⟩ ∧ device.headDim = 512 ∧ _ :=
    exists_create (fun _ => 0) (fun _ => 0) (by decide) (by decide) (by decide) (by decide)
      (by decide) (by decide) (by decide) (by decide)
  have hintact := (intact_create hcreate).2.2
  rw [hsizes, hhead] at hintact
  rw [← hsizes] at hbatch
  refine ⟨device, hcreate, hbatch, fun schedule schedule' => ?_⟩
  rw [hsizes] at hbatch
  obtain ⟨loaded, hloaded, _, _, hexecute⟩ := hintact.exists_loaded hbatch (by decide)
    (by decide : [0].length ≤ 2) (by decide) (by decide) (by decide) (by decide) schedule schedule'
  have hnone := hloaded.launchGraph_eq_none (by decide) (by decide)
    (show [0].length ≤ 1 by decide) (by decide) (by decide) schedule schedule'
  rw [hnone] at hexecute
  exact hexecute

end Graph

end NativeDevice

end MiniVLLM
