import MiniVLLM.Verification.Kernels.AttentionProblem

/-! # The rows of the CUDA backend

A decode request has one row for each head, which `paged_decode_kernel` stores. The rows of the
other requests are stored by `flash_prefill_kernel`. -/

namespace MiniVLLM

open Launch NativeInts FloatOps

namespace AttentionProblem

variable {problem : AttentionProblem} {token queryHead row : ℕ}

/-- The output of both backends. -/
noncomputable def entry (problem : AttentionProblem) (row dim : ℕ) : EReal :=
  (problem.attended problem.keyCacheAfter problem.valueCacheAfter (row / problem.queryHeads)
    (row % problem.queryHeads) dim : EReal)

noncomputable def outputAfter (problem : AttentionProblem) : List ℝ :=
  (List.range (problem.rows * problem.headDim)).map fun i =>
    problem.attended problem.keyCacheAfter problem.valueCacheAfter
      (i / problem.headDim / problem.queryHeads) (i / problem.headDim % problem.queryHeads)
      (i % problem.headDim)

theorem eq_outputAfter {outputs : List EReal} {m : ℕ → Option EReal}
    (h : RowsStored (fun row dim => some (problem.entry row dim)) id problem.rows problem.headDim m
      (outputs[·]?)) (hlength : outputs.length = problem.rows * problem.headDim) :
    outputs = asFloats problem.outputAfter := by
  rw [h.eq_map hlength, asFloats, outputAfter, List.map_map]
  rfl

theorem entry_eq (hhead : queryHead < problem.queryHeads) (dim : ℕ) :
    problem.entry (token * problem.queryHeads + queryHead) dim =
      (problem.attended problem.keyCacheAfter problem.valueCacheAfter token queryHead dim :
        EReal) := by
  rw [entry, row_div _ hhead, row_mod _ hhead]

/-! ## Reading -/

theorem load_cacheAfter {tensor cache : List ℝ} {slot kvHead dim : ℕ}
    (hslot : slot < problem.cacheSlots) (hhead : kvHead < problem.kvHeads)
    (hdim : dim < problem.headDim) :
    Buffer.load (asFloats (problem.cacheAfter tensor cache))
        (((slot * problem.kvHeads + kvHead) * problem.headDim + dim : ℕ) : ℤ) =
      some (headRow (problem.cacheAfter tensor cache) problem.kvHeads problem.headDim kvHead slot
        dim : EReal) := by
  refine load_asFloats ?_
  rw [length_cacheAfter]
  calc (slot * problem.kvHeads + kvHead) * problem.headDim + dim
      < problem.cacheSlots * problem.kvHeads * problem.headDim := row_lt (row_lt hslot hhead) hdim
    _ = problem.cacheSlots * (problem.kvHeads * problem.headDim) := Nat.mul_assoc ..

theorem load_query {dim : ℕ} (htoken : token < problem.batch.numTokens)
    (hhead : queryHead < problem.queryHeads) (hdim : dim < problem.headDim) :
    Buffer.load (asFloats problem.query)
        (((token * problem.queryHeads + queryHead) * problem.headDim + dim : ℕ) : ℤ) =
      some (headRow problem.query problem.queryHeads problem.headDim queryHead token dim :
        EReal) :=
  load_asFloats (problem.length_query ▸ row_lt (row_lt htoken hhead) hdim)

theorem cacheOffset_eq (r contextLen : ℕ) {slot dim : ℕ}
    (hslot : (slot + 1) * (problem.kvHeads * problem.headDim) ≤ 2 ^ 31)
    (hhead : queryHead < problem.queryHeads) (hdim : dim < problem.headDim) :
    (CudaAttentionBackend.rowArgs problem.args problem.cachesAfter r contextLen token
      queryHead).cacheOffset slot dim = some (((slot * problem.kvHeads +
        problem.kvHeadOf queryHead) * problem.headDim + dim : ℕ) : ℤ) := by
  have hcell : (slot * problem.kvHeads + problem.kvHeadOf queryHead) * problem.headDim + dim <
      2 ^ 31 := by
    calc (slot * problem.kvHeads + problem.kvHeadOf queryHead) * problem.headDim + dim
        < (slot + 1) * problem.kvHeads * problem.headDim :=
          row_lt (row_lt (Nat.lt_succ_self slot) (kvHeadOf_lt hhead)) hdim
      _ = (slot + 1) * (problem.kvHeads * problem.headDim) := Nat.mul_assoc ..
      _ ≤ 2 ^ 31 := hslot
  exact CInt.bind_index_natCast problem.headDim_pos hcell

/-- A block finds the blocks of its request in the block tables. -/
theorem blockTable_eq
    (htables : (problem.metadata.seqLens.length - 1) *
      (problem.metadata.blockTables.headD []).length < 2 ^ 31)
    (caches : KVCaches EReal) {r position : ℕ} (contextLen : ℕ)
    (hr : r < problem.metadata.seqLens.length) (hposition : position < (problem.request r).seqLen) :
    ∃ block : ℕ, (CudaAttentionBackend.rowArgs problem.args caches r contextLen token
        queryHead).blockTable (position / problem.blockSize : ℕ) = some (block : ℤ) ∧
      block * problem.blockSize + position % problem.blockSize =
        (problem.request r).slot position := by
  obtain ⟨table, htable, hblocks⟩ := (batchSpec.rows r hr).table_eq
  obtain ⟨block, hblock, hslot⟩ := hblocks position hposition
  obtain ⟨hlt, _⟩ := List.getElem?_eq_some_iff.mp hblock
  have hwidth := batchSpec.table_width table (List.mem_of_getElem? htable)
  have hflat := (Ragged.getElem?_flatten_of_width batchSpec.table_width htable
    (hwidth ▸ hlt)).trans hblock
  have hstart : CInt.mul (r : ℤ) ((problem.metadata.blockTables.headD []).length : ℕ) = _ :=
    CInt.mul_natCast ((Nat.mul_le_mul_right _ (Nat.le_sub_one_of_lt hr)).trans_lt htables)
  rw [blockSize_eq] at hflat hslot
  refine ⟨block, ?_, hslot⟩
  show (CInt.mul (r : ℤ) ((problem.metadata.blockTables.headD []).length : ℕ)).bind (fun start =>
    Buffer.load problem.metadata.blockTables.flatten
      (start + (position / problem.blockSize : ℕ))) = _
  rw [hstart, Option.bind_some, ← Nat.cast_add, Buffer.load_natCast, hflat]

theorem rowArgs_blockSize (hblockSize : problem.blockSize < 2 ^ 31) (caches : KVCaches EReal)
    (r contextLen : ℕ) : (CudaAttentionBackend.rowArgs problem.args caches r contextLen token
      queryHead).blockSize = (problem.blockSize : ℤ) := by
  rw [CudaAttentionBackend.rowArgs, show problem.args.metadata = problem.metadata from rfl,
    blockSize_eq, CInt.wrap_natCast hblockSize]

theorem pagedSlot_eq (hfits : problem.Fits) {r position : ℕ} (contextLen : ℕ)
    (hr : r < problem.metadata.seqLens.length)
    (hposition : position < (problem.request r).seqLen) :
    pagedSlot (CudaAttentionBackend.rowArgs problem.args problem.cachesAfter r contextLen token
        queryHead).blockTable (CudaAttentionBackend.rowArgs problem.args problem.cachesAfter r
          contextLen token queryHead).blockSize position =
      some ((problem.request r).slot position : ℤ) := by
  obtain ⟨block, hread, hslot⟩ := blockTable_eq hfits.tables_lt problem.cachesAfter contextLen hr
    hposition
  have hlt : (problem.request r).slot position + 1 ≤ 2 ^ 31 :=
    (Nat.le_mul_of_pos_right _ elementsPerToken_pos).trans (hfits.read_le r hr position hposition)
  rw [rowArgs_blockSize hfits.blockSize_lt, ← hslot]
  exact pagedSlot_natCast hread (hslot ▸ hlt)

/-- A block reads the query of its row and the keys and values of its request. -/
theorem rowArgs_readsSpec (hfits : problem.Fits) {r contextLen : ℕ}
    (htoken : token < problem.batch.numTokens) (hhead : queryHead < problem.queryHeads)
    (hr : r < problem.metadata.seqLens.length)
    (hspec : problem.metadata.RequestSpec problem.batch.numTokens problem.cacheSlots r
      (problem.request r)) (hle : contextLen ≤ (problem.request r).seqLen) :
    (CudaAttentionBackend.rowArgs problem.args problem.cachesAfter r contextLen token
      queryHead).ReadsSpec
      (headRow problem.query problem.queryHeads problem.headDim queryHead token)
      (fun position => headRow problem.keyCacheAfter problem.kvHeads problem.headDim
        (problem.kvHeadOf queryHead) ((problem.request r).slot position))
      (fun position => headRow problem.valueCacheAfter problem.kvHeads problem.headDim
        (problem.kvHeadOf queryHead) ((problem.request r).slot position)) := by
  have hstart : (CudaAttentionBackend.rowArgs problem.args problem.cachesAfter r contextLen token
      queryHead).rowStart + problem.headDim ≤ 2 ^ 31 := by
    calc (token * problem.queryHeads + queryHead) * problem.headDim + problem.headDim
        = (token * problem.queryHeads + queryHead + 1) * problem.headDim := by
          rw [Nat.add_mul _ 1, Nat.one_mul]
      _ ≤ problem.batch.numTokens * problem.queryHeads * problem.headDim :=
          Nat.mul_le_mul_right _ (row_lt htoken hhead)
      _ ≤ 2 ^ 31 := hfits.query_le
  refine ⟨problem.headDim_le, hstart, fun dim hdim => ?_, fun position hposition => ?_⟩
  · rw [CudaAttentionBackend.RowArgs.queryOffset_eq hdim hstart]
    exact load_query htoken hhead hdim
  · have hseqLen : position < (problem.request r).seqLen := hposition.trans_le hle
    have hslot := hspec.slot_lt position hseqLen
    refine ⟨(problem.request r).slot position, pagedSlot_eq hfits contextLen hr hseqLen,
      fun dim hdim => ?_⟩
    rw [cacheOffset_eq r contextLen (hfits.read_le r hr position hseqLen) hhead hdim]
    exact ⟨load_cacheAfter hslot (kvHeadOf_lt hhead) hdim,
      load_cacheAfter hslot (kvHeadOf_lt hhead) hdim⟩

/-- A block stores the row of a token and head, given the request of the token. -/
theorem onlinePagedAttention_stores (hfits : problem.Fits) {r : ℕ} (position : ℕ)
    (htoken : token < problem.batch.numTokens) (hhead : queryHead < problem.queryHeads)
    (hr : r < problem.metadata.seqLens.length)
    (hle : (problem.request r).start ≤ token) (hlt : token < (problem.request r).stop)
    (hposition : position = (problem.request r).seqLen - ((problem.request r).stop - token))
    (schedule : CudaAttentionBackend.BlockSchedule)
    (garbage : CudaAttentionBackend.BlockCell → EReal) {outputs : List EReal}
    (hroom : problem.rows * problem.headDim ≤ outputs.length) :
    ∃ outputs', (CudaAttentionBackend.rowArgs problem.args problem.cachesAfter r (position + 1)
        token queryHead).onlinePagedAttention schedule garbage outputs = some outputs' ∧
      outputs'.length = outputs.length ∧
      Stores (wholeRow (fun row dim => some (problem.entry row dim)) problem.rows problem.headDim
        (token * problem.queryHeads + queryHead)) (outputs[·]?) (outputs'[·]?) := by
  have hspec := batchSpec.rows r hr
  have hseqLen := hspec.length_le
  refine CudaAttentionBackend.RowArgs.onlinePagedAttention_stores schedule garbage
    (rowArgs_readsSpec hfits htoken hhead hr hspec (by omega)) (Nat.succ_pos _) rfl
    (row_lt htoken hhead) (fun dim _ => ?_) hroom
  obtain ⟨r', hr', _, hle', hlt', _, hrequest, _, hgetD⟩ := exists_request htoken
  obtain rfl := batchSpec.request_unique hr' hr hle' hlt' hle hlt
  rw [entry_eq hhead, attended, hrequest, hgetD, ← hposition]
  rfl

/-! ## The two kernels -/

/-- Whether the token of a row is that of a decode request. -/
def decodeRow (problem : AttentionProblem) (row : ℕ) : Bool :=
  (problem.requestOf (row / problem.queryHeads)).decode

/-- The rows that a block of `flash_prefill_kernel` stores. -/
def flashOwns (problem : AttentionProblem) (block row : ℕ) : Bool :=
  decide (row = block) && !problem.decodeRow row

/-- The rows that a block of `paged_decode_kernel` stores. -/
def pagedOwns (problem : AttentionProblem) (block row : ℕ) : Bool :=
  decide (row = (problem.request (block / problem.queryHeads)).start * problem.queryHeads +
      block % problem.queryHeads) &&
    (problem.request (block / problem.queryHeads)).decode

/-- A block of `flash_prefill_kernel` is that of a token and a head, and leaves the rows of decode
requests. -/
theorem flashPrefillKernel_eq {block r : ℕ} (hblock : block < problem.rows)
    (hr : r < problem.metadata.seqLens.length)
    (hle : (problem.request r).start ≤ block / problem.queryHeads)
    (hlt : block / problem.queryHeads < (problem.request r).stop) (caches : KVCaches EReal)
    (schedule : ℕ → CudaAttentionBackend.BlockSchedule)
    (garbage : ℕ → CudaAttentionBackend.BlockCell → EReal) (outputs : List EReal) :
    CudaAttentionBackend.flashPrefillKernel problem.args caches schedule garbage outputs block =
      if (problem.request r).decode then some outputs
      else (CudaAttentionBackend.rowArgs problem.args caches r
        (problem.metadata.positions.getD (block / problem.queryHeads) 0 + 1)
        (block / problem.queryHeads) (block % problem.queryHeads)).onlinePagedAttention
          (schedule block) (garbage block) outputs := by
  obtain ⟨htoken, hhead⟩ := div_mod_of_lt hblock
  obtain ⟨r', hr', hspec, hle', hlt', howner, _, hposition, hgetD⟩ := exists_request htoken
  obtain rfl := batchSpec.request_unique hr' hr hle' hlt' hle hlt
  have hactive : problem.args.metadata.activeMask[block / problem.args.queryHeads]? = some true :=
    active_getElem? htoken
  have howner' : problem.args.metadata.requestIndices[block / problem.args.queryHeads]? = some r' :=
    howner
  have hflag : problem.args.metadata.isDecode[r']? = some (problem.request r').decode :=
    hspec.decode_eq
  have hposition' : problem.args.metadata.positions[block / problem.args.queryHeads]? =
      some (problem.metadata.positions.getD (block / problem.queryHeads) 0) := hposition
  have hguard : ¬ (problem.args.totalTokens ≤ block / problem.args.queryHeads ∨
      problem.args.queryHeads ≤ block % problem.args.queryHeads) := by
    rw [not_or]
    exact ⟨Nat.not_le.mpr htoken, Nat.not_le.mpr hhead⟩
  have hseqLen := batchSpec.seqLens_lt _ (List.mem_of_getElem? hspec.seqLen_eq)
  have hlengthLe := hspec.length_le
  have hcontext : CInt.add (problem.metadata.positions.getD (block / problem.queryHeads) 0 : ℕ)
      1 = some ((problem.metadata.positions.getD (block / problem.queryHeads) 0 + 1 : ℕ) : ℤ) :=
    CInt.add_natCast (j := 1) (by omega)
  rw [CudaAttentionBackend.flashPrefillKernel, if_neg hguard, hactive, Option.bind_eq_bind,
    Option.bind_some, if_neg Bool.false_ne_true.symm, howner', Option.bind_eq_bind, Option.bind_some,
    hflag, Option.bind_some, hposition', Option.bind_some, hcontext, Option.bind_eq_bind,
    Option.bind_some, Int.toNat_natCast]
  rfl

/-- A block of `paged_decode_kernel` is that of a decode request and a head. -/
theorem pagedDecodeKernel_eq {block : ℕ}
    (hblock : block < problem.metadata.seqLens.length * problem.queryHeads)
    (caches : KVCaches EReal) (schedule : ℕ → CudaAttentionBackend.BlockSchedule)
    (garbage : ℕ → CudaAttentionBackend.BlockCell → EReal) (outputs : List EReal) :
    CudaAttentionBackend.pagedDecodeKernel problem.args caches schedule garbage outputs block =
      if (problem.request (block / problem.queryHeads)).decode = false then some outputs
      else (CudaAttentionBackend.rowArgs problem.args caches (block / problem.queryHeads)
        (problem.request (block / problem.queryHeads)).seqLen
        (problem.request (block / problem.queryHeads)).start
        (block % problem.queryHeads)).onlinePagedAttention (schedule block) (garbage block)
          outputs := by
  obtain ⟨hr, hhead⟩ := div_mod_of_lt hblock
  have hspec := batchSpec.rows _ hr
  have hflag : problem.args.metadata.isDecode[block / problem.args.queryHeads]? =
      some (problem.request (block / problem.queryHeads)).decode := hspec.decode_eq
  have hstart : problem.args.metadata.queryStartLoc[block / problem.args.queryHeads]? =
      some (problem.request (block / problem.queryHeads)).start := hspec.start_eq
  have hseqLen : problem.args.metadata.seqLens[block / problem.args.queryHeads]? =
      some (problem.request (block / problem.queryHeads)).seqLen := hspec.seqLen_eq
  have hactive : problem.args.metadata.activeMask[(problem.request
      (block / problem.queryHeads)).start]? = some true :=
    active_getElem? (hspec.start_lt.trans_le hspec.stop_le)
  have hguard : ¬ (problem.args.metadata.seqLens.length ≤ block / problem.args.queryHeads ∨
      problem.args.queryHeads ≤ block % problem.args.queryHeads) := by
    rw [not_or]
    exact ⟨Nat.not_le.mpr hr, Nat.not_le.mpr hhead⟩
  rw [CudaAttentionBackend.pagedDecodeKernel, if_neg hguard, hflag, Option.bind_eq_bind,
    Option.bind_some, hstart, Option.bind_eq_bind, Option.bind_some, hactive, Option.bind_some,
    if_neg Bool.false_ne_true.symm, hseqLen, Option.bind_some]
  rfl

theorem flashPrefillKernel_stores (hfits : problem.Fits) {block : ℕ} (hblock : block < problem.rows)
    (schedule : ℕ → CudaAttentionBackend.BlockSchedule)
    (garbage : ℕ → CudaAttentionBackend.BlockCell → EReal) {outputs : List EReal}
    (hlength : outputs.length = problem.rows * problem.headDim) :
    ∃ outputs', CudaAttentionBackend.flashPrefillKernel problem.args problem.cachesAfter schedule
        garbage outputs block = some outputs' ∧
      outputs'.length = problem.rows * problem.headDim ∧
      Stores (ownedRows problem.flashOwns (fun row dim => some (problem.entry row dim))
        problem.rows problem.headDim block) (outputs[·]?) (outputs'[·]?) := by
  obtain ⟨htoken, hhead⟩ := div_mod_of_lt hblock
  obtain ⟨r, hr, _, hle, hlt, _, hrequest, _, hgetD⟩ := exists_request htoken
  have hdecode : problem.decodeRow block = (problem.request r).decode := congrArg _ hrequest
  rw [flashPrefillKernel_eq hblock hr hle hlt]
  cases hmode : (problem.request r).decode with
  | true =>
      refine ⟨outputs, rfl, hlength, stores_ownedRows_of_none (fun row _ => ?_) _⟩
      by_cases hrow : row = block
      · rw [flashOwns, hrow, hdecode, hmode]
        exact Bool.and_false _
      · rw [flashOwns, decide_eq_false hrow, Bool.false_and]
  | false =>
      obtain ⟨outputs', hrun, hlength', hstores⟩ := onlinePagedAttention_stores hfits _ htoken
        hhead hr hle hlt hgetD (schedule block) (garbage block) hlength.ge
      refine ⟨outputs', hrun, hlength'.trans hlength, ?_⟩
      rw [Nat.div_add_mod'] at hstores
      refine hstores.ownedRows_of_wholeRow fun row => ?_
      by_cases hrow : row = block
      · rw [flashOwns, hrow, hdecode, hmode]
        exact Bool.and_true _
      · rw [flashOwns, decide_eq_false hrow, Bool.false_and]

theorem pagedDecodeKernel_stores (hfits : problem.Fits) {block : ℕ}
    (hblock : block < problem.metadata.seqLens.length * problem.queryHeads)
    (schedule : ℕ → CudaAttentionBackend.BlockSchedule)
    (garbage : ℕ → CudaAttentionBackend.BlockCell → EReal) {outputs : List EReal}
    (hlength : outputs.length = problem.rows * problem.headDim) :
    ∃ outputs', CudaAttentionBackend.pagedDecodeKernel problem.args problem.cachesAfter schedule
        garbage outputs block = some outputs' ∧
      outputs'.length = problem.rows * problem.headDim ∧
      Stores (ownedRows problem.pagedOwns (fun row dim => some (problem.entry row dim))
        problem.rows problem.headDim block) (outputs[·]?) (outputs'[·]?) := by
  obtain ⟨hr, hhead⟩ := div_mod_of_lt hblock
  have hspec := batchSpec.rows _ hr
  have htoken : (problem.request (block / problem.queryHeads)).start < problem.batch.numTokens :=
    hspec.start_lt.trans_le hspec.stop_le
  rw [pagedDecodeKernel_eq hblock]
  cases hmode : (problem.request (block / problem.queryHeads)).decode with
  | false =>
      refine ⟨outputs, rfl, hlength, stores_ownedRows_of_none (fun row _ => ?_) _⟩
      rw [pagedOwns, hmode, Bool.and_false]
  | true =>
      have hsingle := hspec.decode_single hmode
      have hlengthLe := hspec.length_le
      have hcontext : (problem.request (block / problem.queryHeads)).seqLen =
          (problem.request (block / problem.queryHeads)).seqLen - 1 + 1 := by omega
      obtain ⟨outputs', hrun, hlength', hstores⟩ := onlinePagedAttention_stores hfits
        ((problem.request (block / problem.queryHeads)).seqLen - 1) htoken hhead hr le_rfl
        hspec.start_lt (by omega) (schedule block) (garbage block) hlength.ge
      refine ⟨outputs', ?_, hlength'.trans hlength, hstores.ownedRows_of_wholeRow fun row => ?_⟩
      · rw [if_neg Bool.false_ne_true.symm, hcontext]
        exact hrun
      · rw [pagedOwns, hmode, Bool.and_true]

/-! ## A call -/

theorem flashOwns_apart {block block' : ℕ} (hne : block ≠ block') :
    Apart (ownedRows problem.flashOwns (fun row dim => some (problem.entry row dim)) problem.rows
        problem.headDim block)
      (ownedRows problem.flashOwns (fun row dim => some (problem.entry row dim)) problem.rows
        problem.headDim block') := by
  refine ownedRows_apart fun row _ howns => ?_
  have hrow := of_decide_eq_true (Bool.and_eq_true_iff.mp howns).1
  rw [flashOwns, decide_eq_false (fun heq => hne (hrow.symm.trans heq)), Bool.false_and]

theorem pagedOwns_iff {block : ℕ}
    (hblock : block < problem.metadata.seqLens.length * problem.queryHeads)
    (hrow : row < problem.rows) : problem.pagedOwns block row = true ↔
      problem.decodeRow row = true ∧
        block = problem.metadata.requestIndices.getD (row / problem.queryHeads) 0 *
          problem.queryHeads + row % problem.queryHeads := by
  obtain ⟨htoken, hhead⟩ := div_mod_of_lt hrow
  obtain ⟨hr, hhead'⟩ := div_mod_of_lt hblock
  obtain ⟨r, hr', hspec', hle, hlt, howner, hrequest, _⟩ := exists_request htoken
  have hspec := batchSpec.rows _ hr
  have hindex : problem.metadata.requestIndices.getD (row / problem.queryHeads) 0 = r := by
    rw [List.getD_eq_getElem?_getD, howner, Option.getD_some]
  rw [pagedOwns, Bool.and_eq_true_iff, decide_eq_true_iff, hindex, decodeRow, hrequest]
  constructor
  · rintro ⟨rfl, hdecode⟩
    rw [row_div _ hhead'] at hle hlt
    rw [row_mod _ hhead']
    obtain rfl := batchSpec.request_unique hr' hr hle hlt le_rfl hspec.start_lt
    exact ⟨hdecode, (Nat.div_add_mod' _ _).symm⟩
  · rintro ⟨hdecode, rfl⟩
    rw [row_div _ hhead, row_mod _ hhead]
    have hsingle := hspec'.decode_single hdecode
    have hstart : (problem.request r).start = row / problem.queryHeads := by omega
    exact ⟨by rw [hstart, Nat.div_add_mod'], hdecode⟩

theorem pagedOwns_apart {block block' : ℕ}
    (hblock : block < problem.metadata.seqLens.length * problem.queryHeads)
    (hblock' : block' < problem.metadata.seqLens.length * problem.queryHeads)
    (hne : block ≠ block') :
    Apart (ownedRows problem.pagedOwns (fun row dim => some (problem.entry row dim)) problem.rows
        problem.headDim block)
      (ownedRows problem.pagedOwns (fun row dim => some (problem.entry row dim)) problem.rows
        problem.headDim block') := by
  refine ownedRows_apart fun row hrow howns => ?_
  rw [Bool.eq_false_iff]
  intro howns'
  exact hne (((pagedOwns_iff hblock hrow).mp howns).2.trans
    ((pagedOwns_iff hblock' hrow).mp howns').2.symm)

theorem exists_pagedOwns (hrow : row < problem.rows) (hdecode : problem.decodeRow row = true) :
    ∃ block < problem.metadata.seqLens.length * problem.queryHeads,
      problem.pagedOwns block row = true := by
  obtain ⟨htoken, hhead⟩ := div_mod_of_lt hrow
  obtain ⟨r, hr, _, _, _, howner, _⟩ := exists_request htoken
  have hindex : problem.metadata.requestIndices.getD (row / problem.queryHeads) 0 = r := by
    rw [List.getD_eq_getElem?_getD, howner, Option.getD_some]
  have hblock : r * problem.queryHeads + row % problem.queryHeads <
      problem.metadata.seqLens.length * problem.queryHeads := row_lt hr hhead
  exact ⟨_, hblock, (pagedOwns_iff hblock hrow).mpr ⟨hdecode, by rw [hindex]⟩⟩

theorem flashOwns_iff {block : ℕ} : problem.flashOwns block row = true ↔
    row = block ∧ problem.decodeRow row = false := by
  rw [flashOwns, Bool.and_eq_true_iff, decide_eq_true_iff, Bool.not_eq_true']

theorem checkCommon_eq : CudaAttentionBackend.checkCommon problem.args = true := by
  have hheadDim : problem.args.headDim ≤ CudaAttentionBackend.kThreads := problem.headDim_le
  have hkvHeads : problem.args.kvHeads ≠ 0 := kvHeads_pos.ne'
  have hgroups : problem.args.queryHeads % problem.args.kvHeads = 0 :=
    Nat.mod_eq_zero_of_dvd problem.kvHeads_dvd
  rw [CudaAttentionBackend.checkCommon, decide_eq_true hheadDim, decide_eq_true hkvHeads,
    decide_eq_true hgroups]
  rfl

theorem attentionShape_launchable (hfits : problem.Fits) {blocks : ℕ} (hpos : 0 < blocks)
    (hlt : blocks < 2 ^ 31) :
    (CudaAttentionBackend.attentionShape problem.args blocks).Launchable :=
  ⟨⟨hpos, hlt⟩, ⟨problem.queryHeads_pos, hfits.queryHeads_le⟩,
    (by decide : 0 < CudaAttentionBackend.kThreads ∧ CudaAttentionBackend.kThreads ≤ 1024),
    (by decide : (CudaAttentionBackend.kThreads + 4) * 4 ≤ 49152)⟩

theorem prefill_launchable (hfits : problem.Fits) :
    (CudaAttentionBackend.attentionShape problem.args problem.args.totalTokens).Launchable :=
  attentionShape_launchable hfits numTokens_pos
    ((Nat.le_mul_of_pos_right _ elementsPerToken_pos).trans_lt hfits.total_lt)

theorem decode_launchable (hfits : problem.Fits) :
    (CudaAttentionBackend.attentionShape problem.args
      problem.args.metadata.seqLens.length).Launchable :=
  attentionShape_launchable hfits problem.batchSpec.requests_pos
    (problem.batchSpec.requests_le.trans_lt
      ((Nat.le_mul_of_pos_right _ elementsPerToken_pos).trans_lt hfits.total_lt))

/-- The rows of the two kernels together. -/
theorem cudaForward_eq (hfits : problem.Fits)
    (execution : CudaAttentionBackend.Execution EReal) :
    CudaAttentionBackend.forward problem.args execution problem.caches =
      some (problem.cachesAfter, asFloats problem.outputAfter) := by
  have hstart : (List.replicate problem.args.query.length (0 : EReal)).length =
      problem.rows * problem.headDim := by
    rw [List.length_replicate]
    exact (length_asFloats _).trans problem.length_query
  obtain ⟨outputs, hflash, hlength, hscattered⟩ := execution.prefill.exists_launch problem.rows
    (fun (outputs : List EReal) (i : ℕ) => outputs[i]?)
    (P := fun outputs : List EReal => outputs.length = problem.rows * problem.headDim) hstart
    (fun _ _ _ _ hne => flashOwns_apart hne)
    (fun outputs block hblock hlength _ => flashPrefillKernel_stores hfits hblock
      execution.prefillBlock execution.prefillShared hlength)
  obtain ⟨outputs', hpaged, hlength', hscattered'⟩ := execution.decode.exists_launch
    (problem.metadata.seqLens.length * problem.queryHeads)
    (fun (outputs : List EReal) (i : ℕ) => outputs[i]?)
    (P := fun outputs : List EReal => outputs.length = problem.rows * problem.headDim) hlength
    (fun _ hblock _ hblock' hne => pagedOwns_apart hblock hblock' hne)
    (fun outputs block hblock hlength _ => pagedDecodeKernel_stores hfits hblock
      execution.decodeBlock execution.decodeShared hlength)
  have hrows := hscattered.ownedRows_then hscattered' fun row hrow => by
    cases hdecode : problem.decodeRow row with
    | true =>
        obtain ⟨block, hblock, howns⟩ := exists_pagedOwns hrow hdecode
        exact Or.inl ⟨block, List.mem_range.mpr hblock, howns⟩
    | false =>
        refine Or.inr ⟨fun block hblock => ?_, row, List.mem_range.mpr hrow,
          flashOwns_iff.mpr ⟨rfl, hdecode⟩⟩
        rw [Bool.eq_false_iff]
        intro howns
        exact Bool.false_ne_true (hdecode.symm.trans
          ((pagedOwns_iff (List.mem_range.mp hblock) hrow).mp howns).1)
  have hflash' : CudaAttentionBackend.flashPrefillOut problem.args execution problem.cachesAfter
      (List.replicate problem.args.query.length 0) = some outputs := by
    rw [CudaAttentionBackend.flashPrefillOut, if_pos ⟨checkCommon_eq, prefill_launchable hfits⟩]
    exact hflash
  have hpaged' : CudaAttentionBackend.pagedDecodeOut problem.args execution problem.cachesAfter
      outputs = some outputs' := by
    rw [CudaAttentionBackend.pagedDecodeOut, if_pos ⟨checkCommon_eq, decode_launchable hfits⟩]
    exact hpaged
  rw [CudaAttentionBackend.forward, cuda_appendKv_eq hfits, Option.bind_eq_bind, Option.bind_some,
    hflash', Option.bind_eq_bind, Option.bind_some, hpaged', eq_outputAfter hrows hlength']
  rfl

/-! ## Who stores a row -/

/-- A block of a kernel stores to cell `i` of an output. -/
def Writes (kernel : List EReal → ℕ → Option (List EReal)) (size block i : ℕ) : Prop :=
  ∃ outputs outputs' : List EReal, outputs.length = size ∧ kernel outputs block = some outputs' ∧
    outputs'[i]? ≠ outputs[i]?

/-- A block stores the rows it owns and no others. -/
theorem writes_iff {kernel : List EReal → ℕ → Option (List EReal)} {owns : ℕ → ℕ → Bool}
    {block i : ℕ}
    (hkernel : ∀ outputs : List EReal, outputs.length = problem.rows * problem.headDim →
      ∃ outputs', kernel outputs block = some outputs' ∧
        outputs'.length = problem.rows * problem.headDim ∧
        Stores (ownedRows owns (fun row dim => some (problem.entry row dim)) problem.rows
          problem.headDim block) (outputs[·]?) (outputs'[·]?))
    (hi : i < problem.rows * problem.headDim) :
    Writes kernel (problem.rows * problem.headDim) block i ↔
      owns block (i / problem.headDim) = true := by
  obtain ⟨hrow, hdim⟩ := div_mod_of_lt hi
  constructor
  · rintro ⟨outputs, outputs', hlength, hrun, hne⟩
    obtain ⟨outputs'', hrun', _, hstores⟩ := hkernel outputs hlength
    obtain rfl := Option.some.inj (hrun.symm.trans hrun')
    by_contra howns
    refine hne ((hstores i).trans ?_)
    rw [ownedRows_eq_none (Bool.eq_false_iff.mpr howns)]
    rfl
  · intro howns
    -- A content of the output that is not what the row will hold.
    obtain ⟨other, hother⟩ :=
      exists_ne (problem.entry (i / problem.headDim) (i % problem.headDim))
    obtain ⟨outputs', hrun, _, hstores⟩ := hkernel
      (List.replicate (problem.rows * problem.headDim) other) (List.length_replicate ..)
    refine ⟨_, outputs', List.length_replicate .., hrun, ?_⟩
    have hcell : outputs'[i]? = _ := hstores i
    rw [ownedRows, if_pos ⟨howns, hrow, hdim⟩, Option.getD_some] at hcell
    rw [hcell, List.getElem?_replicate_of_lt hi]
    exact fun heq => hother (Option.some.inj heq).symm

end AttentionProblem

end MiniVLLM
