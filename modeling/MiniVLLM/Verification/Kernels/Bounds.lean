import MiniVLLM.Verification.Kernels.CudaRows

/-! # The bounds of the extension

Every bound on a batch is one on a number that some thread computes, or on a launch. A call of the
extension whose numbers are out of bounds has no result, on any order of blocks and threads. -/

namespace MiniVLLM

open Launch NativeInts FloatOps

namespace AttentionProblem

variable {problem : AttentionProblem} {execution : CudaAttentionBackend.Execution EReal}
  {token queryHead r : ℕ}

/-- A row that fails on any memory: its block is one of `flash_prefill_kernel`, or one of
`paged_decode_kernel`. -/
theorem forward_eq_none_of_row (hr : r < problem.metadata.seqLens.length)
    (hle : (problem.request r).start ≤ token) (hlt : token < (problem.request r).stop)
    (hhead : queryHead < problem.queryHeads)
    (hnone : ∀ caches schedule garbage outputs,
      (CudaAttentionBackend.rowArgs problem.args caches r
        ((problem.request r).seqLen - ((problem.request r).stop - token) + 1) token
        queryHead).onlinePagedAttention schedule garbage outputs = none) :
    CudaAttentionBackend.forward problem.args execution problem.caches = none := by
  have hspec := batchSpec.rows r hr
  have htoken := hlt.trans_le hspec.stop_le
  obtain ⟨r', hr', _, hle', hlt', _, _, _, hgetD⟩ := exists_request htoken
  obtain rfl := batchSpec.request_unique hr' hr hle' hlt' hle hlt
  rw [CudaAttentionBackend.forward]
  cases CudaAttentionBackend.appendKv problem.args execution problem.caches with
  | none => rfl
  | some caches =>
      rw [Option.bind_eq_bind, Option.bind_some]
      cases hmode : (problem.request r').decode with
      | false =>
          have hflash : CudaAttentionBackend.flashPrefillOut problem.args execution caches
              (List.replicate problem.args.query.length 0) = none := by
            rw [CudaAttentionBackend.flashPrefillOut]
            split
            · refine Schedule.launch_eq_none (row_lt htoken hhead) (fun outputs => ?_) _
              rw [flashPrefillKernel_eq (row_lt htoken hhead) hr (by rwa [row_div _ hhead])
                (by rwa [row_div _ hhead]), hmode, row_div _ hhead, row_mod _ hhead, hgetD]
              exact hnone ..
            · rfl
          rw [hflash]
          rfl
      | true =>
          have hsingle := hspec.decode_single hmode
          have hlengthLe := hspec.length_le
          have hstart : (problem.request r').start = token := by omega
          have hcontext : (problem.request r').seqLen =
              (problem.request r').seqLen - ((problem.request r').stop - token) + 1 := by omega
          cases CudaAttentionBackend.flashPrefillOut problem.args execution caches
              (List.replicate problem.args.query.length 0) with
          | none => rfl
          | some outputs =>
              have hpaged : CudaAttentionBackend.pagedDecodeOut problem.args execution caches
                  outputs = none := by
                rw [CudaAttentionBackend.pagedDecodeOut]
                split
                · refine Schedule.launch_eq_none (row_lt hr hhead) (fun outputs => ?_) _
                  rw [pagedDecodeKernel_eq (row_lt hr hhead), row_div _ hhead, row_mod _ hhead,
                    hmode, if_neg Bool.false_ne_true.symm, hstart, hcontext]
                  exact hnone ..
                · rfl
              rw [Option.bind_eq_bind, Option.bind_some, hpaged]
              rfl

variable {result : KVCaches EReal × List EReal}

/-- The blocks of the appending launch are counted in `int`. -/
theorem appended_lt_of_forward
    (hrun : CudaAttentionBackend.forward problem.args execution problem.caches = some result) :
    problem.batch.numTokens * (problem.kvHeads * problem.headDim) + 256 < 2 ^ 31 := by
  obtain ⟨caches, happend, _⟩ := Option.bind_eq_some_iff.mp hrun
  obtain ⟨elements, helements, hrest⟩ := Option.bind_eq_some_iff.mp happend
  obtain ⟨blocks, hblocks, _⟩ := Option.bind_eq_some_iff.mp hrest
  have htotal : problem.args.totalTokens * problem.args.elementsPerToken < 2 ^ 31 := by
    by_contra hnot
    rw [CudaAttentionBackend.elements, Option.bind_eq_bind, CInt.bind_mul_natCast_eq_none (by
      rw [Nat.mul_assoc]
      exact Nat.le_of_not_lt hnot)] at helements
    cases helements
  rw [elements_eq htotal] at helements
  obtain rfl := Option.some.inj helements
  by_contra hnot
  have hnone : CInt.ceilDiv ((problem.args.totalTokens * problem.args.elementsPerToken : ℕ) : ℤ)
      CudaAttentionBackend.kThreads = none :=
    CInt.ceilDiv_natCast_eq_none (Nat.le_of_not_lt hnot)
  rw [hnone] at hblocks
  cases hblocks

/-- The thread of the last entry of a token, whose slot is too far. -/
theorem appendKvKernel_eq_none
    (hlt : problem.args.totalTokens * problem.args.elementsPerToken < 2 ^ 31) {slot : ℕ}
    (hget : problem.metadata.slots[token]? = some slot)
    (hnot : ¬ (slot + 1) * problem.args.elementsPerToken ≤ 2 ^ 31) (caches : KVCaches EReal) :
    CudaAttentionBackend.appendKvKernel problem.args caches
      (token * problem.args.elementsPerToken + (problem.args.elementsPerToken - 1)) = none := by
  have htoken : token < problem.batch.numTokens :=
    batchSpec.length_slots ▸ (List.getElem?_eq_some_iff.mp hget).1
  have hwithin : problem.args.elementsPerToken - 1 < problem.args.elementsPerToken :=
    Nat.sub_one_lt elementsPerToken_pos.ne'
  let linear := token * problem.args.elementsPerToken + (problem.args.elementsPerToken - 1)
  have hlinear : linear < problem.batch.numTokens * problem.args.elementsPerToken :=
    row_lt htoken hwithin
  have hread : Buffer.load problem.args.metadata.slotMapping
      (linear / problem.args.elementsPerToken : ℕ) = some (slot : ℤ) := by
    rw [row_div _ hwithin, load_slotMapping htoken, List.getD_eq_getElem?_getD, hget]
    rfl
  have hindex : appendCacheIndex (Buffer.load problem.args.metadata.slotMapping)
      problem.args.elementsPerToken linear = none := by
    have hsplit : (slot + 1) * problem.args.elementsPerToken =
        slot * problem.args.elementsPerToken + problem.args.elementsPerToken := Nat.succ_mul ..
    refine appendCacheIndex_eq_none hread ?_
    rw [row_mod _ hwithin]
    omega
  have hactive : problem.args.metadata.activeMask[linear / problem.args.elementsPerToken]? =
      some true := by
    rw [row_div _ hwithin]
    exact active_getElem? htoken
  have hguard : ¬ ((problem.batch.numTokens * problem.args.elementsPerToken : ℕ) : ℤ) ≤ linear :=
    Int.not_le.mpr (Int.ofNat_lt.mpr hlinear)
  rw [CudaAttentionBackend.appendKvKernel, elementsPerToken_eq hlt, Option.bind_eq_bind,
    Option.bind_some, totalElements_eq hlt, Option.bind_eq_bind, Option.bind_some,
    if_neg hguard, hactive, Option.bind_eq_bind, Option.bind_some,
    if_neg Bool.false_ne_true.symm, hindex]
  rfl

theorem written_le_of_forward
    (hrun : CudaAttentionBackend.forward problem.args execution problem.caches = some result) :
    ∀ slot ∈ problem.metadata.slots,
      (slot + 1) * (problem.kvHeads * problem.headDim) ≤ 2 ^ 31 := by
  have happended := appended_lt_of_forward hrun
  have hlt : problem.args.totalTokens * problem.args.elementsPerToken < 2 ^ 31 :=
    (Nat.le_add_right _ 256).trans_lt happended
  have hblocks : CInt.ceilDiv ((problem.args.totalTokens * problem.args.elementsPerToken : ℕ) : ℤ)
      CudaAttentionBackend.kThreads = some (((problem.args.totalTokens *
        problem.args.elementsPerToken + 256 - 1) / 256 : ℕ) : ℤ) :=
    CInt.ceilDiv_natCast happended (by decide)
  intro slot hslot
  by_contra hnot
  obtain ⟨token, hget⟩ := List.mem_iff_getElem?.mp hslot
  have htoken : token < problem.batch.numTokens :=
    batchSpec.length_slots ▸ (List.getElem?_eq_some_iff.mp hget).1
  have hlinear : token * problem.args.elementsPerToken + (problem.args.elementsPerToken - 1) <
      problem.args.totalTokens * problem.args.elementsPerToken :=
    row_lt htoken (Nat.sub_one_lt elementsPerToken_pos.ne')
  have happend : CudaAttentionBackend.appendKv problem.args execution problem.caches = none := by
    rw [CudaAttentionBackend.appendKv, elements_eq hlt, Option.bind_eq_bind, Option.bind_some,
      hblocks, Option.bind_some, Int.toNat_natCast]
    split
    · exact Schedule.launch_eq_none (hlinear.trans_le (le_gridThreads _))
        (appendKvKernel_eq_none hlt hget hnot) _
    · rfl
  rw [CudaAttentionBackend.forward, happend] at hrun
  cases hrun

theorem queryHeads_le_of_forward
    (hrun : CudaAttentionBackend.forward problem.args execution problem.caches = some result) :
    problem.queryHeads ≤ 65535 := by
  obtain ⟨caches, _, hrest⟩ := Option.bind_eq_some_iff.mp hrun
  obtain ⟨outputs, hflash, _⟩ := Option.bind_eq_some_iff.mp hrest
  rw [CudaAttentionBackend.flashPrefillOut] at hflash
  split at hflash
  · rename_i hshape
    exact hshape.2.2.1.2
  · cases hflash

/-- The table of the last request starts at an `int`. -/
theorem tables_lt_of_forward
    (hrun : CudaAttentionBackend.forward problem.args execution problem.caches = some result) :
    (problem.metadata.seqLens.length - 1) *
      (problem.metadata.blockTables.headD []).length < 2 ^ 31 := by
  by_contra hnot
  have hlast : problem.metadata.seqLens.length - 1 < problem.metadata.seqLens.length :=
    Nat.sub_one_lt problem.batchSpec.requests_pos.ne'
  have hspec := batchSpec.rows _ hlast
  refine Option.some_ne_none _ (hrun.symm.trans (forward_eq_none_of_row hlast le_rfl hspec.start_lt
    problem.queryHeads_pos fun caches schedule garbage outputs => ?_))
  refine CudaAttentionBackend.RowArgs.onlinePagedAttention_eq_none (Nat.succ_pos _)
    (show 0 < CudaAttentionBackend.kThreads by decide)
    (CudaAttentionBackend.RowArgs.productThread_eq_none problem.headDim_pos fun slot hslot => ?_)
    schedule garbage outputs
  obtain ⟨block, hblock, _⟩ := Option.bind_eq_some_iff.mp hslot
  obtain ⟨start, hstart, _⟩ := Option.bind_eq_some_iff.mp hblock
  have hnone : CInt.mul ((problem.metadata.seqLens.length - 1 : ℕ) : ℤ)
      ((problem.metadata.blockTables.headD []).length : ℕ) = none :=
    CInt.mul_natCast_eq_none (Nat.le_of_not_lt hnot)
  exact absurd (hnone.symm.trans hstart) (by simp)

theorem query_le_of_forward
    (hrun : CudaAttentionBackend.forward problem.args execution problem.caches = some result) :
    problem.batch.numTokens * problem.queryHeads * problem.headDim ≤ 2 ^ 31 := by
  by_contra hnot
  have htoken : problem.batch.numTokens - 1 < problem.batch.numTokens :=
    Nat.sub_one_lt numTokens_pos.ne'
  have hhead : problem.queryHeads - 1 < problem.queryHeads :=
    Nat.sub_one_lt problem.queryHeads_pos.ne'
  have hdim : problem.headDim - 1 < problem.headDim := Nat.sub_one_lt problem.headDim_pos.ne'
  obtain ⟨r, hr, _, hle, hlt, _⟩ := exists_request htoken
  refine Option.some_ne_none _ (hrun.symm.trans (forward_eq_none_of_row hr hle hlt hhead
    fun caches schedule garbage outputs => ?_))
  refine CudaAttentionBackend.RowArgs.onlinePagedAttention_eq_none (Nat.succ_pos _)
    (hdim.trans_le problem.headDim_le)
    (CudaAttentionBackend.RowArgs.productThread_eq_none hdim fun slot _ => Or.inl ?_)
    schedule garbage outputs
  have hlast : 2 ^ 31 ≤ ((problem.batch.numTokens - 1) * problem.queryHeads +
      (problem.queryHeads - 1)) * problem.headDim + (problem.headDim - 1) := by
    rw [last_cell numTokens_pos problem.queryHeads_pos,
      last_cell (Nat.mul_pos numTokens_pos problem.queryHeads_pos) problem.headDim_pos]
    omega
  exact CInt.bind_index_natCast_eq_none hlast

/-- The last query head reads the last K/V head. -/
theorem kvHeadOf_last : problem.kvHeadOf (problem.queryHeads - 1) = problem.kvHeads - 1 := by
  have hsplit : (problem.kvHeads - 1) * (problem.queryHeads / problem.kvHeads) +
      (problem.queryHeads / problem.kvHeads - 1) = problem.queryHeads - 1 := by
    rw [last_cell kvHeads_pos groups_pos, Nat.mul_div_cancel' problem.kvHeads_dvd]
  rw [kvHeadOf, ← hsplit, row_div _ (Nat.sub_one_lt groups_pos.ne')]

/-- The entry of a position of a request, in the row of its last token and the last head. -/
theorem read_le_of_forward (hblockSize : problem.blockSize < 2 ^ 31)
    (hrun : CudaAttentionBackend.forward problem.args execution problem.caches = some result) :
    ∀ r < problem.metadata.seqLens.length, ∀ position < (problem.request r).seqLen,
      ((problem.request r).slot position + 1) * (problem.kvHeads * problem.headDim) ≤ 2 ^ 31 := by
  intro r hr position hposition
  by_contra hnot
  have hspec := batchSpec.rows r hr
  have hstart := hspec.start_lt
  have hlengthLe := hspec.length_le
  have hhead : problem.queryHeads - 1 < problem.queryHeads :=
    Nat.sub_one_lt problem.queryHeads_pos.ne'
  have hdim : problem.headDim - 1 < problem.headDim := Nat.sub_one_lt problem.headDim_pos.ne'
  have hle : (problem.request r).start ≤ (problem.request r).stop - 1 := by omega
  have hlt : (problem.request r).stop - 1 < (problem.request r).stop := by omega
  have hcontext : position < (problem.request r).seqLen -
      ((problem.request r).stop - ((problem.request r).stop - 1)) + 1 := by omega
  refine Option.some_ne_none _ (hrun.symm.trans (forward_eq_none_of_row hr hle hlt hhead
    fun caches schedule garbage outputs => ?_))
  refine CudaAttentionBackend.RowArgs.onlinePagedAttention_eq_none hcontext
    (hdim.trans_le problem.headDim_le)
    (CudaAttentionBackend.RowArgs.productThread_eq_none hdim fun slot hslot => Or.inr ?_)
    schedule garbage outputs
  obtain ⟨block, hread, hblock⟩ := blockTable_eq (tables_lt_of_forward hrun) caches _ hr hposition
  rw [rowArgs_blockSize hblockSize] at hslot
  have hpaged : (problem.request r).slot position < 2 ^ 31 := by
    by_contra hge
    rw [pagedSlot_eq_none hread (hblock ▸ Nat.le_of_not_lt hge)] at hslot
    cases hslot
  rw [pagedSlot_natCast hread (hblock ▸ hpaged), hblock] at hslot
  obtain rfl := Option.some.inj hslot
  have hlast : 2 ^ 31 ≤ ((problem.request r).slot position * problem.kvHeads +
      problem.kvHeadOf (problem.queryHeads - 1)) * problem.headDim + (problem.headDim - 1) := by
    have hrow : (problem.request r).slot position * problem.kvHeads + (problem.kvHeads - 1) =
        ((problem.request r).slot position + 1) * problem.kvHeads - 1 :=
      last_cell (Nat.succ_pos _) kvHeads_pos
    rw [kvHeadOf_last, hrow, last_cell (Nat.mul_pos (Nat.succ_pos _) kvHeads_pos)
      problem.headDim_pos, Nat.mul_assoc]
    exact Nat.le_sub_one_of_lt (Nat.lt_of_not_le hnot)
  exact CInt.bind_index_natCast_eq_none hlast

/-- The call has a result only within the bounds. -/
theorem fits_of_forward (hblockSize : problem.blockSize < 2 ^ 31)
    (hrun : CudaAttentionBackend.forward problem.args execution problem.caches = some result) :
    problem.Fits where
  written_le := written_le_of_forward hrun
  read_le := read_le_of_forward hblockSize hrun
  query_le := query_le_of_forward hrun
  appended_lt := appended_lt_of_forward hrun
  queryHeads_le := queryHeads_le_of_forward hrun
  tables_lt := tables_lt_of_forward hrun
  blockSize_lt := hblockSize

end AttentionProblem

end MiniVLLM
