import MiniVLLM.Verification.Kernels.CudaRows

/-! # The rows of the PyTorch backend

The loop over the requests gathers the keys and values of a request, repeats them for the query
heads, masks the positions behind the one of a token, and stores the rows of the request. -/

namespace MiniVLLM

open Launch FloatOps

/-- A tensor of heads, rows and dimensions. -/
noncomputable def tensorOf (heads rows width : ℕ) (entry : ℕ → ℕ → ℕ → ℝ) :
    List (List (List EReal)) :=
  (List.range heads).map fun head => (List.range rows).map fun row =>
    (List.range width).map fun dim => (entry head row dim : EReal)

/-- What `scaled_dot_product_attention` computes in exact arithmetic: the softmax attention of
every query over the keys that its mask leaves, where the mask leaves one to every query. -/
def SoftmaxAttention (sdpa : ScaledDotProductAttention EReal) : Prop :=
  ∀ (heads queries tokens width : ℕ) (query key value : ℕ → ℕ → ℕ → ℝ) (mask : ℕ → ℕ → Bool),
    (∀ row < queries, ∃ token < tokens, mask row token = true) →
    sdpa (tensorOf heads queries width query) (tensorOf heads tokens width key)
        (tensorOf heads tokens width value)
        ((List.range queries).map fun row => (List.range tokens).map (mask row)) =
      tensorOf heads queries width fun head row dim =>
        OnlineSoftmax.attention width (query head row) (key head) (value head)
          ((List.range tokens).filter (mask row)) dim

namespace AttentionProblem

open TorchAttentionBackend

variable {problem : AttentionProblem} {r start stop : ℕ}

/-! ## Appending -/

theorem maskSelect_replicate {β : Type} {values : List β} {count : ℕ}
    (h : values.length = count) :
    maskSelect values (List.replicate count true) = some values := by
  have hzip : values.zip (List.replicate count true) = values.map fun value => (value, true) := by
    subst h
    induction values with
    | nil => rfl
    | cons value values ih =>
        rw [List.length_cons, List.replicate_succ, List.zip_cons_cons, ih, List.map_cons]
  rw [maskSelect, if_pos (h.trans List.length_replicate.symm), hzip, List.filterMap_map]
  exact congrArg some (List.filterMap_some ..)

theorem tensorRow_asFloats {tensor : List ℝ} {row rows width : ℕ} (hrow : row < rows)
    (hlength : tensor.length = rows * width) :
    tensorRow (asFloats tensor) width row =
      some ((List.range width).map fun i => (tensor.getD (row * width + i) 0 : EReal)) :=
  Option.mapM_eq_some fun _ hi =>
    load_asFloats (hlength.symm ▸ row_lt hrow (List.mem_range.mp hi))

noncomputable def appendedRows (problem : AttentionProblem) (tensor : List ℝ) :
    List (List EReal) :=
  (List.range problem.batch.numTokens).map fun token =>
    (List.range problem.args.elementsPerToken).map fun i =>
      (tensor.getD (token * problem.args.elementsPerToken + i) 0 : EReal)

/-- `index_copy_` puts the rows of the batch in their slots. -/
theorem indexCopy_eq (tensor : List ℝ) {cache : List ℝ}
    (hcache : cache.length = problem.cacheSlots * problem.args.elementsPerToken) :
    indexCopy problem.cacheSlots problem.args.elementsPerToken (asFloats cache)
        problem.metadata.slotMapping (problem.appendedRows tensor) =
      some (asFloats (problem.cacheAfter tensor cache)) := by
  have hlength : problem.metadata.slotMapping.length = (problem.appendedRows tensor).length := by
    rw [batchSpec.length_slotMapping, appendedRows, List.length_map, List.length_range]
  have hzip : problem.metadata.slotMapping.zip (problem.appendedRows tensor) =
      (List.range problem.batch.numTokens).map fun token =>
        ((problem.metadata.slots.getD token 0 : ℤ),
          (List.range problem.args.elementsPerToken).map fun i =>
            (tensor.getD (token * problem.args.elementsPerToken + i) 0 : EReal)) := by
    rw [batchSpec.slotMapping_range, appendedRows]
    exact List.zip_map' ..
  have hpairs : (List.range problem.batch.numTokens).Pairwise fun token token' =>
      Apart (wholeRow (fun _ => appended tensor problem.args.elementsPerToken token)
          problem.cacheSlots problem.args.elementsPerToken (problem.metadata.slots.getD token 0))
        (wholeRow (fun _ => appended tensor problem.args.elementsPerToken token')
          problem.cacheSlots problem.args.elementsPerToken
          (problem.metadata.slots.getD token' 0)) :=
    List.nodup_range.pairwise_of_forall_ne fun token htoken token' htoken' hne =>
      wholeRow_apart fun heq =>
        hne (slot_inj (List.mem_range.mp htoken) (List.mem_range.mp htoken') heq)
  obtain ⟨cache', hrun, hsized, hscattered⟩ := exists_foldlM_buffer
    (fun cache' token =>
      if 0 ≤ (problem.metadata.slots.getD token 0 : ℤ) ∧
          (problem.metadata.slots.getD token 0 : ℤ) < problem.cacheSlots then
        storeRow cache' ((problem.metadata.slots.getD token 0 : ℤ).toNat *
            problem.args.elementsPerToken)
          ((List.range problem.args.elementsPerToken).map fun i =>
            (tensor.getD (token * problem.args.elementsPerToken + i) 0 : EReal))
      else none)
    (asFloats cache) hpairs fun cache' token htoken hsized => by
      have hslot := (batchSpec.slot_getD (List.mem_range.mp htoken)).2
      rw [if_pos ⟨Nat.cast_nonneg _, Nat.cast_lt.mpr hslot⟩, Int.toNat_natCast]
      exact storeRow_stores _ hslot (hsized ▸ (length_asFloats cache).trans hcache).ge
  have hstored := hscattered.slotRows fun token htoken => (batchSpec.slot_getD htoken).2
  rw [indexCopy, if_pos hlength, hzip, List.foldlM_map]
  exact hrun.trans (congrArg some
    (eq_cacheAfter hcache (hsized.trans ((length_asFloats _).trans hcache)) hstored))

theorem torch_appendKv_eq :
    TorchAttentionBackend.appendKv problem.args problem.caches = some problem.cachesAfter := by
  have hrows : ∀ {tensor : List ℝ},
      tensor.length = problem.batch.numTokens * problem.args.elementsPerToken →
      (List.range problem.args.totalTokens).mapM
        (tensorRow (asFloats tensor) problem.args.elementsPerToken) =
          some (problem.appendedRows tensor) :=
    fun hlength => Option.mapM_eq_some fun token htoken =>
      tensorRow_asFloats (List.mem_range.mp htoken) hlength
  have hmask : problem.args.metadata.activeMask = List.replicate problem.batch.numTokens true :=
    batchSpec.activeMask_eq
  have hselect : ∀ tensor : List ℝ, maskSelect (problem.appendedRows tensor)
      (List.replicate problem.batch.numTokens true) = some (problem.appendedRows tensor) :=
    fun tensor => maskSelect_replicate (by rw [appendedRows, List.length_map, List.length_range])
  have hslots : maskSelect problem.args.metadata.slotMapping
      (List.replicate problem.batch.numTokens true) = some problem.metadata.slotMapping :=
    maskSelect_replicate batchSpec.length_slotMapping
  have hkeyRows : (List.range problem.args.totalTokens).mapM
      (tensorRow problem.args.key problem.args.elementsPerToken) =
        some (problem.appendedRows problem.key) := hrows problem.length_key
  have hvalueRows : (List.range problem.args.totalTokens).mapM
      (tensorRow problem.args.value problem.args.elementsPerToken) =
        some (problem.appendedRows problem.value) := hrows problem.length_value
  have hkey : indexCopy problem.args.cacheSlots problem.args.elementsPerToken
      problem.caches.keyCache problem.metadata.slotMapping (problem.appendedRows problem.key) =
        some (asFloats problem.keyCacheAfter) := indexCopy_eq problem.key problem.length_keyCache
  have hvalue : indexCopy problem.args.cacheSlots problem.args.elementsPerToken
      problem.caches.valueCache problem.metadata.slotMapping
        (problem.appendedRows problem.value) = some (asFloats problem.valueCacheAfter) :=
    indexCopy_eq problem.value problem.length_valueCache
  rw [TorchAttentionBackend.appendKv, hmask, hslots, Option.bind_eq_bind, Option.bind_some,
    hkeyRows, Option.bind_eq_bind, Option.bind_some, hselect, Option.bind_some, hvalueRows,
    Option.bind_eq_bind, Option.bind_some, hselect, Option.bind_some, hkey, Option.bind_some,
    hvalue]
  rfl

/-! ## Gathering -/

/-- The keys or values of a request, by query head. -/
noncomputable def gathered (problem : AttentionProblem) (cache : List ℝ) (r : ℕ)
    (queryHead position dim : ℕ) : ℝ :=
  headRow cache problem.kvHeads problem.headDim (problem.kvHeadOf queryHead)
    ((problem.request r).slot position) dim

theorem slotOf_eq (hr : r < problem.metadata.seqLens.length) {position : ℕ}
    (hposition : position < (problem.request r).seqLen) :
    slotOf problem.args r position = some (((problem.request r).slot position : ℕ) : ℤ) := by
  obtain ⟨table, htable, hblocks⟩ := (batchSpec.rows r hr).table_eq
  obtain ⟨block, hblock, hslot⟩ := hblocks position hposition
  have htable' : problem.args.metadata.blockTables[r]? = some table := htable
  have hblock' : table[position / problem.args.metadata.blockSize]? = some (block : ℤ) := hblock
  rw [slotOf, htable', Option.bind_eq_bind, Option.bind_some, hblock',
    Option.bind_eq_bind, Option.bind_some, ← hslot]
  push_cast
  rfl

theorem wrapIndex_natCast {size index : ℕ} (h : index < size) :
    wrapIndex size (index : ℤ) = some index := by
  rw [wrapIndex, if_pos (Int.natCast_nonneg _), if_pos (Int.ofNat_lt.mpr h), Int.toNat_natCast]

/-- Entry by entry, with as many copies of each as are asked for. -/
theorem repeatInterleave_map_range {β : Type} (f : ℕ → β) (count repeats : ℕ) :
    repeatInterleave ((List.range count).map f) repeats =
      (List.range (count * repeats)).map fun i => f (i / repeats) := by
  rw [repeatInterleave, List.flatMap_map, ← flatMap_rows (fun i _ => f i) count repeats]
  refine List.flatMap_congr fun i _ => ?_
  rw [List.map_const', List.length_range]

/-- Every query head gathers from its K/V head. -/
theorem gatherHeads_eq {tensor cache : List ℝ} (hr : r < problem.metadata.seqLens.length) :
    gatherHeads problem.args (asFloats (problem.cacheAfter tensor cache))
        ((List.range (problem.request r).seqLen).map fun position =>
          (((problem.request r).slot position : ℕ) : ℤ)) =
      some (tensorOf problem.queryHeads (problem.request r).seqLen problem.headDim
        (problem.gathered (problem.cacheAfter tensor cache) r)) := by
  have hspec := batchSpec.rows r hr
  have hslots : ((List.range (problem.request r).seqLen).map fun position =>
      (((problem.request r).slot position : ℕ) : ℤ)).mapM (wrapIndex problem.args.cacheSlots) =
        some ((List.range (problem.request r).seqLen).map (problem.request r).slot) := by
    rw [List.mapM_map]
    exact Option.mapM_eq_some fun position hposition =>
      wrapIndex_natCast (hspec.slot_lt position (List.mem_range.mp hposition))
  have hrow : ∀ kvHead < problem.kvHeads,
      ((List.range (problem.request r).seqLen).map (problem.request r).slot).mapM (fun slot =>
        tensorRow (asFloats (problem.cacheAfter tensor cache)) problem.args.headDim
          (slot * problem.args.kvHeads + kvHead)) =
      some ((List.range (problem.request r).seqLen).map fun position =>
        (List.range problem.headDim).map fun dim =>
          (headRow (problem.cacheAfter tensor cache) problem.kvHeads problem.headDim kvHead
            ((problem.request r).slot position) dim : EReal)) := by
    intro kvHead hhead
    rw [List.mapM_map]
    exact Option.mapM_eq_some fun position hposition => Option.mapM_eq_some fun dim hdim =>
      load_cacheAfter (hspec.slot_lt position (List.mem_range.mp hposition)) hhead
        (List.mem_range.mp hdim)
  have hheads := Option.mapM_eq_some (l := List.range problem.args.kvHeads)
    fun kvHead hhead => hrow kvHead (List.mem_range.mp hhead)
  rw [gatherHeads, hslots, Option.bind_eq_bind, Option.bind_some, hheads, Option.bind_eq_bind,
    Option.bind_some]
  have hgroups : problem.kvHeads * problem.args.groups = problem.queryHeads :=
    Nat.mul_div_cancel' problem.kvHeads_dvd
  by_cases hmany : 1 < problem.args.groups
  · rw [if_pos hmany, repeatInterleave_map_range]
    exact congrArg (fun heads => some ((List.range heads).map _)) hgroups
  · have hone : problem.queryHeads / problem.kvHeads = 1 :=
      Nat.le_antisymm (Nat.le_of_not_lt hmany) groups_pos
    have hsame : problem.kvHeads = problem.queryHeads := by
      calc problem.kvHeads = problem.kvHeads * (problem.queryHeads / problem.kvHeads) := by
            rw [hone, Nat.mul_one]
        _ = problem.queryHeads := hgroups
    have hhead : problem.kvHeadOf = id := by
      funext head
      rw [kvHeadOf, hone, Nat.div_one, id]
    rw [if_neg hmany]
    refine congrArg some ?_
    simp only [tensorOf, gathered, hhead, id, ← hsame]
    rfl

theorem queryRows_eq (hr : r < problem.metadata.seqLens.length) :
    queryRows problem.args (problem.request r).start (problem.request r).stop =
      some (tensorOf problem.queryHeads ((problem.request r).stop - (problem.request r).start)
        problem.headDim fun queryHead row => headRow problem.query problem.queryHeads
          problem.headDim queryHead ((problem.request r).start + row)) := by
  have hspec := batchSpec.rows r hr
  have hstop := hspec.stop_le
  refine Option.mapM_eq_some fun queryHead hhead => ?_
  rw [List.range'_eq_map_range, List.mapM_map]
  refine Option.mapM_eq_some fun row hrow => Option.mapM_eq_some fun dim hdim => ?_
  have hrow' := List.mem_range.mp hrow
  have htoken : (problem.request r).start + row < problem.batch.numTokens := by omega
  exact load_query htoken (List.mem_range.mp hhead) (List.mem_range.mp hdim)

def rowPosition (problem : AttentionProblem) (r row : ℕ) : ℕ :=
  (problem.request r).seqLen - ((problem.request r).stop - ((problem.request r).start + row))

theorem causalMask_eq (hr : r < problem.metadata.seqLens.length) :
    causalMask problem.args (problem.request r).start (problem.request r).stop
        (problem.request r).seqLen =
      (List.range ((problem.request r).stop - (problem.request r).start)).map fun row =>
        (List.range (problem.request r).seqLen).map fun position =>
          decide (position < problem.rowPosition r row + 1) := by
  have hspec := batchSpec.rows r hr
  have hstart := hspec.start_lt
  have hpositions : (problem.metadata.positions.drop (problem.request r).start).take
      ((problem.request r).stop - (problem.request r).start) =
        (List.range ((problem.request r).stop - (problem.request r).start)).map
          (problem.rowPosition r) := by
    refine List.ext_getElem? fun row => ?_
    by_cases hrow : row < (problem.request r).stop - (problem.request r).start
    · rw [List.getElem?_take_of_lt hrow, List.getElem?_drop, List.getElem?_map,
        List.getElem?_range hrow, hspec.position_eq _ (Nat.le_add_right _ _) (by omega)]
      rfl
    · rw [List.getElem?_take_eq_none (Nat.le_of_not_lt hrow), List.getElem?_eq_none (by
        rw [List.length_map, List.length_range]
        omega)]
  rw [causalMask, show (problem.args.metadata.positions.drop (problem.request r).start).take
    ((problem.request r).stop - (problem.request r).start) = _ from hpositions, List.map_map]
  simp only [Nat.lt_succ_iff]
  rfl

theorem sdpa_eq {sdpa : ScaledDotProductAttention EReal} (hsdpa : SoftmaxAttention sdpa)
    (hr : r < problem.metadata.seqLens.length) :
    sdpa (tensorOf problem.queryHeads ((problem.request r).stop - (problem.request r).start)
        problem.headDim fun queryHead row => headRow problem.query problem.queryHeads
          problem.headDim queryHead ((problem.request r).start + row))
      (tensorOf problem.queryHeads (problem.request r).seqLen problem.headDim
        (problem.gathered problem.keyCacheAfter r))
      (tensorOf problem.queryHeads (problem.request r).seqLen problem.headDim
        (problem.gathered problem.valueCacheAfter r))
      (causalMask problem.args (problem.request r).start (problem.request r).stop
        (problem.request r).seqLen) =
    tensorOf problem.queryHeads ((problem.request r).stop - (problem.request r).start)
      problem.headDim fun queryHead row dim => problem.attended problem.keyCacheAfter
        problem.valueCacheAfter ((problem.request r).start + row) queryHead dim := by
  have hspec := batchSpec.rows r hr
  have hstart := hspec.start_lt
  have hstop := hspec.stop_le
  have hseqLen := hspec.length_le
  have hbound : ∀ row < (problem.request r).stop - (problem.request r).start,
      problem.rowPosition r row + 1 ≤ (problem.request r).seqLen := by
    intro row hrow
    rw [rowPosition]
    omega
  rw [causalMask_eq hr]
  refine (hsdpa _ _ _ _ _ _ _ (fun row position =>
    decide (position < problem.rowPosition r row + 1)) fun row hrow => ?_).trans ?_
  · have := hbound row hrow
    exact ⟨0, by omega, decide_eq_true (Nat.succ_pos _)⟩
  · refine List.map_congr_left fun queryHead _ => List.map_congr_left fun row hrow =>
      List.map_congr_left fun dim _ => congrArg Real.toEReal ?_
    have hrow' := List.mem_range.mp hrow
    obtain ⟨r', hr', _, hle', hlt', _, hrequest, _, hgetD⟩ := exists_request
      (show (problem.request r).start + row < problem.batch.numTokens by omega)
    obtain rfl := batchSpec.request_unique hr' hr hle' hlt' (Nat.le_add_right _ _) (by omega)
    show OnlineSoftmax.attention _ _ _ _ _ dim = problem.attended _ _ _ queryHead dim
    rw [Tiling.filter_range_lt (hbound row hrow'), attended, hrequest, hgetD]
    rfl

/-! ## Assigning -/

/-- The rows that a turn of the loop stores. -/
def torchOwns (problem : AttentionProblem) (r row : ℕ) : Bool :=
  decide ((problem.request r).start ≤ row / problem.queryHeads) &&
    decide (row / problem.queryHeads < (problem.request r).stop)

theorem torchOwns_iff {row : ℕ} : problem.torchOwns r row = true ↔
    (problem.request r).start ≤ row / problem.queryHeads ∧
      row / problem.queryHeads < (problem.request r).stop := by
  rw [torchOwns, Bool.and_eq_true_iff, decide_eq_true_iff, decide_eq_true_iff]

/-- The row of one token and head is stored. -/
theorem assignRow_stores {pair : ℕ × ℕ} (hle : (problem.request r).start ≤ pair.1)
    (hlt : pair.1 < (problem.request r).stop) (htoken : pair.1 < problem.batch.numTokens)
    (hhead : pair.2 < problem.queryHeads) {outputs : List EReal}
    (hlength : outputs.length = problem.rows * problem.headDim) :
    ∃ outputs', assignRow problem.args (problem.request r).start (tensorOf problem.queryHeads
        ((problem.request r).stop - (problem.request r).start) problem.headDim
        fun queryHead row dim => problem.attended problem.keyCacheAfter problem.valueCacheAfter
          ((problem.request r).start + row) queryHead dim) outputs pair = some outputs' ∧
      outputs'.length = outputs.length ∧
      Stores (wholeRow (fun row dim => some (problem.entry row dim)) problem.rows problem.headDim
        (pair.1 * problem.queryHeads + pair.2)) (outputs[·]?) (outputs'[·]?) := by
  have hoffset : pair.1 - (problem.request r).start <
      (problem.request r).stop - (problem.request r).start := by omega
  obtain ⟨outputs', hstore, hspec⟩ := storeRow_stores
    (problem.entry (pair.1 * problem.queryHeads + pair.2)) (row_lt htoken hhead) hlength.ge
  have hrow : ((List.range problem.headDim).map fun dim => (problem.attended
      problem.keyCacheAfter problem.valueCacheAfter ((problem.request r).start +
        (pair.1 - (problem.request r).start)) pair.2 dim : EReal)) =
      (List.range problem.headDim).map
        (problem.entry (pair.1 * problem.queryHeads + pair.2)) := by
    rw [Nat.add_sub_cancel' hle]
    exact List.map_congr_left fun dim _ => (entry_eq hhead dim).symm
  refine ⟨outputs', ?_, hspec⟩
  rw [assignRow, tensorOf, List.getElem?_map, List.getElem?_range hhead, Option.map_some,
    Option.bind_eq_bind, Option.bind_some, List.getElem?_map, List.getElem?_range hoffset,
    Option.map_some, Option.bind_eq_bind, Option.bind_some, hrow, if_pos (by
      rw [List.length_map, List.length_range]
      rfl)]
  exact hstore

theorem assignRows_stores (hr : r < problem.metadata.seqLens.length) {outputs : List EReal}
    (hlength : outputs.length = problem.rows * problem.headDim) :
    ∃ outputs', assignRows problem.args (problem.request r).start (problem.request r).stop
        (tensorOf problem.queryHeads ((problem.request r).stop - (problem.request r).start)
          problem.headDim fun queryHead row dim => problem.attended problem.keyCacheAfter
            problem.valueCacheAfter ((problem.request r).start + row) queryHead dim) outputs =
          some outputs' ∧
      outputs'.length = outputs.length ∧
      Stores (ownedRows problem.torchOwns (fun row dim => some (problem.entry row dim))
        problem.rows problem.headDim r) (outputs[·]?) (outputs'[·]?) := by
  have hspec := batchSpec.rows r hr
  have hstop := hspec.stop_le
  have hmem : ∀ pair : ℕ × ℕ, pair ∈ (List.range' (problem.request r).start
      ((problem.request r).stop - (problem.request r).start)).product
        (List.range problem.args.queryHeads) ↔
      ((problem.request r).start ≤ pair.1 ∧ pair.1 < (problem.request r).stop) ∧
        pair.2 < problem.queryHeads := by
    rintro ⟨token, queryHead⟩
    rw [List.pair_mem_product, List.mem_range'_1, List.mem_range]
    exact and_congr_left' (by omega)
  have hnodup : ((List.range' (problem.request r).start
      ((problem.request r).stop - (problem.request r).start)).product
        (List.range problem.args.queryHeads)).Nodup :=
    (List.nodup_range' (s := (problem.request r).start)).product List.nodup_range
  have hpairs := hnodup.pairwise_of_forall_ne (r := fun pair pair' : ℕ × ℕ =>
      Apart (wholeRow (fun row dim => some (problem.entry row dim)) problem.rows problem.headDim
          (pair.1 * problem.queryHeads + pair.2))
        (wholeRow (fun row dim => some (problem.entry row dim)) problem.rows problem.headDim
          (pair'.1 * problem.queryHeads + pair'.2)))
    fun pair hpair pair' hpair' hne => wholeRow_apart fun heq => by
      have hhead := ((hmem pair).mp hpair).2
      have hhead' := ((hmem pair').mp hpair').2
      refine hne (Prod.ext ?_ ?_)
      · rw [← row_div pair.1 hhead, heq, row_div _ hhead']
      · rw [← row_mod pair.1 hhead, heq, row_mod _ hhead']
  obtain ⟨outputs', hrun, hlength', hscattered⟩ := exists_foldlM_buffer
    (assignRow problem.args (problem.request r).start (tensorOf problem.queryHeads
      ((problem.request r).stop - (problem.request r).start) problem.headDim
      fun queryHead row dim => problem.attended problem.keyCacheAfter problem.valueCacheAfter
        ((problem.request r).start + row) queryHead dim)) outputs hpairs
    fun buffer pair hpair hsized => by
      obtain ⟨⟨hle, hlt⟩, hhead⟩ := (hmem pair).mp hpair
      exact assignRow_stores hle hlt (hlt.trans_le hstop) hhead (hsized.trans hlength)
  refine ⟨outputs', hrun, hlength', fun i => ?_⟩
  by_cases howns : problem.torchOwns r (i / problem.headDim) = true ∧
      i / problem.headDim < problem.rows ∧ i % problem.headDim < problem.headDim
  · rw [ownedRows, if_pos howns, Option.getD_some]
    obtain ⟨_, hhead⟩ := div_mod_of_lt howns.2.1
    refine hscattered.stored (i / problem.headDim / problem.queryHeads,
      i / problem.headDim % problem.queryHeads)
        ((hmem _).mpr ⟨torchOwns_iff.mp howns.1, hhead⟩) i _ ?_
    rw [Nat.div_add_mod', wholeRow, if_pos ⟨howns.2.1, rfl, howns.2.2⟩]
  · rw [ownedRows, if_neg howns]
    refine hscattered.kept i fun pair hpair => if_neg ?_
    rintro ⟨hrow, hdiv, hdim⟩
    obtain ⟨⟨hle, hlt⟩, hhead⟩ := (hmem pair).mp hpair
    refine howns ⟨torchOwns_iff.mpr ?_, hdiv ▸ hrow, hdim⟩
    rw [hdiv, row_div _ hhead]
    exact ⟨hle, hlt⟩

/-! ## A call -/

/-- A turn of the loop stores the rows of its request. -/
theorem attendRequest_stores {sdpa : ScaledDotProductAttention EReal}
    (hsdpa : SoftmaxAttention sdpa) (hr : r < problem.metadata.seqLens.length)
    {outputs : List EReal} (hlength : outputs.length = problem.rows * problem.headDim) :
    ∃ outputs', attendRequest problem.args sdpa problem.cachesAfter outputs r = some outputs' ∧
      outputs'.length = outputs.length ∧
      Stores (ownedRows problem.torchOwns (fun row dim => some (problem.entry row dim))
        problem.rows problem.headDim r) (outputs[·]?) (outputs'[·]?) := by
  have hspec := batchSpec.rows r hr
  have hlt := hspec.start_lt
  obtain ⟨outputs', hassign, hstores⟩ := assignRows_stores hr hlength
  have hstart : problem.args.metadata.queryStartLoc[r]? = some (problem.request r).start :=
    hspec.start_eq
  have hstop : problem.args.metadata.queryStartLoc[r + 1]? = some (problem.request r).stop :=
    hspec.stop_eq
  have hseqLen : problem.args.metadata.seqLens[r]? = some (problem.request r).seqLen :=
    hspec.seqLen_eq
  have hactive : ((problem.args.metadata.activeMask.drop (problem.request r).start).take
      ((problem.request r).stop - (problem.request r).start)).any id = true := by
    rw [List.any_eq_true]
    refine ⟨true, List.mem_of_getElem? (i := 0) ?_, rfl⟩
    rw [List.getElem?_take_of_lt (by omega), List.getElem?_drop, Nat.add_zero]
    exact active_getElem? (hlt.trans_le hspec.stop_le)
  have hslots : (List.range (problem.request r).seqLen).mapM (slotOf problem.args r) =
      some ((List.range (problem.request r).seqLen).map fun position =>
        (((problem.request r).slot position : ℕ) : ℤ)) :=
    Option.mapM_eq_some fun position hposition => slotOf_eq hr (List.mem_range.mp hposition)
  have hkeys : gatherHeads problem.args problem.cachesAfter.keyCache
      ((List.range (problem.request r).seqLen).map fun position =>
        (((problem.request r).slot position : ℕ) : ℤ)) =
      some (tensorOf problem.queryHeads (problem.request r).seqLen problem.headDim
        (problem.gathered problem.keyCacheAfter r)) := gatherHeads_eq hr
  have hvalues : gatherHeads problem.args problem.cachesAfter.valueCache
      ((List.range (problem.request r).seqLen).map fun position =>
        (((problem.request r).slot position : ℕ) : ℤ)) =
      some (tensorOf problem.queryHeads (problem.request r).seqLen problem.headDim
        (problem.gathered problem.valueCacheAfter r)) := gatherHeads_eq hr
  refine ⟨outputs', ?_, hstores⟩
  rw [attendRequest, hstart, Option.bind_eq_bind, Option.bind_some, hstop, Option.bind_eq_bind,
    Option.bind_some, if_neg hlt.ne, hactive, if_neg Bool.false_ne_true.symm, hseqLen,
    Option.bind_eq_bind, Option.bind_some, hslots, Option.bind_some, hkeys, Option.bind_some,
    hvalues, Option.bind_some, queryRows_eq hr, Option.bind_some, sdpa_eq hsdpa hr]
  exact hassign

theorem torchForward_eq {sdpa : ScaledDotProductAttention EReal} (hsdpa : SoftmaxAttention sdpa) :
    TorchAttentionBackend.forward problem.args sdpa problem.caches =
      some (problem.cachesAfter, asFloats problem.outputAfter) := by
  have hstart : (List.replicate problem.args.query.length (0 : EReal)).length =
      problem.rows * problem.headDim := by
    rw [List.length_replicate]
    exact (length_asFloats _).trans problem.length_query
  have hapart : (List.range problem.metadata.seqLens.length).Pairwise fun r r' =>
      Apart (ownedRows problem.torchOwns (fun row dim => some (problem.entry row dim))
          problem.rows problem.headDim r)
        (ownedRows problem.torchOwns (fun row dim => some (problem.entry row dim))
          problem.rows problem.headDim r') :=
    List.nodup_range.pairwise_of_forall_ne fun r hr r' hr' hne =>
      ownedRows_apart fun row _ howns => by
        rw [Bool.eq_false_iff]
        intro howns'
        obtain ⟨hle, hlt⟩ := torchOwns_iff.mp howns
        obtain ⟨hle', hlt'⟩ := torchOwns_iff.mp howns'
        exact hne (batchSpec.request_unique (List.mem_range.mp hr) (List.mem_range.mp hr') hle hlt
          hle' hlt')
  obtain ⟨outputs, hrun, hlength, hscattered⟩ := exists_foldlM_buffer
    (attendRequest problem.args sdpa problem.cachesAfter)
    (List.replicate problem.args.query.length (0 : EReal)) hapart
    fun buffer r hr hsized =>
      attendRequest_stores hsdpa (List.mem_range.mp hr) (hsized.trans hstart)
  have hrows := hscattered.ownedRows fun row hrow => by
    obtain ⟨r, hr, hle, hlt⟩ := batchSpec.owner _ (div_mod_of_lt hrow).1
    exact ⟨r, List.mem_range.mpr hr, torchOwns_iff.mpr ⟨hle, hlt⟩⟩
  have hguard : ¬ (problem.args.kvHeads = 0 ∨ problem.args.queryHeads % problem.args.kvHeads ≠ 0) := by
    rw [not_or, not_not]
    exact ⟨kvHeads_pos.ne', Nat.mod_eq_zero_of_dvd problem.kvHeads_dvd⟩
  rw [TorchAttentionBackend.forward, torch_appendKv_eq, Option.bind_eq_bind, Option.bind_some,
    if_neg hguard, show (List.range problem.args.metadata.seqLens.length).foldlM
      (attendRequest problem.args sdpa problem.cachesAfter)
      (List.replicate problem.args.query.length 0) = some outputs from hrun,
    Option.bind_eq_bind, Option.bind_some, eq_outputAfter hrows (hlength.trans hstart)]
  rfl

end AttentionProblem

end MiniVLLM
