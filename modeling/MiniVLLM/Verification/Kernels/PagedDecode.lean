import MiniVLLM.Verification.Kernels.PagedCache

/-! # The paged decode kernel against its reference

Read exactly, every warp keeps the online softmax of its share of the tokens, the shares merge
into the softmax of all tokens, and the reference computes the same from the dense K/V. -/

namespace MiniVLLM

namespace PagedAttention

open Launch Reduction Strided FloatOps

/-! ## Lanes -/

theorem warpSum_zero (value : ℕ → EReal) :
    warpSum value 0 = ((List.range warpSize).map value).sum := by
  rw [warpSum, show warpSize / 2 = 2 ^ 4 from rfl, halvings_two_pow]
  refine @foldl_halvings EReal _
    (fun offset value lane => value lane + shflDown warpSize value offset lane) 5 value
    fun j hj value lane hlane => ?_
  have hpow : 2 ^ j ≤ 2 ^ 4 := Nat.pow_le_pow_right Nat.two_pos (Nat.le_of_lt_succ hj)
  show value lane + shflDown warpSize value (2 ^ j) lane = _
  rw [shflDown_of_lt (by rw [warpSize]; omega)]

theorem laneDims_perm (headDim : ℕ) : (laneDims headDim).Perm (List.range headDim) :=
  flatMap_strided_perm headDim (by decide)

theorem mem_laneDims {headDim dim : ℕ} : dim ∈ laneDims headDim ↔ dim < headDim :=
  (laneDims_perm headDim).mem_iff.trans List.mem_range

theorem nodup_laneDims (headDim : ℕ) : (laneDims headDim).Nodup :=
  (laneDims_perm headDim).nodup_iff.mpr List.nodup_range

/-! ## Warps -/

namespace DecodeInputs

variable {inputs : DecodeInputs EReal} {seqIdx qHead seqLen warps warp token : ℕ}
  {query : ℕ → ℝ} {key value : ℕ → ℕ → ℝ}

/-- What a query head finds in the caches of a sequence. -/
structure HeadSpec (inputs : DecodeInputs EReal) (seqIdx qHead seqLen : ℕ) (query : ℕ → ℝ)
    (key value : ℕ → ℕ → ℝ) : Prop where
  query_eq : ∀ dim < inputs.shape.headDim,
    (inputs.shape.rowIdx seqIdx qHead dim).bind (Buffer.load inputs.query) =
      some (query dim : EReal)
  token_eq : ∀ token < seqLen, ∃ physicalBlock : ℤ,
    (CInt.index seqIdx inputs.shape.maxBlocksPerSeq (token / inputs.shape.blockSize : ℕ)).bind
      (Buffer.load inputs.blockTables) = some physicalBlock ∧
    ∀ dim < inputs.shape.headDim,
      (inputs.cacheIdx qHead physicalBlock (token % inputs.shape.blockSize) dim).bind
        (Buffer.load inputs.kCache) = some (key token dim : EReal) ∧
      (inputs.cacheIdx qHead physicalBlock (token % inputs.shape.blockSize) dim).bind
        (Buffer.load inputs.vCache) = some (value token dim : EReal)

theorem laneScore_eq {physicalBlock : ℤ} {blockOffset : ℕ} {keyRow : ℕ → ℝ}
    (hquery : ∀ dim < inputs.shape.headDim,
      (inputs.shape.rowIdx seqIdx qHead dim).bind (Buffer.load inputs.query) =
        some (query dim : EReal))
    (hkey : ∀ dim < inputs.shape.headDim,
      (inputs.cacheIdx qHead physicalBlock blockOffset dim).bind (Buffer.load inputs.kCache) =
        some (keyRow dim : EReal))
    (lane : ℕ) :
    inputs.laneScore seqIdx qHead physicalBlock blockOffset lane =
      some (((strided lane inputs.shape.headDim warpSize).map
        fun dim => query dim * keyRow dim).sum : EReal) := by
  exact foldlM_add_mul_coe (fun dim hdim => hquery dim (lt_of_mem_strided (by decide) hdim))
    fun dim hdim => hkey dim (lt_of_mem_strided (by decide) hdim)

/-- The score that the lanes of a warp agree on. -/
theorem score_eq {physicalBlock : ℤ} {blockOffset : ℕ} {keyRow : ℕ → ℝ}
    (hquery : ∀ dim < inputs.shape.headDim,
      (inputs.shape.rowIdx seqIdx qHead dim).bind (Buffer.load inputs.query) =
        some (query dim : EReal))
    (hkey : ∀ dim < inputs.shape.headDim,
      (inputs.cacheIdx qHead physicalBlock blockOffset dim).bind (Buffer.load inputs.kCache) =
        some (keyRow dim : EReal)) :
    ∃ laneScores, (List.range warpSize).mapM
        (inputs.laneScore seqIdx qHead physicalBlock blockOffset) = some laneScores ∧
      warpSum (fun lane => laneScores.getD lane 0) 0 *
          FloatOps.rsqrt ((inputs.shape.headDim : ℤ) : EReal) =
        (OnlineSoftmax.scaledDot inputs.shape.headDim query keyRow : EReal) := by
  refine ⟨_, Option.mapM_eq_some fun lane _ => laneScore_eq hquery hkey lane, ?_⟩
  have hlanes : (List.range warpSize).map (fun lane => ((List.range warpSize).map fun lane =>
      (((strided lane inputs.shape.headDim warpSize).map
        fun dim => query dim * keyRow dim).sum : EReal)).getD lane 0) =
      (List.range warpSize).map fun lane => (((strided lane inputs.shape.headDim warpSize).map
        fun dim => query dim * keyRow dim).sum : EReal) := by
    refine List.map_congr_left fun lane hlane => ?_
    rw [List.getD_eq_getElem?_getD, List.getElem?_map,
      List.getElem?_range (List.mem_range.mp hlane)]
    simp
  rw [warpSum_zero, hlanes, FloatOps.sum_coe, sum_strided _ _ (by decide),
    OnlineSoftmax.scaledDot, EReal.coe_mul]
  rfl

/-- A warp whose registers and part of the shared memory hold `row`. The other cells are as
they were in `shared`. -/
structure WarpHolds (headDim warp : ℕ) (row : OnlineSoftmax EReal ℕ)
    (shared : SharedCell → EReal) (state : WarpState EReal) : Prop where
  max_eq : state.localMax = row.rowMax
  sum_eq : state.localSum = row.rowSum
  out_eq : ∀ dim < headDim, state.shared (.warpOut (warp * headDim + dim)) = row.output dim
  kept : ∀ cell, (∀ dim < headDim, cell ≠ .warpOut (warp * headDim + dim)) →
    state.shared cell = shared cell

/-- One more token joins the row of its warp. -/
theorem exists_attendToken {shared : SharedCell → EReal} {state : WarpState EReal}
    {row : OnlineSoftmax EReal ℕ} (h : HeadSpec inputs seqIdx qHead seqLen query key value)
    (htoken : token < seqLen) (hstate : WarpHolds inputs.shape.headDim warp row shared state) :
    ∃ state', inputs.attendToken seqIdx qHead warp state token = some state' ∧
      WarpHolds inputs.shape.headDim warp
        (row.attend (OnlineSoftmax.scaledDot inputs.shape.headDim query (key token) : EReal)
          fun dim => (value token dim : EReal)) shared state' := by
  obtain ⟨physicalBlock, hblock, hcells⟩ := h.token_eq token htoken
  obtain ⟨laneScores, hlanes, hscore⟩ := score_eq h.query_eq fun dim hdim => (hcells dim hdim).1
  generalize hs : (OnlineSoftmax.scaledDot inputs.shape.headDim query (key token) : EReal) = score
    at hscore
  let cell := fun dim => SharedCell.warpOut (warp * inputs.shape.headDim + dim)
  let rescale := fun (dim : ℕ) (old : EReal) =>
    OnlineSoftmax.decay row.rowMax (max row.rowMax score) * old +
      FloatOps.exp (score - max row.rowMax score) * (value token dim : EReal)
  have hinj : Function.Injective cell := fun dim dim' heq =>
    Nat.add_left_cancel (SharedCell.warpOut.inj heq)
  have hsweep : (laneDims inputs.shape.headDim).foldlM
      (fun shared dim => do
        let value ← (inputs.cacheIdx qHead physicalBlock (token % inputs.shape.blockSize) dim).bind
          (Buffer.load inputs.vCache)
        let cell := SharedCell.warpOut (warp * inputs.shape.headDim + dim)
        pure (Function.update shared cell
          (OnlineSoftmax.decay row.rowMax (max row.rowMax score) * shared cell +
            FloatOps.exp (score - max row.rowMax score) * value))) state.shared =
      some (sweep cell rescale (laneDims inputs.shape.headDim) state.shared) := by
    refine Option.foldlM_eq_some (fun shared dim hdim => ?_) _
    rw [(hcells dim (mem_laneDims.mp hdim)).2]
    rfl
  refine ⟨⟨max row.rowMax score, OnlineSoftmax.decay row.rowMax (max row.rowMax score) * row.rowSum +
    FloatOps.exp (score - max row.rowMax score),
    sweep cell rescale (laneDims inputs.shape.headDim) state.shared⟩, ?_, rfl, rfl,
    fun dim hdim => ?_, fun other hother => ?_⟩
  · rw [attendToken, hblock]
    simp only [Option.bind_eq_bind, Option.bind_some, hlanes, hscore, hstate.max_eq,
      hstate.sum_eq]
    exact congrArg (fun run : Option (SharedCell → EReal) => run.bind fun shared =>
      some (WarpState.mk (max row.rowMax score) _ shared)) hsweep
  · rw [show SharedCell.warpOut (warp * inputs.shape.headDim + dim) = cell dim from rfl]
    show sweep cell rescale (laneDims inputs.shape.headDim) state.shared (cell dim) = _
    rw [sweep_of_mem ((nodup_laneDims _).map hinj) (mem_laneDims.mpr hdim),
      hstate.out_eq dim hdim]
    rfl
  · rw [← hstate.kept other hother]
    exact sweep_of_forall_ne fun dim hdim => hother dim (mem_laneDims.mp hdim)

theorem exists_attendTokens {shared : SharedCell → EReal} {tokens : List ℕ}
    (h : HeadSpec inputs seqIdx qHead seqLen query key value)
    (htokens : ∀ token ∈ tokens, token < seqLen)
    (hzero : ∀ dim < inputs.shape.headDim,
      shared (.warpOut (warp * inputs.shape.headDim + dim)) = 0) :
    ∃ state, tokens.foldlM (inputs.attendToken seqIdx qHead warp)
        ⟨FloatOps.negInfinity, 0, shared⟩ = some state ∧
      WarpHolds inputs.shape.headDim warp (OnlineSoftmax.start.attendAll
        (OnlineSoftmax.exactly (OnlineSoftmax.scored inputs.shape.headDim query key value tokens)))
        shared state := by
  induction tokens using List.reverseRecOn with
  | nil => exact ⟨_, rfl, rfl, rfl, hzero, fun _ _ => rfl⟩
  | append_singleton tokens token ih =>
      obtain ⟨state, hrun, hstate⟩ := ih fun t ht => htokens t (List.mem_append_left _ ht)
      obtain ⟨state', hnext, hstate'⟩ := exists_attendToken h (htokens token (by simp)) hstate
      refine ⟨state', ?_, ?_⟩
      · rw [List.foldlM_append, hrun, Option.bind_eq_bind, Option.bind_some, List.foldlM_cons,
          hnext]
        rfl
      · rw [OnlineSoftmax.scored_append, OnlineSoftmax.exactly_append,
          OnlineSoftmax.attendAll_append]
        exact hstate'

def warpTarget (rows : ℕ → OnlineSoftmax EReal ℕ) (headDim warp : ℕ) : SharedCell → Option EReal
  | .warpSum w => if w = warp then some (rows warp).rowSum else none
  | .warpMax w => if w = warp then some (rows warp).rowMax else none
  | .warpOut i =>
      if i / headDim = warp ∧ i % headDim < headDim then some ((rows warp).output (i % headDim))
      else none
  | _ => none

theorem warpTarget_apart (rows : ℕ → OnlineSoftmax EReal ℕ) (headDim : ℕ) {warp warp' : ℕ}
    (hne : warp ≠ warp') :
    Apart (warpTarget rows headDim warp) (warpTarget rows headDim warp') := by
  intro cell
  cases cell with
  | outAccum dim => exact Or.inl rfl
  | globalStats index => exact Or.inl rfl
  | warpSum w =>
      by_cases hw : w = warp
      · exact Or.inr (if_neg fun h => hne (hw.symm.trans h))
      · exact Or.inl (if_neg hw)
  | warpMax w =>
      by_cases hw : w = warp
      · exact Or.inr (if_neg fun h => hne (hw.symm.trans h))
      · exact Or.inl (if_neg hw)
  | warpOut i =>
      by_cases hw : i / headDim = warp
      · exact Or.inr (if_neg fun h => hne (hw.symm.trans h.1))
      · exact Or.inl (if_neg fun h => hw h.1)

/-- The row that a warp computes. -/
noncomputable def warpRow (headDim seqLen warps : ℕ) (query : ℕ → ℝ) (key value : ℕ → ℕ → ℝ)
    (warp : ℕ) : OnlineSoftmax EReal ℕ :=
  OnlineSoftmax.start.attendAll (OnlineSoftmax.exactly
    (OnlineSoftmax.scored headDim query key value (strided warp seqLen warps)))

theorem attendWarp_stores {shared : SharedCell → EReal}
    (h : HeadSpec inputs seqIdx qHead seqLen query key value) (hwarps : 0 < warps)
    (hzero : ∀ dim < inputs.shape.headDim,
      shared (.warpOut (warp * inputs.shape.headDim + dim)) = 0) :
    ∃ shared', inputs.attendWarp seqIdx qHead warps seqLen shared warp = some shared' ∧
      Stores (warpTarget (warpRow inputs.shape.headDim seqLen warps query key value)
        inputs.shape.headDim warp) shared shared' := by
  have htokens : ∀ token ∈ strided warp seqLen warps, token < seqLen :=
    fun token htoken => lt_of_mem_strided hwarps htoken
  obtain ⟨state, hrun, hstate⟩ := exists_attendTokens h htokens hzero
  rw [← warpRow] at hstate
  refine ⟨_, by rw [attendWarp, hrun]; rfl, fun cell => ?_⟩
  cases cell with
  | outAccum dim => simpa [warpTarget] using hstate.kept (.outAccum dim) (by simp)
  | globalStats index => simpa [warpTarget] using hstate.kept (.globalStats index) (by simp)
  | warpSum w =>
      by_cases hw : w = warp
      · subst hw
        simpa [warpTarget] using hstate.sum_eq
      · simpa [warpTarget, hw] using hstate.kept (.warpSum w) (by simp)
  | warpMax w =>
      by_cases hw : w = warp
      · subst hw
        simpa [warpTarget] using hstate.max_eq
      · simpa [warpTarget, hw] using hstate.kept (.warpMax w) (by simp)
  | warpOut i =>
      rw [Function.update_of_ne (by simp), Function.update_of_ne (by simp), warpTarget]
      by_cases hi : i / inputs.shape.headDim = warp ∧ i % inputs.shape.headDim < inputs.shape.headDim
      · rw [if_pos hi, Option.getD_some, ← hstate.out_eq _ hi.2, ← hi.1, Nat.div_add_mod']
      · rw [if_neg hi]
        refine hstate.kept _ fun dim hdim heq => hi ?_
        rw [SharedCell.warpOut.inj heq, row_div _ hdim, row_mod _ hdim]
        exact ⟨rfl, hdim⟩

/-- Between the first two barriers every warp stores its row. -/
theorem exists_launch_attendWarp (schedule : Launch.Schedule) {shared : SharedCell → EReal}
    (h : HeadSpec inputs seqIdx qHead seqLen query key value) (hwarps : 0 < warps)
    (hzero : ∀ i < warps * inputs.shape.headDim, shared (.warpOut i) = 0) :
    ∃ shared', schedule.launch warps (inputs.attendWarp seqIdx qHead warps seqLen) shared =
        some shared' ∧
      Scattered (warpTarget (warpRow inputs.shape.headDim seqLen warps query key value)
        inputs.shape.headDim) (List.range warps) shared shared' := by
  obtain ⟨shared', hlaunch, _, hscattered⟩ := schedule.exists_launch warps
    (id : (SharedCell → EReal) → SharedCell → EReal) (P := fun _ => True) trivial
    (fun _ _ _ _ hne => warpTarget_apart
      (warpRow inputs.shape.headDim seqLen warps query key value) inputs.shape.headDim hne)
    (fun shared' warp hwarp _ hkept => by
      have hzero' : ∀ dim < inputs.shape.headDim,
          shared' (.warpOut (warp * inputs.shape.headDim + dim)) = 0 := by
        intro dim hdim
        refine (hkept _ fun warp' _ => ?_).trans (hzero _ (row_lt hwarp hdim))
        by_cases hne : warp' = warp
        · exact Or.inl hne
        · refine Or.inr (if_neg fun hin => hne ?_)
          rw [← hin.1, row_div _ hdim]
      obtain ⟨shared'', hwarpRun, hstores⟩ := attendWarp_stores h hwarps hzero'
      exact ⟨shared'', hwarpRun, trivial, hstores⟩)
  exact ⟨shared', hlaunch, hscattered⟩

/-- The rows of the warps merge into the attention over all tokens. -/
theorem merge_warpRows (headDim : ℕ) (query : ℕ → ℝ) (key value : ℕ → ℕ → ℝ) (hwarps : 0 < warps)
    (hseqLen : 0 < seqLen) (dim : ℕ) :
    OnlineSoftmax.mergeOutput ((List.range warps).map
          (warpRow headDim seqLen warps query key value))
        (OnlineSoftmax.mergeMax ((List.range warps).map
          (warpRow headDim seqLen warps query key value))) dim /
        OnlineSoftmax.mergeSum ((List.range warps).map
            (warpRow headDim seqLen warps query key value))
          (OnlineSoftmax.mergeMax ((List.range warps).map
            (warpRow headDim seqLen warps query key value))) =
      (OnlineSoftmax.attention headDim query key value (List.range seqLen) dim : EReal) := by
  let parts := (List.range warps).map fun warp =>
    OnlineSoftmax.scored headDim query key value (strided warp seqLen warps)
  have hrows : (List.range warps).map (warpRow headDim seqLen warps query key value) =
      OnlineSoftmax.rowsOf parts := by
    rw [OnlineSoftmax.rowsOf, List.map_map]
    rfl
  have hparts : parts.flatten = OnlineSoftmax.scored headDim query key value
      ((List.range warps).flatMap fun warp => strided warp seqLen warps) := by
    rw [OnlineSoftmax.scored, List.map_flatMap, List.flatMap_def]
    rfl
  have hperm := flatMap_strided_perm seqLen hwarps
  have hne : (List.range warps).flatMap (fun warp => strided warp seqLen warps) ≠ [] :=
    List.ne_nil_of_mem (hperm.mem_iff.mpr (List.mem_range.mpr hseqLen))
  rw [hrows, OnlineSoftmax.mergeOutput_div_mergeSum
    (hparts ▸ OnlineSoftmax.scored_ne_nil hne), hparts]
  exact congrArg Real.toEReal (OnlineSoftmax.attention_perm hperm dim)

end DecodeInputs

/-! ## Barriers -/

section Barriers

variable {headDim warps : ℕ}

/-- The outputs of the warps that a thread clears. -/
noncomputable def initTarget (headDim warps thread i : ℕ) : Option EReal :=
  if i < warps * headDim ∧ i % (warps * warpSize) = thread then some 0 else none

theorem initTarget_apart {thread thread' : ℕ} (hne : thread ≠ thread') :
    Apart (initTarget headDim warps thread) (initTarget headDim warps thread') := by
  intro i
  by_cases hi : i % (warps * warpSize) = thread
  · exact Or.inr (if_neg fun h => hne (hi.symm.trans h.2))
  · exact Or.inl (if_neg fun h => hi h.2)

theorem initThread_stores {thread : ℕ} (hthread : thread < warps * warpSize)
    (shared : SharedCell → EReal) :
    Stores (initTarget headDim warps thread) (fun i => shared (.warpOut i))
      fun i => initThread headDim warps shared thread (.warpOut i) := by
  intro i
  have hcleared : ∀ shared' : SharedCell → EReal,
      sweep SharedCell.warpOut (fun _ _ => (0 : EReal))
          (strided thread (warps * headDim) (warps * warpSize)) shared' (.warpOut i) =
        (initTarget headDim warps thread i).getD (shared' (.warpOut i)) := by
    intro shared'
    rw [initTarget]
    by_cases hi : i < warps * headDim ∧ i % (warps * warpSize) = thread
    · rw [if_pos hi]
      exact sweep_of_mem ((nodup_strided (Nat.zero_lt_of_lt hthread)).map
        fun _ _ h => SharedCell.warpOut.inj h) ((mem_strided_of_lt hthread).mpr hi)
    · rw [if_neg hi]
      refine sweep_of_forall_ne fun j hj heq => hi ?_
      rw [SharedCell.warpOut.inj heq]
      exact (mem_strided_of_lt hthread).mp hj
  have hkept : sweep SharedCell.outAccum (fun _ _ => (0 : EReal))
      (strided thread headDim (warps * warpSize)) shared (.warpOut i) = shared (.warpOut i) :=
    sweep_of_forall_ne fun _ _ => by simp
  show initThread headDim warps shared thread (.warpOut i) = _
  rw [initThread, hcleared]
  by_cases hwarp : thread < warps
  · rw [if_pos hwarp, Function.update_of_ne (by simp), Function.update_of_ne (by simp), hkept]
  · rw [if_neg hwarp, hkept]

theorem exists_launch_initThread (schedule : Launch.Schedule) (headDim : ℕ) (hwarps : 0 < warps)
    (garbage : SharedCell → EReal) :
    ∃ shared, schedule.launch (warps * warpSize)
        (fun shared thread => some (initThread headDim warps shared thread)) garbage =
          some shared ∧
      ∀ i < warps * headDim, shared (.warpOut i) = 0 := by
  have hthreads : 0 < warps * warpSize := Nat.mul_pos hwarps (by decide)
  obtain ⟨shared, hlaunch, _, hscattered⟩ := schedule.exists_launch (warps * warpSize)
    (fun (shared : SharedCell → EReal) i => shared (.warpOut i)) (P := fun _ => True) trivial
    (fun _ _ _ _ hne => initTarget_apart hne)
    (fun shared thread hthread _ _ => ⟨_, rfl, trivial, initThread_stores hthread shared⟩)
  refine ⟨shared, hlaunch, fun i hi => ?_⟩
  exact hscattered.stored (i % (warps * warpSize)) (List.mem_range.mpr (Nat.mod_lt _ hthreads)) i 0
    (if_pos ⟨hi, rfl⟩)

noncomputable def mergeTarget (rows : List (OnlineSoftmax EReal ℕ)) (thread : ℕ) :
    SharedCell → Option EReal
  | .globalStats index =>
      if thread = 0 ∧ index = 0 then
        some (OnlineSoftmax.mergeSum rows (OnlineSoftmax.mergeMax rows))
      else if thread = 0 ∧ index = 1 then some (OnlineSoftmax.mergeMax rows)
      else none
  | _ => none

theorem mergeTarget_apart (rows : List (OnlineSoftmax EReal ℕ)) {thread thread' : ℕ}
    (hne : thread ≠ thread') : Apart (mergeTarget rows thread) (mergeTarget rows thread') := by
  intro cell
  cases cell with
  | globalStats index =>
      by_cases hthread : thread = 0
      · have hthread' : thread' ≠ 0 := fun h => hne (hthread.trans h.symm)
        exact Or.inr (by simp [mergeTarget, hthread'])
      · exact Or.inl (by simp [mergeTarget, hthread])
  | _ => exact Or.inl rfl

variable {rows : ℕ → OnlineSoftmax EReal ℕ} {shared : SharedCell → EReal}

theorem mergeThread_stores
    (hmax : ∀ warp < warps, shared (.warpMax warp) = (rows warp).rowMax)
    (hsum : ∀ warp < warps, shared (.warpSum warp) = (rows warp).rowSum) (thread : ℕ) :
    Stores (mergeTarget ((List.range warps).map rows) thread) shared
      (mergeThread warps shared thread) := by
  intro cell
  have hglobalMax : (List.range warps).foldl
      (fun globalMax warp => max globalMax (shared (.warpMax warp))) FloatOps.negInfinity =
        OnlineSoftmax.mergeMax ((List.range warps).map rows) := by
    rw [OnlineSoftmax.mergeMax, List.foldl_map]
    refine List.foldl_ext _ _ _ fun globalMax warp hwarp => ?_
    rw [hmax warp (List.mem_range.mp hwarp)]
  have hglobalSum : ∀ globalMax : EReal, (List.range warps).foldl
      (fun globalSum warp => if FloatOps.isNegInfinity (shared (.warpMax warp)) then globalSum
        else globalSum + FloatOps.exp (shared (.warpMax warp) - globalMax) *
          shared (.warpSum warp)) 0 =
        OnlineSoftmax.mergeSum ((List.range warps).map rows) globalMax := by
    intro globalMax
    rw [OnlineSoftmax.mergeSum, List.foldl_map]
    refine List.foldl_ext _ _ _ fun globalSum warp hwarp => ?_
    rw [hmax warp (List.mem_range.mp hwarp), hsum warp (List.mem_range.mp hwarp)]
  by_cases hthread : thread = 0
  · rw [mergeThread, if_pos hthread]
    simp only [hglobalMax, hglobalSum]
    cases cell with
    | globalStats index =>
        by_cases hone : index = 1
        · subst hone
          simp [mergeTarget, hthread]
        · by_cases hzero : index = 0
          · subst hzero
            simp [mergeTarget, hthread]
          · simp [mergeTarget, hone, hzero]
    | _ => simp [mergeTarget]
  · rw [mergeThread, if_neg hthread]
    cases cell with
    | globalStats index => simp [mergeTarget, hthread]
    | _ => rfl

/-- Between the second and the third barrier the rows of the warps merge. -/
theorem exists_launch_mergeThread (schedule : Launch.Schedule)
    (hmax : ∀ warp < warps, shared (.warpMax warp) = (rows warp).rowMax)
    (hsum : ∀ warp < warps, shared (.warpSum warp) = (rows warp).rowSum) :
    ∃ shared', schedule.launch (warps * warpSize)
        (fun shared thread => some (mergeThread warps shared thread)) shared = some shared' ∧
      Scattered (mergeTarget ((List.range warps).map rows)) (List.range (warps * warpSize)) shared
        shared' := by
  obtain ⟨shared', hlaunch, _, hscattered⟩ := schedule.exists_launch (warps * warpSize)
    (id : (SharedCell → EReal) → SharedCell → EReal) (P := fun _ => True) trivial
    (fun _ _ _ _ hne => mergeTarget_apart ((List.range warps).map rows) hne)
    (fun shared' thread _ _ hkept => ⟨_, rfl, trivial, mergeThread_stores
      (fun warp hwarp => (hkept (.warpMax warp) fun _ _ => Or.inr rfl).trans (hmax warp hwarp))
      (fun warp hwarp => (hkept (.warpSum warp) fun _ _ => Or.inr rfl).trans (hsum warp hwarp))
      thread⟩)
  exact ⟨shared', hlaunch, hscattered⟩

end Barriers

/-! ## Blocks -/

namespace DecodeInputs

variable {inputs : DecodeInputs EReal} {seqIdx qHead seqLen warps : ℕ}
  {query : ℕ → ℝ} {key value : ℕ → ℕ → ℝ}

/-- Up to the last barrier a block computes the attention of its head. -/
theorem exists_mergedOutput (schedule : ℕ → Launch.Schedule) (garbage : SharedCell → EReal)
    (h : HeadSpec inputs seqIdx qHead seqLen query key value) (hwarps : 0 < warps)
    (hseqLen : 0 < seqLen) :
    ∃ cleared attended merged,
      (schedule 0).launch (warps * warpSize) (fun shared thread =>
        some (initThread inputs.shape.headDim warps shared thread)) garbage = some cleared ∧
      (schedule 1).launch warps (inputs.attendWarp seqIdx qHead warps seqLen) cleared =
        some attended ∧
      (schedule 2).launch (warps * warpSize)
        (fun shared thread => some (mergeThread warps shared thread)) attended = some merged ∧
      ∀ dim < inputs.shape.headDim, inputs.mergedOutput warps merged dim =
        (OnlineSoftmax.attention inputs.shape.headDim query key value (List.range seqLen) dim :
          EReal) := by
  obtain ⟨cleared, hcleared, hzero⟩ :=
    exists_launch_initThread (schedule 0) inputs.shape.headDim hwarps garbage
  obtain ⟨attended, hattended, hrows⟩ := exists_launch_attendWarp (schedule 1) h hwarps hzero
  have hmax : ∀ warp < warps, attended (.warpMax warp) =
      (warpRow inputs.shape.headDim seqLen warps query key value warp).rowMax :=
    fun warp hwarp => hrows.stored warp (List.mem_range.mpr hwarp) _ _ (if_pos rfl)
  have hsum : ∀ warp < warps, attended (.warpSum warp) =
      (warpRow inputs.shape.headDim seqLen warps query key value warp).rowSum :=
    fun warp hwarp => hrows.stored warp (List.mem_range.mpr hwarp) _ _ (if_pos rfl)
  have hout : ∀ warp < warps, ∀ dim < inputs.shape.headDim,
      attended (.warpOut (warp * inputs.shape.headDim + dim)) =
        (warpRow inputs.shape.headDim seqLen warps query key value warp).output dim := by
    intro warp hwarp dim hdim
    refine hrows.stored warp (List.mem_range.mpr hwarp) _ _ ?_
    rw [warpTarget, row_div _ hdim, row_mod _ hdim, if_pos ⟨rfl, hdim⟩]
  obtain ⟨merged, hmerged, hstats⟩ := exists_launch_mergeThread (schedule 2) hmax hsum
  have hzeroth : 0 ∈ List.range (warps * warpSize) :=
    List.mem_range.mpr (Nat.mul_pos hwarps (by decide))
  have hglobalSum := hstats.stored 0 hzeroth (.globalStats 0) _ rfl
  have hglobalMax := hstats.stored 0 hzeroth (.globalStats 1) _ rfl
  refine ⟨cleared, attended, merged, hcleared, hattended, hmerged, fun dim hdim => ?_⟩
  rw [mergedOutput, hglobalSum, hglobalMax, ← merge_warpRows _ query key value hwarps hseqLen]
  congr 1
  rw [OnlineSoftmax.mergeOutput, List.foldl_map]
  refine List.foldl_ext _ _ _ fun output warp hwarp => ?_
  have hwarp := List.mem_range.mp hwarp
  rw [hstats.kept (.warpMax warp) fun _ _ => rfl, hmax warp hwarp,
    hstats.kept (.warpOut _) fun _ _ => rfl, hout warp hwarp dim hdim]

def writeTarget (entry : ℕ → EReal) (headDim threads row thread i : ℕ) : Option (Option EReal) :=
  if i / headDim = row ∧ i % headDim < headDim ∧ i % headDim % threads = thread then
    some (some (entry (i % headDim)))
  else none

theorem writeTarget_apart (entry : ℕ → EReal) (headDim threads row : ℕ) {thread thread' : ℕ}
    (hne : thread ≠ thread') :
    Apart (writeTarget entry headDim threads row thread)
      (writeTarget entry headDim threads row thread') := by
  intro i
  by_cases hi : i % headDim % threads = thread
  · exact Or.inr (if_neg fun h => hne (hi.symm.trans h.2.2))
  · exact Or.inl (if_neg fun h => hi h.2.2)

theorem writeThread_stores {shared : SharedCell → EReal} {outputs : List EReal}
    {entry : ℕ → EReal} {thread : ℕ} (hthread : thread < warps * warpSize)
    (hentry : ∀ dim < inputs.shape.headDim, inputs.mergedOutput warps shared dim = entry dim)
    (hroom : (seqIdx * inputs.shape.queryHeads + qHead + 1) * inputs.shape.headDim ≤
      outputs.length) (hlength : outputs.length ≤ 2 ^ 31) :
    ∃ outputs', inputs.writeThread seqIdx qHead warps shared outputs thread = some outputs' ∧
      outputs'.length = outputs.length ∧
      Stores (writeTarget entry inputs.shape.headDim (warps * warpSize)
        (seqIdx * inputs.shape.queryHeads + qHead) thread) (outputs[·]?) (outputs'[·]?) := by
  have hthreads : 0 < warps * warpSize := Nat.zero_lt_of_lt hthread
  rw [Nat.add_mul, Nat.one_mul] at hroom
  have hfits : ∀ dim ∈ strided thread inputs.shape.headDim (warps * warpSize),
      (seqIdx * inputs.shape.queryHeads + qHead) * inputs.shape.headDim + dim < outputs.length := by
    intro dim hdim
    have := lt_of_mem_strided hthreads hdim
    omega
  obtain ⟨outputs', hrun, hlength', hcells⟩ := Buffer.exists_foldlM_store
    ((seqIdx * inputs.shape.queryHeads + qHead) * inputs.shape.headDim)
    (inputs.mergedOutput warps shared) hfits
  have hints := Option.foldlM_congr (l := strided thread inputs.shape.headDim (warps * warpSize))
    (f := fun (outputs : List EReal) dim => (inputs.shape.rowIdx seqIdx qHead dim).bind fun index =>
      Buffer.store outputs index (inputs.mergedOutput warps shared dim))
    (fun outputs' dim hdim => by
      rw [Shape.rowIdx_eq (lt_of_mem_strided hthreads hdim) ((hfits dim hdim).trans_le hlength),
        Option.bind_some]) outputs
  refine ⟨outputs', hints.trans hrun, hlength', fun i => ?_⟩
  show outputs'[i]? = _
  rw [hcells i, writeTarget]
  by_cases hrow : i / inputs.shape.headDim = seqIdx * inputs.shape.queryHeads + qHead ∧
      i % inputs.shape.headDim < inputs.shape.headDim
  · have hoffset : i - (seqIdx * inputs.shape.queryHeads + qHead) * inputs.shape.headDim =
        i % inputs.shape.headDim := by
      have := Nat.div_add_mod' i inputs.shape.headDim
      rw [hrow.1] at this
      omega
    have hle : (seqIdx * inputs.shape.queryHeads + qHead) * inputs.shape.headDim ≤ i := by
      rw [← hrow.1]
      exact Nat.div_mul_le_self _ _
    have hmem := @mem_strided_of_lt thread inputs.shape.headDim (warps * warpSize)
      (i % inputs.shape.headDim) hthread
    rw [hoffset]
    by_cases hmine : i % inputs.shape.headDim % (warps * warpSize) = thread
    · rw [if_pos ⟨hle, hmem.mpr ⟨hrow.2, hmine⟩⟩, if_pos ⟨hrow.1, hrow.2, hmine⟩,
        hentry _ hrow.2]
      rfl
    · rw [if_neg fun h => hmine (hmem.mp h.2).2, if_neg fun h => hmine h.2.2]
      rfl
  · rw [if_neg, if_neg fun h => hrow ⟨h.1, h.2.1⟩]
    · rfl
    · rintro ⟨hle, hmem⟩
      have hdim := lt_of_mem_strided hthreads hmem
      refine hrow ?_
      rw [← Nat.add_sub_cancel' hle, row_div _ hdim, row_mod _ hdim]
      exact ⟨rfl, hdim⟩

/-- A block stores the row of its head. -/
theorem runBlock_stores (schedule : ℕ → Launch.Schedule) (garbage : SharedCell → EReal)
    {outputs : List EReal} {block : ℕ} {entry : ℕ → ℕ → EReal}
    (hblock : block < inputs.shape.batchSize * inputs.shape.queryHeads)
    (h : HeadSpec inputs (block / inputs.shape.queryHeads) (block % inputs.shape.queryHeads) seqLen
      query key value) (hwarps : 0 < warps) (hseqLen : 0 < seqLen)
    (hlen : inputs.seqLens[block / inputs.shape.queryHeads]? = some seqLen)
    (hentry : ∀ dim < inputs.shape.headDim, entry block dim =
      (OnlineSoftmax.attention inputs.shape.headDim query key value (List.range seqLen) dim :
        EReal))
    (hroom : inputs.shape.batchSize * inputs.shape.queryHeads * inputs.shape.headDim ≤
      outputs.length) (hlength : outputs.length ≤ 2 ^ 31) :
    ∃ outputs', inputs.runBlock warps schedule garbage outputs block = some outputs' ∧
      outputs'.length = outputs.length ∧
      Stores (wholeRow (fun row dim => some (entry row dim))
        (inputs.shape.batchSize * inputs.shape.queryHeads) inputs.shape.headDim block)
        (outputs[·]?) (outputs'[·]?) := by
  obtain ⟨hseqIdx, hqHead⟩ := div_mod_of_lt hblock
  obtain ⟨cleared, attended, merged, hcleared, hattended, hmerged, houtput⟩ :=
    exists_mergedOutput schedule garbage h hwarps hseqLen
  have hsplit : block / inputs.shape.queryHeads * inputs.shape.queryHeads +
      block % inputs.shape.queryHeads = block := Nat.div_add_mod' _ _
  have hroom' : (block / inputs.shape.queryHeads * inputs.shape.queryHeads +
      block % inputs.shape.queryHeads + 1) * inputs.shape.headDim ≤ outputs.length := by
    rw [hsplit]
    exact (Nat.mul_le_mul_right _ hblock).trans hroom
  obtain ⟨outputs', hlaunch, hlength', hscattered⟩ := (schedule 3).exists_launch (warps * warpSize)
    (fun (outputs : List EReal) (i : ℕ) => outputs[i]?)
    (P := fun outputs' : List EReal => outputs'.length = outputs.length) rfl
    (fun _ _ _ _ hne => writeTarget_apart (entry block) inputs.shape.headDim (warps * warpSize)
      (block / inputs.shape.queryHeads * inputs.shape.queryHeads +
        block % inputs.shape.queryHeads) hne)
    (fun outputs' thread hthread hlength' _ => by
      obtain ⟨outputs'', hrun, hlength'', hstores⟩ := writeThread_stores hthread
        (fun dim hdim => (houtput dim hdim).trans (hentry dim hdim).symm) (hlength' ▸ hroom')
        (hlength' ▸ hlength)
      exact ⟨outputs'', hrun, hlength''.trans hlength', hstores⟩)
  refine ⟨outputs', ?_, hlength', fun i => ?_⟩
  · rw [runBlock, if_neg (by omega)]
    simp only [hlen, hcleared, hattended, hmerged, Option.bind_eq_bind, Option.bind_some]
    exact hlaunch
  · rw [wholeRow]
    by_cases hrow : i / inputs.shape.headDim = block ∧ i % inputs.shape.headDim < inputs.shape.headDim
    · rw [if_pos ⟨hblock, hrow⟩, Option.getD_some]
      refine hscattered.stored (i % inputs.shape.headDim % (warps * warpSize))
        (List.mem_range.mpr (Nat.mod_lt _ (Nat.mul_pos hwarps (by decide)))) i _ ?_
      rw [writeTarget, hsplit, if_pos ⟨hrow.1, hrow.2, rfl⟩]
    · rw [if_neg fun hin => hrow hin.2]
      refine hscattered.kept i fun thread _ => if_neg fun hin => hrow ⟨?_, hin.2.1⟩
      rw [hin.1, hsplit]

/-- The kernel stores the row of every head of every sequence. -/
theorem exists_pagedDecodeAttention (blocks : Launch.Schedule) (threads : ℕ → ℕ → Launch.Schedule)
    (garbage : ℕ → SharedCell → EReal) {outputs : List EReal} {lengths : ℕ → ℕ}
    {query : ℕ → ℕ → ℝ} {key value : ℕ → ℕ → ℕ → ℝ} (hwarps : 0 < warps)
    (hlaunch : (inputs.shape.decodeLaunch warps).Launchable)
    (hlength : outputs.length =
      inputs.shape.batchSize * inputs.shape.queryHeads * inputs.shape.headDim)
    (hsize : inputs.shape.batchSize * inputs.shape.queryHeads * inputs.shape.headDim ≤ 2 ^ 31)
    (hlengths : ∀ batch < inputs.shape.batchSize,
      0 < lengths batch ∧ inputs.seqLens[batch]? = some (lengths batch))
    (h : ∀ row < inputs.shape.batchSize * inputs.shape.queryHeads,
      HeadSpec inputs (row / inputs.shape.queryHeads) (row % inputs.shape.queryHeads)
        (lengths (row / inputs.shape.queryHeads)) (query row) (key row) (value row)) :
    inputs.pagedDecodeAttention warps blocks threads garbage outputs =
      some ((List.range (inputs.shape.batchSize * inputs.shape.queryHeads)).flatMap fun row =>
        (List.range inputs.shape.headDim).map fun dim =>
          (OnlineSoftmax.attention inputs.shape.headDim (query row) (key row) (value row)
            (List.range (lengths (row / inputs.shape.queryHeads))) dim : EReal)) := by
  let entry : ℕ → ℕ → EReal := fun row dim =>
    (OnlineSoftmax.attention inputs.shape.headDim (query row) (key row) (value row)
      (List.range (lengths (row / inputs.shape.queryHeads))) dim : EReal)
  obtain ⟨outputs', hrun, hlength', hscattered⟩ := blocks.exists_launch
    (inputs.shape.batchSize * inputs.shape.queryHeads)
    (fun (outputs : List EReal) (i : ℕ) => outputs[i]?)
    (P := fun outputs' : List EReal => outputs'.length = outputs.length) rfl
    (fun _ _ _ _ hne => wholeRow_apart hne)
    (fun outputs' block hblock hlength' _ => by
      obtain ⟨hpos, hseqLen⟩ := hlengths _ (div_mod_of_lt hblock).1
      have hroom := (hlength'.trans hlength).ge
      obtain ⟨outputs'', hrun, hlength'', hstores⟩ := @runBlock_stores inputs _ _ _ _ _
        (threads block) (garbage block) outputs' block entry hblock (h block hblock) hwarps hpos
        hseqLen (fun _ _ => rfl) hroom ((hlength'.trans hlength).le.trans hsize)
      exact ⟨outputs'', hrun, hlength''.trans hlength', hstores⟩)
  rw [flatMap_rows entry, pagedDecodeAttention, if_pos hlaunch]
  exact hrun.trans (congrArg some (hscattered.wholeRows.eq_map (hlength'.trans hlength)))

end DecodeInputs

/-! ## The reference and the kernel -/

section Reference

variable {shape : Shape} {lengths : ℕ → ℕ} {totalBlocks warps : ℕ} {tables : Tables}
  {query key value : List ℝ}

/-- The query of a head, the heads of all sequences counted one after the other. -/
def queryAt (shape : Shape) (query : List ℝ) (row dim : ℕ) : ℝ :=
  query.getD (row * shape.headDim + dim) 0

def denseAt (shape : Shape) (dense : List ℝ) (row token dim : ℕ) : ℝ :=
  dense.getD (((row / shape.queryHeads * shape.maxSeqLen + token) * shape.kvHeads +
    shape.kvHead (row % shape.queryHeads)) * shape.headDim + dim) 0

/-- The attention of a head over the tokens of its sequence. -/
noncomputable def decodedRow (shape : Shape) (lengths : ℕ → ℕ) (query key value : List ℝ)
    (row dim : ℕ) : ℝ :=
  OnlineSoftmax.attention shape.headDim (queryAt shape query row) (denseAt shape key row)
    (denseAt shape value row) (List.range (lengths (row / shape.queryHeads))) dim

theorem kvHead_lt (hheads : shape.kvHeads ∣ shape.queryHeads) {qHead : ℕ}
    (hqHead : qHead < shape.queryHeads) : shape.kvHead qHead < shape.kvHeads := by
  refine Nat.div_lt_of_lt_mul ?_
  rw [Nat.div_mul_cancel hheads]
  exact hqHead

theorem within_lt (hheads : shape.kvHeads ∣ shape.queryHeads) {qHead dim : ℕ}
    (hqHead : qHead < shape.queryHeads) (hdim : dim < shape.headDim) :
    shape.kvHead qHead * shape.headDim + dim < shape.elemsPerToken :=
  row_lt (kvHead_lt hheads hqHead) hdim

theorem denseAt_eq (dense : List ℝ) (row token dim : ℕ) : denseAt shape dense row token dim =
    dense.getD ((row / shape.queryHeads * shape.maxSeqLen + token) * shape.elemsPerToken +
      (shape.kvHead (row % shape.queryHeads) * shape.headDim + dim)) 0 := by
  rw [denseAt, Shape.elemsPerToken]
  congr 1
  ring

/-- The caches and the tables serve every head. -/
theorem CachesSpec.headSpec {caches : KVCaches EReal}
    (hcaches : CachesSpec shape lengths totalBlocks shape.batchSize (asFloats key)
      (asFloats value) caches)
    (htables : TablesSpec shape lengths totalBlocks shape.batchSize tables)
    (hshape : ShapeSpec shape lengths) (hfits : Fits shape lengths warps)
    (hquery : query.length = shape.batchSize * shape.queryHeads * shape.headDim)
    (hkey : key.length = shape.batchSize * (shape.maxSeqLen * shape.elemsPerToken))
    (hvalue : value.length = shape.batchSize * (shape.maxSeqLen * shape.elemsPerToken))
    {row : ℕ} (hrow : row < shape.batchSize * shape.queryHeads) :
    DecodeInputs.HeadSpec (decodeInputs shape (asFloats query) tables caches)
      (row / shape.queryHeads) (row % shape.queryHeads) (lengths (row / shape.queryHeads))
      (queryAt shape query row) (denseAt shape key row) (denseAt shape value row) := by
  obtain ⟨hbatch, hqHead⟩ := div_mod_of_lt hrow
  refine ⟨fun dim hdim => ?_, fun token htoken => ?_⟩
  · have hlt := row_lt hrow hdim
    have hindex : shape.rowIdx (row / shape.queryHeads) (row % shape.queryHeads) dim = _ :=
      Shape.rowIdx_eq hdim (by rw [Nat.div_add_mod']; exact hlt.trans_le hfits.query_le)
    show (shape.rowIdx (row / shape.queryHeads) (row % shape.queryHeads) dim).bind
      (Buffer.load (asFloats query)) = _
    rw [hindex, Option.bind_some, Nat.div_add_mod', Buffer.load_natCast,
      getElem?_asFloats (hquery ▸ hlt)]
    rfl
  · refine ⟨_, htables.load hfits.toTablesFit hbatch htoken, fun dim hdim => ?_⟩
    have hwithin := within_lt hshape.kvHeads_dvd hqHead hdim
    have hcell := hcaches.cell _ hbatch token htoken _ hwithin
    have hdense := row_lt (row_lt hbatch (htoken.trans_le (hshape.length_le _ hbatch))) hwithin
    rw [Nat.mul_assoc] at hdense
    have hcache : (decodeInputs shape (asFloats query) tables caches).cacheIdx
        (row % shape.queryHeads)
        ((blocksBefore shape lengths (row / shape.queryHeads) + token / shape.blockSize : ℕ) : ℤ)
        (token % shape.blockSize) dim =
        some ((slotOf shape lengths (row / shape.queryHeads) token * shape.elemsPerToken +
          (shape.kvHead (row % shape.queryHeads) * shape.headDim + dim) : ℕ) : ℤ) := by
      have hmax := (row_lt (Nat.lt_succ_self (slotOf shape lengths (row / shape.queryHeads) token))
        hwithin).trans_le (hfits.cache_le _ hbatch token htoken)
      rw [slotOf_eq hshape.blockSize_pos htoken] at hmax ⊢
      exact Shape.kvIdx_eq (kvHead_lt hshape.kvHeads_dvd hqHead) hdim hmax
    constructor
    · refine (congrArg (Option.bind · (Buffer.load caches.keyCache)) hcache).trans ?_
      rw [Option.bind_some, Buffer.load_natCast, denseAt_eq, ← getElem?_asFloats (hkey ▸ hdense)]
      exact congrArg Prod.fst hcell
    · refine (congrArg (Option.bind · (Buffer.load caches.valueCache)) hcache).trans ?_
      rw [Option.bind_some, Buffer.load_natCast, denseAt_eq, ← getElem?_asFloats (hvalue ▸ hdense)]
      exact congrArg Prod.snd hcell

theorem referenceToken_eq (hshape : ShapeSpec shape lengths) (hfits : Fits shape lengths warps)
    (hquery : query.length = shape.batchSize * shape.queryHeads * shape.headDim)
    (hkey : key.length = shape.batchSize * (shape.maxSeqLen * shape.elemsPerToken))
    (hvalue : value.length = shape.batchSize * (shape.maxSeqLen * shape.elemsPerToken))
    {batch qHead token : ℕ} (hbatch : batch < shape.batchSize) (hqHead : qHead < shape.queryHeads)
    (htoken : token < lengths batch) :
    referenceToken shape (asFloats query) (asFloats key) (asFloats value) batch qHead token =
      some ((OnlineSoftmax.scaledDot shape.headDim
          (queryAt shape query (batch * shape.queryHeads + qHead))
          (denseAt shape key (batch * shape.queryHeads + qHead) token) : EReal),
        fun dim => ((List.range shape.headDim).map fun dim =>
          (denseAt shape value (batch * shape.queryHeads + qHead) token dim : EReal)).getD dim 0) := by
  have hdense : ∀ dense : List ℝ,
      dense.length = shape.batchSize * (shape.maxSeqLen * shape.elemsPerToken) →
      ∀ dim < shape.headDim,
        (shape.kvIdx batch shape.maxSeqLen token (shape.kvHead qHead) dim).bind
          (Buffer.load (asFloats dense)) =
        some (denseAt shape dense (batch * shape.queryHeads + qHead) token dim : EReal) := by
    intro dense hlength dim hdim
    have hwithin := within_lt hshape.kvHeads_dvd hqHead hdim
    have hmax := (row_lt (Nat.lt_succ_self (batch * shape.maxSeqLen + token)) hwithin).trans_le
      (hfits.dense_le batch hbatch token htoken)
    have hlt := row_lt (row_lt hbatch (htoken.trans_le (hshape.length_le batch hbatch))) hwithin
    rw [Nat.mul_assoc] at hlt
    rw [Shape.kvIdx_eq (kvHead_lt hshape.kvHeads_dvd hqHead) hdim hmax, Option.bind_some,
      Buffer.load_natCast, getElem?_asFloats (hlength ▸ hlt), denseAt_eq, row_div _ hqHead,
      row_mod _ hqHead]
  have hload : ∀ dim < shape.headDim, (shape.rowIdx batch qHead dim).bind
      (Buffer.load (asFloats query)) =
        some (queryAt shape query (batch * shape.queryHeads + qHead) dim : EReal) := by
    intro dim hdim
    have hlt := row_lt (row_lt hbatch hqHead) hdim
    rw [Shape.rowIdx_eq hdim (hlt.trans_le hfits.query_le), Option.bind_some, Buffer.load_natCast,
      getElem?_asFloats (hquery ▸ hlt), queryAt]
  have hscore := foldlM_add_mul_coe (fun dim hdim => hload dim (List.mem_range.mp hdim))
    fun dim hdim => hdense key hkey dim (List.mem_range.mp hdim)
  have hrow := Option.mapM_eq_some fun dim hdim =>
    hdense value hvalue dim (List.mem_range.mp hdim)
  simp only [referenceToken]
  rw [hscore, Option.bind_eq_bind, Option.bind_some, hrow, Option.bind_eq_bind, Option.bind_some,
    OnlineSoftmax.scaledDot, EReal.coe_mul, ← one_div_sqrt]
  rfl

theorem referenceRow_eq
    (htables : TablesSpec shape lengths totalBlocks shape.batchSize tables)
    (hshape : ShapeSpec shape lengths) (hfits : Fits shape lengths warps)
    (hquery : query.length = shape.batchSize * shape.queryHeads * shape.headDim)
    (hkey : key.length = shape.batchSize * (shape.maxSeqLen * shape.elemsPerToken))
    (hvalue : value.length = shape.batchSize * (shape.maxSeqLen * shape.elemsPerToken))
    {batch qHead : ℕ} (hbatch : batch < shape.batchSize) (hqHead : qHead < shape.queryHeads) :
    referenceRow shape (asFloats query) (asFloats key) (asFloats value) tables.sequences batch
        qHead =
      some ((List.range shape.headDim).map fun dim =>
        (decodedRow shape lengths query key value (batch * shape.queryHeads + qHead) dim :
          EReal)) := by
  have htokens := Option.mapM_eq_some (l := List.range (lengths batch)) fun token htoken =>
    referenceToken_eq hshape hfits hquery hkey hvalue hbatch hqHead (List.mem_range.mp htoken)
  rw [referenceRow, htables.sequence hbatch]
  simp only [htokens, Option.bind_eq_bind, Option.bind_some]
  refine congrArg some (List.map_congr_left fun dim hdim => ?_)
  have hne : List.range (lengths batch) ≠ [] :=
    List.ne_nil_of_mem (List.mem_range.mpr (hshape.length_pos batch hbatch))
  rw [decodedRow, OnlineSoftmax.attention, row_div _ hqHead,
    ← OnlineSoftmax.twoPass_exactly (OnlineSoftmax.scored_ne_nil hne), OnlineSoftmax.exactly,
    OnlineSoftmax.scored, List.map_map]
  exact OnlineSoftmax.twoPass_congr (fun _ _ => rfl) (fun token _ => by
    simp [List.getD_eq_getElem?_getD, List.mem_range.mp hdim])

/-- The reference computes the row of every head. -/
theorem referenceDecode_eq
    (htables : TablesSpec shape lengths totalBlocks shape.batchSize tables)
    (hshape : ShapeSpec shape lengths) (hfits : Fits shape lengths warps)
    (hquery : query.length = shape.batchSize * shape.queryHeads * shape.headDim)
    (hkey : key.length = shape.batchSize * (shape.maxSeqLen * shape.elemsPerToken))
    (hvalue : value.length = shape.batchSize * (shape.maxSeqLen * shape.elemsPerToken)) :
    referenceDecode shape (asFloats query) (asFloats key) (asFloats value) tables.sequences =
      some ((List.range (shape.batchSize * shape.queryHeads)).flatMap fun row =>
        (List.range shape.headDim).map fun dim =>
          (decodedRow shape lengths query key value row dim : EReal)) := by
  have hrows := Option.mapM_eq_some (l := List.range shape.batchSize) fun batch hbatch =>
    Option.mapM_eq_some (l := List.range shape.queryHeads) fun qHead hqHead =>
      referenceRow_eq htables hshape hfits hquery hkey hvalue (List.mem_range.mp hbatch)
        (List.mem_range.mp hqHead)
  have htile : ∀ batch, (List.range shape.queryHeads).map (fun qHead =>
      (List.range shape.headDim).map fun dim => (decodedRow shape lengths query key value
        (batch * shape.queryHeads + qHead) dim : EReal)) =
      (Tiling.tile shape.queryHeads batch).map fun row => (List.range shape.headDim).map fun dim =>
        (decodedRow shape lengths query key value row dim : EReal) := by
    intro batch
    rw [Tiling.tile, List.map_map]
    rfl
  rw [referenceDecode, hrows, Option.bind_eq_bind, Option.bind_some]
  simp only [htile]
  rw [← List.flatMap_def, ← List.map_flatMap, Tiling.flatMap_tile, ← List.flatMap_def]
  rfl

/-- In range, the kernel on paged caches gives what the reference gives on the dense K/V, for every
order of the threads and whatever the caches, the outputs and the shared memory held before. -/
theorem pagedDecode_eq_reference {caches : KVCaches EReal} {outputs : List EReal}
    (h : ShapeSpec shape lengths) (hfits : Fits shape lengths warps)
    (hbuild : buildTables shape lengths totalBlocks = some tables)
    (hquery : query.length = shape.batchSize * shape.queryHeads * shape.headDim)
    (hkey : key.length = shape.batchSize * (shape.maxSeqLen * shape.elemsPerToken))
    (hvalue : value.length = shape.batchSize * (shape.maxSeqLen * shape.elemsPerToken))
    (hcaches : caches.Sized (totalBlocks * shape.blockSize * shape.elemsPerToken))
    (houtputs : outputs.length = shape.batchSize * shape.queryHeads * shape.headDim)
    (hwarps : 1 ≤ warps) (fill : ℕ → Launch.Schedule) (blocks : Launch.Schedule)
    (threads : ℕ → ℕ → Launch.Schedule) (garbage : ℕ → SharedCell → EReal) :
    ∃ filled outputs',
      fillCache fill shape (asFloats key) (asFloats value) tables caches = some filled ∧
      (decodeInputs shape (asFloats query) tables filled).pagedDecodeAttention warps blocks threads
        garbage outputs = some outputs' ∧
      referenceDecode shape (asFloats query) (asFloats key) (asFloats value) tables.sequences =
        some outputs' := by
  obtain ⟨htables, henough⟩ := h.tablesSpec hfits.toTablesFit hbuild
  obtain ⟨filled, hfill, hfilled⟩ := exists_fillCache htables h hfits henough
    ((length_asFloats key).trans hkey) ((length_asFloats value).trans hvalue) hcaches fill
  refine ⟨filled, _, hfill, ?_, referenceDecode_eq htables h hfits hquery hkey hvalue⟩
  refine DecodeInputs.exists_pagedDecodeAttention blocks threads garbage hwarps
    (h.decodeLaunchable hfits hwarps) houtputs hfits.query_le
    (fun batch hbatch => ⟨h.length_pos batch hbatch, ?_⟩)
    (fun row hrow => hfilled.headSpec htables h hfits hquery hkey hvalue hrow)
  show (tables.sequences.map SequenceBlocks.length)[batch]? = _
  rw [List.getElem?_map, htables.sequence hbatch]
  rfl

/-- The shape of `main` with 1024 tokens for each of 8193 sequences. -/
def crowdedShape : Shape := ⟨8193, 8, 4, 64, 16, 1024, 64⟩

/-- The last token of the last sequence has an entry at 2147745791, so nothing is filled. -/
theorem crowdedShape_overflows : ∃ tables,
    buildTables crowdedShape (fun _ => 1024) (8193 * 64) = some tables ∧
    ∀ fill (key value : List EReal) caches,
      fillCache fill crowdedShape key value tables caches = none := by
  have hshape : ShapeSpec crowdedShape fun _ => 1024 :=
    ⟨by decide, by decide, by decide, fun _ _ => by decide, fun _ _ => le_rfl⟩
  have htables : TablesFit crowdedShape fun _ => 1024 :=
    ⟨by decide, fun _ _ => by decide, by decide⟩
  obtain ⟨tables, hbuild, hspec⟩ := exists_buildTables htables (show 0 < 8193 * 64 by decide)
    (fun _ _ => by decide) (blocksBefore_const ..).le
  refine ⟨tables, hbuild, fun fill key value caches => ?_⟩
  refine fillCache_eq_none hspec hshape htables (by decide) (by decide) (by decide)
    (show 8192 < 8193 by decide) (show 1023 < 1024 by decide) ?_ fill
  rw [slotOf_eq (by decide) (by decide), blocksBefore_const]
  decide

/-- Two sequences of three tokens and of one token, in blocks of two. -/
def sampleShape : Shape := ⟨2, 2, 1, 1, 2, 3, 2⟩

def sampleLengths (batch : ℕ) : ℕ := if batch = 0 then 3 else 1

def sampleTables : Tables := ⟨⟨[]⟩, [⟨3, [0, 1]⟩, ⟨1, [2]⟩], [0, 1, 2, -1]⟩

/-- With two warps one of them finds no token in the second sequence. -/
theorem pagedDecode_eq_reference_sample :
    ∃ filled outputs',
      fillCache (fun _ => .sequential) sampleShape (asFloats [1, 2, 3, 4, 5, 6])
          (asFloats [6, 5, 4, 3, 2, 1]) sampleTables
          ⟨List.replicate 6 0, List.replicate 6 0⟩ = some filled ∧
      (decodeInputs sampleShape (asFloats [1, 2, 3, 4]) sampleTables filled).pagedDecodeAttention 2
          .sequential (fun _ _ => .sequential) (fun _ _ => ⊤) (List.replicate 4 0) =
        some outputs' ∧
      referenceDecode sampleShape (asFloats [1, 2, 3, 4]) (asFloats [1, 2, 3, 4, 5, 6])
        (asFloats [6, 5, 4, 3, 2, 1]) sampleTables.sequences = some outputs' := by
  have hshape : ShapeSpec sampleShape sampleLengths := by
    refine ⟨by decide, by decide, by decide, fun batch _ => ?_, fun batch _ => ?_⟩
    · unfold sampleLengths
      split <;> decide
    · unfold sampleLengths
      split <;> decide
  have hlength : ∀ batch, sampleLengths batch ≤ 3 := by
    intro batch
    unfold sampleLengths
    split <;> decide
  have hbuild : buildTables sampleShape sampleLengths 3 = some sampleTables := rfl
  have hfits : Fits sampleShape sampleLengths 2 := by
    refine ⟨⟨by decide, fun batch _ => ?_, by decide⟩, by decide, by decide, by decide, by decide,
      by decide, by decide, by decide, fun batch hbatch token htoken => ?_,
      fun batch hbatch token htoken => ?_, by decide⟩
    · have := hlength batch
      show sampleLengths batch + 2 < 2 ^ 31
      omega
    · have hslot : slotOf sampleShape sampleLengths batch token < 3 * 2 :=
        slotOf_lt (by decide) (by decide) hbatch htoken
      show (slotOf sampleShape sampleLengths batch token + 1) * (1 * 1) ≤ 2 ^ 31
      omega
    · have hle := hlength batch
      have hbatch' : batch < 2 := hbatch
      show (batch * 3 + token + 1) * (1 * 1) ≤ 2 ^ 31
      omega
  exact pagedDecode_eq_reference hshape hfits hbuild rfl rfl rfl ⟨rfl, rfl⟩ rfl (by decide) _ _ _ _

end Reference

end PagedAttention

end MiniVLLM
