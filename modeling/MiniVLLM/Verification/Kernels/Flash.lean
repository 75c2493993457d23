import MiniVLLM.Verification.Kernels.FlashTiles

/-! # The fused kernel against its reference

The warps of all blocks store every entry of the result once, and each entry is the one the
reference computes. -/

namespace MiniVLLM

namespace FlashAttention

open Launch Reduction Strided Tiling FloatOps

namespace FusedProblem

/-! ## Padding -/

section Padding

variable {α : Type} [FloatOps α] {problem : FusedProblem α} {tiles tiles' : TileCell → α}
  {kvTile : ℕ}

/-- Tiles that differ in the padding of the key tile at most. -/
structure AgreeInside (problem : FusedProblem α) (kvTile : ℕ) (tiles tiles' : TileCell → α) :
    Prop where
  q_eq : ∀ row col, tiles ⟨.q, row, col⟩ = tiles' ⟨.q, row, col⟩
  k_eq : ∀ row, kvTile * problem.blockSize + row < problem.maxSeqLen →
    ∀ col, tiles ⟨.k, row, col⟩ = tiles' ⟨.k, row, col⟩
  v_eq : ∀ row, kvTile * problem.blockSize + row < problem.maxSeqLen →
    ∀ col, tiles ⟨.v, row, col⟩ = tiles' ⟨.v, row, col⟩

/-- A warp does not see the padding of the last tile. -/
theorem sweepTile_congr (h : problem.AgreeInside kvTile tiles tiles') (qTile rowQ : ℕ)
    (state : WarpRow α) :
    problem.sweepTile tiles qTile rowQ kvTile state =
      problem.sweepTile tiles' qTile rowQ kvTile state := by
  rw [sweepTile, sweepTile]
  refine if_congr Iff.rfl (List.foldl_ext _ _ _ fun state rowK _ => ?_) rfl
  by_cases hin : kvTile * problem.blockSize + rowK < problem.maxSeqLen
  · simp only [attendKey, scoreBcast, h.q_eq, h.k_eq rowK hin, h.v_eq rowK hin]
  · rw [if_pos (Nat.le_of_not_lt hin), if_pos (Nat.le_of_not_lt hin)]

end Padding

variable {problem : FusedProblem ℝ}

/-! ## The rows of a block -/

section Rows

variable {batchIdx headIdx head qTile qBase thread : ℕ}

noncomputable def attended (problem : FusedProblem ℝ) (head q d : ℕ) : ℝ :=
  OnlineSoftmax.attention problem.headDim (problem.entryAt .q head q) (problem.entryAt .k head)
    (problem.entryAt .v head) (List.range problem.maxSeqLen) d

/-- The store of an entry of the result. -/
noncomputable def storeOf (problem : FusedProblem ℝ) (i : ℕ) : ℤ × EReal :=
  (i, (problem.attended (i / problem.headDim / problem.maxSeqLen)
    (i / problem.headDim % problem.maxSeqLen) (i % problem.headDim) : EReal))

theorem storeOf_row (head : ℕ) {q d : ℕ} (hq : q < problem.maxSeqLen) (hd : d < problem.headDim) :
    problem.storeOf ((head * problem.maxSeqLen + q) * problem.headDim + d) =
      ((((head * problem.maxSeqLen + q) * problem.headDim + d : ℕ) : ℤ),
        (problem.attended head q d : EReal)) := by
  rw [storeOf, row_div _ hd, row_mod _ hd, row_div _ hq, row_mod _ hq]

/-- The entries of the result that a thread stores for the row of its warp. -/
def rowEntries (problem : FusedProblem ℝ) (head qTile qBase thread : ℕ) : List ℕ :=
  if qBase + thread / warpSize < problem.blockSize ∧
      qTile * problem.blockSize + (qBase + thread / warpSize) < problem.maxSeqLen then
    (strided (thread % warpSize) problem.headDim warpSize).map fun d =>
      (head * problem.maxSeqLen + (qTile * problem.blockSize + (qBase + thread / warpSize))) *
        problem.headDim + d
  else []

theorem Sized.exists_kvSteps (h : problem.Sized) (schedule : Stage → Launch.Schedule)
    (hbatch : batchIdx < problem.batchSize) (hhead : headIdx < problem.headNum) (qBase : ℕ)
    {tiles : TileCell → EReal}
    (hq : problem.TileHolds .q (batchIdx * problem.headNum + headIdx) qTile tiles) (count : ℕ) :
    ∃ swept, (List.range count).foldlM
        (problem.floats.kvStep schedule batchIdx headIdx qTile qBase)
        ⟨tiles, fun _ => WarpRow.start⟩ = some swept ∧
      problem.TileHolds .q (batchIdx * problem.headNum + headIdx) qTile swept.tiles ∧
      ∀ warp, qBase + warp < problem.blockSize →
        qTile * problem.blockSize + (qBase + warp) < problem.maxSeqLen →
        RowHolds problem.headDim (OnlineSoftmax.start.attendAll (OnlineSoftmax.exactly
          (problem.scored (batchIdx * problem.headNum + headIdx)
            (qTile * problem.blockSize + (qBase + warp))
            ((List.range count).flatMap problem.keysOf)))) (swept.rows warp) := by
  induction count with
  | zero => exact ⟨_, rfl, hq, fun _ _ _ => ⟨rfl, rfl, fun _ _ => rfl⟩⟩
  | succ count ih =>
      obtain ⟨swept, hrun, hq', hrows⟩ := ih
      obtain ⟨tiles', hload, hloaded, hkept⟩ := h.exists_launch_loadTile
        (schedule (.loadKV qTile qBase count)) hbatch hhead count
        (show [Tensor.k, .v].Nodup by decide) swept.tiles
      have hq'' : problem.TileHolds .q (batchIdx * problem.headNum + headIdx) qTile tiles' := by
        intro row hrow col hcol
        rw [hkept .q (by decide) row col]
        exact hq' row hrow col hcol
      refine ⟨⟨tiles', fun warp =>
        problem.floats.sweepTile tiles' qTile (qBase + warp) count (swept.rows warp)⟩, ?_, hq'',
        fun warp hrowQ hqIdx => ?_⟩
      · rw [List.range_succ, List.foldlM_append, hrun, Option.bind_eq_bind, Option.bind_some,
          List.foldlM_cons, kvStep, hload]
        rfl
      · rw [List.range_succ, List.flatMap_append, List.flatMap_singleton]
        exact sweepTile_holds hq'' (hloaded .k (by decide)) (hloaded .v (by decide)) hrowQ hqIdx
          (hrows warp hrowQ hqIdx)

theorem Sized.storeRow_eq (h : problem.Sized) (hbatch : batchIdx < problem.batchSize)
    (hhead : headIdx < problem.headNum) {rows : ℕ → WarpRow EReal} (thread : ℕ)
    (hrow : qBase + thread / warpSize < problem.blockSize →
      qTile * problem.blockSize + (qBase + thread / warpSize) < problem.maxSeqLen →
      RowHolds problem.headDim (OnlineSoftmax.start.attendAll (OnlineSoftmax.exactly
        (problem.scored (batchIdx * problem.headNum + headIdx)
          (qTile * problem.blockSize + (qBase + thread / warpSize))
          (List.range problem.maxSeqLen)))) (rows (thread / warpSize))) :
    problem.floats.storeRow batchIdx headIdx qTile qBase rows thread =
      some ((problem.rowEntries (batchIdx * problem.headNum + headIdx) qTile qBase thread).map
        problem.storeOf) := by
  rw [rowEntries]
  by_cases hin : qBase + thread / warpSize < problem.blockSize ∧
      qTile * problem.blockSize + (qBase + thread / warpSize) < problem.maxSeqLen
  · have hholds := hrow hin.1 hin.2
    have hne : problem.scored (batchIdx * problem.headNum + headIdx)
        (qTile * problem.blockSize + (qBase + thread / warpSize))
        (List.range problem.maxSeqLen) ≠ [] :=
      OnlineSoftmax.scored_ne_nil (List.ne_nil_of_mem (List.mem_range.mpr hin.2))
    have hsum : 0 < (rows (thread / warpSize)).rowSum := by
      rw [hholds.sum_eq]
      exact zero_lt_one.trans_le (OnlineSoftmax.one_le_attendAll_rowSum hne)
    rw [if_pos hin, List.map_map]
    refine (if_pos ⟨hin.1, hin.2, hsum⟩).trans (Option.mapM_eq_some fun d hd => ?_)
    obtain ⟨hlt, hlane⟩ : d < problem.headDim ∧ d % warpSize = thread % warpSize :=
      (mem_strided_of_lt (Nat.mod_lt _ (by decide))).mp hd
    have hindex : problem.floats.outIdx batchIdx headIdx
        (qTile * problem.floats.blockSize + (qBase + thread / warpSize)) d = _ :=
      h.outIdx_eq hbatch hhead hin.2 hlt
    rw [hindex, Function.comp_apply, storeOf_row _ hin.2 hlt, ← hlane, hholds.out_eq d hlt,
      hholds.sum_eq, OnlineSoftmax.attendAll_output_div_rowSum hne]
    rfl
  · rw [if_neg hin]
    exact if_neg fun h => hin ⟨h.1, h.2.1⟩

theorem Sized.exists_baseSteps (h : problem.Sized) (hsize : 0 < problem.blockSize)
    (schedule : Stage → Launch.Schedule) (hbatch : batchIdx < problem.batchSize)
    (hhead : headIdx < problem.headNum) (bases : List ℕ) {tiles : TileCell → EReal}
    (hq : problem.TileHolds .q (batchIdx * problem.headNum + headIdx) qTile tiles)
    (stores : List (ℤ × EReal)) :
    ∃ tiles', bases.foldlM (problem.floats.baseStep schedule
        (tileCount problem.maxSeqLen problem.blockSize) batchIdx headIdx qTile) (tiles, stores) =
      some (tiles', stores ++ (bases.flatMap fun qBase =>
        ((schedule (.store qTile qBase)).order threadsPerTile).flatMap
          (problem.rowEntries (batchIdx * problem.headNum + headIdx) qTile qBase)).map
            problem.storeOf) := by
  induction bases generalizing tiles stores with
  | nil => exact ⟨tiles, by simp⟩
  | cons qBase bases ih =>
      obtain ⟨swept, hrun, hq', hrows⟩ :=
        h.exists_kvSteps schedule hbatch hhead qBase hq
          (tileCount problem.maxSeqLen problem.blockSize)
      rw [flatMap_keysOf hsize] at hrows
      have hstores := Option.mapM_eq_some
        (l := (schedule (.store qTile qBase)).order threadsPerTile) fun thread _ =>
          h.storeRow_eq hbatch hhead thread (hrows (thread / warpSize))
      obtain ⟨tiles', hrest⟩ := ih hq' (stores ++
        (((schedule (.store qTile qBase)).order threadsPerTile).flatMap
          (problem.rowEntries (batchIdx * problem.headNum + headIdx) qTile qBase)).map
            problem.storeOf)
      refine ⟨tiles', ?_⟩
      rw [List.foldlM_cons, baseStep]
      simp only [hrun, hstores, Option.bind_eq_bind, Option.bind_some, Option.pure_def]
      rw [← List.flatMap_def, ← List.map_flatMap, hrest, List.flatMap_cons, List.map_append,
        List.append_assoc]

def blockEntries (problem : FusedProblem ℝ) (schedule : Stage → Launch.Schedule) (head : ℕ)
    (qTiles : List ℕ) : List ℕ :=
  qTiles.flatMap fun qTile => (strided 0 problem.blockSize warpCount).flatMap fun qBase =>
    ((schedule (.store qTile qBase)).order threadsPerTile).flatMap
      (problem.rowEntries head qTile qBase)

theorem Sized.exists_qSteps (h : problem.Sized) (hsize : 0 < problem.blockSize)
    (schedule : Stage → Launch.Schedule) (hbatch : batchIdx < problem.batchSize)
    (hhead : headIdx < problem.headNum) (qTiles : List ℕ) (tiles : TileCell → EReal)
    (stores : List (ℤ × EReal)) :
    ∃ tiles', qTiles.foldlM (problem.floats.qStep schedule
        (tileCount problem.maxSeqLen problem.blockSize) batchIdx headIdx) (tiles, stores) =
      some (tiles', stores ++ (problem.blockEntries schedule
        (batchIdx * problem.headNum + headIdx) qTiles).map problem.storeOf) := by
  induction qTiles generalizing tiles stores with
  | nil => exact ⟨tiles, by simp [blockEntries]⟩
  | cons qTile qTiles ih =>
      obtain ⟨loaded, hload, hloaded, _⟩ := h.exists_launch_loadTile (schedule (.loadQ qTile))
        hbatch hhead qTile (show [Tensor.q].Nodup by decide) tiles
      obtain ⟨next, hbases⟩ := h.exists_baseSteps hsize schedule hbatch hhead
        (strided 0 problem.blockSize warpCount) (hloaded .q (by decide)) stores
      obtain ⟨tiles', hrest⟩ := ih next (stores ++
        ((strided 0 problem.blockSize warpCount).flatMap fun qBase =>
          ((schedule (.store qTile qBase)).order threadsPerTile).flatMap
            (problem.rowEntries (batchIdx * problem.headNum + headIdx) qTile qBase)).map
              problem.storeOf)
      refine ⟨tiles', ?_⟩
      have hstep : problem.floats.qStep schedule (tileCount problem.maxSeqLen problem.blockSize)
          batchIdx headIdx (tiles, stores) qTile =
          some (next, stores ++ ((strided 0 problem.blockSize warpCount).flatMap fun qBase =>
            ((schedule (.store qTile qBase)).order threadsPerTile).flatMap
              (problem.rowEntries (batchIdx * problem.headNum + headIdx) qTile qBase)).map
                problem.storeOf) := by
        rw [qStep, hload]
        exact hbases
      rw [List.foldlM_cons, hstep, Option.bind_eq_bind, Option.bind_some, hrest, blockEntries,
        blockEntries, List.flatMap_cons, List.map_append, List.append_assoc]

theorem Sized.runBlock_eq (h : problem.Sized) (hsize : 0 < problem.blockSize)
    (htiles : problem.maxSeqLen + problem.blockSize < 2 ^ 31) (schedule : Stage → Launch.Schedule)
    (garbage : TileCell → EReal) {block : ℕ}
    (hblock : block < problem.batchSize * problem.headNum) :
    problem.floats.runBlock schedule garbage block =
      some ((problem.blockEntries schedule block
        (List.range (tileCount problem.maxSeqLen problem.blockSize))).map problem.storeOf) := by
  obtain ⟨hbatch, hhead⟩ := div_mod_of_lt hblock
  obtain ⟨tiles', hrun⟩ := h.exists_qSteps hsize schedule hbatch hhead
    (List.range (tileCount problem.maxSeqLen problem.blockSize)) garbage []
  have hcount : CInt.ceilDiv problem.floats.maxSeqLen problem.floats.blockSize =
      some (tileCount problem.maxSeqLen problem.blockSize : ℤ) :=
    CInt.ceilDiv_natCast htiles hsize
  rw [Nat.div_add_mod', List.nil_append] at hrun
  rw [runBlock, hcount, Option.bind_eq_bind, Option.bind_some, Int.toNat_natCast]
  exact congrArg (fun run : Option ((TileCell → EReal) × List (ℤ × EReal)) =>
    run.bind fun state => some state.2) hrun

end Rows

/-! ## Coverage -/

section Coverage

variable {head qTile qBase thread i : ℕ}

theorem mem_rowEntries : i ∈ problem.rowEntries head qTile qBase thread ↔
    qBase + thread / warpSize < problem.blockSize ∧
      qTile * problem.blockSize + (qBase + thread / warpSize) < problem.maxSeqLen ∧
      ∃ d < problem.headDim, d % warpSize = thread % warpSize ∧
        (head * problem.maxSeqLen + (qTile * problem.blockSize + (qBase + thread / warpSize))) *
          problem.headDim + d = i := by
  have hlane : thread % warpSize < warpSize := Nat.mod_lt _ (by decide)
  rw [rowEntries]
  by_cases hin : qBase + thread / warpSize < problem.blockSize ∧
      qTile * problem.blockSize + (qBase + thread / warpSize) < problem.maxSeqLen
  · rw [if_pos hin, List.mem_map]
    constructor
    · rintro ⟨d, hd, rfl⟩
      obtain ⟨hlt, hmod⟩ := (mem_strided_of_lt hlane).mp hd
      exact ⟨hin.1, hin.2, d, hlt, hmod, rfl⟩
    · rintro ⟨_, _, d, hlt, hmod, rfl⟩
      exact ⟨d, (mem_strided_of_lt hlane).mpr ⟨hlt, hmod⟩, rfl⟩
  · rw [if_neg hin]
    exact ⟨fun h => absurd h List.not_mem_nil, fun h => absurd ⟨h.1, h.2.1⟩ hin⟩

theorem nodup_rowEntries (problem : FusedProblem ℝ) (head qTile qBase thread : ℕ) :
    (problem.rowEntries head qTile qBase thread).Nodup := by
  rw [rowEntries]
  split
  · exact (nodup_strided (by decide)).map fun _ _ h => Nat.add_left_cancel h
  · exact List.nodup_nil

/-- The query of an entry, in its head. -/
def queryOf (problem : FusedProblem ℝ) (i : ℕ) : ℕ :=
  i / problem.headDim % problem.maxSeqLen

/-- The thread that stores an entry: its warp has the query row, and its lane the dimension. -/
def threadOf (problem : FusedProblem ℝ) (i : ℕ) : ℕ :=
  problem.queryOf i % problem.blockSize % warpCount * warpSize + i % problem.headDim % warpSize

theorem of_mem_rowEntries (hmem : i ∈ problem.rowEntries head qTile qBase thread) :
    i / problem.headDim / problem.maxSeqLen = head ∧
      problem.queryOf i / problem.blockSize = qTile ∧
      problem.queryOf i % problem.blockSize = qBase + thread / warpSize ∧
      i % problem.headDim % warpSize = thread % warpSize := by
  obtain ⟨hrowQ, hqIdx, d, hd, hmod, rfl⟩ := mem_rowEntries.mp hmem
  rw [queryOf, row_div _ hd, row_mod _ hd, row_div _ hqIdx, row_mod _ hqIdx, row_div _ hrowQ,
    row_mod _ hrowQ]
  exact ⟨rfl, rfl, rfl, hmod⟩

theorem threadOf_eq (hbase : qBase % warpCount = 0) (hthread : thread < threadsPerTile)
    (hmem : i ∈ problem.rowEntries head qTile qBase thread) : problem.threadOf i = thread := by
  obtain ⟨_, _, hrow, hlane⟩ := of_mem_rowEntries hmem
  have hwarp : thread / warpSize < warpCount := Nat.div_lt_of_lt_mul hthread
  rw [threadOf, hrow, hlane, Nat.add_mod, hbase, Nat.zero_add, Nat.mod_mod,
    Nat.mod_eq_of_lt hwarp, Nat.div_add_mod']

theorem base_eq (hbase : qBase % warpCount = 0) (hthread : thread < threadsPerTile)
    (hmem : i ∈ problem.rowEntries head qTile qBase thread) :
    problem.queryOf i % problem.blockSize / warpCount * warpCount = qBase := by
  obtain ⟨_, _, hrow, _⟩ := of_mem_rowEntries hmem
  have hwarp : thread / warpSize < warpCount := Nat.div_lt_of_lt_mul hthread
  rw [hrow, ← Nat.div_add_mod' qBase warpCount, hbase, Nat.add_zero, row_div _ hwarp]

/-- The threads of all blocks store every entry of the result, and each of them once. -/
theorem blockEntries_perm (hsize : 0 < problem.blockSize) (blocks : Launch.Schedule)
    (threads : ℕ → Stage → Launch.Schedule) :
    ((blocks.order (problem.batchSize * problem.headNum)).flatMap fun block =>
      problem.blockEntries (threads block) block
        (List.range (tileCount problem.maxSeqLen problem.blockSize))).Perm
          (List.range problem.size) := by
  have hbases : ∀ {qBase : ℕ}, qBase ∈ strided 0 problem.blockSize warpCount ↔
      qBase < problem.blockSize ∧ qBase % warpCount = 0 := mem_strided_of_lt (by decide)
  refine (List.perm_ext_iff_of_nodup ?_ List.nodup_range).mpr fun i => ?_
  · refine List.nodup_flatMap_of_owner (fun i => i / problem.headDim / problem.maxSeqLen)
      ((blocks.perm _).nodup_iff.mpr List.nodup_range) (fun block _ => ?_)
      fun block _ i hmem => ?_
    · refine List.nodup_flatMap_of_owner (fun i => problem.queryOf i / problem.blockSize)
        List.nodup_range (fun qTile _ => ?_) fun qTile _ i hmem => ?_
      · refine List.nodup_flatMap_of_owner
          (fun i => problem.queryOf i % problem.blockSize / warpCount * warpCount)
          (nodup_strided (by decide)) (fun qBase hqBase => ?_) fun qBase hqBase i hmem => ?_
        · exact List.nodup_flatMap_of_owner problem.threadOf
            (((threads block _).perm _).nodup_iff.mpr List.nodup_range)
            (fun thread _ => problem.nodup_rowEntries block qTile qBase thread)
            fun thread hthread i hmem =>
              threadOf_eq (hbases.mp hqBase).2 (Schedule.mem_order.mp hthread) hmem
        · obtain ⟨thread, hthread, hmem⟩ := List.mem_flatMap.mp hmem
          exact base_eq (hbases.mp hqBase).2 (Schedule.mem_order.mp hthread) hmem
      · obtain ⟨qBase, _, hmem⟩ := List.mem_flatMap.mp hmem
        obtain ⟨thread, _, hmem⟩ := List.mem_flatMap.mp hmem
        exact (of_mem_rowEntries hmem).2.1
    · obtain ⟨qTile, _, hmem⟩ := List.mem_flatMap.mp hmem
      obtain ⟨qBase, _, hmem⟩ := List.mem_flatMap.mp hmem
      obtain ⟨thread, _, hmem⟩ := List.mem_flatMap.mp hmem
      exact (of_mem_rowEntries hmem).1
  · rw [List.mem_range]
    constructor
    · intro hmem
      obtain ⟨block, hblock, hmem⟩ := List.mem_flatMap.mp hmem
      obtain ⟨qTile, _, hmem⟩ := List.mem_flatMap.mp hmem
      obtain ⟨qBase, _, hmem⟩ := List.mem_flatMap.mp hmem
      obtain ⟨thread, _, hmem⟩ := List.mem_flatMap.mp hmem
      obtain ⟨_, hqIdx, d, hd, _, rfl⟩ := mem_rowEntries.mp hmem
      exact row_lt (row_lt (Schedule.mem_order.mp hblock) hqIdx) hd
    · intro hi
      obtain ⟨hrow, hd⟩ := div_mod_of_lt hi
      obtain ⟨hblock, hq⟩ := div_mod_of_lt hrow
      have hrowQ := Nat.mod_lt (problem.queryOf i) hsize
      have hwarp := Nat.mod_lt (problem.queryOf i % problem.blockSize) (show 0 < warpCount by decide)
      have hlane := Nat.mod_lt (i % problem.headDim) (show 0 < warpSize by decide)
      have hthread : problem.threadOf i < threadsPerTile := row_lt hwarp hlane
      refine List.mem_flatMap.mpr ⟨_, Schedule.mem_order.mpr hblock, List.mem_flatMap.mpr
        ⟨problem.queryOf i / problem.blockSize, List.mem_range.mpr (div_lt_tileCount hsize hq),
        List.mem_flatMap.mpr ⟨problem.queryOf i % problem.blockSize / warpCount * warpCount,
        hbases.mpr ⟨(Nat.div_mul_le_self _ _).trans_lt hrowQ, Nat.mul_mod_left _ _⟩,
        List.mem_flatMap.mpr ⟨problem.threadOf i, Schedule.mem_order.mpr hthread,
        mem_rowEntries.mpr ?_⟩⟩⟩⟩
      rw [threadOf, row_div _ hlane, row_mod _ hlane, Nat.div_add_mod', Nat.div_add_mod']
      exact ⟨hrowQ, hq, i % problem.headDim, hd, rfl, by
        rw [queryOf, Nat.div_add_mod', Nat.div_add_mod']⟩

end Coverage

/-! ## The reference -/

section Reference

variable {b hIdx q kRow : ℕ}

theorem Sized.referenceToken_eq (h : problem.Sized) (hb : b < problem.batchSize)
    (hhead : hIdx < problem.headNum) (hq : q < problem.maxSeqLen) (hk : kRow < problem.maxSeqLen) :
    problem.floats.referenceToken b hIdx q kRow =
      some ((OnlineSoftmax.scaledDot problem.headDim
          (problem.entryAt .q (b * problem.headNum + hIdx) q)
          (problem.entryAt .k (b * problem.headNum + hIdx) kRow) : EReal),
        fun d => ((List.range problem.headDim).map fun d =>
          (problem.entryAt .v (b * problem.headNum + hIdx) kRow d : EReal)).getD d 0) := by
  have hscore := foldlM_add_mul_coe
    (fun d hd => h.load .q hb hhead hq (List.mem_range.mp hd))
    (fun d hd => h.load .k hb hhead hk (List.mem_range.mp hd))
  have hrow := Option.mapM_eq_some fun d hd => h.load .v hb hhead hk (List.mem_range.mp hd)
  have htoken : problem.floats.referenceToken b hIdx q kRow =
      some ((((List.range problem.headDim).map fun d =>
          problem.entryAt .q (b * problem.headNum + hIdx) q d *
            problem.entryAt .k (b * problem.headNum + hIdx) kRow d).sum : EReal) *
          ((1.0 : EReal) / FloatOps.sqrt ((problem.headDim : ℤ) : EReal)),
        fun d => ((List.range problem.headDim).map fun d =>
          (problem.entryAt .v (b * problem.headNum + hIdx) kRow d : EReal)).getD d 0) := by
    refine (congrArg (fun score : Option EReal => score.bind _) hscore).trans ?_
    exact congrArg (fun row : Option (List EReal) => row.bind _) hrow
  rw [htoken, one_div_sqrt, ← EReal.coe_mul]
  rfl

theorem Sized.referenceRow_eq (h : problem.Sized) (hb : b < problem.batchSize)
    (hhead : hIdx < problem.headNum) (hq : q < problem.maxSeqLen) :
    problem.floats.referenceRow b hIdx q =
      some ((List.range problem.headDim).map fun d =>
        (problem.attended (b * problem.headNum + hIdx) q d : EReal)) := by
  have htokens := Option.mapM_eq_some (l := List.range problem.maxSeqLen) fun kRow hk =>
    h.referenceToken_eq hb hhead hq (List.mem_range.mp hk)
  have hne : List.range problem.maxSeqLen ≠ [] := List.ne_nil_of_mem (List.mem_range.mpr hq)
  refine (congrArg (fun tokens : Option (List (EReal × (ℕ → EReal))) => tokens.bind fun tokens =>
    some ((List.range problem.headDim).map (OnlineSoftmax.twoPass tokens))) htokens).trans ?_
  refine congrArg some (List.map_congr_left fun d hd => ?_)
  rw [attended, OnlineSoftmax.attention,
    ← OnlineSoftmax.twoPass_exactly (OnlineSoftmax.scored_ne_nil hne), OnlineSoftmax.exactly,
    OnlineSoftmax.scored, List.map_map]
  exact OnlineSoftmax.twoPass_congr (fun _ _ => rfl) (fun kRow _ => by
    simp [List.getD_eq_getElem?_getD, List.mem_range.mp hd])

/-- The reference fills the result entry by entry. -/
theorem Sized.referenceAttention_eq (h : problem.Sized) :
    problem.floats.referenceAttention =
      some ((List.range problem.size).map fun i => (problem.storeOf i).2) := by
  let row : ℕ → ℕ → List EReal := fun head q =>
    (List.range problem.headDim).map fun d => (problem.attended head q d : EReal)
  have hrows := Option.mapM_eq_some (l := List.range problem.batchSize) fun b hb =>
    Option.mapM_eq_some (l := List.range problem.headNum) fun hIdx hhead =>
      Option.mapM_eq_some (l := List.range problem.maxSeqLen) fun q hq =>
        h.referenceRow_eq (List.mem_range.mp hb) (List.mem_range.mp hhead) (List.mem_range.mp hq)
  have hheads : ((List.range problem.batchSize).map fun b => (List.range problem.headNum).map
      fun hIdx => (List.range problem.maxSeqLen).map (row (b * problem.headNum + hIdx))).flatten =
      (List.range (problem.batchSize * problem.headNum)).map
        fun head => (List.range problem.maxSeqLen).map (row head) := by
    rw [← List.flatMap_def, flatMap_rows fun b hIdx =>
      (List.range problem.maxSeqLen).map (row (b * problem.headNum + hIdx))]
    simp only [Nat.div_add_mod']
  refine (congrArg (fun rows : Option (List (List (List (List EReal)))) => rows.bind fun rows =>
    some rows.flatten.flatten.flatten) hrows).trans ?_
  show some _ = _
  rw [hheads, ← List.flatMap_def, flatMap_rows row, ← List.flatMap_def,
    flatMap_rows fun r d => (problem.attended (r / problem.maxSeqLen) (r % problem.maxSeqLen) d :
      EReal)]
  rfl

end Reference

/-! ## The launch -/

/-- What the stores of a launch are: one for each entry of the result, with the value that the
reference has there. -/
structure FusedSpec (problem : FusedProblem ℝ) (stores : List (ℤ × EReal)) : Prop where
  once : (stores.map Prod.fst).Perm
    ((List.range (problem.batchSize * problem.headNum * problem.maxSeqLen * problem.headDim)).map
      Nat.cast)
  value : ∃ out, problem.floats.referenceAttention = some out ∧
    out.length = problem.batchSize * problem.headNum * problem.maxSeqLen * problem.headDim ∧
    ∀ store ∈ stores, Buffer.load out store.1 = some store.2

/-- The kernel stores every entry of the result once, for every tile. -/
theorem Sized.exists_fusedKernel (h : problem.Sized) (hsize : 0 < problem.blockSize)
    (htiles : problem.maxSeqLen + problem.blockSize < 2 ^ 31)
    (hlaunch : problem.floats.shape.Launchable) (blocks : Launch.Schedule)
    (threads : ℕ → Stage → Launch.Schedule) (garbage : ℕ → TileCell → EReal) :
    ∃ stores, problem.floats.fusedKernel blocks threads garbage = some stores ∧
      problem.FusedSpec stores := by
  have hrun := Option.mapM_eq_some (l := blocks.order (problem.batchSize * problem.headNum))
    fun block hblock => h.runBlock_eq hsize htiles (threads block) (garbage block)
      (Schedule.mem_order.mp hblock)
  have hperm := blockEntries_perm hsize blocks threads
  refine ⟨_, (if_pos hlaunch).trans (congrArg (fun run : Option (List (List (ℤ × EReal))) =>
    run.bind fun stores => some stores.flatten) hrun), ?_, _, h.referenceAttention_eq, ?_,
      fun store hstore => ?_⟩
  · rw [← List.flatMap_def, ← List.map_flatMap, List.map_map]
    exact hperm.map _
  · rw [List.length_map, List.length_range]
    rfl
  · rw [← List.flatMap_def, ← List.map_flatMap] at hstore
    obtain ⟨i, hi, rfl⟩ := List.mem_map.mp hstore
    rw [storeOf, Buffer.load_natCast, List.getElem?_map,
      List.getElem?_range (List.mem_range.mp (hperm.subset hi))]
    rfl

/-! ## Out of range

Where the last index is no `int`, the last block has no result. -/

section OutOfRange

variable {α : Type} {problem : FusedProblem α} {batchIdx headIdx row col : ℕ}

theorem globalIdx_eq_none (hindex : 2 ^ 31 ≤
    ((batchIdx * problem.headNum + headIdx) * problem.maxSeqLen + row) * problem.headDim + col) :
    problem.globalIdx batchIdx headIdx row col = none := by
  rw [Option.eq_none_iff_forall_not_mem]
  intro i hi
  obtain ⟨bhOffset, hbh, hi⟩ := Option.bind_eq_some_iff.mp hi
  obtain ⟨start, hstart, hi⟩ := Option.bind_eq_some_iff.mp hi
  obtain ⟨sum, hsum, hi⟩ := Option.bind_eq_some_iff.mp hi
  obtain ⟨head, hhead, hbh⟩ := Option.bind_eq_some_iff.mp hbh
  obtain ⟨first, hfirst, hbh⟩ := Option.bind_eq_some_iff.mp hbh
  have hmax := (CInt.of_value hi).2.2
  rw [(CInt.of_value hsum).1, (CInt.of_value hstart).1, (CInt.of_value hbh).1,
    (CInt.of_value hfirst).1, (CInt.of_index hhead).1] at hmax
  have hcast : ((((batchIdx * problem.headNum + headIdx) * problem.maxSeqLen + row) *
      problem.headDim + col : ℕ) : ℤ) =
        (batchIdx * problem.headNum + headIdx) * problem.maxSeqLen * problem.headDim +
          row * problem.headDim + col := by
    push_cast
    ring
  rw [← hcast] at hmax
  unfold CInt.intMax at hmax
  omega

variable [FloatOps α]

/-- The thread of an entry whose index is too large. -/
theorem loadTile_eq_none {tile : ℕ} {tensors : List Tensor} {tensor : Tensor}
    (htensor : tensor ∈ tensors) (hrow : row < problem.blockSize) (hcol : col < problem.headDim)
    (hin : tile * problem.blockSize + row < problem.maxSeqLen)
    (hindex : 2 ^ 31 ≤ ((batchIdx * problem.headNum + headIdx) * problem.maxSeqLen +
      (tile * problem.blockSize + row)) * problem.headDim + col) (tiles : TileCell → α) :
    problem.loadTile batchIdx headIdx tile tensors tiles
      ((row * problem.headDim + col) % threadsPerTile) = none := by
  have hthread : (row * problem.headDim + col) % threadsPerTile < threadsPerTile :=
    Nat.mod_lt _ (by decide)
  refine Option.foldlM_eq_none ((mem_strided_of_lt hthread).mpr ⟨row_lt hrow hcol, rfl⟩)
    (fun tiles => Option.foldlM_eq_none htensor (fun tiles => ?_) tiles) tiles
  have hentry : problem.tileEntry tensor batchIdx headIdx (tile * problem.blockSize + row) col =
      none := by
    rw [tileEntry, if_pos hin, globalIdx_eq_none hindex]
    rfl
  rw [row_div _ hcol, row_mod _ hcol]
  simp only [hentry]
  rfl

variable [LT α] [DecidableLT α]

theorem runBlock_eq_none (hsize : 0 < problem.blockSize) (hbatch : 0 < problem.batchSize)
    (hhead : 0 < problem.headNum) (hseq : 0 < problem.maxSeqLen) (hdim : 0 < problem.headDim)
    (hlt : 2 ^ 31 <
      problem.batchSize * problem.headNum * problem.maxSeqLen * problem.headDim)
    (schedule : Stage → Launch.Schedule) (garbage : TileCell → α) :
    problem.runBlock schedule garbage
      ((problem.batchSize - 1) * problem.headNum + (problem.headNum - 1)) = none := by
  by_cases htiles : problem.maxSeqLen + problem.blockSize < 2 ^ 31
  · have hlast : problem.maxSeqLen - 1 < problem.maxSeqLen := Nat.sub_one_lt_of_lt hseq
    have hrow := Nat.div_add_mod' (problem.maxSeqLen - 1) problem.blockSize
    have hindex : 2 ^ 31 ≤
        (((problem.batchSize - 1) * problem.headNum + (problem.headNum - 1)) * problem.maxSeqLen +
          ((problem.maxSeqLen - 1) / problem.blockSize * problem.blockSize +
            (problem.maxSeqLen - 1) % problem.blockSize)) * problem.headDim +
              (problem.headDim - 1) := by
      have hhead' := last_cell hbatch hhead
      have hseq' := last_cell (Nat.mul_pos hbatch hhead) hseq
      have hdim' := last_cell (Nat.mul_pos (Nat.mul_pos hbatch hhead) hseq) hdim
      rw [hrow, hhead', hseq', hdim']
      omega
    have hstep : ∀ state, problem.qStep schedule (tileCount problem.maxSeqLen problem.blockSize)
        (problem.batchSize - 1) (problem.headNum - 1) state
          ((problem.maxSeqLen - 1) / problem.blockSize) = none := by
      intro state
      rw [qStep, Schedule.launch_eq_none (Nat.mod_lt _ (by decide)) fun tiles =>
        loadTile_eq_none (List.mem_singleton.mpr rfl) (Nat.mod_lt _ hsize)
          (Nat.sub_one_lt_of_lt hdim) (hrow.trans_lt hlast) hindex tiles]
      rfl
    have hfold := Option.foldlM_eq_none (List.mem_range.mpr (div_lt_tileCount hsize hlast)) hstep
      (garbage, [])
    rw [tileCount] at hfold
    rw [runBlock, CInt.ceilDiv_natCast htiles hsize, Option.bind_eq_bind, Option.bind_some,
      Int.toNat_natCast, row_div _ (Nat.sub_one_lt_of_lt hhead),
      row_mod _ (Nat.sub_one_lt_of_lt hhead), hfold]
    rfl
  · rw [runBlock, CInt.ceilDiv_natCast_eq_none (Nat.le_of_not_lt htiles)]
    rfl

end OutOfRange

/-! ## Exactness -/

/-- The device takes the launch, and 32 bits hold every index. -/
structure Fits (problem : FusedProblem ℝ) : Prop where
  size_le : problem.batchSize * problem.headNum * problem.maxSeqLen * problem.headDim ≤ 2 ^ 31
  headNum_le : problem.headNum ≤ 65535

section Exactness

variable {blocks : Launch.Schedule} {threads : ℕ → Stage → Launch.Schedule}
  {garbage : ℕ → TileCell → EReal} {stores : List (ℤ × EReal)}

/-- What the dispatcher supports, with at least one row. -/
structure Supported (problem : FusedProblem ℝ) : Prop where
  blockSize_mem : problem.blockSize ∈ [16, 32, 64]
  headDim_mem : problem.headDim ∈ [32, 64]
  batchSize_pos : 0 < problem.batchSize
  headNum_pos : 0 < problem.headNum
  maxSeqLen_pos : 0 < problem.maxSeqLen

theorem Supported.blockSize_bounds (h : problem.Supported) :
    0 < problem.blockSize ∧ problem.blockSize ≤ 64 := by
  have hmem := h.blockSize_mem
  simp only [List.mem_cons, List.not_mem_nil, or_false] at hmem
  omega

theorem Supported.headDim_bounds (h : problem.Supported) :
    32 ≤ problem.headDim ∧ problem.headDim ≤ 64 := by
  have hmem := h.headDim_mem
  simp only [List.mem_cons, List.not_mem_nil, or_false] at hmem
  omega

theorem Supported.launch_eq (h : problem.Supported) :
    problem.floats.launchHeadDimKernel blocks threads garbage =
      problem.floats.fusedKernel blocks threads garbage :=
  (if_pos h.headDim_mem).trans (if_pos h.blockSize_mem)

/-- In range, the launch stores what the reference computes. -/
theorem Supported.exists_fusedSpec (h : problem.Supported) (hfits : problem.Fits)
    (hlength : ∀ tensor, (problem.source tensor).length = problem.size) :
    ∃ stores, problem.floats.launchHeadDimKernel blocks threads garbage = some stores ∧
      problem.FusedSpec stores := by
  obtain ⟨hblock, hblock'⟩ := h.blockSize_bounds
  obtain ⟨hdim, hdim'⟩ := h.headDim_bounds
  have hheads : problem.batchSize ≤ problem.batchSize * problem.headNum * problem.maxSeqLen :=
    (Nat.le_mul_of_pos_right _ h.headNum_pos).trans (Nat.le_mul_of_pos_right _ h.maxSeqLen_pos)
  have hrows : problem.maxSeqLen ≤ problem.batchSize * problem.headNum * problem.maxSeqLen :=
    Nat.le_mul_of_pos_left _ (Nat.mul_pos h.batchSize_pos h.headNum_pos)
  have hsize : problem.batchSize * problem.headNum * problem.maxSeqLen * 32 ≤ 2 ^ 31 :=
    (Nat.mul_le_mul_left _ hdim).trans hfits.size_le
  have hshared : 3 * (problem.blockSize * problem.headDim) * 4 ≤ 49152 :=
    Nat.mul_le_mul_right 4 (Nat.mul_le_mul_left 3 (Nat.mul_le_mul hblock' hdim'))
  have hlaunch : problem.floats.shape.Launchable :=
    ⟨⟨h.batchSize_pos, show problem.batchSize < 2 ^ 31 by omega⟩,
      ⟨h.headNum_pos, hfits.headNum_le⟩,
      show 0 < threadsPerTile ∧ threadsPerTile ≤ 1024 by decide, hshared⟩
  have hsized : problem.Sized := ⟨hlength, hfits.size_le⟩
  rw [h.launch_eq]
  exact hsized.exists_fusedKernel hblock (by omega) hlaunch blocks threads garbage

/-- Out of range, it does not. -/
theorem Supported.fits_of_fusedSpec (h : problem.Supported)
    (hrun : problem.floats.launchHeadDimKernel blocks threads garbage = some stores)
    (hspec : problem.FusedSpec stores) : problem.Fits := by
  have hdim := Nat.zero_lt_of_lt h.headDim_bounds.1
  rw [h.launch_eq, fusedKernel] at hrun
  have hlaunch : problem.floats.shape.Launchable := by
    by_contra hnot
    rw [if_neg hnot] at hrun
    obtain rfl := Option.some.inj hrun
    have hlength := hspec.once.length_eq
    rw [List.map_nil, List.length_map, List.length_range, List.length_nil] at hlength
    exact absurd hlength (Nat.mul_pos (Nat.mul_pos (Nat.mul_pos h.batchSize_pos h.headNum_pos)
      h.maxSeqLen_pos) hdim).ne
  refine ⟨?_, hlaunch.2.1.2⟩
  by_contra hnot
  have hlast : (problem.batchSize - 1) * problem.headNum + (problem.headNum - 1) <
      problem.batchSize * problem.headNum :=
    row_lt (Nat.sub_one_lt_of_lt h.batchSize_pos) (Nat.sub_one_lt_of_lt h.headNum_pos)
  have hblock : ∀ schedule garbage, problem.floats.runBlock schedule garbage
      ((problem.batchSize - 1) * problem.headNum + (problem.headNum - 1)) = none :=
    runBlock_eq_none h.blockSize_bounds.1 h.batchSize_pos h.headNum_pos h.maxSeqLen_pos hdim
      (Nat.lt_of_not_le hnot)
  have hmap := Option.mapM_eq_none
    (f := fun block => problem.floats.runBlock (threads block) (garbage block) block)
    (blocks.mem_order.mpr hlast) (hblock _ _)
  rw [if_pos hlaunch] at hrun
  have hnone := (congrArg (fun run : Option (List (List (ℤ × EReal))) => run.bind fun stores =>
    some stores.flatten) hmap).symm.trans hrun
  cases hnone

end Exactness

/-- On every tile and head dimension that the dispatcher supports, the kernel stores what the
reference computes, once for each entry, exactly when the device takes the launch and 32 bits hold
the indices. The padding of a tile has no part in it. -/
theorem fusedKernel_eq_reference_iff (hblock : problem.blockSize ∈ [16, 32, 64])
    (hhead : problem.headDim ∈ [32, 64]) (hbatch : 0 < problem.batchSize)
    (hheads : 0 < problem.headNum) (hseq : 0 < problem.maxSeqLen)
    (hQ : problem.dQ.length =
      problem.batchSize * problem.headNum * problem.maxSeqLen * problem.headDim)
    (hK : problem.dK.length =
      problem.batchSize * problem.headNum * problem.maxSeqLen * problem.headDim)
    (hV : problem.dV.length =
      problem.batchSize * problem.headNum * problem.maxSeqLen * problem.headDim)
    (blocks : Launch.Schedule) (threads : ℕ → Stage → Launch.Schedule)
    (garbage : ℕ → TileCell → EReal) :
    ((∃ stores, problem.floats.launchHeadDimKernel blocks threads garbage = some stores ∧
      problem.FusedSpec stores) ↔ problem.Fits) ∧
    ∀ kvTile tiles tiles', problem.floats.AgreeInside kvTile tiles tiles' →
      ∀ qTile rowQ state, problem.floats.sweepTile tiles qTile rowQ kvTile state =
        problem.floats.sweepTile tiles' qTile rowQ kvTile state := by
  have h : problem.Supported := ⟨hblock, hhead, hbatch, hheads, hseq⟩
  refine ⟨⟨?_, fun hfits => h.exists_fusedSpec hfits fun tensor => by cases tensor <;> assumption⟩,
    fun _ _ _ hagree qTile rowQ state => sweepTile_congr hagree qTile rowQ state⟩
  rintro ⟨stores, hrun, hspec⟩
  exact h.fits_of_fusedSpec hrun hspec

/-- As many batches of one token as make `bh_offset` of the last one `2 ^ 31`. -/
def wideProblem : FusedProblem ℝ where
  blockSize := 16
  batchSize := 67108865
  headNum := 1
  maxSeqLen := 1
  headDim := 32
  dQ := List.replicate (67108865 * 1 * 1 * 32) 1
  dK := List.replicate (67108865 * 1 * 1 * 32) 2
  dV := List.replicate (67108865 * 1 * 1 * 32) 3

theorem wideProblem_overflows :
    ¬ ∃ stores, wideProblem.floats.launchHeadDimKernel .sequential (fun _ _ => .sequential)
      (fun _ _ => ⊤) = some stores ∧ wideProblem.FusedSpec stores := by
  rintro ⟨stores, hrun, hspec⟩
  have h : wideProblem.Supported :=
    ⟨by decide, by decide, by decide, by decide, by decide⟩
  exact absurd (h.fits_of_fusedSpec hrun hspec).size_le (by decide)

/-- Two heads of 17 tokens, in tiles of 16: the last tile holds one token. -/
def raggedProblem : FusedProblem ℝ where
  blockSize := 16
  batchSize := 1
  headNum := 2
  maxSeqLen := 17
  headDim := 32
  dQ := List.replicate 1088 1
  dK := List.replicate 1088 2
  dV := List.replicate 1088 3

theorem fusedKernel_eq_reference_ragged :
    (∃ stores, raggedProblem.floats.launchHeadDimKernel .sequential (fun _ _ => .sequential)
        (fun _ _ => ⊤) = some stores ∧ raggedProblem.FusedSpec stores) ∧
    ∀ kvTile tiles tiles', raggedProblem.floats.AgreeInside kvTile tiles tiles' →
      ∀ qTile rowQ state, raggedProblem.floats.sweepTile tiles qTile rowQ kvTile state =
        raggedProblem.floats.sweepTile tiles' qTile rowQ kvTile state := by
  obtain ⟨hiff, hpadding⟩ := @fusedKernel_eq_reference_iff raggedProblem (by decide)
    (by decide) (by decide) (by decide) (by decide) List.length_replicate List.length_replicate
    List.length_replicate .sequential (fun _ _ => .sequential) (fun _ _ => ⊤)
  exact ⟨hiff.mpr ⟨by decide, by decide⟩, hpadding⟩

end FusedProblem

end FlashAttention

end MiniVLLM
