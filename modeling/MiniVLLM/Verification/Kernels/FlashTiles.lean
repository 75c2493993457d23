import MiniVLLM.Model.FlashAttention

/-! # Tiles of the fused kernel

The threads of a block fill a tile, with zeros beyond the sequence, and the warps sweep it. A
warp whose query lies in the sequence meets its keys in their order, and none of the padding. -/

namespace MiniVLLM

namespace FlashAttention

open Launch Reduction Strided Tiling FloatOps

/-! ## Lanes -/

/-- The butterfly leaves the sum of all lanes in lane zero. -/
theorem butterfly_zero (score : ℕ → EReal) :
    butterfly score 0 = ((List.range warpSize).map score).sum := by
  rw [butterfly, show warpSize / 2 = 2 ^ 4 from rfl, halvings_two_pow]
  refine @foldl_halvings EReal _
    (fun offset score lane => score lane + shflXor score offset lane) 5 score
    fun j _ score lane hlane => ?_
  show score lane + shflXor score (2 ^ j) lane = _
  rw [shflXor_two_pow hlane]

theorem eq_of_lane_col {d d' : ℕ} (hlane : d % warpSize = d' % warpSize)
    (hcol : d / warpSize = d' / warpSize) : d = d' := by
  rw [← Nat.div_add_mod d warpSize, ← Nat.div_add_mod d' warpSize, hlane, hcol]

namespace FusedProblem

/-- The problem over real numbers, as the kernel gets it. -/
def floats (problem : FusedProblem ℝ) : FusedProblem EReal where
  blockSize := problem.blockSize
  batchSize := problem.batchSize
  headNum := problem.headNum
  maxSeqLen := problem.maxSeqLen
  headDim := problem.headDim
  dQ := asFloats problem.dQ
  dK := asFloats problem.dK
  dV := asFloats problem.dV

variable {problem : FusedProblem ℝ}

def size (problem : FusedProblem ℝ) : ℕ :=
  problem.batchSize * problem.headNum * problem.maxSeqLen * problem.headDim

/-- The entry of a row of a head, the heads of all batches counted one after the other. -/
def entryAt (problem : FusedProblem ℝ) (tensor : Tensor) (head row col : ℕ) : ℝ :=
  (problem.source tensor).getD ((head * problem.maxSeqLen + row) * problem.headDim + col) 0

/-- An entry, or zero beyond the sequence. -/
def padded (problem : FusedProblem ℝ) (tensor : Tensor) (head row col : ℕ) : ℝ :=
  if row < problem.maxSeqLen then problem.entryAt tensor head row col else 0

/-- Tensors of the right sizes, whose indices 32 bits hold. -/
structure Sized (problem : FusedProblem ℝ) : Prop where
  length_eq : ∀ tensor, (problem.source tensor).length = problem.size
  size_le : problem.size ≤ 2 ^ 31

theorem source_floats (tensor : Tensor) :
    problem.floats.source tensor = asFloats (problem.source tensor) := by
  cases tensor <;> rfl

section Indices

variable {batchIdx headIdx row col : ℕ}

theorem index_lt (hbatch : batchIdx < problem.batchSize) (hhead : headIdx < problem.headNum)
    (hrow : row < problem.maxSeqLen) (hcol : col < problem.headDim) :
    ((batchIdx * problem.headNum + headIdx) * problem.maxSeqLen + row) * problem.headDim + col <
      problem.size :=
  row_lt (row_lt (row_lt hbatch hhead) hrow) hcol

/-- Every part of the index of an entry is at most the index. -/
theorem le_index (head : ℕ) (hrow : row < problem.maxSeqLen) (hcol : col < problem.headDim) :
    head ≤ (head * problem.maxSeqLen + row) * problem.headDim + col := by
  calc head ≤ head * problem.maxSeqLen + row :=
        le_add_right (Nat.le_mul_of_pos_right _ (Nat.zero_lt_of_lt hrow))
    _ ≤ (head * problem.maxSeqLen + row) * problem.headDim + col :=
        le_add_right (Nat.le_mul_of_pos_right _ (Nat.zero_lt_of_lt hcol))

theorem Sized.outIdx_eq (h : problem.Sized) (hbatch : batchIdx < problem.batchSize)
    (hhead : headIdx < problem.headNum) (hrow : row < problem.maxSeqLen)
    (hcol : col < problem.headDim) :
    problem.floats.outIdx batchIdx headIdx row col =
      some ((((batchIdx * problem.headNum + headIdx) * problem.maxSeqLen + row) *
        problem.headDim + col : ℕ) : ℤ) := by
  have hlt := (index_lt hbatch hhead hrow hcol).trans_le h.size_le
  have hhead' := CInt.index_natCast ((le_index _ hrow hcol).trans_lt hlt)
  have hrow' := CInt.index_natCast ((le_add_right (Nat.le_mul_of_pos_right _
    (Nat.zero_lt_of_lt hcol))).trans_lt hlt)
  simp only [outIdx, floats, hhead', hrow', CInt.index_natCast hlt, Option.bind_eq_bind,
    Option.bind_some]

/-- The kernels and the reference look for an entry at the index of the entry. -/
theorem Sized.globalIdx_eq (h : problem.Sized) (hbatch : batchIdx < problem.batchSize)
    (hhead : headIdx < problem.headNum) (hrow : row < problem.maxSeqLen)
    (hcol : col < problem.headDim) :
    problem.floats.globalIdx batchIdx headIdx row col =
      some ((((batchIdx * problem.headNum + headIdx) * problem.maxSeqLen + row) *
        problem.headDim + col : ℕ) : ℤ) := by
  have hlt := (index_lt hbatch hhead hrow hcol).trans_le h.size_le
  have hhead' := CInt.index_natCast ((le_index _ hrow hcol).trans_lt hlt)
  generalize batchIdx * problem.headNum + headIdx = head at hlt hhead' ⊢
  have hsplit : (head * problem.maxSeqLen + row) * problem.headDim + col =
      head * problem.maxSeqLen * problem.headDim + row * problem.headDim + col := by ring
  have hle : head * problem.maxSeqLen ≤ head * problem.maxSeqLen * problem.headDim :=
    Nat.le_mul_of_pos_right _ (Nat.zero_lt_of_lt hcol)
  rw [hsplit] at hlt ⊢
  have hbhOffset : problem.floats.bhOffset batchIdx headIdx =
      some ((head * problem.maxSeqLen * problem.headDim : ℕ) : ℤ) := by
    simp only [bhOffset, floats, hhead', Option.bind_eq_bind, Option.bind_some]
    rw [CInt.mul_natCast (by omega), Option.bind_some, CInt.mul_natCast (by omega)]
  rw [globalIdx, hbhOffset, Option.bind_eq_bind, Option.bind_some]
  simp only [floats, CInt.mul_natCast (show row * problem.headDim < 2 ^ 31 by omega),
    Option.bind_some]
  rw [CInt.add_natCast (by omega), Option.bind_some, CInt.add_natCast hlt]

theorem Sized.load (h : problem.Sized) (tensor : Tensor) (hbatch : batchIdx < problem.batchSize)
    (hhead : headIdx < problem.headNum) (hrow : row < problem.maxSeqLen)
    (hcol : col < problem.headDim) :
    (problem.floats.globalIdx batchIdx headIdx row col).bind
        (Buffer.load (problem.floats.source tensor)) =
      some (problem.entryAt tensor (batchIdx * problem.headNum + headIdx) row col : EReal) := by
  rw [h.globalIdx_eq hbatch hhead hrow hcol, Option.bind_some, source_floats, Buffer.load_natCast,
    getElem?_asFloats (h.length_eq tensor ▸ index_lt hbatch hhead hrow hcol), entryAt]

end Indices

/-! ## Loading -/

section Load

variable {tensors : List Tensor} {batchIdx headIdx tile thread : ℕ}

theorem Sized.tileEntry_eq (h : problem.Sized) (tensor : Tensor)
    (hbatch : batchIdx < problem.batchSize) (hhead : headIdx < problem.headNum) {row col : ℕ}
    (hcol : col < problem.headDim) :
    problem.floats.tileEntry tensor batchIdx headIdx row col =
      some (problem.padded tensor (batchIdx * problem.headNum + headIdx) row col : EReal) := by
  rw [padded]
  by_cases hrow : row < problem.maxSeqLen
  · rw [if_pos hrow]
    exact (if_pos hrow).trans (h.load tensor hbatch hhead hrow hcol)
  · rw [if_neg hrow]
    exact if_neg hrow

noncomputable def loadTarget (problem : FusedProblem ℝ) (head tile : ℕ) (tensors : List Tensor)
    (thread : ℕ) (cell : TileCell) : Option EReal :=
  if cell.tensor ∈ tensors ∧ cell.row < problem.blockSize ∧ cell.col < problem.headDim ∧
      (cell.row * problem.headDim + cell.col) % threadsPerTile = thread then
    some (problem.padded cell.tensor head (tile * problem.blockSize + cell.row) cell.col : EReal)
  else none

theorem loadTarget_apart (problem : FusedProblem ℝ) (head tile : ℕ) (tensors : List Tensor)
    {thread' : ℕ} (hne : thread ≠ thread') :
    Apart (problem.loadTarget head tile tensors thread)
      (problem.loadTarget head tile tensors thread') := by
  intro cell
  by_cases hcell : (cell.row * problem.headDim + cell.col) % threadsPerTile = thread
  · exact Or.inr (if_neg fun h => hne (hcell.symm.trans h.2.2.2))
  · exact Or.inl (if_neg fun h => hcell h.2.2.2)

/-- The cell that a turn of the loop fills in the tile of a tensor. -/
def turnCell (headDim : ℕ) (turn : ℕ × Tensor) : TileCell :=
  ⟨turn.2, turn.1 / headDim, turn.1 % headDim⟩

theorem turnCell_injective (headDim : ℕ) : Function.Injective (turnCell headDim) := by
  rintro ⟨idx, tensor⟩ ⟨idx', tensor'⟩ heq
  obtain ⟨htensor, hrow, hcol⟩ := TileCell.mk.inj heq
  refine Prod.ext ?_ htensor
  show idx = idx'
  rw [← Nat.div_add_mod idx headDim, ← Nat.div_add_mod idx' headDim, hrow, hcol]

/-- A thread fills its cells of the tiles and leaves the others. -/
theorem Sized.exists_loadTile (h : problem.Sized) (hbatch : batchIdx < problem.batchSize)
    (hhead : headIdx < problem.headNum) (tile : ℕ) (htensors : tensors.Nodup)
    (hthread : thread < threadsPerTile) (tiles : TileCell → EReal) :
    ∃ tiles', problem.floats.loadTile batchIdx headIdx tile tensors tiles thread = some tiles' ∧
      Stores (problem.loadTarget (batchIdx * problem.headNum + headIdx) tile tensors thread) tiles
        tiles' := by
  let fill : ℕ × Tensor → EReal → EReal := fun turn _ =>
    (problem.padded turn.2 (batchIdx * problem.headNum + headIdx)
      (tile * problem.blockSize + turn.1 / problem.headDim) (turn.1 % problem.headDim) : EReal)
  let turns := (strided thread (problem.blockSize * problem.headDim) threadsPerTile).product tensors
  have hrun : problem.floats.loadTile batchIdx headIdx tile tensors tiles thread =
      some (sweep (turnCell problem.headDim) fill turns tiles) := by
    rw [sweep, show turns = (strided thread (problem.blockSize * problem.headDim)
      threadsPerTile).flatMap fun idx => tensors.map (Prod.mk idx) from rfl, List.foldl_flatMap]
    refine Option.foldlM_eq_some (fun tiles idx hidx => ?_) tiles
    have hcol := (div_mod_of_lt (lt_of_mem_strided (by decide) hidx)).2
    rw [List.foldl_map]
    refine Option.foldlM_eq_some (fun tiles tensor _ => ?_) tiles
    exact congrArg (fun entry : Option EReal => entry.bind fun entry => some (Function.update tiles
      ⟨tensor, idx / problem.headDim, idx % problem.headDim⟩ entry))
      (h.tileEntry_eq tensor hbatch hhead hcol)
  refine ⟨_, hrun, fun cell => ?_⟩
  rw [loadTarget]
  by_cases hcell : cell.tensor ∈ tensors ∧ cell.row < problem.blockSize ∧
      cell.col < problem.headDim ∧
      (cell.row * problem.headDim + cell.col) % threadsPerTile = thread
  · rw [if_pos hcell]
    obtain ⟨htensor, hrow, hcol, hmine⟩ := hcell
    have hturn : (cell.row * problem.headDim + cell.col, cell.tensor) ∈ turns :=
      List.mem_product.mpr ⟨(mem_strided_of_lt hthread).mpr ⟨row_lt hrow hcol, hmine⟩, htensor⟩
    have hnodup : (turns.map (turnCell problem.headDim)).Nodup :=
      ((nodup_strided (by decide)).product htensors).map (turnCell_injective _)
    have hfilled := sweep_of_mem (f := fill) (m := tiles) hnodup hturn
    simp only [turnCell, fill, row_div _ hcol, row_mod _ hcol] at hfilled
    exact hfilled
  · rw [if_neg hcell]
    refine sweep_of_forall_ne fun turn hturn heq => hcell ?_
    obtain ⟨hidx, htensor⟩ := List.mem_product.mp hturn
    obtain ⟨hlt, hmine⟩ := (mem_strided_of_lt hthread).mp hidx
    obtain ⟨hrow, hcol⟩ := div_mod_of_lt hlt
    rw [heq]
    exact ⟨htensor, hrow, hcol, by rw [turnCell, Nat.div_add_mod']; exact hmine⟩

/-- A tile holds its part of a tensor, padded. -/
def TileHolds (problem : FusedProblem ℝ) (tensor : Tensor) (head tile : ℕ)
    (tiles : TileCell → EReal) : Prop :=
  ∀ row < problem.blockSize, ∀ col < problem.headDim, tiles ⟨tensor, row, col⟩ =
    (problem.padded tensor head (tile * problem.blockSize + row) col : EReal)

theorem Sized.exists_launch_loadTile (h : problem.Sized) (schedule : Launch.Schedule)
    (hbatch : batchIdx < problem.batchSize) (hhead : headIdx < problem.headNum) (tile : ℕ)
    (htensors : tensors.Nodup) (tiles : TileCell → EReal) :
    ∃ tiles', schedule.launch threadsPerTile
        (problem.floats.loadTile batchIdx headIdx tile tensors) tiles = some tiles' ∧
      (∀ tensor ∈ tensors,
        problem.TileHolds tensor (batchIdx * problem.headNum + headIdx) tile tiles') ∧
      ∀ tensor ∉ tensors, ∀ row col, tiles' ⟨tensor, row, col⟩ = tiles ⟨tensor, row, col⟩ := by
  obtain ⟨tiles', hlaunch, _, hscattered⟩ := schedule.exists_launch threadsPerTile
    (id : (TileCell → EReal) → TileCell → EReal) (P := fun _ => True) trivial
    (fun _ _ _ _ hne => problem.loadTarget_apart (batchIdx * problem.headNum + headIdx) tile
      tensors hne)
    (fun tiles thread hthread _ _ => by
      obtain ⟨tiles', hload, hstores⟩ :=
        h.exists_loadTile hbatch hhead tile htensors hthread tiles
      exact ⟨tiles', hload, trivial, hstores⟩)
  refine ⟨tiles', hlaunch, fun tensor htensor row hrow col hcol => ?_,
    fun tensor htensor row col => hscattered.kept _ fun _ _ => if_neg fun hin => htensor hin.1⟩
  exact hscattered.stored ((row * problem.headDim + col) % threadsPerTile)
    (List.mem_range.mpr (Nat.mod_lt _ (by decide))) _ _ (if_pos ⟨htensor, hrow, hcol, rfl⟩)

end Load

/-! ## Sweeping -/

section Sweep

variable {tiles : TileCell → EReal} {state : WarpRow EReal} {row : OnlineSoftmax EReal ℕ}
  {head qTile rowQ kvTile rowK : ℕ}

/-- The registers of a warp hold `row`. -/
structure RowHolds (headDim : ℕ) (row : OnlineSoftmax EReal ℕ) (state : WarpRow EReal) :
    Prop where
  max_eq : state.rowMax = row.rowMax
  sum_eq : state.rowSum = row.rowSum
  out_eq : ∀ d < headDim, state.rowOut (d % warpSize) (d / warpSize) = row.output d

/-- The scores and the values of some keys, for a query. -/
noncomputable def scored (problem : FusedProblem ℝ) (head q : ℕ) (keys : List ℕ) :
    List (ℝ × (ℕ → ℝ)) :=
  OnlineSoftmax.scored problem.headDim (problem.entryAt .q head q) (problem.entryAt .k head)
    (problem.entryAt .v head) keys

theorem TileHolds.eq_entry {tensor : Tensor} {tile row col : ℕ}
    (h : problem.TileHolds tensor head tile tiles) (hrow : row < problem.blockSize)
    (hcol : col < problem.headDim) (hin : tile * problem.blockSize + row < problem.maxSeqLen) :
    tiles ⟨tensor, row, col⟩ =
      (problem.entryAt tensor head (tile * problem.blockSize + row) col : EReal) := by
  rw [h row hrow col hcol, padded, if_pos hin]

theorem scoreBcast_eq (hq : problem.TileHolds .q head qTile tiles)
    (hk : problem.TileHolds .k head kvTile tiles) (hrowQ : rowQ < problem.blockSize)
    (hqIdx : qTile * problem.blockSize + rowQ < problem.maxSeqLen)
    (hrowK : rowK < problem.blockSize)
    (hkIdx : kvTile * problem.blockSize + rowK < problem.maxSeqLen) :
    problem.floats.scoreBcast tiles rowQ rowK =
      (OnlineSoftmax.scaledDot problem.headDim
        (problem.entryAt .q head (qTile * problem.blockSize + rowQ))
        (problem.entryAt .k head (kvTile * problem.blockSize + rowK)) : EReal) := by
  have hlane : ∀ lane, (strided lane problem.headDim warpSize).foldl
      (fun score k => score + tiles ⟨.q, rowQ, k⟩ * tiles ⟨.k, rowK, k⟩) 0 =
        (((strided lane problem.headDim warpSize).map fun k =>
          problem.entryAt .q head (qTile * problem.blockSize + rowQ) k *
            problem.entryAt .k head (kvTile * problem.blockSize + rowK) k).sum : EReal) := by
    intro lane
    rw [← foldl_add_coe]
    refine List.foldl_ext _ _ _ fun score k hlane => ?_
    have hlt := lt_of_mem_strided (by decide) hlane
    rw [hq.eq_entry hrowQ hlt hqIdx, hk.eq_entry hrowK hlt hkIdx, EReal.coe_mul]
  show butterfly (fun lane => (strided lane problem.headDim warpSize).foldl
    (fun score k => score + tiles ⟨.q, rowQ, k⟩ * tiles ⟨.k, rowK, k⟩) 0) 0 *
      FloatOps.rsqrt ((problem.headDim : ℤ) : EReal) = _
  simp only [hlane, butterfly_zero]
  rw [sum_coe, sum_strided _ _ (by decide), OnlineSoftmax.scaledDot, EReal.coe_mul]
  rfl

theorem attendKey_holds (hq : problem.TileHolds .q head qTile tiles)
    (hk : problem.TileHolds .k head kvTile tiles) (hv : problem.TileHolds .v head kvTile tiles)
    (hrowQ : rowQ < problem.blockSize)
    (hqIdx : qTile * problem.blockSize + rowQ < problem.maxSeqLen)
    (hrowK : rowK < problem.blockSize)
    (hkIdx : kvTile * problem.blockSize + rowK < problem.maxSeqLen)
    (hstate : RowHolds problem.headDim row state) :
    RowHolds problem.headDim (row.attend
        (OnlineSoftmax.scaledDot problem.headDim
          (problem.entryAt .q head (qTile * problem.blockSize + rowQ))
          (problem.entryAt .k head (kvTile * problem.blockSize + rowK)) : EReal)
        fun d => (problem.entryAt .v head (kvTile * problem.blockSize + rowK) d : EReal))
      (problem.floats.attendKey tiles rowQ state rowK) := by
  generalize hscore : (OnlineSoftmax.scaledDot problem.headDim
    (problem.entryAt .q head (qTile * problem.blockSize + rowQ))
    (problem.entryAt .k head (kvTile * problem.blockSize + rowK)) : EReal) = score
  have hbcast := (scoreBcast_eq hq hk hrowQ hqIdx hrowK hkIdx).trans hscore
  refine ⟨?_, ?_, fun d hd => ?_⟩
  · simp only [attendKey, hbcast, hstate.max_eq, OnlineSoftmax.attend]
  · simp only [attendKey, hbcast, hstate.max_eq, hstate.sum_eq, OnlineSoftmax.attend]
  · have hlt : d % warpSize < warpSize := Nat.mod_lt _ (by decide)
    have hmem : d ∈ strided (d % warpSize) problem.headDim warpSize :=
      (mem_strided_of_lt hlt).mpr ⟨hd, rfl⟩
    have hnodup : ((strided (d % warpSize) problem.headDim warpSize).map (· / warpSize)).Nodup :=
      List.Nodup.map_on (fun _ h₁ _ h₂ heq => eq_of_lane_col (((mem_strided_of_lt hlt).mp h₁).2.trans
        ((mem_strided_of_lt hlt).mp h₂).2.symm) heq) (nodup_strided (by decide))
    simp only [attendKey, hbcast, hstate.max_eq]
    refine (sweep_of_mem hnodup hmem).trans ?_
    simp only [hstate.out_eq d hd, hv.eq_entry hrowK hd hkIdx, OnlineSoftmax.attend]

/-- The keys of a tile that lie in the sequence. -/
def keysOf (problem : FusedProblem ℝ) (kvTile : ℕ) : List ℕ :=
  (tile problem.blockSize kvTile).filter fun kIdx => decide (kIdx < problem.maxSeqLen)

/-- The keys of a tile join the row of a warp, and the padding does not. -/
theorem sweepTile_holds {keys : List ℕ} (hq : problem.TileHolds .q head qTile tiles)
    (hk : problem.TileHolds .k head kvTile tiles) (hv : problem.TileHolds .v head kvTile tiles)
    (hrowQ : rowQ < problem.blockSize)
    (hqIdx : qTile * problem.blockSize + rowQ < problem.maxSeqLen)
    (hstate : RowHolds problem.headDim (OnlineSoftmax.start.attendAll (OnlineSoftmax.exactly
      (problem.scored head (qTile * problem.blockSize + rowQ) keys))) state) :
    RowHolds problem.headDim (OnlineSoftmax.start.attendAll (OnlineSoftmax.exactly
        (problem.scored head (qTile * problem.blockSize + rowQ) (keys ++ problem.keysOf kvTile))))
      (problem.floats.sweepTile tiles qTile rowQ kvTile state) := by
  have hsweep : ∀ count ≤ problem.blockSize,
      RowHolds problem.headDim (OnlineSoftmax.start.attendAll (OnlineSoftmax.exactly
          (problem.scored head (qTile * problem.blockSize + rowQ) (keys ++
            ((List.range count).map (kvTile * problem.blockSize + ·)).filter
              fun kIdx => decide (kIdx < problem.maxSeqLen)))))
        ((List.range count).foldl
          (fun state rowK =>
            if problem.maxSeqLen ≤ kvTile * problem.blockSize + rowK then state
            else problem.floats.attendKey tiles rowQ state rowK) state) := by
    intro count hcount
    induction count with
    | zero => simpa using hstate
    | succ count ih =>
        have hprev := ih (by omega)
        rw [List.range_succ, List.foldl_append, List.map_append, List.filter_append,
          List.foldl_cons, List.foldl_nil, List.map_singleton, ← List.append_assoc]
        by_cases hkIdx : kvTile * problem.blockSize + count < problem.maxSeqLen
        · rw [if_neg (Nat.not_le.mpr hkIdx), List.filter_cons_of_pos (by simpa using hkIdx),
            List.filter_nil, scored, OnlineSoftmax.scored_append, OnlineSoftmax.exactly_append,
            OnlineSoftmax.attendAll_append]
          exact attendKey_holds hq hk hv hrowQ hqIdx (by omega) hkIdx hprev
        · rw [if_pos (Nat.le_of_not_lt hkIdx), List.filter_cons_of_neg (by simpa using hkIdx),
            List.filter_nil, List.append_nil]
          exact hprev
  have hswept : problem.floats.sweepTile tiles qTile rowQ kvTile state =
      (List.range problem.blockSize).foldl
        (fun state rowK =>
          if problem.maxSeqLen ≤ kvTile * problem.blockSize + rowK then state
          else problem.floats.attendKey tiles rowQ state rowK) state := if_pos ⟨hrowQ, hqIdx⟩
  rw [hswept]
  exact hsweep problem.blockSize le_rfl

/-- Tile after tile, the keys of the sequence come in their order. -/
theorem flatMap_keysOf (hsize : 0 < problem.blockSize) :
    (List.range (tileCount problem.maxSeqLen problem.blockSize)).flatMap problem.keysOf =
      List.range problem.maxSeqLen := by
  have hfilter : ∀ tiles : List ℕ, tiles.flatMap problem.keysOf =
      (tiles.flatMap (tile problem.blockSize)).filter
        fun kIdx => decide (kIdx < problem.maxSeqLen) := fun tiles =>
    (List.filter_flatMap ..).symm
  rw [hfilter, flatMap_tile]
  exact filter_range_lt (le_tileCount_mul _ hsize)

end Sweep

end FusedProblem

end FlashAttention

end MiniVLLM
