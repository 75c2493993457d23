import MiniVLLM.Model.PagedAttention
import MiniVLLM.Verification.Native.Kernels

/-! # Paged caches of the decode program

The allocator hands the blocks out in ascending order, so every sequence has a run of blocks of
its own, and the cells of a token in the caches are those of no other token. -/

namespace MiniVLLM

namespace PagedAttention

open Launch Tiling

/-! ## Indices -/

namespace Shape

def elemsPerToken (shape : Shape) : ℕ := shape.kvHeads * shape.headDim

variable {shape : Shape} {kvHead dim : ℕ}

/-- The index of an entry of a token, where an `int` holds it. -/
theorem kvIdx_eq {block size offset : ℕ} (hkvHead : kvHead < shape.kvHeads)
    (hdim : dim < shape.headDim)
    (hlt : (block * size + offset) * shape.elemsPerToken + (kvHead * shape.headDim + dim) <
      2 ^ 31) :
    shape.kvIdx block size offset kvHead dim =
      some (((block * size + offset) * shape.elemsPerToken + (kvHead * shape.headDim + dim) : ℕ) :
        ℤ) := by
  have hsplit : (block * size + offset) * shape.elemsPerToken + (kvHead * shape.headDim + dim) =
      ((block * size + offset) * shape.kvHeads + kvHead) * shape.headDim + dim := by
    rw [elemsPerToken]
    ring
  rw [hsplit] at hlt ⊢
  have hrow := (CInt.le_index ((block * size + offset) * shape.kvHeads + kvHead) dim
    (Nat.zero_lt_of_lt hdim)).trans_lt hlt
  have hslot := (CInt.le_index (block * size + offset) kvHead
    (Nat.zero_lt_of_lt hkvHead)).trans_lt hrow
  simp only [kvIdx, CInt.index_natCast hslot, CInt.index_natCast hrow, CInt.index_natCast hlt,
    Option.bind_eq_bind, Option.bind_some]

theorem kvIdx_eq_none {block size offset : ℕ}
    (hle : 2 ^ 31 ≤ (block * size + offset) * shape.elemsPerToken +
      (kvHead * shape.headDim + dim)) :
    shape.kvIdx block size offset kvHead dim = none := by
  rw [Option.eq_none_iff_forall_not_mem]
  intro i hi
  obtain ⟨slot, hslot, hi⟩ := Option.bind_eq_some_iff.mp hi
  obtain ⟨row, hrow, hi⟩ := Option.bind_eq_some_iff.mp hi
  have hmax := (CInt.of_index hi).2.2
  rw [(CInt.of_index hrow).1, (CInt.of_index hslot).1] at hmax
  have hcast : (((block * size + offset) * shape.elemsPerToken +
      (kvHead * shape.headDim + dim) : ℕ) : ℤ) =
        ((block * size + offset) * shape.kvHeads + kvHead) * shape.headDim + dim := by
    rw [elemsPerToken]
    push_cast
    ring
  rw [← hcast] at hmax
  unfold CInt.intMax at hmax
  omega

theorem rowIdx_eq {seqIdx qHead : ℕ} (hdim : dim < shape.headDim)
    (hlt : (seqIdx * shape.queryHeads + qHead) * shape.headDim + dim < 2 ^ 31) :
    shape.rowIdx seqIdx qHead dim =
      some (((seqIdx * shape.queryHeads + qHead) * shape.headDim + dim : ℕ) : ℤ) := by
  have hrow := (CInt.le_index (seqIdx * shape.queryHeads + qHead) dim
    (Nat.zero_lt_of_lt hdim)).trans_lt hlt
  simp only [rowIdx, CInt.index_natCast hrow, CInt.index_natCast hlt, Option.bind_eq_bind,
    Option.bind_some]

end Shape

/-! ## Tables -/

section Tables

variable {shape : Shape} {lengths : ℕ → ℕ} {totalBlocks : ℕ} {tables : Tables}

def blocksBefore (shape : Shape) (lengths : ℕ → ℕ) (count : ℕ) : ℕ :=
  ((List.range count).map fun batch => tileCount (lengths batch) shape.blockSize).sum

/-- The blocks of a sequence. -/
def blocksOf (shape : Shape) (lengths : ℕ → ℕ) (batch : ℕ) : List ℕ :=
  (List.range (tileCount (lengths batch) shape.blockSize)).map (blocksBefore shape lengths batch + ·)

theorem blocksBefore_succ (shape : Shape) (lengths : ℕ → ℕ) (count : ℕ) :
    blocksBefore shape lengths (count + 1) =
      blocksBefore shape lengths count + tileCount (lengths count) shape.blockSize := by
  rw [blocksBefore, List.range_succ, List.map_append, List.sum_append]
  simp [blocksBefore]

theorem blocksBefore_const (shape : Shape) (length count : ℕ) :
    blocksBefore shape (fun _ => length) count = count * tileCount length shape.blockSize := by
  simp [blocksBefore]

theorem blocksBefore_mono {count count' : ℕ} (h : count ≤ count') :
    blocksBefore shape lengths count ≤ blocksBefore shape lengths count' := by
  induction h with
  | refl => rfl
  | step _ ih =>
      rw [blocksBefore_succ]
      exact ih.trans (Nat.le_add_right _ _)

/-- The host computes the blocks of the sequences and the entries of the tables in `int`. -/
structure TablesFit (shape : Shape) (lengths : ℕ → ℕ) : Prop where
  blockSize_pos : 0 < shape.blockSize
  blocks_lt : ∀ batch < shape.batchSize, lengths batch + shape.blockSize < 2 ^ 31
  entries_lt : shape.batchSize * shape.maxBlocksPerSeq < 2 ^ 31

theorem TablesFit.ceilDiv_eq (h : TablesFit shape lengths) {batch : ℕ}
    (hbatch : batch < shape.batchSize) :
    CInt.ceilDiv (lengths batch) shape.blockSize =
      some (tileCount (lengths batch) shape.blockSize : ℤ) :=
  CInt.ceilDiv_natCast (h.blocks_lt batch hbatch) h.blockSize_pos

/-- What the tables hold once the first sequences have their blocks. -/
structure TablesSpec (shape : Shape) (lengths : ℕ → ℕ) (totalBlocks count : ℕ)
    (tables : Tables) : Prop where
  free_eq : tables.allocator.freeBlocks =
    (List.range totalBlocks).drop (blocksBefore shape lengths count)
  sequences_eq : tables.sequences =
    (List.range count).map fun batch => ⟨lengths batch, blocksOf shape lengths batch⟩
  length_eq : tables.blockTables.length = shape.batchSize * shape.maxBlocksPerSeq
  entry : ∀ batch < count, ∀ logical < tileCount (lengths batch) shape.blockSize,
    tables.blockTables[batch * shape.maxBlocksPerSeq + logical]? =
      some ((blocksBefore shape lengths batch + logical : ℕ) : ℤ)

theorem exists_allocateLogical {batch first count : ℕ} {blockTables : List ℤ}
    (hcount : count ≤ shape.maxBlocksPerSeq) (hfree : first + count ≤ totalBlocks)
    (hroom : batch * shape.maxBlocksPerSeq + count ≤ blockTables.length)
    (hlength : blockTables.length < 2 ^ 31) :
    ∃ blockTables', (List.range count).foldlM (allocateLogical shape batch)
        (⟨(List.range totalBlocks).drop first⟩, [], blockTables) =
        some (⟨(List.range totalBlocks).drop (first + count)⟩,
          (List.range count).map (first + ·), blockTables') ∧
      blockTables'.length = blockTables.length ∧
      (∀ logical < count, blockTables'[batch * shape.maxBlocksPerSeq + logical]? =
        some ((first + logical : ℕ) : ℤ)) ∧
      ∀ i, i < batch * shape.maxBlocksPerSeq ∨ batch * shape.maxBlocksPerSeq + count ≤ i →
        blockTables'[i]? = blockTables[i]? := by
  induction count with
  | zero => exact ⟨blockTables, rfl, rfl, fun _ h => absurd h (Nat.not_lt_zero _), fun _ _ => rfl⟩
  | succ count ih =>
      obtain ⟨blockTables', hrun, hlength', hentry, hkept⟩ := ih (by omega) (by omega) (by omega)
      have hnext : (List.range totalBlocks).drop (first + count) =
          (first + count) :: (List.range totalBlocks).drop (first + (count + 1)) := by
        rw [List.drop_eq_getElem_cons (by rw [List.length_range]; omega), List.getElem_range]
        rfl
      have hlt : batch * shape.maxBlocksPerSeq + count < blockTables'.length := by omega
      refine ⟨blockTables'.set (batch * shape.maxBlocksPerSeq + count) ((first + count : ℕ) : ℤ),
        ?_, by rw [List.length_set, hlength'], fun logical hlogical => ?_, fun i hi => ?_⟩
      · rw [List.range_succ, List.foldlM_append, hrun, Option.bind_eq_bind, Option.bind_some,
          List.foldlM_cons, allocateLogical, BlockAllocator.allocate]
        simp only [hnext, Except.toOption, Option.bind_eq_bind, Option.bind_some,
          CInt.index_natCast (show batch * shape.maxBlocksPerSeq + count < 2 ^ 31 by omega),
          Buffer.store_natCast _ hlt, List.map_append, List.map_singleton]
        rfl
      · rw [List.getElem?_set]
        rcases Nat.lt_succ_iff_lt_or_eq.mp hlogical with hlogical | rfl
        · rw [if_neg (by omega)]
          exact hentry logical hlogical
        · rw [if_pos rfl, if_pos hlt]
      · rw [List.getElem?_set, if_neg (by omega)]
        exact hkept i (by omega)

theorem exists_allocateSequence (hfits : TablesFit shape lengths)
    (hneeded : ∀ batch < shape.batchSize,
      tileCount (lengths batch) shape.blockSize ≤ shape.maxBlocksPerSeq)
    (henough : blocksBefore shape lengths shape.batchSize ≤ totalBlocks) {count : ℕ}
    (hcount : count ≤ shape.batchSize) :
    ∃ tables, (List.range count).foldlM (allocateSequence shape lengths)
        ⟨⟨List.range totalBlocks⟩, [],
          List.replicate (shape.batchSize * shape.maxBlocksPerSeq) (-1)⟩ = some tables ∧
      TablesSpec shape lengths totalBlocks count tables := by
  induction count with
  | zero =>
      refine ⟨_, rfl, ?_, rfl, List.length_replicate, fun _ h => absurd h (Nat.not_lt_zero _)⟩
      simp [blocksBefore]
  | succ count ih =>
      obtain ⟨⟨allocator, sequences, blockTables⟩, hrun, hspec⟩ := ih (by omega)
      have hend : count * shape.maxBlocksPerSeq + shape.maxBlocksPerSeq ≤ blockTables.length := by
        rw [hspec.length_eq, ← Nat.succ_mul]
        exact Nat.mul_le_mul_right _ hcount
      have hmax := hneeded count (by omega)
      have hfree : blocksBefore shape lengths count + tileCount (lengths count) shape.blockSize ≤
          totalBlocks := by
        rw [← blocksBefore_succ]
        exact (blocksBefore_mono hcount).trans henough
      have hroom : count * shape.maxBlocksPerSeq + tileCount (lengths count) shape.blockSize ≤
          blockTables.length := by omega
      obtain ⟨blockTables', hloop, hlength, hentry, hkept⟩ :=
        exists_allocateLogical hmax hfree hroom (hspec.length_eq ▸ hfits.entries_lt)
      refine ⟨⟨⟨(List.range totalBlocks).drop (blocksBefore shape lengths (count + 1))⟩,
        sequences ++ [⟨lengths count, blocksOf shape lengths count⟩], blockTables'⟩, ?_, rfl, ?_,
        hlength.trans hspec.length_eq, fun batch hbatch logical hlogical => ?_⟩
      · have hallocator : allocator = ⟨(List.range totalBlocks).drop
            (blocksBefore shape lengths count)⟩ :=
          congrArg BlockAllocator.mk hspec.free_eq
        rw [List.range_succ, List.foldlM_append, hrun, Option.bind_eq_bind, Option.bind_some,
          List.foldlM_cons, allocateSequence, hallocator, hfits.ceilDiv_eq (by omega)]
        simp only [hloop, Option.bind_eq_bind, Option.bind_some, Int.toNat_natCast,
          blocksBefore_succ]
        rfl
      · rw [List.range_succ, List.map_append, ← hspec.sequences_eq]
        rfl
      · rcases Nat.lt_succ_iff_lt_or_eq.mp hbatch with hbatch | rfl
        · rw [hkept _ (Or.inl ?_)]
          · exact hspec.entry batch hbatch logical hlogical
          · exact row_lt hbatch (hlogical.trans_le (hneeded batch (by omega)))
        · exact hentry logical hlogical

/-- With enough blocks every sequence gets its own. -/
theorem exists_buildTables (hfits : TablesFit shape lengths) (hpos : 0 < totalBlocks)
    (hneeded : ∀ batch < shape.batchSize,
      tileCount (lengths batch) shape.blockSize ≤ shape.maxBlocksPerSeq)
    (henough : blocksBefore shape lengths shape.batchSize ≤ totalBlocks) :
    ∃ tables, buildTables shape lengths totalBlocks = some tables ∧
      TablesSpec shape lengths totalBlocks shape.batchSize tables := by
  obtain ⟨tables, hrun, hspec⟩ :=
    exists_allocateSequence hfits hneeded henough (le_refl shape.batchSize)
  refine ⟨tables, ?_, hspec⟩
  rw [buildTables, BlockAllocator.construct, if_neg hpos.ne', CInt.mul_natCast hfits.entries_lt]
  exact hrun

/-! ### Allocations -/

theorem allocateLogical_freeBlocks {batch logical : ℕ} {state state' : BlockAllocator × List ℕ × List ℤ}
    (h : allocateLogical shape batch state logical = some state') :
    state.1.freeBlocks.length = state'.1.freeBlocks.length + 1 := by
  obtain ⟨⟨freeBlocks⟩, blocks, blockTables⟩ := state
  cases freeBlocks with
  | nil => cases h
  | cons block freeBlocks =>
      obtain ⟨index, _, h⟩ := Option.bind_eq_some_iff.mp h
      obtain ⟨blockTables', _, hstate⟩ := Option.bind_eq_some_iff.mp h
      rw [← Option.some.inj hstate]
      rfl

theorem foldlM_allocateLogical_freeBlocks {batch : ℕ} {logicals : List ℕ}
    {state state' : BlockAllocator × List ℕ × List ℤ}
    (h : logicals.foldlM (allocateLogical shape batch) state = some state') :
    state.1.freeBlocks.length = state'.1.freeBlocks.length + logicals.length := by
  induction logicals generalizing state with
  | nil => rw [Option.some.inj h, List.length_nil, Nat.add_zero]
  | cons logical logicals ih =>
      obtain ⟨next, hnext, hrest⟩ := Option.bind_eq_some_iff.mp h
      rw [allocateLogical_freeBlocks hnext, ih hrest, List.length_cons, Nat.add_assoc]

theorem allocateSequence_freeBlocks {tables' : Tables} {batch : ℕ}
    (hfits : TablesFit shape lengths) (hbatch : batch < shape.batchSize)
    (h : allocateSequence shape lengths tables batch = some tables') :
    tables.allocator.freeBlocks.length =
      tables'.allocator.freeBlocks.length + tileCount (lengths batch) shape.blockSize := by
  rw [allocateSequence, hfits.ceilDiv_eq hbatch, Option.bind_eq_bind, Option.bind_some] at h
  obtain ⟨state, hrun, hstate⟩ := Option.bind_eq_some_iff.mp h
  have hcount := foldlM_allocateLogical_freeBlocks hrun
  rw [List.length_range, Int.toNat_natCast] at hcount
  rw [← Option.some.inj hstate]
  exact hcount

/-- The sequences have taken the blocks they need. -/
theorem foldlM_allocateSequence_freeBlocks {tables' : Tables} {count : ℕ}
    (hfits : TablesFit shape lengths) (hcount : count ≤ shape.batchSize)
    (h : (List.range count).foldlM (allocateSequence shape lengths) tables = some tables') :
    tables.allocator.freeBlocks.length =
      tables'.allocator.freeBlocks.length + blocksBefore shape lengths count := by
  induction count generalizing tables' with
  | zero =>
      rw [← Option.some.inj h]
      rfl
  | succ count ih =>
      rw [List.range_succ, List.foldlM_append] at h
      obtain ⟨next, hnext, hlast⟩ := Option.bind_eq_some_iff.mp h
      rw [List.foldlM_cons] at hlast
      obtain ⟨last, hlast, hend⟩ := Option.bind_eq_some_iff.mp hlast
      rw [← Option.some.inj hend, ih (by omega) hnext,
        allocateSequence_freeBlocks hfits (by omega) hlast, blocksBefore_succ]
      omega

/-- A shape that `main` takes, with a length for each of the sequences. -/
structure ShapeSpec (shape : Shape) (lengths : ℕ → ℕ) : Prop where
  kvHeads_dvd : shape.kvHeads ∣ shape.queryHeads
  blockSize_pos : 0 < shape.blockSize
  maxSeqLen_le : shape.maxSeqLen ≤ shape.maxBlocksPerSeq * shape.blockSize
  length_pos : ∀ batch < shape.batchSize, 1 ≤ lengths batch
  length_le : ∀ batch < shape.batchSize, lengths batch ≤ shape.maxSeqLen

theorem ShapeSpec.ceilDiv_le (h : ShapeSpec shape lengths) {batch : ℕ}
    (hbatch : batch < shape.batchSize) :
    tileCount (lengths batch) shape.blockSize ≤ shape.maxBlocksPerSeq :=
  tileCount_le h.blockSize_pos ((h.length_le batch hbatch).trans h.maxSeqLen_le)

/-- Tables that could be built have a block for every token. -/
theorem ShapeSpec.tablesSpec (h : ShapeSpec shape lengths) (hfits : TablesFit shape lengths)
    (hbuild : buildTables shape lengths totalBlocks = some tables) :
    TablesSpec shape lengths totalBlocks shape.batchSize tables ∧
      blocksBefore shape lengths shape.batchSize ≤ totalBlocks := by
  obtain ⟨allocator, hallocator, hrun⟩ := Option.bind_eq_some_iff.mp hbuild
  rw [BlockAllocator.construct] at hallocator
  split at hallocator
  · cases hallocator
  · rename_i hpos
    obtain rfl := Option.some.inj hallocator
    rw [CInt.mul_natCast hfits.entries_lt, Option.bind_eq_bind, Option.bind_some] at hrun
    have hcount := foldlM_allocateSequence_freeBlocks hfits le_rfl hrun
    rw [List.length_range] at hcount
    have henough : blocksBefore shape lengths shape.batchSize ≤ totalBlocks := by omega
    obtain ⟨tables', hbuild', hspec⟩ :=
      exists_buildTables hfits (Nat.pos_of_ne_zero hpos) (fun _ hbatch => h.ceilDiv_le hbatch) henough
    obtain rfl := Option.some.inj (hbuild.symm.trans hbuild')
    exact ⟨hspec, henough⟩

/-! ## Slots -/

/-- The slot of a token of a sequence. -/
def slotOf (shape : Shape) (lengths : ℕ → ℕ) (batch token : ℕ) : ℕ :=
  Paging.slot shape.blockSize (blocksOf shape lengths batch) token

variable {batch batch' token token' : ℕ}

theorem length_blocksOf (shape : Shape) (lengths : ℕ → ℕ) (batch : ℕ) :
    (blocksOf shape lengths batch).length = tileCount (lengths batch) shape.blockSize := by
  simp [blocksOf]

theorem mem_blocksOf {block : ℕ} : block ∈ blocksOf shape lengths batch ↔
    blocksBefore shape lengths batch ≤ block ∧ block < blocksBefore shape lengths (batch + 1) := by
  rw [blocksOf, List.mem_map, blocksBefore_succ]
  constructor
  · rintro ⟨logical, hlogical, rfl⟩
    have := List.mem_range.mp hlogical
    omega
  · rintro ⟨hle, hlt⟩
    exact ⟨block - blocksBefore shape lengths batch, List.mem_range.mpr (by omega), by omega⟩

theorem nodup_blocksOf (shape : Shape) (lengths : ℕ → ℕ) (batch : ℕ) :
    (blocksOf shape lengths batch).Nodup :=
  List.nodup_range.map fun _ _ h => Nat.add_left_cancel h

theorem disjoint_blocksOf (hne : batch ≠ batch') :
    (blocksOf shape lengths batch).Disjoint (blocksOf shape lengths batch') := by
  intro block hmem hmem'
  obtain ⟨hle, hlt⟩ := mem_blocksOf.mp hmem
  obtain ⟨hle', hlt'⟩ := mem_blocksOf.mp hmem'
  have hbefore : ∀ {first second : ℕ}, first < second →
      blocksBefore shape lengths (first + 1) ≤ blocksBefore shape lengths second :=
    fun h => blocksBefore_mono h
  rcases Nat.lt_or_gt_of_ne hne with h | h
  · have := hbefore h
    omega
  · have := hbefore h
    omega

theorem div_lt_blocks (hsize : 0 < shape.blockSize) (htoken : token < lengths batch) :
    token / shape.blockSize < (blocksOf shape lengths batch).length := by
  rw [length_blocksOf]
  exact div_lt_tileCount hsize htoken

/-- A slot belongs to one token. -/
theorem slotOf_inj (hsize : 0 < shape.blockSize) (htoken : token < lengths batch)
    (htoken' : token' < lengths batch')
    (h : slotOf shape lengths batch token = slotOf shape lengths batch' token') :
    batch = batch' ∧ token = token' := by
  have hlt := div_lt_blocks hsize htoken
  have hlt' := div_lt_blocks hsize htoken'
  by_cases hbatch : batch = batch'
  · subst hbatch
    exact ⟨rfl, Paging.slot_inj hsize (nodup_blocksOf _ _ _) hlt hlt' h⟩
  · exact absurd h (Paging.slot_ne_of_disjoint hsize (disjoint_blocksOf hbatch) hlt hlt')

theorem slotOf_lt (hsize : 0 < shape.blockSize)
    (henough : blocksBefore shape lengths shape.batchSize ≤ totalBlocks)
    (hbatch : batch < shape.batchSize) (htoken : token < lengths batch) :
    slotOf shape lengths batch token < totalBlocks * shape.blockSize := by
  refine Paging.slot_lt hsize (fun block hblock => ?_) (div_lt_blocks hsize htoken)
  exact (mem_blocksOf.mp hblock).2.trans_le ((blocksBefore_mono hbatch).trans henough)

theorem slotOf_eq (hsize : 0 < shape.blockSize) (htoken : token < lengths batch) :
    slotOf shape lengths batch token =
      (blocksBefore shape lengths batch + token / shape.blockSize) * shape.blockSize +
        token % shape.blockSize := by
  rw [slotOf, Paging.slot_eq_getElem (div_lt_blocks hsize htoken)]
  simp [blocksOf]

/-- The entry of a block table that a token finds. -/
theorem TablesSpec.load (h : TablesSpec shape lengths totalBlocks shape.batchSize tables)
    (hfits : TablesFit shape lengths) (hbatch : batch < shape.batchSize)
    (htoken : token < lengths batch) :
    (CInt.index batch shape.maxBlocksPerSeq (token / shape.blockSize : ℕ)).bind
        (Buffer.load tables.blockTables) =
      some ((blocksBefore shape lengths batch + token / shape.blockSize : ℕ) : ℤ) := by
  have hlength : tables.blockTables.length ≤ 2 ^ 31 := h.length_eq ▸ hfits.entries_lt.le
  rw [(Buffer.confined_load hlength).bind_index_natCast, Buffer.load_natCast]
  exact h.entry batch hbatch _ (div_lt_tileCount hfits.blockSize_pos htoken)

theorem TablesSpec.sequence (h : TablesSpec shape lengths totalBlocks shape.batchSize tables)
    (hbatch : batch < shape.batchSize) :
    tables.sequences[batch]? = some ⟨lengths batch, blocksOf shape lengths batch⟩ := by
  rw [h.sequences_eq, List.getElem?_map, List.getElem?_range hbatch]
  rfl

/-- The device takes both launches, and 32 bits hold the indices of every token. -/
structure Fits (shape : Shape) (lengths : ℕ → ℕ) (warps : ℕ) : Prop
    extends TablesFit shape lengths where
  batchSize_pos : 0 < shape.batchSize
  queryHeads_pos : 0 < shape.queryHeads
  headDim_pos : 0 < shape.headDim
  queryHeads_le : shape.queryHeads ≤ 65535
  threads_le : warps * 32 ≤ 1024
  shared_le : (shape.headDim + warps * shape.headDim + 2 * warps + 2) * 4 ≤ 49152
  kvElems_lt : shape.maxSeqLen * (shape.kvHeads * shape.headDim) + 256 < 2 ^ 31
  cache_le : ∀ batch < shape.batchSize, ∀ token < lengths batch,
    (slotOf shape lengths batch token + 1) * (shape.kvHeads * shape.headDim) ≤ 2 ^ 31
  dense_le : ∀ batch < shape.batchSize, ∀ token < lengths batch,
    (batch * shape.maxSeqLen + token + 1) * (shape.kvHeads * shape.headDim) ≤ 2 ^ 31
  query_le : shape.batchSize * shape.queryHeads * shape.headDim ≤ 2 ^ 31

variable {warps : ℕ}

theorem ShapeSpec.kvHeads_pos (h : ShapeSpec shape lengths) (hfits : Fits shape lengths warps) :
    0 < shape.kvHeads :=
  Nat.pos_of_dvd_of_pos h.kvHeads_dvd hfits.queryHeads_pos

theorem ShapeSpec.maxSeqLen_pos (h : ShapeSpec shape lengths) (hbatch : batch < shape.batchSize) :
    0 < shape.maxSeqLen :=
  (h.length_pos batch hbatch).trans (h.length_le batch hbatch)

theorem ShapeSpec.elemsPerToken_pos (h : ShapeSpec shape lengths)
    (hfits : Fits shape lengths warps) : 0 < shape.elemsPerToken :=
  Nat.mul_pos (h.kvHeads_pos hfits) hfits.headDim_pos

theorem kvElemsPerSeq_eq (hdim : 0 < shape.headDim)
    (hlt : shape.maxSeqLen * shape.elemsPerToken < 2 ^ 31) :
    shape.kvElemsPerSeq = some ((shape.maxSeqLen * shape.elemsPerToken : ℕ) : ℤ) := by
  rw [Shape.elemsPerToken, ← Nat.mul_assoc] at hlt
  have hrows : shape.maxSeqLen * shape.kvHeads ≤ shape.maxSeqLen * shape.kvHeads * shape.headDim :=
    Nat.le_mul_of_pos_right _ hdim
  rw [Shape.kvElemsPerSeq, CInt.mul_natCast (by omega), Option.bind_eq_bind, Option.bind_some,
    CInt.mul_natCast hlt, Nat.mul_assoc]
  rfl

theorem ShapeSpec.decodeLaunchable (h : ShapeSpec shape lengths)
    (hfits : Fits shape lengths warps) (hwarps : 0 < warps) :
    (shape.decodeLaunch warps).Launchable := by
  have hblocks : 0 < shape.maxBlocksPerSeq :=
    Nat.pos_of_mul_pos_right ((h.maxSeqLen_pos hfits.batchSize_pos).trans_le h.maxSeqLen_le)
  have hlt : shape.batchSize < 2 ^ 31 :=
    (Nat.le_mul_of_pos_right _ hblocks).trans_lt hfits.entries_lt
  exact ⟨⟨hfits.batchSize_pos, hlt⟩, ⟨hfits.queryHeads_pos, hfits.queryHeads_le⟩,
    ⟨Nat.mul_pos hwarps (by decide), hfits.threads_le⟩, hfits.shared_le⟩

theorem appendLaunchable (hpos : 0 < shape.maxSeqLen * shape.elemsPerToken)
    (hlt : shape.maxSeqLen * shape.elemsPerToken < 2 ^ 31) :
    (Launch.Shape.row (tileCount (shape.maxSeqLen * shape.elemsPerToken) 256) 256).Launchable := by
  have hle : tileCount (shape.maxSeqLen * shape.elemsPerToken) 256 ≤
      shape.maxSeqLen * shape.elemsPerToken :=
    tileCount_le (by decide) (Nat.le_mul_of_pos_right _ (by decide))
  have hgrid : 0 < tileCount (shape.maxSeqLen * shape.elemsPerToken) 256 :=
    Nat.zero_lt_of_lt (div_lt_tileCount (by decide) hpos)
  exact Launch.Shape.launchable_row ⟨hgrid, hle.trans_lt hlt⟩ (by decide)

/-- The loop of `main` over the sequences, once the host has computed its sizes. -/
theorem fillCache_eq {α : Type} (schedule : ℕ → Launch.Schedule) (key value : List α)
    (caches : KVCaches α) (hdim : 0 < shape.headDim)
    (hlt : shape.maxSeqLen * shape.elemsPerToken + 256 < 2 ^ 31) :
    fillCache schedule shape key value tables caches =
      (List.range shape.batchSize).foldlM (fillSequence schedule shape
        (shape.maxSeqLen * shape.elemsPerToken)
        (tileCount (shape.maxSeqLen * shape.elemsPerToken) 256) key value tables) caches := by
  have hblocks : CInt.ceilDiv ((shape.maxSeqLen * shape.elemsPerToken : ℕ) : ℤ) 256 =
      some (tileCount (shape.maxSeqLen * shape.elemsPerToken) 256 : ℤ) :=
    CInt.ceilDiv_natCast hlt (by decide)
  rw [fillCache, kvElemsPerSeq_eq hdim (by omega), Option.bind_eq_bind, Option.bind_some, hblocks,
    Option.bind_some, Int.toNat_natCast, Int.toNat_natCast]

end Tables

/-! ## Filling -/

section Fill

variable {α : Type} {shape : Shape} {lengths : ℕ → ℕ} {totalBlocks warps batch : ℕ}
  {tables : Tables} {key value : List α}

/-- The entries of a token in the dense K/V, one for each K/V head and dimension. -/
def denseEntry (shape : Shape) (key value : List α) (batch token i : ℕ) : Option α × Option α :=
  (key[(batch * shape.maxSeqLen + token) * shape.elemsPerToken + i]?,
    value[(batch * shape.maxSeqLen + token) * shape.elemsPerToken + i]?)

/-- The rows copied for a sequence start at its place in the dense K/V. -/
theorem exists_denseRows {dense : List α}
    (hlength : dense.length = shape.batchSize * (shape.maxSeqLen * shape.elemsPerToken))
    (hbatch : batch < shape.batchSize) :
    ∃ rows, denseRows (shape.maxSeqLen * shape.elemsPerToken) dense batch = some rows ∧
      ∀ token < shape.maxSeqLen, ∀ i < shape.elemsPerToken,
        rows[token * shape.elemsPerToken + i]? =
          dense[(batch * shape.maxSeqLen + token) * shape.elemsPerToken + i]? := by
  have hroom : shape.maxSeqLen * shape.elemsPerToken ≤
      (dense.drop (batch * (shape.maxSeqLen * shape.elemsPerToken))).length := by
    have hnext : (batch + 1) * (shape.maxSeqLen * shape.elemsPerToken) ≤ dense.length := by
      rw [hlength]
      exact Nat.mul_le_mul_right _ hbatch
    rw [Nat.add_mul, Nat.one_mul] at hnext
    rw [List.length_drop]
    omega
  refine ⟨_, if_pos hroom, fun token htoken i hi => ?_⟩
  rw [List.getElem?_take_of_lt (row_lt htoken hi), List.getElem?_drop]
  congr 1
  ring

theorem exists_entry {dense rows : List α} {token i : ℕ}
    (hdense : dense.length = shape.batchSize * (shape.maxSeqLen * shape.elemsPerToken))
    (hbatch : batch < shape.batchSize) (hlength : lengths batch ≤ shape.maxSeqLen)
    (htoken : token < lengths batch) (hi : i < shape.elemsPerToken)
    (hrow : rows[token * shape.elemsPerToken + i]? =
      dense[(batch * shape.maxSeqLen + token) * shape.elemsPerToken + i]?) :
    ∃ entry, rows[token * shape.elemsPerToken + i]? = some entry ∧
      dense[(batch * shape.maxSeqLen + token) * shape.elemsPerToken + i]? = some entry := by
  have hrow' := row_lt (row_lt hbatch (htoken.trans_le hlength)) hi
  rw [Nat.mul_assoc, ← hdense] at hrow'
  exact ⟨_, hrow.trans (List.getElem?_eq_getElem hrow'), List.getElem?_eq_getElem hrow'⟩

/-- The cell of an entry of a stored token. -/
theorem kvIdx_slotOf {token i : ℕ} (hsize : 0 < shape.blockSize) (hfits : Fits shape lengths warps)
    (hbatch : batch < shape.batchSize) (htoken : token < lengths batch)
    (hi : i < shape.elemsPerToken) :
    shape.kvIdx ((blocksBefore shape lengths batch + token / shape.blockSize : ℕ) : ℤ)
        shape.blockSize (token % shape.blockSize) (i / shape.headDim) (i % shape.headDim) =
      some ((slotOf shape lengths batch token * shape.elemsPerToken + i : ℕ) : ℤ) := by
  obtain ⟨hkvHead, hdim⟩ := div_mod_of_lt hi
  have hrow := row_lt (Nat.lt_succ_self (slotOf shape lengths batch token)) hi
  have hmax := hrow.trans_le (hfits.cache_le batch hbatch token htoken)
  rw [slotOf_eq hsize htoken] at hmax ⊢
  rw [Shape.kvIdx_eq hkvHead hdim (by rw [Nat.div_add_mod']; exact hmax), Nat.div_add_mod']

theorem appendKvCacheKernel_stores {caches : KVCaches α} {denseKey denseValue : List α}
    (h : TablesSpec shape lengths totalBlocks shape.batchSize tables)
    (hshape : ShapeSpec shape lengths) (hfits : Fits shape lengths warps)
    (henough : blocksBefore shape lengths shape.batchSize ≤ totalBlocks)
    (hbatch : batch < shape.batchSize)
    (hkey : ∀ token < lengths batch, ∀ i < shape.elemsPerToken,
      ∃ entry, denseKey[token * shape.elemsPerToken + i]? = some entry ∧
        (denseEntry shape key value batch token i).1 = some entry)
    (hvalue : ∀ token < lengths batch, ∀ i < shape.elemsPerToken,
      ∃ entry, denseValue[token * shape.elemsPerToken + i]? = some entry ∧
        (denseEntry shape key value batch token i).2 = some entry)
    (hsized : caches.Sized (totalBlocks * shape.blockSize * shape.elemsPerToken)) (linear : ℕ) :
    ∃ caches', appendKvCacheKernel denseKey denseValue (List.range shape.maxSeqLen)
        tables.blockTables batch shape (lengths batch) caches linear = some caches' ∧
      caches'.Sized (totalBlocks * shape.blockSize * shape.elemsPerToken) ∧
      Stores (rowTarget (denseEntry shape key value batch) (slotOf shape lengths batch)
        (lengths batch) shape.elemsPerToken linear) caches.cell caches'.cell := by
  have hsize := hshape.blockSize_pos
  have hlength := hshape.length_le batch hbatch
  have hlt : shape.maxSeqLen * shape.elemsPerToken + 256 < 2 ^ 31 := hfits.kvElems_lt
  have helems : shape.elemsPerToken ≤ shape.maxSeqLen * shape.elemsPerToken :=
    Nat.le_mul_of_pos_left _ (hshape.maxSeqLen_pos hbatch)
  have htotal : lengths batch * shape.elemsPerToken ≤ shape.maxSeqLen * shape.elemsPerToken :=
    Nat.mul_le_mul_right _ hlength
  have helems' : CInt.mul shape.kvHeads shape.headDim = some (shape.elemsPerToken : ℤ) :=
    CInt.mul_natCast (helems.trans_lt (by omega))
  have htotal' := CInt.mul_natCast (show lengths batch * shape.elemsPerToken < 2 ^ 31 by omega)
  by_cases hlinear : linear < lengths batch * shape.elemsPerToken
  · obtain ⟨htoken, hwithin⟩ := div_mod_of_lt hlinear
    have hcell := row_lt (slotOf_lt hsize henough hbatch htoken) hwithin
    obtain ⟨keyEntry, hkeyLoad, hkeyEntry⟩ := hkey _ htoken _ hwithin
    obtain ⟨valueEntry, hvalueLoad, hvalueEntry⟩ := hvalue _ htoken _ hwithin
    rw [Nat.div_add_mod'] at hkeyLoad hvalueLoad
    have hoffset : (List.range shape.maxSeqLen)[linear / shape.elemsPerToken]? =
        some (linear / shape.elemsPerToken) :=
      List.getElem?_range (htoken.trans_le hlength)
    have hindex := kvIdx_slotOf hsize hfits hbatch htoken hwithin
    refine ⟨caches.set (slotOf shape lengths batch (linear / shape.elemsPerToken) *
      shape.elemsPerToken + linear % shape.elemsPerToken) keyEntry valueEntry, ?_, hsized.set,
      fun i => ?_⟩
    · simp only [appendKvCacheKernel, helems', htotal', Option.bind_eq_bind, Option.bind_some,
        Int.toNat_natCast]
      rw [if_neg (by rw [Nat.cast_le]; omega)]
      simp only [hoffset, h.load hfits.toTablesFit hbatch htoken, hindex, Buffer.load_natCast,
        hkeyLoad, hvalueLoad, Buffer.store_natCast _ (hsized.1 ▸ hcell),
        Buffer.store_natCast _ (hsized.2 ▸ hcell), Option.bind_some]
      rfl
    · rw [hsized.cell_set hcell, rowTarget]
      by_cases hi : i = slotOf shape lengths batch (linear / shape.elemsPerToken) *
          shape.elemsPerToken + linear % shape.elemsPerToken
      · rw [if_pos hi, if_pos ⟨hlinear, hi⟩, Option.getD_some]
        exact (Prod.ext hkeyEntry hvalueEntry).symm
      · rw [if_neg hi, if_neg (fun hin => hi hin.2)]
        rfl
  · refine ⟨caches, ?_, hsized, fun i => ?_⟩
    · simp only [appendKvCacheKernel, helems', htotal', Option.bind_eq_bind, Option.bind_some]
      exact if_pos (Nat.cast_le.mpr (Nat.le_of_not_lt hlinear))
    · rw [rowTarget_eq_none (fun hin => hlinear hin.1)]
      rfl

theorem exists_fillSequence {caches : KVCaches α}
    (h : TablesSpec shape lengths totalBlocks shape.batchSize tables)
    (hshape : ShapeSpec shape lengths) (hfits : Fits shape lengths warps)
    (henough : blocksBefore shape lengths shape.batchSize ≤ totalBlocks)
    (hbatch : batch < shape.batchSize)
    (hkey : key.length = shape.batchSize * (shape.maxSeqLen * shape.elemsPerToken))
    (hvalue : value.length = shape.batchSize * (shape.maxSeqLen * shape.elemsPerToken))
    (hsized : caches.Sized (totalBlocks * shape.blockSize * shape.elemsPerToken))
    (schedule : ℕ → Launch.Schedule) :
    ∃ caches', fillSequence schedule shape (shape.maxSeqLen * shape.elemsPerToken)
        (tileCount (shape.maxSeqLen * shape.elemsPerToken) 256) key value tables caches batch =
          some caches' ∧
      caches'.Sized (totalBlocks * shape.blockSize * shape.elemsPerToken) ∧
      RowsStored (denseEntry shape key value batch) (slotOf shape lengths batch) (lengths batch)
        shape.elemsPerToken caches.cell caches'.cell := by
  have hlength := hshape.length_le batch hbatch
  have hgrid := appendLaunchable (Nat.mul_pos (hshape.maxSeqLen_pos hbatch)
    (hshape.elemsPerToken_pos hfits)) (Nat.lt_of_add_right_lt hfits.kvElems_lt)
  obtain ⟨denseKey, hdenseKey, hkeyRows⟩ := exists_denseRows hkey hbatch
  obtain ⟨denseValue, hdenseValue, hvalueRows⟩ := exists_denseRows hvalue hbatch
  obtain ⟨caches', hlaunch, hsized', hscattered⟩ := (schedule batch).exists_launch
    (tileCount (shape.maxSeqLen * shape.elemsPerToken) 256 * 256) KVCaches.cell hsized
    (fun t _ t' _ hne => rowTarget_apart
      (fun r hr r' hr' heq => (slotOf_inj hshape.blockSize_pos hr hr' heq).2) hne)
    (fun caches index _ hsized _ => appendKvCacheKernel_stores h hshape hfits henough hbatch
      (fun token htoken i hi => exists_entry hkey hbatch hlength htoken hi
        (hkeyRows token (htoken.trans_le hlength) i hi))
      (fun token htoken i hi => exists_entry hvalue hbatch hlength htoken hi
        (hvalueRows token (htoken.trans_le hlength) i hi)) hsized index)
  refine ⟨caches', ?_, hsized', hscattered.rowsStored ?_⟩
  · rw [fillSequence, h.sequence hbatch]
    simp only [hdenseKey, hdenseValue, Option.bind_eq_bind, Option.bind_some]
    exact (if_pos hgrid).trans hlaunch
  · exact (Nat.mul_le_mul_right _ hlength).trans (le_tileCount_mul _ (by decide))

/-- The caches hold the tokens of the first sequences. -/
structure CachesSpec (shape : Shape) (lengths : ℕ → ℕ) (totalBlocks count : ℕ)
    (key value : List α) (caches : KVCaches α) : Prop where
  sized : caches.Sized (totalBlocks * shape.blockSize * shape.elemsPerToken)
  cell : ∀ batch < count, ∀ token < lengths batch, ∀ i < shape.elemsPerToken,
    caches.cell (slotOf shape lengths batch token * shape.elemsPerToken + i) =
      denseEntry shape key value batch token i

/-- Filled sequence by sequence, the caches hold the dense K/V. -/
theorem exists_fillCache {caches : KVCaches α}
    (h : TablesSpec shape lengths totalBlocks shape.batchSize tables)
    (hshape : ShapeSpec shape lengths) (hfits : Fits shape lengths warps)
    (henough : blocksBefore shape lengths shape.batchSize ≤ totalBlocks)
    (hkey : key.length = shape.batchSize * (shape.maxSeqLen * shape.elemsPerToken))
    (hvalue : value.length = shape.batchSize * (shape.maxSeqLen * shape.elemsPerToken))
    (hsized : caches.Sized (totalBlocks * shape.blockSize * shape.elemsPerToken))
    (schedule : ℕ → Launch.Schedule) :
    ∃ caches', fillCache schedule shape key value tables caches = some caches' ∧
      CachesSpec shape lengths totalBlocks shape.batchSize key value caches' := by
  have hfill : ∀ count ≤ shape.batchSize, ∃ caches',
      (List.range count).foldlM (fillSequence schedule shape
        (shape.maxSeqLen * shape.elemsPerToken)
        (tileCount (shape.maxSeqLen * shape.elemsPerToken) 256) key value tables) caches =
          some caches' ∧
      CachesSpec shape lengths totalBlocks count key value caches' := by
    intro count hcount
    induction count with
    | zero => exact ⟨caches, rfl, hsized, fun _ h => absurd h (Nat.not_lt_zero _)⟩
    | succ count ih =>
        obtain ⟨caches', hrun, hspec⟩ := ih (by omega)
        have hbatch : count < shape.batchSize := by omega
        obtain ⟨caches'', hnext, hsized', hrows⟩ := exists_fillSequence h hshape hfits henough
          hbatch hkey hvalue hspec.sized schedule
        refine ⟨caches'', ?_, hsized', fun batch hlt token htoken i hi => ?_⟩
        · rw [List.range_succ, List.foldlM_append, hrun, Option.bind_eq_bind, Option.bind_some,
            List.foldlM_cons, hnext]
          rfl
        · rcases Nat.lt_succ_iff_lt_or_eq.mp hlt with hlt | rfl
          · rw [hrows.kept _ fun r hr heq => ?_]
            · exact hspec.cell batch hlt token htoken i hi
            · rw [row_div _ hi] at heq
              exact hlt.ne (slotOf_inj hshape.blockSize_pos hr htoken heq).1.symm
          · exact hrows.stored token htoken i hi
  rw [fillCache_eq schedule key value caches hfits.headDim_pos hfits.kvElems_lt]
  exact hfill shape.batchSize le_rfl

/-- A token whose last entry has an index that no `int` holds. -/
theorem fillCache_eq_none {caches : KVCaches α} {token : ℕ}
    (h : TablesSpec shape lengths totalBlocks shape.batchSize tables)
    (hshape : ShapeSpec shape lengths) (htables : TablesFit shape lengths)
    (hkvHeads : 0 < shape.kvHeads) (hdim : 0 < shape.headDim)
    (hlt : shape.maxSeqLen * shape.elemsPerToken + 256 < 2 ^ 31)
    (hbatch : batch < shape.batchSize) (htoken : token < lengths batch)
    (hindex : 2 ^ 31 ≤ slotOf shape lengths batch token * shape.elemsPerToken +
      (shape.elemsPerToken - 1)) (schedule : ℕ → Launch.Schedule) :
    fillCache schedule shape key value tables caches = none := by
  have hseq := hshape.maxSeqLen_pos hbatch
  have helems : 0 < shape.elemsPerToken := Nat.mul_pos hkvHeads hdim
  have hlast : shape.elemsPerToken - 1 < shape.elemsPerToken := Nat.sub_one_lt_of_lt helems
  have hlinear := row_lt htoken hlast
  have hmax : lengths batch * shape.elemsPerToken ≤ shape.maxSeqLen * shape.elemsPerToken :=
    Nat.mul_le_mul_right _ (hshape.length_le batch hbatch)
  have hthread : ∀ denseKey denseValue (caches : KVCaches α), appendKvCacheKernel denseKey
      denseValue (List.range shape.maxSeqLen) tables.blockTables batch shape (lengths batch) caches
        (token * shape.elemsPerToken + (shape.elemsPerToken - 1)) = none := by
    intro denseKey denseValue caches
    have helems' : CInt.mul shape.kvHeads shape.headDim = some (shape.elemsPerToken : ℤ) :=
      CInt.mul_natCast ((Nat.le_mul_of_pos_left _ hseq).trans_lt (Nat.lt_of_add_right_lt hlt))
    have htotal := CInt.mul_natCast (show lengths batch * shape.elemsPerToken < 2 ^ 31 by omega)
    have hkvIdx : shape.kvIdx (blocksBefore shape lengths batch + token / shape.blockSize : ℕ)
        shape.blockSize (token % shape.blockSize : ℕ) ((shape.elemsPerToken - 1) / shape.headDim)
        ((shape.elemsPerToken - 1) % shape.headDim) = none :=
      Shape.kvIdx_eq_none (by
        rw [Nat.div_add_mod', ← slotOf_eq hshape.blockSize_pos htoken]
        exact hindex)
    simp only [appendKvCacheKernel, helems', htotal, Option.bind_eq_bind, Option.bind_some,
      Int.toNat_natCast]
    rw [if_neg (by rw [Nat.cast_le]; omega)]
    simp only [row_div _ hlast, row_mod _ hlast,
      List.getElem?_range (htoken.trans_le (hshape.length_le batch hbatch)),
      h.load htables hbatch htoken, hkvIdx, Option.bind_some, Option.bind_none]
  have hgrid := appendLaunchable (Nat.mul_pos hseq helems) (Nat.lt_of_add_right_lt hlt)
  have hcovered : token * shape.elemsPerToken + (shape.elemsPerToken - 1) <
      tileCount (shape.maxSeqLen * shape.elemsPerToken) 256 * 256 :=
    (hlinear.trans_le hmax).trans_le (le_tileCount_mul _ (by decide))
  rw [fillCache_eq schedule key value caches hdim hlt]
  refine Option.foldlM_eq_none (List.mem_range.mpr hbatch) (fun caches => ?_) caches
  rw [fillSequence, h.sequence hbatch, Option.bind_eq_bind, Option.bind_some]
  cases hkey : denseRows (shape.maxSeqLen * shape.elemsPerToken) key batch with
  | none => rfl
  | some denseKey =>
      cases hvalue : denseRows (shape.maxSeqLen * shape.elemsPerToken) value batch with
      | none => rfl
      | some denseValue =>
          exact (if_pos hgrid).trans
            (Launch.Schedule.launch_eq_none hcovered (hthread denseKey denseValue) caches)

end Fill

end PagedAttention

end MiniVLLM
