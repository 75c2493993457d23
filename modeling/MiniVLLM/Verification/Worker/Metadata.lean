import MiniVLLM.Model.Llama

/-! # The metadata of a batch

The tensors of the metadata are int32. `from_batch` returns the lists of the batch unchanged where
each of their values is in range, and raises where one is not. -/

namespace MiniVLLM

/-! ## 32-bit tensors -/

section Int32

variable {values : List ℕ} {tables : List (List ℤ)}

def Int32 (value : ℤ) : Prop := CInt.intMin ≤ value ∧ value ≤ CInt.intMax

theorem int32_natCast {value : ℕ} : Int32 value ↔ value < 2 ^ 31 := by
  unfold Int32 CInt.intMin CInt.intMax
  omega

theorem int32_iff {value : ℤ} : Int32 value ↔ -2147483648 ≤ value ∧ value ≤ 2147483647 := Iff.rfl

theorem int32Counts_eq_ok_iff {result : List ℕ} :
    int32Counts values = .ok result ↔ (∀ value ∈ values, value < 2 ^ 31) ∧ values = result := by
  have hrange : (∀ value ∈ values, (value : ℤ) ≤ CInt.intMax) ↔
      ∀ value ∈ values, value < 2 ^ 31 := by
    refine forall₂_congr fun value _ => ?_
    unfold CInt.intMax
    omega
  unfold int32Counts
  rw [← hrange]
  split <;> simp_all

theorem int32Tensor_eq_ok_iff {values result : List ℤ} :
    int32Tensor values = .ok result ↔ (∀ value ∈ values, Int32 value) ∧ values = result := by
  unfold int32Tensor Int32
  split <;> simp_all

theorem int32Tensor_natCast_eq_ok_iff {result : List ℤ} :
    int32Tensor (values.map Nat.cast) = .ok result ↔
      (∀ value ∈ values, value < 2 ^ 31) ∧ values.map Nat.cast = result := by
  rw [int32Tensor_eq_ok_iff, List.forall_mem_map]
  simp only [int32_natCast]

theorem mapM_int32Tensor_eq_ok_iff {result : List (List ℤ)} :
    tables.mapM int32Tensor = .ok result ↔
      (∀ table ∈ tables, ∀ block ∈ table, Int32 block) ∧ tables = result :=
  Except.mapM_eq_ok_iff fun _ _ => int32Tensor_eq_ok_iff

end Int32

namespace GPUInputBatch

/-- The lists with an entry for each row of a decode batch hold nothing out of range. -/
structure RowsFitInt32 (input : GPUInputBatch) : Prop where
  positions : ∀ position ∈ input.positions, position < 2 ^ 31
  slotMapping : ∀ slot ∈ input.slotMapping, slot < 2 ^ 31
  seqLens : ∀ seqLen ∈ input.seqLens, seqLen < 2 ^ 31
  blockTables : ∀ table ∈ input.blockTables, ∀ block ∈ table, Int32 block

/-- None of the lists that become int32 tensors holds anything out of range. -/
structure FitsInt32 (input : GPUInputBatch) : Prop extends RowsFitInt32 input where
  queryStartLoc : ∀ start ∈ input.queryStartLoc, start < 2 ^ 31
  requestIndices : ∀ request ∈ AttentionMetadata.requestIndicesOf input.queryStartLoc
    input.numRequests, request < 2 ^ 31

end GPUInputBatch

namespace AttentionMetadata

variable {blockSize width : ℕ} {input : GPUInputBatch}

/-- A pad entry is in range, so padding changes nothing about a table's range. -/
theorem forall_int32_padded {table : List ℤ} {count : ℕ} :
    (∀ block ∈ table ++ List.replicate count (-1), Int32 block) ↔ ∀ block ∈ table, Int32 block := by
  refine ⟨fun h block hblock => h block (List.mem_append_left _ hblock), fun h block hblock => ?_⟩
  rcases List.mem_append.mp hblock with hblock | hblock
  · exact h block hblock
  · rw [(List.mem_replicate.mp hblock).2]
    unfold Int32 CInt.intMin CInt.intMax
    omega

/-- `from_batch` returns the lists of the batch, with the tables padded once more, as long as
the tables fit the width and every value fits 32 bits. -/
theorem fromBatch_eq_ok_iff {maxBlocks : Option ℕ} {metadata : AttentionMetadata} :
    fromBatch input blockSize maxBlocks = .ok metadata ↔
      ∃ width, input.tableWidth = .ok width ∧ width ≤ paddedWidth maxBlocks width ∧
        input.FitsInt32 ∧ metadata =
          { positions := input.positions
            slotMapping := input.slotMapping.map Nat.cast
            queryStartLoc := input.queryStartLoc
            seqLens := input.seqLens
            blockTables := input.blockTables.map fun table =>
              table ++ List.replicate (paddedWidth maxBlocks width - table.length) (-1)
            requestIndices := requestIndicesOf input.queryStartLoc input.numRequests
            isDecode := input.isDecode
            activeMask := List.replicate input.numTokens true
            blockSize := blockSize } := by
  have htables : ∀ width, (∀ table ∈ input.blockTables.map fun table =>
      table ++ List.replicate (paddedWidth maxBlocks width - table.length) (-1),
        ∀ block ∈ table, Int32 block) ↔
      ∀ table ∈ input.blockTables, ∀ block ∈ table, Int32 block := by
    intro width
    rw [List.forall_mem_map]
    exact forall₂_congr fun table _ => forall_int32_padded
  constructor
  · intro h
    obtain ⟨width, hwidth, h⟩ := Except.bind_eq_ok_iff.mp h
    dsimp only at h
    split at h
    · cases h
    · rename_i hle
      obtain ⟨_, hpos, h⟩ := Except.bind_eq_ok_iff.mp h
      obtain ⟨_, hmap, h⟩ := Except.bind_eq_ok_iff.mp h
      obtain ⟨_, hloc, h⟩ := Except.bind_eq_ok_iff.mp h
      obtain ⟨_, hlen, h⟩ := Except.bind_eq_ok_iff.mp h
      obtain ⟨_, htab, h⟩ := Except.bind_eq_ok_iff.mp h
      obtain ⟨_, hind, h⟩ := Except.bind_eq_ok_iff.mp h
      obtain ⟨hpositions, rfl⟩ := int32Counts_eq_ok_iff.mp hpos
      obtain ⟨hslots, rfl⟩ := int32Tensor_natCast_eq_ok_iff.mp hmap
      obtain ⟨hstarts, rfl⟩ := int32Counts_eq_ok_iff.mp hloc
      obtain ⟨hseqLens, rfl⟩ := int32Counts_eq_ok_iff.mp hlen
      obtain ⟨hconverted, rfl⟩ := mapM_int32Tensor_eq_ok_iff.mp htab
      obtain ⟨hindices, rfl⟩ := int32Counts_eq_ok_iff.mp hind
      exact ⟨width, hwidth, Nat.le_of_not_lt hle, ⟨⟨hpositions, hslots, hseqLens,
        (htables width).mp hconverted⟩, hstarts, hindices⟩, (Except.ok.inj h).symm⟩
  · rintro ⟨width, hwidth, hle, hfits, rfl⟩
    rw [fromBatch, hwidth, Except.ok_bind]
    dsimp only
    rw [if_neg (Nat.not_lt.mpr hle), int32Counts_eq_ok_iff.mpr ⟨hfits.positions, rfl⟩,
      Except.ok_bind, int32Tensor_natCast_eq_ok_iff.mpr ⟨hfits.slotMapping, rfl⟩, Except.ok_bind,
      int32Counts_eq_ok_iff.mpr ⟨hfits.queryStartLoc, rfl⟩, Except.ok_bind,
      int32Counts_eq_ok_iff.mpr ⟨hfits.seqLens, rfl⟩, Except.ok_bind,
      mapM_int32Tensor_eq_ok_iff.mpr ⟨(htables width).mpr hfits.blockTables, rfl⟩, Except.ok_bind,
      int32Counts_eq_ok_iff.mpr ⟨hfits.requestIndices, rfl⟩, Except.ok_bind]
    rfl

theorem fitsInt32_of_fromBatch {maxBlocks : Option ℕ} {metadata : AttentionMetadata}
    (h : fromBatch input blockSize maxBlocks = .ok metadata) : input.FitsInt32 := by
  obtain ⟨_, _, _, hfits, _⟩ := fromBatch_eq_ok_iff.mp h
  exact hfits

theorem exists_fromBatch (hwidth : input.tableWidth = .ok width) :
    (∃ metadata, fromBatch input blockSize none = .ok metadata) ↔ input.FitsInt32 := by
  constructor
  · exact fun ⟨_, h⟩ => fitsInt32_of_fromBatch h
  · exact fun hfits => ⟨_, fromBatch_eq_ok_iff.mpr ⟨width, hwidth, le_rfl, hfits, rfl⟩⟩

theorem eq_of_fromBatch {maxBlocks : Option ℕ} {metadata : AttentionMetadata}
    (h : fromBatch input blockSize maxBlocks = .ok metadata) :
    ∃ width tableWidth, input.tableWidth = .ok width ∧ width ≤ tableWidth ∧ metadata =
      { positions := input.positions
        slotMapping := input.slotMapping.map Nat.cast
        queryStartLoc := input.queryStartLoc
        seqLens := input.seqLens
        blockTables := input.blockTables.map fun table =>
          table ++ List.replicate (tableWidth - table.length) (-1)
        requestIndices := requestIndicesOf input.queryStartLoc input.numRequests
        isDecode := input.isDecode
        activeMask := List.replicate input.numTokens true
        blockSize := blockSize } := by
  obtain ⟨width, hwidth, hle, _, hmetadata⟩ := fromBatch_eq_ok_iff.mp h
  exact ⟨width, _, hwidth, hle, hmetadata⟩

theorem requestIndices_of_fromBatch {maxBlocks : Option ℕ} {metadata : AttentionMetadata}
    (h : fromBatch input blockSize maxBlocks = .ok metadata) :
    metadata.requestIndices = requestIndicesOf input.queryStartLoc input.numRequests := by
  obtain ⟨_, _, _, _, rfl⟩ := eq_of_fromBatch h
  rfl

/-- The slots of the rows. None of them is negative in the metadata of a batch. -/
def slots (metadata : AttentionMetadata) : List ℕ :=
  metadata.slotMapping.map Int.toNat

theorem slots_of_fromBatch {maxBlocks : Option ℕ}
    {metadata : AttentionMetadata}
    (h : fromBatch input blockSize maxBlocks = .ok metadata) :
    metadata.slots = input.slotMapping := by
  obtain ⟨_, _, _, _, rfl⟩ := eq_of_fromBatch h
  rw [slots, List.map_map]
  exact (List.map_congr_left fun slot _ => Int.toNat_natCast slot).trans (List.map_id _)

end AttentionMetadata

end MiniVLLM
