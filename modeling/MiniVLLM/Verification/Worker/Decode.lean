import MiniVLLM.Verification.Worker.Graph

/-! # The forward pass on decode rows

With one row for each request, every row attends on its own. So inactive padding rows
change neither the other rows nor the caches, and a second pass finds what the first wrote. -/

namespace MiniVLLM

variable {Hidden Query KeyValue Attention Logits : Type}

/-! ## Writing to a cache -/

namespace LlamaDecoderLayer

/-- What `append_kv_` writes does not depend on the cache it writes to. -/
theorem appendKv_eq (slots : List ℤ) (mask : List Bool) (values : List KeyValue) :
    ∃ written : ℕ → Option KeyValue, ∀ cache : LayerCache KeyValue,
      appendKv cache slots mask values = fun slot => (written slot).getD (cache slot) := by
  induction slots generalizing mask values with
  | nil => exact ⟨fun _ => none, fun cache => by simp [appendKv]⟩
  | cons slot slots ih =>
      cases mask with
      | nil => exact ⟨fun _ => none, fun cache => by simp [appendKv]⟩
      | cons active mask =>
          cases values with
          | nil => exact ⟨fun _ => none, fun cache => by simp [appendKv]⟩
          | cons value values =>
              obtain ⟨written, hwritten⟩ := ih mask values
              refine ⟨fun s => (written s).or (if active ∧ s = slot.toNat then some value else none), ?_⟩
              intro cache
              rw [appendKv, hwritten]
              funext s
              dsimp only
              cases hw : written s with
              | some later => simp
              | none => cases active <;> by_cases hs : s = slot.toNat <;> simp [hs, Function.update]

theorem appendKv_idem (cache : LayerCache KeyValue) (slots : List ℤ) (mask : List Bool)
    (values : List KeyValue) :
    appendKv (appendKv cache slots mask values) slots mask values =
      appendKv cache slots mask values := by
  obtain ⟨written, hwritten⟩ := appendKv_eq slots mask values
  rw [hwritten, hwritten]
  funext slot
  cases hw : written slot <;> simp [hw]

theorem appendKv_inactive (cache : LayerCache KeyValue) (slots : List ℤ) (count : ℕ)
    (values : List KeyValue) :
    appendKv cache slots (List.replicate count false) values = cache := by
  induction slots generalizing count values with
  | nil => simp [appendKv]
  | cons slot slots ih =>
      cases count with
      | zero => simp [appendKv]
      | succ count =>
          cases values with
          | nil => simp [appendKv]
          | cons value values => simpa [List.replicate_succ, appendKv] using ih count values

theorem appendKv_append_inactive (cache : LayerCache KeyValue) {slots : List ℤ} {count : ℕ}
    {values : List KeyValue} (hslots : slots.length = count) (hvalues : values.length = count)
    (scratch : List ℤ) (padding : ℕ) (extra : List KeyValue) :
    appendKv cache (slots ++ scratch) (List.replicate count true ++ List.replicate padding false)
        (values ++ extra) =
      appendKv cache slots (List.replicate count true) values := by
  induction slots generalizing cache count values with
  | nil =>
      obtain rfl : 0 = count := hslots
      obtain rfl := List.length_eq_zero_iff.mp hvalues
      simpa [appendKv] using appendKv_inactive cache scratch padding extra
  | cons slot slots ih =>
      obtain ⟨count, rfl⟩ : ∃ k, count = k + 1 := ⟨slots.length, hslots.symm⟩
      cases values with
      | nil => cases hvalues
      | cons value values =>
          simpa [List.replicate_succ, appendKv] using
            ih _ (Nat.succ.inj hslots) (Nat.succ.inj hvalues)

end LlamaDecoderLayer

/-! ## One row for each request -/

/-- The metadata of `rows` decode requests. -/
structure DecodeRows (rows : ℕ) (metadata : AttentionMetadata) : Prop where
  queryStartLoc : metadata.queryStartLoc = List.range (rows + 1)
  requestIndices : metadata.requestIndices = List.range rows
  isDecode : metadata.isDecode = List.replicate rows true
  seqLens : metadata.seqLens.length = rows

namespace LlamaDecoderLayer

variable {layer : LlamaDecoderLayer Hidden Query KeyValue Attention} {rows : ℕ}
  {metadata : AttentionMetadata}

/-- What a row attends to: inactive rows stay zero. -/
def attendRow (layer : LlamaDecoderLayer Hidden Query KeyValue Attention)
    (cache : LayerCache KeyValue) (metadata : AttentionMetadata) (query : Query) (row : ℕ) :
    Attention :=
  if metadata.activeMask.getD row false = false then layer.zeros
  else layer.attend query (readContext cache metadata.blockSize
    (metadata.blockTables.getD row []) (metadata.seqLens.getD row 0))

theorem getD_range {n i : ℕ} (h : i < n) (d : ℕ) : (List.range n).getD i d = i := by
  rw [List.getD_eq_getElem?_getD, List.getElem?_range h]
  rfl

theorem flashPrefill_eq (h : DecodeRows rows metadata) (cache : LayerCache KeyValue)
    {queries : List Query} (hqueries : queries.length = rows) :
    layer.flashPrefill cache metadata queries = List.replicate rows layer.zeros := by
  refine List.eq_replicate_iff.mpr ⟨by simp [flashPrefill, hqueries], ?_⟩
  intro attention hattention
  obtain ⟨⟨query, token⟩, hmem, rfl⟩ := List.mem_map.mp hattention
  have htoken : token < rows := hqueries ▸ (List.mem_zipIdx' hmem).1
  have hdecode : metadata.isDecode.getD (metadata.requestIndices.getD token 0) false = true := by
    rw [h.requestIndices, getD_range htoken, h.isDecode, List.getD_eq_getElem?_getD,
      List.getElem?_replicate, if_pos htoken]
    rfl
  simp only [hdecode, or_true, if_true]

theorem decodeRequest_eq (h : DecodeRows rows metadata) (cache : LayerCache KeyValue)
    {queries : List Query} {row : ℕ} (hrow : row < rows) {query : Query}
    (hquery : queries[row]? = some query) {output : List Attention}
    (hzero : output[row]? = some layer.zeros) :
    layer.decodeRequest cache metadata queries output row =
      output.set row (layer.attendRow cache metadata query row) := by
  have htoken : metadata.queryStartLoc.getD row 0 = row := by
    rw [h.queryStartLoc, getD_range (Nat.lt_succ_of_lt hrow)]
  have hdecode : metadata.isDecode.getD row false = true := by
    rw [h.isDecode, List.getD_eq_getElem?_getD, List.getElem?_replicate, if_pos hrow]
    rfl
  rw [decodeRequest, htoken, hquery]
  dsimp only
  rw [attendRow, hdecode]
  by_cases hactive : metadata.activeMask.getD row false = false
  · rw [if_pos (Or.inr hactive), if_pos hactive]
    refine (List.ext_getElem? fun i => ?_)
    rw [List.getElem?_set]
    split
    · rename_i hi
      subst hi
      rw [hzero]
      simp [(List.getElem?_eq_some_iff.mp hzero).1]
    · rfl
  · rw [if_neg (by simpa using hactive), if_neg hactive]

theorem attention_eq (h : DecodeRows rows metadata) (cache : LayerCache KeyValue)
    {queries : List Query} (hqueries : queries.length = rows) :
    layer.attention cache metadata queries =
      queries.zipIdx.map fun (query, row) => layer.attendRow cache metadata query row := by
  -- After `k` turns, the first `k` rows are done and the others are zero.
  have hturns : ∀ k ≤ rows, (List.range k).foldl (layer.decodeRequest cache metadata queries)
      (layer.flashPrefill cache metadata queries) =
        ((queries.take k).zipIdx.map fun (query, row) => layer.attendRow cache metadata query row)
          ++ List.replicate (rows - k) layer.zeros := by
    intro k
    induction k with
    | zero => intro _; simpa using flashPrefill_eq h cache hqueries
    | succ k ih =>
        intro hk
        have hlt : k < queries.length := hqueries ▸ hk
        have hquery : queries[k]? = some queries[k] := List.getElem?_eq_getElem hlt
        have hlen : ((queries.take k).zipIdx.map
            fun (query, row) => layer.attendRow cache metadata query row).length = k := by
          rw [List.length_map, List.length_zipIdx, List.length_take, Nat.min_eq_left hlt.le]
        have hzeros : List.replicate (rows - k) layer.zeros =
            layer.zeros :: List.replicate (rows - (k + 1)) layer.zeros := by
          rw [← List.replicate_succ]
          congr 1
          omega
        rw [List.range_succ, List.foldl_append, ih (Nat.le_of_succ_le hk), List.foldl_cons,
          List.foldl_nil, hzeros, decodeRequest_eq h cache hk hquery, List.set_append_right _ _ hlen.le,
          hlen, Nat.sub_self, List.set_cons_zero, ← List.take_concat_get' queries k hlt,
          List.zipIdx_append, List.map_append, List.append_assoc, List.length_take,
          Nat.min_eq_left hlt.le]
        · simp
        · rw [List.getElem?_append_right hlen.le, hlen, Nat.sub_self]
          rfl
  rw [attention, h.seqLens, hturns rows le_rfl, Nat.sub_self, ← hqueries]
  simp

theorem attendRow_active {cache : LayerCache KeyValue} {query : Query} {row : ℕ}
    (h : metadata.activeMask.getD row false = true) :
    layer.attendRow cache metadata query row =
      layer.attend query (readContext cache metadata.blockSize
        (metadata.blockTables.getD row []) (metadata.seqLens.getD row 0)) := by
  rw [attendRow, h, if_neg (by simp)]

theorem readContext_congr (cache : LayerCache KeyValue) {blockSize contextLen : ℕ}
    {table table' : List ℤ}
    (h : ∀ token < contextLen, table.getD (token / blockSize) 0 = table'.getD (token / blockSize) 0) :
    readContext cache blockSize table contextLen = readContext cache blockSize table' contextLen := by
  refine List.map_congr_left (fun token htoken => ?_)
  rw [h token (List.mem_range.mp htoken)]

end LlamaDecoderLayer

/-! ## Padding rows -/

/-- The metadata `padded` has the rows of `metadata` first, and inactive rows after them. -/
structure PaddedRows (n padding : ℕ) (metadata padded : AttentionMetadata) : Prop where
  rows : DecodeRows n metadata
  paddedRows : DecodeRows (n + padding) padded
  activeMask : metadata.activeMask = List.replicate n true
  paddedMask : padded.activeMask = List.replicate n true ++ List.replicate padding false
  slots : metadata.slotMapping.length = n
  scratch : ∃ scratch, padded.slotMapping = metadata.slotMapping ++ scratch
  blockSize : padded.blockSize = metadata.blockSize
  seqLens : ∀ row < n, padded.seqLens.getD row 0 = metadata.seqLens.getD row 0
  blocks : ∀ row < n, ∀ token < metadata.seqLens.getD row 0,
    (padded.blockTables.getD row []).getD (token / metadata.blockSize) 0 =
      (metadata.blockTables.getD row []).getD (token / metadata.blockSize) 0

section Padding

variable {n padding : ℕ} {metadata padded : AttentionMetadata}

namespace LlamaDecoderLayer

variable (layer : LlamaDecoderLayer Hidden Query KeyValue Attention)

theorem attendRow_padded (h : PaddedRows n padding metadata padded) (cache : LayerCache KeyValue)
    (query : Query) {row : ℕ} (hrow : row < n) :
    layer.attendRow cache padded query row = layer.attendRow cache metadata query row := by
  have hactive : metadata.activeMask.getD row false = true := by
    rw [h.activeMask, List.getD_eq_getElem?_getD, List.getElem?_replicate, if_pos hrow]
    rfl
  have hpadded : padded.activeMask.getD row false = true := by
    rw [h.paddedMask, List.getD_eq_getElem?_getD, List.getElem?_append_left (by simpa using hrow),
      List.getElem?_replicate, if_pos hrow]
    rfl
  rw [attendRow_active hactive, attendRow_active hpadded, h.blockSize, h.seqLens row hrow,
    readContext_congr cache (h.blocks row hrow)]

/-- One layer on padded rows: the rows of the batch and the cache come out the same. -/
theorem forward_padded (h : PaddedRows n padding metadata padded) {positions : List ℕ}
    {hidden : List Hidden} (hpositions : positions.length = n) (hhidden : hidden.length = n)
    {extraPositions : List ℕ} {extra : List Hidden} (hextraPositions : extraPositions.length = padding)
    (hextra : extra.length = padding) (cache : LayerCache KeyValue) :
    ∃ rest, rest.length = padding ∧
      layer.forward padded (positions ++ extraPositions) (hidden ++ extra) cache =
        ((layer.forward metadata positions hidden cache).1 ++ rest,
          (layer.forward metadata positions hidden cache).2) := by
  obtain ⟨scratch, hscratch⟩ := h.scratch
  have hlen : hidden.length = positions.length := hhidden.trans hpositions.symm
  have hrows : (List.zipWith layer.project hidden positions).length = n := by
    rw [List.length_zipWith, hhidden, hpositions, Nat.min_self]
  have hextras : (List.zipWith layer.project extra extraPositions).length = padding := by
    rw [List.length_zipWith, hextra, hextraPositions, Nat.min_self]
  simp only [forward, List.zipWith_append hlen, List.map_append, hscratch, h.paddedMask,
    h.activeMask]
  generalize List.zipWith layer.project hidden positions = projected at hrows ⊢
  generalize List.zipWith layer.project extra extraPositions = projectedExtra at hextras ⊢
  rw [appendKv_append_inactive cache h.slots (by rw [List.length_map, hrows]) scratch padding]
  generalize appendKv cache metadata.slotMapping (List.replicate n true)
    (projected.map Prod.snd) = written
  rw [attention_eq h.paddedRows written (by simp [hrows, hextras]),
    attention_eq h.rows written (by simp [hrows]), List.zipIdx_append, List.map_append,
    List.zipWith_append (by simp [hhidden, hrows])]
  have hsame : (projected.map Prod.fst).zipIdx.map
      (fun (query, row) => layer.attendRow written padded query row) =
      (projected.map Prod.fst).zipIdx.map
        (fun (query, row) => layer.attendRow written metadata query row) := by
    refine List.map_congr_left (fun entry hentry => ?_)
    have hrow := (List.mem_zipIdx' hentry).1
    rw [List.length_map, hrows] at hrow
    exact layer.attendRow_padded h written entry.1 hrow
  refine ⟨_, ?_, by rw [hsame]⟩
  simp [hextra, hextras]

/-- A second pass over the same rows writes the same values. -/
theorem forward_idem (metadata : AttentionMetadata) (positions : List ℕ) (hidden : List Hidden)
    (cache : LayerCache KeyValue) :
    layer.forward metadata positions hidden (layer.forward metadata positions hidden cache).2 =
      layer.forward metadata positions hidden cache := by
  simp only [forward, appendKv_idem]

theorem length_forward (h : DecodeRows n metadata) {positions : List ℕ} {hidden : List Hidden}
    (hpositions : positions.length = n) (hhidden : hidden.length = n)
    (cache : LayerCache KeyValue) :
    (layer.forward metadata positions hidden cache).1.length = n := by
  have hrows : (List.zipWith layer.project hidden positions).length = n := by
    rw [List.length_zipWith, hhidden, hpositions, Nat.min_self]
  simp only [forward]
  rw [attention_eq h _ (by rw [List.length_map, hrows])]
  simp [hhidden, hpositions]

end LlamaDecoderLayer

namespace LlamaForCausalLM

/-- The layers on padded rows, one after the other. -/
theorem forwardLayers_padded (h : PaddedRows n padding metadata padded) {positions : List ℕ}
    (hpositions : positions.length = n) {extraPositions : List ℕ}
    (hextraPositions : extraPositions.length = padding)
    (layers : List (LlamaDecoderLayer Hidden Query KeyValue Attention)) {hidden : List Hidden}
    (hhidden : hidden.length = n) {extra : List Hidden} (hextra : extra.length = padding)
    (caches : List (LayerCache KeyValue)) :
    (forwardLayers metadata positions layers hidden caches).1.length = n ∧
      ∃ rest, rest.length = padding ∧
        forwardLayers padded (positions ++ extraPositions) layers (hidden ++ extra) caches =
          ((forwardLayers metadata positions layers hidden caches).1 ++ rest,
            (forwardLayers metadata positions layers hidden caches).2) := by
  induction layers generalizing hidden extra caches with
  | nil => exact ⟨hhidden, extra, hextra, rfl⟩
  | cons layer layers ih =>
      cases caches with
      | nil => exact ⟨hhidden, extra, hextra, rfl⟩
      | cons cache caches =>
          obtain ⟨rest, hrest, hforward⟩ := layer.forward_padded h hpositions hhidden
            hextraPositions hextra cache
          have hlength := layer.length_forward h.rows hpositions hhidden cache
          obtain ⟨hlen, rest', hrest', hlayers⟩ := ih hlength hrest caches
          refine ⟨hlen, rest', hrest', ?_⟩
          simp only [forwardLayers, hforward, hlayers]

theorem forwardLayers_idem (metadata : AttentionMetadata) (positions : List ℕ)
    (layers : List (LlamaDecoderLayer Hidden Query KeyValue Attention)) (hidden : List Hidden)
    (caches : List (LayerCache KeyValue)) :
    forwardLayers metadata positions layers hidden
        (forwardLayers metadata positions layers hidden caches).2 =
      forwardLayers metadata positions layers hidden caches := by
  induction layers generalizing hidden caches with
  | nil => rfl
  | cons layer layers ih =>
      cases caches with
      | nil => rfl
      | cons cache caches => simp only [forwardLayers, layer.forward_idem, ih]

variable (model : LlamaForCausalLM Hidden Query KeyValue Attention Logits)

/-- The model on padded rows: the logits of the batch come first, the caches are the same. -/
theorem forward_padded (h : PaddedRows n padding metadata padded)
    {inputIds positions extraIds extraPositions : List ℕ} (hinputIds : inputIds.length = n)
    (hpositions : positions.length = n) (hextraIds : extraIds.length = padding)
    (hextraPositions : extraPositions.length = padding) (caches : List (LayerCache KeyValue)) :
    (model.forward inputIds positions metadata caches).1.length = n ∧
      ∃ rest, model.forward (inputIds ++ extraIds) (positions ++ extraPositions) padded caches =
        ((model.forward inputIds positions metadata caches).1 ++ rest,
          (model.forward inputIds positions metadata caches).2) := by
  have hhidden : (inputIds.map model.embedTokens).length = n := by rw [List.length_map, hinputIds]
  have hextra : (extraIds.map model.embedTokens).length = padding := by
    rw [List.length_map, hextraIds]
  obtain ⟨hlen, rest, _, hlayers⟩ :=
    forwardLayers_padded h hpositions hextraPositions model.layers hhidden hextra caches
  refine ⟨by rw [forward, List.length_map, hlen], rest.map model.lmHead, ?_⟩
  simp only [forward, List.map_append, hlayers]

theorem forward_idem (inputIds positions : List ℕ) (metadata : AttentionMetadata)
    (caches : List (LayerCache KeyValue)) :
    model.forward inputIds positions metadata
        (model.forward inputIds positions metadata caches).2 =
      model.forward inputIds positions metadata caches := by
  simp only [forward, forwardLayers_idem]

end LlamaForCausalLM

end Padding

end MiniVLLM
