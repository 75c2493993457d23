import MiniVLLM.Verification.Worker.AttentionRows
import MiniVLLM.Verification.Worker.Decode
import MiniVLLM.Verification.Worker.Contents

/-! # A batch through the model

A sequence of its own goes through the layers position by position: each position attends to the
ones up to its own. A flat batch over paged caches computes the same rows for every request,
whatever the requests beside it and wherever a chunk begins. -/

namespace MiniVLLM

variable {Hidden Query KeyValue Attention Logits : Type}

/-! ## One sequence -/

namespace LlamaDecoderLayer

variable (layer : LlamaDecoderLayer Hidden Query KeyValue Attention) (rows : ℕ → Hidden)

def keyValueAt (p : ℕ) : KeyValue := (layer.project (rows p) p).2

/-- What a layer makes of a position. -/
def causalRow (p : ℕ) : Hidden :=
  layer.finish (rows p)
    (layer.attend (layer.project (rows p) p).1 ((List.range (p + 1)).map (layer.keyValueAt rows)))

end LlamaDecoderLayer

namespace LlamaForCausalLM

def rowsAfter (layers : List (LlamaDecoderLayer Hidden Query KeyValue Attention))
    (rows : ℕ → Hidden) : ℕ → Hidden :=
  layers.foldl (fun rows layer => layer.causalRow rows) rows

/-- What the layer at `depth` keeps of a position. -/
def keptAt (layers : List (LlamaDecoderLayer Hidden Query KeyValue Attention)) (rows : ℕ → Hidden)
    (depth p : ℕ) : Option KeyValue :=
  layers[depth]?.map fun layer => layer.keyValueAt (rowsAfter (layers.take depth) rows) p

variable (model : LlamaForCausalLM Hidden Query KeyValue Attention Logits)

def embedded (tokens : List TokenId) (p : ℕ) : Hidden := model.embedTokens (tokens.getD p 0)

def logitsAt (tokens : List TokenId) (p : ℕ) : Logits :=
  model.lmHead (rowsAfter model.layers (model.embedded tokens) p)

/-- What belongs to a position in the cache of the layer at `depth`. -/
def content (depth : ℕ) (tokens : List TokenId) (p : ℕ) : Option KeyValue :=
  keptAt model.layers (model.embedded tokens) depth p

end LlamaForCausalLM

def cellsOf (caches : List (LayerCache KeyValue)) (depth slot : ℕ) : Option KeyValue :=
  caches[depth]?.map (· slot)

/-! ## Causality -/

section Causality

variable {layer : LlamaDecoderLayer Hidden Query KeyValue Attention}
  {layers : List (LlamaDecoderLayer Hidden Query KeyValue Attention)} {rows rows' : ℕ → Hidden}
  {bound : ℕ}

namespace LlamaDecoderLayer

theorem keyValueAt_congr {p : ℕ} (h : rows p = rows' p) :
    layer.keyValueAt rows p = layer.keyValueAt rows' p := by
  rw [keyValueAt, keyValueAt, h]

theorem causalRow_congr {p : ℕ} (h : ∀ q ≤ p, rows q = rows' q) :
    layer.causalRow rows p = layer.causalRow rows' p := by
  have hcontext : (List.range (p + 1)).map (layer.keyValueAt rows) =
      (List.range (p + 1)).map (layer.keyValueAt rows') :=
    List.map_congr_left fun q hq =>
      keyValueAt_congr (h q (Nat.le_of_lt_succ (List.mem_range.mp hq)))
  rw [causalRow, causalRow, h p le_rfl, hcontext]

end LlamaDecoderLayer

namespace LlamaForCausalLM

theorem rowsAfter_congr (h : ∀ q < bound, rows q = rows' q) :
    ∀ p < bound, rowsAfter layers rows p = rowsAfter layers rows' p := by
  induction layers generalizing rows rows' with
  | nil => exact h
  | cons layer layers ih =>
      exact ih fun q hq => LlamaDecoderLayer.causalRow_congr fun q' hq' => h q' (hq'.trans_lt hq)

theorem keptAt_congr (h : ∀ q < bound, rows q = rows' q) (depth : ℕ) :
    ∀ p < bound, keptAt layers rows depth p = keptAt layers rows' depth p := by
  intro p hp
  rw [keptAt, keptAt]
  refine congrArg (fun keep => Option.map keep layers[depth]?) (funext fun layer => ?_)
  exact LlamaDecoderLayer.keyValueAt_congr (rowsAfter_congr h p hp)

variable {model : LlamaForCausalLM Hidden Query KeyValue Attention Logits}

theorem embedded_append (tokens extra : List TokenId) :
    ∀ p < tokens.length, model.embedded (tokens ++ extra) p = model.embedded tokens p := by
  intro p hp
  rw [embedded, embedded, List.getD_append _ _ _ _ hp]

/-- The caches do not depend on later tokens. -/
theorem causal_content (depth : ℕ) : Causal (model.content depth) :=
  fun tokens extra p hp => keptAt_congr (embedded_append tokens extra) depth p hp

end LlamaForCausalLM

end Causality

/-! ## Attention on a batch -/

def batchRows (metadata : AttentionMetadata) (totalTokens : ℕ) {β : Type} (rows : ℕ → ℕ → β) :
    List β :=
  (List.range totalTokens).map fun token =>
    rows (metadata.requestIndices.getD token 0) (metadata.positions.getD token 0)

section Batch

variable {metadata : AttentionMetadata} {totalTokens cacheSlots : ℕ} {request : ℕ → RequestRows}
  {layer : LlamaDecoderLayer Hidden Query KeyValue Attention} {cache : LayerCache KeyValue} {r : ℕ}

namespace LlamaDecoderLayer

/-- The table of a request leads to the slots of its positions. -/
theorem readContext_eq (cache : LayerCache KeyValue)
    (h : metadata.RequestSpec totalTokens cacheSlots r (request r)) {contextLen : ℕ}
    (hle : contextLen ≤ (request r).seqLen) :
    readContext cache metadata.blockSize (metadata.blockTables.getD r []) contextLen =
      (List.range contextLen).map fun p => cache ((request r).slot p) := by
  obtain ⟨table, htable, hblocks⟩ := h.table_eq
  have hrow : metadata.blockTables.getD r [] = table := by
    rw [List.getD_eq_getElem?_getD, htable, Option.getD_some]
  refine List.map_congr_left fun p hp => ?_
  obtain ⟨block, hblock, hslot⟩ := hblocks p ((List.mem_range.mp hp).trans_le hle)
  rw [hrow, List.getD_eq_getElem?_getD, hblock, Option.getD_some, Int.toNat_natCast, hslot]

/-- What a row attends to, once all requests before `count` had their turn. -/
def turnRow (layer : LlamaDecoderLayer Hidden Query KeyValue Attention)
    (metadata : AttentionMetadata) (request : ℕ → RequestRows) (cache : LayerCache KeyValue)
    (query : ℕ → Query) (count token : ℕ) : Attention :=
  let r := metadata.requestIndices.getD token 0
  if (request r).decode = true ∧ count ≤ r then layer.zeros
  else layer.attend (query token)
    ((List.range (metadata.positions.getD token 0 + 1)).map fun p => cache ((request r).slot p))

theorem turnRow_succ {query : ℕ → Query} {count token : ℕ}
    (h : metadata.requestIndices.getD token 0 = count → (request count).decode = false) :
    layer.turnRow metadata request cache query count token =
      layer.turnRow metadata request cache query (count + 1) token := by
  rw [turnRow, turnRow]
  refine if_congr (and_congr_right fun hdecode => ⟨fun hle => ?_, Nat.le_of_succ_le⟩) rfl rfl
  refine Nat.lt_of_le_of_ne hle fun heq => ?_
  rw [← heq, h heq.symm] at hdecode
  exact Bool.false_ne_true hdecode

theorem active_getD (h : metadata.BatchSpec totalTokens cacheSlots request) {token : ℕ}
    (htoken : token < totalTokens) : metadata.activeMask.getD token false = true := by
  rw [h.activeMask_eq, List.getD_eq_getElem?_getD, List.getElem?_replicate_of_lt htoken,
    Option.getD_some]

theorem isDecode_getD (h : metadata.RequestSpec totalTokens cacheSlots r (request r)) :
    metadata.isDecode.getD r false = (request r).decode := by
  rw [List.getD_eq_getElem?_getD, h.decode_eq, Option.getD_some]

theorem flashPrefill_eq_turn (h : metadata.BatchSpec totalTokens cacheSlots request)
    (query : ℕ → Query) :
    layer.flashPrefill cache metadata ((List.range totalTokens).map query) =
      (List.range totalTokens).map (layer.turnRow metadata request cache query 0) := by
  refine List.ext_getElem? fun token => ?_
  rw [flashPrefill, List.getElem?_map, List.getElem?_zipIdx, Nat.zero_add, List.getElem?_map,
    List.getElem?_map]
  by_cases htoken : token < totalTokens
  · obtain ⟨r, _, hspec, _, hlt, _, hindex, _, hposition⟩ := h.exists_request htoken
    have hlength := hspec.length_le
    have hcontext := readContext_eq cache hspec
      (show metadata.positions.getD token 0 + 1 ≤ (request r).seqLen by omega)
    rw [List.getElem?_range htoken, Option.map_some, Option.map_some, Option.map_some,
      Option.map_some]
    simp only [turnRow, hindex, active_getD h htoken, isDecode_getD hspec, Bool.true_eq_false,
      false_or, Nat.zero_le, and_true, hcontext]
  · rw [List.getElem?_eq_none (by rw [List.length_range]; omega)]
    rfl

/-- The turn of a request fills its row if it decodes. -/
theorem decodeRequest_eq_turn (h : metadata.BatchSpec totalTokens cacheSlots request)
    (query : ℕ → Query) (hr : r < metadata.seqLens.length) :
    layer.decodeRequest cache metadata ((List.range totalTokens).map query)
        ((List.range totalTokens).map (layer.turnRow metadata request cache query r)) r =
      (List.range totalTokens).map (layer.turnRow metadata request cache query (r + 1)) := by
  have hspec := h.rows r hr
  have hstart := hspec.start_lt.trans_le hspec.stop_le
  have hindex : metadata.queryStartLoc.getD r 0 = (request r).start := by
    rw [List.getD_eq_getElem?_getD, hspec.start_eq, Option.getD_some]
  have hquery : ((List.range totalTokens).map query)[(request r).start]? =
      some (query (request r).start) := by
    rw [List.getElem?_map, List.getElem?_range hstart, Option.map_some]
  rw [decodeRequest, hindex, hquery]
  dsimp only
  rw [isDecode_getD hspec, active_getD h hstart]
  cases hmode : (request r).decode with
  | false =>
      rw [if_pos (Or.inl rfl)]
      refine List.map_congr_left fun token htoken => ?_
      exact turnRow_succ fun _ => hmode
  | true =>
      have hsingle := hspec.decode_single hmode
      have hlength := hspec.length_le
      have hseqLen : metadata.seqLens.getD r 0 = (request r).seqLen := by
        rw [List.getD_eq_getElem?_getD, hspec.seqLen_eq, Option.getD_some]
      obtain ⟨r', hr', _, hle', hlt', _, howner, _, hposition⟩ := h.exists_request hstart
      obtain rfl := h.request_unique hr' hr hle' hlt' le_rfl hspec.start_lt
      have hcontext : metadata.positions.getD (request r').start 0 + 1 = (request r').seqLen := by
        omega
      rw [if_neg (by simp), hseqLen, readContext_eq cache hspec le_rfl]
      refine List.ext_getElem? fun token => ?_
      rw [List.getElem?_set, List.length_map, List.length_range]
      by_cases hself : (request r').start = token
      · subst hself
        rw [if_pos rfl, if_pos hstart, List.getElem?_map, List.getElem?_range hstart,
          Option.map_some, turnRow, howner, if_neg (fun hturn => Nat.not_succ_le_self _ hturn.2),
          hcontext]
      · rw [if_neg hself, List.getElem?_map, List.getElem?_map]
        by_cases htoken : token < totalTokens
        · rw [List.getElem?_range htoken, Option.map_some, Option.map_some]
          obtain ⟨other, hother, _, hle, hlt, _, hindex', _⟩ := h.exists_request htoken
          refine congrArg some (turnRow_succ fun hsame => ?_)
          rw [hindex'] at hsame
          subst hsame
          omega
        · rw [List.getElem?_eq_none (by rw [List.length_range]; omega)]
          rfl

/-- Every row of a batch attends to the positions of its request up to its own. -/
theorem attention_eq_batch (h : metadata.BatchSpec totalTokens cacheSlots request)
    (query : ℕ → Query) :
    layer.attention cache metadata ((List.range totalTokens).map query) =
      (List.range totalTokens).map fun token => layer.attend (query token)
        ((List.range (metadata.positions.getD token 0 + 1)).map fun p =>
          cache ((request (metadata.requestIndices.getD token 0)).slot p)) := by
  have hturns : ∀ count ≤ metadata.seqLens.length,
      (List.range count).foldl (layer.decodeRequest cache metadata
        ((List.range totalTokens).map query))
        (layer.flashPrefill cache metadata ((List.range totalTokens).map query)) =
      (List.range totalTokens).map (layer.turnRow metadata request cache query count) := by
    intro count
    induction count with
    | zero => exact fun _ => flashPrefill_eq_turn h query
    | succ count ih =>
        intro hcount
        rw [List.range_succ, List.foldl_append, ih (Nat.le_of_succ_le hcount), List.foldl_cons,
          List.foldl_nil, decodeRequest_eq_turn h query hcount]
  rw [attention, hturns _ le_rfl]
  refine List.map_congr_left fun token htoken => ?_
  obtain ⟨r, hr, _, _, _, _, hindex, _⟩ := h.exists_request (List.mem_range.mp htoken)
  rw [turnRow, hindex, if_neg fun hturn => Nat.not_le.mpr hr hturn.2]

/-! ## A layer on a batch -/

theorem appendKv_of_not_mem {slot : ℕ} (slots : List ℤ) (mask : List Bool)
    (values : List KeyValue) (h : slot ∉ slots.map Int.toNat) :
    appendKv cache slots mask values slot = cache slot := by
  induction slots generalizing cache mask values with
  | nil => rw [appendKv]; simp
  | cons head slots ih =>
      rw [List.map_cons, List.mem_cons, not_or] at h
      obtain ⟨hne, hrest⟩ := h
      cases mask with
      | nil => rfl
      | cons active mask =>
          cases values with
          | nil => rfl
          | cons value values =>
              rw [appendKv, ih _ _ hrest]
              cases active with
              | false => rfl
              | true => exact Function.update_of_ne hne _ _

theorem appendKv_getElem? {slots : List ℤ} {values : List KeyValue} {count i slot : ℕ}
    {value : KeyValue} (hnodup : (slots.map Int.toNat).Nodup)
    (hcount : (slots.map Int.toNat).length = count)
    (hslot : (slots.map Int.toNat)[i]? = some slot) (hvalue : values[i]? = some value) :
    appendKv cache slots (List.replicate count true) values slot = value := by
  induction slots generalizing cache values count i with
  | nil => cases hslot
  | cons head slots ih =>
      subst hcount
      cases values with
      | nil => cases hvalue
      | cons first values =>
          obtain ⟨hnot, hnodup⟩ := List.nodup_cons.mp hnodup
          rw [List.map_cons, List.length_cons, List.replicate_succ, appendKv]
          cases i with
          | zero =>
              obtain rfl := Option.some.inj hslot
              obtain rfl := Option.some.inj hvalue
              rw [appendKv_of_not_mem _ _ _ hnot]
              exact Function.update_self ..
          | succ i => exact ih hnodup rfl hslot hvalue

/-- What one layer leaves in its cache: the slots of every request up to its length hold what the
layer keeps of its positions, and the other slots are as they were. -/
structure Kept (metadata : AttentionMetadata) (request : ℕ → RequestRows)
    (value : ℕ → ℕ → KeyValue) (cache cache' : LayerCache KeyValue) : Prop where
  shown : ∀ r < metadata.seqLens.length, ∀ p < (request r).seqLen,
    cache' ((request r).slot p) = value r p
  kept : ∀ slot ∉ metadata.slots, cache' slot = cache slot

end LlamaDecoderLayer

/-- The rows of a batch stand in the slots of their positions, and the slots of the positions
before the chunks are not written. -/
structure AttentionMetadata.AppendSpec (metadata : AttentionMetadata) (totalTokens : ℕ)
    (request : ℕ → RequestRows) : Prop where
  slot_eq : ∀ token < totalTokens, metadata.slots.getD token 0 =
    (request (metadata.requestIndices.getD token 0)).slot (metadata.positions.getD token 0)
  computed : ∀ r < metadata.seqLens.length,
    ∀ p < (request r).seqLen - ((request r).stop - (request r).start),
      (request r).slot p ∉ metadata.slots

namespace LlamaDecoderLayer

/-- The chunk of every request joins what its slots show. -/
theorem appendKv_kept (h : metadata.BatchSpec totalTokens cacheSlots request)
    (happend : metadata.AppendSpec totalTokens request) {value : ℕ → ℕ → KeyValue}
    (hcache : ∀ r < metadata.seqLens.length,
      ∀ p < (request r).seqLen - ((request r).stop - (request r).start),
        cache ((request r).slot p) = value r p) :
    Kept metadata request value cache (appendKv cache metadata.slotMapping metadata.activeMask
      (batchRows metadata totalTokens value)) where
  kept := fun slot hslot => appendKv_of_not_mem _ _ _ hslot
  shown := by
    intro r hr p hp
    by_cases hcomputed : p < (request r).seqLen - ((request r).stop - (request r).start)
    · rw [appendKv_of_not_mem _ _ _ (happend.computed r hr p hcomputed)]
      exact hcache r hr p hcomputed
    · -- Position `p` is the one of a row of this batch.
      have hspec := h.rows r hr
      have hlength := hspec.length_le
      have hstart := hspec.start_lt
      have hstop := hspec.stop_le
      let token := (request r).stop - ((request r).seqLen - p)
      have htoken : token < totalTokens := by omega
      obtain ⟨r', hr', _, hle', hlt', _, hindex, _, hposition⟩ := h.exists_request htoken
      obtain rfl := h.request_unique hr' hr hle' hlt' (by omega) (by omega)
      have hp' : metadata.positions.getD token 0 = p := by omega
      have hslot := happend.slot_eq token htoken
      rw [hindex, hp'] at hslot
      rw [h.activeMask_eq, ← hslot]
      refine appendKv_getElem? h.slots_nodup h.length_slots (h.slot_getD htoken).1 ?_
      rw [batchRows, List.getElem?_map, List.getElem?_range htoken, Option.map_some, hindex, hp']

/-- A layer makes of the rows of every request what it makes of its sequence. -/
theorem forward_eq_causal (h : metadata.BatchSpec totalTokens cacheSlots request)
    (happend : metadata.AppendSpec totalTokens request) {rows : ℕ → ℕ → Hidden}
    (hcache : ∀ r < metadata.seqLens.length,
      ∀ p < (request r).seqLen - ((request r).stop - (request r).start),
        cache ((request r).slot p) = layer.keyValueAt (rows r) p) :
    ∃ cache', layer.forward metadata metadata.positions (batchRows metadata totalTokens rows)
        cache = (batchRows metadata totalTokens fun r => layer.causalRow (rows r), cache') ∧
      Kept metadata request (fun r => layer.keyValueAt (rows r)) cache cache' := by
  have hkept := appendKv_kept h happend hcache
  have hprojected : List.zipWith layer.project (batchRows metadata totalTokens rows)
      metadata.positions = batchRows metadata totalTokens fun r p => layer.project (rows r p) p := by
    conv_lhs => rw [h.positions_eq]
    rw [batchRows, List.zipWith_map, List.zipWith_self]
    rfl
  have hvalues : (batchRows metadata totalTokens fun r p => layer.project (rows r p) p).map
      Prod.snd = batchRows metadata totalTokens fun r => layer.keyValueAt (rows r) :=
    List.map_map
  have hqueries : (batchRows metadata totalTokens fun r p => layer.project (rows r p) p).map
      Prod.fst = (List.range totalTokens).map fun token => (layer.project
        (rows (metadata.requestIndices.getD token 0) (metadata.positions.getD token 0))
          (metadata.positions.getD token 0)).1 :=
    List.map_map
  refine ⟨_, ?_, hkept⟩
  rw [forward, hprojected, hvalues, hqueries]
  refine congrArg (Prod.mk · _) ?_
  rw [attention_eq_batch h, batchRows, List.zipWith_map, List.zipWith_self]
  refine List.map_congr_left fun token htoken => ?_
  obtain ⟨r, hr, hspec, hle, hlt, _, hindex, _, hposition⟩ :=
    h.exists_request (List.mem_range.mp htoken)
  have hlength := hspec.length_le
  show layer.finish _ (layer.attend _ _) = layer.causalRow
    (rows (metadata.requestIndices.getD token 0)) (metadata.positions.getD token 0)
  rw [hindex, causalRow]
  refine congrArg (layer.finish _) (congrArg (layer.attend _) (List.map_congr_left fun p hp => ?_))
  have hp' := List.mem_range.mp hp
  exact hkept.shown r hr p (by omega)

end LlamaDecoderLayer

/-! ## All layers -/

namespace LlamaForCausalLM

/-- The layers make of the rows of every request what they make of its sequence, and every cache
holds what its layer keeps of each request up to its length. -/
theorem forwardLayers_eq_causal (h : metadata.BatchSpec totalTokens cacheSlots request)
    (happend : metadata.AppendSpec totalTokens request)
    {layers : List (LlamaDecoderLayer Hidden Query KeyValue Attention)}
    {caches : List (LayerCache KeyValue)} (hlength : caches.length = layers.length)
    {rows : ℕ → ℕ → Hidden}
    (hcaches : ∀ depth, ∀ r < metadata.seqLens.length,
      ∀ p < (request r).seqLen - ((request r).stop - (request r).start),
        cellsOf caches depth ((request r).slot p) = keptAt layers (rows r) depth p) :
    ∃ caches', forwardLayers metadata metadata.positions layers
        (batchRows metadata totalTokens rows) caches =
          (batchRows metadata totalTokens (fun r => rowsAfter layers (rows r)), caches') ∧
      caches'.length = layers.length ∧
      (∀ depth, ∀ r < metadata.seqLens.length, ∀ p < (request r).seqLen,
        cellsOf caches' depth ((request r).slot p) = keptAt layers (rows r) depth p) ∧
      ∀ depth, ∀ slot ∉ metadata.slots,
        cellsOf caches' depth slot = cellsOf caches depth slot := by
  induction layers generalizing caches rows with
  | nil =>
      obtain rfl := List.length_eq_zero_iff.mp hlength
      exact ⟨[], rfl, rfl, fun _ _ _ _ _ => rfl, fun _ _ _ => rfl⟩
  | cons layer layers ih =>
      cases caches with
      | nil => cases hlength
      | cons cache caches =>
          have hfirst : ∀ r < metadata.seqLens.length,
              ∀ p < (request r).seqLen - ((request r).stop - (request r).start),
                cache ((request r).slot p) = layer.keyValueAt (rows r) p :=
            fun r hr p hp => Option.some.inj (hcaches 0 r hr p hp)
          obtain ⟨cache', hforward, hkept⟩ :=
            LlamaDecoderLayer.forward_eq_causal h happend hfirst
          have hdeeper : ∀ depth, ∀ r < metadata.seqLens.length,
              ∀ p < (request r).seqLen - ((request r).stop - (request r).start),
                cellsOf caches depth ((request r).slot p) =
                  keptAt layers (layer.causalRow (rows r)) depth p :=
            fun depth r hr p hp => hcaches (depth + 1) r hr p hp
          obtain ⟨caches', hrest, hlength', hshown, hother⟩ := ih (Nat.succ.inj hlength) hdeeper
          refine ⟨cache' :: caches', ?_, congrArg Nat.succ hlength', fun depth => ?_,
            fun depth => ?_⟩
          · rw [forwardLayers, hforward]
            dsimp only
            rw [hrest]
            rfl
          · cases depth with
            | zero => exact fun r hr p hp => congrArg some (hkept.shown r hr p hp)
            | succ depth => exact hshown depth
          · cases depth with
            | zero => exact fun slot hslot => congrArg some (hkept.kept slot hslot)
            | succ depth => exact hother depth

end LlamaForCausalLM

end Batch

end MiniVLLM
