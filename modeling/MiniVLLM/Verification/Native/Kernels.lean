import MiniVLLM.Library.Paging
import MiniVLLM.Model.NativeOps

/-! # The kernels of the native runtime

What a launch of each kernel leaves, on every schedule: the cells of the tokens it appends,
and the rows of the requests that attend. -/

namespace MiniVLLM

open Launch NativeInts

variable {α : Type}

/-! ## Indices in range -/

section Indices

variable {blockTable slots : ℤ → Option ℤ} {blockSize headDim index token block slot dim : ℕ}

theorem cacheIndex_natCast (h : slot * headDim + dim < 2 ^ 31) :
    cacheIndex (slot : ℤ) (headDim : ℤ) (dim : ℤ) = some ((slot * headDim + dim : ℕ) : ℤ) :=
  CInt.index_natCast h

theorem appendCacheIndex_natCast (hread : slots (index / headDim : ℕ) = some (slot : ℤ))
    (h : slot * headDim + index % headDim < 2 ^ 31) :
    appendCacheIndex slots (headDim : ℤ) (index : ℤ) =
      some ((slot * headDim + index % headDim : ℕ) : ℤ) := by
  rw [appendCacheIndex, ← Int.ofNat_tdiv, hread, ← Int.ofNat_tmod]
  exact cacheIndex_natCast h

theorem appendCacheIndex_eq_none (hread : slots (index / headDim : ℕ) = some (slot : ℤ))
    (h : 2 ^ 31 ≤ slot * headDim + index % headDim) :
    appendCacheIndex slots (headDim : ℤ) (index : ℤ) = none := by
  rw [appendCacheIndex, ← Int.ofNat_tdiv, hread, ← Int.ofNat_tmod]
  exact CInt.index_natCast_eq_none h

theorem pagedSlot_natCast (hread : blockTable (token / blockSize : ℕ) = some (block : ℤ))
    (h : block * blockSize + token % blockSize < 2 ^ 31) :
    pagedSlot blockTable (blockSize : ℤ) (token : ℤ) =
      some ((block * blockSize + token % blockSize : ℕ) : ℤ) := by
  rw [pagedSlot, ← Int.ofNat_tdiv, hread, ← Int.ofNat_tmod]
  exact CInt.index_natCast h

theorem pagedSlot_eq_none (hread : blockTable (token / blockSize : ℕ) = some (block : ℤ))
    (h : 2 ^ 31 ≤ block * blockSize + token % blockSize) :
    pagedSlot blockTable (blockSize : ℤ) (token : ℤ) = none := by
  rw [pagedSlot, ← Int.ofNat_tdiv, hread, ← Int.ofNat_tmod]
  exact CInt.index_natCast_eq_none h

end Indices

namespace KVCaches

/-- The same cell of both caches. -/
def cell (caches : KVCaches α) (i : ℕ) : Option α × Option α :=
  (caches.keyCache[i]?, caches.valueCache[i]?)

/-- Both caches have `cells` cells. -/
def Sized (cells : ℕ) (caches : KVCaches α) : Prop :=
  caches.keyCache.length = cells ∧ caches.valueCache.length = cells

def set (caches : KVCaches α) (i : ℕ) (key value : α) : KVCaches α where
  keyCache := caches.keyCache.set i key
  valueCache := caches.valueCache.set i value

variable {caches : KVCaches α} {cells j : ℕ} {key value : α}

theorem Sized.set (h : caches.Sized cells) : (caches.set j key value).Sized cells :=
  ⟨(List.length_set ..).trans h.1, (List.length_set ..).trans h.2⟩

theorem Sized.cell_set (h : caches.Sized cells) (hj : j < cells) (i : ℕ) :
    (caches.set j key value).cell i = if i = j then (some key, some value) else caches.cell i := by
  simp only [cell, KVCaches.set, List.getElem?_set]
  by_cases hi : i = j
  · simp [hi, h.1, h.2, hj]
  · simp [hi, Ne.symm hi]

end KVCaches

variable [FloatOps α]

/-! ## Appending -/

def keyEntry (tokenId : ℤ) (dim : ℕ) : α :=
  FloatOps.sin ((tokenId : α) * 0.01 + ((dim : ℤ) : α) * 0.17)

def valueEntry (tokenId : ℤ) (dim : ℕ) : α :=
  FloatOps.sin ((tokenId : α) * 0.01 + ((dim : ℤ) : α) * 0.31)

def cacheEntry (tokenId : ℕ → ℤ) (r dim : ℕ) : Option α × Option α :=
  (some (keyEntry (tokenId r) dim), some (valueEntry (tokenId r) dim))

section Append

variable {tokenIds slots : List ℤ} {tokenId : ℕ → ℤ} {slot : ℕ → ℕ}
  {count headDim capacity : ℕ} {caches : KVCaches α}

theorem appendKernel_stores
    (htoken : ∀ r < count, Buffer.load tokenIds (r : ℕ) = some (tokenId r))
    (hslot : ∀ r < count, Buffer.load slots (r : ℕ) = some (slot r : ℤ))
    (hroom : ∀ r < count, slot r < capacity) (hcells : capacity * headDim ≤ 2 ^ 31)
    (htotal : count * headDim < 2 ^ 31) (hsized : caches.Sized (capacity * headDim))
    (index : ℕ) :
    ∃ caches', appendKernel tokenIds slots count headDim caches index = some caches' ∧
      caches'.Sized (capacity * headDim) ∧
      Stores (rowTarget (cacheEntry tokenId) slot count headDim index) caches.cell
        caches'.cell := by
  rw [appendKernel, CInt.mul_natCast htotal, Option.bind_eq_bind, Option.bind_some]
  by_cases hindex : index < count * headDim
  · obtain ⟨hrow, hdim⟩ := div_mod_of_lt hindex
    have hcell := row_lt (hroom _ hrow) hdim
    have hcache := appendCacheIndex_natCast (hslot _ hrow) (hcell.trans_le hcells)
    refine ⟨caches.set (slot (index / headDim) * headDim + index % headDim)
      (keyEntry (tokenId (index / headDim)) (index % headDim))
      (valueEntry (tokenId (index / headDim)) (index % headDim)), ?_, hsized.set, fun i => ?_⟩
    · rw [if_neg (by omega)]
      simp only [hcache, htoken _ hrow, Buffer.store_natCast _ (hsized.1 ▸ hcell),
        Buffer.store_natCast _ (hsized.2 ▸ hcell), KVCaches.set, keyEntry, valueEntry,
        Option.bind_eq_bind, Option.bind_some, Option.pure_def]
    · rw [hsized.cell_set hcell, rowTarget]
      by_cases hi : i = slot (index / headDim) * headDim + index % headDim
      · rw [if_pos hi, if_pos ⟨hindex, hi⟩]
        rfl
      · rw [if_neg hi, if_neg (fun h => hi h.2)]
        rfl
  · refine ⟨caches, if_pos (by omega), hsized, fun i => ?_⟩
    rw [rowTarget_eq_none (fun h => hindex h.1)]
    rfl

theorem appendBlocks_natCast {total : ℕ} (h : total + 256 < 2 ^ 31) :
    NativeDevice.appendBlocks (total : ℤ) = some ((total + 256 - 1) / 256) := by
  have hceil : CInt.ceilDiv (total : ℤ) ((256 : ℕ) : ℤ) = _ := CInt.ceilDiv_natCast h (by decide)
  rw [NativeDevice.appendBlocks, show (256 : ℤ) = ((256 : ℕ) : ℤ) from rfl, hceil,
    Option.map_some, Int.toNat_natCast]

theorem le_gridThreads (total : ℕ) : total ≤ (total + 256 - 1) / 256 * 256 := by
  omega

/-- A launch of `append_kernel` on slots of their own. -/
theorem exists_launch_appendKernel (schedule : Launch.Schedule)
    (htoken : ∀ r < count, Buffer.load tokenIds (r : ℕ) = some (tokenId r))
    (hslot : ∀ r < count, Buffer.load slots (r : ℕ) = some (slot r : ℤ))
    (hinj : ∀ r < count, ∀ r' < count, slot r = slot r' → r = r')
    (hroom : ∀ r < count, slot r < capacity) (hcells : capacity * headDim ≤ 2 ^ 31)
    (htotal : count * headDim < 2 ^ 31) (hsized : caches.Sized (capacity * headDim)) :
    ∃ caches', schedule.launch ((count * headDim + 256 - 1) / 256 * 256)
        (appendKernel tokenIds slots count headDim) caches = some caches' ∧
      caches'.Sized (capacity * headDim) ∧
      RowsStored (cacheEntry tokenId) slot count headDim caches.cell caches'.cell := by
  obtain ⟨caches', hlaunch, hsized', hscattered⟩ := schedule.exists_launch
    ((count * headDim + 256 - 1) / 256 * 256) KVCaches.cell hsized
    (fun t _ t' _ hne => rowTarget_apart hinj hne)
    (fun caches index _ hsized _ =>
      appendKernel_stores htoken hslot hroom hcells htotal hsized index)
  exact ⟨caches', hlaunch, hsized', hscattered.rowsStored (le_gridThreads _)⟩

end Append

/-! ## Attending -/

def keyScore (key : ℕ → ℕ → α) (headDim query token : ℕ) : α :=
  (List.range headDim).foldl (fun score dim => score + key query dim * key token dim) 0 *
    FloatOps.rsqrt ((headDim : ℤ) : α)

/-- The pass of the last of `count` tokens over all of them. -/
def lastTokenPass (key value : ℕ → ℕ → α) (count headDim : ℕ) : OnlineSoftmax α ℕ :=
  OnlineSoftmax.start.attendAll ((List.range count).map fun token =>
    (keyScore key headDim (count - 1) token, value token))

def lastTokenRow (key value : ℕ → ℕ → α) (count headDim : ℕ) (dim : ℕ) : α :=
  (lastTokenPass key value count headDim).output dim / (lastTokenPass key value count headDim).rowSum

section Attention

variable {keyCache valueCache : ℤ → Option α} {slotOf : ℕ → Option ℤ} {slot : ℕ → ℕ}
  {key value : ℕ → ℕ → α} {count headDim : ℕ}

/-- A token whose slot and cells can be read joins the row. -/
theorem attendToken_eq {query token : ℕ} (hquery : query < count) (htoken : token < count)
    (hslot : slotOf token = some (slot token : ℤ))
    (hkey : ∀ token < count, ∀ dim < headDim,
      (cacheIndex (slot token) headDim dim).bind keyCache = some (key token dim))
    (hvalue : ∀ token < count, ∀ dim < headDim,
      (cacheIndex (slot token) headDim dim).bind valueCache = some (value token dim))
    (row : OnlineSoftmax α ℕ) :
    attendToken keyCache valueCache slotOf headDim (slot query) row token =
      some (row.attend (keyScore key headDim query token)
        fun dim => ((List.range headDim).map (value token)).getD dim 0) := by
  have hscore : (List.range headDim).foldlM
      (fun score (dim : ℕ) => do
        let query ← (cacheIndex (slot query) headDim dim).bind keyCache
        let key ← (cacheIndex (slot token) headDim dim).bind keyCache
        pure (score + query * key)) (0 : α) =
      some ((List.range headDim).foldl
        (fun score dim => score + key query dim * key token dim) 0) := by
    refine Option.foldlM_eq_some (fun score dim hdim => ?_) 0
    have hdim' := List.mem_range.mp hdim
    rw [hkey _ hquery _ hdim', hkey _ htoken _ hdim']
    rfl
  have hrow : (List.range headDim).mapM
      (fun (dim : ℕ) => (cacheIndex (slot token) headDim dim).bind valueCache) =
        some ((List.range headDim).map (value token)) :=
    Option.mapM_eq_some fun dim hdim => hvalue _ htoken _ (List.mem_range.mp hdim)
  rw [attendToken, hslot, Option.bind_eq_bind, Option.bind_some, hscore, Option.bind_eq_bind,
    Option.bind_some, hrow]
  rfl

/-- The first tokens of the loop. Entries of the output beyond `head_dim` are left out. -/
theorem foldlM_attendToken (hcount : 0 < count)
    (hslot : ∀ token < count, slotOf token = some (slot token : ℤ))
    (hkey : ∀ token < count, ∀ dim < headDim,
      (cacheIndex (slot token) headDim dim).bind keyCache = some (key token dim))
    (hvalue : ∀ token < count, ∀ dim < headDim,
      (cacheIndex (slot token) headDim dim).bind valueCache = some (value token dim))
    {n : ℕ} (hn : n ≤ count) :
    (List.range n).foldlM (attendToken keyCache valueCache slotOf headDim (slot (count - 1)))
        OnlineSoftmax.start =
      some (OnlineSoftmax.start.attendAll ((List.range n).map fun token =>
        (keyScore key headDim (count - 1) token,
          fun dim => ((List.range headDim).map (value token)).getD dim 0))) := by
  have hlast : count - 1 < count := by omega
  rw [OnlineSoftmax.attendAll, List.foldl_map]
  refine Option.foldlM_eq_some (fun row token htoken => ?_) _
  have hlt := (List.mem_range.mp htoken).trans_le hn
  exact attendToken_eq hlast hlt (hslot token hlt) hkey hvalue row

theorem lastTokenAttention_eq (hcount : 0 < count)
    (hslot : ∀ token < count, slotOf token = some (slot token : ℤ))
    (hkey : ∀ token < count, ∀ dim < headDim,
      (cacheIndex (slot token) headDim dim).bind keyCache = some (key token dim))
    (hvalue : ∀ token < count, ∀ dim < headDim,
      (cacheIndex (slot token) headDim dim).bind valueCache = some (value token dim)) :
    lastTokenAttention keyCache valueCache slotOf count headDim =
      some ((List.range headDim).map (lastTokenRow key value count headDim)) := by
  have hlast : count - 1 < count := by omega
  rw [lastTokenAttention, hslot _ hlast, Option.bind_eq_bind, Option.bind_some,
    foldlM_attendToken hcount hslot hkey hvalue le_rfl, Option.bind_eq_bind, Option.bind_some]
  refine congrArg some (List.map_congr_left fun dim hdim => ?_)
  exact OnlineSoftmax.quotient_congr (fun _ _ => rfl) (fun token _ => by
    simp [List.getD_eq_getElem?_getD, List.mem_range.mp hdim])

/-- A query whose cells no `int` names. -/
theorem lastTokenAttention_eq_none {querySlot : ℕ} (hcount : 0 < count) (hhead : 0 < headDim)
    (hslot : slotOf (count - 1) = some (querySlot : ℤ)) (hcell : 2 ^ 31 ≤ querySlot * headDim) :
    lastTokenAttention keyCache valueCache slotOf count headDim = none := by
  have hindex : cacheIndex (querySlot : ℤ) (headDim : ℤ) ((0 : ℕ) : ℤ) = none :=
    CInt.index_natCast_eq_none hcell
  have htoken : ∀ row, attendToken keyCache valueCache slotOf headDim querySlot row (count - 1) =
      none := by
    intro row
    have hscore : (List.range headDim).foldlM
        (fun score (dim : ℕ) => do
          let query ← (cacheIndex querySlot headDim dim).bind keyCache
          let key ← (cacheIndex querySlot headDim dim).bind keyCache
          pure (score + query * key)) (0 : α) = none := by
      refine Option.foldlM_eq_none (List.mem_range.mpr hhead) (fun score => ?_) 0
      rw [hindex]
      rfl
    rw [attendToken, hslot]
    exact congrArg (fun score : Option α => score.bind _) hscore
  have hrow := Option.foldlM_eq_none (List.mem_range.mpr (Nat.sub_lt hcount Nat.one_pos)) htoken
    OnlineSoftmax.start
  rw [lastTokenAttention, hslot]
  exact congrArg (fun row : Option (OnlineSoftmax α ℕ) => row.bind _) hrow

end Attention

/-! ## Storing rows -/

section Store

variable {outputs outputs' : List α} {row : List α} {start headDim count : ℕ}

omit [FloatOps α] in
theorem exists_storeRow (h : start + row.length ≤ outputs.length) :
    ∃ outputs', storeRow outputs start row = some outputs' ∧ outputs'.length = outputs.length ∧
      ∀ i, outputs'[i]? =
        if start ≤ i ∧ i < start + row.length then row[i - start]? else outputs[i]? := by
  induction row using List.reverseRecOn with
  | nil =>
      refine ⟨outputs, rfl, rfl, fun i => (if_neg ?_).symm⟩
      simp only [List.length_nil, Nat.add_zero]
      omega
  | append_singleton row value ih =>
      rw [List.length_append, List.length_singleton] at h
      obtain ⟨outputs', hstore, hlength, hcells⟩ := ih (by omega)
      have hlt : start + row.length < outputs'.length := by omega
      refine ⟨outputs'.set (start + row.length) value, ?_, by rw [List.length_set, hlength], ?_⟩
      · rw [storeRow, List.zipIdx_append, List.foldlM_append, show
          row.zipIdx.foldlM _ outputs = some outputs' from hstore, Option.bind_eq_bind,
          Option.bind_some]
        have hset := Buffer.store_natCast value hlt
        simpa using hset
      · intro i
        rw [List.getElem?_set, List.length_append, List.length_singleton]
        by_cases hi : start + row.length = i
        · subst hi
          rw [if_pos rfl, if_pos hlt, if_pos (by omega), Nat.add_sub_cancel_left]
          simp
        · rw [if_neg hi, hcells i]
          by_cases hin : start ≤ i ∧ i < start + row.length
          · rw [if_pos hin, if_pos (by omega), List.getElem?_append_left (by omega)]
          · rw [if_neg hin, if_neg (by omega)]

omit [FloatOps α] in
theorem storeRow_stores {rows width r : ℕ} (entry : ℕ → α) (hrow : r < rows)
    (hroom : rows * width ≤ outputs.length) :
    ∃ outputs', storeRow outputs (r * width) ((List.range width).map entry) = some outputs' ∧
      outputs'.length = outputs.length ∧
      Stores (wholeRow (fun _ dim => some (entry dim)) rows width r) (outputs[·]?)
        (outputs'[·]?) := by
  have hlt : r * width + width ≤ outputs.length := by
    calc r * width + width = (r + 1) * width := by rw [Nat.add_mul, Nat.one_mul]
      _ ≤ rows * width := Nat.mul_le_mul_right _ hrow
      _ ≤ outputs.length := hroom
  have hlength : ((List.range width).map entry).length = width := by simp
  have hfits : r * width + ((List.range width).map entry).length ≤ outputs.length := by
    rw [hlength]
    exact hlt
  obtain ⟨outputs', hstore, hlength', hcells⟩ := exists_storeRow hfits
  rw [hlength] at hcells
  refine ⟨outputs', hstore, hlength', fun i => ?_⟩
  show outputs'[i]? = _
  rw [hcells i, wholeRow]
  by_cases hin : r * width ≤ i ∧ i < r * width + width
  · have hdim : i - r * width < width := by omega
    have hsplit : i = r * width + (i - r * width) := by omega
    have hdiv : i / width = r := by
      rw [hsplit]
      exact row_div _ hdim
    have hmod : i % width = i - r * width := by
      conv_lhs => rw [hsplit]
      exact row_mod _ hdim
    rw [if_pos hin, if_pos ⟨hrow, hdiv, hmod ▸ hdim⟩, hmod, List.getElem?_map,
      List.getElem?_range hdim]
    rfl
  · rw [if_neg hin, if_neg]
    · rfl
    · rintro ⟨_, rfl, hmod⟩
      have hsplit := Nat.div_add_mod' i width
      omega

end Store

/-! ## The batched kernel -/

namespace AttentionInputs

variable {inputs : AttentionInputs α} {request seqLen : ℕ} {start flag : ℤ} {slot : ℕ → ℕ}
  {key value : ℕ → ℕ → α}

/-- The row of a request whose slots and cells can be read. -/
theorem row_eq (hseqLen : inputs.seqLens request = some (seqLen : ℤ)) (hpos : 0 < seqLen)
    (hstart : inputs.contextStartLocs request = some start)
    (hflag : inputs.isDecode request = some flag)
    (hslot : ∀ token < seqLen, inputs.slotOf request start flag token = some (slot token : ℤ))
    (hkey : ∀ token < seqLen, ∀ dim < inputs.headDim,
      (cacheIndex (slot token) inputs.headDim dim).bind inputs.keyCache = some (key token dim))
    (hvalue : ∀ token < seqLen, ∀ dim < inputs.headDim,
      (cacheIndex (slot token) inputs.headDim dim).bind inputs.valueCache = some (value token dim)) :
    inputs.row request = some (some ((List.range inputs.headDim).map
      (lastTokenRow key value seqLen inputs.headDim))) := by
  have hnot : ¬ (seqLen : ℤ) ≤ 0 := by omega
  have hrow := lastTokenAttention_eq hpos hslot hkey hvalue
  rw [row, hseqLen, Option.bind_eq_bind, Option.bind_some, if_neg hnot, hstart,
    Option.bind_eq_bind, Option.bind_some, hflag, Option.bind_some, Int.toNat_natCast]
  exact congrArg (fun output : Option (List α) => output.bind fun row => some (some row)) hrow

/-- A launch with a request whose query has a cell that no `int` names. -/
theorem launch_eq_none {numRequests querySlot : ℕ}
    (hseqLen : inputs.seqLens request = some (seqLen : ℤ)) (hpos : 0 < seqLen)
    (hstart : inputs.contextStartLocs request = some start)
    (hflag : inputs.isDecode request = some flag) (hhead : 0 < inputs.headDim)
    (hslot : inputs.slotOf request start flag (seqLen - 1) = some (querySlot : ℤ))
    (hcell : 2 ^ 31 ≤ querySlot * inputs.headDim) (hrequest : request < numRequests)
    (schedule : Launch.Schedule) (outputs : List α) :
    schedule.launch numRequests (batchedLastTokenAttentionKernel inputs numRequests) outputs =
      none := by
  have hnot : ¬ (seqLen : ℤ) ≤ 0 := by omega
  have hrow : inputs.row request = none := by
    rw [row, hseqLen, Option.bind_eq_bind, Option.bind_some, if_neg hnot, hstart,
      Option.bind_eq_bind, Option.bind_some, hflag, Option.bind_some, Int.toNat_natCast,
      lastTokenAttention_eq_none hpos hhead hslot hcell]
    rfl
  refine schedule.launch_eq_none hrequest (fun outputs => ?_) outputs
  rw [batchedLastTokenAttentionKernel, if_neg (Nat.not_le.mpr hrequest), hrow]
  rfl

theorem batchedKernel_stores {numRequests : ℕ} {entry : ℕ → ℕ → α} {outputs : List α}
    (hrow : inputs.row request = some (some ((List.range inputs.headDim).map (entry request))))
    (hrequest : request < numRequests)
    (hroom : numRequests * inputs.headDim ≤ outputs.length) :
    ∃ outputs', batchedLastTokenAttentionKernel inputs numRequests outputs request =
        some outputs' ∧ outputs'.length = outputs.length ∧
      Stores (wholeRow (fun request dim => some (entry request dim)) numRequests inputs.headDim
        request) (outputs[·]?) (outputs'[·]?) := by
  obtain ⟨outputs', hstore, hspec⟩ := storeRow_stores (entry request) hrequest hroom
  refine ⟨outputs', ?_, hspec⟩
  rw [batchedLastTokenAttentionKernel, if_neg (Nat.not_le.mpr hrequest), hrow]
  exact hstore

/-- A launch stores the row of every request. -/
theorem exists_launch_attention (schedule : Launch.Schedule) {numRequests : ℕ}
    {entry : ℕ → ℕ → α} {outputs : List α}
    (hrows : ∀ request < numRequests, inputs.row request =
      some (some ((List.range inputs.headDim).map (entry request))))
    (hroom : numRequests * inputs.headDim ≤ outputs.length) :
    ∃ outputs', schedule.launch numRequests (batchedLastTokenAttentionKernel inputs numRequests)
        outputs = some outputs' ∧ outputs'.length = outputs.length ∧
      RowsStored (fun request dim => some (entry request dim)) id numRequests inputs.headDim
        (outputs[·]?) (outputs'[·]?) := by
  obtain ⟨outputs', hlaunch, hlength, hscattered⟩ := schedule.exists_launch numRequests
    (fun (outputs : List α) (i : ℕ) => outputs[i]?)
    (P := fun outputs' : List α => outputs'.length = outputs.length) rfl
    (fun _ _ _ _ hne => wholeRow_apart hne)
    (fun outputs' request hrequest hlength _ => by
      obtain ⟨outputs'', hkernel, hlength', hstores⟩ := batchedKernel_stores
        (hrows request hrequest) hrequest (hlength.symm ▸ hroom)
      exact ⟨outputs'', hkernel, hlength'.trans hlength, hstores⟩)
  exact ⟨outputs', hlaunch, hlength, hscattered.wholeRows⟩

end AttentionInputs

end MiniVLLM
