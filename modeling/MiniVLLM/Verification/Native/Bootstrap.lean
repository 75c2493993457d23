import MiniVLLM.Model.ReferenceRuntime
import MiniVLLM.Verification.Native.Device
import MiniVLLM.Verification.Worker.Flattening

/-! # The attention paths of the bootstrap runtimes

Read exactly, the loops of the reference runtime and of the kernels compute one softmax row.
They reach the keys of a request through its dense context slots or through its block table,
and both ways lead to the same slots. -/

namespace MiniVLLM

namespace Bootstrap

open Launch NativeInts

open GPUInputBatch (ContextSpec exists_contextSpec)

/-! ## The softmax row -/

/-- The scaled product of the keys in two slots. -/
noncomputable def score (headDim : ℕ) (key : ℕ → ℕ → ℝ) (query slot : ℕ) : ℝ :=
  ((List.range headDim).map fun dim => key query dim * key slot dim).sum * (1 / √headDim)

/-- The scores and the values of a list of slots, for the query of the last one. -/
noncomputable def scored (headDim : ℕ) (key value : ℕ → ℕ → ℝ) (slots : List ℕ) :
    List (ℝ × (ℕ → ℝ)) :=
  slots.map fun slot => (score headDim key (slots.getLastD 0) slot, value slot)

/-- The sums `sum_i exp(s_i) v_i / sum_i exp(s_i)`, one for each dimension. -/
noncomputable def softmaxRow (headDim : ℕ) (key value : ℕ → ℕ → ℝ) (slots : List ℕ) :
    List EReal :=
  (List.range headDim).map fun dim =>
    ((OnlineSoftmax.average (scored headDim key value slots) dim : ℝ) : EReal)

noncomputable def vectorOf (headDim : ℕ) (entries : ℕ → ℝ) : List EReal :=
  (List.range headDim).map fun dim => (entries dim : EReal)

/-- The reference store has the vectors of the slots. -/
structure Stored (headDim : ℕ) (key value : ℕ → ℕ → ℝ) (slots : List ℕ)
    (runtime : ReferenceKernelRuntime EReal) : Prop where
  key : ∀ slot ∈ slots, runtime.kCache.get? (slot : ℤ) = some (vectorOf headDim (key slot))
  value : ∀ slot ∈ slots, runtime.vCache.get? (slot : ℤ) = some (vectorOf headDim (value slot))

/-- The device caches have the same vectors, each in the cells of its slot. -/
structure Cached (headDim : ℕ) (key value : ℕ → ℕ → ℝ) (slots : List ℕ)
    (keyCache valueCache : ℤ → Option EReal) : Prop where
  key : ∀ slot ∈ slots, ∀ dim < headDim,
    keyCache (slot * headDim + (dim : ℕ)) = some (key slot dim : EReal)
  value : ∀ slot ∈ slots, ∀ dim < headDim,
    valueCache (slot * headDim + (dim : ℕ)) = some (value slot dim : EReal)

section Exact

variable {headDim : ℕ} {key value : ℕ → ℕ → ℝ} {slots : List ℕ}

theorem length_vectorOf (entries : ℕ → ℝ) : (vectorOf headDim entries).length = headDim := by
  simp [vectorOf]

/-! ## The reference runtime -/

namespace Reference

variable {runtime : ReferenceKernelRuntime EReal}

theorem checkZip_eq_ok {first second : List EReal} (h : first.length = second.length) :
    ReferenceKernelRuntime.checkZip first second = .ok () := by
  rw [ReferenceKernelRuntime.checkZip, if_neg (by omega), if_neg (by omega)]

theorem dot_eq (query slot : ℕ → ℝ) :
    ReferenceKernelRuntime.dot (vectorOf headDim query) (vectorOf headDim slot) =
      .ok ((((List.range headDim).map fun dim => query dim * slot dim).sum : ℝ) : EReal) := by
  rw [ReferenceKernelRuntime.dot, checkZip_eq_ok (by rw [length_vectorOf, length_vectorOf]),
    Except.ok_bind, Except.pure_eq_ok, vectorOf, vectorOf, List.zipWith_map, List.zipWith_self,
    List.foldl_map, ← FloatOps.foldl_add_coe]
  simp only [EReal.coe_mul]

theorem scale_eq : (1.0 : EReal) / FloatOps.sqrt ((headDim : ℤ) : EReal) =
    ((1 / √headDim : ℝ) : EReal) := by
  have hone : (1.0 : EReal) = ((1 : ℝ) : EReal) := by
    show ((1.0 : ℝ) : EReal) = _
    norm_num
  have hdim : FloatOps.sqrt ((headDim : ℤ) : EReal) = ((√headDim : ℝ) : EReal) := by
    show FloatOps.sqrt (((headDim : ℤ) : ℝ) : EReal) = _
    rw [FloatOps.sqrt_coe, Int.cast_natCast]
  rw [hone, hdim, ← EReal.coe_div]

theorem vectorAt_eq {cache : Dict ℤ (List EReal)} {slot : ℤ} {entries : List EReal}
    (h : cache.get? slot = some entries) :
    ReferenceKernelRuntime.vectorAt cache slot = .ok entries := by
  rw [ReferenceKernelRuntime.vectorAt, h]

/-- A stored slot joins the row. -/
theorem attendSlot_eq (h : Stored headDim key value slots runtime) {query slot : ℕ}
    (hslot : slot ∈ slots) (row : OnlineSoftmax EReal ℕ) :
    runtime.attendSlot headDim (vectorOf headDim (key query)) row slot =
      .ok (row.attend (score headDim key query slot : EReal)
        fun dim => (vectorOf headDim (value slot)).getD dim 0) := by
  have hzip : ReferenceKernelRuntime.checkZip ((List.range headDim).map row.output)
      (vectorOf headDim (value slot)) = .ok () :=
    checkZip_eq_ok (by simp [length_vectorOf])
  rw [ReferenceKernelRuntime.attendSlot, vectorAt_eq (h.key slot hslot), Except.ok_bind,
    vectorAt_eq (h.value slot hslot), Except.ok_bind, dot_eq, Except.ok_bind]
  dsimp only
  rw [hzip, Except.ok_bind, Except.pure_eq_ok, scale_eq, ← EReal.coe_mul]
  rfl

/-- The loop over stored slots is the pass over their scores. -/
theorem foldlM_attendSlot (h : Stored headDim key value slots runtime) (query : ℕ)
    {part : List ℕ} (hpart : ∀ slot ∈ part, slot ∈ slots) :
    (part.map fun slot : ℕ => (slot : ℤ)).foldlM
        (runtime.attendSlot headDim (vectorOf headDim (key query))) OnlineSoftmax.start =
      .ok (OnlineSoftmax.start.attendAll (part.map fun slot =>
        ((score headDim key query slot : EReal),
          fun dim => (vectorOf headDim (value slot)).getD dim 0))) := by
  induction part using List.reverseRecOn with
  | nil => rfl
  | append_singleton part slot ih =>
      rw [List.map_append, List.foldlM_append, ih (fun s hs => hpart s (List.mem_append_left _ hs)),
        Except.ok_bind, List.map_append, OnlineSoftmax.attendAll_append]
      rw [List.map_singleton, List.map_singleton, List.foldlM_cons,
        attendSlot_eq h (hpart slot (by simp))]
      rfl

theorem getD_vectorOf {entries : ℕ → ℝ} {dim : ℕ} (hdim : dim < headDim) :
    (vectorOf headDim entries).getD dim 0 = (entries dim : EReal) := by
  simp [vectorOf, List.getD_eq_getElem?_getD, hdim]

/-- The row of the last slot is the softmax row. -/
theorem lastTokenAttention_eq (h : Stored headDim key value slots runtime) (hne : slots ≠ []) :
    runtime.lastTokenAttention headDim (slots.map fun slot : ℕ => (slot : ℤ)) =
      .ok (some (softmaxRow headDim key value slots)) := by
  have hlast : (slots.map fun slot : ℕ => (slot : ℤ)).getLast? = some ((slots.getLast hne : ℕ) : ℤ) := by
    rw [List.getLast?_map, List.getLast?_eq_getLast_of_ne_nil hne]
    rfl
  have hquery : slots.getLastD 0 = slots.getLast hne := by
    rw [List.getLastD_eq_getLast?, List.getLast?_eq_getLast_of_ne_nil hne]
    rfl
  have hmem : slots.getLast hne ∈ slots := List.getLast_mem hne
  rw [ReferenceKernelRuntime.lastTokenAttention, hlast]
  simp only [vectorAt_eq (h.key _ hmem), Except.ok_bind, ReferenceKernelRuntime.onlineAttention,
    foldlM_attendSlot h (slots.getLast hne) (fun _ hs => hs), Except.pure_eq_ok]
  refine congrArg (fun row => Except.ok (some row)) (List.map_congr_left fun dim hdim => ?_)
  have hpairs : scored headDim key value slots ≠ [] := by
    simpa [scored] using hne
  rw [← OnlineSoftmax.attendAll_output_div_rowSum hpairs dim, OnlineSoftmax.exactly, scored,
    List.map_map, hquery]
  exact OnlineSoftmax.quotient_congr (fun _ _ => rfl)
    (fun slot _ => getD_vectorOf (List.mem_range.mp hdim))

end Reference

/-! ## The kernels -/

section Kernels

variable {keyCache valueCache : ℤ → Option EReal} {slotOf : ℕ → Option ℤ}

theorem keyScore_eq (slot : ℕ → ℕ) (query token : ℕ) :
    keyScore (fun token dim => (key (slot token) dim : EReal)) headDim query token =
      ((score headDim key (slot query) (slot token) : ℝ) : EReal) := by
  have hscale : FloatOps.rsqrt ((headDim : ℤ) : EReal) = ((1 / √headDim : ℝ) : EReal) := by
    show FloatOps.rsqrt (((headDim : ℤ) : ℝ) : EReal) = _
    rw [FloatOps.rsqrt_coe, Int.cast_natCast]
  rw [keyScore, hscale, score, EReal.coe_mul, ← FloatOps.foldl_add_coe]
  simp only [EReal.coe_mul]

theorem map_range_getD {β : Type} (l : List ℕ) (f : ℕ → β) :
    (List.range l.length).map (fun i => f (l.getD i 0)) = l.map f := by
  apply List.ext_getElem
  · simp
  · intro i hi hi'
    have hlt : i < l.length := by simpa using hi'
    simp [List.getD_eq_getElem?_getD, List.getElem?_eq_getElem hlt]

theorem getD_last (slots : List ℕ) : slots.getD (slots.length - 1) 0 = slots.getLastD 0 := by
  rw [List.getLastD_eq_getLast?, List.getLast?_eq_getElem?, List.getD_eq_getElem?_getD]

variable (headDim key value) in
theorem attendAll_eq {n : ℕ} (hn : n ≤ slots.length) :
    (OnlineSoftmax.start.attendAll ((List.range n).map fun token =>
      (keyScore (fun token dim => (key (slots.getD token 0) dim : EReal)) headDim
          (slots.length - 1) token,
        fun dim => (value (slots.getD token 0) dim : EReal)))) =
      OnlineSoftmax.start.attendAll
        (OnlineSoftmax.exactly ((scored headDim key value slots).take n)) := by
  have hpairs : (scored headDim key value slots).take n = (List.range n).map fun token =>
      (score headDim key (slots.getLastD 0) (slots.getD token 0), value (slots.getD token 0)) := by
    rw [scored, ← map_range_getD slots, ← List.map_take, List.take_range, Nat.min_eq_left hn]
  rw [hpairs, OnlineSoftmax.exactly, List.map_map]
  congr 1
  apply List.map_congr_left
  intro token _
  rw [keyScore_eq (fun token => slots.getD token 0), getD_last]
  rfl

/-- The row of slots whose cells hold the vectors is the softmax row. -/
theorem lastTokenRow_eq (hne : slots ≠ []) (dim : ℕ) :
    lastTokenRow (fun token dim => (key (slots.getD token 0) dim : EReal))
        (fun token dim => (value (slots.getD token 0) dim : EReal)) slots.length headDim dim =
      ((OnlineSoftmax.average (scored headDim key value slots) dim : ℝ) : EReal) := by
  have hpairs : scored headDim key value slots ≠ [] := by simpa [scored] using hne
  have hpass := attendAll_eq headDim key value (le_refl slots.length)
  rw [List.take_of_length_le (by simp [scored])] at hpass
  rw [lastTokenRow, lastTokenPass, hpass, OnlineSoftmax.attendAll_output_div_rowSum hpairs]

variable (headDim key value) in
theorem scored_take_ne_nil {n : ℕ} (hpos : 0 < n) (hn : n ≤ slots.length) :
    (scored headDim key value slots).take n ≠ [] := by
  apply List.ne_nil_of_length_pos
  rw [List.length_take, scored, List.length_map]
  omega

end Kernels

end Exact

/-! ## Slots -/

section Slots

variable {blockSize headDim r : ℕ} {input : GPUInputBatch} {slots : List ℕ}
  {device : NativeDevice EReal} {isDecode : List ℤ} {key value : ℕ → ℕ → ℝ}

def batchInputs (device : NativeDevice EReal) (input : GPUInputBatch) (isDecode : List ℤ) :
    AttentionInputs EReal :=
  device.attentionInputs (CudaKernelRuntime.array (intsOf input.contextSlotMapping))
    (CudaKernelRuntime.array (intsOf input.contextStartLoc))
    (CudaKernelRuntime.array input.blockTables.flatten) (input.blockTables.headD []).length
    (CudaKernelRuntime.array (intsOf input.seqLens)) isDecode

/-- The integers with which the kernels reach the context of a batch are `int`s: the cells of its
slots, its starts and the entries of its block tables. -/
structure IntsFit (headDim : ℕ) (input : GPUInputBatch) : Prop where
  cells : ∀ slot ∈ input.contextSlotMapping, slot * headDim + headDim ≤ 2 ^ 31
  context : input.contextSlotMapping.length < 2 ^ 31
  tables : input.blockTables.flatten.length < 2 ^ 31

theorem load_array_int {values : List ℤ} {i value : ℕ} (h : values[i]? = some (value : ℤ))
    (hlt : value < 2 ^ 31) :
    Buffer.load (CudaKernelRuntime.array values) (i : ℕ) = some (value : ℤ) := by
  rw [Buffer.load_natCast, CudaKernelRuntime.array, List.getElem?_map, h, Option.map_some,
    CInt.wrap_natCast hlt]

theorem load_array {values : List ℕ} {i value : ℕ} (h : values[i]? = some value)
    (hlt : value < 2 ^ 31) :
    Buffer.load (CudaKernelRuntime.array (intsOf values)) (i : ℕ) = some (value : ℤ) := by
  refine load_array_int ?_ hlt
  rw [intsOf, List.getElem?_map, h]
  rfl

theorem length_array (values : List ℤ) : (CudaKernelRuntime.array values).length = values.length :=
  List.length_map ..

theorem getD_mem {token : ℕ} (htoken : token < slots.length) : slots.getD token 0 ∈ slots := by
  rw [List.getD_eq_getElem?_getD, List.getElem?_eq_getElem htoken]
  exact List.getElem_mem htoken

theorem slots_subset (h : ContextSpec blockSize input r slots) :
    slots ⊆ input.contextSlotMapping := by
  rw [← h.slice_eq]
  exact fun slot hs => List.mem_of_mem_drop (List.mem_of_mem_take hs)

theorem start_add_lt (h : ContextSpec blockSize input r slots) {token : ℕ}
    (htoken : token < slots.length) :
    input.contextStartLoc.getD r 0 + token < input.contextSlotMapping.length :=
  (List.getElem?_eq_some_iff.mp (h.getElem?_context htoken)).1

theorem length_slots_le (h : ContextSpec blockSize input r slots) :
    slots.length ≤ input.contextSlotMapping.length := by
  have hlast := start_add_lt h (Nat.sub_lt (List.length_pos_of_ne_nil h.slots_ne) Nat.one_pos)
  omega

/-- The device holds the vectors of the slots, in blocks and rows of the given sizes. -/
structure DeviceHolds (blockSize headDim : ℕ) (key value : ℕ → ℕ → ℝ) (slots : List ℕ)
    (device : NativeDevice EReal) : Prop where
  blockSize_eq : device.blockSize = blockSize
  headDim_eq : device.headDim = headDim
  headDim_pos : 0 < headDim
  cached : Cached headDim key value slots (Buffer.load device.caches.keyCache)
    (Buffer.load device.caches.valueCache)

theorem Cached.mono {slots' : List ℕ} {keyCache valueCache : ℤ → Option EReal}
    (h : Cached headDim key value slots' keyCache valueCache) (hsub : slots ⊆ slots') :
    Cached headDim key value slots keyCache valueCache :=
  ⟨fun slot hs => h.key slot (hsub hs), fun slot hs => h.value slot (hsub hs)⟩

theorem Cached.bind_cacheIndex {keyCache valueCache : ℤ → Option EReal}
    (h : Cached headDim key value slots keyCache valueCache)
    (hcells : ∀ slot ∈ slots, slot * headDim + headDim ≤ 2 ^ 31) {token dim : ℕ}
    (htoken : token < slots.length) (hdim : dim < headDim) :
    (cacheIndex (slots.getD token 0 : ℕ) headDim dim).bind keyCache =
        some (key (slots.getD token 0) dim : EReal) ∧
      (cacheIndex (slots.getD token 0 : ℕ) headDim dim).bind valueCache =
        some (value (slots.getD token 0) dim : EReal) := by
  have hslot := getD_mem htoken
  have hend := hcells _ hslot
  have hlt : slots.getD token 0 * headDim + dim < 2 ^ 31 := by omega
  rw [cacheIndex_natCast hlt]
  exact ⟨by exact_mod_cast h.key _ hslot dim hdim, by exact_mod_cast h.value _ hslot dim hdim⟩

section Reads

variable (h : ContextSpec blockSize input r slots) (hfits : IntsFit headDim input)
  (hdevice : DeviceHolds blockSize headDim key value input.contextSlotMapping device)

include h hfits hdevice

theorem slot_lt {token : ℕ} (htoken : token < slots.length) : slots.getD token 0 < 2 ^ 31 := by
  have hend := hfits.cells _ (slots_subset h (getD_mem htoken))
  have hhead := hdevice.headDim_pos
  have hle : slots.getD token 0 ≤ slots.getD token 0 * headDim := Nat.le_mul_of_pos_right _ hhead
  omega

/-- A block that a token finds, and the slot it leads to. -/
theorem pagedSlot_eq {blockTable : ℤ → Option ℤ} {token block : ℕ} (hsize : 0 < blockSize)
    (htoken : token < slots.length)
    (hread : block < 2 ^ 31 → blockTable (token / blockSize : ℕ) = some (block : ℤ))
    (hslot : block * blockSize + token % blockSize = slots.getD token 0) :
    pagedSlot blockTable device.blockSize token = some (slots.getD token 0 : ℤ) := by
  have hlt := slot_lt h hfits hdevice htoken
  have hblock : block ≤ block * blockSize := Nat.le_mul_of_pos_right _ hsize
  rw [hdevice.blockSize_eq, pagedSlot_natCast (hread (by omega)) (by omega), hslot]

/-- Both ways to a token's slot end in the slot. -/
theorem slotOf_eq (hsize : 0 < blockSize) (flag : ℤ) {token : ℕ} (htoken : token < slots.length) :
    (batchInputs device input isDecode).slotOf r (input.contextStartLoc.getD r 0 : ℕ) flag token =
      some (slots.getD token 0 : ℤ) := by
  rw [AttentionInputs.slotOf]
  split
  · obtain ⟨block, hentry, hslot⟩ := h.getElem?_flatten htoken
    refine pagedSlot_eq h hfits hdevice hsize htoken (fun hblock => ?_) hslot
    have hlt := (List.getElem?_eq_some_iff.mp hentry).1.trans hfits.tables
    exact (congrArg (fun entry : Option ℤ => entry.bind _) (CInt.index_natCast hlt)).trans
      (load_array_int hentry hblock)
  · have hlt := (start_add_lt h htoken).trans hfits.context
    rw [CInt.add_natCast hlt, Option.bind_some]
    exact load_array (h.getElem?_context htoken) (slot_lt h hfits hdevice htoken)

/-- The row of a request is the softmax row, whatever its flag. -/
theorem row_eq (hsize : 0 < blockSize) (hflag : r < isDecode.length) :
    (batchInputs device input isDecode).row r = some (some (softmaxRow headDim key value slots)) := by
  have hslot : ∀ flag, ∀ token < slots.length, (batchInputs device input isDecode).slotOf r
      (input.contextStartLoc.getD r 0 : ℕ) flag token = some (slots.getD token 0 : ℤ) :=
    fun flag _ htoken => slotOf_eq h hfits hdevice hsize flag htoken
  have hcached := hdevice.cached.mono (slots_subset h)
  have hcells : ∀ slot ∈ slots, slot * headDim + headDim ≤ 2 ^ 31 :=
    fun slot hslot => hfits.cells slot (slots_subset h hslot)
  have hcontext := hfits.context
  have hlength := length_slots_le h
  have hstart := start_add_lt h (List.length_pos_of_ne_nil h.slots_ne)
  obtain ⟨_, rfl, _, _⟩ := hdevice
  have hdecode : (batchInputs device input isDecode).isDecode (r : ℕ) = some isDecode[r] := by
    show Buffer.load isDecode (r : ℕ) = _
    rw [Buffer.load_natCast, List.getElem?_eq_getElem hflag]
  have hrow := AttentionInputs.row_eq (load_array h.seqLen_eq (by omega))
    (List.length_pos_of_ne_nil h.slots_ne) (load_array h.start_eq (by omega)) hdecode
    (hslot isDecode[r])
    (fun token htoken dim hdim => (hcached.bind_cacheIndex hcells htoken hdim).1)
    (fun token htoken dim hdim => (hcached.bind_cacheIndex hcells htoken hdim).2)
  rw [hrow]
  refine congrArg (fun row => some (some row)) (List.map_congr_left fun dim _ => ?_)
  exact lastTokenRow_eq h.slots_ne dim

/-- In the loop of the kernel the running sum is at least one after every token. -/
theorem kernel_rowSum (hsize : 0 < blockSize) (flag : ℤ) {n : ℕ} (hpos : 0 < n)
    (hn : n ≤ slots.length) :
    ∃ row, (List.range n).foldlM (attendToken (Buffer.load device.caches.keyCache)
        (Buffer.load device.caches.valueCache) ((batchInputs device input isDecode).slotOf r
          (input.contextStartLoc.getD r 0 : ℕ) flag) headDim (slots.getLastD 0 : ℕ))
        OnlineSoftmax.start = some row ∧ 1 ≤ row.rowSum := by
  have hcached := hdevice.cached.mono (slots_subset h)
  have hcells : ∀ slot ∈ slots, slot * headDim + headDim ≤ 2 ^ 31 :=
    fun slot hslot => hfits.cells slot (slots_subset h hslot)
  have hslot : ∀ token < slots.length, (batchInputs device input isDecode).slotOf r
      (input.contextStartLoc.getD r 0 : ℕ) flag token = some (slots.getD token 0 : ℤ) :=
    fun _ htoken => slotOf_eq h hfits hdevice hsize flag htoken
  have hfold := foldlM_attendToken (List.length_pos_of_ne_nil h.slots_ne) hslot
    (fun token htoken dim hdim => (hcached.bind_cacheIndex hcells htoken hdim).1)
    (fun token htoken dim hdim => (hcached.bind_cacheIndex hcells htoken hdim).2) hn
  rw [getD_last] at hfold
  refine ⟨_, hfold, ?_⟩
  have hsum := OnlineSoftmax.one_le_attendAll_rowSum
    (scored_take_ne_nil headDim key value hpos hn)
  rw [← attendAll_eq headDim key value hn] at hsum
  refine hsum.trans_eq (OnlineSoftmax.attendAll_stats_congr ?_).2
  exact fun _ _ => rfl

end Reads

end Slots

/-! ## The calls -/

section Calls

variable {blockSize headDim r : ℕ} {input : GPUInputBatch} {slots : List ℕ}
  {runtime : ReferenceKernelRuntime EReal} {key value : ℕ → ℕ → ℝ}

theorem Stored.mono {slots' : List ℕ} (h : Stored headDim key value slots' runtime)
    (hsub : slots ⊆ slots') : Stored headDim key value slots runtime :=
  ⟨fun slot hs => h.key slot (hsub hs), fun slot hs => h.value slot (hsub hs)⟩

theorem run_flashAttentionPrefill (h : Stored headDim key value slots runtime)
    (hne : slots ≠ []) :
    (ReferenceKernelRuntime.flashAttentionPrefill headDim
        (slots.map fun slot : ℕ => (slot : ℤ))).run runtime =
      .ok () { runtime with lastAttentionOutput := softmaxRow headDim key value slots } := by
  simp [ReferenceKernelRuntime.flashAttentionPrefill, Reference.lastTokenAttention_eq h hne]

theorem tableSlots_eq {table : List ℤ} {positions : List ℕ} {slot : ℕ → ℕ}
    (h : ∀ p ∈ positions, ∃ block : ℕ, table[p / blockSize]? = some (block : ℤ) ∧
      block * blockSize + p % blockSize = slot p) :
    ReferenceKernelRuntime.tableSlots table blockSize positions =
      .ok (positions.map fun p => (slot p : ℤ)) := by
  induction positions with
  | nil => rfl
  | cons p positions ih =>
      obtain ⟨block, hblock, hslot⟩ := h p (by simp)
      have hrest := ih (fun q hq => h q (List.mem_cons_of_mem _ hq))
      simp only [ReferenceKernelRuntime.tableSlots, hblock, hrest, Except.ok_bind, ← hslot,
        List.map_cons, Except.pure_eq_ok]
      push_cast
      rfl

theorem run_pagedDecodeAttention (h : ContextSpec blockSize input r slots)
    (hstored : Stored headDim key value slots runtime) :
    (ReferenceKernelRuntime.pagedDecodeAttention headDim (input.blockTables.getD r [])
        (input.seqLens.getD r 0) blockSize).run runtime =
      .ok () { runtime with lastAttentionOutput := softmaxRow headDim key value slots } := by
  have hseqLen : input.seqLens.getD r 0 = slots.length := by
    rw [List.getD_eq_getElem?_getD, h.seqLen_eq, Option.getD_some]
  have hslots : ReferenceKernelRuntime.tableSlots (input.blockTables.getD r []) blockSize
      (List.range (input.seqLens.getD r 0)) = .ok (slots.map fun slot : ℕ => (slot : ℤ)) := by
    rw [hseqLen, ← map_range_getD slots]
    exact tableSlots_eq fun p hp => h.walk p (List.mem_range.mp hp)
  simp only [ReferenceKernelRuntime.pagedDecodeAttention, EStateM.run_bind, EStateM.run_get,
    hslots, EStateM.run_ofExcept_ok, Reference.lastTokenAttention_eq hstored h.slots_ne,
    EStateM.run_set]

theorem attendRequest_eq (h : ContextSpec blockSize input r slots)
    (hstored : Stored headDim key value slots runtime) :
    runtime.attendRequest headDim input r = .ok (softmaxRow headDim key value slots) := by
  have hslice : (input.contextSlotMapping.drop (input.contextStartLoc.getD r 0)).take
      (input.contextStartLoc.getD (r + 1) 0 - input.contextStartLoc.getD r 0) = slots := h.slice_eq
  rw [ReferenceKernelRuntime.attendRequest, h.start_eq, h.stop_eq]
  simp only [hslice, Reference.lastTokenAttention_eq hstored h.slots_ne, Except.ok_bind]
  rfl

theorem run_attentionBatch
    (h : ∀ r < input.numRequests, ∃ slots, ContextSpec blockSize input r slots)
    (hstored : Stored headDim key value input.contextSlotMapping runtime) :
    ∃ runtime', (ReferenceKernelRuntime.attentionBatch headDim input).run runtime =
        .ok () runtime' ∧
      runtime'.lastBatchAttentionOutputs = (List.range input.numRequests).map fun r =>
        softmaxRow headDim key value
          (Ragged.slice input.contextSlotMapping input.contextStartLoc r) := by
  have houtputs : (List.range input.numRequests).mapM (runtime.attendRequest headDim input) =
      .ok ((List.range input.numRequests).map fun r => softmaxRow headDim key value
        (Ragged.slice input.contextSlotMapping input.contextStartLoc r)) := by
    refine Except.mapM_eq_ok fun r hr => ?_
    obtain ⟨slots, hslots⟩ := h r (List.mem_range.mp hr)
    rw [hslots.slice_eq]
    exact attendRequest_eq hslots (hstored.mono (slots_subset hslots))
  simp only [ReferenceKernelRuntime.attentionBatch, EStateM.run_bind, EStateM.run_get, houtputs,
    EStateM.run_ofExcept_ok]
  split
  · exact ⟨_, rfl, rfl⟩
  · exact ⟨_, rfl, rfl⟩

end Calls

/-! ## The paths compared -/

/-- Every path computes the softmax row of request `r`, and no running sum falls below one. -/
structure PathsAgree (headDim blockSize : ℕ) (key value : ℕ → ℕ → ℝ)
    (runtime : ReferenceKernelRuntime EReal) (input : GPUInputBatch) (r : ℕ) (slots : List ℕ) :
    Prop where
  batch : ∃ runtime', (ReferenceKernelRuntime.attentionBatch headDim input).run runtime =
      .ok () runtime' ∧
    runtime'.lastBatchAttentionOutputs[r]? = some (softmaxRow headDim key value slots)
  decode : ∃ runtime', (ReferenceKernelRuntime.pagedDecodeAttention headDim
      (input.blockTables.getD r []) (input.seqLens.getD r 0) blockSize).run runtime =
      .ok () runtime' ∧
    runtime'.lastAttentionOutput = softmaxRow headDim key value slots
  prefill : ∃ runtime', (ReferenceKernelRuntime.flashAttentionPrefill headDim
      (slots.map fun slot : ℕ => (slot : ℤ))).run runtime = .ok () runtime' ∧
    runtime'.lastAttentionOutput = softmaxRow headDim key value slots
  rowSum : ∀ n, 0 < n → n ≤ slots.length → ∃ row,
    ((slots.take n).map fun slot : ℕ => (slot : ℤ)).foldlM (runtime.attendSlot headDim
        (vectorOf headDim (key (slots.getLastD 0)))) OnlineSoftmax.start = .ok row ∧
      1 ≤ row.rowSum
  kernel : IntsFit headDim input →
    ∀ (device : NativeDevice EReal) (isDecode : List ℤ) (schedule : Launch.Schedule),
    DeviceHolds blockSize headDim key value input.contextSlotMapping device →
    isDecode.length = input.numRequests →
    input.numRequests * headDim ≤ device.attentionOutput.length →
    ∃ outputs, schedule.launch input.numRequests (batchedLastTokenAttentionKernel
        (batchInputs device input isDecode) input.numRequests) device.attentionOutput =
        some outputs ∧
      ∀ dim < headDim, outputs[r * headDim + dim]? = (softmaxRow headDim key value slots)[dim]?
  kernelRowSum : IntsFit headDim input →
    ∀ (device : NativeDevice EReal) (isDecode : List ℤ) (flag : ℤ) (n : ℕ),
    DeviceHolds blockSize headDim key value input.contextSlotMapping device →
    0 < n → n ≤ slots.length → ∃ row,
      (List.range n).foldlM (attendToken (Buffer.load device.caches.keyCache)
        (Buffer.load device.caches.valueCache) ((batchInputs device input isDecode).slotOf r
          (input.contextStartLoc.getD r 0 : ℕ) flag) headDim (slots.getLastD 0 : ℕ))
        OnlineSoftmax.start = some row ∧ 1 ≤ row.rowSum
  single : IntsFit headDim input → ∀ device : NativeDevice EReal,
    DeviceHolds blockSize headDim key value input.contextSlotMapping device →
    headDim ≤ device.attentionOutput.length →
    (∃ device', device.prefill (CudaKernelRuntime.array (intsOf slots))
        (CInt.wrap slots.length) = some (0, device') ∧
      ∀ dim < headDim, device'.attentionOutput[dim]? = (softmaxRow headDim key value slots)[dim]?) ∧
    ∃ device', device.decode (CudaKernelRuntime.array (input.blockTables.getD r []))
        (CInt.wrap (input.blockTables.getD r []).length) (CInt.wrap (input.seqLens.getD r 0)) =
          some (0, device') ∧
      ∀ dim < headDim, device'.attentionOutput[dim]? = (softmaxRow headDim key value slots)[dim]?

section Paths

variable {blockSize headDim r : ℕ} {input : GPUInputBatch} {slots : List ℕ}
  {runtime : ReferenceKernelRuntime EReal} {device : NativeDevice EReal} {key value : ℕ → ℕ → ℝ}

theorem reference_rowSum (h : Stored headDim key value slots runtime) {n : ℕ} (hpos : 0 < n)
    (hn : n ≤ slots.length) : ∃ row,
    ((slots.take n).map fun slot : ℕ => (slot : ℤ)).foldlM (runtime.attendSlot headDim
        (vectorOf headDim (key (slots.getLastD 0)))) OnlineSoftmax.start = .ok row ∧
      1 ≤ row.rowSum := by
  refine ⟨_, Reference.foldlM_attendSlot h _ (fun slot hs => List.mem_of_mem_take hs), ?_⟩
  have hsum := OnlineSoftmax.one_le_attendAll_rowSum
    (scored_take_ne_nil headDim key value hpos hn)
  rw [scored, ← List.map_take, OnlineSoftmax.exactly, List.map_map] at hsum
  refine hsum.trans_eq (OnlineSoftmax.attendAll_stats_congr ?_).2
  exact fun _ _ => rfl

section Single

variable (h : ContextSpec blockSize input r slots) (hfits : IntsFit headDim input)
  (hdevice : DeviceHolds blockSize headDim key value input.contextSlotMapping device)
  (hroom : headDim ≤ device.attentionOutput.length)

include h hfits hdevice hroom

/-- The slots that a row of the device reads are those of the single kernels too. -/
theorem single_row {slotOf : ℕ → Option ℤ}
    (hslot : ∀ token < slots.length, slotOf token = some (slots.getD token 0 : ℤ)) :
    ∃ outputs, lastTokenAttention (Buffer.load device.caches.keyCache)
        (Buffer.load device.caches.valueCache) slotOf slots.length headDim =
        some (softmaxRow headDim key value slots) ∧
      storeRow device.attentionOutput 0 (softmaxRow headDim key value slots) = some outputs ∧
      ∀ dim < headDim, outputs[dim]? = (softmaxRow headDim key value slots)[dim]? := by
  have hlength : (softmaxRow headDim key value slots).length = headDim := by simp [softmaxRow]
  have hcached := hdevice.cached.mono (slots_subset h)
  have hcells : ∀ slot ∈ slots, slot * headDim + headDim ≤ 2 ^ 31 :=
    fun slot hslot => hfits.cells slot (slots_subset h hslot)
  have hrow := lastTokenAttention_eq (List.length_pos_of_ne_nil h.slots_ne) hslot
    (fun token htoken dim hdim => (hcached.bind_cacheIndex hcells htoken hdim).1)
    (fun token htoken dim hdim => (hcached.bind_cacheIndex hcells htoken hdim).2)
  have hstored : 0 + (softmaxRow headDim key value slots).length ≤
      device.attentionOutput.length := by
    rw [hlength, Nat.zero_add]
    exact hroom
  obtain ⟨outputs, hstore, _, hcells⟩ := exists_storeRow hstored
  refine ⟨outputs, ?_, hstore, fun dim hdim => ?_⟩
  · rw [hrow]
    refine congrArg some (List.map_congr_left fun dim _ => ?_)
    exact lastTokenRow_eq h.slots_ne dim
  · rw [hcells dim, if_pos (by omega), Nat.sub_zero]

theorem run_prefill :
    ∃ device', device.prefill (CudaKernelRuntime.array (intsOf slots)) (CInt.wrap slots.length) =
        some (0, device') ∧
      ∀ dim < headDim,
        device'.attentionOutput[dim]? = (softmaxRow headDim key value slots)[dim]? := by
  have hpos := List.length_pos_of_ne_nil h.slots_ne
  have hslot : ∀ token < slots.length,
      Buffer.load (CudaKernelRuntime.array (intsOf slots)) (token : ℕ) =
        some (slots.getD token 0 : ℤ) := by
    intro token htoken
    refine load_array ?_ (slot_lt h hfits hdevice htoken)
    rw [List.getElem?_eq_getElem htoken, List.getD_eq_getElem?_getD,
      List.getElem?_eq_getElem htoken]
    rfl
  obtain ⟨outputs, hrow, hstore, hcells⟩ := single_row h hfits hdevice hroom hslot
  refine ⟨{ device with attentionOutput := outputs }, ?_, hcells⟩
  have hcopy : Buffer.copy (CudaKernelRuntime.array (intsOf slots)) slots.length =
      some (CudaKernelRuntime.array (intsOf slots)) :=
    Buffer.copy_eq ((length_array _).trans (List.length_map ..)).symm
  rw [NativeDevice.prefill, CInt.wrap_natCast ((length_slots_le h).trans_lt hfits.context),
    if_neg (by omega), Int.toNat_natCast, hcopy, Option.bind_eq_bind, Option.bind_some,
    if_neg (by omega), hdevice.headDim_eq, hrow, Option.bind_eq_bind, Option.bind_some, hstore]
  rfl

theorem run_decode (hsize : 0 < blockSize) :
    ∃ device', device.decode (CudaKernelRuntime.array (input.blockTables.getD r []))
        (CInt.wrap (input.blockTables.getD r []).length) (CInt.wrap (input.seqLens.getD r 0)) =
          some (0, device') ∧
      ∀ dim < headDim,
        device'.attentionOutput[dim]? = (softmaxRow headDim key value slots)[dim]? := by
  have hpos := List.length_pos_of_ne_nil h.slots_ne
  have hseqLen : input.seqLens.getD r 0 = slots.length := by
    rw [List.getD_eq_getElem?_getD, h.seqLen_eq, Option.getD_some]
  have hwidth : (input.blockTables.getD r []).length ≤ input.blockTables.flatten.length :=
    (List.sublist_flatten_of_mem (List.mem_of_getElem? h.table_eq)).length_le
  have hslot : ∀ token < slots.length,
      pagedSlot (Buffer.load (CudaKernelRuntime.array (input.blockTables.getD r [])))
        device.blockSize token = some (slots.getD token 0 : ℤ) := by
    intro token htoken
    obtain ⟨block, hblock, heq⟩ := h.walk token htoken
    exact pagedSlot_eq h hfits hdevice hsize htoken (fun hlt => load_array_int hblock hlt) heq
  obtain ⟨outputs, hrow, hstore, hcells⟩ := single_row h hfits hdevice hroom hslot
  refine ⟨{ device with attentionOutput := outputs }, ?_, hcells⟩
  rw [NativeDevice.decode, hseqLen, CInt.wrap_natCast (hwidth.trans_lt hfits.tables),
    CInt.wrap_natCast ((length_slots_le h).trans_lt hfits.context), if_neg (by omega),
    Int.toNat_natCast, Buffer.copy_eq (length_array _).symm, Option.bind_eq_bind, Option.bind_some,
    if_neg (by omega), Int.toNat_natCast, hdevice.headDim_eq, hrow, Option.bind_eq_bind,
    Option.bind_some, hstore]
  rfl

end Single

theorem launch_batched {isDecode : List ℤ} {schedule : Launch.Schedule} (hsize : 0 < blockSize)
    (h : ∀ r < input.numRequests, ∃ slots, ContextSpec blockSize input r slots)
    (hfits : IntsFit headDim input)
    (hdevice : DeviceHolds blockSize headDim key value input.contextSlotMapping device)
    (hflags : isDecode.length = input.numRequests)
    (hroom : input.numRequests * headDim ≤ device.attentionOutput.length)
    (hr : r < input.numRequests) (hslots : ContextSpec blockSize input r slots) :
    ∃ outputs, schedule.launch input.numRequests (batchedLastTokenAttentionKernel
        (batchInputs device input isDecode) input.numRequests) device.attentionOutput =
        some outputs ∧
      ∀ dim < headDim,
        outputs[r * headDim + dim]? = (softmaxRow headDim key value slots)[dim]? := by
  have hdim := hdevice.headDim_eq
  have hrows : ∀ r < input.numRequests, (batchInputs device input isDecode).row r =
      some (some (softmaxRow headDim key value
        (Ragged.slice input.contextSlotMapping input.contextStartLoc r))) := by
    intro r hr
    obtain ⟨slots, hslots⟩ := h r hr
    rw [hslots.slice_eq]
    exact row_eq hslots hfits hdevice hsize (hflags ▸ hr)
  have hwidth : (batchInputs device input isDecode).headDim = headDim := hdim
  obtain ⟨outputs, hlaunch, _, hstored⟩ := AttentionInputs.exists_launch_attention schedule
    (fun request hrequest => by
      rw [hwidth]
      exact hrows request hrequest) (by rwa [hwidth])
  refine ⟨outputs, hlaunch, fun dim hlt => ?_⟩
  have hcell := hstored.stored r hr dim (by rwa [hwidth])
  rw [hwidth, id, hslots.slice_eq] at hcell
  rw [hcell, softmaxRow, List.getElem?_map, List.getElem?_range hlt]
  rfl

/-- Every attention path of a flattened batch computes the softmax row, the kernels as far as
their indices are `int`s. -/
theorem attention_paths_agree {batch : WorkerBatch}
    (h : GPUInputBatch.fromWorkerBatch batch blockSize = .ok input)
    (hstored : Stored headDim key value input.contextSlotMapping runtime)
    (hr : r < input.numRequests) :
    PathsAgree headDim blockSize key value runtime input r
      (Ragged.slice input.contextSlotMapping input.contextStartLoc r) := by
  have hspecs : ∀ r < input.numRequests, ∃ slots, ContextSpec blockSize input r slots := by
    intro r hr
    obtain ⟨_, slots, _, _, hslots⟩ := exists_contextSpec h hr
    exact ⟨slots, hslots⟩
  have hsize : 0 < blockSize := (GPUInputBatch.of_fromWorkerBatch h).1
  obtain ⟨slots, hslots⟩ := hspecs r hr
  have hsub := slots_subset hslots
  rw [hslots.slice_eq]
  refine ⟨?_, ⟨_, run_pagedDecodeAttention hslots (hstored.mono hsub), rfl⟩,
    ⟨_, run_flashAttentionPrefill (hstored.mono hsub) hslots.slots_ne, rfl⟩,
    fun n hpos hn => reference_rowSum (hstored.mono hsub) hpos hn, ?_, ?_, ?_⟩
  · obtain ⟨runtime', hrun, houtputs⟩ := run_attentionBatch hspecs hstored
    refine ⟨runtime', hrun, ?_⟩
    rw [houtputs, List.getElem?_map, List.getElem?_range hr, Option.map_some, hslots.slice_eq]
  · intro hfits device isDecode schedule hdevice hflags hroom
    exact launch_batched hsize hspecs hfits hdevice hflags hroom hr hslots
  · intro hfits device isDecode flag n hdevice hpos hn
    exact kernel_rowSum hslots hfits hdevice hsize flag hpos hn
  · intro hfits device hdevice hroom
    exact ⟨run_prefill hslots hfits hdevice hroom, run_decode hslots hfits hdevice hroom hsize⟩

end Paths

/-! ## A store -/

noncomputable def cacheOf (headDim : ℕ) (entries : ℕ → ℕ → ℝ) (slots : List ℕ) :
    Dict ℤ (List EReal) :=
  slots.foldr (fun (slot : ℕ) cache => cache.set (slot : ℤ) (vectorOf headDim (entries slot)))
    .empty

theorem get?_cacheOf {headDim slot : ℕ} {entries : ℕ → ℕ → ℝ} {slots : List ℕ}
    (h : slot ∈ slots) :
    (cacheOf headDim entries slots).get? (slot : ℤ) = some (vectorOf headDim (entries slot)) := by
  induction slots with
  | nil => cases h
  | cons first rest ih =>
      rw [cacheOf, List.foldr_cons]
      by_cases hfirst : slot = first
      · rw [hfirst, Dict.get?_set_self]
      · rw [Dict.get?_set_of_ne _ _ (by exact_mod_cast hfirst)]
        exact ih ((List.mem_cons.mp h).resolve_left hfirst)

theorem stored_cacheOf (headDim : ℕ) (key value : ℕ → ℕ → ℝ) (slots : List ℕ) :
    Stored headDim key value slots
      ⟨cacheOf headDim key slots, cacheOf headDim value slots, [], []⟩ :=
  ⟨fun _ h => get?_cacheOf h, fun _ h => get?_cacheOf h⟩

theorem attention_paths_agree_mixed :
    ∃ input, GPUInputBatch.fromWorkerBatch GPUInputBatch.mixedBatch 4 = .ok input ∧
      IntsFit 2 input ∧ PathsAgree 2 4 (fun slot dim => slot + dim) (fun slot dim => slot * dim)
        ⟨cacheOf 2 (fun slot dim => slot + dim) input.contextSlotMapping,
          cacheOf 2 (fun slot dim => slot * dim) input.contextSlotMapping, [], []⟩ input 1
        (Ragged.slice input.contextSlotMapping input.contextStartLoc 1) :=
  have hinput : GPUInputBatch.fromWorkerBatch GPUInputBatch.mixedBatch 4 = .ok _ := rfl
  ⟨_, hinput, ⟨by decide, by decide, by decide⟩,
    attention_paths_agree hinput (stored_cacheOf _ _ _ _) (by decide)⟩

/-! ## Beyond the range -/

/-- A prompt of one token, in block `2 ^ 22` of blocks of one token. -/
def farBatch : WorkerBatch where
  batchId := 7
  items := [⟨"far", [13], 0, [4194304], [4194304], 1, 0, true, 0⟩]

/-- With rows of 512 floats, cell `2 ^ 31` is the first of the prompt's slot. The caches hold it,
and the kernel has no row for it. -/
theorem attention_paths_overflow :
    ∃ input, GPUInputBatch.fromWorkerBatch farBatch 1 = .ok input ∧
      Stored 512 (fun _ _ => 0) (fun _ _ => 0) input.contextSlotMapping
        ⟨cacheOf 512 (fun _ _ => 0) input.contextSlotMapping,
          cacheOf 512 (fun _ _ => 0) input.contextSlotMapping, [], []⟩ ∧
      ∃ device : NativeDevice EReal,
        NativeDevice.create ⟨0, 4194305, 1, 512, 1, 2⟩ (fun _ => 0) (fun _ => 0) = some device ∧
        DeviceHolds 1 512 (fun _ _ => 0) (fun _ _ => 0) input.contextSlotMapping device ∧
        ∀ (flag : ℤ) (schedule : Launch.Schedule),
          schedule.launch input.numRequests (batchedLastTokenAttentionKernel
            (batchInputs device input [flag]) input.numRequests) device.attentionOutput = none := by
  obtain ⟨device, hcreate, hsizes, hhead, hcaches⟩ : ∃ device : NativeDevice EReal,
      NativeDevice.create ⟨0, 4194305, 1, 512, 1, 2⟩ (fun _ => 0) (fun _ => 0) = some device ∧
        device.toNativeRuntime = ⟨4194305, 1, 1, 2, 4194305⟩ ∧ device.headDim = 512 ∧
        device.caches = ⟨List.replicate 2147484672 0, List.replicate 2147484672 0⟩ :=
    NativeDevice.exists_create (fun _ => 0) (fun _ => 0) (by decide) (by decide) (by decide)
      (by decide) (by decide) (by decide) (by decide) (by decide)
  have hzero : ∀ dim < 512, (List.replicate 2147484672 (0 : EReal))[4194304 * 512 + dim]? = some 0 :=
    fun dim hdim => List.getElem?_replicate_of_lt (by omega)
  refine ⟨_, rfl, stored_cacheOf _ _ _ _, device, hcreate, ⟨?_, hhead, by decide, ?_, ?_⟩,
    fun flag schedule => ?_⟩
  · rw [hsizes]
  · intro slot hslot dim hdim
    obtain rfl := List.mem_singleton.mp hslot
    rw [hcaches]
    exact (Buffer.load_natCast ..).trans (hzero dim hdim)
  · intro slot hslot dim hdim
    obtain rfl := List.mem_singleton.mp hslot
    rw [hcaches]
    exact (Buffer.load_natCast ..).trans (hzero dim hdim)
  · have hseqLen : (batchInputs device (GPUInputBatch.ofItems 1 farBatch) [flag]).seqLens (0 : ℕ) =
        some ((1 : ℕ) : ℤ) := rfl
    have hstart : (batchInputs device (GPUInputBatch.ofItems 1 farBatch) [flag]).contextStartLocs
        (0 : ℕ) = some 0 := rfl
    have hwidth : (batchInputs device (GPUInputBatch.ofItems 1 farBatch) [flag]).headDim = 512 :=
      hhead
    have hblockSize : (batchInputs device (GPUInputBatch.ofItems 1 farBatch) [flag]).blockSize =
        1 := congrArg NativeRuntime.blockSize hsizes
    have hslot : (batchInputs device (GPUInputBatch.ofItems 1 farBatch) [flag]).slotOf 0 0 flag 0 =
        some ((4194304 : ℕ) : ℤ) := by
      rw [AttentionInputs.slotOf, hblockSize]
      split
      · have hlt : 4194304 * 1 + 0 % 1 < 2 ^ 31 := by decide
        refine pagedSlot_natCast ?_ hlt
        rfl
      · rfl
    exact AttentionInputs.launch_eq_none hseqLen Nat.one_pos hstart rfl (hwidth ▸ Nat.succ_pos _)
      hslot (hwidth ▸ by decide) Nat.one_pos schedule _

end Bootstrap

end MiniVLLM
