import MiniVLLM.Library.OnlineSoftmax
import MiniVLLM.Model.Batch

/-! # The reference runtime

The CPU counterpart of the native runtime. Its K/V store is keyed by slot, so that a slot
nobody wrote raises where it is read. -/

namespace MiniVLLM

structure ReferenceKernelRuntime (α : Type) where
  kCache : Dict ℤ (List α)
  vCache : Dict ℤ (List α)
  lastAttentionOutput : List α
  lastBatchAttentionOutputs : List (List α)

namespace ReferenceKernelRuntime

variable {α : Type} [FloatOps α]

def init : ReferenceKernelRuntime α := ⟨.empty, .empty, [], []⟩

def vector (headDim tokenId : ℕ) (phase : α) : List α :=
  (List.range headDim).map fun dim =>
    FloatOps.sin (((tokenId : ℤ) : α) * 0.01 + ((dim : ℤ) : α) * phase)

/-- The loop of `append_kv`. -/
def writeVectors (headDim : ℕ) (runtime : ReferenceKernelRuntime α) :
    List (ℕ × ℤ) → ReferenceKernelRuntime α
  | [] => runtime
  | (tokenId, slot) :: rest =>
      writeVectors headDim { runtime with
        kCache := runtime.kCache.set slot (vector headDim tokenId 0.17)
        vCache := runtime.vCache.set slot (vector headDim tokenId 0.31) } rest

def appendKv (headDim : ℕ) (tokenIds : List ℕ) (slots : List ℤ) :
    Py (ReferenceKernelRuntime α) Unit := do
  if tokenIds.length ≠ slots.length then
    throw (.valueError "token_ids and slot_mapping must have equal length")
  else
    modify fun runtime => writeVectors headDim runtime (tokenIds.zip slots)

/-- A vector of the K/V store. -/
def vectorAt (cache : Dict ℤ (List α)) (slot : ℤ) : Except PyError (List α) :=
  match cache.get? slot with
  | none => .error (.keyError (toString slot))
  | some values => .ok values

/-- What `zip` of two lists with `strict=True` raises once the shorter one ends. -/
def checkZip (first second : List α) : Except PyError Unit :=
  if second.length < first.length then
    .error (.valueError "zip() argument 2 is shorter than argument 1")
  else if first.length < second.length then
    .error (.valueError "zip() argument 2 is longer than argument 1")
  else .ok ()

/-- `sum(q * k for q, k in zip(query, key, strict=True))`. -/
def dot (query key : List α) : Except PyError α := do
  checkZip query key
  pure ((List.zipWith (· * ·) query key).foldl (· + ·) 0)

/-- One turn of the loop of `_online_attention`. The output always has `head_dim` entries. -/
def attendSlot (runtime : ReferenceKernelRuntime α) (headDim : ℕ) (query : List α)
    (row : OnlineSoftmax α ℕ) (slot : ℤ) : Except PyError (OnlineSoftmax α ℕ) := do
  let key ← vectorAt runtime.kCache slot
  let value ← vectorAt runtime.vCache slot
  let product ← dot query key
  let output := (List.range headDim).map row.output
  checkZip output value
  pure (row.attend (product * (1.0 / FloatOps.sqrt ((headDim : ℤ) : α))) fun dim => value.getD dim 0)

/-- `_online_attention`, which is only called with slots. -/
def onlineAttention (runtime : ReferenceKernelRuntime α) (headDim : ℕ) (query : List α)
    (slots : List ℤ) : Except PyError (List α) := do
  let row ← slots.foldlM (runtime.attendSlot headDim query) OnlineSoftmax.start
  pure ((List.range headDim).map fun dim => row.output dim / row.rowSum)

/-- `self._online_attention(self.k_cache[slots[-1]], slots)`, if there are slots. -/
def lastTokenAttention (runtime : ReferenceKernelRuntime α) (headDim : ℕ) (slots : List ℤ) :
    Except PyError (Option (List α)) :=
  match slots.getLast? with
  | none => .ok none
  | some last => do
      let query ← vectorAt runtime.kCache last
      let output ← runtime.onlineAttention headDim query slots
      pure (some output)

def flashAttentionPrefill (headDim : ℕ) (slots : List ℤ) : Py (ReferenceKernelRuntime α) Unit := do
  let runtime ← get
  match ← EStateM.ofExcept (runtime.lastTokenAttention headDim slots) with
  | none => pure ()
  | some output => set { runtime with lastAttentionOutput := output }

/-- The slots of the positions under a block table. -/
def tableSlots (blockTable : List ℤ) (blockSize : ℕ) : List ℕ → Except PyError (List ℤ)
  | [] => .ok []
  | position :: positions => do
      match blockTable[position / blockSize]? with
      | none => .error (.indexError "list index out of range")
      | some block =>
          let slots ← tableSlots blockTable blockSize positions
          pure ((block * blockSize + (position % blockSize : ℕ)) :: slots)

def pagedDecodeAttention (headDim : ℕ) (blockTable : List ℤ) (seqLen blockSize : ℕ) :
    Py (ReferenceKernelRuntime α) Unit := do
  let runtime ← get
  let slots ← EStateM.ofExcept (tableSlots blockTable blockSize (List.range seqLen))
  match ← EStateM.ofExcept (runtime.lastTokenAttention headDim slots) with
  | none => pure ()
  | some output => set { runtime with lastAttentionOutput := output }

/-- The output of one request of `attention_batch`. -/
def attendRequest (runtime : ReferenceKernelRuntime α) (headDim : ℕ) (batch : GPUInputBatch)
    (request : ℕ) : Except PyError (List α) := do
  match batch.contextStartLoc[request]?, batch.contextStartLoc[request + 1]? with
  | some start, some stop =>
      let slots := (batch.contextSlotMapping.drop start).take (stop - start)
      match ← runtime.lastTokenAttention headDim (slots.map fun slot : ℕ => (slot : ℤ)) with
      | none => pure []
      | some output => pure output
  | _, _ => throw (.indexError "list index out of range")

def attentionBatch (headDim : ℕ) (batch : GPUInputBatch) : Py (ReferenceKernelRuntime α) Unit := do
  let runtime ← get
  let outputs ← EStateM.ofExcept ((List.range batch.numRequests).mapM
    (runtime.attendRequest headDim batch))
  match outputs.getLast? with
  | none => set { runtime with lastBatchAttentionOutputs := outputs }
  | some last => set { runtime with
      lastBatchAttentionOutputs := outputs
      lastAttentionOutput := last }

end ReferenceKernelRuntime

end MiniVLLM
