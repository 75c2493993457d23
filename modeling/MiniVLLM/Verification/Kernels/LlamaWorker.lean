import MiniVLLM.Verification.Kernels.Backends
import MiniVLLM.Verification.Kernels.ExactLayers
import MiniVLLM.Verification.Worker.Sampling

/-! # A Llama Worker over tensors

Whatever backends its layers have, and in whatever order the device runs its threads, a Worker over
cache tensors does with every batch what the runner does over rows. So the two have the same
runs. -/

namespace MiniVLLM

open KVCacheManager Scheduler EngineCore

variable {Hidden Logits : Type} {llama : LlamaConfig}

/-- A model whose layers are computed exactly. -/
structure ExactModel (llama : LlamaConfig) (Hidden Logits : Type) where
  embedTokens : TokenId → Hidden
  layers : List (ExactLayer llama Hidden)
  lmHead : Hidden → Logits

noncomputable def ExactModel.decoder (model : ExactModel llama Hidden Logits) :
    LlamaForCausalLM Hidden (List EReal) (List EReal × List EReal) (List EReal) Logits where
  embedTokens := model.embedTokens
  layers := model.layers.map ExactLayer.decoder
  lmHead := model.lmHead

noncomputable abbrev ExactModel.runner (model : ExactModel llama Hidden Logits)
    (config : EngineConfig) (argmax : Logits → TokenId) (multinomial : Logits → ℚ → TokenId)
    (supportsCudagraph : Bool) :
    LlamaModelRunner Hidden (List EReal) (List EReal × List EReal) (List EReal) Logits :=
  .ofConfig config model.decoder argmax multinomial supportsCudagraph

/-- The kernels' `int`s and their launches hold every batch: the cells of a cache and the slots for
padding, the queries and what is appended, the heads, and the block tables. -/
structure EngineConfig.FitsTensors (config : EngineConfig) (llama : LlamaConfig) : Prop where
  cache_le : (config.numGpuBlocks * config.blockSize + config.maxNumSeqs) * llama.kvWidth ≤ 2 ^ 31
  query_le : config.maxNumBatchedTokens * llama.hiddenSize ≤ 2 ^ 31
  appended_lt : config.maxNumBatchedTokens * llama.kvWidth + 256 < 2 ^ 31
  heads_le : llama.numAttentionHeads ≤ 65535
  tables_lt : config.maxNumSeqs *
    ((config.maxModelLen + config.blockSize - 1) / config.blockSize) < 2 ^ 31

theorem LlamaConfig.Supported.kvWidth_pos (h : llama.Supported) : 0 < llama.kvWidth :=
  Nat.mul_pos (Nat.pos_of_dvd_of_pos h.kvHeads_dvd h.heads_pos) h.headDim_pos

namespace EngineConfig.FitsTensors

variable {config : EngineConfig}

theorem slots_le (h : config.FitsTensors llama) (hllama : llama.Supported) :
    config.numGpuBlocks * config.blockSize + config.maxNumSeqs ≤ 2 ^ 31 :=
  (Nat.le_mul_of_pos_right _ hllama.kvWidth_pos).trans h.cache_le

theorem fitsInt32 (h : config.FitsTensors llama) (hllama : llama.Supported) :
    config.FitsInt32 where
  slots := (Nat.le_add_right _ _).trans (h.slots_le hllama)
  tokens := by
    have happended := h.appended_lt
    have hle : config.maxNumBatchedTokens ≤ config.maxNumBatchedTokens * llama.kvWidth :=
      Nat.le_mul_of_pos_right _ hllama.kvWidth_pos
    omega

theorem blockSize_lt (h : config.FitsTensors llama) (hllama : llama.Supported) :
    config.blockSize < 2 ^ 31 := by
  have hslots := h.slots_le hllama
  have hseats := config.maxNumSeqs_pos
  have hle : config.blockSize ≤ config.numGpuBlocks * config.blockSize :=
    Nat.le_mul_of_pos_left _ config.numGpuBlocks_pos
  omega

end EngineConfig.FitsTensors

section Execution

variable {config : EngineConfig} {tokenizer : Tokenizer} {model : ExactModel llama Hidden Logits}
  {argmax : Logits → TokenId} {multinomial : Logits → ℚ → TokenId} {supportsCudagraph : Bool}
  {s admitted : Scheduler} {items : List WorkerItem} {m' : KVCacheManager}
  {tensors : List (KVCaches EReal)} {state : RunnerState (List EReal × List EReal) Logits}

end Execution

/-! ## Runs -/

section Runs

variable {config : EngineConfig} {tokenizer : Tokenizer} {model : ExactModel llama Hidden Logits}
  {argmax : Logits → TokenId} {multinomial : Logits → ℚ → TokenId} {supportsCudagraph : Bool}

end Runs

/-! ## A model that counts -/

end MiniVLLM
