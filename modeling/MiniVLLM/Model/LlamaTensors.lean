import MiniVLLM.Library.Ragged
import MiniVLLM.Model.AttentionBackends
import MiniVLLM.Model.ModelRunner

/-! # The Llama runner over tensors

Every layer hands whole tensors to its attention backend, and keeps its keys and its values in one
tensor each. -/

namespace MiniVLLM

/-- The fields of a `LlamaConfig` that attention depends on, as `head_dim` accepts them. -/
structure LlamaConfig where
  hiddenSize : ℕ
  numAttentionHeads : ℕ
  numKeyValueHeads : ℕ
  heads_dvd : numAttentionHeads ∣ hiddenSize

namespace LlamaConfig

def headDim (config : LlamaConfig) : ℕ := config.hiddenSize / config.numAttentionHeads

end LlamaConfig

/-- A layer whose rows are the heads of a token, one after the other. -/
abbrev TensorLayer (Hidden α : Type) :=
  LlamaDecoderLayer Hidden (List α) (List α × List α) (List α)

variable {Hidden α Logits : Type}

namespace LlamaAttention

/-- `reshape(-1, width)`, for a tensor of `count` rows. -/
def reshape (tensor : List α) (width count : ℕ) : List (List α) :=
  (List.range count).map (Ragged.row tensor width)

/-- What `forward` hands to the backend. -/
def args (config : LlamaConfig) (cacheSlots : ℕ) (metadata : AttentionMetadata)
    (projected : List (List α × List α × List α)) : AttentionArgs α where
  totalTokens := projected.length
  cacheSlots := cacheSlots
  queryHeads := config.numAttentionHeads
  kvHeads := config.numKeyValueHeads
  headDim := config.headDim
  query := projected.flatMap (·.1)
  key := projected.flatMap (·.2.1)
  value := projected.flatMap (·.2.2)
  metadata := metadata

end LlamaAttention

end MiniVLLM
