import MiniVLLM.Library.Dict
import MiniVLLM.Library.ErrorState

/-! # Configuration and messages

Request ids, token ids and block ids are the values the processes exchange. Decoded text
is a list of code points, so that `endswith` and slicing are list operations. -/

namespace MiniVLLM

abbrev RequestId := String

abbrev TokenId := ℕ

abbrev Text := List Char

/-- The exceptions the modelled code raises, with the argument of each. The last one is no
exception: it marks a queue read that never returns. -/
inductive PyError where
  | valueError (message : String)
  | runtimeError (message : String)
  | memoryError (message : String)
  | indexError (message : String)
  | keyError (key : String)
  | typeError (message : String)
  | blocked
  deriving DecidableEq, Repr

/-- The text `str(error)` gives. -/
def PyError.message : PyError → String
  | valueError message => message
  | runtimeError message => message
  | memoryError message => message
  | indexError message => message
  | keyError key => s!"'{key}'"
  | typeError message => message
  | blocked => ""

abbrev Py (σ α : Type) := EStateM PyError σ α

/-- Sampling parameters that passed `__post_init__`. -/
structure SamplingParams where
  maxTokens : ℕ := 16
  temperature : ℚ := 0
  stop : List Text := []
  maxTokens_pos : 0 < maxTokens := by decide
  temperature_nonneg : 0 ≤ temperature := by decide
  stop_ne_nil : ∀ s ∈ stop, s ≠ [] := by decide

/-- `SamplingParams()`. -/
def SamplingParams.defaults : SamplingParams := {}

inductive CudaGraphMode where
  | none
  | fullDecodeOnly
  deriving DecidableEq, Repr

/-- The engine configuration, restricted to the values its `__post_init__` accepts. -/
structure EngineConfig where
  dataParallelSize : ℕ := 1
  dataParallelRank : ℕ := 0
  maxNumSeqs : ℕ := 32
  maxNumBatchedTokens : ℕ := 256
  maxModelLen : ℕ := 2048
  blockSize : ℕ := 16
  numGpuBlocks : ℕ := 256
  cudagraphMode : CudaGraphMode := .none
  cudagraphCaptureSizes : List ℕ := [1, 2, 4, 8, 16, 32]
  dataParallelSize_pos : 0 < dataParallelSize := by decide
  maxNumSeqs_pos : 0 < maxNumSeqs := by decide
  maxNumBatchedTokens_pos : 0 < maxNumBatchedTokens := by decide
  maxModelLen_pos : 0 < maxModelLen := by decide
  blockSize_pos : 0 < blockSize := by decide
  numGpuBlocks_pos : 0 < numGpuBlocks := by decide
  captureSizes_ne_nil : cudagraphCaptureSizes ≠ [] := by decide
  captureSizes_pos : ∀ size ∈ cudagraphCaptureSizes, 0 < size := by decide
  captureSizes_sorted : cudagraphCaptureSizes.Pairwise (· < ·) := by decide

/-- `EngineConfig()`. -/
def EngineConfig.defaults : EngineConfig := {}

/-- The bound on prompt plus output that admission and `append_token` both compute. -/
def EngineConfig.contextLimit (config : EngineConfig) : ℕ :=
  min config.maxModelLen (config.numGpuBlocks * config.blockSize)

inductive FinishReason where
  | stop
  | length
  | abort
  | error
  deriving DecidableEq, Repr

structure EngineRequest where
  requestId : RequestId
  prompt : Text
  promptTokenIds : List TokenId
  samplingParams : SamplingParams

/-- `_handle_command` ignores an ADD without a request and an ABORT without an id; no sender
builds either. -/
inductive EngineCommand where
  | add (request : EngineRequest)
  | abort (requestId : RequestId)
  | shutdown

structure BatchMetrics where
  batchId : ℕ
  rank : ℕ
  numRequests : ℕ
  numScheduledTokens : ℕ
  numPrefillTokens : ℕ
  numDecodeTokens : ℕ
  deriving DecidableEq, Repr

structure RequestOutput where
  requestId : RequestId
  tokenIds : List TokenId
  text : Text
  finished : Bool
  finishReason : Option FinishReason := none
  error : Option String := none
  metrics : Option BatchMetrics := none
  deriving DecidableEq, Repr

/-- What an engine core puts on its output queue. -/
inductive OutputEvent where
  | output (output : RequestOutput)
  | metrics (metrics : BatchMetrics)
  deriving DecidableEq, Repr

structure WorkerItem where
  requestId : RequestId
  tokenIds : List TokenId
  startPos : ℕ
  slotMapping : List ℕ
  blockTable : List ℕ
  seqLen : ℕ
  generatedCount : ℕ
  shouldSample : Bool
  temperature : ℚ := 0
  deriving DecidableEq, Repr

structure WorkerBatch where
  batchId : ℕ
  items : List WorkerItem
  deriving DecidableEq, Repr

/-- A Worker's answer. The batch id `-1` reports that the Worker failed to start. -/
structure WorkerResult where
  batchId : ℤ
  rank : ℕ
  sampledTokenIds : Dict RequestId TokenId
  error : Option String := none
  metrics : Option BatchMetrics := none
  deriving DecidableEq

/-- Python's truth value of `result.error`: an empty text counts as no error. -/
def WorkerResult.failed (result : WorkerResult) : Bool :=
  match result.error with
  | some message => message ≠ ""
  | none => false

/-- The tokenizer operations the engine uses. -/
structure Tokenizer where
  eosTokenId : TokenId
  bosTokenId : TokenId
  encode : Text → List TokenId
  decode : List TokenId → Text

/-- The dependency-free tokenizer: control tokens 0 to 2, code points shifted by three. -/
def characterTokenizer : Tokenizer where
  eosTokenId := 1
  bosTokenId := 2
  encode := fun text => text.map (fun char => char.toNat + 3)
  decode := fun tokenIds =>
    (tokenIds.filter (fun tokenId => 3 ≤ tokenId)).map (fun tokenId => Char.ofNat (tokenId - 3))

/-- Decoding an encoded text gives the text back. -/
theorem characterTokenizer_decode_encode (text : Text) :
    characterTokenizer.decode (characterTokenizer.encode text) = text := by
  induction text with
  | nil => rfl
  | cons char text ih =>
      simp only [characterTokenizer, List.map_cons] at ih ⊢
      rw [List.filter_cons_of_pos (by simp), List.map_cons, ih]
      simp

end MiniVLLM
