import MiniVLLM.Model.Cache

/-! # The token scheduler

One rank's waiting queue, running requests and block tables. Timestamps are left out: they
feed latency reports only. -/

namespace MiniVLLM

structure RequestState where
  requestId : RequestId
  prompt : Text
  promptTokenIds : List TokenId
  samplingParams : SamplingParams
  outputTokenIds : List TokenId := []
  numComputedTokens : ℕ := 0
  rank : Option ℕ := none

namespace RequestState

def ofRequest (request : EngineRequest) : RequestState where
  requestId := request.requestId
  prompt := request.prompt
  promptTokenIds := request.promptTokenIds
  samplingParams := request.samplingParams

def allTokenIds (request : RequestState) : List TokenId :=
  request.promptTokenIds ++ request.outputTokenIds

end RequestState

structure Schedule where
  byRank : Dict (Option ℕ) (List WorkerItem)
  scheduledCounts : Dict RequestId ℕ

namespace Schedule

def empty : Schedule := ⟨.empty, .empty⟩

/-- `by_rank.setdefault(rank, []).append(item)` and the entry of `scheduled_counts`. -/
def issue (schedule : Schedule) (rank : Option ℕ) (item : WorkerItem) (count : ℕ) : Schedule where
  byRank := schedule.byRank.set rank ((schedule.byRank.get? rank).getD [] ++ [item])
  scheduledCounts := schedule.scheduledCounts.set item.requestId count

end Schedule

structure Scheduler where
  waiting : List RequestState
  running : Dict RequestId RequestState
  cacheManager : KVCacheManager

namespace Scheduler

def init (config : EngineConfig) : Scheduler := ⟨[], .empty, .init config.numGpuBlocks⟩

/-- Runs a cache operation inside the scheduler. -/
def onCache {α : Type} (x : Py KVCacheManager α) : Py Scheduler α :=
  EStateM.zoom Scheduler.cacheManager (fun m s => { s with cacheManager := m }) x

def addRequest (config : EngineConfig) (request : EngineRequest) : Py Scheduler Unit := do
  let s ← get
  if request.requestId ∈ s.running.keys ∨ request.requestId ∈ s.waiting.map (·.requestId) then
    throw (.valueError s!"duplicate request id: {request.requestId}")
  else if config.contextLimit ≤ request.promptTokenIds.length then
    throw (.valueError "prompt leaves no generation capacity in this rank's KV cache")
  else
    set { s with waiting := s.waiting ++ [RequestState.ofRequest request] }

/-- One turn of the admission loop for the head of the queue. A request whose first chunk
does not fit goes to the end of the queue. -/
def admitRequest (config : EngineConfig) (request : RequestState) : Py Scheduler Unit := do
  onCache (KVCacheManager.create request.requestId)
  let firstTarget := min request.promptTokenIds.length config.maxNumBatchedTokens
  let fits ← onCache (KVCacheManager.canReserve config.blockSize request.requestId firstTarget)
  if fits then
    modify fun s =>
      { s with running := s.running.set request.requestId { request with rank := some 0 } }
  else
    onCache (KVCacheManager.release request.requestId)
    modify fun s => { s with waiting := s.waiting ++ [request] }

def admitLoop (config : EngineConfig) : ℕ → Py Scheduler Unit
  | 0 => pure ()
  | attempts + 1 => do
      let s ← get
      match s.waiting with
      | [] => pure ()
      | request :: waiting =>
          if s.running.length < config.maxNumSeqs then
            set { s with waiting := waiting }
            admitRequest config request
            admitLoop config attempts
          else
            pure ()

def admitWaiting (config : EngineConfig) : Py Scheduler Unit := do
  let s ← get
  admitLoop config s.waiting.length

/-- The work item for `count` more tokens of a request. -/
def makeItem (request : RequestState) (count : ℕ) (slotMapping blockTable : List ℕ) :
    WorkerItem where
  requestId := request.requestId
  tokenIds := (request.allTokenIds.drop request.numComputedTokens).take count
  startPos := request.numComputedTokens
  slotMapping := slotMapping
  blockTable := blockTable
  seqLen := request.numComputedTokens + count
  generatedCount := request.outputTokenIds.length
  shouldSample := request.numComputedTokens + count = request.allTokenIds.length
  temperature := request.samplingParams.temperature

def scheduleLoop (config : EngineConfig) :
    List RequestState → ℕ → Schedule → Py Scheduler Schedule
  | [], _, schedule => pure schedule
  | request :: requests, budget, schedule =>
      if budget = 0 then
        pure schedule
      else
        let remaining := request.allTokenIds.length - request.numComputedTokens
        if remaining = 0 then
          scheduleLoop config requests budget schedule
        else do
          let count := min remaining budget
          let target := request.numComputedTokens + count
          let fits ← onCache
            (KVCacheManager.canReserve config.blockSize request.requestId target)
          if fits then
            onCache (KVCacheManager.reserve config.blockSize request.requestId target)
            let slotMapping ← onCache (KVCacheManager.slots config.blockSize request.requestId
              request.numComputedTokens count)
            let blockTable ← onCache (KVCacheManager.blockTable request.requestId)
            scheduleLoop config requests (budget - count)
              (schedule.issue request.rank (makeItem request count slotMapping blockTable) count)
          else
            scheduleLoop config requests budget schedule

def schedule (config : EngineConfig) : Py Scheduler Schedule := do
  admitWaiting config
  let s ← get
  scheduleLoop config s.running.values config.maxNumBatchedTokens .empty

/-- `self.running[request_id]`. -/
def runningRequest (requestId : RequestId) : Py Scheduler RequestState := do
  let s ← get
  EStateM.getOrRaise (.keyError requestId) (s.running.get? requestId)

def updateComputed (requestId : RequestId) (count : ℕ) : Py Scheduler Unit := do
  let request ← runningRequest requestId
  let advanced :=
    { request with numComputedTokens := request.numComputedTokens + count }
  modify fun s => { s with running := s.running.set requestId advanced }

/-- Whether the decoded output ends with one of the request's stop strings. -/
def endsWithStop (tokenizer : Tokenizer) (params : SamplingParams)
    (outputTokenIds : List TokenId) : Bool :=
  params.stop.any (fun stop => stop.isSuffixOf (tokenizer.decode outputTokenIds))

/-- The finish conditions checked after a token was appended, in the order of the source. -/
def finishReason (config : EngineConfig) (tokenizer : Tokenizer) (request : RequestState) :
    Option FinishReason :=
  if endsWithStop tokenizer request.samplingParams request.outputTokenIds then some .stop
  else if request.samplingParams.maxTokens ≤ request.outputTokenIds.length then some .length
  else if config.contextLimit ≤ request.numComputedTokens + 1 then some .length
  else none

def appendToken (config : EngineConfig) (tokenizer : Tokenizer) (requestId : RequestId)
    (tokenId : TokenId) : Py Scheduler (Option FinishReason) := do
  let request ← runningRequest requestId
  if tokenId = tokenizer.eosTokenId then
    pure (some .stop)
  else
    let extended := { request with outputTokenIds := request.outputTokenIds ++ [tokenId] }
    modify fun s => { s with running := s.running.set requestId extended }
    pure (finishReason config tokenizer extended)

def outputText (tokenizer : Tokenizer) (requestId : RequestId) : Py Scheduler Text := do
  let request ← runningRequest requestId
  pure (tokenizer.decode request.outputTokenIds)

def finish (requestId : RequestId) : Py Scheduler (Option RequestState) := do
  let s ← get
  match s.running.get? requestId with
  | none => pure none
  | some request => do
      set { s with running := s.running.erase requestId }
      onCache (KVCacheManager.release requestId)
      pure (some request)

def abort (requestId : RequestId) : Py Scheduler Bool := do
  let s ← get
  if requestId ∈ s.running.keys then
    let _ ← finish requestId
    pure true
  else if requestId ∈ s.waiting.map (·.requestId) then
    set { s with waiting := s.waiting.eraseP (fun request => request.requestId = requestId) }
    pure true
  else
    pure false

def hasRequests (s : Scheduler) : Bool :=
  !s.waiting.isEmpty || !s.running.entries.isEmpty

end Scheduler

end MiniVLLM
