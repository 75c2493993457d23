import MiniVLLM.Model.Scheduler

/-! # The engine core

The scheduling loop of one rank. It is one process, so a command or an engine step is
handled as a whole; what it puts on its queues is kept in `sent` in the order of the puts. -/

namespace MiniVLLM

/-- A put on the output queue, or on a Worker's queue. -/
inductive CoreMessage where
  | event (event : OutputEvent)
  | batch (rank : ℕ) (batch : WorkerBatch)
  deriving DecidableEq, Repr

structure EngineCore where
  scheduler : Scheduler
  batchId : ℕ := 0
  shutdown : Bool := false
  stopped : Bool := false
  sent : List CoreMessage := []

namespace EngineCore

def init (config : EngineConfig) : EngineCore := { scheduler := .init config }

/-- Runs a scheduler operation inside the core. -/
def onScheduler {α : Type} (x : Py Scheduler α) : Py EngineCore α :=
  EStateM.zoom EngineCore.scheduler (fun s core => { core with scheduler := s }) x

def send (message : CoreMessage) : Py EngineCore Unit :=
  modify fun core => { core with sent := core.sent ++ [message] }

def put (output : RequestOutput) : Py EngineCore Unit :=
  send (.event (.output output))

def errorOutput (requestId : RequestId) (error : String) : RequestOutput where
  requestId := requestId
  tokenIds := []
  text := []
  finished := true
  finishReason := some .error
  error := some error

def emitError (requestId : RequestId) (error : String) : Py EngineCore Unit :=
  put (errorOutput requestId error)

def abortOutput (requestId : RequestId) : RequestOutput where
  requestId := requestId
  tokenIds := []
  text := []
  finished := true
  finishReason := some .abort

def handleCommand (config : EngineConfig) : EngineCommand → Py EngineCore Unit
  | .shutdown => modify fun core => { core with shutdown := true }
  | .add request =>
      tryCatch (onScheduler (Scheduler.addRequest config request))
        (fun error => emitError request.requestId error.message)
  | .abort requestId => do
      let aborted ← onScheduler (Scheduler.abort requestId)
      if aborted then put (abortOutput requestId) else pure ()

/-- Hands each rank its items. A core owns the Workers `0, …, data_parallel_size - 1`. -/
def putBatches (config : EngineConfig) (batchId : ℕ) :
    List (Option ℕ × List WorkerItem) → Py EngineCore Unit
  | [] => pure ()
  | (rank, items) :: batches => do
      match rank with
      | none => throw (.typeError "list indices must be integers or slices, not NoneType")
      | some rank =>
          if rank < config.dataParallelSize then
            send (.batch rank ⟨batchId, items⟩)
          else
            throw (.indexError "list index out of range")
      putBatches config batchId batches

/-- Reads results until every rank of the schedule has answered. Results of other batches
are dropped, and batch id `-1` ends the engine. -/
def collectResults (batchId : ℕ) (expected : ℕ) :
    List WorkerResult → Dict ℕ WorkerResult → Py EngineCore (Dict ℕ WorkerResult)
  | incoming, results =>
      if results.length < expected then
        match incoming with
        | [] => throw .blocked
        | result :: incoming =>
            if result.batchId = -1 then
              throw (.runtimeError (result.error.getD "None"))
            else if result.batchId = batchId then
              collectResults batchId expected incoming (results.set result.rank result)
            else
              collectResults batchId expected incoming results
      else
        pure results

def failItems (error : String) : List WorkerItem → Py EngineCore Unit
  | [] => pure ()
  | item :: items => do
      emitError item.requestId error
      let _ ← onScheduler (Scheduler.finish item.requestId)
      failItems error items

/-- The text a new token adds, or the token decoded alone when the decoded output did not
grow by a suffix. -/
def addedText (tokenizer : Tokenizer) (tokenId : TokenId) (previousText currentText : Text) :
    Text :=
  if previousText.isPrefixOf currentText then currentText.drop previousText.length
  else tokenizer.decode [tokenId]

def tokenOutput (tokenizer : Tokenizer) (requestId : RequestId) (tokenId : TokenId)
    (text : Text) (reason : Option FinishReason) (metrics : Option BatchMetrics) :
    RequestOutput where
  requestId := requestId
  tokenIds := if tokenId = tokenizer.eosTokenId then [] else [tokenId]
  text := text
  finished := reason.isSome
  finishReason := reason
  metrics := metrics

def processItem (config : EngineConfig) (tokenizer : Tokenizer)
    (scheduledCounts : Dict RequestId ℕ) (result : WorkerResult) (item : WorkerItem) :
    Py EngineCore Unit := do
  let core ← get
  if item.requestId ∉ core.scheduler.running.keys then
    pure ()
  else
    let count ← EStateM.getOrRaise (.keyError item.requestId)
      (scheduledCounts.get? item.requestId)
    onScheduler (Scheduler.updateComputed item.requestId count)
    match result.sampledTokenIds.get? item.requestId with
    | none => pure ()
    | some tokenId => do
        let previousText ← onScheduler (Scheduler.outputText tokenizer item.requestId)
        let reason ← onScheduler
          (Scheduler.appendToken config tokenizer item.requestId tokenId)
        let currentText ← onScheduler (Scheduler.outputText tokenizer item.requestId)
        put (tokenOutput tokenizer item.requestId tokenId
          (addedText tokenizer tokenId previousText currentText) reason result.metrics)
        if reason.isSome then
          let _ ← onScheduler (Scheduler.finish item.requestId)
          pure ()
        else
          pure ()

def processItems (config : EngineConfig) (tokenizer : Tokenizer)
    (scheduledCounts : Dict RequestId ℕ) (result : WorkerResult) :
    List WorkerItem → Py EngineCore Unit
  | [] => pure ()
  | item :: items => do
      processItem config tokenizer scheduledCounts result item
      processItems config tokenizer scheduledCounts result items

def putMetrics : Option BatchMetrics → Py EngineCore Unit
  | none => pure ()
  | some metrics => send (.event (.metrics metrics))

def processResult (config : EngineConfig) (tokenizer : Tokenizer) (schedule : Schedule)
    (result : WorkerResult) : Py EngineCore Unit := do
  putMetrics result.metrics
  let items ← EStateM.getOrRaise (.keyError (toString result.rank))
    (schedule.byRank.get? (some result.rank))
  if result.failed then
    failItems (result.error.getD "") items
  else
    processItems config tokenizer schedule.scheduledCounts result items

def processResults (config : EngineConfig) (tokenizer : Tokenizer) (schedule : Schedule) :
    List WorkerResult → Py EngineCore Unit
  | [] => pure ()
  | result :: results => do
      processResult config tokenizer schedule result
      processResults config tokenizer schedule results

/-- `incoming` is what the Worker result queue delivers while the step waits. -/
def executeSchedule (config : EngineConfig) (tokenizer : Tokenizer)
    (incoming : List WorkerResult) : Py EngineCore Unit := do
  let schedule ← onScheduler (Scheduler.schedule config)
  if schedule.byRank.entries.isEmpty then
    pure ()
  else
    modify fun core => { core with batchId := core.batchId + 1 }
    let core ← get
    putBatches config core.batchId schedule.byRank.entries
    let results ← collectResults core.batchId schedule.byRank.length incoming .empty
    processResults config tokenizer schedule results.values

/-- The `except` clause of `run()`: every live request is told, and the loop is left. -/
def crash (error : PyError) (core : EngineCore) : EngineCore :=
  { core with
    stopped := true
    sent := core.sent ++
      (core.scheduler.running.keys ++ core.scheduler.waiting.map (·.requestId)).map
        (fun requestId => .event (.output (errorOutput requestId error.message))) }

/-- What `run()` does next: handle one command, make one engine step, or leave the loop
after a SHUTDOWN. -/
inductive Event where
  | command (command : EngineCommand)
  | engineStep (incoming : List WorkerResult)
  | leave

/-- The core after a loop body, with the messages it sent. A blocked read has no successor. -/
def settle : EStateM.Result PyError EngineCore Unit → Option (EngineCore × List CoreMessage)
  | .ok _ core => some ({ core with sent := [] }, core.sent)
  | .error .blocked _ => none
  | .error error core => some ({ core.crash error with sent := [] }, (core.crash error).sent)

/-- One iteration of `run()`, cut into single commands and engine steps. -/
def step (config : EngineConfig) (tokenizer : Tokenizer) (core : EngineCore) :
    Event → Option (EngineCore × List CoreMessage)
  | .command command =>
      if core.stopped then none
      else settle ((handleCommand config command).run { core with sent := [] })
  | .engineStep incoming =>
      if core.stopped || core.shutdown then none
      else settle ((executeSchedule config tokenizer incoming).run { core with sent := [] })
  | .leave =>
      if core.shutdown && !core.stopped then some ({ core with stopped := true, sent := [] }, [])
      else none

end EngineCore

end MiniVLLM
