import MiniVLLM.Model.Protocol

/-! # The engine client

The parent process: submitted requests, their streams, and the thread that routes outputs.
A stream is known by the number of its creation. Each call is one step, and what it puts on
the command queue is kept in `sent` in the order of the puts. -/

namespace MiniVLLM

/-- What a caller passes as the prompt. A JSON body may hold any value there. -/
inductive Prompt where
  | text (text : Text)
  | other
  deriving DecidableEq, Repr

/-- The tokenizer of the client. On texts its `encode` may raise as well. -/
structure PromptTokenizer where
  bosTokenId : TokenId
  encodeText : Text → Except PyError (List TokenId)

namespace PromptTokenizer

/-- `encode`, with the text it was given. Both tokenizers refuse what is not a string. -/
def encode (tokenizer : PromptTokenizer) : Prompt → Except PyError (Text × List TokenId)
  | .text text => (tokenizer.encodeText text).map (fun tokenIds => (text, tokenIds))
  | .other => .error (.typeError "prompt must be a string")

def ofTokenizer (tokenizer : Tokenizer) : PromptTokenizer where
  bosTokenId := tokenizer.bosTokenId
  encodeText := fun text => .ok (tokenizer.encode text)

end PromptTokenizer

structure Client where
  streams : Dict RequestId ℕ := .empty
  streamItems : ℕ → List RequestOutput := fun _ => []
  nextStream : ℕ := 0
  seenBatches : List (ℕ × ℕ) := []
  totalBatches : ℕ := 0
  totalScheduledTokens : ℕ := 0
  totalPrefillTokens : ℕ := 0
  totalDecodeTokens : ℕ := 0
  closed : Bool := false
  sent : List EngineCommand := []

namespace Client

def put (command : EngineCommand) : Py Client Unit :=
  modify fun client => { client with sent := client.sent ++ [command] }

/-- `queue.Queue()`. -/
def newStream : Py Client ℕ := do
  let client ← get
  set { client with nextStream := client.nextStream + 1 }
  pure client.nextStream

/-- `request_id or uuid.uuid4().hex`: an empty id counts as none. -/
def chooseId (requestId : Option RequestId) (uuid : RequestId) : RequestId :=
  match requestId with
  | some requestId => if requestId = "" then uuid else requestId
  | none => uuid

/-- Enters a stream under its id, unless the id is taken. -/
def register (requestId : RequestId) (stream : ℕ) : Py Client Unit := do
  let client ← get
  if requestId ∈ client.streams.keys then
    throw (.valueError s!"duplicate request id: {requestId}")
  else
    set { client with streams := client.streams.set requestId stream }

def submit (tokenizer : PromptTokenizer) (uuid : RequestId) (prompt : Prompt)
    (samplingParams : SamplingParams) (requestId : Option RequestId) :
    Py Client (RequestId × ℕ) := do
  let client ← get
  if client.closed then
    throw (.runtimeError "engine is closed")
  else
    let requestId := chooseId requestId uuid
    let stream ← newStream
    register requestId stream
    let (text, tokenIds) ← EStateM.ofExcept (tokenizer.encode prompt)
    put (.add
      { requestId := requestId
        prompt := text
        promptTokenIds := if tokenIds = [] then [tokenizer.bosTokenId] else tokenIds
        samplingParams := samplingParams })
    pure (requestId, stream)

def finishStream (requestId : RequestId) : Py Client Unit :=
  modify fun client => { client with streams := client.streams.erase requestId }

def abort (requestId : RequestId) : Py Client Unit := do
  let client ← get
  if client.closed then pure () else put (.abort requestId)

/-- `close()`, up to the SHUTDOWN. Joining the process changes nothing here. -/
def close : Py Client Unit := do
  let client ← get
  if client.closed then
    pure ()
  else
    set { client with closed := true }
    put .shutdown

/-- Adds the counts of a batch that was not seen before. -/
def countBatch (metrics : BatchMetrics) (client : Client) : Client :=
  if (metrics.rank, metrics.batchId) ∈ client.seenBatches then client
  else
    { client with
      seenBatches := (metrics.rank, metrics.batchId) :: client.seenBatches
      totalBatches := client.totalBatches + 1
      totalScheduledTokens := client.totalScheduledTokens + metrics.numScheduledTokens
      totalPrefillTokens := client.totalPrefillTokens + metrics.numPrefillTokens
      totalDecodeTokens := client.totalDecodeTokens + metrics.numDecodeTokens }

/-- The metrics an event carries. -/
def eventMetrics : OutputEvent → Option BatchMetrics
  | .metrics metrics => some metrics
  | .output output => output.metrics

/-- Puts an output on the stream of its id, if one is registered. -/
def deliver (output : RequestOutput) (client : Client) : Client :=
  match client.streams.get? output.requestId with
  | none => client
  | some stream =>
      { client with
        streamItems := Function.update client.streamItems stream
          (client.streamItems stream ++ [output]) }

/-- One turn of `_route_outputs`. -/
def route (event : OutputEvent) (client : Client) : Client :=
  let counted :=
    match eventMetrics event with
    | none => client
    | some metrics => client.countBatch metrics
  match event with
  | .metrics _ => counted
  | .output output => counted.deliver output

/-- What happens to the client: a call of its user, or an event for the router. -/
inductive Call where
  | submit (uuid : RequestId) (prompt : Prompt) (samplingParams : SamplingParams)
      (requestId : Option RequestId)
  | finishStream (requestId : RequestId)
  | abort (requestId : RequestId)
  | close
  | route (event : OutputEvent)

def Call.execute (tokenizer : PromptTokenizer) : Call → Py Client Unit
  | .submit uuid prompt samplingParams requestId => do
      let _ ← Client.submit tokenizer uuid prompt samplingParams requestId
      pure ()
  | .finishStream requestId => Client.finishStream requestId
  | .abort requestId => Client.abort requestId
  | .close => Client.close
  | .route event => modify (Client.route event)

/-- The client after a call, also after one that raised, and the commands it put. -/
def step (tokenizer : PromptTokenizer) (client : Client) (call : Call) :
    Client × List EngineCommand :=
  let client' := (call.execute tokenizer).final { client with sent := [] }
  ({ client' with sent := [] }, client'.sent)

end Client

end MiniVLLM
