import MiniVLLM.Model.Client
import MiniVLLM.Model.Coordinator
import MiniVLLM.Model.Core

/-! # The processes and their queues

The client, the coordinator and the engine cores run side by side, joined by queues that are
read in the order of the puts. One step is one call of the client, one message that some
process takes from a queue, or one engine step. With a single rank there is no coordinator:
the core reads the command queue and writes the output queue of the client.

ADD commands and outputs carry the number of the stream that their submission created.
No process reads these numbers; they only say whose message it is. -/

namespace MiniVLLM

structure Tagged (α : Type) where
  value : α
  submission : Option ℕ := none

/-- An engine core with its queues; `owners` are the submissions of its live requests. -/
structure RankProcess where
  core : EngineCore
  commands : List (Tagged EngineCommand) := []
  outputs : List (Tagged OutputEvent) := []
  owners : RequestId → Option ℕ := fun _ => none

structure System where
  client : Client := {}
  commands : List (Tagged EngineCommand) := []
  coordinator : DPCoordinator := {}
  ranks : ℕ → RankProcess
  outputs : List (Tagged OutputEvent) := []

namespace System

/-- There is a coordinator process. -/
def Coordinated (config : EngineConfig) : Prop := 1 < config.dataParallelSize

instance (config : EngineConfig) : Decidable (Coordinated config) := by
  unfold Coordinated
  infer_instance

/-- `replace(config, data_parallel_size=1, data_parallel_rank=rank)`, or the configuration
itself where the client starts the core. -/
def coreConfig (config : EngineConfig) (rank : ℕ) : EngineConfig :=
  if Coordinated config then
    { config with
      dataParallelSize := 1
      dataParallelRank := rank
      dataParallelSize_pos := Nat.one_pos }
  else config

def init (config : EngineConfig) : System where
  ranks := fun rank => { core := .init (coreConfig config rank) }

def onRank (s : System) (rank : ℕ) (f : RankProcess → RankProcess) : System :=
  { s with ranks := Function.update s.ranks rank (f (s.ranks rank)) }

def putRankCommand (s : System) (rank : ℕ) (command : Tagged EngineCommand) : System :=
  s.onRank rank fun process => { process with commands := process.commands ++ [command] }

/-- A put on the command queue of the client. -/
def putCommand (config : EngineConfig) (s : System) (command : Tagged EngineCommand) : System :=
  if Coordinated config then { s with commands := s.commands ++ [command] }
  else s.putRankCommand 0 command

/-- Puts on the output queue of a core. -/
def putOutputs (config : EngineConfig) (s : System) (rank : ℕ)
    (events : List (Tagged OutputEvent)) : System :=
  if Coordinated config then
    s.onRank rank fun process => { process with outputs := process.outputs ++ events }
  else { s with outputs := s.outputs ++ events }

/-- What happened at the places where messages change hands. -/
inductive Observation where
  | forwarded (rank : ℕ) (command : Tagged EngineCommand)
  | sent (rank : ℕ) (message : CoreMessage)
  | drained (rank : ℕ) (event : Tagged OutputEvent)
  | delivered (stream : ℕ) (output : RequestOutput) (submission : Option ℕ)

inductive Event where
  | call (call : Client.Call)
  | coordinate
  | drain (rank : ℕ)
  | coordinatorLeave
  | command (rank : ℕ)
  | engineStep (rank : ℕ) (incoming : List WorkerResult)
  | leave (rank : ℕ)
  | route

/-- The submission of a command: an ADD belongs to the stream that its call creates. -/
def submissionOf (client : Client) : EngineCommand → Option ℕ
  | .add _ => some client.nextStream
  | _ => none

/-- A call of the client's user. Routing is the router's own step. -/
def call (config : EngineConfig) (tokenizer : PromptTokenizer) (s : System)
    (call : Client.Call) : System :=
  let (client, sent) := s.client.step tokenizer call
  sent.foldl (fun s command => s.putCommand config ⟨command, submissionOf s.client command⟩) s
    |> fun s => { s with client := client }

/-- The coordinator takes the next command. -/
def coordinate (config : EngineConfig) (s : System) : Option (System × List Observation) :=
  if s.coordinator.stopped then none
  else
    match s.commands with
    | [] => none
    | command :: commands =>
        let (coordinator, rank?) := s.coordinator.handleCommand config command.value
        let s := { s with coordinator := coordinator, commands := commands }
        match rank? with
        | none => some (s, [])
        | some rank => some (s.putRankCommand rank command, [.forwarded rank command])

/-- The coordinator passes on the next output of a rank. -/
def drain (s : System) (rank : ℕ) : Option (System × List Observation) :=
  if s.coordinator.stopped then none
  else
    match (s.ranks rank).outputs with
    | [] => none
    | event :: outputs =>
        let s := s.onRank rank fun process => { process with outputs := outputs }
        some ({ s with
            coordinator := s.coordinator.drainOutput rank event.value
            outputs := s.outputs ++ [event] },
          [.drained rank event])

/-- The `finally` clause of the coordinator: every core is told to stop. -/
def coordinatorLeave (config : EngineConfig) (s : System) : Option (System × List Observation) :=
  if s.coordinator.shutdown && !s.coordinator.stopped then
    some ((List.range config.dataParallelSize).foldl
        (fun s rank => s.putRankCommand rank ⟨.shutdown, none⟩)
        { s with coordinator := { s.coordinator with stopped := true } }, [])
  else none

/-- Whose output it is: a rejected ADD's own, or that of the request that is live. -/
def ownerOf (event : EngineCore.Event) (submission : Option ℕ) (owners : RequestId → Option ℕ)
    (output : RequestOutput) : Option ℕ :=
  match event with
  | .command (.add _) => submission
  | _ => owners output.requestId

def tagMessage (event : EngineCore.Event) (submission : Option ℕ)
    (owners : RequestId → Option ℕ) : CoreMessage → Option (Tagged OutputEvent)
  | .event (.output output) => some ⟨.output output, ownerOf event submission owners output⟩
  | .event (.metrics metrics) => some ⟨.metrics metrics, none⟩
  | .batch _ _ => none

/-- An ADD that is not rejected makes its submission the owner of the id. -/
def newOwners (event : EngineCore.Event) (submission : Option ℕ) (messages : List CoreMessage)
    (owners : RequestId → Option ℕ) : RequestId → Option ℕ :=
  match event with
  | .command (.add request) =>
      if messages = [] then Function.update owners request.requestId submission else owners
  | _ => owners

/-- One iteration of a core, with what it put. -/
def coreStep (config : EngineConfig) (tokenizer : Tokenizer) (s : System) (rank : ℕ)
    (event : EngineCore.Event) (submission : Option ℕ) : Option (System × List Observation) :=
  match EngineCore.step (coreConfig config rank) tokenizer (s.ranks rank).core event with
  | none => none
  | some (core, messages) =>
      let events := messages.filterMap (tagMessage event submission (s.ranks rank).owners)
      let s := s.onRank rank fun process =>
        { process with
          core := core
          owners := newOwners event submission messages process.owners }
      some (s.putOutputs config rank events, messages.map (.sent rank))

/-- The core takes its next command. -/
def takeCommand (config : EngineConfig) (tokenizer : Tokenizer) (s : System) (rank : ℕ) :
    Option (System × List Observation) :=
  match (s.ranks rank).commands with
  | [] => none
  | command :: commands =>
      (s.onRank rank fun process => { process with commands := commands }).coreStep config
        tokenizer rank (.command command.value) command.submission

/-- Where the router puts an event: on the stream of the output's id, if one is registered. -/
def deliveries (client : Client) (event : Tagged OutputEvent) : List Observation :=
  match event.value with
  | .metrics _ => []
  | .output output =>
      match client.streams.get? output.requestId with
      | none => []
      | some stream => [.delivered stream output event.submission]

/-- The router takes the next output. -/
def route (s : System) : Option (System × List Observation) :=
  match s.outputs with
  | [] => none
  | event :: outputs =>
      some ({ s with client := s.client.route event.value, outputs := outputs },
        deliveries s.client event)

def step (config : EngineConfig) (promptTokenizer : PromptTokenizer) (tokenizer : Tokenizer)
    (s : System) : Event → Option (System × List Observation)
  | .call (.route _) => none
  | .call call => some (s.call config promptTokenizer call, [])
  | .coordinate => if Coordinated config then s.coordinate config else none
  | .drain rank =>
      if Coordinated config ∧ rank < config.dataParallelSize then s.drain rank else none
  | .coordinatorLeave => if Coordinated config then s.coordinatorLeave config else none
  | .command rank =>
      if rank < config.dataParallelSize then s.takeCommand config tokenizer rank else none
  | .engineStep rank incoming =>
      if rank < config.dataParallelSize then
        s.coreStep config tokenizer rank (.engineStep incoming) none
      else none
  | .leave rank =>
      if rank < config.dataParallelSize then s.coreStep config tokenizer rank .leave none
      else none
  | .route => s.route

end System

end MiniVLLM
