import MiniVLLM.Model.System
import MiniVLLM.Verification.Client.Calls
import MiniVLLM.Verification.Engine.Exits

/-! # Steps of the processes

One rule for each thing that can happen next. The part of a run that one core takes in is a
run of that core alone. -/

namespace MiniVLLM

namespace System

abbrev SystemTransition := Transition System Event Observation

def Event.Ranked : Event → Prop
  | .engineStep _ incoming => EngineCore.RankedAnswers incoming
  | _ => True

instance : DecidablePred Event.Ranked
  | .engineStep _ incoming => inferInstanceAs (Decidable (EngineCore.RankedAnswers incoming))
  | .call _ => isTrue trivial
  | .coordinate => isTrue trivial
  | .drain _ => isTrue trivial
  | .coordinatorLeave => isTrue trivial
  | .command _ => isTrue trivial
  | .leave _ => isTrue trivial
  | .route => isTrue trivial

/-- A step in which a Worker that got a batch answers under its rank. -/
structure Step (config : EngineConfig) (promptTokenizer : PromptTokenizer)
    (tokenizer : Tokenizer) (s : System) (event : Event) (out : List Observation) (s' : System) :
    Prop where
  ranked : event.Ranked
  step_eq : step config promptTokenizer tokenizer s event = some (s', out)

/-- A run from the start of the processes. -/
abbrev SystemRun (config : EngineConfig) (promptTokenizer : PromptTokenizer)
    (tokenizer : Tokenizer) (τs : List SystemTransition) (s : System) : Prop :=
  Run (Step config promptTokenizer tokenizer) (init config) τs s

/-! ## Puts -/

section Puts

variable {config : EngineConfig} {s : System} {rank : ℕ}

theorem onRank_ranks (f : RankProcess → RankProcess) (rank' : ℕ) :
    (s.onRank rank f).ranks rank' = if rank' = rank then f (s.ranks rank') else s.ranks rank' := by
  by_cases h : rank' = rank
  · subst h
    simp [onRank]
  · simp [onRank, h]

@[simp] theorem onRank_ranks_self (f : RankProcess → RankProcess) :
    (s.onRank rank f).ranks rank = f (s.ranks rank) := by
  simp [onRank_ranks]

theorem putRankCommand_ranks (command : Tagged EngineCommand) (rank' : ℕ) :
    (s.putRankCommand rank command).ranks rank' =
      if rank' = rank then { s.ranks rank' with commands := (s.ranks rank').commands ++ [command] }
      else s.ranks rank' :=
  onRank_ranks _ _

theorem putCommand_ranks (command : Tagged EngineCommand) (rank' : ℕ) :
    (s.putCommand config command).ranks rank' =
      if ¬ Coordinated config ∧ rank' = 0 then
        { s.ranks rank' with commands := (s.ranks rank').commands ++ [command] }
      else s.ranks rank' := by
  unfold putCommand
  split
  · rename_i h
    simp [h]
  · rename_i h
    simp [h, putRankCommand_ranks]

@[simp] theorem putCommand_outputs (command : Tagged EngineCommand) :
    (s.putCommand config command).outputs = s.outputs := by
  unfold putCommand
  split <;> rfl

@[simp] theorem putCommand_coordinator (command : Tagged EngineCommand) :
    (s.putCommand config command).coordinator = s.coordinator := by
  unfold putCommand
  split <;> rfl

theorem putCommand_commands (command : Tagged EngineCommand) :
    (s.putCommand config command).commands =
      if Coordinated config then s.commands ++ [command] else s.commands := by
  unfold putCommand
  split <;> rfl

theorem putOutputs_ranks (events : List (Tagged OutputEvent)) (rank' : ℕ) :
    (s.putOutputs config rank events).ranks rank' =
      if Coordinated config ∧ rank' = rank then
        { s.ranks rank' with outputs := (s.ranks rank').outputs ++ events }
      else s.ranks rank' := by
  unfold putOutputs
  split
  · rename_i h
    simp [h, onRank_ranks]
  · rename_i h
    simp [h]

@[simp] theorem putOutputs_commands (events : List (Tagged OutputEvent)) :
    (s.putOutputs config rank events).commands = s.commands := by
  unfold putOutputs
  split <;> rfl

@[simp] theorem putOutputs_client (events : List (Tagged OutputEvent)) :
    (s.putOutputs config rank events).client = s.client := by
  unfold putOutputs
  split <;> rfl

@[simp] theorem putOutputs_coordinator (events : List (Tagged OutputEvent)) :
    (s.putOutputs config rank events).coordinator = s.coordinator := by
  unfold putOutputs
  split <;> rfl

theorem putOutputs_outputs (events : List (Tagged OutputEvent)) :
    (s.putOutputs config rank events).outputs =
      if Coordinated config then s.outputs else s.outputs ++ events := by
  unfold putOutputs
  split <;> rfl

def broadcast (s : System) (command : Tagged EngineCommand) (n : ℕ) : System :=
  (List.range n).foldl (fun s rank => s.putRankCommand rank command) s

theorem broadcast_succ (command : Tagged EngineCommand) (n : ℕ) :
    s.broadcast command (n + 1) = (s.broadcast command n).putRankCommand n command := by
  simp [broadcast, List.range_succ]

theorem broadcast_ranks (command : Tagged EngineCommand) (n rank' : ℕ) :
    (s.broadcast command n).ranks rank' =
      if rank' < n then { s.ranks rank' with commands := (s.ranks rank').commands ++ [command] }
      else s.ranks rank' := by
  induction n with
  | zero => simp [broadcast]
  | succ n ih =>
      rw [broadcast_succ, putRankCommand_ranks, ih]
      rcases lt_trichotomy rank' n with h | rfl | h
      · rw [if_neg h.ne, if_pos h, if_pos (Nat.lt_succ_of_lt h)]
      · simp
      · rw [if_neg h.ne', if_neg h.not_gt, if_neg (Nat.not_lt.mpr h)]

theorem broadcast_kept (command : Tagged EngineCommand) (n : ℕ) :
    (s.broadcast command n).client = s.client ∧ (s.broadcast command n).commands = s.commands ∧
      (s.broadcast command n).coordinator = s.coordinator ∧
      (s.broadcast command n).outputs = s.outputs := by
  induction n with
  | zero => simp [broadcast]
  | succ n ih =>
      rw [broadcast_succ]
      exact ih

end Puts

theorem mem_deliveries {client : Client} {event : Tagged OutputEvent} {observation : Observation}
    (h : observation ∈ deliveries client event) : ∃ stream output,
      event.value = .output output ∧ client.streams.get? output.requestId = some stream ∧
        observation = .delivered stream output event.submission := by
  unfold deliveries at h
  split at h
  · cases h
  · rename_i output hvalue
    split at h
    · cases h
    · rename_i stream hget
      exact ⟨stream, output, hvalue, hget, List.mem_singleton.mp h⟩

/-- What a core may do next, whose message it takes, and the commands it leaves. -/
inductive Takes (process : RankProcess) :
    EngineCore.Event → Option ℕ → List (Tagged EngineCommand) → Prop where
  | command {command commands} (hnext : process.commands = command :: commands) :
      Takes process (.command command.value) command.submission commands
  | engineStep {incoming} : Takes process (.engineStep incoming) none process.commands
  | leave : Takes process .leave none process.commands

/-- The step of the system in which a core does it. -/
def Event.ofCore (rank : ℕ) : EngineCore.Event → Event
  | .command _ => .command rank
  | .engineStep incoming => .engineStep rank incoming
  | .leave => .leave rank

/-- What one step does. -/
inductive StepDerivation (config : EngineConfig) (promptTokenizer : PromptTokenizer)
    (tokenizer : Tokenizer) (s : System) : Event → List Observation → System → Prop where
  | quietCall {call client} (hd : s.client.CallDerivation call client []) :
      StepDerivation config promptTokenizer tokenizer s (.call call) [] { s with client := client }
  | sendingCall {call client command} (hd : s.client.CallDerivation call client [command]) :
      StepDerivation config promptTokenizer tokenizer s (.call call) []
        { s.putCommand config ⟨command, submissionOf s.client command⟩ with client := client }
  | forward {command commands coordinator rank} (hcoordinated : Coordinated config)
      (hrunning : s.coordinator.stopped = false) (hnext : s.commands = command :: commands)
      (hhandle : s.coordinator.handleCommand config command.value = (coordinator, some rank)) :
      StepDerivation config promptTokenizer tokenizer s .coordinate [.forwarded rank command]
        ({ s with coordinator := coordinator, commands := commands }.putRankCommand rank command)
  | keepBack {command commands coordinator} (hcoordinated : Coordinated config)
      (hrunning : s.coordinator.stopped = false) (hnext : s.commands = command :: commands)
      (hhandle : s.coordinator.handleCommand config command.value = (coordinator, none)) :
      StepDerivation config promptTokenizer tokenizer s .coordinate []
        { s with coordinator := coordinator, commands := commands }
  | drain {rank event outputs} (hcoordinated : Coordinated config)
      (hrank : rank < config.dataParallelSize) (hrunning : s.coordinator.stopped = false)
      (hnext : (s.ranks rank).outputs = event :: outputs) :
      StepDerivation config promptTokenizer tokenizer s (.drain rank) [.drained rank event]
        { s.onRank rank (fun process => { process with outputs := outputs }) with
          coordinator := s.coordinator.drainOutput rank event.value
          outputs := s.outputs ++ [event] }
  | coordinatorLeave (hcoordinated : Coordinated config) (hshut : s.coordinator.shutdown = true)
      (hrunning : s.coordinator.stopped = false) :
      StepDerivation config promptTokenizer tokenizer s .coordinatorLeave []
        (broadcast { s with coordinator := { s.coordinator with stopped := true } }
          ⟨.shutdown, none⟩ config.dataParallelSize)
  | core {rank coreEvent submission commands core messages}
      (hrank : rank < config.dataParallelSize)
      (htakes : Takes (s.ranks rank) coreEvent submission commands)
      (hstep : EngineCore.step (coreConfig config rank) tokenizer (s.ranks rank).core coreEvent =
        some (core, messages)) :
      StepDerivation config promptTokenizer tokenizer s (.ofCore rank coreEvent)
        (messages.map (.sent rank))
        ((s.onRank rank fun process =>
          { process with
            core := core
            commands := commands
            owners := newOwners coreEvent submission messages process.owners }).putOutputs config
          rank (messages.filterMap (tagMessage coreEvent submission (s.ranks rank).owners)))
  | route {event outputs} (hnext : s.outputs = event :: outputs) :
      StepDerivation config promptTokenizer tokenizer s .route (deliveries s.client event)
        { s with client := s.client.route event.value, outputs := outputs }

section Derivation

variable {config : EngineConfig} {promptTokenizer : PromptTokenizer} {tokenizer : Tokenizer}
  {s s' : System} {event : Event} {out : List Observation}

theorem call_derivation {call : Client.Call} (hsent : s.client.sent = [])
    (hroute : ∀ event, call ≠ .route event) :
    StepDerivation config promptTokenizer tokenizer s (.call call) []
      (s.call config promptTokenizer call) := by
  obtain ⟨⟨client, sent⟩, hstep⟩ : ∃ result, s.client.step promptTokenizer call = result :=
    ⟨_, rfl⟩
  have hd := Client.step_derivation hsent hroute hstep
  have hcall : s.call config promptTokenizer call =
      { sent.foldl (fun s command =>
          s.putCommand config ⟨command, submissionOf s.client command⟩) s with
        client := client } := by
    rw [System.call, hstep]
  rw [hcall]
  rcases sent with _ | ⟨command, _ | ⟨command', sent⟩⟩
  · exact .quietCall hd
  · exact .sendingCall hd
  · cases hd

theorem of_coreStep {rank : ℕ} {coreEvent : EngineCore.Event} {submission : Option ℕ}
    {commands : List (Tagged EngineCommand)}
    (h : (s.onRank rank fun process => { process with commands := commands }).coreStep config
      tokenizer rank coreEvent submission = some (s', out)) :
    ∃ core messages, EngineCore.step (coreConfig config rank) tokenizer (s.ranks rank).core
        coreEvent = some (core, messages) ∧ out = messages.map (.sent rank) ∧
      s' = (s.onRank rank fun process =>
        { process with
          core := core
          commands := commands
          owners := newOwners coreEvent submission messages process.owners }).putOutputs config
        rank (messages.filterMap (tagMessage coreEvent submission (s.ranks rank).owners)) := by
  rw [coreStep] at h
  simp only [onRank_ranks_self] at h
  split at h
  · cases h
  · rename_i core messages hstep
    obtain ⟨rfl, rfl⟩ := Prod.mk.inj (Option.some.inj h)
    refine ⟨core, messages, hstep, rfl, ?_⟩
    simp [onRank]

theorem Step.derivation (h : Step config promptTokenizer tokenizer s event out s')
    (hsent : s.client.sent = []) :
    StepDerivation config promptTokenizer tokenizer s event out s' := by
  have hstep := h.step_eq
  cases event with
  | call call =>
      cases call with
      | route event => cases hstep
      | submit =>
          obtain ⟨rfl, rfl⟩ := Prod.mk.inj (Option.some.inj hstep)
          exact call_derivation hsent (by simp)
      | finishStream =>
          obtain ⟨rfl, rfl⟩ := Prod.mk.inj (Option.some.inj hstep)
          exact call_derivation hsent (by simp)
      | abort =>
          obtain ⟨rfl, rfl⟩ := Prod.mk.inj (Option.some.inj hstep)
          exact call_derivation hsent (by simp)
      | close =>
          obtain ⟨rfl, rfl⟩ := Prod.mk.inj (Option.some.inj hstep)
          exact call_derivation hsent (by simp)
  | coordinate =>
      simp only [step, coordinate] at hstep
      split at hstep
      · rename_i hcoordinated
        split at hstep
        · cases hstep
        · rename_i hrunning
          have hrunning' : s.coordinator.stopped = false := by simpa using hrunning
          split at hstep
          · cases hstep
          · rename_i command commands hnext
            generalize hhandle : s.coordinator.handleCommand config command.value = result at hstep
            obtain ⟨coordinator, rank?⟩ := result
            cases rank? with
            | none =>
                obtain ⟨rfl, rfl⟩ := Prod.mk.inj (Option.some.inj hstep)
                exact .keepBack hcoordinated hrunning' hnext hhandle
            | some rank =>
                obtain ⟨rfl, rfl⟩ := Prod.mk.inj (Option.some.inj hstep)
                exact .forward hcoordinated hrunning' hnext hhandle
      · cases hstep
  | drain rank =>
      simp only [step, System.drain] at hstep
      split at hstep
      · rename_i hready
        split at hstep
        · cases hstep
        · rename_i hrunning
          have hrunning' : s.coordinator.stopped = false := by simpa using hrunning
          split at hstep
          · cases hstep
          · rename_i event outputs hnext
            obtain ⟨rfl, rfl⟩ := Prod.mk.inj (Option.some.inj hstep)
            exact .drain hready.1 hready.2 hrunning' hnext
      · cases hstep
  | coordinatorLeave =>
      simp only [step, System.coordinatorLeave] at hstep
      split at hstep
      · rename_i hcoordinated
        split at hstep
        · rename_i hready
          simp only [Bool.and_eq_true, Bool.not_eq_true'] at hready
          obtain ⟨rfl, rfl⟩ := Prod.mk.inj (Option.some.inj hstep)
          exact .coordinatorLeave hcoordinated hready.1 hready.2
        · cases hstep
      · cases hstep
  | command rank =>
      simp only [step, takeCommand] at hstep
      split at hstep
      · rename_i hrank
        split at hstep
        · cases hstep
        · rename_i command commands hnext
          obtain ⟨core, messages, hcore, rfl, rfl⟩ := of_coreStep hstep
          exact .core hrank (.command hnext) hcore
      · cases hstep
  | engineStep rank incoming =>
      simp only [step] at hstep
      split at hstep
      · rename_i hrank
        have hkept : s = s.onRank rank fun process =>
            { process with commands := (s.ranks rank).commands } := by simp [onRank]
        rw [hkept] at hstep
        obtain ⟨core, messages, hcore, rfl, rfl⟩ := of_coreStep hstep
        exact .core hrank .engineStep hcore
      · cases hstep
  | leave rank =>
      simp only [step] at hstep
      split at hstep
      · rename_i hrank
        have hkept : s = s.onRank rank fun process =>
            { process with commands := (s.ranks rank).commands } := by simp [onRank]
        rw [hkept] at hstep
        obtain ⟨core, messages, hcore, rfl, rfl⟩ := of_coreStep hstep
        exact .core hrank .leave hcore
      · cases hstep
  | route =>
      simp only [step, System.route] at hstep
      split at hstep
      · cases hstep
      · rename_i event outputs hnext
        obtain ⟨rfl, rfl⟩ := Prod.mk.inj (Option.some.inj hstep)
        exact .route hnext

theorem StepDerivation.numbered (h : StepDerivation config promptTokenizer tokenizer s event out s')
    (hnumbered : s.client.Numbered) : s'.client.Numbered := by
  cases h with
  | quietCall hd => exact hd.numbered hnumbered
  | sendingCall hd => exact hd.numbered hnumbered
  | forward => exact hnumbered
  | keepBack => exact hnumbered
  | drain => exact hnumbered
  | coordinatorLeave =>
      rw [(broadcast_kept _ _).1]
      exact hnumbered
  | core =>
      rw [putOutputs_client]
      exact hnumbered
  | route => exact hnumbered.route _

end Derivation

section Runs

variable {config : EngineConfig} {promptTokenizer : PromptTokenizer} {tokenizer : Tokenizer}
  {s s' : System} {event : Event} {out : List Observation} {τs : List SystemTransition}

theorem SystemRun.numbered (h : SystemRun config promptTokenizer tokenizer τs s) :
    s.client.Numbered :=
  Run.invariant (I := fun s : System => s.client.Numbered) h Client.numbered_init
    (fun _ _ _ _ hs hstep => (Step.derivation hstep hs.sent_eq).numbered hs)

theorem SystemRun.derivation (h : SystemRun config promptTokenizer tokenizer τs s)
    (hstep : Step config promptTokenizer tokenizer s event out s') :
    StepDerivation config promptTokenizer tokenizer s event out s' :=
  hstep.derivation (SystemRun.numbered h).sent_eq

end Runs

/-! ## The run of one core -/

def messagesOf (rank : ℕ) (out : List Observation) : List CoreMessage :=
  out.filterMap fun
    | .sent rank' message => if rank' = rank then some message else none
    | _ => none

/-- What a step is for one core, if it takes part in it. -/
def coreEvent? (rank : ℕ) (τ : SystemTransition) : Option EngineCore.Event :=
  match τ.event with
  | .command rank' =>
      if rank' = rank then
        (τ.pre.ranks rank).commands.head?.map (fun command => .command command.value)
      else none
  | .engineStep rank' incoming => if rank' = rank then some (.engineStep incoming) else none
  | .leave rank' => if rank' = rank then some .leave else none
  | _ => none

def coreTransition? (rank : ℕ) (τ : SystemTransition) : Option EngineCore.CoreTransition :=
  (coreEvent? rank τ).map fun event =>
    ⟨(τ.pre.ranks rank).core, event, messagesOf rank τ.out, (τ.post.ranks rank).core⟩

/-- The part of a history that one core took in. -/
def coreHistory (rank : ℕ) (τs : List SystemTransition) : List EngineCore.CoreTransition :=
  τs.filterMap (coreTransition? rank)

theorem coreHistory_append (rank : ℕ) (τs τs' : List SystemTransition) :
    coreHistory rank (τs ++ τs') = coreHistory rank τs ++ coreHistory rank τs' := by
  simp [coreHistory]

@[simp] theorem messagesOf_sent (rank : ℕ) (messages : List CoreMessage) :
    messagesOf rank (messages.map (.sent rank)) = messages := by
  simp [messagesOf, List.filterMap_map]

/-- What a step is for the process of one rank. -/
inductive RankDerivation (config : EngineConfig) (tokenizer : Tokenizer) (rank : ℕ)
    (process process' : RankProcess) : List EngineCore.CoreTransition → Prop where
  | idle (h : process' = process) : RankDerivation config tokenizer rank process process' []
  | receive {command} (h : process' =
        { process with commands := process.commands ++ [command] }) :
      RankDerivation config tokenizer rank process process' []
  | drained {event outputs} (hnext : process.outputs = event :: outputs)
      (h : process' = { process with outputs := outputs }) :
      RankDerivation config tokenizer rank process process' []
  | core {event submission commands core messages}
      (htakes : Takes process event submission commands)
      (hstep : EngineCore.Step (coreConfig config rank) tokenizer process.core event messages core)
      (h : process' =
        { core := core
          commands := commands
          outputs := if Coordinated config then process.outputs ++
            messages.filterMap (tagMessage event submission process.owners) else process.outputs
          owners := newOwners event submission messages process.owners }) :
      RankDerivation config tokenizer rank process process' [⟨process.core, event, messages, core⟩]

section Cores

variable {config : EngineConfig} {promptTokenizer : PromptTokenizer} {tokenizer : Tokenizer}
  {s s' : System} {event : Event} {out : List Observation} {τs : List SystemTransition}

theorem Event.ranked_ofCore {rank : ℕ} {coreEvent : EngineCore.Event} :
    (Event.ofCore rank coreEvent).Ranked ↔ coreEvent.Ranked := by
  cases coreEvent <;> rfl

theorem coreHistory_ofCore {rank : ℕ} {coreEvent : EngineCore.Event} {submission : Option ℕ}
    {commands : List (Tagged EngineCommand)}
    (htakes : Takes (s.ranks rank) coreEvent submission commands) :
    coreHistory rank [⟨s, .ofCore rank coreEvent, out, s'⟩] =
      [⟨(s.ranks rank).core, coreEvent, messagesOf rank out, (s'.ranks rank).core⟩] := by
  cases htakes with
  | command hnext =>
      simp [coreHistory, coreTransition?, coreEvent?, Event.ofCore, hnext]
  | engineStep => simp [coreHistory, coreTransition?, coreEvent?, Event.ofCore]
  | leave => simp [coreHistory, coreTransition?, coreEvent?, Event.ofCore]

theorem coreHistory_ofCore_of_ne {rank target : ℕ} {coreEvent : EngineCore.Event}
    (hne : rank ≠ target) : coreHistory rank [⟨s, .ofCore target coreEvent, out, s'⟩] = [] := by
  cases coreEvent <;>
    simp [coreHistory, coreTransition?, coreEvent?, Event.ofCore, Ne.symm hne]

/-- Every step is one of these for each rank. -/
theorem StepDerivation.rank
    (h : StepDerivation config promptTokenizer tokenizer s event out s') (hranked : event.Ranked)
    (rank : ℕ) :
    RankDerivation config tokenizer rank (s.ranks rank) (s'.ranks rank)
      (coreHistory rank [⟨s, event, out, s'⟩]) := by
  cases h with
  | quietCall => exact .idle rfl
  | @sendingCall _ _ command hd =>
      show RankDerivation _ _ _ _ ((s.putCommand config _).ranks rank) []
      rw [putCommand_ranks]
      split
      · exact .receive rfl
      · exact .idle rfl
  | @forward command commands coordinator target =>
      show RankDerivation _ _ _ _ _ []
      rw [putRankCommand_ranks]
      split
      · exact .receive rfl
      · exact .idle rfl
  | keepBack => exact .idle rfl
  | @drain target _ outputs _ _ _ hnext =>
      show RankDerivation _ _ _ _
        ((s.onRank target fun process => { process with outputs := outputs }).ranks rank) []
      rw [onRank_ranks]
      split
      · rename_i hrank
        subst hrank
        exact .drained hnext rfl
      · exact .idle rfl
  | coordinatorLeave =>
      show RankDerivation _ _ _ _ _ []
      rw [broadcast_ranks]
      split
      · exact .receive rfl
      · exact .idle rfl
  | @core target coreEvent submission commands core messages hrank htakes hstep =>
      by_cases hsame : rank = target
      · subst hsame
        have hcore : EngineCore.Step (coreConfig config rank) tokenizer (s.ranks rank).core
            coreEvent messages core := ⟨Event.ranked_ofCore.mp hranked, hstep⟩
        rw [coreHistory_ofCore htakes, messagesOf_sent, putOutputs_ranks, onRank_ranks_self]
        by_cases hcoordinated : Coordinated config
        · rw [if_pos ⟨hcoordinated, rfl⟩]
          exact .core htakes hcore (by simp [hcoordinated])
        · rw [if_neg (fun h => hcoordinated h.1)]
          exact .core htakes hcore (by simp [hcoordinated])
      · rw [coreHistory_ofCore_of_ne hsame, putOutputs_ranks, if_neg (fun h => hsame h.2),
          onRank_ranks, if_neg hsame]
        exact .idle rfl
  | route => exact .idle rfl

theorem RankDerivation.core_eq {rank : ℕ} {process process' : RankProcess}
    {history : List EngineCore.CoreTransition}
    (h : RankDerivation config tokenizer rank process process' history) :
    (history = [] ∧ process'.core = process.core) ∨ ∃ event messages,
      history = [⟨process.core, event, messages, process'.core⟩] ∧
        EngineCore.Step (coreConfig config rank) tokenizer process.core event messages
          process'.core := by
  cases h with
  | idle h => exact Or.inl ⟨rfl, by rw [h]⟩
  | receive h => exact Or.inl ⟨rfl, by rw [h]⟩
  | drained _ h => exact Or.inl ⟨rfl, by rw [h]⟩
  | core htakes hstep h =>
      subst h
      exact Or.inr ⟨_, _, rfl, hstep⟩

/-- What a core does in a run of the system is a run of that core. -/
theorem SystemRun.core_trace (h : SystemRun config promptTokenizer tokenizer τs s) (rank : ℕ) :
    EngineCore.Trace (coreConfig config rank) tokenizer (coreHistory rank τs)
      (s.ranks rank).core := by
  induction h with
  | nil => exact .nil
  | snoc hrun hstep ih =>
      have hd := (SystemRun.derivation hrun hstep).rank hstep.ranked rank
      rw [coreHistory_append]
      rcases hd.core_eq with ⟨hnone, hcore⟩ | ⟨event, messages, hone, hcore⟩
      · rw [hnone, List.append_nil, hcore]
        exact ih
      · rw [hone]
        exact .snoc ih hcore

end Cores

/-! ## Concrete runs -/

def drive (config : EngineConfig) (tokenizer : Tokenizer) (events : List Event) :
    Option (List SystemTransition × System) :=
  Run.execute (step config (.ofTokenizer tokenizer) tokenizer) (init config) events

theorem drive_run {config : EngineConfig} {tokenizer : Tokenizer} {events : List Event}
    {τs : List SystemTransition} {s : System} (h : drive config tokenizer events = some (τs, s))
    (hranked : ∀ event ∈ events, event.Ranked) :
    SystemRun config (.ofTokenizer tokenizer) tokenizer τs s := by
  refine Run.of_execute h (fun τ hτ hstep => ⟨hranked _ ?_, hstep⟩)
  rw [← Run.execute_events h]
  exact List.mem_map.mpr ⟨τ, hτ, rfl⟩

def twoRanks : EngineConfig := { EngineCore.smallConfig with
  dataParallelSize := 2
  dataParallelSize_pos := EngineCore.smallConfig.blockSize_pos }

def submits (id : RequestId) : Event := .call (.submit "u" (.text ['x']) .defaults (some id))

end System

end MiniVLLM
