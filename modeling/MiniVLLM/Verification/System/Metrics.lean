import MiniVLLM.Library.Once
import MiniVLLM.Verification.Engine.Reports
import MiniVLLM.Verification.System.Deliveries

/-! # Counted batches

The report on a batch reaches the router on its own and with the outputs of the batch. It is
counted the first time; its rank and its batch id belong to one batch. -/

namespace MiniVLLM

namespace BatchMetrics

def key (metrics : BatchMetrics) : ℕ × ℕ := (metrics.rank, metrics.batchId)

def weight (metrics : BatchMetrics) : ℕ × ℕ × ℕ × ℕ :=
  (1, metrics.numScheduledTokens, metrics.numPrefillTokens, metrics.numDecodeTokens)

end BatchMetrics

namespace Client

/-- The counters of a client. -/
def books (client : Client) : Once (ℕ × ℕ) (ℕ × ℕ × ℕ × ℕ) where
  seen := client.seenBatches
  total := (client.totalBatches, client.totalScheduledTokens, client.totalPrefillTokens,
    client.totalDecodeTokens)

theorem books_countBatch (metrics : BatchMetrics) (client : Client) :
    (client.countBatch metrics).books =
      client.books.add BatchMetrics.key BatchMetrics.weight metrics := by
  unfold countBatch Once.add
  by_cases hseen : (metrics.rank, metrics.batchId) ∈ client.seenBatches
  · rw [if_pos hseen, if_pos (show metrics.key ∈ client.books.seen from hseen)]
  · rw [if_neg hseen, if_neg (show metrics.key ∉ client.books.seen from hseen)]
    rfl

@[simp] theorem books_deliver (output : RequestOutput) (client : Client) :
    (client.deliver output).books = client.books := by
  unfold deliver
  split <;> rfl

theorem books_route (event : OutputEvent) (client : Client) :
    (client.route event).books = (eventMetrics event).toList.foldl
      (fun books metrics => books.add BatchMetrics.key BatchMetrics.weight metrics) client.books := by
  cases event with
  | metrics metrics => simp [route, eventMetrics, books_countBatch]
  | output output =>
      cases hm : output.metrics <;> simp [route, eventMetrics, hm, books_countBatch]

theorem CallDerivation.books_eq {client client' : Client} {call : Call} {sent : List EngineCommand}
    (hd : CallDerivation client call client' sent) : client'.books = client.books := by
  cases hd <;> rfl

end Client

namespace System

def routedEvents (τs : List SystemTransition) : List OutputEvent :=
  τs.filterMap fun τ =>
    match τ.event with
    | .route => τ.pre.outputs.head?.map (·.value)
    | _ => none

def metricsRouted (τs : List SystemTransition) : List BatchMetrics :=
  (routedEvents τs).filterMap Client.eventMetrics

/-- The Workers of the rank answer the batch of the step by executing it. -/
def WorkersReport (config : EngineConfig)
    (execute : ℕ → GPUInputBatch → Except PyError (Dict RequestId TokenId))
    (τ : SystemTransition) : Prop :=
  match τ.event with
  | .engineStep rank incoming => ∀ result,
      EngineCore.answer? ((τ.pre.ranks rank).core.batchId + 1) incoming = some result →
      result.batchId ≠ -1 → ∀ worker batch, .sent rank (.batch worker batch) ∈ τ.out →
        result = Worker.answer (coreConfig config rank) worker (execute rank) batch
  | _ => True

theorem mem_messagesOf {rank : ℕ} {out : List Observation} {message : CoreMessage} :
    message ∈ messagesOf rank out ↔ .sent rank message ∈ out := by
  constructor
  · intro hmem
    obtain ⟨observation, hobservation, hsome⟩ := List.mem_filterMap.mp hmem
    cases observation with
    | sent rank' message' =>
        by_cases hsame : rank' = rank
        · obtain rfl : message' = message := by simpa [hsame] using hsome
          exact hsame ▸ hobservation
        · simp [hsame] at hsome
    | forwarded => cases hsome
    | drained => cases hsome
    | delivered => cases hsome
  · intro hmem
    exact List.mem_filterMap.mpr ⟨_, hmem, by simp⟩

def reportChecked (config : EngineConfig)
    (execute : ℕ → GPUInputBatch → Except PyError (Dict RequestId TokenId))
    (τ : SystemTransition) : Bool :=
  match τ.event with
  | .engineStep rank incoming =>
      (EngineCore.answer? ((τ.pre.ranks rank).core.batchId + 1) incoming).all fun result =>
        result.batchId = -1 || (messagesOf rank τ.out).all fun
          | .batch worker batch =>
              result = Worker.answer (coreConfig config rank) worker (execute rank) batch
          | .event _ => true
  | _ => true

theorem reportChecked_iff {config : EngineConfig}
    {execute : ℕ → GPUInputBatch → Except PyError (Dict RequestId TokenId)}
    {τ : SystemTransition} : reportChecked config execute τ = true ↔
      WorkersReport config execute τ := by
  unfold WorkersReport reportChecked
  split
  · rename_i rank incoming _
    rw [Option.all_eq_true]
    refine forall_congr' fun result => forall_congr' fun hanswer => ?_
    rw [Bool.or_eq_true, decide_eq_true_iff, or_iff_not_imp_left, List.all_eq_true]
    refine forall_congr' fun hstarted => ⟨fun h worker batch hmem => ?_, fun h message hmem => ?_⟩
    · exact of_decide_eq_true (h _ (mem_messagesOf.mpr hmem))
    · cases message with
      | batch worker batch => exact decide_eq_true (h worker batch (mem_messagesOf.mp hmem))
      | event => rfl
  · exact iff_of_true rfl trivial

instance {config : EngineConfig}
    {execute : ℕ → GPUInputBatch → Except PyError (Dict RequestId TokenId)}
    {τ : SystemTransition} : Decidable (WorkersReport config execute τ) :=
  decidable_of_iff _ reportChecked_iff

/-! ## Queued prompts -/

section Prompts

variable {config : EngineConfig} {promptTokenizer : PromptTokenizer} {tokenizer : Tokenizer}
  {s s' : System} {event : Event} {out : List Observation} {τs : List SystemTransition}

/-- Every queued command has the property. -/
structure Queued (P : EngineCommand → Prop) (s : System) : Prop where
  commands : ∀ command ∈ s.commands, P command.value
  ranks : ∀ rank, ∀ command ∈ (s.ranks rank).commands, P command.value

theorem forall_received {P : EngineCommand → Prop} {commands : List (Tagged EngineCommand)}
    (h : ∀ command ∈ commands, P command.value) {command : Tagged EngineCommand}
    (hnew : P command.value) : ∀ command' ∈ commands ++ [command], P command'.value := by
  intro command' hmem
  rcases List.mem_append.mp hmem with hmem | hmem
  · exact h command' hmem
  · rw [List.mem_singleton.mp hmem]
    exact hnew

theorem Queued.step {P : EngineCommand → Prop} (h : Queued P s)
    (hd : StepDerivation config promptTokenizer tokenizer s event out s') (hshutdown : P .shutdown)
    (hsent : ∀ call client command, s.client.CallDerivation call client [command] → P command) :
    Queued P s' := by
  cases hd with
  | quietCall => exact ⟨h.commands, h.ranks⟩
  | @sendingCall call client command hd =>
      have hnew := hsent call client command hd
      refine ⟨?_, fun rank => ?_⟩
      · rw [show System.commands _ = (s.putCommand config _).commands from rfl, putCommand_commands]
        split
        · exact forall_received h.commands hnew
        · exact h.commands
      · rw [show System.ranks _ = (s.putCommand config _).ranks from rfl, putCommand_ranks]
        split
        · exact forall_received (h.ranks rank) hnew
        · exact h.ranks rank
  | @forward command commands _ _ _ _ hnext =>
      refine ⟨fun command' hmem => h.commands command' ?_, fun rank => ?_⟩
      · rw [hnext]
        exact List.mem_cons_of_mem _ hmem
      · rw [putRankCommand_ranks]
        split
        · refine forall_received (h.ranks rank) (h.commands command ?_)
          rw [hnext]
          exact List.mem_cons_self
        · exact h.ranks rank
  | keepBack _ _ hnext =>
      refine ⟨fun command' hmem => h.commands command' ?_, h.ranks⟩
      rw [hnext]
      exact List.mem_cons_of_mem _ hmem
  | @drain target =>
      refine ⟨h.commands, fun rank => ?_⟩
      rw [show System.ranks _ = (s.onRank target _).ranks from rfl, onRank_ranks]
      split
      · exact h.ranks rank
      · exact h.ranks rank
  | coordinatorLeave =>
      refine ⟨?_, fun rank => ?_⟩
      · rw [(broadcast_kept _ _).2.1]
        exact h.commands
      · rw [broadcast_ranks]
        split
        · exact forall_received (h.ranks rank) hshutdown
        · exact h.ranks rank
  | @core target coreEvent submission commands core messages _ htakes =>
      refine ⟨by simpa [onRank] using h.commands, fun rank => ?_⟩
      have hcommands : ∀ command ∈ commands, P command.value :=
        fun command hmem => h.ranks target command (htakes.sublist command hmem)
      rw [putOutputs_ranks, onRank_ranks]
      by_cases hsame : rank = target
      · subst hsame
        rw [if_pos rfl]
        split <;> exact hcommands
      · rw [if_neg (fun h => hsame h.2), if_neg hsame]
        exact h.ranks rank
  | route => exact ⟨h.commands, h.ranks⟩

def Prompted : EngineCommand → Prop
  | .add request => request.promptTokenIds ≠ []
  | _ => True

theorem SystemRun.prompted (h : SystemRun config promptTokenizer tokenizer τs s) :
    Queued Prompted s := by
  induction h with
  | nil => exact ⟨by simp [init], by simp [init]⟩
  | snoc hrun hstep ih =>
      refine ih.step (SystemRun.derivation hrun hstep) trivial ?_
      intro call client command hd
      cases hd with
      | accept _ _ hprompt => exact hprompt
      | abort => trivial
      | close => trivial

end Prompts

/-! ## The cores of a run -/

section Cores

variable {config : EngineConfig} {promptTokenizer : PromptTokenizer} {tokenizer : Tokenizer}
  {execute : ℕ → GPUInputBatch → Except PyError (Dict RequestId TokenId)}
  {s s' : System} {event : Event} {out : List Observation} {τs : List SystemTransition} {rank : ℕ}

theorem of_coreHistory_singleton {τ : SystemTransition} {coreTransition : EngineCore.CoreTransition}
    (h : coreHistory rank [τ] = [coreTransition]) :
    coreEvent? rank τ = some coreTransition.event ∧ coreTransition.out = messagesOf rank τ.out := by
  have hsome : coreTransition? rank τ = some coreTransition := by
    cases hτ : coreTransition? rank τ with
    | none => simp [coreHistory, hτ] at h
    | some found => simpa [coreHistory, hτ] using h
  obtain ⟨coreEvent, hevent, rfl⟩ := Option.map_eq_some_iff.mp hsome
  exact ⟨hevent, rfl⟩

/-- What a step is for a core satisfies the assumptions on its events. -/
theorem reported_of_step (hprompted : Queued Prompted s)
    (hreport : WorkersReport config execute ⟨s, event, out, s'⟩) {coreEvent : EngineCore.Event}
    (hevent : coreEvent? rank ⟨s, event, out, s'⟩ = some coreEvent) :
    EngineCore.Reported (coreConfig config rank) (execute rank) (s.ranks rank).core
      (messagesOf rank out) coreEvent := by
  cases event with
  | command target =>
      by_cases hsame : target = rank
      · subst hsame
        simp only [coreEvent?, if_true] at hevent
        obtain ⟨command, hhead, rfl⟩ := Option.map_eq_some_iff.mp hevent
        have hprompt := hprompted.ranks target command (List.mem_of_mem_head? hhead)
        cases hvalue : command.value with
        | add request =>
            rw [hvalue] at hprompt
            exact hprompt
        | abort => trivial
        | shutdown => trivial
      · simp [coreEvent?, hsame] at hevent
  | engineStep target incoming =>
      by_cases hsame : target = rank
      · subst hsame
        simp only [coreEvent?, if_true] at hevent
        obtain rfl := Option.some.inj hevent
        intro result hanswer hstarted worker batch hbatch
        exact hreport result hanswer hstarted worker batch (mem_messagesOf.mp hbatch)
      · simp [coreEvent?, hsame] at hevent
  | leave target =>
      by_cases hsame : target = rank
      · simp only [coreEvent?, hsame, if_true] at hevent
        obtain rfl := Option.some.inj hevent
        trivial
      · simp [coreEvent?, hsame] at hevent
  | _ => cases hevent

theorem SystemRun.core_reported (h : SystemRun config promptTokenizer tokenizer τs s)
    (hreport : ∀ τ ∈ τs, WorkersReport config execute τ) (rank : ℕ) :
    EngineCore.ReportedTrace (coreConfig config rank) tokenizer (execute rank)
      (coreHistory rank τs) (s.ranks rank).core := by
  induction h with
  | nil => exact .nil
  | @snoc τs s event out s' hrun hstep ih =>
      have hbefore := ih fun τ hτ => hreport τ (List.mem_append_left _ hτ)
      have hd := (SystemRun.derivation hrun hstep).rank hstep.ranked rank
      rw [coreHistory_append]
      rcases hd.core_eq with ⟨hnone, hcore⟩ | ⟨coreEvent, messages, hone, hcore⟩
      · rw [hnone, List.append_nil, hcore]
        exact hbefore
      · obtain ⟨hevent, hmessages⟩ := of_coreHistory_singleton hone
        rw [hone]
        refine .snoc hbefore ⟨hcore, ?_⟩
        rw [show messages = messagesOf rank out from hmessages]
        exact reported_of_step (SystemRun.prompted hrun)
          (hreport _ (List.mem_append_right _ List.mem_cons_self)) hevent

/-- The messages of a core in its own history are those it sent in the run. -/
theorem SystemRun.messagesOf_outputs (h : SystemRun config promptTokenizer tokenizer τs s)
    (rank : ℕ) : Run.outputs (coreHistory rank τs) = messagesOf rank (Run.outputs τs) := by
  induction h with
  | nil => rfl
  | @snoc τs s event out s' hrun hstep ih =>
      have hstepMessages : Run.outputs (coreHistory rank [⟨s, event, out, s'⟩]) =
          messagesOf rank out := by
        have hd := SystemRun.derivation hrun hstep
        cases hd with
        | @core target coreEvent submission commands core messages _ htakes =>
            by_cases hsame : rank = target
            · subst hsame
              rw [coreHistory_ofCore htakes]
              simp
            · rw [coreHistory_ofCore_of_ne hsame]
              simp [messagesOf, List.filterMap_map, Ne.symm hsame]
        | route =>
            rw [show coreHistory rank [⟨s, .route, _, _⟩] = [] from rfl, eq_comm]
            refine List.filterMap_eq_nil_iff.mpr fun observation hmem => ?_
            obtain ⟨_, _, _, _, rfl⟩ := mem_deliveries hmem
            rfl
        | _ => rfl
      rw [coreHistory_append, Run.outputs_append, ih, hstepMessages, Run.outputs_append,
        Run.outputs_singleton]
      simp [messagesOf]

end Cores

/-! ## Where events come from -/

section Sources

variable {config : EngineConfig} {promptTokenizer : PromptTokenizer} {tokenizer : Tokenizer}
  {s s' : System} {event : Event} {out : List Observation} {τs : List SystemTransition}

/-- A core below the number of ranks put the event on its output queue. -/
def SentByCore (config : EngineConfig) (τs : List SystemTransition) (event : OutputEvent) : Prop :=
  ∃ rank < config.dataParallelSize, .sent rank (.event event) ∈ Run.outputs τs

/-- Events that are queued or were routed come from the cores. -/
structure Sourced (config : EngineConfig) (τs : List SystemTransition) (s : System) : Prop where
  ranks : ∀ rank < config.dataParallelSize, ∀ event ∈ (s.ranks rank).outputs,
    SentByCore config τs event.value
  outputs : ∀ event ∈ s.outputs, SentByCore config τs event.value
  routed : ∀ event ∈ routedEvents τs, SentByCore config τs event

theorem SentByCore.append {event : OutputEvent} (h : SentByCore config τs event)
    (τs' : List SystemTransition) : SentByCore config (τs ++ τs') event := by
  obtain ⟨rank, hrank, hmem⟩ := h
  refine ⟨rank, hrank, ?_⟩
  rw [Run.outputs_append]
  exact List.mem_append_left _ hmem

theorem value_of_tagged {coreEvent : EngineCore.Event} {submission : Option ℕ}
    {owners : RequestId → Option ℕ} {messages : List CoreMessage} {tagged : Tagged OutputEvent}
    (h : tagged ∈ messages.filterMap (tagMessage coreEvent submission owners)) :
    .event tagged.value ∈ messages := by
  obtain ⟨message, hmem, hsome⟩ := List.mem_filterMap.mp h
  cases message with
  | batch => cases hsome
  | event outputEvent =>
      cases outputEvent with
      | metrics =>
          obtain rfl := Option.some.inj hsome
          exact hmem
      | output =>
          obtain rfl := Option.some.inj hsome
          exact hmem

theorem routedEvents_append (τs τs' : List SystemTransition) :
    routedEvents (τs ++ τs') = routedEvents τs ++ routedEvents τs' := by
  simp [routedEvents]

theorem Sourced.step (h : Sourced config τs s)
    (hd : StepDerivation config promptTokenizer tokenizer s event out s') :
    Sourced config (τs ++ [⟨s, event, out, s'⟩]) s' := by
  have hrouted : routedEvents [⟨s, event, out, s'⟩] = [] →
      ∀ event' ∈ routedEvents (τs ++ [⟨s, event, out, s'⟩]),
        SentByCore config (τs ++ [⟨s, event, out, s'⟩]) event' := by
    intro hnone event' hmem
    rw [routedEvents_append, hnone, List.append_nil] at hmem
    exact (h.routed event' hmem).append _
  have hquiet : routedEvents [⟨s, event, out, s'⟩] = [] → s'.outputs = s.outputs →
      (∀ rank, (s'.ranks rank).outputs = (s.ranks rank).outputs) →
      Sourced config (τs ++ [⟨s, event, out, s'⟩]) s' := by
    intro hnone houtputs hranks
    refine ⟨fun rank hrank event' hmem => ?_, fun event' hmem => ?_, hrouted hnone⟩
    · rw [hranks] at hmem
      exact (h.ranks rank hrank event' hmem).append _
    · rw [houtputs] at hmem
      exact (h.outputs event' hmem).append _
  cases hd with
  | quietCall => exact hquiet rfl rfl fun _ => rfl
  | sendingCall =>
      refine hquiet rfl (by simp) fun rank => ?_
      rw [show System.ranks _ = (s.putCommand config _).ranks from rfl, putCommand_ranks]
      split <;> rfl
  | forward =>
      refine hquiet rfl rfl fun rank => ?_
      rw [putRankCommand_ranks]
      split <;> rfl
  | keepBack => exact hquiet rfl rfl fun _ => rfl
  | @drain target _ outputs _ hrank _ hnext =>
      refine ⟨fun rank hrank' event' hmem => ?_, fun event' hmem => ?_, hrouted rfl⟩
      · rw [show System.ranks _ = (s.onRank target _).ranks from rfl, onRank_ranks] at hmem
        split at hmem
        · rename_i hsame
          subst hsame
          refine (h.ranks rank hrank event' ?_).append _
          rw [hnext]
          exact List.mem_cons_of_mem _ hmem
        · exact (h.ranks rank hrank' event' hmem).append _
      · rcases List.mem_append.mp hmem with hmem | hmem
        · exact (h.outputs event' hmem).append _
        · refine (h.ranks target hrank event' ?_).append _
          rw [hnext, List.mem_singleton.mp hmem]
          exact List.mem_cons_self
  | coordinatorLeave =>
      refine hquiet rfl (broadcast_kept _ _).2.2.2 fun rank => ?_
      rw [broadcast_ranks]
      split <;> rfl
  | @core target coreEvent submission commands core messages hrank htakes =>
      have hsent : ∀ event' ∈ messages.filterMap
          (tagMessage coreEvent submission (s.ranks target).owners), ∀ s'',
          SentByCore config (τs ++ [⟨s, .ofCore target coreEvent, messages.map (.sent target), s''⟩])
            event'.value := by
        intro event' hmem s''
        refine ⟨target, hrank, ?_⟩
        rw [Run.outputs_append, Run.outputs_singleton]
        exact List.mem_append_right _ (List.mem_map_of_mem (value_of_tagged hmem))
      refine ⟨fun rank hrank' event' hmem => ?_, fun event' hmem => ?_, hrouted ?_⟩
      · rw [putOutputs_ranks, onRank_ranks] at hmem
        by_cases hsame : rank = target
        · subst hsame
          rw [if_pos rfl] at hmem
          split at hmem
          · rcases List.mem_append.mp hmem with hmem | hmem
            · exact (h.ranks rank hrank' event' hmem).append _
            · exact hsent event' hmem _
          · exact (h.ranks rank hrank' event' hmem).append _
        · rw [if_neg (fun h => hsame h.2), if_neg hsame] at hmem
          exact (h.ranks rank hrank' event' hmem).append _
      · rw [putOutputs_outputs] at hmem
        split at hmem
        · exact (h.outputs event' hmem).append _
        · rcases List.mem_append.mp hmem with hmem | hmem
          · exact (h.outputs event' hmem).append _
          · exact hsent event' hmem _
      · cases coreEvent <;> rfl
  | @route event outputs hnext =>
      refine ⟨fun rank hrank event' hmem => (h.ranks rank hrank event' hmem).append _,
        fun event' hmem => ?_, fun event' hmem => ?_⟩
      · refine (h.outputs event' ?_).append _
        rw [hnext]
        exact List.mem_cons_of_mem _ hmem
      · rw [routedEvents_append] at hmem
        rcases List.mem_append.mp hmem with hmem | hmem
        · exact (h.routed event' hmem).append _
        · obtain rfl : event' = event.value := by simpa [routedEvents, hnext] using hmem
          refine (h.outputs event ?_).append _
          rw [hnext]
          exact List.mem_cons_self

theorem SystemRun.sourced (h : SystemRun config promptTokenizer tokenizer τs s) :
    Sourced config τs s := by
  induction h with
  | nil => exact ⟨by simp [init], by simp [init], by simp [routedEvents]⟩
  | snoc hrun hstep ih => exact ih.step (SystemRun.derivation hrun hstep)

end Sources

/-! ## The totals -/

section Totals

variable {config : EngineConfig} {promptTokenizer : PromptTokenizer} {tokenizer : Tokenizer}
  {execute : ℕ → GPUInputBatch → Except PyError (Dict RequestId TokenId)}
  {s : System} {τs : List SystemTransition}

theorem SystemRun.sent_metrics (h : SystemRun config promptTokenizer tokenizer τs s)
    {metrics : BatchMetrics} (hmem : metrics ∈ metricsRouted τs) :
    ∃ rank < config.dataParallelSize,
      metrics ∈ EngineCore.metricsIn (Run.outputs (coreHistory rank τs)) := by
  obtain ⟨event, hevent, hmetrics⟩ := List.mem_filterMap.mp hmem
  obtain ⟨rank, hrank, hsent⟩ := (SystemRun.sourced h).routed event hevent
  refine ⟨rank, hrank, List.mem_filterMap.mpr ⟨.event event, ?_, hmetrics⟩⟩
  rw [SystemRun.messagesOf_outputs h]
  exact mem_messagesOf.mpr hsent

/-- The rank that a report names is the rank of the core. -/
theorem rank_of_coreConfig {rank rank' : ℕ} (hrank : rank < config.dataParallelSize)
    (hrank' : rank' < config.dataParallelSize)
    (hsame : (coreConfig config rank).dataParallelRank = (coreConfig config rank').dataParallelRank) :
    rank = rank' := by
  by_cases hcoordinated : Coordinated config
  · simpa [coreConfig, hcoordinated] using hsame
  · have hone : config.dataParallelSize ≤ 1 := Nat.not_lt.mp hcoordinated
    omega

/-- A rank and a batch id belong to one report. -/
theorem SystemRun.key_injective (h : SystemRun config promptTokenizer tokenizer τs s)
    (hreport : ∀ τ ∈ τs, WorkersReport config execute τ) :
    ∀ metrics ∈ metricsRouted τs, ∀ metrics' ∈ metricsRouted τs,
      metrics.key = metrics'.key → metrics = metrics' := by
  intro metrics hmem metrics' hmem' hkey
  obtain ⟨hrankKey, hbatchKey⟩ := Prod.mk.inj hkey
  obtain ⟨rank, hrank, hsent⟩ := SystemRun.sent_metrics h hmem
  obtain ⟨rank', hrank', hsent'⟩ := SystemRun.sent_metrics h hmem'
  have htrace := SystemRun.core_reported h hreport rank
  obtain ⟨_, _, _, hreports⟩ := EngineCore.ReportedTrace.reports htrace hsent
  obtain ⟨_, _, _, hreports'⟩ :=
    EngineCore.ReportedTrace.reports (SystemRun.core_reported h hreport rank') hsent'
  rw [hreports.metrics_eq, hreports'.metrics_eq] at hrankKey
  obtain rfl := rank_of_coreConfig hrank hrank' hrankKey
  exact (EngineCore.ReportedTrace.batchIds htrace).2 _ hsent _ hsent' hbatchKey

theorem metricsRouted_append (τs τs' : List SystemTransition) :
    metricsRouted (τs ++ τs') = metricsRouted τs ++ metricsRouted τs' := by
  simp [metricsRouted, routedEvents_append]

/-- The counters hold every routed report once. -/
theorem SystemRun.holds (h : SystemRun config promptTokenizer tokenizer τs s)
    (hreport : ∀ τ ∈ τs, WorkersReport config execute τ) :
    Once.Holds BatchMetrics.key BatchMetrics.weight s.client.books (metricsRouted τs) := by
  induction h with
  | nil => exact Once.holds_nil
  | @snoc τs s event out s' hrun hstep ih =>
      have hbefore := ih fun τ hτ => hreport τ (List.mem_append_left _ hτ)
      have hkeys := SystemRun.key_injective (.snoc hrun hstep) hreport
      have hd := SystemRun.derivation hrun hstep
      rw [metricsRouted_append] at hkeys ⊢
      have hquiet : metricsRouted [⟨s, event, out, s'⟩] = [] → s'.client.books = s.client.books →
          Once.Holds BatchMetrics.key BatchMetrics.weight s'.client.books
            (metricsRouted τs ++ metricsRouted [⟨s, event, out, s'⟩]) := by
        intro hnone hsame
        rw [hnone, List.append_nil, hsame]
        exact hbefore
      cases hd with
      | quietCall hd => exact hquiet rfl hd.books_eq
      | sendingCall hd => exact hquiet rfl hd.books_eq
      | coordinatorLeave => exact hquiet rfl (congrArg Client.books (broadcast_kept _ _).1)
      | @core _ coreEvent =>
          refine hquiet ?_ (by rw [putOutputs_client]; rfl)
          cases coreEvent <;> rfl
      | @route event outputs hnext =>
          have hrouted : metricsRouted [⟨s, .route, deliveries s.client event,
              { s with client := s.client.route event.value, outputs := outputs }⟩] =
                (Client.eventMetrics event.value).toList := by
            cases hmetrics : Client.eventMetrics event.value <;>
              simp [metricsRouted, routedEvents, hnext, hmetrics]
          rw [hrouted] at hkeys ⊢
          rw [show System.client _ = s.client.route event.value from rfl, Client.books_route]
          cases hmetrics : Client.eventMetrics event.value with
          | none => simpa using hbefore
          | some metrics =>
              rw [hmetrics] at hkeys
              refine hbefore.add fun metrics' hmem hkey => ?_
              exact hkeys metrics' (List.mem_append_left _ hmem) metrics
                (List.mem_append_right _ List.mem_cons_self) hkey
      | _ => exact hquiet rfl rfl

/-- A routed report is on a batch that a core sent and its Worker executed. -/
theorem SystemRun.executed (h : SystemRun config promptTokenizer tokenizer τs s)
    (hreport : ∀ τ ∈ τs, WorkersReport config execute τ) {metrics : BatchMetrics}
    (hmem : metrics ∈ metricsRouted τs) : ∃ rank < config.dataParallelSize,
      ∃ τ ∈ coreHistory rank τs, ∃ batch,
        EngineCore.Reports (coreConfig config rank) metrics batch τ := by
  obtain ⟨rank, hrank, hsent⟩ := SystemRun.sent_metrics h hmem
  obtain ⟨τ, hτ, batch, hreports⟩ :=
    EngineCore.ReportedTrace.reports (SystemRun.core_reported h hreport rank) hsent
  exact ⟨rank, hrank, τ, hτ, batch, hreports⟩

/-- What the counters of the client are, and what the batches they count and the requests add. -/
structure CountedOnce (config : EngineConfig) (τs : List SystemTransition) (s : System) : Prop where
  batches_eq : s.client.totalBatches = ((metricsRouted τs).map BatchMetrics.key).toFinset.card
  scheduled_eq : s.client.totalScheduledTokens =
    ∑ metrics ∈ (metricsRouted τs).toFinset, metrics.numScheduledTokens
  prefill_eq : s.client.totalPrefillTokens =
    ∑ metrics ∈ (metricsRouted τs).toFinset, metrics.numPrefillTokens
  decode_eq : s.client.totalDecodeTokens =
    ∑ metrics ∈ (metricsRouted τs).toFinset, metrics.numDecodeTokens
  split_eq : s.client.totalScheduledTokens = s.client.totalPrefillTokens + s.client.totalDecodeTokens
  key_injective : ∀ metrics ∈ metricsRouted τs, ∀ metrics' ∈ metricsRouted τs,
    metrics.key = metrics'.key → metrics = metrics'
  executed : ∀ metrics ∈ metricsRouted τs, ∃ rank < config.dataParallelSize,
    ∃ τ ∈ coreHistory rank τs, ∃ worker batch, .batch worker batch ∈ τ.out ∧
      EngineCore.Executes τ ∧
      metrics.key = ((coreConfig config rank).dataParallelRank, batch.batchId) ∧
      metrics.numPrefillTokens = EngineCore.prefillSum batch.items ∧
      metrics.numDecodeTokens = EngineCore.decodeSum batch.items
  requests : ∀ rank before τ after request, coreHistory rank τs = before ++ τ :: after →
    τ.event = .command (.add request) →
    EngineCore.Accepts (coreConfig config rank) τ request.requestId →
    (∀ τ' ∈ after, ¬ EngineCore.Accepts (coreConfig config rank) τ' request.requestId) →
    (∃ output ∈ EngineCore.emitted request.requestId after, EngineCore.Completes output) →
    EngineCore.Contribution request.requestId request.promptTokenIds.length after

/-- Every batch is counted once, and a request that ends by its own tokens added its prompt as
prefill and all sampled tokens but the first as decode. -/
theorem batches_counted_once (h : SystemRun config promptTokenizer tokenizer τs s)
    (hsamples : ∀ rank, Worker.SamplesAsked (execute rank))
    (hreport : ∀ τ ∈ τs, WorkersReport config execute τ) : CountedOnce config τs s := by
  have hkeys := SystemRun.key_injective h hreport
  have htotal := (SystemRun.holds h hreport).total_eq
  obtain ⟨hcount, hscheduled, hprefill, hdecode⟩ :
      s.client.totalBatches = (metricsRouted τs).toFinset.card ∧
      s.client.totalScheduledTokens =
        ∑ metrics ∈ (metricsRouted τs).toFinset, metrics.numScheduledTokens ∧
      s.client.totalPrefillTokens =
        ∑ metrics ∈ (metricsRouted τs).toFinset, metrics.numPrefillTokens ∧
      s.client.totalDecodeTokens =
        ∑ metrics ∈ (metricsRouted τs).toFinset, metrics.numDecodeTokens := by
    simpa [Client.books, BatchMetrics.weight, Prod.ext_iff, Prod.fst_sum, Prod.snd_sum] using htotal
  refine ⟨?_, hscheduled, hprefill, hdecode, ?_, hkeys, ?_, ?_⟩
  · have hmap : ((metricsRouted τs).map BatchMetrics.key).toFinset =
        (metricsRouted τs).toFinset.image BatchMetrics.key := by
      ext key
      simp
    rw [hcount, hmap, Finset.card_image_of_injOn]
    intro metrics hmem metrics' hmem' hkey
    exact hkeys metrics (by simpa using hmem) metrics' (by simpa using hmem') hkey
  · rw [hscheduled, hprefill, hdecode, ← Finset.sum_add_distrib]
    refine Finset.sum_congr rfl fun metrics hmem => ?_
    obtain ⟨_, _, _, _, batch, hreports⟩ :=
      SystemRun.executed h hreport (List.mem_toFinset.mp hmem)
    rw [hreports.metrics_eq]
    exact GPUInputBatch.numTokens_split batch
  · intro metrics hmem
    obtain ⟨rank, hrank, τ, hτ, batch, hreports⟩ := SystemRun.executed h hreport hmem
    obtain ⟨worker, hsent⟩ := hreports.sent
    refine ⟨rank, hrank, τ, hτ, worker, batch, hsent, hreports.executed, ?_, ?_, ?_⟩
    · rw [hreports.metrics_eq]
      rfl
    · rw [hreports.metrics_eq]
      exact GPUInputBatch.numPrefillTokens_ofItems batch
    · rw [hreports.metrics_eq]
      exact GPUInputBatch.numDecodeTokens_ofItems batch
  · rintro rank before τ after request hsplit hevent haccept hlatest ⟨output, houtput, hcompletes⟩
    have hhonest := EngineCore.ReportedTrace.honest (SystemRun.core_reported h hreport rank)
      (hsamples rank)
    exact EngineCore.HonestTrace.contribution hhonest hsplit hevent haccept hlatest houtput hcompletes

end Totals

/-- A Worker for batches of one request: an ordinary token first, then the end of sequence. -/
def executeOne (_ : ℕ) (input : GPUInputBatch) : Except PyError (Dict RequestId TokenId) :=
  match input.requestIds, input.sampleIndices with
  | [id], [0] => .ok (Dict.singleton id (if input.generatedCounts = [0] then 100 else 1))
  | _, _ => .error (.runtimeError "one request only")

theorem executeOne_samplesAsked (rank : ℕ) : Worker.SamplesAsked (executeOne rank) := by
  intro input sampled _ hexecute request hmem
  unfold executeOne at hexecute
  split at hexecute
  · rename_i id hids hindices
    obtain rfl := Except.ok.inj hexecute
    rw [hids, hindices] at hmem
    obtain rfl : request = (id, 0) := by simpa using hmem
    simp
  · cases hexecute

def answerOne (batchId token prefill : ℕ) : WorkerResult where
  batchId := batchId
  rank := 0
  sampledTokenIds := Dict.singleton "a" token
  metrics := some
    { batchId := batchId
      rank := 0
      numRequests := 1
      numScheduledTokens := 1
      numPrefillTokens := prefill
      numDecodeTokens := 1 - prefill }

def countedEvents : List Event :=
  [submits "a", .coordinate, .command 0, .engineStep 0 [answerOne 1 100 1],
    .engineStep 0 [answerOne 2 1 0], .drain 0, .drain 0, .drain 0, .drain 0, .route, .route, .route,
    .route]

theorem batches_counted_once_ended : ∃ τs s,
    SystemRun twoRanks (.ofTokenizer characterTokenizer) characterTokenizer τs s ∧
      (s.client.totalBatches, s.client.totalPrefillTokens, s.client.totalDecodeTokens) = (2, 1, 1) ∧
      CountedOnce twoRanks τs s := by
  have hsome : (drive twoRanks characterTokenizer countedEvents).map
      (fun run => (decide (∀ τ ∈ run.1, WorkersReport twoRanks executeOne τ),
        (run.2.client.totalBatches, run.2.client.totalPrefillTokens, run.2.client.totalDecodeTokens))) =
      some (true, (2, 1, 1)) := by decide +kernel
  obtain ⟨⟨τs, s⟩, hdrive, hseen⟩ := Option.map_eq_some_iff.mp hsome
  obtain ⟨hreport, hcounts⟩ := Prod.mk.inj hseen
  have hrun := drive_run hdrive (by decide)
  exact ⟨τs, s, hrun, hcounts,
    batches_counted_once hrun executeOne_samplesAsked (of_decide_eq_true hreport)⟩

end System

end MiniVLLM
