import MiniVLLM.Model.Client
import MiniVLLM.Model.Worker
import MiniVLLM.Verification.Engine.Contributions

/-! # What Workers report

A Worker that executed a batch answers with one metrics object. The core puts it on its own
and attaches it to the outputs of the batch. -/

namespace MiniVLLM

open KVCacheManager Scheduler

namespace Worker

/-- The execution of a batch samples a token for exactly the requests with a sample index. -/
def SamplesAsked (execute : GPUInputBatch → Except PyError (Dict RequestId TokenId)) : Prop :=
  ∀ input sampled, input.requestIds.Nodup → execute input = .ok sampled →
    ∀ request ∈ input.requestIds.zip input.sampleIndices,
      (sampled.get? request.1).isSome = decide (0 ≤ request.2)

section Answer

variable {config : EngineConfig} {rank : ℕ}
  {execute : GPUInputBatch → Except PyError (Dict RequestId TokenId)} {batch : WorkerBatch}

/-- The answer to a batch that is accepted: the tokens and a report, or an error and neither. -/
theorem answer_cases (rank : ℕ)
    (execute : GPUInputBatch → Except PyError (Dict RequestId TokenId)) (hne : batch.items ≠ [])
    (hvalid : ∀ item ∈ batch.items, ValidItem config.blockSize item) :
    ((answer config rank execute batch).failed = true ∧
      (answer config rank execute batch).metrics = none) ∨
    ∃ sampled, execute (GPUInputBatch.ofItems config.blockSize batch) = .ok sampled ∧
      (answer config rank execute batch).failed = false ∧
      (answer config rank execute batch).sampledTokenIds = sampled ∧
      (answer config rank execute batch).metrics =
        some (metricsOf config batch (GPUInputBatch.ofItems config.blockSize batch)) := by
  have hinput := GPUInputBatch.fromWorkerBatch_eq batch config.blockSize_pos hne hvalid
  unfold answer
  rw [hinput]
  cases hexecute : execute (GPUInputBatch.ofItems config.blockSize batch) with
  | error error =>
      left
      simp only [bind, Except.bind, hexecute]
      refine ⟨?_, trivial⟩
      simp [WorkerResult.failed, toString]
  | ok sampled =>
      right
      simp only [bind, Except.bind, hexecute, pure, Except.pure]
      exact ⟨sampled, rfl, rfl, rfl, trivial⟩

theorem sampleIndex_of_item {blockSize : ℕ}
    (hvalid : ∀ item ∈ batch.items, ValidItem blockSize item) {item : WorkerItem}
    (hitem : item ∈ batch.items) : ∃ sampleIndex : ℤ,
      (item.requestId, sampleIndex) ∈ (GPUInputBatch.ofItems blockSize batch).requestIds.zip
        (GPUInputBatch.ofItems blockSize batch).sampleIndices ∧
      (0 ≤ sampleIndex ↔ item.shouldSample = true) := by
  obtain ⟨i, hi, rfl⟩ := List.mem_iff_getElem.mp hitem
  have hrow : i < (batch.items.map (·.tokenIds)).length := by simpa using hi
  have hstop : 0 < (Ragged.starts (batch.items.map (·.tokenIds))).getD (i + 1) 0 := by
    have hlength := Ragged.starts_succ_sub hrow
    rw [List.getElem_map] at hlength
    have hpos := List.length_pos_of_ne_nil (hvalid _ hitem).tokenIds_ne
    omega
  have hlt : i + 1 < (Ragged.starts (batch.items.map (·.tokenIds))).length := by simpa using hi
  rw [List.getD_eq_getElem _ _ hlt] at hstop
  refine ⟨if batch.items[i].shouldSample then
    ((Ragged.starts (batch.items.map (·.tokenIds)))[i + 1] : ℤ) - 1 else -1, ?_, ?_⟩
  · refine List.mem_iff_getElem.mpr ⟨i, ?_, ?_⟩
    · simpa [GPUInputBatch.ofItems, GPUInputBatch.ofLists, GPUInputBatch.listsOf,
        GPUInputBatch.sampleIndicesOf] using hi
    · simp [GPUInputBatch.ofItems, GPUInputBatch.ofLists, GPUInputBatch.listsOf,
        GPUInputBatch.sampleIndicesOf]
  · by_cases hsample : batch.items[i].shouldSample = true
    · simp only [hsample, if_true, iff_true]
      omega
    · simp [hsample]

end Answer

end Worker

namespace EngineCore

/-- The assumptions on one event: added prompts are not empty, and the Worker answers the batch
that was sent by executing it, unless it failed to start. -/
def Reported (config : EngineConfig)
    (execute : GPUInputBatch → Except PyError (Dict RequestId TokenId)) (core : EngineCore)
    (messages : List CoreMessage) : Event → Prop
  | .command (.add request) => request.promptTokenIds ≠ []
  | .engineStep incoming => ∀ result, answer? (core.batchId + 1) incoming = some result →
      result.batchId ≠ -1 → ∀ rank batch, .batch rank batch ∈ messages →
        result = Worker.answer config rank execute batch
  | _ => True

structure ReportedStep (config : EngineConfig) (tokenizer : Tokenizer)
    (execute : GPUInputBatch → Except PyError (Dict RequestId TokenId)) (core : EngineCore)
    (event : Event) (messages : List CoreMessage) (core' : EngineCore) : Prop
    extends Step config tokenizer core event messages core' where
  reported : Reported config execute core messages event

abbrev ReportedTrace (config : EngineConfig) (tokenizer : Tokenizer)
    (execute : GPUInputBatch → Except PyError (Dict RequestId TokenId))
    (τs : List CoreTransition) (core : EngineCore) : Prop :=
  Run (ReportedStep config tokenizer execute) (init config) τs core

/-- The metrics objects among the messages, on their own or attached to outputs. -/
def metricsIn (messages : List CoreMessage) : List BatchMetrics :=
  messages.filterMap fun
    | .event event => Client.eventMetrics event
    | .batch _ _ => none

section Step

variable {config : EngineConfig} {tokenizer : Tokenizer}
  {execute : GPUInputBatch → Except PyError (Dict RequestId TokenId)} {core core' : EngineCore}
  {event : Event} {messages : List CoreMessage}

theorem ReportedTrace.trace {τs : List CoreTransition}
    (h : ReportedTrace config tokenizer execute τs core) : Trace config tokenizer τs core :=
  h.mono (fun _ _ _ _ hstep => hstep.toStep)

theorem StepDerivation.batch_valid
    (h : StepDerivation config tokenizer core event messages core') {rank : ℕ}
    {batch : WorkerBatch} (hbatch : .batch rank batch ∈ messages)
    (hsettled : core.scheduler.Settled config) :
    batch.items ≠ [] ∧ (∀ item ∈ batch.items, ValidItem config.blockSize item) ∧
      (batch.items.map (·.requestId)).Nodup := by
  obtain ⟨_, _, hne, _, admitted, m', hs⟩ := h.batch hbatch
  refine ⟨hne, fun item hitem => ?_, hs.items_nodup⟩
  obtain ⟨_, _, _, hissued⟩ := Scheduled.item hs hsettled hitem
  exact hissued.valid

theorem ReportedStep.honest (h : ReportedStep config tokenizer execute core event messages core')
    (hsamples : Worker.SamplesAsked execute)
    (hd : StepDerivation config tokenizer core event messages core')
    (hsettled : core.scheduler.Settled config) :
    HonestStep config tokenizer core event messages core' := by
  refine ⟨h.toStep, ?_⟩
  have hreported := h.reported
  cases event with
  | command command =>
      cases command with
      | add request => exact hreported
      | abort => trivial
      | shutdown => trivial
  | leave => trivial
  | engineStep incoming =>
      rw [HonestEvent]
      split
      · rename_i result hanswer
        intro hstarted
        rcases hd.shape with hevents | ⟨items, rest, _, _, hmessages, _⟩
        · exact Or.inr (by simp [hevents.itemsOf_eq])
        · have hbatch : .batch 0 ⟨core.batchId + 1, items⟩ ∈ messages := by
            rw [hmessages]
            exact List.mem_cons_self
          obtain rfl := hreported result hanswer hstarted _ _ hbatch
          obtain ⟨hne, hvalid, hnodup⟩ := hd.batch_valid hbatch hsettled
          rw [show itemsOf messages = items from (hd.batch hbatch).2.2.2.1]
          rcases Worker.answer_cases _ _ hne hvalid with
            ⟨hfailed, _⟩ | ⟨sampled, hsampled, _, htokens, _⟩
          · exact Or.inl hfailed
          · refine Or.inr fun item hitem => ?_
            obtain ⟨sampleIndex, hmem, hsign⟩ := Worker.sampleIndex_of_item hvalid hitem
            rw [htokens, hsamples _ _ hnodup hsampled _ hmem, Bool.eq_iff_iff, decide_eq_true_iff]
            exact hsign
      · trivial

theorem BatchDerivation.metrics_eq {result : WorkerResult} {items : List WorkerItem}
    {s s' : Scheduler} {outs : List RequestOutput}
    (h : BatchDerivation config tokenizer result items s outs s') :
    ∀ output ∈ outs, output.metrics = result.metrics := by
  induction h with
  | nil => simp
  | advance _ _ _ ih => exact ih
  | extend _ _ _ _ ih =>
      intro output hmem
      rcases List.mem_cons.mp hmem with rfl | hmem
      · rfl
      · exact ih output hmem
  | finish _ _ _ _ _ ih =>
      intro output hmem
      rcases List.mem_cons.mp hmem with rfl | hmem
      · rfl
      · exact ih output hmem

@[simp] theorem metricsIn_append (ms ms' : List CoreMessage) :
    metricsIn (ms ++ ms') = metricsIn ms ++ metricsIn ms' := by
  simp [metricsIn]

theorem metricsIn_batch (items : List WorkerItem) (messages : List CoreMessage) :
    metricsIn (core.batchMessage items :: messages) = metricsIn messages := rfl

theorem metricsIn_metricsMessages (result : WorkerResult) :
    metricsIn (metricsMessages result) = result.metrics.toList := by
  cases hmetrics : result.metrics <;> simp [metricsIn, metricsMessages, hmetrics, Client.eventMetrics]

theorem metricsIn_errors (ids : List RequestId) (error : String) :
    metricsIn (errorMessages ids error) = [] := by
  simp [metricsIn, errorMessages, outputMessage, errorOutput, Client.eventMetrics]

theorem mem_metricsIn_outputs {outs : List RequestOutput} {metrics : BatchMetrics}
    (h : metrics ∈ metricsIn (outs.map outputMessage)) :
    ∃ output ∈ outs, output.metrics = some metrics := by
  simpa [metricsIn, outputMessage, Client.eventMetrics] using h

/-- All metrics of a step are the report on the batch that the step sent and the Worker
executed. -/
structure Reports (config : EngineConfig) (metrics : BatchMetrics) (batch : WorkerBatch)
    (τ : CoreTransition) : Prop where
  sent : ∃ rank, .batch rank batch ∈ τ.out
  executed : Executes τ
  metrics_eq : metrics =
    Worker.metricsOf config batch (GPUInputBatch.ofItems config.blockSize batch)

theorem ReportedStep.reports (h : ReportedStep config tokenizer execute core event messages core')
    (hd : StepDerivation config tokenizer core event messages core')
    (hsettled : core.scheduler.Settled config) {metrics : BatchMetrics}
    (hmem : metrics ∈ metricsIn messages) :
    ∃ batch, Reports config metrics batch ⟨core, event, messages, core'⟩ ∧
      batch.batchId = core.batchId + 1 ∧ core'.batchId = core.batchId + 1 := by
  have hreported := h.reported
  have hvalid := fun batch (hbatch : .batch 0 batch ∈ messages) => hd.batch_valid hbatch hsettled
  cases hd with
  | reject => simp [metricsIn, outputMessage, errorOutput, Client.eventMetrics] at hmem
  | abortRunning => simp [metricsIn, outputMessage, abortOutput, Client.eventMetrics] at hmem
  | abortWaiting => simp [metricsIn, outputMessage, abortOutput, Client.eventMetrics] at hmem
  | @fail incoming admitted items m' result s' hs hne hanswer hstarted hfailed =>
      obtain rfl := hreported result hanswer hstarted 0 ⟨core.batchId + 1, items⟩ List.mem_cons_self
      obtain ⟨_, hitems, _⟩ := hvalid ⟨core.batchId + 1, items⟩ List.mem_cons_self
      rw [metricsIn_batch, metricsIn_append, metricsIn_errors, metricsIn_metricsMessages] at hmem
      rcases Worker.answer_cases 0 execute hne hitems with
        ⟨_, hnone⟩ | ⟨_, _, hok, _⟩
      · rw [hnone] at hmem
        cases hmem
      · rw [hok] at hfailed
        cases hfailed
  | @answer incoming admitted items m' result outs s' hs hne hanswer hstarted hok hd =>
      obtain rfl := hreported result hanswer hstarted 0 ⟨core.batchId + 1, items⟩ List.mem_cons_self
      obtain ⟨_, hitems, _⟩ := hvalid ⟨core.batchId + 1, items⟩ List.mem_cons_self
      have hmetrics : (Worker.answer config 0 execute ⟨core.batchId + 1, items⟩).metrics =
          some metrics := by
        rw [metricsIn_batch, metricsIn_append, metricsIn_metricsMessages] at hmem
        rcases List.mem_append.mp hmem with hmem | hmem
        · exact Option.mem_toList.mp hmem
        · obtain ⟨output, houtput, hsome⟩ := mem_metricsIn_outputs hmem
          rw [← hsome, BatchDerivation.metrics_eq hd output houtput]
      refine ⟨⟨core.batchId + 1, items⟩, ⟨⟨0, List.mem_cons_self⟩,
        ⟨incoming, _, rfl, hanswer, hstarted, hok⟩, ?_⟩, rfl, rfl⟩
      rcases Worker.answer_cases 0 execute hne hitems with
        ⟨hfailed, _⟩ | ⟨_, _, _, _, hreport⟩
      · rw [hok] at hfailed
        cases hfailed
      · exact Option.some.inj (hmetrics.symm.trans hreport)
  | crash =>
      rw [metricsIn_batch, metricsIn_errors] at hmem
      cases hmem
  | _ => cases hmem

theorem StepDerivation.batchId_le (h : StepDerivation config tokenizer core event messages core') :
    core.batchId ≤ core'.batchId := by
  cases h with
  | fail => exact Nat.le_succ _
  | answer => exact Nat.le_succ _
  | crash => exact Nat.le_succ _
  | _ => exact le_refl _

end Step

section Runs

variable {config : EngineConfig} {tokenizer : Tokenizer}
  {execute : GPUInputBatch → Except PyError (Dict RequestId TokenId)} {core : EngineCore}
  {τs : List CoreTransition}

theorem ReportedTrace.honest (h : ReportedTrace config tokenizer execute τs core)
    (hsamples : Worker.SamplesAsked execute) : HonestTrace config tokenizer τs core := by
  induction h with
  | nil => exact .nil
  | snoc hrun hstep ih =>
      have hstable := Trace.stable (ReportedTrace.trace hrun)
      exact .snoc ih (hstep.honest hsamples (hstep.toStep.derivation hstable).1
        (hstable hstep.toStep.running))

/-- The metrics of a run are reports on its batches. -/
theorem ReportedTrace.reports (h : ReportedTrace config tokenizer execute τs core)
    {metrics : BatchMetrics} (hmem : metrics ∈ metricsIn (Run.outputs τs)) :
    ∃ τ ∈ τs, ∃ batch, Reports config metrics batch τ := by
  induction h with
  | nil => cases hmem
  | snoc hrun hstep ih =>
      rw [Run.outputs_append, metricsIn_append, Run.outputs_singleton] at hmem
      rcases List.mem_append.mp hmem with hmem | hmem
      · obtain ⟨τ, hτ, hreports⟩ := ih hmem
        exact ⟨τ, List.mem_append_left _ hτ, hreports⟩
      · have hstable := Trace.stable (ReportedTrace.trace hrun)
        obtain ⟨batch, hreports, _⟩ := hstep.reports (hstep.toStep.derivation hstable).1
          (hstable hstep.toStep.running) hmem
        exact ⟨_, List.mem_append_right _ List.mem_cons_self, batch, hreports⟩

theorem ReportedTrace.batchIds (h : ReportedTrace config tokenizer execute τs core) :
    (∀ metrics ∈ metricsIn (Run.outputs τs), metrics.batchId ≤ core.batchId) ∧
    ∀ metrics ∈ metricsIn (Run.outputs τs), ∀ metrics' ∈ metricsIn (Run.outputs τs),
      metrics.batchId = metrics'.batchId → metrics = metrics' := by
  induction h with
  | nil => exact ⟨by simp [metricsIn], by simp [metricsIn]⟩
  | @snoc τs core event messages core' hrun hstep ih =>
      obtain ⟨hbound, hunique⟩ := ih
      have hstable := Trace.stable (ReportedTrace.trace hrun)
      have hd := (hstep.toStep.derivation hstable).1
      have hle := hd.batchId_le
      have hnew : ∀ metrics ∈ metricsIn messages, metrics.batchId = core.batchId + 1 ∧
          core'.batchId = core.batchId + 1 := by
        intro metrics hmem
        obtain ⟨batch, hreports, hbatchId, hnext⟩ :=
          hstep.reports hd (hstable hstep.toStep.running) hmem
        rw [hreports.metrics_eq]
        exact ⟨hbatchId, hnext⟩
      have hsame : ∀ metrics ∈ metricsIn messages, ∀ metrics' ∈ metricsIn messages,
          metrics = metrics' := by
        intro metrics hmem metrics' hmem'
        obtain ⟨batch, hreports, hbatchId, _⟩ :=
          hstep.reports hd (hstable hstep.toStep.running) hmem
        obtain ⟨batch', hreports', hbatchId', _⟩ :=
          hstep.reports hd (hstable hstep.toStep.running) hmem'
        obtain ⟨rank, hsent⟩ := hreports.sent
        obtain ⟨rank', hsent'⟩ := hreports'.sent
        have hitems := (hd.batch hsent).2.2.2.1.symm.trans (hd.batch hsent').2.2.2.1
        have hbatch : batch = batch' := by
          cases batch
          cases batch'
          simp_all
        rw [hreports.metrics_eq, hreports'.metrics_eq, hbatch]
      rw [Run.outputs_append, metricsIn_append, Run.outputs_singleton]
      refine ⟨?_, ?_⟩
      · intro metrics hmem
        rcases List.mem_append.mp hmem with hmem | hmem
        · exact (hbound metrics hmem).trans hle
        · exact ((hnew metrics hmem).1.trans (hnew metrics hmem).2.symm).le
      · intro metrics hmem metrics' hmem' hid
        rcases List.mem_append.mp hmem with hmem | hmem <;>
          rcases List.mem_append.mp hmem' with hmem' | hmem'
        · exact hunique metrics hmem metrics' hmem' hid
        · have hold := hbound metrics hmem
          have hlater := (hnew metrics' hmem').1
          omega
        · have hold := hbound metrics' hmem'
          have hlater := (hnew metrics hmem).1
          omega
        · exact hsame metrics hmem metrics' hmem'

end Runs

end EngineCore

end MiniVLLM
