import MiniVLLM.Model.ModelRunner
import MiniVLLM.Verification.Engine.Reports
import MiniVLLM.Verification.Worker.Acceptance
import MiniVLLM.Verification.Worker.Store

/-! # The loop of a Worker

A Worker executes the batches it is sent, one after the other, on what its runner keeps. Where
the runner may execute a batch in several ways, a run of the Worker takes one of them. -/

namespace MiniVLLM

open KVCacheManager Scheduler EngineCore

variable {σ : Type}

/-! ## The executable loop -/

section Loop

variable {config : EngineConfig} {tokenizer : Tokenizer} {execute : BatchExecution σ}
  {w w' : WorkerWorld σ} {event : Event} {messages : List CoreMessage}

theorem WorkerWorld.of_step
    (h : WorkerWorld.step config tokenizer execute w event = some (w', messages)) :
    EngineCore.step config tokenizer w.core event = some (w'.core, messages) ∧
      (World.batch? messages = none → w'.worker = w.worker) ∧
      ∀ batch, World.batch? messages = some batch → ∃ result, event = .engineStep [result] ∧
        WorkerWorld.answer config 0 execute w.worker batch = (result, w'.worker) := by
  unfold WorkerWorld.step at h
  split at h
  · cases h
  · rename_i core messages' hstep
    split at h
    · rename_i hnone
      obtain ⟨rfl, rfl⟩ := Prod.mk.inj (Option.some.inj h)
      refine ⟨hstep, fun _ => rfl, fun batch hbatch => ?_⟩
      rw [hnone] at hbatch
      cases hbatch
    · rename_i batch result hsome
      split at h
      · rename_i hsame
        obtain ⟨rfl, rfl⟩ := Prod.mk.inj (Option.some.inj h)
        refine ⟨hstep, fun hnone => ?_, fun batch' hbatch' => ⟨result, rfl, ?_⟩⟩
        · rw [hsome] at hnone
          cases hnone
        · obtain rfl : batch = batch' := Option.some.inj (hsome.symm.trans hbatch')
          rw [hsame]
      · cases h
    · cases h

end Loop

/-! ## Runs -/

/-- What a runner may sample or raise for a batch, and what it may keep. -/
abbrev BatchRelation (σ : Type) :=
  σ → GPUInputBatch → Except PyError (Dict RequestId TokenId) → σ → Prop

/-- One turn of the loop. A batch that cannot be flattened does not reach the runner. -/
def WorkerTurn (config : EngineConfig) (Executes : BatchRelation σ) (worker : σ)
    (batch : WorkerBatch) (outcome : Except PyError (Dict RequestId TokenId)) (worker' : σ) :
    Prop :=
  match GPUInputBatch.fromWorkerBatch batch config.blockSize with
  | .ok input => Executes worker input outcome worker'
  | .error _ => worker' = worker

/-- A step whose Worker takes a turn for the batch that was sent, and reports its outcome. -/
structure WorkerStep (config : EngineConfig) (tokenizer : Tokenizer) (Executes : BatchRelation σ)
    (w : WorkerWorld σ) (event : Event) (messages : List CoreMessage) (w' : WorkerWorld σ) : Prop
    extends Step config tokenizer w.core event messages w'.core where
  idle : World.batch? messages = none → w'.worker = w.worker
  turn : ∃ outcome, Reported config (fun _ => outcome) w.core messages event ∧
    ∀ batch, World.batch? messages = some batch →
      WorkerTurn config Executes w.worker batch outcome w'.worker

abbrev WorkerTransition (σ : Type) := Transition (WorkerWorld σ) Event CoreMessage

abbrev WorkerTrace (config : EngineConfig) (tokenizer : Tokenizer) (Executes : BatchRelation σ)
    (worker : σ) (τs : List (WorkerTransition σ)) (w : WorkerWorld σ) : Prop :=
  Run (WorkerStep config tokenizer Executes) ⟨init config, worker⟩ τs w

def BatchExecution.Executes (execute : BatchExecution σ) : BatchRelation σ :=
  fun worker input outcome worker' => execute worker input = (outcome, worker')

section Driven

variable {config : EngineConfig} {tokenizer : Tokenizer} {execute : BatchExecution σ} {worker : σ}
  {w w' : WorkerWorld σ} {event : Event} {messages : List CoreMessage}

def EngineCore.Event.Prompted : Event → Prop
  | .command (.add request) => request.promptTokenIds ≠ []
  | _ => True

instance : DecidablePred Event.Prompted
  | .command (.add request) =>
      decidable_of_iff (request.promptTokenIds.isEmpty = false) List.isEmpty_eq_false_iff
  | .command (.abort _) => isTrue trivial
  | .command .shutdown => isTrue trivial
  | .leave => isTrue trivial
  | .engineStep _ => isTrue trivial

theorem EngineCore.Step.batch_cases {core core' : EngineCore}
    (h : Step config tokenizer core event messages core') (hstable : core.Stable config) :
    (OnlyEvents messages ∧ World.batch? messages = none) ∨
      ∃ batch, .batch 0 batch ∈ messages ∧ World.batch? messages = some batch ∧
        ∀ rank batch', .batch rank batch' ∈ messages → rank = 0 ∧ batch' = batch := by
  have hd := (h.derivation hstable).1
  rcases hd.shape with hevents | ⟨items, rest, _, _, hmessages, _⟩
  · exact Or.inl ⟨hevents, batch?_of_onlyEvents hevents⟩
  · have hmem : .batch 0 ⟨core.batchId + 1, items⟩ ∈ messages := by
      rw [hmessages]
      exact List.mem_cons_self
    refine Or.inr ⟨_, hmem, hd.batch?_eq hmem, fun rank batch' hbatch' => ?_⟩
    exact ⟨(hd.batch hbatch').1,
      Option.some.inj ((hd.batch?_eq hbatch').symm.trans (hd.batch?_eq hmem))⟩

/-- Only the outcome of its batch shows in the answer of a Worker. -/
theorem Worker.answer_congr
    {execute execute' : GPUInputBatch → Except PyError (Dict RequestId TokenId)} {rank : ℕ}
    {batch : WorkerBatch}
    (hsame : ∀ input, GPUInputBatch.fromWorkerBatch batch config.blockSize = .ok input →
      execute input = execute' input) :
    Worker.answer config rank execute batch = Worker.answer config rank execute' batch := by
  cases hinput : GPUInputBatch.fromWorkerBatch batch config.blockSize with
  | error e => simp only [Worker.answer, hinput, Except.bind, bind]
  | ok input => simp only [Worker.answer, hinput, Except.ok_bind, hsame input hinput]

theorem WorkerWorld.step_worker (hstable : w.core.Stable config) (hranked : event.Ranked)
    (hprompted : event.Prompted)
    (h : WorkerWorld.step config tokenizer execute w event = some (w', messages)) :
    WorkerStep config tokenizer execute.Executes w event messages w' := by
  obtain ⟨hcore, hidle, hbatch⟩ := WorkerWorld.of_step h
  have hstep : Step config tokenizer w.core event messages w'.core := ⟨hranked, hcore⟩
  refine ⟨hstep, hidle, ?_⟩
  rcases hstep.batch_cases hstable with ⟨hevents, hnone⟩ | ⟨batch, hmem, hsome, honly⟩
  · refine ⟨.ok .empty, ?_, fun batch hsome => ?_⟩
    · cases event with
      | command command =>
          cases command with
          | add request => exact hprompted
          | abort => trivial
          | shutdown => trivial
      | leave => trivial
      | engineStep incoming =>
          intro result _ _ rank batch hmem
          obtain ⟨_, heq⟩ := hevents _ hmem
          cases heq
    · rw [hnone] at hsome
      cases hsome
  · obtain ⟨result, rfl, hanswer⟩ := hbatch batch hsome
    obtain ⟨hresult, hworker⟩ := Prod.mk.inj hanswer
    obtain ⟨outcome, houtcome⟩ : ∃ outcome, ∀ input,
        GPUInputBatch.fromWorkerBatch batch config.blockSize = .ok input →
          (execute w.worker input).1 = outcome := by
      cases GPUInputBatch.fromWorkerBatch batch config.blockSize with
      | error e => exact ⟨.ok .empty, fun _ h => nomatch h⟩
      | ok input =>
          refine ⟨(execute w.worker input).1, fun input' h => ?_⟩
          rw [Except.ok.inj h]
    refine ⟨outcome, fun result' hsame _ rank batch' hmem' => ?_, fun batch' hsome' => ?_⟩
    · obtain ⟨rfl, rfl⟩ := honly rank batch' hmem'
      obtain rfl : result' = result := by simpa using List.mem_of_find?_eq_some hsame
      rw [← hresult]
      exact Worker.answer_congr houtcome
    · obtain rfl : batch = batch' := Option.some.inj (hsome.symm.trans hsome')
      rw [WorkerTurn]
      cases hinput : GPUInputBatch.fromWorkerBatch batch config.blockSize with
      | error e =>
          rw [hinput] at hworker
          exact hworker.symm
      | ok input =>
          rw [hinput] at hworker
          exact Prod.ext (houtcome input hinput) hworker

def driveWorker (config : EngineConfig) (tokenizer : Tokenizer) (execute : BatchExecution σ)
    (worker : σ) (events : List Event) : Option (List (WorkerTransition σ) × WorkerWorld σ) :=
  Run.execute (WorkerWorld.step config tokenizer execute) ⟨init config, worker⟩ events

theorem driveWorker_worker {events : List Event} {τs : List (WorkerTransition σ)}
    (h : driveWorker config tokenizer execute worker events = some (τs, w))
    (hevents : ∀ event ∈ events, event.Ranked ∧ event.Prompted) :
    WorkerTrace config tokenizer execute.Executes worker τs w :=
  Run.of_execute_of_invariant (I := fun w => w.core.Stable config) h hevents (stable_init config)
    (fun _ _ _ _ hstable hstep => (hstep.toStep.derivation hstable).2)
    fun _ _ _ _ hstable hevent hstep => WorkerWorld.step_worker hstable hevent.1 hevent.2 hstep

end Driven

def executedOf (batchId numRequests numPrefillTokens numDecodeTokens : ℕ)
    (tokens : List (RequestId × TokenId)) : WorkerResult :=
  { answerOf batchId tokens with
    metrics := some
      { batchId := batchId
        rank := 0
        numRequests := numRequests
        numScheduledTokens := numPrefillTokens + numDecodeTokens
        numPrefillTokens := numPrefillTokens
        numDecodeTokens := numDecodeTokens } }

/-! ## Simulation -/

section Simulation

variable {σ' : Type} {config : EngineConfig} {tokenizer : Tokenizer} {Executes : BatchRelation σ}
  {Executes' : BatchRelation σ'} {Represents : σ → σ' → Prop} {worker : σ} {worker' : σ'}
  {w w' : WorkerWorld σ} {event : Event} {messages : List CoreMessage}
  {τs : List (WorkerTransition σ)}

end Simulation

/-- A batch that is scheduled in an honest run, beside a store. -/
structure Dispatched (config : EngineConfig) (s admitted : Scheduler) (items : List WorkerItem)
    (m' : KVCacheManager) (store : Store) : Prop where
  scheduled : Scheduled config s admitted items m'
  settled : s.Settled config
  ne : items ≠ []
  limit : ∀ item ∈ items, item.seqLen < config.contextLimit
  holds : Holds config s store

/-- A runner refines the Worker over a store: it stores the tokens of each batch that is
dispatched, and its outcome is `sample`, whatever it keeps. -/
structure BatchRelation.Refines (config : EngineConfig) (Executes : BatchRelation σ)
    (sample : GPUInputBatch → Except PyError (Dict RequestId TokenId))
    (Mirrors : Store → σ → Prop) : Prop where
  executes : ∀ {s admitted : Scheduler} {items : List WorkerItem} {m' : KVCacheManager}
    {store : Store} {worker worker' : σ} {outcome : Except PyError (Dict RequestId TokenId)}
    (batchId : ℕ), Dispatched config s admitted items m' store → Mirrors store worker →
      Executes worker (GPUInputBatch.ofItems config.blockSize ⟨batchId, items⟩) outcome worker' →
        outcome = sample (GPUInputBatch.ofItems config.blockSize ⟨batchId, items⟩) ∧
          Mirrors (Paging.write store (batchPairs items)) worker'
  total : ∀ {s admitted : Scheduler} {items : List WorkerItem} {m' : KVCacheManager}
    {store : Store} {worker : σ} (batchId : ℕ), Dispatched config s admitted items m' store →
      Mirrors store worker → ∃ outcome worker',
        Executes worker (GPUInputBatch.ofItems config.blockSize ⟨batchId, items⟩) outcome worker'

section Refinement

variable {config : EngineConfig} {tokenizer : Tokenizer} {Executes : BatchRelation σ}
  {sample : GPUInputBatch → Except PyError (Dict RequestId TokenId)} {Mirrors : Store → σ → Prop}
  {worker : σ} {w w' : WorkerWorld σ} {event : Event} {messages : List CoreMessage}
  {τs : List (WorkerTransition σ)}

/-- The outcome of an execution is all that the engine sees of it. -/
theorem EngineCore.Reported.congr
    {execute execute' : GPUInputBatch → Except PyError (Dict RequestId TokenId)} {core : EngineCore}
    (h : Reported config execute core messages event)
    (hsame : ∀ rank batch, .batch rank batch ∈ messages →
      Worker.answer config rank execute batch = Worker.answer config rank execute' batch) :
    Reported config execute' core messages event := by
  cases event with
  | command command =>
      cases command with
      | add request => exact h
      | abort => trivial
      | shutdown => trivial
  | leave => trivial
  | engineStep incoming =>
      intro result hanswer hstarted rank batch hbatch
      rw [h result hanswer hstarted rank batch hbatch, hsame rank batch hbatch]

/-- What a run of a refining Worker knows of itself: its engine saw `sample`, and a store says
what the runner keeps. -/
structure Served (config : EngineConfig) (tokenizer : Tokenizer)
    (sample : GPUInputBatch → Except PyError (Dict RequestId TokenId)) (Mirrors : Store → σ → Prop)
    (τs : List (WorkerTransition σ)) (w : WorkerWorld σ) : Prop where
  reported : ReportedTrace config tokenizer sample (τs.map (Transition.map WorkerWorld.core)) w.core
  store : ∃ store, StoredInv config ⟨w.core, store⟩ ∧ Mirrors store w.worker

theorem EngineCore.HonestTrace.dispatched {core core' : EngineCore} {τs : List CoreTransition}
    {store : Store} {batch : WorkerBatch}
    (h : HonestTrace config tokenizer τs core) (hinv : StoredInv config ⟨core, store⟩)
    (hstep : Step config tokenizer core event messages core')
    (hbatch : .batch 0 batch ∈ messages) :
    ∃ admitted m', Dispatched config core.scheduler admitted batch.items m' store ∧
      GPUInputBatch.fromWorkerBatch batch config.blockSize =
        .ok (GPUInputBatch.ofItems config.blockSize batch) := by
  have hrun := hstep.running
  obtain ⟨_, _, hne, _, admitted, m', hs⟩ := (hstep.derivation hinv.stable).1.batch hbatch
  exact ⟨admitted, m', ⟨hs, hinv.stable hrun, hne, fun item hitem => h.seqLen_lt hrun hs hitem,
    hinv.holds hrun⟩, GPUInputBatch.fromWorkerBatch_eq batch config.blockSize_pos hne hs.valid⟩

theorem WorkerStep.refines (h : WorkerStep config tokenizer Executes w event messages w')
    (hrefines : Executes.Refines config sample Mirrors) {τs : List CoreTransition} {store : Store}
    (hhonest : HonestTrace config tokenizer τs w.core) (hinv : StoredInv config ⟨w.core, store⟩)
    (hmirrors : Mirrors store w.worker) :
    ReportedStep config tokenizer sample w.core event messages w'.core ∧
      ∃ store', StoredStep config tokenizer ⟨w.core, store⟩ event messages ⟨w'.core, store'⟩ ∧
        Mirrors store' w'.worker := by
  obtain ⟨outcome, hreported, hturn⟩ := h.turn
  rcases h.toStep.batch_cases hinv.stable with ⟨hevents, hnone⟩ | ⟨batch, hbatch, hsome, honly⟩
  · have hno : ∀ rank batch, .batch rank batch ∉ messages := by
      intro rank batch hmem
      obtain ⟨_, heq⟩ := hevents _ hmem
      cases heq
    refine ⟨⟨h.toStep, hreported.congr fun rank batch hmem => absurd hmem (hno rank batch)⟩, store,
      ⟨h.toStep, fun _ => rfl, fun rank batch hmem => absurd hmem (hno rank batch)⟩, ?_⟩
    rw [h.idle hnone]
    exact hmirrors
  · obtain ⟨admitted, m', hdispatched, hinput⟩ := hhonest.dispatched hinv h.toStep hbatch
    have hexecutes := hturn batch hsome
    rw [WorkerTurn, hinput] at hexecutes
    obtain ⟨houtcome, hmirrors'⟩ :=
      hrefines.executes batch.batchId hdispatched hmirrors hexecutes
    refine ⟨⟨h.toStep, hreported.congr fun rank batch' hmem => ?_⟩,
      Paging.write store (batchPairs batch.items), ⟨h.toStep, fun hevents => ?_,
        fun rank batch' hmem => ⟨_, List.Subset.refl _, ?_, fun _ _ _ _ _ => rfl⟩⟩, hmirrors'⟩
    · obtain ⟨rfl, rfl⟩ := honly rank batch' hmem
      refine Worker.answer_congr fun input hsame => ?_
      obtain rfl := Except.ok.inj (hinput.symm.trans hsame)
      exact houtcome
    · obtain ⟨_, heq⟩ := hevents _ hbatch
      cases heq
    · rw [(honly rank batch' hmem).2]
      exact congrArg (Paging.write store)
        (hdispatched.scheduled.writesOf_eq hdispatched.ne batch.batchId).symm

/-- Every run of a refining Worker is served. -/
theorem WorkerTrace.served (h : WorkerTrace config tokenizer Executes worker τs w)
    (hrefines : Executes.Refines config sample Mirrors) (hsamples : Worker.SamplesAsked sample)
    {store : Store} (hmirrors : Mirrors store worker) :
    Served config tokenizer sample Mirrors τs w := by
  induction h with
  | nil =>
      refine ⟨.nil, store, ⟨stable_init config, fun _ id r t hr => ?_⟩, hmirrors⟩
      simp [request?, EngineCore.init, Scheduler.init] at hr
  | snoc hrun hstep ih =>
      obtain ⟨hreported, store, hinv, hmirrors⟩ := ih
      obtain ⟨hnext, store', hstored, hmirrors'⟩ :=
        hstep.refines hrefines (hreported.honest hsamples) hinv hmirrors
      refine ⟨?_, store', hstored.preserves hinv, hmirrors'⟩
      rw [List.map_append]
      exact .snoc hreported hnext

theorem Served.dispatched (h : Served config tokenizer sample Mirrors τs w)
    (hsamples : Worker.SamplesAsked sample) (hloop : w.core.stopped = false) {schedule : Schedule}
    {s' : Scheduler} (hschedule : (Scheduler.schedule config).run w.core.scheduler = .ok schedule s')
    {items : List WorkerItem} (hbatch : schedule.byRank.get? (some 0) = some items) :
    ∃ store admitted m', Dispatched config w.core.scheduler admitted items m' store ∧
      Mirrors store w.worker ∧ s' = admitted.withCache m' := by
  obtain ⟨store, hinv, hmirrors⟩ := h.store
  have hsettled := hinv.stable hloop
  obtain ⟨admitted, items', m', hs, hrun⟩ := hsettled.run_schedule
  obtain ⟨rfl, rfl⟩ := EStateM.Result.ok.inj (hschedule.symm.trans hrun)
  have hne : items' ≠ [] := by
    rintro rfl
    simp [Dict.get?, Schedule.ofItems_byRank_nil] at hbatch
  rw [Schedule.ofItems_byRank_of_ne hne, Dict.get?_singleton, if_pos rfl] at hbatch
  obtain rfl := Option.some.inj hbatch
  have hhonest := ReportedTrace.honest h.reported hsamples
  exact ⟨store, admitted, m', ⟨hs, hsettled, hne,
    fun item hitem => hhonest.seqLen_lt hloop hs hitem, hinv.holds hloop⟩, hmirrors, rfl⟩

/-- A refining Worker can take part in every step that `sample` explains. -/
theorem BatchRelation.Refines.exists_workerStep (hrefines : Executes.Refines config sample Mirrors)
    {core core' : EngineCore} {τs : List CoreTransition} {store : Store}
    (h : ReportedStep config tokenizer sample core event messages core')
    (hhonest : HonestTrace config tokenizer τs core) (hinv : StoredInv config ⟨core, store⟩)
    (hmirrors : Mirrors store worker) :
    ∃ worker', WorkerStep config tokenizer Executes ⟨core, worker⟩ event messages
      ⟨core', worker'⟩ := by
  rcases h.toStep.batch_cases hinv.stable with ⟨hevents, hnone⟩ | ⟨batch, hbatch, hsome, honly⟩
  · refine ⟨worker, h.toStep, fun _ => rfl, .ok .empty, h.reported.congr ?_, ?_⟩
    · intro rank batch hmem
      obtain ⟨_, heq⟩ := hevents _ hmem
      cases heq
    · intro batch hsome
      rw [hnone] at hsome
      cases hsome
  · obtain ⟨admitted, m', hdispatched, hinput⟩ := hhonest.dispatched hinv h.toStep hbatch
    obtain ⟨outcome, worker', hexecutes⟩ := hrefines.total batch.batchId hdispatched hmirrors
    obtain ⟨houtcome, _⟩ := hrefines.executes batch.batchId hdispatched hmirrors hexecutes
    refine ⟨worker', h.toStep, fun hnone => ?_, outcome, h.reported.congr ?_, ?_⟩
    · rw [hsome] at hnone
      cases hnone
    · intro rank batch' hmem
      obtain ⟨rfl, rfl⟩ := honly rank batch' hmem
      refine Worker.answer_congr fun input hsame => ?_
      obtain rfl := Except.ok.inj (hinput.symm.trans hsame)
      exact houtcome.symm
    · intro batch' hsome'
      obtain rfl : batch = batch' := Option.some.inj (hsome.symm.trans hsome')
      rw [WorkerTurn, hinput]
      exact hexecutes

/-- The histories of engines over a refining Worker are those that `sample` explains. -/
theorem BatchRelation.Refines.exists_workerTrace_iff
    (hrefines : Executes.Refines config sample Mirrors) (hsamples : Worker.SamplesAsked sample)
    {store : Store} (hmirrors : Mirrors store worker) {τs : List CoreTransition}
    {core : EngineCore} :
    (∃ ωs w, WorkerTrace config tokenizer Executes worker ωs w ∧
      ωs.map (Transition.map WorkerWorld.core) = τs ∧ w.core = core) ↔
        ReportedTrace config tokenizer sample τs core := by
  constructor
  · rintro ⟨ωs, w, hrun, rfl, rfl⟩
    exact (WorkerTrace.served hrun hrefines hsamples hmirrors).reported
  · intro h
    induction h with
    | nil => exact ⟨[], _, .nil, rfl, rfl⟩
    | @snoc τs core event messages core' hrun hstep ih =>
        obtain ⟨ωs, ⟨core, worker'⟩, hworker, rfl, rfl⟩ := ih
        obtain ⟨_, store', hinv, hmirrors'⟩ :=
          WorkerTrace.served hworker hrefines hsamples hmirrors
        obtain ⟨worker'', hnext⟩ :=
          hrefines.exists_workerStep hstep (ReportedTrace.honest hrun hsamples) hinv hmirrors'
        exact ⟨_, _, .snoc hworker hnext, List.map_append, rfl⟩

end Refinement

end MiniVLLM
