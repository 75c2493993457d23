import MiniVLLM.Verification.Engine.Results
import MiniVLLM.Library.Run

/-! # Steps of the engine core

One rule for each thing a loop iteration can do. Between iterations the scheduler is
settled, as long as the loop has not ended in an exception. -/

namespace MiniVLLM

open KVCacheManager Scheduler

namespace EngineCore

def next (core : EngineCore) (s : Scheduler) : EngineCore :=
  { core with scheduler := s, sent := [] }

/-- The core once it took the id of a new batch. -/
def numbered (core : EngineCore) : EngineCore := { core with batchId := core.batchId + 1 }

def halted (core : EngineCore) : EngineCore := { core with stopped := true }

def metricsMessages (result : WorkerResult) : List CoreMessage :=
  result.metrics.toList.map (fun metrics => .event (.metrics metrics))

def batchMessage (core : EngineCore) (items : List WorkerItem) : CoreMessage :=
  .batch 0 ⟨core.batchId + 1, items⟩

def errorMessages (ids : List RequestId) (error : String) : List CoreMessage :=
  ids.map (fun id => outputMessage (errorOutput id error))

/-- The answer that ends the wait for a batch: its own, or the report of a failed start. -/
def answer? (batchId : ℕ) (incoming : List WorkerResult) : Option WorkerResult :=
  incoming.find? (fun result => result.batchId = -1 ∨ result.batchId = batchId)

/-- A Worker that got a batch answers under its own rank, which is 0. -/
def RankedAnswers (incoming : List WorkerResult) : Prop :=
  ∀ result ∈ incoming, result.batchId ≠ -1 → result.rank = 0

instance (incoming : List WorkerResult) : Decidable (RankedAnswers incoming) := by
  unfold RankedAnswers
  infer_instance

def Event.Ranked : Event → Prop
  | .engineStep incoming => RankedAnswers incoming
  | _ => True

instance : DecidablePred Event.Ranked
  | .engineStep incoming => inferInstanceAs (Decidable (RankedAnswers incoming))
  | .command _ => isTrue trivial
  | .leave => isTrue trivial

/-- What one iteration does to the scheduler, and the messages it puts. -/
inductive StepDerivation (config : EngineConfig) (tokenizer : Tokenizer) (core : EngineCore) :
    Event → List CoreMessage → EngineCore → Prop where
  | shutdown : StepDerivation config tokenizer core (.command .shutdown) []
      { core.next core.scheduler with shutdown := true }
  | accept {request} (hnew : ¬ core.scheduler.Live request.requestId)
      (hfits : request.promptTokenIds.length < config.contextLimit) :
      StepDerivation config tokenizer core (.command (.add request)) []
        (core.next (core.scheduler.enqueued request))
  | reject {request error} (h : Rejection config core.scheduler request error) :
      StepDerivation config tokenizer core (.command (.add request))
        [outputMessage (errorOutput request.requestId error.message)] (core.next core.scheduler)
  | abortRunning {id r t} (hr : core.scheduler.running.get? id = some r)
      (ht : core.scheduler.cacheManager.tables.get? id = some t) :
      StepDerivation config tokenizer core (.command (.abort id))
        [outputMessage (abortOutput id)] (core.next (core.scheduler.removed id t))
  | abortWaiting {id} (hrun : id ∉ core.scheduler.running.keys)
      (hwait : id ∈ core.scheduler.waiting.map (·.requestId)) :
      StepDerivation config tokenizer core (.command (.abort id))
        [outputMessage (abortOutput id)] (core.next (core.scheduler.dropped id))
  | abortMiss {id} (hdead : ¬ core.scheduler.Live id) :
      StepDerivation config tokenizer core (.command (.abort id)) [] (core.next core.scheduler)
  | idle {incoming admitted m'} (hs : Scheduled config core.scheduler admitted [] m') :
      StepDerivation config tokenizer core (.engineStep incoming) []
        (core.next (admitted.withCache m'))
  | fail {incoming admitted items m' result s'}
      (hs : Scheduled config core.scheduler admitted items m') (hne : items ≠ [])
      (hanswer : answer? (core.batchId + 1) incoming = some result)
      (hstarted : result.batchId ≠ -1) (hfailed : result.failed = true)
      (hd : FailDerivation items (admitted.withCache m') s') :
      StepDerivation config tokenizer core (.engineStep incoming)
        (core.batchMessage items :: (metricsMessages result ++
          errorMessages (items.map (·.requestId)) (result.error.getD "")))
        (core.numbered.next s')
  | answer {incoming admitted items m' result outs s'}
      (hs : Scheduled config core.scheduler admitted items m') (hne : items ≠ [])
      (hanswer : answer? (core.batchId + 1) incoming = some result)
      (hstarted : result.batchId ≠ -1) (hok : result.failed = false)
      (hd : BatchDerivation config tokenizer result items (admitted.withCache m') outs s') :
      StepDerivation config tokenizer core (.engineStep incoming)
        (core.batchMessage items :: (metricsMessages result ++ outs.map outputMessage))
        (core.numbered.next s')
  | crash {incoming admitted items m' result}
      (hs : Scheduled config core.scheduler admitted items m') (hne : items ≠ [])
      (hanswer : answer? (core.batchId + 1) incoming = some result)
      (hinit : result.batchId = -1) :
      StepDerivation config tokenizer core (.engineStep incoming)
        (core.batchMessage items ::
          errorMessages (admitted.running.keys ++ admitted.waiting.map (·.requestId))
            (result.error.getD "None"))
        (core.numbered.halted.next (admitted.withCache m'))
  | leave (h : core.shutdown = true) :
      StepDerivation config tokenizer core .leave [] (core.halted.next core.scheduler)

/-! ## The wait for an answer -/

theorem run_collectResults_done (batchId : ℕ) (incoming : List WorkerResult)
    {results : Dict ℕ WorkerResult} (h : 1 ≤ results.length) (core : EngineCore) :
    (collectResults batchId 1 incoming results).run core = .ok results core := by
  cases incoming with
  | nil => simp [collectResults, Nat.not_lt.mpr h]
  | cons result incoming => simp [collectResults, Nat.not_lt.mpr h]

theorem run_collectResults {batchId : ℕ} (incoming : List WorkerResult) (core : EngineCore) :
    (collectResults batchId 1 incoming .empty).run core =
      match answer? batchId incoming with
      | none => .error .blocked core
      | some result =>
          if result.batchId = -1 then .error (.runtimeError (result.error.getD "None")) core
          else .ok (.singleton result.rank result) core := by
  induction incoming with
  | nil => rfl
  | cons result incoming ih =>
      have hzero : (Dict.empty : Dict ℕ WorkerResult).length < 1 := Nat.zero_lt_one
      by_cases hinit : result.batchId = -1
      · simp [collectResults, hzero, answer?, hinit]
      · by_cases hid : result.batchId = batchId
        · have hone : 1 ≤ ((Dict.empty : Dict ℕ WorkerResult).set result.rank result).length := by
            simp [Dict.set_length_of_not_mem]
          have hdone := run_collectResults_done batchId incoming hone core
          have hfind : answer? batchId (result :: incoming) = some result := by
            simp [answer?, hid]
          rw [collectResults, if_pos hzero, hfind]
          dsimp only
          rw [if_neg hinit, if_neg hinit, if_pos hid, hdone]
          rfl
        · have hfind : answer? batchId (result :: incoming) = answer? batchId incoming := by
            simp [answer?, hinit, hid]
          rw [collectResults, if_pos hzero, hfind, if_neg hinit, if_neg hid]
          exact ih

/-! ## The engine step -/

theorem run_putMetrics (result : WorkerResult) (core : EngineCore) :
    (putMetrics result.metrics).run core =
      .ok () (core.after core.scheduler (metricsMessages result)) := by
  cases h : result.metrics with
  | none => simp [putMetrics, metricsMessages, h, after_self]
  | some metrics => simp [putMetrics, metricsMessages, h, after, send]

theorem run_putBatches {config : EngineConfig} {core : EngineCore} {items : List WorkerItem}
    (batchId : ℕ) :
    (putBatches config batchId [(some 0, items)]).run core =
      .ok () (core.after core.scheduler [.batch 0 ⟨batchId, items⟩]) := by
  simp [putBatches, config.dataParallelSize_pos, send, after]

section Process

variable {config : EngineConfig} (tokenizer : Tokenizer) {items : List WorkerItem}
  {result : WorkerResult} (core : EngineCore)

theorem run_processResult_failed (h : InFlight config items core.scheduler) (hne : items ≠ [])
    (hrank : result.rank = 0) (hfailed : result.failed = true) :
    ∃ s', (processResult config tokenizer (Schedule.ofItems items) result).run core =
        .ok () (core.after s' (metricsMessages result ++
          errorMessages (items.map (·.requestId)) (result.error.getD ""))) ∧
      FailDerivation items core.scheduler s' ∧ s'.Settled config := by
  obtain ⟨s', hrun, hd, hs'⟩ := run_failItems (result.error.getD "")
    (core.after core.scheduler (metricsMessages result)) h
  refine ⟨s', ?_, hd, hs'⟩
  rw [processResult, EStateM.run_bind_of_ok (run_putMetrics result core),
    Schedule.ofItems_byRank_of_ne hne, hrank]
  simp only [Dict.get?_singleton, if_true, EStateM.run_bind, EStateM.run_getOrRaise_some, hfailed,
    hrun, after_after, errorMessages, List.map_map]
  rfl

theorem run_processResult_answered (h : InFlight config items core.scheduler) (hne : items ≠ [])
    (hrank : result.rank = 0) (hok : result.failed = false) :
    ∃ outs s', (processResult config tokenizer (Schedule.ofItems items) result).run core =
        .ok () (core.after s' (metricsMessages result ++ outs.map outputMessage)) ∧
      BatchDerivation config tokenizer result items core.scheduler outs s' ∧
      s'.Settled config := by
  obtain ⟨outs, s', hrun, hd, hs'⟩ := run_processItems tokenizer result
    (core.after core.scheduler (metricsMessages result)) h
    (fun item hitem => Schedule.ofItems_counts h.nodup hitem)
  refine ⟨outs, s', ?_, hd, hs'⟩
  rw [processResult, EStateM.run_bind_of_ok (run_putMetrics result core),
    Schedule.ofItems_byRank_of_ne hne, hrank]
  simp only [Dict.get?_singleton, if_true, EStateM.run_bind, EStateM.run_getOrRaise_some, hok,
    Bool.false_eq_true, if_false, hrun, after_after]

end Process

/-- The engine step up to the answer, for a schedule with items. -/
theorem run_executeSchedule {config : EngineConfig} {tokenizer : Tokenizer}
    {incoming : List WorkerResult} (core : EngineCore) {admitted : Scheduler}
    {items : List WorkerItem} {m' : KVCacheManager} (hne : items ≠ [])
    (hrun : (schedule config).run core.scheduler =
      .ok (Schedule.ofItems items) (admitted.withCache m')) :
    (executeSchedule config tokenizer incoming).run core =
      ((do
        let results ← collectResults (core.batchId + 1) 1 incoming .empty
        processResults config tokenizer (Schedule.ofItems items) results.values) :
          Py EngineCore Unit).run
        (core.numbered.after (admitted.withCache m') [core.batchMessage items]) := by
  have hentries : (Schedule.ofItems items).byRank.entries = [(some 0, items)] := by
    rw [Schedule.ofItems_byRank, if_neg hne]
  have hlength : (Schedule.ofItems items).byRank.length = 1 := by
    simp [Dict.length, hentries]
  rw [executeSchedule, EStateM.run_bind_of_ok (run_onScheduler_of_ok core hrun)]
  simp only [hentries, List.isEmpty_cons, Bool.false_eq_true, if_false, EStateM.run_bind,
    EStateM.run_modify, EStateM.run_get, run_putBatches, hlength]
  simp only [after, numbered, batchMessage, List.append_nil]

theorem processResults_singleton {config : EngineConfig} {tokenizer : Tokenizer}
    {schedule : Schedule} (result : WorkerResult) (core : EngineCore) :
    (processResults config tokenizer schedule (Dict.singleton result.rank result).values).run core =
      (processResult config tokenizer schedule result).run core := by
  simp only [Dict.singleton, Dict.values, List.map_cons, List.map_nil, processResults]
  cases h : (processResult config tokenizer schedule result).run core with
  | ok _ _ => rw [EStateM.run_bind_of_ok h, EStateM.run_pure]
  | error _ _ => rw [EStateM.run_bind_of_error h]

theorem settle_after (core : EngineCore) (s : Scheduler) (messages : List CoreMessage) :
    settle (.ok () (core.after s messages)) = some (core.next s, core.sent ++ messages) := rfl

/-- Between iterations the scheduler is settled, unless the loop ended in an exception. -/
def Stable (config : EngineConfig) (core : EngineCore) : Prop :=
  core.stopped = false → core.scheduler.Settled config

/-- An engine step from a settled scheduler follows the rules. -/
theorem engineStep_derivation {config : EngineConfig} {tokenizer : Tokenizer}
    {core core' : EngineCore} {incoming : List WorkerResult} {messages : List CoreMessage}
    (hsettled : core.scheduler.Settled config) (hranks : RankedAnswers incoming)
    (h : settle ((executeSchedule config tokenizer incoming).run { core with sent := [] }) =
      some (core', messages)) :
    StepDerivation config tokenizer core (.engineStep incoming) messages core' ∧
      core'.Stable config := by
  obtain ⟨admitted, items, m', hs, hrun⟩ := hsettled.run_schedule
  by_cases hne : items = []
  · subst hne
    rw [executeSchedule,
      EStateM.run_bind_of_ok (run_onScheduler_of_ok { core with sent := [] } hrun)] at h
    simp only [Schedule.ofItems_byRank_nil, List.isEmpty_nil, if_true, EStateM.run_pure,
      settle_after, Option.some.injEq, Prod.mk.injEq] at h
    obtain ⟨rfl, rfl⟩ := h
    exact ⟨.idle hs, fun _ => hs.inv.congr_pending (fun _ _ => rfl)⟩
  · rw [run_executeSchedule { core with sent := [] } hne hrun, EStateM.run_bind,
      run_collectResults] at h
    cases hanswer : answer? (core.batchId + 1) incoming with
    | none => simp [hanswer, settle] at h
    | some result =>
        have hmem : result ∈ incoming := List.mem_of_find?_eq_some hanswer
        simp only [hanswer] at h
        by_cases hinit : result.batchId = -1
        · rw [if_pos hinit] at h
          obtain ⟨rfl, rfl⟩ := Prod.mk.inj (Option.some.inj h)
          have hcrash : StepDerivation config tokenizer core (.engineStep incoming) _ _ :=
            .crash hs hne hanswer hinit
          exact ⟨hcrash, by simp [Stable, crash]⟩
        · have hrank := hranks result hmem hinit
          rw [if_neg hinit] at h
          simp only [processResults_singleton] at h
          cases hfailed : result.failed with
          | true =>
              obtain ⟨s', hproc, hd, hs'⟩ := run_processResult_failed tokenizer
                (({ core with sent := [] } : EngineCore).numbered.after
                  (admitted.withCache m') [batchMessage { core with sent := [] } items])
                hs.inFlight hne hrank hfailed
              rw [hproc, after_after, settle_after] at h
              obtain ⟨rfl, rfl⟩ := Prod.mk.inj (Option.some.inj h)
              exact ⟨.fail hs hne hanswer hinit hfailed hd, fun _ => hs'⟩
          | false =>
              obtain ⟨outs, s', hproc, hd, hs'⟩ := run_processResult_answered
                tokenizer (({ core with sent := [] } : EngineCore).numbered.after
                  (admitted.withCache m') [batchMessage { core with sent := [] } items])
                hs.inFlight hne hrank hfailed
              rw [hproc, after_after, settle_after] at h
              obtain ⟨rfl, rfl⟩ := Prod.mk.inj (Option.some.inj h)
              exact ⟨.answer hs hne hanswer hinit hfailed hd, fun _ => hs'⟩

/-! ## Commands -/

theorem command_derivation {config : EngineConfig} {tokenizer : Tokenizer}
    {core core' : EngineCore} {command : EngineCommand} {messages : List CoreMessage}
    (hsettled : core.scheduler.Settled config)
    (h : settle ((handleCommand config command).run { core with sent := [] }) =
      some (core', messages)) :
    StepDerivation config tokenizer core (.command command) messages core' ∧
      core'.Stable config := by
  cases command with
  | shutdown =>
      obtain ⟨rfl, rfl⟩ := Prod.mk.inj (Option.some.inj h)
      exact ⟨.shutdown, fun _ => hsettled⟩
  | add request =>
      rcases addRequest_cases config core.scheduler request with
        ⟨hnew, hfits, hrun⟩ | ⟨error, hreject, hrun⟩
      · have hadd := run_onScheduler_of_ok { core with sent := [] } hrun
        rw [handleCommand, EStateM.run_tryCatch_of_ok hadd] at h
        obtain ⟨rfl, rfl⟩ := Prod.mk.inj (Option.some.inj h)
        exact ⟨.accept hnew hfits, fun _ => hsettled.enqueued hnew hfits⟩
      · have hadd := run_onScheduler_of_error { core with sent := [] } hrun
        rw [handleCommand, EStateM.run_tryCatch_of_error hadd, emitError, run_put] at h
        obtain ⟨rfl, rfl⟩ := Prod.mk.inj (Option.some.inj h)
        exact ⟨.reject hreject, fun _ => hsettled⟩
  | abort id =>
      rw [handleCommand] at h
      rcases hsettled.abort_cases id with ⟨r, t, hr, ht, hrun⟩ | ⟨hrun', hwait, hrun⟩ | ⟨hdead, hrun⟩
      · rw [EStateM.run_bind_of_ok (run_onScheduler_of_ok { core with sent := [] } hrun),
          if_pos rfl, run_put, after_after] at h
        obtain ⟨rfl, rfl⟩ := Prod.mk.inj (Option.some.inj h)
        exact ⟨.abortRunning hr ht, fun _ => hsettled.removed ht⟩
      · rw [EStateM.run_bind_of_ok (run_onScheduler_of_ok { core with sent := [] } hrun),
          if_pos rfl, run_put, after_after] at h
        obtain ⟨rfl, rfl⟩ := Prod.mk.inj (Option.some.inj h)
        exact ⟨.abortWaiting hrun' hwait, fun _ => hsettled.dropped id⟩
      · rw [EStateM.run_bind_of_ok (run_onScheduler_of_ok { core with sent := [] } hrun)]
          at h
        obtain ⟨rfl, rfl⟩ := Prod.mk.inj (Option.some.inj h)
        exact ⟨.abortMiss hdead, fun _ => hsettled⟩

/-! ## Iterations of the loop -/

/-- A step of the core whose Worker answers under its rank. -/
structure Step (config : EngineConfig) (tokenizer : Tokenizer) (core : EngineCore)
    (event : Event) (messages : List CoreMessage) (core' : EngineCore) : Prop where
  ranked : event.Ranked
  step_eq : step config tokenizer core event = some (core', messages)

theorem Step.running {config : EngineConfig} {tokenizer : Tokenizer} {core core' : EngineCore}
    {event : Event} {messages : List CoreMessage}
    (h : Step config tokenizer core event messages core') : core.stopped = false := by
  have hstep := h.step_eq
  cases hstop : core.stopped with
  | false => rfl
  | true => cases event <;> simp [step, hstop] at hstep

theorem Step.derivation {config : EngineConfig} {tokenizer : Tokenizer}
    {core core' : EngineCore} {event : Event} {messages : List CoreMessage}
    (h : Step config tokenizer core event messages core') (hstable : core.Stable config) :
    StepDerivation config tokenizer core event messages core' ∧ core'.Stable config := by
  have hrunning := h.running
  have hsettled := hstable hrunning
  have hstep := h.step_eq
  cases event with
  | command command =>
      rw [step, if_neg (by simp [hrunning])] at hstep
      exact command_derivation hsettled hstep
  | engineStep incoming =>
      cases hshut : core.shutdown with
      | true => simp [step, hrunning, hshut] at hstep
      | false =>
          rw [step, if_neg (by simp [hrunning, hshut])] at hstep
          exact engineStep_derivation hsettled h.ranked hstep
  | leave =>
      cases hshut : core.shutdown with
      | false => simp [step, hshut] at hstep
      | true =>
          rw [step, if_pos (by simp [hrunning, hshut])] at hstep
          obtain ⟨rfl, rfl⟩ := Prod.mk.inj (Option.some.inj hstep)
          exact ⟨.leave hshut, fun hstop => by simp at hstop⟩

theorem stable_init (config : EngineConfig) : (init config).Stable config :=
  fun _ => settled_init config

/-- A run of the loop from the start of the process. -/
abbrev Trace (config : EngineConfig) (tokenizer : Tokenizer)
    (τs : List (Transition EngineCore Event CoreMessage)) (core : EngineCore) : Prop :=
  Run (Step config tokenizer) (init config) τs core

theorem Trace.stable {config : EngineConfig} {tokenizer : Tokenizer}
    {τs : List (Transition EngineCore Event CoreMessage)} {core : EngineCore}
    (h : Trace config tokenizer τs core) : core.Stable config :=
  h.invariant (stable_init config) (fun _ _ _ _ hs hstep => (hstep.derivation hs).2)

def drive (config : EngineConfig) (tokenizer : Tokenizer) (events : List Event) :
    Option (List (Transition EngineCore Event CoreMessage) × EngineCore) :=
  Run.execute (step config tokenizer) (init config) events

theorem drive_trace {config : EngineConfig} {tokenizer : Tokenizer} {events : List Event}
    {τs : List (Transition EngineCore Event CoreMessage)} {core : EngineCore}
    (h : drive config tokenizer events = some (τs, core))
    (hranked : ∀ event ∈ events, event.Ranked) : Trace config tokenizer τs core := by
  refine Run.of_execute h (fun τ hτ hstep => ⟨hranked _ ?_, hstep⟩)
  rw [← Run.execute_events h]
  exact List.mem_map.mpr ⟨τ, hτ, rfl⟩

/-! ## Inputs of concrete runs -/

def smallConfig : EngineConfig := { EngineConfig.defaults with
  maxNumBatchedTokens := 4
  blockSize := 2
  numGpuBlocks := 8
  maxNumBatchedTokens_pos := by decide
  blockSize_pos := by decide
  numGpuBlocks_pos := by decide }

def wideConfig : EngineConfig := { EngineConfig.defaults with
  blockSize := 2147483648
  numGpuBlocks := 2
  blockSize_pos := by decide
  numGpuBlocks_pos := by decide }

def requestOf (id : RequestId) (promptTokenIds : List TokenId) : EngineRequest where
  requestId := id
  prompt := []
  promptTokenIds := promptTokenIds
  samplingParams := .defaults

def answerOf (batchId : ℕ) (tokens : List (RequestId × TokenId)) : WorkerResult where
  batchId := batchId
  rank := 0
  sampledTokenIds := tokens.foldl (fun d entry => d.set entry.1 entry.2) .empty

def failureOf (batchId : ℕ) (error : String) : WorkerResult where
  batchId := batchId
  rank := 0
  sampledTokenIds := .empty
  error := some error

end EngineCore

end MiniVLLM
