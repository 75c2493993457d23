import MiniVLLM.Verification.Worker.Acceptance
import MiniVLLM.Verification.Worker.Forward
import MiniVLLM.Verification.Worker.Capture
import MiniVLLM.Verification.Worker.Serving
import MiniVLLM.Verification.Worker.Transparency

/-! # The Llama runner refines the Worker over a store

Between steps, every layer's cache holds what the layer keeps of the computed positions of the
live requests. So a Worker that executes every batch on its paged caches samples, for requests of
temperature zero, from the logits that the model gives to the whole sequence on its own. -/

namespace MiniVLLM

open KVCacheManager Scheduler EngineCore

variable {Hidden Query KeyValue Attention Logits : Type}

/-! ## A scheduled batch -/

section Scheduled

variable {config : EngineConfig} {s admitted : Scheduler} {items : List WorkerItem}
  {m' : KVCacheManager}

def knownTokens (admitted : Scheduler) (items : List WorkerItem) (r : ℕ) : List TokenId :=
  ((items[r]?.bind fun item => admitted.running.get? item.requestId).map (·.allTokenIds)).getD []

theorem knownTokens_eq {r : ℕ} {item : WorkerItem} {request : RequestState}
    (hitem : items[r]? = some item) (hrequest : admitted.running.get? item.requestId = some request) :
    knownTokens admitted items r = request.allTokenIds := by
  rw [knownTokens, hitem, Option.bind_some, hrequest]
  rfl

theorem Scheduler.Scheduled.appends (h : Scheduled config s admitted items m') (batchId : ℕ) :
    WorkerBatch.Appends config.blockSize ⟨batchId, items⟩ where
  slotMapping_eq := fun item hitem => (h.issued hitem).choose_spec.2.slotMapping_eq
  slots_nodup := h.slots_nodup
  computed := by
    intro item hitem p hp
    obtain ⟨r, hr, hissued⟩ := h.issued hitem
    have htable : m'.tables.get? item.requestId = some item.blockTable :=
      h.settled.ids _ _ hr ▸ hissued.table
    exact h.computed_not_written hr htable (hissued.startPos_eq ▸ hp)

theorem Scheduler.Scheduled.continues (h : Scheduled config s admitted items m') (batchId : ℕ) :
    WorkerBatch.Continues ⟨batchId, items⟩ (knownTokens admitted items) := by
  intro r item hitem
  obtain ⟨request, hrequest, hissued⟩ := h.issued (List.mem_of_getElem? hitem)
  rw [knownTokens_eq hitem hrequest]
  exact ⟨hissued.seqLen_le, hissued.tokenIds_eq⟩

theorem Scheduler.Scheduled.inCache (h : Scheduled config s admitted items m') (batchId : ℕ) :
    WorkerBatch.InCache config.blockSize (config.numGpuBlocks * config.blockSize)
      ⟨batchId, items⟩ where
  slot_lt := by
    intro item hitem slot hslot
    obtain ⟨_, _, hissued⟩ := h.issued hitem
    obtain ⟨p, _, hp, rfl⟩ := hissued.mem_slotMapping.mp hslot
    exact h.slot_lt hitem hp
  block_le := by
    intro item hitem block hblock
    obtain ⟨_, _, hissued⟩ := h.issued hitem
    have hlt := (h.loop.owned h.settled.owned).table_lt hissued.table block hblock
    calc block * config.blockSize + config.blockSize = (block + 1) * config.blockSize := by
          rw [Nat.add_mul, Nat.one_mul]
      _ ≤ config.numGpuBlocks * config.blockSize := Nat.mul_le_mul_right _ hlt

end Scheduled

/-! ## Runs -/

/-- A step whose Worker executes the batch, unless it reports an error. A batch that failed may
have been written in part. -/
structure RunnerStep (config : EngineConfig) (tokenizer : Tokenizer)
    (runner : LlamaModelRunner Hidden Query KeyValue Attention Logits)
    (w : WorkerWorld (RunnerState KeyValue Logits)) (event : Event) (messages : List CoreMessage)
    (w' : WorkerWorld (RunnerState KeyValue Logits)) : Prop
    extends Step config tokenizer w.core event messages w'.core where
  untouched : OnlyEvents messages → w'.worker.caches = w.worker.caches
  length_eq : w'.worker.caches.length = w.worker.caches.length
  kept : ∀ rank batch, CoreMessage.batch rank batch ∈ messages →
    ∀ depth, ∀ slot ∉ batch.items.flatMap (·.slotMapping),
      cellsOf w'.worker.caches depth slot = cellsOf w.worker.caches depth slot
  executed : ∀ rank batch incoming result, CoreMessage.batch rank batch ∈ messages →
    event = .engineStep incoming → answer? (w.core.batchId + 1) incoming = some result →
      result.batchId ≠ -1 → result.failed = false →
        ∃ input, GPUInputBatch.fromWorkerBatch batch config.blockSize = .ok input ∧
          (runner.executeModel input).run w.worker = .ok result.sampledTokenIds w'.worker

abbrev RunnerTransition (KeyValue Logits : Type) :=
  WorkerTransition (RunnerState KeyValue Logits)

abbrev RunnerTrace (config : EngineConfig) (tokenizer : Tokenizer)
    (runner : LlamaModelRunner Hidden Query KeyValue Attention Logits)
    (state : RunnerState KeyValue Logits) (τs : List (RunnerTransition KeyValue Logits))
    (w : WorkerWorld (RunnerState KeyValue Logits)) : Prop :=
  Run (RunnerStep config tokenizer runner) ⟨init config, state⟩ τs w

/-- The token of a sequence on its own: the greatest of the logits of its last position. -/
def LlamaModelRunner.greedy (runner : LlamaModelRunner Hidden Query KeyValue Attention Logits)
    (tokens : List TokenId) : TokenId :=
  runner.argmax (runner.model.logitsAt tokens (tokens.length - 1))

/-- The caches of a looping core hold what the layers keep of its requests. -/
structure RunnerInv (config : EngineConfig)
    (model : LlamaForCausalLM Hidden Query KeyValue Attention Logits)
    (w : WorkerWorld (RunnerState KeyValue Logits)) : Prop where
  length_eq : w.worker.caches.length = model.layers.length
  shows : w.core.stopped = false →
    ∀ depth, Shows config (model.content depth) w.core.scheduler (cellsOf w.worker.caches depth)

section Steps

variable {config : EngineConfig} {tokenizer : Tokenizer}
  {runner : LlamaModelRunner Hidden Query KeyValue Attention Logits}
  {w w' : WorkerWorld (RunnerState KeyValue Logits)} {event : Event} {messages : List CoreMessage}
  {s admitted : Scheduler} {items : List WorkerItem} {m' : KVCacheManager}
  {model : LlamaForCausalLM Hidden Query KeyValue Attention Logits}
  {caches : List (LayerCache KeyValue)}

theorem Scheduler.Scheduled.cached (hs : Scheduled config s admitted items m')
    (hsettled : s.Settled config) (hlength : caches.length = model.layers.length)
    (hshows : ∀ depth, Shows config (model.content depth) s (cellsOf caches depth))
    (batchId : ℕ) :
    model.Cached config.blockSize ⟨batchId, items⟩ (knownTokens admitted items) caches where
  length_eq := hlength
  shown := by
    intro depth r item hitem p hp
    obtain ⟨request, hrequest, hissued⟩ := hs.issued (List.mem_of_getElem? hitem)
    have htable : m'.tables.get? item.requestId = some item.blockTable :=
      hs.settled.ids _ _ hrequest ▸ hissued.table
    rw [knownTokens_eq hitem hrequest]
    exact hs.shows_kept hsettled (hshows depth) (fun _ _ => rfl) item.requestId request
      item.blockTable (request?_of_running hrequest) htable p (hissued.startPos_eq ▸ hp)

/-- What a batch that was executed leaves in the caches, and the logits it was sampled from. -/
theorem RunnerStep.forwardSpec (h : RunnerStep config tokenizer runner w event messages w')
    (hblock : runner.blockSize = config.blockSize) (hstable : w.core.Stable config)
    (hinv : RunnerInv config runner.model w) {rank : ℕ} {batch : WorkerBatch}
    (hbatch : CoreMessage.batch rank batch ∈ messages) {incoming : List WorkerResult}
    {result : WorkerResult} (hevent : event = .engineStep incoming)
    (hanswer : answer? (w.core.batchId + 1) incoming = some result) (hstarted : result.batchId ≠ -1)
    (hok : result.failed = false) {admitted : Scheduler} {m' : KVCacheManager}
    (hs : Scheduled config w.core.scheduler admitted batch.items m') :
    ∃ input logits, GPUInputBatch.fromWorkerBatch batch config.blockSize = .ok input ∧
      runner.sampleLogits logits (LlamaModelRunner.sampleRows input) .empty =
        .ok result.sampledTokenIds ∧
      runner.model.ForwardSpec config.blockSize batch input (knownTokens admitted batch.items)
        w.worker.caches logits w'.worker.caches := by
  have hrun := h.toStep.running
  have hsettled := hstable hrun
  obtain ⟨input, hinput, hexecute⟩ := h.executed rank batch incoming result hbatch hevent hanswer
    hstarted hok
  obtain ⟨metadata, hmetadata, hsample, hcaches⟩ := LlamaModelRunner.of_executeModel hexecute
  rw [LlamaModelRunner.metadata, hblock] at hmetadata
  obtain ⟨logits, caches', hforward, hspec⟩ := LlamaForCausalLM.forwardSpec hinput hmetadata
    (hs.appends batch.batchId) (hs.continues batch.batchId) (hs.inCache batch.batchId)
    (hs.cached hsettled hinv.length_eq (hinv.shows hrun) batch.batchId)
  rw [hforward] at hsample hcaches
  refine ⟨input, logits, hinput, hsample, ?_⟩
  rw [hcaches]
  exact hspec

/-- One step keeps what the caches hold. -/
theorem RunnerStep.preserves (h : RunnerStep config tokenizer runner w event messages w')
    (hblock : runner.blockSize = config.blockSize) (hstable : w.core.Stable config)
    (hinv : RunnerInv config runner.model w) : RunnerInv config runner.model w' := by
  have hrun := h.toStep.running
  refine ⟨h.length_eq.trans hinv.length_eq, fun hloop depth => ?_⟩
  have hcells : CellsStep config (runner.model.content depth) w.core event messages
      (cellsOf w.worker.caches depth) (cellsOf w'.worker.caches depth) := by
    refine ⟨fun hevents => by rw [h.untouched hevents],
      fun rank batch hbatch => h.kept rank batch hbatch depth, ?_⟩
    intro rank batch incoming result hbatch hevent hanswer hstarted hok admitted m' hs item hitem
      request hrequest p _ hp
    obtain ⟨_, _, _, _, hspec⟩ :=
      h.forwardSpec hblock hstable hinv hbatch hevent hanswer hstarted hok hs
    obtain ⟨r, hr, hget⟩ := List.mem_iff_getElem.mp hitem
    have hitem' : batch.items[r]? = some item := hget ▸ List.getElem?_eq_getElem hr
    rw [hspec.shown depth r item hitem' p hp, knownTokens_eq hitem' hrequest]
  exact hcells.shows (h.toStep.derivation hstable).1 (hstable hrun)
    (LlamaForCausalLM.causal_content depth) (hinv.shows hrun depth) hloop

end Steps

/-! ## The engine with its Worker -/

section Composed

variable {config : EngineConfig} {tokenizer : Tokenizer}
  {runner : LlamaModelRunner Hidden Query KeyValue Attention Logits}
  {state : RunnerState KeyValue Logits} {w w' : WorkerWorld (RunnerState KeyValue Logits)}
  {event : Event} {messages : List CoreMessage} {s admitted : Scheduler} {items : List WorkerItem}
  {m' : KVCacheManager}

/-- Whether or not the sampling raises, the caches are those of the forward pass. -/
theorem LlamaModelRunner.final_executeModel
    (runner : LlamaModelRunner Hidden Query KeyValue Attention Logits)
    (state : RunnerState KeyValue Logits) (input : GPUInputBatch) :
    (∃ metadata, runner.metadata input = .ok metadata ∧
      ((runner.executeModel input).final state).caches =
        (runner.model.forward input.inputIds input.positions metadata state.caches).2) ∨
      ((runner.executeModel input).final state).caches = state.caches := by
  cases hmetadata : runner.metadata input with
  | error e =>
      right
      rw [executeModel, hmetadata]
      rfl
  | ok metadata =>
      left
      refine ⟨metadata, rfl, ?_⟩
      rw [EStateM.final, run_executeModel hmetadata]
      cases runner.sampleLogits (runner.model.forward input.inputIds input.positions metadata
        state.caches).1 (sampleRows input) .empty <;> rfl

/-- The execution of a scheduled batch keeps the slots outside of the batch. -/
theorem Scheduler.Scheduled.final_executeModel (hs : Scheduled config s admitted items m')
    (hsettled : s.Settled config) (hblock : runner.blockSize = config.blockSize)
    (hlength : state.caches.length = runner.model.layers.length)
    (hshows : ∀ depth, Shows config (runner.model.content depth) s (cellsOf state.caches depth))
    {batchId : ℕ} {input : GPUInputBatch}
    (hinput : GPUInputBatch.fromWorkerBatch ⟨batchId, items⟩ config.blockSize = .ok input) :
    ((runner.executeModel input).final state).caches.length = state.caches.length ∧
      ∀ depth, ∀ slot ∉ items.flatMap (·.slotMapping),
        cellsOf ((runner.executeModel input).final state).caches depth slot =
          cellsOf state.caches depth slot := by
  rcases runner.final_executeModel state input with ⟨metadata, hmetadata, hcaches⟩ | hcaches
  · rw [LlamaModelRunner.metadata, hblock] at hmetadata
    obtain ⟨logits, caches', hforward, hspec⟩ := LlamaForCausalLM.forwardSpec hinput hmetadata
      (hs.appends batchId) (hs.continues batchId) (hs.inCache batchId)
      (hs.cached hsettled hlength hshows batchId)
    rw [hcaches, hforward]
    exact ⟨hspec.length_eq.trans hlength.symm, hspec.kept⟩
  · rw [hcaches]
    exact ⟨rfl, fun _ _ _ => rfl⟩

theorem LlamaModelRunner.of_execute {input : GPUInputBatch}
    {outcome : Except PyError (Dict RequestId TokenId)} {state' : RunnerState KeyValue Logits}
    (h : runner.execute state input = (outcome, state')) :
    state' = (runner.executeModel input).final state ∧ ∀ sampled, outcome = .ok sampled →
      (runner.executeModel input).run state = .ok sampled state' := by
  rw [execute, BatchExecution.ofPy] at h
  cases hrun : (runner.executeModel input).run state with
  | ok sampled state'' =>
      rw [hrun] at h
      obtain ⟨rfl, rfl⟩ := Prod.mk.inj h
      refine ⟨(EStateM.final_of_ok hrun).symm, fun sampled' hsame => ?_⟩
      rw [Except.ok.inj hsame]
  | error e state'' =>
      rw [hrun] at h
      obtain ⟨rfl, rfl⟩ := Prod.mk.inj h
      refine ⟨by rw [EStateM.final, hrun], fun sampled hsame => nomatch hsame⟩

theorem Worker.sampled_of_answer {rank : ℕ} {batch : WorkerBatch} {input : GPUInputBatch}
    {outcome : Except PyError (Dict RequestId TokenId)}
    (hinput : GPUInputBatch.fromWorkerBatch batch config.blockSize = .ok input)
    (hok : (Worker.answer config rank (fun _ => outcome) batch).failed = false) :
    outcome = .ok (Worker.answer config rank (fun _ => outcome) batch).sampledTokenIds := by
  simp only [Worker.answer, hinput, Except.ok_bind] at hok ⊢
  cases outcome with
  | ok sampled => rfl
  | error e => cases hok

theorem WorkerStep.runnerStep
    (h : WorkerStep config tokenizer runner.execute.Executes w event messages w')
    (hblock : runner.blockSize = config.blockSize) (hstable : w.core.Stable config)
    (hinv : RunnerInv config runner.model w) :
    RunnerStep config tokenizer runner w event messages w' := by
  have hstep := h.toStep
  have hsettled := hstable hstep.running
  have hd := (hstep.derivation hstable).1
  obtain ⟨outcome, hreported, hturn⟩ := h.turn
  -- What the Worker did with a batch of this step.
  have hexecute : ∀ rank batch, CoreMessage.batch rank batch ∈ messages →
      ∃ input, GPUInputBatch.fromWorkerBatch batch config.blockSize = .ok input ∧
        w'.worker = (runner.executeModel input).final w.worker ∧ ∀ sampled, outcome = .ok sampled →
          (runner.executeModel input).run w.worker = .ok sampled w'.worker := by
    intro rank batch hmem
    obtain ⟨_, _, hne, _, admitted, m', hs⟩ := hd.batch hmem
    have hinput := GPUInputBatch.fromWorkerBatch_eq batch config.blockSize_pos hne hs.valid
    have hexecutes := hturn batch (hd.batch?_eq hmem)
    rw [WorkerTurn, hinput] at hexecutes
    exact ⟨_, hinput, LlamaModelRunner.of_execute hexecutes⟩
  have hkept : ∀ rank batch, CoreMessage.batch rank batch ∈ messages →
      w'.worker.caches.length = w.worker.caches.length ∧
        ∀ depth, ∀ slot ∉ batch.items.flatMap (·.slotMapping),
          cellsOf w'.worker.caches depth slot = cellsOf w.worker.caches depth slot := by
    intro rank batch hmem
    obtain ⟨_, _, _, _, admitted, m', hs⟩ := hd.batch hmem
    obtain ⟨input, hinput, hfinal, _⟩ := hexecute rank batch hmem
    rw [hfinal]
    exact hs.final_executeModel hsettled hblock hinv.length_eq (hinv.shows hstep.running) hinput
  refine ⟨hstep, fun hevents => by rw [h.idle (batch?_of_onlyEvents hevents)], ?_,
    fun rank batch hmem => (hkept rank batch hmem).2, ?_⟩
  · rcases hd.shape with hevents | ⟨items, rest, _, _, rfl, _⟩
    · rw [h.idle (batch?_of_onlyEvents hevents)]
    · exact (hkept 0 ⟨w.core.batchId + 1, items⟩ (List.mem_cons_self ..)).1
  · intro rank batch incoming result hmem hevent hanswer hstarted hok
    obtain ⟨input, hinput, _, hrun⟩ := hexecute rank batch hmem
    rw [hevent] at hreported
    obtain rfl := hreported result hanswer hstarted rank batch hmem
    exact ⟨input, hinput, hrun _ (Worker.sampled_of_answer hinput hok)⟩

theorem runnerInv_init (hcaches : state.caches.length = runner.model.layers.length) :
    RunnerInv config runner.model ⟨init config, state⟩ := by
  refine ⟨hcaches, fun _ depth id r t hr => ?_⟩
  simp [request?, EngineCore.init, Scheduler.init] at hr

/-- Every run of a Worker with a Llama runner is a run over paged caches. -/
theorem WorkerTrace.runnerTrace {τs : List (RunnerTransition KeyValue Logits)}
    (h : WorkerTrace config tokenizer runner.execute.Executes state τs w)
    (hblock : runner.blockSize = config.blockSize)
    (hcaches : state.caches.length = runner.model.layers.length) :
    RunnerTrace config tokenizer runner state τs w := by
  refine h.mono_of_invariant
    (I := fun w => w.core.Stable config ∧ RunnerInv config runner.model w)
    ⟨stable_init config, runnerInv_init hcaches⟩ ?_ ?_
  · rintro w event messages w' ⟨hstable, hinv⟩ hstep
    exact ⟨(hstep.toStep.derivation hstable).2,
      (hstep.runnerStep hblock hstable hinv).preserves hblock hstable hinv⟩
  · rintro w event messages w' ⟨hstable, hinv⟩ hstep
    exact hstep.runnerStep hblock hstable hinv

end Composed

/-! ## What the runner samples -/

/-- Every sampled token is picked from the row of a sample index. -/
theorem LlamaModelRunner.of_sampleLogits
    {runner : LlamaModelRunner Hidden Query KeyValue Attention Logits} {logits : List Logits}
    {rows : List (RequestId × ℤ × ℚ)} {sampled sampled' : Dict RequestId TokenId}
    (h : runner.sampleLogits logits rows sampled = .ok sampled') {id : RequestId} {token : TokenId}
    (htok : sampled'.get? id = some token) :
    sampled.get? id = some token ∨ ∃ sampleIndex temperature row,
      (id, sampleIndex, temperature) ∈ rows ∧ 0 ≤ sampleIndex ∧
        logits[sampleIndex.toNat]? = some row ∧
        token = if temperature = 0 then runner.argmax row else runner.multinomial row temperature := by
  induction rows generalizing sampled with
  | nil =>
      obtain rfl : sampled = sampled' := Except.ok.inj h
      exact Or.inl htok
  | cons entry rows ih =>
      obtain ⟨id', sampleIndex, temperature⟩ := entry
      rw [sampleLogits] at h
      by_cases hindex : sampleIndex < 0
      · rw [if_pos hindex] at h
        rcases ih h with hold | ⟨index, temperature', row, hmem, hrest⟩
        · exact Or.inl hold
        · exact Or.inr ⟨index, temperature', row, List.mem_cons_of_mem _ hmem, hrest⟩
      · rw [if_neg hindex] at h
        cases hrow : logits[sampleIndex.toNat]? with
        | none =>
            rw [hrow] at h
            cases h
        | some row =>
            rw [hrow] at h
            rcases ih h with hold | ⟨index, temperature', row', hmem, hrest⟩
            · rw [Dict.get?_set] at hold
              by_cases hid : id = id'
              · subst hid
                rw [if_pos rfl] at hold
                exact Or.inr ⟨sampleIndex, temperature, row, List.mem_cons_self ..,
                  not_lt.mp hindex, hrow, (Option.some.inj hold).symm⟩
              · rw [if_neg hid] at hold
                exact Or.inl hold
            · exact Or.inr ⟨index, temperature', row', List.mem_cons_of_mem _ hmem, hrest⟩

theorem LlamaModelRunner.of_mem_sampleRows {blockSize : ℕ} {batch : WorkerBatch}
    {input : GPUInputBatch} (h : GPUInputBatch.fromWorkerBatch batch blockSize = .ok input)
    {id : RequestId} {sampleIndex : ℤ} {temperature : ℚ}
    (hmem : (id, sampleIndex, temperature) ∈ sampleRows input) (hpos : 0 ≤ sampleIndex) :
    ∃ r item, batch.items[r]? = some item ∧ item.requestId = id ∧
      item.temperature = temperature ∧ item.shouldSample = true ∧
      sampleIndex.toNat = input.queryStartLoc.getD r 0 + (item.tokenIds.length - 1) := by
  obtain ⟨hpos', _, hvalid, rfl⟩ := GPUInputBatch.of_fromWorkerBatch h
  obtain ⟨r, hr⟩ := List.mem_iff_getElem?.mp hmem
  obtain ⟨hid, hrest⟩ := List.getElem?_zip_eq_some.mp hr
  obtain ⟨hindex, htemperature⟩ := List.getElem?_zip_eq_some.mp hrest
  replace hid : (batch.items.map (·.requestId))[r]? = some id := hid
  replace htemperature : (batch.items.map (·.temperature))[r]? = some temperature := htemperature
  rw [List.getElem?_map, Option.map_eq_some_iff] at hid htemperature
  obtain ⟨item, hitem, hsame⟩ := hid
  obtain ⟨item', hitem', htemperature⟩ := htemperature
  obtain rfl : item = item' := Option.some.inj (hitem.symm.trans hitem')
  have hrow := GPUInputBatch.rowSpec_ofItems hpos' hvalid hitem
  obtain ⟨hlt, hget⟩ := List.getElem?_eq_some_iff.mp hitem
  have htokens := List.length_pos_of_ne_nil (hvalid item (List.mem_of_getElem? hitem)).tokenIds_ne
  have hlength := Ragged.starts_succ_sub
    (show r < (batch.items.map (·.tokenIds)).length by simpa using hlt)
  rw [List.getElem_map, hget] at hlength
  rcases hrow.sampleIndex with ⟨_, hnone⟩ | ⟨hshould, last, hlast, hend, _⟩
  · have hneg : sampleIndex = -1 := Option.some.inj (hindex.symm.trans hnone)
    omega
  · obtain rfl : sampleIndex = last := Option.some.inj (hindex.symm.trans hlast)
    refine ⟨r, item, hitem, hsame, htemperature, hshould, ?_⟩
    replace hend : last + 1 = (Ragged.starts (batch.items.map (·.tokenIds))).getD (r + 1) 0 := hend
    show Int.toNat last = (Ragged.starts (batch.items.map (·.tokenIds))).getD r 0 + _
    rw [Int.toNat_natCast]
    omega

section Sampled

variable {config : EngineConfig} {tokenizer : Tokenizer}
  {runner : LlamaModelRunner Hidden Query KeyValue Attention Logits}
  {w w' : WorkerWorld (RunnerState KeyValue Logits)} {event : Event} {messages : List CoreMessage}

/-- A request of temperature zero gets the greedy token of everything known of it. -/
theorem RunnerStep.sampledFrom (h : RunnerStep config tokenizer runner w event messages w')
    (hblock : runner.blockSize = config.blockSize) (hstable : w.core.Stable config)
    (hinv : RunnerInv config runner.model w) {id : RequestId}
    (hgreedy : ∀ r, w.core.scheduler.request? id = some r → r.samplingParams.temperature = 0) :
    SampledFrom runner.greedy id w.core event messages := by
  intro incoming result item token r hevent hanswer hstarted hok hitem hid htok hr
  have hsettled := hstable h.toStep.running
  obtain ⟨rank, batch, hbatch, hitem⟩ := mem_batch_of_mem_itemsOf hitem
  obtain ⟨_, _, _, _, admitted, m', hs⟩ := (h.toStep.derivation hstable).1.batch hbatch
  obtain ⟨input, logits, hinput, hsample, hspec⟩ :=
    h.forwardSpec hblock hstable hinv hbatch hevent hanswer hstarted hok hs
  obtain hold | ⟨sampleIndex, temperature, row, hmem, hpos, hrow, rfl⟩ :=
    LlamaModelRunner.of_sampleLogits hsample htok
  · simp at hold
  · obtain ⟨index, item', hitem', hsame, rfl, hshould, hindex⟩ :=
      LlamaModelRunner.of_mem_sampleRows hinput hmem hpos
    obtain rfl : item' = item := List.inj_on_of_nodup_map hs.items_nodup
      (List.mem_of_getElem? hitem') hitem (hsame.trans hid.symm)
    obtain ⟨r', hr', hadmitted, hissued⟩ := EngineCore.Scheduled.item hs hsettled hitem
    rw [hid] at hr'
    obtain rfl : r = r' := Option.some.inj (hr.symm.trans hr')
    have hall : item'.seqLen = r.allTokenIds.length := by
      rw [hissued.shouldSample_eq, decide_eq_true_iff] at hshould
      exact hshould
    have hend := hissued.start_add_length
    have htokens := hissued.tokenIds_pos
    have hknown : knownTokens admitted batch.items index = r.allTokenIds :=
      knownTokens_eq hitem' hadmitted
    have hlast := hspec.logits_eq index item' hitem' (item'.tokenIds.length - 1) (by omega)
    rw [← hindex, hrow, hknown,
      show item'.startPos + (item'.tokenIds.length - 1) = r.allTokenIds.length - 1 by omega] at hlast
    obtain rfl := Option.some.inj hlast
    rw [hissued.temperature_eq, if_pos (hgreedy r hr)]
    rw [hissued.startPos_eq] at hend
    exact ⟨rfl, hend.trans hall⟩

end Sampled

/-! ## Greedy decoding -/

section Runs

variable {config : EngineConfig} {tokenizer : Tokenizer}
  {runner : LlamaModelRunner Hidden Query KeyValue Attention Logits}
  {state : RunnerState KeyValue Logits} {τs : List (RunnerTransition KeyValue Logits)}
  {w : WorkerWorld (RunnerState KeyValue Logits)}

theorem RunnerTrace.core (h : RunnerTrace config tokenizer runner state τs w) :
    Trace config tokenizer (τs.map (Transition.map WorkerWorld.core)) w.core :=
  h.map WorkerWorld.core (fun _ _ _ _ hstep => hstep.toStep)

theorem RunnerTrace.inv (h : RunnerTrace config tokenizer runner state τs w)
    (hblock : runner.blockSize = config.blockSize)
    (hcaches : state.caches.length = runner.model.layers.length) :
    w.core.Stable config ∧ RunnerInv config runner.model w := by
  refine Run.invariant (I := fun w => w.core.Stable config ∧ RunnerInv config runner.model w) h
    ⟨stable_init config, runnerInv_init hcaches⟩ (fun w event messages w' hinv hstep => ?_)
  obtain ⟨hstable, hinv⟩ := hinv
  exact ⟨(hstep.toStep.derivation hstable).2, hstep.preserves hblock hstable hinv⟩

theorem RunnerTrace.sampledFrom (h : RunnerTrace config tokenizer runner state τs w)
    (hblock : runner.blockSize = config.blockSize)
    (hcaches : state.caches.length = runner.model.layers.length)
    (honce : (addedIds (τs.map (Transition.map WorkerWorld.core))).Nodup)
    {request : EngineRequest}
    (hrequest : request ∈ addedRequests (τs.map (Transition.map WorkerWorld.core)))
    (hgreedy : request.samplingParams.temperature = 0) :
    ∀ τ ∈ τs.map (Transition.map WorkerWorld.core),
      SampledFrom runner.greedy request.requestId τ.pre τ.event τ.out := by
  intro τ hτ
  obtain ⟨τ, hmem, rfl⟩ := List.mem_map.mp hτ
  obtain ⟨front, back, rfl⟩ := List.append_of_mem hmem
  obtain ⟨hfront, hstep⟩ := h.of_split rfl
  obtain ⟨hstable, hinv⟩ := RunnerTrace.inv hfront hblock hcaches
  refine hstep.sampledFrom hblock hstable hinv fun r hr => ?_
  refine (congrArg SamplingParams.temperature (Trace.origin_eq (RunnerTrace.core hfront) ?_ honce
    hrequest hr).2).trans hgreedy
  rw [List.map_append, addedRequests_append]
  exact List.subset_append_left _ _

end Runs

end MiniVLLM
