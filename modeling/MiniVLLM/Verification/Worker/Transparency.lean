import MiniVLLM.Verification.Worker.Store
import MiniVLLM.Verification.Engine.Streams

/-! # Scheduling is transparent

A Worker that samples from what it reads back gives every request the tokens of a run on
its prompt alone, however the requests were batched and chunked. -/

namespace MiniVLLM

open KVCacheManager Scheduler EngineCore

/-! ## The reference run -/

/-- One request decoded on its own: sample from everything known, then check EOS, the stop
strings, the length and the context limit. -/
def reference (config : EngineConfig) (tokenizer : Tokenizer) (next : List TokenId → TokenId)
    (params : SamplingParams) (promptTokenIds outputTokenIds : List TokenId) :
    List TokenId × FinishReason :=
  let tokenId := next (promptTokenIds ++ outputTokenIds)
  if tokenId = tokenizer.eosTokenId then (outputTokenIds, .stop)
  else
    let extended := outputTokenIds ++ [tokenId]
    if endsWithStop tokenizer params extended then (extended, .stop)
    else if params.maxTokens ≤ extended.length then (extended, .length)
    else if config.contextLimit ≤ promptTokenIds.length + extended.length then (extended, .length)
    else reference config tokenizer next params promptTokenIds extended
termination_by params.maxTokens - outputTokenIds.length
decreasing_by
  simp only [extended, List.length_append, List.length_singleton] at *
  omega

section Reference

variable {config : EngineConfig} {tokenizer : Tokenizer} {next : List TokenId → TokenId}
  {r r' : RequestState} {count : ℕ}

theorem reference_of_sample_eq_none (hcount : r.numComputedTokens + count = r.allTokenIds.length)
    (h : (r.advance count).sample config tokenizer (next r.allTokenIds) = (r', none)) :
    reference config tokenizer next r.samplingParams r.promptTokenIds r.outputTokenIds =
      reference config tokenizer next r.samplingParams r.promptTokenIds r'.outputTokenIds := by
  obtain ⟨heos, rfl, hstop, hlength, hcontext⟩ := RequestState.of_sample_eq_none h
  simp only [RequestState.advance, hcount, RequestState.length_allTokenIds] at hlength hcontext hstop
  rw [reference]
  simp only [RequestState.allTokenIds] at heos hstop ⊢
  rw [if_neg heos, if_neg (by simp [hstop]), if_neg (by simp; omega), if_neg (by simp; omega)]
  rfl

theorem reference_of_sample_eq_some {reason : FinishReason}
    (hcount : r.numComputedTokens + count = r.allTokenIds.length)
    (h : (r.advance count).sample config tokenizer (next r.allTokenIds) = (r', some reason)) :
    reference config tokenizer next r.samplingParams r.promptTokenIds r.outputTokenIds =
      (r'.outputTokenIds, reason) := by
  rw [reference]
  rcases RequestState.of_sample_eq_some h with
    ⟨heos, rfl, rfl⟩ | ⟨heos, rfl, ⟨rfl, hstop⟩ | ⟨rfl, hstop, hlimit⟩⟩
  · simp only [RequestState.allTokenIds] at heos
    rw [if_pos heos]
    rfl
  · simp only [RequestState.allTokenIds, RequestState.advance] at heos hstop ⊢
    rw [if_neg heos, if_pos hstop]
  · simp only [RequestState.advance, hcount] at hlimit
    simp only [RequestState.allTokenIds, RequestState.advance] at heos hstop hlimit ⊢
    rw [if_neg heos, if_neg (by simp [hstop])]
    by_cases hlength : r.samplingParams.maxTokens ≤ r.outputTokenIds.length + 1
    · rw [if_pos (by simpa using hlength)]
    · have hcontext := hlimit.resolve_left hlength
      simp only [List.length_append] at hcontext
      rw [if_neg (by simpa using hlength), if_pos (by simp; omega)]

end Reference

/-! ## What a Worker samples -/

theorem Worker.of_sample {next : List TokenId → TokenId} {store : Store} {input : GPUInputBatch}
    {entries : List ((RequestId × ℤ) × ℕ)} {sampled sampled' : Dict RequestId TokenId}
    (h : Worker.sample next store input entries sampled = some sampled') {id : RequestId}
    {token : TokenId} (htok : sampled'.get? id = some token) :
    sampled.get? id = some token ∨ ∃ sampleIndex index tokens,
      ((id, sampleIndex), index) ∈ entries ∧ 0 ≤ sampleIndex ∧
        Worker.contextTokens store input index = some tokens ∧ token = next tokens := by
  induction entries generalizing sampled with
  | nil =>
      obtain rfl : sampled = sampled' := Option.some.inj h
      exact Or.inl htok
  | cons entry entries ih =>
      obtain ⟨⟨id', sampleIndex⟩, index⟩ := entry
      unfold Worker.sample at h
      split at h
      · rcases ih h with hold | ⟨i, j, tokens, hmem, hrest⟩
        · exact Or.inl hold
        · exact Or.inr ⟨i, j, tokens, List.mem_cons_of_mem _ hmem, hrest⟩
      · rename_i hindex
        split at h
        · cases h
        · rename_i tokens htokens
          rcases ih h with hold | ⟨i, j, tokens', hmem, hrest⟩
          · rw [Dict.get?_set] at hold
            split at hold
            · rename_i heq
              subst heq
              exact Or.inr ⟨sampleIndex, index, tokens, List.mem_cons_self .., not_lt.mp hindex,
                htokens, (Option.some.inj hold).symm⟩
            · exact Or.inl hold
          · exact Or.inr ⟨i, j, tokens', List.mem_cons_of_mem _ hmem, hrest⟩

theorem GPUInputBatch.shouldSample_of_sampleIndex {items : List WorkerItem} {index : ℕ}
    {sampleIndex : ℤ} (h : (sampleIndicesOf items)[index]? = some sampleIndex)
    (hpos : 0 ≤ sampleIndex) (hindex : index < items.length) :
    items[index].shouldSample = true := by
  rw [sampleIndicesOf, List.getElem?_map, Option.map_eq_some_iff] at h
  obtain ⟨⟨item, stop⟩, hzip, heq⟩ := h
  have hitem := (List.getElem?_zip_eq_some.mp hzip).1
  rw [List.getElem?_eq_getElem hindex, Option.some.injEq] at hitem
  dsimp only at heq
  rw [hitem]
  by_contra hno
  rw [if_neg hno] at heq
  omega

/-! ## Runs -/

/-- A step whose Worker executes each batch on the store and answers with what it sampled,
unless it reports an error. -/
structure TransparentStep (config : EngineConfig) (tokenizer : Tokenizer)
    (next : List TokenId → TokenId) (w : World) (event : Event) (messages : List CoreMessage)
    (w' : World) : Prop extends StoredStep config tokenizer w event messages w' where
  executed : ∀ rank batch incoming result, CoreMessage.batch rank batch ∈ messages →
    event = .engineStep incoming → answer? (w.core.batchId + 1) incoming = some result →
      result.batchId ≠ -1 → result.failed = false →
        Worker.execute next config.blockSize w.store batch =
          some (w'.store, result.sampledTokenIds)

abbrev TransparentTrace (config : EngineConfig) (tokenizer : Tokenizer)
    (next : List TokenId → TokenId) (store : Store) (τs : List WorldTransition) (w : World) :
    Prop :=
  Run (TransparentStep config tokenizer next) ⟨init config, store⟩ τs w

def coreHistory (τs : List WorldTransition) : List CoreTransition :=
  τs.map (Transition.map World.core)

section Runs

variable {config : EngineConfig} {tokenizer : Tokenizer} {next : List TokenId → TokenId}
  {store : Store} {τs : List WorldTransition} {w w' : World} {event : Event}
  {messages : List CoreMessage}

theorem TransparentTrace.stored (h : TransparentTrace config tokenizer next store τs w) :
    StoredTrace config tokenizer store τs w :=
  h.mono (fun _ _ _ _ hstep => hstep.toStoredStep)

theorem TransparentTrace.core (h : TransparentTrace config tokenizer next store τs w) :
    Trace config tokenizer (coreHistory τs) w.core :=
  h.map World.core (fun _ _ _ _ hstep => hstep.toStoredStep.toStep)

theorem mem_batch_of_mem_itemsOf {item : WorkerItem} (h : item ∈ itemsOf messages) :
    ∃ rank batch, CoreMessage.batch rank batch ∈ messages ∧ item ∈ batch.items := by
  obtain ⟨message, hmem, hitem⟩ := List.mem_flatMap.mp h
  cases message with
  | event => simp at hitem
  | batch rank batch => exact ⟨rank, batch, hmem, hitem⟩

theorem TransparentStep.token (h : TransparentStep config tokenizer next w event messages w')
    (hinv : StoredInv config w) {incoming : List WorkerResult} {result : WorkerResult}
    (hevent : event = .engineStep incoming)
    (hanswer : answer? (w.core.batchId + 1) incoming = some result) (hstarted : result.batchId ≠ -1)
    (hok : result.failed = false) {item : WorkerItem} (hitem : item ∈ itemsOf messages)
    {token : TokenId} (htok : result.sampledTokenIds.get? item.requestId = some token)
    {r : RequestState} (hr : w.core.scheduler.request? item.requestId = some r) :
    token = next r.allTokenIds ∧
      r.numComputedTokens + item.tokenIds.length = r.allTokenIds.length := by
  have hrun := h.toStoredStep.toStep.running
  have hsettled := hinv.stable hrun
  obtain ⟨rank, batch, hbatch, hitem⟩ := mem_batch_of_mem_itemsOf hitem
  have hexecute := h.executed rank batch incoming result hbatch hevent hanswer hstarted hok
  obtain ⟨_, _, hne, _, admitted, m', hs⟩ :=
    (h.toStoredStep.toStep.derivation hinv.stable).1.batch hbatch
  have hvalid : ∀ item ∈ batch.items, ValidItem config.blockSize item := by
    intro item hitem
    obtain ⟨_, _, hi⟩ := hs.issued hitem
    exact hi.valid
  rw [Worker.execute, GPUInputBatch.fromWorkerBatch_eq batch config.blockSize_pos hne hvalid] at hexecute
  obtain ⟨sampled, hsample, heq⟩ := Option.map_eq_some_iff.mp hexecute
  obtain ⟨_, rfl⟩ := Prod.mk.inj heq
  rcases Worker.of_sample hsample htok with hold | ⟨sampleIndex, index, tokens, hmem, hpos, hread, rfl⟩
  · simp at hold
  · obtain ⟨hid, hindices⟩ := List.getElem?_zip_eq_some.mp (List.mem_zipIdx_iff_getElem?.mp hmem)
    replace hid : (batch.items.map (·.requestId))[index]? = some item.requestId := hid
    rw [List.getElem?_map, Option.map_eq_some_iff] at hid
    obtain ⟨item', hitem', hsame⟩ := hid
    obtain ⟨hindex, rfl⟩ := List.getElem?_eq_some_iff.mp hitem'
    have heq : batch.items[index] = item :=
      List.inj_on_of_nodup_map hs.items_nodup (List.getElem_mem hindex) hitem hsame
    have hshould := GPUInputBatch.shouldSample_of_sampleIndex hindices hpos hindex
    obtain ⟨r', hr', hadmitted, hissued⟩ := EngineCore.Scheduled.item hs hsettled hitem
    obtain rfl : r = r' := Option.some.inj (hr.symm.trans hr')
    have hall : item.seqLen = r.allTokenIds.length := by
      rw [heq, hissued.shouldSample_eq, decide_eq_true_iff] at hshould
      exact hshould
    have hcontext := hs.contextTokens_eq hsettled (hinv.holds hrun) batch.batchId hindex
      (heq.symm ▸ hadmitted)
    rw [Worker.appendKv, kvPairs_ofItems batch hvalid] at hread
    rw [heq, hall, List.take_length] at hcontext
    obtain rfl : tokens = r.allTokenIds := Option.some.inj (hread.symm.trans hcontext)
    have hend := hissued.start_add_length
    rw [hissued.startPos_eq] at hend
    exact ⟨rfl, hend.trans hall⟩

theorem World.step_transparent (hstable : w.core.Stable config) (hranked : event.Ranked)
    (h : World.step config tokenizer next w event = some (w', messages)) :
    TransparentStep config tokenizer next w event messages w' := by
  have hstored := World.step_stored hstable hranked h
  obtain ⟨_, _, hbatch⟩ := World.of_step h
  have hd := (hstored.toStep.derivation hstable).1
  refine ⟨hstored, fun rank batch incoming result hmem hevent hanswer _ _ => ?_⟩
  obtain ⟨result', hevent', hexecute⟩ := hbatch batch (hd.batch?_eq hmem)
  rw [hevent, Event.engineStep.injEq] at hevent'
  subst hevent'
  obtain rfl : result = result' := by
    simpa using List.mem_of_find?_eq_some hanswer
  exact hexecute

theorem driveWorld_transparent {events : List Event}
    (h : driveWorld config tokenizer next events = some (τs, w))
    (hranked : ∀ event ∈ events, event.Ranked) :
    TransparentTrace config tokenizer next (fun _ => none) τs w :=
  Run.of_execute_of_invariant (I := fun w => w.core.Stable config) h hranked (stable_init config)
    (fun _ _ _ _ hstable hstep => (hstep.toStep.derivation hstable).2)
    fun _ _ _ _ => World.step_transparent

end Runs

/-! ## Following the reference -/

/-- What is left of the reference run for `request` is the reference run from `r`. -/
structure Follows (config : EngineConfig) (tokenizer : Tokenizer) (next : List TokenId → TokenId)
    (request : EngineRequest) (r : RequestState) : Prop where
  prompt_eq : r.promptTokenIds = request.promptTokenIds
  params_eq : r.samplingParams = request.samplingParams
  reference_eq : reference config tokenizer next r.samplingParams r.promptTokenIds [] =
    reference config tokenizer next r.samplingParams r.promptTokenIds r.outputTokenIds

/-- Every token that a step samples for a request is computed from everything known of it. -/
def SampledFrom (next : List TokenId → TokenId) (id : RequestId) (core : EngineCore)
    (event : Event) (messages : List CoreMessage) : Prop :=
  ∀ incoming result item token r, event = .engineStep incoming →
    answer? (core.batchId + 1) incoming = some result → result.batchId ≠ -1 →
      result.failed = false → item ∈ itemsOf messages → item.requestId = id →
        result.sampledTokenIds.get? id = some token → core.scheduler.request? id = some r →
          token = next r.allTokenIds ∧
            r.numComputedTokens + item.tokenIds.length = r.allTokenIds.length

section Following

variable {config : EngineConfig} {tokenizer : Tokenizer} {next : List TokenId → TokenId}
  {core core' : EngineCore} {event : Event} {messages : List CoreMessage} {id : RequestId}

/-- One step keeps a request on the way of its reference run. -/
theorem EngineCore.StepDerivation.follows
    (hd : StepDerivation config tokenizer core event messages core')
    (hsettled : core.scheduler.Settled config) (hsampled : SampledFrom next id core event messages)
    {prior : List EngineRequest}
    (hpre : ∀ r, core.scheduler.request? id = some r →
      ∃ request ∈ prior, request.requestId = id ∧ Follows config tokenizer next request r)
    (r' : RequestState) (hr' : core'.scheduler.request? id = some r') :
    ∃ request ∈ prior ++ addedRequests [⟨core, event, messages, core'⟩],
      request.requestId = id ∧ Follows config tokenizer next request r' := by
  have hshare := hd.request hsettled id
  have hkeep : ∀ r, core.scheduler.request? id = some r → ∃ request ∈ prior ++
      addedRequests [⟨core, event, messages, core'⟩],
        request.requestId = id ∧ Follows config tokenizer next request r := by
    intro r hr
    obtain ⟨request, hrequest, hrest⟩ := hpre r hr
    exact ⟨request, List.mem_append_left _ hrequest, hrest⟩
  rw [hr'] at hshare
  generalize hr? : core.scheduler.request? id = r? at hshare
  generalize hitems : itemsFor id messages = items at hshare
  generalize houts : outputsFor id messages = outs at hshare
  cases hshare with
  | keep => exact hkeep r' hr?
  | @accept request hid => exact ⟨request, by simp [addedRequests], hid, rfl, rfl, rfl⟩
  | reject => exact hkeep r' hr?
  | @answer incoming result r item outs r'? m m' _ hanswer hstarted hok hid hissued houtcome =>
      obtain ⟨request, hrequest, hsame, hfollows⟩ := hkeep r hr?
      subst hid
      cases houtcome with
      | advance =>
          exact ⟨request, hrequest, hsame, hfollows.prompt_eq, hfollows.params_eq,
            hfollows.reference_eq⟩
      | @extend token r' htok hsample =>
          have hmem : item ∈ itemsFor item.requestId messages := by simp [hitems]
          obtain ⟨rfl, hcount⟩ := hsampled incoming result item token r rfl hanswer hstarted hok
            (List.mem_filter.mp hmem).1 rfl htok hr?
          have hreference := reference_of_sample_eq_none hcount hsample
          obtain ⟨_, rfl, _⟩ := RequestState.of_sample_eq_none hsample
          exact ⟨request, hrequest, hsame, hfollows.prompt_eq, hfollows.params_eq,
            hfollows.reference_eq.trans hreference⟩
  | crash => exact hkeep r' hr?

/-- A step that puts an output with reason STOP or LENGTH appends the last token of the
reference run. -/
theorem EngineCore.StepDerivation.ends
    (hd : StepDerivation config tokenizer core event messages core')
    (hsettled : core.scheduler.Settled config) (hsampled : SampledFrom next id core event messages)
    {output : RequestOutput} (houtput : output ∈ outputsFor id messages)
    {reason : FinishReason} (hreason : output.finishReason = some reason)
    (hends : reason = .stop ∨ reason = .length) :
    ∃ r, Removes id ⟨core, event, messages, core'⟩ r ∧
      reference config tokenizer next r.samplingParams r.promptTokenIds r.outputTokenIds =
        (finalTokens config tokenizer id ⟨core, event, messages, core'⟩ r, reason) := by
  have hshare := hd.request hsettled id
  generalize hr? : core.scheduler.request? id = r? at hshare
  generalize hr'? : core'.scheduler.request? id = r'? at hshare
  generalize hitems : itemsFor id messages = items at hshare
  generalize houts : outputsFor id messages = outs at hshare houtput
  have hother : ∀ output', output = output' → output'.finishReason = some .abort ∨
      output'.finishReason = some .error ∨ output'.finishReason = none → False := by
    rintro _ rfl hcases
    rw [hreason] at hcases
    rcases hends with rfl | rfl <;> simp at hcases
  cases hshare with
  | keep => simp at houtput
  | accept => simp at houtput
  | reject => exact (hother _ (List.mem_singleton.mp houtput) (by simp [errorOutput])).elim
  | abort => exact (hother _ (List.mem_singleton.mp houtput) (by simp [abortOutput])).elim
  | fail => exact (hother _ (List.mem_singleton.mp houtput) (by simp [errorOutput])).elim
  | crash => exact (hother _ (List.mem_singleton.mp houtput) (by simp [errorOutput])).elim
  | @answer incoming result r item outs r'? m m' _ hanswer hstarted hok hid hissued houtcome =>
      subst hid
      cases houtcome with
      | advance => simp at houtput
      | extend => exact (hother _ (List.mem_singleton.mp houtput) (by simp [tokenOutput])).elim
      | @finish token r' reason' htok hsample =>
          rw [List.mem_singleton] at houtput
          subst houtput
          obtain rfl : reason' = reason := by simpa [tokenOutput] using hreason
          have hmem : item ∈ itemsFor item.requestId messages := by simp [hitems]
          obtain ⟨rfl, hcount⟩ := hsampled incoming result item token r rfl hanswer hstarted hok
            (List.mem_filter.mp hmem).1 rfl htok hr?
          refine ⟨r, ⟨hr?, hr'?⟩, ?_⟩
          have hsampled := sampledToken_of_answer core' hitems hanswer hstarted hok
          rw [htok] at hsampled
          have hfinal : finalTokens config tokenizer item.requestId
              ⟨core, .engineStep incoming, messages, core'⟩ r = r'.outputTokenIds := by
            have hsame := congrArg (fun x => x.1.outputTokenIds) hsample
            simp only [RequestState.sample_outputTokenIds, RequestState.advance] at hsame
            simp only [finalTokens, hsampled, Option.toList_some, List.foldl_cons, List.foldl_nil,
              RequestState.sample_outputTokenIds, hsame]
          rw [hfinal]
          exact reference_of_sample_eq_some hcount hsample

end Following

/-! ## Any Worker -/

section Requests

variable {config : EngineConfig} {tokenizer : Tokenizer} {next : List TokenId → TokenId}
  {τs : List CoreTransition} {core : EngineCore} {request : EngineRequest}

theorem Trace.origin_of_live (h : Trace config tokenizer τs core) {id : RequestId}
    {r : RequestState} (hr : core.scheduler.request? id = some r) :
    ∃ request ∈ addedRequests τs, request.requestId = id ∧
      r.promptTokenIds = request.promptTokenIds ∧ r.samplingParams = request.samplingParams := by
  induction h generalizing r with
  | nil => simp [request?, EngineCore.init, Scheduler.init] at hr
  | @snoc τs core event messages core' hrun hstep ih =>
      have hstable := Trace.stable hrun
      have hshare := (hstep.derivation hstable).1.request (hstable hstep.running) id
      rw [addedRequests_append]
      have hkeep : ∀ r, core.scheduler.request? id = some r → ∃ request ∈ addedRequests τs ++
          addedRequests [⟨core, event, messages, core'⟩], request.requestId = id ∧
            r.promptTokenIds = request.promptTokenIds ∧
              r.samplingParams = request.samplingParams := by
        intro r hr
        obtain ⟨request, hrequest, hrest⟩ := ih hr
        exact ⟨request, List.mem_append_left _ hrequest, hrest⟩
      rw [hr] at hshare
      generalize hr? : core.scheduler.request? id = r? at hshare
      generalize hitems : itemsFor id messages = items at hshare
      generalize houts : outputsFor id messages = outs at hshare
      cases hshare with
      | keep => exact hkeep r hr?
      | @accept request hid => exact ⟨request, by simp [addedRequests], hid, rfl, rfl⟩
      | reject => exact hkeep r hr?
      | @answer incoming result r item outs r'? m m' _ _ _ _ _ _ houtcome =>
          cases houtcome with
          | advance => exact hkeep r hr?
          | extend _ hsample =>
              obtain ⟨_, rfl, _⟩ := RequestState.of_sample_eq_none hsample
              exact hkeep r hr?
      | crash => exact hkeep r hr?

/-- Where no id is added twice, a live request is the added one of its id. -/
theorem Trace.origin_eq (h : Trace config tokenizer τs core) {ωs : List CoreTransition}
    (hmore : addedRequests τs ⊆ addedRequests ωs) (honce : (addedIds ωs).Nodup)
    (hrequest : request ∈ addedRequests ωs) {r : RequestState}
    (hr : core.scheduler.request? request.requestId = some r) :
    r.promptTokenIds = request.promptTokenIds ∧ r.samplingParams = request.samplingParams := by
  obtain ⟨request', hrequest', hid, horigin⟩ := Trace.origin_of_live h hr
  rw [addedIds_eq] at honce
  obtain rfl : request' = request :=
    List.inj_on_of_nodup_map honce (hmore hrequest') hrequest hid
  exact horigin

/-- Requests that are always sampled from everything known of them follow the reference run. -/
theorem Trace.follows (h : Trace config tokenizer τs core) {id : RequestId}
    (hsampled : ∀ τ ∈ τs, SampledFrom next id τ.pre τ.event τ.out) {r : RequestState}
    (hr : core.scheduler.request? id = some r) :
    ∃ request ∈ addedRequests τs, request.requestId = id ∧
      Follows config tokenizer next request r := by
  induction h generalizing r with
  | nil => simp [request?, EngineCore.init, Scheduler.init] at hr
  | @snoc τs core event messages core' hrun hstep ih =>
      have hstable := Trace.stable hrun
      rw [addedRequests_append]
      refine (hstep.derivation hstable).1.follows (hstable hstep.running)
        (hsampled ⟨core, event, messages, core'⟩ (by simp)) (fun r hr => ih (fun τ hτ => ?_) hr) r hr
      exact hsampled τ (List.mem_append_left _ hτ)

/-- A request that is always sampled from everything known of it ends with the tokens and the
reason of the reference run. -/
theorem Trace.tokens_eq_reference (h : Trace config tokenizer τs core) (honce : (addedIds τs).Nodup)
    (hrequest : request ∈ addedRequests τs)
    (hsampled : ∀ τ ∈ τs, SampledFrom next request.requestId τ.pre τ.event τ.out)
    {output : RequestOutput} (houtput : output ∈ emitted request.requestId τs)
    {reason : FinishReason} (hreason : output.finishReason = some reason)
    (hends : reason = .stop ∨ reason = .length) :
    (tokensOf (emitted request.requestId τs), reason) =
      reference config tokenizer next request.samplingParams request.promptTokenIds [] := by
  obtain ⟨τ, hτ, hput⟩ := mem_emitted.mp houtput
  obtain ⟨front, back, rfl⟩ := List.append_of_mem hτ
  obtain ⟨hfront, hstep⟩ := h.of_split rfl
  have hstable := Trace.stable hfront
  obtain ⟨r, hremoves, hreference⟩ := (hstep.derivation hstable).1.ends (hstable hstep.running)
    (hsampled τ hτ) hput hreason hends
  obtain ⟨request', hrequest', hid, hfollows⟩ :=
    Trace.follows hfront (fun τ' hτ' => hsampled τ' (List.mem_append_left _ hτ')) hremoves.1
  have hsame : request' = request := by
    rw [addedIds_eq] at honce
    refine List.inj_on_of_nodup_map honce ?_ hrequest hid
    rw [addedRequests_append]
    exact List.mem_append_left _ hrequest'
  subst hsame
  have htokens : tokensOf (emitted request'.requestId (front ++ τ :: back)) =
      finalTokens config tokenizer request'.requestId τ r := by
    cases h.stage honce request'.requestId with
    | silent hstage => exact absurd rfl (hstage.added request' hrequest)
    | active request r hid hr hstage =>
        exact absurd hremoves (hid ▸ hstage.kept τ hτ _)
    | closed request last reason hid hstage =>
        rw [← hid]
        exact hstage.tokens_ended τ hτ r (hid ▸ hremoves)
  rw [htokens, ← hfollows.prompt_eq, ← hfollows.params_eq, hfollows.reference_eq, hreference]

end Requests

/-! ## A Worker that samples from its store -/

section Stored

variable {config : EngineConfig} {tokenizer : Tokenizer} {next : List TokenId → TokenId}
  {store : Store} {τs : List WorldTransition} {w w' : World} {event : Event}
  {messages : List CoreMessage}

theorem TransparentStep.sampledFrom (h : TransparentStep config tokenizer next w event messages w')
    (hinv : StoredInv config w) (id : RequestId) : SampledFrom next id w.core event messages := by
  intro incoming result item token r hevent hanswer hstarted hok hitem hid htok hr
  subst hid
  exact h.token hinv hevent hanswer hstarted hok hitem htok hr

theorem TransparentTrace.sampledFrom (h : TransparentTrace config tokenizer next store τs w)
    (id : RequestId) : ∀ τ ∈ coreHistory τs, SampledFrom next id τ.pre τ.event τ.out := by
  refine List.forall_mem_map.mpr fun τ hτ => ?_
  obtain ⟨front, back, rfl⟩ := List.append_of_mem hτ
  obtain ⟨hfront, hstep⟩ := h.of_split rfl
  exact TransparentStep.sampledFrom hstep (StoredTrace.inv (TransparentTrace.stored hfront)) id

end Stored

/-- A request that ended with STOP or LENGTH got the tokens and the reason of the reference
run on its prompt alone. -/
theorem scheduling_transparent {config : EngineConfig} {tokenizer : Tokenizer}
    {next : List TokenId → TokenId} {store : Store} {τs : List WorldTransition} {w : World}
    (h : TransparentTrace config tokenizer next store τs w)
    (honce : (addedIds (coreHistory τs)).Nodup) {request : EngineRequest}
    (hrequest : request ∈ addedRequests (coreHistory τs)) {output : RequestOutput}
    (houtput : output ∈ emitted request.requestId (coreHistory τs)) {reason : FinishReason}
    (hreason : output.finishReason = some reason) (hends : reason = .stop ∨ reason = .length) :
    (tokensOf (emitted request.requestId (coreHistory τs)), reason) =
      reference config tokenizer next request.samplingParams request.promptTokenIds [] :=
  Trace.tokens_eq_reference (TransparentTrace.core h) honce hrequest
    (TransparentTrace.sampledFrom h request.requestId) houtput hreason hends

/-- A prompt in two chunks beside a request that is aborted. -/
def chunkedBesideAbort : List Event :=
  [.command (.add (requestOf "a" [10, 11, 12, 13, 14])), .command (.add (requestOf "b" [15, 16])),
    .engineStep [answerOf 1 []], .engineStep [answerOf 2 [("a", 25), ("b", 22)]],
    .command (.abort "b"), .engineStep [answerOf 3 [("a", 26)]],
    .engineStep [answerOf 4 [("a", 1)]]]

def countingNext (tokens : List TokenId) : TokenId :=
  if tokens.length = 7 then 1 else 20 + tokens.length

theorem scheduling_transparent_chunked : ∃ τs w, ∃ request ∈ addedRequests (coreHistory τs),
    TransparentTrace smallConfig characterTokenizer countingNext (fun _ => none) τs w ∧
      request.requestId = "a" ∧
      (tokensOf (emitted request.requestId (coreHistory τs)), .stop) =
        reference smallConfig characterTokenizer countingNext request.samplingParams
          request.promptTokenIds [] := by
  have hsome : (driveWorld smallConfig characterTokenizer countingNext chunkedBesideAbort).map
      (fun run => (addedIds (coreHistory run.1), (emitted "a" (coreHistory run.1)).any
        (fun output => output.finishReason = some .stop))) = some (["a", "b"], true) := by
    decide +kernel
  obtain ⟨⟨τs, w⟩, hdrive, hrun⟩ := Option.map_eq_some_iff.mp hsome
  obtain ⟨hids, hstop⟩ := Prod.mk.inj hrun
  dsimp only at hids hstop
  obtain ⟨output, houtput, hreason⟩ := List.any_eq_true.mp hstop
  have htrace := driveWorld_transparent hdrive (by decide)
  have hmem : "a" ∈ addedIds (coreHistory τs) := by
    rw [hids]
    decide
  rw [addedIds_eq] at hmem
  obtain ⟨request, hrequest, hid⟩ := List.mem_map.mp hmem
  exact ⟨τs, w, request, hrequest, htrace, hid, scheduling_transparent htrace
    (by rw [hids]; decide) hrequest (hid.symm ▸ houtput) (of_decide_eq_true hreason)
    (Or.inl rfl)⟩

end MiniVLLM
