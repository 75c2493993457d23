import MiniVLLM.Verification.Worker.Flattening
import MiniVLLM.Verification.Worker.Serving
import MiniVLLM.Verification.Worker.Transparency

/-! # The canned response

The bootstrap runners sample by the number of tokens that a request has generated. Whatever else
the engine schedules, every request gets the same response. -/

namespace MiniVLLM

open KVCacheManager Scheduler EngineCore

namespace BootstrapModelRunner

/-! ## One batch -/

section Rows

variable {batch : GPUInputBatch} {rows : List (RequestId × ℕ)}
  {sampled sampled' : Dict RequestId TokenId}

theorem get?_sampleRows_of_not_mem (h : sampleRows batch rows sampled = .ok sampled')
    {id : RequestId} (hid : id ∉ rows.map Prod.fst) : sampled'.get? id = sampled.get? id := by
  induction rows generalizing sampled with
  | nil =>
      obtain rfl : sampled = sampled' := Except.ok.inj h
      rfl
  | cons row rows ih =>
      obtain ⟨requestId, index⟩ := row
      rw [List.map_cons, List.mem_cons, not_or] at hid
      unfold sampleRows at h
      split at h
      · cases h
      · split at h
        · exact ih h hid.2
        · split at h
          · cases h
          · rw [ih h hid.2, Dict.get?_set_of_ne _ _ hid.1]

/-- A row with a sample index gets the token of its request's count. -/
theorem get?_sampleRows (h : sampleRows batch rows sampled = .ok sampled')
    (hnodup : (rows.map Prod.fst).Nodup) {id : RequestId} {index : ℕ} (hrow : (id, index) ∈ rows) :
    ∃ sampleIndex, batch.sampleIndices[index]? = some sampleIndex ∧
      (sampleIndex < 0 → sampled'.get? id = sampled.get? id) ∧
      (0 ≤ sampleIndex → ∃ count, batch.generatedCounts[index]? = some count ∧
        sampled'.get? id = some (responseToken count)) := by
  induction rows generalizing sampled with
  | nil => cases hrow
  | cons row rows ih =>
      obtain ⟨requestId, index'⟩ := row
      obtain ⟨hfresh, hnodup⟩ := List.nodup_cons.mp hnodup
      rcases List.mem_cons.mp hrow with heq | hmem
      · obtain ⟨rfl, rfl⟩ := Prod.mk.inj heq
        unfold sampleRows at h
        split at h
        · cases h
        · rename_i sampleIndex hindex
          refine ⟨sampleIndex, hindex, fun hneg => ?_, fun hpos => ?_⟩
          · rw [if_pos hneg] at h
            exact get?_sampleRows_of_not_mem h hfresh
          · rw [if_neg (not_lt.mpr hpos)] at h
            split at h
            · cases h
            · rename_i count hcount
              refine ⟨count, hcount, ?_⟩
              rw [get?_sampleRows_of_not_mem h hfresh, Dict.get?_set_self]
      · have hne : id ≠ requestId := by
          rintro rfl
          exact hfresh (List.mem_map.mpr ⟨_, hmem, rfl⟩)
        unfold sampleRows at h
        split at h
        · cases h
        · split at h
          · exact ih h hnodup hmem
          · split at h
            · cases h
            · have hset := ih h hnodup hmem
              rwa [Dict.get?_set_of_ne _ _ hne] at hset

theorem exists_sampleRows (sampled : Dict RequestId TokenId)
    (hindices : ∀ row ∈ rows, row.2 < batch.sampleIndices.length)
    (hcounts : ∀ row ∈ rows, row.2 < batch.generatedCounts.length) :
    ∃ sampled', sampleRows batch rows sampled = .ok sampled' := by
  induction rows generalizing sampled with
  | nil => exact ⟨sampled, rfl⟩
  | cons row rows ih =>
      obtain ⟨requestId, index⟩ := row
      have hrest := fun sampled => ih sampled
        (fun row hrow => hindices row (List.mem_cons_of_mem _ hrow))
        (fun row hrow => hcounts row (List.mem_cons_of_mem _ hrow))
      rw [sampleRows, List.getElem?_eq_getElem (hindices _ List.mem_cons_self),
        List.getElem?_eq_getElem (hcounts _ List.mem_cons_self)]
      dsimp only
      split
      · exact hrest sampled
      · exact hrest _

end Rows

/-- A token is sampled for exactly the requests with a sample index. -/
theorem samplesAsked : Worker.SamplesAsked sample := by
  intro input sampled hnodup hsample request hrequest
  obtain ⟨id, sampleIndex⟩ := request
  obtain ⟨index, hindex⟩ := List.mem_iff_getElem?.mp hrequest
  obtain ⟨hid, hsampleIndex⟩ := List.getElem?_zip_eq_some.mp hindex
  have hrow : (id, index) ∈ input.requestIds.zipIdx := List.mem_zipIdx_iff_getElem?.mpr hid
  obtain ⟨sampleIndex', hsame, hneg, hpos⟩ :=
    get?_sampleRows hsample (by rwa [List.zipIdx_map_fst]) hrow
  obtain rfl : sampleIndex = sampleIndex' := Option.some.inj (hsampleIndex.symm.trans hsame)
  dsimp only
  by_cases hsign : 0 ≤ sampleIndex
  · obtain ⟨count, _, htoken⟩ := hpos hsign
    simp [htoken, hsign]
  · simp [hneg (not_le.mp hsign), hsign]

/-- What a scheduled batch is answered: the next token of the response for each item that
samples. -/
theorem exists_sample {blockSize : ℕ} {items : List WorkerItem} (batchId : ℕ) (hpos : 0 < blockSize)
    (hvalid : ∀ item ∈ items, ValidItem blockSize item)
    (hnodup : (items.map (·.requestId)).Nodup) :
    ∃ sampled, sample (GPUInputBatch.ofItems blockSize ⟨batchId, items⟩) = .ok sampled ∧
      ∀ item ∈ items, sampled.get? item.requestId =
        if item.shouldSample then some (responseToken item.generatedCount) else none := by
  have hlengths : ∀ row ∈ (items.map (·.requestId)).zipIdx,
      row.2 < (GPUInputBatch.ofItems blockSize ⟨batchId, items⟩).sampleIndices.length ∧
        row.2 < (GPUInputBatch.ofItems blockSize ⟨batchId, items⟩).generatedCounts.length := by
    intro row hrow
    have hlt := List.snd_lt_of_mem_zipIdx hrow
    simpa [GPUInputBatch.ofItems, GPUInputBatch.ofLists, GPUInputBatch.listsOf,
      GPUInputBatch.sampleIndicesOf] using hlt
  obtain ⟨sampled, hsampled⟩ : ∃ sampled,
      sample (GPUInputBatch.ofItems blockSize ⟨batchId, items⟩) = .ok sampled :=
    exists_sampleRows .empty (fun row hrow => (hlengths row hrow).1)
      (fun row hrow => (hlengths row hrow).2)
  refine ⟨sampled, hsampled, fun item hitem => ?_⟩
  obtain ⟨index, hindex⟩ := List.mem_iff_getElem?.mp hitem
  have hrow : (item.requestId, index) ∈ (items.map (·.requestId)).zipIdx := by
    rw [List.mem_zipIdx_iff_getElem?, List.getElem?_map, hindex]
    rfl
  obtain ⟨sampleIndex, hsampleIndex, hneg, hget⟩ :=
    get?_sampleRows hsampled (by rwa [List.zipIdx_map_fst]) hrow
  have hspec : RowSpec blockSize (GPUInputBatch.ofItems blockSize ⟨batchId, items⟩) index item :=
    GPUInputBatch.rowSpec_ofItems hpos hvalid hindex
  rcases hspec.sampleIndex with ⟨hno, hnone⟩ | ⟨hyes, last, hlast, _⟩
  · obtain rfl : sampleIndex = -1 := Option.some.inj (hsampleIndex.symm.trans hnone)
    rw [hneg (by decide), hno]
    rfl
  · obtain rfl : sampleIndex = (last : ℤ) := Option.some.inj (hsampleIndex.symm.trans hlast)
    obtain ⟨count, hcount, htoken⟩ := hget (Int.natCast_nonneg last)
    have hcount' : (items.map (·.generatedCount))[index]? = some count := hcount
    rw [List.getElem?_map, hindex] at hcount'
    obtain rfl := Option.some.inj hcount'
    rw [htoken, hyes, if_pos rfl]

theorem exists_sample_dispatched {config : EngineConfig} {s admitted : Scheduler}
    {items : List WorkerItem} {m' : KVCacheManager} {store : Store}
    (h : Dispatched config s admitted items m' store) (batchId : ℕ) :
    ∃ sampled, sample (GPUInputBatch.ofItems config.blockSize ⟨batchId, items⟩) = .ok sampled ∧
      ∀ item ∈ items, ∀ r, admitted.running.get? item.requestId = some r →
        sampled.get? item.requestId =
          if item.shouldSample then some (responseToken r.outputTokenIds.length) else none := by
  have hs := h.scheduled
  obtain ⟨sampled, hsampled, htokens⟩ :=
    exists_sample batchId config.blockSize_pos hs.valid hs.items_nodup
  refine ⟨sampled, hsampled, fun item hitem r hr => ?_⟩
  obtain ⟨r', hr', hissued⟩ := hs.issued hitem
  obtain rfl : r = r' := Option.some.inj (hr.symm.trans hr')
  rw [htokens item hitem, hissued.generatedCount_eq]

/-! ## One request -/

def cutAfter (config : EngineConfig) (params : SamplingParams) (promptLength count : ℕ) : Bool :=
  endsWithStop characterTokenizer params (responseTokens.take count) ||
    decide (params.maxTokens ≤ count) || decide (config.contextLimit ≤ promptLength + count)

/-- The rest of the response of a request that has `generated` tokens, and how it ends. -/
def responseFrom (config : EngineConfig) (params : SamplingParams) (promptLength generated : ℕ) :
    List TokenId × FinishReason :=
  match (List.range' (generated + 1) (responseTokens.length - generated)).find?
      (cutAfter config params promptLength) with
  | none => (responseTokens, .stop)
  | some count => (responseTokens.take count,
      if endsWithStop characterTokenizer params (responseTokens.take count) then .stop else .length)

/-- The response to a prompt of some length. -/
def response (config : EngineConfig) (params : SamplingParams) (promptLength : ℕ) :
    List TokenId × FinishReason :=
  responseFrom config params promptLength 0

theorem responseFrom_of_lt {config : EngineConfig} {params : SamplingParams}
    {promptLength generated : ℕ} (h : generated < responseTokens.length) :
    responseFrom config params promptLength generated =
      if cutAfter config params promptLength (generated + 1) then
        (responseTokens.take (generated + 1),
          if endsWithStop characterTokenizer params (responseTokens.take (generated + 1)) then .stop
          else .length)
      else responseFrom config params promptLength (generated + 1) := by
  obtain ⟨rest, hrest⟩ := Nat.exists_eq_add_of_lt h
  rw [responseFrom, show responseTokens.length - generated = rest + 1 by omega, List.range'_succ,
    List.find?_cons, responseFrom, show responseTokens.length - (generated + 1) = rest by omega]
  cases cutAfter config params promptLength (generated + 1) <;> rfl

theorem responseToken_of_lt {count : ℕ} (h : count < responseTokens.length) :
    responseToken count = responseTokens[count] ∧
      responseToken count ≠ characterTokenizer.eosTokenId := by
  have hget : responseToken count = responseTokens[count] := by
    rw [responseToken, List.getD_eq_getElem?_getD, List.getElem?_eq_getElem h]
    rfl
  refine ⟨hget, ?_⟩
  have hall : ∀ token ∈ responseTokens, token ≠ characterTokenizer.eosTokenId := by decide
  rw [hget]
  exact hall _ (List.getElem_mem h)

theorem responseToken_of_le {count : ℕ} (h : responseTokens.length ≤ count) :
    responseToken count = characterTokenizer.eosTokenId := by
  rw [responseToken, List.getD_eq_getElem?_getD, List.getElem?_eq_none h]
  rfl

/-- The reference run that samples by the number of generated tokens is the response. -/
theorem reference_eq_responseFrom {config : EngineConfig} {params : SamplingParams}
    {promptTokenIds : List TokenId} {generated rest : ℕ}
    (hrest : generated + rest = responseTokens.length) :
    reference config characterTokenizer
        (fun tokens => responseToken (tokens.length - promptTokenIds.length)) params promptTokenIds
        (responseTokens.take generated) =
      responseFrom config params promptTokenIds.length generated := by
  have hcount : (promptTokenIds ++ responseTokens.take generated).length - promptTokenIds.length =
      generated := by
    rw [List.length_append, List.length_take]
    omega
  induction rest generalizing generated with
  | zero =>
      rw [reference]
      dsimp only
      rw [hcount, responseToken_of_le (by omega), if_pos rfl, responseFrom,
        show responseTokens.length - generated = 0 by omega, List.take_of_length_le (by omega)]
      rfl
  | succ rest ih =>
      have hlt : generated < responseTokens.length := by omega
      obtain ⟨htoken, hne⟩ := responseToken_of_lt hlt
      have hextended : responseTokens.take generated ++ [responseToken generated] =
          responseTokens.take (generated + 1) := by
        rw [htoken, List.take_append_getElem hlt]
      have hlength : (responseTokens.take (generated + 1)).length = generated + 1 := by
        rw [List.length_take]
        omega
      have hnext := ih (show generated + 1 + rest = responseTokens.length by omega) (by
        rw [List.length_append, hlength]
        omega)
      rw [reference]
      dsimp only
      rw [hcount, if_neg hne, hextended, hlength, hnext, responseFrom_of_lt hlt, cutAfter]
      by_cases hstop : endsWithStop characterTokenizer params (responseTokens.take (generated + 1))
      · simp [hstop]
      · by_cases hmax : params.maxTokens ≤ generated + 1
        · simp [hstop, hmax]
        · by_cases hlimit : config.contextLimit ≤ promptTokenIds.length + (generated + 1)
          · simp [hstop, hmax, hlimit]
          · simp [hstop, hmax, hlimit]

end BootstrapModelRunner

/-! ## Runs -/

section Runs

variable {config : EngineConfig} {τs : List CoreTransition} {core core' : EngineCore}
  {event : Event} {messages : List CoreMessage}

/-- A Worker that answers with the response picks a token by the number of generated ones. -/
theorem ReportedStep.sampledFrom {tokenizer : Tokenizer} {id : RequestId} {promptLength : ℕ}
    (h : ReportedStep config tokenizer BootstrapModelRunner.sample core event messages core')
    (hstable : core.Stable config)
    (hprompt : ∀ r, core.scheduler.request? id = some r → r.promptTokenIds.length = promptLength) :
    SampledFrom (fun tokens => BootstrapModelRunner.responseToken (tokens.length - promptLength)) id
      core event messages := by
  intro incoming result item token r hevent hanswer hstarted _ hitem hid htok hr
  subst hid
  have hsettled := hstable h.toStep.running
  obtain ⟨rank, batch, hbatch, hitem⟩ := mem_batch_of_mem_itemsOf hitem
  obtain ⟨_, _, hne, _, admitted, m', hs⟩ := (h.toStep.derivation hstable).1.batch hbatch
  have hreported := h.reported
  rw [hevent] at hreported
  obtain rfl := hreported result hanswer hstarted rank batch hbatch
  obtain ⟨sampled, hsampled, htokens⟩ := BootstrapModelRunner.exists_sample
    batch.batchId config.blockSize_pos hs.valid hs.items_nodup
  have hinput := GPUInputBatch.fromWorkerBatch_eq batch config.blockSize_pos hne hs.valid
  simp only [Worker.answer, hinput, Except.ok_bind, Except.pure_eq_ok, hsampled] at htok
  rw [htokens item hitem] at htok
  obtain ⟨r', hr', _, hissued⟩ := EngineCore.Scheduled.item hs hsettled hitem
  obtain rfl : r = r' := Option.some.inj (hr.symm.trans hr')
  by_cases hsample : item.shouldSample = true
  · rw [if_pos hsample] at htok
    have hall : item.seqLen = r.allTokenIds.length := by
      rwa [hissued.shouldSample_eq, decide_eq_true_iff] at hsample
    have hend := hissued.start_add_length
    rw [hissued.startPos_eq] at hend
    refine ⟨?_, hend.trans hall⟩
    dsimp only
    rw [← Option.some.inj htok, hissued.generatedCount_eq, RequestState.length_allTokenIds,
      hprompt r hr, Nat.add_sub_cancel_left]
  · rw [if_neg hsample] at htok
    cases htok

/-- A request that ended with STOP or LENGTH got the response to a prompt of its length. -/
theorem ReportedTrace.response_eq
    (h : ReportedTrace config characterTokenizer BootstrapModelRunner.sample τs core)
    (honce : (addedIds τs).Nodup) {request : EngineRequest} (hrequest : request ∈ addedRequests τs)
    {output : RequestOutput} (houtput : output ∈ emitted request.requestId τs)
    {reason : FinishReason} (hreason : output.finishReason = some reason)
    (hends : reason = .stop ∨ reason = .length) :
    (tokensOf (emitted request.requestId τs), reason) =
      BootstrapModelRunner.response config request.samplingParams
        request.promptTokenIds.length := by
  have hsampled : ∀ τ ∈ τs, SampledFrom (fun tokens => BootstrapModelRunner.responseToken
      (tokens.length - request.promptTokenIds.length)) request.requestId τ.pre τ.event τ.out := by
    intro τ hτ
    obtain ⟨front, back, rfl⟩ := List.append_of_mem hτ
    obtain ⟨hfront, hstep⟩ := h.of_split rfl
    have htrace := ReportedTrace.trace hfront
    refine ReportedStep.sampledFrom hstep (Trace.stable htrace) fun r hr => ?_
    refine congrArg List.length (Trace.origin_eq htrace ?_ honce hrequest hr).1
    rw [addedRequests_append]
    exact List.subset_append_left _ _
  rw [Trace.tokens_eq_reference (ReportedTrace.trace h) honce hrequest hsampled houtput hreason
    hends, ← List.take_zero (l := BootstrapModelRunner.responseTokens)]
  exact BootstrapModelRunner.reference_eq_responseFrom (Nat.zero_add _)

end Runs

/-! ## A run -/

/-- A runner that samples and keeps nothing. -/
def samplingRunner : BatchExecution Unit := fun _ input => (BootstrapModelRunner.sample input, ())

theorem samplingRunner_refines (config : EngineConfig) :
    samplingRunner.Executes.Refines config BootstrapModelRunner.sample fun _ _ => True where
  executes := fun _ _ _ hexecutes => ⟨(Prod.mk.inj hexecutes).1.symm, trivial⟩
  total := fun _ _ _ => ⟨_, _, rfl⟩

theorem reported_of_samplingRunner {config : EngineConfig} {events : List Event}
    {τs : List (WorkerTransition Unit)} {w : WorkerWorld Unit}
    (h : driveWorker config characterTokenizer samplingRunner () events = some (τs, w))
    (hevents : ∀ event ∈ events, event.Ranked ∧ event.Prompted) :
    ReportedTrace config characterTokenizer BootstrapModelRunner.sample
      (τs.map (Transition.map WorkerWorld.core)) w.core := by
  have hserved := @WorkerTrace.served Unit config characterTokenizer _ _ _ () w τs
    (driveWorker_worker h hevents) (samplingRunner_refines config) BootstrapModelRunner.samplesAsked
    (fun _ => none) trivial
  exact hserved.reported

/-- A driven run of a Worker that answers with the response, and what it schedules next. -/
theorem exists_responded_of {config : EngineConfig} (events : List Event) {β : Type}
    {f : List WorkerItem → β} {b : β}
    (h : (driveWorker config characterTokenizer samplingRunner () events).map
      (fun run => (run.2.core.stopped,
        ((Scheduler.schedule config).value? run.2.core.scheduler).bind
          (fun schedule => (schedule.byRank.get? (some 0)).map f))) = some (false, some b))
    (hevents : ∀ event ∈ events, event.Ranked ∧ event.Prompted) :
    ∃ τs core schedule s' items,
      ReportedTrace config characterTokenizer BootstrapModelRunner.sample τs core ∧
        core.stopped = false ∧ (Scheduler.schedule config).run core.scheduler = .ok schedule s' ∧
        schedule.byRank.get? (some 0) = some items ∧ f items = b := by
  obtain ⟨⟨τs, w⟩, hdrive, hrun⟩ := Option.map_eq_some_iff.mp h
  obtain ⟨hloop, hnext⟩ := Prod.mk.inj hrun
  dsimp only at hloop hnext
  have hreported := reported_of_samplingRunner hdrive hevents
  obtain ⟨schedule, hvalue, hitems⟩ := Option.bind_eq_some_iff.mp hnext
  obtain ⟨items, hbatch, hmap⟩ := Option.map_eq_some_iff.mp hitems
  cases hschedule : (Scheduler.schedule config).run w.core.scheduler with
  | error e s' =>
      rw [EStateM.value?, hschedule] at hvalue
      cases hvalue
  | ok schedule' s' =>
      rw [EStateM.value?_of_ok hschedule] at hvalue
      obtain rfl := Option.some.inj hvalue
      exact ⟨_, w.core, schedule', s', items, hreported, hloop, hschedule, hbatch, hmap⟩

def respondedBesideNew : List Event :=
  [.command (.add (requestOf "a" [10, 11])), .engineStep [executedOf 1 1 2 0 [("a", 35)]],
    .command (.add (requestOf "b" [12, 13]))]

theorem exists_responded : ∃ τs core schedule s' items,
    ReportedTrace smallConfig characterTokenizer BootstrapModelRunner.sample τs core ∧
      core.stopped = false ∧ (Scheduler.schedule smallConfig).run core.scheduler = .ok schedule s' ∧
      schedule.byRank.get? (some 0) = some items ∧ items.map (·.requestId) = ["a", "b"] :=
  exists_responded_of respondedBesideNew (by decide +kernel) (by decide)

end MiniVLLM
