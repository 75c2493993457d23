import MiniVLLM.Verification.Engine.Conservation

/-! # Output streams

The outputs put for one request id over a whole run. Each step of the core is reduced to
one signal for that id; a stream is opened by an ADD and closed by its one finished output. -/

namespace MiniVLLM

open KVCacheManager Scheduler

namespace EngineCore

/-! ## What a history says about one request -/

def addedIds (τs : List CoreTransition) : List RequestId :=
  τs.filterMap fun τ =>
    match τ.event with
    | .command (.add request) => some request.requestId
    | _ => none

def addedRequests (τs : List CoreTransition) : List EngineRequest :=
  τs.filterMap fun τ =>
    match τ.event with
    | .command (.add request) => some request
    | _ => none

/-- The outputs put for one id, oldest first. -/
def emitted (id : RequestId) (τs : List CoreTransition) : List RequestOutput :=
  outputsFor id (Run.outputs τs)

def sampledToken (id : RequestId) (τ : CoreTransition) : List TokenId :=
  match τ.event with
  | .engineStep incoming =>
      match answer? (τ.pre.batchId + 1) incoming with
      | some result =>
          if result.batchId ≠ -1 ∧ result.failed = false ∧ itemsFor id τ.out ≠ [] then
            (result.sampledTokenIds.get? id).toList
          else []
      | none => []
  | _ => []

/-- The tokens the Worker sampled for a request, oldest first. -/
def sampled (id : RequestId) (τs : List CoreTransition) : List TokenId :=
  τs.flatMap (sampledToken id)

/-- An ABORT was handled while the id was live. -/
def AbortsLive (id : RequestId) (τ : CoreTransition) : Prop :=
  τ.event = .command (.abort id) ∧ τ.pre.scheduler.Live id

def AddRaises (config : EngineConfig) (id : RequestId) (τ : CoreTransition) : Prop :=
  ∃ request error s', τ.event = .command (.add request) ∧ request.requestId = id ∧
    (addRequest config request).run τ.pre.scheduler = .error error s'

def BatchFails (id : RequestId) (τ : CoreTransition) : Prop :=
  ∃ incoming result, τ.event = .engineStep incoming ∧
    answer? (τ.pre.batchId + 1) incoming = some result ∧ result.batchId ≠ -1 ∧
    result.failed = true ∧ itemsFor id τ.out ≠ []

def RunRaises (id : RequestId) (τ : CoreTransition) : Prop :=
  ∃ incoming, τ.event = .engineStep incoming ∧ τ.post.stopped = true ∧ τ.pre.scheduler.Live id

def Errs (config : EngineConfig) (id : RequestId) (τ : CoreTransition) : Prop :=
  AddRaises config id τ ∨ BatchFails id τ ∨ RunRaises id τ

/-- The last of the sampled tokens was EOS or completed a stop string. -/
def Stops (tokenizer : Tokenizer) (params : SamplingParams) (tokens : List TokenId) : Prop :=
  ∃ front last, tokens = front ++ [last] ∧
    (last = tokenizer.eosTokenId ∨ endsWithStop tokenizer params (front ++ [last]) = true)

section Append

variable {config : EngineConfig} {id : RequestId} {τs : List CoreTransition} {τ : CoreTransition}

theorem addedIds_eq (τs : List CoreTransition) :
    addedIds τs = (addedRequests τs).map (·.requestId) := by
  rw [addedIds, addedRequests, List.map_filterMap]
  apply List.filterMap_congr
  intro τ _
  cases τ.event with
  | command command => cases command <;> rfl
  | engineStep => rfl
  | leave => rfl

@[simp] theorem addedRequests_append (τs τs' : List CoreTransition) :
    addedRequests (τs ++ τs') = addedRequests τs ++ addedRequests τs' := by
  simp [addedRequests]

@[simp] theorem emitted_append (τs τs' : List CoreTransition) :
    emitted id (τs ++ τs') = emitted id τs ++ emitted id τs' := by
  simp [emitted]

@[simp] theorem sampled_append (τs τs' : List CoreTransition) :
    sampled id (τs ++ τs') = sampled id τs ++ sampled id τs' := by
  simp [sampled]

@[simp] theorem emitted_singleton : emitted id [τ] = outputsFor id τ.out := by
  simp [emitted]

@[simp] theorem sampled_singleton : sampled id [τ] = sampledToken id τ := by
  simp [sampled]

theorem mem_emitted {output : RequestOutput} :
    output ∈ emitted id τs ↔ ∃ τ ∈ τs, output ∈ outputsFor id τ.out := by
  induction τs with
  | nil => simp [emitted]
  | cons τ τs ih =>
      rw [← List.singleton_append, emitted_append, List.mem_append, ih, emitted_singleton]
      simp

end Append

/-! ## Signals -/

/-- What a step means for the stream of one id: the request before it, the outputs it put
for the id, and the request after it. -/
inductive Signal (config : EngineConfig) (tokenizer : Tokenizer) (id : RequestId)
    (τ : CoreTransition) : Option RequestState → List RequestOutput → Option RequestState →
      Prop where
  | quiet {r?} (count : ℕ) (hadd : ∀ request ∈ addedRequests [τ], request.requestId ≠ id)
      (hsampled : sampledToken id τ = []) (habort : ¬ AbortsLive id τ) (herr : ¬ Errs config id τ) :
      Signal config tokenizer id τ r? [] (r?.map (fun r => r.advance count))
  | opened {request} (hid : request.requestId = id) (hadd : addedRequests [τ] = [request])
      (hsampled : sampledToken id τ = []) (habort : ¬ AbortsLive id τ) (herr : ¬ Errs config id τ) :
      Signal config tokenizer id τ none [] (some (RequestState.ofRequest request).seat)
  | refused {request r?} {error : String} (hid : request.requestId = id)
      (hadd : addedRequests [τ] = [request]) (hsampled : sampledToken id τ = [])
      (habort : ¬ AbortsLive id τ) (herr : Errs config id τ) :
      Signal config tokenizer id τ r? [errorOutput id error] r?
  | aborted {r} (hadd : addedRequests [τ] = []) (hsampled : sampledToken id τ = [])
      (habort : AbortsLive id τ) (herr : ¬ Errs config id τ) :
      Signal config tokenizer id τ (some r) [abortOutput id] none
  | failed {r r'?} {error : String} (hadd : addedRequests [τ] = [])
      (hsampled : sampledToken id τ = []) (habort : ¬ AbortsLive id τ) (herr : Errs config id τ)
      (hpost : r'? = none ∨ (τ.post.stopped = true ∧ r'? = some r)) :
      Signal config tokenizer id τ (some r) [errorOutput id error] r'?
  | token {r r' count token text metrics} (hadd : addedRequests [τ] = [])
      (hsampled : sampledToken id τ = [token]) (habort : ¬ AbortsLive id τ)
      (herr : ¬ Errs config id τ)
      (hsample : (r.advance count).sample config tokenizer token = (r', none)) :
      Signal config tokenizer id τ (some r)
        [tokenOutput tokenizer id token text none metrics] (some r')
  | last {r r' count token reason text metrics} (hadd : addedRequests [τ] = [])
      (hsampled : sampledToken id τ = [token]) (habort : ¬ AbortsLive id τ)
      (herr : ¬ Errs config id τ)
      (hsample : (r.advance count).sample config tokenizer token = (r', some reason)) :
      Signal config tokenizer id τ (some r)
        [tokenOutput tokenizer id token text (some reason) metrics] none

section Signals

variable {config : EngineConfig} {tokenizer : Tokenizer} {id : RequestId}
  {core core' : EngineCore} {event : Event} {messages : List CoreMessage}

theorem sampledToken_of_items_nil {τ : CoreTransition} (h : itemsFor id τ.out = []) :
    sampledToken id τ = [] := by
  unfold sampledToken
  split
  · split
    · simp [h]
    · rfl
  · rfl

theorem sampledToken_of_answer (core' : EngineCore) {incoming : List WorkerResult}
    {result : WorkerResult}
    {item : WorkerItem} (hitems : itemsFor id messages = [item])
    (hanswer : answer? (core.batchId + 1) incoming = some result)
    (hstarted : result.batchId ≠ -1) (hok : result.failed = false) :
    sampledToken id ⟨core, .engineStep incoming, messages, core'⟩ =
      (result.sampledTokenIds.get? id).toList := by
  simp [sampledToken, hanswer, hstarted, hok, hitems]

theorem not_errs_of_answer {incoming : List WorkerResult} {result : WorkerResult}
    (hanswer : answer? (core.batchId + 1) incoming = some result) (hok : result.failed = false)
    (hloop : core'.stopped = false) :
    ¬ Errs config id ⟨core, .engineStep incoming, messages, core'⟩ := by
  rintro (⟨request, _, _, hevent, _⟩ | ⟨incoming', result', hevent, hanswer', _, hfailed, _⟩ |
    ⟨_, _, hstop, _⟩)
  · cases hevent
  · cases hevent
    rw [hanswer] at hanswer'
    cases hanswer'
    rw [hok] at hfailed
    cases hfailed
  · rw [hloop] at hstop
    cases hstop

theorem RequestStep.signal {r? r'? : Option RequestState} {outs : List RequestOutput}
    (h : RequestStep config tokenizer id core core' event r? (itemsFor id messages) outs r'?)
    (hpre : r? = none ↔ ¬ core.scheduler.Live id) (hrun : core.stopped = false) :
    Signal config tokenizer id ⟨core, event, messages, core'⟩ r? outs r'? := by
  generalize hitems : itemsFor id messages = items at h
  cases h with
  | keep hadd habort hloop =>
      have hmap : r? = r?.map (fun r => r.advance 0) := by cases r? <;> rfl
      nth_rewrite 2 [hmap]
      refine .quiet 0 ?_ (sampledToken_of_items_nil hitems) ?_ ?_
      · intro request hrequest
        cases event with
        | command command =>
            cases command with
            | add request' =>
                obtain rfl : request = request' := by simpa [addedRequests] using hrequest
                exact hadd request rfl
            | abort => simp [addedRequests] at hrequest
            | shutdown => simp [addedRequests] at hrequest
        | engineStep => simp [addedRequests] at hrequest
        | leave => simp [addedRequests] at hrequest
      · rintro ⟨hevent, hlive⟩
        exact habort (fun hnone => hpre.mp hnone hlive) hevent
      · rintro (⟨request, _, _, hevent, hid, _⟩ | ⟨_, _, _, _, _, _, hne⟩ |
          ⟨incoming, hevent, hstop, hlive⟩)
        · exact hadd request hevent hid
        · exact hne hitems
        · have hsame := hloop (fun hnone => hpre.mp hnone hlive) incoming hevent
          simp [hsame, hrun] at hstop
  | @accept request hid hnew hfits =>
      refine .opened hid rfl (sampledToken_of_items_nil hitems) (by simp [AbortsLive]) ?_
      rintro (⟨request', error, s', hevent, _, hraise⟩ | ⟨_, _, hevent, _⟩ | ⟨_, hevent, _⟩)
      · cases hevent
        rcases addRequest_cases config core.scheduler request with ⟨_, _, hok⟩ | ⟨e, hreject, _⟩
        · rw [hok] at hraise
          cases hraise
        · cases hreject with
          | duplicate hdup => exact hnew hdup
          | tooLong _ hlong => omega
      · cases hevent
      · cases hevent
  | @reject request error r? hid h =>
      refine .refused hid rfl (sampledToken_of_items_nil hitems) (by simp [AbortsLive]) (Or.inl ?_)
      rcases addRequest_cases config core.scheduler request with ⟨hnew, hfits, _⟩ | ⟨e, _, hraise⟩
      · cases h with
        | duplicate hdup => exact absurd hdup hnew
        | tooLong _ hlong => omega
      · exact ⟨request, e, core.scheduler, rfl, hid, hraise⟩
  | @abort r =>
      have hlive : core.scheduler.Live id := not_not.mp (mt hpre.mpr (by simp))
      refine .aborted rfl (sampledToken_of_items_nil hitems) ⟨rfl, hlive⟩ ?_
      rintro (⟨_, _, _, hevent, _⟩ | ⟨_, _, hevent, _⟩ | ⟨_, hevent, _⟩) <;> cases hevent
  | @answer incoming result r item outs r'? m m' hloop hanswer hstarted hok hid hissued
      houtcome =>
      have htoken := sampledToken_of_answer core' hitems hanswer hstarted hok
      have herr : ¬ Errs config id ⟨core, .engineStep incoming, messages, core'⟩ :=
        not_errs_of_answer hanswer hok (hloop.trans hrun)
      have habort : ¬ AbortsLive id ⟨core, .engineStep incoming, messages, core'⟩ := by
        simp [AbortsLive]
      subst hid
      cases houtcome with
      | advance htok =>
          rw [htok] at htoken
          exact @Signal.quiet _ _ _ _ (some r) _ (by simp [addedRequests]) htoken habort herr
      | extend htok hsample =>
          rw [htok] at htoken
          exact .token rfl htoken habort herr hsample
      | finish htok hsample =>
          rw [htok] at htoken
          exact .last rfl htoken habort herr hsample
  | @fail incoming result r item m m' hloop hanswer hstarted hfailed hid hissued =>
      refine .failed rfl ?_ (by simp [AbortsLive]) (Or.inr (Or.inl ?_)) (Or.inl rfl)
      · simp [sampledToken, hanswer, hfailed]
      · exact ⟨incoming, result, rfl, hanswer, hstarted, hfailed, by simp [hitems]⟩
  | @crash incoming result r items hstop hanswer hinit hissued =>
      have hlive : core.scheduler.Live id := not_not.mp (mt hpre.mpr (by simp))
      refine .failed rfl ?_ (by simp [AbortsLive]) (Or.inr (Or.inr ⟨incoming, rfl, hstop, hlive⟩))
        (Or.inr ⟨hstop, rfl⟩)
      simp [sampledToken, hanswer, hinit]

end Signals

/-! ## The stream of one id -/

/-- Which of the causes of an ending a history shows. -/
inductive Verdict (config : EngineConfig) (tokenizer : Tokenizer) (id : RequestId)
    (params : SamplingParams) (τs : List CoreTransition) : FinishReason → Prop where
  | abort (ha : ∃ τ ∈ τs, AbortsLive id τ) (he : ∀ τ ∈ τs, ¬ Errs config id τ)
      (hs : ¬ Stops tokenizer params (sampled id τs)) :
      Verdict config tokenizer id params τs .abort
  | error (ha : ∀ τ ∈ τs, ¬ AbortsLive id τ) (he : ∃ τ ∈ τs, Errs config id τ)
      (hs : ¬ Stops tokenizer params (sampled id τs)) :
      Verdict config tokenizer id params τs .error
  | stop (ha : ∀ τ ∈ τs, ¬ AbortsLive id τ) (he : ∀ τ ∈ τs, ¬ Errs config id τ)
      (hs : Stops tokenizer params (sampled id τs)) :
      Verdict config tokenizer id params τs .stop
  | length (ha : ∀ τ ∈ τs, ¬ AbortsLive id τ) (he : ∀ τ ∈ τs, ¬ Errs config id τ)
      (hs : ¬ Stops tokenizer params (sampled id τs)) :
      Verdict config tokenizer id params τs .length

def Removes (id : RequestId) (τ : CoreTransition) (r : RequestState) : Prop :=
  τ.pre.scheduler.request? id = some r ∧ τ.post.scheduler.request? id = none

/-- The output tokens of a request once the step appended what was sampled in it. -/
def finalTokens (config : EngineConfig) (tokenizer : Tokenizer) (id : RequestId)
    (τ : CoreTransition) (r : RequestState) : List TokenId :=
  ((sampledToken id τ).foldl (fun r token => (r.sample config tokenizer token).1) r).outputTokenIds

def tokensOf (outputs : List RequestOutput) : List TokenId := outputs.flatMap (·.tokenIds)

/-- No ADD for the id yet. -/
structure Silent (config : EngineConfig) (id : RequestId) (τs : List CoreTransition)
    (core : EngineCore) : Prop where
  added : ∀ request ∈ addedRequests τs, request.requestId ≠ id
  request?_eq : core.scheduler.request? id = none
  emitted_eq : emitted id τs = []
  sampled_eq : sampled id τs = []
  not_aborted : ∀ τ ∈ τs, ¬ AbortsLive id τ
  not_failed : ∀ τ ∈ τs, ¬ Errs config id τ
  kept : ∀ τ ∈ τs, ∀ r, ¬ Removes id τ r

/-- The request was accepted and has not ended: `r` is its state. -/
structure Active (config : EngineConfig) (tokenizer : Tokenizer) (request : EngineRequest)
    (r : RequestState) (τs : List CoreTransition) : Prop where
  added : request ∈ addedRequests τs
  params_eq : r.samplingParams = request.samplingParams
  open_outputs : ∀ output ∈ emitted request.requestId τs,
    output.finished = false ∧ output.finishReason = none
  tokens_eq : tokensOf (emitted request.requestId τs) = r.outputTokenIds
  sampled_eq : sampled request.requestId τs = r.outputTokenIds
  no_eos : tokenizer.eosTokenId ∉ r.outputTokenIds
  length_lt : r.outputTokenIds.length < request.samplingParams.maxTokens
  not_stopped : ¬ Stops tokenizer request.samplingParams r.outputTokenIds
  not_aborted : ∀ τ ∈ τs, ¬ AbortsLive request.requestId τ
  not_failed : ∀ τ ∈ τs, ¬ Errs config request.requestId τ
  kept : ∀ τ ∈ τs, ∀ r, ¬ Removes request.requestId τ r

/-- The stream was closed by the finished output `last` for the given reason. -/
structure Closed (config : EngineConfig) (tokenizer : Tokenizer) (request : EngineRequest)
    (last : RequestOutput) (reason : FinishReason) (τs : List CoreTransition)
    (core : EngineCore) : Prop where
  added : request ∈ addedRequests τs
  ended : core.stopped = false → core.scheduler.request? request.requestId = none
  emitted_eq : ∃ body, emitted request.requestId τs = body ++ [last] ∧
    ∀ output ∈ body, output.finished = false ∧ output.finishReason = none
  last_finished : last.finished = true
  last_reason : last.finishReason = some reason
  verdict : Verdict config tokenizer request.requestId request.samplingParams τs reason
  no_eos : tokenizer.eosTokenId ∉ tokensOf (emitted request.requestId τs)
  length_le : (tokensOf (emitted request.requestId τs)).length ≤ request.samplingParams.maxTokens
  tokens_live : ∀ r, core.scheduler.request? request.requestId = some r →
    tokensOf (emitted request.requestId τs) = r.outputTokenIds
  tokens_ended : ∀ τ ∈ τs, ∀ r, Removes request.requestId τ r →
    tokensOf (emitted request.requestId τs) =
      finalTokens config tokenizer request.requestId τ r

/-- How far the stream of an id has come. -/
inductive Stage (config : EngineConfig) (tokenizer : Tokenizer) (id : RequestId)
    (τs : List CoreTransition) (core : EngineCore) : Prop where
  | silent (h : Silent config id τs core)
  | active (request : EngineRequest) (r : RequestState) (hid : request.requestId = id)
      (hreq : core.scheduler.request? id = some r) (h : Active config tokenizer request r τs)
  | closed (request : EngineRequest) (last : RequestOutput) (reason : FinishReason)
      (hid : request.requestId = id) (h : Closed config tokenizer request last reason τs core)

section Stages

variable {config : EngineConfig} {tokenizer : Tokenizer} {id : RequestId}
  {τs : List CoreTransition} {τ : CoreTransition}

@[simp] theorem tokensOf_append (outs outs' : List RequestOutput) :
    tokensOf (outs ++ outs') = tokensOf outs ++ tokensOf outs' := by
  simp [tokensOf]

@[simp] theorem tokensOf_singleton (output : RequestOutput) :
    tokensOf [output] = output.tokenIds := by
  simp [tokensOf]

theorem forall_mem_append_singleton {P : CoreTransition → Prop} (h : ∀ τ ∈ τs, P τ) (hτ : P τ) :
    ∀ τ' ∈ τs ++ [τ], P τ' := by
  intro τ' hmem
  rcases List.mem_append.mp hmem with hmem | hmem
  · exact h τ' hmem
  · rw [List.mem_singleton] at hmem
    exact hmem ▸ hτ

theorem exists_mem_append_singleton {P : CoreTransition → Prop} (hτ : P τ) :
    ∃ τ' ∈ τs ++ [τ], P τ' :=
  ⟨τ, by simp, hτ⟩

theorem not_stops_nil (params : SamplingParams) : ¬ Stops tokenizer params [] := by
  rintro ⟨front, last, heq, _⟩
  simp at heq

theorem stops_append_singleton {params : SamplingParams} {tokens : List TokenId} {token : TokenId} :
    Stops tokenizer params (tokens ++ [token]) ↔
      token = tokenizer.eosTokenId ∨ endsWithStop tokenizer params (tokens ++ [token]) = true := by
  constructor
  · rintro ⟨front, last, heq, h⟩
    obtain ⟨rfl, hlast⟩ := List.append_inj' heq rfl
    rw [List.cons.injEq] at hlast
    obtain rfl := hlast.1
    exact h
  · exact fun h => ⟨tokens, token, rfl, h⟩

theorem Verdict.quiet {params : SamplingParams} {reason : FinishReason}
    (h : Verdict config tokenizer id params τs reason) (hsampled : sampledToken id τ = [])
    (habort : ¬ AbortsLive id τ) (herr : ¬ Errs config id τ) :
    Verdict config tokenizer id params (τs ++ [τ]) reason := by
  have hsame : sampled id (τs ++ [τ]) = sampled id τs := by simp [hsampled]
  have hmem : ∀ P : CoreTransition → Prop, (∃ τ ∈ τs, P τ) → ∃ τ' ∈ τs ++ [τ], P τ' :=
    fun P ⟨τ', hτ', hP⟩ => ⟨τ', by simp [hτ'], hP⟩
  cases h with
  | abort ha he hs =>
      exact .abort (hmem _ ha) (forall_mem_append_singleton he herr) (hsame ▸ hs)
  | error ha he hs =>
      exact .error (forall_mem_append_singleton ha habort) (hmem _ he) (hsame ▸ hs)
  | stop ha he hs =>
      exact .stop (forall_mem_append_singleton ha habort) (forall_mem_append_singleton he herr)
        (hsame ▸ hs)
  | length ha he hs =>
      exact .length (forall_mem_append_singleton ha habort) (forall_mem_append_singleton he herr)
        (hsame ▸ hs)

theorem not_added_twice {request request' : EngineRequest}
    (honce : ((addedRequests (τs ++ [τ])).map (·.requestId)).Nodup)
    (h : request ∈ addedRequests τs) (h' : addedRequests [τ] = [request'])
    (hid : request.requestId = request'.requestId) : False := by
  rw [addedRequests_append, h', List.map_append, List.nodup_append] at honce
  exact honce.2.2 _ (List.mem_map.mpr ⟨request, h, rfl⟩) _ (by simp) hid

theorem Silent.step (h : Silent config id τs τ.pre)
    (hs : Signal config tokenizer id τ (τ.pre.scheduler.request? id) (outputsFor id τ.out)
      (τ.post.scheduler.request? id)) : Stage config tokenizer id (τs ++ [τ]) τ.post := by
  have hkept : ∀ τ' ∈ τs ++ [τ], ∀ r, ¬ Removes id τ' r := by
    refine forall_mem_append_singleton h.kept ?_
    rintro r ⟨hpre, _⟩
    rw [h.request?_eq] at hpre
    cases hpre
  rw [h.request?_eq] at hs
  generalize hout : outputsFor id τ.out = outs at hs
  generalize hpost : τ.post.scheduler.request? id = r'? at hs
  cases hs with
  | quiet count hadd hsampled habort herr =>
      refine .silent
        { added := ?_
          request?_eq := hpost
          emitted_eq := by simp [h.emitted_eq, hout]
          sampled_eq := by simp [h.sampled_eq, hsampled]
          not_aborted := forall_mem_append_singleton h.not_aborted habort
          not_failed := forall_mem_append_singleton h.not_failed herr
          kept := hkept }
      rw [addedRequests_append]
      intro request hrequest
      exact (List.mem_append.mp hrequest).elim (h.added request) (hadd request)
  | @opened request hid hadd hsampled habort herr =>
      subst hid
      exact .active request _ rfl hpost
        { added := by simp [hadd]
          params_eq := rfl
          open_outputs := by simp [h.emitted_eq, hout]
          tokens_eq := by simp [h.emitted_eq, hout, tokensOf, RequestState.ofRequest,
            RequestState.seat]
          sampled_eq := by simp [h.sampled_eq, hsampled, RequestState.ofRequest, RequestState.seat]
          no_eos := List.not_mem_nil
          length_lt := request.samplingParams.maxTokens_pos
          not_stopped := not_stops_nil _
          not_aborted := forall_mem_append_singleton h.not_aborted habort
          not_failed := forall_mem_append_singleton h.not_failed herr
          kept := hkept }
  | @refused request _ error hid hadd hsampled habort herr =>
      subst hid
      have hemitted : emitted request.requestId (τs ++ [τ]) =
          [] ++ [errorOutput request.requestId error] := by simp [h.emitted_eq, hout]
      have htokens : tokensOf (emitted request.requestId (τs ++ [τ])) = [] := by
        rw [hemitted]
        rfl
      exact .closed request _ .error rfl
        { added := by simp [hadd]
          ended := fun _ => hpost
          emitted_eq := ⟨[], hemitted, by simp⟩
          last_finished := rfl
          last_reason := rfl
          verdict := .error (forall_mem_append_singleton h.not_aborted habort)
            (exists_mem_append_singleton herr)
            (by simpa [h.sampled_eq, hsampled] using not_stops_nil _)
          no_eos := by rw [htokens]; exact List.not_mem_nil
          length_le := by rw [htokens]; exact Nat.zero_le _
          tokens_live := by
            intro r hr
            rw [hpost] at hr
            cases hr
          tokens_ended := fun τ' hτ' r hremoves => absurd hremoves (hkept τ' hτ' r) }

/-- The finished output of an active request closes its stream. -/
theorem Active.close {request : EngineRequest} {r : RequestState} {last : RequestOutput}
    {reason : FinishReason} (h : Active config tokenizer request r τs)
    (hpre : τ.pre.scheduler.request? request.requestId = some r)
    (hpost : τ.post.scheduler.request? request.requestId = none ∨
      (τ.post.stopped = true ∧ τ.post.scheduler.request? request.requestId = some r ∧
        last.tokenIds = []))
    (hout : outputsFor request.requestId τ.out = [last]) (hfinished : last.finished = true)
    (hreason : last.finishReason = some reason)
    (hverdict : Verdict config tokenizer request.requestId request.samplingParams (τs ++ [τ])
      reason)
    (hfinal : finalTokens config tokenizer request.requestId τ r =
      r.outputTokenIds ++ last.tokenIds)
    (heos : tokenizer.eosTokenId ∉ last.tokenIds) (hone : last.tokenIds.length ≤ 1) :
    Stage config tokenizer request.requestId (τs ++ [τ]) τ.post := by
  have htokens : tokensOf (emitted request.requestId (τs ++ [τ])) =
      r.outputTokenIds ++ last.tokenIds := by simp [hout, h.tokens_eq]
  exact .closed request last reason rfl
    { added := by simp [h.added]
      ended := by
        intro hloop
        rcases hpost with hnone | ⟨hstop, _⟩
        · exact hnone
        · simp [hstop] at hloop
      emitted_eq := ⟨emitted request.requestId τs, by simp [hout], h.open_outputs⟩
      last_finished := hfinished
      last_reason := hreason
      verdict := hverdict
      no_eos := by
        rw [htokens, List.mem_append, not_or]
        exact ⟨h.no_eos, heos⟩
      length_le := by
        have := h.length_lt
        rw [htokens, List.length_append]
        omega
      tokens_live := by
        intro r' hr'
        rcases hpost with hnone | ⟨_, hsome, hnil⟩
        · rw [hnone] at hr'
          cases hr'
        · obtain rfl : r = r' := Option.some.inj (hsome.symm.trans hr')
          rw [htokens, hnil, List.append_nil]
      tokens_ended := by
        refine forall_mem_append_singleton ?_ ?_
        · exact fun τ' hτ' r' hremoves => absurd hremoves (h.kept τ' hτ' r')
        · rintro r' ⟨hr', _⟩
          obtain rfl : r = r' := Option.some.inj (hpre.symm.trans hr')
          rw [htokens, hfinal] }

/-- The verdict when the last sampled token ends the request. -/
theorem Active.verdict {request : EngineRequest} {r r' : RequestState} {count : ℕ}
    {token : TokenId} {reason : FinishReason} (h : Active config tokenizer request r τs)
    (hsampled : sampledToken request.requestId τ = [token])
    (habort : ¬ AbortsLive request.requestId τ) (herr : ¬ Errs config request.requestId τ)
    (hsample : (r.advance count).sample config tokenizer token = (r', some reason)) :
    Verdict config tokenizer request.requestId request.samplingParams (τs ++ [τ]) reason := by
  have ha := forall_mem_append_singleton h.not_aborted habort
  have he := forall_mem_append_singleton h.not_failed herr
  have htokens : sampled request.requestId (τs ++ [τ]) = r.outputTokenIds ++ [token] := by
    simp [h.sampled_eq, hsampled]
  rcases RequestState.of_sample_eq_some hsample with
    ⟨heos, _, rfl⟩ | ⟨heos, _, ⟨rfl, hstop⟩ | ⟨rfl, hstop, _⟩⟩
  · refine .stop ha he ?_
    rw [htokens, stops_append_singleton]
    exact Or.inl heos
  · refine .stop ha he ?_
    rw [htokens, stops_append_singleton]
    exact Or.inr (h.params_eq ▸ hstop)
  · refine .length ha he ?_
    rw [htokens, stops_append_singleton, not_or, ← h.params_eq]
    exact ⟨heos, ne_true_of_eq_false hstop⟩

/-- The stage after a step from an active stage. -/
theorem Active.step {request : EngineRequest} {r : RequestState}
    (h : Active config tokenizer request r τs)
    (hpre : τ.pre.scheduler.request? request.requestId = some r)
    (honce : ((addedRequests (τs ++ [τ])).map (·.requestId)).Nodup)
    (hs : Signal config tokenizer request.requestId τ (τ.pre.scheduler.request? request.requestId)
      (outputsFor request.requestId τ.out) (τ.post.scheduler.request? request.requestId)) :
    Stage config tokenizer request.requestId (τs ++ [τ]) τ.post := by
  have hkept : ∀ r', τ.post.scheduler.request? request.requestId = some r' →
      ∀ τ' ∈ τs ++ [τ], ∀ r, ¬ Removes request.requestId τ' r := by
    intro r' hr'
    refine forall_mem_append_singleton h.kept ?_
    rintro r ⟨_, hnone⟩
    rw [hr'] at hnone
    cases hnone
  rw [hpre] at hs
  generalize hout : outputsFor request.requestId τ.out = outs at hs
  generalize hpost : τ.post.scheduler.request? request.requestId = r'? at hs
  cases hs with
  | quiet count hadd hsampled habort herr =>
      exact .active request (r.advance count) rfl hpost
        { h with
          added := by simp [h.added]
          open_outputs := by simpa [hout] using h.open_outputs
          tokens_eq := by simpa [hout, RequestState.advance] using h.tokens_eq
          sampled_eq := by simpa [hsampled, RequestState.advance] using h.sampled_eq
          not_aborted := forall_mem_append_singleton h.not_aborted habort
          not_failed := forall_mem_append_singleton h.not_failed herr
          kept := hkept _ hpost }
  | refused hid hadd => exact (not_added_twice honce h.added hadd hid.symm).elim
  | aborted hadd hsampled habort herr =>
      refine h.close hpre (Or.inl hpost) hout rfl rfl (.abort (exists_mem_append_singleton habort)
        (forall_mem_append_singleton h.not_failed herr) ?_) ?_ List.not_mem_nil (Nat.zero_le _)
      · simpa [h.sampled_eq, hsampled] using h.not_stopped
      · simp [finalTokens, hsampled, abortOutput]
  | failed hadd hsampled habort herr hended =>
      refine h.close hpre ?_ hout rfl rfl (.error (forall_mem_append_singleton h.not_aborted habort)
        (exists_mem_append_singleton herr) ?_) ?_ List.not_mem_nil (Nat.zero_le _)
      · rw [hpost]
        exact hended.imp_right (fun hstop => ⟨hstop.1, hstop.2, rfl⟩)
      · simpa [h.sampled_eq, hsampled] using h.not_stopped
      · simp [finalTokens, hsampled, errorOutput]
  | @token _ r' count token text metrics hadd hsampled habort herr hsample =>
      obtain ⟨heos, rfl, hstop, hlength, _⟩ := RequestState.of_sample_eq_none hsample
      have htokens : (tokenOutput tokenizer request.requestId token text none metrics).tokenIds =
          [token] := by simp [tokenOutput, heos]
      exact .active request _ rfl hpost
        { added := by simp [h.added]
          params_eq := h.params_eq
          open_outputs := by
            rw [emitted_append, emitted_singleton, hout]
            intro output houtput
            rcases List.mem_append.mp houtput with hmem | hmem
            · exact h.open_outputs output hmem
            · rw [List.mem_singleton] at hmem
              subst hmem
              exact ⟨rfl, rfl⟩
          tokens_eq := by simp [hout, h.tokens_eq, htokens, RequestState.advance]
          sampled_eq := by simp [hsampled, h.sampled_eq, RequestState.advance]
          no_eos := by simpa [RequestState.advance] using ⟨h.no_eos, Ne.symm heos⟩
          length_lt := by simpa [RequestState.advance, h.params_eq] using hlength
          not_stopped := by
            rw [stops_append_singleton, not_or, ← h.params_eq]
            exact ⟨heos, ne_true_of_eq_false hstop⟩
          not_aborted := forall_mem_append_singleton h.not_aborted habort
          not_failed := forall_mem_append_singleton h.not_failed herr
          kept := hkept _ hpost }
  | last hadd hsampled habort herr hsample =>
      refine h.close hpre (Or.inl hpost) hout rfl rfl (h.verdict hsampled habort herr hsample) ?_ ?_
        ?_
      · simp [finalTokens, hsampled, RequestState.sample_outputTokenIds, tokenOutput]
      · simp only [tokenOutput]
        split
        · exact List.not_mem_nil
        · rename_i heos
          simpa using Ne.symm heos
      · simp only [tokenOutput]
        split <;> simp

theorem Closed.step {request : EngineRequest} {last : RequestOutput} {reason : FinishReason}
    (h : Closed config tokenizer request last reason τs τ.pre) (hrun : τ.pre.stopped = false)
    (honce : ((addedRequests (τs ++ [τ])).map (·.requestId)).Nodup)
    (hs : Signal config tokenizer request.requestId τ (τ.pre.scheduler.request? request.requestId)
      (outputsFor request.requestId τ.out) (τ.post.scheduler.request? request.requestId)) :
    Stage config tokenizer request.requestId (τs ++ [τ]) τ.post := by
  have hpre := h.ended hrun
  rw [hpre] at hs
  generalize hout : outputsFor request.requestId τ.out = outs at hs
  generalize hpost : τ.post.scheduler.request? request.requestId = r'? at hs
  cases hs with
  | quiet count hadd hsampled habort herr =>
      have hsame : emitted request.requestId (τs ++ [τ]) = emitted request.requestId τs := by
        simp [hout]
      exact .closed request last reason rfl
        { added := by simp [h.added]
          ended := fun _ => hpost
          emitted_eq := hsame ▸ h.emitted_eq
          last_finished := h.last_finished
          last_reason := h.last_reason
          verdict := h.verdict.quiet hsampled habort herr
          no_eos := hsame ▸ h.no_eos
          length_le := hsame ▸ h.length_le
          tokens_live := by
            intro r hr
            rw [hpost] at hr
            cases hr
          tokens_ended := by
            rw [hsame]
            refine forall_mem_append_singleton h.tokens_ended ?_
            rintro r ⟨hr, _⟩
            rw [hpre] at hr
            cases hr }
  | opened hid hadd => exact (not_added_twice honce h.added hadd hid.symm).elim
  | refused hid hadd => exact (not_added_twice honce h.added hadd hid.symm).elim

end Stages

/-- Every run has brought every id to some stage. -/
theorem Trace.stage {config : EngineConfig} {tokenizer : Tokenizer} {τs : List CoreTransition}
    {core : EngineCore} (h : Trace config tokenizer τs core) (honce : (addedIds τs).Nodup)
    (id : RequestId) : Stage config tokenizer id τs core := by
  rw [addedIds_eq] at honce
  induction h with
  | nil =>
      refine .silent ⟨?_, rfl, rfl, rfl, ?_, ?_, ?_⟩ <;> simp [addedRequests]
  | @snoc τs core event messages core' hrun hstep ih =>
      have honce' : ((addedRequests τs).map (·.requestId)).Nodup := by
        rw [addedRequests_append, List.map_append] at honce
        exact (List.nodup_append.mp honce).1
      have hsettled := Trace.stable hrun hstep.running
      have hshare := (hstep.derivation (Trace.stable hrun)).1.request hsettled id
      have hsignal := RequestStep.signal hshare hsettled.request?_eq_none_iff hstep.running
      cases ih honce' with
      | silent hstage => exact hstage.step hsignal
      | active request r hid hreq hstage =>
          subst hid
          exact hstage.step (τ := ⟨core, event, messages, core'⟩) hreq honce hsignal
      | closed request last reason hid hstage =>
          subst hid
          exact hstage.step (τ := ⟨core, event, messages, core'⟩) hstep.running honce hsignal

/-! ## Well-formed streams -/

/-- The stream of a request that was added once. -/
structure WellFormedStream (config : EngineConfig) (tokenizer : Tokenizer)
    (τs : List CoreTransition) (core : EngineCore) (request : EngineRequest) : Prop where
  shape : ∃ body tail, emitted request.requestId τs = body ++ tail ∧
    (∀ output ∈ body, output.finished = false) ∧
    (tail = [] ∨ ∃ last, tail = [last] ∧ last.finished = true)
  finished_iff : core.stopped = false →
    ((∃ output ∈ emitted request.requestId τs, output.finished = true) ↔
      request.requestId ∉ core.scheduler.waiting.map (·.requestId) ∧
        request.requestId ∉ core.scheduler.running.keys)
  tokens_live : ∀ r, core.scheduler.request? request.requestId = some r →
    tokensOf (emitted request.requestId τs) = r.outputTokenIds
  tokens_ended : ∀ τ ∈ τs, ∀ r, Removes request.requestId τ r →
    tokensOf (emitted request.requestId τs) =
      finalTokens config tokenizer request.requestId τ r
  no_eos : tokenizer.eosTokenId ∉ tokensOf (emitted request.requestId τs)
  length_le : (tokensOf (emitted request.requestId τs)).length ≤ request.samplingParams.maxTokens
  reason_iff_finished : ∀ output ∈ emitted request.requestId τs,
    output.finishReason.isSome = output.finished
  abort_iff : (∃ output ∈ emitted request.requestId τs, output.finishReason = some .abort) ↔
    ∃ τ ∈ τs, AbortsLive request.requestId τ
  error_iff : (∃ output ∈ emitted request.requestId τs, output.finishReason = some .error) ↔
    ∃ τ ∈ τs, Errs config request.requestId τ
  stop_iff : (∃ output ∈ emitted request.requestId τs, output.finishReason = some .stop) ↔
    Stops tokenizer request.samplingParams (sampled request.requestId τs)
  length_iff : (∃ output ∈ emitted request.requestId τs, output.finishReason = some .length) ↔
    (∃ output ∈ emitted request.requestId τs, output.finished = true) ∧
      (¬ ∃ τ ∈ τs, AbortsLive request.requestId τ) ∧ (¬ ∃ τ ∈ τs, Errs config request.requestId τ) ∧
      ¬ Stops tokenizer request.samplingParams (sampled request.requestId τs)

section WellFormed

variable {config : EngineConfig} {tokenizer : Tokenizer} {τs : List CoreTransition}
  {core : EngineCore} {request : EngineRequest}

theorem Settled.dead_iff {s : Scheduler} (h : s.Settled config) {id : RequestId} :
    s.request? id = none ↔ id ∉ s.waiting.map (·.requestId) ∧ id ∉ s.running.keys := by
  rw [h.request?_eq_none_iff, Live, not_or, and_comm]

theorem Active.wellFormed {r : RequestState} (h : Active config tokenizer request r τs)
    (hstable : core.Stable config) (hreq : core.scheduler.request? request.requestId = some r) :
    WellFormedStream config tokenizer τs core request := by
  have hnone : ∀ reason, ¬ ∃ output ∈ emitted request.requestId τs,
      output.finishReason = some reason := by
    rintro reason ⟨output, houtput, hreason⟩
    rw [(h.open_outputs output houtput).2] at hreason
    cases hreason
  have hopen : ¬ ∃ output ∈ emitted request.requestId τs, output.finished = true := by
    rintro ⟨output, houtput, hfinished⟩
    rw [(h.open_outputs output houtput).1] at hfinished
    cases hfinished
  have habort : ¬ ∃ τ ∈ τs, AbortsLive request.requestId τ :=
    fun ⟨τ, hτ, ha⟩ => h.not_aborted τ hτ ha
  have herr : ¬ ∃ τ ∈ τs, Errs config request.requestId τ :=
    fun ⟨τ, hτ, he⟩ => h.not_failed τ hτ he
  exact
    { shape := ⟨emitted request.requestId τs, [], by simp, fun o ho => (h.open_outputs o ho).1,
        Or.inl rfl⟩
      finished_iff := by
        intro hloop
        refine iff_of_false hopen ?_
        rw [← Settled.dead_iff (hstable hloop), hreq]
        simp
      tokens_live := by
        intro r' hr'
        obtain rfl : r = r' := Option.some.inj (hreq.symm.trans hr')
        exact h.tokens_eq
      tokens_ended := fun τ hτ r' hremoves => absurd hremoves (h.kept τ hτ r')
      no_eos := h.tokens_eq ▸ h.no_eos
      length_le := h.tokens_eq ▸ h.length_lt.le
      reason_iff_finished := by
        intro output houtput
        obtain ⟨hfinished, hreason⟩ := h.open_outputs output houtput
        rw [hfinished, hreason]
        rfl
      abort_iff := iff_of_false (hnone _) habort
      error_iff := iff_of_false (hnone _) herr
      stop_iff := iff_of_false (hnone _) (h.sampled_eq ▸ h.not_stopped)
      length_iff := iff_of_false (hnone _) (fun hlength => hopen hlength.1) }

theorem Closed.reason_iff {last : RequestOutput} {reason : FinishReason}
    (h : Closed config tokenizer request last reason τs core) (reason' : FinishReason) :
    (∃ output ∈ emitted request.requestId τs, output.finishReason = some reason') ↔
      reason = reason' := by
  obtain ⟨body, hemitted, hbody⟩ := h.emitted_eq
  rw [hemitted]
  constructor
  · rintro ⟨output, houtput, hreason⟩
    rcases List.mem_append.mp houtput with hmem | hmem
    · rw [(hbody output hmem).2] at hreason
      cases hreason
    · rw [List.mem_singleton] at hmem
      rw [hmem, h.last_reason] at hreason
      exact Option.some.inj hreason
  · rintro rfl
    exact ⟨last, by simp, h.last_reason⟩

theorem Closed.wellFormed {last : RequestOutput} {reason : FinishReason}
    (h : Closed config tokenizer request last reason τs core) (hstable : core.Stable config) :
    WellFormedStream config tokenizer τs core request := by
  obtain ⟨body, hemitted, hbody⟩ := h.emitted_eq
  have hfinished : ∃ output ∈ emitted request.requestId τs, output.finished = true :=
    ⟨last, by simp [hemitted], h.last_finished⟩
  have hverdict := h.verdict
  exact
    { shape := ⟨body, [last], hemitted, fun o ho => (hbody o ho).1,
        Or.inr ⟨last, rfl, h.last_finished⟩⟩
      finished_iff := fun hloop => iff_of_true hfinished
        ((Settled.dead_iff (hstable hloop)).mp (h.ended hloop))
      tokens_live := h.tokens_live
      tokens_ended := h.tokens_ended
      no_eos := h.no_eos
      length_le := h.length_le
      reason_iff_finished := by
        rw [hemitted]
        intro output houtput
        rcases List.mem_append.mp houtput with hmem | hmem
        · rw [(hbody output hmem).1, (hbody output hmem).2]
          rfl
        · rw [List.mem_singleton] at hmem
          rw [hmem, h.last_finished, h.last_reason]
          rfl
      abort_iff := by
        rw [h.reason_iff]
        cases hverdict <;> simp_all
      error_iff := by
        rw [h.reason_iff]
        cases hverdict <;> simp_all
      stop_iff := by
        rw [h.reason_iff]
        cases hverdict <;> simp_all
      length_iff := by
        rw [h.reason_iff]
        cases hverdict <;> simp_all }

end WellFormed

/-- Every stream of every run is well formed, and ids that were never added have none. -/
theorem streams_wellFormed {config : EngineConfig} {tokenizer : Tokenizer}
    {τs : List CoreTransition} {core : EngineCore} (h : Trace config tokenizer τs core)
    (honce : (addedIds τs).Nodup) :
    (∀ request ∈ addedRequests τs, WellFormedStream config tokenizer τs core request) ∧
      ∀ id ∉ addedIds τs, emitted id τs = [] := by
  have hstable := Trace.stable h
  have hsame : ∀ request ∈ addedRequests τs, ∀ request' ∈ addedRequests τs,
      request'.requestId = request.requestId → request' = request := by
    intro request hrequest request' hrequest' hid
    rw [addedIds_eq] at honce
    exact List.inj_on_of_nodup_map honce hrequest' hrequest hid
  refine ⟨fun request hrequest => ?_, fun id hid => ?_⟩
  · cases Trace.stage h honce request.requestId with
    | silent hstage => exact absurd rfl (hstage.added request hrequest)
    | active request' r hid hreq hstage =>
        obtain rfl := hsame request hrequest request' hstage.added hid
        exact hstage.wellFormed hstable hreq
    | closed request' last reason hid hstage =>
        obtain rfl := hsame request hrequest request' hstage.added hid
        exact hstage.wellFormed hstable
  · rw [addedIds_eq] at hid
    cases Trace.stage h honce id with
    | silent hstage => exact hstage.emitted_eq
    | active request' r hid' hreq hstage =>
        exact absurd (List.mem_map.mpr ⟨request', hstage.added, hid'⟩) hid
    | closed request' last reason hid' hstage =>
        exact absurd (List.mem_map.mpr ⟨request', hstage.added, hid'⟩) hid

theorem streams_wellFormed_mixed : ∃ τs core, Trace smallConfig characterTokenizer τs core ∧
    addedIds τs = ["a", "b"] ∧
    ((∀ request ∈ addedRequests τs,
        WellFormedStream smallConfig characterTokenizer τs core request) ∧
      ∀ id ∉ addedIds τs, emitted id τs = []) := by
  have hsome : (drive smallConfig characterTokenizer mixedEvents).map
      (fun run => addedIds run.1) = some ["a", "b"] := by decide +kernel
  obtain ⟨⟨τs, core⟩, hdrive, hadded⟩ := Option.map_eq_some_iff.mp hsome
  have htrace : Trace smallConfig characterTokenizer τs core := drive_trace hdrive (by decide)
  have honce : (addedIds τs).Nodup := by
    rw [hadded]
    decide
  exact ⟨τs, core, htrace, hadded, streams_wellFormed htrace honce⟩

end EngineCore

end MiniVLLM
