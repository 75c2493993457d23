import MiniVLLM.Verification.Engine.Conservation
import MiniVLLM.Verification.Worker.Batch

/-! # Positions of a request

With a Worker that samples exactly what it was asked to, the items of a request tile its
positions, and sampling happens only at the end of the known sequence. -/

namespace MiniVLLM

open KVCacheManager Scheduler

namespace EngineCore

/-! ## Honest Workers -/

/-- An answer has a token for exactly the items that sample, unless it reports an error. -/
def HonestAnswer (items : List WorkerItem) (result : WorkerResult) : Prop :=
  result.failed = true ∨
    ∀ item ∈ items, (result.sampledTokenIds.get? item.requestId).isSome = item.shouldSample

instance (items : List WorkerItem) (result : WorkerResult) :
    Decidable (HonestAnswer items result) := by
  unfold HonestAnswer
  infer_instance

/-- The assumptions on one event: added prompts are not empty, and the answer to the batch
that was sent is honest. -/
def HonestEvent (core : EngineCore) (messages : List CoreMessage) : Event → Prop
  | .command (.add request) => request.promptTokenIds ≠ []
  | .engineStep incoming =>
      match answer? (core.batchId + 1) incoming with
      | some result => result.batchId ≠ -1 → HonestAnswer (itemsOf messages) result
      | none => True
  | _ => True

instance (core : EngineCore) (messages : List CoreMessage) (event : Event) :
    Decidable (HonestEvent core messages event) := by
  unfold HonestEvent
  split
  · infer_instance
  · split <;> infer_instance
  · infer_instance

structure HonestStep (config : EngineConfig) (tokenizer : Tokenizer) (core : EngineCore)
    (event : Event) (messages : List CoreMessage) (core' : EngineCore) : Prop
    extends Step config tokenizer core event messages core' where
  honest : HonestEvent core messages event

abbrev HonestTrace (config : EngineConfig) (tokenizer : Tokenizer) (τs : List CoreTransition)
    (core : EngineCore) : Prop :=
  Run (HonestStep config tokenizer) (init config) τs core

theorem HonestTrace.trace {config : EngineConfig} {tokenizer : Tokenizer}
    {τs : List CoreTransition} {core : EngineCore} (h : HonestTrace config tokenizer τs core) :
    Trace config tokenizer τs core :=
  h.mono (fun _ _ _ _ hstep => hstep.toStep)

theorem drive_honest {config : EngineConfig} {tokenizer : Tokenizer} {events : List Event}
    {τs : List CoreTransition} {core : EngineCore}
    (h : drive config tokenizer events = some (τs, core))
    (hranked : ∀ event ∈ events, event.Ranked)
    (hhonest : ∀ τ ∈ τs, HonestEvent τ.pre τ.out τ.event) :
    HonestTrace config tokenizer τs core := by
  refine Run.of_execute h (fun τ hτ hstep => ⟨⟨hranked _ ?_, hstep⟩, hhonest τ hτ⟩)
  rw [← Run.execute_events h]
  exact List.mem_map.mpr ⟨τ, hτ, rfl⟩

/-! ## The phase of a request -/

/-- Part of the prompt is left to compute, or everything but the last output token is
computed. -/
def Phased (r : RequestState) : Prop :=
  (r.outputTokenIds = [] ∧ r.numComputedTokens < r.promptTokenIds.length) ∨
    (r.outputTokenIds ≠ [] ∧
      r.numComputedTokens = r.promptTokenIds.length + r.outputTokenIds.length - 1)

section Phases

variable {config : EngineConfig} {m m' : KVCacheManager} {r : RequestState} {item : WorkerItem}

/-- A decode item has one token, the last one known, and samples. -/
theorem Phased.decode_item (h : Phased r) (hissued : Issued config m m' r item)
    (hgenerated : 0 < item.generatedCount) :
    item.tokenIds.length = 1 ∧ item.shouldSample = true := by
  have hstart := hissued.start_lt
  have hle := hissued.seqLen_le
  have hlen := hissued.length_tokenIds
  rw [RequestState.length_allTokenIds] at hle
  rw [hissued.startPos_eq] at hstart hlen
  rw [hissued.generatedCount_eq] at hgenerated
  rcases h with ⟨hnil, _⟩ | ⟨_, hcomputed⟩
  · simp [hnil] at hgenerated
  · refine ⟨by omega, ?_⟩
    rw [hissued.shouldSample_eq, decide_eq_true_iff, RequestState.length_allTokenIds]
    omega

/-- A prefill item samples exactly when it reaches the end of the prompt. -/
theorem Phased.prefill_item (hissued : Issued config m m' r item)
    (hgenerated : item.generatedCount = 0) :
    item.shouldSample = true ↔ item.seqLen = r.promptTokenIds.length := by
  rw [hissued.generatedCount_eq, List.length_eq_zero_iff] at hgenerated
  rw [hissued.shouldSample_eq, decide_eq_true_iff, RequestState.length_allTokenIds, hgenerated,
    List.length_nil, Nat.add_zero]

theorem Phased.advance (h : Phased r) (hissued : Issued config m m' r item)
    (hsample : item.shouldSample = false) : Phased (r.advance item.tokenIds.length) := by
  have hstart := hissued.start_lt
  have hle := hissued.seqLen_le
  have hend := hissued.start_add_length
  have hne : item.seqLen ≠ r.allTokenIds.length := by
    simpa [hissued.shouldSample_eq] using hsample
  rw [RequestState.length_allTokenIds] at hle hne
  rw [hissued.startPos_eq] at hstart hend
  rcases h with ⟨hnil, hcomputed⟩ | ⟨hsome, hcomputed⟩
  · refine Or.inl ⟨hnil, ?_⟩
    simp only [RequestState.advance, hnil, List.length_nil] at hle hne ⊢
    omega
  · omega

/-- The item of a request that samples computes everything known; the new token is left. -/
theorem Phased.extend {tokenizer : Tokenizer} {token : TokenId} {r' : RequestState}
    (hissued : Issued config m m' r item) (hsample : item.shouldSample = true)
    (hr' : (r.advance item.tokenIds.length).sample config tokenizer token = (r', none)) :
    Phased r' := by
  obtain ⟨_, rfl, _⟩ := RequestState.of_sample_eq_none hr'
  have hend := hissued.start_add_length
  rw [hissued.shouldSample_eq, decide_eq_true_iff, RequestState.length_allTokenIds] at hsample
  rw [hissued.startPos_eq] at hend
  refine Or.inr ⟨by simp, ?_⟩
  simp only [RequestState.advance, List.length_append, List.length_singleton]
  omega

end Phases

/-! ## One step -/

section Steps

variable {config : EngineConfig} {tokenizer : Tokenizer} {core core' : EngineCore}
  {event : Event} {messages : List CoreMessage} {id : RequestId}

theorem mem_itemsFor {item : WorkerItem} (h : item ∈ itemsOf messages) :
    item ∈ itemsFor item.requestId messages :=
  List.mem_filter.mpr ⟨h, by simp⟩

theorem RequestStep.issued {r? r'? : Option RequestState} {items : List WorkerItem}
    {outs : List RequestOutput}
    (h : RequestStep config tokenizer id core core' event r? items outs r'?) {item : WorkerItem}
    (hitem : item ∈ items) : ∃ r m m', r? = some r ∧ Issued config m m' r item := by
  cases h with
  | keep => simp at hitem
  | accept => simp at hitem
  | reject => simp at hitem
  | abort => simp at hitem
  | answer _ _ _ _ _ hissued =>
      rw [List.mem_singleton] at hitem
      exact ⟨_, _, _, rfl, hitem ▸ hissued⟩
  | fail _ _ _ _ _ hissued =>
      rw [List.mem_singleton] at hitem
      exact ⟨_, _, _, rfl, hitem ▸ hissued⟩
  | crash _ _ _ hitems =>
      rcases hitems with rfl | ⟨item', m, m', rfl, _, hissued⟩
      · simp at hitem
      · rw [List.mem_singleton] at hitem
        exact ⟨_, m, m', rfl, hitem ▸ hissued⟩

/-- In a run with honest Workers, an item whose batch did not fail got a token exactly if it
samples. -/
theorem HonestStep.token_iff (h : HonestStep config tokenizer core event messages core')
    {incoming : List WorkerResult} {result : WorkerResult} {item : WorkerItem}
    (hevent : event = .engineStep incoming)
    (hanswer : answer? (core.batchId + 1) incoming = some result) (hstarted : result.batchId ≠ -1)
    (hok : result.failed = false) (hitems : itemsFor id messages = [item]) :
    (result.sampledTokenIds.get? item.requestId).isSome = item.shouldSample := by
  have hmem : item ∈ itemsOf messages := by
    have : item ∈ itemsFor id messages := by simp [hitems]
    exact (List.mem_filter.mp this).1
  have hhonest := h.honest
  rw [hevent, HonestEvent, hanswer] at hhonest
  rcases hhonest hstarted with hfailed | hall
  · rw [hok] at hfailed
    cases hfailed
  · exact hall item hmem

theorem RequestStep.phased {r? r'? : Option RequestState} {outs : List RequestOutput}
    (h : RequestStep config tokenizer id core core' event r? (itemsFor id messages) outs r'?)
    (hstep : HonestStep config tokenizer core event messages core')
    (hpre : ∀ r, r? = some r → Phased r) : ∀ r', r'? = some r' → Phased r' := by
  intro r' hr'
  generalize hitems : itemsFor id messages = items at h
  cases h with
  | keep => exact hpre r' hr'
  | @accept request hid hnew hfits =>
      cases hr'
      exact Or.inl ⟨rfl, List.length_pos_of_ne_nil hstep.honest⟩
  | reject => exact hpre r' hr'
  | abort => cases hr'
  | @answer incoming result r item outs r'? m m' hloop hanswer hstarted hok hid hissued houtcome =>
      have htoken := hstep.token_iff rfl hanswer hstarted hok hitems
      cases houtcome with
      | advance htok =>
          cases hr'
          rw [htok] at htoken
          exact (hpre r rfl).advance hissued htoken.symm
      | extend htok hsample =>
          cases hr'
          rw [htok] at htoken
          exact Phased.extend hissued htoken.symm hsample
      | finish => cases hr'
  | fail => cases hr'
  | crash => exact hpre r' hr'

theorem length_lt_of_extend {r r' : RequestState} {item : WorkerItem} {m m' : KVCacheManager}
    {token : TokenId} (hissued : Issued config m m' r item) (hsample : item.shouldSample = true)
    (hr' : (r.advance item.tokenIds.length).sample config tokenizer token = (r', none)) :
    r'.allTokenIds.length < config.contextLimit := by
  obtain ⟨_, rfl, _, _, hlimit⟩ := RequestState.of_sample_eq_none hr'
  have hend := hissued.start_add_length
  rw [hissued.shouldSample_eq, decide_eq_true_iff] at hsample
  rw [hissued.startPos_eq] at hend
  simp only [RequestState.advance, RequestState.length_allTokenIds, List.length_append,
    List.length_singleton] at *
  omega

theorem RequestStep.length_lt {r? r'? : Option RequestState} {outs : List RequestOutput}
    (h : RequestStep config tokenizer id core core' event r? (itemsFor id messages) outs r'?)
    (hstep : HonestStep config tokenizer core event messages core')
    (hpre : ∀ r, r? = some r → r.allTokenIds.length < config.contextLimit) :
    ∀ r', r'? = some r' → r'.allTokenIds.length < config.contextLimit := by
  intro r' hr'
  generalize hitems : itemsFor id messages = items at h
  cases h with
  | keep => exact hpre r' hr'
  | @accept request hid hnew hfits =>
      cases hr'
      simpa [RequestState.seat, RequestState.ofRequest, RequestState.allTokenIds] using hfits
  | reject => exact hpre r' hr'
  | abort => cases hr'
  | @answer incoming result r item outs r'? m m' hloop hanswer hstarted hok hid hissued houtcome =>
      have htoken := hstep.token_iff rfl hanswer hstarted hok hitems
      cases houtcome with
      | advance htok =>
          cases hr'
          exact hpre r rfl
      | extend htok hsample =>
          cases hr'
          rw [htok] at htoken
          exact length_lt_of_extend hissued htoken.symm hsample
      | finish => cases hr'
  | fail => cases hr'
  | crash => exact hpre r' hr'

end Steps

theorem HonestTrace.length_lt {config : EngineConfig} {tokenizer : Tokenizer}
    {τs : List CoreTransition} {core : EngineCore} (h : HonestTrace config tokenizer τs core)
    (id : RequestId) (r : RequestState) (hr : core.scheduler.request? id = some r) :
    r.allTokenIds.length < config.contextLimit := by
  induction h generalizing r with
  | nil => simp [request?, init, Scheduler.init] at hr
  | @snoc τs core event messages core' hrun hstep ih =>
      have hstable := Trace.stable (HonestTrace.trace hrun)
      have hshare := (hstep.toStep.derivation hstable).1.request (hstable hstep.toStep.running) id
      exact RequestStep.length_lt hshare hstep ih r hr

/-- Between steps, every live request is in a phase. -/
theorem HonestTrace.phased {config : EngineConfig} {tokenizer : Tokenizer}
    {τs : List CoreTransition} {core : EngineCore} (h : HonestTrace config tokenizer τs core)
    (id : RequestId) (r : RequestState) (hr : core.scheduler.request? id = some r) :
    Phased r := by
  induction h generalizing r with
  | nil => simp [request?, init, Scheduler.init] at hr
  | @snoc τs core event messages core' hrun hstep ih =>
      have hstable := Trace.stable (HonestTrace.trace hrun)
      have hshare := (hstep.toStep.derivation hstable).1.request (hstable hstep.toStep.running) id
      exact RequestStep.phased hshare hstep ih r hr

/-! ## Items tile the positions -/

/-- The items cover the positions from `start` to `stop`, one range after the other. -/
def Tiles : ℕ → List WorkerItem → ℕ → Prop
  | start, [], stop => start = stop
  | start, item :: items, stop =>
      item.startPos = start ∧ item.startPos < item.seqLen ∧ Tiles item.seqLen items stop

theorem Tiles.append_singleton {start mid : ℕ} {items : List WorkerItem} {item : WorkerItem}
    (h : Tiles start items mid) (hstart : item.startPos = mid) (hlt : item.startPos < item.seqLen) :
    Tiles start (items ++ [item]) item.seqLen := by
  induction items generalizing start with
  | nil =>
      obtain rfl : start = mid := h
      exact ⟨hstart, hlt, rfl⟩
  | cons first items ih =>
      obtain ⟨hfirst, hpos, hrest⟩ := h
      exact ⟨hfirst, hpos, ih hrest⟩

section Tiling

variable {config : EngineConfig} {tokenizer : Tokenizer} {core core' : EngineCore}
  {event : Event} {messages : List CoreMessage} {id : RequestId}

theorem RequestStep.of_accepts {r? r'? : Option RequestState} {items : List WorkerItem}
    {outs : List RequestOutput}
    (h : RequestStep config tokenizer id core core' event r? items outs r'?)
    (haccept : Accepts config ⟨core, event, messages, core'⟩ id) :
    ∃ r, r'? = some r ∧ r.numComputedTokens = 0 := by
  obtain ⟨request, hevent, hid, hnew, hfits⟩ := accepts_iff.mp haccept
  dsimp only at hevent hnew
  subst hevent
  cases h with
  | keep hadd => exact absurd hid (hadd request rfl)
  | accept => exact ⟨_, rfl, rfl⟩
  | reject hid' hreject =>
      cases hreject with
      | duplicate hdup => exact absurd (hid ▸ hdup) hnew
      | tooLong _ hlong => omega

/-- One step extends a tiling that ends where the request stands. -/
theorem RequestStep.tiles {r? r'? : Option RequestState} {items : List WorkerItem}
    {outs : List RequestOutput}
    (h : RequestStep config tokenizer id core core' event r? items outs r'?)
    (hno : ¬ Accepts config ⟨core, event, messages, core'⟩ id) {prior : List WorkerItem} {stop : ℕ}
    (hprior : Tiles 0 prior stop) (hstop : ∀ r, r? = some r → stop = r.numComputedTokens) :
    ∃ stop', Tiles 0 (prior ++ items) stop' ∧
      (core'.stopped = false → ∀ r, r'? = some r → stop' = r.numComputedTokens) := by
  cases h with
  | keep => exact ⟨stop, by rwa [List.append_nil], fun _ => hstop⟩
  | @accept request hid hnew hfits =>
      exact absurd (accepts_iff.mpr ⟨request, rfl, hid, hid ▸ hnew, hfits⟩) hno
  | reject => exact ⟨stop, by rwa [List.append_nil], fun _ => hstop⟩
  | abort => exact ⟨stop, by rwa [List.append_nil], fun _ _ hr => by cases hr⟩
  | @answer incoming result r item outs r'? m m' _ _ _ _ _ hissued houtcome =>
      have hstart : item.startPos = stop := hissued.startPos_eq.trans (hstop r rfl).symm
      refine ⟨item.seqLen, hprior.append_singleton hstart hissued.start_lt, fun _ r' hr' => ?_⟩
      have hend := hissued.start_add_length
      rw [hissued.startPos_eq] at hend
      cases houtcome with
      | advance =>
          cases hr'
          exact hend.symm
      | extend _ hsample =>
          cases hr'
          obtain ⟨_, rfl, _⟩ := RequestState.of_sample_eq_none hsample
          exact hend.symm
      | finish => cases hr'
  | @fail incoming result r item m m' _ _ _ _ _ hissued =>
      have hstart : item.startPos = stop := hissued.startPos_eq.trans (hstop r rfl).symm
      exact ⟨item.seqLen, hprior.append_singleton hstart hissued.start_lt,
        fun _ _ hr' => by cases hr'⟩
  | @crash incoming result r items hhalt _ _ hitems =>
      rcases hitems with rfl | ⟨item, m, m', rfl, _, hissued⟩
      · exact ⟨stop, by rwa [List.append_nil], fun hloop => by simp [hhalt] at hloop⟩
      · have hstart : item.startPos = stop := hissued.startPos_eq.trans (hstop r rfl).symm
        exact ⟨item.seqLen, hprior.append_singleton hstart hissued.start_lt,
          fun hloop => by simp [hhalt] at hloop⟩

end Tiling

/-- The items issued for a request since it was accepted tile its computed positions. -/
theorem Trace.tiles {config : EngineConfig} {tokenizer : Tokenizer} {τs : List CoreTransition}
    {core : EngineCore} (h : Trace config tokenizer τs core) {id : RequestId}
    {before after : List CoreTransition} {τ : CoreTransition} (hsplit : τs = before ++ τ :: after)
    (haccept : Accepts config τ id) (hlatest : ∀ τ' ∈ after, ¬ Accepts config τ' id) :
    ∃ stop, Tiles 0 (itemsFor id (Run.outputs after)) stop ∧
      (core.stopped = false → ∀ r, core.scheduler.request? id = some r →
        stop = r.numComputedTokens) := by
  induction h generalizing before τ after with
  | nil => simp at hsplit
  | @snoc τs core event messages core' hrun hstep ih =>
      have hstable := Trace.stable hrun
      have hshare := (hstep.derivation hstable).1.request (hstable hstep.running) id
      rcases List.append_singleton_eq_append_cons_iff.mp hsplit with
        ⟨_, rfl, rfl⟩ | ⟨mid, rfl, hfront⟩
      · obtain ⟨r, hr, hzero⟩ := RequestStep.of_accepts hshare haccept
        refine ⟨0, rfl, fun _ r' hr' => ?_⟩
        obtain rfl : r = r' := Option.some.inj (hr.symm.trans hr')
        exact hzero.symm
      · obtain ⟨stop, hprior, hstop⟩ := ih hfront haccept
          (fun τ' hτ' => hlatest τ' (by simp [hτ']))
        obtain ⟨stop', htiles, hstop'⟩ := RequestStep.tiles hshare
          (hlatest ⟨core, event, messages, core'⟩ (by simp)) hprior (hstop hstep.running)
        refine ⟨stop', ?_, hstop'⟩
        rw [Run.outputs_append, itemsFor_append, Run.outputs_singleton]
        exact htiles

theorem HonestTrace.item {config : EngineConfig} {tokenizer : Tokenizer}
    {τs : List CoreTransition} {core : EngineCore} (h : HonestTrace config tokenizer τs core)
    {τ : CoreTransition} (hτ : τ ∈ τs) {item : WorkerItem} (hitem : item ∈ itemsOf τ.out) :
    ∃ r m m', τ.pre.scheduler.request? item.requestId = some r ∧ Phased r ∧
      Issued config m m' r item := by
  obtain ⟨⟨τs', hrun⟩, hstep⟩ := h.transition_mem hτ
  have hstable := Trace.stable (HonestTrace.trace hrun)
  have hshare := (hstep.toStep.derivation hstable).1.request (hstable hstep.toStep.running)
    item.requestId
  obtain ⟨r, m, m', hr, hissued⟩ := RequestStep.issued hshare (mem_itemsFor hitem)
  exact ⟨r, m, m', hr, HonestTrace.phased hrun _ r hr, hissued⟩

/-- Every position is computed once, and sampling happens at the end of what is known. -/
structure ComputedOnce (config : EngineConfig) (τs : List CoreTransition) (core : EngineCore) :
    Prop where
  tiles : ∀ id before τ after, τs = before ++ τ :: after → Accepts config τ id →
    (∀ τ' ∈ after, ¬ Accepts config τ' id) →
      ∃ stop, Tiles 0 (itemsFor id (Run.outputs after)) stop
  tokens : ∀ τ ∈ τs, ∀ item ∈ itemsOf τ.out, ∃ r,
    τ.pre.scheduler.request? item.requestId = some r ∧
      item.tokenIds = (r.allTokenIds.take item.seqLen).drop item.startPos ∧
      item.generatedCount = r.outputTokenIds.length ∧
      (item.generatedCount = 0 →
        (item.shouldSample = true ↔ item.seqLen = r.promptTokenIds.length))
  phase : core.stopped = false → ∀ id r, core.scheduler.running.get? id = some r →
    (r.outputTokenIds = [] ∧ r.numComputedTokens < r.promptTokenIds.length) ∨
      (r.outputTokenIds ≠ [] ∧
        r.numComputedTokens = r.promptTokenIds.length + r.outputTokenIds.length - 1)
  decode_items : ∀ τ ∈ τs, ∀ item ∈ itemsOf τ.out, 0 < item.generatedCount →
    item.tokenIds.length = 1 ∧ item.shouldSample = true
  is_decode : ∀ τ ∈ τs, ∀ rank batch, CoreMessage.batch rank batch ∈ τ.out →
    ∃ input, GPUInputBatch.fromWorkerBatch batch config.blockSize = .ok input ∧
      input.isDecode = batch.items.map (fun item => decide (0 < item.generatedCount))

theorem positions_computed_once {config : EngineConfig} {tokenizer : Tokenizer}
    {τs : List CoreTransition} {core : EngineCore} (h : HonestTrace config tokenizer τs core) :
    ComputedOnce config τs core where
  tiles := by
    intro id before τ after hsplit haccept hlatest
    obtain ⟨stop, htiles, _⟩ := Trace.tiles (HonestTrace.trace h) hsplit haccept hlatest
    exact ⟨stop, htiles⟩
  tokens := by
    intro τ hτ item hitem
    obtain ⟨r, m, m', hr, _, hissued⟩ := HonestTrace.item h hτ hitem
    refine ⟨r, hr, ?_, hissued.generatedCount_eq, Phased.prefill_item hissued⟩
    rw [hissued.tokenIds_eq, List.drop_take]
  phase := by
    intro _ id r hr
    exact HonestTrace.phased h id r (request?_of_running hr)
  decode_items := by
    intro τ hτ item hitem hgenerated
    obtain ⟨r, m, m', _, hphased, hissued⟩ := HonestTrace.item h hτ hitem
    exact hphased.decode_item hissued hgenerated
  is_decode := by
    intro τ hτ rank batch hbatch
    obtain ⟨⟨τs', hrun⟩, hstep⟩ := h.transition_mem hτ
    have hstable := Trace.stable (HonestTrace.trace hrun)
    obtain ⟨_, _, hne, hitems, _⟩ := (hstep.toStep.derivation hstable).1.batch hbatch
    have hissued : ∀ item ∈ batch.items, ∃ r m m', Phased r ∧ Issued config m m' r item := by
      intro item hitem
      obtain ⟨r, m, m', _, hphased, hissued⟩ := HonestTrace.item h hτ (hitems ▸ hitem)
      exact ⟨r, m, m', hphased, hissued⟩
    refine ⟨_, GPUInputBatch.fromWorkerBatch_eq batch config.blockSize_pos hne ?_, ?_⟩
    · intro item hitem
      obtain ⟨_, _, _, _, hi⟩ := hissued item hitem
      exact hi.valid
    · refine List.map_congr_left fun item hitem => ?_
      obtain ⟨r, m, m', hphased, hi⟩ := hissued item hitem
      by_cases hgenerated : 0 < item.generatedCount
      · simp [(hphased.decode_item hi hgenerated).1, hgenerated]
      · simp [hgenerated]

/-- A prompt in two chunks beside a decoding request. -/
def chunkedEvents : List Event :=
  [.command (.add (requestOf "a" [10])), .engineStep [answerOf 1 [("a", 20)]],
    .command (.add (requestOf "b" [11, 12, 13, 14, 15])), .engineStep [answerOf 2 [("a", 21)]],
    .engineStep [answerOf 3 [("a", 22), ("b", 23)]]]

theorem positions_computed_once_chunked : ∃ τs core,
    HonestTrace smallConfig characterTokenizer τs core ∧
      (itemsFor "b" (Run.outputs τs)).map (fun item => (item.startPos, item.seqLen)) =
        [(0, 3), (3, 5)] ∧ ComputedOnce smallConfig τs core := by
  have hsome : (drive smallConfig characterTokenizer chunkedEvents).map
      (fun run => (decide (∀ τ ∈ run.1, HonestEvent τ.pre τ.out τ.event),
        (itemsFor "b" (Run.outputs run.1)).map (fun item => (item.startPos, item.seqLen)))) =
      some (true, [(0, 3), (3, 5)]) := by decide +kernel
  obtain ⟨⟨τs, core⟩, hdrive, hrun⟩ := Option.map_eq_some_iff.mp hsome
  obtain ⟨hhonest, hitems⟩ := Prod.mk.inj hrun
  have htrace : HonestTrace smallConfig characterTokenizer τs core :=
    drive_honest hdrive (by decide) (of_decide_eq_true hhonest)
  exact ⟨τs, core, htrace, hitems, positions_computed_once htrace⟩

end EngineCore

end MiniVLLM
