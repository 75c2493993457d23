import MiniVLLM.Verification.Engine.Streams
import MiniVLLM.Verification.Engine.Positions

/-! # What a request adds to its batches

Every token of an item counts as prefill or as decode. A request that is sampled to its end
adds its prompt as prefill, in however many chunks, and one decode token for each sampled
token but the first. -/

namespace MiniVLLM

open KVCacheManager Scheduler

namespace WorkerItem

def isDecode (item : WorkerItem) : Bool :=
  decide (item.tokenIds.length = 1) && decide (0 < item.generatedCount)

def decodeTokens (item : WorkerItem) : ℕ := if item.isDecode then item.tokenIds.length else 0

def prefillTokens (item : WorkerItem) : ℕ := if item.isDecode then 0 else item.tokenIds.length

theorem prefillTokens_add_decodeTokens (item : WorkerItem) :
    item.prefillTokens + item.decodeTokens = item.tokenIds.length := by
  unfold prefillTokens decodeTokens
  split_ifs <;> simp

end WorkerItem

namespace GPUInputBatch

variable {blockSize : ℕ} (batch : WorkerBatch)

theorem numTokens_ofItems : (ofItems blockSize batch).numTokens =
    (batch.items.map fun item => item.tokenIds.length).sum := by
  simp [numTokens, ofItems, ofLists, listsOf, List.length_flatten, Function.comp_def]

theorem numDecodeTokens_ofItems : (ofItems blockSize batch).numDecodeTokens =
    (batch.items.map (·.decodeTokens)).sum := by
  rw [numDecodeTokens]
  congr 1
  refine List.ext_getElem (by simp [ofItems, ofLists, listsOf]) fun i hi _ => ?_
  have hitem : i < (batch.items.map (·.tokenIds)).length := by
    simpa [ofItems, ofLists, listsOf] using hi
  have hdiff := Ragged.starts_succ_sub hitem
  rw [List.getElem_map] at hdiff
  simp only [ofItems, ofLists, listsOf, List.getElem_map, List.getElem_zipIdx, Nat.zero_add, hdiff]
  rfl

theorem sum_prefillTokens_add_sum_decodeTokens (items : List WorkerItem) :
    (items.map (·.prefillTokens)).sum + (items.map (·.decodeTokens)).sum =
      (items.map fun item => item.tokenIds.length).sum := by
  rw [← List.sum_map_add]
  exact congrArg List.sum (List.map_congr_left fun item _ => item.prefillTokens_add_decodeTokens)

theorem numPrefillTokens_ofItems : (ofItems blockSize batch).numPrefillTokens =
    (batch.items.map (·.prefillTokens)).sum := by
  rw [numPrefillTokens, numTokens_ofItems, numDecodeTokens_ofItems,
    ← sum_prefillTokens_add_sum_decodeTokens, Nat.add_sub_cancel]

theorem numTokens_split : (ofItems blockSize batch).numTokens =
    (ofItems blockSize batch).numPrefillTokens + (ofItems blockSize batch).numDecodeTokens := by
  rw [numTokens_ofItems, numPrefillTokens_ofItems, numDecodeTokens_ofItems,
    sum_prefillTokens_add_sum_decodeTokens]

end GPUInputBatch

namespace EngineCore

/-- The tokens of the items that count as prefill, and those that count as decode. -/
def prefillSum (items : List WorkerItem) : ℕ := (items.map (·.prefillTokens)).sum

def decodeSum (items : List WorkerItem) : ℕ := (items.map (·.decodeTokens)).sum

/-- The Worker executed the batch of the step. -/
def Executes (τ : CoreTransition) : Prop :=
  ∃ incoming result, τ.event = .engineStep incoming ∧
    answer? (τ.pre.batchId + 1) incoming = some result ∧ result.batchId ≠ -1 ∧
      result.failed = false

/-- An output that ends a request by its own tokens. -/
def Completes (output : RequestOutput) : Prop :=
  output.finishReason = some .stop ∨ output.finishReason = some .length

/-- How far a request has come since it was accepted with a prompt of the given length. -/
inductive Standing (id : RequestId) (prompt : ℕ) (τs : List CoreTransition) (core : EngineCore) :
    Prop where
  | prefilling (r : RequestState) (hreq : core.scheduler.request? id = some r)
      (hprompt : r.promptTokenIds.length = prompt) (houtput : r.outputTokenIds = [])
      (hsampled : sampled id τs = [])
      (hprefill : prefillSum (itemsFor id (Run.outputs τs)) = r.numComputedTokens)
      (hdecode : decodeSum (itemsFor id (Run.outputs τs)) = 0)
      (hexecuted : ∀ τ ∈ τs, itemsFor id τ.out ≠ [] → Executes τ)
      (hopen : ∀ output ∈ emitted id τs, ¬ Completes output)
  | decoding (r : RequestState) (hreq : core.scheduler.request? id = some r)
      (houtput : r.outputTokenIds ≠ [])
      (hsampled : (sampled id τs).length = r.outputTokenIds.length)
      (hprefill : prefillSum (itemsFor id (Run.outputs τs)) = prompt)
      (hdecode : decodeSum (itemsFor id (Run.outputs τs)) + 1 = r.outputTokenIds.length)
      (hexecuted : ∀ τ ∈ τs, itemsFor id τ.out ≠ [] → Executes τ)
      (hopen : ∀ output ∈ emitted id τs, ¬ Completes output)
  | completed (hreq : core.scheduler.request? id = none)
      (hprefill : prefillSum (itemsFor id (Run.outputs τs)) = prompt)
      (hdecode : decodeSum (itemsFor id (Run.outputs τs)) + 1 = (sampled id τs).length)
      (hexecuted : ∀ τ ∈ τs, itemsFor id τ.out ≠ [] → Executes τ)
  | cut (hreq : core.stopped = true ∨ core.scheduler.request? id = none)
      (hopen : ∀ output ∈ emitted id τs, ¬ Completes output)

section Step

variable {config : EngineConfig} {tokenizer : Tokenizer} {id : RequestId} {prompt : ℕ}
  {τs : List CoreTransition} {core core' : EngineCore} {event : Event}
  {messages : List CoreMessage}

theorem prefillSum_append_singleton (τ : CoreTransition) :
    prefillSum (itemsFor id (Run.outputs (τs ++ [τ]))) =
      prefillSum (itemsFor id (Run.outputs τs)) + prefillSum (itemsFor id τ.out) := by
  simp [prefillSum]

theorem decodeSum_append_singleton (τ : CoreTransition) :
    decodeSum (itemsFor id (Run.outputs (τs ++ [τ]))) =
      decodeSum (itemsFor id (Run.outputs τs)) + decodeSum (itemsFor id τ.out) := by
  simp [decodeSum]

theorem not_completes_append_singleton {τ : CoreTransition}
    (h : ∀ output ∈ emitted id τs, ¬ Completes output)
    (hout : ∀ output ∈ outputsFor id τ.out, ¬ Completes output) :
    ∀ output ∈ emitted id (τs ++ [τ]), ¬ Completes output := by
  intro output hmem
  rw [emitted_append, emitted_singleton] at hmem
  rcases List.mem_append.mp hmem with hmem | hmem
  · exact h output hmem
  · exact hout output hmem

theorem executed_append_singleton {τ : CoreTransition}
    (h : ∀ τ ∈ τs, itemsFor id τ.out ≠ [] → Executes τ)
    (hτ : itemsFor id τ.out ≠ [] → Executes τ) :
    ∀ τ' ∈ τs ++ [τ], itemsFor id τ'.out ≠ [] → Executes τ' :=
  forall_mem_append_singleton h hτ

theorem Standing.quiet {τ : CoreTransition} (h : Standing id prompt τs τ.pre)
    (hrun : τ.pre.stopped = false) (hitems : itemsFor id τ.out = [])
    (hout : ∀ output ∈ outputsFor id τ.out, ¬ Completes output)
    (hreq : τ.post.scheduler.request? id = τ.pre.scheduler.request? id) :
    Standing id prompt (τs ++ [τ]) τ.post := by
  have hsampled : sampled id (τs ++ [τ]) = sampled id τs := by
    simp [sampledToken_of_items_nil hitems]
  have hprefill : prefillSum (itemsFor id (Run.outputs (τs ++ [τ]))) =
      prefillSum (itemsFor id (Run.outputs τs)) := by
    rw [prefillSum_append_singleton, hitems]
    rfl
  have hdecode : decodeSum (itemsFor id (Run.outputs (τs ++ [τ]))) =
      decodeSum (itemsFor id (Run.outputs τs)) := by
    rw [decodeSum_append_singleton, hitems]
    rfl
  cases h with
  | prefilling r hr hprompt houtput hs hp hd hexecuted hopen =>
      exact .prefilling r (hreq.trans hr) hprompt houtput (hsampled.trans hs) (hprefill.trans hp)
        (hdecode.trans hd) (executed_append_singleton hexecuted (absurd hitems))
        (not_completes_append_singleton hopen hout)
  | decoding r hr houtput hs hp hd hexecuted hopen =>
      exact .decoding r (hreq.trans hr) houtput (by rw [hsampled, hs]) (hprefill.trans hp)
        (by rw [hdecode, hd]) (executed_append_singleton hexecuted (absurd hitems))
        (not_completes_append_singleton hopen hout)
  | completed hr hp hd hexecuted =>
      exact .completed (hreq.trans hr) (hprefill.trans hp) (by rw [hdecode, hsampled, hd])
        (executed_append_singleton hexecuted (absurd hitems))
  | cut hr hopen =>
      have hnone := hr.resolve_left (by simp [hrun])
      exact .cut (Or.inr (hreq.trans hnone)) (not_completes_append_singleton hopen hout)

theorem Standing.open_of_live (h : Standing id prompt τs core) {r : RequestState}
    (hr : core.scheduler.request? id = some r) :
    ∀ output ∈ emitted id τs, ¬ Completes output := by
  cases h with
  | prefilling _ _ _ _ _ _ _ _ hopen => exact hopen
  | decoding _ _ _ _ _ _ _ hopen => exact hopen
  | completed hreq =>
      rw [hr] at hreq
      cases hreq
  | cut hreq hopen => exact hopen

theorem not_isDecode_of_prefill {r : RequestState} {item : WorkerItem} {m m' : KVCacheManager}
    (hissued : Issued config m m' r item) (houtput : r.outputTokenIds = []) :
    item.isDecode = false := by
  simp [WorkerItem.isDecode, hissued.generatedCount_eq, houtput]

theorem isDecode_of_decode {r : RequestState} {item : WorkerItem} {m m' : KVCacheManager}
    (hissued : Issued config m m' r item) (hphased : Phased r) (houtput : r.outputTokenIds ≠ []) :
    item.isDecode = true ∧ item.tokenIds.length = 1 ∧ item.shouldSample = true := by
  have hgenerated : 0 < item.generatedCount := by
    rw [hissued.generatedCount_eq]
    exact List.length_pos_of_ne_nil houtput
  obtain ⟨hlength, hsample⟩ := hphased.decode_item hissued hgenerated
  exact ⟨by simp [WorkerItem.isDecode, hlength, hgenerated], hlength, hsample⟩

/-- The answer to an item of a live request. -/
theorem Standing.answer {r : RequestState} {r'? : Option RequestState} {item : WorkerItem}
    {m m' : KVCacheManager} {incoming : List WorkerResult} {result : WorkerResult}
    {outs : List RequestOutput} (h : Standing id prompt τs core) (hrun : core.stopped = false)
    (hr : core.scheduler.request? id = some r) (hphased : Phased r)
    (hissued : Issued config m m' r item) (hid : item.requestId = id)
    (hexecutes : Executes ⟨core, .engineStep incoming, messages, core'⟩)
    (htoken : (result.sampledTokenIds.get? item.requestId).isSome = item.shouldSample)
    (hsampledToken : sampledToken id ⟨core, .engineStep incoming, messages, core'⟩ =
      (result.sampledTokenIds.get? id).toList)
    (houtcome : ItemOutcome config tokenizer result r item outs r'?)
    (hitems : itemsFor id messages = [item]) (houts : outputsFor id messages = outs)
    (hr' : core'.scheduler.request? id = r'?) :
    Standing id prompt (τs ++ [⟨core, .engineStep incoming, messages, core'⟩]) core' := by
  have hprefill : prefillSum (itemsFor id
      (Run.outputs (τs ++ [⟨core, .engineStep incoming, messages, core'⟩]))) =
        prefillSum (itemsFor id (Run.outputs τs)) + item.prefillTokens := by
    simp [prefillSum, hitems]
  have hdecode : decodeSum (itemsFor id
      (Run.outputs (τs ++ [⟨core, .engineStep incoming, messages, core'⟩]))) =
        decodeSum (itemsFor id (Run.outputs τs)) + item.decodeTokens := by
    simp [decodeSum, hitems]
  have hsampled : sampled id (τs ++ [⟨core, .engineStep incoming, messages, core'⟩]) =
      sampled id τs ++ (result.sampledTokenIds.get? id).toList := by
    rw [sampled_append, sampled_singleton, hsampledToken]
  have hexecuted : (∀ τ ∈ τs, itemsFor id τ.out ≠ [] → Executes τ) →
      ∀ τ ∈ τs ++ [⟨core, .engineStep incoming, messages, core'⟩], itemsFor id τ.out ≠ [] →
        Executes τ := fun h => executed_append_singleton h (fun _ => hexecutes)
  have hopen : (∀ output ∈ outs, ¬ Completes output) → (∀ output ∈ emitted id τs, ¬ Completes output) →
      ∀ output ∈ emitted id (τs ++ [⟨core, .engineStep incoming, messages, core'⟩]),
        ¬ Completes output := by
    intro hnone h
    exact not_completes_append_singleton h (by rwa [show outputsFor id _ = outs from houts])
  have hend := hissued.start_add_length
  rw [hissued.startPos_eq] at hend
  subst hid
  cases h with
  | prefilling r₀ hr₀ hprompt houtput hs hp hd hex hop =>
      obtain rfl : r₀ = r := Option.some.inj (hr₀.symm.trans hr)
      have hkind := not_isDecode_of_prefill hissued houtput
      have hitemPrefill : item.prefillTokens = item.tokenIds.length := by
        simp [WorkerItem.prefillTokens, hkind]
      have hitemDecode : item.decodeTokens = 0 := by simp [WorkerItem.decodeTokens, hkind]
      have hgenerated : item.generatedCount = 0 := by simp [hissued.generatedCount_eq, houtput]
      have hlast := Phased.prefill_item hissued hgenerated
      rw [hp, hitemPrefill, hend] at hprefill
      rw [hd, hitemDecode] at hdecode
      cases houtcome with
      | advance htok =>
          rw [htok, hs] at hsampled
          exact .prefilling _ hr' hprompt houtput hsampled (hprefill.trans hend.symm) hdecode
            (hexecuted hex) (hopen (by simp) hop)
      | @extend token r' htok hsample =>
          rw [htok] at htoken hsampled
          obtain ⟨_, rfl, _⟩ := RequestState.of_sample_eq_none hsample
          rw [hlast.mp htoken.symm, hprompt] at hprefill
          refine .decoding _ hr' (by simp) ?_ hprefill ?_ (hexecuted hex) (hopen ?_ hop)
          · simp [hsampled, hs, RequestState.advance, houtput]
          · rw [hdecode]
            simp [RequestState.advance, houtput]
          · simp [Completes, tokenOutput]
      | finish htok hsample =>
          rw [htok] at htoken hsampled
          rw [hlast.mp htoken.symm, hprompt] at hprefill
          refine .completed hr' hprefill ?_ (hexecuted hex)
          rw [hdecode, hsampled, hs]
          rfl
  | decoding r₀ hr₀ houtput hs hp hd hex hop =>
      obtain rfl : r₀ = r := Option.some.inj (hr₀.symm.trans hr)
      obtain ⟨hkind, hlength, hsampling⟩ := isDecode_of_decode hissued hphased houtput
      have hitemPrefill : item.prefillTokens = 0 := by simp [WorkerItem.prefillTokens, hkind]
      have hitemDecode : item.decodeTokens = 1 := by simp [WorkerItem.decodeTokens, hkind, hlength]
      rw [hitemPrefill, Nat.add_zero, hp] at hprefill
      rw [hitemDecode] at hdecode
      cases houtcome with
      | advance htok =>
          rw [htok, hsampling] at htoken
          cases htoken
      | @extend token r' htok hsample =>
          rw [htok] at hsampled
          obtain ⟨_, rfl, _⟩ := RequestState.of_sample_eq_none hsample
          refine .decoding _ hr' (by simp) ?_ hprefill ?_ (hexecuted hex) (hopen ?_ hop)
          · simp [hsampled, hs, RequestState.advance]
          · simp only [RequestState.advance, List.length_append, List.length_singleton]
            omega
          · simp [Completes, tokenOutput]
      | finish htok hsample =>
          rw [htok] at hsampled
          refine .completed hr' hprefill ?_ (hexecuted hex)
          rw [hsampled, List.length_append, hs, hdecode]
          simp only [Option.toList_some, List.length_singleton]
          omega
  | completed hreq =>
      rw [hr] at hreq
      cases hreq
  | cut hreq =>
      rw [hrun, hr] at hreq
      simp at hreq

theorem Standing.step (h : Standing id prompt τs core)
    (hshare : RequestStep config tokenizer id core core' event (core.scheduler.request? id)
      (itemsFor id messages) (outputsFor id messages) (core'.scheduler.request? id))
    (hstep : HonestStep config tokenizer core event messages core')
    (hphased : ∀ r, core.scheduler.request? id = some r → Phased r)
    (hno : ¬ Accepts config ⟨core, event, messages, core'⟩ id) :
    Standing id prompt (τs ++ [⟨core, event, messages, core'⟩]) core' := by
  have hrun := hstep.toStep.running
  have hcut : ∀ {r output}, core.scheduler.request? id = some r →
      outputsFor id messages = [output] → ¬ Completes output →
      core'.stopped = true ∨ core'.scheduler.request? id = none →
      Standing id prompt (τs ++ [⟨core, event, messages, core'⟩]) core' := by
    intro r output hr hout hcompletes hpost
    refine .cut hpost (not_completes_append_singleton (h.open_of_live hr) ?_)
    intro output' hmem
    rw [show outputsFor id messages = [output] from hout, List.mem_singleton] at hmem
    exact hmem ▸ hcompletes
  generalize hr : core.scheduler.request? id = r? at hshare hcut
  generalize hr' : core'.scheduler.request? id = r'? at hshare hcut
  generalize hitems : itemsFor id messages = items at hshare
  generalize hout : outputsFor id messages = outs at hshare hcut
  cases hshare with
  | keep =>
      refine Standing.quiet (τ := ⟨core, event, messages, core'⟩) h hrun hitems ?_ (hr'.trans hr.symm)
      rw [show outputsFor id messages = [] from hout]
      simp
  | accept hid hnew hfits =>
      exact absurd (accepts_iff.mpr ⟨_, rfl, hid, hid ▸ hnew, hfits⟩) hno
  | @reject request error r? hid =>
      refine Standing.quiet h hrun hitems ?_ (hr'.trans hr.symm)
      rw [show outputsFor id messages = [errorOutput id error.message] from hout]
      simp [Completes, errorOutput]
  | abort => exact hcut rfl rfl (by simp [Completes, abortOutput]) (Or.inr rfl)
  | @answer incoming result r item outs r'? m m' hloop hanswer hstarted hok hid hissued houtcome =>
      exact h.answer hrun hr (hphased r hr) hissued hid
        ⟨incoming, result, rfl, hanswer, hstarted, hok⟩
        (hstep.token_iff rfl hanswer hstarted hok hitems)
        (sampledToken_of_answer core' hitems hanswer hstarted hok) houtcome hitems hout hr'
  | fail => exact hcut rfl rfl (by simp [Completes, errorOutput]) (Or.inr rfl)
  | crash hstop => exact hcut rfl rfl (by simp [Completes, errorOutput]) (Or.inl hstop)

end Step

/-! ## Runs -/

section Runs

variable {config : EngineConfig} {tokenizer : Tokenizer} {τs : List CoreTransition}
  {core : EngineCore}

theorem RequestStep.accepted {id : RequestId} {core core' : EngineCore} {messages : List CoreMessage}
    {request : EngineRequest} {r? r'? : Option RequestState} {items : List WorkerItem}
    {outs : List RequestOutput}
    (h : RequestStep config tokenizer id core core' (.command (.add request)) r? items outs r'?)
    (haccept : Accepts config ⟨core, .command (.add request), messages, core'⟩ id) :
    r'? = some (RequestState.ofRequest request).seat := by
  obtain ⟨request', hevent, hid, hnew, hfits⟩ := accepts_iff.mp haccept
  obtain rfl := EngineCommand.add.inj (Event.command.inj hevent)
  cases h with
  | keep hadd => exact absurd hid (hadd request rfl)
  | accept => rfl
  | reject hid' hreject =>
      cases hreject with
      | duplicate hdup => exact absurd (hid ▸ hdup) hnew
      | tooLong _ hlong => omega

/-- Where a request stands since it was accepted. -/
theorem HonestTrace.standing (h : HonestTrace config tokenizer τs core) {request : EngineRequest}
    {before after : List CoreTransition} {τ : CoreTransition} (hsplit : τs = before ++ τ :: after)
    (hevent : τ.event = .command (.add request)) (haccept : Accepts config τ request.requestId)
    (hlatest : ∀ τ' ∈ after, ¬ Accepts config τ' request.requestId) :
    Standing request.requestId request.promptTokenIds.length after core := by
  induction h generalizing before τ after with
  | nil => simp at hsplit
  | @snoc τs core event messages core' hrun hstep ih =>
      have hstable := Trace.stable (HonestTrace.trace hrun)
      have hshare := (hstep.toStep.derivation hstable).1.request (hstable hstep.toStep.running)
        request.requestId
      rcases List.append_singleton_eq_append_cons_iff.mp hsplit with
        ⟨_, rfl, rfl⟩ | ⟨mid, rfl, hfront⟩
      · dsimp only at hevent
        subst hevent
        have hr := RequestStep.accepted hshare haccept
        exact .prefilling _ hr rfl rfl rfl rfl rfl (by simp) (by simp [emitted])
      · exact (ih hfront hevent haccept (fun τ' hτ' => hlatest τ' (by simp [hτ']))).step hshare hstep
          (fun r hr => HonestTrace.phased hrun _ r hr) (hlatest _ (by simp))

/-- What a completed request added to its batches. -/
structure Contribution (id : RequestId) (prompt : ℕ) (after : List CoreTransition) : Prop where
  prefill_eq : prefillSum (itemsFor id (Run.outputs after)) = prompt
  decode_eq : decodeSum (itemsFor id (Run.outputs after)) = (sampled id after).length - 1
  sampled_pos : 0 < (sampled id after).length
  executed : ∀ τ ∈ after, itemsFor id τ.out ≠ [] → Executes τ

theorem HonestTrace.contribution (h : HonestTrace config tokenizer τs core)
    {request : EngineRequest} {before after : List CoreTransition} {τ : CoreTransition}
    (hsplit : τs = before ++ τ :: after) (hevent : τ.event = .command (.add request))
    (haccept : Accepts config τ request.requestId)
    (hlatest : ∀ τ' ∈ after, ¬ Accepts config τ' request.requestId) {output : RequestOutput}
    (houtput : output ∈ emitted request.requestId after) (hcompletes : Completes output) :
    Contribution request.requestId request.promptTokenIds.length after := by
  cases HonestTrace.standing h hsplit hevent haccept hlatest with
  | prefilling _ _ _ _ _ _ _ _ hopen => exact absurd hcompletes (hopen output houtput)
  | decoding _ _ _ _ _ _ _ hopen => exact absurd hcompletes (hopen output houtput)
  | completed _ hprefill hdecode hexecuted =>
      exact ⟨hprefill, by omega, by omega, hexecuted⟩
  | cut _ hopen => exact absurd hcompletes (hopen output houtput)

end Runs

end EngineCore

end MiniVLLM
