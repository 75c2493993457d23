import MiniVLLM.Verification.Worker.Greedy

/-! # What a batch samples

The Llama runner executes every batch that is scheduled, and picks the token of each item that
samples from the logits that the model gives to everything known of its request. -/

namespace MiniVLLM

open KVCacheManager Scheduler EngineCore

variable {Hidden Query KeyValue Attention Logits : Type}
  {runner : LlamaModelRunner Hidden Query KeyValue Attention Logits}

def LlamaModelRunner.pick (runner : LlamaModelRunner Hidden Query KeyValue Attention Logits)
    (temperature : ℚ) (row : Logits) : TokenId :=
  if temperature = 0 then runner.argmax row else runner.multinomial row temperature

/-- Each item that samples gets a token from the last row of its request, and no other item. -/
def LlamaModelRunner.Samples (runner : LlamaModelRunner Hidden Query KeyValue Attention Logits)
    (s : Scheduler) (items : List WorkerItem) (sampled : Dict RequestId TokenId) : Prop :=
  ∀ item ∈ items, ∃ request, s.running.get? item.requestId = some request ∧
    sampled.get? item.requestId =
      if item.shouldSample then
        some (runner.pick item.temperature (runner.model.logitsAt request.allTokenIds
          (request.allTokenIds.length - 1)))
      else none

/-! ## One batch -/

section Execution

variable {state : RunnerState KeyValue Logits} {input : GPUInputBatch}

/-- What an execution is, once the metadata is built. -/
theorem LlamaModelRunner.execute_eq {metadata : AttentionMetadata}
    (hmetadata : runner.metadata input = .ok metadata) :
    runner.execute state input =
      (runner.sampleLogits (runner.model.forward input.inputIds input.positions metadata
          state.caches).1 (sampleRows input) .empty,
        { state with
          caches := (runner.model.forward input.inputIds input.positions metadata
            state.caches).2 }) := by
  rw [execute, BatchExecution.ofPy, run_executeModel hmetadata]
  cases runner.sampleLogits (runner.model.forward input.inputIds input.positions metadata
    state.caches).1 (sampleRows input) .empty <;> rfl

end Execution

section Rows

variable {logits : List Logits} {rows : List (RequestId × ℤ × ℚ)} {blockSize : ℕ}

theorem LlamaModelRunner.exists_sampleLogits (sampled : Dict RequestId TokenId)
    (hrows : ∀ row ∈ rows, 0 ≤ row.2.1 → row.2.1.toNat < logits.length)
    (hnodup : (rows.map (·.1)).Nodup) :
    ∃ sampled', runner.sampleLogits logits rows sampled = .ok sampled' ∧
      (∀ id ∉ rows.map (·.1), sampled'.get? id = sampled.get? id) ∧
      ∀ id sampleIndex temperature, (id, sampleIndex, temperature) ∈ rows →
        (sampleIndex < 0 → sampled'.get? id = sampled.get? id) ∧
        (0 ≤ sampleIndex → ∃ row, logits[sampleIndex.toNat]? = some row ∧
          sampled'.get? id = some (runner.pick temperature row)) := by
  induction rows generalizing sampled with
  | nil => exact ⟨sampled, rfl, fun _ _ => rfl, fun _ _ _ hmem => nomatch hmem⟩
  | cons entry rows ih =>
      obtain ⟨id, sampleIndex, temperature⟩ := entry
      obtain ⟨hfresh, hnodup⟩ := List.nodup_cons.mp hnodup
      have hrest := fun row hrow => hrows row (List.mem_cons_of_mem _ hrow)
      rw [sampleLogits]
      by_cases hneg : sampleIndex < 0
      · rw [if_pos hneg]
        obtain ⟨sampled', hsample, hothers, hsampled⟩ := ih sampled hrest hnodup
        refine ⟨sampled', hsample, fun id' hid' => hothers id' fun hmem =>
          hid' (List.mem_cons_of_mem _ hmem), fun id' sampleIndex' temperature' hmem => ?_⟩
        rcases List.mem_cons.mp hmem with heq | hmem
        · obtain ⟨rfl, rfl, rfl⟩ : id' = id ∧ sampleIndex' = sampleIndex ∧
            temperature' = temperature := by simpa using heq
          exact ⟨fun _ => hothers _ hfresh, fun hpos => absurd hneg (not_lt.mpr hpos)⟩
        · exact hsampled id' sampleIndex' temperature' hmem
      · rw [if_neg hneg]
        have hlt := hrows _ List.mem_cons_self (not_lt.mp hneg)
        rw [List.getElem?_eq_getElem hlt]
        obtain ⟨sampled', hsample, hothers, hsampled⟩ :=
          ih (sampled.set id (runner.pick temperature logits[sampleIndex.toNat])) hrest hnodup
        refine ⟨sampled', hsample, fun id' hid' => ?_,
          fun id' sampleIndex' temperature' hmem => ?_⟩
        · obtain ⟨hne, hid'⟩ := not_or.mp (fun hmem => hid' (List.mem_cons.mpr hmem))
          rw [hothers id' hid', Dict.get?_set_of_ne _ _ hne]
        · rcases List.mem_cons.mp hmem with heq | htail
          · obtain ⟨rfl, rfl, rfl⟩ : id' = id ∧ sampleIndex' = sampleIndex ∧
              temperature' = temperature := by simpa using heq
            refine ⟨fun hneg' => absurd hneg' hneg, fun _ => ⟨_, List.getElem?_eq_getElem hlt, ?_⟩⟩
            rw [hothers _ hfresh, Dict.get?_set_self]
          · have hne : id' ≠ id := by
              rintro rfl
              exact hfresh (List.mem_map.mpr ⟨_, htail, rfl⟩)
            have hset := hsampled id' sampleIndex' temperature' htail
            rwa [Dict.get?_set_of_ne _ _ hne] at hset

theorem LlamaModelRunner.exists_sampleRow_of_item {items : List WorkerItem} {batchId r : ℕ}
    {item : WorkerItem} (hpos : 0 < blockSize) (hvalid : ∀ item ∈ items, ValidItem blockSize item)
    (hitem : items[r]? = some item) :
    ∃ sampleIndex : ℤ, (item.requestId, sampleIndex, item.temperature) ∈
        sampleRows (GPUInputBatch.ofItems blockSize ⟨batchId, items⟩) ∧
      ((item.shouldSample = false ∧ sampleIndex < 0) ∨ (item.shouldSample = true ∧ 0 ≤ sampleIndex ∧
        sampleIndex.toNat = (GPUInputBatch.ofItems blockSize ⟨batchId, items⟩).queryStartLoc.getD r 0 +
          (item.tokenIds.length - 1))) := by
  have hrow := GPUInputBatch.rowSpec_ofItems hpos (show ∀ item ∈ (WorkerBatch.mk batchId items).items,
    ValidItem blockSize item from hvalid) hitem
  obtain ⟨hlt, hget⟩ := List.getElem?_eq_some_iff.mp hitem
  have hmem : ∀ sampleIndex : ℤ, (GPUInputBatch.ofItems blockSize
      ⟨batchId, items⟩).sampleIndices[r]? = some sampleIndex →
        (item.requestId, sampleIndex, item.temperature) ∈
          sampleRows (GPUInputBatch.ofItems blockSize ⟨batchId, items⟩) := by
    intro sampleIndex hindex
    have hid : (items.map (·.requestId))[r]? = some item.requestId := by
      rw [List.getElem?_map, hitem, Option.map_some]
    have htemperature : (items.map (·.temperature))[r]? = some item.temperature := by
      rw [List.getElem?_map, hitem, Option.map_some]
    exact List.mem_iff_getElem?.mpr ⟨r, List.getElem?_zip_eq_some.mpr
      ⟨hid, List.getElem?_zip_eq_some.mpr ⟨hindex, htemperature⟩⟩⟩
  rcases hrow.sampleIndex with ⟨hshould, hnone⟩ | ⟨hshould, last, hlast, hend, _⟩
  · exact ⟨-1, hmem _ hnone, Or.inl ⟨hshould, by decide⟩⟩
  · refine ⟨last, hmem _ hlast, Or.inr ⟨hshould, Int.natCast_nonneg last, ?_⟩⟩
    have htokens := List.length_pos_of_ne_nil (hvalid item (List.mem_of_getElem? hitem)).tokenIds_ne
    have hlength := Ragged.starts_succ_sub
      (show r < (items.map (·.tokenIds)).length by simpa using hlt)
    rw [List.getElem_map, hget] at hlength
    replace hend : last + 1 = (Ragged.starts (items.map (·.tokenIds))).getD (r + 1) 0 := hend
    show Int.toNat last = (Ragged.starts (items.map (·.tokenIds))).getD r 0 + _
    rw [Int.toNat_natCast]
    omega

end Rows

section Scheduled

variable {config : EngineConfig} {s admitted : Scheduler} {items : List WorkerItem}
  {m' : KVCacheManager} {caches caches' : List (LayerCache KeyValue)} {logits : List Logits}

theorem Scheduler.Scheduled.exists_samples (hs : Scheduled config s admitted items m')
    (hne : items ≠ []) (batchId : ℕ)
    (hspec : runner.model.ForwardSpec config.blockSize ⟨batchId, items⟩
      (GPUInputBatch.ofItems config.blockSize ⟨batchId, items⟩) (knownTokens admitted items) caches
      logits caches') :
    ∃ sampled, runner.sampleLogits logits (LlamaModelRunner.sampleRows
        (GPUInputBatch.ofItems config.blockSize ⟨batchId, items⟩)) .empty = .ok sampled ∧
      runner.Samples (admitted.withCache m') items sampled := by
  have hinput := GPUInputBatch.fromWorkerBatch_eq ⟨batchId, items⟩ config.blockSize_pos hne hs.valid
  have hrows : ∀ row ∈ LlamaModelRunner.sampleRows
      (GPUInputBatch.ofItems config.blockSize ⟨batchId, items⟩), 0 ≤ row.2.1 →
        row.2.1.toNat < logits.length := by
    rintro ⟨id, sampleIndex, temperature⟩ hrow hpos
    obtain ⟨r, item, hitem, _, _, _, hindex⟩ :=
      LlamaModelRunner.of_mem_sampleRows hinput hrow hpos
    have htokens := List.length_pos_of_ne_nil (hs.valid item (List.mem_of_getElem? hitem)).tokenIds_ne
    have hlogits := hspec.logits_eq r item hitem (item.tokenIds.length - 1) (by omega)
    rw [← hindex] at hlogits
    exact (List.getElem?_eq_some_iff.mp hlogits).1
  have hnodup : ((LlamaModelRunner.sampleRows
      (GPUInputBatch.ofItems config.blockSize ⟨batchId, items⟩)).map (·.1)).Nodup := by
    rw [LlamaModelRunner.sampleRows, List.zip_eq_zip_take_min, List.map_fst_zip (by simp)]
    exact hs.items_nodup.sublist (List.take_sublist _ _)
  obtain ⟨sampled, hsample, _, hsampled⟩ :=
    runner.exists_sampleLogits .empty hrows hnodup
  refine ⟨sampled, hsample, fun item hitem => ?_⟩
  obtain ⟨r, hr, hget⟩ := List.mem_iff_getElem.mp hitem
  have hitem' : items[r]? = some item := hget ▸ List.getElem?_eq_getElem hr
  obtain ⟨request, hrequest, hissued⟩ := hs.issued hitem
  obtain ⟨sampleIndex, hrow, hsign⟩ := LlamaModelRunner.exists_sampleRow_of_item
    config.blockSize_pos hs.valid hitem'
  obtain ⟨hneg, hpos⟩ := hsampled _ _ _ hrow
  refine ⟨request, hrequest, ?_⟩
  rcases hsign with ⟨hshould, hlt⟩ | ⟨hshould, hle, hindex⟩
  · rw [hneg hlt, hshould]
    simp
  · obtain ⟨row, hlogits, htoken⟩ := hpos hle
    have hall : item.seqLen = request.allTokenIds.length := by
      rw [hissued.shouldSample_eq, decide_eq_true_iff] at hshould
      exact hshould
    have hend := hissued.start_add_length
    have htokens := hissued.tokenIds_pos
    have hlast := hspec.logits_eq r item hitem' (item.tokenIds.length - 1) (by omega)
    rw [← hindex, hlogits, knownTokens_eq hitem' hrequest,
      show item.startPos + (item.tokenIds.length - 1) = request.allTokenIds.length - 1 by omega]
      at hlast
    rw [htoken, hshould, if_pos rfl, Option.some.inj hlast]

end Scheduled

/-! ## Runs -/

section Runs

variable {config : EngineConfig} {tokenizer : Tokenizer} {state : RunnerState KeyValue Logits}
  {w w' : WorkerWorld (RunnerState KeyValue Logits)} {event : Event} {messages : List CoreMessage}
  {τs : List (RunnerTransition KeyValue Logits)}

/-- A Llama runner samples exactly what it was asked to. -/
theorem RunnerStep.honest (h : RunnerStep config tokenizer runner w event messages w')
    (hprompted : event.Prompted) (hblock : runner.blockSize = config.blockSize)
    (hstable : w.core.Stable config) (hinv : RunnerInv config runner.model w) :
    HonestStep config tokenizer w.core event messages w'.core := by
  refine ⟨h.toStep, ?_⟩
  cases event with
  | command command =>
      cases command with
      | add request => exact hprompted
      | abort => trivial
      | shutdown => trivial
  | leave => trivial
  | engineStep incoming =>
      rw [HonestEvent]
      split
      · rename_i result hanswer
        intro hstarted
        rcases h.toStep.batch_cases hstable with ⟨hevents, _⟩ | ⟨batch, hbatch, _, _⟩
        · exact Or.inr (by simp [hevents.itemsOf_eq])
        · have hd := (h.toStep.derivation hstable).1
          obtain ⟨_, _, hne, hitems, admitted, m', hs⟩ := hd.batch hbatch
          cases hfailed : result.failed with
          | true => exact Or.inl hfailed
          | false =>
              obtain ⟨input, logits, hinput, hsample, hspec⟩ := h.forwardSpec hblock hstable hinv
                hbatch rfl hanswer hstarted hfailed hs
              obtain rfl := Except.ok.inj (hinput.symm.trans (GPUInputBatch.fromWorkerBatch_eq batch
                config.blockSize_pos hne hs.valid))
              obtain ⟨sampled, hsample', hsamples⟩ := hs.exists_samples hne batch.batchId hspec
              obtain rfl : sampled = result.sampledTokenIds :=
                Except.ok.inj (hsample'.symm.trans hsample)
              refine Or.inr fun item hitem => ?_
              obtain ⟨_, _, htoken⟩ := hsamples item (hitems ▸ hitem)
              rw [htoken]
              cases item.shouldSample <;> rfl
      · trivial

theorem WorkerTrace.honest (h : WorkerTrace config tokenizer runner.execute.Executes state τs w)
    (hblock : runner.blockSize = config.blockSize)
    (hcaches : state.caches.length = runner.model.layers.length) :
    HonestTrace config tokenizer (τs.map (Transition.map WorkerWorld.core)) w.core := by
  have hrun : Run (fun w event messages w' => HonestStep config tokenizer w.core event messages
      w'.core) ⟨init config, state⟩ τs w := by
    refine h.mono_of_invariant
      (I := fun w => w.core.Stable config ∧ RunnerInv config runner.model w)
      ⟨stable_init config, runnerInv_init hcaches⟩ ?_ ?_
    · rintro w event messages w' ⟨hstable, hinv⟩ hstep
      exact ⟨(hstep.toStep.derivation hstable).2,
        (hstep.runnerStep hblock hstable hinv).preserves hblock hstable hinv⟩
    · rintro w event messages w' ⟨hstable, hinv⟩ hstep
      obtain ⟨outcome, hreported, _⟩ := hstep.turn
      refine (hstep.runnerStep hblock hstable hinv).honest ?_ hblock hstable hinv
      cases event with
      | command command =>
          cases command with
          | add request => exact hreported
          | abort => trivial
          | shutdown => trivial
      | leave => trivial
      | engineStep incoming => trivial
  exact hrun.map WorkerWorld.core fun _ _ _ _ hstep => hstep

/-- In every run of a configuration that fits 32 bits, the batch that is scheduled next is executed
without an error, and samples what the model gives to the sequences of its requests. -/
theorem WorkerTrace.exists_samples (h : WorkerTrace config tokenizer runner.execute.Executes state τs w)
    (hblock : runner.blockSize = config.blockSize)
    (hmaxBlocks : runner.maxBlocks =
      (config.maxModelLen + config.blockSize - 1) / config.blockSize)
    (hfits : config.FitsInt32) (hcaches : state.caches.length = runner.model.layers.length)
    (hloop : w.core.stopped = false) {schedule : Schedule} {s' : Scheduler}
    (hschedule : (Scheduler.schedule config).run w.core.scheduler = .ok schedule s')
    {items : List WorkerItem} (hbatch : schedule.byRank.get? (some 0) = some items) (batchId : ℕ) :
    ∃ admitted m' sampled, Scheduled config w.core.scheduler admitted items m' ∧ items ≠ [] ∧
      (runner.execute w.worker (GPUInputBatch.ofItems config.blockSize ⟨batchId, items⟩)).1 =
        .ok sampled ∧
      runner.Samples s' items sampled := by
  have hhonest := WorkerTrace.honest h hblock hcaches
  obtain ⟨hstable, hinv⟩ := RunnerTrace.inv (WorkerTrace.runnerTrace h hblock hcaches) hblock hcaches
  have hsettled := hstable hloop
  obtain ⟨admitted, items', m', hs, hrun⟩ := hsettled.run_schedule
  obtain ⟨rfl, rfl⟩ := EStateM.Result.ok.inj (hschedule.symm.trans hrun)
  have hne : items' ≠ [] := by
    rintro rfl
    simp [Dict.get?, Schedule.ofItems_byRank_nil] at hbatch
  rw [Schedule.ofItems_byRank_of_ne hne, Dict.get?_singleton, if_pos rfl] at hbatch
  obtain rfl := Option.some.inj hbatch
  have hlimit : ∀ item ∈ items', item.seqLen < config.contextLimit :=
    fun item hitem => hhonest.seqLen_lt hloop hs hitem
  have haccepted := hs.accepted hne hlimit batchId
  obtain ⟨metadata, hmetadata⟩ := haccepted.metadata.mpr (haccepted.fitsInt32 hfits)
  have hinput := GPUInputBatch.fromWorkerBatch_eq ⟨batchId, items'⟩ config.blockSize_pos hne hs.valid
  obtain ⟨logits, caches', hforward, hspec⟩ := LlamaForCausalLM.forwardSpec hinput hmetadata
    (hs.appends batchId) (hs.continues batchId) (hs.inCache batchId)
    (hs.cached hsettled hinv.length_eq (hinv.shows hloop) batchId)
  obtain ⟨sampled, hsample, hsamples⟩ := hs.exists_samples hne batchId hspec
  refine ⟨admitted, m', sampled, hs, hne, ?_, hsamples⟩
  rw [← hmaxBlocks] at hmetadata
  have hmetadata' : runner.metadata
      (GPUInputBatch.ofItems config.blockSize ⟨batchId, items'⟩) = .ok metadata := by
    rw [LlamaModelRunner.metadata, hblock]
    exact hmetadata
  rw [LlamaModelRunner.execute_eq hmetadata', hforward]
  exact hsample

end Runs

end MiniVLLM
