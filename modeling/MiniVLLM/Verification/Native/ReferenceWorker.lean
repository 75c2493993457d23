import MiniVLLM.Verification.Native.TokenRows
import MiniVLLM.Verification.Worker.AttentionRows
import MiniVLLM.Verification.Worker.Canned

/-! # A Worker over the reference runtime

The dictionaries of the reference runtime refine the store of tokens. So no batch of a run raises,
and each output row is the attention over the tokens of its request. -/

namespace MiniVLLM

open KVCacheManager Scheduler EngineCore

namespace ReferenceKernelRuntime

open Bootstrap

/-- The dictionaries have the vectors of the tokens of a store. -/
structure Mirrors (headDim : ℕ) (store : Store) (runtime : ReferenceKernelRuntime EReal) :
    Prop where
  key : ∀ slot token, store slot = some token →
    runtime.kCache.get? (slot : ℤ) = some (vectorOf headDim (tokenKey token))
  value : ∀ slot token, store slot = some token →
    runtime.vCache.get? (slot : ℤ) = some (vectorOf headDim (tokenValue token))

section Mirroring

variable {headDim : ℕ} {store : Store} {runtime runtime' : ReferenceKernelRuntime EReal}

theorem mirrors_init (headDim : ℕ) : Mirrors headDim (fun _ => none) .init where
  key := fun _ _ h => nomatch h
  value := fun _ _ h => nomatch h

theorem Mirrors.of_caches (h : Mirrors headDim store runtime)
    (hkey : runtime'.kCache = runtime.kCache) (hvalue : runtime'.vCache = runtime.vCache) :
    Mirrors headDim store runtime' :=
  ⟨fun slot token hstore => hkey ▸ h.key slot token hstore,
    fun slot token hstore => hvalue ▸ h.value slot token hstore⟩

theorem Mirrors.writeVectors (h : Mirrors headDim store runtime) (pairs : List (ℕ × TokenId)) :
    Mirrors headDim (Paging.write store pairs)
      (writeVectors headDim runtime (pairs.map fun pair => (pair.2, (pair.1 : ℤ)))) := by
  induction pairs generalizing store runtime with
  | nil => exact h
  | cons pair pairs ih =>
      obtain ⟨slot, token⟩ := pair
      refine ih ⟨fun slot' token' hstore => ?_, fun slot' token' hstore => ?_⟩
      · by_cases hslot : slot' = slot
        · subst hslot
          rw [Function.update_self] at hstore
          obtain rfl := Option.some.inj hstore
          rw [Dict.get?_set_self, vector_key_eq]
        · rw [Function.update_of_ne hslot] at hstore
          rw [Dict.get?_set_of_ne _ _ (by exact_mod_cast hslot)]
          exact h.key slot' token' hstore
      · by_cases hslot : slot' = slot
        · subst hslot
          rw [Function.update_self] at hstore
          obtain rfl := Option.some.inj hstore
          rw [Dict.get?_set_self, vector_value_eq]
        · rw [Function.update_of_ne hslot] at hstore
          rw [Dict.get?_set_of_ne _ _ (by exact_mod_cast hslot)]
          exact h.value slot' token' hstore

theorem caches_of_attentionBatch {batch : GPUInputBatch}
    (h : (attentionBatch headDim batch).run runtime = .ok () runtime') :
    runtime'.kCache = runtime.kCache ∧ runtime'.vCache = runtime.vCache := by
  cases houtputs : (List.range batch.numRequests).mapM (runtime.attendRequest headDim batch) with
  | error e =>
      simp only [attentionBatch, EStateM.run_bind, EStateM.run_get, houtputs,
        EStateM.run_ofExcept_error] at h
      cases h
  | ok outputs =>
      simp only [attentionBatch, EStateM.run_bind, EStateM.run_get, houtputs,
        EStateM.run_ofExcept_ok] at h
      split at h
      · obtain ⟨_, rfl⟩ := EStateM.Result.ok.inj h
        exact ⟨rfl, rfl⟩
      · obtain ⟨_, rfl⟩ := EStateM.Result.ok.inj h
        exact ⟨rfl, rfl⟩

end Mirroring

end ReferenceKernelRuntime

namespace BootstrapModelRunner

open Bootstrap

variable {config : EngineConfig} {s admitted : Scheduler} {items : List WorkerItem}
  {m' : KVCacheManager} {store : Store} {headDim : ℕ} {runtime : ReferenceKernelRuntime EReal}

theorem run_appendKv (h : Dispatched config s admitted items m' store)
    (hmirrors : runtime.Mirrors headDim store) (batchId : ℕ) :
    ∃ runtime', (ReferenceKernelRuntime.appendKv headDim
        (GPUInputBatch.ofItems config.blockSize ⟨batchId, items⟩).inputIds
        ((GPUInputBatch.ofItems config.blockSize ⟨batchId, items⟩).slotMapping.map
          fun slot : ℕ => (slot : ℤ))).run runtime = .ok () runtime' ∧
      runtime'.Mirrors headDim (Paging.write store (batchPairs items)) := by
  have hpairs : (GPUInputBatch.ofItems config.blockSize ⟨batchId, items⟩).inputIds.zip
      ((GPUInputBatch.ofItems config.blockSize ⟨batchId, items⟩).slotMapping.map
        fun slot : ℕ => (slot : ℤ)) =
      (batchPairs items).map fun pair => (pair.2, (pair.1 : ℤ)) := by
    rw [← kvPairs_ofItems ⟨batchId, items⟩ h.scheduled.valid, Worker.kvPairs, List.zip_map_right,
      ← List.zip_swap, List.map_map]
    rfl
  refine ⟨_, ?_, hpairs ▸ hmirrors.writeVectors (batchPairs items)⟩
  rw [ReferenceKernelRuntime.appendKv, if_neg]
  · rfl
  · rw [List.length_map, not_not]
    exact (GPUInputBatch.length_slotMapping_ofItems h.scheduled.valid).symm

theorem run_executeModel (h : Dispatched config s admitted items m' store)
    (hmirrors : runtime.Mirrors headDim store) (batchId : ℕ) :
    ∃ sampled runtime', (executeModel headDim
        (GPUInputBatch.ofItems config.blockSize ⟨batchId, items⟩)).run runtime =
          .ok sampled runtime' ∧
      sample (GPUInputBatch.ofItems config.blockSize ⟨batchId, items⟩) = .ok sampled ∧
      runtime'.Mirrors headDim (Paging.write store (batchPairs items)) ∧
      ∀ index (hindex : index < items.length), ∃ row,
        runtime'.lastBatchAttentionOutputs[index]? = some row ∧
          ItemServed (tokenRow headDim) (admitted.withCache m') sampled items[index] row := by
  have hs := h.scheduled
  have hinput := GPUInputBatch.fromWorkerBatch_eq ⟨batchId, items⟩ config.blockSize_pos h.ne hs.valid
  have hspecs : ∀ index < (GPUInputBatch.ofItems config.blockSize ⟨batchId, items⟩).numRequests,
      ∃ slots, GPUInputBatch.ContextSpec config.blockSize
        (GPUInputBatch.ofItems config.blockSize ⟨batchId, items⟩) index slots := by
    intro index hindex
    obtain ⟨_, slots, _, _, hslots⟩ := GPUInputBatch.exists_contextSpec hinput hindex
    exact ⟨slots, hslots⟩
  obtain ⟨appended, happend, hmirrors'⟩ := run_appendKv h hmirrors batchId
  have hstored : Stored headDim
      (fun slot => tokenKey (tokenAt (Paging.write store (batchPairs items)) slot))
      (fun slot => tokenValue (tokenAt (Paging.write store (batchPairs items)) slot))
      (GPUInputBatch.ofItems config.blockSize ⟨batchId, items⟩).contextSlotMapping appended :=
    ⟨fun slot hslot => hmirrors'.key slot _ (h.context_stored batchId hslot),
      fun slot hslot => hmirrors'.value slot _ (h.context_stored batchId hslot)⟩
  obtain ⟨attended, hattend, houtputs⟩ := run_attentionBatch hspecs hstored
  obtain ⟨hkey, hvalue⟩ := ReferenceKernelRuntime.caches_of_attentionBatch hattend
  obtain ⟨sampled, hsampled, htokens⟩ := exists_sample_dispatched h batchId
  refine ⟨sampled, attended, ?_, hsampled, hmirrors'.of_caches hkey hvalue, fun index hindex => ?_⟩
  · simp only [executeModel, EStateM.run_bind, happend, hattend, hsampled, EStateM.run_ofExcept_ok]
  · obtain ⟨r, slots, hr, hslots, hrow⟩ := h.softmaxRow_eq batchId headDim
      (fun token => tokenKey token) (fun token => tokenValue token) hindex
    refine ⟨_, ?_, r, hr, htokens _ (List.getElem_mem hindex) r hr, rfl⟩
    rw [houtputs, List.getElem?_map, GPUInputBatch.numRequests_ofItems, List.getElem?_range hindex,
      Option.map_some, hslots.slice_eq, hrow, tokenRow]

/-- The bootstrap runner refines the Worker over a store. -/
theorem refines (config : EngineConfig) (headDim : ℕ) :
    (execute headDim).Executes.Refines config sample
      (ReferenceKernelRuntime.Mirrors headDim) := by
  constructor
  · intro s admitted items m' store runtime runtime' outcome batchId h hmirrors hexecutes
    obtain ⟨sampled, attended, hrun, hsampled, hmirrors', _⟩ := run_executeModel h hmirrors batchId
    have hexecute : execute headDim runtime
        (GPUInputBatch.ofItems config.blockSize ⟨batchId, items⟩) = (.ok sampled, attended) := by
      rw [execute, BatchExecution.ofPy, hrun]
    obtain ⟨rfl, rfl⟩ := Prod.mk.inj (hexecute.symm.trans hexecutes)
    exact ⟨hsampled.symm, hmirrors'⟩
  · exact fun batchId _ _ => ⟨_, _, rfl⟩

end BootstrapModelRunner

/-- In every run with a Worker over the reference runtime, the next batch is executed without an
error: every item that samples gets the next token of the response, and every output row is the
softmax attention over the known tokens of its own request. -/
theorem reference_worker_attends {config : EngineConfig} {tokenizer : Tokenizer}
    {τs : List (WorkerTransition (ReferenceKernelRuntime EReal))}
    {w : WorkerWorld (ReferenceKernelRuntime EReal)}
    (h : WorkerTrace config tokenizer
      (BootstrapModelRunner.execute ReferenceKernelRuntime.defaultHeadDim).Executes .init τs w)
    (hloop : w.core.stopped = false) {schedule : Schedule} {s' : Scheduler}
    (hschedule : (Scheduler.schedule config).run w.core.scheduler = .ok schedule s')
    {items : List WorkerItem} (hbatch : schedule.byRank.get? (some 0) = some items)
    (batchId : ℕ) :
    ∃ input sampled runtime',
      GPUInputBatch.fromWorkerBatch ⟨batchId, items⟩ config.blockSize = .ok input ∧
      (BootstrapModelRunner.executeModel ReferenceKernelRuntime.defaultHeadDim input).run w.worker =
        .ok sampled runtime' ∧
      ∀ index (hindex : index < items.length), ∃ row,
        runtime'.lastBatchAttentionOutputs[index]? = some row ∧
          ItemServed (Bootstrap.tokenRow ReferenceKernelRuntime.defaultHeadDim) s' sampled
            items[index] row := by
  have hserved := WorkerTrace.served h (BootstrapModelRunner.refines config _)
    BootstrapModelRunner.samplesAsked (ReferenceKernelRuntime.mirrors_init _)
  obtain ⟨store, admitted, m', hdispatched, hmirrors, rfl⟩ :=
    hserved.dispatched BootstrapModelRunner.samplesAsked hloop hschedule hbatch
  obtain ⟨sampled, runtime', hrun, _, _, hrows⟩ :=
    BootstrapModelRunner.run_executeModel hdispatched hmirrors batchId
  exact ⟨_, sampled, runtime', GPUInputBatch.fromWorkerBatch_eq ⟨batchId, items⟩
    config.blockSize_pos hdispatched.ne hdispatched.scheduled.valid, hrun, hrows⟩

theorem reference_worker_attends_mixed : ∃ τs w schedule s' items input sampled runtime',
    WorkerTrace smallConfig characterTokenizer
      (BootstrapModelRunner.execute ReferenceKernelRuntime.defaultHeadDim).Executes .init τs w ∧
      (Scheduler.schedule smallConfig).run w.core.scheduler = .ok schedule s' ∧
      items.map (·.requestId) = ["a", "b"] ∧
      GPUInputBatch.fromWorkerBatch ⟨2, items⟩ smallConfig.blockSize = .ok input ∧
      (BootstrapModelRunner.executeModel ReferenceKernelRuntime.defaultHeadDim input).run w.worker =
        .ok sampled runtime' ∧
      ∀ index (hindex : index < items.length), ∃ row,
        runtime'.lastBatchAttentionOutputs[index]? = some row ∧
          ItemServed (Bootstrap.tokenRow ReferenceKernelRuntime.defaultHeadDim) s' sampled
            items[index] row := by
  obtain ⟨τs, core, schedule, s', items, hreported, hloop, hschedule, hbatch, hids⟩ :=
    exists_responded
  obtain ⟨ωs, w, hrun, rfl, rfl⟩ := ((BootstrapModelRunner.refines smallConfig
    ReferenceKernelRuntime.defaultHeadDim).exists_workerTrace_iff
      BootstrapModelRunner.samplesAsked (ReferenceKernelRuntime.mirrors_init _)).mpr hreported
  obtain ⟨input, sampled, runtime', hinput, hexecute, hrows⟩ :=
    reference_worker_attends hrun hloop hschedule hbatch 2
  exact ⟨ωs, w, schedule, s', items, input, sampled, runtime', hrun, hschedule, hids, hinput,
    hexecute, hrows⟩

end MiniVLLM
