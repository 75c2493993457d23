import MiniVLLM.Model.Worker
import MiniVLLM.Verification.Worker.Contents

/-! # The paged store as private caches

Between steps, the slots of a live request hold its own tokens up to the computed
position. A batch extends this to the items' ends before anything is read. -/

namespace MiniVLLM

open KVCacheManager Scheduler EngineCore

/-! ## Batches as writes -/

/-- The writes of a batch, item by item. -/
def batchPairs (items : List WorkerItem) : List (ℕ × TokenId) :=
  items.flatMap fun item => item.slotMapping.zip item.tokenIds

theorem zip_flatMap_eq {items : List WorkerItem}
    (h : ∀ item ∈ items, item.slotMapping.length = item.tokenIds.length) :
    (items.flatMap (·.slotMapping)).zip (items.map (·.tokenIds)).flatten = batchPairs items := by
  induction items with
  | nil => rfl
  | cons item items ih =>
      rw [List.flatMap_cons, List.map_cons, List.flatten_cons, List.zip_append (h item (by simp)),
        ih (fun item' hitem' => h item' (by simp [hitem'])), batchPairs, batchPairs,
        List.flatMap_cons]

theorem kvPairs_ofItems {blockSize : ℕ} (batch : WorkerBatch)
    (h : ∀ item ∈ batch.items, ValidItem blockSize item) :
    Worker.kvPairs (GPUInputBatch.ofItems blockSize batch) = batchPairs batch.items :=
  zip_flatMap_eq (fun item hitem => (h item hitem).slots_length.symm)

theorem map_fst_batchPairs {items : List WorkerItem}
    (h : ∀ item ∈ items, item.slotMapping.length = item.tokenIds.length) :
    (batchPairs items).map Prod.fst = items.flatMap (·.slotMapping) := by
  rw [batchPairs, List.map_flatMap]
  apply List.flatMap_congr
  intro item hitem
  rw [List.map_fst_zip (h item hitem).le]

namespace Scheduler.Issued

variable {config : EngineConfig} {m m' : KVCacheManager} {r : RequestState} {item : WorkerItem}

theorem slots_length (h : Issued config m m' r item) :
    item.slotMapping.length = item.tokenIds.length := h.valid.slots_length.symm

/-- The writes of an item are its positions with the request's tokens. -/
theorem mem_pairs_iff (h : Issued config m m' r item) {s : ℕ} {token : TokenId} :
    (s, token) ∈ item.slotMapping.zip item.tokenIds ↔
      ∃ p, item.startPos ≤ p ∧ p < item.seqLen ∧
        s = Paging.slot config.blockSize item.blockTable p ∧ r.allTokenIds[p]? = some token := by
  have hlen := h.length_tokenIds
  have hlt := h.start_lt
  rw [List.mem_iff_getElem?]
  constructor
  · rintro ⟨i, hi⟩
    obtain ⟨hslot, htok⟩ := List.getElem?_zip_eq_some.mp hi
    have hi' : i < item.tokenIds.length := (List.getElem?_eq_some_iff.mp htok).1
    rw [h.slotMapping_eq, List.getElem?_map, List.getElem?_range' (by omega)] at hslot
    refine ⟨item.startPos + i, by omega, by omega, ?_, ?_⟩
    · simpa using (Option.some.inj hslot).symm
    · rw [← h.getElem?_tokenIds hi', htok]
  · rintro ⟨p, hstart, hp, rfl, htok⟩
    refine ⟨p - item.startPos, ?_⟩
    rw [List.getElem?_zip_eq_some]
    refine ⟨?_, ?_⟩
    · rw [h.slotMapping_eq, List.getElem?_map, List.getElem?_range' (by omega)]
      simp [Nat.add_sub_cancel' hstart]
    · rw [h.getElem?_tokenIds (by omega), Nat.add_sub_cancel' hstart, htok]

end Scheduler.Issued

section Slots

variable {config : EngineConfig} {s admitted : Scheduler} {items : List WorkerItem}
  {m' : KVCacheManager}

theorem Scheduler.Scheduled.context_nodup (h : Scheduled config s admitted items m') :
    (items.flatMap (GPUInputBatch.contextOf config.blockSize)).Nodup := by
  have howned := h.loop.owned h.settled.owned
  have htable : ∀ item ∈ items, m'.tables.get? item.requestId = some item.blockTable := by
    intro item hitem
    obtain ⟨r, hr, hissued⟩ := h.issued hitem
    exact h.settled.ids _ _ hr ▸ hissued.table
  rw [List.nodup_flatMap]
  refine ⟨fun item hitem => ?_, ?_⟩
  · obtain ⟨r, _, hissued⟩ := h.issued hitem
    refine List.Nodup.map_on ?_ List.nodup_range
    intro p hp q hq heq
    exact Paging.slot_inj config.blockSize_pos (howned.table_nodup (htable item hitem))
      (hissued.covers.div_lt (List.mem_range.mp hp)) (hissued.covers.div_lt (List.mem_range.mp hq))
      heq
  · have hpairwise := List.pairwise_map.mp h.items_nodup
    refine hpairwise.imp_of_mem ?_
    intro item item' hitem hitem' hne slot hslot hslot'
    obtain ⟨_, _, hissued⟩ := h.issued hitem
    obtain ⟨_, _, hissued'⟩ := h.issued hitem'
    obtain ⟨p, hp, rfl⟩ := List.mem_map.mp hslot
    obtain ⟨q, hq, heq⟩ := List.mem_map.mp hslot'
    exact slot_ne howned (htable item hitem) (htable item' hitem')
      (hissued.covers.div_lt (List.mem_range.mp hp)) (hissued'.covers.div_lt (List.mem_range.mp hq))
      (Or.inl hne) heq.symm

/-- So no slot is written twice. -/
theorem Scheduler.Scheduled.slots_nodup (h : Scheduled config s admitted items m') :
    (items.flatMap (·.slotMapping)).Nodup := by
  refine h.context_nodup.sublist (List.Sublist.flatMap_right _ fun item hitem => ?_)
  obtain ⟨_, _, hissued⟩ := h.issued hitem
  have hdrop : List.range' item.startPos (item.seqLen - item.startPos) =
      (List.range item.seqLen).drop item.startPos := by
    rw [List.range_eq_range', List.drop_range', Nat.mul_one, Nat.zero_add]
  rw [hissued.slotMapping_eq, GPUInputBatch.contextOf, hdrop]
  exact (List.drop_sublist _ _).map _

end Slots

/-! ## The store invariant -/

/-- The slots of a live request hold its tokens at every computed position. -/
def Holds (config : EngineConfig) (s : Scheduler) (store : Store) : Prop :=
  ∀ id r t, s.request? id = some r → s.cacheManager.tables.get? id = some t →
    ∀ p < r.numComputedTokens, store (Paging.slot config.blockSize t p) = r.allTokenIds[p]?

section Writes

variable {config : EngineConfig} {s admitted : Scheduler} {items : List WorkerItem}
  {m' : KVCacheManager} {store : Store}

theorem causal_getElem? : Causal fun (tokens : List TokenId) p => tokens[p]? :=
  fun _ _ _ hp => List.getElem?_append_left hp

theorem Scheduler.Scheduled.write_kept (h : Scheduled config s admitted items m')
    {part : List (ℕ × TokenId)} (hpart : part ⊆ batchPairs items) {slot : ℕ}
    (hslot : slot ∉ items.flatMap (·.slotMapping)) : Paging.write store part slot = store slot := by
  refine Paging.write_of_not_mem (fun hmem => hslot ?_) store
  obtain ⟨pair, hpair, rfl⟩ := List.mem_map.mp hmem
  rw [← map_fst_batchPairs]
  · exact List.mem_map_of_mem (hpart hpair)
  · intro item hitem
    obtain ⟨_, _, hissued⟩ := h.issued hitem
    exact hissued.slots_length

theorem Scheduler.Scheduled.write_written (h : Scheduled config s admitted items m') :
    Written config (fun tokens p => tokens[p]?) admitted items
      (Paging.write store (batchPairs items)) := by
  intro item hitem r hr p hstart hp
  obtain ⟨r', hr', hissued⟩ := h.issued hitem
  obtain rfl : r = r' := Option.some.inj (hr.symm.trans hr')
  have hlt : p < r.allTokenIds.length := hp.trans_le hissued.seqLen_le
  have hpair : (Paging.slot config.blockSize item.blockTable p, r.allTokenIds[p]) ∈
      batchPairs items :=
    List.mem_flatMap.mpr ⟨item, hitem, hissued.mem_pairs_iff.mpr
      ⟨p, hstart, hp, rfl, List.getElem?_eq_getElem hlt⟩⟩
  have hnodup : ((batchPairs items).map Prod.fst).Nodup := by
    rw [map_fst_batchPairs]
    · exact h.slots_nodup
    · intro item' hitem'
      obtain ⟨_, _, hi⟩ := h.issued hitem'
      exact hi.slots_length
  exact (Paging.write_of_mem hnodup hpair store).trans (List.getElem?_eq_getElem hlt).symm

/-- After the whole batch was written, each item's request is stored up to the item's end. -/
theorem Scheduler.Scheduled.holds_item (h : Scheduled config s admitted items m')
    (hsettled : s.Settled config) (hholds : Holds config s store) {item : WorkerItem}
    (hitem : item ∈ items) {r : RequestState}
    (hr : admitted.running.get? item.requestId = some r) :
    ∀ p < item.seqLen, Paging.write store (batchPairs items)
      (Paging.slot config.blockSize item.blockTable p) = r.allTokenIds[p]? :=
  h.shows_item hsettled hholds (fun _ hslot => h.write_kept (List.Subset.refl _) hslot)
    h.write_written hitem hr

end Writes

/-! ## Runs with a store -/

def writesOf (config : EngineConfig) (batch : WorkerBatch) : List (ℕ × TokenId) :=
  match GPUInputBatch.fromWorkerBatch batch config.blockSize with
  | .ok input => Worker.kvPairs input
  | .error _ => []

/-- A step of the engine with its Worker's store. A batch that did not fail was written
completely; one that failed was written to an arbitrary part. -/
structure StoredStep (config : EngineConfig) (tokenizer : Tokenizer) (w : World) (event : Event)
    (messages : List CoreMessage) (w' : World) : Prop
    extends Step config tokenizer w.core event messages w'.core where
  untouched : OnlyEvents messages → w'.store = w.store
  written : ∀ rank batch, CoreMessage.batch rank batch ∈ messages →
    ∃ part ⊆ writesOf config batch, w'.store = Paging.write w.store part ∧
      ∀ incoming result, event = .engineStep incoming →
        answer? (w.core.batchId + 1) incoming = some result → result.failed = false →
          part = writesOf config batch

abbrev WorldTransition := Transition World Event CoreMessage

abbrev StoredTrace (config : EngineConfig) (tokenizer : Tokenizer) (store : Store)
    (τs : List WorldTransition) (w : World) : Prop :=
  Run (StoredStep config tokenizer) ⟨init config, store⟩ τs w

/-- A looping core is settled and its requests are stored. -/
structure StoredInv (config : EngineConfig) (w : World) : Prop where
  stable : w.core.Stable config
  holds : w.core.stopped = false → Holds config w.core.scheduler w.store

theorem Scheduler.Scheduled.writesOf_eq {config : EngineConfig} {s admitted : Scheduler}
    {items : List WorkerItem} {m' : KVCacheManager} (h : Scheduled config s admitted items m')
    (hne : items ≠ []) (batchId : ℕ) : writesOf config ⟨batchId, items⟩ = batchPairs items := by
  have hvalid : ∀ item ∈ items, ValidItem config.blockSize item := by
    intro item hitem
    obtain ⟨_, _, hi⟩ := h.issued hitem
    exact hi.valid
  rw [writesOf, GPUInputBatch.fromWorkerBatch_eq ⟨batchId, items⟩ config.blockSize_pos
    hne hvalid]
  exact kvPairs_ofItems ⟨batchId, items⟩ hvalid

theorem StoredStep.cellsStep {config : EngineConfig} {tokenizer : Tokenizer} {w w' : World}
    {event : Event} {messages : List CoreMessage}
    (h : StoredStep config tokenizer w event messages w') (hstable : w.core.Stable config) :
    CellsStep config (fun tokens p => tokens[p]?) w.core event messages w.store w'.store := by
  have hd := (h.toStep.derivation hstable).1
  refine ⟨h.untouched, fun rank batch hbatch slot hslot => ?_,
    fun rank batch incoming result hbatch hevent hanswer _ hok admitted m' hs => ?_⟩
  · obtain ⟨part, hpart, hstore, _⟩ := h.written rank batch hbatch
    obtain ⟨_, _, hne, _, admitted, m', hs⟩ := hd.batch hbatch
    rw [hs.writesOf_eq hne] at hpart
    rw [hstore]
    exact hs.write_kept hpart hslot
  · obtain ⟨part, _, hstore, hfull⟩ := h.written rank batch hbatch
    obtain ⟨_, _, hne, _⟩ := hd.batch hbatch
    rw [hstore, hfull incoming result hevent hanswer hok, hs.writesOf_eq hne]
    exact hs.write_written

theorem StoredStep.preserves {config : EngineConfig} {tokenizer : Tokenizer} {w w' : World}
    {event : Event} {messages : List CoreMessage}
    (h : StoredStep config tokenizer w event messages w') (hinv : StoredInv config w) :
    StoredInv config w' := by
  have hrun := h.toStep.running
  obtain ⟨hd, hstable⟩ := h.toStep.derivation hinv.stable
  exact ⟨hstable, (h.cellsStep hinv.stable).shows hd (hinv.stable hrun) causal_getElem?
    (hinv.holds hrun)⟩

theorem StoredTrace.inv {config : EngineConfig} {tokenizer : Tokenizer} {store : Store}
    {τs : List WorldTransition} {w : World} (h : StoredTrace config tokenizer store τs w) :
    StoredInv config w := by
  refine h.invariant ⟨stable_init config, fun _ => ?_⟩ (fun _ _ _ _ hinv hstep =>
    hstep.preserves hinv)
  intro id r t hr
  simp [request?, EngineCore.init, Scheduler.init] at hr

/-! ## The engine with its Worker -/

section Composed

variable {config : EngineConfig} {tokenizer : Tokenizer} {next : List TokenId → TokenId}
  {w w' : World} {event : Event} {messages : List CoreMessage}

theorem batch?_of_onlyEvents (h : OnlyEvents messages) : World.batch? messages = none := by
  rw [World.batch?, List.findSome?_eq_none_iff]
  intro message hmem
  obtain ⟨event, rfl⟩ := h message hmem
  rfl

/-- A batch among the messages of a step is the one the Worker gets. -/
theorem EngineCore.StepDerivation.batch?_eq {core core' : EngineCore}
    (h : StepDerivation config tokenizer core event messages core') {rank : ℕ} {batch : WorkerBatch}
    (hbatch : CoreMessage.batch rank batch ∈ messages) : World.batch? messages = some batch := by
  rcases h.shape with hevents | ⟨items, rest, _, _, rfl, hrest, _, _⟩
  · obtain ⟨event, heq⟩ := hevents _ hbatch
    cases heq
  · rcases List.mem_cons.mp hbatch with heq | hmem
    · obtain ⟨_, rfl⟩ := CoreMessage.batch.inj heq
      rfl
    · obtain ⟨event, heq⟩ := hrest _ hmem
      cases heq

theorem Worker.execute_store {store store' : Store} {batch : WorkerBatch}
    {sampled : Dict RequestId TokenId}
    (h : Worker.execute next config.blockSize store batch = some (store', sampled)) :
    store' = Paging.write store (writesOf config batch) := by
  unfold Worker.execute at h
  unfold writesOf
  split at h
  · cases h
  · rename_i input hinput
    obtain ⟨sampled', _, heq⟩ := Option.map_eq_some_iff.mp h
    obtain ⟨rfl, _⟩ := Prod.mk.inj heq
    rw [hinput]
    rfl

theorem World.of_step (h : World.step config tokenizer next w event = some (w', messages)) :
    EngineCore.step config tokenizer w.core event = some (w'.core, messages) ∧
      (World.batch? messages = none → w'.store = w.store) ∧
      ∀ batch, World.batch? messages = some batch → ∃ result, event = .engineStep [result] ∧
        Worker.execute next config.blockSize w.store batch =
          some (w'.store, result.sampledTokenIds) := by
  unfold World.step at h
  split at h
  · cases h
  · rename_i core messages' hstep
    split at h
    · rename_i hnone
      obtain ⟨rfl, rfl⟩ := Prod.mk.inj (Option.some.inj h)
      refine ⟨hstep, fun _ => rfl, fun batch hbatch => ?_⟩
      rw [hnone] at hbatch
      cases hbatch
    · rename_i batch result hsome
      split at h
      · cases h
      · rename_i store sampled hexecute
        split at h
        · rename_i hsame
          obtain ⟨rfl, rfl⟩ := Prod.mk.inj (Option.some.inj h)
          refine ⟨hstep, fun hnone => ?_, fun batch' hbatch' => ⟨result, rfl, ?_⟩⟩
          · rw [hsome] at hnone
            cases hnone
          · obtain rfl : batch = batch' := Option.some.inj (hsome.symm.trans hbatch')
            rw [hexecute, Dict.ext_entries hsame]
        · cases h
    · cases h

theorem World.step_stored (hstable : w.core.Stable config) (hranked : event.Ranked)
    (h : World.step config tokenizer next w event = some (w', messages)) :
    StoredStep config tokenizer w event messages w' := by
  obtain ⟨hcore, hidle, hbatch⟩ := World.of_step h
  have hstep : Step config tokenizer w.core event messages w'.core := ⟨hranked, hcore⟩
  obtain ⟨hd, _⟩ := hstep.derivation hstable
  refine ⟨hstep, fun hevents => hidle (batch?_of_onlyEvents hevents), fun rank batch hmem => ?_⟩
  obtain ⟨result, _, hexecute⟩ := hbatch batch (hd.batch?_eq hmem)
  exact ⟨_, List.Subset.refl _, Worker.execute_store hexecute, fun _ _ _ _ _ => rfl⟩

def driveWorld (config : EngineConfig) (tokenizer : Tokenizer) (next : List TokenId → TokenId)
    (events : List Event) : Option (List WorldTransition × World) :=
  Run.execute (World.step config tokenizer next) ⟨init config, fun _ => none⟩ events

theorem driveWorld_stored {events : List Event} {τs : List WorldTransition}
    (h : driveWorld config tokenizer next events = some (τs, w))
    (hranked : ∀ event ∈ events, event.Ranked) :
    StoredTrace config tokenizer (fun _ => none) τs w :=
  Run.of_execute_of_invariant (I := fun w => w.core.Stable config) h hranked (stable_init config)
    (fun _ _ _ _ hstable hstep => (hstep.toStep.derivation hstable).2)
    fun _ _ _ _ => World.step_stored

end Composed

/-- What the Worker finds right after a batch was appended. -/
structure PrivateCaches (config : EngineConfig) (s : Scheduler) (items : List WorkerItem)
    (input : GPUInputBatch) (store : Store) : Prop where
  slots_nodup : input.slotMapping.Nodup
  reads : ∀ index (h : index < items.length), ∃ r,
    s.running.get? items[index].requestId = some r ∧
      Worker.contextTokens store input index = some (r.allTokenIds.take items[index].seqLen)
  holds : ∀ item ∈ items, ∃ r, s.running.get? item.requestId = some r ∧ ∀ p < item.seqLen,
    ∃ block token, item.blockTable[p / config.blockSize]? = some block ∧
      r.allTokenIds[p]? = some token ∧
      store (block * config.blockSize + p % config.blockSize) = some token

/-- Once a batch was appended, the context range of each request reads its known tokens. -/
theorem Scheduler.Scheduled.contextTokens_eq {config : EngineConfig} {s admitted : Scheduler}
    {items : List WorkerItem} {m' : KVCacheManager} {store : Store}
    (hs : Scheduled config s admitted items m') (hsettled : s.Settled config)
    (hholds : Holds config s store) (batchId : ℕ) {index : ℕ} (hindex : index < items.length)
    {r : RequestState} (hr : admitted.running.get? items[index].requestId = some r) :
    Worker.contextTokens (Paging.write store (batchPairs items))
        (GPUInputBatch.ofItems config.blockSize ⟨batchId, items⟩) index =
      some (r.allTokenIds.take items[index].seqLen) := by
  have hitem : items[index] ∈ items := List.getElem_mem hindex
  obtain ⟨r', hr', hissued⟩ := hs.issued hitem
  obtain rfl : r = r' := Option.some.inj (hr.symm.trans hr')
  have hle := hissued.seqLen_le
  have hslice : Ragged.slice (items.map (GPUInputBatch.contextOf config.blockSize)).flatten
      (Ragged.starts (items.map (GPUInputBatch.contextOf config.blockSize))) index =
      GPUInputBatch.contextOf config.blockSize items[index] := by
    rw [Ragged.slice_starts (by simpa using hindex), List.getElem_map]
  rw [Worker.contextTokens,
    show Ragged.slice (GPUInputBatch.ofItems config.blockSize ⟨batchId, items⟩).contextSlotMapping
      (GPUInputBatch.ofItems config.blockSize ⟨batchId, items⟩).contextStartLoc index =
      GPUInputBatch.contextOf config.blockSize items[index] from hslice]
  apply Paging.readAll_eq_some
  · simp only [GPUInputBatch.contextOf, List.length_map, List.length_range, List.length_take]
    omega
  · intro i hi
    have hi' : i < items[index].seqLen := by simpa [GPUInputBatch.contextOf] using hi
    simp only [GPUInputBatch.contextOf, List.getElem_map, List.getElem_range]
    rw [hs.holds_item hsettled hholds hitem hr i hi', List.getElem?_take_of_lt hi']

/-- In every run, each scheduled batch is flattened without an error, and once it was
appended every item finds its own request's tokens in the store. What the Worker answers
does not matter. -/
theorem store_refines_private_caches {config : EngineConfig} {tokenizer : Tokenizer}
    {store : Store} {τs : List WorldTransition} {w : World}
    (h : StoredTrace config tokenizer store τs w) (hloop : w.core.stopped = false)
    {schedule : Schedule} {s' : Scheduler}
    (hschedule : (Scheduler.schedule config).run w.core.scheduler = .ok schedule s')
    {rank : Option ℕ} {items : List WorkerItem} (hbatch : (rank, items) ∈ schedule.byRank.entries)
    (batchId : ℕ) :
    ∃ input, GPUInputBatch.fromWorkerBatch ⟨batchId, items⟩ config.blockSize = .ok input ∧
      PrivateCaches config s' items input (Worker.appendKv w.store input) := by
  have hinv := h.inv
  have hsettled := hinv.stable hloop
  obtain ⟨admitted, items', m', hs, hrun⟩ := hsettled.run_schedule
  obtain ⟨rfl, rfl⟩ := EStateM.Result.ok.inj (hschedule.symm.trans hrun)
  rw [Schedule.ofItems_byRank] at hbatch
  split at hbatch
  · simp at hbatch
  · rename_i hne
    obtain ⟨rfl, rfl⟩ := Prod.mk.inj (List.mem_singleton.mp hbatch)
    have hvalid : ∀ item ∈ items, ValidItem config.blockSize item := by
      intro item hitem
      obtain ⟨_, _, hi⟩ := hs.issued hitem
      exact hi.valid
    refine ⟨_, GPUInputBatch.fromWorkerBatch_eq ⟨batchId, items⟩ config.blockSize_pos
      hne hvalid, hs.slots_nodup, ?_, ?_⟩
    · intro index hindex
      obtain ⟨r, hr, _⟩ := hs.issued (List.getElem_mem hindex)
      refine ⟨r, hr, ?_⟩
      rw [Worker.appendKv, kvPairs_ofItems ⟨batchId, items⟩ hvalid]
      exact hs.contextTokens_eq hsettled (hinv.holds hloop) batchId hindex hr
    · intro item hitem
      obtain ⟨r, hr, hissued⟩ := hs.issued hitem
      refine ⟨r, hr, fun p hp => ?_⟩
      have hdiv := hissued.covers.div_lt hp
      have hlt : p < r.allTokenIds.length := hp.trans_le hissued.seqLen_le
      refine ⟨item.blockTable[p / config.blockSize], r.allTokenIds[p],
        List.getElem?_eq_getElem hdiv, List.getElem?_eq_getElem hlt, ?_⟩
      rw [← Paging.slot_eq_getElem hdiv, ← List.getElem?_eq_getElem hlt, Worker.appendKv,
        kvPairs_ofItems ⟨batchId, items⟩ hvalid]
      exact hs.holds_item hsettled (hinv.holds hloop) hitem hr p hp

/-- A request whose blocks hold what an aborted one left behind. -/
def reusedBlocks : List Event :=
  [.command (.add (requestOf "a" [10, 11, 12])), .engineStep [answerOf 1 [("a", 23)]],
    .command (.abort "a"), .command (.add (requestOf "b" [13, 14, 15])),
    .engineStep [answerOf 2 [("b", 23)]]]

theorem store_refines_private_caches_reused : ∃ τs w schedule s' rank items input,
    StoredTrace smallConfig characterTokenizer (fun _ => none) τs w ∧
      (Scheduler.schedule smallConfig).run w.core.scheduler = .ok schedule s' ∧
      items.map (·.requestId) = ["b"] ∧ (rank, items) ∈ schedule.byRank.entries ∧
      PrivateCaches smallConfig s' items input (Worker.appendKv w.store input) := by
  have hsome : (driveWorld smallConfig characterTokenizer (fun tokens => 20 + tokens.length)
      reusedBlocks).map (fun run => (run.2.core.stopped,
        match (Scheduler.schedule smallConfig).run run.2.core.scheduler with
        | .ok schedule _ => schedule.byRank.entries.map (fun e => e.2.map (·.requestId))
        | .error _ _ => [])) = some (false, [["b"]]) := by decide +kernel
  obtain ⟨⟨τs, w⟩, hdrive, hrun⟩ := Option.map_eq_some_iff.mp hsome
  obtain ⟨hloop, hentries⟩ := Prod.mk.inj hrun
  dsimp only at hloop hentries
  have htrace := driveWorld_stored hdrive (by decide)
  cases hschedule : (Scheduler.schedule smallConfig).run w.core.scheduler with
  | error e s' => simp [hschedule] at hentries
  | ok schedule s' =>
      rw [hschedule] at hentries
      dsimp only at hentries
      have hb : ["b"] ∈ schedule.byRank.entries.map (fun e => e.2.map (·.requestId)) := by
        rw [hentries]
        exact List.mem_singleton_self _
      obtain ⟨⟨rank, items⟩, hmem, hitems⟩ := List.mem_map.mp hb
      obtain ⟨input, _, hcaches⟩ := store_refines_private_caches htrace hloop hschedule hmem 3
      exact ⟨τs, w, schedule, s', rank, items, input, htrace, hschedule, hitems, hmem, hcaches⟩

end MiniVLLM
