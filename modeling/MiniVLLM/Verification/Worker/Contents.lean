import MiniVLLM.Verification.Worker.Batch
import MiniVLLM.Verification.Engine.Conservation

/-! # What a paged memory shows

A memory with one cell for each slot, and what belongs to a position of a request. Between
steps, the cells of a live request show its computed positions. A batch extends this to the
ends of its items. -/

namespace MiniVLLM

open KVCacheManager Scheduler EngineCore

/-! ## Slots of a batch -/

section Slots

variable {config : EngineConfig} {s admitted : Scheduler} {items : List WorkerItem}
  {m' : KVCacheManager}

theorem slot_ne {m : KVCacheManager} (hm : m.Owned config.numGpuBlocks) {id id' : RequestId}
    {t t' : List ℕ} {p q : ℕ} (ht : m.tables.get? id = some t) (ht' : m.tables.get? id' = some t')
    (hp : p / config.blockSize < t.length) (hq : q / config.blockSize < t'.length)
    (hne : id ≠ id' ∨ p ≠ q) :
    Paging.slot config.blockSize t p ≠ Paging.slot config.blockSize t' q := by
  by_cases hid : id = id'
  · subst hid
    obtain rfl : t = t' := Option.some.inj (ht.symm.trans ht')
    intro heq
    exact (hne.resolve_left (fun h => h rfl))
      (Paging.slot_inj config.blockSize_pos (hm.table_nodup ht) hp hq heq)
  · exact Paging.slot_ne_of_disjoint config.blockSize_pos (hm.tables_disjoint hid ht ht') hp hq

theorem Scheduler.Issued.mem_slotMapping {m : KVCacheManager} {r : RequestState}
    {item : WorkerItem} (h : Issued config m m' r item) {slot : ℕ} :
    slot ∈ item.slotMapping ↔ ∃ p, item.startPos ≤ p ∧ p < item.seqLen ∧
      slot = Paging.slot config.blockSize item.blockTable p := by
  have hlt := h.start_lt
  rw [h.slotMapping_eq, List.mem_map]
  constructor
  · rintro ⟨p, hp, rfl⟩
    obtain ⟨hstart, hp⟩ := List.mem_range'_1.mp hp
    exact ⟨p, hstart, by omega, rfl⟩
  · rintro ⟨p, hstart, hp, rfl⟩
    exact ⟨p, List.mem_range'_1.mpr ⟨hstart, by omega⟩, rfl⟩

/-- The request of a table after `schedule` is running. -/
theorem Scheduler.Scheduled.running_of_table (h : Scheduled config s admitted items m')
    {id : RequestId} {r : RequestState} {t : List ℕ}
    (hr : (admitted.withCache m').request? id = some r) (ht : m'.tables.get? id = some t) :
    admitted.running.get? id = some r := by
  have hkey : id ∈ admitted.running.keys :=
    (h.inv.tables_keys id).mp (Dict.mem_keys_of_get? ht)
  obtain ⟨r', hr'⟩ := Dict.mem_keys_iff.mp hkey
  have hsame : r' = r := Option.some.inj ((request?_of_running hr').symm.trans hr)
  exact hsame ▸ hr'

/-- A batch writes no computed position of any request. -/
theorem Scheduler.Scheduled.computed_not_written (h : Scheduled config s admitted items m')
    {id : RequestId} {r : RequestState} {t : List ℕ}
    (hr : admitted.running.get? id = some r) (ht : m'.tables.get? id = some t) {p : ℕ}
    (hp : p < r.numComputedTokens) :
    Paging.slot config.blockSize t p ∉ items.flatMap (·.slotMapping) := by
  have howned := h.loop.owned h.settled.owned
  obtain ⟨t₀, ht₀⟩ := h.settled.table_of_running hr
  obtain ⟨extra, hextra⟩ := h.loop.tables_grow ht₀
  obtain rfl : t = t₀ ++ extra := Option.some.inj (ht.symm.trans hextra)
  have hcovers₀ : p / config.blockSize < t₀.length := (h.settled.covers hr ht₀).div_lt hp
  have hcovers : p / config.blockSize < (t₀ ++ extra).length := by
    rw [List.length_append]
    omega
  intro hmem
  obtain ⟨item, hitem, hslot⟩ := List.mem_flatMap.mp hmem
  obtain ⟨r', hr', hissued⟩ := h.issued hitem
  obtain ⟨q, hstart, hq, heq⟩ := hissued.mem_slotMapping.mp hslot
  have htable := hissued.table
  rw [h.settled.ids _ _ hr'] at htable
  refine slot_ne howned ht htable hcovers (hissued.covers.div_lt hq) ?_ heq
  by_cases hid : id = item.requestId
  · subst hid
    obtain rfl : r = r' := Option.some.inj (hr.symm.trans hr')
    rw [hissued.startPos_eq] at hstart
    exact Or.inr (by omega)
  · exact Or.inl hid

end Slots

/-! ## Cells -/

section Cells

variable {β : Type*} {config : EngineConfig} {content : List TokenId → ℕ → β}
  {s admitted : Scheduler} {items : List WorkerItem} {m' : KVCacheManager} {cells cells' : ℕ → β}

/-- The cells of a live request show what belongs to its computed positions. -/
def Shows (config : EngineConfig) (content : List TokenId → ℕ → β) (s : Scheduler)
    (cells : ℕ → β) : Prop :=
  ∀ id r t, s.request? id = some r → s.cacheManager.tables.get? id = some t →
    ∀ p < r.numComputedTokens,
      cells (Paging.slot config.blockSize t p) = content r.allTokenIds p

/-- Later tokens do not change what belongs to a position. -/
def Causal (content : List TokenId → ℕ → β) : Prop :=
  ∀ (tokens extra : List TokenId), ∀ p < tokens.length,
    content (tokens ++ extra) p = content tokens p

/-- What is written to the slots of a batch leaves the computed positions of all requests
alone. -/
theorem Scheduler.Scheduled.shows_kept (h : Scheduled config s admitted items m')
    (hsettled : s.Settled config) (hshows : Shows config content s cells)
    (hkept : ∀ slot ∉ items.flatMap (·.slotMapping), cells' slot = cells slot) :
    Shows config content (admitted.withCache m') cells' := by
  intro id r t hr ht p hp
  have hrun := h.running_of_table hr ht
  rw [hkept _ (h.computed_not_written hrun ht hp)]
  obtain ⟨t₀, ht₀⟩ := h.settled.table_of_running hrun
  obtain ⟨extra, hextra⟩ := h.loop.tables_grow ht₀
  obtain rfl : t = t₀ ++ extra := Option.some.inj (ht.symm.trans hextra)
  rw [Paging.slot_append extra ((h.settled.covers hrun ht₀).div_lt hp)]
  have hreq : s.request? id = some r := by
    rw [← h.admission.request?_eq hsettled h.settled]
    exact request?_of_running hrun
  -- A request seated by this very call has nothing computed yet.
  by_cases hold : id ∈ s.cacheManager.tables.keys
  · obtain ⟨t₁, ht₁⟩ := Dict.mem_keys_iff.mp hold
    obtain rfl : t₀ = t₁ :=
      Option.some.inj (ht₀.symm.trans (h.admission.tables_get? hsettled ht₁))
    exact hshows id r t₀ hreq ht₁ p hp
  · rcases hsettled.request?_eq_some_iff.mp hreq with hrun' | ⟨w, hw, _, rfl⟩
    · exact absurd ((hsettled.tables_keys id).mpr (Dict.mem_keys_of_get? hrun')) hold
    · have hzero := (hsettled.waiting_fresh w hw).1
      simp only [RequestState.seat, hzero] at hp
      omega

/-- What each item writes belongs to its positions. -/
def Written (config : EngineConfig) (content : List TokenId → ℕ → β) (admitted : Scheduler)
    (items : List WorkerItem) (cells : ℕ → β) : Prop :=
  ∀ item ∈ items, ∀ r, admitted.running.get? item.requestId = some r →
    ∀ p, item.startPos ≤ p → p < item.seqLen →
      cells (Paging.slot config.blockSize item.blockTable p) = content r.allTokenIds p

/-- After the whole batch was written, each item's request is shown up to the item's end. -/
theorem Scheduler.Scheduled.shows_item (h : Scheduled config s admitted items m')
    (hsettled : s.Settled config) (hshows : Shows config content s cells)
    (hkept : ∀ slot ∉ items.flatMap (·.slotMapping), cells' slot = cells slot)
    (hwritten : Written config content admitted items cells') {item : WorkerItem}
    (hitem : item ∈ items) {r : RequestState}
    (hr : admitted.running.get? item.requestId = some r) :
    ∀ p < item.seqLen,
      cells' (Paging.slot config.blockSize item.blockTable p) = content r.allTokenIds p := by
  intro p hp
  obtain ⟨r', hr', hissued⟩ := h.issued hitem
  obtain rfl : r = r' := Option.some.inj (hr.symm.trans hr')
  have htable : m'.tables.get? item.requestId = some item.blockTable :=
    h.settled.ids _ _ hr ▸ hissued.table
  by_cases hcomputed : p < r.numComputedTokens
  · exact h.shows_kept hsettled hshows hkept item.requestId r item.blockTable
      (request?_of_running hr) htable p hcomputed
  · refine hwritten item hitem r hr p ?_ hp
    rw [hissued.startPos_eq]
    omega

end Cells

/-! ## After the answer -/

section Answers

variable {β : Type*} {config : EngineConfig} {tokenizer : Tokenizer} {result : WorkerResult}
  {content : List TokenId → ℕ → β} {s s' admitted : Scheduler} {items : List WorkerItem}
  {outs : List RequestOutput} {m' : KVCacheManager} {cells cells' : ℕ → β} {id : RequestId}
  {t : List ℕ}

theorem removed_tables {s : Scheduler} {id' : RequestId} {t' : List ℕ}
    (ht : (s.removed id' t').cacheManager.tables.get? id = some t) :
    s.cacheManager.tables.get? id = some t := by
  by_cases hid : id = id'
  · simp [Scheduler.removed, reclaimed, hid] at ht
  · rwa [Scheduler.removed, reclaimed, Dict.get?_erase_of_ne _ hid] at ht

theorem BatchDerivation.tables (h : BatchDerivation config tokenizer result items s outs s')
    (ht : s'.cacheManager.tables.get? id = some t) : s.cacheManager.tables.get? id = some t := by
  induction h with
  | nil => exact ht
  | advance _ _ _ ih => exact ih ht
  | extend _ _ _ _ ih => exact ih ht
  | finish _ _ _ _ _ ih => exact removed_tables (ih ht)

theorem FailDerivation.tables (h : FailDerivation items s s')
    (ht : s'.cacheManager.tables.get? id = some t) : s.cacheManager.tables.get? id = some t := by
  induction h with
  | nil => exact ht
  | remove _ _ _ ih => exact removed_tables (ih ht)

theorem Scheduler.Scheduled.shows_answer (h : Scheduled config s admitted items m')
    (hsettled : s.Settled config) (hcausal : Causal content)
    (hshows : Shows config content s cells)
    (hkept : ∀ slot ∉ items.flatMap (·.slotMapping), cells' slot = cells slot)
    (hwritten : Written config content admitted items cells')
    (hd : BatchDerivation config tokenizer result items (admitted.withCache m') outs s') :
    Shows config content s' cells' := by
  intro id r' t hr' ht p hp
  have ht' : m'.tables.get? id = some t := hd.tables ht
  by_cases hid : id ∈ items.map (·.requestId)
  · obtain ⟨item, hitem, rfl⟩ := List.mem_map.mp hid
    obtain ⟨r, hr, hissued⟩ := h.issued hitem
    have htable : m'.tables.get? item.requestId = some item.blockTable :=
      h.settled.ids _ _ hr ▸ hissued.table
    obtain rfl : t = item.blockTable := Option.some.inj (ht'.symm.trans htable)
    have hend := hissued.start_add_length
    rw [hissued.startPos_eq] at hend
    have hitems := h.shows_item hsettled hshows hkept hwritten hitem hr
    have houtcome := hd.of_mem h.inFlight hitem hr
    rw [hr'] at houtcome
    generalize outs.filter (fun output => output.requestId = item.requestId) = outs' at houtcome
    cases houtcome with
    | advance =>
        rw [RequestState.advance, hend] at hp
        exact hitems p hp
    | extend _ hsample =>
        obtain ⟨_, rfl, _⟩ := RequestState.of_sample_eq_none hsample
        rw [RequestState.advance, hend] at hp
        have hlt : p < r.allTokenIds.length := hp.trans_le hissued.seqLen_le
        rw [hitems p hp]
        simp only [RequestState.allTokenIds, RequestState.advance] at hlt ⊢
        rw [← List.append_assoc]
        exact (hcausal _ _ p hlt).symm
  · have hreq : (admitted.withCache m').request? id = some r' :=
      (hd.of_not_mem h.inFlight hid).2 ▸ hr'
    exact h.shows_kept hsettled hshows hkept id r' t hreq ht' p hp

theorem Scheduler.Scheduled.shows_fail (h : Scheduled config s admitted items m')
    (hsettled : s.Settled config) (hshows : Shows config content s cells)
    (hkept : ∀ slot ∉ items.flatMap (·.slotMapping), cells' slot = cells slot)
    (hd : FailDerivation items (admitted.withCache m') s') : Shows config content s' cells' := by
  intro id r t hr ht p hp
  rw [hd.request?_eq h.inFlight] at hr
  split at hr
  · cases hr
  · exact h.shows_kept hsettled hshows hkept id r t hr (hd.tables ht) p hp

/-! ## Steps -/

/-- What a step of the engine does to the cells: nothing outside of the slots of a batch, and to
those what belongs there, unless the batch failed. -/
structure CellsStep (config : EngineConfig) (content : List TokenId → ℕ → β) (core : EngineCore)
    (event : Event) (messages : List CoreMessage) (cells cells' : ℕ → β) : Prop where
  untouched : OnlyEvents messages → cells' = cells
  kept : ∀ rank batch, CoreMessage.batch rank batch ∈ messages →
    ∀ slot ∉ batch.items.flatMap (·.slotMapping), cells' slot = cells slot
  written : ∀ rank batch incoming result, CoreMessage.batch rank batch ∈ messages →
    event = .engineStep incoming → answer? (core.batchId + 1) incoming = some result →
      result.batchId ≠ -1 → result.failed = false → ∀ admitted m',
        Scheduled config core.scheduler admitted batch.items m' →
          Written config content admitted batch.items cells'

theorem CellsStep.shows {core core' : EngineCore} {event : Event} {messages : List CoreMessage}
    (h : CellsStep config content core event messages cells cells')
    (hd : StepDerivation config tokenizer core event messages core')
    (hsettled : core.scheduler.Settled config) (hcausal : Causal content)
    (hshows : Shows config content core.scheduler cells) (hloop : core'.stopped = false) :
    Shows config content core'.scheduler cells' := by
  have hsame : OnlyEvents messages → core'.scheduler = core.scheduler →
      Shows config content core'.scheduler cells' := by
    intro hevents heq
    rw [h.untouched hevents, heq]
    exact hshows
  cases hd with
  | shutdown => exact hsame (onlyEvents_outputs []) rfl
  | @accept request hnew hfits =>
      rw [h.untouched (onlyEvents_outputs [])]
      intro id r t hr ht p hp
      have hid : id ≠ request.requestId := by
        rintro rfl
        exact hnew (Or.inl ((hsettled.tables_keys _).mp (Dict.mem_keys_of_get? ht)))
      have hr' : (core.scheduler.enqueued request).request? id = some r := hr
      rw [request?_enqueued hnew, if_neg hid] at hr'
      exact hshows id r t hr' ht p hp
  | reject => exact hsame (onlyEvents_outputs [_]) rfl
  | @abortRunning id' r' t' hr' ht' =>
      rw [h.untouched (onlyEvents_outputs [_])]
      intro id r t hr ht p hp
      have hr₁ : (core.scheduler.removed id' t').request? id = some r := hr
      rw [hsettled.request?_removed (Dict.mem_keys_of_get? hr') ht'] at hr₁
      split at hr₁
      · cases hr₁
      · exact hshows id r t hr₁ (removed_tables ht) p hp
  | @abortWaiting id' hrun' hwait =>
      rw [h.untouched (onlyEvents_outputs [_])]
      intro id r t hr ht p hp
      have hr₁ : (core.scheduler.dropped id').request? id = some r := hr
      rw [hsettled.request?_dropped hrun'] at hr₁
      split at hr₁
      · cases hr₁
      · exact hshows id r t hr₁ ht p hp
  | abortMiss => exact hsame (onlyEvents_outputs []) rfl
  | @idle incoming admitted m' hs =>
      rw [h.untouched (onlyEvents_outputs [])]
      exact hs.shows_kept hsettled hshows (fun _ _ => rfl)
  | @fail incoming admitted items m' result s' hs hne hanswer hstarted hfailed hd =>
      exact hs.shows_fail hsettled hshows
        (h.kept 0 ⟨core.batchId + 1, items⟩ (List.mem_cons_self ..)) hd
  | @answer incoming admitted items m' result outs s' hs hne hanswer hstarted hok hd =>
      exact hs.shows_answer hsettled hcausal hshows
        (h.kept 0 ⟨core.batchId + 1, items⟩ (List.mem_cons_self ..))
        (h.written 0 ⟨core.batchId + 1, items⟩ incoming result (List.mem_cons_self ..) rfl hanswer
          hstarted hok admitted m' hs) hd
  | crash => simp [next, halted] at hloop
  | leave => simp [next, halted] at hloop

end Answers

end MiniVLLM
