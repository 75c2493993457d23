import MiniVLLM.Verification.Scheduler.Scheduling

/-! # What a schedule contains

Consequences of the scheduling rules: which request an item is for, which blocks it comes
with, and what the loop leaves alone. -/

namespace MiniVLLM

open KVCacheManager

namespace Scheduler

/-- An item cut from a request: the managers `m` and `m'` are those before and after the
scheduling loop. -/
structure Issued (config : EngineConfig) (m m' : KVCacheManager) (request : RequestState)
    (item : WorkerItem) : Prop where
  requestId_eq : item.requestId = request.requestId
  startPos_eq : item.startPos = request.numComputedTokens
  start_lt : item.startPos < item.seqLen
  seqLen_le : item.seqLen ≤ request.allTokenIds.length
  tokenIds_eq : item.tokenIds =
    (request.allTokenIds.drop item.startPos).take (item.seqLen - item.startPos)
  table : m'.tables.get? request.requestId = some item.blockTable
  blocks : ∃ t extra, m.tables.get? request.requestId = some t ∧
    item.blockTable = t ++ extra ∧
    item.blockTable.length = max t.length (requiredBlocks config.blockSize item.seqLen)
  slotMapping_eq : item.slotMapping = (List.range' item.startPos
    (item.seqLen - item.startPos)).map (Paging.slot config.blockSize item.blockTable)
  generatedCount_eq : item.generatedCount = request.outputTokenIds.length
  shouldSample_eq : item.shouldSample = decide (item.seqLen = request.allTokenIds.length)
  temperature_eq : item.temperature = request.samplingParams.temperature

namespace Issued

variable {config : EngineConfig} {m m' : KVCacheManager} {request : RequestState}
  {item : WorkerItem}

theorem length_tokenIds (h : Issued config m m' request item) :
    item.tokenIds.length = item.seqLen - item.startPos := by
  have hle := h.seqLen_le
  rw [h.tokenIds_eq, List.length_take, List.length_drop]
  omega

theorem tokenIds_pos (h : Issued config m m' request item) : 0 < item.tokenIds.length := by
  rw [h.length_tokenIds]
  exact Nat.sub_pos_of_lt h.start_lt

theorem start_add_length (h : Issued config m m' request item) :
    item.startPos + item.tokenIds.length = item.seqLen := by
  rw [h.length_tokenIds]
  exact Nat.add_sub_cancel' h.start_lt.le

theorem covers (h : Issued config m m' request item) :
    Paging.Covers config.blockSize item.blockTable item.seqLen := by
  obtain ⟨t, extra, _, _, hlen⟩ := h.blocks
  rw [covers_iff config.blockSize_pos, hlen]
  exact Nat.le_max_right _ _

theorem getElem?_tokenIds (h : Issued config m m' request item) {i : ℕ}
    (hi : i < item.tokenIds.length) :
    item.tokenIds[i]? = request.allTokenIds[item.startPos + i]? := by
  rw [h.length_tokenIds] at hi
  rw [h.tokenIds_eq, List.getElem?_take_of_lt hi, List.getElem?_drop]

end Issued

theorem issued_issuedItem {config : EngineConfig} {m m' : KVCacheManager}
    {request : RequestState} {count missing : ℕ} {t : List ℕ} (hcount : 0 < count)
    (hle : count ≤ remaining request) (ht : m.tables.get? request.requestId = some t)
    (hmissing : missing = missingBlocks config request t count)
    (hfree : missing ≤ m.pool.free.length)
    (ht' : m'.tables.get? request.requestId = some (t ++ m.pool.free.take missing)) :
    Issued config m m' request
      (issuedItem config request count (t ++ m.pool.free.take missing)) := by
  have hsub : request.numComputedTokens + count - request.numComputedTokens = count :=
    Nat.add_sub_cancel_left _ _
  refine ⟨rfl, rfl, ?_, ?_, ?_, ht', ⟨t, m.pool.free.take missing, ht, rfl, ?_⟩, ?_, rfl, rfl, rfl⟩
  · simp only [issuedItem, makeItem]
    omega
  · simp only [issuedItem, makeItem]
    unfold remaining at hle
    omega
  · simp only [issuedItem, makeItem, hsub]
  · have htake : (m.pool.free.take missing).length = missing := by
      rw [List.length_take, Nat.min_eq_left hfree]
    simp only [issuedItem, makeItem, List.length_append, htake]
    rw [hmissing, missingBlocks]
    omega
  · simp only [issuedItem, makeItem, hsub]

@[simp] theorem issuedItem_requestId (config : EngineConfig) (request : RequestState)
    (count : ℕ) (t : List ℕ) : (issuedItem config request count t).requestId = request.requestId :=
  rfl

namespace ScheduleDerivation

variable {config : EngineConfig} {requests : List RequestState} {budget : ℕ}
  {m m' : KVCacheManager} {items : List WorkerItem}

theorem owned (h : ScheduleDerivation config requests budget m items m') {n : ℕ}
    (hm : m.Owned n) : m'.Owned n := by
  induction h with
  | done => exact hm
  | exhausted => exact hm
  | idle _ _ _ ih => exact ih hm
  | blocked _ _ _ _ _ ih => exact ih hm
  | issue _ _ ht _ _ _ _ ih => exact ih (hm.grown ht _)

theorem mem_keys_iff (h : ScheduleDerivation config requests budget m items m')
    (id : RequestId) : id ∈ m'.tables.keys ↔ id ∈ m.tables.keys := by
  induction h with
  | done => rfl
  | exhausted => rfl
  | idle _ _ _ ih => exact ih
  | blocked _ _ _ _ _ ih => exact ih
  | issue _ _ ht _ _ _ _ ih =>
      rw [ih, grown, Dict.mem_keys_set]
      constructor
      · rintro (rfl | hid)
        · exact Dict.mem_keys_of_get? ht
        · exact hid
      · exact Or.inr

theorem items_sublist (h : ScheduleDerivation config requests budget m items m') :
    (items.map (·.requestId)).Sublist (requests.map (·.requestId)) := by
  induction h with
  | done => exact .slnil
  | exhausted => exact List.nil_sublist _
  | idle _ _ _ ih => exact .cons _ ih
  | blocked _ _ _ _ _ ih => exact .cons _ ih
  | issue _ _ _ _ _ _ _ ih => exact .cons_cons _ ih

theorem tables_get?_of_not_mem (h : ScheduleDerivation config requests budget m items m')
    {id : RequestId} (hid : id ∉ items.map (·.requestId)) :
    m'.tables.get? id = m.tables.get? id := by
  induction h with
  | done => rfl
  | exhausted => rfl
  | idle _ _ _ ih => exact ih hid
  | blocked _ _ _ _ _ ih => exact ih hid
  | issue _ _ _ _ _ _ _ ih =>
      simp only [List.map_cons, List.mem_cons, not_or, issuedItem_requestId] at hid
      rw [ih hid.2, grown, Dict.get?_set_of_ne _ _ hid.1]

theorem tables_grow (h : ScheduleDerivation config requests budget m items m')
    {id : RequestId} {t : List ℕ} (ht : m.tables.get? id = some t) :
    ∃ extra, m'.tables.get? id = some (t ++ extra) := by
  induction h generalizing t with
  | done => exact ⟨[], by rw [ht, List.append_nil]⟩
  | exhausted => exact ⟨[], by rw [ht, List.append_nil]⟩
  | idle _ _ _ ih => exact ih ht
  | blocked _ _ _ _ _ ih => exact ih ht
  | @issue request requests budget m items m' u count missing _ _ hu _ _ _ _ ih =>
      by_cases hid : id = request.requestId
      · subst hid
        obtain rfl : t = u := Option.some.inj (ht.symm.trans hu)
        obtain ⟨extra, hextra⟩ := ih (t := t ++ m.pool.free.take missing) (by
          rw [grown, Dict.get?_set_self])
        exact ⟨m.pool.free.take missing ++ extra, by rw [hextra, List.append_assoc]⟩
      · exact ih (by rw [grown, Dict.get?_set_of_ne _ _ hid, ht])

/-- Every item was cut from one of the requests. -/
theorem issued (h : ScheduleDerivation config requests budget m items m')
    (hnodup : (requests.map (·.requestId)).Nodup) :
    ∀ item ∈ items, ∃ request ∈ requests, Issued config m m' request item := by
  induction h with
  | done => simp
  | exhausted => simp
  | idle _ _ _ ih =>
      intro item hitem
      obtain ⟨r, hr, hi⟩ := ih (List.nodup_cons.mp hnodup).2 item hitem
      exact ⟨r, List.mem_cons_of_mem _ hr, hi⟩
  | blocked _ _ _ _ _ ih =>
      intro item hitem
      obtain ⟨r, hr, hi⟩ := ih (List.nodup_cons.mp hnodup).2 item hitem
      exact ⟨r, List.mem_cons_of_mem _ hr, hi⟩
  | @issue request requests budget m items m' t count missing hbudget hrem ht hcount hmissing
      hfree hd ih =>
      obtain ⟨hnotin, hnodup⟩ := List.nodup_cons.mp hnodup
      intro item hitem
      rcases List.mem_cons.mp hitem with rfl | hitem
      · have hnot : request.requestId ∉ items.map (·.requestId) :=
          fun hmem => hnotin (hd.items_sublist.subset hmem)
        have htable : m'.tables.get? request.requestId =
            some (t ++ m.pool.free.take missing) := by
          rw [hd.tables_get?_of_not_mem hnot, grown, Dict.get?_set_self]
        refine ⟨request, by simp, issued_issuedItem ?_ ?_ ht hmissing hfree htable⟩
        · omega
        · exact hcount ▸ Nat.min_le_left _ _
      · obtain ⟨r, hr, hi⟩ := ih hnodup item hitem
        have hne : r.requestId ≠ request.requestId :=
          fun heq => hnotin (List.mem_map.mpr ⟨r, hr, heq⟩)
        obtain ⟨u, extra, hu, happ, hlen⟩ := hi.blocks
        rw [grown, Dict.get?_set_of_ne _ _ hne] at hu
        exact ⟨r, List.mem_cons_of_mem _ hr, { hi with blocks := ⟨u, extra, hu, happ, hlen⟩ }⟩

/-- The items share the token budget. -/
theorem sum_tokens_le (h : ScheduleDerivation config requests budget m items m') :
    (items.map (fun item => item.tokenIds.length)).sum ≤ budget := by
  induction h with
  | done => simp
  | exhausted => simp
  | idle _ _ _ ih => exact ih
  | blocked _ _ _ _ _ ih => exact ih
  | @issue request requests budget m items m' t count missing hbudget _ _ hcount _ _ _ ih =>
      have hlen : (issuedItem config request count
          (t ++ m.pool.free.take missing)).tokenIds.length = count :=
        length_makeItem_tokenIds (hcount ▸ Nat.min_le_left _ _)
      have hle : count ≤ budget := hcount ▸ Nat.min_le_right _ _
      simp only [List.map_cons, List.sum_cons, hlen]
      omega

/-- A schedule stays empty only while each request is idle or blocked by the pool as it
was before the loop. -/
theorem blocked_of_nil (h : ScheduleDerivation config requests budget m [] m')
    (hbudget : 0 < budget) :
    ∀ r ∈ requests, remaining r = 0 ∨ ∃ t, m.tables.get? r.requestId = some t ∧
      m.pool.free.length < missingBlocks config r t (min (remaining r) budget) := by
  generalize hnil : ([] : List WorkerItem) = items at h
  induction h with
  | done => simp
  | exhausted => omega
  | idle _ hrem _ ih =>
      intro r hr
      rcases List.mem_cons.mp hr with rfl | hr
      · exact Or.inl hrem
      · exact ih hbudget hnil r hr
  | blocked _ _ ht hfull _ ih =>
      intro r hr
      rcases List.mem_cons.mp hr with rfl | hr
      · exact Or.inr ⟨_, ht, hfull⟩
      · exact ih hbudget hnil r hr
  | issue => simp at hnil

theorem eq_of_nil (h : ScheduleDerivation config requests budget m [] m') : m' = m := by
  generalize hnil : ([] : List WorkerItem) = items at h
  induction h with
  | done => rfl
  | exhausted => rfl
  | idle _ _ _ ih => exact ih hnil
  | blocked _ _ _ _ _ ih => exact ih hnil
  | issue => simp at hnil

theorem nil_of_blocked (h : ScheduleDerivation config requests budget m items m')
    (hblocked : ∀ r ∈ requests, remaining r = 0 ∨ ∃ t, m.tables.get? r.requestId = some t ∧
      m.pool.free.length < missingBlocks config r t (min (remaining r) budget)) :
    items = [] := by
  induction h with
  | done => rfl
  | exhausted => rfl
  | idle _ _ _ ih => exact ih (fun r hr => hblocked r (List.mem_cons_of_mem _ hr))
  | blocked _ _ _ _ _ ih => exact ih (fun r hr => hblocked r (List.mem_cons_of_mem _ hr))
  | @issue request requests budget m items m' t count missing _ hrem ht hcount hmissing hfree =>
      rcases hblocked request (by simp) with hzero | ⟨u, hu, hfull⟩
      · omega
      · obtain rfl : t = u := Option.some.inj (ht.symm.trans hu)
        rw [← hcount, ← hmissing] at hfull
        omega

end ScheduleDerivation

/-! ## The schedule of a list of items -/

/-- The schedule that holds exactly these items, all for rank 0. -/
def Schedule.ofItems (items : List WorkerItem) : Schedule := Schedule.issueAll .empty items

theorem Schedule.issueAll_byRank (items : List WorkerItem) (acc : Schedule)
    (prior : List WorkerItem) (hacc : acc.byRank.entries =
      if prior = [] then [] else [(some 0, prior)]) :
    (Schedule.issueAll acc items).byRank.entries =
      if prior ++ items = [] then [] else [(some 0, prior ++ items)] := by
  induction items generalizing acc prior with
  | nil => simpa [Schedule.issueAll] using hacc
  | cons item items ih =>
      have hstep : (acc.issue (some 0) item item.tokenIds.length).byRank.entries =
          if prior ++ [item] = [] then [] else [(some 0, prior ++ [item])] := by
        by_cases hprior : prior = []
        · subst hprior
          simp only [if_true] at hacc
          have hempty : acc.byRank = Dict.empty := Dict.ext_entries hacc
          simp [Schedule.issue, hempty, Dict.set]
        · rw [if_neg hprior] at hacc
          have hsingle : acc.byRank = Dict.singleton (some 0) prior := Dict.ext_entries hacc
          simp [Schedule.issue, hsingle, Dict.set, Dict.singleton, Dict.keys, Dict.get?]
      have hrest := ih _ (prior ++ [item]) hstep
      rw [List.append_assoc, List.singleton_append] at hrest
      exact hrest

theorem Schedule.ofItems_byRank (items : List WorkerItem) :
    (Schedule.ofItems items).byRank.entries = if items = [] then [] else [(some 0, items)] :=
  Schedule.issueAll_byRank items .empty [] rfl

theorem Schedule.ofItems_byRank_nil : (Schedule.ofItems []).byRank.entries = [] := rfl

theorem Schedule.ofItems_byRank_of_ne {items : List WorkerItem} (h : items ≠ []) :
    (Schedule.ofItems items).byRank = Dict.singleton (some 0) items := by
  apply Dict.ext_entries
  rw [Schedule.ofItems_byRank, if_neg h]
  rfl

theorem Schedule.issueAll_counts_of_not_mem (items : List WorkerItem) (acc : Schedule)
    {id : RequestId} (h : id ∉ items.map (·.requestId)) :
    (Schedule.issueAll acc items).scheduledCounts.get? id = acc.scheduledCounts.get? id := by
  induction items generalizing acc with
  | nil => rfl
  | cons item items ih =>
      simp only [List.map_cons, List.mem_cons, not_or] at h
      rw [show Schedule.issueAll acc (item :: items) =
        Schedule.issueAll (acc.issue (some 0) item item.tokenIds.length) items from rfl, ih _ h.2,
        Schedule.issue, Dict.get?_set_of_ne _ _ h.1]

theorem Schedule.ofItems_counts {items : List WorkerItem}
    (hnodup : (items.map (·.requestId)).Nodup) {item : WorkerItem} (hitem : item ∈ items) :
    (Schedule.ofItems items).scheduledCounts.get? item.requestId =
      some item.tokenIds.length := by
  suffices hgen : ∀ (items : List WorkerItem) (acc : Schedule),
      (items.map (·.requestId)).Nodup → item ∈ items →
      (Schedule.issueAll acc items).scheduledCounts.get? item.requestId =
        some item.tokenIds.length from hgen items .empty hnodup hitem
  intro items
  induction items with
  | nil => intro acc _ h; simp at h
  | cons first items ih =>
      intro acc hnodup hitem
      obtain ⟨hnotin, hnodup⟩ := List.nodup_cons.mp hnodup
      rcases List.mem_cons.mp hitem with rfl | hitem
      · rw [show Schedule.issueAll acc (item :: items) =
          Schedule.issueAll (acc.issue (some 0) item item.tokenIds.length) items from rfl,
          Schedule.issueAll_counts_of_not_mem _ _ hnotin, Schedule.issue, Dict.get?_set_self]
      · exact ih _ hnodup hitem

/-! ## One call of `schedule` -/

/-- The tokens in flight for a request: the length of its item, if it has one. -/
def pendingOf (items : List WorkerItem) (id : RequestId) : ℕ :=
  ((items.find? (fun item => item.requestId = id)).map (fun item => item.tokenIds.length)).getD 0

theorem pendingOf_of_not_mem {items : List WorkerItem} {id : RequestId}
    (h : id ∉ items.map (·.requestId)) : pendingOf items id = 0 := by
  have hnone : items.find? (fun item => item.requestId = id) = none := by
    rw [List.find?_eq_none]
    intro item hitem hid
    exact h (List.mem_map.mpr ⟨item, hitem, of_decide_eq_true hid⟩)
  simp [pendingOf, hnone]

theorem pendingOf_cons_self (item : WorkerItem) (items : List WorkerItem) :
    pendingOf (item :: items) item.requestId = item.tokenIds.length := by
  simp [pendingOf]

theorem pendingOf_cons_of_ne {item : WorkerItem} {id : RequestId} (items : List WorkerItem)
    (h : id ≠ item.requestId) : pendingOf (item :: items) id = pendingOf items id := by
  simp [pendingOf, List.find?_cons_of_neg, h.symm]

theorem pendingOf_of_mem {items : List WorkerItem} {item : WorkerItem}
    (hnodup : (items.map (·.requestId)).Nodup) (hitem : item ∈ items) :
    pendingOf items item.requestId = item.tokenIds.length := by
  induction items with
  | nil => simp at hitem
  | cons first items ih =>
      obtain ⟨hnotin, hnodup⟩ := List.nodup_cons.mp hnodup
      rcases List.mem_cons.mp hitem with rfl | hitem
      · exact pendingOf_cons_self _ _
      · have hne : item.requestId ≠ first.requestId :=
          fun heq => hnotin (List.mem_map.mpr ⟨item, hitem, heq⟩)
        rw [pendingOf_cons_of_ne _ hne, ih hnodup hitem]

theorem Inv.map_requestId_values {config : EngineConfig} {pending : RequestId → ℕ}
    {s : Scheduler} (h : s.Inv config pending) :
    s.running.values.map (·.requestId) = s.running.keys := by
  rw [Dict.values, Dict.keys, List.map_map]
  apply List.map_congr_left
  rintro ⟨id, r⟩ hmem
  exact h.ids id r (Dict.get?_eq_some_iff.mpr hmem)

theorem Inv.mem_values_iff {config : EngineConfig} {pending : RequestId → ℕ} {s : Scheduler}
    (h : s.Inv config pending) {r : RequestState} :
    r ∈ s.running.values ↔ s.running.get? r.requestId = some r := by
  rw [Dict.mem_values_iff]
  constructor
  · rintro ⟨id, hid⟩
    rwa [h.ids id r hid]
  · exact fun hr => ⟨_, hr⟩

/-- One call of `schedule` from a settled state: admission leads to `admitted`, the loop
issues `items` and leaves the manager `m'`. -/
structure Scheduled (config : EngineConfig) (s admitted : Scheduler) (items : List WorkerItem)
    (m' : KVCacheManager) : Prop where
  admission : AdmitDerivation config s.waiting.length s admitted
  settled : admitted.Settled config
  loop : ScheduleDerivation config admitted.running.values config.maxNumBatchedTokens
    admitted.cacheManager items m'

/-- The scheduler between a `schedule` call and the results. -/
def withCache (s : Scheduler) (m : KVCacheManager) : Scheduler := { s with cacheManager := m }

/-- Neither admission nor the loop ever raises. -/
theorem Inv.run_admitWaiting {config : EngineConfig} {s : Scheduler} (h : s.Settled config) :
    ∃ admitted items m', Scheduled config s admitted items m' ∧
      (admitWaiting config).run s = .ok () admitted ∧
      (schedule config).run s = .ok (Schedule.ofItems items) (admitted.withCache m') := by
  obtain ⟨admitted, hseated, hd, hsettled⟩ := h.admitLoop_derivation s.waiting.length
  have hranks : ∀ r ∈ admitted.running.values, r.rank = some 0 := by
    intro r hr
    obtain ⟨id, hid⟩ := Dict.mem_values_iff.mp hr
    exact hsettled.ranks id r hid
  have htables : ∀ r ∈ admitted.running.values,
      r.requestId ∈ admitted.cacheManager.tables.keys := by
    intro r hr
    rw [hsettled.tables_keys]
    exact Dict.mem_keys_of_get? (hsettled.mem_values_iff.mp hr)
  obtain ⟨items, m', hloop, hds⟩ := scheduleLoop_derivation admitted.running.values
    config.maxNumBatchedTokens .empty admitted hranks htables
  have hwaiting : (admitWaiting config).run s = .ok () admitted := by
    simp only [admitWaiting, EStateM.run_bind, EStateM.run_get, hseated]
  refine ⟨admitted, items, m', ⟨hd, hsettled, hds⟩, hwaiting, ?_⟩
  rw [schedule, EStateM.run_bind_of_ok hwaiting]
  exact hloop

/-- `schedule` never raises. -/
theorem Inv.run_schedule {config : EngineConfig} {s : Scheduler} (h : s.Settled config) :
    ∃ admitted items m', Scheduled config s admitted items m' ∧
      (schedule config).run s = .ok (Schedule.ofItems items) (admitted.withCache m') := by
  obtain ⟨admitted, items, m', hs, _, hrun⟩ := h.run_admitWaiting
  exact ⟨admitted, items, m', hs, hrun⟩

namespace Scheduled

variable {config : EngineConfig} {s admitted : Scheduler} {items : List WorkerItem}
  {m' : KVCacheManager}

theorem items_nodup (h : Scheduled config s admitted items m') :
    (items.map (·.requestId)).Nodup := by
  have hn := admitted.running.keys_nodup
  rw [← h.settled.map_requestId_values] at hn
  exact hn.sublist h.loop.items_sublist

theorem issued (h : Scheduled config s admitted items m') {item : WorkerItem}
    (hitem : item ∈ items) : ∃ r, admitted.running.get? item.requestId = some r ∧
      Issued config admitted.cacheManager m' r item := by
  have hn : (admitted.running.values.map (·.requestId)).Nodup := by
    rw [h.settled.map_requestId_values]
    exact admitted.running.keys_nodup
  obtain ⟨r, hr, hi⟩ := h.loop.issued hn item hitem
  exact ⟨r, hi.requestId_eq ▸ h.settled.mem_values_iff.mp hr, hi⟩

/-- After the call, the issued tokens are in flight: their blocks are reserved. -/
theorem inv (h : Scheduled config s admitted items m') :
    (admitted.withCache m').Inv config (pendingOf items) :=
  { h.settled with
    owned := h.loop.owned h.settled.owned
    tables_keys := fun id => (h.loop.mem_keys_iff id).trans (h.settled.tables_keys id)
    blocks := by
      intro id r t hr ht
      by_cases hid : id ∈ items.map (·.requestId)
      · obtain ⟨item, hitem, rfl⟩ := List.mem_map.mp hid
        obtain ⟨r', hr', hi⟩ := h.issued hitem
        obtain rfl : r' = r := Option.some.inj (hr'.symm.trans hr)
        obtain ⟨u, extra, hu, _, hlen⟩ := hi.blocks
        have hid' := h.settled.ids _ _ hr'
        have htable := hi.table
        rw [hid'] at hu htable
        obtain rfl : t = item.blockTable := Option.some.inj (ht.symm.trans htable)
        have hold := h.settled.blocks _ _ _ hr' hu
        rw [hlen, hold, pendingOf_of_mem h.items_nodup hitem, ← hi.startPos_eq,
          hi.start_add_length]
        exact Nat.max_eq_right (requiredBlocks_mono _ hi.start_lt.le)
      · rw [pendingOf_of_not_mem hid]
        exact h.settled.blocks id r t hr
          (by rw [← ht]; exact (h.loop.tables_get?_of_not_mem hid).symm) }

end Scheduled

end Scheduler

end MiniVLLM
