import MiniVLLM.Model.Scheduler
import MiniVLLM.Verification.Cache.Ownership

/-! # The scheduler invariant

The four coupled structures (waiting queue, running requests, block tables, pool) and the
operations on single requests that keep them coupled. -/

namespace MiniVLLM

open KVCacheManager

namespace Scheduler

/-- Positions of a request that have blocks. `pending` counts the positions of the batch in
flight, which have blocks already but are not computed yet; it is zero between steps. -/
structure Inv (config : EngineConfig) (pending : RequestId → ℕ) (s : Scheduler) : Prop where
  owned : s.cacheManager.Owned config.numGpuBlocks
  tables_keys : ∀ id, id ∈ s.cacheManager.tables.keys ↔ id ∈ s.running.keys
  ids : ∀ id r, s.running.get? id = some r → r.requestId = id
  ranks : ∀ id r, s.running.get? id = some r → r.rank = some 0
  seats : s.running.length ≤ config.maxNumSeqs
  blocks : ∀ id r t, s.running.get? id = some r → s.cacheManager.tables.get? id = some t →
    t.length = requiredBlocks config.blockSize (r.numComputedTokens + pending id)
  waiting_nodup : (s.waiting.map (·.requestId)).Nodup
  waiting_not_running : ∀ r ∈ s.waiting, r.requestId ∉ s.running.keys
  waiting_fresh : ∀ r ∈ s.waiting, r.numComputedTokens = 0 ∧ r.outputTokenIds = []
  waiting_fits : ∀ r ∈ s.waiting, r.promptTokenIds.length < config.contextLimit

/-- No batch is in flight. -/
abbrev Settled (config : EngineConfig) (s : Scheduler) : Prop := Inv config (fun _ => 0) s

theorem settled_init (config : EngineConfig) : Settled config (init config) where
  owned := owned_init _
  tables_keys := by intro id; simp [init, KVCacheManager.init]
  ids := by intro id r h; simp [init] at h
  ranks := by intro id r h; simp [init] at h
  seats := Nat.zero_le _
  blocks := by intro id r t h; simp [init] at h
  waiting_nodup := by simp [init]
  waiting_not_running := by simp [init]
  waiting_fresh := by simp [init]
  waiting_fits := by simp [init]

namespace Inv

variable {config : EngineConfig} {pending : RequestId → ℕ} {s : Scheduler}

theorem table_of_running (h : s.Inv config pending) {id : RequestId} {r : RequestState}
    (hr : s.running.get? id = some r) : ∃ t, s.cacheManager.tables.get? id = some t :=
  Dict.mem_keys_iff.mp ((h.tables_keys id).mpr (Dict.mem_keys_of_get? hr))

theorem covers (h : s.Inv config pending) {id : RequestId} {r : RequestState} {t : List ℕ}
    (hr : s.running.get? id = some r) (ht : s.cacheManager.tables.get? id = some t) :
    Paging.Covers config.blockSize t (r.numComputedTokens + pending id) :=
  (covers_iff config.blockSize_pos).mpr (h.blocks id r t hr ht).ge

theorem waiting_not_table (h : s.Inv config pending) {r : RequestState} (hr : r ∈ s.waiting) :
    r.requestId ∉ s.cacheManager.tables.keys := by
  rw [h.tables_keys]
  exact h.waiting_not_running r hr

theorem congr_pending (h : s.Inv config pending) {pending' : RequestId → ℕ}
    (hp : ∀ id ∈ s.running.keys, pending' id = pending id) : s.Inv config pending' :=
  { h with
    blocks := by
      intro id r t hr ht
      rw [hp id (Dict.mem_keys_of_get? hr)]
      exact h.blocks id r t hr ht }

end Inv

/-! ## Adding and removing requests -/

def enqueued (s : Scheduler) (request : EngineRequest) : Scheduler :=
  { s with waiting := s.waiting ++ [RequestState.ofRequest request] }

/-- What `add_request` rejects, with its error. -/
inductive Rejection (config : EngineConfig) (s : Scheduler) (request : EngineRequest) :
    PyError → Prop where
  | duplicate (h : request.requestId ∈ s.running.keys ∨
      request.requestId ∈ s.waiting.map (·.requestId)) :
      Rejection config s request (.valueError s!"duplicate request id: {request.requestId}")
  | tooLong (hnew : request.requestId ∉ s.running.keys ∧
      request.requestId ∉ s.waiting.map (·.requestId))
      (h : config.contextLimit ≤ request.promptTokenIds.length) :
      Rejection config s request
        (.valueError "prompt leaves no generation capacity in this rank's KV cache")

/-- A request is live while it waits or runs. -/
def Live (s : Scheduler) (id : RequestId) : Prop :=
  id ∈ s.running.keys ∨ id ∈ s.waiting.map (·.requestId)

instance (s : Scheduler) (id : RequestId) : Decidable (s.Live id) := by
  unfold Live
  infer_instance

theorem addRequest_cases (config : EngineConfig) (s : Scheduler) (request : EngineRequest) :
    (¬ s.Live request.requestId ∧ request.promptTokenIds.length < config.contextLimit ∧
      (addRequest config request).run s = .ok () (s.enqueued request)) ∨
    ∃ e, Rejection config s request e ∧ (addRequest config request).run s = .error e s := by
  by_cases hdup : request.requestId ∈ s.running.keys ∨
      request.requestId ∈ s.waiting.map (·.requestId)
  · refine Or.inr ⟨_, .duplicate hdup, ?_⟩
    simp only [addRequest, EStateM.run_bind, EStateM.run_get, hdup, if_true]
    rfl
  · have hnew := not_or.mp hdup
    by_cases hlong : config.contextLimit ≤ request.promptTokenIds.length
    · refine Or.inr ⟨_, .tooLong hnew hlong, ?_⟩
      simp only [addRequest, EStateM.run_bind, EStateM.run_get, hdup, if_false, hlong, if_true]
      rfl
    · refine Or.inl ⟨hdup, Nat.lt_of_not_le hlong, ?_⟩
      simp only [addRequest, EStateM.run_bind, EStateM.run_get, hdup, if_false, hlong]
      rfl

theorem Inv.enqueued {config : EngineConfig} {pending : RequestId → ℕ} {s : Scheduler}
    (h : s.Inv config pending) {request : EngineRequest} (hnew : ¬ s.Live request.requestId)
    (hfits : request.promptTokenIds.length < config.contextLimit) :
    (s.enqueued request).Inv config pending :=
  { h with
    waiting_nodup := by
      simp only [Scheduler.enqueued, List.map_append, List.nodup_append]
      refine ⟨h.waiting_nodup, by simp, ?_⟩
      intro a ha b hb hab
      simp only [List.map_cons, List.map_nil, List.mem_singleton] at hb
      subst hab hb
      exact hnew (Or.inr ha)
    waiting_not_running := by
      intro r hr
      rcases List.mem_append.mp hr with hr | hr
      · exact h.waiting_not_running r hr
      · rw [List.mem_singleton] at hr
        subst hr
        exact fun hrun => hnew (Or.inl hrun)
    waiting_fresh := by
      intro r hr
      rcases List.mem_append.mp hr with hr | hr
      · exact h.waiting_fresh r hr
      · rw [List.mem_singleton] at hr
        subst hr
        exact ⟨rfl, rfl⟩
    waiting_fits := by
      intro r hr
      rcases List.mem_append.mp hr with hr | hr
      · exact h.waiting_fits r hr
      · rw [List.mem_singleton] at hr
        subst hr
        exact hfits }

def removed (s : Scheduler) (id : RequestId) (t : List ℕ) : Scheduler where
  waiting := s.waiting
  running := s.running.erase id
  cacheManager := s.cacheManager.reclaimed id t

def dropped (s : Scheduler) (id : RequestId) : Scheduler :=
  { s with waiting := s.waiting.eraseP (fun request => request.requestId = id) }

theorem run_onCache_of_ok {α : Type} {x : Py KVCacheManager α} {s : Scheduler} {a : α}
    {m : KVCacheManager} (h : x.run s.cacheManager = .ok a m) :
    (onCache x).run s = .ok a { s with cacheManager := m } :=
  EStateM.run_zoom_of_ok h

theorem Inv.run_finish {config : EngineConfig} {pending : RequestId → ℕ} {s : Scheduler}
    (h : s.Inv config pending) {id : RequestId} {r : RequestState} {t : List ℕ}
    (hr : s.running.get? id = some r) (ht : s.cacheManager.tables.get? id = some t) :
    (finish id).run s = .ok (some r) (s.removed id t) := by
  have hrel := run_onCache_of_ok (s := { s with running := s.running.erase id })
    (h.owned.run_release ht)
  simp only [finish, EStateM.run_bind, EStateM.run_get, hr, EStateM.run_set, hrel,
    EStateM.run_pure]
  rfl

theorem Inv.removed {config : EngineConfig} {pending : RequestId → ℕ} {s : Scheduler}
    (h : s.Inv config pending) {id : RequestId} {t : List ℕ}
    (ht : s.cacheManager.tables.get? id = some t) : (s.removed id t).Inv config pending where
  owned := h.owned.reclaimed ht
  tables_keys := by
    intro id'
    simp only [Scheduler.removed, reclaimed, Dict.mem_keys_erase, h.tables_keys]
  ids := by
    intro id' r hr
    by_cases hid : id' = id
    · simp [Scheduler.removed, hid] at hr
    · exact h.ids id' r (by rwa [Scheduler.removed, Dict.get?_erase_of_ne _ hid] at hr)
  ranks := by
    intro id' r hr
    by_cases hid : id' = id
    · simp [Scheduler.removed, hid] at hr
    · exact h.ranks id' r (by rwa [Scheduler.removed, Dict.get?_erase_of_ne _ hid] at hr)
  seats := (Dict.erase_length_le _ _).trans h.seats
  blocks := by
    intro id' r t' hr ht'
    by_cases hid : id' = id
    · simp [Scheduler.removed, hid] at hr
    · simp only [Scheduler.removed, reclaimed, Dict.get?_erase_of_ne _ hid] at hr ht'
      exact h.blocks id' r t' hr ht'
  waiting_nodup := h.waiting_nodup
  waiting_not_running := by
    intro r hr hrun
    exact h.waiting_not_running r hr (Dict.mem_keys_erase.mp hrun).2
  waiting_fresh := h.waiting_fresh
  waiting_fits := h.waiting_fits

theorem Inv.dropped {config : EngineConfig} {pending : RequestId → ℕ} {s : Scheduler}
    (h : s.Inv config pending) (id : RequestId) : (s.dropped id).Inv config pending :=
  { h with
    waiting_nodup := h.waiting_nodup.sublist (List.eraseP_sublist.map _)
    waiting_not_running := fun r hr => h.waiting_not_running r (List.mem_of_mem_eraseP hr)
    waiting_fresh := fun r hr => h.waiting_fresh r (List.mem_of_mem_eraseP hr)
    waiting_fits := fun r hr => h.waiting_fits r (List.mem_of_mem_eraseP hr) }

/-- What `abort` does: remove a running request, drop a waiting one, or nothing. -/
theorem Inv.abort_cases {config : EngineConfig} {pending : RequestId → ℕ} {s : Scheduler}
    (h : s.Inv config pending) (id : RequestId) :
    (∃ r t, s.running.get? id = some r ∧ s.cacheManager.tables.get? id = some t ∧
      (abort id).run s = .ok true (s.removed id t)) ∨
    (id ∉ s.running.keys ∧ id ∈ s.waiting.map (·.requestId) ∧
      (abort id).run s = .ok true (s.dropped id)) ∨
    (¬ s.Live id ∧ (abort id).run s = .ok false s) := by
  by_cases hrun : id ∈ s.running.keys
  · obtain ⟨r, hr⟩ := Dict.mem_keys_iff.mp hrun
    obtain ⟨t, ht⟩ := h.table_of_running hr
    refine Or.inl ⟨r, t, hr, ht, ?_⟩
    simp only [abort, EStateM.run_bind, EStateM.run_get, hrun, if_true, h.run_finish hr ht,
      EStateM.run_pure]
  · by_cases hwait : id ∈ s.waiting.map (·.requestId)
    · refine Or.inr (Or.inl ⟨hrun, hwait, ?_⟩)
      simp only [abort, EStateM.run_bind, EStateM.run_get, hrun, if_false, hwait, if_true,
        EStateM.run_set, EStateM.run_pure]
      rfl
    · refine Or.inr (Or.inr ⟨not_or.mpr ⟨hrun, hwait⟩, ?_⟩)
      simp only [abort, EStateM.run_bind, EStateM.run_get, hrun, if_false, hwait,
        EStateM.run_pure]

/-! ## Updating a running request -/

def replaced (s : Scheduler) (id : RequestId) (r : RequestState) : Scheduler :=
  { s with running := s.running.set id r }

/-- Overwriting keeps the invariant if the new entry keeps its id and rank, and its blocks
match under the new pending counts. -/
theorem Inv.replaced {config : EngineConfig} {pending pending' : RequestId → ℕ} {s : Scheduler}
    (h : s.Inv config pending) {id : RequestId} {r r' : RequestState}
    (hr : s.running.get? id = some r) (hid : r'.requestId = id) (hrank : r'.rank = r.rank)
    (hcount : r'.numComputedTokens + pending' id = r.numComputedTokens + pending id)
    (hother : ∀ id' ∈ s.running.keys, id' ≠ id → pending' id' = pending id') :
    (s.replaced id r').Inv config pending' := by
  have hkey : id ∈ s.running.keys := Dict.mem_keys_of_get? hr
  exact
    { h with
      tables_keys := by
        intro id'
        rw [Scheduler.replaced, Dict.keys_set_of_mem _ hkey]
        exact h.tables_keys id'
      ids := by
        intro id' r'' hr''
        rw [Scheduler.replaced, Dict.get?_set] at hr''
        split at hr''
        · rename_i heq
          cases hr''
          rw [hid, heq]
        · exact h.ids id' r'' hr''
      ranks := by
        intro id' r'' hr''
        rw [Scheduler.replaced, Dict.get?_set] at hr''
        split at hr''
        · cases hr''
          rw [hrank]
          exact h.ranks id r hr
        · exact h.ranks id' r'' hr''
      seats := by
        rw [Scheduler.replaced, Dict.set_length_of_mem _ hkey]
        exact h.seats
      blocks := by
        intro id' r'' t hr'' ht
        rw [Scheduler.replaced, Dict.get?_set] at hr''
        split at hr''
        · rename_i heq
          cases hr''
          subst heq
          rw [hcount]
          exact h.blocks id' r t hr ht
        · rename_i hne
          rw [hother id' (Dict.mem_keys_of_get? hr'') hne]
          exact h.blocks id' r'' t hr'' ht
      waiting_not_running := by
        intro r'' hr''
        rw [Scheduler.replaced, Dict.keys_set_of_mem _ hkey]
        exact h.waiting_not_running r'' hr'' }

end Scheduler

end MiniVLLM
