import MiniVLLM.Verification.Scheduler.Invariant

/-! # Admission

The admission loop as local rules. It seats the head of the queue or sends it to the end;
it never touches the pool, so what fits is the same for the whole loop. -/

namespace MiniVLLM

open KVCacheManager

theorem KVCacheManager.reclaimed_opened {m : KVCacheManager} {id : RequestId}
    (h : id ∉ m.tables.keys) : (m.opened id).reclaimed id [] = m := by
  have htables : (m.tables.set id []).erase id = m.tables := by
    apply Dict.ext_entries
    show ((m.tables.set id []).entries).filter _ = _
    rw [Dict.entries_set_of_not_mem _ h, List.filter_append]
    have hself := congrArg Dict.entries (Dict.erase_of_not_mem h)
    simpa [Dict.erase] using hself
  cases m
  simp only [reclaimed, opened] at htables ⊢
  rw [htables]
  simp

namespace Scheduler

/-- The tokens of a waiting request's first chunk. -/
def firstTarget (config : EngineConfig) (request : RequestState) : ℕ :=
  min request.promptTokenIds.length config.maxNumBatchedTokens

def FirstChunkFits (config : EngineConfig) (m : KVCacheManager) (request : RequestState) : Prop :=
  requiredBlocks config.blockSize (firstTarget config request) ≤ m.pool.free.length

instance (config : EngineConfig) (m : KVCacheManager) (request : RequestState) :
    Decidable (FirstChunkFits config m request) := by
  unfold FirstChunkFits
  infer_instance

/-- The state after the head of the queue was seated with an empty block table. -/
def seated (s : Scheduler) (request : RequestState) (rest : List RequestState) : Scheduler where
  waiting := rest
  running := s.running.set request.requestId { request with rank := some 0 }
  cacheManager := s.cacheManager.opened request.requestId

/-- The state after the head of the queue went to its end. -/
def deferred (s : Scheduler) (request : RequestState) (rest : List RequestState) : Scheduler :=
  { s with waiting := rest ++ [request] }

/-- Admission stops without attempts, requests or seats; otherwise the head is seated
exactly when its first chunk fits into the free blocks. -/
inductive AdmitDerivation (config : EngineConfig) : ℕ → Scheduler → Scheduler → Prop where
  | stop (n s) (h : n = 0 ∨ s.waiting = [] ∨ config.maxNumSeqs ≤ s.running.length) :
      AdmitDerivation config n s s
  | seat {n s request rest s'} (hw : s.waiting = request :: rest)
      (hseat : s.running.length < config.maxNumSeqs)
      (hnew : request.requestId ∉ s.running.keys)
      (hfits : FirstChunkFits config s.cacheManager request) :
      AdmitDerivation config n (s.seated request rest) s' → AdmitDerivation config (n + 1) s s'
  | defer {n s request rest s'} (hw : s.waiting = request :: rest)
      (hseat : s.running.length < config.maxNumSeqs)
      (hfull : ¬ FirstChunkFits config s.cacheManager request) :
      AdmitDerivation config n (s.deferred request rest) s' → AdmitDerivation config (n + 1) s s'

section Steps

variable {config : EngineConfig} {s : Scheduler} {request : RequestState}
  {rest : List RequestState}

theorem Inv.head_new (h : s.Settled config) (hw : s.waiting = request :: rest) :
    request.requestId ∉ s.running.keys ∧ request.requestId ∉ s.cacheManager.tables.keys := by
  have hmem : request ∈ s.waiting := by simp [hw]
  exact ⟨h.waiting_not_running _ hmem, h.waiting_not_table hmem⟩

theorem Inv.head_not_rest (h : s.Settled config) (hw : s.waiting = request :: rest) :
    request.requestId ∉ rest.map (·.requestId) ∧ (rest.map (·.requestId)).Nodup := by
  have hn := h.waiting_nodup
  rw [hw, List.map_cons] at hn
  exact List.nodup_cons.mp hn

theorem Inv.seated (h : s.Settled config) (hw : s.waiting = request :: rest)
    (hseat : s.running.length < config.maxNumSeqs) :
    (s.seated request rest).Settled config := by
  obtain ⟨hnew, hnotable⟩ := h.head_new hw
  obtain ⟨hnotin, hrest⟩ := h.head_not_rest hw
  have hsub : ∀ r ∈ rest, r ∈ s.waiting := by intro r hr; simp [hw, hr]
  exact
    { owned := h.owned.opened hnotable
      tables_keys := by
        intro id
        simp only [Scheduler.seated, opened, Dict.mem_keys_set, h.tables_keys]
      ids := by
        intro id r hr
        rw [Scheduler.seated, Dict.get?_set] at hr
        split at hr
        · rename_i heq
          cases hr
          exact heq.symm
        · exact h.ids id r hr
      ranks := by
        intro id r hr
        rw [Scheduler.seated, Dict.get?_set] at hr
        split at hr
        · cases hr
          rfl
        · exact h.ranks id r hr
      seats := by
        rw [Scheduler.seated, Dict.set_length_of_not_mem _ hnew]
        exact hseat
      blocks := by
        intro id r t hr ht
        simp only [Scheduler.seated, opened, Dict.get?_set] at hr ht
        by_cases hid : id = request.requestId
        · rw [if_pos hid] at hr ht
          cases hr
          cases ht
          have hfresh := (h.waiting_fresh request (by simp [hw])).1
          show 0 = requiredBlocks config.blockSize (request.numComputedTokens + 0)
          rw [hfresh, requiredBlocks_zero config.blockSize_pos]
        · rw [if_neg hid] at hr ht
          exact h.blocks id r t hr ht
      waiting_nodup := hrest
      waiting_not_running := by
        intro r hr hrun
        rcases Dict.mem_keys_set.mp hrun with heq | hrun
        · exact hnotin (heq ▸ List.mem_map.mpr ⟨r, hr, rfl⟩)
        · exact h.waiting_not_running r (hsub r hr) hrun
      waiting_fresh := fun r hr => h.waiting_fresh r (hsub r hr)
      waiting_fits := fun r hr => h.waiting_fits r (hsub r hr) }

theorem deferred_perm (hw : s.waiting = request :: rest) :
    (s.deferred request rest).waiting.Perm s.waiting := by
  rw [hw]
  exact List.perm_append_comm

theorem Inv.deferred (h : s.Settled config) (hw : s.waiting = request :: rest) :
    (s.deferred request rest).Settled config := by
  have hp := deferred_perm hw
  exact
    { h with
      waiting_nodup := (hp.map _).nodup_iff.mpr h.waiting_nodup
      waiting_not_running := fun r hr => h.waiting_not_running r (hp.mem_iff.mp hr)
      waiting_fresh := fun r hr => h.waiting_fresh r (hp.mem_iff.mp hr)
      waiting_fits := fun r hr => h.waiting_fits r (hp.mem_iff.mp hr) }

theorem Inv.run_admitRequest (h : s.Settled config) (hw : s.waiting = request :: rest) :
    (admitRequest config request).run { s with waiting := rest } =
      .ok () (if FirstChunkFits config s.cacheManager request then s.seated request rest
        else s.deferred request rest) := by
  obtain ⟨_, hnotable⟩ := h.head_new hw
  have hcreate := run_onCache_of_ok (s := { s with waiting := rest }) (run_create hnotable)
  have htable : (s.cacheManager.opened request.requestId).tables.get? request.requestId =
      some [] := Dict.get?_set_self _ _ _
  have hcan := run_onCache_of_ok
    (s := { s with waiting := rest, cacheManager := s.cacheManager.opened request.requestId })
    (run_canReserve config.blockSize (firstTarget config request) htable)
  have hrel := run_onCache_of_ok
    (s := { s with waiting := rest, cacheManager := s.cacheManager.opened request.requestId })
    ((h.owned.opened hnotable).run_release htable)
  rw [admitRequest, EStateM.run_bind_of_ok hcreate]
  dsimp only
  rw [show min request.promptTokenIds.length config.maxNumBatchedTokens =
    firstTarget config request from rfl, EStateM.run_bind_of_ok hcan]
  by_cases hfits : FirstChunkFits config s.cacheManager request
  · have hle : requiredBlocks config.blockSize (firstTarget config request) - ([] : List ℕ).length
        ≤ (s.cacheManager.opened request.requestId).pool.free.length := hfits
    simp only [hle, decide_true, if_true, hfits]
    rfl
  · have hgt : ¬ requiredBlocks config.blockSize (firstTarget config request) -
        ([] : List ℕ).length ≤ (s.cacheManager.opened request.requestId).pool.free.length := hfits
    simp only [hgt, decide_false, Bool.false_eq_true, if_false, hfits]
    rw [EStateM.run_bind_of_ok hrel, reclaimed_opened hnotable]
    rfl

end Steps

/-- The loop follows the rules and keeps the scheduler settled. -/
theorem Inv.admitLoop_derivation {config : EngineConfig} {s : Scheduler}
    (h : s.Settled config) (n : ℕ) :
    ∃ s', (admitLoop config n).run s = .ok () s' ∧ AdmitDerivation config n s s' ∧
      s'.Settled config := by
  induction n generalizing s with
  | zero => exact ⟨s, rfl, .stop 0 s (Or.inl rfl), h⟩
  | succ n ih =>
      cases hw : s.waiting with
      | nil =>
          refine ⟨s, ?_, .stop _ s (Or.inr (Or.inl hw)), h⟩
          simp only [admitLoop, EStateM.run_bind, EStateM.run_get, hw, EStateM.run_pure]
      | cons request rest =>
          by_cases hseat : s.running.length < config.maxNumSeqs
          · have hrun : (admitLoop config (n + 1)).run s =
                (admitLoop config n).run
                  (if FirstChunkFits config s.cacheManager request then s.seated request rest
                    else s.deferred request rest) := by
              simp only [admitLoop, EStateM.run_bind, EStateM.run_get, hw, hseat, if_true,
                EStateM.run_set, h.run_admitRequest hw]
            by_cases hfits : FirstChunkFits config s.cacheManager request
            · rw [if_pos hfits] at hrun
              obtain ⟨s', hs', hd, hinv⟩ := ih (h.seated hw hseat)
              exact ⟨s', hrun.trans hs', .seat hw hseat (h.head_new hw).1 hfits hd, hinv⟩
            · rw [if_neg hfits] at hrun
              obtain ⟨s', hs', hd, hinv⟩ := ih (h.deferred hw)
              exact ⟨s', hrun.trans hs', .defer hw hseat hfits hd, hinv⟩
          · refine ⟨s, ?_, .stop _ s (Or.inr (Or.inr (Nat.le_of_not_lt hseat))), h⟩
            simp only [admitLoop, EStateM.run_bind, EStateM.run_get, hw, hseat, if_false,
              EStateM.run_pure]

/-! ## What admission changes -/

namespace AdmitDerivation

variable {config : EngineConfig} {n : ℕ} {s s' : Scheduler}

theorem pool_eq (h : AdmitDerivation config n s s') :
    s'.cacheManager.pool = s.cacheManager.pool := by
  induction h with
  | stop => rfl
  | seat _ _ _ _ _ ih => exact ih
  | defer _ _ _ _ ih => exact ih

theorem running_get? (h : AdmitDerivation config n s s') {id : RequestId} {r : RequestState}
    (hr : s.running.get? id = some r) : s'.running.get? id = some r := by
  induction h with
  | stop => exact hr
  | @seat n s request rest s' hw hseat hnew _ _ ih =>
      apply ih
      have hne : id ≠ request.requestId := by
        rintro rfl
        exact hnew (Dict.mem_keys_of_get? hr)
      rw [seated, Dict.get?_set_of_ne _ _ hne, hr]
  | defer _ _ _ _ ih => exact ih hr

theorem tables_get? (h : AdmitDerivation config n s s') (hs : s.Settled config)
    {id : RequestId} {t : List ℕ} (ht : s.cacheManager.tables.get? id = some t) :
    s'.cacheManager.tables.get? id = some t := by
  induction h with
  | stop => exact ht
  | @seat n s request rest s' hw hseat hnew _ _ ih =>
      apply ih (hs.seated hw hseat)
      have hne : id ≠ request.requestId := by
        rintro rfl
        exact (hs.head_new hw).2 (Dict.mem_keys_of_get? ht)
      rw [seated, opened, Dict.get?_set_of_ne _ _ hne, ht]
  | defer hw _ _ _ ih => exact ih (hs.deferred hw) ht

theorem waiting_subset (h : AdmitDerivation config n s s') {r : RequestState}
    (hr : r ∈ s'.waiting) : r ∈ s.waiting := by
  induction h with
  | stop => exact hr
  | seat hw _ _ _ _ ih => rw [hw]; exact List.mem_cons_of_mem _ (ih hr)
  | defer hw _ _ _ ih => exact (deferred_perm hw).mem_iff.mp (ih hr)

theorem running_cases (h : AdmitDerivation config n s s') {id : RequestId} {r : RequestState}
    (hr : s'.running.get? id = some r) :
    s.running.get? id = some r ∨
      ∃ w ∈ s.waiting, w.requestId = id ∧ r = { w with rank := some 0 } := by
  induction h with
  | stop => exact Or.inl hr
  | @seat n s request rest s' hw _ _ _ _ ih =>
      rcases ih hr with hold | ⟨w, hmem, hid, heq⟩
      · rw [seated, Dict.get?_set] at hold
        split at hold
        · rename_i hid
          cases hold
          exact Or.inr ⟨request, by simp [hw], hid.symm, rfl⟩
        · exact Or.inl hold
      · exact Or.inr ⟨w, by rw [hw]; exact List.mem_cons_of_mem _ hmem, hid, heq⟩
  | defer hw _ _ _ ih =>
      rcases ih hr with hold | ⟨w, hmem, hid, heq⟩
      · exact Or.inl hold
      · exact Or.inr ⟨w, (deferred_perm hw).mem_iff.mp hmem, hid, heq⟩

theorem live_iff (h : AdmitDerivation config n s s') (id : RequestId) :
    s'.Live id ↔ s.Live id := by
  induction h with
  | stop => rfl
  | @seat n s request rest s' hw _ _ _ _ ih =>
      rw [ih]
      simp only [Live, seated, Dict.mem_keys_set, hw, List.map_cons, List.mem_cons]
      tauto
  | @defer n s request rest s' hw _ _ _ ih =>
      rw [ih]
      simp only [Live, ((deferred_perm hw).map (·.requestId)).mem_iff]
      rfl

/-- A loop with one attempt for each waiting request ends with full seats or with a queue
of which nothing fits. `passed` counts the deferred requests at the end of the queue. -/
theorem exhausts (h : AdmitDerivation config n s s') {todo passed : List RequestState}
    (hw : s.waiting = todo ++ passed) (hn : todo.length = n)
    (hpassed : ∀ r ∈ passed, ¬ FirstChunkFits config s.cacheManager r) :
    config.maxNumSeqs ≤ s'.running.length ∨
      ∀ r ∈ s'.waiting, ¬ FirstChunkFits config s'.cacheManager r := by
  induction h generalizing todo passed with
  | stop n s hstop =>
      rcases hstop with hzero | hnil | hfull
      · subst hzero
        rw [List.length_eq_zero_iff.mp hn, List.nil_append] at hw
        exact Or.inr (hw ▸ hpassed)
      · exact Or.inr (by simp [hnil])
      · exact Or.inl hfull
  | @seat n s request rest s' hw' _ _ _ _ ih =>
      cases todo with
      | nil => simp at hn
      | cons first todo =>
          rw [hw', List.cons_append, List.cons.injEq] at hw
          exact ih hw.2 (by simpa using hn) hpassed
  | @defer n s request rest s' hw' _ hfull _ ih =>
      cases todo with
      | nil => simp at hn
      | cons first todo =>
          rw [hw', List.cons_append, List.cons.injEq] at hw
          have hw'' : (s.deferred request rest).waiting = todo ++ (passed ++ [request]) := by
            rw [deferred, hw.2, List.append_assoc]
          refine ih hw'' (by simpa using hn) ?_
          intro r hr
          rcases List.mem_append.mp hr with hr | hr
          · exact hpassed r hr
          · rw [List.mem_singleton] at hr
            subst hr
            exact hfull

theorem seats_one (h : AdmitDerivation config n s s') {todo passed : List RequestState}
    (hw : s.waiting = todo ++ passed) (hn : todo.length = n)
    (hseat : s.running.length < config.maxNumSeqs)
    (hfit : ∃ r ∈ todo, FirstChunkFits config s.cacheManager r) :
    ∃ w ∈ s.waiting, s'.running.get? w.requestId = some { w with rank := some 0 } ∧
      FirstChunkFits config s'.cacheManager w := by
  induction h generalizing todo passed with
  | stop n s hstop =>
      obtain ⟨r, hr, _⟩ := hfit
      rcases hstop with hzero | hnil | hfull
      · rw [List.length_eq_zero_iff.mp (hn.trans hzero)] at hr
        simp at hr
      · rw [hnil] at hw
        rw [(List.append_eq_nil_iff.mp hw.symm).1] at hr
        simp at hr
      · omega
  | @seat n s request rest s' hw' _ _ hfits hd _ =>
      refine ⟨request, by simp [hw'], ?_, ?_⟩
      · exact hd.running_get? (Dict.get?_set_self _ _ _)
      · rw [FirstChunkFits, hd.pool_eq]
        exact hfits
  | @defer n s request rest s' hw' _ hfull _ ih =>
      cases todo with
      | nil => simp at hn
      | cons first todo =>
          rw [hw', List.cons_append, List.cons.injEq] at hw
          obtain ⟨r, hr, hrfits⟩ := hfit
          have hne : r ≠ first := by
            rintro rfl
            exact hfull (hw.1 ▸ hrfits)
          have hr' : r ∈ todo := (List.mem_cons.mp hr).resolve_left hne
          have hw'' : (s.deferred request rest).waiting = todo ++ (passed ++ [request]) := by
            rw [deferred, hw.2, List.append_assoc]
          obtain ⟨w, hmem, hget, hwfits⟩ := ih hw'' (by simpa using hn) hseat ⟨r, hr', hrfits⟩
          exact ⟨w, (deferred_perm hw').mem_iff.mp hmem, hget, hwfits⟩

/-- Without a seat, or with nothing that fits, nobody is seated; the queue is at most turned. -/
theorem running_eq_of_none (h : AdmitDerivation config n s s')
    (hnone : config.maxNumSeqs ≤ s.running.length ∨
      ∀ r ∈ s.waiting, ¬ FirstChunkFits config s.cacheManager r) :
    s'.running = s.running ∧ s'.cacheManager = s.cacheManager ∧ s'.waiting.Perm s.waiting := by
  induction h with
  | stop => exact ⟨rfl, rfl, .refl _⟩
  | @seat n s request rest s' hw hseat _ hfits _ _ =>
      rcases hnone with hfull | hnone
      · omega
      · exact absurd hfits (hnone request (by simp [hw]))
  | @defer n s request rest s' hw hseat _ _ ih =>
      obtain ⟨hrun, hcache, hperm⟩ := ih (hnone.imp_right
        (fun hnone r hr => hnone r ((deferred_perm hw).mem_iff.mp hr)))
      exact ⟨hrun, hcache, hperm.trans (deferred_perm hw)⟩

end AdmitDerivation

end Scheduler

end MiniVLLM
