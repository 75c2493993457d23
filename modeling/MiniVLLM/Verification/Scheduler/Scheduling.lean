import MiniVLLM.Verification.Scheduler.Admission

/-! # The scheduling loop

One pass over the running requests as local rules, and what it says about the items, the
block tables and the budget. Requests are visited in order; each item comes with blocks. -/

namespace MiniVLLM

open KVCacheManager

namespace Scheduler

def remaining (request : RequestState) : ℕ :=
  request.allTokenIds.length - request.numComputedTokens

def missingBlocks (config : EngineConfig) (request : RequestState) (t : List ℕ) (count : ℕ) : ℕ :=
  requiredBlocks config.blockSize (request.numComputedTokens + count) - t.length

/-- The item issued when `count` tokens get blocks: `t` is the grown table. -/
def issuedItem (config : EngineConfig) (request : RequestState) (count : ℕ) (t : List ℕ) :
    WorkerItem :=
  makeItem request count
    ((List.range' request.numComputedTokens count).map (Paging.slot config.blockSize t)) t

/-- The loop ends with the list or the budget. A request with tokens left gets an item
exactly when its missing blocks are free. -/
inductive ScheduleDerivation (config : EngineConfig) :
    List RequestState → ℕ → KVCacheManager → List WorkerItem → KVCacheManager → Prop where
  | done (budget m) : ScheduleDerivation config [] budget m [] m
  | exhausted (requests m) : ScheduleDerivation config requests 0 m [] m
  | idle {request requests budget m items m'} (hbudget : 0 < budget)
      (hrem : remaining request = 0) :
      ScheduleDerivation config requests budget m items m' →
      ScheduleDerivation config (request :: requests) budget m items m'
  | blocked {request requests budget m items m' t} (hbudget : 0 < budget)
      (hrem : 0 < remaining request) (ht : m.tables.get? request.requestId = some t)
      (hfull : m.pool.free.length <
        missingBlocks config request t (min (remaining request) budget)) :
      ScheduleDerivation config requests budget m items m' →
      ScheduleDerivation config (request :: requests) budget m items m'
  | issue {request requests budget m items m' t count missing} (hbudget : 0 < budget)
      (hrem : 0 < remaining request) (ht : m.tables.get? request.requestId = some t)
      (hcount : count = min (remaining request) budget)
      (hmissing : missing = missingBlocks config request t count)
      (hfree : missing ≤ m.pool.free.length) :
      ScheduleDerivation config requests (budget - count)
        (m.grown request.requestId t missing) items m' →
      ScheduleDerivation config (request :: requests) budget m
        (issuedItem config request count (t ++ m.pool.free.take missing) :: items) m'

/-! ## The schedule as a list of items -/

def Schedule.issueAll (schedule : Schedule) (items : List WorkerItem) : Schedule :=
  items.foldl (fun acc item => acc.issue (some 0) item item.tokenIds.length) schedule

theorem length_makeItem_tokenIds {request : RequestState} {count : ℕ} {slots t : List ℕ}
    (h : count ≤ remaining request) : (makeItem request count slots t).tokenIds.length = count := by
  simp only [makeItem, List.length_take, List.length_drop]
  exact Nat.min_eq_left h

section Turns

variable {config : EngineConfig} {request : RequestState} {requests : List RequestState}
  {budget : ℕ} {acc : Schedule} {s : Scheduler} {t : List ℕ}

theorem run_scheduleLoop_idle (hbudget : 0 < budget) (hrem : remaining request = 0) :
    (scheduleLoop config (request :: requests) budget acc).run s =
      (scheduleLoop config requests budget acc).run s := by
  unfold remaining at hrem
  rw [scheduleLoop, if_neg hbudget.ne']
  simp only [hrem, if_true]

theorem run_scheduleLoop_blocked (hbudget : 0 < budget) (hrem : 0 < remaining request)
    (ht : s.cacheManager.tables.get? request.requestId = some t)
    (hfull : s.cacheManager.pool.free.length <
      missingBlocks config request t (min (remaining request) budget)) :
    (scheduleLoop config (request :: requests) budget acc).run s =
      (scheduleLoop config requests budget acc).run s := by
  have hcan := run_onCache_of_ok (s := s) (run_canReserve config.blockSize
    (request.numComputedTokens + min (remaining request) budget) ht)
  have hne : ¬ request.allTokenIds.length - request.numComputedTokens = 0 := hrem.ne'
  rw [scheduleLoop, if_neg hbudget.ne']
  simp only [hne, if_false]
  rw [show request.allTokenIds.length - request.numComputedTokens = remaining request from rfl,
    EStateM.run_bind_of_ok hcan]
  have hgt : ¬ requiredBlocks config.blockSize
      (request.numComputedTokens + min (remaining request) budget) - t.length ≤
        s.cacheManager.pool.free.length := Nat.not_le.mpr hfull
  simp only [hgt, decide_false, Bool.false_eq_true, if_false]

theorem run_scheduleLoop_issue (requests : List RequestState) (acc : Schedule)
    {count missing : ℕ} (hbudget : 0 < budget) (hrem : 0 < remaining request)
    (ht : s.cacheManager.tables.get? request.requestId = some t)
    (hcount : count = min (remaining request) budget)
    (hmissing : missing = missingBlocks config request t count)
    (hfree : missing ≤ s.cacheManager.pool.free.length) :
    (scheduleLoop config (request :: requests) budget acc).run s =
      (scheduleLoop config requests (budget - count)
        (acc.issue request.rank
          (issuedItem config request count (t ++ s.cacheManager.pool.free.take missing)) count)).run
        { s with cacheManager := s.cacheManager.grown request.requestId t missing } := by
  have hcan := run_onCache_of_ok (s := s) (run_canReserve config.blockSize
    (request.numComputedTokens + count) ht)
  have hle : requiredBlocks config.blockSize (request.numComputedTokens + count) - t.length ≤
      s.cacheManager.pool.free.length := by rw [hmissing] at hfree; exact hfree
  have hreserve := run_onCache_of_ok (s := s) (run_reserve ht hle)
  have htable : (s.cacheManager.grown request.requestId t missing).tables.get? request.requestId =
      some (t ++ s.cacheManager.pool.free.take missing) := Dict.get?_set_self _ _ _
  -- The grown table has all the blocks the target needs.
  have hcovers : Paging.Covers config.blockSize (t ++ s.cacheManager.pool.free.take missing)
      (request.numComputedTokens + count) := by
    rw [covers_iff config.blockSize_pos, List.length_append, List.length_take,
      Nat.min_eq_left hfree, hmissing, missingBlocks]
    omega
  have hslots := run_onCache_of_ok
    (s := { s with cacheManager := s.cacheManager.grown request.requestId t missing })
    (run_slots htable hcovers)
  have hblocks := run_onCache_of_ok
    (s := { s with cacheManager := s.cacheManager.grown request.requestId t missing })
    (run_blockTable htable)
  have hne : ¬ request.allTokenIds.length - request.numComputedTokens = 0 := hrem.ne'
  rw [scheduleLoop, if_neg hbudget.ne']
  simp only [hne, if_false]
  rw [show request.allTokenIds.length - request.numComputedTokens = remaining request from rfl,
    ← hcount, EStateM.run_bind_of_ok hcan]
  simp only [hle, decide_true, if_true]
  rw [EStateM.run_bind_of_ok hreserve,
    show requiredBlocks config.blockSize (request.numComputedTokens + count) - t.length = missing
      from hmissing.symm,
    EStateM.run_bind_of_ok hslots, EStateM.run_bind_of_ok hblocks]
  rfl

end Turns

/-- The loop follows the rules: it never raises, and it returns the issued items. -/
theorem scheduleLoop_derivation {config : EngineConfig} :
    ∀ (requests : List RequestState) (budget : ℕ) (acc : Schedule) (s : Scheduler),
      (∀ r ∈ requests, r.rank = some 0) →
      (∀ r ∈ requests, r.requestId ∈ s.cacheManager.tables.keys) →
      ∃ items m', (scheduleLoop config requests budget acc).run s =
          .ok (Schedule.issueAll acc items) { s with cacheManager := m' } ∧
        ScheduleDerivation config requests budget s.cacheManager items m' := by
  intro requests
  induction requests with
  | nil =>
      intro budget acc s _ _
      exact ⟨[], s.cacheManager, rfl, .done _ _⟩
  | cons request requests ih =>
      intro budget acc s hranks htables
      have hranks' : ∀ r ∈ requests, r.rank = some 0 := fun r hr => hranks r (by simp [hr])
      have htables' : ∀ r ∈ requests, r.requestId ∈ s.cacheManager.tables.keys :=
        fun r hr => htables r (by simp [hr])
      rcases Nat.eq_zero_or_pos budget with hbudget | hbudget
      · subst hbudget
        exact ⟨[], s.cacheManager, by simp [scheduleLoop, Schedule.issueAll], .exhausted _ _⟩
      rcases Nat.eq_zero_or_pos (remaining request) with hrem | hrem
      · obtain ⟨items, m', hrun, hd⟩ := ih budget acc s hranks' htables'
        exact ⟨items, m', (run_scheduleLoop_idle hbudget hrem).trans hrun, .idle hbudget hrem hd⟩
      obtain ⟨t, ht⟩ := Dict.mem_keys_iff.mp (htables request (by simp))
      by_cases hfree : missingBlocks config request t (min (remaining request) budget) ≤
          s.cacheManager.pool.free.length
      · have hrun := run_scheduleLoop_issue requests acc hbudget hrem ht rfl rfl hfree
        have htables'' : ∀ r ∈ requests, r.requestId ∈ (s.cacheManager.grown request.requestId t
            (missingBlocks config request t (min (remaining request) budget))).tables.keys := by
          intro r hr
          exact Dict.mem_keys_set.mpr (Or.inr (htables' r hr))
        obtain ⟨items, m', hrest, hd⟩ := ih _ _ { s with cacheManager := _ } hranks' htables''
        refine ⟨_, m', hrun.trans (hrest.trans ?_), .issue hbudget hrem ht rfl rfl hfree hd⟩
        rw [hranks request (by simp)]
        simp only [Schedule.issueAll, List.foldl_cons, issuedItem,
          length_makeItem_tokenIds (Nat.min_le_left (remaining request) budget)]
      · have hfull := Nat.lt_of_not_le hfree
        obtain ⟨items, m', hrun, hd⟩ := ih budget acc s hranks' htables'
        exact ⟨items, m', (run_scheduleLoop_blocked hbudget hrem ht hfull).trans hrun,
          .blocked hbudget hrem ht hfull hd⟩

end Scheduler

end MiniVLLM
