import MiniVLLM.Verification.Scheduler.Items

/-! # Turns of the scheduling loop

The loop consumes two resources in sequence, tokens and free blocks. Cutting a pass before
a request gives the state of both when its turn comes. -/

theorem List.Sublist.sum_map_eq {α : Type*} {l l' : List α} {f : α → ℕ} (h : l.Sublist l')
    (hnodup : l'.Nodup) (hzero : ∀ a ∈ l', a ∉ l → f a = 0) :
    (l'.map f).sum = (l.map f).sum := by
  induction h with
  | slnil => rfl
  | @cons l l' a hsub ih =>
      obtain ⟨hnotin, hnodup⟩ := List.nodup_cons.mp hnodup
      rw [List.map_cons, List.sum_cons, hzero a (by simp) (fun hmem => hnotin (hsub.subset hmem)),
        Nat.zero_add]
      exact ih hnodup (fun b hb => hzero b (List.mem_cons_of_mem _ hb))
  | @cons_cons l l' a hsub ih =>
      obtain ⟨hnotin, hnodup⟩ := List.nodup_cons.mp hnodup
      rw [List.map_cons, List.map_cons, List.sum_cons, List.sum_cons, ih hnodup]
      intro b hb hnot
      refine hzero b (List.mem_cons_of_mem _ hb) ?_
      rw [List.mem_cons, not_or]
      exact ⟨fun heq => hnotin (heq ▸ hb), hnot⟩

namespace MiniVLLM

open KVCacheManager

/-- The blocks the table of a request gained between two managers. -/
def KVCacheManager.newBlocks (m m' : KVCacheManager) (id : RequestId) : ℕ :=
  ((m'.tables.get? id).getD []).length - ((m.tables.get? id).getD []).length

namespace Scheduler

def issuedTokens (items : List WorkerItem) (requests : List RequestState) : ℕ :=
  (requests.map fun r => pendingOf items r.requestId).sum

def issuedBlocks (m m' : KVCacheManager) (requests : List RequestState) : ℕ :=
  (requests.map fun r => newBlocks m m' r.requestId).sum

theorem pendingOf_append_of_not_mem {items rest : List WorkerItem} {id : RequestId}
    (h : id ∉ items.map (·.requestId)) : pendingOf (items ++ rest) id = pendingOf rest id := by
  induction items with
  | nil => rfl
  | cons item items ih =>
      simp only [List.map_cons, List.mem_cons, not_or] at h
      rw [List.cons_append, pendingOf_cons_of_ne _ h.1, ih h.2]

theorem pendingOf_append_of_not_mem_right {items rest : List WorkerItem} {id : RequestId}
    (h : id ∉ rest.map (·.requestId)) : pendingOf (items ++ rest) id = pendingOf items id := by
  by_cases hid : id ∈ items.map (·.requestId)
  · induction items with
    | nil => simp at hid
    | cons item items ih =>
        by_cases heq : id = item.requestId
        · subst heq
          rw [List.cons_append, pendingOf_cons_self, pendingOf_cons_self]
        · rw [List.cons_append, pendingOf_cons_of_ne _ heq, pendingOf_cons_of_ne _ heq]
          exact ih ((List.mem_cons.mp hid).resolve_left heq)
  · rw [pendingOf_append_of_not_mem hid, pendingOf_of_not_mem h, pendingOf_of_not_mem hid]

namespace ScheduleDerivation

variable {config : EngineConfig} {requests front back : List RequestState} {budget : ℕ}
  {m m' : KVCacheManager} {items : List WorkerItem} {request : RequestState}

/-- A pass over two lists is a pass over each, the second with what the first left. -/
theorem split (h : ScheduleDerivation config (front ++ back) budget m items m') :
    ∃ early late mid, items = early ++ late ∧
      ScheduleDerivation config front budget m early mid ∧
      ScheduleDerivation config back (budget - (early.map (·.tokenIds.length)).sum) mid late m' := by
  induction front generalizing budget m items with
  | nil => exact ⟨[], items, m, rfl, .done _ _, h⟩
  | cons request front ih =>
      cases h with
      | exhausted => exact ⟨[], [], _, rfl, .exhausted _ _, .exhausted _ _⟩
      | idle hbudget hrem hd =>
          obtain ⟨early, late, mid, rfl, hfront, hback⟩ := ih hd
          exact ⟨early, late, mid, rfl, .idle hbudget hrem hfront, hback⟩
      | blocked hbudget hrem ht hfull hd =>
          obtain ⟨early, late, mid, rfl, hfront, hback⟩ := ih hd
          exact ⟨early, late, mid, rfl, .blocked hbudget hrem ht hfull hfront, hback⟩
      | @issue _ _ _ m items _ t count missing hbudget hrem ht hcount hmissing hfree hd =>
          obtain ⟨early, late, mid, rfl, hfront, hback⟩ := ih hd
          refine ⟨_ :: early, late, mid, rfl,
            .issue hbudget hrem ht hcount hmissing hfree hfront, ?_⟩
          have hlen : (issuedItem config request count
              (t ++ m.pool.free.take missing)).tokenIds.length = count :=
            length_makeItem_tokenIds (hcount ▸ Nat.min_le_left _ _)
          rw [List.map_cons, List.sum_cons, hlen, ← Nat.sub_sub]
          exact hback

theorem sum_tokens_eq (h : ScheduleDerivation config requests budget m items m')
    (hnodup : (requests.map (·.requestId)).Nodup) :
    (items.map (·.tokenIds.length)).sum = issuedTokens items requests := by
  have hitems := hnodup.sublist h.items_sublist
  have hsum := h.items_sublist.sum_map_eq hnodup
    (fun id _ hid => @pendingOf_of_not_mem items id hid)
  rw [List.map_map, List.map_map] at hsum
  refine Eq.trans ?_ hsum.symm
  congr 1
  apply List.map_congr_left
  intro item hitem
  exact (pendingOf_of_mem hitems hitem).symm

theorem newBlocks_of_not_mem (h : ScheduleDerivation config requests budget m items m')
    {id : RequestId} (hid : id ∉ items.map (·.requestId)) : newBlocks m m' id = 0 := by
  rw [newBlocks, h.tables_get?_of_not_mem hid, Nat.sub_self]

theorem newBlocks_grown {t : List ℕ} {missing : ℕ} (m' : KVCacheManager) {id : RequestId}
    (hid : id ≠ request.requestId) :
    newBlocks (m.grown request.requestId t missing) m' id = newBlocks m m' id := by
  rw [newBlocks, newBlocks, grown, Dict.get?_set_of_ne _ _ hid]

/-- The free blocks drop by what the items gained. -/
theorem free_add_newBlocks (h : ScheduleDerivation config requests budget m items m')
    (hnodup : (requests.map (·.requestId)).Nodup) :
    m'.pool.free.length + (items.map fun item => newBlocks m m' item.requestId).sum =
      m.pool.free.length := by
  induction h with
  | done => rfl
  | exhausted => rfl
  | idle _ _ _ ih => exact ih (List.nodup_cons.mp hnodup).2
  | blocked _ _ _ _ _ ih => exact ih (List.nodup_cons.mp hnodup).2
  | @issue request requests budget m items m' t count missing _ _ ht _ _ hfree hd ih =>
      obtain ⟨hnotin, hnodup⟩ := List.nodup_cons.mp hnodup
      have hnot : request.requestId ∉ items.map (·.requestId) :=
        fun hmem => hnotin (hd.items_sublist.subset hmem)
      have hself : newBlocks m m' request.requestId = missing := by
        rw [newBlocks, hd.tables_get?_of_not_mem hnot, grown, Dict.get?_set_self, ht]
        simp [hfree]
      have hrest : (items.map fun item => newBlocks m m' item.requestId) = items.map fun item =>
          newBlocks (m.grown request.requestId t missing) m' item.requestId := by
        apply List.map_congr_left
        intro item hitem
        exact (newBlocks_grown _ fun heq => hnot (List.mem_map.mpr ⟨item, hitem, heq⟩)).symm
      have hgrown : (m.grown request.requestId t missing).pool.free.length =
          m.pool.free.length - missing := List.length_drop
      have hfreed := ih hnodup
      rw [List.map_cons, List.sum_cons, issuedItem_requestId, hself, hrest]
      omega

/-- Requests without an item gain no block, so the items' gains are all there is. -/
theorem issuedBlocks_eq (h : ScheduleDerivation config requests budget m items m')
    (hnodup : (requests.map (·.requestId)).Nodup) :
    issuedBlocks m m' requests = (items.map fun item => newBlocks m m' item.requestId).sum := by
  have hsum := h.items_sublist.sum_map_eq hnodup (fun id _ hid => h.newBlocks_of_not_mem hid)
  rw [List.map_map, List.map_map] at hsum
  exact hsum

theorem issuedBlocks_early {mid : KVCacheManager} {late : List WorkerItem}
    (h : ScheduleDerivation config back budget mid late m')
    (hdisj : ∀ r ∈ front, r.requestId ∉ late.map (·.requestId)) :
    issuedBlocks m mid front = issuedBlocks m m' front := by
  rw [issuedBlocks, issuedBlocks]
  congr 1
  apply List.map_congr_left
  intro r hr
  rw [newBlocks, newBlocks, h.tables_get?_of_not_mem (hdisj r hr)]

theorem issuedTokens_early {early late : List WorkerItem}
    (hdisj : ∀ r ∈ front, r.requestId ∉ late.map (·.requestId)) :
    issuedTokens early front = issuedTokens (early ++ late) front := by
  rw [issuedTokens, issuedTokens]
  congr 1
  apply List.map_congr_left
  intro r hr
  exact (pendingOf_append_of_not_mem_right (hdisj r hr)).symm

/-- A request without an item has no tokens left, or came after the budget was used up, or
lacked more blocks than the requests before it left free. -/
theorem skipped (h : ScheduleDerivation config (front ++ request :: back) budget m items m')
    (hnodup : ((front ++ request :: back).map (·.requestId)).Nodup) {t : List ℕ}
    (ht : m.tables.get? request.requestId = some t)
    (hnone : request.requestId ∉ items.map (·.requestId)) :
    remaining request = 0 ∨ issuedTokens items front = budget ∨
      m.pool.free.length < issuedBlocks m m' front + missingBlocks config request t
        (min (remaining request) (budget - issuedTokens items front)) := by
  obtain ⟨early, late, mid, rfl, hfront, hback⟩ := h.split
  rw [List.map_append] at hnodup
  have hnodupFront : (front.map (·.requestId)).Nodup := (List.nodup_append.mp hnodup).1
  have hdisj : ∀ r ∈ front, r.requestId ∉ late.map (·.requestId) := by
    intro r hr hmem
    exact (List.nodup_append.mp hnodup).2.2 _ (List.mem_map.mpr ⟨r, hr, rfl⟩) _
      (hback.items_sublist.subset hmem) rfl
  have hbudget := hfront.sum_tokens_le
  have hfree := hfront.free_add_newBlocks hnodupFront
  rw [← hfront.issuedBlocks_eq hnodupFront] at hfree
  rw [hfront.sum_tokens_eq hnodupFront, issuedTokens_early hdisj] at hback hbudget
  rw [hback.issuedBlocks_early hdisj] at hfree
  rw [List.map_append, List.mem_append, not_or] at hnone
  have hmid : mid.tables.get? request.requestId = some t := by
    rw [hfront.tables_get?_of_not_mem hnone.1, ht]
  generalize hleft : budget - issuedTokens (early ++ late) front = left at hback ⊢
  cases hback with
  | exhausted => exact Or.inr (Or.inl (by omega))
  | idle _ hrem _ => exact Or.inl hrem
  | blocked _ _ hu hfull _ =>
      obtain rfl := Option.some.inj (hmid.symm.trans hu)
      exact Or.inr (Or.inr (by omega))
  | issue => simp at hnone

/-- Only the last item may be cut short, and only by the end of the budget. -/
theorem whole_or_last (h : ScheduleDerivation config requests budget m items m')
    {pre post : List WorkerItem} {item : WorkerItem} (hsplit : items = pre ++ item :: post) :
    ∃ r ∈ requests, r.requestId = item.requestId ∧ (item.seqLen = r.allTokenIds.length ∨
      post = [] ∧ (items.map (·.tokenIds.length)).sum = budget) := by
  induction h generalizing pre with
  | done => simp at hsplit
  | exhausted => simp at hsplit
  | idle _ _ _ ih =>
      obtain ⟨r, hr, hrest⟩ := ih hsplit
      exact ⟨r, List.mem_cons_of_mem _ hr, hrest⟩
  | blocked _ _ _ _ _ ih =>
      obtain ⟨r, hr, hrest⟩ := ih hsplit
      exact ⟨r, List.mem_cons_of_mem _ hr, hrest⟩
  | @issue request requests budget m items m' t count missing hbudget hrem _ hcount _ _ hd ih =>
      have hlen : (issuedItem config request count
          (t ++ m.pool.free.take missing)).tokenIds.length = count :=
        length_makeItem_tokenIds (hcount ▸ Nat.min_le_left _ _)
      cases pre with
      | nil =>
          obtain ⟨rfl, rfl⟩ := List.cons.inj hsplit
          refine ⟨request, by simp, rfl, ?_⟩
          rcases Nat.le_total (remaining request) budget with hle | hle
          · refine Or.inl ?_
            rw [Nat.min_eq_left hle] at hcount
            show request.numComputedTokens + count = _
            rw [hcount]
            unfold remaining at hrem ⊢
            omega
          · rw [Nat.min_eq_right hle] at hcount
            subst hcount
            rw [Nat.sub_self] at hd
            have hnil : items = [] := by
              cases hd with
              | done => rfl
              | exhausted => rfl
              | idle hpos => exact absurd hpos (Nat.lt_irrefl 0)
              | blocked hpos => exact absurd hpos (Nat.lt_irrefl 0)
              | issue hpos => exact absurd hpos (Nat.lt_irrefl 0)
            subst hnil
            exact Or.inr ⟨rfl, by rw [List.map_cons, List.sum_cons, hlen]; rfl⟩
      | cons first pre =>
          obtain ⟨rfl, htail⟩ := List.cons.inj hsplit
          obtain ⟨r, hr, hid, hwhole | ⟨hlast, hsum⟩⟩ := ih htail
          · exact ⟨r, List.mem_cons_of_mem _ hr, hid, Or.inl hwhole⟩
          · refine ⟨r, List.mem_cons_of_mem _ hr, hid, Or.inr ⟨hlast, ?_⟩⟩
            have hle : count ≤ budget := hcount ▸ Nat.min_le_right _ _
            rw [List.map_cons, List.sum_cons, hlen, hsum]
            omega

end ScheduleDerivation

/-! ## One call of `schedule` -/

theorem Schedule.issueAll_counts (items : List WorkerItem) (acc : Schedule)
    (hnodup : (acc.scheduledCounts.keys ++ items.map (·.requestId)).Nodup) :
    (Schedule.issueAll acc items).scheduledCounts.entries =
      acc.scheduledCounts.entries ++ items.map fun item =>
        (item.requestId, item.tokenIds.length) := by
  induction items generalizing acc with
  | nil => exact (List.append_nil _).symm
  | cons item items ih =>
      have hnew : item.requestId ∉ acc.scheduledCounts.keys := fun hmem =>
        (List.nodup_append.mp hnodup).2.2 _ hmem _ (by simp) rfl
      have hkeys : (acc.issue (some 0) item item.tokenIds.length).scheduledCounts.keys =
          acc.scheduledCounts.keys ++ [item.requestId] := Dict.keys_set_of_not_mem _ hnew
      rw [show Schedule.issueAll acc (item :: items) =
        Schedule.issueAll (acc.issue (some 0) item item.tokenIds.length) items from rfl, ih _ (by
          rw [hkeys, List.append_assoc]
          exact hnodup), Schedule.issue, Dict.entries_set_of_not_mem _ hnew, List.append_assoc]
      rfl

/-- The scheduled counts are the items' token counts, in the order of the items. -/
theorem Schedule.ofItems_counts_entries {items : List WorkerItem}
    (hnodup : (items.map (·.requestId)).Nodup) :
    (Schedule.ofItems items).scheduledCounts.entries =
      items.map fun item => (item.requestId, item.tokenIds.length) :=
  Schedule.issueAll_counts items .empty hnodup

/-- What one call of `schedule` does once admission has led to `admitted`: the items it
issues, the schedule it returns and the state it leaves. -/
structure ScheduleSpec (config : EngineConfig) (admitted : Scheduler) (items : List WorkerItem)
    (schedule : Schedule) (s' : Scheduler) : Prop where
  byRank : schedule.byRank.entries = if items = [] then [] else [(some 0, items)]
  counts : schedule.scheduledCounts.entries =
    items.map fun item => (item.requestId, item.tokenIds.length)
  counts_pos : ∀ count ∈ schedule.scheduledCounts.values, 1 ≤ count
  budget : schedule.scheduledCounts.values.sum ≤ config.maxNumBatchedTokens
  order : (items.map (·.requestId)).Sublist admitted.running.keys
  issued : ∀ item ∈ items, ∃ r, admitted.running.get? item.requestId = some r ∧
    Issued config admitted.cacheManager s'.cacheManager r item
  whole : ∀ pre item post, items = pre ++ item :: post →
    ∀ r, admitted.running.get? item.requestId = some r → item.seqLen = r.allTokenIds.length ∨
      (post = [] ∧ schedule.scheduledCounts.values.sum = config.maxNumBatchedTokens)
  skipped : ∀ front r back t, admitted.running.values = front ++ r :: back →
    admitted.cacheManager.tables.get? r.requestId = some t →
    r.requestId ∉ items.map (·.requestId) →
      issuedTokens items front = config.maxNumBatchedTokens ∨
      admitted.cacheManager.pool.free.length <
        issuedBlocks admitted.cacheManager s'.cacheManager front +
          missingBlocks config r t
            (min (remaining r) (config.maxNumBatchedTokens - issuedTokens items front))
  free : s'.cacheManager.pool.free.length + (items.map fun item =>
      newBlocks admitted.cacheManager s'.cacheManager item.requestId).sum =
    admitted.cacheManager.pool.free.length
  tables : ∀ id, id ∉ items.map (·.requestId) →
    s'.cacheManager.tables.get? id = admitted.cacheManager.tables.get? id
  running : s'.running = admitted.running
  waiting : s'.waiting = admitted.waiting

namespace Scheduled

variable {config : EngineConfig} {s admitted : Scheduler} {items : List WorkerItem}
  {m' : KVCacheManager}

/-- Each call meets its specification, if the running requests have tokens left. -/
theorem spec (h : Scheduled config s admitted items m')
    (hpos : ∀ r ∈ admitted.running.values, 0 < remaining r) :
    ScheduleSpec config admitted items (Schedule.ofItems items) (admitted.withCache m') := by
  have hkeys := h.settled.map_requestId_values
  have hnodup : (admitted.running.values.map (·.requestId)).Nodup :=
    hkeys ▸ admitted.running.keys_nodup
  have hcounts := Schedule.ofItems_counts_entries h.items_nodup
  have hvalues : (Schedule.ofItems items).scheduledCounts.values =
      items.map (·.tokenIds.length) := by
    rw [Dict.values, hcounts, List.map_map]
    rfl
  exact
    { byRank := Schedule.ofItems_byRank items
      counts := hcounts
      counts_pos := by
        intro count hcount
        rw [hvalues] at hcount
        obtain ⟨item, hitem, rfl⟩ := List.mem_map.mp hcount
        obtain ⟨r, _, hissued⟩ := h.issued hitem
        exact hissued.tokenIds_pos
      budget := by
        rw [hvalues]
        exact h.loop.sum_tokens_le
      order := hkeys ▸ h.loop.items_sublist
      issued := fun item hitem => h.issued hitem
      whole := by
        intro pre item post hsplit r hr
        obtain ⟨r', hr', hid, hcases⟩ := h.loop.whole_or_last hsplit
        have hget := h.settled.mem_values_iff.mp hr'
        rw [hid, hr] at hget
        obtain rfl := Option.some.inj hget
        rw [hvalues]
        exact hcases
      skipped := by
        intro front r back t hsplit ht hnone
        have hr : r ∈ admitted.running.values := by simp [hsplit]
        rw [hsplit] at hnodup
        exact ((hsplit ▸ h.loop).skipped hnodup ht hnone).resolve_left (hpos r hr).ne'
      free := h.loop.free_add_newBlocks hnodup
      tables := fun id hid => h.loop.tables_get?_of_not_mem hid
      running := rfl
      waiting := rfl }

end Scheduled

end Scheduler

end MiniVLLM
