import MiniVLLM.Verification.Engine.Admissions

/-! # Seats without blocks

Admission tests every request against the same free blocks and takes none of them, while the
loop serves the requests one after the other. A seat is good exactly when the blocks still
suffice after everybody served before. -/

theorem List.forall_cons_cut {α : Type*} {P : List α → α → Prop} {a : α} {l : List α} :
    (∀ front b back, a :: l = front ++ b :: back → P front b) ↔
      P [] a ∧ ∀ front b back, l = front ++ b :: back → P (a :: front) b := by
  constructor
  · intro h
    exact ⟨h [] a l rfl, fun front b back hsplit => h (a :: front) b back (hsplit ▸ rfl)⟩
  · rintro ⟨hhead, htail⟩ front b back hsplit
    cases front with
    | nil =>
        obtain ⟨rfl, rfl⟩ := List.cons.inj hsplit
        exact hhead
    | cons first front =>
        obtain ⟨rfl, hrest⟩ := List.cons.inj hsplit
        exact htail front b back hrest

namespace MiniVLLM

open KVCacheManager

def Schedule.items (schedule : Schedule) : List WorkerItem := schedule.byRank.values.flatten

def Schedule.tokens (schedule : Schedule) (requests : List RequestState) : ℕ :=
  (requests.map fun r => (schedule.scheduledCounts.get? r.requestId).getD 0).sum

namespace Scheduler

/-- Every request the next `schedule` call seats, and whose turn comes with budget left, gets
an item in that call. -/
def AdmissionSound (config : EngineConfig) (s : Scheduler) : Prop :=
  ∀ admitted schedule s', (admitWaiting config).run s = .ok () admitted →
    (Scheduler.schedule config).run s = .ok schedule s' →
      ∀ front w back, admitted.running.values = front ++ w :: back →
        w.requestId ∈ seatedBy config s →
        schedule.tokens front < config.maxNumBatchedTokens →
          w.requestId ∈ schedule.items.map (·.requestId)

/-- What a running request leaves of the token budget and the free blocks. -/
def leave (config : EngineConfig) : ℕ × ℕ → RequestState → ℕ × ℕ
  | (budget, free), r =>
      let count := min (remaining r) budget
      let missing := requiredBlocks config.blockSize (r.numComputedTokens + count) -
        requiredBlocks config.blockSize r.numComputedTokens
      if missing ≤ free then (budget - count, free - missing) else (budget, free)

/-- What the requests that run already leave of the token budget and the free blocks. -/
def leftover (config : EngineConfig) (s : Scheduler) : ℕ × ℕ :=
  s.running.values.foldl (leave config)
    (config.maxNumBatchedTokens, s.cacheManager.pool.numFreeBlocks)

/-- The prompts of the requests before `w` do not use up the budget only if their blocks and
those of the first chunk of `w` are free together. -/
def ChunkFits (blockSize budget free : ℕ) (front : List RequestState) (w : RequestState) : Prop :=
  let used := (front.map fun r => r.promptTokenIds.length).sum
  used < budget →
    (front.map fun r => requiredBlocks blockSize r.promptTokenIds.length).sum +
      requiredBlocks blockSize (min w.promptTokenIds.length (budget - used)) ≤ free

/-- The requests to be seated fit one after the other into what the running ones leave. -/
def SeatedFit (config : EngineConfig) (s : Scheduler) : Prop :=
  ∀ front w back, seatable config s = front ++ w :: back →
    ChunkFits config.blockSize (leftover config s).1 (leftover config s).2 front w

section Leftover

variable {config : EngineConfig} {requests : List RequestState} {budget free : ℕ}
  {m m' : KVCacheManager} {items : List WorkerItem} {r : RequestState}

theorem leave_zero_budget (config : EngineConfig) (free : ℕ) (r : RequestState) :
    leave config (0, free) r = (0, free) := by
  simp [leave]

theorem leave_of_done (budget free : ℕ) (h : remaining r = 0) :
    leave config (budget, free) r = (budget, free) := by
  simp [leave, h]

theorem foldl_leave_zero_budget (config : EngineConfig) (free : ℕ) (requests : List RequestState) :
    requests.foldl (leave config) (0, free) = (0, free) := by
  induction requests with
  | nil => rfl
  | cons r requests ih => rw [List.foldl_cons, leave_zero_budget, ih]

theorem ScheduleDerivation.foldl_leave
    (h : ScheduleDerivation config requests budget m items m')
    (hnodup : (requests.map (·.requestId)).Nodup)
    (hblocks : ∀ r ∈ requests, ∀ t, m.tables.get? r.requestId = some t →
      t.length = requiredBlocks config.blockSize r.numComputedTokens) :
    requests.foldl (leave config) (budget, m.pool.free.length) =
      (budget - (items.map (·.tokenIds.length)).sum, m'.pool.free.length) := by
  induction h with
  | done => rfl
  | exhausted requests m => exact foldl_leave_zero_budget config _ requests
  | idle _ hrem _ ih =>
      rw [List.foldl_cons, leave_of_done _ _ hrem]
      exact ih (List.nodup_cons.mp hnodup).2 (fun r hr => hblocks r (List.mem_cons_of_mem _ hr))
  | @blocked request requests budget m items m' t _ _ ht hfull _ ih =>
      have hlen := hblocks request (by simp) t ht
      rw [missingBlocks, hlen] at hfull
      rw [List.foldl_cons, leave]
      simp only [if_neg (Nat.not_le.mpr hfull)]
      exact ih (List.nodup_cons.mp hnodup).2 (fun r hr => hblocks r (List.mem_cons_of_mem _ hr))
  | @issue request requests budget m items m' t count missing _ _ ht hcount hmissing hfree hd ih =>
      obtain ⟨hnotin, hnodup⟩ := List.nodup_cons.mp hnodup
      have hlen := hblocks request (by simp) t ht
      have htokens : (issuedItem config request count
          (t ++ m.pool.free.take missing)).tokenIds.length = count :=
        length_makeItem_tokenIds (hcount ▸ Nat.min_le_left _ _)
      have hgrown : (m.grown request.requestId t missing).pool.free.length =
          m.pool.free.length - missing := List.length_drop
      have hrest := ih hnodup (by
        intro r hr u hu
        have hne : r.requestId ≠ request.requestId :=
          fun heq => hnotin (List.mem_map.mpr ⟨r, hr, heq⟩)
        rw [grown, Dict.get?_set_of_ne _ _ hne] at hu
        exact hblocks r (List.mem_cons_of_mem _ hr) u hu)
      rw [missingBlocks, hlen] at hmissing
      rw [List.foldl_cons, leave]
      simp only [← hcount, ← hmissing, if_pos hfree]
      rw [← hgrown, hrest, List.map_cons, List.sum_cons, htokens, Nat.sub_sub]

/-- What the rest of the seated requests needs, after the first one got its whole prompt. -/
theorem chunkFits_cons {blockSize : ℕ} {w r : RequestState} {front : List RequestState}
    (hbudget : w.promptTokenIds.length ≤ budget)
    (hfree : requiredBlocks blockSize w.promptTokenIds.length ≤ free) :
    ChunkFits blockSize budget free (w :: front) r ↔
      ChunkFits blockSize (budget - w.promptTokenIds.length)
        (free - requiredBlocks blockSize w.promptTokenIds.length) front r := by
  simp only [ChunkFits, List.map_cons, List.sum_cons, Nat.sub_sub]
  constructor
  · intro h hlt
    have := h (by omega)
    omega
  · intro h hlt
    have := h (by omega)
    omega

theorem issuedTokens_cons {item : WorkerItem} {w : RequestState} {front : List RequestState}
    (hid : item.requestId = w.requestId) (hne : ∀ r ∈ front, r.requestId ≠ item.requestId) :
    issuedTokens (item :: items) (w :: front) = item.tokenIds.length + issuedTokens items front := by
  rw [issuedTokens, issuedTokens, List.map_cons, List.sum_cons, ← hid, pendingOf_cons_self]
  congr 2
  apply List.map_congr_left
  intro r hr
  exact pendingOf_cons_of_ne _ (hne r hr)

/-- Freshly seated requests all get items exactly when they fit one after the other. -/
theorem ScheduleDerivation.all_issued_iff {seats : List RequestState}
    (h : ScheduleDerivation config (seats.map RequestState.seat) budget m items m')
    (hnodup : (seats.map (·.requestId)).Nodup)
    (hfresh : ∀ w ∈ seats, w.numComputedTokens = 0 ∧ w.outputTokenIds = [] ∧
      w.promptTokenIds ≠ [] ∧ m.tables.get? w.requestId = some []) :
    (∀ front w back, seats = front ++ w :: back → issuedTokens items front < budget →
      w.requestId ∈ items.map (·.requestId)) ↔
    ∀ front w back, seats = front ++ w :: back →
      ChunkFits config.blockSize budget m.pool.free.length front w := by
  induction seats generalizing budget m items with
  | nil => simp
  | cons w seats ih =>
      obtain ⟨hnotin, hrest⟩ := List.nodup_cons.mp hnodup
      obtain ⟨hcomputed, houtputs, hprompt, htable⟩ := hfresh w (by simp)
      have hlen : remaining w.seat = w.promptTokenIds.length := by
        simp [remaining, RequestState.seat, RequestState.allTokenIds, hcomputed, houtputs]
      have hpos : 0 < w.promptTokenIds.length := List.length_pos_of_ne_nil hprompt
      have hmissing : ∀ count, missingBlocks config w.seat [] count =
          requiredBlocks config.blockSize count := by
        intro count
        simp [missingBlocks, RequestState.seat, hcomputed]
      rw [List.forall_cons_cut (P := fun front w => issuedTokens items front < budget →
          w.requestId ∈ items.map (·.requestId)),
        List.forall_cons_cut (P := ChunkFits config.blockSize budget m.pool.free.length)]
      cases h with
      | exhausted => simp [ChunkFits]
      | idle _ hrem _ => omega
      | @blocked _ _ _ _ _ _ t hbudget _ ht hfull hd =>
          obtain rfl : [] = t := Option.some.inj (htable.symm.trans ht)
          rw [hmissing, hlen] at hfull
          have hnot : w.requestId ∉ items.map (·.requestId) := by
            intro hmem
            have hseat := hd.items_sublist.subset hmem
            rw [List.map_map] at hseat
            exact hnotin hseat
          refine iff_of_false (fun hall => hnot (hall.1 hbudget)) (fun hall => ?_)
          have hfits := hall.1 hbudget
          simp only [List.map_nil, List.sum_nil, Nat.sub_zero, Nat.zero_add] at hfits
          omega
      | @issue _ _ _ _ items _ t count missing hbudget _ ht hcount hmiss hfree hd =>
          obtain rfl : [] = t := Option.some.inj (htable.symm.trans ht)
          rw [hmissing] at hmiss
          rw [hlen] at hcount
          have hgrown : (m.grown w.seat.requestId [] missing).pool.free.length =
              m.pool.free.length - missing := List.length_drop
          have hne : ∀ r ∈ seats, r.requestId ≠ w.requestId :=
            fun r hr heq => hnotin (List.mem_map.mpr ⟨r, hr, heq⟩)
          have htokens : (issuedItem config w.seat count
              ([] ++ m.pool.free.take missing)).tokenIds.length = count :=
            length_makeItem_tokenIds (hlen ▸ hcount ▸ Nat.min_le_left _ _)
          generalize hfirst : issuedItem config w.seat count ([] ++ m.pool.free.take missing) =
            first at htokens
          have hid : first.requestId = w.requestId := hfirst ▸ rfl
          have hhead : ChunkFits config.blockSize budget m.pool.free.length [] w := by
            intro _
            simp only [List.map_nil, List.sum_nil, Nat.sub_zero, Nat.zero_add, ← hcount, ← hmiss]
            exact hfree
          rw [and_iff_right (fun _ => by simp [hid]), and_iff_right hhead]
          have hsum : ∀ front r back, seats = front ++ r :: back →
              issuedTokens (first :: items) (w :: front) = count + issuedTokens items front := by
            intro front r back hsplit
            refine htokens ▸ issuedTokens_cons hid (fun r' hr' => ?_)
            exact hid ▸ hne r' (hsplit ▸ List.mem_append_left _ hr')
          rcases Nat.le_total w.promptTokenIds.length budget with hle | hle
          · rw [Nat.min_eq_left hle] at hcount
            subst hcount hmiss
            have hih := ih hd hrest (by
              intro r hr
              obtain ⟨hc, ho, hp, ht⟩ := hfresh r (List.mem_cons_of_mem _ hr)
              exact ⟨hc, ho, hp, (Dict.get?_set_of_ne _ _ (hne r hr)).trans ht⟩)
            rw [hgrown] at hih
            refine Iff.trans ?_ (hih.trans ?_)
            · refine forall_congr' fun front => forall_congr' fun r => forall_congr' fun back =>
                forall_congr' fun hsplit => ?_
              have hr : r.requestId ≠ first.requestId := hid ▸ hne r (by simp [hsplit])
              rw [hsum front r back hsplit, List.map_cons, List.mem_cons, or_iff_right hr,
                Nat.lt_sub_iff_add_lt']
            · exact forall_congr' fun front => forall_congr' fun r => forall_congr' fun back =>
                forall_congr' fun _ => (chunkFits_cons hle hfree).symm
          · -- The first chunk ends the budget, so nobody's turn comes any more.
            rw [Nat.min_eq_right hle] at hcount
            refine iff_of_true ?_ ?_
            · intro front r back hsplit hlt
              rw [hsum front r back hsplit] at hlt
              omega
            · intro front r back _ hlt
              rw [List.map_cons, List.sum_cons] at hlt
              omega

end Leftover

theorem Schedule.items_ofItems (items : List WorkerItem) :
    (Schedule.ofItems items).items = items := by
  rw [Schedule.items, Dict.values, Schedule.ofItems_byRank]
  split
  · rename_i hnil
    rw [hnil]
    rfl
  · simp

theorem Schedule.tokens_ofItems {items : List WorkerItem}
    (hnodup : (items.map (·.requestId)).Nodup) (requests : List RequestState) :
    (Schedule.ofItems items).tokens requests = issuedTokens items requests := by
  rw [Schedule.tokens, issuedTokens]
  congr 1
  apply List.map_congr_left
  intro r _
  by_cases hmem : r.requestId ∈ items.map (·.requestId)
  · obtain ⟨item, hitem, hid⟩ := List.mem_map.mp hmem
    rw [← hid, Schedule.ofItems_counts hnodup hitem, pendingOf_of_mem hnodup hitem]
    rfl
  · rw [pendingOf_of_not_mem hmem, Schedule.ofItems, Schedule.issueAll_counts_of_not_mem _ _ hmem]
    rfl

section Call

variable {config : EngineConfig} {s admitted : Scheduler} {items : List WorkerItem}
  {m' : KVCacheManager}

theorem Scheduled.seats_issued_iff (h : Scheduled config s admitted items m')
    (hsettled : s.Settled config) (hprompts : ∀ w ∈ s.waiting, w.promptTokenIds ≠ []) :
    (∀ front w back, seatable config s = front ++ w :: back →
      issuedTokens items (s.running.values ++ front) < config.maxNumBatchedTokens →
        w.requestId ∈ items.map (·.requestId)) ↔ SeatedFit config s := by
  have hkeys := h.settled.map_requestId_values
  have hnodup : (admitted.running.values.map (·.requestId)).Nodup :=
    hkeys ▸ admitted.running.keys_nodup
  have hloop := h.loop
  rw [h.running_values] at hloop hnodup
  obtain ⟨early, late, mid, rfl, hold, hnew⟩ := hloop.split
  rw [List.map_append] at hnodup
  obtain ⟨hnodupOld, hnodupNew, hdisj⟩ := List.nodup_append.mp hnodup
  have hnotLate : ∀ r ∈ s.running.values, r.requestId ∉ late.map (·.requestId) :=
    fun r hr hmem => hdisj _ (List.mem_map.mpr ⟨r, hr, rfl⟩) _ (hnew.items_sublist.subset hmem) rfl
  have hleft : leftover config s =
      (config.maxNumBatchedTokens - (early.map (·.tokenIds.length)).sum, mid.pool.free.length) := by
    have hfold := hold.foldl_leave hnodupOld (by
      intro r hr t ht
      have hget := hsettled.mem_values_iff.mp hr
      obtain ⟨u, hu⟩ := hsettled.table_of_running hget
      obtain rfl : u = t :=
        Option.some.inj ((h.admission.tables_get? hsettled hu).symm.trans ht)
      simpa using hsettled.blocks _ _ _ hget hu)
    rw [h.admission.pool_eq] at hfold
    exact hfold
  have hnodupSeats : ((seatable config s).map (·.requestId)).Nodup := by
    rw [List.map_map] at hnodupNew
    exact hnodupNew
  have hnotEarly : ∀ w ∈ seatable config s, w.requestId ∉ early.map (·.requestId) := by
    intro w hw hmem
    exact hdisj _ (hold.items_sublist.subset hmem) w.requestId
      (List.mem_map.mpr ⟨w.seat, List.mem_map.mpr ⟨w, hw, rfl⟩, rfl⟩) rfl
  have hfresh : ∀ w ∈ seatable config s, w.numComputedTokens = 0 ∧ w.outputTokenIds = [] ∧
      w.promptTokenIds ≠ [] ∧ mid.tables.get? w.requestId = some [] := by
    intro w hw
    obtain ⟨hwait, _⟩ := seatable_subset hw
    obtain ⟨hcomputed, houtputs⟩ := hsettled.waiting_fresh w hwait
    have hget : admitted.running.get? w.requestId = some w.seat := by
      have hseat : w.seat ∈ admitted.running.values := by
        rw [h.running_values]
        exact List.mem_append_right _ (List.mem_map.mpr ⟨w, hw, rfl⟩)
      exact h.settled.mem_values_iff.mp hseat
    obtain ⟨t, ht⟩ := h.settled.table_of_running hget
    have hlen := h.settled.blocks _ _ _ hget ht
    rw [show w.seat.numComputedTokens + 0 = 0 from hcomputed,
      requiredBlocks_zero config.blockSize_pos] at hlen
    obtain rfl := List.length_eq_zero_iff.mp hlen
    exact ⟨hcomputed, houtputs, hprompts w hwait,
      (hold.tables_get?_of_not_mem (hnotEarly w hw)).trans ht⟩
  have hiff := hnew.all_issued_iff hnodupSeats hfresh
  rw [SeatedFit, hleft, ← hiff]
  have hused := hold.sum_tokens_eq hnodupOld
  rw [ScheduleDerivation.issuedTokens_early hnotLate] at hused
  refine forall_congr' fun front => forall_congr' fun w => forall_congr' fun back =>
    forall_congr' fun hsplit => ?_
  have hfront : issuedTokens (early ++ late) front = issuedTokens late front := by
    rw [issuedTokens, issuedTokens]
    congr 1
    apply List.map_congr_left
    intro r hr
    exact pendingOf_append_of_not_mem (hnotEarly r (hsplit ▸ List.mem_append_left _ hr))
  have hmem : w.requestId ∈ (early ++ late).map (·.requestId) ↔
      w.requestId ∈ late.map (·.requestId) := by
    rw [List.map_append, List.mem_append, or_iff_right (hnotEarly w (by simp [hsplit]))]
  have hsum : issuedTokens (early ++ late) (s.running.values ++ front) =
      (early.map (·.tokenIds.length)).sum + issuedTokens late front := by
    rw [issuedTokens, List.map_append, List.sum_append, hused, ← hfront]
    rfl
  rw [hmem, hsum, Nat.lt_sub_iff_add_lt']

/-- What the call does to the seats, in terms of its own results. -/
theorem Scheduled.admissionSound_iff (h : Scheduled config s admitted items m')
    (hsettled : s.Settled config) (hwaiting : (admitWaiting config).run s = .ok () admitted)
    (hrun : (Scheduler.schedule config).run s =
      .ok (Schedule.ofItems items) (admitted.withCache m')) :
    AdmissionSound config s ↔
      ∀ front w back, seatable config s = front ++ w :: back →
        issuedTokens items (s.running.values ++ front) < config.maxNumBatchedTokens →
          w.requestId ∈ items.map (·.requestId) := by
  have hnodup : (admitted.running.values.map (·.requestId)).Nodup :=
    h.settled.map_requestId_values ▸ admitted.running.keys_nodup
  rw [h.running_values] at hnodup
  have htokens : ∀ front : List RequestState,
      (Schedule.ofItems items).tokens (s.running.values ++ front.map RequestState.seat) =
        issuedTokens items (s.running.values ++ front) := by
    intro front
    rw [Schedule.tokens_ofItems h.items_nodup, issuedTokens, issuedTokens, List.map_append,
      List.map_append, List.map_map]
    rfl
  constructor
  · intro hsound front w back hsplit hlt
    have hvalues : admitted.running.values =
        (s.running.values ++ front.map RequestState.seat) ++ w.seat :: back.map RequestState.seat := by
      rw [h.running_values, hsplit]
      simp
    have hseated : w.seat.requestId ∈ seatedBy config s := by
      rw [hsettled.seatedBy_eq, hsplit]
      simp [RequestState.seat]
    have hitem := hsound _ _ _ hwaiting hrun _ w.seat _ hvalues hseated (htokens front ▸ hlt)
    rwa [Schedule.items_ofItems] at hitem
  · intro hall admitted' schedule s' hwaiting' hrun' front w back hsplit hseated hlt
    obtain ⟨_, rfl⟩ := EStateM.Result.ok.inj (hwaiting.symm.trans hwaiting')
    obtain ⟨rfl, rfl⟩ := EStateM.Result.ok.inj (hrun.symm.trans hrun')
    rw [Schedule.items_ofItems]
    rw [hsettled.seatedBy_eq] at hseated
    obtain ⟨w', hw', hid⟩ := List.mem_map.mp hseated
    have hnotOld : w ∉ s.running.values := by
      intro hold
      rw [List.map_append] at hnodup
      exact (List.nodup_append.mp hnodup).2.2 _ (List.mem_map.mpr ⟨w, hold, rfl⟩) w'.requestId
        (List.mem_map.mpr ⟨w'.seat, List.mem_map.mpr ⟨w', hw', rfl⟩, rfl⟩) hid.symm
    rw [h.running_values] at hsplit
    obtain ⟨seats, rfl, hseats⟩ : ∃ seats, front = s.running.values ++ seats ∧
        (seatable config s).map RequestState.seat = seats ++ w :: back := by
      rcases List.append_eq_append_iff.mp hsplit with ⟨seats, rfl, hseats⟩ | ⟨mid, hold, hmid⟩
      · exact ⟨seats, rfl, hseats⟩
      · cases mid with
        | nil => exact ⟨[], by simpa using hold.symm, by simpa using hmid.symm⟩
        | cons first mid =>
            obtain ⟨rfl, _⟩ := List.cons.inj hmid
            exact absurd (by simp [hold]) hnotOld
    obtain ⟨front, rest, hcut, rfl, hrest⟩ := List.map_eq_append_iff.mp hseats
    obtain ⟨w, back, rfl, rfl, rfl⟩ := List.map_eq_cons_iff.mp hrest
    exact hall front w back hcut (htokens front ▸ hlt)

end Call

end Scheduler

namespace EngineCore

open Scheduler

/-- In every reachable state the seats of the next call are good exactly when the requests
to be seated fit one after the other. -/
theorem Trace.admissionSound_iff_fit {config : EngineConfig} {tokenizer : Tokenizer}
    {τs : List CoreTransition} {core : EngineCore} (h : Trace config tokenizer τs core)
    (hloop : core.stopped = false)
    (hprompts : ∀ w ∈ core.scheduler.waiting, w.promptTokenIds ≠ []) :
    AdmissionSound config core.scheduler ↔ SeatedFit config core.scheduler := by
  have hsettled := Trace.stable h hloop
  obtain ⟨admitted, items, m', hs, hwaiting, hrun⟩ := hsettled.run_admitWaiting
  rw [hs.admissionSound_iff hsettled hwaiting hrun, hs.seats_issued_iff hsettled hprompts]

def twoPromptEvents : List Event :=
  [.command (.add (requestOf "a" [10, 11, 12])), .command (.add (requestOf "b" [13, 14, 15]))]

/-- Both get a seat, but the first one takes the blocks the second one was seated for. -/
theorem admission_unsound_two_prompts : ∃ τs core,
    HonestTrace tightConfig characterTokenizer τs core ∧ core.stopped = false ∧
      ¬ AdmissionSound tightConfig core.scheduler := by
  have hsome : (drive tightConfig characterTokenizer twoPromptEvents).map
      (fun run => (decide ((∀ τ ∈ run.1, HonestEvent τ.pre τ.out τ.event) ∧
          run.2.stopped = false),
        seatedBy tightConfig run.2.scheduler,
        ((admitWaiting tightConfig).final run.2.scheduler).running.values.map (·.requestId),
        ((Scheduler.schedule tightConfig).value? run.2.scheduler).any fun schedule =>
          decide (schedule.items.map (·.requestId) = ["a"] ∧
            schedule.scheduledCounts.get? "a" = some 3))) =
      some (true, ["a", "b"], ["a", "b"], true) := by decide +kernel
  obtain ⟨⟨τs, core⟩, hdrive, hrun⟩ := Option.map_eq_some_iff.mp hsome
  simp only [Prod.mk.injEq, decide_eq_true_eq] at hrun
  obtain ⟨⟨hhonest, hloop⟩, hseated, hadmitted, hscheduled⟩ := hrun
  have htrace := drive_honest hdrive (by decide) hhonest
  refine ⟨τs, core, htrace, hloop, fun hsound => ?_⟩
  obtain ⟨admitted, items, m', hs, hwaiting, hschedule⟩ :=
    (Trace.stable (HonestTrace.trace htrace) hloop).run_admitWaiting
  rw [EStateM.final_of_ok hwaiting] at hadmitted
  rw [EStateM.value?_of_ok hschedule] at hscheduled
  obtain ⟨hitems, hcount⟩ := of_decide_eq_true hscheduled
  obtain ⟨a, rest, hvalues, ha, hrest⟩ := List.map_eq_cons_iff.mp hadmitted
  obtain ⟨b, rest, rfl, hb, _⟩ := List.map_eq_cons_iff.mp hrest
  have hitem := hsound _ _ _ hwaiting hschedule [a] b rest hvalues (by rw [hseated, hb]; decide) (by
    rw [Schedule.tokens, List.map_singleton, ha, hcount]
    decide)
  rw [hitems, hb] at hitem
  exact absurd hitem (by decide)

/-- With the same configuration, two prompts that share the pool fit. -/
theorem admissionSound_iff_fit_competing : ∃ τs core,
    HonestTrace tightConfig characterTokenizer τs core ∧ core.stopped = false ∧
      (AdmissionSound tightConfig core.scheduler ↔ SeatedFit tightConfig core.scheduler) := by
  have hsome : (drive tightConfig characterTokenizer (competingEvents.take 2)).map
      (fun run => (decide (∀ τ ∈ run.1, HonestEvent τ.pre τ.out τ.event), run.2.stopped)) =
      some (true, false) := by decide +kernel
  obtain ⟨⟨τs, core⟩, hdrive, hrun⟩ := Option.map_eq_some_iff.mp hsome
  obtain ⟨hhonest, hloop⟩ := Prod.mk.inj hrun
  have htrace : HonestTrace tightConfig characterTokenizer τs core :=
    drive_honest hdrive (by decide) (of_decide_eq_true hhonest)
  exact ⟨τs, core, htrace, hloop, Trace.admissionSound_iff_fit (HonestTrace.trace htrace) hloop
    (HonestTrace.prompt_ne_nil htrace hloop)⟩

end EngineCore

end MiniVLLM
