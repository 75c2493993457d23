import MiniVLLM.Verification.Engine.Positions

/-! # Progress

When the next `schedule` call issues something. There is no preemption, so running requests
that together hold the pool can all wait for blocks that none of them gives back. -/

namespace MiniVLLM

open KVCacheManager

namespace Scheduler

/-! ## Supply and demand of blocks -/

/-- The position a running request reaches with its next chunk. -/
def nextTarget (config : EngineConfig) (request : RequestState) : ℕ :=
  request.numComputedTokens + min (remaining request) config.maxNumBatchedTokens

def heldBlocks (config : EngineConfig) (s : Scheduler) : ℕ :=
  (s.running.values.map fun r => requiredBlocks config.blockSize r.numComputedTokens).sum

def spareBlocks (config : EngineConfig) (s : Scheduler) : ℕ :=
  config.numGpuBlocks - heldBlocks config s

/-- The spare blocks cover the next chunk of a running request or, with a seat free, the
first chunk of a waiting one. -/
def Supplied (config : EngineConfig) (s : Scheduler) : Prop :=
  (∃ r ∈ s.running.values, requiredBlocks config.blockSize (nextTarget config r) ≤
    requiredBlocks config.blockSize r.numComputedTokens + spareBlocks config s) ∨
  (s.running.length < config.maxNumSeqs ∧ ∃ w ∈ s.waiting,
    requiredBlocks config.blockSize (firstTarget config w) ≤ spareBlocks config s)

instance (config : EngineConfig) (s : Scheduler) : Decidable (Supplied config s) := by
  unfold Supplied
  infer_instance

def Schedules (config : EngineConfig) (s : Scheduler) : Prop :=
  ∃ schedule s', (Scheduler.schedule config).run s = .ok schedule s' ∧
    schedule.byRank.entries ≠ []

section Supply

variable {config : EngineConfig} {s admitted : Scheduler} {items : List WorkerItem}
  {m' : KVCacheManager}

theorem Inv.heldBlocks_eq (h : s.Settled config) :
    heldBlocks config s = s.cacheManager.tables.values.flatten.length := by
  rw [List.length_flatten, heldBlocks]
  refine (Dict.sum_values_eq h.tables_keys ?_).symm
  intro id t r ht hr
  exact h.blocks id r t hr ht

theorem Inv.spareBlocks_eq (h : s.Settled config) :
    spareBlocks config s = s.cacheManager.pool.free.length := by
  have hadd := h.owned.free_length_add
  rw [spareBlocks, h.heldBlocks_eq]
  omega

theorem Inv.lacks_iff (h : s.Settled config) {r : RequestState} {t : List ℕ}
    (hr : r ∈ s.running.values) (ht : s.cacheManager.tables.get? r.requestId = some t) :
    s.cacheManager.pool.free.length <
        missingBlocks config r t (min (remaining r) config.maxNumBatchedTokens) ↔
      ¬ requiredBlocks config.blockSize (nextTarget config r) ≤
        requiredBlocks config.blockSize r.numComputedTokens + spareBlocks config s := by
  have hlen := h.blocks _ _ _ (h.mem_values_iff.mp hr) ht
  rw [h.spareBlocks_eq, missingBlocks, hlen, Nat.add_zero, nextTarget]
  omega

theorem nextTarget_seat {w : RequestState} (hcomputed : w.numComputedTokens = 0)
    (houtputs : w.outputTokenIds = []) : nextTarget config w.seat = firstTarget config w := by
  simp [nextTarget, remaining, RequestState.seat, RequestState.allTokenIds, firstTarget, hcomputed,
    houtputs]

theorem Inv.nobody_fits (h : s.Settled config) (hno : ¬ Supplied config s) :
    config.maxNumSeqs ≤ s.running.length ∨
      ∀ r ∈ s.waiting, ¬ FirstChunkFits config s.cacheManager r := by
  have hwait := (not_or.mp hno).2
  rw [not_and_or] at hwait
  refine hwait.imp Nat.le_of_not_lt (fun hfull r hr hfits => hfull ⟨r, hr, ?_⟩)
  rw [h.spareBlocks_eq]
  exact hfits

/-- With tokens left for every request, items are issued exactly when blocks suffice. -/
theorem Scheduled.issues_iff (hs : Scheduled config s admitted items m')
    (hsettled : s.Settled config) (hrunning : ∀ r ∈ s.running.values, 0 < remaining r)
    (hwaiting : ∀ w ∈ s.waiting, w.promptTokenIds ≠ []) :
    items ≠ [] ↔ Supplied config s := by
  constructor
  · intro hne
    by_contra hno
    obtain ⟨hsame, hcache, _⟩ := hs.admission.running_eq_of_none (hsettled.nobody_fits hno)
    refine hne (hs.loop.nil_of_blocked ?_)
    rw [hsame, hcache]
    intro r hr
    obtain ⟨t, ht⟩ := hsettled.table_of_running (hsettled.mem_values_iff.mp hr)
    refine Or.inr ⟨t, ht, (hsettled.lacks_iff hr ht).mpr ?_⟩
    exact fun hle => hno (Or.inl ⟨r, hr, hle⟩)
  · rintro hsupplied rfl
    have hblocked := hs.loop.blocked_of_nil config.maxNumBatchedTokens_pos
    rcases hsupplied with ⟨r, hr, hle⟩ | ⟨hseat, w, hw, hle⟩
    · have hget := hsettled.mem_values_iff.mp hr
      obtain ⟨t, ht⟩ := hsettled.table_of_running hget
      have hr' : r ∈ admitted.running.values :=
        hs.settled.mem_values_iff.mpr (hs.admission.running_get? hget)
      rcases hblocked r hr' with hzero | ⟨u, hu, hfull⟩
      · exact (hrunning r hr).ne' hzero
      · obtain rfl : t = u :=
          Option.some.inj ((hs.admission.tables_get? hsettled ht).symm.trans hu)
        rw [hs.admission.pool_eq] at hfull
        exact (hsettled.lacks_iff hr ht).mp hfull hle
    · rw [hsettled.spareBlocks_eq] at hle
      obtain ⟨w', hw', hget, hfits⟩ := hs.admission.seats_one (List.append_nil _).symm rfl hseat
        ⟨w, hw, hle⟩
      obtain ⟨hcomputed, houtputs⟩ := hsettled.waiting_fresh w' hw'
      have hr' : w'.seat ∈ admitted.running.values := hs.settled.mem_values_iff.mpr hget
      rcases hblocked _ hr' with hzero | ⟨u, hu, hfull⟩
      · refine hwaiting w' hw' ?_
        simpa [remaining, RequestState.seat, RequestState.allTokenIds, hcomputed, houtputs] using
          hzero
      · refine (hs.settled.lacks_iff hr' hu).mp hfull ?_
        rw [nextTarget_seat hcomputed houtputs, hs.settled.spareBlocks_eq]
        exact Nat.le_add_left_of_le hfits

/-- Without supply, a call of `schedule` changes nothing but the order of the queue. -/
theorem Scheduled.unsupplied (hs : Scheduled config s admitted [] m') (hsettled : s.Settled config)
    (hno : ¬ Supplied config s) : (admitted.withCache m').running = s.running ∧
      (admitted.withCache m').cacheManager = s.cacheManager ∧
        (admitted.withCache m').waiting.Perm s.waiting := by
  obtain ⟨hrun, hcache, hperm⟩ := hs.admission.running_eq_of_none (hsettled.nobody_fits hno)
  exact ⟨hrun, hs.loop.eq_of_nil.trans hcache, hperm⟩

end Supply

end Scheduler

namespace EngineCore

open Scheduler

/-! ## Live requests of honest runs -/

theorem Phased.remaining_pos {r : RequestState} (h : Phased r) : 0 < remaining r := by
  rw [remaining, RequestState.length_allTokenIds]
  rcases h with ⟨hnil, hlt⟩ | ⟨hne, heq⟩
  · omega
  · have hpos := List.length_pos_of_ne_nil hne
    omega

section Runs

variable {config : EngineConfig} {tokenizer : Tokenizer} {τs : List CoreTransition}
  {core core' : EngineCore} {incoming : List WorkerResult} {messages : List CoreMessage}

theorem HonestTrace.remaining_pos (h : HonestTrace config tokenizer τs core)
    (hloop : core.stopped = false) :
    ∀ r ∈ core.scheduler.running.values, 0 < remaining r := by
  intro r hr
  have hsettled := Trace.stable (HonestTrace.trace h) hloop
  exact (HonestTrace.phased h _ r (request?_of_running
    (hsettled.mem_values_iff.mp hr))).remaining_pos

theorem HonestTrace.prompt_ne_nil (h : HonestTrace config tokenizer τs core)
    (hloop : core.stopped = false) : ∀ w ∈ core.scheduler.waiting, w.promptTokenIds ≠ [] := by
  intro w hw hnil
  have hsettled := Trace.stable (HonestTrace.trace h) hloop
  have hlive := hsettled.request?_eq_some_iff.mpr (Or.inr ⟨w, hw, rfl, rfl⟩)
  obtain ⟨hcomputed, houtputs⟩ := hsettled.waiting_fresh w hw
  have hpos := (HonestTrace.phased h _ _ hlive).remaining_pos
  simp [remaining, RequestState.seat, RequestState.allTokenIds, hnil, houtputs] at hpos

/-- The scheduler is not stuck: with live requests, the next call issues something. -/
def Unstuck (config : EngineConfig) (s : Scheduler) : Prop :=
  s.hasRequests = true → Schedules config s

/-- In every reachable state, the scheduler is not stuck if and only if the spare blocks
cover the next chunk of some request. -/
theorem unstuck_iff_supplied (h : HonestTrace config tokenizer τs core)
    (hloop : core.stopped = false) :
    Unstuck config core.scheduler ↔
      (core.scheduler.hasRequests = true → Supplied config core.scheduler) := by
  have hsettled := Trace.stable (HonestTrace.trace h) hloop
  obtain ⟨admitted, items, m', hs, hrun⟩ := hsettled.run_schedule
  have hissues := hs.issues_iff hsettled (HonestTrace.remaining_pos h hloop)
    (HonestTrace.prompt_ne_nil h hloop)
  have hschedules : Schedules config core.scheduler ↔ items ≠ [] := by
    constructor
    · rintro ⟨schedule, s', hrun', hne⟩ rfl
      obtain ⟨rfl, _⟩ := EStateM.Result.ok.inj (hrun.symm.trans hrun')
      exact hne Schedule.ofItems_byRank_nil
    · intro hne
      refine ⟨_, _, hrun, ?_⟩
      rw [Schedule.ofItems_byRank, if_neg hne]
      exact List.cons_ne_nil _ _
  rw [Unstuck, hschedules, hissues]

/-! ## A stuck engine stays stuck -/

theorem supplied_congr {s s' : Scheduler} (hrun : s'.running = s.running)
    (hwait : s'.waiting.Perm s.waiting) : Supplied config s' ↔ Supplied config s := by
  simp only [Supplied, spareBlocks, heldBlocks, hrun, hwait.mem_iff]

theorem hasRequests_congr {s s' : Scheduler} (hrun : s'.running = s.running)
    (hwait : s'.waiting.Perm s.waiting) : s'.hasRequests = s.hasRequests := by
  have hempty : s'.waiting.isEmpty = s.waiting.isEmpty := by
    rw [Bool.eq_iff_iff, List.isEmpty_iff_length_eq_zero, List.isEmpty_iff_length_eq_zero,
      hwait.length_eq]
  rw [hasRequests, hasRequests, hrun, hempty]

/-- Without supply, an engine step says nothing and supplies nothing. -/
theorem HonestTrace.stuck_step (h : HonestTrace config tokenizer τs core)
    (hno : ¬ Supplied config core.scheduler)
    (hstep : HonestStep config tokenizer core (.engineStep incoming) messages core') :
    messages = [] ∧ core'.stopped = false ∧ ¬ Supplied config core'.scheduler ∧
      core'.scheduler.hasRequests = core.scheduler.hasRequests := by
  have hloop := hstep.toStep.running
  have hstable := Trace.stable (HonestTrace.trace h)
  have hsettled := hstable hloop
  have hnil : ∀ {admitted items m'}, Scheduled config core.scheduler admitted items m' →
      items = [] := by
    intro admitted items m' hs
    by_contra hne
    exact hno ((hs.issues_iff hsettled (HonestTrace.remaining_pos h hloop)
      (HonestTrace.prompt_ne_nil h hloop)).mp hne)
  cases (hstep.toStep.derivation hstable).1 with
  | @idle _ admitted m' hs =>
      obtain ⟨hrun, _, hwait⟩ := hs.unsupplied hsettled hno
      exact ⟨rfl, hloop, mt (supplied_congr hrun hwait).mp hno, hasRequests_congr hrun hwait⟩
  | fail hs hne => exact absurd (hnil hs) hne
  | answer hs hne => exact absurd (hnil hs) hne
  | crash hs hne => exact absurd (hnil hs) hne

/-- Engine steps alone never end a stuck state: the engine turns in silence. -/
theorem HonestTrace.stuck_run (h : HonestTrace config tokenizer τs core)
    (hno : ¬ Supplied config core.scheduler) {τs' : List CoreTransition}
    (hrest : Run (HonestStep config tokenizer) core τs' core')
    (honly : ∀ τ ∈ τs', ∃ incoming, τ.event = .engineStep incoming) :
    Run.outputs τs' = [] ∧ ¬ Supplied config core'.scheduler ∧
      core'.scheduler.hasRequests = core.scheduler.hasRequests := by
  induction hrest with
  | nil => exact ⟨rfl, hno, rfl⟩
  | @snoc τs' mid event messages core' hmid hstep ih =>
      obtain ⟨hsilent, hmidno, hsame⟩ := ih (fun τ hτ => honly τ (List.mem_append_left _ hτ))
      obtain ⟨incoming, rfl⟩ : ∃ incoming, event = .engineStep incoming :=
        honly ⟨mid, event, messages, core'⟩ (by simp)
      obtain ⟨rfl, _, hno', hsame'⟩ := HonestTrace.stuck_step (h.append hmid) hmidno hstep
      exact ⟨by simp [hsilent], hno', hsame'.trans hsame⟩

/-! ## Enough room for everybody -/

/-- The blocks of the longest sequence a request can be computed to. -/
def fullContextBlocks (config : EngineConfig) : ℕ :=
  requiredBlocks config.blockSize (config.contextLimit - 1)

theorem fullContextBlocks_le (config : EngineConfig) :
    fullContextBlocks config ≤ config.numGpuBlocks := by
  refine (requiredBlocks_le_iff config.blockSize_pos).mpr ?_
  have hlimit : config.contextLimit ≤ config.numGpuBlocks * config.blockSize := Nat.min_le_right _ _
  omega

theorem sum_add_le {α : Type*} {l : List α} {f : α → ℕ} {bound : ℕ} (hf : ∀ x ∈ l, f x ≤ bound)
    {a : α} (ha : a ∈ l) : (l.map f).sum + bound ≤ l.length * bound + f a := by
  induction l with
  | nil => simp at ha
  | cons x l ih =>
      have hx := hf x (by simp)
      have hsum : (l.map f).sum ≤ l.length * bound := by
        rw [show l.length = (l.map f).length from (List.length_map f).symm, ← smul_eq_mul]
        exact List.sum_le_card_nsmul _ _ (by simpa using fun y hy => hf y (List.mem_cons_of_mem _ hy))
      rw [List.map_cons, List.sum_cons, List.length_cons, Nat.add_mul, Nat.one_mul]
      rcases List.mem_cons.mp ha with rfl | ha
      · omega
      · have := ih (fun y hy => hf y (List.mem_cons_of_mem _ hy)) ha
        omega

/-- If the pool can hold a full context for each running request, some request can go on. -/
theorem HonestTrace.supplied_of_room (h : HonestTrace config tokenizer τs core)
    (hloop : core.stopped = false)
    (hroom : core.scheduler.running.length * fullContextBlocks config ≤ config.numGpuBlocks)
    (hlive : core.scheduler.hasRequests = true) : Supplied config core.scheduler := by
  have hsettled := Trace.stable (HonestTrace.trace h) hloop
  have hwithin : ∀ r ∈ core.scheduler.running.values, r.allTokenIds.length < config.contextLimit :=
    fun r hr => HonestTrace.length_lt h _ r (request?_of_running (hsettled.mem_values_iff.mp hr))
  have hpos := HonestTrace.remaining_pos h hloop
  cases hvalues : core.scheduler.running.values with
  | nil =>
      have hlength : core.scheduler.running.length = 0 := by rw [← Dict.length_values, hvalues]; rfl
      have hnone : core.scheduler.running.entries.isEmpty = true :=
        List.isEmpty_iff_length_eq_zero.mpr hlength
      obtain ⟨w, hw⟩ : ∃ w, w ∈ core.scheduler.waiting := by
        refine List.exists_mem_of_ne_nil _ ?_
        simpa [hasRequests, hnone] using hlive
      refine Or.inr ⟨by rw [hlength]; exact config.maxNumSeqs_pos, w, hw, ?_⟩
      have hfits := hsettled.waiting_fits w hw
      have hfirst : firstTarget config w ≤ config.contextLimit - 1 :=
        (Nat.min_le_left _ _).trans (by omega)
      rw [spareBlocks, heldBlocks, hvalues]
      exact (requiredBlocks_mono _ hfirst).trans (fullContextBlocks_le config)
  | cons r rest =>
      have hr : r ∈ core.scheduler.running.values := by simp [hvalues]
      have hheld : ∀ r ∈ core.scheduler.running.values,
          requiredBlocks config.blockSize r.numComputedTokens ≤ fullContextBlocks config := by
        intro r hr
        have := hwithin r hr
        have := hpos r hr
        rw [remaining] at this
        exact requiredBlocks_mono _ (by omega)
      have hsum := sum_add_le hheld hr
      rw [Dict.length_values] at hsum
      have htarget : requiredBlocks config.blockSize (nextTarget config r) ≤
          fullContextBlocks config := by
        have := hwithin r hr
        refine requiredBlocks_mono _ ?_
        rw [nextTarget, remaining]
        have := hpos r hr
        rw [remaining] at this
        omega
      refine Or.inl ⟨r, hr, ?_⟩
      rw [spareBlocks, heldBlocks]
      omega

theorem HonestTrace.two_le_running (h : HonestTrace config tokenizer τs core)
    (hloop : core.stopped = false) (hlive : core.scheduler.hasRequests = true)
    (hno : ¬ Supplied config core.scheduler) : 2 ≤ core.scheduler.running.length := by
  by_contra hone
  refine hno (HonestTrace.supplied_of_room h hloop ?_ hlive)
  have hle : core.scheduler.running.length ≤ 1 := by omega
  exact (Nat.mul_le_mul_right _ hle).trans (by simpa using fullContextBlocks_le config)

/-- A pool with room for a full context on every seat is never stuck. -/
theorem HonestTrace.supplied_of_capacity (h : HonestTrace config tokenizer τs core)
    (hloop : core.stopped = false) (hlive : core.scheduler.hasRequests = true)
    (hcapacity : config.maxNumSeqs * fullContextBlocks config ≤ config.numGpuBlocks) :
    Supplied config core.scheduler := by
  have hseats := (Trace.stable (HonestTrace.trace h) hloop).seats
  exact HonestTrace.supplied_of_room h hloop ((Nat.mul_le_mul_right _ hseats).trans hcapacity) hlive

end Runs

def tightConfig : EngineConfig := { smallConfig with
  maxNumBatchedTokens := 8
  blockSize := 1
  numGpuBlocks := 4
  maxNumBatchedTokens_pos := smallConfig.numGpuBlocks_pos
  blockSize_pos := smallConfig.dataParallelSize_pos
  numGpuBlocks_pos := smallConfig.maxNumBatchedTokens_pos }

/-- Two prompts that fit together, and the first token of each. -/
def competingEvents : List Event :=
  [.command (.add (requestOf "a" [10, 11])), .command (.add (requestOf "b" [12, 13])),
    .engineStep [answerOf 1 [("a", 20), ("b", 21)]]]

/-- Both requests hold two blocks and wait for a third. -/
theorem stuck_competing : ∃ τs core, HonestTrace tightConfig characterTokenizer τs core ∧
    τs.map Transition.event = competingEvents ∧ core.stopped = false ∧
      ¬ Unstuck tightConfig core.scheduler := by
  have hsome : (drive tightConfig characterTokenizer competingEvents).map
      (fun run => (decide (∀ τ ∈ run.1, HonestEvent τ.pre τ.out τ.event), run.2.stopped,
        run.2.scheduler.hasRequests,
        match (Scheduler.schedule tightConfig).run run.2.scheduler with
        | .ok schedule _ => schedule.byRank.entries.isEmpty
        | .error _ _ => false)) = some (true, false, true, true) := by decide +kernel
  obtain ⟨⟨τs, core⟩, hdrive, hrun⟩ := Option.map_eq_some_iff.mp hsome
  simp only [Prod.mk.injEq, decide_eq_true_eq] at hrun
  obtain ⟨hhonest, hloop, hlive, hempty⟩ := hrun
  refine ⟨τs, core, drive_honest hdrive (by decide) hhonest, Run.execute_events hdrive, hloop, ?_⟩
  intro hunstuck
  obtain ⟨schedule, s', hschedule, hne⟩ := hunstuck hlive
  rw [hschedule] at hempty
  exact hne (List.isEmpty_iff.mp hempty)

theorem unstuck_iff_supplied_competing : ∃ τs core,
    HonestTrace tightConfig characterTokenizer τs core ∧ core.stopped = false ∧
      (Unstuck tightConfig core.scheduler ↔
        (core.scheduler.hasRequests = true → Supplied tightConfig core.scheduler)) := by
  have hsome : (drive tightConfig characterTokenizer competingEvents).map
      (fun run => (decide (∀ τ ∈ run.1, HonestEvent τ.pre τ.out τ.event), run.2.stopped)) =
      some (true, false) := by decide +kernel
  obtain ⟨⟨τs, core⟩, hdrive, hrun⟩ := Option.map_eq_some_iff.mp hsome
  obtain ⟨hhonest, hloop⟩ := Prod.mk.inj hrun
  have htrace : HonestTrace tightConfig characterTokenizer τs core :=
    drive_honest hdrive (by decide) (of_decide_eq_true hhonest)
  exact ⟨τs, core, htrace, hloop, unstuck_iff_supplied htrace hloop⟩

end EngineCore

end MiniVLLM
