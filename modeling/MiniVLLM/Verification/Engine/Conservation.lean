import MiniVLLM.Verification.Engine.Requests

/-! # Conservation of blocks and requests

Over whole runs: every block is free or owned by one running request, and every request
that was accepted and has not ended is waiting or running. -/

namespace MiniVLLM

open KVCacheManager Scheduler

namespace EngineCore

abbrev CoreTransition := Transition EngineCore Event CoreMessage

def Accepts (config : EngineConfig) (τ : CoreTransition) (id : RequestId) : Prop :=
  ∃ request s', τ.event = .command (.add request) ∧ request.requestId = id ∧
    (addRequest config request).run τ.pre.scheduler = .ok () s'

/-- A finished output was put for a request the scheduler held. The error output of a
rejected ADD ends nothing. -/
def Ends (τ : CoreTransition) (id : RequestId) : Prop :=
  (∀ request, τ.event ≠ .command (.add request)) ∧
    ∃ output ∈ outputsFor id τ.out, output.finished = true

def Outstanding (config : EngineConfig) (τs : List CoreTransition) (id : RequestId) : Prop :=
  ∃ before τ after, τs = before ++ τ :: after ∧ Accepts config τ id ∧
    ∀ τ' ∈ after, ¬ Ends τ' id

theorem outstanding_append_singleton {config : EngineConfig} {τs : List CoreTransition}
    {τ : CoreTransition} {id : RequestId} :
    Outstanding config (τs ++ [τ]) id ↔
      Accepts config τ id ∨ (Outstanding config τs id ∧ ¬ Ends τ id) :=
  List.openSince_append_singleton

section Ledger

variable {config : EngineConfig} {tokenizer : Tokenizer} {τs : List CoreTransition}
  {core : EngineCore} {id : RequestId}

theorem accepts_iff {τ : CoreTransition} :
    Accepts config τ id ↔ ∃ request, τ.event = .command (.add request) ∧
      request.requestId = id ∧ ¬ τ.pre.scheduler.Live id ∧
      request.promptTokenIds.length < config.contextLimit := by
  constructor
  · rintro ⟨request, s', hevent, rfl, hrun⟩
    rcases addRequest_cases config τ.pre.scheduler request with ⟨hnew, hfits, _⟩ | ⟨e, _, herr⟩
    · exact ⟨request, hevent, rfl, hnew, hfits⟩
    · rw [herr] at hrun
      simp at hrun
  · rintro ⟨request, hevent, rfl, hnew, hfits⟩
    rcases addRequest_cases config τ.pre.scheduler request with ⟨_, _, hrun⟩ | ⟨e, h, _⟩
    · exact ⟨request, _, hevent, rfl, hrun⟩
    · cases h with
      | duplicate hdup => exact absurd hdup hnew
      | tooLong _ hlong => omega

theorem RequestStep.live_iff {core' : EngineCore} {event : Event} {messages : List CoreMessage}
    {r? r'? : Option RequestState} {items : List WorkerItem}
    (h : RequestStep config tokenizer id core core' event r? items (outputsFor id messages) r'?)
    (hpre : r? = none ↔ ¬ core.scheduler.Live id) (hloop : core'.stopped = false) :
    r'? ≠ none ↔ Accepts config ⟨core, event, messages, core'⟩ id ∨
      (core.scheduler.Live id ∧ ¬ Ends ⟨core, event, messages, core'⟩ id) := by
  have hlive : core.scheduler.Live id ↔ r? ≠ none := by rw [ne_eq, hpre, not_not]
  rw [accepts_iff, Ends]
  generalize outputsFor id messages = outs at h ⊢
  cases h with
  | keep hadd _ _ =>
      constructor
      · exact fun hr => Or.inr ⟨hlive.mpr hr, by simp⟩
      · rintro (⟨request, hevent, hid, _⟩ | ⟨hr, _⟩)
        · exact absurd hid (hadd request hevent)
        · exact hlive.mp hr
  | @accept request hid hnew hfits =>
      constructor
      · exact fun _ => Or.inl ⟨request, rfl, hid, hid ▸ hnew, hfits⟩
      · exact fun _ => by simp
  | @reject request error r? hid h =>
      constructor
      · exact fun hr => Or.inr ⟨hlive.mpr hr, fun hends => hends.1 request rfl⟩
      · rintro (⟨request', hevent, _, hnew, hfits⟩ | ⟨hr, _⟩)
        · obtain rfl : request = request' := by simpa using hevent
          cases h with
          | duplicate hdup => exact absurd (hid ▸ hdup) hnew
          | tooLong _ hlong => omega
        · exact hlive.mp hr
  | abort => simp [abortOutput]
  | answer _ _ _ _ _ _ houtcome =>
      cases houtcome <;> simp [tokenOutput, hlive]
  | fail => simp [errorOutput]
  | crash hstop => simp [hstop] at hloop

end Ledger

theorem Trace.outstanding_iff {config : EngineConfig} {tokenizer : Tokenizer}
    {τs : List CoreTransition} {core : EngineCore} (h : Trace config tokenizer τs core)
    (hloop : core.stopped = false) (id : RequestId) :
    Outstanding config τs id ↔ core.scheduler.Live id := by
  induction h with
  | nil => simp [Outstanding, Live, init, Scheduler.init]
  | @snoc τs core event messages core' hrun hstep ih =>
      have hstable := Trace.stable hrun
      have hpre := hstable hstep.running
      obtain ⟨hd, hstable'⟩ := hstep.derivation hstable
      have hshare := hd.request hpre id
      have hpost : core'.scheduler.request? id = none ↔ ¬ core'.scheduler.Live id :=
        (hstable' hloop).request?_eq_none_iff
      rw [outstanding_append_singleton, ih hstep.running,
        ← RequestStep.live_iff hshare hpre.request?_eq_none_iff hloop, ne_eq, hpost, not_not]

/-! ## The conservation law -/

/-- What holds of the block accounting and of the requests at a step boundary. -/
structure Conserved (config : EngineConfig) (τs : List CoreTransition) (s : Scheduler) :
    Prop where
  free_nodup : s.cacheManager.pool.free.Nodup
  free_disjoint_used : ∀ b ∈ s.cacheManager.pool.free, b ∉ s.cacheManager.pool.used
  partition : ∀ b, b ∈ s.cacheManager.pool.free ∨ b ∈ s.cacheManager.pool.used ↔
    b < config.numGpuBlocks
  used_eq : s.cacheManager.pool.used = s.cacheManager.tables.values.flatten.toFinset
  tables_nodup : s.cacheManager.tables.values.flatten.Nodup
  tables_keys : ∀ id, id ∈ s.cacheManager.tables.keys ↔ id ∈ s.running.keys
  outstanding_iff : ∀ id, Outstanding config τs id ↔
    id ∈ s.running.keys ++ s.waiting.map (·.requestId)
  once : (s.running.keys ++ s.waiting.map (·.requestId)).Nodup
  blocks : ∀ id r, s.running.get? id = some r → ∃ t, s.cacheManager.tables.get? id = some t ∧
    t.length = r.numComputedTokens ⌈/⌉ config.blockSize
  schedule_returns : ∃ schedule s', (Scheduler.schedule config).run s = .ok schedule s'
  create_fresh : ∀ n s' request rest, (admitLoop config n).run s = .ok () s' →
    s'.waiting = request :: rest → request.requestId ∉ s'.cacheManager.tables.keys
  all_free : s.running.keys = [] → s.cacheManager.pool.free.Perm (List.range config.numGpuBlocks)

theorem Settled.all_free {config : EngineConfig} {s : Scheduler} (h : s.Settled config)
    (hnone : s.running.keys = []) :
    s.cacheManager.pool.free.Perm (List.range config.numGpuBlocks) := by
  have hkeys : s.cacheManager.tables.keys = [] := by
    apply List.eq_nil_iff_forall_not_mem.mpr
    intro id hid
    rw [h.tables_keys, hnone] at hid
    simp at hid
  have hvalues : s.cacheManager.tables.values = [] := by
    rw [← List.length_eq_zero_iff, Dict.length_values, ← Dict.length_keys, hkeys]
    rfl
  simpa [hvalues] using h.owned.perm

/-- At every loop boundary of every run, blocks and requests are conserved. -/
theorem blocks_conserved {config : EngineConfig} {tokenizer : Tokenizer}
    {τs : List CoreTransition} {core : EngineCore} (h : Trace config tokenizer τs core)
    (hloop : core.stopped = false) : Conserved config τs core.scheduler := by
  have hsettled : core.scheduler.Settled config := Trace.stable h hloop
  have howned := hsettled.owned
  refine
    { free_nodup := howned.free_nodup
      free_disjoint_used := fun b hb => howned.free_disjoint_used hb
      partition := fun b => howned.mem_free_or_used
      used_eq := howned.used_eq
      tables_nodup := (List.nodup_append.mp howned.nodup).2.1
      tables_keys := hsettled.tables_keys
      outstanding_iff := fun id => ?_
      once := ?_
      blocks := ?_
      schedule_returns := ?_
      create_fresh := ?_
      all_free := Settled.all_free hsettled }
  · rw [Trace.outstanding_iff h hloop, Live, List.mem_append]
  · refine List.nodup_append.mpr ⟨core.scheduler.running.keys_nodup, hsettled.waiting_nodup, ?_⟩
    rintro id hrun _ hwait rfl
    obtain ⟨w, hw, rfl⟩ := List.mem_map.mp hwait
    exact hsettled.waiting_not_running w hw hrun
  · intro id r hr
    obtain ⟨t, ht⟩ := hsettled.table_of_running hr
    exact ⟨t, ht, by rw [hsettled.blocks id r t hr ht, requiredBlocks_eq_ceilDiv, Nat.add_zero]⟩
  · obtain ⟨admitted, items, m', _, hrun⟩ := hsettled.run_schedule
    exact ⟨_, _, hrun⟩
  · intro n s' request rest hrun hw
    obtain ⟨s'', hrun', _, hsettled'⟩ := hsettled.admitLoop_derivation n
    rw [hrun] at hrun'
    obtain ⟨-, rfl⟩ := EStateM.Result.ok.inj hrun'
    exact (hsettled'.head_new hw).2

/-- Two prompts, one decoding step, an abort and a failed batch. -/
def mixedEvents : List Event :=
  [.command (.add (requestOf "a" [10, 11, 12])), .command (.add (requestOf "b" [13])),
    .engineStep [answerOf 1 [("a", 20), ("b", 21)]], .command (.abort "b"),
    .engineStep [failureOf 2 "out of memory"]]

/-- Then two more prompts, of which the first batch takes a part. -/
theorem blocks_conserved_mixed : ∃ τs core,
    Trace smallConfig characterTokenizer τs core ∧
      core.scheduler.running.keys = ["c"] ∧
      core.scheduler.waiting.map (·.requestId) = ["d"] ∧
      core.scheduler.cacheManager.tables.get? "c" = some [1, 0] ∧
      Conserved smallConfig τs core.scheduler := by
  have hsome : (drive smallConfig characterTokenizer (mixedEvents ++
      [.command (.add (requestOf "c" [10, 11, 12, 13, 14])), .engineStep [answerOf 3 []],
        .command (.add (requestOf "d" [15]))])).map (fun run => (run.2.stopped,
          run.2.scheduler.running.keys, run.2.scheduler.waiting.map (·.requestId),
          run.2.scheduler.cacheManager.tables.get? "c")) =
      some (false, ["c"], ["d"], some [1, 0]) := by decide +kernel
  obtain ⟨⟨τs, core⟩, hdrive, hrun⟩ := Option.map_eq_some_iff.mp hsome
  simp only [Prod.mk.injEq] at hrun
  obtain ⟨hloop, hrunning, hwaiting, htable⟩ := hrun
  have htrace : Trace smallConfig characterTokenizer τs core := drive_trace hdrive (by decide)
  exact ⟨τs, core, htrace, hrunning, hwaiting, htable, blocks_conserved htrace hloop⟩

end EngineCore

end MiniVLLM
