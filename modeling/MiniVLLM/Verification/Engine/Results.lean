import MiniVLLM.Model.Core
import MiniVLLM.Verification.Scheduler.Items

/-! # Processing a Worker's answer

The loops over the items of a batch as local rules on the scheduler. Each rule consumes the
tokens in flight for one item. -/

namespace MiniVLLM

open KVCacheManager Scheduler

theorem RequestState.length_allTokenIds (r : RequestState) :
    r.allTokenIds.length = r.promptTokenIds.length + r.outputTokenIds.length := by
  simp [RequestState.allTokenIds]

def RequestState.advance (request : RequestState) (count : ℕ) : RequestState :=
  { request with numComputedTokens := request.numComputedTokens + count }

/-- A request after a token was sampled for it, with the reason to end it, if any. -/
def RequestState.sample (config : EngineConfig) (tokenizer : Tokenizer) (request : RequestState)
    (tokenId : TokenId) : RequestState × Option FinishReason :=
  if tokenId = tokenizer.eosTokenId then (request, some .stop)
  else
    let extended := { request with outputTokenIds := request.outputTokenIds ++ [tokenId] }
    (extended, finishReason config tokenizer extended)

section Sample

variable {config : EngineConfig} {tokenizer : Tokenizer} {request : RequestState}
  {tokenId : TokenId}

theorem RequestState.sample_requestId :
    (request.sample config tokenizer tokenId).1.requestId = request.requestId := by
  unfold RequestState.sample
  split <;> rfl

theorem RequestState.sample_rank :
    (request.sample config tokenizer tokenId).1.rank = request.rank := by
  unfold RequestState.sample
  split <;> rfl

theorem RequestState.sample_numComputedTokens :
    (request.sample config tokenizer tokenId).1.numComputedTokens =
      request.numComputedTokens := by
  unfold RequestState.sample
  split <;> rfl

theorem RequestState.sample_outputTokenIds :
    (request.sample config tokenizer tokenId).1.outputTokenIds =
      request.outputTokenIds ++ if tokenId = tokenizer.eosTokenId then [] else [tokenId] := by
  unfold RequestState.sample
  split
  · rw [List.append_nil]
  · rfl

theorem RequestState.of_sample_eq_none {r' : RequestState}
    (h : request.sample config tokenizer tokenId = (r', none)) :
    tokenId ≠ tokenizer.eosTokenId ∧
      r' = { request with outputTokenIds := request.outputTokenIds ++ [tokenId] } ∧
      endsWithStop tokenizer request.samplingParams (request.outputTokenIds ++ [tokenId]) = false ∧
      request.outputTokenIds.length + 1 < request.samplingParams.maxTokens ∧
      request.numComputedTokens + 1 < config.contextLimit := by
  unfold RequestState.sample at h
  split at h
  · simp at h
  · rename_i heos
    obtain ⟨rfl, hreason⟩ := Prod.mk.inj h
    unfold finishReason at hreason
    split at hreason
    · simp at hreason
    · rename_i hstop
      split at hreason
      · simp at hreason
      · rename_i hlength
        split at hreason
        · simp at hreason
        · rename_i hcontext
          refine ⟨heos, rfl, by simpa using hstop, ?_, Nat.lt_of_not_le hcontext⟩
          simpa using hlength

/-- A token that ends the request is EOS, completes a stop string, or meets a limit. -/
theorem RequestState.of_sample_eq_some {r' : RequestState} {reason : FinishReason}
    (h : request.sample config tokenizer tokenId = (r', some reason)) :
    (tokenId = tokenizer.eosTokenId ∧ r' = request ∧ reason = .stop) ∨
    (tokenId ≠ tokenizer.eosTokenId ∧
      r' = { request with outputTokenIds := request.outputTokenIds ++ [tokenId] } ∧
      ((reason = .stop ∧ endsWithStop tokenizer request.samplingParams
          (request.outputTokenIds ++ [tokenId]) = true) ∨
        (reason = .length ∧ endsWithStop tokenizer request.samplingParams
          (request.outputTokenIds ++ [tokenId]) = false ∧
          (request.samplingParams.maxTokens ≤ request.outputTokenIds.length + 1 ∨
            config.contextLimit ≤ request.numComputedTokens + 1)))) := by
  unfold RequestState.sample at h
  split at h
  · rename_i heos
    obtain ⟨rfl, hreason⟩ := Prod.mk.inj h
    exact Or.inl ⟨heos, rfl, (Option.some.inj hreason).symm⟩
  · rename_i heos
    obtain ⟨rfl, hreason⟩ := Prod.mk.inj h
    refine Or.inr ⟨heos, rfl, ?_⟩
    unfold finishReason at hreason
    split at hreason
    · rename_i hstop
      exact Or.inl ⟨(Option.some.inj hreason).symm, by simpa using hstop⟩
    · rename_i hstop
      have hstop' := Bool.eq_false_iff.mpr hstop
      split at hreason
      · rename_i hlength
        refine Or.inr ⟨(Option.some.inj hreason).symm, hstop', Or.inl ?_⟩
        simpa using hlength
      · split at hreason
        · rename_i hcontext
          exact Or.inr ⟨(Option.some.inj hreason).symm, hstop', Or.inr hcontext⟩
        · simp at hreason

end Sample

def sampleText (tokenizer : Tokenizer) (tokenId : TokenId) (before after : RequestState) : Text :=
  EngineCore.addedText tokenizer tokenId (tokenizer.decode before.outputTokenIds)
    (tokenizer.decode after.outputTokenIds)

/-- An item advances its request; a sampled token extends or ends it and is reported. -/
inductive BatchDerivation (config : EngineConfig) (tokenizer : Tokenizer)
    (result : WorkerResult) :
    List WorkerItem → Scheduler → List RequestOutput → Scheduler → Prop where
  | nil (s) : BatchDerivation config tokenizer result [] s [] s
  | advance {item items s outs s' r} (hr : s.running.get? item.requestId = some r)
      (htok : result.sampledTokenIds.get? item.requestId = none) :
      BatchDerivation config tokenizer result items
        (s.replaced item.requestId (r.advance item.tokenIds.length)) outs s' →
      BatchDerivation config tokenizer result (item :: items) s outs s'
  | extend {item items s outs s' r token r'} (hr : s.running.get? item.requestId = some r)
      (htok : result.sampledTokenIds.get? item.requestId = some token)
      (hsample : (r.advance item.tokenIds.length).sample config tokenizer token = (r', none)) :
      BatchDerivation config tokenizer result items (s.replaced item.requestId r') outs s' →
      BatchDerivation config tokenizer result (item :: items) s
        (EngineCore.tokenOutput tokenizer item.requestId token (sampleText tokenizer token r r')
          none result.metrics :: outs) s'
  | finish {item items s outs s' r t token r' reason}
      (hr : s.running.get? item.requestId = some r)
      (ht : s.cacheManager.tables.get? item.requestId = some t)
      (htok : result.sampledTokenIds.get? item.requestId = some token)
      (hsample : (r.advance item.tokenIds.length).sample config tokenizer token =
        (r', some reason)) :
      BatchDerivation config tokenizer result items (s.removed item.requestId t) outs s' →
      BatchDerivation config tokenizer result (item :: items) s
        (EngineCore.tokenOutput tokenizer item.requestId token (sampleText tokenizer token r r')
          (some reason) result.metrics :: outs) s'

/-- A failed batch removes the requests of all its items. -/
inductive FailDerivation : List WorkerItem → Scheduler → Scheduler → Prop where
  | nil (s) : FailDerivation [] s s
  | remove {item items s s' r t} (hr : s.running.get? item.requestId = some r)
      (ht : s.cacheManager.tables.get? item.requestId = some t) :
      FailDerivation items (s.removed item.requestId t) s' → FailDerivation (item :: items) s s'

/-- The batch in flight: its items are for distinct running requests, and nothing else has
tokens in flight. -/
structure InFlight (config : EngineConfig) (items : List WorkerItem) (s : Scheduler) : Prop where
  inv : s.Inv config (pendingOf items)
  nodup : (items.map (·.requestId)).Nodup
  running : ∀ item ∈ items, item.requestId ∈ s.running.keys

namespace InFlight

variable {config : EngineConfig} {item : WorkerItem} {items : List WorkerItem} {s : Scheduler}

theorem settled (h : InFlight config [] s) : s.Settled config :=
  h.inv.congr_pending (fun _ _ => rfl)

theorem head_not_mem (h : InFlight config (item :: items) s) :
    item.requestId ∉ items.map (·.requestId) :=
  (List.nodup_cons.mp h.nodup).1

theorem replaced (h : InFlight config (item :: items) s) {r r' : RequestState}
    (hr : s.running.get? item.requestId = some r) (hid : r'.requestId = r.requestId)
    (hrank : r'.rank = r.rank)
    (hcount : r'.numComputedTokens = r.numComputedTokens + item.tokenIds.length) :
    InFlight config items (s.replaced item.requestId r') where
  inv := by
    refine h.inv.replaced hr (hid.trans (h.inv.ids _ _ hr)) hrank ?_ ?_
    · rw [hcount, pendingOf_of_not_mem h.head_not_mem, pendingOf_cons_self, Nat.add_zero]
    · intro id _ hne
      exact (pendingOf_cons_of_ne items hne).symm
  nodup := (List.nodup_cons.mp h.nodup).2
  running := by
    intro item' hitem'
    rw [Scheduler.replaced, Dict.keys_set_of_mem _ (Dict.mem_keys_of_get? hr)]
    exact h.running item' (List.mem_cons_of_mem _ hitem')

/-- Consuming the head item by a sampled token that does not end its request. -/
theorem sampled (h : InFlight config (item :: items) s) {tokenizer : Tokenizer}
    {token : TokenId} {reason : Option FinishReason} {r r' : RequestState}
    (hr : s.running.get? item.requestId = some r)
    (hsample : (r.advance item.tokenIds.length).sample config tokenizer token = (r', reason)) :
    InFlight config items (s.replaced item.requestId r') := by
  obtain rfl : ((r.advance item.tokenIds.length).sample config tokenizer token).1 = r' :=
    congrArg Prod.fst hsample
  exact h.replaced hr RequestState.sample_requestId RequestState.sample_rank
    RequestState.sample_numComputedTokens

theorem removed (h : InFlight config (item :: items) s) {t : List ℕ}
    (ht : s.cacheManager.tables.get? item.requestId = some t) :
    InFlight config items (s.removed item.requestId t) where
  inv := by
    refine (h.inv.removed ht).congr_pending ?_
    intro id hid
    exact (pendingOf_cons_of_ne items (Dict.mem_keys_erase.mp hid).1).symm
  nodup := (List.nodup_cons.mp h.nodup).2
  running := by
    intro item' hitem'
    refine Dict.mem_keys_erase.mpr ⟨?_, h.running item' (List.mem_cons_of_mem _ hitem')⟩
    exact fun heq => h.head_not_mem (List.mem_map.mpr ⟨item', hitem', heq⟩)

end InFlight

theorem Scheduler.Scheduled.inFlight {config : EngineConfig} {s admitted : Scheduler}
    {items : List WorkerItem} {m' : KVCacheManager} (h : Scheduled config s admitted items m') :
    InFlight config items (admitted.withCache m') where
  inv := h.inv
  nodup := h.items_nodup
  running := by
    intro item hitem
    obtain ⟨r, hr, _⟩ := h.issued hitem
    exact Dict.mem_keys_of_get? hr

/-! ## Scheduler operations on a running request -/

namespace Scheduler

variable {s : Scheduler} {id : RequestId} {r : RequestState}

theorem run_runningRequest (hr : s.running.get? id = some r) :
    (runningRequest id).run s = .ok r s := by
  simp [runningRequest, hr]

theorem run_updateComputed (hr : s.running.get? id = some r) (count : ℕ) :
    (updateComputed id count).run s = .ok () (s.replaced id (r.advance count)) := by
  rw [updateComputed, EStateM.run_bind_of_ok (run_runningRequest hr)]
  rfl

theorem run_outputText (tokenizer : Tokenizer) (hr : s.running.get? id = some r) :
    (outputText tokenizer id).run s = .ok (tokenizer.decode r.outputTokenIds) s := by
  rw [outputText, EStateM.run_bind_of_ok (run_runningRequest hr)]
  rfl

@[simp] theorem replaced_get?_self (s : Scheduler) (id : RequestId) (r : RequestState) :
    (s.replaced id r).running.get? id = some r :=
  Dict.get?_set_self _ _ _

@[simp] theorem replaced_replaced (s : Scheduler) (id : RequestId) (r r' : RequestState) :
    (s.replaced id r).replaced id r' = s.replaced id r' := by
  simp [replaced, Dict.set_set]

@[simp] theorem removed_replaced (s : Scheduler) (id : RequestId) (r : RequestState)
    (t : List ℕ) : (s.replaced id r).removed id t = s.removed id t := by
  simp [replaced, removed, Dict.erase_set]

theorem run_appendToken (config : EngineConfig) (tokenizer : Tokenizer) (tokenId : TokenId)
    (hr : s.running.get? id = some r) :
    ∃ s', (appendToken config tokenizer id tokenId).run s =
        .ok (r.sample config tokenizer tokenId).2 s' ∧
      s'.running.get? id = some (r.sample config tokenizer tokenId).1 ∧
      s' = (if tokenId = tokenizer.eosTokenId then s
        else s.replaced id (r.sample config tokenizer tokenId).1) := by
  by_cases heos : tokenId = tokenizer.eosTokenId
  · refine ⟨s, ?_, ?_, ?_⟩
    · rw [appendToken, EStateM.run_bind_of_ok (run_runningRequest hr)]
      simp [RequestState.sample, heos]
    · simpa [RequestState.sample, heos] using hr
    · simp [heos]
  · refine ⟨s.replaced id (r.sample config tokenizer tokenId).1, ?_, ?_, ?_⟩
    · rw [appendToken, EStateM.run_bind_of_ok (run_runningRequest hr)]
      simp only [heos, if_false, EStateM.run_bind, EStateM.run_modify, EStateM.run_pure,
        RequestState.sample]
      rfl
    · simp
    · simp [heos]

end Scheduler

/-! ## The loops follow the rules -/

namespace EngineCore

def after (core : EngineCore) (s : Scheduler) (messages : List CoreMessage) : EngineCore :=
  { core with scheduler := s, sent := core.sent ++ messages }

@[simp] theorem after_scheduler (core : EngineCore) (s : Scheduler) (ms : List CoreMessage) :
    (core.after s ms).scheduler = s := rfl

@[simp] theorem after_after (core : EngineCore) (s s' : Scheduler) (ms ms' : List CoreMessage) :
    (core.after s ms).after s' ms' = core.after s' (ms ++ ms') := by
  simp [after]

theorem after_self (core : EngineCore) : core.after core.scheduler [] = core := by
  simp [after]

def outputMessage (output : RequestOutput) : CoreMessage := .event (.output output)

theorem run_onScheduler_of_ok {α : Type} {x : Py Scheduler α} (core : EngineCore) {a : α}
    {s : Scheduler} (h : x.run core.scheduler = .ok a s) :
    (onScheduler x).run core = .ok a (core.after s []) := by
  rw [onScheduler, EStateM.run_zoom_of_ok h]
  simp [after]

theorem run_onScheduler_of_error {α : Type} {x : Py Scheduler α} (core : EngineCore)
    {error : PyError} {s : Scheduler} (h : x.run core.scheduler = .error error s) :
    (onScheduler x).run core = .error error (core.after s []) := by
  rw [onScheduler, EStateM.run_zoom_of_error h]
  simp [after]

theorem run_put (output : RequestOutput) (core : EngineCore) :
    (put output).run core = .ok () (core.after core.scheduler [outputMessage output]) := rfl

theorem run_failItems {config : EngineConfig} (error : String) {items : List WorkerItem}
    (core : EngineCore) (h : InFlight config items core.scheduler) :
    ∃ s', (failItems error items).run core =
        .ok () (core.after s' (items.map (fun item =>
          outputMessage (errorOutput item.requestId error)))) ∧
      FailDerivation items core.scheduler s' ∧ s'.Settled config := by
  induction items generalizing core with
  | nil => exact ⟨core.scheduler, by simp [failItems, after_self], .nil _, h.settled⟩
  | cons item items ih =>
      obtain ⟨r, hr⟩ := Dict.mem_keys_iff.mp (h.running item (by simp))
      obtain ⟨t, ht⟩ := h.inv.table_of_running hr
      have hput := run_put (errorOutput item.requestId error) core
      have hfin := run_onScheduler_of_ok
        (core.after core.scheduler [outputMessage (errorOutput item.requestId error)])
        (h.inv.run_finish hr ht)
      obtain ⟨s', hrun, hd, hs'⟩ := ih ((core.after core.scheduler
        [outputMessage (errorOutput item.requestId error)]).after
          (core.scheduler.removed item.requestId t) []) (h.removed ht)
      refine ⟨s', ?_, .remove hr ht hd, hs'⟩
      rw [failItems, emitError, EStateM.run_bind_of_ok hput, EStateM.run_bind_of_ok hfin, hrun]
      simp

section ProcessItem

variable {config : EngineConfig} {tokenizer : Tokenizer} {counts : Dict RequestId ℕ}
  {result : WorkerResult} {item : WorkerItem} {items : List WorkerItem} {core : EngineCore}
  {r r' : RequestState} {t : List ℕ} {token : TokenId} {reason : FinishReason}

theorem run_processItem_advance (hr : core.scheduler.running.get? item.requestId = some r)
    (hcount : counts.get? item.requestId = some item.tokenIds.length)
    (htok : result.sampledTokenIds.get? item.requestId = none) :
    (processItem config tokenizer counts result item).run core =
      .ok () (core.after
        (core.scheduler.replaced item.requestId (r.advance item.tokenIds.length)) []) := by
  have hkey : ¬ item.requestId ∉ core.scheduler.running.keys :=
    not_not.mpr (Dict.mem_keys_of_get? hr)
  have hupdate := run_onScheduler_of_ok core (run_updateComputed hr item.tokenIds.length)
  simp only [processItem, EStateM.run_bind, EStateM.run_get, hkey, if_false, hcount,
    EStateM.run_getOrRaise_some, hupdate, htok, EStateM.run_pure]

/-- The part of the turn up to the output, common to an extended and an ended request. -/
theorem run_processItem_sampled (hr : core.scheduler.running.get? item.requestId = some r)
    (hcount : counts.get? item.requestId = some item.tokenIds.length)
    (htok : result.sampledTokenIds.get? item.requestId = some token)
    {reason : Option FinishReason}
    (hsample : (r.advance item.tokenIds.length).sample config tokenizer token = (r', reason)) :
    ∃ s₁, s₁ = core.scheduler.replaced item.requestId r' ∧
      (processItem config tokenizer counts result item).run core =
        (if reason.isSome then do
            let _ ← onScheduler (Scheduler.finish item.requestId)
            pure ()
          else pure () : Py EngineCore Unit).run
          (core.after s₁ [outputMessage (tokenOutput tokenizer item.requestId token
            (sampleText tokenizer token r r') reason result.metrics)]) := by
  have hkey : ¬ item.requestId ∉ core.scheduler.running.keys :=
    not_not.mpr (Dict.mem_keys_of_get? hr)
  have hupdate := run_onScheduler_of_ok core (run_updateComputed hr item.tokenIds.length)
  have hadv : (core.scheduler.replaced item.requestId (r.advance item.tokenIds.length)).running.get?
      item.requestId = some (r.advance item.tokenIds.length) := replaced_get?_self _ _ _
  have hprevious := run_onScheduler_of_ok
    (core.after (core.scheduler.replaced item.requestId (r.advance item.tokenIds.length)) [])
    (run_outputText tokenizer hadv)
  obtain ⟨s₁, happend, hget, hs₁⟩ := run_appendToken config tokenizer token hadv
  rw [hsample] at happend hget hs₁
  have happend' := run_onScheduler_of_ok
    (core.after (core.scheduler.replaced item.requestId (r.advance item.tokenIds.length)) [])
    happend
  have hcurrent := run_onScheduler_of_ok (core.after s₁ []) (run_outputText tokenizer hget)
  refine ⟨s₁, ?_, ?_⟩
  · by_cases heos : token = tokenizer.eosTokenId
    · rw [if_pos heos] at hs₁
      rw [RequestState.sample, if_pos heos, Prod.mk.injEq] at hsample
      rw [hs₁, ← hsample.1]
    · rw [if_neg heos] at hs₁
      rw [hs₁, replaced_replaced]
  · rw [processItem]
    simp only [EStateM.run_bind, EStateM.run_get, hkey, if_false, hcount,
      EStateM.run_getOrRaise_some, hupdate, htok, after_scheduler, after_after, hprevious,
      List.append_nil, happend', hcurrent, run_put, List.nil_append]
    rfl

theorem run_processItem_extend (hr : core.scheduler.running.get? item.requestId = some r)
    (hcount : counts.get? item.requestId = some item.tokenIds.length)
    (htok : result.sampledTokenIds.get? item.requestId = some token)
    (hsample : (r.advance item.tokenIds.length).sample config tokenizer token = (r', none)) :
    (processItem config tokenizer counts result item).run core =
      .ok () (core.after (core.scheduler.replaced item.requestId r')
        [outputMessage (tokenOutput tokenizer item.requestId token
          (sampleText tokenizer token r r') none result.metrics)]) := by
  obtain ⟨s₁, rfl, hrun⟩ := run_processItem_sampled hr hcount htok hsample
  rw [hrun]
  simp

theorem run_processItem_finish (h : InFlight config (item :: items) core.scheduler)
    (hr : core.scheduler.running.get? item.requestId = some r)
    (ht : core.scheduler.cacheManager.tables.get? item.requestId = some t)
    (hcount : counts.get? item.requestId = some item.tokenIds.length)
    (htok : result.sampledTokenIds.get? item.requestId = some token)
    (hsample : (r.advance item.tokenIds.length).sample config tokenizer token =
      (r', some reason)) :
    (processItem config tokenizer counts result item).run core =
      .ok () (core.after (core.scheduler.removed item.requestId t)
        [outputMessage (tokenOutput tokenizer item.requestId token
          (sampleText tokenizer token r r') (some reason) result.metrics)]) := by
  obtain ⟨s₁, rfl, hrun⟩ := run_processItem_sampled hr hcount htok hsample
  have hinv := (h.sampled hr hsample).inv
  have hfin := run_onScheduler_of_ok
    (core.after (core.scheduler.replaced item.requestId r')
      [outputMessage (tokenOutput tokenizer item.requestId token
        (sampleText tokenizer token r r') (some reason) result.metrics)])
    (hinv.run_finish (replaced_get?_self _ _ _) ht)
  rw [hrun]
  simp only [Option.isSome_some, if_true, EStateM.run_bind, hfin, EStateM.run_pure,
    removed_replaced, after_after, List.append_nil]

end ProcessItem

theorem run_processItems {config : EngineConfig} (tokenizer : Tokenizer)
    {counts : Dict RequestId ℕ} (result : WorkerResult) {items : List WorkerItem}
    (core : EngineCore) (h : InFlight config items core.scheduler)
    (hcounts : ∀ item ∈ items, counts.get? item.requestId = some item.tokenIds.length) :
    ∃ outs s', (processItems config tokenizer counts result items).run core =
        .ok () (core.after s' (outs.map outputMessage)) ∧
      BatchDerivation config tokenizer result items core.scheduler outs s' ∧
      s'.Settled config := by
  induction items generalizing core with
  | nil => exact ⟨[], core.scheduler, by simp [processItems, after_self], .nil _, h.settled⟩
  | cons item items ih =>
      obtain ⟨r, hr⟩ := Dict.mem_keys_iff.mp (h.running item (by simp))
      obtain ⟨t, ht⟩ := h.inv.table_of_running hr
      have hcount := hcounts item (by simp)
      have hcounts' : ∀ item' ∈ items,
          counts.get? item'.requestId = some item'.tokenIds.length :=
        fun item' hitem' => hcounts item' (List.mem_cons_of_mem _ hitem')
      cases htok : result.sampledTokenIds.get? item.requestId with
      | none =>
          obtain ⟨outs, s', hrun, hd, hs'⟩ := ih
            (core.after (core.scheduler.replaced item.requestId
              (r.advance item.tokenIds.length)) [])
            (h.replaced hr rfl rfl rfl) hcounts'
          refine ⟨outs, s', ?_, .advance hr htok hd, hs'⟩
          rw [processItems, EStateM.run_bind_of_ok (run_processItem_advance hr hcount htok), hrun]
          simp
      | some token =>
          obtain ⟨r', reason, hsample⟩ : ∃ r' reason,
              (r.advance item.tokenIds.length).sample config tokenizer token = (r', reason) :=
            ⟨_, _, rfl⟩
          cases reason with
          | none =>
              obtain ⟨outs, s', hrun, hd, hs'⟩ := ih
                (core.after (core.scheduler.replaced item.requestId r')
                  [outputMessage (tokenOutput tokenizer item.requestId token
                    (sampleText tokenizer token r r') none result.metrics)])
                (h.sampled hr hsample) hcounts'
              refine ⟨_ :: outs, s', ?_, .extend hr htok hsample hd, hs'⟩
              rw [processItems,
                EStateM.run_bind_of_ok (run_processItem_extend hr hcount htok hsample), hrun]
              simp
          | some reason =>
              obtain ⟨outs, s', hrun, hd, hs'⟩ := ih
                (core.after (core.scheduler.removed item.requestId t)
                  [outputMessage (tokenOutput tokenizer item.requestId token
                    (sampleText tokenizer token r r') (some reason) result.metrics)])
                (h.removed ht) hcounts'
              refine ⟨_ :: outs, s', ?_, .finish hr ht htok hsample hd, hs'⟩
              rw [processItems,
                EStateM.run_bind_of_ok (run_processItem_finish h hr ht hcount htok hsample), hrun]
              simp

end EngineCore

end MiniVLLM
