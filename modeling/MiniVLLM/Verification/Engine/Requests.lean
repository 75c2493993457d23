import MiniVLLM.Verification.Engine.Steps

/-! # One request's share of a step

A step of the core is projected to a single request id: the state of that request before
and after, the items issued for it, and the outputs put for it. -/

namespace MiniVLLM

open KVCacheManager Scheduler

def RequestState.seat (request : RequestState) : RequestState := { request with rank := some 0 }

namespace Scheduler

/-- The state of a live request, waiting or running. -/
def request? (s : Scheduler) (id : RequestId) : Option RequestState :=
  match s.running.get? id with
  | some r => some r
  | none => (s.waiting.find? (fun r => r.requestId = id)).map RequestState.seat

section Lookup

variable {config : EngineConfig} {pending : RequestId → ℕ} {s : Scheduler} {id : RequestId}
  {r : RequestState}

theorem request?_of_running (hr : s.running.get? id = some r) : s.request? id = some r := by
  simp [request?, hr]

theorem request?_of_not_running (hrun : id ∉ s.running.keys) :
    s.request? id = (s.waiting.find? (fun r => r.requestId = id)).map RequestState.seat := by
  simp [request?, Dict.get?_eq_none_iff.mpr hrun]

theorem find?_waiting_eq_some_iff {waiting : List RequestState}
    (hnodup : (waiting.map (·.requestId)).Nodup) :
    waiting.find? (fun r => r.requestId = id) = some r ↔ r ∈ waiting ∧ r.requestId = id := by
  constructor
  · intro h
    exact ⟨List.mem_of_find?_eq_some h, by simpa using List.find?_some h⟩
  · rintro ⟨hmem, rfl⟩
    induction waiting with
    | nil => simp at hmem
    | cons w waiting ih =>
        obtain ⟨hnotin, hnodup⟩ := List.nodup_cons.mp hnodup
        rcases List.mem_cons.mp hmem with rfl | hmem
        · simp
        · have hne : w.requestId ≠ r.requestId :=
            fun heq => hnotin (List.mem_map.mpr ⟨r, hmem, heq.symm⟩)
          simpa [hne] using ih hnodup hmem

theorem Inv.request?_eq_some_iff (h : s.Inv config pending) :
    s.request? id = some r ↔
      s.running.get? id = some r ∨ ∃ w ∈ s.waiting, w.requestId = id ∧ w.seat = r := by
  by_cases hrun : id ∈ s.running.keys
  · obtain ⟨r', hr'⟩ := Dict.mem_keys_iff.mp hrun
    rw [request?_of_running hr', hr']
    constructor
    · exact Or.inl
    · rintro (heq | ⟨w, hw, rfl, _⟩)
      · exact heq
      · exact absurd hrun (h.waiting_not_running w hw)
  · rw [request?_of_not_running hrun, Dict.get?_eq_none_iff.mpr hrun, Option.map_eq_some_iff]
    constructor
    · rintro ⟨w, hw, rfl⟩
      obtain ⟨hmem, hid⟩ := (find?_waiting_eq_some_iff h.waiting_nodup).mp hw
      exact Or.inr ⟨w, hmem, hid, rfl⟩
    · rintro (hnone | ⟨w, hw, hid, rfl⟩)
      · simp at hnone
      · exact ⟨w, (find?_waiting_eq_some_iff h.waiting_nodup).mpr ⟨hw, hid⟩, rfl⟩

theorem Inv.request?_eq_none_iff (h : s.Inv config pending) :
    s.request? id = none ↔ ¬ s.Live id := by
  rw [Option.eq_none_iff_forall_ne_some, Live, not_or, Dict.mem_keys_iff]
  simp only [ne_eq, h.request?_eq_some_iff, not_or, forall_and, not_exists, List.mem_map, not_and]
  constructor
  · rintro ⟨hrun, hwait⟩
    exact ⟨hrun, fun w hw hid => hwait _ w hw hid rfl⟩
  · rintro ⟨hrun, hwait⟩
    exact ⟨hrun, fun _ w hw hid _ => hwait w hw hid⟩

theorem Inv.live_iff (h : s.Inv config pending) : s.Live id ↔ ∃ r, s.request? id = some r := by
  rw [← not_iff_not, ← h.request?_eq_none_iff, Option.eq_none_iff_forall_ne_some]
  simp

@[simp] theorem request?_withCache (m : KVCacheManager) :
    (s.withCache m).request? id = s.request? id := rfl

theorem request?_replaced (id' : RequestId) :
    (s.replaced id r).request? id' = if id' = id then some r else s.request? id' := by
  simp only [request?, replaced, Dict.get?_set]
  by_cases hid : id' = id <;> simp [hid]

theorem Inv.request?_removed (h : s.Inv config pending) (hrun : id ∈ s.running.keys) {t : List ℕ}
    (ht : s.cacheManager.tables.get? id = some t) (id' : RequestId) :
    (s.removed id t).request? id' = if id' = id then none else s.request? id' := by
  by_cases hid : id' = id
  · subst hid
    rw [if_pos rfl, (h.removed ht).request?_eq_none_iff, Live, not_or]
    refine ⟨fun hmem => (Dict.mem_keys_erase.mp hmem).1 rfl, ?_⟩
    intro hmem
    obtain ⟨w, hw, rfl⟩ := List.mem_map.mp hmem
    exact h.waiting_not_running w hw hrun
  · rw [if_neg hid]
    simp only [request?, Scheduler.removed, Dict.get?_erase_of_ne _ hid]

theorem mem_eraseP_waiting {waiting : List RequestState}
    (hnodup : (waiting.map (·.requestId)).Nodup) :
    r ∈ waiting.eraseP (fun w => w.requestId = id) ↔ r ∈ waiting ∧ r.requestId ≠ id := by
  induction waiting with
  | nil => simp
  | cons w waiting ih =>
      obtain ⟨hnotin, hnodup⟩ := List.nodup_cons.mp hnodup
      by_cases hw : w.requestId = id
      · have hrest : ∀ r ∈ waiting, r.requestId ≠ id := by
          intro r hr heq
          exact hnotin (List.mem_map.mpr ⟨r, hr, heq.trans hw.symm⟩)
        rw [List.eraseP_cons_of_pos (by simpa using hw), List.mem_cons]
        constructor
        · exact fun hr => ⟨Or.inr hr, hrest r hr⟩
        · rintro ⟨rfl | hr, hne⟩
          · exact absurd hw hne
          · exact hr
      · rw [List.eraseP_cons_of_neg (by simpa using hw), List.mem_cons, List.mem_cons, ih hnodup]
        constructor
        · rintro (rfl | ⟨hr, hne⟩)
          · exact ⟨Or.inl rfl, hw⟩
          · exact ⟨Or.inr hr, hne⟩
        · rintro ⟨rfl | hr, hne⟩
          · exact Or.inl rfl
          · exact Or.inr ⟨hr, hne⟩

theorem Inv.request?_dropped (h : s.Inv config pending) (hrun : id ∉ s.running.keys)
    (id' : RequestId) :
    (s.dropped id).request? id' = if id' = id then none else s.request? id' := by
  ext r
  rw [(h.dropped id).request?_eq_some_iff]
  simp only [Scheduler.dropped, mem_eraseP_waiting h.waiting_nodup]
  by_cases hid : id' = id
  · subst hid
    rw [if_pos rfl, Dict.get?_eq_none_iff.mpr hrun]
    simp only [reduceCtorEq, false_or, iff_false, not_exists, not_and]
    rintro w ⟨_, hne⟩ heq
    exact absurd heq hne
  · rw [if_neg hid, h.request?_eq_some_iff]
    refine or_congr_right (exists_congr fun w => ?_)
    constructor
    · rintro ⟨⟨hw, _⟩, hrest⟩
      exact ⟨hw, hrest⟩
    · rintro ⟨hw, heq, hseat⟩
      exact ⟨⟨hw, heq ▸ hid⟩, heq, hseat⟩

theorem request?_enqueued {request : EngineRequest}
    (hnew : ¬ s.Live request.requestId) (id' : RequestId) :
    (s.enqueued request).request? id' = if id' = request.requestId
      then some (RequestState.ofRequest request).seat else s.request? id' := by
  by_cases hid : id' = request.requestId
  · subst hid
    obtain ⟨hrun, hwait⟩ := not_or.mp hnew
    have hnone : s.waiting.find? (fun r => r.requestId = request.requestId) = none := by
      rw [List.find?_eq_none]
      intro w hw heq
      exact hwait (List.mem_map.mpr ⟨w, hw, of_decide_eq_true heq⟩)
    rw [if_pos rfl, request?_of_not_running (s := s.enqueued request) hrun]
    simp [Scheduler.enqueued, List.find?_append, hnone, RequestState.ofRequest]
  · rw [if_neg hid]
    have hne : ¬ (RequestState.ofRequest request).requestId = id' := fun heq => hid heq.symm
    simp [request?, Scheduler.enqueued, List.find?_append, hne]

theorem AdmitDerivation.request?_eq {n : ℕ} {s' : Scheduler}
    (h : AdmitDerivation config n s s') (hs : s.Settled config) (hs' : s'.Settled config)
    (id : RequestId) : s'.request? id = s.request? id := by
  cases hr : s'.request? id with
  | none => rw [(hs.request?_eq_none_iff.mpr (mt (h.live_iff id).mpr (hs'.request?_eq_none_iff.mp hr)))]
  | some r =>
      rw [eq_comm, hs.request?_eq_some_iff]
      rcases hs'.request?_eq_some_iff.mp hr with hrun | ⟨w, hw, hid, hseat⟩
      · rcases h.running_cases hrun with hold | ⟨w, hw, hid, heq⟩
        · exact Or.inl hold
        · exact Or.inr ⟨w, hw, hid, heq.symm⟩
      · exact Or.inr ⟨w, h.waiting_subset hw, hid, hseat⟩

end Lookup

end Scheduler

/-! ## Messages about one request -/

def outputsOf (messages : List CoreMessage) : List RequestOutput :=
  messages.filterMap fun
    | .event (.output output) => some output
    | _ => none

def itemsOf (messages : List CoreMessage) : List WorkerItem :=
  messages.flatMap fun
    | .batch _ batch => batch.items
    | .event _ => []

def outputsFor (id : RequestId) (messages : List CoreMessage) : List RequestOutput :=
  (outputsOf messages).filter (fun output => output.requestId = id)

def itemsFor (id : RequestId) (messages : List CoreMessage) : List WorkerItem :=
  (itemsOf messages).filter (fun item => item.requestId = id)

section Messages

variable (id : RequestId)

@[simp] theorem outputsFor_nil : outputsFor id [] = [] := rfl

@[simp] theorem itemsFor_nil : itemsFor id [] = [] := rfl

@[simp] theorem outputsFor_append (ms ms' : List CoreMessage) :
    outputsFor id (ms ++ ms') = outputsFor id ms ++ outputsFor id ms' := by
  simp [outputsFor, outputsOf]

@[simp] theorem itemsFor_append (ms ms' : List CoreMessage) :
    itemsFor id (ms ++ ms') = itemsFor id ms ++ itemsFor id ms' := by
  simp [itemsFor, itemsOf]

@[simp] theorem outputsFor_batch (core : EngineCore) (items : List WorkerItem)
    (ms : List CoreMessage) : outputsFor id (core.batchMessage items :: ms) = outputsFor id ms :=
  rfl

@[simp] theorem itemsFor_batch (core : EngineCore) (items : List WorkerItem)
    (ms : List CoreMessage) : itemsFor id (core.batchMessage items :: ms) =
      items.filter (fun item => item.requestId = id) ++ itemsFor id ms := by
  simp [itemsFor, itemsOf, EngineCore.batchMessage]

@[simp] theorem outputsFor_metrics (result : WorkerResult) :
    outputsFor id (EngineCore.metricsMessages result) = [] := by
  cases h : result.metrics <;> simp [EngineCore.metricsMessages, outputsFor, outputsOf, h]

@[simp] theorem itemsFor_metrics (result : WorkerResult) :
    itemsFor id (EngineCore.metricsMessages result) = [] := by
  cases h : result.metrics <;> simp [EngineCore.metricsMessages, itemsFor, itemsOf, h]

@[simp] theorem outputsFor_outputs (outs : List RequestOutput) :
    outputsFor id (outs.map EngineCore.outputMessage) =
      outs.filter (fun output => output.requestId = id) := by
  have houts : outputsOf (outs.map EngineCore.outputMessage) = outs := by
    simp [outputsOf, EngineCore.outputMessage, Function.comp_def, List.filterMap_map]
  rw [outputsFor, houts]

@[simp] theorem itemsFor_outputs (outs : List RequestOutput) :
    itemsFor id (outs.map EngineCore.outputMessage) = [] := by
  simp [itemsFor, itemsOf, EngineCore.outputMessage, List.flatMap_map]

theorem errorMessages_eq (ids : List RequestId) (error : String) :
    EngineCore.errorMessages ids error =
      (ids.map (fun id => EngineCore.errorOutput id error)).map EngineCore.outputMessage := by
  simp [EngineCore.errorMessages]

@[simp] theorem itemsFor_errors (ids : List RequestId) (error : String) :
    itemsFor id (EngineCore.errorMessages ids error) = [] := by
  rw [errorMessages_eq, itemsFor_outputs]

theorem outputsFor_errors {ids : List RequestId} (hnodup : ids.Nodup) (error : String) :
    outputsFor id (EngineCore.errorMessages ids error) =
      if id ∈ ids then [EngineCore.errorOutput id error] else [] := by
  rw [errorMessages_eq, outputsFor_outputs, List.filter_map]
  have hcomp : (fun output : RequestOutput => decide (output.requestId = id)) ∘
      (fun id => EngineCore.errorOutput id error) = fun id' => decide (id' = id) := rfl
  rw [hcomp, List.filter_eq]
  split
  · rename_i hmem
    rw [List.count_eq_one_of_mem hnodup hmem]
    rfl
  · rename_i hmem
    rw [List.count_eq_zero_of_not_mem hmem]
    rfl

end Messages

/-! ## The share of a request in a batch -/

/-- What an answered batch does to the request of one item. -/
inductive ItemOutcome (config : EngineConfig) (tokenizer : Tokenizer) (result : WorkerResult)
    (r : RequestState) (item : WorkerItem) : List RequestOutput → Option RequestState → Prop where
  | advance (htok : result.sampledTokenIds.get? item.requestId = none) :
      ItemOutcome config tokenizer result r item [] (some (r.advance item.tokenIds.length))
  | extend {token r'} (htok : result.sampledTokenIds.get? item.requestId = some token)
      (hsample : (r.advance item.tokenIds.length).sample config tokenizer token = (r', none)) :
      ItemOutcome config tokenizer result r item
        [EngineCore.tokenOutput tokenizer item.requestId token (sampleText tokenizer token r r')
          none result.metrics] (some r')
  | finish {token r' reason}
      (htok : result.sampledTokenIds.get? item.requestId = some token)
      (hsample : (r.advance item.tokenIds.length).sample config tokenizer token =
        (r', some reason)) :
      ItemOutcome config tokenizer result r item
        [EngineCore.tokenOutput tokenizer item.requestId token (sampleText tokenizer token r r')
          (some reason) result.metrics] none

theorem filter_requestId_of_not_mem {id : RequestId} {items : List WorkerItem}
    (h : id ∉ items.map (·.requestId)) : items.filter (fun item => item.requestId = id) = [] := by
  apply List.filter_eq_nil_iff.mpr
  intro item hitem hid
  exact h (List.mem_map.mpr ⟨item, hitem, of_decide_eq_true hid⟩)

theorem filter_requestId_of_mem {item : WorkerItem} {items : List WorkerItem}
    (hnodup : (items.map (·.requestId)).Nodup) (hitem : item ∈ items) :
    items.filter (fun item' => item'.requestId = item.requestId) = [item] := by
  induction items with
  | nil => simp at hitem
  | cons first items ih =>
      obtain ⟨hnotin, hnodup⟩ := List.nodup_cons.mp hnodup
      rcases List.mem_cons.mp hitem with rfl | hitem
      · rw [List.filter_cons_of_pos (by simp), filter_requestId_of_not_mem hnotin]
      · have hne : first.requestId ≠ item.requestId :=
          fun heq => hnotin (List.mem_map.mpr ⟨item, hitem, heq.symm⟩)
        rw [List.filter_cons_of_neg (by simpa using hne), ih hnodup hitem]

section Batch

variable {config : EngineConfig} {tokenizer : Tokenizer} {result : WorkerResult}
  {items : List WorkerItem} {s s' : Scheduler} {outs : List RequestOutput} {id : RequestId}

/-- A request without an item is not touched. -/
theorem BatchDerivation.of_not_mem (h : BatchDerivation config tokenizer result items s outs s')
    (hin : InFlight config items s) (hid : id ∉ items.map (·.requestId)) :
    outs.filter (fun output => output.requestId = id) = [] ∧ s'.request? id = s.request? id := by
  induction h with
  | nil => exact ⟨rfl, rfl⟩
  | @advance item items s outs s' r hr htok hd ih =>
      simp only [List.map_cons, List.mem_cons, not_or] at hid
      obtain ⟨houts, hreq⟩ := ih (hin.replaced hr rfl rfl rfl) hid.2
      exact ⟨houts, by rw [hreq, request?_replaced, if_neg hid.1]⟩
  | @extend item items s outs s' r token r' hr htok hsample hd ih =>
      simp only [List.map_cons, List.mem_cons, not_or] at hid
      obtain ⟨houts, hreq⟩ := ih (hin.sampled hr hsample) hid.2
      refine ⟨?_, by rw [hreq, request?_replaced, if_neg hid.1]⟩
      rw [List.filter_cons_of_neg, houts]
      exact decide_eq_true_iff.not.mpr (Ne.symm hid.1)
  | @finish item items s outs s' r t token r' reason hr ht htok hsample hd ih =>
      simp only [List.map_cons, List.mem_cons, not_or] at hid
      obtain ⟨houts, hreq⟩ := ih (hin.removed ht) hid.2
      refine ⟨?_, ?_⟩
      · rw [List.filter_cons_of_neg, houts]
        exact decide_eq_true_iff.not.mpr (Ne.symm hid.1)
      · rw [hreq, hin.inv.request?_removed (Dict.mem_keys_of_get? hr) ht, if_neg hid.1]

theorem BatchDerivation.of_mem (h : BatchDerivation config tokenizer result items s outs s')
    (hin : InFlight config items s) {item : WorkerItem} (hitem : item ∈ items)
    {r : RequestState} (hr : s.running.get? item.requestId = some r) :
    ItemOutcome config tokenizer result r item
      (outs.filter (fun output => output.requestId = item.requestId))
      (s'.request? item.requestId) := by
  induction h with
  | nil => simp at hitem
  | @advance first items s outs s' r₀ hr₀ htok hd ih =>
      rcases List.mem_cons.mp hitem with rfl | hitem
      · obtain rfl : r = r₀ := Option.some.inj (hr.symm.trans hr₀)
        obtain ⟨houts, hreq⟩ := hd.of_not_mem (hin.replaced hr rfl rfl rfl) hin.head_not_mem
        rw [houts, hreq, request?_replaced, if_pos rfl]
        exact .advance htok
      · have hne : item.requestId ≠ first.requestId :=
          fun heq => hin.head_not_mem (List.mem_map.mpr ⟨item, hitem, heq⟩)
        exact ih (hin.replaced hr₀ rfl rfl rfl) hitem
          (by rw [Scheduler.replaced, Dict.get?_set_of_ne _ _ hne, hr])
  | @extend first items s outs s' r₀ token r' hr₀ htok hsample hd ih =>
      rcases List.mem_cons.mp hitem with rfl | hitem
      · obtain rfl : r = r₀ := Option.some.inj (hr.symm.trans hr₀)
        obtain ⟨houts, hreq⟩ := hd.of_not_mem (hin.sampled hr hsample) hin.head_not_mem
        rw [List.filter_cons_of_pos (by simp [EngineCore.tokenOutput]), houts, hreq,
          request?_replaced, if_pos rfl]
        exact .extend htok hsample
      · have hne : item.requestId ≠ first.requestId :=
          fun heq => hin.head_not_mem (List.mem_map.mpr ⟨item, hitem, heq⟩)
        rw [List.filter_cons_of_neg (by exact decide_eq_true_iff.not.mpr hne.symm)]
        exact ih (hin.sampled hr₀ hsample) hitem
          (by rw [Scheduler.replaced, Dict.get?_set_of_ne _ _ hne, hr])
  | @finish first items s outs s' r₀ t token r' reason hr₀ ht htok hsample hd ih =>
      rcases List.mem_cons.mp hitem with rfl | hitem
      · obtain rfl : r = r₀ := Option.some.inj (hr.symm.trans hr₀)
        obtain ⟨houts, hreq⟩ := hd.of_not_mem (hin.removed ht) hin.head_not_mem
        rw [List.filter_cons_of_pos (by simp [EngineCore.tokenOutput]), houts, hreq,
          hin.inv.request?_removed (Dict.mem_keys_of_get? hr) ht, if_pos rfl]
        exact .finish htok hsample
      · have hne : item.requestId ≠ first.requestId :=
          fun heq => hin.head_not_mem (List.mem_map.mpr ⟨item, hitem, heq⟩)
        rw [List.filter_cons_of_neg (by exact decide_eq_true_iff.not.mpr hne.symm)]
        exact ih (hin.removed ht) hitem
          (by rw [Scheduler.removed, Dict.get?_erase_of_ne _ hne, hr])

theorem FailDerivation.request?_eq (h : FailDerivation items s s')
    (hin : InFlight config items s) (id : RequestId) :
    s'.request? id = if id ∈ items.map (·.requestId) then none else s.request? id := by
  induction h with
  | nil => simp
  | @remove item items s s' r t hr ht hd ih =>
      rw [ih (hin.removed ht), hin.inv.request?_removed (Dict.mem_keys_of_get? hr) ht]
      by_cases hid : id = item.requestId
      · simp [hid]
      · simp [hid]

end Batch

/-! ## The share of a request in a step -/

/-- What a step does to one request id: the request's state before, the items issued for
it, the outputs put for it, and its state after. -/
inductive RequestStep (config : EngineConfig) (tokenizer : Tokenizer) (id : RequestId)
    (core core' : EngineCore) : EngineCore.Event → Option RequestState → List WorkerItem →
      List RequestOutput → Option RequestState → Prop where
  | keep {event r?} (hadd : ∀ request, event = .command (.add request) → request.requestId ≠ id)
      (habort : r? ≠ none → event ≠ .command (.abort id))
      (hloop : r? ≠ none → ∀ incoming, event = .engineStep incoming →
        core'.stopped = core.stopped) :
      RequestStep config tokenizer id core core' event r? [] [] r?
  | accept {request} (hid : request.requestId = id)
      (hnew : ¬ core.scheduler.Live request.requestId)
      (hfits : request.promptTokenIds.length < config.contextLimit) :
      RequestStep config tokenizer id core core' (.command (.add request)) none [] []
        (some (RequestState.ofRequest request).seat)
  | reject {request error r?} (hid : request.requestId = id)
      (h : Rejection config core.scheduler request error) :
      RequestStep config tokenizer id core core' (.command (.add request)) r? []
        [EngineCore.errorOutput id error.message] r?
  | abort {r} :
      RequestStep config tokenizer id core core' (.command (.abort id)) (some r) []
        [EngineCore.abortOutput id] none
  | answer {incoming result r item outs r'? m m'} (hloop : core'.stopped = core.stopped)
      (hanswer : EngineCore.answer? (core.batchId + 1) incoming = some result)
      (hstarted : result.batchId ≠ -1) (hok : result.failed = false)
      (hid : item.requestId = id) (hissued : Issued config m m' r item)
      (houtcome : ItemOutcome config tokenizer result r item outs r'?) :
      RequestStep config tokenizer id core core' (.engineStep incoming) (some r) [item] outs r'?
  | fail {incoming result r item m m'} (hloop : core'.stopped = core.stopped)
      (hanswer : EngineCore.answer? (core.batchId + 1) incoming = some result)
      (hstarted : result.batchId ≠ -1) (hfailed : result.failed = true)
      (hid : item.requestId = id) (hissued : Issued config m m' r item) :
      RequestStep config tokenizer id core core' (.engineStep incoming) (some r) [item]
        [EngineCore.errorOutput id (result.error.getD "")] none
  | crash {incoming result r items} (hstop : core'.stopped = true)
      (hanswer : EngineCore.answer? (core.batchId + 1) incoming = some result)
      (hinit : result.batchId = -1)
      (hitems : items = [] ∨ ∃ item m m', items = [item] ∧ item.requestId = id ∧
        Issued config m m' r item) :
      RequestStep config tokenizer id core core' (.engineStep incoming) (some r) items
        [EngineCore.errorOutput id (result.error.getD "None")] (some r)

namespace EngineCore

variable {config : EngineConfig} {tokenizer : Tokenizer} {core core' : EngineCore}
  {event : Event} {messages : List CoreMessage}

/-- An answered or failed batch leaves a request without an item as it is. -/
theorem request?_of_idle {s admitted : Scheduler} {items : List WorkerItem}
    {m' : KVCacheManager} (hs : Scheduled config s admitted items m') (hsettled : s.Settled config)
    (id : RequestId) : (admitted.withCache m').request? id = s.request? id := by
  rw [request?_withCache, hs.admission.request?_eq hsettled hs.settled]

theorem requestStep_of_abort {s' : Scheduler} {id' : RequestId}
    (hlive : ∃ r, core.scheduler.request? id' = some r)
    (hs' : ∀ id, s'.request? id = if id = id' then none else core.scheduler.request? id)
    (id : RequestId) :
    RequestStep config tokenizer id core core' (.command (.abort id')) (core.scheduler.request? id) []
      (outputsFor id [outputMessage (abortOutput id')]) (s'.request? id) := by
  rw [hs']
  by_cases hid : id = id'
  · subst hid
    obtain ⟨r, hr⟩ := hlive
    have houts : outputsFor id [outputMessage (abortOutput id)] = [abortOutput id] := by
      simp [outputsFor, outputsOf, outputMessage, abortOutput]
    rw [if_pos rfl, hr, houts]
    exact .abort
  · have houts : outputsFor id [outputMessage (abortOutput id')] = [] := by
      simp [outputsFor, outputsOf, outputMessage, abortOutput, Ne.symm hid]
    rw [if_neg hid, houts]
    refine .keep (by simp) (fun _ => ?_) (by simp)
    rintro ⟨⟩
    exact hid rfl

theorem Scheduled.item {s admitted : Scheduler} {items : List WorkerItem} {m' : KVCacheManager}
    (hs : Scheduled config s admitted items m') (hsettled : s.Settled config) {item : WorkerItem}
    (hitem : item ∈ items) :
    ∃ r, s.request? item.requestId = some r ∧
      (admitted.withCache m').running.get? item.requestId = some r ∧
      Issued config admitted.cacheManager m' r item := by
  obtain ⟨r, hr, hissued⟩ := hs.issued hitem
  refine ⟨r, ?_, hr, hissued⟩
  rw [← request?_of_idle hs hsettled]
  exact request?_of_running hr

/-- Each step acts on one request as `RequestStep` says. -/
theorem StepDerivation.request (h : StepDerivation config tokenizer core event messages core')
    (hsettled : core.scheduler.Settled config) (id : RequestId) :
    RequestStep config tokenizer id core core' event (core.scheduler.request? id)
      (itemsFor id messages) (outputsFor id messages) (core'.scheduler.request? id) := by
  cases h with
  | shutdown => exact .keep (by simp) (by simp) (by simp)
  | leave => exact .keep (by simp) (by simp) (by simp)
  | @accept request hnew hfits =>
      show RequestStep _ _ _ _ _ _ _ [] [] ((core.scheduler.enqueued request).request? id)
      rw [request?_enqueued hnew]
      by_cases hid : id = request.requestId
      · rw [if_pos hid, hid, (hsettled.request?_eq_none_iff).mpr hnew]
        exact .accept rfl hnew hfits
      · rw [if_neg hid]
        exact .keep (by rintro _ ⟨⟩; exact Ne.symm hid) (by simp) (by simp)
  | @reject request error h =>
      show RequestStep _ _ _ _ _ _ _ _ _ (core.scheduler.request? id)
      by_cases hid : request.requestId = id
      · have houts : outputsFor id [outputMessage (errorOutput request.requestId error.message)] =
            [errorOutput id error.message] := by
          simp [outputsFor, outputsOf, outputMessage, errorOutput, hid]
        rw [houts]
        exact .reject hid h
      · have houts : outputsFor id [outputMessage (errorOutput request.requestId error.message)] =
            [] := by
          simp [outputsFor, outputsOf, outputMessage, errorOutput, hid]
        rw [houts]
        exact .keep (by rintro _ ⟨⟩; exact hid) (by simp) (by simp)
  | @abortRunning id' r t hr ht =>
      exact requestStep_of_abort ⟨r, request?_of_running hr⟩
        (hsettled.request?_removed (Dict.mem_keys_of_get? hr) ht) id
  | @abortWaiting id' hrun hwait =>
      exact requestStep_of_abort ((hsettled.live_iff).mp (Or.inr hwait))
        (hsettled.request?_dropped hrun) id
  | @abortMiss id' hdead =>
      refine .keep (by simp) (fun hlive => ?_) (by simp)
      rintro ⟨⟩
      exact hlive (hsettled.request?_eq_none_iff.mpr hdead)
  | @idle incoming admitted m' hs =>
      show RequestStep _ _ _ _ _ _ _ _ _ ((admitted.withCache m').request? id)
      rw [request?_of_idle hs hsettled]
      exact .keep (by simp) (by simp) (fun _ _ _ => rfl)
  | @fail incoming admitted items m' result s' hs hne hanswer hstarted hfailed hd =>
      show RequestStep _ _ _ _ _ _ _ _ _ (s'.request? id)
      rw [hd.request?_eq hs.inFlight, request?_of_idle hs hsettled, itemsFor_batch,
        itemsFor_append, itemsFor_metrics, itemsFor_errors, outputsFor_batch, outputsFor_append,
        outputsFor_metrics, outputsFor_errors id hs.items_nodup, List.append_nil, List.append_nil,
        List.nil_append]
      by_cases hid : id ∈ items.map (·.requestId)
      · obtain ⟨item, hitem, rfl⟩ := List.mem_map.mp hid
        obtain ⟨r, hr, _, hissued⟩ := Scheduled.item hs hsettled hitem
        rw [if_pos hid, if_pos hid, hr, filter_requestId_of_mem hs.items_nodup hitem]
        exact .fail rfl hanswer hstarted hfailed rfl hissued
      · rw [if_neg hid, if_neg hid, filter_requestId_of_not_mem hid]
        exact .keep (by simp) (by simp) (fun _ _ _ => rfl)
  | @answer incoming admitted items m' result outs s' hs hne hanswer hstarted hok hd =>
      show RequestStep _ _ _ _ _ _ _ _ _ (s'.request? id)
      rw [itemsFor_batch, itemsFor_append, itemsFor_metrics, itemsFor_outputs, outputsFor_batch,
        outputsFor_append, outputsFor_metrics, outputsFor_outputs, List.append_nil,
        List.append_nil, List.nil_append]
      by_cases hid : id ∈ items.map (·.requestId)
      · obtain ⟨item, hitem, rfl⟩ := List.mem_map.mp hid
        obtain ⟨r, hr, hrun, hissued⟩ := Scheduled.item hs hsettled hitem
        rw [hr, filter_requestId_of_mem hs.items_nodup hitem]
        exact .answer rfl hanswer hstarted hok rfl hissued (hd.of_mem hs.inFlight hitem hrun)
      · obtain ⟨houts, hreq⟩ := hd.of_not_mem hs.inFlight hid
        rw [houts, hreq, request?_of_idle hs hsettled, filter_requestId_of_not_mem hid]
        exact .keep (by simp) (by simp) (fun _ _ _ => rfl)
  | @crash incoming admitted items m' result hs hne hanswer hinit =>
      show RequestStep _ _ _ _ _ _ _ _ _ ((admitted.withCache m').request? id)
      have hnodup : (admitted.running.keys ++ admitted.waiting.map (·.requestId)).Nodup := by
        refine List.nodup_append.mpr ⟨admitted.running.keys_nodup, hs.settled.waiting_nodup, ?_⟩
        rintro a hrun b hwait rfl
        obtain ⟨w, hw, rfl⟩ := List.mem_map.mp hwait
        exact hs.settled.waiting_not_running w hw hrun
      rw [itemsFor_batch, itemsFor_errors, outputsFor_batch, outputsFor_errors id hnodup,
        List.append_nil, request?_of_idle hs hsettled]
      by_cases hlive : core.scheduler.Live id
      · have hmem : id ∈ admitted.running.keys ++ admitted.waiting.map (·.requestId) :=
          List.mem_append.mpr ((hs.admission.live_iff id).mpr hlive)
        obtain ⟨r, hr⟩ := hsettled.live_iff.mp hlive
        rw [if_pos hmem, hr]
        refine .crash rfl hanswer hinit ?_
        by_cases hid : id ∈ items.map (·.requestId)
        · obtain ⟨item, hitem, rfl⟩ := List.mem_map.mp hid
          obtain ⟨r', hr', _, hissued⟩ := Scheduled.item hs hsettled hitem
          obtain rfl : r' = r := Option.some.inj (hr'.symm.trans hr)
          exact Or.inr ⟨item, _, _, filter_requestId_of_mem hs.items_nodup hitem, rfl, hissued⟩
        · exact Or.inl (filter_requestId_of_not_mem hid)
      · have hmem : id ∉ admitted.running.keys ++ admitted.waiting.map (·.requestId) :=
          fun hmem => hlive ((hs.admission.live_iff id).mp (List.mem_append.mp hmem))
        have hid : id ∉ items.map (·.requestId) := by
          rintro hid
          obtain ⟨item, hitem, rfl⟩ := List.mem_map.mp hid
          obtain ⟨r, hr, _⟩ := Scheduled.item hs hsettled hitem
          exact hlive (hsettled.live_iff.mpr ⟨r, hr⟩)
        have hdead := hsettled.request?_eq_none_iff.mpr hlive
        rw [if_neg hmem, filter_requestId_of_not_mem hid, hdead]
        exact .keep (by simp) (by simp) (by simp)

/-! ## Batches among the messages -/

def OnlyEvents (messages : List CoreMessage) : Prop :=
  ∀ message ∈ messages, ∃ event, message = .event event

theorem onlyEvents_outputs (outs : List RequestOutput) : OnlyEvents (outs.map outputMessage) := by
  intro message hmem
  obtain ⟨output, _, rfl⟩ := List.mem_map.mp hmem
  exact ⟨_, rfl⟩

theorem onlyEvents_errors (ids : List RequestId) (error : String) :
    OnlyEvents (errorMessages ids error) :=
  errorMessages_eq ids error ▸ onlyEvents_outputs _

theorem OnlyEvents.metrics {rest : List CoreMessage} (h : OnlyEvents rest)
    (result : WorkerResult) : OnlyEvents (metricsMessages result ++ rest) := by
  intro message hmem
  rcases List.mem_append.mp hmem with hmem | hmem
  · obtain ⟨metrics, _, rfl⟩ := List.mem_map.mp hmem
    exact ⟨_, rfl⟩
  · exact h message hmem

theorem OnlyEvents.itemsOf_eq (h : OnlyEvents messages) : itemsOf messages = [] := by
  rw [itemsOf, List.flatMap_eq_nil_iff]
  intro message hmem
  obtain ⟨event, rfl⟩ := h message hmem
  rfl

/-- A step puts no batch, or the one of its `schedule` call before everything else. -/
theorem StepDerivation.shape (h : StepDerivation config tokenizer core event messages core') :
    OnlyEvents messages ∨ ∃ items rest admitted m', messages = core.batchMessage items :: rest ∧
      OnlyEvents rest ∧ items ≠ [] ∧ Scheduled config core.scheduler admitted items m' := by
  cases h with
  | shutdown => exact Or.inl (onlyEvents_outputs [])
  | accept => exact Or.inl (onlyEvents_outputs [])
  | reject => exact Or.inl (onlyEvents_outputs [_])
  | abortRunning => exact Or.inl (onlyEvents_outputs [_])
  | abortWaiting => exact Or.inl (onlyEvents_outputs [_])
  | abortMiss => exact Or.inl (onlyEvents_outputs [])
  | idle => exact Or.inl (onlyEvents_outputs [])
  | fail hs hne =>
      exact Or.inr ⟨_, _, _, _, rfl, (onlyEvents_errors _ _).metrics _, hne, hs⟩
  | answer hs hne =>
      exact Or.inr ⟨_, _, _, _, rfl, (onlyEvents_outputs _).metrics _, hne, hs⟩
  | crash hs hne => exact Or.inr ⟨_, _, _, _, rfl, onlyEvents_errors _ _, hne, hs⟩
  | leave => exact Or.inl (onlyEvents_outputs [])

/-- Every batch put on a Worker queue comes from one `schedule` call. -/
theorem StepDerivation.batch (h : StepDerivation config tokenizer core event messages core')
    {rank : ℕ} {batch : WorkerBatch} (hbatch : CoreMessage.batch rank batch ∈ messages) :
    rank = 0 ∧ batch.batchId = core.batchId + 1 ∧ batch.items ≠ [] ∧
      itemsOf messages = batch.items ∧
      ∃ admitted m', Scheduled config core.scheduler admitted batch.items m' := by
  rcases h.shape with hevents | ⟨items, rest, admitted, m', rfl, hrest, hne, hs⟩
  · obtain ⟨event, heq⟩ := hevents _ hbatch
    cases heq
  · rcases List.mem_cons.mp hbatch with heq | hmem
    · obtain ⟨rfl, rfl⟩ := CoreMessage.batch.inj heq
      have hitems : itemsOf (core.batchMessage items :: rest) = items ++ itemsOf rest := by
        simp [itemsOf, batchMessage]
      exact ⟨rfl, rfl, hne, by rw [hitems, hrest.itemsOf_eq, List.append_nil], admitted, m', hs⟩
    · obtain ⟨event, heq⟩ := hrest _ hmem
      cases heq

end EngineCore

end MiniVLLM
