import MiniVLLM.Verification.Scheduler.Turns
import MiniVLLM.Verification.Engine.Progress

/-! # Admission order

Which waiting requests a `schedule` call seats, as a list. Over a run the running requests
stay in the order they were seated, and that is the order the loop visits them in. -/

/-- New entries go behind the old ones, and an old entry that is no new one keeps its place. -/
theorem List.Sublist.append_dedup {α : Type*} [DecidableEq α] {l history new : List α}
    (h : l.Sublist history.dedup) (hnew : new.Nodup) (hdisj : l.Disjoint new) :
    (l ++ new).Sublist (history ++ new).dedup := by
  induction history generalizing l with
  | nil =>
      rw [List.eq_nil_of_sublist_nil h, List.nil_append, hnew.dedup]
  | cons a history ih =>
      by_cases ha : a ∈ history
      · rw [List.dedup_cons_of_mem ha] at h
        rw [List.cons_append, List.dedup_cons_of_mem (List.mem_append_left _ ha)]
        exact ih h hdisj
      · rw [List.dedup_cons_of_notMem ha] at h
        have hdrop : (history ++ new).dedup.Sublist (a :: history ++ new).dedup := by
          by_cases hmem : a ∈ history ++ new
          · rw [List.cons_append, List.dedup_cons_of_mem hmem]
          · rw [List.cons_append, List.dedup_cons_of_notMem hmem]
            exact List.sublist_cons_self _ _
        cases h with
        | cons _ h => exact (ih h hdisj).trans hdrop
        | cons_cons _ h =>
            obtain ⟨hnotin, hdisj⟩ := List.disjoint_cons_left.mp hdisj
            have hmem : a ∉ history ++ new := by simp [ha, hnotin]
            rw [List.cons_append, List.cons_append, List.dedup_cons_of_notMem hmem]
            exact (ih h hdisj).cons_cons a

namespace MiniVLLM

open KVCacheManager

namespace Scheduler

/-- The waiting requests the next `schedule` call seats: as many of those that fit as there
are seats. -/
def seatable (config : EngineConfig) (s : Scheduler) : List RequestState :=
  (s.waiting.filter (fun w => FirstChunkFits config s.cacheManager w)).take
    (config.maxNumSeqs - s.running.length)

def seatedBy (config : EngineConfig) (s : Scheduler) : List RequestId :=
  match (admitWaiting config).run s with
  | .ok _ s' => s'.running.keys.drop s.running.length
  | .error _ _ => []

section Admission

variable {config : EngineConfig} {n : ℕ} {s admitted : Scheduler} {items : List WorkerItem}
  {m' : KVCacheManager}

theorem AdmitDerivation.running_entries (h : AdmitDerivation config n s admitted)
    {todo passed : List RequestState} (hw : s.waiting = todo ++ passed) (hn : todo.length = n) :
    admitted.running.entries = s.running.entries ++
      ((todo.filter (fun w => FirstChunkFits config s.cacheManager w)).take
        (config.maxNumSeqs - s.running.length)).map fun w => (w.requestId, w.seat) := by
  induction h generalizing todo passed with
  | stop n s hstop =>
      rcases hstop with rfl | hnil | hfull
      · rw [List.length_eq_zero_iff.mp hn]
        simp
      · rw [hnil] at hw
        rw [(List.append_eq_nil_iff.mp hw.symm).1]
        simp
      · rw [Nat.sub_eq_zero_of_le hfull]
        simp
  | @seat n s request rest s' hw' hseat hnew hfits _ ih =>
      cases todo with
      | nil => simp at hn
      | cons first todo =>
          rw [hw', List.cons_append, List.cons.injEq] at hw
          obtain ⟨rfl, hrest⟩ := hw
          have hseats : config.maxNumSeqs - s.running.length =
              config.maxNumSeqs - (s.running.length + 1) + 1 := by omega
          rw [ih hrest (by simpa using hn), seated, Dict.set_length_of_not_mem _ hnew,
            Dict.entries_set_of_not_mem _ hnew, List.filter_cons_of_pos (by simpa using hfits),
            hseats, List.take_succ_cons, List.map_cons, List.append_assoc]
          rfl
  | @defer n s request rest s' hw' _ hfull _ ih =>
      cases todo with
      | nil => simp at hn
      | cons first todo =>
          rw [hw', List.cons_append, List.cons.injEq] at hw
          obtain ⟨rfl, hrest⟩ := hw
          rw [List.filter_cons_of_neg (by simpa using hfull)]
          have hw' : (deferred s request rest).waiting = todo ++ (passed ++ [request]) := by
            rw [deferred, hrest, List.append_assoc]
          exact ih hw' (by simpa using hn)

namespace Scheduled

theorem running_entries (h : Scheduled config s admitted items m') :
    admitted.running.entries =
      s.running.entries ++ (seatable config s).map fun w => (w.requestId, w.seat) :=
  h.admission.running_entries (List.append_nil _).symm rfl

theorem running_values (h : Scheduled config s admitted items m') :
    admitted.running.values = s.running.values ++ (seatable config s).map RequestState.seat := by
  rw [Dict.values, h.running_entries, List.map_append, List.map_map]
  rfl

theorem running_keys (h : Scheduled config s admitted items m') :
    admitted.running.keys = s.running.keys ++ (seatable config s).map (·.requestId) := by
  rw [Dict.keys, h.running_entries, List.map_append, List.map_map]
  rfl

end Scheduled

/-- What the code appends to the running requests is the list of those it can seat. -/
theorem Inv.seatedBy_eq (h : s.Settled config) :
    seatedBy config s = (seatable config s).map (·.requestId) := by
  obtain ⟨admitted, items, m', hs, hwaiting, _⟩ := h.run_admitWaiting
  rw [seatedBy, hwaiting]
  dsimp only
  rw [hs.running_keys, ← Dict.length_keys, List.drop_left]

theorem seatable_subset {w : RequestState} (hw : w ∈ seatable config s) :
    w ∈ s.waiting ∧ FirstChunkFits config s.cacheManager w := by
  obtain ⟨hmem, hfits⟩ := List.mem_filter.mp (List.mem_of_mem_take hw)
  exact ⟨hmem, of_decide_eq_true hfits⟩

end Admission

end Scheduler

/-! ## Requests only leave while a batch is answered -/

section Results

variable {config : EngineConfig} {tokenizer : Tokenizer} {result : WorkerResult}
  {items : List WorkerItem} {outs : List RequestOutput} {s s' : Scheduler}

theorem Scheduler.keys_erase_sublist (s : Scheduler) (id : RequestId) :
    (s.running.erase id).keys.Sublist s.running.keys := by
  rw [Dict.keys_erase]
  exact List.filter_sublist

theorem BatchDerivation.keys_sublist
    (h : BatchDerivation config tokenizer result items s outs s') :
    s'.running.keys.Sublist s.running.keys := by
  have hreplaced : ∀ {s : Scheduler} {id : RequestId} {r r' : RequestState},
      s.running.get? id = some r → (s.replaced id r').running.keys = s.running.keys :=
    fun hr => Dict.keys_set_of_mem _ (Dict.mem_keys_of_get? hr)
  induction h with
  | nil => exact .refl _
  | advance hr _ _ ih => exact hreplaced hr ▸ ih
  | extend hr _ _ _ ih => exact hreplaced hr ▸ ih
  | finish _ _ _ _ _ ih => exact ih.trans (Scheduler.keys_erase_sublist _ _)

theorem FailDerivation.keys_sublist (h : FailDerivation items s s') :
    s'.running.keys.Sublist s.running.keys := by
  induction h with
  | nil => exact .refl _
  | remove _ _ _ ih => exact ih.trans (Scheduler.keys_erase_sublist _ _)

end Results

namespace EngineCore

open Scheduler

/-- The ids a run has moved from waiting to running, oldest first. -/
def admissions (config : EngineConfig) (τs : List CoreTransition) : List RequestId :=
  τs.flatMap fun τ =>
    match τ.event with
    | .engineStep _ => seatedBy config τ.pre.scheduler
    | _ => []

section Runs

variable {config : EngineConfig} {tokenizer : Tokenizer} {τs : List CoreTransition}
  {core core' : EngineCore} {event : Event} {messages : List CoreMessage}

/-- A step appends the seated ids to the running ones and then only removes. -/
theorem StepDerivation.keys_sublist (h : StepDerivation config tokenizer core event messages core')
    (hsettled : core.scheduler.Settled config) :
    core'.scheduler.running.keys.Sublist (core.scheduler.running.keys ++
      admissions config [⟨core, event, messages, core'⟩]) := by
  have hadmitted : ∀ {admitted items m' incoming}, Scheduled config core.scheduler admitted items m' →
      admitted.running.keys = core.scheduler.running.keys ++
        admissions config [⟨core, .engineStep incoming, messages, core'⟩] := by
    intro admitted items m' incoming hs
    rw [hs.running_keys, admissions, List.flatMap_singleton, hsettled.seatedBy_eq]
  cases h with
  | shutdown => exact List.sublist_append_left _ _
  | accept => exact List.sublist_append_left _ _
  | reject => exact List.sublist_append_left _ _
  | abortRunning => exact (core.scheduler.keys_erase_sublist _).trans (List.sublist_append_left _ _)
  | abortWaiting => exact List.sublist_append_left _ _
  | abortMiss => exact List.sublist_append_left _ _
  | idle hs => exact hadmitted hs ▸ .refl _
  | fail hs _ _ _ _ hd => exact hadmitted hs ▸ hd.keys_sublist
  | answer hs _ _ _ _ hd => exact hadmitted hs ▸ hd.keys_sublist
  | crash hs => exact hadmitted hs ▸ .refl _
  | leave => exact List.sublist_append_left _ _

theorem Inv.seatedBy_new {s : Scheduler} (h : s.Settled config) :
    (seatedBy config s).Nodup ∧ s.running.keys.Disjoint (seatedBy config s) := by
  obtain ⟨admitted, items, m', hs, _, _⟩ := h.run_admitWaiting
  have hnodup := admitted.running.keys_nodup
  rw [hs.running_keys, ← h.seatedBy_eq] at hnodup
  obtain ⟨_, hnew, hdisj⟩ := List.nodup_append.mp hnodup
  exact ⟨hnew, fun a ha hb => hdisj a ha a hb rfl⟩

/-- The running requests stand in the order of their last admissions. -/
theorem Trace.running_sublist (h : Trace config tokenizer τs core) (hloop : core.stopped = false) :
    core.scheduler.running.keys.Sublist (admissions config τs).dedup := by
  induction h with
  | nil => exact List.nil_sublist _
  | @snoc τs core event messages core' hrun hstep ih =>
      have hstable := Trace.stable hrun
      have hsettled := hstable hstep.running
      have hkeys := (hstep.derivation hstable).1.keys_sublist hsettled
      obtain ⟨hnew, hdisj⟩ : (admissions config [⟨core, event, messages, core'⟩]).Nodup ∧
          core.scheduler.running.keys.Disjoint
            (admissions config [⟨core, event, messages, core'⟩]) := by
        rw [admissions, List.flatMap_singleton]
        cases event with
        | engineStep => exact Inv.seatedBy_new hsettled
        | command => exact ⟨List.nodup_nil, List.disjoint_nil_right _⟩
        | leave => exact ⟨List.nodup_nil, List.disjoint_nil_right _⟩
      rw [admissions, List.flatMap_append]
      exact hkeys.trans ((ih hstep.running).append_dedup hnew hdisj)

/-- In every reachable state the next `schedule` call visits the running requests in
admission order and issues items as specified. -/
theorem HonestTrace.schedule_spec (h : HonestTrace config tokenizer τs core)
    (hloop : core.stopped = false) :
    ∃ admitted items schedule s', (admitWaiting config).run core.scheduler = .ok () admitted ∧
      (Scheduler.schedule config).run core.scheduler = .ok schedule s' ∧
      admitted.running.keys.Sublist
        (admissions config τs ++ seatedBy config core.scheduler).dedup ∧
      ScheduleSpec config admitted items schedule s' := by
  have hsettled := Trace.stable (HonestTrace.trace h) hloop
  obtain ⟨admitted, items, m', hs, hwaiting, hrun⟩ := hsettled.run_admitWaiting
  obtain ⟨hnew, hdisj⟩ := Inv.seatedBy_new hsettled
  refine ⟨admitted, items, _, _, hwaiting, hrun, ?_, hs.spec ?_⟩
  · rw [hs.running_keys, ← hsettled.seatedBy_eq]
    exact (Trace.running_sublist (HonestTrace.trace h) hloop).append_dedup hnew hdisj
  · intro r hr
    have hlive : core.scheduler.request? r.requestId = some r := by
      rw [← hs.admission.request?_eq hsettled hs.settled]
      exact request?_of_running (hs.settled.mem_values_iff.mp hr)
    exact (HonestTrace.phased h _ r hlive).remaining_pos

/-- The specification of the call that schedules a decode beside the end of a prompt. -/
theorem schedule_spec_chunked : ∃ τs core,
    HonestTrace smallConfig characterTokenizer τs core ∧ core.stopped = false ∧
      ∃ admitted items schedule s',
        (admitWaiting smallConfig).run core.scheduler = .ok () admitted ∧
        (Scheduler.schedule smallConfig).run core.scheduler = .ok schedule s' ∧
        admitted.running.keys.Sublist
          (admissions smallConfig τs ++ seatedBy smallConfig core.scheduler).dedup ∧
        ScheduleSpec smallConfig admitted items schedule s' := by
  have hsome : (drive smallConfig characterTokenizer (chunkedEvents.take 4)).map
      (fun run => (decide (∀ τ ∈ run.1, HonestEvent τ.pre τ.out τ.event), run.2.stopped)) =
      some (true, false) := by decide +kernel
  obtain ⟨⟨τs, core⟩, hdrive, hrun⟩ := Option.map_eq_some_iff.mp hsome
  obtain ⟨hhonest, hloop⟩ := Prod.mk.inj hrun
  have htrace : HonestTrace smallConfig characterTokenizer τs core :=
    drive_honest hdrive (by decide) (of_decide_eq_true hhonest)
  exact ⟨τs, core, htrace, hloop, HonestTrace.schedule_spec htrace hloop⟩

end Runs

end EngineCore

end MiniVLLM
