import MiniVLLM.Verification.Engine.Admissions

/-! # Overtaking in the waiting queue

An admission round defers what does not fit to the end of the queue and stops when the seats
run out. A round that stops between two requests after deferring the first one turns their
order; nothing else does. -/

namespace List

variable {α : Type*} {a b : α} {l : List α}

theorem dedup_append_singleton [DecidableEq α] (l : List α) (c : α) :
    (l ++ [c]).dedup = l.dedup.filter (· ≠ c) ++ [c] := by
  induction l with
  | nil => rfl
  | cons x l ih =>
      by_cases hx : x ∈ l
      · rw [List.cons_append, List.dedup_cons_of_mem (List.mem_append_left _ hx),
          List.dedup_cons_of_mem hx, ih]
      · by_cases hc : x = c
        · rw [List.cons_append, List.dedup_cons_of_mem (by simp [hc]), List.dedup_cons_of_notMem hx,
            List.filter_cons_of_neg (by simpa using hc), ih]
        · rw [List.cons_append, List.dedup_cons_of_notMem (by simp [hx, hc]),
            List.dedup_cons_of_notMem hx, List.filter_cons_of_pos (by simpa using hc), ih,
            List.cons_append]

theorem pair_sublist_append {l' : List α} (h : [a, b].Sublist (l ++ l')) :
    [a, b].Sublist l ∨ (a ∈ l ∧ b ∈ l') ∨ [a, b].Sublist l' := by
  obtain ⟨front, back, hsplit, hfront, hback⟩ := List.sublist_append_iff.mp h
  match front, back with
  | [], back =>
      rw [List.nil_append] at hsplit
      exact Or.inr (Or.inr (hsplit ▸ hback))
  | [_], back =>
      simp only [List.singleton_append, List.cons.injEq] at hsplit
      obtain ⟨rfl, rfl⟩ := hsplit
      exact Or.inr (Or.inl ⟨List.singleton_sublist.mp hfront, List.singleton_sublist.mp hback⟩)
  | _ :: _ :: front, back =>
      simp only [List.cons_append, List.cons.injEq, List.nil_eq, List.append_eq_nil_iff] at hsplit
      obtain ⟨rfl, rfl, rfl, rfl⟩ := hsplit
      exact Or.inl hfront

theorem pair_sublist_take (hnodup : l.Nodup) (h : [a, b].Sublist l) {n : ℕ} (hb : b ∈ l.take n) :
    [a, b].Sublist (l.take n) := by
  rw [← List.take_append_drop n l] at h hnodup
  have hnot : b ∉ l.drop n := fun hmem => (List.nodup_append.mp hnodup).2.2 b hb b hmem rfl
  rcases pair_sublist_append h with htake | ⟨_, hmem⟩ | hdrop
  · exact htake
  · exact absurd hmem hnot
  · exact absurd (hdrop.subset (by simp)) hnot

/-- In a list without repetition, two entries that a sublist keeps stay in their order. -/
theorem pair_sublist_of_sublist {l' : List α} (hnodup : l.Nodup) (hsub : l'.Sublist l)
    (h : [a, b].Sublist l) (ha : a ∈ l') (hb : b ∈ l') : [a, b].Sublist l' := by
  induction hsub with
  | slnil => simp at ha
  | @cons l' l x hsub ih =>
      obtain ⟨hnotin, hnodup⟩ := List.nodup_cons.mp hnodup
      cases h with
      | cons _ h => exact ih hnodup h ha hb
      | cons_cons _ h => exact absurd (hsub.subset ha) hnotin
  | @cons_cons l' l x hsub ih =>
      obtain ⟨hnotin, hnodup⟩ := List.nodup_cons.mp hnodup
      have htail : ∀ {c}, c ∈ l → c ∈ x :: l' → c ∈ l' := by
        intro c hc hmem
        refine (List.mem_cons.mp hmem).resolve_left ?_
        rintro rfl
        exact hnotin hc
      cases h with
      | cons _ h =>
          have hmem := h.subset
          exact (ih hnodup h (htail (hmem (by simp)) ha) (htail (hmem (by simp)) hb)).cons x
      | cons_cons _ h =>
          have hmem : b ∈ l := h.subset (by simp)
          exact (List.singleton_sublist.mpr (htail hmem hb)).cons_cons _

theorem pair_sublist_filter {p : α → Bool} (h : [a, b].Sublist l) (ha : p a = true)
    (hb : p b = true) : [a, b].Sublist (l.filter p) := by
  simpa [List.filter_cons, ha, hb] using h.filter p

end List

namespace MiniVLLM

open KVCacheManager

namespace Scheduler

/-- How many entries of a queue are visited before the seats are taken by those that fit. -/
def visited {α : Type*} (fits : α → Bool) : ℕ → List α → ℕ
  | _, [] => 0
  | 0, _ :: _ => 0
  | seats + 1, w :: waiting =>
      if fits w then visited fits seats waiting + 1 else visited fits (seats + 1) waiting + 1

def visitedBy (config : EngineConfig) (s : Scheduler) : ℕ :=
  visited (fun w => FirstChunkFits config s.cacheManager w) (config.maxNumSeqs - s.running.length)
    s.waiting

/-- The next admission round defers `a` and stops, with all seats taken, before it reaches
`b`: the two leave it in the other order. -/
def Turns (config : EngineConfig) (s : Scheduler) (a b : RequestId) : Prop :=
  a ∈ ((s.waiting.take (visitedBy config s)).filter
      (fun w => ¬ FirstChunkFits config s.cacheManager w)).map (·.requestId) ∧
    b ∈ (s.waiting.drop (visitedBy config s)).map (·.requestId)

section Round

variable {config : EngineConfig} {n : ℕ} {s admitted : Scheduler} {items : List WorkerItem}
  {m' : KVCacheManager} {a b : RequestId}

theorem AdmitDerivation.waiting_eq (h : AdmitDerivation config n s admitted)
    {todo passed : List RequestState} (hw : s.waiting = todo ++ passed) (hn : todo.length = n) :
    admitted.waiting =
      todo.drop (visited (fun w => FirstChunkFits config s.cacheManager w)
          (config.maxNumSeqs - s.running.length) todo) ++
        (passed ++ (todo.take (visited (fun w => FirstChunkFits config s.cacheManager w)
          (config.maxNumSeqs - s.running.length) todo)).filter
            (fun w => ¬ FirstChunkFits config s.cacheManager w)) := by
  induction h generalizing todo passed with
  | stop n s hstop =>
      have hzero : visited (fun w => decide (FirstChunkFits config s.cacheManager w))
          (config.maxNumSeqs - s.running.length) todo = 0 := by
        rcases hstop with rfl | hnil | hfull
        · rw [List.length_eq_zero_iff.mp hn]
          rfl
        · rw [hnil] at hw
          rw [(List.append_eq_nil_iff.mp hw.symm).1]
          rfl
        · rw [Nat.sub_eq_zero_of_le hfull]
          cases todo <;> rfl
      rw [hzero, hw]
      simp
  | @seat n s request rest s' hw' hseat hnew hfits _ ih =>
      cases todo with
      | nil => simp at hn
      | cons first todo =>
          rw [hw', List.cons_append, List.cons.injEq] at hw
          obtain ⟨rfl, hrest⟩ := hw
          have hseats : config.maxNumSeqs - s.running.length =
              config.maxNumSeqs - (s.running.length + 1) + 1 := by omega
          rw [ih hrest (by simpa using hn), hseats, visited, if_pos (by simpa using hfits),
            List.drop_succ_cons, List.take_succ_cons,
            List.filter_cons_of_neg (by simpa using hfits), seated,
            Dict.set_length_of_not_mem _ hnew]
          rfl
  | @defer n s request rest s' hw' hseat hfull _ ih =>
      cases todo with
      | nil => simp at hn
      | cons first todo =>
          rw [hw', List.cons_append, List.cons.injEq] at hw
          obtain ⟨rfl, hrest⟩ := hw
          have hseats : config.maxNumSeqs - s.running.length =
              config.maxNumSeqs - (s.running.length + 1) + 1 := by omega
          have hqueue : (s.deferred request rest).waiting = todo ++ (passed ++ [request]) := by
            rw [deferred, hrest, List.append_assoc]
          have hrunning : (s.deferred request rest).running = s.running := rfl
          have hcache : (s.deferred request rest).cacheManager = s.cacheManager := rfl
          rw [ih hqueue (by simpa using hn), hrunning, hcache, hseats, visited,
            if_neg (by simpa using hfull), List.drop_succ_cons, List.take_succ_cons,
            List.filter_cons_of_pos (by simpa using hfull), List.append_assoc]
          rfl

theorem Scheduled.waiting_eq (h : Scheduled config s admitted items m') :
    admitted.waiting = s.waiting.drop (visitedBy config s) ++
      (s.waiting.take (visitedBy config s)).filter
        (fun w => ¬ FirstChunkFits config s.cacheManager w) :=
  h.admission.waiting_eq (List.append_nil _).symm rfl

theorem Inv.waiting_elements_nodup (h : s.Settled config) : s.waiting.Nodup :=
  h.waiting_nodup.of_map _

/-- Of two requests in line that both stay in line, the second one is behind the first one
after a round, unless the round turned them. -/
theorem Scheduled.pair_waiting (h : Scheduled config s admitted items m') (hs : s.Settled config)
    (hpair : [a, b].Sublist (s.waiting.map (·.requestId)))
    (ha : a ∈ admitted.waiting.map (·.requestId)) (hb : b ∈ admitted.waiting.map (·.requestId)) :
    Turns config s a b ∨ [a, b].Sublist (admitted.waiting.map (·.requestId)) := by
  set k := visitedBy config s with hk
  rw [h.waiting_eq, ← hk, List.map_append] at ha hb ⊢
  have hnodup := hs.waiting_nodup
  rw [← List.take_append_drop k s.waiting, List.map_append] at hpair hnodup
  have hdisj := (List.nodup_append.mp hnodup).2.2
  -- A visited request that stays in line was deferred.
  have hdeferred : ∀ {id}, id ∈ (s.waiting.take k).map (·.requestId) →
      id ∈ (s.waiting.drop k).map (·.requestId) ++ ((s.waiting.take k).filter
        (fun w => ¬ FirstChunkFits config s.cacheManager w)).map (·.requestId) →
      id ∈ ((s.waiting.take k).filter
        (fun w => ¬ FirstChunkFits config s.cacheManager w)).map (·.requestId) := by
    intro id hvisited hmem
    refine (List.mem_append.mp hmem).resolve_left (fun hdrop => ?_)
    exact hdisj id hvisited id hdrop rfl
  rcases List.pair_sublist_append hpair with hvisited | ⟨hvisited, hleft⟩ | hleft
  · have hsub := (List.filter_sublist
      (p := fun w => ¬ FirstChunkFits config s.cacheManager w) (l := s.waiting.take k)).map
        (·.requestId)
    have hstay := List.pair_sublist_of_sublist (List.nodup_append.mp hnodup).1 hsub hvisited
      (hdeferred (hvisited.subset (by simp)) ha) (hdeferred (hvisited.subset (by simp)) hb)
    exact Or.inr (hstay.trans (List.sublist_append_right _ _))
  · exact Or.inl ⟨hdeferred hvisited ha, hleft⟩
  · exact Or.inr (hleft.trans (List.sublist_append_left _ _))

theorem Scheduled.pair_waiting_of_turns (h : Scheduled config s admitted items m')
    (hturns : Turns config s b a) : [a, b].Sublist (admitted.waiting.map (·.requestId)) := by
  rw [h.waiting_eq, List.map_append]
  exact (List.singleton_sublist.mpr hturns.2).append (List.singleton_sublist.mpr hturns.1)

/-- Of two requests in line with prompts of one length, the second one gets a seat only after
the first one. -/
theorem Inv.pair_seatedBy (hs : s.Settled config) {w v : RequestState}
    (hpair : [w, v].Sublist s.waiting) (hlen : w.promptTokenIds.length = v.promptTokenIds.length)
    (hseated : v.requestId ∈ seatedBy config s) :
    [w.requestId, v.requestId].Sublist (seatedBy config s) := by
  rw [hs.seatedBy_eq] at hseated ⊢
  obtain ⟨v', hv', hid⟩ := List.mem_map.mp hseated
  have hv : v ∈ s.waiting := hpair.subset (by simp)
  obtain rfl : v' = v := List.inj_on_of_nodup_map hs.waiting_nodup (seatable_subset hv').1 hv hid
  have hfitsv := (seatable_subset hv').2
  have hfitsw : FirstChunkFits config s.cacheManager w := by
    rw [FirstChunkFits, firstTarget, hlen]
    exact hfitsv
  have hfilter := List.pair_sublist_filter
    (p := fun w => FirstChunkFits config s.cacheManager w) hpair
    (decide_eq_true hfitsw) (decide_eq_true hfitsv)
  exact (List.pair_sublist_take (hs.waiting_elements_nodup.filter _) hfilter hv').map (·.requestId)

end Round

end Scheduler

section Results

variable {config : EngineConfig} {tokenizer : Tokenizer} {result : WorkerResult}
  {items : List WorkerItem} {outs : List RequestOutput} {s s' : Scheduler}

theorem BatchDerivation.waiting_eq (h : BatchDerivation config tokenizer result items s outs s') :
    s'.waiting = s.waiting := by
  induction h with
  | nil => rfl
  | advance _ _ _ ih => exact ih
  | extend _ _ _ _ ih => exact ih
  | finish _ _ _ _ _ ih => exact ih

theorem FailDerivation.waiting_eq (h : FailDerivation items s s') : s'.waiting = s.waiting := by
  induction h with
  | nil => rfl
  | remove _ _ _ ih => exact ih

end Results

namespace EngineCore

open Scheduler

def arrivals (config : EngineConfig) (τs : List CoreTransition) : List RequestId :=
  τs.flatMap fun τ =>
    match τ.event with
    | .command (.add request) =>
        match (addRequest config request).run τ.pre.scheduler with
        | .ok _ _ => [request.requestId]
        | .error _ _ => []
    | _ => []

/-- An engine step whose admission round turned `b` before `a`. -/
def Turned (config : EngineConfig) (a b : RequestId) (τ : CoreTransition) : Prop :=
  (∃ incoming, τ.event = .engineStep incoming) ∧ Turns config τ.pre.scheduler a b

/-- Some round since both were added turned `b` before `a`, and none since turned them back. -/
def StandsTurned (config : EngineConfig) (τs : List CoreTransition) (a b : RequestId) : Prop :=
  τs.OpenSince (Turned config a b)
    (fun τ => Turned config b a τ ∨ Accepts config τ a ∨ Accepts config τ b)

section Steps

variable {config : EngineConfig} {tokenizer : Tokenizer} {τs : List CoreTransition}
  {core core' : EngineCore} {event : Event} {messages : List CoreMessage} {a b : RequestId}

theorem standsTurned_append_singleton {τ : CoreTransition} :
    StandsTurned config (τs ++ [τ]) a b ↔ Turned config a b τ ∨ (StandsTurned config τs a b ∧
      ¬ (Turned config b a τ ∨ Accepts config τ a ∨ Accepts config τ b)) :=
  List.openSince_append_singleton

/-- What a step does to the queue: a new request joins, a round turns it, or requests leave. -/
inductive QueueStep (config : EngineConfig) (core core' : EngineCore) : Event → Prop where
  | arrive {request} (hnew : ¬ core.scheduler.Live request.requestId)
      (hfits : request.promptTokenIds.length < config.contextLimit)
      (heq : core'.scheduler.waiting =
        core.scheduler.waiting ++ [RequestState.ofRequest request]) :
      QueueStep config core core' (.command (.add request))
  | round {incoming admitted items m'}
      (hs : Scheduled config core.scheduler admitted items m')
      (heq : core'.scheduler.waiting = admitted.waiting) :
      QueueStep config core core' (.engineStep incoming)
  | leave {e} (hloop : ∀ incoming, e ≠ .engineStep incoming)
      (hno : ∀ request, e = .command (.add request) →
        ∃ error, Rejection config core.scheduler request error)
      (hsub : core'.scheduler.waiting.Sublist core.scheduler.waiting) :
      QueueStep config core core' e

theorem StepDerivation.queue (h : StepDerivation config tokenizer core event messages core') :
    QueueStep config core core' event := by
  cases h with
  | shutdown => exact .leave (by simp) (by simp) (.refl _)
  | accept hnew hfits => exact .arrive hnew hfits rfl
  | reject h => exact .leave (by simp) (by rintro _ ⟨⟩; exact ⟨_, h⟩) (.refl _)
  | abortRunning => exact .leave (by simp) (by simp) (.refl _)
  | abortWaiting => exact .leave (by simp) (by simp) List.eraseP_sublist
  | abortMiss => exact .leave (by simp) (by simp) (.refl _)
  | idle hs => exact .round hs rfl
  | fail hs _ _ _ _ hd => exact .round hs hd.waiting_eq
  | answer hs _ _ _ _ hd => exact .round hs hd.waiting_eq
  | crash hs => exact .round hs rfl
  | leave => exact .leave (by simp) (by simp) (.refl _)

theorem arrivals_of_accepts {request : EngineRequest} (hnew : ¬ core.scheduler.Live request.requestId)
    (hfits : request.promptTokenIds.length < config.contextLimit) :
    arrivals config [⟨core, .command (.add request), messages, core'⟩] = [request.requestId] := by
  rcases addRequest_cases config core.scheduler request with ⟨_, _, hrun⟩ | ⟨e, h, _⟩
  · rw [arrivals, List.flatMap_singleton]
    simp only [hrun]
  · cases h with
    | duplicate hdup => exact absurd hdup hnew
    | tooLong _ hlong => omega

theorem arrivals_of_no_accept
    (hno : ∀ request, event = .command (.add request) →
      ∃ error, Rejection config core.scheduler request error) :
    arrivals config [⟨core, event, messages, core'⟩] = [] := by
  rw [arrivals, List.flatMap_singleton]
  cases event with
  | engineStep => rfl
  | leave => rfl
  | command command =>
      cases command with
      | shutdown => rfl
      | abort => rfl
      | add request =>
          obtain ⟨error, hreject⟩ := hno request rfl
          rcases addRequest_cases config core.scheduler request with ⟨hnew, hfits, _⟩ | ⟨e, _, hrun⟩
          · cases hreject with
            | duplicate hdup => exact absurd hdup hnew
            | tooLong _ hlong => omega
          · simp only [hrun]

theorem not_accepts_of_no_accept
    (hno : ∀ request, event = .command (.add request) →
      ∃ error, Rejection config core.scheduler request error) (id : RequestId) :
    ¬ Accepts config ⟨core, event, messages, core'⟩ id := by
  intro haccept
  obtain ⟨request, hevent, rfl, hnew, hfits⟩ := accepts_iff.mp haccept
  obtain ⟨error, hreject⟩ := hno request hevent
  cases hreject with
  | duplicate hdup => exact hnew hdup
  | tooLong _ hlong => omega

end Steps

/-! ## The order of the queue over a run -/

section Runs

variable {config : EngineConfig} {tokenizer : Tokenizer} {τs : List CoreTransition}
  {core : EngineCore} {a b : RequestId}

/-- The queue is in order of arrival, but for the pairs that stand turned. -/
theorem Trace.pair_waiting (h : Trace config tokenizer τs core) (hloop : core.stopped = false)
    (hadded : [a, b].Sublist (arrivals config τs).dedup)
    (ha : a ∈ core.scheduler.waiting.map (·.requestId))
    (hb : b ∈ core.scheduler.waiting.map (·.requestId)) :
    StandsTurned config τs a b ∨
      [a, b].Sublist (core.scheduler.waiting.map (·.requestId)) := by
  induction h with
  | nil => simp [arrivals] at hadded
  | @snoc τs core event messages core' hrun hstep ih =>
      have hstable := Trace.stable hrun
      have hsettled := hstable hstep.running
      have hnodup := hsettled.waiting_nodup
      have hqueue := (hstep.derivation hstable).1.queue
      rw [standsTurned_append_singleton]
      cases hqueue with
      | @arrive request hnew hfits heq =>
          have hids : core'.scheduler.waiting.map (·.requestId) =
              core.scheduler.waiting.map (·.requestId) ++ [request.requestId] := by
            rw [heq, List.map_append]
            rfl
          have hnotWaiting : request.requestId ∉ core.scheduler.waiting.map (·.requestId) :=
            fun hmem => hnew (Or.inr hmem)
          rw [hids] at ha hb ⊢
          rw [arrivals, List.flatMap_append, ← arrivals, ← arrivals, arrivals_of_accepts hnew hfits,
            List.dedup_append_singleton] at hadded
          rcases List.pair_sublist_append hadded with hold | ⟨hold, hlast⟩ | hlast
          · have hkept := hold.subset
            have hne : ∀ {id}, id ∈ [a, b] → id ≠ request.requestId :=
              fun hmem => of_decide_eq_true (List.mem_filter.mp (hkept hmem)).2
            have hwait : ∀ {id}, id ∈ [a, b] →
                id ∈ core.scheduler.waiting.map (·.requestId) ++ [request.requestId] →
                id ∈ core.scheduler.waiting.map (·.requestId) := by
              intro id hid hmem
              refine (List.mem_append.mp hmem).resolve_right (fun hlast => ?_)
              exact hne hid (List.mem_singleton.mp hlast)
            rcases ih hstep.running (hold.trans List.filter_sublist) (hwait (by simp) ha)
              (hwait (by simp) hb) with hturned | horder
            · refine Or.inl (Or.inr ⟨hturned, ?_⟩)
              have hother : ∀ {id}, id ∈ [a, b] →
                  ¬ Accepts config ⟨core, .command (.add request), messages, core'⟩ id := by
                intro id hid haccept
                obtain ⟨request', hevent, rfl, _⟩ := accepts_iff.mp haccept
                cases hevent
                exact hne hid rfl
              rintro (⟨⟨_, hevent⟩, _⟩ | haccept | haccept)
              · cases hevent
              · exact hother (by simp) haccept
              · exact hother (by simp) haccept
            · exact Or.inr (horder.trans (List.sublist_append_left _ _))
          · obtain rfl := List.mem_singleton.mp hlast
            have hne : a ≠ request.requestId := of_decide_eq_true (List.mem_filter.mp hold).2
            have hfirst := (List.mem_append.mp ha).resolve_right (by simpa using hne)
            exact Or.inr ((List.singleton_sublist.mpr hfirst).append (.refl _))
          · exact absurd hlast.length_le (by simp)
      | @round incoming admitted items m' hs heq =>
          have hno : ∀ request, Event.engineStep incoming = .command (.add request) →
              ∃ error, Rejection config core.scheduler request error := by simp
          rw [arrivals, List.flatMap_append, ← arrivals, ← arrivals, arrivals_of_no_accept hno,
            List.append_nil] at hadded
          rw [heq] at ha hb ⊢
          have hwait : ∀ {id}, id ∈ admitted.waiting.map (·.requestId) →
              id ∈ core.scheduler.waiting.map (·.requestId) := by
            intro id hmem
            obtain ⟨w, hw, rfl⟩ := List.mem_map.mp hmem
            exact List.mem_map.mpr ⟨w, hs.admission.waiting_subset hw, rfl⟩
          rcases ih hstep.running hadded (hwait ha) (hwait hb) with hturned | horder
          · by_cases hback : Turns config core.scheduler b a
            · exact Or.inr (hs.pair_waiting_of_turns hback)
            · refine Or.inl (Or.inr ⟨hturned, ?_⟩)
              rintro (⟨_, hturns⟩ | haccept | haccept)
              · exact hback hturns
              · exact not_accepts_of_no_accept hno _ haccept
              · exact not_accepts_of_no_accept hno _ haccept
          · rcases hs.pair_waiting hsettled horder ha hb with hturns | horder
            · exact Or.inl (Or.inl ⟨⟨incoming, rfl⟩, hturns⟩)
            · exact Or.inr horder
      | leave hother hno hsub =>
          rw [arrivals, List.flatMap_append, ← arrivals, ← arrivals, arrivals_of_no_accept hno,
            List.append_nil] at hadded
          have hids := hsub.map (·.requestId)
          rcases ih hstep.running hadded (hids.subset ha) (hids.subset hb) with hturned | horder
          · refine Or.inl (Or.inr ⟨hturned, ?_⟩)
            rintro (⟨⟨incoming, hevent⟩, _⟩ | haccept | haccept)
            · exact hother incoming hevent
            · exact not_accepts_of_no_accept hno _ haccept
            · exact not_accepts_of_no_accept hno _ haccept
          · exact Or.inr (List.pair_sublist_of_sublist hnodup hids horder ha hb)

/-- Of two waiting requests with prompts of one length, the next call seats the one added
later only after the other one. -/
def NoOvertaking (config : EngineConfig) (τs : List CoreTransition) (s : Scheduler) : Prop :=
  ∀ w ∈ s.waiting, ∀ v ∈ s.waiting, w.promptTokenIds.length = v.promptTokenIds.length →
    [w.requestId, v.requestId].Sublist (arrivals config τs).dedup →
      v.requestId ∈ seatedBy config s → [w.requestId, v.requestId].Sublist (seatedBy config s)

instance (config : EngineConfig) (τs : List CoreTransition) (s : Scheduler) :
    Decidable (NoOvertaking config τs s) := by
  unfold NoOvertaking
  infer_instance

/-- A request overtakes an earlier one with a prompt of the same length only if a round has
turned the two and none has turned them back. -/
theorem overtakes_only_if_turned (h : Trace config tokenizer τs core)
    (hloop : core.stopped = false) {w v : RequestState} (hw : w ∈ core.scheduler.waiting)
    (hv : v ∈ core.scheduler.waiting)
    (hlen : w.promptTokenIds.length = v.promptTokenIds.length)
    (hadded : [w.requestId, v.requestId].Sublist (arrivals config τs).dedup)
    (hseated : v.requestId ∈ seatedBy config core.scheduler) :
    [w.requestId, v.requestId].Sublist (seatedBy config core.scheduler) ∨
      StandsTurned config τs w.requestId v.requestId := by
  have hsettled := Trace.stable h hloop
  rcases Trace.pair_waiting h hloop hadded (List.mem_map.mpr ⟨w, hw, rfl⟩)
    (List.mem_map.mpr ⟨v, hv, rfl⟩) with hturned | horder
  · exact Or.inr hturned
  · refine Or.inl (hsettled.pair_seatedBy ?_ hlen hseated)
    obtain ⟨pair, hsub, heq⟩ := List.sublist_map_iff.mp horder
    obtain ⟨w', rest, rfl, hidw, hrest⟩ := List.map_eq_cons_iff.mp heq.symm
    obtain ⟨v', rest, rfl, hidv, hnil⟩ := List.map_eq_cons_iff.mp hrest
    obtain rfl := List.map_eq_nil_iff.mp hnil
    obtain rfl := List.inj_on_of_nodup_map hsettled.waiting_nodup (hsub.subset (by simp)) hw hidw
    obtain rfl := List.inj_on_of_nodup_map hsettled.waiting_nodup (hsub.subset (by simp)) hv hidv
    exact hsub

end Runs

def twoSeatConfig : EngineConfig :=
  { tightConfig with maxNumSeqs := 2, maxNumSeqs_pos := smallConfig.blockSize_pos }

/-- While `r` holds two blocks, `a` is deferred and `x` takes the last seat before `b` is
reached. Then `r` ends. -/
def overtakingEvents : List Event :=
  [.command (.add (requestOf "r" [10, 11])), .engineStep [answerOf 1 [("r", 20)]],
    .command (.add (requestOf "a" [12, 13, 14])), .command (.add (requestOf "x" [15])),
    .command (.add (requestOf "b" [16, 17, 18])),
    .engineStep [answerOf 2 [("r", 1), ("x", 21)]]]

theorem overtaking_two_seats : ∃ τs core,
    Trace twoSeatConfig characterTokenizer τs core ∧ core.stopped = false ∧
      ¬ NoOvertaking twoSeatConfig τs core.scheduler := by
  have hsome : (drive twoSeatConfig characterTokenizer overtakingEvents).map
      (fun run => (run.2.stopped, decide (NoOvertaking twoSeatConfig run.1 run.2.scheduler))) =
      some (false, false) := by decide +kernel
  obtain ⟨⟨τs, core⟩, hdrive, hrun⟩ := Option.map_eq_some_iff.mp hsome
  obtain ⟨hloop, hovertaking⟩ := Prod.mk.inj hrun
  exact ⟨τs, core, drive_trace hdrive (by decide), hloop, of_decide_eq_false hovertaking⟩

/-- The two requests stood in order until the last round turned them. -/
theorem overtakes_only_if_turned_two_seats : ∃ τs core w v,
    Trace twoSeatConfig characterTokenizer τs core ∧ core.stopped = false ∧
      w ∈ core.scheduler.waiting ∧ v ∈ core.scheduler.waiting ∧
      ([w.requestId, v.requestId].Sublist (seatedBy twoSeatConfig core.scheduler) ∨
        StandsTurned twoSeatConfig τs w.requestId v.requestId) := by
  have hsome : (drive twoSeatConfig characterTokenizer overtakingEvents).map
      (fun run => (run.2.stopped, run.2.scheduler.waiting.map
        (fun w => (w.requestId, w.promptTokenIds.length)), (arrivals twoSeatConfig run.1).dedup,
        seatedBy twoSeatConfig run.2.scheduler)) =
      some (false, [("b", 3), ("a", 3)], ["r", "a", "x", "b"], ["b"]) := by decide +kernel
  obtain ⟨⟨τs, core⟩, hdrive, hrun⟩ := Option.map_eq_some_iff.mp hsome
  simp only [Prod.mk.injEq] at hrun
  obtain ⟨hloop, hwaiting, harrivals, hseated⟩ := hrun
  have htrace := drive_trace hdrive (by decide)
  obtain ⟨v, rest, hcons, hv, hrest⟩ := List.map_eq_cons_iff.mp hwaiting
  obtain ⟨w, rest, rfl, hw, _⟩ := List.map_eq_cons_iff.mp hrest
  obtain ⟨hidv, hlenv⟩ := Prod.mk.inj hv
  obtain ⟨hidw, hlenw⟩ := Prod.mk.inj hw
  have hmemw : w ∈ core.scheduler.waiting := by simp [hcons]
  have hmemv : v ∈ core.scheduler.waiting := by simp [hcons]
  refine ⟨τs, core, w, v, htrace, hloop, hmemw, hmemv,
    overtakes_only_if_turned htrace hloop hmemw hmemv (hlenw.trans hlenv.symm) ?_ ?_⟩
  · rw [harrivals, hidw, hidv]
    decide
  · rw [hseated, hidv]
    decide

end EngineCore

end MiniVLLM
