import MiniVLLM.Verification.Engine.Streams

/-! # The two exits of the loop

Every ADD is owed one finished output. The books are kept per id, so that they also hold
when an id is added again. The exit by exception settles them; the exit after a SHUTDOWN
does not. -/

namespace MiniVLLM

open KVCacheManager Scheduler

namespace EngineCore

def finishedCount (id : RequestId) (messages : List CoreMessage) : ℕ :=
  (outputsFor id messages).countP (·.finished)

/-- A live request is owed one finished output. -/
def owed (s : Scheduler) (id : RequestId) : ℕ := if (s.request? id).isSome then 1 else 0

/-- The step ended in the `except` clause of `run()`. -/
def Crashes (τ : CoreTransition) : Prop :=
  (∃ incoming, τ.event = .engineStep incoming) ∧ τ.post.stopped = true

section Step

variable {config : EngineConfig} {tokenizer : Tokenizer} {id : RequestId}
  {core core' : EngineCore} {event : Event} {messages : List CoreMessage}

@[simp] theorem finishedCount_nil : finishedCount id [] = 0 := rfl

@[simp] theorem finishedCount_append (ms ms' : List CoreMessage) :
    finishedCount id (ms ++ ms') = finishedCount id ms + finishedCount id ms' := by
  simp [finishedCount]

/-- Whatever a step does, the outputs it finishes and the requests it keeps are those it
found and those it was given. -/
theorem RequestStep.balance (messages : List CoreMessage) {r? r'? : Option RequestState}
    {items : List WorkerItem}
    {outs : List RequestOutput} (h : RequestStep config tokenizer id core core' event r? items outs r'?)
    (hrunning : core.stopped = false) :
    (Crashes ⟨core, event, messages, core'⟩ →
      outs.countP (·.finished) =
        (if r?.isSome then 1 else 0) + (addedIds [⟨core, event, messages, core'⟩]).count id) ∧
    (¬ Crashes ⟨core, event, messages, core'⟩ →
      outs.countP (·.finished) + (if r'?.isSome then 1 else 0) =
        (if r?.isSome then 1 else 0) + (addedIds [⟨core, event, messages, core'⟩]).count id) := by
  cases h with
  | keep hadd habort hloop =>
      have hnone : (addedIds [⟨core, event, messages, core'⟩]).count id = 0 := by
        rw [List.count_eq_zero]
        intro hid
        cases event with
        | command command =>
            cases command with
            | add request => exact hadd request rfl (by simpa [addedIds, eq_comm] using hid)
            | abort => simp [addedIds] at hid
            | shutdown => simp [addedIds] at hid
        | engineStep => simp [addedIds] at hid
        | leave => simp [addedIds] at hid
      rw [hnone]
      refine ⟨?_, by simp⟩
      rintro ⟨⟨incoming, hevent⟩, hstop⟩
      cases r? with
      | none => rfl
      | some r =>
          have hsame := hloop (by simp) incoming hevent
          rw [hrunning] at hsame
          exact absurd (hsame.symm.trans hstop) (by decide)
  | accept hid => simp [Crashes, addedIds, hid]
  | reject hid h => simp [Crashes, addedIds, hid, errorOutput, Nat.add_comm]
  | abort => simp [Crashes, addedIds, abortOutput]
  | answer hloop _ _ _ _ _ houtcome =>
      have hloop' : core'.stopped = false := hloop.trans hrunning
      cases houtcome <;> simp [Crashes, addedIds, hloop', tokenOutput]
  | fail hloop =>
      have hloop' : core'.stopped = false := hloop.trans hrunning
      simp [Crashes, addedIds, hloop', errorOutput]
  | crash hstop => simp [Crashes, addedIds, hstop, errorOutput]

end Step

/-! ## The books of a run -/

section Runs

variable {config : EngineConfig} {tokenizer : Tokenizer} {τs : List CoreTransition}
  {core : EngineCore}

theorem addedIds_append (τs τs' : List CoreTransition) :
    addedIds (τs ++ τs') = addedIds τs ++ addedIds τs' := by
  simp [addedIds]

theorem Trace.stopped_of_crash (h : Trace config tokenizer τs core) {τ : CoreTransition}
    (hτ : τ ∈ τs) (hcrash : Crashes τ) : core.stopped = true := by
  induction h with
  | nil => simp at hτ
  | @snoc τs core event messages core' _ hstep ih =>
      rcases List.mem_append.mp hτ with hτ | hτ
      · exact absurd (hstep.running.symm.trans (ih hτ)) (by decide)
      · rw [List.mem_singleton] at hτ
        subst hτ
        exact hcrash.2

/-- Before an exception, finished outputs and live requests add up to the ADDs handled; the
exception replaces the live requests by finished outputs. -/
theorem Trace.balance (h : Trace config tokenizer τs core) (id : RequestId) :
    ((∃ τ ∈ τs, Crashes τ) → finishedCount id (Run.outputs τs) = (addedIds τs).count id) ∧
    ((¬ ∃ τ ∈ τs, Crashes τ) → finishedCount id (Run.outputs τs) + owed core.scheduler id =
      (addedIds τs).count id) := by
  induction h with
  | nil => simp [owed, request?, init, Scheduler.init, addedIds]
  | @snoc τs core event messages core' hrun hstep ih =>
      have hcalm : ¬ ∃ τ ∈ τs, Crashes τ := by
        rintro ⟨τ, hτ, hcrash⟩
        exact absurd (hstep.running.symm.trans (Trace.stopped_of_crash hrun hτ hcrash)) (by decide)
      have hshare := (hstep.derivation (Trace.stable hrun)).1.request
        (Trace.stable hrun hstep.running) id
      obtain ⟨hends, hgoes⟩ := RequestStep.balance messages hshare hstep.running
      have hbooks := ih.2 hcalm
      have hcrashes : (∃ τ ∈ τs ++ [⟨core, event, messages, core'⟩], Crashes τ) ↔
          Crashes ⟨core, event, messages, core'⟩ := by
        constructor
        · rintro ⟨τ, hτ, hcrash⟩
          rcases List.mem_append.mp hτ with hτ | hτ
          · exact absurd ⟨τ, hτ, hcrash⟩ hcalm
          · rwa [← List.mem_singleton.mp hτ]
        · exact fun hcrash => ⟨_, by simp, hcrash⟩
      rw [hcrashes]
      simp only [Run.outputs_append, Run.outputs_singleton, finishedCount_append, addedIds_append,
        List.count_append, owed] at hbooks ⊢
      refine ⟨fun hcrash => ?_, fun hcrash => ?_⟩
      · have hstep' := hends hcrash
        simp only [finishedCount] at hbooks ⊢
        omega
      · have hstep' := hgoes hcrash
        simp only [finishedCount] at hbooks ⊢
        omega

theorem hasRequests_eq_false_iff {s : Scheduler} :
    s.hasRequests = false ↔ ∀ id, s.request? id = none := by
  constructor
  · intro hnone id
    simp only [hasRequests, Bool.or_eq_false_iff, Bool.not_eq_false', List.isEmpty_iff] at hnone
    simp [request?, hnone.1, Dict.get?, hnone.2]
  · intro hnone
    by_contra hsome
    have hlive : s.waiting ≠ [] ∨ s.running.entries ≠ [] := by
      simpa [hasRequests, imp_iff_not_or] using hsome
    rcases hlive with hwait | hrun
    · obtain ⟨w, hw⟩ := List.exists_mem_of_ne_nil _ hwait
      have hfind := hnone w.requestId
      cases hr : s.running.get? w.requestId with
      | some r => simp [request?, hr] at hfind
      | none =>
          rw [request?_of_not_running (Dict.get?_eq_none_iff.mp hr), Option.map_eq_none_iff,
            List.find?_eq_none] at hfind
          simpa using hfind w hw
    · obtain ⟨⟨key, r⟩, hentry⟩ := List.exists_mem_of_ne_nil _ hrun
      have hr : s.running.get? key = some r := Dict.get?_eq_some_iff.mpr hentry
      simpa [request?, hr] using hnone key

/-- At the end of a run, above all one that has left the loop, every ADD handled has got exactly
one finished output if the run ended in an exception or with nothing waiting or running, and
only then. -/
theorem everyone_finished_iff (h : Trace config tokenizer τs core) :
    (∀ id, finishedCount id (Run.outputs τs) = (addedIds τs).count id) ↔
      (∃ τ ∈ τs, Crashes τ) ∨ core.scheduler.hasRequests = false := by
  by_cases hcrash : ∃ τ ∈ τs, Crashes τ
  · exact iff_of_true (fun id => (Trace.balance h id).1 hcrash) (Or.inl hcrash)
  · have hbooks := fun id => (Trace.balance h id).2 hcrash
    rw [or_iff_right hcrash, hasRequests_eq_false_iff]
    refine forall_congr' fun id => ?_
    have hid := hbooks id
    cases hr : core.scheduler.request? id with
    | none => simpa [owed, hr] using hid
    | some r =>
        simp only [owed, hr, Option.isSome_some, if_true] at hid
        simp only [reduceCtorEq, iff_false]
        omega

end Runs

/-- Two ADDs and a SHUTDOWN that finds one of them decoding, the other waiting. -/
def strandedEvents : List Event :=
  [.command (.add (requestOf "a" [10, 11])), .engineStep [answerOf 1 [("a", 20)]],
    .command (.add (requestOf "b" [13])), .command .shutdown, .leave]

theorem everyone_finished_iff_stranded : ∃ τs core,
    Trace smallConfig characterTokenizer τs core ∧ core.stopped = true ∧
      ((∀ id, finishedCount id (Run.outputs τs) = (addedIds τs).count id) ↔
        (∃ τ ∈ τs, Crashes τ) ∨ core.scheduler.hasRequests = false) := by
  have hsome : (drive smallConfig characterTokenizer strandedEvents).map
      (fun run => run.2.stopped) = some true := by decide +kernel
  obtain ⟨⟨τs, core⟩, hdrive, hstop⟩ := Option.map_eq_some_iff.mp hsome
  have htrace : Trace smallConfig characterTokenizer τs core := drive_trace hdrive (by decide)
  exact ⟨τs, core, htrace, hstop, everyone_finished_iff htrace⟩

/-- Neither of the two requests is ever finished. -/
theorem shutdown_strands :
    ¬ ∀ (config : EngineConfig) (tokenizer : Tokenizer) (τs : List CoreTransition)
      (core : EngineCore), Trace config tokenizer τs core → core.stopped = true →
      ∀ id, finishedCount id (Run.outputs τs) = (addedIds τs).count id := by
  intro h
  have hsome : (drive smallConfig characterTokenizer strandedEvents).map
      (fun run => (run.2.stopped, finishedCount "a" (Run.outputs run.1),
        (addedIds run.1).count "a")) = some (true, 0, 1) := by decide +kernel
  obtain ⟨⟨τs, core⟩, hdrive, hrun⟩ := Option.map_eq_some_iff.mp hsome
  simp only [Prod.mk.injEq] at hrun
  obtain ⟨hstop, hfinished, hadded⟩ := hrun
  have hone := h _ _ _ _ (drive_trace hdrive (by decide)) hstop "a"
  omega

end EngineCore

end MiniVLLM
