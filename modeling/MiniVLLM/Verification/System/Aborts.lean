import MiniVLLM.Verification.System.Steps

/-! # Where ABORTs are sent

The coordinator remembers one rank for each id. A finished output removes the entry of its
id, whichever ADD of that id it belongs to. -/

namespace MiniVLLM

namespace System

/-- The rank and the submission of an ADD of the id that was forwarded. -/
def forwardOf (id : RequestId) : Observation → Option (ℕ × Option ℕ)
  | .forwarded rank command =>
      match command.value with
      | .add request => if request.requestId = id then some (rank, command.submission) else none
      | _ => none
  | _ => none

def latestAdd (id : RequestId) (τs : List SystemTransition) : Option (ℕ × Option ℕ) :=
  ((Run.outputs τs).filterMap (forwardOf id)).getLast?

def finishOf : Observation → Option (Option ℕ)
  | .drained _ event =>
      match event.value with
      | .output output => if output.finished then some event.submission else none
      | .metrics _ => none
  | _ => none

def drainedFinishes (τs : List SystemTransition) : List (Option ℕ) :=
  (Run.outputs τs).filterMap finishOf

/-- An ABORT goes to the rank of the latest ADD of its id, as long as the finished output of that
ADD was not drained. -/
def AbortsRouted (config : EngineConfig) (τs : List SystemTransition) (s : System) : Prop :=
  ∀ id rank submission, latestAdd id τs = some (rank, submission) →
    submission ∉ drainedFinishes τs →
    s.coordinator.handleCommand config (.abort id) = (s.coordinator, some rank)

/-- The step drains no finished output of an ADD while a later one of the same id is
outstanding. -/
def DrainsLatest (front : List SystemTransition) (τ : SystemTransition) : Prop :=
  ∀ rank submission output, .drained rank ⟨.output output, submission⟩ ∈ τ.out →
    output.finished = true → ∀ rank' latest, latestAdd output.requestId front = some (rank', latest) →
    latest = submission ∨ latest ∈ drainedFinishes front

section Step

variable {config : EngineConfig} {promptTokenizer : PromptTokenizer} {tokenizer : Tokenizer}
  {s s' : System} {event : Event} {out : List Observation} {τs : List SystemTransition}

theorem abortsRouted_iff : AbortsRouted config τs s ↔ ∀ id rank submission,
    latestAdd id τs = some (rank, submission) → submission ∉ drainedFinishes τs →
    s.coordinator.requestRanks.get? id = some rank := by
  simp [AbortsRouted, DPCoordinator.handleCommand]

theorem latestAdd_append_singleton (id : RequestId) :
    latestAdd id (τs ++ [⟨s, event, out, s'⟩]) =
      ((out.filterMap (forwardOf id)).getLast?).or (latestAdd id τs) := by
  simp [latestAdd, List.getLast?_append]

theorem drainedFinishes_append_singleton :
    drainedFinishes (τs ++ [⟨s, event, out, s'⟩]) = drainedFinishes τs ++ out.filterMap finishOf := by
  simp [drainedFinishes]

theorem AbortsRouted.keep (h : AbortsRouted config τs s)
    (hforward : ∀ id, out.filterMap (forwardOf id) = []) (hfinish : out.filterMap finishOf = [])
    (hranks : s'.coordinator.requestRanks = s.coordinator.requestRanks) :
    AbortsRouted config (τs ++ [⟨s, event, out, s'⟩]) s' := by
  rw [abortsRouted_iff] at h ⊢
  intro id rank submission hlatest hdrained
  rw [latestAdd_append_singleton, hforward] at hlatest
  rw [drainedFinishes_append_singleton, hfinish, List.append_nil] at hdrained
  rw [hranks]
  exact h id rank submission hlatest hdrained

theorem forwardOf_deliveries (id : RequestId) (client : Client) (outputEvent : Tagged OutputEvent) :
    (deliveries client outputEvent).filterMap (forwardOf id) = [] ∧
      (deliveries client outputEvent).filterMap finishOf = [] := by
  unfold deliveries
  split
  · exact ⟨rfl, rfl⟩
  · split <;> exact ⟨rfl, rfl⟩

theorem forwardOf_sent (id : RequestId) (rank : ℕ) (messages : List CoreMessage) :
    (messages.map (Observation.sent rank)).filterMap (forwardOf id) = [] ∧
      (messages.map (Observation.sent rank)).filterMap finishOf = [] := by
  simp [List.filterMap_map, Function.comp_def, forwardOf, finishOf]

/-- A forwarded command leaves the entry of its ADD, or is no ADD. -/
theorem AbortsRouted.forward (h : AbortsRouted config τs s) {command : Tagged EngineCommand}
    {coordinator : DPCoordinator} {rank : ℕ}
    (hhandle : s.coordinator.handleCommand config command.value = (coordinator, some rank))
    (hcoordinator : s'.coordinator = coordinator) :
    AbortsRouted config (τs ++ [⟨s, event, [.forwarded rank command], s'⟩]) s' := by
  cases hvalue : command.value with
  | shutdown =>
      rw [hvalue] at hhandle
      cases hhandle
  | abort id =>
      rw [hvalue] at hhandle
      obtain ⟨rfl, _⟩ := Prod.mk.inj hhandle
      exact h.keep (fun id' => by simp [forwardOf, hvalue]) rfl (by rw [hcoordinator])
  | add request =>
      rw [hvalue] at hhandle
      obtain ⟨rfl, hrank⟩ := Prod.mk.inj hhandle
      obtain rfl := Option.some.inj hrank
      rw [abortsRouted_iff] at h ⊢
      intro id rank' submission hlatest hdrained
      rw [latestAdd_append_singleton] at hlatest
      rw [drainedFinishes_append_singleton] at hdrained
      rw [hcoordinator, Dict.get?_set]
      by_cases hid : id = request.requestId
      · subst hid
        have hsame : s.coordinator.leastLoaded config = rank' ∧ command.submission = submission := by
          simpa [forwardOf, hvalue] using hlatest
        rw [if_pos rfl, hsame.1]
      · rw [if_neg hid]
        refine h id rank' submission ?_ (fun hmem => hdrained (List.mem_append_left _ hmem))
        simpa [forwardOf, hvalue, Ne.symm hid] using hlatest

theorem AbortsRouted.drained (h : AbortsRouted config τs s) {rank : ℕ} {output : RequestOutput}
    {submission : Option ℕ} (hfinished : output.finished = true)
    (hranks : s'.coordinator.requestRanks =
      s.coordinator.requestRanks.erase output.requestId)
    (hlatest : DrainsLatest τs ⟨s, event, [.drained rank ⟨.output output, submission⟩], s'⟩) :
    AbortsRouted config
      (τs ++ [⟨s, event, [.drained rank ⟨.output output, submission⟩], s'⟩]) s' := by
  rw [abortsRouted_iff] at h ⊢
  intro id rank' latest hadd hdrained
  have hadd' : latestAdd id τs = some (rank', latest) := by
    simpa [latestAdd_append_singleton, forwardOf] using hadd
  have hfinishes : [Observation.drained rank ⟨.output output, submission⟩].filterMap finishOf =
      [submission] := by simp [finishOf, hfinished]
  rw [drainedFinishes_append_singleton, hfinishes, List.mem_append, not_or,
    List.mem_singleton] at hdrained
  have hne : id ≠ output.requestId := by
    rintro rfl
    rcases hlatest rank submission output (by simp) hfinished rank' latest hadd' with hsame | hmem
    · exact hdrained.2 hsame
    · exact hdrained.1 hmem
  rw [hranks, Dict.get?_erase_of_ne _ hne]
  exact h id rank' latest hadd' hdrained.1

/-- A step keeps ABORTs on their way, unless it drains an output of an older ADD. -/
theorem AbortsRouted.step (h : AbortsRouted config τs s)
    (hd : StepDerivation config promptTokenizer tokenizer s event out s')
    (hlatest : DrainsLatest τs ⟨s, event, out, s'⟩) :
    AbortsRouted config (τs ++ [⟨s, event, out, s'⟩]) s' := by
  cases hd with
  | quietCall => exact h.keep (fun _ => rfl) rfl rfl
  | sendingCall => exact h.keep (fun _ => rfl) rfl (by simp)
  | forward _ _ _ hhandle => exact h.forward hhandle rfl
  | @keepBack command commands coordinator _ _ _ hhandle =>
      refine h.keep (fun _ => rfl) rfl ?_
      cases hvalue : command.value with
      | add request =>
          rw [hvalue] at hhandle
          cases hhandle
      | abort id =>
          rw [hvalue] at hhandle
          obtain ⟨rfl, _⟩ := Prod.mk.inj hhandle
          rfl
      | shutdown =>
          rw [hvalue] at hhandle
          obtain ⟨rfl, _⟩ := Prod.mk.inj hhandle
          rfl
  | @drain rank event outputs =>
      obtain ⟨value, submission⟩ := event
      cases value with
      | metrics => exact h.keep (fun _ => rfl) rfl rfl
      | output output =>
          cases hfinished : output.finished with
          | false =>
              refine h.keep (fun _ => rfl) (by simp [finishOf, hfinished]) ?_
              simp [DPCoordinator.drainOutput, hfinished]
          | true =>
              refine h.drained hfinished ?_ hlatest
              simp [DPCoordinator.drainOutput, hfinished]
  | coordinatorLeave =>
      refine h.keep (fun _ => rfl) rfl ?_
      rw [(broadcast_kept _ _).2.2.1]
  | core =>
      exact h.keep (fun id => (forwardOf_sent id _ _).1) (forwardOf_sent "" _ _).2 (by simp [onRank])
  | route =>
      exact h.keep (fun id => (forwardOf_deliveries id _ _).1) (forwardOf_deliveries "" _ _).2 rfl

/-- Draining an output of an older ADD loses the way of ABORTs for the latest one. -/
theorem StepDerivation.loses
    (hd : StepDerivation config promptTokenizer tokenizer s event out s')
    (hstale : ¬ DrainsLatest τs ⟨s, event, out, s'⟩) :
    ¬ AbortsRouted config (τs ++ [⟨s, event, out, s'⟩]) s' := by
  unfold DrainsLatest at hstale
  push Not at hstale
  obtain ⟨rank, submission, output, hmem, hfinished, rank', latest, hadd, hne, hdrained⟩ := hstale
  intro h
  rw [abortsRouted_iff] at h
  cases hd with
  | drain =>
      obtain ⟨rfl, rfl⟩ : rank = _ ∧ (⟨.output output, submission⟩ : Tagged OutputEvent) = _ := by
        simpa using hmem
      have hget := h output.requestId rank' latest
        (by simpa [latestAdd_append_singleton, forwardOf] using hadd)
        (by simpa [drainedFinishes_append_singleton, finishOf, hfinished] using ⟨hdrained, hne⟩)
      simp [DPCoordinator.drainOutput, hfinished] at hget
  | core => simp at hmem
  | route =>
      obtain ⟨_, _, _, _, hobservation⟩ := mem_deliveries hmem
      cases hobservation
  | _ => simp at hmem

end Step

/-! ## Runs -/

section Runs

variable {config : EngineConfig} {promptTokenizer : PromptTokenizer} {tokenizer : Tokenizer}
  {s : System} {τs : List SystemTransition}

theorem SystemRun.abortsRouted (h : SystemRun config promptTokenizer tokenizer τs s)
    (hlatest : ∀ front τ back, τs = front ++ τ :: back → DrainsLatest front τ) :
    AbortsRouted config τs s := by
  induction h with
  | nil => exact abortsRouted_iff.mpr (by simp [latestAdd])
  | @snoc τs s event out s' hrun hstep ih =>
      refine (ih ?_).step (SystemRun.derivation hrun hstep) (hlatest τs _ [] rfl)
      intro front τ back hsplit
      exact hlatest front τ (back ++ [⟨s, event, out, s'⟩]) (by simp [hsplit])

/-- The way of ABORTs is never lost in a run exactly if no finished output of an ADD is drained
while a later ADD of its id is outstanding; and then every ABORT for an outstanding ADD is
forwarded to the rank of that ADD. -/
theorem aborts_routed_iff (h : SystemRun config promptTokenizer tokenizer τs s) :
    ((∀ front τ back, τs = front ++ τ :: back → AbortsRouted config (front ++ [τ]) τ.post) ↔
      ∀ front τ back, τs = front ++ τ :: back → DrainsLatest front τ) ∧
    ((∀ front τ back, τs = front ++ τ :: back → DrainsLatest front τ) →
      ∀ front τ back, τs = front ++ τ :: back → ∀ id tag commands rank submission,
        τ.event = .coordinate → τ.pre.commands = ⟨.abort id, tag⟩ :: commands →
        latestAdd id front = some (rank, submission) → submission ∉ drainedFinishes front →
        τ.out = [.forwarded rank ⟨.abort id, tag⟩]) := by
  refine ⟨⟨fun hrouted front τ back hsplit => ?_, fun hlatest front τ back hsplit => ?_⟩, ?_⟩
  · obtain ⟨hbefore, hstep⟩ := Run.of_split h hsplit
    by_contra hstale
    exact (SystemRun.derivation hbefore hstep).loses hstale (hrouted front τ back hsplit)
  · obtain ⟨hbefore, hstep⟩ := Run.of_split h hsplit
    refine SystemRun.abortsRouted (.snoc hbefore hstep) ?_
    intro front' τ' back' hsplit'
    refine hlatest front' τ' (back' ++ back) ?_
    rw [hsplit, ← List.singleton_append, ← List.append_assoc]
    simpa using congrArg (· ++ back) hsplit'
  · intro hlatest front τ back hsplit id tag commands rank submission hevent hcommands hadd
      hdrained
    obtain ⟨hbefore, hstep⟩ := Run.of_split h hsplit
    have hrouted : AbortsRouted config front τ.pre := by
      refine SystemRun.abortsRouted hbefore ?_
      intro front' τ' back' hsplit'
      exact hlatest front' τ' (back' ++ τ :: back) (by simp [hsplit, hsplit'])
    have hhandle := hrouted id rank submission hadd hdrained
    have hd := SystemRun.derivation hbefore hstep
    generalize hout : τ.out = out at hd ⊢
    generalize hpost : τ.post = post at hd
    generalize τ.event = systemEvent at hd hevent
    cases hd with
    | forward _ _ hnext hforward =>
        obtain ⟨rfl, rfl⟩ := List.cons.inj (hcommands.symm.trans hnext)
        rw [hhandle] at hforward
        obtain ⟨_, hrank⟩ := Prod.mk.inj hforward
        rw [Option.some.inj hrank]
    | keepBack _ _ hnext hkept =>
        obtain ⟨rfl, rfl⟩ := List.cons.inj (hcommands.symm.trans hnext)
        rw [hhandle] at hkept
        cases hkept
    | @core _ coreEvent => cases coreEvent <;> cases hevent
    | _ => cases hevent

end Runs

def nextAbort (s : System) : Option (RequestId × Option ℕ) :=
  match s.commands with
  | ⟨.abort id, tag⟩ :: _ => some (id, tag)
  | _ => none

theorem commands_of_nextAbort {s : System} {id : RequestId} {tag : Option ℕ}
    (h : nextAbort s = some (id, tag)) : ∃ commands, s.commands = ⟨.abort id, tag⟩ :: commands := by
  unfold nextAbort at h
  split at h
  · rename_i commands hcommands
    obtain ⟨rfl, rfl⟩ := Prod.mk.inj (Option.some.inj h)
    exact ⟨commands, hcommands⟩
  · cases h

def abortedEvents : List Event :=
  [submits "a", .coordinate, .command 0, .call (.abort "a"), .coordinate, .command 0, .drain 0]

theorem aborts_routed_iff_aborted : ∃ τs s,
    SystemRun twoRanks (.ofTokenizer characterTokenizer) characterTokenizer τs s ∧
      (latestAdd "a" τs, drainedFinishes τs) = (some (0, some 0), [some 0]) ∧
      ((∀ front τ back, τs = front ++ τ :: back → AbortsRouted twoRanks (front ++ [τ]) τ.post) ↔
        ∀ front τ back, τs = front ++ τ :: back → DrainsLatest front τ) := by
  have hsome : (drive twoRanks characterTokenizer abortedEvents).map
      (fun run => (latestAdd "a" run.1, drainedFinishes run.1)) =
        some (some (0, some 0), [some 0]) := by decide +kernel
  obtain ⟨⟨τs, s⟩, hdrive, hseen⟩ := Option.map_eq_some_iff.mp hsome
  have hrun := drive_run hdrive (by decide)
  exact ⟨τs, s, hrun, hseen, (aborts_routed_iff hrun).1⟩

/-- A generator is closed early and its id submitted again. The finished output of the first
ADD is drained after the second one went to the other rank. -/
def resubmittedEvents : List Event :=
  [submits "a", .coordinate, .command 0, .call (.abort "a"), .call (.finishStream "a"),
    submits "a", .coordinate, .coordinate, .command 0, .drain 0, .call (.abort "a")]

/-- The ABORT of the second ADD is dropped. -/
theorem resubmitted_abort_dropped :
    ¬ ∀ front τ, SystemRun twoRanks (.ofTokenizer characterTokenizer) characterTokenizer
      (front ++ [τ]) τ.post → ∀ id tag commands rank submission,
        τ.event = .coordinate → τ.pre.commands = ⟨.abort id, tag⟩ :: commands →
        latestAdd id front = some (rank, submission) → submission ∉ drainedFinishes front →
        τ.out = [.forwarded rank ⟨.abort id, tag⟩] := by
  intro h
  have hsome : (drive twoRanks characterTokenizer resubmittedEvents).map
      (fun run => decide (latestAdd "a" run.1 = some (1, some 1) ∧ drainedFinishes run.1 = [some 0] ∧
        nextAbort run.2 = some ("a", none) ∧ run.2.coordinator.requestRanks.get? "a" = none ∧
        run.2.coordinator.stopped = false)) = some true := by decide +kernel
  obtain ⟨⟨front, s⟩, hdrive, hseen⟩ := Option.map_eq_some_iff.mp hsome
  obtain ⟨hlatest, hdrained, hnext, hrank, hrunning⟩ := of_decide_eq_true hseen
  obtain ⟨commands, hcommands⟩ := commands_of_nextAbort hnext
  have hrun := drive_run hdrive (by decide)
  have hcoordinated : Coordinated twoRanks := by decide
  have hstep : Step twoRanks (.ofTokenizer characterTokenizer) characterTokenizer s .coordinate []
      { s with commands := commands } :=
    ⟨trivial, by simp_all [step, coordinate, DPCoordinator.handleCommand]⟩
  have hout := h front ⟨s, .coordinate, [], { s with commands := commands }⟩ (.snoc hrun hstep)
    "a" none commands 1 (some 1) rfl hcommands hlatest (by simp [hdrained])
  cases hout

end System

end MiniVLLM
