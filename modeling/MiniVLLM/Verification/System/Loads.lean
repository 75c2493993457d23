import MiniVLLM.Verification.System.Steps

/-! # The coordinator's loads

The load of a rank counts ADDs on their way in against finished outputs on their way out. A
core finishes no more than it was given, so the books of the queues in between keep the load
from going below zero. -/

namespace MiniVLLM

open EngineCore (CoreTransition addedIds finishedCount)

namespace System

def isAdd : EngineCommand → Bool
  | .add _ => true
  | _ => false

def isFinished : OutputEvent → Bool
  | .output output => output.finished
  | .metrics _ => false

def forwardsAdd (rank : ℕ) : Observation → Bool
  | .forwarded rank' command => rank' = rank && isAdd command.value
  | _ => false

def drainsFinished (rank : ℕ) : Observation → Bool
  | .drained rank' event => rank' = rank && isFinished event.value
  | _ => false

def addsForwarded (rank : ℕ) (τs : List SystemTransition) : ℕ :=
  (Run.outputs τs).countP (forwardsAdd rank)

def finishedDrained (rank : ℕ) (τs : List SystemTransition) : ℕ :=
  (Run.outputs τs).countP (drainsFinished rank)

def addsIn (commands : List (Tagged EngineCommand)) : ℕ :=
  commands.countP (fun command => isAdd command.value)

def finishedIn (events : List (Tagged OutputEvent)) : ℕ :=
  events.countP (fun event => isFinished event.value)

def finishedOf (history : List CoreTransition) : ℕ :=
  (outputsOf (Run.outputs history)).countP (·.finished)

/-! ## A core finishes no more than it was given -/

theorem count_finished_eq (id : RequestId) (outputs : List RequestOutput) :
    ((outputs.filter (·.finished)).map (·.requestId)).count id =
      (outputs.filter (fun output => output.requestId = id)).countP (·.finished) := by
  induction outputs with
  | nil => rfl
  | cons output outputs ih =>
      by_cases hfinished : output.finished = true
      · by_cases hid : output.requestId = id
        · simp [hfinished, hid, ih]
        · simp [hfinished, hid, ih]
      · by_cases hid : output.requestId = id
        · simp [hfinished, hid, ih]
        · simp [hfinished, hid, ih]

theorem finishedOf_le {config : EngineConfig} {tokenizer : Tokenizer}
    {history : List CoreTransition} {core : EngineCore}
    (h : EngineCore.Trace config tokenizer history core) :
    finishedOf history ≤ (addedIds history).length := by
  have hsub : (((outputsOf (Run.outputs history)).filter (·.finished)).map (·.requestId)).Subperm
      (addedIds history) := by
    rw [List.subperm_iff_count]
    intro id
    have hbooks := EngineCore.Trace.balance h id
    rw [count_finished_eq]
    by_cases hcrash : ∃ τ ∈ history, EngineCore.Crashes τ
    · exact (hbooks.1 hcrash).le
    · exact Nat.le.intro (hbooks.2 hcrash)
  have hle := hsub.length_le
  rwa [List.length_map, ← List.countP_eq_length_filter] at hle

/-! ## The queues of a rank -/

section Queues

variable {config : EngineConfig} {promptTokenizer : PromptTokenizer} {tokenizer : Tokenizer}
  {s s' : System} {event : Event} {out : List Observation} {rank : ℕ}

@[simp] theorem forwardsAdd_sent (target : ℕ) (messages : List CoreMessage) :
    (messages.map (Observation.sent target)).countP (forwardsAdd rank) = 0 := by
  simp [List.countP_map, Function.comp_def, forwardsAdd]

@[simp] theorem drainsFinished_sent (target : ℕ) (messages : List CoreMessage) :
    (messages.map (Observation.sent target)).countP (drainsFinished rank) = 0 := by
  simp [List.countP_map, Function.comp_def, drainsFinished]

@[simp] theorem forwardsAdd_deliveries (client : Client) (outputEvent : Tagged OutputEvent) :
    (deliveries client outputEvent).countP (forwardsAdd rank) = 0 := by
  unfold deliveries
  split
  · rfl
  · split <;> rfl

@[simp] theorem drainsFinished_deliveries (client : Client) (outputEvent : Tagged OutputEvent) :
    (deliveries client outputEvent).countP (drainsFinished rank) = 0 := by
  unfold deliveries
  split
  · rfl
  · split <;> rfl

theorem finishedIn_tagged (coreEvent : EngineCore.Event) (submission : Option ℕ)
    (owners : RequestId → Option ℕ) (messages : List CoreMessage) :
    finishedIn (messages.filterMap (tagMessage coreEvent submission owners)) =
      (outputsOf messages).countP (·.finished) := by
  induction messages with
  | nil => rfl
  | cons message messages ih =>
      cases message with
      | batch => exact ih
      | event event =>
          cases event with
          | metrics metrics =>
              have hhead : tagMessage coreEvent submission owners (.event (.metrics metrics)) =
                  some ⟨.metrics metrics, none⟩ := rfl
              rw [List.filterMap_cons_some hhead, finishedIn, List.countP_cons]
              exact ih
          | output output =>
              have hhead : tagMessage coreEvent submission owners (.event (.output output)) =
                  some ⟨.output output, ownerOf coreEvent submission owners output⟩ := rfl
              have houtputs : outputsOf (.event (.output output) :: messages) =
                  output :: outputsOf messages := rfl
              rw [List.filterMap_cons_some hhead, houtputs, finishedIn, List.countP_cons,
                List.countP_cons, ← ih]
              rfl

/-- What a step adds to the commands of a rank came through the coordinator. -/
theorem StepDerivation.adds (rank : ℕ)
    (h : StepDerivation config promptTokenizer tokenizer s event out s')
    (hcoordinated : Coordinated config) :
    addsIn (s'.ranks rank).commands + (addedIds (coreHistory rank [⟨s, event, out, s'⟩])).length =
      addsIn (s.ranks rank).commands + out.countP (forwardsAdd rank) := by
  cases h with
  | quietCall => rfl
  | sendingCall =>
      show addsIn ((s.putCommand config _).ranks rank).commands + 0 = _ + 0
      rw [putCommand_ranks, if_neg (fun h => h.1 hcoordinated)]
  | @forward command commands coordinator target =>
      show addsIn ((System.putRankCommand _ _ _).ranks rank).commands + 0 = _
      rw [putRankCommand_ranks]
      by_cases hrank : rank = target
      · cases hadd : isAdd command.value <;> simp [addsIn, forwardsAdd, hrank, hadd]
      · simp [forwardsAdd, hrank, Ne.symm hrank]
  | keepBack => rfl
  | @drain target _ outputs =>
      show addsIn ((s.onRank target fun process =>
        { process with outputs := outputs }).ranks rank).commands + 0 = _
      rw [onRank_ranks]
      split <;> simp [forwardsAdd]
  | coordinatorLeave =>
      show addsIn ((System.broadcast _ _ _).ranks rank).commands + 0 = _ + 0
      rw [broadcast_ranks]
      split <;> simp [addsIn, isAdd]
  | @core target coreEvent submission commands core messages hrank htakes hstep =>
      rw [forwardsAdd_sent, putOutputs_ranks, onRank_ranks]
      by_cases hsame : rank = target
      · subst hsame
        rw [coreHistory_ofCore htakes]
        cases htakes with
        | @command command commands hnext =>
            cases hvalue : command.value with
            | add => split <;> simp [addsIn, addedIds, hnext, hvalue, isAdd]
            | abort => split <;> simp [addsIn, addedIds, hnext, hvalue, isAdd]
            | shutdown => split <;> simp [addsIn, addedIds, hnext, hvalue, isAdd]
        | engineStep => split <;> simp [addedIds]
        | leave => split <;> simp [addedIds]
      · rw [coreHistory_ofCore_of_ne hsame, if_neg hsame, if_neg (fun h => hsame h.2)]
        rfl
  | @route outputEvent outputs =>
      rw [forwardsAdd_deliveries]
      rfl

/-- What a core finishes leaves its queue through the coordinator. -/
theorem StepDerivation.finishes (rank : ℕ)
    (h : StepDerivation config promptTokenizer tokenizer s event out s')
    (hcoordinated : Coordinated config) :
    out.countP (drainsFinished rank) + finishedIn (s'.ranks rank).outputs =
      finishedIn (s.ranks rank).outputs + finishedOf (coreHistory rank [⟨s, event, out, s'⟩]) := by
  cases h with
  | quietCall => exact Nat.zero_add _
  | sendingCall =>
      show 0 + finishedIn ((s.putCommand config _).ranks rank).outputs = _ + 0
      rw [putCommand_ranks, if_neg (fun h => h.1 hcoordinated), Nat.zero_add]
      rfl
  | @forward command commands coordinator target =>
      show 0 + finishedIn ((System.putRankCommand _ _ _).ranks rank).outputs = _ + 0
      rw [putRankCommand_ranks, Nat.zero_add]
      split <;> rfl
  | keepBack => exact Nat.zero_add _
  | @drain target event outputs _ _ _ hnext =>
      show _ + finishedIn ((s.onRank target fun process =>
        { process with outputs := outputs }).ranks rank).outputs = _ + 0
      rw [onRank_ranks]
      by_cases hrank : rank = target
      · subst hrank
        rw [if_pos rfl, hnext, finishedIn, finishedIn, List.countP_cons]
        cases hfinished : isFinished event.value <;>
          simp [drainsFinished, hfinished, Nat.add_comm]
      · simp [drainsFinished, hrank, Ne.symm hrank]
  | coordinatorLeave =>
      show 0 + finishedIn ((System.broadcast _ _ _).ranks rank).outputs = _ + 0
      rw [broadcast_ranks, Nat.zero_add]
      split <;> rfl
  | @core target coreEvent submission commands core messages hrank htakes hstep =>
      rw [drainsFinished_sent, putOutputs_ranks, onRank_ranks, Nat.zero_add]
      by_cases hsame : rank = target
      · subst hsame
        rw [coreHistory_ofCore htakes, messagesOf_sent, if_pos ⟨hcoordinated, rfl⟩, if_pos rfl,
          finishedOf, Run.outputs_singleton, ← finishedIn_tagged, finishedIn, List.countP_append]
        rfl
      · rw [coreHistory_ofCore_of_ne hsame, if_neg hsame, if_neg (fun h => hsame h.2)]
        rfl
  | @route outputEvent outputs =>
      rw [drainsFinished_deliveries, Nat.zero_add]
      rfl

end Queues

/-! ## The books of a run -/

section Runs

variable {config : EngineConfig} {promptTokenizer : PromptTokenizer} {tokenizer : Tokenizer}
  {s s' : System} {event : Event} {out : List Observation} {τs : List SystemTransition}

theorem finishedOf_append (history history' : List CoreTransition) :
    finishedOf (history ++ history') = finishedOf history + finishedOf history' := by
  simp [finishedOf, outputsOf]

/-- The ADDs forwarded to a rank are in its queue or were handled; the outputs it finished were
drained or are in its queue. -/
theorem SystemRun.books (h : SystemRun config promptTokenizer tokenizer τs s)
    (hcoordinated : Coordinated config) (rank : ℕ) :
    addsIn (s.ranks rank).commands + (addedIds (coreHistory rank τs)).length =
        addsForwarded rank τs ∧
      finishedDrained rank τs + finishedIn (s.ranks rank).outputs =
        finishedOf (coreHistory rank τs) := by
  induction h with
  | nil => exact ⟨rfl, rfl⟩
  | snoc hrun hstep ih =>
      have hd := SystemRun.derivation hrun hstep
      have hadds := hd.adds rank hcoordinated
      have hfinishes := hd.finishes rank hcoordinated
      simp only [addsForwarded, finishedDrained, Run.outputs_append, Run.outputs_singleton,
        List.countP_append, coreHistory_append, EngineCore.addedIds_append, List.length_append,
        finishedOf_append] at ih ⊢
      constructor
      · omega
      · omega

theorem SystemRun.drained_le (h : SystemRun config promptTokenizer tokenizer τs s)
    (hcoordinated : Coordinated config) (rank : ℕ) :
    finishedDrained rank τs + finishedIn (s.ranks rank).outputs ≤ addsForwarded rank τs := by
  obtain ⟨hadds, hfinishes⟩ := SystemRun.books h hcoordinated rank
  have hle := finishedOf_le (SystemRun.core_trace h rank)
  omega

/-- The rank chosen for an ADD carries the smallest load. -/
theorem leastLoaded_spec (config : EngineConfig) (coordinator : DPCoordinator) :
    coordinator.leastLoaded config < config.dataParallelSize ∧
      ∀ other < config.dataParallelSize,
        coordinator.rankLoad (coordinator.leastLoaded config) ≤ coordinator.rankLoad other := by
  obtain ⟨least, hleast, hmin⟩ := Finset.exists_min_image (Finset.range config.dataParallelSize)
    coordinator.rankLoad ⟨0, Finset.mem_range.mpr config.dataParallelSize_pos⟩
  have hfound : ((List.range config.dataParallelSize).find? fun rank =>
      (List.range config.dataParallelSize).all fun other =>
        coordinator.rankLoad rank ≤ coordinator.rankLoad other).isSome := by
    rw [List.find?_isSome]
    refine ⟨least, List.mem_range.mpr (Finset.mem_range.mp hleast), ?_⟩
    rw [List.all_eq_true]
    exact fun other hother => decide_eq_true
      (hmin other (Finset.mem_range.mpr (List.mem_range.mp hother)))
  obtain ⟨rank, hrank⟩ := Option.isSome_iff_exists.mp hfound
  have hchosen : coordinator.leastLoaded config = rank := by
    rw [DPCoordinator.leastLoaded, hrank]
    rfl
  rw [hchosen]
  refine ⟨List.mem_range.mp (List.mem_of_find?_eq_some hrank), fun other hother => ?_⟩
  have hall := List.find?_some hrank
  rw [List.all_eq_true] at hall
  exact of_decide_eq_true (hall other (List.mem_range.mpr hother))

/-- One step keeps the loads exact, if a rank with a finished output to drain has a load. -/
theorem StepDerivation.load
    (h : StepDerivation config promptTokenizer tokenizer s event out s')
    (hroom : ∀ rank event outputs, (s.ranks rank).outputs = event :: outputs →
      isFinished event.value = true → Coordinated config → 1 ≤ s.coordinator.rankLoad rank)
    (rank : ℕ) :
    s'.coordinator.rankLoad rank + out.countP (drainsFinished rank) =
      s.coordinator.rankLoad rank + out.countP (forwardsAdd rank) := by
  cases h with
  | quietCall => rfl
  | sendingCall => simp
  | @forward command commands coordinator target _ _ _ hhandle =>
      have hdrains : ([Observation.forwarded target command]).countP (drainsFinished rank) = 0 := rfl
      rw [hdrains]
      show coordinator.rankLoad rank + _ = _
      cases hvalue : command.value with
      | add request =>
          rw [hvalue] at hhandle
          obtain ⟨rfl, hrank⟩ := Prod.mk.inj hhandle
          obtain rfl := Option.some.inj hrank
          by_cases hsame : rank = s.coordinator.leastLoaded config
          · simp [forwardsAdd, hsame, hvalue, isAdd]
          · simp [forwardsAdd, hsame, Ne.symm hsame]
      | abort id =>
          rw [hvalue] at hhandle
          obtain ⟨rfl, _⟩ := Prod.mk.inj hhandle
          simp [forwardsAdd, hvalue, isAdd]
      | shutdown =>
          rw [hvalue] at hhandle
          cases hhandle
  | @keepBack command commands coordinator _ _ _ hhandle =>
      show coordinator.rankLoad rank + 0 = _ + 0
      cases hvalue : command.value with
      | add request =>
          rw [hvalue] at hhandle
          cases hhandle
      | abort id =>
          rw [hvalue] at hhandle
          obtain ⟨rfl, _⟩ := Prod.mk.inj hhandle
          rfl
      | shutdown =>
          rw [hvalue] at hhandle
          obtain ⟨rfl, _⟩ := Prod.mk.inj hhandle
          rfl
  | @drain target event outputs hcoordinated _ _ hnext =>
      have hforwards : ([Observation.drained target event]).countP (forwardsAdd rank) = 0 := rfl
      rw [hforwards]
      show (s.coordinator.drainOutput target event.value).rankLoad rank + _ = _
      cases hvalue : event.value with
      | metrics => simp [DPCoordinator.drainOutput, drainsFinished, hvalue, isFinished]
      | output output =>
          cases hfinished : output.finished with
          | false => simp [DPCoordinator.drainOutput, drainsFinished, hvalue, isFinished, hfinished]
          | true =>
              have hload := hroom target event outputs hnext (by rw [hvalue]; exact hfinished)
                hcoordinated
              by_cases hsame : rank = target
              · subst hsame
                simp [DPCoordinator.drainOutput, drainsFinished, hvalue, isFinished, hfinished]
                omega
              · simp [DPCoordinator.drainOutput, drainsFinished, hvalue, isFinished, hfinished,
                  hsame, Ne.symm hsame]
  | coordinatorLeave =>
      rw [(broadcast_kept _ _).2.2.1]
      rfl
  | @core target coreEvent submission commands core messages hrank htakes hstep =>
      rw [drainsFinished_sent, forwardsAdd_sent, putOutputs_coordinator]
      rfl
  | route => rw [drainsFinished_deliveries, forwardsAdd_deliveries]

/-- A finished output at the head of a queue has its ADD among those forwarded. -/
theorem SystemRun.room (h : SystemRun config promptTokenizer tokenizer τs s)
    (hload : ∀ rank, s.coordinator.rankLoad rank =
      (addsForwarded rank τs : ℤ) - finishedDrained rank τs)
    {rank : ℕ} {event : Tagged OutputEvent} {outputs : List (Tagged OutputEvent)}
    (hnext : (s.ranks rank).outputs = event :: outputs) (hfinished : isFinished event.value = true)
    (hcoordinated : Coordinated config) : 1 ≤ s.coordinator.rankLoad rank := by
  have hle := SystemRun.drained_le h hcoordinated rank
  have hone : 1 ≤ finishedIn (s.ranks rank).outputs := by
    rw [hnext, finishedIn, List.countP_cons, hfinished]
    simp
  rw [hload rank]
  omega

theorem SystemRun.rankLoad_eq (h : SystemRun config promptTokenizer tokenizer τs s) (rank : ℕ) :
    s.coordinator.rankLoad rank = (addsForwarded rank τs : ℤ) - finishedDrained rank τs := by
  induction h generalizing rank with
  | nil => rfl
  | snoc hrun hstep ih =>
      have hload := (SystemRun.derivation hrun hstep).load
        (fun _ _ _ hnext hfinished hcoordinated =>
          SystemRun.room hrun ih hnext hfinished hcoordinated) rank
      have hbefore := ih rank
      simp only [addsForwarded, finishedDrained, Run.outputs_append, Run.outputs_singleton,
        List.countP_append] at hbefore ⊢
      omega

theorem SystemRun.nothing_drained (h : SystemRun config promptTokenizer tokenizer τs s)
    (hsolo : ¬ Coordinated config) (rank : ℕ) : finishedDrained rank τs = 0 := by
  induction h with
  | nil => rfl
  | snoc hrun hstep ih =>
      have hnone : ∀ {s s' : System} {event : Event} {out : List Observation},
          StepDerivation config promptTokenizer tokenizer s event out s' →
          out.countP (drainsFinished rank) = 0 := by
        intro s s' event out hd
        cases hd with
        | drain hcoordinated => exact absurd hcoordinated hsolo
        | forward hcoordinated => exact absurd hcoordinated hsolo
        | core => exact drainsFinished_sent _ _
        | route => exact drainsFinished_deliveries _ _
        | _ => rfl
      have hout := hnone (SystemRun.derivation hrun hstep)
      simpa [finishedDrained, hout] using ih

end Runs

/-- The load a rank has by the history: ADDs forwarded to it, less the finished outputs drained
from it. -/
def outstanding (rank : ℕ) (τs : List SystemTransition) : ℤ :=
  (addsForwarded rank τs : ℤ) - finishedDrained rank τs

/-- What the loads are after a history, and what they were on the way. -/
structure ExactLoads (config : EngineConfig) (τs : List SystemTransition) (s : System) : Prop where
  load_eq : ∀ rank, s.coordinator.rankLoad rank = outstanding rank τs
  nonneg : ∀ rank, 0 ≤ outstanding rank τs
  clamp_idle : ∀ τ ∈ τs, ∀ rank event, .drained rank event ∈ τ.out →
    isFinished event.value = true →
    max 0 (τ.pre.coordinator.rankLoad rank - 1) = τ.pre.coordinator.rankLoad rank - 1
  least : ∀ front τ back, τs = front ++ τ :: back → ∀ request submission commands,
    τ.event = .coordinate → τ.pre.commands = ⟨.add request, submission⟩ :: commands →
    ∃ rank < config.dataParallelSize, τ.out = [.forwarded rank ⟨.add request, submission⟩] ∧
      ∀ other < config.dataParallelSize, outstanding rank front ≤ outstanding other front

/-- The loads are what the history says and never negative, a drained finished output finds a
positive one, and every ADD goes to a rank with the fewest outstanding. -/
theorem loads_exact {config : EngineConfig} {promptTokenizer : PromptTokenizer}
    {tokenizer : Tokenizer} {τs : List SystemTransition} {s : System}
    (h : SystemRun config promptTokenizer tokenizer τs s) : ExactLoads config τs s := by
  refine ⟨SystemRun.rankLoad_eq h, fun rank => ?_, ?_, ?_⟩
  · rw [outstanding]
    by_cases hcoordinated : Coordinated config
    · have hle := SystemRun.drained_le h hcoordinated rank
      omega
    · rw [SystemRun.nothing_drained h hcoordinated]
      omega
  · intro τ hτ rank event hdrained hfinished
    obtain ⟨front, back, hsplit⟩ := List.append_of_mem hτ
    obtain ⟨hbefore, hstep⟩ := Run.of_split h hsplit
    have hd := SystemRun.derivation hbefore hstep
    have hload : 1 ≤ τ.pre.coordinator.rankLoad rank := by
      generalize hout : τ.out = out at hd hdrained
      generalize hevent : τ.event = systemEvent at hd
      generalize hpost : τ.post = post at hd
      cases hd with
      | drain hcoordinated _ _ hnext =>
          obtain ⟨rfl, rfl⟩ : rank = _ ∧ event = _ := by simpa using hdrained
          exact SystemRun.room hbefore (fun rank => SystemRun.rankLoad_eq hbefore rank) hnext
            hfinished hcoordinated
      | core => simp at hdrained
      | route =>
          obtain ⟨_, _, _, _, hobservation⟩ := mem_deliveries hdrained
          cases hobservation
      | _ => simp at hdrained
    omega
  · intro front τ back hsplit request submission commands hevent hcommands
    obtain ⟨hbefore, hstep⟩ := Run.of_split h hsplit
    have hd := SystemRun.derivation hbefore hstep
    obtain ⟨hrank, hleast⟩ := leastLoaded_spec config τ.pre.coordinator
    have hloads := fun rank => SystemRun.rankLoad_eq hbefore rank
    refine ⟨τ.pre.coordinator.leastLoaded config, hrank, ?_, fun other hother => ?_⟩
    · generalize hout : τ.out = out at hd ⊢
      generalize hpost : τ.post = post at hd
      generalize τ.event = systemEvent at hd hevent
      cases hd with
      | forward _ _ hnext hhandle =>
          obtain ⟨rfl, rfl⟩ := List.cons.inj (hcommands.symm.trans hnext)
          obtain ⟨_, htarget⟩ := Prod.mk.inj hhandle
          rw [← Option.some.inj htarget]
      | keepBack _ _ hnext hhandle =>
          obtain ⟨rfl, rfl⟩ := List.cons.inj (hcommands.symm.trans hnext)
          cases hhandle
      | @core _ coreEvent => cases coreEvent <;> cases hevent
      | _ => cases hevent
    · have hle := hleast other hother
      rw [hloads, hloads] at hle
      exact hle

def balancedEvents : List Event :=
  [submits "a", submits "b", .coordinate, .coordinate, .command 1, .call (.abort "b"), .coordinate,
    .command 1, .drain 1, submits "c", .coordinate]

theorem loads_exact_balanced : ∃ τs s,
    SystemRun twoRanks (.ofTokenizer characterTokenizer) characterTokenizer τs s ∧
      (addsForwarded 0 τs, addsForwarded 1 τs, finishedDrained 1 τs) = (1, 2, 1) ∧
      ExactLoads twoRanks τs s := by
  have hsome : (drive twoRanks characterTokenizer balancedEvents).map
      (fun run => (addsForwarded 0 run.1, addsForwarded 1 run.1, finishedDrained 1 run.1)) =
        some (1, 2, 1) := by decide +kernel
  obtain ⟨⟨τs, s⟩, hdrive, hcounts⟩ := Option.map_eq_some_iff.mp hsome
  have hrun := drive_run hdrive (by decide)
  exact ⟨τs, s, hrun, hcounts, loads_exact hrun⟩

end System

end MiniVLLM
