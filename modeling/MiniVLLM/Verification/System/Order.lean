import MiniVLLM.Verification.System.Aborts
import MiniVLLM.Verification.System.Deliveries

/-! # The order of delivery

The outputs of one id pass through the queue of one rank and the queue of the router. At each
hop, what was taken and what is still queued is what was put, in the order of the puts. -/

namespace MiniVLLM

namespace System

def queuedFor (id : RequestId) (events : List (Tagged OutputEvent)) : List RequestOutput :=
  events.filterMap fun event =>
    match event.value with
    | .output output => if output.requestId = id then some output else none
    | .metrics _ => none

/-- An output of the id that reaches the queue of the router, with its rank. -/
def arrivalOf (config : EngineConfig) (id : RequestId) : Observation → Option (ℕ × RequestOutput)
  | .drained rank ⟨.output output, _⟩ =>
      if Coordinated config ∧ output.requestId = id then some (rank, output) else none
  | .sent rank (.event (.output output)) =>
      if ¬ Coordinated config ∧ output.requestId = id then some (rank, output) else none
  | _ => none

def arrivals (config : EngineConfig) (id : RequestId) (τs : List SystemTransition) :
    List (ℕ × RequestOutput) :=
  (Run.outputs τs).filterMap (arrivalOf config id)

def arrivalsFrom (config : EngineConfig) (id : RequestId) (rank : ℕ) (τs : List SystemTransition) :
    List RequestOutput :=
  ((arrivals config id τs).filter (·.1 = rank)).map (·.2)

def addsQueued (id : RequestId) (commands : List (Tagged EngineCommand)) : ℕ :=
  commands.countP fun command =>
    match command.value with
    | .add request => request.requestId = id
    | _ => false

/-- Where the ADDs of an id were forwarded to. -/
def forwards (id : RequestId) (τs : List SystemTransition) : List (ℕ × Option ℕ) :=
  (Run.outputs τs).filterMap (forwardOf id)

section Queues

variable {config : EngineConfig} {id : RequestId} {rank : ℕ}

@[simp] theorem queuedFor_nil : queuedFor id [] = [] := rfl

@[simp] theorem queuedFor_append (events events' : List (Tagged OutputEvent)) :
    queuedFor id (events ++ events') = queuedFor id events ++ queuedFor id events' := by
  simp [queuedFor]

theorem queuedFor_cons (event : Tagged OutputEvent) (events : List (Tagged OutputEvent)) :
    queuedFor id (event :: events) = queuedFor id [event] ++ queuedFor id events := by
  rw [← queuedFor_append, List.singleton_append]

theorem queuedFor_tagged (coreEvent : EngineCore.Event) (submission : Option ℕ)
    (owners : RequestId → Option ℕ) (messages : List CoreMessage) :
    queuedFor id (messages.filterMap (tagMessage coreEvent submission owners)) =
      outputsFor id messages := by
  induction messages with
  | nil => rfl
  | cons message messages ih =>
      rw [← List.singleton_append, List.filterMap_append, queuedFor_append, ih, outputsFor_append]
      congr 1
      cases message with
      | batch => rfl
      | event event =>
          cases event with
          | metrics => rfl
          | output output =>
              by_cases hid : output.requestId = id
              · simp [queuedFor, tagMessage, outputsFor, outputsOf, hid]
              · simp [queuedFor, tagMessage, outputsFor, outputsOf, hid]

theorem arrivalOf_sent (rank : ℕ) (messages : List CoreMessage) :
    (messages.map (Observation.sent rank)).filterMap (arrivalOf config id) =
      if Coordinated config then []
      else (outputsFor id messages).map (fun output => (rank, output)) := by
  induction messages with
  | nil => simp
  | cons message messages ih =>
      rw [← List.singleton_append, List.map_append, List.filterMap_append, ih, outputsFor_append]
      by_cases hcoordinated : Coordinated config
      · cases message with
        | batch => simp [hcoordinated, arrivalOf]
        | event event => cases event <;> simp [hcoordinated, arrivalOf]
      · cases message with
        | batch => simp [hcoordinated, arrivalOf, outputsFor, outputsOf]
        | event event =>
            cases event with
            | metrics => simp [hcoordinated, arrivalOf, outputsFor, outputsOf]
            | output output =>
                by_cases hid : output.requestId = id
                · simp [hcoordinated, arrivalOf, outputsFor, outputsOf, hid]
                · simp [hcoordinated, arrivalOf, outputsFor, outputsOf, hid]

theorem arrivalOf_drained (hcoordinated : Coordinated config) (event : Tagged OutputEvent) :
    [Observation.drained rank event].filterMap (arrivalOf config id) =
      (queuedFor id [event]).map (fun output => (rank, output)) := by
  obtain ⟨value, submission⟩ := event
  cases value with
  | metrics => simp [arrivalOf, queuedFor]
  | output output =>
      by_cases hid : output.requestId = id
      · simp [arrivalOf, queuedFor, hcoordinated, hid]
      · simp [arrivalOf, queuedFor, hid]

theorem arrivalOf_deliveries (client : Client) (event : Tagged OutputEvent) :
    (deliveries client event).filterMap (arrivalOf config id) = [] := by
  refine List.filterMap_eq_nil_iff.mpr fun observation hmem => ?_
  obtain ⟨_, _, _, _, rfl⟩ := mem_deliveries hmem
  rfl

end Queues

/-! ## The queue of a rank -/

section Hops

variable {config : EngineConfig} {promptTokenizer : PromptTokenizer} {tokenizer : Tokenizer}
  {s s' : System} {event : Event} {out : List Observation} {τs : List SystemTransition}
  {id : RequestId} {rank : ℕ}

theorem arrivals_append_singleton (τ : SystemTransition) :
    arrivals config id (τs ++ [τ]) =
      arrivals config id τs ++ τ.out.filterMap (arrivalOf config id) := by
  simp [arrivals]

theorem queuedFor_coreStep (coreEvent : EngineCore.Event) (submission : Option ℕ)
    (commands : List (Tagged EngineCommand)) (core : EngineCore) (messages : List CoreMessage)
    (rank' : ℕ) :
    (((s.onRank rank' fun process =>
      { process with
        core := core
        commands := commands
        owners := newOwners coreEvent submission messages process.owners }).putOutputs config rank'
      (messages.filterMap (tagMessage coreEvent submission (s.ranks rank').owners))).ranks
        rank).outputs =
      if Coordinated config ∧ rank = rank' then (s.ranks rank).outputs ++
        messages.filterMap (tagMessage coreEvent submission (s.ranks rank).owners)
      else (s.ranks rank).outputs := by
  rw [putOutputs_ranks, onRank_ranks]
  by_cases hsame : rank = rank'
  · subst hsame
    split <;> simp
  · simp [hsame]

/-- What one step puts at a rank is taken from there or queued there. -/
theorem StepDerivation.rank_hop (id : RequestId)
    (hd : StepDerivation config promptTokenizer tokenizer s event out s')
    (hsolo : ¬ Coordinated config → (s.ranks rank).outputs = []) :
    queuedFor id (s.ranks rank).outputs ++
        EngineCore.emitted id (coreHistory rank [⟨s, event, out, s'⟩]) =
      ((out.filterMap (arrivalOf config id)).filter (·.1 = rank)).map (·.2) ++
        queuedFor id (s'.ranks rank).outputs ∧
      (¬ Coordinated config → (s'.ranks rank).outputs = []) := by
  have hquiet : coreHistory rank [⟨s, event, out, s'⟩] = [] →
      out.filterMap (arrivalOf config id) = [] → (s'.ranks rank).outputs = (s.ranks rank).outputs →
      queuedFor id (s.ranks rank).outputs ++
          EngineCore.emitted id (coreHistory rank [⟨s, event, out, s'⟩]) =
        ((out.filterMap (arrivalOf config id)).filter (·.1 = rank)).map (·.2) ++
          queuedFor id (s'.ranks rank).outputs ∧
        (¬ Coordinated config → (s'.ranks rank).outputs = []) := by
    intro hhistory harrivals houtputs
    rw [hhistory, harrivals, houtputs]
    exact ⟨by simp [EngineCore.emitted], hsolo⟩
  cases hd with
  | quietCall => exact hquiet rfl rfl rfl
  | sendingCall =>
      refine hquiet rfl rfl ?_
      rw [show System.ranks _ = (s.putCommand config _).ranks from rfl, putCommand_ranks]
      split <;> rfl
  | forward =>
      refine hquiet rfl rfl ?_
      rw [putRankCommand_ranks]
      split <;> rfl
  | keepBack => exact hquiet rfl rfl rfl
  | @drain target event outputs hcoordinated _ _ hnext =>
      refine ⟨?_, fun hnot => absurd hcoordinated hnot⟩
      rw [show System.ranks _ = (s.onRank target _).ranks from rfl, onRank_ranks,
        arrivalOf_drained hcoordinated]
      rw [show coreHistory rank [⟨s, .drain target, _, _⟩] = [] from rfl]
      by_cases hsame : rank = target
      · subst hsame
        rw [if_pos rfl, hnext, queuedFor_cons]
        simp [EngineCore.emitted, List.filter_map, Function.comp_def]
      · rw [if_neg hsame]
        simp [EngineCore.emitted, List.filter_map, Function.comp_def, Ne.symm hsame]
  | coordinatorLeave =>
      refine hquiet rfl rfl ?_
      rw [broadcast_ranks]
      split <;> rfl
  | @core target coreEvent tag commands core messages _ htakes =>
      rw [queuedFor_coreStep, arrivalOf_sent]
      by_cases hsame : rank = target
      · subst hsame
        rw [coreHistory_ofCore htakes, messagesOf_sent, EngineCore.emitted_singleton]
        by_cases hcoordinated : Coordinated config
        · refine ⟨?_, fun hnot => absurd hcoordinated hnot⟩
          rw [if_pos hcoordinated, if_pos ⟨hcoordinated, rfl⟩, queuedFor_append, queuedFor_tagged]
          simp
        · rw [if_neg hcoordinated, if_neg (fun h => hcoordinated h.1), hsolo hcoordinated]
          simp [List.filter_map, Function.comp_def]
      · have hother : ¬ (Coordinated config ∧ rank = target) := fun h => hsame h.2
        rw [coreHistory_ofCore_of_ne hsame]
        simp only [hother, if_false]
        refine ⟨?_, hsolo⟩
        split <;> simp [EngineCore.emitted, List.filter_map, Function.comp_def, Ne.symm hsame]
  | route => exact hquiet rfl (arrivalOf_deliveries _ _) rfl

/-! ## The queue of the router -/

theorem routedTo_eq {client : Client} {stream : ℕ} (hnumbered : client.Numbered)
    (hget : client.streams.get? id = some stream) (event : Tagged OutputEvent) :
    client.routedTo stream event.value = queuedFor id [event] := by
  obtain ⟨value, submission⟩ := event
  cases value with
  | metrics => rfl
  | output output =>
      by_cases hid : output.requestId = id
      · simp [Client.routedTo, queuedFor, hid, hget]
      · have hother : client.streams.get? output.requestId ≠ some stream :=
          fun h => hid (hnumbered.distinct _ _ _ h hget)
        simp [Client.routedTo, queuedFor, hid, hother]

theorem StepDerivation.router_hop {stream : ℕ}
    (hd : StepDerivation config promptTokenizer tokenizer s event out s')
    (hnumbered : s.client.Numbered) (hget : s.client.streams.get? id = some stream) :
    s'.client.streamItems stream ++ queuedFor id s'.outputs =
      s.client.streamItems stream ++ queuedFor id s.outputs ++
        (out.filterMap (arrivalOf config id)).map (·.2) := by
  cases hd with
  | quietCall hd => simp [hd.streamItems_eq]
  | sendingCall hd => simp [hd.streamItems_eq]
  | forward => simp [arrivalOf, putRankCommand, onRank]
  | keepBack => simp
  | drain hcoordinated =>
      rw [arrivalOf_drained hcoordinated, queuedFor_append]
      simp [onRank, Function.comp_def]
  | coordinatorLeave =>
      obtain ⟨hclient, _, _, houtputs⟩ := broadcast_kept
        (s := { s with coordinator := { s.coordinator with stopped := true } }) ⟨.shutdown, none⟩
        config.dataParallelSize
      rw [hclient, houtputs]
      simp
  | core =>
      rw [putOutputs_client, putOutputs_outputs, arrivalOf_sent]
      split
      · simp [onRank]
      · rw [queuedFor_append, queuedFor_tagged]
        simp [onRank, Function.comp_def]
  | @route event outputs hnext =>
      rw [arrivalOf_deliveries, Client.route_streamItems, routedTo_eq hnumbered hget, hnext,
        List.append_assoc, ← queuedFor_cons, List.map_nil, List.append_nil]

theorem StepDerivation.opened {stream : ℕ}
    (hd : StepDerivation config promptTokenizer tokenizer s event out s')
    (hnumbered : s.client.Numbered) (hnew : id ∉ s.client.streams.keys)
    (hget : s'.client.streams.get? id = some stream) :
    s'.client.streamItems stream = [] ∧ s'.outputs = s.outputs ∧ out = [] := by
  have hold : s.client.streams.get? id ≠ some stream := fun h => hnew (Dict.mem_keys_of_get? h)
  cases hd with
  | quietCall hd =>
      obtain rfl := hd.opened hnew hget
      exact ⟨by rw [hd.streamItems_eq, hnumbered.fresh _ (le_refl _)], rfl, rfl⟩
  | sendingCall hd =>
      obtain rfl := hd.opened hnew hget
      exact ⟨by rw [hd.streamItems_eq, hnumbered.fresh _ (le_refl _)], by simp, rfl⟩
  | coordinatorLeave =>
      rw [(broadcast_kept _ _).1] at hget
      exact absurd hget hold
  | core =>
      rw [putOutputs_client] at hget
      exact absurd hget hold
  | route =>
      rw [Client.route_streams] at hget
      exact absurd hget hold
  | _ => exact absurd hget hold

/-- A core emits outputs of an id only while a submission of it is in flight there. -/
theorem StepDerivation.emits
    (hd : StepDerivation config promptTokenizer tokenizer s event out s') (hranked : event.Ranked)
    (hrun : SystemRun config promptTokenizer tokenizer τs s)
    (hemits : EngineCore.emitted id (coreHistory rank [⟨s, event, out, s'⟩]) ≠ []) :
    ∃ submission, (s.ranks rank).InFlight id submission := by
  cases hd with
  | @core target coreEvent tag commands core messages _ htakes hstep =>
      by_cases hsame : rank = target
      · subst hsame
        rw [coreHistory_ofCore htakes, messagesOf_sent, EngineCore.emitted_singleton] at hemits
        obtain ⟨output, hout⟩ := List.exists_mem_of_ne_nil _ hemits
        exact ⟨_, (inFlight_core _ none hrun htakes
          ⟨Event.ranked_ofCore.mp hranked, hstep⟩).1 output hout⟩
      · rw [coreHistory_ofCore_of_ne hsame] at hemits
        exact absurd rfl hemits
  | _ => exact absurd rfl hemits

theorem addsQueued_append (commands commands' : List (Tagged EngineCommand)) :
    addsQueued id (commands ++ commands') = addsQueued id commands + addsQueued id commands' :=
  List.countP_append

theorem addsQueued_cons (command : Tagged EngineCommand) (commands : List (Tagged EngineCommand)) :
    addsQueued id (command :: commands) = addsQueued id [command] + addsQueued id commands := by
  rw [← addsQueued_append, List.singleton_append]

theorem length_forwardOf (command : Tagged EngineCommand) :
    ([Observation.forwarded rank command].filterMap (forwardOf id)).length =
      addsQueued id [command] := by
  obtain ⟨value, submission⟩ := command
  cases value with
  | add request =>
      by_cases hid : request.requestId = id
      · simp [forwardOf, addsQueued, hid]
      · simp [forwardOf, addsQueued, hid]
  | abort => simp [forwardOf, addsQueued]
  | shutdown => simp [forwardOf, addsQueued]

/-- An ADD moves from the queue of the coordinator to a rank; only a submission adds one. -/
theorem StepDerivation.adds_le (id : RequestId)
    (hd : StepDerivation config promptTokenizer tokenizer s event out s') :
    (out.filterMap (forwardOf id)).length + addsQueued id s'.commands ≤
      addsQueued id s.commands + (registeredIds [⟨s, event, out, s'⟩]).count id := by
  cases hd with
  | quietCall => simp
  | @sendingCall call client command hd =>
      have hnone : (([] : List Observation).filterMap (forwardOf id)).length = 0 := rfl
      rw [show System.commands _ = (s.putCommand config _).commands from rfl, putCommand_commands,
        hnone, Nat.zero_add]
      split
      · rw [addsQueued_append]
        refine Nat.add_le_add_left ?_ _
        cases command with
        | add request =>
            by_cases hid : request.requestId = id
            · have hone : addsQueued id [⟨.add request, submissionOf s.client (.add request)⟩] = 1 := by
                simp [addsQueued, hid]
              obtain ⟨_, _, _, hclient, hnew⟩ := submits_of_add { s.putCommand config
                ⟨.add request, submissionOf s.client (.add request)⟩ with client := client } hd rfl
              rw [hone, ← hid]
              refine List.one_le_count_iff.mpr (mem_registeredIds.mpr ⟨_, List.mem_cons_self, hnew, ?_⟩)
              rw [hclient]
              exact Dict.mem_keys_of_get? (Dict.get?_set_self _ _ _)
            · simp [addsQueued, hid]
        | abort => simp [addsQueued]
        | shutdown => simp [addsQueued]
      · omega
  | @forward command commands _ _ _ _ hnext =>
      rw [length_forwardOf, hnext, addsQueued_cons command commands]
      exact Nat.le_add_right _ _
  | @keepBack command commands _ _ _ hnext =>
      rw [hnext, addsQueued_cons command commands]
      simp only [List.filterMap_nil, List.length_nil]
      omega
  | @drain rank event =>
      have hnone : [Observation.drained rank event].filterMap (forwardOf id) = [] := rfl
      rw [hnone]
      simp [onRank]
  | coordinatorLeave =>
      rw [(broadcast_kept _ _).2.1]
      simp
  | core =>
      rw [(forwardOf_sent id _ _).1, putOutputs_commands]
      simp [onRank]
  | route =>
      rw [(forwardOf_deliveries id _ _).1]
      simp

end Hops

/-! ## Runs -/

section Runs

variable {config : EngineConfig} {promptTokenizer : PromptTokenizer} {tokenizer : Tokenizer}
  {s : System} {τs : List SystemTransition} {id : RequestId} {rank : ℕ}

theorem forwards_append (τs τs' : List SystemTransition) :
    forwards id (τs ++ τs') = forwards id τs ++ forwards id τs' := by
  simp [forwards]

/-- What a core emitted for an id has arrived at the router's queue or is queued at its rank. -/
theorem SystemRun.rank_hop (id : RequestId) (rank : ℕ)
    (h : SystemRun config promptTokenizer tokenizer τs s) :
    EngineCore.emitted id (coreHistory rank τs) =
        arrivalsFrom config id rank τs ++ queuedFor id (s.ranks rank).outputs ∧
      (¬ Coordinated config → (s.ranks rank).outputs = []) := by
  induction h with
  | nil => exact ⟨rfl, fun _ => rfl⟩
  | snoc hrun hstep ih =>
      obtain ⟨hbooks, hsolo⟩ := ih
      obtain ⟨hhop, hsolo'⟩ := (SystemRun.derivation hrun hstep).rank_hop id hsolo
      refine ⟨?_, hsolo'⟩
      rw [coreHistory_append, EngineCore.emitted_append, hbooks, List.append_assoc, hhop,
        ← List.append_assoc]
      simp [arrivalsFrom, arrivals_append_singleton]

/-- At most as many ADDs of an id are queued or forwarded as it was registered. -/
theorem SystemRun.adds_le (id : RequestId) (h : SystemRun config promptTokenizer tokenizer τs s) :
    (forwards id τs).length + addsQueued id s.commands ≤ (registeredIds τs).count id := by
  induction h with
  | nil => simp [forwards, addsQueued, init]
  | snoc hrun hstep ih =>
      have hle := (SystemRun.derivation hrun hstep).adds_le id
      rw [registeredIds_append, List.count_append, forwards_append, List.length_append]
      simp only [forwards, Run.outputs_singleton] at ih ⊢
      omega

/-- The ways by which an id gets to a rank. -/
structure Reaches (config : EngineConfig) (id : RequestId) (rank : ℕ)
    (τs : List SystemTransition) : Prop where
  forwarded : Coordinated config → ∃ submission, (rank, submission) ∈ forwards id τs
  solo : ¬ Coordinated config → rank = 0
  registered : id ∈ registeredIds τs

theorem Reaches.append (h : Reaches config id rank τs) (τs' : List SystemTransition) :
    Reaches config id rank (τs ++ τs') where
  forwarded := by
    intro hcoordinated
    obtain ⟨submission, hmem⟩ := h.forwarded hcoordinated
    rw [forwards_append]
    exact ⟨submission, List.mem_append_left _ hmem⟩
  solo := h.solo
  registered := by
    rw [registeredIds_append]
    exact List.mem_append_left _ h.registered

/-- A submission in flight at a rank has reached it. -/
theorem SystemRun.reaches_of_inFlight (h : SystemRun config promptTokenizer tokenizer τs s)
    {submission : Option ℕ} (hflight : (s.ranks rank).InFlight id submission) :
    Reaches config id rank τs := by
  have hregistered := SystemRun.mem_registeredIds_of_inFlight h (.atRank rank hflight)
  induction h with
  | nil => cases hregistered
  | @snoc τs s event out s' hrun hstep ih =>
      rcases (SystemRun.derivation hrun hstep).rank_inFlight hstep.ranked hrun hflight with
        hbefore | ⟨hcoordinated, request, hout, hid⟩ | ⟨hsolo, hrank, _⟩
      · exact (ih hbefore (SystemRun.mem_registeredIds_of_inFlight hrun (.atRank rank hbefore))).append
          _
      · refine ⟨fun _ => ⟨submission, ?_⟩, fun hnot => absurd hcoordinated hnot, hregistered⟩
        rw [forwards_append]
        refine List.mem_append_right _ ?_
        simp [forwards, hout, forwardOf, hid]
      · exact ⟨fun hcoordinated => absurd hcoordinated hsolo, fun _ => hrank, hregistered⟩

theorem SystemRun.reaches_of_emitted (h : SystemRun config promptTokenizer tokenizer τs s)
    (hemitted : EngineCore.emitted id (coreHistory rank τs) ≠ []) :
    Reaches config id rank τs := by
  induction h with
  | nil => exact absurd rfl hemitted
  | @snoc τs s event out s' hrun hstep ih =>
      rw [coreHistory_append, EngineCore.emitted_append] at hemitted
      by_cases hbefore : EngineCore.emitted id (coreHistory rank τs) = []
      · rw [hbefore, List.nil_append] at hemitted
        obtain ⟨submission, hflight⟩ :=
          (SystemRun.derivation hrun hstep).emits hstep.ranked hrun hemitted
        exact (SystemRun.reaches_of_inFlight hrun hflight).append _
      · exact (ih hbefore).append _

theorem SystemRun.reaches_of_arrival (h : SystemRun config promptTokenizer tokenizer τs s)
    {arrival : ℕ × RequestOutput} (hmem : arrival ∈ arrivals config id τs) :
    Reaches config id arrival.1 τs := by
  have hfrom : arrival.2 ∈ arrivalsFrom config id arrival.1 τs :=
    List.mem_map.mpr ⟨arrival, List.mem_filter.mpr ⟨hmem, by simp⟩, rfl⟩
  refine SystemRun.reaches_of_emitted h ?_
  rw [(SystemRun.rank_hop _ _ h).1]
  exact List.append_ne_nil_of_left_ne_nil (List.ne_nil_of_mem hfrom) _

theorem SystemRun.arrivals_eq_nil (h : SystemRun config promptTokenizer tokenizer τs s)
    (hnew : id ∉ registeredIds τs) : arrivals config id τs = [] := by
  by_contra hsome
  obtain ⟨arrival, hmem⟩ := List.exists_mem_of_ne_nil _ hsome
  exact hnew (SystemRun.reaches_of_arrival h hmem).registered

theorem SystemRun.queuedFor_eq_nil (h : SystemRun config promptTokenizer tokenizer τs s)
    (hnew : id ∉ registeredIds τs) : queuedFor id s.outputs = [] := by
  refine List.filterMap_eq_nil_iff.mpr fun event hmem => ?_
  obtain ⟨value, submission⟩ := event
  cases value with
  | metrics => rfl
  | output output =>
      refine if_neg fun hid => hnew ?_
      exact SystemRun.mem_registeredIds_of_inFlight h (.drained hmem hid)

/-- The open stream of an id that was registered once got what arrived, less what the router
has not taken yet. -/
theorem SystemRun.streamItems_eq (h : SystemRun config promptTokenizer tokenizer τs s)
    (honce : (registeredIds τs).count id ≤ 1) {stream : ℕ}
    (hget : s.client.streams.get? id = some stream) :
    s.client.streamItems stream ++ queuedFor id s.outputs = (arrivals config id τs).map (·.2) := by
  induction h with
  | nil => simp [init] at hget
  | @snoc τs s event out s' hrun hstep ih =>
      have hd := SystemRun.derivation hrun hstep
      have hnumbered := SystemRun.numbered hrun
      rw [registeredIds_append, List.count_append] at honce
      rw [arrivals_append_singleton, List.map_append]
      rcases hd.get?_streams hget with hbefore | hnew
      · rw [hd.router_hop hnumbered hbefore, ih (by omega) hbefore]
      · have hregistered : id ∈ registeredIds [⟨s, event, out, s'⟩] :=
          mem_registeredIds.mpr ⟨_, List.mem_cons_self, hnew, Dict.mem_keys_of_get? hget⟩
        have hfront : id ∉ registeredIds τs := by
          intro hmem
          have := List.one_le_count_iff.mpr hmem
          have := List.one_le_count_iff.mpr hregistered
          omega
        obtain ⟨hitems, houtputs, hout⟩ := hd.opened hnumbered hnew hget
        rw [hitems, houtputs, hout, SystemRun.queuedFor_eq_nil hrun hfront,
          SystemRun.arrivals_eq_nil hrun hfront]
        rfl

theorem SystemRun.coordinated_of_forwards (h : SystemRun config promptTokenizer tokenizer τs s)
    {submission : Option ℕ} (hmem : (rank, submission) ∈ forwards id τs) : Coordinated config := by
  induction h with
  | nil => cases hmem
  | @snoc τs s event out s' hrun hstep ih =>
      rw [forwards_append] at hmem
      rcases List.mem_append.mp hmem with hmem | hmem
      · exact ih hmem
      · rw [forwards, Run.outputs_singleton] at hmem
        have hd := SystemRun.derivation hrun hstep
        cases hd with
        | forward hcoordinated => exact hcoordinated
        | drain hcoordinated => exact hcoordinated
        | core =>
            rw [(forwardOf_sent id _ _).1] at hmem
            cases hmem
        | route =>
            rw [(forwardOf_deliveries id _ _).1] at hmem
            cases hmem
        | _ => cases hmem

theorem SystemRun.reaches_of_forwards (h : SystemRun config promptTokenizer tokenizer τs s)
    {submission : Option ℕ} (hmem : (rank, submission) ∈ forwards id τs) :
    Reaches config id rank τs where
  forwarded := fun _ => ⟨submission, hmem⟩
  solo := fun hsolo => absurd (SystemRun.coordinated_of_forwards h hmem) hsolo
  registered := by
    have hle := SystemRun.adds_le id h
    have hpos := List.length_pos_of_mem hmem
    exact List.one_le_count_iff.mp (by omega)

/-- The ADDs of an id that was registered once reach one rank only. -/
theorem SystemRun.reaches_unique (h : SystemRun config promptTokenizer tokenizer τs s)
    (honce : (registeredIds τs).count id ≤ 1) {rank' : ℕ} (hreaches : Reaches config id rank τs)
    (hreaches' : Reaches config id rank' τs) : rank = rank' := by
  by_cases hcoordinated : Coordinated config
  · obtain ⟨submission, hmem⟩ := hreaches.forwarded hcoordinated
    obtain ⟨submission', hmem'⟩ := hreaches'.forwarded hcoordinated
    have hlength : (forwards id τs).length ≤ 1 := by
      have := SystemRun.adds_le id h
      omega
    obtain ⟨only, honly⟩ := List.length_eq_one_iff.mp
      (le_antisymm hlength (List.length_pos_of_mem hmem))
    rw [honly, List.mem_singleton] at hmem hmem'
    exact congrArg Prod.fst (hmem.trans hmem'.symm)
  · exact (hreaches.solo hcoordinated).trans (hreaches'.solo hcoordinated).symm

/-- Where the outputs of an id are: all of them come from one rank, the one its ADD was
forwarded to, and are on the stream, in the queue of the router or in that of the rank. -/
structure InOrder (τs : List SystemTransition) (s : System) (id : RequestId) (stream rank : ℕ) :
    Prop where
  rank_eq : ∀ rank' submission, (rank', submission) ∈ forwards id τs → rank' = rank
  emitted_eq : EngineCore.emitted id (coreHistory rank τs) =
    s.client.streamItems stream ++ queuedFor id s.outputs ++ queuedFor id (s.ranks rank).outputs
  others : ∀ other, other ≠ rank → EngineCore.emitted id (coreHistory other τs) = [] ∧
    queuedFor id (s.ranks other).outputs = []

/-- An id that reaches no other rank is delivered in order from this one. -/
theorem SystemRun.inOrder (h : SystemRun config promptTokenizer tokenizer τs s)
    (honce : (registeredIds τs).count id ≤ 1) {stream : ℕ}
    (hget : s.client.streams.get? id = some stream)
    (honly : ∀ other, Reaches config id other τs → other = rank) : InOrder τs s id stream rank where
  rank_eq := fun rank' _ hmem => honly rank' (SystemRun.reaches_of_forwards h hmem)
  emitted_eq := by
    have hfrom : arrivalsFrom config id rank τs = (arrivals config id τs).map (·.2) := by
      rw [arrivalsFrom, List.filter_eq_self.mpr]
      intro arrival hmem
      simpa using honly _ (SystemRun.reaches_of_arrival h hmem)
    rw [(SystemRun.rank_hop _ _ h).1, hfrom, SystemRun.streamItems_eq h honce hget]
  others := by
    intro other hne
    have hnone : EngineCore.emitted id (coreHistory other τs) = [] := by
      by_contra hsome
      exact hne (honly other (SystemRun.reaches_of_emitted h hsome))
    have hbooks := (SystemRun.rank_hop id other h).1
    rw [hnone] at hbooks
    exact ⟨hnone, (List.append_eq_nil_iff.mp hbooks.symm).2⟩

/-- While the stream of an id is open, its outputs are delivered in the order in which its core
emitted them, and none is lost or doubled on the way. -/
theorem delivered_in_order (h : SystemRun config promptTokenizer tokenizer τs s)
    (hdistinct : (registeredIds τs).Nodup) {id : RequestId} {stream : ℕ}
    (hget : s.client.streams.get? id = some stream) : ∃ rank, InOrder τs s id stream rank := by
  have honce := List.nodup_iff_count_le_one.mp hdistinct id
  by_cases hsome : ∃ rank, Reaches config id rank τs
  · obtain ⟨rank, hreaches⟩ := hsome
    exact ⟨rank, SystemRun.inOrder h honce hget
      fun other hother => SystemRun.reaches_unique h honce hother hreaches⟩
  · exact ⟨0, SystemRun.inOrder h honce hget fun other hother => absurd ⟨other, hother⟩ hsome⟩

end Runs

def interleavedEvents : List Event :=
  [submits "a", submits "b", .coordinate, .coordinate, .command 1, .command 0, .call (.abort "b"),
    .call (.abort "a"), .coordinate, .coordinate, .command 0, .command 1, .drain 1, .drain 0, .route]

theorem delivered_in_order_interleaved : ∃ τs s,
    SystemRun twoRanks (.ofTokenizer characterTokenizer) characterTokenizer τs s ∧
      s.client.streamItems 1 = [EngineCore.abortOutput "b"] ∧
      ∃ rank, InOrder τs s "b" 1 rank := by
  have hsome : (drive twoRanks characterTokenizer interleavedEvents).map
      (fun run => (registeredIds run.1, run.2.client.streams.get? "b",
        run.2.client.streamItems 1)) =
      some (["a", "b"], some 1, [EngineCore.abortOutput "b"]) := by decide +kernel
  obtain ⟨⟨τs, s⟩, hdrive, hseen⟩ := Option.map_eq_some_iff.mp hsome
  simp only [Prod.mk.injEq] at hseen
  obtain ⟨hids, hget, hitems⟩ := hseen
  have hrun := drive_run hdrive (by decide)
  exact ⟨τs, s, hrun, hitems, delivered_in_order hrun (by simp [hids]) hget⟩

end System

end MiniVLLM
