import MiniVLLM.Verification.System.Steps

/-! # Whose outputs a stream gets

Outputs find their stream by the id alone. A submission is in flight while its ADD is queued,
its request runs or an output of it is queued; an id that is registered while nothing of it
is in flight keeps its stream to itself. -/

namespace MiniVLLM

/-- A submission of the id is in flight at a rank: its ADD is queued at a core that still takes
commands, its request is live there, or an output of it is not yet drained. -/
inductive RankProcess.InFlight (process : RankProcess) (id : RequestId)
    (submission : Option ℕ) : Prop where
  | queued {request} (hrunning : process.core.stopped = false)
      (hmem : ⟨.add request, submission⟩ ∈ process.commands) (hid : request.requestId = id)
  | live (hrunning : process.core.stopped = false)
      (hlive : (process.core.scheduler.request? id).isSome) (howner : process.owners id = submission)
  | emitted {output} (hmem : ⟨.output output, submission⟩ ∈ process.outputs)
      (hid : output.requestId = id)

namespace System

/-- A submission of the id is in flight somewhere between its call and the router. -/
inductive InFlight (s : System) (id : RequestId) (submission : Option ℕ) : Prop where
  | queued {request} (hmem : ⟨.add request, submission⟩ ∈ s.commands)
      (hid : request.requestId = id)
  | atRank (rank : ℕ) (h : (s.ranks rank).InFlight id submission)
  | drained {output} (hmem : ⟨.output output, submission⟩ ∈ s.outputs)
      (hid : output.requestId = id)

/-- What is in flight for a registered id belongs to its stream. -/
def Owned (s : System) : Prop :=
  ∀ id stream, s.client.streams.get? id = some stream →
    ∀ submission, s.InFlight id submission → submission = some stream

/-- The step registers no id while an earlier submission of it is in flight. -/
def RegistersIdle (τ : SystemTransition) : Prop :=
  ∀ id, id ∉ τ.pre.client.streams.keys → id ∈ τ.post.client.streams.keys →
    ∀ submission, ¬ τ.pre.InFlight id submission

/-! ## One core -/

section Core

variable {config : EngineConfig} {tokenizer : Tokenizer} {process : RankProcess}
  {event : EngineCore.Event} {submission : Option ℕ} {commands : List (Tagged EngineCommand)}
  {core : EngineCore} {messages : List CoreMessage}

theorem Takes.sublist (h : Takes process event submission commands) :
    ∀ command ∈ commands, command ∈ process.commands := by
  intro command hmem
  cases h with
  | command hnext =>
      rw [hnext]
      exact List.mem_cons_of_mem _ hmem
  | engineStep => exact hmem
  | leave => exact hmem

theorem Takes.mem_of_add {request : EngineRequest}
    (h : Takes process (.command (.add request)) submission commands) :
    ⟨.add request, submission⟩ ∈ process.commands := by
  generalize hevent : EngineCore.Event.command (.add request) = taken at h
  cases h with
  | @command command commands hnext =>
      have hvalue : EngineCommand.add request = command.value := EngineCore.Event.command.inj hevent
      rw [hnext, hvalue]
      exact List.mem_cons_self
  | engineStep => cases hevent
  | leave => cases hevent

theorem mem_tagged {output : RequestOutput} {tag : Option ℕ} {owners : RequestId → Option ℕ}
    (h : ⟨.output output, tag⟩ ∈ messages.filterMap (tagMessage event submission owners)) :
    output ∈ outputsFor output.requestId messages ∧
      tag = ownerOf event submission owners output := by
  obtain ⟨message, hmem, htag⟩ := List.mem_filterMap.mp h
  cases message with
  | batch => cases htag
  | event outputEvent =>
      cases outputEvent with
      | metrics => cases htag
      | output sent =>
          obtain ⟨rfl, rfl⟩ : sent = output ∧ ownerOf event submission owners sent = tag := by
            simpa [tagMessage] using htag
          refine ⟨?_, rfl⟩
          simp only [outputsFor, outputsOf, List.mem_filter, List.mem_filterMap]
          exact ⟨⟨_, hmem, rfl⟩, by simp⟩

/-- An output of a core belongs to a request that was live, or to the ADD it rejects. -/
theorem output_inFlight (htakes : Takes process event submission commands)
    (hrunning : process.core.stopped = false) {id : RequestId} {output : RequestOutput}
    (hshare : RequestStep config tokenizer id process.core core event
      (process.core.scheduler.request? id) (itemsFor id messages) (outputsFor id messages)
      (core.scheduler.request? id)) (hout : output ∈ outputsFor id messages) :
    process.InFlight id (ownerOf event submission process.owners output) := by
  have hid : output.requestId = id := by
    simp only [outputsFor, List.mem_filter] at hout
    simpa using hout.2
  generalize hr : process.core.scheduler.request? id = r? at hshare
  generalize core.scheduler.request? id = r'? at hshare
  generalize itemsFor id messages = items at hshare
  generalize outputsFor id messages = outs at hshare hout
  subst hid
  cases hshare with
  | keep => cases hout
  | accept => cases hout
  | reject hrequest => exact .queued hrunning htakes.mem_of_add hrequest
  | abort => exact .live hrunning (by simp [hr]) rfl
  | answer => exact .live hrunning (by simp [hr]) rfl
  | fail => exact .live hrunning (by simp [hr]) rfl
  | crash => exact .live hrunning (by simp [hr]) rfl

theorem live_before {id : RequestId} {core₀ : EngineCore} {r? r'? : Option RequestState}
    {items : List WorkerItem} {outs : List RequestOutput}
    (h : RequestStep config tokenizer id core₀ core event r? items outs r'?)
    (hadd : ∀ request, event ≠ .command (.add request)) (hlive : r'?.isSome) : r?.isSome := by
  cases h with
  | keep => exact hlive
  | accept => exact absurd rfl (hadd _)
  | reject => exact hlive
  | abort => rfl
  | answer => rfl
  | fail => rfl
  | crash => rfl

/-- A request that is live after a step was live before, or is the ADD that the core took. -/
theorem live_inFlight (htakes : Takes process event submission commands)
    (hrunning : process.core.stopped = false)
    (hd : EngineCore.StepDerivation config tokenizer process.core event messages core)
    (hshare : ∀ id, RequestStep config tokenizer id process.core core event
      (process.core.scheduler.request? id) (itemsFor id messages) (outputsFor id messages)
      (core.scheduler.request? id)) {id : RequestId}
    (hlive : (core.scheduler.request? id).isSome) :
    process.InFlight id (newOwners event submission messages process.owners id) := by
  by_cases hadd : ∀ request, event ≠ .command (.add request)
  · have howner : newOwners event submission messages process.owners = process.owners := by
      cases event with
      | command command =>
          cases command with
          | add request => exact absurd rfl (hadd request)
          | abort => rfl
          | shutdown => rfl
      | engineStep => rfl
      | leave => rfl
    rw [howner]
    exact .live hrunning (live_before (hshare id) hadd hlive) rfl
  · push Not at hadd
    obtain ⟨request, rfl⟩ := hadd
    cases hd with
    | accept hnew =>
        by_cases hid : id = request.requestId
        · subst hid
          have howner : newOwners (.command (.add request)) submission [] process.owners
              request.requestId = submission := by simp [newOwners]
          rw [howner]
          exact .queued hrunning htakes.mem_of_add rfl
        · refine .live hrunning ?_ (by simp [newOwners, hid])
          simpa [EngineCore.next, Scheduler.request?_enqueued hnew, hid] using hlive
    | reject => exact .live hrunning hlive (by simp [newOwners])

end Core

/-! ## Steps -/

section Step

variable {config : EngineConfig} {promptTokenizer : PromptTokenizer} {tokenizer : Tokenizer}
  {s s' : System} {event : Event} {out : List Observation} {τs : List SystemTransition}
  {id : RequestId} {submission : Option ℕ}

theorem inFlight_of_received {process : RankProcess} {command : Tagged EngineCommand}
    (h : RankProcess.InFlight { process with commands := process.commands ++ [command] } id
      submission) :
    process.InFlight id submission ∨
      ∃ request, command = ⟨.add request, submission⟩ ∧ request.requestId = id := by
  cases h with
  | queued hrunning hmem hid =>
      rcases List.mem_append.mp hmem with hmem | hmem
      · exact Or.inl (.queued hrunning hmem hid)
      · exact Or.inr ⟨_, (List.mem_singleton.mp hmem).symm, hid⟩
  | live hrunning hlive howner => exact Or.inl (.live hrunning hlive howner)
  | emitted hmem hid => exact Or.inl (.emitted hmem hid)

theorem inFlight_of_drained {process : RankProcess} {event : Tagged OutputEvent}
    {outputs : List (Tagged OutputEvent)} (hnext : process.outputs = event :: outputs)
    (h : RankProcess.InFlight { process with outputs := outputs } id submission) :
    process.InFlight id submission := by
  cases h with
  | queued hrunning hmem hid => exact .queued hrunning hmem hid
  | live hrunning hlive howner => exact .live hrunning hlive howner
  | emitted hmem hid =>
      refine .emitted ?_ hid
      rw [hnext]
      exact List.mem_cons_of_mem _ hmem

theorem inFlight_core (id : RequestId) (submission : Option ℕ) {rank : ℕ}
    {coreEvent : EngineCore.Event} {tag : Option ℕ}
    {commands : List (Tagged EngineCommand)} {core : EngineCore} {messages : List CoreMessage}
    (hrun : SystemRun config promptTokenizer tokenizer τs s)
    (htakes : Takes (s.ranks rank) coreEvent tag commands)
    (hstep : EngineCore.Step (coreConfig config rank) tokenizer (s.ranks rank).core coreEvent
      messages core) :
    (∀ output ∈ outputsFor id messages, (s.ranks rank).InFlight id
      (ownerOf coreEvent tag (s.ranks rank).owners output)) ∧
    (∀ outputs, RankProcess.InFlight ⟨core, commands, outputs,
        newOwners coreEvent tag messages (s.ranks rank).owners⟩ id submission →
      (s.ranks rank).InFlight id submission ∨
        ∃ output, ⟨.output output, submission⟩ ∈ outputs ∧ output.requestId = id) := by
  have htrace := SystemRun.core_trace hrun rank
  have hrunning := hstep.running
  have hd := (hstep.derivation (EngineCore.Trace.stable htrace)).1
  have hshare := hd.request (EngineCore.Trace.stable htrace hrunning)
  refine ⟨fun output hout => output_inFlight htakes hrunning (hshare id) hout, ?_⟩
  intro outputs hprocess
  cases hprocess with
  | queued _ hmem hid => exact Or.inl (.queued hrunning (htakes.sublist _ hmem) hid)
  | live _ hlive howner =>
      have hlive' := live_inFlight htakes hrunning hd hshare hlive
      rw [show newOwners _ _ _ _ id = submission from howner] at hlive'
      exact Or.inl hlive'
  | emitted hmem hid => exact Or.inr ⟨_, hmem, hid⟩

/-- The call registers the id, for the submission that it numbers. -/
def Submits (s : System) (id : RequestId) (submission : Option ℕ) (event : Event) (s' : System) :
    Prop :=
  ∃ call, event = .call call ∧ submission = some s.client.nextStream ∧
    s'.client = s.client.registered id ∧ id ∉ s.client.streams.keys

theorem submits_of_add (s' : System) {call : Client.Call} {client : Client} {request : EngineRequest}
    (hd : s.client.CallDerivation call client [.add request]) (hclient : s'.client = client) :
    Submits s request.requestId (some s.client.nextStream) (.call call) s' := by
  subst hclient
  generalize hsent : [EngineCommand.add request] = sent at hd
  generalize hclient : s'.client = client at hd
  cases hd with
  | accept hnew hid =>
      obtain rfl := EngineCommand.add.inj (List.cons.inj hsent).1
      exact ⟨_, rfl, rfl, by rw [hclient, hid], hid ▸ hnew⟩
  | _ => cases hsent

/-- A submission gets to a rank by being forwarded there; without a coordinator its call puts
it there. -/
theorem StepDerivation.rank_inFlight
    (hd : StepDerivation config promptTokenizer tokenizer s event out s') (hranked : event.Ranked)
    (hrun : SystemRun config promptTokenizer tokenizer τs s) {rank : ℕ}
    (h : (s'.ranks rank).InFlight id submission) :
    (s.ranks rank).InFlight id submission ∨
      (Coordinated config ∧
        ∃ request, out = [.forwarded rank ⟨.add request, submission⟩] ∧ request.requestId = id) ∨
      (¬ Coordinated config ∧ rank = 0 ∧ Submits s id submission event s') := by
  cases hd with
  | quietCall => exact Or.inl h
  | @sendingCall call client command hd =>
      rw [show System.ranks _ = (s.putCommand config _).ranks from rfl, putCommand_ranks] at h
      split at h
      · rename_i hsolo
        rcases inFlight_of_received h with h | ⟨request, hcommand, rfl⟩
        · exact Or.inl h
        · obtain ⟨rfl, htag⟩ := (Tagged.mk.injEq _ _ _ _).mp hcommand
          have hsubmits := submits_of_add { s.putCommand config
            ⟨.add request, submissionOf s.client (.add request)⟩ with client := client } hd rfl
          rw [show some s.client.nextStream = submission from htag] at hsubmits
          exact Or.inr (Or.inr ⟨hsolo.1, hsolo.2, hsubmits⟩)
      · exact Or.inl h
  | @forward command commands coordinator target hcoordinated =>
      rw [putRankCommand_ranks] at h
      split at h
      · rename_i hsame
        subst hsame
        rcases inFlight_of_received h with h | ⟨request, rfl, hid⟩
        · exact Or.inl h
        · exact Or.inr (Or.inl ⟨hcoordinated, request, rfl, hid⟩)
      · exact Or.inl h
  | keepBack => exact Or.inl h
  | @drain target _ _ _ _ _ hnext =>
      rw [show System.ranks _ = (s.onRank target _).ranks from rfl, onRank_ranks] at h
      split at h
      · rename_i hsame
        subst hsame
        exact Or.inl (inFlight_of_drained hnext h)
      · exact Or.inl h
  | coordinatorLeave =>
      rw [broadcast_ranks] at h
      split at h
      · rcases inFlight_of_received h with h | ⟨request, hcommand, _⟩
        · exact Or.inl h
        · cases hcommand
      · exact Or.inl h
  | @core target coreEvent tag commands core messages _ htakes hstep =>
      left
      rw [putOutputs_ranks, onRank_ranks] at h
      by_cases hsame : rank = target
      · subst hsame
        obtain ⟨houtputs, hcore⟩ := inFlight_core id submission hrun htakes
          ⟨Event.ranked_ofCore.mp hranked, hstep⟩
        rw [if_pos rfl] at h
        split at h
        · rcases hcore _ h with h | ⟨output, hmem, rfl⟩
          · exact h
          · rcases List.mem_append.mp hmem with hmem | hmem
            · exact .emitted hmem rfl
            · obtain ⟨hout, rfl⟩ := mem_tagged hmem
              exact houtputs output hout
        · rcases hcore _ h with h | ⟨output, hmem, hid⟩
          · exact h
          · exact .emitted hmem hid
      · rw [if_neg (fun h => hsame h.2), if_neg hsame] at h
        exact h
  | route => exact Or.inl h

theorem StepDerivation.forwarded_mem {rank : ℕ} {command : Tagged EngineCommand}
    (hd : StepDerivation config promptTokenizer tokenizer s event out s')
    (hout : out = [.forwarded rank command]) : command ∈ s.commands := by
  cases hd with
  | forward _ _ hnext =>
      obtain ⟨rfl, rfl⟩ : _ = rank ∧ _ = command := by simpa using hout
      rw [hnext]
      exact List.mem_cons_self
  | drain => simp at hout
  | core =>
      obtain ⟨message, _, hmessage⟩ := List.map_eq_singleton_iff.mp hout
      cases hmessage
  | route =>
      obtain ⟨_, _, _, _, hobservation⟩ := mem_deliveries (hout ▸ List.mem_singleton_self _)
      cases hobservation
  | _ => cases hout

theorem StepDerivation.commands_mem {request : EngineRequest}
    (hd : StepDerivation config promptTokenizer tokenizer s event out s')
    (hmem : ⟨.add request, submission⟩ ∈ s'.commands) :
    ⟨.add request, submission⟩ ∈ s.commands ∨
      Submits s request.requestId submission event s' := by
  cases hd with
  | quietCall => exact Or.inl hmem
  | @sendingCall call client command hd =>
      rw [show System.commands _ = (s.putCommand config _).commands from rfl,
        putCommand_commands] at hmem
      split at hmem
      · rcases List.mem_append.mp hmem with hmem | hmem
        · exact Or.inl hmem
        · obtain ⟨rfl, htag⟩ := (Tagged.mk.injEq _ _ _ _).mp (List.mem_singleton.mp hmem)
          rw [htag]
          exact Or.inr (submits_of_add _ hd rfl)
      · exact Or.inl hmem
  | forward _ _ hnext =>
      rw [hnext]
      exact Or.inl (List.mem_cons_of_mem _ hmem)
  | keepBack _ _ hnext =>
      rw [hnext]
      exact Or.inl (List.mem_cons_of_mem _ hmem)
  | drain => exact Or.inl hmem
  | coordinatorLeave =>
      rw [(broadcast_kept _ _).2.1] at hmem
      exact Or.inl hmem
  | core => exact Or.inl (by simpa [onRank] using hmem)
  | route => exact Or.inl hmem

theorem StepDerivation.outputs_mem {output : RequestOutput}
    (hd : StepDerivation config promptTokenizer tokenizer s event out s') (hranked : event.Ranked)
    (hrun : SystemRun config promptTokenizer tokenizer τs s)
    (hmem : ⟨.output output, submission⟩ ∈ s'.outputs) :
    ⟨.output output, submission⟩ ∈ s.outputs ∨
      ∃ rank, (s.ranks rank).InFlight output.requestId submission := by
  cases hd with
  | quietCall => exact Or.inl hmem
  | sendingCall => exact Or.inl (by simpa using hmem)
  | forward => exact Or.inl hmem
  | keepBack => exact Or.inl hmem
  | @drain rank _ _ _ _ _ hnext =>
      rcases List.mem_append.mp hmem with hmem | hmem
      · exact Or.inl hmem
      · refine Or.inr ⟨rank, .emitted ?_ rfl⟩
        rw [hnext, List.mem_singleton.mp hmem]
        exact List.mem_cons_self
  | coordinatorLeave =>
      rw [(broadcast_kept _ _).2.2.2] at hmem
      exact Or.inl hmem
  | @core rank coreEvent tag commands core messages _ htakes hstep =>
      rw [putOutputs_outputs] at hmem
      split at hmem
      · exact Or.inl hmem
      · rcases List.mem_append.mp hmem with hmem | hmem
        · exact Or.inl hmem
        · obtain ⟨hout, rfl⟩ := mem_tagged hmem
          exact Or.inr ⟨rank, (inFlight_core _ none hrun htakes
            ⟨Event.ranked_ofCore.mp hranked, hstep⟩).1 output hout⟩
  | route hnext =>
      rw [hnext]
      exact Or.inl (List.mem_cons_of_mem _ hmem)

/-- Only a call that registers the id puts a submission of it in flight. -/
theorem StepDerivation.inFlight
    (hd : StepDerivation config promptTokenizer tokenizer s event out s') (hranked : event.Ranked)
    (hrun : SystemRun config promptTokenizer tokenizer τs s) (h : s'.InFlight id submission) :
    s.InFlight id submission ∨ Submits s id submission event s' := by
  cases h with
  | queued hmem hid =>
      subst hid
      rcases hd.commands_mem hmem with hmem | hsubmits
      · exact Or.inl (.queued hmem rfl)
      · exact Or.inr hsubmits
  | atRank rank h =>
      rcases hd.rank_inFlight hranked hrun h with h | ⟨_, request, hout, hid⟩ | ⟨_, _, hsubmits⟩
      · exact Or.inl (.atRank rank h)
      · exact Or.inl (.queued (hd.forwarded_mem hout) hid)
      · exact Or.inr hsubmits
  | drained hmem hid =>
      subst hid
      rcases hd.outputs_mem hranked hrun hmem with hmem | ⟨rank, h⟩
      · exact Or.inl (.drained hmem rfl)
      · exact Or.inl (.atRank rank h)

theorem StepDerivation.get?_streams {stream : ℕ}
    (hd : StepDerivation config promptTokenizer tokenizer s event out s')
    (hget : s'.client.streams.get? id = some stream) :
    s.client.streams.get? id = some stream ∨ id ∉ s.client.streams.keys := by
  cases hd with
  | quietCall hd => exact hd.get?_streams hget
  | sendingCall hd => exact hd.get?_streams hget
  | forward => exact Or.inl hget
  | keepBack => exact Or.inl hget
  | drain => exact Or.inl hget
  | coordinatorLeave =>
      rw [(broadcast_kept _ _).1] at hget
      exact Or.inl hget
  | core =>
      rw [putOutputs_client] at hget
      exact Or.inl hget
  | route =>
      rw [Client.route_streams] at hget
      exact Or.inl hget

/-- A step keeps what is in flight with its stream. -/
theorem Owned.step (h : Owned s)
    (hd : StepDerivation config promptTokenizer tokenizer s event out s') (hranked : event.Ranked)
    (hrun : SystemRun config promptTokenizer tokenizer τs s)
    (hidle : RegistersIdle ⟨s, event, out, s'⟩) : Owned s' := by
  intro id stream hget submission hflight
  rcases hd.inFlight hranked hrun hflight with hbefore | ⟨_, _, rfl, hclient, _⟩
  · rcases hd.get?_streams hget with hsame | hnew
    · exact h id stream hsame submission hbefore
    · exact absurd hbefore (hidle id hnew (Dict.mem_keys_of_get? hget) submission)
  · rw [hclient, Client.registered, Dict.get?_set, if_pos rfl] at hget
    exact hget

theorem StepDerivation.delivered {stream : ℕ} {output : RequestOutput}
    (hd : StepDerivation config promptTokenizer tokenizer s event out s')
    (hmem : .delivered stream output submission ∈ out) :
    s.client.streams.get? output.requestId = some stream ∧
      s.InFlight output.requestId submission := by
  cases hd with
  | @route event outputs hnext =>
      obtain ⟨value, tag⟩ := event
      obtain ⟨found, sent, rfl, hget, hobservation⟩ := mem_deliveries hmem
      obtain ⟨rfl, rfl, rfl⟩ := (Observation.delivered.injEq _ _ _ _ _ _).mp hobservation
      refine ⟨hget, .drained ?_ rfl⟩
      rw [hnext]
      exact List.mem_cons_self
  | core => simp at hmem
  | _ => simp at hmem

end Step

/-! ## Runs -/

section Runs

variable {config : EngineConfig} {promptTokenizer : PromptTokenizer} {tokenizer : Tokenizer}
  {s : System} {τs : List SystemTransition}

theorem SystemRun.owned (h : SystemRun config promptTokenizer tokenizer τs s)
    (hidle : ∀ τ ∈ τs, RegistersIdle τ) : Owned s := by
  induction h with
  | nil =>
      intro id stream hget
      simp [init] at hget
  | snoc hrun hstep ih =>
      refine (ih fun τ hτ => hidle τ (List.mem_append_left _ hτ)).step
        (SystemRun.derivation hrun hstep) hstep.ranked hrun (hidle _ ?_)
      exact List.mem_append_right _ List.mem_cons_self

/-- In a run that registers ids only while nothing of them is in flight, every output on a
stream was produced for the submission that created the stream. -/
theorem deliveries_owned (h : SystemRun config promptTokenizer tokenizer τs s)
    (hidle : ∀ τ ∈ τs, RegistersIdle τ) : ∀ τ ∈ τs, ∀ stream output submission,
      .delivered stream output submission ∈ τ.out → submission = some stream := by
  intro τ hτ stream output submission hmem
  obtain ⟨front, back, hsplit⟩ := List.append_of_mem hτ
  obtain ⟨hbefore, hstep⟩ := Run.of_split h hsplit
  have howned : Owned τ.pre := by
    refine SystemRun.owned hbefore fun τ' hτ' => hidle τ' ?_
    rw [hsplit]
    exact List.mem_append_left _ hτ'
  obtain ⟨hget, hflight⟩ := (SystemRun.derivation hbefore hstep).delivered hmem
  exact howned _ stream hget submission hflight

/-- Nothing is in flight that was not submitted. -/
theorem SystemRun.submitted (h : SystemRun config promptTokenizer tokenizer τs s) {id : RequestId}
    {submission : Option ℕ} (hflight : s.InFlight id submission) :
    ∃ τ ∈ τs, Submits τ.pre id submission τ.event τ.post := by
  induction h with
  | nil =>
      cases hflight with
      | queued hmem => cases hmem
      | atRank rank hrank =>
          cases hrank with
          | queued _ hmem => cases hmem
          | live _ hlive => cases hlive
          | emitted hmem => cases hmem
      | drained hmem => cases hmem
  | snoc hrun hstep ih =>
      rcases (SystemRun.derivation hrun hstep).inFlight hstep.ranked hrun hflight with
        hbefore | hsubmits
      · obtain ⟨τ, hτ, hsubmits⟩ := ih hbefore
        exact ⟨τ, List.mem_append_left _ hτ, hsubmits⟩
      · exact ⟨_, List.mem_append_right _ List.mem_cons_self, hsubmits⟩

def registeredIds (τs : List SystemTransition) : List RequestId :=
  τs.flatMap fun τ => τ.post.client.streams.keys.filter (· ∉ τ.pre.client.streams.keys)

theorem mem_registeredIds {id : RequestId} : id ∈ registeredIds τs ↔
    ∃ τ ∈ τs, id ∉ τ.pre.client.streams.keys ∧ id ∈ τ.post.client.streams.keys := by
  simp [registeredIds, and_comm]

theorem registeredIds_append (τs τs' : List SystemTransition) :
    registeredIds (τs ++ τs') = registeredIds τs ++ registeredIds τs' := by
  simp [registeredIds]

theorem SystemRun.mem_registeredIds_of_inFlight
    (h : SystemRun config promptTokenizer tokenizer τs s) {id : RequestId} {submission : Option ℕ}
    (hflight : s.InFlight id submission) : id ∈ registeredIds τs := by
  obtain ⟨τ, hτ, _, _, _, hclient, hnew⟩ := SystemRun.submitted h hflight
  refine mem_registeredIds.mpr ⟨τ, hτ, hnew, ?_⟩
  rw [hclient]
  exact Dict.mem_keys_of_get? (Dict.get?_set_self _ _ _)

/-- Ids that are registered once are registered while nothing of them is in flight. -/
theorem SystemRun.registersIdle (h : SystemRun config promptTokenizer tokenizer τs s)
    (hdistinct : (registeredIds τs).Nodup) : ∀ τ ∈ τs, RegistersIdle τ := by
  intro τ hτ id hnew hentered submission hflight
  obtain ⟨front, back, hsplit⟩ := List.append_of_mem hτ
  obtain ⟨hbefore, _⟩ := Run.of_split h hsplit
  have hfront := SystemRun.mem_registeredIds_of_inFlight hbefore hflight
  have hback : id ∈ registeredIds (τ :: back) :=
    mem_registeredIds.mpr ⟨τ, List.mem_cons_self, hnew, hentered⟩
  rw [hsplit, registeredIds_append] at hdistinct
  exact (List.nodup_append.mp hdistinct).2.2 id hfront id hback rfl

end Runs

def deliveredOf : Observation → Option (ℕ × Option ℕ)
  | .delivered stream _ submission => some (stream, submission)
  | _ => none

theorem deliveries_owned_aborted : ∃ τs s,
    SystemRun twoRanks (.ofTokenizer characterTokenizer) characterTokenizer τs s ∧
      (Run.outputs τs).filterMap deliveredOf = [(0, some 0)] ∧
      ∀ τ ∈ τs, ∀ stream output submission,
        .delivered stream output submission ∈ τ.out → submission = some stream := by
  have hsome : (drive twoRanks characterTokenizer [submits "a", .coordinate, .command 0,
      .call (.abort "a"), .coordinate, .command 0, .drain 0, .route]).map
        (fun run => (registeredIds run.1, (Run.outputs run.1).filterMap deliveredOf)) =
      some (["a"], [(0, some 0)]) := by decide +kernel
  obtain ⟨⟨τs, s⟩, hdrive, hseen⟩ := Option.map_eq_some_iff.mp hsome
  obtain ⟨hids, hdelivered⟩ := Prod.mk.inj hseen
  have hrun := drive_run hdrive (by decide)
  have hidle := SystemRun.registersIdle hrun (by simp [hids])
  exact ⟨τs, s, hrun, hdelivered, deliveries_owned hrun hidle⟩

/-- A generator is closed early and its id submitted again; the second stream gets the output
of the ABORT. -/
theorem foreign_output_delivered :
    ¬ ∀ (config : EngineConfig) (promptTokenizer : PromptTokenizer) (tokenizer : Tokenizer)
      (τs : List SystemTransition) (s : System),
      SystemRun config promptTokenizer tokenizer τs s → ∀ τ ∈ τs, ∀ stream output submission,
        .delivered stream output submission ∈ τ.out → submission = some stream := by
  intro h
  have hsome : (drive EngineCore.smallConfig characterTokenizer [submits "a", .command 0,
      .call (.abort "a"), .call (.finishStream "a"), submits "a", .command 0, .route]).map
        (fun run => (Run.outputs run.1).filterMap deliveredOf) = some [(1, some 0)] := by
    decide +kernel
  obtain ⟨⟨τs, s⟩, hdrive, hdelivered⟩ := Option.map_eq_some_iff.mp hsome
  have hrun := drive_run hdrive (by decide)
  have hmem : (1, some 0) ∈ (Run.outputs τs).filterMap deliveredOf := by simp [hdelivered]
  obtain ⟨observation, hout, hstream⟩ := List.mem_filterMap.mp hmem
  obtain ⟨τ, hτ, hout⟩ := List.mem_flatMap.mp hout
  cases observation with
  | delivered stream output submission =>
      obtain ⟨rfl, rfl⟩ := Prod.mk.inj (Option.some.inj hstream)
      exact absurd (h _ _ _ _ _ hrun τ hτ _ _ _ hout) (by decide)
  | forwarded => cases hstream
  | sent => cases hstream
  | drained => cases hstream

end System

end MiniVLLM
