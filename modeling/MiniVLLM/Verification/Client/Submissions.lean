import MiniVLLM.Library.Run
import MiniVLLM.Model.Client

/-! # Submissions and registered streams

`submit` registers the stream before it encodes the prompt. A prompt that cannot be encoded
leaves the id taken, with nobody to give it back. -/

namespace MiniVLLM

namespace Client

def registered (client : Client) (id : RequestId) : Client :=
  { client with
    nextStream := client.nextStream + 1
    streams := client.streams.set id client.nextStream }

def requestOfPrompt (tokenizer : PromptTokenizer) (id : RequestId) (text : Text)
    (tokenIds : List TokenId) (samplingParams : SamplingParams) : EngineRequest where
  requestId := id
  prompt := text
  promptTokenIds := if tokenIds = [] then [tokenizer.bosTokenId] else tokenIds
  samplingParams := samplingParams

/-- What one submission can do. -/
inductive SubmitDerivation (tokenizer : PromptTokenizer) (id : RequestId) (prompt : Prompt)
    (samplingParams : SamplingParams) (client : Client) :
    EStateM.Result PyError Client (RequestId × ℕ) → Prop where
  | closed (h : client.closed = true) : SubmitDerivation tokenizer id prompt samplingParams client
      (.error (.runtimeError "engine is closed") client)
  | duplicate (hopen : client.closed = false) (h : id ∈ client.streams.keys) :
      SubmitDerivation tokenizer id prompt samplingParams client
        (.error (.valueError s!"duplicate request id: {id}")
          { client with nextStream := client.nextStream + 1 })
  | encodeRaises {error} (hopen : client.closed = false) (hnew : id ∉ client.streams.keys)
      (h : tokenizer.encode prompt = .error error) :
      SubmitDerivation tokenizer id prompt samplingParams client
        (.error error (client.registered id))
  | accept {text tokenIds} (hopen : client.closed = false) (hnew : id ∉ client.streams.keys)
      (h : tokenizer.encode prompt = .ok (text, tokenIds)) :
      SubmitDerivation tokenizer id prompt samplingParams client
        (.ok (id, client.nextStream)
          { client.registered id with
            sent := client.sent ++
              [.add (requestOfPrompt tokenizer id text tokenIds samplingParams)] })

section Submit

variable {tokenizer : PromptTokenizer} {uuid : RequestId} {prompt : Prompt}
  {samplingParams : SamplingParams} {requestId : Option RequestId} {client : Client}

theorem submit_derivation (tokenizer : PromptTokenizer) (uuid : RequestId) (prompt : Prompt)
    (samplingParams : SamplingParams) (requestId : Option RequestId) (client : Client) :
    SubmitDerivation tokenizer (chooseId requestId uuid) prompt samplingParams client
      ((submit tokenizer uuid prompt samplingParams requestId).run client) := by
  cases hclosed : client.closed with
  | true =>
      have hrun : (submit tokenizer uuid prompt samplingParams requestId).run client =
          .error (.runtimeError "engine is closed") client := by
        simp [submit, hclosed]
      rw [hrun]
      exact .closed hclosed
  | false =>
      by_cases hnew : chooseId requestId uuid ∈ client.streams.keys
      · have hrun : (submit tokenizer uuid prompt samplingParams requestId).run client =
            .error (.valueError s!"duplicate request id: {chooseId requestId uuid}")
              { client with nextStream := client.nextStream + 1 } := by
          simp [submit, hclosed, newStream, register, hnew]
        rw [hrun]
        exact .duplicate hclosed hnew
      · cases hencode : tokenizer.encode prompt with
        | error error =>
            have hrun : (submit tokenizer uuid prompt samplingParams requestId).run client =
                .error error (client.registered (chooseId requestId uuid)) := by
              simp [submit, hclosed, newStream, register, hnew, hencode, registered]
            rw [hrun]
            exact .encodeRaises hclosed hnew hencode
        | ok encoded =>
            obtain ⟨text, tokenIds⟩ := encoded
            have hrun : (submit tokenizer uuid prompt samplingParams requestId).run client =
                .ok (chooseId requestId uuid, client.nextStream)
                  { client.registered (chooseId requestId uuid) with
                    sent := client.sent ++ [.add (requestOfPrompt tokenizer
                      (chooseId requestId uuid) text tokenIds samplingParams)] } := by
              simp [submit, hclosed, newStream, register, hnew, hencode, registered, put,
                requestOfPrompt]
            rw [hrun]
            exact .accept hclosed hnew hencode

/-- A call that raised left the streams and the commands alone, unless it got as far as a
prompt that cannot be encoded. -/
theorem submit_error_iff {error : PyError} {client' : Client}
    (h : (submit tokenizer uuid prompt samplingParams requestId).run client =
      .error error client') :
    (client'.streams = client.streams ∧ client'.sent = client.sent) ↔
      ¬ (client.closed = false ∧ chooseId requestId uuid ∉ client.streams.keys) := by
  have hd := submit_derivation tokenizer uuid prompt samplingParams requestId client
  rw [h] at hd
  cases hd with
  | closed hclosed => simp [hclosed]
  | duplicate hopen hold => simp [hold]
  | encodeRaises hopen hnew hencode =>
      refine iff_of_false (fun hsame => ?_) (fun hreach => hreach ⟨hopen, hnew⟩)
      have hin : chooseId requestId uuid ∈ (client.registered (chooseId requestId uuid)).streams.keys :=
        Dict.mem_keys_set.mpr (Or.inl rfl)
      rw [hsame.1] at hin
      exact hnew hin

theorem submit_ok_iff :
    (∃ answer client', (submit tokenizer uuid prompt samplingParams requestId).run client =
        .ok answer client') ↔
      client.closed = false ∧ chooseId requestId uuid ∉ client.streams.keys ∧
        ∃ encoded, tokenizer.encode prompt = .ok encoded := by
  have hd := submit_derivation tokenizer uuid prompt samplingParams requestId client
  generalize (submit tokenizer uuid prompt samplingParams requestId).run client = result at hd
  cases hd with
  | closed hclosed => simp [hclosed]
  | duplicate hopen hold => simp [hold]
  | encodeRaises hopen hnew hencode => simp [hencode]
  | accept hopen hnew hencode => simp [hopen, hnew, hencode]

end Submit

/-! ## Histories of calls -/

abbrev CallTransition := Transition Client Call Unit

/-- A call leads to the state it ends in, also where it raises. -/
def CallStep (tokenizer : PromptTokenizer) (client : Client) (call : Call) (out : List Unit)
    (client' : Client) : Prop :=
  out = [] ∧ (call.execute tokenizer).final client = client'

def SubmitsAs (tokenizer : PromptTokenizer) (id : RequestId) (τ : CallTransition) : Prop :=
  ∃ uuid prompt samplingParams requestId stream client',
    τ.event = .submit uuid prompt samplingParams requestId ∧
    (submit tokenizer uuid prompt samplingParams requestId).run τ.pre = .ok (id, stream) client'

/-- The call was a submission that found its id free, and whose prompt cannot be encoded. -/
def RaisesInEncode (tokenizer : PromptTokenizer) (τ : CallTransition) : Prop :=
  ∃ uuid prompt samplingParams requestId error,
    τ.event = .submit uuid prompt samplingParams requestId ∧ τ.pre.closed = false ∧
    chooseId requestId uuid ∉ τ.pre.streams.keys ∧ tokenizer.encode prompt = .error error

/-- A submission returned the id, and `finish_stream` was not called for it since. -/
def Held (tokenizer : PromptTokenizer) (id : RequestId) (τs : List CallTransition) : Prop :=
  τs.OpenSince (SubmitsAs tokenizer id) (fun τ => τ.event = .finishStream id)

section Calls

variable {tokenizer : PromptTokenizer} {client client' : Client} {call : Call} {out : List Unit}
  {id : RequestId} {τs : List CallTransition} {τ : CallTransition}

theorem held_append_singleton :
    Held tokenizer id (τs ++ [τ]) ↔
      SubmitsAs tokenizer id τ ∨ (Held tokenizer id τs ∧ τ.event ≠ .finishStream id) :=
  List.openSince_append_singleton

theorem not_submitsAs_of_event (hne : ∀ uuid prompt samplingParams requestId,
    τ.event ≠ .submit uuid prompt samplingParams requestId) : ¬ SubmitsAs tokenizer id τ := by
  rintro ⟨uuid, prompt, samplingParams, requestId, _, _, hevent, _⟩
  exact hne _ _ _ _ hevent

@[simp] theorem countBatch_streams (metrics : BatchMetrics) (client : Client) :
    (client.countBatch metrics).streams = client.streams := by
  unfold countBatch
  split_ifs <;> rfl

@[simp] theorem deliver_streams (output : RequestOutput) (client : Client) :
    (client.deliver output).streams = client.streams := by
  unfold deliver
  split <;> rfl

@[simp] theorem route_streams (event : OutputEvent) (client : Client) :
    (client.route event).streams = client.streams := by
  cases event with
  | metrics metrics => simp [route, eventMetrics]
  | output output => cases hm : output.metrics <;> simp [route, eventMetrics, hm]

theorem mem_streams_submit {uuid : RequestId} {prompt : Prompt} {samplingParams : SamplingParams}
    {requestId : Option RequestId}
    (hgood : ¬ (client.closed = false ∧ chooseId requestId uuid ∉ client.streams.keys ∧
      ∃ error, tokenizer.encode prompt = .error error)) :
    id ∈ ((submit tokenizer uuid prompt samplingParams requestId).final client).streams.keys ↔
      (∃ stream client', (submit tokenizer uuid prompt samplingParams requestId).run client =
        .ok (id, stream) client') ∨ id ∈ client.streams.keys := by
  have hd := submit_derivation tokenizer uuid prompt samplingParams requestId client
  unfold EStateM.final
  generalize (submit tokenizer uuid prompt samplingParams requestId).run client = result at hd
  cases hd with
  | closed hclosed => simp
  | duplicate hopen hold => simp
  | encodeRaises hopen hnew hencode => exact absurd ⟨hopen, hnew, _, hencode⟩ hgood
  | accept hopen hnew hencode => simp [registered, Dict.mem_keys_set, eq_comm]

/-- What one call does to the registered ids, if it does not reach a raising `encode`. -/
theorem CallStep.mem_streams (hs : CallStep tokenizer client call out client')
    (hgood : ¬ RaisesInEncode tokenizer ⟨client, call, out, client'⟩) :
    id ∈ client'.streams.keys ↔ SubmitsAs tokenizer id ⟨client, call, out, client'⟩ ∨
      (id ∈ client.streams.keys ∧ call ≠ .finishStream id) := by
  obtain ⟨_, rfl⟩ := hs
  cases call with
  | submit uuid prompt samplingParams requestId =>
      rw [Call.execute, EStateM.final_discard, mem_streams_submit]
      · simp [SubmitsAs]
      · rintro ⟨hopen, hnew, error, hencode⟩
        exact hgood ⟨uuid, prompt, samplingParams, requestId, error, rfl, hopen, hnew, hencode⟩
  | finishStream requestId =>
      have hstreams : ((Call.finishStream requestId).execute tokenizer).final client =
          { client with streams := client.streams.erase requestId } := rfl
      rw [hstreams]
      simp [not_submitsAs_of_event, Dict.mem_keys_erase, and_comm, eq_comm]
  | abort requestId =>
      have hstreams : (((Call.abort requestId).execute tokenizer).final client).streams =
          client.streams := by
        cases h : client.closed <;> simp [Call.execute, Client.abort, EStateM.final, h, put]
      simp [not_submitsAs_of_event, hstreams]
  | close =>
      have hstreams : ((Call.close.execute tokenizer).final client).streams = client.streams := by
        cases h : client.closed <;> simp [Call.execute, Client.close, EStateM.final, h, put]
      simp [not_submitsAs_of_event, hstreams]
  | route event =>
      have hstreams : (((Call.route event).execute tokenizer).final client).streams =
          client.streams := route_streams event client
      simp [not_submitsAs_of_event, hstreams]

theorem CallStep.registers (hs : CallStep tokenizer client call out client')
    (hraises : RaisesInEncode tokenizer ⟨client, call, out, client'⟩) :
    ∃ id, id ∈ client'.streams.keys ∧ id ∉ client.streams.keys ∧
      ¬ SubmitsAs tokenizer id ⟨client, call, out, client'⟩ := by
  obtain ⟨uuid, prompt, samplingParams, requestId, error, rfl, hopen, hnew, hencode⟩ := hraises
  obtain ⟨_, rfl⟩ := hs
  have hd := submit_derivation tokenizer uuid prompt samplingParams requestId client
  refine ⟨chooseId requestId uuid, ?_, hnew, ?_⟩
  · rw [Call.execute, EStateM.final_discard]
    unfold EStateM.final
    generalize (submit tokenizer uuid prompt samplingParams requestId).run client = result at hd
    cases hd with
    | closed hclosed => exact absurd (hopen.symm.trans hclosed) (by decide)
    | duplicate _ hold => exact absurd hold hnew
    | encodeRaises => exact Dict.mem_keys_set.mpr (Or.inl rfl)
    | accept => exact Dict.mem_keys_set.mpr (Or.inl rfl)
  · rintro ⟨_, _, _, _, stream, client', hevent, hrun⟩
    cases hevent
    have hok := submit_ok_iff.mp ⟨_, _, hrun⟩
    simp [hencode] at hok

end Calls

/-! ## Runs -/

/-- Histories without a raising `encode` register what they hold. -/
theorem registered_iff_held {tokenizer : PromptTokenizer} {τs : List CallTransition}
    {client : Client} (hrun : Run (CallStep tokenizer) {} τs client)
    (hgood : ∀ τ ∈ τs, ¬ RaisesInEncode tokenizer τ) (id : RequestId) :
    id ∈ client.streams.keys ↔ Held tokenizer id τs := by
  induction hrun with
  | nil => exact iff_of_false (by simp) List.not_openSince_nil
  | snoc _ hs ih =>
      rw [hs.mem_streams (hgood _ (by simp)), held_append_singleton,
        ih (fun τ hτ => hgood τ (List.mem_append_left _ hτ))]

/-- A submission that raises changes neither the streams nor the commands, and the registered
ids are those submitted and not finished, exactly as long as no submission with a free id has
a prompt that cannot be encoded. -/
theorem failing_submissions_iff (tokenizer : PromptTokenizer) :
    (∀ uuid prompt samplingParams requestId client error client',
      (submit tokenizer uuid prompt samplingParams requestId).run client = .error error client' →
      ((client'.streams = client.streams ∧ client'.sent = client.sent) ↔
        ¬ (client.closed = false ∧ chooseId requestId uuid ∉ client.streams.keys))) ∧
    (∀ τs client, Run (CallStep tokenizer) {} τs client →
      ((∀ front τ back, τs = front ++ τ :: back → ∀ id,
          id ∈ τ.post.streams.keys ↔ Held tokenizer id (front ++ [τ])) ↔
        ∀ τ ∈ τs, ¬ RaisesInEncode tokenizer τ)) ∧
    ∀ τs client, Run (CallStep tokenizer) {} τs client →
      (∀ τ ∈ τs, ¬ RaisesInEncode tokenizer τ) →
      ∀ uuid prompt samplingParams requestId encoded, tokenizer.encode prompt = .ok encoded →
      ((∃ answer client', (submit tokenizer uuid prompt samplingParams requestId).run client =
          .ok answer client') ↔
        client.closed = false ∧ ¬ Held tokenizer (chooseId requestId uuid) τs) := by
  refine ⟨fun _ _ _ _ _ _ _ h => submit_error_iff h, fun τs client hrun => ⟨?_, ?_⟩, ?_⟩
  · intro hheld τ hτ hraises
    obtain ⟨front, back, hsplit⟩ := List.append_of_mem hτ
    obtain ⟨hbefore, hstep⟩ := hrun.of_split hsplit
    obtain ⟨id, hin, hnew, hfailed⟩ := hstep.registers hraises
    rcases held_append_singleton.mp ((hheld front τ back hsplit id).mp hin) with
      hsubmit | ⟨hold, _⟩
    · exact hfailed hsubmit
    · generalize hpre : τ.pre = pre at hbefore
      cases hbefore with
      | nil => exact List.not_openSince_nil hold
      | @snoc earlier _ _ _ _ _ _ =>
          rw [hpre] at hnew
          exact hnew ((hheld earlier _ (τ :: back) (by simpa using hsplit) id).mpr hold)
  · intro hgood front τ back hsplit id
    obtain ⟨hbefore, hstep⟩ := hrun.of_split hsplit
    refine registered_iff_held (.snoc hbefore hstep) ?_ id
    intro τ' hτ'
    refine hgood τ' ?_
    rw [hsplit]
    rcases List.mem_append.mp hτ' with hτ' | hτ'
    · exact List.mem_append_left _ hτ'
    · exact List.mem_append_right _ (by simp_all)
  · intro τs client hrun hgood uuid prompt samplingParams requestId encoded hencode
    rw [submit_ok_iff, registered_iff_held hrun hgood]
    simp [hencode]

theorem failing_submissions_iff_pair :
    ∃ τs client, Run (CallStep (.ofTokenizer characterTokenizer)) {} τs client ∧
      τs.map (·.event) = [.submit "u" (.text ['h']) {} (some "a"), .finishStream "a"] ∧
      ((∀ front τ back, τs = front ++ τ :: back → ∀ id,
          id ∈ τ.post.streams.keys ↔ Held (.ofTokenizer characterTokenizer) id (front ++ [τ])) ↔
        ∀ τ ∈ τs, ¬ RaisesInEncode (.ofTokenizer characterTokenizer) τ) := by
  have hrun : Run (CallStep (.ofTokenizer characterTokenizer)) {} _ _ :=
    .snoc (.snoc .nil (e := .submit "u" (.text ['h']) {} (some "a")) ⟨rfl, rfl⟩)
      (e := .finishStream "a") ⟨rfl, rfl⟩
  exact ⟨_, _, hrun, rfl, (failing_submissions_iff _).2.1 _ _ hrun⟩

/-- A prompt that is no string raises, and its id stays registered. -/
theorem failed_submission_registers :
    ¬ ∀ (tokenizer : PromptTokenizer) (uuid : RequestId) (prompt : Prompt)
      (samplingParams : SamplingParams) (requestId : Option RequestId) (client : Client)
      (error : PyError) (client' : Client),
      (submit tokenizer uuid prompt samplingParams requestId).run client = .error error client' →
      client'.streams.keys = client.streams.keys ∧ client'.sent = client.sent := by
  intro h
  have hraises : (submit (.ofTokenizer characterTokenizer) "u" .other {} (some "a")).run {} =
      .error (.typeError "prompt must be a string") (registered {} "a") := rfl
  have hsame := (h _ _ _ _ _ _ _ _ hraises).1
  exact absurd hsame (by decide)

end Client

end MiniVLLM
