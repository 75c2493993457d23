import MiniVLLM.Verification.Client.Submissions

/-! # What a call does to the client

One rule for each kind of call. Streams are numbered in the order of their creation, and
what was put on a stream is changed by the router only. -/

namespace MiniVLLM

namespace Client

/-- The client after a call, and the commands it put. -/
inductive CallDerivation (client : Client) : Call → Client → List EngineCommand → Prop where
  | refuse {uuid prompt samplingParams requestId next} (hnext : client.nextStream ≤ next) :
      CallDerivation client (.submit uuid prompt samplingParams requestId)
        { client with nextStream := next } []
  | register {uuid prompt samplingParams requestId}
      (hnew : chooseId requestId uuid ∉ client.streams.keys) :
      CallDerivation client (.submit uuid prompt samplingParams requestId)
        (client.registered (chooseId requestId uuid)) []
  | accept {uuid prompt samplingParams requestId request}
      (hnew : chooseId requestId uuid ∉ client.streams.keys)
      (hid : request.requestId = chooseId requestId uuid)
      (hprompt : request.promptTokenIds ≠ []) :
      CallDerivation client (.submit uuid prompt samplingParams requestId)
        (client.registered (chooseId requestId uuid)) [.add request]
  | finish {id} : CallDerivation client (.finishStream id)
      { client with streams := client.streams.erase id } []
  | abort {id} : CallDerivation client (.abort id) client [.abort id]
  | close : CallDerivation client .close { client with closed := true } [.shutdown]
  | ignore {call} (hcall : (∃ id, call = .abort id) ∨ call = .close) :
      CallDerivation client call client []

theorem step_derivation {tokenizer : PromptTokenizer} {client client' : Client} {call : Call}
    {sent : List EngineCommand} (hsent : client.sent = [])
    (hroute : ∀ event, call ≠ .route event)
    (h : client.step tokenizer call = (client', sent)) :
    CallDerivation client call client' sent := by
  have hclear : { client with sent := [] } = client := by rw [← hsent]
  rw [step, hclear] at h
  obtain ⟨rfl, rfl⟩ := Prod.mk.inj h
  cases call with
  | submit uuid prompt samplingParams requestId =>
      have hd := submit_derivation tokenizer uuid prompt samplingParams requestId client
      rw [Call.execute, EStateM.final_discard]
      unfold EStateM.final
      generalize (submit tokenizer uuid prompt samplingParams requestId).run client = result at hd
      cases client
      cases hsent
      cases hd with
      | closed => exact .refuse (le_refl _)
      | duplicate => exact .refuse (Nat.le_succ _)
      | encodeRaises _ hnew => exact .register hnew
      | @accept text tokenIds _ hnew =>
          have hid : (requestOfPrompt tokenizer (chooseId requestId uuid) text tokenIds
              samplingParams).requestId = chooseId requestId uuid := rfl
          have hprompt : (requestOfPrompt tokenizer (chooseId requestId uuid) text tokenIds
              samplingParams).promptTokenIds ≠ [] := by
            simp only [requestOfPrompt]
            split_ifs with hnil
            · simp
            · exact hnil
          exact .accept hnew hid hprompt
  | finishStream id =>
      cases client
      cases hsent
      exact .finish
  | abort id =>
      cases hclosed : client.closed with
      | true =>
          have hrun : ((Call.abort id).execute tokenizer).final client = client := by
            simp [Call.execute, Client.abort, EStateM.final, hclosed]
          rw [hrun, hclear, hsent]
          exact .ignore (Or.inl ⟨id, rfl⟩)
      | false =>
          have hrun : ((Call.abort id).execute tokenizer).final client =
              { client with sent := client.sent ++ [.abort id] } := by
            simp [Call.execute, Client.abort, EStateM.final, hclosed, put]
          rw [hrun, hsent]
          simp only [List.nil_append, hclear]
          exact .abort
  | close =>
      cases hclosed : client.closed with
      | true =>
          have hrun : (Call.close.execute tokenizer).final client = client := by
            simp [Call.execute, Client.close, EStateM.final, hclosed]
          rw [hrun, hclear, hsent]
          exact .ignore (Or.inr rfl)
      | false =>
          have hrun : (Call.close.execute tokenizer).final client =
              { client with closed := true, sent := client.sent ++ [.shutdown] } := by
            simp [Call.execute, Client.close, EStateM.final, hclosed, put]
          rw [hrun]
          cases client
          cases hsent
          exact .close
  | route event => exact absurd rfl (hroute event)

/-! ## Numbered streams -/

/-- Registered streams were created, no two ids share one, and the next ones are empty. -/
structure Numbered (client : Client) : Prop where
  sent_eq : client.sent = []
  created : ∀ id stream, client.streams.get? id = some stream → stream < client.nextStream
  distinct : ∀ id id' stream, client.streams.get? id = some stream →
    client.streams.get? id' = some stream → id = id'
  fresh : ∀ stream, client.nextStream ≤ stream → client.streamItems stream = []

theorem numbered_init : Numbered {} where
  sent_eq := rfl
  created := by simp
  distinct := by simp
  fresh := fun _ _ => rfl

section Numbered

variable {client client' : Client}

theorem Numbered.registered (h : client.Numbered) (id : RequestId) :
    (client.registered id).Numbered where
  sent_eq := h.sent_eq
  created := by
    intro id' stream hget
    rw [Client.registered, Dict.get?_set] at hget
    split_ifs at hget with hid
    · obtain rfl := Option.some.inj hget
      exact Nat.lt_succ_self _
    · exact Nat.lt_succ_of_lt (h.created id' stream hget)
  distinct := by
    intro id₁ id₂ stream h₁ h₂
    rw [Client.registered, Dict.get?_set] at h₁ h₂
    split_ifs at h₁ h₂ with hid₁ hid₂ hid₂
    · exact hid₁.trans hid₂.symm
    · obtain rfl := Option.some.inj h₁
      exact absurd (h.created _ _ h₂) (lt_irrefl _)
    · obtain rfl := Option.some.inj h₂
      exact absurd (h.created _ _ h₁) (lt_irrefl _)
    · exact h.distinct id₁ id₂ stream h₁ h₂
  fresh := fun stream hle => h.fresh stream (Nat.le_of_succ_le hle)

theorem CallDerivation.numbered {call : Call} {sent : List EngineCommand}
    (hd : CallDerivation client call client' sent) (h : client.Numbered) : client'.Numbered := by
  cases hd with
  | refuse hnext =>
      exact ⟨h.sent_eq, fun id stream hget => (h.created id stream hget).trans_le hnext, h.distinct,
        fun stream hle => h.fresh stream (hnext.trans hle)⟩
  | register => exact h.registered _
  | accept => exact h.registered _
  | finish =>
      have hkept : ∀ {id id' stream}, (client.streams.erase id).get? id' = some stream →
          client.streams.get? id' = some stream := by
        intro id id' stream hget
        rw [Dict.get?_erase] at hget
        split_ifs at hget
        exact hget
      exact ⟨h.sent_eq, fun id stream hget => h.created id stream (hkept hget),
        fun id id' stream hget hget' => h.distinct id id' stream (hkept hget) (hkept hget'),
        h.fresh⟩
  | abort => exact h
  | close => exact ⟨h.sent_eq, h.created, h.distinct, h.fresh⟩
  | ignore => exact h

theorem CallDerivation.get?_streams {call : Call} {sent : List EngineCommand} {id : RequestId}
    {stream : ℕ} (hd : CallDerivation client call client' sent)
    (hget : client'.streams.get? id = some stream) :
    client.streams.get? id = some stream ∨ id ∉ client.streams.keys := by
  have hnewId : ∀ {new}, new ∉ client.streams.keys →
      (client.registered new).streams.get? id = some stream →
      client.streams.get? id = some stream ∨ id ∉ client.streams.keys := by
    intro new hnew hget
    rw [Client.registered, Dict.get?_set] at hget
    split_ifs at hget with hid
    · exact Or.inr (hid ▸ hnew)
    · exact Or.inl hget
  cases hd with
  | refuse => exact Or.inl hget
  | register hnew => exact hnewId hnew hget
  | accept hnew => exact hnewId hnew hget
  | finish =>
      rw [Dict.get?_erase] at hget
      split_ifs at hget
      exact Or.inl hget
  | abort => exact Or.inl hget
  | close => exact Or.inl hget
  | ignore => exact Or.inl hget

/-- An id that was not registered gets the next stream. -/
theorem CallDerivation.opened {call : Call} {sent : List EngineCommand} {id : RequestId}
    {stream : ℕ} (hd : CallDerivation client call client' sent) (hnew : id ∉ client.streams.keys)
    (hget : client'.streams.get? id = some stream) : stream = client.nextStream := by
  have hold : client.streams.get? id ≠ some stream := fun h => hnew (Dict.mem_keys_of_get? h)
  have hregistered : ∀ {new}, (client.registered new).streams.get? id = some stream →
      stream = client.nextStream := by
    intro new hget
    rw [Client.registered, Dict.get?_set] at hget
    split_ifs at hget
    · exact (Option.some.inj hget).symm
    · exact absurd hget hold
  cases hd with
  | register => exact hregistered hget
  | accept => exact hregistered hget
  | finish =>
      rw [Dict.get?_erase] at hget
      split_ifs at hget
      exact absurd hget hold
  | _ => exact absurd hget hold

theorem CallDerivation.streamItems_eq {call : Call} {sent : List EngineCommand}
    (hd : CallDerivation client call client' sent) : client'.streamItems = client.streamItems := by
  cases hd <;> rfl

@[simp] theorem countBatch_streamItems (metrics : BatchMetrics) (client : Client) :
    (client.countBatch metrics).streamItems = client.streamItems := by
  unfold countBatch
  split_ifs <;> rfl

/-- What the router puts on a stream for an event. -/
def routedTo (client : Client) (stream : ℕ) : OutputEvent → List RequestOutput
  | .metrics _ => []
  | .output output =>
      if client.streams.get? output.requestId = some stream then [output] else []

theorem deliver_streamItems (output : RequestOutput) (client : Client) (stream : ℕ) :
    (client.deliver output).streamItems stream =
      client.streamItems stream ++ client.routedTo stream (.output output) := by
  unfold deliver routedTo
  cases hget : client.streams.get? output.requestId with
  | none => simp [hget]
  | some stream' =>
      by_cases hsame : stream = stream'
      · simp [hget, hsame]
      · simp [hget, hsame, Ne.symm hsame]

/-- One turn of the router extends the stream registered for its output. -/
theorem route_streamItems (event : OutputEvent) (client : Client) (stream : ℕ) :
    (client.route event).streamItems stream =
      client.streamItems stream ++ client.routedTo stream event := by
  cases event with
  | metrics metrics => simp [route, eventMetrics, routedTo]
  | output output =>
      cases hm : output.metrics <;> simp [route, eventMetrics, hm, deliver_streamItems, routedTo]

theorem route_kept (event : OutputEvent) (client : Client) :
    (client.route event).nextStream = client.nextStream ∧
      (client.route event).sent = client.sent := by
  have hcount : ∀ metrics, (client.countBatch metrics).nextStream = client.nextStream ∧
      (client.countBatch metrics).sent = client.sent := by
    intro metrics
    unfold countBatch
    split_ifs <;> simp
  have hdeliver : ∀ output (client : Client), (client.deliver output).nextStream =
      client.nextStream ∧ (client.deliver output).sent = client.sent := by
    intro output client
    unfold deliver
    split <;> simp
  cases event with
  | metrics metrics => simp [route, eventMetrics, hcount]
  | output output => cases hm : output.metrics <;> simp [route, eventMetrics, hm, hcount, hdeliver]

theorem Numbered.routedTo_eq_nil (h : client.Numbered) {stream : ℕ}
    (hle : client.nextStream ≤ stream) (event : OutputEvent) : client.routedTo stream event = [] := by
  cases event with
  | metrics => rfl
  | output output =>
      exact if_neg (fun hget => absurd (h.created _ _ hget) (Nat.not_lt.mpr hle))

theorem Numbered.route (h : client.Numbered) (event : OutputEvent) :
    (client.route event).Numbered where
  sent_eq := by rw [(route_kept event client).2, h.sent_eq]
  created := by
    rw [route_streams, (route_kept event client).1]
    exact h.created
  distinct := by
    rw [route_streams]
    exact h.distinct
  fresh := by
    intro stream hle
    rw [(route_kept event client).1] at hle
    rw [route_streamItems, h.fresh stream hle, h.routedTo_eq_nil hle, List.append_nil]

end Numbered

end Client

end MiniVLLM
