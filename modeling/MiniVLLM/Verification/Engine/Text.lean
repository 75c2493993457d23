import MiniVLLM.Library.Utf8
import MiniVLLM.Verification.Engine.Streams

/-! # Streamed text

Each output carries the text its token added. The pieces add up to the decoded output as
long as every decode extends the one before; for a byte-level vocabulary that fails exactly
where a token completes a character that earlier tokens began. -/

namespace MiniVLLM

open KVCacheManager Scheduler

namespace EngineCore

/-- The texts of the outputs for `tokens`, after the tokens `done`. -/
def streamedText (tokenizer : Tokenizer) (done : List TokenId) : List TokenId → Text
  | [] => []
  | token :: tokens =>
      addedText tokenizer token (tokenizer.decode done) (tokenizer.decode (done ++ [token])) ++
        streamedText tokenizer (done ++ [token]) tokens

def textOf (outputs : List RequestOutput) : Text := outputs.flatMap (·.text)

/-! ## Adding up the pieces -/

section Pieces

variable {tokenizer : Tokenizer}

theorem streamedText_append (done tokens tokens' : List TokenId) :
    streamedText tokenizer done (tokens ++ tokens') =
      streamedText tokenizer done tokens ++ streamedText tokenizer (done ++ tokens) tokens' := by
  induction tokens generalizing done with
  | nil => simp [streamedText]
  | cons token tokens ih => simp [streamedText, ih]

theorem addedText_of_prefix {token : TokenId} {before after : Text} (h : before <+: after) :
    before ++ addedText tokenizer token before after = after := by
  rw [addedText, if_pos (List.isPrefixOf_iff_prefix.mpr h)]
  exact List.prefix_iff_eq_append.mp h

/-- If a rewritten text never comes back, the pieces add up exactly when no token rewrites. -/
theorem streamedText_eq_iff
    (hnever : ∀ done token tokens,
      ¬ tokenizer.decode done <+: tokenizer.decode (done ++ [token]) →
      ¬ tokenizer.decode done <+: tokenizer.decode (done ++ token :: tokens))
    (done tokens : List TokenId) :
    tokenizer.decode done ++ streamedText tokenizer done tokens =
        tokenizer.decode (done ++ tokens) ↔
      ∀ front token back, tokens = front ++ token :: back →
        tokenizer.decode (done ++ front) <+: tokenizer.decode (done ++ front ++ [token]) := by
  induction tokens generalizing done with
  | nil => simp [streamedText]
  | cons token tokens ih =>
      by_cases hextends : tokenizer.decode done <+: tokenizer.decode (done ++ [token])
      · have hrest := ih (done ++ [token])
        rw [streamedText, ← List.append_assoc, addedText_of_prefix hextends,
          show done ++ token :: tokens = done ++ [token] ++ tokens by simp, hrest]
        constructor
        · rintro hall (_ | ⟨first, front⟩) token' back hsplit
          · obtain ⟨rfl, rfl⟩ := List.cons.inj hsplit
            simpa using hextends
          · obtain ⟨rfl, hrest⟩ := List.cons.inj hsplit
            simpa using hall front token' back hrest
        · intro hall front token' back hsplit
          simpa using hall (token :: front) token' back (by rw [hsplit]; rfl)
      · refine iff_of_false (fun heq => ?_) (fun hall => ?_)
        · exact hnever done token tokens hextends ⟨_, heq⟩
        · exact hextends (by simpa using hall [] token tokens rfl)

end Pieces

/-! ## The texts of a run -/

section Runs

variable {config : EngineConfig} {tokenizer : Tokenizer} {id : RequestId}
  {core core' : EngineCore} {event : Event}

def outputTokens (r? : Option RequestState) : List TokenId :=
  r?.elim [] (·.outputTokenIds)

theorem sampleText_eq_streamedText {r r' : RequestState} {token : TokenId} {count : ℕ}
    {reason : Option FinishReason}
    (hsample : (r.advance count).sample config tokenizer token = (r', reason)) :
    sampleText tokenizer token r r' = streamedText tokenizer r.outputTokenIds
      (if token = tokenizer.eosTokenId then [] else [token]) := by
  have htokens : r'.outputTokenIds = r.outputTokenIds ++
      if token = tokenizer.eosTokenId then [] else [token] := by
    have h : ((r.advance count).sample config tokenizer token).1.outputTokenIds = _ :=
      RequestState.sample_outputTokenIds
    rwa [hsample] at h
  rw [sampleText, htokens]
  split
  · simp [streamedText, addedText]
  · simp [streamedText]

theorem RequestStep.textOf_eq {r? r'? : Option RequestState} {items : List WorkerItem}
    {outs : List RequestOutput}
    (h : RequestStep config tokenizer id core core' event r? items outs r'?) :
    textOf outs = streamedText tokenizer (outputTokens r?) (tokensOf outs) := by
  cases h with
  | keep => rfl
  | accept => rfl
  | reject => rfl
  | abort => rfl
  | answer _ _ _ _ _ _ houtcome =>
      cases houtcome with
      | advance => rfl
      | extend _ hsample =>
          simpa [textOf, tokensOf, tokenOutput, outputTokens] using
            sampleText_eq_streamedText hsample
      | finish _ hsample =>
          simpa [textOf, tokensOf, tokenOutput, outputTokens] using
            sampleText_eq_streamedText hsample
  | fail => rfl
  | crash => rfl

theorem RequestStep.tokensOf_eq_nil {r'? : Option RequestState} {items : List WorkerItem}
    {outs : List RequestOutput}
    (h : RequestStep config tokenizer id core core' event none items outs r'?) :
    tokensOf outs = [] := by
  cases h <;> rfl

theorem Trace.textOf_eq {τs : List CoreTransition} (h : Trace config tokenizer τs core)
    (honce : (addedIds τs).Nodup) (id : RequestId) :
    textOf (emitted id τs) = streamedText tokenizer [] (tokensOf (emitted id τs)) := by
  induction h with
  | nil => rfl
  | @snoc τs core event messages core' hrun hstep ih =>
      have honce' : (addedIds τs).Nodup := by
        rw [addedIds_eq, addedRequests_append, List.map_append] at honce
        rw [addedIds_eq]
        exact (List.nodup_append.mp honce).1
      have hshare := (hstep.derivation (Trace.stable hrun)).1.request
        (Trace.stable hrun hstep.running) id
      have htext := RequestStep.textOf_eq hshare
      have hout : outputsFor id messages = emitted id [⟨core, event, messages, core'⟩] := by simp
      have hprior : streamedText tokenizer (outputTokens (core.scheduler.request? id))
          (tokensOf (outputsFor id messages)) =
          streamedText tokenizer (tokensOf (emitted id τs)) (tokensOf (outputsFor id messages)) := by
        cases hr : core.scheduler.request? id with
        | none =>
            rw [hr] at hshare
            rw [RequestStep.tokensOf_eq_nil hshare]
            rfl
        | some r =>
            cases Trace.stage hrun honce' id with
            | silent hstage => exact absurd (hr.symm.trans hstage.request?_eq) (by simp)
            | active request r' hid hreq hstage =>
                subst hid
                obtain rfl : r = r' := Option.some.inj (hr.symm.trans hreq)
                rw [hstage.tokens_eq]
                rfl
            | closed request last reason hid hstage =>
                subst hid
                exact absurd (hr.symm.trans (hstage.ended hstep.running)) (by simp)
      rw [emitted_append, tokensOf_append, streamedText_append, List.nil_append, ← ih honce',
        ← hout, ← hprior, ← htext]
      simp [textOf]

end Runs

/-! ## Byte-level vocabularies -/

/-- Some token completes a character begun by the tokens before it, other than U+FFFD. -/
def CompletesCharacter (bytes : TokenId → List UInt8) (tokens : List TokenId) : Prop :=
  ∃ front token back, tokens = front ++ token :: back ∧
    Utf8.lossy.Replaces (front.flatMap bytes) (bytes token)

theorem streamedText_eq_decode_iff {tokenizer : Tokenizer} {bytes : TokenId → List UInt8}
    (hdecode : ∀ tokens, tokenizer.decode tokens = Utf8.lossy.render (tokens.flatMap bytes))
    (tokens : List TokenId) :
    streamedText tokenizer [] tokens = tokenizer.decode tokens ↔
      ¬ CompletesCharacter bytes tokens := by
  have hextends : ∀ done token, tokenizer.decode done <+: tokenizer.decode (done ++ [token]) ↔
      ¬ Utf8.lossy.Replaces (done.flatMap bytes) (bytes token) := by
    intro done token
    rw [hdecode, hdecode, ← Renderer.render_prefix_iff]
    simp
  have hnever : ∀ done token tokens,
      ¬ tokenizer.decode done <+: tokenizer.decode (done ++ [token]) →
      ¬ tokenizer.decode done <+: tokenizer.decode (done ++ token :: tokens) := by
    intro done token tokens hrewrites
    rw [hextends, not_not] at hrewrites
    rw [hdecode, hdecode, List.flatMap_append, List.flatMap_cons]
    exact Renderer.not_prefix_of_replaces _ hrewrites _
  have hnil : tokenizer.decode [] = [] := by simp [hdecode]
  have hiff := streamedText_eq_iff hnever [] tokens
  rw [hnil] at hiff
  simp only [List.nil_append, hextends] at hiff
  rw [hiff, CompletesCharacter]
  push Not
  rfl

/-- The output tokens of a request at its end, or up to now. -/
def HasOutput (config : EngineConfig) (tokenizer : Tokenizer) (id : RequestId)
    (τs : List CoreTransition) (core : EngineCore) (tokens : List TokenId) : Prop :=
  (∃ r, core.scheduler.request? id = some r ∧ r.outputTokenIds = tokens) ∨
    ∃ τ ∈ τs, ∃ r, Removes id τ r ∧ finalTokens config tokenizer id τ r = tokens

/-- The tokens of the outputs put for a request are its output tokens. -/
theorem Trace.tokensOf_eq {config : EngineConfig} {tokenizer : Tokenizer}
    {τs : List CoreTransition} {core : EngineCore} (h : Trace config tokenizer τs core)
    (honce : (addedIds τs).Nodup) {id : RequestId} {tokens : List TokenId}
    (htokens : HasOutput config tokenizer id τs core tokens) :
    tokensOf (emitted id τs) = tokens := by
  rcases htokens with ⟨r, hr, rfl⟩ | ⟨τ, hτ, r, hremoves, rfl⟩
  · cases Trace.stage h honce id with
    | silent hstage => exact absurd (hr.symm.trans hstage.request?_eq) (by simp)
    | active request r' hid hreq hstage =>
        subst hid
        obtain rfl : r = r' := Option.some.inj (hr.symm.trans hreq)
        exact hstage.tokens_eq
    | closed request last reason hid hstage =>
        subst hid
        exact hstage.tokens_live r hr
  · cases Trace.stage h honce id with
    | silent hstage => exact absurd hremoves (hstage.kept τ hτ r)
    | active request r' hid hreq hstage =>
        subst hid
        exact absurd hremoves (hstage.kept τ hτ r)
    | closed request last reason hid hstage =>
        subst hid
        exact hstage.tokens_ended τ hτ r hremoves

/-- The texts put for a request add up to its decoded output exactly if no token completed a
character that earlier tokens began. -/
theorem streamed_text_iff {config : EngineConfig} {tokenizer : Tokenizer}
    {bytes : TokenId → List UInt8}
    (hdecode : ∀ tokens, tokenizer.decode tokens = Utf8.lossy.render (tokens.flatMap bytes))
    {τs : List CoreTransition} {core : EngineCore} (h : Trace config tokenizer τs core)
    (honce : (addedIds τs).Nodup) {id : RequestId} {tokens : List TokenId}
    (htokens : HasOutput config tokenizer id τs core tokens) :
    textOf (emitted id τs) = tokenizer.decode tokens ↔ ¬ CompletesCharacter bytes tokens := by
  rw [Trace.textOf_eq h honce, Trace.tokensOf_eq h honce htokens]
  exact streamedText_eq_decode_iff hdecode tokens

/-! ## A byte vocabulary -/

def byteTokenizer : Tokenizer where
  eosTokenId := 256
  bosTokenId := 256
  encode := fun _ => []
  decode := fun tokens => Utf8.lossy.render (tokens.flatMap (fun token => [UInt8.ofNat token]))

def endings (config : EngineConfig) (tokenizer : Tokenizer) (id : RequestId)
    (τs : List CoreTransition) : List (List TokenId) :=
  τs.filterMap fun τ =>
    match τ.pre.scheduler.request? id, τ.post.scheduler.request? id with
    | some r, none => some (finalTokens config tokenizer id τ r)
    | _, _ => none

theorem hasOutput_of_mem_endings {config : EngineConfig} {tokenizer : Tokenizer}
    {id : RequestId} {τs : List CoreTransition} {core : EngineCore} {tokens : List TokenId}
    (h : tokens ∈ endings config tokenizer id τs) :
    HasOutput config tokenizer id τs core tokens := by
  obtain ⟨τ, hτ, heq⟩ := List.mem_filterMap.mp h
  right
  refine ⟨τ, hτ, ?_⟩
  split at heq
  · rename_i r hpre hpost
    exact ⟨r, ⟨hpre, hpost⟩, Option.some.inj heq⟩
  · cases heq

def samplingEvents (tokens : List TokenId) : List Event :=
  .command (.add (requestOf "a" [10])) ::
    tokens.mapIdx (fun index token => .engineStep [answerOf (index + 1) [("a", token)]])

theorem streamed_text_iff_ascii : ∃ τs core, Trace smallConfig byteTokenizer τs core ∧
    (textOf (emitted "a" τs) = byteTokenizer.decode [104, 105] ↔
      ¬ CompletesCharacter (fun token => [UInt8.ofNat token]) [104, 105]) := by
  have hsome : (drive smallConfig byteTokenizer (samplingEvents [104, 105, 256])).map
      (fun run => (addedIds run.1, endings smallConfig byteTokenizer "a" run.1)) =
        some (["a"], [[104, 105]]) := by decide +kernel
  obtain ⟨⟨τs, core⟩, hdrive, hrun⟩ := Option.map_eq_some_iff.mp hsome
  obtain ⟨hadded, hended⟩ := Prod.mk.inj hrun
  have htrace : Trace smallConfig byteTokenizer τs core := drive_trace hdrive (by decide)
  have honce : (addedIds τs).Nodup := by
    rw [hadded]
    decide
  exact ⟨τs, core, htrace, streamed_text_iff (fun _ => rfl) htrace honce
    (hasOutput_of_mem_endings (by simp [hended]))⟩

/-- The two bytes of one character, sampled one after the other, are streamed as two
placeholders. -/
theorem split_character_streamed :
    ¬ ∀ (config : EngineConfig) (tokenizer : Tokenizer) (bytes : TokenId → List UInt8),
      (∀ token, bytes token ≠ []) →
      (∀ tokens, tokenizer.decode tokens = Utf8.lossy.render (tokens.flatMap bytes)) →
      ∀ τs core, Trace config tokenizer τs core → (addedIds τs).Nodup →
      ∀ id tokens, HasOutput config tokenizer id τs core tokens →
      textOf (emitted id τs) = tokenizer.decode tokens := by
  intro h
  have hsome : (drive smallConfig byteTokenizer (samplingEvents [0xC3, 0xA9, 256])).map
      (fun run => (addedIds run.1, endings smallConfig byteTokenizer "a" run.1,
        textOf (emitted "a" run.1))) =
        some (["a"], [[0xC3, 0xA9]], ['\uFFFD', '\uFFFD']) := by decide +kernel
  obtain ⟨⟨τs, core⟩, hdrive, hrun⟩ := Option.map_eq_some_iff.mp hsome
  simp only [Prod.mk.injEq] at hrun
  obtain ⟨hadded, hended, htext⟩ := hrun
  have honce : (addedIds τs).Nodup := by
    rw [hadded]
    decide
  have hsame := h smallConfig byteTokenizer (fun token => [UInt8.ofNat token]) (by simp)
    (fun _ => rfl) τs core (drive_trace hdrive (by decide)) honce "a" [0xC3, 0xA9]
    (hasOutput_of_mem_endings (by simp [hended]))
  rw [htext] at hsame
  exact absurd hsame (by decide)

end EngineCore

end MiniVLLM
