import MiniVLLM.Library.Pieces
import MiniVLLM.Verification.Engine.Steps

/-! # Stop strings

`append_token` looks for a stop string at the end of the decoded output only. When a token
may decode to several characters, an occurrence can end before the last of them. -/

namespace MiniVLLM

namespace Scheduler

/-- The calls that move a running request on. -/
inductive TokenCall where
  | updateComputed (requestId : RequestId) (count : ℕ)
  | appendToken (requestId : RequestId) (tokenId : TokenId)

/-- One call between the schedules. Appends to `id` are of tokens other than EOS, and they
return `None`; what happens to other requests is not restricted. -/
inductive FeedStep (config : EngineConfig) (tokenizer : Tokenizer) (id : RequestId)
    (s : Scheduler) : TokenCall → List Unit → Scheduler → Prop where
  | computed {requestId count s'} (h : (updateComputed requestId count).run s = .ok () s') :
      FeedStep config tokenizer id s (.updateComputed requestId count) [] s'
  | other {requestId token reason s'} (hne : requestId ≠ id)
      (h : (appendToken config tokenizer requestId token).run s = .ok reason s') :
      FeedStep config tokenizer id s (.appendToken requestId token) [] s'
  | token {token s'} (hne : token ≠ tokenizer.eosTokenId)
      (h : (appendToken config tokenizer id token).run s = .ok none s') :
      FeedStep config tokenizer id s (.appendToken id token) [] s'

abbrev FeedTransition := Transition Scheduler TokenCall Unit

def fedTokens (id : RequestId) (τs : List FeedTransition) : List TokenId :=
  τs.filterMap fun τ =>
    match τ.event with
    | .appendToken requestId token => if requestId = id then some token else none
    | .updateComputed _ _ => none

/-- The request holds these output tokens, and no stop string ended any shorter output. -/
def Unstopped (tokenizer : Tokenizer) (id : RequestId) (params : SamplingParams)
    (tokens : List TokenId) (s : Scheduler) : Prop :=
  ∃ r, s.running.get? id = some r ∧ r.samplingParams = params ∧ r.outputTokenIds = tokens ∧
    ∀ front token back, tokens = front ++ token :: back →
      endsWithStop tokenizer params (front ++ [token]) = false

/-! ## What one call does -/

section Feed

variable {config : EngineConfig} {tokenizer : Tokenizer} {id : RequestId} {s s' : Scheduler}
  {params : SamplingParams} {tokens : List TokenId}

theorem endsWithStop_eq_true_iff :
    endsWithStop tokenizer params tokens = true ↔
      ∃ stop ∈ params.stop, stop <:+ tokenizer.decode tokens := by
  simp [endsWithStop]

theorem finishReason_eq_stop_iff {r : RequestState} :
    finishReason config tokenizer r = some .stop ↔
      endsWithStop tokenizer r.samplingParams r.outputTokenIds = true := by
  unfold finishReason
  split_ifs with h₁ h₂ h₃ <;> simp [h₁]

theorem sample_reason {r : RequestState} {token : TokenId} (hne : token ≠ tokenizer.eosTokenId) :
    r.sample config tokenizer token =
      ({ r with outputTokenIds := r.outputTokenIds ++ [token] },
        finishReason config tokenizer { r with outputTokenIds := r.outputTokenIds ++ [token] }) := by
  simp [RequestState.sample, hne]

theorem Unstopped.replaced_other (h : Unstopped tokenizer id params tokens s)
    {other : RequestId} (hne : other ≠ id) (r : RequestState) :
    Unstopped tokenizer id params tokens (s.replaced other r) := by
  obtain ⟨r₀, hr₀, hrest⟩ := h
  refine ⟨r₀, ?_, hrest⟩
  rw [replaced, Dict.get?_set_of_ne _ _ hne.symm]
  exact hr₀

theorem running_of_runningRequest {α : Type} {f : RequestState → Py Scheduler α} {a : α}
    (h : (runningRequest id >>= f).run s = .ok a s') : ∃ r, s.running.get? id = some r := by
  cases hr : s.running.get? id with
  | some r => exact ⟨r, rfl⟩
  | none => simp [runningRequest, hr] at h

theorem Unstopped.computed (h : Unstopped tokenizer id params tokens s) {requestId : RequestId}
    {count : ℕ} (hcall : (updateComputed requestId count).run s = .ok () s') :
    Unstopped tokenizer id params tokens s' := by
  obtain ⟨r, hr⟩ := running_of_runningRequest hcall
  rw [run_updateComputed hr] at hcall
  obtain ⟨_, rfl⟩ := EStateM.Result.ok.inj hcall
  by_cases hid : requestId = id
  · subst hid
    obtain ⟨r₀, hr₀, hparams, htokens, hquiet⟩ := h
    obtain rfl : r₀ = r := Option.some.inj (hr₀.symm.trans hr)
    exact ⟨r₀.advance count, by simp, hparams, htokens, hquiet⟩
  · exact h.replaced_other hid _

theorem Unstopped.other (h : Unstopped tokenizer id params tokens s) {requestId : RequestId}
    {token : TokenId} {reason : Option FinishReason} (hne : requestId ≠ id)
    (hcall : (appendToken config tokenizer requestId token).run s = .ok reason s') :
    Unstopped tokenizer id params tokens s' := by
  obtain ⟨r, hr⟩ := running_of_runningRequest hcall
  obtain ⟨s₁, happend, _, hs₁⟩ := run_appendToken config tokenizer token hr
  rw [happend] at hcall
  obtain ⟨_, rfl⟩ := EStateM.Result.ok.inj hcall
  rw [hs₁]
  split_ifs with heos
  · exact h
  · exact h.replaced_other hne _

theorem Unstopped.token (h : Unstopped tokenizer id params tokens s) {token : TokenId}
    (hne : token ≠ tokenizer.eosTokenId)
    (hcall : (appendToken config tokenizer id token).run s = .ok none s') :
    Unstopped tokenizer id params (tokens ++ [token]) s' := by
  obtain ⟨r, hr, rfl, rfl, hquiet⟩ := h
  obtain ⟨s₁, happend, hget, _⟩ := run_appendToken config tokenizer token hr
  rw [happend, sample_reason hne] at hcall
  obtain ⟨hnone, rfl⟩ := EStateM.Result.ok.inj hcall
  rw [sample_reason hne] at hget
  refine ⟨_, hget, rfl, rfl, ?_⟩
  intro front token' back hsplit
  rcases List.append_singleton_eq_append_cons_iff.mp hsplit with ⟨rfl, rfl, _⟩ | ⟨mid, _, hmid⟩
  · rw [Bool.eq_false_iff]
    intro hends
    have hstop : finishReason config tokenizer
        { r with outputTokenIds := r.outputTokenIds ++ [token] } = some .stop :=
      finishReason_eq_stop_iff.mpr hends
    rw [hstop] at hnone
    cases hnone
  · exact hquiet front token' mid hmid

theorem fedTokens_append (τs τs' : List FeedTransition) :
    fedTokens id (τs ++ τs') = fedTokens id τs ++ fedTokens id τs' := by
  simp [fedTokens]

theorem Unstopped.step (h : Unstopped tokenizer id params tokens s) {call : TokenCall}
    {out : List Unit} (hs : FeedStep config tokenizer id s call out s') :
    Unstopped tokenizer id params (tokens ++ fedTokens id [⟨s, call, out, s'⟩]) s' := by
  cases hs with
  | computed hcall => simpa [fedTokens] using h.computed hcall
  | other hne hcall => simpa [fedTokens, hne] using h.other hne hcall
  | token hne hcall => simpa [fedTokens] using h.token hne hcall

/-- The tokens appended so far are the output, and each of them left it without a stop string
at its end. -/
theorem Unstopped.run {s₀ : Scheduler} {τs : List FeedTransition}
    (h : Unstopped tokenizer id params [] s₀)
    (hrun : Run (FeedStep config tokenizer id) s₀ τs s) :
    Unstopped tokenizer id params (fedTokens id τs) s := by
  induction hrun with
  | nil => exact h
  | snoc _ hs ih =>
      rw [fedTokens_append]
      exact ih.step hs

end Feed

/-! ## Occurrences that end inside a token -/

/-- Some stop string has an occurrence that ends in the text of a token, before its end. -/
def StopInsideToken (piece : TokenId → Text) (params : SamplingParams)
    (tokens : List TokenId) : Prop :=
  ∃ stop ∈ params.stop, ∃ front token back, tokens = front ++ token :: back ∧
    Pieces.EndsInside stop (front.flatMap piece) (piece token)

section Pieces

variable {tokenizer : Tokenizer} {piece : TokenId → Text} {params : SamplingParams}
  {tokens : List TokenId}

/-- In an output that no stop string has ended, stop strings occur only across the inside of
a token. -/
theorem stop_infix_iff (hdecode : ∀ tokens, tokenizer.decode tokens = tokens.flatMap piece)
    (hquiet : ∀ front token back, tokens = front ++ token :: back →
      endsWithStop tokenizer params (front ++ [token]) = false) :
    (∃ stop ∈ params.stop, stop <:+: tokenizer.decode tokens) ↔
      StopInsideToken piece params tokens := by
  rw [hdecode]
  constructor
  · rintro ⟨stop, hstop, hinfix⟩
    obtain ⟨front, token, back, hsplit, hends⟩ :=
      (Pieces.infix_flatMap_iff (params.stop_ne_nil stop hstop) piece tokens).mp hinfix
    rcases hends.cases with hinside | hsuffix
    · exact ⟨stop, hstop, front, token, back, hsplit, hinside⟩
    · have hends : endsWithStop tokenizer params (front ++ [token]) = true :=
        endsWithStop_eq_true_iff.mpr ⟨stop, hstop, by simpa [hdecode] using hsuffix⟩
      rw [hquiet front token back hsplit] at hends
      cases hends
  · rintro ⟨stop, hstop, front, token, back, hsplit, hinside⟩
    exact ⟨stop, hstop, (Pieces.infix_flatMap_iff (params.stop_ne_nil stop hstop) piece
      tokens).mpr ⟨front, token, back, hsplit, hinside.endsIn⟩⟩

/-- One more token completes an occurrence inside its text or at its end. -/
theorem stop_infix_append_iff
    (hdecode : ∀ tokens, tokenizer.decode tokens = tokens.flatMap piece)
    (habsent : ∀ stop ∈ params.stop, ¬ stop <:+: tokenizer.decode tokens) (token : TokenId) :
    (∃ stop ∈ params.stop, stop <:+: tokenizer.decode (tokens ++ [token])) ↔
      (∃ stop ∈ params.stop, Pieces.EndsInside stop (tokenizer.decode tokens) (piece token)) ∨
        endsWithStop tokenizer params (tokens ++ [token]) = true := by
  have hmore : tokenizer.decode (tokens ++ [token]) = tokenizer.decode tokens ++ piece token := by
    simp [hdecode]
  rw [endsWithStop_eq_true_iff, hmore]
  constructor
  · rintro ⟨stop, hstop, hinfix⟩
    rcases Pieces.infix_append_iff.mp hinfix with hold | hends
    · exact absurd hold (habsent stop hstop)
    · rcases hends.cases with hinside | hsuffix
      · exact Or.inl ⟨stop, hstop, hinside⟩
      · exact Or.inr ⟨stop, hstop, hsuffix⟩
  · rintro (⟨stop, hstop, hinside⟩ | ⟨stop, hstop, hsuffix⟩)
    · exact ⟨stop, hstop, Pieces.infix_append_iff.mpr (Or.inr hinside.endsIn)⟩
    · exact ⟨stop, hstop, hsuffix.isInfix⟩

end Pieces

/-- While `append_token` returns `None`, the output is free of stop strings exactly if none
ends inside a token; the next token ends the request with STOP where it completes one, unless
that happens inside its text only. -/
theorem stop_strings_absent_iff {config : EngineConfig} {tokenizer : Tokenizer}
    {piece : TokenId → Text} (hdecode : ∀ tokens, tokenizer.decode tokens = tokens.flatMap piece)
    {id : RequestId} {s₀ s : Scheduler} {r₀ : RequestState}
    (hr₀ : s₀.running.get? id = some r₀) (hfresh : r₀.outputTokenIds = [])
    {τs : List FeedTransition} (hrun : Run (FeedStep config tokenizer id) s₀ τs s) :
    (∃ text, (outputText tokenizer id).run s = .ok text s ∧
      ((∀ stop ∈ r₀.samplingParams.stop, ¬ stop <:+: text) ↔
        ¬ StopInsideToken piece r₀.samplingParams (fedTokens id τs)) ∧
      ∀ token reason s', token ≠ tokenizer.eosTokenId →
        (appendToken config tokenizer id token).run s = .ok reason s' →
        (∀ stop ∈ r₀.samplingParams.stop, ¬ stop <:+: text) →
        ((reason = some .stop ↔ ∃ stop ∈ r₀.samplingParams.stop,
            stop <:+: tokenizer.decode (fedTokens id τs ++ [token])) ↔
          ((∃ stop ∈ r₀.samplingParams.stop, Pieces.EndsInside stop text (piece token)) →
            ∃ stop ∈ r₀.samplingParams.stop,
              stop <:+ tokenizer.decode (fedTokens id τs ++ [token])))) := by
  have hstart : Unstopped tokenizer id r₀.samplingParams [] s₀ :=
    ⟨r₀, hr₀, rfl, hfresh, by simp⟩
  obtain ⟨r, hr, hparams, htokens, hquiet⟩ := hstart.run hrun
  refine ⟨_, run_outputText tokenizer hr, ?_, ?_⟩
  · rw [htokens, ← stop_infix_iff hdecode hquiet]
    simp
  · intro token reason s' hne happend habsent
    obtain ⟨s₁, hsample, _⟩ := run_appendToken config tokenizer token hr
    rw [hsample, sample_reason hne] at happend
    obtain ⟨rfl, _⟩ := EStateM.Result.ok.inj happend
    rw [htokens] at habsent
    have hnext := stop_infix_append_iff hdecode habsent token
    rw [finishReason_eq_stop_iff, hnext, ← endsWithStop_eq_true_iff]
    simp only [hparams, htokens]
    exact iff_or_self

/-! ## A subword vocabulary -/

def joining (piece : TokenId → Text) : Tokenizer where
  eosTokenId := 0
  bosTokenId := 0
  encode := fun _ => []
  decode := fun tokens => tokens.flatMap piece

def pairPiece (_ : TokenId) : Text := ['a', 'b']

def stoppingRequest (stop : Text) (hstop : stop ≠ []) : RequestState where
  requestId := "a"
  prompt := []
  promptTokenIds := [5]
  samplingParams := { SamplingParams.defaults with
    stop := [stop]
    stop_ne_nil := by simpa using hstop }

def runningAlone (request : RequestState) : Scheduler where
  waiting := []
  running := .singleton request.requestId request
  cacheManager := .init 8

theorem stop_strings_absent_iff_pair : ∃ τs s,
    Run (FeedStep EngineCore.smallConfig (joining pairPiece) "a")
      (runningAlone (stoppingRequest ['c'] (by decide))) τs s ∧ fedTokens "a" τs = [7] ∧
    (∃ text, (outputText (joining pairPiece) "a").run s = .ok text s ∧
      ((∀ stop ∈ (stoppingRequest ['c'] (by decide)).samplingParams.stop, ¬ stop <:+: text) ↔
        ¬ StopInsideToken pairPiece (stoppingRequest ['c'] (by decide)).samplingParams
          (fedTokens "a" τs)) ∧
      ∀ token reason s', token ≠ (joining pairPiece).eosTokenId →
        (appendToken EngineCore.smallConfig (joining pairPiece) "a" token).run s =
          .ok reason s' →
        (∀ stop ∈ (stoppingRequest ['c'] (by decide)).samplingParams.stop, ¬ stop <:+: text) →
        ((reason = some .stop ↔ ∃ stop ∈
            (stoppingRequest ['c'] (by decide)).samplingParams.stop,
            stop <:+: (joining pairPiece).decode (fedTokens "a" τs ++ [token])) ↔
          ((∃ stop ∈ (stoppingRequest ['c'] (by decide)).samplingParams.stop,
              Pieces.EndsInside stop text (pairPiece token)) →
            ∃ stop ∈ (stoppingRequest ['c'] (by decide)).samplingParams.stop,
              stop <:+ (joining pairPiece).decode (fedTokens "a" τs ++ [token])))) := by
  have hrunning : (runningAlone (stoppingRequest ['c'] (by decide))).running.get? "a" =
      some (stoppingRequest ['c'] (by decide)) := Dict.get?_singleton _ _ _
  obtain ⟨s, happend, _⟩ := run_appendToken EngineCore.smallConfig (joining pairPiece) 7 hrunning
  have hnone : ((stoppingRequest ['c'] (by decide)).sample EngineCore.smallConfig
      (joining pairPiece) 7).2 = none := by decide
  rw [hnone] at happend
  have hrun : Run (FeedStep EngineCore.smallConfig (joining pairPiece) "a")
      (runningAlone (stoppingRequest ['c'] (by decide))) _ s :=
    .snoc .nil (.token (by decide) happend)
  exact ⟨_, s, hrun, rfl, stop_strings_absent_iff (fun _ => rfl) hrunning rfl hrun⟩

/-- With the stop string `a`, one token of text `ab` returns `None` and leaves it in the
output. -/
theorem stop_string_passes :
    ¬ ∀ (config : EngineConfig) (tokenizer : Tokenizer) (piece : TokenId → Text),
      (∀ tokens, tokenizer.decode tokens = tokens.flatMap piece) →
      ∀ (id : RequestId) (s₀ s : Scheduler) (r₀ : RequestState),
      s₀.running.get? id = some r₀ → r₀.outputTokenIds = [] →
      ∀ τs, Run (FeedStep config tokenizer id) s₀ τs s →
      ∀ text, (outputText tokenizer id).run s = .ok text s →
      ∀ stop ∈ r₀.samplingParams.stop, ¬ stop <:+: text := by
  intro h
  have hrunning : (runningAlone (stoppingRequest ['a'] (by decide))).running.get? "a" =
      some (stoppingRequest ['a'] (by decide)) := Dict.get?_singleton _ _ _
  obtain ⟨s, happend, hget, _⟩ :=
    run_appendToken EngineCore.smallConfig (joining pairPiece) 7 hrunning
  have hnone : ((stoppingRequest ['a'] (by decide)).sample EngineCore.smallConfig
      (joining pairPiece) 7).2 = none := by decide
  rw [hnone] at happend
  refine h EngineCore.smallConfig (joining pairPiece) pairPiece (fun _ => rfl) "a" _ s _ hrunning
    rfl _ (.snoc .nil (.token (by decide) happend)) _ (run_outputText _ hget) ['a'] ?_ ?_
  · simp [stoppingRequest]
  · exact ⟨[], ['b'], by decide⟩

end Scheduler

end MiniVLLM
